import PgFusion.Data.Fallible
import PgFusion.Wire.Canonical

/-!
Scan descriptors as bytes (`pg/extension`: `scan_worker_job.rs`); a `usize` has 64 bits.

* `decode_eq_ok`: the bytes that are decoded are those of a descriptor;
* `descriptors_round_trip`: what is written is read.
-/

namespace PgFusion.ScanJobs

open Bytes Fallible Wire

/-! ### Descriptors -/

/-- `StandaloneScanField`. -/
structure StandaloneScanField where
  name : String
  typeTag : UInt16
  nullable : Bool
deriving DecidableEq

/-- `StandaloneScanDescriptor`. -/
structure StandaloneScanDescriptor where
  sql : String
  tableOid : UInt32
  fields : List StandaloneScanField
  sourceProjection : List UInt64
  plannerFetchHint : Option UInt64
  localRowCap : Option UInt64
deriving DecidableEq

/-- `ScanWorkerJobError`, as far as descriptors go; the text of a UTF-8 error is left out. -/
inductive ScanWorkerJobError where
  | payloadTooLarge (actual capacity : ℕ)
  | descriptorEncode (message : String)
  | descriptorEnded (label : String)
  | invalidMagic
  | unsupportedVersion (version : UInt8)
  | invalidNullable (flag : UInt8)
  | invalidUtf8 (label : String)
  | trailingBytes (count : ℕ)
deriving DecidableEq

/-- `DESCRIPTOR_MAGIC`: the text "PFSD". -/
def descriptorMagic : List UInt8 := [80, 70, 83, 68]

/-- `DESCRIPTOR_VERSION`. -/
def descriptorVersion : UInt8 := 1

/-- `SCAN_WORKER_PAYLOAD_CAPACITY`. -/
def scanWorkerPayloadCapacity : ℕ := 64 * 1024

/-- `NONE_U64`. -/
def noneU64 : ℕ := 2 ^ 64 - 1

/-! ### Writing -/

/-- `put_len`. -/
def putLen (value : ℕ) (label : String) : Except ScanWorkerJobError (List UInt8) :=
  if value < 2 ^ 32 then .ok (leBytes 4 value)
  else .error (.descriptorEncode (label ++ " does not fit into u32"))

/-- `put_option_usize`. -/
def putOptionUsize : Option UInt64 → List UInt8
  | some value => leBytes 8 value.toNat
  | none => leBytes 8 noneU64

/-- `put_bytes` of a text. -/
def putBytes (text : String) (label : String) : Except ScanWorkerJobError (List UInt8) := do
  let len ← putLen (utf8 text).length label
  return len ++ utf8 text

/-- One field. -/
def putField (field : StandaloneScanField) : Except ScanWorkerJobError (List UInt8) := do
  let name ← putBytes field.name "field name"
  return name ++ leBytes 2 field.typeTag.toNat ++ [if field.nullable then 1 else 0]

/-- `encode_scan_worker_descriptor` up to the check of the size. -/
def encodedDescriptor (d : StandaloneScanDescriptor) : Except ScanWorkerJobError (List UInt8) := do
  let sql ← putBytes d.sql "scan SQL"
  let fieldCount ← putLen d.fields.length "field count"
  let fields ← d.fields.mapM putField
  let projectionLen ← putLen d.sourceProjection.length "source projection length"
  return descriptorMagic ++ ([descriptorVersion] ++ (leBytes 4 d.tableOid.toNat ++
    (putOptionUsize d.plannerFetchHint ++ (putOptionUsize d.localRowCap ++ (sql ++ (fieldCount ++
      (fields.flatten ++ (projectionLen ++ d.sourceProjection.flatMap fun index =>
        leBytes 8 index.toNat))))))))

/-- `encode_scan_worker_descriptor`. -/
def encodeScanWorkerDescriptor (d : StandaloneScanDescriptor) :
    Except ScanWorkerJobError (List UInt8) := do
  let out ← encodedDescriptor d
  refuse (scanWorkerPayloadCapacity < out.length)
    (.payloadTooLarge out.length scanWorkerPayloadCapacity)
  return out

/-! ### Reading -/

/-- `DescriptorReader::read_exact`. -/
def readExact (len : ℕ) (label : String) : Reader ScanWorkerJobError (List UInt8) :=
  takeOr len fun _ => .descriptorEnded label

/-- `DescriptorReader::read_u8` to `read_u64`: a number of so many bytes. -/
def readWord (bytes : ℕ) (label : String) : Reader ScanWorkerJobError ℕ :=
  ofLe <$> readExact bytes label

/-- `DescriptorReader::read_option_usize`. -/
def readOptionUsize (label : String) : Reader ScanWorkerJobError (Option UInt64) :=
  (fun value => if value = noneU64 then none else some (UInt64.ofNat value)) <$> readWord 8 label

/-- `DescriptorReader::read_string`. -/
def readString (label : String) : Reader ScanWorkerJobError String := do
  let len ← readWord 4 label
  let bytes ← readExact len label
  match ofUtf8 bytes with
  | some text => return text
  | none => throw (.invalidUtf8 label)

/-- The flag of a field. -/
def readNullable : Reader ScanWorkerJobError Bool := do
  let flag ← readWord 1 "field nullable"
  require (flag < 2) (.invalidNullable (UInt8.ofNat flag))
  return flag = 1

/-- One field. -/
def readField : Reader ScanWorkerJobError StandaloneScanField := do
  let name ← readString "field name"
  let typeTag ← UInt16.ofNat <$> readWord 2 "field type tag"
  let nullable ← readNullable
  return ⟨name, typeTag, nullable⟩

/-- `DescriptorReader::read_descriptor` up to the check of the end. -/
def readDescriptor : Reader ScanWorkerJobError StandaloneScanDescriptor := do
  let magic ← readExact descriptorMagic.length "magic"
  require (magic = descriptorMagic) .invalidMagic
  let version ← UInt8.ofNat <$> readWord 1 "version"
  require (version = descriptorVersion) (.unsupportedVersion version)
  let tableOid ← UInt32.ofNat <$> readWord 4 "table oid"
  let plannerFetchHint ← readOptionUsize "planner fetch hint"
  let localRowCap ← readOptionUsize "local row cap"
  let sql ← readString "scan SQL"
  let fieldCount ← readWord 4 "field count"
  let fields ← readField.many fieldCount
  let projectionLen ← readWord 4 "source projection length"
  let sourceProjection ← (UInt64.ofNat <$> readWord 8 "source projection").many projectionLen
  return ⟨sql, tableOid, fields, sourceProjection, plannerFetchHint, localRowCap⟩

/-- `decode_scan_worker_descriptor`. -/
def decodeScanWorkerDescriptor (payload : List UInt8) :
    Except ScanWorkerJobError StandaloneScanDescriptor :=
  match readDescriptor.run payload with
  | .error e => .error e
  | .ok (d, rest) => if rest = [] then .ok d else .error (.trailingBytes rest.length)

/-! ### The parts -/

/-- The bytes of a text under its length. -/
def textBytes (text : String) : List UInt8 := leBytes 4 (utf8 text).length ++ utf8 text

/-- The bytes of a field. -/
def fieldBytes (field : StandaloneScanField) : List UInt8 :=
  textBytes field.name ++ leBytes 2 field.typeTag.toNat ++ [if field.nullable then 1 else 0]

/-- The length of a text fits its word. -/
def TextFits (text : String) : Prop := (utf8 text).length < 2 ^ 32

lemma canonical_word (k : ℕ) (label : String) :
    Canonical (readWord k label) (leBytes k) fun n => n < 256 ^ k := Canonical.word k _

lemma canonical_optionUsize (label : String) :
    Canonical (readOptionUsize label) putOptionUsize fun v => ∀ n ∈ v, n.toNat ≠ noneU64 := by
  intro s v r
  rw [readOptionUsize, map_eq_pure_bind, Reader.run_bind_eq_ok]
  constructor
  · rintro ⟨n, s', hn, hpure⟩
    obtain ⟨hlt, rfl⟩ := (canonical_word 8 label _ _ _).mp hn
    obtain ⟨rfl, rfl⟩ := Prod.mk.inj (Reader.pure_eq_ok.mp hpure)
    split_ifs with hnone
    · refine ⟨fun m hm => ?_, by rw [hnone]; rfl⟩
      cases hm
    · have hnat : (UInt64.ofNat n).toNat = n := UInt64.toNat_ofNat_of_lt' hlt
      refine ⟨fun m hm => ?_, by rw [putOptionUsize, hnat]⟩
      obtain rfl := Option.some.inj hm
      rwa [hnat]
  · rintro ⟨hv, rfl⟩
    cases v with
    | none => exact ⟨noneU64, r, (canonical_word 8 label _ _ _).mpr ⟨by decide, rfl⟩, rfl⟩
    | some n =>
      refine ⟨n.toNat, r, (canonical_word 8 label _ _ _).mpr ⟨n.toNat_lt, rfl⟩, ?_⟩
      rw [Reader.pure_eq_ok, if_neg (hv n rfl), UInt64.ofNat_toNat]

lemma canonical_string (label : String) : Canonical (readString label) textBytes TextFits := by
  intro s text r
  simp only [readString, Reader.run_bind_eq_ok]
  constructor
  · rintro ⟨len, s', hlen, bytes, s'', hbytes, htext⟩
    obtain ⟨hlt, rfl⟩ := (canonical_word 4 label _ _ _).mp hlen
    obtain ⟨rfl, rfl⟩ := (Canonical.takeOr len _ _ _ _).mp hbytes
    cases hutf : ofUtf8 bytes with
    | none =>
      rw [hutf] at htext
      cases htext
    | some t =>
      rw [hutf] at htext
      obtain ⟨rfl, rfl⟩ := Prod.mk.inj (Reader.pure_eq_ok.mp htext)
      rw [textBytes, TextFits, utf8_of_ofUtf8 hutf, List.append_assoc]
      exact ⟨hlt, rfl⟩
  · rintro ⟨hfits, rfl⟩
    refine ⟨_, utf8 text ++ r, (canonical_word 4 label _ _ _).mpr ⟨hfits, ?_⟩, utf8 text, r,
      (Canonical.takeOr _ _ _ _ _).mpr ⟨rfl, rfl⟩, ?_⟩
    · rw [textBytes, List.append_assoc]
    · rw [ofUtf8_utf8]
      rfl

lemma canonical_nullable :
    Canonical readNullable (fun b => [if b then (1 : UInt8) else 0]) fun _ => True := by
  intro s b r
  simp only [readNullable, Reader.run_bind_eq_ok, run_require_eq_ok, Reader.pure_eq_ok,
    Prod.mk.injEq]
  constructor
  · rintro ⟨flag, s', hflag, -, s'', ⟨hlt, rfl⟩, rfl, rfl⟩
    obtain ⟨-, rfl⟩ := (canonical_word 1 _ _ _ _).mp hflag
    refine ⟨trivial, ?_⟩
    interval_cases flag <;> rfl
  · rintro ⟨-, rfl⟩
    refine ⟨if b then 1 else 0, r, (canonical_word 1 _ _ _ _).mpr ⟨?_, ?_⟩, (), r, ⟨?_, rfl⟩,
      ?_, rfl⟩ <;>
      cases b <;> first | rfl | decide

lemma canonical_typeTag (label : String) :
    Canonical (UInt16.ofNat <$> readWord 2 label) (fun v => leBytes 2 v.toNat) fun v =>
      v.toNat < 256 ^ 2 :=
  (canonical_word 2 label).map (fun _ => UInt16.ofNat_toNat) fun _ hn =>
    UInt16.toNat_ofNat_of_lt' hn

lemma canonical_oid (label : String) :
    Canonical (UInt32.ofNat <$> readWord 4 label) (fun v => leBytes 4 v.toNat) fun v =>
      v.toNat < 256 ^ 4 :=
  (canonical_word 4 label).map (fun _ => UInt32.ofNat_toNat) fun _ hn =>
    UInt32.toNat_ofNat_of_lt' hn

lemma canonical_usize (label : String) :
    Canonical (UInt64.ofNat <$> readWord 8 label) (fun v => leBytes 8 v.toNat) fun v =>
      v.toNat < 256 ^ 8 :=
  (canonical_word 8 label).map (fun _ => UInt64.ofNat_toNat) fun _ hn =>
    UInt64.toNat_ofNat_of_lt' hn

lemma canonical_field : Canonical readField fieldBytes fun f => TextFits f.name := by
  intro s f r
  simp only [readField, Reader.run_bind_eq_ok, Reader.pure_eq_ok, Prod.mk.injEq]
  constructor
  · rintro ⟨name, s₁, hname, tag, s₂, htag, nullable, s₃, hnull, rfl, rfl⟩
    obtain ⟨hfits, rfl⟩ := (canonical_string _ _ _ _).mp hname
    obtain ⟨-, rfl⟩ := (canonical_typeTag _ _ _ _).mp htag
    obtain ⟨-, rfl⟩ := (canonical_nullable _ _ _).mp hnull
    refine ⟨hfits, ?_⟩
    rw [fieldBytes, List.append_assoc, List.append_assoc]
  · rintro ⟨hfits, rfl⟩
    refine ⟨f.name, _, (canonical_string _ _ _ _).mpr ⟨hfits, ?_⟩, f.typeTag, _,
      (canonical_typeTag _ _ _ _).mpr ⟨f.typeTag.toNat_lt, rfl⟩, f.nullable, r,
      (canonical_nullable _ _ _).mpr ⟨trivial, rfl⟩, rfl, rfl⟩
    rw [fieldBytes, List.append_assoc, List.append_assoc]

/-! ### Descriptors -/

/-- The bytes of a descriptor. -/
def descriptorBytes (d : StandaloneScanDescriptor) : List UInt8 :=
  descriptorMagic ++ ([descriptorVersion] ++ (leBytes 4 d.tableOid.toNat ++
    (putOptionUsize d.plannerFetchHint ++ (putOptionUsize d.localRowCap ++ (textBytes d.sql ++
      (leBytes 4 d.fields.length ++
        (d.fields.flatMap fieldBytes ++ (leBytes 4 d.sourceProjection.length ++
        d.sourceProjection.flatMap fun index => leBytes 8 index.toNat))))))))

/-- All lengths of a descriptor fit their words. -/
structure Fits (d : StandaloneScanDescriptor) : Prop where
  sql : TextFits d.sql
  fieldCount : d.fields.length < 2 ^ 32
  names : ∀ f ∈ d.fields, TextFits f.name
  projectionLen : d.sourceProjection.length < 2 ^ 32

lemma putLen_eq_ok {n : ℕ} {label : String} {out : List UInt8} :
    putLen n label = .ok out ↔ n < 2 ^ 32 ∧ leBytes 4 n = out := by
  rw [putLen]
  split_ifs with h
  · simp only [Except.ok.injEq, h, true_and]
  · simp only [h, false_and]

lemma putBytes_eq_ok {text label : String} {out : List UInt8} :
    putBytes text label = .ok out ↔ TextFits text ∧ textBytes text = out := by
  simp only [putBytes, bind_eq_ok, putLen_eq_ok, pure_eq_ok]
  constructor
  · rintro ⟨_, ⟨hfits, rfl⟩, rfl⟩
    exact ⟨hfits, rfl⟩
  · rintro ⟨hfits, rfl⟩
    exact ⟨_, ⟨hfits, rfl⟩, rfl⟩

lemma mapM_putField_eq_ok {fields : List StandaloneScanField} {out : List (List UInt8)} :
    fields.mapM putField = .ok out ↔ (∀ f ∈ fields, TextFits f.name) ∧
      fields.map fieldBytes = out := by
  induction fields generalizing out with
  | nil =>
    rw [List.mapM_nil, pure_eq_ok]
    exact ⟨fun h => ⟨fun f hf => absurd hf List.not_mem_nil, h⟩, fun h => h.2⟩
  | cons f fields ih =>
    simp only [List.mapM_cons, putField, bind_eq_ok, pure_eq_ok, putBytes_eq_ok, ih,
      List.forall_mem_cons, List.map_cons]
    constructor
    · rintro ⟨_, ⟨_, ⟨hf, rfl⟩, rfl⟩, _, ⟨hfields, rfl⟩, rfl⟩
      exact ⟨⟨hf, hfields⟩, rfl⟩
    · rintro ⟨⟨hf, hfields⟩, rfl⟩
      exact ⟨_, ⟨_, ⟨hf, rfl⟩, rfl⟩, _, ⟨hfields, rfl⟩, rfl⟩

/-- What is written for a descriptor. -/
lemma encodedDescriptor_eq_ok {d : StandaloneScanDescriptor} {out : List UInt8} :
    encodedDescriptor d = .ok out ↔ Fits d ∧ descriptorBytes d = out := by
  simp only [encodedDescriptor, bind_eq_ok, pure_eq_ok, putBytes_eq_ok, putLen_eq_ok,
    mapM_putField_eq_ok]
  constructor
  · rintro ⟨_, ⟨hsql, rfl⟩, _, ⟨hcount, rfl⟩, _, ⟨hnames, rfl⟩, _, ⟨hlen, rfl⟩, rfl⟩
    refine ⟨⟨hsql, hcount, hnames, hlen⟩, ?_⟩
    rw [descriptorBytes, List.flatMap_def]
  · rintro ⟨⟨hsql, hcount, hnames, hlen⟩, rfl⟩
    refine ⟨_, ⟨hsql, rfl⟩, _, ⟨hcount, rfl⟩, _, ⟨hnames, rfl⟩, _, ⟨hlen, rfl⟩, ?_⟩
    rw [descriptorBytes, ← List.flatMap_def]

/-- **What is read is what is written.** -/
lemma decode_eq_ok {payload : List UInt8} {d : StandaloneScanDescriptor} :
    decodeScanWorkerDescriptor payload = .ok d ↔
      Fits d ∧ (∀ n ∈ d.plannerFetchHint, n.toNat ≠ noneU64) ∧
        (∀ n ∈ d.localRowCap, n.toNat ≠ noneU64) ∧ payload = descriptorBytes d := by
  have hrun : decodeScanWorkerDescriptor payload = .ok d ↔ readDescriptor.run payload =
    .ok (d, []) := by
    rw [decodeScanWorkerDescriptor]
    rcases readDescriptor.run payload with e | ⟨d', rest⟩
    · simp
    · by_cases hrest : rest = []
      · simp [hrest]
      · simp [hrest]
  rw [hrun]
  simp only [readDescriptor, Reader.run_bind_eq_ok, run_require_eq_ok, Reader.pure_eq_ok,
    Prod.mk.injEq]
  constructor
  · rintro ⟨magic, s₁, h₁, -, s₂, ⟨rfl, rfl⟩, version, s₃, h₃, -, s₄, ⟨rfl, rfl⟩, oid, s₅, h₅, hint,
      s₆, h₆, cap,
      s₇, h₇, sql, s₈, h₈, count, s₉, h₉, fields, s₁₀, h₁₀, len, s₁₁, h₁₁, projection, s₁₂,
        h₁₂, rfl, rfl⟩
    obtain ⟨-, rfl⟩ := (Canonical.takeOr _ _ _ _ _).mp h₁
    obtain ⟨-, rfl⟩ := (((canonical_word 1 _).map (fun _ => UInt8.ofNat_toNat)
      fun _ hn => UInt8.toNat_ofNat_of_lt' hn) _ _ _).mp h₃
    obtain ⟨-, rfl⟩ := (canonical_oid _ _ _ _).mp h₅
    obtain ⟨hhint, rfl⟩ := (canonical_optionUsize _ _ _ _).mp h₆
    obtain ⟨hcap, rfl⟩ := (canonical_optionUsize _ _ _ _).mp h₇
    obtain ⟨hsql, rfl⟩ := (canonical_string _ _ _ _).mp h₈
    obtain ⟨hcount, rfl⟩ := (canonical_word 4 _ _ _ _).mp h₉
    obtain ⟨⟨rfl, hnames⟩, rfl⟩ := (canonical_field.many _ _ _ _).mp h₁₀
    obtain ⟨hlen, rfl⟩ := (canonical_word 4 _ _ _ _).mp h₁₁
    obtain ⟨⟨rfl, -⟩, rfl⟩ := ((canonical_usize _).many _ _ _ _).mp h₁₂
    refine ⟨⟨hsql, hcount, hnames, hlen⟩, hhint, hcap, ?_⟩
    rw [descriptorBytes, List.append_nil]
    rfl
  · rintro ⟨hfits, hhint, hcap, rfl⟩
    refine ⟨_, _, (Canonical.takeOr _ _ _ _ _).mpr ⟨rfl, rfl⟩, (), _, ⟨rfl, rfl⟩,
      descriptorVersion, _,
      (((canonical_word 1 _).map (fun _ => UInt8.ofNat_toNat) fun _ hn =>
        UInt8.toNat_ofNat_of_lt' hn) _ _ _).mpr
        ⟨by decide, rfl⟩, (), _, ⟨rfl, rfl⟩, d.tableOid, _,
          (canonical_oid _ _ _ _).mpr ⟨d.tableOid.toNat_lt, rfl⟩,
      _, _, (canonical_optionUsize _ _ _ _).mpr ⟨hhint, rfl⟩, _, _,
      (canonical_optionUsize _ _ _ _).mpr ⟨hcap, rfl⟩, _, _,
        (canonical_string _ _ _ _).mpr ⟨hfits.sql, rfl⟩, _, _,
      (canonical_word 4 _ _ _ _).mpr ⟨hfits.fieldCount, rfl⟩, _, _,
      (canonical_field.many _ _ _ _).mpr ⟨⟨rfl, hfits.names⟩, rfl⟩, _, _,
      (canonical_word 4 _ _ _ _).mpr ⟨hfits.projectionLen, rfl⟩, d.sourceProjection, [],
      ((canonical_usize _).many _ _ _ _).mpr ⟨⟨rfl, fun v _ => v.toNat_lt⟩,
        (List.append_nil _).symm⟩, rfl, rfl⟩

/-- **Scan descriptors round-trip**: a descriptor that is encoded is decoded again, and a payload
that is decoded is what is written for its descriptor, which the encoder accepts unless it exceeds
the capacity. -/
theorem descriptors_round_trip :
    (∀ d out, (∀ n ∈ d.plannerFetchHint, n.toNat < 2 ^ 64 - 1) →
      (∀ n ∈ d.localRowCap, n.toNat < 2 ^ 64 - 1) →
      encodeScanWorkerDescriptor d = .ok out → decodeScanWorkerDescriptor out = .ok d) ∧
    ∀ payload d, decodeScanWorkerDescriptor payload = .ok d →
      encodedDescriptor d = .ok payload ∧
        (payload.length ≤ scanWorkerPayloadCapacity → encodeScanWorkerDescriptor d =
          .ok payload) := by
  constructor
  · intro d out hhint hcap hencode
    simp only [encodeScanWorkerDescriptor, bind_eq_ok, refuse_eq_ok, pure_eq_ok] at hencode
    obtain ⟨_, hbytes, -, -, rfl⟩ := hencode
    obtain ⟨hfits, rfl⟩ := encodedDescriptor_eq_ok.mp hbytes
    exact decode_eq_ok.mpr ⟨hfits, fun n hn => (hhint n hn).ne, fun n hn => (hcap n hn).ne, rfl⟩
  · intro payload d hdecode
    obtain ⟨hfits, -, -, rfl⟩ := decode_eq_ok.mp hdecode
    have hbytes := encodedDescriptor_eq_ok.mpr ⟨hfits, rfl⟩
    refine ⟨hbytes, fun hlen => ?_⟩
    rw [encodeScanWorkerDescriptor, hbytes, ok_bind, refuse_of_not (not_lt.mpr hlen)]
    rfl

/-- A scan of two columns with a row cap. -/
def ordersScan : StandaloneScanDescriptor :=
  ⟨"SELECT id, note FROM orders WHERE id > 10", 7, [⟨"id", 3, false⟩, ⟨"note", 9, true⟩], [0, 1],
    none, some 5⟩

/-- The descriptor of that scan is encoded and decoded again. -/
theorem descriptors_round_trip_sample :
    ∃ out, encodeScanWorkerDescriptor ordersScan = .ok out ∧
      decodeScanWorkerDescriptor out = .ok ordersScan := by
  have hencode : encodeScanWorkerDescriptor ordersScan = .ok (descriptorBytes ordersScan) := by
    decide +kernel
  refine ⟨_, hencode, descriptors_round_trip.1 _ _ (fun n hn => ?_) (fun n hn => ?_) hencode⟩
  · cases hn
  · obtain rfl := Option.some.inj hn
    decide

end PgFusion.ScanJobs

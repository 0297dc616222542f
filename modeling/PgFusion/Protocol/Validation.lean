import Mathlib.Data.Nat.Bitwise
import PgFusion.Protocol.Descriptor

/-!
Validation of descriptor lists, from `runtime/protocol/src/validation.rs`: one pass, by the encoder
on the descriptors and by the decoder as it reads them, each with errors of its own.

* `Observed.validate_iff`, `Seen.validate_iff`: the pass accepts exactly the right lists;
* `descriptor_lists_validated_exactly`: by the encoder and by the decoder.
-/

namespace PgFusion.Protocol

open Wire

/-! ### Scan channels -/

/-- The errors of one side. -/
structure ScanChannelErrors (ε : Type) where
  duplicate : UInt64 → UInt16 → ε
  outOfOrder : UInt64 → UInt16 → UInt64 → UInt16 → ε
  multipleLeaders : UInt64 → ε
  missingLeader : UInt64 → ε

/-- The errors of `observe_encode_scan_channel`. -/
def encodeErrors : ScanChannelErrors ScanChannelSetError where
  duplicate := .duplicateProducer
  outOfOrder := .channelOutOfOrder
  multipleLeaders := .multipleLeaders
  missingLeader := .missingLeader

/-- The errors of `observe_decode_scan_channel`. -/
def decodeErrors : ScanChannelErrors DecodeError where
  duplicate := .duplicateScanProducer
  outOfOrder := .scanChannelOutOfOrder
  multipleLeaders := .multipleScanChannelLeaders
  missingLeader := .missingScanChannelLeader

/-- `ScanChannelValidationState`. -/
structure ScanChannelValidationState where
  previous : Option (UInt64 × UInt16)
  currentScanId : Option UInt64
  leaderSeen : Bool
deriving DecidableEq

/-- `ScanChannelValidationState::default`. -/
def ScanChannelValidationState.default : ScanChannelValidationState := ⟨none, none, false⟩

variable {ε : Type} (errs : ScanChannelErrors ε)

/-- `finish_decode_scan_channel_validation` and `finish_encode_scan_channel_validation`. -/
def finishScanChannelValidation (state : ScanChannelValidationState) : Except ε Unit :=
  match state.currentScanId with
  | some scanId => if state.leaderSeen then .ok () else .error (errs.missingLeader scanId)
  | none => .ok ()

/-- The comparison with the previous descriptor. -/
def checkOrder (state : ScanChannelValidationState) (current : ScanChannelDescriptorWire) :
    Except ε Unit :=
  match state.previous with
  | some (previousScanId, previousProducerId) =>
    if current.scanId = previousScanId ∧ current.producerId = previousProducerId then
      .error (errs.duplicate current.scanId current.producerId)
    else if current.scanId < previousScanId ∨
        current.scanId = previousScanId ∧ current.producerId < previousProducerId then
      .error (errs.outOfOrder previousScanId previousProducerId current.scanId current.producerId)
    else .ok ()
  | none => .ok ()

/-- The beginning of another scan. -/
def enterScan (state : ScanChannelValidationState) (current : ScanChannelDescriptorWire) :
    Except ε ScanChannelValidationState :=
  if state.currentScanId ≠ some current.scanId then do
    finishScanChannelValidation errs state
    return { state with
      currentScanId := some current.scanId
      leaderSeen := false }
  else .ok state

/-- `observe_decode_scan_channel` and `observe_encode_scan_channel`. -/
def observeScanChannel (state : ScanChannelValidationState) (current : ScanChannelDescriptorWire) :
    Except ε ScanChannelValidationState := do
  checkOrder errs state current
  let state ← enterScan errs state current
  if current.role = .leader ∧ state.leaderSeen then .error (errs.multipleLeaders current.scanId)
  else .ok { state with
    leaderSeen := state.leaderSeen || decide (current.role = .leader)
    previous := some (current.scanId, current.producerId) }

/-- A whole pass. -/
def validateScanChannels (state : ScanChannelValidationState)
    (channels : List ScanChannelDescriptorWire) : Except ε Unit := do
  let state ← channels.foldlM (observeScanChannel errs) state
  finishScanChannelValidation errs state

/-- `validate_scan_channel_slice`. -/
def validateScanChannelSlice (channels : List ScanChannelDescriptorWire) :
    Except ScanChannelSetError Unit :=
  validateScanChannels encodeErrors .default channels

/-! ### Producers -/

/-- `ProducerIdBitmap`. -/
structure ProducerIdBitmap where
  words : Vector UInt64 1024

/-- `ProducerIdBitmap::new`. -/
def ProducerIdBitmap.new : ProducerIdBitmap := ⟨Vector.replicate 1024 0⟩

/-- The word of an id. -/
def wordIndex (producerId : UInt16) : Fin 1024 :=
  ⟨producerId.toNat / 64, by have := producerId.toNat_lt; omega⟩

/-- The bit of an id. -/
def idBit (producerId : UInt16) : UInt64 := 1 <<< UInt64.ofNat (producerId.toNat % 64)

/-- `ProducerIdBitmap::insert`: whether the id was absent, and the bitmap. -/
def ProducerIdBitmap.insert (bitmap : ProducerIdBitmap) (producerId : UInt16) :
    Bool × ProducerIdBitmap :=
  let i := wordIndex producerId
  let word := bitmap.words[i]
  (word &&& idBit producerId = 0, ⟨bitmap.words.set i (word ||| idBit producerId)⟩)

/-- `ProducerSetInvariantError`. -/
inductive ProducerSetInvariantError where
  | duplicateProducerId (producerId : UInt16)
  | multipleLeaders
deriving DecidableEq

/-- `observe_producer`, with the bitmap and the flag after it. -/
def observeProducer (state : ProducerIdBitmap × Bool) (producer : ProducerDescriptorWire) :
    Except ProducerSetInvariantError (ProducerIdBitmap × Bool) :=
  if producer.role = .leader ∧ state.2 then .error .multipleLeaders
  else
    let inserted := state.1.insert producer.producerId
    if inserted.1 then .ok (inserted.2, state.2 || decide (producer.role = .leader))
    else .error (.duplicateProducerId producer.producerId)

/-- `map_invariant_error_to_encode`. -/
def mapInvariantErrorToEncode : ProducerSetInvariantError → ProducerSetError
  | .duplicateProducerId producerId => .duplicateProducerId producerId
  | .multipleLeaders => .multipleLeaders

/-- `map_invariant_error_to_decode`. -/
def mapInvariantErrorToDecode : ProducerSetInvariantError → DecodeError
  | .duplicateProducerId producerId => .duplicateProducerId producerId
  | .multipleLeaders => .multipleLeaders

/-- `validate_encode_producer_slice`. -/
def validateEncodeProducerSlice (producers : List ProducerDescriptorWire) :
    Except ProducerSetError Unit :=
  if producers = [] then .error .emptyProducerSet
  else ((producers.foldlM observeProducer (.new, false)).map fun _ => ()).mapError
    mapInvariantErrorToEncode

/-! ### The lists on the wire -/

/-- `PRODUCER_DESCRIPTOR_LEN`. -/
def producerDescriptorLen : ℕ := 2

/-- `SCAN_CHANNEL_DESCRIPTOR_LEN`. -/
def scanChannelDescriptorLen : ℕ := 6

/-- A descriptor in `write_producer_slice_to`. -/
def writeProducer (producer : ProducerDescriptorWire) : List UInt8 :=
  writeLen arrayLen producerDescriptorLen ++ writeWord producer.producerId ++
    writeWord producer.role.toByte

/-- `read_producer_descriptor_from`. -/
def readProducerDescriptorFrom : Reader DecodeError ProducerDescriptorWire := do
  expectMessageLen (← readArrayLenFrom) producerDescriptorLen
  let producerId ← readWordFrom UInt16
  let role ← liftM (ProducerRole.tryFrom (← readWordFrom UInt8))
  return ⟨producerId, role⟩

/-- A descriptor in `write_scan_channel_slice_to`. -/
def writeScanChannel (channel : ScanChannelDescriptorWire) : List UInt8 :=
  writeLen arrayLen scanChannelDescriptorLen ++ writeWord channel.scanId ++
    writeWord channel.producerId ++ writeWord channel.role.toByte ++
      writeWord channel.peer.slotId ++
    writeWord channel.peer.generation ++ writeWord channel.peer.leaseEpoch

/-- `read_scan_channel_descriptor_from`. -/
def readScanChannelDescriptorFrom : Reader DecodeError ScanChannelDescriptorWire := do
  expectMessageLen (← readArrayLenFrom) scanChannelDescriptorLen
  let scanId ← readWordFrom UInt64
  let producerId ← readWordFrom UInt16
  let role ← liftM (ProducerRole.tryFrom (← readWordFrom UInt8))
  let slotId ← readWordFrom UInt32
  let generation ← readWordFrom UInt64
  let leaseEpoch ← readWordFrom UInt64
  return ⟨scanId, producerId, role, slotId, generation, leaseEpoch⟩

/-- The part of `write_producer_slice_to` and `write_scan_channel_slice_to` that writes a list
under its length. -/
def writeSlice {α : Type} (write : α → List UInt8) (tooMany : ℕ → EncodeError) (items : List α) :
    Except EncodeError (List UInt8) :=
  if items.length < 2 ^ 32 then .ok (writeLen arrayLen items.length ++ items.flatMap write)
  else .error (tooMany items.length)

/-- `write_producer_slice_to`. -/
def writeProducerSlice (producers : List ProducerDescriptorWire) :
    Except EncodeError (List UInt8) :=
  writeSlice writeProducer .tooManyProducers producers

/-- `write_scan_channel_slice_to`, after its validation. -/
def writeScanChannels (channels : List ScanChannelDescriptorWire) :
    Except EncodeError (List UInt8) :=
  writeSlice writeScanChannel .tooManyScanChannels channels

/-- `ProducerSetRef` and `ScanChannelSetRef`: the bytes of a list, and its length. -/
structure SetRef where
  bytes : List UInt8
  len : ℕ
deriving DecidableEq

/-- What a reader takes off the input, between the two positions that the decoder computes from
the lengths. -/
def sliced (x : Reader DecodeError ℕ) : Reader DecodeError SetRef := StateT.mk fun source =>
  match x.run source with
  | .ok (count, rest) => .ok (⟨source.take (source.length - rest.length), count⟩, rest)
  | .error e => .error e

/-- The loop of a decoder: so many descriptors, each of which is observed. -/
def readObserved {α σ : Type} (read : Reader DecodeError α)
    (observe : σ → α → Except DecodeError σ) :
    ℕ → σ → Reader DecodeError σ
  | 0, state => return state
  | count + 1, state => do
    let item ← read
    let state ← liftM (observe state item)
    readObserved read observe count state

/-- `decode_producer_set_ref`. -/
def decodeProducerSetRef : Reader DecodeError SetRef := sliced do
  let count ← readArrayLenFrom
  require (count ≠ 0) .emptyProducerSet
  let _ ← readObserved readProducerDescriptorFrom
    (fun state producer => (observeProducer state producer).mapError mapInvariantErrorToDecode)
    count (.new, false)
  return count

/-- `decode_scan_channel_set_ref`. -/
def decodeScanChannelSetRef : Reader DecodeError SetRef := sliced do
  let count ← readArrayLenFrom
  let state ← readObserved readScanChannelDescriptorFrom (observeScanChannel decodeErrors)
    count .default
  let _ ← liftM (finishScanChannelValidation decodeErrors state)
  return count

/-! ### What is accepted -/

/-- The strict lexicographic order of `(scan_id, producer_id)`. -/
def Before (a b : ScanChannelDescriptorWire) : Prop :=
  a.scanId < b.scanId ∨ a.scanId = b.scanId ∧ a.producerId < b.producerId

instance (a b : ScanChannelDescriptorWire) : Decidable (Before a b) :=
  inferInstanceAs (Decidable (_ ∨ _))

/-- The number of leaders of a scan. -/
def leaders (channels : List ScanChannelDescriptorWire) (scanId : UInt64) : ℕ :=
  channels.countP fun c => c.scanId = scanId ∧ c.role = .leader

/-- Channels in strictly increasing order, with exactly one leader for every scan. -/
structure ScanChannelsOk (channels : List ScanChannelDescriptorWire) : Prop where
  increasing : channels.Pairwise Before
  leader : ∀ c ∈ channels, leaders channels c.scanId = 1

/-- Producers with distinct ids, at least one of them, and at most one leader. -/
structure ProducersOk (producers : List ProducerDescriptorWire) : Prop where
  ne_nil : producers ≠ []
  nodup : (producers.map ProducerDescriptorWire.producerId).Nodup
  leader : (producers.countP fun p => p.role = .leader) ≤ 1

/-! ### The pass over scan channels -/

lemma before_iff {a b : ScanChannelDescriptorWire} : Before a b ↔
    a.scanId.toNat < b.scanId.toNat ∨
      a.scanId.toNat = b.scanId.toNat ∧ a.producerId.toNat < b.producerId.toNat := by
  rw [Before, UInt64.lt_iff_toNat_lt, UInt16.lt_iff_toNat_lt, UInt64.toNat_inj]

lemma Before.trans {a b c : ScanChannelDescriptorWire} (hab : Before a b) (hbc : Before b c) :
    Before a c := by
  rw [before_iff] at *
  omega

/-- The order in which the pass compares two descriptors. -/
lemma not_before_iff {a b : ScanChannelDescriptorWire} : ¬ Before a b ↔
    (b.scanId = a.scanId ∧ b.producerId = a.producerId) ∨ b.scanId < a.scanId ∨
      b.scanId = a.scanId ∧ b.producerId < a.producerId := by
  rw [before_iff, UInt64.lt_iff_toNat_lt, UInt16.lt_iff_toNat_lt, ← UInt64.toNat_inj,
    ← UInt16.toNat_inj]
  omega

lemma leaders_append (l l' : List ScanChannelDescriptorWire) (id : UInt64) :
    leaders (l ++ l') id = leaders l id + leaders l' id := List.countP_append

lemma leaders_singleton (c : ScanChannelDescriptorWire) (id : UInt64) :
    leaders [c] id = if c.scanId = id ∧ c.role = .leader then 1 else 0 := by
  rw [leaders, List.countP_cons, List.countP_nil]
  simp

/-- A scan without channels has no leaders. -/
lemma leaders_eq_zero {l : List ScanChannelDescriptorWire} {id : UInt64}
    (h : ∀ c ∈ l, c.scanId ≠ id) :
    leaders l id = 0 :=
  List.countP_eq_zero.mpr fun c hc => by simp [h c hc]

/-- The state of the pass after the descriptors `pre`. -/
structure Observed (pre : List ScanChannelDescriptorWire) (state : ScanChannelValidationState) :
    Prop where
  increasing : pre.Pairwise Before
  previous : state.previous = pre.getLast?.map fun c => (c.scanId, c.producerId)
  scan : state.currentScanId = pre.getLast?.map ScanChannelDescriptorWire.scanId
  before : ∀ c ∈ pre, state.currentScanId ≠ some c.scanId → leaders pre c.scanId = 1
  current : ∀ id, state.currentScanId = some id → leaders pre id = if state.leaderSeen then 1 else 0

lemma observed_default : Observed [] .default :=
  ⟨List.Pairwise.nil, rfl, rfl, fun _ hc => (nomatch hc), fun _ hid => (nomatch hid)⟩

variable {pre : List ScanChannelDescriptorWire} {state : ScanChannelValidationState}
  {c : ScanChannelDescriptorWire}

/-- All descriptors come before one that the last of them comes before. -/
lemma before_of_getLast? (h : pre.Pairwise Before) (hlast : ∀ l ∈ pre.getLast?, Before l c) :
    ∀ x ∈ pre, Before x c := by
  intro x hx
  obtain ⟨init, l, rfl⟩ := List.eq_nil_or_concat pre |>.resolve_left (List.ne_nil_of_mem hx)
  rw [List.concat_eq_append] at *
  have hl := hlast l (by simp)
  rcases List.mem_append.mp hx with hx | hx
  · exact ((List.pairwise_append.mp h).2.2 x hx l (by simp)).trans hl
  · rwa [List.mem_singleton.mp hx]

/-- The comparison with the previous descriptor is one with all of them. -/
lemma Observed.checkOrder_iff (h : Observed pre state) :
    checkOrder errs state c = .ok () ↔ ∀ x ∈ pre, Before x c := by
  rw [checkOrder, h.previous]
  constructor
  · intro hok
    refine before_of_getLast? h.increasing fun l hl => ?_
    rw [Option.mem_def.mp hl] at hok
    by_contra hnot
    rw [not_before_iff] at hnot
    simp only [Option.map_some] at hok
    split_ifs at hok with hdup hlt
    exact hnot.elim hdup hlt
  · intro hall
    cases hl : pre.getLast? with
    | none => rfl
    | some l =>
      have hbefore := hall l (List.mem_of_getLast? hl)
      simp only [Option.map_some]
      rw [if_neg fun hdup => (not_before_iff.mpr (Or.inl hdup)) hbefore,
        if_neg fun hlt => (not_before_iff.mpr (Or.inr hlt)) hbefore]

/-- The scan that ends with the descriptors `pre` has a leader. -/
lemma Observed.finish_iff (h : Observed pre state) :
    finishScanChannelValidation errs state = .ok () ↔
      ∀ id, state.currentScanId = some id → leaders pre id = 1 := by
  rw [finishScanChannelValidation]
  cases hid : state.currentScanId with
  | none => simp
  | some id =>
    have hcurrent := h.current id hid
    simp only [Option.some.injEq, forall_eq', hcurrent]
    cases state.leaderSeen <;> simp

/-- Two sides of the pass that fail at the same time accept the same. -/
lemma except_ok_or_error {α β : Type} (x : Except α β) : (∃ b, x = .ok b) ∨ ∃ a, x = .error a := by
  cases x with
  | ok b => exact Or.inl ⟨b, rfl⟩
  | error a => exact Or.inr ⟨a, rfl⟩

/-- The state in which a descriptor is looked at: that of its scan. -/
structure Entered (pre : List ScanChannelDescriptorWire) (c : ScanChannelDescriptorWire)
    (state : ScanChannelValidationState) : Prop where
  scan : state.currentScanId = some c.scanId
  before : ∀ x ∈ pre, x.scanId ≠ c.scanId → leaders pre x.scanId = 1
  current : leaders pre c.scanId = if state.leaderSeen then 1 else 0

/-- **A descriptor enters its scan** if the scan before it, when it is another one, has its
leader. -/
lemma Observed.enterScan (h : Observed pre state) (hall : ∀ x ∈ pre, Before x c) :
    (∃ state', Protocol.enterScan errs state c = .ok state' ∧ Entered pre c state') ∨
      (∃ e, Protocol.enterScan errs state c = .error e) ∧
        ∃ x ∈ pre, x.scanId.toNat < c.scanId.toNat ∧ leaders pre x.scanId ≠ 1 := by
  rw [Protocol.enterScan]
  by_cases hsame : state.currentScanId = some c.scanId
  · rw [if_neg (not_not.mpr hsame)]
    refine Or.inl ⟨state, rfl, hsame, fun x hx hne => h.before x hx ?_, h.current _ hsame⟩
    rw [hsame]
    exact fun heq => hne (Option.some.inj heq).symm
  · rw [if_pos hsame]
    -- the channels before belong to smaller scans
    have hsmaller : ∀ x ∈ pre, x.scanId.toNat < c.scanId.toNat := by
      intro x hx
      obtain ⟨l, hl⟩ : ∃ l, pre.getLast? = some l := by
        cases hl : pre.getLast? with
        | none => exact absurd (List.getLast?_eq_none_iff.mp hl) (List.ne_nil_of_mem hx)
        | some l => exact ⟨l, rfl⟩
      have hscan := h.scan
      rw [hl, Option.map_some] at hscan
      have hlc := hall l (List.mem_of_getLast? hl)
      have hne : l.scanId ≠ c.scanId := fun heq => hsame (by rw [hscan, heq])
      rw [Ne, ← UInt64.toNat_inj] at hne
      obtain ⟨init, rfl⟩ := List.getLast?_eq_some_iff.mp hl
      rw [before_iff] at hlc
      rcases List.mem_append.mp hx with hx | hx
      · have hxl := (List.pairwise_append.mp h.increasing).2.2 x hx l (by simp)
        rw [before_iff] at hxl
        omega
      · rw [List.mem_singleton.mp hx]
        omega
    rcases except_ok_or_error (finishScanChannelValidation errs state) with ⟨⟨⟩, hfin⟩ | ⟨e, hfin⟩
    · refine Or.inl ⟨_, by rw [hfin]; rfl, rfl, fun x hx _ => ?_, ?_⟩
      · by_cases hx' : state.currentScanId = some x.scanId
        · exact (h.finish_iff errs).mp hfin _ hx'
        · exact h.before x hx hx'
      · refine leaders_eq_zero fun x hx heq => ?_
        have := hsmaller x hx
        rw [heq] at this
        omega
    · refine Or.inr ⟨⟨e, by rw [hfin]; rfl⟩, ?_⟩
      have hnot : ¬ ∀ id, state.currentScanId = some id → leaders pre id = 1 := fun hall =>
        nomatch hfin.symm.trans ((h.finish_iff errs).mpr hall)
      obtain ⟨id, hid⟩ := not_forall.mp hnot
      obtain ⟨hid, hne⟩ := Classical.not_imp.mp hid
      rw [h.scan, Option.map_eq_some_iff] at hid
      obtain ⟨l, hl, rfl⟩ := hid
      exact ⟨l, List.mem_of_getLast? hl, hsmaller l (List.mem_of_getLast? hl), hne⟩

/-- **A step of the pass.** It succeeds and takes the descriptor in, or it fails and no list
that goes on like this is accepted. -/
lemma Observed.observe (h : Observed pre state) :
    (∃ state', observeScanChannel errs state c = .ok state' ∧ Observed (pre ++ [c]) state') ∨
      (∃ e, observeScanChannel errs state c = .error e) ∧
        ∀ rest, ¬ ScanChannelsOk (pre ++ c :: rest) := by
  rw [observeScanChannel]
  rcases except_ok_or_error (checkOrder errs state c) with ⟨⟨⟩, horder⟩ | ⟨e, horder⟩
  swap
  · -- out of order
    refine Or.inr ⟨⟨e, by rw [horder]; rfl⟩, fun rest hok => ?_⟩
    refine nomatch horder.symm.trans ((h.checkOrder_iff errs).mpr fun x hx => ?_)
    exact (List.pairwise_append.mp hok.increasing).2.2 x hx c List.mem_cons_self
  have hall := (h.checkOrder_iff errs).mp horder
  rw [horder]
  rcases h.enterScan errs hall with ⟨state', henter, hentered⟩ | ⟨⟨e, henter⟩, x, hx, hlt, hne⟩
  swap
  · -- the scan before has no leader, and none comes later
    refine Or.inr ⟨⟨e, by show (Protocol.enterScan errs state c).bind _ = _; rw [henter]; rfl⟩,
      fun rest hok => ?_⟩
    have hone := hok.leader x (List.mem_append_left _ hx)
    rw [leaders_append, leaders_eq_zero (l := c :: rest), Nat.add_zero] at hone
    · exact hne hone
    · intro y hy heq
      have hyc : c.scanId.toNat ≤ y.scanId.toNat := by
        rcases List.mem_cons.mp hy with rfl | hy
        · exact le_rfl
        · have := (List.pairwise_cons.mp (List.pairwise_append.mp hok.increasing).2.1).1 y hy
          rw [before_iff] at this
          omega
      rw [heq] at hyc
      omega
  show (∃ state'', (Protocol.enterScan errs state c).bind _ = .ok state'' ∧ _) ∨
    (∃ e, (Protocol.enterScan errs state c).bind _ = .error e) ∧ _
  rw [henter]
  simp only [Except.bind]
  have hcurrent := hentered.current
  by_cases htwo : c.role = .leader ∧ state'.leaderSeen = true
  · -- a second leader
    refine Or.inr ⟨⟨_, if_pos htwo⟩, fun rest hok => ?_⟩
    have hone := hok.leader c (List.mem_append_right _ List.mem_cons_self)
    rw [leaders_append, ← List.singleton_append, leaders_append, leaders_singleton,
      if_pos ⟨rfl, htwo.1⟩, hcurrent, if_pos htwo.2] at hone
    omega
  · refine Or.inl ⟨_, if_neg htwo, ?_, ?_, ?_, ?_, ?_⟩
    · refine List.pairwise_append.mpr ⟨h.increasing, List.pairwise_singleton _ _, ?_⟩
      intro x hx y hy
      rw [List.mem_singleton.mp hy]
      exact hall x hx
    · simp
    · simp [hentered.scan]
    · intro x hx hne
      have hxc : x.scanId ≠ c.scanId := fun heq => hne (by rw [heq]; exact hentered.scan)
      have hxpre : x ∈ pre := (List.mem_append.mp hx).resolve_right fun hx =>
        hxc (by rw [List.mem_singleton.mp hx])
      rw [leaders_append, leaders_singleton, if_neg fun heq => hxc heq.1.symm, Nat.add_zero]
      exact hentered.before x hxpre hxc
    · intro id hid
      obtain rfl : c.scanId = id := Option.some.inj (hentered.scan.symm.trans hid)
      rw [leaders_append, leaders_singleton, hcurrent]
      cases hrole : c.role <;> cases hseen : state'.leaderSeen <;> simp_all

/-- **A whole pass accepts exactly the lists that are in order**, with the descriptors that were
observed before. -/
lemma Observed.validate_iff (h : Observed pre state) (rest : List ScanChannelDescriptorWire) :
    validateScanChannels errs state rest = .ok () ↔ ScanChannelsOk (pre ++ rest) := by
  induction rest generalizing pre state with
  | nil =>
    rw [List.append_nil, validateScanChannels, List.foldlM_nil]
    show finishScanChannelValidation errs state = .ok () ↔ _
    rw [h.finish_iff errs]
    constructor
    · intro hfin
      refine ⟨h.increasing, fun x hx => ?_⟩
      by_cases hx' : state.currentScanId = some x.scanId
      · exact hfin _ hx'
      · exact h.before x hx hx'
    · intro hok id hid
      rw [h.scan, Option.map_eq_some_iff] at hid
      obtain ⟨l, hl, rfl⟩ := hid
      exact hok.leader l (List.mem_of_getLast? hl)
  | cons c rest ih =>
    rw [validateScanChannels, List.foldlM_cons]
    rcases h.observe errs (c := c) with ⟨state', hstep, hobs⟩ | ⟨⟨e, hstep⟩, hnot⟩
    · rw [hstep]
      have := ih hobs
      rw [List.append_assoc, List.singleton_append] at this
      exact this
    · rw [hstep]
      exact ⟨fun hok => (nomatch hok), fun hok => absurd hok (hnot rest)⟩

lemma validateScanChannels_iff (channels : List ScanChannelDescriptorWire) :
    validateScanChannels errs .default channels = .ok () ↔ ScanChannelsOk channels :=
  observed_default.validate_iff errs channels

/-! ### The pass over producers -/

/-- The bitmap has the bit of an id. -/
def ProducerIdBitmap.Contains (bitmap : ProducerIdBitmap) (id : UInt16) : Prop :=
  bitmap.words[wordIndex id] &&& idBit id ≠ 0

lemma toNat_idBit (id : UInt16) : (idBit id).toNat = 2 ^ (id.toNat % 64) := by
  have hk : id.toNat % 64 < 64 := Nat.mod_lt _ (by norm_num)
  have hpow : 2 ^ (id.toNat % 64) < 2 ^ 64 := Nat.pow_lt_pow_right (by norm_num) hk
  rw [idBit, UInt64.toNat_shiftLeft, UInt64.toNat_ofNat', UInt64.toNat_one, Nat.shiftLeft_eq,
    Nat.one_mul, Nat.mod_eq_of_lt (show id.toNat % 64 < 2 ^ 64 by omega), Nat.mod_mod,
    Nat.mod_eq_of_lt hpow]

lemma and_idBit_ne_zero (word : UInt64) (id : UInt16) :
    word &&& idBit id ≠ 0 ↔ word.toNat.testBit (id.toNat % 64) = true := by
  rw [Ne, ← UInt64.toNat_inj, UInt64.toNat_and, toNat_idBit, Nat.and_two_pow, UInt64.toNat_zero]
  cases word.toNat.testBit (id.toNat % 64) <;> simp

/-- Inserting an id adds its bit and no other. -/
lemma ProducerIdBitmap.contains_insert (bitmap : ProducerIdBitmap) (i j : UInt16) :
    (bitmap.insert i).2.Contains j ↔ j = i ∨ bitmap.Contains j := by
  have hij : j = i ↔ j.toNat / 64 = i.toNat / 64 ∧ j.toNat % 64 = i.toNat % 64 := by
    rw [← UInt16.toNat_inj]
    omega
  have hget : (bitmap.insert i).2.words[wordIndex j] =
      if i.toNat / 64 = j.toNat / 64 then bitmap.words[wordIndex i] ||| idBit i
      else bitmap.words[wordIndex j] := Vector.getElem_set (wordIndex i).2 (wordIndex j).2
  rw [Contains, Contains, hget]
  by_cases hword : i.toNat / 64 = j.toNat / 64
  · have hsame : bitmap.words[wordIndex i] = bitmap.words[wordIndex j] :=
      congrArg (fun k : Fin 1024 => bitmap.words[k]) (Fin.ext hword)
    rw [if_pos hword, hsame, and_idBit_ne_zero, and_idBit_ne_zero, UInt64.toNat_or, Nat.testBit_or,
      toNat_idBit, Nat.testBit_two_pow, Bool.or_eq_true, decide_eq_true_iff, hij]
    tauto
  · rw [if_neg hword, hij]
    tauto

/-- The state of the pass after the producers `pre`. -/
structure Seen (pre : List ProducerDescriptorWire) (state : ProducerIdBitmap × Bool) : Prop where
  ids : ∀ id, state.1.Contains id ↔ id ∈ pre.map ProducerDescriptorWire.producerId
  nodup : (pre.map ProducerDescriptorWire.producerId).Nodup
  leader : (pre.countP fun p => p.role = .leader) = if state.2 then 1 else 0

lemma seen_new : Seen [] (.new, false) where
  ids id := by
    have hword : ProducerIdBitmap.new.words[wordIndex id] = 0 :=
      Vector.getElem_replicate (wordIndex id).2
    rw [ProducerIdBitmap.Contains, hword, UInt64.zero_and]
    simp
  nodup := List.nodup_nil
  leader := rfl

/-- **A step of the pass.** It succeeds and takes the producer in, or it fails and no list that
goes on like this is accepted. -/
lemma Seen.observe {pre : List ProducerDescriptorWire} {state : ProducerIdBitmap × Bool}
    {p : ProducerDescriptorWire} (h : Seen pre state) :
    (∃ state', observeProducer state p = .ok state' ∧ Seen (pre ++ [p]) state') ∨
      (∃ e, observeProducer state p = .error e) ∧ ∀ rest, ¬ ProducersOk (pre ++ p :: rest) := by
  rw [observeProducer]
  by_cases htwo : p.role = .leader ∧ state.2 = true
  · -- a second leader
    refine Or.inr ⟨⟨_, if_pos htwo⟩, fun rest hok => ?_⟩
    have hle := hok.leader
    rw [List.countP_append, h.leader, if_pos htwo.2,
      List.countP_cons_of_pos (by simp [htwo.1])] at hle
    omega
  rw [if_neg htwo]
  by_cases hnew : (state.1.insert p.producerId).1 = true
  · refine Or.inl ⟨_, if_pos hnew, ?_, ?_, ?_⟩
    · intro id
      rw [ProducerIdBitmap.contains_insert, h.ids, List.map_append, List.mem_append]
      simp [or_comm]
    · have habsent : p.producerId ∉ pre.map ProducerDescriptorWire.producerId := by
        rw [← h.ids]
        exact not_not.mpr (of_decide_eq_true hnew)
      rw [List.map_append, List.nodup_append]
      refine ⟨h.nodup, List.nodup_singleton _, ?_⟩
      intro a ha b hb hab
      rw [List.map_singleton, List.mem_singleton] at hb
      exact habsent (by rw [← hb, ← hab]; exact ha)
    · rw [List.countP_append, h.leader]
      cases hrole : p.role <;> cases hseen : state.2 <;> simp_all
  · -- an id for the second time
    refine Or.inr ⟨⟨_, if_neg hnew⟩, fun rest hok => ?_⟩
    have hin : p.producerId ∈ pre.map ProducerDescriptorWire.producerId := by
      rw [← h.ids]
      exact fun hzero => hnew (decide_eq_true hzero)
    have hdup := hok.nodup
    rw [List.map_append, List.nodup_append] at hdup
    exact hdup.2.2 _ hin _ List.mem_cons_self rfl

/-- **A whole pass accepts exactly the lists with distinct ids and at most one leader.** -/
lemma Seen.validate_iff {pre : List ProducerDescriptorWire} {state : ProducerIdBitmap × Bool}
    (h : Seen pre state) (rest : List ProducerDescriptorWire) (hne : pre ++ rest ≠ []) :
    (∃ state', rest.foldlM observeProducer state = .ok state') ↔ ProducersOk (pre ++ rest) := by
  induction rest generalizing pre state with
  | nil =>
    rw [List.append_nil] at *
    refine ⟨fun _ => ⟨hne, h.nodup, ?_⟩, fun _ => ⟨state, rfl⟩⟩
    rw [h.leader]
    split_ifs <;> omega
  | cons p rest ih =>
    rw [List.foldlM_cons]
    rcases h.observe (p := p) with ⟨state', hstep, hseen⟩ | ⟨⟨e, hstep⟩, hnot⟩
    · rw [hstep]
      have := ih hseen (by simp)
      rw [List.append_assoc, List.singleton_append] at this
      exact this
    · rw [hstep]
      exact ⟨fun ⟨_, hok⟩ => (nomatch hok), fun hok => absurd hok (hnot rest)⟩

lemma validateProducers_iff {producers : List ProducerDescriptorWire} (hne : producers ≠ []) :
    (∃ state', producers.foldlM observeProducer (.new, false) = .ok state') ↔
      ProducersOk producers :=
  seen_new.validate_iff producers hne

/-- What the encoder's validation accepts. -/
lemma validateEncodeProducerSlice_iff (producers : List ProducerDescriptorWire) :
    validateEncodeProducerSlice producers = .ok () ↔ ProducersOk producers := by
  rw [validateEncodeProducerSlice]
  by_cases hne : producers = []
  · rw [if_pos hne]
    exact ⟨fun h => (nomatch h), fun h => absurd hne h.ne_nil⟩
  · rw [if_neg hne, ← validateProducers_iff hne]
    cases producers.foldlM observeProducer (.new, false) with
    | error e => exact ⟨fun h => (nomatch h), fun ⟨_, h⟩ => (nomatch h)⟩
    | ok state => exact ⟨fun _ => ⟨state, rfl⟩, fun _ => rfl⟩

/-! ### Lists on the wire -/

lemma reads_producer (p : ProducerDescriptorWire) :
    Reads readProducerDescriptorFrom (writeProducer p) p := by
  intro s
  simp only [writeProducer, List.append_assoc, readProducerDescriptorFrom]
  rw [Reader.bind_ok (reads_arrayLen (by decide) _), Reader.bind_ok (run_expectMessageLen _ _),
    Reader.bind_ok (reads_wordFrom p.producerId _), Reader.bind_ok (reads_wordFrom p.role.toByte _),
    Reader.bind_ok (run_liftM p.role.tryFrom_toByte _)]
  rfl

lemma reads_scanChannel (c : ScanChannelDescriptorWire) :
    Reads readScanChannelDescriptorFrom (writeScanChannel c) c := by
  intro s
  simp only [writeScanChannel, List.append_assoc, readScanChannelDescriptorFrom]
  rw [Reader.bind_ok (reads_arrayLen (by decide) _), Reader.bind_ok (run_expectMessageLen _ _),
    Reader.bind_ok (reads_wordFrom c.scanId _), Reader.bind_ok (reads_wordFrom c.producerId _),
    Reader.bind_ok (reads_wordFrom c.role.toByte _),
    Reader.bind_ok (run_liftM c.role.tryFrom_toByte _),
    Reader.bind_ok (reads_wordFrom c.peer.slotId _),
      Reader.bind_ok (reads_wordFrom c.peer.generation _),
    Reader.bind_ok (reads_wordFrom c.peer.leaseEpoch _)]
  rfl

/-- The loop of a decoder observes the descriptors that were written. -/
lemma run_readObserved {α σ : Type} {read : Reader DecodeError α} {write : α → List UInt8}
    (hread : ∀ a, Reads read (write a) a) (observe : σ → α → Except DecodeError σ) (items : List α)
    (state : σ) (rest : List UInt8) :
    (readObserved read observe items.length state).run (items.flatMap write ++ rest) =
      (items.foldlM observe state).map fun state' => (state', rest) := by
  induction items generalizing state with
  | nil => rfl
  | cons item items ih =>
    rw [List.length_cons, List.flatMap_cons, List.append_assoc, readObserved,
      Reader.bind_ok (hread item _), List.foldlM_cons]
    cases hobs : observe state item with
    | error e => rfl
    | ok state' => exact ih state'

variable {b : List UInt8}

/-- What a decoder cuts out of the input is what was written. -/
lemma run_sliced {x : Reader DecodeError ℕ} {rest : List UInt8} (count : ℕ)
    (h : x.run (b ++ rest) = .ok (count, rest)) :
    (sliced x).run (b ++ rest) = .ok (⟨b, count⟩, rest) := by
  rw [sliced, StateT.run_mk, h]
  simp

lemma run_sliced_error {x : Reader DecodeError ℕ} {s : List UInt8} {e : DecodeError}
    (h : x.run s = .error e) : (sliced x).run s = .error e := by
  rw [sliced, StateT.run_mk, h]

lemma writeSlice_eq_ok {α : Type} {write : α → List UInt8} {tooMany : ℕ → EncodeError}
    {items : List α} (h : writeSlice write tooMany items = .ok b) :
    items.length < 2 ^ 32 ∧ b = writeLen arrayLen items.length ++ items.flatMap write := by
  rw [writeSlice] at h
  split_ifs at h with hlen
  exact ⟨hlen, (Except.ok.inj h).symm⟩

/-- **The decoder on scan channels that were written** makes the same pass as the encoder, and
cuts out their bytes. -/
lemma run_decodeScanChannelSetRef {channels : List ScanChannelDescriptorWire}
    (hb : writeScanChannels channels = .ok b) (rest : List UInt8) :
    decodeScanChannelSetRef.run (b ++ rest) =
      (validateScanChannels decodeErrors .default channels).map fun _ =>
        (⟨b, channels.length⟩, rest) := by
  obtain ⟨hlen, hb'⟩ := writeSlice_eq_ok hb
  have hloop :=
    run_readObserved reads_scanChannel (observeScanChannel decodeErrors) channels .default rest
  rw [validateScanChannels]
  rw [decodeScanChannelSetRef]
  cases hfold : channels.foldlM (observeScanChannel decodeErrors) .default with
  | error e =>
    rw [hfold] at hloop
    refine run_sliced_error ?_
    rw [hb', List.append_assoc, Reader.bind_ok (reads_arrayLen hlen _), Reader.bind_error hloop]
  | ok state =>
    rw [hfold] at hloop
    cases hfin : finishScanChannelValidation decodeErrors state with
    | error e =>
      have herror : (liftM (finishScanChannelValidation decodeErrors state) :
          Reader DecodeError Unit).run rest = .error e := by rw [hfin]; rfl
      refine (run_sliced_error (e := e) ?_).trans (by
        show Except.error e = Except.map _ (finishScanChannelValidation decodeErrors state)
        rw [hfin]
        rfl)
      rw [hb', List.append_assoc, Reader.bind_ok (reads_arrayLen hlen _), Reader.bind_ok hloop,
        Reader.bind_error herror]
    | ok u =>
      refine (run_sliced channels.length ?_).trans (by
        show _ = Except.map _ (finishScanChannelValidation decodeErrors state)
        rw [hfin]
        rfl)
      rw [hb', List.append_assoc, Reader.bind_ok (reads_arrayLen hlen _), Reader.bind_ok hloop,
        Reader.bind_ok (run_liftM hfin rest)]
      rfl

/-- A pass with other errors. -/
lemma foldlM_mapError {α σ ε ε' : Type} (observe : σ → α → Except ε σ) (f : ε → ε') (items : List α)
    (state : σ) : items.foldlM (fun state item => (observe state item).mapError f) state =
      (items.foldlM observe state).mapError f := by
  induction items generalizing state with
  | nil => rfl
  | cons item items ih =>
    rw [List.foldlM_cons, List.foldlM_cons]
    cases observe state item with
    | error e => rfl
    | ok state' => exact ih state'

/-- **The decoder on producers that were written** makes the same pass as the encoder, and cuts
out their bytes. -/
lemma run_decodeProducerSetRef {producers : List ProducerDescriptorWire}
    (hb : writeProducerSlice producers = .ok b) (hne : producers ≠ []) (rest : List UInt8) :
    decodeProducerSetRef.run (b ++ rest) =
      ((producers.foldlM observeProducer (.new, false)).mapError mapInvariantErrorToDecode).map
        fun _ => (⟨b, producers.length⟩, rest) := by
  obtain ⟨hlen, hb'⟩ := writeSlice_eq_ok hb
  have hcount : producers.length ≠ 0 := fun hzero => hne (List.length_eq_zero_iff.mp hzero)
  have hnonempty : (require (producers.length ≠ 0) .emptyProducerSet : Reader DecodeError Unit).run
      (producers.flatMap writeProducer ++ rest) =
        .ok ((), producers.flatMap writeProducer ++ rest) := reads_require _ hcount _
  have hloop := run_readObserved reads_producer
    (fun state producer => (observeProducer state producer).mapError mapInvariantErrorToDecode)
    producers (.new, false) rest
  rw [foldlM_mapError] at hloop
  rw [decodeProducerSetRef]
  cases hfold : producers.foldlM observeProducer (.new, false) with
  | error e =>
    rw [hfold] at hloop
    refine run_sliced_error ?_
    rw [hb', List.append_assoc, Reader.bind_ok (reads_arrayLen hlen _), Reader.bind_ok hnonempty,
      Reader.bind_error hloop]
  | ok state =>
    rw [hfold] at hloop
    refine run_sliced producers.length ?_
    rw [hb', List.append_assoc, Reader.bind_ok (reads_arrayLen hlen _), Reader.bind_ok hnonempty,
      Reader.bind_ok hloop]
    rfl

/-- The decoder does not accept an empty list of producers. -/
lemma run_decodeProducerSetRef_nil (hb : writeProducerSlice [] = .ok b) :
    decodeProducerSetRef.run b = .error .emptyProducerSet := by
  obtain rfl := Except.ok.inj hb
  rfl

/-- **Descriptor lists are validated exactly.** A list of scan channels is accepted if and only if
it is strictly increasing in `(scan_id, producer_id)` and every scan has exactly one leader, by the
encoder and by the decoder alike. A list of producers is accepted, by either, if and only if it is
not empty, its ids are distinct, and there is at most one leader. -/
theorem descriptor_lists_validated_exactly :
    (∀ channels, validateScanChannelSlice channels = .ok () ↔
      channels.Pairwise (fun a b => a.scanId < b.scanId ∨
        a.scanId = b.scanId ∧ a.producerId < b.producerId) ∧
      ∀ c ∈ channels, (channels.countP fun d => d.scanId = c.scanId ∧ d.role = .leader) = 1) ∧
    (∀ channels b, writeScanChannels channels = .ok b →
      ((∃ r, decodeScanChannelSetRef.run b = .ok r) ↔ validateScanChannelSlice channels = .ok ())) ∧
    (∀ producers, validateEncodeProducerSlice producers = .ok () ↔
      producers ≠ [] ∧ (producers.map ProducerDescriptorWire.producerId).Nodup ∧
      (producers.countP fun p => p.role = .leader) ≤ 1) ∧
    ∀ producers b, writeProducerSlice producers = .ok b →
      ((∃ r, decodeProducerSetRef.run b = .ok r) ↔ validateEncodeProducerSlice producers =
        .ok ()) := by
  refine ⟨fun channels => ?_, fun channels b hb => ?_, fun producers => ?_,
    fun producers b hb => ?_⟩
  · rw [validateScanChannelSlice, validateScanChannels_iff]
    exact ⟨fun h => ⟨h.increasing, h.leader⟩, fun h => ⟨h.1, h.2⟩⟩
  · have hrun := run_decodeScanChannelSetRef hb []
    rw [List.append_nil] at hrun
    rw [validateScanChannelSlice, validateScanChannels_iff, ← validateScanChannels_iff decodeErrors,
      hrun]
    cases validateScanChannels decodeErrors .default channels with
    | error e => exact ⟨fun ⟨_, h⟩ => (nomatch h), fun h => (nomatch h)⟩
    | ok u => exact ⟨fun _ => rfl, fun _ => ⟨_, rfl⟩⟩
  · rw [validateEncodeProducerSlice_iff]
    exact ⟨fun h => ⟨h.ne_nil, h.nodup, h.leader⟩, fun h => ⟨h.1, h.2.1, h.2.2⟩⟩
  · rw [validateEncodeProducerSlice_iff]
    by_cases hne : producers = []
    · subst hne
      rw [run_decodeProducerSetRef_nil hb]
      exact ⟨fun ⟨_, h⟩ => (nomatch h), fun h => absurd rfl h.ne_nil⟩
    · have hrun := run_decodeProducerSetRef hb hne []
      rw [List.append_nil] at hrun
      rw [← validateProducers_iff hne, hrun]
      cases producers.foldlM observeProducer (.new, false) with
      | error e => exact ⟨fun ⟨_, h⟩ => (nomatch h), fun ⟨_, h⟩ => (nomatch h)⟩
      | ok state => exact ⟨fun _ => ⟨state, rfl⟩, fun _ => ⟨_, rfl⟩⟩

/-- The channels of two scans, the first with a worker. -/
def twoScans : List ScanChannelDescriptorWire :=
  [⟨1, 2, .leader, ⟨3, 4, 5⟩⟩, ⟨1, 3, .worker, ⟨3, 4, 6⟩⟩, ⟨2, 1, .leader, ⟨3, 5, 7⟩⟩]

/-- The lists of three channels and of two producers, which the decoder accepts. -/
theorem descriptor_lists_validated_two_scans :
    (∃ b, writeScanChannels twoScans = .ok b ∧ ∃ r, decodeScanChannelSetRef.run b = .ok r) ∧
      ∃ b, writeProducerSlice [⟨1, .worker⟩, ⟨0, .leader⟩] = .ok b ∧
        ∃ r, decodeProducerSetRef.run b = .ok r :=
  ⟨⟨_, rfl, (descriptor_lists_validated_exactly.2.1 twoScans _ rfl).mpr (by decide +kernel)⟩,
    ⟨_, rfl, (descriptor_lists_validated_exactly.2.2.2 [⟨1, .worker⟩, ⟨0, .leader⟩] _ rfl).mpr
      (by decide +kernel)⟩⟩

end PgFusion.Protocol

import PgFusion.PlanCodec.Spec

/-!
Descriptors, errors and wire values of the control protocol, from
`runtime/protocol/src/{scan,message,error,msgpack,envelope}.rs`.
-/

namespace PgFusion.Protocol

open Wire

open PlanCodec (rmpText)

/-! ### Descriptors -/

/-- `ProducerRole`. -/
inductive ProducerRole where
  | leader | worker
deriving DecidableEq

/-- `BackendLeaseSlotWire`. -/
structure BackendLeaseSlotWire where
  slotId : UInt32
  generation : UInt64
  leaseEpoch : UInt64
deriving DecidableEq

/-- `ScanChannelDescriptorWire`. -/
structure ScanChannelDescriptorWire where
  scanId : UInt64
  producerId : UInt16
  role : ProducerRole
  peer : BackendLeaseSlotWire
deriving DecidableEq

/-- `ProducerDescriptorWire`. -/
structure ProducerDescriptorWire where
  producerId : UInt16
  role : ProducerRole
deriving DecidableEq

/-- `PlanFlowDescriptor`. -/
structure PlanFlowDescriptor where
  planId : UInt64
  pageKind : UInt16
  pageFlags : UInt16
deriving DecidableEq

/-- `ExecutionOptionsWire`. -/
structure ExecutionOptionsWire where
  scanBatchChannelCapacity : UInt32
  scanIdlePollIntervalUs : UInt32
  runtimeFilterEnabled : Bool
deriving DecidableEq

/-- `ExecutionFailureCode`. -/
inductive ExecutionFailureCode where
  | cancelled | protocolViolation | transportRestarted | internal
deriving DecidableEq

/-- `RuntimeMessageFamily`. -/
inductive RuntimeMessageFamily where
  | backendExecutionToWorker | workerExecutionToBackend | workerScanToBackend | backendScanToWorker
deriving DecidableEq

/-! ### Errors -/

/-- `ScanChannelSetError`. -/
inductive ScanChannelSetError where
  | duplicateProducer (scanId : UInt64) (producerId : UInt16)
  | channelOutOfOrder (previousScanId : UInt64) (previousProducerId : UInt16)
      (currentScanId : UInt64) (currentProducerId : UInt16)
  | multipleLeaders (scanId : UInt64)
  | missingLeader (scanId : UInt64)
deriving DecidableEq

/-- `ProducerSetError`. -/
inductive ProducerSetError where
  | emptyProducerSet
  | duplicateProducerId (producerId : UInt16)
  | multipleLeaders
deriving DecidableEq

/-- `EncodeError`. -/
inductive EncodeError where
  | bufferTooSmall (expected actual : ℕ)
  | tooManyProducers (count : ℕ)
  | tooManyScanChannels (count : ℕ)
  | scanFailureMessageTooLong (actual maximum : ℕ)
  | executionFailureDetailTooLong (actual maximum : ℕ)
  | msgPack (text : String)
  | scanChannels (error : ScanChannelSetError)
deriving DecidableEq

/-- `DecodeError`. -/
inductive DecodeError where
  | invalidArrayLen (expected actual : ℕ)
  | truncatedEnvelope (expected actual : ℕ)
  | invalidMagic (expected actual : UInt32)
  | unsupportedVersion (expected actual : UInt16)
  | unexpectedMessageFamily (actual : UInt8)
  | unexpectedTag (actual : UInt8)
  | invalidFailureCode (actual : UInt8)
  | invalidProducerRole (actual : UInt8)
  | duplicateScanProducer (scanId : UInt64) (producerId : UInt16)
  | scanChannelOutOfOrder (previousScanId : UInt64) (previousProducerId : UInt16)
      (currentScanId : UInt64) (currentProducerId : UInt16)
  | multipleScanChannelLeaders (scanId : UInt64)
  | missingScanChannelLeader (scanId : UInt64)
  | emptyProducerSet
  | duplicateProducerId (producerId : UInt16)
  | multipleLeaders
  | trailingBytes (remaining : ℕ)
  | msgPack (text : String)
deriving DecidableEq

/-! ### Enumerations as bytes -/

/-- `role as u8`. -/
def ProducerRole.toByte : ProducerRole → UInt8
  | leader => 1
  | worker => 2

/-- `ProducerRole::try_from`. -/
def ProducerRole.tryFrom (value : UInt8) : Except DecodeError ProducerRole :=
  if value = 1 then .ok .leader
  else if value = 2 then .ok .worker
  else .error (.invalidProducerRole value)

lemma ProducerRole.tryFrom_toByte (role : ProducerRole) : tryFrom role.toByte = .ok role := by
  cases role <;> rfl

/-- `code as u8`. -/
def ExecutionFailureCode.toByte : ExecutionFailureCode → UInt8
  | cancelled => 1
  | protocolViolation => 2
  | transportRestarted => 3
  | internal => 4

/-- `ExecutionFailureCode::try_from`. -/
def ExecutionFailureCode.tryFrom (value : UInt8) : Except DecodeError ExecutionFailureCode :=
  if value = 1 then .ok .cancelled
  else if value = 2 then .ok .protocolViolation
  else if value = 3 then .ok .transportRestarted
  else if value = 4 then .ok .internal
  else .error (.invalidFailureCode value)

lemma ExecutionFailureCode.tryFrom_toByte (code : ExecutionFailureCode) :
    tryFrom code.toByte = .ok code := by
  cases code <;> rfl

/-- `family as u8`. -/
def RuntimeMessageFamily.toByte : RuntimeMessageFamily → UInt8
  | backendExecutionToWorker => 1
  | workerExecutionToBackend => 2
  | workerScanToBackend => 3
  | backendScanToWorker => 4

/-- `RuntimeMessageFamily::try_from`. -/
def RuntimeMessageFamily.tryFrom (value : UInt8) : Except DecodeError RuntimeMessageFamily :=
  if value = 1 then .ok .backendExecutionToWorker
  else if value = 2 then .ok .workerExecutionToBackend
  else if value = 3 then .ok .workerScanToBackend
  else if value = 4 then .ok .backendScanToWorker
  else .error (.unexpectedMessageFamily value)

/-! ### Values -/

/-- A failure of `rmp`. -/
def msgPackError (e : ReadError) : DecodeError := .msgPack (rmpText e)

/-- `read_array_len_from`. -/
def readArrayLenFrom : Reader DecodeError ℕ := (readLen arrayLen).mapError msgPackError

/-- `read_u8_from`, `read_u16_from`, `read_u32_from` and `read_u64_from`. -/
def readWordFrom (α : Type) [Word α] : Reader DecodeError α := (readWord α).mapError msgPackError

/-- `expect_message_len`. -/
def expectMessageLen (actual expected : ℕ) : Reader DecodeError Unit :=
  require (actual = expected) (.invalidArrayLen expected actual)

/-- `read_str_from`. What is wrong with the bytes is left out of the error. -/
def readStrFrom : Reader DecodeError String := do
  let len ← (readLen strLen).mapError msgPackError
  let b ← takeOr len fun actual =>
    .msgPack s!"truncated string payload: expected {len} bytes, got {actual}"
  match ofUtf8 b with
  | some value => return value
  | none => throw (.msgPack "invalid utf-8 sequence")

/-- `Marker::Null`. -/
def nilMarker : UInt8 := 0xc0

/-- `write_optional_u64_to`. -/
def writeOptionalU64 : Option UInt64 → List UInt8
  | some value => writeWord value
  | none => [nilMarker]

/-- `write_optional_str_to`. -/
def writeOptionalStr : Option String → List UInt8
  | some value => writeStr value
  | none => [nilMarker]

/-- `read_optional_str_from`. -/
def readOptionalStrFrom : Reader DecodeError (Option String) := StateT.mk fun source =>
  if source.head? = some nilMarker then .ok (none, source.tail)
  else (do return some (← readStrFrom) : Reader DecodeError (Option String)).run source

/-- `read_optional_u64_from`. Which other marker there was is left out of the error. -/
def readOptionalU64From : Reader DecodeError (Option UInt64) := do
  let marker ← readByte.mapError msgPackError
  if marker = nilMarker then return none
  else if marker.toNat < 0x80 then return some (UInt64.ofNat marker.toNat)
  else
    match [Width.u8, .u16, .u32, .u64].find? fun w => w.marker = marker with
    | some w => return some (UInt64.ofNat (← (readData w.size).mapError msgPackError))
    | none => throw (.msgPack "expected nil or unsigned integer detail")

lemma reads_arrayLen {n : ℕ} (h : n < 2 ^ 32) : Reads readArrayLenFrom (writeLen arrayLen n) n :=
  (reads_len (Or.inr ⟨(0xdd, 4), by decide, by simpa using h⟩)).mapError _

lemma reads_wordFrom {α : Type} [Word α] (x : α) : Reads (readWordFrom α) (writeWord x) x :=
  (reads_word x).mapError _

lemma run_expectMessageLen (n : ℕ) (s : List UInt8) : (expectMessageLen n n).run s = .ok ((), s) :=
  reads_require _ rfl s

/-- A check that succeeds and takes nothing off the input. -/
lemma run_liftM {α : Type} {x : Except DecodeError α} {a : α} (h : x = .ok a) (s : List UInt8) :
    (liftM x : Reader DecodeError α).run s = .ok (a, s) :=
  Reads.liftM h s

lemma reads_str {s : String} (h : (utf8 s).length < 2 ^ 32) : Reads readStrFrom (writeStr s) s := by
  have hlen : Reads (readLen strLen) (writeLen strLen (utf8 s).length) (utf8 s).length :=
    reads_len (Or.inr ⟨(0xdb, 4), by decide, by simpa using h⟩)
  rw [writeStr, Nat.mod_eq_of_lt h]
  refine (hlen.mapError _).bind fun t => ?_
  rw [Reader.bind_ok (reads_takeOr (utf8 s) _ t), ofUtf8_utf8]
  rfl

/-- A text does not begin with the marker of a missing value. -/
lemma head?_writeStr (s : String) : (writeStr s).head? ≠ some nilMarker := by
  rw [writeStr, writeLen]
  have hmod := Nat.mod_lt (utf8 s).length (show 2 ^ 32 > 0 by norm_num)
  split_ifs with hfix
  · simp only [strLen] at hfix ⊢
    intro h
    have hbyte := congrArg UInt8.toNat (Option.some.inj h)
    have hnil : nilMarker.toNat = 0xc0 := rfl
    rw [UInt8.toNat_ofNat', hnil] at hbyte
    omega
  · split
    · next mw hfind =>
        have hmem := List.mem_of_find?_eq_some hfind
        simp only [strLen, List.mem_cons, List.not_mem_nil, or_false] at hmem
        rcases hmem with rfl | rfl | rfl <;> exact fun h => absurd (Option.some.inj h) (by decide)
    · next hfind =>
        have h4 := List.find?_eq_none.mp hfind (0xdb, 4) (by decide)
        exact absurd (by simpa using hmod) h4

lemma reads_optionalStr {s : Option String} (h : ∀ t ∈ s, (utf8 t).length < 2 ^ 32) :
    Reads readOptionalStrFrom (writeOptionalStr s) s := by
  intro rest
  cases s with
  | none => rfl
  | some t =>
    have hne : (writeStr t ++ rest).head? ≠ some nilMarker := by
      cases hw : writeStr t with
      | nil =>
        have hread := reads_str (h t rfl) []
        rw [hw] at hread
        cases hread
      | cons c l =>
        have := head?_writeStr t
        rwa [hw] at this
    rw [readOptionalStrFrom, StateT.run_mk, writeOptionalStr, if_neg hne,
      Reader.bind_ok (reads_str (h t rfl) rest)]
    rfl

lemma reads_optionalU64 (v : Option UInt64) : Reads readOptionalU64From (writeOptionalU64 v) v := by
  cases v with
  | none => exact fun _ => rfl
  | some value =>
    intro rest
    have hlt : value.toNat < 256 ^ 8 := value.toNat_lt
    have hdata := (reads_data hlt).mapError msgPackError rest
    show (do
        return some (UInt64.ofNat (← (readData 8).mapError msgPackError)) :
        Reader DecodeError (Option UInt64)).run (beBytes 8 value.toNat ++ rest) = _
    rw [Reader.bind_ok hdata, UInt64.ofNat_toNat]
    rfl

/-! ### The envelope -/

/-- `RUNTIME_PROTOCOL_MAGIC`. -/
def runtimeProtocolMagic : UInt32 := 0x50465232

/-- `RUNTIME_PROTOCOL_VERSION`. -/
def runtimeProtocolVersion : UInt16 := 4

/-- `RUNTIME_ENVELOPE_HEADER_LEN`. -/
def runtimeEnvelopeHeaderLen : ℕ := 8

/-- `RuntimeEnvelopeHeader`. -/
structure RuntimeEnvelopeHeader where
  family : RuntimeMessageFamily
  tag : UInt8
deriving DecidableEq

/-- `write_runtime_header_to`. -/
def writeRuntimeHeader (family : RuntimeMessageFamily) (tag : UInt8) : List UInt8 :=
  beBytes 4 runtimeProtocolMagic.toNat ++ beBytes 2 runtimeProtocolVersion.toNat ++
    [family.toByte, tag]

/-- `decode_runtime_header`. -/
def decodeRuntimeHeader : Reader DecodeError RuntimeEnvelopeHeader := do
  let header ← takeOr runtimeEnvelopeHeaderLen (.truncatedEnvelope runtimeEnvelopeHeaderLen)
  let magic := UInt32.ofNat (ofBe (header.take 4))
  require (magic = runtimeProtocolMagic) (.invalidMagic runtimeProtocolMagic magic)
  let version := UInt16.ofNat (ofBe ((header.drop 4).take 2))
  require (version = runtimeProtocolVersion) (.unsupportedVersion runtimeProtocolVersion version)
  let family ← liftM (RuntimeMessageFamily.tryFrom (header.getD 6 0))
  return ⟨family, header.getD 7 0⟩

/-- `expect_runtime_family`. -/
def expectRuntimeFamily (actual expected : RuntimeMessageFamily) : Reader DecodeError Unit :=
  require (actual = expected) (.unexpectedMessageFamily actual.toByte)

/-- A header is read as it was written. -/
lemma reads_header (family : RuntimeMessageFamily) (tag : UInt8) :
    Reads decodeRuntimeHeader (writeRuntimeHeader family tag) ⟨family, tag⟩ := by
  intro rest
  have htake : (takeOr runtimeEnvelopeHeaderLen (.truncatedEnvelope runtimeEnvelopeHeaderLen)).run
      (writeRuntimeHeader family tag ++ rest) =
        (.ok (writeRuntimeHeader family tag, rest) : Except DecodeError _) :=
    reads_takeOr (writeRuntimeHeader family tag) _ rest
  rw [decodeRuntimeHeader, Reader.bind_ok htake]
  cases family <;> rfl

end PgFusion.Protocol

import PgFusion.Protocol.Validation

/-!
The messages of the control protocol and their codec, from
`runtime/protocol/src/{message,codec,scan,msgpack,session}.rs`. A list of descriptors in a view is a
piece of the input, which `SetRef.iter` reads once more.

* `control_messages_round_trip`: the four families, each with its own decoder only.
-/

namespace PgFusion.Protocol

open Wire

/-! ### Messages -/

/-- `ScanChannelSet`, which is built from a validated list only. -/
structure ScanChannelSet where
  channels : List ScanChannelDescriptorWire
  valid : validateScanChannelSlice channels = .ok ()

/-- `ScanFlowDescriptor`, which is built from a validated list only. -/
structure ScanFlowDescriptor where
  pageKind : UInt16
  pageFlags : UInt16
  producers : List ProducerDescriptorWire
  valid : validateEncodeProducerSlice producers = .ok ()

/-- `BackendExecutionToWorker`. -/
inductive BackendExecutionToWorker where
  | startExecution (sessionEpoch : UInt64) (plan : PlanFlowDescriptor)
      (options : ExecutionOptionsWire)
      (scans : ScanChannelSet)
  | cancelExecution (sessionEpoch : UInt64)
  | failExecution (sessionEpoch : UInt64) (code : ExecutionFailureCode) (detail : Option UInt64)

/-- `BackendExecutionToWorkerRef`. -/
inductive BackendExecutionToWorkerRef where
  | startExecution (sessionEpoch : UInt64) (plan : PlanFlowDescriptor)
      (options : ExecutionOptionsWire)
      (scans : SetRef)
  | cancelExecution (sessionEpoch : UInt64)
  | failExecution (sessionEpoch : UInt64) (code : ExecutionFailureCode) (detail : Option UInt64)
deriving DecidableEq

/-- `WorkerExecutionToBackend`. -/
inductive WorkerExecutionToBackend where
  | completeExecution (sessionEpoch : UInt64)
  | failExecution (sessionEpoch : UInt64) (code : ExecutionFailureCode) (detail : Option String)
deriving DecidableEq

/-- `WorkerScanToBackend`. -/
inductive WorkerScanToBackend where
  | openScan (sessionEpoch scanId : UInt64) (scan : ScanFlowDescriptor)
  | cancelScan (sessionEpoch scanId : UInt64)

/-- `ScanFlowDescriptorRef`. -/
structure ScanFlowDescriptorRef where
  pageKind : UInt16
  pageFlags : UInt16
  producers : SetRef
deriving DecidableEq

/-- `WorkerScanToBackendRef`. -/
inductive WorkerScanToBackendRef where
  | openScan (sessionEpoch scanId : UInt64) (scan : ScanFlowDescriptorRef)
  | cancelScan (sessionEpoch scanId : UInt64)
deriving DecidableEq

/-- `BackendScanToWorker` and `BackendScanToWorkerRef`. -/
inductive BackendScanToWorker where
  | scanFinished (sessionEpoch scanId : UInt64) (producerId : UInt16)
  | scanFailed (sessionEpoch scanId : UInt64) (producerId : UInt16) (message : String)
deriving DecidableEq

/-! ### Encoders -/

/-- What an encoder writes. -/
abbrev Write := Except EncodeError (List UInt8)

/-- `BACKEND_EXECUTION_START_TAG`. -/
def backendExecutionStartTag : UInt8 := 1

/-- `BACKEND_EXECUTION_CANCEL_TAG`. -/
def backendExecutionCancelTag : UInt8 := 2

/-- `BACKEND_EXECUTION_FAIL_TAG`. -/
def backendExecutionFailTag : UInt8 := 3

/-- `WORKER_EXECUTION_COMPLETE_TAG`. -/
def workerExecutionCompleteTag : UInt8 := 1

/-- `WORKER_EXECUTION_FAIL_TAG`. -/
def workerExecutionFailTag : UInt8 := 2

/-- `WORKER_SCAN_OPEN_TAG`. -/
def workerScanOpenTag : UInt8 := 1

/-- `WORKER_SCAN_CANCEL_TAG`. -/
def workerScanCancelTag : UInt8 := 2

/-- `BACKEND_SCAN_FINISHED_TAG`. -/
def backendScanFinishedTag : UInt8 := 1

/-- `BACKEND_SCAN_FAILED_TAG`. -/
def backendScanFailedTag : UInt8 := 2

/-- `MAX_SCAN_FAILURE_MESSAGE_LEN`. -/
def maxScanFailureMessageLen : ℕ := 220

/-- `MAX_EXECUTION_FAILURE_DETAIL_LEN`. -/
def maxExecutionFailureDetailLen : ℕ := 2048

/-- `u8::from` of a flag. -/
def flagByte (flag : Bool) : UInt8 := if flag then 1 else 0

/-- `write_scan_channel_slice_to`. -/
def writeScanChannelSlice (channels : List ScanChannelDescriptorWire) : Write := do
  (validateScanChannelSlice channels).mapError EncodeError.scanChannels
  writeScanChannels channels

/-- `encode_backend_execution_to_worker_to`. -/
def encodeBackendExecutionToWorker : BackendExecutionToWorker → Write
  | .startExecution sessionEpoch plan options scans => do
    let head := writeRuntimeHeader .backendExecutionToWorker backendExecutionStartTag ++
      (writeWord sessionEpoch ++ (writeWord plan.planId ++ (writeWord plan.pageKind ++
      (writeWord plan.pageFlags ++ (writeWord options.scanBatchChannelCapacity ++
      (writeWord options.scanIdlePollIntervalUs ++
      writeWord (flagByte options.runtimeFilterEnabled)))))))
    let channels ← writeScanChannelSlice scans.channels
    return head ++ channels
  | .cancelExecution sessionEpoch =>
    .ok (writeRuntimeHeader .backendExecutionToWorker backendExecutionCancelTag ++
      writeWord sessionEpoch)
  | .failExecution sessionEpoch code detail =>
    .ok (writeRuntimeHeader .backendExecutionToWorker backendExecutionFailTag ++
      (writeWord sessionEpoch ++ (writeWord code.toByte ++ writeOptionalU64 detail)))

/-- `encode_worker_execution_to_backend_to`. -/
def encodeWorkerExecutionToBackend : WorkerExecutionToBackend → Write
  | .completeExecution sessionEpoch =>
    .ok (writeRuntimeHeader .workerExecutionToBackend workerExecutionCompleteTag ++
      writeWord sessionEpoch)
  | .failExecution sessionEpoch code detail =>
    match detail.filter fun detail => maxExecutionFailureDetailLen < (utf8 detail).length with
    | some detail => .error (.executionFailureDetailTooLong (utf8 detail).length
        maxExecutionFailureDetailLen)
    | none => .ok (writeRuntimeHeader .workerExecutionToBackend workerExecutionFailTag ++
        (writeWord sessionEpoch ++ (writeWord code.toByte ++ writeOptionalStr detail)))

/-- `encode_worker_scan_to_backend_to`. -/
def encodeWorkerScanToBackend : WorkerScanToBackend → Write
  | .openScan sessionEpoch scanId scan => do
    let head := writeRuntimeHeader .workerScanToBackend workerScanOpenTag ++
      (writeWord sessionEpoch ++ (writeWord scanId ++ (writeWord scan.pageKind ++
      writeWord scan.pageFlags)))
    let producers ← writeProducerSlice scan.producers
    return head ++ producers
  | .cancelScan sessionEpoch scanId =>
    .ok (writeRuntimeHeader .workerScanToBackend workerScanCancelTag ++
      (writeWord sessionEpoch ++ writeWord scanId))

/-- `encode_backend_scan_to_worker_to`. -/
def encodeBackendScanToWorker : BackendScanToWorker → Write
  | .scanFinished sessionEpoch scanId producerId =>
    .ok (writeRuntimeHeader .backendScanToWorker backendScanFinishedTag ++
      (writeWord sessionEpoch ++ (writeWord scanId ++ writeWord producerId)))
  | .scanFailed sessionEpoch scanId producerId message =>
    if maxScanFailureMessageLen < (utf8 message).length then
      .error (.scanFailureMessageTooLong (utf8 message).length maxScanFailureMessageLen)
    else .ok (writeRuntimeHeader .backendScanToWorker backendScanFailedTag ++
      (writeWord sessionEpoch ++ (writeWord scanId ++ (writeWord producerId ++ writeStr message))))

/-- `encoded_len_with`: the bytes are counted. -/
def encodedLenWith (encode : Write) : Except EncodeError ℕ := encode.map List.length

/-- `encode_into_with_len`: how much is written, and the buffer. The bytes are written into the
first `expected` bytes of the buffer, which fails when they do not fit. -/
def encodeIntoWithLen (expected : ℕ) (out : List UInt8) (encode : Write) :
    Except EncodeError (ℕ × List UInt8) :=
  if out.length < expected then .error (.bufferTooSmall expected out.length)
  else do
    let b ← encode
    if expected < b.length then .error (.msgPack "failed to write whole buffer")
    else .ok (expected, b ++ out.drop b.length)

/-- `encode_backend_execution_to_worker_into` and its like. -/
def encodeInto (encode : Write) (out : List UInt8) : Except EncodeError (ℕ × List UInt8) := do
  let expected ← encodedLenWith encode
  encodeIntoWithLen expected out encode

/-! ### Decoders -/

/-- `ensure_no_trailing_bytes`, after a message was read. -/
def decodeWhole {α : Type} (x : Reader DecodeError α) (bytes : List UInt8) : Except DecodeError α :=
  match x.run bytes with
  | .error e => .error e
  | .ok (message, source) =>
    if source = [] then .ok message else .error (.trailingBytes source.length)

/-- The header of a message of a family, and its session. -/
def decodeHead (family : RuntimeMessageFamily) : Reader DecodeError (UInt8 × UInt64) := do
  let header ← decodeRuntimeHeader
  expectRuntimeFamily header.family family
  let sessionEpoch ← readWordFrom UInt64
  return (header.tag, sessionEpoch)

/-- The body of `decode_backend_execution_to_worker`. -/
def readBackendExecutionToWorker : Reader DecodeError BackendExecutionToWorkerRef := do
  let (tag, sessionEpoch) ← decodeHead .backendExecutionToWorker
  if tag = backendExecutionStartTag then
    let planId ← readWordFrom UInt64
    let pageKind ← readWordFrom UInt16
    let pageFlags ← readWordFrom UInt16
    let scanBatchChannelCapacity ← readWordFrom UInt32
    let scanIdlePollIntervalUs ← readWordFrom UInt32
    let runtimeFilterEnabled ← readWordFrom UInt8
    let scans ← decodeScanChannelSetRef
    return .startExecution sessionEpoch ⟨planId, pageKind, pageFlags⟩
      ⟨scanBatchChannelCapacity, scanIdlePollIntervalUs, runtimeFilterEnabled ≠ 0⟩ scans
  else if tag = backendExecutionCancelTag then return .cancelExecution sessionEpoch
  else if tag = backendExecutionFailTag then
    let code ← liftM (ExecutionFailureCode.tryFrom (← readWordFrom UInt8))
    let detail ← readOptionalU64From
    return .failExecution sessionEpoch code detail
  else throw (.unexpectedTag tag)

/-- `decode_backend_execution_to_worker`. -/
def decodeBackendExecutionToWorker (bytes : List UInt8) :
    Except DecodeError BackendExecutionToWorkerRef :=
  decodeWhole readBackendExecutionToWorker bytes

/-- The body of `decode_worker_execution_to_backend`. -/
def readWorkerExecutionToBackend : Reader DecodeError WorkerExecutionToBackend := do
  let (tag, sessionEpoch) ← decodeHead .workerExecutionToBackend
  if tag = workerExecutionCompleteTag then return .completeExecution sessionEpoch
  else if tag = workerExecutionFailTag then
    let code ← liftM (ExecutionFailureCode.tryFrom (← readWordFrom UInt8))
    let detail ← readOptionalStrFrom
    return .failExecution sessionEpoch code detail
  else throw (.unexpectedTag tag)

/-- `decode_worker_execution_to_backend`. -/
def decodeWorkerExecutionToBackend (bytes : List UInt8) :
    Except DecodeError WorkerExecutionToBackend :=
  decodeWhole readWorkerExecutionToBackend bytes

/-- The body of `decode_worker_scan_to_backend`. -/
def readWorkerScanToBackend : Reader DecodeError WorkerScanToBackendRef := do
  let (tag, sessionEpoch) ← decodeHead .workerScanToBackend
  if tag = workerScanOpenTag then
    let scanId ← readWordFrom UInt64
    let pageKind ← readWordFrom UInt16
    let pageFlags ← readWordFrom UInt16
    let producers ← decodeProducerSetRef
    return .openScan sessionEpoch scanId ⟨pageKind, pageFlags, producers⟩
  else if tag = workerScanCancelTag then
    let scanId ← readWordFrom UInt64
    return .cancelScan sessionEpoch scanId
  else throw (.unexpectedTag tag)

/-- `decode_worker_scan_to_backend`. -/
def decodeWorkerScanToBackend (bytes : List UInt8) : Except DecodeError WorkerScanToBackendRef :=
  decodeWhole readWorkerScanToBackend bytes

/-- The body of `decode_backend_scan_to_worker`. -/
def readBackendScanToWorker : Reader DecodeError BackendScanToWorker := do
  let (tag, sessionEpoch) ← decodeHead .backendScanToWorker
  let scanId ← readWordFrom UInt64
  let producerId ← readWordFrom UInt16
  if tag = backendScanFinishedTag then return .scanFinished sessionEpoch scanId producerId
  else if tag = backendScanFailedTag then
    let message ← readStrFrom
    return .scanFailed sessionEpoch scanId producerId message
  else throw (.unexpectedTag tag)

/-- `decode_backend_scan_to_worker`. -/
def decodeBackendScanToWorker (bytes : List UInt8) : Except DecodeError BackendScanToWorker :=
  decodeWhole readBackendScanToWorker bytes

/-- `ScanChannelSetRef::iter` and `ProducerSetRef::iter`, to their ends: the descriptors, or
`none` for a panic. -/
def SetRef.iter {α : Type} (set : SetRef) (read : Reader DecodeError α) : Option (List α) :=
  match readArrayLenFrom.run set.bytes with
  | .error _ => none
  | .ok (len, source) =>
    if len ≠ set.len then none
    else match (read.many len).run source with
      | .error _ => none
      | .ok (items, _) => some items

/-! ### Equal messages -/

/-- A view of a message: the same fields, and the same descriptors. -/
def BackendExecutionToWorkerRef.Views :
    BackendExecutionToWorkerRef → BackendExecutionToWorker → Prop
  | .startExecution e plan options scans, .startExecution e' plan' options' scans' =>
    e = e' ∧ plan = plan' ∧ options = options' ∧ scans.len = scans'.channels.length ∧
      scans.iter readScanChannelDescriptorFrom = some scans'.channels
  | .cancelExecution e, .cancelExecution e' => e = e'
  | .failExecution e code detail, .failExecution e' code' detail' =>
    e = e' ∧ code = code' ∧ detail = detail'
  | _, _ => False

/-- A view of a message: the same fields, and the same descriptors. -/
def WorkerScanToBackendRef.Views : WorkerScanToBackendRef → WorkerScanToBackend → Prop
  | .openScan e id scan, .openScan e' id' scan' =>
    e = e' ∧ id = id' ∧ scan.pageKind = scan'.pageKind ∧ scan.pageFlags = scan'.pageFlags ∧
      scan.producers.len = scan'.producers.length ∧
      scan.producers.iter readProducerDescriptorFrom = some scan'.producers
  | .cancelScan e id, .cancelScan e' id' => e = e' ∧ id = id'
  | _, _ => False

/-- The decoders of the four families, with what they return left out. -/
def accepts (family : RuntimeMessageFamily) (bytes : List UInt8) : Except DecodeError Unit :=
  match family with
  | .backendExecutionToWorker => (decodeBackendExecutionToWorker bytes).map fun _ => ()
  | .workerExecutionToBackend => (decodeWorkerExecutionToBackend bytes).map fun _ => ()
  | .workerScanToBackend => (decodeWorkerScanToBackend bytes).map fun _ => ()
  | .backendScanToWorker => (decodeBackendScanToWorker bytes).map fun _ => ()

/-- A message that the encoder of the family accepts, of length `n`, is refused for a shorter
buffer, and is otherwise written to the first `n` bytes; the decoder makes the same message of these
bytes, and the decoders of the other families reject them. -/
def RoundTrips {M R : Type} (family : RuntimeMessageFamily) (encode : M → Write)
    (decode : List UInt8 → Except DecodeError R) (same : R → M → Prop) : Prop :=
  ∀ m n, encodedLenWith (encode m) = .ok n → ∀ out : List UInt8,
    (out.length < n → encodeInto (encode m) out = .error (.bufferTooSmall n out.length)) ∧
    (n ≤ out.length → ∃ out', encodeInto (encode m) out = .ok (n, out') ∧
      out'.length = out.length ∧ out'.drop n = out.drop n ∧
      (∃ r, decode (out'.take n) = .ok r ∧ same r m) ∧
      ∀ other ≠ family, ∃ e, accepts other (out'.take n) = .error e)

/-! ### Headers -/

lemma run_decodeHead (family : RuntimeMessageFamily) (tag : UInt8) (sessionEpoch : UInt64)
    (s : List UInt8) :
    (decodeHead family).run (writeRuntimeHeader family tag ++ (writeWord sessionEpoch ++ s)) =
      .ok ((tag, sessionEpoch), s) := by
  have hfamily : (expectRuntimeFamily family family).run (writeWord sessionEpoch ++ s) =
      .ok ((), writeWord sessionEpoch ++ s) := reads_require _ rfl _
  rw [decodeHead, Reader.bind_ok (reads_header family tag _), Reader.bind_ok hfamily,
    Reader.bind_ok (reads_wordFrom sessionEpoch s)]
  rfl

/-- A decoder rejects a message of another family at its header. -/
lemma run_decodeHead_other {family other : RuntimeMessageFamily} (h : other ≠ family) (tag : UInt8)
    (s : List UInt8) :
    (decodeHead other).run (writeRuntimeHeader family tag ++ s) =
      .error (.unexpectedMessageFamily family.toByte) := by
  have hfamily : (expectRuntimeFamily family other).run s =
      .error (.unexpectedMessageFamily family.toByte) := by
    rw [expectRuntimeFamily, require, if_neg h.symm]
    rfl
  rw [decodeHead, Reader.bind_ok (reads_header family tag s), Reader.bind_error hfamily]

lemma decodeWhole_error {α : Type} {x : Reader DecodeError α} {bytes : List UInt8} {e : DecodeError}
    (h : x.run bytes = .error e) : decodeWhole x bytes = .error e := by
  rw [decodeWhole, h]

lemma decodeWhole_ok {α : Type} {x : Reader DecodeError α} {bytes : List UInt8} {a : α}
    (h : x.run bytes = .ok (a, [])) : decodeWhole x bytes = .ok a := by
  rw [decodeWhole, h]
  rfl

/-- The decoders of the other families reject a message. -/
lemma accepts_other {family other : RuntimeMessageFamily} (h : other ≠ family) (tag : UInt8)
    (s : List UInt8) :
    accepts other (writeRuntimeHeader family tag ++ s) =
      .error (.unexpectedMessageFamily family.toByte) := by
  have hhead := run_decodeHead_other h tag s
  cases other with
  | backendExecutionToWorker =>
    exact congrArg (Except.map _) (decodeWhole_error (Reader.bind_error hhead))
  | workerExecutionToBackend =>
    exact congrArg (Except.map _) (decodeWhole_error (Reader.bind_error hhead))
  | workerScanToBackend =>
    exact congrArg (Except.map _) (decodeWhole_error (Reader.bind_error hhead))
  | backendScanToWorker =>
    exact congrArg (Except.map _) (decodeWhole_error (Reader.bind_error hhead))

/-- **A family round-trips** if its decoder reads off all of what its encoder writes. -/
lemma roundTrips_of_reads {M R : Type} {family : RuntimeMessageFamily} {encode : M → Write}
    {x : Reader DecodeError R} {same : R → M → Prop}
    (h : ∀ m b, encode m = .ok b → ∃ tag s r, b = writeRuntimeHeader family tag ++ s ∧
      x.run b = .ok (r, []) ∧ same r m) : RoundTrips family encode (decodeWhole x) same := by
  intro m n hlen out
  cases hm : encode m with
  | error e =>
    rw [hm] at hlen
    cases hlen
  | ok b =>
    rw [hm] at hlen
    obtain rfl : b.length = n := Except.ok.inj hlen
    obtain ⟨tag, s, r, hb, hrun, hsame⟩ := h m b hm
    refine ⟨fun hshort => if_pos hshort, fun hfits => ⟨b ++ out.drop b.length, ?_, ?_, ?_, ?_⟩⟩
    · show encodeIntoWithLen b.length out (.ok b) = _
      rw [encodeIntoWithLen, if_neg (Nat.not_lt.mpr hfits)]
      exact if_neg (Nat.lt_irrefl _)
    · rw [List.length_append, List.length_drop]
      omega
    · rw [List.drop_left]
    · rw [List.take_left]
      refine ⟨⟨r, decodeWhole_ok hrun, hsame⟩, fun other hother => ?_⟩
      rw [hb]
      exact ⟨_, accepts_other hother tag s⟩

/-! ### The four families -/

/-- A view reads the descriptors that were written. -/
lemma iter_written {α : Type} {read : Reader DecodeError α} {write : α → List UInt8}
    (hread : ∀ a, Reads read (write a) a) {tooMany : ℕ → EncodeError} {items : List α}
    {b : List UInt8} (hb : writeSlice write tooMany items = .ok b) :
    SetRef.iter ⟨b, items.length⟩ read = some items := by
  obtain ⟨hlen, rfl⟩ := writeSlice_eq_ok hb
  have hitems := Reads.many (fun a (_ : a ∈ items) => hread a) []
  rw [List.append_nil] at hitems
  rw [SetRef.iter, reads_arrayLen hlen (items.flatMap write)]
  simp only [ne_eq, not_true_eq_false, if_false, hitems]

lemma backendExecution_roundTrips :
    RoundTrips .backendExecutionToWorker encodeBackendExecutionToWorker
    decodeBackendExecutionToWorker BackendExecutionToWorkerRef.Views := by
  refine roundTrips_of_reads fun m b hb => ?_
  cases m with
  | startExecution sessionEpoch plan options scans =>
    rw [encodeBackendExecutionToWorker, writeScanChannelSlice, scans.valid] at hb
    obtain ⟨channels, hchannels, hb⟩ := except_bind_eq_ok hb
    obtain rfl := Except.ok.inj hb
    have hscans := run_decodeScanChannelSetRef hchannels []
    have hvalid := (validateScanChannels_iff encodeErrors scans.channels).mp scans.valid
    rw [(validateScanChannels_iff decodeErrors scans.channels).mpr hvalid,
      List.append_nil] at hscans
    have hflag : (flagByte options.runtimeFilterEnabled ≠ 0) =
      (options.runtimeFilterEnabled = true) := by
      cases options.runtimeFilterEnabled <;> simp [flagByte]
    refine ⟨_, _, .startExecution sessionEpoch plan options ⟨channels, scans.channels.length⟩,
      List.append_assoc _ _ _, ?_, rfl, rfl, rfl, rfl, iter_written reads_scanChannel hchannels⟩
    simp only [List.append_assoc]
    rw [readBackendExecutionToWorker, Reader.bind_ok (run_decodeHead _ _ _ _)]
    dsimp only
    rw [if_pos rfl, Reader.bind_ok (reads_wordFrom _ _), Reader.bind_ok (reads_wordFrom _ _),
      Reader.bind_ok (reads_wordFrom _ _), Reader.bind_ok (reads_wordFrom _ _),
      Reader.bind_ok (reads_wordFrom _ _), Reader.bind_ok (reads_wordFrom _ _),
      Reader.bind_ok hscans]
    simp only [hflag, Bool.decide_eq_true]
    rfl
  | cancelExecution sessionEpoch =>
    obtain rfl := Except.ok.inj hb
    refine ⟨_, _, .cancelExecution sessionEpoch, rfl, ?_, rfl⟩
    have hhead := run_decodeHead .backendExecutionToWorker backendExecutionCancelTag sessionEpoch []
    rw [List.append_nil] at hhead
    rw [readBackendExecutionToWorker, Reader.bind_ok hhead]
    rfl
  | failExecution sessionEpoch code detail =>
    obtain rfl := Except.ok.inj hb
    refine ⟨_, _, .failExecution sessionEpoch code detail, rfl, ?_, rfl, rfl, rfl⟩
    have hdetail := reads_optionalU64 detail []
    rw [List.append_nil] at hdetail
    rw [readBackendExecutionToWorker, Reader.bind_ok (run_decodeHead _ _ _ _)]
    dsimp only
    rw [if_neg (by decide), if_neg (by decide), if_pos rfl, Reader.bind_ok (reads_wordFrom _ _),
      Reader.bind_ok (run_liftM code.tryFrom_toByte _), Reader.bind_ok hdetail]
    rfl

lemma workerExecution_roundTrips :
    RoundTrips .workerExecutionToBackend encodeWorkerExecutionToBackend
    decodeWorkerExecutionToBackend Eq := by
  refine roundTrips_of_reads fun m b hb => ?_
  cases m with
  | completeExecution sessionEpoch =>
    obtain rfl := Except.ok.inj hb
    refine ⟨_, _, .completeExecution sessionEpoch, rfl, ?_, rfl⟩
    have hhead :=
      run_decodeHead .workerExecutionToBackend workerExecutionCompleteTag sessionEpoch []
    rw [List.append_nil] at hhead
    rw [readWorkerExecutionToBackend, Reader.bind_ok hhead]
    rfl
  | failExecution sessionEpoch code detail =>
    rw [encodeWorkerExecutionToBackend] at hb
    split at hb
    · cases hb
    · next hfilter =>
        obtain rfl := Except.ok.inj hb
        have hfits : ∀ t ∈ detail, (utf8 t).length < 2 ^ 32 := by
          rintro t rfl
          have hlong : ¬ maxExecutionFailureDetailLen < (utf8 t).length := by
            intro hlong
            simp [Option.filter, hlong] at hfilter
          simp only [maxExecutionFailureDetailLen] at hlong
          omega
        have hdetail := reads_optionalStr hfits []
        rw [List.append_nil] at hdetail
        refine ⟨_, _, .failExecution sessionEpoch code detail, rfl, ?_, rfl⟩
        rw [readWorkerExecutionToBackend, Reader.bind_ok (run_decodeHead _ _ _ _)]
        dsimp only
        rw [if_neg (by decide), if_pos rfl, Reader.bind_ok (reads_wordFrom _ _),
          Reader.bind_ok (run_liftM code.tryFrom_toByte _), Reader.bind_ok hdetail]
        rfl

lemma workerScan_roundTrips : RoundTrips .workerScanToBackend encodeWorkerScanToBackend
    decodeWorkerScanToBackend WorkerScanToBackendRef.Views := by
  refine roundTrips_of_reads fun m b hb => ?_
  cases m with
  | openScan sessionEpoch scanId scan =>
    rw [encodeWorkerScanToBackend] at hb
    obtain ⟨producers, hproducers, hb⟩ := except_bind_eq_ok hb
    obtain rfl := Except.ok.inj hb
    have hok := (validateEncodeProducerSlice_iff scan.producers).mp scan.valid
    obtain ⟨state, hfold⟩ := (validateProducers_iff hok.ne_nil).mpr hok
    have hscan := run_decodeProducerSetRef hproducers hok.ne_nil []
    rw [hfold, List.append_nil] at hscan
    refine ⟨_, _, .openScan sessionEpoch scanId
      ⟨scan.pageKind, scan.pageFlags, ⟨producers, scan.producers.length⟩⟩,
      List.append_assoc _ _ _, ?_, rfl, rfl, rfl, rfl, rfl, iter_written reads_producer hproducers⟩
    simp only [List.append_assoc]
    rw [readWorkerScanToBackend, Reader.bind_ok (run_decodeHead _ _ _ _)]
    dsimp only
    rw [if_pos rfl, Reader.bind_ok (reads_wordFrom _ _), Reader.bind_ok (reads_wordFrom _ _),
      Reader.bind_ok (reads_wordFrom _ _), Reader.bind_ok hscan]
    rfl
  | cancelScan sessionEpoch scanId =>
    obtain rfl := Except.ok.inj hb
    refine ⟨_, _, .cancelScan sessionEpoch scanId, rfl, ?_, rfl, rfl⟩
    have hid := reads_wordFrom scanId []
    rw [List.append_nil] at hid
    rw [readWorkerScanToBackend, Reader.bind_ok (run_decodeHead _ _ _ _)]
    dsimp only
    rw [if_neg (by decide), if_pos rfl, Reader.bind_ok hid]
    rfl

lemma backendScan_roundTrips : RoundTrips .backendScanToWorker encodeBackendScanToWorker
    decodeBackendScanToWorker Eq := by
  refine roundTrips_of_reads fun m b hb => ?_
  cases m with
  | scanFinished sessionEpoch scanId producerId =>
    obtain rfl := Except.ok.inj hb
    refine ⟨_, _, .scanFinished sessionEpoch scanId producerId, rfl, ?_, rfl⟩
    have hid := reads_wordFrom producerId []
    rw [List.append_nil] at hid
    rw [readBackendScanToWorker, Reader.bind_ok (run_decodeHead _ _ _ _)]
    dsimp only
    rw [Reader.bind_ok (reads_wordFrom _ _), Reader.bind_ok hid]
    rfl
  | scanFailed sessionEpoch scanId producerId message =>
    rw [encodeBackendScanToWorker] at hb
    split_ifs at hb with hlong
    obtain rfl := Except.ok.inj hb
    have hfits : (utf8 message).length < 2 ^ 32 := by
      simp only [maxScanFailureMessageLen] at hlong
      omega
    have hmessage := reads_str hfits []
    rw [List.append_nil] at hmessage
    refine ⟨_, _, .scanFailed sessionEpoch scanId producerId message, rfl, ?_, rfl⟩
    rw [readBackendScanToWorker, Reader.bind_ok (run_decodeHead _ _ _ _)]
    dsimp only
    rw [Reader.bind_ok (reads_wordFrom _ _), Reader.bind_ok (reads_wordFrom _ _),
      if_neg (by decide), if_pos rfl, Reader.bind_ok hmessage]
    rfl

/-- **Control messages round-trip.** A message that an encoder accepts has a length `n`. A shorter
buffer, and no other, is reported as too small; else exactly the first `n` bytes are written, the
decoder of the same family reads the same fields and descriptors from them, and the decoders of the
other families reject them. -/
theorem control_messages_round_trip :
    RoundTrips .backendExecutionToWorker encodeBackendExecutionToWorker
      decodeBackendExecutionToWorker
      BackendExecutionToWorkerRef.Views ∧
    RoundTrips .workerExecutionToBackend encodeWorkerExecutionToBackend
      decodeWorkerExecutionToBackend
      Eq ∧
    RoundTrips .workerScanToBackend encodeWorkerScanToBackend decodeWorkerScanToBackend
      WorkerScanToBackendRef.Views ∧
    RoundTrips .backendScanToWorker encodeBackendScanToWorker decodeBackendScanToWorker Eq :=
  ⟨backendExecution_roundTrips, workerExecution_roundTrips, workerScan_roundTrips,
    backendScan_roundTrips⟩

/-- A scan is opened with two producers. -/
def twoProducers : WorkerScanToBackend :=
  .openScan 1 2 ⟨3, 0, [⟨0, .leader⟩, ⟨1, .worker⟩], by decide +kernel⟩

/-- A message of 45 bytes, for buffers of 44 and of 50 bytes. -/
theorem control_message_two_producers :
    encodedLenWith (encodeWorkerScanToBackend twoProducers) = .ok 45 ∧
      encodeInto (encodeWorkerScanToBackend twoProducers) (List.replicate 44 0) =
        .error (.bufferTooSmall 45 44) ∧
      ∃ out', encodeInto (encodeWorkerScanToBackend twoProducers) (List.replicate 50 0) =
          .ok (45, out') ∧
        ∃ r, decodeWorkerScanToBackend (out'.take 45) = .ok r ∧ r.Views twoProducers := by
  have hlen : encodedLenWith (encodeWorkerScanToBackend twoProducers) = .ok 45 := by decide +kernel
  have hround := control_messages_round_trip.2.2.1 twoProducers 45 hlen
  obtain ⟨out', hencode, -, -, hdecode, -⟩ := (hround (List.replicate 50 0)).2 (by decide)
  exact ⟨hlen, (hround (List.replicate 44 0)).1 (by decide), out', hencode, hdecode⟩

end PgFusion.Protocol

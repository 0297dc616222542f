import PgFusion.Transfer.Frame

/-!
The control frames of `page/issuance/src/{wire,codec}.rs`, and the framing of both codecs. An issued
page frame is a page frame with the permit under which the page was issued; either frame is 59 bytes
of MessagePack.

* `decode_issuedBytes`, `issuedBytes_of_decode`: a frame decodes from its bytes and from no others;
* `frames_decode_in_any_chunks`: so do streams of frames, however they are cut.
-/

namespace PgFusion.Issuance

open Page (PageDescriptor)

open Transfer (PageFrame CloseFrame DescriptorFits)

open Wire

/-! ### Frames -/

/-- `IssuedFrameKind`. -/
inductive IssuedFrameKind where
  | page | close
deriving DecidableEq

/-- The discriminant of a kind. -/
def IssuedFrameKind.raw : IssuedFrameKind → ℕ
  | page => 1
  | close => 2

/-- `IssuedPageFrame`. -/
structure IssuedPageFrame where
  poolInstanceId : ℕ
  permitId : ℕ
  inner : PageFrame
deriving DecidableEq

/-- `IssuedOwnedFrame`. -/
inductive IssuedOwnedFrame where
  | page (frame : IssuedPageFrame)
  | close (frame : CloseFrame)
deriving DecidableEq

namespace IssuedOwnedFrame

/-- `IssuedOwnedFrame::transfer_id`. -/
def transferId : IssuedOwnedFrame → ℕ
  | page f => f.inner.transferId
  | close f => f.transferId

/-- The kind of a frame. -/
def kind : IssuedOwnedFrame → IssuedFrameKind
  | page _ => .page
  | close _ => .close

/-- The pool instance that the encoder writes. -/
def poolInstanceId : IssuedOwnedFrame → ℕ
  | page f => f.poolInstanceId
  | close _ => 0

/-- The permit that the encoder writes. -/
def permitId : IssuedOwnedFrame → ℕ
  | page f => f.permitId
  | close _ => 0

/-- The descriptor that the encoder writes. -/
def descriptor : IssuedOwnedFrame → PageDescriptor
  | page f => f.inner.descriptor
  | close _ => ⟨0, 0, 0⟩

/-- The fields of a frame are in the range of their machine types. -/
def Fits (f : IssuedOwnedFrame) : Prop :=
  f.transferId < 256 ^ 8 ∧ f.poolInstanceId < 256 ^ 8 ∧ f.permitId < 256 ^ 4 ∧
    DescriptorFits f.descriptor

instance (f : IssuedOwnedFrame) : Decidable f.Fits := inferInstanceAs (Decidable (_ ∧ _ ∧ _ ∧ _))

end IssuedOwnedFrame

/-- `EncodeError`. -/
inductive EncodeError where
  | bufferTooSmall (expected actual : ℕ)
  | headerEncodeFailed (expected written : ℕ)
deriving DecidableEq

/-- `DecodeError`. -/
inductive DecodeError where
  | badArrayLen (expected actual : ℕ)
  | invalidMagic (expected actual : ℕ)
  | unsupportedVersion (expected actual : ℕ)
  | invalidFrameKind (actual : ℕ)
  | nonZeroFlags (actual : ℕ)
  | nonZeroCloseFields
  | trailingBytes (expected actual : ℕ)
deriving DecidableEq

/-! ### The codec -/

def issuedTransportMagic : ℕ := 0x50494631

def issuedTransportVersion : ℕ := 1

def issuedTransportFlagsV1 : ℕ := 0

def issuedHeaderArrayLen : ℕ := 10

def issuedHeaderLen : ℕ := 59

/-- `header_len_error`. -/
def headerLenError (remaining : ℕ) : EncodeError :=
  .headerEncodeFailed issuedHeaderLen (issuedHeaderLen - remaining)

/-- What the encoder writes, one write after the other. -/
def issuedFields (f : IssuedOwnedFrame) : List (List UInt8) :=
  [writeLen arrayLen issuedHeaderArrayLen, writeUint .u32 issuedTransportMagic,
    writeUint .u16 issuedTransportVersion, writeUint .u8 f.kind.raw,
    writeUint .u8 issuedTransportFlagsV1, writeUint .u64 f.transferId,
    writeUint .u64 f.poolInstanceId, writeUint .u32 f.permitId, writeUint .u64 f.descriptor.poolId,
    writeUint .u32 f.descriptor.pageId, writeUint .u64 f.descriptor.generation]

/-- `encode_issued_owned_frame`: the buffer and the number of bytes written. -/
def encodeIssuedOwnedFrame (f : IssuedOwnedFrame) (out : List UInt8) :
    Except EncodeError (List UInt8 × ℕ) := do
  if out.length < issuedHeaderLen then
    throw (.bufferTooSmall issuedHeaderLen out.length)
  let written ← writeFields issuedHeaderLen headerLenError (issuedFields f)
  return (written ++ out.drop issuedHeaderLen, issuedHeaderLen)

/-- `encode_issued_frame`. -/
def encodeIssuedFrame (f : IssuedOwnedFrame) : Except EncodeError (List UInt8) := do
  let (buf, written) ← encodeIssuedOwnedFrame f (List.replicate issuedHeaderLen 0)
  if written ≠ issuedHeaderLen then
    throw (.headerEncodeFailed issuedHeaderLen written)
  return buf

/-- `IssuedFrameKind::from_u8`. -/
def IssuedFrameKind.fromU8 : ℕ → Except DecodeError IssuedFrameKind
  | 1 => .ok page
  | 2 => .ok close
  | actual => .error (.invalidFrameKind actual)

/-- The fields of a frame in the order of the wire, up to the check for trailing bytes: the
kind, the transfer, the pool instance and the permit, the descriptor. -/
def readIssued : Reader DecodeError (IssuedFrameKind × ℕ × (ℕ × ℕ) × PageDescriptor) := do
  readTag (readLen arrayLen) issuedHeaderArrayLen (.badArrayLen issuedHeaderArrayLen)
  readTag (readUint .u32) issuedTransportMagic (.invalidMagic issuedTransportMagic)
  readTag (readUint .u16) issuedTransportVersion (.unsupportedVersion issuedTransportVersion)
  let rawKind ← (readUint .u8).mapError fun _ => .invalidFrameKind 0
  let kind ← IssuedFrameKind.fromU8 rawKind
  readTag (readUint .u8) issuedTransportFlagsV1 .nonZeroFlags
  let transferId ← (readUint .u64).mapError fun _ => .trailingBytes 0 0
  let poolInstanceId ← (readUint .u64).mapError fun _ => .trailingBytes 0 0
  let permitId ← (readUint .u32).mapError fun _ => .trailingBytes 0 0
  let poolId ← (readUint .u64).mapError fun _ => .trailingBytes 0 0
  let pageId ← (readUint .u32).mapError fun _ => .trailingBytes 0 0
  let generation ← (readUint .u64).mapError fun _ => .trailingBytes 0 0
  return (kind, transferId, (poolInstanceId, permitId), ⟨poolId, pageId, generation⟩)

/-- `decode_issued_owned_frame`. -/
def decodeIssuedOwnedFrame (bytes : List UInt8) : Except DecodeError IssuedOwnedFrame :=
  match readIssued.run bytes with
  | .error e => .error e
  | .ok ((kind, transferId, (poolInstanceId, permitId), descriptor), rest) =>
    if rest.length ≠ 0 then
      .error (.trailingBytes (bytes.length - rest.length) bytes.length)
    else match kind with
      | .page => .ok (.page ⟨poolInstanceId, permitId, ⟨transferId, descriptor⟩⟩)
      | .close =>
        if poolInstanceId ≠ 0 ∨ permitId ≠ 0 ∨ descriptor.poolId ≠ 0 ∨ descriptor.pageId ≠ 0 ∨
            descriptor.generation ≠ 0 then
          .error .nonZeroCloseFields
        else .ok (.close ⟨transferId⟩)

/-! ### What is written is read, and nothing else -/

/-- The bytes of a frame. -/
def issuedBytes (f : IssuedOwnedFrame) : List UInt8 := (issuedFields f).flatten

lemma length_issuedBytes (f : IssuedOwnedFrame) : (issuedBytes f).length = issuedHeaderLen := by
  have hlen : (writeLen arrayLen issuedHeaderArrayLen).length = 1 := rfl
  simp [issuedBytes, issuedFields, writeUint, hlen, Width.size, issuedHeaderLen]

/-- The encoder succeeds on every frame. -/
lemma encodeIssuedFrame_eq (f : IssuedOwnedFrame) : encodeIssuedFrame f = .ok (issuedBytes f) := by
  have hw : writeFields issuedHeaderLen headerLenError (issuedFields f) = .ok (issuedBytes f) :=
    writeFields_eq (length_issuedBytes f)
  simp [encodeIssuedFrame, encodeIssuedOwnedFrame, hw, bind, Except.bind, pure, Except.pure]

lemma fromU8_raw (k : IssuedFrameKind) : IssuedFrameKind.fromU8 k.raw = .ok k := by
  cases k <;> rfl

lemma raw_of_fromU8 {n : ℕ} {k : IssuedFrameKind} (h : IssuedFrameKind.fromU8 n = .ok k) :
    n = k.raw := by
  revert h
  rw [IssuedFrameKind.fromU8.eq_def]
  split <;> rintro ⟨⟩ <;> rfl

/-- The fields of a frame are read off its bytes. -/
lemma reads_issued {f : IssuedOwnedFrame} (h : f.Fits) : Reads readIssued (issuedBytes f)
    (f.kind, f.transferId, (f.poolInstanceId, f.permitId), f.descriptor) := by
  obtain ⟨hid, hinst, hpermit, hpool, hpage, hgen⟩ := h
  have hkind : f.kind.raw < 256 ^ Width.u8.size := by
    cases f <;> simp [IssuedOwnedFrame.kind, IssuedFrameKind.raw, Width.size]
  simp only [issuedBytes, issuedFields, List.flatten_cons, List.flatten_nil]
  refine (reads_tag _ (reads_len (Or.inl (by decide)))).bind ?_
  refine (reads_tag _ (reads_uint (by decide))).bind ?_
  refine (reads_tag _ (reads_uint (by decide))).bind ?_
  refine ((reads_uint hkind).mapError _).bind ?_
  refine Reads.then_of_nil (Reads.liftM (fromU8_raw f.kind)) ?_
  refine (reads_tag _ (reads_uint (by decide))).bind ?_
  refine ((reads_uint hid).mapError _).bind ?_
  refine ((reads_uint hinst).mapError _).bind ?_
  refine ((reads_uint hpermit).mapError _).bind ?_
  refine ((reads_uint hpool).mapError _).bind ?_
  refine ((reads_uint hpage).mapError _).bind ?_
  exact ((reads_uint hgen).mapError _).bind (Reads.pure _)

/-- **A frame decodes from its bytes.** -/
lemma decode_issuedBytes {f : IssuedOwnedFrame} (h : f.Fits) :
    decodeIssuedOwnedFrame (issuedBytes f) = .ok f := by
  have hread := reads_issued h []
  rw [List.append_nil] at hread
  rw [decodeIssuedOwnedFrame, hread]
  cases f with
  | page f => rfl
  | close f => rfl

/-- The only bytes that the fields of a frame are read off, but for the choice of the
marker of the array. -/
lemma readIssued_eq_ok {b : List UInt8} {k : IssuedFrameKind} {id inst permit : ℕ}
    {d : PageDescriptor} (h : readIssued.run b = .ok ((k, id, (inst, permit), d), []))
    (hlen : b.length = issuedHeaderLen) :
    (id < 256 ^ 8 ∧ inst < 256 ^ 8 ∧ permit < 256 ^ 4 ∧ DescriptorFits d) ∧
      b = [writeLen arrayLen issuedHeaderArrayLen, writeUint .u32 issuedTransportMagic,
        writeUint .u16 issuedTransportVersion, writeUint .u8 k.raw,
        writeUint .u8 issuedTransportFlagsV1, writeUint .u64 id, writeUint .u64 inst,
        writeUint .u32 permit, writeUint .u64 d.poolId, writeUint .u32 d.pageId,
        writeUint .u64 d.generation].flatten := by
  obtain ⟨_, b₁, h₁, r₁⟩ := Reader.bind_eq_ok h
  obtain ⟨b₂, rfl, r₂⟩ := tag_bind_eq_ok r₁
  obtain ⟨b₃, rfl, r₃⟩ := tag_bind_eq_ok r₂
  obtain ⟨rawKind, b₄, rfl, -, r₄⟩ := uint_bind_eq_ok r₃
  obtain ⟨kind, b₅, h₅, r₅⟩ := Reader.bind_eq_ok r₄
  obtain ⟨hkind, rfl⟩ := Reader.liftM_eq_ok.mp h₅
  obtain rfl := raw_of_fromU8 hkind
  obtain ⟨b₆, rfl, r₆⟩ := tag_bind_eq_ok r₅
  obtain ⟨transferId, b₇, rfl, hid, r₇⟩ := uint_bind_eq_ok r₆
  obtain ⟨poolInstanceId, b₈, rfl, hinst, r₈⟩ := uint_bind_eq_ok r₇
  obtain ⟨permitId, b₉, rfl, hpermit, r₉⟩ := uint_bind_eq_ok r₈
  obtain ⟨poolId, b₁₀, rfl, hpool, r₁₀⟩ := uint_bind_eq_ok r₉
  obtain ⟨pageId, b₁₁, rfl, hpage, r₁₁⟩ := uint_bind_eq_ok r₁₀
  obtain ⟨generation, b₁₂, rfl, hgen, r₁₂⟩ := uint_bind_eq_ok r₁₁
  have hres := Reader.pure_eq_ok.mp r₁₂
  simp only [Prod.mk.injEq] at hres
  obtain ⟨⟨rfl, rfl, ⟨rfl, rfl⟩, rfl⟩, rfl⟩ := hres
  refine ⟨⟨hid, hinst, hpermit, hpool, hpage, hgen⟩, ?_⟩
  refine (readLen_of_length (readTag_eq_ok h₁) (by decide) ?_).trans ?_
  · -- every other field has a fixed size
    simp [hlen, issuedHeaderLen, writeUint, Width.size]
  · simp only [List.flatten_cons, List.flatten_nil]

/-- **A frame decodes from no other bytes** of the size of a frame. -/
lemma issuedBytes_of_decode {b : List UInt8} {f : IssuedOwnedFrame}
    (hlen : b.length = issuedHeaderLen) (h : decodeIssuedOwnedFrame b = .ok f) :
    f.Fits ∧ issuedBytes f = b := by
  rw [decodeIssuedOwnedFrame] at h
  cases hread : readIssued.run b with
  | error e =>
    rw [hread] at h
    cases h
  | ok r =>
    obtain ⟨⟨kind, id, ⟨inst, permit⟩, d⟩, rest⟩ := r
    rw [hread] at h
    dsimp only at h
    split at h
    · cases h
    · next hrest =>
        obtain rfl := List.length_eq_zero_iff.mp (not_not.mp hrest)
        obtain ⟨hfits, rfl⟩ := readIssued_eq_ok hread hlen
        cases kind with
        | page =>
          obtain rfl := Except.ok.inj h
          exact ⟨hfits, rfl⟩
        | close =>
          dsimp only at h
          split at h
          · cases h
          · next hzero =>
              obtain rfl := Except.ok.inj h
              simp only [not_or, not_not] at hzero
              obtain ⟨hinst, hpermit, hpool, hpage, hgen⟩ := hzero
              refine ⟨⟨hfits.1, show (0 < 256 ^ 8 ∧ 0 < 256 ^ 4 ∧ DescriptorFits ⟨0, 0, 0⟩) by
                decide⟩, ?_⟩
              simp only [issuedBytes, issuedFields, IssuedOwnedFrame.kind,
                IssuedOwnedFrame.transferId, IssuedOwnedFrame.poolInstanceId,
                IssuedOwnedFrame.permitId, IssuedOwnedFrame.descriptor, hinst, hpermit, hpool,
                hpage, hgen]

/-- The frame decoder of this codec, `IssuedFrameDecoder`. -/
def issuedCodec : Codec DecodeError IssuedOwnedFrame where
  size := issuedHeaderLen
  size_pos := by decide
  decode := decodeIssuedOwnedFrame

/-! ### Framing -/

/-- **Frame decoding does not depend on chunking.** For either codec, frames are encoded without
error, and however their encodings are cut into chunks, a fresh decoder yields these frames and no
error, and buffers nothing at the end. Conversely, a frame that is decoded from an input of the size
of a frame is encoded to that input. -/
theorem frames_decode_in_any_chunks :
    (∀ fs : List Transfer.OwnedFrame, (∀ f ∈ fs, f.Fits) →
      ∃ encs, fs.mapM Transfer.encodeFrame = .ok encs ∧
        ∀ chunks : List (List UInt8), chunks.flatten = encs.flatten →
          let r := Transfer.frameCodec.pushAll (.new Transfer.frameCodec.size_pos) chunks
          r.1 = fs.map .ok ∧ r.2.bufferedLen = 0) ∧
    (∀ fs : List IssuedOwnedFrame, (∀ f ∈ fs, f.Fits) →
      ∃ encs, fs.mapM encodeIssuedFrame = .ok encs ∧
        ∀ chunks : List (List UInt8), chunks.flatten = encs.flatten →
          let r := issuedCodec.pushAll (.new issuedCodec.size_pos) chunks
          r.1 = fs.map .ok ∧ r.2.bufferedLen = 0) ∧
    (∀ (b : List UInt8) (f : Transfer.OwnedFrame), b.length = 45 →
      Transfer.decodeOwnedFrame b = .ok f → Transfer.encodeFrame f = .ok b) ∧
    (∀ (b : List UInt8) (f : IssuedOwnedFrame), b.length = 59 →
      decodeIssuedOwnedFrame b = .ok f → encodeIssuedFrame f = .ok b) := by
  refine ⟨fun fs hfits => ⟨_, mapM_encode Transfer.encodeFrame_eq fs, fun chunks hchunks => ?_⟩,
    fun fs hfits => ⟨_, mapM_encode encodeIssuedFrame_eq fs, fun chunks hchunks => ?_⟩,
    fun b f hlen h => ?_, fun b f hlen h => ?_⟩
  · exact Codec.pushAll_stream (fun f hf =>
      ⟨Transfer.length_frameBytes f, Transfer.decode_frameBytes (hfits f hf)⟩) hchunks
  · exact Codec.pushAll_stream (fun f hf =>
      ⟨length_issuedBytes f, decode_issuedBytes (hfits f hf)⟩) hchunks
  · rw [Transfer.encodeFrame_eq, (Transfer.frameBytes_of_decode hlen h).2]
  · rw [encodeIssuedFrame_eq, (issuedBytes_of_decode hlen h).2]

/-- A page frame and a close frame of either layer, cut inside the second frame. -/
theorem frames_decode_in_three_chunks :
    (∃ encs, [Transfer.OwnedFrame.page ⟨1, ⟨7, 0, 1⟩⟩, .close ⟨2⟩].mapM Transfer.encodeFrame =
      .ok encs ∧ (Transfer.frameCodec.pushAll (.new Transfer.frameCodec.size_pos)
        [[], encs.flatten.take 50, encs.flatten.drop 50]).1 =
          [.ok (.page ⟨1, ⟨7, 0, 1⟩⟩), .ok (.close ⟨2⟩)]) ∧
    (∃ encs, [IssuedOwnedFrame.page ⟨9, 3, ⟨1, ⟨7, 0, 1⟩⟩⟩, .close ⟨2⟩].mapM encodeIssuedFrame =
        .ok encs ∧
      (issuedCodec.pushAll (.new issuedCodec.size_pos)
        [[], encs.flatten.take 60, encs.flatten.drop 60]).1 =
          [.ok (.page ⟨9, 3, ⟨1, ⟨7, 0, 1⟩⟩⟩), .ok (.close ⟨2⟩)]) ∧
    Transfer.encodeFrame (.close ⟨2⟩) = .ok (Transfer.frameBytes (.close ⟨2⟩)) ∧
    encodeIssuedFrame (.close ⟨2⟩) = .ok (issuedBytes (.close ⟨2⟩)) := by
  obtain ⟨htransfer, hissued, hexact, hexact'⟩ := frames_decode_in_any_chunks
  obtain ⟨encs, henc, h⟩ := htransfer [.page ⟨1, ⟨7, 0, 1⟩⟩, .close ⟨2⟩] (by decide)
  obtain ⟨encs', henc', h'⟩ := hissued [.page ⟨9, 3, ⟨1, ⟨7, 0, 1⟩⟩⟩, .close ⟨2⟩] (by decide)
  exact ⟨⟨encs, henc, (h [[], encs.flatten.take 50, encs.flatten.drop 50] (by simp)).1⟩,
    ⟨encs', henc', (h' [[], encs'.flatten.take 60, encs'.flatten.drop 60] (by simp)).1⟩,
    hexact _ _ (Transfer.length_frameBytes _) (Transfer.decode_frameBytes (by decide)),
    hexact' _ _ (length_issuedBytes _) (decode_issuedBytes (by decide))⟩

end PgFusion.Issuance

import PgFusion.Page.Pool
import PgFusion.Wire.Framing

/-!
The control frames of `page/transfer/src/{wire,codec}.rs`: a page frame hands a detached page over
by its descriptor; a close frame ends the stream. Either is 45 bytes of MessagePack.
* `decode_frameBytes`, `frameBytes_of_decode`: a frame decodes from its bytes and from no others.
-/

namespace PgFusion.Transfer

open Page (PageDescriptor)

open Wire

/-! ### Frames -/

/-- `FrameKind`. -/
inductive FrameKind where
  | page | close
deriving DecidableEq

/-- The discriminant of a kind. -/
def FrameKind.raw : FrameKind → ℕ
  | page => 1
  | close => 2

/-- `PageFrame`. -/
structure PageFrame where
  transferId : ℕ
  descriptor : PageDescriptor
deriving DecidableEq

/-- `CloseFrame`. -/
structure CloseFrame where
  transferId : ℕ
deriving DecidableEq

/-- `OwnedFrame`. -/
inductive OwnedFrame where
  | page (frame : PageFrame)
  | close (frame : CloseFrame)
deriving DecidableEq

/-- The fields of a descriptor are in the range of `u64`, `u32` and `u64`. -/
def DescriptorFits (d : PageDescriptor) : Prop :=
  d.poolId < 256 ^ 8 ∧ d.pageId < 256 ^ 4 ∧ d.generation < 256 ^ 8

instance (d : PageDescriptor) : Decidable (DescriptorFits d) :=
  inferInstanceAs (Decidable (_ ∧ _ ∧ _))

namespace OwnedFrame

/-- `OwnedFrame::transfer_id`. -/
def transferId : OwnedFrame → ℕ
  | page f => f.transferId
  | close f => f.transferId

/-- `OwnedFrame::kind`. -/
def kind : OwnedFrame → FrameKind
  | page _ => .page
  | close _ => .close

/-- The descriptor that the encoder writes: none is written as zeroes. -/
def descriptor : OwnedFrame → PageDescriptor
  | page f => f.descriptor
  | close _ => ⟨0, 0, 0⟩

/-- The fields of a frame are in the range of their machine types. -/
def Fits (f : OwnedFrame) : Prop := f.transferId < 256 ^ 8 ∧ DescriptorFits f.descriptor

instance (f : OwnedFrame) : Decidable f.Fits := inferInstanceAs (Decidable (_ ∧ _))

end OwnedFrame

/-- `EncodeError`. -/
inductive EncodeError where
  | bufferTooSmall (expected actual : ℕ)
  | headerEncodeFailed (expected written : ℕ)
deriving DecidableEq

/-- `DecodeError`. -/
inductive DecodeError where
  | badArrayLen (expected actual : ℕ)
  | invalidMagic (expected actual : ℕ)
  | unsupportedVersion (expected actual : ℕ)
  | invalidFrameKind (actual : ℕ)
  | nonZeroFlags (actual : ℕ)
  | nonZeroCloseDescriptor
  | trailingBytes (expected actual : ℕ)
deriving DecidableEq

/-! ### The codec -/

def transportMagic : ℕ := 0x50544631

def transportVersion : ℕ := 1

def transportFlagsV1 : ℕ := 0

def transportHeaderArrayLen : ℕ := 8

def transportHeaderLen : ℕ := 45

/-- `header_len_error`. -/
def headerLenError (remaining : ℕ) : EncodeError :=
  .headerEncodeFailed transportHeaderLen (transportHeaderLen - remaining)

/-- What the encoder writes, one write after the other. -/
def frameFields (f : OwnedFrame) : List (List UInt8) :=
  [writeLen arrayLen transportHeaderArrayLen, writeUint .u32 transportMagic,
    writeUint .u16 transportVersion, writeUint .u8 f.kind.raw, writeUint .u8 transportFlagsV1,
    writeUint .u64 f.transferId, writeUint .u64 f.descriptor.poolId,
    writeUint .u32 f.descriptor.pageId, writeUint .u64 f.descriptor.generation]

/-- `encode_owned_frame`: the buffer and the number of bytes written. -/
def encodeOwnedFrame (f : OwnedFrame) (out : List UInt8) : Except EncodeError (List UInt8 × ℕ) := do
  if out.length < transportHeaderLen then
    throw (.bufferTooSmall transportHeaderLen out.length)
  let written ← writeFields transportHeaderLen headerLenError (frameFields f)
  return (written ++ out.drop transportHeaderLen, transportHeaderLen)

/-- `encode_frame`. -/
def encodeFrame (f : OwnedFrame) : Except EncodeError (List UInt8) := do
  let (buf, written) ← encodeOwnedFrame f (List.replicate transportHeaderLen 0)
  if written ≠ transportHeaderLen then
    throw (.headerEncodeFailed transportHeaderLen written)
  return buf

/-- `FrameKind::from_u8`. -/
def FrameKind.fromU8 : ℕ → Except DecodeError FrameKind
  | 1 => .ok page
  | 2 => .ok close
  | actual => .error (.invalidFrameKind actual)

/-- The fields of a frame in the order of the wire, up to the check for trailing bytes. -/
def readFrame : Reader DecodeError (FrameKind × ℕ × PageDescriptor) := do
  readTag (readLen arrayLen) transportHeaderArrayLen (.badArrayLen transportHeaderArrayLen)
  readTag (readUint .u32) transportMagic (.invalidMagic transportMagic)
  readTag (readUint .u16) transportVersion (.unsupportedVersion transportVersion)
  let rawKind ← (readUint .u8).mapError fun _ => .invalidFrameKind 0
  let kind ← FrameKind.fromU8 rawKind
  readTag (readUint .u8) transportFlagsV1 .nonZeroFlags
  let transferId ← (readUint .u64).mapError fun _ => .trailingBytes 0 0
  let poolId ← (readUint .u64).mapError fun _ => .trailingBytes 0 0
  let pageId ← (readUint .u32).mapError fun _ => .trailingBytes 0 0
  let generation ← (readUint .u64).mapError fun _ => .trailingBytes 0 0
  return (kind, transferId, ⟨poolId, pageId, generation⟩)

/-- `decode_owned_frame`. -/
def decodeOwnedFrame (bytes : List UInt8) : Except DecodeError OwnedFrame :=
  match readFrame.run bytes with
  | .error e => .error e
  | .ok ((kind, transferId, descriptor), rest) =>
    if rest.length ≠ 0 then
      .error (.trailingBytes (bytes.length - rest.length) bytes.length)
    else match kind with
      | .page => .ok (.page ⟨transferId, descriptor⟩)
      | .close =>
        if descriptor.poolId ≠ 0 ∨ descriptor.pageId ≠ 0 ∨ descriptor.generation ≠ 0 then
          .error .nonZeroCloseDescriptor
        else .ok (.close ⟨transferId⟩)

/-! ### What is written is read, and nothing else -/

/-- The bytes of a frame. -/
def frameBytes (f : OwnedFrame) : List UInt8 := (frameFields f).flatten

lemma length_frameBytes (f : OwnedFrame) : (frameBytes f).length = transportHeaderLen := by
  have hlen : (writeLen arrayLen transportHeaderArrayLen).length = 1 := rfl
  simp [frameBytes, frameFields, writeUint, hlen, Width.size, transportHeaderLen]

/-- The encoder succeeds on every frame. -/
lemma encodeFrame_eq (f : OwnedFrame) : encodeFrame f = .ok (frameBytes f) := by
  have hw : writeFields transportHeaderLen headerLenError (frameFields f) = .ok (frameBytes f) :=
    writeFields_eq (length_frameBytes f)
  simp [encodeFrame, encodeOwnedFrame, hw, bind, Except.bind, pure, Except.pure]

lemma fromU8_raw (k : FrameKind) : FrameKind.fromU8 k.raw = .ok k := by
  cases k <;> rfl

lemma raw_of_fromU8 {n : ℕ} {k : FrameKind} (h : FrameKind.fromU8 n = .ok k) : n = k.raw := by
  revert h
  rw [FrameKind.fromU8.eq_def]
  split <;> rintro ⟨⟩ <;> rfl

/-- The fields of a frame are read off its bytes. -/
lemma reads_frame {f : OwnedFrame} (h : f.Fits) :
    Reads readFrame (frameBytes f) (f.kind, f.transferId, f.descriptor) := by
  obtain ⟨hid, hpool, hpage, hgen⟩ := h
  have hkind : f.kind.raw < 256 ^ Width.u8.size := by
    cases f <;> simp [OwnedFrame.kind, FrameKind.raw, Width.size]
  simp only [frameBytes, frameFields, List.flatten_cons, List.flatten_nil]
  refine (reads_tag _ (reads_len (Or.inl (by decide)))).bind ?_
  refine (reads_tag _ (reads_uint (by decide))).bind ?_
  refine (reads_tag _ (reads_uint (by decide))).bind ?_
  refine ((reads_uint hkind).mapError _).bind ?_
  refine Reads.then_of_nil (Reads.liftM (fromU8_raw f.kind)) ?_
  refine (reads_tag _ (reads_uint (by decide))).bind ?_
  refine ((reads_uint hid).mapError _).bind ?_
  refine ((reads_uint hpool).mapError _).bind ?_
  refine ((reads_uint hpage).mapError _).bind ?_
  exact ((reads_uint hgen).mapError _).bind (Reads.pure _)

/-- **A frame decodes from its bytes.** -/
lemma decode_frameBytes {f : OwnedFrame} (h : f.Fits) :
    decodeOwnedFrame (frameBytes f) = .ok f := by
  have hread := reads_frame h []
  rw [List.append_nil] at hread
  rw [decodeOwnedFrame, hread]
  cases f with
  | page f => rfl
  | close f => rfl

/-- The only bytes that the fields of a frame are read off, but for the choice of the
marker of the array. -/
lemma readFrame_eq_ok {b : List UInt8} {k : FrameKind} {id : ℕ} {d : PageDescriptor}
    (h : readFrame.run b = .ok ((k, id, d), [])) (hlen : b.length = transportHeaderLen) :
    id < 256 ^ 8 ∧ DescriptorFits d ∧
      b = [writeLen arrayLen transportHeaderArrayLen, writeUint .u32 transportMagic,
        writeUint .u16 transportVersion, writeUint .u8 k.raw, writeUint .u8 transportFlagsV1,
        writeUint .u64 id, writeUint .u64 d.poolId, writeUint .u32 d.pageId,
        writeUint .u64 d.generation].flatten := by
  obtain ⟨_, b₁, h₁, r₁⟩ := Reader.bind_eq_ok h
  obtain ⟨b₂, rfl, r₂⟩ := tag_bind_eq_ok r₁
  obtain ⟨b₃, rfl, r₃⟩ := tag_bind_eq_ok r₂
  obtain ⟨rawKind, b₄, rfl, -, r₄⟩ := uint_bind_eq_ok r₃
  obtain ⟨kind, b₅, h₅, r₅⟩ := Reader.bind_eq_ok r₄
  obtain ⟨hkind, rfl⟩ := Reader.liftM_eq_ok.mp h₅
  obtain rfl := raw_of_fromU8 hkind
  obtain ⟨b₆, rfl, r₆⟩ := tag_bind_eq_ok r₅
  obtain ⟨transferId, b₇, rfl, hid, r₇⟩ := uint_bind_eq_ok r₆
  obtain ⟨poolId, b₈, rfl, hpool, r₈⟩ := uint_bind_eq_ok r₇
  obtain ⟨pageId, b₉, rfl, hpage, r₉⟩ := uint_bind_eq_ok r₈
  obtain ⟨generation, b₀, rfl, hgen, r₁₀⟩ := uint_bind_eq_ok r₉
  have hres := Reader.pure_eq_ok.mp r₁₀
  simp only [Prod.mk.injEq] at hres
  obtain ⟨⟨rfl, rfl, rfl⟩, rfl⟩ := hres
  refine ⟨hid, ⟨hpool, hpage, hgen⟩, ?_⟩
  refine (readLen_of_length (readTag_eq_ok h₁) (by decide) ?_).trans ?_
  · -- every other field has a fixed size
    simp [hlen, transportHeaderLen, writeUint, Width.size]
  · simp only [List.flatten_cons, List.flatten_nil]

/-- **A frame decodes from no other bytes** of the size of a frame. -/
lemma frameBytes_of_decode {b : List UInt8} {f : OwnedFrame} (hlen : b.length = transportHeaderLen)
    (h : decodeOwnedFrame b = .ok f) : f.Fits ∧ frameBytes f = b := by
  rw [decodeOwnedFrame] at h
  cases hread : readFrame.run b with
  | error e =>
    rw [hread] at h
    cases h
  | ok r =>
    obtain ⟨⟨kind, id, d⟩, rest⟩ := r
    rw [hread] at h
    dsimp only at h
    split at h
    · cases h
    · next hrest =>
        obtain rfl := List.length_eq_zero_iff.mp (not_not.mp hrest)
        obtain ⟨hid, hd, rfl⟩ := readFrame_eq_ok hread hlen
        cases kind with
        | page =>
          obtain rfl := Except.ok.inj h
          exact ⟨⟨hid, hd⟩, rfl⟩
        | close =>
          dsimp only at h
          split at h
          · cases h
          · next hzero =>
              obtain rfl := Except.ok.inj h
              simp only [not_or, not_not] at hzero
              obtain ⟨hpool, hpage, hgen⟩ := hzero
              refine ⟨⟨hid, show DescriptorFits ⟨0, 0, 0⟩ by decide⟩, ?_⟩
              simp only [frameBytes, frameFields, OwnedFrame.kind, OwnedFrame.transferId,
                OwnedFrame.descriptor, hpool, hpage, hgen]

/-- The frame decoder of this codec. -/
def frameCodec : Codec DecodeError OwnedFrame where
  size := transportHeaderLen
  size_pos := by decide
  decode := decodeOwnedFrame

end PgFusion.Transfer

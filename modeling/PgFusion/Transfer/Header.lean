import PgFusion.Transfer.Frame

/-!
The header in a page, of `page/transfer/src/page.rs`: 20 bytes of MessagePack.
-/

namespace PgFusion.Transfer

open Wire

/-- `PageHeader`. -/
structure PageHeader where
  kind : ℕ
  flags : ℕ
  payloadLen : ℕ
deriving DecidableEq

/-- The fields are in the range of `u16`, `u16` and `u32`. -/
def PageHeader.Fits (h : PageHeader) : Prop :=
  h.kind < 256 ^ 2 ∧ h.flags < 256 ^ 2 ∧ h.payloadLen < 256 ^ 4

/-- `InvalidPageError`. -/
inductive InvalidPageError where
  | badArrayLen (expected actual : ℕ)
  | invalidMagic (expected actual : ℕ)
  | unsupportedVersion (expected actual : ℕ)
  | payloadTooLarge (payloadLen capacity : ℕ)
  | trailingBytes (expected actual : ℕ)
deriving DecidableEq

def pageMagic : ℕ := 0x50545031

def pageVersion : ℕ := 1

def pageHeaderArrayLen : ℕ := 5

def pageHeaderLen : ℕ := 20

/-- What the encoder writes, one write after the other. -/
def headerFields (h : PageHeader) : List (List UInt8) :=
  [writeLen arrayLen pageHeaderArrayLen, writeUint .u32 pageMagic, writeUint .u16 pageVersion,
    writeUint .u16 h.kind, writeUint .u16 h.flags, writeUint .u32 h.payloadLen]

/-- `encode_page_header`, with the buffer it leaves behind. -/
def encodePageHeader (h : PageHeader) (out : List UInt8) : Except EncodeError (List UInt8) := do
  if out.length < pageHeaderLen then
    throw (.bufferTooSmall pageHeaderLen out.length)
  let written ← writeFields pageHeaderLen
    (fun remaining => .headerEncodeFailed pageHeaderLen (pageHeaderLen - remaining))
      (headerFields h)
  return written ++ out.drop pageHeaderLen

/-- The fields of a header in the order of the wire, up to the check for trailing bytes. -/
def readHeader : Reader InvalidPageError PageHeader := do
  readTag (readLen arrayLen) pageHeaderArrayLen (.badArrayLen pageHeaderArrayLen)
  readTag (readUint .u32) pageMagic (.invalidMagic pageMagic)
  readTag (readUint .u16) pageVersion (.unsupportedVersion pageVersion)
  let kind ← (readUint .u16).mapError fun _ => .badArrayLen pageHeaderArrayLen pageHeaderArrayLen
  let flags ← (readUint .u16).mapError fun _ => .badArrayLen pageHeaderArrayLen pageHeaderArrayLen
  let payloadLen ← (readUint .u32).mapError fun _ =>
    .badArrayLen pageHeaderArrayLen pageHeaderArrayLen
  return ⟨kind, flags, payloadLen⟩

/-- `decode_page_header`. -/
def decodePageHeader (bytes : List UInt8) : Except InvalidPageError PageHeader :=
  match readHeader.run bytes with
  | .error e => .error e
  | .ok (header, rest) =>
    if rest.length ≠ 0 then .error (.trailingBytes (bytes.length - rest.length) bytes.length)
    else .ok header

/-- The bytes of a header. -/
def headerBytes (h : PageHeader) : List UInt8 := (headerFields h).flatten

lemma length_headerBytes (h : PageHeader) : (headerBytes h).length = pageHeaderLen := by
  have hlen : (writeLen arrayLen pageHeaderArrayLen).length = 1 := rfl
  simp [headerBytes, headerFields, writeUint, hlen, Width.size, pageHeaderLen]

/-- The encoder succeeds on a buffer that is long enough. -/
lemma encodePageHeader_eq (h : PageHeader) {out : List UInt8} (hout : pageHeaderLen ≤ out.length) :
    encodePageHeader h out = .ok (headerBytes h ++ out.drop pageHeaderLen) := by
  have hw : ∀ fail : ℕ → EncodeError,
      writeFields pageHeaderLen fail (headerFields h) = .ok (headerBytes h) :=
    fun _ => writeFields_eq (length_headerBytes h)
  simp [encodePageHeader, hw, Nat.not_lt.mpr hout, bind, Except.bind, pure, Except.pure]

/-- The fields of a header are read off its bytes. -/
lemma reads_header {h : PageHeader} (hfits : h.Fits) : Reads readHeader (headerBytes h) h := by
  obtain ⟨hkind, hflags, hlen⟩ := hfits
  simp only [headerBytes, headerFields, List.flatten_cons, List.flatten_nil]
  refine (reads_tag _ (reads_len (Or.inl (by decide)))).bind ?_
  refine (reads_tag _ (reads_uint (by decide))).bind ?_
  refine (reads_tag _ (reads_uint (by decide))).bind ?_
  refine ((reads_uint hkind).mapError _).bind ?_
  refine ((reads_uint hflags).mapError _).bind ?_
  exact ((reads_uint hlen).mapError _).bind (Reads.pure _)

/-- **A header decodes from its bytes.** -/
lemma decode_headerBytes {h : PageHeader} (hfits : h.Fits) :
    decodePageHeader (headerBytes h) = .ok h := by
  have hread := reads_header hfits []
  rw [List.append_nil] at hread
  rw [decodePageHeader, hread]
  rfl

end PgFusion.Transfer

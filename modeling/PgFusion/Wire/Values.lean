import PgFusion.Wire.Msgpack

/-!
Typed MessagePack values: machine words, each with the width it is written in, texts and lists.
-/

namespace PgFusion.Wire

/-! ### Programs that may fail -/

/-- A program that succeeds after another one did. -/
lemma except_bind_eq_ok {ε α β : Type} {x : Except ε α} {f : α → Except ε β} {b : β}
    (h : (x >>= f) = .ok b) : ∃ a, x = .ok a ∧ f a = .ok b := by
  cases x with
  | error e => cases h
  | ok a => exact ⟨a, rfl, h⟩

/-! ### Machine words -/

/-- A machine word and the width that it is written in. -/
class Word (α : Type) where
  width : Width
  toNat : α → ℕ
  ofNat : ℕ → α
  toNat_lt : ∀ x, toNat x < 256 ^ width.size
  ofNat_toNat : ∀ x, ofNat (toNat x) = x

instance : Word UInt8 where
  width := .u8
  toNat := UInt8.toNat
  ofNat := UInt8.ofNat
  toNat_lt := UInt8.toNat_lt
  ofNat_toNat _ := UInt8.ofNat_toNat

instance : Word UInt16 where
  width := .u16
  toNat := UInt16.toNat
  ofNat := UInt16.ofNat
  toNat_lt := UInt16.toNat_lt
  ofNat_toNat _ := UInt16.ofNat_toNat

instance : Word UInt32 where
  width := .u32
  toNat := UInt32.toNat
  ofNat := UInt32.ofNat
  toNat_lt := UInt32.toNat_lt
  ofNat_toNat _ := UInt32.ofNat_toNat

instance : Word UInt64 where
  width := .u64
  toNat := UInt64.toNat
  ofNat := UInt64.ofNat
  toNat_lt := UInt64.toNat_lt
  ofNat_toNat _ := UInt64.ofNat_toNat

/-- A word under the marker of its width. -/
def writeWord {α : Type} [Word α] (x : α) : List UInt8 := writeUint (Word.width α) (Word.toNat x)

/-- A word, under the marker of its width only. -/
def readWord (α : Type) [Word α] : Reader ReadError α := do
  let n ← readUint (Word.width α)
  return Word.ofNat n

/-- A word is read as it was written. -/
lemma reads_word {α : Type} [Word α] (x : α) : Reads (readWord α) (writeWord x) x := by
  intro s
  rw [readWord, writeWord, Reader.bind_ok (reads_uint (Word.toNat_lt x) s), Word.ofNat_toNat]
  rfl

/-! ### Texts -/

/-- The bytes of a text. -/
def utf8 (s : String) : List UInt8 := s.toByteArray.data.toList

/-- The text that bytes stand for, if they are one's. -/
def ofUtf8 (b : List UInt8) : Option String := String.fromUTF8? ⟨b.toArray⟩

/-- The text that the bytes of a text stand for. -/
lemma ofUtf8_utf8 (s : String) : ofUtf8 (utf8 s) = some s := by
  rw [ofUtf8, utf8, Array.toArray_toList, String.fromUTF8?, dif_pos s.isValidUTF8]
  rfl

/-- `write_str`: the length as a `u32`, and the bytes. -/
def writeStr (s : String) : List UInt8 := writeLen strLen ((utf8 s).length % 2 ^ 32) ++ utf8 s

/-- So many bytes, or an error that tells how many there were. -/
def takeOr {ε : Type} (n : ℕ) (err : ℕ → ε) : Reader ε (List UInt8) := StateT.mk fun s =>
  if s.length < n then .error (err s.length) else .ok (s.take n, s.drop n)

lemma run_takeOr {ε : Type} (n : ℕ) (err : ℕ → ε) (s : List UInt8) : (takeOr n err).run s =
    if s.length < n then .error (err s.length) else .ok (s.take n, s.drop n) := rfl

lemma reads_takeOr {ε : Type} (b : List UInt8) (err : ℕ → ε) :
    Reads (takeOr b.length err) b b := by
  intro s
  simp [run_takeOr]

/-- A length that fits some width of its kind has a marker. -/
lemma writeLen_ne_nil {k : LenKind} {n : ℕ} (h : n < k.fixCount ∨ ∃ mw ∈ k.wide, n < 256 ^ mw.2) :
    writeLen k n ≠ [] := by
  intro hnil
  have hread := reads_len h []
  rw [hnil] at hread
  cases hread

/-! ### Lists -/

/-- A reader so many times over. -/
def Reader.many {ε α : Type} (x : Reader ε α) : ℕ → Reader ε (List α)
  | 0 => pure []
  | n + 1 => do
    let a ← x
    let as ← many x n
    return a :: as

/-- Values that are read one by one are read as a list. -/
lemma Reads.many {ε α : Type} {x : Reader ε α} {w : α → List UInt8} {as : List α}
    (h : ∀ a ∈ as, Reads x (w a) a) : Reads (x.many as.length) (as.flatMap w) as := by
  induction as with
  | nil => exact Reads.pure []
  | cons a as ih =>
    obtain ⟨ha, has⟩ := List.forall_mem_cons.mp h
    rw [List.length_cons, List.flatMap_cons, Reader.many]
    refine ha.bind ?_
    intro s
    rw [Reader.bind_ok (ih has s)]
    rfl

end PgFusion.Wire

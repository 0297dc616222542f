import Mathlib.Data.List.TakeWhile
import Mathlib.Data.Rat.Floor
import Mathlib.Tactic.Linarith
import Mathlib.Tactic.Ring
import PgFusion.Sql.Texts

/-!
Numbers and row identifiers in PostgreSQL's texts.
-/

namespace PgFusion.Sql

/-- The number that digits stand for. -/
def readNat (digits : List Char) : Option ℕ :=
  if digits ≠ [] ∧ digits.all Char.isDigit then some (Nat.ofDigitChars 10 digits 0) else none

/-! ### Numeric -/

/-- Digits with a point. -/
def unsignedIn (text : List Char) : Option ℚ :=
  let whole := text.takeWhile Char.isDigit
  match text.dropWhile Char.isDigit with
  | [] => (readNat whole).map fun n : ℕ => (n : ℚ)
  | '.' :: fraction => (readNat (whole ++ fraction)).map fun n : ℕ => (n : ℚ) / 10 ^ fraction.length
  | _ => none

/-- `numeric_in`, for plain numbers. -/
def numericIn (text : List Char) : Option ℚ :=
  match text with
  | '-' :: digits => (unsignedIn digits).map fun q => -q
  | digits => unsignedIn digits

/-! ### Numbers -/

lemma readNat_eq {digits : List Char} (hne : digits ≠ [])
    (hdigits : ∀ c ∈ digits, c.isDigit = true) :
    readNat digits = some (Nat.ofDigitChars 10 digits 0) :=
  if_pos ⟨hne, List.all_eq_true.mpr hdigits⟩

lemma readNat_toDigits (n : ℕ) : readNat (Nat.toDigits 10 n) = some n := by
  rw [readNat_eq Nat.toDigits_ne_nil fun c hc => toDigits_isDigit hc,
    Nat.ofDigitChars_toDigits (by decide) (by decide)]

/-! ### Digits with a point -/

lemma unsignedIn_digits {digits : List Char} (hne : digits ≠ [])
    (hdigits : ∀ c ∈ digits, c.isDigit = true) :
    unsignedIn digits = some (Nat.ofDigitChars 10 digits 0 : ℚ) := by
  have htake : digits.takeWhile Char.isDigit = digits := List.takeWhile_eq_self_iff.mpr hdigits
  have hdrop : digits.dropWhile Char.isDigit = [] := List.dropWhile_eq_nil_iff.mpr hdigits
  rw [unsignedIn, htake, hdrop, readNat_eq hne hdigits, Option.map_some]

lemma unsignedIn_point {whole fraction : List Char} (hne : whole ≠ [])
    (hwhole : ∀ c ∈ whole, c.isDigit = true) (hfraction : ∀ c ∈ fraction, c.isDigit = true) :
    unsignedIn (whole ++ '.' :: fraction) =
      some ((Nat.ofDigitChars 10 (whole ++ fraction) 0 : ℚ) / 10 ^ fraction.length) := by
  have htake : (whole ++ '.' :: fraction).takeWhile Char.isDigit = whole := by
    rw [List.takeWhile_append_of_pos hwhole, List.takeWhile_cons_of_neg (by decide),
      List.append_nil]
  have hdrop : (whole ++ '.' :: fraction).dropWhile Char.isDigit = '.' :: fraction := by
    rw [List.dropWhile_append_of_pos hwhole, List.dropWhile_cons_of_neg (by decide)]
  have hall : ∀ c ∈ whole ++ fraction, c.isDigit = true := by
    intro c hc
    rw [List.mem_append] at hc
    rcases hc with hc | hc
    · exact hwhole c hc
    · exact hfraction c hc
  rw [unsignedIn, htake, hdrop]
  simp only [readNat_eq (List.append_ne_nil_of_left_ne_nil hne fraction) hall, Option.map_some]

lemma ofDigitChars_zeros (k : ℕ) (digits : List Char) (n : ℕ) :
    Nat.ofDigitChars 10 (List.replicate k '0' ++ digits) n = Nat.ofDigitChars 10 digits
      (n * 10 ^ k) := by
  induction k generalizing n with
  | zero => rw [List.replicate_zero, List.nil_append, pow_zero, mul_one]
  | succ k ih =>
    have hstep : Nat.ofDigitChars 10 (List.replicate (k + 1) '0' ++ digits) n =
        Nat.ofDigitChars 10 (List.replicate k '0' ++ digits) (10 * n + ('0'.toNat - '0'.toNat)) :=
          rfl
    rw [hstep, ih, Nat.sub_self, Nat.add_zero]
    congr 1
    ring

lemma isDigit_of_mem_zeros {k : ℕ} {c : Char} (h : c ∈ List.replicate k '0') :
    c.isDigit = true := by
  rw [List.eq_of_mem_replicate h]
  decide

/-! ### Tuple ids -/

/-- `tidin`, for a block and an offset in plain digits. -/
def tidIn (text : List Char) : Option (ℕ × ℕ) :=
  match text with
  | '(' :: rest =>
    match rest.dropWhile Char.isDigit with
    | ',' :: rest' =>
      match rest'.dropWhile Char.isDigit with
      | [')'] => do
        let block ← readNat (rest.takeWhile Char.isDigit)
        let offset ← readNat (rest'.takeWhile Char.isDigit)
        if block < 2 ^ 32 ∧ offset < 2 ^ 16 then some (block, offset) else none
      | _ => none
    | _ => none
  | _ => none

/-- `ItemPointerCompare`: by the block, then by the offset. -/
def tidLt (a b : ℕ × ℕ) : Bool := a.1 < b.1 ∨ a.1 = b.1 ∧ a.2 < b.2

/-- Comparisons of tuple ids. -/
def tidCompare (op : String) (a b : ℕ × ℕ) : Option Bool :=
  if op = "<" then some (tidLt a b) else if op = ">=" then some (!tidLt a b) else none

/-- The value of comparisons of a row's `ctid` with constants, with `AND` between them. -/
def tidTest (ctid : ℕ × ℕ) : SqlExpr → Option Bool
  | .and l r => do
    let left ← tidTest ctid l
    let right ← tidTest ctid r
    return left && right
  | .binary op (.column "ctid") (.cast (.string text) ⟨["tid"], []⟩) =>
    (tidIn text.toList).bind (tidCompare op ctid)
  | _ => none

/-- The text is read as a test that the row passes. -/
def Satisfies (text : String) (ctid : ℕ × ℕ) : Prop :=
  Enough fun fuel => (parse fuel text.toList).bind (tidTest ctid) = some true

/-- A test with a value is passed when the value is true. -/
lemma satisfies_iff {text : String} {ctid : ℕ × ℕ} {value : Bool}
    (h : Enough fun fuel => (parse fuel text.toList).bind (tidTest ctid) = some value) :
    Satisfies text ctid ↔ value = true := by
  constructor
  · intro h'
    obtain ⟨n, hn⟩ := Enough.and h h'
    obtain ⟨hv, hv'⟩ := hn n (Nat.le_refl n)
    exact Option.some.inj (hv.symm.trans hv')
  · rintro rfl
    exact h

lemma takeWhile_digits (n : ℕ) {c : Char} (hc : c.isDigit = false) (rest : List Char) :
    (Nat.toDigits 10 n ++ c :: rest).takeWhile Char.isDigit = Nat.toDigits 10 n ∧
      (Nat.toDigits 10 n ++ c :: rest).dropWhile Char.isDigit = c :: rest := by
  have hdigits : ∀ d ∈ Nat.toDigits 10 n, d.isDigit = true := fun d hd => toDigits_isDigit hd
  constructor
  · rw [List.takeWhile_append_of_pos hdigits, List.takeWhile_cons_of_neg
      (by rw [hc]; exact Bool.false_ne_true), List.append_nil]
  · rw [List.dropWhile_append_of_pos hdigits, List.dropWhile_cons_of_neg
      (by rw [hc]; exact Bool.false_ne_true)]

/-- A block and an offset that are printed are read back. -/
lemma tidIn_digits {block offset : ℕ} (hblock : block < 2 ^ 32) (hoffset : offset < 2 ^ 16) :
    tidIn ('(' :: (Nat.toDigits 10 block ++ ',' :: (Nat.toDigits 10 offset ++ [')']))) =
      some (block, offset) := by
  have hrest := takeWhile_digits block (c := ',') rfl (Nat.toDigits 10 offset ++ [')'])
  have hrest' := takeWhile_digits offset (c := ')') rfl []
  simp only [tidIn, hrest.1, hrest.2, hrest'.1, hrest'.2, readNat_toDigits]
  exact if_pos ⟨hblock, hoffset⟩

end PgFusion.Sql

import PgFusion.Data.Scaled
import PgFusion.Frontend.Scalar
import PgFusion.SlotImport.Decimal

/-!
Numeric constants, from their text to units of a scale.

* `decimal128ForNumericText_plain`: what the compiler makes of a plain number;
* `numeric_constants_and_columns_agree`: it is what a column of that type holds.
-/

namespace PgFusion.Frontend

/-- A digit, a sign and the point are no white space. -/
lemma not_isWhitespace_of_isDigit {ch : Char} (h : ch.isDigit = true) :
    ch.isWhitespace = false := by
  have hge := (Sql.isDigit_bounds h).1
  rw [Char.isWhitespace]
  simp only [Bool.or_eq_false_iff, decide_eq_false_iff_not]
  refine ⟨⟨⟨?_, ?_⟩, ?_⟩, ?_⟩ <;>
    (intro heq
     rw [heq] at hge
     exact absurd hge (by decide))

variable {whole fraction text : List Char}

/-- A plain number has no white space. -/
lemma plain_no_whitespace {negative : Bool}
    (h : SlotImport.Plain negative whole fraction text) : ∀ ch ∈ text, ch.isWhitespace = false := by
  intro ch hch
  rw [h.text_eq, List.mem_append, List.mem_append] at hch
  rcases hch with hch | hch | hch
  · cases negative with
    | true => rw [List.mem_singleton.mp hch]; rfl
    | false => exact absurd hch List.not_mem_nil
  · exact not_isWhitespace_of_isDigit (h.whole_digits ch hch)
  · split_ifs at hch
    · exact absurd hch List.not_mem_nil
    · rcases List.mem_cons.mp hch with rfl | hch
      · rfl
      · exact not_isWhitespace_of_isDigit (h.fraction_digits ch hch)

lemma trimText_eq_self (h : ∀ ch ∈ text, ch.isWhitespace = false) :
    trimText text = text := by
  have hdrop : ∀ l : List Char, (∀ ch ∈ l, ch.isWhitespace = false) →
      l.dropWhile Char.isWhitespace = l := by
    intro l hl
    cases l with
    | nil => rfl
    | cons ch l => rw [List.dropWhile_cons, hl ch List.mem_cons_self, if_neg Bool.false_ne_true]
  rw [trimText, hdrop text h, hdrop, List.reverse_reverse]
  exact fun ch hch => h ch (List.mem_reverse.mp hch)

/-- A text with a digit is none of the names of what is not finite. -/
lemma not_nonfinite_of_digit {ch : Char} (hch : ch ∈ text) (hdigit : ch.isDigit = true) :
    ["nan", "infinity", "+infinity", "-infinity"].contains (String.ofList (text.map Char.toLower)) =
      false := by
  rw [Bool.eq_false_iff]
  intro h
  rw [List.contains_iff_mem] at h
  have hall : (["nan", "infinity", "+infinity", "-infinity"].all
      fun word => word.toList.all fun ch => !ch.isDigit) = true := by decide
  have hword := List.all_eq_true.mp (List.all_eq_true.mp hall _ h) ch
  rw [String.toList_ofList] at hword
  have hmem : ch ∈ text.map Char.toLower :=
    List.mem_map.mpr ⟨ch, hch, Sql.toLower_of_isDigit hdigit⟩
  rw [hdigit] at hword
  exact Bool.false_ne_true (hword hmem)

/-- What the compiler makes of a plain number: its digits before and behind the point. -/
lemma plain_parts {negative : Bool} (h : SlotImport.Plain negative whole fraction text) :
    trimText text = text ∧
      ["nan", "infinity", "+infinity", "-infinity"].contains
        (String.ofList (text.map Char.toLower)) = false ∧
      (text.head? == some '-') = negative ∧ splitPoint (stripSign text) = (whole, fraction) := by
  have hspace := plain_no_whitespace h
  obtain ⟨ch, rest, hwhole⟩ := List.exists_cons_of_ne_nil h.whole_ne
  have hch : ch.isDigit = true := h.whole_digits ch (hwhole ▸ List.mem_cons_self)
  have hmem : ch ∈ text := by
    rw [h.text_eq, hwhole]
    exact List.mem_append_right _ List.mem_cons_self
  have hbefore : ∀ c ∈ whole, (decide (c ≠ '.')) = true := by
    intro c hc
    refine decide_eq_true fun heq => ?_
    have := h.whole_digits c hc
    rw [heq] at this
    exact absurd this (by decide)
  have hsplit : splitPoint (whole ++ if fraction = [] then [] else '.' :: fraction) =
      (whole, fraction) := by
    rw [splitPoint, List.takeWhile_append_of_pos hbefore, List.dropWhile_append_of_pos hbefore]
    split_ifs with hfraction
    · rw [hfraction]
      simp
    · simp
  refine ⟨trimText_eq_self hspace, not_nonfinite_of_digit hmem hch, ?_, ?_⟩
  · rw [h.text_eq]
    cases negative with
    | true => rfl
    | false =>
      rw [hwhole]
      show (some ch == some '-') = false
      rw [beq_eq_false_iff_ne]
      intro heq
      rw [Option.some.inj heq] at hch
      exact absurd hch (by decide)
  · rw [h.text_eq, ← hsplit]
    cases negative with
    | true => rfl
    | false =>
      rw [hwhole]
      show splitPoint (stripSign (ch :: _)) = _
      rw [stripSign.eq_def]
      split
      · next heq =>
          rw [(List.cons.inj heq).1] at hch
          exact absurd hch (by decide)
      · next heq =>
          rw [(List.cons.inj heq).1] at hch
          exact absurd hch (by decide)
      · rfl

/-- Zeros in front do not change a number. -/
lemma ofDigitChars_dropWhile (digits rest : List Char) :
    Nat.ofDigitChars 10 (digits.dropWhile (· = '0') ++ rest) 0 =
      Nat.ofDigitChars 10 (digits ++ rest) 0 := by
  induction digits with
  | nil => rfl
  | cons ch digits ih =>
    rw [List.dropWhile_cons]
    split_ifs with hch
    · obtain rfl := of_decide_eq_true hch
      rw [ih]
      rfl
    · rfl

/-- Digits are worth less than the next power of ten. -/
lemma ofDigitChars_lt {digits : List Char} (h : ∀ ch ∈ digits, ch.isDigit = true) (n : ℕ) :
    Nat.ofDigitChars 10 digits n < (n + 1) * 10 ^ digits.length := by
  induction digits generalizing n with
  | nil => rw [Nat.ofDigitChars_nil, List.length_nil, pow_zero, mul_one]; exact Nat.lt_succ_self n
  | cons ch digits ih =>
    have hch : ch.toNat - '0'.toNat ≤ 9 := by
      have hdigit := h ch List.mem_cons_self
      have hle : ch.toNat ≤ 57 := UInt32.le_iff_toNat_le.mp (Sql.isDigit_bounds hdigit).2
      show ch.toNat - 48 ≤ 9
      omega
    rw [Nat.ofDigitChars_cons, List.length_cons, pow_succ', ← mul_assoc]
    refine (ih (fun c hc => h c (List.mem_cons_of_mem _ hc)) _).trans_le ?_
    exact Nat.mul_le_mul_right _ (by omega)

lemma le_ofDigitChars (digits : List Char) (n : ℕ) :
    n * 10 ^ digits.length ≤ Nat.ofDigitChars 10 digits n := by
  induction digits generalizing n with
  | nil => rw [Nat.ofDigitChars_nil, List.length_nil, pow_zero, mul_one]
  | cons ch digits ih =>
    rw [Nat.ofDigitChars_cons, List.length_cons, pow_succ', ← mul_assoc]
    refine le_trans ?_ (ih _)
    exact Nat.mul_le_mul_right _ (by omega)

/-- Digits without zeros in front have as many digits as their number, and what stands behind
them in `rest` only adds to that. -/
lemma ofDigitChars_lt_pow_iff {rest : List Char} (hwhole : ∀ ch ∈ whole, ch.isDigit = true)
    (hrest : ∀ ch ∈ rest, ch.isDigit = true) {precision : ℕ}
    (hprecision : rest.length ≤ precision) :
    Nat.ofDigitChars 10 (whole.dropWhile (· = '0') ++ rest) 0 < 10 ^ precision ↔
      (whole.dropWhile (· = '0')).length + rest.length ≤ precision := by
  have hdigits : ∀ ch ∈ whole.dropWhile (· = '0') ++ rest, ch.isDigit = true := by
    intro ch hch
    rcases List.mem_append.mp hch with hch | hch
    · exact hwhole ch (List.dropWhile_subset _ hch)
    · exact hrest ch hch
  have hlt := ofDigitChars_lt hdigits 0
  rw [zero_add, one_mul, List.length_append] at hlt
  refine ⟨fun h => ?_, fun h => hlt.trans_le (Nat.pow_le_pow_right (by norm_num) h)⟩
  cases hdrop : whole.dropWhile (· = '0') with
  | nil => rwa [List.length_nil, zero_add]
  | cons ch digits =>
    -- The first digit that is left is not zero.
    have hne : ch ≠ '0' := by
      have hhead := List.head_dropWhile_not (fun ch => decide (ch = '0'))
        (hdrop ▸ List.cons_ne_nil ch digits : whole.dropWhile (· = '0') ≠ [])
      simp only [hdrop, List.head_cons] at hhead
      exact of_decide_eq_false hhead
    have hdigit := hwhole ch (List.dropWhile_subset _ (hdrop ▸ List.mem_cons_self))
    have hone : 1 ≤ 10 * 0 + (ch.toNat - '0'.toNat) := by
      have hge : 48 ≤ ch.toNat := UInt32.le_iff_toNat_le.mp (Sql.isDigit_bounds hdigit).1
      have hnot : ch.toNat ≠ 48 := fun heq => hne (Char.toNat_inj.mp heq)
      show 1 ≤ 10 * 0 + (ch.toNat - 48)
      omega
    rw [hdrop, List.cons_append, Nat.ofDigitChars_cons] at h
    have hle := (Nat.mul_le_mul_right _ hone).trans (le_ofDigitChars (digits ++ rest) _)
    rw [one_mul, List.length_append] at hle
    have hpow := (Nat.pow_lt_pow_iff_right (by norm_num : 1 < 10)).mp (hle.trans_lt h)
    rw [List.length_cons]
    omega

/-- **The frontend on a plain number**: it is accepted exactly if its units of the scale have no
more digits than the precision. -/
lemma decimal128ForNumericText_plain {negative : Bool}
    (h : SlotImport.Plain negative whole fraction text) {precision scale : ℕ}
    (hfraction : fraction.length ≤ scale) (hscale : scale ≤ precision) (units : ℤ) :
    decimal128ForNumericText text precision scale = some units ↔
      SlotImport.digitValue negative whole fraction * 10 ^ scale = units ∧
        |units| < 10 ^ precision := by
  obtain ⟨htrim, hfinite, hsign, hsplit⟩ := plain_parts h
  have hgood : ¬ ((whole = [] ∧ fraction = []) ∨ ¬ whole.all Char.isDigit = true ∨
      ¬ fraction.all Char.isDigit = true ∨ (scale : ℤ) < fraction.length) := by
    rw [List.all_eq_true, List.all_eq_true]
    rintro (hnil | hwhole | hdigits | hlong)
    · exact h.whole_ne hnil.1
    · exact hwhole h.whole_digits
    · exact hdigits h.fraction_digits
    · omega
  -- the fraction, filled up to the scale
  have hrest : ∀ ch ∈ fraction ++ List.replicate (scale - fraction.length) '0',
    ch.isDigit = true := by
    intro ch hch
    rcases List.mem_append.mp hch with hch | hch
    · exact h.fraction_digits ch hch
    · exact Sql.isDigit_of_mem_zeros hch
  have hlength : (fraction ++ List.replicate (scale - fraction.length) '0').length = scale := by
    rw [List.length_append, List.length_replicate]
    omega
  have hlimit := ofDigitChars_lt_pow_iff h.whole_digits hrest (hlength.trans_le hscale)
  have hvalue : SlotImport.digitValue negative whole fraction * 10 ^ scale =
      (if negative then -1 else 1) * (Nat.ofDigitChars 10 (whole.dropWhile (· = '0') ++
        (fraction ++ List.replicate (scale - fraction.length) '0')) 0 : ℚ) := by
    rw [← SlotImport.digitValue_zeros _ _ _ (scale - fraction.length),
      SlotImport.digitValue, hlength,
      ofDigitChars_dropWhile, mul_assoc, div_mul_cancel₀ _ (by positivity)]
  simp only [decimal128ForNumericText, htrim, hfinite, hsign, hsplit, Bool.false_eq_true, if_false,
    if_neg hgood, if_neg (Int.not_lt.mpr (Int.natCast_nonneg scale)), Int.toNat_natCast, hvalue,
    List.append_assoc]
  rw [hlength] at hlimit
  generalize Nat.ofDigitChars 10 (whole.dropWhile (· = '0') ++
    (fraction ++ List.replicate (scale - fraction.length) '0')) 0 = m at hlimit ⊢
  generalize (whole.dropWhile (· = '0')).length = k at hlimit ⊢
  have hunits : (if negative then -1 else 1) * (m : ℚ) = units ↔
      (if negative then -(m : ℤ) else m) = units := by
    cases negative
    · simp only [Bool.false_eq_true, if_false, one_mul]
      exact_mod_cast Iff.rfl
    · simp only [if_true, neg_one_mul]
      exact_mod_cast Iff.rfl
  have habs : |if negative then -(m : ℤ) else m| = m := by
    cases negative <;> simp
  rw [hunits]
  by_cases hlarge : (precision : ℤ) < k + scale
  · rw [if_pos hlarge]
    refine ⟨(fun hnone => by cases hnone), fun hu => absurd (hlimit.mp ?_) (by omega)⟩
    have hlt := hu.2
    rw [← hu.1, habs] at hlt
    exact_mod_cast hlt
  · rw [if_neg hlarge, Option.some.injEq]
    refine ⟨fun heq => ⟨heq, ?_⟩, fun hu => hu.1⟩
    rw [← heq, habs]
    exact_mod_cast hlimit.mpr (by omega)

/-! ### Constants and columns -/

/-- The text that `numeric_out` prints for a number: its sign, digits, and as many digits behind the
point as its display scale says. -/
def NumericOut (n : Numeric.Finite) (text : List Char) : Prop :=
  ∃ whole fraction, SlotImport.Plain n.negative whole fraction text ∧ fraction.length = n.dscale ∧
    SlotImport.digitValue n.negative whole fraction = n.value

/-- **A constant is decoded like a column.** For every shape that a type modifier has and every
number whose display scale is not above the scale of the shape, the text of the number and its
varlena are both accepted, with the same units, or both refused. -/
theorem numeric_constants_and_columns_agree {typmod : Int32} {precision : UInt8} {scale : Int8}
    (hshape : Numeric.numericShapeFromTypmod typmod = some (precision, scale))
    (v : Numeric.NumericVarlena) {n : Numeric.Finite} (hn : v.stored = .finite n) {text : List Char}
    (htext : NumericOut n text) (hdscale : (n.dscale : ℤ) ≤ scale.toInt) (units : ℤ) :
    decimal128ForNumericText text precision.toNat scale.toInt = some units ↔
      Numeric.numericToDecimal128 v.bytes scale precision = .ok units := by
  obtain ⟨hprecision, hnonneg, hle⟩ := Numeric.numericShapeFromTypmod_eq_some hshape
  obtain ⟨whole, fraction, hplain, hlength, hvalue⟩ := htext
  obtain ⟨s, hs⟩ := Int.eq_ofNat_of_zero_le hnonneg
  have hfinite : v.value = some n.value := by rw [Numeric.NumericVarlena.value, hn]
  rw [Numeric.numericToDecimal128_eq_ok v scale hprecision, hfinite, hs,
    decimal128ForNumericText_plain hplain (by omega) (by omega), hvalue, zpow_natCast]
  simp only [Option.some.injEq, exists_eq_left']

/-- `-12.50` as a `numeric(6, 3)`. -/
theorem numeric_constant_sample :
    decimal128ForNumericText "-12.50".toList 6 3 = some (-12500) ∧
      Numeric.numericToDecimal128 SlotImport.sampleVarlena.bytes 3 6 = .ok (-12500) := by
  have htext : decimal128ForNumericText "-12.50".toList 6 3 = some (-12500) := by decide
  have hout :
      NumericOut ⟨.short, true, 2, 0, [12, 5000], by decide, by decide, by decide, by decide⟩
      "-12.50".toList :=
    ⟨['1', '2'], ['5', '0'], ⟨by decide, by decide, by decide, by decide⟩, rfl, by
      rw [SlotImport.digitValue, show Nat.ofDigitChars 10 (['1', '2'] ++ ['5', '0']) 0 =
        1250 by decide]
      norm_num [Numeric.Finite.value]⟩
  have hshape : Numeric.numericShapeFromTypmod (Numeric.numericTypmod 6 3) = some (6, 3) := by
    decide
  exact ⟨htext, (numeric_constants_and_columns_agree hshape SlotImport.sampleVarlena rfl hout
    (by decide) _).mp htext⟩

end PgFusion.Frontend

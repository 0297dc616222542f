import Mathlib.Data.List.DropRight
import Mathlib.Tactic
import PgFusion.Numeric.Decimal
import PgFusion.PgType.Types
import PgFusion.Sql.Values

/-!
Decimals as text for `numeric_in` (`pg/slot_import/src/projector.rs`). The printer works on the
string of digits; a column without a type modifier has its trailing zeros trimmed.

* `formatDecimal128_printed`: what is printed;
* `numeric_text_round_trip`: `numeric_in` reads the value that was decoded.
-/

namespace PgFusion.SlotImport

open Numeric Sql

/-! ### The printer -/

/-- `trim_integer_decimal_fraction`. -/
def trimIntegerDecimalFraction (value : List Char) : List Char :=
  match value.findIdx? (· = '.') with
  | none => value
  | some dot =>
    let trimmed := value.rdropWhile (· = '0')
    if trimmed.length = dot + 1 then trimmed.dropLast else trimmed

/-- Trim the text if asked to. -/
def trimIf (trimTrailingZeros : Bool) (value : List Char) : List Char :=
  if trimTrailingZeros then trimIntegerDecimalFraction value else value

/-- The sign of the text. -/
def sign (negative : Bool) : List Char := if negative then ['-'] else []

/-- `format_decimal128`. -/
def formatDecimal128 (value : ℤ) (scale : Int8) (trimTrailingZeros : Bool) : List Char :=
  let negative : Bool := value < 0
  let digits := Nat.toDigits 10 value.natAbs
  if scale.toInt = 0 then sign negative ++ digits
  else if scale.toInt < 0 then sign negative ++ (digits ++ List.replicate scale.toInt.natAbs '0')
  else
    let scale := scale.toInt.toNat
    if digits.length ≤ scale then
      trimIf trimTrailingZeros
        (sign negative ++ ['0', '.'] ++ List.replicate (scale - digits.length) '0' ++ digits)
    else
      let split := digits.length - scale
      sign negative ++ trimIf trimTrailingZeros (digits.take split ++ '.' :: digits.drop split)

/-- The text that a `numeric` column is filled from: the projector that `projector_for_attr`
chooses, and `numeric_datum`. -/
def numericText (atttypmod : Int32) (scale : Int8) (value : ℤ) : List Char :=
  formatDecimal128 value scale (atttypmod < 0)

/-! ### Plain numbers -/

/-- A sign, at least one digit, and a fraction with its point if there is one. -/
structure Plain (negative : Bool) (whole fraction text : List Char) : Prop where
  text_eq : text = sign negative ++ (whole ++ if fraction = [] then [] else '.' :: fraction)
  whole_ne : whole ≠ []
  whole_digits : ∀ c ∈ whole, c.isDigit = true
  fraction_digits : ∀ c ∈ fraction, c.isDigit = true

/-- The number with these digits before and behind the point. -/
def digitValue (negative : Bool) (whole fraction : List Char) : ℚ :=
  (if negative then -1 else 1) * ((Nat.ofDigitChars 10 (whole ++ fraction) 0 : ℚ) / 10 ^
    fraction.length)

/-- **A plain number is read as what its digits say.** -/
lemma Plain.numericIn_eq {negative : Bool} {whole fraction text : List Char}
    (h : Plain negative whole fraction text) :
    numericIn text = some (digitValue negative whole fraction) := by
  have hunsigned : unsignedIn (whole ++ if fraction = [] then [] else '.' :: fraction) =
      some ((Nat.ofDigitChars 10 (whole ++ fraction) 0 : ℚ) / 10 ^ fraction.length) := by
    by_cases hfraction : fraction = []
    · subst hfraction
      rw [if_pos rfl, List.append_nil, unsignedIn_digits h.whole_ne h.whole_digits, List.length_nil,
        pow_zero, div_one]
    · rw [if_neg hfraction]
      exact unsignedIn_point h.whole_ne h.whole_digits h.fraction_digits
  rw [h.text_eq, digitValue]
  cases negative with
  | true =>
    show (unsignedIn (whole ++ if fraction = [] then [] else '.' :: fraction)).map _ = _
    rw [hunsigned, Option.map_some, if_pos rfl, neg_one_mul]
  | false =>
    rw [if_neg Bool.false_ne_true, one_mul, ← hunsigned]
    -- the first digit is no sign
    obtain ⟨c, cs, hwhole⟩ := List.exists_cons_of_ne_nil h.whole_ne
    have hc : c.isDigit = true := h.whole_digits c (hwhole ▸ List.mem_cons_self)
    have hne : c ≠ '-' := by
      rintro rfl
      exact absurd hc (by decide)
    show numericIn (whole ++ if fraction = [] then [] else '.' :: fraction) = _
    rw [hwhole, List.cons_append, numericIn.eq_def]
    split
    · next heq => exact absurd (List.cons.inj heq).1 hne
    · rfl

/-! ### Trimming -/

/-- Trailing zeros of a fraction do not change the number. -/
lemma digitValue_zeros (negative : Bool) (whole fraction : List Char) (k : ℕ) :
    digitValue negative whole (fraction ++ List.replicate k '0') =
      digitValue negative whole fraction := by
  have hdigits : Nat.ofDigitChars 10 (whole ++ (fraction ++ List.replicate k '0')) 0 =
      Nat.ofDigitChars 10 (whole ++ fraction) 0 * 10 ^ k := by
    have hzeros := ofDigitChars_zeros k [] (Nat.ofDigitChars 10 (whole ++ fraction) 0)
    rw [List.append_nil] at hzeros
    rw [← List.append_assoc, Nat.ofDigitChars_append, hzeros]
    rfl
  rw [digitValue, digitValue, hdigits, List.length_append, List.length_replicate, pow_add,
    Nat.cast_mul, Nat.cast_pow, Nat.cast_ofNat, mul_div_mul_right _ _ (by positivity)]

/-- A list is what is left of it and what was trimmed. -/
lemma exists_rdropWhile (fraction : List Char) :
    ∃ k, fraction = fraction.rdropWhile (· = '0') ++ List.replicate k '0' := by
  induction fraction using List.reverseRecOn with
  | nil => exact ⟨0, rfl⟩
  | append_singleton cs c ih =>
    rw [List.rdropWhile_concat]
    split_ifs with hc
    · obtain ⟨k, hk⟩ := ih
      refine ⟨k + 1, ?_⟩
      rw [of_decide_eq_true hc, List.replicate_succ', ← List.append_assoc, ← hk]
    · exact ⟨0, by rw [List.replicate_zero, List.append_nil]⟩

/-- Trimming goes up to the point. -/
lemma rdropWhile_point (before fraction : List Char) :
    (before ++ '.' :: fraction).rdropWhile (· = '0') = before ++ '.' ::
      fraction.rdropWhile (· = '0') := by
  induction fraction using List.reverseRecOn with
  | nil =>
    rw [List.rdropWhile_nil, List.rdropWhile_concat_neg _ _ _ (by decide)]
  | append_singleton cs c ih =>
    rw [← List.cons_append, ← List.append_assoc, List.rdropWhile_concat, List.rdropWhile_concat, ih]
    split_ifs
    · rfl
    · rw [List.append_assoc, List.cons_append]

/-- **Trimming a text with a point** leaves the digits before it, and those behind it up to
the last that is not zero. -/
lemma trim_plain {before fraction : List Char} (hbefore : '.' ∉ before) :
    trimIntegerDecimalFraction (before ++ '.' :: fraction) =
      before ++ if fraction.rdropWhile (· = '0') = [] then [] else '.' ::
        fraction.rdropWhile (· = '0') := by
  have hdot : (before ++ '.' :: fraction).findIdx? (· = '.') = some before.length := by
    rw [List.findIdx?_append, List.findIdx?_eq_none_iff.mpr, Option.none_or, List.findIdx?_cons,
      if_pos (by decide), Option.map_some, Nat.zero_add]
    intro c hc
    exact decide_eq_false fun heq => hbefore (heq ▸ hc)
  rw [trimIntegerDecimalFraction, hdot]
  dsimp only
  rw [rdropWhile_point, List.length_append, List.length_cons]
  by_cases hnil : fraction.rdropWhile (· = '0') = []
  · rw [if_pos hnil, hnil, List.length_nil, if_pos (by omega), List.dropLast_concat,
      List.append_nil]
  · have hlen := List.length_pos_of_ne_nil hnil
    rw [if_neg hnil, if_neg (by omega)]

/-- Trimming only if asked to. -/
lemma trimIf_point (trim : Bool) {before fraction : List Char} (hbefore : '.' ∉ before)
    (hne : fraction ≠ []) :
    trimIf trim (before ++ '.' :: fraction) = before ++
      (if (if trim then fraction.rdropWhile (· = '0') else fraction) = [] then []
        else '.' :: if trim then fraction.rdropWhile (· = '0') else fraction) := by
  cases trim with
  | true => exact trim_plain hbefore
  | false =>
    rw [trimIf, if_neg Bool.false_ne_true, if_neg Bool.false_ne_true, if_neg hne]

lemma not_point_sign (negative : Bool) : '.' ∉ sign negative := by
  cases negative <;> decide

/-! ### The printer on all scales -/

/-- What the printer makes of a value: the number, the fraction as long as the scale unless it
is trimmed, and trimmed to its last digit that is not zero. -/
structure Printed (value scale : ℤ) (trim : Bool) (whole fraction text : List Char) : Prop where
  plain : Plain (value < 0) whole fraction text
  value_eq : digitValue (value < 0) whole fraction = value / 10 ^ scale
  full : trim = false → fraction.length = scale.toNat
  trimmed : trim = true → 0 < scale → fraction.getLast? ≠ some '0'

/-- The value of digits that are those of a multiple of the value, up to its sign. -/
lemma digitValue_eq {value : ℤ} {whole : List Char} (fraction : List Char) {m : ℕ}
    (h : Nat.ofDigitChars 10 (whole ++ fraction) 0 = value.natAbs * m) :
    digitValue (value < 0) whole fraction = value * m / 10 ^ fraction.length := by
  have hcast : (if decide (value < 0) = true then (-1 : ℚ) else 1) * value.natAbs = value := by
    by_cases hneg : value < 0
    · rw [if_pos (decide_eq_true hneg), Nat.cast_natAbs, abs_of_neg hneg]
      push_cast
      ring
    · rw [if_neg (by simpa using hneg), Nat.cast_natAbs, abs_of_nonneg (not_lt.mp hneg), one_mul]
  rw [digitValue, h, ← mul_div_assoc, Nat.cast_mul, ← mul_assoc, hcast]

/-- The digits before and behind the point, trimmed if asked to. -/
lemma printed_of_point {value : ℤ} {scale : ℕ} (trim : Bool) {whole fraction text : List Char}
    (hne : whole ≠ []) (hwhole : ∀ c ∈ whole, c.isDigit = true)
    (hfraction : ∀ c ∈ fraction, c.isDigit = true) (hlen : fraction.length = scale)
    (hvalue : Nat.ofDigitChars 10 (whole ++ fraction) 0 = value.natAbs)
    (htext : text = sign (value < 0) ++ (whole ++
      (if (if trim then fraction.rdropWhile (· = '0') else fraction) = [] then []
        else '.' :: if trim then fraction.rdropWhile (· = '0') else fraction))) :
    ∃ whole fraction, Printed value scale trim whole fraction text := by
  have habs : digitValue (value < 0) whole fraction = value / 10 ^ (scale : ℤ) := by
    rw [digitValue_eq fraction (hvalue.trans (Nat.mul_one _).symm), hlen, zpow_natCast,
      Nat.cast_one, mul_one]
  cases trim with
  | false =>
    exact ⟨whole, fraction, ⟨htext, hne, hwhole, hfraction⟩, habs,
      fun _ => by rw [hlen, Int.toNat_natCast], fun h => by cases h⟩
  | true =>
    obtain ⟨k, hk⟩ := exists_rdropWhile fraction
    refine ⟨whole, fraction.rdropWhile (· = '0'), ⟨htext, hne, hwhole, fun c hc => ?_⟩, ?_,
      fun h => (by cases h), fun _ _ hlast => ?_⟩
    · exact hfraction c (hk ▸ List.mem_append_left _ hc)
    · rw [← habs]
      conv_rhs => rw [hk]
      rw [digitValue_zeros]
    · have hnil : fraction.rdropWhile (· = '0') ≠ [] := fun hnil => by
        rw [hnil] at hlast
        cases hlast
      have hnot := List.rdropWhile_last_not (· = '0') fraction hnil
      rw [List.getLast?_eq_getLast_of_ne_nil hnil] at hlast
      rw [Option.some.inj hlast] at hnot
      exact hnot (by decide)

/-- **The printer writes the number**, for every value and every scale. -/
lemma formatDecimal128_printed (value : ℤ) (scale : Int8) (trim : Bool) :
    ∃ whole fraction, Printed value scale.toInt trim whole fraction
      (formatDecimal128 value scale trim) := by
  have hall : ∀ c ∈ Nat.toDigits 10 value.natAbs, c.isDigit = true :=
    fun c hc => toDigits_isDigit hc
  have hne : Nat.toDigits 10 value.natAbs ≠ [] := Nat.toDigits_ne_nil
  have hvalue : Nat.ofDigitChars 10 (Nat.toDigits 10 value.natAbs) 0 = value.natAbs :=
    Nat.ofDigitChars_toDigits (by decide) (by decide)
  rw [formatDecimal128]
  dsimp only
  generalize Nat.toDigits 10 value.natAbs = digits at hall hne hvalue ⊢
  by_cases hzero : scale.toInt = 0
  · rw [if_pos hzero, hzero]
    refine ⟨digits, [], ⟨by rw [if_pos rfl, List.append_nil], hne, hall, fun c hc => by cases hc⟩,
      ?_, fun _ => rfl, fun _ h => absurd h (lt_irrefl _)⟩
    rw [digitValue_eq [] (by rw [List.append_nil, hvalue, Nat.mul_one]), List.length_nil, pow_zero,
      zpow_zero, Nat.cast_one, mul_one]
  rw [if_neg hzero]
  by_cases hneg : scale.toInt < 0
  · rw [if_pos hneg]
    have hdigits : Nat.ofDigitChars 10 (digits ++ List.replicate scale.toInt.natAbs '0' ++ []) 0 =
        value.natAbs * 10 ^ scale.toInt.natAbs := by
      have hzeros := ofDigitChars_zeros scale.toInt.natAbs [] value.natAbs
      rw [List.append_nil] at hzeros
      rw [List.append_nil, Nat.ofDigitChars_append, hvalue, hzeros]
      rfl
    have hwhole : ∀ c ∈ digits ++ List.replicate scale.toInt.natAbs '0', c.isDigit = true := by
      intro c hc
      rcases List.mem_append.mp hc with hc | hc
      · exact hall c hc
      · exact isDigit_of_mem_zeros hc
    have hexp : (10 : ℚ) ^ scale.toInt = (10 ^ scale.toInt.natAbs)⁻¹ := by
      rw [← zpow_natCast, ← zpow_neg]
      congr 1
      omega
    refine ⟨digits ++ List.replicate scale.toInt.natAbs '0', [],
      ⟨by rw [if_pos rfl, List.append_nil],
      List.append_ne_nil_of_left_ne_nil hne _, hwhole, fun c hc => by cases hc⟩, ?_, fun _ => ?_,
      fun _ h => absurd h (not_lt.mpr hneg.le)⟩
    · rw [digitValue_eq [] hdigits, List.length_nil, pow_zero, div_one, hexp, div_inv_eq_mul,
        Nat.cast_pow, Nat.cast_ofNat]
    · rw [Int.toNat_of_nonpos hneg.le, List.length_nil]
  rw [if_neg hneg]
  obtain ⟨n, hn⟩ := Int.eq_ofNat_of_zero_le (not_lt.mp hneg)
  have hpos : 0 < n := by omega
  rw [hn, Int.toNat_natCast]
  split_ifs with hshort
  · -- only a fraction, with zeros before the digits
    have hfraction : ∀ c ∈ List.replicate (n - digits.length) '0' ++ digits, c.isDigit = true := by
      intro c hc
      rcases List.mem_append.mp hc with hc | hc
      · exact isDigit_of_mem_zeros hc
      · exact hall c hc
    have hdigits : Nat.ofDigitChars 10 (['0'] ++ (List.replicate (n - digits.length) '0' ++ digits))
      0 =
        value.natAbs := by
      have hhead := ofDigitChars_zeros 1 (List.replicate (n - digits.length) '0' ++ digits) 0
      have htail := ofDigitChars_zeros (n - digits.length) digits 0
      rw [Nat.zero_mul] at hhead htail
      exact (hhead.trans htail).trans hvalue
    refine printed_of_point trim (List.cons_ne_nil '0' []) (by decide) hfraction
      (by rw [List.length_append, List.length_replicate]; omega) hdigits ?_
    have hbefore : '.' ∉ sign (value < 0) ++ ['0'] := by
      intro hmem
      rcases List.mem_append.mp hmem with hmem | hmem
      · exact not_point_sign _ hmem
      · exact absurd hmem (by decide)
    calc trimIf trim (sign (value < 0) ++ ['0', '.'] ++ List.replicate (n - digits.length) '0' ++
      digits)
        = trimIf trim (sign (value < 0) ++ ['0'] ++ '.' ::
          (List.replicate (n - digits.length) '0' ++ digits)) := by
          simp only [List.append_assoc, List.cons_append, List.nil_append]
      _ = sign (value < 0) ++ ['0'] ++ _ :=
          trimIf_point trim hbefore (List.append_ne_nil_of_right_ne_nil _ hne)
      _ = _ := List.append_assoc _ _ _
  · -- digits on both sides
    have hwhole : digits.take (digits.length - n) ≠ [] := by
      rw [Ne, List.take_eq_nil_iff, not_or]
      exact ⟨by omega, hne⟩
    have hrest : digits.drop (digits.length - n) ≠ [] := by
      rw [Ne, List.drop_eq_nil_iff]
      omega
    have hlen : (digits.drop (digits.length - n)).length = n := by
      rw [List.length_drop]
      omega
    refine printed_of_point trim hwhole (fun c hc => hall c (List.mem_of_mem_take hc))
      (fun c hc => hall c (List.mem_of_mem_drop hc)) hlen (by rw [List.take_append_drop, hvalue]) ?_
    rw [trimIf_point trim (fun hmem => absurd (hall _ (List.mem_of_mem_take hmem))
      (by decide)) hrest]

/-! ### Numbers come back from their texts -/

/-- **Numeric values survive the round trip.** A finite number that the decoder accepts at the shape
of its column is read back from the text of the decoded value. The text has the digits of the
column's scale; without a type modifier it ends in no zero behind the point. Every text is a plain
number that denotes its value. -/
theorem numeric_text_round_trip :
    (∀ (typmod : Int32) (precision : UInt8) (scale : Int8) (v : NumericVarlena) (x : ℚ) (value : ℤ),
      numericShapeFromTypmod typmod = some (precision, scale) → v.value = some x →
      numericToDecimal128 v.bytes scale precision = .ok value →
      ∃ negative whole fraction, Plain negative whole fraction (numericText typmod scale value) ∧
        numericIn (numericText typmod scale value) = some x ∧
        (0 ≤ typmod → fraction.length = scale.toInt) ∧
        (typmod < 0 → fraction.getLast? ≠ some '0')) ∧
    ∀ (value : ℤ) (scale : Int8) (trim : Bool), ∃ negative whole fraction,
      Plain negative whole fraction (formatDecimal128 value scale trim) ∧
        numericIn (formatDecimal128 value scale trim) = some ((value : ℚ) / 10 ^ scale.toInt) := by
  refine ⟨fun typmod precision scale v x value hshape hx hdecode => ?_, fun value scale trim => ?_⟩
  · obtain ⟨hprecision, hscale, -⟩ := numericShapeFromTypmod_eq_some hshape
    obtain ⟨x', hx', hunits, -⟩ := (numericToDecimal128_eq_ok v scale hprecision value).mp hdecode
    obtain rfl := Option.some.inj (hx.symm.trans hx')
    obtain ⟨whole, fraction, h⟩ := formatDecimal128_printed value scale (typmod < 0)
    have hback : (value : ℚ) / 10 ^ scale.toInt = x := by
      rw [← hunits, mul_div_cancel_right₀ _ (zpow_ne_zero _ (by norm_num))]
    refine ⟨_, whole, fraction, h.plain, ?_, fun htyped => ?_, fun hbare => ?_⟩
    · rw [numericText, h.plain.numericIn_eq, h.value_eq, hback]
    · rw [h.full (decide_eq_false (Int32.not_lt.mpr htyped)), Int.toNat_of_nonneg hscale]
    · have hfallback : numericShapeFromTypmod typmod = some (numericFallbackPrecision,
        numericFallbackScale) :=
        if_pos hbare
      have hshape' : scale = 16 := (Prod.mk.inj (Option.some.inj (hshape.symm.trans hfallback))).2
      refine h.trimmed (decide_eq_true hbare) ?_
      rw [hshape']
      decide
  · obtain ⟨whole, fraction, h⟩ := formatDecimal128_printed value scale trim
    exact ⟨_, whole, fraction, h.plain, by rw [h.plain.numericIn_eq, h.value_eq]⟩

/-- `-12.50` in the short layout, of a column `numeric(6, 3)`. -/
def sampleVarlena : NumericVarlena where
  header := [0, 0, 0, 0]
  stored := .finite ⟨.short, true, 2, 0, [12, 5000], two_lt_short_dscales, neg_short_weights_le,
    short_weights_pos, by decide⟩
  header_len := rfl
  size_lt := by decide

/-- The sample comes back from `-12.500`, and from `-12.5` where the column is bare. -/
theorem numeric_text_round_trip_sample :
    numericText (numericTypmod 6 3) 3 (-12500) = "-12.500".toList ∧
      numericText (-1) 16 (-125000000000000000) = "-12.5".toList ∧
      numericIn "-12.500".toList = some (-25 / 2) ∧ numericIn "-12.5".toList = some (-25 / 2) := by
  have hvalue : sampleVarlena.value = some (-25 / 2) := by
    rw [NumericVarlena.value, sampleVarlena]
    norm_num [Finite.value]
  obtain ⟨-, -, -, -, htyped, -⟩ := numeric_text_round_trip.1 (numericTypmod 6 3) 6 3 sampleVarlena
    (-25 / 2) (-12500) (by decide) hvalue (by decide +kernel)
  obtain ⟨-, -, -, -, hbare, -⟩ := numeric_text_round_trip.1 (-1) 38 16 sampleVarlena
    (-25 / 2) (-125000000000000000) (by decide) hvalue (by decide +kernel)
  exact ⟨by decide, by decide, htyped, hbare⟩

end PgFusion.SlotImport

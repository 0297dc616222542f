import Mathlib.Data.Rat.Floor
import Mathlib.Tactic
import PgFusion.Data.Fallible
import PgFusion.Data.Rounding

/-!
`round` and `trunc` of numerics (`df_functions`: `pg_numeric_round_trunc.rs`), with their 64-bit and
128-bit steps.
* `roundsExactly_iff`: when `round` and `trunc` are exact or refuse.
-/

namespace PgFusion.Numeric

open Fallible

/-- `NumericRoundTruncOp`. -/
inductive NumericRoundTruncOp where
  | round
  | trunc
deriving DecidableEq

/-- An `i128` step that fails when its result does not fit, with `decimal_overflow`. -/
def checkedRound (x : ℤ) : Except String ℤ :=
  if -2 ^ 127 ≤ x ∧ x < 2 ^ 127 then pure x
  else throw "numeric round/trunc result does not fit Decimal128"

/-- `round_trunc_decimal128`. The subtraction is one of `i64`, which wraps in a release build. -/
def roundTruncDecimal128 (op : NumericRoundTruncOp) (value valueScale decimalPlaces : ℤ) :
    Except String ℤ :=
  let exponent := (valueScale - decimalPlaces).bmod (2 ^ 64)
  if exponent ≤ 0 then pure value
  else if 38 < exponent then pure 0
  else
    let factor := 10 ^ exponent.toNat
    let quotient := value.tdiv factor
    let remainder := value.tmod factor
    match op with
    | .trunc => checkedRound (quotient * factor)
    | .round => do
      let twiceRemainder ← checkedRound (|remainder| * 2)
      let adjusted ← checkedRound (quotient + if factor ≤ twiceRemainder then value.sign else 0)
      checkedRound (adjusted * factor)

/-! ### Exact rounding -/

/-- Half away from zero, or toward zero. -/
def NumericRoundTruncOp.toInt (op : NumericRoundTruncOp) (q : ℚ) : ℤ :=
  match op with
  | .round => roundHalfAway q
  | .trunc => truncate q

/-- A number with `n` digits after the point. -/
def roundPlaces (op : NumericRoundTruncOp) (x : ℚ) (n : ℤ) : ℚ := op.toInt (x * 10 ^ n) / 10 ^ n

lemma NumericRoundTruncOp.toInt_intCast (op : NumericRoundTruncOp) (k : ℤ) : op.toInt k = k := by
  cases op with
  | round => exact roundHalfAway_intCast k
  | trunc => exact truncate_intCast k

/-- Shifting the point by the scale and back by the places. -/
lemma div_pow_mul_pow (v scale n : ℤ) :
    (v : ℚ) / 10 ^ scale * 10 ^ n = (v : ℚ) / 10 ^ (scale - n) := by
  rw [zpow_sub₀ (by norm_num), div_div_eq_mul_div, div_mul_eq_mul_div]

/-- The units of `10 ^ (-scale)` in the rounded number. -/
def roundedUnits (op : NumericRoundTruncOp) (v scale n : ℤ) : ℚ :=
  roundPlaces op ((v : ℚ) / 10 ^ scale) n * 10 ^ scale

/-- They are a multiple of `10 ^ (scale - n)`. -/
lemma roundedUnits_eq (op : NumericRoundTruncOp) (v scale n : ℤ) :
    roundedUnits op v scale n =
      op.toInt ((v : ℚ) / 10 ^ (scale - n)) * 10 ^ (scale - n) := by
  have hpow : (10 : ℚ) ^ (scale - n) = 10 ^ scale / 10 ^ n := zpow_sub₀ (by norm_num) _ _
  rw [roundedUnits, roundPlaces, div_pow_mul_pow v scale n, div_mul_eq_mul_div, mul_div_assoc,
    ← hpow]

lemma cast_pow_toNat {e : ℤ} (he : 0 ≤ e) : ((10 ^ e.toNat : ℤ) : ℚ) = 10 ^ e := by
  rw [Int.cast_pow, Int.cast_ofNat, ← zpow_natCast, Int.toNat_of_nonneg he]

/-! ### The steps -/

lemma checkedRound_of_lt {x : ℤ} (h : |x| < 2 ^ 127) : checkedRound x = .ok x := by
  rw [abs_lt] at h
  exact if_pos ⟨h.1.le, h.2⟩

lemma abs_tmod_le (a d : ℤ) : |a.tmod d| ≤ |a| := by
  rw [Int.abs_eq_natAbs, Int.abs_eq_natAbs, Int.natAbs_tmod]
  exact_mod_cast Nat.mod_le _ _

lemma tmod_of_abs_lt {a d : ℤ} (h : |a| < d) : a.tmod d = a ∧ a.tdiv d = 0 := by
  rw [abs_lt] at h
  rcases le_total 0 a with ha | ha
  · exact ⟨Int.tmod_eq_of_lt ha h.2, Int.tdiv_eq_zero_of_lt ha h.2⟩
  · have hneg : 0 ≤ -a := by omega
    have hmod := Int.tmod_eq_of_lt hneg (by omega : -a < d)
    have hdiv := Int.tdiv_eq_zero_of_lt hneg (by omega : -a < d)
    rw [Int.neg_tmod] at hmod
    rw [Int.neg_tdiv] at hdiv
    omega

lemma abs_tdiv_mul_le (a d : ℤ) : |a.tdiv d * d| ≤ |a| := by
  rw [Int.abs_eq_natAbs, Int.abs_eq_natAbs, Int.natAbs_mul, Int.natAbs_tdiv]
  exact_mod_cast Nat.div_mul_le_self _ _

/-- The rounded quotient is at most half a unit away. -/
lemma two_abs_round_mul_le (v : ℤ) {factor : ℤ} (hpos : 0 < factor) :
    2 * |roundHalfAway ((v : ℚ) / factor) * factor| ≤ 2 * |v| + factor := by
  have hfactor : (0 : ℚ) < factor := Int.cast_pos.mpr hpos
  have hround := mul_le_mul_of_nonneg_right (abs_roundHalfAway_le ((v : ℚ) / factor)) hfactor.le
  rw [abs_div, abs_of_pos hfactor, add_mul, div_mul_cancel₀ _ hfactor.ne'] at hround
  have hcast : ((2 * |roundHalfAway ((v : ℚ) / factor) * factor| : ℤ) : ℚ) ≤
    ((2 * |v| + factor : ℤ) : ℚ) := by
    push_cast
    rw [abs_mul, abs_of_pos hfactor]
    linarith
  exact_mod_cast hcast

/-- The quotient that the source rounds by its remainder. -/
lemma quotient_adjusted (v : ℤ) {factor : ℤ} (hpos : 0 < factor) :
    (v.tdiv factor + if factor ≤ |v.tmod factor| * 2 then v.sign else 0) =
      roundHalfAway ((v : ℚ) / factor) := by
  rw [roundHalfAway_div v hpos]
  split_ifs with hhalf hneg
  · rw [Int.sign_eq_neg_one_of_neg hneg]
  · have hne : v ≠ 0 := by
      rintro rfl
      rw [Int.zero_tmod, abs_zero] at hhalf
      omega
    rw [Int.sign_eq_one_of_pos (by omega)]
  · rw [add_zero]

/-- Rounding fails only where it doubles a remainder that does not fit. -/
lemma round_steps {v e : ℤ} (hv : |v| < 10 ^ 38) (he : e ≤ 38) :
    (do
        let twiceRemainder ← checkedRound (|v.tmod (10 ^ e.toNat)| * 2)
        let adjusted ← checkedRound
          (v.tdiv (10 ^ e.toNat) + if 10 ^ e.toNat ≤ twiceRemainder then v.sign else 0)
        checkedRound (adjusted * 10 ^ e.toNat)) =
      if e = 38 ∧ 2 ^ 126 ≤ |v| then .error "numeric round/trunc result does not fit Decimal128"
      else .ok (roundHalfAway ((v : ℚ) / (10 ^ e.toNat : ℤ)) * 10 ^ e.toNat) := by
  have hpos : (0 : ℤ) < 10 ^ e.toNat := by positivity
  have hnonneg : 0 ≤ |v.tmod (10 ^ e.toNat)| := abs_nonneg _
  have hle := abs_tmod_le v (10 ^ e.toNat)
  split_ifs with hlarge
  · obtain ⟨rfl, hlarge⟩ := hlarge
    have hrem : v.tmod (10 ^ (38 : ℤ).toNat) = v := (tmod_of_abs_lt hv).1
    rw [checkedRound, hrem, if_neg fun hfits => absurd hfits.2 (by omega)]
    rfl
  · -- the doubled remainder is below twice the factor, and below twice the value
    have hrem : |v.tmod (10 ^ e.toNat)| * 2 < 2 ^ 127 := by
      have hlt : |v.tmod (10 ^ e.toNat)| < 10 ^ e.toNat :=
        abs_lt.mpr ⟨Int.lt_tmod_of_pos v hpos, Int.tmod_lt_of_pos v hpos⟩
      rcases he.lt_or_eq with hsmall | rfl
      · have hpow : (10 : ℤ) ^ e.toNat ≤ 10 ^ 37 := pow_le_pow_right₀ (by norm_num) (by omega)
        omega
      · have hsmall := not_and.mp hlarge rfl
        omega
    have hround := two_abs_round_mul_le v hpos
    have hpow : (10 : ℤ) ^ e.toNat ≤ 10 ^ 38 := pow_le_pow_right₀ (by norm_num) (by omega)
    have hadjusted : |roundHalfAway ((v : ℚ) / (10 ^ e.toNat : ℤ))| < 2 ^ 127 := by
      have hle := le_mul_of_one_le_right
        (abs_nonneg (roundHalfAway ((v : ℚ) / (10 ^ e.toNat : ℤ)))) (Int.add_one_le_of_lt hpos)
      rw [← abs_of_pos hpos, ← abs_mul, abs_of_pos hpos] at hle
      omega
    rw [checkedRound_of_lt (by rwa [abs_of_nonneg (by positivity)]), ok_bind,
      quotient_adjusted v hpos, checkedRound_of_lt hadjusted, ok_bind]
    exact checkedRound_of_lt (by omega)

/-- Where all digits are cut, nothing is left. -/
lemma NumericRoundTruncOp.toInt_eq_zero (op : NumericRoundTruncOp) {q : ℚ} (h : |q| < 1 / 2) :
    op.toInt q = 0 := by
  cases op with
  | round => exact roundHalfAway_eq_zero h
  | trunc =>
    rw [abs_lt] at h
    have hfloor : ∀ {q : ℚ}, 0 ≤ q → q < 1 / 2 → ⌊q⌋ = 0 := fun h0 h1 =>
      Int.floor_eq_zero_iff.mpr ⟨h0, by linarith⟩
    rw [NumericRoundTruncOp.toInt, truncate]
    split_ifs with hq
    · exact hfloor hq h.2
    · rw [hfloor (by linarith) (by linarith), neg_zero]

section Rounded

variable (op : NumericRoundTruncOp) {v scale n : ℤ} (hv : |v| < 10 ^ 38)

include hv in
lemma roundedUnits_eq_zero (h : 38 < scale - n) : roundedUnits op v scale n = 0 := by
  have hpow : (10 : ℚ) ^ (39 : ℤ) ≤ 10 ^ (scale - n) :=
    zpow_le_zpow_right₀ (by norm_num) (by omega)
  have hpos : (0 : ℚ) < 10 ^ (scale - n) := zpow_pos (by norm_num) _
  have hcast : |(v : ℚ)| < 10 ^ 38 := by exact_mod_cast hv
  have hhalf : |(v : ℚ) / 10 ^ (scale - n)| < 1 / 2 := by
    rw [abs_div, abs_of_pos hpos, div_lt_iff₀ hpos]
    have h39 : (10 : ℚ) ^ (39 : ℤ) = 10 * 10 ^ 38 := by norm_num
    linarith
  rw [roundedUnits_eq, op.toInt_eq_zero hhalf, Int.cast_zero, zero_mul]

/-- Where no digit is cut, all is left. -/
lemma roundedUnits_eq_self (h : scale - n ≤ 0) : roundedUnits op v scale n = v := by
  have hint : (v : ℚ) / 10 ^ (scale - n) = ((v * 10 ^ (n - scale).toNat : ℤ) : ℚ) := by
    rw [Int.cast_mul, cast_pow_toNat (by omega), ← neg_sub, zpow_neg, div_inv_eq_mul]
  rw [roundedUnits_eq, hint, op.toInt_intCast, ← hint,
    div_mul_cancel₀ _ (zpow_ne_zero _ (by norm_num))]

include hv in
/-- The result where the place count does not overflow the subtraction from the scale: the rounded
number, or an error where the remainder cannot be doubled. -/
lemma roundTruncDecimal128_eq (hscale : 0 ≤ scale) (hn : n < 2 ^ 63) (hfits : scale - n < 2 ^ 63) :
    ∃ r : ℤ, (r : ℚ) = roundedUnits op v scale n ∧ (op = .trunc → |r| < 10 ^ 38) ∧
      roundTruncDecimal128 op v scale n =
        if op = .round ∧ scale - n = 38 ∧ 2 ^ 126 ≤ |v| then
          .error "numeric round/trunc result does not fit Decimal128"
        else .ok r := by
  have hwrap : (scale - n).bmod (2 ^ 64) = scale - n := Int.bmod_eq_of_le (by omega) (by omega)
  rw [roundTruncDecimal128, hwrap]
  dsimp only
  by_cases hle : scale - n ≤ 0
  · refine ⟨v, (roundedUnits_eq_self op hle).symm, fun _ => hv, ?_⟩
    rw [if_pos hle, if_neg (by omega)]
    rfl
  by_cases hlarge : 38 < scale - n
  · refine ⟨0, by rw [roundedUnits_eq_zero op hv hlarge, Int.cast_zero], fun _ => by norm_num, ?_⟩
    rw [if_neg hle, if_pos hlarge, if_neg (by omega)]
    rfl
  have hunits : roundedUnits op v scale n =
      ((op.toInt ((v : ℚ) / (10 ^ (scale - n).toNat : ℤ)) * 10 ^ (scale - n).toNat : ℤ) : ℚ) := by
    rw [roundedUnits_eq, Int.cast_mul, cast_pow_toNat (not_le.mp hle).le]
  rw [if_neg hle, if_neg hlarge, hunits]
  refine ⟨_, rfl, ?_⟩
  cases op with
  | trunc =>
    have hbound := abs_tdiv_mul_le v (10 ^ (scale - n).toNat)
    rw [NumericRoundTruncOp.toInt, truncate_div v (by positivity),
      if_neg fun h => NumericRoundTruncOp.noConfusion h.1]
    exact ⟨fun _ => by omega, checkedRound_of_lt (by omega)⟩
  | round =>
    refine ⟨fun h => NumericRoundTruncOp.noConfusion h, ?_⟩
    simp only [true_and]
    exact round_steps hv (not_lt.mp hlarge)

include hv in
/-- A place count that overflows the subtraction leaves the value as it is. -/
lemma roundTruncDecimal128_wrapped (hscale : scale ≤ 38) (hn : -2 ^ 63 ≤ n)
    (hwrap : 2 ^ 63 ≤ scale - n) :
    roundTruncDecimal128 op v scale n = .ok v ∧ roundedUnits op v scale n = 0 := by
  refine ⟨?_, roundedUnits_eq_zero op hv (by omega)⟩
  have hexponent : (scale - n).bmod (2 ^ 64) ≤ 0 := by
    rw [Int.bmod_def]
    omega
  rw [roundTruncDecimal128]
  dsimp only
  rw [if_pos hexponent]
  rfl

include hv in
/-- A value that is too large to be doubled is rounded up to `10 ^ 38`. -/
lemma abs_roundedUnits_of_large (hexponent : scale - n = 38) (hlarge : 2 ^ 126 ≤ |v|) :
    |roundedUnits .round v scale n| = 10 ^ 38 := by
  obtain ⟨hmod, hdiv⟩ := tmod_of_abs_lt hv
  have hpow : (10 : ℚ) ^ (38 : ℤ) = ((10 ^ 38 : ℤ) : ℚ) := by norm_num
  have hsign : |v.sign| = 1 := by
    have hne : v ≠ 0 := abs_pos.mp (lt_of_lt_of_le (by norm_num) hlarge)
    rw [Int.abs_eq_natAbs, Int.natAbs_sign_of_ne_zero hne]
    rfl
  rw [roundedUnits_eq, NumericRoundTruncOp.toInt, hexponent, hpow,
    ← quotient_adjusted v (by norm_num), hmod, hdiv, if_pos (by omega), zero_add, abs_mul,
    ← Int.cast_abs, hsign]
  norm_num

/-- A result below `10 ^ 38` is returned, and one that is not is an error. -/
def RoundsExactly (op : NumericRoundTruncOp) (v scale n : ℤ) : Prop :=
  (|roundedUnits op v scale n| < 10 ^ 38 →
    ∃ r : ℤ, roundTruncDecimal128 op v scale n = .ok r ∧ (r : ℚ) = roundedUnits op v scale n) ∧
  (10 ^ 38 ≤ |roundedUnits op v scale n| →
    ∃ message, roundTruncDecimal128 op v scale n = .error message)

include hv in
/-- **`round` and `trunc` are exact or refuse** if and only if the place count does not overflow the
subtraction from the scale, and the rounded number is below `10 ^ 38` or has a remainder that cannot
be doubled. -/
theorem roundsExactly_iff (hscale : 0 ≤ scale) (hscale' : scale ≤ 38) (hlow : -2 ^ 63 ≤ n)
    (hn : n < 2 ^ 63) :
    RoundsExactly op v scale n ↔ (scale - n < 2 ^ 63 ∨ v = 0) ∧
      (op = .round →
        |roundedUnits op v scale n| < 10 ^ 38 ∨ scale - n = 38 ∧ 2 ^ 126 ≤ |v|) := by
  by_cases hfits : scale - n < 2 ^ 63
  · rw [and_iff_right (.inl hfits)]
    obtain ⟨r, hr, htrunc, hresult⟩ := roundTruncDecimal128_eq op hv hscale hn hfits
    by_cases hrefused : op = .round ∧ scale - n = 38 ∧ 2 ^ 126 ≤ |v|
    · rw [if_pos hrefused] at hresult
      obtain ⟨rfl, hexponent, hlarge⟩ := hrefused
      have hover := (abs_roundedUnits_of_large hv hexponent hlarge).ge
      exact iff_of_true ⟨fun hlt => absurd hlt (not_lt.mpr hover), fun _ => ⟨_, hresult⟩⟩
        fun _ => .inr ⟨hexponent, hlarge⟩
    · rw [if_neg hrefused] at hresult
      have hsmall : RoundsExactly op v scale n ↔ |roundedUnits op v scale n| < 10 ^ 38 := by
        refine ⟨fun h => not_le.mp fun hover => ?_, fun hlt => ⟨fun _ => ⟨r, hresult, hr⟩,
          fun hover => absurd hlt (not_lt.mpr hover)⟩⟩
        obtain ⟨message, hmessage⟩ := h.2 hover
        rw [hresult] at hmessage
        cases hmessage
      rw [hsmall]
      cases op with
      | trunc =>
        refine iff_of_true ?_ fun h => by cases h
        rw [← hr]
        exact_mod_cast htrunc rfl
      | round =>
        exact ⟨fun hlt _ => .inl hlt, fun h => (h rfl).resolve_right fun hlarge =>
          hrefused ⟨rfl, hlarge⟩⟩
  · obtain ⟨hresult, hzero⟩ := roundTruncDecimal128_wrapped op hv hscale' hlow (not_lt.mp hfits)
    rw [RoundsExactly, hresult, hzero, abs_zero]
    constructor
    · rintro ⟨h, -⟩
      obtain ⟨r, hr, hr0⟩ := h (by norm_num)
      obtain rfl := Except.ok.inj hr
      exact ⟨.inr (by exact_mod_cast hr0), fun _ => .inl (by norm_num)⟩
    · rintro ⟨hv0, -⟩
      obtain rfl := hv0.resolve_left hfits
      exact ⟨fun _ => ⟨0, rfl, Int.cast_zero⟩, fun h => absurd h (by norm_num)⟩

end Rounded

end PgFusion.Numeric

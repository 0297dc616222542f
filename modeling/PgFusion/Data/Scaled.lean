import Mathlib.Tactic
import PgFusion.Data.Rounding

/-!
Decimal numbers kept as integers: a number of units of the place `10 ^ (-s)`, where `s` is the
scale.
-/

namespace PgFusion.Scaled

/-- The number that `m` units of the place `10 ^ (-s)` stand for. -/
def value (s m : ℤ) : ℚ := m / 10 ^ s

/-- The units at the scale `s'`, rounded half away from zero. -/
def rescale (s s' m : ℤ) : ℤ := roundHalfAway (m * 10 ^ (s' - s))

/-- A number with at most `d` digits behind the point. -/
def HasDigits (d : ℤ) (q : ℚ) : Prop := ∃ m, q = value d m

lemma tenPow_pos (s : ℤ) : (0 : ℚ) < 10 ^ s := zpow_pos (by norm_num) s

lemma value_strictMono (s : ℤ) : StrictMono (value s) := by
  intro a b hab
  rw [value, value, div_lt_div_iff_of_pos_right (tenPow_pos s)]
  exact Int.cast_lt.mpr hab

lemma value_mul_pow (s m : ℤ) : value s m * 10 ^ s = m := by
  rw [value, div_mul_cancel₀ _ (tenPow_pos s).ne']

/-! ### Digits behind the point -/

lemma hasDigits_value (s m : ℤ) : HasDigits s (value s m) := ⟨m, rfl⟩

/-- The units at a scale that is not smaller. -/
lemma value_eq_value_of_le {s s' : ℤ} (h : s ≤ s') (m : ℤ) :
    value s m = value s' (m * 10 ^ (s' - s).toNat) := by
  have hexp : ((10 : ℚ) ^ (s' - s).toNat) = 10 ^ (s' - s) := by
    rw [← zpow_natCast, Int.toNat_of_nonneg (sub_nonneg.mpr h)]
  have hs := (tenPow_pos s).ne'
  have hs' := (tenPow_pos s').ne'
  rw [value, value, Int.cast_mul, Int.cast_pow, Int.cast_ofNat, hexp, zpow_sub₀ (by norm_num)]
  field_simp

lemma HasDigits.mono {d d' : ℤ} (h : d ≤ d') {q : ℚ} (hq : HasDigits d q) : HasDigits d' q := by
  obtain ⟨m, rfl⟩ := hq
  exact ⟨_, value_eq_value_of_le h m⟩

/-! ### Changing the scale -/

/-- **Rescaling keeps a number that has no more digits than the new scale.** -/
lemma value_rescale {s s' m : ℤ} (h : HasDigits s' (value s m)) :
    value s' (rescale s s' m) = value s m := by
  obtain ⟨n, hn⟩ := h
  have hunits : (m : ℚ) * 10 ^ (s' - s) = n := by
    have := congrArg (· * (10 : ℚ) ^ s') hn
    simp only [value_mul_pow] at this
    rw [← this, value, zpow_sub₀ (by norm_num)]
    ring
  rw [rescale, hunits, roundHalfAway_intCast, hn]

lemma rescale_zero (s s' : ℤ) : rescale s s' 0 = 0 := by
  rw [rescale, Int.cast_zero, zero_mul]
  exact roundHalfAway_eq_zero (by norm_num)

/-- One unit is rounded to zero at every smaller scale. -/
lemma rescale_one_of_lt {s s' : ℤ} (h : s' < s) : rescale s s' 1 = 0 := by
  have hle : (10 : ℚ) ^ (s' - s) ≤ 10 ^ (-1 : ℤ) := zpow_le_zpow_right₀ (by norm_num) (by omega)
  rw [rescale, Int.cast_one, one_mul]
  apply roundHalfAway_eq_zero
  rw [abs_of_pos (tenPow_pos _)]
  exact hle.trans_lt (by norm_num)

end PgFusion.Scaled

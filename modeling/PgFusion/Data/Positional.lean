import Mathlib.Tactic

/-!
Numbers written in digits. The exponents are integers, so that digits may stand below the point.
-/

namespace PgFusion.Positional

/-- The digits `ds` at the powers `b ^ e`, `b ^ (e - k)`, … of the base. -/
def placeSum (b k : ℕ) : List ℕ → ℤ → ℚ
  | [], _ => 0
  | d :: ds, e => d * (b : ℚ) ^ e + placeSum b k ds (e - k)

variable {b k : ℕ}

lemma placeSum_nonneg (ds : List ℕ) (e : ℤ) : 0 ≤ placeSum b k ds e := by
  induction ds generalizing e with
  | nil => exact le_refl 0
  | cons d ds ih =>
    have := ih (e - k)
    rw [placeSum]
    positivity

/-- The digits are less than one unit of the place before them. -/
lemma placeSum_lt (hb : 0 < b) {ds : List ℕ} (hds : ∀ d ∈ ds, d < b ^ k) (e : ℤ) :
    placeSum b k ds e < (b : ℚ) ^ (e + k) := by
  have hb' : (b : ℚ) ≠ 0 := by positivity
  induction ds generalizing e with
  | nil =>
    rw [placeSum]
    positivity
  | cons d ds ih =>
    obtain ⟨hd, hds⟩ := List.forall_mem_cons.mp hds
    have hrest := ih hds (e - k)
    rw [sub_add_cancel] at hrest
    have hdigit : ((d : ℚ) + 1) ≤ (b : ℚ) ^ k := by exact_mod_cast hd
    calc placeSum b k (d :: ds) e = d * (b : ℚ) ^ e + placeSum b k ds (e - k) := rfl
      _ < d * (b : ℚ) ^ e + (b : ℚ) ^ e := by gcongr
      _ = ((d : ℚ) + 1) * (b : ℚ) ^ e := by ring
      _ ≤ (b : ℚ) ^ k * (b : ℚ) ^ e := by gcongr
      _ = (b : ℚ) ^ (e + k) := by rw [zpow_add₀ hb', zpow_natCast, mul_comm]

/-- The digits of a number times a power of the base. -/
lemma placeSum_mul (hb : 0 < b) (ds : List ℕ) (e s : ℤ) :
    placeSum b k ds e * (b : ℚ) ^ s = placeSum b k ds (e + s) := by
  have hb' : (b : ℚ) ≠ 0 := by positivity
  induction ds generalizing e with
  | nil => rw [placeSum, placeSum, zero_mul]
  | cons d ds ih =>
    rw [placeSum, placeSum, add_mul, ih, mul_assoc, ← zpow_add₀ hb',
      show e - (k : ℤ) + s = e + s - k by ring]

/-- **An integer has no digits below the point.** If the digits add up to an integer, the first
one is an integer at its place, and so are the others together. -/
lemma isInt_of_placeSum (hb : 0 < b) {d : ℕ} {ds : List ℕ} (hds : ∀ d ∈ ds, d < b ^ k) {e z : ℤ}
    (h : placeSum b k (d :: ds) e = z) :
    ∃ c r : ℤ, d * (b : ℚ) ^ e = c ∧ placeSum b k ds (e - k) = r ∧ z = c + r := by
  have hb' : (b : ℚ) ≠ 0 := by positivity
  rw [placeSum] at h
  by_cases he : 0 ≤ e
  · -- above the point
    obtain ⟨n, rfl⟩ := Int.eq_ofNat_of_zero_le he
    refine ⟨d * b ^ n, z - d * b ^ n, by push_cast; rfl, ?_, by ring⟩
    push_cast
    rw [zpow_natCast] at h
    linarith
  · -- below the point, in units of the first digit's place
    obtain ⟨n, hn⟩ := Int.eq_ofNat_of_zero_le (show 0 ≤ -e by omega)
    have hunit : (b : ℚ) ^ e * (b : ℚ) ^ n = 1 := by
      rw [← zpow_natCast, ← zpow_add₀ hb', show e + (n : ℤ) = 0 by omega, zpow_zero]
    have hlt := placeSum_lt hb hds (e - k)
    rw [sub_add_cancel] at hlt
    have hpos : (0 : ℚ) < (b : ℚ) ^ n := by positivity
    have hunits : placeSum b k ds (e - k) * (b : ℚ) ^ n = ((z * b ^ n - d : ℤ) : ℚ) := by
      push_cast
      rw [← h]
      linear_combination -(d : ℚ) * hunit
    have hnonneg : (0 : ℚ) ≤ ((z * b ^ n - d : ℤ) : ℚ) := by
      rw [← hunits]
      exact mul_nonneg (placeSum_nonneg ds _) hpos.le
    have hsmall : ((z * b ^ n - d : ℤ) : ℚ) < 1 := by
      rw [← hunits, ← hunit]
      gcongr
    have hzero : z * b ^ n - d = 0 := by
      have h0 : (0 : ℤ) ≤ z * b ^ n - d := by exact_mod_cast hnonneg
      have h1 : z * b ^ n - d < 1 := by exact_mod_cast hsmall
      omega
    have hrest : placeSum b k ds (e - k) = 0 := by
      rw [hzero, Int.cast_zero] at hunits
      exact (mul_eq_zero.mp hunits).resolve_right hpos.ne'
    rw [hrest, add_zero] at h
    exact ⟨z, 0, h, by rw [hrest, Int.cast_zero], (add_zero z).symm⟩

end PgFusion.Positional

import Mathlib.Data.Rat.Floor
import Mathlib.Tactic.Linarith
import Mathlib.Tactic.Ring

/-!
Rounding to integers, ties away from zero, and truncation.
* `roundHalfAway_div`, `truncate_div`: the roundings of a quotient by integer division.
-/

namespace PgFusion

/-- The nearest integer, ties away from zero. -/
def roundHalfAway (q : ℚ) : ℤ := if 0 ≤ q then ⌊q + 1 / 2⌋ else -⌊-q + 1 / 2⌋

/-- A quotient of integers, rounded up from a half on. -/
lemma floor_div_add_half (a : ℤ) {d : ℤ} (hd : 0 < d) :
    ⌊(a : ℚ) / d + 1 / 2⌋ = if d ≤ 2 * (a % d) then a / d + 1 else a / d := by
  have hd' : (0 : ℚ) < d := Int.cast_pos.mpr hd
  have hsplit : d * (a / d) + a % d = a := Int.mul_ediv_add_emod a d
  have hquot : (a : ℚ) / d = (a / d : ℤ) + ((a % d : ℤ) : ℚ) / d := by
    rw [div_eq_iff hd'.ne', add_mul, div_mul_cancel₀ _ hd'.ne']
    have hcast : ((d * (a / d) + a % d : ℤ) : ℚ) = a := congrArg _ hsplit
    push_cast at hcast
    linarith
  have hrem : 0 ≤ a % d ∧ a % d < d := ⟨Int.emod_nonneg a hd.ne', Int.emod_lt_of_pos a hd⟩
  have hlow : (0 : ℚ) ≤ ((a % d : ℤ) : ℚ) / d := div_nonneg (Int.cast_nonneg hrem.1) hd'.le
  have hhigh : ((a % d : ℤ) : ℚ) / d < 1 := (div_lt_one hd').mpr (Int.cast_lt.mpr hrem.2)
  rw [Int.floor_eq_iff, hquot]
  split_ifs with hhalf
  · have hge : (1 : ℚ) / 2 ≤ ((a % d : ℤ) : ℚ) / d := by
      have hcast : (d : ℚ) ≤ ((2 * (a % d) : ℤ) : ℚ) := Int.cast_le.mpr hhalf
      push_cast at hcast
      rw [div_le_div_iff₀ two_pos hd']
      linarith
    push_cast
    constructor <;> linarith
  · have hlt : ((a % d : ℤ) : ℚ) / d < 1 / 2 := by
      have hcast : ((2 * (a % d) : ℤ) : ℚ) < d := Int.cast_lt.mpr (not_le.mp hhalf)
      push_cast at hcast
      rw [div_lt_div_iff₀ hd' two_pos]
      linarith
    constructor <;> linarith

/-- A quotient is rounded by its truncation and the size of the remainder. -/
lemma roundHalfAway_div (a : ℤ) {d : ℤ} (hd : 0 < d) :
    roundHalfAway ((a : ℚ) / d) =
      if d ≤ |a.tmod d| * 2 then a.tdiv d + (if a < 0 then -1 else 1) else a.tdiv d := by
  have hd' : (0 : ℚ) < d := Int.cast_pos.mpr hd
  rw [roundHalfAway]
  by_cases ha : 0 ≤ a
  · have hnonneg : (0 : ℚ) ≤ (a : ℚ) / d := div_nonneg (Int.cast_nonneg ha) hd'.le
    rw [if_pos hnonneg, floor_div_add_half a hd, Int.tdiv_eq_ediv_of_nonneg ha,
      Int.tmod_eq_emod_of_nonneg ha,
      if_neg (not_lt.mpr ha), abs_of_nonneg (Int.emod_nonneg a hd.ne'), mul_comm 2]
  · -- the same with the sign turned
    have hneg : a < 0 := not_le.mp ha
    have hlt : ¬(0 : ℚ) ≤ (a : ℚ) / d :=
      not_le.mpr (div_neg_of_neg_of_pos (Int.cast_lt_zero.mpr hneg) hd')
    have hturn : -((a : ℚ) / d) = ((-a : ℤ) : ℚ) / d := by rw [Int.cast_neg, neg_div]
    have hquot : a.tdiv d = -(-a / d) := by
      rw [← Int.tdiv_eq_ediv_of_nonneg (by omega), Int.neg_tdiv, neg_neg]
    have hrem : |a.tmod d| = -a % d := by
      rw [← abs_neg, ← Int.neg_tmod, Int.tmod_eq_emod_of_nonneg (by omega),
        abs_of_nonneg (Int.emod_nonneg _ hd.ne')]
    rw [if_neg hlt, hturn, floor_div_add_half (-a) hd, hquot, hrem, if_pos hneg, mul_comm 2]
    split_ifs
    · ring
    · rfl

lemma roundHalfAway_intCast (k : ℤ) : roundHalfAway k = k := by
  have hdiv := roundHalfAway_div k one_pos
  rw [Int.cast_one, div_one, Int.tmod_one, Int.tdiv_one] at hdiv
  rw [hdiv, if_neg (by norm_num)]

lemma abs_roundHalfAway_le (q : ℚ) : |(roundHalfAway q : ℚ)| ≤ |q| + 1 / 2 := by
  have hfloor : ∀ x : ℚ, 0 ≤ x → |(⌊x + 1 / 2⌋ : ℚ)| ≤ x + 1 / 2 := fun x hx => by
    have hnonneg : 0 ≤ ⌊x + 1 / 2⌋ := Int.floor_nonneg.mpr (by linarith)
    rw [abs_of_nonneg (Int.cast_nonneg hnonneg)]
    exact Int.floor_le _
  rw [roundHalfAway]
  split_ifs with hq
  · rw [abs_of_nonneg hq]
    exact hfloor q hq
  · rw [abs_of_neg (not_le.mp hq), Int.cast_neg, abs_neg]
    exact hfloor (-q) (by linarith)

/-- A number nearer to zero than a half is rounded to zero. -/
lemma roundHalfAway_eq_zero {q : ℚ} (h : |q| < 1 / 2) : roundHalfAway q = 0 := by
  have hle := abs_roundHalfAway_le q
  have hlt : |(roundHalfAway q : ℚ)| < 1 := by linarith
  rw [← Int.cast_abs, ← Int.cast_one, Int.cast_lt] at hlt
  exact Int.abs_lt_one_iff.mp hlt

/-- The integer part, toward zero. -/
def truncate (q : ℚ) : ℤ := if 0 ≤ q then ⌊q⌋ else -⌊-q⌋

lemma floor_div (a : ℤ) {d : ℤ} (hd : 0 < d) : ⌊(a : ℚ) / d⌋ = a / d := by
  have hd' : (0 : ℚ) < d := Int.cast_pos.mpr hd
  have hlow : ((a / d * d : ℤ) : ℚ) ≤ a := Int.cast_le.mpr (Int.ediv_mul_le a hd.ne')
  have hhigh : (a : ℚ) < (((a / d + 1) * d : ℤ) : ℚ) :=
    Int.cast_lt.mpr (Int.lt_ediv_add_one_mul_self a hd)
  push_cast at hlow hhigh
  rw [Int.floor_eq_iff, le_div_iff₀ hd', div_lt_iff₀ hd']
  exact ⟨hlow, hhigh⟩

lemma truncate_div (a : ℤ) {d : ℤ} (hd : 0 < d) : truncate ((a : ℚ) / d) = a.tdiv d := by
  have hd' : (0 : ℚ) < d := Int.cast_pos.mpr hd
  rw [truncate]
  by_cases ha : 0 ≤ a
  · rw [if_pos (div_nonneg (Int.cast_nonneg ha) hd'.le), floor_div a hd,
      Int.tdiv_eq_ediv_of_nonneg ha]
  · have hlt : ¬(0 : ℚ) ≤ (a : ℚ) / d :=
      not_le.mpr (div_neg_of_neg_of_pos (Int.cast_lt_zero.mpr (not_le.mp ha)) hd')
    have hturn : -((a : ℚ) / d) = ((-a : ℤ) : ℚ) / d := by rw [Int.cast_neg, neg_div]
    rw [if_neg hlt, hturn, floor_div (-a) hd, ← Int.tdiv_eq_ediv_of_nonneg (by omega),
      Int.neg_tdiv, neg_neg]

lemma truncate_intCast (k : ℤ) : truncate k = k := by
  have hdiv := truncate_div k one_pos
  rwa [Int.cast_one, div_one, Int.tdiv_one] at hdiv

end PgFusion

import Mathlib.Data.Nat.Bitwise
import Mathlib.Tactic
import Mathlib.Order.CompletePartialOrder

/-!
Sets of small numbers as the bits of a natural number, and their submasks.
* `and_pred_lt`, `le_and_pred`: the submasks of a mask, in falling order.
-/

namespace PgFusion.Masks

/-- The members of a mask. -/
def bitSet (m : ℕ) : Set ℕ := {i | m.testBit i = true}

@[simp] lemma mem_bitSet {m i : ℕ} : i ∈ bitSet m ↔ m.testBit i = true := Iff.rfl

variable {m n x s y w : ℕ}

lemma bitSet_injective (h : bitSet m = bitSet n) : m = n := by
  refine Nat.eq_of_testBit_eq fun i => ?_
  rw [Bool.eq_iff_iff]
  exact Set.ext_iff.mp h i

lemma bitSet_zero : bitSet 0 = ∅ := by
  ext i
  simp

lemma bitSet_nonempty (h : m ≠ 0) : (bitSet m).Nonempty := by
  by_contra hempty
  rw [Set.not_nonempty_iff_eq_empty, ← bitSet_zero] at hempty
  exact h (bitSet_injective hempty)

lemma bitSet_or (m n : ℕ) : bitSet (m ||| n) = bitSet m ∪ bitSet n := by
  ext i
  simp

lemma bitSet_and (m n : ℕ) : bitSet (m &&& n) = bitSet m ∩ bitSet n := by
  ext i
  simp

lemma bitSet_two_pow (i : ℕ) : bitSet (2 ^ i) = {i} := by
  ext j
  simp [Nat.testBit_two_pow, eq_comm]

/-- Taking a submask away. -/
lemma bitSet_xor (h : bitSet n ⊆ bitSet m) : bitSet (m ^^^ n) = bitSet m \ bitSet n := by
  ext i
  have hi := @h i
  simp only [mem_bitSet, Nat.testBit_xor, Set.mem_sdiff] at hi ⊢
  cases hm : m.testBit i <;> cases hn : n.testBit i <;> simp_all

lemma lt_two_pow_of_mem {i : ℕ} (h : i ∈ bitSet m) : 2 ^ i ≤ m := Nat.ge_two_pow_of_testBit h

lemma finite_bitSet (m : ℕ) : (bitSet m).Finite := by
  refine (Set.finite_lt_nat m).subset fun i hi => ?_
  exact lt_of_lt_of_le Nat.lt_two_pow_self (lt_two_pow_of_mem hi)

/-- A submask is a smaller number. -/
lemma le_of_subset (h : bitSet m ⊆ bitSet n) : m ≤ n := by
  have : m = m &&& n := bitSet_injective (by rw [bitSet_and, Set.inter_eq_left.mpr h])
  rw [this]
  exact Nat.and_le_right

lemma subset_iff_and : bitSet m ⊆ bitSet n ↔ m &&& n = m := by
  constructor
  · intro h
    exact bitSet_injective (by rw [bitSet_and, Set.inter_eq_left.mpr h])
  · intro h
    rw [← h, bitSet_and]
    exact Set.inter_subset_right

lemma disjoint_iff_and : Disjoint (bitSet m) (bitSet n) ↔ m &&& n = 0 := by
  rw [Set.disjoint_iff_inter_eq_empty, ← bitSet_and, ← bitSet_zero]
  exact ⟨bitSet_injective, congrArg bitSet⟩

/-! ### Submasks -/

/-- The next smaller submask of `s` is smaller. -/
lemma and_pred_lt (hx : x ≠ 0) : (x - 1) &&& s < x :=
  lt_of_le_of_lt Nat.and_le_left (Nat.sub_lt (Nat.pos_of_ne_zero hx) Nat.one_pos)

/-- No submask of `s` is between. -/
lemma le_and_pred (hx : x &&& s = x) (hy : y &&& s = y) (hlt : y < x) :
    y ≤ (x - 1) &&& s := by
  induction s using Nat.strong_induction_on generalizing x y with
  | _ s ih =>
    rcases Nat.eq_zero_or_pos s with rfl | hs
    · rw [Nat.and_zero] at hx
      omega
    · have hhalf : s / 2 < s := Nat.div_lt_self hs Nat.one_lt_two
      have hx2 : x / 2 &&& s / 2 = x / 2 := by rw [← Nat.and_div_two, hx]
      have hy2 : y / 2 &&& s / 2 = y / 2 := by rw [← Nat.and_div_two, hy]
      have hys : y % 2 = 1 → s % 2 = 1 := by
        intro h
        rw [← hy, Nat.and_mod_two_eq_one] at h
        exact h.2
      have hq : ((x - 1) &&& s) / 2 = (x - 1) / 2 &&& s / 2 := Nat.and_div_two
      rcases Nat.mod_two_eq_zero_or_one x with heven | hodd
      · have hpred : (x - 1) / 2 = x / 2 - 1 := by omega
        have hle := ih (s / 2) hhalf hx2 hy2 (by omega)
        rw [← hpred, ← hq] at hle
        have hbit : y % 2 = 1 → ((x - 1) &&& s) % 2 = 1 := by
          intro h
          rw [Nat.and_mod_two_eq_one]
          exact ⟨by omega, hys h⟩
        omega
      · have hpred : (x - 1) / 2 = x / 2 := by omega
        rw [hpred, hx2] at hq
        omega

/-- The submasks of `s` from `x` on downwards, without the empty one. -/
def subMasks (s : ℕ) : ℕ → ℕ → List ℕ
  | 0, _ => []
  | fuel + 1, x => if x = 0 then [] else x :: subMasks s fuel ((x - 1) &&& s)

/-- With enough steps, they are all the submasks up to `x`. -/
lemma mem_subMasks {fuel : ℕ} (hx : bitSet x ⊆ bitSet s) (hfuel : x ≤ fuel) :
    y ∈ subMasks s fuel x ↔ y ≠ 0 ∧ y ≤ x ∧ bitSet y ⊆ bitSet s := by
  induction fuel generalizing x with
  | zero =>
    simp only [subMasks, List.not_mem_nil, false_iff]
    omega
  | succ fuel ih =>
    rw [subMasks]
    split_ifs with hzero
    · simp only [List.not_mem_nil, false_iff]
      omega
    · have hlt : (x - 1) &&& s < x := and_pred_lt hzero
      have hsub : bitSet ((x - 1) &&& s) ⊆ bitSet s := by
        rw [bitSet_and]
        exact Set.inter_subset_right
      rw [List.mem_cons, ih hsub (by omega)]
      constructor
      · rintro (rfl | ⟨hy, hle, hs⟩)
        · exact ⟨hzero, le_rfl, hx⟩
        · exact ⟨hy, by omega, hs⟩
      · rintro ⟨hy, hle, hs⟩
        rcases hle.lt_or_eq with hlt' | rfl
        · exact Or.inr ⟨hy, le_and_pred (subset_iff_and.mp hx) (subset_iff_and.mp hs) hlt', hs⟩
        · exact Or.inl rfl

lemma le_of_mem_subMasks {fuel : ℕ} (h : y ∈ subMasks s fuel x) : y ≤ x := by
  induction fuel generalizing x with
  | zero => exact absurd h List.not_mem_nil
  | succ fuel ih =>
    rw [subMasks] at h
    split_ifs at h with hzero
    · exact absurd h List.not_mem_nil
    · rcases List.mem_cons.mp h with rfl | hmem
      · exact le_rfl
      · exact (ih hmem).trans (and_pred_lt hzero).le

/-- No submask comes twice. -/
lemma nodup_subMasks (s fuel x : ℕ) : (subMasks s fuel x).Nodup := by
  induction fuel generalizing x with
  | zero => exact List.nodup_nil
  | succ fuel ih =>
    rw [subMasks]
    split_ifs with hzero
    · exact List.nodup_nil
    · refine List.nodup_cons.mpr ⟨fun hmem => ?_, ih _⟩
      exact absurd (le_of_mem_subMasks hmem) (not_le.mpr (and_pred_lt hzero))

/-- Clearing the lowest bit gives the largest proper submask. -/
lemma mem_subMasks_pred (hs : s ≠ 0) :
    y ∈ subMasks s s ((s - 1) &&& s) ↔ y ≠ 0 ∧ y ≠ s ∧ bitSet y ⊆ bitSet s := by
  have hlt := and_pred_lt (s := s) hs
  have hsub : bitSet ((s - 1) &&& s) ⊆ bitSet s := by
    rw [bitSet_and]
    exact Set.inter_subset_right
  rw [mem_subMasks hsub hlt.le]
  constructor
  · rintro ⟨hy, hle, hys⟩
    exact ⟨hy, by omega, hys⟩
  · rintro ⟨hy, hne, hys⟩
    have hlt' : y < s := lt_of_le_of_ne (le_of_subset hys) hne
    exact ⟨hy, le_and_pred (Nat.and_self s) (subset_iff_and.mp hys) hlt', hys⟩

/-! ### The lowest bit -/

/-- `s & -s`, for numbers of `w` bits. -/
lemma exists_and_neg (hs : s ≠ 0) (hlt : s < 2 ^ w) :
    ∃ i ∈ bitSet s, s &&& (2 ^ w - s) = 2 ^ i := by
  induction w generalizing s with
  | zero => omega
  | succ w ih =>
    have hpow : 2 ^ (w + 1) = 2 * 2 ^ w := by rw [Nat.pow_succ, Nat.mul_comm]
    rcases Nat.mod_two_eq_zero_or_one s with heven | hodd
    · obtain ⟨i, hi, heq⟩ := ih (s := s / 2) (by omega) (by omega)
      refine ⟨i + 1, ?_, ?_⟩
      · rw [mem_bitSet, Nat.testBit_succ]
        exact hi
      · have hdiv : (s &&& (2 ^ (w + 1) - s)) / 2 = 2 ^ i := by
          rw [Nat.and_div_two, ← heq]
          congr 1
          omega
        have hmod : (s &&& (2 ^ (w + 1) - s)) % 2 ≠ 1 := by
          rw [ne_eq, Nat.and_mod_two_eq_one]
          omega
        have : 2 ^ (i + 1) = 2 * 2 ^ i := by rw [Nat.pow_succ, Nat.mul_comm]
        omega
    · refine ⟨0, ?_, ?_⟩
      · rw [mem_bitSet, Nat.testBit_zero]
        exact decide_eq_true hodd
      · have hdiv : (s &&& (2 ^ (w + 1) - s)) / 2 = 0 := by
          have hsub : (2 ^ (w + 1) - s) / 2 = 2 ^ w - (s / 2 + 1) := by omega
          rw [Nat.and_div_two, hsub]
          refine Nat.eq_of_testBit_eq fun i => ?_
          rw [Nat.testBit_and, Nat.testBit_two_pow_sub_succ (by omega), Nat.zero_testBit]
          cases (s / 2).testBit i <;> simp
        have hmod : (s &&& (2 ^ (w + 1) - s)) % 2 = 1 := by
          rw [Nat.and_mod_two_eq_one]
          omega
        omega

/-! ### The number of members -/

/-- The members of a mask of `w` bits. -/
def ones (w m : ℕ) : ℕ := (List.range w).countP m.testBit

lemma ones_eq_card (h : m < 2 ^ w) : ones w m = (finite_bitSet m).toFinset.card := by
  have hset : (finite_bitSet m).toFinset = (List.range w).toFinset.filter fun i =>
    m.testBit i = true := by
    ext i
    simp only [Set.Finite.mem_toFinset, mem_bitSet, Finset.mem_filter, List.mem_toFinset,
      List.mem_range]
    refine ⟨fun hi => ⟨?_, hi⟩, fun hi => hi.2⟩
    by_contra hge
    have := lt_two_pow_of_mem hi
    have := Nat.pow_le_pow_right Nat.two_pos (not_lt.mp hge)
    omega
  rw [hset, ones, List.countP_eq_length_filter, ← List.toFinset_filter,
    List.toFinset_card_of_nodup (List.nodup_range.filter _)]

/-- A proper submask has fewer members. -/
lemma ones_lt_ones (hn : n < 2 ^ w) (hsub : bitSet m ⊆ bitSet n) (hne : m ≠ n) :
    ones w m < ones w n := by
  have hm : m < 2 ^ w := lt_of_le_of_lt (le_of_subset hsub) hn
  rw [ones_eq_card hm, ones_eq_card hn]
  refine Finset.card_lt_card ?_
  rw [Set.Finite.toFinset_ssubset_toFinset]
  exact ⟨hsub, fun hback => hne (bitSet_injective (Set.Subset.antisymm hsub hback))⟩

lemma ones_two_pow {i : ℕ} (h : i < w) : ones w (2 ^ i) = 1 := by
  rw [ones_eq_card (Nat.pow_lt_pow_right Nat.one_lt_two h), Finset.card_eq_one]
  refine ⟨i, ?_⟩
  ext j
  rw [Set.Finite.mem_toFinset, bitSet_two_pow, Finset.mem_singleton, Set.mem_singleton_iff]

lemma exists_two_pow_of_ones (h : m < 2 ^ w) (hm : ones w m = 1) : ∃ i < w, m = 2 ^ i := by
  rw [ones_eq_card h] at hm
  obtain ⟨i, hi⟩ := Finset.card_eq_one.mp hm
  have hset : bitSet m = bitSet (2 ^ i) := by
    rw [← (finite_bitSet m).coe_toFinset, hi, Finset.coe_singleton, bitSet_two_pow]
  have heq := bitSet_injective hset
  refine ⟨i, ?_, heq⟩
  rw [heq] at h
  exact (Nat.pow_lt_pow_iff_right Nat.one_lt_two).mp h

end PgFusion.Masks

import Mathlib.Data.Finset.Card
import Mathlib.Data.List.Nodup
import Mathlib.Data.Nat.Notation
import Mathlib.Order.Interval.Finset.Nat

/-!
Numbers shared out between a list and several holders: `Shares n l held` says that each number below
`n` is either in the list `l` or held by exactly one process, once.
-/

namespace PgFusion

/-- A list without repetition that misses a number below a bound is shorter than the
bound. -/
lemma length_lt_of_notMem {n i : ℕ} {l : List ℕ} (hnd : l.Nodup) (hlt : ∀ j ∈ l, j < n)
    (hi : i < n) (hnot : i ∉ l) : l.length < n := by
  have hsub : i :: l ⊆ List.range n := List.cons_subset.mpr
    ⟨List.mem_range.mpr hi, fun j hj => List.mem_range.mpr (hlt j hj)⟩
  have hle := (List.subperm_of_subset (List.nodup_cons.mpr ⟨hnot, hnd⟩) hsub).length_le
  rwa [List.length_range] at hle

/-- The numbers below `n` are shared out, each once, between the list `l` and the
processes that hold some. -/
structure Shares (n : ℕ) (l : List ℕ) (held : ℕ → List ℕ) : Prop where
  lt : ∀ i ∈ l, i < n
  nodup : l.Nodup
  apart : ∀ p, ∀ i ∈ held p, i < n ∧ i ∉ l
  held_nodup : ∀ p, (held p).Nodup
  unique : ∀ p q i, i ∈ held p → i ∈ held q → p = q
  cover : ∀ i < n, i ∈ l ∨ ∃ p, i ∈ held p

namespace Shares

variable {n i : ℕ} {l : List ℕ} {held : ℕ → List ℕ} {p : ℕ}

/-- Process `p` takes the first number of the list. -/
lemma take (h : Shares n (i :: l) held) :
    Shares n l (Function.update held p (i :: held p)) := by
  have hi : ∀ q, i ∉ held q := fun q hq => (h.apart q i hq).2 List.mem_cons_self
  obtain ⟨hil, hl⟩ := List.nodup_cons.mp h.nodup
  have hmem : ∀ q j, j ∈ Function.update held p (i :: held p) q ↔ (q = p ∧ j = i) ∨ j ∈ held q := by
    intro q j
    by_cases hq : q = p
    · subst hq
      simp
    · simp [hq]
  refine ⟨fun j hj => h.lt j (List.mem_cons_of_mem _ hj), hl, ?_, ?_, ?_, ?_⟩
  · intro q j hj
    obtain ⟨-, rfl⟩ | hj := (hmem q j).mp hj
    · exact ⟨h.lt j List.mem_cons_self, hil⟩
    · exact ⟨(h.apart q j hj).1, fun hm => (h.apart q j hj).2 (List.mem_cons_of_mem _ hm)⟩
  · intro q
    by_cases hq : q = p
    · subst hq
      simpa using ⟨hi q, h.held_nodup q⟩
    · simpa [hq] using h.held_nodup q
  · intro q r j hjq hjr
    rcases (hmem q j).mp hjq with ⟨hq, hji⟩ | hq <;> rcases (hmem r j).mp hjr with ⟨hr, hjr⟩ | hr
    · exact hq.trans hr.symm
    · exact absurd (hji ▸ hr) (hi r)
    · exact absurd (hjr ▸ hq) (hi q)
    · exact h.unique q r j hq hr
  · intro j hj
    obtain hj | ⟨q, hq⟩ := h.cover j hj
    · obtain rfl | hj := List.mem_cons.mp hj
      · exact Or.inr ⟨p, (hmem p j).mpr (Or.inl ⟨rfl, rfl⟩)⟩
      · exact Or.inl hj
    · exact Or.inr ⟨q, (hmem q j).mpr (Or.inr hq)⟩

/-- Process `p` puts a number it holds in front of the list. -/
lemma give (h : Shares n l held) (hi : i ∈ held p) :
    Shares n (i :: l) (Function.update held p ((held p).erase i)) := by
  obtain ⟨hin, hil⟩ := h.apart p i hi
  have hmem : ∀ q j, j ∈ Function.update held p ((held p).erase i) q ↔ j ≠ i ∧ j ∈ held q := by
    intro q j
    by_cases hq : q = p
    · subst hq
      simp [(h.held_nodup q).mem_erase_iff]
    · simp only [Function.update_of_ne hq, ne_eq, iff_and_self]
      rintro hj rfl
      exact hq (h.unique q p j hj hi)
  refine ⟨?_, List.nodup_cons.mpr ⟨hil, h.nodup⟩, ?_, ?_, ?_, ?_⟩
  · intro j hj
    obtain rfl | hj := List.mem_cons.mp hj
    · exact hin
    · exact h.lt j hj
  · intro q j hj
    obtain ⟨hne, hj⟩ := (hmem q j).mp hj
    exact ⟨(h.apart q j hj).1, List.not_mem_cons_of_ne_of_not_mem hne (h.apart q j hj).2⟩
  · intro q
    by_cases hq : q = p
    · subst hq
      simpa using (h.held_nodup q).erase i
    · simpa [hq] using h.held_nodup q
  · intro q r j hjq hjr
    exact h.unique q r j ((hmem q j).mp hjq).2 ((hmem r j).mp hjr).2
  · intro j hj
    by_cases hji : j = i
    · exact Or.inl (List.mem_cons.mpr (Or.inl hji))
    · obtain hj | ⟨q, hq⟩ := h.cover j hj
      · exact Or.inl (List.mem_cons_of_mem _ hj)
      · exact Or.inr ⟨q, (hmem q j).mpr ⟨hji, hq⟩⟩

/-- The list and one number for each of several holders are that many numbers. -/
lemma length_add_card_le (h : Shares n l held) (s : Finset ℕ) (hs : ∀ q ∈ s, held q ≠ []) :
    l.length + s.card ≤ n := by
  have hmem : ∀ q ∈ s, (held q).headD n ∈ held q := by
    intro q hq
    obtain ⟨i, l', hl'⟩ := List.exists_cons_of_ne_nil (hs q hq)
    rw [hl']
    exact List.mem_cons_self
  have hinj : Set.InjOn (fun q => (held q).headD n) s := by
    intro q hq r hr he
    have hr' := hmem r hr
    rw [← show (held q).headD n = (held r).headD n from he] at hr'
    exact h.unique q r _ (hmem q hq) hr'
  have hdisj : Disjoint l.toFinset (s.image fun q => (held q).headD n) := by
    rw [Finset.disjoint_right]
    intro i hi
    obtain ⟨q, hq, rfl⟩ := Finset.mem_image.mp hi
    simpa using (h.apart q _ (hmem q hq)).2
  have hsub : l.toFinset ∪ (s.image fun q => (held q).headD n) ⊆ Finset.range n := by
    intro i hi
    rw [Finset.mem_range]
    obtain hi | hi := Finset.mem_union.mp hi
    · exact h.lt i (List.mem_toFinset.mp hi)
    · obtain ⟨q, hq, rfl⟩ := Finset.mem_image.mp hi
      exact (h.apart q _ (hmem q hq)).1
  have hcard := Finset.card_le_card hsub
  rwa [Finset.card_union_of_disjoint hdisj, Finset.card_image_of_injOn hinj,
    List.toFinset_card_of_nodup h.nodup, Finset.card_range] at hcard

end Shares

end PgFusion

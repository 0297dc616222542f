import Mathlib.Combinatorics.SimpleGraph.Connectivity.Connected
import Mathlib.Tactic
import Mathlib.Order.CompletePartialOrder

/-!
Sets that hold together: every way to cut the set in two cuts a link.
* `Together.exists_split`: a point without which a set still holds together;
* `together_univ_iff`: the points of a graph hold together if and only if it is connected.
-/

namespace PgFusion

variable {α : Type*} {r : α → α → Prop} {S T : Set α}

/-- The set is not empty, and each of its cuts has a link across. -/
def Together (r : α → α → Prop) (S : Set α) : Prop :=
  S.Nonempty ∧ ∀ A ⊆ S, A.Nonempty → A ≠ S → ∃ a ∈ A, ∃ b ∈ S, b ∉ A ∧ r a b

lemma together_singleton (a : α) : Together r {a} := by
  refine ⟨Set.singleton_nonempty a, fun A hA hne hproper => ?_⟩
  exact absurd (hne.subset_singleton_iff.mp hA) hproper

/-- A cut of a set that leaves it whole. -/
lemma Together.inter_cases (h : Together r S) {A : Set α}
    (hlink : ¬∃ a ∈ A ∩ S, ∃ b ∈ S, b ∉ A ∧ r a b) :
    S ⊆ A ∨ Disjoint S A := by
  by_cases hne : (A ∩ S).Nonempty
  · left
    by_contra hsub
    have hproper : A ∩ S ≠ S := fun heq => hsub (Set.inter_eq_right.mp heq)
    obtain ⟨a, ha, b, hb, hbA, hab⟩ := h.2 (A ∩ S) Set.inter_subset_right hne hproper
    exact hlink ⟨a, ha, b, hb, fun hmem => hbA ⟨hmem, hb⟩, hab⟩
  · right
    rw [Set.not_nonempty_iff_eq_empty] at hne
    rw [disjoint_comm, Set.disjoint_iff_inter_eq_empty]
    exact hne

/-- Two sets that hold together and are linked are one such set. -/
lemma Together.union (hS : Together r S) (hT : Together r T) (hsymm : ∀ a b, r a b → r b a)
    (hlink : ∃ a ∈ S, ∃ b ∈ T, r a b) : Together r (S ∪ T) := by
  refine ⟨hS.1.inl, fun A hA hne hproper => ?_⟩
  by_contra hcut
  have hcutS : ¬∃ a ∈ A ∩ S, ∃ b ∈ S, b ∉ A ∧ r a b := fun ⟨a, ha, b, hb, hbA, hab⟩ =>
    hcut ⟨a, ha.1, b, Or.inl hb, hbA, hab⟩
  have hcutT : ¬∃ a ∈ A ∩ T, ∃ b ∈ T, b ∉ A ∧ r a b := fun ⟨a, ha, b, hb, hbA, hab⟩ =>
    hcut ⟨a, ha.1, b, Or.inr hb, hbA, hab⟩
  obtain ⟨a, ha, b, hb, hab⟩ := hlink
  -- each part is on one side of the cut
  rcases hS.inter_cases hcutS with hSA | hSA <;> rcases hT.inter_cases hcutT with hTA | hTA
  · exact hproper (Set.Subset.antisymm hA (Set.union_subset hSA hTA))
  · exact hcut ⟨a, hSA ha, b, Or.inr hb, Set.disjoint_left.mp hTA hb, hab⟩
  · exact hcut ⟨b, hTA hb, a, Or.inl ha, Set.disjoint_left.mp hSA ha, hsymm a b hab⟩
  · obtain ⟨x, hx⟩ := hne
    rcases hA hx with hxS | hxT
    · exact Set.disjoint_left.mp hSA hxS hx
    · exact Set.disjoint_left.mp hTA hxT hx

/-- A finite set of more than one point that holds together has a point without which it
still does, and which is linked to the rest. -/
lemma Together.exists_split (h : Together r S) (hsymm : ∀ a b, r a b → r b a) (hfin : S.Finite)
    (hS : S.Nontrivial) : ∃ b ∈ S, Together r (S \ {b}) ∧ ∃ a ∈ S \ {b}, r a b := by
  -- the rest is a largest proper subset that holds together
  have hfamily : {A | A ⊆ S ∧ A ≠ S ∧ Together r A}.Finite :=
    hfin.finite_subsets.subset fun A hA => hA.1
  obtain ⟨x, hx⟩ := h.1
  have hne : {A | A ⊆ S ∧ A ≠ S ∧ Together r A}.Nonempty :=
    ⟨{x}, Set.singleton_subset_iff.mpr hx, fun heq => Set.not_nontrivial_singleton (heq ▸ hS),
      together_singleton x⟩
  obtain ⟨A, ⟨hA, hproper, hAt⟩, hmax⟩ := hfamily.exists_maximal hne
  obtain ⟨a, ha, b, hb, hbA, hab⟩ := h.2 A hA hAt.1 hproper
  have hunion : Together r (A ∪ {b}) :=
    hAt.union (together_singleton b) hsymm ⟨a, ha, b, rfl, hab⟩
  have hall : A ∪ {b} = S := by
    by_contra hne'
    have hle := hmax ⟨Set.union_subset hA (Set.singleton_subset_iff.mpr hb), hne', hunion⟩
      Set.subset_union_left
    exact hbA (hle (Or.inr rfl))
  have hrest : S \ {b} = A := by
    rw [← hall, Set.union_sdiff_cancel_right]
    rintro y ⟨hy, rfl⟩
    exact absurd hy hbA
  refine ⟨b, hb, ?_⟩
  rw [hrest]
  exact ⟨hAt, a, ha, hab⟩

/-- Holding together is kept by a renaming of the points. -/
lemma together_image {β : Type*} {s : β → β → Prop} {f : α → β} (hf : ∀ a b, f a = f b → a = b) :
    Together s (f '' S) ↔ Together (fun a b => s (f a) (f b)) S := by
  constructor
  · rintro ⟨hne, hcut⟩
    refine ⟨hne.of_image, fun A hA hAne hproper => ?_⟩
    have hproper' : f '' A ≠ f '' S := fun heq => hproper (Set.image_injective.mpr hf heq)
    obtain ⟨_, ⟨a, ha, rfl⟩, _, ⟨b, hb, rfl⟩, hbA, hab⟩ :=
      hcut (f '' A) (Set.image_mono hA) (hAne.image f) hproper'
    exact ⟨a, ha, b, hb, fun hmem => hbA ⟨b, hmem, rfl⟩, hab⟩
  · rintro ⟨hne, hcut⟩
    refine ⟨hne.image f, fun A hA hAne hproper => ?_⟩
    obtain ⟨B, hB, rfl⟩ := Set.subset_image_iff.mp hA
    obtain ⟨a, ha, b, hb, hbB, hab⟩ := hcut B hB hAne.of_image fun heq => hproper (heq ▸ rfl)
    refine ⟨f a, ⟨a, ha, rfl⟩, f b, ⟨b, hb, rfl⟩, ?_, hab⟩
    rintro ⟨c, hc, heq⟩
    exact hbB (hf c b heq ▸ hc)

/-- A graph is connected if and only if its points hold together. -/
lemma together_univ_iff (G : SimpleGraph α) : Together G.Adj Set.univ ↔ G.Connected := by
  rw [SimpleGraph.connected_iff]
  constructor
  · rintro ⟨⟨x, -⟩, hcut⟩
    refine ⟨fun u v => ?_, ⟨x⟩⟩
    by_contra hreach
    -- the points that can be reached from `u` would be cut off
    obtain ⟨a, ha, b, -, hb, hab⟩ := hcut {w | G.Reachable u w} (Set.subset_univ _)
      ⟨u, SimpleGraph.Reachable.refl u⟩ fun heq => hreach (Set.eq_univ_iff_forall.mp heq v)
    exact hb (SimpleGraph.Reachable.trans ha hab.reachable)
  · rintro ⟨hpre, hne⟩
    refine ⟨Set.univ_nonempty, fun A _ hA hproper => ?_⟩
    obtain ⟨a, ha⟩ := hA
    obtain ⟨b, hb⟩ := (Set.ne_univ_iff_exists_notMem A).mp hproper
    obtain ⟨p⟩ := hpre a b
    obtain ⟨d, -, hfst, hsnd⟩ := p.exists_boundary_dart A ha hb
    exact ⟨d.fst, hfst, d.snd, Set.mem_univ _, hsnd, d.adj⟩

end PgFusion

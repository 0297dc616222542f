import PgFusion.JoinOrder.Trees

/-!
The join graph and the walks of the optimizer over sets of relations.
* `isConnected_of_together`: relations that hold together are found connected.
-/

namespace PgFusion.JoinOrder

open Fallible Masks

variable {problem : Problem} {config : JoinOrderConfig}

/-! ### Validated problems -/

/-- What `validate` leaves of a problem. -/
lemma validate_facts (hvalid : validate problem config = .ok ()) :
    0 < problem.relCount ∧ problem.relCount < 64 ∧
      (∀ stats ∈ problem.rels, 0 ≤ stats.rows ∧ 0 ≤ stats.bytes) ∧
      ∀ edge ∈ problem.edges, edge.isInnerOrCross = true ∧ (edge.left ≠ 0 ∧ edge.right ≠ 0) ∧
        edge.left &&& edge.right = 0 ∧
        (edge.left ||| edge.right) &&& complement (relUniverse problem.relCount) = 0 ∧
        0 ≤ edge.selectivity := by
  simp only [validate, bind_eq_ok, refuse_eq_ok, forM_eq_ok] at hvalid
  obtain ⟨-, hpos, -, -, -, hlt, -, hrels, hedges⟩ := hvalid
  refine ⟨Nat.pos_of_ne_zero hpos, not_le.mp hlt, fun stats hmem => ?_, fun edge hmem => ?_⟩
  · obtain ⟨i, hi⟩ := List.mem_iff_getElem?.mp hmem
    have hcheck := hrels (stats, i) (List.mk_mem_zipIdx_iff_getElem?.mpr hi)
    simp only [validateRel, bind_eq_ok, refuse_eq_ok, not_lt] at hcheck
    exact ⟨hcheck.choose_spec.1, hcheck.choose_spec.2⟩
  · obtain ⟨i, hi⟩ := List.mem_iff_getElem?.mp hmem
    have hcheck := hedges (edge, i) (List.mk_mem_zipIdx_iff_getElem?.mpr hi)
    simp only [validateEdge, bind_eq_ok, refuse_eq_ok, not_lt, not_not, Bool.not_eq_false,
      not_or] at hcheck
    obtain ⟨-, hkind, -, hne, -, hdisj, -, hin, -, -, hsel⟩ := hcheck
    exact ⟨hkind, hne, hdisj, hin, hsel⟩

/-- A validated problem whose sets are words of 64 bits. -/
lemma validate_checked (hvalid : validate problem config = .ok ())
    (hwords : ∀ edge ∈ problem.edges, edge.left < 2 ^ 64 ∧ edge.right < 2 ^ 64) :
    problem.Checked := by
  obtain ⟨-, hcount, hrel, hedge⟩ := validate_facts hvalid
  refine ⟨hcount, hrel, fun edge hmem => ?_, fun edge hmem => (hedge edge hmem).1,
    fun edge hmem => (hedge edge hmem).2.2.2.2⟩
  obtain ⟨-, hne, hdisj, hin, -⟩ := hedge edge hmem
  obtain ⟨hleft, hright⟩ := hwords edge hmem
  rw [and_complement (Nat.or_lt_two_pow hleft hright)] at hin
  exact ⟨hne.1, hne.2, disjoint_iff_and.mpr hdisj, hin⟩

/-- A validated problem with simple edges. -/
lemma validate_good (hvalid : validate problem config = .ok ())
    (hsimple : ∀ edge ∈ problem.edges, edge.Simple) : problem.Good := by
  have hpos := (validate_facts hvalid).1
  have hchecked := validate_checked hvalid fun edge hmem => by
    obtain ⟨⟨i, hi, j, hj, hleft, hright⟩, -⟩ := hsimple edge hmem
    rw [hleft, hright]
    exact ⟨relBit_lt hi, relBit_lt hj⟩
  refine ⟨hpos, hchecked.relCount_lt, hchecked.rels, fun edge hmem => ?_, hchecked.joinable,
    hchecked.selectivity, fun edge hmem => (hsimple edge hmem).2⟩
  obtain ⟨⟨i, hi, j, hj, hleft, hright⟩, -⟩ := hsimple edge hmem
  obtain ⟨-, -, hdisj, hsides⟩ := hchecked.edges edge hmem
  rw [hleft, hright, relBit, relBit, bitSet_two_pow, bitSet_two_pow,
    Set.disjoint_singleton] at hdisj
  rw [hleft, hright, bitSet_or, relBit, relBit, bitSet_two_pow, bitSet_two_pow,
    Set.union_subset_iff, Set.singleton_subset_iff, Set.singleton_subset_iff,
    mem_relUniverse hchecked.relCount_lt, mem_relUniverse hchecked.relCount_lt] at hsides
  exact ⟨i, hsides.1, j, hsides.2, hdisj, hleft, hright⟩

/-! ### Splits -/

/-- The pairs of `for_each_split`. -/
abbrev splits (s : RelSet) : List (RelSet × RelSet) :=
  splitsFrom s (subMasks s s ((s - 1) &&& s))

variable {s v : RelSet}

/-- `lowest_bit` is one relation of the set. -/
lemma exists_lowestBit (hs : s ≠ 0) (hlt : s < 2 ^ 64) :
    ∃ i ∈ bitSet s, lowestBit s = relBit i := by
  obtain ⟨i, hi, heq⟩ := exists_and_neg hs hlt
  refine ⟨i, hi, ?_⟩
  have hneg : 2 ^ 64 - s < 2 ^ 64 := Nat.sub_lt (Nat.two_pow_pos 64) (Nat.pos_of_ne_zero hs)
  rw [lowestBit, Nat.mod_eq_of_lt hneg, heq, relBit]

/-- A pair that is visited: the part with the lowest relation, and the rest. -/
lemma mem_splits (hs : s ≠ 0) {i : ℕ} (hi : lowestBit s = relBit i) {p : RelSet × RelSet} :
    p ∈ splits s ↔ i ∈ bitSet p.1 ∧ p.1 ≠ s ∧ bitSet p.1 ⊆ bitSet s ∧ p.2 = s ^^^ p.1 := by
  have hanchor : ∀ l : ℕ, l &&& lowestBit s ≠ 0 ↔ i ∈ bitSet l := by
    intro l
    rw [hi, ne_eq, ← disjoint_iff_and, relBit, bitSet_two_pow, Set.disjoint_singleton_right,
      not_not]
  have hxor : ∀ l : ℕ, s ^^^ l ≠ 0 ↔ l ≠ s := by
    intro l
    rw [ne_eq, Nat.xor_eq_zero_iff, eq_comm]
  rw [splits, splitsFrom, List.mem_filterMap]
  constructor
  · rintro ⟨l, hl, hp⟩
    rw [mem_subMasks_pred hs] at hl
    split_ifs at hp with hcond hright
    cases hp
    exact ⟨(hanchor l).mp hcond.1, hcond.2, hl.2.2, rfl⟩
  · rintro ⟨hmem, hne, hsub, hright⟩
    refine ⟨p.1, (mem_subMasks_pred hs).mpr ⟨fun h0 => ?_, hne, hsub⟩, ?_⟩
    · rw [h0, bitSet_zero] at hmem
      exact hmem
    · rw [if_pos ⟨(hanchor p.1).mpr hmem, hne⟩, if_pos ((hxor p.1).mpr hne), ← hright]

/-- The two parts of a pair that is visited. -/
lemma splits_sound (hs : s ≠ 0) (hlt : s < 2 ^ 64) {p : RelSet × RelSet} (hp : p ∈ splits s) :
    p.1 ≠ 0 ∧ p.2 ≠ 0 ∧ Disjoint (bitSet p.1) (bitSet p.2) ∧ p.1 ||| p.2 = s := by
  obtain ⟨i, -, hi⟩ := exists_lowestBit hs hlt
  obtain ⟨hmem, hne, hsub, hright⟩ := (mem_splits hs hi).mp hp
  have hset : bitSet p.2 = bitSet s \ bitSet p.1 := by rw [hright, bitSet_xor hsub]
  refine ⟨fun h0 => ?_, fun h0 => ?_, ?_, bitSet_injective ?_⟩
  · rw [h0, bitSet_zero] at hmem
    exact hmem
  · rw [hright, Nat.xor_eq_zero_iff] at h0
    exact hne h0.symm
  · rw [hset]
    exact Set.disjoint_sdiff_right
  · rw [bitSet_or, hset, Set.union_sdiff_cancel hsub]

/-- Every way to cut a set in two is visited, one way round. -/
lemma splits_complete {l r : RelSet} (hlt : s < 2 ^ 64) (hl : l ≠ 0) (hr : r ≠ 0)
    (hdisj : Disjoint (bitSet l) (bitSet r)) (hor : l ||| r = s) :
    (l, r) ∈ splits s ∨ (r, l) ∈ splits s := by
  have hset : bitSet s = bitSet l ∪ bitSet r := by rw [← hor, bitSet_or]
  have hs : s ≠ 0 := by
    obtain ⟨i, hi⟩ := bitSet_nonempty hl
    intro h0
    rw [h0, bitSet_zero] at hset
    exact (hset ▸ Or.inl hi : i ∈ (∅ : Set ℕ))
  have hpart : ∀ {a b : ℕ}, b ≠ 0 → Disjoint (bitSet a) (bitSet b) → bitSet s = bitSet a ∪
    bitSet b →
      a ≠ s ∧ bitSet a ⊆ bitSet s ∧ b = s ^^^ a := by
    intro a b hb hab hs'
    have hsub : bitSet a ⊆ bitSet s := by
      rw [hs']
      exact Set.subset_union_left
    refine ⟨?_, hsub, bitSet_injective ?_⟩
    · rintro rfl
      obtain ⟨i, hi⟩ := bitSet_nonempty hb
      exact Set.disjoint_right.mp hab hi (hs' ▸ Or.inr hi)
    · rw [bitSet_xor hsub, hs', Set.union_sdiff_cancel_left (Set.disjoint_iff.mp hab)]
  obtain ⟨i, hmem, hi⟩ := exists_lowestBit hs hlt
  rw [hset] at hmem
  rcases hmem with hmem | hmem
  · obtain ⟨h1, h2, h3⟩ := hpart hr hdisj hset
    exact Or.inl ((mem_splits hs hi).mpr ⟨hmem, h1, h2, h3⟩)
  · obtain ⟨h1, h2, h3⟩ := hpart hl hdisj.symm (hset.trans (Set.union_comm _ _))
    exact Or.inr ((mem_splits hs hi).mpr ⟨hmem, h1, h2, h3⟩)

/-! ### Connected sets -/

/-- One edge of the walk: relations are added, all of the set. -/
lemma visitEdge_sound (edge : Edge) (hbits : edge.left ||| edge.right < 2 ^ 64)
    (hv : bitSet v ⊆ bitSet s) :
    bitSet v ⊆ bitSet (visitEdge s v edge) ∧ bitSet (visitEdge s v edge) ⊆ bitSet s := by
  rw [visitEdge]
  split_ifs with hkind hin htouch
  · exact ⟨subset_rfl, hv⟩
  · exact ⟨subset_rfl, hv⟩
  · rw [not_not, and_complement hbits] at hin
    rw [bitSet_or]
    exact ⟨Set.subset_union_left, Set.union_subset hv hin⟩
  · exact ⟨subset_rfl, hv⟩

/-- One round of the walk. When it adds nothing, no edge inside the set leaves what has been
visited. -/
lemma visitRound_sound {edges : List Edge}
    (hbits : ∀ edge ∈ edges, edge.left ||| edge.right < 2 ^ 64) (hv : bitSet v ⊆ bitSet s) :
    bitSet v ⊆ bitSet (edges.foldl (visitEdge s) v) ∧
      bitSet (edges.foldl (visitEdge s) v) ⊆ bitSet s ∧
      (edges.foldl (visitEdge s) v = v → ∀ edge ∈ edges, visitEdge s v edge = v) := by
  induction edges generalizing v with
  | nil => exact ⟨subset_rfl, hv, fun _ _ h => absurd h List.not_mem_nil⟩
  | cons edge edges ih =>
    rw [List.forall_mem_cons] at hbits
    obtain ⟨hgrow, hin⟩ := visitEdge_sound edge hbits.1 hv
    obtain ⟨hgrow', hin', hfix⟩ := ih hbits.2 hin
    rw [List.foldl_cons]
    refine ⟨hgrow.trans hgrow', hin', fun heq => ?_⟩
    have hsame : visitEdge s v edge = v :=
      bitSet_injective (Set.Subset.antisymm (hgrow'.trans (congrArg bitSet heq).subset) hgrow)
    rw [hsame] at heq hfix
    rw [List.forall_mem_cons]
    exact ⟨hsame, hfix heq⟩

lemma ones_le_ones (hlt : s < 2 ^ 64) (hv : bitSet v ⊆ bitSet s) :
    ones 64 v ≤ ones 64 s := by
  by_cases heq : v = s
  · rw [heq]
  · exact (ones_lt_ones hlt hv heq).le

/-- The walk ends with a round that adds nothing. -/
lemma visitLoop_sound (hgood : problem.Good) (hlt : s < 2 ^ 64) (rounds : ℕ)
    (hv : bitSet v ⊆ bitSet s) (hrounds : ones 64 s < ones 64 v + rounds) :
    bitSet v ⊆ bitSet (visitLoop problem s rounds v) ∧
      bitSet (visitLoop problem s rounds v) ⊆ bitSet s ∧
      ∀ edge ∈ problem.edges, visitEdge s (visitLoop problem s rounds v) edge =
        visitLoop problem s rounds v := by
  have hbits : ∀ edge ∈ problem.edges, edge.left ||| edge.right < 2 ^ 64 := by
    intro edge hmem
    have hcount := hgood.relCount_lt
    obtain ⟨i, hi, j, hj, -, hleft, hright⟩ := hgood.edges edge hmem
    rw [hleft, hright]
    exact Nat.or_lt_two_pow (relBit_lt (hi.trans hcount)) (relBit_lt (hj.trans hcount))
  induction rounds generalizing v with
  | zero =>
    have := ones_le_ones hlt hv
    omega
  | succ rounds ih =>
    obtain ⟨hgrow, hin, hfix⟩ := visitRound_sound hbits hv
    rw [visitLoop]
    split_ifs with heq
    · exact ⟨subset_rfl, hv, hfix heq⟩
    · have hmore := ones_lt_ones (lt_of_le_of_lt (le_of_subset hin) hlt) hgrow (Ne.symm heq)
      obtain ⟨hgrow', hin', hfix'⟩ := ih hin (by omega)
      exact ⟨hgrow.trans hgrow', hin', hfix'⟩

/-- **Relations that hold together are found connected.** -/
theorem isConnected_of_together (hgood : problem.Good) (hlt : s < 2 ^ 64)
    (h : Together problem.Linked (bitSet s)) : isConnected problem s = true := by
  have hcount := hgood.relCount_lt
  have hs : s ≠ 0 := by
    rintro rfl
    rw [bitSet_zero] at h
    exact Set.not_nonempty_empty h.1
  rw [isConnected]
  split_ifs with hsingle
  · rfl
  · rw [decide_eq_true_iff]
    obtain ⟨i, hi, hlow⟩ := exists_lowestBit hs hlt
    have hstart : bitSet (lowestBit s) = {i} := by rw [hlow, relBit, bitSet_two_pow]
    have hi64 : i < 64 :=
      (Nat.pow_lt_pow_iff_right Nat.one_lt_two).mp (lt_of_le_of_lt (lt_two_pow_of_mem hi) hlt)
    have hone : ones 64 (lowestBit s) = 1 := by rw [hlow, relBit, ones_two_pow hi64]
    have hle : ones 64 s ≤ 64 := by
      have := List.countP_le_length (p := s.testBit) (l := List.range 64)
      rwa [List.length_range] at this
    obtain ⟨hgrow, hin, hfix⟩ := visitLoop_sound hgood hlt 64 (v := lowestBit s)
      (hstart ▸ Set.singleton_subset_iff.mpr hi) (by omega)
    by_contra hne
    -- otherwise what was visited is a cut of the set with a link across
    obtain ⟨a, ha, b, hb, hbv, edge, hmem, hedge⟩ :=
      h.2 _ hin ((hstart ▸ Set.singleton_nonempty i).mono hgrow)
      (fun heq => hne (bitSet_injective heq))
    have hfixed := hfix edge hmem
    have hends : bitSet (edge.left ||| edge.right) = {a, b} := by
      rw [bitSet_or]
      rcases hedge with ⟨h1, h2⟩ | ⟨h1, h2⟩ <;>
        rw [h1, h2, relBit, relBit, bitSet_two_pow, bitSet_two_pow]
      · rfl
      · exact Set.union_comm _ _
    have hbits : edge.left ||| edge.right < 2 ^ 64 := by
      refine lt_of_le_of_lt (le_of_subset (n := s) ?_) hlt
      rw [hends]
      exact Set.insert_subset (hin ha) (Set.singleton_subset_iff.mpr hb)
    have hinside : ¬ (edge.left ||| edge.right) &&& complement s ≠ 0 := by
      rw [not_not, and_complement hbits, hends]
      exact Set.insert_subset (hin ha) (Set.singleton_subset_iff.mpr hb)
    have htouch : (edge.left ||| edge.right) &&& visitLoop problem s 64 (lowestBit s) ≠ 0 := by
      rw [ne_eq, ← disjoint_iff_and, hends, Set.not_disjoint_iff]
      exact ⟨a, Set.mem_insert a {b}, ha⟩
    rw [visitEdge] at hfixed
    simp only [hgood.joinable edge hmem, Bool.true_eq_false, if_false, if_neg hinside,
      if_pos htouch] at hfixed
    refine hbv ?_
    rw [← hfixed, bitSet_or, hends]
    exact Or.inr (Set.mem_insert_of_mem a rfl)

/-! ### The graph of a problem -/

/-- The relations, with an edge between two that are linked. -/
def joinGraph (problem : Problem) : SimpleGraph (Fin problem.relCount) :=
  SimpleGraph.fromRel fun i j => problem.Linked i j

lemma Problem.Good.ne_of_linked (hgood : problem.Good) {i j : ℕ} (h : problem.Linked i j) :
    i ≠ j := by
  rintro rfl
  obtain ⟨edge, hmem, hedge⟩ := h
  obtain ⟨a, -, b, -, hne, hleft, hright⟩ := hgood.edges edge hmem
  rcases hedge with ⟨h1, h2⟩ | ⟨h1, h2⟩ <;>
    exact hne ((relBit_injective (hleft.symm.trans h1)).trans
      (relBit_injective (hright.symm.trans h2)).symm)

/-- All relations hold together if and only if the graph is connected. -/
lemma together_universe_iff (hgood : problem.Good) :
    Together problem.Linked (bitSet (relUniverse problem.relCount)) ↔
      (joinGraph problem).Connected := by
  have himage : bitSet (relUniverse problem.relCount) =
      (fun i : Fin problem.relCount => (i : ℕ)) '' Set.univ := by
    ext i
    rw [mem_relUniverse hgood.relCount_lt, Set.image_univ, Set.mem_range]
    exact ⟨fun hi => ⟨⟨i, hi⟩, rfl⟩, fun ⟨j, hj⟩ => hj ▸ j.isLt⟩
  rw [himage, together_image (fun _ _ => Fin.ext), ← together_univ_iff]
  have hadj : (joinGraph problem).Adj = fun i j : Fin problem.relCount => problem.Linked i j := by
    funext i j
    rw [joinGraph, SimpleGraph.fromRel_adj, eq_iff_iff]
    constructor
    · rintro ⟨-, h | h⟩
      · exact h
      · exact h.symm
    · exact fun h => ⟨fun heq => hgood.ne_of_linked h (congrArg Fin.val heq), Or.inl h⟩
  rw [hadj]

end PgFusion.JoinOrder

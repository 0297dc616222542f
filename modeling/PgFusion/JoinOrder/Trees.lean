import Mathlib.Data.Nat.Bitwise
import Mathlib.Tactic
import PgFusion.Data.Cuts
import PgFusion.JoinOrder.Optimizer

/-!
Join trees over the relations of a problem, and what `estimate_join` makes of them.
* `stats_eq`: rows and bytes depend on the set of relations only;
* `exists_joins_of_together`: relations that hold together have a tree.
-/

namespace PgFusion.JoinOrder

open Masks

/-! ### Trees -/

/-- A binary tree of relations. -/
inductive Tree where
  | leaf (rel : ℕ)
  | node (left right : Tree)
deriving DecidableEq

namespace Tree

/-- The relations of a tree as a set. -/
def set : Tree → RelSet
  | .leaf rel => relBit rel
  | .node left right => left.set ||| right.set

/-- The relations of a tree from left to right. -/
def leaves : Tree → List ℕ
  | .leaf rel => [rel]
  | .node left right => left.leaves ++ right.leaves

lemma mem_set {t : Tree} {i : ℕ} : i ∈ bitSet t.set ↔ i ∈ t.leaves := by
  induction t with
  | leaf rel => rw [set, relBit, bitSet_two_pow, leaves, Set.mem_singleton_iff, List.mem_singleton]
  | node l r ihl ihr => rw [set, bitSet_or, leaves, Set.mem_union, List.mem_append, ihl, ihr]

lemma leaves_ne_nil (t : Tree) : t.leaves ≠ [] := by
  induction t with
  | leaf rel => exact List.cons_ne_nil rel []
  | node l r ihl _ => exact List.append_ne_nil_of_left_ne_nil ihl _

lemma length_leaves_pos (t : Tree) : 0 < t.leaves.length :=
  List.length_pos_of_ne_nil t.leaves_ne_nil

lemma set_ne_zero (t : Tree) : t.set ≠ 0 := by
  obtain ⟨i, hi⟩ := List.exists_mem_of_ne_nil _ t.leaves_ne_nil
  intro h
  rw [← mem_set, h, bitSet_zero] at hi
  exact hi

end Tree

/-- A relation as an entry of the table. -/
def leafBest (problem : Problem) (rel : ℕ) : Best :=
  let stats := (problem.rels[rel]?).getD ⟨0, 0⟩
  ⟨0, stats.rows, stats.bytes, 0, 0, .right⟩

/-- The entry of a tree, computed by `estimate_join` at every node. -/
def Tree.estimate (problem : Problem) : Tree → Best
  | .leaf rel => leafBest problem rel
  | .node left right =>
    estimateJoin left.set right.set (planStats (left.estimate problem))
      (planStats (right.estimate problem))
      ((problem.joinLink left.set right.set).getD ⟨1, true⟩)

/-- The cost of a tree. -/
def Tree.cost (problem : Problem) (t : Tree) : ℚ := (t.estimate problem).cost

/-- Two relations with an edge between them. -/
def Problem.Linked (problem : Problem) (i j : ℕ) : Prop :=
  ∃ edge ∈ problem.edges, (edge.left = relBit i ∧ edge.right = relBit j) ∨
    (edge.left = relBit j ∧ edge.right = relBit i)

/-- Two relations that may be joined directly. -/
def MayJoin (problem : Problem) (config : JoinOrderConfig) (i j : ℕ) : Prop :=
  config.allowCrossJoins = true ∨ problem.Linked i j

/-- Every node joins two parts with an edge between them, unless cross joins are allowed. -/
def Tree.AllLinked (problem : Problem) (config : JoinOrderConfig) : Tree → Prop
  | .leaf _ => True
  | .node left right => left.AllLinked problem config ∧ right.AllLinked problem config ∧
      ∃ i ∈ left.leaves, ∃ j ∈ right.leaves, MayJoin problem config i j

/-- A tree of relations of the problem, none twice, with its parts linked. -/
structure Tree.Joins (problem : Problem) (config : JoinOrderConfig) (t : Tree) : Prop where
  nodup : t.leaves.Nodup
  lt : ∀ rel ∈ t.leaves, rel < problem.relCount
  linked : t.AllLinked problem config

/-- A tree of relations of the problem, none twice. -/
structure Tree.Over (problem : Problem) (t : Tree) : Prop where
  nodup : t.leaves.Nodup
  lt : ∀ rel ∈ t.leaves, rel < problem.relCount

/-- The edge is commutative and between two single relations, each a bit of a `u64`. -/
def Edge.Simple (edge : Edge) : Prop :=
  (∃ i < 64, ∃ j < 64, edge.left = relBit i ∧ edge.right = relBit j) ∧
    flagsContain edge.flags flagCommutative = true

/-- A problem whose edges are simple, after `validate`. -/
structure Problem.Good (problem : Problem) : Prop where
  relCount_pos : 0 < problem.relCount
  relCount_lt : problem.relCount < 64
  rels : ∀ stats ∈ problem.rels, 0 ≤ stats.rows ∧ 0 ≤ stats.bytes
  edges : ∀ edge ∈ problem.edges, ∃ i < problem.relCount, ∃ j < problem.relCount, i ≠ j ∧
    edge.left = relBit i ∧ edge.right = relBit j
  joinable : ∀ edge ∈ problem.edges, edge.isInnerOrCross = true
  selectivity : ∀ edge ∈ problem.edges, 0 ≤ edge.selectivity
  commutative : ∀ edge ∈ problem.edges, flagsContain edge.flags flagCommutative = true

/-- The sides of an edge are sets of relations of the problem, not empty and without a common
relation. -/
structure Edge.Proper (edge : Edge) (relCount : ℕ) : Prop where
  left_ne : edge.left ≠ 0
  right_ne : edge.right ≠ 0
  disjoint : Disjoint (bitSet edge.left) (bitSet edge.right)
  sides : bitSet (edge.left ||| edge.right) ⊆ bitSet (relUniverse relCount)

/-- A problem after `validate`, whatever its edges are. -/
structure Problem.Checked (problem : Problem) : Prop where
  relCount_lt : problem.relCount < 64
  rels : ∀ stats ∈ problem.rels, 0 ≤ stats.rows ∧ 0 ≤ stats.bytes
  edges : ∀ edge ∈ problem.edges, edge.Proper problem.relCount
  joinable : ∀ edge ∈ problem.edges, edge.isInnerOrCross = true
  selectivity : ∀ edge ∈ problem.edges, 0 ≤ edge.selectivity

/-! ### Sets of relations -/

lemma testBit_complement (s i : ℕ) :
    (complement s).testBit i = (decide (i < 64) ^^ s.testBit i) := by
  rw [complement, relSetMax, Nat.testBit_xor, Nat.testBit_two_pow_sub_one]

variable {s n i j : ℕ}

/-- `a & !s == 0`. -/
lemma and_complement {a : ℕ} (ha : a < 2 ^ 64) :
    a &&& complement s = 0 ↔ bitSet a ⊆ bitSet s := by
  have hbit : ∀ i, a.testBit i = true → i < 64 := fun i hi => by
    have := lt_two_pow_of_mem hi
    exact (Nat.pow_lt_pow_iff_right Nat.one_lt_two).mp (lt_of_le_of_lt this ha)
  rw [← disjoint_iff_and, Set.disjoint_left]
  refine forall_congr' fun i => forall_congr' fun hi => ?_
  simp [testBit_complement, hbit i hi]

lemma relUniverse_of_lt (h : n < 64) : relUniverse n = 2 ^ n - 1 := by
  rw [relUniverse, maxU64Rels, if_neg (by omega)]

lemma mem_relUniverse (h : n < 64) : i ∈ bitSet (relUniverse n) ↔ i < n := by
  rw [relUniverse_of_lt h, mem_bitSet, Nat.testBit_two_pow_sub_one, decide_eq_true_iff]

lemma relBit_lt (h : i < 64) : relBit i < 2 ^ 64 := Nat.pow_lt_pow_right Nat.one_lt_two h

lemma relBit_injective (h : relBit i = relBit j) : i = j :=
  Nat.pow_right_injective le_rfl h

/-- The sets of relations are the numbers up to the universe. -/
lemma subset_relUniverse (h : n < 64) :
    bitSet s ⊆ bitSet (relUniverse n) ↔ s ≤ relUniverse n := by
  refine ⟨le_of_subset, fun hle i hi => ?_⟩
  rw [mem_relUniverse h]
  rw [relUniverse_of_lt h] at hle
  have := lt_two_pow_of_mem hi
  have hpos : 0 < 2 ^ n := Nat.two_pow_pos n
  exact (Nat.pow_lt_pow_iff_right Nat.one_lt_two).mp (by omega : 2 ^ i < 2 ^ n)

lemma lt_of_le_relUniverse (h : n < 64) (hs : s ≤ relUniverse n) : s < 2 ^ 64 := by
  rw [relUniverse_of_lt h] at hs
  have : 2 ^ n < 2 ^ 64 := Nat.pow_lt_pow_right Nat.one_lt_two h
  omega

variable {problem : Problem} {config : JoinOrderConfig}

lemma Problem.Linked.symm (h : problem.Linked i j) : problem.Linked j i := by
  obtain ⟨edge, hmem, hedge⟩ := h
  exact ⟨edge, hmem, hedge.symm⟩

lemma MayJoin.symm (h : MayJoin problem config i j) : MayJoin problem config j i :=
  h.imp_right Problem.Linked.symm

/-! ### Links -/

/-- An edge between single relations joins two sets if it has an end in each. -/
lemma Edge.joins_iff {edge : Edge} {l r : ℕ} (hi : i < 64) (hj : j < 64)
    (hleft : edge.left = relBit i) (hright : edge.right = relBit j) :
    edge.joins l r = true ↔ (i ∈ bitSet l ∧ j ∈ bitSet r) ∨ (i ∈ bitSet r ∧ j ∈ bitSet l) := by
  have hsub : ∀ {k : ℕ} (s : ℕ), k < 64 → (relBit k &&& complement s = 0 ↔ k ∈ bitSet s) := by
    intro k s hk
    rw [and_complement (relBit_lt hk), relBit, bitSet_two_pow, Set.singleton_subset_iff]
  rw [joins, decide_eq_true_iff, hleft, hright, hsub l hi, hsub r hj, hsub r hi, hsub l hj]

/-- The selectivities of the edges between two sets. -/
def crossing (problem : Problem) (l r : RelSet) : ℚ :=
  (problem.edges.map fun edge => if edge.joins l r then edge.selectivity else 1).prod

/-- All relations of the edge are in the set. -/
def Edge.Inside (edge : Edge) (s : RelSet) : Prop :=
  (edge.left ||| edge.right) &&& s = edge.left ||| edge.right

instance (edge : Edge) (s : RelSet) : Decidable (edge.Inside s) :=
  inferInstanceAs (Decidable ((edge.left ||| edge.right) &&& s = edge.left ||| edge.right))

/-- The selectivities of the edges inside a set. -/
def inside (problem : Problem) (s : RelSet) : ℚ :=
  (problem.edges.map fun edge => if edge.Inside s then edge.selectivity else 1).prod

/-- The loop of `join_link`. -/
lemma foldl_joinLink (edges : List Edge) (l r : RelSet) (q : ℚ) (comm found : Bool) :
    edges.foldl (fun (acc : JoinLink × Bool) edge =>
      if edge.isInnerOrCross && edge.joins l r then
        (⟨acc.1.selectivity * edge.selectivity,
          acc.1.commutative && flagsContain edge.flags flagCommutative⟩, true)
      else acc) (⟨q, comm⟩, found) =
    (⟨q * (edges.map fun edge =>
        if edge.isInnerOrCross && edge.joins l r then edge.selectivity else 1).prod,
      comm && edges.all fun edge =>
        !(edge.isInnerOrCross && edge.joins l r) || flagsContain edge.flags flagCommutative⟩,
      found || edges.any fun edge => edge.isInnerOrCross && edge.joins l r) := by
  induction edges generalizing q comm found with
  | nil => simp
  | cons edge edges ih =>
    rw [List.foldl_cons]
    by_cases hjoins : (edge.isInnerOrCross && edge.joins l r) = true
    · rw [if_pos hjoins, ih]
      simp only [hjoins, List.map_cons, List.prod_cons, List.all_cons, List.any_cons, if_true,
        mul_assoc, Bool.and_assoc, Bool.not_true, Bool.false_or, Bool.true_or, Bool.or_true]
    · rw [if_neg hjoins, ih]
      rw [Bool.not_eq_true] at hjoins
      simp only [hjoins, List.map_cons, List.prod_cons, List.all_cons, List.any_cons, one_mul,
        Bool.not_false, Bool.true_or, Bool.true_and, Bool.false_or, Bool.false_eq_true, if_false]

/-- `join_link` finds a link if an edge joins the sets. -/
lemma joinLink_isSome_eq (problem : Problem) (l r : RelSet) :
    (problem.joinLink l r).isSome =
      problem.edges.any fun edge => edge.isInnerOrCross && edge.joins l r := by
  rw [Problem.joinLink, foldl_joinLink, Bool.false_or]
  cases problem.edges.any fun edge => edge.isInnerOrCross && edge.joins l r <;> rfl

/-- The link has the selectivity of all edges that join the sets. -/
lemma joinLink_selectivity (hkind : ∀ edge ∈ problem.edges, edge.isInnerOrCross = true)
    (l r : RelSet) :
    ((problem.joinLink l r).getD ⟨1, true⟩).selectivity = crossing problem l r := by
  have hcross : (problem.edges.map fun edge =>
      if edge.isInnerOrCross && edge.joins l r then edge.selectivity else 1).prod =
        crossing problem l r := by
    rw [crossing]
    refine congrArg List.prod (List.map_congr_left fun edge hmem => ?_)
    rw [hkind edge hmem, Bool.true_and]
  rw [Problem.joinLink, foldl_joinLink, Bool.false_or, one_mul, hcross]
  dsimp only
  split_ifs with hany
  · rfl
  · refine (List.prod_eq_one fun q hq => ?_).symm
    obtain ⟨edge, hmem, rfl⟩ := List.mem_map.mp hq
    refine if_neg fun hjoins => hany (List.any_eq_true.mpr ⟨edge, hmem, ?_⟩)
    rw [hkind edge hmem, hjoins]
    rfl

/-- In a good problem the link is commutative. -/
lemma joinLink_eq (hgood : problem.Good) (l r : RelSet) :
    problem.joinLink l r =
      if ∃ edge ∈ problem.edges, edge.joins l r = true then some ⟨crossing problem l r, true⟩
      else none := by
  have hsome := joinLink_isSome_eq problem l r
  have hsel := joinLink_selectivity hgood.joinable l r
  have hany : (problem.edges.any fun edge => edge.isInnerOrCross && edge.joins l r) = true ↔
      ∃ edge ∈ problem.edges, edge.joins l r = true := by
    rw [List.any_eq_true]
    refine exists_congr fun edge => and_congr_right fun hmem => ?_
    rw [hgood.joinable edge hmem, Bool.true_and]
  have hcomm : ∀ link, problem.joinLink l r = some link → link.commutative = true := by
    intro link hlink
    rw [Problem.joinLink, foldl_joinLink, Bool.true_and] at hlink
    dsimp only at hlink
    split_ifs at hlink
    rw [← Option.some.inj hlink, List.all_eq_true]
    intro edge hmem
    rw [hgood.commutative edge hmem, Bool.or_true]
  rw [← hsome] at hany
  cases hlink : problem.joinLink l r with
  | none =>
    rw [hlink] at hany
    rw [if_neg fun hex => Bool.false_ne_true (hany.mpr hex)]
  | some link =>
    rw [hlink] at hany hsel
    rw [if_pos (hany.mp rfl), ← hsel, ← hcomm link hlink]
    rfl

lemma joinLink_isSome (hgood : problem.Good) {l r : RelSet} :
    (problem.joinLink l r).isSome = true ↔
      ∃ i ∈ bitSet l, ∃ j ∈ bitSet r, problem.Linked i j := by
  have hcount := hgood.relCount_lt
  rw [joinLink_eq hgood]
  constructor
  · intro h
    split_ifs at h with hex
    · obtain ⟨edge, hmem, hjoins⟩ := hex
      obtain ⟨i, hi, j, hj, -, hleft, hright⟩ := hgood.edges edge hmem
      rcases (edge.joins_iff (by omega) (by omega) hleft hright).mp hjoins with ⟨h1, h2⟩ | ⟨h1, h2⟩
      · exact ⟨i, h1, j, h2, edge, hmem, Or.inl ⟨hleft, hright⟩⟩
      · exact ⟨j, h2, i, h1, edge, hmem, Or.inr ⟨hleft, hright⟩⟩
    · cases h
  · rintro ⟨i, hi, j, hj, edge, hmem, hedge⟩
    obtain ⟨a, ha, b, hb, -, hleft, hright⟩ := hgood.edges edge hmem
    have hjoins : edge.joins l r = true := by
      rw [edge.joins_iff (by omega) (by omega) hleft hright]
      rcases hedge with ⟨h1, h2⟩ | ⟨h1, h2⟩
      · rw [relBit_injective (hleft.symm.trans h1), relBit_injective (hright.symm.trans h2)]
        exact Or.inl ⟨hi, hj⟩
      · rw [relBit_injective (hleft.symm.trans h1), relBit_injective (hright.symm.trans h2)]
        exact Or.inr ⟨hj, hi⟩
    rw [if_pos ⟨edge, hmem, hjoins⟩]
    rfl

/-- Without an edge between the sets the product is empty. -/
lemma joinLink_getD (hgood : problem.Good) (l r : RelSet) :
    (problem.joinLink l r).getD ⟨1, true⟩ = ⟨crossing problem l r, true⟩ := by
  rw [joinLink_eq hgood]
  split_ifs with hex
  · rfl
  · have hone : crossing problem l r = 1 := by
      refine List.prod_eq_one fun q hq => ?_
      obtain ⟨edge, hmem, rfl⟩ := List.mem_map.mp hq
      exact if_neg fun hjoins => hex ⟨edge, hmem, hjoins⟩
    rw [hone]
    rfl

lemma crossing_nonneg (hchecked : problem.Checked) (l r : RelSet) : 0 ≤ crossing problem l r := by
  refine List.prod_nonneg fun q hq => ?_
  obtain ⟨edge, hmem, rfl⟩ := List.mem_map.mp hq
  split_ifs
  · exact hchecked.selectivity edge hmem
  · exact zero_le_one

/-! ### Edges and two sets -/

/-- An edge inside two sets together is inside one of them or joins them. -/
def Edge.Parted (edge : Edge) (l r : RelSet) : Prop :=
  edge.Inside (l ||| r) → edge.Inside l ∨ edge.Inside r ∨ edge.joins l r = true

instance (edge : Edge) (l r : RelSet) : Decidable (edge.Parted l r) :=
  inferInstanceAs (Decidable (_ → _))

lemma Edge.inside_iff {edge : Edge} {s : RelSet} :
    edge.Inside s ↔ bitSet edge.left ⊆ bitSet s ∧ bitSet edge.right ⊆ bitSet s := by
  rw [Edge.Inside, ← subset_iff_and, bitSet_or, Set.union_subset_iff]

section Proper

variable {edge : Edge} {l r : RelSet}

/-- The edge joins two sets if each of its sides is in one of them. -/
lemma Edge.Proper.joins_iff {n : ℕ} (hcount : n < 64) (h : edge.Proper n) :
    edge.joins l r = true ↔ bitSet edge.left ⊆ bitSet l ∧ bitSet edge.right ⊆ bitSet r ∨
      bitSet edge.left ⊆ bitSet r ∧ bitSet edge.right ⊆ bitSet l := by
  have hsides := h.sides
  rw [bitSet_or, Set.union_subset_iff, subset_relUniverse hcount, subset_relUniverse hcount]
    at hsides
  have hleft := lt_of_le_relUniverse hcount hsides.1
  have hright := lt_of_le_relUniverse hcount hsides.2
  rw [joins, decide_eq_true_iff, and_complement hleft, and_complement hright,
    and_complement hleft, and_complement hright]

/-- An edge is inside one of two disjoint sets, inside the other, or joins them: one of the three
at most. -/
lemma Edge.Proper.exclusive {n : ℕ} (hcount : n < 64) (h : edge.Proper n)
    (hdisj : Disjoint (bitSet l) (bitSet r)) :
    (edge.Inside l → ¬edge.Inside r ∧ edge.joins l r = false) ∧
      (edge.Inside r → edge.joins l r = false) := by
  have hnot : ∀ {a : ℕ}, a ≠ 0 → bitSet a ⊆ bitSet l → ¬bitSet a ⊆ bitSet r := by
    intro a ha hal har
    obtain ⟨i, hi⟩ := bitSet_nonempty ha
    exact Set.disjoint_left.mp hdisj (hal hi) (har hi)
  simp only [Edge.inside_iff, ← Bool.not_eq_true, h.joins_iff hcount]
  refine ⟨fun hl => ⟨fun hr => hnot h.left_ne hl.1 hr.1, ?_⟩, fun hr => ?_⟩
  · rintro (hj | hj)
    · exact hnot h.right_ne hl.2 hj.2
    · exact hnot h.left_ne hl.1 hj.1
  · rintro (hj | hj)
    · exact hnot h.left_ne hj.1 hr.1
    · exact hnot h.right_ne hj.2 hr.2

/-- What joins two sets is inside the two together. -/
lemma Edge.Proper.inside_or {n : ℕ} (hcount : n < 64) (h : edge.Proper n)
    (hparts : edge.Inside l ∨ edge.Inside r ∨ edge.joins l r = true) : edge.Inside (l ||| r) := by
  rw [h.joins_iff hcount] at hparts
  simp only [Edge.inside_iff, bitSet_or] at hparts ⊢
  rcases hparts with h | h | h | h
  · exact ⟨h.1.trans Set.subset_union_left, h.2.trans Set.subset_union_left⟩
  · exact ⟨h.1.trans Set.subset_union_right, h.2.trans Set.subset_union_right⟩
  · exact ⟨h.1.trans Set.subset_union_left, h.2.trans Set.subset_union_right⟩
  · exact ⟨h.1.trans Set.subset_union_right, h.2.trans Set.subset_union_left⟩

/-- No edge is inside a single relation. -/
lemma Edge.Proper.not_inside_relBit {n : ℕ} (h : edge.Proper n) (i : ℕ) :
    ¬edge.Inside (relBit i) := by
  rw [Edge.inside_iff, relBit, bitSet_two_pow]
  rintro ⟨hleft, hright⟩
  obtain ⟨a, ha⟩ := bitSet_nonempty h.left_ne
  obtain ⟨b, hb⟩ := bitSet_nonempty h.right_ne
  have hab : a = b := (hleft ha).trans (hright hb).symm
  exact Set.disjoint_left.mp h.disjoint ha (hab ▸ hb)

end Proper

/-- The edges inside two sets, where each is inside one of them or joins them. -/
lemma inside_or (hchecked : problem.Checked) {l r : RelSet}
    (hdisj : Disjoint (bitSet l) (bitSet r)) (hparted : ∀ edge ∈ problem.edges, edge.Parted l r) :
    inside problem (l ||| r) = inside problem l * inside problem r * crossing problem l r := by
  rw [inside, inside, inside, crossing, ← List.prod_map_mul, ← List.prod_map_mul]
  refine congrArg List.prod (List.map_congr_left fun edge hmem => ?_)
  have hproper := hchecked.edges edge hmem
  obtain ⟨hl, hr⟩ := hproper.exclusive hchecked.relCount_lt hdisj
  by_cases hparts : edge.Inside l ∨ edge.Inside r ∨ edge.joins l r = true
  · rw [if_pos (hproper.inside_or hchecked.relCount_lt hparts)]
    rcases hparts with hin | hin | hjoins
    · obtain ⟨hnot, hjoins⟩ := hl hin
      rw [if_pos hin, if_neg hnot, hjoins, if_neg Bool.false_ne_true, mul_one, mul_one]
    · rw [if_neg fun hin' => (hl hin').1 hin, if_pos hin, hr hin, if_neg Bool.false_ne_true,
        one_mul, mul_one]
    · rw [if_neg fun hin => Bool.false_ne_true ((hl hin).2.symm.trans hjoins),
        if_neg fun hin => Bool.false_ne_true ((hr hin).symm.trans hjoins), if_pos hjoins, one_mul,
        one_mul]
  · rw [if_neg fun hin => hparts (hparted edge hmem hin)]
    simp only [not_or] at hparts
    rw [if_neg hparts.1, if_neg hparts.2.1, if_neg hparts.2.2, one_mul, one_mul]

lemma inside_relBit (hchecked : problem.Checked) (i : ℕ) : inside problem (relBit i) = 1 := by
  refine List.prod_eq_one fun q hq => ?_
  obtain ⟨edge, hmem, rfl⟩ := List.mem_map.mp hq
  exact if_neg ((hchecked.edges edge hmem).not_inside_relBit i)

/-- Edges between single relations are proper. -/
lemma Problem.Good.checked (h : problem.Good) : problem.Checked := by
  refine ⟨h.relCount_lt, h.rels, fun edge hmem => ?_, h.joinable, h.selectivity⟩
  obtain ⟨i, hi, j, hj, hne, hleft, hright⟩ := h.edges edge hmem
  have hcount := h.relCount_lt
  refine ⟨?_, ?_, ?_, ?_⟩
  · rw [hleft]
    exact (Nat.two_pow_pos i).ne'
  · rw [hright]
    exact (Nat.two_pow_pos j).ne'
  · rw [hleft, hright, relBit, relBit, bitSet_two_pow, bitSet_two_pow]
    exact Set.disjoint_singleton.mpr hne
  · rw [hleft, hright, bitSet_or, relBit, relBit, bitSet_two_pow, bitSet_two_pow,
      Set.union_subset_iff, Set.singleton_subset_iff, Set.singleton_subset_iff,
      mem_relUniverse hcount, mem_relUniverse hcount]
    exact ⟨hi, hj⟩

/-- An edge between single relations is never cut. -/
lemma Problem.Good.parted (h : problem.Good) (l r : RelSet) :
    ∀ edge ∈ problem.edges, edge.Parted l r := by
  intro edge hmem hin
  have hcount := h.relCount_lt
  obtain ⟨i, hi, j, hj, -, hleft, hright⟩ := h.edges edge hmem
  have hsub : ∀ s, edge.Inside s ↔ i ∈ bitSet s ∧ j ∈ bitSet s := by
    intro s
    rw [Edge.inside_iff, hleft, hright, relBit, relBit, bitSet_two_pow, bitSet_two_pow,
      Set.singleton_subset_iff, Set.singleton_subset_iff]
  rw [hsub, bitSet_or, Set.mem_union, Set.mem_union] at hin
  rw [hsub, hsub, edge.joins_iff (by omega) (by omega) hleft hright]
  tauto

/-! ### Rows and bytes -/

namespace Tree

lemma joins_leaf {i : ℕ} (hi : i < problem.relCount) : (Tree.leaf i).Joins problem config := by
  refine ⟨List.nodup_singleton i, fun rel hrel => ?_, trivial⟩
  rw [List.mem_singleton.mp hrel]
  exact hi

lemma Joins.left {l r : Tree} (h : (Tree.node l r).Joins problem config) : l.Joins problem config :=
  ⟨(List.nodup_append.mp h.nodup).1, fun rel hrel => h.lt rel (List.mem_append_left _ hrel),
    h.linked.1⟩

lemma Joins.right {l r : Tree} (h : (Tree.node l r).Joins problem config) :
    r.Joins problem config :=
  ⟨(List.nodup_append.mp h.nodup).2.1, fun rel hrel => h.lt rel (List.mem_append_right _ hrel),
    h.linked.2.1⟩

lemma disjoint_of_nodup {l r : Tree} (h : (Tree.node l r).leaves.Nodup) :
    Disjoint (bitSet l.set) (bitSet r.set) := by
  rw [Set.disjoint_left]
  intro i hl hr
  rw [mem_set] at hl hr
  exact (List.nodup_append.mp h).2.2 i hl i hr rfl

lemma Over.left {l r : Tree} (h : (Tree.node l r).Over problem) : l.Over problem :=
  ⟨(List.nodup_append.mp h.nodup).1, fun rel hrel => h.lt rel (List.mem_append_left _ hrel)⟩

lemma Over.right {l r : Tree} (h : (Tree.node l r).Over problem) : r.Over problem :=
  ⟨(List.nodup_append.mp h.nodup).2.1, fun rel hrel => h.lt rel (List.mem_append_right _ hrel)⟩

/-- Two trees without a common relation make a tree. -/
lemma Over.node {l r : Tree} (hl : l.Over problem) (hr : r.Over problem)
    (hdisj : Disjoint (bitSet l.set) (bitSet r.set)) : (Tree.node l r).Over problem := by
  refine ⟨List.nodup_append.mpr ⟨hl.nodup, hr.nodup, ?_⟩, fun rel hrel => ?_⟩
  · rintro i hi _ hi' rfl
    exact Set.disjoint_left.mp hdisj (mem_set.mpr hi) (mem_set.mpr hi')
  · rcases List.mem_append.mp hrel with hrel | hrel
    · exact hl.lt rel hrel
    · exact hr.lt rel hrel

lemma Over.set_le (hcount : problem.relCount < 64) {t : Tree} (h : t.Over problem) :
    t.set ≤ relUniverse problem.relCount := by
  rw [← subset_relUniverse hcount]
  intro i hi
  rw [mem_relUniverse hcount]
  exact h.lt i (mem_set.mp hi)

lemma Joins.over {t : Tree} (h : t.Joins problem config) : t.Over problem := ⟨h.nodup, h.lt⟩

lemma Joins.disjoint {l r : Tree} (h : (Tree.node l r).Joins problem config) :
    Disjoint (bitSet l.set) (bitSet r.set) := disjoint_of_nodup h.nodup

/-- Two trees without a common relation, and with a link between them, can be joined. -/
lemma Joins.node {l r : Tree} (hl : l.Joins problem config) (hr : r.Joins problem config)
    (hdisj : Disjoint (bitSet l.set) (bitSet r.set))
    (hlink : ∃ i ∈ bitSet l.set, ∃ j ∈ bitSet r.set, MayJoin problem config i j) :
    (Tree.node l r).Joins problem config := by
  have hover := hl.over.node hr.over hdisj
  obtain ⟨i, hi, j, hj, hjoin⟩ := hlink
  exact ⟨hover.nodup, hover.lt, hl.linked, hr.linked, i, mem_set.mp hi, j, mem_set.mp hj, hjoin⟩

lemma Joins.link {l r : Tree} (h : (Tree.node l r).Joins problem config) :
    ∃ i ∈ bitSet l.set, ∃ j ∈ bitSet r.set, MayJoin problem config i j := by
  obtain ⟨i, hi, j, hj, hjoin⟩ := h.linked.2.2
  exact ⟨i, mem_set.mpr hi, j, mem_set.mpr hj, hjoin⟩

lemma Joins.swap {l r : Tree} (h : (Tree.node l r).Joins problem config) :
    (Tree.node r l).Joins problem config := by
  obtain ⟨i, hi, j, hj, hjoin⟩ := h.link
  exact h.right.node h.left h.disjoint.symm ⟨j, hj, i, hi, hjoin.symm⟩

/-- Joining other trees of the same sets. -/
lemma Joins.replace {l r l' r' : Tree} (h : (Tree.node l r).Joins problem config)
    (hl : l'.Joins problem config) (hr : r'.Joins problem config) (hsetl : l'.set = l.set)
    (hsetr : r'.set = r.set) : (Tree.node l' r').Joins problem config := by
  refine hl.node hr ?_ ?_
  · rw [hsetl, hsetr]
    exact h.disjoint
  · rw [hsetl, hsetr]
    exact h.link

lemma Joins.set_le (hgood : problem.Good) {t : Tree} (h : t.Joins problem config) :
    t.set ≤ relUniverse problem.relCount :=
  h.over.set_le hgood.relCount_lt

/-- Trees of one set have the same leaves. -/
lemma Joins.perm {t t' : Tree} (h : t.Joins problem config) (h' : t'.Joins problem config)
    (hset : t.set = t'.set) : t.leaves.Perm t'.leaves := by
  rw [List.perm_ext_iff_of_nodup h.nodup h'.nodup]
  intro i
  rw [← mem_set, ← mem_set, hset]

end Tree

/-- The statistics of a relation. -/
def relRows (problem : Problem) (rel : ℕ) : ℚ := (leafBest problem rel).rows

def relWidth (problem : Problem) (rel : ℕ) : ℚ := width (planStats (leafBest problem rel))

lemma leafBest_nonneg (hgood : problem.Checked) (rel : ℕ) :
    0 ≤ (leafBest problem rel).rows ∧ 0 ≤ (leafBest problem rel).bytes := by
  rw [leafBest]
  cases hrel : problem.rels[rel]? with
  | none => exact ⟨le_rfl, le_rfl⟩
  | some stats => exact hgood.rels stats (List.mem_of_getElem? hrel)

lemma rows_node (hgood : problem.Checked) (l r : Tree) :
    ((Tree.node l r).estimate problem).rows =
      max ((l.estimate problem).rows * (r.estimate problem).rows * crossing problem l.set r.set)
        0 := by
  rw [Tree.estimate, ← joinLink_selectivity hgood.joinable]
  rfl

lemma rows_nonneg (hgood : problem.Checked) (t : Tree) : 0 ≤ (t.estimate problem).rows := by
  cases t with
  | leaf rel => exact (leafBest_nonneg hgood rel).1
  | node l r =>
    rw [rows_node hgood]
    exact le_max_right _ _

lemma rows_node_eq_mul (hgood : problem.Checked) (l r : Tree) :
    ((Tree.node l r).estimate problem).rows =
      (l.estimate problem).rows * (r.estimate problem).rows * crossing problem l.set r.set := by
  rw [rows_node hgood, max_eq_left]
  exact mul_nonneg (mul_nonneg (rows_nonneg hgood l) (rows_nonneg hgood r))
    (crossing_nonneg hgood _ _)

/-- The two sets that are joined at each node. -/
def Tree.nodes : Tree → List (RelSet × RelSet)
  | .leaf _ => []
  | .node left right => (left.set, right.set) :: (left.nodes ++ right.nodes)

/-- The rows of a tree that cuts no edge: the rows of its relations times the selectivities of the
edges between them. -/
lemma rows_estimate (hgood : problem.Checked) {t : Tree} (h : t.leaves.Nodup)
    (hparted : ∀ p ∈ t.nodes, ∀ edge ∈ problem.edges, edge.Parted p.1 p.2) :
    (t.estimate problem).rows =
      (t.leaves.map (relRows problem)).prod * inside problem t.set := by
  induction t with
  | leaf rel =>
    rw [Tree.leaves, Tree.set, inside_relBit hgood, List.map_singleton, List.prod_singleton,
      mul_one]
    rfl
  | node l r ihl ihr =>
    have hparts := List.nodup_append.mp h
    rw [Tree.nodes, List.forall_mem_cons, List.forall_mem_append] at hparted
    rw [rows_node_eq_mul hgood, ihl hparts.1 hparted.2.1, ihr hparts.2.1 hparted.2.2, Tree.set,
      inside_or hgood (Tree.disjoint_of_nodup h) hparted.1, Tree.leaves, List.map_append,
      List.prod_append]
    ring

/-- The width of a tree with rows: the widths of its relations. -/
lemma width_estimate (hgood : problem.Checked) {t : Tree} (hrows : 0 < (t.estimate problem).rows) :
    width (planStats (t.estimate problem)) = (t.leaves.map (relWidth problem)).sum := by
  induction t with
  | leaf rel =>
    rw [Tree.leaves, List.map_singleton, List.sum_singleton]
    rfl
  | node l r ihl ihr =>
    have hmul := hrows
    rw [rows_node_eq_mul hgood] at hmul
    -- a product of rows is positive only if its factors are
    have hl : 0 < (l.estimate problem).rows := (rows_nonneg hgood l).lt_of_ne fun h0 => by
      rw [← h0, zero_mul, zero_mul] at hmul
      exact lt_irrefl _ hmul
    have hr : 0 < (r.estimate problem).rows := (rows_nonneg hgood r).lt_of_ne fun h0 => by
      rw [← h0, mul_zero, zero_mul] at hmul
      exact lt_irrefl _ hmul
    have hbytes : ((Tree.node l r).estimate problem).bytes =
      ((Tree.node l r).estimate problem).rows *
        (width (planStats (l.estimate problem)) + width (planStats (r.estimate problem))) := rfl
    rw [Tree.leaves, List.map_append, List.sum_append, ← ihl hl, ← ihr hr, width, planStats,
      if_pos hrows, hbytes, mul_div_cancel_left₀ _ hrows.ne']

/-- The bytes of a join. -/
lemma bytes_node (hgood : problem.Checked) (l r : Tree) :
    ((Tree.node l r).estimate problem).bytes =
      ((Tree.node l r).estimate problem).rows * ((Tree.node l r).leaves.map
        (relWidth problem)).sum := by
  rcases (rows_nonneg hgood (Tree.node l r)).lt_or_eq with hpos | hzero
  · rw [← width_estimate hgood hpos, width, planStats, if_pos hpos, mul_div_cancel₀ _ hpos.ne']
  · have hbytes : ((Tree.node l r).estimate problem).bytes =
      ((Tree.node l r).estimate problem).rows *
        (width (planStats (l.estimate problem)) + width (planStats (r.estimate problem))) := rfl
    rw [hbytes, ← hzero, zero_mul, zero_mul]

/-- **Rows and bytes depend on the set of relations only**, not on the tree. -/
theorem stats_eq (hgood : problem.Good) {t t' : Tree} (h : t.Joins problem config)
    (h' : t'.Joins problem config) (hset : t.set = t'.set) :
    (t.estimate problem).rows = (t'.estimate problem).rows ∧
      (t.estimate problem).bytes = (t'.estimate problem).bytes := by
  have hperm := h.perm h' hset
  have hrows : (t.estimate problem).rows = (t'.estimate problem).rows := by
    rw [rows_estimate hgood.checked h.nodup fun p _ => hgood.parted p.1 p.2,
      rows_estimate hgood.checked h'.nodup fun p _ => hgood.parted p.1 p.2, hset,
      (hperm.map (relRows problem)).prod_eq]
  refine ⟨hrows, ?_⟩
  have hlen := hperm.length_eq
  cases t with
  | leaf rel =>
    cases t' with
    | leaf rel' => rw [relBit_injective hset]
    | node l r =>
      have := l.length_leaves_pos
      have := r.length_leaves_pos
      simp only [Tree.leaves, List.length_append, List.length_singleton] at hlen
      omega
  | node l r =>
    cases t' with
    | leaf rel' =>
      have := l.length_leaves_pos
      have := r.length_leaves_pos
      simp only [Tree.leaves, List.length_append, List.length_singleton] at hlen
      omega
    | node l' r' =>
      rw [bytes_node hgood.checked, bytes_node hgood.checked, hrows,
        (hperm.map (relWidth problem)).sum_eq]

/-! ### Costs -/

/-- The cost of a join: the cheaper side is built. -/
lemma cost_node (hgood : problem.Good) (l r : Tree) :
    (Tree.node l r).cost problem = l.cost problem + r.cost problem +
      min ((l.estimate problem).bytes + (r.estimate problem).rows)
        ((r.estimate problem).bytes + (l.estimate problem).rows) +
      ((Tree.node l r).estimate problem).rows + ((Tree.node l r).estimate problem).bytes := by
  rw [Tree.cost, Tree.estimate, joinLink_getD hgood]
  simp only [estimateJoin, planStats, Tree.cost, true_and]
  split_ifs with hlt
  · rw [min_eq_right hlt.le]
  · rw [min_eq_left (not_lt.mp hlt)]

/-- A tree is not more expensive when its parts are cheaper trees of the same sets. -/
lemma cost_node_le (hgood : problem.Good) {l r l' r' : Tree}
    (h : (Tree.node l r).Joins problem config)
    (h' : (Tree.node l' r').Joins problem config) (hl : l'.set = l.set) (hr : r'.set = r.set)
    (hcostl : l'.cost problem ≤ l.cost problem) (hcostr : r'.cost problem ≤ r.cost problem) :
    (Tree.node l' r').cost problem ≤ (Tree.node l r).cost problem := by
  obtain ⟨hrl, hbl⟩ := stats_eq hgood h'.left h.left hl
  obtain ⟨hrr, hbr⟩ := stats_eq hgood h'.right h.right hr
  obtain ⟨hrn, hbn⟩ := stats_eq hgood h' h (by rw [Tree.set, Tree.set, hl, hr])
  rw [cost_node hgood, cost_node hgood, hrl, hbl, hrr, hbr, hrn, hbn]
  linarith

lemma cost_swap (hgood : problem.Good) {l r : Tree} (h : (Tree.node l r).Joins problem config) :
    (Tree.node r l).cost problem = (Tree.node l r).cost problem := by
  obtain ⟨hrn, hbn⟩ := stats_eq hgood h.swap h (Nat.lor_comm _ _)
  rw [cost_node hgood, cost_node hgood, hrn, hbn, min_comm, add_comm (r.cost problem)]

/-! ### Which sets have a tree -/

/-- The relations of a tree hold together. -/
lemma Tree.Joins.together {t : Tree} (h : t.Joins problem config) :
    Together (MayJoin problem config) (bitSet t.set) := by
  induction t with
  | leaf rel =>
    rw [Tree.set, relBit, bitSet_two_pow]
    exact together_singleton rel
  | node l r ihl ihr =>
    rw [Tree.set, bitSet_or]
    exact (ihl h.left).union (ihr h.right) (fun _ _ => MayJoin.symm) h.link

/-- A set of relations that hold together has a tree: one relation is joined after the
other. -/
lemma exists_joins_of_together {s : RelSet} (hlt : ∀ i ∈ bitSet s, i < problem.relCount)
    (h : Together (MayJoin problem config) (bitSet s)) :
    ∃ t : Tree, t.Joins problem config ∧ t.set = s := by
  induction s using Nat.strong_induction_on with
  | _ s ih =>
    by_cases hnon : (bitSet s).Nontrivial
    · obtain ⟨b, hb, hrest, a, ha, hjoin⟩ :=
        h.exists_split (fun _ _ => MayJoin.symm) (finite_bitSet s) hnon
      have hsub : bitSet (relBit b) ⊆ bitSet s := by
        rw [relBit, bitSet_two_pow, Set.singleton_subset_iff]
        exact hb
      have hdiff : bitSet (s ^^^ relBit b) = bitSet s \ {b} := by
        rw [bitSet_xor hsub, relBit, bitSet_two_pow]
      have hlt' : s ^^^ relBit b < s := by
        refine lt_of_le_of_ne (le_of_subset ?_) fun heq => ?_
        · rw [hdiff]
          exact Set.sdiff_subset
        · rw [heq] at hdiff
          rw [hdiff] at hb
          exact hb.2 rfl
      obtain ⟨t, ht, hset⟩ := ih (s ^^^ relBit b) hlt'
        (fun i hi => hlt i (by rw [hdiff] at hi; exact hi.1)) (by rw [hdiff]; exact hrest)
      have hleaf : (Tree.leaf b).Joins problem config := Tree.joins_leaf (hlt b hb)
      have hone : bitSet (Tree.leaf b).set = {b} := bitSet_two_pow b
      refine ⟨.node t (.leaf b), ht.node hleaf ?_ ?_, ?_⟩
      · rw [hset, hdiff, hone]
        exact Set.disjoint_sdiff_left
      · rw [hset, hdiff, hone]
        exact ⟨a, ha, b, rfl, hjoin⟩
      · refine bitSet_injective ?_
        rw [Tree.set, bitSet_or, hset, hdiff, hone]
        exact Set.sdiff_union_of_subset (Set.singleton_subset_iff.mpr hb)
    · -- a single relation is a leaf
      obtain ⟨i, hi⟩ :=
        (Set.not_nontrivial_iff.mp hnon).eq_empty_or_singleton.resolve_left h.1.ne_empty
      refine ⟨.leaf i, Tree.joins_leaf (hlt i ?_), bitSet_injective ?_⟩
      · rw [hi]
        rfl
      · rw [Tree.set, relBit, bitSet_two_pow, hi]

end PgFusion.JoinOrder

import PgFusion.JoinOrder.Search

/-!
The count before the search: a set is reachable in the count when it has an entry in the search.

* `mem_countedAt`, `ncard_linkedPairs`: which pairs are counted, and how many there are;
* `loops_paired`: the two loops go through the same pairs;
* `count_predicts_search`: the search evaluates what was counted.
-/

namespace PgFusion.JoinOrder

open Fallible Masks

variable {problem : Problem} {config : JoinOrderConfig}

/-! ### The parts of `optimize` -/

/-- What `optimize` does before its loops. -/
def beforeSearch (countElapsed : ℕ → ℕ) (problem : Problem) (config : JoinOrderConfig) :
    Except OptimizeError Unit := do
  validate problem config
  let count ← prepass countElapsed problem config
  refuse (count.exceeded = true) (.budgetExceeded count.pairs config.maxPairs)
  let root := relUniverse problem.relCount
  refuse (connectedSets problem root root = false ∧ config.allowCrossJoins = false)
    .disconnectedGraph

/-- The loops of `count_partitions`. -/
def countLoops (elapsed : ℕ → ℕ) (problem : Problem) (config : JoinOrderConfig) :
    Except OptimizeError (SearchCtx × (RelSet → Bool)) :=
  (List.range' 2 (problem.relCount - 1)).foldlM (fun s width =>
    (List.range' 1 (relUniverse problem.relCount)).foldlM (countSet elapsed problem config width) s)
    (SearchCtx.new config, fun set => decide (∃ rel < problem.relCount, set = relBit rel))

/-- The loops of `optimize`. -/
def searchLoops (elapsed : ℕ → ℕ) (problem : Problem) (config : JoinOrderConfig) :
    Except OptimizeError (SearchCtx × Entries) :=
  (List.range' 2 (problem.relCount - 1)).foldlM (fun s width =>
    (List.range' 1 (relUniverse problem.relCount)).foldlM (costSet elapsed problem config width) s)
    (SearchCtx.new config, leafEntries problem)

lemma optimize_eq (countElapsed elapsed : ℕ → ℕ) :
    optimize countElapsed elapsed problem config = (do
      beforeSearch countElapsed problem config
      let s ← searchLoops elapsed problem config
      refuse (s.2 (relUniverse problem.relCount) = none) .noPlan
      return ⟨relUniverse problem.relCount, s.2⟩) := by
  simp only [optimize, beforeSearch, bind_assoc]
  rfl

lemma countPartitions_eq (elapsed : ℕ → ℕ) :
    countPartitions elapsed problem config = (do
      validate problem config
      let s ← countLoops elapsed problem config
      return ⟨problem.relCount, s.1.pairs, false⟩) := rfl

/-- The pairs that were evaluated before an error of the search. -/
def OptimizeError.pairs : OptimizeError → ℕ
  | .budgetExceeded pairs _ => pairs
  | .timeout pairs => pairs
  | _ => 0

/-- The number of pairs that `optimize` evaluates. -/
def evaluatedPairs (countElapsed elapsed : ℕ → ℕ) (problem : Problem) (config : JoinOrderConfig) :
    ℕ :=
  match beforeSearch countElapsed problem config, searchLoops elapsed problem config with
  | .error _, _ => 0
  | .ok _, .error e => e.pairs
  | .ok _, .ok s => s.1.pairs

/-! ### The two loops side by side -/

/-- Without a timeout the clock does not matter. -/
lemma observePair_eq (elapsed elapsed' : ℕ → ℕ) {ctx : SearchCtx} (h : ctx.timeout = none) :
    ctx.observePair elapsed = ctx.observePair elapsed' := by
  simp only [SearchCtx.observePair, h, Option.not_mem_none, false_and, exists_false, and_false]

lemma observePair_timeout (elapsed : ℕ → ℕ) (ctx : SearchCtx) :
    Outcome (ctx.observePair elapsed) (fun ctx' => ctx'.timeout = ctx.timeout ∧
      ctx'.pairs = min (ctx.pairs + 1) (2 ^ 64 - 1)) fun _ => True := by
  refine ⟨fun ctx' h => ?_, fun _ _ => trivial⟩
  simp only [SearchCtx.observePair, bind_eq_ok, refuse_eq_ok] at h
  obtain ⟨-, -, -, -, h⟩ := h
  obtain rfl := Except.ok.inj h
  exact ⟨rfl, rfl⟩

/-- One observed pair in both loops. -/
lemma observePair_paired (elapsed elapsed' : ℕ → ℕ) {ctx : SearchCtx} (h : ctx.timeout = none) :
    Paired (ctx.observePair elapsed) (ctx.observePair elapsed') fun c c' =>
      c = c' ∧ c.timeout = none := by
  rw [observePair_eq elapsed' elapsed h]
  cases hres : ctx.observePair elapsed with
  | error e => exact Or.inr ⟨e, rfl, rfl⟩
  | ok ctx' => exact .ok ⟨rfl, ((observePair_timeout elapsed ctx).1 ctx' hres).1.trans h⟩

/-- The states of the two loops inside one set. -/
def SplitAlike (config : JoinOrderConfig) (s : SearchCtx × Bool) (t : SearchCtx × Option Best) :
    Prop :=
  s.1 = t.1 ∧ s.1.timeout = none ∧ (config.allowCrossJoins = true → s.2 = t.2.isSome)

/-- The states of the two loops: with cross joins a set is reachable if it has an entry. -/
def LoopsAlike (config : JoinOrderConfig) (s : SearchCtx × (RelSet → Bool))
    (t : SearchCtx × Entries) : Prop :=
  s.1 = t.1 ∧ s.1.timeout = none ∧ (config.allowCrossJoins = true → ∀ set,
    s.2 set = (t.2 set).isSome)

lemma linkOrCross_isSome (left right : RelSet) :
    (linkOrCross problem config left right).isSome =
      ((problem.joinLink left right).isSome || config.allowCrossJoins) := by
  rw [linkOrCross]
  cases problem.joinLink left right <;> cases config.allowCrossJoins <;> rfl

/-- The two closures. -/
lemma split_paired (countElapsed elapsed : ℕ → ℕ) {reachable : RelSet → Bool} {entries : Entries}
    (hknown : config.allowCrossJoins = true → ∀ set, reachable set = (entries set).isSome)
    {s : SearchCtx × Bool} {t : SearchCtx × Option Best} (h : SplitAlike config s t)
    (left right : RelSet) :
    Paired (countSplit countElapsed problem config reachable s left right)
      (costSplit elapsed problem config entries t left right) (SplitAlike config) := by
  obtain ⟨hctx, htime, hfound⟩ := h
  have hready : sidesReady problem config reachable left right =
      sidesReady problem config (fun set => (entries set).isSome) left right := by
    rw [sidesReady, sidesReady]
    split_ifs with hcross
    · rw [hknown hcross, hknown hcross]
    · rfl
  have hlink : (linkOrCross problem config left right).isSome =
      ((problem.joinLink left right).isSome || config.allowCrossJoins) :=
        linkOrCross_isSome left right
  rw [countSplit, costSplit, hready, ← hlink]
  split_ifs with hnot hsome
  · exact .ok ⟨hctx, htime, hfound⟩
  · obtain ⟨link, hlinkeq⟩ := Option.isSome_iff_exists.mp hsome
    rw [hlinkeq, ← hctx]
    refine (observePair_paired countElapsed elapsed htime).bind fun c c' hc => ?_
    obtain ⟨rfl, htime'⟩ := hc
    cases hleft : entries left with
    | none =>
      refine .ok ⟨rfl, htime', fun hcross => ?_⟩
      rw [sidesReady, if_pos hcross, hleft] at hnot
      exact absurd rfl hnot
    | some leftBest =>
      cases hright : entries right with
      | none =>
        refine .ok ⟨rfl, htime', fun hcross => ?_⟩
        rw [sidesReady, if_pos hcross, hright, Option.isSome_none, Bool.and_false] at hnot
        exact absurd rfl hnot
      | some rightBest =>
        dsimp only
        split_ifs with hcheaper
        · exact .ok ⟨rfl, htime', fun _ => rfl⟩
        · refine .ok ⟨rfl, htime', fun _ => ?_⟩
          -- without an entry so far the candidate is taken
          cases hcur : t.2 with
          | none =>
            rw [hcur] at hcheaper
            exact absurd rfl hcheaper
          | some current => rfl
  · rw [Bool.not_eq_true, Option.isSome_eq_false_iff, Option.isNone_iff_eq_none] at hsome
    rw [hsome]
    exact .ok ⟨hctx, htime, hfound⟩

/-- The two bodies of the inner loops. -/
lemma set_paired (countElapsed elapsed : ℕ → ℕ) (width : ℕ) {s : SearchCtx × (RelSet → Bool)}
    {t : SearchCtx × Entries} (h : LoopsAlike config s t) (set : RelSet) :
    Paired (countSet countElapsed problem config width s set)
      (costSet elapsed problem config width t set) (LoopsAlike config) := by
  rw [countSet, costSet]
  dsimp only
  simp only [and_comm (a := config.allowCrossJoins = false)]
  split_ifs
  · exact .ok h
  · exact .ok h
  · refine Paired.bind (R := SplitAlike config) ?_ fun r r' hr =>
      .ok ⟨hr.1, hr.2.1, fun hcross u => ?_⟩
    · exact Paired.foldlM (fun s t p hst => split_paired countElapsed elapsed h.2.2 hst p.1 p.2) _
        ⟨h.1, h.2.1, fun _ => rfl⟩
    · dsimp only
      by_cases heq : u = set
      · rw [heq, Function.update_self, Function.update_self]
        exact hr.2.2 hcross
      · rw [Function.update_of_ne heq, Function.update_of_ne heq]
        exact h.2.2 hcross u

/-- **The two loops observe the same pairs.** -/
theorem loops_paired (problem : Problem) (countElapsed elapsed : ℕ → ℕ)
    (htimeout : config.timeout = none) :
    Paired (countLoops countElapsed problem config) (searchLoops elapsed problem config)
      (LoopsAlike config) := by
  refine Paired.foldlM (fun s t width hst => ?_) _ ⟨rfl, htimeout, fun _ set => ?_⟩
  · exact Paired.foldlM (fun s t set hst => set_paired countElapsed elapsed width hst set) _ hst
  · rw [Bool.eq_iff_iff, decide_eq_true_iff, Option.isSome_iff_exists]
    constructor
    · rintro ⟨rel, hrel, rfl⟩
      exact ⟨_, leafEntries_eq_some.mpr ⟨rel, hrel, rfl, rfl⟩⟩
    · rintro ⟨b, hb⟩
      obtain ⟨i, hi, hset, -⟩ := leafEntries_eq_some.mp hb
      exact ⟨i, hi, hset⟩

/-! ### Pairs of connected sets -/

/-- Two disjoint connected sets of relations, connected together, with an edge that links them. -/
structure LinkedPair (problem : Problem) (l r : RelSet) : Prop where
  left_ne : l ≠ 0
  right_ne : r ≠ 0
  disjoint : l &&& r = 0
  le : l ||| r ≤ relUniverse problem.relCount
  left : isConnected problem l = true
  right : isConnected problem r = true
  union : isConnected problem (l ||| r) = true
  edge : ∃ edge ∈ problem.edges, edge.joins l r = true

/-- The unordered pairs. -/
def linkedPairs (problem : Problem) : Set (Sym2 RelSet) :=
  {p | ∃ l r, p = s(l, r) ∧ LinkedPair problem l r}

/-- The split is counted, without cross joins. -/
def counted (problem : Problem) (p : RelSet × RelSet) : Bool :=
  let connected := connectedSets problem (relUniverse problem.relCount)
  connected p.1 && connected p.2 && (problem.joinLink p.1 p.2).isSome

/-- The splits of a set that are counted. -/
def countedAt (problem : Problem) (s : RelSet) : List (RelSet × RelSet) :=
  if connectedSets problem (relUniverse problem.relCount) s then (splits s).filter (counted problem)
  else []

lemma LinkedPair.symm {l r : RelSet} (h : LinkedPair problem l r) : LinkedPair problem r l := by
  obtain ⟨edge, hmem, hjoins⟩ := h.edge
  refine ⟨h.right_ne, h.left_ne, Nat.land_comm r l ▸ h.disjoint, Nat.lor_comm r l ▸ h.le,
    h.right, h.left, Nat.lor_comm r l ▸ h.union, edge, hmem, ?_⟩
  rw [Edge.joins, decide_eq_true_iff] at hjoins ⊢
  exact hjoins.symm

lemma connectedSets_eq_true {s : RelSet} (h0 : s ≠ 0) (hle : s ≤ relUniverse problem.relCount) :
    connectedSets problem (relUniverse problem.relCount) s = isConnected problem s := by
  rw [connectedSets, if_pos ⟨Nat.one_le_iff_ne_zero.mpr h0, hle⟩]

section Counting

variable (hcount : problem.relCount < 64)
  (hkind : ∀ edge ∈ problem.edges, edge.isInnerOrCross = true)

include hcount hkind

/-- What is counted of a set. -/
lemma mem_countedAt {s : RelSet} (h0 : s ≠ 0) (hle : s ≤ relUniverse problem.relCount)
    {p : RelSet × RelSet} :
    p ∈ countedAt problem s ↔ p ∈ splits s ∧ p.1 ||| p.2 = s ∧ LinkedPair problem p.1 p.2 := by
  have hlt := lt_of_le_relUniverse hcount hle
  have hlink : (problem.joinLink p.1 p.2).isSome = true ↔ ∃ edge ∈ problem.edges,
    edge.joins p.1 p.2 = true := by
    rw [joinLink_isSome_eq, List.any_eq_true]
    refine exists_congr fun edge => and_congr_right fun hmem => ?_
    rw [hkind edge hmem, Bool.true_and]
  have hparts : ∀ {a b : RelSet}, a ||| b = s → a ≤ relUniverse problem.relCount := fun {a b} hor =>
    (le_of_subset (by rw [← hor, bitSet_or]; exact Set.subset_union_left)).trans hle
  rw [countedAt, connectedSets_eq_true h0 hle]
  constructor
  · intro hp
    split_ifs at hp with hconn
    · obtain ⟨hsplit, hcounted⟩ := List.mem_filter.mp hp
      obtain ⟨h1, h2, hdisj, hor⟩ := splits_sound h0 hlt hsplit
      rw [counted, connectedSets_eq_true h1 (hparts hor),
        connectedSets_eq_true h2 (hparts ((Nat.lor_comm _ _).trans hor)), Bool.and_eq_true,
        Bool.and_eq_true, hlink] at hcounted
      exact ⟨hsplit, hor, h1, h2, disjoint_iff_and.mp hdisj, hor.symm ▸ hle, hcounted.1.1,
        hcounted.1.2, hor.symm ▸ hconn, hcounted.2⟩
    · exact absurd hp List.not_mem_nil
  · rintro ⟨hsplit, hor, h⟩
    rw [if_pos (hor ▸ h.union), List.mem_filter, counted,
      connectedSets_eq_true h.left_ne (hparts hor),
      connectedSets_eq_true h.right_ne (hparts ((Nat.lor_comm _ _).trans hor)), h.left, h.right,
      hlink.mpr h.edge]
    exact ⟨hsplit, rfl⟩

/-- The counted splits of a set are different pairs. -/
lemma nodup_countedAt {s : RelSet} (h0 : s ≠ 0) (hle : s ≤ relUniverse problem.relCount) :
    ((countedAt problem s).map fun p => s(p.1, p.2)).Nodup := by
  have hsplits : (splits s).Nodup := by
    refine (nodup_subMasks s s _).filterMap fun l l' p hl hl' => ?_
    rw [Option.mem_def] at hl hl'
    split_ifs at hl hl'
    exact (congrArg Prod.fst (Option.some.inj hl)).trans
      (congrArg Prod.fst (Option.some.inj hl')).symm
  have hnodup : (countedAt problem s).Nodup := by
    rw [countedAt]
    split_ifs
    · exact hsplits.filter _
    · exact List.nodup_nil
  refine List.Nodup.map_on (fun p hp q hq heq => ?_) hnodup
  obtain ⟨hp, -, hpair⟩ := (mem_countedAt hcount hkind h0 hle).mp hp
  obtain ⟨hq, -, -⟩ := (mem_countedAt hcount hkind h0 hle).mp hq
  rcases Sym2.eq_iff.mp heq with ⟨h1, h2⟩ | ⟨h1, h2⟩
  · exact Prod.ext h1 h2
  · -- the lowest relation would be on both sides
    obtain ⟨i, -, hi⟩ := exists_lowestBit h0 (lt_of_le_relUniverse hcount hle)
    have hip := ((mem_splits h0 hi).mp hp).1
    have hiq := ((mem_splits h0 hi).mp hq).1
    rw [← h2] at hiq
    exact absurd hiq (Set.disjoint_left.mp (disjoint_iff_and.mpr hpair.disjoint) hip)

/-- **The unordered pairs, by their union.** -/
theorem ncard_linkedPairs :
    (linkedPairs problem).ncard =
      ∑ s ∈ Finset.Ico 1 (1 + relUniverse problem.relCount), (countedAt problem s).length := by
  classical
  have hrange : ∀ s ∈ Finset.Ico 1 (1 + relUniverse problem.relCount),
      s ≠ 0 ∧ s ≤ relUniverse problem.relCount := fun s hs => by
    obtain ⟨h1, hle⟩ := Finset.mem_Ico.mp hs
    exact ⟨Nat.one_le_iff_ne_zero.mp h1, Nat.lt_one_add_iff.mp hle⟩
  have hset : linkedPairs problem = ((Finset.Ico 1 (1 + relUniverse problem.relCount)).biUnion
      fun s => ((countedAt problem s).map fun p => s(p.1, p.2)).toFinset :
        Finset (Sym2 RelSet)) := by
    ext x
    simp only [Finset.coe_biUnion, Set.mem_iUnion, Finset.mem_coe, List.mem_toFinset, List.mem_map,
      exists_prop]
    constructor
    · rintro ⟨l, r, rfl, h⟩
      have hne : l ||| r ≠ 0 := fun h0 => h.left_ne (Nat.or_eq_zero_iff.mp h0).1
      have hs : l ||| r ∈ Finset.Ico 1 (1 + relUniverse problem.relCount) :=
        Finset.mem_Ico.mpr ⟨Nat.one_le_iff_ne_zero.mpr hne, Nat.lt_one_add_iff.mpr h.le⟩
      refine ⟨l ||| r, hs, ?_⟩
      rcases splits_complete (lt_of_le_relUniverse hcount h.le) h.left_ne h.right_ne
        (disjoint_iff_and.mpr h.disjoint) rfl with hmem | hmem
      · exact ⟨(l, r), (mem_countedAt hcount hkind hne h.le).mpr ⟨hmem, rfl, h⟩, rfl⟩
      · exact ⟨(r, l), (mem_countedAt hcount hkind hne h.le).mpr ⟨hmem, Nat.lor_comm r l, h.symm⟩,
          Sym2.eq_swap⟩
    · rintro ⟨s, hs, p, hp, rfl⟩
      obtain ⟨-, -, h⟩ := (mem_countedAt hcount hkind (hrange s hs).1 (hrange s hs).2).mp hp
      exact ⟨p.1, p.2, rfl, h⟩
  rw [hset, Set.ncard_coe_finset, Finset.card_biUnion]
  · refine Finset.sum_congr rfl fun s hs => ?_
    rw [List.toFinset_card_of_nodup (nodup_countedAt hcount hkind (hrange s hs).1 (hrange s hs).2),
      List.length_map]
  · -- a pair has one union
    intro s hs s' hs' hne
    refine Finset.disjoint_left.mpr fun x hx hx' => ?_
    rw [List.mem_toFinset, List.mem_map] at hx hx'
    obtain ⟨p, hp, rfl⟩ := hx
    obtain ⟨q, hq, heq⟩ := hx'
    obtain ⟨-, hpor, -⟩ := (mem_countedAt hcount hkind (hrange s hs).1 (hrange s hs).2).mp hp
    obtain ⟨-, hqor, -⟩ := (mem_countedAt hcount hkind (hrange s' hs').1 (hrange s' hs').2).mp hq
    refine hne ?_
    rw [← hpor, ← hqor]
    rcases Sym2.eq_iff.mp heq with ⟨h1, h2⟩ | ⟨h1, h2⟩
    · rw [h1, h2]
    · rw [h1, h2, Nat.lor_comm]

end Counting

/-! ### The counter -/

/-- The counter after `k` pairs: it stops at the largest `u64`. -/
def Counts (k : ℕ) (ctx : SearchCtx) : Prop := ctx.pairs = min k (2 ^ 64 - 1)

lemma countSplit_counts (problem : Problem) (elapsed : ℕ → ℕ)
    (hcross : config.allowCrossJoins = false)
    (reachable : RelSet → Bool) {s : SearchCtx × Bool} {k : ℕ} (h : Counts k s.1)
    (p : RelSet × RelSet) :
    Outcome (countSplit elapsed problem config reachable s p.1 p.2)
      (fun s => Counts (k + if counted problem p then 1 else 0) s.1) fun _ => True := by
  have hready : sidesReady problem config reachable p.1 p.2 =
      (connectedSets problem (relUniverse problem.relCount) p.1 &&
        connectedSets problem (relUniverse problem.relCount) p.2) := by
    rw [sidesReady, hcross]
    rfl
  rw [countSplit, hready, counted, hcross, Bool.or_false]
  cases connectedSets problem (relUniverse problem.relCount) p.1 &&
      connectedSets problem (relUniverse problem.relCount) p.2 with
  | false => exact .ok h
  | true =>
    cases (problem.joinLink p.1 p.2).isSome with
    | false => exact .ok h
    | true =>
      refine (observePair_timeout elapsed s.1).bind fun ctx hctx => .ok ?_
      rw [Counts] at h ⊢
      rw [hctx.2, h]
      simp only [Bool.and_self, if_true]
      omega

lemma countSet_counts (problem : Problem) (elapsed : ℕ → ℕ)
    (hcross : config.allowCrossJoins = false) (width : ℕ)
    {s : SearchCtx × (RelSet → Bool)} {k : ℕ} (h : Counts k s.1) (set : RelSet) :
    Outcome (countSet elapsed problem config width s set)
      (fun s => Counts (k + if countOnes set = width then (countedAt problem set).length
        else 0) s.1)
      fun _ => True := by
  rw [countSet, hcross]
  dsimp only
  by_cases hones : countOnes set = width
  · rw [if_neg (not_not.mpr hones), if_pos hones, countedAt]
    cases connectedSets problem (relUniverse problem.relCount) set with
    | false => exact .ok h
    | true =>
      simp only [Bool.true_eq_false, and_false, if_false, if_true]
      refine Outcome.bind (P := fun r : SearchCtx × Bool =>
        Counts (k + ((splits set).filter (counted problem)).length) r.1) ?_ fun r hr => .ok hr
      refine Outcome.foldlM (fun done (r : SearchCtx × Bool) =>
        Counts (k + (done.filter (counted problem)).length) r.1) h fun done p rest r _ hr => ?_
      have hstep := countSplit_counts problem elapsed hcross s.2 hr p
      rw [List.filter_append, List.length_append, ← Nat.add_assoc]
      cases hp : counted problem p with
      | false =>
        rw [hp] at hstep
        rw [List.filter_cons_of_neg (by rw [hp]; exact Bool.false_ne_true)]
        exact hstep
      | true =>
        rw [hp] at hstep
        rw [List.filter_cons_of_pos hp]
        exact hstep
  · rw [if_pos hones, if_neg hones]
    exact .ok h

/-- The counter after all loops. -/
lemma countLoops_counts (elapsed : ℕ → ℕ) (hcross : config.allowCrossJoins = false)
    (hpos : 0 < problem.relCount) (hcount : problem.relCount < 64)
    (hkind : ∀ edge ∈ problem.edges, edge.isInnerOrCross = true) :
    Outcome (countLoops elapsed problem config) (fun s => Counts (linkedPairs problem).ncard s.1)
      fun _ => True := by
  -- the sets of fewer relations than `width` are counted
  have hloop := Outcome.foldlM_range' (f := fun s width =>
      (List.range' 1 (relUniverse problem.relCount)).foldlM (countSet elapsed problem config width)
        s)
    (fun width (s : SearchCtx × (RelSet → Bool)) =>
      Counts (∑ set ∈ Finset.Ico 1 (1 + relUniverse problem.relCount),
        if countOnes set < width then (countedAt problem set).length else 0) s.1)
    (Q := fun _ => True) (a := 2) (n := problem.relCount - 1)
    (s := (SearchCtx.new config, fun set => decide (∃ rel < problem.relCount, set = relBit rel))) ?_
      ?_
  · have hlen : 2 + (problem.relCount - 1) = problem.relCount + 1 := by omega
    rw [hlen] at hloop
    refine ⟨fun s hs => ?_, fun _ _ => trivial⟩
    have hend := hloop.1 s hs
    rwa [Finset.sum_congr rfl fun set hset => if_pos (?_ : countOnes set < problem.relCount + 1),
      ← ncard_linkedPairs hcount hkind] at hend
    have hle := Nat.lt_one_add_iff.mp (Finset.mem_Ico.mp hset).2
    have hsub := (subset_relUniverse hcount).mpr hle
    have := ones_le_ones (lt_of_le_relUniverse hcount le_rfl) hsub
    exact Nat.lt_succ_of_le (this.trans (countOnes_relUniverse hcount))
  · rw [Finset.sum_eq_zero]
    · rfl
    · intro set hset
      split_ifs with hones
      · obtain ⟨h1, hle⟩ := Finset.mem_Ico.mp hset
        have h0 := Nat.one_le_iff_ne_zero.mp h1
        have hlt := lt_of_le_relUniverse hcount (Nat.lt_one_add_iff.mp hle)
        rw [List.length_eq_zero_iff, List.eq_nil_iff_forall_not_mem]
        intro p hp
        obtain ⟨hsplit, -, -⟩ := (mem_countedAt hcount hkind h0 (Nat.lt_one_add_iff.mp hle)).mp hp
        obtain ⟨hl, hr, hdisj, hor⟩ := splits_sound h0 hlt hsplit
        -- a set with two parts has two relations
        have hsub : ∀ {a b : RelSet}, b ≠ 0 → Disjoint (bitSet a) (bitSet b) → a ||| b = set →
            ones 64 a < ones 64 set := by
          intro a b hb hab hab'
          refine ones_lt_ones hlt (by rw [← hab', bitSet_or]; exact Set.subset_union_left) ?_
          rintro rfl
          obtain ⟨i, hi⟩ := bitSet_nonempty hb
          exact Set.disjoint_right.mp hab hi (by rw [← hab', bitSet_or]; exact Or.inr hi)
        have hsmall := hsub hr hdisj hor
        have hpart : ones 64 0 < ones 64 p.1 :=
          ones_lt_ones (lt_of_le_of_lt
            (le_of_subset (by rw [← hor, bitSet_or]; exact Set.subset_union_left)) hlt)
            (bitSet_zero ▸ Set.empty_subset _) hl.symm
        rw [countOnes] at hones
        omega
      · rfl
  · intro width s _ _ hs
    have hsets := Outcome.foldlM_range' (f := countSet elapsed problem config width)
      (fun next (s' : SearchCtx × (RelSet → Bool)) =>
        Counts ((∑ set ∈ Finset.Ico 1 (1 + relUniverse problem.relCount),
            if countOnes set < width then (countedAt problem set).length else 0) +
          ∑ set ∈ Finset.Ico 1 next, if countOnes set = width then (countedAt problem set).length
            else 0) s'.1)
      (Q := fun _ => True) (a := 1) (n := relUniverse problem.relCount) (s := s) ?_ ?_
    · refine ⟨fun s' hs' => ?_, fun _ _ => trivial⟩
      have hend := hsets.1 s' hs'
      rw [← Finset.sum_add_distrib] at hend
      rwa [Finset.sum_congr rfl fun set _ => ?_] at hend
      by_cases hlt : countOnes set < width
      · rw [if_pos hlt, if_neg hlt.ne, if_pos (Nat.lt_succ_of_lt hlt), Nat.add_zero]
      · rw [if_neg hlt, Nat.zero_add]
        refine if_congr ⟨fun heq => heq ▸ Nat.lt_succ_self _, fun hle => ?_⟩ rfl rfl
        exact Nat.le_antisymm (Nat.le_of_lt_succ hle) (not_lt.mp hlt)
    · rw [Finset.Ico_self, Finset.sum_empty, Nat.add_zero]
      exact hs
    · intro set s' hset _ hs'
      have hstep := countSet_counts problem elapsed hcross width hs' set
      rwa [Nat.add_assoc, ← Finset.sum_Ico_succ_top hset] at hstep

/-! ### The count and the search -/

/-- **The count predicts the search.** When the search is entered, it evaluates as many pairs as
were counted; it is not entered if the graph is disconnected and cross joins are disallowed. It
never exceeds the budget. Without cross joins the count is the number of linked pairs, as far as a
`u64` goes. -/
theorem count_predicts_search (countElapsed elapsed : ℕ → ℕ) (problem : Problem)
    (config : JoinOrderConfig) (htimeout : config.timeout = none) (result : CountResult)
    (hresult : countPartitions countElapsed problem config = .ok result) :
    (config.allowCrossJoins = true ∨ connectedSets problem (relUniverse problem.relCount)
        (relUniverse problem.relCount) = true →
      evaluatedPairs countElapsed elapsed problem config = result.pairs) ∧
    (connectedSets problem (relUniverse problem.relCount) (relUniverse problem.relCount) = false ∧
        config.allowCrossJoins = false →
      evaluatedPairs countElapsed elapsed problem config = 0 ∧
        optimize countElapsed elapsed problem config = .error .disconnectedGraph) ∧
    (∀ pairs maxPairs,
      optimize countElapsed elapsed problem config ≠ .error (.budgetExceeded pairs maxPairs)) ∧
    (config.allowCrossJoins = false →
      result.pairs = min (linkedPairs problem).ncard (2 ^ 64 - 1)) := by
  have hparts := hresult
  rw [countPartitions_eq] at hparts
  simp only [bind_eq_ok] at hparts
  obtain ⟨⟨⟩, hvalid, s, hcounted, hs⟩ := hparts
  obtain rfl := Except.ok.inj hs
  obtain ⟨hpos, hcount, -, hedges⟩ := validate_facts hvalid
  -- the search ends with the same counter
  obtain ⟨_, t, hok, hsearch, halike⟩ | ⟨e, herror, -⟩ :=
    loops_paired problem countElapsed elapsed htimeout
  · rw [Except.ok.inj (hok.symm.trans hcounted)] at halike
    have hbefore : beforeSearch countElapsed problem config =
        refuse (connectedSets problem (relUniverse problem.relCount)
          (relUniverse problem.relCount) = false ∧
          config.allowCrossJoins = false) .disconnectedGraph := by
      rw [beforeSearch, hvalid, ok_bind, prepass, hresult]
      rfl
    have hdisconnected : connectedSets problem (relUniverse problem.relCount)
      (relUniverse problem.relCount) = false ∧
        config.allowCrossJoins = false →
        evaluatedPairs countElapsed elapsed problem config = 0 ∧
          optimize countElapsed elapsed problem config = .error .disconnectedGraph := by
      intro h
      rw [refuse_of_pos h] at hbefore
      rw [evaluatedPairs, optimize_eq, hbefore]
      exact ⟨rfl, rfl⟩
    refine ⟨fun h => ?_, hdisconnected, fun pairs maxPairs herr => ?_, fun hcross => ?_⟩
    · have hnot : ¬ (connectedSets problem (relUniverse problem.relCount)
        (relUniverse problem.relCount) = false ∧
          config.allowCrossJoins = false) := by
        rintro ⟨h1, h2⟩
        rw [h1, h2] at h
        exact h.elim Bool.false_ne_true Bool.false_ne_true
      rw [refuse_of_not hnot] at hbefore
      rw [evaluatedPairs, hbefore, hsearch]
      exact congrArg SearchCtx.pairs halike.1.symm
    · by_cases h : connectedSets problem (relUniverse problem.relCount)
        (relUniverse problem.relCount) = false ∧
          config.allowCrossJoins = false
      · rw [(hdisconnected h).2] at herr
        cases herr
      · rw [refuse_of_not h] at hbefore
        rw [optimize_eq, hbefore, hsearch, ok_bind, ok_bind, refuse] at herr
        split_ifs at herr <;> cases herr
    · exact (countLoops_counts countElapsed hcross hpos hcount fun edge hmem =>
        (hedges edge hmem).1).1 s hcounted
  · rw [hcounted] at herror
    cases herror

theorem count_predicts_search_chain :
    countPartitions (fun _ => 0) chainProblem patientConfig = .ok ⟨3, 4, false⟩ ∧
      evaluatedPairs (fun _ => 0) (fun _ => 0) chainProblem patientConfig = 4 ∧
      min (linkedPairs chainProblem).ncard (2 ^ 64 - 1) = 4 := by
  have hresult : countPartitions (fun _ => 0) chainProblem patientConfig = .ok ⟨3, 4, false⟩ := by
    decide +kernel
  obtain ⟨hpairs, -, -, hnumber⟩ :=
    count_predicts_search (fun _ => 0) (fun _ => 0) chainProblem patientConfig rfl _ hresult
  exact ⟨hresult, hpairs (Or.inr (by decide +kernel)), (hnumber rfl).symm⟩

/-- Three relations with an edge between the first two. -/
def splitProblem : Problem where
  rels := [⟨10, 80⟩, ⟨1000, 8000⟩, ⟨5, 40⟩]
  edges := [⟨relBit 0, relBit 1, 0, 1, .inner, 1, 1 / 10⟩]
  edgePreds := [0]

/-- One pair is counted, but the graph is disconnected and the search is not entered. -/
theorem counted_pair_not_evaluated :
    validate splitProblem patientConfig = .ok () ∧ patientConfig.timeout = none ∧
      countPartitions (fun _ => 0) splitProblem patientConfig = .ok ⟨3, 1, false⟩ ∧
      evaluatedPairs (fun _ => 0) (fun _ => 0) splitProblem patientConfig = 0 := by
  decide +kernel

end PgFusion.JoinOrder

import Mathlib.Tactic
import PgFusion.JoinOrder.Graph

/-!
The table of the optimizer, set after set: a set is `Done` when its entry is that of a cheapest tree
over it whose parts are in the table too, or when there is no tree.

* `done_update`: one set after the other is done;
* `optimize_outcome`, `optimize_optimal`: a plan of least cost is returned exactly if there is one.
-/

namespace PgFusion.JoinOrder

open Fallible Masks

variable {problem : Problem} {config : JoinOrderConfig}

/-! ### Pairs -/

/-- A context with the limits of the configuration. -/
def SearchCtx.Of (config : JoinOrderConfig) (ctx : SearchCtx) : Prop :=
  ctx.maxPairs = config.maxPairs ∧ ctx.timeout = config.timeout

/-- The errors of a search that is cut short: too many pairs, which cannot be with the largest
budget of a `u64`, or too much time. -/
def Interrupted (config : JoinOrderConfig) (e : OptimizeError) : Prop :=
  (∃ pairs, e = .budgetExceeded pairs config.maxPairs ∧ config.maxPairs < 2 ^ 64 - 1) ∨
    ∃ pairs, e = .timeout pairs ∧ config.timeout ≠ none

lemma observePair_outcome (elapsed : ℕ → ℕ) {ctx : SearchCtx} (h : ctx.Of config) :
    Outcome (ctx.observePair elapsed) (SearchCtx.Of config) (Interrupted config) := by
  rw [SearchCtx.observePair, h.1, h.2]
  by_cases hbudget : config.maxPairs < min (ctx.pairs + 1) (2 ^ 64 - 1)
  · rw [refuse_of_pos hbudget]
    exact .error (Or.inl ⟨_, rfl, lt_of_lt_of_le hbudget (min_le_right _ _)⟩)
  · rw [refuse_of_not hbudget, ok_bind]
    by_cases htime : min (ctx.pairs + 1) (2 ^ 64 - 1) % timeoutCheckInterval = 0 ∧
        ∃ timeout ∈ config.timeout, timeout ≤ elapsed (min (ctx.pairs + 1) (2 ^ 64 - 1))
    · rw [refuse_of_pos htime]
      obtain ⟨-, timeout, hmem, -⟩ := htime
      exact .error (Or.inr ⟨_, rfl, fun hnone => by rw [hnone] at hmem; cases hmem⟩)
    · rw [refuse_of_not htime]
      exact .ok ⟨rfl, rfl⟩

/-! ### The count -/

lemma countSplit_outcome (elapsed : ℕ → ℕ) {reachable : RelSet → Bool} {s : SearchCtx × Bool}
    (h : s.1.Of config) (left right : RelSet) :
    Outcome (countSplit elapsed problem config reachable s left right) (fun s => s.1.Of config)
      (Interrupted config) := by
  rw [countSplit]
  split_ifs
  · exact .ok h
  · exact (observePair_outcome elapsed h).bind fun ctx hctx => .ok hctx
  · exact .ok h

lemma countSet_outcome (elapsed : ℕ → ℕ) (width : ℕ) {s : SearchCtx × (RelSet → Bool)}
    (h : s.1.Of config) (set : RelSet) :
    Outcome (countSet elapsed problem config width s set) (fun s => s.1.Of config)
      (Interrupted config) := by
  rw [countSet]
  split_ifs
  · exact .ok h
  · exact .ok h
  · refine Outcome.bind (P := fun r : SearchCtx × Bool => r.1.Of config) ?_ fun r hr => .ok hr
    exact Outcome.foldlM (fun _ (r : SearchCtx × Bool) => r.1.Of config) h fun _ p _ r _ hr =>
      countSplit_outcome elapsed hr _ _

/-- The count ends, unless it is cut short. -/
lemma countPartitions_outcome (elapsed : ℕ → ℕ) (hvalid : validate problem config = .ok ()) :
    Outcome (countPartitions elapsed problem config) (fun result => result.exceeded = false)
      (Interrupted config) := by
  rw [countPartitions, hvalid, ok_bind]
  refine Outcome.bind (P := fun r : SearchCtx × (RelSet → Bool) => r.1.Of config) ?_ fun r _ =>
    .ok rfl
  refine Outcome.foldlM (fun _ (r : SearchCtx × (RelSet → Bool)) => r.1.Of config) ⟨rfl, rfl⟩
    fun _ width _ r _ hr => ?_
  exact Outcome.foldlM (fun _ (r : SearchCtx × (RelSet → Bool)) => r.1.Of config) hr
    fun _ set _ r _ hr => countSet_outcome elapsed width hr set

lemma prepass_outcome (elapsed : ℕ → ℕ) (hvalid : validate problem config = .ok ()) :
    Outcome (prepass elapsed problem config) (fun result => result.exceeded = false)
      (Interrupted config) := by
  have hcount := countPartitions_outcome elapsed hvalid
  rw [prepass]
  cases hres : countPartitions elapsed problem config with
  | ok result => exact .ok (hcount.1 result hres)
  | error e =>
    rcases hcount.2 e hres with ⟨pairs, rfl, hmax⟩ | ⟨pairs, rfl, htime⟩
    · exact .error (Or.inl ⟨pairs, rfl, hmax⟩)
    · exact .error (Or.inr ⟨pairs, rfl, htime⟩)

/-! ### Trees in the table -/

/-- The entries at the nodes of a tree are those of the tree. -/
def Tree.Follows (problem : Problem) (entries : Entries) : Tree → Prop
  | .leaf rel => entries (relBit rel) = some (leafBest problem rel)
  | .node left right =>
    entries (left.set ||| right.set) = some ((Tree.node left right).estimate problem) ∧
      left.Follows problem entries ∧ right.Follows problem entries

variable {t : Tree}

lemma Tree.Follows.entry {entries : Entries} (h : t.Follows problem entries) :
    entries t.set = some (t.estimate problem) := by
  cases t with
  | leaf rel => exact h
  | node l r => exact h.1

/-- Only the entries of parts of the tree matter. -/
lemma Tree.Follows.congr {entries entries' : Entries} (h : t.Follows problem entries)
    (hsame : ∀ s, bitSet s ⊆ bitSet t.set → entries' s = entries s) :
    t.Follows problem entries' := by
  induction t with
  | leaf rel =>
    rw [Tree.Follows, hsame (relBit rel) subset_rfl]
    exact h
  | node l r ihl ihr =>
    have hset : bitSet (Tree.node l r).set = bitSet l.set ∪ bitSet r.set := bitSet_or _ _
    refine ⟨?_, ihl h.2.1 fun s hs => hsame s ?_, ihr h.2.2 fun s hs => hsame s ?_⟩
    · rw [hsame (l.set ||| r.set) subset_rfl]
      exact h.1
    · rw [hset]
      exact hs.trans Set.subset_union_left
    · rw [hset]
      exact hs.trans Set.subset_union_right

/-- A cheapest tree over a set, in the table with all its parts. -/
structure BestTree (problem : Problem) (config : JoinOrderConfig) (entries : Entries) (s : RelSet)
    (t : Tree) : Prop where
  joins : t.Joins problem config
  set : t.set = s
  follows : t.Follows problem entries
  least : ∀ t' : Tree, t'.Joins problem config → t'.set = s → t.cost problem ≤ t'.cost problem

/-- The entry of the set is right. -/
def Done (problem : Problem) (config : JoinOrderConfig) (entries : Entries) (s : RelSet) : Prop :=
  (∃ t, BestTree problem config entries s t) ∨
    (entries s = none ∧ ∀ t : Tree, t.Joins problem config → t.set ≠ s)

lemma Done.of_tree {entries : Entries} {s : RelSet} (h : Done problem config entries s)
    (ht : t.Joins problem config) (hset : t.set = s) : ∃ t, BestTree problem config entries s t :=
  h.resolve_right fun hnone => hnone.2 t ht hset

lemma Done.of_entry {entries : Entries} {s : RelSet} (h : Done problem config entries s) {b : Best}
    (hb : entries s = some b) :
    ∃ t, BestTree problem config entries s t ∧ b = t.estimate problem := by
  rcases h with ⟨t, ht⟩ | ⟨hnone, -⟩
  · refine ⟨t, ht, Option.some.inj ?_⟩
    rw [← hb, ← ht.set]
    exact ht.follows.entry
  · rw [hnone] at hb
    cases hb

/-- A new entry leaves the sets alone that it is no part of. -/
lemma Done.update {entries : Entries} {s s' : RelSet} (h : Done problem config entries s)
    {best : Option Best}
    (hs' : ¬ bitSet s' ⊆ bitSet s) : Done problem config (Function.update entries s' best) s := by
  have hsame : ∀ u, bitSet u ⊆ bitSet s → Function.update entries s' best u = entries u := by
    intro u hu
    refine Function.update_of_ne (fun heq => hs' ?_) _ _
    rw [← heq]
    exact hu
  rcases h with ⟨t, ht⟩ | ⟨hnone, hno⟩
  · exact Or.inl ⟨t, ht.joins, ht.set, ht.follows.congr (ht.set ▸ hsame), ht.least⟩
  · exact Or.inr ⟨(hsame s subset_rfl).trans hnone, hno⟩

/-! ### One set -/

/-- The join that is considered for a split. -/
def candidate (problem : Problem) (config : JoinOrderConfig) (entries : Entries)
    (p : RelSet × RelSet) :
    Option Best :=
  if sidesReady problem config (fun set => (entries set).isSome) p.1 p.2 then
    (linkOrCross problem config p.1 p.2).bind fun link =>
      (entries p.1).bind fun leftBest =>
        (entries p.2).map fun rightBest =>
          estimateJoin p.1 p.2 (planStats leftBest) (planStats rightBest) link
  else none

/-- The cheapest join that is considered for a set. -/
def cheapest (problem : Problem) (config : JoinOrderConfig) (entries : Entries) (s : RelSet) :
    Option Best :=
  ((splits s).filterMap (candidate problem config entries)).argmin Best.cost

/-- One step of `for_each_split` in `optimize` keeps the cheapest candidate. -/
lemma costSplit_outcome (elapsed : ℕ → ℕ) {entries : Entries} {done : List (RelSet × RelSet)}
    {s : SearchCtx × Option Best} (hctx : s.1.Of config)
    (hbest : s.2 = (done.filterMap (candidate problem config entries)).argmin Best.cost)
    (p : RelSet × RelSet) :
    Outcome (costSplit elapsed problem config entries s p.1 p.2)
      (fun s => s.1.Of config ∧
        s.2 = ((done ++ [p]).filterMap (candidate problem config entries)).argmin Best.cost)
      (Interrupted config) := by
  have hskip : candidate problem config entries p = none →
      s.2 = ((done ++ [p]).filterMap (candidate problem config entries)).argmin Best.cost := by
    intro hnone
    rw [List.filterMap_append, List.filterMap_cons_none hnone, List.filterMap_nil, List.append_nil]
    exact hbest
  rw [costSplit]
  cases hready : sidesReady problem config (fun set => (entries set).isSome) p.1 p.2 with
  | false =>
    rw [if_pos rfl]
    exact .ok ⟨hctx, hskip (by rw [candidate, hready]; rfl)⟩
  | true =>
    rw [if_neg nofun]
    cases hlink : linkOrCross problem config p.1 p.2 with
    | none => exact .ok ⟨hctx, hskip (by rw [candidate, hready, hlink]; rfl)⟩
    | some link =>
      refine (observePair_outcome elapsed hctx).bind fun ctx hctx' => ?_
      cases hleft : entries p.1 with
      | none => exact .ok ⟨hctx', hskip (by rw [candidate, hready, hlink, hleft]; rfl)⟩
      | some leftBest =>
        cases hright : entries p.2 with
        | none => exact .ok ⟨hctx', hskip (by rw [candidate, hready, hlink, hleft, hright]; rfl)⟩
        | some rightBest =>
          have hcand : candidate problem config entries p =
              some (estimateJoin p.1 p.2 (planStats leftBest) (planStats rightBest) link) := by
            rw [candidate, hready, hlink, hleft, hright]
            rfl
          dsimp only
          rw [List.filterMap_append, List.filterMap_cons_some hcand, List.filterMap_nil,
            List.argmin_concat, ← hbest]
          -- a new candidate has to be strictly cheaper
          cases hcur : s.2 with
          | none => exact .ok ⟨hctx', rfl⟩
          | some current =>
            dsimp only [Option.all_some]
            simp only [decide_eq_true_iff]
            split_ifs with hlt
            · exact .ok ⟨hctx', rfl⟩
            · exact .ok ⟨hctx', rfl⟩

lemma linkOrCross_eq {left right : RelSet} {link : JoinLink}
    (h : linkOrCross problem config left right = some link) :
    link = (problem.joinLink left right).getD ⟨1, true⟩ ∧
      ((problem.joinLink left right).isSome = true ∨ config.allowCrossJoins = true) := by
  rw [linkOrCross] at h
  cases hjoin : problem.joinLink left right with
  | some link' =>
    rw [hjoin, Option.some_or] at h
    exact ⟨(Option.some.inj h).symm, Or.inl rfl⟩
  | none =>
    rw [hjoin, Option.none_or] at h
    split_ifs at h with hcross
    exact ⟨(Option.some.inj h).symm, Or.inr hcross⟩

lemma linkOrCross_of_mayJoin (hgood : problem.Good) {left right : RelSet}
    (h : ∃ i ∈ bitSet left, ∃ j ∈ bitSet right, MayJoin problem config i j) :
    linkOrCross problem config left right =
      some ((problem.joinLink left right).getD ⟨1, true⟩) := by
  rw [linkOrCross]
  cases hjoin : problem.joinLink left right with
  | some link => rfl
  | none =>
    obtain ⟨i, hi, j, hj, hcross | hlink⟩ := h
    · rw [if_pos hcross]
      rfl
    · have hsome := (joinLink_isSome hgood).mpr ⟨i, hi, j, hj, hlink⟩
      rw [hjoin] at hsome
      cases hsome

/-- A tree makes its set connected, unless that does not matter. -/
lemma connectedSets_of_joins (hgood : problem.Good) (hcross : config.allowCrossJoins = false)
    (h : t.Joins problem config) :
    connectedSets problem (relUniverse problem.relCount) t.set = true := by
  have hle := h.set_le hgood
  have htogether : Together problem.Linked (bitSet t.set) := by
    have hlinked : MayJoin problem config = problem.Linked := by
      funext i j
      rw [MayJoin, hcross, eq_iff_iff]
      exact or_iff_right Bool.false_ne_true
    rw [← hlinked]
    exact h.together
  rw [connectedSets, if_pos ⟨Nat.one_le_iff_ne_zero.mpr t.set_ne_zero, hle⟩]
  exact isConnected_of_together hgood (lt_of_le_relUniverse hgood.relCount_lt hle) htogether

section OneSet

variable {entries : Entries} {s : RelSet}

/-- A candidate is the entry of a tree over the set. -/
lemma candidate_sound (hgood : problem.Good) {p : RelSet × RelSet}
    (hl : Done problem config entries p.1)
    (hr : Done problem config entries p.2) (hdisj : Disjoint (bitSet p.1) (bitSet p.2)) {b : Best}
    (hb : candidate problem config entries p = some b) :
    ∃ l r : Tree, (Tree.node l r).Joins problem config ∧ l.set = p.1 ∧ r.set = p.2 ∧
      l.Follows problem entries ∧ r.Follows problem entries ∧
        b = (Tree.node l r).estimate problem := by
  rw [candidate] at hb
  split_ifs at hb with hready
  simp only [Option.bind_eq_some_iff, Option.map_eq_some_iff] at hb
  obtain ⟨link, hlink, leftBest, hleft, rightBest, hright, rfl⟩ := hb
  obtain ⟨l, hlbest, rfl⟩ := hl.of_entry hleft
  obtain ⟨r, hrbest, rfl⟩ := hr.of_entry hright
  obtain ⟨hlinkeq, hsome⟩ := linkOrCross_eq hlink
  refine ⟨l, r, hlbest.joins.node hrbest.joins ?_ ?_, hlbest.set, hrbest.set, hlbest.follows,
    hrbest.follows, ?_⟩
  · rw [hlbest.set, hrbest.set]
    exact hdisj
  · rcases hsome with hsome | hcross
    · obtain ⟨i, hi, j, hj, hlinked⟩ := (joinLink_isSome hgood).mp hsome
      rw [hlbest.set, hrbest.set]
      exact ⟨i, hi, j, hj, Or.inr hlinked⟩
    · obtain ⟨i, hi⟩ := bitSet_nonempty l.set_ne_zero
      obtain ⟨j, hj⟩ := bitSet_nonempty r.set_ne_zero
      exact ⟨i, hi, j, hj, Or.inl hcross⟩
  · rw [Tree.estimate, hlbest.set, hrbest.set, hlinkeq]

/-- A tree gives a candidate that is not more expensive. -/
lemma candidate_complete (hgood : problem.Good) {l r : Tree}
    (h : (Tree.node l r).Joins problem config)
    (hl : Done problem config entries l.set) (hr : Done problem config entries r.set) :
    ∃ b, candidate problem config entries (l.set, r.set) = some b ∧
      b.cost ≤ (Tree.node l r).cost problem := by
  obtain ⟨l', hlbest⟩ := hl.of_tree h.left rfl
  obtain ⟨r', hrbest⟩ := hr.of_tree h.right rfl
  have hlentry : entries l.set = some (l'.estimate problem) := hlbest.set ▸ hlbest.follows.entry
  have hrentry : entries r.set = some (r'.estimate problem) := hrbest.set ▸ hrbest.follows.entry
  have hready : sidesReady problem config (fun set => (entries set).isSome) l.set r.set = true := by
    rw [sidesReady]
    cases hcross : config.allowCrossJoins with
    | true =>
      rw [if_pos rfl, hlentry, hrentry]
      rfl
    | false =>
      rw [if_neg nofun, connectedSets_of_joins hgood hcross h.left,
        connectedSets_of_joins hgood hcross h.right]
      rfl
  have hcand : candidate problem config entries (l.set, r.set) =
    some ((Tree.node l' r').estimate problem) := by
    rw [candidate, if_pos hready, linkOrCross_of_mayJoin hgood h.link, hlentry, hrentry,
      Tree.estimate, hlbest.set, hrbest.set]
    rfl
  refine ⟨_, hcand, ?_⟩
  have hjoins := h.replace hlbest.joins hrbest.joins hlbest.set hrbest.set
  exact cost_node_le hgood h hjoins hlbest.set hrbest.set (hlbest.least l h.left rfl)
    (hrbest.least r h.right rfl)

/-- **The entry of a set is right** once the entries of its proper parts are. -/
theorem done_update (hgood : problem.Good) (hs : s ≤ relUniverse problem.relCount)
    (hones : 2 ≤ countOnes s)
    (hparts : ∀ u, u ≠ 0 → u ≠ s → bitSet u ⊆ bitSet s → Done problem config entries u) :
    Done problem config (Function.update entries s (cheapest problem config entries s)) s := by
  have hlt := lt_of_le_relUniverse hgood.relCount_lt hs
  have hzero : s ≠ 0 := by
    rintro rfl
    revert hones
    decide
  have hleft : ∀ {u v : RelSet}, u ≠ 0 → v ≠ 0 → Disjoint (bitSet u) (bitSet v) → u ||| v = s →
      Done problem config entries u := by
    intro u v hu hv hdisj hor
    refine hparts u hu ?_ ?_
    · rintro rfl
      obtain ⟨i, hi⟩ := bitSet_nonempty hv
      exact Set.disjoint_right.mp hdisj hi (by rw [← hor, bitSet_or]; exact Or.inr hi)
    · rw [← hor, bitSet_or]
      exact Set.subset_union_left
  -- every tree over the set is a node, and one of its two ways round is a candidate
  have hcomplete : ∀ t : Tree, t.Joins problem config → t.set = s →
      ∃ b ∈ (splits s).filterMap (candidate problem config entries), b.cost ≤ t.cost problem := by
    intro t ht hset
    cases t with
    | leaf rel =>
      have := ones_two_pow ((ht.lt rel (List.mem_singleton_self rel)).trans hgood.relCount_lt)
      rw [countOnes, ← hset, Tree.set, relBit, this] at hones
      omega
    | node l r =>
      have hl := hleft l.set_ne_zero r.set_ne_zero ht.disjoint hset
      have hr := hleft r.set_ne_zero l.set_ne_zero ht.disjoint.symm ((Nat.lor_comm _ _).trans hset)
      rcases splits_complete hlt l.set_ne_zero r.set_ne_zero ht.disjoint hset with hmem | hmem
      · obtain ⟨b, hb, hcost⟩ := candidate_complete hgood ht hl hr
        exact ⟨b, List.mem_filterMap.mpr ⟨_, hmem, hb⟩, hcost⟩
      · obtain ⟨b, hb, hcost⟩ := candidate_complete hgood ht.swap hr hl
        exact ⟨b, List.mem_filterMap.mpr ⟨_, hmem, hb⟩, hcost.trans (cost_swap hgood ht).le⟩
  cases hbest : cheapest problem config entries s with
  | none =>
    refine Or.inr ⟨Function.update_self s none entries, fun t ht hset => ?_⟩
    obtain ⟨b, hb, -⟩ := hcomplete t ht hset
    rw [List.argmin_eq_none.mp hbest] at hb
    exact List.not_mem_nil hb
  | some b =>
    left
    obtain ⟨p, hp, hb⟩ := List.mem_filterMap.mp (List.argmin_mem hbest)
    obtain ⟨h1, h2, hdisj, hor⟩ := splits_sound hzero hlt hp
    have hd1 := hleft h1 h2 hdisj hor
    have hd2 := hleft h2 h1 hdisj.symm ((Nat.lor_comm _ _).trans hor)
    obtain ⟨l, r, hjoins, hl, hr, hfl, hfr, rfl⟩ := candidate_sound hgood hd1 hd2 hdisj hb
    have hset : (Tree.node l r).set = s := by rw [Tree.set, hl, hr, hor]
    -- the set is not part of one of its parts
    have hkeep : ∀ {u v : Tree}, u.set ||| v.set = s → Disjoint (bitSet u.set) (bitSet v.set) →
        ∀ w, bitSet w ⊆ bitSet u.set →
          Function.update entries s (some ((Tree.node l r).estimate problem)) w = entries w := by
      intro u v huv hdisj' w hw
      refine Function.update_of_ne ?_ _ _
      rintro rfl
      obtain ⟨i, hi⟩ := bitSet_nonempty v.set_ne_zero
      refine Set.disjoint_right.mp hdisj' hi (hw ?_)
      rw [← huv, bitSet_or]
      exact Or.inr hi
    refine ⟨.node l r, hjoins, hset, ⟨?_, ?_, ?_⟩, fun t ht hts => ?_⟩
    · exact hset ▸ Function.update_self _ _ entries
    · exact hfl.congr (hkeep hset hjoins.disjoint)
    · exact hfr.congr (hkeep ((Nat.lor_comm _ _).trans hset) hjoins.disjoint.symm)
    · obtain ⟨c, hc, hcost⟩ := hcomplete t ht hts
      exact (List.le_of_mem_argmin hc hbest).trans hcost

end OneSet

/-! ### All sets -/

/-- In the middle of the loops: the sets of fewer relations are done, and of those with
`width` relations the ones in `sets`; the other sets have no entry. -/
structure Progress (problem : Problem) (config : JoinOrderConfig) (width : ℕ) (sets : List RelSet)
    (entries : Entries) : Prop where
  done : ∀ s, s ≠ 0 → s ≤ relUniverse problem.relCount →
    (countOnes s < width ∨ countOnes s = width ∧ s ∈ sets) → Done problem config entries s
  fresh : ∀ s, entries s ≠ none → countOnes s < width ∨ countOnes s = width ∧ s ∈ sets

/-- The entries before the loops. -/
lemma leafEntries_eq_some {s : RelSet} {b : Best} :
    leafEntries problem s = some b ↔ ∃ i < problem.relCount, s = relBit i ∧
      b = leafBest problem i := by
  have hstep : ∀ i < problem.relCount, ∀ b,
      (if s = relBit i then (problem.rels[i]?).map fun stats =>
        (⟨0, stats.rows, stats.bytes, 0, 0, .right⟩ : Best)
        else none) = some b ↔ s = relBit i ∧ b = leafBest problem i := by
    intro i hi b
    have hget := List.getElem?_eq_getElem hi
    rw [leafBest, hget]
    split_ifs with hs
    · exact ⟨fun h => ⟨hs, (Option.some.inj h).symm⟩, fun h => congrArg some h.2.symm⟩
    · exact ⟨fun h => (by cases h), fun h => absurd h.1 hs⟩
  rw [leafEntries]
  constructor
  · intro h
    obtain ⟨i, hi, heq⟩ := List.exists_of_findSome?_eq_some h
    rw [List.mem_range] at hi
    exact ⟨i, hi, (hstep i hi b).mp heq⟩
  · rintro ⟨i, hi, hs, rfl⟩
    cases hfind : (List.range problem.relCount).findSome? fun rel =>
        if s = relBit rel then (problem.rels[rel]?).map fun stats =>
          (⟨0, stats.rows, stats.bytes, 0, 0, .right⟩ : Best)
        else none with
    | none =>
      have hnone := List.findSome?_eq_none_iff.mp hfind i (List.mem_range.mpr hi)
      rw [(hstep i hi (leafBest problem i)).mpr ⟨hs, rfl⟩] at hnone
      cases hnone
    | some b =>
      obtain ⟨j, hj, heq⟩ := List.exists_of_findSome?_eq_some hfind
      obtain ⟨hs', rfl⟩ := (hstep j (List.mem_range.mp hj) b).mp heq
      rw [relBit_injective (hs.symm.trans hs')]

/-- Before the loops, single relations are done. -/
lemma progress_leafEntries (hgood : problem.Good) :
    Progress problem config 2 [] (leafEntries problem) := by
  refine ⟨fun s hzero hle hones => Or.inl ?_, fun s hs => Or.inl ?_⟩
  · rcases hones with hones | ⟨-, hmem⟩
    · have hlt := lt_of_le_relUniverse hgood.relCount_lt hle
      obtain ⟨j, hj⟩ := bitSet_nonempty hzero
      have hpos : ones 64 0 < ones 64 s :=
        ones_lt_ones hlt (bitSet_zero ▸ Set.empty_subset _) hzero.symm
      have hone : ones 64 s = 1 := by
        rw [countOnes] at hones
        omega
      obtain ⟨i, -, rfl⟩ := exists_two_pow_of_ones hlt hone
      have hi : i < problem.relCount := by
        rw [← mem_relUniverse hgood.relCount_lt]
        refine (subset_relUniverse hgood.relCount_lt).mpr hle ?_
        rw [bitSet_two_pow]
        rfl
      refine ⟨.leaf i, Tree.joins_leaf hi, rfl, leafEntries_eq_some.mpr ⟨i, hi, rfl, rfl⟩,
        fun t ht hset => ?_⟩
      have hleaf : (Tree.leaf i).Joins problem config := Tree.joins_leaf hi
      have hperm := ht.perm hleaf hset
      cases t with
      | leaf j => rw [relBit_injective hset]
      | node l r =>
        have := l.length_leaves_pos
        have := r.length_leaves_pos
        have hlen := hperm.length_eq
        simp only [Tree.leaves, List.length_append, List.length_singleton] at hlen
        omega
    · exact absurd hmem List.not_mem_nil
  · obtain ⟨b, hb⟩ := Option.ne_none_iff_exists'.mp hs
    obtain ⟨i, hi, rfl, -⟩ := leafEntries_eq_some.mp hb
    rw [countOnes, relBit, ones_two_pow (hi.trans hgood.relCount_lt)]
    exact Nat.one_lt_two

lemma forEachSplit_outcome (elapsed : ℕ → ℕ) {entries : Entries} {ctx : SearchCtx}
    (hctx : ctx.Of config) (s : RelSet) :
    Outcome (forEachSplit s (costSplit elapsed problem config entries) (ctx, none))
      (fun r => r.1.Of config ∧ r.2 = cheapest problem config entries s) (Interrupted config) :=
  Outcome.foldlM (fun done (r : SearchCtx × Option Best) => r.1.Of config ∧
      r.2 = (done.filterMap (candidate problem config entries)).argmin Best.cost) ⟨hctx, rfl⟩
    fun _ p _ _ _ hr => costSplit_outcome elapsed hr.1 hr.2 p

/-- A set is done that is not there yet: its proper parts have fewer relations. -/
lemma Progress.set_step (hgood : problem.Good) {width : ℕ} (hwidth : 2 ≤ width) {sets : List RelSet}
    {entries : Entries} (h : Progress problem config width sets entries) {s : RelSet}
    (hones : countOnes s = width) (hle : s ≤ relUniverse problem.relCount) :
    Progress problem config width (sets ++ [s])
      (Function.update entries s (cheapest problem config entries s)) := by
  have hlt := lt_of_le_relUniverse hgood.relCount_lt hle
  refine ⟨fun u hu hule hcase => ?_, fun u hu => ?_⟩
  · by_cases heq : u = s
    · subst heq
      refine done_update hgood hle (hones ▸ hwidth) fun v hv hne hsub => ?_
      have hfewer : countOnes v < countOnes u := ones_lt_ones hlt hsub hne
      exact h.done v hv ((le_of_subset hsub).trans hle) (Or.inl (hones ▸ hfewer))
    · have hcase' : countOnes u < width ∨ countOnes u = width ∧ u ∈ sets :=
        hcase.imp_right fun hw => ⟨hw.1, (List.mem_append.mp hw.2).resolve_right
          fun hmem => heq (List.mem_singleton.mp hmem)⟩
      refine (h.done u hu hule hcase').update fun hsub => ?_
      have hmore : countOnes s < countOnes u :=
        ones_lt_ones (lt_of_le_relUniverse hgood.relCount_lt hule) hsub (Ne.symm heq)
      omega
  · by_cases heq : u = s
    · subst heq
      exact Or.inr ⟨hones, List.mem_append_right _ (List.mem_singleton_self u)⟩
    · rw [Function.update_of_ne heq] at hu
      exact (h.fresh u hu).imp_right fun hw => ⟨hw.1, List.mem_append_left _ hw.2⟩

/-- A set that is skipped is done. -/
lemma Progress.skip {width : ℕ} {sets : List RelSet} {entries : Entries}
    (h : Progress problem config width sets entries) {s : RelSet}
    (hskip : countOnes s = width → ∀ t : Tree, t.Joins problem config → t.set ≠ s) :
    Progress problem config width (sets ++ [s]) entries := by
  refine ⟨fun u hu hule hcase => ?_, fun u hu =>
    (h.fresh u hu).imp_right fun hw => ⟨hw.1, List.mem_append_left _ hw.2⟩⟩
  by_cases hbefore : countOnes u < width ∨ countOnes u = width ∧ u ∈ sets
  · exact h.done u hu hule hbefore
  · rcases hcase with hfewer | ⟨hones, hmem⟩
    · exact absurd (Or.inl hfewer) hbefore
    · rcases List.mem_append.mp hmem with hmem | hmem
      · exact absurd (Or.inr ⟨hones, hmem⟩) hbefore
      · obtain rfl := List.mem_singleton.mp hmem
        exact Or.inr ⟨not_not.mp fun hne => hbefore (h.fresh u hne), hskip hones⟩

/-- One round of the inner loop. -/
lemma costSet_outcome (elapsed : ℕ → ℕ) (hgood : problem.Good) {width : ℕ} (hwidth : 2 ≤ width)
    {sets : List RelSet} {s : SearchCtx × Entries} (hctx : s.1.Of config)
    (h : Progress problem config width sets s.2) {set : RelSet}
    (hle : set ≤ relUniverse problem.relCount) :
    Outcome (costSet elapsed problem config width s set)
      (fun s => s.1.Of config ∧ Progress problem config width (sets ++ [set]) s.2)
      (Interrupted config) := by
  rw [costSet]
  split_ifs with hones hskip
  · exact .ok ⟨hctx, h.skip fun heq => absurd heq hones⟩
  · refine .ok ⟨hctx, h.skip fun _ t ht hset => ?_⟩
    have := connectedSets_of_joins hgood hskip.2 ht
    rw [hset, hskip.1] at this
    cases this
  · refine (forEachSplit_outcome elapsed hctx set).bind fun r hr => .ok ⟨hr.1, ?_⟩
    rw [hr.2]
    exact h.set_step hgood hwidth (not_not.mp hones) hle

/-- All sets of one width. -/
lemma costWidth_outcome (elapsed : ℕ → ℕ) (hgood : problem.Good) {width : ℕ} (hwidth : 2 ≤ width)
    {s : SearchCtx × Entries} (hctx : s.1.Of config) (h : Progress problem config width [] s.2) :
    Outcome ((List.range' 1 (relUniverse problem.relCount)).foldlM
      (costSet elapsed problem config width) s)
      (fun s => s.1.Of config ∧ Progress problem config (width + 1) [] s.2)
        (Interrupted config) := by
  have hloop := Outcome.foldlM (f := costSet elapsed problem config width)
    (fun done (s : SearchCtx × Entries) => s.1.Of config ∧ Progress problem config width done s.2)
    (Q := Interrupted config) ⟨hctx, h⟩
    (l := List.range' 1 (relUniverse problem.relCount)) fun done set rest s hl hs => by
      have hmem : set ∈ List.range' 1 (relUniverse problem.relCount) := by
        rw [hl]
        exact List.mem_append_right _ (List.mem_cons_self ..)
      rw [List.mem_range'_1] at hmem
      exact costSet_outcome elapsed hgood hwidth hs.1 hs.2 (Nat.lt_one_add_iff.mp hmem.2)
  refine ⟨fun s' hs' => ⟨(hloop.1 s' hs').1, fun u hu hule hcase => ?_, fun u hu => ?_⟩, hloop.2⟩
  · refine (hloop.1 s' hs').2.done u hu hule ?_
    have hmem : u ∈ List.range' 1 (relUniverse problem.relCount) := by
      rw [List.mem_range'_1]
      exact ⟨Nat.one_le_iff_ne_zero.mpr hu, Nat.lt_one_add_iff.mpr hule⟩
    rcases hcase with hcase | ⟨-, hnil⟩
    · rcases (Nat.lt_succ_iff.mp hcase).lt_or_eq with hlt | heq
      · exact Or.inl hlt
      · exact Or.inr ⟨heq, hmem⟩
    · exact absurd hnil List.not_mem_nil
  · rcases (hloop.1 s' hs').2.fresh u hu with hlt | ⟨heq, -⟩
    · exact Or.inl (hlt.trans (Nat.lt_succ_self width))
    · exact Or.inl (heq ▸ Nat.lt_succ_self width)

/-- The two loops. -/
lemma search_outcome (config : JoinOrderConfig) (elapsed : ℕ → ℕ) (hgood : problem.Good) :
    Outcome ((List.range' 2 (problem.relCount - 1)).foldlM (fun s width =>
        (List.range' 1 (relUniverse problem.relCount)).foldlM (costSet elapsed problem config width)
          s)
        (SearchCtx.new config, leafEntries problem))
      (fun s => Progress problem config (problem.relCount + 1) [] s.2) (Interrupted config) := by
  have hloop := Outcome.foldlM_range' (f := fun s width =>
      (List.range' 1 (relUniverse problem.relCount)).foldlM (costSet elapsed problem config width)
        s)
    (fun width (s : SearchCtx × Entries) => s.1.Of config ∧ Progress problem config width [] s.2)
    (Q := Interrupted config) (a := 2) (n := problem.relCount - 1)
    (s := (SearchCtx.new config, leafEntries problem)) ⟨⟨rfl, rfl⟩, progress_leafEntries hgood⟩
    fun width s hwidth _ hs => costWidth_outcome elapsed hgood hwidth hs.1 hs.2
  have hcount := hgood.relCount_pos
  have hlen : 2 + (problem.relCount - 1) = problem.relCount + 1 := by omega
  rw [hlen] at hloop
  exact ⟨fun s hs => (hloop.1 s hs).2, hloop.2⟩

/-- The universe has no more relations than the problem. -/
lemma countOnes_relUniverse {n : ℕ} (hn : n < 64) : countOnes (relUniverse n) ≤ n := by
  rw [countOnes, ones_eq_card (lt_of_le_relUniverse hn le_rfl)]
  refine (Finset.card_le_card fun i hi => ?_).trans (Finset.card_range n).le
  rw [Set.Finite.mem_toFinset, mem_relUniverse hn] at hi
  exact Finset.mem_range.mpr hi

/-- **What `optimize` returns**: the table of a cheapest tree, or an error when it is cut
short or no tree exists. -/
theorem optimize_outcome (countElapsed elapsed : ℕ → ℕ) (hvalid : validate problem config = .ok ())
    (hgood : problem.Good) :
    Outcome (optimize countElapsed elapsed problem config)
      (fun solution => solution.root = relUniverse problem.relCount ∧
        ∃ t, BestTree problem config solution.entries (relUniverse problem.relCount) t)
      (fun e => Interrupted config e ∨ ((e = .disconnectedGraph ∨ e = .noPlan) ∧
        ∀ t : Tree, t.Joins problem config → t.set ≠ relUniverse problem.relCount)) := by
  have hcount := prepass_outcome countElapsed hvalid
  rw [optimize, hvalid, ok_bind]
  refine Outcome.bind (P := fun r : CountResult => r.exceeded = false)
    ⟨hcount.1, fun e he => Or.inl (hcount.2 e he)⟩ fun count hexceeded => ?_
  · rw [refuse_of_not (by rw [hexceeded]; nofun), ok_bind]
    dsimp only
    by_cases hconn : connectedSets problem (relUniverse problem.relCount)
      (relUniverse problem.relCount) = false ∧
        config.allowCrossJoins = false
    · rw [refuse_of_pos hconn]
      refine .error (Or.inr ⟨Or.inl rfl, fun t ht hset => ?_⟩)
      have := connectedSets_of_joins hgood hconn.2 ht
      rw [hset, hconn.1] at this
      cases this
    · rw [refuse_of_not hconn, ok_bind]
      have hsearch := search_outcome config elapsed hgood
      refine Outcome.bind (P := fun s : SearchCtx × Entries =>
        Progress problem config (problem.relCount + 1) [] s.2)
          ⟨hsearch.1, fun e he => Or.inl (hsearch.2 e he)⟩
        fun s hs => ?_
      have hpos : relUniverse problem.relCount ≠ 0 := by
        have hmem := (mem_relUniverse hgood.relCount_lt).mpr hgood.relCount_pos
        intro h0
        rw [h0, bitSet_zero] at hmem
        exact hmem
      have hdone := hs.done (relUniverse problem.relCount) hpos le_rfl
        (Or.inl (Nat.lt_succ_of_le (countOnes_relUniverse hgood.relCount_lt)))
      by_cases hnone : s.2 (relUniverse problem.relCount) = none
      · rw [refuse_of_pos hnone]
        refine .error (Or.inr ⟨Or.inr rfl, fun t ht hset => ?_⟩)
        obtain ⟨t', ht'⟩ := hdone.of_tree ht hset
        have hentry := ht'.follows.entry
        rw [ht'.set, hnone] at hentry
        cases hentry
      · rw [refuse_of_not hnone]
        refine .ok ⟨rfl, ?_⟩
        rcases hdone with hdone | ⟨h0, -⟩
        · exact hdone
        · exact absurd h0 hnone

/-! ### The tree of a solution -/

/-- The tree that `Best.left` and `Best.right` describe from a set on; a set of one relation
is a leaf. -/
def Solution.tree (solution : Solution) : ℕ → RelSet → Option Tree
  | 0, _ => none
  | depth + 1, set =>
    if countOnes set = 1 then some (.leaf set.log2)
    else do
      let best ← solution.best set
      let left ← solution.tree depth best.left
      let right ← solution.tree depth best.right
      return .node left right

/-- A tree in the table is found again. -/
lemma tree_of_follows (hcount : problem.relCount < 64) {solution : Solution}
    (hroot : solution.root = relUniverse problem.relCount) (h : t.Over problem)
    (hfollows : t.Follows problem solution.entries) {depth : ℕ} (hdepth : t.leaves.length ≤ depth) :
    solution.tree depth t.set = some t := by
  induction depth generalizing t with
  | zero =>
    have := t.length_leaves_pos
    omega
  | succ depth ih =>
    have hle := h.set_le hcount
    have hlt := lt_of_le_relUniverse hcount hle
    rw [Solution.tree]
    cases t with
    | leaf i =>
      have hi := (h.lt i (List.mem_singleton_self i)).trans hcount
      rw [Tree.set, countOnes, relBit, if_pos (ones_two_pow hi), Nat.log2_two_pow]
    | node l r =>
      have hl := l.length_leaves_pos
      have hr := r.length_leaves_pos
      rw [Tree.leaves, List.length_append] at hdepth
      have hmany : countOnes (Tree.node l r).set ≠ 1 := by
        intro hone
        obtain ⟨i, -, hi⟩ := exists_two_pow_of_ones hlt hone
        obtain ⟨a, ha⟩ := bitSet_nonempty l.set_ne_zero
        obtain ⟨b, hb⟩ := bitSet_nonempty r.set_ne_zero
        have hset : bitSet l.set ∪ bitSet r.set = {i} := by
          rw [← bitSet_or, ← bitSet_two_pow, ← hi]
          rfl
        have hai : a = i := hset.subset (Or.inl ha)
        have hbi : b = i := hset.subset (Or.inr hb)
        exact Set.disjoint_left.mp (Tree.disjoint_of_nodup h.nodup) (hai ▸ ha) (hbi ▸ hb)
      have hbest : solution.best (Tree.node l r).set = some ((Tree.node l r).estimate problem) := by
        rw [Solution.best, if_pos (hroot ▸ hle)]
        exact hfollows.entry
      have hleft : ((Tree.node l r).estimate problem).left = l.set := rfl
      have hright : ((Tree.node l r).estimate problem).right = r.set := rfl
      rw [if_neg hmany, hbest, Option.bind_eq_bind, Option.bind_some, hleft, hright,
        ih h.left hfollows.2.1 (by omega), ih h.right hfollows.2.2 (by omega)]
      rfl

/-- A bushy tree over all relations, each once, with the parts of every node linked. -/
def Tree.IsBushy (problem : Problem) (config : JoinOrderConfig) (t : Tree) : Prop :=
  t.leaves.Perm (List.range problem.relCount) ∧ t.AllLinked problem config

lemma isBushy_iff (hgood : problem.Good) :
    t.IsBushy problem config ↔ t.Joins problem config ∧ t.set = relUniverse problem.relCount := by
  constructor
  · rintro ⟨hperm, hlinked⟩
    refine ⟨⟨hperm.nodup_iff.mpr List.nodup_range, fun rel hrel => ?_, hlinked⟩,
      bitSet_injective ?_⟩
    · exact List.mem_range.mp (hperm.mem_iff.mp hrel)
    · ext i
      rw [Tree.mem_set, hperm.mem_iff, List.mem_range, mem_relUniverse hgood.relCount_lt]
  · rintro ⟨hjoins, hset⟩
    refine ⟨(List.perm_ext_iff_of_nodup hjoins.nodup List.nodup_range).mpr fun i => ?_,
      hjoins.linked⟩
    rw [← Tree.mem_set, hset, mem_relUniverse hgood.relCount_lt, List.mem_range]

/-- There is a bushy tree if and only if the graph is connected or cross joins are allowed. -/
lemma exists_isBushy_iff (hgood : problem.Good) :
    (∃ t : Tree, t.IsBushy problem config) ↔
      (joinGraph problem).Connected ∨ config.allowCrossJoins = true := by
  have htree : (∃ t : Tree, t.IsBushy problem config) ↔
      Together (MayJoin problem config) (bitSet (relUniverse problem.relCount)) := by
    constructor
    · rintro ⟨t, ht⟩
      obtain ⟨hjoins, hset⟩ := (isBushy_iff hgood).mp ht
      exact hset ▸ hjoins.together
    · intro h
      obtain ⟨t, ht, hset⟩ := exists_joins_of_together
        (fun i hi => (mem_relUniverse hgood.relCount_lt).mp hi) h
      exact ⟨t, (isBushy_iff hgood).mpr ⟨ht, hset⟩⟩
  rw [htree, ← together_universe_iff hgood]
  cases hcross : config.allowCrossJoins with
  | false =>
    have hlinked : MayJoin problem config = problem.Linked := by
      funext i j
      rw [MayJoin, hcross, eq_iff_iff]
      exact or_iff_right Bool.false_ne_true
    rw [hlinked]
    exact (or_iff_left Bool.false_ne_true).symm
  | true =>
    refine iff_of_true ⟨⟨0, ?_⟩, fun A hA hne hproper => ?_⟩ (Or.inr rfl)
    · exact (mem_relUniverse hgood.relCount_lt).mpr hgood.relCount_pos
    · obtain ⟨a, ha⟩ := hne
      obtain ⟨b, hb, hbA⟩ := Set.exists_of_ssubset (hA.ssubset_of_ne hproper)
      exact ⟨a, ha, b, hb, hbA, Or.inl hcross⟩

/-- The largest budget is sufficient. -/
lemma optimize_ne_budgetExceeded (countElapsed elapsed : ℕ → ℕ)
    (hvalid : validate problem config = .ok ())
    (hsimple : ∀ edge ∈ problem.edges, edge.Simple) (hmax : 2 ^ 64 - 1 ≤ config.maxPairs)
    (pairs maxPairs : ℕ) :
    optimize countElapsed elapsed problem config ≠ .error (.budgetExceeded pairs maxPairs) := by
  intro hres
  have hgood := validate_good hvalid hsimple
  rcases (optimize_outcome countElapsed elapsed hvalid hgood).2 _ hres with
    (⟨_, -, hlt⟩ | ⟨_, htime, -⟩) | ⟨hother | hother, -⟩
  · exact absurd hmax (not_le.mpr hlt)
  · cases htime
  · cases hother
  · cases hother

/-- **The search is optimal.** -/
theorem optimize_optimal (countElapsed elapsed : ℕ → ℕ) (problem : Problem)
    (config : JoinOrderConfig)
    (hvalid : validate problem config = .ok ()) (hsimple : ∀ edge ∈ problem.edges, edge.Simple)
    (htimeout : config.timeout = none) (hbudget : ∀ pairs maxPairs,
      optimize countElapsed elapsed problem config ≠ .error (.budgetExceeded pairs maxPairs)) :
    ((∃ solution, optimize countElapsed elapsed problem config = .ok solution) ↔
      (joinGraph problem).Connected ∨ config.allowCrossJoins = true) ∧
    ∀ solution, optimize countElapsed elapsed problem config = .ok solution →
      ∃ t, solution.tree problem.relCount solution.root = some t ∧ t.IsBushy problem config ∧
        solution.best solution.root = some (t.estimate problem) ∧
        ∀ t' : Tree, t'.IsBushy problem config → t.cost problem ≤ t'.cost problem := by
  have hgood := validate_good hvalid hsimple
  have hout := optimize_outcome countElapsed elapsed hvalid hgood
  have hfound : ∀ solution, optimize countElapsed elapsed problem config = .ok solution →
      ∃ t, solution.tree problem.relCount solution.root = some t ∧ t.IsBushy problem config ∧
        solution.best solution.root = some (t.estimate problem) ∧
        ∀ t' : Tree, t'.IsBushy problem config → t.cost problem ≤ t'.cost problem := by
    intro solution hsol
    obtain ⟨hroot, t, ht⟩ := hout.1 solution hsol
    have hbushy := (isBushy_iff hgood).mpr ⟨ht.joins, ht.set⟩
    have hlen : t.leaves.length = problem.relCount := by
      rw [hbushy.1.length_eq, List.length_range]
    refine ⟨t, ?_, hbushy, ?_, fun t' ht' => ?_⟩
    · rw [hroot, ← ht.set]
      exact tree_of_follows hgood.relCount_lt hroot ht.joins.over ht.follows hlen.le
    · rw [Solution.best, if_pos le_rfl, hroot, ← ht.set]
      exact ht.follows.entry
    · obtain ⟨hjoins, hset⟩ := (isBushy_iff hgood).mp ht'
      exact ht.least t' hjoins hset
  refine ⟨?_, hfound⟩
  rw [← exists_isBushy_iff hgood]
  constructor
  · rintro ⟨solution, hsol⟩
    obtain ⟨t, -, ht, -⟩ := hfound solution hsol
    exact ⟨t, ht⟩
  · rintro ⟨t, ht⟩
    cases hres : optimize countElapsed elapsed problem config with
    | ok solution => exact ⟨solution, rfl⟩
    | error e =>
      obtain ⟨hjoins, hset⟩ := (isBushy_iff hgood).mp ht
      rcases hout.2 e hres with (⟨pairs, rfl, -⟩ | ⟨pairs, -, htime⟩) | ⟨-, hno⟩
      · exact absurd hres (hbudget pairs config.maxPairs)
      · exact absurd htimeout htime
      · exact absurd hset (hno t hjoins)

/-- Three relations in a chain, the middle one large. -/
def chainProblem : Problem where
  rels := [⟨10, 80⟩, ⟨1000, 8000⟩, ⟨5, 40⟩]
  edges :=
    [⟨relBit 0, relBit 1, 0, 1, .inner, 1, 1 / 10⟩, ⟨relBit 1, relBit 2, 1, 1, .inner, 1, 1 / 100⟩]
  edgePreds := [0, 0]

/-- No limit of time, and the largest budget. -/
def patientConfig : JoinOrderConfig := ⟨18, 2 ^ 64 - 1, none, false⟩

lemma optimize_chain :
    ∃ solution, optimize (fun _ => 0) (fun _ => 0) chainProblem patientConfig = .ok solution := by
  have hok : (optimize (fun _ => 0) (fun _ => 0) chainProblem patientConfig).isOk = true := by
    decide +kernel
  cases hres : optimize (fun _ => 0) (fun _ => 0) chainProblem patientConfig with
  | error e =>
    rw [hres] at hok
    cases hok
  | ok solution => exact ⟨solution, rfl⟩

theorem optimize_optimal_chain :
    ∃ solution, optimize (fun _ => 0) (fun _ => 0) chainProblem patientConfig = .ok solution ∧
      ∃ t, solution.tree chainProblem.relCount solution.root = some t ∧
        t.IsBushy chainProblem patientConfig ∧
        solution.best solution.root = some (t.estimate chainProblem) ∧
        ∀ t' : Tree, t'.IsBushy chainProblem patientConfig → t.cost chainProblem ≤
          t'.cost chainProblem := by
  have hvalid : validate chainProblem patientConfig = .ok () := by decide +kernel
  have hsimple : ∀ edge ∈ chainProblem.edges, edge.Simple := by
    rw [chainProblem, List.forall_mem_cons, List.forall_mem_singleton]
    exact ⟨⟨⟨0, by decide, 1, by decide, rfl, rfl⟩, rfl⟩,
      ⟨⟨1, by decide, 2, by decide, rfl, rfl⟩, rfl⟩⟩
  have hbudget :=
    optimize_ne_budgetExceeded (fun _ => 0) (fun _ => 0) hvalid hsimple (le_refl (2 ^ 64 - 1))
  have hopt :=
    optimize_optimal (fun _ => 0) (fun _ => 0) chainProblem patientConfig hvalid hsimple rfl hbudget
  obtain ⟨solution, hres⟩ := optimize_chain
  exact ⟨solution, hres, hopt.2 solution hres⟩

end PgFusion.JoinOrder

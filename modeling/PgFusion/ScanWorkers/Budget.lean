import Mathlib.Algebra.Order.BigOperators.Group.List
import PgFusion.Data.Keyed

/-!
The workers of a query's scans (`extension`: `custom_scan.rs`), which are given out one by one, in
rounds, the larger relations first.
* `assignScanWorkerBudgets_levels`: the scans have one of two neighbouring numbers of workers.
-/

namespace PgFusion.ScanWorkers

/-! ### The assignment -/

/-- `ScanWorkerBudget`. -/
structure ScanWorkerBudget where
  workerCount : ℕ
  blockCount : ℕ
deriving DecidableEq

/-- `ScanWorkerBudgetCandidate`. -/
structure ScanWorkerBudgetCandidate where
  scanId : ℕ
  blockCount : ℕ
  maxWorkers : ℕ
  assignedWorkers : ℕ
deriving DecidableEq

/-- The order in which candidates are served. -/
def Precedes (left right : ScanWorkerBudgetCandidate) : Prop :=
  right.blockCount < left.blockCount ∨ right.blockCount = left.blockCount ∧
    left.scanId ≤ right.scanId

instance : DecidableRel Precedes := fun _ _ => inferInstanceAs (Decidable (_ ∨ _ ∧ _))

/-- What a round leaves: the budget, whether a worker was assigned, and the candidates. -/
structure Round where
  remaining : ℕ
  assigned : Bool
  candidates : List ScanWorkerBudgetCandidate

/-- A round over the candidates. It ends early when nothing remains. -/
def assignRound : ℕ → List ScanWorkerBudgetCandidate → Round
  | remaining, [] => ⟨remaining, false, []⟩
  | 0, candidates => ⟨0, false, candidates⟩
  | remaining + 1, candidate :: candidates =>
    if candidate.maxWorkers ≤ candidate.assignedWorkers then
      let rest := assignRound (remaining + 1) candidates
      { rest with candidates := candidate :: rest.candidates }
    else
      let rest := assignRound remaining candidates
      ⟨rest.remaining, true, { candidate with assignedWorkers := candidate.assignedWorkers + 1 } ::
        rest.candidates⟩

/-- The rounds. Each but the last one uses a part of what remains, so that there are at most as
many as the budget. -/
def assignRounds : ℕ → ℕ → List ScanWorkerBudgetCandidate → List ScanWorkerBudgetCandidate
  | 0, _, candidates => candidates
  | rounds + 1, remaining, candidates =>
    if remaining = 0 then candidates
    else
      let round := assignRound remaining candidates
      if round.assigned then assignRounds rounds round.remaining round.candidates
      else round.candidates

/-- The budgets of scans by their id. -/
abbrev Budgets : Type := Keyed (Prod.fst : ℕ × ScanWorkerBudget → ℕ)

/-- The candidates after all rounds. -/
def served (candidates : List ScanWorkerBudgetCandidate) (queryBudget : ℕ) :
    List ScanWorkerBudgetCandidate :=
  assignRounds queryBudget queryBudget (candidates.insertionSort Precedes)

/-- The entry of a candidate in the result. -/
def ScanWorkerBudgetCandidate.entry (candidate : ScanWorkerBudgetCandidate) :
    ℕ × ScanWorkerBudget :=
  (candidate.scanId, ⟨candidate.assignedWorkers, candidate.blockCount⟩)

/-- The entries of the candidates that have workers. -/
def entries (candidates : List ScanWorkerBudgetCandidate) : List (ℕ × ScanWorkerBudget) :=
  (candidates.filter fun candidate => 0 < candidate.assignedWorkers).map
    ScanWorkerBudgetCandidate.entry

/-- `assign_scan_worker_budgets`. -/
def assignScanWorkerBudgets (candidates : List ScanWorkerBudgetCandidate) (queryBudget : ℕ) :
    Budgets :=
  (entries (served candidates queryBudget)).foldl Keyed.insert Keyed.empty

/-- The number of workers of a scan. -/
def workerCount (budgets : Budgets) (scanId : ℕ) : ℕ :=
  (budgets.find? scanId).elim 0 fun entry => entry.2.workerCount

/-! ### Rounds -/

/-- The candidate after `k` full rounds. -/
def level (k : ℕ) (candidate : ScanWorkerBudgetCandidate) : ScanWorkerBudgetCandidate :=
  { candidate with assignedWorkers := min k candidate.maxWorkers }

/-- The workers of all candidates. -/
def totalAssigned (candidates : List ScanWorkerBudgetCandidate) : ℕ :=
  (candidates.map fun candidate => candidate.assignedWorkers).sum

lemma totalAssigned_cons (c : ScanWorkerBudgetCandidate) (cs : List ScanWorkerBudgetCandidate) :
    totalAssigned (c :: cs) = c.assignedWorkers + totalAssigned cs := List.sum_cons

/-- What a round leaves of candidates at the level `k`: those of `pre` are a level higher. -/
structure RoundLevels (k remaining : ℕ) (pre post : List ScanWorkerBudgetCandidate)
    (round : Round) : Prop where
  candidates : round.candidates = pre.map (level (k + 1)) ++ post.map (level k)
  total : totalAssigned round.candidates + round.remaining =
    totalAssigned ((pre ++ post).map (level k)) + remaining
  ended : round.remaining = 0 ∨ post = []
  le : round.remaining ≤ remaining
  lt : round.assigned = true → round.remaining < remaining
  none : round.assigned = false → remaining = 0 ∨ ∀ c ∈ pre ++ post, c.maxWorkers ≤ k

/-- One round: it raises the candidates up to some point, and goes on to the end unless the
budget is used up. -/
lemma assignRound_levels (k remaining : ℕ) (cs : List ScanWorkerBudgetCandidate) :
    ∃ pre post, cs = pre ++ post ∧
      RoundLevels k remaining pre post (assignRound remaining (cs.map (level k))) := by
  induction cs generalizing remaining with
  | nil =>
    have hnone : ∀ c ∈ ([] ++ [] : List ScanWorkerBudgetCandidate), c.maxWorkers ≤ k := fun _ h =>
      absurd h List.not_mem_nil
    refine ⟨[], [], rfl, ?_⟩
    rw [List.map_nil, assignRound]
    exact ⟨rfl, rfl, Or.inr rfl, le_rfl, nofun, fun _ => Or.inr hnone⟩
  | cons c cs ih =>
    cases remaining with
    | zero => exact ⟨[], c :: cs, rfl, rfl, rfl, Or.inl rfl, le_rfl, nofun, fun _ => Or.inl rfl⟩
    | succ remaining =>
      rw [List.map_cons, assignRound]
      by_cases hmax : (level k c).maxWorkers ≤ (level k c).assignedWorkers
      · -- the candidate has all its workers
        obtain ⟨pre, post, rfl, h⟩ := ih (remaining + 1)
        have hk : c.maxWorkers ≤ k := (le_min_iff.mp hmax).1
        have hlevel : level k c = level (k + 1) c := by
          rw [level, level, min_eq_right hk, min_eq_right (by omega)]
        have htotal := h.total
        rw [if_pos hmax]
        refine ⟨c :: pre, post, rfl, ?_, ?_, h.ended, h.le, h.lt, fun hnone => ?_⟩
        · rw [List.map_cons, List.cons_append, ← h.candidates, hlevel]
        · rw [List.cons_append, List.map_cons, totalAssigned_cons, totalAssigned_cons]
          dsimp only
          omega
        · exact (h.none hnone).imp_right fun hall => List.forall_mem_cons.mpr ⟨hk, hall⟩
      · obtain ⟨pre, post, rfl, h⟩ := ih remaining
        have hk : k < c.maxWorkers := by
          by_contra hle
          exact hmax (le_min (not_lt.mp hle) le_rfl)
        have hlevel : { level k c with assignedWorkers := (level k c).assignedWorkers + 1 } =
          level (k + 1) c := by
          rw [level, level, min_eq_left hk.le, min_eq_left (by omega)]
        have htotal := h.total
        have hle := h.le
        rw [if_neg hmax]
        refine ⟨c :: pre, post, rfl, ?_, ?_, h.ended, ?_, fun _ => Nat.lt_succ_of_le hle, nofun⟩
        · rw [List.map_cons, List.cons_append, ← h.candidates, hlevel]
        · rw [List.cons_append, List.map_cons, totalAssigned_cons, totalAssigned_cons]
          dsimp only
          omega
        · exact Nat.le_succ_of_le hle

/-- The rounds end with the candidates at two neighbouring levels, and with the whole budget
assigned unless all candidates have all their workers. -/
lemma assignRounds_levels {rounds remaining : ℕ} (hrounds : remaining ≤ rounds) (k : ℕ)
    (cs : List ScanWorkerBudgetCandidate) :
    ∃ k' pre post rest, cs = pre ++ post ∧
      assignRounds rounds remaining (cs.map (level k)) = pre.map (level (k' + 1)) ++
        post.map (level k') ∧
      totalAssigned (pre.map (level (k' + 1)) ++ post.map (level k')) + rest =
        totalAssigned (cs.map (level k)) + remaining ∧
      (rest = 0 ∨ post = [] ∧ ∀ c ∈ cs, c.maxWorkers ≤ k') := by
  have hdone : ∀ {rounds} k (pre post : List ScanWorkerBudgetCandidate),
      assignRounds rounds 0 (pre.map (level (k + 1)) ++ post.map (level k)) =
        pre.map (level (k + 1)) ++ post.map (level k) := by
    intro rounds k pre post
    cases rounds with
    | zero => rfl
    | succ rounds => rw [assignRounds, if_pos rfl]
  induction rounds generalizing remaining k cs with
  | zero =>
    obtain rfl : remaining = 0 := Nat.le_zero.mp hrounds
    exact ⟨k, [], cs, 0, rfl, hdone k [] cs, rfl, Or.inl rfl⟩
  | succ rounds ih =>
    by_cases hremaining : remaining = 0
    · subst hremaining
      exact ⟨k, [], cs, 0, rfl, hdone k [] cs, rfl, Or.inl rfl⟩
    · obtain ⟨pre, post, rfl, h⟩ := assignRound_levels k remaining cs
      rw [assignRounds, if_neg hremaining]
      by_cases hassigned : (assignRound remaining ((pre ++ post).map (level k))).assigned = true
      · have hlt := h.lt hassigned
        have htotal := h.total
        rw [if_pos hassigned]
        rw [h.candidates] at htotal ⊢
        rcases h.ended with hzero | rfl
        · rw [hzero]
          rw [hzero] at htotal
          exact ⟨k, pre, post, 0, rfl, hdone k pre post, htotal, Or.inl rfl⟩
        · rw [List.append_nil] at hlt htotal ⊢
          rw [List.map_nil, List.append_nil] at htotal ⊢
          obtain ⟨k', pre', post', rest, hpre, heq, htotal', hend⟩ :=
            ih (Nat.le_of_lt_succ (hlt.trans_le hrounds))
            (k + 1) pre
          exact ⟨k', pre', post', rest, hpre, heq, by rw [htotal', htotal], hend⟩
      · rw [if_neg hassigned, h.candidates]
        have hall := (h.none (Bool.eq_false_iff.mpr hassigned)).resolve_left hremaining
        refine ⟨k, pre, post, _, rfl, rfl, h.candidates ▸ h.total, h.ended.imp_right fun hpost =>
          ⟨hpost, hall⟩⟩

/-! ### The result -/

/-- The candidates that the rounds are given: with different ids and without workers. -/
structure Fresh (candidates : List ScanWorkerBudgetCandidate) : Prop where
  nodup : (candidates.map fun c => c.scanId).Nodup
  none : ∀ c ∈ candidates, c.assignedWorkers = 0

/-- The only entry with the id of a candidate is its own. -/
lemma entry_of_mem {cs : List ScanWorkerBudgetCandidate} (hnodup : (cs.map fun c => c.scanId).Nodup)
    {c : ScanWorkerBudgetCandidate} (hc : c ∈ cs) {entry : ℕ × ScanWorkerBudget}
    (hentry : entry ∈ entries cs)
    (heq : entry.1 = c.scanId) : 0 < c.assignedWorkers ∧ entry = c.entry := by
  obtain ⟨d, hd, rfl⟩ := List.mem_map.mp hentry
  obtain ⟨hd, hpos⟩ := List.mem_filter.mp hd
  obtain rfl : d = c := List.inj_on_of_nodup_map hnodup hd hc heq
  exact ⟨of_decide_eq_true hpos, rfl⟩

/-- What the result holds for a candidate after the rounds. -/
lemma find?_entries {cs : List ScanWorkerBudgetCandidate}
    (hnodup : (cs.map fun c => c.scanId).Nodup) {c : ScanWorkerBudgetCandidate} (hc : c ∈ cs) :
    ((entries cs).foldl Keyed.insert (Keyed.empty : Budgets)).find? c.scanId =
      if 0 < c.assignedWorkers then some c.entry else none := by
  have hkeys : ((entries cs).map Prod.fst).Nodup := by
    rw [entries, List.map_map]
    exact hnodup.sublist (List.filter_sublist.map _)
  have hnone : (Keyed.empty : Budgets).find? c.scanId = none := rfl
  rw [Keyed.find?_foldl_insert hkeys _ fun _ _ => rfl, hnone, Option.none_or]
  cases hfind : (entries cs).find? fun entry => decide (entry.1 = c.scanId) with
  | none =>
    rw [if_neg]
    intro hpos
    have hmem : c.entry ∈ entries cs :=
      List.mem_map_of_mem (List.mem_filter.mpr ⟨hc, decide_eq_true hpos⟩)
    exact List.find?_eq_none.mp hfind _ hmem (decide_eq_true rfl)
  | some entry =>
    have hid := List.find?_some hfind
    obtain ⟨hpos, hentry⟩ :=
      entry_of_mem hnodup hc (List.mem_of_find?_eq_some hfind) (of_decide_eq_true hid)
    rw [if_pos hpos, hentry]

/-- The rounds in one: each candidate is raised to one of two neighbouring levels, and the budget
is assigned unless all candidates have all their workers. -/
lemma served_levels {candidates : List ScanWorkerBudgetCandidate} (h : Fresh candidates)
    (queryBudget : ℕ) :
    ∃ k pre post rest, candidates.Perm (pre ++ post) ∧
      served candidates queryBudget = pre.map (level (k + 1)) ++ post.map (level k) ∧
      totalAssigned (served candidates queryBudget) + rest = queryBudget ∧
      (rest = 0 ∨ post = [] ∧ ∀ c ∈ candidates, c.maxWorkers ≤ k) := by
  have hperm := List.perm_insertionSort Precedes candidates
  have hzero : ∀ c ∈ candidates.insertionSort Precedes, level 0 c = c := by
    intro c hc
    rw [level, Nat.zero_min, ← h.none c (hperm.mem_iff.mp hc)]
  have hlevel : (candidates.insertionSort Precedes).map (level 0) =
    candidates.insertionSort Precedes := by
    rw [List.map_congr_left hzero, List.map_id']
  have htotal : totalAssigned (candidates.insertionSort Precedes) = 0 := by
    rw [totalAssigned, List.sum_eq_zero]
    intro n hn
    obtain ⟨c, hc, rfl⟩ := List.mem_map.mp hn
    exact h.none c (hperm.mem_iff.mp hc)
  obtain ⟨k, pre, post, rest, hcs, hserved, hsum, hend⟩ :=
    assignRounds_levels (le_refl queryBudget) 0
    (candidates.insertionSort Precedes)
  rw [hlevel] at hserved hsum
  rw [htotal, Nat.zero_add, ← hserved] at hsum
  refine ⟨k, pre, post, rest, hcs ▸ hperm.symm, hserved, hsum, hend.imp_right ?_⟩
  exact fun hall => ⟨hall.1, fun c hc => hall.2 c (hperm.mem_iff.mpr hc)⟩

/-- The result for a candidate: it has the workers of one of two neighbouring levels. -/
lemma find?_assignScanWorkerBudgets {candidates : List ScanWorkerBudgetCandidate}
    (h : Fresh candidates) {pre post : List ScanWorkerBudgetCandidate} {k queryBudget : ℕ}
    (hperm : candidates.Perm (pre ++ post))
    (hserved : served candidates queryBudget = pre.map (level (k + 1)) ++ post.map (level k))
    {c : ScanWorkerBudgetCandidate} {j : ℕ} (hc : c ∈ pre ∧ j = k + 1 ∨ c ∈ post ∧ j = k) :
    (assignScanWorkerBudgets candidates queryBudget).find? c.scanId =
      if 0 < min j c.maxWorkers then some (c.scanId, ⟨min j c.maxWorkers, c.blockCount⟩)
      else none := by
  have hids : (served candidates queryBudget).map (fun c => c.scanId) = (pre ++ post).map fun c =>
    c.scanId := by
    rw [hserved, List.map_append, List.map_append, List.map_map, List.map_map]
    rfl
  have hnodup : ((served candidates queryBudget).map fun c => c.scanId).Nodup := by
    rw [hids]
    exact (hperm.map _).nodup_iff.mp h.nodup
  have hmem : level j c ∈ served candidates queryBudget := by
    rw [hserved]
    rcases hc with ⟨hc, rfl⟩ | ⟨hc, rfl⟩
    · exact List.mem_append_left _ (List.mem_map_of_mem hc)
    · exact List.mem_append_right _ (List.mem_map_of_mem hc)
  exact find?_entries hnodup hmem

/-- **The assignment.** Each scan has the workers of one of two neighbouring levels, and the
budget is assigned unless all scans have all their workers. -/
lemma assignScanWorkerBudgets_levels {candidates : List ScanWorkerBudgetCandidate}
    (h : Fresh candidates) (queryBudget : ℕ) :
    ∃ (k rest : ℕ) (reached : ScanWorkerBudgetCandidate → ℕ),
      (∀ c, reached c = k ∨ reached c = k + 1) ∧
      (∀ c ∈ candidates, (assignScanWorkerBudgets candidates queryBudget).find? c.scanId =
        if 0 < min (reached c) c.maxWorkers then
          some (c.scanId, ⟨min (reached c) c.maxWorkers, c.blockCount⟩)
        else none) ∧
      (candidates.map fun c => min (reached c) c.maxWorkers).sum + rest = queryBudget ∧
      (rest = 0 ∨ ∀ c ∈ candidates, c.maxWorkers ≤ reached c) := by
  obtain ⟨k, pre, post, rest, hperm, hserved, hsum, hend⟩ := served_levels h queryBudget
  have hnodup : (pre ++ post).Nodup := hperm.nodup_iff.mp h.nodup.of_map
  have hpre : ∀ c ∈ pre, (if c ∈ pre then k + 1 else k) = k + 1 := fun c hc => if_pos hc
  have hpost : ∀ c ∈ post, (if c ∈ pre then k + 1 else k) = k := fun c hc =>
    if_neg fun hc' => List.disjoint_of_nodup_append hnodup hc' hc
  refine ⟨k, rest, fun c => if c ∈ pre then k + 1 else k, fun c => ?_, fun c hc => ?_, ?_, ?_⟩
  · by_cases hc : c ∈ pre
    · exact Or.inr (if_pos hc)
    · exact Or.inl (if_neg hc)
  · refine find?_assignScanWorkerBudgets h hperm hserved ?_
    rcases List.mem_append.mp (hperm.mem_iff.mp hc) with hc | hc
    · exact Or.inl ⟨hc, hpre c hc⟩
    · exact Or.inr ⟨hc, hpost c hc⟩
  · have hcounts : (candidates.map fun c => min (if c ∈ pre then k + 1 else k) c.maxWorkers).sum =
        totalAssigned (served candidates queryBudget) := by
      rw [(hperm.map _).sum_eq, hserved, totalAssigned, List.map_append, List.map_append,
        List.map_map, List.map_map]
      refine congrArg List.sum (congrArg₂ _ (List.map_congr_left fun c hc => ?_)
        (List.map_congr_left fun c hc => ?_))
      · rw [hpre c hc]
        rfl
      · rw [hpost c hc]
        rfl
    rw [hcounts, hsum]
  · refine hend.imp_right fun ⟨hnil, hall⟩ c hc => ?_
    rw [hnil, List.append_nil] at hperm
    dsimp only
    rw [hpre c (hperm.mem_iff.mp hc)]
    exact Nat.le_succ_of_le (hall c hc)

end PgFusion.ScanWorkers

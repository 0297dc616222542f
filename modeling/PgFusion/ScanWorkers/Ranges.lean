import Mathlib.Data.Nat.Find
import PgFusion.ScanSql.Compile
import PgFusion.ScanWorkers.Budget
import PgFusion.Sql.Values

/-!
The block ranges of a scan's producers (`extension`: `custom_scan.rs`; `scan_sql`: `compile.rs`).

* `scanWorkers_partition`: the ranges partition the blocks, within the budget.
-/

namespace PgFusion.ScanWorkers

open Sql ScanSql

/-! ### Ranges -/

/-- `CtidBlockRange`. -/
structure CtidBlockRange where
  startBlock : ℕ
  endBlock : ℕ
deriving DecidableEq

/-- `u64::saturating_mul`. -/
def saturatingMul (a b : ℕ) : ℕ := min (a * b) (2 ^ 64 - 1)

/-- `producer_block_range`. -/
def producerBlockRange (blockCount totalProducers producerId : ℕ) : CtidBlockRange :=
  ⟨saturatingMul blockCount producerId / totalProducers, saturatingMul blockCount (producerId + 1) /
    totalProducers⟩

/-- The number of producers that `launch_scan_workers` aims at. -/
def totalProducers (budget : ScanWorkerBudget) : ℕ :=
  min (min (budget.workerCount + 1) budget.blockCount) (2 ^ 16 - 1)

/-- The ranges of the leader and of the workers by their producer id, where `launch_scan_workers`
can launch all of them. -/
def launchRanges (budgets : Budgets) (scanId : ℕ) :
    Option CtidBlockRange × List (ℕ × CtidBlockRange) :=
  match budgets.find? scanId with
  | none => (none, [])
  | some (_, budget) =>
    if budget.workerCount = 0 ∨ budget.blockCount ≤ 1 ∨ totalProducers budget ≤ 1 then (none, [])
    else
      (some (producerBlockRange budget.blockCount (totalProducers budget) 0),
        (List.range' 1 (totalProducers budget - 1)).map fun producerId =>
          (producerId, producerBlockRange budget.blockCount (totalProducers budget) producerId))

/-! ### Steps -/

/-- A point between the ends of a nondecreasing sequence is in one of its steps. -/
lemma existsUnique_step {f : ℕ → ℕ} (hf : Monotone f) {n x : ℕ} (hlow : f 0 ≤ x) (hhigh : x < f n) :
    ∃! i, i < n ∧ f i ≤ x ∧ x < f (i + 1) := by
  have hex : ∃ i, x < f i := ⟨n, hhigh⟩
  obtain ⟨i, hi⟩ : ∃ i, Nat.find hex = i + 1 := Nat.exists_eq_succ_of_ne_zero fun hzero =>
    absurd (hzero ▸ Nat.find_spec hex) (not_lt.mpr hlow)
  have hnext : x < f (i + 1) := hi ▸ Nat.find_spec hex
  have hbelow : f i ≤ x := not_lt.mp (Nat.find_min hex (by omega))
  have hle : i + 1 ≤ n := hi ▸ Nat.find_min' hex hhigh
  refine ⟨i, ⟨hle, hbelow, hnext⟩, fun j hj => ?_⟩
  obtain ⟨-, hjlow, hjhigh⟩ := hj
  rcases lt_trichotomy i j with h | h | h
  · have hmono : f (i + 1) ≤ f j := hf h
    omega
  · exact h.symm
  · have hmono : f (j + 1) ≤ f i := hf h
    omega

section Blocks

variable {blockCount total : ℕ}

/-- No product saturates. -/
lemma producerBlockRange_eq (hcount : blockCount < 2 ^ 32) (htotal : total < 2 ^ 16) {p : ℕ}
    (hp : p < total) :
    producerBlockRange blockCount total p =
      ⟨blockCount * p / total, blockCount * (p + 1) / total⟩ := by
  have hmul : ∀ q, q ≤ total → saturatingMul blockCount q = blockCount * q := by
    intro q hq
    refine min_eq_left ?_
    calc blockCount * q
        ≤ 2 ^ 32 * 2 ^ 16 := Nat.mul_le_mul hcount.le (hq.trans htotal.le)
      _ ≤ 2 ^ 64 - 1 := by decide
  rw [producerBlockRange, hmul p hp.le, hmul (p + 1) hp]

lemma monotone_blocks (blockCount total : ℕ) : Monotone fun p => blockCount * p / total :=
  fun _ _ h => Nat.div_le_div_right (Nat.mul_le_mul_left _ h)

/-- A range has a block when there are no more producers than blocks. -/
lemma blocks_lt (htotal : 0 < total) (hle : total ≤ blockCount) (p : ℕ) :
    blockCount * p / total < blockCount * (p + 1) / total := by
  calc blockCount * p / total
      < (blockCount * p + total) / total := by
        rw [Nat.add_div_right _ htotal]
        exact Nat.lt_succ_self _
    _ ≤ blockCount * (p + 1) / total := Nat.div_le_div_right (by rw [Nat.mul_succ]; omega)

/-- Each block is in the range of one producer. -/
lemma existsUnique_producer (hcount : blockCount < 2 ^ 32) (htotal : total < 2 ^ 16)
    (hpos : 0 < total) {block : ℕ} (hblock : block < blockCount) :
    ∃! p, p < total ∧ (producerBlockRange blockCount total p).startBlock ≤ block ∧
      block < (producerBlockRange blockCount total p).endBlock := by
  have hhigh : block < blockCount * total / total := by rwa [Nat.mul_div_cancel _ hpos]
  have hstep := existsUnique_step (monotone_blocks blockCount total) (by simp) hhigh
  refine (existsUnique_congr fun p => ?_).mp hstep
  refine and_congr_right fun hp => ?_
  rw [producerBlockRange_eq hcount htotal hp]

end Blocks

/-! ### The predicate -/

/-- The text of a tuple id with the offset 1. -/
def firstTid (block : ℕ) : String := "(" ++ toString block ++ ",1)"

lemma firstTid_toList (block : ℕ) :
    (firstTid block).toList = '(' ::
      (Nat.toDigits 10 block ++ ',' :: (Nat.toDigits 10 1 ++ [')'])) := by
  have hdigits : (toString block).toList = Nat.toDigits 10 block := Nat.toList_repr
  have hone : Nat.toDigits 10 1 = ['1'] := rfl
  rw [firstTid, String.toList_append, String.toList_append, hdigits, hone]
  simp

lemma tidIn_firstTid {block : ℕ} (h : block < 2 ^ 32) :
    tidIn (firstTid block).toList = some (block, 1) := by
  rw [firstTid_toList, tidIn_digits h (by decide)]

/-- The constant of a tuple id in the predicate. -/
lemma reads_tid (block : ℕ) :
    Reads ("'(" ++ toString block ++ ",1)'::tid") (.cast (.string (firstTid block))
      ⟨["tid"], []⟩) := by
  have hchars : ∀ c ∈ (firstTid block).toList, c ≠ nul ∧ c ≠ '\'' := by
    intro c hc
    rw [firstTid_toList] at hc
    simp only [List.mem_cons, List.mem_append, List.not_mem_nil, or_false] at hc
    rcases hc with rfl | hc | rfl | hc | rfl
    · decide
    · exact ⟨ne_of_isDigit (toDigits_isDigit hc) _ rfl, ne_of_isDigit (toDigits_isDigit hc) _ rfl⟩
    · decide
    · exact ⟨ne_of_isDigit (toDigits_isDigit hc) _ rfl, ne_of_isDigit (toDigits_isDigit hc) _ rfl⟩
    · decide
  have hescape : escape '\'' (firstTid block).toList = (firstTid block).toList :=
    escape_of_notMem fun hmem => (hchars _ hmem).2 rfl
  have htext : quoted '\'' (firstTid block) ++ "::" ++ "tid" = "'(" ++ toString block ++
    ",1)'::tid" := by
    refine String.toList_inj.mp ?_
    rw [String.toList_append, String.toList_append, quoted_toList, hescape, firstTid,
      String.toList_append, String.toList_append, String.toList_append, String.toList_append]
    simp
  have hword : Lexes "tid".toList [.word "tid"] := lexes_word rfl (by decide)
  have hread := reads_string_cast (fun hmem => (hchars _ hmem).1 rfl) hword (by decide)
  rw [htext] at hread
  exact hread

/-- The predicate is read as two comparisons. -/
lemma parse_ctidBlockPredicate (startBlock endBlock : ℕ) :
    Enough fun fuel => parse fuel (ctidBlockPredicate startBlock endBlock).toList =
      some (.and (.binary ">=" (.column "ctid") (.cast (.string (firstTid startBlock))
        ⟨["tid"], []⟩))
        (.binary "<" (.column "ctid") (.cast (.string (firstTid endBlock)) ⟨["tid"], []⟩))) := by
  have hctid : Reads "ctid" (.column "ctid") :=
    ⟨[.word "ctid"], lexes_word rfl (by decide), tight_name (by decide)⟩
  have hge : Between (" " ++ ">=" ++ " ") [.op ">="] := ⟨fun _ _ => rfl, fun _ => rfl⟩
  have hlt : Between (" " ++ "<" ++ " ") [.op "<"] := ⟨fun _ _ => rfl, fun _ => rfl⟩
  have hfirst := ReadsConjunct.comparison hge (by decide) (by decide) hctid (reads_tid startBlock)
  have hsecond := ReadsConjunct.comparison hlt (by decide) (by decide) hctid (reads_tid endBlock)
  have hparse := parse_conjunction (.cons hfirst (.cons hsecond .nil)) (List.cons_ne_nil _ _)
  refine hparse.imp fun fuel hp => ?_
  have htext : ctidBlockPredicate startBlock endBlock =
      "ctid" ++ (" " ++ ">=" ++ " ") ++ ("'(" ++ toString startBlock ++ ",1)'::tid") ++ " AND " ++
        ("ctid" ++ (" " ++ "<" ++ " ") ++ ("'(" ++ toString endBlock ++ ",1)'::tid")) := by
    have hopen : "ctid" ++ (" " ++ ">=" ++ " ") ++ "'(" = "ctid >= '(" := rfl
    have hmiddle : ",1)'::tid" ++ " AND " ++ ("ctid" ++ (" " ++ "<" ++ " ")) ++ "'(" =
      ",1)'::tid AND ctid < '(" := rfl
    rw [ctidBlockPredicate, ← hopen, ← hmiddle]
    simp only [String.append_assoc]
  rw [htext]
  exact hp

/-- The tuples that pass the predicate are those of the range's blocks. -/
lemma satisfies_ctidBlockPredicate {startBlock endBlock block offset : ℕ}
    (hstart : startBlock < 2 ^ 32) (hend : endBlock < 2 ^ 32) (hoffset : 1 ≤ offset) :
    Satisfies (ctidBlockPredicate startBlock endBlock) (block, offset) ↔ startBlock ≤ block ∧
      block < endBlock := by
  have hvalue : Enough fun fuel =>
      (parse fuel (ctidBlockPredicate startBlock endBlock).toList).bind (tidTest (block, offset)) =
        some (!tidLt (block, offset) (startBlock, 1) && tidLt (block, offset) (endBlock, 1)) := by
    refine (parse_ctidBlockPredicate startBlock endBlock).imp fun fuel hp => ?_
    rw [hp, Option.bind_some, tidTest, tidTest, tidTest, tidIn_firstTid hstart, tidIn_firstTid hend]
    rfl
  rw [satisfies_iff hvalue, Bool.and_eq_true, Bool.not_eq_true', tidLt, tidLt,
    decide_eq_false_iff_not, decide_eq_true_iff]
  dsimp only
  omega

/-! ### The producers of a scan -/

/-- The candidates that `scan_worker_budget_candidates` makes: with different ids, of two blocks
at least, with a worker for each block but one, and without workers so far. -/
structure Candidates (candidates : List ScanWorkerBudgetCandidate) : Prop where
  nodup : (candidates.map fun c => c.scanId).Nodup
  blocks : ∀ c ∈ candidates, 2 ≤ c.blockCount ∧ c.blockCount < 2 ^ 32
  workers : ∀ c ∈ candidates, c.maxWorkers = min (c.blockCount - 1) (2 ^ 16 - 2)
  none : ∀ c ∈ candidates, c.assignedWorkers = 0

lemma Candidates.fresh {candidates : List ScanWorkerBudgetCandidate} (h : Candidates candidates) :
    Fresh candidates :=
  ⟨h.nodup, h.none⟩

lemma sum_min_eq {candidates : List ScanWorkerBudgetCandidate}
    {count : ScanWorkerBudgetCandidate → ℕ}
    {rest budget : ℕ} (hle : ∀ c ∈ candidates, count c ≤ c.maxWorkers)
    (hsum : (candidates.map count).sum + rest = budget)
    (hend : rest = 0 ∨ ∀ c ∈ candidates, count c = c.maxWorkers) :
    (candidates.map count).sum = min budget (candidates.map fun c => c.maxWorkers).sum := by
  have hall : (candidates.map count).sum ≤ (candidates.map fun c => c.maxWorkers).sum :=
    List.sum_le_sum hle
  rcases hend with rfl | heq
  · omega
  · have hmax : (candidates.map count).sum = (candidates.map fun c => c.maxWorkers).sum := by
      rw [List.map_congr_left heq]
    omega

/-- The producers are the leader and all workers. -/
lemma totalProducers_eq {workers blockCount : ℕ} (hle : workers ≤ min (blockCount - 1) (2 ^ 16 - 2))
    (hblocks : 2 ≤ blockCount) : totalProducers ⟨workers, blockCount⟩ = workers + 1 := by
  rw [totalProducers]
  dsimp only
  omega

/-- The ranges of a scan that has workers. -/
lemma launchRanges_eq {budgets : Budgets} {scanId workers blockCount : ℕ}
    (hfind : budgets.find? scanId = some (scanId, ⟨workers, blockCount⟩)) (hpos : 0 < workers)
    (hle : workers ≤ min (blockCount - 1) (2 ^ 16 - 2)) (hblocks : 2 ≤ blockCount) :
    launchRanges budgets scanId =
      (some (producerBlockRange blockCount (workers + 1) 0),
        (List.range' 1 workers).map fun p =>
          (p, producerBlockRange blockCount (workers + 1) p)) := by
  have htotal := totalProducers_eq hle hblocks
  have hnot : ¬(workers = 0 ∨ blockCount ≤ 1 ∨ workers + 1 ≤ 1) := by omega
  rw [launchRanges, hfind]
  dsimp only
  rw [htotal, if_neg hnot, Nat.add_sub_cancel]

/-- **Budgets and block ranges partition every scan.** -/
theorem scanWorkers_partition (candidates : List ScanWorkerBudgetCandidate)
    (h : Candidates candidates) (queryBudget : ℕ) :
    let budgets := assignScanWorkerBudgets candidates queryBudget
    let workers := fun c : ScanWorkerBudgetCandidate => workerCount budgets c.scanId
    (candidates.map workers).sum = min queryBudget (candidates.map fun c => c.maxWorkers).sum ∧
    (∀ c ∈ candidates, workers c ≤ c.maxWorkers) ∧
    (∀ c ∈ candidates, ∀ d ∈ candidates, workers d + 1 < workers c → workers d = d.maxWorkers) ∧
    ∀ c ∈ candidates, 0 < workers c →
      let range := producerBlockRange c.blockCount (workers c + 1)
      launchRanges budgets c.scanId =
        (some (range 0), (List.range' 1 (workers c)).map fun producerId =>
          (producerId, range producerId)) ∧
      (∀ p ≤ workers c, (range p).startBlock < (range p).endBlock ∧ (range p).endBlock ≤
        c.blockCount) ∧
      (∀ block < c.blockCount, ∃! p, p ≤ workers c ∧ (range p).startBlock ≤ block ∧
        block < (range p).endBlock) ∧
      ∀ block offset, block < c.blockCount → 1 ≤ offset →
        ∃! p, p ≤ workers c ∧
          Satisfies (ctidBlockPredicate (range p).startBlock (range p).endBlock)
            (block, offset) := by
  intro budgets workers
  obtain ⟨k, rest, reached, hreached, hfind, hsum, hend⟩ :=
    assignScanWorkerBudgets_levels h.fresh queryBudget
  have hworkers : ∀ c ∈ candidates, workers c = min (reached c) c.maxWorkers := by
    intro c hc
    have hcount : workers c = ((budgets.find? c.scanId).elim 0 fun entry => entry.2.workerCount) :=
      rfl
    rw [hcount, hfind c hc]
    split_ifs with hpos
    · rfl
    · exact (Nat.eq_zero_of_not_pos hpos).symm
  have hle : ∀ c ∈ candidates, workers c ≤ c.maxWorkers :=
    fun c hc => hworkers c hc ▸ min_le_right _ _
  refine ⟨?_, hle, fun c hc d hd hlt => ?_, fun c hc hpos => ?_⟩
  · refine sum_min_eq hle ?_ (hend.imp_right fun hall c hc => ?_)
    · rw [List.map_congr_left hworkers, hsum]
    · rw [hworkers c hc, min_eq_right (hall c hc)]
  · -- the levels are one apart at most
    have hc' := hreached c
    have hd' := hreached d
    rw [hworkers c hc, hworkers d hd] at hlt
    rw [hworkers d hd]
    omega
  · intro range
    have hblocks := h.blocks c hc
    have hmax := hle c hc
    rw [h.workers c hc] at hmax
    have hentry : budgets.find? c.scanId = some (c.scanId, ⟨workers c, c.blockCount⟩) := by
      refine (hfind c hc).trans ?_
      rw [← hworkers c hc, if_pos hpos]
    have hranges : ∀ p ≤ workers c, range p =
        ⟨c.blockCount * p / (workers c + 1), c.blockCount * (p + 1) / (workers c + 1)⟩ :=
          fun p hp =>
      producerBlockRange_eq hblocks.2 (by omega) (by omega)
    have hlast : ∀ p ≤ workers c, (range p).endBlock ≤ c.blockCount := by
      intro p hp
      rw [hranges p hp]
      exact Nat.div_le_of_le_mul (by rw [Nat.mul_comm]; exact Nat.mul_le_mul_right _ (by omega))
    have hlt : ∀ p ≤ workers c, (range p).startBlock < (range p).endBlock := by
      intro p hp
      rw [hranges p hp]
      exact blocks_lt (by omega) (by omega) p
    have hunique : ∀ block < c.blockCount,
        ∃! p, p ≤ workers c ∧ (range p).startBlock ≤ block ∧ block < (range p).endBlock := by
      intro block hblock
      have htotal : workers c + 1 < 2 ^ 16 := by omega
      refine (existsUnique_congr fun p => ?_).mp (existsUnique_producer hblocks.2 htotal
        (by omega) hblock)
      rw [Nat.lt_succ_iff]
    refine ⟨launchRanges_eq hentry hpos hmax hblocks.1, fun p hp => ⟨hlt p hp, hlast p hp⟩, hunique,
      fun block offset hblock hoffset => ?_⟩
    refine (existsUnique_congr fun p => and_congr_right fun hp => ?_).mp (hunique block hblock)
    have hend' := hlast p hp
    have hstart' := hlt p hp
    rw [satisfies_ctidBlockPredicate (by omega) (by omega) hoffset]

/-- Two scans of nine and of three blocks, and a budget of five workers. -/
def twoCandidates : List ScanWorkerBudgetCandidate := [⟨1, 3, 2, 0⟩, ⟨2, 9, 8, 0⟩]

theorem scanWorkers_partition_two :
    Candidates twoCandidates ∧ workerCount (assignScanWorkerBudgets twoCandidates 5) 1 = 2 ∧
      workerCount (assignScanWorkerBudgets twoCandidates 5) 2 = 3 ∧
      ∃! p, p ≤ 3 ∧
        Satisfies (ctidBlockPredicate (producerBlockRange 9 4 p).startBlock
          (producerBlockRange 9 4 p).endBlock)
          (6, 1) := by
  have hcandidates : Candidates twoCandidates := ⟨by decide, by decide, by decide, by decide⟩
  have hscan := (scanWorkers_partition twoCandidates hcandidates 5).2.2.2 ⟨2, 9, 8, 0⟩ (by decide)
    (by decide)
  exact ⟨hcandidates, by decide, by decide, hscan.2.2.2 6 1 (by decide) (by decide)⟩

end PgFusion.ScanWorkers

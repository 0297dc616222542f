import Mathlib.Tactic
import PgFusion.Data.Fallible
import PgFusion.Data.Masks

/-!
The optimizer of the `join_order` crate: dynamic programming over sets of relations.

A set of relations is a `u64`, here a natural number; `!` and the negation are those of 64 bits. An
`f64` is a rational number, so every number is finite. A vector that is indexed by sets is a
function of them. The clock is given by the time that it shows after each number of pairs.
-/

namespace PgFusion.JoinOrder

open Fallible Masks

/-! ### Sets of relations -/

/-- `RelSet`. -/
abbrev RelSet := ℕ

def maxU64Rels : ℕ := 64

/-- `usize::BITS`. -/
def usizeBits : ℕ := 64

/-- `RelSet::MAX`. -/
def relSetMax : RelSet := 2 ^ 64 - 1

/-- `rel_bit`. -/
def relBit (rel : ℕ) : RelSet := 2 ^ rel

/-- `!`. -/
def complement (set : RelSet) : RelSet := relSetMax ^^^ set

/-- `universe`, a word of Lean. -/
def relUniverse (relCount : ℕ) : RelSet :=
  if relCount = maxU64Rels then relSetMax else 2 ^ relCount - 1

/-- `lowest_bit`. -/
def lowestBit (set : RelSet) : RelSet := set &&& ((2 ^ 64 - set) % 2 ^ 64)

/-- `is_singleton`. -/
def isSingleton (set : RelSet) : Bool := decide (set ≠ 0 ∧ set &&& (set - 1) = 0)

/-- `count_ones`. -/
def countOnes (set : RelSet) : ℕ := ones 64 set

/-! ### Problems -/

/-- `RelStats`. -/
structure RelStats where
  rows : ℚ
  bytes : ℚ
deriving DecidableEq, Inhabited

/-- `JoinKind`. -/
inductive JoinKind where
  | inner
  | left
  | right
  | full
  | semi
  | anti
  | cross
deriving DecidableEq

/-- `EdgeFlags::COMMUTATIVE`. -/
def flagCommutative : ℕ := 1

/-- `EdgeFlags::contains`. -/
def flagsContain (flags other : ℕ) : Bool := flags &&& other == other

/-- `Edge`. -/
structure Edge where
  left : RelSet
  right : RelSet
  predStart : ℕ
  predLen : ℕ
  kind : JoinKind
  flags : ℕ
  selectivity : ℚ
deriving DecidableEq

/-- `matches!(edge.kind, JoinKind::Inner | JoinKind::Cross)`. -/
def Edge.isInnerOrCross (edge : Edge) : Bool := edge.kind = .inner ∨ edge.kind = .cross

/-- `Problem`. -/
structure Problem where
  rels : List RelStats
  edges : List Edge
  edgePreds : List ℕ
deriving DecidableEq

/-- `Problem::rel_count`. -/
def Problem.relCount (problem : Problem) : ℕ := problem.rels.length

/-- `JoinOrderConfig`. -/
structure JoinOrderConfig where
  maxRelations : ℕ
  maxPairs : ℕ
  timeout : Option ℕ
  allowCrossJoins : Bool
deriving DecidableEq

/-- `OptimizeError`. -/
inductive OptimizeError where
  | emptyProblem
  | tooManyRelations (relCount maxRelations : ℕ)
  | invalidRelSet (set allRels : RelSet)
  | invalidEdge (edgeIndex : ℕ) (reason : String)
  | unsupportedJoinKind (edgeIndex : ℕ) (kind : JoinKind)
  | disconnectedGraph
  | budgetExceeded (pairs maxPairs : ℕ)
  | timeout (pairs : ℕ)
  | noPlan
deriving DecidableEq

/-- The checks of `validate` on one relation. -/
def validateRel (rel : RelStats × ℕ) : Except OptimizeError Unit := do
  refuse (rel.1.rows < 0) (.invalidEdge rel.2 "relation rows must be finite and non-negative")
  refuse (rel.1.bytes < 0) (.invalidEdge rel.2 "relation bytes must be finite and non-negative")

/-- The checks of `validate` on one edge. -/
def validateEdge (problem : Problem) (edge : Edge × ℕ) : Except OptimizeError Unit := do
  let allRels := relUniverse problem.relCount
  refuse (edge.1.isInnerOrCross = false) (.unsupportedJoinKind edge.2 edge.1.kind)
  refuse (edge.1.left = 0 ∨ edge.1.right = 0) (.invalidEdge edge.2 "edge sides must be non-empty")
  refuse (edge.1.left &&& edge.1.right ≠ 0) (.invalidEdge edge.2 "edge sides must be disjoint")
  refuse ((edge.1.left ||| edge.1.right) &&& complement allRels ≠ 0)
    (.invalidRelSet (edge.1.left ||| edge.1.right) allRels)
  refuse (problem.edgePreds.length < edge.1.predStart + edge.1.predLen)
    (.invalidEdge edge.2 "predicate range is outside edge_preds")
  refuse (edge.1.selectivity < 0)
    (.invalidEdge edge.2 "edge selectivity must be finite and non-negative")

/-- `validate`. -/
def validate (problem : Problem) (config : JoinOrderConfig) : Except OptimizeError Unit := do
  refuse (problem.relCount = 0) .emptyProblem
  refuse (maxU64Rels < problem.relCount ∨ config.maxRelations < problem.relCount)
    (.tooManyRelations problem.relCount (min config.maxRelations maxU64Rels))
  refuse (usizeBits ≤ problem.relCount) (.tooManyRelations problem.relCount (usizeBits - 1))
  problem.rels.zipIdx.forM validateRel
  problem.edges.zipIdx.forM (validateEdge problem)

/-! ### The join graph -/

/-- One round of the loop of `is_connected` over the edges. -/
def visitEdge (set : RelSet) (visited : RelSet) (edge : Edge) : RelSet :=
  let edgeSet := edge.left ||| edge.right
  if edge.isInnerOrCross = false then visited
  else if edgeSet &&& complement set ≠ 0 then visited
  else if edgeSet &&& visited ≠ 0 then visited ||| edgeSet
  else visited

/-- The loop of `is_connected`. Every round but the last adds a relation, so that 64 rounds
are enough. -/
def visitLoop (problem : Problem) (set : RelSet) : ℕ → RelSet → RelSet
  | 0, visited => visited
  | rounds + 1, visited =>
    let next := problem.edges.foldl (visitEdge set) visited
    if next = visited then visited else visitLoop problem set rounds next

/-- `is_connected`. -/
def isConnected (problem : Problem) (set : RelSet) : Bool :=
  if isSingleton set then true else visitLoop problem set 64 (lowestBit set) = set

/-- `connected_sets`. -/
def connectedSets (problem : Problem) (root : RelSet) (set : RelSet) : Bool :=
  if 1 ≤ set ∧ set ≤ root then isConnected problem set else false

/-- `JoinLink`. -/
structure JoinLink where
  selectivity : ℚ
  commutative : Bool
deriving DecidableEq

/-- The edge joins the two sets, one way or the other. -/
def Edge.joins (edge : Edge) (left right : RelSet) : Bool :=
  (edge.left &&& complement left = 0 ∧ edge.right &&& complement right = 0) ∨
    (edge.left &&& complement right = 0 ∧ edge.right &&& complement left = 0)

/-- `Problem::join_link`. -/
def Problem.joinLink (problem : Problem) (left right : RelSet) : Option JoinLink :=
  let (link, found) := problem.edges.foldl (fun (acc : JoinLink × Bool) edge =>
    if edge.isInnerOrCross && edge.joins left right then
      (⟨acc.1.selectivity * edge.selectivity,
        acc.1.commutative && flagsContain edge.flags flagCommutative⟩, true)
    else acc) (⟨1, true⟩, false)
  if found then some link else none

/-! ### Splits -/

/-- The loop of `for_each_split`, from `left` on downwards: the pairs that it visits. -/
def splitsFrom (set : RelSet) (lefts : List RelSet) : List (RelSet × RelSet) :=
  lefts.filterMap fun left =>
    if left &&& lowestBit set ≠ 0 ∧ left ≠ set then
      if set ^^^ left ≠ 0 then some (left, set ^^^ left) else none
    else none

/-- `for_each_split`. -/
def forEachSplit {σ ε : Type} (set : RelSet) (f : σ → RelSet → RelSet → Except ε σ) (s : σ) :
    Except ε σ :=
  (splitsFrom set (subMasks set set ((set - 1) &&& set))).foldlM (fun s p => f s p.1 p.2) s

/-! ### Costs -/

/-- `BuildSide`. -/
inductive BuildSide where
  | left
  | right
deriving DecidableEq

/-- `Best`. -/
structure Best where
  cost : ℚ
  rows : ℚ
  bytes : ℚ
  left : RelSet
  right : RelSet
  buildSide : BuildSide
deriving DecidableEq

/-- `PlanStats`. -/
structure PlanStats where
  cost : ℚ
  rows : ℚ
  bytes : ℚ
deriving DecidableEq

/-- `plan_stats`. -/
def planStats (best : Best) : PlanStats := ⟨best.cost, best.rows, best.bytes⟩

/-- `width`. -/
def width (stats : PlanStats) : ℚ := if 0 < stats.rows then stats.bytes / stats.rows else 0

/-- `estimate_join`. -/
def estimateJoin (left right : RelSet) (leftStats rightStats : PlanStats) (link : JoinLink) :
    Best :=
  let rows := max (leftStats.rows * rightStats.rows * link.selectivity) 0
  let bytes := rows * (width leftStats + width rightStats)
  let leftBuildCost := leftStats.bytes + rightStats.rows
  let rightBuildCost := rightStats.bytes + leftStats.rows
  let (buildSide, joinWork) :=
    if link.commutative = true ∧ rightBuildCost < leftBuildCost then
      (BuildSide.right, rightBuildCost)
    else (BuildSide.left, leftBuildCost)
  ⟨leftStats.cost + rightStats.cost + joinWork + rows + bytes, rows, bytes, left, right, buildSide⟩

/-! ### The search -/

/-- `SearchCtx`. -/
structure SearchCtx where
  pairs : ℕ
  maxPairs : ℕ
  timeout : Option ℕ
deriving DecidableEq

def timeoutCheckInterval : ℕ := 128

/-- `SearchCtx::new`. -/
def SearchCtx.new (config : JoinOrderConfig) : SearchCtx := ⟨0, config.maxPairs, config.timeout⟩

/-- `SearchCtx::observe_pair`; `elapsed` is the time on the clock after each number of
pairs. -/
def SearchCtx.observePair (elapsed : ℕ → ℕ) (ctx : SearchCtx) : Except OptimizeError SearchCtx := do
  let pairs := min (ctx.pairs + 1) (2 ^ 64 - 1)
  refuse (ctx.maxPairs < pairs) (.budgetExceeded pairs ctx.maxPairs)
  refuse (pairs % timeoutCheckInterval = 0 ∧ ∃ timeout ∈ ctx.timeout, timeout ≤ elapsed pairs)
    (.timeout pairs)
  return { ctx with pairs := pairs }

/-- `CountResult`. -/
structure CountResult where
  relCount : ℕ
  pairs : ℕ
  exceeded : Bool
deriving DecidableEq

section Search

variable (elapsed : ℕ → ℕ) (problem : Problem) (config : JoinOrderConfig)

/-- `sides_ready`, where `known` is the table that is filled so far. -/
def sidesReady (known : RelSet → Bool) (left right : RelSet) : Bool :=
  let connected := connectedSets problem (relUniverse problem.relCount)
  if config.allowCrossJoins then known left && known right else connected left && connected right

/-- The closure of `count_partitions`. -/
def countSplit (reachable : RelSet → Bool) (s : SearchCtx × Bool) (left right : RelSet) :
    Except OptimizeError (SearchCtx × Bool) := do
  if sidesReady problem config reachable left right = false then return s
  else if (problem.joinLink left right).isSome || config.allowCrossJoins then do
    let ctx ← s.1.observePair elapsed
    return (ctx, true)
  else return s

/-- The body of the inner loop of `count_partitions`. -/
def countSet (width : ℕ) (s : SearchCtx × (RelSet → Bool)) (set : RelSet) :
    Except OptimizeError (SearchCtx × (RelSet → Bool)) := do
  let connected := connectedSets problem (relUniverse problem.relCount)
  if countOnes set ≠ width then return s
  else if config.allowCrossJoins = false ∧ connected set = false then return s
  else do
    let (ctx, setReachable) ← forEachSplit set (countSplit elapsed problem config s.2) (s.1, false)
    return (ctx, Function.update s.2 set setReachable)

/-- `count_partitions`. -/
def countPartitions : Except OptimizeError CountResult := do
  validate problem config
  let relCount := problem.relCount
  let root := relUniverse relCount
  let reachable := fun set => decide (∃ rel < relCount, set = relBit rel)
  let (ctx, _) ← (List.range' 2 (relCount - 1)).foldlM (fun s width =>
    (List.range' 1 root).foldlM (countSet elapsed problem config width) s)
    (SearchCtx.new config, reachable)
  return ⟨relCount, ctx.pairs, false⟩

/-- The entries of a solution. -/
abbrev Entries := RelSet → Option Best

/-- `problem.join_link(left, right).or_else(..)`. -/
def linkOrCross (left right : RelSet) : Option JoinLink :=
  (problem.joinLink left right).or (if config.allowCrossJoins then some ⟨1, true⟩ else none)

/-- The closure of `optimize`. -/
def costSplit (entries : Entries) (s : SearchCtx × Option Best) (left right : RelSet) :
    Except OptimizeError (SearchCtx × Option Best) := do
  if sidesReady problem config (fun set => (entries set).isSome) left right = false then return s
  else
    match linkOrCross problem config left right with
    | none => return s
    | some link => do
      let ctx ← s.1.observePair elapsed
      match entries left, entries right with
      | some leftBest, some rightBest =>
        let candidate := estimateJoin left right (planStats leftBest) (planStats rightBest) link
        if s.2.all fun current => candidate.cost < current.cost then return (ctx, some candidate)
        else return (ctx, s.2)
      | _, _ => return (ctx, s.2)

/-- The body of the inner loop of `optimize`. -/
def costSet (width : ℕ) (s : SearchCtx × Entries) (set : RelSet) :
    Except OptimizeError (SearchCtx × Entries) := do
  let connected := connectedSets problem (relUniverse problem.relCount)
  if countOnes set ≠ width then return s
  else if connected set = false ∧ config.allowCrossJoins = false then return s
  else do
    let (ctx, best) ← forEachSplit set (costSplit elapsed problem config s.2) (s.1, none)
    return (ctx, Function.update s.2 set best)

/-- The entries of single relations. -/
def leafEntries (set : RelSet) : Option Best :=
  (List.range problem.relCount).findSome? fun rel =>
    if set = relBit rel then
      (problem.rels[rel]?).map fun stats => ⟨0, stats.rows, stats.bytes, 0, 0, .right⟩
    else none

end Search

/-- `Solution`. -/
structure Solution where
  root : RelSet
  entries : Entries

/-- `Solution::best`. -/
def Solution.best (solution : Solution) (set : RelSet) : Option Best :=
  if set ≤ solution.root then solution.entries set else none

/-- The count of `optimize`. -/
def prepass (countElapsed : ℕ → ℕ) (problem : Problem) (config : JoinOrderConfig) :
    Except OptimizeError CountResult :=
  match countPartitions countElapsed problem config with
  | .ok result => .ok result
  | .error (.budgetExceeded pairs _) => .error (.budgetExceeded pairs config.maxPairs)
  | .error error => .error error

/-- `optimize`; the clock is read from its start in the count and again in the search. -/
def optimize (countElapsed elapsed : ℕ → ℕ) (problem : Problem) (config : JoinOrderConfig) :
    Except OptimizeError Solution := do
  validate problem config
  let count ← prepass countElapsed problem config
  refuse (count.exceeded = true) (.budgetExceeded count.pairs config.maxPairs)
  let relCount := problem.relCount
  let root := relUniverse relCount
  refuse (connectedSets problem root root = false ∧ config.allowCrossJoins = false)
    .disconnectedGraph
  let (_, entries) ← (List.range' 2 (relCount - 1)).foldlM (fun s width =>
    (List.range' 1 root).foldlM (costSet elapsed problem config width) s)
    (SearchCtx.new config, leafEntries problem)
  refuse (entries root = none) .noPlan
  return ⟨root, entries⟩

end PgFusion.JoinOrder

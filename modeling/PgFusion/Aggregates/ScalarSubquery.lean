import PgFusion.Data.Fallible
import PgFusion.Frontend.Query

/-!
The value of a scalar subquery: the aggregate that reads its rows (`df_functions`:
`pg_scalar_subquery_value.rs`), and the joins that bring the value to the rows of a plan
(`pg/frontend`: `compiler/subquery.rs`).

DataFusion's parts are parameters: the plans that are compiled elsewhere, the checks of its
constructors, and its inner join, of which `IsInnerJoin` is what is assumed.

* `Accumulates`: what accumulators come to, however the rows are split and the states merged;
* `Accumulates.ends`: an accumulator holds the one row that it has read, and two rows are an error;
* `attachScalarSubqueries`: the plan with one join for each subquery;
* `Runs`: what a plan may return;
* `attach_runs`: the joins keep the rows of the plan, and add the value of each subquery;
* `scalar_subquery_value`: the two together.
-/

namespace PgFusion.Aggregates

open Fallible

variable {V : Type}

/-! ### The source -/

/-- `CARDINALITY_ERROR`, the only error of the accumulator. -/
inductive CardinalityError where
  | moreThanOneRow
deriving DecidableEq

/-- `PgScalarSubqueryValueAccumulator`. -/
structure ValueAccumulator (V : Type) where
  count : ℕ
  firstValue : Option (Option V)
deriving DecidableEq

namespace ValueAccumulator

/-- The accumulator that `accumulator` makes. -/
def new : ValueAccumulator V := ⟨0, none⟩

/-- `checked_add_count`. -/
def checkedAddCount (left right : ℕ) : Except CardinalityError ℕ :=
  if left + right < 2 ^ 64 then .ok (left + right) else .error .moreThanOneRow

/-- The end of `update_batch` and of `merge_batch`: so many rows, with the first of their values. -/
def add (a : ValueAccumulator V) (rows : ℕ) (value : Option V) :
    Except CardinalityError (ValueAccumulator V) := do
  let newCount ← checkedAddCount a.count rows
  refuse (1 < newCount) .moreThanOneRow
  return ⟨newCount, some value⟩

/-- `update_batch`. -/
def updateBatch (a : ValueAccumulator V) :
    List (Option V) → Except CardinalityError (ValueAccumulator V)
  | [] => .ok a
  | value :: rest => a.add (rest.length + 1) value

/-- `evaluate`. -/
def evaluate (a : ValueAccumulator V) : Except CardinalityError (Option V) :=
  match a.count with
  | 0 => .ok none
  | 1 => .ok (a.firstValue.getD none)
  | _ => .error .moreThanOneRow

/-- `state`: the count, and the first value or a null. -/
def state (a : ValueAccumulator V) : ℕ × Option V := (a.count, a.firstValue.getD none)

/-- `merge_batch` of one state. -/
def mergeState (a : ValueAccumulator V) (s : ℕ × Option V) :
    Except CardinalityError (ValueAccumulator V) :=
  if s.1 = 0 then .ok a
  else if 1 < s.1 then .error .moreThanOneRow
  else a.add s.1 s.2

/-- `merge_batch`. -/
def mergeBatch (a : ValueAccumulator V) (states : List (ℕ × Option V)) :
    Except CardinalityError (ValueAccumulator V) :=
  states.foldlM mergeState a

end ValueAccumulator

/-! ### Accumulation -/

/-- What the accumulators of a query can come to, after batches and merges in any grouping. An error
ends the query, whatever else would have been read. -/
inductive Accumulates : List (Option V) → Except CardinalityError (ValueAccumulator V) → Prop
  | new : Accumulates [] (.ok .new)
  | update {rows : List (Option V)} {a : ValueAccumulator V} (batch : List (Option V)) :
      Accumulates rows (.ok a) → Accumulates (rows ++ batch) (a.updateBatch batch)
  | merge {rows : List (Option V)} {a : ValueAccumulator V}
      (parts : List (List (Option V) × ValueAccumulator V)) :
      Accumulates rows (.ok a) → (∀ p ∈ parts, Accumulates p.1 (.ok p.2)) →
      Accumulates (rows ++ parts.flatMap Prod.fst) (a.mergeBatch (parts.map fun p => p.2.state))
  | fail {rows : List (Option V)} {e : CardinalityError} (before after : List (Option V)) :
      Accumulates rows (.error e) → Accumulates (before ++ rows ++ after) (.error e)

/-- An accumulator that has read the rows, of which there is one at most. -/
def Holds (rows : List (Option V)) (a : ValueAccumulator V) : Prop :=
  (rows = [] ∧ a = .new) ∨ ∃ value, rows = [value] ∧ a = ⟨1, some value⟩

/-- The two ways in which a step can end. -/
def Ends (rows : List (Option V)) (r : Except CardinalityError (ValueAccumulator V)) : Prop :=
  Outcome r (Holds rows) fun _ => 2 ≤ rows.length

variable {rows : List (Option V)} {a : ValueAccumulator V}

lemma Holds.count_eq (h : Holds rows a) : a.count = rows.length := by
  rcases h with ⟨rfl, rfl⟩ | ⟨value, rfl, rfl⟩ <;> rfl

/-- More rows, of which the first one is known if it is the only one. -/
lemma Holds.add (h : Holds rows a) {value : Option V} {rest : List (Option V)} :
    Ends (rows ++ value :: rest) (a.add (rest.length + 1) value) := by
  have hcount := h.count_eq
  have hlen : (rows ++ value :: rest).length = a.count + (rest.length + 1) := by
    rw [List.length_append, List.length_cons, hcount]
  rw [ValueAccumulator.add, ValueAccumulator.checkedAddCount]
  by_cases hfit : a.count + (rest.length + 1) < 2 ^ 64
  · rw [if_pos hfit, ok_bind]
    by_cases hmany : 1 < a.count + (rest.length + 1)
    · rw [refuse_of_pos hmany]
      exact .error (by omega)
    · rw [refuse_of_not hmany]
      -- neither rows before nor rows after this one
      have hrows : rows = [] := List.length_eq_zero_iff.mp (by omega)
      have hrest : rest = [] := List.length_eq_zero_iff.mp (by omega)
      have hzero : a.count = 0 := by omega
      rw [hrows, hrest, hzero]
      exact .ok (Or.inr ⟨value, rfl, rfl⟩)
  · rw [if_neg hfit]
    exact .error (by omega)

lemma Holds.updateBatch (h : Holds rows a) (batch : List (Option V)) :
    Ends (rows ++ batch) (a.updateBatch batch) := by
  cases batch with
  | nil =>
    rw [List.append_nil]
    exact .ok h
  | cons value rest => exact h.add

/-- A state that is merged stands for the rows of its accumulator. -/
lemma Holds.mergeState (h : Holds rows a) {part : List (Option V)} {b : ValueAccumulator V}
    (hb : Holds part b) :
    Ends (rows ++ part) (a.mergeState b.state) := by
  rcases hb with ⟨rfl, rfl⟩ | ⟨value, rfl, rfl⟩
  · rw [List.append_nil]
    exact .ok h
  · show Ends (rows ++ [value]) (a.add (([] : List (Option V)).length + 1) value)
    exact h.add

lemma Holds.mergeBatch (h : Holds rows a) {parts : List (List (Option V) × ValueAccumulator V)}
    (hparts : ∀ p ∈ parts, Holds p.1 p.2) :
    Ends (rows ++ parts.flatMap Prod.fst) (a.mergeBatch (parts.map fun p => p.2.state)) := by
  induction parts generalizing rows a with
  | nil =>
    rw [List.flatMap_nil, List.append_nil]
    exact .ok h
  | cons p parts ih =>
    obtain ⟨hok, herror⟩ := h.mergeState (hparts p (List.mem_cons_self ..))
    rw [ValueAccumulator.mergeBatch, List.map_cons, List.foldlM_cons, List.flatMap_cons,
      ← List.append_assoc]
    cases hstep : a.mergeState p.2.state with
    | ok b => exact ih (hok b hstep) fun q hq => hparts q (List.mem_cons_of_mem _ hq)
    | error e =>
      have hmany := herror e hstep
      refine .error ?_
      rw [List.length_append]
      omega

/-- **An accumulator holds the one row it has read, and two rows are an error.** -/
lemma Accumulates.ends {r : Except CardinalityError (ValueAccumulator V)} (h : Accumulates rows r) :
    Ends rows r := by
  induction h with
  | new => exact .ok (Or.inl ⟨rfl, rfl⟩)
  | update batch _ ih => exact (ih.1 _ rfl).updateBatch batch
  | merge parts _ _ ih ihparts => exact (ih.1 _ rfl).mergeBatch fun p hp => (ihparts p hp).1 _ rfl
  | fail before after _ ih =>
    have hmany := ih.2 _ rfl
    refine .error ?_
    rw [List.length_append, List.length_append]
    omega

/-- The value of the rows, or the cardinality error. -/
def scalarValue : List (Option V) → Except CardinalityError (Option V)
  | [] => .ok none
  | [value] => .ok value
  | _ => .error .moreThanOneRow

/-- **The result does not depend on how the rows are split.** -/
lemma Accumulates.evaluate {r : Except CardinalityError (ValueAccumulator V)}
    (h : Accumulates rows r) : (r >>= ValueAccumulator.evaluate) = scalarValue rows := by
  have hends := h.ends
  cases r with
  | error e =>
    match rows, hends.2 e rfl with
    | _ :: _ :: _, _ => rfl
  | ok a =>
    rcases hends.1 a rfl with ⟨rfl, rfl⟩ | ⟨value, rfl, rfl⟩
    · rfl
    · rfl

/-! ### The compiler -/

section Compiler

open Frontend

variable {B Q : Type}

mutual

/-- `collect_scalar_subqueries`. -/
def collectScalarSubqueries : QueryExpr Q → List Q
  | .scalarSubquery subquery => [subquery]
  | .relabelType inner | .cast inner _ | .unaryOp _ inner _ => collectScalarSubqueries inner
  | .functionCall _ args _ | .array args _ | .coalesce args _ | .bool _ args => collectAll args
  | .arraySubscript array index _ =>
    collectScalarSubqueries array ++ collectScalarSubqueries index
  | .binaryOp _ left right _ => collectScalarSubqueries left ++ collectScalarSubqueries right
  | .aggregateCall _ args _ filter _ => collectAll args ++ collectOptional filter
  | .windowCall _ args _ filter _ _ => collectAll args ++ collectOptional filter
  | .nullTest arg _ | .booleanTest arg _ => collectScalarSubqueries arg
  | .inSubquery expr _ _ => collectScalarSubqueries expr
  | .existsSubquery _ _ => []
  | .case operand whenThen elseExpr _ =>
    collectOptional operand ++ (collectArms whenThen ++ collectOptional elseExpr)
  | .var _ | .outerVar _ | .const _ | .param _ => []

def collectAll : List (QueryExpr Q) → List Q
  | [] => []
  | arg :: args => collectScalarSubqueries arg ++ collectAll args

def collectOptional : Option (QueryExpr Q) → List Q
  | none => []
  | some expr => collectScalarSubqueries expr

def collectArms : List (QueryExpr Q × QueryExpr Q) → List Q
  | [] => []
  | (condition, value) :: arms =>
    collectScalarSubqueries condition ++ (collectScalarSubqueries value ++ collectArms arms)

end

/-- The nodes that are built for scalar subqueries, over plans that are given. -/
inductive LogicalPlan (B : Type) where
  | base (plan : B)
  /-- `pg_scalar_subquery_value` of the one column, without groups. -/
  | aggregate (input : LogicalPlan B) (outputAlias : String)
  | subqueryAlias (input : LogicalPlan B) (tableAlias : String)
  /-- An inner join without keys and without a filter. -/
  | join (left right : LogicalPlan B)

/-- The number of columns of a plan. -/
def LogicalPlan.fieldCount (fields : B → ℕ) : LogicalPlan B → ℕ
  | .base plan => fields plan
  | .aggregate _ _ => 1
  | .subqueryAlias input _ => input.fieldCount fields
  | .join left right => left.fieldCount fields + right.fieldCount fields

/-- `ScalarSubqueryBinding`. -/
structure ScalarSubqueryBinding (Q : Type) where
  query : Q
  column : String × String

/-- `scalar_subquery_value_alias`. -/
def scalarSubqueryValueAlias (index : ℕ) : String :=
  if index = 0 then "scalar_subquery_value" else "scalar_subquery_value_" ++ toString (index + 1)

variable [DecidableEq Q] (fields : B → ℕ) (tryNew : LogicalPlan B → Except PgFrontendError Unit)
  (queryContainsOuterVar : Q → Bool)
  (compileTypedQuery : Q → Except PgFrontendError (LogicalPlan B))

/-- `scalar_subquery_value_plan`. -/
def scalarSubqueryValuePlan (subqueryPlan : LogicalPlan B) (outputAlias : String) :
    Except PgFrontendError (LogicalPlan B) := do
  refuse (subqueryPlan.fieldCount fields ≠ 1)
    (.unsupported "scalar subquery must return exactly one column")
  tryNew (.aggregate subqueryPlan outputAlias)
  return .aggregate subqueryPlan outputAlias

/-- One round of the loop of `attach_scalar_subqueries`. -/
def attachScalarSubquery (s : LogicalPlan B × List (ScalarSubqueryBinding Q)) (subquery : Q) :
    Except PgFrontendError (LogicalPlan B × List (ScalarSubqueryBinding Q)) :=
  if s.2.any fun binding => binding.query = subquery then .ok s
  else if queryContainsOuterVar subquery then .ok s
  else do
    let subqueryPlan ← compileTypedQuery subquery
    let subqueryPlan ← scalarSubqueryValuePlan fields tryNew subqueryPlan
      (scalarSubqueryValueAlias s.2.length)
    let tableAlias := "scalar_subquery_" ++ toString (s.2.length + 1)
    tryNew (.subqueryAlias subqueryPlan tableAlias)
    tryNew (.join s.1 (.subqueryAlias subqueryPlan tableAlias))
    return (.join s.1 (.subqueryAlias subqueryPlan tableAlias),
      s.2 ++ [⟨subquery, tableAlias, scalarSubqueryValueAlias s.2.length⟩])

/-- `attach_scalar_subqueries`: the plan, and the bindings after it. -/
def attachScalarSubqueries (plan : LogicalPlan B) (expr : QueryExpr Q)
    (bindings : List (ScalarSubqueryBinding Q)) :
    Except PgFrontendError (LogicalPlan B × List (ScalarSubqueryBinding Q)) :=
  (collectScalarSubqueries expr).foldlM
    (attachScalarSubquery fields tryNew queryContainsOuterVar compileTypedQuery) (plan, bindings)

/-! ### Running a plan -/

variable (rowsOf : B → Except CardinalityError (List (List (Option V))))
  (innerJoin : List (List (Option V)) → List (List (Option V)) → List (List (Option V)))

/-- What is assumed of a join without a condition: the pairs of rows, in any order. -/
def IsInnerJoin : Prop :=
  ∀ left right, (innerJoin left right).Perm (left.flatMap fun l => right.map fun r => l ++ r)

/-- What a plan may return. An aggregate reads the rows in any order, and splits them in any way. -/
inductive Runs : LogicalPlan B → Except CardinalityError (List (List (Option V))) → Prop
  | base (plan : B) : Runs (.base plan) (rowsOf plan)
  | aggregate {input : LogicalPlan B} {outputAlias : String} {rows : List (List (Option V))}
      {values : List (Option V)} {r : Except CardinalityError (ValueAccumulator V)}
      {result : Except CardinalityError (List (List (Option V)))} :
      Runs input (.ok rows) → values.Perm (rows.map fun row => row.headD none) →
      Accumulates values r → result = (r >>= ValueAccumulator.evaluate).map (fun v => [[v]]) →
      Runs (.aggregate input outputAlias) result
  | aggregateFails {input : LogicalPlan B} {outputAlias : String} {e : CardinalityError} :
      Runs input (.error e) → Runs (.aggregate input outputAlias) (.error e)
  | subqueryAlias {input : LogicalPlan B} {tableAlias : String}
      {result : Except CardinalityError (List (List (Option V)))} :
      Runs input result → Runs (.subqueryAlias input tableAlias) result
  | join {left right : LogicalPlan B} {leftRows rightRows : List (List (Option V))} :
      Runs left (.ok leftRows) → Runs right (.ok rightRows) →
      Runs (.join left right) (.ok (innerJoin leftRows rightRows))
  | joinFails {left right side : LogicalPlan B} {e : CardinalityError} :
      side = left ∨ side = right → Runs side (.error e) → Runs (.join left right) (.error e)

/-- Every plan returns something. -/
lemma exists_runs (plan : LogicalPlan B) : ∃ result, Runs rowsOf innerJoin plan result := by
  induction plan with
  | base plan => exact ⟨_, .base plan⟩
  | subqueryAlias input tableAlias ih => exact ⟨ih.choose, .subqueryAlias ih.choose_spec⟩
  | aggregate input outputAlias ih =>
    obtain ⟨result, hresult⟩ := ih
    cases result with
    | error e => exact ⟨_, .aggregateFails hresult⟩
    | ok rows => exact ⟨_, .aggregate hresult (.refl _) (Accumulates.new.update _) rfl⟩
  | join left right ihleft ihright =>
    obtain ⟨left', hleft⟩ := ihleft
    obtain ⟨right', hright⟩ := ihright
    cases left' with
    | error e => exact ⟨_, .joinFails (.inl rfl) hleft⟩
    | ok leftRows =>
      cases right' with
      | error e => exact ⟨_, .joinFails (.inr rfl) hright⟩
      | ok rightRows => exact ⟨_, .join hleft hright⟩

/-- The value of a subquery: null for no row, and the value of the one row. -/
def Answers (subquery : Q) (value : Option V) : Prop :=
  ∃ plan rows, compileTypedQuery subquery = .ok plan ∧ Runs rowsOf innerJoin plan (.ok rows) ∧
    scalarValue (rows.map fun row => row.headD none) = .ok value

/-- The plan of a scalar subquery returns its value. -/
lemma runs_aggregate {plan : LogicalPlan B} {outputAlias : String} {rows : List (List (Option V))}
    (h : Runs rowsOf innerJoin (.aggregate plan outputAlias) (.ok rows)) :
    ∃ value input, rows = [[value]] ∧ Runs rowsOf innerJoin plan (.ok input) ∧
      scalarValue (input.map fun row => row.headD none) = .ok value := by
  cases h with
  | aggregate hinput hperm haccumulates hresult =>
    rename_i input values r
    rw [haccumulates.evaluate] at hresult
    cases hvalue : scalarValue values with
    | error e =>
      rw [hvalue] at hresult
      cases hresult
    | ok value =>
      rw [hvalue] at hresult
      refine ⟨value, input, Except.ok.inj hresult, hinput, ?_⟩
      match values, hvalue with
      | [], hvalue => rwa [List.nil_perm.mp hperm]
      | [v], hvalue => rwa [← List.singleton_perm.mp hperm]

/-- **The joins keep the rows of the plan**, and add to each the values of the subqueries. -/
lemma attach_runs (hjoin : IsInnerJoin innerJoin) (subqueries : List Q)
    {s s' : LogicalPlan B × List (ScalarSubqueryBinding Q)} (h : subqueries.foldlM
      (attachScalarSubquery fields tryNew queryContainsOuterVar compileTypedQuery) s = .ok s')
    {joined : List (List (Option V))} (hrun : Runs rowsOf innerJoin s'.1 (.ok joined)) :
    ∃ kept values added, Runs rowsOf innerJoin s.1 (.ok kept) ∧ s'.2 = s.2 ++ added ∧
      joined.Perm (kept.map (· ++ values)) ∧
      List.Forall₂ (fun binding value =>
        Answers compileTypedQuery rowsOf innerJoin binding.query value) added values := by
  induction subqueries generalizing s with
  | nil =>
    obtain rfl := Except.ok.inj h
    refine ⟨joined, [], [], hrun, (List.append_nil _).symm, ?_, .nil⟩
    simp only [List.append_nil, List.map_id']
    exact .refl _
  | cons subquery subqueries ih =>
    rw [List.foldlM_cons, bind_eq_ok] at h
    obtain ⟨next, hnext, hrest⟩ := h
    obtain ⟨kept, values, added, hkept, hbindings, hperm, hanswers⟩ := ih hrest
    rw [attachScalarSubquery] at hnext
    split_ifs at hnext
    · obtain rfl := Except.ok.inj hnext
      exact ⟨kept, values, added, hkept, hbindings, hperm, hanswers⟩
    · obtain rfl := Except.ok.inj hnext
      exact ⟨kept, values, added, hkept, hbindings, hperm, hanswers⟩
    · simp only [scalarSubqueryValuePlan, bind_eq_ok, pure_eq_ok] at hnext
      obtain ⟨plan, hplan, _, ⟨-, -, -, -, rfl⟩, -, -, -, -, rfl⟩ := hnext
      cases hkept with
      | join hleft hright =>
        rename_i leftRows rightRows
        cases hright with
        | subqueryAlias hright =>
          obtain ⟨value, input, rfl, hinput, hvalue⟩ := runs_aggregate rowsOf innerJoin hright
          rw [List.append_assoc, List.singleton_append] at hbindings
          refine ⟨leftRows, value :: values, _, hleft, hbindings, hperm.trans ?_,
            .cons ⟨plan, input, hplan, hinput, hvalue⟩ hanswers⟩
          refine ((hjoin leftRows [[value]]).map _).trans (.of_eq ?_)
          rw [List.map_flatMap, List.map_eq_flatMap]
          simp only [List.map_cons, List.map_nil, List.append_assoc, List.singleton_append]

end Compiler

/-- **A scalar subquery has one value however its rows are split**: null for no row, the value of
the one row, and the cardinality error for more of them. The joins that are attached for the
subqueries of an expression keep every row of the plan as often as it occurs, with the values of the
subqueries behind it. -/
theorem scalar_subquery_value {B Q : Type} [DecidableEq Q] (rows : List (Option V))
    (r : Except CardinalityError (ValueAccumulator V)) (h : Accumulates rows r) (fields : B → ℕ)
    (tryNew : LogicalPlan B → Except Frontend.PgFrontendError Unit)
    (queryContainsOuterVar : Q → Bool)
    (compileTypedQuery : Q → Except Frontend.PgFrontendError (LogicalPlan B))
    (rowsOf : B → Except CardinalityError (List (List (Option V))))
    (innerJoin : List (List (Option V)) → List (List (Option V)) → List (List (Option V)))
    (hjoin : IsInnerJoin innerJoin) :
    ((rows = [] → (r >>= ValueAccumulator.evaluate) = .ok none) ∧
      (∀ value, rows = [value] → (r >>= ValueAccumulator.evaluate) = .ok value) ∧
      (2 ≤ rows.length → (r >>= ValueAccumulator.evaluate) = .error .moreThanOneRow)) ∧
    ∀ plan expr bindings plan' bindings',
      attachScalarSubqueries fields tryNew queryContainsOuterVar compileTypedQuery plan expr
        bindings = .ok (plan', bindings') →
      (∃ result, Runs rowsOf innerJoin plan' result) ∧
      ∀ joined, Runs rowsOf innerJoin plan' (.ok joined) →
        ∃ kept values added, Runs rowsOf innerJoin plan (.ok kept) ∧
          bindings' = bindings ++ added ∧ joined.Perm (kept.map (· ++ values)) ∧
          List.Forall₂ (fun binding value =>
            Answers compileTypedQuery rowsOf innerJoin binding.query value) added values := by
  refine ⟨?_, fun plan expr bindings plan' bindings' hattach => ⟨exists_runs rowsOf innerJoin plan',
    fun joined hrun => attach_runs fields tryNew queryContainsOuterVar compileTypedQuery rowsOf
      innerJoin hjoin _ hattach hrun⟩⟩
  rw [h.evaluate]
  refine ⟨?_, ?_, fun hmany => ?_⟩
  · rintro rfl
    rfl
  · rintro value rfl
    rfl
  · match rows, hmany with
    | _ :: _ :: _, _ => rfl

/-- A plan of three rows, and that of a subquery with one null row. -/
def sampleRows (plan : ℕ) : Except CardinalityError (List (List (Option ℕ))) :=
  .ok (if plan = 0 then [[some 10], [some 20], [some 10]] else [[none]])

/-- The pairs of rows in order. -/
def nestedLoop (left right : List (List (Option ℕ))) : List (List (Option ℕ)) :=
  left.flatMap fun l => right.map fun r => l ++ r

/-- A null row, read by an accumulator whose state is merged after an empty one; and the null that
is joined to the three rows. -/
theorem scalar_subquery_value_null :
    (ValueAccumulator.new.mergeBatch [(0, none), ((1, none) : ℕ × Option ℕ)] >>=
      ValueAccumulator.evaluate) = .ok none ∧
    ∃ s, attachScalarSubqueries (fun _ => 1) (fun _ => .ok ()) (fun _ => false)
        (fun query : ℕ => .ok (.base query)) (.base 0) (.scalarSubquery 1) [] = .ok s ∧
      ∀ joined, Runs sampleRows nestedLoop s.1 (.ok joined) →
        joined.Perm [[some 10, none], [some 20, none], [some 10, none]] := by
  have hpart : Accumulates [none] (.ok (⟨1, some none⟩ : ValueAccumulator ℕ)) :=
    Accumulates.new.update [none]
  have hall : ∀ p ∈ [(([] : List (Option ℕ)), ValueAccumulator.new), ([none], ⟨1, some none⟩)],
      Accumulates p.1 (.ok p.2) := by
    intro p hp
    rcases List.mem_cons.mp hp with rfl | hp
    · exact .new
    · rw [List.mem_singleton.mp hp]
      exact hpart
  obtain ⟨⟨-, hone, -⟩, hattach⟩ := scalar_subquery_value _ _ (Accumulates.new.merge _ hall)
    (fun _ => 1) (fun _ => .ok ()) (fun _ => false) (fun query : ℕ => .ok (.base query)) sampleRows
    nestedLoop fun _ _ => .refl _
  refine ⟨hone none rfl, _, rfl, fun joined hrun => ?_⟩
  obtain ⟨kept, values, added, hkept, hadded, hperm, hanswers⟩ :=
    (hattach (.base 0) (.scalarSubquery 1) [] _ _ rfl).2 joined hrun
  rw [List.nil_append] at hadded
  subst hadded
  obtain ⟨value, rest, hanswer, hrest, rfl⟩ := List.forall₂_cons_left_iff.mp hanswers
  obtain rfl := List.forall₂_nil_left_iff.mp hrest
  obtain ⟨plan, rows, hplan, hrows, hvalue⟩ := hanswer
  obtain rfl := Except.ok.inj hplan
  have hbase : ∀ {n rows}, Runs sampleRows nestedLoop (.base n) (.ok rows) →
      sampleRows n = .ok rows := by
    intro n rows h
    cases h
    rfl
  obtain rfl := Except.ok.inj (hbase hkept)
  obtain rfl := Except.ok.inj (hbase hrows)
  obtain rfl := Except.ok.inj hvalue
  exact hperm

end PgFusion.Aggregates

import Mathlib.Data.Finset.Sort
import PgFusion.Data.Fallible
import PgFusion.ScanSql.Render

/-!
Scans as SQL (`scan_sql`: `compile.rs`, `types.rs`): what can be rendered of the filters is pushed
into the `WHERE` clause and the rest is left to the caller.

* `compileScan_preserves`: the rows of the scan are those of the filters, but for the limit.
-/

namespace PgFusion.ScanSql

open Sql
open Fallible (Outcome bind_eq_ok pure_eq_ok)

/-! ### Inputs and results -/

/-- `LimitLowering`. -/
inductive LimitLowering where
  | externalHint
  | sqlClause
deriving DecidableEq

/-- `CompileScanInput`; the schema by the names of its fields. -/
structure CompileScanInput where
  relation : PgRelation
  schema : List String
  identifierMaxBytes : ℕ
  projection : Option (List ℕ)
  filters : List Expr
  requestedLimit : Option ℕ
  limitLowering : LimitLowering

/-- What the filters are rendered for. -/
def CompileScanInput.target (input : CompileScanInput) : Target :=
  ⟨input.schema, input.relation, input.identifierMaxBytes⟩

/-- `CompiledFilter`. -/
structure CompiledFilter where
  originalIndex : ℕ
  sql : String
deriving DecidableEq

/-- `CompiledScan`. -/
structure CompiledScan where
  sql : String
  requestedLimit : Option ℕ
  sqlLimit : Option ℕ
  selectedColumns : List ℕ
  outputColumns : List ℕ
  filterOnlyColumns : List ℕ
  residualFilterColumns : List ℕ
  pushedFilters : List CompiledFilter
  residualFilters : List Expr
  allFiltersCompiled : Bool
  usesDummyProjection : Bool

/-! ### Checks -/

/-- `validate_scan_identifiers`. -/
def validateScanIdentifiers (schema : List String) (relation : PgRelation) (maxBytes : ℕ) :
    Except Failure Unit := do
  relation.validate maxBytes
  schema.forM fun name => validateIdentifier name maxBytes "column"

/-- `validate_projection`. -/
def validateProjection (schema : List String) (projection : Option (List ℕ)) :
    Except Failure (List ℕ) := do
  let projection := projection.getD (List.range schema.length)
  projection.forM fun index =>
    if schema.length ≤ index then throw (.error (.invalidProjectionIndex index schema.length))
    else pure ()
  return projection

/-! ### Conjuncts -/

/-- `split_top_level_and`. -/
def splitTopLevelAnd : Expr → List Expr
  | .alias e _ => splitTopLevelAnd e
  | .binaryExpr l op r =>
    if op = .and then splitTopLevelAnd l ++ splitTopLevelAnd r else [.binaryExpr l op r]
  | e => [e]

/-- The conjuncts of all filters, each with the index of its filter. -/
def conjuncts (filters : List Expr) : List (ℕ × Expr) :=
  filters.zipIdx.flatMap fun filter => (splitTopLevelAnd filter.1).map fun e => (filter.2, e)

mutual

/-- The columns of an expression, in the order in which `Expr::apply` visits them. -/
def exprColumns : Expr → List Column
  | .alias e _ => exprColumns e
  | .column column => [column]
  | .literal _ _ => []
  | .binaryExpr l _ r => exprColumns l ++ exprColumns r
  | .like _ e p _ _ => exprColumns e ++ exprColumns p
  | .similarTo _ e p _ _ => exprColumns e ++ exprColumns p
  | .not e => exprColumns e
  | .test _ _ e => exprColumns e
  | .negative e => exprColumns e
  | .between e _ l h => exprColumns e ++ exprColumns l ++ exprColumns h
  | .case b arms otherwise =>
    exprColumnsOption b ++ exprColumnsArms arms ++ exprColumnsOption otherwise
  | .cast e _ => exprColumns e
  | .tryCast e _ => exprColumns e
  | .scalarFunction _ args => exprColumnsAll args
  | .inList e list _ => exprColumns e ++ exprColumnsAll list
  | .other children => exprColumnsAll children

def exprColumnsAll : List Expr → List Column
  | [] => []
  | e :: es => exprColumns e ++ exprColumnsAll es

def exprColumnsOption : Option Expr → List Column
  | none => []
  | some e => exprColumns e

def exprColumnsArms : List (Expr × Expr) → List Column
  | [] => []
  | (w, t) :: arms => exprColumns w ++ exprColumns t ++ exprColumnsArms arms

end

/-- `collect_filter_columns`. -/
def collectFilterColumns (target : Target) (e : Expr) : Except Failure (Finset ℕ) :=
  (exprColumns e).foldlM
    (fun columns column => do
      let rendered ← renderColumn target column
      return columns ∪ rendered.referencedColumns) ∅

/-- The state of the loop over the conjuncts. -/
structure Split where
  pushedFilters : List CompiledFilter
  residualFilters : List Expr
  pushedColumns : Finset ℕ
  residualColumns : Finset ℕ

/-- The state before the loop. -/
def Split.empty : Split := ⟨[], [], ∅, ∅⟩

/-- One conjunct: what is rendered is pushed, what is refused is left. -/
def splitConjunct (target : Target) (s : Split) (conjunct : ℕ × Expr) : Except Failure Split :=
  match renderExpr target conjunct.2 with
  | .error failure => .error failure
  | .ok (some rendered) =>
    .ok { s with
      pushedFilters := s.pushedFilters ++ [⟨conjunct.1, rendered.sql⟩]
      pushedColumns := s.pushedColumns ∪ rendered.referencedColumns }
  | .ok none => do
    let columns ← collectFilterColumns target conjunct.2
    return { s with
      residualFilters := s.residualFilters ++ [conjunct.2]
      residualColumns := s.residualColumns ∪ columns }

/-! ### Statements -/

/-- The `WHERE` clause of the predicates, if there are any. -/
def whereClause (predicates : List String) : String :=
  if predicates.isEmpty then "" else " WHERE " ++ joinTexts " AND " predicates

/-- The `LIMIT` clause. -/
def limitClause (limit : Option ℕ) : String := limit.elim "" fun n => " LIMIT " ++ toString n

/-- `DUMMY_PROJECTION_ALIAS`. -/
def dummyProjectionAlias : String := "__pg_fusion_scan_dummy"

/-- The select list for the columns of the output. -/
def selectList (schema : List String) (outputColumns : List ℕ) : String :=
  if outputColumns.isEmpty then "NULL::boolean AS " ++ quoteIdentifier dummyProjectionAlias
  else joinTexts ", " (outputColumns.map fun index => quoteIdentifier (schema.getD index ""))

/-- The `sql_limit` of a scan. -/
def lowerLimit (lowering : LimitLowering) (requestedLimit : Option ℕ) : Option ℕ :=
  match lowering with
  | .externalHint => none
  | .sqlClause => requestedLimit

/-- What `compile_scan` does after the loop. -/
def assembleScan (input : CompileScanInput) (selectedColumns : List ℕ) (s : Split) : CompiledScan :=
  let residualFilterColumns := s.residualColumns.sort.filter fun index => index ∉ selectedColumns
  let outputColumns := selectedColumns ++ residualFilterColumns
  let sqlLimit := lowerLimit input.limitLowering input.requestedLimit
  { sql := "SELECT " ++ selectList input.schema outputColumns ++ " FROM " ++
      input.relation.renderSql ++ whereClause (s.pushedFilters.map CompiledFilter.sql) ++
      limitClause sqlLimit
    requestedLimit := input.requestedLimit
    sqlLimit
    selectedColumns
    outputColumns
    filterOnlyColumns := s.pushedColumns.sort.filter fun index => index ∉ outputColumns
    residualFilterColumns
    pushedFilters := s.pushedFilters
    residualFilters := s.residualFilters
    allFiltersCompiled := s.residualFilters.isEmpty
    usesDummyProjection := outputColumns.isEmpty }

/-- `compile_scan`. -/
def compileScan (input : CompileScanInput) : Except Failure CompiledScan := do
  validateScanIdentifiers input.schema input.relation input.identifierMaxBytes
  let selectedColumns ← validateProjection input.schema input.projection
  let s ← (conjuncts input.filters).foldlM (splitConjunct input.target) .empty
  return assembleScan input selectedColumns s

/-- `render_unprojected_scan_sql_with_extra_predicate`. -/
def renderUnprojectedScanSqlWithExtraPredicate (relation : PgRelation) (scan : CompiledScan)
    (extraPredicate : Option String) : String :=
  "SELECT * FROM " ++ relation.renderSql ++
    (if ¬ scan.pushedFilters.isEmpty ∨ extraPredicate.isSome then
      " WHERE " ++ joinTexts " AND " (scan.pushedFilters.map CompiledFilter.sql ++
        extraPredicate.toList)
    else "") ++ limitClause scan.sqlLimit

/-- `render_unprojected_scan_sql`. -/
def renderUnprojectedScanSql (relation : PgRelation) (scan : CompiledScan) : String :=
  renderUnprojectedScanSqlWithExtraPredicate relation scan none

/-- The predicate of `render_unprojected_ctid_block_scan_sql`. -/
def ctidBlockPredicate (startBlock endBlock : ℕ) : String :=
  "ctid >= '(" ++ toString startBlock ++ ",1)'::tid AND ctid < '(" ++ toString endBlock ++
    ",1)'::tid"

/-! ### Rows -/

/-- `AND` of three values. -/
def kleeneAnd : Option Bool → Option Bool → Option Bool
  | some false, _ => some false
  | _, some false => some false
  | some true, some true => some true
  | _, _ => none

lemma kleeneAnd_eq_true {a b : Option Bool} :
    kleeneAnd a b = some true ↔ a = some true ∧ b = some true := by
  rcases a with _ | _ | _ <;> rcases b with _ | _ | _ <;> decide

/-- The values of filters on rows, `none` being unknown. What an operator other than `AND`
stands for is left open. -/
structure Truth (Row : Type) where
  value : Expr → Row → Option Bool
  alias_eq : ∀ e name row, value (.alias e name) row = value e row
  and_eq : ∀ l r row, value (.binaryExpr l .and r) row = kleeneAnd (value l row) (value r row)

/-- The filters are true on the row. -/
def Truth.keeps {Row : Type} (truth : Truth Row) (filters : List Expr) (row : Row) : Bool :=
  filters.all fun e => truth.value e row = some true

/-- The rows that a limit leaves. -/
def limited {Row : Type} (limit : Option ℕ) (rows : List Row) : List Row :=
  limit.elim rows rows.take

/-- A statement `SELECT items FROM relation WHERE predicates LIMIT limit`. -/
structure Select where
  items : String
  relation : PgRelation
  predicates : List String
  limit : Option ℕ

def Select.text (select : Select) : String :=
  "SELECT " ++ select.items ++ " FROM " ++ select.relation.renderSql ++
    whereClause select.predicates ++ limitClause select.limit

/-- The rows of the relation that a statement keeps, for the value of each predicate's text. -/
def Select.kept {Row : Type} (select : Select) (value : String → Row → Option Bool)
    (rows : List Row) : List Row :=
  limited select.limit (rows.filter fun row => select.predicates.all fun predicate =>
    value predicate row = some true)

/-- The statement of a compiled scan. -/
def CompiledScan.select (scan : CompiledScan) (input : CompileScanInput) : Select :=
  ⟨selectList input.schema scan.outputColumns, input.relation,
    scan.pushedFilters.map CompiledFilter.sql, scan.sqlLimit⟩

/-! ### The conjuncts of the filters -/

/-- The filter that a conjunct is pushed as, if it is rendered. -/
def renderedFilter (target : Target) (conjunct : ℕ × Expr) : Option CompiledFilter :=
  match renderExpr target conjunct.2 with
  | .ok (some rendered) => some ⟨conjunct.1, rendered.sql⟩
  | _ => none

/-- The expression mentions the column with the index. -/
def Mentions (target : Target) (e : Expr) (index : ℕ) : Prop :=
  ∃ column ∈ exprColumns e, ∃ rendered, renderColumn target column = .ok rendered ∧
    index ∈ rendered.referencedColumns

section Values

variable {Row : Type} (truth : Truth Row)

/-- An expression is true where all its conjuncts are. -/
lemma Truth.keeps_splitTopLevelAnd (e : Expr) (row : Row) :
    truth.keeps (splitTopLevelAnd e) row = truth.keeps [e] row := by
  induction e using splitTopLevelAnd.induct with
  | case1 e name ih =>
    rw [splitTopLevelAnd, ih, Truth.keeps, Truth.keeps, List.all_cons, List.all_cons,
      truth.alias_eq]
  | case2 l r ihl ihr =>
    have hkeeps : ∀ e, truth.keeps [e] row = decide (truth.value e row = some true) :=
      fun e => Bool.and_true _
    rw [splitTopLevelAnd, if_pos rfl, Truth.keeps, List.all_append, ← Truth.keeps, ← Truth.keeps,
      ihl, ihr, hkeeps, hkeeps, hkeeps, truth.and_eq, ← Bool.decide_and]
    exact decide_eq_decide.mpr kleeneAnd_eq_true.symm
  | case3 l op r hop => rw [splitTopLevelAnd, if_neg hop]
  | case4 e halias hbinary => rw [splitTopLevelAnd.eq_3 e halias hbinary]

lemma Truth.keeps_cons (e : Expr) (filters : List Expr) (row : Row) :
    truth.keeps (e :: filters) row = (truth.keeps [e] row && truth.keeps filters row) := by
  rw [Truth.keeps, List.all_cons, ← Truth.keeps]
  exact congrArg (· && _) (Bool.and_true _).symm

/-- All filters are true where all conjuncts are. -/
lemma Truth.keeps_conjuncts (filters : List Expr) (row : Row) :
    truth.keeps ((conjuncts filters).map Prod.snd) row = truth.keeps filters row := by
  suffices h : ∀ start, truth.keeps (((filters.zipIdx start).flatMap fun filter =>
      (splitTopLevelAnd filter.1).map fun e =>
        (filter.2, e)).map Prod.snd) row = truth.keeps filters row from h 0
  induction filters with
  | nil => exact fun _ => rfl
  | cons e filters ih =>
    intro start
    rw [List.zipIdx_cons, List.flatMap_cons, List.map_append, List.map_map, Truth.keeps,
      List.all_append, ← Truth.keeps, ← Truth.keeps, ih, truth.keeps_cons e filters]
    refine congrArg (· && _) ?_
    rw [← truth.keeps_splitTopLevelAnd e]
    exact congrArg (truth.keeps · row) (List.map_id _)

/-- Conjuncts may be tested in two parts. -/
lemma Truth.keeps_partition (parts : List (ℕ × Expr)) (p : ℕ × Expr → Bool) (row : Row) :
    (truth.keeps ((parts.filter p).map Prod.snd) row &&
      truth.keeps ((parts.filter fun part => !p part).map Prod.snd) row)
      = truth.keeps (parts.map Prod.snd) row := by
  rw [Truth.keeps, Truth.keeps, Truth.keeps, List.all_map, List.all_map, List.all_map,
    List.all_filter, List.all_filter,
    Bool.eq_iff_iff, Bool.and_eq_true, List.all_eq_true, List.all_eq_true, List.all_eq_true]
  constructor
  · rintro ⟨h, h'⟩ part hmem
    specialize h part hmem
    specialize h' part hmem
    cases hp : p part with
    | true => simpa [hp] using h
    | false => simpa [hp] using h'
  · intro h
    constructor
    · intro part hmem
      rw [h part hmem, Bool.or_true]
    · intro part hmem
      rw [h part hmem, Bool.or_true]

end Values

/-! ### The loop -/

section Loop

variable {target : Target}

/-- The columns that are collected are those of the expression, and all of them are known. -/
lemma collectFilterColumns_outcome (e : Expr) :
    Outcome (collectFilterColumns target e)
      (fun columns => (∀ i, i ∈ columns ↔ Mentions target e i) ∧
        ∀ column ∈ exprColumns e, ∃ rendered, renderColumn target column = .ok rendered)
      fun _ => True := by
  refine Outcome.foldlM (fun done columns =>
    (∀ i, i ∈ columns ↔ ∃ column ∈ done, ∃ rendered, renderColumn target column = .ok rendered ∧
      i ∈ rendered.referencedColumns) ∧
    ∀ column ∈ done, ∃ rendered, renderColumn target column = .ok rendered) ?_ ?_
  · exact ⟨fun i => ⟨fun h => absurd h (Finset.notMem_empty i), fun ⟨_, h, _⟩ =>
      absurd h List.not_mem_nil⟩, fun _ h => absurd h List.not_mem_nil⟩
  · rintro done column rest columns - ⟨hcolumns, hknown⟩
    refine ⟨fun columns' h => ?_, fun _ _ => trivial⟩
    obtain ⟨rendered, hrendered, h⟩ := bind_eq_ok.mp h
    cases h
    refine ⟨fun i => ?_, ?_⟩
    · rw [Finset.mem_union, hcolumns]
      simp only [List.mem_append, or_and_right, exists_or]
      refine or_congr_right ⟨fun hi => ⟨column, List.mem_singleton_self _, rendered, hrendered, hi⟩,
        ?_⟩
      rintro ⟨column', hmem, rendered', hrendered', hi⟩
      rw [List.mem_singleton.mp hmem, hrendered] at hrendered'
      rw [Except.ok.inj hrendered']
      exact hi
    · rw [List.forall_mem_append]
      refine ⟨hknown, fun column' hmem => ⟨rendered, ?_⟩⟩
      rw [List.mem_singleton.mp hmem, hrendered]

/-- What the loop has done with a list of conjuncts. -/
structure Split.Done (target : Target) (parts : List (ℕ × Expr)) (s : Split) : Prop where
  pushed : s.pushedFilters = parts.filterMap (renderedFilter target)
  residual :
    s.residualFilters = (parts.filter fun part => !(renderedFilter target part).isSome).map Prod.snd
  columns : ∀ i, i ∈ s.residualColumns ↔ ∃ e ∈ s.residualFilters, Mentions target e i
  known : ∀ e ∈ s.residualFilters, ∀ column ∈ exprColumns e, ∃ rendered,
    renderColumn target column = .ok rendered

lemma Split.done_empty : Split.Done target [] .empty where
  pushed := rfl
  residual := rfl
  columns i :=
    ⟨fun h => absurd h (Finset.notMem_empty i), fun ⟨_, h, _⟩ => absurd h List.not_mem_nil⟩
  known _ h := absurd h List.not_mem_nil

/-- A conjunct that is rendered. -/
lemma Split.Done.push {parts : List (ℕ × Expr)} {s : Split} (h : Split.Done target parts s)
    {part : ℕ × Expr}
    {rendered : RenderedExpr} (hpart : renderExpr target part.2 = .ok (some rendered)) :
    Split.Done target (parts ++ [part])
      { s with
        pushedFilters := s.pushedFilters ++ [⟨part.1, rendered.sql⟩]
        pushedColumns := s.pushedColumns ∪ rendered.referencedColumns } := by
  have hfilter : renderedFilter target part = some ⟨part.1, rendered.sql⟩ := by
    rw [renderedFilter, hpart]
  refine ⟨?_, ?_, h.columns, h.known⟩
  · rw [List.filterMap_append, ← h.pushed, List.filterMap_cons_some hfilter, List.filterMap_nil]
  · rw [List.filter_append, List.map_append, ← h.residual,
      List.filter_cons_of_neg (by simp [hfilter]), List.filter_nil, List.map_nil, List.append_nil]

/-- A conjunct that is refused. -/
lemma Split.Done.leave {parts : List (ℕ × Expr)} {s : Split} (h : Split.Done target parts s)
    {part : ℕ × Expr} (hpart : renderExpr target part.2 = .ok none) {columns : Finset ℕ}
    (hcolumns : collectFilterColumns target part.2 = .ok columns) :
    Split.Done target (parts ++ [part])
      { s with
        residualFilters := s.residualFilters ++ [part.2]
        residualColumns := s.residualColumns ∪ columns } := by
  have hfilter : renderedFilter target part = none := by rw [renderedFilter, hpart]
  obtain ⟨hmentions, hknown⟩ := (collectFilterColumns_outcome part.2).1 columns hcolumns
  refine ⟨?_, ?_, fun i => ?_, ?_⟩
  · rw [List.filterMap_append, ← h.pushed, List.filterMap_cons_none hfilter, List.filterMap_nil,
      List.append_nil]
  · rw [List.filter_append, List.map_append, ← h.residual,
      List.filter_cons_of_pos (by simp [hfilter]), List.filter_nil, List.map_singleton]
  · rw [Finset.mem_union, h.columns, hmentions]
    simp only [List.mem_append, List.mem_singleton, or_and_right, exists_or, exists_eq_left]
  · rw [List.forall_mem_append, List.forall_mem_singleton]
    exact ⟨h.known, hknown⟩

/-- The loop does what it has to with every conjunct. -/
lemma splitConjuncts_done (parts : List (ℕ × Expr)) :
    Outcome (parts.foldlM (splitConjunct target) .empty) (Split.Done target parts) fun _ =>
      True := by
  refine Outcome.foldlM (Split.Done target) Split.done_empty ?_
  rintro done part rest s - hs
  refine ⟨fun s' h => ?_, fun _ _ => trivial⟩
  rw [splitConjunct] at h
  split at h
  next => cases h
  next rendered hpart =>
    cases h
    exact hs.push hpart
  next hpart =>
    obtain ⟨columns, hcolumns, h⟩ := bind_eq_ok.mp h
    cases h
    exact hs.leave hpart hcolumns

end Loop

/-! ### The compiled scan -/

section Scan

variable {input : CompileScanInput} {scan : CompiledScan}

/-- A scan that is compiled, as what the loop has done. -/
lemma compileScan_eq (h : compileScan input = .ok scan) :
    ∃ s, Split.Done input.target (conjuncts input.filters) s ∧
      scan = assembleScan input (input.projection.getD (List.range input.schema.length)) s := by
  obtain ⟨_, _, h⟩ := bind_eq_ok.mp h
  obtain ⟨selected, hselected, h⟩ := bind_eq_ok.mp h
  obtain ⟨s, hs, h⟩ := bind_eq_ok.mp h
  obtain ⟨_, _, hselected⟩ := bind_eq_ok.mp hselected
  refine ⟨s, (splitConjuncts_done _).1 s hs, ?_⟩
  rw [pure_eq_ok.mp hselected]
  exact (pure_eq_ok.mp h).symm

lemma renderUnprojectedScanSql_eq (relation : PgRelation) :
    renderUnprojectedScanSql relation scan =
      Select.text ⟨"*", relation, scan.pushedFilters.map CompiledFilter.sql, scan.sqlLimit⟩ := by
  have hitems : "SELECT " ++ "*" ++ " FROM " = "SELECT * FROM " := rfl
  rw [renderUnprojectedScanSql, renderUnprojectedScanSqlWithExtraPredicate, Select.text,
    whereClause, hitems, Option.toList_none, List.append_nil]
  cases scan.pushedFilters with
  | nil => rfl
  | cons filter filters => rfl

/-- The predicates of the statement are true where the pushed conjuncts are. -/
lemma all_rendered {Row : Type} (truth : Truth Row) {target : Target}
    {value : String → Row → Option Bool} {parts : List (ℕ × Expr)}
    (hvalue : ∀ part ∈ parts, ∀ filter, renderedFilter target part = some filter →
      value filter.sql = truth.value part.2)
    (row : Row) :
    (((parts.filterMap (renderedFilter target)).map CompiledFilter.sql).all fun predicate =>
        value predicate row = some true) =
      truth.keeps ((parts.filter fun part => (renderedFilter target part).isSome).map Prod.snd)
        row := by
  induction parts with
  | nil => rfl
  | cons part parts ih =>
    rw [List.forall_mem_cons] at hvalue
    specialize ih hvalue.2
    cases hpart : renderedFilter target part with
    | none => rw [List.filterMap_cons_none hpart, List.filter_cons_of_neg (by simp [hpart]), ih]
    | some filter =>
      rw [List.filterMap_cons_some hpart, List.filter_cons_of_pos (by simp [hpart]), List.map_cons,
        List.map_cons,
        List.all_cons, Truth.keeps, List.all_cons, ← Truth.keeps, ih, hvalue.1 filter hpart]

/-- **A compiled scan and its residual filters keep the rows of all filters.** Each conjunct is
pushed or left; the columns that what is left needs are in the output, after the projection and
once each; a limit in the statement cuts the answer off, and is the answer's own limit when no
filter is left; both statements keep the same rows. -/
theorem compileScan_preserves {Row : Type} (truth : Truth Row) (input : CompileScanInput)
    (scan : CompiledScan) (h : compileScan input = .ok scan) (rows : List Row) :
    let parts := conjuncts input.filters
    let pushed := parts.filter fun part => (renderedFilter input.target part).isSome
    let residual := parts.filter fun part => !(renderedFilter input.target part).isSome
    let projection := input.projection.getD (List.range input.schema.length)
    let kept := rows.filter (truth.keeps (pushed.map Prod.snd))
    let answer := rows.filter (truth.keeps input.filters)
    (scan.pushedFilters = pushed.filterMap (renderedFilter input.target) ∧
      scan.residualFilters = residual.map Prod.snd) ∧
    kept.filter (truth.keeps scan.residualFilters) = answer ∧
    (∃ beyond, scan.outputColumns = projection ++ beyond ∧ beyond.Nodup ∧
      (∀ i, i ∈ beyond ↔ i ∉ projection ∧ ∃ e ∈ scan.residualFilters, Mentions input.target e i) ∧
      ∀ e ∈ scan.residualFilters, ∀ column ∈ exprColumns e, ∃ rendered,
        renderColumn input.target column = .ok rendered ∧
        ∀ i ∈ rendered.referencedColumns, i ∈ scan.outputColumns) ∧
    (∀ n, scan.sqlLimit = some n →
      scan.requestedLimit = some n ∧
      (kept.take n).filter (truth.keeps scan.residualFilters) <+: answer ∧
      (scan.residualFilters = [] → (kept.take n).filter (truth.keeps scan.residualFilters) =
        answer.take n)) ∧
    (scan.sql = (scan.select input).text ∧
      renderUnprojectedScanSql input.relation scan =
        Select.text { scan.select input with items := "*" } ∧
      ∀ value : String → Row → Option Bool,
        (∀ part ∈ parts, ∀ filter, renderedFilter input.target part = some filter →
          value filter.sql = truth.value part.2) →
        (scan.select input).kept value rows = limited scan.sqlLimit kept ∧
        Select.kept { scan.select input with items := "*" } value rows =
          limited scan.sqlLimit kept) := by
  intro parts pushed residual projection kept answer
  obtain ⟨s, hs, rfl⟩ := compileScan_eq h
  have hrows : kept.filter (truth.keeps s.residualFilters) = answer := by
    rw [hs.residual, List.filter_filter]
    refine List.filter_congr fun row _ => ?_
    rw [Bool.and_comm, truth.keeps_partition, truth.keeps_conjuncts]
  refine ⟨⟨?_, hs.residual⟩, hrows, ?_, ?_, rfl, renderUnprojectedScanSql_eq _, ?_⟩
  · -- the conjuncts that are not rendered add nothing
    refine hs.pushed.trans ?_
    rw [List.filterMap_filter]
    refine List.filterMap_congr fun part _ => ?_
    cases hpart : renderedFilter input.target part with
    | none => rfl
    | some filter => rfl
  · refine ⟨_, rfl, (Finset.sort_nodup _ _).filter _, fun i => ?_, fun e he column hcolumn => ?_⟩
    · rw [List.mem_filter, Finset.mem_sort, hs.columns, and_comm, decide_eq_true_iff]
      rfl
    · obtain ⟨rendered, hrendered⟩ := hs.known e he column hcolumn
      refine ⟨rendered, hrendered, fun i hi => ?_⟩
      have hmem : i ∈ s.residualColumns :=
        (hs.columns i).mpr ⟨e, he, column, hcolumn, rendered, hrendered, hi⟩
      by_cases hprojection : i ∈ projection
      · exact List.mem_append_left _ hprojection
      · refine List.mem_append_right _ (List.mem_filter.mpr ⟨(Finset.mem_sort _).mpr hmem, ?_⟩)
        exact decide_eq_true hprojection
  · intro n hn
    have hlimit : lowerLimit input.limitLowering input.requestedLimit = some n := hn
    refine ⟨?_, ?_, fun hnil => ?_⟩
    · cases hlowering : input.limitLowering with
      | externalHint => rw [hlowering] at hlimit; cases hlimit
      | sqlClause => rw [hlowering] at hlimit; exact hlimit
    · rw [← hrows]
      exact (List.take_prefix n kept).filter _
    · have hall : ∀ rows : List Row, rows.filter (truth.keeps []) = rows := fun rows =>
        List.filter_eq_self.mpr fun _ _ => rfl
      have hnil' : s.residualFilters = [] := hnil
      rw [hnil, hall, ← hrows, hnil', hall]
  · intro value hvalue
    have hkept :
        (rows.filter fun row => (s.pushedFilters.map CompiledFilter.sql).all fun predicate =>
        value predicate row = some true) = kept := by
      rw [hs.pushed]
      exact List.filter_congr fun row _ => all_rendered truth hvalue row
    exact ⟨congrArg (limited _) hkept, congrArg (limited _) hkept⟩

end Scan

/-- The values of filters whose parts have the given values. -/
def Truth.valueOf {Row : Type} (leaf : Expr → Row → Option Bool) : Expr → Row → Option Bool
  | .alias e _, row => Truth.valueOf leaf e row
  | .binaryExpr l op r, row =>
    if op = .and then kleeneAnd (Truth.valueOf leaf l row) (Truth.valueOf leaf r row)
    else leaf (.binaryExpr l op r) row
  | e, row => leaf e row

def Truth.ofLeaves {Row : Type} (leaf : Expr → Row → Option Bool) : Truth Row where
  value := Truth.valueOf leaf
  alias_eq _ _ _ := rfl
  and_eq l r row := by rw [Truth.valueOf, if_pos rfl]

/-- A scan of the first column, with the filter `a > -5 AND b ~ 'x'` and a limit of one row. -/
def regexInput : CompileScanInput where
  relation := ⟨none, "t", []⟩
  schema := ["a", "b"]
  identifierMaxBytes := 63
  projection := some [0]
  filters := [.binaryExpr
    (.binaryExpr (.column ⟨none, "a"⟩) .gt (.literal (.integer .int32 (some (-5))) none)) .and
    (.binaryExpr (.column ⟨none, "b"⟩) .regexMatch (.literal (.text .utf8 (some "x")) none))]
  requestedLimit := some 1
  limitLowering := .sqlClause

/-- The scan that it is compiled to: the second part of the filter is left. -/
def regexScan : CompiledScan where
  sql := "SELECT \"a\", \"b\" FROM \"t\" WHERE (\"a\" > -5) LIMIT 1"
  requestedLimit := some 1
  sqlLimit := some 1
  selectedColumns := [0]
  outputColumns := [0, 1]
  filterOnlyColumns := []
  residualFilterColumns := [1]
  pushedFilters := [⟨0, "(\"a\" > -5)"⟩]
  residualFilters :=
    [.binaryExpr (.column ⟨none, "b"⟩) .regexMatch (.literal (.text .utf8 (some "x")) none)]
  allFiltersCompiled := false
  usesDummyProjection := false

lemma compileScan_regex : compileScan regexInput = .ok regexScan := by
  have hloop : compileScan regexInput = .ok (assembleScan regexInput [0]
      ⟨regexScan.pushedFilters, regexScan.residualFilters, {0}, {1}⟩) := rfl
  rw [hloop, assembleScan, Finset.sort_singleton, Finset.sort_singleton]
  rfl

theorem compileScan_preserves_regex :
    compileScan regexInput = .ok regexScan ∧
      ∀ rows : List (Option Bool),
        (rows.filter ((Truth.ofLeaves fun _ row => row).keeps
          [.binaryExpr (.column ⟨none, "a"⟩) .gt (.literal (.integer .int32 (some (-5)))
            none)])).filter
            ((Truth.ofLeaves fun _ row => row).keeps regexScan.residualFilters) =
          rows.filter ((Truth.ofLeaves fun _ row => row).keeps regexInput.filters) :=
  ⟨compileScan_regex, fun rows =>
    (compileScan_preserves (Truth.ofLeaves fun _ row => row) regexInput regexScan compileScan_regex
      rows).2.1⟩

/-- A limit in the statement below a filter that is left may cut off rows of the answer: the one
row that is fetched does not pass the filter, and the next one would. -/
theorem compileScan_limit_lost :
    ∃ truth : Truth Bool, compileScan regexInput = .ok regexScan ∧ regexScan.sqlLimit = some 1 ∧
      [false, true].filter (truth.keeps regexInput.filters) = [true] ∧
      (([false, true].filter (truth.keeps
        [.binaryExpr (.column ⟨none, "a"⟩) .gt (.literal (.integer .int32 (some (-5))) none)])).take
          1).filter
          (truth.keeps regexScan.residualFilters) = [] := by
  -- the first part of the filter holds on every row
  refine ⟨Truth.ofLeaves fun e row => some (match e with | .binaryExpr _ .gt _ => true | _ => row),
    compileScan_regex, rfl, rfl, rfl⟩

end PgFusion.ScanSql

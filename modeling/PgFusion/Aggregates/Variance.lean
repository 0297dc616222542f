import PgFusion.Data.Rounding
import PgFusion.Frontend.Scalar

/-!
The standard deviations and variances of the compiler (`pg/frontend`: `compiler/aggregate.rs`), over
exact numbers. The argument of such an aggregate is cast to `Float64`, and the expression that the
aggregate's column is bound to casts a `numeric` result to `Decimal128(38, 0)`, a type without
fractional digits.

* `compileAggregateCall` makes the aggregate of a call; the arms of the functions that are not
  statistical are handed in.
* `aggregateBindingColumn` is the expression a call stands for above the aggregate.
* `RoundsDecimals` is what is assumed of Arrow's cast to a decimal: it rounds to the scale, ties
  away from zero, where the digits suffice. What it does elsewhere is left open.
* `variance_delivered`: a variance below 10^22 is delivered within 10^-16 exactly where it is that
  close to an integer, and two groups are delivered alike exactly where their variances round to
  the same integer. So the variances of `{1, 2}` and `{1, 1}` cannot be told apart
  (`variance_fraction_lost`).
-/

namespace PgFusion.Aggregates

open Frontend PgType

/-! ### The compiled aggregate -/

/-- DataFusion's statistical aggregates of one argument. -/
inductive StatUdaf where
  | stddevPop
  | stddev
  | varPop
  | varSamp
deriving DecidableEq

/-- `Expr::AggregateFunction`, with the parameters that the compiler sets. -/
structure AggregateExpr (P : Type) where
  udf : StatUdaf
  args : List (DfExpr P)
  distinct : Bool
  filter : Option (DfExpr P)

variable {P : Type}

/-- `compile_pg_float8_stat_arg`. -/
def compilePgFloat8StatArg (expr : DfExpr P) : DfExpr P := .cast expr .float64

/-- `aggregate_udf_expr`. -/
def aggregateUdfExpr (udf : StatUdaf) (arg : DfExpr P) (distinct : Bool) : AggregateExpr P :=
  ⟨udf, [arg], distinct, none⟩

/-- `with_aggregate_filter` of an aggregate function. -/
def withAggregateFilter (expr : AggregateExpr P) : Option (DfExpr P) → AggregateExpr P
  | none => expr
  | some filter => { expr with filter := some filter }

/-- The aggregate of the statistical functions, and the function's name in an error. -/
def statUdaf : AggregateFunction → Option (StatUdaf × String)
  | .stddevPop => some (.stddevPop, "StddevPop")
  | .stddevSamp => some (.stddev, "StddevSamp")
  | .varPop => some (.varPop, "VarPop")
  | .varSamp => some (.varSamp, "VarSamp")
  | _ => none

/-- `compile_aggregate_call`. The compilation of an expression and the arms of the functions that
are not statistical are handed in. -/
def compileAggregateCall (compileExpr : TypedExpr → Except PgFrontendError (DfExpr P))
    (other : AggregateFunction → Bool → List (DfExpr P) → Option (DfExpr P) →
      Except PgFrontendError (AggregateExpr P))
    (func : AggregateFunction) (args : List TypedExpr) (distinct : Bool)
    (filter : Option TypedExpr) : Except PgFrontendError (AggregateExpr P) := do
  let compiledArgs ← args.mapM compileExpr
  let filter ← filter.mapM compileExpr
  match statUdaf func, compiledArgs with
  | some (udf, _), [arg] =>
    .ok (withAggregateFilter (aggregateUdfExpr udf (compilePgFloat8StatArg arg) distinct) filter)
  | some (_, name), _ =>
    .error (.unsupported (s!"aggregate argument shape is not supported by pg_frontend v1: " ++
      s!"{name} distinct={distinct} args={compiledArgs.length}"))
  | none, _ => other func distinct compiledArgs filter

/-- `aggregate_binding_column`. -/
def aggregateBindingColumn (expr : TypedExpr) (column : DfExpr P) : DfExpr P :=
  match expr with
  | .aggregateCall .sum _ _ _ pgType =>
    if pgType.oid = float4Oid then .cast column .float32 else column
  | .aggregateCall .regrCount _ _ _ _ => .cast column .int64
  | .aggregateCall .stddevPop _ _ _ pgType
  | .aggregateCall .stddevSamp _ _ _ pgType
  | .aggregateCall .varPop _ _ _ pgType
  | .aggregateCall .varSamp _ _ _ pgType =>
    if pgType.oid = numericOid then .cast column (.decimal128 38 0) else column
  | _ => column

/-- `AggregateBinding`: a call and the expression it stands for above the aggregate. -/
structure AggregateBinding (P : Type) where
  expr : TypedExpr
  column : DfExpr P

/-- The bindings that `aggregate_plan` makes of the calls and their columns. -/
def aggregateBindings (calls : List TypedExpr) (columns : List Var) : List (AggregateBinding P) :=
  List.zipWith (fun call column => ⟨call, aggregateBindingColumn call (.column column)⟩) calls
    columns

/-! ### The variance -/

/-- The sum of the squared distances from the mean. -/
def spread (values : List ℚ) : ℚ :=
  (values.map fun x => (x - values.sum / values.length) ^ 2).sum

/-- The population variance or the sample variance, null where there are too few values. -/
def exactVariance (sample : Bool) (values : List ℚ) : Option ℚ :=
  if sample then
    if values.length < 2 then none else some (spread values / (values.length - 1))
  else if values.length < 1 then none
  else some (spread values / values.length)

lemma spread_nonneg (values : List ℚ) : 0 ≤ spread values := by
  apply List.sum_nonneg
  intro y hy
  obtain ⟨x, -, rfl⟩ := List.mem_map.mp hy
  exact sq_nonneg _

lemma exactVariance_nonneg {sample : Bool} {values : List ℚ} {v : ℚ}
    (h : exactVariance sample values = some v) : 0 ≤ v := by
  have hspread := spread_nonneg values
  rw [exactVariance] at h
  split_ifs at h with hsample hfew hfew
  · obtain rfl := Option.some.inj h
    have hlen : (2 : ℚ) ≤ values.length := by exact_mod_cast not_lt.mp hfew
    exact div_nonneg hspread (by linarith)
  · obtain rfl := Option.some.inj h
    exact div_nonneg hspread (Nat.cast_nonneg _)

/-! ### What a group delivers -/

section Deliver

variable {Row ε : Type} (value : DfExpr P → Row → Option ℚ) (holds : DfExpr P → Row → Option Bool)
  (castValue : DataType → ℚ → Except ε ℚ)

/-- The values of an expression that a group aggregates: of the rows that pass the filter, without
nulls, and once each under DISTINCT. -/
def groupValues (arg : DfExpr P) (distinct : Bool) (filter : Option (DfExpr P))
    (rows : List Row) : List ℚ :=
  let passing := rows.filter fun row => filter.all fun f => holds f row = some true
  let values := passing.filterMap (value arg)
  if distinct then values.dedup else values

/-- The value of an aggregate on a group, for the exact variances. -/
def AggregateExpr.eval (expr : AggregateExpr P) (rows : List Row) : Option ℚ :=
  match expr.udf, expr.args with
  | .varPop, [arg] =>
    exactVariance false (groupValues value holds arg expr.distinct expr.filter rows)
  | .varSamp, [arg] =>
    exactVariance true (groupValues value holds arg expr.distinct expr.filter rows)
  | _, _ => none

/-- The value of a binding's expression where the column has the value `v`: what its casts make of
it. -/
def bindingValue (v : ℚ) : DfExpr P → Except ε ℚ
  | .cast inner dataType => bindingValue v inner >>= castValue dataType
  | _ => .ok v

/-- The value that a group delivers for a call that is bound to `column`. -/
def delivered (expr : AggregateExpr P) (column : DfExpr P) (rows : List Row) :
    Except ε (Option ℚ) :=
  match expr.eval value holds rows with
  | none => .ok none
  | some v => (bindingValue castValue v column).map some

/-- What is assumed of Arrow's cast to a decimal: it rounds to the scale, ties away from zero, where
the precision has the digits. -/
def RoundsDecimals : Prop :=
  ∀ precision scale v, |roundHalfAway (v * 10 ^ scale)| < 10 ^ precision →
    castValue (.decimal128 precision scale) v = .ok (roundHalfAway (v * 10 ^ scale) / 10 ^ scale)

/-- The cast to `Float64` keeps the value: floats are exact numbers here. -/
def KeepsFloats : Prop := ∀ expr row, value (.cast expr .float64) row = value expr row

variable {value holds castValue}

/-- A column that is cast to `Decimal128(38, 0)` is rounded to an integer. -/
lemma bindingValue_decimal (hcast : RoundsDecimals castValue) {v : ℚ} (hnonneg : 0 ≤ v)
    (hsmall : v < 10 ^ 22) (column : Var) :
    bindingValue castValue v (.cast (.column column : DfExpr P) (.decimal128 38 0)) =
      .ok (roundHalfAway v : ℚ) := by
  have hround : |(roundHalfAway v : ℚ)| < 10 ^ 38 := calc
    |(roundHalfAway v : ℚ)| ≤ |v| + 1 / 2 := abs_roundHalfAway_le v
    _ < 10 ^ 22 + 1 / 2 := by rw [abs_of_nonneg hnonneg]; linarith
    _ < 10 ^ 38 := by norm_num
  have hfits : |roundHalfAway v| < 10 ^ 38 := by exact_mod_cast hround
  have hat := hcast 38 0 v
  rw [zpow_zero, mul_one, div_one] at hat
  exact hat hfits

/-- The aggregate of a variance: the argument is cast to `Float64`. -/
lemma compileAggregateCall_variance {compileExpr : TypedExpr → Except PgFrontendError (DfExpr P)}
    {other} {func : AggregateFunction} {udf : StatUdaf} {name : String}
    (hstat : statUdaf func = some (udf, name)) {arg : TypedExpr} {a : DfExpr P}
    (harg : compileExpr arg = .ok a) {filter : Option TypedExpr} {f : Option (DfExpr P)}
    (hfilter : filter.mapM compileExpr = .ok f) (distinct : Bool) :
    compileAggregateCall compileExpr other func [arg] distinct filter =
      .ok ⟨udf, [.cast a .float64], distinct, f⟩ := by
  have hargs : [arg].mapM compileExpr = .ok [a] := by
    rw [List.mapM_cons, harg, List.mapM_nil]
    rfl
  rw [compileAggregateCall, hargs, hfilter, hstat]
  cases f <;> rfl

/-- The values that are aggregated do not depend on the cast of the argument. -/
lemma groupValues_cast (hkeeps : KeepsFloats value) (a : DfExpr P) (distinct : Bool)
    (f : Option (DfExpr P)) (rows : List Row) :
    groupValues value holds (.cast a .float64) distinct f rows =
      groupValues value holds a distinct f rows := by
  have hvalue : value (.cast a .float64) = value a := funext fun row => hkeeps a row
  rw [groupValues, groupValues, hvalue]

/-- What a group of a variance below the bound delivers: the nearest integer. -/
lemma delivered_variance (hkeeps : KeepsFloats value) (hcast : RoundsDecimals castValue)
    {sample distinct : Bool} (arg : TypedExpr) (filter : Option TypedExpr) {pgType : PgTypeRef}
    (hnumeric : pgType.oid = numericOid) (column : Var) {a : DfExpr P} {f : Option (DfExpr P)}
    {rows : List Row} {v : ℚ}
    (hv : exactVariance sample (groupValues value holds a distinct f rows) = some v)
    (hsmall : v < 10 ^ 22) :
    delivered value holds castValue
      ⟨if sample then .varSamp else .varPop, [.cast a .float64], distinct, f⟩
      (aggregateBindingColumn (.aggregateCall (if sample then .varSamp else .varPop) [arg] distinct
        filter pgType) (.column column)) rows = .ok (some (roundHalfAway v : ℚ)) := by
  have hbinding : aggregateBindingColumn (.aggregateCall (if sample then .varSamp else .varPop)
      [arg] distinct filter pgType) (.column column : DfExpr P) =
        .cast (.column column) (.decimal128 38 0) := by
    cases sample <;> exact if_pos hnumeric
  have heval : (AggregateExpr.mk (if sample then .varSamp else .varPop) [.cast a .float64]
      distinct f).eval value holds rows = some v := by
    rw [← hv, ← groupValues_cast hkeeps]
    cases sample <;> rfl
  rw [delivered, heval, hbinding]
  change (bindingValue castValue v _).map some = _
  rw [bindingValue_decimal hcast (exactVariance_nonneg hv) hsmall]
  rfl

end Deliver

/-! ### Accuracy -/

/-- **A variance is delivered without its fraction.** The call compiles. For a group with the exact
variance `v` below 10^22, the delivered value is within 10^-16 of `v` if and only if `v` is that
close to its nearest integer; two groups are delivered alike if and only if their variances have
the same nearest integer; so two groups whose variances are both that close to integers, but differ
by more than `2 * 10^-16`, are told apart. -/
theorem variance_delivered {Row ε : Type} (value : DfExpr P → Row → Option ℚ)
    (holds : DfExpr P → Row → Option Bool) (castValue : DataType → ℚ → Except ε ℚ)
    (hkeeps : KeepsFloats value) (hcast : RoundsDecimals castValue)
    (compileExpr : TypedExpr → Except PgFrontendError (DfExpr P))
    (other : AggregateFunction → Bool → List (DfExpr P) → Option (DfExpr P) →
      Except PgFrontendError (AggregateExpr P))
    (sample distinct : Bool) (arg : TypedExpr) (filter : Option TypedExpr) (pgType : PgTypeRef)
    (hnumeric : pgType.oid = numericOid) (column : Var) (a : DfExpr P)
    (harg : compileExpr arg = .ok a) (f : Option (DfExpr P))
    (hfilter : filter.mapM compileExpr = .ok f) :
    let func : AggregateFunction := if sample then .varSamp else .varPop
    let variance := fun rows => exactVariance sample (groupValues value holds a distinct f rows)
    ∃ expr, compileAggregateCall compileExpr other func [arg] distinct filter = .ok expr ∧
      ∃ binding : AggregateBinding P,
        aggregateBindings [.aggregateCall func [arg] distinct filter pgType] [column] = [binding] ∧
        ∀ rows v, variance rows = some v → v < 10 ^ 22 →
          ((∃ d, delivered value holds castValue expr binding.column rows = .ok (some d) ∧
              |d - v| ≤ 10⁻¹ ^ 16) ↔ |v - roundHalfAway v| ≤ 10⁻¹ ^ 16) ∧
            ∀ rows' w, variance rows' = some w → w < 10 ^ 22 →
              (delivered value holds castValue expr binding.column rows =
                  delivered value holds castValue expr binding.column rows' ↔
                roundHalfAway v = roundHalfAway w) ∧
              (|v - roundHalfAway v| ≤ 10⁻¹ ^ 16 → |w - roundHalfAway w| ≤ 10⁻¹ ^ 16 →
                2 * 10⁻¹ ^ 16 < |v - w| →
                delivered value holds castValue expr binding.column rows ≠
                  delivered value holds castValue expr binding.column rows') := by
  intro func variance
  have hstat : ∃ name, statUdaf func = some (if sample then .varSamp else .varPop, name) := by
    cases sample <;> exact ⟨_, rfl⟩
  obtain ⟨name, hstat⟩ := hstat
  refine ⟨_, compileAggregateCall_variance hstat harg hfilter distinct, _, rfl, ?_⟩
  have hdelivered := fun rows v (hv : variance rows = some v) hsmall =>
    delivered_variance hkeeps hcast arg filter hnumeric column hv hsmall
  intro rows v hv hsmall
  refine ⟨?_, ?_⟩
  · rw [hdelivered rows v hv hsmall]
    constructor
    · rintro ⟨d, hd, hclose⟩
      obtain rfl := Option.some.inj (Except.ok.inj hd)
      rwa [abs_sub_comm]
    · intro hclose
      exact ⟨_, rfl, by rwa [abs_sub_comm]⟩
  · intro rows' w hw hsmall'
    rw [hdelivered rows v hv hsmall, hdelivered rows' w hw hsmall']
    have hiff : (.ok (some (roundHalfAway v : ℚ)) : Except ε (Option ℚ)) =
        .ok (some (roundHalfAway w : ℚ)) ↔ roundHalfAway v = roundHalfAway w := by
      rw [Except.ok.injEq, Option.some.injEq, Int.cast_inj]
    refine ⟨hiff, ?_⟩
    intro hclose hclose' hfar heq
    have hsame := hiff.mp heq
    rw [← hsame] at hclose'
    have hsum : |v - w| ≤ |v - roundHalfAway v| + |roundHalfAway v - w| := abs_sub_le _ _ _
    rw [abs_sub_comm (roundHalfAway v : ℚ) w] at hsum
    linarith

/-! ### Samples -/

/-- A cast that rounds to decimals. -/
def roundingCast : DataType → ℚ → Except Unit ℚ
  | .decimal128 precision scale, v =>
    if |roundHalfAway (v * 10 ^ scale)| < 10 ^ precision then
      .ok (roundHalfAway (v * 10 ^ scale) / 10 ^ scale)
    else .error ()
  | _, v => .ok v

lemma roundingCast_roundsDecimals : RoundsDecimals roundingCast := by
  intro precision scale v hfits
  exact if_pos hfits

/-- The argument of the samples: the column `x` of the rows, which are its values. -/
def sampleColumn : Var := ⟨1, 1, ⟨int4Oid, -1, 0⟩⟩

/-- `var_pop` of 0 and `2 * 10^-9` is `10^-18`, which is delivered as zero, near enough. -/
theorem variance_delivered_sample :
    ∃ expr, compileAggregateCall (P := Empty) (fun e => .ok (.compiled e []))
        (fun _ _ _ _ => .error (.unsupported "")) .varPop [.var sampleColumn] false none =
          .ok expr ∧
      ∃ d, delivered (fun _ row => some row) (fun _ _ => some true) roundingCast expr
          (.cast (.column sampleColumn) (.decimal128 38 0)) [0, 2 / 10 ^ 9] = .ok (some d) ∧
        |d - 1 / 10 ^ 18| ≤ 10⁻¹ ^ 16 := by
  obtain ⟨expr, hexpr, binding, hbinding, hclose⟩ :=
    variance_delivered (P := Empty) (fun _ row => some row) (fun _ _ => some true) roundingCast
      (fun _ _ => rfl) roundingCast_roundsDecimals (fun e => .ok (.compiled e []))
      (fun _ _ _ _ => .error (.unsupported "")) false false (.var sampleColumn) none
      ⟨numericOid, -1, 0⟩ rfl sampleColumn _ rfl none rfl
  obtain rfl := (List.cons.inj hbinding).1
  refine ⟨expr, hexpr, ?_⟩
  have hnear := (hclose [0, 2 / 10 ^ 9] (1 / 10 ^ 18) (by decide +kernel) (by norm_num)).1
  exact hnear.mpr (by decide +kernel)

/-- `var_pop` of 1 and 2 is a quarter, and of 1 and 1 it is zero; both are delivered as zero. -/
theorem variance_fraction_lost :
    let expr : AggregateExpr Empty :=
      ⟨.varPop, [.cast (.column sampleColumn) .float64], false, none⟩
    let column := aggregateBindingColumn
      (.aggregateCall .varPop [.var sampleColumn] false none ⟨numericOid, -1, 0⟩)
      (.column sampleColumn)
    compileAggregateCall (fun _ => .ok (.column sampleColumn))
        (fun _ _ _ _ => .error (.unsupported "")) .varPop [.var sampleColumn] false none =
          .ok expr ∧
      exactVariance false [1, 2] = some (1 / 4) ∧ exactVariance false [1, 1] = some 0 ∧
      delivered (fun _ row => some row) (fun _ _ => some true) roundingCast expr column [1, 2] =
        .ok (some 0) ∧
      delivered (fun _ row => some row) (fun _ _ => some true) roundingCast expr column [1, 1] =
        .ok (some 0) := by
  refine ⟨rfl, by decide +kernel, by decide +kernel, by decide +kernel, by decide +kernel⟩

end PgFusion.Aggregates

import PgFusion.Data.Fallible
import PgFusion.Frontend.Number

/-!
Comparisons between columns of numbers: integers are brought to the widest type, anything else to a
decimal with 16 digits behind the point.

* `evalComparison_exact`: numbers of one scale compare as their values do;
* `comparison_exact`: every comparison is exact or fails, exactly if the columns are `Comparable`.
-/

namespace PgFusion.Frontend

open PgType Numeric Fallible

variable {P : Type}

/-! ### Columns of numbers -/

/-- An integer type, `numeric`, or a `numeric(p, s)` with 0 ≤ s ≤ p ≤ 38. -/
def IsNumberType (t : PgTypeRef) : Prop :=
  isIntegerOid t.oid = true ∨ t.oid = numericOid ∧ (numericShapeFromTypmod t.typmod).isSome = true

/-- The digits behind the point that a column of this type has. -/
def columnScale (t : PgTypeRef) : ℤ := ((arrowTypeForPgType t).bind numberScale).getD 0

/-- The number in a column, of the integer that it is kept as. -/
def exactCell (t : PgTypeRef) (cell : Option ℤ) : Option ℚ :=
  cell.map (Scaled.value (columnScale t))

variable {t u : PgTypeRef}

/-- The integer types and their Arrow types. -/
lemma isIntegerOid_cases (h : isIntegerOid t.oid = true) :
    t.oid = int2Oid ∧ arrowTypeForPgType t = some .int16 ∨
      t.oid = int4Oid ∧ arrowTypeForPgType t = some .int32 ∨
      t.oid = int8Oid ∧ arrowTypeForPgType t = some .int64 := by
  rw [isIntegerOid, Bool.or_eq_true, Bool.or_eq_true, beq_iff_eq, beq_iff_eq, beq_iff_eq] at h
  rcases h with (h | h) | h
  · exact .inl ⟨h, by rw [arrowTypeForPgType, h]; rfl⟩
  · exact .inr (.inl ⟨h, by rw [arrowTypeForPgType, h]; rfl⟩)
  · exact .inr (.inr ⟨h, by rw [arrowTypeForPgType, h]; rfl⟩)

/-- The Arrow type of a `numeric`. -/
lemma arrowType_numeric (h : t.oid = numericOid) :
    arrowTypeForPgType t = (numericShapeFromTypmod t.typmod).map fun shape =>
      .decimal128 shape.1.toNat shape.2.toInt := by
  rw [arrowTypeForPgType, h]
  rfl

/-- A type of numbers has an Arrow type of numbers. -/
lemma IsNumberType.arrowType (h : IsNumberType t) :
    ∃ dataType, arrowTypeForPgType t = some dataType ∧
      numberScale dataType = some (columnScale t) := by
  rcases h with h | ⟨h, hshape⟩
  · rcases isIntegerOid_cases h with ⟨-, h⟩ | ⟨-, h⟩ | ⟨-, h⟩ <;>
      exact ⟨_, h, by rw [columnScale, h]; rfl⟩
  · obtain ⟨shape, hshape⟩ := Option.isSome_iff_exists.mp hshape
    have harrow := arrowType_numeric h
    rw [hshape, Option.map_some] at harrow
    exact ⟨_, harrow, by rw [columnScale, harrow]; rfl⟩

lemma columnScale_integer (h : isIntegerOid t.oid = true) : columnScale t = 0 := by
  rw [columnScale]
  rcases isIntegerOid_cases h with ⟨-, h⟩ | ⟨-, h⟩ | ⟨-, h⟩ <;> rw [h] <;> rfl

/-! ### Casts -/

variable {row : Var → Option ℤ} {truth : DfExpr P → Except DfError Bool}

lemma checkFits_eq_ok {t : DataType} {m : ℤ} {r : Option ℤ} (h : checkFits t m = .ok r) :
    r = some m := by
  rw [checkFits] at h
  split_ifs at h
  exact (Except.ok.inj h).symm

/-- A cast keeps a number that has no more digits than the new scale. -/
lemma castCell_exact (source : Option DataType) {target : DataType} {s s' : ℤ}
    (hs : source.bind numberScale = some s) (hs' : numberScale target = some s')
    {cell r : Option ℤ} (hdigits : ∀ m, cell = some m → Scaled.HasDigits s' (Scaled.value s m))
    (h : castCell source (some target) cell = .ok r) :
    r.map (Scaled.value s') = cell.map (Scaled.value s) := by
  have htarget : (some target).bind numberScale = some s' := hs'
  cases cell with
  | none =>
    simp only [castCell, hs, htarget] at h
    rw [← Except.ok.inj h, Option.map_none, Option.map_none]
  | some m =>
    simp only [castCell, hs, htarget] at h
    rw [checkFits_eq_ok h, Option.map_some, Option.map_some, Scaled.value_rescale (hdigits m rfl)]

variable {v w : Var}

/-- The value of a column that is cast where its type differs: the number in it, if the new scale
is not smaller. -/
lemma eval_castColumn (hv : IsNumberType v.pgType) {dataType : DataType} {s : ℤ}
    (hs : numberScale dataType = some s) (hle : columnScale v.pgType ≤ s) {cell : Option ℤ}
    (h : dfEval row truth (castExprIfPgArrowTypeDiffers (.column v) v.pgType dataType : DfExpr P) =
      .ok cell) :
    cell.map (Scaled.value s) = exactCell v.pgType (row v) := by
  obtain ⟨source, hsource, hscale⟩ := hv.arrowType
  rw [castExprIfPgArrowTypeDiffers] at h
  split_ifs at h with heq
  · rw [hsource] at heq
    rw [Option.some.inj heq, hs] at hscale
    rw [dfEval] at h
    rw [← Except.ok.inj h, exactCell, Option.some.inj hscale]
  · rw [dfEval, dfEval, ok_bind, dfType, hsource] at h
    refine castCell_exact _ ?_ hs ?_ h
    · exact hscale
    · intro m _
      exact (Scaled.hasDigits_value _ m).mono hle

/-! ### Comparison -/

/-- A strictly increasing map changes no comparison. -/
lemma compareCells_map {α β : Type} [LinearOrder α] [LinearOrder β] {f : α → β} (hf : StrictMono f)
    (op : QueryOperator) (a b : Option α) :
    compareCells op (a.map f) (b.map f) = compareCells op a b := by
  have hinj : a.map f = b.map f ↔ a = b := (Option.map_injective hf.injective).eq_iff
  cases op <;> simp only [compareCells, ne_eq, hinj] <;>
    cases a <;> cases b <;>
    simp only [Option.map_some, Option.map_none, hf.lt_iff_lt, hf.le_iff_le, hf.injective.eq_iff]

/-- Cells that are found equal are equal. -/
lemma compareCells_eq_true {α : Type} [LinearOrder α] {a b : Option α}
    (h : compareCells .eq a b = some true) : a = b := by
  cases a <;> cases b <;> simp_all [compareCells]

/-- Two expressions that hold their numbers at one scale are compared exactly. -/
lemma evalComparison_exact {op : QueryOperator} {left right : DfExpr P} {s : ℤ} {x y : Option ℚ}
    (hleft : ∀ cell, dfEval row truth left = .ok cell → cell.map (Scaled.value s) = x)
    (hright : ∀ cell, dfEval row truth right = .ok cell → cell.map (Scaled.value s) = y)
    {result : Option Bool} (h : evalComparison row truth op left right = .ok result) :
    result = compareCells op x y := by
  rw [evalComparison] at h
  obtain ⟨a, ha, h⟩ := bind_eq_ok.mp h
  obtain ⟨b, hb, h⟩ := bind_eq_ok.mp h
  split_ifs at h
  rw [← Except.ok.inj h, ← hleft a ha, ← hright b hb, compareCells_map (Scaled.value_strictMono s)]

/-- The columns have one type, or neither has more than 16 digits behind the point. -/
def Comparable (v w : Var) : Prop :=
  arrowTypeForPgType v.pgType = arrowTypeForPgType w.pgType ∨
    columnScale v.pgType ≤ 16 ∧ columnScale w.pgType ≤ 16

/-- Two integer columns are compared as they are, or as the widest integers. -/
lemma comparisonType_integers (ht : isIntegerOid t.oid = true) (hu : isIntegerOid u.oid = true) :
    comparisonType t u = none ∧ arrowTypeForPgType t = arrowTypeForPgType u ∨
      comparisonType t u = some .int64 := by
  rcases isIntegerOid_cases ht with ⟨ht, ht'⟩ | ⟨ht, ht'⟩ | ⟨ht, ht'⟩ <;>
    rcases isIntegerOid_cases hu with ⟨hu, hu'⟩ | ⟨hu, hu'⟩ | ⟨hu, hu'⟩ <;>
    rw [comparisonType, commonNumericComparisonType, ht, hu, ht', hu'] <;> decide

/-- An integer and a `numeric` are compared as decimals. -/
lemma comparisonType_mixed (ht : isIntegerOid t.oid = true) (hu : u.oid = numericOid) :
    comparisonType t u = some (.decimal128 38 16) ∧ comparisonType u t =
      some (.decimal128 38 16) := by
  rcases isIntegerOid_cases ht with ⟨ht, -⟩ | ⟨ht, -⟩ | ⟨ht, -⟩ <;>
    (rw [comparisonType, comparisonType, commonNumericComparisonType, commonNumericComparisonType,
      ht, hu]
     simp [int2Oid, int4Oid, int8Oid, numericOid, float4Oid, float8Oid, isNumericComparisonOid,
      isIntegerOid])

/-- Two `numeric` columns of one shape are compared as they are, all others as decimals. -/
lemma comparisonType_numerics (ht : t.oid = numericOid) (hu : u.oid = numericOid)
    (ht' : (numericShapeFromTypmod t.typmod).isSome = true)
    (hu' : (numericShapeFromTypmod u.typmod).isSome = true) :
    comparisonType t u =
      if arrowTypeForPgType t = arrowTypeForPgType u then none else some (.decimal128 38 16) := by
  have hts : (arrowTypeForPgType t).isSome = true := by
    rw [arrowType_numeric ht, Option.isSome_map, ht']
  have hus : (arrowTypeForPgType u).isSome = true := by
    rw [arrowType_numeric hu, Option.isSome_map, hu']
  rw [comparisonType, commonNumericComparisonType, if_pos (ht.trans hu.symm)]
  by_cases h : arrowTypeForPgType t = arrowTypeForPgType u
  · rw [if_pos h, if_neg (fun hall => hall.2.2.2.2 h)]
  · rw [if_neg h, if_pos ⟨ht, hu, hts, hus, h⟩]

section

variable (hv : IsNumberType v.pgType) (hw : IsNumberType w.pgType)

include hv hw

/-- The type that comparable columns are cast to has digits enough for both, and columns that are
not cast have one type. -/
lemma comparisonType_cases (hvw : Comparable v w) :
    comparisonType v.pgType w.pgType = none ∧
        arrowTypeForPgType v.pgType = arrowTypeForPgType w.pgType ∨
      ∃ dataType s, comparisonType v.pgType w.pgType = some dataType ∧
        numberScale dataType = some s ∧ columnScale v.pgType ≤ s ∧ columnScale w.pgType ≤ s := by
  rcases hv with hv | ⟨hv, hvs⟩
  · have hv0 := columnScale_integer hv
    rcases hw with hw | ⟨hw, -⟩
    · have hw0 := columnScale_integer hw
      rcases comparisonType_integers hv hw with h | h
      · exact .inl h
      · exact .inr ⟨_, 0, h, rfl, hv0.le, hw0.le⟩
    · refine .inr ⟨_, 16, (comparisonType_mixed hv hw).1, rfl, by omega, ?_⟩
      rcases hvw with h | h
      · rw [columnScale, h] at hv0
        rw [columnScale, hv0]
        norm_num
      · exact h.2
  · rcases hw with hw | ⟨hw, hws⟩
    · have hw0 := columnScale_integer hw
      refine .inr ⟨_, 16, (comparisonType_mixed hw hv).2, rfl, ?_, by omega⟩
      rcases hvw with h | h
      · rw [columnScale, ← h] at hw0
        rw [columnScale, hw0]
        norm_num
      · exact h.1
    · have h := comparisonType_numerics hv hw hvs hws
      by_cases heq : arrowTypeForPgType v.pgType = arrowTypeForPgType w.pgType
      · rw [if_pos heq] at h
        exact .inl ⟨h, heq⟩
      · rw [if_neg heq] at h
        have hle := hvw.resolve_left heq
        exact .inr ⟨_, 16, h, rfl, hle.1, hle.2⟩

/-- Number columns are no `bpchar` columns: their equality needs no key. -/
lemma compileBpcharEqualityOperands_number (op : QueryOperator) (left right : DfExpr P) :
    compileBpcharEqualityOperands op left right (.var v) (.var w) = (left, right) := by
  have hno : ∀ {u : Var}, IsNumberType u.pgType →
      ((exprPgType (.var u)).any fun t => t.oid == bpcharOid) = false := by
    intro u hu
    show (u.pgType.oid == bpcharOid) = false
    rcases hu with hu | ⟨hu, -⟩
    · rcases isIntegerOid_cases hu with ⟨hu, -⟩ | ⟨hu, -⟩ | ⟨hu, -⟩ <;> rw [hu] <;> rfl
    · rw [hu]
      rfl
  cases op <;>
    simp only [compileBpcharEqualityOperands, compileBpcharEqualityOperand, hno hv, hno hw,
      Bool.false_eq_true, if_false]

/-- The operands of a comparison of two comparable columns are compared exactly. -/
lemma evalComparison_operands
    (hvw : Comparable v w) {op : QueryOperator} (hop : op.isComparison = true) (t : PgTypeRef)
    {result : Option Bool} (h : evalComparison row truth op
      (coerceBinaryOperands op t (.column v) (.column w) (.var v) (.var w) : DfExpr P × DfExpr P).1
      (coerceBinaryOperands op t (.column v) (.column w) (.var v) (.var w) : DfExpr P ×
        DfExpr P).2 = .ok result) :
    result = compareCells op (exactCell v.pgType (row v)) (exactCell w.pgType (row w)) := by
  have htype : operandType op t v.pgType w.pgType = comparisonType v.pgType w.pgType := by
    rw [operandType, if_pos hop]
  simp only [coerceBinaryOperands, exprPgType, htype] at h
  rcases comparisonType_cases hv hw hvw with ⟨hnone, hsame⟩ | ⟨dataType, s, hsome, hs, hv', hw'⟩
  · simp only [hnone] at h
    have hscale : columnScale w.pgType = columnScale v.pgType := by
      rw [columnScale, columnScale, hsame]
    refine evalComparison_exact (s := columnScale v.pgType) (fun cell hcell => ?_)
      (fun cell hcell => ?_) h
    · rw [dfEval] at hcell
      rw [← Except.ok.inj hcell, exactCell]
    · rw [dfEval] at hcell
      rw [← Except.ok.inj hcell, exactCell, hscale]
  · simp only [hsome] at h
    exact evalComparison_exact (fun cell => eval_castColumn hv hs hv')
      (fun cell => eval_castColumn hw hs hw') h

end

/-- How a comparison is compiled. -/
lemma compileBinaryExpr_comparison {op : QueryOperator} (hop : op.isComparison = true)
    (t : PgTypeRef) (left right : DfExpr P) (leftSource rightSource : TypedExpr) :
    compileBinaryExpr op t left right leftSource rightSource =
      let operands := coerceBinaryOperands op t left right leftSource rightSource
      let keys := compileBpcharEqualityOperands op operands.1 operands.2 leftSource rightSource
      .ok (.binary op keys.1 keys.2) := by
  cases op <;> first
    | exact absurd hop Bool.false_ne_true
    | simp [compileBinaryExpr, numericDecimalArithmeticPolicy, QueryOperator.isArithmetic,
        hasCheckedIntegerArithmetic]

/-! ### Columns that are not comparable -/

/-- Columns that are not comparable are cast to 16 digits behind the point. -/
lemma comparisonType_of_not_comparable (hv : IsNumberType v.pgType)
    (hw : IsNumberType w.pgType) (h : ¬Comparable v w) :
    comparisonType v.pgType w.pgType = some (.decimal128 38 16) := by
  rcases hv with hv | ⟨hv, hvs⟩
  · rcases hw with hw | ⟨hw, -⟩
    · refine absurd (Or.inr ?_) h
      rw [columnScale_integer hv, columnScale_integer hw]
      decide
    · exact (comparisonType_mixed hv hw).1
  · rcases hw with hw | ⟨hw, hws⟩
    · exact (comparisonType_mixed hw hv).2
    · rw [comparisonType_numerics hv hw hvs hws, if_neg fun heq => h (.inl heq)]

lemma dfType_castColumn (v : Var) (dataType : DataType) :
    dfType (castExprIfPgArrowTypeDiffers (.column v) v.pgType dataType : DfExpr P) =
      some dataType := by
  rw [castExprIfPgArrowTypeDiffers]
  split_ifs with heq
  · rw [dfType, heq]
  · rw [dfType]

/-- A column whose number is rounded to zero at 16 digits behind the point. -/
lemma eval_castColumn_zero (hv : IsNumberType v.pgType) {m : ℤ} (hm : row v = some m)
    (hzero : Scaled.rescale (columnScale v.pgType) 16 m = 0) :
    dfEval row truth
      (castExprIfPgArrowTypeDiffers (.column v) v.pgType (.decimal128 38 16) : DfExpr P) =
        .ok (some 0) := by
  obtain ⟨source, hsource, hscale⟩ := hv.arrowType
  rw [castExprIfPgArrowTypeDiffers]
  split_ifs with heq
  · -- the column has this type already, and is not rounded
    rw [hsource] at heq
    rw [Option.some.inj heq] at hscale
    have hsame := Scaled.value_rescale (Scaled.hasDigits_value 16 m)
    rw [← Option.some.inj hscale] at hzero
    rw [hzero] at hsame
    rw [dfEval, hm, ← (Scaled.value_strictMono 16).injective hsame]
  · have hcell : castCell (some source) (some (.decimal128 38 16)) (some m) = .ok (some 0) := by
      have hscale' : numberScale (.decimal128 38 16) = some 16 := rfl
      simp only [castCell, Option.bind_some, hscale, hscale', hzero]
      rfl
    rw [dfEval, dfEval, ok_bind, dfType, hsource, hm, hcell]

/-- One unit in the first of two columns, and zero in all others. -/
def unitRow (v : Var) : Var → Option ℤ := fun u => if u = v then some 1 else some 0

/-- The unit of a column with more than 16 digits behind the point is compared as zero. -/
lemma eval_unitRow {u : Var} (hv : 16 < columnScale v.pgType) (hu : IsNumberType u.pgType) :
    dfEval (unitRow v) truth
      (castExprIfPgArrowTypeDiffers (.column u) u.pgType (.decimal128 38 16) : DfExpr P) =
        .ok (some 0) := by
  by_cases huv : u = v
  · subst huv
    exact eval_castColumn_zero hu (if_pos rfl) (Scaled.rescale_one_of_lt hv)
  · exact eval_castColumn_zero hu (if_neg huv) (Scaled.rescale_zero _ _)

/-- A unit is no zero. -/
lemma exactCell_unitRow_ne {u : Var} (h : u ≠ v) :
    exactCell u.pgType (unitRow u u) ≠ exactCell v.pgType (unitRow u v) := by
  rw [unitRow, if_pos rfl, unitRow, if_neg h.symm]
  intro heq
  have hone : Scaled.value (columnScale u.pgType) 1 = Scaled.value (columnScale u.pgType) 0 := by
    refine (Option.some.inj heq).trans ?_
    rw [Scaled.value, Scaled.value, Int.cast_zero, zero_div, zero_div]
  exact one_ne_zero ((Scaled.value_strictMono _).injective hone)

/-- What a comparison of two columns says is right, in a filter and as a join key, whatever the
columns hold. -/
def ComparesExactly (P : Type) (v w : Var) : Prop :=
  ∀ (row : Var → Option ℤ) (truth : DfExpr P → Except DfError Bool),
    (∀ op, op.isComparison = true → ∀ t, ∃ left right : DfExpr P,
      compileBinaryExpr op t (.column v) (.column w) (.var v) (.var w) =
          .ok (.binary op left right) ∧
        ∀ result, evalComparison row truth op left right = .ok result →
          result = compareCells op (exactCell v.pgType (row v)) (exactCell w.pgType (row w))) ∧
      ∀ result,
        evalComparison row truth .eq (equiJoinKeys v w : DfExpr P × DfExpr P).1
            (equiJoinKeys v w).2 = .ok result →
          result = compareCells .eq (exactCell v.pgType (row v)) (exactCell w.pgType (row w))

section

variable (hv : IsNumberType v.pgType) (hw : IsNumberType w.pgType)

include hv hw

lemma comparesExactly_of_comparable (hvw : Comparable v w) : ComparesExactly P v w := by
  intro row truth
  constructor
  · intro op hop t
    refine ⟨_, _, compileBinaryExpr_comparison hop t _ _ _ _, fun result h => ?_⟩
    rw [compileBpcharEqualityOperands_number hv hw] at h
    exact evalComparison_operands hv hw hvw hop _ h
  · intro result h
    rw [equiJoinKeys, compileBpcharEqualityOperands_number hv hw] at h
    exact evalComparison_operands hv hw hvw rfl _ h

/-- The join keys of two columns that are not comparable hold zero for the unit of a column with
more than 16 digits behind the point. -/
lemma evalComparison_unitRow {u : Var} (hvw : ¬Comparable v w) (hu : 16 < columnScale u.pgType) :
    evalComparison (unitRow u) truth .eq (equiJoinKeys v w : DfExpr P × DfExpr P).1
      (equiJoinKeys v w).2 = .ok (some true) := by
  have htype : operandType .eq ⟨boolOid, -1, 0⟩ v.pgType w.pgType = some (.decimal128 38 16) :=
    comparisonType_of_not_comparable hv hw hvw
  rw [equiJoinKeys, compileBpcharEqualityOperands_number hv hw]
  simp only [coerceBinaryOperands, exprPgType, htype, evalComparison, eval_unitRow hu hv,
    eval_unitRow hu hw, dfType_castColumn, ok_bind]
  rfl

lemma comparable_of_comparesExactly (h : ComparesExactly P v w) : Comparable v w := by
  by_contra hvw
  have hne : v ≠ w := fun heq => hvw (.inl (by rw [heq]))
  -- a column with more than 16 digits holds its unit, the other one zero
  have hfine : 16 < columnScale v.pgType ∨ 16 < columnScale w.pgType := by
    by_contra hle
    exact hvw (.inr ⟨by omega, by omega⟩)
  rcases hfine with hfine | hfine
  · exact exactCell_unitRow_ne hne (compareCells_eq_true
      ((h (unitRow v) fun _ => .error .typeMismatch).2 _
        (evalComparison_unitRow hv hw hvw hfine)).symm)
  · exact exactCell_unitRow_ne hne.symm (compareCells_eq_true
      ((h (unitRow w) fun _ => .error .typeMismatch).2 _
        (evalComparison_unitRow hv hw hvw hfine)).symm).symm

end

/-- **A comparison of two columns of numbers is exact or an error**, in a filter and as a join
key, if and only if the columns have one type or at most 16 digits behind the point. -/
theorem comparison_exact (v w : Var) (hv : IsNumberType v.pgType) (hw : IsNumberType w.pgType) :
    ComparesExactly P v w ↔ Comparable v w :=
  ⟨comparable_of_comparesExactly hv hw, comparesExactly_of_comparable hv hw⟩

/-- A column `numeric(10, 2)`. -/
def priceColumn : Var := ⟨1, 1, ⟨numericOid, numericTypmod 10 2, 0⟩⟩

/-- A column `integer`. -/
def countColumn : Var := ⟨1, 2, ⟨int4Oid, -1, 0⟩⟩

/-- A column `numeric(38, 17)`. -/
def fineColumn : Var := ⟨1, 3, ⟨numericOid, numericTypmod 38 17, 0⟩⟩

/-- Conditions that nobody asks for. -/
def noConditions : DfExpr Unit → Except DfError Bool := fun _ => .error .typeMismatch

/-- The price 3.00 equals the count 3. -/
theorem comparison_exact_price_count :
    evalComparison (fun v => if v = priceColumn then some 300 else some 3) noConditions .eq
        (equiJoinKeys priceColumn countColumn).1 (equiJoinKeys priceColumn countColumn).2 =
      .ok (some true) ∧
      (some true : Option Bool) = compareCells .eq (exactCell priceColumn.pgType (some 300))
        (exactCell countColumn.pgType (some 3)) := by
  have hprice : IsNumberType priceColumn.pgType := .inr ⟨rfl, by decide +kernel⟩
  have hcount : IsNumberType countColumn.pgType := .inl rfl
  have hcomparable : Comparable priceColumn countColumn :=
    .inr ⟨by decide +kernel, by decide +kernel⟩
  have heval : evalComparison (fun v => if v = priceColumn then some 300 else some 3) noConditions
      .eq (equiJoinKeys priceColumn countColumn).1 (equiJoinKeys priceColumn countColumn).2 =
        .ok (some true) := by decide +kernel
  exact ⟨heval, ((comparison_exact priceColumn countColumn hprice hcount).mpr hcomparable _
    noConditions).2 _ heval⟩

/-- The number 10⁻¹⁷ in a `numeric(38, 17)` is found equal to the integer 0: both are brought to
16 digits behind the point. -/
theorem comparison_of_fine_column :
    IsNumberType fineColumn.pgType ∧ IsNumberType countColumn.pgType ∧
      evalComparison (fun v => if v = fineColumn then some 1 else some 0) noConditions .eq
          (equiJoinKeys fineColumn countColumn).1 (equiJoinKeys fineColumn countColumn).2 =
        .ok (some true) ∧
      compareCells .eq (exactCell fineColumn.pgType (some 1))
        (exactCell countColumn.pgType (some 0)) = some false := by
  refine ⟨.inr ⟨rfl, by decide +kernel⟩, .inl rfl, by decide +kernel, by decide +kernel⟩

end PgFusion.Frontend

import PgFusion.Frontend.Query

/-!
Compilation of scalar expressions
(`pg/frontend/src/compiler/{expr,join,numeric_arithmetic,const_expr}.rs`): operators, constants,
casts, COALESCE, CASE and boolean connectives. What else an expression may be is compiled by a
function that is handed in.
-/

namespace PgFusion.Frontend

open PgType Numeric

/-! ### DataFusion expressions -/

/-- `Expr`. A column is given by what it stands for; `compiled` is the expression that the part
of the compiler that is not written out here makes of `source`. -/
inductive DfExpr (P : Type) where
  | compiled (source : TypedExpr) (subplans : List P)
  | column (v : Var)
  | outerColumn (v : OuterVar)
  | literal (dataType : DataType) (value : Option ℤ)
  | cast (expr : DfExpr P) (dataType : DataType)
  | bpcharCmpKey (expr : DfExpr P)
  | checkedArithmetic (op : QueryOperator) (left right : DfExpr P)
  | binary (op : QueryOperator) (left right : DfExpr P)
  | and (left right : DfExpr P)
  | or (left right : DfExpr P)
  | not (expr : DfExpr P)
  | negative (expr : DfExpr P)
  | isNull (expr : DfExpr P)
  | isNotNull (expr : DfExpr P)
  | booleanTest (kind : BooleanTestKind) (expr : DfExpr P)
  | case (operand : Option (DfExpr P)) (whenThen : List (DfExpr P × DfExpr P))
      (elseExpr : Option (DfExpr P))

variable {P : Type}

/-! ### Operands -/

/-- `cast_expr_if_pg_arrow_type_differs`. -/
def castExprIfPgArrowTypeDiffers (expr : DfExpr P) (pgType : PgTypeRef) (dataType : DataType) :
    DfExpr P :=
  if arrowTypeForPgType pgType = some dataType then expr else .cast expr dataType

/-- The integer types. -/
def isIntegerOid (oid : UInt32) : Bool := oid == int2Oid || oid == int4Oid || oid == int8Oid

/-- `is_numeric_comparison_oid`. -/
def isNumericComparisonOid (oid : UInt32) : Bool :=
  isIntegerOid oid || oid == float4Oid || oid == float8Oid || oid == numericOid

/-- `common_numeric_comparison_type`. -/
def commonNumericComparisonType (left right : UInt32) : Option DataType :=
  if left = right then none
  else if !(isNumericComparisonOid left && isNumericComparisonOid right) then none
  else if left = float8Oid ∨ right = float8Oid ∨ left = float4Oid ∨ right = float4Oid then
    some .float64
  else if left = numericOid ∨ right = numericOid then some (.decimal128 38 16)
  else some .int64

/-- The type that the operands of a comparison are cast to, if they are. -/
def comparisonType (left right : PgTypeRef) : Option DataType :=
  if left.oid = numericOid ∧ right.oid = numericOid ∧ (arrowTypeForPgType left).isSome ∧
      (arrowTypeForPgType right).isSome ∧ arrowTypeForPgType left ≠ arrowTypeForPgType right then
    some (.decimal128 38 16)
  else commonNumericComparisonType left.oid right.oid

/-- `numeric_arithmetic_operand_type`. -/
def numericArithmeticOperandType (result : PgTypeRef) (left right : UInt32) : Option DataType :=
  if !(isNumericComparisonOid left && isNumericComparisonOid right) then none
  else if result.oid = int2Oid then some .int16
  else if result.oid = int4Oid then some .int32
  else if result.oid = int8Oid then some .int64
  else if result.oid = float4Oid then some .float32
  else if result.oid = float8Oid then some .float64
  else if result.oid = numericOid then
    some ((arrowTypeForPgType result).getD (.decimal128 38 16))
  else none

/-- The arithmetic operators. -/
def QueryOperator.isArithmetic : QueryOperator → Bool
  | .plus | .minus | .multiply | .divide | .modulo => true
  | _ => false

/-- The type that `coerce_binary_operands` casts operands of these types to, if it does. -/
def operandType (op : QueryOperator) (result left right : PgTypeRef) : Option DataType :=
  if op.isComparison then comparisonType left right
  else if op.isArithmetic then numericArithmeticOperandType result left.oid right.oid
  else none

/-- `coerce_binary_operands`, with `coerce_comparison_operands`. -/
def coerceBinaryOperands (op : QueryOperator) (result : PgTypeRef) (left right : DfExpr P)
    (leftSource rightSource : TypedExpr) : DfExpr P × DfExpr P :=
  match exprPgType leftSource, exprPgType rightSource with
  | some leftType, some rightType =>
    match operandType op result leftType rightType with
    | some dataType =>
      (castExprIfPgArrowTypeDiffers left leftType dataType,
        castExprIfPgArrowTypeDiffers right rightType dataType)
    | none => (left, right)
  | _, _ => (left, right)

/-- `compile_bpchar_equality_operand`. -/
def compileBpcharEqualityOperand (expr : DfExpr P) (source : TypedExpr) : DfExpr P :=
  if (exprPgType source).any fun t => t.oid == bpcharOid then .bpcharCmpKey expr else expr

/-- `compile_bpchar_equality_operands`. -/
def compileBpcharEqualityOperands (op : QueryOperator) (left right : DfExpr P)
    (leftSource rightSource : TypedExpr) : DfExpr P × DfExpr P :=
  match op with
  | .eq | .notEq | .isDistinctFrom | .isNotDistinctFrom =>
    (compileBpcharEqualityOperand left leftSource, compileBpcharEqualityOperand right rightSource)
  | _ => (left, right)

/-! ### Numeric constants -/

/-- `str::trim`. -/
def trimText (text : List Char) : List Char :=
  ((text.dropWhile Char.isWhitespace).reverse.dropWhile Char.isWhitespace).reverse

/-- `is_nonfinite_numeric_text`. -/
def isNonfiniteNumericText (value : List Char) : Bool :=
  ["nan", "infinity", "+infinity", "-infinity", "inf", "+inf", "-inf"].contains
    (String.ofList ((trimText value).map Char.toLower))

/-- The text without its sign. -/
def stripSign : List Char → List Char
  | '+' :: rest => rest
  | '-' :: rest => rest
  | text => text

/-- `split_once('.')`: what is before and behind the first point. -/
def splitPoint (text : List Char) : List Char × List Char :=
  (text.takeWhile (· ≠ '.'), (text.dropWhile (· ≠ '.')).drop 1)

/-- `numeric_text_display_scale`. -/
def numericTextDisplayScale (value : List Char) : Option ℤ :=
  if isNonfiniteNumericText (trimText value) then none
  else
    let scale := (splitPoint (stripSign (trimText value))).2.length
    if scale ≤ 127 then some scale else none

/-- `numeric_literal_display_scale`. -/
def numericLiteralDisplayScale (constant : Const) : Option ℤ :=
  match constant.value with
  | some (.int16 _) => some 0
  | some (.int32 _) => some 0
  | some (.int64 _) => some 0
  | some (.numeric value) => numericTextDisplayScale value
  | _ => none

/-- `decimal128_for_numeric_text`: the text as a number of units of the last place. -/
def decimal128ForNumericText (value : List Char) (precision : ℕ) (scale : ℤ) : Option ℤ :=
  if scale < 0 then none
  else
    let value := trimText value
    if ["nan", "infinity", "+infinity", "-infinity"].contains
      (String.ofList (value.map Char.toLower))
    then none
    else
      let negative := value.head? == some '-'
      let parts := splitPoint (stripSign value)
      if (parts.1 = [] ∧ parts.2 = []) ∨ ¬ parts.1.all Char.isDigit ∨ ¬ parts.2.all Char.isDigit ∨
          scale < parts.2.length then none
      else
        let whole := parts.1.dropWhile (· = '0')
        if precision < whole.length + scale then none
        else
          let digits := whole ++ parts.2 ++ List.replicate (scale.toNat - parts.2.length) '0'
          let scaled : ℤ := Nat.ofDigitChars 10 digits 0
          some (if negative then -scaled else scaled)

/-! ### The scales of numeric arithmetic -/

/-- `validate_decimal128_scale`. -/
def validateDecimal128Scale (scale : ℤ) : Except PgFrontendError Unit :=
  if 0 ≤ scale ∧ scale ≤ 38 then .ok ()
  else .error (.unsupported ("numeric arithmetic result scale " ++ toString scale ++
    " exceeds Decimal128 max scale 38"))

/-- `numeric_type_scale`. -/
def numericTypeScale (t : PgTypeRef) : Except PgFrontendError (Option ℤ) :=
  if t.oid = numericOid then
    match numericShapeFromTypmod t.typmod with
    | none => .error (.unsupported ("unsupported numeric typmod " ++ toString t.typmod ++
        " in arithmetic expression"))
    | some shape => do
      validateDecimal128Scale shape.2.toInt
      .ok (some shape.2.toInt)
  else if isIntegerOid t.oid then .ok (some 0)
  else .ok none

/-- The scale of the result where its type does not fix it. -/
def operatorResultScale (op : QueryOperator) (left right : ℤ) : Except PgFrontendError ℤ :=
  match op with
  | .plus | .minus | .modulo => .ok (max left right)
  | .multiply =>
    if left + right ≤ 127 then .ok (left + right)
    else .error (.unsupported "numeric arithmetic result scale overflowed Decimal128 scale")
  | .divide => .ok numericFallbackScale.toInt
  | _ => .error (.unsupported "unsupported numeric arithmetic operator in scale policy")

/-- `numeric_arithmetic_result_scale`. -/
def numericArithmeticResultScale (op : QueryOperator) (result : PgTypeRef) (left right : ℤ) :
    Except PgFrontendError ℤ := do
  let scale ←
    if result.oid = numericOid ∧ 0 ≤ result.typmod then do
      let scale ← numericTypeScale result
      .ok (scale.getD numericFallbackScale.toInt)
    else operatorResultScale op left right
  validateDecimal128Scale scale
  .ok scale

/-- The scale of an expression that only its type tells of. -/
def exprTypeScale (e : TypedExpr) : Except PgFrontendError (Option ℤ) :=
  match exprPgType e with
  | none => .ok none
  | some t => numericTypeScale t

/-- `numeric_arithmetic_expr_scale`. -/
def numericArithmeticExprScale : TypedExpr → Except PgFrontendError (Option ℤ)
  | .const c =>
    if c.pgType.oid = numericOid ∧ c.pgType.typmod < 0 then .ok (numericLiteralDisplayScale c)
    else exprTypeScale (.const c)
  | .relabelType inner => numericArithmeticExprScale inner
  | .cast arg t =>
    if t.oid = numericOid ∧ 0 ≤ t.typmod then numericTypeScale t
    else if isIntegerOid t.oid then .ok (some 0)
    else numericArithmeticExprScale arg
  | .unaryOp _ arg _ => numericArithmeticExprScale arg
  | .binaryOp op left right t =>
    if t.oid = numericOid then do
      match ← numericArithmeticExprScale left with
      | none => numericTypeScale t
      | some leftScale =>
        match ← numericArithmeticExprScale right with
        | none => numericTypeScale t
        | some rightScale => do
          let scale ← numericArithmeticResultScale op t leftScale rightScale
          .ok (some scale)
    else exprTypeScale (.binaryOp op left right t)
  | e => exprTypeScale e

/-- `NumericDecimalArithmeticPolicy`. -/
structure NumericDecimalArithmeticPolicy where
  leftPgType : PgTypeRef
  rightPgType : PgTypeRef
  leftType : DataType
  rightType : DataType
  resultType : DataType
deriving DecidableEq

/-- `is_decimal_arithmetic_operand_oid`. -/
def isDecimalArithmeticOperandOid (oid : UInt32) : Bool := oid == numericOid || isIntegerOid oid

/-- `decimal128_with_scale`. -/
def decimal128WithScale (scale : ℤ) : DataType := .decimal128 numericFallbackPrecision.toNat scale

/-- The scales that the operands of an operator are brought to. -/
def operandScales (op : QueryOperator) (result left right : ℤ) :
    Except PgFrontendError (ℤ × ℤ) :=
  match op with
  | .plus | .minus | .modulo => .ok (result, result)
  | .multiply => .ok (left, right)
  | .divide => .ok (max left (max (result - 4) (-128)), right)
  | _ => .error (.unsupported "unsupported numeric arithmetic operator in decimal policy")

/-- The operand types of a decimal operation: one of them is `numeric`, the other one too or an
integer. -/
def decimalOperandTypes (left right : TypedExpr) : Option (PgTypeRef × PgTypeRef) := do
  let leftPgType ← exprPgType left
  let rightPgType ← exprPgType right
  if !(isDecimalArithmeticOperandOid leftPgType.oid && isDecimalArithmeticOperandOid
    rightPgType.oid)
    then none
  else if leftPgType.oid ≠ numericOid ∧ rightPgType.oid ≠ numericOid then none
  else some (leftPgType, rightPgType)

/-- `numeric_decimal_arithmetic_policy`. -/
def numericDecimalArithmeticPolicy (op : QueryOperator) (result : PgTypeRef)
    (left right : TypedExpr) : Except PgFrontendError (Option NumericDecimalArithmeticPolicy) :=
  if !op.isArithmetic || result.oid != numericOid then .ok none
  else
    match decimalOperandTypes left right with
    | none => .ok none
    | some types => do
      match ← numericArithmeticExprScale left with
      | none => .ok none
      | some leftScale =>
        match ← numericArithmeticExprScale right with
        | none => .ok none
        | some rightScale => do
          let resultScale ← numericArithmeticResultScale op result leftScale rightScale
          let scales ← operandScales op resultScale leftScale rightScale
          .ok (some ⟨types.1, types.2, decimal128WithScale scales.1,
            decimal128WithScale scales.2, decimal128WithScale resultScale⟩)

/-! ### Operators -/

/-- `compile_bitwise_shift_expr`. -/
def compileBitwiseShiftExpr (op : QueryOperator) (result : PgTypeRef) (left right : DfExpr P) :
    DfExpr P :=
  let resultType := (arrowTypeForPgType result).getD .int64
  let workType := if resultType = .int16 ∨ resultType = .int32 then .int64 else resultType
  let shifted := .binary op (.cast left workType) (.cast right workType)
  if workType = resultType then shifted else .cast shifted resultType

/-- `checked_integer_arithmetic_udf`, whether there is one. -/
def hasCheckedIntegerArithmetic (op : QueryOperator) (result : PgTypeRef) : Bool :=
  isIntegerOid result.oid &&
    match op with
    | .plus | .minus | .multiply => true
    | _ => false

/-- `compile_binary_expr`. -/
def compileBinaryExpr (op : QueryOperator) (result : PgTypeRef) (left right : DfExpr P)
    (leftSource rightSource : TypedExpr) : Except PgFrontendError (DfExpr P) :=
  if op = .bitwiseShiftLeft ∨ op = .bitwiseShiftRight then
    .ok (compileBitwiseShiftExpr op result left right)
  else do
    match ← numericDecimalArithmeticPolicy op result leftSource rightSource with
    | some policy =>
      let left := castExprIfPgArrowTypeDiffers left policy.leftPgType policy.leftType
      let right := castExprIfPgArrowTypeDiffers right policy.rightPgType policy.rightType
      .ok (.cast (.binary op left right) policy.resultType)
    | none =>
      let operands := coerceBinaryOperands op result left right leftSource rightSource
      if hasCheckedIntegerArithmetic op result then
        .ok (.checkedArithmetic op operands.1 operands.2)
      else
        let operands :=
          compileBpcharEqualityOperands op operands.1 operands.2 leftSource rightSource
        .ok (.binary op operands.1 operands.2)

/-- The two keys that `collect_join_quals` makes of an equality between two columns. -/
def equiJoinKeys (left right : Var) : DfExpr P × DfExpr P :=
  let operands := coerceBinaryOperands .eq ⟨boolOid, -1, 0⟩ (.column left) (.column right)
    (.var left) (.var right)
  compileBpcharEqualityOperands .eq operands.1 operands.2 (.var left) (.var right)

end PgFusion.Frontend

import PgFusion.Data.Scaled
import PgFusion.Frontend.Scalar

/-!
How DataFusion evaluates expressions over numbers. A number is an integer, of which its Arrow type
says the scale; every operation is an error where the digits of its type do not suffice.
-/

namespace PgFusion.Frontend

open PgType

/-- Why an evaluation fails. -/
inductive DfError where
  | outOfRange
  | typeMismatch
deriving DecidableEq

/-! ### Types of numbers -/

/-- The digits behind the point of a type of numbers. -/
def numberScale : DataType → Option ℤ
  | .int16 => some 0
  | .int32 => some 0
  | .int64 => some 0
  | .decimal128 _ scale => some scale
  | _ => none

/-- Whether a type of numbers has room for an integer. -/
def numberFits (t : DataType) (m : ℤ) : Bool :=
  match t with
  | .int16 => -2 ^ 15 ≤ m ∧ m < 2 ^ 15
  | .int32 => -2 ^ 31 ≤ m ∧ m < 2 ^ 31
  | .int64 => -2 ^ 63 ≤ m ∧ m < 2 ^ 63
  | .decimal128 precision _ => |m| < 10 ^ precision
  | _ => false

/-- An integer, where the type has room for it. -/
def checkFits (t : DataType) (m : ℤ) : Except DfError (Option ℤ) :=
  if numberFits t m then .ok (some m) else .error .outOfRange

/-- The result type of an arithmetic operator. -/
def arithmeticType (op : QueryOperator) (left right : DataType) : Option DataType :=
  match op, left, right with
  | .plus, .decimal128 _ s, .decimal128 _ s' => some (.decimal128 38 (max s s'))
  | .minus, .decimal128 _ s, .decimal128 _ s' => some (.decimal128 38 (max s s'))
  | .multiply, .decimal128 _ s, .decimal128 _ s' => some (.decimal128 38 (s + s'))
  | _, left, right =>
    if left = right ∧ (left = .int16 ∨ left = .int32 ∨ left = .int64) then some left else none

/-- The type that two branches of a CASE are brought to. -/
def unifyTwo : DataType → DataType → Option DataType
  | .decimal128 _ s, .decimal128 _ s' => some (.decimal128 38 (max s s'))
  | left, right => if left = right then some left else none

/-- The type that the branches of a CASE are brought to. -/
def unifyTypes : List (Option DataType) → Option DataType
  | [] => none
  | first :: rest => rest.foldl (fun t t' => do unifyTwo (← t) (← t')) first

variable {P : Type}

mutual

/-- The Arrow type of an expression over numbers. -/
def dfType : DfExpr P → Option DataType
  | .column v => arrowTypeForPgType v.pgType
  | .literal t _ => some t
  | .cast _ t => some t
  | .negative e => dfType e
  | .binary op left right => do arithmeticType op (← dfType left) (← dfType right)
  | .checkedArithmetic op left right => do arithmeticType op (← dfType left) (← dfType right)
  | .case _ arms elseExpr => unifyTypes (armTypes arms ++ optionType elseExpr)
  | _ => none

/-- The types of the results of a CASE's arms. -/
def armTypes : List (DfExpr P × DfExpr P) → List (Option DataType)
  | [] => []
  | (_, t) :: arms => dfType t :: armTypes arms

/-- The type of the result that may stand behind a CASE's ELSE. -/
def optionType : Option (DfExpr P) → List (Option DataType)
  | none => []
  | some e => [dfType e]

end

/-! ### Values of numbers -/

/-- A cast between types of numbers. -/
def castCell (source target : Option DataType) (cell : Option ℤ) : Except DfError (Option ℤ) :=
  match target, source.bind numberScale, target.bind numberScale, cell with
  | some t, some s, some s', some m => checkFits t (Scaled.rescale s s' m)
  | some _, some _, some _, none => .ok none
  | _, _, _, _ => .error .typeMismatch

/-- An arithmetic operator on integers at the scales `s` and `s'`, its result at the scale `r`. -/
def arithmeticUnits (op : QueryOperator) (s s' r m n : ℤ) : Except DfError ℤ :=
  match op with
  | .plus => .ok (m * 10 ^ (r - s).toNat + n * 10 ^ (r - s').toNat)
  | .minus => .ok (m * 10 ^ (r - s).toNat - n * 10 ^ (r - s').toNat)
  | .multiply => .ok (m * n)
  | _ => .error .typeMismatch

/-- An arithmetic operator on values of the given types. -/
def arithmeticCell (op : QueryOperator) (left right : Option DataType) (a b : Option ℤ) :
    Except DfError (Option ℤ) := do
  match left, right with
  | some left, some right =>
    match arithmeticType op left right, numberScale left, numberScale right with
    | some t, some s, some s' =>
      match a, b with
      | some m, some n => do
        let units ← arithmeticUnits op s s' ((numberScale t).getD 0) m n
        checkFits t units
      | _, _ => .ok none
    | _, _, _ => .error .typeMismatch
  | _, _ => .error .typeMismatch

/-- A sign change. -/
def negateCell (t : Option DataType) (cell : Option ℤ) : Except DfError (Option ℤ) :=
  match t, cell with
  | some t, some m => checkFits t (-m)
  | some _, none => .ok none
  | none, _ => .error .typeMismatch

section Eval

variable (row : Var → Option ℤ) (truth : DfExpr P → Except DfError Bool)

mutual

/-- The value of an expression over numbers on a row. The conditions of a CASE are judged by
`truth`, but for the null tests that stand for COALESCE. -/
def dfEval : DfExpr P → Except DfError (Option ℤ)
  | .column v => .ok (row v)
  | .literal _ value => .ok value
  | .cast e t => do
    let cell ← dfEval e
    castCell (dfType e) (some t) cell
  | .negative e => do
    let cell ← dfEval e
    negateCell (dfType e) cell
  | .binary op left right => do
    let a ← dfEval left
    let b ← dfEval right
    arithmeticCell op (dfType left) (dfType right) a b
  | .checkedArithmetic op left right => do
    let a ← dfEval left
    let b ← dfEval right
    arithmeticCell op (dfType left) (dfType right) a b
  | .case _ arms elseExpr =>
    let t := unifyTypes (armTypes arms ++ optionType elseExpr)
    dfEvalArms t (dfEvalElse t elseExpr) arms
  | _ => .error .typeMismatch

/-- The first arm of a CASE whose condition holds, at the common type, or else `fallback`. -/
def dfEvalArms (t : Option DataType) (fallback : Except DfError (Option ℤ)) :
    List (DfExpr P × DfExpr P) → Except DfError (Option ℤ)
  | [] => fallback
  | (w, e) :: arms => do
    if ← dfEvalCondition w then do
      let cell ← dfEval e
      castCell (dfType e) t cell
    else dfEvalArms t fallback arms

/-- What stands behind the ELSE of a CASE, at the common type. -/
def dfEvalElse (t : Option DataType) : Option (DfExpr P) → Except DfError (Option ℤ)
  | none => .ok none
  | some e => do
    let cell ← dfEval e
    castCell (dfType e) t cell

/-- A condition of a CASE. -/
def dfEvalCondition : DfExpr P → Except DfError Bool
  | .isNotNull e => do
    let cell ← dfEval e
    .ok cell.isSome
  | w => truth w

end

end Eval

/-! ### Comparison -/

/-- A comparison operator with SQL's nulls. -/
def compareCells {α : Type} [LinearOrder α] (op : QueryOperator) (a b : Option α) : Option Bool :=
  match op with
  | .isDistinctFrom => some (a ≠ b)
  | .isNotDistinctFrom => some (a = b)
  | _ =>
    match a, b with
    | some x, some y =>
      match op with
      | .eq => some (x = y)
      | .notEq => some (x ≠ y)
      | .lt => some (x < y)
      | .ltEq => some (x ≤ y)
      | .gt => some (y < x)
      | .gtEq => some (y ≤ x)
      | _ => none
    | _, _ => none

/-- A comparison of two expressions over numbers, whose types have to agree. -/
def evalComparison (row : Var → Option ℤ) (truth : DfExpr P → Except DfError Bool)
    (op : QueryOperator) (left right : DfExpr P) : Except DfError (Option Bool) := do
  let a ← dfEval row truth left
  let b ← dfEval row truth right
  if dfType left = dfType right then .ok (compareCells op a b) else .error .typeMismatch

end PgFusion.Frontend

import PgFusion.PgType.Types

/-!
The typed query that the PostgreSQL frontend compiles (`pg/frontend/src/typed_query.rs`). The
expression type is written over an arbitrary type of subqueries; the query type then ties the knot.
-/

namespace PgFusion.Frontend

open PgType

/-! ### Expressions -/

/-- `Var`: a column of the query's own range table. -/
structure Var where
  rtindex : ℕ
  attnum : ℤ
  pgType : PgTypeRef
deriving DecidableEq

/-- `OuterVar`: a column of an enclosing query, by name. -/
structure OuterVar where
  relation : Option String
  name : String
  pgType : PgTypeRef
deriving DecidableEq

/-- `PgConstValue`; the two float types are given by their bits. -/
inductive PgConstValue where
  | bool (value : Bool)
  | int16 (value : Int16)
  | int32 (value : Int32)
  | int64 (value : Int64)
  | float32 (bits : UInt32)
  | float64 (bits : UInt64)
  | numeric (value : List Char)
  | text (value : List Char)
  | binary (value : List UInt8)
  | date32 (value : Int32)
  | time64Microsecond (value : Int64)
deriving DecidableEq

/-- `Const`: a constant, null where it has no value. -/
structure Const where
  pgType : PgTypeRef
  value : Option PgConstValue
deriving DecidableEq

/-- `ParamKind`. -/
inductive ParamKind where
  | external
  | exec
  | sublink
  | multiexpr
deriving DecidableEq

/-- `Param`. -/
structure Param where
  kind : ParamKind
  id : ℤ
  pgType : PgTypeRef
deriving DecidableEq

/-- `BoolOp`. -/
inductive BoolOp where
  | and
  | or
  | not
deriving DecidableEq

/-- `BooleanTestKind`. -/
inductive BooleanTestKind where
  | isTrue
  | isNotTrue
  | isFalse
  | isNotFalse
  | isUnknown
  | isNotUnknown
deriving DecidableEq

/-- `QueryOperator`. -/
inductive QueryOperator where
  | eq
  | notEq
  | isDistinctFrom
  | isNotDistinctFrom
  | lt
  | ltEq
  | gt
  | gtEq
  | plus
  | minus
  | multiply
  | divide
  | modulo
  | bitwiseShiftLeft
  | bitwiseShiftRight
  | stringConcat
  | likeMatch
  | notLikeMatch
  | iLikeMatch
  | notILikeMatch
  | regexMatch
  | regexNotMatch
deriving DecidableEq

/-- `QueryUnaryOperator`. -/
inductive QueryUnaryOperator where
  | plus
  | minus
deriving DecidableEq

/-- `AggregateFunction`. -/
inductive AggregateFunction where
  | count
  | sum
  | avg
  | min
  | max
  | stddevPop
  | stddevSamp
  | varPop
  | varSamp
  | regrCount
  | regrSxx
  | regrSyy
  | regrSxy
  | regrAvgX
  | regrAvgY
  | regrR2
  | regrSlope
  | regrIntercept
  | covarPop
  | covarSamp
  | corr
  | stringAgg
  | grouping
deriving DecidableEq

/-- `ScalarFunction`. -/
inductive ScalarFunction where
  | abs
  | acosh
  | asinh
  | atanh
  | ceil
  | concat
  | concatWs
  | cosh
  | exp
  | floor
  | format
  | length
  | ln
  | nullIf
  | power
  | quoteLiteral
  | random
  | reverse
  | round
  | sinh
  | sqrt
  | tanh
  | trunc
deriving DecidableEq

/-- `WindowFunctionKind`. -/
inductive WindowFunctionKind where
  | aggregate (func : AggregateFunction)
  | cumeDist
  | denseRank
  | firstValue
  | lag
  | lastValue
  | lead
  | ntile
  | nthValue
  | percentRank
  | rank
  | rowNumber
deriving DecidableEq

/-- `QueryExpr`, over the type `Q` of the queries it may hold. -/
inductive QueryExpr (Q : Type) where
  | var (v : Var)
  | outerVar (v : OuterVar)
  | const (c : Const)
  | param (p : Param)
  | relabelType (inner : QueryExpr Q)
  | cast (arg : QueryExpr Q) (pgType : PgTypeRef)
  | functionCall (func : ScalarFunction) (args : List (QueryExpr Q)) (pgType : PgTypeRef)
  | array (elements : List (QueryExpr Q)) (pgType : PgTypeRef)
  | arraySubscript (array index : QueryExpr Q) (pgType : PgTypeRef)
  | bool (op : BoolOp) (args : List (QueryExpr Q))
  | binaryOp (op : QueryOperator) (left right : QueryExpr Q) (pgType : PgTypeRef)
  | unaryOp (op : QueryUnaryOperator) (arg : QueryExpr Q) (pgType : PgTypeRef)
  | aggregateCall (func : AggregateFunction) (args : List (QueryExpr Q)) (distinct : Bool)
      (filter : Option (QueryExpr Q)) (pgType : PgTypeRef)
  | windowCall (func : WindowFunctionKind) (args : List (QueryExpr Q)) (winref : UInt32)
      (filter : Option (QueryExpr Q)) (distinct : Bool) (pgType : PgTypeRef)
  | coalesce (args : List (QueryExpr Q)) (pgType : PgTypeRef)
  | case (operand : Option (QueryExpr Q)) (whenThen : List (QueryExpr Q × QueryExpr Q))
      (elseExpr : Option (QueryExpr Q)) (pgType : PgTypeRef)
  | scalarSubquery (subquery : Q)
  | existsSubquery (subquery : Q) (pgType : PgTypeRef)
  | inSubquery (expr : QueryExpr Q) (subquery : Q) (pgType : PgTypeRef)
  | nullTest (arg : QueryExpr Q) (isNull : Bool)
  | booleanTest (arg : QueryExpr Q) (kind : BooleanTestKind)

/-! ### Queries -/

/-- `Target`. -/
structure Target (E : Type) where
  expr : E
  pgType : PgTypeRef
  ressortgroupref : UInt32
  resjunk : Bool

/-- `TypedQuery`, as far as an expression is compiled by it: its targets. -/
structure TypedQuery where
  targets : List (Target (QueryExpr TypedQuery))

/-! ### What the compilers of a query share -/

/-- The expressions of a typed query. -/
abbrev TypedExpr := QueryExpr TypedQuery

/-- `PgFrontendError`, as far as the compiler raises it itself. -/
inductive PgFrontendError where
  | unsupported (message : String)
deriving DecidableEq

/-- `visible_targets`. -/
def visibleTargets (query : TypedQuery) : List (Target TypedExpr) :=
  query.targets.filter fun target => !target.resjunk

/-- `expr_pg_type`. -/
def exprPgType : TypedExpr → Option PgTypeRef
  | .var v => some v.pgType
  | .outerVar v => some v.pgType
  | .const c => some c.pgType
  | .param p => some p.pgType
  | .relabelType inner => exprPgType inner
  | .cast _ t => some t
  | .array _ t => some t
  | .arraySubscript _ _ t => some t
  | .functionCall _ _ t => some t
  | .binaryOp _ _ _ t => some t
  | .unaryOp _ _ t => some t
  | .aggregateCall _ _ _ _ t => some t
  | .windowCall _ _ _ _ _ t => some t
  | .coalesce _ t => some t
  | .case _ _ _ t => some t
  | .existsSubquery _ t => some t
  | .inSubquery _ _ t => some t
  | .bool _ _ => some ⟨boolOid, -1, 0⟩
  | .nullTest _ _ => some ⟨boolOid, -1, 0⟩
  | .booleanTest _ _ => some ⟨boolOid, -1, 0⟩
  | .scalarSubquery query => (visibleTargets query).head?.map (·.pgType)

/-- The comparison operators. -/
def QueryOperator.isComparison : QueryOperator → Bool
  | .eq | .notEq | .isDistinctFrom | .isNotDistinctFrom | .lt | .ltEq | .gt | .gtEq => true
  | _ => false

end PgFusion.Frontend

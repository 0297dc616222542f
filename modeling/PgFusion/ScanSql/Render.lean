import Mathlib.Data.Finset.Union
import PgFusion.ScanSql.Literal

/-!
Filters as SQL (`scan_sql`: `render.rs`, `types.rs`, `identifier.rs`), over a `Target`: the schema,
the relation and the limit on identifiers. A `Rendering` either fails, refuses the expression, or
renders it.
-/

namespace PgFusion.ScanSql

open Sql

/-! ### Expressions -/

/-- `Operator`. The operators that are not listed are never rendered. -/
inductive Operator where
  | eq
  | notEq
  | lt
  | ltEq
  | gt
  | gtEq
  | plus
  | minus
  | multiply
  | divide
  | modulo
  | and
  | or
  | isDistinctFrom
  | isNotDistinctFrom
  | regexMatch
  | regexIMatch
  | regexNotMatch
  | regexNotIMatch
  | likeMatch
  | iLikeMatch
  | notLikeMatch
  | notILikeMatch
  | bitwiseAnd
  | bitwiseOr
  | bitwiseXor
  | bitwiseShiftRight
  | bitwiseShiftLeft
  | stringConcat
  | atArrow
  | arrowAt
  | other
deriving DecidableEq

/-- `TableReference`. -/
inductive TableReference where
  | bare (table : String)
  | partialRef (schema table : String)
  | full (catalog schema table : String)
deriving DecidableEq

/-- `Column`. -/
structure Column where
  relation : Option TableReference
  name : String
deriving DecidableEq

/-- The predicates after an operand: `IsNull`, `IsTrue`, `IsFalse`, `IsUnknown`. -/
inductive Test where
  | null
  | true
  | false
  | unknown
deriving DecidableEq

/-- `Expr`. `IsNotNull` and the like are tests that are negated; the variants that are never
rendered are one, with the expressions they contain. -/
inductive Expr where
  | alias (e : Expr) (name : String)
  | column (column : Column)
  | literal (value : ScalarValue) (metadata : Option FieldMetadata)
  | binaryExpr (left : Expr) (op : Operator) (right : Expr)
  | like (negated : Bool) (e pattern : Expr) (escapeChar : Option Char) (caseInsensitive : Bool)
  | similarTo (negated : Bool) (e pattern : Expr) (escapeChar : Option Char)
      (caseInsensitive : Bool)
  | not (e : Expr)
  | test (negated : Bool) (what : Test) (e : Expr)
  | negative (e : Expr)
  | between (e : Expr) (negated : Bool) (low high : Expr)
  | case (base : Option Expr) (arms : List (Expr × Expr)) (otherwise : Option Expr)
  | cast (e : Expr) (dataType : DataType)
  | tryCast (e : Expr) (dataType : DataType)
  | scalarFunction (name : String) (args : List Expr)
  | inList (e : Expr) (list : List Expr) (negated : Bool)
  | other (children : List Expr)

/-! ### Relations and identifiers -/

/-- `validate_identifier`. -/
def validateIdentifier (identifier : String) (maxBytes : ℕ) (kind : String) : Except Failure Unit :=
  if maxBytes < identifier.utf8ByteSize then
    throw (.error (.overlongIdentifier kind identifier maxBytes)) else pure ()

/-- `PgRelation`. -/
structure PgRelation where
  schema : Option String
  table : String
  aliases : List String
deriving DecidableEq

/-- `PgRelation::validate`. -/
def PgRelation.validate (relation : PgRelation) (maxBytes : ℕ) : Except Failure Unit := do
  match relation.schema with
  | some schema => validateIdentifier schema maxBytes "schema"
  | none => pure ()
  validateIdentifier relation.table maxBytes "table"

/-- The part of `PgRelation::matches_reference` for a reference with a schema. -/
def PgRelation.matchesQualified (relation : PgRelation) (schema table : String) (maxBytes : ℕ) :
    Except Failure Bool := do
  validateIdentifier schema maxBytes "schema"
  validateIdentifier table maxBytes "table"
  return relation.schema = some schema ∧ relation.table = table

/-- `PgRelation::matches_reference`. -/
def PgRelation.matchesReference (relation : PgRelation) (reference : TableReference)
    (maxBytes : ℕ) :
    Except Failure Bool := do
  relation.validate maxBytes
  match reference with
  | .bare table =>
    validateIdentifier table maxBytes "table"
    return table = relation.table ∨ table ∈ relation.aliases
  | .partialRef schema table => relation.matchesQualified schema table maxBytes
  | .full _ schema table => relation.matchesQualified schema table maxBytes

/-- `PgRelation::display_name`. -/
def PgRelation.displayName (relation : PgRelation) : String :=
  match relation.schema with
  | some schema => schema ++ "." ++ relation.table
  | none => relation.table

/-- `PgRelation::render_sql`. -/
def PgRelation.renderSql (relation : PgRelation) : String :=
  match relation.schema with
  | some schema => quoteIdentifier schema ++ "." ++ quoteIdentifier relation.table
  | none => quoteIdentifier relation.table

/-- `TableReference::to_string`. -/
def TableReference.text : TableReference → String
  | .bare table => table
  | .partialRef schema table => schema ++ "." ++ table
  | .full catalog schema table => catalog ++ "." ++ schema ++ "." ++ table

/-- `Column::flat_name`. -/
def Column.flatName (column : Column) : String :=
  match column.relation with
  | some relation => relation.text ++ "." ++ column.name
  | none => column.name

/-- What expressions are rendered for: the names of the schema's fields, the relation that is
scanned, and the greatest length of an identifier. -/
structure Target where
  fields : List String
  relation : PgRelation
  identifierMaxBytes : ℕ
deriving DecidableEq

/-! ### Renderings -/

/-- `RenderedExpr`. -/
structure RenderedExpr where
  sql : String
  referencedColumns : Finset ℕ
deriving DecidableEq

/-- `RenderedExpr::new`. -/
def RenderedExpr.new (sql : String) : RenderedExpr := ⟨sql, ∅⟩

/-- `RenderedExpr::from_column`. -/
def RenderedExpr.fromColumn (sql : String) (index : ℕ) : RenderedExpr := ⟨sql, {index}⟩

/-- `RenderedExpr::merge`. -/
def RenderedExpr.merge (sql : String) (parts : List RenderedExpr) : RenderedExpr :=
  ⟨sql, parts.foldl (fun columns part => columns ∪ part.referencedColumns) ∅⟩

/-- `Result<Option<_>, CompileError>`, or a panic. -/
def Rendering (α : Type) : Type := Except Failure (Option α)

/-- The next step of a rendering that is neither refused nor failed. -/
def Rendering.andThen {α β : Type} (x : Rendering α) (f : α → Rendering β) : Rendering β :=
  match x with
  | .error e => .error e
  | .ok none => .ok none
  | .ok (some a) => f a

instance : Monad Rendering where
  pure a := .ok (some a)
  bind := Rendering.andThen

/-- `Ok(None)`. -/
def refuse {α : Type} : Rendering α := .ok none

/-- A step that does not refuse. -/
def Rendering.ofExcept {α : Type} (x : Except Failure α) : Rendering α := x.map some

/-- A step that does not fail. -/
def Rendering.ofOption {α : Type} (x : Option α) : Rendering α := .ok x

/-! ### Parts of expressions -/

/-- The check of a column's relation in `render_column`. -/
def checkRelation (target : Target) (column : Column) : Except Failure Unit :=
  match column.relation with
  | none => pure ()
  | some reference => do
    let found ← target.relation.matchesReference reference target.identifierMaxBytes
    if found then pure ()
    else
      throw <| .error <|
        .unexpectedRelation column.flatName reference.text target.relation.displayName

/-- `render_column`. -/
def renderColumn (target : Target) (column : Column) : Except Failure RenderedExpr := do
  checkRelation target column
  validateIdentifier column.name target.identifierMaxBytes "column"
  match target.fields.idxOf? column.name with
  | none => throw (.error (.unknownColumn column.flatName))
  | some index => return .fromColumn (quoteIdentifier (target.fields.getD index "")) index

/-- `render_operator`. -/
def renderOperator : Operator → Option String
  | .eq => some "="
  | .notEq => some "!="
  | .lt => some "<"
  | .ltEq => some "<="
  | .gt => some ">"
  | .gtEq => some ">="
  | .plus => some "+"
  | .minus => some "-"
  | .multiply => some "*"
  | .divide => some "/"
  | .modulo => some "%"
  | .and => some "AND"
  | .or => some "OR"
  | .isDistinctFrom => some "IS DISTINCT FROM"
  | .isNotDistinctFrom => some "IS NOT DISTINCT FROM"
  | .regexMatch => none
  | .regexIMatch => none
  | .regexNotMatch => none
  | .regexNotIMatch => none
  | .likeMatch => some "LIKE"
  | .iLikeMatch => some "ILIKE"
  | .notLikeMatch => some "NOT LIKE"
  | .notILikeMatch => some "NOT ILIKE"
  | .bitwiseAnd => some "&"
  | .bitwiseOr => some "|"
  | .bitwiseXor => some "#"
  | .bitwiseShiftRight => some ">>"
  | .bitwiseShiftLeft => some "<<"
  | .stringConcat => some "||"
  | .atArrow => some "@>"
  | .arrowAt => some "<@"
  | .other => none

/-- The operator of `render_like_expr`. -/
def likeOperator (similarTo caseInsensitive negated : Bool) : String :=
  if similarTo then if negated then "NOT SIMILAR TO" else "SIMILAR TO"
  else if caseInsensitive then if negated then "NOT ILIKE" else "ILIKE"
  else if negated then "NOT LIKE" else "LIKE"

/-- The text of `render_like_expr`. The clause is inserted before the closing bracket. -/
def likeText (value operator pattern : String) (escapeChar : Option Char) : String :=
  "(" ++ value ++ " " ++ operator ++ " " ++ pattern ++
    (escapeChar.elim "" fun c => " ESCAPE " ++ renderStringLiteral (String.singleton c)) ++ ")"

/-- The suffix of `render_postfix_predicate`. -/
def testSuffix (negated : Bool) : Test → String
  | .null => if negated then "IS NOT NULL" else "IS NULL"
  | .true => if negated then "IS NOT TRUE" else "IS TRUE"
  | .false => if negated then "IS NOT FALSE" else "IS FALSE"
  | .unknown => if negated then "IS NOT UNKNOWN" else "IS UNKNOWN"

/-- `text_typmod_length_arg`: the length of a length, under a cast. -/
def textTypmodLengthArg : Expr → Option ℤ
  | .literal (.integer .int32 (some typmod)) _ => textTypmodLength typmod
  | .cast e dataType =>
    if dataType = .integer .int32 then (textTypmodLengthArg e).bind textTypmodLength else none
  | _ => none

/-- The functions that are rendered as a call: their name, the number of their arguments, and
the name in SQL. -/
def calls : List (String × ℕ × String) :=
  [("abs", 1, "abs"), ("acosh", 1, "acosh"), ("asinh", 1, "asinh"), ("atanh", 1, "atanh"),
    ("ceil", 1, "ceil"),
    ("lower", 1, "lower"), ("floor", 1, "floor"), ("cosh", 1, "cosh"), ("exp", 1, "exp"),
      ("ln", 1, "ln"),
    ("upper", 1, "upper"), ("trim", 1, "trim"), ("ltrim", 1, "ltrim"), ("rtrim", 1, "rtrim"),
      ("btrim", 1, "btrim"),
    ("length", 1, "char_length"), ("char_length", 1, "char_length"),
      ("pg_fusion_bpchar_length", 1, "length"),
    ("strpos", 2, "strpos"), ("nullif", 2, "nullif"), ("power", 2, "power"), ("round", 1, "round"),
    ("round", 2, "round"), ("sinh", 1, "sinh"), ("sqrt", 1, "sqrt"), ("tanh", 1, "tanh"),
      ("trunc", 1, "trunc"),
    ("trunc", 2, "trunc")]

/-- The call that a function is rendered as. -/
def callName (name : String) (arity : ℕ) : Option String :=
  (calls.find? fun call => call.1 = name ∧ call.2.1 = arity).map fun call => call.2.2

/-- The text of a call. -/
def callText (name : String) (args : List String) : String :=
  name ++ "(" ++ joinTexts ", " args ++ ")"

/-- The functions whose second argument is rendered as an `INTEGER`. -/
def scaleCall (name : String) : Option String :=
  if name = "pg_fusion_numeric_round_scale" then some "round"
  else if name = "pg_fusion_numeric_trunc_scale" then some "trunc"
  else none

/-- The functions that are rendered as a cast to a type with a length. -/
def lengthType (name : String) : Option String :=
  if name = "pg_fusion_varchar_typmod" then some "VARCHAR"
  else if name = "pg_fusion_bpchar_typmod" then some "CHARACTER"
  else none

/-- `to_ascii_lowercase`. -/
def asciiLowercase (name : String) : String := String.ofList (name.toList.map Char.toLower)

/-- The rendered expressions, if none of them is refused. -/
def allRendered (parts : List (Option RenderedExpr)) : Rendering (List RenderedExpr) :=
  if parts.any Option.isNone then refuse else pure (parts.filterMap id)

/-- The text of `render_scalar_function`, for the arguments and what is needed of the second. -/
def functionText (name : String) (args : List String) (scale : Rendering RenderedExpr)
    (length : Option ℤ) :
    Rendering String :=
  match callName name args.length with
  | some call => pure (callText call args)
  | none =>
    match args with
    | [value] => if name = "pg_fusion_bpchar_cmp_key" then pure value else otherText
    | [value, second] =>
      if name = "contains" then pure ("(strpos(" ++ value ++ ", " ++ second ++ ") > 0)")
      else
        match scaleCall name, lengthType name with
        | some call, _ => do
          let precision ← scale
          return callText call [value, precision.sql]
        | none, some type => do
          let length ← Rendering.ofOption length
          return castText value (type ++ "(" ++ toString length ++ ")")
        | none, none => otherText
    | _ => otherText
where
  /-- `concat` takes any number of arguments. -/
  otherText : Rendering String :=
    if name = "concat" ∧ args ≠ [] then pure (callText "concat" args) else refuse

/-! ### Expressions as SQL -/

mutual

/-- `render_expr`. -/
def renderExpr (target : Target) : Expr → Rendering RenderedExpr
  | .alias e _ => renderExpr target e
  | .column column => Rendering.ofExcept (renderColumn target column)
  | .literal value metadata => do
    let sql ← (renderLiteral value metadata : Rendering String)
    return .new sql
  -- `render_binary_expr`
  | .binaryExpr l op r => do
    let left ← renderExpr target l
    let right ← renderExpr target r
    let operator ← Rendering.ofOption (renderOperator op)
    return .merge ("(" ++ left.sql ++ " " ++ operator ++ " " ++ right.sql ++ ")") [left, right]
  -- `render_like_expr`
  | .like negated e p escapeChar caseInsensitive => do
    let value ← renderExpr target e
    let pattern ← renderExpr target p
    return .merge (likeText value.sql (likeOperator false caseInsensitive negated) pattern.sql
      escapeChar)
      [value, pattern]
  | .similarTo negated e p escapeChar caseInsensitive =>
    if caseInsensitive then refuse
    else do
      let value ← renderExpr target e
      let pattern ← renderExpr target p
      return .merge (likeText value.sql (likeOperator true false negated) pattern.sql escapeChar)
        [value, pattern]
  -- `render_unary_predicate`
  | .not e => do
    let inner ← renderExpr target e
    return .merge ("(NOT " ++ inner.sql ++ ")") [inner]
  | .negative e => do
    let inner ← renderExpr target e
    return .merge ("(-(" ++ inner.sql ++ "))") [inner]
  -- `render_postfix_predicate`
  | .test negated what e => do
    let inner ← renderExpr target e
    return .merge ("(" ++ inner.sql ++ " " ++ testSuffix negated what ++ ")") [inner]
  -- `render_between_expr`
  | .between e negated l h => do
    let value ← renderExpr target e
    let low ← renderExpr target l
    let high ← renderExpr target h
    return .merge ("(" ++ value.sql ++ (if negated then " NOT" else "") ++ " BETWEEN " ++ low.sql ++
      " AND " ++ high.sql ++ ")") [value, low, high]
  -- `render_case_expr`
  | .case b arms otherwise => do
    let base ← renderOption target b
    let whens ← renderArms target arms
    let last ← renderOption target otherwise
    return .merge ("(CASE" ++ ((base.map RenderedExpr.sql).elim "" fun base => " " ++ base) ++
      caseText (whens.map fun arm => (arm.1.sql, arm.2.sql)) (last.map RenderedExpr.sql) ++ ")")
      (base.toList ++ whens.flatMap (fun arm => [arm.1, arm.2]) ++ last.toList)
  -- `render_cast_expr`
  | .cast e dataType => do
    let inner ← renderExpr target e
    let type ← Rendering.ofOption (renderCastTarget dataType)
    return .merge (castText inner.sql type) [inner]
  | .tryCast _ _ => refuse
  -- `render_scalar_function`
  | .scalarFunction name args => do
    let rendered ← Rendering.ofExcept (renderAll target args)
    let parts ← allRendered rendered
    let sql ← functionText (asciiLowercase name) (parts.map RenderedExpr.sql)
      (renderScale target args)
      (args[1]?.bind textTypmodLengthArg)
    return .merge sql parts
  -- `render_in_list`
  | .inList e list negated =>
    if list.isEmpty then pure (.new (if negated then "(TRUE)" else "(FALSE)"))
    else do
      let value ← renderExpr target e
      let rendered ← Rendering.ofExcept (renderAll target list)
      let items ← allRendered rendered
      return .merge ("(" ++ value.sql ++ (if negated then " NOT" else "") ++ " IN (" ++
        joinTexts ", " (items.map RenderedExpr.sql) ++ "))") (value :: items)
  | .other _ => refuse

/-- All of the expressions: an error of a later one comes before the refusal of an earlier one. -/
def renderAll (target : Target) : List Expr → Except Failure (List (Option RenderedExpr))
  | [] => pure []
  | e :: es =>
    match renderExpr target e with
    | .error failure => .error failure
    | .ok part => do
      let parts ← renderAll target es
      return part :: parts

def renderOption (target : Target) : Option Expr → Rendering (Option RenderedExpr)
  | none => pure none
  | some e => do
    let part ← renderExpr target e
    return some part

def renderArms (target : Target) :
    List (Expr × Expr) → Rendering (List (RenderedExpr × RenderedExpr))
  | [] => pure []
  | (w, t) :: arms => do
    let condition ← renderExpr target w
    let result ← renderExpr target t
    let rest ← renderArms target arms
    return (condition, result) :: rest

/-- `render_numeric_scale_as_int4`, of the second argument. -/
def renderScale (target : Target) : List Expr → Rendering RenderedExpr
  | [_, .cast e dataType] => do
    let inner ← if dataType = .integer .int64 then renderExpr target e
      else renderExpr target (.cast e dataType)
    return .merge (castText inner.sql "INTEGER") [inner]
  | [_, e] => do
    let inner ← renderExpr target e
    return .merge (castText inner.sql "INTEGER") [inner]
  | _ => refuse

end

end PgFusion.ScanSql

import PgFusion.Sql.Lexer

/-!
The value expressions of PostgreSQL's grammar, with its operator precedence. What the parser does
not know (rows, subqueries, most type names) is an error, never another tree.
-/

namespace PgFusion.Sql

/-! ### Trees -/

/-- A type, as it is written: its words, and its modifiers with their signs. -/
structure TypeName where
  words : List String
  mods : List (Bool × String)
deriving DecidableEq

/-- The pattern operators. -/
inductive LikeKind where
  | like
  | ilike
  | similar
deriving DecidableEq

/-- The tree of an expression. Numbers stand as their digits. -/
inductive SqlExpr where
  | column (name : String)
  | number (digits : String)
  | string (text : String)
  | null
  | bool (value : Bool)
  | typed (type text : String)
  | cast (e : SqlExpr) (type : TypeName)
  | neg (e : SqlExpr)
  | not (e : SqlExpr)
  | binary (op : String) (left right : SqlExpr)
  | and (left right : SqlExpr)
  | or (left right : SqlExpr)
  | distinct (negated : Bool) (left right : SqlExpr)
  | test (negated : Bool) (what : String) (e : SqlExpr)
  | like (negated : Bool) (kind : LikeKind) (e pattern : SqlExpr) (escape : Option SqlExpr)
  | between (negated : Bool) (e low high : SqlExpr)
  | inList (negated : Bool) (e : SqlExpr) (items : List SqlExpr)
  | case (base : Option SqlExpr) (arms : List (SqlExpr × SqlExpr)) (otherwise : Option SqlExpr)
  | call (name : String) (args : List SqlExpr)

/-! ### Types -/

/-- Words that are no names here. -/
def reserved : List String :=
  ["and", "or", "not", "is", "null", "true", "false", "unknown", "case", "when", "then", "else",
    "end", "cast",
    "as", "like", "ilike", "similar", "to", "between", "in", "escape", "distinct", "from",
      "select", "where",
    "limit", "with", "without"]

/-- The modifiers of a type, up to the closing bracket. -/
def parseMods : List Token → Option (List (Bool × String) × List Token)
  | .number d :: .rparen :: rest => some ([(false, d)], rest)
  | .op "-" :: .number d :: .rparen :: rest => some ([(true, d)], rest)
  | .number d :: .comma :: rest => (parseMods rest).map fun p => ((false, d) :: p.1, p.2)
  | .op "-" :: .number d :: .comma :: rest => (parseMods rest).map fun p => ((true, d) :: p.1, p.2)
  | _ => none

/-- A type whose words have been read. -/
def parseTypeMods (words : List String) : List Token → Option (TypeName × List Token)
  | .lparen :: rest => (parseMods rest).map fun p => (⟨words, p.1⟩, p.2)
  | rest => some (⟨words, []⟩, rest)

/-- A type name. -/
def parseType : List Token → Option (TypeName × List Token)
  | .word "double" :: .word "precision" :: rest => some (⟨["double", "precision"], []⟩, rest)
  | .word "character" :: .word "varying" :: rest => parseTypeMods ["character", "varying"] rest
  | .word schema :: .dot :: .word name :: rest => parseTypeMods [schema, name] rest
  | .word name :: rest =>
    if name ∈ reserved ∨ name = "interval" then none
    else
      match rest with
      | .word "with" :: _ => none
      | .word "without" :: _ => none
      | .dot :: _ => none
      | _ => parseTypeMods [name] rest
  | _ => none

/-- The casts after an operand. -/
def parseCasts : ℕ → SqlExpr → List Token → Option (SqlExpr × List Token)
  | 0, _, _ => none
  | fuel + 1, e, .typecast :: rest => do
    let (type, rest) ← parseType rest
    parseCasts fuel (.cast e type) rest
  | _ + 1, e, rest => some (e, rest)

/-! ### Operators between operands -/

/-- What may follow an operand. -/
inductive Operator where
  | or
  | and
  | distinct (negated : Bool)
  | test (negated : Bool) (what : String)
  | comparison (op : String)
  | like (negated : Bool) (kind : LikeKind)
  | between (negated : Bool)
  | inList (negated : Bool)
  | op (op : String)
deriving DecidableEq

/-- The level of an operator by its text. -/
def opLevel (op : String) : ℕ :=
  if op = "+" ∨ op = "-" then 8 else if op = "*" ∨ op = "/" ∨ op = "%" then 9
  else if op = "^" then 10 else 7

/-- How tightly it binds. -/
def Operator.level : Operator → ℕ
  | .or => 1
  | .and => 2
  | .distinct _ => 4
  | .test _ _ => 4
  | .comparison _ => 5
  | .like _ _ => 6
  | .between _ => 6
  | .inList _ => 6
  | .op text => opLevel text

/-- The levels that may follow it: the same one only if it associates. -/
def Operator.next : Operator → ℕ
  | .or => 1
  | .and => 2
  | .op text => opLevel text
  | ix => ix.level - 1

def comparisons : List String := ["<", ">", "=", "<=", ">=", "<>", "!="]

/-- The operator at the front. `!=` is another text of `<>`. -/
def operatorOf : List Token → Option (Operator × List Token)
  | .word "or" :: rest => some (.or, rest)
  | .word "and" :: rest => some (.and, rest)
  | .word "is" :: .word "distinct" :: .word "from" :: rest => some (.distinct false, rest)
  | .word "is" :: .word "not" :: .word "distinct" :: .word "from" :: rest =>
    some (.distinct true, rest)
  | .word "is" :: .word "not" :: .word "null" :: rest => some (.test true "null", rest)
  | .word "is" :: .word "not" :: .word "true" :: rest => some (.test true "true", rest)
  | .word "is" :: .word "not" :: .word "false" :: rest => some (.test true "false", rest)
  | .word "is" :: .word "not" :: .word "unknown" :: rest => some (.test true "unknown", rest)
  | .word "is" :: .word "null" :: rest => some (.test false "null", rest)
  | .word "is" :: .word "true" :: rest => some (.test false "true", rest)
  | .word "is" :: .word "false" :: rest => some (.test false "false", rest)
  | .word "is" :: .word "unknown" :: rest => some (.test false "unknown", rest)
  | .word "like" :: rest => some (.like false .like, rest)
  | .word "ilike" :: rest => some (.like false .ilike, rest)
  | .word "similar" :: .word "to" :: rest => some (.like false .similar, rest)
  | .word "between" :: rest => some (.between false, rest)
  | .word "in" :: rest => some (.inList false, rest)
  | .word "not" :: .word "like" :: rest => some (.like true .like, rest)
  | .word "not" :: .word "ilike" :: rest => some (.like true .ilike, rest)
  | .word "not" :: .word "similar" :: .word "to" :: rest => some (.like true .similar, rest)
  | .word "not" :: .word "between" :: rest => some (.between true, rest)
  | .word "not" :: .word "in" :: rest => some (.inList true, rest)
  | .op op :: rest =>
    if op ∈ comparisons then some (.comparison (if op = "!=" then "<>" else op), rest)
    else some (.op op, rest)
  | _ => none

lemma operatorOf_op (op : String) (rest : List Token) :
    operatorOf (.op op :: rest) =
      if op ∈ comparisons then some (.comparison (if op = "!=" then "<>" else op), rest)
      else some (.op op, rest) := rfl

/-! ### Expressions -/

mutual

/-- An operand with the signs, `NOT` and casts that belong to it. -/
def parseOperand : ℕ → List Token → Option (SqlExpr × List Token)
  | 0, _ => none
  | fuel + 1, .word "not" :: rest => do
    let (e, rest) ← parseExpr fuel 4 rest
    return (.not e, rest)
  | fuel + 1, .op "-" :: rest => do
    let (e, rest) ← parseOperand fuel rest
    return (.neg e, rest)
  | fuel + 1, tokens => do
    let (e, rest) ← parsePrimary fuel tokens
    parseCasts fuel e rest

/-- An expression whose operators have the level `low` at least. -/
def parseExpr : ℕ → ℕ → List Token → Option (SqlExpr × List Token)
  | 0, _, _ => none
  | fuel + 1, low, tokens => do
    let (e, rest) ← parseOperand fuel tokens
    climb fuel low 10 e rest

/-- The operators after an operand, of the levels from `low` to `high`. -/
def climb : ℕ → ℕ → ℕ → SqlExpr → List Token → Option (SqlExpr × List Token)
  | 0, _, _, _, _ => none
  | fuel + 1, low, high, left, tokens =>
    match operatorOf tokens with
    | none => some (left, tokens)
    | some (ix, rest) =>
      if ix.level < low ∨ high < ix.level then some (left, tokens)
      else do
        let (e, rest) ← parseRight fuel ix left rest
        climb fuel low ix.next e rest

/-- What belongs to an operator on its right. -/
def parseRight : ℕ → Operator → SqlExpr → List Token → Option (SqlExpr × List Token)
  | 0, _, _, _ => none
  | fuel + 1, .or, left, tokens => do
    let (right, rest) ← parseExpr fuel 2 tokens
    return (.or left right, rest)
  | fuel + 1, .and, left, tokens => do
    let (right, rest) ← parseExpr fuel 3 tokens
    return (.and left right, rest)
  | fuel + 1, .distinct negated, left, tokens => do
    let (right, rest) ← parseExpr fuel 5 tokens
    return (.distinct negated left right, rest)
  | _ + 1, .test negated what, left, tokens => some (.test negated what left, tokens)
  | fuel + 1, .comparison op, left, tokens => do
    let (right, rest) ← parseExpr fuel 6 tokens
    return (.binary op left right, rest)
  | fuel + 1, .op op, left, tokens => do
    let (right, rest) ← parseExpr fuel (opLevel op + 1) tokens
    return (.binary op left right, rest)
  | fuel + 1, .like negated kind, left, tokens => do
    let (pattern, rest) ← parseExpr fuel 7 tokens
    match rest with
    | .word "escape" :: rest => do
      let (escape, rest) ← parseExpr fuel 7 rest
      return (.like negated kind left pattern (some escape), rest)
    | _ => return (.like negated kind left pattern none, rest)
  | fuel + 1, .between negated, left, tokens => do
    let (low, rest) ← parseExpr fuel 7 tokens
    match rest with
    | .word "and" :: rest => do
      let (high, rest) ← parseExpr fuel 7 rest
      return (.between negated left low high, rest)
    | _ => none
  | fuel + 1, .inList negated, left, tokens =>
    match tokens with
    | .lparen :: rest => do
      let (items, rest) ← parseItems fuel rest
      return (.inList negated left items, rest)
    | _ => none

/-- An operand without signs and casts. -/
def parsePrimary : ℕ → List Token → Option (SqlExpr × List Token)
  | 0, _ => none
  | _ + 1, .number digits :: rest => some (.number digits, rest)
  | _ + 1, .string text :: rest => some (.string text, rest)
  | _ + 1, .quoted name :: rest =>
    match rest with
    | .lparen :: _ => none
    | .dot :: _ => none
    | _ => some (.column name, rest)
  | fuel + 1, .lparen :: rest => do
    let (e, rest) ← parseExpr fuel 1 rest
    match rest with
    | .rparen :: rest => return (e, rest)
    | _ => none
  | _ + 1, .word "null" :: rest => some (.null, rest)
  | _ + 1, .word "true" :: rest => some (.bool true, rest)
  | _ + 1, .word "false" :: rest => some (.bool false, rest)
  | fuel + 1, .word "cast" :: .lparen :: rest => do
    let (e, rest) ← parseExpr fuel 1 rest
    match rest with
    | .word "as" :: rest => do
      let (type, rest) ← parseType rest
      match rest with
      | .rparen :: rest => return (.cast e type, rest)
      | _ => none
    | _ => none
  | fuel + 1, .word "case" :: rest =>
    if rest.head? = some (.word "when") then do
      let (arms, otherwise, rest) ← parseArms fuel rest.tail
      return (.case none arms otherwise, rest)
    else do
      let (base, rest) ← parseExpr fuel 1 rest
      match rest with
      | .word "when" :: rest => do
        let (arms, otherwise, rest) ← parseArms fuel rest
        return (.case (some base) arms otherwise, rest)
      | _ => none
  | _ + 1, .word "date" :: .string text :: rest => some (.typed "date" text, rest)
  | _ + 1, .word "time" :: .string text :: rest => some (.typed "time" text, rest)
  | _ + 1, .word "timestamp" :: .string text :: rest => some (.typed "timestamp" text, rest)
  | _ + 1, .word "interval" :: .string text :: rest =>
    match rest with
    | .word field :: _ =>
      if field ∈ ["year", "month", "day", "hour", "minute", "second"] then none
      else some (.typed "interval" text, rest)
    | _ => some (.typed "interval" text, rest)
  | fuel + 1, .word name :: rest =>
    if name ∈ reserved then none
    else
      match rest with
      | .lparen :: .rparen :: rest => some (.call name [], rest)
      | .lparen :: rest => do
        let (args, rest) ← parseItems fuel rest
        return (.call name args, rest)
      | .dot :: _ => none
      | .string _ :: _ => none
      | _ => some (.column name, rest)
  | _, _ => none

/-- Expressions between commas, up to the closing bracket. -/
def parseItems : ℕ → List Token → Option (List SqlExpr × List Token)
  | 0, _ => none
  | fuel + 1, tokens => do
    let (e, rest) ← parseExpr fuel 1 tokens
    match rest with
    | .comma :: rest => do
      let (items, rest) ← parseItems fuel rest
      return (e :: items, rest)
    | .rparen :: rest => return ([e], rest)
    | _ => none

/-- The arms of a `CASE` after the first `WHEN`, up to `END`. -/
def parseArms : ℕ → List Token → Option (List (SqlExpr × SqlExpr) × Option SqlExpr × List Token)
  | 0, _ => none
  | fuel + 1, tokens => do
    let (condition, rest) ← parseExpr fuel 1 tokens
    match rest with
    | .word "then" :: rest => do
      let (result, rest) ← parseExpr fuel 1 rest
      match rest with
      | .word "when" :: rest => do
        let (arms, otherwise, rest) ← parseArms fuel rest
        return ((condition, result) :: arms, otherwise, rest)
      | .word "else" :: rest => do
        let (otherwise, rest) ← parseExpr fuel 1 rest
        match rest with
        | .word "end" :: rest => return ([(condition, result)], some otherwise, rest)
        | _ => none
      | .word "end" :: rest => return ([(condition, result)], none, rest)
      | _ => none
    | _ => none

end

/-- The tree of a text. -/
def parse (fuel : ℕ) (text : List Char) : Option SqlExpr := do
  let tokens ← lex text
  match parseExpr fuel 1 tokens with
  | some (e, []) => some e
  | _ => none

lemma parse_eq_some {fuel : ℕ} {text : List Char} {tokens : List Token} {e : SqlExpr}
    (hlex : lex text = some tokens) (h : parseExpr fuel 1 tokens = some (e, [])) :
    parse fuel text = some e := by
  rw [parse, hlex, Option.bind_eq_bind, Option.bind_some, h]

/-! ### One step of the parser -/

lemma parseExpr_succ (fuel low : ℕ) (tokens : List Token) :
    parseExpr (fuel + 1) low tokens = (parseOperand fuel tokens).bind fun p =>
      climb fuel low 10 p.1 p.2 := rfl

lemma climb_succ (fuel low high : ℕ) (left : SqlExpr) (tokens : List Token) :
    climb (fuel + 1) low high left tokens = match operatorOf tokens with
      | none => some (left, tokens)
      | some (ix, rest) =>
        if ix.level < low ∨ high < ix.level then some (left, tokens)
        else (parseRight fuel ix left rest).bind fun p => climb fuel low ix.next p.1 p.2 := rfl

lemma climb_of_operator {tokens rest : List Token} {ix : Operator}
    (h : operatorOf tokens = some (ix, rest))
    {low high : ℕ} (hlevel : low ≤ ix.level ∧ ix.level ≤ high) (fuel : ℕ) (left : SqlExpr) :
    climb (fuel + 1) low high left tokens =
      (parseRight fuel ix left rest).bind fun p => climb fuel low ix.next p.1 p.2 := by
  rw [climb_succ, h]
  dsimp only
  rw [if_neg (by omega)]

lemma climb_of_level {tokens : List Token} {low : ℕ}
    (h : ∀ ix rest, operatorOf tokens = some (ix, rest) → ix.level < low) (fuel high : ℕ)
    (left : SqlExpr) :
    climb (fuel + 1) low high left tokens = some (left, tokens) := by
  rw [climb_succ]
  cases hix : operatorOf tokens with
  | none => rfl
  | some p => exact if_pos (Or.inl (h p.1 p.2 hix))

lemma parseRight_and (fuel : ℕ) (left : SqlExpr) (tokens : List Token) :
    parseRight (fuel + 1) .and left tokens = (parseExpr fuel 3 tokens).bind fun p =>
      some (.and left p.1, p.2) := rfl

lemma parseRight_comparison (fuel : ℕ) (op : String) (left : SqlExpr) (tokens : List Token) :
    parseRight (fuel + 1) (.comparison op) left tokens =
      (parseExpr fuel 6 tokens).bind fun p => some (.binary op left p.1, p.2) := rfl

end PgFusion.Sql

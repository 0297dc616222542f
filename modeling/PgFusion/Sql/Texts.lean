import PgFusion.Sql.Rules

/-!
Texts that are read as an expression wherever they stand.
-/

namespace PgFusion.Sql

/-! ### Texts as expressions -/

/-- Before a delimiter, the text is this operand. -/
def Reads (text : String) (e : SqlExpr) : Prop :=
  ∃ tokens, Lexes text.toList tokens ∧ Tight tokens e

/-- A text between two others, with a delimiter at its start. -/
structure Between (text : String) (tokens : List Token) : Prop where
  lexes : LexesAll text.toList tokens
  delim : ∀ rest, delim (text.toList ++ rest) = true

variable {a b : String} {l r e : SqlExpr}

/-! ### Constants, names and casts -/

/-- A text between quotes, with its quotes doubled. -/
def quoted (quote : Char) (text : String) : String :=
  String.singleton quote ++ String.ofList (escape quote text.toList) ++ String.singleton quote

lemma quoted_toList (quote : Char) (text : String) :
    (quoted quote text).toList = quote :: (escape quote text.toList ++ [quote]) := by
  rw [quoted, String.toList_append, String.toList_append, String.toList_singleton,
    String.toList_ofList]
  rfl

/-- A cast of a string to a type of one word. -/
lemma reads_string_cast {text type : String} (htext : nul ∉ text.toList)
    (hword : Lexes type.toList [.word type])
    (htype : type ∉ reserved ∧ type ≠ "interval" ∧ type ≠ "double" ∧ type ≠ "character") :
    Reads (quoted '\'' text ++ "::" ++ type) (.cast (.string text) ⟨[type], []⟩) := by
  have hlex := (lexesAll_string_cast htext).append_lexes hword
  have htight := Primary.typecast (fun _ => rfl) (primary_string text) htype
  refine ⟨_, ?_, htight⟩
  rw [String.ofList_toList] at hlex
  simpa [quoted_toList] using hlex

/-! ### Lists of expressions -/

/-- Texts with a separator between them. -/
def joinTexts (separator : String) : List String → String
  | [] => ""
  | [text] => text
  | text :: next :: texts => text ++ separator ++ joinTexts separator (next :: texts)

/-! ### Case -/

/-- The arms of a `CASE`, its `ELSE` and its end. -/
def caseText : List (String × String) → Option String → String
  | [], none => " END"
  | [], some otherwise => " ELSE " ++ otherwise ++ " END"
  | (condition, result) :: arms, otherwise =>
    " WHEN " ++ condition ++ " THEN " ++ result ++ caseText arms otherwise

/-! ### Texts on their own -/

/-- The tree of a conjunction. -/
def conjunction : List SqlExpr → Option SqlExpr
  | [] => none
  | e :: es => some (es.foldl .and e)

/-- Before a delimiter, the text is this operand of `AND`. -/
def ReadsConjunct (text : String) (e : SqlExpr) : Prop :=
  ∃ tokens, Lexes text.toList tokens ∧ Conjunct tokens e

/-- A comparison of two operands. -/
lemma ReadsConjunct.comparison {op : String} (htext : Between (" " ++ op ++ " ") [.op op])
    (hop : op ∈ comparisons) (hne : op ≠ "!=") (hl : Reads a l) (hr : Reads b r) :
    ReadsConjunct (a ++ (" " ++ op ++ " ") ++ b) (.binary op l r) := by
  obtain ⟨ls, hls, htl⟩ := hl
  obtain ⟨rs, hrs, htr⟩ := hr
  refine ⟨_, ?_, Conjunct.comparison op hop hne htl htr⟩
  rw [String.toList_append, String.toList_append, ← List.singleton_append, ← List.append_assoc ls]
  exact (hls.append_all htext.lexes htext.delim).append_lexes hrs

/-- Texts with `AND` between them. -/
lemma lexes_conjunction {text : String} {texts : List String} {es : List SqlExpr}
    {tokens : List Token}
    (h : List.Forall₂ ReadsConjunct texts es) (hlex : Lexes text.toList tokens) :
    ∃ more, Lexes (joinTexts " AND " (text :: texts)).toList (tokens ++ more.flatMap fun ts =>
      .word "and" :: ts) ∧ List.Forall₂ Conjunct more es := by
  have hand : Between " AND " [.word "and"] := ⟨fun _ _ => rfl, fun _ => rfl⟩
  induction h generalizing text tokens with
  | nil =>
    refine ⟨[], ?_, .nil⟩
    rw [List.flatMap_nil, List.append_nil]
    exact hlex
  | @cons next e texts es hread _ ih =>
    obtain ⟨ts, hts, hconjunct⟩ := hread
    obtain ⟨more, hmore, hconjuncts⟩ := ih hts
    refine ⟨ts :: more, ?_, .cons hconjunct hconjuncts⟩
    have hall := (hlex.append_all hand.lexes hand.delim).append_lexes hmore
    rw [List.append_assoc tokens, List.singleton_append] at hall
    rw [joinTexts, String.toList_append, String.toList_append]
    exact hall

lemma parse_conjunction {texts : List String} {es : List SqlExpr}
    (h : List.Forall₂ ReadsConjunct texts es) (hne : texts ≠ []) :
    Enough fun fuel => parse fuel (joinTexts " AND " texts).toList = conjunction es := by
  cases h with
  | nil => exact absurd rfl hne
  | @cons text e texts es hread hreads =>
    obtain ⟨tokens, hlex, hconjunct⟩ := hread
    obtain ⟨more, hmore, hconjuncts⟩ := lexes_conjunction hreads hlex
    refine (enough_conjunction hconjunct hconjuncts).imp fun fuel hp => ?_
    exact parse_eq_some hmore.lex_eq hp

end PgFusion.Sql

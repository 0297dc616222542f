import Mathlib.Tactic
import PgFusion.Sql.Lexer

/-!
The quoting of `format()` and `quote_literal` (`df_functions`: `pg_format.rs`), and how PostgreSQL
reads it.

* `lexFragment_quoteLiteral`: a literal is read as its value;
* `readsIdentifier_iff`: so is an identifier, unless it is empty or a keyword;
* `fragments_read_back`: both.
-/

namespace PgFusion.PgFormat

open Sql

/-! ### The source -/

/-- The type letters of a specifier. -/
inductive Conversion where
  | s
  | I
  | L
deriving DecidableEq

/-- `is_safe_identifier`. -/
def isSafeIdentifier : List Char → Bool
  | [] => false
  | first :: rest =>
    (first == '_' || first.isLower) && rest.all fun ch => ch == '_' || ch.isLower || ch.isDigit

/-- `quote_identifier`. -/
def quoteIdentifier (value : List Char) : List Char :=
  if isSafeIdentifier value then value
  else '"' :: (value.flatMap (fun ch => if ch = '"' then ['"', ch] else [ch]) ++ ['"'])

/-- `quote_literal`. -/
def quoteLiteral (value : List Char) : List Char :=
  (if '\\' ∈ value then ['E'] else []) ++
    '\'' :: (value.flatMap (fun ch => if ch = '\'' ∨ ch = '\\' then [ch, ch] else [ch]) ++ ['\''])

/-- `convert_value`. -/
def convertValue : Conversion → Option (List Char) → Except String (List Char)
  | .s, none => .ok []
  | .L, none => .ok "NULL".toList
  | .I, none => .error "null values cannot be formatted as an SQL identifier"
  | .s, some value => .ok value
  | .I, some value => .ok (quoteIdentifier value)
  | .L, some value => .ok (quoteLiteral value)

/-! ### PostgreSQL -/

/-- The character after a backslash in an escape string; numbers of characters are not read here. -/
def unescape (c : Char) : Option Char :=
  if c = 'b' then some '\x08'
  else if c = 'f' then some '\x0c'
  else if c = 'n' then some '\n'
  else if c = 'r' then some '\r'
  else if c = 't' then some '\t'
  else if c = 'v' then some '\x0b'
  else if "01234567xuU".toList.contains c then none
  else some c

/-- An escape string after its opening quote: its text, and what follows the closing quote. -/
def escapeString (read : List Char) : List Char → Option (List Char × List Char)
  | [] => none
  | c :: rest =>
    if c = nul then none
    else if c = '\\' then
      match rest with
      | [] => none
      | d :: rest => (unescape d).bind fun e => escapeString (read ++ [e]) rest
    else if c = '\'' then
      match rest with
      | [] => some (read, [])
      | d :: rest => if d = '\'' then escapeString (read ++ [d]) rest else some (read, d :: rest)
    else escapeString (read ++ [c]) rest

/-- The tokens of a text, which may be an escape string; what follows such a string is not read
here. -/
def lexFragment : List Char → Option (List Token)
  | c :: q :: rest =>
    if (c = 'E' ∨ c = 'e') ∧ q = '\'' then
      match escapeString [] rest with
      | some (text, []) => some [.string (String.ofList text)]
      | _ => none
    else lex (c :: q :: rest)
  | text => lex text

/-- The keywords of PostgreSQL 17 other than the unreserved ones: `RESERVED_KEYWORD`,
`COL_NAME_KEYWORD` and `TYPE_FUNC_NAME_KEYWORD`. -/
def restrictedKeywords : List String :=
  ["all", "analyse", "analyze", "and", "any", "array", "as", "asc", "asymmetric", "both",
    "case", "cast",
    "check", "collate", "column", "constraint", "create", "current_catalog", "current_date",
    "current_role", "current_time", "current_timestamp", "current_user", "default",
      "deferrable", "desc",
    "distinct", "do", "else", "end", "except", "false", "fetch", "for", "foreign", "from", "grant",
    "group", "having", "in", "initially", "intersect", "into", "lateral", "leading", "limit",
      "localtime",
    "localtimestamp", "not", "null", "offset", "on", "only", "or", "order", "placing", "primary",
    "references", "returning", "select", "session_user", "some", "symmetric",
      "system_user", "table",
    "then", "to", "trailing", "true", "union", "unique", "user", "using", "variadic",
      "when", "where",
    "window", "with",
    "between", "bigint", "bit", "boolean", "char", "character", "coalesce", "dec",
      "decimal", "exists",
    "extract", "float", "greatest", "grouping", "inout", "int", "integer", "interval", "json",
    "json_array", "json_arrayagg", "json_exists", "json_object", "json_objectagg", "json_query",
    "json_scalar", "json_serialize", "json_table", "json_value", "least", "merge_action",
      "national",
    "nchar", "none", "normalize", "nullif", "numeric", "out", "overlay", "position",
      "precision", "real",
    "row", "setof", "smallint", "substring", "time", "timestamp", "treat", "trim", "values",
      "varchar",
    "xmlattributes", "xmlconcat", "xmlelement", "xmlexists", "xmlforest", "xmlnamespaces",
      "xmlparse",
    "xmlpi", "xmlroot", "xmlserialize", "xmltable",
    "authorization", "binary", "collation", "concurrently", "cross", "current_schema",
      "freeze", "full",
    "ilike", "inner", "is", "isnull", "join", "left", "like", "natural", "notnull", "outer",
      "overlaps",
    "right", "similar", "tablesample", "verbose"]

/-- The text is read as one identifier with this name. -/
def ReadsIdentifier (text name : List Char) : Prop :=
  lexFragment text = some [.quoted (String.ofList name)] ∨
    lexFragment text = some [.word (String.ofList name)] ∧ String.ofList name ∉ restrictedKeywords

/-! ### Literals -/

lemma lexFragment_eq_lex {c : Char} (h : c ≠ 'E' ∧ c ≠ 'e') (rest : List Char) :
    lexFragment (c :: rest) = lex (c :: rest) := by
  cases rest with
  | nil => rfl
  | cons q rest =>
    rw [lexFragment, if_neg]
    rintro ⟨hc | hc, -⟩
    · exact h.1 hc
    · exact h.2 hc

variable {value : List Char}

/-- Doubled quotes and backslashes are read back. -/
lemma escapeString_double (hnul : nul ∉ value) (read : List Char) :
    escapeString read (value.flatMap (fun ch => if ch = '\'' ∨ ch = '\\' then [ch, ch] else [ch]) ++
      ['\'']) = some (read ++ value, []) := by
  induction value generalizing read with
  | nil => rw [List.append_nil]; rfl
  | cons c value ih =>
    rw [List.mem_cons, not_or] at hnul
    have hnext := ih hnul.2 (read ++ [c])
    rw [List.append_assoc, List.singleton_append] at hnext
    rw [List.flatMap_cons, List.append_assoc, ← hnext]
    split_ifs with hc
    · rcases hc with rfl | rfl
      · rfl
      · rfl
    · rw [not_or] at hc
      rw [List.singleton_append, escapeString.eq_def]
      dsimp only
      rw [if_neg (Ne.symm hnul.1), if_neg hc.2, if_neg hc.1]

/-- **A literal is read as a string with its text.** -/
lemma lexFragment_quoteLiteral (hnul : nul ∉ value) :
    lexFragment (quoteLiteral value) = some [.string (String.ofList value)] := by
  rw [quoteLiteral]
  by_cases hslash : '\\' ∈ value
  · rw [if_pos hslash, List.singleton_append, lexFragment, if_pos ⟨Or.inl rfl, rfl⟩,
      escapeString_double hnul, List.nil_append]
  · -- without a backslash it is an ordinary string
    have hescape : value.flatMap (fun ch => if ch = '\'' ∨ ch = '\\' then [ch, ch] else [ch]) =
        escape '\'' value := by
      refine List.flatMap_congr fun ch hch => ?_
      have hne : ch ≠ '\\' := fun heq => hslash (heq ▸ hch)
      by_cases hquote : ch = '\''
      · rw [if_pos (Or.inl hquote), if_pos hquote, hquote]
      · rw [if_neg (not_or.mpr ⟨hquote, hne⟩), if_neg hquote]
    rw [if_neg hslash, List.nil_append, lexFragment_eq_lex (by decide), hescape]
    exact (lexes_string hnul).lex_eq

/-! ### Identifiers -/

lemma isAlpha_of_isLower {c : Char} (h : c.isLower = true) : c.isAlpha = true :=
  Bool.or_eq_true_iff.mpr (.inr h)

/-- The characters of a word are told from all others by their code. -/
lemma lower_ne {c : Char} (h : c = '_' ∨ c.isLower = true) {d : Char}
    (hd : d ≠ '_' ∧ d.isLower = false) :
    c ≠ d := by
  rintro rfl
  rcases h with rfl | h
  · exact hd.1 rfl
  · rw [hd.2] at h
    cases h

lemma enter_lower {c : Char} (h : c = '_' ∨ c.isLower = true) : enter c = some ([], .word [c]) := by
  have hne : ∀ d : Char, d ≠ '_' ∧ d.isLower = false → c ≠ d := fun d => lower_ne h
  have hspace : isSpace c = false := by
    simp [isSpace, isNewline, hne ' ', hne '\t', hne '\x0b', hne '\x0c', hne '\n', hne '\r']
  have hdigit : c.isDigit = false := by
    rcases h with rfl | h
    · rfl
    · rw [Bool.eq_false_iff]
      intro hd
      exact absurd (UInt32.le_trans (isLower_bounds h).1 (isDigit_bounds hd).2) (by decide)
  have hstart : isIdentStart c = true := by
    rcases h with rfl | h
    · rfl
    · rw [isIdentStart, isAlpha_of_isLower h, Bool.true_or, Bool.true_or]
  rw [enter, hspace, hdigit, if_neg Bool.false_ne_true, if_neg (hne '(' (by decide)),
    if_neg (hne ')' (by decide)), if_neg (hne ',' (by decide)), if_neg (hne '.' (by decide)),
    if_neg (hne ':' (by decide)), if_neg (hne '\'' (by decide)), if_neg (hne '"' (by decide)),
    if_neg Bool.false_ne_true, if_pos hstart]

/-- The first character of a safe name, and the others. -/
lemma safe_parts (h : isSafeIdentifier value = true) :
    ∃ c cs, value = c :: cs ∧ (c = '_' ∨ c.isLower = true) ∧
      ∀ d ∈ cs, (d = '_' ∨ d.isLower = true) ∨ d.isDigit = true := by
  cases value with
  | nil => cases h
  | cons c cs =>
    simp only [isSafeIdentifier, Bool.and_eq_true, Bool.or_eq_true, beq_iff_eq,
      List.all_eq_true] at h
    exact ⟨c, cs, rfl, h.1, h.2⟩

lemma toLower_of_safe {c : Char} (h : (c = '_' ∨ c.isLower = true) ∨ c.isDigit = true) :
    c.toLower = c := by
  rcases h with (rfl | h) | h
  · rfl
  · exact toLower_eq_self fun hupper =>
      absurd (UInt32.le_trans (isLower_bounds h).1 hupper.2) (by decide)
  · exact toLower_of_isDigit h

/-- A safe name is read as a word, any other as a quoted name. -/
lemma lexFragment_quoteIdentifier (hnul : nul ∉ value) (hne : value ≠ []) :
    lexFragment (quoteIdentifier value) = some [if isSafeIdentifier value then
      .word (String.ofList value)
      else .quoted (String.ofList value)] := by
  rw [quoteIdentifier]
  split_ifs with hsafe
  · obtain ⟨c, cs, rfl, hc, hcs⟩ := safe_parts hsafe
    have hcont : ∀ d ∈ cs, isIdentCont d = true := by
      intro d hd
      rw [isIdentCont, isIdentStart]
      rcases hcs d hd with (rfl | h) | h
      · rfl
      · rw [isAlpha_of_isLower h, Bool.true_or, Bool.true_or, Bool.true_or, Bool.true_or]
      · rw [h, Bool.or_true, Bool.true_or]
    have hlower : downcase (c :: cs) = String.ofList (c :: cs) := by
      rw [downcase, List.map_cons, toLower_of_safe (Or.inl hc),
        List.map_congr_left fun d hd => toLower_of_safe (hcs d hd), List.map_id']
    have hword := (lexes_word (enter_lower hc) hcont).lex_eq
    rw [hlower] at hword
    rw [← hword]
    -- a quote does not follow the first character
    cases cs with
    | nil => rfl
    | cons q cs =>
      have hq : q ≠ '\'' := by
        rintro rfl
        rcases hcs _ (List.mem_cons_self ..) with (h | h) | h <;> cases h
      rw [lexFragment, if_neg fun h => hq h.2]
  · have hescape : value.flatMap (fun ch => if ch = '"' then ['"', ch] else [ch]) =
      escape '"' value := by
      refine List.flatMap_congr fun ch _ => ?_
      by_cases hquote : ch = '"'
      · rw [if_pos hquote, if_pos hquote, hquote]
      · rw [if_neg hquote, if_neg hquote]
    rw [lexFragment_eq_lex (by decide), hescape]
    exact (lexes_quoted hne hnul).lex_eq

/-- The empty text has no identifier. -/
lemma lexFragment_quoteIdentifier_nil : lexFragment (quoteIdentifier []) = none := by
  decide +kernel

/-- The keywords are plain words. -/
lemma safe_of_restricted (h : String.ofList value ∈ restrictedKeywords) :
    isSafeIdentifier value = true := by
  have hall : ∀ word ∈ restrictedKeywords, isSafeIdentifier word.toList = true := by decide +kernel
  simpa using hall _ h

/-- **What `%I` gives is read as the identifier** if and only if the text is neither empty nor a
restricted keyword. -/
lemma readsIdentifier_iff (hnul : nul ∉ value) :
    ReadsIdentifier (quoteIdentifier value) value ↔
      value ≠ [] ∧ String.ofList value ∉ restrictedKeywords := by
  by_cases hne : value = []
  · rw [hne, ReadsIdentifier, lexFragment_quoteIdentifier_nil]
    simp
  · rw [ReadsIdentifier, lexFragment_quoteIdentifier hnul hne]
    cases hsafe : isSafeIdentifier value with
    | true => simp [hne]
    | false =>
      have hkey : String.ofList value ∉ restrictedKeywords := fun h =>
        Bool.false_ne_true (hsafe.symm.trans (safe_of_restricted h))
      simp [hne, hkey]

lemma quoteIdentifier_injective {v w : List Char} (hv : nul ∉ v) (hw : nul ∉ w)
    (heq : quoteIdentifier v = quoteIdentifier w) : v = w := by
  by_cases hvne : v = [] <;> by_cases hwne : w = []
  · rw [hvne, hwne]
  · have hread := lexFragment_quoteIdentifier hw hwne
    rw [← heq, hvne, lexFragment_quoteIdentifier_nil] at hread
    cases hread
  · have hread := lexFragment_quoteIdentifier hv hvne
    rw [heq, hwne, lexFragment_quoteIdentifier_nil] at hread
    cases hread
  · have hread := lexFragment_quoteIdentifier hv hvne
    rw [heq, lexFragment_quoteIdentifier hw hwne] at hread
    injection hread with hread
    injection hread with hread
    split_ifs at hread <;> injection hread with hread <;> exact (String.ofList_injective hread).symm

/-! ### Fragments -/

/-- **Quoted fragments cannot break out**: `%L` and `quote_literal` give one string with the text;
`%I` gives one identifier with the name if and only if the text is neither empty nor a restricted
keyword, quoted unless it is a plain word; and different texts give different fragments. -/
theorem fragments_read_back (v w : List Char) (hv : nul ∉ v) (hw : nul ∉ w) :
    (convertValue .L (some v) = .ok (quoteLiteral v) ∧
      lexFragment (quoteLiteral v) = some [.string (String.ofList v)]) ∧
    (convertValue .I (some v) = .ok (quoteIdentifier v) ∧
      (ReadsIdentifier (quoteIdentifier v) v ↔ v ≠ [] ∧ String.ofList v ∉ restrictedKeywords) ∧
      (v ≠ [] → lexFragment (quoteIdentifier v) = some [.quoted (String.ofList v)] ∨
        quoteIdentifier v = v ∧ isSafeIdentifier v = true)) ∧
    (quoteLiteral v = quoteLiteral w → v = w) ∧ (quoteIdentifier v = quoteIdentifier w →
      v = w) := by
  refine ⟨⟨rfl, lexFragment_quoteLiteral hv⟩, ⟨rfl, readsIdentifier_iff hv, fun hne => ?_⟩,
    fun heq => ?_, quoteIdentifier_injective hv hw⟩
  · have hread := lexFragment_quoteIdentifier hv hne
    cases hsafe : isSafeIdentifier v with
    | true => exact Or.inr ⟨by rw [quoteIdentifier, if_pos hsafe], rfl⟩
    | false =>
      rw [hsafe] at hread
      exact Or.inl hread
  · have hread := lexFragment_quoteLiteral hv
    rw [heq, lexFragment_quoteLiteral hw] at hread
    injection hread with hread
    injection hread with hread
    injection hread with hread
    exact (String.ofList_injective hread).symm

/-- A text with a quote and a backslash, and a plain word. -/
theorem fragments_read_back_sample :
    lexFragment (quoteLiteral "it's \\ 5".toList) = some [.string "it's \\ 5"] ∧
      ReadsIdentifier (quoteIdentifier "it's \\ 5".toList) "it's \\ 5".toList ∧
      ReadsIdentifier (quoteIdentifier "mytab".toList) "mytab".toList := by
  obtain ⟨⟨-, hliteral⟩, ⟨-, hidentifier, -⟩, -⟩ :=
    fragments_read_back "it's \\ 5".toList "mytab".toList (by decide) (by decide)
  obtain ⟨-, ⟨-, hword, -⟩, -⟩ :=
    fragments_read_back "mytab".toList "mytab".toList (by decide) (by decide)
  exact ⟨hliteral, hidentifier.mpr ⟨by decide, by decide +kernel⟩,
    hword.mpr ⟨by decide, by decide +kernel⟩⟩

/-- A reserved word is not quoted, so that it is no identifier; and the empty text has no
identifier. -/
theorem fragments_break_out :
    convertValue .I (some "select".toList) = .ok "select".toList ∧
      ¬ ReadsIdentifier "select".toList "select".toList ∧
      convertValue .I (some []) = .ok "\"\"".toList ∧ lexFragment "\"\"".toList = none := by
  refine ⟨by decide +kernel, ?_, by decide +kernel, by decide +kernel⟩
  rintro (hread | ⟨-, hkey⟩)
  · revert hread
    decide +kernel
  · revert hkey
    decide +kernel

end PgFusion.PgFormat

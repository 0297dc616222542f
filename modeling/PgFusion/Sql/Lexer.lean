import Mathlib.Data.Int.Notation
import Mathlib.Data.List.Basic

/-!
The tokens of PostgreSQL's SQL, with `standard_conforming_strings` on. A form that the scanner does
not know (dollar quoting, fractions, string prefixes) is an error.
-/

namespace PgFusion.Sql

/-- What is asked of every character of a text is decided along the text, not over all
characters there are. -/
instance (priority := 2000) decidableAllChars (p : Char → Prop) [DecidablePred p] (cs : List Char) :
    Decidable (∀ c ∈ cs, p c) :=
  List.decidableBAll p cs

/-! ### The machine -/

/-- A token. A word is a keyword or a name that is not quoted, in lower case. -/
inductive Token where
  | word (name : String)
  | quoted (name : String)
  | string (text : String)
  | number (digits : String)
  | op (text : String)
  | typecast
  | lparen
  | rparen
  | comma
  | dot
deriving DecidableEq

/-- What has been read of the token that is not yet finished. -/
inductive LexState where
  | start
  | word (acc : List Char)
  | number (acc : List Char)
  | string (acc : List Char)
  | stringQuote (acc : List Char)
  | stringSpace (acc : List Char) (newline : Bool)
  | quoted (acc : List Char)
  | quotedQuote (acc : List Char)
  | op (acc : List Char)
  | colon
  | line
  | block (depth : ℕ)
  | blockStar (depth : ℕ)
  | blockSlash (depth : ℕ)
deriving DecidableEq

def isNewline (c : Char) : Bool := c = '\n' ∨ c = '\r'

def isSpace (c : Char) : Bool := c = ' ' ∨ c = '\t' ∨ c = '\x0b' ∨ c = '\x0c' ∨ isNewline c

def isIdentStart (c : Char) : Bool := c.isAlpha || c == '_' || decide (128 ≤ c.toNat)

def isIdentCont (c : Char) : Bool := isIdentStart c || c.isDigit || c == '$'

def isOpChar (c : Char) : Bool := "~!@#^&|`?+-*/%<>=".toList.contains c

/-- The characters that let an operator end in a sign. -/
def isOpExtra (c : Char) : Bool := "~!@#^&|`?%".toList.contains c

def isSign (c : Char) : Bool := c = '+' ∨ c = '-'

/-- A run of operator characters: an operator does not end in a sign, unless it has one of the
extra characters or is the sign alone. The signs are then operators of their own. -/
def splitOp (run : List Char) : List Token :=
  if run.any isOpExtra then [.op (String.ofList run)]
  else
    let signs := run.tail.reverse.takeWhile isSign
    .op (String.ofList (run.take (run.length - signs.length))) ::
      signs.reverse.map fun c => .op (String.ofList [c])

/-- Words that change the meaning of a string that follows directly. -/
def marksString (word : String) : Bool := ["b", "x", "n", "e"].contains word

/-- `downcase_identifier`. -/
def downcase (word : List Char) : String := String.ofList (word.map Char.toLower)

/-- A character that is no capital is its own small letter. -/
lemma toLower_eq_self {c : Char} (h : ¬ (65 ≤ c.val ∧ c.val ≤ 90)) : c.toLower = c := dif_neg h

lemma isDigit_bounds {c : Char} (h : c.isDigit = true) : 48 ≤ c.val ∧ c.val ≤ 57 := by
  obtain ⟨hlow, hhigh⟩ := Bool.and_eq_true_iff.mp h
  exact ⟨of_decide_eq_true hlow, of_decide_eq_true hhigh⟩

lemma toLower_of_isDigit {c : Char} (h : c.isDigit = true) : c.toLower = c :=
  toLower_eq_self fun hupper =>
    absurd (UInt32.le_trans hupper.1 (isDigit_bounds h).2) (by decide)

lemma isLower_bounds {c : Char} (h : c.isLower = true) : 97 ≤ c.val ∧ c.val ≤ 122 := by
  obtain ⟨hlow, hhigh⟩ := Bool.and_eq_true_iff.mp h
  exact ⟨of_decide_eq_true hlow, of_decide_eq_true hhigh⟩

/-- The first character of a token: finished tokens, and what follows. -/
def enter (c : Char) : Option (List Token × LexState) :=
  if isSpace c then some ([], .start)
  else if c = '(' then some ([.lparen], .start)
  else if c = ')' then some ([.rparen], .start)
  else if c = ',' then some ([.comma], .start)
  else if c = '.' then some ([.dot], .start)
  else if c = ':' then some ([], .colon)
  else if c = '\'' then some ([], .string [])
  else if c = '"' then some ([], .quoted [])
  else if c.isDigit then some ([], .number [c])
  else if isIdentStart c then some ([], .word [c])
  else if isOpChar c then some ([], .op [c])
  else none

/-- The tokens are finished before the character. -/
def enterAfter (tokens : List Token) (c : Char) : Option (List Token × LexState) :=
  (enter c).map fun p => (tokens ++ p.1, p.2)

/-- One character. -/
def step : LexState → Char → Option (List Token × LexState)
  | .start, c => enter c
  | .word acc, c =>
    if isIdentCont c then some ([], .word (acc ++ [c]))
    else if c = '\'' ∧ marksString (downcase acc) then none
    else if c = '&' ∧ downcase acc = "u" then none
    else enterAfter [.word (downcase acc)] c
  | .number acc, c =>
    if c.isDigit then some ([], .number (acc ++ [c]))
    else if isIdentStart c ∨ c = '.' then none
    else enterAfter [.number (String.ofList acc)] c
  | .string acc, c =>
    if c = '\'' then some ([], .stringQuote acc) else some ([], .string (acc ++ [c]))
  | .stringQuote acc, c =>
    if c = '\'' then some ([], .string (acc ++ [c]))
    else if isSpace c then some ([], .stringSpace acc (isNewline c))
    else enterAfter [.string (String.ofList acc)] c
  | .stringSpace acc newline, c =>
    -- a string goes on after white space with a line break
    if isSpace c then some ([], .stringSpace acc (newline || isNewline c))
    else if c = '\'' ∧ newline then some ([], .string acc)
    else enterAfter [.string (String.ofList acc)] c
  | .quoted acc, c =>
    if c = '"' then some ([], .quotedQuote acc) else some ([], .quoted (acc ++ [c]))
  | .quotedQuote acc, c =>
    if c = '"' then some ([], .quoted (acc ++ [c]))
    else if acc = [] then none
    else enterAfter [.quoted (String.ofList acc)] c
  | .op acc, c =>
    if c = '-' ∧ acc.getLast? = some '-' then
      some (if acc.length = 1 then [] else splitOp acc.dropLast, .line)
    else if c = '*' ∧ acc.getLast? = some '/' then
      some (if acc.length = 1 then [] else splitOp acc.dropLast, .block 0)
    else if isOpChar c then some ([], .op (acc ++ [c]))
    else enterAfter (splitOp acc) c
  | .colon, c => if c = ':' then some ([.typecast], .start) else none
  | .line, c => if isNewline c then some ([], .start) else some ([], .line)
  | .block depth, c =>
    if c = '*' then some ([], .blockStar depth)
    else if c = '/' then some ([], .blockSlash depth)
    else some ([], .block depth)
  | .blockStar depth, c =>
    if c = '/' then some ([], if depth = 0 then .start else .block (depth - 1))
    else if c = '*' then some ([], .blockStar depth)
    else some ([], .block depth)
  | .blockSlash depth, c =>
    if c = '*' then some ([], .block (depth + 1))
    else if c = '/' then some ([], .blockSlash depth)
    else some ([], .block depth)

/-- The end of the text. -/
def flush : LexState → Option (List Token)
  | .start => some []
  | .word acc => some [.word (downcase acc)]
  | .number acc => some [.number (String.ofList acc)]
  | .stringQuote acc => some [.string (String.ofList acc)]
  | .stringSpace acc _ => some [.string (String.ofList acc)]
  | .quotedQuote acc => if acc = [] then none else some [.quoted (String.ofList acc)]
  | .op acc => some (splitOp acc)
  | .line => some []
  | _ => none

/-- The character that no text of PostgreSQL has. -/
def nul : Char := '\x00'

/-- The tokens of a text, after those of `acc` in reverse order. -/
def lexFrom : LexState → List Token → List Char → Option (List Token)
  | st, acc, [] => (flush st).map fun tokens => acc.reverse ++ tokens
  | st, acc, c :: cs =>
    if c = nul then none
    else
      match step st c with
      | none => none
      | some (tokens, next) => lexFrom next (tokens.reverse ++ acc) cs

/-- The tokens of a text. -/
def lex (text : List Char) : Option (List Token) := lexFrom .start [] text

example : lex "(a -- b\n <> 'it''s' /* x /* y */ */ +-5)".toList =
    some [.lparen, .word "a", .op "<>", .string "it's", .op "+", .op "-", .number "5",
      .rparen] := by
  decide

/-! ### Texts in a context -/

/-- What ends every token: a closing bracket, a comma, the end, or one blank. -/
def delim : List Char → Bool
  | [] => true
  | ')' :: _ => true
  | ',' :: _ => true
  | ' ' :: c :: _ => !isSpace c
  | _ => false

lemma delim_cases {rest : List Char} (h : delim rest = true) :
    rest = [] ∨ (∃ cs, rest = ')' :: cs) ∨ (∃ cs, rest = ',' :: cs) ∨
      ∃ c cs, rest = ' ' :: c :: cs ∧ isSpace c = false := by
  rw [delim.eq_def] at h
  split at h
  · exact Or.inl rfl
  · exact Or.inr (Or.inl ⟨_, rfl⟩)
  · exact Or.inr (Or.inr (Or.inl ⟨_, rfl⟩))
  · exact Or.inr (Or.inr (Or.inr ⟨_, _, rfl, by simpa using h⟩))
  · cases h

/-- Whatever comes next, the text is read as these tokens. -/
def LexesAll (text : List Char) (tokens : List Token) : Prop :=
  ∀ acc rest, lexFrom .start acc (text ++ rest) = lexFrom .start (tokens.reverse ++ acc) rest

/-- Before a delimiter, the text is read as these tokens. -/
def Lexes (text : List Char) (tokens : List Token) : Prop :=
  ∀ acc rest, delim rest = true →
    lexFrom .start acc (text ++ rest) = lexFrom .start (tokens.reverse ++ acc) rest

variable {text text' : List Char} {tokens tokens' : List Token}

lemma LexesAll.append_lexes (h : LexesAll text tokens) (h' : Lexes text' tokens') :
    Lexes (text ++ text') (tokens ++ tokens') := by
  intro acc rest hrest
  rw [List.append_assoc, h, h' _ _ hrest, List.reverse_append, List.append_assoc]

/-- A delimiter that comes first in the next text. -/
lemma Lexes.append_all (h : Lexes text tokens) (h' : LexesAll text' tokens')
    (hdelim : ∀ rest, delim (text' ++ rest) = true) :
    LexesAll (text ++ text') (tokens ++ tokens') := by
  intro acc rest
  rw [List.append_assoc, h _ _ (hdelim rest), h', List.reverse_append, List.append_assoc]

/-- A text on its own. -/
lemma Lexes.lex_eq (h : Lexes text tokens) : lex text = some tokens := by
  have heq := h [] [] rfl
  rw [List.append_nil, List.append_nil] at heq
  rw [lex, heq, lexFrom, flush, Option.map_some, List.reverse_reverse, List.append_nil]

/-! ### Single tokens -/

/-- A token that a character ends. -/
lemma lexFrom_of_enterAfter {st : LexState} {c : Char} {tokens : List Token}
    (h : step st c = enterAfter tokens c) (acc : List Token) (cs : List Char) :
    lexFrom st acc (c :: cs) = lexFrom .start (tokens.reverse ++ acc) (c :: cs) := by
  rw [lexFrom, lexFrom, h, enterAfter, step]
  cases enter c with
  | none => rfl
  | some p =>
    refine if_congr Iff.rfl rfl ?_
    simp

/-- A token that the end of the text ends. -/
lemma lexFrom_of_flush {st : LexState} {tokens : List Token} (h : flush st = some tokens)
    (acc : List Token) :
    lexFrom st acc [] = lexFrom .start (tokens.reverse ++ acc) [] := by
  rw [lexFrom, lexFrom, h, flush, Option.map_some, Option.map_some, List.append_nil,
    List.reverse_append, List.reverse_reverse]

/-- The characters of a token. -/
lemma lexFrom_run (make : List Char → LexState) {run : List Char} (hrun : nul ∉ run)
    (h : ∀ acc, ∀ c ∈ run, step (make acc) c = some ([], make (acc ++ [c]))) (acc : List Char)
    (tokens : List Token) (rest : List Char) :
    lexFrom (make acc) tokens (run ++ rest) = lexFrom (make (acc ++ run)) tokens rest := by
  induction run generalizing acc with
  | nil => rw [List.append_nil, List.nil_append]
  | cons c run ih =>
    rw [List.mem_cons, not_or] at hrun
    have hnext := ih hrun.2 (fun acc d hd => h acc d (List.mem_cons_of_mem c hd)) (acc ++ [c])
    rw [List.append_assoc, List.singleton_append] at hnext
    rw [List.cons_append, lexFrom, if_neg (Ne.symm hrun.1), h acc c (List.mem_cons_self ..)]
    exact hnext

/-- What is left when a token that a blank, a bracket or a comma ends is finished. -/
lemma lexFrom_delim {st : LexState} {tokens : List Token} (hflush : flush st = some tokens)
    (hstep : ∀ c, c = ')' ∨ c = ',' ∨ c = ' ' → step st c = enterAfter tokens c) (acc : List Token)
    {rest : List Char} (hrest : delim rest = true) :
    lexFrom st acc rest = lexFrom .start (tokens.reverse ++ acc) rest := by
  rcases delim_cases hrest with rfl | ⟨cs, rfl⟩ | ⟨cs, rfl⟩ | ⟨c, cs, rfl, -⟩
  · exact lexFrom_of_flush hflush acc
  · exact lexFrom_of_enterAfter (hstep _ (Or.inl rfl)) acc cs
  · exact lexFrom_of_enterAfter (hstep _ (Or.inr (Or.inl rfl))) acc cs
  · exact lexFrom_of_enterAfter (hstep _ (Or.inr (Or.inr rfl))) acc (c :: cs)

/-- A word. -/
lemma lexes_word {c : Char} {cs : List Char} (hstart : enter c = some ([], .word [c]))
    (hcs : ∀ d ∈ cs, isIdentCont d = true) : Lexes (c :: cs) [.word (downcase (c :: cs))] := by
  intro acc rest hrest
  have hc : c ≠ nul := by
    rintro rfl
    cases hstart
  have hrun : nul ∉ cs := fun hmem => absurd (hcs nul hmem) (by decide)
  rw [List.cons_append, lexFrom, if_neg hc, step, hstart]
  refine (lexFrom_run .word hrun (fun acc d hd => ?_) [c] acc rest).trans ?_
  · rw [step, if_pos (hcs d hd)]
  · refine lexFrom_delim rfl (fun d hd => ?_) acc hrest
    rcases hd with rfl | rfl | rfl <;> rfl

/-- A text with its quotes doubled. -/
def escape (quote : Char) (text : List Char) : List Char :=
  text.flatMap fun c => if c = quote then [quote, quote] else [c]

lemma escape_cons (quote c : Char) (text : List Char) :
    escape quote (c :: text) = (if c = quote then [quote, quote] else [c]) ++ escape quote text :=
  rfl

/-- A text without the quote is left as it is. -/
lemma escape_of_notMem {quote : Char} {text : List Char} (h : quote ∉ text) :
    escape quote text = text := by
  induction text with
  | nil => rfl
  | cons c text ih =>
    rw [List.mem_cons, not_or] at h
    rw [escape_cons, if_neg (Ne.symm h.1), ih h.2, List.singleton_append]

/-- What is read between quotes. -/
lemma lexFrom_escape {quote : Char} (hquote : quote ≠ nul) {inside after : List Char → LexState}
    (hstep : ∀ read c, c ≠ quote → step (inside read) c = some ([], inside (read ++ [c])))
    (hleave : ∀ read, step (inside read) quote = some ([], after read))
    (hdouble : ∀ read, step (after read) quote = some ([], inside (read ++ [quote])))
    {text : List Char}
    (htext : nul ∉ text) (read : List Char) (acc : List Token) (rest : List Char) :
    lexFrom (inside read) acc (escape quote text ++ quote :: rest) =
      lexFrom (after (read ++ text)) acc rest := by
  induction text generalizing read with
  | nil =>
    rw [List.append_nil, escape, List.flatMap_nil, List.nil_append, lexFrom, if_neg hquote, hleave]
    rfl
  | cons c text ih =>
    rw [List.mem_cons, not_or] at htext
    have hnext := ih htext.2 (read ++ [c])
    rw [List.append_assoc, List.singleton_append] at hnext
    rw [escape_cons, List.append_assoc, ← hnext]
    split_ifs with hc
    · subst hc
      rw [List.cons_append, List.singleton_append, lexFrom, if_neg hquote, hleave]
      dsimp only
      rw [List.reverse_nil, List.nil_append, lexFrom, if_neg hquote, hdouble]
      rfl
    · rw [List.singleton_append, lexFrom, if_neg (Ne.symm htext.1), hstep read c hc]
      rfl

/-- A string up to its closing quote. -/
lemma lexFrom_string {text : List Char} (htext : nul ∉ text) (acc : List Token) (rest : List Char) :
    lexFrom .start acc ('\'' :: (escape '\'' text ++ '\'' :: rest)) =
      lexFrom (.stringQuote text) acc rest := by
  refine lexFrom_escape (by decide) (fun read c hc => ?_) (fun read => rfl)
    (fun read => rfl) htext [] acc rest
  rw [step, if_neg hc]

/-- A string. -/
lemma lexes_string {text : List Char} (htext : nul ∉ text) :
    Lexes ('\'' :: (escape '\'' text ++ ['\''])) [.string (String.ofList text)] := by
  intro acc rest hrest
  rw [List.cons_append, List.append_assoc, List.singleton_append, lexFrom_string htext]
  rcases delim_cases hrest with rfl | ⟨cs, rfl⟩ | ⟨cs, rfl⟩ | ⟨c, cs, rfl, hc⟩
  · exact lexFrom_of_flush rfl acc
  · exact lexFrom_of_enterAfter rfl acc cs
  · exact lexFrom_of_enterAfter rfl acc cs
  · -- the blank is read before the string is finished
    have hspace : lexFrom (.stringQuote text) acc (' ' :: c :: cs) =
        lexFrom (.stringSpace text false) acc (c :: cs) := rfl
    have hend : step (.stringSpace text false) c = enterAfter [.string (String.ofList text)] c := by
      rw [step, hc, if_neg Bool.false_ne_true, if_neg (fun h => Bool.false_ne_true h.2)]
    rw [hspace]
    exact (lexFrom_of_enterAfter hend acc cs).trans rfl

/-- A quoted name. -/
lemma lexes_quoted {name : List Char} (hne : name ≠ []) (hname : nul ∉ name) :
    Lexes ('"' :: (escape '"' name ++ ['"'])) [.quoted (String.ofList name)] := by
  intro acc rest hrest
  have hread : lexFrom .start acc ('"' :: (escape '"' name ++ '"' :: rest)) =
      lexFrom (.quotedQuote name) acc rest := by
    refine lexFrom_escape (by decide) (fun read c hc => ?_) (fun read => rfl)
      (fun read => rfl) hname [] acc rest
    rw [step, if_neg hc]
  rw [List.cons_append, List.append_assoc, List.singleton_append, hread]
  refine lexFrom_delim ?_ (fun d hd => ?_) acc hrest
  · rw [flush, if_neg hne]
  · rcases hd with rfl | rfl | rfl <;> rw [step, if_neg (by decide), if_neg hne]

/-- A cast of a string. -/
lemma lexesAll_string_cast {text : List Char} (htext : nul ∉ text) :
    LexesAll ('\'' :: (escape '\'' text ++ ['\'', ':', ':']))
      [.string (String.ofList text), .typecast] := by
  intro acc rest
  rw [List.cons_append, List.append_assoc]
  refine (lexFrom_string htext acc (':' :: ':' :: rest)).trans ?_
  rfl

/-- A digit is no other character. -/
lemma ne_of_isDigit {c : Char} (h : c.isDigit = true) (d : Char) (hd : d.isDigit = false) :
    c ≠ d := by
  rintro rfl
  rw [h] at hd
  cases hd

/-- The digits of a number. -/
lemma toDigits_isDigit {n : ℕ} {c : Char} (h : c ∈ Nat.toDigits 10 n) : c.isDigit = true :=
  Nat.isDigit_of_mem_toDigits (by decide) (by decide) h

end PgFusion.Sql

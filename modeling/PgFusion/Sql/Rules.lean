import PgFusion.Sql.Parser

/-!
What tokens are read as: rules for the parser, with `Enough` fuel.
* `enough_conjunction`: operands with `AND` between them.
-/

namespace PgFusion.Sql

/-! ### Enough fuel -/

/-- It holds from some amount of fuel on. -/
def Enough (P : ℕ → Prop) : Prop := ∃ n, ∀ fuel, n ≤ fuel → P fuel

lemma Enough.and {P Q : ℕ → Prop} (h : Enough P) (h' : Enough Q) :
    Enough fun fuel => P fuel ∧ Q fuel := by
  obtain ⟨n, hn⟩ := h
  obtain ⟨m, hm⟩ := h'
  exact ⟨max n m, fun fuel hfuel => ⟨hn fuel (by omega), hm fuel (by omega)⟩⟩

lemma Enough.imp {P Q : ℕ → Prop} (h : Enough P) (himp : ∀ fuel, P fuel → Q fuel) : Enough Q := by
  obtain ⟨n, hn⟩ := h
  exact ⟨n, fun fuel hfuel => himp fuel (hn fuel hfuel)⟩

/-- A step of fuel is used. -/
lemma Enough.succ {P : ℕ → Prop} (h : Enough fun fuel => P (fuel + 1)) : Enough P := by
  obtain ⟨n, hn⟩ := h
  refine ⟨n + 1, fun fuel hfuel => ?_⟩
  obtain ⟨m, rfl⟩ := Nat.exists_eq_add_of_le' hfuel
  exact hn (m + n) (by omega)

lemma enough_all {P : ℕ → Prop} (h : ∀ fuel, P fuel) : Enough P := ⟨0, fun fuel _ => h fuel⟩

/-! ### Operands -/

/-- Words that may belong to the type or constant before them. -/
def continuing : List String :=
  ["with", "without", "year", "month", "day", "hour", "minute", "second"]

/-- What does not change the operand before it. -/
def follows : List Token → Bool
  | .typecast :: _ => false
  | .lparen :: _ => false
  | .dot :: _ => false
  | .string _ :: _ => false
  | .word w :: _ => !continuing.contains w
  | _ => true

/-- The tokens are one operand, whatever follows. -/
def Tight (tokens : List Token) (e : SqlExpr) : Prop :=
  Enough fun fuel => ∀ rest, follows rest = true → parseOperand fuel (tokens ++ rest) =
    some (e, rest)

/-- The tokens are an operand before its casts, whatever follows. -/
def Primary (tokens : List Token) (e : SqlExpr) : Prop :=
  Enough fun fuel => ∀ rest, parsePrimary fuel (tokens ++ rest) = some (e, rest)

/-- What ends an expression of the level `low`. -/
def stops (low : ℕ) (rest : List Token) : Bool :=
  follows rest && match operatorOf rest with
    | none => true
    | some (ix, _) => decide (ix.level < low)

/-- The tokens are an expression with operators of the level `low` at least. -/
def At (low : ℕ) (tokens : List Token) (e : SqlExpr) : Prop :=
  Enough fun fuel => ∀ rest, stops low rest = true → parseExpr fuel low (tokens ++ rest) =
    some (e, rest)

variable {rest tokens : List Token}

lemma stops_mono {low high : ℕ} (hle : low ≤ high) (h : stops low rest = true) :
    stops high rest = true := by
  rw [stops, Bool.and_eq_true] at h ⊢
  refine ⟨h.1, ?_⟩
  cases hix : operatorOf rest with
  | none => rfl
  | some p =>
    rw [hix] at h
    have hlt : p.1.level < low := of_decide_eq_true h.2
    exact decide_eq_true (by omega)

lemma enough_parseCasts (e : SqlExpr) :
    Enough fun fuel => ∀ rest, follows rest = true → parseCasts fuel e rest = some (e, rest) := by
  refine Enough.succ (enough_all fun fuel rest h => ?_)
  match rest with
  | .typecast :: _ => cases h
  | [] => rfl
  | .word _ :: _ => rfl
  | .quoted _ :: _ => rfl
  | .string _ :: _ => cases h
  | .number _ :: _ => rfl
  | .op _ :: _ => rfl
  | .lparen :: _ => cases h
  | .rparen :: _ => rfl
  | .comma :: _ => rfl
  | .dot :: _ => cases h

/-- Tokens that do not start with a sign or `NOT`. -/
def startsPrimary : List Token → Bool
  | .word "not" :: _ => false
  | .op "-" :: _ => false
  | _ => true

lemma parseOperand_primary (h : startsPrimary tokens = true) (fuel : ℕ) :
    parseOperand (fuel + 1) tokens = (parsePrimary fuel tokens).bind fun p =>
      parseCasts fuel p.1 p.2 := by
  rw [parseOperand.eq_def]
  split
  · rename_i heq
    cases heq
  · cases h
  · cases h
  · rename_i heq _ _
    cases heq
    rfl

/-- An operand without signs. -/
lemma tight_of_primary {e : SqlExpr} (hstart : ∀ rest, startsPrimary (tokens ++ rest) = true)
    (h : Enough fun fuel => ∀ rest, follows rest = true → parsePrimary fuel (tokens ++ rest) =
      some (e, rest)) :
    Tight tokens e := by
  refine Enough.succ ((h.and (enough_parseCasts e)).imp fun fuel hp rest hrest => ?_)
  rw [parseOperand_primary (hstart rest), hp.1 rest hrest, Option.bind_some]
  exact hp.2 rest hrest

lemma notMem_continuing {w : String} (h : follows (.word w :: rest) = true) : w ∉ continuing := by
  rw [follows, Bool.not_eq_true', List.contains_eq_mem, decide_eq_false_iff_not] at h
  exact h

/-- A type of one word. -/
lemma parseType_word {type : String}
    (htype : type ∉ reserved ∧ type ≠ "interval" ∧ type ≠ "double" ∧ type ≠ "character")
    (hrest : follows rest = true) : parseType (.word type :: rest) = some (⟨[type], []⟩, rest) := by
  rw [parseType.eq_def]
  split
  · rename_i heq
    cases heq
    exact absurd rfl htype.2.2.1
  · rename_i heq
    cases heq
    exact absurd rfl htype.2.2.2
  · rename_i heq
    cases heq
    cases hrest
  · rename_i heq
    cases heq
    rw [if_neg (not_or.mpr ⟨htype.1, htype.2.1⟩)]
    split
    · exact absurd (by decide) (notMem_continuing hrest)
    · exact absurd (by decide) (notMem_continuing hrest)
    · cases hrest
    · rw [parseTypeMods.eq_def]
      split
      · cases hrest
      · rfl
  · rename_i hnone
    exact absurd rfl (hnone type rest)

/-- A cast to a type of one word. -/
lemma Primary.typecast {e : SqlExpr} {type : String}
    (hstart : ∀ rest, startsPrimary (tokens ++ rest) = true) (h : Primary tokens e)
    (htype : type ∉ reserved ∧ type ≠ "interval" ∧ type ≠ "double" ∧ type ≠ "character") :
    Tight (tokens ++ [.typecast, .word type]) (.cast e ⟨[type], []⟩) := by
  have hcast : Enough fun fuel => ∀ rest, follows rest = true →
      parseCasts fuel e (.typecast :: .word type :: rest) = some (.cast e ⟨[type], []⟩, rest) := by
    refine Enough.succ ((enough_parseCasts (.cast e ⟨[type], []⟩)).imp fun fuel hp rest hrest => ?_)
    rw [parseCasts, parseType_word htype hrest]
    exact hp rest hrest
  refine Enough.succ ((h.and hcast).imp fun fuel hp rest hrest => ?_)
  rw [List.append_assoc, parseOperand_primary (hstart _), hp.1, Option.bind_some]
  exact hp.2 rest hrest

/-- No operator of the levels follows. -/
lemma enough_climb (e : SqlExpr) :
    Enough fun fuel => ∀ low high rest, stops low rest = true → climb fuel low high e rest =
      some (e, rest) := by
  refine Enough.succ (enough_all fun fuel low high rest h => ?_)
  rw [stops, Bool.and_eq_true] at h
  refine climb_of_level (fun ix rest' heq => ?_) fuel high e
  rw [heq] at h
  exact of_decide_eq_true h.2

lemma follows_of_stops {low : ℕ} (h : stops low rest = true) : follows rest = true := by
  rw [stops, Bool.and_eq_true] at h
  exact h.1

/-- An operand as an expression. -/
lemma Tight.expr {e : SqlExpr} (h : Tight tokens e) :
    Enough fun fuel => ∀ low rest, stops low rest = true → parseExpr fuel low (tokens ++ rest) =
      some (e, rest) := by
  refine Enough.succ ((h.and (enough_climb e)).imp fun fuel hp low rest hrest => ?_)
  rw [parseExpr_succ, hp.1 rest (follows_of_stops hrest), Option.bind_some]
  exact hp.2 low 10 rest hrest

lemma opLevel_mem (op : String) : 7 ≤ opLevel op ∧ opLevel op ≤ 10 := by
  rw [opLevel]
  split_ifs <;> decide

lemma Operator.level_mem (ix : Operator) : 1 ≤ ix.level ∧ ix.level ≤ 10 := by
  cases ix with
  | op text =>
    have := opLevel_mem text
    rw [Operator.level]
    omega
  | _ => exact ⟨by simp [Operator.level], by simp [Operator.level]⟩

/-! ### Operands without operators -/

lemma primary_string (text : String) : Primary [.string text] (.string text) :=
  Enough.succ (enough_all fun _ _ => rfl)

lemma startsPrimary_word {name : String} (hname : name ∉ reserved) (rest : List Token) :
    startsPrimary (.word name :: rest) = true := by
  rw [startsPrimary.eq_def]
  split
  · rename_i heq
    cases heq
    exact absurd (by decide) hname
  · rename_i heq
    cases heq
  · rfl

/-- A column without quotes, whose name is no word of the grammar. -/
lemma tight_name {name : String} (hname : name ∉ reserved) : Tight [.word name] (.column name) := by
  refine tight_of_primary (fun _ => startsPrimary_word hname _)
    (Enough.succ (enough_all fun fuel rest hrest => ?_))
  rw [List.singleton_append, parsePrimary.eq_def]
  split <;> rename_i heq <;> try cases heq
  all_goals try exact absurd (by decide) hname
  all_goals try cases hrest
  · cases ‹fuel + 1 = Nat.succ _›
    rw [if_neg hname]
    split
    · cases hrest
    · cases hrest
    · cases hrest
    · cases hrest
    · rfl
  · exact absurd rfl (heq fuel name _ rfl)

/-! ### Conjunctions -/

/-- The tokens are an operand of `AND`: as the first one, what follows goes on from it. -/
structure Conjunct (tokens : List Token) (e : SqlExpr) : Prop where
  leads : ∀ {rest : List Token} {result : SqlExpr × List Token}, stops 3 rest = true →
    (Enough fun fuel => ∀ high, 2 ≤ high → climb fuel 1 high e rest = some result) →
    Enough fun fuel => parseExpr fuel 1 (tokens ++ rest) = some result
  expr : At 3 tokens e

/-- A comparison needs no brackets next to `AND`. -/
lemma Conjunct.comparison {ls rs : List Token} {l r : SqlExpr} (op : String)
    (hop : op ∈ comparisons) (hne : op ≠ "!=")
    (hl : Tight ls l) (hr : Tight rs r) : Conjunct (ls ++ (.op op :: rs)) (.binary op l r) := by
  have hix : ∀ rest, operatorOf (.op op :: (rs ++ rest)) = some (.comparison op, rs ++ rest) :=
    fun rest => by
    rw [operatorOf_op, if_pos hop, if_neg hne]
  have hright : Enough fun fuel => ∀ rest, stops 3 rest = true →
      parseRight fuel (.comparison op) l (rs ++ rest) = some (.binary op l r, rest) := by
    refine Enough.succ (hr.expr.imp fun fuel hp rest hrest => ?_)
    rw [parseRight_comparison, hp 6 _ (stops_mono (by decide) hrest), Option.bind_some]
  have hleft : Enough fun fuel => ∀ low rest, low ≤ 5 → stops 3 rest = true →
      parseExpr (fuel + 2) low (ls ++ (.op op :: rs) ++ rest) = climb fuel low 4 (.binary op l r)
        rest := by
    obtain ⟨n, hn⟩ := hl
    refine hright.and (⟨n, fun fuel hfuel => hn (fuel + 1) (by omega)⟩ : Enough fun fuel => _)
      |>.imp
      fun fuel hp low rest hlow hrest => ?_
    rw [List.append_assoc, List.cons_append, parseExpr_succ, hp.2 _ rfl, Option.bind_some,
      climb_of_operator (hix rest) ⟨hlow, (Operator.level_mem _).2⟩, hp.1 rest hrest,
        Option.bind_some]
    rfl
  constructor
  · intro rest result hrest hclimb
    refine Enough.succ (Enough.succ ((hleft.and hclimb).imp fun fuel hp => ?_))
    rw [hp.1 1 rest (by decide) hrest]
    exact hp.2 4 (by decide)
  · refine Enough.succ
      (Enough.succ ((hleft.and (enough_climb (.binary op l r))).imp fun fuel hp rest hrest => ?_))
    rw [hp.1 3 rest (by decide) hrest]
    exact hp.2 3 4 rest hrest

/-- Operands with `AND` between them, at the end of a text. -/
lemma enough_conjunction {e : SqlExpr} (h : Conjunct tokens e) {more : List (List Token)}
    {es : List SqlExpr} (hmore : List.Forall₂ Conjunct more es) :
    Enough fun fuel =>
      parseExpr fuel 1 (tokens ++ more.flatMap fun ts => .word "and" :: ts) =
        some (es.foldl .and e, []) := by
  have hstops : ∀ more : List (List Token), stops 3 (more.flatMap fun ts => .word "and" :: ts) =
    true
    | [] => rfl
    | _ :: _ => rfl
  -- the operators that are left are taken one by one
  have hclimb : ∀ left, Enough fun fuel => ∀ high, 2 ≤ high →
      climb fuel 1 high left (more.flatMap fun ts => .word "and" :: ts) =
        some (es.foldl .and left, []) := by
    induction hmore with
    | nil => exact fun left => Enough.succ (enough_all fun _ _ _ => rfl)
    | @cons ts e' more es hts _ ih =>
      intro left
      have hright : Enough fun fuel =>
          parseRight fuel .and left (ts ++ more.flatMap fun ts => .word "and" :: ts) =
            some (.and left e', more.flatMap fun ts => .word "and" :: ts) := by
        refine Enough.succ (hts.expr.imp fun fuel hp => ?_)
        rw [parseRight_and, hp _ (hstops more), Option.bind_some]
      refine Enough.succ ((hright.and (ih (.and left e'))).imp fun fuel hp high hhigh => ?_)
      have hix : operatorOf ((ts :: more).flatMap fun ts => .word "and" :: ts) =
          some (.and, ts ++ more.flatMap fun ts => .word "and" :: ts) := rfl
      rw [climb_of_operator hix ⟨by decide, hhigh⟩, hp.1, Option.bind_some]
      exact hp.2 2 (Nat.le_refl 2)
  exact h.leads (hstops more) (hclimb e)

end PgFusion.Sql

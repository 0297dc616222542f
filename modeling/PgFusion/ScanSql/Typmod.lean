import PgFusion.ScanSql.Render

/-!
Lengths of texts in the scan and in the worker (`df_functions`: `pg_text_typmod.rs`; `scan_sql`:
`render.rs`).

* `typmod_casts_agree`: they cut alike exactly without a cast and up to the longest length.
-/

namespace PgFusion.ScanSql

/-! ### The worker -/

/-- `TextTypmodKind`. -/
inductive TextTypmodKind where
  | varchar
  | bpchar
deriving DecidableEq

/-- The name of the function. -/
def TextTypmodKind.functionName : TextTypmodKind → String
  | varchar => "pg_fusion_varchar_typmod"
  | bpchar => "pg_fusion_bpchar_typmod"

/-- `truncate_chars`. -/
def truncateChars (value : List Char) (length : ℕ) : List Char :=
  if length < value.length then value.take length else value

/-- `bpchar_chars`: the characters that are copied, and blanks for those that are missing. -/
def bpcharChars (value : List Char) (length : ℕ) : List Char :=
  let output := value.take length
  if output.length = length then
    if value.drop length = [] then value else output
  else output ++ List.replicate (length - output.length) ' '

/-- `apply_text_typmod`. -/
def applyTextTypmod (kind : TextTypmodKind) (value : List Char) (typmod : ℤ) : List Char :=
  match (textTypmodLength typmod).filter (0 < ·) with
  | none => value
  | some length =>
    match kind with
    | .varchar => truncateChars value length.toNat
    | .bpchar => bpcharChars value length.toNat

/-- The `int4` that a type modifier evaluates to; a cast of an `int4` to `int4` does nothing. -/
def typmodValue : Expr → Option ℤ
  | .literal (.integer .int32 (some typmod)) _ => some typmod
  | .cast e dataType => if dataType = .integer .int32 then typmodValue e else none
  | _ => none

/-! ### PostgreSQL -/

/-- The name of the type in SQL. -/
def TextTypmodKind.typeName : TextTypmodKind → String
  | varchar => "VARCHAR"
  | bpchar => "CHARACTER"

/-- `CAST(value AS VARCHAR(n))` and `CAST(value AS CHARACTER(n))`; a length above `MaxAttrSize` is
refused. -/
def pgCast (kind : TextTypmodKind) (n : ℤ) (value : List Char) : Option (List Char) :=
  if n < 1 ∨ 10485760 < n then none
  else
    match kind with
    | .varchar => some (value.take n.toNat)
    | .bpchar => some (value.take n.toNat ++ List.replicate (n.toNat - value.length) ' ')

/-! ### Agreement -/

lemma truncateChars_eq (value : List Char) (length : ℕ) :
    truncateChars value length = value.take length := by
  rw [truncateChars]
  split_ifs with h
  · rfl
  · exact (List.take_of_length_le (not_lt.mp h)).symm

lemma bpcharChars_eq (value : List Char) (length : ℕ) :
    bpcharChars value length = value.take length ++ List.replicate (length - value.length) ' ' := by
  rw [bpcharChars, List.length_take]
  by_cases h : length ≤ value.length
  · rw [if_pos (min_eq_left h), Nat.sub_eq_zero_of_le h, List.replicate_zero, List.append_nil]
    split_ifs with hdrop
    · exact (List.take_of_length_le (List.drop_eq_nil_iff.mp hdrop)).symm
    · rfl
  · have hmin : min length value.length = value.length := min_eq_right (not_le.mp h).le
    rw [if_neg (by omega), hmin]

lemma textTypmodLength_eq_some {typmod n : ℤ} (h : textTypmodLength typmod = some n) :
    n = typmod - 4 ∧ 0 < n := by
  rw [textTypmodLength] at h
  split_ifs at h with hlt
  obtain rfl := Option.some.inj h
  exact ⟨rfl, Int.sub_pos_of_lt hlt⟩

/-- What the worker makes of a text, as PostgreSQL's cast to the length of the type modifier would,
if it had every length. -/
lemma applyTextTypmod_eq (kind : TextTypmodKind) (value : List Char) {typmod n : ℤ}
    (hn : textTypmodLength typmod = some n) :
    applyTextTypmod kind value typmod =
      value.take n.toNat ++ if kind = .bpchar then List.replicate (n.toNat - value.length) ' '
        else [] := by
  have hfilter : (textTypmodLength typmod).filter (0 < ·) = some n := by
    rw [hn, Option.filter_some, if_pos (decide_eq_true (textTypmodLength_eq_some hn).2)]
  cases kind with
  | varchar =>
    rw [applyTextTypmod, hfilter]
    exact (truncateChars_eq value n.toNat).trans (List.append_nil _).symm
  | bpchar =>
    rw [applyTextTypmod, hfilter]
    exact bpcharChars_eq value n.toNat

lemma pgCast_eq (kind : TextTypmodKind) (value : List Char) {n : ℤ} (hpos : 0 < n)
    (hmax : n ≤ 10485760) :
    pgCast kind n value = some
      (value.take n.toNat ++ if kind = .bpchar then List.replicate (n.toNat - value.length) ' '
        else []) := by
  have hlength : ¬(n < 1 ∨ 10485760 < n) := by omega
  cases kind with
  | varchar => exact (if_neg hlength).trans (congrArg some (List.append_nil _).symm)
  | bpchar => exact if_neg hlength

/-- Every cast takes four more characters off the length that is rendered, and none off the
worker's. -/
lemma typmodValue_of_accepted {arg : Expr} {n : ℤ} (h : textTypmodLengthArg arg = some n) :
    0 < n ∧ ∃ typmod, typmodValue arg = some typmod ∧ n ≤ typmod - 4 ∧
      (n = typmod - 4 ↔ ∀ e dataType, arg ≠ .cast e dataType) := by
  induction arg using textTypmodLengthArg.induct generalizing n with
  | case1 typmod metadata =>
    obtain ⟨hn, hpos⟩ := textTypmodLength_eq_some h
    exact ⟨hpos, typmod, rfl, hn.le, iff_of_true hn nofun⟩
  | case2 e ih =>
    rw [textTypmodLengthArg, if_pos rfl, Option.bind_eq_some_iff] at h
    obtain ⟨m, hm, hn⟩ := h
    obtain ⟨-, typmod, hvalue, hle, -⟩ := ih hm
    obtain ⟨hn, hpos⟩ := textTypmodLength_eq_some hn
    refine ⟨hpos, typmod, ?_, by omega, iff_of_false (by omega) fun hcast => hcast _ _ rfl⟩
    rw [typmodValue, if_pos rfl, hvalue]
  | case3 e dataType hne =>
    rw [textTypmodLengthArg, if_neg hne] at h
    cases h
  | case4 arg hliteral hcast =>
    rw [textTypmodLengthArg.eq_3 arg hliteral hcast] at h
    cases h

/-- **A pushed length does what the worker does** for every text, if and only if the type modifier
is a literal that is not under a cast, of a length that PostgreSQL has. The function is rendered as
a cast to the type with the length that was accepted. -/
theorem typmod_casts_agree (kind : TextTypmodKind) (arg : Expr) (n : ℤ) (valueSql argSql : String)
    (scale : Rendering RenderedExpr) (haccepted : textTypmodLengthArg arg = some n) :
    functionText kind.functionName [valueSql, argSql] scale (textTypmodLengthArg arg) =
        pure (castText valueSql (kind.typeName ++ "(" ++ toString n ++ ")")) ∧
      ∃ typmod, typmodValue arg = some typmod ∧
        ((∀ value, pgCast kind n value = some (applyTextTypmod kind value typmod)) ↔
          (∀ e dataType, arg ≠ .cast e dataType) ∧ n ≤ 10485760) := by
  obtain ⟨hpos, typmod, hvalue, hle, hcast⟩ := typmodValue_of_accepted haccepted
  have hlength : textTypmodLength typmod = some (typmod - 4) := if_pos (show 4 < typmod by omega)
  refine ⟨by rw [haccepted]; cases kind <;> rfl, typmod, hvalue, fun h => ?_, ?_⟩
  · have hmax : n ≤ 10485760 := by
      by_contra hlarge
      exact Option.some_ne_none _ ((h []).symm.trans (if_pos (.inr (not_le.mp hlarge))))
    -- a text of the length of the type modifier is not cut
    have hsame := h (List.replicate (typmod - 4).toNat 'a')
    rw [pgCast_eq kind _ hpos hmax, applyTextTypmod_eq kind _ hlength] at hsame
    have hlen := congrArg List.length (Option.some.inj hsame)
    refine ⟨hcast.mp ?_, hmax⟩
    cases kind <;> simp at hlen <;> omega
  · rintro ⟨hliteral, hmax⟩ value
    obtain rfl := hcast.mpr hliteral
    rw [pgCast_eq kind value hpos hmax, applyTextTypmod_eq kind value hlength]

theorem typmod_casts_agree_sample :
    ∃ typmod, typmodValue (.literal (.integer .int32 (some 7)) none) = some typmod ∧
      ∀ value, pgCast .bpchar 3 value = some (applyTextTypmod .bpchar value typmod) := by
  obtain ⟨-, typmod, hvalue, hiff⟩ :=
    typmod_casts_agree .bpchar (.literal (.integer .int32 (some 7)) none) 3 "" "" refuse rfl
  exact ⟨typmod, hvalue, hiff.mpr ⟨nofun, by decide⟩⟩

/-- The length is taken from the type modifier once more at every cast: under one cast
`varchar(10)` is rendered as `VARCHAR(6)`. And PostgreSQL does not have every length. -/
theorem typmod_casts_differ :
    (textTypmodLengthArg (.cast (.literal (.integer .int32 (some 14)) none) (.integer .int32)) =
      some 6 ∧
      typmodValue (.cast (.literal (.integer .int32 (some 14)) none) (.integer .int32)) = some 14 ∧
      pgCast .varchar 6 "abcdefgh".toList = some "abcdef".toList ∧
      applyTextTypmod .varchar "abcdefgh".toList 14 = "abcdefgh".toList) ∧
    (textTypmodLengthArg (.literal (.integer .int32 (some 10485765)) none) = some 10485761 ∧
      pgCast .varchar 10485761 "a".toList = none) := by
  decide +kernel

end PgFusion.ScanSql

import Mathlib.Data.List.DropRight
import Mathlib.Tactic
import PgFusion.Sql.Values

/-!
Intervals as texts (`df_functions`: `pg_interval_out.rs`) and PostgreSQL's `interval_out` in the
style `postgres`: both are words with blanks between them.

* `intervalOut_eq`, `formatIntervalParts_eq`: the words of either;
* `interval_texts_follow`: the texts agree exactly if the triple is `Plain`, and differ for unequal
  triples.
-/

namespace PgFusion.PgFormat

/-! ### The source -/

/-- The parts of a text with blanks between them. -/
def spaced (parts : List (List Char)) : List Char := List.intercalate [' '] parts

/-- A number with its sign. -/
def signedText (value : ℤ) : List Char :=
  (if value < 0 then ['-'] else []) ++ Nat.toDigits 10 value.natAbs

/-- A number with leading zeros. -/
def padded (width n : ℕ) : List Char := (Nat.toDigits 10 n).leftpad width '0'

/-- `format_unit`. -/
def formatUnit (value : ℤ) (singular plural : List Char) : List Char :=
  signedText value ++ ' ' :: if value.natAbs = 1 then singular else plural

/-- `i64::abs`. -/
def checkedAbs (micros : ℤ) : Option ℕ := if micros = -2 ^ 63 then none else some micros.natAbs

/-- Six digits without the zeros at their end. -/
def fractionText (fraction : ℕ) : List Char := (padded 6 fraction).rdropWhile (· == '0')

/-- `format_time`. -/
def formatTime (micros : ℤ) : Option (List Char) := do
  let abs ← checkedAbs micros
  let sign := if micros < 0 then ['-'] else []
  let hours := abs / 3600000000
  let minutes := abs % 3600000000 / 60000000
  let seconds := abs % 60000000 / 1000000
  let fraction := abs % 1000000
  let clock := sign ++ (padded 2 hours ++ ':' :: (padded 2 minutes ++ ':' :: padded 2 seconds))
  return if fraction = 0 then clock else clock ++ '.' :: fractionText fraction

/-- A part, unless it is zero. -/
def unitPart (value : ℤ) (singular plural : List Char) : List (List Char) :=
  if value ≠ 0 then [formatUnit value singular plural] else []

/-- `format_interval_parts`. -/
def formatIntervalParts (months days micros : ℤ) : Option (List Char) := do
  let years := months.tdiv 12
  let remainingMonths := months.tmod 12
  let parts := unitPart years "year".toList "years".toList ++
    unitPart remainingMonths "mon".toList "mons".toList ++ unitPart days "day".toList "days".toList
  if micros ≠ 0 ∨ parts = [] then
    let time ← formatTime micros
    return spaced (parts ++ [time])
  else return spaced parts

/-! ### PostgreSQL -/

/-- The buffer of `EncodeInterval` with its flags. -/
structure IntervalBuffer where
  text : List Char
  isZero : Bool
  isBefore : Bool

/-- `AddPostgresIntPart`. -/
def addPostgresIntPart (value : ℤ) (units : List Char) (cp : IntervalBuffer) : IntervalBuffer :=
  if value = 0 then cp
  else
    { text := cp.text ++ (if cp.isZero then [] else [' ']) ++
        ((if cp.isBefore ∧ 0 < value then ['+'] else []) ++ signedText value ++
          ' ' :: (units ++ if value ≠ 1 then ['s'] else []))
      isZero := false
      isBefore := value < 0 }

/-- `AppendSeconds`. -/
def appendSeconds (sec fsec : ℤ) : List Char :=
  padded 2 sec.natAbs ++ if fsec ≠ 0 then '.' :: fractionText fsec.natAbs else []

/-- `interval_out` of an interval, by `interval2itm` and `EncodeInterval`. -/
def intervalOut (months days micros : ℤ) : List Char :=
  let cp := addPostgresIntPart days "day".toList (addPostgresIntPart (months.tmod 12) "mon".toList
    (addPostgresIntPart (months.tdiv 12) "year".toList ⟨[], true, false⟩))
  let hour := micros.tdiv 3600000000
  let min := (micros.tmod 3600000000).tdiv 60000000
  let sec := ((micros.tmod 3600000000).tmod 60000000).tdiv 1000000
  let fsec := ((micros.tmod 3600000000).tmod 60000000).tmod 1000000
  if cp.isZero ∨ hour ≠ 0 ∨ min ≠ 0 ∨ sec ≠ 0 ∨ fsec ≠ 0 then
    cp.text ++ (if cp.isZero then [] else [' ']) ++
      ((if hour < 0 ∨ min < 0 ∨ sec < 0 ∨ fsec < 0 then ['-'] else if cp.isBefore then ['+']
        else []) ++
        (padded 2 hour.natAbs ++ ':' :: (padded 2 min.natAbs ++ ':' :: appendSeconds sec fsec)))
  else cp.text

/-! ### Words -/

/-- The sign of a number after a part that was negative, or not. -/
def signPrefix (before : Bool) (value : ℤ) : List Char :=
  if value < 0 then ['-'] else if before ∧ 0 < value then ['+'] else []

/-- The two that print intervals. -/
inductive Printer where
  | source
  | postgres

/-- The numbers whose unit is in the plural. -/
def Printer.plural : Printer → ℤ → Bool
  | .source, value => value.natAbs ≠ 1
  | .postgres, value => value ≠ 1

/-- Whether a positive number has its sign: never in the source, after a negative part in
PostgreSQL. -/
def Printer.signs : Printer → Bool → Bool
  | .source, _ => false
  | .postgres, before => before

/-- The words of a part. -/
def partWords (p : Printer) (before : Bool) (value : ℤ) (units : List Char) : List (List Char) :=
  if value = 0 then []
  else [signPrefix (p.signs before) value ++ Nat.toDigits 10 value.natAbs,
    units ++ if p.plural value then ['s'] else []]

/-- Whether the last part was negative. -/
def nextBefore (before : Bool) (value : ℤ) : Bool := if value = 0 then before else value < 0

/-- The seconds of a time. -/
def secondsText (abs : ℕ) : List Char :=
  padded 2 (abs % 60000000 / 1000000) ++
    if abs % 1000000 ≠ 0 then '.' :: fractionText (abs % 1000000) else []

/-- A time without its sign. -/
def clockText (abs : ℕ) : List Char :=
  List.intercalate [':'] [padded 2 (abs / 3600000000), padded 2 (abs % 3600000000 / 60000000),
    secondsText abs]

/-- The word of a time, which is left out for no time if there are others. -/
def timeWords (p : Printer) (before : Bool) (micros : ℤ) (others : List (List Char)) :
    List (List Char) :=
  if micros ≠ 0 ∨ others = [] then
    [signPrefix (p.signs before) micros ++ clockText micros.natAbs]
  else []

/-- The words of the years, the months and the days. -/
def unitWords (p : Printer) (months days : ℤ) : List (List Char) :=
  let before := nextBefore (nextBefore false (months.tdiv 12)) (months.tmod 12)
  partWords p false (months.tdiv 12) "year".toList ++
    (partWords p (nextBefore false (months.tdiv 12)) (months.tmod 12) "mon".toList ++
      partWords p before days "day".toList)

/-- Whether the last of them is negative. -/
def unitBefore (months days : ℤ) : Bool :=
  nextBefore (nextBefore (nextBefore false (months.tdiv 12)) (months.tmod 12)) days

/-- The words of an interval. -/
def intervalWords (p : Printer) (months days micros : ℤ) : List (List Char) :=
  unitWords p months days ++
    timeWords p (unitBefore months days) micros (unitWords p months days)

lemma spaced_singleton (part : List Char) : spaced [part] = part := List.append_nil part

lemma spaced_append (parts : List (List Char)) {more : List (List Char)} (hmore : more ≠ []) :
    spaced (parts ++ more) = spaced parts ++ (if parts.isEmpty then [] else [' ']) ++
      spaced more := by
  induction parts with
  | nil => rfl
  | cons part parts ih =>
    cases parts with
    | nil =>
      obtain ⟨m, ms, rfl⟩ := List.exists_cons_of_ne_nil hmore
      simp [spaced, List.intercalate]
    | cons next parts =>
      have hstep : ∀ l, spaced (part :: next :: l) = part ++ ' ' :: spaced (next :: l) :=
        fun l => by
        simp [spaced, List.intercalate]
      rw [List.cons_append, List.cons_append, hstep, ← List.cons_append, ih, hstep]
      simp only [List.append_assoc, List.cons_append, List.isEmpty_cons]

variable {p : Printer} {before : Bool} {value months days micros : ℤ} {units word : List Char}

lemma partWords_eq_nil :
    partWords p before value units = [] ↔ value = 0 := by
  refine ⟨fun hnil => ?_, fun hzero => if_pos hzero⟩
  by_contra hne
  rw [partWords, if_neg hne] at hnil
  cases hnil

lemma unitWords_eq_nil :
    unitWords p months days = [] ↔ months.tdiv 12 = 0 ∧ months.tmod 12 = 0 ∧ days = 0 := by
  simp only [unitWords, List.append_eq_nil_iff, partWords_eq_nil]

/-- Nothing printed, nothing negative. -/
lemma unitBefore_of_nil (h : unitWords p months days = []) :
    unitBefore months days = false := by
  obtain ⟨hyears, hmons, hdays⟩ := unitWords_eq_nil.mp h
  rw [unitBefore, nextBefore, nextBefore, nextBefore, if_pos hdays, if_pos hmons, if_pos hyears]

/-- One part more. -/
lemma addPostgresIntPart_spaced (value : ℤ) (units : List Char) (words : List (List Char))
    (before : Bool) :
    addPostgresIntPart value units ⟨spaced words, words.isEmpty, before⟩ =
      ⟨spaced (words ++ partWords .postgres before value units),
        (words ++ partWords .postgres before value units).isEmpty, nextBefore before value⟩ := by
  by_cases hzero : value = 0
  · rw [addPostgresIntPart, partWords, nextBefore, if_pos hzero, if_pos hzero, if_pos hzero,
      List.append_nil]
  · rw [addPostgresIntPart, partWords, nextBefore, if_neg hzero, if_neg hzero, if_neg hzero,
      spaced_append words (List.cons_ne_nil _ _)]
    have hsign : (if before = true ∧ 0 < value then ['+'] else []) ++ signedText value =
        signPrefix before value ++ Nat.toDigits 10 value.natAbs := by
      rw [signedText, signPrefix, ← List.append_assoc]
      by_cases hneg : value < 0
      · rw [if_neg fun h => by omega, if_pos hneg, List.nil_append]
      · rw [if_neg hneg, if_neg hneg, List.append_nil]
    rw [hsign]
    simp [spaced, List.intercalate, Printer.signs, Printer.plural]

/-- The fields of a time that is not negative. -/
lemma clock_fields (h : 0 ≤ micros) :
    micros.tdiv 3600000000 = micros / 3600000000 ∧
      (micros.tmod 3600000000).tdiv 60000000 = micros % 3600000000 / 60000000 ∧
      ((micros.tmod 3600000000).tmod 60000000).tdiv 1000000 = micros % 60000000 / 1000000 ∧
      ((micros.tmod 3600000000).tmod 60000000).tmod 1000000 = micros % 1000000 := by
  have hhour : 0 ≤ micros % 3600000000 := by omega
  have hmin : 0 ≤ micros % 3600000000 % 60000000 := by omega
  rw [Int.tdiv_eq_ediv_of_nonneg h, Int.tmod_eq_emod_of_nonneg h, Int.tdiv_eq_ediv_of_nonneg hhour,
    Int.tmod_eq_emod_of_nonneg hhour, Int.tdiv_eq_ediv_of_nonneg hmin,
      Int.tmod_eq_emod_of_nonneg hmin]
  omega

/-- The time with its sign, as PostgreSQL prints it. -/
lemma timeText_eq (micros : ℤ) (before : Bool) (hbefore : before = true → micros ≠ 0) :
    let hour := micros.tdiv 3600000000
    let min := (micros.tmod 3600000000).tdiv 60000000
    let sec := ((micros.tmod 3600000000).tmod 60000000).tdiv 1000000
    let fsec := ((micros.tmod 3600000000).tmod 60000000).tmod 1000000
    ((hour ≠ 0 ∨ min ≠ 0 ∨ sec ≠ 0 ∨ fsec ≠ 0) ↔ micros ≠ 0) ∧
      (if hour < 0 ∨ min < 0 ∨ sec < 0 ∨ fsec < 0 then ['-'] else if before then ['+'] else []) ++
        (padded 2 hour.natAbs ++ ':' :: (padded 2 min.natAbs ++ ':' :: appendSeconds sec fsec)) =
          signPrefix before micros ++ clockText micros.natAbs := by
  intro hour min sec fsec
  have hfields : hour.natAbs = micros.natAbs / 3600000000 ∧
      min.natAbs = micros.natAbs % 3600000000 / 60000000 ∧
      sec.natAbs = micros.natAbs % 60000000 / 1000000 ∧ fsec.natAbs = micros.natAbs % 1000000 ∧
      ((hour ≠ 0 ∨ min ≠ 0 ∨ sec ≠ 0 ∨ fsec ≠ 0) ↔ micros ≠ 0) ∧
      ((hour < 0 ∨ min < 0 ∨ sec < 0 ∨ fsec < 0) ↔ micros < 0) := by
    rcases le_total 0 micros with hpos | hneg
    · obtain ⟨h₁, h₂, h₃, h₄⟩ := clock_fields hpos
      simp only [hour, min, sec, fsec, h₁, h₂, h₃, h₄]
      omega
    · obtain ⟨h₁, h₂, h₃, h₄⟩ := clock_fields (Int.neg_nonneg_of_nonpos hneg)
      simp only [Int.neg_tdiv, Int.neg_tmod] at h₁ h₂ h₃ h₄
      simp only [hour, min, sec, fsec]
      omega
  obtain ⟨h₁, h₂, h₃, h₄, hne, hneg⟩ := hfields
  refine ⟨hne, ?_⟩
  have hfsec : fsec ≠ 0 ↔ micros.natAbs % 1000000 ≠ 0 := by omega
  have hsign : (if hour < 0 ∨ min < 0 ∨ sec < 0 ∨ fsec < 0 then ['-'] else if before then ['+']
    else []) =
      signPrefix before micros := by
    rw [signPrefix]
    by_cases hlt : micros < 0
    · rw [if_pos hlt, if_pos (hneg.mpr hlt)]
    · rw [if_neg hlt, if_neg fun h => hlt (hneg.mp h)]
      refine if_congr ⟨fun hb => ⟨hb, ?_⟩, fun h => h.1⟩ rfl rfl
      have := hbefore hb
      omega
  rw [hsign, h₁, h₂, appendSeconds, h₃, h₄, if_congr hfsec rfl rfl]
  simp [clockText, secondsText, List.intercalate]

/-- **PostgreSQL's text is made of words.** -/
lemma intervalOut_eq (months days micros : ℤ) :
    intervalOut months days micros = spaced (intervalWords .postgres months days micros) := by
  have hunits : addPostgresIntPart days "day".toList (addPostgresIntPart (months.tmod 12)
      "mon".toList (addPostgresIntPart (months.tdiv 12) "year".toList ⟨[], true, false⟩)) =
        ⟨spaced (unitWords .postgres months days), (unitWords .postgres months days).isEmpty,
          unitBefore months days⟩ := by
    have hstart : (⟨[], true, false⟩ : IntervalBuffer) =
        ⟨spaced [], ([] : List (List Char)).isEmpty, false⟩ := rfl
    rw [hstart, addPostgresIntPart_spaced, addPostgresIntPart_spaced, addPostgresIntPart_spaced,
      unitWords, unitBefore, List.nil_append, List.append_assoc]
  rw [intervalOut, hunits, intervalWords, timeWords]
  by_cases hprint : micros ≠ 0 ∨ unitWords .postgres months days = []
  · have hbefore : unitBefore months days = true → micros ≠ 0 := by
      intro hb
      refine hprint.resolve_right fun hnil => ?_
      rw [unitBefore_of_nil hnil] at hb
      cases hb
    obtain ⟨hne, htext⟩ := timeText_eq micros (unitBefore months days) hbefore
    rw [if_pos hprint, spaced_append _ (List.cons_ne_nil _ _), spaced_singleton, if_pos]
    · exact congrArg _ htext
    · rw [List.isEmpty_iff, or_comm, hne]
      exact hprint
  · obtain ⟨hne, -⟩ := timeText_eq micros false fun h => by cases h
    rw [if_neg hprint, List.append_nil, if_neg]
    rw [List.isEmpty_iff, or_comm, hne]
    exact hprint

/-- Texts that are the same words. -/
def SameText (parts words : List (List Char)) : Prop :=
  spaced parts = spaced words ∧ (parts = [] ↔ words = [])

lemma SameText.append {parts words more moreWords : List (List Char)} (h : SameText parts words)
    (hmore : SameText more moreWords) : SameText (parts ++ more) (words ++ moreWords) := by
  obtain ⟨htext, hnil⟩ := h
  obtain ⟨hmoreText, hmoreNil⟩ := hmore
  refine ⟨?_, by rw [List.append_eq_nil_iff, List.append_eq_nil_iff, hnil, hmoreNil]⟩
  by_cases hempty : moreWords = []
  · rw [hempty, hmoreNil.mpr hempty, List.append_nil, List.append_nil, htext]
  · have hisEmpty : parts.isEmpty = words.isEmpty := by
      rw [Bool.eq_iff_iff, List.isEmpty_iff, List.isEmpty_iff, hnil]
    rw [spaced_append _ hempty, spaced_append _ fun h => hempty (hmoreNil.mp h), htext, hmoreText,
      hisEmpty]

lemma signPrefix_false (value : ℤ) :
    signPrefix false value = if value < 0 then ['-'] else [] := by
  rw [signPrefix, if_neg (c := false = true ∧ 0 < value) fun h => Bool.noConfusion h.1]

/-- A part of the source's text is a number and its unit. -/
lemma unitPart_same (before : Bool) (value : ℤ) (units : List Char) :
    SameText (unitPart value units (units ++ ['s'])) (partWords .source before value units) := by
  by_cases hzero : value = 0
  · rw [unitPart, partWords, if_neg (not_not.mpr hzero), if_pos hzero]
    exact ⟨rfl, Iff.rfl⟩
  · rw [unitPart, partWords, if_pos hzero, if_neg hzero, formatUnit, signedText, Printer.signs,
      signPrefix_false]
    refine ⟨?_, iff_of_false (List.cons_ne_nil _ _) (List.cons_ne_nil _ _)⟩
    by_cases hone : value.natAbs = 1
    · simp [spaced, List.intercalate, Printer.plural, hone]
    · simp [spaced, List.intercalate, Printer.plural, hone]

/-- **The source's text is made of words.** -/
lemma formatIntervalParts_eq (months days : ℤ) (h : micros ≠ -2 ^ 63) :
    formatIntervalParts months days micros =
      some (spaced (intervalWords .source months days micros)) := by
  have hunits : SameText (unitPart (months.tdiv 12) "year".toList "years".toList ++
      unitPart (months.tmod 12) "mon".toList "mons".toList ++
        unitPart days "day".toList "days".toList) (unitWords .source months days) := by
    rw [unitWords, ← List.append_assoc]
    exact ((unitPart_same _ _ _).append (unitPart_same _ _ _)).append (unitPart_same _ _ _)
  have htime : formatTime micros = some (signPrefix false micros ++ clockText micros.natAbs) := by
    rw [formatTime, checkedAbs, if_neg h, signPrefix_false]
    by_cases hfraction : micros.natAbs % 1000000 = 0
    · simp [clockText, secondsText, List.intercalate, hfraction]
    · simp [clockText, secondsText, List.intercalate, hfraction]
  rw [formatIntervalParts, intervalWords, timeWords]
  by_cases hprint : micros ≠ 0 ∨ unitWords .source months days = []
  · rw [if_pos (by rwa [hunits.2]), if_pos hprint, htime]
    exact congrArg some (hunits.append ⟨rfl, Iff.rfl⟩).1
  · rw [if_neg (by rwa [hunits.2]), if_neg hprint, List.append_nil, ← hunits.1]
    rfl

/-- The least time has no text. -/
lemma formatIntervalParts_least (months days : ℤ) :
    formatIntervalParts months days (-2 ^ 63) = none := by
  rw [formatIntervalParts, if_pos (.inl (by decide)), formatTime, checkedAbs, if_pos rfl]
  rfl

/-! ### Reading the words -/

/-- A number behind a sign. -/
def readSign (read : List Char → ℕ) : List Char → ℤ
  | '-' :: rest => -(read rest : ℤ)
  | '+' :: rest => read rest
  | rest => read rest

/-- The number in front of a unit, and what follows. -/
def readPart (units : List Char) : List (List Char) → ℤ × List (List Char)
  | value :: name :: rest =>
    if name = units ∨ name = units ++ ['s'] then (readSign (Nat.ofDigitChars 10 · 0) value, rest)
    else (0, value :: name :: rest)
  | rest => (0, rest)

/-- The seconds of a time. -/
def readSeconds (text : List Char) : ℕ :=
  match text.splitOn '.' with
  | [seconds] => Nat.ofDigitChars 10 seconds 0 * 1000000
  | [seconds, fraction] =>
    Nat.ofDigitChars 10 seconds 0 * 1000000 + Nat.ofDigitChars 10 (fraction.rightpad 6 '0') 0
  | _ => 0

/-- A time without its sign. -/
def readClock (text : List Char) : ℕ :=
  match text.splitOn ':' with
  | [hours, minutes, seconds] =>
    Nat.ofDigitChars 10 hours 0 * 3600000000 + Nat.ofDigitChars 10 minutes 0 * 60000000 +
      readSeconds seconds
  | _ => 0

lemma padded_eq (width n : ℕ) : ∃ k, padded width n = List.replicate k '0' ++ Nat.toDigits 10 n :=
  ⟨_, rfl⟩

lemma padded_isDigit {width n : ℕ} {c : Char} (hc : c ∈ padded width n) : c.isDigit = true := by
  obtain ⟨k, hk⟩ := padded_eq width n
  rw [hk, List.mem_append] at hc
  rcases hc with hc | hc
  · rw [List.eq_of_mem_replicate hc]
    rfl
  · exact Sql.toDigits_isDigit hc

variable {c : Char}

lemma not_mem_padded {width n : ℕ} (hc : c.isDigit = false) : c ∉ padded width n := by
  intro hmem
  rw [padded_isDigit hmem] at hc
  cases hc

lemma read_padded (width n : ℕ) : Nat.ofDigitChars 10 (padded width n) 0 = n := by
  obtain ⟨k, hk⟩ := padded_eq width n
  rw [hk, Sql.ofDigitChars_zeros, Nat.zero_mul, Nat.ofDigitChars_toDigits (by decide) (by decide)]

/-- The zeros come back. -/
lemma fractionText_rightpad {fraction : ℕ} (h : fraction < 1000000) :
    (fractionText fraction).rightpad 6 '0' = padded 6 fraction := by
  have hlen : (padded 6 fraction).length = 6 := by
    rw [padded, List.length_leftpad, max_eq_left]
    exact (Nat.length_toDigits_le_iff (by decide) (by decide)).mpr h
  have hsplit : fractionText fraction ++ (padded 6 fraction).rtakeWhile (· == '0') =
    padded 6 fraction :=
    List.rdropWhile_append_rtakeWhile
  have hzeros : (padded 6 fraction).rtakeWhile (· == '0') =
      List.replicate ((padded 6 fraction).rtakeWhile (· == '0')).length '0' :=
    List.eq_replicate_of_mem fun c hc => by
      have hzero := List.mem_rtakeWhile_imp hc
      exact eq_of_beq hzero
  have hcount : 6 - (fractionText fraction).length =
    ((padded 6 fraction).rtakeWhile (· == '0')).length := by
    have := congrArg List.length hsplit
    rw [List.length_append, hlen] at this
    omega
  rw [List.rightpad, hcount, ← hzeros, hsplit]

lemma fractionText_isDigit {fraction : ℕ} (hc : c ∈ fractionText fraction) : c.isDigit = true :=
  padded_isDigit ((List.rdropWhile_prefix _ _).subset hc)

/-- What occurs in the seconds. -/
lemma mem_secondsText {abs : ℕ} (hc : c ∈ secondsText abs) : c.isDigit = true ∨ c = '.' := by
  rw [secondsText, List.mem_append] at hc
  rcases hc with hc | hc
  · exact .inl (padded_isDigit hc)
  · split_ifs at hc with hfraction
    · rcases List.mem_cons.mp hc with rfl | hc
      · exact .inr rfl
      · exact .inl (fractionText_isDigit hc)
    · cases hc

lemma readSeconds_secondsText (abs : ℕ) : readSeconds (secondsText abs) = abs % 60000000 := by
  have hpoint : ∀ {n : ℕ}, '.' ∉ padded 2 n := not_mem_padded rfl
  by_cases hfraction : abs % 1000000 = 0
  · have htext : secondsText abs = List.intercalate ['.']
      [padded 2 (abs % 60000000 / 1000000)] := by
      simp [secondsText, hfraction, List.intercalate]
    have hsplit : (secondsText abs).splitOn '.' = [padded 2 (abs % 60000000 / 1000000)] := by
      rw [htext]
      refine List.splitOn_intercalate '.' (fun l hl => ?_) (List.cons_ne_nil _ _)
      rw [List.mem_singleton.mp hl]
      exact hpoint
    rw [readSeconds, hsplit]
    dsimp only
    rw [read_padded]
    omega
  · have htext : secondsText abs =
        List.intercalate ['.']
          [padded 2 (abs % 60000000 / 1000000), fractionText (abs % 1000000)] := by
      simp [secondsText, hfraction, List.intercalate]
    have hsplit : (secondsText abs).splitOn '.' =
        [padded 2 (abs % 60000000 / 1000000), fractionText (abs % 1000000)] := by
      rw [htext]
      refine List.splitOn_intercalate '.' (fun l hl => ?_) (List.cons_ne_nil _ _)
      rcases List.mem_pair.mp hl with rfl | rfl
      · exact hpoint
      · exact fun hmem => absurd (fractionText_isDigit hmem) (by decide)
    rw [readSeconds, hsplit]
    dsimp only
    rw [read_padded, fractionText_rightpad (Nat.mod_lt _ (by decide)), read_padded]
    omega

lemma readClock_clockText (abs : ℕ) : readClock (clockText abs) = abs := by
  have hsplit : (clockText abs).splitOn ':' =
      [padded 2 (abs / 3600000000), padded 2 (abs % 3600000000 / 60000000), secondsText abs] := by
    refine List.splitOn_intercalate ':' (fun l hl => ?_) (List.cons_ne_nil _ _)
    rcases List.mem_cons.mp hl with rfl | hl
    · exact not_mem_padded rfl
    · rcases List.mem_pair.mp hl with rfl | rfl
      · exact not_mem_padded rfl
      · exact fun hmem => absurd (mem_secondsText hmem) (by decide)
  rw [readClock, hsplit]
  dsimp only
  rw [read_padded, read_padded, readSeconds_secondsText]
  omega

/-- A text that begins with a digit is read behind its sign. -/
lemma readSign_signPrefix {read : List Char → ℕ} {rest : List Char} (before : Bool)
    (hc : c.isDigit = true) (hread : read (c :: rest) = value.natAbs) :
    readSign read (signPrefix before value ++ c :: rest) = value := by
  rw [signPrefix]
  split_ifs with hneg hplus
  · rw [List.singleton_append, readSign, hread]
    omega
  · rw [List.singleton_append, readSign, hread]
    omega
  · have hplain : readSign read (c :: rest) = read (c :: rest) := by
      rw [readSign.eq_def]
      split
      next heq =>
        obtain ⟨rfl, -⟩ := List.cons.inj heq
        cases hc
      next heq =>
        obtain ⟨rfl, -⟩ := List.cons.inj heq
        cases hc
      next => rfl
    rw [List.nil_append, hplain, hread]
    omega

/-- A word of digits behind a sign. -/
lemma readSign_digits (before : Bool) (value : ℤ) :
    readSign (Nat.ofDigitChars 10 · 0) (signPrefix before value ++ Nat.toDigits 10 value.natAbs) =
      value := by
  obtain ⟨c, rest, hdigits⟩ :=
    List.exists_cons_of_ne_nil (Nat.toDigits_ne_nil (b := 10) (n := value.natAbs))
  rw [hdigits]
  refine readSign_signPrefix before (Sql.toDigits_isDigit (n := value.natAbs) ?_) ?_
  · rw [hdigits]
    exact List.mem_cons_self
  · rw [← hdigits, Nat.ofDigitChars_toDigits (by decide) (by decide)]

/-- A time behind a sign. -/
lemma readSign_clock (before : Bool) (micros : ℤ) :
    readSign readClock (signPrefix before micros ++ clockText micros.natAbs) = micros := by
  obtain ⟨k, hk⟩ := padded_eq 2 (micros.natAbs / 3600000000)
  have hne : padded 2 (micros.natAbs / 3600000000) ≠ [] := by
    rw [hk]
    exact List.append_ne_nil_of_right_ne_nil _ Nat.toDigits_ne_nil
  obtain ⟨c, rest, hdigits⟩ := List.exists_cons_of_ne_nil hne
  obtain ⟨tail, htail⟩ : ∃ tail, clockText micros.natAbs = c :: tail := by
    rw [clockText, hdigits]
    exact ⟨_, rfl⟩
  rw [htail]
  refine readSign_signPrefix before (@padded_isDigit 2 (micros.natAbs / 3600000000) c ?_) ?_
  · rw [hdigits]
    exact List.mem_cons_self
  · rw [← htail, readClock_clockText]

/-! ### Distinct intervals -/

/-- A word with a digit. -/
def HasDigit (word : List Char) : Prop := ∃ c ∈ word, c.isDigit = true

lemma hasDigit_number (before : Bool) (value : ℤ) :
    HasDigit (signPrefix before value ++ Nat.toDigits 10 value.natAbs) := by
  obtain ⟨c, hc⟩ := List.exists_mem_of_ne_nil _ (Nat.toDigits_ne_nil (b := 10) (n := value.natAbs))
  exact ⟨c, List.mem_append_right _ hc, Sql.toDigits_isDigit hc⟩

lemma hasDigit_time (before : Bool) (micros : ℤ) :
    HasDigit (signPrefix before micros ++ clockText micros.natAbs) := by
  obtain ⟨k, hk⟩ := padded_eq 2 (micros.natAbs / 3600000000)
  obtain ⟨c, hc⟩ := List.exists_mem_of_ne_nil _
    (Nat.toDigits_ne_nil (b := 10) (n := micros.natAbs / 3600000000))
  refine ⟨c, List.mem_append_right _ ?_, Sql.toDigits_isDigit hc⟩
  rw [clockText, hk]
  exact List.mem_append_left _ (List.mem_append_right _ hc)

lemma mem_signPrefix (hc : c ∈ signPrefix before value) :
    c = '-' ∨ c = '+' := by
  rw [signPrefix] at hc
  split_ifs at hc
  · exact .inl (List.mem_singleton.mp hc)
  · exact .inr (List.mem_singleton.mp hc)
  · cases hc

lemma mem_partWords
    (h : word ∈ partWords p before value units) :
    HasDigit word ∧ ' ' ∉ word ∨ word = units ∨ word = units ++ ['s'] := by
  by_cases hzero : value = 0
  · rw [partWords, if_pos hzero] at h
    cases h
  · rw [partWords, if_neg hzero, List.mem_pair] at h
    rcases h with rfl | rfl
    · refine .inl ⟨hasDigit_number _ value, fun hmem => ?_⟩
      rcases List.mem_append.mp hmem with hmem | hmem
      · exact absurd (mem_signPrefix hmem) (by decide)
      · exact absurd (Sql.toDigits_isDigit hmem) (by decide)
    · split_ifs with hone
      · exact .inr (.inr rfl)
      · exact .inr (.inl (List.append_nil _))

/-- What occurs in a time. -/
lemma mem_clockText {abs : ℕ} (hc : c ∈ clockText abs) : c.isDigit = true ∨ c = '.' ∨ c = ':' := by
  have htext : clockText abs = padded 2 (abs / 3600000000) ++
      ':' :: (padded 2 (abs % 3600000000 / 60000000) ++ ':' :: secondsText abs) := by
    simp [clockText, List.intercalate]
  simp only [htext, List.mem_append, List.mem_cons] at hc
  rcases hc with hc | hc | hc | hc | hc
  · exact .inl (padded_isDigit hc)
  · exact .inr (.inr hc)
  · exact .inl (padded_isDigit hc)
  · exact .inr (.inr hc)
  · exact (mem_secondsText hc).imp_right .inl

lemma mem_timeWords {others : List (List Char)}
    (h : word ∈ timeWords p before micros others) : HasDigit word ∧ ' ' ∉ word := by
  rw [timeWords] at h
  split_ifs at h
  · obtain rfl := List.mem_singleton.mp h
    refine ⟨hasDigit_time _ micros, fun hmem => ?_⟩
    rcases List.mem_append.mp hmem with hmem | hmem
    · exact absurd (mem_signPrefix hmem) (by decide)
    · exact absurd (mem_clockText hmem) (by decide)
  · cases h

/-- A part is read off the front of the words. -/
lemma readPart_partWords {rest : List (List Char)} (p : Printer)
    (before : Bool) (value : ℤ) (hrest : ∀ word ∈ rest, word ≠ units ∧ word ≠ units ++ ['s']) :
    readPart units (partWords p before value units ++ rest) = (value, rest) := by
  by_cases hzero : value = 0
  · rw [partWords, if_pos hzero, hzero, List.nil_append]
    match rest, hrest with
    | [], _ => rfl
    | [word], _ => rfl
    | value :: name :: rest, hrest =>
      obtain ⟨hname, hnames⟩ := hrest name (List.mem_cons_of_mem _ List.mem_cons_self)
      rw [readPart, if_neg (not_or.mpr ⟨hname, hnames⟩)]
  · rw [partWords, if_neg hzero, List.cons_append, List.cons_append, List.nil_append, readPart,
      readSign_digits, if_pos]
    split_ifs with hone
    · exact .inr rfl
    · exact .inl (List.append_nil _)

/-- A word with a digit is not taken for a unit. -/
lemma ne_units (h : HasDigit word) (hunits : ∀ c ∈ units, c.isDigit = false) :
    word ≠ units ∧ word ≠ units ++ ['s'] := by
  obtain ⟨c, hc, hdigit⟩ := h
  constructor
  · rintro rfl
    rw [hunits c hc] at hdigit
    cases hdigit
  · rintro rfl
    rcases List.mem_append.mp hc with hc | hc
    · rw [hunits c hc] at hdigit
      cases hdigit
    · rw [List.mem_singleton.mp hc] at hdigit
      cases hdigit

/-- The words of one unit are not taken for another. -/
lemma partWords_ne {other : List Char} (hother : ∀ c ∈ other, c.isDigit = false)
    (hunits : (units ≠ other ∧ units ≠ other ++ ['s']) ∧
      units ++ ['s'] ≠ other ∧ units ++ ['s'] ≠ other ++ ['s']) :
    ∀ word ∈ partWords p before value units, word ≠ other ∧ word ≠ other ++ ['s'] := by
  intro word hword
  rcases mem_partWords hword with ⟨hdigit, -⟩ | rfl | rfl
  · exact ne_units hdigit hother
  · exact hunits.1
  · exact hunits.2

/-- The interval that the words stand for. -/
def readInterval (words : List (List Char)) : ℤ × ℤ × ℤ :=
  let (years, words) := readPart "year".toList words
  let (mons, words) := readPart "mon".toList words
  let (days, words) := readPart "day".toList words
  (12 * years + mons, days, (words.head?.map (readSign readClock)).getD 0)

/-- The parts are read one after the other. -/
lemma readInterval_parts {b₁ b₂ b₃ : Bool} {years mons : ℤ}
    {time : List (List Char)} (htime : ∀ word ∈ time, HasDigit word) :
    readInterval (partWords p b₁ years "year".toList ++ (partWords p b₂ mons "mon".toList ++
      (partWords p b₃ days "day".toList ++ time))) =
        (12 * years + mons, days, (time.head?.map (readSign readClock)).getD 0) := by
  have hne : ∀ {units : List Char}, (∀ c ∈ units, c.isDigit = false) →
      ∀ word ∈ time, word ≠ units ∧ word ≠ units ++ ['s'] :=
    fun hunits word hword => ne_units (htime word hword) hunits
  rw [readInterval, readPart_partWords _ _ _ (List.forall_mem_append.mpr
    ⟨partWords_ne (by decide) (by decide),
      List.forall_mem_append.mpr ⟨partWords_ne (by decide) (by decide), hne (by decide)⟩⟩)]
  dsimp only
  rw [readPart_partWords _ _ _ (List.forall_mem_append.mpr
    ⟨partWords_ne (by decide) (by decide), hne (by decide)⟩)]
  dsimp only
  rw [readPart_partWords _ _ _ (hne (by decide))]

lemma readInterval_intervalWords (p : Printer) (months days micros : ℤ) :
    readInterval (intervalWords p months days micros) = (months, days, micros) := by
  have hread : ((timeWords p (unitBefore months days) micros (unitWords p months days)).head?.map
      (readSign readClock)).getD 0 = micros := by
    rw [timeWords]
    split_ifs with hprint
    · exact readSign_clock _ micros
    · exact (not_not.mp (not_or.mp hprint).1).symm
  rw [intervalWords]
  nth_rewrite 1 [unitWords]
  rw [List.append_assoc, List.append_assoc,
    readInterval_parts fun word hword => (mem_timeWords hword).1, hread, Int.mul_tdiv_add_tmod]

lemma intervalWords_blank :
    ∀ word ∈ intervalWords p months days micros, ' ' ∉ word := by
  have hpart : ∀ {b value} {units : List Char}, ' ' ∉ units → ' ' ∉ units ++ ['s'] →
      ∀ word ∈ partWords p b value units, ' ' ∉ word := by
    intro b value units hunits hplural word hword
    rcases mem_partWords hword with ⟨-, hblank⟩ | rfl | rfl
    · exact hblank
    · exact hunits
    · exact hplural
  rw [intervalWords]
  nth_rewrite 1 [unitWords]
  simp only [List.forall_mem_append]
  exact ⟨⟨hpart (by decide) (by decide), hpart (by decide) (by decide),
    hpart (by decide) (by decide)⟩, fun word hword => (mem_timeWords hword).2⟩

/-- The words are found in the text. -/
lemma splitOn_spaced_intervalWords (p : Printer) (months days micros : ℤ) :
    (spaced (intervalWords p months days micros)).splitOn ' ' =
      intervalWords p months days micros := by
  refine List.splitOn_intercalate ' ' intervalWords_blank fun hnil => ?_
  rw [intervalWords, timeWords, List.append_eq_nil_iff] at hnil
  rw [if_pos (.inr hnil.1)] at hnil
  cases hnil.2

lemma spaced_intervalWords_inj {q : Printer} {months' days' micros' : ℤ} :
    spaced (intervalWords p months days micros) = spaced (intervalWords q months' days' micros') ↔
      intervalWords p months days micros = intervalWords q months' days' micros' := by
  refine ⟨fun h => ?_, congrArg spaced⟩
  rw [← splitOn_spaced_intervalWords, h, splitOn_spaced_intervalWords]

/-- **Distinct intervals are printed as distinct texts.** -/
lemma formatIntervalParts_injective {months' days' micros' : ℤ} (hmicros : micros ≠ -2 ^ 63)
    (h : formatIntervalParts months days micros = formatIntervalParts months' days' micros') :
    (months, days, micros) = (months', days', micros') := by
  rw [formatIntervalParts_eq months days hmicros] at h
  have hmicros' : micros' ≠ -2 ^ 63 := by
    rintro rfl
    rw [formatIntervalParts_least] at h
    cases h
  rw [formatIntervalParts_eq months' days' hmicros', Option.some_inj,
    spaced_intervalWords_inj] at h
  rw [← readInterval_intervalWords .source months days micros, h, readInterval_intervalWords]

/-! ### Where the printers agree -/

/-- No year, month or day is minus one, no positive part follows a negative one, and the time has
an absolute value. -/
structure Plain (months days micros : ℤ) : Prop where
  yearsNe : months.tdiv 12 ≠ -1
  monsNe : months.tmod 12 ≠ -1
  daysNe : days ≠ -1
  daysSign : months < 0 → days ≤ 0
  timeSign : days < 0 ∨ days = 0 ∧ months < 0 → micros ≤ 0
  timeNe : micros ≠ -2 ^ 63

/-- The sign of a number in front of its digits. -/
lemma signPrefix_agree :
    signPrefix false value = signPrefix before value ↔ before = true → value ≤ 0 := by
  rw [signPrefix_false, signPrefix]
  by_cases hneg : value < 0
  · rw [if_pos hneg, if_pos hneg]
    exact iff_of_true rfl fun _ => hneg.le
  · rw [if_neg hneg, if_neg hneg]
    by_cases hplus : before = true ∧ 0 < value
    · rw [if_pos hplus]
      exact iff_of_false (List.cons_ne_nil _ _).symm fun h => absurd (h hplus.1) (by omega)
    · rw [if_neg hplus]
      exact iff_of_true rfl fun hb => not_lt.mp fun hpos => hplus ⟨hb, hpos⟩

/-- A part is printed alike unless it is minus one or gets a plus. -/
lemma partWords_agree :
    partWords .source before value units = partWords .postgres before value units ↔
      value ≠ -1 ∧ (before = true → value ≤ 0) := by
  by_cases hzero : value = 0
  · rw [partWords, partWords, if_pos hzero, if_pos hzero]
    exact iff_of_true rfl ⟨by omega, fun _ => hzero.le⟩
  · have hplural : (if Printer.plural .source value then ['s'] else []) =
        (if Printer.plural .postgres value then ['s'] else []) ↔ value ≠ -1 := by
      by_cases hone : value = -1
      · subst hone
        decide
      · have hsame : Printer.plural .source value = Printer.plural .postgres value := by
          rw [Printer.plural, Printer.plural, decide_eq_decide]
          omega
        rw [hsame]
        exact iff_of_true rfl hone
    rw [partWords, partWords, if_neg hzero, if_neg hzero, List.cons.injEq, List.cons.injEq,
      List.append_left_inj, List.append_right_inj, hplural, and_iff_left rfl, and_comm]
    exact and_congr_right' signPrefix_agree

lemma timeWords_agree {others others' : List (List Char)} (hothers : others' = [] ↔ others = []) :
    timeWords .source before micros others = timeWords .postgres before micros others' ↔
      (before = true → micros ≤ 0) := by
  rw [timeWords, timeWords, if_congr (or_congr_right hothers) rfl rfl]
  split_ifs with hprint
  · rw [List.cons.injEq, List.append_left_inj, and_iff_left rfl]
    exact signPrefix_agree
  · exact iff_of_true rfl fun _ => (not_not.mp (not_or.mp hprint).1).le

/-- The years and the months have one sign. -/
lemma months_before :
    (nextBefore false (months.tdiv 12) = true → months.tmod 12 ≤ 0) ∧
      nextBefore (nextBefore false (months.tdiv 12)) (months.tmod 12) = decide (months < 0) := by
  have hfields : 0 ≤ months ∧ 0 ≤ months.tdiv 12 ∧ 0 ≤ months.tmod 12 ∨
      months < 0 ∧ months.tdiv 12 ≤ 0 ∧ months.tmod 12 ≤ 0 ∧
        (months.tdiv 12 ≠ 0 ∨ months.tmod 12 ≠ 0) := by
    have hsplit := Int.mul_tdiv_add_tmod months 12
    rcases lt_or_ge months 0 with hneg | hpos
    · have hdiv := Int.tdiv_nonneg (Int.neg_nonneg_of_nonpos hneg.le) (show (0 : ℤ) ≤ 12 by decide)
      have hmod := Int.tmod_nonneg 12 (Int.neg_nonneg_of_nonpos hneg.le)
      rw [Int.neg_tdiv] at hdiv
      rw [Int.neg_tmod] at hmod
      omega
    · exact .inl ⟨hpos, Int.tdiv_nonneg hpos (by decide), Int.tmod_nonneg 12 hpos⟩
  simp only [nextBefore]
  constructor
  · intro hb
    split_ifs at hb with hzero
    rw [decide_eq_true_eq] at hb
    omega
  · split_ifs with hmod hdiv
    · rw [eq_comm, decide_eq_false_iff_not]
      omega
    · rw [decide_eq_decide]
      omega
    · rw [decide_eq_decide]
      omega

lemma unitBefore_eq_true :
    unitBefore months days = true ↔ days < 0 ∨ days = 0 ∧ months < 0 := by
  rw [unitBefore, months_before.2, nextBefore]
  split_ifs with hzero
  · rw [decide_eq_true_eq]
    omega
  · rw [decide_eq_true_eq]
    omega

lemma length_partWords (p q : Printer) (before : Bool) (value : ℤ) (units : List Char) :
    (partWords p before value units).length = (partWords q before value units).length := by
  by_cases hzero : value = 0
  · rw [partWords, partWords, if_pos hzero, if_pos hzero]
  · rw [partWords, partWords, if_neg hzero, if_neg hzero]
    rfl

lemma length_unitWords (p q : Printer) (months days : ℤ) :
    (unitWords p months days).length = (unitWords q months days).length := by
  simp only [unitWords, List.length_append]
  rw [length_partWords p q, length_partWords p q, length_partWords p q]

/-- Lists that are made of parts of the same lengths are compared part by part. -/
lemma append_eq_append_iff_of_length {α : Type} {s t s' t' : List α} (h : s.length = s'.length) :
    s ++ t = s' ++ t' ↔ s = s' ∧ t = t' := by
  refine ⟨fun heq => List.append_inj heq h, ?_⟩
  rintro ⟨rfl, rfl⟩
  rfl

/-- The words are the same where each part is printed alike. -/
lemma intervalWords_agree :
    intervalWords .source months days micros = intervalWords .postgres months days micros ↔
      (months.tdiv 12 ≠ -1 ∧ months.tmod 12 ≠ -1 ∧ days ≠ -1 ∧ (months < 0 → days ≤ 0)) ∧
        (days < 0 ∨ days = 0 ∧ months < 0 → micros ≤ 0) := by
  have hunits : unitWords .source months days = unitWords .postgres months days ↔
      months.tdiv 12 ≠ -1 ∧ months.tmod 12 ≠ -1 ∧ days ≠ -1 ∧ (months < 0 → days ≤ 0) := by
    rw [unitWords, unitWords, append_eq_append_iff_of_length (length_partWords _ _ _ _ _),
      append_eq_append_iff_of_length (length_partWords _ _ _ _ _), partWords_agree,
      partWords_agree, partWords_agree, and_iff_left fun h => Bool.noConfusion h,
      and_iff_left months_before.1, months_before.2, decide_eq_true_eq]
  have hnil : unitWords .postgres months days = [] ↔ unitWords .source months days = [] := by
    rw [unitWords_eq_nil, unitWords_eq_nil]
  rw [intervalWords, intervalWords, append_eq_append_iff_of_length (length_unitWords _ _ _ _),
    hunits, timeWords_agree hnil, unitBefore_eq_true]

/-- **Intervals are printed as PostgreSQL prints them** if and only if no year, month or day is
minus one, no positive part follows a negative one and the time has an absolute value; and distinct
intervals are printed as distinct texts. -/
theorem interval_texts_follow (months days micros : ℤ) :
    (formatIntervalParts months days micros = some (intervalOut months days micros) ↔
      Plain months days micros) ∧
      (micros ≠ -2 ^ 63 → ∀ months' days' micros' : ℤ,
        formatIntervalParts months days micros = formatIntervalParts months' days' micros' →
          (months, days, micros) = (months', days', micros')) := by
  refine ⟨?_, fun hmicros months' days' micros' => formatIntervalParts_injective hmicros⟩
  by_cases hmicros : micros = -2 ^ 63
  · subst hmicros
    rw [formatIntervalParts_least]
    exact iff_of_false (Option.some_ne_none _).symm fun h => h.timeNe rfl
  · rw [formatIntervalParts_eq months days hmicros, intervalOut_eq, Option.some_inj,
      spaced_intervalWords_inj, intervalWords_agree]
    constructor
    · rintro ⟨⟨hyears, hmons, hdays, hdaysSign⟩, htime⟩
      exact ⟨hyears, hmons, hdays, hdaysSign, htime, hmicros⟩
    · intro h
      exact ⟨⟨h.yearsNe, h.monsNe, h.daysNe, h.daysSign⟩, h.timeSign⟩

/-- Fourteen months, three days and half a second back. -/
theorem interval_texts_follow_sample :
    formatIntervalParts 14 3 (-500000) = some "1 year 2 mons 3 days -00:00:00.5".toList ∧
      formatIntervalParts 14 3 (-500000) = some (intervalOut 14 3 (-500000)) ∧
      formatIntervalParts 14 3 (-500000) ≠ formatIntervalParts 14 3 0 := by
  have hplain : Plain 14 3 (-500000) := by constructor <;> decide
  obtain ⟨hfollow, hdistinct⟩ := interval_texts_follow 14 3 (-500000)
  exact ⟨by decide +kernel, hfollow.mpr hplain,
    fun heq => absurd (hdistinct (by decide) _ _ _ heq) (by decide)⟩

/-- A year of minus one, a sign after a negative part, and the least time. -/
theorem interval_texts_differ :
    formatIntervalParts (-12) 0 0 = some "-1 year".toList ∧ intervalOut (-12) 0 0 =
      "-1 years".toList ∧ formatIntervalParts (-2) 3 0 = some "-2 mons 3 days".toList ∧
      intervalOut (-2) 3 0 = "-2 mons +3 days".toList ∧
      formatIntervalParts 0 (-2) 3600000000 = some "-2 days 01:00:00".toList ∧
      intervalOut 0 (-2) 3600000000 = "-2 days +01:00:00".toList ∧
      formatIntervalParts 0 0 (-2 ^ 63) = none := by
  decide +kernel

end PgFusion.PgFormat

import PgFusion.Interleave.Calls
import PgFusion.RowEncoder.Rows

/-!
What a page holds after any sequence of calls (`page/row_encoder`).

* `append_spec`, `appendAll_spec`: one call, and any number of them;
* `row_page_round_trip`: the finished page reads back as the rows that were appended;
* `append_row_answers`: a row is refused exactly if there is no room for it.
-/

namespace PgFusion.RowEncoder

open Bytes Fallible ArrowLayout Stateful PageRowEncoder

/-! ### Calls -/

/-- A call that appends a row. -/
inductive Call where
  | row (source : RowSource)
  | fixedWidth (source : FixedWidthRowSource)

namespace Call

/-- The method that is called. -/
def append : Call → Enc AppendStatus
  | row source => appendRow source
  | fixedWidth source => appendFixedWidthRow source

/-- The cells that the call is given. -/
def cells (specs : List ColumnSpec) : Call → ℕ → CellRef
  | row source, i => source i
  | fixedWidth source, i =>
    match specs[i]? with
    | some spec => (source i spec.typeTag).toCell
    | none => .null

/-- The call is given a type-correct row with the values `row`. -/
def Typed (specs : List ColumnSpec) (call : Call) (row : List ArrowLayout.Stored) : Prop :=
  RowTyped specs (call.cells specs) row

end Call

/-- The answers to a sequence of calls, and the encoder after them. -/
def appendAll : List Call → PageRowEncoder →
    List (Except (Halt RowEncodeError) AppendStatus) × PageRowEncoder
  | [], s => ([], s)
  | call :: calls, s =>
    let (r, s') := call.append.run.run s
    let (rs, s'') := appendAll calls s'
    (r :: rs, s'')

/-- The rows whose calls were answered with `appended`. -/
def appendedRows :
    List (Except (Halt RowEncodeError) AppendStatus) → List (List ArrowLayout.Stored) →
    List (List ArrowLayout.Stored)
  | .ok .appended :: answers, row :: rows => row :: appendedRows answers rows
  | _ :: answers, _ :: rows => appendedRows answers rows
  | _, _ => []

section Runs

variable {plan : LayoutPlan} {specs : List ColumnSpec} {nulls : ℕ → ℕ} {tail : ℕ}
  {s s' : PageRowEncoder} {row : List ArrowLayout.Stored} {rows : List (List ArrowLayout.Stored)}

/-- **One call on a type-correct row.** -/
lemma append_spec {n : ℕ} (hg : Good plan nulls n tail s) (h : plan.Valid specs)
    (hsize : plan.blockSize < 0x80000000) {call : Call} (ht : call.Typed specs row) :
    ∃ r s', Ends call.append s r s' ∧ SameOff (touchedRow plan tail n) s.payload s'.payload ∧
      RowEnds plan nulls n tail row r s' := by
  cases call with
  | row source => exact appendRow_spec hg h hsize ht
  | fixedWidth source =>
    refine appendFixedWidthRow_spec hg h hsize ht fun i c hc => ?_
    obtain ⟨spec, hspec, htag, -⟩ := h.spec hc
    simp only [Call.cells, hspec, htag]

/-! ### The page -/

/-- The page holds the rows, with the given null counts, and the tail is in use from
`tail` on. -/
structure PageHolds (plan : LayoutPlan) (rows : List (List ArrowLayout.Stored)) (nulls : ℕ → ℕ)
    (tail : ℕ) (s : PageRowEncoder) : Prop where
  good : Good plan nulls rows.length tail s
  stored : RowsAt s.payload plan tail rows

namespace PageHolds

section

variable (hp : PageHolds plan rows nulls tail s) (h : plan.Valid specs)

include hp h

/-- A call does not change the rows that the page holds. -/
lemma kept (hsame : SameOff (touchedRow plan tail rows.length) s.payload s'.payload) {tail' : ℕ}
    (htail : tail' ≤ tail) : RowsAt s'.payload plan tail' rows := by
  intro k row hk i c v hc hv
  have hlt : k < rows.length := (List.getElem?_eq_some_iff.mp hk).1
  have hst := hp.stored k row hk i c v hc hv
  refine StoredAt.mono ?_ htail
  by_cases hroom : rows.length < plan.maxRows
  · exact storedAt_of_touchedFrom h (hsame.mono fun _ hmem => hmem.2) hp.good.pool_le hc
      (hlt.trans hroom) hroom (Or.inr hlt.ne) hst
  · exact hst.same hsame (fun _ _ hmem => hroom hmem.1) fun _ _ _ hmem => hroom hmem.1

/-- What a call makes of the page. -/
lemma step (hsize : plan.blockSize < 0x80000000) {call : Call} (ht : call.Typed specs row) :
    ∃ r s', Ends call.append s r s' ∧
      (r = .ok .appended ∧ plan.poolBase + longSum row ≤ tail ∧
          PageHolds plan (rows ++ [row]) (countNulls nulls row) (tail - longSum row) s' ∨
        r = .ok .full ∧ PageHolds plan rows nulls tail s' ∨
        (∃ e, r = .error (.error e)) ∧ ∃ nulls' tail', PageHolds plan rows nulls' tail' s') := by
  obtain ⟨r, s', hends, hsame, hrow⟩ := append_spec hp.good h hsize ht
  refine ⟨r, s', hends, ?_⟩
  cases hrow with
  | appended hroom hfit hgood hstored =>
    refine Or.inl ⟨rfl, hfit, ?_, fun k row' hk i c v hc hv => ?_⟩
    · rw [List.length_append, List.length_singleton]
      exact hgood
    · rcases Nat.lt_trichotomy k rows.length with hlt | rfl | hgt
      · rw [List.getElem?_append_left hlt] at hk
        exact hp.kept h hsame (Nat.sub_le _ _) k row' hk i c v hc hv
      · rw [List.getElem?_concat_length, Option.some.injEq] at hk
        rw [← hk] at hv
        exact hstored i c v hc hv
      · rw [List.getElem?_eq_none (by rw [List.length_append, List.length_singleton]; omega)] at hk
        cases hk
  | full hwhy hgood => exact Or.inr (Or.inl ⟨rfl, hgood, hp.kept h hsame le_rfl⟩)
  | error hroom hwhy htail hgood =>
    exact Or.inr (Or.inr ⟨⟨_, rfl⟩, _, _, hgood, hp.kept h hsame htail⟩)

/-- A row that is answered with `full` leaves no trace. -/
lemma of_full (hsize : plan.blockSize < 0x80000000) {call : Call} (ht : call.Typed specs row)
    (hfull : Ends call.append s (.ok .full) s') : PageHolds plan rows nulls tail s' := by
  obtain ⟨r, s₁, hends, hcases⟩ := hp.step h hsize ht
  obtain ⟨rfl, rfl⟩ := Prod.mk.inj (hends.symm.trans hfull)
  rcases hcases with ⟨hr, -⟩ | ⟨-, hsame⟩ | ⟨⟨e, hr⟩, -⟩
  · cases hr
  · exact hsame
  · cases hr

end

/-- The empty page. -/
lemma of_initBlock (h : plan.Valid specs) (hmax : plan.maxRows < 0x100000000)
    (hsize : plan.blockSize < 0x80000000) {block : List UInt8}
    (hlen : plan.blockSize ≤ block.length) :
    ∃ block₀ s₀, initBlock block plan = .ok block₀ ∧ PageRowEncoder.new block₀ = .ok s₀ ∧
      PageHolds plan [] (fun _ => 0) plan.blockSize s₀ := by
  obtain ⟨block₀, hinit, hlength, hhead, hdescs, hzero⟩ := initBlock_spec h hlen
  have htables := tables_of_initBlock h (hlength ▸ hlen) hdescs hzero
  have hnone : RowsAt block₀ plan plan.blockSize [] := fun k row hk => by cases hk
  obtain ⟨r, hopen, hheader, -⟩ :=
    contains_of_rowsAt h hmax (by omega) htables (Nat.zero_le _) h.pool
    le_rfl hnone hhead
  refine ⟨block₀, ⟨block₀, plan.blockHeader, plan.columns.length⟩, hinit, ?_,
    ⟨rfl, rfl, Nat.zero_le _, h.pool, le_rfl, htables⟩, hnone⟩
  rw [PageRowEncoder.new, hopen, ok_bind, hheader]
  rfl

/-- `finish` writes the header back, and the readers return the rows. -/
lemma finish (hp : PageHolds plan rows nulls tail s) (h : plan.Valid specs)
    (hmax : plan.maxRows < 0x100000000) (hsize : plan.blockSize < 0x80000000) :
    ∃ batch r, s.finish = .ok batch ∧ BlockRef.openBlock batch.payload = .ok r ∧
      batch.rowCount = rows.length ∧ batch.payloadLen = plan.blockSize ∧
      r.header = { plan.blockHeader with rowCount := rows.length, tailCursor := tail } ∧
      r.Contains specs rows ∧ ∀ i < specs.length, r.nullCount i = .ok (nulls i) := by
  have hfront := h.descOffset_le
  have hwalk := h.walk.le
  have hpool := h.pool
  have hlength := hp.good.tables.length
  have hsizes : BlockHeader.size ≤ descOffset plan.columns.length := Nat.le_add_right _ _
  have hfit : 0 + s.header.toBytes.length ≤ s.payload.length := by
    rw [BlockHeader.length_toBytes]
    omega
  have hsame := sameOff_splice hfit
  rw [BlockHeader.length_toBytes] at hsame
  -- the header is before the descriptors and the cells
  have htables : Tables plan nulls (splice s.payload 0 s.header.toBytes) := by
    refine ⟨by rw [hsame.length]; exact hlength, hp.good.tables.nulls_lt, fun i c hc => ?_,
      fun i c row hc hn hrow => ?_⟩
    · rw [hsame.slice]
      · exact hp.good.tables.desc i c hc
      · rintro p hlow - ⟨-, hhigh⟩
        rw [descOffset] at hlow
        omega
    · rw [hsame.bit]
      · exact hp.good.tables.zero i c row hc hn hrow
      · rintro ⟨-, hhigh⟩
        have := h.validityBit_front hc hrow
        omega
  have hrows : RowsAt (splice s.payload 0 s.header.toBytes) plan tail rows := by
    intro k row hk i c v hc hv
    have hrow : k < plan.maxRows :=
      lt_of_lt_of_le (List.getElem?_eq_some_iff.mp hk).1 hp.good.rows_le
    refine (hp.stored k row hk i c v hc hv).same hsame (fun p hmem => ?_) fun p hlow _ => ?_
    · rintro ⟨-, hhigh⟩
      have := h.cellBits_front hc hrow hmem
      omega
    · rintro ⟨-, hhigh⟩
      have := hp.good.pool_le
      omega
  have hhead : slice (splice s.payload 0 s.header.toBytes) 0 BlockHeader.size =
      some ({ plan.blockHeader with rowCount := rows.length, tailCursor := tail } :
        BlockHeader).toBytes := by
    rw [← hp.good.header, ← BlockHeader.length_toBytes s.header]
    exact slice_splice_self hfit
  obtain ⟨r, hopen, hheader, hcontains, hnulls⟩ := contains_of_rowsAt h hmax (by omega) htables
    hp.good.rows_le hp.good.pool_le hp.good.tail_le hrows hhead
  refine ⟨⟨rows.length, plan.blockSize, splice s.payload 0 s.header.toBytes⟩, r, ?_,
    hopen, rfl, rfl, hheader, hcontains, hnulls⟩
  rw [PageRowEncoder.finish, refuse_of_not (by omega), ok_bind]
  dsimp only
  rw [hopen, mapError_ok, ok_bind, hp.good.header]
  rfl

end PageHolds

/-! ### Runs -/

/-- The null counts and the tail cursor of a page that holds exactly the rows. -/
structure Exact (plan : LayoutPlan) (rows : List (List ArrowLayout.Stored)) (nulls : ℕ → ℕ)
    (tail : ℕ) : Prop where
  nulls : nulls = nullCounts rows
  tail : tail + (rows.map longSum).sum = plan.blockSize

lemma Exact.append (he : Exact plan rows nulls tail) (hfit : plan.poolBase + longSum row ≤ tail) :
    Exact plan (rows ++ [row]) (countNulls nulls row) (tail - longSum row) where
  nulls := by
    funext i
    rw [countNulls, he.nulls, nullCounts, nullCounts, List.countP_append, List.countP_singleton]
    simp only [decide_eq_true_eq]
  tail := by
    have := he.tail
    rw [List.map_append, List.sum_append, List.map_singleton, List.sum_singleton]
    omega

/-- **What the page holds after a sequence of calls** with type-correct rows, whatever the
answers are. -/
lemma appendAll_spec (h : plan.Valid specs) (hsize : plan.blockSize < 0x80000000)
    {calls : List Call} {offered : List (List ArrowLayout.Stored)}
    (ht : List.Forall₂ (Call.Typed specs) calls offered) (hp : PageHolds plan rows nulls tail s) :
    ∃ nulls' tail', PageHolds plan (rows ++ appendedRows (appendAll calls s).1 offered) nulls' tail'
        (appendAll calls s).2 ∧
      (∀ a ∈ (appendAll calls s).1, a ≠ .error .panic ∧ a ≠ .error .wild) ∧
      ((∀ a ∈ (appendAll calls s).1, ∃ status, a = .ok status) → Exact plan rows nulls tail →
        Exact plan (rows ++ appendedRows (appendAll calls s).1 offered) nulls' tail') := by
  induction ht generalizing rows nulls tail s with
  | nil =>
    simp only [appendAll, appendedRows, List.append_nil]
    exact ⟨nulls, tail, hp, nofun, fun _ he => he⟩
  | @cons call row calls offered hcall _ ih =>
    obtain ⟨r, s₁, hends, hcases⟩ := hp.step h hsize hcall
    have hrun : appendAll (call :: calls) s = (r :: (appendAll calls s₁).1,
      (appendAll calls s₁).2) := by
      rw [appendAll, show call.append.run.run s = (r, s₁) from hends]
    rw [hrun]
    rcases hcases with ⟨rfl, hfit, hp₁⟩ | ⟨rfl, hp₁⟩ | ⟨⟨e, rfl⟩, nulls₁, tail₁, hp₁⟩
    · obtain ⟨nulls', tail', hp', herr, hexact⟩ := ih hp₁
      rw [List.append_assoc] at hp' hexact
      refine ⟨nulls', tail', hp', ?_, fun hok he => ?_⟩
      · exact List.forall_mem_cons.mpr ⟨⟨nofun, nofun⟩, herr⟩
      · exact hexact (fun a ha => hok a (List.mem_cons_of_mem _ ha)) (he.append hfit)
    · obtain ⟨nulls', tail', hp', herr, hexact⟩ := ih hp₁
      refine ⟨nulls', tail', hp', ?_, fun hok he => ?_⟩
      · exact List.forall_mem_cons.mpr ⟨⟨nofun, nofun⟩, herr⟩
      · exact hexact (fun a ha => hok a (List.mem_cons_of_mem _ ha)) he
    · obtain ⟨nulls', tail', hp', herr, -⟩ := ih hp₁
      refine ⟨nulls', tail', hp', ?_, fun hok _ => ?_⟩
      · exact List.forall_mem_cons.mpr ⟨⟨nofun, nofun⟩, herr⟩
      · obtain ⟨status, hstatus⟩ := hok _ List.mem_cons_self
        cases hstatus

end Runs

/-- **Row pages round-trip.** For any specs that have a plan, and any calls with type-correct rows
on the initialised block, no call panics or leaves the page, and the page that `finish` returns is
accepted. Its rows are those that were answered with `appended`, in their order: values, and nulls
in nullable columns, read back as they were. If no call was answered with an error, the null counts
and the tail are those of the appended rows; and a further row that is answered with `full` leaves
no trace on the page, also after an error. -/
theorem row_page_round_trip (specs : List ColumnSpec) (maxRows blockSize : ℕ) (plan : LayoutPlan)
    (block : List UInt8) (calls : List Call) (rows : List (List ArrowLayout.Stored))
    (hmax : maxRows < 0x100000000) (hsize : blockSize < 0x80000000)
    (hplan : LayoutPlan.new specs maxRows blockSize = .ok plan) (hlen : blockSize ≤ block.length)
    (htyped : List.Forall₂ (Call.Typed specs) calls rows) :
    ∃ block₀ s₀, initBlock block plan = .ok block₀ ∧ PageRowEncoder.new block₀ = .ok s₀ ∧
      ∀ answers s, appendAll calls s₀ = (answers, s) →
        (∀ a ∈ answers, a ≠ .error .panic ∧ a ≠ .error .wild) ∧
        ∃ batch r, s.finish = .ok batch ∧ BlockRef.openBlock batch.payload = .ok r ∧
          batch.rowCount = (appendedRows answers rows).length ∧
          r.Contains specs (appendedRows answers rows) ∧
          ((∀ a ∈ answers, ∃ status, a = .ok status) →
            (∀ i < specs.length, r.nullCount i = .ok (nullCounts (appendedRows answers rows) i)) ∧
            r.header.tailCursor + ((appendedRows answers rows).map longSum).sum = blockSize) ∧
          ∀ (call : Call) row s', call.Typed specs row → Ends call.append s (.ok .full) s' →
            ∃ batch' r', s'.finish = .ok batch' ∧ BlockRef.openBlock batch'.payload = .ok r' ∧
              r'.header = r.header ∧ r'.Contains specs (appendedRows answers rows) ∧
              ∀ i < specs.length, r'.nullCount i = r.nullCount i := by
  obtain ⟨h, rfl, rfl⟩ := LayoutPlan.new_spec hplan
  obtain ⟨block₀, s₀, hinit, hnew, hp⟩ := PageHolds.of_initBlock h hmax hsize hlen
  refine ⟨block₀, s₀, hinit, hnew, fun answers s hrun => ?_⟩
  obtain ⟨nulls, tail, hp', hhalt, hexact⟩ := appendAll_spec h hsize htyped hp
  rw [hrun, List.nil_append] at hp' hexact
  rw [hrun] at hhalt
  obtain ⟨batch, r, hfinish, hopen, hcount, -, hheader, hcontains, hnulls⟩ :=
    hp'.finish h hmax hsize
  refine ⟨hhalt, batch, r, hfinish, hopen, hcount, hcontains, fun hok => ?_,
    fun call row s' ht hfull => ?_⟩
  · have he := hexact hok ⟨funext fun _ => rfl, Nat.add_zero _⟩
    refine ⟨fun i hi => ?_, ?_⟩
    · rw [hnulls i hi, he.nulls]
    · rw [hheader]
      exact he.tail
  · have hsame := hp'.of_full h hsize ht hfull
    obtain ⟨batch', r', hfinish', hopen', -, -, hheader', hcontains', hnulls'⟩ :=
      hsame.finish h hmax hsize
    refine ⟨batch', r', hfinish', hopen', hheader'.trans hheader.symm, hcontains', fun i hi => ?_⟩
    rw [hnulls i hi, hnulls' i hi]

/-- A page from its first call to its last, as a reader opens it. -/
def writePage (specs : List ColumnSpec) (maxRows blockSize : ℕ) (calls : List Call) :
    Option (List (Except (Halt RowEncodeError) AppendStatus) × BlockRef) := do
  let plan ← (LayoutPlan.new specs maxRows blockSize).toOption
  let block ← (initBlock (List.replicate blockSize 0) plan).toOption
  let s ← (PageRowEncoder.new block).toOption
  let (answers, s) := appendAll calls s
  let batch ← s.finish.toOption
  let r ← (BlockRef.openBlock batch.payload).toOption
  return (answers, r)

/-- A row of a number or a null, and a text. -/
def numberAndText (number : CellRef) (text : List UInt8) : RowSource
  | 0 => number
  | _ => .utf8 text

lemma typed_numberAndText {number : CellRef} {v : ArrowLayout.Stored}
    (h : storedAs .int32 true number = some v) (text : List UInt8) :
    (Call.row (numberAndText number text)).Typed [⟨.int32, true⟩, ⟨.utf8View, false⟩]
      [v, .bytes text] := by
  refine ⟨rfl, fun i spec hspec => ?_⟩
  match i, hspec with
  | 0, rfl => exact h
  | 1, rfl => rfl

/-- Two rows on a page of two columns. -/
theorem row_page_round_trip_two_columns :
    ∃ plan block₀ s₀ answers s batch r,
      LayoutPlan.new [⟨.int32, true⟩, ⟨.utf8View, false⟩] 2 256 = .ok plan ∧
      initBlock (List.replicate 256 7) plan = .ok block₀ ∧ PageRowEncoder.new block₀ = .ok s₀ ∧
      appendAll [.row (numberAndText (.int32 7) (List.replicate 20 65)),
        .row (numberAndText .null [66])] s₀ = (answers, s) ∧
      s.finish = .ok batch ∧ BlockRef.openBlock batch.payload = .ok r ∧
      r.Contains [⟨.int32, true⟩, ⟨.utf8View, false⟩] (appendedRows answers
        [[.fixed [7, 0, 0, 0], .bytes (List.replicate 20 65)], [.null, .bytes [66]]]) := by
  obtain ⟨block₀, s₀, hinit, hnew, hrun⟩ := row_page_round_trip
    [⟨.int32, true⟩, ⟨.utf8View, false⟩] 2 256
    ⟨256, 2, 92, 172, [⟨.int32, 1, 92, 108, 16, 16⟩, ⟨.utf8View, 2, 124, 140, 16, 32⟩]⟩
    (List.replicate 256 7)
    [.row (numberAndText (.int32 7) (List.replicate 20 65)), .row (numberAndText .null [66])]
    [[.fixed [7, 0, 0, 0], .bytes (List.replicate 20 65)], [.null, .bytes [66]]]
    (by decide) (by decide) (by decide +kernel) List.length_replicate.ge
    (.cons (typed_numberAndText rfl _) (.cons (typed_numberAndText rfl _) .nil))
  obtain ⟨-, batch, r, hfinish, hopen, -, hcontains, -⟩ := hrun _ _ rfl
  exact ⟨_, block₀, s₀, _, _, batch, r, by decide +kernel, hinit, hnew, rfl, hfinish, hopen,
    hcontains⟩

/-- A row that is answered with an error stays in the null counts: the second row, a null
and a text that is longer than the tail cursor, is not appended, but its null is counted.
The validity bit of the text of the first row reads as false, for its column is not
nullable. -/
theorem null_counted_of_error :
    List.Forall₂ (Call.Typed [⟨.int32, true⟩, ⟨.utf8View, false⟩])
        [.row (numberAndText (.int32 7) (List.replicate 174 65)),
          .row (numberAndText .null (List.replicate 173 65))]
        [[.fixed [7, 0, 0, 0], .bytes (List.replicate 174 65)],
          [.null, .bytes (List.replicate 173 65)]] ∧
      (writePage [⟨.int32, true⟩, ⟨.utf8View, false⟩] 2 346
          [.row (numberAndText (.int32 7) (List.replicate 174 65)),
            .row (numberAndText .null (List.replicate 173 65))]).map
        (fun p => (p.1, p.2.header.rowCount, p.2.nullCount 0, p.2.validity 1 0)) =
      some ([.ok .appended, .error (.error (.layout .sizeOverflow))], 1, .ok 1, .ok false) :=
  ⟨.cons (typed_numberAndText rfl _) (.cons (typed_numberAndText rfl _) .nil), by decide +kernel⟩

/-! ### Answers -/

/-- The encoder after a call. -/
def afterCall (s : PageRowEncoder) (call : Call) : Option PageRowEncoder :=
  some (call.append.run.run s).2

/-- Where there is room for a row, none of its values is longer than the tail cursor when it is
written. -/
def Placeable (s : PageRowEncoder) (row : List ArrowLayout.Stored) : Prop :=
  s.header.rowCount < s.header.maxRows →
    overshoots s.header.poolBase s.header.tailCursor row = false

/-- The call is given a type-correct row that can be placed. -/
def WithinCursor (specs : List ColumnSpec) (s : PageRowEncoder) (call : Call) : Prop :=
  ∃ row, call.Typed specs row ∧ Placeable s row

/-- The answer to a row: by the rows and the part of the tail that are left. -/
def answer (s : PageRowEncoder) (row : List ArrowLayout.Stored) : AppendStatus :=
  if s.header.rowCount < s.header.maxRows ∧
    longSum row ≤ s.header.tailCursor - s.header.poolBase then
    .appended
  else .full

section Answers

variable {plan : LayoutPlan} {specs : List ColumnSpec} {s : PageRowEncoder}
    {row : List ArrowLayout.Stored}

/-- A page in which no column has more nulls than there are rows. -/
def FewNulls (plan : LayoutPlan) (s : PageRowEncoder) : Prop :=
  ∃ nulls rows tail, Good plan nulls rows tail s ∧ ∀ i, nulls i ≤ rows

/-- One call, within the tail cursor. -/
lemma FewNulls.step (hs : FewNulls plan s) (h : plan.Valid specs)
    (hmax : plan.maxRows < 0x100000000) (hsize : plan.blockSize < 0x80000000) {call : Call}
    (ht : call.Typed specs row) (hover : Placeable s row) :
    ∃ s', Ends call.append s (.ok (answer s row)) s' ∧ FewNulls plan s' := by
  obtain ⟨nulls, rows, tail, hg, hle⟩ := hs
  obtain ⟨r, s', hends, -, hrow⟩ := append_spec hg h hsize ht
  have hpool := hg.pool_le
  have hanswer : answer s row = if rows < plan.maxRows ∧ longSum row ≤ tail - plan.poolBase then
      .appended else .full := by
    rw [answer, hg.header]
    rfl
  rw [Placeable, hg.header] at hover
  rw [hanswer]
  refine ⟨s', ?_⟩
  cases hrow with
  | appended hroom hfit hgood hstored =>
    rw [if_pos ⟨hroom, by omega⟩]
    refine ⟨hends, _, _, _, hgood, fun i => ?_⟩
    have := hle i
    rw [countNulls]
    split_ifs <;> omega
  | full hwhy hgood =>
    rw [if_neg (by omega)]
    exact ⟨hends, nulls, rows, tail, hgood, hle⟩
  | error hroom hwhy htail hgood =>
    rcases hwhy with hcursor | ⟨i, -, hnull⟩
    · cases hcursor.symm.trans (hover hroom)
    · have := hle i
      omega

end Answers

/-- **A row that does not fit is answered with `full`, never with an error.** In every state that
calls within the tail cursor lead to, a type-correct row that can be placed is answered with `full`
if `max_rows` is reached or its long values do not fit in what is left of the tail, and with
`appended` otherwise. -/
theorem append_row_answers (specs : List ColumnSpec) (maxRows blockSize : ℕ) (plan : LayoutPlan)
    (block : List UInt8) (hmax : maxRows < 0x100000000) (hsize : blockSize < 0x80000000)
    (hplan : LayoutPlan.new specs maxRows blockSize = .ok plan) (hlen : blockSize ≤ block.length) :
    ∃ block₀ s₀, initBlock block plan = .ok block₀ ∧ PageRowEncoder.new block₀ = .ok s₀ ∧
      ∀ s, Runs afterCall (WithinCursor specs) s₀ s → ∀ source row, RowTyped specs source row →
        Placeable s row → ∃ s', Ends (appendRow source) s (.ok (answer s row)) s' := by
  obtain ⟨h, rfl, rfl⟩ := LayoutPlan.new_spec hplan
  obtain ⟨block₀, s₀, hinit, hnew, hp⟩ := PageHolds.of_initBlock h hmax hsize hlen
  refine ⟨block₀, s₀, hinit, hnew, fun s hrun source row ht hover => ?_⟩
  have hfew : FewNulls plan s := by
    refine hrun.invariant ⟨_, _, _, hp.good, fun _ => Nat.zero_le _⟩ ?_
    rintro s call s' hs ⟨row, ht, hover⟩ hnext
    obtain ⟨t, hends, ht'⟩ := hs.step h hmax hsize ht hover
    have hsnd : (call.append.run.run s).2 = t := congrArg Prod.snd hends
    rw [afterCall, hsnd, Option.some.injEq] at hnext
    exact hnext ▸ ht'
  have htyped : (Call.row source).Typed specs row := ht
  obtain ⟨s', hends, -⟩ := hfew.step h hmax hsize htyped hover
  exact ⟨s', hends⟩

/-- A column of texts. -/
def textRow (text : List UInt8) : RowSource := fun _ => .utf8 text

lemma typed_textRow (text : List UInt8) :
    RowTyped [⟨.utf8View, false⟩] (textRow text) [.bytes text] := by
  refine ⟨rfl, fun i spec hspec => ?_⟩
  match i, hspec with
  | 0, rfl => rfl

/-- A text of 20 bytes after one that fills the tail. -/
theorem append_row_answers_two :
    ∃ plan block₀ s₀ s s', LayoutPlan.new [⟨.utf8View, false⟩] 2 220 = .ok plan ∧
      initBlock (List.replicate 220 0) plan = .ok block₀ ∧ PageRowEncoder.new block₀ = .ok s₀ ∧
      afterCall s₀ (.row (textRow (List.replicate 112 65))) = some s ∧
      Ends (appendRow (textRow (List.replicate 20 65))) s (.ok .full) s' := by
  obtain ⟨block₀, s₀, hinit, hnew, hrun⟩ := append_row_answers [⟨.utf8View, false⟩] 2 220
    ⟨220, 2, 60, 108, [⟨.utf8View, 2, 60, 76, 16, 32⟩]⟩ (List.replicate 220 0) (by decide)
    (by decide) (by decide +kernel) List.length_replicate.ge
  have hheaders : ((initBlock (List.replicate 220 0)
        ⟨220, 2, 60, 108, [⟨.utf8View, 2, 60, 76, 16, 32⟩]⟩).toOption.bind fun b =>
      (PageRowEncoder.new b).toOption.bind fun s₀ =>
        (afterCall s₀ (.row (textRow (List.replicate 112 65)))).map fun s =>
          (s₀.header, s.header)) =
      some (⟨blockMagic, 1, 0, 220, 2, 0, 1, 0, 60, 108, 220, 0⟩,
        ⟨blockMagic, 1, 0, 220, 2, 1, 1, 0, 60, 108, 108, 0⟩) := by decide +kernel
  rw [hinit] at hheaders
  simp only [Except.toOption, Option.bind_some, hnew, afterCall, Option.map_some, Option.some.injEq,
    Prod.mk.injEq] at hheaders
  obtain ⟨hhead₀, hhead⟩ := hheaders
  have hfirst : WithinCursor [⟨.utf8View, false⟩] s₀ (.row (textRow (List.replicate 112 65))) :=
    ⟨[.bytes (List.replicate 112 65)], typed_textRow _, by rw [Placeable, hhead₀]; decide +kernel⟩
  obtain ⟨s', hends⟩ := hrun _ (.step _ (.refl s₀) hfirst rfl) _ _
    (typed_textRow (List.replicate 20 65)) (by rw [Placeable, hhead]; decide +kernel)
  rw [answer, hhead] at hends
  exact ⟨_, block₀, s₀, _, s', by decide +kernel, hinit, hnew, rfl, hends⟩

/-- A row that is answered with an error: after a text of 112 bytes, which fills the tail of
the page, the cursor is at byte 108, and a text of 109 bytes is answered with
`SizeOverflow`, although an empty page has 112 bytes of tail. -/
theorem error_of_short_cursor :
    (LayoutPlan.new [⟨.utf8View, false⟩] 2 220).map LayoutPlan.sharedPoolCapacity = .ok 112 ∧
      RowTyped [⟨.utf8View, false⟩] (textRow (List.replicate 109 65))
        [.bytes (List.replicate 109 65)] ∧
      (writePage [⟨.utf8View, false⟩] 2 220 [.row (textRow (List.replicate 112 65)),
        .row (textRow (List.replicate 109 65))]).map Prod.fst =
      some [.ok .appended, .error (.error (.layout .sizeOverflow))] :=
  ⟨by decide +kernel, typed_textRow _, by decide +kernel⟩

end PgFusion.RowEncoder

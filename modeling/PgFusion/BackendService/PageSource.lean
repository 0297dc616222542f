import PgFusion.Filter.Bloom
import PgFusion.RowEncoder.Page
import PgFusion.RowEstimator.Estimate

/-!
The scan of a backend as a source of pages (`pg/backend_service/src/source.rs`, with the drain of
`pg/slot_scan/src/run.rs`).

A page is planned for the estimated number of rows and filled from the cursor. A row that does not
fit is kept for the next page; if it is the first one, the page is planned again for half as many
rows. The two nested loops of the source are one loop over a `Phase` here.

* `fillNextPage_spec`: what one call does to the cursor and the estimator;
* `pages_deliver_rows`: the pages of a run hold the rows that no filter rejects, in order and once.
-/

namespace PgFusion.BackendService

open Bytes Fallible ArrowLayout RowEncoder RowEstimator

/-! ### The source -/

/-- `BackendServiceError`, as far as a page source returns it; `probe` is what reading a filter key
returns. -/
inductive BackendServiceError where
  | pageSource (message : String)
  | prepareScan (message : String)
  | probe (message : String)
  | layout (e : LayoutError)
  | estimator (e : EstimateError)
  | encode (e : Halt RowEncodeError)

/-- The values of some rows. -/
abbrev Rows := List (List ArrowLayout.Stored)

/-- A row of the cursor: the call that appends it, its values, and what each runtime filter decides
about it, or why reading its key fails. -/
structure Slot (specs : List ColumnSpec) where
  call : Call
  row : List ArrowLayout.Stored
  typed : call.Typed specs row
  decisions : List (Except String Filter.ProbeDecision)

/-- `runtime_filter_rejects_slot`, without its statistics. -/
def runtimeFilterRejectsSlot :
    List (Except String Filter.ProbeDecision) → Except BackendServiceError Bool
  | [] => .ok false
  | decision :: decisions => do
    match ← decision.mapError .probe with
    | .definitelyAbsent => return true
    | .passUnfiltered => runtimeFilterRejectsSlot decisions
    | .maybePresent => runtimeFilterRejectsSlot decisions

/-- `SlotScanPageSource` with an open session: `slots` are what the cursor has left, `remaining` is
the rest of the local row cap. -/
structure SlotScanPageSource (specs : List ColumnSpec) where
  blockSize : ℕ
  fetchBatchRows : ℕ
  singleRowDrains : Bool
  estimator : Option PageRowEstimator
  slots : List (Slot specs)
  remaining : ℕ
  pendingOverflow : Option (Slot specs)

variable {specs : List ColumnSpec}

/-- `scan_page_estimator`. -/
def scanPageEstimator (specs : List ColumnSpec) (blockSize initialTailBytesPerRow : ℕ) :
    Except EstimateError (Option PageRowEstimator) :=
  if specs = [] then .ok none
  else (PageRowEstimator.new specs blockSize initialTailBytesPerRow).map some

/-- `SlotScanPageSource::new`, opened. -/
def SlotScanPageSource.new (blockSize fetchBatchRows : ℕ) (estimator : Option PageRowEstimator)
    (slots : List (Slot specs)) (localRowCap : ℕ) : SlotScanPageSource specs :=
  ⟨blockSize, fetchBatchRows, estimator.any (·.hasVariableWidth), estimator, slots,
    localRowCap, none⟩

/-- `estimate_rows_per_page`. -/
def estimateRowsPerPage (estimator : Option PageRowEstimator) (fetchBatchRows : ℕ) :
    Except BackendServiceError ℕ :=
  match estimator with
  | some e => do return (← e.estimate.mapError .estimator).rowsPerPage
  | none =>
    if max fetchBatchRows 1 < 2 ^ 32 then .ok (max fetchBatchRows 1)
    else .error (.pageSource s!"scan fetch batch rows {fetchBatchRows} does not fit into u32")

/-- `observe_encoded_block`. -/
def observeEncodedBlock (estimator : Option PageRowEstimator) (payload : List UInt8) :
    Except BackendServiceError (Option PageRowEstimator) :=
  match estimator with
  | some e => do
    (e.observeEncodedBlock payload).1.mapError .estimator
    return some (e.observeEncodedBlock payload).2
  | none => .ok none

/-- `observe_empty_full_page`. -/
def observeEmptyFullPage (estimator : Option PageRowEstimator) (attemptedRows : ℕ) :
    Except BackendServiceError (Option PageRowEstimator) :=
  match estimator with
  | some e => do
    (e.observeEmptyFullPage attemptedRows).1.mapError .estimator
    return some (e.observeEmptyFullPage attemptedRows).2
  | none => .error (.pageSource "empty-schema scan page filled before writing a row")

/-- A page that is being filled. -/
structure Draft (specs : List ColumnSpec) where
  encoder : PageRowEncoder
  rowsWritten : ℕ
  pendingOverflow : Option (Slot specs)

/-- The callback of a drain: the filters, `append_slot` and `handle_append_slot_status`. -/
def receiveSlot (rowBudget maxRows : ℕ) (draft : Draft specs) (slot : Slot specs) :
    Except BackendServiceError (Draft specs) := do
  if ← runtimeFilterRejectsSlot slot.decisions then return draft
  match slot.call.append.run.run draft.encoder with
  | (.error e, _) => .error (.encode e)
  | (.ok .appended, encoder) => return { draft with encoder, rowsWritten := draft.rowsWritten + 1 }
  | (.ok .full, encoder) => do
    let rowsWritten := draft.rowsWritten
    refuse (rowBudget ≠ 1) (.pageSource (
      s!"slot encoder filled before exhausting row budget: budget={rowBudget}, " ++
        s!"rows_written={rowsWritten}, max_rows={maxRows}"))
    return { draft with encoder, pendingOverflow := some slot }

/-- `cursor_fetch_rows`. -/
def cursorFetchRows (fetchBatchRows rowBudget remaining : ℕ) : ℕ :=
  min (min fetchBatchRows rowBudget) remaining

/-- `drain_slots_inner` with this callback, which never stops it: the rows consumed, whether the
cursor is at its end, and what has become of the source and the page. -/
def drainSlots (rowBudget maxRows : ℕ) (source : SlotScanPageSource specs) (draft : Draft specs) :
    Except BackendServiceError (ℕ × Bool × SlotScanPageSource specs × Draft specs) :=
  if source.remaining = 0 then .ok (0, true, source, draft)
  else do
    refuse (rowBudget = 0) (.prepareScan "slot drain row budget must be greater than zero")
    let fetchRows := cursorFetchRows (max source.fetchBatchRows 1) rowBudget source.remaining
    let batch := source.slots.take fetchRows
    let draft ← batch.foldlM (receiveSlot rowBudget maxRows) draft
    let remaining := source.remaining - batch.length
    return (batch.length, remaining = 0 ∨ batch.length < fetchRows,
      { source with
        slots := source.slots.drop fetchRows
        remaining := remaining
        pendingOverflow := draft.pendingOverflow }, draft)

/-- Where `fill_next_page_with_snapshot` is: at the head of its outer loop, or in the inner one. -/
inductive Phase (specs : List ColumnSpec) where
  | planning (source : SlotScanPageSource specs) (payload : List UInt8)
  | filling (source : SlotScanPageSource specs) (layout : LayoutPlan) (encoder : PageRowEncoder)
      (rowsWritten : ℕ)

/-- What a call returns: a page with its length, or none at the end; the buffer, and the source
after it. -/
abbrev FillResult (specs : List ColumnSpec) := Option ℕ × List UInt8 × SlotScanPageSource specs

/-- The head of the outer loop. -/
def planPage (source : SlotScanPageSource specs) (payload : List UInt8) :
    Except BackendServiceError (Phase specs) := do
  let estimated ← estimateRowsPerPage source.estimator source.fetchBatchRows
  let layout ← (LayoutPlan.new specs estimated source.blockSize).mapError .layout
  refuse (layout.maxRows = 0) (.pageSource "layout planned zero rows per scan page")
  let block ← (initBlock payload layout).mapError .layout
  let encoder ← (PageRowEncoder.new block).mapError .layout
  match source.pendingOverflow with
  | none => return .filling source layout encoder 0
  | some slot =>
    match slot.call.append.run.run encoder with
    | (.error e, _) => .error (.encode e)
    | (.ok .appended, encoder) =>
      return .filling { source with pendingOverflow := none } layout encoder 1
    | (.ok .full, encoder) => do
      let estimator ← observeEmptyFullPage source.estimator estimated
      return .planning { source with estimator } encoder.payload

/-- The page as it is returned. -/
def finishPage (source : SlotScanPageSource specs) (encoder : PageRowEncoder) :
    Except BackendServiceError (FillResult specs) := do
  let encoded ← encoder.finish.mapError .encode
  let estimator ← observeEncodedBlock source.estimator (encoded.payload.take encoded.payloadLen)
  return (some encoded.payloadLen, encoded.payload, { source with estimator })

/-- A turn of the inner loop. -/
def fillPage (source : SlotScanPageSource specs) (layout : LayoutPlan) (encoder : PageRowEncoder)
    (rowsWritten : ℕ) : Except BackendServiceError (Phase specs ⊕ FillResult specs) :=
  if layout.maxRows ≤ rowsWritten then return .inr (← finishPage source encoder)
  else do
    let rowBudget := if source.singleRowDrains then 1 else layout.maxRows - rowsWritten
    let (rowsConsumed, eof, source, draft) ←
      drainSlots rowBudget layout.maxRows source ⟨encoder, rowsWritten, source.pendingOverflow⟩
    if source.pendingOverflow.isSome then
      if 0 < draft.rowsWritten then return .inr (← finishPage source draft.encoder)
      -- the plan is for the estimated number of rows
      let estimator ← observeEmptyFullPage source.estimator layout.maxRows
      return .inl (.planning { source with estimator } draft.encoder.payload)
    if eof then
      if draft.rowsWritten = 0 then return .inr (none, draft.encoder.payload, source)
      return .inr (← finishPage source draft.encoder)
    refuse (rowsConsumed = 0) (.pageSource "slot scan direct receiver made no progress")
    return .inl (.filling source layout draft.encoder draft.rowsWritten)

/-- A turn of the loops. -/
def Phase.turn : Phase specs → Except BackendServiceError (Phase specs ⊕ FillResult specs)
  | .planning source payload => .inl <$> planPage source payload
  | .filling source layout encoder rowsWritten => fillPage source layout encoder rowsWritten

/-- `fill_next_page`, for so many turns of its loops. -/
def fillNextPage (fuel : ℕ) (payload : List UInt8) (source : SlotScanPageSource specs) :
    Option (Except BackendServiceError (FillResult specs)) :=
  if payload.length < source.blockSize then
    let (required, got) := (source.blockSize, payload.length)
    some (.error (.pageSource s!"scan page payload too small: required {required}, got {got}"))
  else rounds Phase.turn fuel (.planning source (payload.take source.blockSize))

/-- The error was found by the planner, the estimator, the encoder or a filter, and not by the
loops. -/
def BackendServiceError.IsForeign : BackendServiceError → Prop
  | .pageSource _ | .prepareScan _ | .encode .panic | .encode .wild => False
  | _ => True

open BackendServiceError (IsForeign)

/-! ### Pages -/

/-- The bytes are a page that the readers find these rows in. -/
def HoldsRows (specs : List ColumnSpec) (page : List UInt8) (rows : Rows) : Prop :=
  ∃ r, BlockRef.openBlock page = .ok r ∧ r.Contains specs rows

/-- The encoder has written these rows to its page, which is all of its buffer. -/
def Written (plan : LayoutPlan) (rows : Rows) (encoder : PageRowEncoder) : Prop :=
  encoder.payload.length = plan.blockSize ∧ ∃ nulls tail, PageHolds plan rows nulls tail encoder

/-- Without a column of variable width a row takes nothing of the tail. -/
lemma Slot.longSum_eq_zero (slot : Slot specs)
    (h : (specs.any fun spec => spec.typeTag.isView) = false) :
    longSum slot.row = 0 := by
  refine List.sum_eq_zero fun n hn => ?_
  obtain ⟨v, hv, rfl⟩ := List.mem_map.mp hn
  obtain ⟨i, hi⟩ := List.getElem?_of_mem hv
  have hlt : i < specs.length := slot.typed.1 ▸ (List.getElem?_eq_some_iff.mp hi).1
  have hfits :=
    (typed_of_storedAs ((slot.typed.2 i _ (List.getElem?_eq_getElem hlt)).trans hi)).fits
  cases v with
  | bytes data => exact absurd hfits (List.any_eq_false.mp h _ (List.getElem_mem hlt))
  | null => rfl
  | bool value => rfl
  | fixed bytes => rfl

section Pages

variable {plan : LayoutPlan} {rows : Rows} {encoder : PageRowEncoder}
  (h : plan.Valid specs) (hmax : plan.maxRows < 2 ^ 32) (hsize : plan.blockSize < 0x80000000)

include h hsize

/-- One row. It is not appended where its long values do not fit. -/
lemma Written.append (hw : Written plan rows encoder) (slot : Slot specs) :
    ∃ r encoder', slot.call.append.run.run encoder = (r, encoder') ∧
      (r = .ok .appended ∧ Written plan (rows ++ [slot.row]) encoder' ∨
        r = .ok .full ∧ Written plan rows encoder' ∧
          (rows.length < plan.maxRows → longSum slot.row ≠ 0) ∨
        ∃ e, r = .error (.error e)) := by
  obtain ⟨hlen, nulls, tail, hp⟩ := hw
  obtain ⟨r, encoder', hends, hcases⟩ := hp.step h hsize slot.typed
  obtain ⟨r', t, hends', hsame, hrow⟩ := append_spec hp.good h hsize slot.typed
  obtain ⟨rfl, rfl⟩ := Prod.mk.inj (hends'.symm.trans hends)
  have hlen' := hsame.length.trans hlen
  have hpool := hp.good.pool_le
  refine ⟨r', t, hends, ?_⟩
  rcases hcases with ⟨rfl, -, hp'⟩ | ⟨rfl, hp'⟩ | ⟨herror, -⟩
  · exact .inl ⟨rfl, hlen', _, _, hp'⟩
  · refine .inr (.inl ⟨rfl, ⟨hlen', _, _, hp'⟩, fun hroom => ?_⟩)
    cases hrow with
    | full hwhy _ => omega
  · exact .inr (.inr herror)

include hmax

/-- The empty page. -/
lemma written_init {payload : List UInt8} (hlen : payload.length = plan.blockSize) :
    ∃ block encoder, initBlock payload plan = .ok block ∧ PageRowEncoder.new block = .ok encoder ∧
      Written plan [] encoder := by
  obtain ⟨block, encoder, hinit, hnew, hp⟩ := PageHolds.of_initBlock h hmax hsize hlen.ge
  obtain ⟨block', hinit', hlength, -⟩ := initBlock_spec h hlen.ge
  obtain rfl := Except.ok.inj (hinit.symm.trans hinit')
  refine ⟨block, encoder, hinit, hnew, ?_, _, _, hp⟩
  simp only [PageRowEncoder.new, bind_eq_ok, pure_eq_ok] at hnew
  obtain ⟨r, -, rfl⟩ := hnew
  exact hlength.trans hlen

/-- The finished page. -/
lemma Written.finish (hw : Written plan rows encoder) :
    ∃ batch, encoder.finish = .ok batch ∧ HoldsRows specs (batch.payload.take batch.payloadLen)
      rows := by
  obtain ⟨hlen, nulls, tail, hp⟩ := hw
  obtain ⟨batch, r, hfinish, hopen, -, hpayload, -, hcontains, -⟩ := hp.finish h hmax hsize
  refine ⟨batch, hfinish, r, ?_, hcontains⟩
  simp only [PageRowEncoder.finish, bind_eq_ok, refuse_eq_ok, pure_eq_ok, not_lt] at hfinish
  obtain ⟨-, hroom, _, -, rfl⟩ := hfinish
  have hfit : 0 + encoder.header.toBytes.length ≤ encoder.payload.length := by
    rw [BlockHeader.length_toBytes]
    omega
  rwa [hpayload, List.take_of_length_le (by rw [length_splice hfit, hlen])]

end Pages

/-! ### Estimates -/

/-- An estimator for these columns; there is none without columns. -/
def Sound (specs : List ColumnSpec) : Option PageRowEstimator → Prop
  | none => specs = []
  | some e => ∃ e₀ : PageRowEstimator, e₀.Follows e ∧ e₀.blockSize < 2 ^ 32 ∧ 1 ≤ e₀.fixedRowCap ∧
      e₀.fixedRowCap < 2 ^ 32 ∧ e₀.hasVariableWidth = specs.any fun spec => spec.typeTag.isView

lemma sound_of_scanPageEstimator {blockSize tail : ℕ} {estimator : Option PageRowEstimator}
    (h : scanPageEstimator specs blockSize tail = .ok estimator) : Sound specs estimator := by
  rw [scanPageEstimator] at h
  split_ifs at h with hnil
  · obtain rfl := Except.ok.inj h
    exact hnil
  cases hnew : PageRowEstimator.new specs blockSize tail with
  | error err => rw [hnew] at h; cases h
  | ok e =>
    rw [hnew] at h
    obtain rfl := Except.ok.inj h
    simp only [PageRowEstimator.new, computeFixedRowCap, bind_eq_ok, refuse_eq_ok, pure_eq_ok,
      not_le] at hnew
    obtain ⟨-, -, cap, ⟨_, -, -, hsize, hcap⟩, -, hpos, rfl⟩ := hnew
    have hle := (bisect_result (Nat.zero_le _) hcap).1
    exact ⟨_, .refl rfl rfl, by dsimp only; omega,
      Nat.one_le_iff_ne_zero.mpr hpos, by dsimp only; omega, rfl⟩

/-- The number of rows that a page is planned for; the cap of a backoff bounds it. -/
lemma estimateRowsPerPage_spec {estimator : Option PageRowEstimator} (h : Sound specs estimator)
    {fetchBatchRows : ℕ} (hfetch : fetchBatchRows < 2 ^ 32) :
    Outcome (estimateRowsPerPage estimator fetchBatchRows) (fun m => 1 ≤ m ∧ m < 2 ^ 32 ∧
      ∀ e, estimator = some e → e.hasVariableWidth = true → m ≤ e.currentCap) IsForeign := by
  cases estimator with
  | none =>
    rw [estimateRowsPerPage, if_pos (max_lt hfetch (by norm_num))]
    exact .ok ⟨le_max_right _ _, max_lt hfetch (by norm_num), nofun⟩
  | some e =>
    obtain ⟨e₀, hfollows, -, hpos, hlt, -⟩ := h
    rw [← hfollows.cap] at hpos hlt
    have hle := hfollows.currentCap_le
    have hcap := hfollows.currentCap_pos hpos
    rw [estimateRowsPerPage]
    cases hestimate : e.estimate with
    | error err => exact .error trivial
    | ok estimate =>
      refine .ok ?_
      rw [PageRowEstimator.estimate] at hestimate
      split_ifs at hestimate with hwidth
      · obtain rfl := Except.ok.inj hestimate
        refine ⟨hpos, hlt, fun e' he hw => ?_⟩
        obtain rfl := Option.some.inj he
        exact absurd (hw.symm.trans hwidth) Bool.true_eq_false.mp
      · simp only [bind_eq_ok, pure_eq_ok] at hestimate
        obtain ⟨low, hlow, _, -, -, -, rfl⟩ := hestimate
        have := (bisect_result (Nat.zero_le _) hlow).1
        refine ⟨le_max_right _ _, by dsimp only; omega, fun e' he _ => ?_⟩
        obtain rfl := Option.some.inj he
        dsimp only
        omega

/-- A page that a first row with long values did not fit: the estimator halves its cap. -/
lemma observeEmptyFullPage_spec {estimator : Option PageRowEstimator} (h : Sound specs estimator)
    {slot : Slot specs} (hslot : longSum slot.row ≠ 0) (attempted : ℕ) :
    Outcome (observeEmptyFullPage estimator attempted) (fun estimator' => Sound specs estimator' ∧
      1 < attempted ∧
      ∃ e, estimator' = some e ∧ e.hasVariableWidth = true ∧ e.currentCap ≤ (attempted + 1) / 2)
      IsForeign := by
  cases estimator with
  | none => exact absurd (slot.longSum_eq_zero (by rw [show specs = [] from h]; rfl)) hslot
  | some e =>
    obtain ⟨e₀, hfollows, hsize, hsound⟩ := h
    have hfollows' := hfollows.after hsize (.emptyFullPage attempted)
    rw [PageRowEstimator.after] at hfollows'
    rw [observeEmptyFullPage]
    rw [PageRowEstimator.observeEmptyFullPage] at hfollows' ⊢
    split_ifs at hfollows' ⊢ with hwidth hrange hone
    · exact .error trivial
    · exact .error trivial
    · exact .error trivial
    · refine .ok ⟨⟨e₀, hfollows', hsize, hsound⟩, by omega, _, rfl, by simpa using hwidth, ?_⟩
      rw [PageRowEstimator.currentCap]
      cases e.backoffRowCap with
      | none => exact le_rfl
      | some cap => exact min_le_right _ _

lemma observeEncodedBlock_spec {estimator : Option PageRowEstimator} (h : Sound specs estimator)
    (page : List UInt8) :
    Outcome (observeEncodedBlock estimator page) (Sound specs) IsForeign := by
  cases estimator with
  | none => exact .ok h
  | some e =>
    obtain ⟨e₀, hfollows, hsize, hsound⟩ := h
    rw [observeEncodedBlock]
    cases (e.observeEncodedBlock page).1 with
    | error err => exact .error trivial
    | ok _ => exact .ok ⟨e₀, hfollows.after hsize (.encodedBlock page), hsize, hsound⟩

/-! ### Turns of the loops -/

lemma runtimeFilterRejectsSlot_spec (decisions : List (Except String Filter.ProbeDecision)) :
    Outcome (runtimeFilterRejectsSlot decisions) (fun _ => True) IsForeign := by
  induction decisions with
  | nil => exact .ok trivial
  | cons decision decisions ih =>
    rcases decision with e | _ | _ | _
    · exact .error trivial
    · exact ih
    · exact ih
    · exact .ok trivial

/-- No filter rejects the row. -/
def Slot.kept (slot : Slot specs) : Bool :=
  match runtimeFilterRejectsSlot slot.decisions with
  | .ok false => true
  | _ => false

/-- The rows that a source has still to deliver. -/
def SlotScanPageSource.undelivered (source : SlotScanPageSource specs) : Rows :=
  (source.pendingOverflow.toList ++ (source.slots.take source.remaining).filter Slot.kept).map
    Slot.row

/-- A source of a scan with the rows `all`: `delivered` is in the pages that it has returned, and
`held` in the page that is being filled. -/
structure Tracks (blockSize : ℕ) (all : Rows) (s : SlotScanPageSource specs)
    (delivered held : Rows) : Prop where
  blockSize : s.blockSize = blockSize
  fetch : s.fetchBatchRows < 2 ^ 32
  drains : s.singleRowDrains = specs.any fun spec => spec.typeTag.isView
  sound : Sound specs s.estimator
  rows : delivered ++ (held ++ s.undelivered) = all

/-- The plan of the page that is being filled. -/
structure Planned (specs : List ColumnSpec) (blockSize : ℕ) (plan : LayoutPlan) : Prop where
  valid : plan.Valid specs
  size : plan.blockSize = blockSize
  pos : 1 ≤ plan.maxRows
  lt : plan.maxRows < 2 ^ 32

/-- The invariant of the loops, with a bound on the turns that are left. An estimate of `2 ^ k` rows
can be halved `k` times. -/
def Phase.Inv (blockSize : ℕ) (all delivered : Rows) (n : ℕ) : Phase specs → Prop
  | .planning s payload => Tracks blockSize all s delivered [] ∧ payload.length = blockSize ∧
      ∃ k, s.slots.length + 2 * k + 2 ≤ n ∧
        ∀ m, estimateRowsPerPage s.estimator s.fetchBatchRows = .ok m → m ≤ 2 ^ k
  | .filling s plan encoder rowsWritten => ∃ rows, Tracks blockSize all s delivered rows ∧
      s.pendingOverflow = none ∧ Planned specs blockSize plan ∧ Written plan rows encoder ∧
      rows.length = rowsWritten ∧ ∃ k, s.slots.length + 2 * k + 1 ≤ n ∧ plan.maxRows ≤ 2 ^ k

/-- What a call returns: the next rows, or the end when there are none. -/
def Returned (blockSize : ℕ) (all delivered : Rows) : FillResult specs → Prop
  | (some len, buffer, s) => ∃ rows, rows ≠ [] ∧ Tracks blockSize all s (delivered ++ rows) [] ∧
      HoldsRows specs (buffer.take len) rows
  | (none, _, _) => delivered = all

section Turns

variable {s : SlotScanPageSource specs} {all delivered rows : Rows} {plan : LayoutPlan}
  {encoder : PageRowEncoder} {blockSize n : ℕ} (hsize : blockSize < 0x80000000)

/-- A page planned anew, after a first row that did not fit. -/
lemma replan (ht : Tracks blockSize all s delivered []) {slot : Slot specs}
    (hslot : longSum slot.row ≠ 0)
    {payload : List UInt8} (hlen : payload.length = blockSize) {k m : ℕ} (hk : m ≤ 2 ^ k)
    (hn : s.slots.length + 2 * k ≤ n) :
    Outcome (observeEmptyFullPage s.estimator m) (fun estimator =>
      Phase.Inv blockSize all delivered n (.planning { s with estimator } payload)) IsForeign := by
  have hspec := observeEmptyFullPage_spec ht.sound hslot m
  refine ⟨fun estimator hok => ?_, hspec.2⟩
  obtain ⟨hsound, hone, e, rfl, hwidth, hcap⟩ := hspec.1 _ hok
  obtain ⟨k, rfl⟩ : ∃ j, k = j + 1 := Nat.exists_eq_succ_of_ne_zero (by rintro rfl; omega)
  refine ⟨{ ht with sound := hsound }, hlen, k, by dsimp only; omega, fun m' hm' => ?_⟩
  have := ((estimateRowsPerPage_spec hsound ht.fetch).1 m' hm').2.2 e rfl hwidth
  omega

include hsize

/-- The head of the outer loop. -/
lemma planPage_spec {payload : List UInt8}
    (h : Phase.Inv blockSize all delivered n (.planning s payload)) :
    Outcome (planPage s payload) (fun p => ∃ k < n, p.Inv blockSize all delivered k) IsForeign := by
  obtain ⟨ht, hlen, k, hn, hk⟩ := h
  have hest := estimateRowsPerPage_spec ht.sound ht.fetch
  rw [planPage]
  refine Outcome.bind (P := fun m => (1 ≤ m ∧ m < 2 ^ 32) ∧ m ≤ 2 ^ k)
    ⟨fun m hm => ⟨⟨(hest.1 m hm).1, (hest.1 m hm).2.1⟩, hk m hm⟩, hest.2⟩ fun m hm => ?_
  obtain ⟨⟨hpos, hlt⟩, hmk⟩ := hm
  cases hplan : LayoutPlan.new specs m s.blockSize with
  | error e => exact .error trivial
  | ok plan =>
    obtain ⟨hvalid, rfl, hb⟩ := LayoutPlan.new_spec hplan
    rw [ht.blockSize] at hb
    obtain ⟨block, encoder, hinit, hnew, hw⟩ :=
      written_init hvalid hlt (hb ▸ hsize) (hlen.trans hb.symm)
    rw [mapError_ok, ok_bind, refuse_of_not (by omega), ok_bind, hinit, mapError_ok, ok_bind, hnew,
      mapError_ok, ok_bind]
    have hp : Planned specs blockSize plan := ⟨hvalid, hb, hpos, hlt⟩
    cases hpending : s.pendingOverflow with
    | none =>
      exact .ok ⟨s.slots.length + 2 * k + 1, by omega, [], ht, hpending, hp, hw, rfl, k,
        le_rfl, hmk⟩
    | some slot =>
      obtain ⟨r, encoder', hrun, hcases⟩ := hw.append hvalid (hb ▸ hsize) slot
      dsimp only
      rw [hrun]
      rcases hcases with ⟨rfl, hw'⟩ | ⟨rfl, hw', hslot⟩ | ⟨e, rfl⟩
      · refine .ok ⟨s.slots.length + 2 * k + 1, by omega, [slot.row], { ht with rows := ?_ }, rfl,
          hp, hw', rfl, k, le_rfl, hmk⟩
        rw [← ht.rows, SlotScanPageSource.undelivered, SlotScanPageSource.undelivered, hpending]
        simp
      · exact (replan ht (hslot hpos) (hw'.1.trans hb) hmk (n := n - 1) (by omega)).bind
          fun estimator hinv => .ok ⟨n - 1, by omega, hpending ▸ hinv⟩
      · exact .error trivial

/-- The page after these rows of a drain: a row that did not fit is the only one of its drain. -/
def Received (plan : LayoutPlan) (rows : Rows) (rowBudget : ℕ) (done : List (Slot specs))
    (draft : Draft specs) : Prop :=
  ∃ rows', Written plan rows' draft.encoder ∧ rows'.length = draft.rowsWritten ∧
    rows'.length ≤ rows.length + done.length ∧
    rows' ++ draft.pendingOverflow.toList.map Slot.row = rows ++
      (done.filter Slot.kept).map Slot.row ∧
    ∀ slot, draft.pendingOverflow = some slot → longSum slot.row ≠ 0 ∧ rowBudget = 1 ∧
      1 ≤ done.length

/-- The rows of a batch go to the page, but for those that a filter rejects and one that does not
fit. -/
lemma receiveSlots_spec (hp : Planned specs blockSize plan) (hw : Written plan rows encoder)
    {rowBudget : ℕ} {batch : List (Slot specs)} (hlen : batch.length ≤ rowBudget)
    (hroom : rows.length + batch.length ≤ plan.maxRows)
    (hbudget : rowBudget ≠ 1 → (specs.any fun spec => spec.typeTag.isView) = false) :
    Outcome (batch.foldlM (receiveSlot rowBudget plan.maxRows) ⟨encoder, rows.length, none⟩)
      (Received plan rows rowBudget batch) IsForeign := by
  refine Outcome.foldlM (Received plan rows rowBudget)
    ⟨rows, hw, rfl, le_rfl, by simp, fun _ h => absurd h.symm (Option.some_ne_none _)⟩ ?_
  rintro done slot rest ⟨encoder, written, pending⟩ rfl ⟨rows', hw', rfl, hle, heq, hpending⟩
  rw [List.length_append, List.length_cons] at hlen hroom
  obtain rfl : pending = none := by
    cases pending with
    | none => rfl
    | some slot' => have := hpending slot' rfl; omega
  rw [Option.toList_none, List.map_nil, List.append_nil] at heq
  have hdone : (done ++ [slot]).length = done.length + 1 := List.length_append
  rw [receiveSlot]
  refine Outcome.bind (P := (runtimeFilterRejectsSlot slot.decisions = .ok ·))
    ⟨fun _ h => h, (runtimeFilterRejectsSlot_spec _).2⟩ fun rejected hrejected => ?_
  have hkept : (done ++ [slot]).filter Slot.kept = done.filter Slot.kept ++ if rejected then []
    else [slot] := by
    rw [List.filter_append, List.filter_singleton, Slot.kept, hrejected]
    cases rejected <;> rfl
  cases rejected with
  | true =>
    exact .ok ⟨rows', hw', rfl, by omega, by rw [hkept, heq]; simp, fun _ h =>
      absurd h.symm (Option.some_ne_none _)⟩
  | false =>
    obtain ⟨r, encoder', hrun, hcases⟩ := hw'.append hp.valid (hp.size ▸ hsize) slot
    simp only [Bool.false_eq_true, if_false, hrun]
    rcases hcases with ⟨rfl, hw''⟩ | ⟨rfl, hw'', hslot⟩ | ⟨e, rfl⟩
    · have hlength : (rows' ++ [slot.row]).length = rows'.length + 1 := List.length_append
      exact .ok ⟨rows' ++ [slot.row], hw'', hlength, by omega, by rw [hkept, heq]; simp,
        fun _ h => absurd h.symm (Option.some_ne_none _)⟩
    · have hone : rowBudget = 1 := by
        by_contra hmany
        exact hslot (by omega) (slot.longSum_eq_zero (hbudget hmany))
      rw [refuse_of_not (not_not.mpr hone)]
      refine .ok ⟨rows', hw'', rfl, by omega, by rw [hkept, heq]; simp, fun slot' h => ?_⟩
      obtain rfl := Option.some.inj h
      exact ⟨hslot (by omega), hone, by omega⟩
    · exact .error trivial

/-- What a drain makes of the source and the page. -/
structure Drained (blockSize : ℕ) (all delivered : Rows) (s : SlotScanPageSource specs)
    (plan : LayoutPlan) (rowsConsumed : ℕ) (eof : Bool) (s' : SlotScanPageSource specs)
    (draft : Draft specs) (rows : Rows) : Prop where
  written : Written plan rows draft.encoder
  count : rows.length = draft.rowsWritten
  tracks : Tracks blockSize all s' delivered rows
  shorter : s'.slots.length + rowsConsumed ≤ s.slots.length
  ended : eof = true → s'.pendingOverflow = none → s'.undelivered = []
  progress : eof = false → 1 ≤ rowsConsumed
  wide : ∀ slot, s'.pendingOverflow = some slot → longSum slot.row ≠ 0

lemma drainSlots_spec (ht : Tracks blockSize all s delivered rows)
    (hnone : s.pendingOverflow = none)
    (hp : Planned specs blockSize plan) (hw : Written plan rows encoder) {rowBudget : ℕ}
    (hpos : 1 ≤ rowBudget) (hroom : rows.length + rowBudget ≤ plan.maxRows)
    (hbudget : rowBudget ≠ 1 → (specs.any fun spec => spec.typeTag.isView) = false) :
    Outcome (drainSlots rowBudget plan.maxRows s ⟨encoder, rows.length, none⟩)
      (fun r => ∃ rows', Drained blockSize all delivered s plan r.1 r.2.1 r.2.2.1 r.2.2.2 rows')
      IsForeign := by
  rw [drainSlots]
  split_ifs with hzero
  · refine .ok ⟨rows, hw, rfl, ht, le_rfl, fun _ _ => ?_, Bool.noConfusion, fun slot h => ?_⟩
    · rw [SlotScanPageSource.undelivered, hnone, hzero]
      rfl
    · rw [hnone] at h
      cases h
  rw [refuse_of_not (by omega), ok_bind]
  generalize hfetch : cursorFetchRows (max s.fetchBatchRows 1) rowBudget s.remaining = fetchRows
  rw [cursorFetchRows] at hfetch
  have hlen : (s.slots.take fetchRows).length = min fetchRows s.slots.length := List.length_take
  refine (receiveSlots_spec hsize hp hw (by omega) (by omega) hbudget).bind
    fun draft hdraft => ?_
  obtain ⟨rows', hw', hcount, -, heq, hpending⟩ := hdraft
  -- what the cursor has left stands behind the batch
  have hsplit : s.slots.take s.remaining = s.slots.take fetchRows ++
      (s.slots.drop fetchRows).take (s.remaining - (s.slots.take fetchRows).length) := by
    rw [show s.remaining = fetchRows + (s.remaining - fetchRows) by omega, List.take_add]
    by_cases hshort : fetchRows ≤ s.slots.length
    · rw [hlen, Nat.min_eq_left hshort, Nat.add_sub_cancel_left]
    · rw [List.drop_eq_nil_of_le (by omega), List.take_nil, List.take_nil]
  refine .ok ⟨rows', hw', hcount, { ht with rows := ?_ }, ?_, ?_, ?_,
    fun slot h => (hpending slot h).1⟩
  · rw [← ht.rows, SlotScanPageSource.undelivered, SlotScanPageSource.undelivered, hnone, hsplit,
      List.map_append, ← List.append_assoc rows', heq]
    simp
  · rw [hlen, List.length_drop]
    omega
  · intro heof hpend
    rw [SlotScanPageSource.undelivered, hpend]
    dsimp only
    rcases of_decide_eq_true heof with h | h
    · rw [h]
      rfl
    · rw [List.drop_eq_nil_of_le (by omega), List.take_nil]
      rfl
  · intro heof
    have := of_decide_eq_false heof
    omega

/-- A page with rows is returned. -/
lemma finishPage_spec (ht : Tracks blockSize all s delivered rows)
    (hp : Planned specs blockSize plan) (hw : Written plan rows encoder) (hne : 0 < rows.length) :
    Outcome (finishPage s encoder) (Returned blockSize all delivered) IsForeign := by
  obtain ⟨batch, hfinish, hholds⟩ := hw.finish hp.valid hp.lt (hp.size ▸ hsize)
  rw [finishPage, hfinish, mapError_ok, ok_bind]
  refine (observeEncodedBlock_spec ht.sound _).bind fun estimator hsound =>
    .ok ⟨rows, List.ne_nil_of_length_pos hne, { ht with sound := hsound, rows := ?_ }, hholds⟩
  rw [List.append_assoc]
  exact ht.rows

/-- A turn of the inner loop. -/
lemma fillPage_spec {rowsWritten : ℕ}
    (h : Phase.Inv blockSize all delivered n (.filling s plan encoder rowsWritten)) :
    Outcome (fillPage s plan encoder rowsWritten)
      (Sum.elim (fun p => ∃ k < n, p.Inv blockSize all delivered k)
      (Returned blockSize all delivered)) IsForeign := by
  obtain ⟨rows, ht, hnone, hp, hw, rfl, k, hn, hk⟩ := h
  have hpos := hp.pos
  rw [fillPage]
  by_cases hfull : plan.maxRows ≤ rows.length
  · rw [if_pos hfull]
    exact (finishPage_spec hsize ht hp hw (by omega)).bind fun r hr => .ok hr
  have hbudget : (if s.singleRowDrains then 1 else plan.maxRows - rows.length) ≠ 1 →
      (specs.any fun spec => spec.typeTag.isView) = false := by
    intro hmany
    by_contra hview
    rw [ht.drains, if_pos (Bool.not_eq_false _ ▸ hview)] at hmany
    exact hmany rfl
  rw [if_neg hfull, hnone]
  refine (drainSlots_spec hsize ht hnone hp hw (by split_ifs <;> omega)
    (by split_ifs <;> omega) hbudget).bind
    fun r hr => ?_
  obtain ⟨rowsConsumed, eof, s', draft⟩ := r
  dsimp only at hr
  obtain ⟨rows', hd⟩ := hr
  have hshort := hd.shorter
  have hcount := hd.count
  have hfinish (hrows : 0 < rows'.length) := finishPage_spec hsize hd.tracks hp hd.written hrows
  dsimp only
  rw [← hcount]
  cases hpend : s'.pendingOverflow with
  | some slot =>
    rw [Option.isSome_some, if_pos rfl]
    by_cases hrows : 0 < rows'.length
    · rw [if_pos hrows]
      exact (hfinish hrows).bind fun r hr => .ok hr
    · obtain rfl := List.length_eq_zero_iff.mp (Nat.eq_zero_of_not_pos hrows)
      rw [if_neg hrows, ← hpend]
      exact (replan hd.tracks (hd.wide slot hpend) (hd.written.1.trans hp.size) hk (n := n - 1)
        (by omega)).bind
        fun estimator hinv => .ok ⟨n - 1, by omega, hinv⟩
  | none =>
    rw [Option.isSome_none, if_neg Bool.false_ne_true]
    cases eof with
    | true =>
      rw [if_pos rfl]
      by_cases hrows : rows'.length = 0
      · obtain rfl := List.length_eq_zero_iff.mp hrows
        rw [if_pos hrows]
        have hall := hd.tracks.rows
        rw [hd.ended rfl hpend, List.append_nil, List.append_nil] at hall
        exact .ok hall
      · rw [if_neg hrows]
        exact (hfinish (by omega)).bind fun r hr => .ok hr
    | false =>
      have hprogress := hd.progress rfl
      rw [if_neg Bool.false_ne_true, refuse_of_not (by omega)]
      exact .ok ⟨n - 1, by omega, rows', hd.tracks, hpend, hp, hd.written, rfl, k, by omega, hk⟩

/-- **One call**, from any source that a scan leads to. -/
lemma fillNextPage_spec (ht : Tracks blockSize all s delivered []) {payload : List UInt8}
    (hlen : blockSize ≤ payload.length) {fuel : ℕ} (hfuel : s.slots.length + 66 < fuel) :
    ∃ r, fillNextPage fuel payload s = some r ∧
      Outcome r (Returned blockSize all delivered) IsForeign := by
  rw [fillNextPage, if_neg (by rw [ht.blockSize]; omega), ht.blockSize]
  refine rounds_spec (Phase.Inv blockSize all delivered) (fun n p hinv => ?_) ?_ hfuel
  · cases p with
    | planning s payload => exact (planPage_spec hsize hinv).bind fun p hp => .ok hp
    | filling s plan encoder rowsWritten => exact fillPage_spec hsize hinv
  · refine ⟨ht, by rw [List.length_take]; omega, 32, le_rfl, fun m hm => ?_⟩
    exact ((estimateRowsPerPage_spec ht.sound ht.fetch).1 m hm).2.1.le

end Turns

/-! ### Scans -/

/-- A source and the pages that it has returned so far. -/
structure Delivery (specs : List ColumnSpec) where
  source : SlotScanPageSource specs
  pages : List (List UInt8)

/-- The next call, if it returns a page. -/
def Delivery.call (d : Delivery specs) (payload : List UInt8) : Option (Delivery specs) :=
  match fillNextPage (d.source.slots.length + 67) payload d.source with
  | some (.ok (some len, buffer, source)) => some ⟨source, d.pages ++ [buffer.take len]⟩
  | _ => none

/-- The pages hold these chunks, and the source has the rest of the rows. -/
def Delivered (blockSize : ℕ) (all : Rows) (d : Delivery specs) (chunks : List Rows) : Prop :=
  List.Forall₂ (HoldsRows specs) d.pages chunks ∧ (∀ chunk ∈ chunks, chunk ≠ []) ∧
    Tracks blockSize all d.source chunks.flatten []

lemma delivered_new {blockSize fetchBatchRows tail localRowCap : ℕ}
    {estimator : Option PageRowEstimator}
    (slots : List (Slot specs)) (hfetch : fetchBatchRows < 2 ^ 32)
    (hestimator : scanPageEstimator specs blockSize tail = .ok estimator) :
    Delivered blockSize (((slots.take localRowCap).filter Slot.kept).map Slot.row)
      ⟨.new blockSize fetchBatchRows estimator slots localRowCap, []⟩ [] := by
  have hsound := sound_of_scanPageEstimator hestimator
  refine ⟨.nil, nofun, rfl, hfetch, ?_, hsound, rfl⟩
  cases estimator with
  | none => exact (show specs.any _ = false by rw [show specs = [] from hsound]; rfl).symm
  | some e =>
    obtain ⟨e₀, hfollows, -, -, -, hwidth⟩ := hsound
    exact hfollows.width.trans hwidth

/-- One more page. -/
lemma Delivered.call {blockSize : ℕ} {all : Rows} {d d' : Delivery specs} {chunks : List Rows}
    (h : Delivered blockSize all d chunks) (hsize : blockSize < 0x80000000) {payload : List UInt8}
    (hlen : blockSize ≤ payload.length) (hcall : d.call payload = some d') :
    ∃ rows, Delivered blockSize all d' (chunks ++ [rows]) := by
  obtain ⟨hpages, hne, ht⟩ := h
  obtain ⟨r, hfill, hr⟩ := fillNextPage_spec hsize ht hlen (Nat.lt_succ_self _)
  rw [Delivery.call, hfill] at hcall
  rcases r with e | ⟨_ | len, buffer, s⟩
  · cases hcall
  · cases hcall
  · obtain rfl := Option.some.inj hcall
    obtain ⟨rows, hrows, ht', hholds⟩ := hr.1 _ rfl
    refine ⟨rows, List.rel_append hpages (.cons hholds .nil), ?_, by simpa using ht'⟩
    simpa [or_imp, forall_and] using ⟨hne, hrows⟩

/-- **The pages of a scan hold its rows.** Whatever the rows are, the pages that a source has
returned so far can be read and hold the first of the rows that no filter rejects, in their order
and each once; no page is empty. The next call ends within a bounded number of turns. If it reports
the end, all rows have been delivered; if it fails, that is for an error of the planner, the
estimator, the encoder or a filter. -/
theorem pages_deliver_rows (blockSize fetchBatchRows tail localRowCap : ℕ)
    (estimator : Option PageRowEstimator)
    (slots : List (Slot specs)) (hsize : blockSize < 0x80000000) (hfetch : fetchBatchRows < 2 ^ 32)
    (hestimator : scanPageEstimator specs blockSize tail = .ok estimator) (d : Delivery specs)
    (hrun : Runs Delivery.call (fun _ payload => blockSize ≤ payload.length)
      ⟨.new blockSize fetchBatchRows estimator slots localRowCap, []⟩ d) :
    ∃ chunks, List.Forall₂ (HoldsRows specs) d.pages chunks ∧ (∀ chunk ∈ chunks, chunk ≠ []) ∧
      chunks.flatten <+: ((slots.take localRowCap).filter Slot.kept).map Slot.row ∧
      ∀ payload fuel, blockSize ≤ payload.length → d.source.slots.length + 66 < fuel →
        ∃ r, fillNextPage fuel payload d.source = some r ∧
          (∀ buffer source, r = .ok (none, buffer, source) →
            chunks.flatten = ((slots.take localRowCap).filter Slot.kept).map Slot.row) ∧
          ∀ e, r = .error e → e.IsForeign := by
  obtain ⟨chunks, hpages, hne, ht⟩ :=
    hrun.invariant (P := fun d => ∃ chunks, Delivered blockSize _ d chunks)
    ⟨[], delivered_new slots hfetch hestimator⟩ fun d payload d' h hlen hcall =>
      h.elim fun _ h => (h.call hsize hlen hcall).imp' _ fun _ => id
  refine ⟨chunks, hpages, hne, ⟨_, ht.rows⟩, fun payload fuel hlen hfuel => ?_⟩
  obtain ⟨r, hfill, hr⟩ := fillNextPage_spec hsize ht hlen hfuel
  exact ⟨r, hfill, fun buffer source heq => hr.1 _ heq, hr.2⟩

/-- A row of one text. -/
def textSlot (text : List UInt8) (decision : Filter.ProbeDecision) : Slot [⟨.utf8View, false⟩] :=
  ⟨.row (textRow text), [.bytes text], typed_textRow text, [.ok decision]⟩

/-- Two long texts, and one between them that a filter rejects. -/
def twoTexts : List (Slot [⟨.utf8View, false⟩]) :=
  [textSlot (List.replicate 100 65) .maybePresent, textSlot [66] .definitelyAbsent,
    textSlot (List.replicate 100 67) .passUnfiltered]

/-- Each of the two is on a page of its own. -/
theorem pages_deliver_rows_two_texts :
    ∃ estimator d, scanPageEstimator [⟨.utf8View, false⟩] 220 20 = .ok estimator ∧
      Runs Delivery.call (fun _ payload => 220 ≤ payload.length)
        ⟨.new 220 8 estimator twoTexts 9, []⟩ d ∧
      d.pages.length = 2 ∧ ∃ chunks, List.Forall₂ (HoldsRows [⟨.utf8View, false⟩]) d.pages chunks ∧
        chunks.flatten <+: [[.bytes (List.replicate 100 65)],
          [.bytes (List.replicate 100 67)]] := by
  have hpages : ((scanPageEstimator [⟨.utf8View, false⟩] 220 20).toOption.bind fun estimator =>
      runCalls Delivery.call (fun _ payload => 220 ≤ payload.length)
        ⟨.new 220 8 estimator twoTexts 9, []⟩
        [List.replicate 220 0, List.replicate 220 0]).map (·.pages.length) = some 2 := by
          decide +kernel
  obtain ⟨d, hd, htwo⟩ := Option.map_eq_some_iff.mp hpages
  obtain ⟨estimator, hestimator, hd⟩ := Option.bind_eq_some_iff.mp hd
  cases hok : scanPageEstimator [⟨.utf8View, false⟩] 220 20 with
  | error e =>
    rw [hok] at hestimator
    cases hestimator
  | ok e =>
    rw [hok] at hestimator
    obtain rfl := Option.some.inj hestimator
    have hrun := (runs_of_runCalls hd).mono fun _ _ h => of_decide_eq_true h
    obtain ⟨chunks, hchunks, -, hprefix, -⟩ :=
      pages_deliver_rows 220 8 20 9 e twoTexts (by norm_num) (by norm_num) hok d hrun
    exact ⟨e, d, rfl, hrun, htwo, chunks, hchunks, hprefix⟩

end PgFusion.BackendService

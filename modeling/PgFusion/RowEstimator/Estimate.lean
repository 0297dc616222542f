import Mathlib.Algebra.Order.Floor.Div
import PgFusion.ArrowLayout.Plan
import PgFusion.Data.Bisect

/-!
How many rows to plan for a page (`page/row_estimator`). An observation returns its result and the
estimator after it.

* `estimate_eq`: the search finds the largest number of rows that fits;
* `estimates_largest`: in every reachable estimator, and when `new` succeeds.
-/

namespace PgFusion

open Fallible ArrowLayout

namespace RowEstimator

/-! ### The source -/

/-- `EstimateError`. -/
inductive EstimateError where
  | noPhysicalColumns
  | layoutCannotFitAnyRows (blockSize : ℕ)
  | layout (e : LayoutError)
  | observationRowsExceedFixedCap (rowCount fixedRowCap : ℕ)
  | observationTailTooLarge (rowCount tailBytesUsed sharedPoolCapacity : ℕ)
  | observationOverflow
  | blockSizeMismatch (expected actual : ℕ)
  | columnCountMismatch (expected actual : ℕ)
  | columnMismatch (index : ℕ) (expectedType actualType : TypeTag)
      (expectedNullable actualNullable : Bool)
  | emptyFullBackoffRequiresVariableWidth
  | invalidEmptyFullAttempt (attemptedRows fixedRowCap : ℕ)
  | singleRowDoesNotFitPage (blockSize : ℕ)
  | arithmeticOverflow
deriving DecidableEq

/-- `PageRowEstimator`; of the configuration its one field. -/
structure PageRowEstimator where
  specs : List ColumnSpec
  blockSize : ℕ
  fixedRowCap : ℕ
  hasVariableWidth : Bool
  initialTailBytesPerRow : ℕ
  observedRows : ℕ
  observedTailBytes : ℕ
  backoffRowCap : Option ℕ
deriving DecidableEq

/-- `PageRowEstimate`. -/
structure PageRowEstimate where
  rowsPerPage : ℕ
  fixedRowCap : ℕ
  estimatedTailBytesPerRow : ℕ
  expectedTailBytes : ℕ
deriving DecidableEq

/-- A `u64` that has to fit. -/
def checkedU64 (n : ℕ) : Except EstimateError ℕ :=
  if n < 2 ^ 64 then .ok n else .error .arithmeticOverflow

/-- `ceil_div_u64`. -/
def ceilDivU64 (num den : ℕ) : Except EstimateError ℕ :=
  if den = 0 then .error .arithmeticOverflow
  else do
    let adjusted ← checkedU64 (num + (den - 1))
    return adjusted / den

/-- The probe of `compute_fixed_row_cap`. -/
def planFits (specs : List ColumnSpec) (blockSize mid : ℕ) : Except EstimateError Bool :=
  match LayoutPlan.new specs mid blockSize with
  | .ok _ => .ok true
  | .error (.layoutDoesNotFit _ _) => .ok false
  | .error e => .error (.layout e)

/-- `compute_fixed_row_cap`. -/
def computeFixedRowCap (specs : List ColumnSpec) (blockSize : ℕ) : Except EstimateError ℕ := do
  let _ ← (LayoutPlan.new specs 0 blockSize).mapError .layout
  refuse (2 ^ 32 ≤ blockSize * 8) .arithmeticOverflow
  bisect (planFits specs blockSize) 0 (blockSize * 8)

namespace PageRowEstimator

/-- `PageRowEstimator::new`. -/
def new (specs : List ColumnSpec) (blockSize initialTailBytesPerRow : ℕ) :
    Except EstimateError PageRowEstimator := do
  refuse (specs = []) .noPhysicalColumns
  let fixedRowCap ← computeFixedRowCap specs blockSize
  refuse (fixedRowCap = 0) (.layoutCannotFitAnyRows blockSize)
  return ⟨specs, blockSize, fixedRowCap, specs.any fun spec => spec.typeTag.isView,
    initialTailBytesPerRow, 0, 0, none⟩

/-- `PageRowEstimator::estimated_tail_ratio`. -/
def estimatedTailRatio (e : PageRowEstimator) : ℕ × ℕ :=
  if e.observedRows = 0 then (e.initialTailBytesPerRow, 1)
  else (e.observedTailBytes, e.observedRows)

/-- `PageRowEstimator::estimated_tail_bytes_per_row`. -/
def estimatedTailBytesPerRow (e : PageRowEstimator) : ℕ :=
  if e.hasVariableWidth = false then 0
  else
    match ceilDivU64 e.estimatedTailRatio.1 e.estimatedTailRatio.2 with
    | .ok value => if value < 2 ^ 32 then value else 2 ^ 32 - 1
    | .error _ => 2 ^ 32 - 1

/-- The highest number of rows that is considered. -/
def currentCap (e : PageRowEstimator) : ℕ := e.backoffRowCap.getD e.fixedRowCap

/-- `expected_tail_bytes` of so many rows in `estimate`. -/
def expectedTailBytes (e : PageRowEstimator) (n : ℕ) : Except EstimateError ℕ := do
  ceilDivU64 (← checkedU64 (n * e.estimatedTailRatio.1)) e.estimatedTailRatio.2

/-- The probe of `estimate`. -/
def tailFits (e : PageRowEstimator) (mid : ℕ) : Except EstimateError Bool := do
  let plan ← (LayoutPlan.new e.specs mid e.blockSize).mapError .layout
  let expectedTailBytes ← e.expectedTailBytes mid
  return decide (expectedTailBytes ≤ plan.sharedPoolCapacity)

/-- `PageRowEstimator::estimate`. -/
def estimate (e : PageRowEstimator) : Except EstimateError PageRowEstimate :=
  if e.hasVariableWidth = false then .ok ⟨e.fixedRowCap, e.fixedRowCap, 0, 0⟩
  else do
    let low ← bisect e.tailFits 0 e.currentCap
    let expectedTailBytes ← (if low = 0 then
      ceilDivU64 e.estimatedTailRatio.1 e.estimatedTailRatio.2
      else e.expectedTailBytes (max low 1))
    refuse (2 ^ 32 ≤ expectedTailBytes) .arithmeticOverflow
    return ⟨max low 1, e.fixedRowCap, e.estimatedTailBytesPerRow, expectedTailBytes⟩

/-- `PageRowEstimator::observe_page`. -/
def observePage (e : PageRowEstimator) (rowCount tailBytesUsed : ℕ) :
    Except EstimateError Unit × PageRowEstimator :=
  if rowCount = 0 ∨ e.hasVariableWidth = false then (.ok (), e)
  else if e.fixedRowCap < rowCount then
    (.error (.observationRowsExceedFixedCap rowCount e.fixedRowCap), e)
  else
    match LayoutPlan.new e.specs rowCount e.blockSize with
    | .error err => (.error (.layout err), e)
    | .ok plan =>
      if plan.sharedPoolCapacity < tailBytesUsed then
        (.error (.observationTailTooLarge rowCount tailBytesUsed plan.sharedPoolCapacity), e)
      else if 2 ^ 64 ≤ e.observedRows + rowCount then (.error .observationOverflow, e)
      -- the rows are counted before the tail is added
      else if 2 ^ 64 ≤ e.observedTailBytes + tailBytesUsed then
        (.error .observationOverflow, { e with observedRows := e.observedRows + rowCount })
      else (.ok (), { e with
        observedRows := e.observedRows + rowCount
        observedTailBytes := e.observedTailBytes + tailBytesUsed
        backoffRowCap := none })

/-- `PageRowEstimator::observe_empty_full_page`. -/
def observeEmptyFullPage (e : PageRowEstimator) (attemptedRows : ℕ) :
    Except EstimateError Unit × PageRowEstimator :=
  if e.hasVariableWidth = false then (.error .emptyFullBackoffRequiresVariableWidth, e)
  else if attemptedRows = 0 ∨ e.fixedRowCap < attemptedRows then
    (.error (.invalidEmptyFullAttempt attemptedRows e.fixedRowCap), e)
  else if attemptedRows = 1 then (.error (.singleRowDoesNotFitPage e.blockSize), e)
  else
    let nextCap := (attemptedRows + 1) / 2
    (.ok (), { e with
      backoffRowCap := some (e.backoffRowCap.elim nextCap fun current => min current nextCap) })

/-- What `observe_encoded_block` reads off a block: its rows and the bytes of its tail. -/
def encodedObservation (e : PageRowEstimator) (block : List UInt8) :
    Except EstimateError (ℕ × ℕ) := do
  let r ← (BlockRef.openBlock block).mapError .layout
  refuse (r.header.blockSize ≠ e.blockSize) (.blockSizeMismatch e.blockSize r.header.blockSize)
  refuse (r.header.colCount ≠ e.specs.length)
    (.columnCountMismatch e.specs.length r.header.colCount)
  e.specs.zipIdx.forM fun (expected, index) => do
    let actual ← (r.columnLayout index).mapError .layout
    let actualNullable := flagsContain actual.flags flagNullable
    refuse (actual.typeTag ≠ expected.typeTag ∨ actualNullable ≠ expected.nullable)
      (.columnMismatch index expected.typeTag actual.typeTag expected.nullable actualNullable)
  let len ← (checkedSub r.header.blockSize r.header.tailCursor .invalidHeaderBounds).mapError
    .layout
  let tail ← (blockRange r.block r.header.tailCursor len).mapError .layout
  refuse (2 ^ 32 ≤ tail.length) .arithmeticOverflow
  return (r.header.rowCount, tail.length)

/-- `PageRowEstimator::observe_encoded_block`. -/
def observeEncodedBlock (e : PageRowEstimator) (block : List UInt8) :
    Except EstimateError Unit × PageRowEstimator :=
  match e.encodedObservation block with
  | .error err => (.error err, e)
  | .ok (rowCount, tailBytesUsed) => e.observePage rowCount tailBytesUsed

/-- The calls that change an estimator. -/
inductive Observation where
  | page (rowCount tailBytesUsed : ℕ)
  | emptyFullPage (attemptedRows : ℕ)
  | encodedBlock (block : List UInt8)

/-- The estimator after a call. -/
def after (e : PageRowEstimator) : Observation → PageRowEstimator
  | .page rowCount tailBytesUsed => (e.observePage rowCount tailBytesUsed).2
  | .emptyFullPage attemptedRows => (e.observeEmptyFullPage attemptedRows).2
  | .encodedBlock block => (e.observeEncodedBlock block).2

/-! ### What an estimate is for -/

/-- The tail that so many rows are expected to have: of the observed ratio, or of the configured one
before any observation, and none without a column of variable width. -/
def expectedTail (e : PageRowEstimator) (n : ℕ) : ℕ :=
  if e.hasVariableWidth then n * e.estimatedTailRatio.1 ⌈/⌉ e.estimatedTailRatio.2 else 0

/-- The expected tail of so many rows fits the pool of their plan. -/
def TailFits (e : PageRowEstimator) (n : ℕ) : Prop :=
  ∃ plan, LayoutPlan.new e.specs n e.blockSize = .ok plan ∧ e.expectedTail n ≤
    plan.sharedPoolCapacity

end PageRowEstimator

end RowEstimator

/-! ### Plans for fewer rows -/

namespace ArrowLayout

lemma TypeTag.usedLen_mono (t : TypeTag) {m n : ℕ} (h : m ≤ n) : t.usedLen m ≤ t.usedLen n := by
  rw [usedLen, usedLen]
  cases t.valuesRowWidth with
  | none =>
    show bitmapBytes m ≤ bitmapBytes n
    rw [bitmapBytes, bitmapBytes]
    omega
  | some width => exact Nat.mul_le_mul_right width h

lemma TypeTag.bitmapBytes_le_usedLen (t : TypeTag) (n : ℕ) : bitmapBytes n ≤ t.usedLen n := by
  rw [usedLen, bitmapBytes]
  cases t <;> simp only [valuesRowWidth] <;> omega

namespace LayoutPlan

/-- The columns of fewer rows end no later. -/
lemma planColumns_mono {m n : ℕ} (hmn : m ≤ n) {specs : List ColumnSpec} {c c' e : ℕ}
    {cols : List ColumnLayout} (hc : c' ≤ c) (h : planColumns n specs c = .ok (cols, e)) :
    ∃ cols' e', planColumns m specs c' = .ok (cols', e') ∧ e' ≤ e := by
  induction specs generalizing c c' cols with
  | nil =>
    obtain ⟨-, rfl⟩ : [] = cols ∧ c = e := by
      rw [planColumns, Except.ok.injEq, Prod.mk.injEq] at h
      exact h
    exact ⟨[], c', rfl, hc⟩
  | cons spec specs ih =>
    simp only [planColumns, bind_eq_ok, pure_eq_ok, alignUpU32_eq_ok,
      TypeTag.valuesReservedLen_eq_ok, checkedAdd_eq_ok, Prod.exists, Prod.mk.injEq] at h
    obtain ⟨vl, ⟨hvl, hvl'⟩, xl, ⟨hxl, hxl'⟩, _, ⟨hv, rfl⟩, _, ⟨hx, rfl⟩, rest, last, hrest,
      -, rfl⟩ := h
    have hbits : bitmapBytes m ≤ bitmapBytes n := by
      rw [bitmapBytes, bitmapBytes]
      omega
    have hused := spec.typeTag.usedLen_mono hmn
    have hnext : c' + (bitmapBytes m + 15) / 16 * 16 + (spec.typeTag.usedLen m + 15) / 16 * 16 ≤
        c + vl + xl := by omega
    obtain ⟨cols', e', hcols, he⟩ := ih hnext hrest
    obtain ⟨all, hall⟩ : ∃ all, planColumns m (spec :: specs) c' = .ok (all, e') := by
      simp only [planColumns, bind_eq_ok, pure_eq_ok, alignUpU32_eq_ok,
        TypeTag.valuesReservedLen_eq_ok, checkedAdd_eq_ok, Prod.exists, Prod.mk.injEq]
      exact ⟨_, _, ⟨by omega, rfl⟩, _, ⟨by omega, rfl⟩, _, ⟨by omega, rfl⟩, _, ⟨by omega, rfl⟩,
        cols', e', hcols, rfl, rfl⟩
    exact ⟨all, e', hall, he⟩

/-- A plan in its parts. -/
lemma new_eq_ok {specs : List ColumnSpec} {n blockSize : ℕ} {plan : LayoutPlan} :
    LayoutPlan.new specs n blockSize = .ok plan ↔
      specs.length < 0x10000 ∧ ∃ cols e,
        planColumns n specs ((specs.length * 20 + 59) / 16 * 16 - 4) = .ok (cols, e) ∧
          e ≤ blockSize ∧
          ⟨blockSize, n, (specs.length * 20 + 59) / 16 * 16 - 4, e, cols⟩ = plan := by
  simp only [LayoutPlan.new, bind_eq_ok, refuse_eq_ok, pure_eq_ok, not_le, not_lt, Prod.exists]
  constructor
  · rintro ⟨-, hcount, front, hfront, cols, e, hcols, -, hpool, heq⟩
    rw [frontBaseFor_eq hcount, Except.ok.injEq] at hfront
    subst hfront
    exact ⟨hcount, cols, e, hcols, hpool, heq⟩
  · rintro ⟨hcount, cols, e, hcols, hpool, heq⟩
    exact ⟨(), hcount, _, frontBaseFor_eq hcount, cols, e, hcols, (), hpool, heq⟩

/-- A plan for fewer rows has no smaller pool. -/
lemma new_mono {m n : ℕ} (hmn : m ≤ n) {specs : List ColumnSpec} {blockSize : ℕ} {plan : LayoutPlan}
    (h : LayoutPlan.new specs n blockSize = .ok plan) :
    ∃ plan', LayoutPlan.new specs m blockSize = .ok plan' ∧
      plan.sharedPoolCapacity ≤ plan'.sharedPoolCapacity := by
  obtain ⟨hcount, cols, e, hcols, hpool, rfl⟩ := new_eq_ok.mp h
  obtain ⟨cols', e', hcols', he⟩ := planColumns_mono hmn le_rfl hcols
  exact ⟨_, new_eq_ok.mpr ⟨hcount, cols', e', hcols', he.trans hpool, rfl⟩,
    Nat.sub_le_sub_left he _⟩

/-- A row takes a quarter of a byte in each column at least. -/
lemma rows_lt {specs : List ColumnSpec} (hne : specs ≠ []) {n blockSize : ℕ} {plan : LayoutPlan}
    (h : LayoutPlan.new specs n blockSize = .ok plan) : n < 4 * blockSize := by
  obtain ⟨-, cols, e, hcols, hpool, -⟩ := new_eq_ok.mp h
  cases specs with
  | nil => exact absurd rfl hne
  | cons spec specs =>
    simp only [planColumns, bind_eq_ok, pure_eq_ok, alignUpU32_eq_ok,
      TypeTag.valuesReservedLen_eq_ok, checkedAdd_eq_ok, Prod.exists, Prod.mk.injEq] at hcols
    obtain ⟨vl, ⟨-, hvl⟩, xl, ⟨-, hxl⟩, _, ⟨-, rfl⟩, _, ⟨-, rfl⟩, rest, last, hrest, -, rfl⟩ :=
      hcols
    have hwalk := (planColumns_spec hrest).2.1.le
    have hused := spec.typeTag.bitmapBytes_le_usedLen n
    have hbits : n ≤ 8 * bitmapBytes n := by
      rw [bitmapBytes]
      omega
    rw [List.length_cons] at hwalk
    omega

/-! ### Plans for too many rows -/

lemma checkedAdd_outcome (a b : ℕ) :
    Outcome (checkedAdd a b) (· < 2 ^ 32) (· = .sizeOverflow) := by
  rw [checkedAdd, checkedU32]
  split_ifs with h
  · exact .ok h
  · exact .error rfl

lemma alignUpU32_outcome (value : ℕ) :
    Outcome (alignUpU32 value bufferAlignment) (fun _ => True) (· = .sizeOverflow) := by
  rw [alignUpU32, if_neg (by decide)]
  exact (checkedAdd_outcome _ _).bind fun _ _ => .ok trivial

lemma valuesReservedLen_outcome (t : TypeTag) (n : ℕ) :
    Outcome (t.valuesReservedLen n) (fun _ => True) (· = .sizeOverflow) := by
  have hmul : ∀ width, Outcome (alignedMul n width) (fun _ => True) (· = .sizeOverflow) := by
    intro width
    rw [alignedMul, checkedMul, checkedU32]
    split_ifs
    · exact alignUpU32_outcome _
    · exact .error rfl
  cases t <;> first | exact alignUpU32_outcome _ | exact hmul _

/-- The regions of the columns end within 32 bits, or their sizes overflow. -/
lemma planColumns_outcome (n : ℕ) (specs : List ColumnSpec) {c : ℕ} (hc : c < 2 ^ 32) :
    Outcome (planColumns n specs c) (fun r => r.2 < 2 ^ 32) (· = .sizeOverflow) := by
  induction specs generalizing c with
  | nil => exact .ok hc
  | cons spec specs ih =>
    refine (alignUpU32_outcome _).bind fun validityLen _ => ?_
    refine (valuesReservedLen_outcome _ n).bind fun valuesLen _ => ?_
    refine (checkedAdd_outcome c validityLen).bind fun valuesOff _ => ?_
    refine (checkedAdd_outcome valuesOff valuesLen).bind fun next hnext => ?_
    exact (ih hnext).bind fun r hr => .ok hr

/-- A plan that is refused for the size of its block exists in the largest one. -/
lemma new_largest_of_doesNotFit {specs : List ColumnSpec} {n blockSize b e : ℕ}
    (h : LayoutPlan.new specs n blockSize = .error (.layoutDoesNotFit b e)) :
    ∃ plan, LayoutPlan.new specs n (2 ^ 32 - 1) = .ok plan := by
  by_cases hcount : specs.length < 0x10000
  · have hcols := planColumns_outcome n specs
      (show (specs.length * 20 + 59) / 16 * 16 - 4 < 2 ^ 32 by omega)
    rw [LayoutPlan.new, refuse_of_not (not_le.mpr hcount), ok_bind, frontBaseFor_eq hcount,
      ok_bind] at h
    rcases hplan : planColumns n specs ((specs.length * 20 + 59) / 16 * 16 - 4) with err | r
    · rw [hplan, error_bind, Except.error.injEq, hcols.2 err hplan] at h
      cases h
    · have hlast := hcols.1 r hplan
      exact ⟨_, new_eq_ok.mpr ⟨hcount, r.1, r.2, hplan, by omega, rfl⟩⟩
  · rw [LayoutPlan.new, refuse_of_pos (not_lt.mp hcount)] at h
    cases h

end LayoutPlan

end ArrowLayout

namespace RowEstimator

variable {specs : List ColumnSpec} {blockSize : ℕ}

/-! ### The cap -/

/-- Below a number of rows that can be laid out at all, a probe answers. -/
lemma planFits_eq {n mid : ℕ} (hn : ∃ plan, LayoutPlan.new specs n (2 ^ 32 - 1) = .ok plan)
    (h : mid ≤ n) :
    ∃ b, planFits specs blockSize mid = .ok b ∧
      (b = true ↔ ∃ plan, LayoutPlan.new specs mid blockSize = .ok plan) := by
  obtain ⟨plan, hplan⟩ := hn
  obtain ⟨hcount, cols, e, hcols, -⟩ := LayoutPlan.new_eq_ok.mp hplan
  obtain ⟨cols', e', hcols', -⟩ := LayoutPlan.planColumns_mono h le_rfl hcols
  rw [planFits]
  by_cases hfit : e' ≤ blockSize
  · have hok := LayoutPlan.new_eq_ok.mpr ⟨hcount, cols', e', hcols', hfit, rfl⟩
    exact ⟨true, by rw [hok], iff_of_true rfl ⟨_, hok⟩⟩
  · have herror : LayoutPlan.new specs mid blockSize = .error (.layoutDoesNotFit blockSize e') := by
      rw [LayoutPlan.new, refuse_of_not (not_le.mpr hcount), ok_bind, frontBaseFor_eq hcount,
        ok_bind, hcols', ok_bind]
      dsimp only
      rw [refuse_of_pos (not_le.mp hfit)]
      rfl
    refine ⟨false, by rw [herror], iff_of_false Bool.false_ne_true ?_⟩
    rintro ⟨plan', hplan'⟩
    rw [herror] at hplan'
    cases hplan'

/-- A number of rows whose probe answers can be laid out in 32 bits. -/
lemma exists_plan_of_planFits {mid : ℕ} {b : Bool} (hsize : blockSize < 2 ^ 32)
    (h : planFits specs blockSize mid = .ok b) :
    ∃ plan, LayoutPlan.new specs mid (2 ^ 32 - 1) = .ok plan := by
  rw [planFits] at h
  split at h
  next plan hplan =>
    obtain ⟨hcount, cols, e, hcols, hpool, -⟩ := LayoutPlan.new_eq_ok.mp hplan
    exact ⟨_, LayoutPlan.new_eq_ok.mpr ⟨hcount, cols, e, hcols, by omega, rfl⟩⟩
  next hplan => exact LayoutPlan.new_largest_of_doesNotFit hplan
  next => cases h

/-- The search succeeds only where its first probe can be laid out in 32 bits. -/
lemma wide_of_computeFixedRowCap {cap : ℕ} (hpos : 0 < blockSize)
    (h : computeFixedRowCap specs blockSize = .ok cap) :
    blockSize < 2 ^ 29 ∧ ∃ plan, LayoutPlan.new specs (4 * blockSize) (2 ^ 32 - 1) = .ok plan := by
  simp only [computeFixedRowCap, bind_eq_ok, refuse_eq_ok] at h
  obtain ⟨-, -, -, hsize, hsearch⟩ := h
  have hmid : 0 + (blockSize * 8 - 0 + 1) / 2 = 4 * blockSize := by omega
  rw [bisect, if_pos (by omega), hmid] at hsearch
  refine ⟨by omega, ?_⟩
  rcases hprobe : planFits specs blockSize (4 * blockSize) with err | b
  · rw [hprobe] at hsearch
    cases hsearch
  · exact exists_plan_of_planFits (by omega) hprobe

/-- The cap is the largest number of rows with a plan. -/
lemma computeFixedRowCap_eq (hne : specs ≠ []) (hsize : blockSize < 2 ^ 29)
    (hzero : ∃ plan, LayoutPlan.new specs 0 blockSize = .ok plan)
    (hwide : ∃ plan, LayoutPlan.new specs (4 * blockSize) (2 ^ 32 - 1) = .ok plan) :
    ∃ cap, computeFixedRowCap specs blockSize = .ok cap ∧
      IsGreatest {n | ∃ plan, LayoutPlan.new specs n blockSize = .ok plan} cap := by
  have hanti : ∀ m n, m ≤ n → (∃ plan, LayoutPlan.new specs n blockSize = .ok plan) →
      ∃ plan, LayoutPlan.new specs m blockSize = .ok plan := by
    rintro m n hmn ⟨plan, hplan⟩
    obtain ⟨plan', hplan', -⟩ := LayoutPlan.new_mono hmn hplan
    exact ⟨plan', hplan'⟩
  obtain ⟨plan, hplan⟩ := hzero
  have hpos : 0 < 4 * blockSize := LayoutPlan.rows_lt hne hplan
  rw [computeFixedRowCap, hplan, mapError_ok, ok_bind, refuse_of_not (by omega), ok_bind]
  -- the first probe asks for four rows for a byte of the block, which do not fit
  have hfirst : planFits specs blockSize (4 * blockSize) = .ok false := by
    obtain ⟨b, hb, hiff⟩ : ∃ b, planFits specs blockSize (4 * blockSize) = .ok b ∧
        (b = true ↔ ∃ plan, LayoutPlan.new specs (4 * blockSize) blockSize = .ok plan) :=
          planFits_eq hwide le_rfl
    cases b with
    | false => exact hb
    | true =>
      obtain ⟨plan', hplan'⟩ := hiff.mp rfl
      exact absurd (LayoutPlan.rows_lt hne hplan') (lt_irrefl _)
  have hmid : 0 + (blockSize * 8 - 0 + 1) / 2 = 4 * blockSize := by omega
  rw [bisect, if_pos (by omega), hmid, hfirst]
  dsimp only
  obtain ⟨cap, hcap, hmem, hgreatest⟩ :=
    bisect_spec hanti (Nat.zero_le (4 * blockSize - 1)) ⟨plan, hplan⟩
    fun mid _ hle => planFits_eq hwide (by omega)
  refine ⟨cap, hcap, hmem.2, fun n hn => hgreatest ⟨?_, hn⟩⟩
  obtain ⟨plan', hplan'⟩ := hn
  have := LayoutPlan.rows_lt hne hplan'
  omega

/-! ### Observations -/

namespace PageRowEstimator

variable {e₀ e : PageRowEstimator}

/-- What the observations keep of an estimator: its shape, a cap below the fixed one, and an average
tail of less than `2 ^ 32` bytes for a row. -/
structure Follows (e₀ e : PageRowEstimator) : Prop where
  specs : e.specs = e₀.specs
  blockSize : e.blockSize = e₀.blockSize
  cap : e.fixedRowCap = e₀.fixedRowCap
  width : e.hasVariableWidth = e₀.hasVariableWidth
  initial : e.initialTailBytesPerRow = e₀.initialTailBytesPerRow
  backoff : ∀ c, e.backoffRowCap = some c → 1 ≤ c ∧ c ≤ e.fixedRowCap ∧ e.hasVariableWidth = true
  tail : e.observedTailBytes ≤ (2 ^ 32 - 1) * e.observedRows

lemma Follows.refl (hbackoff : e.backoffRowCap = none) (htail : e.observedTailBytes = 0) :
    Follows e e := by
  refine ⟨rfl, rfl, rfl, rfl, rfl, fun c hc => ?_, htail ▸ Nat.zero_le _⟩
  rw [hbackoff] at hc
  cases hc

lemma Follows.observePage (h : Follows e₀ e) (hsize : e₀.blockSize < 2 ^ 32)
    (rowCount tailBytesUsed : ℕ) :
    Follows e₀ (e.observePage rowCount tailBytesUsed).2 := by
  obtain ⟨hspecs, hblock, hcap, hwidth, hinitial, hbackoff, htail⟩ := id h
  rw [PageRowEstimator.observePage]
  rcases hplan : LayoutPlan.new e.specs rowCount e.blockSize with err | plan
  · split_ifs <;> exact h
  · dsimp only
    split_ifs with hzero hlarge hpool hrows hbytes
    · exact h
    · exact h
    · exact h
    · exact h
    · exact ⟨hspecs, hblock, hcap, hwidth, hinitial, hbackoff, htail.trans (by simp only; omega)⟩
    · refine ⟨hspecs, hblock, hcap, hwidth, hinitial, (fun c hc => by cases hc), ?_⟩
      -- a row at least, with a tail within the block
      have hused : tailBytesUsed ≤ 2 ^ 32 - 1 := by
        obtain ⟨-, cols, last, -, -, rfl⟩ := LayoutPlan.new_eq_ok.mp hplan
        rw [LayoutPlan.sharedPoolCapacity] at hpool
        dsimp only at hpool
        omega
      have hrow : 1 ≤ rowCount := Nat.one_le_iff_ne_zero.mpr fun h => hzero (Or.inl h)
      simp only
      omega

lemma Follows.after (h : Follows e₀ e) (hsize : e₀.blockSize < 2 ^ 32) (o : Observation) :
    Follows e₀ (e.after o) := by
  cases o with
  | page rowCount tailBytesUsed => exact h.observePage hsize rowCount tailBytesUsed
  | encodedBlock block =>
    rw [PageRowEstimator.after, observeEncodedBlock]
    rcases e.encodedObservation block with err | ⟨rowCount, tailBytesUsed⟩
    · exact h
    · exact h.observePage hsize rowCount tailBytesUsed
  | emptyFullPage attemptedRows =>
    rw [PageRowEstimator.after, observeEmptyFullPage]
    split_ifs with hwidth hrange hone
    · exact h
    · exact h
    · exact h
    · refine { h with backoff := fun c hc => ?_ }
      obtain rfl := Option.some.inj hc
      have htrue : e.hasVariableWidth = true := by simpa using hwidth
      cases hback : e.backoffRowCap with
      | none => exact ⟨by simp only [Option.elim]; omega, by simp only [Option.elim]; omega, htrue⟩
      | some current =>
        obtain ⟨hlow, hhigh, -⟩ := h.backoff current hback
        exact ⟨le_min hlow (by omega), (min_le_left _ _).trans hhigh, htrue⟩

/-- A run of observations. -/
lemma Follows.foldl (h : Follows e₀ e) (hsize : e₀.blockSize < 2 ^ 32) (os : List Observation) :
    Follows e₀ (os.foldl PageRowEstimator.after e) := by
  induction os generalizing e with
  | nil => exact h
  | cons o os ih => exact ih (h.after hsize o)

/-! ### The estimate -/

lemma Follows.currentCap_le (h : Follows e₀ e) : e.currentCap ≤ e.fixedRowCap := by
  rw [currentCap]
  cases hback : e.backoffRowCap with
  | none => exact le_rfl
  | some c => exact (h.backoff c hback).2.1

lemma Follows.currentCap_pos (h : Follows e₀ e) (hpos : 1 ≤ e.fixedRowCap) : 1 ≤ e.currentCap := by
  rw [currentCap]
  cases hback : e.backoffRowCap with
  | none => exact hpos
  | some c => exact (h.backoff c hback).1

lemma Follows.ratio (h : Follows e₀ e) (hinitial : e₀.initialTailBytesPerRow < 2 ^ 32) :
    0 < e.estimatedTailRatio.2 ∧ e.estimatedTailRatio.1 ≤
      (2 ^ 32 - 1) * e.estimatedTailRatio.2 := by
  have htail := h.tail
  have hinit := h.initial
  rw [estimatedTailRatio]
  split_ifs with hzero <;> simp only <;> omega

lemma ceilDivU64_eq {num den : ℕ} (hden : 0 < den) (h : num + den ≤ 2 ^ 64) :
    ceilDivU64 num den = .ok (num ⌈/⌉ den) := by
  rw [ceilDivU64, if_neg hden.ne', checkedU64, if_pos (by omega), ok_bind,
    Nat.ceilDiv_eq_add_pred_div, Nat.add_sub_assoc hden]
  rfl

variable (hden : 0 < e.estimatedTailRatio.2)
  (hroom : e.currentCap * e.estimatedTailRatio.1 + e.estimatedTailRatio.2 ≤ 2 ^ 64)

include hden hroom in
/-- The tail of a number of rows below the cap is computed. -/
lemma expectedTailBytes_eq (hwidth : e.hasVariableWidth = true) {n : ℕ} (hn : n ≤ e.currentCap) :
    e.expectedTailBytes n = .ok (e.expectedTail n) := by
  have hle : n * e.estimatedTailRatio.1 ≤ e.currentCap * e.estimatedTailRatio.1 :=
    Nat.mul_le_mul_right _ hn
  rw [expectedTailBytes, checkedU64, if_pos (by omega), ok_bind, ceilDivU64_eq hden (by omega),
    expectedTail, if_pos hwidth]

include hden hroom in
lemma tailFits_eq (hwidth : e.hasVariableWidth = true) {n : ℕ} (hn : n ≤ e.currentCap)
    (hplan : ∃ plan, LayoutPlan.new e.specs n e.blockSize = .ok plan) :
    ∃ b, e.tailFits n = .ok b ∧ (b = true ↔ e.TailFits n) := by
  obtain ⟨plan, hplan⟩ := hplan
  refine ⟨decide (e.expectedTail n ≤ plan.sharedPoolCapacity), ?_, ?_⟩
  · rw [tailFits, hplan, mapError_ok, ok_bind, expectedTailBytes_eq hden hroom hwidth hn]
    rfl
  · rw [decide_eq_true_eq]
    constructor
    · exact fun hle => ⟨plan, hplan, hle⟩
    · rintro ⟨plan', hplan', hle⟩
      rw [hplan] at hplan'
      exact Except.ok.inj hplan' ▸ hle

include hden in
/-- Fewer rows have a smaller tail and a larger pool. -/
lemma TailFits.of_le {m n : ℕ} (hmn : m ≤ n) (h : e.TailFits n) : e.TailFits m := by
  obtain ⟨plan, hplan, hle⟩ := h
  obtain ⟨plan', hplan', hpool⟩ := LayoutPlan.new_mono hmn hplan
  refine ⟨plan', hplan', le_trans ?_ (hle.trans hpool)⟩
  rw [expectedTail, expectedTail]
  split_ifs
  · rw [Nat.ceilDiv_eq_add_pred_div, Nat.ceilDiv_eq_add_pred_div, Nat.add_sub_assoc hden,
      Nat.add_sub_assoc hden]
    exact Nat.div_le_div_right (Nat.add_le_add_right (Nat.mul_le_mul_right _ hmn) _)
  · exact le_rfl

lemma expectedTail_zero (e : PageRowEstimator) : e.expectedTail 0 = 0 := by
  rw [expectedTail, Nat.zero_mul, zero_ceilDiv, ite_self]

include hden hroom in
/-- The number of rows of an estimate. -/
lemma estimate_eq (hfollows : Follows e₀ e) (hinitial : e₀.initialTailBytesPerRow < 2 ^ 32)
    (hsize : e₀.blockSize < 2 ^ 32) (hpos : 1 ≤ e.fixedRowCap)
    (hplan : ∃ plan, LayoutPlan.new e.specs e.fixedRowCap e.blockSize = .ok plan) :
    ∃ estimate m, e.estimate = .ok estimate ∧ estimate.rowsPerPage = max 1 m ∧
      IsGreatest {n | n ≤ e.currentCap ∧ e.TailFits n} m := by
  obtain ⟨plan, hplan⟩ := hplan
  have hbelow : ∀ n, n ≤ e.currentCap → ∃ plan, LayoutPlan.new e.specs n e.blockSize =
    .ok plan := by
    intro n hn
    obtain ⟨plan', hplan', -⟩ := LayoutPlan.new_mono (hn.trans hfollows.currentCap_le) hplan
    exact ⟨plan', hplan'⟩
  rw [estimate]
  cases hwidth : e.hasVariableWidth with
  | false =>
    have hcap : e.currentCap = e.fixedRowCap := by
      rw [currentCap]
      cases hback : e.backoffRowCap with
      | none => rfl
      | some c =>
        exact absurd ((hfollows.backoff c hback).2.2.symm.trans hwidth) Bool.true_eq_false.mp
    refine ⟨_, e.fixedRowCap, if_pos rfl, (max_eq_right hpos).symm, ⟨hcap.ge, plan, hplan, ?_⟩,
      fun n hn => hcap ▸ hn.1⟩
    rw [expectedTail, hwidth, if_neg Bool.false_ne_true]
    exact Nat.zero_le _
  | true =>
    have hzero : e.TailFits 0 := by
      obtain ⟨plan', hplan'⟩ := hbelow 0 (Nat.zero_le _)
      exact ⟨plan', hplan', by rw [expectedTail_zero]; exact Nat.zero_le _⟩
    obtain ⟨m, hm, hgreatest⟩ :=
      bisect_spec (fun _ _ => TailFits.of_le hden) (Nat.zero_le e.currentCap)
      hzero fun mid _ hmid => tailFits_eq hden hroom hwidth hmid (hbelow mid hmid)
    -- the tail of these rows fits 32 bits
    obtain ⟨tail, htail, hsmall⟩ : ∃ tail,
        (if m = 0 then ceilDivU64 e.estimatedTailRatio.1 e.estimatedTailRatio.2
          else e.expectedTailBytes (max m 1)) = .ok tail ∧ tail < 2 ^ 32 := by
      split_ifs with hm0
      · have hle := Nat.le_mul_of_pos_left e.estimatedTailRatio.1 (hfollows.currentCap_pos hpos)
        refine ⟨_, ceilDivU64_eq hden (by omega), ?_⟩
        have hbound := (hfollows.ratio hinitial).2
        rw [Nat.ceilDiv_eq_add_pred_div]
        exact Nat.div_lt_of_lt_mul (by omega)
      · obtain ⟨plan', hplan', hle⟩ := hgreatest.1.2
        rw [max_eq_left (Nat.one_le_iff_ne_zero.mpr hm0)]
        refine ⟨_, expectedTailBytes_eq hden hroom hwidth hgreatest.1.1, lt_of_le_of_lt hle ?_⟩
        obtain ⟨-, cols, last, -, -, rfl⟩ := LayoutPlan.new_eq_ok.mp hplan'
        exact lt_of_le_of_lt (Nat.sub_le _ _) (hfollows.blockSize ▸ hsize)
    refine ⟨⟨max m 1, e.fixedRowCap, e.estimatedTailBytesPerRow, tail⟩, m, ?_, max_comm _ _,
      hgreatest⟩
    rw [if_neg (by decide), hm, ok_bind, htail, ok_bind, refuse_of_not (not_le.mpr hsmall)]
    rfl

end PageRowEstimator

open PageRowEstimator

/-- The estimator that `new` returns. -/
lemma new_eq_ok {initialTailBytesPerRow : ℕ} {e₀ : PageRowEstimator}
    (h : PageRowEstimator.new specs blockSize initialTailBytesPerRow = .ok e₀) :
    computeFixedRowCap specs blockSize = .ok e₀.fixedRowCap ∧ e₀.fixedRowCap ≠ 0 ∧
      e₀ = ⟨specs, blockSize, e₀.fixedRowCap, specs.any fun spec => spec.typeTag.isView,
        initialTailBytesPerRow, 0, 0, none⟩ := by
  simp only [PageRowEstimator.new, bind_eq_ok, refuse_eq_ok, pure_eq_ok] at h
  obtain ⟨-, -, cap, hcap, -, hpos, rfl⟩ := h
  exact ⟨hcap, hpos, rfl⟩

/-- **The caps and the estimates are the largest ones**: the cap if and only if the block has less
than `2 ^ 29` bytes and four rows for a byte of it can be laid out in 32 bits, and an estimate of
whatever estimator there is while its counters stay small. -/
theorem estimates_largest (specs : List ColumnSpec) (blockSize initialTailBytesPerRow : ℕ)
    (hne : specs ≠ []) (hinitial : initialTailBytesPerRow < 2 ^ 32)
    (hone : ∃ plan, LayoutPlan.new specs 1 blockSize = .ok plan) :
    ((∃ e₀, PageRowEstimator.new specs blockSize initialTailBytesPerRow = .ok e₀ ∧
      IsGreatest {n | ∃ plan, LayoutPlan.new specs n blockSize = .ok plan} e₀.fixedRowCap) ↔
        blockSize < 2 ^ 29 ∧
          ∃ plan, LayoutPlan.new specs (4 * blockSize) (2 ^ 32 - 1) = .ok plan) ∧
      ∀ e₀, PageRowEstimator.new specs blockSize initialTailBytesPerRow = .ok e₀ →
        ∀ (observations : List Observation) e, observations.foldl after e₀ = e →
          e.currentCap * e.observedTailBytes + e.observedRows ≤ 2 ^ 64 →
          ∃ estimate m, e.estimate = .ok estimate ∧ estimate.rowsPerPage = max 1 m ∧
            IsGreatest {n | n ≤ e.currentCap ∧ e.TailFits n} m := by
  obtain ⟨plan, hplan⟩ := hone
  obtain ⟨plan₀, hzero, -⟩ := LayoutPlan.new_mono (Nat.zero_le 1) hplan
  have hblock : 0 < blockSize := by
    have := LayoutPlan.rows_lt hne hplan
    omega
  refine ⟨⟨?_, ?_⟩, ?_⟩
  · rintro ⟨e₀, hnew, -⟩
    exact wide_of_computeFixedRowCap hblock (new_eq_ok hnew).1
  · rintro ⟨hsize, hwide⟩
    obtain ⟨cap, hcap, hgreatest⟩ := computeFixedRowCap_eq hne hsize ⟨plan₀, hzero⟩ hwide
    have hpos : 1 ≤ cap := hgreatest.2 ⟨plan, hplan⟩
    refine ⟨⟨specs, blockSize, cap, specs.any fun spec => spec.typeTag.isView,
      initialTailBytesPerRow, 0, 0, none⟩, ?_, hgreatest⟩
    rw [PageRowEstimator.new, refuse_of_not hne, ok_bind, hcap, ok_bind,
      refuse_of_not (by omega), ok_bind]
    rfl
  · rintro e₀ hnew observations e he hroom
    obtain ⟨hcap, hpos, hstart⟩ := new_eq_ok hnew
    obtain ⟨hsize, hwide⟩ := wide_of_computeFixedRowCap hblock hcap
    obtain ⟨cap, hcap', ⟨last, hlast⟩, -⟩ :=
      computeFixedRowCap_eq hne hsize ⟨plan₀, hzero⟩ hwide
    obtain rfl : cap = e₀.fixedRowCap := Except.ok.inj (hcap'.symm.trans hcap)
    have hspecs : e₀.specs = specs := by rw [hstart]
    have hblockSize : e₀.blockSize = blockSize := by rw [hstart]
    have hinit : e₀.initialTailBytesPerRow = initialTailBytesPerRow := by rw [hstart]
    have hfollows : Follows e₀ e := by
      rw [← he]
      refine Follows.foldl (Follows.refl ?_ ?_) (by omega) observations
      · rw [hstart]
      · rw [hstart]
    have hrows := LayoutPlan.rows_lt hne hlast
    have hratio : e.currentCap * e.estimatedTailRatio.1 + e.estimatedTailRatio.2 ≤ 2 ^ 64 := by
      rw [estimatedTailRatio]
      split_ifs with hzero
      · -- before any observation the cap and the configured tail have 32 bits
        have hmul : e.currentCap * e.initialTailBytesPerRow ≤ 2 ^ 31 * (2 ^ 32) :=
          Nat.mul_le_mul (by have := hfollows.currentCap_le; have := hfollows.cap; omega)
            (by have := hfollows.initial; omega)
        simp only
        omega
      · exact hroom
    refine estimate_eq (hfollows.ratio (by omega)).1 hratio hfollows (by omega) (by omega)
      (by have := hfollows.cap; omega) ⟨last, ?_⟩
    rw [hfollows.cap, hfollows.specs, hfollows.blockSize, hspecs, hblockSize]
    exact hlast

/-- A column of fixed width that may be null, and one of variable width. -/
def twoColumns : List ColumnSpec := [⟨.int32, true⟩, ⟨.utf8View, false⟩]

/-- The estimator for two columns and a block of 4 KiB, after a page of 40 rows with a tail of 2400
bytes. -/
def observedEstimator : PageRowEstimator := ⟨twoColumns, 4096, 196, true, 64, 40, 2400, some 60⟩

lemma twoColumns_plans :
    (∃ plan, LayoutPlan.new twoColumns 1 4096 = .ok plan) ∧
      (∃ plan, LayoutPlan.new twoColumns (4 * 4096) (2 ^ 32 - 1) = .ok plan) ∧
      (∃ plan, LayoutPlan.new twoColumns 196 4096 = .ok plan) ∧
      ¬∃ plan, LayoutPlan.new twoColumns 197 4096 = .ok plan := by
  have hsome : ∀ {n blockSize : ℕ}, (LayoutPlan.new twoColumns n blockSize).isOk = true →
      ∃ plan, LayoutPlan.new twoColumns n blockSize = .ok plan := by
    intro n blockSize h
    rcases hplan : LayoutPlan.new twoColumns n blockSize with err | plan
    · rw [hplan] at h
      cases h
    · exact ⟨plan, rfl⟩
  refine ⟨hsome (by decide +kernel), hsome (by decide +kernel), hsome (by decide +kernel), ?_⟩
  rintro ⟨plan, hplan⟩
  have herror : (LayoutPlan.new twoColumns 197 4096).isOk = false := by decide +kernel
  rw [hplan] at herror
  cases herror

/-- At 60 bytes for a row, 49 rows have room for their tails and 50 have not. -/
lemma tailFits_observed : observedEstimator.TailFits 49 ∧ ¬observedEstimator.TailFits 50 := by
  have h49 : LayoutPlan.new twoColumns 49 4096 = .ok ⟨4096, 49, 92, 1116,
      [⟨.int32, 1, 92, 108, 16, 208⟩, ⟨.utf8View, 2, 316, 332, 16, 784⟩]⟩ := by decide +kernel
  have h50 : LayoutPlan.new twoColumns 50 4096 = .ok ⟨4096, 50, 92, 1132,
      [⟨.int32, 1, 92, 108, 16, 208⟩, ⟨.utf8View, 2, 316, 332, 16, 800⟩]⟩ := by decide +kernel
  refine ⟨⟨_, h49, by decide +kernel⟩, ?_⟩
  rintro ⟨plan, hplan, hle⟩
  obtain rfl := Except.ok.inj (h50.symm.trans hplan)
  exact absurd hle (by decide +kernel)

/-- After that page, and another one that 120 rows did not fit, 49 rows are planned for a page: more
would leave no room for their tails. -/
theorem estimates_largest_two_columns :
    ∃ e₀, PageRowEstimator.new twoColumns 4096 64 = .ok e₀ ∧
      [.page 40 2400, .emptyFullPage 120].foldl after e₀ = observedEstimator ∧
      ∃ estimate, observedEstimator.estimate = .ok estimate ∧ estimate.rowsPerPage = 49 := by
  obtain ⟨hone, hwide, hcap, hnone⟩ := twoColumns_plans
  obtain ⟨hnew, hrun⟩ := estimates_largest twoColumns 4096 64 (by decide) (by decide) hone
  obtain ⟨e₀, hnew, ⟨plan, hplan⟩, hgreatest⟩ := hnew.mpr ⟨by decide, hwide⟩
  have hrows : e₀.fixedRowCap = 196 := by
    refine le_antisymm (not_lt.mp fun hlt => hnone ?_) (hgreatest hcap)
    obtain ⟨plan', hplan', -⟩ := LayoutPlan.new_mono hlt hplan
    exact ⟨plan', hplan'⟩
  have hafter : [.page 40 2400, .emptyFullPage 120].foldl after e₀ = observedEstimator := by
    rw [(new_eq_ok hnew).2.2, hrows]
    decide +kernel
  obtain ⟨estimate, m, hestimate, hm, ⟨-, hfits⟩, hmax⟩ :=
    hrun e₀ hnew _ _ hafter (by decide +kernel)
  have h49 : m = 49 := by
    refine le_antisymm (not_lt.mp fun hlt => tailFits_observed.2 ?_)
      (hmax ⟨by decide, tailFits_observed.1⟩)
    exact TailFits.of_le (by decide) hlt hfits
  exact ⟨e₀, hnew, hafter, estimate, hestimate, by rw [hm, h49]; rfl⟩

/-- The first probe of a block of 64 MiB overflows, though a row fits; and so does the upper bound
of the search for a block of 512 MiB. -/
theorem estimator_refused :
    (∃ plan, LayoutPlan.new [⟨.uuid, false⟩] 1 (2 ^ 26) = .ok plan) ∧
      PageRowEstimator.new [⟨.uuid, false⟩] (2 ^ 26) 64 = .error (.layout .sizeOverflow) ∧
      (∃ plan, LayoutPlan.new [⟨.uuid, false⟩] 1 (2 ^ 29) = .ok plan) ∧
      PageRowEstimator.new [⟨.uuid, false⟩] (2 ^ 29) 64 = .error .arithmeticOverflow := by
  have hcap : computeFixedRowCap [⟨.uuid, false⟩] (2 ^ 26) = .error (.layout .sizeOverflow) := by
    rw [computeFixedRowCap, bisect]
    decide +kernel
  refine ⟨⟨⟨2 ^ 26, 1, 60, 92, [⟨.uuid, 0, 60, 76, 16, 16⟩]⟩, by decide +kernel⟩, ?_,
    ⟨⟨2 ^ 29, 1, 60, 92, [⟨.uuid, 0, 60, 76, 16, 16⟩]⟩, by decide +kernel⟩, by decide +kernel⟩
  rw [PageRowEstimator.new, hcap]
  rfl

end RowEstimator

end PgFusion

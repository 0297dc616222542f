import PgFusion.RowEncoder.Cells

/-!
What appending a row does.
* `appendRow_spec`, `appendFixedWidthRow_spec`: the two calls on a type-correct row.
-/

namespace PgFusion.RowEncoder

open Bytes Fallible ArrowLayout Stateful

/-! ### Rows -/

/-- The row is type-correct, and its values are `row`. -/
def RowTyped (specs : List ColumnSpec) (cells : ℕ → CellRef) (row : List ArrowLayout.Stored) :
    Prop :=
  row.length = specs.length ∧ ∀ i spec, specs[i]? = some spec →
    storedAs spec.typeTag spec.nullable (cells i) = row[i]?

/-- The bytes of the tail that a row takes. -/
def longSum (row : List ArrowLayout.Stored) : ℕ := (row.map ArrowLayout.Stored.longLen).sum

/-- A value of the row is longer than the tail cursor at the time it is written. -/
def overshoots (pool : ℕ) : ℕ → List ArrowLayout.Stored → Bool
  | _, [] => false
  | tail, v :: row =>
    if pool + v.longLen ≤ tail then overshoots pool (tail - v.longLen) row
    else decide (tail < v.longLen)

/-- The null counts after a row. -/
def countNulls (nulls : ℕ → ℕ) (row : List ArrowLayout.Stored) : ℕ → ℕ :=
  fun j => nulls j + if row[j]? = some .null then 1 else 0

@[simp] lemma longSum_nil : longSum [] = 0 := rfl

@[simp] lemma longSum_cons (v : ArrowLayout.Stored) (row : List ArrowLayout.Stored) :
    longSum (v :: row) = v.longLen + longSum row := by
  rw [longSum, List.map_cons, List.sum_cons, ← longSum]

lemma countNulls_nil (nulls : ℕ → ℕ) : countNulls nulls [] = nulls := rfl

/-- The null counts, one column after the other. -/
lemma countNull_take (nulls : ℕ → ℕ) {row : List ArrowLayout.Stored} {i : ℕ}
    {v : ArrowLayout.Stored} (hv : row[i]? = some v) :
    PageRowEncoder.countNull (countNulls nulls (row.take i)) i v =
      countNulls nulls (row.take (i + 1)) := by
  funext j
  rw [PageRowEncoder.countNull]
  rcases Nat.lt_trichotomy j i with hlt | rfl | hgt
  · have hne : j ≠ i := hlt.ne
    simp only [apply_ite (fun f : ℕ → ℕ => f j), Function.update_of_ne hne, ite_self, countNulls,
      List.getElem?_take, if_pos hlt, if_pos (Nat.lt_succ_of_lt hlt)]
  · simp only [apply_ite (fun f : ℕ → ℕ => f j), Function.update_self, countNulls,
      List.getElem?_take, lt_irrefl, if_false, if_pos (Nat.lt_succ_self j), hv, Option.some.injEq,
      reduceCtorEq, add_zero]
    split_ifs <;> rfl
  · have hne : j ≠ i := hgt.ne'
    simp only [apply_ite (fun f : ℕ → ℕ => f j), Function.update_of_ne hne, ite_self, countNulls,
      List.getElem?_take, if_neg hgt.not_gt, if_neg (by omega : ¬j < i + 1)]

/-- The value of a column in a type-correct row. -/
lemma RowTyped.stored {specs : List ColumnSpec} {cells : ℕ → CellRef}
    {row : List ArrowLayout.Stored}
    (ht : RowTyped specs cells row) {plan : LayoutPlan} (h : plan.Valid specs) {i : ℕ}
    {c : ColumnLayout} {v : ArrowLayout.Stored} (hc : plan.columns[i]? = some c)
    (hv : row[i]? = some v) :
    storedAs c.typeTag c.nullable (cells i) = some v := by
  obtain ⟨spec, hspec, htag, hflags⟩ := h.spec hc
  have hn : c.nullable = spec.nullable := by
    rw [ColumnLayout.nullable, hflags, spec.flagsContain_nullable]
  rw [htag, hn, ht.2 i spec hspec, hv]

lemma RowTyped.length_columns {specs : List ColumnSpec} {cells : ℕ → CellRef}
    {row : List ArrowLayout.Stored}
    (ht : RowTyped specs cells row) {plan : LayoutPlan} (h : plan.Valid specs) :
    row.length = plan.columns.length := by
  have := congrArg List.length h.specs
  rw [List.length_map, List.length_map] at this
  exact ht.1.trans this.symm

namespace PageRowEncoder

variable {plan : LayoutPlan} {specs : List ColumnSpec} {nulls : ℕ → ℕ} {rows tail : ℕ}
  {s s' : PageRowEncoder} {row : List ArrowLayout.Stored} {cells : ℕ → CellRef}

/-- The bits of the cells of a row from column `index` on. -/
def bitsFrom (plan : LayoutPlan) (index row : ℕ) : Set ℕ :=
  {p | ∃ (i : ℕ) (c : ColumnLayout), index ≤ i ∧ plan.columns[i]? = some c ∧ p ∈ c.cellBits row}

/-- The bits that the write of a row may change. -/
def touchedFrom (plan : LayoutPlan) (tail index row : ℕ) : Set ℕ :=
  bitsFrom plan index row ∪ plan.descBits ∪ plan.freeBits tail

/-- The bits that a call may change: none if the block has its rows. -/
def touchedRow (plan : LayoutPlan) (tail row : ℕ) : Set ℕ :=
  {p | row < plan.maxRows ∧ p ∈ touchedFrom plan tail 0 row}

variable {index i todo k : ℕ}

lemma touchedFrom_mono {tail tail' index' row : ℕ} (htail : tail' ≤ tail)
    (hindex : index ≤ index') :
    touchedFrom plan tail' index' row ⊆ touchedFrom plan tail index row := by
  refine Set.union_subset_union (Set.union_subset_union_left _ ?_) (LayoutPlan.freeBits_mono htail)
  rintro p ⟨i, c, hi, hc, hp⟩
  exact ⟨i, c, hindex.trans hi, hc, hp⟩

variable {c : ColumnLayout}

lemma touched_subset {tail row : ℕ} (hc : plan.columns[i]? = some c) :
    touched plan tail c row ⊆ touchedFrom plan tail i row :=
  Set.union_subset_union_left _ (Set.union_subset_union_left _ fun _ hp => ⟨i, c, le_rfl, hc, hp⟩)

/-- The cells that are not written, and the tail in use, keep their values. -/
lemma storedAt_of_touchedFrom (h : plan.Valid specs) {b b' : List UInt8} {row row' : ℕ}
    {st : ArrowLayout.Stored} (hsame : SameOff (touchedFrom plan tail index row') b b')
    (hpool : plan.poolBase ≤ tail) (hc : plan.columns[i]? = some c) (hrow : row < plan.maxRows)
    (hrow' : row' < plan.maxRows) (hne : i < index ∨ row ≠ row')
    (hst : StoredAt b plan tail c row st) : StoredAt b' plan tail c row st := by
  refine hst.same hsame (fun p hp => ?_) (fun p hlow _ => ?_)
  · have hfront := h.cellBits_front hc hrow hp
    rintro ((⟨j, c', hj, hc', hp'⟩ | hp') | hp')
    · exact h.cellBits_disjoint hc hc' hrow hrow' (hne.imp_left (by omega)) hp hp'
    · have := h.descBits_lt hp'
      omega
    · have := hp'.1
      omega
  · have hfront := h.walk.le
    rintro ((⟨j, c', hj, hc', hp'⟩ | hp') | hp')
    · have := (h.cellBits_front hc' hrow' hp').2
      omega
    · have := h.descBits_lt hp'
      omega
    · have := hp'.2
      omega

/-! ### The loop over the columns -/

/-- How the loop of `append_row` ends. -/
inductive CellsEnd (plan : LayoutPlan) (nulls : ℕ → ℕ) (rows tail index : ℕ)
    (row : List ArrowLayout.Stored) :
    Except (Halt RowEncodeError) (Option ℕ) → PageRowEncoder → Prop
  | written {s' : PageRowEncoder} (hfit : plan.poolBase + longSum (row.drop index) ≤ tail)
      (hgood : Good plan (countNulls nulls row) rows (tail - longSum (row.drop index)) s')
      (hstored : ∀ i c v, index ≤ i → plan.columns[i]? = some c → row[i]? = some v →
        StoredAt s'.payload plan (tail - longSum (row.drop index)) c rows v) :
      CellsEnd plan nulls rows tail index row (.ok none) s'
  | full {s' : PageRowEncoder} {k tail' : ℕ} (hk : index ≤ k) (hlt : k < row.length)
      (hfit : tail < plan.poolBase + longSum (row.drop index)) (htail : tail' ≤ tail)
      (hgood : Good plan (countNulls nulls (row.take k)) rows tail' s')
      (hstored : ∀ i c v, index ≤ i → i < k → plan.columns[i]? = some c → row[i]? = some v →
        StoredAt s'.payload plan tail' c rows v) :
      CellsEnd plan nulls rows tail index row (.ok (some k)) s'
  | error {s' : PageRowEncoder} {e : RowEncodeError} {nulls' : ℕ → ℕ} {tail' : ℕ}
      (hwhy : overshoots plan.poolBase tail (row.drop index) = true ∨
        ∃ i : ℕ, row[i]? = some ArrowLayout.Stored.null ∧ nulls i + 1 = 0x100000000)
      (htail : tail' ≤ tail) (hgood : Good plan nulls' rows tail' s') :
      CellsEnd plan nulls rows tail index row (.error (.error e)) s'

/-- The loop, from column `index` on. -/
lemma writeCells_spec (h : plan.Valid specs) (hsize : plan.blockSize < 0x80000000)
    (hrow : rows < plan.maxRows) (ht : RowTyped specs cells row) (hlen : index + todo = row.length)
    (hg : Good plan (countNulls nulls (row.take index)) rows tail s) :
    ∃ r s', Ends (writeCells rows cells todo index) s r s' ∧
      SameOff (touchedFrom plan tail index rows) s.payload s'.payload ∧
      CellsEnd plan nulls rows tail index row r s' := by
  induction todo generalizing index tail s with
  | zero =>
    have hdrop : row.drop index = [] := List.drop_eq_nil_of_le (by omega)
    have htake : row.take index = row := List.take_of_length_le (by omega)
    refine ⟨_, s, ends_pure _ s, SameOff.refl _ _, .written ?_ ?_ ?_⟩
    · rw [hdrop, longSum_nil]
      exact hg.pool_le
    · rw [hdrop, longSum_nil, Nat.sub_zero, ← htake]
      exact hg
    · intro i c v hi _ hv
      have := (List.getElem?_eq_some_iff.mp hv).1
      omega
  | succ todo ih =>
    have hi : index < row.length := by omega
    have hi' : index < plan.columns.length := by
      rw [← ht.length_columns h]
      exact hi
    obtain ⟨v, hv⟩ : ∃ v, row[index]? = some v := ⟨_, List.getElem?_eq_getElem hi⟩
    obtain ⟨c, hc⟩ : ∃ c, plan.columns[index]? = some c := ⟨_, List.getElem?_eq_getElem hi'⟩
    have hdrop : row.drop index = v :: row.drop (index + 1) := by
      rw [List.drop_eq_getElem_cons hi]
      rw [List.getElem?_eq_getElem hi, Option.some.injEq] at hv
      rw [hv]
    obtain ⟨r, s₁, hends₁, hsame₁, hcell⟩ := writeCell_spec hg h hsize hc hrow (ht.stored h hc hv)
    have hsame₁' := hsame₁.mono (touched_subset hc)
    cases hcell with
    | written hfit hgood hstored =>
      rw [countNull_take nulls hv] at hgood
      obtain ⟨r, s₂, hends₂, hsame₂, hcells⟩ := ih (by omega) hgood
      have hsame := hsame₁'.trans
        (hsame₂.mono (touchedFrom_mono (Nat.sub_le _ _) (Nat.le_succ index)))
      refine ⟨r, s₂, Ends.bind (hg.ends_desc h hsize hc) (Ends.bind hends₁ hends₂), hsame, ?_⟩
      have hpool := hgood.pool_le
      have hstored₂ := storedAt_of_touchedFrom h hsame₂ hpool hc hrow hrow
        (Or.inl (Nat.lt_succ_self index)) hstored
      cases hcells with
      | written hfit' hgood' hstored' =>
        have hsum : tail - v.longLen - longSum (row.drop (index + 1)) =
            tail - longSum (row.drop index) := by
          rw [hdrop, longSum_cons]
          omega
        rw [hsum] at hgood' hstored'
        refine .written ?_ hgood' fun i c' w hle hc' hw => ?_
        · rw [hdrop, longSum_cons]
          omega
        · rcases hle.lt_or_eq with hlt | rfl
          · exact hstored' i c' w hlt hc' hw
          · obtain rfl : c = c' := Option.some.inj (hc.symm.trans hc')
            obtain rfl : v = w := Option.some.inj (hv.symm.trans hw)
            refine hstored₂.mono ?_
            rw [hdrop, longSum_cons]
            omega
      | full hk hlt hfit' htail hgood' hstored' =>
        refine .full (Nat.le_of_succ_le hk) hlt ?_ (htail.trans (Nat.sub_le _ _)) hgood'
          fun i c' w hle hlt' hc' hw => ?_
        · rw [hdrop, longSum_cons]
          omega
        · rcases hle.lt_or_eq with hlt | rfl
          · exact hstored' i c' w hlt hlt' hc' hw
          · obtain rfl : c = c' := Option.some.inj (hc.symm.trans hc')
            obtain rfl : v = w := Option.some.inj (hv.symm.trans hw)
            exact hstored₂.mono htail
      | error hwhy htail hgood' =>
        refine .error ?_ (htail.trans (Nat.sub_le _ _)) hgood'
        rcases hwhy with hover | hnull
        · left
          rw [hdrop, overshoots, if_pos hfit]
          exact hover
        · exact Or.inr hnull
    | full hfit hle =>
      refine ⟨_, s, Ends.bind (hg.ends_desc h hsize hc) (Ends.bind hends₁ (ends_pure _ s)), hsame₁',
        .full le_rfl hi ?_ le_rfl hg fun i c' w hle hlt => absurd hlt (not_lt.mpr hle)⟩
      rw [hdrop, longSum_cons]
      omega
    | error hwhy hgood =>
      refine ⟨_, s₁, Ends.bind (hg.ends_desc h hsize hc) (Ends.bind_error hends₁), hsame₁',
        .error ?_ le_rfl hgood⟩
      rcases hwhy with hover | ⟨rfl, hnull⟩
      · left
        rw [hdrop, overshoots, if_neg (by omega)]
        exact decide_eq_true hover
      · refine Or.inr ⟨index, hv, ?_⟩
        rw [countNulls, List.getElem?_take, if_neg (lt_irrefl index)] at hnull
        exact hnull

/-! ### Rolling back -/

/-- The null counts while the first `k` columns of a row are taken back, when those below
`index` have been. -/
def restored (nulls : ℕ → ℕ) (row : List ArrowLayout.Stored) (k index : ℕ) : ℕ → ℕ :=
  fun i => if i < index then nulls i else countNulls nulls (row.take k) i

lemma restored_self (nulls : ℕ → ℕ) (row : List ArrowLayout.Stored) (k : ℕ) :
    restored nulls row k k = nulls := by
  funext i
  rw [restored, countNulls, List.getElem?_take]
  split_ifs <;> simp_all

lemma restored_succ (nulls : ℕ → ℕ) (row : List ArrowLayout.Stored) (k index : ℕ) :
    restored nulls row k (index + 1) = Function.update (restored nulls row k index) index
      (nulls index) := by
  funext i
  rcases Nat.lt_trichotomy i index with hlt | rfl | hgt
  · rw [Function.update_of_ne hlt.ne, restored, restored, if_pos hlt,
      if_pos (Nat.lt_succ_of_lt hlt)]
  · rw [Function.update_self, restored, if_pos (Nat.lt_succ_self i)]
  · rw [Function.update_of_ne hgt.ne', restored, restored, if_neg hgt.not_gt, if_neg (by omega)]

/-- The count of the next column. -/
lemma restored_apply (nulls : ℕ → ℕ) (row : List ArrowLayout.Stored) (hlt : index < k) :
    restored nulls row k index index = nulls index + if row[index]? = some .null then 1 else 0 := by
  rw [restored, if_neg (lt_irrefl index), countNulls, List.getElem?_take, if_pos hlt]

/-- The loop of `rollback_row`, from column `index` on: the validity bits tell which of the
columns were null. -/
lemma restoreNullCounts_spec (h : plan.Valid specs) (hsize : plan.blockSize < 0x80000000)
    (hrow : rows < plan.maxRows) (hk : index + todo = k)
    (hlen : k ≤ plan.columns.length) (hg : Good plan (restored nulls row k index) rows tail s)
    (hbits : ∀ i c, i < k → plan.columns[i]? = some c →
      if c.nullable then bitAt s.payload (c.validityBit rows) = some (decide (row[i]? ≠ some .null))
      else row[i]? ≠ some .null) :
    ∃ s', Ends (restoreNullCounts rows todo index) s (.ok ()) s' ∧ Wrote plan.descBits s s' ∧
      Good plan nulls rows tail s' := by
  induction todo generalizing index s with
  | zero =>
    obtain rfl : index = k := by omega
    rw [restored_self] at hg
    exact ⟨s, ends_pure _ s, ⟨rfl, rfl, SameOff.refl _ _⟩, hg⟩
  | succ todo ih =>
    have hlt : index < k := by omega
    obtain ⟨c, hc⟩ : ∃ c, plan.columns[index]? = some c := ⟨_, List.getElem?_eq_getElem (by omega)⟩
    have hbit := hbits index c hlt hc
    have hcount := restored_apply nulls row hlt
    have hdesc := hg.ends_desc h hsize hc
    by_cases hnull : row[index]? = some .null
    · -- the column was null: its count is one too high
      have hn : c.nullable = true := by
        by_contra hn
        rw [if_neg hn] at hbit
        exact hbit hnull
      rw [if_pos hn, decide_eq_false (not_not.mpr hnull)] at hbit
      rw [if_pos hnull] at hcount
      have hle := hg.tables.nulls_lt index
      obtain ⟨s₁, hends₁, hwrote₁, hg₁⟩ := hg.ends_writeDesc h hc (n := nulls index) (by omega)
      rw [← restored_succ] at hg₁
      obtain ⟨s₂, hends₂, hwrote₂, hg₂⟩ := ih (by omega) hg₁ fun i c' hi hc' => by
        have := hbits i c' hi hc'
        rwa [hwrote₁.same.bit]
        intro hp
        have := h.descBits_lt hp
        have := h.validityBit_front hc' hrow
        omega
      refine ⟨s₂, Ends.bind hdesc ?_, hwrote₁.trans hwrote₂, hg₂⟩
      rw [if_pos (show ColumnDesc.isNullable { c.desc with nullCount := _ } = true from hn)]
      refine Ends.bind (ends_bitmapGetRaw hbit) ?_
      rw [if_neg Bool.false_ne_true]
      have hsub : checkedSub (restored nulls row k index index) 1 .sizeOverflow =
        .ok (nulls index) :=
        checkedSub_eq_ok.mpr ⟨by omega, by omega⟩
      refine Ends.bind (Ends.result ?_ hends₁) hends₂
      rw [hsub, mapError_ok]
    · -- nothing is written
      rw [if_neg hnull, Nat.add_zero] at hcount
      have hg₁ : Good plan (restored nulls row k (index + 1)) rows tail s := by
        rw [restored_succ, ← hcount, Function.update_eq_self]
        exact hg
      obtain ⟨s₂, hends₂, hwrote₂, hg₂⟩ := ih (by omega) hg₁ hbits
      refine ⟨s₂, Ends.bind hdesc ?_, hwrote₂, hg₂⟩
      by_cases hn : c.nullable = true
      · rw [if_pos hn, decide_eq_true hnull] at hbit
        rw [if_pos (show ColumnDesc.isNullable { c.desc with nullCount := _ } = true from hn)]
        refine Ends.bind (ends_bitmapGetRaw hbit) ?_
        rw [if_pos rfl]
        exact hends₂
      · rw [if_neg (show ¬ColumnDesc.isNullable { c.desc with nullCount := _ } = true from hn)]
        exact hends₂

/-- `rollback_row` takes back what the loop has done in the header and the descriptors. -/
lemma rollbackRow_spec (h : plan.Valid specs) (hsize : plan.blockSize < 0x80000000)
    (hrow : rows < plan.maxRows) (ht : RowTyped specs cells row) {tail' : ℕ} (hk : k ≤ row.length)
    (hpool : plan.poolBase ≤ tail) (htail : tail ≤ plan.blockSize)
    (hg : Good plan (countNulls nulls (row.take k)) rows tail' s)
    (hstored : ∀ i c v, i < k → plan.columns[i]? = some c → row[i]? = some v →
      StoredAt s.payload plan tail' c rows v) :
    ∃ s', Ends (rollbackRow rows k tail) s (.ok ()) s' ∧
      SameOff plan.descBits s.payload s'.payload ∧ Good plan nulls rows tail s' := by
  have hg₁ : Good plan (restored nulls row k 0) rows tail
      { s with header := { s.header with tailCursor := tail } } :=
    hg.move h hrow (SameOff.refl _ _) (by rw [hg.header]) rfl hg.rows_le hpool htail
  obtain ⟨s₂, hends, hwrote, hg₂⟩ := restoreNullCounts_spec h hsize hrow (Nat.zero_add k)
    (by rw [← ht.length_columns h]; exact hk) hg₁ fun i c hi hc => by
      obtain ⟨v, hv⟩ : ∃ v, row[i]? = some v := ⟨_, List.getElem?_eq_getElem (by omega)⟩
      simp only [hv, ne_eq, Option.some.injEq]
      split_ifs with hn
      · exact (hstored i c v hi hc hv).validity hn
      · -- the column takes no null
        rintro rfl
        exact hn (typed_of_storedAs (ht.stored h hc hv)).nullable
  exact ⟨s₂, Ends.bind (ends_modify _ s) hends, hwrote.same, hg₂⟩

/-! ### Appending a row -/

/-- How a call that appends a row ends. A row that is answered with `full` leaves no trace;
one that is answered with an error leaves its nulls in the counts. -/
inductive RowEnds (plan : LayoutPlan) (nulls : ℕ → ℕ) (rows tail : ℕ)
    (row : List ArrowLayout.Stored) :
    Except (Halt RowEncodeError) AppendStatus → PageRowEncoder → Prop
  | appended {s' : PageRowEncoder} (hroom : rows < plan.maxRows)
      (hfit : plan.poolBase + longSum row ≤ tail)
      (hgood : Good plan (countNulls nulls row) (rows + 1) (tail - longSum row) s')
      (hstored : ∀ (i : ℕ) (c : ColumnLayout) (v : ArrowLayout.Stored), plan.columns[i]? = some c →
        row[i]? = some v → StoredAt s'.payload plan (tail - longSum row) c rows v) :
      RowEnds plan nulls rows tail row (.ok .appended) s'
  | full {s' : PageRowEncoder}
      (hwhy : plan.maxRows = rows ∨ tail < plan.poolBase + longSum row)
      (hgood : Good plan nulls rows tail s') : RowEnds plan nulls rows tail row (.ok .full) s'
  | error {s' : PageRowEncoder} {e : RowEncodeError} {nulls' : ℕ → ℕ} {tail' : ℕ}
      (hroom : rows < plan.maxRows)
      (hwhy : overshoots plan.poolBase tail row = true ∨
        ∃ i : ℕ, row[i]? = some ArrowLayout.Stored.null ∧ nulls i + 1 = 0x100000000)
      (htail : tail' ≤ tail) (hgood : Good plan nulls' rows tail' s') :
      RowEnds plan nulls rows tail row (.error (.error e)) s'

/-- The header after a row. -/
lemma Good.setRowCount (hg : Good plan nulls rows tail s) (h : plan.Valid specs)
    (hrow : rows < plan.maxRows) :
    Good plan nulls (rows + 1) tail { s with header := { s.header with rowCount := rows + 1 } } :=
  hg.move h hrow (SameOff.refl _ _) (by rw [hg.header]) rfl hrow hg.pool_le hg.tail_le

/-- A row of values that take no part of the tail. -/
lemma RowEnds.of_stored (h : plan.Valid specs) (hrow : rows < plan.maxRows)
    (hgood : Good plan (countNulls nulls row) rows tail s) (hsum : longSum row = 0)
    (hstored : ∀ (i : ℕ) (c : ColumnLayout) (v : ArrowLayout.Stored), plan.columns[i]? = some c →
      row[i]? = some v → StoredAt s.payload plan tail c rows v) :
    RowEnds plan nulls rows tail row (.ok .appended)
      { s with header := { s.header with rowCount := rows + 1 } } := by
  refine .appended hrow ?_ ?_ ?_
  · rw [hsum]
    exact hgood.pool_le
  · rw [hsum]
    exact hgood.setRowCount h hrow
  · rw [hsum]
    exact hstored

variable {v : ArrowLayout.Stored}

/-- The row of a block with one column. -/
lemma RowEnds.of_single (h : plan.Valid specs) (hrow : rows < plan.maxRows)
    (hcols : plan.columns = [c])
    (hgood : Good plan (countNull nulls 0 v) rows tail s) (hzero : v.longLen = 0)
    (hstored : StoredAt s.payload plan tail c rows v) :
    RowEnds plan nulls rows tail [v] (.ok .appended)
      { s with header := { s.header with rowCount := rows + 1 } } := by
  refine RowEnds.of_stored h hrow ?_ ?_ fun i c' w hc' hw => ?_
  · have hcount := countNull_take nulls (show [v][0]? = some v from rfl)
    rw [List.take_zero, countNulls_nil] at hcount
    rw [hcount] at hgood
    exact hgood
  · rw [longSum_cons, hzero, longSum_nil]
  · rw [hcols] at hc'
    obtain ⟨rfl, rfl⟩ : i = 0 ∧ c = c' := by
      rcases i with - | i
      · exact ⟨rfl, Option.some.inj hc'⟩
      · cases hc'
    obtain rfl : v = w := Option.some.inj hw
    exact hstored

section

variable (hg : Good plan nulls rows tail s) (h : plan.Valid specs)

include hg h

/-- The path for a single column of a fixed width. -/
lemma appendSingle_spec (hrow : rows < plan.maxRows) (hcols : plan.columns = [c])
    (hsingle : isSingleFixedWidth c.typeTag = true) {cell : CellRef}
    (hst : storedAs c.typeTag c.nullable cell = some v) :
    ∃ r s', Ends (appendSingle rows { c.desc with nullCount := nulls 0 } c.typeTag cell) s r s' ∧
      SameOff (touchedFrom plan tail 0 rows) s.payload s'.payload ∧
      RowEnds plan nulls rows tail [v] (r.map fun _ => .appended) s' := by
  have hc : plan.columns[0]? = some c := by
    rw [hcols]
    rfl
  have hsub : c.cellBits rows ∪ plan.descBits ⊆ touchedFrom plan tail 0 rows :=
    Set.subset_union_left.trans (touched_subset hc)
  have htyped := typed_of_storedAs hst
  have hfits := htyped.fits
  rw [appendSingle.eq_def]
  cases htyped with
  | null hn =>
    obtain ⟨r, s₁, hends, hsame, hcases⟩ := ends_writeNull hg h hc hrow hn
    rw [if_pos rfl]
    rcases hcases with ⟨rfl, hgood, hstored⟩ | ⟨⟨e, rfl⟩, hover, hgood⟩
    · exact ⟨.ok (), _, Ends.bind hends (ends_modify _ s₁), hsame.mono hsub,
        RowEnds.of_single h hrow hcols hgood rfl hstored⟩
    · exact ⟨_, s₁, Ends.bind_error hends, hsame.mono hsub,
        .error hrow (Or.inr ⟨0, rfl, hover⟩) le_rfl hgood⟩
  | primitive hne hprim =>
    obtain ⟨s₁, s₂, hends₁, hends₂, hwrote, hstored⟩ := ends_fixed hg h hc hrow hfits
    have hgood := hg.wrote h hrow (hwrote.mono (LayoutPlan.cellBits_subset_rowBits _ hc))
    rw [if_neg hne, hprim]
    exact ⟨.ok (), _, Ends.bind hends₁ (Ends.bind hends₂ (ends_modify _ s₂)),
      hwrote.same.mono (Set.subset_union_left.trans hsub),
      RowEnds.of_single h hrow hcols (by rw [countNull_of_ne nulls 0 ?_]; exacts [hgood, nofun])
        rfl hstored⟩
  | @bool v ht =>
    obtain ⟨s₁, hends, hwrote, hstored⟩ := ends_writeBool hg h hc hrow ht v
    have hgood := hg.wrote h hrow (hwrote.mono (LayoutPlan.cellBits_subset_rowBits _ hc))
    rw [if_neg nofun, ht]
    exact ⟨.ok (), _, Ends.bind hends (ends_modify _ s₁),
      hwrote.same.mono (Set.subset_union_left.trans hsub),
      RowEnds.of_single h hrow hcols (by rw [countNull_of_ne nulls 0 ?_]; exacts [hgood, nofun])
        rfl hstored⟩
  | uuid ht _ =>
    rw [ht] at hsingle
    cases hsingle
  | utf8 ht =>
    rw [ht] at hsingle
    cases hsingle
  | binary ht =>
    rw [ht] at hsingle
    cases hsingle

/-- The loop of `append_row`, and what follows it. -/
lemma appendCells_spec (hsize : plan.blockSize < 0x80000000) (hrow : rows < plan.maxRows)
    (ht : RowTyped specs cells row) :
    ∃ r s', Ends (appendCells rows cells) s r s' ∧
      SameOff (touchedFrom plan tail 0 rows) s.payload s'.payload ∧
      RowEnds plan nulls rows tail row r s' := by
  have hcursor : s.header.tailCursor = tail := by rw [hg.header]
  have hlen : 0 + s.colCount = row.length := by
    rw [Nat.zero_add, hg.colCount, ht.length_columns h]
  obtain ⟨r, s₁, hends, hsame, hcells⟩ := writeCells_spec h hsize hrow ht hlen hg
  cases hcells with
  | written hfit hgood hstored =>
    rw [List.drop_zero] at hfit hgood hstored
    exact ⟨_, _, Ends.bind (ends_get s)
      (Ends.bind hends (Ends.bind (ends_modify _ s₁) (ends_pure _ _))), hsame,
      .appended hrow hfit (hgood.setRowCount h hrow)
        fun i c v hc hv => hstored i c v (Nat.zero_le i) hc hv⟩
  | full hk hlt hfit htail hgood hstored =>
    rw [List.drop_zero] at hfit
    obtain ⟨s₂, hends₂, hsame₂, hgood₂⟩ := rollbackRow_spec h hsize hrow ht hlt.le hg.pool_le
      hg.tail_le hgood fun i c v hi hc hv => hstored i c v (Nat.zero_le i) hi hc hv
    refine ⟨_, s₂, Ends.bind (ends_get s)
      (Ends.bind hends (Ends.bind (a := ()) ?_ (ends_pure _ s₂))),
      hsame.trans (hsame₂.mono (Set.subset_union_right.trans Set.subset_union_left)),
      .full (Or.inr hfit) hgood₂⟩
    rw [hcursor]
    exact hends₂
  | error hwhy htail hgood =>
    exact ⟨_, s₁, Ends.bind (ends_get s) (Ends.bind_error hends), hsame,
      .error hrow hwhy htail hgood⟩

/-- **`append_row` on a type-correct row.** -/
lemma appendRow_spec (hsize : plan.blockSize < 0x80000000) (ht : RowTyped specs cells row) :
    ∃ r s', Ends (appendRow cells) s r s' ∧
      SameOff (touchedRow plan tail rows) s.payload s'.payload ∧
      RowEnds plan nulls rows tail row r s' := by
  have hcount : s.header.rowCount = rows := by rw [hg.header]
  have hmax : s.header.maxRows = plan.maxRows := by
    rw [hg.header]
    rfl
  by_cases hrow : rows < plan.maxRows
  swap
  · refine ⟨_, s, Ends.bind (ends_get s) ?_, SameOff.refl _ _,
      .full (Or.inl (le_antisymm (not_lt.mp hrow) hg.rows_le)) hg⟩
    rw [hcount, hmax, if_pos (not_lt.mp hrow)]
    exact ends_pure _ s
  have hmem : touchedFrom plan tail 0 rows ⊆ touchedRow plan tail rows := fun _ hp => ⟨hrow, hp⟩
  obtain ⟨r₀, s₀, hends₀, hsame₀, hrow₀⟩ := appendCells_spec hg h hsize hrow ht
  have hguard : ¬s.header.maxRows ≤ s.header.rowCount := by
    rw [hcount, hmax]
    exact not_le.mpr hrow
  by_cases hone : plan.columns.length = 1
  · -- a block with one column has a path of its own
    obtain ⟨c, hcols⟩ := List.length_eq_one_iff.mp hone
    have hc : plan.columns[0]? = some c := by
      rw [hcols]
      rfl
    obtain ⟨v, rfl⟩ := List.length_eq_one_iff.mp ((ht.length_columns h).trans hone)
    have htag : (TypeTag.fromRaw c.typeTag.toRaw).mapError layoutError = .ok c.typeTag := by
      rw [TypeTag.fromRaw_toRaw, mapError_ok]
    have hcolCount : ¬s.colCount ≠ 1 := by
      rw [hg.colCount, hone]
      exact not_not.mpr rfl
    by_cases hsingle : isSingleFixedWidth c.typeTag = true
    · obtain ⟨r, s', hends, hsame, hrow'⟩ :=
        appendSingle_spec hg h hrow hcols hsingle (ht.stored h hc rfl)
      refine ⟨r.map fun _ => .appended, s', Ends.bind (ends_get s) ?_, hsame.mono hmem, hrow'⟩
      rw [if_neg hguard, hcount]
      cases r with
      | ok u =>
        have htry : Ends (tryAppendSingleFixedWidthRow rows cells) s (.ok (some .appended)) s' := by
          refine Ends.bind (ends_get s) ?_
          rw [if_neg hcolCount]
          refine Ends.bind (hg.ends_desc h hsize hc) (Ends.result htag ?_)
          rw [if_pos hsingle]
          exact Ends.bind hends (ends_pure _ s')
        exact Ends.bind htry (ends_pure _ s')
      | error e =>
        refine Ends.bind_error (Ends.bind (ends_get s) ?_)
        rw [if_neg hcolCount]
        refine Ends.bind (hg.ends_desc h hsize hc) (Ends.result htag ?_)
        rw [if_pos hsingle]
        exact Ends.bind_error hends
    · refine ⟨r₀, s₀, Ends.bind (ends_get s) ?_, hsame₀.mono hmem, hrow₀⟩
      have htry : Ends (tryAppendSingleFixedWidthRow rows cells) s (.ok none) s := by
        refine Ends.bind (ends_get s) ?_
        rw [if_neg hcolCount]
        refine Ends.bind (hg.ends_desc h hsize hc) (Ends.result htag ?_)
        rw [if_neg hsingle]
        exact ends_pure _ s
      rw [if_neg hguard, hcount]
      exact Ends.bind htry hends₀
  · refine ⟨r₀, s₀, Ends.bind (ends_get s) ?_, hsame₀.mono hmem, hrow₀⟩
    have htry : Ends (tryAppendSingleFixedWidthRow rows cells) s (.ok none) s := by
      refine Ends.bind (ends_get s) ?_
      rw [if_pos (by rw [hg.colCount]; exact hone)]
      exact ends_pure _ s
    rw [if_neg hguard, hcount]
    exact Ends.bind htry hends₀

/-! ### Appending a fixed-width row -/

lemma ends_writeFixedWidthCell
    (hc : plan.columns[i]? = some c) (hrow : rows < plan.maxRows) {cell : FixedWidthCell}
    (hst : storedAs c.typeTag c.nullable cell.toCell = some v) :
    ∃ s', Ends (writeFixedWidthCell i rows { c.desc with nullCount := nulls i } c.typeTag cell) s
        (.ok ()) s' ∧
      Wrote (c.cellBits rows) s s' ∧ v ≠ .null ∧ v.longLen = 0 ∧
      StoredAt s'.payload plan tail c rows v := by
  have htyped := typed_of_storedAs hst
  have hfits := htyped.fits
  generalize hcell : cell.toCell = x at htyped
  cases htyped with
  | null _ => cases cell <;> cases hcell
  | primitive hne hprim =>
    obtain ⟨s₁, s₂, hends₁, hends₂, hwrote, hstored⟩ := ends_fixed hg h hc hrow hfits
    refine ⟨s₂, ?_, hwrote, nofun, rfl, hstored⟩
    rw [writeFixedWidthCell.eq_def, hcell, hprim]
    exact Ends.bind (Ends.bind hends₁ (Ends.bind hends₂ (ends_pure _ s₂))) (ends_pure _ s₂)
  | @bool v ht =>
    obtain ⟨s', hends, hwrote, hstored⟩ := ends_writeBool hg h hc hrow ht v
    refine ⟨s', ?_, hwrote, nofun, rfl, hstored⟩
    obtain rfl : cell = .boolean v := by
      cases cell <;> cases hcell
      rfl
    rw [ht]
    exact hends
  | uuid _ _ => cases cell <;> cases hcell
  | utf8 _ => cases cell <;> cases hcell
  | binary _ => cases cell <;> cases hcell

end

/-- The loop of `append_fixed_width_row`, from column `index` on. -/
lemma writeFixedWidthCells_spec (h : plan.Valid specs) (hsize : plan.blockSize < 0x80000000)
    (hrow : rows < plan.maxRows) (ht : RowTyped specs cells row) {source : FixedWidthRowSource}
    (hcells : ∀ i c, plan.columns[i]? = some c → cells i = (source i c.typeTag).toCell)
    (hlen : index + todo = row.length) (hg : Good plan nulls rows tail s) :
    ∃ s', Ends (writeFixedWidthCells rows source todo index) s (.ok ()) s' ∧
      SameOff (touchedFrom plan tail index rows) s.payload s'.payload ∧
        Good plan nulls rows tail s' ∧
      ∀ (i : ℕ) (c : ColumnLayout) (v : ArrowLayout.Stored), index ≤ i → plan.columns[i]? = some c →
        row[i]? = some v → v ≠ .null ∧ v.longLen = 0 ∧ StoredAt s'.payload plan tail c rows v := by
  induction todo generalizing index s with
  | zero =>
    refine ⟨s, ends_pure _ s, SameOff.refl _ _, hg, fun i c v hi _ hv => ?_⟩
    have := (List.getElem?_eq_some_iff.mp hv).1
    omega
  | succ todo ih =>
    have hi : index < row.length := by omega
    have hi' : index < plan.columns.length := by
      rw [← ht.length_columns h]
      exact hi
    obtain ⟨v, hv⟩ : ∃ v, row[index]? = some v := ⟨_, List.getElem?_eq_getElem hi⟩
    obtain ⟨c, hc⟩ : ∃ c, plan.columns[index]? = some c := ⟨_, List.getElem?_eq_getElem hi'⟩
    have hst := ht.stored h hc hv
    rw [hcells index c hc] at hst
    obtain ⟨s₁, hends₁, hwrote₁, hnull, hzero, hstored⟩ := ends_writeFixedWidthCell hg h hc hrow hst
    have hlen' : index + 1 + todo = row.length := by omega
    obtain ⟨s₂, hends₂, hsame₂, hg₂, hrest⟩ := ih hlen'
      (hg.wrote h hrow (hwrote₁.mono (LayoutPlan.cellBits_subset_rowBits _ hc)))
    have hsame₁ : SameOff (touchedFrom plan tail index rows) s.payload s₁.payload :=
      hwrote₁.same.mono
      ((Set.subset_union_left.trans Set.subset_union_left).trans (touched_subset hc))
    refine ⟨s₂, ?_, hsame₁.trans (hsame₂.mono (touchedFrom_mono le_rfl (Nat.le_succ index))), hg₂,
      fun i c' w hle hc' hw => ?_⟩
    · have htag : (TypeTag.fromRaw c.typeTag.toRaw).mapError layoutError = .ok c.typeTag := by
        rw [TypeTag.fromRaw_toRaw, mapError_ok]
      exact Ends.bind (hg.ends_desc h hsize hc) (Ends.result htag (Ends.bind hends₁ hends₂))
    · rcases hle.lt_or_eq with hlt | rfl
      · exact hrest i c' w hlt hc' hw
      · obtain rfl : c = c' := Option.some.inj (hc.symm.trans hc')
        obtain rfl : v = w := Option.some.inj (hv.symm.trans hw)
        exact ⟨hnull, hzero, storedAt_of_touchedFrom h hsame₂ hg.pool_le hc hrow hrow
          (Or.inl (Nat.lt_succ_self index)) hstored⟩

/-- **`append_fixed_width_row` on a type-correct row.** -/
lemma appendFixedWidthRow_spec (hg : Good plan nulls rows tail s) (h : plan.Valid specs)
    (hsize : plan.blockSize < 0x80000000) (ht : RowTyped specs cells row)
    {source : FixedWidthRowSource}
    (hcells : ∀ i c, plan.columns[i]? = some c → cells i = (source i c.typeTag).toCell) :
    ∃ r s', Ends (appendFixedWidthRow source) s r s' ∧
      SameOff (touchedRow plan tail rows) s.payload s'.payload ∧
      RowEnds plan nulls rows tail row r s' := by
  have hcount : s.header.rowCount = rows := by rw [hg.header]
  have hmax : s.header.maxRows = plan.maxRows := by
    rw [hg.header]
    rfl
  by_cases hrow : rows < plan.maxRows
  · have hlen : 0 + s.colCount = row.length := by
      rw [Nat.zero_add, hg.colCount, ht.length_columns h]
    obtain ⟨s₁, hends, hsame, hg₁, hall⟩ := writeFixedWidthCells_spec h hsize hrow ht hcells hlen hg
    have hvalue : ∀ v ∈ row, v ≠ .null ∧ v.longLen = 0 := by
      intro v hv
      obtain ⟨i, hi, rfl⟩ := List.mem_iff_getElem.mp hv
      have hi' : i < plan.columns.length := by
        rw [← ht.length_columns h]
        exact hi
      obtain ⟨hnull, hzero, -⟩ := hall i _ _ (Nat.zero_le i) (List.getElem?_eq_getElem hi')
        (List.getElem?_eq_getElem hi)
      exact ⟨hnull, hzero⟩
    have hnone : countNulls nulls row = nulls := by
      funext i
      rw [countNulls, if_neg fun hv => (hvalue _ (List.mem_of_getElem? hv)).1 rfl, Nat.add_zero]
    have hsum : longSum row = 0 := by
      rw [longSum, List.sum_eq_zero_iff]
      intro n hn
      obtain ⟨v, hv, rfl⟩ := List.mem_map.mp hn
      exact (hvalue v hv).2
    refine ⟨.ok .appended, { s₁ with header := { s₁.header with rowCount := rows + 1 } },
      Ends.bind (ends_get s) ?_, hsame.mono fun _ hp =>
        ⟨hrow, hp⟩, RowEnds.of_stored h hrow (by rwa [hnone]) hsum
        fun i c v hc hv => (hall i c v (Nat.zero_le i) hc hv).2.2⟩
    rw [hcount, hmax, if_neg (not_le.mpr hrow)]
    exact Ends.bind hends (Ends.bind (ends_modify _ s₁) (ends_pure _ _))
  · refine ⟨_, s, Ends.bind (ends_get s) ?_, SameOff.refl _ _,
      .full (Or.inl (le_antisymm (not_lt.mp hrow) hg.rows_le)) hg⟩
    rw [hcount, hmax, if_pos (not_lt.mp hrow)]
    exact ends_pure _ s

end PageRowEncoder

end PgFusion.RowEncoder

import PgFusion.ArrowLayout.Layout

/-!
Blocks that are accepted are well laid out.
* `Accepted.wellLaidOut`: regions within the block and apart, and readable cells.
-/

namespace PgFusion.ArrowLayout

open Bytes Fallible

/-! ### Views -/

namespace ByteView

/-- The value of the view is stored in its slot, or in a pool of `capacity` bytes. -/
def StoredWithin (v : ByteView) (capacity : ℕ) : Prop :=
  (∃ bytes, v.inlineBytes = .ok (some bytes)) ∨
    ∃ offset len, v.offset = .ok (some offset) ∧ v.length = .ok len ∧ offset + len ≤ capacity

/-- A validation ends with an error of the layout, or with a view that is stored within
the pool. -/
lemma validate_cases (v : ByteView) (capacity : ℕ) :
    (∃ e, v.validate capacity = .error (.error e)) ∨
      v.validate capacity = .ok () ∧ v.StoredWithin capacity := by
  cases hlen : v.length with
  | error e => exact Or.inl ⟨e, by rw [validate, hlen]; rfl⟩
  | ok len =>
  by_cases hin : len ≤ viewInlineLen
  · refine Or.inr ⟨?_, Or.inl ⟨v.data.take len, ?_⟩⟩
    · simp only [validate, hlen, mapError_ok, ok_bind, if_pos hin]
      rfl
    · simp only [inlineBytes, hlen, ok_bind, if_pos hin]
      rfl
  have hline : v.isInline = .ok false := by
    simp only [isInline, hlen, ok_bind, hin, decide_false]
    rfl
  have hindex : v.bufferIndex = .ok (some (toI32 (ofLe ((v.data.drop 4).take 4)))) := by
    simp only [bufferIndex, hline, ok_bind, Bool.false_eq_true, if_false]
    rfl
  generalize toI32 (ofLe ((v.data.drop 4).take 4)) = index at hindex
  have hexpect : ∀ {α : Type} (a : α),
      (Halt.expect (some a) : Except (Halt LayoutError) α) = .ok a := fun _ => rfl
  simp only [validate, hlen, mapError_ok, ok_bind, if_neg hin, hindex, hexpect]
  by_cases hzero : index ≠ sharedViewBufferIndex
  · exact Or.inl ⟨_, by rw [refuse_of_pos hzero, error_bind]⟩
  rw [refuse_of_not hzero, ok_bind]
  by_cases hneg : toI32 (ofLe ((v.data.drop 8).take 4)) < 0
  · refine Or.inl ⟨.negativeViewOffset (toI32 (ofLe ((v.data.drop 8).take 4))), ?_⟩
    simp only [offset, hline, ok_bind, Bool.false_eq_true, if_false, refuse_of_pos hneg, error_bind,
      mapError_error]
  have hoffset : v.offset = .ok (some (toI32 (ofLe ((v.data.drop 8).take 4))).toNat) := by
    simp only [offset, hline, ok_bind, Bool.false_eq_true, if_false, refuse_of_not hneg]
    rfl
  generalize (toI32 (ofLe ((v.data.drop 8).take 4))).toNat = offset at hoffset
  simp only [hoffset, mapError_ok, ok_bind, hexpect]
  cases hsum : checkedAdd offset len with
  | error e => exact Or.inl ⟨e, rfl⟩
  | ok last =>
    obtain ⟨-, rfl⟩ := checkedAdd_eq_ok.mp hsum
    rw [mapError_ok, ok_bind]
    by_cases hcap : capacity < offset + len
    · exact Or.inl ⟨_, refuse_of_pos hcap⟩
    · exact Or.inr ⟨refuse_of_not hcap, Or.inr ⟨offset, len, hoffset, hlen, not_lt.mp hcap⟩⟩

end ByteView

/-! ### Accepted blocks -/

/-- What is known of a block that is accepted. -/
structure Accepted (r : BlockRef) (cols : List ColumnLayout) : Prop where
  header : HeaderOk r.header r.block.length
  laid : LaidOut r.block r.header cols
  fits : r.header.Fits

lemma accepted_of_openBlock {block : List UInt8} {r : BlockRef}
    (h : BlockRef.openBlock block = .ok r) : r.block = block ∧ ∃ cols, Accepted r cols := by
  obtain ⟨rfl, ⟨bytes, -, hbytes⟩, hheader, cols, hlaid⟩ := openBlock_eq_ok.mp h
  exact ⟨rfl, cols, hheader, hlaid, hbytes ▸ BlockHeader.fits_ofBytes bytes⟩

/-- The regions of a block: its header, its descriptors, the columns and the pool. -/
def BlockRef.regions (r : BlockRef) (cols : List ColumnLayout) : List (ℕ × ℕ) :=
  [(0, BlockHeader.size), (BlockHeader.size, r.header.colCount * ColumnDesc.size)] ++
    cols.flatMap ColumnLayout.regions ++
    [(r.header.poolBase, r.header.blockSize - r.header.poolBase)]

/-- Two regions do not overlap. -/
def Apart (g g' : ℕ × ℕ) : Prop := g.1 + g.2 ≤ g'.1 ∨ g'.1 + g'.2 ≤ g.1

/-- The readers of row `row` of a column read inside the regions of the column, and a
view that they return is stored in its slot or in the pool. -/
structure BlockRef.Readable (r : BlockRef) (i : ℕ) (c : ColumnLayout) (row : ℕ) : Prop where
  validity : row / 8 < c.validityLen ∧ ∃ byte, r.block[c.validityOff + row / 8]? = some byte ∧
    r.validity i row = .ok (bitOf byte (row % 8))
  bool : c.typeTag = .boolean → row / 8 < c.valuesLen ∧
    ∃ byte, r.block[c.valuesOff + row / 8]? = some byte ∧
      r.boolValue i row = .ok (bitOf byte (row % 8))
  fixed : ∀ width, c.typeTag.valuesRowWidth = some width → c.typeTag.isView = false →
    row * width + width ≤ c.valuesLen ∧
      ∃ bytes, slice r.block (c.valuesOff + row * width) width = some bytes ∧
        r.fixedValue i row = .ok bytes
  view : c.typeTag.isView = true → row * ByteView.size + ByteView.size ≤ c.valuesLen ∧
    ∃ bytes, slice r.block (c.valuesOff + row * ByteView.size) ByteView.size = some bytes ∧
      r.view i row = (do
        (ByteView.ofBytes bytes).validate (r.header.blockSize - r.header.poolBase)
        return ByteView.ofBytes bytes)
  pool : ∀ v, r.view i row = .ok v → v.StoredWithin (r.header.blockSize - r.header.poolBase)

/-- A block is well laid out, with the given columns. -/
structure BlockRef.WellLaidOut (r : BlockRef) (cols : List ColumnLayout) : Prop where
  count : cols.length = r.header.colCount
  columns : ∀ i c, cols[i]? = some c → r.columnLayout i = .ok c
  apart : (r.regions cols).Pairwise Apart
  inside : ∀ g ∈ r.regions cols, g.1 + g.2 ≤ r.block.length
  aligned : ∀ c ∈ cols, ∀ g ∈ c.regions, g.1 % bufferAlignment = bufferAlignmentBias
  readable : ∀ i c row, cols[i]? = some c → row < r.header.maxRows → r.Readable i c row
  safe : ∀ i row, row < r.header.maxRows →
    r.fixedValue i row ≠ .error .panic ∧ r.view i row ≠ .error .panic

namespace Accepted

variable {r : BlockRef} {cols : List ColumnLayout} {i row : ℕ} {c : ColumnLayout}

/-- A block reports the layouts of its columns. -/
lemma columnLayout (h : Accepted r cols) (hc : cols[i]? = some c) : r.columnLayout i = .ok c := by
  have hi : ¬ r.header.colCount ≤ i := by
    rw [← h.laid.count, not_le]
    exact (List.getElem?_eq_some_iff.mp hc).1
  obtain ⟨bytes, hread, hlayout, -⟩ := h.laid.descs i c hc
  simp only [BlockRef.columnLayout, BlockRef.desc, refuse_of_not hi, ok_bind,
    readStruct_eq_ok.mpr hread]
  exact hlayout

lemma columnLayout_of_none (h : Accepted r cols) (hc : cols[i]? = none) :
    r.columnLayout i = .error (.columnIndexOutOfBounds i r.header.colCount) := by
  have hi : r.header.colCount ≤ i := by
    rw [← h.laid.count]
    exact List.getElem?_eq_none_iff.mp hc
  simp only [BlockRef.columnLayout, BlockRef.desc, refuse_of_pos hi, error_bind]

lemma sized (h : Accepted r cols) (hc : cols[i]? = some c) : c.Sized r.header.maxRows := by
  obtain ⟨bytes, -, hlayout, -⟩ := h.laid.descs i c hc
  exact (columnLayoutFromDesc_eq_ok.mp hlayout).2.2.2.2

/-- The regions of a column are in the front region. -/
lemma region (h : Accepted r cols) (hc : cols[i]? = some c) {g : ℕ × ℕ} (hg : g ∈ c.regions) :
    r.header.frontBase ≤ g.1 ∧ g.1 + g.2 ≤ r.header.poolBase :=
  h.laid.walk.within (List.mem_flatMap.mpr ⟨c, List.mem_of_getElem? hc, hg⟩)

lemma pool_le (h : Accepted r cols) : r.header.poolBase ≤ r.header.blockSize :=
  h.header.poolTail.trans h.header.tailSize

lemma capacity (h : Accepted r cols) :
    r.header.sharedPoolCapacity = .ok (r.header.blockSize - r.header.poolBase) :=
  checkedSub_eq_ok.mpr ⟨h.pool_le, rfl⟩

/-- The bytes of a region of a column. -/
lemma blockRange (h : Accepted r cols) (hc : cols[i]? = some c) {g : ℕ × ℕ} (hg : g ∈ c.regions) :
    ∃ bytes, blockRange r.block g.1 g.2 = .ok bytes ∧ slice r.block g.1 g.2 = some bytes := by
  have hle : g.1 + g.2 ≤ r.block.length :=
    (h.region hc hg).2.trans (h.pool_le.trans h.header.sizeLen)
  exact ⟨_, blockRange_eq_ok.mpr (slice_of_le hle), slice_of_le hle⟩

lemma validityBytes (h : Accepted r cols) (hc : cols[i]? = some c) :
    ∃ bytes, r.validityBytes i = .ok bytes ∧
      slice r.block c.validityOff c.validityLen = some bytes := by
  obtain ⟨bytes, hrange, hslice⟩ := h.blockRange hc (g := (c.validityOff, c.validityLen))
    (by simp [ColumnLayout.regions])
  refine ⟨bytes, ?_, hslice⟩
  rw [BlockRef.validityBytes, h.columnLayout hc, ok_bind]
  exact hrange

lemma valuesBytes (h : Accepted r cols) (hc : cols[i]? = some c) :
    ∃ bytes, r.valuesBytes i = .ok bytes ∧ slice r.block c.valuesOff c.valuesLen = some bytes := by
  obtain ⟨bytes, hrange, hslice⟩ := h.blockRange hc (g := (c.valuesOff, c.valuesLen))
    (by simp [ColumnLayout.regions])
  refine ⟨bytes, ?_, hslice⟩
  rw [BlockRef.valuesBytes, h.columnLayout hc, ok_bind]
  exact hrange

/-- A bit of a region is a bit of the block. -/
lemma bitmapGet_slice {block bytes : List UInt8} {off len : ℕ}
    (hslice : slice block off len = some bytes) (hrow : row / 8 < len) :
    ∃ byte, block[off + row / 8]? = some byte ∧ bitmapGet bytes row = bitOf byte (row % 8) := by
  obtain ⟨hle, hlen, hbytes⟩ := slice_eq_some.mp hslice
  obtain ⟨byte, hbyte⟩ : ∃ byte, bytes[row / 8]? = some byte :=
    ⟨_, List.getElem?_eq_getElem (by omega)⟩
  refine ⟨byte, (hbytes _ hrow).symm.trans hbyte, ?_⟩
  rw [bitmapGet, hbyte]

section

variable (h : Accepted r cols) (hc : cols[i]? = some c) (hrow : row < r.header.maxRows)

include h hc hrow

lemma validity :
    row / 8 < c.validityLen ∧ ∃ byte, r.block[c.validityOff + row / 8]? = some byte ∧
      r.validity i row = .ok (bitOf byte (row % 8)) := by
  have hlt : row / 8 < c.validityLen :=
    lt_of_lt_of_le (row_div_lt_bitmapBytes hrow) (h.sized hc).le_validityLen
  obtain ⟨bytes, hread, hslice⟩ := h.validityBytes hc
  obtain ⟨byte, hbyte, hbit⟩ := bitmapGet_slice hslice hlt
  refine ⟨hlt, byte, hbyte, ?_⟩
  rw [BlockRef.validity, hread, ok_bind, hbit]
  rfl

lemma boolValue (ht : c.typeTag = .boolean) :
    row / 8 < c.valuesLen ∧ ∃ byte, r.block[c.valuesOff + row / 8]? = some byte ∧
      r.boolValue i row = .ok (bitOf byte (row % 8)) := by
  have hlt : row / 8 < c.valuesLen := (h.sized hc).bit_lt hrow (by rw [ht]; rfl)
  obtain ⟨bytes, hread, hslice⟩ := h.valuesBytes hc
  obtain ⟨byte, hbyte, hbit⟩ := bitmapGet_slice hslice hlt
  refine ⟨hlt, byte, hbyte, ?_⟩
  rw [BlockRef.boolValue, h.columnLayout hc, ok_bind, refuse_of_not (not_not.mpr ht),
    ok_bind, hread, ok_bind, hbit]
  rfl

/-- The slot of a row is inside the values of its column. -/
lemma slot {width : ℕ} (hw : c.typeTag.valuesRowWidth = some width) :
    row * width + width ≤ c.valuesLen ∧ c.valuesOff + c.valuesLen < 0x100000000 ∧
      c.valuesOff + c.valuesLen ≤ r.block.length := by
  have hregion := (h.region hc (g := (c.valuesOff, c.valuesLen)) (by simp [ColumnLayout.regions])).2
  exact ⟨(h.sized hc).slot_le hrow hw, lt_of_le_of_lt hregion h.fits.bounds.2.1,
    hregion.trans (h.pool_le.trans h.header.sizeLen)⟩

lemma fixedValue
    {width : ℕ} (hw : c.typeTag.valuesRowWidth = some width) (hview : c.typeTag.isView = false) :
    ∃ bytes, slice r.block (c.valuesOff + row * width) width = some bytes ∧
      r.fixedValue i row = .ok bytes := by
  obtain ⟨hslot, hlt, hle⟩ := h.slot hc hrow hw
  obtain ⟨values, hread, hslice⟩ := h.valuesBytes hc
  have hmul : checkedMul row width = .ok (row * width) := checkedMul_eq_ok.mpr ⟨by omega, rfl⟩
  have htag : ¬ (c.typeTag = .boolean ∨ c.typeTag.isView = true) := by
    rintro (ht | ht)
    · rw [ht] at hw
      cases hw
    · rw [hview] at ht
      cases ht
  have hbytes : slice r.block (c.valuesOff + row * width) width =
      some ((r.block.drop (c.valuesOff + row * width)).take width) := slice_of_le (by omega)
  refine ⟨_, hbytes, ?_⟩
  simp only [BlockRef.fixedValue, h.columnLayout hc, mapError_ok, ok_bind, hw,
    refuse_of_not htag, hmul, hread, slice_slice hslice hslot, hbytes]
  rfl

lemma view (hview : c.typeTag.isView = true) :
    ∃ bytes, slice r.block (c.valuesOff + row * ByteView.size) ByteView.size = some bytes ∧
      r.view i row = (do
        (ByteView.ofBytes bytes).validate (r.header.blockSize - r.header.poolBase)
        return ByteView.ofBytes bytes) := by
  have hw : c.typeTag.valuesRowWidth = some ByteView.size := by
    generalize c.typeTag = t at hview
    cases t <;> first | rfl | cases hview
  obtain ⟨hslot, hlt, hle⟩ := h.slot hc hrow hw
  have hmul : checkedMul row ByteView.size = .ok (row * ByteView.size) :=
    checkedMul_eq_ok.mpr ⟨by omega, rfl⟩
  have hadd : checkedAdd c.valuesOff (row * ByteView.size) =
      .ok (c.valuesOff + row * ByteView.size) := checkedAdd_eq_ok.mpr ⟨by omega, rfl⟩
  have hbytes : slice r.block (c.valuesOff + row * ByteView.size) ByteView.size =
      some ((r.block.drop (c.valuesOff + row * ByteView.size)).take ByteView.size) :=
    slice_of_le (by omega)
  refine ⟨_, hbytes, ?_⟩
  have hkind : ¬ c.typeTag.isView = false := by rw [hview]; exact Bool.noConfusion
  simp only [BlockRef.view, h.columnLayout hc, mapError_ok, ok_bind, refuse_of_not hkind,
    refuse_of_not (not_le.mpr hrow), hmul, hadd, readStruct_eq_ok.mpr hbytes, h.capacity]

/-- A view that is returned is stored in its slot or in the pool. -/
lemma storedWithin {v : ByteView} (hv : r.view i row = .ok v) :
    v.StoredWithin (r.header.blockSize - r.header.poolBase) := by
  cases hview : c.typeTag.isView with
  | false =>
    rw [BlockRef.view, h.columnLayout hc, mapError_ok, ok_bind, refuse_of_pos hview] at hv
    cases hv
  | true =>
    obtain ⟨bytes, -, hread⟩ := h.view hc hrow hview
    rw [hread] at hv
    rcases (ByteView.ofBytes bytes).validate_cases (r.header.blockSize - r.header.poolBase) with
      ⟨e, he⟩ | ⟨hok, hstored⟩
    · rw [he] at hv
      cases hv
    · rw [hok] at hv
      obtain rfl : ByteView.ofBytes bytes = v := Except.ok.inj hv
      exact hstored

end

lemma fixedValue_ne_panic (h : Accepted r cols) (i : ℕ) (hrow : row < r.header.maxRows) :
    r.fixedValue i row ≠ .error .panic := by
  cases hc : cols[i]? with
  | none =>
    rw [BlockRef.fixedValue, h.columnLayout_of_none hc]
    exact fun he => by cases he
  | some c =>
  cases hw : c.typeTag.valuesRowWidth with
  | none =>
    rw [BlockRef.fixedValue, h.columnLayout hc, mapError_ok, ok_bind]
    simp only [hw]
    exact fun he => by cases he
  | some width =>
  cases hview : c.typeTag.isView with
  | false =>
    obtain ⟨bytes, -, hread⟩ := h.fixedValue hc hrow hw hview
    rw [hread]
    exact fun he => by cases he
  | true =>
    rw [BlockRef.fixedValue, h.columnLayout hc, mapError_ok, ok_bind]
    simp only [hw, ok_bind, refuse_of_pos (Or.inr hview), error_bind]
    exact fun he => by cases he

lemma view_ne_panic (h : Accepted r cols) (i : ℕ) (hrow : row < r.header.maxRows) :
    r.view i row ≠ .error .panic := by
  cases hc : cols[i]? with
  | none =>
    rw [BlockRef.view, h.columnLayout_of_none hc]
    exact fun he => by cases he
  | some c =>
  cases hview : c.typeTag.isView with
  | false =>
    rw [BlockRef.view, h.columnLayout hc, mapError_ok, ok_bind, refuse_of_pos hview]
    exact fun he => by cases he
  | true =>
    obtain ⟨bytes, -, hread⟩ := h.view hc hrow hview
    rw [hread]
    rcases (ByteView.ofBytes bytes).validate_cases (r.header.blockSize - r.header.poolBase) with
      ⟨e, he⟩ | ⟨hok, -⟩
    · rw [he]
      exact fun he => by cases he
    · rw [hok]
      exact fun he => by cases he

/-- The regions of an accepted block follow each other, but for a gap after the
descriptors. -/
lemma regions_pairwise (h : Accepted r cols) :
    (r.regions cols).Pairwise fun g g' => g.1 + g.2 ≤ g'.1 := by
  have hfront : descOffset r.header.colCount ≤ r.header.frontBase := by
    have hf := h.header.front
    rw [frontBaseFor_eq h.fits.bounds.1, Except.ok.injEq] at hf
    rw [descOffset, BlockHeader.size, ColumnDesc.size]
    omega
  rw [descOffset] at hfront
  rw [BlockRef.regions, List.append_assoc, List.pairwise_append]
  refine ⟨by simp, ?_, ?_⟩
  · rw [List.pairwise_append]
    refine ⟨h.laid.walk.pairwise, by simp, fun g hg g' hg' => ?_⟩
    rw [List.mem_singleton] at hg'
    rw [hg']
    exact (h.laid.walk.within hg).2
  · intro g hg g' hg'
    have hlow : r.header.frontBase ≤ g'.1 := by
      rcases List.mem_append.mp hg' with hg' | hg'
      · exact (h.laid.walk.within hg').1
      · rw [List.mem_singleton] at hg'
        rw [hg']
        exact h.header.frontPool
    simp only [List.mem_cons, List.not_mem_nil, or_false] at hg
    rcases hg with rfl | rfl
    · dsimp only
      omega
    · dsimp only
      omega

/-- An accepted block is well laid out. -/
lemma wellLaidOut (h : Accepted r cols) : r.WellLaidOut cols where
  count := h.laid.count
  columns := fun i c hc => h.columnLayout hc
  apart := h.regions_pairwise.imp fun hle => Or.inl hle
  inside := by
    intro g hg
    have hsize := h.pool_le.trans h.header.sizeLen
    rw [BlockRef.regions, List.mem_append, List.mem_append] at hg
    rcases hg with (hg | hg) | hg
    · have hdescs := h.header.descs
      rw [descOffset] at hdescs
      simp only [List.mem_cons, List.not_mem_nil, or_false] at hg
      rcases hg with rfl | rfl
      · dsimp only
        omega
      · exact hdescs
    · exact (h.laid.walk.within hg).2.trans hsize
    · rw [List.mem_singleton] at hg
      rw [hg]
      have := h.pool_le
      have := h.header.sizeLen
      dsimp only
      omega
  aligned := by
    intro c hc g hg
    have hdvd : ∀ g ∈ cols.flatMap ColumnLayout.regions, 16 ∣ g.2 := by
      intro g hg
      obtain ⟨c, hc, hg⟩ := List.mem_flatMap.mp hg
      obtain ⟨i, hi⟩ := List.getElem?_of_mem hc
      exact (h.sized hi).dvd g hg
    have hmod := (h.laid.walk.modEq hdvd).1 g (List.mem_flatMap.mpr ⟨c, hc, hg⟩)
    exact Eq.trans hmod h.header.frontMod
  readable := fun i c row hc hrow =>
    { validity := h.validity hc hrow
      bool := h.boolValue hc hrow
      fixed := fun width hw hview => ⟨(h.slot hc hrow hw).1, h.fixedValue hc hrow hw hview⟩
      view := fun hview => by
        have hw : c.typeTag.valuesRowWidth = some ByteView.size := by
          generalize c.typeTag = t at hview
          cases t <;> first | rfl | cases hview
        exact ⟨(h.slot hc hrow hw).1, h.view hc hrow hview⟩
      pool := fun v hv => h.storedWithin hc hrow hv }
  safe := fun i row hrow => ⟨h.fixedValue_ne_panic i hrow, h.view_ne_panic i hrow⟩

end Accepted

end PgFusion.ArrowLayout

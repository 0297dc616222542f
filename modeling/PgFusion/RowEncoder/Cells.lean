import PgFusion.ArrowLayout.Content
import PgFusion.RowEncoder.Encoder

/-!
What writing one cell of a row does.
* `writeCell_spec`: a cell of a type-correct row ends as `CellEnds` says.
-/

namespace PgFusion.RowEncoder

open Bytes Fallible ArrowLayout Stateful

/-! ### Values of cells -/

/-- The value of a cell in a column of the given type: none if the cell is not of the
type, or is a null and the column is not nullable. -/
def storedAs (t : TypeTag) (nullable : Bool) (cell : CellRef) : Option ArrowLayout.Stored :=
  if cell = .null then if nullable then some .null else none
  else
    match primitiveBytes t cell with
    | some bytes => some (.fixed bytes)
    | none =>
      match t, cell with
      | .boolean, .boolean value => some (.bool value)
      | .uuid, .uuid bytes => if bytes.length = uuidWidthBytes then some (.fixed bytes) else none
      | .utf8View, .utf8 bytes => some (.bytes bytes)
      | .binaryView, .binary bytes => some (.bytes bytes)
      | _, _ => none

/-- The cells that a column takes. -/
inductive Typed (t : TypeTag) (nullable : Bool) : CellRef → ArrowLayout.Stored → Prop
  | null (h : nullable = true) : Typed t nullable .null .null
  | primitive {cell bytes} (hne : cell ≠ .null) (h : primitiveBytes t cell = some bytes) :
      Typed t nullable cell (.fixed bytes)
  | bool {value} (h : t = .boolean) : Typed t nullable (.boolean value) (.bool value)
  | uuid {bytes} (h : t = .uuid) (hlen : bytes.length = uuidWidthBytes) :
      Typed t nullable (.uuid bytes) (.fixed bytes)
  | utf8 {bytes} (h : t = .utf8View) : Typed t nullable (.utf8 bytes) (.bytes bytes)
  | binary {bytes} (h : t = .binaryView) : Typed t nullable (.binary bytes) (.bytes bytes)

lemma typed_of_storedAs {t : TypeTag} {nullable : Bool} {cell : CellRef} {st : ArrowLayout.Stored}
    (h : storedAs t nullable cell = some st) : Typed t nullable cell st := by
  rw [storedAs.eq_def] at h
  by_cases hnull : cell = .null
  · subst hnull
    cases nullable with
    | true =>
      obtain rfl : ArrowLayout.Stored.null = st := Option.some.inj h
      exact .null rfl
    | false => cases h
  · rw [if_neg hnull] at h
    cases hprim : primitiveBytes t cell with
    | some bytes =>
      rw [hprim] at h
      obtain rfl : ArrowLayout.Stored.fixed bytes = st := Option.some.inj h
      exact .primitive hnull hprim
    | none =>
      rw [hprim] at h
      dsimp only at h
      split at h
      · obtain rfl := Option.some.inj h
        exact .bool rfl
      · split_ifs at h with hlen
        obtain rfl := Option.some.inj h
        exact .uuid rfl hlen
      · obtain rfl := Option.some.inj h
        exact .utf8 rfl
      · obtain rfl := Option.some.inj h
        exact .binary rfl
      · cases h

/-- The types whose values are written as they are. -/
lemma primitiveBytes_type {t : TypeTag} {cell : CellRef} {bytes : List UInt8}
    (h : primitiveBytes t cell = some bytes) :
    t.isView = false ∧ t.valuesRowWidth = some bytes.length := by
  rw [primitiveBytes.eq_def] at h
  split at h <;> first
    | (obtain rfl := Option.some.inj h; exact ⟨rfl, by rw [length_leBytes]; rfl⟩)
    | (obtain rfl := Option.some.inj h; exact ⟨rfl, rfl⟩)
    | cases h

lemma Typed.fits {t : TypeTag} {nullable : Bool} {cell : CellRef} {st : ArrowLayout.Stored}
    (h : Typed t nullable cell st) : st.Fits t := by
  cases h with
  | null _ => trivial
  | primitive _ hprim => exact primitiveBytes_type hprim
  | bool ht => exact ht
  | uuid ht hlen =>
    subst ht
    exact ⟨rfl, by rw [hlen]; rfl⟩
  | utf8 ht =>
    subst ht
    rfl
  | binary ht =>
    subst ht
    rfl

lemma Typed.nullable {t : TypeTag} {nullable : Bool} {cell : CellRef}
    (h : Typed t nullable cell .null) : nullable = true := by
  cases h with
  | null hn => exact hn

namespace PageRowEncoder

variable {s s' s'' : PageRowEncoder} {S T : Set ℕ}

/-! ### Single accesses -/

variable {bytes : List UInt8}

lemma ends_readRaw {off len : ℕ} (h : slice s.payload off len = some bytes) :
    Ends (readRaw off len) s (.ok bytes) s := by
  refine Ends.bind (ends_get s) ?_
  rw [h]
  exact ends_pure bytes s

lemma ends_writeRaw {off : ℕ} (h : off + bytes.length ≤ s.payload.length) :
    Ends (writeRaw off bytes) s (.ok ()) { s with payload := splice s.payload off bytes } := by
  refine Ends.bind (ends_get s) ?_
  rw [if_pos h]
  exact ends_set s _

lemma ends_writeTail {start : ℕ} (h : start + bytes.length ≤ s.payload.length) :
    Ends (writeTail start bytes) s (.ok ()) { s with payload := splice s.payload start bytes } := by
  refine Ends.bind (ends_get s) ?_
  rw [if_pos h]
  exact ends_set s _

lemma ends_bitmapGetRaw {base index : ℕ} {v : Bool}
    (h : bitAt s.payload (8 * base + index) = some v) :
    Ends (bitmapGetRaw base index) s (.ok v) s := by
  obtain ⟨byte, hbyte, rfl⟩ := Option.map_eq_some_iff.mp h
  have hdiv : (8 * base + index) / 8 = base + index / 8 := by omega
  have hmod : (8 * base + index) % 8 = index % 8 := by omega
  rw [hdiv] at hbyte
  refine Ends.bind (ends_get s) ?_
  rw [hbyte, hmod]
  exact ends_pure _ s

lemma ends_bitmapSetRaw {base index : ℕ} (v : Bool) (h : base + index / 8 < s.payload.length) :
    Ends (bitmapSetRaw base index v) s (.ok ())
      { s with payload := setBit s.payload (8 * base + index) v } := by
  have hdiv : (8 * base + index) / 8 = base + index / 8 := by omega
  have hmod : (8 * base + index) % 8 = index % 8 := by omega
  have hset : setBit s.payload (8 * base + index) v =
      s.payload.set (base + index / 8) (withBit s.payload[base + index / 8] (index % 8) v) := by
    rw [setBit, hdiv, hmod, List.modify_eq_set_get _ h]
    rfl
  refine Ends.bind (ends_get s) ?_
  rw [List.getElem?_eq_getElem h, hset]
  exact ends_set s _

/-! ### The invariant -/

/-- Only bits of `S` changed, and only in the page. -/
structure Wrote (S : Set ℕ) (s s' : PageRowEncoder) : Prop where
  header : s'.header = s.header
  colCount : s'.colCount = s.colCount
  same : SameOff S s.payload s'.payload

namespace Wrote

lemma mono (h : Wrote S s s') (hST : S ⊆ T) : Wrote T s s' :=
  ⟨h.header, h.colCount, h.same.mono hST⟩

lemma trans (h : Wrote S s s') (h' : Wrote S s' s'') : Wrote S s s'' :=
  ⟨h'.header.trans h.header, h'.colCount.trans h.colCount, h.same.trans h'.same⟩

end Wrote

lemma wrote_splice {off : ℕ} (h : off + bytes.length ≤ s.payload.length) :
    Wrote (Set.Ico (8 * off) (8 * (off + bytes.length))) s
      { s with payload := splice s.payload off bytes } := ⟨rfl, rfl, sameOff_splice h⟩

lemma wrote_setBit {p : ℕ} (v : Bool) (h : p / 8 < s.payload.length) :
    Wrote {p} s { s with payload := setBit s.payload p v } := ⟨rfl, rfl, sameOff_setBit v h⟩

/-- The encoder holds `rows` rows of a block of the plan, with the given null counts, and
the tail is in use from `tail` on. -/
structure Good (plan : LayoutPlan) (nulls : ℕ → ℕ) (rows tail : ℕ) (s : PageRowEncoder) : Prop where
  header : s.header = { plan.blockHeader with rowCount := rows, tailCursor := tail }
  colCount : s.colCount = plan.columns.length
  rows_le : rows ≤ plan.maxRows
  pool_le : plan.poolBase ≤ tail
  tail_le : tail ≤ plan.blockSize
  tables : Tables plan nulls s.payload

variable {plan : LayoutPlan} {specs : List ColumnSpec} {nulls : ℕ → ℕ} {rows tail i : ℕ}
  {c : ColumnLayout}

namespace Good

variable (hg : Good plan nulls rows tail s) (h : plan.Valid specs)

include hg h

/-- The invariant after a write to the row that is being appended and to the free part of
the tail, and a change of the header. -/
lemma move {row rows' tail' : ℕ} (hrow : row < plan.maxRows)
    (hsame : SameOff (plan.rowBits row ∪ plan.freeBits tail) s.payload s'.payload)
    (hheader : s'.header = { s.header with rowCount := rows', tailCursor := tail' })
    (hcount : s'.colCount = s.colCount) (hrows : rows' ≤ plan.maxRows)
    (hpool : plan.poolBase ≤ tail') (htail : tail' ≤ plan.blockSize) :
    Good plan nulls rows' tail' s' where
  header := by
    rw [hheader, hg.header]
  colCount := hcount.trans hg.colCount
  rows_le := hrows
  pool_le := hpool
  tail_le := htail
  tables := hg.tables.same h hrow hsame

/-- The invariant after a write to the row that is being appended. -/
lemma wrote {row : ℕ} (hrow : row < plan.maxRows) (hw : Wrote (plan.rowBits row) s s') :
    Good plan nulls rows tail s' :=
  hg.move h hrow (hw.same.mono Set.subset_union_left)
    (by rw [hw.header, hg.header]) hw.colCount hg.rows_le hg.pool_le hg.tail_le

/-- The bytes of a column's regions are in the page. -/
lemma region_le (hc : plan.columns[i]? = some c) {g : ℕ × ℕ} (hmem : g ∈ c.regions) :
    g.1 + g.2 ≤ s.payload.length :=
  (h.region hc hmem).2.trans (h.pool.trans hg.tables.length)

lemma ends_desc (hsize : plan.blockSize < 0x80000000) (hc : plan.columns[i]? = some c) :
    Ends (desc i) s (.ok { c.desc with nullCount := nulls i }) s := by
  refine Ends.bind (ends_readRaw (hg.tables.desc i c hc)) ?_
  rw [ColumnDesc.ofBytes_toBytes (h.desc_fits (by omega) hc (hg.tables.nulls_lt i))]
  exact ends_pure _ s

/-- Writing a null count. -/
lemma ends_writeDesc (hc : plan.columns[i]? = some c) {n : ℕ} (hn : n < 0x100000000) :
    ∃ s', Ends (writeDesc i { c.desc with nullCount := n }) s (.ok ()) s' ∧
      Wrote plan.descBits s s' ∧ Good plan (Function.update nulls i n) rows tail s' := by
  obtain ⟨hlen, htables, hsame⟩ := hg.tables.setNullCount h hc hn
  rw [← ColumnDesc.length_toBytes { c.desc with nullCount := n }] at hlen
  exact ⟨_, ends_writeRaw hlen, ⟨rfl, rfl, hsame⟩,
    ⟨hg.header, hg.colCount, hg.rows_le, hg.pool_le, hg.tail_le, htables⟩⟩

end Good

/-! ### Parts of a cell -/

section Parts

variable {row n : ℕ}

lemma fixedWidth_toRaw {t : TypeTag} {w : ℕ} (hview : t.isView = false)
    (hw : t.valuesRowWidth = some w) : fixedWidth t.toRaw = .ok w := by
  cases t <;> cases hw <;> first | rfl | cases hview

/-- The part of `write_null` that clears the value, by the width of the slot. -/
lemma clearValue_eq {t : TypeTag} {w : ℕ} (hw : t.valuesRowWidth = some w) {d : ColumnDesc}
    (hd : d.typeTag = t.toRaw) : clearValue row d = zeroValueSlot row d w := by
  rw [clearValue, hd]
  cases t <;> cases hw <;> rfl

variable (hg : Good plan nulls rows tail s) (h : plan.Valid specs)
  (hc : plan.columns[i]? = some c) (hrow : row < plan.maxRows)

include hg h hc hrow

lemma ends_writeValidity (v : Bool) :
    ∃ s', Ends (writeValidity row { c.desc with nullCount := n } v) s (.ok ()) s' ∧
      Wrote (c.cellBits row) s s' ∧
      (c.nullable = true → bitAt s'.payload (c.validityBit row) = some v) := by
  rw [writeValidity]
  by_cases hn : c.nullable = true
  · have hin := ColumnLayout.validityBit_within (h.sized c (List.mem_of_getElem? hc)) hrow
    have hlen := hg.region_le h hc (g := (c.validityOff, c.validityLen))
      (by simp [ColumnLayout.regions])
    rw [ColumnLayout.validityBit] at hin
    have hbyte : (8 * c.validityOff + row) / 8 < s.payload.length := by omega
    refine ⟨_, ?_, (wrote_setBit v hbyte).mono ?_, fun _ => ?_⟩
    · rw [if_pos (show ColumnDesc.isNullable { c.desc with nullCount := n } = true from hn)]
      exact ends_bitmapSetRaw v (by dsimp only [ColumnLayout.desc]; omega)
    · rintro p rfl
      exact ColumnLayout.validityBit_mem hn
    · exact (bitAt_setBit v hbyte _).trans (if_pos rfl)
  · refine ⟨s, ?_, ⟨rfl, rfl, SameOff.refl _ _⟩, fun hn' => absurd hn' hn⟩
    rw [if_neg (show ¬ColumnDesc.isNullable { c.desc with nullCount := n } = true from hn)]
    exact ends_pure _ s

lemma ends_writeBoolValue (ht : c.typeTag = .boolean) (v : Bool) :
    ∃ s', Ends (writeBoolValue row { c.desc with nullCount := n } v) s (.ok ()) s' ∧
      Wrote (c.valueBits row) s s' ∧ bitAt s'.payload (8 * c.valuesOff + row) = some v := by
  have hw : c.typeTag.valuesRowWidth = none := by rw [ht]; rfl
  have hlt := (h.sized c (List.mem_of_getElem? hc)).bit_lt hrow hw
  have hlen := hg.region_le h hc (g := (c.valuesOff, c.valuesLen)) (by simp [ColumnLayout.regions])
  have hbyte : (8 * c.valuesOff + row) / 8 < s.payload.length := by omega
  refine ⟨_, ends_bitmapSetRaw v (by dsimp only [ColumnLayout.desc]; omega),
    (wrote_setBit v hbyte).mono ?_, (bitAt_setBit v hbyte _).trans (if_pos rfl)⟩
  rw [ColumnLayout.valueBits, hw]

/-- Writing the slot of a value. -/
lemma ends_writeSlot {bytes : List UInt8} (hw : c.typeTag.valuesRowWidth = some bytes.length) :
    ∃ s', Ends (writeRaw (c.valuesOff + row * bytes.length) bytes) s (.ok ()) s' ∧
      Wrote (c.valueBits row) s s' ∧
      slice s'.payload (c.valuesOff + row * bytes.length) bytes.length = some bytes := by
  have hle := (h.sized c (List.mem_of_getElem? hc)).slot_le hrow hw
  have hlen := hg.region_le h hc (g := (c.valuesOff, c.valuesLen)) (by simp [ColumnLayout.regions])
  have hfit : c.valuesOff + row * bytes.length + bytes.length ≤ s.payload.length := by omega
  refine ⟨_, ends_writeRaw hfit, (wrote_splice hfit).mono ?_, slice_splice_self hfit⟩
  rw [ColumnLayout.valueBits, hw]

lemma ends_writeFixedBytes {bytes : List UInt8}
    (hview : c.typeTag.isView = false) (hw : c.typeTag.valuesRowWidth = some bytes.length) :
    ∃ s', Ends (writeFixedBytes row { c.desc with nullCount := n } bytes) s (.ok ()) s' ∧
      Wrote (c.valueBits row) s s' ∧
      slice s'.payload (c.valuesOff + row * bytes.length) bytes.length = some bytes := by
  obtain ⟨s', hends, hwrote, hslice⟩ := ends_writeSlot hg h hc hrow hw
  refine ⟨s', ?_, hwrote, hslice⟩
  have hfixed : (fixedWidth c.typeTag.toRaw).mapError layoutError = .ok bytes.length := by
    rw [fixedWidth_toRaw hview hw, mapError_ok]
  exact Ends.result hfixed (Ends.result (refuse_of_not (not_not.mpr rfl)) hends)

lemma ends_clearValue :
    ∃ s', Ends (clearValue row { c.desc with nullCount := n }) s (.ok ()) s' ∧
      Wrote (c.valueBits row) s s' := by
  cases hw : c.typeTag.valuesRowWidth with
  | none =>
    have ht : c.typeTag = .boolean := by
      revert hw
      cases c.typeTag <;> first | exact fun _ => rfl | exact nofun
    obtain ⟨s', hends, hwrote, -⟩ := ends_writeBoolValue hg h hc hrow ht (n := n) false
    refine ⟨s', ?_, hwrote⟩
    rw [clearValue, if_pos (by rw [← ht]; rfl)]
    exact hends
  | some w =>
    have hzero : c.typeTag.valuesRowWidth = some (List.replicate w (0 : UInt8)).length := by
      rw [List.length_replicate, hw]
    obtain ⟨s', hends, hwrote, -⟩ := ends_writeSlot hg h hc hrow hzero
    refine ⟨s', ?_, hwrote⟩
    rw [clearValue_eq hw rfl, zeroValueSlot]
    rw [List.length_replicate] at hends
    exact hends

end Parts

/-! ### Cells -/

/-- The null counts after the value `st` of column `i`. -/
def countNull (nulls : ℕ → ℕ) (i : ℕ) (st : ArrowLayout.Stored) : ℕ → ℕ :=
  if st = .null then Function.update nulls i (nulls i + 1) else nulls

lemma countNull_of_ne (nulls : ℕ → ℕ) (i : ℕ) {st : ArrowLayout.Stored} (h : st ≠ .null) :
    countNull nulls i st = nulls := if_neg h

/-- The bits that the write of a cell may change. -/
def touched (plan : LayoutPlan) (tail : ℕ) (c : ColumnLayout) (row : ℕ) : Set ℕ :=
  c.cellBits row ∪ plan.descBits ∪ plan.freeBits tail

/-- How the write of a cell ends. A value that does not fit in the tail is answered with
`full` and leaves no trace; one that is longer than the tail cursor is an error. -/
inductive CellEnds (plan : LayoutPlan) (nulls : ℕ → ℕ) (rows tail i : ℕ) (c : ColumnLayout)
    (st : ArrowLayout.Stored) (s : PageRowEncoder) :
    Except (Halt RowEncodeError) CellWrite → PageRowEncoder → Prop
  | written {s' : PageRowEncoder} (hfit : plan.poolBase + st.longLen ≤ tail)
      (hgood : Good plan (countNull nulls i st) rows (tail - st.longLen) s')
      (hstored : StoredAt s'.payload plan (tail - st.longLen) c rows st) :
      CellEnds plan nulls rows tail i c st s (.ok .written) s'
  | full (hfit : tail < plan.poolBase + st.longLen) (hle : st.longLen ≤ tail) :
      CellEnds plan nulls rows tail i c st s (.ok .full) s
  | error {s' : PageRowEncoder} {e : RowEncodeError}
      (hwhy : tail < st.longLen ∨ st = .null ∧ nulls i + 1 = 0x100000000)
      (hgood : Good plan nulls rows tail s') :
      CellEnds plan nulls rows tail i c st s (.error (.error e)) s'

section Cells

variable {row n : ℕ}

lemma valueBits_subset : c.valueBits row ⊆ c.cellBits row := fun _ hp => Or.inr hp

section

variable (hg : Good plan nulls rows tail s) (h : plan.Valid specs)
  (hc : plan.columns[i]? = some c) (hrow : row < plan.maxRows)

include hg h hc hrow

/-- `writeNull`. The null count is written last, and can overflow. -/
lemma ends_writeNull (hn : c.nullable = true) :
    ∃ r s', Ends (writeNull i row { c.desc with nullCount := nulls i }) s r s' ∧
      SameOff (c.cellBits row ∪ plan.descBits) s.payload s'.payload ∧
      (r = .ok () ∧ Good plan (countNull nulls i .null) rows tail s' ∧
          StoredAt s'.payload plan tail c row .null ∨
        (∃ e, r = .error (.error e)) ∧ nulls i + 1 = 0x100000000 ∧
          Good plan nulls rows tail s') := by
  have hcell := LayoutPlan.cellBits_subset_rowBits row hc
  obtain ⟨s₁, hends₁, hwrote₁, hbit₁⟩ := ends_writeValidity hg h hc hrow (n := nulls i) false
  have hg₁ := hg.wrote h hrow (hwrote₁.mono hcell)
  obtain ⟨s₂, hends₂, hwrote₂⟩ := ends_clearValue hg₁ h hc hrow (n := nulls i)
  have hg₂ := hg₁.wrote h hrow (hwrote₂.mono (valueBits_subset.trans hcell))
  have hsame := hwrote₁.same.trans (hwrote₂.same.mono valueBits_subset)
  have hbit₂ : bitAt s₂.payload (c.validityBit row) = some false := by
    rw [hwrote₂.same.bit _ (h.validityBit_notMem hc hrow hrow)]
    exact hbit₁ hn
  have hrefuse : refuse (ColumnDesc.isNullable { c.desc with nullCount := nulls i } = false)
      (Halt.error (RowEncodeError.nullInNonNullableColumn i)) = .ok () :=
    refuse_of_not (Bool.eq_false_iff.not.mpr (not_not.mpr hn))
  have hlt := hg.tables.nulls_lt i
  by_cases hover : nulls i + 1 < 0x100000000
  · obtain ⟨s₃, hends₃, hwrote₃, hg₃⟩ := hg₂.ends_writeDesc h hc hover
    refine ⟨.ok (), s₃, ?_, (hsame.mono Set.subset_union_left).trans
      (hwrote₃.same.mono Set.subset_union_right), Or.inl ⟨rfl, hg₃, ?_⟩⟩
    · have hsum : (checkedAdd (nulls i) 1).mapError layoutError = .ok (nulls i + 1) := by
        rw [checkedAdd_eq_ok.mpr ⟨hover, rfl⟩, mapError_ok]
      exact Ends.result hrefuse (Ends.bind hends₁ (Ends.bind hends₂ (Ends.result hsum hends₃)))
    · refine ⟨trivial, fun _ => ?_, nofun, nofun, nofun⟩
      rw [hwrote₃.same.bit]
      · exact hbit₂
      · intro hp
        have := h.descBits_lt hp
        have := h.validityBit_front hc hrow
        omega
  · refine ⟨.error (layoutError .sizeOverflow), s₂, ?_, hsame.mono Set.subset_union_left,
      Or.inr ⟨⟨_, rfl⟩, by omega, hg₂⟩⟩
    have hsum : (checkedAdd (nulls i) 1).mapError layoutError =
        .error (layoutError .sizeOverflow) := by
      rw [checkedAdd, checkedU32, if_neg hover, mapError_error]
    exact Ends.result hrefuse (Ends.bind hends₁ (Ends.bind hends₂ (Ends.result_error hsum)))

/-- The two writes of a fixed-width value. -/
lemma ends_fixed {bytes : List UInt8} (hfits : (ArrowLayout.Stored.fixed bytes).Fits c.typeTag) :
    ∃ s₁ s', Ends (writeValidity row { c.desc with nullCount := n } true) s (.ok ()) s₁ ∧
      Ends (writeFixedBytes row { c.desc with nullCount := n } bytes) s₁ (.ok ()) s' ∧
      Wrote (c.cellBits row) s s' ∧ StoredAt s'.payload plan tail c row (.fixed bytes) := by
  have hcell := LayoutPlan.cellBits_subset_rowBits row hc
  obtain ⟨s₁, hends₁, hwrote₁, hbit₁⟩ := ends_writeValidity hg h hc hrow (n := n) true
  obtain ⟨s₂, hends₂, hwrote₂, hslice⟩ :=
    ends_writeFixedBytes (hg.wrote h hrow (hwrote₁.mono hcell)) h hc hrow (n := n) hfits.1 hfits.2
  refine ⟨s₁, s₂, hends₁, hends₂, hwrote₁.trans (hwrote₂.mono valueBits_subset),
    hfits, fun hn => ?_, nofun, ?_, nofun⟩
  · rw [hwrote₂.same.bit _ (h.validityBit_notMem hc hrow hrow)]
    exact hbit₁ hn
  · intro _ heq
    obtain rfl := ArrowLayout.Stored.fixed.inj heq
    exact hslice

lemma ends_writeBool (ht : c.typeTag = .boolean) (v : Bool) :
    ∃ s', Ends (writeBool row { c.desc with nullCount := n } v) s (.ok ()) s' ∧
      Wrote (c.cellBits row) s s' ∧ StoredAt s'.payload plan tail c row (.bool v) := by
  have hcell := LayoutPlan.cellBits_subset_rowBits row hc
  obtain ⟨s₁, hends₁, hwrote₁, hbit₁⟩ := ends_writeValidity hg h hc hrow (n := n) true
  obtain ⟨s₂, hends₂, hwrote₂, hvalue⟩ :=
    ends_writeBoolValue (hg.wrote h hrow (hwrote₁.mono hcell)) h hc hrow ht (n := n) v
  refine ⟨s₂, Ends.bind hends₁ hends₂, hwrote₁.trans (hwrote₂.mono valueBits_subset),
    ht, fun hn => ?_, ?_, nofun, nofun⟩
  · rw [hwrote₂.same.bit _ (h.validityBit_notMem hc hrow hrow)]
    exact hbit₁ hn
  · intro _ heq
    obtain rfl := ArrowLayout.Stored.bool.inj heq
    exact hvalue

/-- The two writes of a view. -/
lemma ends_viewSlot (hview : c.typeTag.isView = true)
    {v : ByteView} (hlen : v.toBytes.length = ByteView.size) :
    ∃ s₁ s', Ends (writeValidity row { c.desc with nullCount := n } true) s (.ok ()) s₁ ∧
      Ends (writeViewSlot row { c.desc with nullCount := n } v) s₁ (.ok ()) s' ∧
      s₁.header = s.header ∧ Wrote (c.cellBits row) s s' ∧
      (c.nullable = true → bitAt s'.payload (c.validityBit row) = some true) ∧
      slice s'.payload (c.valuesOff + row * ByteView.size) ByteView.size = some v.toBytes := by
  have hcell := LayoutPlan.cellBits_subset_rowBits row hc
  obtain ⟨s₁, hends₁, hwrote₁, hbit₁⟩ := ends_writeValidity hg h hc hrow (n := n) true
  have hw : c.typeTag.valuesRowWidth = some v.toBytes.length := by
    rw [hlen]
    exact TypeTag.valuesRowWidth_of_isView hview
  obtain ⟨s₂, hends₂, hwrote₂, hslice⟩ :=
    ends_writeSlot (hg.wrote h hrow (hwrote₁.mono hcell)) h hc hrow hw
  rw [hlen] at hends₂ hslice
  refine ⟨s₁, s₂, hends₁, hends₂, hwrote₁.header, hwrote₁.trans (hwrote₂.mono valueBits_subset),
    fun hn => ?_, hslice⟩
  rw [hwrote₂.same.bit _ (h.validityBit_notMem hc hrow hrow)]
  exact hbit₁ hn

end

/-- `tailAlloc`, by where the cursor would end. -/
lemma ends_tailAlloc (hg : Good plan nulls rows tail s) {len : ℕ} (hlen : len ≠ 0) :
    (tail < len ∧ Ends (tailAlloc len) s (.error (layoutError .sizeOverflow)) s) ∨
      (len ≤ tail ∧ tail < plan.poolBase + len ∧ Ends (tailAlloc len) s (.ok none) s) ∨
      (plan.poolBase + len ≤ tail ∧ Ends (tailAlloc len) s (.ok (some (tail - len)))
        { s with header := { s.header with tailCursor := tail - len } }) := by
  have hcursor : s.header.tailCursor = tail := by rw [hg.header]
  have hpool : s.header.poolBase = plan.poolBase := by
    rw [hg.header]
    rfl
  by_cases hover : tail < len
  · refine Or.inl ⟨hover, Ends.bind (ends_get s) ?_⟩
    rw [if_neg hlen, hcursor]
    refine Ends.result_error ?_
    rw [checkedSub, if_neg (not_le.mpr hover), mapError_error]
  · have hnext : (checkedSub tail len .sizeOverflow).mapError layoutError = .ok (tail - len) := by
      rw [checkedSub, if_pos (not_lt.mp hover), mapError_ok]
    by_cases hroom : plan.poolBase + len ≤ tail
    · refine Or.inr (Or.inr ⟨hroom, Ends.bind (ends_get s) ?_⟩)
      rw [if_neg hlen, hcursor]
      refine Ends.result hnext ?_
      rw [hpool, if_neg (by omega)]
      exact Ends.bind (ends_set s _) (ends_pure _ _)
    · refine Or.inr (Or.inl ⟨not_lt.mp hover, not_le.mp hroom, Ends.bind (ends_get s) ?_⟩)
      rw [if_neg hlen, hcursor]
      refine Ends.result hnext ?_
      rw [hpool, if_pos (by omega)]
      exact ends_pure _ s

/-- The write of a long value that fits in the tail. -/
lemma ends_longView (hg : Good plan nulls rows tail s) (h : plan.Valid specs)
    (hsize : plan.blockSize < 0x80000000) (hc : plan.columns[i]? = some c)
    (hrow : rows < plan.maxRows) (hview : c.typeTag.isView = true) {bytes : List UInt8}
    (hlong : viewInlineLen < bytes.length) (hroom : plan.poolBase + bytes.length ≤ tail)
    (halloc : Ends (tailAlloc bytes.length) s (.ok (some (tail - bytes.length)))
      { s with header := { s.header with tailCursor := tail - bytes.length } }) :
    ∃ s', Ends (writeView i rows { c.desc with nullCount := n } bytes) s (.ok .written) s' ∧
      SameOff (touched plan tail c rows) s.payload s'.payload ∧
      Good plan nulls rows (tail - bytes.length) s' ∧
      StoredAt s'.payload plan (tail - bytes.length) c rows (.bytes bytes) := by
  have htail := hg.tail_le
  have hlength := hg.tables.length
  have hfit : tail - bytes.length + bytes.length ≤ s.payload.length := by omega
  -- the bytes go to the end of the free part of the tail
  have hfree : SameOff (plan.freeBits tail) s.payload
      (splice s.payload (tail - bytes.length) bytes) :=
    (sameOff_splice hfit).mono (Set.Ico_subset_Ico (by omega) (by omega))
  have hg₁ : Good plan nulls rows (tail - bytes.length)
      ⟨splice s.payload (tail - bytes.length) bytes,
        { s.header with tailCursor := tail - bytes.length }, s.colCount⟩ :=
    hg.move h hrow (hfree.mono Set.subset_union_right) (by rw [hg.header]) rfl hg.rows_le
      (by omega) (by omega)
  obtain ⟨v, hv⟩ := ByteView.newOutline_of_lt (tail - bytes.length - plan.poolBase) hlong
    (by omega) (by omega)
  obtain ⟨hbytes, -⟩ := ByteView.newOutline_spec hv
  obtain ⟨s₂, s₃, hends₂, hends₃, hheader, hwrote, hbit, hslot⟩ :=
    ends_viewSlot hg₁ h hc hrow hview (n := n) hbytes
  have hpool : s₂.header.poolBase = plan.poolBase := by
    rw [hheader, hg.header]
    rfl
  have hdata : slice s₃.payload (tail - bytes.length) bytes.length = some bytes := by
    rw [hwrote.same.slice]
    · exact slice_splice_self hfit
    · intro p hlow _ hp
      have := (h.cellBits_front hc hrow hp).2
      omega
  refine ⟨s₃, ?_, (hfree.mono Set.subset_union_right).trans
    (hwrote.same.mono (Set.subset_union_left.trans Set.subset_union_left)),
    hg₁.wrote h hrow (hwrote.mono (LayoutPlan.cellBits_subset_rowBits _ hc)),
    hview, fun hn => ?_, nofun, nofun, ?_⟩
  · have hlen : (checkedU32 bytes.length).mapError layoutError = .ok bytes.length := by
      rw [checkedU32_eq_ok.mpr ⟨by omega, rfl⟩, mapError_ok]
    have hnew : (ByteView.newOutline bytes (tail - bytes.length - s₂.header.poolBase)).mapError
        layoutError = .ok v := by
      rw [hpool, hv, mapError_ok]
    refine Ends.result (refuse_of_not (by omega)) ?_
    rw [if_neg (by omega)]
    exact Ends.result hlen (Ends.bind halloc (Ends.bind (ends_writeTail hfit) (Ends.bind hends₂
      (Ends.bind (ends_get s₂) (Ends.result hnew (Ends.bind hends₃ (ends_pure _ s₃)))))))
  · rw [hbit hn]
    rfl
  · intro _ heq
    obtain rfl := ArrowLayout.Stored.bytes.inj heq
    refine ⟨v, hslot, ?_⟩
    have hadd : plan.poolBase + (tail - bytes.length - plan.poolBase) = tail - bytes.length := by
      omega
    rw [ViewAt, if_neg (by omega)]
    exact ⟨_, hv, by omega, by omega, by rw [hadd]; exact hdata⟩

lemma ends_writeView (hg : Good plan nulls rows tail s) (h : plan.Valid specs)
    (hsize : plan.blockSize < 0x80000000) (hc : plan.columns[i]? = some c)
    (hrow : rows < plan.maxRows) (hview : c.typeTag.isView = true) (bytes : List UInt8) :
    ∃ r s', Ends (writeView i rows { c.desc with nullCount := n } bytes) s r s' ∧
      SameOff (touched plan tail c rows) s.payload s'.payload ∧
      CellEnds plan nulls rows tail i c (.bytes bytes) s r s' := by
  have htail := hg.tail_le
  by_cases hin : bytes.length ≤ viewInlineLen
  · -- a short value is in its slot
    have hzero : (ArrowLayout.Stored.bytes bytes).longLen = 0 := if_pos hin
    have hlt : bytes.length ≤ 0x7FFFFFFF := hin.trans (by decide)
    obtain ⟨v, hv⟩ := ByteView.newInline_of_le hin
    obtain ⟨hbytes, -⟩ := ByteView.newInline_spec hv
    obtain ⟨s₁, s₂, hends₁, hends₂, -, hwrote, hbit, hslot⟩ :=
      ends_viewSlot hg h hc hrow hview (n := n) hbytes
    refine ⟨_, s₂, ?_, hwrote.same.mono (Set.subset_union_left.trans Set.subset_union_left),
      .written ?_ ?_ ⟨hview, fun hn => ?_, nofun, nofun, ?_⟩⟩
    · have hnew : (ByteView.newInline bytes).mapError layoutError = .ok v := by
        rw [hv, mapError_ok]
      refine Ends.result (refuse_of_not (by omega)) ?_
      rw [if_pos hin]
      exact Ends.bind hends₁ (Ends.result hnew (Ends.bind hends₂ (ends_pure _ s₂)))
    · rw [hzero]
      exact hg.pool_le
    · rw [hzero]
      exact hg.wrote h hrow (hwrote.mono (LayoutPlan.cellBits_subset_rowBits _ hc))
    · rw [hbit hn]
      rfl
    · intro _ heq
      obtain rfl := ArrowLayout.Stored.bytes.inj heq
      refine ⟨v, hslot, ?_⟩
      rw [ViewAt, if_pos hin]
      exact hv
  · have hlong : (ArrowLayout.Stored.bytes bytes).longLen = bytes.length := if_neg hin
    by_cases hbig : 0x7FFFFFFF < bytes.length
    · refine ⟨.error (.error (.rowValueTooLarge i bytes.length)), s,
        Ends.result_error (refuse_of_pos hbig), SameOff.refl _ _, .error (Or.inl ?_) hg⟩
      rw [hlong]
      omega
    · have hlen : (checkedU32 bytes.length).mapError layoutError = .ok bytes.length := by
        rw [checkedU32_eq_ok.mpr ⟨by omega, rfl⟩, mapError_ok]
      have hne : bytes.length ≠ 0 := by omega
      rcases ends_tailAlloc hg hne with ⟨hover, hends⟩ | ⟨hle, hfull, hends⟩ | ⟨hroom, hends⟩
      · refine ⟨.error (.error (.layout .sizeOverflow)), s, ?_, SameOff.refl _ _,
          .error (Or.inl ?_) hg⟩
        · refine Ends.result (refuse_of_not hbig) ?_
          rw [if_neg hin]
          exact Ends.result hlen (Ends.bind_error hends)
        · rw [hlong]
          exact hover
      · refine ⟨_, s, ?_, SameOff.refl _ _, .full ?_ ?_⟩
        · refine Ends.result (refuse_of_not hbig) ?_
          rw [if_neg hin]
          exact Ends.result hlen (Ends.bind hends (ends_pure _ s))
        · rw [hlong]
          exact hfull
        · rw [hlong]
          exact hle
      · obtain ⟨s', hwritten, hsame, hgood, hstored⟩ :=
          ends_longView hg h hsize hc hrow hview (not_le.mp hin) hroom hends
        rw [← hlong] at hroom hgood hstored
        exact ⟨_, s', hwritten, hsame, .written hroom hgood hstored⟩

/-- A value that takes no part of the tail is written. -/
lemma CellEnds.of_stored (hg : Good plan nulls rows tail s) (h : plan.Valid specs)
    (hc : plan.columns[i]? = some c) (hrow : rows < plan.maxRows) {st : ArrowLayout.Stored}
    (hnull : st ≠ .null) (hzero : st.longLen = 0) (hwrote : Wrote (c.cellBits rows) s s')
    (hstored : StoredAt s'.payload plan tail c rows st) :
    SameOff (touched plan tail c rows) s.payload s'.payload ∧
      CellEnds plan nulls rows tail i c st s (.ok .written) s' := by
  refine ⟨hwrote.same.mono (Set.subset_union_left.trans Set.subset_union_left), .written ?_ ?_ ?_⟩
  · rw [hzero]
    exact hg.pool_le
  · rw [hzero, countNull_of_ne nulls i hnull]
    exact hg.wrote h hrow (hwrote.mono (LayoutPlan.cellBits_subset_rowBits _ hc))
  · rw [hzero]
    exact hstored

/-- **Writing a cell of a type-correct row.** -/
lemma writeCell_spec (hg : Good plan nulls rows tail s) (h : plan.Valid specs)
    (hsize : plan.blockSize < 0x80000000) (hc : plan.columns[i]? = some c)
    (hrow : rows < plan.maxRows) {cell : CellRef} {st : ArrowLayout.Stored}
    (hst : storedAs c.typeTag c.nullable cell = some st) :
    ∃ r s', Ends (writeCell i rows { c.desc with nullCount := nulls i } cell) s r s' ∧
      SameOff (touched plan tail c rows) s.payload s'.payload ∧
      CellEnds plan nulls rows tail i c st s r s' := by
  have htag : (TypeTag.fromRaw c.typeTag.toRaw).mapError layoutError = .ok c.typeTag := by
    rw [TypeTag.fromRaw_toRaw, mapError_ok]
  have htyped := typed_of_storedAs hst
  have hfits := htyped.fits
  rw [writeCell]
  cases htyped with
  | null hn =>
    obtain ⟨r, s', hends, hsame, hcases⟩ := ends_writeNull hg h hc hrow hn
    rw [if_pos rfl]
    rcases hcases with ⟨rfl, hgood, hstored⟩ | ⟨⟨e, rfl⟩, hover, hgood⟩
    · exact ⟨_, s', Ends.bind hends (ends_pure _ s'), hsame.mono Set.subset_union_left,
        .written hg.pool_le hgood hstored⟩
    · exact ⟨_, s', Ends.bind_error hends, hsame.mono Set.subset_union_left,
        .error (Or.inr ⟨rfl, hover⟩) hgood⟩
  | primitive hne hprim =>
    obtain ⟨s₁, s₂, hends₁, hends₂, hwrote, hstored⟩ := ends_fixed hg h hc hrow hfits
    rw [if_neg hne]
    refine ⟨_, s₂, Ends.result htag ?_,
      CellEnds.of_stored hg h hc hrow ArrowLayout.Stored.noConfusion rfl hwrote hstored⟩
    rw [hprim]
    exact Ends.bind hends₁ (Ends.bind hends₂ (ends_pure _ s₂))
  | @bool v ht =>
    obtain ⟨s', hends, hwrote, hstored⟩ := ends_writeBool hg h hc hrow ht v
    rw [if_neg nofun]
    refine ⟨_, s', Ends.result htag ?_,
      CellEnds.of_stored hg h hc hrow ArrowLayout.Stored.noConfusion rfl hwrote hstored⟩
    rw [ht]
    exact Ends.bind hends (ends_pure _ s')
  | @uuid bytes ht hlen =>
    obtain ⟨s₁, s₂, hends₁, hends₂, hwrote, hstored⟩ := ends_fixed hg h hc hrow hfits
    rw [if_neg nofun]
    refine ⟨_, s₂, Ends.result htag ?_,
      CellEnds.of_stored hg h hc hrow ArrowLayout.Stored.noConfusion rfl hwrote hstored⟩
    rw [ht]
    exact Ends.result (refuse_of_not (not_not.mpr hlen))
      (Ends.bind hends₁ (Ends.bind hends₂ (ends_pure _ s₂)))
  | @utf8 bytes ht =>
    obtain ⟨r, s', hends, hsame, hcell⟩ := ends_writeView hg h hsize hc hrow hfits bytes
    rw [if_neg nofun]
    refine ⟨r, s', Ends.result htag ?_, hsame, hcell⟩
    rw [ht]
    exact hends
  | @binary bytes ht =>
    obtain ⟨r, s', hends, hsame, hcell⟩ := ends_writeView hg h hsize hc hrow hfits bytes
    rw [if_neg nofun]
    refine ⟨r, s', Ends.result htag ?_, hsame, hcell⟩
    rw [ht]
    exact hends

end Cells

end PageRowEncoder

end PgFusion.RowEncoder

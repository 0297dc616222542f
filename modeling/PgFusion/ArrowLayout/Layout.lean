import PgFusion.ArrowLayout.Block

/-!
What the validator of a block checks: exactly the blocks with `HeaderOk` and `LaidOut` are accepted.
-/

namespace PgFusion.ArrowLayout

open Bytes Fallible

/-! ### Machine arithmetic -/

@[simp] lemma checkedU32_eq_ok {n m : ℕ} :
    checkedU32 n = .ok m ↔ n < 0x100000000 ∧ n = m := by
  rw [checkedU32]
  split_ifs with h
  · simp [h]
  · simp [h]

@[simp] lemma checkedAdd_eq_ok {a b m : ℕ} :
    checkedAdd a b = .ok m ↔ a + b < 0x100000000 ∧ a + b = m := checkedU32_eq_ok

@[simp] lemma checkedMul_eq_ok {a b m : ℕ} :
    checkedMul a b = .ok m ↔ a * b < 0x100000000 ∧ a * b = m := checkedU32_eq_ok

@[simp] lemma checkedSub_eq_ok {a b m : ℕ} {e : LayoutError} :
    checkedSub a b e = .ok m ↔ b ≤ a ∧ a - b = m := by
  rw [checkedSub]
  split_ifs with h
  · simp [h]
  · simp [h]

/-- The mask of the alignment clears the low bits. -/
lemma and_alignMask {v : ℕ} (h : v < 0x100000000) : v &&& (0xFFFFFFFF - 15) = v / 16 * 16 := by
  have hmask : (0xFFFFFFFF : ℕ) - 15 = (2 ^ 28 - 1) * 2 ^ 4 := by norm_num
  have hshift : v / 16 * 16 = v / 2 ^ 4 * 2 ^ 4 := by norm_num
  refine Nat.eq_of_testBit_eq fun i => ?_
  rw [hmask, hshift, Nat.testBit_and, Nat.testBit_mul_two_pow, Nat.testBit_mul_two_pow,
    Nat.testBit_two_pow_sub_one, Nat.testBit_div_two_pow]
  by_cases hlow : 4 ≤ i
  · have hsub : i - 4 + 4 = i := Nat.sub_add_cancel hlow
    rw [hsub]
    by_cases hhigh : i - 4 < 28
    · simp [hlow, hhigh]
    · have hzero : v.testBit i = false := by
        refine Nat.testBit_lt_two_pow (lt_of_lt_of_le h ?_)
        calc (0x100000000 : ℕ) = 2 ^ 32 := by norm_num
          _ ≤ 2 ^ i := Nat.pow_le_pow_right (by norm_num) (by omega)
      simp [hzero]
  · simp [hlow]

/-- Rounding up to the alignment of the buffers. -/
@[simp] lemma alignUpU32_eq_ok {v m : ℕ} :
    alignUpU32 v bufferAlignment = .ok m ↔ v + 15 < 0x100000000 ∧ (v + 15) / 16 * 16 = m := by
  have hpow : ¬ (bufferAlignment = 0 ∨ isPowerOfTwo bufferAlignment = false) := by decide
  rw [alignUpU32, if_neg hpow]
  simp only [bind_eq_ok, checkedAdd_eq_ok, pure_eq_ok, bufferAlignment, Nat.reduceSub]
  constructor
  · rintro ⟨_, ⟨hlt, rfl⟩, rfl⟩
    exact ⟨hlt, (and_alignMask hlt).symm⟩
  · rintro ⟨hlt, rfl⟩
    exact ⟨_, ⟨hlt, rfl⟩, and_alignMask hlt⟩

/-- Where the front region starts. -/
lemma frontBaseFor_eq {n : ℕ} (h : n < 0x10000) :
    frontBaseFor n = .ok ((n * 20 + 59) / 16 * 16 - 4) := by
  have hbias : ¬ bufferAlignment ≤ bufferAlignmentBias := by decide
  rw [frontBaseFor, bind_eq_ok]
  refine ⟨BlockHeader.size + n * ColumnDesc.size, ?_, ?_⟩
  · rw [checkedU32_eq_ok, BlockHeader.size, ColumnDesc.size]
    omega
  rw [alignUpU32WithBias, if_neg hbias, bind_eq_ok]
  have hdelta : bufferAlignment - bufferAlignmentBias = 4 := rfl
  rw [hdelta, BlockHeader.size, ColumnDesc.size]
  refine ⟨n * 20 + 44, by rw [checkedAdd_eq_ok]; omega, ?_⟩
  rw [bind_eq_ok]
  refine ⟨(n * 20 + 59) / 16 * 16, by rw [alignUpU32_eq_ok]; omega, ?_⟩
  rw [checkedSub_eq_ok]
  omega

/-! ### Lengths of the regions -/

namespace TypeTag

/-- The bytes that the values of `rows` rows take. -/
def usedLen (t : TypeTag) (rows : ℕ) : ℕ :=
  match t.valuesRowWidth with
  | none => bitmapBytes rows
  | some width => rows * width

/-- A values buffer has the bytes that its rows take, rounded up. -/
lemma valuesReservedLen_eq_ok {t : TypeTag} {maxRows m : ℕ} :
    t.valuesReservedLen maxRows = .ok m ↔
      t.usedLen maxRows + 15 < 0x100000000 ∧ (t.usedLen maxRows + 15) / 16 * 16 = m := by
  have hmul : ∀ width, alignedMul maxRows width = .ok m ↔
      maxRows * width + 15 < 0x100000000 ∧ (maxRows * width + 15) / 16 * 16 = m := by
    intro width
    simp only [alignedMul, bind_eq_ok, checkedMul_eq_ok, alignUpU32_eq_ok]
    constructor
    · rintro ⟨_, ⟨-, rfl⟩, hlen⟩
      exact hlen
    · rintro ⟨hlt, hlen⟩
      exact ⟨_, ⟨by omega, rfl⟩, hlt, hlen⟩
  cases t <;> first | exact hmul _ | exact alignUpU32_eq_ok

lemma fromRaw_toRaw (t : TypeTag) : fromRaw t.toRaw = .ok t := by
  cases t <;> rfl

end TypeTag

/-- A bit of a row is inside the bitmap. -/
lemma row_div_lt_bitmapBytes {row rows : ℕ} (h : row < rows) : row / 8 < bitmapBytes rows := by
  rw [bitmapBytes]
  omega

/-- The regions of a column: its validity bitmap and its values. -/
def ColumnLayout.regions (c : ColumnLayout) : List (ℕ × ℕ) :=
  [(c.validityOff, c.validityLen), (c.valuesOff, c.valuesLen)]

/-- The lengths of the regions are those for `maxRows` rows, and the flags agree with
the type. -/
structure ColumnLayout.Sized (c : ColumnLayout) (maxRows : ℕ) : Prop where
  view : flagsContain c.flags flagView = c.typeTag.isView
  validity : bitmapBytes maxRows + 15 < 0x100000000 ∧
    (bitmapBytes maxRows + 15) / 16 * 16 = c.validityLen
  values : c.typeTag.usedLen maxRows + 15 < 0x100000000 ∧
    (c.typeTag.usedLen maxRows + 15) / 16 * 16 = c.valuesLen

namespace ColumnLayout.Sized

variable {c : ColumnLayout} {maxRows : ℕ}

lemma le_validityLen (h : c.Sized maxRows) : bitmapBytes maxRows ≤ c.validityLen := by
  have := h.validity.2
  omega

lemma le_valuesLen (h : c.Sized maxRows) : c.typeTag.usedLen maxRows ≤ c.valuesLen := by
  have := h.values.2
  omega

lemma dvd (h : c.Sized maxRows) : ∀ r ∈ c.regions, 16 ∣ r.2 := by
  intro r hr
  simp only [regions, List.mem_cons, List.not_mem_nil, or_false] at hr
  rcases hr with rfl | rfl
  · exact ⟨_, h.validity.2.symm.trans (Nat.mul_comm _ _)⟩
  · exact ⟨_, h.values.2.symm.trans (Nat.mul_comm _ _)⟩

/-- The slot of a row is inside the values buffer. -/
lemma slot_le (h : c.Sized maxRows) {row width : ℕ} (hrow : row < maxRows)
    (hwidth : c.typeTag.valuesRowWidth = some width) : row * width + width ≤ c.valuesLen := by
  refine le_trans ?_ h.le_valuesLen
  rw [TypeTag.usedLen, hwidth]
  calc row * width + width = (row + 1) * width := by ring
    _ ≤ maxRows * width := Nat.mul_le_mul_right width hrow

/-- The bit of a row is inside the values buffer of a boolean column. -/
lemma bit_lt (h : c.Sized maxRows) {row : ℕ} (hrow : row < maxRows)
    (hwidth : c.typeTag.valuesRowWidth = none) : row / 8 < c.valuesLen := by
  refine lt_of_lt_of_le (row_div_lt_bitmapBytes hrow) (le_trans ?_ h.le_valuesLen)
  rw [TypeTag.usedLen, hwidth]

end ColumnLayout.Sized

/-- The layout that a descriptor stands for. -/
lemma columnLayoutFromDesc_eq_ok {index maxRows : ℕ} {d : ColumnDesc} {c : ColumnLayout} :
    columnLayoutFromDesc index maxRows d = .ok c ↔
      TypeTag.fromRaw d.typeTag = .ok c.typeTag ∧ d.flags = c.flags ∧
        d.validityOff = c.validityOff ∧ d.valuesOff = c.valuesOff ∧ c.Sized maxRows := by
  simp only [columnLayoutFromDesc, bind_eq_ok, refuse_eq_ok, pure_eq_ok, alignUpU32_eq_ok,
    TypeTag.valuesReservedLen_eq_ok, ne_eq, not_not]
  constructor
  · rintro ⟨t, ht, -, hview, vl, hvl, xl, hxl, rfl⟩
    exact ⟨ht, rfl, rfl, rfl, hview, hvl, hxl⟩
  · rintro ⟨ht, hflags, hvalidity, hvalues, hview, hvl, hxl⟩
    refine ⟨c.typeTag, ht, (), by rw [hflags]; exact hview, _, hvl, _, hxl, ?_⟩
    rw [hflags, hvalidity, hvalues]

/-! ### Structs -/

lemma BlockHeader.length_toBytes (h : BlockHeader) : h.toBytes.length = BlockHeader.size := by
  rw [toBytes, length_packFields]
  rfl

lemma ColumnDesc.length_toBytes (d : ColumnDesc) : d.toBytes.length = ColumnDesc.size := by
  rw [toBytes, length_packFields]
  rfl

/-- The fields of a header are in the range of their types. -/
def BlockHeader.Fits (h : BlockHeader) : Prop := ∀ f ∈ h.fields, f.2 < 256 ^ f.1

/-- The fields of a descriptor are in the range of their types. -/
def ColumnDesc.Fits (d : ColumnDesc) : Prop := ∀ f ∈ d.fields, f.2 < 256 ^ f.1

variable {h : BlockHeader}

lemma BlockHeader.ofBytes_toBytes (hf : h.Fits) : ofBytes h.toBytes = h := by
  have hread : unpackFields widths h.toBytes = h.fields.map Prod.snd := unpackFields_packFields hf
  rw [ofBytes, hread]
  rfl

lemma ColumnDesc.ofBytes_toBytes {d : ColumnDesc} (hf : d.Fits) : ofBytes d.toBytes = d := by
  have hread : unpackFields widths d.toBytes = d.fields.map Prod.snd := unpackFields_packFields hf
  rw [ofBytes, hread]
  rfl

/-- A header that is read is in the range of its types. -/
lemma BlockHeader.fits_ofBytes (b : List UInt8) : (ofBytes b).Fits := by
  simp only [Fits, fields, ofBytes, unpackFields, widths, List.forall_mem_cons]
  refine ⟨?_, ?_, ?_, ?_, ?_, ?_, ?_, ?_, ?_, ?_, ?_, ?_,
    fun f hf => absurd hf List.not_mem_nil⟩ <;>
    exact ofLe_take_lt _ _

/-- The bounds of the fields of a header that are used below. -/
lemma BlockHeader.Fits.bounds (hf : h.Fits) :
    h.colCount < 0x10000 ∧ h.poolBase < 0x100000000 ∧ h.blockSize < 0x100000000 := by
  refine ⟨hf (2, h.colCount) ?_, hf (4, h.poolBase) ?_, hf (4, h.blockSize) ?_⟩ <;> simp [fields]

variable {block : List UInt8}

lemma readStruct_eq_ok {bytes : List UInt8} {off size : ℕ} :
    readStruct block off size = .ok bytes ↔ slice block off size = some bytes := by
  rw [readStruct]
  cases slice block off size with
  | none => simp
  | some b => simp

lemma blockRange_eq_ok {bytes : List UInt8} {off len : ℕ} :
    blockRange block off len = .ok bytes ↔ slice block off len = some bytes := by
  rw [blockRange]
  cases slice block off len with
  | none => simp
  | some b => simp

lemma writeStruct_of_le {value : List UInt8} {off : ℕ} (h : off + value.length ≤ block.length) :
    writeStruct block off value = .ok (splice block off value) := by
  rw [writeStruct, if_pos h]

/-! ### What the validator checks -/

/-- What the validator checks of the header of a slice of `len` bytes. -/
structure HeaderOk (h : BlockHeader) (len : ℕ) : Prop where
  magic : h.magic = blockMagic
  version : h.version = blockVersion
  rows : h.rowCount ≤ h.maxRows
  front : frontBaseFor h.colCount = .ok h.frontBase
  frontPool : h.frontBase ≤ h.poolBase
  poolTail : h.poolBase ≤ h.tailCursor
  tailSize : h.tailCursor ≤ h.blockSize
  sizeLen : h.blockSize ≤ len
  descs : descOffset h.colCount ≤ len
  frontMod : h.frontBase % bufferAlignment = bufferAlignmentBias
  poolMod : h.poolBase % bufferAlignment = bufferAlignmentBias

lemma validateBlockPrefix_eq_ok {u : Unit} :
    validateBlockPrefix block h h.colCount = .ok u ↔ HeaderOk h block.length := by
  simp only [validateBlockPrefix, validateHeader, bind_eq_ok, refuse_eq_ok, not_lt, not_or, ne_eq,
    not_not]
  constructor
  · rintro ⟨-, hsize, -, hdescs, -, hmagic, -, hversion, -, hrows, -, -, _, hfront, -, rfl, -,
      ⟨hfp, hpt, hts⟩, hfm, hpm⟩
    exact ⟨hmagic, hversion, hrows, hfront, hfp, hpt, hts, hsize, hdescs, hfm, hpm⟩
  · intro h
    exact ⟨(), h.sizeLen, (), h.descs, (), h.magic, (), h.version, (), h.rows, (), trivial,
      _, h.front, (), rfl, (), ⟨h.frontPool, h.poolTail, h.tailSize⟩, h.frontMod, h.poolMod⟩

/-- The descriptor at `index` stands for the layout `c`. -/
def DescAt (block : List UInt8) (h : BlockHeader) (index : ℕ) (c : ColumnLayout) : Prop :=
  ∃ bytes, slice block (descOffset index) ColumnDesc.size = some bytes ∧
    columnLayoutFromDesc index h.maxRows (ColumnDesc.ofBytes bytes) = .ok c ∧
    (ColumnDesc.ofBytes bytes).reserved0 = 0

/-- What one round of the loop over the descriptors checks. -/
lemma validateDesc_eq_ok {cursor index e : ℕ} :
    validateDesc block h cursor index = .ok e ↔
      ∃ c, DescAt block h index c ∧ Consecutive cursor c.regions e ∧ e < 0x100000000 := by
  simp only [validateDesc, bind_eq_ok, refuse_eq_ok, pure_eq_ok, readStruct_eq_ok, checkedAdd_eq_ok,
    ne_eq, not_not]
  constructor
  · rintro ⟨bytes, hread, c, hc, -, hvalidity, _, ⟨-, rfl⟩, -, hvalues, _, ⟨hlt, rfl⟩, -, hres, rfl⟩
    obtain ⟨-, -, hvo, hxo, -⟩ := columnLayoutFromDesc_eq_ok.mp hc
    exact ⟨c, ⟨bytes, hread, hc, hres⟩, ⟨hvo.symm.trans hvalidity, hxo.symm.trans hvalues, rfl⟩,
      hlt⟩
  · rintro ⟨c, ⟨bytes, hread, hc, hres⟩, ⟨hvo', hxo', hend⟩, hlt⟩
    obtain ⟨-, -, hvo, hxo, -⟩ := columnLayoutFromDesc_eq_ok.mp hc
    replace hend : cursor + c.validityLen + c.valuesLen = e := hend
    exact ⟨bytes, hread, c, hc, (), hvo.trans hvo', _, ⟨by omega, rfl⟩, (), hxo.trans hxo', _,
      ⟨by omega, rfl⟩, (), hres, hend⟩

/-- The descriptors of a block stand for `cols`, whose regions follow each other from
the front base to the pool base. -/
structure LaidOut (block : List UInt8) (h : BlockHeader) (cols : List ColumnLayout) : Prop where
  count : cols.length = h.colCount
  descs : ∀ i c, cols[i]? = some c → DescAt block h i c
  walk : Consecutive h.frontBase (cols.flatMap ColumnLayout.regions) h.poolBase

/-- The loop over the descriptors, as far as it succeeds. -/
lemma laidOut_of_foldlM {n c e : ℕ}
    (hrun : (List.range n).foldlM (validateDesc block h) c = .ok e) :
    ∃ cols : List ColumnLayout, cols.length = n ∧
      (∀ i c, cols[i]? = some c → DescAt block h i c) ∧
      Consecutive c (cols.flatMap ColumnLayout.regions) e := by
  induction n generalizing e with
  | zero => exact ⟨[], rfl, fun i c hc => by simp at hc, Except.ok.inj hrun⟩
  | succ n ih =>
    rw [List.range_succ, List.foldlM_append, bind_eq_ok] at hrun
    obtain ⟨d, hd, hlast⟩ := hrun
    rw [List.foldlM_cons, bind_eq_ok] at hlast
    obtain ⟨e', hstep, hnil⟩ := hlast
    obtain rfl : e' = e := Except.ok.inj hnil
    obtain ⟨cols, hlen, hdescs, hwalk⟩ := ih hd
    obtain ⟨col, hat, hcol, -⟩ := validateDesc_eq_ok.mp hstep
    refine ⟨cols ++ [col], by rw [List.length_append, hlen]; rfl, fun i c hc => ?_, ?_⟩
    · by_cases hi : i < n
      · rw [List.getElem?_append_left (by omega)] at hc
        exact hdescs i c hc
      · rw [List.getElem?_append_right (by omega)] at hc
        obtain ⟨hi0, rfl⟩ := List.getElem?_eq_some_iff.mp hc
        rw [List.length_singleton] at hi0
        obtain rfl : i = n := by omega
        simpa [hlen] using hat
    · rw [List.flatMap_append]
      exact hwalk.append (by simpa using hcol)

/-- The loop over the descriptors succeeds when they are laid out. -/
lemma foldlM_of_laidOut {c e : ℕ} {cols : List ColumnLayout}
    (hdescs : ∀ i c, cols[i]? = some c → DescAt block h i c)
    (hwalk : Consecutive c (cols.flatMap ColumnLayout.regions) e) (he : e < 0x100000000) :
    (List.range cols.length).foldlM (validateDesc block h) c = .ok e := by
  induction cols using List.reverseRecOn generalizing e with
  | nil => exact congrArg Except.ok hwalk
  | append_singleton cols col ih =>
    rw [List.flatMap_append] at hwalk
    obtain ⟨d, hfirst, hcol⟩ := hwalk.split
    replace hcol : Consecutive d col.regions e := by simpa using hcol
    rw [List.length_append, List.length_singleton, List.range_succ, List.foldlM_append, bind_eq_ok]
    have hrest : ∀ i c, cols[i]? = some c → DescAt block h i c := fun i c hc =>
      hdescs i c (by rw [List.getElem?_append_left (List.getElem?_eq_some_iff.mp hc).1]; exact hc)
    refine ⟨d, ih hrest hfirst (lt_of_le_of_lt hcol.le he), ?_⟩
    rw [List.foldlM_cons, bind_eq_ok]
    refine ⟨e, validateDesc_eq_ok.mpr ⟨col, hdescs _ _ ?_, hcol, he⟩, rfl⟩
    rw [List.getElem?_append_right le_rfl, Nat.sub_self]
    rfl

/-- The validator accepts exactly the blocks with a header and descriptors in order. -/
lemma openBlock_eq_ok {r : BlockRef} :
    BlockRef.openBlock block = .ok r ↔
      r.block = block ∧
        (∃ bytes, slice block 0 BlockHeader.size = some bytes ∧ BlockHeader.ofBytes bytes =
          r.header) ∧
        HeaderOk r.header block.length ∧ ∃ cols, LaidOut block r.header cols := by
  simp only [BlockRef.openBlock, validateDescLayoutInBlock, bind_eq_ok, refuse_eq_ok, pure_eq_ok,
    readStruct_eq_ok, validateBlockPrefix_eq_ok, ne_eq, not_not]
  constructor
  · rintro ⟨bytes, hread, -, hheader, -, ⟨_, hrun, hend⟩, rfl⟩
    obtain ⟨cols, hlen, hdescs, hwalk⟩ := laidOut_of_foldlM hrun
    exact ⟨rfl, ⟨bytes, hread, rfl⟩, hheader, cols, hlen, hdescs, hend ▸ hwalk⟩
  · rintro ⟨rfl, ⟨bytes, hread, hr⟩, hheader, cols, hlaid⟩
    have hpool : r.header.poolBase < 0x100000000 := by
      rw [← hr]
      exact (BlockHeader.fits_ofBytes bytes).bounds.2.1
    refine ⟨bytes, hread, (), by rw [hr]; exact hheader, (), ⟨r.header.poolBase, ?_, ?_⟩, ?_⟩
    · rw [hr, ← hlaid.count]
      exact foldlM_of_laidOut hlaid.descs hlaid.walk hpool
    · rw [hr]
    · rw [hr]

end PgFusion.ArrowLayout

import PgFusion.ArrowLayout.Plan

/-!
What the cells of a block hold, and that the readers of an accepted block return it.
* `readsBack_of_storedAt`: the readers return what a cell holds;
* `contains_of_rowsAt`: a block with the header of its plan is accepted, with its rows.
-/

namespace PgFusion.ArrowLayout

open Bytes Fallible

/-! ### Values of cells -/

/-- The value of a cell: null, a boolean, the bytes of a fixed-width value, or the bytes
of a text or a binary value. -/
inductive Stored where
  | null
  | bool (value : Bool)
  | fixed (bytes : List UInt8)
  | bytes (data : List UInt8)
deriving DecidableEq

namespace Stored

/-- The bytes of the tail that a value takes. -/
def longLen : Stored → ℕ
  | bytes data => if data.length ≤ viewInlineLen then 0 else data.length
  | _ => 0

/-- The value is one for a column of the given type. -/
def Fits (t : TypeTag) : Stored → Prop
  | null => True
  | bool _ => t = .boolean
  | fixed value => t.isView = false ∧ t.valuesRowWidth = some value.length
  | bytes _ => t.isView = true

end Stored

lemma TypeTag.valuesRowWidth_of_isView {t : TypeTag} (h : t.isView = true) :
    t.valuesRowWidth = some ByteView.size := by
  cases t <;> first | rfl | cases h

/-! ### Bits of cells -/

namespace ColumnLayout

variable (c : ColumnLayout) (row : ℕ)

/-- `ColumnFlags::is_nullable`. -/
def nullable : Bool := flagsContain c.flags flagNullable

/-- The bit of the validity bitmap. -/
def validityBit : ℕ := 8 * c.validityOff + row

/-- The bits of the value. -/
def valueBits : Set ℕ :=
  match c.typeTag.valuesRowWidth with
  | none => {8 * c.valuesOff + row}
  | some width =>
    Set.Ico (8 * (c.valuesOff + row * width)) (8 * (c.valuesOff + row * width + width))

/-- The bits of a cell. The bitmap of a column that is not nullable is never written. -/
def cellBits : Set ℕ := {p | c.nullable = true ∧ p = c.validityBit row ∨ p ∈ c.valueBits row}

variable {c row}

lemma validityBit_mem (h : c.nullable = true) : c.validityBit row ∈ c.cellBits row :=
  Or.inl ⟨h, rfl⟩

/-- The bits of a value are in the region of the values. -/
lemma valueBits_within {maxRows : ℕ} (h : c.Sized maxRows) (hrow : row < maxRows) {p : ℕ}
    (hp : p ∈ c.valueBits row) : 8 * c.valuesOff ≤ p ∧ p < 8 * (c.valuesOff + c.valuesLen) := by
  rw [valueBits] at hp
  cases hw : c.typeTag.valuesRowWidth with
  | none =>
    rw [hw] at hp
    have hp' : p = 8 * c.valuesOff + row := hp
    have := h.bit_lt hrow hw
    omega
  | some width =>
    rw [hw] at hp
    obtain ⟨hlow, hhigh⟩ := Set.mem_Ico.mp hp
    have := h.slot_le hrow hw
    omega

lemma validityBit_within {maxRows : ℕ} (h : c.Sized maxRows) (hrow : row < maxRows) :
    8 * c.validityOff ≤ c.validityBit row ∧
      c.validityBit row < 8 * (c.validityOff + c.validityLen) := by
  have := lt_of_lt_of_le (row_div_lt_bitmapBytes hrow) h.le_validityLen
  rw [validityBit]
  omega

/-- The values of two rows have no bit in common. -/
lemma valueBits_disjoint {row' p : ℕ} (hne : row ≠ row') (hp : p ∈ c.valueBits row) :
    p ∉ c.valueBits row' := by
  intro hp'
  rw [valueBits] at hp hp'
  cases hw : c.typeTag.valuesRowWidth with
  | none =>
    rw [hw] at hp hp'
    have h : p = 8 * c.valuesOff + row := hp
    have h' : p = 8 * c.valuesOff + row' := hp'
    omega
  | some width =>
    rw [hw] at hp hp'
    obtain ⟨hlow, hhigh⟩ := Set.mem_Ico.mp hp
    obtain ⟨hlow', hhigh'⟩ := Set.mem_Ico.mp hp'
    -- the slot of the earlier row ends before that of the later one
    have hslot : ∀ {a b : ℕ}, a < b → a * width + width ≤ b * width := fun {a b} hab =>
      calc a * width + width = (a + 1) * width := by ring
        _ ≤ b * width := Nat.mul_le_mul_right width hab
    rcases Nat.lt_or_gt_of_ne hne with hlt | hgt
    · have := hslot hlt
      omega
    · have := hslot hgt
      omega

/-- The bits of a cell are in one of the regions of its column. -/
lemma cellBits_within {maxRows : ℕ} (h : c.Sized maxRows) (hrow : row < maxRows) {p : ℕ}
    (hp : p ∈ c.cellBits row) : ∃ g ∈ c.regions, 8 * g.1 ≤ p ∧ p < 8 * (g.1 + g.2) := by
  rcases hp with ⟨-, rfl⟩ | hp
  · exact ⟨(c.validityOff, c.validityLen), by simp [regions], validityBit_within h hrow⟩
  · exact ⟨(c.valuesOff, c.valuesLen), by simp [regions], valueBits_within h hrow hp⟩

end ColumnLayout

namespace LayoutPlan

variable {plan : LayoutPlan} {specs : List ColumnSpec} {i j row row' p : ℕ} {c c' : ColumnLayout}

/-- The bits of the cells of a row. -/
def rowBits (plan : LayoutPlan) (row : ℕ) : Set ℕ :=
  {p | ∃ (i : ℕ) (c : ColumnLayout), plan.columns[i]? = some c ∧ p ∈ c.cellBits row}

/-- The bits of the descriptors. -/
def descBits (plan : LayoutPlan) : Set ℕ :=
  Set.Ico (8 * BlockHeader.size) (8 * descOffset plan.columns.length)

lemma cellBits_subset_rowBits (row : ℕ) (hc : plan.columns[i]? = some c) :
    c.cellBits row ⊆ plan.rowBits row :=
  fun _ hp => ⟨i, c, hc, hp⟩

/-- The column of a spec. -/
lemma Valid.column (h : plan.Valid specs) {spec : ColumnSpec} (hspec : specs[i]? = some spec) :
    ∃ c, plan.columns[i]? = some c ∧ c.typeTag = spec.typeTag ∧ c.nullable = spec.nullable := by
  have hi := congrArg (fun l => l[i]?) h.specs
  simp only [List.getElem?_map, hspec, Option.map_some] at hi
  obtain ⟨c, hc, heq⟩ := Option.map_eq_some_iff.mp hi
  rw [Prod.mk.injEq] at heq
  refine ⟨c, hc, heq.1, ?_⟩
  rw [ColumnLayout.nullable, heq.2, spec.flagsContain_nullable]

section

variable (h : plan.Valid specs) (hc : plan.columns[i]? = some c)

include h hc

/-- The regions of an earlier column end before those of a later one start. -/
lemma Valid.regions_lt
    (hc' : plan.columns[j]? = some c') (hij : i < j) {g g' : ℕ × ℕ} (hg : g ∈ c.regions)
    (hg' : g' ∈ c'.regions) : g.1 + g.2 ≤ g'.1 := by
  have hpair := (List.pairwise_flatMap.mp h.walk.pairwise).2
  obtain ⟨hi, rfl⟩ := List.getElem?_eq_some_iff.mp hc
  obtain ⟨hj, rfl⟩ := List.getElem?_eq_some_iff.mp hc'
  exact List.pairwise_iff_getElem.mp hpair i j hi hj hij g hg g' hg'

/-- The validity bitmap of a column ends where its values start. -/
lemma Valid.valuesOff :
    c.validityOff + c.validityLen ≤ c.valuesOff := by
  have hpair := (List.pairwise_flatMap.mp h.walk.pairwise).1 c (List.mem_of_getElem? hc)
  exact (List.pairwise_cons.mp hpair).1 (c.valuesOff, c.valuesLen) (by simp)

/-- The cells of a block have no bit in common. -/
lemma Valid.cellBits_disjoint
    (hc' : plan.columns[j]? = some c') (hrow : row < plan.maxRows) (hrow' : row' < plan.maxRows)
    (hne : i ≠ j ∨ row ≠ row') (hp : p ∈ c.cellBits row) : p ∉ c'.cellBits row' := by
  intro hp'
  have hs := h.sized c (List.mem_of_getElem? hc)
  have hs' := h.sized c' (List.mem_of_getElem? hc')
  by_cases hij : i = j
  · subst hij
    obtain rfl : c = c' := Option.some.inj (hc.symm.trans hc')
    have hrows : row ≠ row' := hne.resolve_left (not_not.mpr rfl)
    have hoff := h.valuesOff hc
    rcases hp with ⟨-, rfl⟩ | hp <;> rcases hp' with ⟨-, heq⟩ | hp'
    · rw [ColumnLayout.validityBit, ColumnLayout.validityBit] at heq
      omega
    · have := ColumnLayout.valueBits_within hs hrow' hp'
      have := ColumnLayout.validityBit_within hs hrow
      omega
    · have := ColumnLayout.valueBits_within hs hrow hp
      have := ColumnLayout.validityBit_within hs hrow'
      omega
    · exact ColumnLayout.valueBits_disjoint hrows hp hp'
  · obtain ⟨g, hg, hlow, hhigh⟩ := ColumnLayout.cellBits_within hs hrow hp
    obtain ⟨g', hg', hlow', hhigh'⟩ := ColumnLayout.cellBits_within hs' hrow' hp'
    rcases Nat.lt_or_gt_of_ne hij with hlt | hgt
    · have := h.regions_lt hc hc' hlt hg hg'
      omega
    · have := h.regions_lt hc' hc hgt hg' hg
      omega

/-- The bits of a cell are between the descriptors and the pool. -/
lemma Valid.cellBits_front (hrow : row < plan.maxRows) (hp : p ∈ c.cellBits row) :
    8 * plan.frontBase ≤ p ∧ p < 8 * plan.poolBase := by
  obtain ⟨g, hg, hlow, hhigh⟩ :=
    ColumnLayout.cellBits_within (h.sized c (List.mem_of_getElem? hc)) hrow hp
  have := h.region hc hg
  omega

end

/-- The bits of the tail below `tail`, which are free. -/
def freeBits (plan : LayoutPlan) (tail : ℕ) : Set ℕ := Set.Ico (8 * plan.poolBase) (8 * tail)

lemma freeBits_mono {tail tail' : ℕ} (h : tail' ≤ tail) :
    plan.freeBits tail' ⊆ plan.freeBits tail :=
  Set.Ico_subset_Ico_right (Nat.mul_le_mul_left 8 h)

section

variable (h : plan.Valid specs) (hc : plan.columns[i]? = some c)

include h hc

/-- The validity bit of a cell is not one of its value. -/
lemma Valid.validityBit_notMem (hrow : row < plan.maxRows) (hrow' : row' < plan.maxRows) :
    c.validityBit row ∉ c.valueBits row' := by
  intro hp
  have hs := h.sized c (List.mem_of_getElem? hc)
  have := h.valuesOff hc
  have := ColumnLayout.valueBits_within hs hrow' hp
  have := ColumnLayout.validityBit_within hs hrow
  omega

/-- The bitmap of a column that is not nullable has no bit of a cell. -/
lemma Valid.validityBit_notMem_rowBits
    (hn : c.nullable = false) (hrow : row < plan.maxRows) (hrow' : row' < plan.maxRows) :
    c.validityBit row ∉ plan.rowBits row' := by
  rintro ⟨j, c', hc', hp⟩
  have hs := h.sized c (List.mem_of_getElem? hc)
  have hs' := h.sized c' (List.mem_of_getElem? hc')
  by_cases hij : i = j
  · subst hij
    obtain rfl : c = c' := Option.some.inj (hc.symm.trans hc')
    rcases hp with ⟨hn', -⟩ | hp
    · rw [hn] at hn'
      cases hn'
    · exact h.validityBit_notMem hc hrow hrow' hp
  · have hmem : (c.validityOff, c.validityLen) ∈ c.regions := by simp [ColumnLayout.regions]
    have hin := ColumnLayout.validityBit_within hs hrow
    obtain ⟨g', hg', hlow', hhigh'⟩ := ColumnLayout.cellBits_within hs' hrow' hp
    rcases Nat.lt_or_gt_of_ne hij with hlt | hgt
    · have := h.regions_lt hc hc' hlt hmem hg'
      omega
    · have := h.regions_lt hc' hc hgt hg' hmem
      omega

/-- The validity bitmaps are between the descriptors and the pool. -/
lemma Valid.validityBit_front (hrow : row < plan.maxRows) :
    8 * plan.frontBase ≤ c.validityBit row ∧ c.validityBit row < 8 * plan.poolBase := by
  have hin := ColumnLayout.validityBit_within (h.sized c (List.mem_of_getElem? hc)) hrow
  have := h.region hc (g := (c.validityOff, c.validityLen)) (by simp [ColumnLayout.regions])
  omega

end

/-- The descriptors end before the first cell. -/
lemma Valid.descBits_lt (h : plan.Valid specs) (hp : p ∈ plan.descBits) :
    p < 8 * plan.frontBase := by
  have := h.descOffset_le
  have := (Set.mem_Ico.mp hp).2
  omega

end LayoutPlan

/-! ### Descriptors that a block holds -/

/-- A block holds the descriptors of its plan, with the given null counts, and the bitmaps
of the columns that are not nullable are zero. -/
structure Tables (plan : LayoutPlan) (nulls : ℕ → ℕ) (b : List UInt8) : Prop where
  length : plan.blockSize ≤ b.length
  nulls_lt : ∀ i, nulls i < 0x100000000
  desc : ∀ (i : ℕ) (c : ColumnLayout), plan.columns[i]? = some c →
    slice b (descOffset i) ColumnDesc.size =
      some ({ c.desc with nullCount := nulls i } : ColumnDesc).toBytes
  zero : ∀ (i : ℕ) (c : ColumnLayout) (row : ℕ), plan.columns[i]? = some c → c.nullable = false →
    row < plan.maxRows → bitAt b (c.validityBit row) = some false

namespace Tables

variable {plan : LayoutPlan} {specs : List ColumnSpec} {nulls : ℕ → ℕ} {b b' : List UInt8}
  {i row tail : ℕ} {c : ColumnLayout}

/-- Where a descriptor is. -/
lemma descOffset_bounds {n : ℕ} (hi : i < n) :
    BlockHeader.size ≤ descOffset i ∧ descOffset i + ColumnDesc.size ≤ descOffset n := by
  rw [descOffset, descOffset]
  have : (i + 1) * ColumnDesc.size ≤ n * ColumnDesc.size := Nat.mul_le_mul_right _ hi
  rw [Nat.add_mul, Nat.one_mul] at this
  omega

/-- A write to the cells of a row and to the free part of the tail changes no descriptor. -/
lemma same (ht : Tables plan nulls b) (h : plan.Valid specs) (hrow : row < plan.maxRows)
    (hsame : SameOff (plan.rowBits row ∪ plan.freeBits tail) b b') : Tables plan nulls b' where
  length := by
    rw [hsame.length]
    exact ht.length
  nulls_lt := ht.nulls_lt
  desc := by
    intro i c hc
    have hi : i < plan.columns.length := (List.getElem?_eq_some_iff.mp hc).1
    have hin := descOffset_bounds hi
    have hfront := h.descOffset_le
    have hpool := h.walk.le
    rw [hsame.slice]
    · exact ht.desc i c hc
    rintro p - hhigh (⟨j, c', hc', hp⟩ | hp)
    · have := h.cellBits_front hc' hrow hp
      omega
    · have := hp.1
      omega
  zero := by
    intro i c row' hc hn hrow'
    rw [hsame.bit]
    · exact ht.zero i c row' hc hn hrow'
    rintro (hp | hp)
    · exact h.validityBit_notMem_rowBits hc hn hrow' hrow hp
    · have := h.validityBit_front hc hrow'
      have := hp.1
      omega

/-- Writing a null count. -/
lemma setNullCount (ht : Tables plan nulls b) (h : plan.Valid specs)
    (hc : plan.columns[i]? = some c) {n : ℕ} (hn : n < 0x100000000) :
    descOffset i + ColumnDesc.size ≤ b.length ∧
      Tables plan (Function.update nulls i n)
        (splice b (descOffset i) ({ c.desc with nullCount := n } : ColumnDesc).toBytes) ∧
      SameOff plan.descBits b
        (splice b (descOffset i) ({ c.desc with nullCount := n } : ColumnDesc).toBytes) := by
  have hi : i < plan.columns.length := (List.getElem?_eq_some_iff.mp hc).1
  have hin := descOffset_bounds hi
  have hfront := h.descOffset_le
  have hpool := h.walk.le.trans (h.pool.trans ht.length)
  have hlen : descOffset i + ColumnDesc.size ≤ b.length := by omega
  have hfit : descOffset i + ({ c.desc with nullCount := n } : ColumnDesc).toBytes.length ≤
      b.length := by
    rw [ColumnDesc.length_toBytes]
    exact hlen
  have hsame := sameOff_splice hfit
  rw [ColumnDesc.length_toBytes] at hsame
  refine ⟨hlen, ⟨?_, ?_, ?_, ?_⟩, hsame.mono (Set.Ico_subset_Ico ?_ ?_)⟩
  · rw [hsame.length]
    exact ht.length
  · intro j
    rw [Function.update_apply]
    split_ifs
    · exact hn
    · exact ht.nulls_lt j
  · intro j c' hc'
    by_cases hij : j = i
    · subst hij
      obtain rfl : c = c' := Option.some.inj (hc.symm.trans hc')
      have hself := slice_splice_self hfit
      rw [ColumnDesc.length_toBytes] at hself
      rw [hself, Function.update_self]
    · rw [Function.update_of_ne hij, hsame.slice]
      · exact ht.desc j c' hc'
      -- another descriptor ends before this one or starts after it
      rintro p hlow hhigh ⟨hlow', hhigh'⟩
      rcases Nat.lt_or_gt_of_ne hij with hlt | hgt
      · have := (descOffset_bounds hlt).2
        omega
      · have := (descOffset_bounds hgt).2
        omega
  · intro j c' row hc' hn' hrow
    rw [hsame.bit]
    · exact ht.zero j c' row hc' hn' hrow
    · rintro ⟨-, hhigh⟩
      have := h.validityBit_front hc' hrow
      omega
  · exact Nat.mul_le_mul_left 8 hin.1
  · exact Nat.mul_le_mul_left 8 hin.2

end Tables

/-! ### Cells that a block holds -/

/-- The value `data` is that of the view `v`: in its slot, or in the tail from `tail` on. -/
def ViewAt (b : List UInt8) (plan : LayoutPlan) (tail : ℕ) (v : ByteView) (data : List UInt8) :
    Prop :=
  if data.length ≤ viewInlineLen then ByteView.newInline data = .ok v
  else ∃ off, ByteView.newOutline data off = .ok v ∧ tail ≤ plan.poolBase + off ∧
    plan.poolBase + off + data.length ≤ plan.blockSize ∧
    slice b (plan.poolBase + off) data.length = some data

/-- A block holds the value `st` at row `row` of a column; the tail is in use from `tail`
on. -/
structure StoredAt (b : List UInt8) (plan : LayoutPlan) (tail : ℕ) (c : ColumnLayout) (row : ℕ)
    (st : Stored) : Prop where
  fits : st.Fits c.typeTag
  validity : c.nullable = true → bitAt b (c.validityBit row) = some (decide (st ≠ .null))
  bool : ∀ v, st = .bool v → bitAt b (8 * c.valuesOff + row) = some v
  fixed : ∀ bytes, st = .fixed bytes →
    slice b (c.valuesOff + row * bytes.length) bytes.length = some bytes
  view : ∀ data, st = .bytes data → ∃ v : ByteView,
    slice b (c.valuesOff + row * ByteView.size) ByteView.size = some v.toBytes ∧
      ViewAt b plan tail v data

namespace StoredAt

variable {b b' : List UInt8} {plan : LayoutPlan} {tail tail' row : ℕ} {c : ColumnLayout}
    {st : Stored}
  {S : Set ℕ}

lemma mono (h : StoredAt b plan tail c row st) (hle : tail' ≤ tail) :
    StoredAt b plan tail' c row st where
  fits := h.fits
  validity := h.validity
  bool := h.bool
  fixed := h.fixed
  view := by
    intro data hdata
    obtain ⟨v, hv, hat⟩ := h.view data hdata
    refine ⟨v, hv, ?_⟩
    rw [ViewAt] at hat ⊢
    split_ifs at hat ⊢ with hin
    · exact hat
    · obtain ⟨off, hnew, hlow, hrest⟩ := hat
      exact ⟨off, hnew, hle.trans hlow, hrest⟩

/-- A write that changes neither the bits of the cell nor the tail in use leaves the cell
as it is. -/
lemma same (h : StoredAt b plan tail c row st) (hsame : SameOff S b b')
    (hcell : ∀ p ∈ c.cellBits row, p ∉ S)
    (htail : ∀ p, 8 * tail ≤ p → p < 8 * plan.blockSize → p ∉ S) :
    StoredAt b' plan tail c row st where
  fits := h.fits
  validity := by
    intro hn
    rw [hsame.bit _ (hcell _ (ColumnLayout.validityBit_mem hn))]
    exact h.validity hn
  bool := by
    intro v hv
    have hfits := h.fits
    rw [hv] at hfits
    have hw : c.typeTag.valuesRowWidth = none := by
      rw [show c.typeTag = .boolean from hfits]
      rfl
    rw [hsame.bit _ (hcell _ (Or.inr ?_))]
    · exact h.bool v hv
    · rw [ColumnLayout.valueBits, hw]
      rfl
  fixed := by
    intro bytes hbytes
    have hfits := h.fits
    rw [hbytes] at hfits
    rw [hsame.slice fun p hlow hhigh => hcell p (Or.inr ?_)]
    · exact h.fixed bytes hbytes
    · rw [ColumnLayout.valueBits, hfits.2]
      exact ⟨hlow, hhigh⟩
  view := by
    intro data hdata
    have hfits := h.fits
    rw [hdata] at hfits
    obtain ⟨v, hv, hat⟩ := h.view data hdata
    refine ⟨v, ?_, ?_⟩
    · rw [hsame.slice fun p hlow hhigh => hcell p (Or.inr ?_)]
      · exact hv
      · rw [ColumnLayout.valueBits, TypeTag.valuesRowWidth_of_isView hfits]
        exact ⟨hlow, hhigh⟩
    · rw [ViewAt] at hat ⊢
      split_ifs at hat ⊢ with hin
      · exact hat
      · obtain ⟨off, hnew, hlow, hhigh, hslice⟩ := hat
        refine ⟨off, hnew, hlow, hhigh, ?_⟩
        rw [hsame.slice fun p hp hp' => htail p (by omega) (by omega)]
        exact hslice

end StoredAt

/-! ### Reading cells -/

/-- The bytes of a view of a block: those in its slot, or those that it points to. -/
def BlockRef.viewBytes (r : BlockRef) (v : ByteView) : Except LayoutError (List UInt8) := do
  match ← v.inlineBytes with
  | some bytes => return bytes
  | none =>
    match ← v.offset with
    | none => .error .invalidHeaderBounds
    | some offset => blockRange r.block (r.header.poolBase + offset) (← v.length)

/-- The readers of a block return the value `st` for row `row` of column `i`: the validity
bit, where the column is nullable, and the value. The bitmap of a column that is not
nullable reads as zeros. -/
structure BlockRef.ReadsBack (r : BlockRef) (i row : ℕ) (nullable : Bool) (st : Stored) : Prop where
  validity : r.validity i row = .ok (nullable && decide (st ≠ .null))
  bool : ∀ v, st = .bool v → r.boolValue i row = .ok v
  fixed : ∀ bytes, st = .fixed bytes → r.fixedValue i row = .ok bytes
  view : ∀ data, st = .bytes data → ∃ v, r.view i row = .ok v ∧ r.viewBytes v = .ok data

/-- The bit of a row of a bitmap. -/
lemma bitAt_row {b : List UInt8} {base row : ℕ} {byte : UInt8}
    (h : b[base + row / 8]? = some byte) :
    bitAt b (8 * base + row) = some (bitOf byte (row % 8)) := by
  have hdiv : (8 * base + row) / 8 = base + row / 8 := by omega
  have hmod : (8 * base + row) % 8 = row % 8 := by omega
  rw [bitAt, hdiv, hmod, h, Option.map_some]

namespace ByteView

variable {v : ByteView} {data : List UInt8} {off capacity : ℕ}

/-- A view with a length in range is read back. -/
lemma ofBytes_toBytes {n : ℕ} (hlen : v.len = n) (hn : n < 0x80000000) : ofBytes v.toBytes = v := by
  have hbits : ofI32 v.len = n := by
    rw [hlen, ofI32]
    omega
  have hlen4 : (leBytes 4 n).length = 4 := length_leBytes 4 n
  have hof : ofLe (leBytes 4 n) = n := ofLe_leBytes (by norm_num; omega)
  have hi32 : toI32 n = v.len := by
    rw [toI32, if_pos hn, hlen]
  rw [toBytes, hbits, ofBytes, List.take_left' hlen4, List.drop_left' hlen4, hof, hi32]

lemma newInline_of_le (h : data.length ≤ viewInlineLen) : ∃ v, newInline data = .ok v := by
  have hlen : checkedLen data = .ok data.length := if_pos (lt_of_le_of_lt h (by decide))
  rw [newInline, hlen, ok_bind, refuse_of_not (not_lt.mpr h), ok_bind]
  exact ⟨_, rfl⟩

lemma newOutline_of_lt (off : ℕ) (hlong : viewInlineLen < data.length)
    (hlen : data.length < 0x80000000)
    (hoff : off < 0x80000000) : ∃ v, newOutline data off = .ok v := by
  have hlen : checkedLen data = .ok data.length := if_pos hlen
  rw [newOutline, hlen, ok_bind, refuse_of_not (not_le.mpr hlong), ok_bind,
    refuse_of_not (not_le.mpr hoff), ok_bind]
  exact ⟨_, rfl⟩

/-- An inline view holds its value. -/
lemma newInline_spec (h : newInline data = .ok v) :
    v.toBytes.length = size ∧ ofBytes v.toBytes = v ∧ v.length = .ok data.length ∧
      data.length ≤ viewInlineLen ∧ v.data.take data.length = data := by
  simp only [newInline, checkedLen, bind_eq_ok, refuse_eq_ok, pure_eq_ok, not_lt] at h
  obtain ⟨len, hlen, -, hle, rfl⟩ := h
  have hlt : data.length < 0x80000000 := lt_of_le_of_lt hle (by decide)
  rw [if_pos hlt, Except.ok.injEq] at hlen
  subst hlen
  refine ⟨?_, ofBytes_toBytes rfl hlt, ?_, hle, List.take_left' rfl⟩
  · rw [toBytes, List.length_append, length_leBytes, List.length_append,
      List.length_replicate, size, viewInlineLen]
    rw [viewInlineLen] at hle
    omega
  · rw [length, if_neg (by simp), Int.toNat_natCast]

/-- A view of a long value points to it. -/
lemma newOutline_spec (h : newOutline data off = .ok v) :
    v.toBytes.length = size ∧ ofBytes v.toBytes = v ∧ v.length = .ok data.length ∧
      viewInlineLen < data.length ∧ v.bufferIndex = .ok (some sharedViewBufferIndex) ∧
      v.offset = .ok (some off) := by
  simp only [newOutline, checkedLen, bind_eq_ok, refuse_eq_ok, pure_eq_ok, not_le] at h
  obtain ⟨len, hlen, -, hgt, -, hoff, rfl⟩ := h
  have hlt : data.length < 0x80000000 := by
    by_contra hge
    rw [if_neg hge] at hlen
    cases hlen
  rw [if_pos hlt, Except.ok.injEq] at hlen
  subst hlen
  have hpre : (data.take viewPrefixLen).length = 4 := by
    rw [List.length_take, viewPrefixLen]
    rw [viewInlineLen] at hgt
    omega
  have hlength :
      (⟨data.length, data.take viewPrefixLen ++ leBytes 4 (ofI32 sharedViewBufferIndex) ++
      leBytes 4 off⟩ : ByteView).length = .ok data.length := by
    rw [length, if_neg (by simp), Int.toNat_natCast]
  have hline : (⟨data.length, data.take viewPrefixLen ++ leBytes 4 (ofI32 sharedViewBufferIndex) ++
      leBytes 4 off⟩ : ByteView).isInline = .ok false := by
    rw [isInline, hlength, ok_bind, decide_eq_false (not_le.mpr hgt)]
    rfl
  have hindex : toI32 (ofLe (((data.take viewPrefixLen ++ leBytes 4 (ofI32 sharedViewBufferIndex) ++
      leBytes 4 off).drop 4).take 4)) = sharedViewBufferIndex := by
    rw [List.append_assoc, List.drop_left' hpre, List.take_left' (length_leBytes 4 _)]
    rfl
  have hoffset :
      toI32 (ofLe (((data.take viewPrefixLen ++ leBytes 4 (ofI32 sharedViewBufferIndex) ++
      leBytes 4 off).drop 8).take 4)) = off := by
    have hpre8 : (data.take viewPrefixLen ++ leBytes 4 (ofI32 sharedViewBufferIndex)).length =
      8 := by
      rw [List.length_append, hpre, length_leBytes]
    rw [List.drop_left' hpre8, List.take_of_length_le (by rw [length_leBytes]),
      ofLe_leBytes (by norm_num; omega), toI32, if_pos hoff]
  refine ⟨?_, ofBytes_toBytes rfl hlt, hlength, hgt, ?_, ?_⟩
  · rw [toBytes, List.length_append, length_leBytes, List.length_append, List.length_append, hpre,
      length_leBytes, length_leBytes, size]
  · rw [bufferIndex, hline, ok_bind, if_neg Bool.false_ne_true, hindex]
    rfl
  · rw [offset, hline, ok_bind, if_neg Bool.false_ne_true]
    dsimp only
    rw [hoffset, refuse_of_not (by omega), ok_bind, Int.toNat_natCast]
    rfl

end ByteView

/-- The view of a value that a block holds passes validation and leads to the value. -/
lemma viewBytes_of_viewAt {r : BlockRef} {plan : LayoutPlan} {tail : ℕ} {v : ByteView}
    {data : List UInt8} (hpool : r.header.poolBase = plan.poolBase)
    (hsize : r.header.blockSize = plan.blockSize) (hlt : plan.blockSize < 0x100000000)
    (h : ViewAt r.block plan tail v data) :
    v.toBytes.length = ByteView.size ∧ ByteView.ofBytes v.toBytes = v ∧
      v.validate (r.header.blockSize - r.header.poolBase) = .ok () ∧ r.viewBytes v = .ok data := by
  rw [ViewAt] at h
  split_ifs at h with hin
  · obtain ⟨hbytes, hof, hlength, -, hdata⟩ := ByteView.newInline_spec h
    refine ⟨hbytes, hof, ?_, ?_⟩
    · rw [ByteView.validate, hlength, mapError_ok, ok_bind, if_pos hin]
      rfl
    · simp only [BlockRef.viewBytes, ByteView.inlineBytes, hlength, ok_bind, if_pos hin]
      exact congrArg Except.ok hdata
  · obtain ⟨off, hnew, -, hhigh, hslice⟩ := h
    obtain ⟨hbytes, hof, hlength, -, hindex, hoffset⟩ := ByteView.newOutline_spec hnew
    have hsum : checkedAdd off data.length = .ok (off + data.length) :=
      checkedAdd_eq_ok.mpr ⟨by omega, rfl⟩
    refine ⟨hbytes, hof, ?_, ?_⟩
    · simp only [ByteView.validate, hlength, mapError_ok, ok_bind, if_neg hin, hindex,
        hoffset, hsum, Halt.expect]
      rw [refuse_of_not (not_not.mpr rfl), ok_bind, refuse_of_not (by omega)]
    · have hnone : v.inlineBytes = .ok none := by
        rw [ByteView.inlineBytes, hlength, ok_bind, if_neg hin]
        rfl
      simp only [BlockRef.viewBytes, hnone, ok_bind, hoffset, hlength, hpool]
      exact blockRange_eq_ok.mpr hslice

/-- The readers return what a block holds. -/
lemma readsBack_of_storedAt {r : BlockRef} {plan : LayoutPlan} {tail i row : ℕ} {c : ColumnLayout}
    {st : Stored} (ha : Accepted r plan.columns) (hpool : r.header.poolBase = plan.poolBase)
    (hsize : r.header.blockSize = plan.blockSize) (hc : plan.columns[i]? = some c)
    (hrow : row < r.header.maxRows) (hst : StoredAt r.block plan tail c row st)
    (hzero : c.nullable = false → bitAt r.block (c.validityBit row) = some false) :
    r.ReadsBack i row c.nullable st where
  validity := by
    obtain ⟨-, byte, hbyte, hread⟩ := ha.validity hc hrow
    have hbit := bitAt_row hbyte
    cases hn : c.nullable with
    | true =>
      have := hst.validity hn
      rw [ColumnLayout.validityBit, hbit, Option.some.injEq] at this
      rw [hread, this, Bool.true_and]
    | false =>
      have := hzero hn
      rw [ColumnLayout.validityBit, hbit, Option.some.injEq] at this
      rw [hread, this, Bool.false_and]
  bool := by
    intro v hv
    have hfits := hst.fits
    rw [hv, Stored.Fits] at hfits
    obtain ⟨-, byte, hbyte, hread⟩ := ha.boolValue hc hrow hfits
    have := hst.bool v hv
    rw [bitAt_row hbyte, Option.some.injEq] at this
    rw [hread, this]
  fixed := by
    intro bytes hbytes
    have hfits := hst.fits
    rw [hbytes, Stored.Fits] at hfits
    obtain ⟨bytes', hslice, hread⟩ := ha.fixedValue hc hrow hfits.2 hfits.1
    rw [hst.fixed bytes hbytes, Option.some.injEq] at hslice
    rw [hread, hslice]
  view := by
    intro data hdata
    have hfits := hst.fits
    rw [hdata, Stored.Fits] at hfits
    obtain ⟨bytes, hslice, hread⟩ := ha.view hc hrow hfits
    obtain ⟨v, hv, hat⟩ := hst.view data hdata
    rw [hv, Option.some.injEq] at hslice
    have hlt : plan.blockSize < 0x100000000 := by
      rw [← hsize]
      exact ha.fits.bounds.2.2
    obtain ⟨-, hof, hvalid, hbytes⟩ := viewBytes_of_viewAt hpool hsize hlt hat
    refine ⟨v, ?_, hbytes⟩
    rw [hread, ← hslice, hof, hvalid]
    rfl

/-! ### Blocks of rows -/

/-- The rows of a block, as its readers return them. -/
structure BlockRef.Contains (r : BlockRef) (specs : List ColumnSpec) (rows : List (List Stored)) :
    Prop where
  rowCount : r.header.rowCount = rows.length
  reads : ∀ (k : ℕ) (row : List Stored), rows[k]? = some row → ∀ (i : ℕ) (spec : ColumnSpec)
    (v : Stored), specs[i]? = some spec → row[i]? = some v → r.ReadsBack i k spec.nullable v

/-- The nulls of each column. -/
def nullCounts (rows : List (List Stored)) (i : ℕ) : ℕ :=
  rows.countP fun row => row[i]? = some .null

/-- A block holds rows: the cells of the rows hold their values. -/
def RowsAt (b : List UInt8) (plan : LayoutPlan) (tail : ℕ) (rows : List (List Stored)) : Prop :=
  ∀ (k : ℕ) (row : List Stored), rows[k]? = some row → ∀ (i : ℕ) (c : ColumnLayout) (v : Stored),
    plan.columns[i]? = some c → row[i]? = some v → StoredAt b plan tail c k v

/-- An empty block, as `init_block` makes it. -/
lemma tables_of_initBlock {plan : LayoutPlan} {specs : List ColumnSpec} (h : plan.Valid specs)
    {b : List UInt8} (hlen : plan.blockSize ≤ b.length) (hdescs : ∀ i c, plan.columns[i]? = some c →
      slice b (descOffset i) ColumnDesc.size = some c.desc.toBytes)
    (hzero : ∀ a, descOffset plan.columns.length ≤ a → a < plan.blockSize → b[a]? = some 0) :
    Tables plan (fun _ => 0) b where
  length := hlen
  nulls_lt := fun _ => by norm_num
  desc := hdescs
  zero := by
    intro i c row hc _ hrow
    have hfront := h.descOffset_le
    have hpool := h.pool
    have hin := h.validityBit_front hc hrow
    rw [bitAt, hzero _ (by omega) (by omega), Option.map_some, Option.some.injEq, bitOf_eq_getLsbD
      (Nat.mod_lt _ (by norm_num))]
    exact BitVec.getLsbD_zero

lemma nullCount_of_desc {r : BlockRef} {d : ColumnDesc} {i : ℕ} (hi : i < r.header.colCount)
    (hslice : slice r.block (descOffset i) ColumnDesc.size = some d.toBytes) (hfits : d.Fits) :
    r.nullCount i = .ok d.nullCount := by
  rw [BlockRef.nullCount, BlockRef.desc, refuse_of_not (not_le.mpr hi), ok_bind,
    readStruct_eq_ok.mpr hslice, ok_bind, ColumnDesc.ofBytes_toBytes hfits]
  rfl

/-- A block with the header of its plan is accepted, and its readers return its rows. -/
lemma contains_of_rowsAt {plan : LayoutPlan} {specs : List ColumnSpec} (h : plan.Valid specs)
    (hmax : plan.maxRows < 0x100000000) (hsize : plan.blockSize < 0x100000000) {nulls : ℕ → ℕ}
    {tail : ℕ} {rows : List (List Stored)} {b : List UInt8} (ht : Tables plan nulls b)
    (hrows : rows.length ≤ plan.maxRows) (hpool : plan.poolBase ≤ tail)
    (htail : tail ≤ plan.blockSize)
    (hat : RowsAt b plan tail rows) (hhead : slice b 0 BlockHeader.size =
      some
        ({ plan.blockHeader with rowCount := rows.length, tailCursor := tail } :
          BlockHeader).toBytes) :
    ∃ r, BlockRef.openBlock b = .ok r ∧
      r.header = { plan.blockHeader with rowCount := rows.length, tailCursor := tail } ∧
      r.Contains specs rows ∧ ∀ i < specs.length, r.nullCount i = .ok (nulls i) := by
  have hfits : ({ plan.blockHeader with rowCount := rows.length, tailCursor := tail } :
      BlockHeader).Fits := by
    have hcount := h.count
    have hfront := h.walk.le
    have hle := h.pool
    simp only [BlockHeader.Fits, BlockHeader.fields, LayoutPlan.blockHeader, List.forall_mem_cons,
      blockMagic, blockVersion]
    norm_num
    omega
  obtain ⟨hopen, ha⟩ := accepted_of_holds h ht.length rfl hfits hrows hpool htail ht.nulls_lt hhead
    ht.desc
  refine ⟨_, hopen, rfl, ⟨rfl, fun k row hk i spec v hspec hv => ?_⟩, fun i hi => ?_⟩
  · obtain ⟨hlt, -⟩ := List.getElem?_eq_some_iff.mp hk
    have hrow : k < plan.maxRows := lt_of_lt_of_le hlt hrows
    obtain ⟨c, hc, -, hn⟩ := h.column hspec
    rw [← hn]
    exact readsBack_of_storedAt ha rfl rfl hc hrow (hat k row hk i c v hc hv)
      fun hn => ht.zero i c k hc hn hrow
  · obtain ⟨c, hc, -⟩ := h.column (List.getElem?_eq_getElem hi)
    have hcol : i < plan.columns.length := (List.getElem?_eq_some_iff.mp hc).1
    exact nullCount_of_desc hcol (ht.desc i c hc) (h.desc_fits hsize hc (ht.nulls_lt i))

end PgFusion.ArrowLayout

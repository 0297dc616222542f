import PgFusion.Data.Bits
import PgFusion.Data.Fallible

/-!
Blocks of the `arrow_layout` crate: the structs stored in a page, the planner, the validator and the
readers.

A `u32` or `u16` is a natural number, and what could leave its range is checked where the source
checks it. Sums of `usize` are of numbers below `2 ^ 33` and are not. A slice index outside its
bounds, and an `expect` that fails, is `Halt.panic`; an access through a raw pointer outside the
block is `Halt.wild`.
-/

namespace PgFusion.ArrowLayout

open Bytes Fallible

/-! ### Constants -/

def blockMagic : ℕ := 0x32424150

def blockVersion : ℕ := 1

def bufferAlignment : ℕ := 16

def bufferAlignmentBias : ℕ := 12

def viewInlineLen : ℕ := 12

def viewPrefixLen : ℕ := 4

def sharedViewBufferIndex : ℤ := 0

def uuidWidthBytes : ℕ := 16

/-! ### Errors -/

/-- The type tags of columns. -/
inductive TypeTag where
  | boolean
  | int16
  | int32
  | int64
  | float32
  | float64
  | uuid
  | utf8View
  | binaryView
  | decimal128
  | intervalMonthDayNano
  | date32
  | time64Microsecond
  | timestampMicrosecond
deriving DecidableEq

inductive LayoutError where
  | blockSliceTooSmall (required actual : ℕ)
  | tooManyColumns (actual : ℕ)
  | sizeOverflow
  | layoutDoesNotFit (blockSize required : ℕ)
  | invalidTypeTag (raw : ℕ)
  | inconsistentViewFlag (index : ℕ) (typeTag : TypeTag) (flags : ℕ)
  | invalidMagic (expected actual : ℕ)
  | invalidVersion (expected actual : ℕ)
  | rowCountExceedsMaxRows (rowCount maxRows : ℕ)
  | columnCountMismatch (expected actual : ℕ)
  | frontBaseMismatch (expected actual : ℕ)
  | poolBaseMismatch (expected actual : ℕ)
  | invalidHeaderBounds
  | misalignedFrontRegion (frontBase poolBase alignment : ℕ)
  | columnDescMismatch (index : ℕ)
  | columnIndexOutOfBounds (index colCount : ℕ)
  | invalidAlignment (alignment : ℕ)
  | invalidByteViewLength (len : ℕ)
  | negativeByteViewLength (len : ℤ)
  | inlineValueTooLarge (len inlineCapacity : ℕ)
  | outlineValueTooSmall (len inlineCapacity : ℕ)
  | invalidViewOffsetEncoding (offset : ℕ)
  | negativeViewOffset (offset : ℤ)
  | invalidViewBufferIndex (actual : ℤ)
  | viewOffsetOutOfBounds (offset len poolCapacity : ℕ)
deriving DecidableEq

/-- How a call ends that does not return a value. -/
inductive Halt (ε : Type) where
  | error (e : ε)
  | panic
  | wild
deriving DecidableEq

/-- `expect`, and an index into a slice. -/
def Halt.expect {ε α : Type} : Option α → Except (Halt ε) α
  | some a => .ok a
  | none => .error .panic

/-! ### Machine arithmetic -/

/-- `u32::try_from`. -/
def checkedU32 (n : ℕ) : Except LayoutError ℕ :=
  if n < 0x100000000 then .ok n else .error .sizeOverflow

/-- `u32::checked_add`. -/
def checkedAdd (a b : ℕ) : Except LayoutError ℕ := checkedU32 (a + b)

/-- `u32::checked_mul`. -/
def checkedMul (a b : ℕ) : Except LayoutError ℕ := checkedU32 (a * b)

/-- `u32::checked_sub`, with the error of the caller. -/
def checkedSub (a b : ℕ) (e : LayoutError) : Except LayoutError ℕ :=
  if b ≤ a then .ok (a - b) else .error e

/-- `u32::is_power_of_two`. -/
def isPowerOfTwo (n : ℕ) : Bool := (List.range 32).any fun k => n == 2 ^ k

/-- `align_up_u32`. The complement of the mask is that of a `u32`. -/
def alignUpU32 (value alignment : ℕ) : Except LayoutError ℕ :=
  if alignment = 0 ∨ isPowerOfTwo alignment = false then .error (.invalidAlignment alignment)
  else do
    let mask := alignment - 1
    let v ← checkedAdd value mask
    return v &&& (0xFFFFFFFF - mask)

/-- `align_up_u32_with_bias`. -/
def alignUpU32WithBias (value alignment bias : ℕ) : Except LayoutError ℕ :=
  if alignment ≤ bias then .error (.invalidAlignment alignment)
  else do
    let delta := alignment - bias
    let adjusted ← checkedAdd value delta
    let aligned ← alignUpU32 adjusted alignment
    checkedSub aligned delta .sizeOverflow

/-- `aligned_mul`. -/
def alignedMul (lhs rhs : ℕ) : Except LayoutError ℕ := do
  alignUpU32 (← checkedMul lhs rhs) bufferAlignment

/-- The `i32` with the given bits. -/
def toI32 (n : ℕ) : ℤ := if n < 0x80000000 then n else n - 0x100000000

/-- The bits of an `i32`. -/
def ofI32 (n : ℤ) : ℕ := (n % 0x100000000).toNat

/-! ### Bitmaps -/

/-- `bitmap_bytes`. -/
def bitmapBytes (rowCount : ℕ) : ℕ := (rowCount + 7) / 8

/-- `bitmap_get`. -/
def bitmapGet (bytes : List UInt8) (index : ℕ) : Bool :=
  match bytes[index / 8]? with
  | some byte => bitOf byte (index % 8)
  | none => false

/-! ### Types -/

namespace TypeTag

/-- `TypeTag::from_raw`. -/
def fromRaw : ℕ → Except LayoutError TypeTag
  | 1 => .ok boolean
  | 2 => .ok int16
  | 3 => .ok int32
  | 4 => .ok int64
  | 5 => .ok float32
  | 6 => .ok float64
  | 7 => .ok uuid
  | 8 => .ok utf8View
  | 9 => .ok binaryView
  | 10 => .ok decimal128
  | 11 => .ok intervalMonthDayNano
  | 12 => .ok date32
  | 13 => .ok time64Microsecond
  | 14 => .ok timestampMicrosecond
  | raw => .error (.invalidTypeTag raw)

/-- `TypeTag::to_raw`. -/
def toRaw : TypeTag → ℕ
  | boolean => 1
  | int16 => 2
  | int32 => 3
  | int64 => 4
  | float32 => 5
  | float64 => 6
  | uuid => 7
  | utf8View => 8
  | binaryView => 9
  | decimal128 => 10
  | intervalMonthDayNano => 11
  | date32 => 12
  | time64Microsecond => 13
  | timestampMicrosecond => 14

/-- `TypeTag::is_view`. -/
def isView : TypeTag → Bool
  | utf8View | binaryView => true
  | _ => false

/-- `TypeTag::values_row_width`. -/
def valuesRowWidth : TypeTag → Option ℕ
  | boolean => none
  | int16 => some 2
  | int32 | float32 | date32 => some 4
  | int64 | float64 | time64Microsecond | timestampMicrosecond => some 8
  | uuid | utf8View | binaryView | decimal128 | intervalMonthDayNano => some 16

/-- `TypeTag::values_reserved_len`. -/
def valuesReservedLen (t : TypeTag) (maxRows : ℕ) : Except LayoutError ℕ :=
  match t with
  | boolean => alignUpU32 (bitmapBytes maxRows) bufferAlignment
  | int16 => alignedMul maxRows 2
  | int32 | float32 | date32 => alignedMul maxRows 4
  | int64 | float64 | time64Microsecond | timestampMicrosecond => alignedMul maxRows 8
  | uuid | utf8View | binaryView | decimal128 | intervalMonthDayNano => alignedMul maxRows 16

end TypeTag

/-- `ColumnFlags::NULLABLE`. -/
def flagNullable : ℕ := 1

/-- `ColumnFlags::VIEW`. -/
def flagView : ℕ := 2

/-- `ColumnFlags::contains`. -/
def flagsContain (flags other : ℕ) : Bool := flags &&& other == other

/-- `ColumnSpec`. -/
structure ColumnSpec where
  typeTag : TypeTag
  nullable : Bool
deriving DecidableEq

/-- `ColumnSpec::flags`. -/
def ColumnSpec.flags (spec : ColumnSpec) : ℕ :=
  (if spec.nullable then flagNullable else 0) ||| (if spec.typeTag.isView then flagView else 0)

/-! ### Structs stored in a block -/

/-- `BlockHeader`. -/
structure BlockHeader where
  magic : ℕ
  version : ℕ
  flags : ℕ
  blockSize : ℕ
  maxRows : ℕ
  rowCount : ℕ
  colCount : ℕ
  reserved0 : ℕ
  frontBase : ℕ
  poolBase : ℕ
  tailCursor : ℕ
  reserved1 : ℕ
deriving DecidableEq, Inhabited

namespace BlockHeader

/-- The fields with their widths, in the order in which they are stored. -/
def fields (h : BlockHeader) : List (ℕ × ℕ) :=
  [(4, h.magic), (2, h.version), (2, h.flags), (4, h.blockSize), (4, h.maxRows), (4, h.rowCount),
    (2, h.colCount), (2, h.reserved0), (4, h.frontBase), (4, h.poolBase), (4, h.tailCursor),
    (4, h.reserved1)]

def widths : List ℕ := [4, 2, 2, 4, 4, 4, 2, 2, 4, 4, 4, 4]

/-- `size_of::<BlockHeader>()`. -/
def size : ℕ := 40

def toBytes (h : BlockHeader) : List UInt8 := packFields h.fields

def ofBytes (b : List UInt8) : BlockHeader :=
  match unpackFields widths b with
  | [magic, version, flags, blockSize, maxRows, rowCount, colCount, reserved0, frontBase, poolBase,
      tailCursor, reserved1] =>
      ⟨magic, version, flags, blockSize, maxRows, rowCount, colCount, reserved0, frontBase,
        poolBase, tailCursor, reserved1⟩
  | _ => default

/-- `BlockHeader::shared_pool_capacity`. -/
def sharedPoolCapacity (h : BlockHeader) : Except LayoutError ℕ :=
  checkedSub h.blockSize h.poolBase .invalidHeaderBounds

end BlockHeader

/-- `ColumnDesc`. -/
structure ColumnDesc where
  typeTag : ℕ
  flags : ℕ
  validityOff : ℕ
  valuesOff : ℕ
  nullCount : ℕ
  reserved0 : ℕ
deriving DecidableEq, Inhabited

namespace ColumnDesc

/-- The fields with their widths, in the order in which they are stored. -/
def fields (d : ColumnDesc) : List (ℕ × ℕ) :=
  [(2, d.typeTag), (2, d.flags), (4, d.validityOff), (4, d.valuesOff), (4, d.nullCount),
    (4, d.reserved0)]

def widths : List ℕ := [2, 2, 4, 4, 4, 4]

/-- `size_of::<ColumnDesc>()`. -/
def size : ℕ := 20

def toBytes (d : ColumnDesc) : List UInt8 := packFields d.fields

def ofBytes (b : List UInt8) : ColumnDesc :=
  match unpackFields widths b with
  | [typeTag, flags, validityOff, valuesOff, nullCount, reserved0] =>
    ⟨typeTag, flags, validityOff, valuesOff, nullCount, reserved0⟩
  | _ => default

/-- `ColumnFlags::is_nullable` of the descriptor's flags. -/
def isNullable (d : ColumnDesc) : Bool := flagsContain d.flags flagNullable

end ColumnDesc

/-- `ColumnLayout`. -/
structure ColumnLayout where
  typeTag : TypeTag
  flags : ℕ
  validityOff : ℕ
  valuesOff : ℕ
  validityLen : ℕ
  valuesLen : ℕ
deriving DecidableEq

/-- `ColumnLayout::desc`. -/
def ColumnLayout.desc (c : ColumnLayout) : ColumnDesc :=
  ⟨c.typeTag.toRaw, c.flags, c.validityOff, c.valuesOff, 0, 0⟩

/-! ### Views -/

/-- `ByteView`, of which `data` has `viewInlineLen` bytes. -/
structure ByteView where
  len : ℤ
  data : List UInt8
deriving DecidableEq

namespace ByteView

/-- `size_of::<ByteView>()`. -/
def size : ℕ := 16

def toBytes (v : ByteView) : List UInt8 := leBytes 4 (ofI32 v.len) ++ v.data

def ofBytes (b : List UInt8) : ByteView := ⟨toI32 (ofLe (b.take 4)), b.drop 4⟩

/-- `i32::try_from` of a length. -/
def checkedLen (bytes : List UInt8) : Except LayoutError ℤ :=
  if bytes.length < 0x80000000 then .ok bytes.length
  else .error (.invalidByteViewLength bytes.length)

/-- `ByteView::new_inline`. -/
def newInline (bytes : List UInt8) : Except LayoutError ByteView := do
  let len ← checkedLen bytes
  refuse (viewInlineLen < bytes.length) (.inlineValueTooLarge bytes.length viewInlineLen)
  return ⟨len, bytes ++ List.replicate (viewInlineLen - bytes.length) 0⟩

/-- `ByteView::new_outline`. -/
def newOutline (bytes : List UInt8) (offset : ℕ) : Except LayoutError ByteView := do
  let len ← checkedLen bytes
  refuse (bytes.length ≤ viewInlineLen) (.outlineValueTooSmall bytes.length viewInlineLen)
  refuse (0x80000000 ≤ offset) (.invalidViewOffsetEncoding offset)
  return ⟨len, bytes.take viewPrefixLen ++ leBytes 4 (ofI32 sharedViewBufferIndex) ++
    leBytes 4 offset⟩

/-- `ByteView::len`. -/
def length (v : ByteView) : Except LayoutError ℕ :=
  if v.len < 0 then .error (.negativeByteViewLength v.len) else .ok v.len.toNat

/-- `ByteView::is_inline`. -/
def isInline (v : ByteView) : Except LayoutError Bool := do
  return (← v.length) ≤ viewInlineLen

/-- `ByteView::inline_bytes`. -/
def inlineBytes (v : ByteView) : Except LayoutError (Option (List UInt8)) := do
  let len ← v.length
  if len ≤ viewInlineLen then return some (v.data.take len) else return none

/-- `ByteView::buffer_index`. -/
def bufferIndex (v : ByteView) : Except LayoutError (Option ℤ) := do
  let inline ← v.isInline
  if inline then return none else return some (toI32 (ofLe ((v.data.drop 4).take 4)))

/-- `ByteView::offset`. -/
def offset (v : ByteView) : Except LayoutError (Option ℕ) := do
  let inline ← v.isInline
  if inline then return none
  else do
    let raw := toI32 (ofLe ((v.data.drop 8).take 4))
    refuse (raw < 0) (.negativeViewOffset raw)
    return some raw.toNat

/-- `ByteView::validate`. -/
def validate (v : ByteView) (poolCapacity : ℕ) : Except (Halt LayoutError) Unit := do
  let len ← v.length.mapError .error
  if len ≤ viewInlineLen then return ()
  else do
    let index ← Halt.expect (← v.bufferIndex.mapError .error)
    refuse (index ≠ sharedViewBufferIndex) (.error (.invalidViewBufferIndex index))
    let offset ← Halt.expect (← v.offset.mapError .error)
    let last ← (checkedAdd offset len).mapError .error
    refuse (poolCapacity < last) (.error (.viewOffsetOutOfBounds offset len poolCapacity))

end ByteView

/-! ### Access to the structs -/

/-- `desc_offset`. -/
def descOffset (index : ℕ) : ℕ := BlockHeader.size + index * ColumnDesc.size

/-- `read_struct`: the bytes of a struct. -/
def readStruct (block : List UInt8) (offset size : ℕ) : Except LayoutError (List UInt8) :=
  match slice block offset size with
  | some bytes => .ok bytes
  | none => .error (.blockSliceTooSmall (offset + size) block.length)

/-- `write_struct`. -/
def writeStruct (block : List UInt8) (offset : ℕ) (value : List UInt8) :
    Except LayoutError (List UInt8) :=
  if offset + value.length ≤ block.length then .ok (splice block offset value)
  else .error (.blockSliceTooSmall (offset + value.length) block.length)

/-- `block_range`. -/
def blockRange (block : List UInt8) (offset len : ℕ) : Except LayoutError (List UInt8) :=
  match slice block offset len with
  | some bytes => .ok bytes
  | none => .error .invalidHeaderBounds

/-- `column_layout_from_desc`. -/
def columnLayoutFromDesc (index maxRows : ℕ) (desc : ColumnDesc) :
    Except LayoutError ColumnLayout := do
  let typeTag ← TypeTag.fromRaw desc.typeTag
  refuse (flagsContain desc.flags flagView ≠ typeTag.isView)
    (.inconsistentViewFlag index typeTag desc.flags)
  let validityLen ← alignUpU32 (bitmapBytes maxRows) bufferAlignment
  let valuesLen ← typeTag.valuesReservedLen maxRows
  return ⟨typeTag, desc.flags, desc.validityOff, desc.valuesOff, validityLen, valuesLen⟩

/-! ### The planner -/

/-- Where the front region of a block with `n` columns starts. -/
def frontBaseFor (n : ℕ) : Except LayoutError ℕ := do
  alignUpU32WithBias (← checkedU32 (BlockHeader.size + n * ColumnDesc.size)) bufferAlignment
    bufferAlignmentBias

/-- `LayoutPlan`. -/
structure LayoutPlan where
  blockSize : ℕ
  maxRows : ℕ
  frontBase : ℕ
  poolBase : ℕ
  columns : List ColumnLayout
deriving DecidableEq

namespace LayoutPlan

/-- The loop of `LayoutPlan::new`: the layouts of the columns, and the cursor after
them. -/
def planColumns (maxRows : ℕ) : List ColumnSpec → ℕ → Except LayoutError (List ColumnLayout × ℕ)
  | [], cursor => .ok ([], cursor)
  | spec :: specs, cursor => do
    let validityLen ← alignUpU32 (bitmapBytes maxRows) bufferAlignment
    let valuesLen ← spec.typeTag.valuesReservedLen maxRows
    let valuesOff ← checkedAdd cursor validityLen
    let next ← checkedAdd valuesOff valuesLen
    let (columns, last) ← planColumns maxRows specs next
    return (⟨spec.typeTag, spec.flags, cursor, valuesOff, validityLen, valuesLen⟩ :: columns,
      last)

/-- `LayoutPlan::new`. -/
def new (specs : List ColumnSpec) (maxRows blockSize : ℕ) : Except LayoutError LayoutPlan := do
  refuse (0x10000 ≤ specs.length) (.tooManyColumns specs.length)
  let frontBase ← frontBaseFor specs.length
  let (columns, cursor) ← planColumns maxRows specs frontBase
  refuse (blockSize < cursor) (.layoutDoesNotFit blockSize cursor)
  return ⟨blockSize, maxRows, frontBase, cursor, columns⟩

/-- `LayoutPlan::block_header`. -/
def blockHeader (plan : LayoutPlan) : BlockHeader where
  magic := blockMagic
  version := blockVersion
  flags := 0
  blockSize := plan.blockSize
  maxRows := plan.maxRows
  rowCount := 0
  colCount := plan.columns.length
  reserved0 := 0
  frontBase := plan.frontBase
  poolBase := plan.poolBase
  tailCursor := plan.blockSize
  reserved1 := 0

/-- `LayoutPlan::shared_pool_capacity`. -/
def sharedPoolCapacity (plan : LayoutPlan) : ℕ := plan.blockSize - plan.poolBase

/-- `LayoutPlan::column_layout`. -/
def columnLayout (plan : LayoutPlan) (index : ℕ) : Except LayoutError ColumnLayout :=
  match plan.columns[index]? with
  | some c => .ok c
  | none => .error (.columnIndexOutOfBounds index plan.columns.length)

end LayoutPlan

/-- The loop of `init_block` over the descriptors. -/
def writeDescs : List ColumnLayout → ℕ → List UInt8 → Except LayoutError (List UInt8)
  | [], _, block => .ok block
  | c :: cs, index, block => do
    writeDescs cs (index + 1) (← writeStruct block (descOffset index) c.desc.toBytes)

/-- `init_block`. -/
def initBlock (block : List UInt8) (plan : LayoutPlan) : Except LayoutError (List UInt8) := do
  refuse (block.length < plan.blockSize) (.blockSliceTooSmall plan.blockSize block.length)
  let zeroed := splice block 0 (List.replicate plan.blockSize 0)
  let headed ← writeStruct zeroed 0 plan.blockHeader.toBytes
  writeDescs plan.columns 0 headed

/-! ### The validator -/

/-- `validate_header`. -/
def validateHeader (h : BlockHeader) (descCount : ℕ) : Except LayoutError Unit := do
  refuse (h.magic ≠ blockMagic) (.invalidMagic blockMagic h.magic)
  refuse (h.version ≠ blockVersion) (.invalidVersion blockVersion h.version)
  refuse (h.maxRows < h.rowCount) (.rowCountExceedsMaxRows h.rowCount h.maxRows)
  refuse (h.colCount ≠ descCount) (.columnCountMismatch h.colCount descCount)
  let expected ← frontBaseFor descCount
  refuse (h.frontBase ≠ expected) (.frontBaseMismatch expected h.frontBase)
  refuse (h.poolBase < h.frontBase ∨ h.tailCursor < h.poolBase ∨ h.blockSize < h.tailCursor)
    .invalidHeaderBounds
  refuse (h.frontBase % bufferAlignment ≠ bufferAlignmentBias ∨
      h.poolBase % bufferAlignment ≠ bufferAlignmentBias)
    (.misalignedFrontRegion h.frontBase h.poolBase bufferAlignment)

/-- `validate_block_prefix`. -/
def validateBlockPrefix (block : List UInt8) (h : BlockHeader) (descCount : ℕ) :
    Except LayoutError Unit := do
  refuse (block.length < h.blockSize) (.blockSliceTooSmall h.blockSize block.length)
  refuse (block.length < descOffset descCount)
    (.blockSliceTooSmall (descOffset descCount) block.length)
  validateHeader h descCount

/-- One round of the loop of `validate_desc_layout_in_block`: the cursor after column
`index`. -/
def validateDesc (block : List UInt8) (h : BlockHeader) (cursor index : ℕ) :
    Except LayoutError ℕ := do
  let desc := ColumnDesc.ofBytes (← readStruct block (descOffset index) ColumnDesc.size)
  let layout ← columnLayoutFromDesc index h.maxRows desc
  refuse (desc.validityOff ≠ cursor) (.columnDescMismatch index)
  let cursor ← checkedAdd cursor layout.validityLen
  refuse (desc.valuesOff ≠ cursor) (.columnDescMismatch index)
  let cursor ← checkedAdd cursor layout.valuesLen
  refuse (desc.reserved0 ≠ 0) (.columnDescMismatch index)
  return cursor

/-- `validate_desc_layout_in_block`. -/
def validateDescLayoutInBlock (block : List UInt8) (h : BlockHeader) : Except LayoutError Unit := do
  let cursor ← (List.range h.colCount).foldlM (validateDesc block h) h.frontBase
  refuse (cursor ≠ h.poolBase) (.poolBaseMismatch cursor h.poolBase)

/-! ### The readers -/

/-- `BlockRef`. -/
structure BlockRef where
  block : List UInt8
  header : BlockHeader
deriving DecidableEq

namespace BlockRef

/-- `BlockRef::open`. -/
def openBlock (block : List UInt8) : Except LayoutError BlockRef := do
  let header := BlockHeader.ofBytes (← readStruct block 0 BlockHeader.size)
  validateBlockPrefix block header header.colCount
  validateDescLayoutInBlock block header
  return ⟨block, header⟩

variable (r : BlockRef)

/-- `BlockRef::desc`. -/
def desc (index : ℕ) : Except LayoutError ColumnDesc := do
  refuse (r.header.colCount ≤ index) (.columnIndexOutOfBounds index r.header.colCount)
  return ColumnDesc.ofBytes (← readStruct r.block (descOffset index) ColumnDesc.size)

/-- `BlockRef::null_count`. -/
def nullCount (index : ℕ) : Except LayoutError ℕ := do
  return (← r.desc index).nullCount

/-- `BlockRef::column_layout`. -/
def columnLayout (index : ℕ) : Except LayoutError ColumnLayout := do
  columnLayoutFromDesc index r.header.maxRows (← r.desc index)

/-- `BlockRef::validity_bytes`. -/
def validityBytes (index : ℕ) : Except LayoutError (List UInt8) := do
  let layout ← r.columnLayout index
  blockRange r.block layout.validityOff layout.validityLen

/-- `BlockRef::boolean_values` and `BlockRef::fixed_values`. -/
def valuesBytes (index : ℕ) : Except LayoutError (List UInt8) := do
  let layout ← r.columnLayout index
  blockRange r.block layout.valuesOff layout.valuesLen

/-- `BlockRef::validity`. -/
def validity (index row : ℕ) : Except LayoutError Bool := do
  return bitmapGet (← r.validityBytes index) row

/-- `BlockRef::bool_value`. -/
def boolValue (index row : ℕ) : Except LayoutError Bool := do
  let layout ← r.columnLayout index
  refuse (layout.typeTag ≠ .boolean) (.invalidTypeTag layout.typeTag.toRaw)
  return bitmapGet (← r.valuesBytes index) row

/-- `BlockRef::fixed_value`. -/
def fixedValue (index row : ℕ) : Except (Halt LayoutError) (List UInt8) := do
  let layout ← (r.columnLayout index).mapError .error
  let rowWidth ← match layout.typeTag.valuesRowWidth with
    | some rowWidth => .ok rowWidth
    | none => .error (.error (.invalidTypeTag layout.typeTag.toRaw))
  refuse (layout.typeTag = .boolean ∨ layout.typeTag.isView = true)
    (.error (.invalidTypeTag layout.typeTag.toRaw))
  let start ← (checkedMul row rowWidth).mapError .error
  let values ← (r.valuesBytes index).mapError .error
  Halt.expect (slice values start rowWidth)

/-- `BlockRef::view`. -/
def view (index row : ℕ) : Except (Halt LayoutError) ByteView := do
  let layout ← (r.columnLayout index).mapError .error
  refuse (layout.typeTag.isView = false)
    (.error (.inconsistentViewFlag index layout.typeTag layout.flags))
  refuse (r.header.maxRows ≤ row) (.error (.rowCountExceedsMaxRows row r.header.maxRows))
  let rel ← (checkedMul row ByteView.size).mapError .error
  let slotOff ← (checkedAdd layout.valuesOff rel).mapError .error
  let bytes ← (readStruct r.block slotOff ByteView.size).mapError .error
  let view := ByteView.ofBytes bytes
  let capacity ← r.header.sharedPoolCapacity.mapError .error
  view.validate capacity
  return view

end BlockRef

end PgFusion.ArrowLayout

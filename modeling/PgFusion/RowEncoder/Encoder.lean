import PgFusion.ArrowLayout.Plan
import PgFusion.Data.Stateful

/-!
The row encoder of `page/row_encoder`, which appends rows to a block through raw offsets. It has its
own copy of the header, which is written back by `finish`. Numbers are stored the lowest byte first,
and floating point values are given by their bits.
-/

namespace PgFusion.RowEncoder

open Bytes Fallible ArrowLayout Stateful

/-! ### Values -/

/-- `AppendStatus`. -/
inductive AppendStatus where
  | appended
  | full
deriving DecidableEq

/-- `CellType`. -/
inductive CellType where
  | null
  | boolean
  | int16
  | int32
  | int64
  | float32
  | float64
  | uuid
  | decimal128
  | intervalMonthDayNano
  | date32
  | time64Microsecond
  | timestampMicrosecond
  | utf8
  | binary
deriving DecidableEq

/-- `CellRef`. -/
inductive CellRef where
  | null
  | boolean (value : Bool)
  | int16 (value : Int16)
  | int32 (value : Int32)
  | int64 (value : Int64)
  | float32 (bits : UInt32)
  | float64 (bits : UInt64)
  | uuid (bytes : List UInt8)
  | decimal128 (value : BitVec 128)
  | intervalMonthDayNano (months days : Int32) (nanoseconds : Int64)
  | date32 (value : Int32)
  | time64Microsecond (value : Int64)
  | timestampMicrosecond (value : Int64)
  | utf8 (bytes : List UInt8)
  | binary (bytes : List UInt8)
deriving DecidableEq

/-- `CellRef::cell_type`. -/
def CellRef.cellType : CellRef → CellType
  | null => .null
  | boolean _ => .boolean
  | int16 _ => .int16
  | int32 _ => .int32
  | int64 _ => .int64
  | float32 _ => .float32
  | float64 _ => .float64
  | uuid _ => .uuid
  | decimal128 _ => .decimal128
  | intervalMonthDayNano .. => .intervalMonthDayNano
  | date32 _ => .date32
  | time64Microsecond _ => .time64Microsecond
  | timestampMicrosecond _ => .timestampMicrosecond
  | utf8 _ => .utf8
  | binary _ => .binary

/-- `FixedWidthCell`. -/
inductive FixedWidthCell where
  | boolean (value : Bool)
  | int16 (value : Int16)
  | int32 (value : Int32)
  | int64 (value : Int64)
  | float32 (bits : UInt32)
  | float64 (bits : UInt64)
  | decimal128 (value : BitVec 128)
  | intervalMonthDayNano (months days : Int32) (nanoseconds : Int64)
  | date32 (value : Int32)
  | time64Microsecond (value : Int64)
  | timestampMicrosecond (value : Int64)
deriving DecidableEq

/-- A fixed-width cell as a cell; the two have the same `cell_type`. -/
def FixedWidthCell.toCell : FixedWidthCell → CellRef
  | boolean value => .boolean value
  | int16 value => .int16 value
  | int32 value => .int32 value
  | int64 value => .int64 value
  | float32 bits => .float32 bits
  | float64 bits => .float64 bits
  | decimal128 value => .decimal128 value
  | intervalMonthDayNano months days nanoseconds => .intervalMonthDayNano months days nanoseconds
  | date32 value => .date32 value
  | time64Microsecond value => .time64Microsecond value
  | timestampMicrosecond value => .timestampMicrosecond value

/-- `RowSource`: the cell of each column. -/
abbrev RowSource := ℕ → CellRef

/-- `FixedWidthRowSource`. -/
abbrev FixedWidthRowSource := ℕ → TypeTag → FixedWidthCell

/-- `RowEncodeError`. -/
inductive RowEncodeError where
  | rowValueTooLarge (index len : ℕ)
  | nullInNonNullableColumn (index : ℕ)
  | typeMismatch (index : ℕ) (expected : TypeTag) (actual : CellType)
  | invalidUuidWidth (index len : ℕ)
  | layout (e : LayoutError)
deriving DecidableEq

/-- `interval_month_day_nano_bytes`. -/
def intervalMonthDayNanoBytes (months days : Int32) (nanoseconds : Int64) : List UInt8 :=
  leBytes 4 months.toBitVec.toNat ++ leBytes 4 days.toBitVec.toNat ++
    leBytes 8 nanoseconds.toBitVec.toNat

/-- The bytes of the values that are written as they are, for the type tags that take
them: the arms that `write_cell`, `write_fixed_width_cell` and
`try_append_single_fixed_width_row` have in common. -/
def primitiveBytes : TypeTag → CellRef → Option (List UInt8)
  | .int16, .int16 value => some (leBytes 2 value.toBitVec.toNat)
  | .int32, .int32 value => some (leBytes 4 value.toBitVec.toNat)
  | .int64, .int64 value => some (leBytes 8 value.toBitVec.toNat)
  | .float32, .float32 bits => some (leBytes 4 bits.toNat)
  | .float64, .float64 bits => some (leBytes 8 bits.toNat)
  | .decimal128, .decimal128 value => some (leBytes 16 value.toNat)
  | .date32, .date32 value => some (leBytes 4 value.toBitVec.toNat)
  | .time64Microsecond, .time64Microsecond value => some (leBytes 8 value.toBitVec.toNat)
  | .timestampMicrosecond, .timestampMicrosecond value => some (leBytes 8 value.toBitVec.toNat)
  | .intervalMonthDayNano, .intervalMonthDayNano months days nanoseconds =>
    some (intervalMonthDayNanoBytes months days nanoseconds)
  | _, _ => none

/-! ### The encoder -/

/-- `PageRowEncoder`. -/
structure PageRowEncoder where
  payload : List UInt8
  header : BlockHeader
  colCount : ℕ
deriving DecidableEq

/-- `CellWrite`. -/
inductive CellWrite where
  | written
  | full
deriving DecidableEq

/-- A method of the encoder. -/
abbrev Enc := Stateful PageRowEncoder (Halt RowEncodeError)

namespace PageRowEncoder

/-- `PageRowEncoder::new`. -/
def new (payload : List UInt8) : Except LayoutError PageRowEncoder := do
  let block ← BlockRef.openBlock payload
  return ⟨payload, block.header, block.header.colCount⟩

/-- A read through the pointer to the block. -/
def readRaw (off len : ℕ) : Enc (List UInt8) := do
  match slice (← get).payload off len with
  | some bytes => return bytes
  | none => throw .wild

/-- A write through the pointer to the block. -/
def writeRaw (off : ℕ) (bytes : List UInt8) : Enc Unit := do
  let s ← get
  if off + bytes.length ≤ s.payload.length then set { s with payload := splice s.payload off bytes }
  else throw .wild

/-- `bitmap_get_raw`. -/
def bitmapGetRaw (base index : ℕ) : Enc Bool := do
  match (← get).payload[base + index / 8]? with
  | some byte => return bitOf byte (index % 8)
  | none => throw .wild

/-- `bitmap_set_raw`. -/
def bitmapSetRaw (base index : ℕ) (value : Bool) : Enc Unit := do
  let s ← get
  match s.payload[base + index / 8]? with
  | some byte => set { s with
      payload := s.payload.set (base + index / 8) (withBit byte (index % 8) value) }
  | none => throw .wild

/-- `desc`. -/
def desc (index : ℕ) : Enc ColumnDesc := do
  return ColumnDesc.ofBytes (← readRaw (descOffset index) ColumnDesc.size)

/-- `write_desc`. -/
def writeDesc (index : ℕ) (d : ColumnDesc) : Enc Unit := writeRaw (descOffset index) d.toBytes

/-- A layout error as an error of the encoder. -/
def layoutError (e : LayoutError) : Halt RowEncodeError := .error (.layout e)

/-- `increment_null_count`. -/
def incrementNullCount (index : ℕ) (d : ColumnDesc) : Enc Unit := do
  let n ← fromResult ((checkedAdd d.nullCount 1).mapError layoutError)
  writeDesc index { d with nullCount := n }

/-- `decrement_null_count`. -/
def decrementNullCount (index : ℕ) (d : ColumnDesc) : Enc Unit := do
  let n ← fromResult ((checkedSub d.nullCount 1 .sizeOverflow).mapError layoutError)
  writeDesc index { d with nullCount := n }

/-- `tail_alloc`. -/
def tailAlloc (len : ℕ) : Enc (Option ℕ) := do
  let s ← get
  if len = 0 then return some s.header.tailCursor
  else do
    let next ← fromResult ((checkedSub s.header.tailCursor len .sizeOverflow).mapError layoutError)
    if next < s.header.poolBase then return none
    else do
      set { s with header := { s.header with tailCursor := next } }
      return some next

/-- The copy into `tail_bytes_mut`. -/
def writeTail (start : ℕ) (bytes : List UInt8) : Enc Unit := do
  let s ← get
  if start + bytes.length ≤ s.payload.length then
    set { s with payload := splice s.payload start bytes }
  else throw .panic

/-- `write_validity`. -/
def writeValidity (rowIdx : ℕ) (d : ColumnDesc) (valid : Bool) : Enc Unit :=
  if d.isNullable then bitmapSetRaw d.validityOff rowIdx valid else return ()

/-- `validity`. -/
def validity (rowIdx : ℕ) (d : ColumnDesc) : Enc Bool := bitmapGetRaw d.validityOff rowIdx

/-- `write_bool_value`. -/
def writeBoolValue (rowIdx : ℕ) (d : ColumnDesc) (value : Bool) : Enc Unit :=
  bitmapSetRaw d.valuesOff rowIdx value

/-- `write_bool`. -/
def writeBool (rowIdx : ℕ) (d : ColumnDesc) (value : Bool) : Enc Unit := do
  writeValidity rowIdx d true
  writeBoolValue rowIdx d value

/-- The width that `write_fixed_bytes` finds for a raw type tag. -/
def fixedWidth (raw : ℕ) : Except LayoutError ℕ :=
  if raw = TypeTag.int16.toRaw then .ok 2
  else if raw = TypeTag.int32.toRaw ∨ raw = TypeTag.float32.toRaw ∨ raw = TypeTag.date32.toRaw then
    .ok 4
  else if raw = TypeTag.int64.toRaw ∨ raw = TypeTag.float64.toRaw ∨
      raw = TypeTag.time64Microsecond.toRaw ∨ raw = TypeTag.timestampMicrosecond.toRaw then .ok 8
  else if raw = TypeTag.uuid.toRaw ∨ raw = TypeTag.decimal128.toRaw ∨
      raw = TypeTag.intervalMonthDayNano.toRaw then .ok 16
  else .error (.invalidTypeTag raw)

/-- `write_fixed_bytes`. -/
def writeFixedBytes (rowIdx : ℕ) (d : ColumnDesc) (bytes : List UInt8) : Enc Unit := do
  let width ← fromResult ((fixedWidth d.typeTag).mapError layoutError)
  fromResult (refuse (bytes.length ≠ width) (layoutError .invalidHeaderBounds))
  writeRaw (d.valuesOff + rowIdx * width) bytes

/-- `zero_value_slot`. -/
def zeroValueSlot (rowIdx : ℕ) (d : ColumnDesc) (width : ℕ) : Enc Unit :=
  writeRaw (d.valuesOff + rowIdx * width) (List.replicate width 0)

/-- `write_view_slot`. -/
def writeViewSlot (rowIdx : ℕ) (d : ColumnDesc) (view : ByteView) : Enc Unit :=
  writeRaw (d.valuesOff + rowIdx * ByteView.size) view.toBytes

/-- `write_fixed`. -/
def writeFixed (rowIdx : ℕ) (d : ColumnDesc) (bytes : List UInt8) : Enc CellWrite := do
  writeValidity rowIdx d true
  writeFixedBytes rowIdx d bytes
  return .written

/-- The part of `write_null` that clears the value. -/
def clearValue (rowIdx : ℕ) (d : ColumnDesc) : Enc Unit :=
  if d.typeTag = TypeTag.boolean.toRaw then writeBoolValue rowIdx d false
  else if d.typeTag = TypeTag.int16.toRaw then zeroValueSlot rowIdx d 2
  else if d.typeTag = TypeTag.int32.toRaw ∨ d.typeTag = TypeTag.float32.toRaw ∨
      d.typeTag = TypeTag.date32.toRaw then zeroValueSlot rowIdx d 4
  else if d.typeTag = TypeTag.int64.toRaw ∨ d.typeTag = TypeTag.float64.toRaw ∨
      d.typeTag = TypeTag.time64Microsecond.toRaw ∨
      d.typeTag = TypeTag.timestampMicrosecond.toRaw then zeroValueSlot rowIdx d 8
  else if d.typeTag = TypeTag.uuid.toRaw ∨ d.typeTag = TypeTag.utf8View.toRaw ∨
      d.typeTag = TypeTag.binaryView.toRaw ∨ d.typeTag = TypeTag.decimal128.toRaw ∨
      d.typeTag = TypeTag.intervalMonthDayNano.toRaw then zeroValueSlot rowIdx d 16
  else throw (layoutError (.invalidTypeTag d.typeTag))

/-- `write_null`. -/
def writeNull (index rowIdx : ℕ) (d : ColumnDesc) : Enc Unit := do
  fromResult (refuse (d.isNullable = false) (.error (.nullInNonNullableColumn index)))
  writeValidity rowIdx d false
  clearValue rowIdx d
  incrementNullCount index d

/-- `write_view`. -/
def writeView (index rowIdx : ℕ) (d : ColumnDesc) (bytes : List UInt8) : Enc CellWrite := do
  fromResult (refuse (0x7FFFFFFF < bytes.length) (.error (.rowValueTooLarge index bytes.length)))
  if bytes.length ≤ viewInlineLen then do
    writeValidity rowIdx d true
    writeViewSlot rowIdx d (← fromResult ((ByteView.newInline bytes).mapError layoutError))
    return .written
  else do
    let len ← fromResult ((checkedU32 bytes.length).mapError layoutError)
    match ← tailAlloc len with
    | none => return .full
    | some start => do
      writeTail start bytes
      writeValidity rowIdx d true
      let poolBase := (← get).header.poolBase
      writeViewSlot rowIdx d
        (← fromResult ((ByteView.newOutline bytes (start - poolBase)).mapError layoutError))
      return .written

/-- `write_cell`. -/
def writeCell (index rowIdx : ℕ) (d : ColumnDesc) (cell : CellRef) : Enc CellWrite := do
  if cell = .null then do
    writeNull index rowIdx d
    return .written
  else do
    let typeTag ← fromResult ((TypeTag.fromRaw d.typeTag).mapError layoutError)
    match primitiveBytes typeTag cell with
    | some bytes => writeFixed rowIdx d bytes
    | none =>
      match typeTag, cell with
      | .boolean, .boolean value => do
        writeBool rowIdx d value
        return .written
      | .uuid, .uuid bytes => do
        fromResult (refuse (bytes.length ≠ uuidWidthBytes)
          (.error (.invalidUuidWidth index bytes.length)))
        writeFixed rowIdx d bytes
      | .utf8View, .utf8 bytes => writeView index rowIdx d bytes
      | .binaryView, .binary bytes => writeView index rowIdx d bytes
      | expected, actual => throw (.error (.typeMismatch index expected actual.cellType))

/-- `write_fixed_width_cell`. -/
def writeFixedWidthCell (index rowIdx : ℕ) (d : ColumnDesc) (typeTag : TypeTag)
    (cell : FixedWidthCell) : Enc Unit :=
  match primitiveBytes typeTag cell.toCell with
  | some bytes => do
    let _ ← writeFixed rowIdx d bytes
    return ()
  | none =>
    match typeTag, cell with
    | .boolean, .boolean value => writeBool rowIdx d value
    | expected, actual => throw (.error (.typeMismatch index expected actual.toCell.cellType))

/-- The loop of `rollback_row`, over the columns from `index` on. -/
def restoreNullCounts (rowIdx : ℕ) : ℕ → ℕ → Enc Unit
  | 0, _ => return ()
  | todo + 1, index => do
    let d ← desc index
    if d.isNullable then do
      if (← validity rowIdx d) then restoreNullCounts rowIdx todo (index + 1)
      else do
        decrementNullCount index d
        restoreNullCounts rowIdx todo (index + 1)
    else restoreNullCounts rowIdx todo (index + 1)

/-- `rollback_row`. -/
def rollbackRow (rowIdx processedCols tailBefore : ℕ) : Enc Unit := do
  modify fun s => { s with header := { s.header with tailCursor := tailBefore } }
  restoreNullCounts rowIdx processedCols 0

def setRowCount (rowCount : ℕ) : Enc Unit :=
  modify fun s => { s with header := { s.header with rowCount := rowCount } }

/-- The type tags that `try_append_single_fixed_width_row` takes. -/
def isSingleFixedWidth : TypeTag → Bool
  | .boolean | .int16 | .int32 | .int64 | .float32 | .float64 | .decimal128 | .intervalMonthDayNano
  | .date32 | .time64Microsecond | .timestampMicrosecond => true
  | .uuid | .utf8View | .binaryView => false

/-- The closure of `try_append_single_fixed_width_row`. -/
def appendSingle (rowIdx : ℕ) (d : ColumnDesc) (typeTag : TypeTag) (cell : CellRef) : Enc Unit := do
  if cell = .null then do
    writeNull 0 rowIdx d
    setRowCount (rowIdx + 1)
  else
    match primitiveBytes typeTag cell with
    | some bytes => do
      writeValidity rowIdx d true
      writeFixedBytes rowIdx d bytes
      setRowCount (rowIdx + 1)
    | none =>
      match typeTag, cell with
      | .boolean, .boolean value => do
        writeBool rowIdx d value
        setRowCount (rowIdx + 1)
      | expected, actual => throw (.error (.typeMismatch 0 expected actual.cellType))

/-- `try_append_single_fixed_width_row`. -/
def tryAppendSingleFixedWidthRow (rowIdx : ℕ) (source : RowSource) : Enc (Option AppendStatus) := do
  if (← get).colCount ≠ 1 then return none
  else do
    let d ← desc 0
    let typeTag ← fromResult ((TypeTag.fromRaw d.typeTag).mapError layoutError)
    if isSingleFixedWidth typeTag then do
      appendSingle rowIdx d typeTag (source 0)
      return some .appended
    else return none

/-- The loop of `append_row`, over the columns from `index` on: the number of processed
columns if a cell did not fit. -/
def writeCells (rowIdx : ℕ) (source : RowSource) : ℕ → ℕ → Enc (Option ℕ)
  | 0, _ => return none
  | todo + 1, index => do
    let d ← desc index
    match ← writeCell index rowIdx d (source index) with
    | .written => writeCells rowIdx source todo (index + 1)
    | .full => return some index

/-- The part of `append_row` that writes the row cell by cell. -/
def appendCells (rowIdx : ℕ) (source : RowSource) : Enc AppendStatus := do
  let s ← get
  let tailBefore := s.header.tailCursor
  match ← writeCells rowIdx source s.colCount 0 with
  | none => do
    setRowCount (rowIdx + 1)
    return .appended
  | some processedCols => do
    rollbackRow rowIdx processedCols tailBefore
    return .full

/-- `append_row`. -/
def appendRow (source : RowSource) : Enc AppendStatus := do
  let s ← get
  let rowIdx := s.header.rowCount
  if s.header.maxRows ≤ rowIdx then return .full
  else do
    match ← tryAppendSingleFixedWidthRow rowIdx source with
    | some status => return status
    | none => appendCells rowIdx source

/-- The loop of `append_fixed_width_row`, over the columns from `index` on. -/
def writeFixedWidthCells (rowIdx : ℕ) (source : FixedWidthRowSource) : ℕ → ℕ → Enc Unit
  | 0, _ => return ()
  | todo + 1, index => do
    let d ← desc index
    let typeTag ← fromResult ((TypeTag.fromRaw d.typeTag).mapError layoutError)
    writeFixedWidthCell index rowIdx d typeTag (source index typeTag)
    writeFixedWidthCells rowIdx source todo (index + 1)

/-- `append_fixed_width_row`. -/
def appendFixedWidthRow (source : FixedWidthRowSource) : Enc AppendStatus := do
  let s ← get
  let rowIdx := s.header.rowCount
  if s.header.maxRows ≤ rowIdx then return .full
  else do
    writeFixedWidthCells rowIdx source s.colCount 0
    setRowCount (rowIdx + 1)
    return .appended

/-- `EncodedBatch`, and the page. -/
structure EncodedBatch where
  rowCount : ℕ
  payloadLen : ℕ
  payload : List UInt8
deriving DecidableEq

/-- `finish`, which consumes the encoder. -/
def finish (s : PageRowEncoder) : Except (Halt RowEncodeError) EncodedBatch := do
  refuse (s.payload.length < BlockHeader.size) .wild
  let payload := splice s.payload 0 s.header.toBytes
  let _ ← (BlockRef.openBlock payload).mapError layoutError
  return ⟨s.header.rowCount, s.header.blockSize, payload⟩

end PageRowEncoder

end PgFusion.RowEncoder

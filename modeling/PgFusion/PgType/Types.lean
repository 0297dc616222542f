import Mathlib.Tactic

/-!
PostgreSQL types and the Arrow types that stand for them (`pg/type/src/lib.rs`).
-/

namespace PgFusion

/-! ### The decimal type of a `numeric` column -/

namespace Numeric

/-- `NUMERIC_FALLBACK_PRECISION`. -/
def numericFallbackPrecision : UInt8 := 38

/-- `NUMERIC_FALLBACK_SCALE`. -/
def numericFallbackScale : Int8 := 16

/-- `numeric_shape_from_typmod`. -/
def numericShapeFromTypmod (atttypmod : Int32) : Option (UInt8 × Int8) :=
  if atttypmod < 0 then some (numericFallbackPrecision, numericFallbackScale)
  else
    let typmod := atttypmod - 4
    let precision := ((typmod >>> 16) &&& 0xffff).toInt
    let scale := (((typmod &&& 0x7ff) ^^^ 1024) - 1024).toInt
    if ¬ (1 ≤ precision ∧ precision ≤ 38) ∨ scale < 0 ∨ precision < scale then none
    else some (UInt8.ofNat precision.toNat, Int8.ofInt scale)

/-- The type modifier of `numeric(precision, scale)`, as `make_numeric_typmod` packs it. -/
def numericTypmod (precision scale : Int32) : Int32 := (precision <<< 16 ||| scale &&& 0x7ff) + 4

/-- A shape has at most 38 digits, of which the fraction is a part. -/
lemma numericShapeFromTypmod_eq_some {atttypmod : Int32} {precision : UInt8} {scale : Int8}
    (h : numericShapeFromTypmod atttypmod = some (precision, scale)) :
    precision.toNat ≤ 38 ∧ 0 ≤ scale.toInt ∧ scale.toInt ≤ precision.toNat := by
  rw [numericShapeFromTypmod] at h
  by_cases hneg : atttypmod < 0
  · rw [if_pos hneg] at h
    obtain ⟨rfl, rfl⟩ := Prod.mk.inj (Option.some.inj h)
    decide
  · simp only [if_neg hneg] at h
    split_ifs at h with hbad
    obtain ⟨rfl, rfl⟩ := Prod.mk.inj (Option.some.inj h)
    rw [not_or, not_not, not_or] at hbad
    obtain ⟨⟨h1, h38⟩, hscale, hle⟩ := hbad
    rw [UInt8.toNat_ofNat', Int8.toInt_ofInt_of_le (by omega) (by omega)]
    omega

end Numeric

namespace PgType

/-! ### Object identifiers of the built-in types -/

/-- `BOOLOID`. -/
def boolOid : UInt32 := 16

/-- `BYTEAOID`. -/
def byteaOid : UInt32 := 17

/-- `NAMEOID`. -/
def nameOid : UInt32 := 19

/-- `INT8OID`. -/
def int8Oid : UInt32 := 20

/-- `INT2OID`. -/
def int2Oid : UInt32 := 21

/-- `INT4OID`. -/
def int4Oid : UInt32 := 23

/-- `TEXTOID`. -/
def textOid : UInt32 := 25

/-- `FLOAT4OID`. -/
def float4Oid : UInt32 := 700

/-- `FLOAT8OID`. -/
def float8Oid : UInt32 := 701

/-- `BPCHAROID`. -/
def bpcharOid : UInt32 := 1042

/-- `VARCHAROID`. -/
def varcharOid : UInt32 := 1043

/-- `DATEOID`. -/
def dateOid : UInt32 := 1082

/-- `TIMEOID`. -/
def timeOid : UInt32 := 1083

/-- `TIMESTAMPOID`. -/
def timestampOid : UInt32 := 1114

/-- `TIMESTAMPTZOID`. -/
def timestamptzOid : UInt32 := 1184

/-- `INTERVALOID`. -/
def intervalOid : UInt32 := 1186

/-- `NUMERICOID`. -/
def numericOid : UInt32 := 1700

/-- `UUIDOID`. -/
def uuidOid : UInt32 := 2950

/-! ### Types -/

/-- `PgTypeRef`: a type with its modifier and its collation. -/
structure PgTypeRef where
  oid : UInt32
  typmod : Int32
  collation : UInt32
deriving DecidableEq

/-- The Arrow types that PostgreSQL types are carried in. -/
inductive DataType where
  | boolean
  | int16
  | int32
  | int64
  | float32
  | float64
  | utf8View
  | binaryView
  | fixedSizeBinary (size : ℕ)
  | date32
  | time64Microsecond
  | timestampMicrosecond
  | intervalMonthDayNano
  | decimal128 (precision : ℕ) (scale : ℤ)
deriving DecidableEq

/-- `is_text_like_type`. -/
def isTextLikeType (oid : UInt32) : Bool :=
  oid == textOid || oid == varcharOid || oid == bpcharOid || oid == nameOid

/-- `arrow_type_for_pg_type`. -/
def arrowTypeForPgType (t : PgTypeRef) : Option DataType :=
  if t.oid = boolOid then some .boolean
  else if t.oid = int2Oid then some .int16
  else if t.oid = int4Oid then some .int32
  else if t.oid = int8Oid then some .int64
  else if t.oid = float4Oid then some .float32
  else if t.oid = float8Oid then some .float64
  else if isTextLikeType t.oid then some .utf8View
  else if t.oid = byteaOid then some .binaryView
  else if t.oid = uuidOid then some (.fixedSizeBinary 16)
  else if t.oid = dateOid then some .date32
  else if t.oid = timeOid then some .time64Microsecond
  else if t.oid = timestampOid ∨ t.oid = timestamptzOid then some .timestampMicrosecond
  else if t.oid = intervalOid then some .intervalMonthDayNano
  else if t.oid = numericOid then
    (Numeric.numericShapeFromTypmod t.typmod).map fun shape =>
      .decimal128 shape.1.toNat shape.2.toInt
  else none

end PgType

end PgFusion

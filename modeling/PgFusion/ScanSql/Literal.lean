import Mathlib.Tactic
import PgFusion.Sql.Texts

/-!
SQL literals (`scan_sql`: `literal.rs`, `quote.rs`; `pg_type`: the text types of a constant). A
panic of the code is a `Failure` of its own.
-/

namespace PgFusion.ScanSql

open Sql

/-! ### Errors -/

/-- `CompileError`. -/
inductive CompileError where
  | invalidProjectionIndex (index schemaLen : ℕ)
  | unknownColumn (column : String)
  | overlongIdentifier (kind identifier : String) (maxBytes : ℕ)
  | unexpectedRelation (column relation expected : String)
deriving DecidableEq

/-- What a call ends in when it returns no result. -/
inductive Failure where
  | panic
  | error (e : CompileError)
deriving DecidableEq

/-! ### Constants -/

inductive IntKind where
  | int8
  | int16
  | int32
  | int64
  | uint8
  | uint16
  | uint32
  | uint64
deriving DecidableEq

inductive FloatKind where
  | float16
  | float32
  | float64
deriving DecidableEq

inductive DecimalKind where
  | decimal32
  | decimal64
  | decimal128
  | decimal256
deriving DecidableEq

inductive TextKind where
  | utf8
  | utf8View
  | largeUtf8
deriving DecidableEq

inductive BinaryKind where
  | binary
  | binaryView
  | largeBinary
  | fixedSizeBinary (size : ℕ)
deriving DecidableEq

inductive TimeUnit where
  | second
  | millisecond
  | microsecond
  | nanosecond
deriving DecidableEq

/-- A float, as far as its text shows it: a finite one is printed with its sign, its whole part
and the digits of its fraction, without an exponent. -/
inductive FloatValue where
  | finite (negative : Bool) (whole : ℕ) (fraction : List (Fin 10))
  | notFinite
deriving DecidableEq

/-- `to_string` of a finite float. -/
def floatText (negative : Bool) (whole : ℕ) (fraction : List (Fin 10)) : String :=
  (if negative then "-" else "") ++ toString whole ++
    if fraction = [] then ""
    else "." ++ String.ofList (fraction.map fun d : Fin 10 => Nat.digitChar d.val)

/-- `ScalarValue`. The variants that are never rendered are one; machine integers are their
values. -/
inductive ScalarValue where
  | null
  | boolean (value : Option Bool)
  | float (kind : FloatKind) (value : Option FloatValue)
  | decimal (kind : DecimalKind) (value : Option ℤ) (precision : UInt8) (scale : Int8)
  | integer (kind : IntKind) (value : Option ℤ)
  | text (kind : TextKind) (value : Option String)
  | binary (kind : BinaryKind) (value : Option (List UInt8))
  | date32 (days : Option ℤ)
  | date64 (milliseconds : Option ℤ)
  | time (unit : TimeUnit) (value : Option ℤ)
  | timestamp (unit : TimeUnit) (value : Option ℤ) (timezone : Option String)
  | dictionary (value : ScalarValue)
  | other
deriving DecidableEq

/-- The types of casts. -/
inductive DataType where
  | boolean
  | integer (kind : IntKind)
  | float (kind : FloatKind)
  | decimal (kind : DecimalKind) (precision : UInt8) (scale : Int8)
  | text (kind : TextKind)
  | binary (kind : BinaryKind)
  | other
deriving DecidableEq

/-! ### The PostgreSQL type of a constant -/

/-- `PgTypeMetadata`. -/
structure PgTypeMetadata where
  oid : ℕ
  typmod : ℤ
  collation : ℕ
deriving DecidableEq

/-- The entries of a field's metadata that are read: `pg_fusion.pg_type_oid`,
`pg_fusion.pg_type_typmod` and `pg_fusion.pg_type_collation`. -/
structure FieldMetadata where
  oid : Option String
  typmod : Option String
  collation : Option String
deriving DecidableEq

/-- The value of digits. -/
def digitsValue (digits : List Char) : ℕ := Nat.ofDigitChars 10 digits 0

/-- `str::parse` to an unsigned integer: digits, after a plus sign or not. -/
def parseUnsigned (bound : ℕ) (text : String) : Option ℕ :=
  let digits := match text.toList with
    | '+' :: digits => digits
    | digits => digits
  if digits ≠ [] ∧ digits.all Char.isDigit ∧ digitsValue digits < bound then
    some (digitsValue digits) else none

/-- `str::parse` to an `i32`. -/
def parseI32 (text : String) : Option ℤ :=
  match text.toList with
  | '-' :: digits =>
    if digits ≠ [] ∧ digits.all Char.isDigit ∧ digitsValue digits ≤ 2 ^ 31 then
      some (-(digitsValue digits : ℤ))
    else none
  | _ => (parseUnsigned (2 ^ 31) text).map fun n => (n : ℤ)

/-- `read_pg_type_metadata`: nothing for entries that cannot be read. -/
def readPgTypeMetadata (metadata : FieldMetadata) : Option (Option PgTypeMetadata) :=
  if metadata.oid.isNone ∧ metadata.typmod.isNone ∧ metadata.collation.isNone then some none
  else do
    let oid ← metadata.oid.bind (parseUnsigned (2 ^ 32))
    let typmod ← metadata.typmod.bind parseI32
    let collation ← metadata.collation.bind (parseUnsigned (2 ^ 32))
    return some ⟨oid, typmod, collation⟩

def textOid : ℕ := 25

def varcharOid : ℕ := 1043

def bpcharOid : ℕ := 1042

def nameOid : ℕ := 19

def varHdrSz : ℤ := 4

/-- `text_typmod_length`. -/
def textTypmodLength (typmod : ℤ) : Option ℤ :=
  if varHdrSz < typmod then some (typmod - varHdrSz) else none

/-- `pg_text_cast_target`. -/
def pgTextCastTarget (pgType : PgTypeMetadata) : Option String :=
  if pgType.oid = textOid then some "TEXT"
  else if pgType.oid = varcharOid then
    if pgType.typmod = -1 then some "CHARACTER VARYING"
    else (textTypmodLength pgType.typmod).map fun length =>
      "CHARACTER VARYING(" ++ toString length ++ ")"
  else if pgType.oid = bpcharOid then
    if pgType.typmod = -1 then some "pg_catalog.bpchar"
    else (textTypmodLength pgType.typmod).map fun length => "CHARACTER(" ++ toString length ++ ")"
  else if pgType.oid = nameOid then some "NAME"
  else none

/-! ### Texts -/

/-- `quote_identifier`. -/
def quoteIdentifier (identifier : String) : String := quoted '"' identifier

/-- `render_string_literal`. -/
def renderStringLiteral (value : String) : String := quoted '\'' value

def hexDigits : List Char := "0123456789ABCDEF".toList

/-- `encode_hex`. -/
def encodeHex (bytes : List UInt8) : String :=
  String.ofList (bytes.flatMap fun byte => [hexDigits.getD (byte.toNat / 16) '0',
    hexDigits.getD (byte.toNat % 16) '0'])

/-- `render_bytea_literal`: the format string is `'\\\\x{}'::bytea` with both backslashes escaped.
-/
def renderByteaLiteral (bytes : List UInt8) : String := "'\\\\x" ++ encodeHex bytes ++ "'::bytea"

/-- The digits of a decimal with its point. The negation of the least scale overflows. -/
def scaleDigits (digits : List Char) (scale : Int8) : Except Failure (List Char) :=
  if 0 ≤ scale.toInt then
    let scale := scale.toInt.toNat
    if scale = 0 then pure digits
    else if digits.length ≤ scale then
      pure ('0' :: '.' :: (List.replicate (scale - digits.length) '0' ++ digits))
    else
      let split := digits.length - scale
      pure (digits.take split ++ '.' :: digits.drop split)
  else if scale.toInt = -128 then throw .panic
  else pure (digits ++ List.replicate (-scale.toInt).toNat '0')

/-- `apply_decimal_scale`. -/
def applyDecimalScale (value : String) (scale : Int8) : Except Failure String :=
  match value.toList with
  | '-' :: digits => do
    let scaled ← scaleDigits digits scale
    return String.ofList ('-' :: scaled)
  | digits => do
    let scaled ← scaleDigits digits scale
    return String.ofList scaled

/-- The text of a type with precision and scale. -/
def numericTarget (precision : UInt8) (scale : Int8) : String :=
  "NUMERIC(" ++ toString precision.toNat ++ ", " ++ toString scale.toInt ++ ")"

/-- A constant with its type around it. -/
def castText (text target : String) : String := "CAST(" ++ text ++ " AS " ++ target ++ ")"

/-- `render_decimal_literal`. -/
def renderDecimalLiteral (value : Option ℤ) (precision : UInt8) (scale : Int8) :
    Except Failure (Option String) :=
  match value with
  | none => pure (some "NULL")
  | some value => do
    let decimal ← applyDecimalScale (toString value) scale
    return some (castText (renderStringLiteral decimal) (numericTarget precision scale))

/-- `render_finite_float_literal`. -/
def renderFiniteFloatLiteral (value : FloatValue) (target : String) : Option String :=
  match value with
  | .finite negative whole fraction =>
    some (castText (renderStringLiteral (floatText negative whole fraction)) target)
  | .notFinite => none

/-- The type that a float is cast to. A half float is widened first. -/
def floatTarget : FloatKind → String
  | .float16 => "REAL"
  | .float32 => "REAL"
  | .float64 => "DOUBLE PRECISION"

/-- `render_option_number`. -/
def renderOptionNumber (value : Option ℤ) : String := value.elim "NULL" toString

/-- `render_date32_literal`. -/
def renderDate32Literal (days : ℤ) : String := "(DATE '1970-01-01' + (" ++ toString days ++ "))"

/-- `render_date64_literal`. -/
def renderDate64Literal (milliseconds : ℤ) : String :=
  "((TIMESTAMP '1970-01-01 00:00:00' + (" ++ toString milliseconds ++
    ") * INTERVAL '1 millisecond')::date)"

/-- The name of a unit in an interval. -/
def unitText : TimeUnit → String
  | .second => "second"
  | .millisecond => "millisecond"
  | .microsecond => "microsecond"
  | .nanosecond => "nanosecond"

/-- `render_time_literal`. -/
def renderTimeLiteral (value : ℤ) (unit : TimeUnit) : String :=
  "((TIME '00:00:00' + (" ++ toString value ++ ") * INTERVAL '1 " ++ unitText unit ++ "')::time)"

/-- `render_timestamp_literal`. -/
def renderTimestampLiteral (value : Option ℤ) (timezone : Option String) (unit : TimeUnit) :
    Option String :=
  match value, timezone with
  | none, _ => some "NULL"
  | some _, some _ => none
  | some value, none =>
    some ("(TIMESTAMP '1970-01-01 00:00:00' + (" ++ toString value ++ ") * INTERVAL '1 " ++
      unitText unit ++ "')")

/-- `render_pg_typed_literal`, for the type's text. -/
def renderTyped (target : String) : ScalarValue → Option String
  | .null => some (castText "NULL" target)
  | .text _ none => some (castText "NULL" target)
  | .text _ (some value) => some (castText (renderStringLiteral value) target)
  | .dictionary value => renderTyped target value
  | _ => none

/-- `render_pg_typed_literal`. -/
def renderPgTypedLiteral (literal : ScalarValue) (pgType : PgTypeMetadata) : Option String :=
  (pgTextCastTarget pgType).bind fun target => renderTyped target literal

/-- `render_literal` without metadata. -/
def renderPlain : ScalarValue → Except Failure (Option String)
  | .null => pure (some "NULL")
  | .boolean none => pure (some "NULL")
  | .boolean (some value) => pure (some (if value then "TRUE" else "FALSE"))
  | .float _ none => pure (some "NULL")
  | .float kind (some value) => pure (renderFiniteFloatLiteral value (floatTarget kind))
  | .decimal _ value precision scale => renderDecimalLiteral value precision scale
  | .integer _ value => pure (some (renderOptionNumber value))
  | .text _ value => pure (some (value.elim "NULL" renderStringLiteral))
  | .binary _ value => pure (some (value.elim "NULL" renderByteaLiteral))
  | .date32 days => pure (some (days.elim "NULL" renderDate32Literal))
  | .date64 milliseconds => pure (some (milliseconds.elim "NULL" renderDate64Literal))
  | .time .nanosecond _ => pure none
  | .time unit value => pure (some (value.elim "NULL" fun value => renderTimeLiteral value unit))
  | .timestamp .nanosecond _ _ => pure none
  | .timestamp unit value timezone => pure (renderTimestampLiteral value timezone unit)
  | .dictionary value => renderPlain value
  | .other => pure none

/-- `render_literal`. -/
def renderLiteral (literal : ScalarValue) (metadata : Option FieldMetadata) :
    Except Failure (Option String) :=
  match metadata with
  | none => renderPlain literal
  | some metadata =>
    match readPgTypeMetadata metadata with
    | none => pure none
    | some none => renderPlain literal
    | some (some pgType) => pure (renderPgTypedLiteral literal pgType)

/-- `render_cast_target`. -/
def renderCastTarget : DataType → Option String
  | .boolean => some "BOOLEAN"
  | .integer .int8 => some "SMALLINT"
  | .integer .int16 => some "SMALLINT"
  | .integer .int32 => some "INTEGER"
  | .integer .int64 => some "BIGINT"
  | .float .float16 => some "REAL"
  | .float .float32 => some "REAL"
  | .float .float64 => some "DOUBLE PRECISION"
  | .decimal .decimal128 precision scale => some (numericTarget precision scale)
  | .decimal .decimal256 precision scale => some (numericTarget precision scale)
  | .text _ => some "TEXT"
  | .binary _ => some "BYTEA"
  | _ => none

end PgFusion.ScanSql

import PgFusion.PlanCodec.Sink
import PgFusion.Wire.Values

/-!
The scan specifications of an encoded plan (`page/plan_codec/src/lib.rs`,
`pg/scan_node/src/lib.rs`).
-/

namespace PgFusion.PlanCodec

open Wire

/-! ### What comes from DataFusion -/

/-- `LogicalPlanNode`, the protobuf message of a logical plan: an extension node of this
project, or a node of DataFusion. A message that was not made from a plan may be neither. -/
inductive LogicalPlanNode (O : Type) where
  | unset
  | extension (node : List UInt8) (inputs : List (LogicalPlanNode O))
  | builtin (op : O) (inputs : List (LogicalPlanNode O))

/-- What the codec takes from DataFusion: expressions, schemas, plan operators, and the
messages that they are turned into, with the writes that encode them. -/
structure DataFusion where
  Expr : Type
  ExprNode : Type
  Schema : Type
  SchemaNode : Type
  Op : Type
  OpNode : Type
  exprMessage : ExprNode → List Put
  schemaMessage : SchemaNode → List Put
  planMessage : LogicalPlanNode OpNode → List Put
  serializeExpr : Expr → Except String ExprNode
  schemaToProto : Schema → Except String SchemaNode
  serializeOp : Op → Except String OpNode
  /-- The number of fields of a schema. -/
  fieldCount : Schema → ℕ
  /-- A node that is set is written with its key and its length. -/
  plan_ne_nil : ∀ n, n ≠ .unset → bytes (planMessage n) ≠ []

/-! ### Specifications -/

/-- `PgRelation`. -/
structure PgRelation where
  schema : Option String
  table : String
deriving DecidableEq

/-- `CompiledFilter`. A `usize` has 64 bits. -/
structure CompiledFilter where
  originalIndex : UInt64
  sql : String
deriving DecidableEq

/-- `CompiledScan`. -/
structure CompiledScan (df : DataFusion) where
  sql : String
  requestedLimit : Option UInt64
  sqlLimit : Option UInt64
  selectedColumns : List UInt64
  outputColumns : List UInt64
  filterOnlyColumns : List UInt64
  residualFilterColumns : List UInt64
  pushedFilters : List CompiledFilter
  residualFilters : List df.Expr
  allFiltersCompiled : Bool
  usesDummyProjection : Bool

/-- `PgScanFetchHints`. -/
structure PgScanFetchHints where
  plannerFetchHint : Option UInt64
  localRowCap : Option UInt64
deriving DecidableEq

/-- `PgScanSpec`. Both of its constructors see to it that the schema has a field for every
output column. -/
@[ext] structure PgScanSpec (df : DataFusion) where
  scanId : UInt64
  tableOid : UInt32
  relation : PgRelation
  compiledScan : CompiledScan df
  fetchHints : PgScanFetchHints
  schema : df.Schema
  fields_eq : df.fieldCount schema = compiledScan.outputColumns.length

/-! ### The state machine -/

/-- `EncodeState`. -/
inductive EncodeState where
  | start | failed | envelopeArrayLen | magic | version | scanSpecsArrayLen | scanSpecs
  | logicalPlanBinLen | logicalPlanBin | done
deriving DecidableEq

/-- `EncodeEvent`. -/
inductive EncodeEvent where
  | begin | fail | atomFinished | scanSpecsStarted | scanSpecFinished | scanSpecsFinished
  | logicalPlanFinished
deriving DecidableEq

/-- `encode_flow`. -/
def EncodeState.consume : EncodeState → EncodeEvent → Option EncodeState
  | start, .begin => some envelopeArrayLen
  | envelopeArrayLen, .atomFinished => some magic
  | magic, .atomFinished => some version
  | version, .atomFinished => some scanSpecsArrayLen
  | scanSpecsArrayLen, .scanSpecsStarted => some scanSpecs
  | scanSpecsArrayLen, .scanSpecsFinished => some logicalPlanBinLen
  | scanSpecs, .scanSpecFinished => some scanSpecs
  | scanSpecs, .scanSpecsFinished => some logicalPlanBinLen
  | logicalPlanBinLen, .atomFinished => some logicalPlanBin
  | logicalPlanBin, .logicalPlanFinished => some done
  | failed, _ => none
  | done, _ => none
  | _, .fail => some failed
  | _, _ => none

/-! ### Errors -/

/-- `EncodeError`. What a failed session repeats is the state and the error it failed with. -/
inductive EncodeError where
  | emptyOutputChunk
  | sessionFailed (state : EncodeState) (reason : EncodeError)
  | tooManyScanSpecs (count : ℕ)
  | payloadTooLarge (len : ℕ)
  | stateMachine (state : EncodeState) (event : EncodeEvent)
  | dataFusion (text : String)
  | msgPack (text : String)
deriving DecidableEq

/-! ### Writing -/

/-- What an encoder writes, or why it does not. -/
abbrev Write := Except EncodeError (List Put)

/-- Encoders one after the other, up to the first that fails. -/
def writeAll : List Write → Write
  | [] => .ok []
  | w :: ws => do
    let a ← w
    let b ← writeAll ws
    return a ++ b

lemma writeAll_cons_eq_ok {w : Write} {ws : List Write} {p : List Put}
    (h : writeAll (w :: ws) = .ok p) : ∃ a b, w = .ok a ∧ writeAll ws = .ok b ∧ p = a ++ b := by
  rw [writeAll] at h
  cases w with
  | error e => cases h
  | ok a =>
    cases hws : writeAll ws with
    | error e => rw [hws] at h; cases h
    | ok b => rw [hws] at h; exact ⟨a, b, rfl, rfl, (Except.ok.inj h).symm⟩

/-- A length below `2 ^ 32` has a marker. -/
lemma lenOf_fits {k : LenKind} {n : ℕ} {m : UInt8} (hm : (m, 4) ∈ k.wide) (h : n < 2 ^ 32) :
    n < k.fixCount ∨ ∃ mw ∈ k.wide, n < 256 ^ mw.2 :=
  Or.inr ⟨(m, 4), hm, by simpa using h⟩

/-- A marker and what follows it are two writes. -/
def marked : List UInt8 → List Put
  | [] => []
  | [m] => [.slice [m]]
  | m :: d => [.slice [m], .slice d]

lemma bytes_marked (b : List UInt8) : bytes (marked b) = b := by
  match b with
  | [] => rfl
  | [m] => rfl
  | m :: c :: d => simp [marked, Put.src]

/-- `write_array_len_to`, for a length that is a `u32`. -/
def writeArrayLenTo (len : ℕ) : Write := .ok (marked (writeLen arrayLen len))

/-- `write_array_len_to`, for a length that is checked to be a `u32`. -/
def writeCountTo (len : ℕ) (tooMany : EncodeError) : Write :=
  if len < 2 ^ 32 then writeArrayLenTo len else .error tooMany

/-- `write_string_to`. -/
def writeStringTo (value : String) : Write :=
  .ok (marked (writeLen strLen ((utf8 value).length % 2 ^ 32)) ++ [.slice (utf8 value)])

/-- `write_u8_to`, `write_u32_to` and `write_u64_to`. -/
def writeWordTo {α : Type} [Word α] (value : α) : Write := .ok (marked (writeWord value))

/-- `write_bool_to`. -/
def writeBoolTo (value : Bool) : Write := .ok (marked (writeBool value))

/-- `write_bin_len_to`. -/
def writeBinLenTo (len : ℕ) : Write :=
  if len < 2 ^ 32 then .ok (marked (writeLen binLen len)) else .error (.payloadTooLarge len)

/-- `write_protobuf_bin_to`. -/
def writeProtobufBinTo {M : Type} (encode : M → List Put) (message : M) : Write :=
  writeAll [writeBinLenTo (bytes (encode message)).length, .ok (encode message)]

/-- `write_optional_usize_to`. -/
def writeOptionalUsizeTo : Option UInt64 → Write
  | some value => writeAll [writeBoolTo true, writeWordTo value]
  | none => writeBoolTo false

/-- `write_optional_string_to`. -/
def writeOptionalStringTo : Option String → Write
  | some value => writeAll [writeBoolTo true, writeStringTo value]
  | none => writeBoolTo false

/-- `write_usize_vec_to`. -/
def writeUsizeVecTo (values : List UInt64) : Write :=
  writeAll (writeCountTo values.length
    (.msgPack s!"too many usize values to encode: {values.length}") :: values.map writeWordTo)

/-- `write_optional_usize_vec_to`. -/
def writeOptionalUsizeVecTo : Option (List UInt64) → Write
  | some values => writeAll [writeBoolTo true, writeUsizeVecTo values]
  | none => writeBoolTo false

variable {df : DataFusion}

/-- `PG_SCAN_SPEC_VERSION`. -/
def pgScanSpecVersion : UInt8 := 1

/-- `PG_SCAN_SPEC_LEN`, one less than the number of values that follow. -/
def pgScanSpecLen : ℕ := 6

/-- `PG_SCAN_RELATION_LEN`. -/
def pgScanRelationLen : ℕ := 2

/-- `PG_SCAN_FETCH_HINTS_LEN`. -/
def pgScanFetchHintsLen : ℕ := 2

/-- `PG_SCAN_COMPILED_SCAN_LEN`. -/
def pgScanCompiledScanLen : ℕ := 11

/-- `PG_SCAN_PUSHED_FILTER_LEN`. -/
def pgScanPushedFilterLen : ℕ := 2

/-- `encode_pg_relation_into`. -/
def encodePgRelationInto (relation : PgRelation) : Write :=
  writeAll [writeArrayLenTo pgScanRelationLen, writeOptionalStringTo relation.schema,
    writeStringTo relation.table]

/-- One entry of `encode_pushed_filters_into`. -/
def encodePushedFilterInto (filter : CompiledFilter) : Write :=
  writeAll [writeArrayLenTo pgScanPushedFilterLen, writeWordTo filter.originalIndex,
    writeStringTo filter.sql]

/-- `encode_pushed_filters_into`. -/
def encodePushedFiltersInto (filters : List CompiledFilter) : Write :=
  writeAll (writeCountTo filters.length (.tooManyScanSpecs filters.length) ::
    filters.map encodePushedFilterInto)

/-- One entry of `encode_residual_filters_into`. -/
def encodeResidualFilterInto (filter : df.Expr) : Write := do
  let expr ← (df.serializeExpr filter).mapError fun error =>
    .dataFusion s!"failed to serialize residual filter into protobuf: {error}"
  writeProtobufBinTo df.exprMessage expr

/-- `encode_residual_filters_into`. -/
def encodeResidualFiltersInto (filters : List df.Expr) : Write :=
  writeAll (writeCountTo filters.length
    (.msgPack s!"too many residual filters to encode: {filters.length}") ::
      filters.map encodeResidualFilterInto)

/-- `encode_compiled_scan_into`. -/
def encodeCompiledScanInto (scan : CompiledScan df) : Write :=
  writeAll [writeArrayLenTo pgScanCompiledScanLen, writeStringTo scan.sql,
    writeOptionalUsizeTo scan.requestedLimit, writeOptionalUsizeTo scan.sqlLimit,
    writeUsizeVecTo scan.selectedColumns, writeUsizeVecTo scan.outputColumns,
    writeUsizeVecTo scan.filterOnlyColumns, writeUsizeVecTo scan.residualFilterColumns,
    encodePushedFiltersInto scan.pushedFilters, encodeResidualFiltersInto scan.residualFilters,
    writeBoolTo scan.allFiltersCompiled, writeBoolTo scan.usesDummyProjection]

/-- `encode_fetch_hints_into`. -/
def encodeFetchHintsInto (hints : PgScanFetchHints) : Write :=
  writeAll [writeArrayLenTo pgScanFetchHintsLen, writeOptionalUsizeTo hints.plannerFetchHint,
    writeOptionalUsizeTo hints.localRowCap]

/-- `encode_df_schema_into`. -/
def encodeDfSchemaInto (schema : df.Schema) : Write := do
  let proto ← (df.schemaToProto schema).mapError fun error =>
    .dataFusion s!"failed to serialize DFSchema into protobuf: {error}"
  writeProtobufBinTo df.schemaMessage proto

/-- `encode_pg_scan_spec_into`. -/
def encodePgScanSpecInto (spec : PgScanSpec df) : Write :=
  writeAll [writeArrayLenTo pgScanSpecLen, writeWordTo pgScanSpecVersion, writeWordTo spec.scanId,
    writeWordTo spec.tableOid, encodePgRelationInto spec.relation,
    encodeCompiledScanInto spec.compiledScan, encodeFetchHintsInto spec.fetchHints,
    encodeDfSchemaInto spec.schema]

/-! ### Reading -/

/-- The texts of `rmp`'s errors. It has one for a missing marker too, which the decoder takes
for a lack of input as well. -/
def rmpText : ReadError → String
  | .outOfInput => "failed to read MessagePack data"
  | .typeMismatch _ => "the type decoded isn't match with the expected one"

end PgFusion.PlanCodec

import PgFusion.Data.Keyed
import PgFusion.PlanCodec.Spec

/-!
Logical plans, their scan specifications and their envelopes (`page/plan_codec/src/lib.rs`). A plan
is sent as a table of the specifications of its scans and as a message in which every scan is
reduced to its id.
-/

namespace PgFusion.PlanCodec

open Wire

variable {df : DataFusion}

/-! ### Plans -/

variable (df) in
/-- `PgCteRefNode`, without its input. -/
structure PgCteRef where
  cteId : UInt64
  name : String
  schema : df.Schema
  projection : Option (List UInt64)
  fetch : Option UInt64

variable (df) in
/-- `LogicalPlan`: the extension nodes `PgScanNode` and `PgCteRefNode`, any other extension
node, and the nodes of DataFusion. -/
inductive LogicalPlan where
  | pgScan (spec : PgScanSpec df)
  | cteRef (cte : PgCteRef df) (input : LogicalPlan)
  | foreign (name : String) (inputs : List LogicalPlan)
  | builtin (op : df.Op) (inputs : List LogicalPlan)

variable (df) in
/-- The specifications by their ids, as in a `BTreeMap`. -/
abbrev SpecTable := Keyed fun spec : PgScanSpec df => spec.scanId.toNat

mutual

/-- `collect_pg_scan_specs_inner`. -/
def collectPgScanSpecsInner : LogicalPlan df → SpecTable df → SpecTable df
  | .pgScan spec, specs => specs.orInsert spec
  | .cteRef _ input, specs => collectPgScanSpecsInner input specs
  | .foreign _ inputs, specs => collectPgScanSpecsOf inputs specs
  | .builtin _ inputs, specs => collectPgScanSpecsOf inputs specs

/-- The loop over the inputs of a node. -/
def collectPgScanSpecsOf : List (LogicalPlan df) → SpecTable df → SpecTable df
  | [], specs => specs
  | plan :: plans, specs => collectPgScanSpecsOf plans (collectPgScanSpecsInner plan specs)

end

/-- `collect_pg_scan_specs`. -/
def collectPgScanSpecs (plan : LogicalPlan df) : SpecTable df :=
  collectPgScanSpecsInner plan Keyed.empty

/-! ### Extension nodes -/

/-- `PG_SCAN_ID_PAYLOAD_VERSION`. -/
def pgScanIdPayloadVersion : UInt8 := 1

/-- `PG_CTE_REF_PAYLOAD_VERSION`. -/
def pgCteRefPayloadVersion : UInt8 := 2

/-- `PG_CTE_REF_PAYLOAD_LEN`. -/
def pgCteRefPayloadLen : ℕ := 6

/-- `encode_scan_id_payload`. -/
def encodeScanIdPayload (scanId : UInt64) : List UInt8 :=
  pgScanIdPayloadVersion :: beBytes 8 scanId.toNat

/-- `encode_cte_ref_payload`. -/
def encodeCteRefPayload (cte : PgCteRef df) : Write :=
  writeAll [writeArrayLenTo pgCteRefPayloadLen, writeWordTo pgCteRefPayloadVersion,
    writeWordTo cte.cteId, writeStringTo cte.name, writeOptionalUsizeVecTo cte.projection,
    writeOptionalUsizeTo cte.fetch, encodeDfSchemaInto cte.schema]

/-! ### Messages -/

mutual

/-- `LogicalPlanNode::try_from_logical_plan` with the `PgScanEncodeExtensionCodec`. -/
def tryFromLogicalPlan : LogicalPlan df → Except EncodeError (LogicalPlanNode df.OpNode)
  | .pgScan spec => .ok (.extension (encodeScanIdPayload spec.scanId) [])
  | .cteRef cte input => do
    let buf ← (encodeCteRefPayload cte).mapError fun _ =>
      .dataFusion "failed to encode PgCteRefNode payload"
    let node ← tryFromLogicalPlan input
    return .extension (bytes buf) [node]
  | .foreign name _ =>
    .error (.dataFusion s!"unsupported logical extension node for plan codec: {name}")
  | .builtin op inputs => do
    let node ← (df.serializeOp op).mapError EncodeError.dataFusion
    let nodes ← tryFromLogicalPlans inputs
    return .builtin node nodes

/-- The inputs of a node. -/
def tryFromLogicalPlans :
    List (LogicalPlan df) → Except EncodeError (List (LogicalPlanNode df.OpNode))
  | [] => .ok []
  | plan :: plans => do
    let node ← tryFromLogicalPlan plan
    let nodes ← tryFromLogicalPlans plans
    return node :: nodes

end

/-! ### Envelopes -/

/-- The message of a plan is set. -/
lemma tryFromLogicalPlan_ne_unset {plan : LogicalPlan df} {node : LogicalPlanNode df.OpNode}
    (h : tryFromLogicalPlan plan = .ok node) : node ≠ .unset := by
  rintro rfl
  cases plan with
  | pgScan spec => simp [tryFromLogicalPlan] at h
  | cteRef cte input =>
    rw [tryFromLogicalPlan] at h
    obtain ⟨buf, -, h⟩ := except_bind_eq_ok h
    obtain ⟨node, -, h⟩ := except_bind_eq_ok h
    cases h
  | foreign name inputs => simp [tryFromLogicalPlan] at h
  | builtin op inputs =>
    rw [tryFromLogicalPlan] at h
    obtain ⟨node, -, h⟩ := except_bind_eq_ok h
    obtain ⟨nodes, -, h⟩ := except_bind_eq_ok h
    cases h

variable (df) in
/-- `PlanEnvelope`. -/
@[ext] structure PlanEnvelope where
  pgScanSpecs : SpecTable df
  logicalPlan : LogicalPlanNode df.OpNode
  is_set : logicalPlan ≠ .unset

/-- `collect_plan_envelope`. -/
def collectPlanEnvelope (plan : LogicalPlan df) : Except EncodeError (PlanEnvelope df) :=
  match h : tryFromLogicalPlan plan with
  | .error error => .error error
  | .ok node => .ok ⟨collectPgScanSpecs plan, node, tryFromLogicalPlan_ne_unset h⟩

/-- `PLAN_CODEC_MAGIC`. -/
def planCodecMagic : String := "PFPL"

/-- `PLAN_CODEC_VERSION`. -/
def planCodecVersion : UInt8 := 1

/-- `PLAN_CODEC_ENVELOPE_LEN`. -/
def planCodecEnvelopeLen : ℕ := 4

/-- `encode_pg_scan_specs_into`. -/
def encodePgScanSpecsInto (specs : SpecTable df) : Write :=
  writeAll (writeCountTo specs.items.length (.tooManyScanSpecs specs.items.length) ::
    specs.items.map encodePgScanSpecInto)

/-- `encode_envelope_into`: all of an envelope at once. -/
def encodeEnvelopeInto (envelope : PlanEnvelope df) : Write :=
  writeAll [writeArrayLenTo planCodecEnvelopeLen, writeStringTo planCodecMagic,
    writeWordTo planCodecVersion, encodePgScanSpecsInto envelope.pgScanSpecs,
    writeProtobufBinTo df.planMessage envelope.logicalPlan]

end PgFusion.PlanCodec

import PgFusion.PlanCodec.Plan

/-!
The encode session of `page/plan_codec/src/lib.rs`, which emits an envelope item by item. For every
chunk of the output it runs the encoder of the current item again and keeps the bytes that fall into
the chunk. A loop that does not end counts as a panic.

* `Valid.writeLoop`: a call emits what fits into its slice;
* `plan_encoding_ignores_chunk_sizes`: the chunks of a run are the encoding at once.
-/

namespace PgFusion.PlanCodec

open Wire

variable {df : DataFusion}

/-! ### The session -/

/-- `EncodeItemKind`. -/
inductive EncodeItemKind where
  | envelopeArrayLen
  | magic
  | version
  | scanSpecsArrayLen
  | scanSpec (index : ℕ)
  | logicalPlanBinLen
  | logicalPlanBin
deriving DecidableEq

/-- `ActiveEncodeItem`. -/
structure ActiveEncodeItem where
  kind : EncodeItemKind
  len : ℕ
  emitted : ℕ
deriving DecidableEq

/-- `EncodeProgress`. -/
inductive EncodeProgress where
  | needMoreOutput (written : ℕ)
  | done (written : ℕ)
deriving DecidableEq

/-- The number of bytes that a call wrote. -/
def EncodeProgress.written : EncodeProgress → ℕ
  | needMoreOutput written => written
  | done written => written

variable (df) in
/-- `PlanEncodeSession`. A failed session keeps the state and the error it failed with. -/
structure PlanEncodeSession where
  envelope : PlanEnvelope df
  orderedScanSpecs : List (PgScanSpec df)
  scanSpecLens : List ℕ
  logicalPlanLen : ℕ
  machine : EncodeState
  scanSpecIndex : ℕ
  activeItem : Option ActiveEncodeItem
  finished : Bool
  failed : Option (EncodeState × EncodeError)

variable (df) in
/-- How a call ends early: with an error, and the session as it is then, or in a panic. -/
inductive Halt where
  | error (e : EncodeError) (s : PlanEncodeSession df)
  | panic

namespace PlanEncodeSession

/-- `PlanEncodeSession::new`. -/
def new (plan : LogicalPlan df) : Except EncodeError (PlanEncodeSession df) := do
  let envelope ← collectPlanEnvelope plan
  let scanSpecLens ← envelope.pgScanSpecs.items.mapM fun spec =>
    (encodePgScanSpecInto spec).map encodedLen
  return {
    envelope
    orderedScanSpecs := envelope.pgScanSpecs.items
    scanSpecLens
    logicalPlanLen := (bytes (df.planMessage envelope.logicalPlan)).length
    machine := .start
    scanSpecIndex := 0
    activeItem := none
    finished := false
    failed := none }

/-- The encoder of an item. There is none for a specification beyond the last one. -/
def itemWrites (s : PlanEncodeSession df) : EncodeItemKind → Option Write
  | .envelopeArrayLen => some (writeArrayLenTo planCodecEnvelopeLen)
  | .magic => some (writeStringTo planCodecMagic)
  | .version => some (writeWordTo planCodecVersion)
  | .scanSpecsArrayLen => some (writeCountTo s.orderedScanSpecs.length
      (.tooManyScanSpecs s.orderedScanSpecs.length))
  | .scanSpec index => s.orderedScanSpecs[index]?.map encodePgScanSpecInto
  | .logicalPlanBinLen => some (writeBinLenTo s.logicalPlanLen)
  | .logicalPlanBin => some (.ok (df.planMessage s.envelope.logicalPlan))

/-- A result that may be an error or missing. -/
def orHalt {α : Type} (s : PlanEncodeSession df) :
    Option (Except EncodeError α) → Except (Halt df) α
  | some (.ok a) => .ok a
  | some (.error e) => .error (.error e s)
  | none => .error .panic

/-- `item_len`. -/
def itemLen (s : PlanEncodeSession df) : EncodeItemKind → Except (Halt df) ℕ
  | .scanSpec index => s.orHalt (s.scanSpecLens[index]?.map .ok)
  | .logicalPlanBin => .ok s.logicalPlanLen
  | kind => s.orHalt ((s.itemWrites kind).map (·.map encodedLen))

/-- `encode_item_range`: how much of the slice is written, and the slice. -/
def encodeItemRange (s : PlanEncodeSession df) (kind : EncodeItemKind) (offset : ℕ)
    (out : List UInt8) : Except (Halt df) (ℕ × List UInt8) := do
  let writes ← s.orHalt (s.itemWrites kind)
  let sink := writes.foldl OverlapBufMut.put (.new out offset)
  return (sink.written, sink.out)

/-- `consume_encode_event`. -/
def consumeEncodeEvent (s : PlanEncodeSession df) (event : EncodeEvent) :
    Except (Halt df) (PlanEncodeSession df) :=
  match s.machine.consume event with
  | some machine => .ok { s with machine }
  | none => .error (.error (.stateMachine s.machine event) s)

/-- `current_encode_item_kind`. -/
def currentEncodeItemKind (s : PlanEncodeSession df) : Except (Halt df) EncodeItemKind :=
  match s.machine with
  | .envelopeArrayLen => .ok .envelopeArrayLen
  | .magic => .ok .magic
  | .version => .ok .version
  | .scanSpecsArrayLen => .ok .scanSpecsArrayLen
  | .scanSpecs => .ok (.scanSpec s.scanSpecIndex)
  | .logicalPlanBinLen => .ok .logicalPlanBinLen
  | .logicalPlanBin => .ok .logicalPlanBin
  | _ => .error .panic

/-- `ensure_encode_state_ready` outside of `Start`. -/
def readyItem (s : PlanEncodeSession df) : Except (Halt df) (PlanEncodeSession df) :=
  match s.machine with
  | .failed => .ok { s with activeItem := none }
  | .done => .ok { s with finished := true, activeItem := none }
  | _ =>
    if s.activeItem.isNone then do
      let kind ← s.currentEncodeItemKind
      let len ← s.itemLen kind
      return { s with activeItem := some ⟨kind, len, 0⟩ }
    else .ok s

/-- `ensure_encode_state_ready`, whose loop leaves `Start` at its first turn. -/
def ensureEncodeStateReady (s : PlanEncodeSession df) : Except (Halt df) (PlanEncodeSession df) :=
  if s.machine = .start then do
    let s ← s.consumeEncodeEvent .begin
    s.readyItem
  else s.readyItem

/-- `finish_active_item`. -/
def finishActiveItem (s : PlanEncodeSession df) : Except (Halt df) (PlanEncodeSession df) :=
  match s.activeItem with
  | none => .error .panic
  | some active =>
    let s := { s with activeItem := none }
    match active.kind with
    | .scanSpecsArrayLen =>
      s.consumeEncodeEvent (if s.scanSpecLens = [] then .scanSpecsFinished else .scanSpecsStarted)
    | .scanSpec _ =>
      let s := { s with scanSpecIndex := s.scanSpecIndex + 1 }
      s.consumeEncodeEvent (if s.scanSpecIndex = s.scanSpecLens.length then .scanSpecsFinished
        else .scanSpecFinished)
    | .logicalPlanBin => do
      let s ← s.consumeEncodeEvent .logicalPlanFinished
      return { s with finished := s.machine = .done }
    | _ => s.consumeEncodeEvent .atomFinished

/-- The loop of `write_chunk_inner`, for so many turns. -/
def writeLoop : ℕ → PlanEncodeSession df → List UInt8 → ℕ →
    Except (Halt df) (EncodeProgress × List UInt8 × PlanEncodeSession df)
  | 0, _, _, _ => .error .panic
  | turns + 1, s, out, written => do
    let s ← s.ensureEncodeStateReady
    if s.finished then return (.done written, out, s)
    match s.activeItem with
    | none => .error .panic
    | some item =>
      let (copied, tail) ← s.encodeItemRange item.kind item.emitted (out.drop written)
      let item := { item with emitted := item.emitted + copied }
      let s := { s with activeItem := some item }
      let out := out.take written ++ tail
      let written := written + copied
      if item.emitted = item.len then
        let s ← s.finishActiveItem
        if s.finished then return (.done written, out, s)
        if written = out.length then return (.needMoreOutput written, out, s)
        writeLoop turns s out written
      else return (.needMoreOutput written, out, s)

/-- `write_chunk_inner`. There are six items beside the specifications, and no item takes two
turns of one loop. -/
def writeChunkInner (s : PlanEncodeSession df) (out : List UInt8) :
    Except (Halt df) (EncodeProgress × List UInt8 × PlanEncodeSession df) :=
  writeLoop (s.orderedScanSpecs.length + 6) s out 0

/-- `poison_encode`, for the errors that do poison a session. -/
def poisonEncode (e : EncodeError) (s : PlanEncodeSession df) : PlanEncodeSession df :=
  if s.failed.isSome ∨ s.finished then s
  else { s with
    activeItem := none
    failed := some (s.machine, e)
    machine := (s.machine.consume .fail).getD s.machine }

/-- `write_chunk`: the answer with the output slice, and the session. A slice that an error
leaves half written is not kept, and `none` is a panic. -/
def writeChunk (s : PlanEncodeSession df) (out : List UInt8) :
    Option (Except EncodeError (EncodeProgress × List UInt8) × PlanEncodeSession df) :=
  match s.failed with
  | some (state, reason) => some (.error (.sessionFailed state reason), s)
  | none =>
    if s.finished then some (.ok (.done 0, out), s)
    else if out = [] then some (.error .emptyOutputChunk, s)
    else
      match s.writeChunkInner out with
      | .ok (progress, out, s) => some (.ok (progress, out), s)
      | .error (.error e s) => some (.error e, poisonEncode e s)
      | .error .panic => none

/-- One call per output slice, as long as the calls succeed: the answers, each with the part of
its slice that was written. -/
def writeChunks (s : PlanEncodeSession df) :
    List (List UInt8) → Option (List (EncodeProgress × List UInt8) × PlanEncodeSession df)
  | [] => some ([], s)
  | out :: outs =>
    match s.writeChunk out with
    | some (.ok (progress, out), s) =>
      (s.writeChunks outs).map fun r => ((progress, out.take progress.written) :: r.1, r.2)
    | _ => none

end PlanEncodeSession

/-! ### The items of an envelope -/

/-- What an encoder writes, if it does. -/
def written : Write → List UInt8
  | .ok p => bytes p
  | .error _ => []

lemma writeAll_eq_ok {ws : List Write} {p : List Put} (h : writeAll ws = .ok p) :
    (∀ w ∈ ws, ∃ q, w = .ok q) ∧ bytes p = ws.flatMap written := by
  induction ws generalizing p with
  | nil =>
    obtain rfl := Except.ok.inj h
    exact ⟨fun w hw => (nomatch hw), rfl⟩
  | cons w ws ih =>
    obtain ⟨a, b, rfl, hb, rfl⟩ := writeAll_cons_eq_ok h
    obtain ⟨hok, hbytes⟩ := ih hb
    refine ⟨List.forall_mem_cons.mpr ⟨⟨a, rfl⟩, hok⟩, ?_⟩
    rw [bytes_append, hbytes, List.flatMap_cons]
    rfl

/-- The encoder of an item of an envelope. -/
def itemWrite (env : PlanEnvelope df) : EncodeItemKind → Write
  | .envelopeArrayLen => writeArrayLenTo planCodecEnvelopeLen
  | .magic => writeStringTo planCodecMagic
  | .version => writeWordTo planCodecVersion
  | .scanSpecsArrayLen => writeCountTo env.pgScanSpecs.items.length
      (.tooManyScanSpecs env.pgScanSpecs.items.length)
  | .scanSpec index => (env.pgScanSpecs.items[index]?.map encodePgScanSpecInto).getD (.ok [])
  | .logicalPlanBinLen => writeBinLenTo (bytes (df.planMessage env.logicalPlan)).length
  | .logicalPlanBin => .ok (df.planMessage env.logicalPlan)

/-- The bytes of an item of an envelope. -/
def itemBytes (env : PlanEnvelope df) (kind : EncodeItemKind) : List UInt8 :=
  written (itemWrite env kind)

/-- The specifications from `index` on, and the plan. -/
def itemsFromSpec (env : PlanEnvelope df) (index : ℕ) : List EncodeItemKind :=
  (List.range' index (env.pgScanSpecs.items.length - index)).map .scanSpec ++
    [.logicalPlanBinLen, .logicalPlanBin]

/-- The items that are still to be emitted in a state of the machine. -/
def upcoming (env : PlanEnvelope df) (index : ℕ) : EncodeState → List EncodeItemKind
  | .start => .envelopeArrayLen :: .magic :: .version :: .scanSpecsArrayLen :: itemsFromSpec env 0
  | .envelopeArrayLen =>
    .envelopeArrayLen :: .magic :: .version :: .scanSpecsArrayLen :: itemsFromSpec env 0
  | .magic => .magic :: .version :: .scanSpecsArrayLen :: itemsFromSpec env 0
  | .version => .version :: .scanSpecsArrayLen :: itemsFromSpec env 0
  | .scanSpecsArrayLen => .scanSpecsArrayLen :: itemsFromSpec env 0
  | .scanSpecs => itemsFromSpec env index
  | .logicalPlanBinLen => [.logicalPlanBinLen, .logicalPlanBin]
  | .logicalPlanBin => [.logicalPlanBin]
  | .done => []
  | .failed => []

lemma itemsFromSpec_of_lt {env : PlanEnvelope df} {index : ℕ}
    (h : index < env.pgScanSpecs.items.length) :
    itemsFromSpec env index = .scanSpec index :: itemsFromSpec env (index + 1) := by
  have hcount : env.pgScanSpecs.items.length - index =
      (env.pgScanSpecs.items.length - (index + 1)) + 1 := by omega
  rw [itemsFromSpec, hcount, List.range'_succ, List.map_cons, List.cons_append, itemsFromSpec]

lemma itemsFromSpec_of_le {env : PlanEnvelope df} {index : ℕ}
    (h : env.pgScanSpecs.items.length ≤ index) :
    itemsFromSpec env index = [.logicalPlanBinLen, .logicalPlanBin] := by
  rw [itemsFromSpec, Nat.sub_eq_zero_of_le h]
  rfl

/-- The specifications of the table, as items. -/
lemma flatMap_scanSpec (env : PlanEnvelope df) :
    (List.range' 0 env.pgScanSpecs.items.length).flatMap (fun i => itemBytes env (.scanSpec i)) =
      (env.pgScanSpecs.items.map encodePgScanSpecInto).flatMap written := by
  rw [List.flatMap_map, List.flatMap_def, List.flatMap_def]
  congr 1
  refine List.ext_getElem (by simp) fun i hi _ => ?_
  rw [List.length_map, List.length_range'] at hi
  simp [itemBytes, itemWrite, List.getElem?_eq_getElem hi]

/-- Every item of the envelope can be written. -/
def ItemsWrite (env : PlanEnvelope df) : Prop :=
  ∀ kind ∈ upcoming env 0 .start, ∃ q, itemWrite env kind = .ok q

/-- An envelope that can be encoded: every item can, and all of them together are the
envelope at once. -/
lemma items_of_encodeEnvelopeInto {env : PlanEnvelope df} {p : List Put}
    (h : encodeEnvelopeInto env = .ok p) :
    ItemsWrite env ∧ bytes p = (upcoming env 0 .start).flatMap (itemBytes env) := by
  obtain ⟨hok, hbytes⟩ := writeAll_eq_ok h
  simp only [List.forall_mem_cons] at hok
  obtain ⟨-, -, -, ⟨ps, hspecs⟩, ⟨pb, hplan⟩, -⟩ := hok
  obtain ⟨hspecsOk, hspecsBytes⟩ := writeAll_eq_ok hspecs
  obtain ⟨hplanOk, hplanBytes⟩ := writeAll_eq_ok hplan
  obtain ⟨hcount, hspecsOk⟩ := List.forall_mem_cons.mp hspecsOk
  constructor
  · intro kind hkind
    simp only [upcoming, itemsFromSpec, List.mem_cons, List.mem_append, List.mem_map,
      List.mem_range'_1, List.not_mem_nil, or_false] at hkind
    rcases hkind with rfl | rfl | rfl | rfl | ⟨i, hi, rfl⟩ | rfl | rfl
    · exact ⟨_, rfl⟩
    · exact ⟨_, rfl⟩
    · exact ⟨_, rfl⟩
    · exact hcount
    · have hlt : i < env.pgScanSpecs.items.length := by omega
      rw [itemWrite, List.getElem?_eq_getElem hlt]
      exact hspecsOk _ (List.mem_map_of_mem (List.getElem_mem hlt))
    · exact hplanOk _ List.mem_cons_self
    · exact ⟨_, rfl⟩
  · have hs : written (encodePgScanSpecsInto env.pgScanSpecs) = bytes ps := by rw [hspecs]; rfl
    have hp : written (writeProtobufBinTo df.planMessage env.logicalPlan) = bytes pb := by
      rw [hplan]; rfl
    rw [hbytes]
    simp only [upcoming, itemsFromSpec, List.flatMap_cons, List.flatMap_append, List.flatMap_nil,
      List.flatMap_map, Nat.sub_zero, flatMap_scanSpec, List.append_nil, hs, hp, hspecsBytes,
      hplanBytes, List.append_assoc]
    rfl

/-- No item is empty. -/
lemma itemBytes_ne_nil {env : PlanEnvelope df} {kind : EncodeItemKind}
    (hkind : kind ∈ upcoming env 0 .start) {q : List Put} (hq : itemWrite env kind = .ok q) :
    itemBytes env kind ≠ [] := by
  rw [itemBytes, hq]
  show bytes q ≠ []
  cases kind with
  | envelopeArrayLen | magic | version =>
    obtain rfl := Except.ok.inj hq
    exact List.cons_ne_nil _ _
  | scanSpecsArrayLen =>
    rw [itemWrite, writeCountTo] at hq
    split at hq
    · next hlt =>
        obtain rfl := Except.ok.inj hq
        rw [bytes_marked]
        exact writeLen_ne_nil (lenOf_fits (m := 0xdd) (by decide) hlt)
    · cases hq
  | scanSpec index =>
    have hlt : index < env.pgScanSpecs.items.length := by
      simpa [upcoming, itemsFromSpec, List.mem_range'_1] using hkind
    rw [itemWrite, List.getElem?_eq_getElem hlt] at hq
    obtain ⟨a, b, ha, -, rfl⟩ := writeAll_cons_eq_ok hq
    obtain rfl := Except.ok.inj ha
    exact List.cons_ne_nil _ _
  | logicalPlanBinLen =>
    rw [itemWrite, writeBinLenTo] at hq
    split at hq
    · next hlt =>
        obtain rfl := Except.ok.inj hq
        rw [bytes_marked]
        exact writeLen_ne_nil (lenOf_fits (m := 0xc6) (by decide) hlt)
    · cases hq
  | logicalPlanBin =>
    obtain rfl := Except.ok.inj hq
    exact df.plan_ne_nil _ env.is_set

/-- The encoded lengths of the specifications, if all of them can be encoded. -/
lemma mapM_encodedLen_eq {specs : List (PgScanSpec df)} {lens : List ℕ}
    (h : specs.mapM (fun spec => (encodePgScanSpecInto spec).map encodedLen) = .ok lens) :
    lens = specs.map fun spec => (written (encodePgScanSpecInto spec)).length := by
  induction specs generalizing lens with
  | nil =>
    obtain rfl := Except.ok.inj h
    rfl
  | cons spec specs ih =>
    rw [List.mapM_cons] at h
    obtain ⟨len, hlen, h⟩ := except_bind_eq_ok h
    obtain ⟨rest, hrest, h⟩ := except_bind_eq_ok h
    obtain rfl := Except.ok.inj h
    rw [List.map_cons, ← ih hrest]
    cases hspec : encodePgScanSpecInto spec with
    | error e =>
      rw [hspec] at hlen
      cases hlen
    | ok q =>
      rw [hspec] at hlen
      obtain rfl := Except.ok.inj hlen
      rw [encodedLen_eq]
      rfl

/-! ### Sessions between two calls -/

namespace PlanEncodeSession

/-- The data that a session computes from its envelope at the start. -/
structure Static (env : PlanEnvelope df) (s : PlanEncodeSession df) : Prop where
  envelope : s.envelope = env
  specs : s.orderedScanSpecs = env.pgScanSpecs.items
  lens : s.scanSpecLens =
    env.pgScanSpecs.items.map fun spec => (written (encodePgScanSpecInto spec)).length
  plan_len : s.logicalPlanLen = (bytes (df.planMessage env.logicalPlan)).length

/-- The items that a session has still to emit, the current one among them. -/
def upcoming (env : PlanEnvelope df) (s : PlanEncodeSession df) : List EncodeItemKind :=
  PlanCodec.upcoming env s.scanSpecIndex s.machine

/-- How much of the current item was emitted. -/
def emitted (s : PlanEncodeSession df) : ℕ := (s.activeItem.map ActiveEncodeItem.emitted).getD 0

/-- The bytes that a session has still to emit. -/
def pending (env : PlanEnvelope df) (s : PlanEncodeSession df) : List UInt8 :=
  ((s.upcoming env).flatMap (itemBytes env)).drop s.emitted

/-- A session that has not failed, between two calls. -/
structure Valid (env : PlanEnvelope df) (s : PlanEncodeSession df) : Prop extends Static env s where
  failed : s.failed = none
  live : s.machine ≠ .failed
  finished : s.finished = decide (s.machine = .done)
  index : s.machine = .scanSpecs → s.scanSpecIndex < env.pgScanSpecs.items.length
  index_zero : s.machine ∈ [.start, .envelopeArrayLen, .magic, .version, .scanSpecsArrayLen] →
    s.scanSpecIndex = 0
  active : ∀ item ∈ s.activeItem, s.machine ≠ .start ∧ (s.upcoming env).head? = some item.kind ∧
    item.len = (itemBytes env item.kind).length ∧ item.emitted < item.len

variable {env : PlanEnvelope df} {s : PlanEncodeSession df}

/-- The items that are left are items of the envelope. -/
lemma upcoming_subset (index : ℕ) (machine : EncodeState) :
    PlanCodec.upcoming env index machine ⊆ PlanCodec.upcoming env 0 .start := by
  have hspec : itemsFromSpec env index ⊆ itemsFromSpec env 0 := by
    intro kind hkind
    simp only [itemsFromSpec, List.mem_append, List.mem_map, List.mem_range'_1] at hkind ⊢
    rcases hkind with ⟨i, hi, rfl⟩ | hkind
    · exact Or.inl ⟨i, by omega, rfl⟩
    · exact Or.inr hkind
  have hplan : [.logicalPlanBinLen, .logicalPlanBin] ⊆ itemsFromSpec env 0 :=
    List.subset_append_right _ _
  intro kind hkind
  cases machine with
  | start | envelopeArrayLen => exact hkind
  | magic => exact List.mem_cons_of_mem _ hkind
  | version => exact List.mem_cons_of_mem _ (List.mem_cons_of_mem _ hkind)
  | scanSpecsArrayLen =>
    exact List.mem_cons_of_mem _ (List.mem_cons_of_mem _ (List.mem_cons_of_mem _ hkind))
  | scanSpecs =>
    exact List.mem_cons_of_mem _ (List.mem_cons_of_mem _ (List.mem_cons_of_mem _
      (List.mem_cons_of_mem _ (hspec hkind))))
  | logicalPlanBinLen =>
    exact List.mem_cons_of_mem _ (List.mem_cons_of_mem _ (List.mem_cons_of_mem _
      (List.mem_cons_of_mem _ (hplan hkind))))
  | logicalPlanBin =>
    exact List.mem_cons_of_mem _ (List.mem_cons_of_mem _ (List.mem_cons_of_mem _
      (List.mem_cons_of_mem _ (hplan (List.mem_cons_of_mem _ hkind)))))
  | done | failed => cases hkind

variable {kind : EncodeItemKind}

/-- The session has the encoder of every item of its envelope. -/
lemma Static.itemWrites_eq (h : Static env s) (hkind : kind ∈ PlanCodec.upcoming env 0 .start) :
    s.itemWrites kind = some (itemWrite env kind) := by
  cases kind with
  | envelopeArrayLen | magic | version => rfl
  | scanSpecsArrayLen => rw [itemWrites, itemWrite, h.specs]
  | scanSpec index =>
    have hlt : index < env.pgScanSpecs.items.length := by
      simpa [PlanCodec.upcoming, itemsFromSpec, List.mem_range'_1] using hkind
    rw [itemWrites, itemWrite, h.specs, List.getElem?_eq_getElem hlt]
    rfl
  | logicalPlanBinLen => rw [itemWrites, itemWrite, h.plan_len]
  | logicalPlanBin => rw [itemWrites, itemWrite, h.envelope]

/-- The session knows the length of every item that can be encoded. -/
lemma Static.itemLen_eq (h : Static env s)
    (hkind : kind ∈ PlanCodec.upcoming env 0 .start) {q : List Put}
    (hq : itemWrite env kind = .ok q) :
    s.itemLen kind = .ok (itemBytes env kind).length := by
  have hbytes : itemBytes env kind = bytes q := by rw [itemBytes, hq]; rfl
  have hwrites := h.itemWrites_eq hkind
  rw [hq] at hwrites
  cases kind with
  | envelopeArrayLen | magic | version | scanSpecsArrayLen | logicalPlanBinLen =>
    rw [hbytes, ← encodedLen_eq]
    exact congrArg (fun w => s.orHalt (w.map (·.map encodedLen))) hwrites
  | scanSpec index =>
    have hlt : index < env.pgScanSpecs.items.length := by
      simpa [PlanCodec.upcoming, itemsFromSpec, List.mem_range'_1] using hkind
    rw [itemLen, h.lens, List.getElem?_map, List.getElem?_eq_getElem hlt, itemBytes, itemWrite,
      List.getElem?_eq_getElem hlt]
    rfl
  | logicalPlanBin => rw [itemLen, h.plan_len]; rfl

/-- A session that has moved on to another item. -/
lemma Valid.moved (h : Valid env s) (machine : EncodeState) (index : ℕ) (finished : Bool)
    (hlive : machine ≠ .failed) (hfinished : finished = decide (machine = .done))
    (hindex : machine = .scanSpecs → index < env.pgScanSpecs.items.length)
    (hzero : machine ∈ [.start, .envelopeArrayLen, .magic, .version, .scanSpecsArrayLen] →
      index = 0) :
    Valid env { s with
      activeItem := none
      machine := machine
      scanSpecIndex := index
      finished := finished } where
  envelope := h.envelope
  specs := h.specs
  lens := h.lens
  plan_len := h.plan_len
  failed := h.failed
  live := hlive
  finished := hfinished
  index := hindex
  index_zero := hzero
  active := fun _ hitem => (nomatch hitem)

/-- The current item is the first of those that are left. -/
lemma Valid.current (h : Valid env s) {ks : List EncodeItemKind}
    (hup : s.upcoming env = kind :: ks) (hstart : s.machine ≠ .start) :
    s.currentEncodeItemKind = .ok kind := by
  rw [upcoming] at hup
  rw [currentEncodeItemKind]
  cases hm : s.machine with
  | start => exact absurd hm hstart
  | scanSpecs =>
    rw [hm, PlanCodec.upcoming, itemsFromSpec_of_lt (h.index hm)] at hup
    rw [(List.cons.inj hup).1]
  | envelopeArrayLen | magic | version | scanSpecsArrayLen | logicalPlanBinLen | logicalPlanBin =>
    rw [hm] at hup
    rw [← (List.cons.inj hup).1]
  | done | failed =>
    rw [hm] at hup
    cases hup

/-- Outside of `Start` and `Done` something is left. -/
lemma Valid.upcoming_ne_nil (h : Valid env s) (hdone : s.machine ≠ .done) :
    s.upcoming env ≠ [] := by
  rw [upcoming]
  cases hm : s.machine with
  | done => exact absurd hm hdone
  | failed => exact absurd hm h.live
  | scanSpecs =>
    rw [PlanCodec.upcoming, itemsFromSpec_of_lt (h.index hm)]
    exact List.cons_ne_nil _ _
  | start | envelopeArrayLen | magic | version | scanSpecsArrayLen | logicalPlanBinLen
  | logicalPlanBin => exact List.cons_ne_nil _ _

/-- What `s'` has still to emit is what `s` had, and it has begun with the item `item`. -/
structure Ready (env : PlanEnvelope df) (s s' : PlanEncodeSession df) (item : ActiveEncodeItem) :
    Prop where
  valid : Valid env s'
  machine : s'.machine ≠ .start
  not_done : s'.machine ≠ .done
  item : s'.activeItem = some item
  upcoming : s'.upcoming env = s.upcoming env
  pending : s'.pending env = s.pending env

/-- Outside of `Start` the session takes up the next item, unless it has one. -/
lemma Valid.readyItem (hok : ItemsWrite env) (h : Valid env s)
    (hstart : s.machine ≠ .start) (hdone : s.machine ≠ .done) :
    ∃ s' item, s.readyItem = .ok s' ∧ Ready env s s' item := by
  have hready : s.readyItem = if s.activeItem.isNone then do
        let kind ← s.currentEncodeItemKind
        let len ← s.itemLen kind
        return { s with activeItem := some ⟨kind, len, 0⟩ }
      else .ok s := by
    rw [PlanEncodeSession.readyItem]
    split
    · next hm => exact absurd hm h.live
    · next hm => exact absurd hm hdone
    · rfl
  rw [hready]
  cases hactive : s.activeItem with
  | some item => exact ⟨s, item, rfl, h, hstart, hdone, hactive, rfl, rfl⟩
  | none =>
    obtain ⟨kind, ks, hup⟩ := List.exists_cons_of_ne_nil (h.upcoming_ne_nil hdone)
    have hmem : kind ∈ PlanCodec.upcoming env 0 .start :=
      upcoming_subset _ _ (hup ▸ List.mem_cons_self)
    obtain ⟨q, hq⟩ := hok kind hmem
    have hne := itemBytes_ne_nil hmem hq
    have hlen := h.itemLen_eq hmem hq
    rw [if_pos (by rfl), h.current hup hstart]
    refine ⟨{ s with activeItem := some ⟨kind, (itemBytes env kind).length, 0⟩ },
      ⟨kind, (itemBytes env kind).length, 0⟩, ?_, ?_⟩
    · show (s.itemLen kind).bind _ = _
      rw [hlen]
      rfl
    · refine ⟨⟨⟨h.envelope, h.specs, h.lens, h.plan_len⟩, h.failed, h.live, h.finished, h.index,
        h.index_zero, ?_⟩, hstart, hdone, rfl, rfl, ?_⟩
      · rintro item ⟨⟩
        exact ⟨hstart, congrArg List.head? hup, rfl, List.length_pos_of_ne_nil hne⟩
      · rw [pending, pending, emitted, emitted, hactive]
        rfl

/-- **A session that is not done takes up an item.** -/
lemma Valid.ready (hok : ItemsWrite env) (h : Valid env s) (hdone : s.machine ≠ .done) :
    ∃ s' item, s.ensureEncodeStateReady = .ok s' ∧ Ready env s s' item := by
  rw [ensureEncodeStateReady]
  by_cases hstart : s.machine = .start
  · rw [if_pos hstart]
    have hnone : s.activeItem = none := Option.eq_none_iff_forall_not_mem.mpr fun item hitem =>
      (h.active item hitem).1 hstart
    have hindex := h.index_zero (by rw [hstart]; decide)
    have hbegin : s.consumeEncodeEvent .begin = .ok { s with machine := .envelopeArrayLen } := by
      rw [consumeEncodeEvent, hstart]
      rfl
    have hmoved : Valid env { s with machine := .envelopeArrayLen } := by
      have := h.moved .envelopeArrayLen s.scanSpecIndex s.finished (by decide)
        (by rw [h.finished, hstart]; rfl) (fun hm => (nomatch hm)) fun _ => hindex
      rwa [← hnone] at this
    obtain ⟨s', item, hs', hready⟩ := hmoved.readyItem hok (fun hm => (nomatch hm))
      fun hm => (nomatch hm)
    have hup : PlanEncodeSession.upcoming env { s with machine := .envelopeArrayLen } =
        s.upcoming env := by
      rw [upcoming, upcoming, hstart]
      rfl
    refine ⟨s', item, ?_, hready.valid, hready.machine, hready.not_done, hready.item,
      hready.upcoming.trans hup, hready.pending.trans ?_⟩
    · rw [hbegin]
      exact hs'
    · rw [pending, hup]
      rfl
  · rw [if_neg hstart]
    exact h.readyItem hok hstart hdone

/-- An event that the machine has a transition for. -/
lemma consumeEncodeEvent_eq {event : EncodeEvent} {machine : EncodeState}
    (h : s.machine.consume event = some machine) :
    s.consumeEncodeEvent event = .ok { s with machine := machine } := by
  rw [consumeEncodeEvent, h]

/-- **An item that was emitted leaves the items after it.** -/
lemma Valid.finishItem (h : Valid env s) {item : ActiveEncodeItem} {ks : List EncodeItemKind}
    (hactive : s.activeItem = some item) (hup : s.upcoming env = item.kind :: ks) (e : ℕ) :
    ∃ s', PlanEncodeSession.finishActiveItem
        { s with activeItem := some { item with emitted := e } } = .ok s' ∧
      Valid env s' ∧ s'.activeItem = none ∧ s'.upcoming env = ks := by
  have hlens : s.scanSpecLens.length = env.pgScanSpecs.items.length := by
    rw [h.lens, List.length_map]
  rw [upcoming] at hup
  -- by the state of the machine, which tells the kind of the item
  cases hm : s.machine with
  | start => exact absurd hm (h.active item hactive).1
  | failed => exact absurd hm h.live
  | done => rw [hm] at hup; cases hup
  | envelopeArrayLen =>
    rw [hm] at hup
    obtain ⟨hkind, rfl⟩ := List.cons.inj hup
    refine ⟨_, ?_, h.moved .magic s.scanSpecIndex s.finished (by decide)
      (by rw [h.finished, hm]; rfl) (fun hm => (nomatch hm))
      fun _ => h.index_zero (by rw [hm]; decide), rfl, rfl⟩
    rw [PlanEncodeSession.finishActiveItem]
    simp only [← hkind]
    exact consumeEncodeEvent_eq rfl
  | magic =>
    rw [hm] at hup
    obtain ⟨hkind, rfl⟩ := List.cons.inj hup
    refine ⟨_, ?_, h.moved .version s.scanSpecIndex s.finished (by decide)
      (by rw [h.finished, hm]; rfl) (fun hm => (nomatch hm))
      fun _ => h.index_zero (by rw [hm]; decide), rfl, rfl⟩
    rw [PlanEncodeSession.finishActiveItem]
    simp only [← hkind]
    exact consumeEncodeEvent_eq rfl
  | version =>
    rw [hm] at hup
    obtain ⟨hkind, rfl⟩ := List.cons.inj hup
    refine ⟨_, ?_, h.moved .scanSpecsArrayLen s.scanSpecIndex s.finished (by decide)
      (by rw [h.finished, hm]; rfl) (fun hm => (nomatch hm))
      fun _ => h.index_zero (by rw [hm]; decide), rfl, rfl⟩
    rw [PlanEncodeSession.finishActiveItem]
    simp only [← hkind]
    exact consumeEncodeEvent_eq rfl
  | scanSpecsArrayLen =>
    rw [hm] at hup
    obtain ⟨hkind, rfl⟩ := List.cons.inj hup
    have hzero := h.index_zero (by rw [hm]; decide)
    by_cases hnil : s.scanSpecLens = []
    · have hcount : env.pgScanSpecs.items.length = 0 := by rw [← hlens, hnil]; rfl
      refine ⟨_, ?_, h.moved .logicalPlanBinLen s.scanSpecIndex s.finished (by decide)
        (by rw [h.finished, hm]; rfl) (fun hm => (nomatch hm)) (fun hm => absurd hm (by decide)),
          rfl,
        (itemsFromSpec_of_le hcount.le).symm⟩
      rw [PlanEncodeSession.finishActiveItem]
      simp only [← hkind, if_pos hnil]
      exact consumeEncodeEvent_eq rfl
    · have hcount : s.scanSpecIndex < env.pgScanSpecs.items.length := by
        rw [hzero, ← hlens]
        exact List.length_pos_of_ne_nil hnil
      refine ⟨_, ?_, h.moved .scanSpecs s.scanSpecIndex s.finished (by decide)
        (by rw [h.finished, hm]; rfl) (fun _ => hcount) (fun hm => absurd hm (by decide)), rfl,
        congrArg (itemsFromSpec env) hzero⟩
      rw [PlanEncodeSession.finishActiveItem]
      simp only [← hkind, if_neg hnil]
      exact consumeEncodeEvent_eq rfl
  | scanSpecs =>
    rw [hm, PlanCodec.upcoming, itemsFromSpec_of_lt (h.index hm)] at hup
    obtain ⟨hkind, rfl⟩ := List.cons.inj hup
    have hlt := h.index hm
    by_cases hlast : s.scanSpecIndex + 1 = s.scanSpecLens.length
    · refine ⟨_, ?_, h.moved .logicalPlanBinLen (s.scanSpecIndex + 1) s.finished (by decide)
        (by rw [h.finished, hm]; rfl) (fun hm => (nomatch hm)) (fun hm => absurd hm (by decide)),
          rfl,
        (itemsFromSpec_of_le (by omega)).symm⟩
      rw [PlanEncodeSession.finishActiveItem]
      simp only [← hkind, if_pos hlast]
      exact consumeEncodeEvent_eq rfl
    · refine ⟨_, ?_, h.moved .scanSpecs (s.scanSpecIndex + 1) s.finished (by decide)
        (by rw [h.finished, hm]) (fun _ => by omega) (fun hm => absurd hm (by decide)), rfl, rfl⟩
      rw [PlanEncodeSession.finishActiveItem]
      simp only [← hkind, if_neg hlast]
      exact consumeEncodeEvent_eq rfl
  | logicalPlanBinLen =>
    rw [hm] at hup
    obtain ⟨hkind, rfl⟩ := List.cons.inj hup
    refine ⟨_, ?_, h.moved .logicalPlanBin s.scanSpecIndex s.finished (by decide)
      (by rw [h.finished, hm]; rfl) (fun hm => (nomatch hm)) (fun hm => absurd hm (by decide)), rfl,
        rfl⟩
    rw [PlanEncodeSession.finishActiveItem]
    simp only [← hkind]
    exact consumeEncodeEvent_eq rfl
  | logicalPlanBin =>
    rw [hm] at hup
    obtain ⟨hkind, rfl⟩ := List.cons.inj hup
    refine ⟨_, ?_, h.moved .done s.scanSpecIndex true (by decide) rfl (fun hm => (nomatch hm))
      (fun hm => absurd hm (by decide)), rfl, rfl⟩
    rw [PlanEncodeSession.finishActiveItem]
    simp only [← hkind]
    rfl

/-! ### A call -/

open OverlapBufMut (window shows_new shows_write)

/-- A part of an item, written to the free part of a slice. -/
lemma Static.encodeItemRange_eq (h : Static env s)
    (hkind : kind ∈ PlanCodec.upcoming env 0 .start) {q : List Put}
    (hq : itemWrite env kind = .ok q) (offset : ℕ) (out : List UInt8) :
    s.encodeItemRange kind offset out =
      .ok ((window offset out.length (itemBytes env kind)).length,
        window offset out.length (itemBytes env kind) ++
          out.drop (window offset out.length (itemBytes env kind)).length) := by
  have hbytes : itemBytes env kind = bytes q := by rw [itemBytes, hq]; rfl
  have hshows := shows_write (shows_new out offset) q
  rw [List.nil_append, ← hbytes] at hshows
  rw [encodeItemRange, h.itemWrites_eq hkind, hq]
  show Except.ok (_, _) = _
  rw [hshows.out, hshows.written]

/-- A session that is done has nothing left to emit, and no other. -/
lemma Valid.pending_eq_nil_iff (hok : ItemsWrite env) (h : Valid env s) :
    s.pending env = [] ↔ s.machine = .done := by
  constructor
  · intro hnil
    by_contra hdone
    obtain ⟨kind, ks, hup⟩ := List.exists_cons_of_ne_nil (h.upcoming_ne_nil hdone)
    have hmem : kind ∈ PlanCodec.upcoming env 0 .start :=
      upcoming_subset _ _ (hup ▸ List.mem_cons_self)
    obtain ⟨q, hq⟩ := hok kind hmem
    have hpos := List.length_pos_of_ne_nil (itemBytes_ne_nil hmem hq)
    rw [pending, hup, List.flatMap_cons, List.drop_eq_nil_iff, List.length_append, emitted] at hnil
    cases hactive : s.activeItem with
    | none =>
      rw [hactive] at hnil
      simp only [Option.map_none, Option.getD_none] at hnil
      omega
    | some item =>
      obtain ⟨-, hhead, hlen, hlt⟩ := h.active item hactive
      rw [hup, List.head?_cons, Option.some.injEq] at hhead
      rw [hactive, Option.map_some, Option.getD_some] at hnil
      rw [← hhead] at hlen
      omega
  · intro hdone
    rw [pending, upcoming, hdone]
    exact List.drop_nil

/-- What a call does that finds `written` bytes of its slice taken: it emits the pending bytes
that fit into the rest of the slice. -/
structure Emits (env : PlanEnvelope df) (s : PlanEncodeSession df) (out : List UInt8) (written : ℕ)
    (progress : EncodeProgress) (out' : List UInt8) (s' : PlanEncodeSession df) : Prop where
  answer : progress = if (s.pending env).length ≤ out.length - written then
    .done (written + (s.pending env).length) else .needMoreOutput out.length
  chunk : out'.take progress.written = out.take written ++
    (s.pending env).take (out.length - written)
  valid : Valid env s'
  pending : s'.pending env = (s.pending env).drop (out.length - written)

/-- **The loop of a call emits what fits.** -/
lemma Valid.writeLoop (hok : ItemsWrite env) (turns : ℕ) (h : Valid env s)
    (hdone : s.machine ≠ .done) (out : List UInt8) (written : ℕ)
    (hroom : written < out.length) (hturns : (s.upcoming env).length ≤ turns) :
    ∃ progress out' s', PlanEncodeSession.writeLoop turns s out written = .ok (progress, out', s') ∧
      Emits env s out written progress out' s' := by
  induction turns generalizing s out written with
  | zero => exact absurd (List.length_eq_zero_iff.mp (by omega)) (h.upcoming_ne_nil hdone)
  | succ turns ih =>
    obtain ⟨s₁, item, hs₁, hready⟩ := h.ready hok hdone
    have hfinished : s₁.finished = false := by
      rw [hready.valid.finished]
      exact decide_eq_false hready.not_done
    obtain ⟨-, hhead, hlen, hlt⟩ := hready.valid.active item hready.item
    obtain ⟨ks, hup⟩ := List.head?_eq_some_iff.mp hhead
    have hmem : item.kind ∈ PlanCodec.upcoming env 0 .start :=
      upcoming_subset _ _ (hup ▸ List.mem_cons_self)
    obtain ⟨q, hq⟩ := hok item.kind hmem
    -- the rest of the item, and what of it the slice takes
    obtain ⟨piece, hpiece⟩ : ∃ piece, piece = (itemBytes env item.kind).drop item.emitted :=
      ⟨_, rfl⟩
    have hlenPiece : piece.length = item.len - item.emitted := by
      rw [hpiece, List.length_drop, hlen]
    have hemitted : s₁.emitted = item.emitted := by rw [emitted, hready.item]; rfl
    have hpending : s.pending env = piece ++ ks.flatMap (itemBytes env) := by
      rw [← hready.pending, pending, hup, List.flatMap_cons, hemitted, hpiece,
        List.drop_append_of_le_length (by omega)]
    have hrange := hready.valid.encodeItemRange_eq hmem hq item.emitted (out.drop written)
    rw [window, ← hpiece, List.length_drop] at hrange
    obtain ⟨got, hgot⟩ : ∃ got, got = piece.take (out.length - written) := ⟨_, rfl⟩
    have hlenGot : got.length = min (out.length - written) piece.length := by
      rw [hgot, List.length_take]
    rw [← hgot, List.drop_drop] at hrange
    have hout : (out.take written ++ (got ++ out.drop (written + got.length))).length =
        out.length := by
      simp only [List.length_append, List.length_take, List.length_drop]
      omega
    have htake : (out.take written ++ (got ++ out.drop (written + got.length))).take
        (written + got.length) = out.take written ++ got := by
      rw [← List.append_assoc, List.take_left' (by simp; omega)]
    simp only [PlanEncodeSession.writeLoop, hs₁, hready.item, hrange, hout, bind, Except.bind, pure,
      Except.pure]
    rw [if_neg (by rw [hfinished]; decide)]
    by_cases hall : item.emitted + got.length = item.len
    · -- the item is finished
      rw [if_pos hall]
      obtain ⟨s₂, hs₂, hvalid, hnone, hup₂⟩ :=
        hready.valid.finishItem hready.item hup (item.emitted + got.length)
      have hgotAll : got = piece := by
        rw [hgot]
        exact List.take_of_length_le (by omega)
      have hpending₂ : s₂.pending env = ks.flatMap (itemBytes env) := by
        rw [pending, hup₂, emitted, hnone]
        rfl
      have hnil := hvalid.pending_eq_nil_iff hok
      simp only [hs₂]
      by_cases hdone₂ : s₂.machine = .done
      · rw [hvalid.finished, if_pos (decide_eq_true hdone₂)]
        rw [← hpending₂, hnil.mpr hdone₂, List.append_nil] at hpending
        refine ⟨_, _, _, rfl, ?_, ?_, hvalid, ?_⟩
        · rw [hpending, if_pos (by omega), hgotAll]
        · rw [EncodeProgress.written, htake, hpending, hgot]
        · rw [hnil.mpr hdone₂, hpending, List.drop_eq_nil_of_le (by omega)]
      · have hrest := List.length_pos_of_ne_nil (mt hnil.mp hdone₂)
        rw [hpending₂] at hrest
        rw [hvalid.finished, if_neg (by rw [decide_eq_false hdone₂]; decide)]
        by_cases hfull : written + got.length = out.length
        · rw [if_pos hfull]
          refine ⟨_, _, _, rfl, ?_, ?_, hvalid, ?_⟩
          · rw [hpending, List.length_append, if_neg (by omega), hfull]
          · rw [EncodeProgress.written, htake, hpending, hgotAll,
              List.take_left' (by omega)]
          · rw [hpending₂, hpending, List.drop_left' (by omega)]
        · rw [if_neg hfull]
          have hks : ks.length ≤ turns := by
            rw [← hready.upcoming, hup, List.length_cons] at hturns
            omega
          obtain ⟨progress, out', s', hloop, hemits⟩ := ih hvalid hdone₂
            (out.take written ++ (got ++ out.drop (written + got.length))) (written + got.length)
            (by omega) (by rw [hup₂]; exact hks)
          refine ⟨progress, out', s', hloop, ?_, ?_, hemits.valid, ?_⟩
          · rw [hemits.answer, hout, hpending₂, hpending, List.length_append]
            by_cases hfits :
              (ks.flatMap (itemBytes env)).length ≤ out.length - (written + got.length)
            · rw [if_pos hfits, if_pos (by omega), hgotAll, Nat.add_assoc]
            · rw [if_neg hfits, if_neg (by omega)]
          · rw [hemits.chunk, htake, hout, hpending₂, hpending, List.take_append,
              List.take_of_length_le (show piece.length ≤ out.length - written by omega), hgotAll,
              List.append_assoc, Nat.sub_add_eq]
          · rw [hemits.pending, hout, hpending₂, hpending, List.drop_append,
              List.drop_eq_nil_of_le (show piece.length ≤ out.length - written by omega),
              List.nil_append, hgotAll, Nat.sub_add_eq]
    · -- the slice is full
      rw [if_neg hall]
      have hfull : written + got.length = out.length := by omega
      refine ⟨_, _, _, rfl, ?_, ?_, ?_, ?_⟩
      · rw [hpending, List.length_append, if_neg (by omega), hfull]
      · rw [EncodeProgress.written, htake, hpending, List.take_append_of_le_length (by omega), hgot]
      · exact ⟨⟨hready.valid.envelope, hready.valid.specs, hready.valid.lens,
          hready.valid.plan_len⟩, hready.valid.failed, hready.valid.live, hready.valid.finished,
          hready.valid.index, hready.valid.index_zero, by
            rintro _ ⟨⟩
            exact ⟨hready.machine, hhead, hlen, show item.emitted + got.length < item.len by omega⟩⟩
      · have hmoved : (s₁.upcoming env).flatMap (itemBytes env) =
            itemBytes env item.kind ++ ks.flatMap (itemBytes env) := by
          rw [hup, List.flatMap_cons]
        show (List.flatMap (itemBytes env) (s₁.upcoming env)).drop (item.emitted + got.length) = _
        rw [hmoved, List.drop_append_of_le_length (by omega), hpending, ← List.drop_drop,
          ← hpiece, List.drop_append_of_le_length (by omega)]
        congr 2
        omega

/-- A loop of as many turns as a call has is long enough. -/
lemma length_upcoming_le (env : PlanEnvelope df) (index : ℕ) (machine : EncodeState) :
    (PlanCodec.upcoming env index machine).length ≤ env.pgScanSpecs.items.length + 6 := by
  cases machine <;> (simp [PlanCodec.upcoming, itemsFromSpec]; try omega)

/-- **A call emits the pending bytes that fit into its slice.** -/
lemma Valid.writeChunk (hok : ItemsWrite env) (h : Valid env s) {out : List UInt8}
    (hout : out ≠ []) :
    ∃ progress out' s', s.writeChunk out = some (.ok (progress, out'), s') ∧
      Emits env s out 0 progress out' s' := by
  have hnil := h.pending_eq_nil_iff hok
  rw [PlanEncodeSession.writeChunk, h.failed, h.finished]
  by_cases hdone : s.machine = .done
  · refine ⟨.done 0, out, s, ?_, ?_, ?_, h, ?_⟩
    · exact if_pos (decide_eq_true hdone)
    · rw [hnil.mpr hdone]
      exact (if_pos (Nat.zero_le _)).symm
    · rw [hnil.mpr hdone, List.take_nil]
      rfl
    · rw [hnil.mpr hdone, List.drop_nil]
  · obtain ⟨progress, out', s', hloop, hemits⟩ :=
      h.writeLoop hok (s.orderedScanSpecs.length + 6) hdone
      out 0 (List.length_pos_of_ne_nil hout) (by rw [h.specs]; exact length_upcoming_le _ _ _)
    refine ⟨progress, out', s', ?_, hemits⟩
    simp only [decide_eq_false hdone, Bool.false_eq_true, if_false, if_neg hout,
      writeChunkInner, hloop]

/-- What the calls of a session emit of the bytes `b`: in order, as much as the slices take, with
no empty chunk before the end, and the end reported where it is. -/
structure Streams (b : List UInt8) (room : ℕ) (calls : List (EncodeProgress × List UInt8)) :
    Prop where
  chunks : calls.flatMap Prod.snd = b.take room
  ne_nil : ∀ n call, calls[n]? = some call → (calls.take n).flatMap Prod.snd ≠ b → call.2 ≠ []
  done_iff : ∀ n call, calls[n]? = some call →
    ((∃ written, call.1 = .done written) ↔ (calls.take (n + 1)).flatMap Prod.snd = b)

/-- One call more. -/
lemma Streams.cons {b out out' : List UInt8} {room : ℕ} {progress : EncodeProgress}
    {calls : List (EncodeProgress × List UInt8)} (hout : out ≠ [])
    (hanswer : progress = if b.length ≤ out.length then .done b.length
      else .needMoreOutput out.length)
    (hchunk : out'.take progress.written = b.take out.length)
    (h : Streams (b.drop out.length) room calls) :
    Streams b (out.length + room) ((progress, out'.take progress.written) :: calls) := by
  have hpos := List.length_pos_of_ne_nil hout
  have hsplit : ∀ rest, b.take out.length ++ rest = b ↔ rest = b.drop out.length := fun rest => by
    nth_rewrite 2 [← List.take_append_drop out.length b]
    exact List.append_right_inj _
  rw [hchunk]
  refine ⟨?_, ?_, ?_⟩
  · rw [List.flatMap_cons, h.chunks, List.take_add]
  · intro n call hcall hrest
    cases n with
    | zero =>
      obtain rfl := Option.some.inj hcall
      intro htake
      rcases List.take_eq_nil_iff.mp htake with hzero | hnil
      · omega
      · exact hrest hnil.symm
    | succ n =>
      refine h.ne_nil n call hcall fun hall => hrest ?_
      rw [List.take_succ_cons, List.flatMap_cons]
      exact (hsplit _).mpr hall
  · intro n call hcall
    cases n with
    | zero =>
      obtain rfl := Option.some.inj hcall
      rw [List.take_succ_cons, List.take_zero, List.flatMap_cons, List.flatMap_nil, List.append_nil,
        List.take_eq_self_iff, hanswer]
      by_cases hfits : b.length ≤ out.length
      · simp [hfits]
      · simp [hfits]
    | succ n =>
      rw [List.take_succ_cons, List.flatMap_cons, hsplit]
      exact h.done_iff n call hcall

/-- All calls of a session. -/
lemma Valid.writeChunks (hok : ItemsWrite env) (h : Valid env s)
    (outs : List (List UInt8)) (houts : ∀ out ∈ outs, out ≠ []) :
    ∃ calls s', s.writeChunks outs = some (calls, s') ∧ calls.length = outs.length ∧
      Streams (s.pending env) outs.flatten.length calls := by
  induction outs generalizing s with
  | nil =>
    exact ⟨[], s, rfl, rfl, rfl, fun n call hcall => (nomatch hcall), fun n call hcall =>
      (nomatch hcall)⟩
  | cons out outs ih =>
    obtain ⟨hout, houts⟩ := List.forall_mem_cons.mp houts
    obtain ⟨progress, out', s', hcall, hemits⟩ := h.writeChunk hok hout
    obtain ⟨calls, s'', hcalls, hlen, hstreams⟩ := ih hemits.valid houts
    refine ⟨(progress, out'.take progress.written) :: calls, s'', ?_, congrArg (· + 1) hlen, ?_⟩
    · rw [PlanEncodeSession.writeChunks, hcall]
      simp only [hcalls]
      rfl
    · have hanswer := hemits.answer
      have hchunk := hemits.chunk
      rw [Nat.sub_zero, Nat.zero_add] at hanswer
      rw [Nat.sub_zero, List.take_zero, List.nil_append] at hchunk
      rw [hemits.pending, Nat.sub_zero] at hstreams
      rw [List.flatten_cons, List.length_append]
      exact hstreams.cons hout hanswer hchunk

/-! ### A whole session -/

/-- A new session has everything still to emit. -/
lemma valid_new {plan : LogicalPlan df} (h : new plan = .ok s) :
    Valid s.envelope s ∧ s.pending s.envelope =
      (PlanCodec.upcoming s.envelope 0 .start).flatMap (itemBytes s.envelope) := by
  rw [new] at h
  obtain ⟨env, -, h⟩ := except_bind_eq_ok h
  obtain ⟨lens, hlens, h⟩ := except_bind_eq_ok h
  obtain rfl := Except.ok.inj h
  refine ⟨⟨⟨rfl, rfl, ?_, rfl⟩, rfl, fun hm => (nomatch hm), rfl, fun hm => (nomatch hm),
    fun _ => rfl, fun _ hitem => (nomatch hitem)⟩, rfl⟩
  exact mapM_encodedLen_eq hlens

/-- **The chunk sizes do not matter.** Whatever the lengths of the output slices are, the calls of a
session succeed; their chunks are, one after the other, the beginning of the encoding of the
envelope at once, as long as the slices together; no chunk is empty before the end, and a call
reports the end exactly if nothing is left. -/
theorem plan_encoding_ignores_chunk_sizes (plan : LogicalPlan df) {session : PlanEncodeSession df}
    (hnew : new plan = .ok session) {p : List Put}
    (hp : encodeEnvelopeInto session.envelope = .ok p)
    (outs : List (List UInt8)) (houts : ∀ out ∈ outs, out ≠ []) :
    ∃ calls session', session.writeChunks outs = some (calls, session') ∧
      calls.length = outs.length ∧
      calls.flatMap Prod.snd = (bytes p).take outs.flatten.length ∧
      (∀ n call, calls[n]? = some call → (calls.take n).flatMap Prod.snd ≠ bytes p → call.2 ≠ []) ∧
      ∀ n call, calls[n]? = some call →
        ((∃ written, call.1 = .done written) ↔ (calls.take (n + 1)).flatMap Prod.snd =
          bytes p) := by
  obtain ⟨hok, hbytes⟩ := items_of_encodeEnvelopeInto hp
  obtain ⟨hvalid, hpending⟩ := valid_new hnew
  obtain ⟨calls, session', hcalls, hlen, hstreams⟩ := hvalid.writeChunks hok outs houts
  rw [hpending, ← hbytes] at hstreams
  exact ⟨calls, session', hcalls, hlen, hstreams.chunks, hstreams.ne_nil, hstreams.done_iff⟩

/-- A sample of DataFusion in which every message is two bytes long. -/
def sealedMessages : DataFusion where
  Expr := Unit
  ExprNode := Unit
  Schema := Unit
  SchemaNode := Unit
  Op := Unit
  OpNode := Unit
  exprMessage := fun _ => [.slice [10, 0]]
  schemaMessage := fun _ => [.slice [10, 0]]
  planMessage := fun _ => [.slice [10], .buf [0]]
  serializeExpr := .ok
  schemaToProto := .ok
  serializeOp := .ok
  fieldCount := fun _ => 0
  plan_ne_nil := fun _ _ => List.cons_ne_nil _ _

/-- A scan of the table `t`. -/
def scanOfT : LogicalPlan sealedMessages :=
  .pgScan ⟨7, 16384, ⟨none, "t"⟩, ⟨"SELECT FROM t", none, none, [], [], [], [], [], [], true, true⟩,
    ⟨none, none⟩, (), rfl⟩

/-- A session for a scan of a table, which is given slices of one, three and a hundred bytes. -/
theorem plan_encoding_of_scanOfT :
    ∃ session p, new scanOfT = .ok session ∧ encodeEnvelopeInto session.envelope = .ok p ∧
      (∀ out ∈ [[0], [0, 0, 0], List.replicate 100 0], out ≠ ([] : List UInt8)) ∧
      ∃ calls session', session.writeChunks [[0], [0, 0, 0], List.replicate 100 0] =
          some (calls, session') ∧
        calls.length = 3 ∧ calls.flatMap Prod.snd = (bytes p).take 104 ∧
        (∀ n call, calls[n]? = some call → (calls.take n).flatMap Prod.snd ≠ bytes p →
          call.2 ≠ []) ∧
        ∀ n call, calls[n]? = some call →
          ((∃ written, call.1 = .done written) ↔ (calls.take (n + 1)).flatMap Prod.snd = bytes p) :=
  ⟨_, _, rfl, rfl, by decide,
    plan_encoding_ignores_chunk_sizes scanOfT rfl rfl [[0], [0, 0, 0], List.replicate 100 0]
      (by decide)⟩

end PlanEncodeSession

end PgFusion.PlanCodec

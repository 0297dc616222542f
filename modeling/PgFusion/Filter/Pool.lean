import Mathlib.Tactic
import PgFusion.Interleave.Program
import PgFusion.Filter.Bloom

/-!
The runtime-filter pool of `runtime/filter/src/pool.rs`. A builder claims a free slot, fills its
filter and publishes it, probers take references to the slots of a scan, and whoever drops the last
reference after the builder has left frees the slot.

The last two fields of `PoolSlot` are history, which no program reads.
-/

namespace PgFusion.Filter

/-! ### The shared words and their accesses -/

/-- `SLOT_FREE`, `SLOT_ALLOCATED` and `SLOT_RETIRING`. -/
inductive SlotState where
  | free | allocated | retiring
deriving DecidableEq

/-- The words of a slot that are only stored and loaded. -/
inductive Field where
  | generation | sessionEpoch | scanId | outputColumn | keyType
deriving DecidableEq

/-- `u32::MAX`, the largest reference count. -/
@[irreducible] def maxRefs : ℕ := 4294967295

/-- The accesses of a pool, each on one slot. An exchange of the header carries
the hashes that the caller has inserted. -/
inductive FilterOp where
  | casState (i : ℕ) (old new : SlotState)
  | loadState (i : ℕ)
  | storeState (i : ℕ) (s : SlotState)
  | storeRefs (i n : ℕ)
  | addRef (i : ℕ)
  | subRef (i : ℕ)
  | loadField (i : ℕ) (f : Field)
  | storeField (i : ℕ) (f : Field) (v : ℕ)
  | loadHeader (i : ℕ)
  | casHeader (i : ℕ) (old new : LifecycleSnapshot) (inserted : List UInt64)
  | loadWord (i w : ℕ)
  | orWord (i w : ℕ) (mask : UInt64)
  | storeWord (i w : ℕ) (v : UInt64)

/-- The shared words of a slot, with their history. -/
structure PoolSlot where
  state : SlotState
  refs : ℕ
  field : Field → ℕ
  header : LifecycleSnapshot
  bits : ℕ → UInt64
  holds : Multiset ℕ
  published : ℕ → List UInt64

/-- The accesses of a pool and what they return; an exchange of the header
returns what it found, if that was not what it expected. -/
def filterAccess : Access where
  Op := FilterOp
  Res
    | .casState .. => Bool
    | .loadState _ => SlotState
    | .subRef _ | .loadField .. => ℕ
    | .loadHeader _ => LifecycleSnapshot
    | .casHeader .. => Option LifecycleSnapshot
    | .loadWord .. => UInt64
    | .storeState .. | .storeRefs .. | .addRef _ | .storeField .. | .orWord .. | .storeWord .. =>
      Unit

/-- The slot that an access is on. -/
def FilterOp.slot : FilterOp → ℕ
  | casState i .. | loadState i | storeState i _ | storeRefs i _ | addRef i | subRef i
  | loadField i _ | storeField i .. | loadHeader i | casHeader i .. | loadWord i _ | orWord i ..
  | storeWord i .. => i

/-- What an access by process `p` returns and does to its slot. -/
def PoolSlot.exec (p : ℕ) : (op : FilterOp) → PoolSlot → filterAccess.Res op × PoolSlot
  | .casState _ old new, s =>
    if s.state = old then (true, { s with state := new }) else (false, s)
  | .loadState _, s => (s.state, s)
  | .storeState _ new, s => ((), { s with state := new })
  | .storeRefs _ n, s => ((), { s with refs := n, holds := Multiset.replicate n p })
  | .addRef _, s => ((), { s with
      refs := if s.refs = maxRefs then 0 else s.refs + 1
      holds := p ::ₘ s.holds })
  | .subRef _, s => (s.refs, { s with
      refs := if s.refs = 0 then maxRefs else s.refs - 1
      holds := s.holds.erase p })
  | .loadField _ f, s => (s.field f, s)
  | .storeField _ f v, s => ((), { s with field := Function.update s.field f v })
  | .loadHeader _, s => (s.header, s)
  | .casHeader _ old new inserted, s =>
    if s.header = old then
      (none, { s with
        header := new
        published := if new.state = .ready then
            Function.update s.published new.generation inserted
          else s.published })
    else (some s.header, s)
  | .loadWord _ w, s => (s.bits w, s)
  | .orWord _ w mask, s => ((), { s with bits := Function.update s.bits w (s.bits w ||| mask) })
  | .storeWord _ w v, s => ((), { s with bits := Function.update s.bits w v })

/-- What an access does to the pool. -/
def poolExec (p : ℕ) (op : FilterOp) (x : ℕ → PoolSlot) : filterAccess.Res op × (ℕ → PoolSlot) :=
  (((x op.slot).exec p op).1, Function.update x op.slot ((x op.slot).exec p op).2)

/-! ### The operations -/

/-- One access of the pool, as a program. -/
def onPool (op : FilterOp) : Prog filterAccess (filterAccess.Res op) :=
  Prog.perform (A := filterAccess) op

def casState (i : ℕ) (old new : SlotState) : Prog filterAccess Bool := onPool (.casState i old new)

def loadState (i : ℕ) : Prog filterAccess SlotState := onPool (.loadState i)

def storeState (i : ℕ) (s : SlotState) : Prog filterAccess Unit := onPool (.storeState i s)

def storeRefs (i n : ℕ) : Prog filterAccess Unit := onPool (.storeRefs i n)

def addRef (i : ℕ) : Prog filterAccess Unit := onPool (.addRef i)

def subRef (i : ℕ) : Prog filterAccess ℕ := onPool (.subRef i)

def loadField (i : ℕ) (f : Field) : Prog filterAccess ℕ := onPool (.loadField i f)

def storeField (i : ℕ) (f : Field) (v : ℕ) : Prog filterAccess Unit := onPool (.storeField i f v)

def loadHeader (i : ℕ) : Prog filterAccess LifecycleSnapshot := onPool (.loadHeader i)

def casHeader (i : ℕ) (old new : LifecycleSnapshot) (inserted : List UInt64) :
    Prog filterAccess (Option LifecycleSnapshot) := onPool (.casHeader i old new inserted)

def loadWord (i w : ℕ) : Prog filterAccess UInt64 := onPool (.loadWord i w)

def orWord (i w : ℕ) (mask : UInt64) : Prog filterAccess Unit := onPool (.orWord i w mask)

def storeWord (i w : ℕ) (v : UInt64) : Prog filterAccess Unit := onPool (.storeWord i w v)

/-- `RuntimeFilterPoolConfig`. -/
structure PoolConfig where
  slotCount : ℕ
  params : BloomParams

/-- `RuntimeFilterTarget`. -/
structure Target where
  sessionEpoch : ℕ
  scanId : ℕ
  outputColumn : ℕ
  keyType : ℕ
deriving DecidableEq

/-- `RuntimeFilterBuildHandle`; `inserted` is history, the hashes inserted so far. -/
structure BuildHandle where
  slotIndex : ℕ
  generation : ℕ
  inserted : List UInt64
deriving DecidableEq

/-- `RuntimeFilterProbeHandle`. -/
structure ProbeHandle where
  slotIndex : ℕ
  generation : ℕ
  outputColumn : ℕ
  keyType : ℕ
deriving DecidableEq

/-- `RuntimeFilterKeyType::from_raw` accepts the fourteen key types. -/
def keyTypeKnown (raw : ℕ) : Bool := 1 ≤ raw && raw ≤ 14

/-- `AtomicBloomRef::clear`, from the given words on. -/
def clearWords (i : ℕ) : List ℕ → Prog filterAccess Unit
  | [] => pure ()
  | w :: ws => do
    storeWord i w 0
    clearWords i ws

/-- `AtomicBloomRef::insert_hash`, for the given hash indices. -/
def insertBits (params : BloomParams) (i : ℕ) (hash : UInt64) : List ℕ → Prog filterAccess Unit
  | [] => pure ()
  | k :: ks => do
    orWord i (params.wordMask hash k).1 (params.wordMask hash k).2
    insertBits params i hash ks

/-- `AtomicBloomRef::might_contain_hash`, for the given hash indices. -/
def mightContain (params : BloomParams) (i : ℕ) (hash : UInt64) : List ℕ → Prog filterAccess Bool
  | [] => pure true
  | k :: ks => do
    if (← loadWord i (params.wordMask hash k).1) &&& (params.wordMask hash k).2 = 0 then
      return false
    mightContain params i hash ks

/-- One round of `RuntimeFilterSlot::try_acquire_builder`. -/
def tryAcquireRound (params : BloomParams) (i : ℕ) :
    Prog filterAccess (Unit ⊕ Except LifecycleError ℕ) := do
  let current ← loadHeader i
  if current.state = .building ∨ current.state = .ready then
    return .inr (.error (.busy current))
  let nextGeneration := current.generation + 1
  if nextGeneration > maxGeneration then
    return .inr (.error (.generationExhausted current.generation))
  match ← casHeader i current ⟨nextGeneration, .building⟩ [] with
  | none =>
    clearWords i (List.range params.wordCount)
    return .inr (.ok nextGeneration)
  | some _ => return .inl ()

/-- `RuntimeFilterSlot::try_acquire_builder`. -/
def tryAcquireBuilder (params : BloomParams) (i : ℕ) :
    Prog filterAccess (Except LifecycleError ℕ) :=
  .repeatFrom () fun _ => tryAcquireRound params i

/-- `transition_build`. -/
def transitionBuild (i generation : ℕ) (next : RuntimeFilterState) (inserted : List UInt64) :
    Prog filterAccess (Except LifecycleError Unit) := do
  match ← casHeader i ⟨generation, .building⟩ ⟨generation, next⟩ inserted with
  | none => return .ok ()
  | some actual => return .error (.invalidTransition ⟨generation, .building⟩ actual)

/-- `retire_ready_after_quiescence`. -/
def retireReadyAfterQuiescence (i generation : ℕ) :
    Prog filterAccess (Except LifecycleError Unit) := do
  match ← casHeader i ⟨generation, .ready⟩ ⟨generation, .disabled⟩ [] with
  | none => return .ok ()
  | some actual => return .error (.invalidTransition ⟨generation, .ready⟩ actual)

/-- `RuntimeFilterPool::allocate_build`, over the slots that are left to try. -/
def allocateFrom (params : BloomParams) (target : Target) :
    List ℕ → Prog filterAccess (Except LifecycleError (Option BuildHandle))
  | [] => return .ok none
  | i :: is => do
    if ← casState i .free .allocated then
      storeRefs i 1
      storeField i .sessionEpoch target.sessionEpoch
      storeField i .scanId target.scanId
      storeField i .outputColumn target.outputColumn
      storeField i .keyType target.keyType
      match ← tryAcquireBuilder params i with
      | .ok generation =>
        storeField i .generation generation
        return .ok (some ⟨i, generation, []⟩)
      | .error e =>
        storeRefs i 0
        storeState i .free
        return .error e
    else
      allocateFrom params target is

/-- `RuntimeFilterPool::allocate_build`. -/
def allocateBuild (config : PoolConfig) (target : Target) :
    Prog filterAccess (Except LifecycleError (Option BuildHandle)) :=
  allocateFrom config.params target (List.range config.slotCount)

/-- The end of `RuntimeFilterPool::release_ref`: the last reference is gone and
the slot is retiring. -/
def retireSlot (i : ℕ) : Prog filterAccess Unit := do
  let generation ← loadField i .generation
  match (← loadHeader i).state with
  | .ready =>
    let _ ← retireReadyAfterQuiescence i generation
  | .building =>
    let _ ← transitionBuild i generation .disabled []
  | .free | .disabled => pure ()
  storeField i .sessionEpoch 0
  storeField i .scanId 0
  storeField i .outputColumn 0
  storeField i .keyType 0
  storeField i .generation 0
  storeState i .free

/-- `RuntimeFilterPool::release_ref`. -/
def releaseRef (i : ℕ) : Prog filterAccess Unit := do
  let oldRefs ← subRef i
  if oldRefs = 1 then
    if (← loadState i) = .retiring then
      retireSlot i

/-- `RuntimeFilterPool::release_owner`. -/
def releaseOwner (i : ℕ) : Prog filterAccess Unit := do
  let _ ← casState i .allocated .retiring
  releaseRef i

/-- The recheck of `RuntimeFilterPool::lookup_probes`, once it has a reference. -/
def stillMatches (i sessionEpoch scanId : ℕ) : Prog filterAccess Bool := do
  if (← loadState i) = .allocated then
    if (← loadField i .sessionEpoch) = sessionEpoch then
      return decide ((← loadField i .scanId) = scanId)
    else return false
  else return false

/-- `RuntimeFilterPool::lookup_probes`, over the slots that are left to look at. -/
def lookupFrom (sessionEpoch scanId : ℕ) : List ℕ → Prog filterAccess (List ProbeHandle)
  | [] => return []
  | i :: is => do
    if (← loadState i) = .allocated then
      addRef i
      if ← stillMatches i sessionEpoch scanId then
        let keyType ← loadField i .keyType
        if keyTypeKnown keyType then
          let generation ← loadField i .generation
          let outputColumn ← loadField i .outputColumn
          let probes ← lookupFrom sessionEpoch scanId is
          return ⟨i, generation, outputColumn, keyType⟩ :: probes
        else
          releaseRef i
          lookupFrom sessionEpoch scanId is
      else
        releaseRef i
        lookupFrom sessionEpoch scanId is
    else
      lookupFrom sessionEpoch scanId is

/-- `RuntimeFilterPool::lookup_probes`. -/
def lookupProbes (config : PoolConfig) (sessionEpoch scanId : ℕ) :
    Prog filterAccess (List ProbeHandle) :=
  lookupFrom sessionEpoch scanId (List.range config.slotCount)

/-- `RuntimeFilterBuildHandle::insert_hash`. -/
def insertHash (params : BloomParams) (b : BuildHandle) (hash : UInt64) :
    Prog filterAccess Unit := do
  let snapshot ← loadHeader b.slotIndex
  if snapshot.generation = b.generation ∧ snapshot.state = .building then
    insertBits params b.slotIndex hash (List.range params.hashCount)

/-- `RuntimeFilterBuildHandle::publish_ready`. -/
def publishReady (b : BuildHandle) : Prog filterAccess (Except LifecycleError Unit) :=
  transitionBuild b.slotIndex b.generation .ready b.inserted

/-- `RuntimeFilterBuildHandle::disable_build`. -/
def disableBuild (b : BuildHandle) : Prog filterAccess (Except LifecycleError Unit) :=
  transitionBuild b.slotIndex b.generation .disabled []

/-- `RuntimeFilterProbe::decision_for_hash`. -/
def decisionForHash (params : BloomParams) (h : ProbeHandle) (hash : UInt64) :
    Prog filterAccess ProbeDecision := do
  let snapshot ← loadHeader h.slotIndex
  if snapshot.generation ≠ h.generation ∨ snapshot.state ≠ .ready then
    return .passUnfiltered
  if ← mightContain params h.slotIndex hash (List.range params.hashCount) then
    return .maybePresent
  return .definitelyAbsent

/-! ### Builders and probers -/

/-- The pool, as a machine. -/
def poolMachine : Machine filterAccess where
  Mem := ℕ → PoolSlot
  exec := poolExec

/-- What a process has between calls: its handles, and its last decision with the
handle and the hash it was asked about. -/
structure FilterClient where
  build : Option BuildHandle
  probes : List ProbeHandle
  decision : Option (ProbeHandle × UInt64 × ProbeDecision)
deriving DecidableEq

/-- The calls of a process. -/
inductive FilterCall where
  | allocate (target : Target)
  | insert (hash : UInt64)
  | publish
  | disable
  | dropBuild
  | lookup (sessionEpoch scanId : ℕ)
  | decide (k : ℕ) (hash : UInt64)
  | dropProbe (k : ℕ)

/-- What each call does to the process's handles. -/
def runCall (config : PoolConfig) (cl : FilterClient) :
    FilterCall → Option (Prog filterAccess FilterClient)
  | .allocate target =>
    match cl.build with
    | some _ => none
    | none => some do
        match ← allocateBuild config target with
        | .ok b => return { cl with build := b }
        | .error _ => return cl
  | .insert hash => cl.build.map fun b => do
    insertHash config.params b hash
    return { cl with build := some { b with inserted := hash :: b.inserted } }
  | .publish => cl.build.map fun b => do
    let _ ← publishReady b
    return cl
  | .disable => cl.build.map fun b => do
    let _ ← disableBuild b
    return cl
  | .dropBuild => cl.build.map fun b => do
    releaseOwner b.slotIndex
    return { cl with build := none }
  | .lookup sessionEpoch scanId => some do
      let probes ← lookupProbes config sessionEpoch scanId
      return { cl with probes := probes ++ cl.probes }
  | .decide k hash => cl.probes[k]?.map fun h => do
    let d ← decisionForHash config.params h hash
    return { cl with decision := some (h, hash, d) }
  | .dropProbe k => cl.probes[k]?.map fun h => do
    releaseRef h.slotIndex
    return { cl with probes := cl.probes.eraseIdx k }

/-- Processes that build and probe. -/
def poolSystem (config : PoolConfig) : System poolMachine where
  Client := FilterClient
  Call := FilterCall
  Env := Empty
  start x _ cl call := (runCall config cl call).map fun prog => (x, prog)
  env e := e.elim
  live _ _ := true

instance (config : PoolConfig) : DecidableEq (poolSystem config).Client :=
  inferInstanceAs (DecidableEq FilterClient)

/-- `RuntimeFilterPool::init_in_place`. -/
def poolStart (config : PoolConfig) : Config (poolSystem config) where
  mem _ := {
    state := .free, refs := 0, field := fun _ => 0, header := ⟨0, .free⟩, bits := fun _ => 0
    holds := 0, published := fun _ => [] }
  thread _ := .ret ⟨none, [], none⟩

/-! ### A pool of one slot -/

/-- One slot with a filter of one word and one hash function. -/
def oneSlot : PoolConfig where
  slotCount := 1
  params := ⟨64, 1, 0, by decide, by decide, by unfold usizeValues; decide⟩

/-- Process `p` begins a call and makes `k` steps of it. -/
def poolCallFor (p k : ℕ) (call : FilterCall) : List (Action (poolSystem oneSlot)) :=
  .call p call :: List.replicate k (.step p)

end PgFusion.Filter

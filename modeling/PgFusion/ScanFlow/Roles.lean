import PgFusion.Issuance.Endpoint

/-!
The worker role and the coordinator of `page/scan_flow/src/{types,fsm,worker,backend}.rs`. A result
of `none` is a panic: an `unwrap` of a transition that does not exist, or an `expect` of a runtime
that is not there.
-/

namespace PgFusion.ScanFlow

open Issuance (IssuancePool IssuedOwnedFrame IssuedReceivedPage IssuedRxError Shared)

open Transfer (PoolHandle RxInner)

/-! ### Types -/

/-- `FlowId`. -/
structure FlowId where
  sessionEpoch : ℕ
  scanId : ℕ
deriving DecidableEq

/-- `ProducerRoleKind`. -/
inductive ProducerRoleKind where
  | leader | worker
deriving DecidableEq

/-- `ProducerDescriptor`. -/
structure ProducerDescriptor where
  producerId : ℕ
  role : ProducerRoleKind
deriving DecidableEq

/-- `ScanOpen`. -/
structure ScanOpen where
  flow : FlowId
  pageKind : ℕ
  pageFlags : ℕ
  producers : List ProducerDescriptor
deriving DecidableEq

/-- `ScanOpenError`. -/
inductive ScanOpenError where
  | emptyProducerSet
  | duplicateProducerId (producerId : ℕ)
  | multipleLeaders
deriving DecidableEq

/-- The loop of `ScanOpen::validate`, with the producers before the current one. -/
def validateProducers (before : List ProducerDescriptor) (leaderSeen : Bool) :
    List ProducerDescriptor → Except ScanOpenError Unit
  | [] => .ok ()
  | producer :: rest =>
    if producer.role = .leader ∧ leaderSeen then .error .multipleLeaders
    else if before.any fun other => other.producerId = producer.producerId then
      .error (.duplicateProducerId producer.producerId)
    else validateProducers (before ++ [producer]) (leaderSeen || producer.role = .leader) rest

/-- `ScanOpen::validate`. -/
def ScanOpen.validate (scan : ScanOpen) : Except ScanOpenError Unit :=
  if scan.producers.isEmpty then .error .emptyProducerSet
  else validateProducers [] false scan.producers

/-- `LogicalTerminal`. -/
inductive LogicalTerminal where
  | logicalEof (flow : FlowId)
  | logicalError (flow : FlowId) (producerId : ℕ) (message : String)
deriving DecidableEq

/-- `ProducerTerminalState`. -/
inductive ProducerTerminalState where
  | active | eof | failed
deriving DecidableEq

/-- `WorkerProducer` and `CoordinatorProducer`. -/
structure Producer where
  producerId : ℕ
  state : ProducerTerminalState
deriving DecidableEq

/-- The declared producers at the start of a scan. -/
def declare (producers : List ProducerDescriptor) : List Producer :=
  producers.map fun producer => ⟨producer.producerId, .active⟩

/-- The first producer with an id. -/
def find (producerId : ℕ) (producers : List Producer) : Option Producer :=
  producers.find? fun producer => producer.producerId = producerId

/-- The producers with a new state of the first one with an id. -/
def setState (producerId : ℕ) (state : ProducerTerminalState) : List Producer → List Producer
  | [] => []
  | producer :: rest =>
    if producer.producerId = producerId then { producer with state := state } :: rest
    else producer :: setState producerId state rest

section Table

variable {producerId : ℕ} {ps : List Producer} {p : Producer}

lemma find_eq_some (h : find producerId ps = some p) : p ∈ ps ∧ p.producerId = producerId :=
  ⟨List.mem_of_find?_eq_some h, by simpa using List.find?_some h⟩

lemma find_eq_none (h : find producerId ps = none) : producerId ∉ ps.map Producer.producerId := by
  intro hm
  obtain ⟨p, hp, he⟩ := List.mem_map.mp hm
  have hnone := List.find?_eq_none.mp h p hp
  simp [he] at hnone

lemma map_setState (st : ProducerTerminalState) :
    (setState producerId st ps).map Producer.producerId = ps.map Producer.producerId := by
  induction ps with
  | nil => rfl
  | cons q ps ih =>
    rw [setState]
    split
    · rfl
    · simp [ih]

/-- A new state of a producer leaves the others as they are. -/
lemma mem_setState {st : ProducerTerminalState} (hnd : (ps.map Producer.producerId).Nodup)
    (h : p ∈ setState producerId st ps) :
    (p.producerId = producerId ∧ p.state = st) ∨ (p.producerId ≠ producerId ∧ p ∈ ps) := by
  induction ps with
  | nil => cases h
  | cons q ps ih =>
    rw [List.map_cons, List.nodup_cons] at hnd
    rw [setState] at h
    split at h
    · next hq =>
        obtain rfl | h := List.mem_cons.mp h
        · exact Or.inl ⟨hq, rfl⟩
        · refine Or.inr ⟨fun he => hnd.1 ?_, List.mem_cons_of_mem _ h⟩
          exact List.mem_map.mpr ⟨p, h, he.trans hq.symm⟩
    · next hq =>
        obtain rfl | h := List.mem_cons.mp h
        · exact Or.inr ⟨hq, List.mem_cons_self⟩
        · exact (ih hnd.2 h).imp id fun hp => ⟨hp.1, List.mem_cons_of_mem _ hp.2⟩

/-- No two producers of an accepted set have the same id. -/
lemma validateProducers_ok {before rest : List ProducerDescriptor} {leaderSeen : Bool}
    (h : validateProducers before leaderSeen rest = .ok ()) :
    (∀ p ∈ rest, ∀ q ∈ before, q.producerId ≠ p.producerId) ∧
      (rest.map ProducerDescriptor.producerId).Nodup := by
  induction rest generalizing before leaderSeen with
  | nil => exact ⟨fun _ hp => absurd hp List.not_mem_nil, List.nodup_nil⟩
  | cons p rest ih =>
    rw [validateProducers] at h
    split at h
    · cases h
    split at h
    · cases h
    next hfresh =>
    obtain ⟨hapart, hnd⟩ := ih h
    refine ⟨fun p' hp' q hq => ?_, List.nodup_cons.mpr ⟨fun hm => ?_, hnd⟩⟩
    · obtain rfl | hp' := List.mem_cons.mp hp'
      · intro he
        exact hfresh (List.any_eq_true.mpr ⟨q, hq, by simpa using he⟩)
      · exact hapart p' hp' q (List.mem_append_left _ hq)
    · obtain ⟨p', hp', he⟩ := List.mem_map.mp hm
      exact hapart p' hp' p (List.mem_append_right _ List.mem_cons_self) he.symm

lemma ScanOpen.nodup_of_validate {scan : ScanOpen} (h : scan.validate = .ok ()) :
    (scan.producers.map ProducerDescriptor.producerId).Nodup := by
  rw [ScanOpen.validate] at h
  split at h
  · cases h
  · exact (validateProducers_ok h).2

lemma map_declare (producers : List ProducerDescriptor) :
    (declare producers).map Producer.producerId = producers.map ProducerDescriptor.producerId := by
  simp [declare, Function.comp_def]

end Table

/-! ### The worker role -/

/-- `WorkerScanState`. -/
inductive WorkerScanState where
  | closed | opened | streaming | closeTerminal
deriving DecidableEq

/-- `WorkerScanEvent`. -/
inductive WorkerScanEvent where
  | open | acceptPage | observeProducerEof | observeLogicalEof | observeProducerError | close
deriving DecidableEq

/-- The state machine `worker_scan_flow`. -/
def WorkerScanState.consume : WorkerScanState → WorkerScanEvent → Option WorkerScanState
  | .closed, .open => some .opened
  | .opened, .acceptPage => some .streaming
  | .opened, .observeProducerEof => some .opened
  | .opened, .observeLogicalEof => some .closeTerminal
  | .opened, .observeProducerError => some .closeTerminal
  | .streaming, .acceptPage => some .streaming
  | .streaming, .observeProducerEof => some .streaming
  | .streaming, .observeLogicalEof => some .closeTerminal
  | .streaming, .observeProducerError => some .closeTerminal
  | .closeTerminal, .close => some .closed
  | _, _ => none

/-- `WorkerRoleError`. -/
inductive WorkerRoleError where
  | invalidScanOpen (err : ScanOpenError)
  | invalidState (action : String) (state : WorkerScanState)
  | unexpectedFlow (expected actual : FlowId)
  | unknownProducer (producerId : ℕ)
  | producerAlreadyTerminal (producerId : ℕ)
  | ingress (err : IssuedRxError)
deriving DecidableEq

/-- The message of a logical error: what a producer has reported, or what the worker has
found. The source formats the latter into a text. -/
inductive FailureMessage where
  | reported (message : String)
  | unexpectedEnvelope (kind flags producerId expectedKind expectedFlags : ℕ)
  | closeFrame
  | acceptFailed (err : IssuedRxError)
deriving DecidableEq

/-- `WorkerStep`. -/
inductive WorkerStep where
  | idle
  | page (flow : FlowId) (producerId : ℕ) (page : IssuedReceivedPage)
  | logicalEof (flow : FlowId)
  | logicalError (flow : FlowId) (producerId : ℕ) (message : FailureMessage)
deriving DecidableEq

/-- `WorkerRuntime`. -/
structure WorkerRuntime where
  flow : FlowId
  pageKind : ℕ
  pageFlags : ℕ
  producers : List Producer
deriving DecidableEq

/-- `WorkerScanRole`. -/
structure WorkerScanRole where
  machine : WorkerScanState
  runtime : Option WorkerRuntime
deriving DecidableEq

/-- `is_ingress_error`. -/
def isIngressError : IssuedRxError → Bool
  | .permitPoolMismatch .. => true
  | .rx .busy | .rx .closed | .rx (.access _) | .rx (.release _)
  | .rx (.unexpectedTransferId ..) => true
  | .rx (.invalidPage _) | .rx (.decode _) | .permitRelease _ | .rxAndPermitRelease .. => false
  | .unreachable => false

/-- `maybe_drain_rejected_page_frame`. -/
def maybeDrainRejectedPageFrame (pool : PoolHandle) (permits : IssuancePool)
    (frame : IssuedOwnedFrame) (rx : RxInner) (sh : Shared) :
    Except WorkerRoleError Unit × RxInner × Shared :=
  match frame with
  | .close _ => (.ok (), rx, sh)
  | .page _ =>
    match Issuance.accept pool permits frame rx sh with
    | (.ok (.page page), rx, sh) => (.ok (), rx, page.drop pool permits sh)
    | (.ok .closed, rx, sh) => (.ok (), rx, sh)
    | (.error err, rx, sh) => (.error (.ingress err), rx, sh)

namespace WorkerScanRole

/-- `WorkerScanRole::new`. -/
def new : WorkerScanRole := ⟨.closed, none⟩

/-- `WorkerScanRole::open`. -/
def «open» (scan : ScanOpen) (r : WorkerScanRole) :
    Option (Except WorkerRoleError Unit × WorkerScanRole) :=
  if r.machine ≠ .closed then some (.error (.invalidState "open" r.machine), r)
  else
    match scan.validate with
    | .error err => some (.error (.invalidScanOpen err), r)
    | .ok _ =>
      (r.machine.consume .open).map fun machine =>
        (.ok (), ⟨machine, some ⟨scan.flow, scan.pageKind, scan.pageFlags, declare scan.producers⟩⟩)

/-- The checks with which `accept_page_frame`, `accept_producer_eof` and
`accept_producer_error` begin: the machine is running, `validate_active_flow`, and the
producer is declared and active. -/
def checkCall (action : String) (flow : FlowId) (producerId : ℕ) (r : WorkerScanRole) :
    Option (Except WorkerRoleError WorkerRuntime) :=
  match r.machine with
  | .closeTerminal | .closed => some (.error (.invalidState action r.machine))
  | .opened | .streaming =>
    r.runtime.map fun runtime =>
      if runtime.flow ≠ flow then .error (.unexpectedFlow runtime.flow flow)
      else
        match find producerId runtime.producers with
        | none => .error (.unknownProducer producerId)
        | some producer =>
          if producer.state = .active then .ok runtime
          else .error (.producerAlreadyTerminal producerId)

/-- `WorkerScanRole::fail_logical`. -/
def failLogical (flow : FlowId) (producerId : ℕ) (message : FailureMessage) (r : WorkerScanRole) :
    Option (WorkerStep × WorkerScanRole) :=
  r.runtime.bind fun runtime =>
    let producers :=
      match find producerId runtime.producers with
      | some producer =>
        if producer.state = .active then setState producerId .failed runtime.producers
        else runtime.producers
      | none => runtime.producers
    (r.machine.consume .observeProducerError).map fun machine =>
      (.logicalError flow producerId message,
        ⟨machine, some { runtime with producers := producers }⟩)

/-- A page frame is rejected: it is drained, and the error is returned unless the draining
fails. -/
def rejectPageFrame (err : WorkerRoleError) (pool : PoolHandle) (permits : IssuancePool)
    (frame : IssuedOwnedFrame) (r : WorkerScanRole) (rx : RxInner) (sh : Shared) :
    Except WorkerRoleError WorkerStep × WorkerScanRole × RxInner × Shared :=
  match maybeDrainRejectedPageFrame pool permits frame rx sh with
  | (.error ingress, rx, sh) => (.error ingress, r, rx, sh)
  | (.ok _, rx, sh) => (.error err, r, rx, sh)

/-- What `accept_page_frame` does with a frame of an active producer. -/
def takePageFrame (flow : FlowId) (producerId : ℕ) (runtime : WorkerRuntime) (pool : PoolHandle)
    (permits : IssuancePool) (frame : IssuedOwnedFrame) (r : WorkerScanRole) (rx : RxInner)
    (sh : Shared) :
    Option (Except WorkerRoleError WorkerStep × WorkerScanRole × RxInner × Shared) :=
  match Issuance.accept pool permits frame rx sh with
  | (.ok (.page page), rx, sh) =>
    if page.page.kind ≠ runtime.pageKind ∨ page.page.flags ≠ runtime.pageFlags then
      (r.failLogical flow producerId (.unexpectedEnvelope page.page.kind page.page.flags producerId
        runtime.pageKind runtime.pageFlags)).map fun (step, r) =>
          (.ok step, r, rx, page.drop pool permits sh)
    else
      (r.machine.consume .acceptPage).map fun machine =>
        (.ok (.page flow producerId page), { r with machine := machine }, rx, sh)
  | (.ok .closed, rx, sh) =>
    (r.failLogical flow producerId .closeFrame).map fun (step, r) => (.ok step, r, rx, sh)
  | (.error err, rx, sh) =>
    if isIngressError err then some (.error (.ingress err), r, rx, sh)
    else
      (r.failLogical flow producerId (.acceptFailed err)).map fun (step, r) => (.ok step, r, rx, sh)

/-- `WorkerScanRole::accept_page_frame`. -/
def acceptPageFrame (flow : FlowId) (producerId : ℕ) (pool : PoolHandle) (permits : IssuancePool)
    (frame : IssuedOwnedFrame) (r : WorkerScanRole) (rx : RxInner) (sh : Shared) :
    Option (Except WorkerRoleError WorkerStep × WorkerScanRole × RxInner × Shared) :=
  (r.checkCall "accept page frame" flow producerId).bind fun
    | .error err => some (r.rejectPageFrame err pool permits frame rx sh)
    | .ok runtime => r.takePageFrame flow producerId runtime pool permits frame rx sh

/-- `WorkerScanRole::accept_producer_eof`. -/
def acceptProducerEof (flow : FlowId) (producerId : ℕ) (r : WorkerScanRole) :
    Option (Except WorkerRoleError WorkerStep × WorkerScanRole) :=
  (r.checkCall "accept producer eof" flow producerId).bind fun
    | .error err => some (.error err, r)
    | .ok runtime =>
      let producers := setState producerId .eof runtime.producers
      let runtime := { runtime with producers := producers }
      if producers.all fun producer => producer.state = .eof then
        (r.machine.consume .observeLogicalEof).map fun machine =>
          (.ok (.logicalEof flow), ⟨machine, some runtime⟩)
      else
        (r.machine.consume .observeProducerEof).map fun machine =>
          (.ok .idle, ⟨machine, some runtime⟩)

/-- `WorkerScanRole::accept_producer_error`. -/
def acceptProducerError (flow : FlowId) (producerId : ℕ) (message : String) (r : WorkerScanRole) :
    Option (Except WorkerRoleError WorkerStep × WorkerScanRole) :=
  (r.checkCall "accept producer error" flow producerId).bind fun
    | .error err => some (.error err, r)
    | .ok _ =>
      (r.failLogical flow producerId (.reported message)).map fun (step, r) => (.ok step, r)

/-- `WorkerScanRole::close`. -/
def close (r : WorkerScanRole) : Option (Except WorkerRoleError Unit × WorkerScanRole) :=
  if r.machine ≠ .closeTerminal then some (.error (.invalidState "close" r.machine), r)
  else (r.machine.consume .close).map fun machine => (.ok (), ⟨machine, none⟩)

/-- `WorkerScanRole::abort`. -/
def abort (_ : WorkerScanRole) : WorkerScanRole := new

end WorkerScanRole

/-! ### The coordinator -/

/-- `BackendCoordinatorState`. -/
inductive BackendCoordinatorState where
  | closed | opened | running | closeTerminal
deriving DecidableEq

/-- `BackendCoordinatorEvent`. -/
inductive BackendCoordinatorEvent where
  | open | observeProducerEof | observeLogicalEof | observeProducerError | close
deriving DecidableEq

/-- The state machine `backend_coordinator_flow`. -/
def BackendCoordinatorState.consume :
    BackendCoordinatorState → BackendCoordinatorEvent → Option BackendCoordinatorState
  | .closed, .open => some .opened
  | .opened, .observeProducerEof => some .running
  | .opened, .observeLogicalEof => some .closeTerminal
  | .opened, .observeProducerError => some .closeTerminal
  | .running, .observeProducerEof => some .running
  | .running, .observeLogicalEof => some .closeTerminal
  | .running, .observeProducerError => some .closeTerminal
  | .closeTerminal, .close => some .closed
  | _, _ => none

/-- `BackendCoordinatorError`. -/
inductive BackendCoordinatorError where
  | invalidScanOpen (err : ScanOpenError)
  | invalidState (action : String) (state : BackendCoordinatorState)
  | unexpectedFlow (expected actual : FlowId)
  | unknownProducer (producerId : ℕ)
  | producerAlreadyTerminal (producerId : ℕ)
deriving DecidableEq

/-- `CoordinatorRuntime`. -/
structure CoordinatorRuntime where
  flow : FlowId
  producers : List Producer
deriving DecidableEq

/-- `BackendScanCoordinator`. -/
structure BackendScanCoordinator where
  machine : BackendCoordinatorState
  runtime : Option CoordinatorRuntime
deriving DecidableEq

namespace BackendScanCoordinator

/-- `BackendScanCoordinator::new`. -/
def new : BackendScanCoordinator := ⟨.closed, none⟩

/-- `BackendScanCoordinator::open`. -/
def «open» (scan : ScanOpen) (c : BackendScanCoordinator) :
    Option (Except BackendCoordinatorError Unit × BackendScanCoordinator) :=
  if c.machine ≠ .closed then some (.error (.invalidState "open" c.machine), c)
  else
    match scan.validate with
    | .error err => some (.error (.invalidScanOpen err), c)
    | .ok _ =>
      (c.machine.consume .open).map fun machine =>
        (.ok (), ⟨machine, some ⟨scan.flow, declare scan.producers⟩⟩)

/-- The checks with which `accept_producer_eof` and `accept_producer_error` begin. -/
def checkCall (action : String) (flow : FlowId) (producerId : ℕ) (c : BackendScanCoordinator) :
    Option (Except BackendCoordinatorError CoordinatorRuntime) :=
  match c.machine with
  | .closeTerminal | .closed => some (.error (.invalidState action c.machine))
  | .opened | .running =>
    c.runtime.map fun runtime =>
      if runtime.flow ≠ flow then .error (.unexpectedFlow runtime.flow flow)
      else
        match find producerId runtime.producers with
        | none => .error (.unknownProducer producerId)
        | some producer =>
          if producer.state = .active then .ok runtime
          else .error (.producerAlreadyTerminal producerId)

/-- `BackendScanCoordinator::accept_producer_eof`. -/
def acceptProducerEof (flow : FlowId) (producerId : ℕ) (c : BackendScanCoordinator) :
    Option (Except BackendCoordinatorError (Option LogicalTerminal) × BackendScanCoordinator) :=
  (c.checkCall "accept producer eof" flow producerId).bind fun
    | .error err => some (.error err, c)
    | .ok runtime =>
      let producers := setState producerId .eof runtime.producers
      let runtime := { runtime with producers := producers }
      if producers.all fun producer => producer.state = .eof then
        (c.machine.consume .observeLogicalEof).map fun machine =>
          (.ok (some (.logicalEof flow)), ⟨machine, some runtime⟩)
      else
        (c.machine.consume .observeProducerEof).map fun machine =>
          (.ok none, ⟨machine, some runtime⟩)

/-- `BackendScanCoordinator::accept_producer_error`. -/
def acceptProducerError (flow : FlowId) (producerId : ℕ) (message : String)
    (c : BackendScanCoordinator) :
    Option (Except BackendCoordinatorError LogicalTerminal × BackendScanCoordinator) :=
  (c.checkCall "accept producer error" flow producerId).bind fun
    | .error err => some (.error err, c)
    | .ok runtime =>
      (c.machine.consume .observeProducerError).map fun machine =>
        (.ok (.logicalError flow producerId message), ⟨machine, some { runtime with
          producers := setState producerId .failed runtime.producers }⟩)

/-- `BackendScanCoordinator::close`. -/
def close (c : BackendScanCoordinator) :
    Option (Except BackendCoordinatorError Unit × BackendScanCoordinator) :=
  if c.machine ≠ .closeTerminal then some (.error (.invalidState "close" c.machine), c)
  else (c.machine.consume .close).map fun machine => (.ok (), ⟨machine, none⟩)

/-- `BackendScanCoordinator::abort`. -/
def abort (_ : BackendScanCoordinator) : BackendScanCoordinator := new

end BackendScanCoordinator

end PgFusion.ScanFlow

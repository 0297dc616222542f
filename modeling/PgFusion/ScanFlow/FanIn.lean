import PgFusion.ScanFlow.Roles

/-!
Logical scans end correctly. What the answers of the worker role should be is said in terms of the
calls and the answers so far: which scan is open, which producers have ended, and whether the scan
has.

* `Tracks.answered`: every answer is `Proper`;
* `logical_scan_fans_in`: for every list of calls, without a panic.
-/

namespace PgFusion.ScanFlow

open Issuance (IssuancePool IssuedOwnedFrame IssuedRxError IssueEvent Shared)

open Transfer (PoolHandle RxInner)

/-! ### Calls and their answers -/

/-- A frame, and the receiver and the memory it is presented with. -/
structure Ingress where
  pool : PoolHandle
  permits : IssuancePool
  frame : IssuedOwnedFrame
  rx : RxInner
  sh : Shared

/-- What the receiver says to the frame. -/
def Ingress.result (ingress : Ingress) : Except IssuedRxError IssueEvent :=
  (Issuance.accept ingress.pool ingress.permits ingress.frame ingress.rx ingress.sh).1

/-- The frame is not a page of the scan: it is a page with another envelope, or no page, or
its page cannot be read. -/
def Ingress.Bad (scan : ScanOpen) (ingress : Ingress) : Prop :=
  match ingress.result with
  | .ok (.page page) => page.page.kind ≠ scan.pageKind ∨ page.page.flags ≠ scan.pageFlags
  | .ok .closed => True
  | .error err => isIngressError err = false

/-- The calls of a role. -/
inductive RoleCall where
  | open (scan : ScanOpen)
  | acceptPageFrame (flow : FlowId) (producerId : ℕ) (ingress : Ingress)
  | acceptProducerEof (flow : FlowId) (producerId : ℕ)
  | acceptProducerError (flow : FlowId) (producerId : ℕ) (message : String)
  | close
  | abort

/-- The answer to a call. -/
inductive Reply where
  | unit (r : Except WorkerRoleError Unit)
  | step (r : Except WorkerRoleError WorkerStep)
deriving DecidableEq

/-- The answer ends the scan. -/
def Reply.isTerminal : Reply → Bool
  | .step (.ok (.logicalEof _)) | .step (.ok (.logicalError ..)) => true
  | _ => false

/-- A call of the worker role. -/
def WorkerScanRole.call (r : WorkerScanRole) : RoleCall → Option (Reply × WorkerScanRole)
  | .open scan => (r.open scan).map fun x => (.unit x.1, x.2)
  | .acceptPageFrame flow producerId ingress =>
    (r.acceptPageFrame flow producerId ingress.pool ingress.permits ingress.frame ingress.rx
      ingress.sh).map fun x => (.step x.1, x.2.1)
  | .acceptProducerEof flow producerId =>
    (r.acceptProducerEof flow producerId).map fun x => (.step x.1, x.2)
  | .acceptProducerError flow producerId message =>
    (r.acceptProducerError flow producerId message).map fun x => (.step x.1, x.2)
  | .close => r.close.map fun x => (.unit x.1, x.2)
  | .abort => some (.unit (.ok ()), r.abort)

/-- A sequence of calls, with the answers to them; none if one of them panics. -/
def WorkerScanRole.replay :
    WorkerScanRole → List RoleCall → Option (List (RoleCall × Reply) × WorkerScanRole)
  | r, [] => some ([], r)
  | r, c :: cs => do
    let (reply, r) ← r.call c
    let (trace, r) ← r.replay cs
    return ((c, reply) :: trace, r)

/-! ### What the answers should be -/

/-- The scan that is open, and the calls since the last scan was opened with their
answers. -/
structure History where
  scan : Option ScanOpen
  since : List (RoleCall × Reply)

namespace History

/-- One more call. -/
def push (h : History) (c : RoleCall) (reply : Reply) : History :=
  match c, reply with
  | .open scan, .unit (.ok _) => ⟨some scan, []⟩
  | .close, .unit (.ok _) | .abort, _ => ⟨none, h.since ++ [(c, reply)]⟩
  | _, _ => { h with since := h.since ++ [(c, reply)] }

/-- The history of a sequence of calls. -/
def of (trace : List (RoleCall × Reply)) : History :=
  trace.foldl (fun h e => h.push e.1 e.2) ⟨none, []⟩

/-- The call is an EOF of the producer that was accepted. -/
def isEof (producerId : ℕ) : RoleCall × Reply → Bool
  | (.acceptProducerEof _ id, .step (.ok _)) => id = producerId
  | _ => false

/-- How many EOFs of a producer have been accepted. -/
def eofs (h : History) (producerId : ℕ) : ℕ := h.since.countP (isEof producerId)

/-- A call is for a declared producer of the open scan, of which no EOF has been accepted
yet, and the scan has not ended. -/
def Addresses (h : History) (flow : FlowId) (producerId : ℕ) : Prop :=
  ∃ scan, h.scan = some scan ∧ flow = scan.flow ∧
    producerId ∈ scan.producers.map ProducerDescriptor.producerId ∧
    (∀ e ∈ h.since, e.2.isTerminal = false) ∧ h.eofs producerId = 0

/-- A call must fail the scan: it is an error of a producer, or a bad page. -/
def Fails (h : History) : RoleCall → FlowId → ℕ → Prop
  | .acceptProducerError flow producerId _, flow', producerId' =>
    h.Addresses flow producerId ∧ flow' = flow ∧ producerId' = producerId
  | .acceptPageFrame flow producerId ingress, flow', producerId' =>
    h.Addresses flow producerId ∧ (∃ scan, h.scan = some scan ∧ ingress.Bad scan) ∧
      flow' = flow ∧ producerId' = producerId
  | _, _, _ => False

end History

/-- The answer to a call is what the history asks for. -/
structure Proper (h : History) (c : RoleCall) (reply : Reply) : Prop where
  /-- The scan ends with an EOF at the last EOF of its producers, of which each has delivered
  one. -/
  eof : ∀ flow, reply = .step (.ok (.logicalEof flow)) ↔
    ∃ producerId scan, c = .acceptProducerEof flow producerId ∧ h.Addresses flow producerId ∧
      h.scan = some scan ∧ ∀ p ∈ scan.producers, (h.push c reply).eofs p.producerId = 1
  /-- The scan ends with an error at the first error or bad page. -/
  error :
    ∀ flow producerId, (∃ message, reply = .step (.ok (.logicalError flow producerId message))) ↔
    h.Fails c flow producerId
  /-- A scan ends once. -/
  once : reply.isTerminal = true → ∀ e ∈ h.since, e.2.isTerminal = false
  /-- A page is from a producer that has not ended, for a scan that has not either. -/
  page : ∀ flow producerId page, reply = .step (.ok (.page flow producerId page)) →
    h.Addresses flow producerId

/-! ### The worker role follows the history -/

/-- What the runtime of an open scan says about the history. -/
structure Live (h : History) (scan : ScanOpen) (runtime : WorkerRuntime) : Prop where
  opened : h.scan = some scan
  flow : runtime.flow = scan.flow
  kind : runtime.pageKind = scan.pageKind
  flags : runtime.pageFlags = scan.pageFlags
  ids : runtime.producers.map Producer.producerId = scan.producers.map ProducerDescriptor.producerId
  nodup : (runtime.producers.map Producer.producerId).Nodup
  quiet : ∀ e ∈ h.since, e.2.isTerminal = false
  states : ∀ p ∈ runtime.producers,
    (p.state = .active ∧ h.eofs p.producerId = 0) ∨ (p.state = .eof ∧ h.eofs p.producerId = 1)

/-- The state of the role follows the history. -/
inductive Tracks (h : History) : WorkerScanRole → Prop where
  | closed (hscan : h.scan = none) : Tracks h ⟨.closed, none⟩
  | live {m : WorkerScanState} {runtime : WorkerRuntime} {scan : ScanOpen}
      (hm : m = .opened ∨ m = .streaming) (hlive : Live h scan runtime) : Tracks h ⟨m, some runtime⟩
  | ended {runtime : WorkerRuntime} (hend : ∃ e ∈ h.since, e.2.isTerminal = true) :
      Tracks h ⟨.closeTerminal, some runtime⟩

variable {runtime : WorkerRuntime}

/-- A producer of the table is addressed if it is active. -/
lemma Live.addresses_iff {h : History} {scan : ScanOpen}
    (hl : Live h scan runtime) (flow : FlowId) (producerId : ℕ) :
    h.Addresses flow producerId ↔
      runtime.flow = flow ∧ ∃ p, find producerId runtime.producers = some p ∧
        p.state = .active := by
  constructor
  · rintro ⟨scan', hscan, rfl, hmem, -, hzero⟩
    obtain rfl : scan = scan' := Option.some.inj (hl.opened.symm.trans hscan)
    refine ⟨hl.flow, ?_⟩
    cases hf : find producerId runtime.producers with
    | none => exact absurd (hl.ids ▸ hmem) (find_eq_none hf)
    | some p =>
      obtain ⟨hp, rfl⟩ := find_eq_some hf
      refine ⟨p, rfl, ?_⟩
      obtain ⟨hst, -⟩ | ⟨-, hone⟩ := hl.states p hp
      · exact hst
      · omega
  · rintro ⟨rfl, p, hf, hst⟩
    obtain ⟨hp, rfl⟩ := find_eq_some hf
    refine ⟨scan, hl.opened, hl.flow, ?_, hl.quiet, ?_⟩
    · rw [← hl.ids]
      exact List.mem_map.mpr ⟨p, hp, rfl⟩
    · obtain ⟨-, hzero⟩ | ⟨hst', -⟩ := hl.states p hp
      · exact hzero
      · cases hst.symm.trans hst'

/-- Where no scan is open, or where it has ended, nothing is addressed. -/
lemma not_addresses {h : History} (hh : h.scan = none ∨ ∃ e ∈ h.since, e.2.isTerminal = true)
    (flow : FlowId) (producerId : ℕ) : ¬ h.Addresses flow producerId := by
  rintro ⟨scan, hscan, -, -, hquiet, -⟩
  obtain hnone | ⟨e, he, hterm⟩ := hh
  · cases hnone.symm.trans hscan
  · cases (hquiet e he).symm.trans hterm

/-- A call that is not accepted, or that hands out a page, tells nothing new. -/
lemma Live.quiet_push {h h' : History} {scan : ScanOpen}
    (hl : Live h scan runtime) {c : RoleCall} {reply : Reply}
    (hh : h' = { h with since := h.since ++ [(c, reply)] }) (hterm : reply.isTerminal = false)
    (heof : ∀ id, History.isEof id (c, reply) = false) : Live h' scan runtime := by
  subst hh
  refine { hl with quiet := fun e he => ?_, states := fun p hp => ?_ }
  · obtain he | he := List.mem_append.mp he
    · exact hl.quiet e he
    · obtain rfl := List.mem_singleton.mp he
      exact hterm
  · have hsame : History.eofs { h with since := h.since ++ [(c, reply)] } p.producerId =
        h.eofs p.producerId := by
      simp [History.eofs, List.countP_append, heof]
    rw [hsame]
    exact hl.states p hp

lemma Tracks.quiet_push {h h' : History} {r : WorkerScanRole} (ht : Tracks h r) {c : RoleCall}
    {reply : Reply} (hh : h' = { h with since := h.since ++ [(c, reply)] })
    (hterm : reply.isTerminal = false) (heof : ∀ id, History.isEof id (c, reply) = false) :
    Tracks h' r := by
  cases ht with
  | closed hscan => exact .closed (hh ▸ hscan)
  | live hm hlive => exact .live hm (hlive.quiet_push hh hterm heof)
  | ended hend =>
    obtain ⟨e, he, hterm'⟩ := hend
    exact .ended ⟨e, hh ▸ List.mem_append_left _ he, hterm'⟩

/-- An answer that accepts nothing is proper if there is nothing to accept. -/
lemma Proper.refuse {h : History} {c : RoleCall} {reply : Reply}
    (hreply : ∀ step, reply ≠ .step (.ok step))
    (hno : ∀ flow producerId, c = .acceptProducerEof flow producerId →
      ¬ h.Addresses flow producerId)
    (hfails : ∀ flow producerId, ¬ h.Fails c flow producerId) : Proper h c reply where
  eof flow := by
    refine ⟨fun he => absurd he (hreply _), ?_⟩
    rintro ⟨producerId, scan, hc, haddr, -⟩
    exact absurd haddr (hno flow producerId hc)
  error flow producerId :=
    ⟨fun ⟨message, he⟩ => absurd he (hreply _), fun hf => absurd hf (hfails flow producerId)⟩
  once hterm := by
    match reply, hterm with
    | .step (.ok (.logicalEof flow)), _ => exact absurd rfl (hreply _)
    | .step (.ok (.logicalError ..)), _ => exact absurd rfl (hreply _)
  page _ _ _ he := absurd he (hreply _)

/-- **The last EOF, or one before it.** -/
lemma Live.accept_eof {h : History} {scan : ScanOpen}
    (hl : Live h scan runtime) {producerId : ℕ} (flow : FlowId) (step : WorkerStep) {h' : History}
    (hh : h' = h.push (.acceptProducerEof flow producerId) (.step (.ok step)))
    (hzero : h.eofs producerId = 0) :
    ∀ p ∈ setState producerId .eof runtime.producers,
      (p.state = .active ∧ h'.eofs p.producerId = 0) ∨
        (p.state = .eof ∧ h'.eofs p.producerId = 1) := by
  subst hh
  have heofs : ∀ id, (h.push (.acceptProducerEof flow producerId) (.step (.ok step))).eofs id =
      h.eofs id + if producerId = id then 1 else 0 := by
    intro id
    simp [History.push, History.eofs, List.countP_append, History.isEof, List.countP_cons]
  intro p hp
  rw [heofs]
  obtain ⟨hid, hst⟩ | ⟨hid, hp⟩ := mem_setState hl.nodup hp
  · right
    rw [hid, hzero]
    exact ⟨hst, by simp⟩
  · rw [if_neg fun he => hid he.symm]
    exact hl.states p hp

/-- **The checks of the calls** let a call through exactly if it is addressed to an active
producer. -/
lemma Tracks.checkCall {h : History} {r : WorkerScanRole} (ht : Tracks h r) (action : String)
    (flow : FlowId) (producerId : ℕ) :
    (∃ err, r.checkCall action flow producerId = some (.error err) ∧
      ¬ h.Addresses flow producerId) ∨
      ∃ m runtime scan, r = ⟨m, some runtime⟩ ∧ (m = .opened ∨ m = .streaming) ∧
        Live h scan runtime ∧ h.Addresses flow producerId ∧
        r.checkCall action flow producerId = some (.ok runtime) := by
  cases ht with
  | closed hscan => exact .inl ⟨_, rfl, not_addresses (.inl hscan) _ _⟩
  | ended hend => exact .inl ⟨_, rfl, not_addresses (.inr hend) _ _⟩
  | @live m runtime scan hm hl =>
    have haddr := hl.addresses_iff flow producerId
    have hrunning : WorkerScanRole.checkCall action flow producerId ⟨m, some runtime⟩ =
        some (if runtime.flow ≠ flow then .error (.unexpectedFlow runtime.flow flow)
          else (find producerId runtime.producers).elim (.error (.unknownProducer producerId))
            fun producer => if producer.state = .active then .ok runtime
              else .error (.producerAlreadyTerminal producerId)) := by
      obtain rfl | rfl := hm <;> simp only [WorkerScanRole.checkCall, Option.map_some] <;>
        cases find producerId runtime.producers <;> rfl
    rw [hrunning]
    by_cases hflow : runtime.flow = flow
    swap
    · rw [if_pos hflow]
      exact .inl ⟨_, rfl, fun ha => hflow (haddr.mp ha).1⟩
    rw [if_neg (not_not.mpr hflow)]
    cases hfind : find producerId runtime.producers with
    | none =>
      refine .inl ⟨_, rfl, fun ha => ?_⟩
      obtain ⟨-, p, hp, -⟩ := haddr.mp ha
      cases hfind.symm.trans hp
    | some p =>
      by_cases hst : p.state = .active
      · refine .inr ⟨m, runtime, scan, rfl, hm, hl, haddr.mpr ⟨hflow, p, hfind, hst⟩, ?_⟩
        rw [Option.elim_some, if_pos hst]
      · refine .inl ⟨.producerAlreadyTerminal producerId, ?_, fun ha => ?_⟩
        · rw [Option.elim_some, if_neg hst]
        · obtain ⟨-, p', hp, hst'⟩ := haddr.mp ha
          cases hfind.symm.trans hp
          exact hst hst'

/-- A call does not panic, its answer is proper, and the role goes on following the
history. -/
def Answered (h : History) (r : WorkerScanRole) (c : RoleCall) : Prop :=
  ∃ reply r', r.call c = some (reply, r') ∧ Tracks (h.push c reply) r' ∧ Proper h c reply

section Calls

variable {h : History} {r : WorkerScanRole}

/-- A call that is refused leaves the role as it is. -/
lemma Tracks.refuse (ht : Tracks h r) {c : RoleCall} (reply : Reply)
    (hcall : r.call c = some (reply, r))
    (hpush : h.push c reply = { h with since := h.since ++ [(c, reply)] })
    (hreply : ∀ step, reply ≠ .step (.ok step))
    (hno : ∀ flow producerId, c = .acceptProducerEof flow producerId →
      ¬ h.Addresses flow producerId)
    (hfails : ∀ flow producerId, ¬ h.Fails c flow producerId) : Answered h r c := by
  refine ⟨reply, r, hcall, ht.quiet_push hpush ?_ fun id => ?_, .refuse hreply hno hfails⟩
  · match reply with
    | .unit _ | .step (.error _) => rfl
    | .step (.ok step) => exact absurd rfl (hreply step)
  · match c, reply with
    | .acceptProducerEof .., .step (.ok step) => exact absurd rfl (hreply step)
    | .acceptProducerEof .., .unit _ | .acceptProducerEof .., .step (.error _) => rfl
    | .open _, _ | .acceptPageFrame .., _ | .acceptProducerError .., _ | .close,
        _ | .abort, _ => rfl

/-- The scan ends with this call. -/
lemma tracks_ended {c : RoleCall} {reply : Reply} {runtime : WorkerRuntime}
    (hpush : h.push c reply = { h with since := h.since ++ [(c, reply)] })
    (hterm : reply.isTerminal = true) : Tracks (h.push c reply) ⟨.closeTerminal, some runtime⟩ :=
  .ended ⟨(c, reply), hpush ▸ List.mem_append_right _ List.mem_cons_self, hterm⟩

lemma Tracks.acceptProducerEof (ht : Tracks h r) (flow : FlowId) (producerId : ℕ) :
    Answered h r (.acceptProducerEof flow producerId) := by
  rcases ht.checkCall "accept producer eof" flow producerId with
    ⟨err, hcheck, hno⟩ | ⟨m, runtime, scan, rfl, hm, hl, haddr, hcheck⟩
  · refine ht.refuse (.step (.error err)) ?_ rfl (fun step => by simp) ?_ fun _ _ hf => hf
    · simp only [WorkerScanRole.call, WorkerScanRole.acceptProducerEof, hcheck]
      rfl
    · rintro flow' producerId' heq
      cases heq
      exact hno
  have hzero := haddr.choose_spec.2.2.2.2
  have hids : (setState producerId .eof runtime.producers).map Producer.producerId =
      scan.producers.map ProducerDescriptor.producerId := (map_setState _).trans hl.ids
  have hfails : ∀ flow' id, ¬ h.Fails (.acceptProducerEof flow producerId) flow' id :=
    fun _ _ hf => hf
  by_cases hall : (setState producerId .eof runtime.producers).all fun p => p.state = .eof
  · -- every producer has ended
    have hcall : WorkerScanRole.call ⟨m, some runtime⟩ (.acceptProducerEof flow producerId) =
        some (.step (.ok (.logicalEof flow)), ⟨.closeTerminal, some { runtime with
          producers := setState producerId .eof runtime.producers }⟩) := by
      simp only [WorkerScanRole.call, WorkerScanRole.acceptProducerEof, hcheck,
        Option.bind_some, hall, if_true]
      obtain rfl | rfl := hm <;> rfl
    have hstates := hl.accept_eof flow (.logicalEof flow) rfl hzero
    refine ⟨_, _, hcall, tracks_ended rfl rfl, ⟨fun flow' => ?_, fun flow' id => ?_,
      fun _ => hl.quiet, fun _ _ _ he => nomatch he⟩⟩
    · constructor
      · rintro ⟨⟩
        refine ⟨producerId, scan, rfl, haddr, hl.opened, fun p hp => ?_⟩
        have hmem : p.producerId ∈ (setState producerId .eof runtime.producers).map
            Producer.producerId := hids ▸ List.mem_map.mpr ⟨p, hp, rfl⟩
        obtain ⟨q, hq, he⟩ := List.mem_map.mp hmem
        obtain ⟨hst, -⟩ | ⟨-, hone⟩ := hstates q hq
        · have hend := List.all_eq_true.mp hall q hq
          simp [hst] at hend
        · rw [← he]
          exact hone
      · rintro ⟨id, scan', heq, -⟩
        cases heq
        rfl
    · exact ⟨fun ⟨_, he⟩ => (nomatch he), fun hf => absurd hf (hfails _ _)⟩
  · have hcall : WorkerScanRole.call ⟨m, some runtime⟩ (.acceptProducerEof flow producerId) =
        some (.step (.ok .idle), ⟨m, some { runtime with
          producers := setState producerId .eof runtime.producers }⟩) := by
      simp only [WorkerScanRole.call, WorkerScanRole.acceptProducerEof, hcheck,
        Option.bind_some, hall]
      obtain rfl | rfl := hm <;> rfl
    have hstates := hl.accept_eof flow .idle rfl hzero
    refine ⟨_, _, hcall, .live hm ⟨hl.opened, hl.flow, hl.kind, hl.flags, hids, ?_, ?_, hstates⟩,
      ⟨fun flow' => ?_, fun flow' id => ?_, fun hterm => (nomatch hterm),
        fun _ _ _ he => nomatch he⟩⟩
    · show ((setState producerId .eof runtime.producers).map Producer.producerId).Nodup
      rw [map_setState]
      exact hl.nodup
    · intro e he
      obtain he | he := List.mem_append.mp he
      · exact hl.quiet e he
      · obtain rfl := List.mem_singleton.mp he
        rfl
    · refine ⟨fun he => (nomatch he), ?_⟩
      rintro ⟨id, scan', -, -, hscan, hone⟩
      obtain rfl : scan = scan' := Option.some.inj (hl.opened.symm.trans hscan)
      -- the producer that has not ended has delivered no EOF
      refine absurd (List.all_eq_true.mpr fun p hp => ?_) hall
      have hmem : p.producerId ∈ scan.producers.map ProducerDescriptor.producerId :=
        hids ▸ List.mem_map.mpr ⟨p, hp, rfl⟩
      obtain ⟨q, hq, he⟩ := List.mem_map.mp hmem
      obtain ⟨-, hnone⟩ | ⟨hst, -⟩ := hstates p hp
      · rw [← he, hone q hq] at hnone
        omega
      · simp [hst]
    · exact ⟨fun ⟨_, he⟩ => (nomatch he), fun hf => absurd hf (hfails _ _)⟩

/-- A running scan can be failed. -/
lemma failLogical_eq {m : WorkerScanState} (hm : m = .opened ∨ m = .streaming)
    (runtime : WorkerRuntime) (flow : FlowId) (producerId : ℕ) (message : FailureMessage) :
    ∃ runtime', WorkerScanRole.failLogical flow producerId message ⟨m, some runtime⟩ =
      some (.logicalError flow producerId message, ⟨.closeTerminal, some runtime'⟩) := by
  obtain rfl | rfl := hm <;> exact ⟨_, rfl⟩

/-- A call that must fail the scan does. -/
lemma answered_failure {c : RoleCall} {flow : FlowId} {producerId : ℕ} {message : FailureMessage}
    {runtime : WorkerRuntime} (haddr : h.Addresses flow producerId)
    (hcall : r.call c = some (.step (.ok (.logicalError flow producerId message)),
      ⟨.closeTerminal, some runtime⟩))
    (hpush : ∀ step, h.push c (.step step) = { h with since := h.since ++ [(c, .step step)] })
    (heof : ∀ flow' id, c ≠ .acceptProducerEof flow' id)
    (hfails : ∀ flow' id, h.Fails c flow' id ↔ flow' = flow ∧ id = producerId) :
      Answered h r c := by
  refine ⟨_, _, hcall, tracks_ended (hpush _) rfl, ⟨fun flow' => ?_, fun flow' id => ?_,
    fun _ => ?_, fun _ _ _ he => nomatch he⟩⟩
  · refine ⟨fun he => (nomatch he), ?_⟩
    rintro ⟨id, scan, hc, -⟩
    exact absurd hc (heof flow' id)
  · rw [hfails]
    constructor
    · rintro ⟨_, ⟨⟩⟩
      exact ⟨rfl, rfl⟩
    · rintro ⟨rfl, rfl⟩
      exact ⟨message, rfl⟩
  · obtain ⟨scan, -, -, -, hquiet, -⟩ := haddr
    exact hquiet

lemma Tracks.acceptProducerError (ht : Tracks h r) (flow : FlowId) (producerId : ℕ)
    (message : String) :
    Answered h r (.acceptProducerError flow producerId message) := by
  rcases ht.checkCall "accept producer error" flow producerId with
    ⟨err, hcheck, hno⟩ | ⟨m, runtime, scan, rfl, hm, hl, haddr, hcheck⟩
  · refine ht.refuse (.step (.error err)) ?_ rfl (fun step => by simp) (fun _ _ he => (nomatch he))
      fun _ _ hf => hno hf.1
    simp only [WorkerScanRole.call, WorkerScanRole.acceptProducerError, hcheck]
    rfl
  · obtain ⟨runtime', hfail⟩ := failLogical_eq hm runtime flow producerId (.reported message)
    have hcall :
        WorkerScanRole.call ⟨m, some runtime⟩ (.acceptProducerError flow producerId message) =
        some (.step (.ok (.logicalError flow producerId (.reported message))),
          ⟨.closeTerminal, some runtime'⟩) := by
      simp only [WorkerScanRole.call, WorkerScanRole.acceptProducerError, hcheck,
        Option.bind_some, hfail]
      rfl
    exact answered_failure haddr hcall (fun _ => rfl) (fun _ _ he => nomatch he)
      fun flow' id => and_iff_right haddr

/-- A page frame that is rejected is answered with an error. -/
lemma rejectPageFrame_eq (err : WorkerRoleError) (ingress : Ingress) (r : WorkerScanRole) :
    ∃ err', (r.rejectPageFrame err ingress.pool ingress.permits ingress.frame ingress.rx
      ingress.sh).1 = .error err' ∧
        (r.rejectPageFrame err ingress.pool ingress.permits ingress.frame
      ingress.rx ingress.sh).2.1 = r := by
  rw [WorkerScanRole.rejectPageFrame]
  split <;> exact ⟨_, rfl, rfl⟩

lemma Tracks.acceptPageFrame (ht : Tracks h r) (flow : FlowId) (producerId : ℕ)
    (ingress : Ingress) :
    Answered h r (.acceptPageFrame flow producerId ingress) := by
  rcases ht.checkCall "accept page frame" flow producerId with
    ⟨err, hcheck, hno⟩ | ⟨m, runtime, scan, rfl, hm, hl, haddr, hcheck⟩
  · obtain ⟨err', hreply, hrole⟩ := rejectPageFrame_eq err ingress r
    refine ht.refuse (.step (.error err')) ?_ rfl (fun step => by simp) (fun _ _ he => (nomatch he))
      fun _ _ hf => hno hf.1
    simp only [WorkerScanRole.call, WorkerScanRole.acceptPageFrame, hcheck, Option.bind_some,
      Option.map_some, hreply, hrole]
  have hfails : ∀ flow' id, h.Fails (.acceptPageFrame flow producerId ingress) flow' id ↔
      ingress.Bad scan ∧ flow' = flow ∧ id = producerId := by
    intro flow' id
    constructor
    · rintro ⟨-, ⟨scan', hscan, hbad⟩, hrest⟩
      obtain rfl : scan = scan' := Option.some.inj (hl.opened.symm.trans hscan)
      exact ⟨hbad, hrest⟩
    · rintro ⟨hbad, hrest⟩
      exact ⟨haddr, ⟨scan, hl.opened, hbad⟩, hrest⟩
  have hcall : WorkerScanRole.call ⟨m, some runtime⟩ (.acceptPageFrame flow producerId ingress) =
      (WorkerScanRole.takePageFrame flow producerId runtime ingress.pool ingress.permits
        ingress.frame ⟨m, some runtime⟩ ingress.rx ingress.sh).map fun x => (.step x.1, x.2.1) := by
    simp only [WorkerScanRole.call, WorkerScanRole.acceptPageFrame, hcheck, Option.bind_some]
  rw [WorkerScanRole.takePageFrame] at hcall
  -- a bad frame fails the scan
  have hbad : ∀ message, ingress.Bad scan → (∀ runtime',
      WorkerScanRole.failLogical flow producerId message ⟨m, some runtime⟩ =
        some (.logicalError flow producerId message, ⟨.closeTerminal, some runtime'⟩) →
      WorkerScanRole.call ⟨m, some runtime⟩ (.acceptPageFrame flow producerId ingress) =
        some (.step (.ok (.logicalError flow producerId message)),
          ⟨.closeTerminal, some runtime'⟩)) →
      Answered h ⟨m, some runtime⟩ (.acceptPageFrame flow producerId ingress) := by
    intro message hbad hcall
    obtain ⟨runtime', hfail⟩ := failLogical_eq hm runtime flow producerId message
    exact answered_failure haddr (hcall runtime' hfail) (fun _ => rfl) (fun _ _ he => nomatch he)
      fun flow' id => (hfails flow' id).trans (and_iff_right hbad)
  have hresult : ingress.result =
      (Issuance.accept ingress.pool ingress.permits ingress.frame ingress.rx ingress.sh).1 := rfl
  rcases hacc : Issuance.accept ingress.pool ingress.permits ingress.frame ingress.rx
    ingress.sh with
    ⟨result, rx, sh⟩
  rw [hacc] at hcall hresult
  match result with
  | .ok .closed =>
    refine hbad .closeFrame (by rw [Ingress.Bad, hresult]; trivial) fun runtime' hfail => ?_
    rw [hcall]
    simp only [hfail]
    rfl
  | .ok (.page page) =>
    by_cases henv : page.page.kind ≠ runtime.pageKind ∨ page.page.flags ≠ runtime.pageFlags
    · refine hbad (.unexpectedEnvelope page.page.kind page.page.flags producerId runtime.pageKind
        runtime.pageFlags) ?_ fun runtime' hfail => ?_
      · rw [Ingress.Bad, hresult, ← hl.kind, ← hl.flags]
        exact henv
      · rw [hcall]
        simp only [henv, if_true, hfail]
        rfl
    · -- a page of the scan
      have hnot : ¬ ingress.Bad scan := by
        rw [Ingress.Bad, hresult, ← hl.kind, ← hl.flags]
        exact henv
      have hpage :
          WorkerScanRole.call ⟨m, some runtime⟩ (.acceptPageFrame flow producerId ingress) =
          some (.step (.ok (.page flow producerId page)), ⟨.streaming, some runtime⟩) := by
        rw [hcall]
        simp only [henv, if_false]
        obtain rfl | rfl := hm <;> rfl
      refine ⟨_, _, hpage, .live (.inr rfl) (hl.quiet_push rfl rfl fun _ => rfl), ⟨fun flow' => ?_,
        fun flow' id => ?_, fun hterm => (nomatch hterm), ?_⟩⟩
      · exact ⟨fun he => (nomatch he), fun ⟨_, _, hc, _⟩ => nomatch hc⟩
      · exact ⟨fun ⟨_, he⟩ => (nomatch he), fun hf => absurd ((hfails flow' id).mp hf).1 hnot⟩
      · rintro flow' id page' ⟨⟩
        exact haddr
  | .error err =>
    by_cases hing : isIngressError err = true
    · refine ht.refuse (.step (.error (.ingress err))) ?_ rfl (fun step => by simp)
        (fun _ _ he => (nomatch he)) fun flow' id hf => ?_
      · rw [hcall]
        simp only [hing, if_true]
        rfl
      · have hbad := ((hfails flow' id).mp hf).1
        rw [Ingress.Bad, hresult] at hbad
        cases hing.symm.trans hbad
    · refine hbad (.acceptFailed err) ?_ fun runtime' hfail => ?_
      · rw [Ingress.Bad, hresult]
        exact eq_false_of_ne_true hing
      · rw [hcall]
        simp only [hing, hfail]
        rfl

lemma Tracks.open (ht : Tracks h r) (scan : ScanOpen) : Answered h r (.open scan) := by
  have hrefuse : ∀ err, r.open scan = some (.error err, r) → Answered h r (.open scan) := by
    intro err hr
    refine ht.refuse (.unit (.error err)) ?_ rfl (fun step => by simp) (fun _ _ he => (nomatch he))
      fun _ _ hf => hf
    rw [WorkerScanRole.call, hr]
    rfl
  have hcases := ht
  cases hcases with
  | ended hend => exact hrefuse _ rfl
  | live hm hlive =>
    exact hrefuse _ (if_pos (by obtain rfl | rfl := hm <;> exact fun he => nomatch he))
  | closed hscan =>
    cases hvalid : scan.validate with
    | error err =>
      refine hrefuse (.invalidScanOpen err) ?_
      simp only [WorkerScanRole.open, hvalid]
      rfl
    | ok u =>
      have hcall : WorkerScanRole.call ⟨.closed, none⟩ (.open scan) = some (.unit (.ok ()),
          ⟨.opened, some ⟨scan.flow, scan.pageKind, scan.pageFlags, declare scan.producers⟩⟩) := by
        simp only [WorkerScanRole.call, WorkerScanRole.open, hvalid]
        rfl
      have hids := map_declare scan.producers
      refine ⟨_, _, hcall, .live (.inl rfl) ⟨rfl, rfl, rfl, rfl, hids, ?_, ?_, fun p hp => ?_⟩,
        .refuse (fun _ he => (nomatch he)) (fun _ _ he => (nomatch he)) fun _ _ hf => hf⟩
      · rw [hids]
        exact ScanOpen.nodup_of_validate hvalid
      · exact fun e he => absurd he List.not_mem_nil
      · obtain ⟨d, -, rfl⟩ := List.mem_map.mp hp
        exact .inl ⟨rfl, rfl⟩

lemma Tracks.close (ht : Tracks h r) : Answered h r .close := by
  have hrefuse : ∀ err, r.close = some (.error err, r) → Answered h r .close := by
    intro err hr
    refine ht.refuse (.unit (.error err)) ?_ rfl (fun step => by simp) (fun _ _ he => (nomatch he))
      fun _ _ hf => hf
    rw [WorkerScanRole.call, hr]
    rfl
  have hcases := ht
  cases hcases with
  | closed hscan => exact hrefuse _ rfl
  | live hm hlive =>
    exact hrefuse _ (if_pos (by obtain rfl | rfl := hm <;> exact fun he => nomatch he))
  | ended hend =>
    exact ⟨.unit (.ok ()), ⟨.closed, none⟩, rfl, .closed rfl,
      .refuse (fun _ he => (nomatch he)) (fun _ _ he => (nomatch he)) fun _ _ hf => hf⟩

lemma Tracks.abort (_ : Tracks h r) : Answered h r .abort :=
  ⟨.unit (.ok ()), ⟨.closed, none⟩, rfl, .closed rfl,
    .refuse (fun _ he => (nomatch he)) (fun _ _ he => (nomatch he)) fun _ _ hf => hf⟩

/-- **Every call is answered properly.** -/
lemma Tracks.answered (ht : Tracks h r) (c : RoleCall) : Answered h r c := by
  cases c with
  | «open» scan => exact ht.open scan
  | acceptPageFrame flow producerId ingress => exact ht.acceptPageFrame flow producerId ingress
  | acceptProducerEof flow producerId => exact ht.acceptProducerEof flow producerId
  | acceptProducerError flow producerId message =>
    exact ht.acceptProducerError flow producerId message
  | close => exact ht.close
  | abort => exact ht.abort

/-- Every sequence of calls is answered properly. -/
lemma Tracks.replay (ht : Tracks h r) (calls : List RoleCall) :
    ∃ trace r', r.replay calls = some (trace, r') ∧
      Tracks (trace.foldl (fun h e => h.push e.1 e.2) h) r' ∧
      ∀ before c reply after, trace = before ++ (c, reply) :: after →
        Proper (before.foldl (fun h e => h.push e.1 e.2) h) c reply := by
  induction calls generalizing h r with
  | nil =>
    refine ⟨[], r, rfl, ht, fun before c reply after he => ?_⟩
    simp at he
  | cons c calls ih =>
    obtain ⟨reply, r', hcall, ht', hproper⟩ := ht.answered c
    obtain ⟨trace, r'', hreplay, ht'', hrest⟩ := ih ht'
    refine ⟨(c, reply) :: trace, r'', ?_, ht'', fun before c' reply' after he => ?_⟩
    · simp only [WorkerScanRole.replay, hcall, Option.bind_eq_bind, Option.bind_some, hreplay]
      rfl
    · cases before with
      | nil =>
        obtain ⟨hhead, -⟩ := List.cons.inj he
        cases hhead
        exact hproper
      | cons e before =>
        obtain ⟨rfl, htail⟩ := List.cons.inj he
        exact hrest before c' reply' after htail

end Calls

/-! ### The coordinator -/

/-- The calls that the coordinator has in common with the worker role. -/
inductive ScanEvent where
  | open (scan : ScanOpen)
  | acceptProducerEof (flow : FlowId) (producerId : ℕ)
  | acceptProducerError (flow : FlowId) (producerId : ℕ) (message : String)
  | close
  | abort
deriving DecidableEq

/-- The call of the worker role. -/
def ScanEvent.toCall : ScanEvent → RoleCall
  | .open scan => .open scan
  | .acceptProducerEof flow producerId => .acceptProducerEof flow producerId
  | .acceptProducerError flow producerId message => .acceptProducerError flow producerId message
  | .close => .close
  | .abort => .abort

/-- The answer of the coordinator. -/
inductive CoordinatorReply where
  | unit (r : Except BackendCoordinatorError Unit)
  | terminal (r : Except BackendCoordinatorError (Option LogicalTerminal))
deriving DecidableEq

/-- The end of the scan that the worker role announces. -/
def Reply.announces : Reply → Option WorkerStep
  | .step (.ok (.logicalEof flow)) => some (.logicalEof flow)
  | .step (.ok (.logicalError flow producerId message)) =>
    some (.logicalError flow producerId message)
  | _ => none

/-- The end of the scan that the coordinator announces, as the worker role would. -/
def CoordinatorReply.announces : CoordinatorReply → Option WorkerStep
  | .terminal (.ok (some (.logicalEof flow))) => some (.logicalEof flow)
  | .terminal (.ok (some (.logicalError flow producerId message))) =>
    some (.logicalError flow producerId (.reported message))
  | _ => none

/-- A call of the coordinator. -/
def BackendScanCoordinator.call (c : BackendScanCoordinator) :
    ScanEvent → Option (CoordinatorReply × BackendScanCoordinator)
  | .open scan => (c.open scan).map fun x => (.unit x.1, x.2)
  | .acceptProducerEof flow producerId =>
    (c.acceptProducerEof flow producerId).map fun x => (.terminal x.1, x.2)
  | .acceptProducerError flow producerId message =>
    (c.acceptProducerError flow producerId message).map fun x => (.terminal (x.1.map some), x.2)
  | .close => c.close.map fun x => (.unit x.1, x.2)
  | .abort => some (.unit (.ok ()), c.abort)

/-- A sequence of calls of the coordinator, with the answers to them. -/
def BackendScanCoordinator.replay :
    BackendScanCoordinator → List ScanEvent →
      Option (List CoordinatorReply × BackendScanCoordinator)
  | c, [] => some ([], c)
  | c, e :: es => do
    let (reply, c) ← c.call e
    let (replies, c) ← c.replay es
    return (reply :: replies, c)

/-- The worker role and the coordinator have seen the same. -/
inductive Agree : WorkerScanRole → BackendScanCoordinator → Prop where
  | closed : Agree ⟨.closed, none⟩ ⟨.closed, none⟩
  | live {m : WorkerScanState} {n : BackendCoordinatorState} {runtime : WorkerRuntime}
      (hm : m = .opened ∨ m = .streaming) (hn : n = .opened ∨ n = .running) :
      Agree ⟨m, some runtime⟩ ⟨n, some ⟨runtime.flow, runtime.producers⟩⟩
  | ended {runtime : WorkerRuntime} {runtime' : CoordinatorRuntime} :
      Agree ⟨.closeTerminal, some runtime⟩ ⟨.closeTerminal, some runtime'⟩

/-- Both let the same calls through. -/
lemma Agree.checkCall {r : WorkerScanRole} {c : BackendScanCoordinator} (h : Agree r c)
    (action : String) (flow : FlowId) (producerId : ℕ) :
    (∃ err err', r.checkCall action flow producerId = some (.error err) ∧
        c.checkCall action flow producerId = some (.error err')) ∨
      ∃ m n runtime, r = ⟨m, some runtime⟩ ∧ c = ⟨n, some ⟨runtime.flow, runtime.producers⟩⟩ ∧
        (m = .opened ∨ m = .streaming) ∧ (n = .opened ∨ n = .running) ∧
        r.checkCall action flow producerId = some (.ok runtime) ∧
        c.checkCall action flow producerId = some (.ok ⟨runtime.flow, runtime.producers⟩) := by
  cases h with
  | closed => exact .inl ⟨_, _, rfl, rfl⟩
  | ended => exact .inl ⟨_, _, rfl, rfl⟩
  | @live m n runtime hm hn =>
    have hworker : WorkerScanRole.checkCall action flow producerId ⟨m, some runtime⟩ =
        WorkerScanRole.checkCall action flow producerId ⟨.opened, some runtime⟩ := by
      obtain rfl | rfl := hm <;> rfl
    have hcoordinator : BackendScanCoordinator.checkCall action flow producerId
        ⟨n, some ⟨runtime.flow, runtime.producers⟩⟩ = BackendScanCoordinator.checkCall action flow
        producerId ⟨.opened, some ⟨runtime.flow, runtime.producers⟩⟩ := by
      obtain rfl | rfl := hn <;> rfl
    rw [hworker, hcoordinator]
    simp only [WorkerScanRole.checkCall, BackendScanCoordinator.checkCall, Option.map_some]
    split
    · exact .inl ⟨_, _, rfl, rfl⟩
    · cases find producerId runtime.producers with
      | none => exact .inl ⟨_, _, rfl, rfl⟩
      | some p =>
        dsimp only
        split
        · exact .inr ⟨m, n, runtime, rfl, rfl, hm, hn, rfl, rfl⟩
        · exact .inl ⟨_, _, rfl, rfl⟩

/-- **Both answer an event alike.** -/
lemma Agree.call {r : WorkerScanRole} {c : BackendScanCoordinator} (h : Agree r c) (e : ScanEvent) :
    ∃ reply r' reply' c', r.call e.toCall = some (reply, r') ∧ c.call e = some (reply', c') ∧
      reply.announces = reply'.announces ∧ Agree r' c' := by
  cases e with
  | «open» scan =>
    cases h with
    | ended => exact ⟨_, _, _, _, rfl, rfl, rfl, .ended⟩
    | live hm hn =>
      obtain rfl | rfl := hm <;> obtain rfl | rfl := hn <;>
        exact ⟨_, _, _, _, rfl, rfl, rfl, .live (by simp) (by simp)⟩
    | closed =>
      simp only [ScanEvent.toCall, WorkerScanRole.call, WorkerScanRole.open,
        BackendScanCoordinator.call, BackendScanCoordinator.open]
      cases scan.validate with
      | error err => exact ⟨_, _, _, _, rfl, rfl, rfl, .closed⟩
      | ok u => exact ⟨_, _, _, _, rfl, rfl, rfl, .live (.inl rfl) (.inl rfl)⟩
  | acceptProducerEof flow producerId =>
    simp only [ScanEvent.toCall, WorkerScanRole.call, WorkerScanRole.acceptProducerEof,
      BackendScanCoordinator.call, BackendScanCoordinator.acceptProducerEof]
    rcases h.checkCall "accept producer eof" flow producerId with
      ⟨err, err', hr, hc⟩ | ⟨m, n, runtime, rfl, rfl, hm, hn, hr, hc⟩
    · rw [hr, hc]
      exact ⟨_, _, _, _, rfl, rfl, rfl, h⟩
    · rw [hr, hc]
      simp only [Option.bind_some]
      split
      · obtain rfl | rfl := hm <;> obtain rfl | rfl := hn <;>
          exact ⟨_, _, _, _, rfl, rfl, rfl, .ended⟩
      · obtain rfl | rfl := hm <;> obtain rfl | rfl := hn <;>
          exact ⟨_, _, _, _, rfl, rfl, rfl, .live (by simp) (by simp)⟩
  | acceptProducerError flow producerId message =>
    simp only [ScanEvent.toCall, WorkerScanRole.call, WorkerScanRole.acceptProducerError,
      BackendScanCoordinator.call, BackendScanCoordinator.acceptProducerError]
    rcases h.checkCall "accept producer error" flow producerId with
      ⟨err, err', hr, hc⟩ | ⟨m, n, runtime, rfl, rfl, hm, hn, hr, hc⟩
    · rw [hr, hc]
      exact ⟨_, _, _, _, rfl, rfl, rfl, h⟩
    · obtain ⟨runtime', hfail⟩ := failLogical_eq hm runtime flow producerId (.reported message)
      rw [hr, hc]
      simp only [Option.bind_some, hfail]
      obtain rfl | rfl := hn <;> exact ⟨_, _, _, _, rfl, rfl, rfl, .ended⟩
  | close =>
    cases h with
    | closed => exact ⟨_, _, _, _, rfl, rfl, rfl, .closed⟩
    | ended => exact ⟨_, _, _, _, rfl, rfl, rfl, .closed⟩
    | live hm hn =>
      obtain rfl | rfl := hm <;> obtain rfl | rfl := hn <;>
        exact ⟨_, _, _, _, rfl, rfl, rfl, .live (by simp) (by simp)⟩
  | abort => exact ⟨_, _, _, _, rfl, rfl, rfl, .closed⟩

/-- Both announce the same ends at the same events. -/
lemma Agree.replay {r : WorkerScanRole} {c : BackendScanCoordinator} (h : Agree r c)
    (events : List ScanEvent) :
    ∃ trace r' replies c', r.replay (events.map ScanEvent.toCall) = some (trace, r') ∧
      c.replay events = some (replies, c') ∧
      trace.map (fun e => e.2.announces) = replies.map CoordinatorReply.announces := by
  induction events generalizing r c with
  | nil => exact ⟨[], r, [], c, rfl, rfl, rfl⟩
  | cons e events ih =>
    obtain ⟨reply, r', reply', c', hr, hc, hsame, h'⟩ := h.call e
    obtain ⟨trace, r'', replies, c'', hr', hc', hrest⟩ := ih h'
    refine ⟨(e.toCall, reply) :: trace, r'', reply' :: replies, c'', ?_, ?_, ?_⟩
    · simp only [List.map_cons, WorkerScanRole.replay, hr, Option.bind_eq_bind,
        Option.bind_some, hr']
      rfl
    · simp only [BackendScanCoordinator.replay, hc, Option.bind_eq_bind, Option.bind_some, hc']
      rfl
    · simp only [List.map_cons, hsame, hrest]

/-! ### Logical scans -/

/-- **Logical scans end correctly.** No sequence of calls makes the worker role panic, and
every answer is what the calls and the answers before it ask for. Fed with the same opens,
EOFs and errors, the coordinator does not panic either, and announces the same ends at the
same events. -/
theorem logical_scan_fans_in :
    (∀ calls : List RoleCall, ∃ trace r, WorkerScanRole.new.replay calls = some (trace, r) ∧
      ∀ before c reply after, trace = before ++ (c, reply) :: after →
        Proper (History.of before) c reply) ∧
    ∀ events : List ScanEvent, ∃ trace r replies c,
      WorkerScanRole.new.replay (events.map ScanEvent.toCall) = some (trace, r) ∧
      BackendScanCoordinator.new.replay events = some (replies, c) ∧
      trace.map (fun e => e.2.announces) = replies.map CoordinatorReply.announces := by
  refine ⟨fun calls => ?_, fun events => Agree.closed.replay events⟩
  have hstart : Tracks ⟨none, []⟩ WorkerScanRole.new := .closed rfl
  obtain ⟨trace, r, hreplay, -, hproper⟩ := hstart.replay calls
  exact ⟨trace, r, hreplay, hproper⟩

end PgFusion.ScanFlow

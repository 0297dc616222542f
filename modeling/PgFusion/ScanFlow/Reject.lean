import PgFusion.Issuance.Pairing
import PgFusion.ScanFlow.FanIn

/-!
Rejected page frames leak nothing (`rejected_frame_leaks_nothing`). Whatever the worker role makes
of a frame, the page and the permit end up in one place: with the page that is handed out, back in
their pools, or still with the frame.
-/

namespace PgFusion.ScanFlow

open Issuance (IssuancePool IssuedOwnedFrame IssuedPageFrame IssuedReceivedPage IssuedRxError
  IssueEvent Shared Holding)

open Transfer (PoolHandle RxInner saturatingSucc)

/-- The receiver accepts the frame, in some state of its own. -/
def Acceptable (pool : PoolHandle) (permits : IssuancePool) (f : IssuedPageFrame) (sh : Shared) :
    Prop :=
  ∃ rx page, (Issuance.accept pool permits (.page f) rx sh).1 = .ok (.page page)

section Frames

variable {pool : PoolHandle} {permits : IssuancePool} {others : Shared.Others} {sh : Shared}
  {hs : List Holding} {f : IssuedPageFrame}

/-- A frame that is accepted at all is of the receiver's permit pool, and its page can be
opened. -/
lemma Acceptable.opens (hf : Acceptable pool permits f sh)
    (hheld : sh.HeldBy pool permits others (f.holding :: hs)) :
    f.poolInstanceId = permits.instanceId ∧
      ∃ page, Transfer.ReceivedPage.new pool f.inner.descriptor sh.pages = (.ok page, sh.pages) ∧
        page.descriptor = f.inner.descriptor := by
  obtain ⟨rx, page, hok⟩ := hf
  have hsame : f.poolInstanceId = permits.instanceId := by
    by_contra hne
    rw [Issuance.accept, Issuance.beginAccept, if_pos hne] at hok
    cases hok
  refine ⟨hsame, (Transfer.ReceivedPage.new_cases hheld.pages).resolve_right ?_⟩
  rintro ⟨err, hnew, -⟩
  rw [Issuance.accept, Issuance.beginAccept, if_neg (not_not.mpr hsame)] at hok
  cases hbegin : rx.beginAccept with
  | error e =>
    rw [hbegin] at hok
    cases hok
  | ok rx' =>
    rw [hbegin] at hok
    by_cases hid : f.inner.transferId = rx'.nextTransferId
    · simp only [Except.mapError, Issuance.finishAccept,
        Transfer.finishAccept_page_error hid hnew, Issuance.shouldReleasePermit,
        hheld.releasePermit, if_true] at hok
      cases hok
    · simp only [Except.mapError, Issuance.finishAccept,
        Transfer.finishAccept_of_ne (.page f.inner) hid, Issuance.shouldReleasePermit] at hok
      cases hok

/-- A receiver that is idle and expects the frame accepts it; another leaves everything as it
is. -/
lemma Acceptable.accept (hf : Acceptable pool permits f sh)
    (hheld : sh.HeldBy pool permits others (f.holding :: hs)) (rx : RxInner) :
    (rx.phase = .idle ∧ f.inner.transferId = rx.nextTransferId ∧ ∃ page : IssuedReceivedPage,
        page.holding = f.holding ∧ Issuance.accept pool permits (.page f) rx sh =
          (.ok (.page page), ⟨.idle, saturatingSucc rx.nextTransferId⟩, sh)) ∨
      ¬ (rx.phase = .idle ∧ f.inner.transferId = rx.nextTransferId) ∧
        ∃ err, Issuance.accept pool permits (.page f) rx sh = (.error err, rx, sh) ∧
          err.retryable = true ∧ isIngressError err = true := by
  obtain ⟨hsame, page, hnew, hd⟩ := hf.opens hheld
  rw [Issuance.accept, Issuance.beginAccept, if_neg (not_not.mpr hsame)]
  cases hphase : rx.phase with
  | accepting | closed =>
    right
    rw [RxInner.beginAccept, hphase]
    exact ⟨by rintro ⟨⟨⟩, -⟩, _, rfl, rfl, rfl⟩
  | idle =>
    rw [RxInner.beginAccept, hphase]
    show _ ∨ _ ∧ ∃ err, Issuance.finishAccept pool permits (.page f)
      { rx with phase := .accepting } sh
      = _ ∧ _
    by_cases hid : f.inner.transferId = rx.nextTransferId
    · refine Or.inl ⟨rfl, hid, ⟨page, f.permitId⟩, ?_, ?_⟩
      · rw [IssuedReceivedPage.holding, hd]
        rfl
      · have hin : Transfer.finishAccept pool (.page f.inner) { rx with phase := .accepting }
            sh.pages = (.ok (.page page), ⟨.idle, saturatingSucc rx.nextTransferId⟩, sh.pages) :=
          Transfer.finishAccept_page hid hnew
        show Issuance.finishAccept pool permits (.page f) { rx with phase := .accepting } sh = _
        simp only [Issuance.finishAccept, hin]
    · refine Or.inr ⟨fun h => hid h.2, .rx (.unexpectedTransferId rx.nextTransferId
        f.inner.transferId), ?_, rfl, rfl⟩
      have hout : Transfer.finishAccept pool (.page f.inner) { rx with phase := .accepting }
          sh.pages = (.error (.unexpectedTransferId rx.nextTransferId f.inner.transferId),
            { rx with phase := .idle }, sh.pages) :=
        Transfer.finishAccept_of_ne (.page f.inner) hid
      simp only [Issuance.finishAccept, hout, Issuance.shouldReleasePermit]
      rw [← hphase]
      rfl

end Frames

/-! ### Rejected frames -/

/-- A state of the worker role that some sequence of calls leads to. -/
def Reached (r : WorkerScanRole) : Prop :=
  ∃ calls trace, WorkerScanRole.new.replay calls = some (trace, r)

lemma Reached.tracks {r : WorkerScanRole} (h : Reached r) : ∃ H, Tracks H r := by
  obtain ⟨calls, trace, hreplay⟩ := h
  have hstart : Tracks ⟨none, []⟩ WorkerScanRole.new := .closed rfl
  obtain ⟨trace', r', hreplay', ht, -⟩ := hstart.replay calls
  cases hreplay.symm.trans hreplay'
  exact ⟨_, ht⟩

/-- What becomes of an acceptable page frame: it is handed out; or nothing has changed and it may be
presented again; or its page and permit are back in their pools, and the receiver is ready for the
next frame. -/
inductive FrameOutcome (f : IssuedPageFrame) (r : WorkerScanRole) (rx : RxInner) (sh : Shared) :
    Except WorkerRoleError WorkerStep × WorkerScanRole × RxInner × Shared → Prop where
  | handedOut {flow : FlowId} {producerId : ℕ} {page : IssuedReceivedPage} {r' : WorkerScanRole}
      {rx' : RxInner} (hpage : page.holding = f.holding) :
      FrameOutcome f r rx sh (.ok (.page flow producerId page), r', rx', sh)
  | notReady {err : IssuedRxError} (herr : err.retryable = true)
      (hrx : ¬ (rx.phase = .idle ∧ f.inner.transferId = rx.nextTransferId)) :
      FrameOutcome f r rx sh (.error (.ingress err), r, rx, sh)
  | givenUp {reply : Except WorkerRoleError WorkerStep} {r' : WorkerScanRole} {rx' : RxInner}
      (hnot : ∀ err, reply ≠ .error (.ingress err))
      (hnot' : ∀ flow producerId page, reply ≠ .ok (.page flow producerId page))
      (hrx : rx' = ⟨.idle, saturatingSucc f.inner.transferId⟩) :
      FrameOutcome f r rx sh (reply, r', rx', sh.giveBack f.holding)

section Rejecting

variable {pool : PoolHandle} {permits : IssuancePool} {others : Shared.Others} {sh : Shared}
  {hs : List Holding} {f : IssuedPageFrame}

/-- A frame that is rejected is drained. -/
lemma rejectPageFrame_outcome (hf : Acceptable pool permits f sh)
    (hheld : sh.HeldBy pool permits others (f.holding :: hs)) (rx : RxInner) (r : WorkerScanRole)
    {err : WorkerRoleError} (herr : ∀ e, err ≠ .ingress e) :
    FrameOutcome f r rx sh (r.rejectPageFrame err pool permits (.page f) rx sh) := by
  rw [WorkerScanRole.rejectPageFrame, maybeDrainRejectedPageFrame]
  rcases hf.accept hheld rx with ⟨-, hid, page, hpage, hacc⟩ | ⟨hrx, e, hacc, hretry, -⟩
  · have hdrop : page.drop pool permits sh = sh.giveBack f.holding := by
      rw [← hpage] at hheld ⊢
      exact (IssuedReceivedPage.release_eq hheld).2
    simp only [hacc, hdrop]
    exact .givenUp (fun e he => herr e (Except.error.inj he)) (fun _ _ _ he => by cases he)
      (by rw [hid])
  · simp only [hacc]
    exact .notReady hretry hrx

/-- A frame of an active producer is handed out, unless its envelope is wrong. -/
lemma takePageFrame_outcome (hf : Acceptable pool permits f sh)
    (hheld : sh.HeldBy pool permits others (f.holding :: hs)) (rx : RxInner) {m : WorkerScanState}
    (hm : m = .opened ∨ m = .streaming) (runtime : WorkerRuntime) (flow : FlowId) (producerId : ℕ) :
    ∃ out, WorkerScanRole.takePageFrame flow producerId runtime pool permits (.page f)
        ⟨m, some runtime⟩ rx sh = some out ∧ FrameOutcome f ⟨m, some runtime⟩ rx sh out := by
  rw [WorkerScanRole.takePageFrame]
  rcases hf.accept hheld rx with ⟨-, hid, page, hpage, hacc⟩ | ⟨hrx, e, hacc, hretry, hing⟩
  · have hdrop : page.drop pool permits sh = sh.giveBack f.holding := by
      rw [← hpage] at hheld ⊢
      exact (IssuedReceivedPage.release_eq hheld).2
    simp only [hacc, hdrop]
    split
    · obtain ⟨runtime', hfail⟩ := failLogical_eq hm runtime flow producerId (.unexpectedEnvelope
        page.page.kind page.page.flags producerId runtime.pageKind runtime.pageFlags)
      simp only [hfail]
      exact ⟨_, rfl, .givenUp (fun _ he => by cases he) (fun _ _ _ he => by cases he) (by rw [hid])⟩
    · obtain rfl | rfl := hm <;> exact ⟨_, rfl, .handedOut hpage⟩
  · simp only [hacc, hing, if_true]
    exact ⟨_, rfl, .notReady hretry hrx⟩

/-- The checks of the role do not find errors of the receiver. -/
lemma checkCall_ne_ingress {r : WorkerScanRole} {action : String} {flow : FlowId} {producerId : ℕ}
    {err : WorkerRoleError} (h : r.checkCall action flow producerId = some (.error err))
    (e : IssuedRxError) : err ≠ .ingress e := by
  rintro rfl
  rw [WorkerScanRole.checkCall] at h
  split at h
  · cases h
  · cases h
  all_goals
    obtain ⟨runtime, -, h⟩ := Option.map_eq_some_iff.mp h
    split at h
    · cases h
    · split at h
      · cases h
      · split at h <;> cases h

lemma acceptPageFrame_outcome {r : WorkerScanRole} (hr : Reached r) (flow : FlowId) (producerId : ℕ)
    (hf : Acceptable pool permits f sh) (hheld : sh.HeldBy pool permits others (f.holding :: hs))
    (rx : RxInner) :
    ∃ out, r.acceptPageFrame flow producerId pool permits (.page f) rx sh = some out ∧
      FrameOutcome f r rx sh out := by
  obtain ⟨H, ht⟩ := hr.tracks
  rcases ht.checkCall "accept page frame" flow producerId with
    ⟨err, hcheck, -⟩ | ⟨m, runtime, scan, rfl, hm, -, -, hcheck⟩
  · refine ⟨_, ?_, rejectPageFrame_outcome hf hheld rx r (checkCall_ne_ingress hcheck)⟩
    rw [WorkerScanRole.acceptPageFrame, hcheck]
    rfl
  · obtain ⟨out, htake, hout⟩ := takePageFrame_outcome hf hheld rx hm runtime flow producerId
    refine ⟨out, ?_, hout⟩
    rw [WorkerScanRole.acceptPageFrame, hcheck]
    exact htake

/-- The page and the permit of a frame are back in their pools. A page that was leased for the
last time is retired. -/
structure Back (f : IssuedPageFrame) (sh : Shared) : Prop where
  page : sh.pages.store.state f.inner.descriptor.pageId =
    Page.releasedState f.inner.descriptor.generation
  listed : f.inner.descriptor.generation ≠ Page.maxGeneration →
    f.inner.descriptor.pageId ∈ sh.pages.store.free
  permit : sh.permits.state f.permitId = Issuance.stateFree
  permit_listed : f.permitId ∈ sh.permits.free

lemma back_giveBack (hheld : sh.HeldBy pool permits others (f.holding :: hs)) :
    Back f (sh.giveBack f.holding) := by
  have hholds := Page.PageStore.HeldBy.holds hheld.pages _ List.mem_cons_self
  have hgen : sh.pages.store.generation f.inner.descriptor.pageId = f.inner.descriptor.generation :=
    hholds.generation
  refine ⟨?_, fun hmax => ?_, Function.update_self .., List.mem_cons_self⟩
  · show (sh.pages.store.giveBack f.inner.descriptor.pageId).state _ = _
    rw [Page.PageStore.giveBack, Page.releasedState, hgen]
    split <;> exact Function.update_self ..
  · show _ ∈ (sh.pages.store.giveBack f.inner.descriptor.pageId).free
    rw [Page.PageStore.giveBack, hgen, if_neg hmax]
    exact List.mem_cons_self

end Rejecting

/-- **A rejected page frame leaks nothing**, in every state of the worker role and whatever flow and
producer it is presented for. If the answer is neither a page nor an ingress error, its page and
permit are back in their pools, nothing else has changed hands, and the receiver accepts the next
frame. After an ingress error nothing has changed, and the frame may be presented again. -/
theorem rejected_frame_leaks_nothing (r : WorkerScanRole) (hr : Reached r) (flow : FlowId)
    (producerId : ℕ) (pool : PoolHandle) (permits : IssuancePool) (others : Shared.Others)
    (f : IssuedPageFrame) (hs : List Holding) (sh : Shared)
    (hheld : sh.HeldBy pool permits others (f.holding :: hs)) (hf : Acceptable pool permits f sh)
    (rx : RxInner) :
    ∃ reply r' rx' sh',
      r.acceptPageFrame flow producerId pool permits (.page f) rx sh = some (reply, r', rx', sh') ∧
      ((∀ flow' id page, reply ≠ .ok (.page flow' id page)) →
        (∀ err, reply ≠ .error (.ingress err)) → Back f sh' ∧ sh'.HeldBy pool permits others hs ∧
        ∀ g hs', sh'.HeldBy pool permits others (g.holding :: hs') → Acceptable pool permits g sh' →
          g.inner.transferId = saturatingSucc f.inner.transferId →
          ∃ page, (Issuance.accept pool permits (.page g) rx' sh').1 = .ok (.page page)) ∧
      ∀ err, reply = .error (.ingress err) → err.retryable = true ∧ r' = r ∧ rx' = rx ∧ sh' = sh ∧
        sh'.pages.store.state f.inner.descriptor.pageId = .detached ∧
        sh'.permits.state f.permitId = Issuance.stateLeased := by
  obtain ⟨out, hcall, hout⟩ := acceptPageFrame_outcome hr flow producerId hf hheld rx
  cases hout with
  | handedOut hpage =>
    exact ⟨_, _, _, _, hcall, fun hno => absurd rfl (hno _ _ _), fun _ he => nomatch he⟩
  | notReady herr hrx =>
    refine ⟨_, _, _, _, hcall, fun _ hno => absurd rfl (hno _), fun err he => ?_⟩
    cases he
    exact ⟨herr, rfl, rfl, rfl,
      (Page.PageStore.HeldBy.holds hheld.pages _ List.mem_cons_self).state,
      ((hheld.permits.mem _).mp List.mem_cons_self).2⟩
  | givenUp hnot hnot' hrx =>
    refine ⟨_, _, _, _, hcall, fun _ _ => ⟨back_giveBack hheld, hheld.giveBack, ?_⟩,
      fun err he => absurd he (hnot err)⟩
    intro g hs' hheld' hg hid
    subst hrx
    rcases hg.accept hheld' ⟨.idle, saturatingSucc f.inner.transferId⟩ with
      ⟨-, -, page, -, hacc⟩ | ⟨hnot, -⟩
    · exact ⟨page, by rw [hacc]⟩
    · exact absurd ⟨rfl, hid⟩ hnot

/-- A page that was sent is presented to a role that is closed. -/
theorem rejected_frame_leaks_nothing_when_closed :
    ∃ sh rx r' rx' sh',
      WorkerScanRole.new.acceptPageFrame ⟨1, 2⟩ 0 Issuance.tinyAttached.pool
        Issuance.tinyAttached.permits (.page ⟨5, 1, ⟨1, ⟨7, 1, 1⟩⟩⟩) rx sh =
          some (.error (.invalidState "accept page frame" .closed), r', rx', sh') ∧
      sh.permits.state 1 = Issuance.stateLeased ∧ Back ⟨5, 1, ⟨1, ⟨7, 1, 1⟩⟩⟩ sh' := by
  have hrun : ((runCalls (Issuance.Channel.step Issuance.tinyAttached) (fun _ _ => true)
      (.start Issuance.tinyShared) [.begin 1 0, .write 0 [1, 2, 3], .finish 0, .markSent 0]).map
        fun s => (s.holdings,
          (Issuance.accept Issuance.tinyAttached.pool Issuance.tinyAttached.permits
            (.page ⟨5, 1, ⟨1, ⟨7, 1, 1⟩⟩⟩) s.rx s.sh).1,
          (WorkerScanRole.new.acceptPageFrame ⟨1, 2⟩ 0 Issuance.tinyAttached.pool
            Issuance.tinyAttached.permits (.page ⟨5, 1, ⟨1, ⟨7, 1, 1⟩⟩⟩) s.rx s.sh).map Prod.fst)) =
      some ([⟨⟨7, 1, 1⟩, .detached, 1⟩], .ok (.page ⟨⟨⟨7, 1, 1⟩, 1, 0, 3⟩, 1⟩),
        some (.error (.invalidState "accept page frame" .closed))) := by
    decide +kernel
  obtain ⟨s, hs, heq⟩ := Option.map_eq_some_iff.mp hrun
  simp only [Prod.mk.injEq] at heq
  obtain ⟨hholdings, haccept, hreply⟩ := heq
  have hpaired : Issuance.Channel.Paired Issuance.tinyAttached ⟨[], []⟩ Issuance.tinyShared s :=
    (runs_of_runCalls hs).invariant
      (Issuance.Channel.paired_start ⟨Page.PageStore.heldBy_fresh _,
        Issuance.PermitStore.heldBy_fresh _⟩
        fun _ => List.length_replicate) fun _ _ _ h _ hstep => h.step hstep
  have hheld := hpaired.held
  rw [hholdings] at hheld
  obtain ⟨reply, r', rx', sh', hcall, hback, -⟩ :=
    rejected_frame_leaks_nothing .new ⟨[], [], rfl⟩ ⟨1, 2⟩ 0 Issuance.tinyAttached.pool
      Issuance.tinyAttached.permits ⟨[], []⟩ ⟨5, 1, ⟨1, ⟨7, 1, 1⟩⟩⟩ [] s.sh hheld
      ⟨s.rx, _, haccept⟩ s.rx
  rw [hcall] at hreply
  obtain rfl : reply = _ := Option.some.inj hreply
  exact ⟨s.sh, s.rx, r', rx', sh', hcall, ((hheld.permits.mem 1).mp List.mem_cons_self).2,
    (hback (fun _ _ _ he => nomatch he) (fun _ he => nomatch he)).1⟩

end PgFusion.ScanFlow

import PgFusion.Interleave.Calls
import PgFusion.Issuance.Endpoint

/-!
Permits and pages go together. A client of the sender and a client of the receiver make their calls
in any order. What was marked as sent stays on its way until an `accept` consumes it, and may be
presented again. The receiver may be attached to other pools than the sender, and anybody may write
into the pages.

* `step`, `settle`: every call keeps the account of permits and pages;
* `permits_and_pages_paired`: no permit or page is lost, counted or released twice.
-/

namespace PgFusion.Issuance

open Page (PageDescriptor LeaseState PageStore)

open Transfer (PoolHandle PageMemory TxInner RxInner pageHeaderLen)

/-! ### Channels -/

/-- The pools that the sender and the receiver are attached to. Pools that go by one
identity are one pool. -/
structure Attached where
  pool : PoolHandle
  permits : IssuancePool
  rxPool : PoolHandle
  rxPermits : IssuancePool
  pool_eq : rxPool = pool ∨ rxPool.poolId ≠ pool.poolId
  permits_eq : rxPermits = permits ∨ rxPermits.instanceId ≠ permits.instanceId

/-- A sender and a receiver, with what they have handed out and the frames that are on
their way. `accepting` is the frame, by its place, that the receiver is working on, and
`outcome` what the last `accept` has returned. -/
structure Channel where
  sh : Shared
  tx : TxInner
  rx : RxInner
  writers : List IssuedWriter
  outbounds : List IssuedOutboundPage
  inFlight : List IssuedOwnedFrame
  live : List IssuedReceivedPage
  accepting : Option ℕ
  outcome : Option (Except IssuedRxError IssueEvent)

/-- The calls of the two clients, and a write into a page. A call on something that was
handed out names it by its place. -/
inductive ChannelCall where
  | begin (kind flags : UInt16)
  | write (i : ℕ) (buf : List UInt8)
  | finish (i : ℕ)
  | finishWithPayloadLen (i payloadLen : ℕ)
  | dropWriter (i : ℕ)
  | markSent (i : ℕ)
  | dropOutbound (i : ℕ)
  | close
  | beginAccept (i : ℕ)
  | finishAccept
  | release (i : ℕ)
  | dropReceived (i : ℕ)
  | scribble (page : ℕ) (bytes : List UInt8)
deriving DecidableEq

namespace Channel

variable (a : Attached)

/-- A writer is finished. -/
def finishWriter (s : Channel) (i payloadLen : ℕ) (w : IssuedWriter) : Channel :=
  match w.finishWithPayloadLen a.pool a.permits payloadLen s.tx s.sh with
  | (.error _, tx, sh) => { s with tx := tx, sh := sh, writers := s.writers.eraseIdx i }
  | (.ok o, tx, sh) =>
    { s with
      tx := tx
      sh := sh
      writers := s.writers.eraseIdx i
      outbounds := s.outbounds ++ [o] }

/-- The receiver finishes its work on a frame. -/
def settle (s : Channel) (i : ℕ) (frame : IssuedOwnedFrame) : Channel :=
  match Issuance.finishAccept a.rxPool a.rxPermits frame s.rx s.sh with
  | (.ok (.page page), rx, sh) =>
    { s with
      rx := rx
      sh := sh
      inFlight := s.inFlight.eraseIdx i
      live := s.live ++ [page]
      accepting := none
      outcome := some (.ok (.page page)) }
  | (.ok .closed, rx, sh) =>
    { s with
      rx := rx
      sh := sh
      inFlight := s.inFlight.eraseIdx i
      accepting := none
      outcome := some (.ok .closed) }
  | (.error err, rx, sh) =>
    { s with
      rx := rx
      sh := sh
      inFlight := if err.retryable then s.inFlight else s.inFlight.eraseIdx i
      accepting := none
      outcome := some (.error err) }

/-- One call. -/
def step (s : Channel) : ChannelCall → Option Channel
  | .begin kind flags =>
    match Issuance.begin a.pool a.permits kind.toNat flags.toNat s.tx s.sh with
    | (.error _, tx, sh) => some { s with tx := tx, sh := sh }
    | (.ok w, tx, sh) => some { s with tx := tx, sh := sh, writers := s.writers ++ [w] }
  | .write i buf =>
    (s.writers[i]?).map fun w =>
      let r := w.write buf s.sh
      { s with sh := r.2.2, writers := s.writers.set i r.2.1 }
  | .finish i => (s.writers[i]?).map fun w => s.finishWriter a i w.writer.position w
  | .finishWithPayloadLen i payloadLen =>
    (s.writers[i]?).map fun w => s.finishWriter a i payloadLen w
  | .dropWriter i =>
    (s.writers[i]?).map fun w =>
      let r := w.drop a.pool a.permits s.tx s.sh
      { s with tx := r.1, sh := r.2, writers := s.writers.eraseIdx i }
  | .markSent i =>
    (s.outbounds[i]?).map fun o =>
      { s with
        tx := s.tx.finishOutbound
        outbounds := s.outbounds.eraseIdx i
        inFlight := s.inFlight ++ [o.frame a.permits] }
  | .dropOutbound i =>
    (s.outbounds[i]?).map fun o =>
      let r := o.drop a.pool a.permits s.tx s.sh
      { s with tx := r.1, sh := r.2, outbounds := s.outbounds.eraseIdx i }
  | .close =>
    match Issuance.close s.tx with
    | (.error _, tx) => some { s with tx := tx }
    | (.ok frame, tx) => some { s with tx := tx, inFlight := s.inFlight ++ [frame] }
  | .beginAccept i =>
    (s.inFlight[i]?).map fun frame =>
      match Issuance.beginAccept a.rxPermits frame s.rx with
      | .error err => { s with outcome := some (.error err) }
      | .ok rx => { s with rx := rx, accepting := some i, outcome := none }
  | .finishAccept =>
    s.accepting.bind fun i => (s.inFlight[i]?).map fun frame => s.settle a i frame
  | .release i =>
    (s.live[i]?).map fun page =>
      { s with sh := (page.release a.rxPool a.rxPermits s.sh).2, live := s.live.eraseIdx i }
  | .dropReceived i =>
    (s.live[i]?).map fun page =>
      { s with sh := page.drop a.rxPool a.rxPermits s.sh, live := s.live.eraseIdx i }
  | .scribble page bytes =>
    if bytes.length = a.pool.pageSize then
      some { s with
        sh := { s.sh with
          pages := { s.sh.pages with bytes := Function.update s.sh.pages.bytes page bytes } } }
    else none

/-- A fresh sender and a fresh receiver. -/
def start (sh : Shared) : Channel where
  sh := sh
  tx := .new
  rx := .new
  writers := []
  outbounds := []
  inFlight := []
  live := []
  accepting := none
  outcome := none

/-- What the frames on their way hold. -/
def frameHoldings (fs : List IssuedOwnedFrame) : List Holding :=
  fs.filterMap fun
    | .page f => some f.holding
    | .close _ => none

/-- What has been handed out or is on its way. -/
def holdings (s : Channel) : List Holding :=
  s.writers.map IssuedWriter.holding ++ (s.outbounds.map IssuedOutboundPage.holding ++
    (frameHoldings s.inFlight ++ s.live.map IssuedReceivedPage.holding))

/-- What an `accept` of the frame at place `i` may come to: the frame becomes a received
page, or closes the receiver, or its page is invalid and it gives up what it holds. Otherwise
nothing has happened, and the frame is still on its way. -/
inductive Settles (s s' : Channel) (i : ℕ) :
    IssuedOwnedFrame → Except IssuedRxError IssueEvent → Prop where
  | page {f : IssuedPageFrame} {page : IssuedReceivedPage} (hpage : page.holding = f.holding)
      (hsh : s'.sh = s.sh) (hflight : s'.inFlight = s.inFlight.eraseIdx i)
      (hlive : s'.live = s.live ++ [page]) : Settles s s' i (.page f) (.ok (.page page))
  | closed {f : Transfer.CloseFrame} (hsh : s'.sh = s.sh)
      (hflight : s'.inFlight = s.inFlight.eraseIdx i) (hlive : s'.live = s.live) :
      Settles s s' i (.close f) (.ok .closed)
  | invalid {f : IssuedPageFrame} {err : Transfer.InvalidPageError}
      (hsh : s'.sh = s.sh.giveBack f.holding) (hflight : s'.inFlight = s.inFlight.eraseIdx i)
      (hlive : s'.live = s.live) : Settles s s' i (.page f) (.error (.rx (.invalidPage err)))
  | retry {frame : IssuedOwnedFrame} {err : IssuedRxError} (herr : err.retryable = true)
      (hsh : s'.sh = s.sh) (hflight : s'.inFlight = s.inFlight) (hlive : s'.live = s.live) :
      Settles s s' i frame (.error err)

/-! ### The invariant -/

/-- What is true of a channel at any time. `others` is what somebody else has leased, and
`sh₀` the memory at the start. -/
structure Paired (others : Shared.Others) (sh₀ : Shared) (s : Channel) : Prop where
  held : s.sh.HeldBy a.pool a.permits others s.holdings
  clean : sh₀.permits.Clean s.sh.permits
  sized : ∀ i, (s.sh.pages.bytes i).length = a.pool.pageSize
  roomy : s.writers ≠ [] → pageHeaderLen ≤ a.pool.pageSize
  frames : ∀ f, .page f ∈ s.inFlight → f.poolInstanceId = a.permits.instanceId
  received : s.live ≠ [] → a.rxPool = a.pool ∧ a.rxPermits = a.permits
  accepting : ∀ i f, s.accepting = some i → s.inFlight[i]? = some (.page f) →
    a.rxPermits = a.permits
  place : ∀ i, s.accepting = some i → i < s.inFlight.length

namespace Paired

variable {a : Attached} {others : Shared.Others} {sh₀ : Shared} {s : Channel}

/-- A place in the list of holdings does not matter. -/
lemma held_perm (h : Paired a others sh₀ s) {hs : List Holding}
    (hp : ∀ x, s.holdings.count x = hs.count x) :
    s.sh.HeldBy a.pool a.permits others hs :=
  h.held.perm (List.perm_iff_count.mpr hp)

variable {i : ℕ}

/-- What a writer holds is held, besides the rest. -/
lemma of_writer (h : Paired a others sh₀ s) {w : IssuedWriter} (hw : s.writers[i]? = some w) :
    s.sh.HeldBy a.pool a.permits others
      (w.holding :: { s with writers := s.writers.eraseIdx i }.holdings) := by
  refine h.held_perm fun x => ?_
  have hcount := ((perm_cons_eraseIdx hw).map IssuedWriter.holding).count_eq x
  simp only [holdings, List.map_cons, List.count_append, List.count_cons] at hcount ⊢
  omega

/-- What an outbound page holds is held, besides the rest. -/
lemma of_outbound (h : Paired a others sh₀ s) {o : IssuedOutboundPage}
    (ho : s.outbounds[i]? = some o) :
    s.sh.HeldBy a.pool a.permits others
      (o.holding :: { s with outbounds := s.outbounds.eraseIdx i }.holdings) := by
  refine h.held_perm fun x => ?_
  have hcount := ((perm_cons_eraseIdx ho).map IssuedOutboundPage.holding).count_eq x
  simp only [holdings, List.map_cons, List.count_append, List.count_cons] at hcount ⊢
  omega

/-- What a page frame holds is held, besides the rest. -/
lemma of_frame (h : Paired a others sh₀ s) {f : IssuedPageFrame}
    (hf : s.inFlight[i]? = some (.page f)) :
    s.sh.HeldBy a.pool a.permits others
      (f.holding :: { s with inFlight := s.inFlight.eraseIdx i }.holdings) := by
  refine h.held_perm fun x => ?_
  have hcount := ((perm_cons_eraseIdx hf).filterMap fun
    | .page f => some f.holding
    | .close _ => none).count_eq x
  simp only [holdings, frameHoldings, List.filterMap_cons, List.count_append,
    List.count_cons] at hcount ⊢
  omega

/-- What a received page holds is held, besides the rest. -/
lemma of_received (h : Paired a others sh₀ s) {page : IssuedReceivedPage}
    (hp : s.live[i]? = some page) :
    s.sh.HeldBy a.pool a.permits others
      (page.holding :: { s with live := s.live.eraseIdx i }.holdings) := by
  refine h.held_perm fun x => ?_
  have hcount := ((perm_cons_eraseIdx hp).map IssuedReceivedPage.holding).count_eq x
  simp only [holdings, List.map_cons, List.count_append, List.count_cons] at hcount ⊢
  omega

/-- The list of things that were handed out is not empty if one of its parts is not. -/
lemma ne_nil_of_eraseIdx {α : Type} {l : List α} (h : l.eraseIdx i ≠ []) : l ≠ [] := by
  rintro rfl
  exact h rfl

/-- A writer, an outbound page or a received page gives up what it holds, and is gone. -/
lemma gives (h : Paired a others sh₀ s) {s' : Channel} {x : Holding}
    (hheld : s.sh.HeldBy a.pool a.permits others (x :: s'.holdings))
    (hsh : s'.sh = s.sh.giveBack x) (hwriters : s'.writers ≠ [] → s.writers ≠ [])
    (hlive : s'.live ≠ [] → s.live ≠ []) (hflight : s'.inFlight = s.inFlight)
    (hacc : s'.accepting = s.accepting) : Paired a others sh₀ s' where
  held := hsh ▸ hheld.giveBack
  clean := hsh ▸ h.clean.trans (PermitStore.clean_giveBack _ _)
  sized := hsh ▸ h.sized
  roomy hw := h.roomy (hwriters hw)
  frames := hflight ▸ h.frames
  received hl := h.received (hlive hl)
  accepting := hflight ▸ hacc ▸ h.accepting
  place := hflight ▸ hacc ▸ h.place

/-- A writer is finished, or it is gone. -/
lemma finishWriter (h : Paired a others sh₀ s) {w : IssuedWriter}
    (hw : s.writers[i]? = some w) (n : ℕ) : Paired a others sh₀ (s.finishWriter a i n w) := by
  have hheld := h.of_writer hw
  have hsize : pageHeaderLen ≤ (s.sh.pages.bytes w.writer.lease.pageId).length := by
    rw [h.sized]
    exact h.roomy fun he => by simp [he] at hw
  rw [Channel.finishWriter]
  rcases IssuedWriter.finish_cases hheld hsize s.tx n with
    ⟨m, o, tx, hfin, -, -, hnew, hlen⟩ | ⟨err, tx, hfin⟩
  · simp only [hfin]
    refine { h with
      held := hnew.perm (List.perm_iff_count.mpr fun x => ?_)
      sized := fun j => (hlen j).trans (h.sized j)
      roomy := fun hne => h.roomy (ne_nil_of_eraseIdx hne) }
    simp only [holdings, List.map_append, List.map_cons, List.map_nil, List.count_append,
      List.count_cons, List.count_nil]
    omega
  · simp only [hfin]
    exact h.gives hheld rfl ne_nil_of_eraseIdx id rfl rfl

variable {frame : IssuedOwnedFrame}

/-- Frames on their way stay so when another is sent. -/
lemma send (h : Paired a others sh₀ s) {s' : Channel}
    (hheld : s'.sh.HeldBy a.pool a.permits others s'.holdings) (hsh : s'.sh = s.sh)
    (hwriters : s'.writers = s.writers) (hlive : s'.live = s.live)
    (hflight : s'.inFlight = s.inFlight ++ [frame]) (hacc : s'.accepting = s.accepting)
    (hframe : ∀ f, frame = .page f → f.poolInstanceId = a.permits.instanceId) :
    Paired a others sh₀ s' where
  held := hheld
  clean := hsh ▸ h.clean
  sized := hsh ▸ h.sized
  roomy := hwriters ▸ h.roomy
  frames f hf := by
    rw [hflight, List.mem_append, List.mem_singleton] at hf
    exact hf.elim (h.frames f) fun he => hframe f he.symm
  received := hlive ▸ h.received
  accepting i f hi hf := by
    rw [hacc] at hi
    rw [hflight, List.getElem?_append_left (h.place i hi)] at hf
    exact h.accepting i f hi hf
  place i hi := by
    rw [hflight, List.length_append]
    exact Nat.lt_add_right _ (h.place i (hacc ▸ hi))

/-- **The end of an `accept`** is one of those that it may come to. A page is received only
if both sides are attached to the same pools. -/
lemma settles (h : Paired a others sh₀ s)
    (hacc : s.accepting = some i) (hf : s.inFlight[i]? = some frame) :
    ∃ r, (s.settle a i frame).outcome = some r ∧ Settles s (s.settle a i frame) i frame r ∧
      ((s.settle a i frame).live ≠ [] → a.rxPool = a.pool ∧ a.rxPermits = a.permits) := by
  rw [settle]
  match frame, hf with
  | .close f, _ =>
    rcases finishAccept_close a.rxPool a.rxPermits f s.rx s.sh with hfin | hfin
    · simp only [hfin]
      exact ⟨_, rfl, .retry rfl rfl rfl rfl, h.received⟩
    · simp only [hfin]
      exact ⟨_, rfl, .closed rfl rfl rfl, h.received⟩
  | .page f, hf =>
    have hheld := h.of_frame hf
    have hpermits := h.accepting i f hacc hf
    rcases a.pool_eq with hpool | hpool
    · rw [← hpool, ← hpermits] at hheld
      rcases finishAccept_page hheld s.rx with ⟨-, hfin⟩ | ⟨-, ⟨page, hpage, hfin⟩ | ⟨err, hfin⟩⟩
      · simp only [hfin]
        exact ⟨_, rfl, .retry rfl rfl rfl rfl, fun _ => ⟨hpool, hpermits⟩⟩
      · simp only [hfin]
        exact ⟨_, rfl, .page hpage rfl rfl rfl, fun _ => ⟨hpool, hpermits⟩⟩
      · simp only [hfin]
        exact ⟨_, rfl, .invalid rfl rfl rfl, fun _ => ⟨hpool, hpermits⟩⟩
    · -- the page is not of the receiver's pool
      have hid : f.inner.descriptor.poolId ≠ a.rxPool.poolId := by
        have hmine := (PageStore.HeldBy.holds hheld.pages _ List.mem_cons_self).poolId
        exact fun he => hpool (he.symm.trans hmine)
      obtain ⟨err, hretry, hfin⟩ := finishAccept_other a.rxPermits hid s.rx s.sh
      simp only [hfin, hretry, if_true]
      exact ⟨_, rfl, .retry hretry rfl rfl rfl, h.received⟩

/-- The end of an `accept` keeps the pairing. -/
lemma settle (h : Paired a others sh₀ s)
    (hacc : s.accepting = some i) (hf : s.inFlight[i]? = some frame) :
    Paired a others sh₀ (s.settle a i frame) := by
  obtain ⟨r, -, hsettles, hreceived⟩ := h.settles hacc hf
  have hkept : (s.settle a i frame).writers = s.writers ∧
      (s.settle a i frame).outbounds = s.outbounds ∧ (s.settle a i frame).accepting = none := by
    rw [Channel.settle]
    split <;> exact ⟨rfl, rfl, rfl⟩
  generalize s.settle a i frame = s' at hsettles hreceived hkept
  obtain ⟨hwriters, houtbounds, hnone⟩ := hkept
  have herase : ∀ f, .page f ∈ s.inFlight.eraseIdx i → .page f ∈ s.inFlight :=
    fun f => List.mem_of_mem_eraseIdx
  cases hsettles with
  | @page f page hpage hsh hflight hlive =>
    refine ⟨hsh ▸ (h.of_frame hf).perm (List.perm_iff_count.mpr fun x => ?_), hsh ▸ h.clean,
      hsh ▸ h.sized, hwriters ▸ h.roomy, fun f hmem => h.frames f (herase f (hflight ▸ hmem)),
      hreceived, fun _ _ hi => ?_, fun _ hi => ?_⟩
    · simp only [holdings, hwriters, houtbounds, hflight, hlive, ← hpage, List.map_append,
        List.map_cons, List.map_nil, List.count_append, List.count_cons, List.count_nil]
      omega
    · simp [hnone] at hi
    · simp [hnone] at hi
  | @closed f hsh hflight hlive =>
    have hcount := (perm_cons_eraseIdx hf).filterMap fun
      | .page f => some f.holding
      | .close _ => none
    refine ⟨hsh ▸ h.held_perm fun x => ?_, hsh ▸ h.clean,
      hsh ▸ h.sized, hwriters ▸ h.roomy, fun f hmem => h.frames f (herase f (hflight ▸ hmem)),
      hreceived, fun _ _ hi => ?_, fun _ hi => ?_⟩
    · have hcount := hcount.count_eq x
      simp only [List.filterMap_cons] at hcount
      simp only [holdings, hwriters, houtbounds, hflight, hlive, frameHoldings, List.count_append,
        hcount]
    · simp [hnone] at hi
    · simp [hnone] at hi
  | @invalid f err hsh hflight hlive =>
    have hheld : s.sh.HeldBy a.pool a.permits others (f.holding :: s'.holdings) := by
      have hrest := h.of_frame hf
      simpa only [holdings, hwriters, houtbounds, hflight, hlive] using hrest
    refine ⟨hsh ▸ hheld.giveBack, hsh ▸ h.clean.trans (PermitStore.clean_giveBack _ _),
      hsh ▸ h.sized, hwriters ▸ h.roomy, fun f hmem => h.frames f (herase f (hflight ▸ hmem)),
      hreceived, fun _ _ hi => ?_, fun _ hi => ?_⟩
    · simp [hnone] at hi
    · simp [hnone] at hi
  | retry herr hsh hflight hlive =>
    refine ⟨hsh ▸ h.held_perm fun x => ?_, hsh ▸ h.clean, hsh ▸ h.sized, hwriters ▸ h.roomy,
      hflight ▸ h.frames, hreceived, fun _ _ hi => ?_, fun _ hi => ?_⟩
    · simp only [holdings, hwriters, houtbounds, hflight, hlive]
    · simp [hnone] at hi
    · simp [hnone] at hi

/-- The first half of an `accept` leaves everything alone; an error that it returns allows to
present the frame again. -/
lemma beginAccept (h : Paired a others sh₀ s) {s' : Channel}
    (hstep : s.step a (.beginAccept i) = some s') :
    Paired a others sh₀ s' ∧ s'.sh = s.sh ∧ s'.inFlight = s.inFlight ∧ s'.live = s.live ∧
      ∀ r, s'.outcome = some r → ∃ err, r = .error err ∧ err.retryable = true := by
  obtain ⟨frame, hf, rfl⟩ := Option.map_eq_some_iff.mp hstep
  cases hbegin : Issuance.beginAccept a.rxPermits frame s.rx with
  | error err =>
    refine ⟨{ h with }, rfl, rfl, rfl, fun r hr => ⟨err, (Option.some.inj hr).symm, ?_⟩⟩
    have hphase : ∀ err', s.rx.beginAccept.mapError IssuedRxError.rx = .error err' →
        err'.retryable = true := by
      intro err' he
      rw [RxInner.beginAccept] at he
      split at he <;> cases he <;> rfl
    cases frame with
    | close f => exact hphase err hbegin
    | page f =>
      rw [Issuance.beginAccept] at hbegin
      split at hbegin
      · cases hbegin
        rfl
      · exact hphase err hbegin
  | ok rx =>
    refine ⟨{ h with accepting := ?_, place := ?_ }, rfl, rfl, rfl, fun r hr => nomatch hr⟩
    · rintro j f hj hfj
      obtain rfl := Option.some.inj hj
      obtain rfl : frame = .page f := Option.some.inj (hf.symm.trans hfj)
      -- the frame was checked against the receiver's permit pool
      refine a.permits_eq.resolve_right fun hne => hne ?_
      rw [← h.frames f (List.mem_of_getElem? hf)]
      rw [Issuance.beginAccept] at hbegin
      split at hbegin
      · cases hbegin
      · next heq => exact (not_not.mp heq).symm
    · rintro j hj
      obtain rfl := Option.some.inj hj
      exact (List.getElem?_eq_some_iff.mp hf).1

/-- **Every call keeps the pairing.** -/
lemma step (h : Paired a others sh₀ s) {c : ChannelCall} {s' : Channel}
    (hstep : s.step a c = some s') : Paired a others sh₀ s' := by
  cases c with
  | begin kind flags =>
    obtain ⟨sh', hclean, hbytes, ⟨w, hbegin, hheld, hsmall⟩ | ⟨err, hbegin, hheld⟩⟩ :=
      begin_cases h.held s.tx kind.toNat flags.toNat
    · simp only [Channel.step, hbegin] at hstep
      obtain rfl := Option.some.inj hstep
      refine { h with
        held := hheld.perm (List.perm_iff_count.mpr fun x => ?_)
        clean := h.clean.trans hclean
        sized := fun j => (congrArg List.length (congrFun hbytes j)).trans (h.sized j)
        roomy := fun _ => hsmall }
      simp only [holdings, List.map_append, List.map_cons, List.map_nil, List.count_append,
        List.count_cons, List.count_nil]
      omega
    · simp only [Channel.step, hbegin] at hstep
      obtain rfl := Option.some.inj hstep
      exact { h with
        held := hheld
        clean := h.clean.trans hclean
        sized := fun j => (congrArg List.length (congrFun hbytes j)).trans (h.sized j) }
  | write i buf =>
    obtain ⟨w, hw, rfl⟩ := Option.map_eq_some_iff.mp hstep
    obtain ⟨hlease, hstore, hlen⟩ := w.writer.write_spec buf s.sh.pages
    have hholding : (w.write buf s.sh).2.1.holding = w.holding := by
      simp only [IssuedWriter.write, IssuedWriter.holding, hlease]
    have hmap : (s.writers.set i (w.write buf s.sh).2.1).map IssuedWriter.holding =
        s.writers.map IssuedWriter.holding := by
      obtain ⟨hi, rfl⟩ := List.getElem?_eq_some_iff.mp hw
      have hi' : i < (s.writers.map IssuedWriter.holding).length := by rwa [List.length_map]
      rw [List.map_set, hholding, ← List.getElem_map IssuedWriter.holding (h := hi'),
        List.set_getElem_self]
    refine { h with
      held := ⟨?_, ?_⟩
      sized := fun j => (hlen j).trans (h.sized j)
      roomy := fun hne => h.roomy fun he => hne (by rw [he]; rfl) }
    · rw [holdings, hmap, PageMemory.HeldBy]
      simp only [IssuedWriter.write, hstore]
      exact h.held.pages
    · rw [holdings, hmap]
      exact h.held.permits
  | finish i =>
    obtain ⟨w, hw, rfl⟩ := Option.map_eq_some_iff.mp hstep
    exact h.finishWriter hw _
  | finishWithPayloadLen i n =>
    obtain ⟨w, hw, rfl⟩ := Option.map_eq_some_iff.mp hstep
    exact h.finishWriter hw n
  | dropWriter i =>
    obtain ⟨w, hw, rfl⟩ := Option.map_eq_some_iff.mp hstep
    have hheld := h.of_writer hw
    simp only [IssuedWriter.drop_eq hheld]
    exact h.gives hheld rfl ne_nil_of_eraseIdx id rfl rfl
  | markSent i =>
    obtain ⟨o, ho, rfl⟩ := Option.map_eq_some_iff.mp hstep
    refine h.send ((h.of_outbound ho).perm (List.perm_iff_count.mpr fun x => ?_)) rfl rfl rfl rfl
      rfl fun f hf => ?_
    · simp only [holdings, frameHoldings, IssuedOutboundPage.frame, List.filterMap_append,
        List.filterMap_cons, List.filterMap_nil, List.count_append, List.count_cons, List.count_nil,
        IssuedOutboundPage.holding, IssuedPageFrame.holding]
      omega
    · cases hf
      rfl
  | dropOutbound i =>
    obtain ⟨o, ho, rfl⟩ := Option.map_eq_some_iff.mp hstep
    have hheld := h.of_outbound ho
    simp only [IssuedOutboundPage.drop_eq hheld]
    exact h.gives hheld rfl id id rfl rfl
  | close =>
    have hclose : ∀ frame tx, Issuance.close s.tx = (.ok frame, tx) → ∃ f, frame = .close f := by
      intro frame tx hc
      rw [Issuance.close] at hc
      split at hc
      · exact ⟨_, (Except.ok.inj (Prod.mk.inj hc).1).symm⟩
      · cases (Prod.mk.inj hc).1
      · cases (Prod.mk.inj hc).1
    simp only [Channel.step] at hstep
    split at hstep
    · obtain rfl := Option.some.inj hstep
      exact { h with }
    · next frame tx hc =>
        obtain rfl := Option.some.inj hstep
        obtain ⟨f, rfl⟩ := hclose frame tx hc
        refine h.send ?_ rfl rfl rfl rfl rfl fun f' hf => nomatch hf
        simpa [holdings, frameHoldings] using h.held
  | beginAccept i => exact (h.beginAccept hstep).1
  | finishAccept =>
    obtain ⟨i, hacc, hstep⟩ := Option.bind_eq_some_iff.mp hstep
    obtain ⟨frame, hf, rfl⟩ := Option.map_eq_some_iff.mp hstep
    exact h.settle hacc hf
  | release i =>
    obtain ⟨page, hp, rfl⟩ := Option.map_eq_some_iff.mp hstep
    have hheld := h.of_received hp
    obtain ⟨hpool, hpermits⟩ := h.received fun he => by simp [he] at hp
    simp only [hpool, hpermits, (IssuedReceivedPage.release_eq hheld).1]
    exact h.gives hheld rfl id ne_nil_of_eraseIdx rfl rfl
  | dropReceived i =>
    obtain ⟨page, hp, rfl⟩ := Option.map_eq_some_iff.mp hstep
    have hheld := h.of_received hp
    obtain ⟨hpool, hpermits⟩ := h.received fun he => by simp [he] at hp
    simp only [hpool, hpermits, (IssuedReceivedPage.release_eq hheld).2]
    exact h.gives hheld rfl id ne_nil_of_eraseIdx rfl rfl
  | scribble page bytes =>
    simp only [Channel.step] at hstep
    split at hstep
    · next hlen =>
        obtain rfl := Option.some.inj hstep
        refine { h with held := ⟨h.held.pages, h.held.permits⟩, sized := fun j => ?_ }
        show (Function.update s.sh.pages.bytes page bytes j).length = _
        by_cases hj : j = page
        · rw [hj, Function.update_self, hlen]
        · rw [Function.update_of_ne hj, h.sized]
    · cases hstep

end Paired

end Channel

lemma Channel.paired_start {a : Attached} {others : Shared.Others} {sh : Shared}
    (hheld : sh.HeldBy a.pool a.permits others [])
    (hsized : ∀ i, (sh.pages.bytes i).length = a.pool.pageSize) :
    Channel.Paired a others sh (.start sh) where
  held := hheld
  clean := ⟨rfl, rfl⟩
  sized := hsized
  roomy h := absurd rfl h
  frames _ h := absurd h List.not_mem_nil
  received h := absurd rfl h
  accepting _ _ h := nomatch h
  place _ h := nomatch h

/-! ### The pairing -/

/-- **Permits and pages go together.** At any time, the leased permits are those of the writers, of
the outbound pages, of the page frames on their way and of the received pages, and so are the leased
pages; none is counted or released twice, and the release of a received page succeeds. An `accept`
moves the permit and the page of its frame on, or gives both up, or leaves the frame as it was. -/
theorem permits_and_pages_paired (a : Attached) (others : Shared.Others) (sh : Shared)
    (hheld : sh.HeldBy a.pool a.permits others [])
    (hsized : ∀ i, (sh.pages.bytes i).length = a.pool.pageSize) (s : Channel)
    (hrun : Runs (Channel.step a) (fun _ _ => True) (.start sh) s) :
    (s.sh.permits.leasedPermits a.permits = s.writers.length + s.outbounds.length +
        (Channel.frameHoldings s.inFlight).length + s.live.length + others.permits.length ∧
      s.sh.permits.metrics .leasedPermits = s.sh.permits.leasedPermits a.permits) ∧
    s.sh.pages.store.leasedPages a.pool.toPagePool = s.writers.length + s.outbounds.length +
        (Channel.frameHoldings s.inFlight).length + s.live.length + others.pages.length ∧
    (s.holdings.map fun h => h.permit).Nodup ∧
    (s.holdings.map fun h => h.descriptor.pageId).Nodup ∧
    sh.permits.Clean s.sh.permits ∧
    (∀ page ∈ s.live, (page.release a.rxPool a.rxPermits s.sh).1 = .ok ()) ∧
    (∀ i frame s', s.inFlight[i]? = some frame → s.step a (.beginAccept i) = some s' →
      s'.sh = s.sh ∧ s'.inFlight = s.inFlight ∧ s'.live = s.live ∧
        ∀ r, s'.outcome = some r → Channel.Settles s s' i frame r) ∧
    ∀ i frame s', s.inFlight[i]? = some frame → s.accepting = some i →
      s.step a .finishAccept = some s' →
        ∃ r, s'.outcome = some r ∧ Channel.Settles s s' i frame r := by
  have hinv : Channel.Paired a others sh s :=
    hrun.invariant (Channel.paired_start hheld hsized) fun s c s' h _ hstep => h.step hstep
  have hpermits := hinv.held.permits.leasedPermits
  have hpages := PageStore.HeldBy.leasedPages hinv.held.pages
  have hnodup := hinv.held.permits.nodup
  have hpagesNodup := PageStore.HeldBy.nodup hinv.held.pages
  refine ⟨⟨?_, ?_⟩, ?_, ?_, ?_, hinv.clean, ?_, ?_, ?_⟩
  · rw [hpermits]
    simp only [Channel.holdings, List.length_append, List.length_map]
    omega
  · rw [hpermits, hinv.held.permits.counted]
  · rw [hpages]
    simp only [Channel.holdings, List.length_append, List.length_map]
    omega
  · exact (List.nodup_append.mp hnodup).1
  · rw [List.map_append, List.map_map] at hpagesNodup
    exact (List.nodup_append.mp hpagesNodup).1
  · intro page hp
    obtain ⟨i, hi⟩ := List.getElem?_of_mem hp
    obtain ⟨hpool, hsame⟩ := hinv.received (List.ne_nil_of_mem hp)
    rw [hpool, hsame, (IssuedReceivedPage.release_eq (hinv.of_received hi)).1]
  · intro i frame s' hf hstep
    obtain ⟨-, hsh, hflight, hlive, hout⟩ := hinv.beginAccept hstep
    refine ⟨hsh, hflight, hlive, fun r hr => ?_⟩
    obtain ⟨err, rfl, herr⟩ := hout r hr
    exact .retry herr hsh hflight hlive
  · intro i frame s' hf hacc hstep
    simp only [Channel.step, hacc, Option.bind_some, hf, Option.map_some] at hstep
    obtain rfl := Option.some.inj hstep
    obtain ⟨r, hr, hsettles, -⟩ := hinv.settles hacc hf
    exact ⟨r, hr, hsettles⟩

/-- Two small pages under two permits, and both sides attached to the same pools. -/
def tinyAttached : Attached where
  pool := { poolId := 7, pageCount := 2, pageSize := 64 }
  permits := { permitCount := 2, instanceId := 5, count_lt := by decide }
  rxPool := { poolId := 7, pageCount := 2, pageSize := 64 }
  rxPermits := { permitCount := 2, instanceId := 5, count_lt := by decide }
  pool_eq := .inl rfl
  permits_eq := .inl rfl

/-- The memory of these pools when nothing is leased. -/
def tinyShared : Shared where
  pages := ⟨PageStore.fresh tinyAttached.pool.toPagePool, fun _ => List.replicate 64 0⟩
  permits := PermitStore.fresh tinyAttached.permits

/-- A page is sent; while the receiver works on it, it is presented once more, and another
page is begun. Then it is received. Two permits and two pages are leased. -/
theorem permits_and_pages_paired_one_received :
    ∃ s, Runs (Channel.step tinyAttached) (fun _ _ => True) (.start tinyShared) s ∧
      s.writers.length = 1 ∧ s.live.length = 1 ∧
      s.sh.permits.leasedPermits tinyAttached.permits = 2 ∧
      s.sh.pages.store.leasedPages tinyAttached.pool.toPagePool = 2 ∧
      ∀ page ∈ s.live, (page.release tinyAttached.rxPool tinyAttached.rxPermits s.sh).1 =
        .ok () := by
  have hrun : ((runCalls (Channel.step tinyAttached) (fun _ _ => true) (.start tinyShared)
      [.begin 1 0, .write 0 [1, 2, 3], .finish 0, .markSent 0, .beginAccept 0, .beginAccept 0,
        .begin 2 0, .finishAccept]).map fun s =>
          (s.writers.length, s.outbounds.length, (Channel.frameHoldings s.inFlight).length,
            s.live.length)) = some (1, 0, 0, 1) := by
    decide +kernel
  obtain ⟨s, hs, heq⟩ := Option.map_eq_some_iff.mp hrun
  simp only [Prod.mk.injEq] at heq
  obtain ⟨hwriters, houtbounds, hflight, hlive⟩ := heq
  have hruns : Runs (Channel.step tinyAttached) (fun _ _ => True) (.start tinyShared) s :=
    (runs_of_runCalls hs).mono fun _ _ _ => trivial
  obtain ⟨⟨hpermits, -⟩, hpages, -, -, -, hrelease, -, -⟩ :=
    permits_and_pages_paired tinyAttached ⟨[], []⟩ tinyShared
      ⟨PageStore.heldBy_fresh _, PermitStore.heldBy_fresh _⟩ (fun _ => List.length_replicate) s
        hruns
  rw [hwriters, houtbounds, hflight, hlive] at hpermits hpages
  exact ⟨s, hruns, hwriters, hlive, hpermits, hpages, hrelease⟩

end PgFusion.Issuance

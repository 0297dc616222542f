import PgFusion.Interleave.Calls
import PgFusion.Transfer.Endpoint

/-!
One sender and one receiver. What the sender marks as sent, and its close frame, reach a fresh
receiver in order and once each. An outbound page that is dropped unsent keeps its transfer id, and
the frame after it is refused.

* `step`: every call keeps sender and receiver in step;
* `sender_receiver_in_step`: in every run, until an outbound page is dropped.
-/

namespace PgFusion.Transfer

open Page (PageStore PageDescriptor)

/-! ### Streams -/

/-- A message as the client of the sender writes it. -/
structure Message where
  kind : ℕ
  flags : ℕ
  payload : List UInt8
deriving DecidableEq

/-- What goes over a stream. -/
inductive Item where
  | page (msg : Message)
  | close
deriving DecidableEq

/-- A delivered frame that was not accepted, or whose payload could not be read. -/
inductive Refusal where
  | rejected (err : RxError)
  | unreadable
deriving DecidableEq

/-- A sender and a receiver of one pool, with the writers and outbound pages, each with its message
so far, the frames on their way, and the received pages. -/
structure Stream where
  mem : PageMemory
  tx : TxInner
  rx : RxInner
  writers : List (PageWriter × Message)
  outbounds : List (OutboundPage × Message)
  inFlight : List OwnedFrame
  live : List (ReceivedPage × Message)
  sent : List Item
  outcomes : List (Except Refusal Item)
  droppedUnsent : Bool

/-- The calls of a client, and the delivery of the next frame. A call on something that was
handed out names it by its place. -/
inductive StreamCall where
  | begin (kind flags : UInt16)
  | write (i : ℕ) (buf : List UInt8)
  | finish (i : ℕ)
  | dropWriter (i : ℕ)
  | markSent (i : ℕ)
  | dropOutbound (i : ℕ)
  | close
  | deliver
  | release (i : ℕ)
  | dropReceived (i : ℕ)
deriving DecidableEq

namespace Stream

variable (pool : PoolHandle)

/-- The delivery of a frame: the receiver accepts it, and its client reads what it is
given. -/
def deliver (s : Stream) (frame : OwnedFrame) : Stream :=
  match accept pool frame s.rx s.mem with
  | (.error err, rx, m) =>
    { s with rx := rx, mem := m, outcomes := s.outcomes ++ [.error (.rejected err)] }
  | (.ok .closed, rx, m) => { s with rx := rx, mem := m, outcomes := s.outcomes ++ [.ok .close] }
  | (.ok (.page page), rx, m) =>
    match page.payload pool m with
    | none => { s with rx := rx, mem := m, outcomes := s.outcomes ++ [.error .unreadable] }
    | some payload =>
      let msg : Message := ⟨page.kind, page.flags, payload⟩
      { s with
        rx := rx
        mem := m
        live := s.live ++ [(page, msg)]
        outcomes := s.outcomes ++ [.ok (.page msg)] }

/-- One call. -/
def step (s : Stream) : StreamCall → Option Stream
  | .begin kind flags =>
    match Transfer.begin pool kind.toNat flags.toNat s.tx s.mem with
    | (.error _, tx, m) => some { s with tx := tx, mem := m }
    | (.ok w, tx, m) =>
      some { s with
        tx := tx
        mem := m
        writers := s.writers ++ [(w, ⟨kind.toNat, flags.toNat, []⟩)] }
  | .write i buf =>
    (s.writers[i]?).map fun (w, msg) =>
      let r := w.write buf s.mem
      { s with
        mem := r.2.2
        writers := s.writers.set i
          (r.2.1, { msg with payload := msg.payload ++ buf.take r.1 }) }
  | .finish i =>
    (s.writers[i]?).map fun (w, msg) =>
      match w.finish pool s.tx s.mem with
      | (.error _, tx, m) => { s with tx := tx, mem := m, writers := s.writers.eraseIdx i }
      | (.ok o, tx, m) =>
        { s with
          tx := tx
          mem := m
          writers := s.writers.eraseIdx i
          outbounds := s.outbounds ++ [(o, msg)] }
  | .dropWriter i =>
    (s.writers[i]?).map fun (w, _) =>
      let r := w.drop pool s.tx s.mem
      { s with tx := r.1, mem := r.2, writers := s.writers.eraseIdx i }
  | .markSent i =>
    (s.outbounds[i]?).map fun (o, msg) =>
      { s with
        tx := s.tx.finishOutbound
        outbounds := s.outbounds.eraseIdx i
        inFlight := s.inFlight ++ [o.frame]
        sent := s.sent ++ [.page msg] }
  | .dropOutbound i =>
    (s.outbounds[i]?).map fun (o, _) =>
      let r := o.drop pool s.tx s.mem
      { s with tx := r.1, mem := r.2, outbounds := s.outbounds.eraseIdx i, droppedUnsent := true }
  | .close =>
    match s.tx.close with
    | (.error _, tx) => some { s with tx := tx }
    | (.ok frame, tx) =>
      some { s with tx := tx, inFlight := s.inFlight ++ [frame], sent := s.sent ++ [.close] }
  | .deliver =>
    match s.inFlight with
    | [] => none
    | frame :: rest => some ({ s with inFlight := rest }.deliver pool frame)
  | .release i =>
    (s.live[i]?).map fun (page, _) =>
      { s with mem := (page.release pool s.mem).2, live := s.live.eraseIdx i }
  | .dropReceived i =>
    (s.live[i]?).map fun (page, _) =>
      { s with mem := page.drop pool s.mem, live := s.live.eraseIdx i }

/-- A fresh sender and a fresh receiver of a pool. -/
def start (mem : PageMemory) : Stream where
  mem := mem
  tx := .new
  rx := .new
  writers := []
  outbounds := []
  inFlight := []
  live := []
  sent := []
  outcomes := []
  droppedUnsent := false

/-- Nothing is sent after an outbound page has been dropped unsent. -/
def NothingSkipped (s : Stream) : StreamCall → Prop
  | .markSent _ | .close => s.droppedUnsent = false
  | _ => True

instance (s : Stream) : ∀ c, Decidable (s.NothingSkipped c)
  | .markSent _ | .close => inferInstanceAs (Decidable (_ = _))
  | .begin .. | .write .. | .finish _ | .dropWriter _ | .dropOutbound _ | .deliver | .release _
  | .dropReceived _ => isTrue trivial

end Stream

/-! ### A dropped page keeps its transfer id -/

/-- A pool of two small pages. -/
def tinyPool : PoolHandle := { poolId := 7, pageCount := 2, pageSize := 64 }

/-- The memory of that pool when nothing is leased. -/
def tinyMemory : PageMemory := ⟨PageStore.fresh tinyPool.toPagePool, fun _ => List.replicate 64 0⟩

/-- **A transfer id is not given back.** A page is finished and dropped unsent; the frame of the
next one is the first that the receiver sees, and the receiver refuses it. -/
theorem skipped_id_is_refused :
    ∃ s, Runs (Stream.step tinyPool) (fun _ _ => True) (.start tinyMemory) s ∧
      s.sent = [.page ⟨1, 0, []⟩] ∧
      s.outcomes = [.error (.rejected (.unexpectedTransferId 1 2))] := by
  have hrun : ((runCalls (Stream.step tinyPool) (fun _ _ => true) (.start tinyMemory)
      [.begin 1 0, .write 0 [1, 2, 3], .finish 0, .dropOutbound 0, .begin 1 0, .finish 0,
        .markSent 0, .deliver]).map fun s => (s.sent, s.outcomes)) =
      some ([.page ⟨1, 0, []⟩], [.error (.rejected (.unexpectedTransferId 1 2))]) := by
    decide +kernel
  obtain ⟨s, hs, heq⟩ := Option.map_eq_some_iff.mp hrun
  obtain ⟨hsent, hout⟩ := Prod.mk.inj heq
  exact ⟨s, (runs_of_runCalls hs).mono fun _ _ _ => trivial, hsent, hout⟩

/-! ### What the pages hold -/

/-- The header that a message is given. -/
def Message.header (msg : Message) : PageHeader := ⟨msg.kind, msg.flags, msg.payload.length⟩

/-- The page of a descriptor holds a message. -/
structure Carries (b : ℕ → List UInt8) (d : PageDescriptor) (msg : Message) : Prop where
  header : (b d.pageId).take pageHeaderLen = headerBytes msg.header
  payload : ((b d.pageId).drop pageHeaderLen).take msg.payload.length = msg.payload
  fits : msg.header.Fits
  room : msg.payload.length ≤ (b d.pageId).length - pageHeaderLen

lemma Carries.congr {b b' : ℕ → List UInt8} {d : PageDescriptor} {msg : Message}
    (h : Carries b d msg) (hb : b' d.pageId = b d.pageId) : Carries b' d msg :=
  ⟨hb ▸ h.header, hb ▸ h.payload, h.fits, hb ▸ h.room⟩

/-- A detached page that holds a message is opened as that message. -/
lemma Carries.open_page {pool : PoolHandle} {m : PageMemory} {d : PageDescriptor} {msg : Message}
    {ds : List (PageDescriptor × Page.LeaseState)} (h : Carries m.bytes d msg)
    (hm : m.HeldBy pool ds) (hd : (d, .detached) ∈ ds) :
    ReceivedPage.new pool d m = (.ok ⟨d, msg.kind, msg.flags, msg.payload.length⟩, m) ∧
      ReceivedPage.payload pool ⟨d, msg.kind, msg.flags, msg.payload.length⟩ m =
        some msg.payload := by
  have hvalid := PageStore.HeldBy.validate hm hd
  constructor
  · rw [ReceivedPage.new, hvalid]
    simp only [h.header, decode_headerBytes h.fits]
    exact if_neg (Nat.not_lt.mpr h.room)
  · rw [ReceivedPage.payload]
    simp only [hvalid, h.payload]

/-- A writer and the message that has been written with it. -/
structure Writes (pool : PoolHandle) (b : ℕ → List UInt8) (w : PageWriter) (msg : Message) :
    Prop where
  kind : w.kind = msg.kind
  flags : w.flags = msg.flags
  position : w.position = msg.payload.length
  payload : ((b w.lease.pageId).drop pageHeaderLen).take msg.payload.length = msg.payload
  room : msg.payload.length ≤ pool.pageSize - pageHeaderLen
  kind_lt : msg.kind < 256 ^ 2
  flags_lt : msg.flags < 256 ^ 2
  small : pageHeaderLen ≤ pool.pageSize
  large : pool.pageSize ≤ pageHeaderLen + maxPayloadLen

/-- The bytes up to the end of an overwritten part. -/
lemma take_overwrite {b data : List UInt8} {n : ℕ} (hn : n ≤ b.length) :
    (overwrite b n data).take (n + data.length) = b.take n ++ data := by
  have hlen : (b.take n ++ data).length = n + data.length := by
    rw [List.length_append, List.length_take]
    omega
  rw [overwrite, ← hlen, List.take_left]

/-- A `write` appends to the message, and touches no other page. -/
lemma Writes.write {pool : PoolHandle} {m : PageMemory} {w : PageWriter} {msg : Message}
    (h : Writes pool m.bytes w msg) (hsized : ∀ i, (m.bytes i).length = pool.pageSize)
    (buf : List UInt8) :
    Writes pool (w.write buf m).2.2.bytes (w.write buf m).2.1
        { msg with payload := msg.payload ++ buf.take (w.write buf m).1 } ∧
      (w.write buf m).2.1.lease = w.lease ∧ (w.write buf m).2.2.store = m.store ∧
      (∀ i, i ≠ w.lease.pageId → (w.write buf m).2.2.bytes i = m.bytes i) ∧
      ∀ i, ((w.write buf m).2.2.bytes i).length = pool.pageSize := by
  have hsmall := h.small
  have hroom := h.room
  have hpos := h.position
  have hlen := hsized w.lease.pageId
  rw [PageWriter.write]
  split
  · refine ⟨?_, rfl, rfl, fun _ _ => rfl, hsized⟩
    rw [List.take_zero, List.append_nil]
    exact h
  · next hrem =>
      have hremaining : w.remaining m = pool.pageSize - pageHeaderLen - msg.payload.length := by
        rw [PageWriter.remaining, PageWriter.payloadCapacity, hlen, hpos]
      generalize hn : min (w.remaining m) buf.length = n
      have hdata : (buf.take n).length = n := by
        rw [List.length_take]
        omega
      have hfit : pageHeaderLen + w.position + (buf.take n).length ≤
        (m.bytes w.lease.pageId).length := by
        omega
      refine ⟨⟨h.kind, h.flags, ?_, ?_, ?_, h.kind_lt, h.flags_lt, h.small, h.large⟩, rfl, rfl,
        fun i hi => Function.update_of_ne hi _ _, fun i => ?_⟩
      · show w.position + n = _
        rw [List.length_append, hdata, hpos]
      · show ((Function.update m.bytes w.lease.pageId _ w.lease.pageId).drop _).take _ = _
        rw [Function.update_self, List.take_drop, List.length_append, ← hpos, ← Nat.add_assoc,
          take_overwrite (by omega),
            List.drop_append_of_le_length (by rw [List.length_take]; omega),
          hpos, ← List.take_drop, h.payload]
      · rw [List.length_append, hdata]
        omega
      · by_cases hi : i = w.lease.pageId
        · subst hi
          show (Function.update m.bytes w.lease.pageId _ w.lease.pageId).length = _
          rw [Function.update_self, length_overwrite hfit, hlen]
        · exact (congrArg List.length (Function.update_of_ne hi _ _)).trans (hsized i)

/-- The bytes of a page whose header has been written. -/
lemma Writes.finish {pool : PoolHandle} {b : ℕ → List UInt8} {w : PageWriter} {msg : Message}
    (h : Writes pool b w msg) (hlen : (b w.lease.pageId).length = pool.pageSize) :
    Carries (Function.update b w.lease.pageId
      (headerBytes ⟨w.kind, w.flags, w.position⟩ ++ (b w.lease.pageId).drop pageHeaderLen))
        w.lease msg := by
  have hsmall := h.small
  have hlarge := h.large
  have hroom := h.room
  have hheader : (⟨w.kind, w.flags, w.position⟩ : PageHeader) = msg.header := by
    rw [h.kind, h.flags, h.position]
    rfl
  have hfirst := length_headerBytes msg.header
  rw [hheader]
  refine ⟨?_, ?_, ⟨h.kind_lt, h.flags_lt, ?_⟩, ?_⟩
  · rw [Function.update_self, ← hfirst, List.take_left]
  · rw [Function.update_self, ← hfirst, List.drop_left, hfirst, h.payload]
  · show msg.payload.length < 256 ^ 4
    rw [maxPayloadLen] at hlarge
    omega
  · rw [Function.update_self, List.length_append, hfirst, List.length_drop, hlen]
    omega

/-- A frame and what it is sent for. -/
def Shows (b : ℕ → List UInt8) : OwnedFrame → Item → Prop
  | .page f, .page msg => Carries b f.descriptor msg
  | .close _, .close => True
  | _, _ => False

/-- The pages that frames hand over. -/
def framePages (fs : List OwnedFrame) : List (PageDescriptor × Page.LeaseState) :=
  fs.filterMap fun
    | .page f => some (f.descriptor, .detached)
    | .close _ => none

lemma shows_congr {b b' : ℕ → List UInt8} {fs : List OwnedFrame} {items : List Item}
    (h : List.Forall₂ (Shows b) fs items) (hb : ∀ d ∈ framePages fs, b' d.1.pageId = b d.1.pageId) :
    List.Forall₂ (Shows b') fs items := by
  induction h with
  | nil => exact .nil
  | @cons f item fs items hf _ ih =>
    refine .cons ?_ (ih fun d hd => hb d ?_)
    · match f, item, hf with
      | .page f, .page msg, hf =>
        exact Carries.congr hf (hb (f.descriptor, .detached) (by simp [framePages]))
      | .close _, .close, _ => trivial
    · rw [framePages, List.filterMap_cons]
      split
      · exact hd
      · exact List.mem_cons_of_mem _ hd

/-- The transfer ids of frames are consecutive from the first number on, up to the last. -/
def Numbered : ℕ → List OwnedFrame → ℕ → Prop
  | n, [], k => k = n
  | n, f :: fs, k => f.transferId = n ∧ Numbered (saturatingSucc n) fs k

lemma Numbered.append {n k : ℕ} {fs : List OwnedFrame} (h : Numbered n fs k) {f : OwnedFrame}
    (hf : f.transferId = k) : Numbered n (fs ++ [f]) (saturatingSucc k) := by
  induction fs generalizing n with
  | nil =>
    obtain rfl : k = n := h
    exact ⟨hf, rfl⟩
  | cons g fs ih => exact ⟨h.1, ih h.2⟩

/-- What is last and occurs nowhere before is followed by nothing. -/
lemma nil_of_last_eq {α : Type} {a b l : List α} {x : α} (h : a ++ x :: b = l ++ [x]) (hx : x ∉ l) :
    b = [] := by
  rcases List.eq_nil_or_concat b with rfl | ⟨b', y, rfl⟩
  · rfl
  · rw [List.concat_eq_append, ← List.cons_append, ← List.append_assoc] at h
    obtain ⟨hl, -⟩ := List.append_inj' h rfl
    exact absurd (hl ▸ List.mem_append_right _ List.mem_cons_self) hx

/-! ### The invariant -/

namespace Stream

/-- The pages that have been handed out or are on their way. -/
def holders (s : Stream) : List (PageDescriptor × Page.LeaseState) :=
  s.writers.map (fun w => (w.1.lease, .attached)) ++
    (s.outbounds.map (fun o => (o.1.descriptor, .detached)) ++
      (framePages s.inFlight ++ s.live.map fun l => (l.1.descriptor, .detached)))

/-- The sender has handed out one writer, or one outbound page, or neither, as its phase
says. -/
def Phased (s : Stream) : Prop :=
  match s.tx.phase with
  | .writing => (∃ w, s.writers = [w]) ∧ s.outbounds = []
  | .outboundPending => s.writers = [] ∧ ∃ o, s.outbounds = [o]
  | .idle | .closed => s.writers = [] ∧ s.outbounds = []

/-- The transfer id that the sender will use next, when the frames before it use those up
to `k`. -/
def Continues (s : Stream) (k : ℕ) : Prop :=
  (s.outbounds = [] → s.tx.nextTransferId = k) ∧
    ∀ o ∈ s.outbounds, o.1.transferId = k ∧ s.tx.nextTransferId = saturatingSucc k

/-- The close frame is the last thing sent, once the sender is closed. -/
def Closing (s : Stream) : Prop :=
  if s.tx.phase = .closed then ∃ l, s.sent = l ++ [.close] ∧ .close ∉ l else .close ∉ s.sent

/-- What is true of a stream on which no transfer id has been skipped. `others` are the
pages that somebody else has leased. -/
structure InStep (pool : PoolHandle) (others : List (PageDescriptor × Page.LeaseState))
    (s : Stream) : Prop where
  held : s.mem.HeldBy pool (s.holders ++ others)
  sized : ∀ i, (s.mem.bytes i).length = pool.pageSize
  phased : s.Phased
  writers : ∀ w ∈ s.writers, Writes pool s.mem.bytes w.1 w.2
  outbounds : ∀ o ∈ s.outbounds, Carries s.mem.bytes o.1.descriptor o.2
  frames : List.Forall₂ (Shows s.mem.bytes) s.inFlight (s.sent.drop s.outcomes.length)
  live : ∀ l ∈ s.live, Carries s.mem.bytes l.1.descriptor l.2 ∧
    l.1 = ⟨l.1.descriptor, l.2.kind, l.2.flags, l.2.payload.length⟩
  outcomes : s.outcomes = (s.sent.take s.outcomes.length).map .ok
  numbered : ∃ k, Numbered s.rx.nextTransferId s.inFlight k ∧
    (s.droppedUnsent = false → s.Continues k)
  closing : s.Closing
  receiving : s.rx.phase = .idle ∨ (s.inFlight = [] ∧ s.tx.phase = .closed)

namespace InStep

variable {pool : PoolHandle} {others : List (PageDescriptor × Page.LeaseState)} {s : Stream}

/-- A writer that was handed out is the only thing the sender has handed out. -/
lemma of_writer (h : InStep pool others s) {i : ℕ} {w : PageWriter × Message}
    (hw : s.writers[i]? = some w) :
    i = 0 ∧ s.writers = [w] ∧ s.outbounds = [] ∧ s.tx.phase = .writing := by
  have hne : s.writers ≠ [] := fun he => by simp [he] at hw
  have hp := h.phased
  rw [Phased] at hp
  split at hp
  · next hphase =>
      obtain ⟨⟨w', hw'⟩, ho⟩ := hp
      rw [hw', List.getElem?_singleton] at hw
      split at hw
      · next hi => exact ⟨hi, by rw [hw', Option.some.inj hw], ho, hphase⟩
      · cases hw
  · exact absurd hp.1 hne
  · exact absurd hp.1 hne
  · exact absurd hp.1 hne

/-- An outbound page that was handed out is the only thing the sender has handed out. -/
lemma of_outbound (h : InStep pool others s) {i : ℕ} {o : OutboundPage × Message}
    (ho : s.outbounds[i]? = some o) :
    i = 0 ∧ s.writers = [] ∧ s.outbounds = [o] ∧ s.tx.phase = .outboundPending := by
  have hne : s.outbounds ≠ [] := fun he => by simp [he] at ho
  have hp := h.phased
  rw [Phased] at hp
  split at hp
  · exact absurd hp.2 hne
  · next hphase =>
      obtain ⟨hw, ⟨o', ho'⟩⟩ := hp
      rw [ho', List.getElem?_singleton] at ho
      split at ho
      · next hi => exact ⟨hi, hw, by rw [ho', Option.some.inj ho], hphase⟩
      · cases ho
  · exact absurd hp.2 hne
  · exact absurd hp.2 hne

/-- A sender that is idle or closed has handed out nothing. -/
lemma of_idle (h : InStep pool others s) (hphase : s.tx.phase = .idle) :
    s.writers = [] ∧ s.outbounds = [] := by
  have hp := h.phased
  rwa [Phased, hphase] at hp

/-- What is on its way and what was received keeps its contents when only the sender's page
is written. -/
lemma contents (h : InStep pool others s) {d : PageDescriptor} {st : Page.LeaseState}
    (hheld : s.mem.HeldBy pool ((d, st) ::
      (framePages s.inFlight ++ s.live.map (fun l => (l.1.descriptor, .detached)) ++ others)))
    {b : ℕ → List UInt8} (hb : ∀ i, i ≠ d.pageId → b i = s.mem.bytes i) :
    List.Forall₂ (Shows b) s.inFlight (s.sent.drop s.outcomes.length) ∧
      ∀ l ∈ s.live, Carries b l.1.descriptor l.2 ∧
        l.1 = ⟨l.1.descriptor, l.2.kind, l.2.flags, l.2.payload.length⟩ := by
  refine ⟨shows_congr h.frames fun d' hd => hb _ (PageStore.HeldBy.ne_of_mem hheld ?_), ?_⟩
  · exact List.mem_append_left _ (List.mem_append_left _ hd)
  · intro l hl
    obtain ⟨hcarries, hpage⟩ := h.live l hl
    have hmem : (l.1.descriptor, Page.LeaseState.detached) ∈
        framePages s.inFlight ++ s.live.map (fun l => (l.1.descriptor, .detached)) ++ others :=
      List.mem_append_left _ (List.mem_append_right _ (List.mem_map.mpr ⟨l, hl, rfl⟩))
    exact ⟨hcarries.congr (hb _ (PageStore.HeldBy.ne_of_mem hheld hmem)), hpage⟩

/-- A sender that is not closed has not sent its close frame, and the receiver is open. -/
lemma open_of_phase (h : InStep pool others s) (hphase : s.tx.phase ≠ .closed) :
    .close ∉ s.sent ∧ s.rx.phase = .idle := by
  have hclosing := h.closing
  rw [Closing, if_neg hphase] at hclosing
  exact ⟨hclosing, h.receiving.resolve_right fun hr => hphase hr.2⟩

lemma outcomes_le (h : InStep pool others s) : s.outcomes.length ≤ s.sent.length := by
  have hlen := congrArg List.length h.outcomes
  rw [List.length_map, List.length_take] at hlen
  omega

/-- What is sent before a close frame is everything that is sent besides it. -/
lemma closed_last (h : InStep pool others s) {l r : List Item} (hsent : s.sent = l ++ .close :: r) :
    s.tx.phase = .closed ∧ r = [] := by
  have hclosing := h.closing
  rw [Closing] at hclosing
  split at hclosing
  · next hphase =>
      obtain ⟨l', hl, hnot⟩ := hclosing
      exact ⟨hphase, nil_of_last_eq (hsent.symm.trans hl) hnot⟩
  · exact absurd (hsent ▸ List.mem_append_right _ List.mem_cons_self) hclosing

/-- A new writer. -/
lemma begin (h : InStep pool others s) {d : PageDescriptor} {st : PageStore} {kind flags : ℕ}
    (hkind : kind < 256 ^ 2) (hflags : flags < 256 ^ 2) (hphase : s.tx.phase = .idle)
    (hheld : PageMemory.HeldBy pool { s.mem with store := st }
      ((d, .attached) :: (s.holders ++ others)))
    (hsmall : pageHeaderLen ≤ pool.pageSize)
    (hlarge : pool.pageSize ≤ pageHeaderLen + maxPayloadLen) :
    InStep pool others { s with
      tx := { s.tx with phase := .writing }
      mem := { s.mem with store := st }
      writers := s.writers ++ [(⟨d, kind, flags, 0⟩, ⟨kind, flags, []⟩)] } := by
  obtain ⟨hw, ho⟩ := h.of_idle hphase
  obtain ⟨hopen, hrx⟩ := h.open_of_phase (by rw [hphase]; decide)
  refine { h with
    held := ?_, phased := ?_, writers := ?_, closing := ?_, receiving := Or.inl hrx }
  · simpa [holders, hw] using hheld
  · simp [Phased, hw, ho]
  · intro w hmem
    obtain rfl : w = _ := by simpa [hw] using hmem
    exact ⟨rfl, rfl, rfl, rfl, Nat.zero_le _, hkind, hflags, hsmall, hlarge⟩
  · simpa [Closing] using hopen

/-- A write with the writer that was handed out. -/
lemma write (h : InStep pool others s) {w : PageWriter} {msg : Message}
    (hw : s.writers = [(w, msg)]) (ho : s.outbounds = []) (buf : List UInt8) :
    InStep pool others { s with
      mem := (w.write buf s.mem).2.2
      writers := [((w.write buf s.mem).2.1,
        { msg with payload := msg.payload ++ buf.take (w.write buf s.mem).1 })] } := by
  obtain ⟨hwrites, hlease, hstore, hb, hsized⟩ :=
    (h.writers (w, msg) (by rw [hw]; exact List.mem_cons_self)).write h.sized buf
  have hheld := h.held
  simp only [holders, hw, ho, List.map_cons, List.map_nil, List.nil_append,
    List.cons_append] at hheld
  obtain ⟨hframes, hlive⟩ := h.contents hheld hb
  refine { h with
    held := ?_, sized := hsized, phased := ?_, writers := ?_, outbounds := ?_, frames := hframes,
    live := hlive }
  · simp only [holders, ho, List.map_cons, List.map_nil, List.nil_append, List.cons_append, hlease]
    rw [PageMemory.HeldBy, hstore]
    exact hheld
  · have hphased := h.phased
    simp only [Phased, hw, ho] at hphased ⊢
    split <;> simp_all
  · intro x hx
    obtain rfl := List.mem_singleton.mp hx
    exact hwrites
  · rw [ho]
    exact fun o hmem => absurd hmem List.not_mem_nil

/-- The writer that was handed out gives its page up, and the sender is idle again. -/
lemma dropWriter (h : InStep pool others s) {w : PageWriter} (ho : s.outbounds = [])
    (hphase : s.tx.phase = .writing) (hheld : (s.mem.giveBack w.lease).HeldBy pool
      (framePages s.inFlight ++ s.live.map (fun l => (l.1.descriptor, .detached)) ++ others)) :
    InStep pool others { s with
      tx := { s.tx with phase := .idle }, mem := s.mem.giveBack w.lease, writers := [] } := by
  obtain ⟨hopen, hrx⟩ := h.open_of_phase (by rw [hphase]; decide)
  refine { h with
    held := ?_, phased := ?_, writers := ?_, closing := ?_, receiving := Or.inl hrx }
  · simpa [holders, ho] using hheld
  · simp [Phased, ho]
  · exact fun x hx => absurd hx List.not_mem_nil
  · simpa [Closing] using hopen

/-- The writer that was handed out is finished. -/
lemma finish (h : InStep pool others s) {w : PageWriter} {msg : Message} {st : PageStore}
    (hw : s.writers = [(w, msg)]) (ho : s.outbounds = []) (hphase : s.tx.phase = .writing)
    (hheld : st.HeldBy pool.toPagePool ((w.lease, .detached) ::
      (framePages s.inFlight ++ s.live.map (fun l => (l.1.descriptor, .detached)) ++ others))) :
    InStep pool others { s with
      tx := ⟨.outboundPending, saturatingSucc s.tx.nextTransferId⟩
      mem := ⟨st, Function.update s.mem.bytes w.lease.pageId
        (headerBytes ⟨w.kind, w.flags, w.position⟩ ++
          (s.mem.bytes w.lease.pageId).drop pageHeaderLen)⟩
      writers := []
      outbounds := [(⟨w.lease, s.tx.nextTransferId⟩, msg)] } := by
  obtain ⟨hopen, hrx⟩ := h.open_of_phase (by rw [hphase]; decide)
  have hwrites := h.writers (w, msg) (by rw [hw]; exact List.mem_cons_self)
  have hold := h.held
  simp only [holders, hw, ho, List.map_cons, List.map_nil, List.nil_append,
    List.cons_append] at hold
  obtain ⟨hframes, hlive⟩ := h.contents hold fun i hi => Function.update_of_ne hi
    (headerBytes ⟨w.kind, w.flags, w.position⟩ ++
      (s.mem.bytes w.lease.pageId).drop pageHeaderLen) s.mem.bytes
  refine { h with
    held := ?_, sized := ?_, phased := ?_, writers := ?_, outbounds := ?_, frames := hframes,
    live := hlive, numbered := ?_, closing := ?_, receiving := Or.inl hrx }
  · simpa [holders, PageMemory.HeldBy] using hheld
  · intro i
    exact (length_update_header (h.sized _ ▸ hwrites.small) _ i).trans (h.sized i)
  · simp [Phased]
  · exact fun x hx => absurd hx List.not_mem_nil
  · intro o hmem
    obtain rfl := List.mem_singleton.mp hmem
    exact hwrites.finish (h.sized _)
  · obtain ⟨k, hk, hnext⟩ := h.numbered
    refine ⟨k, hk, fun hd => ⟨fun he => absurd he (by simp), fun o hmem => ?_⟩⟩
    obtain rfl := List.mem_singleton.mp hmem
    have hk' := (hnext hd).1 ho
    exact ⟨hk', by rw [hk']⟩
  · simpa [Closing] using hopen

/-- The outbound page that was handed out is marked as sent. -/
lemma markSent (h : InStep pool others s) {o : OutboundPage} {msg : Message}
    (hw : s.writers = []) (ho : s.outbounds = [(o, msg)]) (hphase : s.tx.phase = .outboundPending)
    (hskip : s.droppedUnsent = false) :
    InStep pool others { s with
      tx := s.tx.finishOutbound
      outbounds := []
      inFlight := s.inFlight ++ [o.frame]
      sent := s.sent ++ [.page msg] } := by
  obtain ⟨hopen, hrx⟩ := h.open_of_phase (by rw [hphase]; decide)
  have hcarries := h.outbounds (o, msg) (by rw [ho]; exact List.mem_cons_self)
  have hlen := h.outcomes_le
  refine { h with
    held := ?_, phased := ?_, outbounds := ?_, frames := ?_, outcomes := ?_, numbered := ?_,
    closing := ?_, receiving := Or.inl hrx }
  · refine h.held.perm ?_
    simp only [holders, hw, ho, framePages, OutboundPage.frame, List.filterMap_append,
      List.filterMap_cons, List.filterMap_nil, List.map_cons, List.map_nil, List.nil_append]
    refine List.Perm.append_right _ ?_
    simpa using List.perm_middle.symm
  · simp [Phased, TxInner.finishOutbound, hw]
  · exact fun x hx => absurd hx List.not_mem_nil
  · show List.Forall₂ _ _ ((s.sent ++ [Item.page msg]).drop s.outcomes.length)
    rw [List.drop_append_of_le_length hlen]
    exact List.rel_append h.frames (.cons hcarries .nil)
  · show s.outcomes = ((s.sent ++ [Item.page msg]).take s.outcomes.length).map .ok
    rw [List.take_append_of_le_length hlen]
    exact h.outcomes
  · obtain ⟨k, hk, hnext⟩ := h.numbered
    obtain ⟨hid, hnext⟩ := (hnext hskip).2 (o, msg) (by rw [ho]; exact List.mem_cons_self)
    exact ⟨_, hk.append hid, fun _ => ⟨fun _ => hnext, fun x hx => absurd hx List.not_mem_nil⟩⟩
  · simpa [Closing, TxInner.finishOutbound] using hopen

/-- The outbound page that was handed out gives its page up, and its transfer id is lost. -/
lemma dropOutbound (h : InStep pool others s) {o : OutboundPage} (hw : s.writers = [])
    (hphase : s.tx.phase = .outboundPending) (hheld : (s.mem.giveBack o.descriptor).HeldBy pool
      (framePages s.inFlight ++ s.live.map (fun l => (l.1.descriptor, .detached)) ++ others)) :
    InStep pool others { s with
      tx := { s.tx with phase := .idle }
      mem := s.mem.giveBack o.descriptor
      outbounds := []
      droppedUnsent := true } := by
  obtain ⟨hopen, hrx⟩ := h.open_of_phase (by rw [hphase]; decide)
  refine { h with
    held := ?_, phased := ?_, outbounds := ?_, numbered := ?_, closing := ?_,
    receiving := Or.inl hrx }
  · simpa [holders, hw] using hheld
  · simp [Phased, hw]
  · exact fun x hx => absurd hx List.not_mem_nil
  · obtain ⟨k, hk, -⟩ := h.numbered
    exact ⟨k, hk, fun hd => absurd hd (by simp)⟩
  · simpa [Closing] using hopen

/-- The sender is closed. -/
lemma close (h : InStep pool others s) (hphase : s.tx.phase = .idle)
    (hskip : s.droppedUnsent = false) :
    InStep pool others { s with
      tx := ⟨.closed, saturatingSucc s.tx.nextTransferId⟩
      inFlight := s.inFlight ++ [.close ⟨s.tx.nextTransferId⟩]
      sent := s.sent ++ [.close] } := by
  obtain ⟨hopen, hrx⟩ := h.open_of_phase (by rw [hphase]; decide)
  obtain ⟨hw, ho⟩ := h.of_idle hphase
  have hlen := h.outcomes_le
  refine { h with
    held := ?_, phased := ⟨hw, ho⟩, frames := ?_, outcomes := ?_, numbered := ?_, closing := ?_,
    receiving := Or.inl hrx }
  · simpa [holders, framePages] using h.held
  · show List.Forall₂ _ _ ((s.sent ++ [Item.close]).drop s.outcomes.length)
    rw [List.drop_append_of_le_length hlen]
    exact List.rel_append h.frames (.cons trivial .nil)
  · show s.outcomes = ((s.sent ++ [Item.close]).take s.outcomes.length).map .ok
    rw [List.take_append_of_le_length hlen]
    exact h.outcomes
  · obtain ⟨k, hk, hnext⟩ := h.numbered
    have hid := (hnext hskip).1 ho
    refine ⟨_, hk.append hid, fun _ => ⟨fun _ => by rw [hid], fun x hx => ?_⟩⟩
    exact absurd (ho ▸ hx) List.not_mem_nil
  · exact ⟨s.sent, rfl, hopen⟩

/-- A received page gives its page up. -/
lemma release (h : InStep pool others s) {i : ℕ} {l : ReceivedPage × Message}
    (hl : s.live[i]? = some l) :
    s.mem.HeldBy pool ((l.1.descriptor, .detached) ::
      ({ s with live := s.live.eraseIdx i }.holders ++ others)) ∧
    ((s.mem.giveBack l.1.descriptor).HeldBy pool
        ({ s with live := s.live.eraseIdx i }.holders ++ others) →
      InStep pool others { s with
        mem := s.mem.giveBack l.1.descriptor, live := s.live.eraseIdx i }) := by
  constructor
  · refine h.held.perm ?_
    have hperm := (perm_cons_eraseIdx hl).map fun l : ReceivedPage × Message =>
      (l.1.descriptor, Page.LeaseState.detached)
    refine List.perm_iff_count.mpr fun a => ?_
    have hcount := hperm.count_eq a
    simp only [holders, List.map_cons, List.count_append, List.count_cons] at hcount ⊢
    omega
  · intro hheld
    exact { h with
      held := hheld, live := fun l hl => h.live l (List.mem_of_mem_eraseIdx hl) }

/-- **Delivery.** The receiver accepts the next frame, and its client reads what was sent. -/
lemma deliver (h : InStep pool others s) {frame : OwnedFrame} {rest : List OwnedFrame}
    (hq : s.inFlight = frame :: rest) :
    InStep pool others ({ s with inFlight := rest }.deliver pool frame) := by
  have hrx := h.receiving.resolve_right fun hr => by simp [hr.1] at hq
  obtain ⟨k, hk, hnext⟩ := h.numbered
  have hframes := h.frames
  rw [hq] at hframes hk
  obtain ⟨hid, hk⟩ := hk
  generalize hitems : s.sent.drop s.outcomes.length = items at hframes
  cases hframes with
  | @cons _ item _ items hitem hrest =>
    have hsent : s.sent = s.sent.take s.outcomes.length ++ item :: items := by
      rw [← hitems, List.take_append_drop]
    have hdrop : s.sent.drop (s.outcomes.length + 1) = items := by
      rw [← List.drop_drop, hitems]
      rfl
    have htake : s.sent.take (s.outcomes.length + 1) = s.sent.take s.outcomes.length ++ [item] := by
      rw [List.take_add, hitems]
      rfl
    have hout : s.outcomes ++ [.ok item] = (s.sent.take (s.outcomes.length + 1)).map .ok := by
      rw [htake, List.map_append, ← h.outcomes]
      rfl
    have hbegin : s.rx.beginAccept = .ok { s.rx with phase := .accepting } := by
      rw [RxInner.beginAccept, hrx]
    match frame, item, hitem with
    | .page f, .page msg, hcarries =>
      have hmem : (f.descriptor, Page.LeaseState.detached) ∈ s.holders ++ others := by
        simp [holders, hq, framePages]
      obtain ⟨hnew, hpayload⟩ := Carries.open_page hcarries h.held hmem
      have haccept : accept pool (.page f) s.rx s.mem = (.ok (.page
          ⟨f.descriptor, msg.kind, msg.flags, msg.payload.length⟩),
          ⟨.idle, saturatingSucc s.rx.nextTransferId⟩, s.mem) := by
        simp only [accept, hbegin]
        exact finishAccept_page hid hnew
      simp only [Stream.deliver, haccept, hpayload]
      refine { h with
        held := h.held.perm ?_, frames :=
          ?_, live := ?_, outcomes := ?_, numbered := ⟨k, hk, hnext⟩,
        receiving := Or.inl rfl }
      · refine List.perm_iff_count.mpr fun a => ?_
        simp only [holders, hq, framePages, List.filterMap_cons, List.map_append, List.map_cons,
          List.map_nil, List.count_append, List.count_cons, List.count_nil]
        omega
      · rw [List.length_append, List.length_singleton, hdrop]
        exact hrest
      · intro l hl
        obtain hl | hl := List.mem_append.mp hl
        · exact h.live l hl
        · obtain rfl := List.mem_singleton.mp hl
          exact ⟨hcarries, rfl⟩
      · rw [List.length_append, List.length_singleton, ← hout]
    | .close f, .close, _ =>
      have haccept : accept pool (.close f) s.rx s.mem =
          (.ok .closed, ⟨.closed, saturatingSucc s.rx.nextTransferId⟩, s.mem) := by
        simp only [accept, hbegin]
        exact finishAccept_close hid
      -- the close frame is the last one
      obtain ⟨hphase, rfl⟩ := h.closed_last hsent
      obtain rfl := List.forall₂_nil_right_iff.mp hrest
      simp only [Stream.deliver, haccept]
      refine { h with
        held := ?_, frames := ?_, outcomes := ?_, numbered := ⟨k, hk, hnext⟩,
        receiving := Or.inr ⟨rfl, hphase⟩ }
      · simpa [holders, hq, framePages] using h.held
      · rw [List.length_append, List.length_singleton, hdrop]
        exact .nil
      · rw [List.length_append, List.length_singleton, ← hout]

/-- **Every call keeps the stream in step**, if nothing is sent after a skipped transfer
id. -/
lemma step (h : InStep pool others s) {c : StreamCall} (hskip : s.NothingSkipped c) {s' : Stream}
    (hstep : s.step pool c = some s') : InStep pool others s' := by
  cases c with
  | begin kind flags =>
    rcases begin_cases h.held s.tx kind.toNat flags.toNat with
      ⟨d, st, hbegin, hphase, hheld, hsmall, hlarge⟩ | ⟨err, hbegin⟩
    · simp only [Stream.step, hbegin] at hstep
      obtain rfl := Option.some.inj hstep
      exact h.begin kind.toNat_lt flags.toNat_lt hphase hheld hsmall hlarge
    · simp only [Stream.step, hbegin] at hstep
      obtain rfl := Option.some.inj hstep
      exact h
  | write i buf =>
    obtain ⟨⟨w, msg⟩, hw, rfl⟩ := Option.map_eq_some_iff.mp hstep
    obtain ⟨rfl, hws, ho, -⟩ := h.of_writer hw
    simpa only [hws, List.set_cons_zero] using h.write hws ho buf
  | finish i =>
    obtain ⟨⟨w, msg⟩, hw, rfl⟩ := Option.map_eq_some_iff.mp hstep
    obtain ⟨rfl, hws, ho, hphase⟩ := h.of_writer hw
    have hwrites := h.writers (w, msg) (by rw [hws]; exact List.mem_cons_self)
    have hheld := h.held
    simp only [holders, hws, ho, List.map_cons, List.map_nil, List.nil_append,
      List.cons_append] at hheld
    have hsize : pageHeaderLen ≤ (s.mem.bytes w.lease.pageId).length := by
      rw [h.sized]
      exact hwrites.small
    rcases PageWriter.finish_cases hheld hsize s.tx w.position with
      ⟨st, hfin, hst⟩ | ⟨-, err, hfin, hgiven⟩
    · simp only [PageWriter.finish, hfin, hws, ho, List.eraseIdx_zero, List.tail_cons,
        List.nil_append]
      exact h.finish hws ho hphase hst
    · simp only [PageWriter.finish, hfin, hws, List.eraseIdx_zero, List.tail_cons]
      exact h.dropWriter ho hphase hgiven
  | dropWriter i =>
    obtain ⟨⟨w, msg⟩, hw, rfl⟩ := Option.map_eq_some_iff.mp hstep
    obtain ⟨rfl, hws, ho, hphase⟩ := h.of_writer hw
    have hheld := h.held
    simp only [holders, hws, ho, List.map_cons, List.map_nil, List.nil_append,
      List.cons_append] at hheld
    obtain ⟨hdrop, hgiven⟩ := PageWriter.drop_eq hheld s.tx
    simp only [hdrop, hws, List.eraseIdx_zero, List.tail_cons]
    exact h.dropWriter ho hphase hgiven
  | markSent i =>
    obtain ⟨⟨o, msg⟩, ho, rfl⟩ := Option.map_eq_some_iff.mp hstep
    obtain ⟨rfl, hws, hos, hphase⟩ := h.of_outbound ho
    simpa only [hos, List.eraseIdx_zero, List.tail_cons] using h.markSent hws hos hphase hskip
  | dropOutbound i =>
    obtain ⟨⟨o, msg⟩, ho, rfl⟩ := Option.map_eq_some_iff.mp hstep
    obtain ⟨rfl, hws, hos, hphase⟩ := h.of_outbound ho
    have hheld := h.held
    simp only [holders, hws, hos, List.map_cons, List.map_nil, List.nil_append,
      List.cons_append] at hheld
    obtain ⟨hdrop, hgiven⟩ := OutboundPage.drop_eq hheld s.tx
    simp only [hdrop, hos, List.eraseIdx_zero, List.tail_cons]
    exact h.dropOutbound hws hphase hgiven
  | close =>
    cases hphase : s.tx.phase with
    | idle =>
      simp only [Stream.step, TxInner.close, hphase] at hstep
      obtain rfl := Option.some.inj hstep
      exact h.close hphase hskip
    | closed | writing | outboundPending =>
      simp only [Stream.step, TxInner.close, hphase] at hstep
      obtain rfl := Option.some.inj hstep
      exact h
  | deliver =>
    cases hq : s.inFlight with
    | nil => simp [Stream.step, hq] at hstep
    | cons frame rest =>
      simp only [Stream.step, hq] at hstep
      obtain rfl := Option.some.inj hstep
      exact h.deliver hq
  | release i =>
    obtain ⟨⟨page, msg⟩, hl, rfl⟩ := Option.map_eq_some_iff.mp hstep
    obtain ⟨hheld, hnext⟩ := h.release hl
    obtain ⟨hrel, -, hgiven⟩ := ReceivedPage.release_eq hheld
    simpa only [hrel] using hnext hgiven
  | dropReceived i =>
    obtain ⟨⟨page, msg⟩, hl, rfl⟩ := Option.map_eq_some_iff.mp hstep
    obtain ⟨hheld, hnext⟩ := h.release hl
    obtain ⟨-, hdrop, hgiven⟩ := ReceivedPage.release_eq hheld
    simpa only [hdrop] using hnext hgiven

end InStep

lemma inStep_start {pool : PoolHandle} {mem : PageMemory}
    {others : List (PageDescriptor × Page.LeaseState)} (hheld : mem.HeldBy pool others)
    (hsized : ∀ i, (mem.bytes i).length = pool.pageSize) : InStep pool others (.start mem) where
  held := hheld
  sized := hsized
  phased := ⟨rfl, rfl⟩
  writers _ hw := absurd hw List.not_mem_nil
  outbounds _ ho := absurd ho List.not_mem_nil
  frames := .nil
  live _ hl := absurd hl List.not_mem_nil
  outcomes := rfl
  numbered := ⟨1, rfl, fun _ => ⟨fun _ => rfl, fun _ ho => absurd ho List.not_mem_nil⟩⟩
  closing := List.not_mem_nil
  receiving := Or.inl rfl

end Stream

/-! ### Agreement -/

/-- **Sender and receiver stay in step.** In every run in which nothing is sent after an outbound
page has been dropped unsent, each delivered frame was accepted: the outcomes are what was sent, in
order, up to the frames still on their way. A close frame is the last thing sent. The received pages
that are held read as what was sent. -/
theorem sender_receiver_in_step (pool : PoolHandle) (mem : PageMemory)
    (others : List (PageDescriptor × Page.LeaseState)) (hheld : mem.HeldBy pool others)
    (hsized : ∀ i, (mem.bytes i).length = pool.pageSize) (s : Stream)
    (hrun : Runs (Stream.step pool) Stream.NothingSkipped (.start mem) s) :
    s.outcomes = (s.sent.take s.outcomes.length).map .ok ∧
      s.outcomes.length + s.inFlight.length = s.sent.length ∧
      (∀ l r, s.sent = l ++ .close :: r → r = []) ∧
      ∀ l ∈ s.live, l.1.kind = l.2.kind ∧ l.1.flags = l.2.flags ∧
        l.1.payload pool s.mem = some l.2.payload := by
  have hinv : Stream.InStep pool others s :=
    hrun.invariant (Stream.inStep_start hheld hsized) fun s c s' h hok hstep => h.step hok hstep
  have hle := hinv.outcomes_le
  refine ⟨hinv.outcomes, ?_, fun l r hsent => (hinv.closed_last hsent).2, fun l hl => ?_⟩
  · have hlen := hinv.frames.length_eq
    rw [List.length_drop] at hlen
    omega
  · obtain ⟨hcarries, hpage⟩ := hinv.live l hl
    have hmem : (l.1.descriptor, Page.LeaseState.detached) ∈ s.holders ++ others := by
      refine List.mem_append_left _ ?_
      simp only [Stream.holders, List.mem_append, List.mem_map]
      exact .inr (.inr (.inr ⟨l, hl, rfl⟩))
    rw [hpage]
    exact ⟨rfl, rfl, (hcarries.open_page hinv.held hmem).2⟩

/-- Two pages, of which the first is released before the second is read, and the close
frame; a third page is dropped unwritten. -/
theorem sender_receiver_in_step_two_pages :
    ∃ s, Runs (Stream.step tinyPool) Stream.NothingSkipped (.start tinyMemory) s ∧
      s.sent = [.page ⟨1, 0, [1, 2, 3]⟩, .page ⟨2, 5, [9]⟩, .close] ∧
      s.outcomes = [.ok (.page ⟨1, 0, [1, 2, 3]⟩), .ok (.page ⟨2, 5, [9]⟩), .ok .close] ∧
      s.live.length = 1 ∧
      ∀ l ∈ s.live, l.1.kind = l.2.kind ∧ l.1.flags = l.2.flags ∧
        l.1.payload tinyPool s.mem = some l.2.payload := by
  have hrun : ((runCalls (Stream.step tinyPool) (fun s c => decide (s.NothingSkipped c))
      (.start tinyMemory)
      [.begin 1 0, .write 0 [1, 2], .write 0 [3], .finish 0, .markSent 0, .deliver, .begin 2 5,
        .write 0 [9], .finish 0, .markSent 0, .release 0, .deliver, .begin 3 0,
          .dropWriter 0, .close,
        .deliver]).map fun s => (s.sent, s.outcomes.length, s.live.length)) =
      some ([.page ⟨1, 0, [1, 2, 3]⟩, .page ⟨2, 5, [9]⟩, .close], 3, 1) := by
    decide +kernel
  obtain ⟨s, hs, heq⟩ := Option.map_eq_some_iff.mp hrun
  simp only [Prod.mk.injEq] at heq
  obtain ⟨hsent, hout, hlive⟩ := heq
  have hruns : Runs (Stream.step tinyPool) Stream.NothingSkipped (.start tinyMemory) s :=
    (runs_of_runCalls hs).mono fun _ _ => of_decide_eq_true
  obtain ⟨houtcomes, -, -, hpages⟩ := sender_receiver_in_step tinyPool tinyMemory []
    (PageStore.heldBy_fresh _) (fun _ => List.length_replicate) s hruns
  refine ⟨s, hruns, hsent, ?_, hlive, hpages⟩
  rw [houtcomes, hout, hsent]
  rfl

end PgFusion.Transfer

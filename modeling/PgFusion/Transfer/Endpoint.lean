import PgFusion.Page.Holders
import PgFusion.Transfer.Header

/-!
The sender and the receiver of `page/transfer/src/{tx,rx}.rs`, each used from one place at a time.
An `accept` is `beginAccept` followed by `finishAccept`, which other calls may come between.
* `begin_cases`, `PageWriter.finish_cases`, `ReceivedPage.new_cases`: a call hands its page on, or
  fails and gives it up.
-/

namespace PgFusion.Transfer

open Page (PagePool PageStore PageDescriptor AcquireError DetachError ReleaseError AccessError)

/-- A handle of a pool of pages of one size. -/
structure PoolHandle extends PagePool where
  pageSize : ℕ
deriving DecidableEq

/-- The pages of a pool and what is in them. -/
structure PageMemory where
  store : PageStore
  bytes : ℕ → List UInt8

/-- `u64::saturating_add(1)`. -/
@[irreducible] def saturatingSucc (n : ℕ) : ℕ := if n < 18446744073709551615 then n + 1 else n

/-- `TxError`. -/
inductive TxError where
  | closed
  | busy
  | pageTooSmall (required actual : ℕ)
  | payloadCapacityTooLarge (capacity max : ℕ)
  | payloadTooLarge (actual max : ℕ)
  | payloadExceedsCapacity (actual capacity : ℕ)
  | acquire (err : AcquireError)
  | detach (err : DetachError)
  | encode (err : EncodeError)
deriving DecidableEq

/-- `RxError`. -/
inductive RxError where
  | closed
  | busy
  | unexpectedTransferId (expected actual : ℕ)
  | access (err : AccessError)
  | invalidPage (err : InvalidPageError)
  | release (err : ReleaseError)
  | decode (err : DecodeError)
deriving DecidableEq

/-! ### The sender -/

/-- `MAX_PAYLOAD_LEN`. -/
def maxPayloadLen : ℕ := 4294967295

/-- `validate_page_size`. -/
def validatePageSize (pageSize : ℕ) : Except TxError Unit :=
  if pageSize < pageHeaderLen then .error (.pageTooSmall pageHeaderLen pageSize)
  else if pageSize - pageHeaderLen > maxPayloadLen then
    .error (.payloadCapacityTooLarge (pageSize - pageHeaderLen) maxPayloadLen)
  else .ok ()

/-- `TxPhase`. -/
inductive TxPhase where
  | idle | writing | outboundPending | closed
deriving DecidableEq

/-- `TxInner`, without its handle of the pool. -/
structure TxInner where
  phase : TxPhase
  nextTransferId : ℕ
deriving DecidableEq

namespace TxInner

/-- `PageTx::new`. -/
def new : TxInner := ⟨.idle, 1⟩

/-- `TxInner::enter_writing`. -/
def enterWriting (tx : TxInner) : Except TxError TxInner :=
  match tx.phase with
  | .idle => .ok { tx with phase := .writing }
  | .closed => .error .closed
  | .writing | .outboundPending => .error .busy

/-- `TxInner::reserve_transfer_id`. -/
def reserveTransferId (tx : TxInner) : ℕ × TxInner :=
  (tx.nextTransferId, { tx with nextTransferId := saturatingSucc tx.nextTransferId })

/-- `TxInner::finish_writer`. -/
def finishWriter (tx : TxInner) : ℕ × TxInner :=
  (tx.reserveTransferId.1, { tx.reserveTransferId.2 with phase := .outboundPending })

/-- `TxInner::cancel_writer`. -/
def cancelWriter (tx : TxInner) : TxInner := { tx with phase := .idle }

/-- `TxInner::finish_outbound`. -/
def finishOutbound (tx : TxInner) : TxInner := { tx with phase := .idle }

/-- `PageTx::close`: the close frame. -/
def close (tx : TxInner) : Except TxError OwnedFrame × TxInner :=
  match tx.phase with
  | .idle =>
    let r := { tx with phase := .closed }.reserveTransferId
    (.ok (.close ⟨r.1⟩), r.2)
  | .closed => (.error .closed, tx)
  | .writing | .outboundPending => (.error .busy, tx)

end TxInner

/-- `PageWriter`, which holds an attached lease. -/
structure PageWriter where
  lease : PageDescriptor
  kind : ℕ
  flags : ℕ
  position : ℕ
deriving DecidableEq

/-- `OutboundPage`, which holds a detached page. -/
structure OutboundPage where
  descriptor : PageDescriptor
  transferId : ℕ
deriving DecidableEq

/-- `OutboundPage::frame`. -/
def OutboundPage.frame (o : OutboundPage) : OwnedFrame := .page ⟨o.transferId, o.descriptor⟩

section Sender

variable (pool : PoolHandle)

/-- `PageTx::begin`. -/
def begin (kind flags : ℕ) (tx : TxInner) (m : PageMemory) :
    Except TxError PageWriter × TxInner × PageMemory :=
  match validatePageSize pool.pageSize with
  | .error err => (.error err, tx, m)
  | .ok _ =>
    match tx.enterWriting with
    | .error err => (.error err, tx, m)
    | .ok tx =>
      match m.store.tryAcquire pool.toPagePool with
      | (.error err, s) => (.error (.acquire err), tx.cancelWriter, { m with store := s })
      | (.ok lease, s) => (.ok ⟨lease, kind, flags, 0⟩, tx, { m with store := s })

/-- `PageWriter::payload_capacity`. -/
def PageWriter.payloadCapacity (w : PageWriter) (m : PageMemory) : ℕ :=
  (m.bytes w.lease.pageId).length - pageHeaderLen

/-- `PageWriter::remaining`. -/
def PageWriter.remaining (w : PageWriter) (m : PageMemory) : ℕ :=
  w.payloadCapacity m - w.position

/-- Bytes with a part overwritten. -/
def overwrite (b : List UInt8) (start : ℕ) (data : List UInt8) : List UInt8 :=
  b.take start ++ data ++ b.drop (start + data.length)

/-- `PageWriter::write`: the number of bytes written, the writer and the memory. -/
def PageWriter.write (w : PageWriter) (buf : List UInt8) (m : PageMemory) :
    ℕ × PageWriter × PageMemory :=
  if w.remaining m = 0 then (0, w, m)
  else
    let toCopy := min (w.remaining m) buf.length
    (toCopy, { w with position := w.position + toCopy },
      { m with
        bytes := Function.update m.bytes w.lease.pageId
          (overwrite (m.bytes w.lease.pageId) (pageHeaderLen + w.position) (buf.take toCopy)) })

/-- The drop of a `PageWriter` that was not finished: its lease is dropped, and the sender is
idle again. -/
def PageWriter.drop (w : PageWriter) (tx : TxInner) (m : PageMemory) : TxInner × PageMemory :=
  (tx.cancelWriter, { m with store := (m.store.releaseAttached pool.toPagePool w.lease).2 })

/-- `PageWriter::finish_with_payload_len`. A writer that cannot be finished is dropped. -/
def PageWriter.finishWithPayloadLen (payloadLen : ℕ) (w : PageWriter) (tx : TxInner)
    (m : PageMemory) : Except TxError OutboundPage × TxInner × PageMemory :=
  if payloadLen > w.payloadCapacity m then
    (.error (.payloadExceedsCapacity payloadLen (w.payloadCapacity m)), w.drop pool tx m)
  else if payloadLen > maxPayloadLen then
    (.error (.payloadTooLarge payloadLen maxPayloadLen), w.drop pool tx m)
  else
    match encodePageHeader ⟨w.kind, w.flags, payloadLen⟩ (m.bytes w.lease.pageId) with
    | .error err => (.error (.encode err), w.drop pool tx m)
    | .ok bytes =>
      match m.store.intoDescriptor pool.toPagePool w.lease with
      | (.error err, s) => (.error (.detach err), tx.cancelWriter,
          ⟨s, Function.update m.bytes w.lease.pageId bytes⟩)
      | (.ok descriptor, s) => (.ok ⟨descriptor, tx.finishWriter.1⟩, tx.finishWriter.2,
          ⟨s, Function.update m.bytes w.lease.pageId bytes⟩)

/-- `PageWriter::finish`. -/
def PageWriter.finish (w : PageWriter) (tx : TxInner) (m : PageMemory) :
    Except TxError OutboundPage × TxInner × PageMemory :=
  w.finishWithPayloadLen pool w.position tx m

/-- The drop of an `OutboundPage` that was not sent: its page is released, and the sender is
idle again. -/
def OutboundPage.drop (o : OutboundPage) (tx : TxInner) (m : PageMemory) : TxInner × PageMemory :=
  (tx.finishOutbound, { m with store := (m.store.release pool.toPagePool o.descriptor).2 })

end Sender

/-! ### The receiver -/

/-- `RxPhase`. -/
inductive RxPhase where
  | idle | accepting | closed
deriving DecidableEq

/-- `RxInner`, without its handle of the pool. -/
structure RxInner where
  phase : RxPhase
  nextTransferId : ℕ
deriving DecidableEq

namespace RxInner

/-- `PageRx::new`. -/
def new : RxInner := ⟨.idle, 1⟩

/-- `RxInner::begin_accept`. -/
def beginAccept (rx : RxInner) : Except RxError RxInner :=
  match rx.phase with
  | .idle => .ok { rx with phase := .accepting }
  | .closed => .error .closed
  | .accepting => .error .busy

/-- `RxInner::advance_transfer_id`. -/
def advanceTransferId (rx : RxInner) : RxInner :=
  { rx with nextTransferId := saturatingSucc rx.nextTransferId }

/-- `RxInner::cancel_accept`. -/
def cancelAccept (rx : RxInner) : RxInner := { rx with phase := .idle }

/-- `RxInner::finish_close`. -/
def finishClose (rx : RxInner) : RxInner := { rx with phase := .closed }

/-- `RxInner::finish_page_accept`. -/
def finishPageAccept (rx : RxInner) : RxInner := { rx with phase := .idle }

end RxInner

/-- `ReceivedPage`, which holds a detached page. -/
structure ReceivedPage where
  descriptor : PageDescriptor
  kind : ℕ
  flags : ℕ
  payloadLen : ℕ
deriving DecidableEq

/-- `ReceiveEvent`. -/
inductive ReceiveEvent where
  | page (page : ReceivedPage)
  | closed
deriving DecidableEq

section Receiver

variable (pool : PoolHandle)

/-- `ReceivedPage::new`. When it fails, the drop of the pending page releases it. -/
def ReceivedPage.new (desc : PageDescriptor) (m : PageMemory) :
    Except RxError ReceivedPage × PageMemory :=
  let dropped : PageMemory := { m with store := (m.store.release pool.toPagePool desc).2 }
  match m.store.validateDetachedDescriptor pool.toPagePool desc with
  | .error err => (.error (.access err), dropped)
  | .ok i =>
    match decodePageHeader ((m.bytes i).take pageHeaderLen) with
    | .error err => (.error (.invalidPage err), dropped)
    | .ok header =>
      let capacity := (m.bytes i).length - pageHeaderLen
      if header.payloadLen > capacity then
        (.error (.invalidPage (.payloadTooLarge header.payloadLen capacity)), dropped)
      else (.ok ⟨desc, header.kind, header.flags, header.payloadLen⟩, m)

/-- `PageRx::accept` after its `begin_accept`. -/
def finishAccept (frame : OwnedFrame) (rx : RxInner) (m : PageMemory) :
    Except RxError ReceiveEvent × RxInner × PageMemory :=
  if frame.transferId ≠ rx.nextTransferId then
    (.error (.unexpectedTransferId rx.nextTransferId frame.transferId), rx.cancelAccept, m)
  else
    match frame with
    | .close _ => (.ok .closed, rx.advanceTransferId.finishClose, m)
    | .page frame =>
      match ReceivedPage.new pool frame.descriptor m with
      | (.error err, m) => (.error err, rx.cancelAccept, m)
      | (.ok page, m) => (.ok (.page page), rx.advanceTransferId.finishPageAccept, m)

/-- `PageRx::accept`. -/
def accept (frame : OwnedFrame) (rx : RxInner) (m : PageMemory) :
    Except RxError ReceiveEvent × RxInner × PageMemory :=
  match rx.beginAccept with
  | .error err => (.error err, rx, m)
  | .ok rx => finishAccept pool frame rx m

/-- `ReceivedPage::payload`; none where the source expects that the descriptor is still
valid. -/
def ReceivedPage.payload (page : ReceivedPage) (m : PageMemory) : Option (List UInt8) :=
  match m.store.validateDetachedDescriptor pool.toPagePool page.descriptor with
  | .error _ => none
  | .ok i => some (((m.bytes i).drop pageHeaderLen).take page.payloadLen)

/-- The drop of a `ReceivedPage` that was not released. -/
def ReceivedPage.drop (page : ReceivedPage) (m : PageMemory) : PageMemory :=
  { m with store := (m.store.release pool.toPagePool page.descriptor).2 }

/-- `ReceivedPage::release`. A page that could not be released is dropped. -/
def ReceivedPage.release (page : ReceivedPage) (m : PageMemory) :
    Except RxError Unit × PageMemory :=
  match m.store.release pool.toPagePool page.descriptor with
  | (.ok _, s) => (.ok (), { m with store := s })
  | (.error err, s) => (.error (.release err), page.drop pool { m with store := s })

end Receiver

section Accept

variable {pool : PoolHandle} {rx : RxInner} {m : PageMemory}

/-- A frame that is out of order is refused. -/
lemma finishAccept_of_ne (frame : OwnedFrame) (h : frame.transferId ≠ rx.nextTransferId) :
    finishAccept pool frame rx m =
      (.error (.unexpectedTransferId rx.nextTransferId frame.transferId),
        { rx with phase := .idle }, m) :=
  if_pos h

/-- A page frame that is in order is accepted if its page can be opened. -/
lemma finishAccept_page {f : PageFrame} (h : f.transferId = rx.nextTransferId) {page : ReceivedPage}
    {m' : PageMemory} (hnew : ReceivedPage.new pool f.descriptor m = (.ok page, m')) :
    finishAccept pool (.page f) rx m =
      (.ok (.page page), ⟨.idle, saturatingSucc rx.nextTransferId⟩, m') := by
  simp only [finishAccept, hnew]
  exact if_neg (not_not.mpr h)

/-- A page frame that is in order is refused if its page cannot be opened. -/
lemma finishAccept_page_error {f : PageFrame} (h : f.transferId = rx.nextTransferId) {err : RxError}
    {m' : PageMemory} (hnew : ReceivedPage.new pool f.descriptor m = (.error err, m')) :
    finishAccept pool (.page f) rx m = (.error err, { rx with phase := .idle }, m') := by
  simp only [finishAccept, hnew]
  exact if_neg (not_not.mpr h)

/-- A close frame that is in order is accepted. -/
lemma finishAccept_close {f : CloseFrame} (h : f.transferId = rx.nextTransferId) :
    finishAccept pool (.close f) rx m =
      (.ok .closed, ⟨.closed, saturatingSucc rx.nextTransferId⟩, m) :=
  if_neg (not_not.mpr h)

end Accept

/-! ### What the calls do to the pages -/

section Calls

variable {pool : PoolHandle} {m : PageMemory} {ds : List (PageDescriptor × Page.LeaseState)}

/-- The pages of the memory are accounted for by the list. -/
def PageMemory.HeldBy (pool : PoolHandle) (m : PageMemory)
    (ds : List (PageDescriptor × Page.LeaseState)) : Prop :=
  m.store.HeldBy pool.toPagePool ds

/-- The page that a descriptor names is given up. -/
def PageMemory.giveBack (m : PageMemory) (d : PageDescriptor) : PageMemory :=
  { m with store := m.store.giveBack d.pageId }

lemma PageMemory.HeldBy.perm (h : m.HeldBy pool ds)
    {ds' : List (PageDescriptor × Page.LeaseState)} (hp : ds.Perm ds') : m.HeldBy pool ds' :=
  PageStore.HeldBy.perm h hp

/-- **`begin`** hands out a writer on a page that was free, or it fails and changes
nothing. -/
lemma begin_cases (h : m.HeldBy pool ds) (tx : TxInner) (kind flags : ℕ) :
    (∃ d s, begin pool kind flags tx m =
        (.ok ⟨d, kind, flags, 0⟩, { tx with phase := .writing }, { m with store := s }) ∧
      tx.phase = .idle ∧ PageMemory.HeldBy pool { m with store := s } ((d, .attached) :: ds) ∧
      pageHeaderLen ≤ pool.pageSize ∧ pool.pageSize ≤ pageHeaderLen + maxPayloadLen) ∨
      ∃ err, begin pool kind flags tx m = (.error err, tx, m) := by
  rw [begin]
  cases hsize : validatePageSize pool.pageSize with
  | error err => exact Or.inr ⟨err, rfl⟩
  | ok u =>
    cases henter : tx.enterWriting with
    | error err => exact Or.inr ⟨err, rfl⟩
    | ok tx' =>
      have hidle : tx.phase = .idle ∧ tx' = { tx with phase := .writing } := by
        rw [TxInner.enterWriting] at henter
        split at henter <;> cases henter
        exact ⟨by assumption, rfl⟩
      obtain ⟨hidle, rfl⟩ := hidle
      rcases PageStore.HeldBy.tryAcquire h with ⟨d, s, hacq, hs, -⟩ | ⟨hacq, -⟩
      · refine Or.inl ⟨d, s, by simp only [hacq], hidle, hs, ?_⟩
        rw [validatePageSize] at hsize
        split_ifs at hsize with hsmall hlarge
        omega
      · refine Or.inr ⟨.acquire .empty, ?_⟩
        simp only [hacq, TxInner.cancelWriter]
        rw [← hidle]

lemma length_overwrite {b data : List UInt8} {n : ℕ} (hn : n + data.length ≤ b.length) :
    (overwrite b n data).length = b.length := by
  simp only [overwrite, List.length_append, List.length_take, List.length_drop]
  omega

/-- A `write` changes the bytes of the page that is written, and nothing else. -/
lemma PageWriter.write_spec (w : PageWriter) (buf : List UInt8) (m : PageMemory) :
    (w.write buf m).2.1.lease = w.lease ∧ (w.write buf m).2.2.store = m.store ∧
      ∀ i, ((w.write buf m).2.2.bytes i).length = (m.bytes i).length := by
  rw [PageWriter.write]
  split
  · exact ⟨rfl, rfl, fun _ => rfl⟩
  · next hrem =>
      refine ⟨rfl, rfl, fun i => ?_⟩
      show (Function.update m.bytes w.lease.pageId _ i).length = _
      by_cases hi : i = w.lease.pageId
      · subst hi
        rw [PageWriter.remaining, PageWriter.payloadCapacity] at hrem ⊢
        rw [Function.update_self, length_overwrite]
        rw [List.length_take]
        omega
      · rw [Function.update_of_ne hi]

/-- The drop of a writer gives its page up. -/
lemma PageWriter.drop_eq {w : PageWriter} (h : m.HeldBy pool ((w.lease, .attached) :: ds))
    (tx : TxInner) :
    w.drop pool tx m = ({ tx with phase := .idle }, m.giveBack w.lease) ∧
      (m.giveBack w.lease).HeldBy pool ds := by
  obtain ⟨hrel, hheld⟩ := PageStore.HeldBy.release h
  refine ⟨?_, hheld⟩
  rw [PageWriter.drop, PageStore.releaseAttached, hrel]
  rfl

/-- A header does not change the size of a page. -/
lemma length_update_header {b : ℕ → List UInt8} {i : ℕ} (h : pageHeaderLen ≤ (b i).length)
    (header : PageHeader) (j : ℕ) :
    (Function.update b i (headerBytes header ++ (b i).drop pageHeaderLen) j).length =
      (b j).length := by
  by_cases hj : j = i
  · subst hj
    rw [Function.update_self, List.length_append, length_headerBytes, List.length_drop]
    omega
  · rw [Function.update_of_ne hj]

/-- **`finish_with_payload_len`** detaches the page of the writer and hands it out under
the next transfer id, or it fails and gives the page up. -/
lemma PageWriter.finish_cases {w : PageWriter} (h : m.HeldBy pool ((w.lease, .attached) :: ds))
    (hsize : pageHeaderLen ≤ (m.bytes w.lease.pageId).length) (tx : TxInner) (n : ℕ) :
    (∃ s, w.finishWithPayloadLen pool n tx m = (.ok ⟨w.lease, tx.nextTransferId⟩,
        ⟨.outboundPending, saturatingSucc tx.nextTransferId⟩,
        ⟨s, Function.update m.bytes w.lease.pageId
          (headerBytes ⟨w.kind, w.flags, n⟩ ++ (m.bytes w.lease.pageId).drop pageHeaderLen)⟩) ∧
      s.HeldBy pool.toPagePool ((w.lease, .detached) :: ds)) ∨
      ((w.payloadCapacity m < n ∨ maxPayloadLen < n) ∧
        ∃ err, w.finishWithPayloadLen pool n tx m =
          (.error err, { tx with phase := .idle }, m.giveBack w.lease) ∧
        (m.giveBack w.lease).HeldBy pool ds) := by
  obtain ⟨hdrop, hheld⟩ := PageWriter.drop_eq h tx
  rw [finishWithPayloadLen, hdrop]
  split_ifs with hcap hmax
  · exact Or.inr ⟨Or.inl hcap, _, rfl, hheld⟩
  · exact Or.inr ⟨Or.inr hmax, _, rfl, hheld⟩
  · obtain ⟨s, hinto, hs⟩ := PageStore.HeldBy.intoDescriptor h
    refine Or.inl ⟨s, ?_, hs⟩
    rw [encodePageHeader_eq _ hsize]
    simp only [hinto]
    rfl

/-- The drop of an outbound page gives the page up. -/
lemma OutboundPage.drop_eq {o : OutboundPage} (h : m.HeldBy pool ((o.descriptor, .detached) :: ds))
    (tx : TxInner) :
    o.drop pool tx m = ({ tx with phase := .idle }, m.giveBack o.descriptor) ∧
      (m.giveBack o.descriptor).HeldBy pool ds := by
  obtain ⟨hrel, hheld⟩ := PageStore.HeldBy.release h
  refine ⟨?_, hheld⟩
  rw [OutboundPage.drop, PageStore.release, hrel]
  rfl

/-- The release of a received page gives the page up, and so does its drop. -/
lemma ReceivedPage.release_eq {page : ReceivedPage}
    (h : m.HeldBy pool ((page.descriptor, .detached) :: ds)) :
    page.release pool m = (.ok (), m.giveBack page.descriptor) ∧
      page.drop pool m = m.giveBack page.descriptor ∧
      (m.giveBack page.descriptor).HeldBy pool ds := by
  obtain ⟨hrel, hheld⟩ := PageStore.HeldBy.release h
  refine ⟨?_, ?_, hheld⟩
  · rw [ReceivedPage.release, PageStore.release, hrel]
    rfl
  · rw [ReceivedPage.drop, PageStore.release, hrel]
    rfl

/-- **The opening of a detached page** leaves it to the receiver, or finds its contents
invalid and gives it up. -/
lemma ReceivedPage.new_cases {d : PageDescriptor} (h : m.HeldBy pool ((d, .detached) :: ds)) :
    (∃ page : ReceivedPage, ReceivedPage.new pool d m = (.ok page, m) ∧ page.descriptor = d) ∨
      ∃ err, ReceivedPage.new pool d m = (.error (.invalidPage err), m.giveBack d) ∧
        (m.giveBack d).HeldBy pool ds := by
  obtain ⟨hrel, hheld⟩ := PageStore.HeldBy.release h
  have hvalid := PageStore.HeldBy.validate h List.mem_cons_self
  rw [ReceivedPage.new, PageStore.release, hrel, hvalid]
  dsimp only
  cases decodePageHeader ((m.bytes d.pageId).take pageHeaderLen) with
  | error err => exact Or.inr ⟨err, rfl, hheld⟩
  | ok header =>
    dsimp only
    split
    · exact Or.inr ⟨_, rfl, hheld⟩
    · exact Or.inl ⟨_, rfl, rfl⟩

end Calls

end PgFusion.Transfer

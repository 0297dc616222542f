import PgFusion.Issuance.Frame
import PgFusion.Issuance.Pool
import PgFusion.Transfer.Endpoint

/-!
The sender and the receiver of `page/issuance/src/{tx,rx}.rs`, around the endpoints of the transfer
layer. A permit is acquired before a page is, and is given up when the page is. Whether a frame that
was not accepted has given its permit up is decided by the error of the transfer layer.
* `begin_cases`, `IssuedWriter.finish_cases`, `finishAccept_page`: what becomes of page and permit.
-/

namespace PgFusion.Issuance

open Page (PageDescriptor LeaseState PageStore)

open Transfer (PoolHandle PageMemory PageWriter OutboundPage ReceivedPage TxInner RxInner TxError
  RxError ReceiveEvent PageFrame pageHeaderLen maxPayloadLen saturatingSucc)

/-- The memory that both pools live in. -/
structure Shared where
  pages : PageMemory
  permits : PermitStore

/-- `IssuedTxError`, and the `unreachable!` of `close`. -/
inductive IssuedTxError where
  | noPermits
  | acquire (err : AcquireError)
  | tx (err : TxError)
  | unreachable
deriving DecidableEq

/-- `IssuedRxError`, and the `unreachable!`s of `accept`. -/
inductive IssuedRxError where
  | permitPoolMismatch (expected actual : ℕ)
  | rx (err : RxError)
  | permitRelease (err : ReleaseError)
  | rxAndPermitRelease (rx : RxError) (permit : ReleaseError)
  | unreachable
deriving DecidableEq

/-- The errors after which a frame may be presented again. -/
def IssuedRxError.retryable : IssuedRxError → Bool
  | .permitPoolMismatch .. | .rx .busy | .rx .closed | .rx (.access _)
  | .rx (.unexpectedTransferId ..) => true
  | _ => false

/-- `IssuedWriter`. -/
structure IssuedWriter where
  writer : PageWriter
  permit : ℕ
deriving DecidableEq

/-- `IssuedOutboundPage`. -/
structure IssuedOutboundPage where
  outbound : OutboundPage
  permitId : ℕ
  payloadLen : ℕ
deriving DecidableEq

/-- `IssuedReceivedPage`. -/
structure IssuedReceivedPage where
  page : ReceivedPage
  permitId : ℕ
deriving DecidableEq

/-- `IssueEvent`. -/
inductive IssueEvent where
  | page (page : IssuedReceivedPage)
  | closed
deriving DecidableEq

section Endpoints

variable (pool : PoolHandle) (permits : IssuancePool)

/-! ### The sender -/

/-- `IssuedTx::begin`. The permit is dropped if the sender has no page to hand out. -/
def begin (kind flags : ℕ) (tx : TxInner) (sh : Shared) :
    Except IssuedTxError IssuedWriter × TxInner × Shared :=
  match sh.permits.tryAcquire with
  | (.error .empty, ps) => (.error .noPermits, tx, { sh with permits := ps })
  | (.error err, ps) => (.error (.acquire err), tx, { sh with permits := ps })
  | (.ok permit, ps) =>
    match Transfer.begin pool kind flags tx sh.pages with
    | (.error err, tx, m) => (.error (.tx err), tx, ⟨m, (ps.release permits permit).2⟩)
    | (.ok writer, tx, m) => (.ok ⟨writer, permit⟩, tx, ⟨m, ps⟩)

/-- `IssuedTx::close`. -/
def close (tx : TxInner) : Except IssuedTxError IssuedOwnedFrame × TxInner :=
  match tx.close with
  | (.ok (.close frame), tx) => (.ok (.close frame), tx)
  | (.ok (.page _), tx) => (.error .unreachable, tx)
  | (.error err, tx) => (.error (.tx err), tx)

namespace IssuedWriter

/-- `IssuedWriter::write`. -/
def write (w : IssuedWriter) (buf : List UInt8) (sh : Shared) : ℕ × IssuedWriter × Shared :=
  let r := w.writer.write buf sh.pages
  (r.1, { w with writer := r.2.1 }, { sh with pages := r.2.2 })

/-- The drop of an `IssuedWriter`: its fields are dropped in order. -/
def drop (w : IssuedWriter) (tx : TxInner) (sh : Shared) : TxInner × Shared :=
  let r := w.writer.drop pool tx sh.pages
  (r.1, ⟨r.2, (sh.permits.release permits w.permit).2⟩)

/-- `IssuedWriter::finish_with_payload_len`. When the writer cannot be finished, its permit is
dropped. -/
def finishWithPayloadLen (payloadLen : ℕ) (w : IssuedWriter) (tx : TxInner) (sh : Shared) :
    Except IssuedTxError IssuedOutboundPage × TxInner × Shared :=
  match w.writer.finishWithPayloadLen pool payloadLen tx sh.pages with
  | (.error err, tx, m) => (.error (.tx err), tx, ⟨m, (sh.permits.release permits w.permit).2⟩)
  | (.ok outbound, tx, m) => (.ok ⟨outbound, w.permit, payloadLen⟩, tx, { sh with pages := m })

end IssuedWriter

namespace IssuedOutboundPage

/-- `IssuedOutboundPage::frame`. -/
def frame (o : IssuedOutboundPage) : IssuedOwnedFrame :=
  .page ⟨permits.instanceId, o.permitId, ⟨o.outbound.transferId, o.outbound.descriptor⟩⟩

/-- The drop of an `IssuedOutboundPage` that was not sent. -/
def drop (o : IssuedOutboundPage) (tx : TxInner) (sh : Shared) : TxInner × Shared :=
  let r := o.outbound.drop pool tx sh.pages
  (r.1, ⟨r.2, (sh.permits.release permits o.permitId).2⟩)

end IssuedOutboundPage

/-! ### The receiver -/

/-- `should_release_permit`. -/
def shouldReleasePermit : RxError → Bool
  | .busy | .closed | .access _ | .release _ | .unexpectedTransferId .. => false
  | .invalidPage _ | .decode _ => true

/-- `IssuedRx::accept` up to and with the `begin_accept` of the transfer layer. Its errors do
not give the permit up. -/
def beginAccept (frame : IssuedOwnedFrame) (rx : RxInner) : Except IssuedRxError RxInner :=
  match frame with
  | .close _ => rx.beginAccept.mapError .rx
  | .page frame =>
    if frame.poolInstanceId ≠ permits.instanceId then
      .error (.permitPoolMismatch permits.instanceId frame.poolInstanceId)
    else rx.beginAccept.mapError .rx

/-- `IssuedRx::accept` after the `begin_accept` of the transfer layer. -/
def finishAccept (frame : IssuedOwnedFrame) (rx : RxInner) (sh : Shared) :
    Except IssuedRxError IssueEvent × RxInner × Shared :=
  match frame with
  | .close frame =>
    match Transfer.finishAccept pool (.close frame) rx sh.pages with
    | (.ok .closed, rx, m) => (.ok .closed, rx, { sh with pages := m })
    | (.ok (.page _), rx, m) => (.error .unreachable, rx, { sh with pages := m })
    | (.error err, rx, m) => (.error (.rx err), rx, { sh with pages := m })
  | .page frame =>
    match Transfer.finishAccept pool (.page frame.inner) rx sh.pages with
    | (.ok (.page page), rx, m) => (.ok (.page ⟨page, frame.permitId⟩), rx, { sh with pages := m })
    | (.ok .closed, rx, m) => (.error .unreachable, rx, { sh with pages := m })
    | (.error err, rx, m) =>
      if shouldReleasePermit err then
        match sh.permits.release permits frame.permitId with
        | (.ok _, ps) => (.error (.rx err), rx, ⟨m, ps⟩)
        | (.error permit, ps) => (.error (.rxAndPermitRelease err permit), rx, ⟨m, ps⟩)
      else (.error (.rx err), rx, { sh with pages := m })

/-- `IssuedRx::accept`. -/
def accept (frame : IssuedOwnedFrame) (rx : RxInner) (sh : Shared) :
    Except IssuedRxError IssueEvent × RxInner × Shared :=
  match beginAccept permits frame rx with
  | .error err => (.error err, rx, sh)
  | .ok rx => finishAccept pool permits frame rx sh

namespace IssuedReceivedPage

/-- `IssuedReceivedPage::release`. -/
def release (page : IssuedReceivedPage) (sh : Shared) : Except IssuedRxError Unit × Shared :=
  let pageResult := page.page.release pool sh.pages
  let permitResult := sh.permits.release permits page.permitId
  let sh' : Shared := ⟨pageResult.2, permitResult.2⟩
  match pageResult.1, permitResult.1 with
  | .ok _, .ok _ => (.ok (), sh')
  | .error err, .ok _ => (.error (.rx err), sh')
  | .ok _, .error err => (.error (.permitRelease err), sh')
  | .error rx, .error permit => (.error (.rxAndPermitRelease rx permit), sh')

/-- The drop of an `IssuedReceivedPage` that was not released. -/
def drop (page : IssuedReceivedPage) (sh : Shared) : Shared :=
  ⟨page.page.drop pool sh.pages, (sh.permits.release permits page.permitId).2⟩

end IssuedReceivedPage

end Endpoints

/-! ### What the calls do to the pages and the permits -/

/-- A leased page and the permit under which it was issued. -/
structure Holding where
  descriptor : PageDescriptor
  state : LeaseState
  permit : ℕ
deriving DecidableEq

/-- What a writer holds. -/
def IssuedWriter.holding (w : IssuedWriter) : Holding := ⟨w.writer.lease, .attached, w.permit⟩

/-- What an outbound page holds. -/
def IssuedOutboundPage.holding (o : IssuedOutboundPage) : Holding :=
  ⟨o.outbound.descriptor, .detached, o.permitId⟩

/-- What a page frame holds on its way. -/
def IssuedPageFrame.holding (f : IssuedPageFrame) : Holding :=
  ⟨f.inner.descriptor, .detached, f.permitId⟩

/-- What a received page holds. -/
def IssuedReceivedPage.holding (page : IssuedReceivedPage) : Holding :=
  ⟨page.page.descriptor, .detached, page.permitId⟩

namespace Shared

/-- The page and the permit of a holding are given up. -/
def giveBack (h : Holding) (sh : Shared) : Shared :=
  ⟨sh.pages.giveBack h.descriptor, sh.permits.giveBack h.permit⟩

/-- What somebody else has leased in the two pools. -/
structure Others where
  pages : List (PageDescriptor × LeaseState)
  permits : List ℕ

/-- The holdings of the list, and what the others have, are what is leased, each exactly
once. -/
structure HeldBy (pool : PoolHandle) (permits : IssuancePool) (others : Others) (sh : Shared)
    (hs : List Holding) : Prop where
  pages : sh.pages.HeldBy pool (hs.map (fun h => (h.descriptor, h.state)) ++ others.pages)
  permits : sh.permits.HeldBy permits (hs.map (fun h => h.permit) ++ others.permits)

end Shared

section Accounting

variable {pool : PoolHandle} {permits : IssuancePool} {others : Shared.Others} {sh : Shared}
  {hs : List Holding}

namespace Shared.HeldBy

lemma perm (h : sh.HeldBy pool permits others hs) {hs' : List Holding} (hp : hs.Perm hs') :
    sh.HeldBy pool permits others hs' :=
  ⟨h.pages.perm ((hp.map _).append_right _), h.permits.perm ((hp.map _).append_right _)⟩

/-- A holding is given up in both pools. -/
lemma giveBack {x : Holding} (h : sh.HeldBy pool permits others (x :: hs)) :
    (sh.giveBack x).HeldBy pool permits others hs :=
  ⟨(PageStore.HeldBy.release h.pages).2, h.permits.release.2⟩

/-- The permit of a holding is released. -/
lemma releasePermit {d : PageDescriptor} {st : LeaseState} {i : ℕ}
    (h : sh.HeldBy pool permits others (⟨d, st, i⟩ :: hs)) :
    sh.permits.release permits i = (.ok (), sh.permits.giveBack i) :=
  h.permits.release.1

end Shared.HeldBy

/-- **`begin`** hands out a writer with a page and a permit that were free, or it fails and
leaves everything leased as it was. -/
lemma begin_cases (h : sh.HeldBy pool permits others hs) (tx : TxInner) (kind flags : ℕ) :
    ∃ sh', sh.permits.Clean sh'.permits ∧ sh'.pages.bytes = sh.pages.bytes ∧
      ((∃ w, begin pool permits kind flags tx sh = (.ok w, { tx with phase := .writing }, sh') ∧
          sh'.HeldBy pool permits others (w.holding :: hs) ∧ pageHeaderLen ≤ pool.pageSize) ∨
        ∃ err, begin pool permits kind flags tx sh = (.error err, tx, sh') ∧
          sh'.HeldBy pool permits others hs) := by
  rcases h.permits.tryAcquire with ⟨i, ps, hacq, hps, hclean⟩ | ⟨hacq, hps, hclean⟩
  · rcases Transfer.begin_cases h.pages tx kind flags with
      ⟨d, st, hbegin, -, hheld, hsmall, -⟩ | ⟨err, hbegin⟩
    · refine ⟨⟨{ sh.pages with store := st }, ps⟩, hclean, rfl,
        Or.inl ⟨⟨⟨d, kind, flags, 0⟩, i⟩, ?_, ⟨hheld, hps⟩, hsmall⟩⟩
      simp only [begin, hacq, hbegin]
    · obtain ⟨hrel, hgiven⟩ := hps.release
      refine ⟨⟨sh.pages, ps.giveBack i⟩, hclean.trans (PermitStore.clean_giveBack i ps), rfl,
        Or.inr ⟨.tx err, ?_, ⟨h.pages, hgiven⟩⟩⟩
      simp only [begin, hacq, hbegin, hrel]
  · refine ⟨⟨sh.pages, sh.permits.count .acquireEmpty⟩, hclean, rfl,
      Or.inr ⟨.noPermits, ?_, ⟨h.pages, hps⟩⟩⟩
    simp only [begin, hacq]

/-- The drop of a writer gives up what it holds. -/
lemma IssuedWriter.drop_eq {w : IssuedWriter} (h : sh.HeldBy pool permits others (w.holding :: hs))
    (tx : TxInner) :
    w.drop pool permits tx sh = ({ tx with phase := .idle }, sh.giveBack w.holding) := by
  rw [IssuedWriter.drop, (PageWriter.drop_eq h.pages tx).1, h.releasePermit]
  rfl

/-- **`finish_with_payload_len`** hands the page and the permit of the writer on, or it fails
and gives both up. -/
lemma IssuedWriter.finish_cases {w : IssuedWriter}
    (h : sh.HeldBy pool permits others (w.holding :: hs))
    (hsize : pageHeaderLen ≤ (sh.pages.bytes w.writer.lease.pageId).length) (tx : TxInner) (n : ℕ) :
    (∃ m : PageMemory, ∃ o tx', w.finishWithPayloadLen pool permits n tx sh =
          (.ok o, tx', { sh with pages := m }) ∧
        o.outbound.descriptor = w.writer.lease ∧ o.permitId = w.permit ∧
        Shared.HeldBy pool permits others { sh with pages := m } (o.holding :: hs) ∧
        ∀ i, (m.bytes i).length = (sh.pages.bytes i).length) ∨
      ∃ err tx', w.finishWithPayloadLen pool permits n tx sh =
        (.error err, tx', sh.giveBack w.holding) := by
  rcases PageWriter.finish_cases h.pages hsize tx n with ⟨st, hfin, hst⟩ | ⟨-, err, hfin, -⟩
  · refine Or.inl ⟨⟨st, Function.update sh.pages.bytes w.writer.lease.pageId
        (Transfer.headerBytes ⟨w.writer.kind, w.writer.flags, n⟩ ++
          (sh.pages.bytes w.writer.lease.pageId).drop pageHeaderLen)⟩,
      ⟨⟨w.writer.lease, tx.nextTransferId⟩, w.permit, n⟩,
      ⟨.outboundPending, saturatingSucc tx.nextTransferId⟩, ?_, rfl, rfl, ⟨hst, h.permits⟩,
      Transfer.length_update_header hsize _⟩
    simp only [finishWithPayloadLen, hfin]
  · refine Or.inr ⟨.tx err, { tx with phase := .idle }, ?_⟩
    simp only [finishWithPayloadLen, hfin, h.releasePermit]
    rfl

/-- The drop of an outbound page gives up what it holds. -/
lemma IssuedOutboundPage.drop_eq {o : IssuedOutboundPage}
    (h : sh.HeldBy pool permits others (o.holding :: hs)) (tx : TxInner) :
    o.drop pool permits tx sh = ({ tx with phase := .idle }, sh.giveBack o.holding) := by
  rw [IssuedOutboundPage.drop, (OutboundPage.drop_eq h.pages tx).1, h.releasePermit]
  rfl

/-- The release of a received page gives up what it holds, and so does its drop. -/
lemma IssuedReceivedPage.release_eq {page : IssuedReceivedPage}
    (h : sh.HeldBy pool permits others (page.holding :: hs)) :
    page.release pool permits sh = (.ok (), sh.giveBack page.holding) ∧
      page.drop pool permits sh = sh.giveBack page.holding := by
  obtain ⟨hrel, hdrop, -⟩ := ReceivedPage.release_eq h.pages
  constructor
  · simp only [IssuedReceivedPage.release, hrel, h.releasePermit]
    rfl
  · rw [IssuedReceivedPage.drop, hdrop, h.releasePermit]
    rfl

/-- **A page frame that the receiver works on.** Out of order it is left alone; in order it
becomes a received page, or its contents are invalid and it gives up what it holds. -/
lemma finishAccept_page {f : IssuedPageFrame}
    (h : sh.HeldBy pool permits others (f.holding :: hs)) (rx : RxInner) :
    (f.inner.transferId ≠ rx.nextTransferId ∧
      finishAccept pool permits (.page f) rx sh =
        (.error (.rx (.unexpectedTransferId rx.nextTransferId f.inner.transferId)),
          { rx with phase := .idle }, sh)) ∨
      f.inner.transferId = rx.nextTransferId ∧
        ((∃ page : IssuedReceivedPage, page.holding = f.holding ∧
            finishAccept pool permits (.page f) rx sh =
              (.ok (.page page), ⟨.idle, saturatingSucc rx.nextTransferId⟩, sh)) ∨
          ∃ err, finishAccept pool permits (.page f) rx sh =
            (.error (.rx (.invalidPage err)), { rx with phase := .idle },
              sh.giveBack f.holding)) := by
  by_cases hid : f.inner.transferId = rx.nextTransferId
  · refine Or.inr ⟨hid, ?_⟩
    rcases ReceivedPage.new_cases h.pages with ⟨page, hnew, hd⟩ | ⟨err, hnew, -⟩
    · refine Or.inl ⟨⟨page, f.permitId⟩, ?_, ?_⟩
      · rw [IssuedReceivedPage.holding, hd]
        rfl
      · simp only [finishAccept, Transfer.finishAccept_page hid hnew]
    · refine Or.inr ⟨err, ?_⟩
      simp only [finishAccept, Transfer.finishAccept_page_error hid hnew, shouldReleasePermit,
        h.releasePermit]
      rfl
  · refine Or.inl ⟨hid, ?_⟩
    simp only [finishAccept, Transfer.finishAccept_of_ne (.page f.inner) hid]
    rfl

/-- A page frame of another page pool is left alone. -/
lemma finishAccept_other (permits : IssuancePool) {rxPool : PoolHandle} {f : IssuedPageFrame}
    (hpool : f.inner.descriptor.poolId ≠ rxPool.poolId) (rx : RxInner) (sh : Shared) :
    ∃ err : RxError, (IssuedRxError.rx err).retryable = true ∧
      finishAccept rxPool permits (.page f) rx sh =
        (.error (.rx err), { rx with phase := .idle }, sh) := by
  by_cases hid : f.inner.transferId = rx.nextTransferId
  · have hnew : ReceivedPage.new rxPool f.inner.descriptor sh.pages =
        (.error (.access (.poolMismatch rxPool.poolId f.inner.descriptor.poolId)), sh.pages) := by
      rw [ReceivedPage.new, PageStore.validateDetachedDescriptor, if_pos hpool, PageStore.release,
        PageStore.releaseWithState, if_pos hpool]
    refine ⟨.access (.poolMismatch rxPool.poolId f.inner.descriptor.poolId), rfl, ?_⟩
    simp only [finishAccept, Transfer.finishAccept_page_error hid hnew]
    rfl
  · refine ⟨.unexpectedTransferId rx.nextTransferId f.inner.transferId, rfl, ?_⟩
    simp only [finishAccept, Transfer.finishAccept_of_ne (.page f.inner) hid]
    rfl

/-- A close frame concerns no page and no permit. -/
lemma finishAccept_close (pool : PoolHandle) (permits : IssuancePool) (f : Transfer.CloseFrame)
    (rx : RxInner) (sh : Shared) :
    finishAccept pool permits (.close f) rx sh =
        (.error (.rx (.unexpectedTransferId rx.nextTransferId f.transferId)),
          { rx with phase := .idle }, sh) ∨
      finishAccept pool permits (.close f) rx sh =
        (.ok .closed, ⟨.closed, saturatingSucc rx.nextTransferId⟩, sh) := by
  by_cases hid : f.transferId = rx.nextTransferId
  · right
    simp only [finishAccept, Transfer.finishAccept_close hid]
  · left
    simp only [finishAccept, Transfer.finishAccept_of_ne (.close f) hid]
    rfl

end Accounting

end PgFusion.Issuance

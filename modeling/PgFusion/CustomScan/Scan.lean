import PgFusion.Interleave.Calls

/-!
The custom scan of a backend (`pg/extension/src/{custom_scan,result_ingress}.rs`): a call for a row
runs a loop that reads the primary ring, serves the scans of the query, and looks whether the result
is complete. Whatever the loop asks others for may fail, which the move says.
-/

namespace PgFusion.CustomScan

variable {R : Type}

/-! ### The result ingress -/

/-- `IssuedOwnedFrame` on the primary ring: a page with its rows, or the end of the stream. -/
inductive Frame (R : Type) where
  | page (rows : List R)
  | close
deriving DecidableEq

/-- `WorkerExecutionToBackend`. -/
inductive Control where
  | completeExecution
  | failExecution
deriving DecidableEq

/-- `PrimaryInbound`. -/
inductive Inbound (R : Type) where
  | control (message : Control)
  | issued (frame : Frame R)
deriving DecidableEq

/-- `ResultIngressError`. -/
inductive ResultIngressError where
  | issued
  | project
  | activePageBusy
deriving DecidableEq

/-- `AcceptedResultFrame`. -/
inductive AcceptedResultFrame where
  | page
  | closed
deriving DecidableEq

/-- `ResultIngress`: of the active page the rows that its cursor has not taken yet. -/
structure ResultIngress (R : Type) where
  activePage : Option (List R)
  streamClosed : Bool
  executionCompleted : Bool
deriving DecidableEq

/-- What may fail in a step: reading and decoding a message, accepting a frame, opening a cursor on
a page, projecting a row, handling a control message, serving the scans. -/
inductive Fault where
  | receive
  | accept
  | openCursor
  | project
  | control
  | scans
deriving DecidableEq

namespace ResultIngress

/-- `ResultIngress::new`. -/
def new : ResultIngress R := ⟨none, false, false⟩

/-- `ResultIngress::accept_frame`. -/
def acceptFrame (ingress : ResultIngress R) (fault : Option Fault) (frame : Frame R) :
    Except ResultIngressError (AcceptedResultFrame × ResultIngress R) :=
  if fault = some .accept then .error .issued
  else
    match frame with
    | .page rows =>
      if ingress.activePage.isSome then .error .activePageBusy
      else if fault = some .openCursor then .error .project
      else .ok (.page, { ingress with activePage := some rows })
    | .close => .ok (.closed, { ingress with streamClosed := true })

/-- `ResultIngress::mark_execution_complete`. -/
def markExecutionComplete (ingress : ResultIngress R) : ResultIngress R :=
  { ingress with executionCompleted := true }

/-- `ResultIngress::store_next_into`: the next row of the active page; an exhausted page is
released. -/
def storeNextInto (ingress : ResultIngress R) (fault : Option Fault) :
    Except ResultIngressError (Option R × ResultIngress R) :=
  match ingress.activePage with
  | none => .ok (none, ingress)
  | some rows =>
    if fault = some .project then .error .project
    else
      match rows with
      | row :: rest => .ok (some row, { ingress with activePage := some rest })
      | [] => .ok (none, { ingress with activePage := none })

/-- `ResultIngress::is_complete`. -/
def isComplete (ingress : ResultIngress R) : Bool :=
  ingress.streamClosed && ingress.executionCompleted && ingress.activePage.isNone

end ResultIngress

/-! ### The worker -/

/-- What a worker sends for one execution: its pages and then the end, or a failure, at the latest
after the close frame. -/
inductive Script (R : Type) where
  | completed (pages : List (List R))
  | failed (pages : List (List R)) (closed : Bool)

namespace Script

/-- The pages that are sent. -/
def pages : Script R → List (List R)
  | completed pages => pages
  | failed pages _ => pages

/-- The messages in their order. -/
def messages : Script R → List (Inbound R)
  | completed pages =>
    pages.map (fun rows => .issued (.page rows)) ++ [.issued .close, .control .completeExecution]
  | failed pages closed =>
    pages.map (fun rows => .issued (.page rows)) ++ (if closed then [.issued .close] else []) ++
      [.control .failExecution]

end Script

/-! ### The scan -/

/-- The three places of the loop that take a row of the active page. -/
inductive Place where
  | atEntry
  | afterPoll
  | afterScans
deriving DecidableEq

/-- Why an error was raised: the worker failed, a message could not be read, the ingress refused, a
control message could not be handled, or the scans failed. -/
inductive Cause where
  | workerFailed
  | receive
  | ingress (error : ResultIngressError)
  | control
  | scans
deriving DecidableEq

/-- Where the backend is: outside of a call, at a place of the loop of `exec_pg_fusion_scan`, or
past an error, after which PostgreSQL abandons the query. -/
inductive Point where
  | idle
  | entry
  | store (place : Place)
  | poll
  | checkFailure
  | scans
  | checkComplete
  | raised (cause : Cause)
deriving DecidableEq

/-- A page is opened or released. -/
inductive PageEvent where
  | opened
  | released
deriving DecidableEq

/-- `HostScanState` as far as the result goes, with the ring and the worker. What was read from the
ring, returned to PostgreSQL and done with pages is kept as history. -/
structure Scan (R : Type) where
  toSend : List (Inbound R)
  ring : List (Inbound R)
  ingress : ResultIngress R
  terminalError : Bool
  point : Point
  read : List (Inbound R)
  returned : List R
  ended : Bool
  pageLog : List PageEvent
deriving DecidableEq

/-- The start of an execution. -/
def Scan.start (script : Script R) : Scan R :=
  ⟨script.messages, [], .new, false, .idle, [], [], false, []⟩

/-- One step: the worker sends its next message, PostgreSQL calls for a row, or the loop goes on. -/
inductive Move where
  | send
  | call
  | step (fault : Option Fault)
deriving DecidableEq

namespace Scan

/-- Where the loop goes on when there was no row. -/
def afterStore : Place → Point
  | .atEntry => .poll
  | .afterPoll => .scans
  | .afterScans => .checkComplete

/-- Take a row of the active page and return it, or go on. -/
def store (s : Scan R) (place : Place) (fault : Option Fault) : Scan R :=
  match s.ingress.storeNextInto fault with
  | .error e => { s with point := .raised (.ingress e) }
  | .ok (some row, ingress) =>
    { s with ingress := ingress, returned := s.returned ++ [row], point := .idle }
  | .ok (none, ingress) =>
    { s with
      ingress := ingress
      pageLog := if s.ingress.activePage.isSome then s.pageLog ++ [.released] else s.pageLog
      point := afterStore place }

/-- `handle_primary_control`. -/
def handlePrimaryControl (s : Scan R) (fault : Option Fault) : Control → Scan R
  | .completeExecution => { s with ingress := s.ingress.markExecutionComplete }
  | .failExecution =>
    if fault = some .control then { s with point := .raised .control }
    else { s with terminalError := true }

/-- What `poll_primary_peer` does with a frame. -/
def acceptIssued (s : Scan R) (fault : Option Fault) (frame : Frame R) : Scan R :=
  match s.ingress.acceptFrame fault frame with
  | .error e => { s with point := .raised (.ingress e) }
  | .ok (.page, ingress) =>
    { s with ingress := ingress, pageLog := s.pageLog ++ [.opened], point := .checkFailure }
  | .ok (.closed, ingress) => { s with ingress := ingress }

/-- One turn of the loop of `poll_primary_peer`, which ends when the ring is empty or a page was
accepted. -/
def pollPrimaryPeer (s : Scan R) (fault : Option Fault) : Scan R :=
  match s.ring with
  | [] => { s with point := .checkFailure }
  | message :: ring =>
    if fault = some .receive then { s with point := .raised .receive }
    else
      let s := { s with ring := ring, read := s.read ++ [message] }
      match message with
      | .control message => s.handlePrimaryControl fault message
      | .issued frame => s.acceptIssued fault frame

/-- A terminal error is raised. -/
def raiseTerminal (s : Scan R) (next : Point) : Scan R :=
  if s.terminalError then { s with terminalError := false, point := .raised .workerFailed }
  else { s with point := next }

/-- One step of the loop of `exec_pg_fusion_scan`. -/
def loopStep (s : Scan R) (fault : Option Fault) : Option (Scan R) :=
  match s.point with
  | .idle => none
  | .entry => some (s.raiseTerminal (.store .atEntry))
  | .store place => some (s.store place fault)
  | .poll => some (s.pollPrimaryPeer fault)
  | .checkFailure => some (s.raiseTerminal (.store .afterPoll))
  | .scans =>
    if fault = some .scans then some { s with point := .raised .scans }
    else some { s with point := .store .afterScans }
  | .checkComplete =>
    if s.ingress.isComplete then some { s with ended := true, point := .idle }
    else some { s with point := .entry }
  | .raised _ => none

/-- One move of the worker, of PostgreSQL or of the loop. -/
def move (s : Scan R) : Move → Option (Scan R)
  | .send =>
    match s.toSend with
    | [] => none
    | message :: rest => some { s with toSend := rest, ring := s.ring ++ [message] }
  | .call => if s.point = .idle then some { s with point := .entry } else none
  | .step fault => s.loopStep fault

end Scan

end PgFusion.CustomScan

import Mathlib.Tactic
import PgFusion.Interleave.Program

/-!
The framed ring of `control_transport/src/ring.rs`, used by one producer and one consumer. A frame
is a four-byte length and a payload, and either may be split at the end of the buffer; one byte
stays free.

A copy is made one byte at a time. The fields of the ring after `kill` are history, which no program
reads.
-/

namespace PgFusion.Ring

/-! ### Index arithmetic -/

/-- `FRAME_PREFIX_LEN`. -/
def framePrefixLen : ℕ := 4

/-- `MIN_RING_CAPACITY`. -/
def minRingCapacity : ℕ := framePrefixLen + 1

/-- `u32::MAX`. -/
def u32Max : ℕ := 4294967295

/-- The sum of two `u32` values, which wraps. -/
@[irreducible] def addU32 (a b : ℕ) : ℕ := (a + b) % 4294967296

/-- `wrap_index`. -/
def wrapIndex (idx capacity : ℕ) : ℕ := if idx ≥ capacity then idx % capacity else idx

/-- `RingSnapshot`. -/
structure RingSnapshot where
  head : ℕ
  tail : ℕ
  capacity : ℕ
deriving DecidableEq

namespace RingSnapshot

/-- `RingSnapshot::is_empty`. -/
def isEmpty (s : RingSnapshot) : Bool := s.head == s.tail

/-- `RingSnapshot::used_bytes`. -/
def usedBytes (s : RingSnapshot) : ℕ :=
  if s.tail ≥ s.head then s.tail - s.head else s.capacity - (s.head - s.tail)

/-- `RingSnapshot::available_bytes`. -/
def availableBytes (s : RingSnapshot) : ℕ := s.capacity - s.usedBytes - 1

end RingSnapshot

/-- `TxError`. -/
inductive TxError where
  | payloadTooLarge (actual maximum : ℕ)
  | full (required available : ℕ)
  | corruptState (head tail capacity : ℕ)
deriving DecidableEq

/-- `RxError`. -/
inductive RxError where
  | bufferTooSmall (required available : ℕ)
  | corruptState (head tail capacity : ℕ)
  | corruptFrameLen (len available capacity : ℕ)
deriving DecidableEq

/-- `PublishPlan`. -/
structure PublishPlan where
  payloadStart : ℕ
  publishTail : ℕ
  prefixIndex : ℕ
  prefixValue : ℕ
deriving DecidableEq

/-- `ConsumePlan`. -/
structure ConsumePlan where
  len : ℕ
  payloadStart : ℕ
  nextHead : ℕ
deriving DecidableEq

/-- `build_publish_plan`. -/
def buildPublishPlan (s : RingSnapshot) (payloadLen : ℕ) : Except TxError PublishPlan :=
  let maxPayload := s.capacity - framePrefixLen - 1
  if payloadLen > maxPayload then
    .error (.payloadTooLarge payloadLen maxPayload)
  else
    let required := framePrefixLen + payloadLen
    let available := s.availableBytes
    if required > available then
      .error (.full required available)
    else
      .ok {
        prefixIndex := s.tail
        prefixValue := payloadLen
        payloadStart := wrapIndex (addU32 s.tail framePrefixLen) s.capacity
        publishTail := wrapIndex (addU32 s.tail required) s.capacity }

/-- `u32::to_ne_bytes` on a little-endian machine. -/
def u32ToBytes (value : ℕ) : List UInt8 :=
  [UInt8.ofNat value, UInt8.ofNat (value / 256), UInt8.ofNat (value / 65536),
    UInt8.ofNat (value / 16777216)]

/-- `u32::from_ne_bytes` on a little-endian machine. -/
def u32OfBytes : List UInt8 → ℕ
  | [a, b, c, d] => a.toNat + 256 * b.toNat + 65536 * c.toNat + 16777216 * d.toNat
  | _ => 0

lemma u32OfBytes_u32ToBytes {v : ℕ} (hv : v ≤ u32Max) : u32OfBytes (u32ToBytes v) = v := by
  rw [u32Max] at hv
  simp only [u32ToBytes, u32OfBytes, UInt8.toNat_ofNat']
  omega

/-- What the plan of a payload's frame holds, length first. -/
def frame (payload : List UInt8) : List UInt8 := u32ToBytes payload.length ++ payload

@[simp] lemma length_frame (payload : List UInt8) :
    (frame payload).length = framePrefixLen + payload.length := by
  rw [frame, List.length_append, u32ToBytes, framePrefixLen]
  rfl

/-! ### The shared words and their accesses -/

/-- How `kill` answers. -/
inductive KillResult where
  | delivered
  | noSuchProcess
  | failed (errno : ℕ)
deriving DecidableEq

/-- `CommitOutcome`. -/
inductive CommitOutcome where
  | notified
  | peerMissing
  | notifyFailed (errno : ℕ)
deriving DecidableEq

/-- Which of its three places a tail load is made from. -/
inductive TailLoad where
  | snapshot | afterHead | afterClear
deriving DecidableEq

/-- The accesses of a ring. The stores of the indices name the payload that they
publish or consume. -/
inductive RingOp where
  | loadHead
  | loadTail (site : TailLoad)
  | storeHead (head : ℕ) (payload : List UInt8)
  | storeTail (tail : ℕ) (payload : List UInt8)
  | loadByte (i : ℕ)
  | storeByte (i : ℕ) (b : UInt8)
  | storeReady (b : Bool)
  | loadPeerPid
  | kill (pid : ℤ)
deriving DecidableEq

/-- The shared words of a ring with its ready flag, what the system answers to a
signal, and the history. -/
structure FramedRing where
  head : ℕ
  tail : ℕ
  data : ℕ → UInt8
  ready : Bool
  peerPid : ℤ
  kill : ℤ → KillResult
  sent : List (List UInt8)
  received : List (List UInt8)
  sentBefore : List (List UInt8)
  receivedBefore : List (List UInt8)
  wrote : ℕ → Bool
  unreadAtLoad : ℕ

/-- The accesses of a ring and what they return. -/
def ringAccess : Access where
  Op := RingOp
  Res
    | .loadHead | .loadTail _ => ℕ
    | .loadByte _ => UInt8
    | .loadPeerPid => ℤ
    | .kill _ => KillResult
    | .storeHead .. | .storeTail .. | .storeByte .. | .storeReady _ => Unit

instance : DecidableEq ringAccess.Op := inferInstanceAs (DecidableEq RingOp)

/-- Process `p` has stored something. -/
def FramedRing.noteStore (p : ℕ) (x : FramedRing) : FramedRing :=
  { x with wrote := Function.update x.wrote p true }

/-- What an access by process `p` returns and does. -/
def FramedRing.exec (p : ℕ) : (op : RingOp) → FramedRing → ringAccess.Res op × FramedRing
  | .loadHead, x => (x.head, x)
  | .loadTail .snapshot, x =>
    (x.tail, if p = 1 then { x with unreadAtLoad := x.sent.length - x.received.length } else x)
  | .loadTail .afterHead, x => (x.tail, x)
  | .loadTail .afterClear, x => (x.tail, x)
  | .storeHead h payload, x =>
    ((), FramedRing.noteStore p { x with head := h, received := x.received ++ [payload] })
  | .storeTail t payload, x =>
    ((), FramedRing.noteStore p { x with tail := t, sent := x.sent ++ [payload] })
  | .loadByte i, x => (x.data i, x)
  | .storeByte i b, x => ((), FramedRing.noteStore p { x with data := Function.update x.data i b })
  | .storeReady b, x => ((), FramedRing.noteStore p { x with ready := b })
  | .loadPeerPid, x => (x.peerPid, x)
  | .kill pid, x => (x.kill pid, x)

/-! ### The operations -/

/-- One access of the ring, as a program. -/
def onRing (op : RingOp) : Prog ringAccess (ringAccess.Res op) := Prog.perform (A := ringAccess) op

def loadHead : Prog ringAccess ℕ := onRing .loadHead

def loadTail (site : TailLoad) : Prog ringAccess ℕ := onRing (.loadTail site)

def storeHead (h : ℕ) (payload : List UInt8) : Prog ringAccess Unit := onRing (.storeHead h payload)

def storeTail (t : ℕ) (payload : List UInt8) : Prog ringAccess Unit := onRing (.storeTail t payload)

def loadByte (i : ℕ) : Prog ringAccess UInt8 := onRing (.loadByte i)

def storeByte (i : ℕ) (b : UInt8) : Prog ringAccess Unit := onRing (.storeByte i b)

def storeReady (b : Bool) : Prog ringAccess Unit := onRing (.storeReady b)

def loadPeerPid : Prog ringAccess ℤ := onRing .loadPeerPid

def kill (pid : ℤ) : Prog ringAccess KillResult := onRing (.kill pid)

/-- `copy_nonoverlapping` into the buffer, from cell `dst` on. -/
def copyIn (dst : ℕ) : List UInt8 → Prog ringAccess Unit
  | [] => pure ()
  | b :: bs => do
    storeByte dst b
    copyIn (dst + 1) bs

/-- `copy_nonoverlapping` of `n` bytes out of the buffer, from cell `src` on. -/
def copyOut (src : ℕ) : ℕ → Prog ringAccess (List UInt8)
  | 0 => pure []
  | n + 1 => do
    let b ← loadByte src
    let bs ← copyOut (src + 1) n
    return b :: bs

/-- `write_bytes_wrapped`. -/
def writeBytesWrapped (start capacity : ℕ) (src : List UInt8) : Prog ringAccess Unit := do
  if src.isEmpty then
    return ()
  let first := min src.length (capacity - start)
  copyIn start (src.take first)
  if src.length > first then
    copyIn 0 (src.drop first)

/-- `write_u32_wrapped`. -/
def writeU32Wrapped (index capacity value : ℕ) : Prog ringAccess Unit :=
  writeBytesWrapped index capacity (u32ToBytes value)

/-- `read_bytes_wrapped`, into a buffer of `n` bytes. -/
def readBytesWrapped (start capacity n : ℕ) : Prog ringAccess (List UInt8) := do
  if n = 0 then
    return []
  let first := min n (capacity - start)
  let front ← copyOut start first
  if n > first then
    let back ← copyOut 0 (n - first)
    return front ++ back
  return front

/-- `read_u32_wrapped`. -/
def readU32Wrapped (index capacity : ℕ) : Prog ringAccess ℕ := do
  return u32OfBytes (← readBytesWrapped index capacity framePrefixLen)

/-- `head_tail_checked` and `head_tail_checked_rx`, which differ in the error. -/
def headTailChecked {ε : Type} (corrupt : ℕ → ℕ → ℕ → ε) (capacity : ℕ) :
    Prog ringAccess (Except ε RingSnapshot) := do
  let head ← loadHead
  let tail ← loadTail .snapshot
  if head ≥ capacity ∨ tail ≥ capacity then
    return .error (corrupt head tail capacity)
  return .ok ⟨head, tail, capacity⟩

/-- `signal_pid_usr1`. -/
def signalPidUsr1 (pid : ℤ) : Prog ringAccess (Except ℕ Bool) := do
  if pid ≤ 0 then
    return .ok false
  match ← kill pid with
  | .delivered => return .ok true
  | .noSuchProcess => return .ok false
  | .failed errno => return .error errno

/-- `signal_peer`. -/
def signalPeer : Prog ringAccess (Except ℕ Bool) := do
  signalPidUsr1 (← loadPeerPid)

/-- `build_consume_plan`. -/
def buildConsumePlan (s : RingSnapshot) (dstLen : ℕ) :
    Prog ringAccess (Except RxError ConsumePlan) := do
  let len ← readU32Wrapped s.head s.capacity
  let available := s.usedBytes
  let frameLen := framePrefixLen + len
  if frameLen > available then
    return .error (.corruptFrameLen len available s.capacity)
  if len > dstLen then
    return .error (.bufferTooSmall len dstLen)
  return .ok {
    len := len
    payloadStart := wrapIndex (addU32 s.head framePrefixLen) s.capacity
    nextHead := wrapIndex (addU32 s.head frameLen) s.capacity }

/-- `send_frame`. -/
def sendFrame (capacity : ℕ) (payload : List UInt8) :
    Prog ringAccess (Except TxError CommitOutcome) := do
  match ← headTailChecked .corruptState capacity with
  | .error e => return .error e
  | .ok snapshot =>
    match buildPublishPlan snapshot payload.length with
    | .error e => return .error e
    | .ok plan =>
      writeU32Wrapped plan.prefixIndex snapshot.capacity plan.prefixValue
      writeBytesWrapped plan.payloadStart snapshot.capacity payload
      storeTail plan.publishTail payload
      storeReady true
      match ← signalPeer with
      | .ok true => return .ok .notified
      | .ok false => return .ok .peerMissing
      | .error e => return .ok (.notifyFailed e)

/-- `update_ready_after_consume`. -/
def updateReadyAfterConsume (nextHead : ℕ) : Prog ringAccess Unit := do
  let tailAfterHead ← loadTail .afterHead
  if tailAfterHead ≠ nextHead then
    return ()
  storeReady false
  let tailAfterClear ← loadTail .afterClear
  if tailAfterClear ≠ nextHead then
    storeReady true

/-- `recv_frame_into`, with a destination of `dstLen` bytes; it answers the bytes
that it has put there. -/
def recvFrameInto (capacity dstLen : ℕ) :
    Prog ringAccess (Except RxError (Option (List UInt8))) := do
  match ← headTailChecked .corruptState capacity with
  | .error e => return .error e
  | .ok snapshot =>
    if snapshot.isEmpty then
      return .ok none
    match ← buildConsumePlan snapshot dstLen with
    | .error e => return .error e
    | .ok plan =>
      let payload ← readBytesWrapped plan.payloadStart snapshot.capacity plan.len
      storeHead plan.nextHead payload
      if plan.nextHead = snapshot.tail then
        updateReadyAfterConsume plan.nextHead
      return .ok (some payload)

/-! ### One producer and one consumer -/

/-- The ring with its history, as a machine. -/
def ringMachine : Machine ringAccess where
  Mem := FramedRing
  exec := FramedRing.exec

/-- What the last call of a process returned; a send also recalls its payload. -/
inductive RingClient where
  | fresh
  | sent (payload : List UInt8) (r : Except TxError CommitOutcome)
  | received (r : Except RxError (Option (List UInt8)))
deriving DecidableEq

/-- The calls: the producer sends payloads, the consumer receives into a buffer. -/
inductive RingCall where
  | send (payload : List UInt8)
  | recv (dstLen : ℕ)

/-- What the environment does: it changes the peer's process id, and how signals
are answered. -/
inductive RingEnv where
  | setPeer (pid : ℤ)
  | setKill (pid : ℤ) (r : KillResult)

/-- The producer, process `0`, and the consumer, process `1`. -/
def ringSystem (capacity : ℕ) : System ringMachine where
  Client := RingClient
  Call := RingCall
  Env := RingEnv
  start x p _
    | .send payload =>
      if p = 0 then
        some ({ (x : FramedRing) with
          sentBefore := (x : FramedRing).sent, wrote :=
            Function.update (x : FramedRing).wrote 0 false },
          do return .sent payload (← sendFrame capacity payload))
      else none
    | .recv dstLen =>
      if p = 1 then
        some ({ (x : FramedRing) with
          receivedBefore := (x : FramedRing).received
          wrote := Function.update (x : FramedRing).wrote 1 false },
          do return .received (← recvFrameInto capacity dstLen))
      else none
  env
    | .setPeer pid, x => some { (x : FramedRing) with peerPid := pid }
    | .setKill pid r, x =>
      some { (x : FramedRing) with kill := Function.update (x : FramedRing).kill pid r }
  live _ _ := true

/-- `init_empty_in_place`, over a buffer with any contents and beside any ready
flag. -/
def ringStart (capacity : ℕ) (data : ℕ → UInt8) (ready : Bool) (peerPid : ℤ)
    (kill : ℤ → KillResult) : Config (ringSystem capacity) where
  mem := {
    head := 0, tail := 0, data := data, ready := ready, peerPid := peerPid, kill := kill
    sent := [], received := [], sentBefore := [], receivedBefore := []
    wrote := fun _ => false, unreadAtLoad := 0 }
  thread _ := .ret .fresh

end PgFusion.Ring

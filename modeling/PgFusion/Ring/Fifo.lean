import Mathlib.Tactic
import PgFusion.Data.Circular
import PgFusion.Interleave.Outline
import PgFusion.Ring.Model

/-!
The framed ring is a queue of messages. The bytes from the head on are the frames of the pending
payloads, followed by what the producer has drafted behind the tail; both are less than a round, so
that the producer never writes a byte that the consumer may still read.

* `FifoInv`: this, in every state;
* `ring_fifo`: what is received is what was sent, in order.
-/

namespace PgFusion.Ring

/-! ### Indices in range do not overflow -/

lemma wrapIndex_eq (idx c : ℕ) : wrapIndex idx c = idx % c := by
  rw [wrapIndex]
  split
  · rfl
  · next h => exact (Nat.mod_eq_of_lt (Nat.not_le.mp h)).symm

lemma wrapIndex_addU32 {a b c : ℕ} (ha : a < c) (hb : b ≤ c) (hc : c ≤ 2 ^ 31) :
    wrapIndex (addU32 a b) c = (a + b) % c := by
  rw [wrapIndex_eq, addU32, Nat.mod_eq_of_lt (show a + b < 4294967296 by omega)]

lemma usedBytes_eq {h c used : ℕ} (hh : h < c) (hu : used < c) :
    (RingSnapshot.mk h ((h + used) % c) c).usedBytes = used := by
  rw [RingSnapshot.usedBytes]
  by_cases hlt : h + used < c
  · rw [Nat.mod_eq_of_lt hlt, if_pos (Nat.le_add_right h used)]
    exact Nat.add_sub_cancel_left h used
  · rw [Nat.mod_eq_sub_mod (by omega), Nat.mod_eq_of_lt (by omega), if_neg (by simp only; omega)]
    simp only
    omega

/-! ### The bytes of the pending payloads -/

/-- The frames of a list of payloads, one after the other. -/
def wire (payloads : List (List UInt8)) : List UInt8 := payloads.flatMap frame

@[simp] lemma wire_nil : wire [] = [] := rfl

@[simp] lemma wire_cons (payload : List UInt8) (rest : List (List UInt8)) :
    wire (payload :: rest) = frame payload ++ wire rest := rfl

lemma wire_concat (pending : List (List UInt8)) (payload : List UInt8) :
    wire (pending ++ [payload]) = wire pending ++ frame payload := by
  simp [wire]

/-- A frame is not empty, so that no bytes means no payloads. -/
lemma wire_eq_nil {pending : List (List UInt8)} : wire pending = [] ↔ pending = [] := by
  cases pending with
  | nil => simp
  | cons payload rest => simp [frame, u32ToBytes]

/-! ### The outline -/

/-- Where a process stands. The producer, after it has loaded the head `h`, knows how many bytes
were in use, and then drafts a frame behind the tail `t`; the consumer finds nothing or reads a
payload. -/
inductive RingRole where
  | entered
  | sawHead (h used : ℕ)
  | drafting (t : ℕ) (payload done : List UInt8)
  | published (payload : List UInt8)
  | atHead (h : ℕ)
  | sawNone
  | reading (h : ℕ) (payload : List UInt8)
  | consumed (payload : List UInt8)

namespace RingRole

/-- The bytes drafted behind the tail. -/
def draft : RingRole → List UInt8
  | drafting _ _ done => done
  | _ => []

/-- The bytes that the producer has room for. -/
def reserve : RingRole → ℕ
  | drafting _ payload _ => (frame payload).length
  | _ => 0

end RingRole

/-- What the producer's role says. -/
def Producer (c : ℕ) (x : FramedRing) (pending : List (List UInt8)) : RingRole → Prop
  | .entered => x.sent = x.sentBefore ∧ x.wrote 0 = false
  | .sawHead h used => x.sent = x.sentBefore ∧ x.wrote 0 = false ∧ h < c ∧ used < c ∧
      x.tail = (h + used) % c ∧ (wire pending).length ≤ used
  | .drafting t payload done => x.sent = x.sentBefore ∧ x.tail = t ∧ done <+: frame payload
  | .published payload => x.sent = x.sentBefore ++ [payload]
  | _ => False

/-- What the consumer's role says. -/
def Consumer (x : FramedRing) (pending : List (List UInt8)) : RingRole → Prop
  | .entered => x.received = x.receivedBefore ∧ x.wrote 1 = false
  | .atHead h => x.received = x.receivedBefore ∧ x.wrote 1 = false ∧ x.head = h
  | .sawNone => x.received = x.receivedBefore ∧ x.wrote 1 = false ∧ x.unreadAtLoad = 0
  | .reading h payload => x.received = x.receivedBefore ∧ x.wrote 1 = false ∧ x.head = h ∧
      ∃ rest, pending = payload :: rest
  | .consumed payload => x.received = x.receivedBefore ++ [payload]
  | _ => False

/-- The producer's role is about the words that only the producer changes, and
about what is pending. -/
lemma Producer.frame {c : ℕ} {x x' : FramedRing} {pending pending' : List (List UInt8)}
    {g : RingRole} (h : Producer c x pending g) (hsent : x'.sent = x.sent)
    (hbefore : x'.sentBefore = x.sentBefore) (hwrote : x'.wrote 0 = x.wrote 0)
    (htail : x'.tail = x.tail) (hlen : (wire pending').length ≤ (wire pending).length) :
    Producer c x' pending' g := by
  cases g with
  | sawHead k used =>
    obtain ⟨h₁, h₂, h₃, h₄, h₅, h₆⟩ := h
    exact ⟨by rw [hsent, hbefore, h₁], by rw [hwrote, h₂], h₃, h₄, by rw [htail, h₅],
      hlen.trans h₆⟩
  | entered => exact ⟨by rw [hsent, hbefore, h.1], by rw [hwrote, h.2]⟩
  | drafting t payload done => exact ⟨by rw [hsent, hbefore, h.1], by rw [htail, h.2.1], h.2.2⟩
  | published payload =>
    exact (by rw [hsent, hbefore]; exact h : x'.sent = x'.sentBefore ++ [payload])
  | atHead k => exact h
  | sawNone => exact h
  | reading k payload => exact h
  | consumed payload => exact h

/-- The consumer's role is about the words that only the consumer changes, and
about the first payload that is pending. -/
lemma Consumer.frame {x x' : FramedRing} {pending pending' : List (List UInt8)} {g : RingRole}
    (h : Consumer x pending g) (hrecv : x'.received = x.received)
    (hbefore : x'.receivedBefore = x.receivedBefore) (hwrote : x'.wrote 1 = x.wrote 1)
    (hhead : x'.head = x.head) (hunread : x'.unreadAtLoad = x.unreadAtLoad)
    (hpending : pending <+: pending') : Consumer x' pending' g := by
  cases g with
  | entered => exact ⟨by rw [hrecv, hbefore, h.1], by rw [hwrote, h.2]⟩
  | atHead k => exact ⟨by rw [hrecv, hbefore, h.1], by rw [hwrote, h.2.1], by rw [hhead, h.2.2]⟩
  | sawNone => exact ⟨by rw [hrecv, hbefore, h.1], by rw [hwrote, h.2.1], by rw [hunread, h.2.2]⟩
  | reading k payload =>
    obtain ⟨h₁, h₂, h₃, rest, rfl⟩ := h
    obtain ⟨tl, rfl⟩ := hpending
    exact ⟨by rw [hrecv, hbefore, h₁], by rw [hwrote, h₂], by rw [hhead, h₃], rest ++ tl, rfl⟩
  | consumed payload =>
    exact (by rw [hrecv, hbefore]; exact h : x'.received = x'.receivedBefore ++ [payload])
  | sawHead k used => exact h
  | drafting t payload done => exact h
  | published payload => exact h

/-- The bytes from the head on are the frames that are pending and the draft. -/
structure FifoInv (c : ℕ) (x : FramedRing) (g₀ g₁ : RingRole) (pending : List (List UInt8)) :
    Prop where
  sent : x.sent = x.received ++ pending
  head_lt : x.head < c
  tail : x.tail = (x.head + (wire pending).length) % c
  room : (wire pending).length + g₀.reserve < c
  stored : Stored c x.data x.head (wire pending ++ g₀.draft)
  producer : Producer c x pending g₀
  consumer : Consumer x pending g₁

/-- The outline of a ring of capacity `c`. -/
def fifoOutline (c : ℕ) : Outline ringMachine RingRole where
  Inv x ρ := ∃ pending, FifoInv c x (ρ 0) (ρ 1) pending
  cond := anyAccess

/-- The role in which an idle process rests. -/
def ringPost (p : ℕ) : RingClient → RingRole → Prop
  | .fresh, g => g = .entered
  | .sent payload (.ok _), g => p = 0 ∧ g = .published payload
  | .sent _ (.error _), g => p = 0 ∧ ∃ h used, g = .sawHead h used
  | .received (.ok (some payload)), g => p = 1 ∧ g = .consumed payload
  | .received (.ok none), g => p = 1 ∧ g = .sawNone
  | .received (.error _), g => p = 1 ∧ ∃ h payload, g = .reading h payload

namespace FifoInv

variable {c : ℕ} {x : FramedRing} {g₀ g₁ : RingRole} {pending : List (List UInt8)}

/-- The draft lies behind the frames that are pending, within the room. -/
lemma index_eq (h : FifoInv c x g₀ g₁ pending) (n : ℕ) :
    (x.tail + n) % c = (x.head + ((wire pending).length + n)) % c := by
  rw [h.tail, Nat.mod_add_mod, Nat.add_assoc]

/-- The tail meets the head exactly when nothing is pending. -/
lemma tail_eq_head (h : FifoInv c x g₀ g₁ pending) : x.tail = x.head ↔ pending = [] := by
  rw [h.tail]
  refine ⟨fun he => ?_, fun he => by simp [he, Nat.mod_eq_of_lt h.head_lt]⟩
  by_contra hne
  have hpos : 0 < (wire pending).length :=
    List.length_pos_iff.mpr (mt wire_eq_nil.mp hne)
  have hroom := h.room
  refine add_mod_ne (c := c) x.head (i := 0) hpos (by omega) ?_
  rw [he, Nat.add_zero, Nat.mod_eq_of_lt h.head_lt]

/-- The producer loads the head: the bytes in use then can only become fewer. -/
lemma loadHead (h : FifoInv c x .entered g₁ pending) :
    FifoInv c x (.sawHead x.head (wire pending).length) g₁ pending :=
  { h with producer := ⟨h.producer.1, h.producer.2, h.head_lt, h.room, h.tail, le_rfl⟩ }

variable {payload : List UInt8}

/-- The producer has room for a frame. -/
lemma plan {k used : ℕ} (h : FifoInv c x (.sawHead k used) g₁ pending)
    (hroom : used + (frame payload).length < c) :
    FifoInv c x (.drafting x.tail payload []) g₁ pending := by
  obtain ⟨hsent, -, -, -, -, hused⟩ := h.producer
  refine { h with room := ?_, producer := ⟨hsent, rfl, List.nil_prefix⟩ }
  rw [RingRole.reserve]
  omega

/-- The producer writes the next byte of its draft. -/
lemma storeByte {t : ℕ} {done : List UInt8} {b : UInt8}
    (h : FifoInv c x (.drafting t payload done) g₁ pending) (hb : done ++ [b] <+: frame payload) :
    FifoInv c (FramedRing.exec 0 (.storeByte ((t + done.length) % c) b) x).2
      (.drafting t payload (done ++ [b])) g₁ pending := by
  obtain ⟨hsent, rfl, -⟩ := h.producer
  refine { h with room := h.room, stored := ?_, producer := ⟨hsent, rfl, hb⟩, consumer := ?_ }
  · have hlen := hb.length_le
    have hroom := h.room
    rw [List.length_append, List.length_singleton] at hlen
    rw [RingRole.reserve] at hroom
    have hsnoc := h.stored.snoc (b := b) (by rw [List.length_append, RingRole.draft]; omega)
    rw [List.length_append, List.append_assoc, ← h.index_eq] at hsnoc
    exact hsnoc
  · exact h.consumer.frame rfl rfl rfl rfl rfl List.prefix_rfl

/-- The producer publishes its draft. -/
lemma storeTail {t : ℕ} (h : FifoInv c x (.drafting t payload (frame payload)) g₁ pending) :
    FifoInv c (FramedRing.exec 0 (.storeTail ((t + (frame payload).length) % c) payload) x).2
      (.published payload) g₁ (pending ++ [payload]) := by
  obtain ⟨hsent, rfl, -⟩ := h.producer
  refine ⟨?_, h.head_lt, ?_, ?_, ?_, ?_, ?_⟩
  · show x.sent ++ [payload] = x.received ++ (pending ++ [payload])
    rw [h.sent, List.append_assoc]
  · show (x.tail + _) % c = _
    rw [h.index_eq, wire_concat, List.length_append]
    rfl
  · rw [wire_concat, List.length_append]
    exact h.room
  · show Stored c x.data x.head (wire (pending ++ [payload]) ++ [])
    rw [wire_concat, List.append_nil]
    exact h.stored
  · show x.sent ++ [payload] = x.sentBefore ++ [payload]
    rw [hsent]
  · exact h.consumer.frame rfl rfl rfl rfl rfl (List.prefix_append _ _)

/-- What follows the publication changes neither indices nor bytes. -/
lemma afterPublish (h : FifoInv c x (.published payload) g₁ pending) (b : Bool) :
    FifoInv c (FramedRing.exec 0 (.storeReady b) x).2 (.published payload) g₁ pending :=
  { h with consumer := h.consumer.frame rfl rfl rfl rfl rfl List.prefix_rfl }

/-- The consumer reads a byte of the first frame that is pending. -/
lemma byte {k off : ℕ} (h : FifoInv c x g₀ (.reading k payload) pending)
    (hoff : off < (frame payload).length) : x.data ((k + off) % c) = (frame payload)[off] := by
  obtain ⟨-, -, rfl, rest, rfl⟩ := h.consumer
  refine h.stored.getElem? ?_
  rw [wire_cons, List.append_assoc, List.getElem?_append_left hoff]
  exact List.getElem?_eq_getElem hoff

/-- The consumer consumes the payload that it has read. -/
lemma storeHead {k : ℕ} (h : FifoInv c x g₀ (.reading k payload) pending) :
    ∃ rest, FifoInv c (FramedRing.exec 1
      (.storeHead ((k + (frame payload).length) % c) payload) x).2 g₀ (.consumed payload) rest := by
  obtain ⟨hrecv, -, rfl, rest, rfl⟩ := h.consumer
  have hroom := h.room
  rw [wire_cons, List.length_append] at hroom
  refine ⟨rest, ⟨?_, ?_, ?_, ?_, ?_, ?_, ?_⟩⟩
  · show x.sent = x.received ++ [payload] ++ rest
    rw [h.sent, List.append_assoc]
    rfl
  · exact Nat.mod_lt _ (by omega)
  · show x.tail = ((x.head + (frame payload).length) % c + (wire rest).length) % c
    rw [h.tail, wire_cons, List.length_append, Nat.mod_add_mod, Nat.add_assoc]
  · omega
  · have hstored := h.stored
    rw [wire_cons, List.append_assoc, stored_append] at hstored
    exact hstored.2.congr_mod (Nat.mod_mod _ _).symm
  · exact h.producer.frame rfl rfl rfl rfl (by rw [wire_cons, List.length_append]; omega)
  · show x.received ++ [payload] = x.receivedBefore ++ [payload]
    rw [hrecv]

/-- What follows the consumption changes neither indices nor bytes. -/
lemma afterConsume (h : FifoInv c x g₀ (.consumed payload) pending)
    (b : Bool) : FifoInv c (FramedRing.exec 1 (.storeReady b) x).2 g₀ (.consumed payload) pending :=
  { h with producer := h.producer.frame rfl rfl rfl rfl le_rfl }

/-- The producer begins a send. -/
lemma beginSend (h : FifoInv c x g₀ g₁ pending) (hdraft : g₀.draft = []) :
    FifoInv c { x with sentBefore := x.sent, wrote := Function.update x.wrote 0 false }
      .entered g₁ pending := by
  refine { h with room := ?_, stored := ?_, producer := ⟨rfl, rfl⟩, consumer := ?_ }
  · exact (Nat.le_add_right _ _).trans_lt h.room
  · have hstored := h.stored
    rwa [hdraft] at hstored
  · exact h.consumer.frame rfl rfl rfl rfl rfl List.prefix_rfl

/-- The consumer begins a receive. -/
lemma beginRecv (h : FifoInv c x g₀ g₁ pending) :
    FifoInv c { x with receivedBefore := x.received, wrote := Function.update x.wrote 1 false }
      g₀ .entered pending :=
  { h with producer := h.producer.frame rfl rfl rfl rfl le_rfl, consumer := ⟨rfl, rfl⟩ }

end FifoInv

/-- An idle process has drafted nothing. -/
lemma ringPost.draft_eq {p : ℕ} {cl : RingClient} {g : RingRole} (h : ringPost p cl g) :
    g.draft = [] := by
  rcases cl with _ | ⟨payload, e | outcome⟩ | (e | _ | payload)
  · rw [show g = .entered from h]
    rfl
  · obtain ⟨-, k, used, rfl⟩ := h
    rfl
  · rw [h.2]
    rfl
  · obtain ⟨-, k, payload, rfl⟩ := h
    rfl
  · rw [h.2]
    rfl
  · rw [h.2]
    rfl

/-! ### The operations keep the invariant -/

section Wp

variable {c : ℕ} {α : Type} {op : RingOp} {f : ringAccess.Res op → Prog ringAccess α}
  {Q : α → RingRole → Prop} {g : RingRole}

/-- An access of the producer. -/
lemma wp_producer (h : ∀ x g₁ pending, FifoInv c x g g₁ pending → ∃ r x' g' pending',
      FramedRing.exec 0 op x = (r, x') ∧ FifoInv c x' g' g₁ pending' ∧
        (fifoOutline c).wp 0 (f r) Q g') :
    (fifoOutline c).wp 0 (onRing op >>= f) Q g := by
  refine Outline.wp_step trivial fun x ρ ⟨pending, hI⟩ hp _ => ?_
  obtain ⟨r, x', g', pending', he, hI', hf⟩ := h x (ρ 1) pending (hp ▸ hI)
  exact ⟨r, x', g', he, ⟨pending', by simpa using hI'⟩, hf⟩

/-- An access of the consumer. -/
lemma wp_consumer (h : ∀ x g₀ pending, FifoInv c x g₀ g pending → ∃ r x' g' pending',
      FramedRing.exec 1 op x = (r, x') ∧ FifoInv c x' g₀ g' pending' ∧
        (fifoOutline c).wp 1 (f r) Q g') :
    (fifoOutline c).wp 1 (onRing op >>= f) Q g := by
  refine Outline.wp_step trivial fun x ρ ⟨pending, hI⟩ hp _ => ?_
  obtain ⟨r, x', g', pending', he, hI', hf⟩ := h x (ρ 0) pending (hp ▸ hI)
  exact ⟨r, x', g', he, ⟨pending', by simpa using hI'⟩, hf⟩

variable {payload : List UInt8}

/-- The draft of a frame grows by a run of bytes that does not wrap. -/
lemma wp_copyIn {t dst : ℕ} {done : List UInt8} (bs : List UInt8)
    (hdst : dst + bs.length ≤ c) (hpos : bs ≠ [] → (t + done.length) % c = dst)
    (hpre : done ++ bs <+: frame payload) :
    (fifoOutline c).wp 0 (copyIn dst bs) (fun _ g => g = .drafting t payload (done ++ bs))
      (.drafting t payload done) := by
  induction bs generalizing dst done with
  | nil => simp [copyIn]
  | cons b bs ih =>
    have happ : done ++ b :: bs = done ++ [b] ++ bs := by simp
    rw [happ] at hpre ⊢
    rw [List.length_cons] at hdst
    obtain rfl := hpos (by simp)
    refine wp_producer fun x g₁ pending hI => ⟨(), _, _, pending, rfl,
      hI.storeByte ((List.prefix_append _ _).trans hpre), ih (by omega) ?_ hpre⟩
    intro hne
    have hlen := List.length_pos_iff.mpr hne
    rw [List.length_append, List.length_singleton, ← Nat.add_assoc]
    exact succ_mod rfl (by omega)

/-- The draft of a frame grows by a run of bytes that may wrap. -/
lemma wp_writeBytesWrapped {t start : ℕ} (done src : List UInt8)
    (hc : 0 < c) (hstart : start = (t + done.length) % c) (hsrc : src.length ≤ c)
    (hpre : done ++ src <+: frame payload) :
    (fifoOutline c).wp 0 (writeBytesWrapped start c src)
      (fun _ g => g = .drafting t payload (done ++ src)) (.drafting t payload done) := by
  have hlt : start < c := hstart ▸ Nat.mod_lt _ hc
  have hsplit : src.take (min src.length (c - start)) ++ src.drop (min src.length (c - start)) =
      src := List.take_append_drop _ _
  rw [writeBytesWrapped]
  by_cases hempty : src.isEmpty
  · rw [if_pos hempty]
    obtain rfl := List.isEmpty_iff.mp hempty
    simp
  rw [if_neg hempty]
  generalize hfirst : min src.length (c - start) = first at hsplit
  have hpre' : done ++ src.take first <+: frame payload :=
    (List.prefix_append_right_inj done |>.mpr (List.take_prefix _ _)).trans hpre
  dsimp only
  refine Outline.wp_seq (wp_copyIn (src.take first) ?_ (fun _ => hstart.symm) hpre') ?_
  · rw [List.length_take]
    omega
  rintro _ _ rfl
  by_cases hmore : src.length > first
  · rw [if_pos hmore]
    have hf : first = c - start := by omega
    refine Outline.wp_mono (wp_copyIn (src.drop first) ?_ (fun _ => ?_) ?_) ?_
    · rw [List.length_drop]
      omega
    · rw [List.length_append, List.length_take, Nat.min_eq_left hmore.le, ← Nat.add_assoc, hf]
      exact add_sub_mod hstart.symm hlt
    · rw [List.append_assoc, hsplit]
      exact hpre
    · rintro _ _ rfl
      rw [List.append_assoc, hsplit]
  · rw [if_neg hmore]
    have hall : src.take first = src := List.take_of_length_le (by omega)
    simp [hall]

/-- The consumer reads a run of bytes of a frame that does not wrap. -/
lemma wp_copyOut {k : ℕ} (src off n : ℕ) (hsrc : src + n ≤ c)
    (hpos : n ≠ 0 → (k + off) % c = src) (hlen : off + n ≤ (frame payload).length) :
    (fifoOutline c).wp 1 (copyOut src n)
      (fun bs g => g = .reading k payload ∧ bs = ((frame payload).drop off).take n)
      (.reading k payload) := by
  induction n generalizing src off with
  | zero => simp [copyOut]
  | succ n ih =>
    obtain rfl := hpos (by simp)
    have hoff : off < (frame payload).length := by omega
    refine wp_consumer fun x g₀ pending hI => ⟨_, x, _, pending, rfl, hI, ?_⟩
    rw [hI.byte hoff]
    refine Outline.wp_seq (ih ((k + off) % c + 1) (off + 1) (by omega) ?_
      (by omega)) ?_
    · exact fun hn => succ_mod rfl (by omega)
    · rintro bs _ ⟨rfl, rfl⟩
      refine ⟨rfl, ?_⟩
      rw [List.drop_eq_getElem_cons hoff, List.take_succ_cons]

/-- The consumer reads a run of bytes of a frame that may wrap. -/
lemma wp_readBytesWrapped {k start : ℕ} (off n : ℕ) (hc : 0 < c)
    (hstart : start = (k + off) % c) (hn : n ≤ c) (hlen : off + n ≤ (frame payload).length) :
    (fifoOutline c).wp 1 (readBytesWrapped start c n)
      (fun bs g => g = .reading k payload ∧ bs = ((frame payload).drop off).take n)
      (.reading k payload) := by
  have hlt : start < c := hstart ▸ Nat.mod_lt _ hc
  rw [readBytesWrapped]
  by_cases hzero : n = 0
  · rw [if_pos hzero]
    subst hzero
    simp
  rw [if_neg hzero]
  generalize hfirst : min n (c - start) = first
  dsimp only
  refine Outline.wp_seq (wp_copyOut start off first (by omega) (fun _ => hstart.symm) (by omega)) ?_
  rintro _ _ ⟨rfl, rfl⟩
  by_cases hmore : n > first
  · rw [if_pos hmore]
    have hf : first = c - start := by omega
    refine Outline.wp_seq (wp_copyOut 0 (off + first) (n - first) (by omega) (fun _ => ?_)
      (by omega)) ?_
    · rw [← Nat.add_assoc, hf]
      exact add_sub_mod hstart.symm hlt
    · rintro _ _ ⟨rfl, rfl⟩
      refine ⟨rfl, ?_⟩
      rw [← List.drop_drop, ← List.take_add, Nat.add_sub_cancel' hmore.le]
  · rw [if_neg hmore]
    exact ⟨rfl, by rw [show n = first by omega]⟩

/-- Telling the peer changes nothing in the ring. -/
lemma wp_signalPeer :
    (fifoOutline c).wp 0 signalPeer (fun _ g => g = .published payload) (.published payload) := by
  refine wp_producer fun x g₁ pending hI => ⟨x.peerPid, x, _, pending, rfl, hI, ?_⟩
  rw [signalPidUsr1]
  by_cases hpid : x.peerPid ≤ 0
  · rw [if_pos hpid]
    rfl
  rw [if_neg hpid]
  refine wp_producer fun y g₁ pending hI => ⟨y.kill x.peerPid, y, _, pending, rfl, hI, ?_⟩
  cases y.kill x.peerPid <;> rfl

/-- What a plan says, for indices in range: there is one exactly when the frame
fits behind the bytes in use and leaves a byte free. -/
lemma buildPublishPlan_spec {h used n : ℕ} (hcap : c ≤ 2 ^ 31) (hh : h < c) (hu : used < c) :
    match buildPublishPlan ⟨h, (h + used) % c, c⟩ n with
    | .error e => c ≤ used + (framePrefixLen + n) ∧
        ((∃ a m, e = .payloadTooLarge a m) ∨ ∃ r a, e = .full r a)
    | .ok plan => used + (framePrefixLen + n) < c ∧ plan.prefixIndex = (h + used) % c ∧
        plan.prefixValue = n ∧ plan.payloadStart = ((h + used) % c + framePrefixLen) % c ∧
        plan.publishTail = ((h + used) % c + (framePrefixLen + n)) % c := by
  have hlt : (h + used) % c < c := Nat.mod_lt _ (by omega)
  rw [buildPublishPlan]
  simp only [RingSnapshot.availableBytes, usedBytes_eq hh hu]
  split_ifs with hlarge hfull
  · exact ⟨by omega, Or.inl ⟨_, _, rfl⟩⟩
  · exact ⟨by omega, Or.inr ⟨_, _, rfl⟩⟩
  · refine ⟨by omega, rfl, rfl, ?_, ?_⟩
    · exact wrapIndex_addU32 hlt (by omega) hcap
    · exact wrapIndex_addU32 hlt (by omega) hcap

/-- The producer's snapshot of the indices is in range, and tells it whether
there is room for the frame of its payload. -/
lemma wp_headTailChecked_producer (payload : List UInt8) :
    (fifoOutline c).wp 0 (headTailChecked TxError.corruptState c)
      (fun r g => ∃ h used, h < c ∧ used < c ∧ r = .ok ⟨h, (h + used) % c, c⟩ ∧
        g = if used + (frame payload).length < c then .drafting ((h + used) % c) payload []
          else .sawHead h used) .entered := by
  refine wp_producer fun x g₁ pending hI => ⟨x.head, x, _, pending, rfl, hI.loadHead, ?_⟩
  generalize x.head = h
  generalize (wire pending).length = used
  refine wp_producer fun x g₁ pending hI => ?_
  obtain ⟨-, -, hh, hu, htail, -⟩ := hI.producer
  have hlt : (h + used) % c < c := Nat.mod_lt _ (by omega)
  have hsnap : ¬ (h ≥ c ∨ x.tail ≥ c) := by omega
  by_cases hroom : used + (frame payload).length < c
  · refine ⟨x.tail, x, _, pending, rfl, hI.plan hroom, ?_⟩
    rw [if_neg hsnap]
    exact ⟨h, used, hh, hu, by rw [htail], by rw [if_pos hroom, htail]⟩
  · refine ⟨x.tail, x, _, pending, rfl, hI, ?_⟩
    rw [if_neg hsnap]
    exact ⟨h, used, hh, hu, by rw [htail], by rw [if_neg hroom]⟩

lemma wp_sendFrame (hcap : c ≤ 2 ^ 31) (payload : List UInt8) :
    (fifoOutline c).wp 0 (sendFrame c payload)
      (fun r g => ringPost 0 (.sent payload r) g) .entered := by
  refine Outline.wp_seq (wp_headTailChecked_producer payload) ?_
  rintro _ _ ⟨h, used, hh, hu, rfl, rfl⟩
  have hspec := buildPublishPlan_spec (n := payload.length) hcap hh hu
  rw [← length_frame] at hspec
  dsimp only
  cases hplan : buildPublishPlan ⟨h, (h + used) % c, c⟩ payload.length with
  | error e =>
    simp only [hplan] at hspec
    rw [if_neg (Nat.not_lt.mpr hspec.1)]
    exact ⟨rfl, h, used, rfl⟩
  | ok plan =>
    simp only [hplan] at hspec
    obtain ⟨hroom, hheader, hvalue, hstart, hpublish⟩ := hspec
    have hlt : (h + used) % c < c := Nat.mod_lt _ (by omega)
    have hframe : (frame payload).length = framePrefixLen + payload.length := length_frame payload
    rw [if_pos hroom]
    dsimp only
    rw [hheader, hvalue, hstart, hpublish]
    generalize (h + used) % c = t at hlt
    refine Outline.wp_seq (wp_writeBytesWrapped [] (u32ToBytes payload.length)
      (by omega) (Nat.mod_eq_of_lt hlt).symm ?_ (List.prefix_append _ _)) ?_
    · exact (Nat.le_add_right framePrefixLen payload.length).trans (by omega)
    rintro _ _ rfl
    refine Outline.wp_seq (wp_writeBytesWrapped _ payload (by omega) rfl (by omega)
      List.prefix_rfl) ?_
    rintro _ _ rfl
    refine wp_producer fun x g₁ pending hI => ⟨(), _, _, _, rfl, hI.storeTail, ?_⟩
    refine wp_producer fun x g₁ pending hI => ⟨(), _, _, _, rfl, hI.afterPublish true, ?_⟩
    refine Outline.wp_seq wp_signalPeer ?_
    rintro (e | _ | _) _ rfl <;> exact ⟨rfl, rfl⟩

/-- The consumer's snapshot of the indices is in range. It finds the ring empty,
or it finds a frame that it has room to read whole. -/
lemma wp_headTailChecked_consumer :
    (fifoOutline c).wp 1 (headTailChecked RxError.corruptState c)
      (fun r g => ∃ h used, h < c ∧ used < c ∧ r = .ok ⟨h, (h + used) % c, c⟩ ∧
        ((used = 0 ∧ g = .sawNone) ∨
          ∃ payload, (frame payload).length ≤ used ∧ g = .reading h payload)) .entered := by
  refine wp_consumer fun x g₀ pending hI => ⟨x.head, x, .atHead x.head, pending, rfl,
    { hI with consumer := ⟨hI.consumer.1, hI.consumer.2, rfl⟩ }, ?_⟩
  generalize x.head = h
  refine wp_consumer fun x g₀ pending hI => ?_
  obtain ⟨hrecv, hwrote, rfl⟩ := hI.consumer
  have hsnap : ¬ (x.head ≥ c ∨ x.tail ≥ c) := by
    have hlt := hI.head_lt
    have htail : x.tail < c := hI.tail ▸ Nat.mod_lt _ (by omega)
    omega
  have hroom := hI.room
  cases hpending : pending with
  | nil =>
    refine ⟨x.tail, _, .sawNone, pending, rfl, { hI with producer := ?_, consumer := ?_ }, ?_⟩
    · exact hI.producer.frame rfl rfl rfl rfl le_rfl
    · refine ⟨hrecv, hwrote, ?_⟩
      show x.sent.length - x.received.length = 0
      simp [hI.sent, hpending]
    · rw [if_neg hsnap]
      exact ⟨x.head, 0, hI.head_lt, by omega, by rw [hI.tail, hpending]; rfl, Or.inl ⟨rfl, rfl⟩⟩
  | cons payload rest =>
    refine ⟨x.tail, _, .reading x.head payload, pending, rfl,
      { hI with producer := ?_, consumer := ?_ }, ?_⟩
    · exact hI.producer.frame rfl rfl rfl rfl le_rfl
    · exact ⟨hrecv, hwrote, rfl, rest, hpending⟩
    · rw [if_neg hsnap]
      refine ⟨x.head, (wire pending).length, hI.head_lt, by omega, by rw [hI.tail], Or.inr
        ⟨payload, ?_, rfl⟩⟩
      rw [hpending, wire_cons, List.length_append]
      exact Nat.le_add_right _ _

/-- The plan of the consumer is the frame that is pending. -/
lemma wp_buildConsumePlan {h used : ℕ} (dstLen : ℕ) (hcap : c ≤ 2 ^ 31)
    (hh : h < c) (hu : used < c) (hframe : (frame payload).length ≤ used) :
    (fifoOutline c).wp 1 (buildConsumePlan ⟨h, (h + used) % c, c⟩ dstLen)
      (fun r g => g = .reading h payload ∧
        (r = .error (.bufferTooSmall payload.length dstLen) ∨
          r = .ok ⟨payload.length, (h + framePrefixLen) % c, (h + (frame payload).length) % c⟩))
      (.reading h payload) := by
  have hlen : (frame payload).length = framePrefixLen + payload.length := length_frame payload
  refine Outline.wp_seq (R := fun len g => g = .reading h payload ∧ len = payload.length) ?_ ?_
  · refine Outline.wp_seq (wp_readBytesWrapped 0 framePrefixLen (by omega)
      (Nat.mod_eq_of_lt hh).symm (by omega) (by omega)) ?_
    rintro _ _ ⟨rfl, rfl⟩
    refine ⟨rfl, ?_⟩
    have htake : ((frame payload).drop 0).take framePrefixLen = u32ToBytes payload.length := rfl
    rw [htake]
    exact u32OfBytes_u32ToBytes (by rw [u32Max]; omega)
  · rintro _ _ ⟨rfl, rfl⟩
    dsimp only
    rw [usedBytes_eq hh hu, if_neg (by omega)]
    by_cases hdst : payload.length > dstLen
    · rw [if_pos hdst]
      exact ⟨rfl, Or.inl rfl⟩
    · rw [if_neg hdst, wrapIndex_addU32 hh (by omega) hcap, wrapIndex_addU32 hh (by omega) hcap,
        hlen]
      exact ⟨rfl, Or.inr rfl⟩

/-- What follows the consumption changes no role. -/
lemma wp_updateReadyAfterConsume (nextHead : ℕ) :
    (fifoOutline c).wp 1 (updateReadyAfterConsume nextHead) (fun _ g => g = .consumed payload)
      (.consumed payload) := by
  refine wp_consumer fun x g₀ pending hI => ⟨x.tail, x, _, pending, rfl, hI, ?_⟩
  by_cases hne : x.tail ≠ nextHead
  · rw [if_pos hne]
    rfl
  rw [if_neg hne]
  refine wp_consumer fun x g₀ pending hI => ⟨(), _, _, pending, rfl, hI.afterConsume false, ?_⟩
  refine wp_consumer fun x g₀ pending hI => ⟨x.tail, x, _, pending, rfl, hI, ?_⟩
  by_cases hne : x.tail ≠ nextHead
  · rw [if_pos hne]
    exact Outline.wp_last (wp_consumer fun x g₀ pending hI =>
      ⟨(), _, _, pending, rfl, hI.afterConsume true, rfl⟩)
  · rw [if_neg hne]
    rfl

lemma wp_recvFrameInto (hcap : c ≤ 2 ^ 31) (dstLen : ℕ) :
    (fifoOutline c).wp 1 (recvFrameInto c dstLen)
      (fun r g => ringPost 1 (.received r) g) .entered := by
  refine Outline.wp_seq wp_headTailChecked_consumer ?_
  rintro _ _ ⟨h, used, hh, hu, rfl, ⟨rfl, rfl⟩ | ⟨payload, hframe, rfl⟩⟩
  · have hempty : (RingSnapshot.mk h ((h + 0) % c) c).isEmpty = true := by
      simp [RingSnapshot.isEmpty, Nat.mod_eq_of_lt hh]
    dsimp only
    rw [if_pos hempty]
    exact ⟨rfl, rfl⟩
  have hlen : (frame payload).length = framePrefixLen + payload.length := length_frame payload
  have hheader : framePrefixLen = 4 := rfl
  have hfull : (RingSnapshot.mk h ((h + used) % c) c).isEmpty = false := by
    have := add_mod_ne (c := c) h (i := 0) (j := used) (by omega) (by omega)
    rw [Nat.add_zero, Nat.mod_eq_of_lt hh] at this
    simpa [RingSnapshot.isEmpty] using this
  dsimp only
  rw [hfull, if_neg (by simp)]
  refine Outline.wp_seq (wp_buildConsumePlan dstLen hcap hh hu hframe) ?_
  rintro _ _ ⟨rfl, rfl | rfl⟩
  · exact ⟨rfl, h, payload, rfl⟩
  dsimp only
  refine Outline.wp_seq (wp_readBytesWrapped framePrefixLen payload.length (by omega) rfl (by omega)
    (by omega)) ?_
  rintro _ _ ⟨rfl, rfl⟩
  have hpayload : ((frame payload).drop framePrefixLen).take payload.length = payload :=
    List.take_length
  rw [hpayload]
  refine wp_consumer fun x g₀ pending hI => ?_
  obtain ⟨rest, hstore⟩ := hI.storeHead
  refine ⟨(), _, _, rest, rfl, hstore, ?_⟩
  by_cases hlast : (h + (frame payload).length) % c = (h + used) % c
  · rw [if_pos hlast]
    refine Outline.wp_seq (wp_updateReadyAfterConsume _) ?_
    rintro _ _ rfl
    exact ⟨rfl, rfl⟩
  · rw [if_neg hlast]
    exact ⟨rfl, rfl⟩

end Wp

/-! ### Every interleaving -/

/-- The calls of producer and consumer keep the outline. -/
lemma fifo_supports {c : ℕ} (hcap : c ≤ 2 ^ 31) :
    (fifoOutline c).Supports (ringSystem c) anyAccess ringPost where
  call := by
    rintro x ρ p cl call x' prog ⟨pending, hI⟩ - hpost hstart
    cases call with
    | send payload =>
      simp only [ringSystem] at hstart
      split at hstart
      · next hp =>
        subst hp
        obtain ⟨rfl, rfl⟩ := Prod.mk.inj (Option.some.inj hstart)
        exact ⟨.entered, ⟨pending, hI.beginSend hpost.draft_eq⟩,
          Outline.wp_seq (wp_sendFrame hcap payload) fun _ _ h => h⟩
      · cases hstart
    | recv dstLen =>
      simp only [ringSystem] at hstart
      split at hstart
      · next hp =>
        subst hp
        obtain ⟨rfl, rfl⟩ := Prod.mk.inj (Option.some.inj hstart)
        exact ⟨.entered, ⟨pending, hI.beginRecv⟩,
          Outline.wp_seq (wp_recvFrameInto hcap dstLen) fun _ _ h => h⟩
      · cases hstart
  env := by
    rintro x ρ e x' ⟨pending, hI⟩ henv
    cases e <;> obtain rfl := Option.some.inj henv <;> exact ⟨pending, { hI with
      producer := hI.producer.frame rfl rfl rfl rfl le_rfl
      consumer := hI.consumer.frame rfl rfl rfl rfl rfl List.prefix_rfl }⟩
  cond := fun _ h => h

/-- What the ring owes to its users: the payloads consumed are a prefix of those published, a send
that succeeds publishes its payload, a receive that succeeds consumes what it returns, and no other
call changes either list; a call that fails has stored nothing, and a receive returns nothing only
if no frame was unread when it loaded the tail. -/
structure Queued {c : ℕ} (s : Config (ringSystem c)) : Prop where
  order : s.mem.received <+: s.mem.sent
  sent_ok : ∀ payload outcome, s.thread 0 = .ret (.sent payload (.ok outcome)) →
    s.mem.sent = s.mem.sentBefore ++ [payload]
  sent_error : ∀ payload e, s.thread 0 = .ret (.sent payload (.error e)) →
    s.mem.sent = s.mem.sentBefore ∧ s.mem.wrote 0 = false
  received_some : ∀ payload, s.thread 1 = .ret (.received (.ok (some payload))) →
    s.mem.received = s.mem.receivedBefore ++ [payload]
  received_none : s.thread 1 = .ret (.received (.ok none)) →
    s.mem.received = s.mem.receivedBefore ∧ s.mem.unreadAtLoad = 0
  received_error : ∀ e, s.thread 1 = .ret (.received (.error e)) →
    s.mem.received = s.mem.receivedBefore ∧ s.mem.wrote 1 = false

/-- The invariant holds along every run. -/
lemma fifo_reach {c : ℕ} (hmin : minRingCapacity ≤ c) (hcap : c ≤ 2 ^ 31) {data : ℕ → UInt8}
    {ready : Bool} {pid : ℤ} {kill : ℤ → KillResult} {s : Config (ringSystem c)}
    (hr : Reach anyAccess (ringStart c data ready pid kill) s) :
    ∃ ρ, Outline.Holds (fifoOutline c) ringPost s ρ := by
  refine Outline.holds_reach (fifo_supports hcap) (ρ := fun _ => .entered) ⟨⟨[], ?_⟩, ?_⟩ hr
  · have hpos : 0 < c := lt_of_lt_of_le (by decide) hmin
    exact ⟨rfl, hpos, (Nat.zero_mod c).symm, hpos, trivial, ⟨rfl, rfl⟩, ⟨rfl, rfl⟩⟩
  · exact fun _ => rfl

/-- **The framed ring is a queue of messages.** For every capacity from
`MIN_RING_CAPACITY` to `2^31`, over a buffer with any contents, every
interleaving of one producer's sends with one consumer's receives delivers the
payloads in order and byte for byte. -/
theorem ring_fifo {c : ℕ} (hmin : minRingCapacity ≤ c) (hcap : c ≤ 2 ^ 31) {data : ℕ → UInt8}
    {ready : Bool} {pid : ℤ} {kill : ℤ → KillResult} {s : Config (ringSystem c)}
    (hr : Reach anyAccess (ringStart c data ready pid kill) s) : Queued s := by
  obtain ⟨ρ, ⟨pending, hI⟩, hwp⟩ := fifo_reach hmin hcap hr
  have hpost : ∀ p cl, s.thread p = .ret cl → ringPost p cl (ρ p) := by
    intro p cl hp
    have := hwp p
    rwa [hp] at this
  have hprod := hI.producer
  have hcons := hI.consumer
  refine ⟨hI.sent ▸ List.prefix_append _ _, ?_, ?_, ?_, ?_, ?_⟩
  · intro payload outcome ht
    rw [(hpost 0 _ ht).2] at hprod
    exact hprod
  · intro payload e ht
    obtain ⟨-, h, used, hg⟩ := hpost 0 _ ht
    rw [hg] at hprod
    exact ⟨hprod.1, hprod.2.1⟩
  · intro payload ht
    rw [(hpost 1 _ ht).2] at hcons
    exact hcons
  · intro ht
    rw [(hpost 1 _ ht).2] at hcons
    exact ⟨hcons.1, hcons.2.2⟩
  · intro e ht
    obtain ⟨-, h, payload, hg⟩ := hpost 1 _ ht
    rw [hg] at hcons
    exact ⟨hcons.1, hcons.2.1⟩

/-- Process `p` begins a call and makes `k` steps of it. -/
def ringCallFor {c : ℕ} (p k : ℕ) (call : RingCall) : List (Action (ringSystem c)) :=
  .call p call :: List.replicate k (.step p)

/-- On a ring of eight bytes the second send is refused until the first payload
has been received, and its frame then wraps. -/
theorem ring_fifo_eight : ∃ s : Config (ringSystem 8),
    Reach anyAccess (ringStart 8 (fun _ => 7) false 0 fun _ => .noSuchProcess) s ∧
      s.mem.received = [[1], [2]] ∧ Queued s := by
  have hrun : ((ringStart 8 (fun _ => 7) false 0 fun _ => .noSuchProcess).run (fun _ _ _ => true)
      (ringCallFor 0 10 (.send [1]) ++ ringCallFor 0 2 (.send [2]) ++ ringCallFor 1 11 (.recv 3) ++
        ringCallFor 0 10 (.send [2]) ++ ringCallFor 1 11 (.recv 3))).map
          (fun s => s.mem.received) = some [[1], [2]] := by
    decide +kernel
  obtain ⟨s, hs, hrecv⟩ := Option.map_eq_some_iff.mp hrun
  have hr : Reach anyAccess _ _ := reach_of_run (fun _ _ _ _ => trivial) hs
  exact ⟨s, hr, hrecv, ring_fifo (by decide) (by norm_num) hr⟩

end PgFusion.Ring

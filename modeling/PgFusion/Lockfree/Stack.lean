import Mathlib.Tactic
import PgFusion.Interleave.Outline
import PgFusion.Data.Linked

/-!
The fixed-size Treiber stack of `lockfree/src/lib.rs`. Every load, store and exchange is one access;
`updates` and `seen` are history, which no program reads.

A process that has read the link of the head may rely on it exactly when no head update has happened
since its head load; the tag tells it so as long as fewer than `2^32` updates did.
-/

namespace PgFusion.Lockfree

/-! ### The head word -/

/-- `TreiberStack::NONE`, `u32::MAX`: the index that ends the chain. -/
@[irreducible] def noneIdx : ℕ := 4294967295

/-- The number of values of a `u32` tag. -/
@[irreducible] def tagCount : ℕ := 4294967296

/-- The number of values of a `usize`. -/
@[irreducible] def usizeCount : ℕ := 18446744073709551616

/-- The head word, index low and tag high. -/
@[irreducible] def packHead (idx tag : ℕ) : ℕ := tag <<< 32 ||| idx

/-- The index and the tag of a head word. -/
@[irreducible] def unpackHead (word : ℕ) : ℕ × ℕ := (word &&& 0xFFFFFFFF, word >>> 32)

/-- `u32::wrapping_add(1)`. -/
@[irreducible] def wrapTag (tag : ℕ) : ℕ := if tag = tagCount - 1 then 0 else tag + 1

/-- `AtomicUsize::fetch_sub(1)`, which wraps. -/
@[irreducible] def usizeDec (n : ℕ) : ℕ := if n = 0 then usizeCount - 1 else n - 1

/-- `AtomicUsize::fetch_add(1)`, which wraps. -/
@[irreducible] def usizeInc (n : ℕ) : ℕ := if n = usizeCount - 1 then 0 else n + 1

@[simp] lemma unpackHead_packHead {idx : ℕ} (tag : ℕ) (h : idx ≤ noneIdx) :
    unpackHead (packHead idx tag) = (idx, tag) := by
  have hlt : idx < 2 ^ 32 := by rw [noneIdx] at h; omega
  have hword : packHead idx tag = tag * 2 ^ 32 + idx := by
    rw [packHead, ← Nat.shiftLeft_add_eq_or_of_lt hlt, Nat.shiftLeft_eq]
  rw [hword, unpackHead, show (0xFFFFFFFF : ℕ) = 2 ^ 32 - 1 from rfl,
    Nat.and_two_pow_sub_one_eq_mod, Nat.shiftRight_eq_div_pow]
  exact Prod.ext (by simp only; omega) (by simp only; omega)

/-- `TreiberStack::allocate` and `release` fail in two ways. -/
inductive StackError where
  | empty | full
deriving DecidableEq

/-! ### The shared words and their accesses -/

/-- The shared words of a stack, with the history of its head. -/
structure Stack where
  head : ℕ
  next : ℕ → ℕ
  len : ℕ
  capacity : ℕ
  updates : ℕ
  seen : ℕ → ℕ

/-- Which operation exchanges the head. -/
inductive HeadUpdate where
  | pop | push
deriving DecidableEq

/-- The atomic accesses of the stack. `loadLen`, `subLen` and `addLen` name the
index their operation is about. -/
inductive StackOp where
  | loadHead
  | loadNext (i : ℕ)
  | casHead (u : HeadUpdate) (cur new : ℕ)
  | subLen (idx : ℕ)
  | loadLen (val : ℕ)
  | storeNext (i v : ℕ)
  | addLen (val : ℕ)
deriving DecidableEq

/-- The accesses of the stack and what they return. -/
def stackAccess : Access where
  Op := StackOp
  Res
    | .loadHead | .loadNext _ | .loadLen _ => ℕ
    | .casHead .. => Bool
    | .subLen _ | .storeNext .. | .addLen _ => Unit

/-- What an access by process `p` returns and does. -/
def Stack.exec (p : ℕ) : (op : StackOp) → Stack → stackAccess.Res op × Stack
  | .loadHead, x => (x.head, { x with seen := Function.update x.seen p x.updates })
  | .loadNext i, x => (x.next i, x)
  | .casHead _ cur new, x =>
    if x.head = cur then (true, { x with head := new, updates := x.updates + 1 })
    else (false, x)
  | .subLen _, x => ((), { x with len := usizeDec x.len })
  | .loadLen _, x => (x.len, x)
  | .storeNext i v, x => ((), { x with next := Function.update x.next i v })
  | .addLen _, x => ((), { x with len := usizeInc x.len })

/-! ### The operations -/

/-- One access of the stack, as a program. -/
def onStack (op : StackOp) : Prog stackAccess (stackAccess.Res op) :=
  Prog.perform (A := stackAccess) op

def loadHead : Prog stackAccess ℕ := onStack .loadHead

def loadNext (i : ℕ) : Prog stackAccess ℕ := onStack (.loadNext i)

def casHead (u : HeadUpdate) (cur new : ℕ) : Prog stackAccess Bool := onStack (.casHead u cur new)

def subLen (idx : ℕ) : Prog stackAccess Unit := onStack (.subLen idx)

def loadLen (val : ℕ) : Prog stackAccess ℕ := onStack (.loadLen val)

def storeNext (i v : ℕ) : Prog stackAccess Unit := onStack (.storeNext i v)

def addLen (val : ℕ) : Prog stackAccess Unit := onStack (.addLen val)

/-- The words that `TreiberStack::init_in_place` stores: every index on the
chain, the highest first. -/
def fullStack (capacity : ℕ) : Stack where
  head := packHead (if capacity = 0 then noneIdx else capacity - 1) 0
  next := fun i => if i = 0 then noneIdx else i - 1
  len := capacity
  capacity := capacity
  updates := 0
  seen := fun _ => 0

/-- `TreiberStack::init_in_place`, which asserts that the capacity fits. -/
def initInPlace (capacity : ℕ) : Option Stack :=
  if capacity ≤ noneIdx then some (fullStack capacity) else none

/-- One round of `TreiberStack::allocate`. -/
def allocateRound : Prog stackAccess (Unit ⊕ Except StackError ℕ) := do
  let cur ← loadHead
  let idx := (unpackHead cur).1
  let tag := (unpackHead cur).2
  if idx = noneIdx then
    return .inr (.error .empty)
  let next ← loadNext idx
  if ← casHead .pop cur (packHead next (wrapTag tag)) then
    subLen idx
    return .inr (.ok idx)
  return .inl ()

/-- `TreiberStack::allocate`: pop an index. -/
def allocate : Prog stackAccess (Except StackError ℕ) :=
  .repeatFrom () fun _ => allocateRound

/-- One round of the loop of `TreiberStack::release`. -/
def releaseRound (val : ℕ) : Prog stackAccess (Unit ⊕ Except StackError Unit) := do
  let cur ← loadHead
  let idx := (unpackHead cur).1
  let tag := (unpackHead cur).2
  storeNext val idx
  if ← casHead .push cur (packHead val (wrapTag tag)) then
    addLen val
    return .inr (.ok ())
  return .inl ()

/-- `TreiberStack::release`: push an index back, unless it is out of range or the
counter says that the stack is full. -/
def release (capacity val : ℕ) : Prog stackAccess (Except StackError Unit) := do
  if val ≥ capacity then
    return .error .full
  if (← loadLen val) ≥ capacity then
    return .error .full
  .repeatFrom () fun _ => releaseRound val

/-! ### The chain, and what the operations know of it -/

/-- Where a process stands in an operation on the stack, as far as the chain is
concerned: it has loaded the head, it has also read the link of the head's node,
or it has linked its own node `v` in front of the head it loaded. -/
inductive Phase where
  | out
  | loaded (cur : ℕ)
  | peeked (cur nxt : ℕ)
  | linked (v cur : ℕ)

/-- The chain from the head is `l`, and the phases of the processes are true of
it. What a process has read of the head is current as long as no head update has
happened since. -/
structure StackInv (x : Stack) (l : List ℕ) (ph : ℕ → Phase) : Prop where
  head : x.head = packHead (l.headD noneIdx) (x.updates % tagCount)
  links : Linked noneIdx x.next l
  nodup : l.Nodup
  lt : ∀ i ∈ l, i < x.capacity
  cap : x.capacity ≤ noneIdx
  seen : ∀ p, x.seen p ≤ x.updates
  loaded : ∀ p cur, ph p = .loaded cur → (unpackHead cur).2 = x.seen p % tagCount ∧
    (x.seen p = x.updates → x.head = cur)
  peeked : ∀ p cur nxt, ph p = .peeked cur nxt → (unpackHead cur).2 = x.seen p % tagCount ∧
    (unpackHead cur).1 ≠ noneIdx ∧
    (x.seen p = x.updates → x.head = cur ∧ x.next (unpackHead cur).1 = nxt)
  linked : ∀ p v cur, ph p = .linked v cur → x.next v = (unpackHead cur).1

namespace StackInv

variable {x : Stack} {l : List ℕ} {ph : ℕ → Phase} {p : ℕ}

lemma none_notMem (h : StackInv x l ph) : noneIdx ∉ l := fun hm =>
  absurd (h.lt _ hm) (Nat.not_lt.mpr h.cap)

lemma headD_le (h : StackInv x l ph) : l.headD noneIdx ≤ noneIdx := by
  by_cases hne : l.headD noneIdx = noneIdx
  · exact hne.le
  · exact ((h.lt _ (headD_mem_of_ne hne)).le).trans h.cap

/-- The head word unpacks to the entry of the chain and the tag. -/
lemma unpack_head (h : StackInv x l ph) :
    unpackHead x.head = (l.headD noneIdx, x.updates % tagCount) := by
  rw [h.head, unpackHead_packHead _ h.headD_le]

/-- The head is the end marker exactly when the chain is empty. -/
lemma head_eq_none_iff (h : StackInv x l ph) : (unpackHead x.head).1 = noneIdx ↔ l = [] := by
  rw [h.unpack_head]
  refine ⟨fun he => ?_, fun he => by rw [he]; rfl⟩
  cases l with
  | nil => rfl
  | cons i l => exact absurd (List.mem_cons.mpr (Or.inl he.symm)) h.none_notMem

/-- Leaving an operation, or entering one, asks nothing of the chain. -/
lemma leave (h : StackInv x l ph) : StackInv x l (Function.update ph p .out) := by
  refine { h with loaded := ?_, peeked := ?_, linked := ?_ }
  · intro q cur hq
    obtain ⟨-, hq⟩ | ⟨-, hq⟩ := update_cases hq
    · cases hq
    · exact h.loaded q cur hq
  · intro q cur nxt hq
    obtain ⟨-, hq⟩ | ⟨-, hq⟩ := update_cases hq
    · cases hq
    · exact h.peeked q cur nxt hq
  · intro q v cur hq
    obtain ⟨-, hq⟩ | ⟨-, hq⟩ := update_cases hq
    · cases hq
    · exact h.linked q v cur hq

/-- The length counter is no part of the chain. -/
lemma setLen (h : StackInv x l ph) (n : ℕ) : StackInv { x with len := n } l ph := { h with }

/-- Loading the head makes what the process knows of it current. -/
lemma loadHead (h : StackInv x l ph) :
    StackInv { x with seen := Function.update x.seen p x.updates } l
      (Function.update ph p (.loaded x.head)) := by
  refine { h with seen := ?_, loaded := ?_, peeked := ?_, linked := ?_ }
  · intro q
    by_cases hq : q = p
    · subst hq
      simp
    · simpa [Function.update_of_ne hq] using h.seen q
  · intro q cur hq
    obtain ⟨rfl, he⟩ | ⟨hqp, hq⟩ := update_cases hq
    · cases he
      simp [h.unpack_head]
    · simpa [Function.update_of_ne hqp] using h.loaded q cur hq
  · intro q cur nxt hq
    obtain ⟨-, hq⟩ | ⟨hqp, hq⟩ := update_cases hq
    · cases hq
    · simpa [Function.update_of_ne hqp] using h.peeked q cur nxt hq
  · intro q v cur hq
    obtain ⟨-, hq⟩ | ⟨-, hq⟩ := update_cases hq
    · cases hq
    · exact h.linked q v cur hq

/-- Reading the link of the head's node. -/
lemma loadNext (h : StackInv x l ph) {cur : ℕ} (hp : ph p = .loaded cur)
    (hne : (unpackHead cur).1 ≠ noneIdx) :
    StackInv x l (Function.update ph p (.peeked cur (x.next (unpackHead cur).1))) := by
  refine { h with loaded := ?_, peeked := ?_, linked := ?_ }
  · intro q c hq
    obtain ⟨-, hq⟩ | ⟨-, hq⟩ := update_cases hq
    · cases hq
    · exact h.loaded q c hq
  · intro q c nxt hq
    obtain ⟨rfl, he⟩ | ⟨-, hq⟩ := update_cases hq
    · cases he
      obtain ⟨htag, hcur⟩ := h.loaded q cur hp
      exact ⟨htag, hne, fun hs => ⟨hcur hs, rfl⟩⟩
    · exact h.peeked q c nxt hq
  · intro q v c hq
    obtain ⟨-, hq⟩ | ⟨-, hq⟩ := update_cases hq
    · cases hq
    · exact h.linked q v c hq

/-- The tag after an update. -/
private lemma wrapTag_updates (n : ℕ) : wrapTag (n % tagCount) = (n + 1) % tagCount := by
  rw [wrapTag, tagCount]
  split <;> omega

/-- After a head update nothing that was loaded before is current. -/
private lemma seen_ne_updates (h : StackInv x l ph) (q : ℕ) : x.seen q ≠ x.updates + 1 := by
  have := h.seen q
  omega

/-- The head exchange of `allocate` takes the first node off the chain, provided
that the link it read is still the node's. -/
lemma pop (h : StackInv x l ph) {cur : ℕ} (hne : (unpackHead cur).1 ≠ noneIdx)
    (hhead : x.head = cur) :
    ∃ l', l = (unpackHead cur).1 :: l' ∧
      StackInv { x with
        head := packHead (x.next (unpackHead cur).1) (wrapTag (unpackHead cur).2)
        updates := x.updates + 1 } l' (Function.update ph p .out) := by
  have hun := h.unpack_head
  rw [hhead] at hun
  cases l with
  | nil => exact absurd (by rw [hun]; rfl) hne
  | cons i l' =>
    have hi : (unpackHead cur).1 = i := by rw [hun]; rfl
    refine ⟨l', by rw [hi], ?_⟩
    have hleave : StackInv x (i :: l') (Function.update ph p .out) := h.leave
    refine { hleave with
      head := ?_, links := h.links.2, nodup := h.nodup.of_cons, lt := ?_, seen := ?_,
      loaded := ?_, peeked := ?_ }
    · rw [hi, hun, wrapTag_updates, h.links.1]
    · exact fun j hj => h.lt j (List.mem_cons_of_mem _ hj)
    · exact fun q => (h.seen q).trans (Nat.le_succ _)
    · intro q c hq
      exact ⟨(hleave.loaded q c hq).1, fun hs => absurd hs (h.seen_ne_updates q)⟩
    · intro q c n hq
      obtain ⟨h₁, h₂, -⟩ := hleave.peeked q c n hq
      exact ⟨h₁, h₂, fun hs => absurd hs (h.seen_ne_updates q)⟩

/-- Linking a node off the chain in front of the head that was loaded. -/
lemma storeNext (h : StackInv x l ph) {v : ℕ} (cur : ℕ) (hv : v ∉ l)
    (hothers : ∀ q c, q ≠ p → ph q ≠ .linked v c) :
    StackInv { x with next := Function.update x.next v (unpackHead cur).1 } l
      (Function.update ph p (.linked v cur)) := by
  refine { h with
    links := (linked_update hv).mpr h.links, loaded := ?_, peeked := ?_, linked := ?_ }
  · intro q c hq
    obtain ⟨-, hq⟩ | ⟨-, hq⟩ := update_cases hq
    · cases hq
    · exact h.loaded q c hq
  · intro q c nxt hq
    obtain ⟨-, hq⟩ | ⟨-, hq⟩ := update_cases hq
    · cases hq
    · obtain ⟨htag, hne, hlink⟩ := h.peeked q c nxt hq
      refine ⟨htag, hne, fun hs => ?_⟩
      obtain ⟨hhead, hnxt⟩ := hlink hs
      -- the node whose link was read is still the head's, hence on the chain
      have hmem : (unpackHead c).1 ∈ l := by
        rw [← hhead, h.unpack_head] at hne ⊢
        exact headD_mem_of_ne hne
      have hcv : (unpackHead c).1 ≠ v := fun he => hv (he ▸ hmem)
      exact ⟨hhead, (Function.update_of_ne hcv _ _).trans hnxt⟩
  · intro q w c hq
    obtain ⟨rfl, he⟩ | ⟨hqp, hq⟩ := update_cases hq
    · cases he
      simp
    · have hwv : w ≠ v := fun he => hothers q c hqp (he ▸ hq)
      simpa [Function.update_of_ne hwv] using h.linked q w c hq

/-- The head exchange of `release` puts the linked node on the chain. A head word
that comes back does no harm here: it names the same entry. -/
lemma push (h : StackInv x l ph) {v cur : ℕ} (hp : ph p = .linked v cur) (hhead : x.head = cur)
    (hv : v ∉ l) (hlt : v < x.capacity) :
    StackInv { x with
      head := packHead v (wrapTag (unpackHead cur).2), updates := x.updates + 1 } (v :: l)
      (Function.update ph p .out) := by
  have hun := h.unpack_head
  rw [hhead] at hun
  have hlink := h.linked p v cur hp
  rw [hun] at hlink
  have hleave : StackInv x l (Function.update ph p .out) := h.leave
  refine { hleave with
    head := ?_, links := ⟨hlink, h.links⟩, nodup := List.nodup_cons.mpr ⟨hv, h.nodup⟩, lt := ?_,
    seen := ?_, loaded := ?_, peeked := ?_ }
  · rw [hun, wrapTag_updates]
    rfl
  · intro i hi
    obtain rfl | hi := List.mem_cons.mp hi
    · exact hlt
    · exact h.lt i hi
  · exact fun q => (h.seen q).trans (Nat.le_succ _)
  · intro q c hq
    exact ⟨(hleave.loaded q c hq).1, fun hs => absurd hs (h.seen_ne_updates q)⟩
  · intro q c n hq
    obtain ⟨h₁, h₂, -⟩ := hleave.peeked q c n hq
    exact ⟨h₁, h₂, fun hs => absurd hs (h.seen_ne_updates q)⟩

/-- A head word that is found unchanged after fewer than `2^32` updates has not
been updated at all, and the link that was read is still the one of its node. -/
lemma link_of_lt (h : StackInv x l ph) {cur nxt : ℕ} (hp : ph p = .peeked cur nxt)
    (hhead : x.head = cur) (hlt : x.updates - x.seen p < tagCount) :
    x.next (unpackHead cur).1 = nxt := by
  obtain ⟨htag, -, hlink⟩ := h.peeked p cur nxt hp
  refine (hlink ?_).2
  have hun := h.unpack_head
  rw [hhead] at hun
  rw [hun] at htag
  have hle := h.seen p
  rw [tagCount] at htag hlt
  simp only at htag
  omega

end StackInv

/-! ### A fresh stack -/

/-- Links that count down, as `init_in_place` stores them. -/
private lemma linked_countdown (n : ℕ) :
    Linked noneIdx (fun i => if i = 0 then noneIdx else i - 1) (List.range n).reverse := by
  induction n with
  | zero => trivial
  | succ n ih =>
    rw [List.range_succ, List.reverse_append]
    refine linked_cons.mpr ⟨?_, ih⟩
    cases n with
    | zero => rfl
    | succ n => simp [List.range_succ]

lemma initInPlace_eq_some {n : ℕ} {x : Stack} :
    initInPlace n = some x ↔ n ≤ noneIdx ∧ x = fullStack n := by
  rw [initInPlace]
  split
  · next hn => simp [hn, eq_comm]
  · next hn => simp [hn]

/-- `init_in_place` puts every index on the chain, the highest first. -/
lemma stackInv_fullStack {n : ℕ} (hn : n ≤ noneIdx) (ph : ℕ → Phase) (hph : ∀ p, ph p = .out) :
    StackInv (fullStack n) (List.range n).reverse ph := by
  refine ⟨?_, linked_countdown n, List.nodup_reverse.mpr List.nodup_range, by simp [fullStack], hn,
    fun _ => Nat.zero_le _, by simp [hph], by simp [hph], by simp [hph]⟩
  show packHead _ 0 = packHead _ (0 % tagCount)
  rw [Nat.zero_mod]
  cases n with
  | zero => rfl
  | succ n => simp [List.range_succ]

end PgFusion.Lockfree

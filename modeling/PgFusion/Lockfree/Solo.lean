import PgFusion.Data.Shares
import PgFusion.Lockfree.Stack

/-!
# A stack that one process at a time uses

A process that is not interrupted finds the head as it loaded it, so that every loop takes one
round.

* `Rests`: the chain of a stack on which no operation is in progress;
* `Rests.allocate`, `Rests.release`: an operation that runs alone pops or pushes that chain. The
  pools that are modelled under one caller at a time keep it as a list.
-/

namespace PgFusion.Lockfree

/-- The stack without a history. -/
abbrev stackMachine : Machine stackAccess := ⟨Stack, Stack.exec⟩

/-- No operation is in progress, the chain is `l`, and the counter counts it. -/
structure Rests (capacity : ℕ) (x : Stack) (l : List ℕ) : Prop where
  inv : StackInv x l fun _ => .out
  len : x.len = l.length
  capacity : x.capacity = capacity

lemma StackInv.out {x : Stack} {l : List ℕ} {ph : ℕ → Phase} (h : StackInv x l ph) :
    StackInv x l fun _ => .out :=
  { h with loaded := by simp, peeked := by simp, linked := by simp }

lemma rests_fullStack {n : ℕ} (hn : n ≤ noneIdx) : Rests n (fullStack n) (List.range n).reverse :=
  ⟨stackInv_fullStack hn _ fun _ => rfl, by simp [fullStack], rfl⟩

/-! ### The accesses of a process that is alone -/

variable {α : Type} {c v : ℕ} {x : Stack} {l : List ℕ} (p : ℕ)

lemma alone_loadHead (f : ℕ → Prog stackAccess α) : (loadHead >>= f).alone stackMachine p x =
    (f x.head).alone stackMachine p { x with seen := Function.update x.seen p x.updates } := rfl

lemma alone_loadNext (i : ℕ) (f : ℕ → Prog stackAccess α) :
    (loadNext i >>= f).alone stackMachine p x = (f (x.next i)).alone stackMachine p x := rfl

lemma alone_casHead {cur : ℕ} (h : x.head = cur) (u : HeadUpdate) (new : ℕ)
    (f : Bool → Prog stackAccess α) : (casHead u cur new >>= f).alone stackMachine p x =
      (f true).alone stackMachine p { x with head := new, updates := x.updates + 1 } := by
  have hexec : x.exec p (.casHead u cur new) =
      (true, { x with head := new, updates := x.updates + 1 }) := if_pos h
  show (f (x.exec p (.casHead u cur new)).1).alone stackMachine p
    (x.exec p (.casHead u cur new)).2 = _
  rw [hexec]

lemma alone_loadLen (f : ℕ → Prog stackAccess α) :
    (loadLen v >>= f).alone stackMachine p x = (f x.len).alone stackMachine p x := rfl

lemma alone_storeNext (i w : ℕ) (f : Unit → Prog stackAccess α) :
    (storeNext i w >>= f).alone stackMachine p x =
      (f ()).alone stackMachine p { x with next := Function.update x.next i w } := rfl

/-! ### The operations -/

/-- **An `allocate` that runs alone pops the first index.** -/
lemma Rests.allocate (h : Rests c x l) :
    ∃ x', Rests c x' l.tail ∧
      allocate.alone stackMachine p x = some (l.head?.elim (.error .empty) .ok, x') := by
  have hload := h.inv.loadHead (p := p)
  by_cases hnone : (unpackHead x.head).1 = noneIdx
  · obtain rfl := h.inv.head_eq_none_iff.mp hnone
    refine ⟨_, ⟨hload.out, h.len, h.capacity⟩, ?_⟩
    rw [Lockfree.allocate, Prog.alone_repeatFrom, allocateRound, alone_loadHead, if_pos hnone]
    rfl
  · obtain ⟨l', rfl, hpop⟩ := hload.pop (p := p) hnone rfl
    refine ⟨_, ⟨(hpop.setLen l'.length).out, rfl, h.capacity⟩, ?_⟩
    have hlen : usizeDec x.len = l'.length := by
      rw [h.len, List.length_cons, usizeDec, if_neg (Nat.succ_ne_zero _), Nat.add_sub_cancel]
    rw [Lockfree.allocate, Prog.alone_repeatFrom, allocateRound, alone_loadHead, if_neg hnone,
      alone_loadNext, alone_casHead _ (by exact rfl), ← hlen]
    rfl

/-- **A `release` that runs alone pushes an index** that is not on the stack; there is room for
it, and the counter says so. -/
lemma Rests.release (h : Rests c x l) (hlt : v < c) (hv : v ∉ l) :
    ∃ x', Rests c x' (v :: l) ∧ (release c v).alone stackMachine p x = some (.ok (), x') := by
  have hroom : l.length < c :=
    length_lt_of_notMem h.inv.nodup (fun i hi => h.capacity ▸ h.inv.lt i hi) hlt hv
  have hstore := (h.inv.loadHead (p := p)).storeNext (p := p) x.head hv
    fun q _ hq => by simp [Function.update_of_ne hq]
  have hpush := hstore.push (p := p) (Function.update_self ..) rfl hv (h.capacity ▸ hlt)
  refine ⟨_, ⟨(hpush.setLen (l.length + 1)).out, rfl, h.capacity⟩, ?_⟩
  have hlen : usizeInc x.len = l.length + 1 := by
    have hcap := h.capacity ▸ h.inv.cap
    rw [noneIdx] at hcap
    rw [h.len, usizeInc, usizeCount, if_neg (by omega)]
  rw [Lockfree.release, if_neg (by omega), alone_loadLen, if_neg (by rw [h.len]; omega),
    Prog.alone_repeatFrom, releaseRound, alone_loadHead, alone_storeNext,
    alone_casHead _ (by exact rfl), ← hlen]
  rfl

end PgFusion.Lockfree

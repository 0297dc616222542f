import Mathlib.Tactic
import PgFusion.Data.Shares
import PgFusion.Lockfree.Stack

/-!
The history of a Treiber stack, and its operations inside a larger memory. The chain from the head
and the indices in the hands of processes partition the indices, and the length counter is out of
step with the chain by the pops and pushes that are not yet counted.
* `wp_allocate`, `wp_release`: the specifications of the operations.
-/

namespace PgFusion.Lockfree

/-! ### The ledger -/

/-- A stack and the history of its calls: the number of head updates when each process began its
call, the indices each process holds (one popped but not yet returned included), the length of the
chain, the processes whose pop or push is not yet counted in `len`, and the length of the chain at
each process's last head load. -/
structure Ledger where
  stack : Stack
  callStart : ℕ → ℕ
  held : ℕ → List ℕ
  size : ℕ
  popping : Finset ℕ
  pushing : Finset ℕ
  sawSize : ℕ → ℕ

namespace Ledger

/-- The history after an access of process `p`. -/
def note (p : ℕ) (y : Ledger) : StackOp → Ledger
  | .loadHead => { y with sawSize := Function.update y.sawSize p y.size }
  | .casHead .pop cur _ =>
    if y.stack.head = cur then
      { y with
        held := Function.update y.held p ((unpackHead cur).1 :: y.held p)
        size := y.size - 1
        popping := insert p y.popping }
    else y
  | .casHead .push cur new =>
    if y.stack.head = cur then
      { y with
        held := Function.update y.held p ((y.held p).erase (unpackHead new).1)
        size := y.size + 1
        pushing := insert p y.pushing }
    else y
  | .subLen _ => { y with popping := y.popping.erase p }
  | .addLen _ => { y with pushing := y.pushing.erase p }
  | _ => y

/-- The stack's own access, and its entry in the history. -/
def exec (p : ℕ) (op : StackOp) (y : Ledger) : stackAccess.Res op × Ledger :=
  ((y.stack.exec p op).1, { y.note p op with stack := (y.stack.exec p op).2 })

/-- Process `p` begins a call. -/
def enter (p : ℕ) (y : Ledger) : Ledger :=
  { y with callStart := Function.update y.callStart p y.stack.updates }

end Ledger

/-- The stack with its history, as a machine. -/
def ledgerMachine : Machine stackAccess where
  Mem := Ledger
  exec := Ledger.exec

/-- A release that reads the length counter finds at most as many pushes not yet
counted as there are indices on the chain and pops not yet counted. -/
def Ledger.CounterInStep (y : Ledger) : StackOp → Prop
  | .loadLen _ => y.pushing.card ≤ y.size + y.popping.card
  | _ => True

instance (y : Ledger) : ∀ op, Decidable (y.CounterInStep op)
  | .loadLen _ => inferInstanceAs (Decidable (_ ≤ _))
  | .loadHead | .loadNext _ | .casHead .. | .subLen _ | .storeNext .. | .addLen _ => isTrue trivial

/-- A head exchange by which an allocation succeeds makes the link of the popped
index the head. -/
def Ledger.PopsNext (y : Ledger) : StackOp → Prop
  | .casHead .pop cur new => y.stack.head = cur →
      new = packHead (y.stack.next (unpackHead cur).1) (wrapTag (unpackHead cur).2)
  | _ => True

/-- A stack made by `initInPlace`, before any call. -/
def freshLedger (x : Stack) : Ledger where
  stack := x
  callStart := fun _ => 0
  held := fun _ => []
  size := x.capacity
  popping := ∅
  pushing := ∅
  sawSize := fun _ => 0

/-! ### The invariant -/

/-- What a process is doing with the stack: it rests, has found it empty, is
somewhere in an allocation or in the release of an index, or has an index in its
hand that it has allocated. -/
inductive StackRole where
  | rest
  | sawEmpty
  | loaded (cur : ℕ)
  | peeked (cur nxt : ℕ)
  | popped (idx : ℕ)
  | taken (idx : ℕ)
  | pushing (v : ℕ)
  | linked (v cur : ℕ)
  | pushed

namespace StackRole

/-- What the chain has to know of a role. -/
@[simp] def phase : StackRole → Phase
  | loaded cur => .loaded cur
  | peeked cur nxt => .peeked cur nxt
  | linked v cur => .linked v cur
  | _ => .out

/-- The index that a process has in its hand, popped or about to be pushed. -/
@[simp] def hand : StackRole → Option ℕ
  | popped i => some i
  | taken i => some i
  | pushing v => some v
  | linked v _ => some v
  | _ => none

/-- The process relies on what it loaded since its call began. -/
@[simp] def reads : StackRole → Bool
  | loaded _ => true
  | peeked _ _ => true
  | _ => false

/-- A pop of the process is not yet counted. -/
@[simp] def owesSub : StackRole → Bool
  | popped _ => true
  | _ => false

/-- A push of the process is not yet counted. -/
@[simp] def owesAdd : StackRole → Bool
  | pushed => true
  | _ => false

end StackRole

/-- The history is true of the role of process `p`. -/
structure Ledger.Fits (y : Ledger) (p : ℕ) (g : StackRole) : Prop where
  hand : ∀ v, g.hand = some v → v ∈ y.held p
  popping : p ∈ y.popping ↔ g.owesSub
  pushing : p ∈ y.pushing ↔ g.owesAdd
  began : y.callStart p ≤ y.stack.updates
  reads : g.reads → y.callStart p ≤ y.stack.seen p
  sawEmpty : g = .sawEmpty → y.sawSize p = 0

/-- The chain is `l`, chain and held indices partition the indices, and the
length counter is out of step by what the processes owe it. -/
structure LedgerInv (n : ℕ) (l : List ℕ) (y : Ledger) (ρ : ℕ → StackRole) : Prop where
  stack : StackInv y.stack l (StackRole.phase ∘ ρ)
  capacity : y.stack.capacity = n
  size : y.size = l.length
  shares : Shares n l y.held
  len : (y.stack.len + y.pushing.card) % usizeCount = (y.size + y.popping.card) % usizeCount
  len_lt : y.stack.len < usizeCount
  fits : ∀ p, y.Fits p (ρ p)

/-! ### The counter -/

lemma usizeDec_lt {n : ℕ} (h : n < usizeCount) : usizeDec n < usizeCount := by
  unfold usizeDec usizeCount at *
  split <;> omega

lemma usizeInc_lt {n : ℕ} (h : n < usizeCount) : usizeInc n < usizeCount := by
  unfold usizeInc usizeCount at *
  split <;> omega

/-- Counting a pop. -/
private lemma count_pop {len a b : ℕ} (h : (len + a) % usizeCount = (b + 1) % usizeCount) :
    (usizeDec len + a) % usizeCount = b % usizeCount := by
  unfold usizeDec usizeCount at *
  split <;> omega

/-- Counting a push. -/
private lemma count_push {len a b : ℕ} (h : (len + (a + 1)) % usizeCount = b % usizeCount) :
    (usizeInc len + a) % usizeCount = b % usizeCount := by
  unfold usizeInc usizeCount at *
  split <;> omega

/-- A push, not yet counted. -/
private lemma owe_push {len a s b : ℕ} (h : (len + a) % usizeCount = (s + b) % usizeCount) :
    (len + (a + 1)) % usizeCount = (s + 1 + b) % usizeCount := by
  unfold usizeCount at *
  omega

/-- The counter is what it should be when it is not in debt. -/
private lemma count_eq {len a b : ℕ} (h : (len + a) % usizeCount = b % usizeCount)
    (hlen : len < usizeCount) (hab : a ≤ b) (hb : b < usizeCount) : len + a = b := by
  unfold usizeCount at *
  omega

/-! ### What the accesses do to the invariant -/

namespace LedgerInv

variable {n : ℕ} {l : List ℕ} {y : Ledger} {ρ : ℕ → StackRole} {p : ℕ} {g : StackRole}

/-- A process goes from one role to another that asks nothing of the chain. -/
lemma setRole (h : LedgerInv n l y ρ) (hphase : g.phase = .out)
    (hhand : ∀ v, g.hand = some v → v ∈ y.held p) (hsub : g.owesSub = (ρ p).owesSub)
    (hadd : g.owesAdd = (ρ p).owesAdd) (hsaw : g = .sawEmpty → y.sawSize p = 0) :
    LedgerInv n l y (Function.update ρ p g) := by
  have hf := h.fits p
  refine { h with
    stack := by rw [Function.comp_update, hphase]; exact h.stack.leave
    fits := Function.forall_update_iff ρ _ |>.mpr ⟨?_, fun q _ => h.fits q⟩ }
  refine { hf with
    hand := hhand, popping := by rw [hf.popping, hsub], pushing := by rw [hf.pushing, hadd]
    reads := ?_, sawEmpty := hsaw }
  intro hr
  cases g <;> simp at hphase hr

/-- A process that relies on nothing it has read begins a call. -/
lemma enter (h : LedgerInv n l y ρ) (hp : (ρ p).reads = false) : LedgerInv n l (y.enter p) ρ := by
  refine { h with fits := fun q => ?_ }
  by_cases hq : q = p
  · subst hq
    exact { h.fits q with began := by simp [Ledger.enter], reads := by rw [hp]; simp }
  · exact { h.fits q with
      began := by simpa [Ledger.enter, hq] using (h.fits q).began
      reads := by simpa [Ledger.enter, hq] using (h.fits q).reads }

/-- The head load of an operation. -/
lemma loadHead (h : LedgerInv n l y ρ) (hp : ρ p = .rest ∨ ∃ v, ρ p = .pushing v) :
    LedgerInv n l { y with
      stack := { y.stack with seen := Function.update y.stack.seen p y.stack.updates }
      sawSize := Function.update y.sawSize p y.size }
      (Function.update ρ p (.loaded y.stack.head)) := by
  have hf := h.fits p
  refine { h with
    stack := by rw [Function.comp_update]; exact h.stack.loadHead
    fits := Function.forall_update_iff ρ _ |>.mpr ⟨?_, fun q hq => ?_⟩ }
  · refine { hf with
      hand := by simp, popping := ?_, pushing := ?_, reads := ?_, sawEmpty := by simp }
    · rcases hp with hp | ⟨v, hp⟩ <;> simpa [hp] using hf.popping
    · rcases hp with hp | ⟨v, hp⟩ <;> simpa [hp] using hf.pushing
    · simpa using hf.began
  · exact { h.fits q with
      reads := by simpa [hq] using (h.fits q).reads
      sawEmpty := by simpa [hq] using (h.fits q).sawEmpty }

/-- Reading the link of the head's node. -/
lemma loadNext (h : LedgerInv n l y ρ) {cur : ℕ} (hp : ρ p = .loaded cur)
    (hne : (unpackHead cur).1 ≠ noneIdx) :
    LedgerInv n l y (Function.update ρ p (.peeked cur (y.stack.next (unpackHead cur).1))) := by
  have hf := h.fits p
  rw [hp] at hf
  exact { h with
    stack := by rw [Function.comp_update]; exact h.stack.loadNext (by simp [hp]) hne
    fits := Function.forall_update_iff ρ _ |>.mpr
      ⟨{ hf with hand := by simp, sawEmpty := by simp }, fun q _ => h.fits q⟩ }

/-- The head exchange of an allocation. -/
lemma pop (h : LedgerInv n l y ρ) {cur nxt : ℕ} (hp : ρ p = .peeked cur nxt)
    (hhead : y.stack.head = cur) (hnext : packHead nxt (wrapTag (unpackHead cur).2) =
      packHead (y.stack.next (unpackHead cur).1) (wrapTag (unpackHead cur).2)) :
    ∃ l', l = (unpackHead cur).1 :: l' ∧ LedgerInv n l' { y with
      stack := { y.stack with
        head := packHead nxt (wrapTag (unpackHead cur).2), updates := y.stack.updates + 1 }
      held := Function.update y.held p ((unpackHead cur).1 :: y.held p)
      size := y.size - 1
      popping := insert p y.popping } (Function.update ρ p (.popped (unpackHead cur).1)) := by
  have hf := h.fits p
  have hph : (StackRole.phase ∘ ρ) p = .peeked cur nxt := by simp [hp]
  obtain ⟨-, hne, -⟩ := h.stack.peeked p cur nxt hph
  obtain ⟨l', rfl, hstack⟩ := h.stack.pop (p := p) hne hhead
  have hnew : p ∉ y.popping := by simp [hf.popping, hp]
  refine ⟨l', rfl, ?_⟩
  refine { h with
    stack := by rw [Function.comp_update, hnext]; exact hstack
    size := by rw [h.size]; simp
    shares := h.shares.take
    len := ?_
    fits := Function.forall_update_iff ρ _ |>.mpr ⟨?_, fun q hq => ?_⟩ }
  · have hlen := h.len
    rw [h.size, List.length_cons] at hlen
    rw [Finset.card_insert_of_notMem hnew, hlen]
    dsimp only
    rw [h.size, List.length_cons, Nat.add_sub_cancel, Nat.add_right_comm, Nat.add_assoc]
  · refine { hf with
      hand := by simp, popping := by simp, pushing := ?_
      began := hf.began.trans (Nat.le_succ _), reads := by simp, sawEmpty := by simp }
    simpa [hp] using hf.pushing
  · have hfq := h.fits q
    exact { hfq with
      hand := by simpa [hq] using hfq.hand
      popping := by simpa [hq] using hfq.popping
      began := hfq.began.trans (Nat.le_succ _) }

/-- The length counter is told of a pop. -/
lemma subLen (h : LedgerInv n l y ρ) {i : ℕ} (hp : ρ p = .popped i) :
    LedgerInv n l { y with
      stack := { y.stack with len := usizeDec y.stack.len }
      popping := y.popping.erase p } (Function.update ρ p (.taken i)) := by
  have hf := h.fits p
  have hmem : p ∈ y.popping := by simp [hf.popping, hp]
  refine { h with
    stack := by rw [Function.comp_update]; exact (h.stack.setLen _).leave
    len := ?_
    len_lt := usizeDec_lt h.len_lt
    fits := Function.forall_update_iff ρ _ |>.mpr ⟨?_, fun q hq => ?_⟩ }
  · have hlen := h.len
    rw [← Finset.card_erase_add_one hmem, ← Nat.add_assoc] at hlen
    exact count_pop hlen
  · refine { hf with
      hand := by simpa [hp] using hf.hand, popping := by simp
      pushing := ?_, reads := by simp, sawEmpty := by simp }
    simpa [hp] using hf.pushing
  · exact { h.fits q with
      popping := by simpa [hq] using (h.fits q).popping }

/-- Linking the index to be pushed in front of the head that was loaded. -/
lemma storeNext (h : LedgerInv n l y ρ) {v : ℕ} (cur : ℕ) (hp : ρ p = .pushing v) :
    LedgerInv n l { y with
      stack := { y.stack with next := Function.update y.stack.next v (unpackHead cur).1 } }
      (Function.update ρ p (.linked v cur)) := by
  have hf := h.fits p
  have hv : v ∈ y.held p := hf.hand v (by simp [hp])
  have hothers : ∀ q c, q ≠ p → (StackRole.phase ∘ ρ) q ≠ .linked v c := by
    intro q c hq hphase
    refine hq (h.shares.unique q p v ((h.fits q).hand v ?_) hv)
    revert hphase
    cases hρ : ρ q <;> simp [hρ]
    exact fun hw _ => hw
  refine { h with
    stack := by
      rw [Function.comp_update]
      exact h.stack.storeNext cur (h.shares.apart p v hv).2 hothers
    fits := Function.forall_update_iff ρ _ |>.mpr ⟨?_, fun q _ => { h.fits q with }⟩ }
  refine { hf with
    hand := by simpa using hv, popping := ?_, pushing := ?_, reads := by simp, sawEmpty := by simp }
  · simpa [hp] using hf.popping
  · simpa [hp] using hf.pushing

/-- The head exchange of a release. -/
lemma push (h : LedgerInv n l y ρ) {v cur : ℕ} (hp : ρ p = .linked v cur)
    (hhead : y.stack.head = cur) :
    LedgerInv n (v :: l) { y with
      stack := { y.stack with
        head := packHead v (wrapTag (unpackHead cur).2), updates := y.stack.updates + 1 }
      held := Function.update y.held p ((y.held p).erase v)
      size := y.size + 1
      pushing := insert p y.pushing } (Function.update ρ p .pushed) := by
  have hf := h.fits p
  have hv : v ∈ y.held p := hf.hand v (by simp [hp])
  obtain ⟨hlt, hvl⟩ := h.shares.apart p v hv
  have hph : (StackRole.phase ∘ ρ) p = .linked v cur := by simp [hp]
  have hnew : p ∉ y.pushing := by simp [hf.pushing, hp]
  have hnp : p ∉ y.popping := by simp [hf.popping, hp]
  refine { h with
    stack := by
      rw [Function.comp_update]
      exact h.stack.push hph hhead hvl (by rw [h.capacity]; exact hlt)
    size := by simp [h.size]
    shares := h.shares.give hv
    len := ?_
    fits := Function.forall_update_iff ρ _ |>.mpr ⟨?_, fun q hq => ?_⟩ }
  · rw [Finset.card_insert_of_notMem hnew]
    exact owe_push h.len
  · exact { hf with
      hand := by simp, popping := by simpa using hnp
      pushing := by simp, began := hf.began.trans (Nat.le_succ _), reads := by simp
      sawEmpty := by simp }
  · have hfq := h.fits q
    exact { hfq with
      hand := by simpa [hq] using hfq.hand
      pushing := by simpa [hq] using hfq.pushing
      began := hfq.began.trans (Nat.le_succ _) }

/-- The length counter is told of a push. -/
lemma addLen (h : LedgerInv n l y ρ) (hp : ρ p = .pushed) :
    LedgerInv n l { y with
      stack := { y.stack with len := usizeInc y.stack.len }
      pushing := y.pushing.erase p } (Function.update ρ p .rest) := by
  have hf := h.fits p
  have hmem : p ∈ y.pushing := by simp [hf.pushing, hp]
  refine { h with
    stack := by rw [Function.comp_update]; exact (h.stack.setLen _).leave
    len := ?_
    len_lt := usizeInc_lt h.len_lt
    fits := Function.forall_update_iff ρ _ |>.mpr ⟨?_, fun q hq => ?_⟩ }
  · have hlen := h.len
    rw [← Finset.card_erase_add_one hmem] at hlen
    exact count_push hlen
  · refine { hf with
      hand := by simp, popping := ?_, pushing := by simp
      reads := by simp, sawEmpty := by simp }
    simpa [hp] using hf.popping
  · exact { h.fits q with
      pushing := by simpa [hq] using (h.fits q).pushing }

/-- The counter does not turn away the release of a held index, as long as the
pushes not yet counted do not outnumber what is on the chain and about to leave
the count. -/
lemma len_lt_capacity (h : LedgerInv n l y ρ) {v : ℕ} (hp : ρ p = .pushing v)
    (hstep : y.pushing.card ≤ y.size + y.popping.card) : y.stack.len < n := by
  have hf := h.fits p
  have hv : v ∈ y.held p := hf.hand v (by simp [hp])
  have hnp : p ∉ y.popping := by simp [hf.popping, hp]
  have hcard := h.shares.length_add_card_le (insert p y.popping) (by
    intro q hq
    obtain rfl | hq := Finset.mem_insert.mp hq
    · exact List.ne_nil_of_mem hv
    · -- a pop that is not yet counted has its index in the hand
      have howes := (h.fits q).popping.mp hq
      cases hρ : ρ q <;> simp [hρ] at howes
      next i => exact List.ne_nil_of_mem ((h.fits q).hand i (by simp [hρ])))
  rw [Finset.card_insert_of_notMem hnp, ← h.size] at hcard
  have hcap := h.stack.cap
  rw [h.capacity] at hcap
  have hsmall : y.size + y.popping.card < usizeCount := by
    rw [usizeCount]
    rw [noneIdx] at hcap
    omega
  have hlen := count_eq h.len h.len_lt hstep hsmall
  omega

end LedgerInv

lemma ledgerInv_fresh {n : ℕ} (hn : n ≤ noneIdx) {ρ : ℕ → StackRole} (hρ : ∀ p, ρ p = .rest) :
    LedgerInv n (List.range n).reverse (freshLedger (fullStack n)) ρ := by
  have hmem : ∀ i, i ∈ (List.range n).reverse ↔ i < n := by simp
  refine ⟨stackInv_fullStack hn _ fun p => by simp [hρ], rfl, by simp [freshLedger, fullStack], ?_,
    ?_, ?_, ?_⟩
  · refine ⟨fun i hi => (hmem i).mp hi, List.nodup_reverse.mpr List.nodup_range, ?_, ?_, ?_, ?_⟩
    · exact fun p i hi => absurd hi List.not_mem_nil
    · exact fun p => List.nodup_nil
    · exact fun p q i hi => absurd hi List.not_mem_nil
    · exact fun i hi => Or.inl ((hmem i).mpr hi)
  · simp [freshLedger, fullStack]
  · show n < usizeCount
    rw [usizeCount]
    rw [noneIdx] at hn
    omega
  · intro p
    exact {
      hand := by simp [hρ], popping := by simp [freshLedger, hρ]
      pushing := by simp [freshLedger, hρ], began := Nat.zero_le _, reads := by simp [hρ]
      sawEmpty := by simp [hρ] }

/-! ### A stack inside a larger memory -/

/-- How a memory contains a stack with its history, and the roles of an outline
of the memory a role for the stack. -/
structure StackHost {B : Access} (N : Machine B) (G : Type) where
  part : Part stackAccess B
  ledger : N.Mem → Ledger
  put : Ledger → N.Mem → N.Mem
  role : G → StackRole
  setRole : StackRole → G → G
  ledger_put : ∀ y m, ledger (put y m) = y
  role_setRole : ∀ s g, role (setRole s g) = s
  setRole_setRole : ∀ s s' g, setRole s (setRole s' g) = setRole s g
  exec_op : ∀ p o m, ∃ r, N.exec p (part.op o) m = (r, put ((ledger m).exec p o).2 m) ∧
    part.res o r = ((ledger m).exec p o).1

/-- What an access of the stack does to what its process has in the hand and to
what the processes hold: nothing, or the process takes an index below `n` that
nobody held, or it gives the one in its hand away. -/
inductive Handover (n : ℕ) (held : ℕ → List ℕ) (p : ℕ) :
    Option ℕ → Option ℕ → (ℕ → List ℕ) → Prop where
  | stay (h : Option ℕ) : Handover n held p h h held
  | take (i : ℕ) (hi : ∀ q, i ∉ held q) (hlt : i < n) :
      Handover n held p none (some i) (Function.update held p (i :: held p))
  | give (i : ℕ) (hi : i ∈ held p) :
      Handover n held p (some i) none (Function.update held p ((held p).erase i))

variable {B : Access} {N : Machine B} {G : Type}

/-- An outline of a memory that contains a stack of `n` indices: its invariant
contains that of the stack and is kept by what the stack's accesses do, and its
condition makes a pop find the link it read and a release the counter in step. -/
structure Hosts (H : StackHost N G) (n : ℕ) (Λ : Outline N G) : Prop where
  ledger : ∀ {m ρ}, Λ.Inv m ρ → ∃ l, LedgerInv n l (H.ledger m) (H.role ∘ ρ)
  hand : ∀ {m ρ p s y}, Λ.Inv m ρ →
    (∃ l, LedgerInv n l y (Function.update (H.role ∘ ρ) p s)) →
    Handover n (H.ledger m).held p (H.role (ρ p)).hand s.hand y.held →
    Λ.Inv (H.put y m) (Function.update ρ p (H.setRole s (ρ p)))
  pops : ∀ {m ρ p cur nxt}, Λ.Inv m ρ → H.role (ρ p) = .peeked cur nxt →
    Λ.cond p (H.part.op (.casHead .pop cur (packHead nxt (wrapTag (unpackHead cur).2)))) m →
    (H.ledger m).PopsNext (.casHead .pop cur (packHead nxt (wrapTag (unpackHead cur).2)))
  counts : ∀ {m p v}, Λ.cond p (H.part.op (.loadLen v)) m → (H.ledger m).CounterInStep (.loadLen v)
  permits : ∀ g o, Λ.permits g o

/-- The role in which an allocation returns. -/
def allocated : Except StackError ℕ → StackRole
  | .ok i => .taken i
  | .error _ => .sawEmpty

/-- A head exchange that finds another word does nothing. -/
lemma exec_casHead_of_ne {p : ℕ} {u : HeadUpdate} {cur new : ℕ} {y : Ledger}
    (h : y.stack.head ≠ cur) : y.exec p (.casHead u cur new) = (false, y) := by
  cases u <;> simp [Ledger.exec, Stack.exec, Ledger.note, h] <;> rfl

/-- The head exchange by which an allocation succeeds. -/
lemma exec_casHead_pop {p cur new : ℕ} {y : Ledger} (h : y.stack.head = cur) :
    y.exec p (.casHead .pop cur new) = (true, { y with
      stack := { y.stack with head := new, updates := y.stack.updates + 1 }
      held := Function.update y.held p ((unpackHead cur).1 :: y.held p)
      size := y.size - 1
      popping := insert p y.popping }) := by
  simp [Ledger.exec, Stack.exec, Ledger.note, h]
  rfl

/-- The head exchange by which a release succeeds. -/
lemma exec_casHead_push {p v cur tag : ℕ} {y : Ledger} (hv : v ≤ noneIdx) (h : y.stack.head = cur) :
    y.exec p (.casHead .push cur (packHead v tag)) = (true, { y with
      stack := { y.stack with head := packHead v tag, updates := y.stack.updates + 1 }
      held := Function.update y.held p ((y.held p).erase v)
      size := y.size + 1
      pushing := insert p y.pushing }) := by
  simp [Ledger.exec, Stack.exec, Ledger.note, h, hv]
  rfl

namespace Hosts

variable {H : StackHost N G} {n : ℕ} {Λ : Outline N G} {p : ℕ} {α : Type}

/-- The rule for an access of the stack: what it does to the stack's invariant,
to the role of the process and to the hands. -/
lemma wp_step (hH : Hosts H n Λ) {o : StackOp} {f : stackAccess.Res o → Prog stackAccess α}
    {Q : α → G → Prop} {g : G}
    (h : ∀ m ρ l, Λ.Inv m ρ → LedgerInv n l (H.ledger m) (H.role ∘ ρ) → ρ p = g →
      Λ.cond p (H.part.op o) m → ∃ r y s, (H.ledger m).exec p o = (r, y) ∧
        (∃ l', LedgerInv n l' y (Function.update (H.role ∘ ρ) p s)) ∧
        Handover n (H.ledger m).held p (H.role g).hand s.hand y.held ∧
        Λ.wp p ((f r).within H.part) Q (H.setRole s g)) :
    Λ.wp p ((Prog.perform (A := stackAccess) o >>= f).within H.part) Q g := by
  refine ⟨hH.permits _ _, fun m ρ hI hg hc => ?_⟩
  obtain ⟨l, hl⟩ := hH.ledger hI
  obtain ⟨r, y, s, hexec, hl', hhand, hwp⟩ := h m ρ l hI hl hg hc
  obtain ⟨r', hN, hr'⟩ := H.exec_op p o m
  rw [hexec] at hN hr'
  rw [hN]
  subst hg
  refine ⟨H.setRole s (ρ p), hH.hand hI hl' hhand, ?_⟩
  show Λ.wp p ((f (H.part.res o r')).within H.part) Q _
  rwa [show H.part.res o r' = r from hr']

/-- **The specification of `allocate`.** It returns with an index in the hand, or
having found the chain empty. -/
theorem wp_allocate (hH : Hosts H n Λ) {g : G} (hg : H.role g = .rest) :
    Λ.wp p (allocate.within H.part) (fun r g' => g' = H.setRole (allocated r) g) g := by
  refine Outline.wp_repeat (fun _ g' => H.role g' = .rest ∧ ∀ s, H.setRole s g' = H.setRole s g)
    (fun _ _ _ => hH.permits _ _) ⟨hg, fun _ => rfl⟩ ?_
  rintro _ g' ⟨hrest, hset⟩
  refine hH.wp_step fun m ρ l hI hl hp _ => ?_
  have hload := hl.loadHead (p := p) (Or.inl (by simp [hp, hrest]))
  by_cases hne : (unpackHead (H.ledger m).stack.head).1 = noneIdx
  · -- the chain is empty
    have hnil := hl.stack.head_eq_none_iff.mp hne
    refine ⟨(H.ledger m).stack.head, _, .sawEmpty, rfl, ⟨l, ?_⟩, ?_, ?_⟩
    · have hsaw := hload.setRole (p := p) (g := .sawEmpty) rfl (by simp) (by simp) (by simp)
        (by simp [hl.size, hnil])
      rwa [Function.update_idem] at hsaw
    · rw [hrest]
      exact .stay none
    · simp only [if_pos hne]
      exact hset _
  refine ⟨(H.ledger m).stack.head, _, .loaded (H.ledger m).stack.head, rfl, ⟨l, hload⟩, ?_, ?_⟩
  · rw [hrest]
    exact .stay none
  generalize (H.ledger m).stack.head = cur at hne
  simp only [if_neg hne]
  refine hH.wp_step fun m ρ l hI hl hp _ => ?_
  have hloaded : H.role (ρ p) = .loaded cur := by simp [hp, H.role_setRole]
  refine ⟨(H.ledger m).stack.next (unpackHead cur).1, H.ledger m,
    .peeked cur ((H.ledger m).stack.next (unpackHead cur).1), rfl, ⟨l, hl.loadNext hloaded hne⟩,
    ?_, ?_⟩
  · rw [H.role_setRole]
    exact .stay none
  rw [H.setRole_setRole]
  generalize (H.ledger m).stack.next (unpackHead cur).1 = nxt
  refine hH.wp_step fun m ρ l hI hl hp hc => ?_
  have hpeeked : H.role (ρ p) = .peeked cur nxt := by simp [hp, H.role_setRole]
  by_cases hhead : (H.ledger m).stack.head = cur
  · obtain ⟨l', rfl, hpop⟩ := hl.pop hpeeked hhead (hH.pops hI hpeeked hc hhead)
    refine ⟨true, _, .popped (unpackHead cur).1, exec_casHead_pop hhead, ⟨l', hpop⟩, ?_, ?_⟩
    · rw [H.role_setRole]
      exact .take _ (fun q hq => (hl.shares.apart q _ hq).2 List.mem_cons_self)
        (hl.shares.lt _ List.mem_cons_self)
    · simp only [if_true]
      rw [H.setRole_setRole]
      refine hH.wp_step fun m ρ l hI hl hp _ => ?_
      have hpopped : H.role (ρ p) = .popped (unpackHead cur).1 := by simp [hp, H.role_setRole]
      refine ⟨(), _, .taken (unpackHead cur).1, rfl, ⟨l, hl.subLen hpopped⟩, ?_, ?_⟩
      · rw [H.role_setRole]
        exact .stay _
      · rw [H.setRole_setRole]
        exact hset _
  · refine ⟨false, H.ledger m, .rest, exec_casHead_of_ne hhead, ⟨l, ?_⟩, ?_, ?_⟩
    · exact hl.setRole rfl (by simp) (by simp [hpeeked]) (by simp [hpeeked]) (by simp)
    · rw [H.role_setRole]
      exact .stay none
    · rw [H.setRole_setRole]
      exact ⟨H.role_setRole _ _, fun s => by rw [H.setRole_setRole, hset]⟩

/-- **The specification of `release`.** It puts the index in the hand back on the
chain. -/
theorem wp_release (hH : Hosts H n Λ) {v : ℕ} (hv : v < n) {g : G} (hg : H.role g = .pushing v) :
    Λ.wp p ((release n v).within H.part) (fun r g' => r = .ok () ∧ g' = H.setRole .rest g) g := by
  rw [release]
  simp only [if_neg (Nat.not_le.mpr hv), Prog.pure_eq]
  refine hH.wp_step fun m ρ l hI hl hp hc => ?_
  have hpushing : H.role (ρ p) = .pushing v := by simp [hp, hg]
  have hlen := hl.len_lt_capacity hpushing (hH.counts hc)
  refine ⟨(H.ledger m).stack.len, H.ledger m, .pushing v, rfl, ⟨l, ?_⟩, ?_, ?_⟩
  · rw [← hpushing]
    exact (Function.update_eq_self p (H.role ∘ ρ)).symm ▸ hl
  · rw [hg]
    exact .stay _
  simp only [if_neg (Nat.not_le.mpr hlen)]
  refine Outline.wp_repeat
    (fun _ g' => H.role g' = .pushing v ∧ ∀ s, H.setRole s g' = H.setRole s g)
    (fun _ _ _ => hH.permits _ _) ⟨H.role_setRole _ _, fun s => H.setRole_setRole _ _ _⟩ ?_
  clear hlen hc hI hl hp hpushing
  rintro _ g' ⟨hpush, hset⟩
  refine hH.wp_step fun m ρ l hI hl hp _ => ?_
  have hpushing : H.role (ρ p) = .pushing v := by simp [hp, hpush]
  refine ⟨(H.ledger m).stack.head, _, .pushing v, rfl, ⟨l, ?_⟩, ?_, ?_⟩
  · -- a release keeps nothing but the head word it has loaded
    have hload := (hl.loadHead (Or.inr ⟨v, hpushing⟩)).setRole (p := p) (g := .pushing v) rfl
      (by simpa using (hl.fits p).hand v (by simp [hpushing])) (by simp) (by simp) (by simp)
    rwa [Function.update_idem] at hload
  · rw [hpush]
    exact .stay _
  generalize (H.ledger m).stack.head = cur
  dsimp only
  refine hH.wp_step fun m ρ l hI hl hp _ => ?_
  have hpushing : H.role (ρ p) = .pushing v := by simp [hp, H.role_setRole]
  refine ⟨(), _, .linked v cur, rfl, ⟨l, hl.storeNext cur hpushing⟩, ?_, ?_⟩
  · rw [H.role_setRole]
    exact .stay _
  rw [H.setRole_setRole]
  refine hH.wp_step fun m ρ l hI hl hp _ => ?_
  have hlinked : H.role (ρ p) = .linked v cur := by simp [hp, H.role_setRole]
  have hheld : v ∈ (H.ledger m).held p := (hl.fits p).hand v (by simp [hlinked])
  have hle : v ≤ noneIdx := hv.le.trans (hl.capacity ▸ hl.stack.cap)
  by_cases hhead : (H.ledger m).stack.head = cur
  · refine ⟨true, _, .pushed, exec_casHead_push hle hhead, ⟨v :: l, hl.push hlinked hhead⟩, ?_, ?_⟩
    · rw [H.role_setRole]
      exact .give v hheld
    · simp only [if_true]
      rw [H.setRole_setRole]
      refine hH.wp_step fun m ρ l hI hl hp _ => ?_
      have hpushed : H.role (ρ p) = .pushed := by simp [hp, H.role_setRole]
      refine ⟨(), _, .rest, rfl, ⟨l, hl.addLen hpushed⟩, ?_, rfl, ?_⟩
      · rw [H.role_setRole]
        exact .stay _
      · rw [H.setRole_setRole]
        exact hset _
  · refine ⟨false, H.ledger m, .pushing v, exec_casHead_of_ne hhead, ⟨l, ?_⟩, ?_, ?_⟩
    · exact hl.setRole rfl (by simpa using hheld) (by simp [hlinked]) (by simp [hlinked]) (by simp)
    · rw [H.role_setRole]
      exact .stay _
    · rw [H.setRole_setRole]
      exact ⟨H.role_setRole _ _, fun s => by rw [H.setRole_setRole, hset]⟩

end Hosts

end PgFusion.Lockfree

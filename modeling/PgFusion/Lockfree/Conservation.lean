import Mathlib.Tactic
import PgFusion.Lockfree.Ledger

/-!
Conservation of the indices of a Treiber stack (`treiber_conservation`). A release is refused only
by the length counter, which is updated after the head: a pop that overtakes the increment of the
push it undoes wraps the counter below zero, and a release that reads it then is refused for no
reason (`full_of_lagging_counter`).
-/

namespace PgFusion.Lockfree

/-! ### The system -/

/-- What the last call of a process returned. -/
inductive StackClient where
  | fresh
  | allocated (r : Except StackError ℕ)
  | released (r : Except StackError Unit)
deriving DecidableEq

/-- The calls of a process. -/
inductive StackCall where
  | allocate
  | release (val : ℕ)

/-- Processes that allocate, and release what they hold. -/
def stackSystem : System ledgerMachine where
  Client := StackClient
  Call := StackCall
  Env := Empty
  start y p _
    | .allocate => some (Ledger.enter p y, do return .allocated (← allocate))
    | .release val =>
      if val ∈ Ledger.held y p then
        some (Ledger.enter p y, do return .released (← release (Ledger.stack y).capacity val))
      else none
  env e := e.elim
  live _ _ := true

instance : DecidableEq stackSystem.Client := inferInstanceAs (DecidableEq StackClient)

/-- A stack made by `initInPlace`, before any call. -/
def stackStart (x : Stack) : Config stackSystem where
  mem := freshLedger x
  thread _ := .ret .fresh

/-- Fewer than `2^32` head updates have happened since process `p` began its
call. -/
def Ledger.TagsFresh (p : ℕ) (y : Ledger) : Prop :=
  y.stack.updates - y.callStart p < tagCount

instance (p : ℕ) (y : Ledger) : Decidable (y.TagsFresh p) :=
  inferInstanceAs (Decidable (_ < _))

/-- The condition on the accesses of a run. -/
def inStep (p : ℕ) (op : StackOp) (y : Ledger) : Prop :=
  y.TagsFresh p ∧ y.CounterInStep op

instance (p : ℕ) (op : StackOp) (y : Ledger) : Decidable (inStep p op y) :=
  inferInstanceAs (Decidable (_ ∧ _))

/-- What conservation says of a configuration: the chain from the head is a
finite list without repetitions, chain and held indices partition the indices
below the capacity, no release has been refused, and an allocation that reported
an empty stack had found one. -/
structure Conserved (capacity : ℕ) (c : Config stackSystem) : Prop where
  chain : ∃ l : List ℕ, (unpackHead c.mem.stack.head).1 = l.headD noneIdx ∧
    Linked noneIdx c.mem.stack.next l ∧ l.Nodup ∧ c.mem.size = l.length ∧
    (∀ i, i < capacity ↔ i ∈ l ∨ ∃ p, i ∈ c.mem.held p) ∧
    (∀ i ∈ l, ∀ p, i ∉ c.mem.held p)
  held_nodup : ∀ p, (c.mem.held p).Nodup
  held_unique : ∀ p q i, i ∈ c.mem.held p → i ∈ c.mem.held q → p = q
  never_full : ∀ p, c.thread p ≠ .ret (.released (.error .full))
  empty : ∀ p, c.thread p = .ret (.allocated (.error .empty)) → c.mem.sawSize p = 0

/-! ### The outline -/

/-- The stack as the whole of its memory. -/
def ledgerHost : StackHost ledgerMachine StackRole where
  part := .whole stackAccess
  ledger y := y
  put y _ := y
  role g := g
  setRole s _ := s
  ledger_put _ _ := rfl
  role_setRole _ _ := rfl
  setRole_setRole _ _ _ := rfl
  exec_op _ _ _ := ⟨_, rfl, rfl⟩

/-- The outline of a stack with `n` indices. -/
def ledgerOutline (n : ℕ) : Outline ledgerMachine StackRole where
  Inv y ρ := ∃ l, LedgerInv n l y ρ
  cond := inStep

/-- A pop of a call that sees fewer than `2^32` head updates finds the link it
read. -/
lemma popsNext_of_tagsFresh {n : ℕ} {l : List ℕ} {y : Ledger} {ρ : ℕ → StackRole} {p cur nxt : ℕ}
    (h : LedgerInv n l y ρ) (hp : ρ p = .peeked cur nxt) (hfresh : y.TagsFresh p) :
    y.PopsNext (.casHead .pop cur (packHead nxt (wrapTag (unpackHead cur).2))) := by
  intro hhead
  have hph : (StackRole.phase ∘ ρ) p = .peeked cur nxt := by simp [hp]
  have hreads := (h.fits p).reads (by simp [hp])
  rw [Ledger.TagsFresh] at hfresh
  rw [h.stack.link_of_lt hph hhead (by omega)]

lemma ledger_hosts (n : ℕ) : Hosts ledgerHost n (ledgerOutline n) where
  ledger h := h
  hand _ h _ := h
  pops := by
    rintro y ρ p cur nxt ⟨l, h⟩ hp hc
    exact popsNext_of_tagsFresh h hp hc.1
  counts hc := hc.2
  permits _ _ := trivial

/-- The role of an idle process. -/
def StackClient.role : StackClient → StackRole
  | .allocated r => Lockfree.allocated r
  | _ => .rest

/-- What an idle process has returned with. -/
def stackPost (_ : ℕ) (cl : StackClient) (g : StackRole) : Prop :=
  g = cl.role ∧ cl ≠ .released (.error .full)

lemma StackClient.role_quiet (cl : StackClient) :
    cl.role.reads = false ∧ cl.role.owesSub = false ∧ cl.role.owesAdd = false := by
  rcases cl with _ | (_ | _) | _ <;> simp [StackClient.role, Lockfree.allocated]

/-- The calls of processes keep the outline. -/
lemma ledger_supports (n : ℕ) :
    (ledgerOutline n).Supports stackSystem inStep stackPost where
  call := by
    rintro y ρ p cl c y' x ⟨l, hI⟩ - ⟨hrole, -⟩ hstart
    obtain ⟨hreads, hsub, hadd⟩ := cl.role_quiet
    rw [← hrole] at hreads hsub hadd
    have henter := hI.enter hreads
    cases c with
    | allocate =>
      obtain ⟨rfl, rfl⟩ := Prod.mk.inj (Option.some.inj hstart)
      refine ⟨.rest, ⟨l, henter.setRole rfl (by simp) hsub.symm hadd.symm (by simp)⟩,
        ?_⟩
      have hwp := (ledger_hosts n).wp_allocate (p := p) (g := .rest) rfl
      rw [show ledgerHost.part = .whole stackAccess from rfl, Prog.within_whole] at hwp
      exact Outline.wp_seq hwp fun r g hg => ⟨hg, by simp⟩
    | release v =>
      simp only [stackSystem] at hstart
      split at hstart
      · next hv =>
        obtain ⟨rfl, rfl⟩ := Prod.mk.inj (Option.some.inj hstart)
        refine ⟨.pushing v, ⟨l, henter.setRole rfl ?_ hsub.symm hadd.symm (by simp)⟩,
          ?_⟩
        · simpa [Ledger.enter] using hv
        · rw [hI.capacity]
          have hwp := (ledger_hosts n).wp_release (p := p) (hI.shares.apart p v hv).1
            (g := .pushing v) rfl
          rw [show ledgerHost.part = .whole stackAccess from rfl, Prog.within_whole] at hwp
          refine Outline.wp_seq hwp ?_
          rintro r g ⟨rfl, rfl⟩
          exact ⟨rfl, by simp⟩
      · cases hstart
  env := fun {_ _ e} => e.elim
  cond := fun _ h => h

/-- **Conservation of the indices.** In every run of calls that each see fewer
than `2^32` head updates, and in which no release reads the counter while it is
in debt, the chain and the held indices partition the indices below the
capacity, no release is refused, and an allocation reports an empty stack only
if its head load found one. -/
theorem treiber_conservation {capacity : ℕ} {x : Stack} (hx : initInPlace capacity = some x)
    {c : Config stackSystem} (hr : Reach inStep (stackStart x) c) : Conserved capacity c := by
  obtain ⟨hn, rfl⟩ := initInPlace_eq_some.mp hx
  have hstart : Outline.Holds (ledgerOutline capacity) stackPost
      (stackStart (fullStack capacity)) fun _ => .rest :=
    ⟨⟨_, ledgerInv_fresh hn fun _ => rfl⟩, fun _ => ⟨rfl, by simp⟩⟩
  obtain ⟨ρ, ⟨l, hI⟩, hwp⟩ := Outline.holds_reach (ledger_supports capacity) hstart hr
  have hpost : ∀ p cl, c.thread p = .ret cl → stackPost p cl (ρ p) := by
    intro p cl hp
    have := hwp p
    rwa [hp] at this
  refine ⟨⟨l, ?_, hI.stack.links, hI.shares.nodup, hI.size, ?_, ?_⟩, hI.shares.held_nodup,
    hI.shares.unique, ?_, ?_⟩
  · rw [hI.stack.unpack_head]
  · refine fun i => ⟨hI.shares.cover i, ?_⟩
    rintro (hi | ⟨p, hi⟩)
    · exact hI.shares.lt i hi
    · exact (hI.shares.apart p i hi).1
  · exact fun i hi p hp => (hI.shares.apart p i hp).2 hi
  · exact fun p hp => (hpost p _ hp).2 rfl
  · exact fun p hp => (hI.fits p).sawEmpty (hpost p _ hp).1

/-! ### Runs on small stacks -/

/-- Process `p` begins a call and makes `k` steps of it. -/
def callFor (p k : ℕ) (call : StackCall) : List (Action stackSystem) :=
  .call p call :: List.replicate k (.step p)

/-- Process `0` allocates and releases the index `1` of a stack of two, and
process `1` allocates the other index meanwhile. -/
theorem treiber_conservation_two : ∃ c : Config stackSystem,
    Reach inStep (stackStart (fullStack 2)) c ∧ (c.thread 0).result = some (.released (.ok ())) ∧
      (c.thread 1).result = some (.allocated (.ok 0)) ∧ Conserved 2 c := by
  have hrun :
      ((stackStart (fullStack 2)).run (fun p (op : StackOp) (y : Ledger) => decide (inStep p op y))
      (callFor 0 5 .allocate ++ callFor 0 4 (.release 1) ++ callFor 1 5 .allocate ++
        List.replicate 6 (.step 0))).map (fun c => ((c.thread 0).result, (c.thread 1).result)) =
      some (some (.released (.ok ())), some (.allocated (.ok 0))) := by
    decide +kernel
  obtain ⟨c, hc, hres⟩ := Option.map_eq_some_iff.mp hrun
  obtain ⟨h₀, h₁⟩ := Prod.mk.inj hres
  have hr : Reach inStep _ c :=
    reach_of_run (fun p (op : StackOp) (y : Ledger) h => of_decide_eq_true (p :=
      inStep p op y) h) hc
  have hx : initInPlace 2 = some (fullStack 2) :=
    initInPlace_eq_some.mpr ⟨by rw [noneIdx]; omega, rfl⟩
  exact ⟨c, hr, h₀, h₁, treiber_conservation hx hr⟩

/-- A stack of one index refuses its release. Process `0` has pushed it but not yet counted the push
when process `1` pops it and counts the pop; the counter wraps to `usize::MAX`, which the release by
process `1` reads. -/
theorem full_of_lagging_counter : ∃ (x : Stack) (c : Config stackSystem),
    initInPlace 1 = some x ∧ Reach (fun p _ (y : Ledger) => y.TagsFresh p) (stackStart x) c ∧
      0 ∈ c.mem.held 1 ∧ c.thread 1 = .ret (.released (.error .full)) := by
  have hrun : ((stackStart (fullStack 1)).run (fun p _ (y : Ledger) => decide (y.TagsFresh p))
      (callFor 0 5 .allocate ++ callFor 0 5 (.release 0) ++ callFor 1 5 .allocate ++
        callFor 1 1 (.release 0))).map (fun c => ((c.thread 1).result, c.mem.held 1)) =
      some (some (.released (.error .full)), [0]) := by
    decide +kernel
  obtain ⟨c, hc, hres⟩ := Option.map_eq_some_iff.mp hrun
  obtain ⟨h₁, hheld⟩ := Prod.mk.inj hres
  have hx : initInPlace 1 = some (fullStack 1) :=
    initInPlace_eq_some.mpr ⟨by rw [noneIdx]; omega, rfl⟩
  refine ⟨_, c, hx, reach_of_run (fun p _ (y : Ledger) h => ?_) hc, by simp [hheld],
    Prog.eq_ret_of_result h₁⟩
  exact of_decide_eq_true (p := y.TagsFresh p) h

end PgFusion.Lockfree

import Mathlib.Logic.Function.Basic
import Mathlib.Data.Nat.Notation

/-!
Programs over atomic accesses and their interleavings: a process makes one access at a time and goes
on with what the access returned. The memory is sequentially consistent.

A program is a free monad over the accesses with one loop constructor, so that a retry loop needs no
bound on its rounds. A step is a function of the chosen `Action`, so that a schedule can be
evaluated.
-/

namespace PgFusion

/-- A value of an updated function is the new one, or an old one elsewhere. -/
lemma update_cases {γ : Type*} {f : ℕ → γ} {p q : ℕ} {y z : γ}
    (h : Function.update f p y q = z) : (q = p ∧ y = z) ∨ (q ≠ p ∧ f q = z) := by
  by_cases hq : q = p
  · subst hq
    exact Or.inl ⟨rfl, by rwa [Function.update_self] at h⟩
  · exact Or.inr ⟨hq, by rwa [Function.update_of_ne hq] at h⟩

/-! ### Programs -/

/-- The atomic accesses of a shared memory, and the type of what each returns. -/
structure Access where
  Op : Type
  Res : Op → Type

/-- A memory that offers the accesses `A`: what an access by process `p`
returns and what it leaves behind. -/
structure Machine (A : Access) where
  Mem : Type
  exec : ℕ → (op : A.Op) → Mem → A.Res op × Mem

/-- Programs over the accesses `A` that return a value of the index type. -/
inductive Prog (A : Access) : Type → Type 1 where
  | ret {α : Type} (a : α) : Prog A α
  | access {α : Type} (op : A.Op) (k : A.Res op → Prog A α) : Prog A α
  | loop {σ β α : Type} (body : σ → Prog A (σ ⊕ β)) (s : σ) (k : β → Prog A α) :
      Prog A α

namespace Prog

variable {A : Access} {α β γ σ : Type}

/-- Run `x`, then go on with what it returned. -/
def bind {α β : Type} : Prog A α → (α → Prog A β) → Prog A β
  | ret a, f => f a
  | access op k, f => access op fun r => (k r).bind f
  | loop body s k, f => loop body s fun b => (k b).bind f

instance : Monad (Prog A) where
  pure := ret
  bind := bind

@[simp] lemma pure_eq (a : α) : (pure a : Prog A α) = ret a := rfl

/-- One access, returning what it returned. -/
def perform (op : A.Op) : Prog A (A.Res op) := access op ret

/-- Repeat `body` from state `s` until it answers `Sum.inr`. -/
def repeatFrom (s : σ) (body : σ → Prog A (σ ⊕ β)) : Prog A β := loop body s ret

/-- The rounds of a loop that are left: one round of the body, then either the
loop again or what comes after it. -/
def unfold (body : σ → Prog A (σ ⊕ β)) (s : σ) (k : β → Prog A α) : Prog A α :=
  body s >>= fun
    | .inl s' => loop body s' k
    | .inr b => k b

/-- What a program returns, and the memory it leaves, when process `p` runs it without
interruption; none if one of its loops takes a second round. -/
def alone (M : Machine A) (p : ℕ) {α : Type} : Prog A α → M.Mem → Option (α × M.Mem)
  | ret a, m => some (a, m)
  | access op k, m => (k (M.exec p op m).1).alone M p (M.exec p op m).2
  | loop body s k, m => ((body s).alone M p m).bind fun r =>
    r.1.elim (fun _ => none) fun b => (k b).alone M p r.2

lemma alone_repeatFrom {M : Machine A} {p : ℕ} (s : σ) (body : σ → Prog A (σ ⊕ β)) (m : M.Mem) :
    (repeatFrom s body).alone M p m = ((body s).alone M p m).bind fun r =>
      r.1.elim (fun _ => none) fun b => some (b, r.2) := rfl

/-- The access a program makes next; none when it has returned or is about to
enter a loop. -/
def nextOp : Prog A α → Option A.Op
  | access op _ => some op
  | _ => none

/-- What a program that has returned did return. -/
def result : Prog A α → Option α
  | ret a => some a
  | _ => none

lemma eq_ret_of_result {x : Prog A α} {a : α} (h : x.result = some a) : x = ret a := by
  cases x with
  | ret b => exact congrArg ret (Option.some.inj h)
  | access op k => cases h
  | loop body s k => cases h

end Prog

/-- A part of a memory with accesses `A`, as the memory with accesses `B` offers
it: which access of the whole an access of the part is, and how its result is
read. -/
structure Part (A B : Access) where
  op : A.Op → B.Op
  res : ∀ o, B.Res (op o) → A.Res o

/-- A program over the accesses of a part, as one over those of the whole. -/
def Prog.within {A B : Access} (part : Part A B) {α : Type} : Prog A α → Prog B α
  | .ret a => .ret a
  | .access o k => .access (part.op o) fun r => (k (part.res o r)).within part
  | .loop body s k => .loop (fun s => (body s).within part) s fun b => (k b).within part

/-- The whole memory as a part of itself. -/
def Part.whole (A : Access) : Part A A := ⟨id, fun _ => id⟩

namespace Prog

variable {A B : Access} {part : Part A B} {α β σ : Type}

@[simp] lemma within_whole (x : Prog A α) : x.within (.whole A) = x := by
  induction x with
  | ret a => rfl
  | access o k ih => exact congrArg (access o) (funext fun r => ih r)
  | loop body s k ihb ihk =>
    have hbody : (fun s => (body s).within (.whole A)) = body := funext ihb
    have hk : (fun b => (k b).within (.whole A)) = k := funext ihk
    show loop (fun s => (body s).within (.whole A)) s (fun b => (k b).within (.whole A)) = _
    rw [hbody, hk]

end Prog

/-! ### Systems of processes -/

/-- A system of processes over a machine. Between two calls a process keeps a
`Client` value; `start` says which program a call runs, and may record the call
in the memory's history; `env` is a step of the environment. -/
structure System {A : Access} (M : Machine A) where
  Client : Type
  Call : Type
  Env : Type
  start : M.Mem → ℕ → Client → Call → Option (M.Mem × Prog A Client)
  env : Env → M.Mem → Option M.Mem
  live : M.Mem → ℕ → Bool

/-- A choice of what happens next: process `p` begins a call or makes one step
of the call it is in, or the environment takes a step. -/
inductive Action {A : Access} {M : Machine A} (S : System M) where
  | call (p : ℕ) (c : S.Call)
  | step (p : ℕ)
  | env (e : S.Env)

/-- Process `q` is the one that acts. -/
def Action.By {A : Access} {M : Machine A} {S : System M} (q : ℕ) : Action S → Prop
  | .call p _ => p = q
  | .step p => p = q
  | .env _ => False

/-- Only processes below `n` act. -/
def Action.among {A : Access} {M : Machine A} {S : System M} (n : ℕ) : Action S → Bool
  | .call p _ => p < n
  | .step p => p < n
  | .env _ => true

/-- The memory and, for each process, what is left of its program. A process
that has returned is idle. -/
structure Config {A : Access} {M : Machine A} (S : System M) where
  mem : M.Mem
  thread : ℕ → Prog A S.Client

namespace Config

variable {A : Access} {M : Machine A} {S : System M}

/-- No call is in progress. -/
def Quiet (c : Config S) : Prop := ∀ p, ∃ cl, c.thread p = .ret cl

/-- No process below `n` is in a call. -/
def idleBelow (c : Config S) (n : ℕ) : Bool :=
  (List.range n).all fun p => (c.thread p).result.isSome

/-- One step of process `p`: its next access, or one unfolding of its loop. -/
def stepThread (c : Config S) (p : ℕ) : Option (Config S) :=
  match c.thread p with
  | .ret _ => none
  | .access op k =>
    let r := M.exec p op c.mem
    some ⟨r.2, Function.update c.thread p (k r.1)⟩
  | .loop body s k => some ⟨c.mem, Function.update c.thread p (Prog.unfold body s k)⟩

/-- Process `p`, when idle, begins the call `cl`. -/
def startCall (c : Config S) (p : ℕ) (cl : S.Call) : Option (Config S) :=
  match c.thread p with
  | .ret x => (S.start c.mem p x cl).map fun r => ⟨r.1, Function.update c.thread p r.2⟩
  | _ => none

/-- The configuration after the chosen action, if the action is possible. A
process that is not alive does nothing. -/
def next (c : Config S) : Action S → Option (Config S)
  | .call p cl => if S.live c.mem p then c.startCall p cl else none
  | .step p => if S.live c.mem p then c.stepThread p else none
  | .env e => (S.env e c.mem).map fun m => ⟨m, c.thread⟩

/-- The action makes no access that `ok` rejects in the memory it finds. -/
def allows (c : Config S) (ok : ℕ → A.Op → M.Mem → Bool) : Action S → Bool
  | .step p => ((c.thread p).nextOp.map fun op => ok p op c.mem).getD true
  | _ => true

/-- The configuration after a schedule, if every action of it is possible and
allowed. -/
def run (c : Config S) (ok : ℕ → A.Op → M.Mem → Bool) : List (Action S) → Option (Config S)
  | [] => some c
  | a :: as => if c.allows ok a then (c.next a).bind fun c' => c'.run ok as else none

end Config

/-! ### Runs whose accesses satisfy a condition -/

variable {A : Access} {M : Machine A} {S : System M}

/-- The access that the action makes, if it makes one, satisfies `cond` of the
memory it finds. -/
def Obeys (cond : ℕ → A.Op → M.Mem → Prop) (c : Config S) : Action S → Prop
  | .step p => ∀ op, (c.thread p).nextOp = some op → cond p op c.mem
  | _ => True

/-- `Reach cond c c'`: a run leads from `c` to `c'`, and each of its accesses
satisfies `cond` of the memory it finds. -/
inductive Reach (cond : ℕ → A.Op → M.Mem → Prop) : Config S → Config S → Prop where
  | refl (c : Config S) : Reach cond c c
  | step {c c' c'' : Config S} (a : Action S) : Reach cond c c' → Obeys cond c' a →
      c'.next a = some c'' → Reach cond c c''

variable {c c' : Config S}

lemma Reach.trans {cond : ℕ → A.Op → M.Mem → Prop} {c'' : Config S}
    (h : Reach cond c c') (h' : Reach cond c' c'') : Reach cond c c'' := by
  induction h' with
  | refl => exact h
  | step a _ ho hn ih => exact .step a ih ho hn

lemma Reach.mono {cond cond' : ℕ → A.Op → M.Mem → Prop}
    (hc : ∀ p op m, cond p op m → cond' p op m) (h : Reach cond c c') :
    Reach cond' c c' := by
  induction h with
  | refl => exact .refl _
  | step a _ ho hn ih =>
    refine .step a ih ?_ hn
    cases a with
    | step p => exact fun op hop => hc p op _ (ho op hop)
    | call p cl => trivial
    | env e => trivial

/-- The condition that asks for nothing: every interleaving. -/
def anyAccess : ℕ → A.Op → M.Mem → Prop := fun _ _ _ => True

/-- A schedule that can be carried out is a run. -/
lemma reach_of_run {cond : ℕ → A.Op → M.Mem → Prop} {ok : ℕ → A.Op → M.Mem → Bool}
    (hok : ∀ p op m, ok p op m → cond p op m) {as : List (Action S)}
    (h : c.run ok as = some c') : Reach cond c c' := by
  induction as generalizing c with
  | nil =>
    obtain rfl : c = c' := by simpa [Config.run] using h
    exact .refl _
  | cons a as ih =>
    simp only [Config.run] at h
    split at h
    · next hallow =>
      obtain ⟨d, hd, hrun⟩ := Option.bind_eq_some_iff.mp h
      refine Reach.trans (.step a (.refl c) ?_ hd) (ih hrun)
      cases a with
      | step p =>
        intro op hop
        refine hok p op _ ?_
        simpa [Config.allows, hop] using hallow
      | call p cl => trivial
      | env e => trivial
    · cases h

/-- A process that does not act is left where it is. -/
lemma thread_of_next {a : Action S} {n q : ℕ} (h : c.next a = some c')
    (ha : a.among n) (hq : n ≤ q) : c'.thread q = c.thread q := by
  have hne : ∀ p, p < n → q ≠ p := fun p hp he => absurd (he ▸ hp) (Nat.not_lt.mpr hq)
  cases a with
  | env e =>
    obtain ⟨m, -, rfl⟩ := Option.map_eq_some_iff.mp h
    rfl
  | call p cl =>
    simp only [Config.next, Config.startCall] at h
    split at h
    · split at h
      · obtain ⟨r, -, rfl⟩ := Option.map_eq_some_iff.mp h
        exact Function.update_of_ne (hne p (of_decide_eq_true ha)) _ _
      · cases h
    · cases h
  | step p =>
    simp only [Config.next, Config.stepThread] at h
    split at h
    · split at h
      · cases h
      · obtain rfl := Option.some.inj h
        exact Function.update_of_ne (hne p (of_decide_eq_true ha)) _ _
      · obtain rfl := Option.some.inj h
        exact Function.update_of_ne (hne p (of_decide_eq_true ha)) _ _
    · cases h

/-- After a schedule of the processes below `n`, no call is in progress when none of
theirs is and none was before. -/
lemma quiet_of_run {ok : ℕ → A.Op → M.Mem → Bool} {as : List (Action S)}
    (h : c.run ok as = some c') {n : ℕ} (has : as.all (Action.among n)) (hc : c.Quiet)
    (hn : c'.idleBelow n) : c'.Quiet := by
  have hothers : ∀ q, n ≤ q → c'.thread q = c.thread q := by
    intro q hq
    clear hc hn
    induction as generalizing c with
    | nil =>
      obtain rfl : c = c' := by simpa [Config.run] using h
      rfl
    | cons a as ih =>
      rw [List.all_cons, Bool.and_eq_true] at has
      simp only [Config.run] at h
      split at h
      · obtain ⟨d, hd, hrun⟩ := Option.bind_eq_some_iff.mp h
        rw [ih hrun has.2, thread_of_next hd has.1 hq]
      · cases h
  intro p
  by_cases hp : p < n
  · have hret := List.all_eq_true.mp hn p (List.mem_range.mpr hp)
    obtain ⟨cl, hcl⟩ := Option.isSome_iff_exists.mp hret
    exact ⟨cl, Prog.eq_ret_of_result hcl⟩
  · obtain ⟨cl, hcl⟩ := hc p
    exact ⟨cl, by rw [hothers p (Nat.not_lt.mp hp), hcl]⟩

end PgFusion

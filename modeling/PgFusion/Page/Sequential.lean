import PgFusion.Interleave.Program
import PgFusion.Lockfree.Solo
import PgFusion.Page.Pool

/-!
The page pool under one caller at a time, which sees a list of free pages and, for each page, a
generation and a lease state.
* `tryAcquire_pops`, `giveBack_pushes`: that list is the stack of the pool, under a call that runs
  alone.
-/

namespace PgFusion.Page

/-- A pool as one caller at a time sees it. -/
structure PageStore where
  free : List ℕ
  generation : ℕ → ℕ
  state : ℕ → LeaseState

/-! ### The calls -/

/-- The error with which a release answers when it finds another state than the one it
expects. -/
def mismatchError (pageId generation rawState : ℕ) : LeaseState → LeaseState → ReleaseError
  | .detached, .attached => .leaseStillAttached pageId generation
  | _, .exhausted => .exhausted pageId generation
  | .detached, .free => .notLeased pageId generation
  | .attached, .free => .notLeased pageId generation
  | .attached, .detached => .corruptState pageId generation rawState
  | _, _ => .unreachable

namespace PageStore

/-- The store with another state of a page. -/
def setState (s : PageStore) (i : ℕ) (st : LeaseState) : PageStore :=
  { s with state := Function.update s.state i st }

/-- `PagePool::try_acquire`. -/
def tryAcquire (pool : PagePool) (s : PageStore) : Except AcquireError PageDescriptor × PageStore :=
  match s.free with
  | [] => (.error .empty, s)
  | i :: rest =>
    if s.state i ≠ .free then
      (.error (.corruptState i (s.generation i) (s.state i).raw), { s with free := rest })
    else
      (.ok ⟨pool.poolId, i, s.generation i + 1⟩,
        { free := rest
          generation := Function.update s.generation i (s.generation i + 1)
          state := Function.update s.state i .attached })

/-- `PagePool::detach_descriptor`. -/
def detachDescriptor (desc : PageDescriptor) (s : PageStore) :
    Except DetachError Unit × PageStore :=
  if s.generation desc.pageId ≠ desc.generation then
    (.error (.staleGeneration desc.pageId (s.generation desc.pageId) desc.generation), s)
  else if s.state desc.pageId ≠ .attached then
    (.error (.notAttached desc.pageId (s.generation desc.pageId) (s.state desc.pageId).raw), s)
  else (.ok (), s.setState desc.pageId .detached)

/-- A leased page that is given up is retired after its last generation, and goes back to
the freelist before that. -/
def giveBack (s : PageStore) (i : ℕ) : PageStore :=
  if s.generation i = maxGeneration then s.setState i .exhausted
  else { s.setState i .free with free := i :: s.free }

/-- `PagePool::release_with_state`. -/
def releaseWithState (pool : PagePool) (desc : PageDescriptor) (expectedState : LeaseState)
    (s : PageStore) : Except ReleaseError Unit × PageStore :=
  if desc.poolId ≠ pool.poolId then (.error (.poolMismatch pool.poolId desc.poolId), s)
  else if desc.pageId ≥ pool.pageCount then (.error (.badPageId desc.pageId pool.pageCount), s)
  else if s.generation desc.pageId ≠ desc.generation then
    (.error (.staleGeneration desc.pageId (s.generation desc.pageId) desc.generation), s)
  else if s.state desc.pageId ≠ expectedState then
    (.error (mismatchError desc.pageId (s.generation desc.pageId) (s.state desc.pageId).raw
      expectedState (s.state desc.pageId)), s)
  else if s.generation desc.pageId ≠ maxGeneration ∧ s.free.length ≥ pool.pageCount then
    (.error (.corruptFreeList desc.pageId), s)
  else (.ok (), s.giveBack desc.pageId)

/-- `PagePool::release`. -/
def release (pool : PagePool) (desc : PageDescriptor) :
    PageStore → Except ReleaseError Unit × PageStore :=
  releaseWithState pool desc .detached

/-- `PagePool::release_attached`. -/
def releaseAttached (pool : PagePool) (desc : PageDescriptor) :
    PageStore → Except ReleaseError Unit × PageStore :=
  releaseWithState pool desc .attached

/-- `PageLease::into_descriptor`. -/
def intoDescriptor (pool : PagePool) (desc : PageDescriptor) (s : PageStore) :
    Except DetachError PageDescriptor × PageStore :=
  match s.detachDescriptor desc with
  | (.ok _, s') => (.ok desc, s')
  | (.error err, s') => (.error err, (s'.releaseAttached pool desc).2)

/-- `PagePool::validate_detached_descriptor`. -/
def validateDetachedDescriptor (pool : PagePool) (desc : PageDescriptor) (s : PageStore) :
    Except AccessError ℕ :=
  if desc.poolId ≠ pool.poolId then .error (.poolMismatch pool.poolId desc.poolId)
  else if desc.pageId ≥ pool.pageCount then .error (.badPageId desc.pageId pool.pageCount)
  else if s.generation desc.pageId ≠ desc.generation then
    .error (.staleGeneration desc.pageId (s.generation desc.pageId) desc.generation)
  else match s.state desc.pageId with
    | .detached => .ok desc.pageId
    | .attached => .error (.leaseStillAttached desc.pageId (s.generation desc.pageId))
    | .exhausted => .error (.exhausted desc.pageId (s.generation desc.pageId))
    | .free => .error (.notLeased desc.pageId (s.generation desc.pageId))

/-! ### Stores of pools that are used as intended -/

/-- The freelist holds the free pages, each once, and a generation that can still be leased
is left of each of them. -/
structure Valid (pool : PagePool) (s : PageStore) : Prop where
  nodup : s.free.Nodup
  mem_free : ∀ i, i ∈ s.free ↔ i < pool.pageCount ∧ s.state i = .free
  lt_max : ∀ i, s.state i = .free → s.generation i < maxGeneration
  le_max : ∀ i, s.generation i ≤ maxGeneration

/-- A pool after `init_in_place`. -/
def fresh (pool : PagePool) : PageStore where
  free := (List.range pool.pageCount).reverse
  generation _ := 0
  state _ := .free

lemma valid_fresh (pool : PagePool) : (fresh pool).Valid pool where
  nodup := List.nodup_reverse.mpr List.nodup_range
  mem_free i := by simp [fresh]
  lt_max _ _ := by simp [fresh, maxGeneration]
  le_max _ := Nat.zero_le _

/-! ### The freelist is the chain of the pool's stack -/

section Stack

open Lockfree (Rests stackMachine)

variable {pool : PagePool} {s : PageStore} {x : Lockfree.Stack} (p : ℕ)

/-- **An acquisition pops the stack of the pool.** -/
lemma tryAcquire_pops (h : Rests pool.pageCount x s.free) :
    ∃ x', Rests pool.pageCount x' (s.tryAcquire pool).2.free ∧
      Lockfree.allocate.alone stackMachine p x =
        some (s.free.head?.elim (.error .empty) .ok, x') := by
  have hfree : (s.tryAcquire pool).2.free = s.free.tail := by
    rw [tryAcquire]
    cases hs : s.free with
    | nil => exact hs
    | cons i rest =>
      dsimp only
      split <;> rfl
  rw [hfree]
  exact h.allocate p

/-- **A page that is given back is pushed**, before its last generation. -/
lemma giveBack_pushes (h : Rests pool.pageCount x s.free) {i : ℕ} (hi : i < pool.pageCount)
    (hnot : i ∉ s.free) (hgen : s.generation i ≠ maxGeneration) :
    ∃ x', Rests pool.pageCount x' (s.giveBack i).free ∧
      (Lockfree.release pool.pageCount i).alone stackMachine p x = some (.ok (), x') := by
  rw [giveBack, if_neg hgen]
  exact h.release p hi hnot

end Stack

namespace Valid

variable {pool : PagePool} {s : PageStore} {i : ℕ}

/-- A page that is not free leaves room on the freelist. -/
lemma length_lt (h : s.Valid pool) (hi : i < pool.pageCount) (hst : s.state i ≠ .free) :
    s.free.length < pool.pageCount :=
  length_lt_of_notMem h.nodup (fun j hj => ((h.mem_free j).mp hj).1) hi
    fun hm => hst ((h.mem_free i).mp hm).2

/-- A page that is leased may change to another state in which it is not free. -/
lemma setState (h : s.Valid pool) (hst : s.state i ≠ .free) {st : LeaseState} (hst' : st ≠ .free) :
    (s.setState i st).Valid pool := by
  refine ⟨h.nodup, fun j => ?_, fun j hj => ?_, h.le_max⟩
  · by_cases hj : j = i
    · subst hj
      simp [PageStore.setState, hst', h.mem_free, hst]
    · simp [PageStore.setState, Function.update_of_ne hj, h.mem_free]
  · obtain ⟨-, hst₁⟩ | ⟨-, hst₁⟩ := update_cases hj
    · exact absurd hst₁ hst'
    · exact h.lt_max j hst₁

/-- A leased page is given up. -/
lemma giveBack (h : s.Valid pool) (hi : i < pool.pageCount) (hst : s.state i ≠ .free) :
    (s.giveBack i).Valid pool := by
  rw [PageStore.giveBack]
  split
  · exact h.setState hst (by decide)
  next hgen =>
  have hnot : i ∉ s.free := fun hm => hst ((h.mem_free i).mp hm).2
  refine ⟨List.nodup_cons.mpr ⟨hnot, h.nodup⟩, fun j => ?_, fun j hj => ?_, h.le_max⟩
  · by_cases hj : j = i
    · subst hj
      simp [PageStore.setState, hi]
    · simp [PageStore.setState, h.mem_free, hj]
  · obtain ⟨rfl, -⟩ | ⟨-, hj⟩ := update_cases hj
    · exact lt_of_le_of_ne (h.le_max j) hgen
    · exact h.lt_max j hj

/-- `try_acquire` keeps the store valid. -/
lemma tryAcquire (h : s.Valid pool) : (s.tryAcquire pool).2.Valid pool := by
  rw [PageStore.tryAcquire]
  split
  · exact h
  · next i rest hfree =>
      have hmem : i ∈ s.free := hfree ▸ List.mem_cons_self
      obtain ⟨hlt, hst⟩ := (h.mem_free i).mp hmem
      have hnd := h.nodup
      rw [hfree, List.nodup_cons] at hnd
      rw [if_neg (not_not.mpr hst)]
      refine ⟨hnd.2, fun j => ?_, fun j hj => ?_, fun j => ?_⟩
      · by_cases hj : j = i
        · subst hj
          simp [hnd.1]
        · simp [← h.mem_free, hfree, hj]
      · obtain ⟨-, hj⟩ | ⟨hji, hj⟩ := update_cases hj
        · cases hj
        · simpa [Function.update_of_ne hji] using h.lt_max j hj
      · by_cases hj : j = i
        · subst hj
          simpa using h.lt_max j hst
        · simpa [Function.update_of_ne hj] using h.le_max j

end Valid

end PageStore

end PgFusion.Page

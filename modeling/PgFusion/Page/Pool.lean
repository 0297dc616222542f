import Mathlib.Tactic

/-!
The page pool of `page/pool/src`. A lease is dropped or detached into a `PageDescriptor`, which
anybody may then present to release the page or to access its bytes.
-/

namespace PgFusion.Page

/-! ### The word of a page -/

/-- The state of a page, two bits of its word. -/
inductive LeaseState where
  | free | attached | detached | exhausted
deriving DecidableEq

namespace LeaseState

/-- The discriminant of a state. -/
def raw : LeaseState → ℕ
  | free => 0
  | attached => 1
  | detached => 2
  | exhausted => 3

end LeaseState

/-- `MAX_GENERATION`, which is also the mask of the generation: 62 ones. -/
@[irreducible] def maxGeneration : ℕ := 4611686018427387903

/-! ### Descriptors and errors -/

/-- `PageDescriptor`. -/
structure PageDescriptor where
  poolId : ℕ
  pageId : ℕ
  generation : ℕ
deriving DecidableEq

/-- `AcquireError`. -/
inductive AcquireError where
  | empty
  | corruptState (pageId generation rawState : ℕ)
deriving DecidableEq

/-- `DetachError`. -/
inductive DetachError where
  | staleGeneration (pageId expected actual : ℕ)
  | notAttached (pageId generation rawState : ℕ)
  | corruptState (pageId generation rawState : ℕ)
deriving DecidableEq

/-- `ReleaseError`, and the `unreachable!` of `release_with_state`. -/
inductive ReleaseError where
  | poolMismatch (expectedPoolId actualPoolId : ℕ)
  | badPageId (pageId pageCount : ℕ)
  | staleGeneration (pageId expected actual : ℕ)
  | leaseStillAttached (pageId generation : ℕ)
  | exhausted (pageId generation : ℕ)
  | notLeased (pageId generation : ℕ)
  | corruptState (pageId generation rawState : ℕ)
  | corruptFreeList (pageId : ℕ)
  | unreachable
deriving DecidableEq

/-- `AccessError`. -/
inductive AccessError where
  | poolMismatch (expectedPoolId actualPoolId : ℕ)
  | badPageId (pageId pageCount : ℕ)
  | staleGeneration (pageId expected actual : ℕ)
  | leaseStillAttached (pageId generation : ℕ)
  | exhausted (pageId generation : ℕ)
  | notLeased (pageId generation : ℕ)
  | corruptState (pageId generation rawState : ℕ)
deriving DecidableEq

/-! ### Counters -/

/-- `AtomicU64::fetch_add`, which wraps. -/
@[irreducible] def u64Add (a b : ℕ) : ℕ :=
  if a + b < 18446744073709551616 then a + b else a + b - 18446744073709551616

/-- `AtomicU64::fetch_sub`, which wraps. -/
@[irreducible] def u64Sub (a b : ℕ) : ℕ :=
  if b ≤ a then a - b else a + 18446744073709551616 - b

/-! ### The pool -/

/-- A process-local handle of a pool. -/
structure PagePool where
  poolId : ℕ
  pageCount : ℕ
deriving DecidableEq

/-- The state in which a release leaves a page of this generation. -/
def releasedState (generation : ℕ) : LeaseState :=
  if generation = maxGeneration then .exhausted else .free

end PgFusion.Page

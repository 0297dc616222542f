import PgFusion.Interleave.Program
import PgFusion.Lockfree.Solo
import PgFusion.Page.Pool

/-!
The permit pool of `page/issuance/src/pool.rs`, as a caller sees it that uses the pool from one
place at a time.
* `take_pops`, `giveBack_pushes`: its list is the stack, under a call that runs alone.
-/

namespace PgFusion.Issuance

open Page (u64Add u64Sub)

/-- `AcquireError`. -/
inductive AcquireError where
  | empty
  | corruptState (permitId state : ℕ)
deriving DecidableEq

/-- `ReleaseError`. -/
inductive ReleaseError where
  | badPermitId (permitId permitCount : ℕ)
  | doubleFree (permitId : ℕ)
  | corruptState (permitId state : ℕ)
  | corruptFreeList (permitId : ℕ)
deriving DecidableEq

/-- A process-local handle of a permit pool. The number of permits is a `u32`. -/
structure IssuancePool where
  permitCount : ℕ
  instanceId : ℕ
  count_lt : permitCount < 2 ^ 32
deriving DecidableEq

/-- `STATE_FREE`. -/
def stateFree : ℕ := 0

/-- `STATE_LEASED`. -/
def stateLeased : ℕ := 1

/-- The counters of `SharedMetrics`. -/
inductive Metric where
  | acquireOk | acquireEmpty | releaseOk | releaseBadId | releaseDoubleFree | leasedPermits
deriving DecidableEq

/-! ### The pool under one caller at a time -/

/-- A permit pool as one caller at a time sees it. -/
structure PermitStore where
  free : List ℕ
  state : ℕ → ℕ
  metrics : Metric → ℕ

namespace PermitStore

/-- The store with a counter raised. -/
def count (m : Metric) (s : PermitStore) : PermitStore :=
  { s with metrics := Function.update s.metrics m (u64Add (s.metrics m) 1) }

/-- The store with a counter lowered. -/
def uncount (m : Metric) (s : PermitStore) : PermitStore :=
  { s with metrics := Function.update s.metrics m (u64Sub (s.metrics m) 1) }

/-- A permit is leased. -/
def take (i : ℕ) (rest : List ℕ) (s : PermitStore) : PermitStore :=
  (({ s with free := rest, state := Function.update s.state i stateLeased }.count
    .acquireOk).count .leasedPermits)

/-- A permit is given up. -/
def giveBack (i : ℕ) (s : PermitStore) : PermitStore :=
  (({ s with free := i :: s.free, state := Function.update s.state i stateFree }.count
    .releaseOk).uncount .leasedPermits)

/-- `IssuancePool::try_acquire`. A permit whose state is not free goes back to where it was
taken from. -/
def tryAcquire (s : PermitStore) : Except AcquireError ℕ × PermitStore :=
  match s.free with
  | [] => (.error .empty, s.count .acquireEmpty)
  | i :: rest =>
    if s.state i = stateFree then (.ok i, s.take i rest)
    else (.error (.corruptState i (s.state i)), s)

/-- `IssuancePool::release`. -/
def release (pool : IssuancePool) (i : ℕ) (s : PermitStore) :
    Except ReleaseError Unit × PermitStore :=
  if i ≥ pool.permitCount then (.error (.badPermitId i pool.permitCount), s.count .releaseBadId)
  else if s.state i ≠ stateLeased then
    if s.state i = stateFree then (.error (.doubleFree i), s.count .releaseDoubleFree)
    else (.error (.corruptState i (s.state i)), s)
  else if s.free.length ≥ pool.permitCount then (.error (.corruptFreeList i), s)
  else (.ok (), s.giveBack i)

/-- The freelist holds the free permits, each once, and the others are leased. -/
structure Valid (pool : IssuancePool) (s : PermitStore) : Prop where
  nodup : s.free.Nodup
  mem_free : ∀ i, i ∈ s.free ↔ i < pool.permitCount ∧ s.state i = stateFree
  states : ∀ i, s.state i = stateFree ∨ s.state i = stateLeased

/-- A pool after `init_in_place`. -/
def fresh (pool : IssuancePool) : PermitStore where
  free := (List.range pool.permitCount).reverse
  state _ := stateFree
  metrics _ := 0

lemma valid_fresh (pool : IssuancePool) : (fresh pool).Valid pool where
  nodup := List.nodup_reverse.mpr List.nodup_range
  mem_free i := by simp [fresh]
  states _ := Or.inl rfl

section Stack

open Lockfree (Rests stackMachine)

variable {n i : ℕ} {s : PermitStore} {x : Lockfree.Stack} (p : ℕ)

/-- **A permit that is leased is popped from the stack of the pool.** -/
lemma take_pops {rest : List ℕ} (h : Rests n x s.free) (hfree : s.free = i :: rest) :
    ∃ x', Rests n x' (s.take i rest).free ∧
      Lockfree.allocate.alone stackMachine p x = some (.ok i, x') := by
  rw [hfree] at h
  exact h.allocate p

/-- **A permit that is given up is pushed.** -/
lemma giveBack_pushes (h : Rests n x s.free) (hi : i < n) (hnot : i ∉ s.free) :
    ∃ x', Rests n x' (s.giveBack i).free ∧
      (Lockfree.release n i).alone stackMachine p x = some (.ok (), x') :=
  h.release p hi hnot

end Stack

namespace Valid

variable {pool : IssuancePool} {s : PermitStore} {i : ℕ}

/-- A leased permit leaves room on the freelist. -/
lemma length_lt (h : s.Valid pool) (hi : i < pool.permitCount) (hst : s.state i = stateLeased) :
    s.free.length < pool.permitCount :=
  length_lt_of_notMem h.nodup (fun j hj => ((h.mem_free j).mp hj).1) hi
    fun hm => absurd (hst.symm.trans ((h.mem_free i).mp hm).2) (by decide)

lemma take (h : s.Valid pool) {rest : List ℕ} (hfree : s.free = i :: rest) :
    (s.take i rest).Valid pool := by
  have hnd := h.nodup
  rw [hfree, List.nodup_cons] at hnd
  refine ⟨hnd.2, fun j => ?_, fun j => ?_⟩
  · show j ∈ rest ↔ j < pool.permitCount ∧ Function.update s.state i stateLeased j = stateFree
    by_cases hj : j = i
    · subst hj
      simp [hnd.1, stateLeased, stateFree]
    · simp [← h.mem_free, hfree, hj]
  · by_cases hj : j = i
    · exact Or.inr (hj ▸ Function.update_self ..)
    · exact (h.states j).imp (Function.update_of_ne hj _ _).trans
        (Function.update_of_ne hj _ _).trans

lemma giveBack (h : s.Valid pool) (hi : i < pool.permitCount) (hst : s.state i = stateLeased) :
    (s.giveBack i).Valid pool := by
  have hnot : i ∉ s.free := fun hm =>
    absurd (hst.symm.trans ((h.mem_free i).mp hm).2) (by decide)
  refine ⟨List.nodup_cons.mpr ⟨hnot, h.nodup⟩, fun j => ?_, fun j => ?_⟩
  · show j ∈ i :: s.free ↔ j < pool.permitCount ∧ Function.update s.state i stateFree j = stateFree
    by_cases hj : j = i
    · subst hj
      simp [hi]
    · simp [h.mem_free, hj]
  · by_cases hj : j = i
    · exact Or.inl (hj ▸ Function.update_self ..)
    · exact (h.states j).imp (Function.update_of_ne hj _ _).trans
        (Function.update_of_ne hj _ _).trans

end Valid

end PermitStore

/-! ### Who holds the leased permits -/

namespace PermitStore

/-- The permits on the list are the leased ones, each exactly once, and the pool has counted
them. -/
structure HeldBy (pool : IssuancePool) (s : PermitStore) (ids : List ℕ) : Prop where
  valid : s.Valid pool
  nodup : ids.Nodup
  mem : ∀ i, i ∈ ids ↔ i < pool.permitCount ∧ s.state i = stateLeased
  counted : s.metrics .leasedPermits = ids.length

/-- The number of leased permits. -/
def leasedPermits (pool : IssuancePool) (s : PermitStore) : ℕ :=
  ((List.range pool.permitCount).filter fun i => s.state i = stateLeased).length

/-- No release has been refused in between. -/
def Clean (s₀ s : PermitStore) : Prop :=
  s.metrics .releaseBadId = s₀.metrics .releaseBadId ∧
    s.metrics .releaseDoubleFree = s₀.metrics .releaseDoubleFree

lemma heldBy_fresh (pool : IssuancePool) : (fresh pool).HeldBy pool [] where
  valid := valid_fresh pool
  nodup := List.nodup_nil
  mem i := by simp [fresh, stateFree, stateLeased]
  counted := rfl

lemma clean_take (i : ℕ) (rest : List ℕ) (s : PermitStore) : s.Clean (s.take i rest) := by
  simp [Clean, take, count]

lemma clean_giveBack (i : ℕ) (s : PermitStore) : s.Clean (s.giveBack i) := by
  simp [Clean, giveBack, count, uncount]

lemma Clean.trans {s₀ s₁ s₂ : PermitStore} (h : s₀.Clean s₁) (h' : s₁.Clean s₂) : s₀.Clean s₂ :=
  ⟨h'.1.trans h.1, h'.2.trans h.2⟩

namespace HeldBy

variable {pool : IssuancePool} {s : PermitStore} {ids : List ℕ} {i : ℕ}

/-- The order of the permits does not matter. -/
lemma perm (h : s.HeldBy pool ids) {ids' : List ℕ} (hp : ids.Perm ids') : s.HeldBy pool ids' where
  valid := h.valid
  nodup := hp.nodup_iff.mp h.nodup
  mem i := hp.mem_iff.symm.trans (h.mem i)
  counted := h.counted.trans hp.length_eq

lemma length_le (h : s.HeldBy pool ids) : ids.length ≤ pool.permitCount := by
  have hsub : ids ⊆ List.range pool.permitCount :=
    fun i hi => List.mem_range.mpr ((h.mem i).mp hi).1
  simpa using (List.subperm_of_subset h.nodup hsub).length_le

/-- **An acquired permit is a new entry**, and was free; a failed acquisition leaves
everything leased as it was. -/
lemma tryAcquire (h : s.HeldBy pool ids) :
    (∃ i s', s.tryAcquire = (.ok i, s') ∧ s'.HeldBy pool (i :: ids) ∧ s.Clean s') ∨
      (s.tryAcquire = (.error .empty, s.count .acquireEmpty) ∧
        (s.count .acquireEmpty).HeldBy pool ids ∧ s.Clean (s.count .acquireEmpty)) := by
  rw [PermitStore.tryAcquire]
  cases hfree : s.free with
  | nil =>
    refine Or.inr ⟨rfl, ⟨⟨h.valid.nodup, h.valid.mem_free, h.valid.states⟩, h.nodup, h.mem, ?_⟩, ?_⟩
    · exact h.counted
    · simp [Clean, count]
  | cons i rest =>
    obtain ⟨hlt, hst⟩ := (h.valid.mem_free i).mp (hfree ▸ List.mem_cons_self)
    have hnot : i ∉ ids := fun hm => absurd (hst.symm.trans ((h.mem i).mp hm).2) (by decide)
    refine Or.inl ⟨i, s.take i rest, if_pos hst, ⟨h.valid.take hfree, ?_, fun j => ?_, ?_⟩,
      clean_take i rest s⟩
    · exact List.nodup_cons.mpr ⟨hnot, h.nodup⟩
    · show _ ↔ _ ∧ Function.update s.state i stateLeased j = stateLeased
      by_cases hj : j = i
      · subst hj
        simp [hlt]
      · simp [hj, h.mem]
    · have hle := h.length_le
      have hbound := pool.count_lt
      simp only [take, count, Function.update_self, List.length_cons]
      rw [Function.update_of_ne (by decide), h.counted, u64Add, if_pos (by omega)]

/-- **An entry is given up.** -/
lemma release (h : s.HeldBy pool (i :: ids)) :
    s.release pool i = (.ok (), s.giveBack i) ∧ (s.giveBack i).HeldBy pool ids := by
  obtain ⟨hlt, hst⟩ := (h.mem i).mp List.mem_cons_self
  obtain ⟨hnot, hnd⟩ := List.nodup_cons.mp h.nodup
  refine ⟨?_, h.valid.giveBack hlt hst, hnd, fun j => ?_, ?_⟩
  · rw [PermitStore.release, if_neg (Nat.not_le.mpr hlt), if_neg (not_not.mpr hst),
      if_neg (Nat.not_le.mpr (h.valid.length_lt hlt hst))]
  · show _ ↔ _ ∧ Function.update s.state i stateFree j = stateLeased
    by_cases hj : j = i
    · subst hj
      simp [hnot, stateFree, stateLeased]
    · simp [hj, ← h.mem]
  · have hlen := h.counted
    rw [List.length_cons] at hlen
    simp only [giveBack, count, uncount, Function.update_self]
    rw [Function.update_of_ne (by decide), hlen, u64Sub, if_pos (by omega)]
    omega

/-- **There are as many leased permits as entries.** -/
lemma leasedPermits (h : s.HeldBy pool ids) : s.leasedPermits pool = ids.length := by
  rw [PermitStore.leasedPermits]
  refine List.Perm.length_eq ((List.perm_ext_iff_of_nodup (List.nodup_range.filter _) h.nodup).mpr
    ?_)
  intro i
  simp [h.mem]

end HeldBy

end PermitStore

end PgFusion.Issuance

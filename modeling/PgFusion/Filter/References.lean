import Mathlib.Tactic
import PgFusion.Filter.Outline

/-!
The reference count of a runtime-filter slot: when no call is in progress, it is the number of build
and probe handles on the slot (`refs_eq_live_handles`). A lookup that has read the state of a slot
before the slot was freed and claimed again raises the count from zero; the allocation then
overwrites it (`refs_short_of_handles`).
-/

namespace PgFusion.Filter

/-! ### Handles -/

/-- The number of handles of a process on slot `i`. -/
def FilterClient.handlesOn (cl : FilterClient) (i : ℕ) : ℕ :=
  (if cl.build.map BuildHandle.slotIndex = some i then 1 else 0) +
    cl.probes.countP fun h => h.slotIndex = i

/-- The number of handles on slot `i` of process `p`, when it is idle. -/
def liveHandles {config : PoolConfig} (c : Config (poolSystem config)) (i p : ℕ) : ℕ :=
  match (c.thread p).result with
  | some cl => FilterClient.handlesOn cl i
  | none => 0

/-- The condition on the accesses of a run. -/
def exactly (p : ℕ) (op : FilterOp) (x : ℕ → PoolSlot) : Prop :=
  counted p op x ∧ Undone op (x op.slot)

variable {cl : FilterClient} {g : FilterRole} {i : ℕ}

/-- Between calls, the references of a process are its handles. -/
lemma AtRest.view_refs (h : AtRest cl g) (i : ℕ) : (g.view i).refs = cl.handlesOn i := by
  have hbuild : (buildView cl.build i).refs =
      if cl.build.map BuildHandle.slotIndex = some i then 1 else 0 := by
    cases cl.build with
    | none => rfl
    | some b => by_cases hb : b.slotIndex = i <;> simp [buildView, hb, View.nothing]
  rw [FilterRole.view, h.act, h.build, h.probes, FilterClient.handlesOn, ← hbuild]
  simp [Act.view, View.nothing]

/-- Between calls, a process owns the slot of its build handle. -/
lemma AtRest.owns_iff (h : AtRest cl g) (i : ℕ) :
    (g.view i).owns ↔ ∃ b, cl.build = some b ∧ b.slotIndex = i := by
  rw [View.owns, FilterRole.view, h.act, h.build]
  cases hb : cl.build with
  | none => simp [Act.view, buildView, View.nothing]
  | some b => by_cases hi : b.slotIndex = i <;> simp [Act.view, buildView, View.nothing, hi]

lemma AtRest.not_retires (h : AtRest cl g) (i : ℕ) : ¬ (g.view i).retires := by
  rw [View.retires, FilterRole.view_aux h.act]
  exact id

/-- A process with a build handle on a slot has a handle on it. -/
lemma handlesOn_pos_of_build {b : BuildHandle} (hb : cl.build = some b) (hi : b.slotIndex = i) :
    0 < cl.handlesOn i := by
  simp [FilterClient.handlesOn, hb, hi]

/-! ### The count -/

variable {config : PoolConfig} {c : Config (poolSystem config)}

/-- The outline of an exact count holds along the runs that meet the condition. -/
lemma holds_of_exactly (hr : Reach exactly (poolStart config) c) :
    ∃ ρ, Outline.Holds (poolOutline config.params True) (fun _ => AtRest) c ρ :=
  Outline.holds_reach (pool_supports config True) (pool_start config True)
    (hr.mono fun _ _ _ h => ⟨h.1, fun _ => h.2⟩)

/-- The count is the number of references that are held. -/
lemma refs_eq_card (hr : Reach exactly (poolStart config) c) (i : ℕ) :
    (c.mem i).refs = (c.mem i).holds.card := by
  obtain ⟨ρ, hI, -⟩ := holds_of_exactly hr
  exact (Or.resolve_left (hI.slot i) fun hx => hx.1 trivial).refs

/-- A count that is lowered is not zero, as it would be out of step afterwards. -/
lemma refs_pos_of_subRef (hr : Reach exactly (poolStart config) c) {p : ℕ}
    (hop : (c.thread p).nextOp = some (.subRef i)) : 0 < (c.mem i).refs := by
  by_contra hzero
  have hrefs : (c.mem i).refs = 0 := Nat.eq_zero_of_not_pos hzero
  have hholds : (c.mem i).holds = 0 := by
    rw [← Multiset.card_eq_zero, ← refs_eq_card hr, hrefs]
  cases hth : c.thread p with
  | ret cl => rw [hth] at hop; cases hop
  | loop body s k => rw [hth] at hop; cases hop
  | access op k =>
    rw [hth] at hop
    obtain rfl : op = .subRef i := Option.some.inj hop
    have hstep := Reach.step (.step p) hr
      (fun op' hop' => by
        rw [hth] at hop'
        obtain rfl := Option.some.inj hop'
        exact ⟨trivial, trivial⟩)
      (by simp only [Config.next, Config.stepThread, hth]; rfl)
    have hcard := refs_eq_card hstep i
    simp [poolMachine, poolExec, PoolSlot.exec, FilterOp.slot, hrefs, hholds] at hcard
    rw [maxRefs] at hcard
    cases hcard

/-- **The reference count of a slot is the number of its handles**, in every run whose lookups raise
only counts that are not zero and below their largest value, and whose allocations that are given up
take back the only reference: no count is lowered from zero, and when no call is in progress it is
the number of live handles, with at most one build handle, and zero exactly in a free slot. -/
theorem refs_eq_live_handles (hr : Reach exactly (poolStart config) c) :
    (∀ p i, (c.thread p).nextOp = some (.subRef i) → 0 < (c.mem i).refs) ∧
      (c.Quiet → ∀ i,
        (∃ S : Finset ℕ, (∀ p, p ∉ S → liveHandles c i p = 0) ∧
          (c.mem i).refs = ∑ p ∈ S, liveHandles c i p) ∧
        ((c.mem i).state = .free ↔ ∀ p, liveHandles c i p = 0) ∧
        ∀ p q cl cl' b b', c.thread p = .ret cl → c.thread q = .ret cl' →
          FilterClient.build cl = some b → FilterClient.build cl' = some b' →
          b.slotIndex = i → b'.slotIndex = i → p = q) := by
  refine ⟨fun p i => refs_pos_of_subRef hr, fun hquiet i => ?_⟩
  obtain ⟨ρ, hI, hwp⟩ := holds_of_exactly hr
  have hs := Or.resolve_left (hI.slot i) fun hx => hx.1 trivial
  have hrest : ∀ p cl, c.thread p = .ret cl → AtRest cl (ρ p) := by
    intro p cl hp
    have hrest := hwp p
    rwa [hp] at hrest
  have hcount : ∀ p, (c.mem i).holds.count p = liveHandles c i p := by
    intro p
    obtain ⟨cl, hp⟩ := hquiet p
    rw [hs.count, (hrest p cl hp).view_refs, liveHandles, hp]
    rfl
  have hlive : (∀ p, liveHandles c i p = 0) ↔ (c.mem i).holds = 0 := by
    simp_rw [← hcount, Multiset.count_eq_zero, Multiset.eq_zero_iff_forall_notMem]
  refine ⟨⟨(c.mem i).holds.toFinset, fun p hp => ?_, ?_⟩, ?_, ?_⟩
  · rw [← hcount, Multiset.count_eq_zero]
    exact fun hm => hp (Multiset.mem_toFinset.mpr hm)
  · simp_rw [← hcount]
    rw [hs.refs, Multiset.toFinset_sum_count_eq]
  · rw [hlive]
    refine ⟨fun hfree => (hs.free hfree).1, fun hzero => ?_⟩
    cases hstate : (c.mem i).state with
    | free => rfl
    | allocated =>
      -- the owner of the slot has a build handle on it
      obtain ⟨p, hp⟩ := hs.allocated hstate
      obtain ⟨cl, hth⟩ := hquiet p
      obtain ⟨b, hb, hbi⟩ := ((hrest p cl hth).owns_iff i).mp hp
      have hpos := handlesOn_pos_of_build hb hbi
      rw [← (hrest p cl hth).view_refs i, ← hs.count, hzero, Multiset.count_zero] at hpos
      exact absurd hpos (lt_irrefl 0)
    | retiring =>
      obtain ⟨p, hp⟩ := hs.gone hstate hzero
      obtain ⟨cl, hth⟩ := hquiet p
      exact absurd hp ((hrest p cl hth).not_retires i)
  · intro p q cl cl' b b' hp hq hb hb' hi hi'
    exact hs.lone p q (Or.inl (((hrest p cl hp).owns_iff i).mpr ⟨b, hb, hi⟩))
      (Or.inl (((hrest q cl' hq).owns_iff i).mpr ⟨b', hb', hi'⟩))

/-! ### Runs on a pool of one slot -/

/-- The pool is quiet before any call. -/
lemma quiet_poolStart (config : PoolConfig) : (poolStart config).Quiet := fun _ => ⟨_, rfl⟩

instance : ∀ op s, Decidable (Undone op s)
  | .storeRefs _ 0, _ => inferInstanceAs (Decidable (_ = _))
  | .storeRefs _ (_ + 1), _ | .addRef _, _ | .casState .., _ | .loadState _, _ | .storeState .., _
  | .subRef _, _ | .loadField .., _ | .storeField .., _ | .loadHeader _, _ | .casHeader .., _
  | .loadWord .., _ | .orWord .., _ | .storeWord .., _ => isTrue trivial

/-- Process `0` has a build handle and process `1` a probe handle, and the count is
two. -/
theorem refs_eq_live_handles_two : ∃ c : Config (poolSystem oneSlot),
    Reach exactly (poolStart oneSlot) c ∧ c.Quiet ∧ (c.mem 0).refs = 2 ∧
      liveHandles c 0 0 = 1 ∧ liveHandles c 0 1 = 1 ∧
      ((c.mem 0).state = .free ↔ ∀ p, liveHandles c 0 p = 0) := by
  let as := poolCallFor 0 11 (.allocate ⟨1, 1, 0, 1⟩) ++ poolCallFor 1 8 (.lookup 1 1)
  have hrun : ((poolStart oneSlot).run (fun _ (op : FilterOp) (x : ℕ → PoolSlot) =>
        decide (Counted op (x op.slot) ∧ Undone op (x op.slot))) as).map
      (fun c => (c.idleBelow 2, (c.mem 0).refs, liveHandles c 0 0, liveHandles c 0 1)) =
      some (true, 2, 1, 1) := by
    decide +kernel
  obtain ⟨c, hc, hres⟩ := Option.map_eq_some_iff.mp hrun
  obtain ⟨hidle, hrefs, h₀, h₁⟩ : c.idleBelow 2 = true ∧ (c.mem 0).refs = 2 ∧
      liveHandles c 0 0 = 1 ∧ liveHandles c 0 1 = 1 := by simpa using hres
  have hr : Reach exactly (poolStart oneSlot) c :=
    reach_of_run (fun _ (op : FilterOp) (x : ℕ → PoolSlot) h =>
      of_decide_eq_true (p := Counted op (x op.slot) ∧ Undone op (x op.slot)) h) hc
  have hquiet := quiet_of_run (n := 2) hc (by decide +kernel) (quiet_poolStart _) hidle
  exact ⟨c, hr, hquiet, hrefs, h₀, h₁, ((refs_eq_live_handles hr).2 hquiet 0).2.1⟩

/-- Process `1` has read that the slot is allocated when process `0` frees and claims it again; its
reference is overwritten when process `0` stores the count, and a count of one is left for two
handles. -/
theorem refs_short_of_handles : ∃ c : Config (poolSystem oneSlot),
    Reach anyAccess (poolStart oneSlot) c ∧ c.Quiet ∧ (c.mem 0).refs = 1 ∧
      liveHandles c 0 0 = 1 ∧ liveHandles c 0 1 = 1 := by
  have hrun : ((poolStart oneSlot).run (fun _ _ _ => true)
      (poolCallFor 0 11 (.allocate ⟨1, 1, 0, 1⟩) ++ poolCallFor 1 1 (.lookup 1 1) ++
        poolCallFor 0 12 .dropBuild ++ poolCallFor 0 1 (.allocate ⟨1, 1, 0, 1⟩) ++
        [.step 1] ++ List.replicate 10 (.step 0) ++ List.replicate 6 (.step 1))).map
      (fun c => (c.idleBelow 2, (c.mem 0).refs, liveHandles c 0 0, liveHandles c 0 1)) =
      some (true, 1, 1, 1) := by
    decide +kernel
  obtain ⟨c, hc, hres⟩ := Option.map_eq_some_iff.mp hrun
  obtain ⟨hidle, hrefs, h₀, h₁⟩ : c.idleBelow 2 = true ∧ (c.mem 0).refs = 1 ∧
      liveHandles c 0 0 = 1 ∧ liveHandles c 0 1 = 1 := by simpa using hres
  exact ⟨c, reach_of_run (fun _ _ _ _ => trivial) hc,
    quiet_of_run (n := 2) hc (by decide +kernel) (quiet_poolStart _) hidle, hrefs, h₀, h₁⟩

end PgFusion.Filter

import Mathlib.Tactic
import PgFusion.Interleave.Outline
import PgFusion.Filter.Slot

/-!
The proof outline of the runtime-filter pool: the invariant of each slot (`SlotOk`) is kept by all
accesses, as long as a lookup raises no count from zero. An allocation stores the count, so that a
lookup which raises it between the claim of the slot and that store is not counted.

A slot whose generations are used up is given up, and with it the references that are counted at
that time. The outline comes in two forms: one for what is true of filters whatever becomes of such
a slot, and one for an `exact` count, for runs in which no reference is lost so.
-/

namespace PgFusion.Filter

/-! ### Roles -/

/-- What two parts of a role own of a slot. -/
def Own.or : Own → Own → Own
  | .none, own => own
  | own, _ => own

@[simp] lemma Own.none_or (own : Own) : Own.none.or own = own := rfl

@[simp] lemma Own.or_none (own : Own) : own.or .none = own := by
  cases own <;> rfl

/-- Nothing to do with a slot. -/
def View.nothing : View := ⟨0, .none, .none⟩

/-- What a process is doing with the pool: nothing, or something that makes it `w`
to slot `i`. -/
inductive Act where
  | idle
  | on (i : ℕ) (w : View)

/-- What an activity makes of its process to each slot. -/
def Act.view : Act → ℕ → View
  | .on j w, i => if j = i then w else .nothing
  | .idle, _ => .nothing

/-- What a build handle makes of its process to each slot. -/
def buildView : Option BuildHandle → ℕ → View
  | some b, i =>
    if b.slotIndex = i then ⟨1, .builder b.generation b.inserted, .none⟩ else .nothing
  | none, _ => .nothing

/-- The role of a process: its handles, the hashes that it has found absent, with
the slot and the generation of the filter, and what it is doing. -/
structure FilterRole where
  build : Option BuildHandle
  probes : Multiset ProbeHandle
  absent : List (ℕ × ℕ × UInt64)
  act : Act

namespace FilterRole

/-- What a role makes of its process to each slot. -/
def view (g : FilterRole) (i : ℕ) : View where
  refs := (g.act.view i).refs + ((buildView g.build i).refs +
    g.probes.countP fun h => h.slotIndex = i)
  own := (g.act.view i).own.or (buildView g.build i).own
  aux := (g.act.view i).aux

/-- The role of a process that has the handles of `g` and is `w` to slot `i`
besides. -/
def on (g : FilterRole) (i : ℕ) (w : View) : FilterRole := { g with act := .on i w }

variable {g : FilterRole} {i j : ℕ} {w : View}

lemma view_on_self (hg : g.act = .idle) :
    (g.on i w).view i = ⟨w.refs + (g.view i).refs, w.own.or (g.view i).own, w.aux⟩ := by
  simp [view, on, Act.view, hg, View.nothing]

lemma view_on_of_ne (hg : g.act = .idle) (hj : j ≠ i) : (g.on i w).view j = g.view j := by
  simp [view, on, Act.view, hg, Ne.symm hj]

lemma view_aux (hg : g.act = .idle) : (g.view i).aux = .none := by
  simp [view, Act.view, hg, View.nothing]

/-- Between calls, a process owns a slot only through its build handle. -/
lemma view_own (hg : g.act = .idle) (hb : g.build = none) : (g.view i).own = .none := by
  simp [view, Act.view, hg, hb, buildView, View.nothing]

lemma own_view_refs (hg : g.act = .idle) (hown : (g.view i).own ≠ .none) :
    1 ≤ (g.view i).refs := by
  cases hb : g.build with
  | none => exact absurd (view_own hg hb) hown
  | some b =>
    by_cases hi : b.slotIndex = i
    · simp [view, hb, buildView, hi]
      omega
    · exact absurd (by simp [view, Act.view, hg, hb, buildView, hi, View.nothing]) hown

/-- A build handle taken up is a reference and the slot's ownership. -/
lemma view_build (hg : g.act = .idle) (hb : g.build = none) (b : BuildHandle) :
    { g with build := some b }.view b.slotIndex =
      (g.on b.slotIndex ⟨1, .builder b.generation b.inserted, .none⟩).view b.slotIndex := by
  rw [view_on_self hg, view_own hg hb]
  simp [view, Act.view, hg, hb, buildView, View.nothing]

lemma view_build_of_ne {b : BuildHandle} (hb : g.build = none) (hj : j ≠ b.slotIndex) :
    { g with build := some b }.view j = g.view j := by
  simp [view, hb, buildView, Ne.symm hj]

/-- A probe handle taken up is a reference. -/
lemma view_probe (hg : g.act = .idle) (h : ProbeHandle) :
    { g with probes := h ::ₘ g.probes }.view h.slotIndex =
      (g.on h.slotIndex ⟨1, .none, .none⟩).view h.slotIndex := by
  rw [view_on_self hg]
  simp [view, Act.view, hg, View.nothing]
  omega

lemma view_probe_of_ne {h : ProbeHandle} (hj : j ≠ h.slotIndex) :
    { g with probes := h ::ₘ g.probes }.view j = g.view j := by
  simp [view, Ne.symm hj]

end FilterRole

/-! ### The outline -/

/-- The hash was not inserted before the filter of generation `g` was published,
and that filter has been published or given up. -/
def PoolSlot.Absent (s : PoolSlot) (g : ℕ) (hash : UInt64) : Prop :=
  hash ∉ s.published g ∧ (g < s.header.generation ∨
    g = s.header.generation ∧ (s.header.state = .ready ∨ s.header.state = .disabled))

/-- A lookup raises a reference count that is not zero and has not reached its
largest value. -/
def Counted : FilterOp → PoolSlot → Prop
  | .addRef _, s => 0 < s.refs ∧ s.refs < maxRefs
  | _, _ => True

instance : ∀ op s, Decidable (Counted op s)
  | .addRef _, _ => inferInstanceAs (Decidable (_ ∧ _))
  | .casState .., _ | .loadState _, _ | .storeState .., _ | .storeRefs .., _ | .subRef _, _
  | .loadField .., _ | .storeField .., _ | .loadHeader _, _ | .casHeader .., _ | .loadWord .., _
  | .orWord .., _ | .storeWord .., _ => isTrue trivial

/-- The condition on the accesses of a run. -/
def counted (_ : ℕ) (op : FilterOp) (x : ℕ → PoolSlot) : Prop := Counted op (x op.slot)

/-- An allocation that gives its slot up takes back the only reference. -/
def Undone : FilterOp → PoolSlot → Prop
  | .storeRefs _ 0, s => s.refs = 1
  | _, _ => True

variable (params : BloomParams) (exact : Prop)

/-- The generations of the slot are used up, and nobody has seen it ready. -/
def Spent (s : PoolSlot) (v : ℕ → View) : Prop := s.Dead ∧ ∀ p n, (v p).aux ≠ .probing n

/-- Every slot agrees with the views of the processes, or, unless the count is to be
`exact`, its generations are used up; what a process has found absent is. -/
structure PoolInv (x : ℕ → PoolSlot) (ρ : ℕ → FilterRole) : Prop where
  slot : ∀ i, (¬ exact ∧ Spent (x i) fun p => (ρ p).view i) ∨
    SlotOk params (x i) fun p => (ρ p).view i
  absent : ∀ p, ∀ t ∈ (ρ p).absent, (x t.1).Absent t.2.1 t.2.2

/-- The outline of a pool. For an `exact` count, allocations that are given up have
to take back the only reference. -/
def poolOutline : Outline poolMachine FilterRole where
  Inv := PoolInv params exact
  cond p op x := counted p op x ∧ (exact → Undone op (x op.slot))

/-- What an access to slot `i`, by process `p` that goes from role `g` to role `g'`,
owes to the invariant. -/
structure Keeps (p i : ℕ) (g g' : FilterRole) (s s' : PoolSlot) (v : ℕ → View) : Prop where
  slot : SlotOk params s v → (¬ exact ∧ s.Dead) ∨ SlotOk params s' (Function.update v p (g'.view i))
  frame : ∀ j, j ≠ i → g'.view j = g.view j
  dead : s.Dead → s'.Dead
  calm : s.Dead → ∀ n, (g'.view i).aux ≠ .probing n
  past : ∀ n hash, s.Absent n hash → s'.Absent n hash
  absent : ∀ t ∈ g'.absent, t ∈ g.absent ∨ t.1 = i ∧ s'.Absent t.2.1 t.2.2

variable {params exact} {p i : ℕ} {g g' : FilterRole}

variable {v : ℕ → View}

/-- Nobody has seen a slot ready whose generations are used up. -/
lemma spent_of_dead {s : PoolSlot}
    (hs : (¬ exact ∧ Spent s v) ∨ SlotOk params s v) (hd : s.Dead) : Spent s v := by
  rcases hs with hs | hs
  · exact hs.2
  · refine ⟨hd, fun q n hq => ?_⟩
    have hfits := (hs.fits q).aux
    rw [hq] at hfits
    exact hd.2.ne_ready (by rw [show s.header = _ from hfits])

variable {x : ℕ → PoolSlot} {ρ : ℕ → FilterRole}

/-- An access keeps the invariant when it does what it owes. -/
lemma PoolInv.step {s' : PoolSlot} (h : PoolInv params exact x ρ) (hg : ρ p = g)
    (hk : Keeps params exact p i g g' (x i) s' fun q => (ρ q).view i) :
    PoolInv params exact (Function.update x i s') (Function.update ρ p g') := by
  have hview : ∀ j, (fun q => (Function.update ρ p g' q).view j) =
      Function.update (fun q => (ρ q).view j) p (g'.view j) := fun j => by
    funext q
    by_cases hq : q = p
    · subst hq
      simp
    · simp [hq]
  refine ⟨fun j => ?_, fun q => ?_⟩
  · rw [hview]
    by_cases hj : j = i
    · subst hj
      rw [Function.update_self]
      -- a slot whose generations are used up stays that way
      have hspent : (x j).Dead → Spent s' (Function.update (fun q => (ρ q).view j) p (g'.view j)) :=
        fun hd => ⟨hk.dead hd, Function.forall_update_iff _
          (fun _ w => ∀ n, View.aux w ≠ .probing n) |>.mpr
          ⟨hk.calm hd, fun q _ => (spent_of_dead (h.slot j) hd).2 q⟩⟩
      rcases h.slot j with ⟨hx, hd⟩ | hs
      · exact Or.inl ⟨hx, hspent hd.1⟩
      · exact (hk.slot hs).imp_left fun hd => ⟨hd.1, hspent hd.2⟩
    · rw [Function.update_of_ne hj, hk.frame j hj, ← hg, Function.update_eq_self]
      exact h.slot j
  · -- what was absent before the access is absent after it
    have hpast : ∀ t : ℕ × ℕ × UInt64, (x t.1).Absent t.2.1 t.2.2 →
        (Function.update x i s' t.1).Absent t.2.1 t.2.2 := by
      intro t ht
      by_cases hi : t.1 = i
      · rw [hi, Function.update_self]
        rw [hi] at ht
        exact hk.past _ _ ht
      · rwa [Function.update_of_ne hi]
    by_cases hq : q = p
    · subst hq
      rw [Function.update_self]
      intro t ht
      rcases hk.absent t ht with hold | ⟨hi, hnew⟩
      · exact hpast t (h.absent q t (by rwa [hg]))
      · rwa [hi, Function.update_self]
    · rw [Function.update_of_ne hq]
      exact fun t ht => hpast t (h.absent q t ht)

/-! ### Rules for accesses -/

section

variable {α : Type} (op : FilterOp) {f : filterAccess.Res op → Prog filterAccess α}
  {Q : α → FilterRole → Prop}

/-- The rule for an access to a slot. -/
lemma wp_slot
    (h : ∀ s v, (¬ exact ∧ Spent s v) ∨ SlotOk params s v → v p = g.view op.slot → Counted op s →
      (exact → Undone op s) →
      ∃ r s' g', s.exec p op = (r, s') ∧ Keeps params exact p op.slot g g' s s' v ∧
        (poolOutline params exact).wp p (f r) Q g') :
    (poolOutline params exact).wp p (onPool op >>= f) Q g := by
  refine Outline.wp_step trivial fun x ρ hI hg hc => ?_
  obtain ⟨r, s', g', he, hk, hwp⟩ := h (x op.slot) (fun q => (ρ q).view op.slot) (hI.slot _)
    (by rw [hg]) hc.1 hc.2
  exact ⟨r, Function.update x op.slot s', g', by simp [poolMachine, poolExec, he],
    hI.step hg hk, hwp⟩

/-- The role differs only in what it makes of the process to slot `i`, and does not
say that the process has seen the slot ready. -/
structure FilterRole.Near (i : ℕ) (g g' : FilterRole) : Prop where
  view : ∀ j, j ≠ i → g'.view j = g.view j
  absent : g'.absent = g.absent
  calm : ∀ n, (g'.view i).aux ≠ .probing n

namespace FilterRole.Near

lemma self (hg : g.act = .idle) (w : View) : (g.on i w).Near i g :=
  ⟨fun _ hj => (view_on_of_ne hg hj).symm, rfl, by simp [view_aux hg]⟩

lemma on (hg : g.act = .idle) (w w' : View) (hw : ∀ n, w'.aux ≠ .probing n) :
    (g.on i w).Near i (g.on i w') :=
  ⟨fun _ hj => (view_on_of_ne hg hj).trans (view_on_of_ne hg hj).symm, rfl,
    by rw [view_on_self hg]; exact hw⟩

lemma enter (hg : g.act = .idle) (w : View) (hw : ∀ n, w.aux ≠ .probing n) :
    g.Near i (g.on i w) :=
  ⟨fun _ hj => view_on_of_ne hg hj, rfl, by rw [view_on_self hg]; exact hw⟩

lemma rest (hg : g.act = .idle) : g.Near i g :=
  ⟨fun _ _ => rfl, rfl, by simp [view_aux hg]⟩

lemma build (hg : g.act = .idle) (hb : g.build = none) (b : BuildHandle) (w : View) :
    (g.on b.slotIndex w).Near b.slotIndex { g with build := some b } :=
  ⟨fun _ hj => (view_build_of_ne hb hj).trans (view_on_of_ne hg hj).symm, rfl,
    by simp [view_aux (g := { g with build := some b }) hg]⟩

lemma probe (hg : g.act = .idle) (h : ProbeHandle) (w : View) :
    (g.on h.slotIndex w).Near h.slotIndex { g with probes := h ::ₘ g.probes } :=
  ⟨fun _ hj => (view_probe_of_ne hj).trans (view_on_of_ne hg hj).symm, rfl,
    by simp [view_aux (g := { g with probes := h ::ₘ g.probes }) hg]⟩

end FilterRole.Near

variable {s s' : PoolSlot} {v : ℕ → View}

/-- An access that leaves the lifecycle alone. -/
lemma Keeps.plain (hn : g.Near i g')
    (hheader : s'.header = s.header) (hpub : s'.published = s.published)
    (hslot : SlotOk params s v → SlotOk params s' (Function.update v p (g'.view i))) :
    Keeps params exact p i g g' s s' v where
  slot := fun hs => Or.inr (hslot hs)
  frame := hn.view
  dead := fun hd => by rwa [PoolSlot.Dead, hheader]
  calm := fun _ => hn.calm
  past := fun n hash ha => by rwa [PoolSlot.Absent, hheader, hpub]
  absent := fun t ht => Or.inl (by rwa [← hn.absent])

/-- An access that leaves the lifecycle alone, of a slot that does not agree with the
views. -/
lemma Keeps.spent (hn : g.Near i g') (hno : ¬ SlotOk params s v)
    (hheader : s'.header = s.header) (hpub : s'.published = s.published) :
    Keeps params exact p i g g' s s' v where
  slot := fun hs => absurd hs hno
  frame := hn.view
  dead := fun hd => by rwa [PoolSlot.Dead, hheader]
  calm := fun _ => hn.calm
  past := fun n hash ha => by rwa [PoolSlot.Absent, hheader, hpub]
  absent := fun t ht => Or.inl (by rwa [← hn.absent])

/-- An access that leaves the lifecycle alone, but may drop references, of a slot
whose generations are used up. -/
lemma Keeps.giveUp {n : ℕ} {m : Multiset ℕ} (hn : g.Near i g') (hd : s.Dead)
    (hslot : SlotOk params s v → ¬ exact ∨
      SlotOk params { s with refs := n, holds := m } (Function.update v p (g'.view i))) :
    Keeps params exact p i g g' s { s with refs := n, holds := m } v where
  slot := fun hs => (hslot hs).imp_left fun hx => ⟨hx, hd⟩
  frame := hn.view
  dead := id
  calm := fun _ => hn.calm
  past := fun _ _ ha => ha
  absent := fun t ht => Or.inl (by rwa [← hn.absent])

/-- An access that moves the lifecycle on, of a slot whose generations are not used
up: to a later generation, away from building, or to rest. -/
lemma Keeps.advance (hn : g.Near i g') (hdead : ¬ s.Dead)
    (hpub : ∀ n, s'.published n = s.published n ∨
      n = s.header.generation ∧ s.header.state = .building)
    (hheader : s.header.generation < s'.header.generation ∨
      s'.header.generation = s.header.generation ∧
        (s.header.state = .building ∨ s'.header.state = .disabled))
    (hslot : SlotOk params s v → SlotOk params s' (Function.update v p (g'.view i))) :
    Keeps params exact p i g g' s s' v where
  slot := fun hs => Or.inr (hslot hs)
  frame := hn.view
  dead := fun hd => absurd hd hdead
  calm := fun _ => hn.calm
  past := fun n hash ⟨hnot, hn⟩ => by
    have hold : ¬ (n = s.header.generation ∧ s.header.state = .building) := by
      rintro ⟨hgen, hb⟩
      rcases hn with hlt | ⟨-, hs | hs⟩
      · exact absurd hgen hlt.ne
      · rw [hb] at hs
        cases hs
      · rw [hb] at hs
        cases hs
    refine ⟨by rw [(hpub n).resolve_right hold]; exact hnot, ?_⟩
    rcases hheader with hlt | ⟨heq, hs⟩
    · refine Or.inl (lt_of_le_of_lt ?_ hlt)
      rcases hn with hn | ⟨hn, -⟩
      · exact hn.le
      · exact hn.le
    · rw [heq]
      rcases hn with hn | ⟨hn, hstate⟩
      · exact Or.inl hn
      · exact Or.inr ⟨hn, Or.inr (hs.resolve_left fun hb => hold ⟨hn, hb⟩)⟩
  absent := fun t ht => Or.inl (by rwa [← hn.absent])

/-- The rule for an access that leaves the lifecycle alone. -/
lemma wp_plain
    (h : ∀ s v, (¬ exact ∧ Spent s v) ∨ SlotOk params s v → v p = g.view op.slot → Counted op s →
      ∃ r s' g', s.exec p op = (r, s') ∧ g.Near op.slot g' ∧ s'.header = s.header ∧
        s'.published = s.published ∧
        (SlotOk params s v → SlotOk params s' (Function.update v p (g'.view op.slot))) ∧
        (poolOutline params exact).wp p (f r) Q g') :
    (poolOutline params exact).wp p (onPool op >>= f) Q g := by
  refine wp_slot op fun s v hs hv hc _ => ?_
  obtain ⟨r, s', g', he, hn, hheader, hpub, hslot, hwp⟩ := h s v hs hv hc
  exact ⟨r, s', g', he, .plain hn hheader hpub hslot, hwp⟩

/-- The rule for an access that leaves the slot alone and the role as it is. -/
lemma wp_look
    (h : ∀ s v, (¬ exact ∧ Spent s v) ∨ SlotOk params s v → v p = g.view op.slot →
      ∃ r, s.exec p op = (r, s) ∧ (poolOutline params exact).wp p (f r) Q g) :
    (poolOutline params exact).wp p (onPool op >>= f) Q g := by
  refine wp_slot op fun s v hs hv _ _ => ?_
  obtain ⟨r, he, hwp⟩ := h s v hs hv
  refine ⟨r, s, g, he, ⟨fun hs => Or.inr ?_, fun _ _ => rfl, id, fun hd n => ?_, fun _ _ => id,
    fun _ => Or.inl⟩, hwp⟩
  · rwa [← hv, Function.update_eq_self]
  · rw [← hv]
    exact (spent_of_dead hs hd).2 p n

end

/-! ### Allocating -/

variable {n : ℕ}

/-- An owner that has counted itself stores the target of its filter. -/
lemma wp_storeTarget {α : Type} {Q : α → FilterRole → Prop} {k : Unit → Prog filterAccess α}
    {fld : Field} (hg : g.act = .idle)
    (hk : (poolOutline params exact).wp p (k ()) Q (g.on i ⟨1, .counted, .none⟩)) :
    (poolOutline params exact).wp p (storeField i fld n >>= k) Q (g.on i ⟨1, .counted, .none⟩) := by
  refine wp_plain (.storeField i fld n) fun s v _ hv _ =>
    ⟨_, _, _, rfl, .on hg _ _ (by simp), rfl, rfl, fun hs => ?_, hk⟩
  rw [FilterOp.slot] at hv ⊢
  rw [← hv, Function.update_eq_self]
  exact hs.storeTarget (p := p) (by rw [hv, FilterRole.view_on_self hg]; rfl) fld n

/-- `clearWords` keeps the slot its owner's. -/
lemma wp_clearWords (hg : g.act = .idle) (ws : List ℕ) :
    (poolOutline params exact).wp p (clearWords i ws)
      (fun _ g' => g' = g.on i ⟨1, .acquired n, .none⟩) (g.on i ⟨1, .acquired n, .none⟩) := by
  induction ws with
  | nil => exact rfl
  | cons w ws ih =>
    refine wp_plain (.storeWord i w 0) fun s v _ hv _ =>
      ⟨_, _, _, rfl, .on hg _ _ (by simp), rfl, rfl, fun hs => ?_, ih⟩
    rw [FilterOp.slot] at hv ⊢
    rw [← hv, Function.update_eq_self]
    exact hs.clear (p := p) (by rw [hv, FilterRole.view_on_self hg]; rfl) w 0

/-- What an attempt to acquire the lifecycle leads to: the next generation, or the
discovery that there is none. -/
def Acquired (g : FilterRole) (i : ℕ) : Except LifecycleError ℕ → FilterRole → Prop
  | .ok n, g' => g' = g.on i ⟨1, .acquired n, .none⟩
  | .error _, g' => g' = g.on i ⟨1, .refused, .none⟩

/-- The lifecycle of a slot is at rest while its allocator has only been counted. -/
lemma quiet_of_counted {s : PoolSlot} (hg : g.act = .idle)
    (hs : (¬ exact ∧ Spent s v) ∨ SlotOk params s v)
    (hv : v p = (g.on i ⟨1, .counted, .none⟩).view i) :
    s.header.Quiet := by
  rcases hs with ⟨-, hd⟩ | hs
  · exact hd.1.2
  · have hfits := (hs.fits p).own
    rw [hv, FilterRole.view_on_self hg] at hfits
    exact hfits.2

/-- One round of `tryAcquireBuilder`. -/
lemma wp_tryAcquireRound (hg : g.act = .idle) :
    (poolOutline params exact).wp p (tryAcquireRound params i)
      (fun r g' => r.elim (fun _ => g' = g.on i ⟨1, .counted, .none⟩) fun b => Acquired g i b g')
      (g.on i ⟨1, .counted, .none⟩) := by
  refine wp_slot (.loadHeader i) fun s v hs hv _ _ => ?_
  rw [FilterOp.slot] at hv ⊢
  have hquiet := quiet_of_counted hg hs hv
  have hstate : ¬ (s.header.state = .building ∨ s.header.state = .ready) :=
    not_or.mpr ⟨hquiet.ne_building, hquiet.ne_ready⟩
  by_cases hmax : maxGeneration ≤ s.header.generation
  · -- no generation is left, and the slot is given up
    refine ⟨_, s, g.on i ⟨1, .refused, .none⟩, rfl, .plain (.on hg _ _ (by simp)) rfl rfl fun hs =>
      ?_, ?_⟩
    · have hw : (g.on i ⟨1, .refused, .none⟩).view i = { v p with own := .refused } := by
        rw [hv, FilterRole.view_on_self hg, FilterRole.view_on_self hg]
        rfl
      rw [hw]
      exact hs.refuse (by rw [hv, FilterRole.view_on_self hg]; rfl) ⟨hmax, hquiet⟩
    · rw [if_neg hstate, if_pos (show s.header.generation + 1 > maxGeneration by omega)]
      exact rfl
  refine ⟨_, s, g.on i ⟨1, .counted, .none⟩, rfl, .plain (.on hg _ _ (by simp)) rfl rfl fun hs =>
    ?_, ?_⟩
  · rwa [← hv, Function.update_eq_self]
  rw [if_neg hstate, if_neg (show ¬ s.header.generation + 1 > maxGeneration by omega)]
  refine wp_slot (.casHeader i s.header ⟨s.header.generation + 1, .building⟩ [])
    fun t u ht hu _ _ => ?_
  rw [FilterOp.slot] at hu ⊢
  by_cases hcur : t.header = s.header
  · refine ⟨none, { t with header := ⟨s.header.generation + 1, .building⟩ },
      g.on i ⟨1, .acquired (s.header.generation + 1), .none⟩, ?_, ?_, ?_⟩
    · simp [PoolSlot.exec, hcur]
    · refine .advance (.on hg _ _ (by simp)) (fun hd => hmax (by rw [← hcur]; exact hd.1))
        (fun _ => Or.inl rfl) (Or.inl (by rw [hcur]; exact Nat.lt_succ_self _)) fun ht => ?_
      have hw : (g.on i ⟨1, .acquired (s.header.generation + 1), .none⟩).view i =
          { u p with own := .acquired (s.header.generation + 1) } := by
        rw [hu, FilterRole.view_on_self hg, FilterRole.view_on_self hg]
        rfl
      rw [hw]
      exact ht.acquire (by rw [hu, FilterRole.view_on_self hg]; rfl) _
    · exact Outline.wp_seq (wp_clearWords hg _) fun _ g' hg' => hg'
  · refine ⟨some t.header, t, g.on i ⟨1, .counted, .none⟩, ?_, .plain (.on hg _ _ (by simp)) rfl rfl
      fun ht => ?_, rfl⟩
    · simp [PoolSlot.exec, hcur]
    · rwa [← hu, Function.update_eq_self]

/-- `tryAcquireBuilder` acquires the next generation, unless there is none. -/
lemma wp_tryAcquireBuilder (hg : g.act = .idle) :
    (poolOutline params exact).wp p (tryAcquireBuilder params i) (Acquired g i)
      (g.on i ⟨1, .counted, .none⟩) := by
  refine Outline.wp_repeat (fun _ g' => g' = g.on i ⟨1, .counted, .none⟩)
    (fun _ _ _ => trivial) rfl fun _ _ hI => ?_
  rw [hI]
  exact wp_tryAcquireRound hg

/-- `allocateFrom` returns a build handle, or nothing and leaves the role as it was. -/
lemma wp_allocateFrom (hg : g.act = .idle) (hb : g.build = none) (target : Target) (is : List ℕ) :
    (poolOutline params exact).wp p (allocateFrom params target is)
      (fun r g' => g' = match r with
        | .ok b => { g with build := b }
        | .error _ => g) g := by
  induction is with
  | nil => exact show g = { g with build := none } by rw [← hb]
  | cons i is ih =>
    refine wp_plain (.casState i .free .allocated) fun s v hs hv _ => ?_
    rw [FilterOp.slot] at hv ⊢
    by_cases hfree : s.state = .free
    swap
    · refine ⟨false, s, g, by simp [PoolSlot.exec, hfree], .rest hg, rfl, rfl,
         fun hs => ?_, by simpa using ih⟩
      rwa [← hv, Function.update_eq_self]
    refine ⟨true, { s with state := .allocated }, g.on i ⟨0, .claimed, .none⟩,
      by simp [PoolSlot.exec, hfree], .enter hg _ (by simp), rfl, rfl, fun hs => ?_, ?_⟩
    · have hw : (g.on i ⟨0, .claimed, .none⟩).view i = { v p with own := .claimed } := by
        rw [hv, FilterRole.view_on_self hg, Nat.zero_add, ← FilterRole.view_aux (i := i) hg]
        rfl
      rw [hw]
      exact hs.claim hfree
    rw [if_pos rfl]
    refine wp_plain (.storeRefs i 1) fun s v hs hv _ =>
      ⟨_, _, g.on i ⟨1, .counted, .none⟩, rfl, .on hg _ _ (by simp), rfl, rfl, fun hs => ?_, ?_⟩
    · rw [FilterOp.slot] at hv ⊢
      have hw : (g.on i ⟨1, .counted, .none⟩).view i =
          { v p with refs := (v p).refs + 1, own := .counted } := by
        rw [hv, FilterRole.view_on_self hg, FilterRole.view_on_self hg]
        simp [Own.or, Nat.add_comm]
      rw [hw]
      exact hs.countFirst (by rw [hv, FilterRole.view_on_self hg]; rfl)
    refine wp_storeTarget hg (wp_storeTarget hg (wp_storeTarget hg (wp_storeTarget hg ?_)))
    refine Outline.wp_seq (wp_tryAcquireBuilder hg) fun r g' hr => ?_
    cases r with
    | ok n =>
      rw [show g' = _ from hr]
      refine wp_plain (.storeField i .generation n) fun s v hs hv _ =>
        ⟨_, _, { g with build := some ⟨i, n, []⟩ }, rfl, .build hg hb ⟨i, n, []⟩ _, rfl, rfl,
          fun hs => ?_, rfl⟩
      rw [FilterOp.slot] at hv ⊢
      have hw : { g with build := some ⟨i, n, []⟩ }.view i =
          { v p with own := .builder n [] } := by
        rw [FilterRole.view_build hg hb ⟨i, n, []⟩, hv, FilterRole.view_on_self hg,
          FilterRole.view_on_self hg]
        rfl
      rw [hw]
      exact hs.name (by rw [hv, FilterRole.view_on_self hg]; rfl)
    | error e =>
      -- the slot is given up, and the references that are counted with it
      rw [show g' = _ from hr]
      refine wp_slot (.storeRefs i 0) fun s v hs hv _ hx => ?_
      rw [FilterOp.slot] at hv ⊢
      refine ⟨_, _, g.on i ⟨0, .claimed, .none⟩, rfl, .giveUp (.on hg _ _ (by simp)) ?_ fun hs =>
        ?_, ?_⟩
      · rcases hs with ⟨-, hd⟩ | hs
        · exact hd.1
        · have hfits := (hs.fits p).own
          rw [hv, FilterRole.view_on_self hg] at hfits
          exact hfits.2
      · have hown : (v p).own = .refused := by rw [hv, FilterRole.view_on_self hg]; rfl
        by_cases hlast : s.refs = 1
        · refine Or.inr ?_
          have hrefs : (g.view i).refs = 0 := by
            have hcount := Multiset.count_le_card p s.holds
            rw [hs.count, hv, FilterRole.view_on_self hg, ← hs.refs, hlast] at hcount
            exact Nat.le_zero.mp (Nat.le_of_add_le_add_left hcount)
          have hw : (g.on i ⟨0, .claimed, .none⟩).view i =
              { v p with refs := 0, own := .claimed } := by
            rw [hv, FilterRole.view_on_self hg, FilterRole.view_on_self hg, hrefs]
            rfl
          rw [hw]
          exact hs.uncount hown hlast
        · exact Or.inl fun hexact => hlast (hx hexact)
      refine wp_plain (.storeState i .free) fun s v hs hv _ =>
        ⟨_, _, g, rfl, .self hg _, rfl, rfl, fun hs => ?_, rfl⟩
      rw [FilterOp.slot] at hv ⊢
      have hw : g.view i = { v p with own := .none } := by
        rw [hv, FilterRole.view_on_self hg, Nat.zero_add, ← FilterRole.view_aux (i := i) hg,
          ← FilterRole.view_own (i := i) hg hb]
      rw [hw]
      exact hs.unclaim (by rw [hv, FilterRole.view_on_self hg]; rfl)
        (by rw [hv, FilterRole.view_on_self hg])

/-! ### Dropping references -/

/-- The role of a process that retires slot `i` or has seen it ready. -/
def FilterRole.withAux (g : FilterRole) (i : ℕ) (aux : Aux) : FilterRole := g.on i ⟨0, .none, aux⟩

lemma FilterRole.view_withAux (hg : g.act = .idle) (aux : Aux) :
    (g.withAux i aux).view i = ⟨(g.view i).refs, (g.view i).own, aux⟩ := by
  rw [FilterRole.withAux, FilterRole.view_on_self hg, Nat.zero_add, Own.none_or]

/-- The process that retires a slot reads or writes it. -/
lemma Keeps.retire {s s' : PoolSlot} {aux aux' : Aux} (hg : g.act = .idle)
    (hv : v p = (g.withAux i aux).view i) (haux : aux.retires) (haux' : aux'.retires)
    (hheader : s'.header = s.header) (hpub : s'.published = s.published) (hbits : s'.bits = s.bits)
    (hstate : s'.state = s.state) (hrefs : s'.refs = s.refs) (hholds : s'.holds = s.holds)
    (hfits : AuxFits s aux → AuxFits s' aux') :
    Keeps params exact p i (g.withAux i aux) (g.withAux i aux') s s' v := by
  have hcalm : ∀ n, aux' ≠ .probing n := by
    rintro n rfl
    exact haux'.elim
  refine .plain (.on hg _ _ hcalm) hheader hpub fun hs => ?_
  have hw : (g.withAux i aux').view i = { v p with aux := aux' } := by
    rw [hv, FilterRole.view_withAux hg, FilterRole.view_withAux hg]
  have hret : (v p).retires := by
    rw [hv, FilterRole.view_withAux hg]
    exact haux
  rw [hw]
  refine hs.retire hret haux' hstate hrefs hholds ?_ (hfits ?_)
  · rw [hheader, hpub]
    intro hr a ha k hk
    rw [PoolSlot.Bit, hbits]
    exact hs.ready hr a ha k hk
  · have := (hs.fits p).aux
    rwa [hv, FilterRole.view_withAux hg] at this

/-- The target of a retired slot is wiped. -/
lemma wp_wipe {α : Type} {Q : α → FilterRole → Prop} {k : Unit → Prog filterAccess α}
    {fld : Field} (hg : g.act = .idle)
    (hk : (poolOutline params exact).wp p (k ()) Q (g.withAux i .retired)) :
    (poolOutline params exact).wp p (storeField i fld 0 >>= k) Q (g.withAux i .retired) :=
  wp_slot (.storeField i fld 0) fun _ _ _ hv _ _ =>
    ⟨_, _, g.withAux i .retired, rfl, .retire hg hv trivial trivial rfl rfl rfl rfl rfl rfl id, hk⟩

/-- The exchange that puts the lifecycle of a retiring slot to rest. -/
lemma wp_putToRest {α : Type} {Q : α → FilterRole → Prop}
    {k : Option LifecycleSnapshot → Prog filterAccess α} {st : RuntimeFilterState}
    (hg : g.act = .idle) (hst : ¬ LifecycleSnapshot.Quiet ⟨n, st⟩)
    (hk : ∀ r, (poolOutline params exact).wp p (k r) Q (g.withAux i .retired)) :
    (poolOutline params exact).wp p (casHeader i ⟨n, st⟩ ⟨n, .disabled⟩ [] >>= k) Q
      (g.withAux i (.leaving ⟨n, st⟩)) := by
  refine wp_slot (.casHeader i ⟨n, st⟩ ⟨n, .disabled⟩ []) fun s v hs hv _ _ => ?_
  rw [FilterOp.slot] at hv ⊢
  by_cases hheader : s.header = ⟨n, st⟩
  · have hdead : ¬ s.Dead := fun hd => hst (hheader ▸ hd.2)
    refine ⟨none, { s with header := ⟨n, .disabled⟩ }, g.withAux i .retired,
      by simp [PoolSlot.exec, hheader], .advance (.on hg _ _ (by simp)) hdead (fun _ => Or.inl rfl)
        (Or.inr ⟨by rw [hheader], Or.inr rfl⟩) fun hs => ?_, hk none⟩
    have hw : (g.withAux i .retired).view i = { v p with aux := .retired } := by
      rw [hv, FilterRole.view_withAux hg, FilterRole.view_withAux hg]
    have hret : (v p).retires := by
      rw [hv, FilterRole.view_withAux hg]
      trivial
    have haux := (hs.fits p).aux.of_retires hret
    rw [hw]
    exact hs.retire hret trivial rfl rfl rfl (fun hr => by cases hr)
      ⟨haux.1, haux.2, Or.inr rfl⟩
  · -- nobody else moves the lifecycle on, unless its generations are used up
    refine ⟨some s.header, s, g.withAux i .retired, by simp [PoolSlot.exec, hheader], ?_, hk _⟩
    refine .spent (.on hg _ _ (by simp)) (fun hs => ?_) rfl rfl
    have hfits := (hs.fits p).aux
    rw [hv, FilterRole.view_withAux hg] at hfits
    exact hheader hfits.2.2

/-- The wiping that ends `retireSlot`. -/
lemma wp_wipeSlot (hg : g.act = .idle) :
    (poolOutline params exact).wp p (do
        storeField i .sessionEpoch 0
        storeField i .scanId 0
        storeField i .outputColumn 0
        storeField i .keyType 0
        storeField i .generation 0
        storeState i .free) (fun _ g' => g' = g) (g.withAux i .retired) := by
  refine wp_wipe hg (wp_wipe hg (wp_wipe hg (wp_wipe hg (wp_wipe hg ?_))))
  refine Outline.wp_last (wp_plain (.storeState i .free) fun s v _ hv _ =>
    ⟨_, _, g, rfl, .self hg _, rfl, rfl, fun hs => ?_, rfl⟩)
  rw [FilterOp.slot] at hv ⊢
  have hw : g.view i = { v p with aux := .none } := by
    rw [hv, FilterRole.view_withAux hg, ← FilterRole.view_aux (i := i) hg]
  rw [hw]
  exact hs.free_slot (by rw [hv, FilterRole.view_withAux hg])

/-- `retireSlot` frees the slot. -/
lemma wp_retireSlot (hg : g.act = .idle) :
    (poolOutline params exact).wp p (retireSlot i) (fun _ g' => g' = g)
      (g.withAux i .retiring) := by
  refine wp_slot (.loadField i .generation) fun s v _ hv _ _ =>
    ⟨_, _, g.withAux i (.named (s.field .generation)), rfl,
      .retire hg hv trivial trivial rfl rfl rfl rfl rfl rfl
        fun hf => ⟨hf.1, hf.2.1, hf.2.2.1.symm⟩, ?_⟩
  generalize s.field .generation = n
  refine wp_slot (.loadHeader i) fun s v _ hv _ _ => ?_
  by_cases hq : s.header.Quiet
  · refine ⟨_, _, g.withAux i .retired, rfl, .retire hg hv trivial trivial rfl rfl rfl rfl rfl rfl
      fun hf => ⟨hf.1, hf.2.1, hq⟩, ?_⟩
    rcases hq with hq | hq <;> rw [hq]
    · exact wp_wipeSlot hg
    · exact wp_wipeSlot hg
  · refine ⟨_, _, g.withAux i (.leaving ⟨n, s.header.state⟩), rfl,
      .retire hg hv trivial trivial rfl rfl rfl rfl rfl rfl fun hf => ⟨hf.1, hf.2.1, ?_⟩, ?_⟩
    · rw [← hf.2.2]
    · cases hst : s.header.state with
      | free => exact absurd (Or.inl hst) hq
      | disabled => exact absurd (Or.inr hst) hq
      | ready =>
        refine Outline.wp_bind (wp_putToRest hg (by simp [LifecycleSnapshot.Quiet]) fun r => ?_)
        cases r <;> exact wp_wipeSlot hg
      | building =>
        refine Outline.wp_bind (wp_putToRest hg (by simp [LifecycleSnapshot.Quiet]) fun r => ?_)
        cases r <;> exact wp_wipeSlot hg

/-- `releaseRef` drops the reference that the process holds besides its handles. -/
lemma wp_releaseRef (hg : g.act = .idle) :
    (poolOutline params exact).wp p (releaseRef i) (fun _ g' => g' = g)
      (g.on i ⟨1, .none, .none⟩) := by
  have hview : (g.on i ⟨1, .none, .none⟩).view i =
      ⟨(g.view i).refs + 1, (g.view i).own, (g.view i).aux⟩ := by
    rw [FilterRole.view_on_self hg, Own.none_or, Nat.add_comm, ← FilterRole.view_aux (i := i) hg]
  have hone : (g.view i).own ≠ .none → (g.view i).own ≠ .claimed → 1 ≤ (g.view i).refs :=
    fun ho _ => FilterRole.own_view_refs hg ho
  refine wp_plain (.subRef i) fun s v _ hv _ => ?_
  rw [FilterOp.slot] at hv ⊢
  have hv := hv.trans hview
  by_cases hlast : s.refs = 1
  · refine ⟨_, _, g.withAux i .retiring, rfl, .on hg _ _ (by simp), rfl, rfl, fun hs => ?_, ?_⟩
    · -- the process holds the last reference, so it owns nothing
      have hrefs : (g.view i).refs = 0 := by
        have hcount := Multiset.count_le_card p s.holds
        rw [hs.count, hv, ← hs.refs, hlast] at hcount
        exact Nat.le_zero.mp (Nat.le_of_succ_le_succ hcount)
      have hown : (g.view i).own = .none := by
        by_contra ho
        exact absurd (FilterRole.own_view_refs hg ho) (by omega)
      have hw : (g.withAux i .retiring).view i = { v p with refs := 0, aux := .retiring } := by
        rw [hv, FilterRole.view_withAux hg, hrefs]
      rw [hw, if_neg (by omega)]
      exact hs.subLast (by rw [hv, hrefs]) hlast (by rw [hv, hown])
    · rw [if_pos hlast]
      refine wp_slot (.loadState i) fun s v hs hv _ _ => ?_
      rw [FilterOp.slot] at hv ⊢
      by_cases hret : s.state = .retiring
      · refine ⟨_, s, g.withAux i .retiring, rfl,
          .retire hg hv trivial trivial rfl rfl rfl rfl rfl rfl id, ?_⟩
        rw [if_pos hret]
        exact wp_retireSlot hg
      · -- the owner has left, unless the generations of the slot are used up
        have hn : (g.withAux i .retiring).Near i g := .self hg _
        refine ⟨_, s, g, rfl, .spent hn (fun hs => ?_) rfl rfl, ?_⟩
        · have hfits := (hs.fits p).aux
          rw [hv, FilterRole.view_withAux hg] at hfits
          exact hret hfits.1
        rw [if_neg hret]
        exact rfl
  · refine ⟨_, _, g, rfl, .self hg _, rfl, rfl, fun hs => ?_, ?_⟩
    · have hpos : s.refs ≠ 0 := by
        have hmem := hs.mem_holds (p := p) (by rw [hv]; exact Nat.le_add_left _ _)
        rw [hs.refs]
        exact (Multiset.card_pos_iff_exists_mem.mpr ⟨p, hmem⟩).ne'
      have hw : g.view i = { v p with refs := (g.view i).refs } := by rw [hv]
      rw [if_neg hpos, hw]
      refine hs.subRef (by rw [hv]) hlast (by rw [hv]; exact hone) fun n hn => ?_
      rw [hv, FilterRole.view_aux hg] at hn
      cases hn
    · rw [if_neg hlast]
      exact rfl

variable {inserted : List UInt64}

/-- `releaseOwner` gives up the slot of a build handle. -/
lemma wp_releaseOwner (hg : g.act = .idle) (hb : g.build = none)
    :
    (poolOutline params exact).wp p (releaseOwner i) (fun _ g' => g' = g)
      (g.on i ⟨1, .builder n inserted, .none⟩) := by
  refine wp_plain (.casState i .allocated .retiring) fun s v hs hv _ => ?_
  rw [FilterOp.slot] at hv ⊢
  by_cases hstate : s.state = .allocated
  · refine ⟨true, { s with state := .retiring }, g.on i ⟨1, .none, .none⟩,
      by simp [PoolSlot.exec, hstate], .on hg _ _ (by simp), rfl, rfl, fun hs =>
        ?_, wp_releaseRef hg⟩
    have hw : (g.on i ⟨1, .none, .none⟩).view i = { v p with own := .none } := by
      rw [hv, FilterRole.view_on_self hg, FilterRole.view_on_self hg, FilterRole.view_own hg hb]
      rfl
    rw [hw]
    exact hs.close (by rw [hv, FilterRole.view_on_self hg]; rfl)
  · refine ⟨false, s, g.on i ⟨1, .none, .none⟩, by simp [PoolSlot.exec, hstate],
      .on hg _ _ (by simp), rfl, rfl, fun hs => ?_, wp_releaseRef hg⟩
    have hfits := (hs.fits p).own
    rw [hv, FilterRole.view_on_self hg] at hfits
    exact absurd hfits.1 hstate

/-! ### Building -/

/-- The bits of a hash are set one after the other, and with the last of them the
hash counts as inserted. -/
lemma wp_insertBits (hg : g.act = .idle) (hb : g.build = none)
    {hash : UInt64} (ks done : List ℕ) (hne : ks ≠ [])
    (hall : ∀ k ∈ List.range params.hashCount, k ∈ done ∨ k ∈ ks) :
    (poolOutline params exact).wp p (insertBits params i hash ks)
      (fun _ g' => g' = { g with build := some ⟨i, n, hash :: inserted⟩ })
      (g.on i ⟨1, .inserting n inserted hash done, .none⟩) := by
  induction ks generalizing done with
  | nil => exact absurd rfl hne
  | cons k ks ih =>
    have hstep : ∀ (s : PoolSlot) (v : ℕ → View), SlotOk params s v →
        v p = (g.on i ⟨1, .inserting n inserted hash done, .none⟩).view i →
        SlotOk params { s with
          bits := Function.update s.bits (params.wordMask hash k).1
            (s.bits (params.wordMask hash k).1 ||| (params.wordMask hash k).2) }
          (Function.update v p
            ((g.on i ⟨1, .inserting n inserted hash (k :: done), .none⟩).view i)) := by
      intro s v hs hv
      have hw : (g.on i ⟨1, .inserting n inserted hash (k :: done), .none⟩).view i =
          { v p with own := .inserting n inserted hash (k :: done) } := by
        rw [hv, FilterRole.view_on_self hg, FilterRole.view_on_self hg]
        rfl
      rw [hw]
      exact hs.orBits (by rw [hv, FilterRole.view_on_self hg]; rfl) k
    cases ks with
    | cons k' ks =>
      refine wp_plain (.orWord i _ _) fun s v _ hv _ =>
        ⟨_, _, _, rfl, .on hg _ _ (by simp), rfl, rfl,
        fun hs => hstep s v hs hv, ih (k :: done) (by simp) fun j hj => ?_⟩
      rcases hall j hj with hd | hd
      · exact Or.inl (List.mem_cons_of_mem _ hd)
      · rcases List.mem_cons.mp hd with rfl | hd
        · exact Or.inl List.mem_cons_self
        · exact Or.inr hd
    | nil =>
      refine wp_plain (.orWord i _ _) fun s v _ hv _ =>
        ⟨_, _, { g with build := some ⟨i, n, hash :: inserted⟩ }, rfl, .build hg hb ⟨i, n, _⟩ _,
          rfl, rfl, fun hs => ?_, rfl⟩
      have hset := hstep s v hs hv
      have hown : (Function.update v p ((g.on i ⟨1, .inserting n inserted hash (k :: done),
          .none⟩).view i) p).own = .inserting n inserted hash (k :: done) := by
        rw [Function.update_self, FilterRole.view_on_self hg]
        rfl
      have hins := hset.inserted hown fun j hj => ?_
      · rw [Function.update_idem, Function.update_self] at hins
        convert hins using 2
        rw [FilterOp.slot, FilterRole.view_build hg hb ⟨i, n, hash :: inserted⟩,
          FilterRole.view_on_self hg, FilterRole.view_on_self hg]
        rfl
      · rcases hall j hj with hd | hd
        · exact List.mem_cons_of_mem _ hd
        · exact List.mem_cons.mpr (Or.inl (List.mem_singleton.mp hd))

/-- `insertHash` inserts the hash. -/
lemma wp_insertHash (hg : g.act = .idle) (hb : g.build = none) (b : BuildHandle) (hash : UInt64) :
    (poolOutline params exact).wp p (insertHash params b hash)
      (fun _ g' => g' = { g with build := some { b with inserted := hash :: b.inserted } })
      (g.on b.slotIndex ⟨1, .builder b.generation b.inserted, .none⟩) := by
  refine wp_plain (.loadHeader b.slotIndex) fun s v _ hv _ => ?_
  rw [FilterOp.slot] at hv ⊢
  have hown : (v p).own = .builder b.generation b.inserted := by
    rw [hv, FilterRole.view_on_self hg]
    rfl
  by_cases hc : s.header.generation = b.generation ∧ s.header.state = .building
  · refine ⟨_, s, g.on b.slotIndex ⟨1, .inserting b.generation b.inserted hash [], .none⟩, rfl,
      .on hg _ _ (by simp), rfl, rfl, fun hs => ?_, ?_⟩
    · have hw : (g.on b.slotIndex ⟨1, .inserting b.generation b.inserted hash [], .none⟩).view
          b.slotIndex = { v p with own := .inserting b.generation b.inserted hash [] } := by
        rw [hv, FilterRole.view_on_self hg, FilterRole.view_on_self hg]
        rfl
      rw [hw]
      exact hs.insert hown hash
    · rw [if_pos hc]
      refine wp_insertBits hg hb _ _ ?_ fun k hk => Or.inr hk
      rw [Ne, List.range_eq_nil]
      exact params.hashCount_pos.ne'
  · refine ⟨_, s, { g with build := some { b with inserted := hash :: b.inserted } }, rfl,
      .build hg hb { b with inserted := hash :: b.inserted } _, rfl, rfl, fun hs => ?_, ?_⟩
    · have hw : { g with build := some { b with inserted := hash :: b.inserted } }.view
        b.slotIndex =
          { v p with own := .builder b.generation (hash :: b.inserted) } := by
        rw [FilterRole.view_build hg hb { b with inserted := hash :: b.inserted }, hv,
          FilterRole.view_on_self hg, FilterRole.view_on_self hg]
        rfl
      rw [hw]
      exact hs.insertLate hown hash hc
    · rw [if_neg hc]
      rfl

/-- The builder publishes its filter or gives it up. -/
lemma wp_transitionBuild (hg : g.act = .idle) (hb : g.build = none) (b : BuildHandle)
    {next : RuntimeFilterState} (hnext : next = .ready ∧ inserted = b.inserted ∨ next = .disabled) :
    (poolOutline params exact).wp p (transitionBuild b.slotIndex b.generation next inserted)
      (fun _ g' => g' = { g with build := some b })
      (g.on b.slotIndex ⟨1, .builder b.generation b.inserted, .none⟩) := by
  have hview := FilterRole.view_build hg hb b
  refine wp_slot (.casHeader b.slotIndex ⟨b.generation, .building⟩ ⟨b.generation, next⟩ inserted)
    fun s v _ hv _ _ => ?_
  rw [FilterOp.slot] at hv ⊢
  have hown : (v p).own = .builder b.generation b.inserted := by
    rw [hv, FilterRole.view_on_self hg]
    rfl
  by_cases hheader : s.header = ⟨b.generation, .building⟩
  · have hdead : ¬ s.Dead := fun hd => hd.2.ne_building (by rw [hheader])
    refine ⟨none, { s with
      header := ⟨b.generation, next⟩
      published := if next = .ready then Function.update s.published b.generation inserted
        else s.published }, { g with build := some b }, ?_, ?_, rfl⟩
    · rw [PoolSlot.exec, if_pos hheader]
    · refine .advance (.build hg hb b _) hdead (fun n => ?_)
        (Or.inr ⟨by rw [hheader], Or.inl (by rw [hheader])⟩) fun hs => ?_
      · by_cases hn : n = b.generation
        · exact Or.inr ⟨by rw [hheader, hn], by rw [hheader]⟩
        · refine Or.inl ?_
          dsimp only
          split
          · exact Function.update_of_ne hn _ _
          · rfl
      · rw [hview, ← hv, Function.update_eq_self]
        rcases hnext with ⟨rfl, rfl⟩ | rfl
        · exact hs.publish hown hheader
        · exact hs.disable hown hheader
  · refine ⟨some s.header, s, { g with build := some b }, by simp [PoolSlot.exec, hheader],
      .plain (.build hg hb b _) rfl rfl fun hs => ?_, rfl⟩
    rwa [hview, ← hv, Function.update_eq_self]

/-! ### Probing -/

/-- The recheck of a lookup only looks. -/
lemma wp_stillMatches {sessionEpoch scanId : ℕ} :
    (poolOutline params exact).wp p (stillMatches i sessionEpoch scanId)
      (fun _ g' => g' = g) g := by
  refine wp_look (.loadState i) fun s v _ _ => ⟨_, rfl, ?_⟩
  split
  · refine wp_look (.loadField i .sessionEpoch) fun s v _ _ => ⟨_, rfl, ?_⟩
    split
    · exact wp_look (.loadField i .scanId) fun s v _ _ => ⟨_, rfl, rfl⟩
    · rfl
  · rfl

/-- `lookupFrom` takes up the references of the probes that it returns. -/
lemma wp_lookupFrom (hg : g.act = .idle) (sessionEpoch scanId : ℕ) (is : List ℕ) :
    (poolOutline params exact).wp p (lookupFrom sessionEpoch scanId is)
      (fun r g' => g' = { g with probes := ↑r + g.probes }) g := by
  induction is generalizing g with
  | nil => exact show g = _ by rw [Multiset.coe_nil, zero_add]
  | cons i is ih =>
    refine wp_look (.loadState i) fun s v _ _ => ⟨_, rfl, ?_⟩
    by_cases hs : s.state = .allocated
    swap
    · rw [if_neg hs]
      exact ih hg
    rw [if_pos hs]
    -- the reference is dropped again unless the slot is one of the scan
    have hskip : (poolOutline params exact).wp p (do
          releaseRef i
          lookupFrom sessionEpoch scanId is)
        (fun r g' => g' = { g with probes := ↑r + g.probes }) (g.on i ⟨1, .none, .none⟩) :=
      Outline.wp_seq (wp_releaseRef hg) fun _ g' hg' => by rw [hg']; exact ih hg
    refine wp_plain (.addRef i) fun s v _ hv hc => ⟨_, _, g.on i ⟨1, .none, .none⟩, rfl,
      .enter hg _ (by simp), rfl, rfl, fun hs => ?_, ?_⟩
    · rw [FilterOp.slot] at hv ⊢
      have hw : (g.on i ⟨1, .none, .none⟩).view i = { v p with refs := (v p).refs + 1 } := by
        rw [hv, FilterRole.view_on_self hg, Own.none_or, Nat.add_comm,
          ← FilterRole.view_aux (i := i) hg]
      rw [hw, if_neg hc.2.ne]
      exact hs.addRef hc.1 hc.2
    refine Outline.wp_seq wp_stillMatches ?_
    rintro here _ rfl
    cases here with
    | false => exact hskip
    | true =>
      refine wp_look (.loadField i .keyType) fun s v _ _ => ⟨_, rfl, ?_⟩
      generalize s.field .keyType = keyType
      by_cases hk : keyTypeKnown keyType
      swap
      · rw [if_neg hk]
        exact hskip
      rw [if_pos hk]
      refine wp_look (.loadField i .generation) fun s v _ _ => ⟨_, rfl, ?_⟩
      generalize s.field .generation = n
      refine wp_plain (.loadField i .outputColumn) fun s v _ hv _ => ⟨_, _,
        { g with probes := ⟨i, n, s.field .outputColumn, keyType⟩ ::ₘ g.probes }, rfl,
        .probe hg ⟨i, n, s.field .outputColumn, keyType⟩ _, rfl, rfl, fun hs => ?_, ?_⟩
      · rw [FilterOp.slot] at hv ⊢
        rw [FilterRole.view_probe hg ⟨i, n, s.field .outputColumn, keyType⟩, ← hv,
          Function.update_eq_self]
        exact hs
      · refine Outline.wp_seq (ih (g := { g with probes := _ }) hg) ?_
        rintro r _ rfl
        exact show _ = _ by rw [← Multiset.cons_coe, Multiset.cons_add, Multiset.add_cons]

/-- A process that has seen slot `i` ready stops to look at it. -/
lemma SlotOk.leaveProbe (hg : g.act = .idle) {s : PoolSlot}
    (hs : SlotOk params s v) (hv : v p = (g.withAux i (.probing n)).view i) :
    SlotOk params s (Function.update v p (g.view i)) := by
  rw [FilterRole.view_withAux hg] at hv
  have hf := hs.fits p
  rw [hv] at hf
  have haux : (g.view i).aux = .none := FilterRole.view_aux hg
  refine hs.setView (by rw [hv]) ⟨hf.own, by rw [haux]; trivial, hf.own_refs, fun m hm => ?_⟩
    (by rw [hv]; exact id) (by rw [hv]; exact False.elim) ?_
  · rw [haux] at hm
    cases hm
  · rw [hv]
    rintro (ho | hr)
    · exact Or.inl ho
    · rw [View.retires, haux] at hr
      exact hr.elim

/-- A process that holds a reference to a slot sees it ready. -/
lemma SlotOk.enterProbe (hg : g.act = .idle) {s : PoolSlot}
    (hs : SlotOk params s v) (hv : v p = g.view i) (hrefs : 1 ≤ (g.view i).refs)
    (hheader : s.header = ⟨n, .ready⟩) :
    SlotOk params s (Function.update v p ((g.withAux i (.probing n)).view i)) := by
  have hf := hs.fits p
  rw [hv] at hf
  rw [FilterRole.view_withAux hg]
  refine hs.setView (by rw [hv]) ⟨hf.own, hheader, hf.own_refs, fun _ _ => hrefs⟩
    (by rw [hv]; exact id) ?_ ?_
  · rw [hv, View.retires, FilterRole.view_aux hg]
    exact False.elim
  · rw [hv]
    rintro (ho | hr)
    · exact Or.inl ho
    · exact hr.elim

/-- The probe of a hash in a filter that was seen ready: a bit that is clear shows
that the hash was not inserted. -/
lemma wp_mightContain (hg : g.act = .idle) {hash : UInt64} (ks : List ℕ) (hne : ks ≠ [])
    (hks : ∀ k ∈ ks, k ∈ List.range params.hashCount) :
    (poolOutline params exact).wp p (mightContain params i hash ks)
      (fun r g' => g' = if r then g else { g with absent := (i, n, hash) :: g.absent })
      (g.withAux i (.probing n)) := by
  induction ks with
  | nil => exact absurd rfl hne
  | cons k ks ih =>
    refine wp_slot (.loadWord i (params.wordMask hash k).1) fun s v hs hv _ _ => ?_
    rw [FilterOp.slot] at hv ⊢
    -- the reference keeps the filter as it was seen
    have hok : SlotOk params s v ∧ s.header = ⟨n, .ready⟩ := by
      rcases hs with ⟨-, hd⟩ | hs
      · exact absurd (by rw [hv, FilterRole.view_withAux hg]) (hd.2 p n)
      · have hfits := (hs.fits p).aux
        rw [hv, FilterRole.view_withAux hg] at hfits
        exact ⟨hs, hfits⟩
    obtain ⟨hok, hheader⟩ := hok
    have hdead : ¬ s.Dead := fun hd => hd.2.ne_ready (by rw [hheader])
    by_cases hmiss : s.bits (params.wordMask hash k).1 &&& (params.wordMask hash k).2 = 0
    · refine ⟨_, s, { g with absent := (i, n, hash) :: g.absent }, rfl,
        ⟨fun _ => Or.inr (hok.leaveProbe hg hv), (FilterRole.Near.self hg _).view, id,
          fun hd => absurd hd hdead, fun _ _ => id, fun t ht => ?_⟩, ?_⟩
      · rcases List.mem_cons.mp ht with rfl | ht
        · exact Or.inr ⟨rfl, hok.notMem_published hheader (hks k List.mem_cons_self) hmiss,
            Or.inr ⟨by rw [hheader], Or.inl (by rw [hheader])⟩⟩
        · exact Or.inl ht
      · rw [if_pos hmiss]
        rfl
    cases ks with
    | nil =>
      refine ⟨_, s, g, rfl, .plain (.self hg _) rfl rfl fun hs => hs.leaveProbe hg hv, ?_⟩
      rw [if_neg hmiss]
      rfl
    | cons k' ks =>
      refine ⟨_, s, g.withAux i (.probing n), rfl, ⟨fun hs => Or.inr ?_, fun _ _ => rfl, id,
        fun hd => absurd hd hdead, fun _ _ => id, fun _ => Or.inl⟩, ?_⟩
      · rwa [← hv, Function.update_eq_self]
      · rw [if_neg hmiss]
        exact ih (by simp) fun j hj => hks j (List.mem_cons_of_mem _ hj)

/-- `decisionForHash` reports a hash absent only if it was not inserted. -/
lemma wp_decisionForHash (hg : g.act = .idle) {h : ProbeHandle} (hh : h ∈ g.probes)
    (hash : UInt64) :
    (poolOutline params exact).wp p (decisionForHash params h hash)
      (fun d g' => ∃ l, g' = { g with absent := l } ∧
        (d = .definitelyAbsent → (h.slotIndex, h.generation, hash) ∈ l)) g := by
  have hrefs : 1 ≤ (g.view h.slotIndex).refs := by
    have hpos : 0 < g.probes.countP fun q => q.slotIndex = h.slotIndex :=
      Multiset.countP_pos.mpr ⟨h, hh, rfl⟩
    rw [FilterRole.view]
    dsimp only
    omega
  refine wp_slot (.loadHeader h.slotIndex) fun s v _ hv _ _ => ?_
  rw [FilterOp.slot] at hv ⊢
  by_cases hc : s.header.generation ≠ h.generation ∨ s.header.state ≠ .ready
  · refine ⟨_, s, g, rfl, .plain (.rest hg) rfl rfl fun hs => ?_, ?_⟩
    · rwa [← hv, Function.update_eq_self]
    · rw [if_pos hc]
      exact ⟨g.absent, rfl, fun hd => by cases hd⟩
  · have hheader : s.header = ⟨h.generation, .ready⟩ := by
      obtain ⟨hgen, hstate⟩ := not_or.mp hc
      rw [← not_not.mp hgen, ← not_not.mp hstate]
    have hdead : ¬ s.Dead := fun hd => hd.2.ne_ready (by rw [hheader])
    refine ⟨_, s, g.withAux h.slotIndex (.probing h.generation), rfl,
      ⟨fun hs => Or.inr (hs.enterProbe hg hv hrefs hheader),
        fun j hj => FilterRole.view_on_of_ne hg hj, id, fun hd => absurd hd hdead, fun _ _ => id,
        fun _ => Or.inl⟩, ?_⟩
    rw [if_neg hc]
    refine Outline.wp_seq (wp_mightContain hg _ ?_ fun _ => id) ?_
    · rw [Ne, List.range_eq_nil]
      exact params.hashCount_pos.ne'
    · rintro r _ rfl
      cases r with
      | true => exact ⟨g.absent, rfl, fun hd => by cases hd⟩
      | false => exact ⟨_, rfl, fun _ => List.mem_cons_self⟩

/-! ### The pool -/

/-- The role of a process between calls: its handles are those of the client, and
what its last decision reported absent is. -/
structure AtRest (cl : FilterClient) (g : FilterRole) : Prop where
  build : g.build = cl.build
  probes : g.probes = ↑cl.probes
  act : g.act = .idle
  decision : ∀ h hash, cl.decision = some (h, hash, .definitelyAbsent) →
    (h.slotIndex, h.generation, hash) ∈ g.absent

/-- A process changes its role, but not what the role makes of it to the slots. -/
lemma PoolInv.setRole (h : PoolInv params exact x ρ)
    (hview : ∀ i, g'.view i = (ρ p).view i) (habs : g'.absent = (ρ p).absent) :
    PoolInv params exact x (Function.update ρ p g') := by
  have hviews : ∀ i, (fun q => (Function.update ρ p g' q).view i) = fun q => (ρ q).view i :=
    fun i => by
      funext q
      by_cases hq : q = p
      · subst hq
        rw [Function.update_self, hview]
      · rw [Function.update_of_ne hq]
  refine ⟨fun i => by rw [hviews]; exact h.slot i,
    Function.forall_update_iff ρ (fun _ g => ∀ t ∈ FilterRole.absent g,
      (x t.1).Absent t.2.1 t.2.2) |>.mpr
      ⟨by rw [habs]; exact h.absent p, fun q _ => h.absent q⟩⟩

/-- A process takes up its build handle for a call. -/
lemma PoolInv.useBuild (h : PoolInv params exact x ρ)
    {b : BuildHandle} (hb : (ρ p).build = some b) (hact : (ρ p).act = .idle) :
    PoolInv params exact x (Function.update ρ p ({ ρ p with build := none }.on b.slotIndex
      ⟨1, .builder b.generation b.inserted, .none⟩)) := by
  generalize hg : { ρ p with build := none } = g
  have hρ : ρ p = { g with build := some b } := by rw [← hg, ← hb]
  have hidle : g.act = .idle := by rw [← hg, ← hact]
  have hnone : g.build = none := by rw [← hg]
  refine h.setRole (fun i => ?_) (by rw [hρ]; rfl)
  rw [hρ]
  by_cases hi : i = b.slotIndex
  · rw [hi, FilterRole.view_build hidle hnone]
  · rw [FilterRole.view_on_of_ne hidle hi, FilterRole.view_build_of_ne hnone hi]

/-- A process takes up one of its probe handles to drop it. -/
lemma PoolInv.useProbe (h : PoolInv params exact x ρ)
    {b : ProbeHandle} {m : Multiset ProbeHandle} (hb : (ρ p).probes = b ::ₘ m)
    (hact : (ρ p).act = .idle) :
    PoolInv params exact x (Function.update ρ p ({ ρ p with probes := m }.on b.slotIndex
      ⟨1, .none, .none⟩)) := by
  generalize hg : { ρ p with probes := m } = g
  have hm : g.probes = m := by rw [← hg]
  have hρ : ρ p = { g with probes := b ::ₘ g.probes } := by rw [hm, ← hg, ← hb]
  have hidle : g.act = .idle := by rw [← hg, ← hact]
  refine h.setRole (fun i => ?_) (by rw [hρ]; rfl)
  rw [hρ]
  by_cases hi : i = b.slotIndex
  · rw [hi, FilterRole.view_probe hidle]
  · rw [FilterRole.view_on_of_ne hidle hi, FilterRole.view_probe_of_ne hi]

/-- Each call is justified. -/
lemma pool_call {config : PoolConfig} {cl : FilterClient}
    {call : FilterCall} {prog : Prog filterAccess FilterClient}
    (h : PoolInv config.params exact x ρ) (hp : AtRest cl (ρ p))
    (hcall : runCall config cl call = some prog) :
    ∃ g', PoolInv config.params exact x (Function.update ρ p g') ∧
      (poolOutline config.params exact).wp p prog AtRest g' := by
  have hstay : PoolInv config.params exact x (Function.update ρ p (ρ p)) := by
    rwa [Function.update_eq_self]
  cases call with
  | allocate target =>
    cases hb : cl.build with
    | some b => simp [runCall, hb] at hcall
    | none =>
      simp only [runCall, hb, Option.some.injEq] at hcall
      subst hcall
      refine ⟨ρ p, hstay, Outline.wp_seq (wp_allocateFrom hp.act (hp.build.trans hb) target _) ?_⟩
      rintro r _ rfl
      cases r with
      | ok b => exact ⟨rfl, hp.probes, hp.act, hp.decision⟩
      | error e => exact hp
  | insert hash =>
    obtain ⟨b, hb, rfl⟩ := Option.map_eq_some_iff.mp hcall
    refine ⟨_, h.useBuild (hp.build.trans hb) hp.act,
      Outline.wp_seq (wp_insertHash (g := { ρ p with build := none }) hp.act rfl b hash) ?_⟩
    rintro _ _ rfl
    exact ⟨rfl, hp.probes, hp.act, hp.decision⟩
  | publish =>
    obtain ⟨b, hb, rfl⟩ := Option.map_eq_some_iff.mp hcall
    refine ⟨_, h.useBuild (hp.build.trans hb) hp.act,
      Outline.wp_seq (wp_transitionBuild (g := { ρ p with build := none }) hp.act rfl b
        (Or.inl ⟨rfl, rfl⟩)) ?_⟩
    rintro _ _ rfl
    exact ⟨hb.symm, hp.probes, hp.act, hp.decision⟩
  | disable =>
    obtain ⟨b, hb, rfl⟩ := Option.map_eq_some_iff.mp hcall
    refine ⟨_, h.useBuild (hp.build.trans hb) hp.act,
      Outline.wp_seq (wp_transitionBuild (g := { ρ p with build := none }) hp.act rfl b
        (Or.inr rfl)) ?_⟩
    rintro _ _ rfl
    exact ⟨hb.symm, hp.probes, hp.act, hp.decision⟩
  | dropBuild =>
    obtain ⟨b, hb, rfl⟩ := Option.map_eq_some_iff.mp hcall
    refine ⟨_, h.useBuild (hp.build.trans hb) hp.act,
      Outline.wp_seq (wp_releaseOwner (g := { ρ p with build := none }) hp.act rfl) ?_⟩
    rintro _ _ rfl
    exact ⟨rfl, hp.probes, hp.act, hp.decision⟩
  | lookup sessionEpoch scanId =>
    simp only [runCall, Option.some.injEq] at hcall
    subst hcall
    refine ⟨ρ p, hstay, Outline.wp_seq (wp_lookupFrom hp.act sessionEpoch scanId _) ?_⟩
    rintro r _ rfl
    refine ⟨hp.build, ?_, hp.act, hp.decision⟩
    rw [hp.probes]
    exact Multiset.coe_add _ _
  | decide k hash =>
    obtain ⟨b, hb, rfl⟩ := Option.map_eq_some_iff.mp hcall
    have hmem : b ∈ (ρ p).probes := by
      rw [hp.probes]
      exact List.mem_of_getElem? hb
    refine ⟨ρ p, hstay, Outline.wp_seq (wp_decisionForHash hp.act hmem hash) ?_⟩
    rintro d _ ⟨l, rfl, hl⟩
    refine ⟨hp.build, hp.probes, hp.act, fun h' hash' hd => ?_⟩
    obtain ⟨rfl, rfl, rfl⟩ : b = h' ∧ hash = hash' ∧ d = .definitelyAbsent := by simpa using hd
    exact hl rfl
  | dropProbe k =>
    obtain ⟨b, hb, rfl⟩ := Option.map_eq_some_iff.mp hcall
    obtain ⟨hk, rfl⟩ := List.getElem?_eq_some_iff.mp hb
    have hcons : (ρ p).probes = cl.probes[k] ::ₘ ↑(cl.probes.eraseIdx k) := by
      rw [hp.probes, Multiset.cons_coe, Multiset.coe_eq_coe]
      exact (List.getElem_cons_eraseIdx_perm hk).symm
    refine ⟨_, h.useProbe hcons hp.act, Outline.wp_seq (wp_releaseRef (g := { ρ p with
      probes := ↑(cl.probes.eraseIdx k) }) hp.act) ?_⟩
    rintro _ _ rfl
    exact ⟨hp.build, rfl, hp.act, hp.decision⟩

/-- The outline supports the pool. -/
lemma pool_supports (config : PoolConfig) (exact : Prop) :
    (poolOutline config.params exact).Supports (poolSystem config)
      (fun p op x => counted p op x ∧ (exact → Undone op (x op.slot))) fun _ => AtRest where
  call := by
    intro x ρ p cl call x' prog h _ hp hstart
    obtain ⟨prog', hcall, heq⟩ := Option.map_eq_some_iff.mp hstart
    obtain ⟨rfl, rfl⟩ := Prod.mk.inj heq
    exact pool_call h hp hcall
  env := by
    rintro _ _ ⟨⟩
  cond := fun _ h => h

/-- A pool as `init_in_place` leaves it. -/
lemma pool_start (config : PoolConfig) (exact : Prop) :
    Outline.Holds (poolOutline config.params exact) (fun _ => AtRest) (poolStart config)
      fun _ => ⟨none, 0, [], .idle⟩ := by
  refine ⟨⟨fun i => Or.inr ?_, by simp⟩, fun p => ⟨rfl, rfl, rfl, by simp⟩⟩
  have hview : ∀ p : ℕ, FilterRole.view ⟨none, 0, [], .idle⟩ i = .nothing := fun p => by
    simp [FilterRole.view, Act.view, buildView, View.nothing]
  have hbusy : ¬ View.nothing.busy := by
    rintro (h | h)
    · exact h rfl
    · exact h.elim
  exact {
    refs := rfl
    bound := Nat.zero_le _
    count := fun p => by rw [hview p]; rfl
    lone := fun p _ hp => absurd (hview p ▸ hp) hbusy
    free := fun _ => ⟨rfl, Or.inl rfl, fun p => by rw [hview p]; exact hbusy⟩
    allocated := fun hs => by cases hs
    drain := fun hs => by cases hs
    gone := fun hs => by cases hs
    ready := fun hs => by cases hs
    fits := fun p => by
      rw [hview p]
      exact ⟨trivial, trivial, fun h => absurd rfl h, fun g hg => by cases hg⟩ }

/-- The outline holds along the runs whose lookups are counted. -/
lemma holds_of_counted {config : PoolConfig} {c : Config (poolSystem config)}
    (hr : Reach counted (poolStart config) c) :
    ∃ ρ, Outline.Holds (poolOutline config.params False) (fun _ => AtRest) c ρ :=
  Outline.holds_reach (pool_supports config False) (pool_start config False)
    (hr.mono fun _ _ _ h => ⟨h, False.elim⟩)

end PgFusion.Filter

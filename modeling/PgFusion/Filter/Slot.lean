import Mathlib.Tactic
import PgFusion.Filter.Pool

/-!
One slot of the runtime-filter pool. `SlotOk` ties the words of the slot to the `View`s of all
processes: the count is the number of references held, at most one process owns or retires the slot,
the lifecycle is at rest in a free slot, and a filter that is ready has the bits of everything
inserted before it was published.
-/

namespace PgFusion.Filter

/-! ### Views of a slot -/

/-- What a process owns of a slot: nothing, or the slot as its allocator or
builder, before or after the first reference is counted, after it has found that
no generation is left, after the lifecycle is acquired, and while it inserts a
hash. -/
inductive Own where
  | none
  | claimed
  | counted
  | refused
  | acquired (g : ℕ)
  | builder (g : ℕ) (inserted : List UInt64)
  | inserting (g : ℕ) (inserted : List UInt64) (hash : UInt64) (done : List ℕ)

/-- What else a process is to a slot: the one that retires it, as far as it has
learned the generation and the lifecycle or has put the lifecycle at rest, or a
prober that has seen it ready. -/
inductive Aux where
  | none
  | retiring
  | named (g : ℕ)
  | leaving (h : LifecycleSnapshot)
  | retired
  | probing (g : ℕ)

/-- The process retires the slot. -/
def Aux.retires : Aux → Prop
  | .retiring | .named _ | .leaving _ | .retired => True
  | .none | .probing _ => False

/-- What a process is to a slot. -/
structure View where
  refs : ℕ
  own : Own
  aux : Aux

namespace View

/-- The process owns the slot. -/
def owns (w : View) : Prop := w.own ≠ .none

/-- The process retires the slot. -/
def retires (w : View) : Prop := w.aux.retires

/-- The process owns or retires the slot. -/
def busy (w : View) : Prop := w.owns ∨ w.retires

end View

variable (params : BloomParams)

/-- The bit of a hash at a hash index is set. -/
def PoolSlot.Bit (s : PoolSlot) (hash : UInt64) (k : ℕ) : Prop :=
  Covers (s.bits (params.wordMask hash k).1) (params.wordMask hash k).2

/-- All bits of a hash are set. -/
def PoolSlot.Marked (s : PoolSlot) (hash : UInt64) : Prop :=
  ∀ k ∈ List.range params.hashCount, s.Bit params hash k

/-- The lifecycle is at rest. -/
def LifecycleSnapshot.Quiet (h : LifecycleSnapshot) : Prop := h.state = .free ∨ h.state = .disabled

/-- The slot carries the generation of its lifecycle. -/
def PoolSlot.Named (s : PoolSlot) : Prop :=
  s.field .generation = s.header.generation ∧ s.header.state ≠ .free

/-- The generations of the slot are used up. -/
def PoolSlot.Dead (s : PoolSlot) : Prop :=
  maxGeneration ≤ s.header.generation ∧ s.header.Quiet

/-- What a slot is when a process owns it. -/
def OwnFits (s : PoolSlot) : Own → Prop
  | .none => True
  | .claimed => s.state = .allocated ∧ s.holds = 0 ∧ s.header.Quiet
  | .counted => s.state = .allocated ∧ s.header.Quiet
  | .refused => s.state = .allocated ∧ s.Dead
  | .acquired g => s.state = .allocated ∧ s.header = ⟨g, .building⟩
  | .builder g inserted => s.state = .allocated ∧ s.Named ∧ s.header.generation = g ∧
      (s.header.state = .building → ∀ h ∈ inserted, s.Marked params h)
  | .inserting g inserted hash done => s.state = .allocated ∧ s.Named ∧ s.header.generation = g ∧
      (s.header.state = .building → (∀ h ∈ inserted, s.Marked params h) ∧
        ∀ k ∈ done, s.Bit params hash k)

/-- What a slot is when a process retires it or has seen it ready. -/
def AuxFits (s : PoolSlot) : Aux → Prop
  | .none => True
  | .retiring => s.state = .retiring ∧ s.holds = 0 ∧ s.Named
  | .named g => s.state = .retiring ∧ s.holds = 0 ∧ s.header.generation = g
  | .leaving h => s.state = .retiring ∧ s.holds = 0 ∧ s.header = h
  | .retired => s.state = .retiring ∧ s.holds = 0 ∧ s.header.Quiet
  | .probing g => s.header = ⟨g, .ready⟩

/-- The view of a process is true of the slot; who owns it, except before the
first reference is counted, and who has seen it ready holds a reference. -/
structure Fits (s : PoolSlot) (w : View) : Prop where
  own : OwnFits params s w.own
  aux : AuxFits s w.aux
  own_refs : w.own ≠ .none → w.own ≠ .claimed → 1 ≤ w.refs
  aux_refs : ∀ g, w.aux = .probing g → 1 ≤ w.refs

/-- The words of a slot and the views of the processes agree. -/
structure SlotOk (s : PoolSlot) (v : ℕ → View) : Prop where
  refs : s.refs = s.holds.card
  bound : s.holds.card ≤ maxRefs
  count : ∀ p, s.holds.count p = (v p).refs
  lone : ∀ p q, (v p).busy → (v q).busy → p = q
  free : s.state = .free → s.holds = 0 ∧ s.header.Quiet ∧ ∀ p, ¬ (v p).busy
  allocated : s.state = .allocated → ∃ p, (v p).owns
  drain : s.state = .retiring → s.holds ≠ 0 → s.Named
  gone : s.state = .retiring → s.holds = 0 → ∃ p, (v p).retires
  ready : s.header.state = .ready → ∀ h ∈ s.published s.header.generation, s.Marked params h
  fits : ∀ p, Fits params s (v p)

variable {params} {s : PoolSlot} {v : ℕ → View} {p : ℕ} {w : View}

lemma LifecycleSnapshot.Quiet.ne_ready {h : LifecycleSnapshot} (hq : h.Quiet) :
    h.state ≠ .ready := by
  rcases hq with hq | hq <;> simp [hq]

lemma LifecycleSnapshot.Quiet.ne_building {h : LifecycleSnapshot} (hq : h.Quiet) :
    h.state ≠ .building := by
  rcases hq with hq | hq <;> simp [hq]

/-- Setting bits keeps the bits that are set. -/
lemma PoolSlot.Bit.orWord {hash : UInt64} {k : ℕ} (h : s.Bit params hash k) (j : ℕ)
    (mask : UInt64) :
    PoolSlot.Bit params { s with bits := Function.update s.bits j (s.bits j ||| mask) } hash k := by
  by_cases hj : (params.wordMask hash k).1 = j
  · have hbit : Covers (s.bits j) (params.wordMask hash k).2 := hj ▸ h
    simpa [PoolSlot.Bit, hj] using hbit.or mask
  · simpa [PoolSlot.Bit, hj] using h

/-- A process changes its view: at most one process is busy still. -/
lemma lone_update (h : ∀ p q, (v p).busy → (v q).busy → p = q)
    (hw : w.busy → (v p).busy ∨ ∀ q, q ≠ p → ¬ (v q).busy) (a b : ℕ)
    (ha : (Function.update v p w a).busy) (hb : (Function.update v p w b).busy) : a = b := by
  by_cases hap : a = p <;> by_cases hbp : b = p
  · rw [hap, hbp]
  · subst hap
    rw [Function.update_self] at ha
    rw [Function.update_of_ne hbp] at hb
    rcases hw ha with hv | hv
    · exact h a b hv hb
    · exact absurd hb (hv b hbp)
  · subst hbp
    rw [Function.update_self] at hb
    rw [Function.update_of_ne hap] at ha
    rcases hw hb with hv | hv
    · exact h a b ha hv
    · exact absurd ha (hv a hap)
  · rw [Function.update_of_ne hap] at ha
    rw [Function.update_of_ne hbp] at hb
    exact h a b ha hb

/-- In a slot that is not being retired, what a prober has seen stays true as long
as a filter that is ready stays ready. -/
lemma AuxFits.step {s' : PoolSlot} {a : Aux} (h : AuxFits s a) (hs : s.state ≠ .retiring)
    (hheader : s.header.state = .ready → s'.header = s.header) : AuxFits s' a := by
  cases a with
  | none => trivial
  | probing g =>
    rw [AuxFits] at h ⊢
    rw [hheader (by rw [h]), h]
  | _ => exact absurd h.1 hs

/-- A slot that is being retired has no references. -/
lemma AuxFits.of_retires {a : Aux} (h : AuxFits s a) (ha : a.retires) :
    s.state = .retiring ∧ s.holds = 0 := by
  cases a with
  | none => exact ha.elim
  | probing g => exact ha.elim
  | _ => exact ⟨h.1, h.2.1⟩

/-- A view that neither owns nor retires the slot only minds that a filter that
is ready stays ready. -/
lemma Fits.of_not_busy {s' : PoolSlot} (h : Fits params s w) (hb : ¬ w.busy)
    (hheader : s.header.state = .ready → s'.header = s.header) : Fits params s' w := by
  obtain ⟨hown, haux⟩ := not_or.mp hb
  have hown : w.own = .none := not_not.mp hown
  refine ⟨by rw [hown]; trivial, ?_, h.own_refs, h.aux_refs⟩
  have hfits := h.aux
  rw [View.retires] at haux
  cases hw : w.aux with
  | none => trivial
  | probing g =>
    rw [hw] at hfits
    rw [AuxFits] at hfits ⊢
    rw [hheader (by rw [hfits]), hfits]
  | _ => exact absurd (by rw [hw]; trivial) haux

namespace SlotOk

/-- A process that holds a reference is counted. -/
lemma mem_holds (h : SlotOk params s v) (hp : 1 ≤ (v p).refs) : p ∈ s.holds := by
  rw [← Multiset.count_pos, h.count]
  exact hp

/-- No process is busy but the one that is. -/
lemma not_busy (h : SlotOk params s v) (hp : (v p).busy) (q : ℕ) (hq : q ≠ p) : ¬ (v q).busy :=
  fun hb => hq (h.lone q p hb hp)

/-- The views of the processes other than the one that is busy. -/
lemma others {s' : PoolSlot} (h : SlotOk params s v) (hp : ∀ q, q ≠ p → ¬ (v q).busy)
    (hheader : s.header.state = .ready → s'.header = s.header)
    (hw : Fits params s' w) : ∀ q, Fits params s' (Function.update v p w q) :=
  Function.forall_update_iff v (fun _ w => Fits params s' w) |>.mpr
    ⟨hw, fun q hq => (h.fits q).of_not_busy (hp q hq) hheader⟩

/-- The count of references, when the process that acts has changed its own. -/
lemma count_update {holds : Multiset ℕ} (h : SlotOk params s v) (hp : holds.count p = w.refs)
    (hq : ∀ q, q ≠ p → holds.count q = s.holds.count q) (q : ℕ) :
    holds.count q = (Function.update v p w q).refs := by
  by_cases hqp : q = p
  · subst hqp
    rw [Function.update_self, hp]
  · rw [Function.update_of_ne hqp, hq q hqp, h.count]

/-- A process changes its view and nothing else. -/
lemma setView (h : SlotOk params s v) (hrefs : w.refs = (v p).refs) (hfits : Fits params s w)
    (howns : (v p).owns → w.owns) (hret : (v p).retires → w.retires)
    (hbusy : w.busy → (v p).busy) : SlotOk params s (Function.update v p w) := by
  refine { h with count := ?_, lone := ?_, free := ?_, allocated := ?_, gone := ?_, fits := ?_ }
  · exact h.count_update (by rw [h.count, hrefs]) fun _ _ => rfl
  · exact lone_update h.lone fun hw => Or.inl (hbusy hw)
  · intro hs
    obtain ⟨hholds, hquiet, hnone⟩ := h.free hs
    exact ⟨hholds, hquiet, Function.forall_update_iff v (fun _ w => ¬ w.busy) |>.mpr
      ⟨fun hw => hnone p (hbusy hw), fun q _ => hnone q⟩⟩
  · intro hs
    obtain ⟨q, hq⟩ := h.allocated hs
    by_cases hqp : q = p
    · subst hqp
      exact ⟨q, by rw [Function.update_self]; exact howns hq⟩
    · exact ⟨q, by rwa [Function.update_of_ne hqp]⟩
  · intro hs hz
    obtain ⟨q, hq⟩ := h.gone hs hz
    by_cases hqp : q = p
    · subst hqp
      exact ⟨q, by rw [Function.update_self]; exact hret hq⟩
    · exact ⟨q, by rwa [Function.update_of_ne hqp]⟩
  · exact Function.forall_update_iff v (fun _ w => Fits params s w) |>.mpr
      ⟨hfits, fun q _ => h.fits q⟩

/-- The owner changes the slot and its view, and goes on owning it: the rest of
the invariant follows from who owns the slot. -/
lemma owner_step {s' : PoolSlot} (h : SlotOk params s v) (hp : (v p).owns) (hw : w.owns)
    (hrefs : s'.refs = s'.holds.card) (hbound : s'.holds.card ≤ maxRefs)
    (hcount : s'.holds.count p = w.refs) (hothers : ∀ q, q ≠ p → s'.holds.count q = s.holds.count q)
    (hstate : s'.state = .allocated) (hheader : s.header.state = .ready → s'.header = s.header)
    (hready : s'.header.state = .ready →
      ∀ h ∈ s'.published s'.header.generation, s'.Marked params h)
    (hfits : Fits params s' w) : SlotOk params s' (Function.update v p w) where
  refs := hrefs
  bound := hbound
  count := h.count_update hcount hothers
  lone := lone_update h.lone fun _ => Or.inl (Or.inl hp)
  free := fun hs => by rw [hstate] at hs; cases hs
  allocated := fun _ => ⟨p, by rw [Function.update_self]; exact hw⟩
  drain := fun hs => by rw [hstate] at hs; cases hs
  gone := fun hs => by rw [hstate] at hs; cases hs
  ready := hready
  fits := h.others (h.not_busy (Or.inl hp)) hheader hfits

/-! ### Allocating -/

/-- A free slot is claimed. -/
lemma claim (h : SlotOk params s v) (hs : s.state = .free) :
    SlotOk params { s with state := .allocated }
      (Function.update v p { v p with own := .claimed }) := by
  obtain ⟨hholds, hquiet, hnone⟩ := h.free hs
  have hfits : Fits params { s with state := .allocated } { v p with own := .claimed } :=
    ⟨⟨rfl, hholds, hquiet⟩, (h.fits p).aux.step (by simp [hs]) fun _ => rfl,
      fun _ hc => absurd rfl hc, (h.fits p).aux_refs⟩
  exact {
    refs := h.refs
    bound := h.bound
    count := h.count_update (h.count p) fun _ _ => rfl
    lone := lone_update h.lone fun _ => Or.inr fun q _ => hnone q
    free := fun hs => by cases hs
    allocated := fun _ => ⟨p, by rw [Function.update_self]; exact fun hc => by cases hc⟩
    drain := fun hs => by cases hs
    gone := fun hs => by cases hs
    ready := h.ready
    fits := h.others (fun q _ => hnone q) (fun _ => rfl) hfits }

/-- The first reference is counted. No other process holds one, as the count has
not been raised since the slot was free. -/
lemma countFirst (h : SlotOk params s v) (hp : (v p).own = .claimed) :
    SlotOk params { s with refs := 1, holds := Multiset.replicate 1 p }
      (Function.update v p { v p with refs := (v p).refs + 1, own := .counted }) := by
  have hf := h.fits p
  have hown := hf.own
  rw [hp] at hown
  obtain ⟨hstate, hholds, hquiet⟩ := hown
  have hzero : ∀ q, (v q).refs = 0 := fun q => by rw [← h.count, hholds, Multiset.count_zero]
  refine h.owner_step (fun hc => by rw [hp] at hc; cases hc) (fun hc => by cases hc)
    (Multiset.card_replicate 1 p).symm ?_ ?_ ?_ hstate (fun _ => rfl) h.ready ?_
  · rw [Multiset.card_replicate, maxRefs]
    omega
  · rw [Multiset.count_replicate_self, hzero]
  · intro q hq
    rw [Multiset.count_replicate, if_neg (Ne.symm hq), hholds, Multiset.count_zero]
  · exact ⟨⟨hstate, hquiet⟩, hf.aux.step (by simp [hstate]) fun _ => rfl,
      fun _ _ => Nat.le_add_left _ _, fun _ _ => Nat.le_add_left _ _⟩

/-- An owner that holds a reference changes the slot but not its references. -/
lemma owner_keep (h : SlotOk params s v) (s' : PoolSlot) (own : Own) (hp : (v p).owns)
    (hp' : (v p).own ≠ .claimed) (hown : own ≠ .none) (hstate : s.state = .allocated)
    (hrefs : s'.refs = s.refs) (hholds : s'.holds = s.holds) (hstate' : s'.state = s.state)
    (hheader : s.header.state = .ready → s'.header = s.header) (hready : s'.header.state = .ready →
      ∀ h ∈ s'.published s'.header.generation, s'.Marked params h)
    (hfits : OwnFits params s' own) :
    SlotOk params s' (Function.update v p { v p with own := own }) := by
  have hf := h.fits p
  have hone := hf.own_refs hp hp'
  refine h.owner_step hp hown ?_ ?_ ?_ ?_ (hstate'.trans hstate) hheader hready ?_
  · rw [hrefs, hholds, h.refs]
  · rw [hholds]
    exact h.bound
  · rw [hholds, h.count]
  · exact fun q _ => by rw [hholds]
  · exact ⟨hfits, hf.aux.step (by simp [hstate]) hheader, fun _ _ => hone, fun _ _ => hone⟩

/-- The target of the filter is stored. -/
lemma storeTarget (h : SlotOk params s v) (hp : (v p).own = .counted) (f : Field) (n : ℕ) :
    SlotOk params { s with field := Function.update s.field f n } v := by
  have hown := (h.fits p).own
  rw [hp] at hown
  have hkeep := h.owner_keep { s with field := Function.update s.field f n } .counted
    (fun hc => by rw [hp] at hc; cases hc) (by simp [hp]) (by simp) hown.1 rfl rfl
    rfl (fun _ => rfl) h.ready hown
  rwa [← hp, Function.update_eq_self] at hkeep

/-- The allocator finds that no generation is left. -/
lemma refuse (h : SlotOk params s v) (hp : (v p).own = .counted) (hd : s.Dead) :
    SlotOk params s (Function.update v p { v p with own := .refused }) := by
  have hown := (h.fits p).own
  rw [hp] at hown
  exact h.owner_keep _ _ (fun hc => by rw [hp] at hc; cases hc) (by simp [hp]) (by simp) hown.1 rfl
    rfl rfl (fun _ => rfl) h.ready ⟨hown.1, hd⟩

/-- An allocator that gives up takes back its reference, when it is the only one. -/
lemma uncount (h : SlotOk params s v) (hp : (v p).own = .refused) (hlast : s.refs = 1) :
    SlotOk params { s with refs := 0, holds := Multiset.replicate 0 p }
      (Function.update v p { v p with refs := 0, own := .claimed }) := by
  have hf := h.fits p
  have hown := hf.own
  rw [hp] at hown
  obtain ⟨hstate, hdead⟩ := hown
  have hmem := h.mem_holds (hf.own_refs (by simp [hp]) (by simp [hp]))
  have hholds : s.holds = {p} := by
    obtain ⟨a, ha⟩ := Multiset.card_eq_one.mp (h.refs ▸ hlast)
    rw [ha, Multiset.mem_singleton] at hmem
    rw [ha, hmem]
  refine h.owner_step (fun hc => by rw [hp] at hc; cases hc) (fun hc => by cases hc) rfl
    (Nat.zero_le _) rfl (fun q hq => ?_) hstate (fun _ => rfl) h.ready ?_
  · rw [hholds, Multiset.replicate_zero, Multiset.count_zero, Multiset.count_singleton, if_neg hq]
  · refine ⟨⟨hstate, rfl, hdead.2⟩, hf.aux.step (by simp [hstate]) fun _ => rfl,
      fun _ hc => absurd rfl hc, fun g hg => ?_⟩
    -- a prober would have seen the slot ready
    have haux := hf.aux
    rw [show (v p).aux = .probing g from hg] at haux
    exact absurd (by rw [show s.header = _ from haux]) hdead.2.ne_ready

/-- A slot whose allocator holds no reference is freed by it. -/
lemma unclaim (h : SlotOk params s v) (hp : (v p).own = .claimed) (haux : (v p).aux = .none) :
    SlotOk params { s with state := .free } (Function.update v p { v p with own := .none }) := by
  have hf := h.fits p
  have hown := hf.own
  rw [hp] at hown
  obtain ⟨hstate, hholds, hquiet⟩ := hown
  have hbusy : (v p).busy := Or.inl (fun hc => by rw [hp] at hc; cases hc)
  have hnone : ¬ View.busy { v p with own := .none } := by
    rintro (hc | hc)
    · exact hc rfl
    · rw [View.retires, haux] at hc
      exact hc.elim
  exact {
    refs := h.refs
    bound := h.bound
    count := h.count_update (h.count p) fun _ _ => rfl
    lone := lone_update h.lone fun hw => absurd hw hnone
    free := fun _ => ⟨hholds, hquiet, Function.forall_update_iff v (fun _ w => ¬ w.busy) |>.mpr
      ⟨hnone, h.not_busy hbusy⟩⟩
    allocated := fun hs => by cases hs
    drain := fun hs => by cases hs
    gone := fun hs => by cases hs
    ready := h.ready
    fits := h.others (h.not_busy hbusy) (fun _ => rfl) ⟨trivial, by rw [haux]; trivial,
      fun hc => absurd rfl hc, hf.aux_refs⟩ }

/-- The lifecycle enters its next generation. -/
lemma acquire (h : SlotOk params s v) (hp : (v p).own = .counted) (g : ℕ) :
    SlotOk params { s with header := ⟨g, .building⟩ }
      (Function.update v p { v p with own := .acquired g }) := by
  have hown := (h.fits p).own
  rw [hp] at hown
  exact h.owner_keep _ _ (fun hc => by rw [hp] at hc; cases hc) (by simp [hp])
    (by simp) hown.1 rfl rfl
    rfl (fun hr => absurd hr hown.2.ne_ready) (fun hr => by cases hr) ⟨hown.1, rfl⟩

/-- The words are cleared before the builder gets the slot. -/
lemma clear (h : SlotOk params s v) {g : ℕ} (hp : (v p).own = .acquired g) (j : ℕ) (u : UInt64) :
    SlotOk params { s with bits := Function.update s.bits j u } v := by
  have hown := (h.fits p).own
  rw [hp] at hown
  have hkeep := h.owner_keep { s with bits := Function.update s.bits j u } (.acquired g)
    (fun hc => by rw [hp] at hc; cases hc) (by simp [hp]) (by simp) hown.1 rfl
    rfl rfl (fun _ => rfl) (fun hr => by simp [hown.2] at hr) hown
  rwa [← hp, Function.update_eq_self] at hkeep

/-- The generation is stored, and the builder gets the slot. -/
lemma name (h : SlotOk params s v) {g : ℕ} (hp : (v p).own = .acquired g) :
    SlotOk params { s with field := Function.update s.field .generation g }
      (Function.update v p { v p with own := .builder g [] }) := by
  have hown := (h.fits p).own
  rw [hp] at hown
  refine h.owner_keep _ _ (fun hc => by rw [hp] at hc; cases hc) (by simp [hp]) (by simp) hown.1 rfl
    rfl rfl (fun _ => rfl) h.ready ⟨hown.1, ⟨?_, ?_⟩, ?_, ?_⟩
  · simp [hown.2]
  · simp [hown.2]
  · simp [hown.2]
  · simp

/-! ### Building -/

/-- The builder sets a bit of the hash that it inserts. -/
lemma orBits (h : SlotOk params s v) {g : ℕ} {inserted : List UInt64} {hash : UInt64}
    {done : List ℕ} (hp : (v p).own = .inserting g inserted hash done) (k : ℕ) :
    SlotOk params { s with
        bits := Function.update s.bits (params.wordMask hash k).1
          (s.bits (params.wordMask hash k).1 ||| (params.wordMask hash k).2) }
      (Function.update v p { v p with own := .inserting g inserted hash (k :: done) }) := by
  have hown := (h.fits p).own
  rw [hp] at hown
  obtain ⟨hstate, hnamed, hgen, hbits⟩ := hown
  refine h.owner_keep _ _ (fun hc => by rw [hp] at hc; cases hc) (by simp [hp])
    (by simp) hstate rfl rfl
    rfl (fun _ => rfl) (fun hr a ha j hj => (h.ready hr a ha j hj).orWord _ _)
      ⟨hstate, hnamed, hgen, ?_⟩
  intro hbuilding
  obtain ⟨hins, hdone⟩ := hbits hbuilding
  refine ⟨fun a ha j hj => (hins a ha j hj).orWord _ _, fun j hj => ?_⟩
  obtain rfl | hj := List.mem_cons.mp hj
  · simpa [PoolSlot.Bit] using covers_or_self _ _
  · exact (hdone j hj).orWord _ _

/-- The builder begins to insert a hash. -/
lemma insert (h : SlotOk params s v) {g : ℕ} {inserted : List UInt64}
    (hp : (v p).own = .builder g inserted) (hash : UInt64) :
    SlotOk params s (Function.update v p { v p with own := .inserting g inserted hash [] }) := by
  have hown := (h.fits p).own
  rw [hp] at hown
  obtain ⟨hstate, hnamed, hgen, hbits⟩ := hown
  exact h.owner_keep _ _ (fun hc => by rw [hp] at hc; cases hc) (by simp [hp]) (by simp) hstate rfl
    rfl rfl (fun _ => rfl) h.ready ⟨hstate, hnamed, hgen, fun hb => ⟨hbits hb, by simp⟩⟩

/-- A hash is inserted once all its bits are set. -/
lemma inserted (h : SlotOk params s v) {g : ℕ} {inserted : List UInt64} {hash : UInt64}
    {done : List ℕ} (hp : (v p).own = .inserting g inserted hash done)
    (hall : ∀ k ∈ List.range params.hashCount, k ∈ done) :
    SlotOk params s (Function.update v p { v p with own := .builder g (hash :: inserted) }) := by
  have hown := (h.fits p).own
  rw [hp] at hown
  obtain ⟨hstate, hnamed, hgen, hbits⟩ := hown
  refine h.owner_keep _ _ (fun hc => by rw [hp] at hc; cases hc) (by simp [hp]) (by simp) hstate
    rfl rfl rfl (fun _ => rfl) h.ready ⟨hstate, hnamed, hgen, fun hb a ha k hk => ?_⟩
  obtain ⟨hins, hdone⟩ := hbits hb
  rcases List.mem_cons.mp ha with rfl | ha
  · exact hdone k (hall k hk)
  · exact hins a ha k hk

/-- A builder whose filter is no longer being built inserts nothing. -/
lemma insertLate (h : SlotOk params s v) {g : ℕ} {inserted : List UInt64}
    (hp : (v p).own = .builder g inserted) (hash : UInt64)
    (hlate : ¬ (s.header.generation = g ∧ s.header.state = .building)) :
    SlotOk params s (Function.update v p { v p with own := .builder g (hash :: inserted) }) := by
  have hown := (h.fits p).own
  rw [hp] at hown
  obtain ⟨hstate, hnamed, hgen, -⟩ := hown
  exact h.owner_keep _ _ (fun hc => by rw [hp] at hc; cases hc) (by simp [hp]) (by simp) hstate rfl
    rfl rfl (fun _ => rfl) h.ready ⟨hstate, hnamed, hgen, fun hb => absurd ⟨hgen, hb⟩ hlate⟩

/-- The builder publishes what it has inserted. -/
lemma publish (h : SlotOk params s v) {g : ℕ} {inserted : List UInt64}
    (hp : (v p).own = .builder g inserted) (hheader : s.header = ⟨g, .building⟩) :
    SlotOk params { s with
      header := ⟨g, .ready⟩, published := Function.update s.published g inserted } v := by
  have hown := (h.fits p).own
  rw [hp] at hown
  obtain ⟨hstate, hnamed, hgen, hbits⟩ := hown
  have hkeep := h.owner_keep
    { s with header := ⟨g, .ready⟩, published := Function.update s.published g inserted }
    (.builder g inserted)
    (fun hc => by rw [hp] at hc; cases hc) (by simp [hp]) (by simp) hstate rfl rfl rfl
    (fun hr => by simp [hheader] at hr) ?_ ⟨hstate, ⟨?_, by simp⟩, rfl, by simp⟩
  · rwa [← hp, Function.update_eq_self] at hkeep
  · intro _ a ha
    simp only [Function.update_self] at ha
    exact hbits (by rw [hheader]) a ha
  · exact hnamed.1.trans hgen

/-- The builder disables its filter. -/
lemma disable (h : SlotOk params s v) {g : ℕ} {inserted : List UInt64}
    (hp : (v p).own = .builder g inserted) (hheader : s.header = ⟨g, .building⟩) :
    SlotOk params { s with header := ⟨g, .disabled⟩ } v := by
  have hown := (h.fits p).own
  rw [hp] at hown
  obtain ⟨hstate, hnamed, hgen, -⟩ := hown
  have hkeep := h.owner_keep { s with header := ⟨g, .disabled⟩ } (.builder g inserted)
    (fun hc => by rw [hp] at hc; cases hc) (by simp [hp]) (by simp) hstate rfl rfl rfl
    (fun hr => by simp [hheader] at hr) (fun hr => by cases hr)
    ⟨hstate, ⟨hnamed.1.trans hgen, by simp⟩, rfl, by simp⟩
  rwa [← hp, Function.update_eq_self] at hkeep

/-! ### References -/

/-- The owner leaves the slot, keeping its reference for the moment. -/
lemma close (h : SlotOk params s v) {g : ℕ} {inserted : List UInt64}
    (hp : (v p).own = .builder g inserted) :
    SlotOk params { s with state := .retiring }
      (Function.update v p { v p with own := .none }) := by
  have hf := h.fits p
  have hown := hf.own
  rw [hp] at hown
  obtain ⟨hstate, hnamed, -⟩ := hown
  have hbusy : (v p).busy := Or.inl (fun hc => by rw [hp] at hc; cases hc)
  have hmem := h.mem_holds (hf.own_refs (by simp [hp]) (by simp [hp]))
  have hholds : s.holds ≠ 0 := fun hz => by
    rw [hz] at hmem
    exact absurd hmem (Multiset.notMem_zero p)
  have hfits : Fits params { s with state := .retiring } { v p with own := .none } :=
    ⟨trivial, hf.aux.step (by simp [hstate]) fun _ => rfl, fun hc => absurd rfl hc, hf.aux_refs⟩
  exact {
    refs := h.refs
    bound := h.bound
    count := h.count_update (h.count p) fun _ _ => rfl
    lone := lone_update h.lone fun _ => Or.inl hbusy
    free := fun hs => by cases hs
    allocated := fun hs => by cases hs
    drain := fun _ _ => hnamed
    gone := fun _ hz => absurd hz hholds
    ready := h.ready
    fits := h.others (h.not_busy hbusy) (fun _ => rfl) hfits }

end SlotOk

/-- An owner that is not waiting for the first reference does not mind the count. -/
lemma OwnFits.setHolds {own : Own} (h : OwnFits params s own) (hown : s.holds ≠ 0) (n : ℕ)
    (m : Multiset ℕ) : OwnFits params { s with refs := n, holds := m } own := by
  cases own with
  | claimed => exact absurd h.2.1 hown
  | none => trivial
  | counted => exact h
  | refused => exact h
  | acquired g => exact h
  | builder g inserted => exact h
  | inserting g inserted hash done => exact h

/-- So does a process that retires the slot or has seen it ready. -/
lemma AuxFits.setHolds {aux : Aux} (h : AuxFits s aux) (hholds : s.holds ≠ 0) (n : ℕ)
    (m : Multiset ℕ) : AuxFits { s with refs := n, holds := m } aux := by
  cases aux with
  | none => trivial
  | probing g => exact h
  | _ => exact absurd h.2.1 hholds

namespace SlotOk

/-- The count changes from one that is not zero, and the view of one process with
it, but not what the process is to the slot. -/
lemma setHolds (h : SlotOk params s v) (hholds : s.holds ≠ 0) {m : Multiset ℕ} (hm : m ≠ 0)
    (hbound : m.card ≤ maxRefs) {n : ℕ} (hcount : m.count p = n)
    (hothers : ∀ q, q ≠ p → m.count q = s.holds.count q)
    (hone : (v p).own ≠ .none → (v p).own ≠ .claimed → 1 ≤ n)
    (hone' : ∀ g, (v p).aux = .probing g → 1 ≤ n) :
    SlotOk params { s with refs := m.card, holds := m }
      (Function.update v p { v p with refs := n }) := by
  have hf := h.fits p
  have hbusy : ∀ q, (Function.update v p { v p with refs := n } q).busy ↔ (v q).busy := by
    intro q
    by_cases hq : q = p
    · subst hq
      rw [Function.update_self]
      rfl
    · rw [Function.update_of_ne hq]
  refine {
    refs := rfl
    bound := hbound
    count := h.count_update hcount hothers
    lone := fun a b ha hb => h.lone a b ((hbusy a).mp ha) ((hbusy b).mp hb)
    free := fun hs => absurd (h.free hs).1 hholds
    allocated := ?_
    drain := fun hs _ => h.drain hs hholds
    gone := fun _ hz => absurd hz hm
    ready := h.ready
    fits := Function.forall_update_iff v (fun _ w => Fits params _ w) |>.mpr
      ⟨⟨hf.own.setHolds hholds _ _, hf.aux.setHolds hholds _ _, hone, hone'⟩, fun q _ =>
        ⟨(h.fits q).own.setHolds hholds _ _, (h.fits q).aux.setHolds hholds _ _,
          (h.fits q).own_refs, (h.fits q).aux_refs⟩⟩ }
  intro hs
  obtain ⟨q, hq⟩ := h.allocated hs
  refine ⟨q, ?_⟩
  by_cases hqp : q = p
  · subst hqp
    rw [Function.update_self]
    exact hq
  · rwa [Function.update_of_ne hqp]

/-- A process takes a reference to a slot that has one. -/
lemma addRef (h : SlotOk params s v) (hpos : 0 < s.refs) (hmax : s.refs < maxRefs) :
    SlotOk params { s with refs := s.refs + 1, holds := p ::ₘ s.holds }
      (Function.update v p { v p with refs := (v p).refs + 1 }) := by
  have hholds : s.holds ≠ 0 := by
    rw [h.refs] at hpos
    exact Multiset.card_pos.mp hpos
  have hcard : (p ::ₘ s.holds).card = s.refs + 1 := by rw [Multiset.card_cons, h.refs]
  have hset := h.setHolds (p := p) (m := p ::ₘ s.holds) (n := (v p).refs + 1) hholds
    (Multiset.cons_ne_zero) (by rw [hcard]; exact hmax) (by rw [Multiset.count_cons_self, h.count])
    (fun q hq => Multiset.count_cons_of_ne hq _) (fun _ _ => Nat.le_add_left _ _)
    (fun _ _ => Nat.le_add_left _ _)
  rwa [hcard] at hset

/-- A process drops a reference that is not the last. -/
lemma subRef (h : SlotOk params s v) {n : ℕ} (hp : (v p).refs = n + 1) (hmany : s.refs ≠ 1)
    (hone : (v p).own ≠ .none → (v p).own ≠ .claimed → 1 ≤ n)
    (hone' : ∀ g, (v p).aux = .probing g → 1 ≤ n) :
    SlotOk params { s with refs := s.refs - 1, holds := s.holds.erase p }
      (Function.update v p { v p with refs := n }) := by
  have hmem : p ∈ s.holds := h.mem_holds (by omega)
  have hcard : (s.holds.erase p).card = s.refs - 1 := by
    rw [Multiset.card_erase_of_mem hmem, h.refs, Nat.pred_eq_sub_one]
  have hpos : 0 < s.refs := by
    rw [h.refs]
    exact Multiset.card_pos_iff_exists_mem.mpr ⟨p, hmem⟩
  have hset := h.setHolds (p := p) (m := s.holds.erase p) (n := n)
    (fun hz => by rw [hz] at hmem; exact absurd hmem (Multiset.notMem_zero p))
    (Multiset.card_pos.mp (by omega)) (by have := h.bound; rw [hcard, h.refs]; omega)
    (by rw [Multiset.count_erase_self, h.count, hp]; omega)
    (fun q hq => Multiset.count_erase_of_ne hq _) hone hone'
  rwa [hcard] at hset

/-- A process drops the last reference: the owner has left, and the process is to
retire the slot. -/
lemma subLast (h : SlotOk params s v) (hp : (v p).refs = 1) (hlast : s.refs = 1)
    (hown : (v p).own = .none) :
    SlotOk params { s with refs := s.refs - 1, holds := s.holds.erase p }
      (Function.update v p { v p with refs := 0, aux := .retiring }) := by
  have hmem : p ∈ s.holds := h.mem_holds hp.ge
  have hholds : s.holds = {p} := by
    obtain ⟨a, ha⟩ := Multiset.card_eq_one.mp (h.refs ▸ hlast)
    rw [ha, Multiset.mem_singleton] at hmem
    rw [ha, hmem]
  have herase : s.holds.erase p = 0 := by rw [hholds, Multiset.erase_singleton]
  have hne : s.holds ≠ 0 := by rw [hholds]; exact Multiset.singleton_ne_zero p
  -- an owner would hold the only reference
  have hnone : ∀ q, (v q).own = .none := by
    intro q
    by_contra hq
    have hfq := h.fits q
    have hclaimed : (v q).own ≠ .claimed := by
      intro hc
      have hcl := hfq.own
      rw [hc] at hcl
      exact hne hcl.2.1
    have hmemq := h.mem_holds (hfq.own_refs hq hclaimed)
    rw [hholds, Multiset.mem_singleton] at hmemq
    rw [hmemq] at hq
    exact hq hown
  have hquiet : ∀ q, ¬ (v q).busy := by
    intro q hb
    rcases hb with hb | hb
    · exact hb (hnone q)
    · exact hne ((h.fits q).aux.of_retires hb).2
  have hstate : s.state = .retiring := by
    cases hs : s.state with
    | free => exact absurd (h.free hs).1 hne
    | allocated =>
      obtain ⟨q, hq⟩ := h.allocated hs
      exact absurd (hnone q) hq
    | retiring => rfl
  rw [herase, hlast]
  refine {
    refs := rfl
    bound := Nat.zero_le _
    count := h.count_update (by simp) (fun q hq => ?_)
    lone := lone_update h.lone fun _ => Or.inr fun q _ => hquiet q
    free := fun hs => by rw [hstate] at hs; cases hs
    allocated := fun hs => by rw [hstate] at hs; cases hs
    drain := fun _ hc => absurd rfl hc
    gone := fun _ _ => ⟨p, by rw [Function.update_self]; trivial⟩
    ready := h.ready
    fits := h.others (fun q _ => hquiet q) (fun _ => rfl) ?_ }
  · rw [hholds, Multiset.count_zero, Multiset.count_singleton, if_neg hq]
  · exact ⟨by rw [hown]; trivial, ⟨hstate, rfl, h.drain hstate hne⟩, fun hc => absurd hown hc,
      fun g hg => by cases hg⟩

/-! ### Retiring -/

/-- Without references nobody but the one that retires the slot has to do with
it. -/
lemma fits_of_retirer {s' : PoolSlot} (h : SlotOk params s v) (hp : (v p).retires)
    (hholds : s.holds = 0) (hw : Fits params s' w) :
    ∀ q, Fits params s' (Function.update v p w q) := by
  refine Function.forall_update_iff v (fun _ w => Fits params s' w) |>.mpr ⟨hw, fun q hq => ?_⟩
  have hf := h.fits q
  have hb := h.not_busy (Or.inr hp) q hq
  obtain ⟨hown, haux⟩ := not_or.mp hb
  refine ⟨by rw [not_not.mp hown]; trivial, ?_, hf.own_refs, hf.aux_refs⟩
  rw [View.retires] at haux
  cases ha : (v q).aux with
  | none => trivial
  | probing g =>
    have hmem := h.mem_holds (hf.aux_refs g ha)
    rw [hholds] at hmem
    exact absurd hmem (Multiset.notMem_zero q)
  | _ => exact absurd (by rw [ha]; trivial) haux

/-- The process that retires the slot owns nothing of it. -/
lemma retirer_own (h : SlotOk params s v) (hs : s.state = .retiring) : (v p).own = .none := by
  have hown := (h.fits p).own
  cases hc : (v p).own with
  | none => rfl
  | claimed => rw [hc] at hown; rw [hown.1] at hs; cases hs
  | counted => rw [hc] at hown; rw [hown.1] at hs; cases hs
  | refused => rw [hc] at hown; rw [hown.1] at hs; cases hs
  | acquired g => rw [hc] at hown; rw [hown.1] at hs; cases hs
  | builder g inserted => rw [hc] at hown; rw [hown.1] at hs; cases hs
  | inserting g inserted hash done => rw [hc] at hown; rw [hown.1] at hs; cases hs

/-- The process that retires the slot changes it, and goes on retiring it. -/
lemma retire {s' : PoolSlot} {aux : Aux} (h : SlotOk params s v) (hp : (v p).retires)
    (haux : aux.retires) (hstate' : s'.state = s.state) (hrefs : s'.refs = s.refs)
    (hholds' : s'.holds = s.holds) (hready : s'.header.state = .ready →
      ∀ h ∈ s'.published s'.header.generation, s'.Marked params h)
    (hfits : AuxFits s' aux) : SlotOk params s' (Function.update v p { v p with aux := aux }) := by
  obtain ⟨hstate, hholds⟩ := (h.fits p).aux.of_retires hp
  have hs' : s'.state = .retiring := hstate'.trans hstate
  have hown := h.retirer_own (p := p) hstate
  exact {
    refs := by rw [hrefs, hholds', h.refs]
    bound := by rw [hholds']; exact h.bound
    count := h.count_update (by rw [hholds', h.count]) fun q _ => by rw [hholds']
    lone := lone_update h.lone fun _ => Or.inl (Or.inr hp)
    free := fun hs => by rw [hs'] at hs; cases hs
    allocated := fun hs => by rw [hs'] at hs; cases hs
    drain := fun _ hc => absurd (hholds'.trans hholds) hc
    gone := fun _ _ => ⟨p, by rw [Function.update_self]; exact haux⟩
    ready := hready
    fits := h.fits_of_retirer hp hholds ⟨by rw [hown]; trivial, hfits, fun hc => absurd hown hc,
      fun g hg => by rw [show aux = .probing g from hg] at haux; exact haux.elim⟩ }

/-- The slot is freed. -/
lemma free_slot (h : SlotOk params s v) (hp : (v p).aux = .retired) :
    SlotOk params { s with state := .free } (Function.update v p { v p with aux := .none }) := by
  have haux := (h.fits p).aux
  rw [hp] at haux
  obtain ⟨hstate, hholds, hquiet⟩ := haux
  have hret : (v p).retires := by rw [View.retires, hp]; trivial
  have hown := h.retirer_own (p := p) hstate
  have hnone : ¬ View.busy { v p with aux := .none } := by
    rintro (hc | hc)
    · exact hc hown
    · exact hc.elim
  exact {
    refs := h.refs
    bound := h.bound
    count := h.count_update (h.count p) fun _ _ => rfl
    lone := lone_update h.lone fun hw => absurd hw hnone
    free := fun _ => ⟨hholds, hquiet, Function.forall_update_iff v (fun _ w => ¬ w.busy) |>.mpr
      ⟨hnone, h.not_busy (Or.inr hret)⟩⟩
    allocated := fun hs => by cases hs
    drain := fun hs => by cases hs
    gone := fun hs => by cases hs
    ready := h.ready
    fits := h.fits_of_retirer hret hholds ⟨by rw [hown]; trivial, trivial, fun hc => absurd hown hc,
      fun g hg => by cases hg⟩ }

/-! ### Probing -/

/-- What a prober misses in a filter that is ready was not published. -/
lemma notMem_published (h : SlotOk params s v) {g : ℕ} (hheader : s.header = ⟨g, .ready⟩)
    {hash : UInt64} {k : ℕ} (hk : k ∈ List.range params.hashCount)
    (hmiss : s.bits (params.wordMask hash k).1 &&& (params.wordMask hash k).2 = 0) :
    hash ∉ s.published g := by
  intro hmem
  have hmarked := h.ready (by rw [hheader]) hash (by rw [hheader]; exact hmem) k hk
  exact hmarked.and_ne_zero (params.wordMask_ne_zero hash k) hmiss

end SlotOk

end PgFusion.Filter

import PgFusion.Page.Sequential

/-!
Who holds the leased pages of a pool: a list of descriptors accounts for them when each is on it
exactly once.
* `HeldBy.tryAcquire`, `HeldBy.release`: a page has a holder from the one to the other.
-/

namespace PgFusion.Page

/-- A page is leased, in one way or the other. -/
def LeaseState.Leased (st : LeaseState) : Prop := st = .attached ∨ st = .detached

instance (st : LeaseState) : Decidable st.Leased := inferInstanceAs (Decidable (_ ∨ _))

lemma LeaseState.Leased.ne_free {st : LeaseState} (h : st.Leased) : st ≠ .free := by
  rcases h with rfl | rfl <;> decide

namespace PageStore

/-- A page is leased under the descriptor, in the state that the entry says. -/
structure Holds (pool : PagePool) (s : PageStore) (d : PageDescriptor) (st : LeaseState) :
    Prop where
  poolId : d.poolId = pool.poolId
  lt : d.pageId < pool.pageCount
  generation : s.generation d.pageId = d.generation
  state : s.state d.pageId = st
  leased : st.Leased

/-- The entries of the list are the leased pages, each exactly once. -/
structure HeldBy (pool : PagePool) (s : PageStore) (ds : List (PageDescriptor × LeaseState)) :
    Prop where
  valid : s.Valid pool
  nodup : (ds.map fun d => d.1.pageId).Nodup
  holds : ∀ d ∈ ds, s.Holds pool d.1 d.2
  all : ∀ i, i < pool.pageCount → (s.state i).Leased → ∃ d ∈ ds, d.1.pageId = i

/-- The number of leased pages. -/
def leasedPages (pool : PagePool) (s : PageStore) : ℕ :=
  ((List.range pool.pageCount).filter fun i => (s.state i).Leased).length

lemma heldBy_fresh (pool : PagePool) : (fresh pool).HeldBy pool [] where
  valid := valid_fresh pool
  nodup := List.nodup_nil
  holds _ hd := absurd hd List.not_mem_nil
  all i _ hi := absurd hi (by simp [fresh, LeaseState.Leased])

namespace HeldBy

variable {pool : PagePool} {s : PageStore} {ds : List (PageDescriptor × LeaseState)}
  {d : PageDescriptor} {st : LeaseState}

/-- The order of the entries does not matter. -/
lemma perm (h : s.HeldBy pool ds) {ds' : List (PageDescriptor × LeaseState)} (hp : ds.Perm ds') :
    s.HeldBy pool ds' where
  valid := h.valid
  nodup := (hp.map _).nodup_iff.mp h.nodup
  holds d hd := h.holds d (hp.mem_iff.mpr hd)
  all i hi hst := by
    obtain ⟨d, hd, he⟩ := h.all i hi hst
    exact ⟨d, hp.mem_iff.mp hd, he⟩

/-- Two entries are for different pages. -/
lemma ne_of_mem (h : s.HeldBy pool ((d, st) :: ds)) {d' : PageDescriptor × LeaseState}
    (hd : d' ∈ ds) :
    d'.1.pageId ≠ d.pageId := by
  intro he
  refine (List.nodup_cons.mp h.nodup).1 ?_
  exact List.mem_map.mpr ⟨d', hd, he⟩

/-- What becomes of the first entry is of no concern to the others. -/
lemma others (h : s.HeldBy pool ((d, st) :: ds)) (s' : PageStore)
    (hgen : s'.generation = s.generation)
    (hstate : ∀ j, j ≠ d.pageId → s'.state j = s.state j) : ∀ d' ∈ ds, s'.Holds pool d'.1 d'.2 := by
  intro d' hd
  have hd' := h.holds d' (List.mem_cons_of_mem _ hd)
  exact ⟨hd'.poolId, hd'.lt, by rw [hgen]; exact hd'.generation,
    by rw [hstate _ (h.ne_of_mem hd)]; exact hd'.state, hd'.leased⟩

/-- **An acquired page is a new entry**, and was free; a failed acquisition changes
nothing. -/
lemma tryAcquire (h : s.HeldBy pool ds) :
    (∃ d s', s.tryAcquire pool = (.ok d, s') ∧ s'.HeldBy pool ((d, .attached) :: ds) ∧
      s.state d.pageId = .free) ∨
      (s.tryAcquire pool = (.error .empty, s) ∧ s.free = []) := by
  have hvalid := h.valid.tryAcquire
  rw [PageStore.tryAcquire] at hvalid ⊢
  cases hfree : s.free with
  | nil => exact Or.inr ⟨rfl, rfl⟩
  | cons i rest =>
    obtain ⟨hlt, hst⟩ := (h.valid.mem_free i).mp (hfree ▸ List.mem_cons_self)
    simp only [hfree, hst, ne_eq, not_true, if_false] at hvalid ⊢
    have hne : ∀ d ∈ ds, d.1.pageId ≠ i := by
      intro d hd he
      have hd' := h.holds d hd
      exact hd'.leased.ne_free (hd'.state ▸ he ▸ hst)
    refine Or.inl ⟨_, _, rfl, ⟨hvalid, ?_, ?_, ?_⟩, hst⟩
    · rw [List.map_cons, List.nodup_cons]
      refine ⟨fun hm => ?_, h.nodup⟩
      obtain ⟨d, hd, he⟩ := List.mem_map.mp hm
      exact hne d hd he
    · intro d hd
      obtain rfl | hd := List.mem_cons.mp hd
      · exact ⟨rfl, hlt, Function.update_self .., Function.update_self .., Or.inl rfl⟩
      · have hd' := h.holds d hd
        exact ⟨hd'.poolId, hd'.lt, (Function.update_of_ne (hne d hd) _ _).trans hd'.generation,
          (Function.update_of_ne (hne d hd) _ _).trans hd'.state, hd'.leased⟩
    · intro j hj hleased
      by_cases hji : j = i
      · exact ⟨_, List.mem_cons_self, hji.symm⟩
      · simp only [Function.update_of_ne hji] at hleased
        obtain ⟨d, hd, he⟩ := h.all j hj hleased
        exact ⟨d, List.mem_cons_of_mem _ hd, he⟩

/-- **An attached entry is detached.** -/
lemma intoDescriptor (h : s.HeldBy pool ((d, .attached) :: ds)) :
    ∃ s', s.intoDescriptor pool d = (.ok d, s') ∧ s'.HeldBy pool ((d, .detached) :: ds) := by
  have hd := h.holds _ List.mem_cons_self
  refine ⟨s.setState d.pageId .detached, ?_, ?_, h.nodup, ?_, ?_⟩
  · rw [PageStore.intoDescriptor, detachDescriptor, if_neg (not_not.mpr hd.generation),
      if_neg (not_not.mpr hd.state)]
  · exact h.valid.setState (hd.state ▸ hd.leased.ne_free) (by decide)
  · intro d' hd'
    obtain rfl | hmem := List.mem_cons.mp hd'
    · exact ⟨hd.poolId, hd.lt, hd.generation, Function.update_self .., Or.inr rfl⟩
    · exact h.others (s.setState d.pageId .detached) rfl
        (fun j hj => Function.update_of_ne hj _ _) d' hmem
  · intro j hj hleased
    by_cases hjd : j = d.pageId
    · exact ⟨_, List.mem_cons_self, hjd.symm⟩
    · simp only [setState, Function.update_of_ne hjd] at hleased
      obtain ⟨d', hd', he⟩ := h.all j hj hleased
      obtain rfl | hmem := List.mem_cons.mp hd'
      · exact absurd he.symm hjd
      · exact ⟨d', List.mem_cons_of_mem _ hmem, he⟩

/-- **An entry is given up.** -/
lemma release (h : s.HeldBy pool ((d, st) :: ds)) :
    s.releaseWithState pool d st = (.ok (), s.giveBack d.pageId) ∧
      (s.giveBack d.pageId).HeldBy pool ds := by
  have hd := h.holds _ List.mem_cons_self
  have hroom := h.valid.length_lt hd.lt (hd.state ▸ hd.leased.ne_free)
  have hstate : ∀ j, j ≠ d.pageId → (s.giveBack d.pageId).state j = s.state j := by
    intro j hj
    rw [giveBack]
    split <;> exact Function.update_of_ne hj _ _
  have hgiven : ¬ ((s.giveBack d.pageId).state d.pageId).Leased := by
    rw [giveBack]
    split <;> simp [setState, LeaseState.Leased]
  refine ⟨?_, h.valid.giveBack hd.lt (hd.state ▸ hd.leased.ne_free),
    (List.nodup_cons.mp h.nodup).2, h.others _ ?_ hstate, ?_⟩
  · rw [releaseWithState, if_neg (not_not.mpr hd.poolId), if_neg (Nat.not_le.mpr hd.lt),
      if_neg (not_not.mpr hd.generation), if_neg (not_not.mpr hd.state),
      if_neg fun hfull => absurd hfull.2 (Nat.not_le.mpr hroom)]
  · rw [giveBack]
    split <;> rfl
  · intro j hj hleased
    have hjd : j ≠ d.pageId := fun he => hgiven (he ▸ hleased)
    rw [hstate j hjd] at hleased
    obtain ⟨d', hd', he⟩ := h.all j hj hleased
    obtain rfl | hmem := List.mem_cons.mp hd'
    · exact absurd he.symm hjd
    · exact ⟨d', hmem, he⟩

/-- A detached entry may be accessed. -/
lemma validate (h : s.HeldBy pool ds) (hd : (d, .detached) ∈ ds) :
    s.validateDetachedDescriptor pool d = .ok d.pageId := by
  have hd := h.holds _ hd
  rw [validateDetachedDescriptor, if_neg (not_not.mpr hd.poolId), if_neg (Nat.not_le.mpr hd.lt),
    if_neg (not_not.mpr hd.generation), hd.state]

/-- **There are as many leased pages as entries.** -/
lemma leasedPages (h : s.HeldBy pool ds) : s.leasedPages pool = ds.length := by
  have hlen : (ds.map fun d => d.1.pageId).length = ds.length := List.length_map _
  rw [PageStore.leasedPages, ← hlen]
  refine List.Perm.length_eq ((List.perm_ext_iff_of_nodup (List.nodup_range.filter _) h.nodup).mpr
    ?_)
  intro i
  simp only [List.mem_filter, List.mem_range, decide_eq_true_eq, List.mem_map]
  constructor
  · rintro ⟨hlt, hleased⟩
    exact h.all i hlt hleased
  · rintro ⟨d, hd, rfl⟩
    have hd' := h.holds d hd
    exact ⟨hd'.lt, hd'.state ▸ hd'.leased⟩

end HeldBy

end PageStore

end PgFusion.Page

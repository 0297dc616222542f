import Mathlib.Tactic
import PgFusion.Ring.Fifo

/-!
The ready flag of a ring loses no hint: whenever the producer is not between its two stores and the
consumer is not taking the flag down, a ring whose head and tail differ has its flag up
(`ready_of_unread`). The argument needs no arithmetic of the indices, so it holds for every
capacity.
-/

namespace PgFusion.Ring

/-! ### The outline -/

/-- Where a process stands as to the flag. The producer is `between` its two stores or not; the
consumer knows the head, has found a frame, has taken the flag down, or has then missed a frame. -/
inductive ReadyRole where
  | calm
  | between
  | atHead (h : ℕ)
  | found
  | updating (h : ℕ)
  | cleared (h : ℕ)
  | missed

namespace ReadyRole

/-- The consumer relies on the flag to be up, or about to be put up. -/
def expects : ReadyRole → Bool
  | found => true
  | updating _ => true
  | _ => false

/-- The consumer has taken the flag down and not yet looked again or put it up. -/
def clearing : ReadyRole → Bool
  | cleared _ => true
  | missed => true
  | _ => false

/-- The head, as the consumer knows it. -/
def knows : ReadyRole → Option ℕ
  | atHead h => some h
  | updating h => some h
  | cleared h => some h
  | _ => none

/-- The roles that stand for one place in the program say which. -/
def permits : ReadyRole → Option RingOp → Prop
  | between, op => op = some (.storeReady true)
  | cleared _, op => op = some (.loadTail .afterClear)
  | missed, op => op = some (.storeReady true)
  | _, _ => True

end ReadyRole

/-- A ring whose indices differ has its flag up, unless one of the two windows is
open. -/
structure ReadyInv (x : FramedRing) (g₀ g₁ : ReadyRole) : Prop where
  ready : x.head ≠ x.tail ∨ g₁.expects → x.ready ∨ g₀ = .between ∨ g₁.clearing
  knows : ∀ h, g₁.knows = some h → x.head = h

/-- The outline of the flag. -/
def readyOutline : Outline ringMachine ReadyRole where
  Inv x ρ := ReadyInv x (ρ 0) (ρ 1)
  cond := anyAccess
  permits := ReadyRole.permits

/-- An idle process is in neither window. -/
def readyPost (_ : ℕ) (_ : RingClient) (g : ReadyRole) : Prop :=
  g ≠ .between ∧ g.clearing = false

section Wp

variable {α : Type} {op : RingOp} {f : ringAccess.Res op → Prog ringAccess α}
  {Q : α → ReadyRole → Prop} {g : ReadyRole}

/-- An access of the producer. -/
lemma wp_ready_producer
    (hperm : g.permits (some op))
    (h : ∀ x g₁, ReadyInv x g g₁ → ∃ r x' g', FramedRing.exec 0 op x = (r, x') ∧
      ReadyInv x' g' g₁ ∧ readyOutline.wp 0 (f r) Q g') :
    readyOutline.wp 0 (onRing op >>= f) Q g := by
  refine Outline.wp_step hperm fun x ρ hI hp _ => ?_
  obtain ⟨r, x', g', he, hI', hf⟩ := h x (ρ 1) (hp ▸ hI)
  exact ⟨r, x', g', he, by simpa [readyOutline] using hI', hf⟩

/-- An access of the consumer. -/
lemma wp_ready_consumer
    (hperm : g.permits (some op))
    (h : ∀ x g₀, ReadyInv x g₀ g → ∃ r x' g', FramedRing.exec 1 op x = (r, x') ∧
      ReadyInv x' g₀ g' ∧ readyOutline.wp 1 (f r) Q g') :
    readyOutline.wp 1 (onRing op >>= f) Q g := by
  refine Outline.wp_step hperm fun x ρ hI hp _ => ?_
  obtain ⟨r, x', g', he, hI', hf⟩ := h x (ρ 0) (hp ▸ hI)
  exact ⟨r, x', g', he, by simpa [readyOutline] using hI', hf⟩

/-- The bytes of the buffer are no concern of the flag. -/
lemma wp_ready_copyIn (dst : ℕ) (bs : List UInt8) :
    readyOutline.wp 0 (copyIn dst bs) (fun _ g => g = .calm) .calm := by
  induction bs generalizing dst with
  | nil => rfl
  | cons b bs ih =>
    exact wp_ready_producer trivial fun x g₁ hI => ⟨(), _, .calm, rfl, ⟨hI.ready, hI.knows⟩, ih _⟩

lemma wp_ready_writeBytesWrapped (start c : ℕ) (src : List UInt8) :
    readyOutline.wp 0 (writeBytesWrapped start c src) (fun _ g => g = .calm) .calm := by
  rw [writeBytesWrapped]
  split
  · rfl
  refine Outline.wp_seq (wp_ready_copyIn _ _) ?_
  rintro _ _ rfl
  split
  · exact wp_ready_copyIn _ _
  · rfl

lemma wp_ready_copyOut (src n : ℕ) :
    readyOutline.wp 1 (copyOut src n) (fun _ g => g = .found) .found := by
  induction n generalizing src with
  | zero => rfl
  | succ n ih =>
    refine wp_ready_consumer trivial fun x g₀ hI => ⟨_, x, .found, rfl, hI, ?_⟩
    exact Outline.wp_seq (ih _) fun _ _ h => h

lemma wp_ready_readBytesWrapped (start c n : ℕ) :
    readyOutline.wp 1 (readBytesWrapped start c n) (fun _ g => g = .found) .found := by
  rw [readBytesWrapped]
  split
  · rfl
  refine Outline.wp_seq (wp_ready_copyOut _ _) ?_
  rintro _ _ rfl
  split
  · exact Outline.wp_seq (wp_ready_copyOut _ _) fun _ _ h => h
  · rfl

lemma wp_ready_signalPeer : readyOutline.wp 0 signalPeer (fun _ g => g = .calm) .calm := by
  refine wp_ready_producer trivial fun x g₁ hI => ⟨x.peerPid, x, .calm, rfl, hI, ?_⟩
  rw [signalPidUsr1]
  split
  · rfl
  refine wp_ready_producer trivial fun y g₁ hI => ⟨y.kill x.peerPid, y, .calm, rfl, hI, ?_⟩
  cases y.kill x.peerPid <;> rfl

lemma wp_ready_sendFrame (c : ℕ) (payload : List UInt8) :
    readyOutline.wp 0 (sendFrame c payload) (fun _ g => g = .calm) .calm := by
  refine Outline.wp_seq (R := fun _ g => g = .calm) ?_ ?_
  · refine wp_ready_producer trivial fun x g₁ hI => ⟨x.head, x, .calm, rfl, hI, ?_⟩
    refine wp_ready_producer trivial fun y g₁ hI => ⟨y.tail, y, .calm, rfl, hI, ?_⟩
    split <;> rfl
  rintro (e | snapshot) _ rfl
  · rfl
  dsimp only
  cases buildPublishPlan snapshot payload.length with
  | error e => rfl
  | ok plan =>
    refine Outline.wp_seq (wp_ready_writeBytesWrapped _ _ _) ?_
    rintro _ _ rfl
    refine Outline.wp_seq (wp_ready_writeBytesWrapped _ _ _) ?_
    rintro _ _ rfl
    refine wp_ready_producer trivial fun x g₁ hI => ⟨(), _, .between, rfl,
      ⟨fun _ => Or.inr (Or.inl rfl), hI.knows⟩, ?_⟩
    refine wp_ready_producer rfl fun x g₁ hI => ⟨(), _, .calm, rfl,
      ⟨fun _ => Or.inl rfl, hI.knows⟩, ?_⟩
    refine Outline.wp_seq wp_ready_signalPeer ?_
    rintro (e | _ | _) _ rfl <;> rfl

/-- Taking the flag down: either the tail is still where the head is, or the flag
goes up again. -/
lemma wp_ready_updateReadyAfterConsume (n : ℕ) :
    readyOutline.wp 1 (updateReadyAfterConsume n)
      (fun _ g => g ≠ .between ∧ g.clearing = false) (.updating n) := by
  refine wp_ready_consumer trivial fun x g₀ hI => ⟨x.tail, x, .updating n, rfl, hI, ?_⟩
  split
  · exact ⟨by simp, rfl⟩
  refine wp_ready_consumer trivial fun x g₀ hI => ⟨(), _, .cleared n, rfl,
    ⟨fun _ => Or.inr (Or.inr rfl), hI.knows⟩, ?_⟩
  refine wp_ready_consumer rfl fun x g₀ hI => ?_
  by_cases hne : x.tail ≠ n
  · refine ⟨x.tail, x, .missed, rfl, ⟨fun _ => Or.inr (Or.inr rfl), by simp [ReadyRole.knows]⟩, ?_⟩
    rw [if_pos hne]
    exact Outline.wp_last (wp_ready_consumer rfl fun x g₀ hI =>
      ⟨(), _, .calm, rfl, ⟨fun _ => Or.inl rfl, by simp [ReadyRole.knows]⟩, by simp, rfl⟩)
  · refine ⟨x.tail, x, .calm, rfl, ⟨fun h => ?_, by simp [ReadyRole.knows]⟩, ?_⟩
    · -- the tail is where the consumer left the head
      have hhead := hI.knows n rfl
      rcases h with h | h
      · exact absurd (hhead.trans (not_not.mp hne).symm) h
      · cases h
    · rw [if_neg hne]
      exact ⟨by simp, rfl⟩

lemma wp_ready_recvFrameInto (c dstLen : ℕ) :
    readyOutline.wp 1 (recvFrameInto c dstLen)
      (fun _ g => g ≠ .between ∧ g.clearing = false) .calm := by
  refine Outline.wp_seq (R := fun r g => (∃ e, r = .error e ∧ g = .calm) ∨
    ∃ s : RingSnapshot, r = .ok s ∧ g = if s.isEmpty then .calm else .found) ?_ ?_
  · refine wp_ready_consumer trivial fun x g₀ hI => ⟨x.head, x, .atHead x.head, rfl,
      ⟨hI.ready, by simp [ReadyRole.knows]⟩, ?_⟩
    generalize x.head = h
    refine wp_ready_consumer trivial fun x g₀ hI => ?_
    have hhead : x.head = h := hI.knows h rfl
    by_cases hrange : h ≥ c ∨ x.tail ≥ c
    · refine ⟨x.tail, _, .calm, rfl, ⟨hI.ready, by simp [ReadyRole.knows]⟩, ?_⟩
      rw [if_pos hrange]
      exact Or.inl ⟨_, rfl, rfl⟩
    refine ⟨x.tail, _, if RingSnapshot.isEmpty ⟨h, x.tail, c⟩ then .calm else .found, rfl, ?_, ?_⟩
    · by_cases hempty : RingSnapshot.isEmpty ⟨h, x.tail, c⟩
      · rw [if_pos hempty]
        exact ⟨hI.ready, by simp [ReadyRole.knows]⟩
      · rw [if_neg hempty]
        refine ⟨fun _ => hI.ready (Or.inl ?_), by simp [ReadyRole.knows]⟩
        rw [hhead]
        simpa [RingSnapshot.isEmpty] using hempty
    · rw [if_neg hrange]
      exact Or.inr ⟨_, rfl, rfl⟩
  rintro _ _ (⟨e, rfl, rfl⟩ | ⟨s, rfl, rfl⟩)
  · exact ⟨by simp, rfl⟩
  dsimp only
  split
  · exact ⟨by simp, rfl⟩
  refine Outline.wp_seq (R := fun _ g => g = .found) ?_ ?_
  · refine Outline.wp_seq (R := fun _ g => g = ReadyRole.found)
      (Outline.wp_seq (wp_ready_readBytesWrapped _ _ _) fun _ _ h => h) ?_
    rintro len _ rfl
    dsimp only
    split
    · rfl
    split <;> rfl
  rintro (e | plan) _ rfl
  · exact ⟨by simp, rfl⟩
  refine Outline.wp_seq (wp_ready_readBytesWrapped _ _ _) ?_
  rintro payload _ rfl
  refine wp_ready_consumer trivial fun x g₀ hI => ⟨(), _, .updating plan.nextHead, rfl,
    ⟨fun _ => hI.ready (Or.inr rfl), by simp [ReadyRole.knows, FramedRing.noteStore]⟩, ?_⟩
  split
  · exact Outline.wp_seq (wp_ready_updateReadyAfterConsume _) fun _ _ h => h
  · exact ⟨by simp, rfl⟩

end Wp

/-! ### Every interleaving -/

/-- The calls of producer and consumer keep the outline. -/
lemma ready_supports (c : ℕ) : readyOutline.Supports (ringSystem c) anyAccess readyPost where
  call := by
    rintro x ρ p cl call x' prog hI - ⟨hbetween, hclearing⟩ hstart
    cases call with
    | send payload =>
      simp only [ringSystem] at hstart
      split at hstart
      · next hp =>
        subst hp
        obtain ⟨rfl, rfl⟩ := Prod.mk.inj (Option.some.inj hstart)
        refine ⟨.calm, ⟨fun h => ?_, hI.knows⟩, Outline.wp_seq (wp_ready_sendFrame c payload) ?_⟩
        · obtain h | h | h := hI.ready h
          · exact Or.inl h
          · exact absurd h hbetween
          · exact Or.inr (Or.inr h)
        · rintro _ _ rfl
          exact ⟨by simp, rfl⟩
      · cases hstart
    | recv dstLen =>
      simp only [ringSystem] at hstart
      split at hstart
      · next hp =>
        subst hp
        obtain ⟨rfl, rfl⟩ := Prod.mk.inj (Option.some.inj hstart)
        refine ⟨.calm, ⟨fun h => ?_, fun _ h => by cases h⟩,
          Outline.wp_seq (wp_ready_recvFrameInto c dstLen) fun _ _ h => h⟩
        obtain h | h | h := hI.ready (h.imp_right fun h => by cases h)
        · exact Or.inl h
        · exact Or.inr (Or.inl h)
        · rw [hclearing] at h
          cases h
      · cases hstart
  env := by
    rintro x ρ e x' hI henv
    cases e <;> obtain rfl := Option.some.inj henv <;> exact ⟨hI.ready, hI.knows⟩
  cond := fun _ h => h

variable {c : ℕ}

/-- The producer has stored the tail and not yet raised the flag. -/
def BetweenStores (s : Config (ringSystem c)) : Prop :=
  (s.thread 0).nextOp = some (.storeReady true)

/-- The consumer is inside `update_ready_after_consume`. -/
def InsideUpdate (s : Config (ringSystem c)) : Prop :=
  (s.thread 1).nextOp = some (.loadTail .afterHead) ∨
    (s.thread 1).nextOp = some (.storeReady false) ∨
    (s.thread 1).nextOp = some (.loadTail .afterClear) ∨
    (s.thread 1).nextOp = some (.storeReady true)

/-- **No lost ready hint.** Whenever the producer is not between its tail store and its ready store
and the consumer is not inside `update_ready_after_consume`, a ring whose head and tail differ has
its flag up; and so has, for the capacities at which the ring is a queue, one with an unread
payload. -/
theorem ready_of_unread (hmin : minRingCapacity ≤ c) {data : ℕ → UInt8} {ready : Bool}
    {pid : ℤ} {kill : ℤ → KillResult} {s : Config (ringSystem c)}
    (hr : Reach anyAccess (ringStart c data ready pid kill) s) (hprod : ¬ BetweenStores s)
    (hcons : ¬ InsideUpdate s) :
    (s.mem.head ≠ s.mem.tail → s.mem.ready = true) ∧
      (c ≤ 2 ^ 31 → s.mem.received.length < s.mem.sent.length → s.mem.ready = true) := by
  have hstart : Outline.Holds readyOutline readyPost (ringStart c data ready pid kill)
      fun _ => .calm :=
    ⟨⟨fun h => h.elim (fun h => absurd rfl h) (fun h => by cases h), fun _ h => by cases h⟩,
      fun _ => ⟨by simp, rfl⟩⟩
  obtain ⟨ρ, hholds⟩ := Outline.holds_reach (ready_supports c) hstart hr
  have hflag : s.mem.head ≠ s.mem.tail → s.mem.ready = true := by
    intro hne
    obtain h | h | h := hholds.1.ready (Or.inl hne)
    · exact h
    · -- the producer would be at its ready store
      obtain ⟨cl, -, hpost, -⟩ := hholds.ret_of_not_permits (p := 0) (by rw [h]; exact hprod)
      exact absurd h hpost
    · -- the consumer would be at one of the last two accesses of the update
      have hperm : ¬ (ρ 1).permits (s.thread 1).nextOp := by
        intro hperm
        revert h hperm
        cases ρ 1 with
        | cleared n => exact fun _ hp => hcons (Or.inr (Or.inr (Or.inl hp)))
        | missed => exact fun _ hp => hcons (Or.inr (Or.inr (Or.inr hp)))
        | _ => exact fun h => by cases h
      obtain ⟨cl, -, -, hpost⟩ := hholds.ret_of_not_permits (p := 1) hperm
      rw [hpost] at h
      cases h
  refine ⟨hflag, fun hcap hlen => hflag fun he => ?_⟩
  obtain ⟨_, ⟨pending, hI⟩, -⟩ := fifo_reach hmin hcap hr
  rw [hI.sent, hI.tail_eq_head.mp he.symm, List.append_nil] at hlen
  exact absurd hlen (lt_irrefl _)

/-- On a ring of sixteen bytes the producer publishes a second payload while the
consumer consumes the first: the consumer has loaded the tail before, and sees at
the end of its update that there is more. -/
theorem ready_of_unread_sixteen : ∃ s : Config (ringSystem 16),
    Reach anyAccess (ringStart 16 (fun _ => 0) false 0 fun _ => .noSuchProcess) s ∧
      ¬ BetweenStores s ∧ ¬ InsideUpdate s ∧ s.mem.head ≠ s.mem.tail ∧ s.mem.ready = true := by
  have hrun : ((ringStart 16 (fun _ => 0) false 0 fun _ => .noSuchProcess).run (fun _ _ _ => true)
      (ringCallFor 0 10 (.send [1]) ++ ringCallFor 1 10 (.recv 3) ++ ringCallFor 0 10 (.send [2]) ++
        List.replicate 2 (.step 1))).map (fun s => ((s.thread 0).nextOp, (s.thread 1).nextOp,
          s.mem.head, s.mem.tail)) = some (none, none, 5, 10) := by
    decide +kernel
  obtain ⟨s, hs, hres⟩ := Option.map_eq_some_iff.mp hrun
  simp only [Prod.mk.injEq] at hres
  obtain ⟨h₀, h₁, hhead, htail⟩ := hres
  have hr : Reach anyAccess _ _ := reach_of_run (fun _ _ _ _ => trivial) hs
  have hprod : ¬ BetweenStores s := by simp [BetweenStores, h₀]
  have hcons : ¬ InsideUpdate s := by simp [InsideUpdate, h₁]
  have hne : s.mem.head ≠ s.mem.tail := by simp [hhead, htail]
  exact ⟨s, hr, hprod, hcons, hne, (ready_of_unread (by decide) hr hprod hcons).1 hne⟩

end PgFusion.Ring

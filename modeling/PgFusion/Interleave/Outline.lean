import PgFusion.Interleave.Program

/-!
Proof outlines for interleaved programs. An outline gives every process a role, which says what the
process may assume and do, and an invariant that ties the memory to the roles of all processes. Each
access of a program is justified once, in every memory that the invariant and the process's own role
allow.
-/

namespace PgFusion

variable {A : Access} {M : Machine A} {G : Type}

/-- An invariant over the memory and the roles of the processes, the condition
under which accesses are made, and the accesses that a role permits, so that a
role can say where in its program a process stands; `none` stands for entering a
loop. -/
structure Outline (M : Machine A) (G : Type) where
  Inv : M.Mem → (ℕ → G) → Prop
  cond : ℕ → A.Op → M.Mem → Prop
  permits : G → Option A.Op → Prop := fun _ _ => True

namespace Outline

variable (Λ : Outline M G) {α β σ : Type} {p : ℕ}

/-- From role `g`, the program of process `p` keeps the invariant at each of its
accesses, changing its role as it goes, and returns in a role that satisfies
`Q`. -/
def wp (p : ℕ) : ∀ {α : Type}, Prog A α → (α → G → Prop) → G → Prop
  | _, .ret a, Q, g => Q a g
  | _, .access op k, Q, g => Λ.permits g (some op) ∧
      ∀ m ρ, Λ.Inv m ρ → ρ p = g → Λ.cond p op m →
        ∃ g', Λ.Inv (M.exec p op m).2 (Function.update ρ p g') ∧
          wp p (k (M.exec p op m).1) Q g'
  | _, @Prog.loop _ σ _ _ body s k, Q, g => ∃ I : σ → G → Prop, I s g ∧ ∀ s g, I s g →
      Λ.permits g none ∧
        wp p (body s) (fun r g' => r.elim (fun s' => I s' g') fun b => wp p (k b) Q g') g

@[simp] lemma wp_ret (a : α) (Q : α → G → Prop) (g : G) :
    Λ.wp p (.ret a) Q g ↔ Q a g := Iff.rfl

variable {Λ}

variable {g : G}

/-- The rule of consequence. -/
lemma wp_mono {x : Prog A α} {Q Q' : α → G → Prop} (h : Λ.wp p x Q g)
    (hQ : ∀ a g, Q a g → Q' a g) : Λ.wp p x Q' g := by
  induction x generalizing g with
  | ret a => exact hQ a g h
  | access op k ih =>
    refine ⟨h.1, fun m ρ hI hg hc => ?_⟩
    obtain ⟨g', hI', hk⟩ := h.2 m ρ hI hg hc
    exact ⟨g', hI', ih _ hk hQ⟩
  | loop body s k ihb ihk =>
    obtain ⟨I, hs, hbody⟩ := h
    refine ⟨I, hs, fun s g hI => ⟨(hbody s g hI).1, ihb s (hbody s g hI).2 fun r g' hr => ?_⟩⟩
    cases r with
    | inl s' => exact hr
    | inr b => exact ihk b hr hQ

/-- The rule of sequencing: the postcondition of the first part is what the
second part needs. -/
lemma wp_bind {x : Prog A α} {f : α → Prog A β} {Q : β → G → Prop}
    (h : Λ.wp p x (fun a g' => Λ.wp p (f a) Q g') g) : Λ.wp p (x >>= f) Q g := by
  induction x generalizing g with
  | ret a => exact h
  | access op k ih =>
    refine ⟨h.1, fun m ρ hI hg hc => ?_⟩
    obtain ⟨g', hI', hk⟩ := h.2 m ρ hI hg hc
    exact ⟨g', hI', ih _ hk⟩
  | loop body s k ihb ihk =>
    obtain ⟨I, hs, hbody⟩ := h
    refine ⟨I, hs, fun s g hI => ⟨(hbody s g hI).1, wp_mono (hbody s g hI).2 fun r g' hr => ?_⟩⟩
    cases r with
    | inl s' => exact hr
    | inr b => exact ihk b hr

/-- Sequencing with a specification of the first part. -/
lemma wp_seq {x : Prog A α} {f : α → Prog A β} {R : α → G → Prop} {Q : β → G → Prop}
    (hx : Λ.wp p x R g) (hf : ∀ a g', R a g' → Λ.wp p (f a) Q g') :
    Λ.wp p (x >>= f) Q g :=
  wp_bind (wp_mono hx hf)

/-- The rule for an access and what comes after it: what the access returns and
leaves behind, and the role in which the process goes on. -/
lemma wp_step {op : A.Op} {f : A.Res op → Prog A α} {Q : α → G → Prop}
    (hperm : Λ.permits g (some op))
    (h : ∀ m ρ, Λ.Inv m ρ → ρ p = g → Λ.cond p op m → ∃ r m' g', M.exec p op m = (r, m') ∧
      Λ.Inv m' (Function.update ρ p g') ∧ Λ.wp p (f r) Q g') :
    Λ.wp p (Prog.perform op >>= f) Q g := by
  refine ⟨hperm, fun m ρ hI hg hc => ?_⟩
  obtain ⟨r, m', g', he, hI', hf⟩ := h m ρ hI hg hc
  rw [he]
  exact ⟨g', hI', hf⟩

/-- An access at the end of a program is one after which nothing is done. -/
lemma wp_last {op : A.Op} {Q : A.Res op → G → Prop}
    (h : Λ.wp p (Prog.perform op >>= Prog.ret) Q g) : Λ.wp p (Prog.perform op) Q g := h

/-- The rule for a loop: an invariant that each round keeps. -/
lemma wp_repeat {s : σ} {body : σ → Prog A (σ ⊕ β)} {Q : β → G → Prop}
    (I : σ → G → Prop) (hperm : ∀ s g, I s g → Λ.permits g none) (hs : I s g)
    (hbody : ∀ s g, I s g →
      Λ.wp p (body s) (fun r g' => r.elim (fun s' => I s' g') fun b => Q b g') g) :
    Λ.wp p (Prog.repeatFrom s body) Q g :=
  ⟨I, hs, fun s g hI => ⟨hperm s g hI, hbody s g hI⟩⟩

/-- One round of a loop needs no more than the loop. -/
lemma wp_unfold {body : σ → Prog A (σ ⊕ β)} {s : σ} {k : β → Prog A α} {Q : α → G → Prop}
    (h : Λ.wp p (.loop body s k) Q g) : Λ.wp p (Prog.unfold body s k) Q g := by
  obtain ⟨I, hs, hbody⟩ := h
  refine wp_seq (hbody s g hs).2 fun r g' hr => ?_
  cases r with
  | inl s' => exact ⟨I, hr, hbody⟩
  | inr b => exact hr

/-! ### Outlines of systems -/

/-- What an outline owes to a system in which the accesses satisfy `cond`: each call of an idle
process keeps the invariant and is justified down to an idle role, and the environment keeps the
invariant. -/
structure Supports (Λ : Outline M G) (S : System M) (cond : ℕ → A.Op → M.Mem → Prop)
    (Post : ℕ → S.Client → G → Prop) : Prop where
  call : ∀ {m ρ p cl c m' x}, Λ.Inv m ρ → S.live m p → Post p cl (ρ p) →
    S.start m p cl c = some (m', x) →
    ∃ g', Λ.Inv m' (Function.update ρ p g') ∧ Λ.wp p x (Post p) g'
  env : ∀ {m ρ e m'}, Λ.Inv m ρ → S.env e m = some m' → Λ.Inv m' ρ
  cond : ∀ {m p op}, S.live m p → cond p op m → Λ.cond p op m

variable {S : System M} {cond : ℕ → A.Op → M.Mem → Prop} {Post : ℕ → S.Client → G → Prop}

/-- The invariant holds of a configuration, and what is left of each program is
justified from the role of its process. -/
def Holds (Λ : Outline M G) (Post : ℕ → S.Client → G → Prop) (c : Config S) (ρ : ℕ → G) : Prop :=
  Λ.Inv c.mem ρ ∧ ∀ p, Λ.wp p (c.thread p) (Post p) (ρ p)

variable {ρ : ℕ → G}

/-- A process whose program is not at an access that its role permits has
returned, in a role fit for an idle process. -/
lemma Holds.ret_of_not_permits {c : Config S} (h : Holds Λ Post c ρ)
    (hp : ¬ Λ.permits (ρ p) (c.thread p).nextOp) :
    ∃ cl, c.thread p = .ret cl ∧ Post p cl (ρ p) := by
  have hwp := h.2 p
  revert hp hwp
  cases c.thread p with
  | ret cl => exact fun _ hwp => ⟨cl, rfl, hwp⟩
  | access op k => exact fun hp hwp => absurd hwp.1 hp
  | loop body s k =>
    rintro hp ⟨I, hs, hbody⟩
    exact absurd (hbody s _ hs).1 hp

/-- A process that changes both its role and its program keeps the justification
of the others. -/
private lemma holds_update {c : Config S} {m : M.Mem} {x : Prog A S.Client}
    (hwp : ∀ q, Λ.wp q (c.thread q) (Post q) (ρ q))
    (hI : Λ.Inv m (Function.update ρ p g)) (hx : Λ.wp p x (Post p) g) :
    Holds Λ Post (⟨m, Function.update c.thread p x⟩ : Config S) (Function.update ρ p g) := by
  refine ⟨hI, fun q => ?_⟩
  by_cases hq : q = p
  · subst hq
    simpa using hx
  · simpa [Function.update_of_ne hq] using hwp q

/-- One step keeps an outline, and the roles of the processes that do not act. -/
theorem holds_next (hΛ : Λ.Supports S cond Post) {c c' : Config S} {a : Action S}
    (h : Holds Λ Post c ρ) (ho : Obeys cond c a) (hn : c.next a = some c') :
    ∃ ρ', Holds Λ Post c' ρ' ∧ ∀ q, ¬ a.By q → ρ' q = ρ q := by
  obtain ⟨hI, hwp⟩ := h
  cases a with
  | env e =>
    obtain ⟨m, hm, rfl⟩ := Option.map_eq_some_iff.mp hn
    exact ⟨ρ, ⟨hΛ.env hI hm, hwp⟩, fun _ _ => rfl⟩
  | call p cl =>
    have hkeep : ∀ (g : G) q, ¬ (Action.call p cl : Action S).By q →
        Function.update ρ p g q = ρ q := fun g q hq =>
      Function.update_of_ne (fun h => hq h.symm) _ _
    simp only [Config.next, Config.startCall] at hn
    split at hn
    · next hlive =>
      split at hn
      · next x hx =>
        obtain ⟨⟨m', y⟩, hs, rfl⟩ := Option.map_eq_some_iff.mp hn
        have hpost : Post p x (ρ p) := by simpa [hx] using hwp p
        obtain ⟨g', hI', hy⟩ := hΛ.call hI hlive hpost hs
        exact ⟨_, holds_update hwp hI' hy, hkeep g'⟩
      · exact absurd hn (by simp)
    · exact absurd hn (by simp)
  | step p =>
    have hkeep : ∀ (g : G) q, ¬ (Action.step p : Action S).By q →
        Function.update ρ p g q = ρ q := fun g q hq =>
      Function.update_of_ne (fun h => hq h.symm) _ _
    have hp := hwp p
    simp only [Config.next, Config.stepThread] at hn
    split at hn
    · next hlive =>
      split at hn
      · exact absurd hn (by simp)
      · next op k hx =>
        rw [hx] at hp
        have hc : cond p op c.mem := ho op (by rw [hx]; rfl)
        obtain ⟨g', hI', hk⟩ := hp.2 c.mem ρ hI rfl (hΛ.cond hlive hc)
        obtain rfl := Option.some.inj hn
        exact ⟨_, holds_update hwp hI' hk, hkeep g'⟩
      · next body s k hx =>
        rw [hx] at hp
        obtain rfl := Option.some.inj hn
        refine ⟨_, holds_update hwp ?_ (wp_unfold hp), hkeep (ρ p)⟩
        rwa [Function.update_eq_self]
    · exact absurd hn (by simp)

/-- **An outline that supports a system holds along every run.** -/
theorem holds_reach (hΛ : Λ.Supports S cond Post) {c c' : Config S}
    (h : Holds Λ Post c ρ) (hr : Reach cond c c') : ∃ ρ', Holds Λ Post c' ρ' := by
  induction hr with
  | refl => exact ⟨ρ, h⟩
  | step a _ ho hn ih =>
    obtain ⟨ρ₁, h₁⟩ := ih
    obtain ⟨ρ₂, h₂, _⟩ := holds_next hΛ h₁ ho hn
    exact ⟨ρ₂, h₂⟩

end Outline

end PgFusion

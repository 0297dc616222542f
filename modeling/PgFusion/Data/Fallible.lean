import Mathlib.Logic.Basic

/-!
Programs that may fail, as values of `Except`, with rules for their outcomes and their loops.
-/

namespace PgFusion.Fallible

variable {ε ε' α β : Type}

/-- Fails with `e` when `c` holds. -/
def refuse (c : Prop) [Decidable c] (e : ε) : Except ε Unit :=
  if c then .error e else .ok ()

@[simp] lemma refuse_eq_ok {c : Prop} [Decidable c] {e : ε} {u : Unit} :
    refuse c e = .ok u ↔ ¬ c := by
  rw [refuse]
  by_cases h : c
  · rw [if_pos h]
    exact ⟨nofun, fun hn => absurd h hn⟩
  · rw [if_neg h]
    exact ⟨fun _ => h, fun _ => rfl⟩

/-- A sequence succeeds when its steps do. -/
@[simp] lemma bind_eq_ok {x : Except ε α} {f : α → Except ε β} {b : β} :
    (x >>= f) = .ok b ↔ ∃ a, x = .ok a ∧ f a = .ok b := by
  constructor
  · intro h
    cases x with
    | error e => cases h
    | ok a => exact ⟨a, rfl, h⟩
  · rintro ⟨a, rfl, h⟩
    exact h

@[simp] lemma pure_eq_ok {a b : α} : (pure a : Except ε α) = .ok b ↔ a = b :=
  ⟨fun h => Except.ok.inj h, fun h => congrArg Except.ok h⟩

/-! ### Running a program -/

@[simp] lemma ok_bind (a : α) (f : α → Except ε β) : (Except.ok a >>= f) = f a := rfl

@[simp] lemma error_bind (e : ε) (f : α → Except ε β) : (Except.error e >>= f) = .error e := rfl

@[simp] lemma mapError_ok (f : ε → ε') (a : α) : (Except.ok a : Except ε α).mapError f = .ok a :=
  rfl

@[simp] lemma mapError_error (f : ε → ε') (e : ε) :
    (Except.error e : Except ε α).mapError f = .error (f e) := rfl

lemma refuse_of_pos {c : Prop} [Decidable c] {e : ε} (h : c) : refuse c e = .error e := by
  rw [refuse, if_pos h]

lemma refuse_of_not {c : Prop} [Decidable c] {e : ε} (h : ¬ c) : refuse c e = .ok () := by
  rw [refuse, if_neg h]

/-- A run of checks passes when each of them does. -/
lemma forM_eq_ok {f : α → Except ε Unit} {l : List α} {u : Unit} :
    l.forM f = .ok u ↔ ∀ a ∈ l, f a = .ok () := by
  induction l with
  | nil => exact ⟨fun _ a ha => absurd ha List.not_mem_nil, fun _ => rfl⟩
  | cons b l ih =>
    rw [List.forM, bind_eq_ok, List.forall_mem_cons]
    constructor
    · rintro ⟨_, hb, hl⟩
      exact ⟨hb, ih.mp hl⟩
    · rintro ⟨hb, hl⟩
      exact ⟨(), hb, ih.mpr hl⟩

/-! ### Outcomes -/

/-- What is known of the result of a program, and of its error. -/
def Outcome (x : Except ε α) (P : α → Prop) (Q : ε → Prop) : Prop :=
  (∀ a, x = .ok a → P a) ∧ ∀ e, x = .error e → Q e

variable {P : α → Prop} {Q : ε → Prop}

lemma Outcome.ok {a : α} (h : P a) : Outcome (.ok a) P Q :=
  ⟨fun _ heq => Except.ok.inj heq ▸ h, nofun⟩

lemma Outcome.error {e : ε} (h : Q e) : Outcome (.error e) P Q :=
  ⟨nofun, fun _ heq => Except.error.inj heq ▸ h⟩

lemma Outcome.bind {x : Except ε α} {f : α → Except ε β} {R : β → Prop}
    (hx : Outcome x P Q) (hf : ∀ a, P a → Outcome (f a) R Q) :
    Outcome (x >>= f) R Q := by
  cases x with
  | ok a => exact hf a (hx.1 a rfl)
  | error e => exact .error (hx.2 e rfl)

/-- A loop keeps an invariant of the elements that are done. -/
lemma Outcome.foldlM {σ : Type} {f : σ → β → Except ε σ} {l : List β} {s : σ}
    (P : List β → σ → Prop) (hs : P [] s)
    (hf : ∀ done b rest s, l = done ++ b :: rest → P done s → Outcome (f s b) (P (done ++ [b])) Q) :
    Outcome (l.foldlM f s) (P l) Q := by
  -- the invariant is carried along the part of the list that is left
  suffices h : ∀ rest done s, l = done ++ rest → P done s → Outcome (rest.foldlM f s) (P l) Q from
    h l [] s rfl hs
  intro rest
  induction rest with
  | nil =>
    intro done s hl hP
    rw [List.append_nil] at hl
    rw [List.foldlM_nil, hl]
    exact .ok hP
  | cons b rest ih =>
    intro done s hl hP
    rw [List.foldlM_cons]
    refine (hf done b rest s hl hP).bind fun s' hs' => ?_
    refine ih (done ++ [b]) s' ?_ hs'
    rw [hl, List.append_assoc, List.singleton_append]

/-- A loop over consecutive numbers keeps an invariant of the next one. -/
lemma Outcome.foldlM_range' {σ : Type} {f : σ → Nat → Except ε σ} (P : Nat → σ → Prop)
    {a n : Nat} {s : σ} (hs : P a s)
    (hf : ∀ i s, a ≤ i → i < a + n → P i s → Outcome (f s i) (P (i + 1)) Q) :
    Outcome ((List.range' a n).foldlM f s) (P (a + n)) Q := by
  induction n generalizing a s with
  | zero => exact .ok hs
  | succ n ih =>
    rw [List.range'_succ, List.foldlM_cons]
    refine (hf a s (Nat.le_refl a) (by omega) hs).bind fun s' hs' => ?_
    have hrest := ih hs' fun i s hi hn => hf i s (by omega) (by omega)
    rwa [Nat.add_right_comm, Nat.add_assoc] at hrest

/-! ### Loops -/

/-- A loop whose body fails, goes round again or ends, for so many rounds at most. -/
def rounds {σ : Type} (body : σ → Except ε (σ ⊕ α)) : Nat → σ → Option (Except ε α)
  | 0, _ => none
  | n + 1, s =>
    match body s with
    | .error e => some (.error e)
    | .ok (.inr a) => some (.ok a)
    | .ok (.inl s') => rounds body n s'

/-- **The rule for such a loop.** The invariant knows how many rounds are left at most. -/
lemma rounds_spec {σ : Type} {body : σ → Except ε (σ ⊕ α)} (inv : Nat → σ → Prop)
    (hbody : ∀ n s, inv n s → Outcome (body s) (Sum.elim (fun s' => ∃ k < n, inv k s') P) Q)
    {n fuel : Nat} {s : σ} (h : inv n s) (hfuel : n < fuel) :
    ∃ r, rounds body fuel s = some r ∧ Outcome r P Q := by
  induction fuel generalizing n s with
  | zero => omega
  | succ fuel ih =>
    have hround := hbody n s h
    rw [rounds]
    rcases hs : body s with e | s' | a
    · exact ⟨_, rfl, .error (hround.2 e hs)⟩
    · obtain ⟨k, hk, hs'⟩ : ∃ k < n, inv k s' := hround.1 _ hs
      exact ih hs' (by omega)
    · exact ⟨_, rfl, .ok (hround.1 (.inr a) hs)⟩

/-! ### Two programs in step -/

/-- The programs fail with the same error, or succeed with related results. -/
def Paired (x : Except ε α) (y : Except ε β) (R : α → β → Prop) : Prop :=
  (∃ a b, x = .ok a ∧ y = .ok b ∧ R a b) ∨ ∃ e, x = .error e ∧ y = .error e

lemma Paired.ok {a : α} {b : β} {R : α → β → Prop} (h : R a b) :
    Paired (.ok a : Except ε α) (.ok b) R :=
  Or.inl ⟨a, b, rfl, rfl, h⟩

lemma Paired.bind {α' β' : Type} {x : Except ε α} {y : Except ε β} {f : α → Except ε α'}
    {g : β → Except ε β'} {R : α → β → Prop} {R' : α' → β' → Prop} (h : Paired x y R)
    (hf : ∀ a b, R a b → Paired (f a) (g b) R') : Paired (x >>= f) (y >>= g) R' := by
  rcases h with ⟨a, b, rfl, rfl, hab⟩ | ⟨e, rfl, rfl⟩
  · exact hf a b hab
  · exact Or.inr ⟨e, rfl, rfl⟩

/-- Two loops over one list. -/
lemma Paired.foldlM {σ τ : Type} {f : σ → β → Except ε σ} {g : τ → β → Except ε τ}
    {R : σ → τ → Prop} (hf : ∀ s t b, R s t → Paired (f s b) (g t b) R) (l : List β) {s : σ} {t : τ}
    (h : R s t) : Paired (l.foldlM f s) (l.foldlM g t) R := by
  induction l generalizing s t with
  | nil => exact .ok h
  | cons b l ih =>
    rw [List.foldlM_cons, List.foldlM_cons]
    exact (hf s t b h).bind fun _ _ => ih

end PgFusion.Fallible

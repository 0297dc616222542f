import Mathlib.Data.List.Perm.Basic
import Mathlib.Data.Nat.Notation
import Mathlib.Logic.Function.Basic

/-!
Components that are used by one call at a time. A call that is not possible in a state, because its
caller does not hold what the call needs, has no outcome there.
-/

namespace PgFusion

variable {σ α : Type*}

/-- `Runs step ok s s'`: calls lead from `s` to `s'`, and each satisfies `ok` of the state in
which it is made. -/
inductive Runs (step : σ → α → Option σ) (ok : σ → α → Prop) : σ → σ → Prop where
  | refl (s : σ) : Runs step ok s s
  | step {s s' s'' : σ} (a : α) : Runs step ok s s' → ok s' a → step s' a = some s'' →
      Runs step ok s s''

namespace Runs

variable {step : σ → α → Option σ} {ok : σ → α → Prop} {s s' s'' : σ}

lemma trans (h : Runs step ok s s') (h' : Runs step ok s' s'') : Runs step ok s s'' := by
  induction h' with
  | refl => exact h
  | step a _ hok hstep ih => exact .step a ih hok hstep

lemma mono {ok' : σ → α → Prop} (h : Runs step ok s s') (hok : ∀ s a, ok s a → ok' s a) :
    Runs step ok' s s' := by
  induction h with
  | refl => exact .refl _
  | step a _ ha hstep ih => exact .step a ih (hok _ a ha) hstep

/-- What each call keeps is true of every state that a run leads to. -/
lemma invariant {P : σ → Prop} (h : Runs step ok s s') (hs : P s)
    (hstep : ∀ s a s', P s → ok s a → step s a = some s' → P s') : P s' := by
  induction h with
  | refl => exact hs
  | step a _ hok hnext ih => exact hstep _ a _ ih hok hnext

end Runs

/-- The state after a sequence of calls, if each of them is possible and allowed. -/
def runCalls (step : σ → α → Option σ) (ok : σ → α → Bool) : σ → List α → Option σ
  | s, [] => some s
  | s, a :: as => if ok s a then (step s a).bind fun s' => runCalls step ok s' as else none

/-- A sequence of calls that can be made is a run. -/
lemma runs_of_runCalls {step : σ → α → Option σ} {ok : σ → α → Bool} {s s' : σ} {as : List α}
    (h : runCalls step ok s as = some s') : Runs step (fun s a => ok s a) s s' := by
  induction as generalizing s with
  | nil =>
    obtain rfl : s = s' := Option.some.inj h
    exact .refl s
  | cons a as ih =>
    simp only [runCalls] at h
    split at h
    · next hok =>
        obtain ⟨t, ht, hrun⟩ := Option.bind_eq_some_iff.mp h
        exact Runs.trans (.step a (.refl s) hok ht) (ih hrun)
    · cases h

/-- A list is what stands at a place, and the rest. -/
lemma perm_cons_eraseIdx {l : List α} {i : ℕ} {x : α} (h : l[i]? = some x) :
    l.Perm (x :: l.eraseIdx i) := by
  obtain ⟨hi, rfl⟩ := List.getElem?_eq_some_iff.mp h
  exact (List.getElem_cons_eraseIdx_perm hi).symm

end PgFusion

import Mathlib.Logic.Basic

/-!
Programs that change a state and may fail. A program that fails leaves the state that it has
reached.
-/

namespace PgFusion

/-- A program over states `σ` that may fail with `ε`. -/
abbrev Stateful (σ ε α : Type) := ExceptT ε (StateM σ) α

namespace Stateful

variable {σ ε α β : Type}

/-- A result as a program. -/
def fromResult (r : Except ε α) : Stateful σ ε α := ExceptT.mk (pure r)

/-- The program `x`, started in `s`, ends with `r` in the state `s'`. -/
def Ends (x : Stateful σ ε α) (s : σ) (r : Except ε α) (s' : σ) : Prop := x.run.run s = (r, s')

variable {x : Stateful σ ε α} {f : α → Stateful σ ε β} {s s' s'' : σ} {r : Except ε β} {a : α}
  {e : ε}

lemma ends_pure (a : α) (s : σ) : Ends (pure a : Stateful σ ε α) s (.ok a) s := rfl

lemma ends_get (s : σ) : Ends (get : Stateful σ ε σ) s (.ok s) s := rfl

lemma ends_set (s s' : σ) : Ends (set s' : Stateful σ ε PUnit) s (.ok ⟨⟩) s' := rfl

lemma ends_modify (g : σ → σ) (s : σ) : Ends (modify g : Stateful σ ε PUnit) s (.ok ⟨⟩) (g s) := rfl

lemma ends_fromResult (r : Except ε α) (s : σ) : Ends (fromResult r : Stateful σ ε α) s r s := rfl

/-- A program that goes on after its first part. -/
lemma Ends.bind (hx : Ends x s (.ok a) s') (hf : Ends (f a) s' r s'') : Ends (x >>= f) s r s'' := by
  have hrun : (x >>= f).run.run s = (f a).run.run s' := by
    have hx' : x.run.run s = (.ok a, s') := hx
    rw [ExceptT.run_bind, StateT.run_bind, hx']
    rfl
  exact hrun.trans hf

/-- A program that fails in its first part. -/
lemma Ends.bind_error (hx : Ends x s (.error e) s') : Ends (x >>= f) s (.error e) s' := by
  have hx' : x.run.run s = (.error e, s') := hx
  have hrun : (x >>= f).run.run s = (.error e, s') := by
    rw [ExceptT.run_bind, StateT.run_bind, hx']
    rfl
  exact hrun

/-- A program whose first part is a result. -/
lemma Ends.result {x : Except ε α} (hx : x = .ok a) (hf : Ends (f a) s r s'') :
    Ends (fromResult x >>= f) s r s'' := by
  subst hx
  exact Ends.bind (ends_fromResult _ s) hf

lemma Ends.result_error {x : Except ε α} (hx : x = .error e) :
    Ends (fromResult x >>= f) s (.error e) s := by
  subst hx
  exact Ends.bind_error (ends_fromResult _ s)

end Stateful

end PgFusion

import Mathlib.Data.List.Basic
import Mathlib.Logic.Function.Basic

/-!
Singly linked chains over an array of links: `Linked stop next l` says that the links read off the
list `l` node by node, up to the number `stop`.
-/

namespace PgFusion

variable {stop : ℕ} {next : ℕ → ℕ}

/-- The links of the nodes of `l` lead from each node to the one after it, and
from the last to `stop`. -/
def Linked (stop : ℕ) (next : ℕ → ℕ) : List ℕ → Prop
  | [] => True
  | i :: l => next i = l.headD stop ∧ Linked stop next l

lemma linked_cons {i : ℕ} {l : List ℕ} :
    Linked stop next (i :: l) ↔ next i = l.headD stop ∧ Linked stop next l := Iff.rfl

/-- Writing the link of a node that is not on the chain keeps the chain. -/
lemma linked_update {v w : ℕ} {l : List ℕ} (hv : v ∉ l) :
    Linked stop (Function.update next v w) l ↔ Linked stop next l := by
  induction l with
  | nil => rfl
  | cons i l ih =>
    obtain ⟨hi, hl⟩ := not_or.mp (mt List.mem_cons.mpr hv)
    rw [linked_cons, linked_cons, ih hl, Function.update_of_ne (Ne.symm hi)]

/-- The entry of a chain is one of its nodes, unless the chain is empty. -/
lemma headD_mem_of_ne {l : List ℕ} (h : l.headD stop ≠ stop) : l.headD stop ∈ l := by
  cases l with
  | nil => exact absurd rfl h
  | cons i l => exact List.mem_cons_self

end PgFusion

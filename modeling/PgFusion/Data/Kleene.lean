import Mathlib.Tactic

/-!
Three-valued conjunctions and disjunctions of lists; unknown is `none`.
-/

namespace PgFusion.Kleene

/-- False where one value is false, otherwise unknown where one is unknown. -/
def all (l : List (Option Bool)) : Option Bool :=
  if some false ∈ l then some false else if none ∈ l then none else some true

/-- True where one value is true, otherwise unknown where one is unknown. -/
def any (l : List (Option Bool)) : Option Bool :=
  if some true ∈ l then some true else if none ∈ l then none else some false

variable {l : List (Option Bool)}

lemma all_cons_true : all (some true :: l) = all l := by
  simp only [all, List.mem_cons, Option.some.injEq, Bool.false_eq_true, reduceCtorEq, false_or]

lemma any_cons_false : any (some false :: l) = any l := by
  simp only [any, List.mem_cons, Option.some.injEq, Bool.true_eq_false, reduceCtorEq, false_or]

lemma all_singleton (v : Option Bool) : all [v] = v := by
  rcases v with _ | _ | _ <;> rfl

/-- One false value is enough. -/
lemma all_eq_false (h : some false ∈ l) : all l = some false := by
  rw [all, if_pos h]

lemma any_eq_true (h : some true ∈ l) : any l = some true := by
  rw [any, if_pos h]

/-- One unknown value keeps a conjunction from being true. -/
lemma all_ne_true (h : none ∈ l) : all l ≠ some true := by
  rw [all]
  split_ifs <;> simp

lemma any_eq_none (hnone : none ∈ l) (htrue : some true ∉ l) : any l = none := by
  rw [any, if_neg htrue, if_pos hnone]

/-- A disjunction of false values is false. -/
lemma any_eq_false (h : ∀ v ∈ l, v = some false) : any l = some false := by
  rw [any, if_neg fun hm => ?_, if_neg fun hm => ?_]
  · cases h _ hm
  · cases h _ hm

end PgFusion.Kleene

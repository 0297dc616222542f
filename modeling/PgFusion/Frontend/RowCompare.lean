import PgFusion.Data.Kleene
import PgFusion.Frontend.Number

/-!
Comparisons of rows (`pg/frontend`: `adapter/pg17/expr.rs`): `rowCompareExpr` builds a boolean
expression, and `row_comparisons_follow` says that its value is PostgreSQL's result, `pgRowCompare`.
-/

namespace PgFusion.Frontend

open PgType

variable {Q : Type}

/-! ### The source -/

/-- `RowCompareType`. -/
inductive RowCompareType where
  | lt
  | le
  | eq
  | ge
  | gt
  | ne
deriving DecidableEq

/-- `bool_binary_op`. -/
def boolBinaryOp (left : QueryExpr Q) (op : QueryOperator) (right : QueryExpr Q) : QueryExpr Q :=
  .binaryOp op left right ⟨boolOid, -1, 0⟩

/-- `row_pairwise_bool`. -/
def rowPairwiseBool (left right : List (QueryExpr Q)) (op : QueryOperator) (boolOp : BoolOp) :
    QueryExpr Q :=
  .bool boolOp ((left.zip right).map fun p => boolBinaryOp p.1 op p.2)

/-- The loop of `row_lexicographic_expr`: the disjuncts from here on, and the equations of all
pairs. -/
def lexicographicLoop (cmp : QueryOperator) :
    List (QueryExpr Q × QueryExpr Q) → List (QueryExpr Q) → List (QueryExpr Q) × List (QueryExpr Q)
  | [], equalPrefix => ([], equalPrefix)
  | (left, right) :: pairs, equalPrefix =>
    let cmpExpr := boolBinaryOp left cmp right
    let branch := if equalPrefix.isEmpty then cmpExpr else .bool .and (equalPrefix ++ [cmpExpr])
    let rest := lexicographicLoop cmp pairs (equalPrefix ++ [boolBinaryOp left .eq right])
    (branch :: rest.1, rest.2)

/-- `row_lexicographic_expr`. -/
def rowLexicographicExpr (left right : List (QueryExpr Q)) (cmp : QueryOperator)
    (includeEqual : Bool) :
    QueryExpr Q :=
  let (disjuncts, equalPrefix) := lexicographicLoop cmp (left.zip right) []
  .bool .or (if includeEqual then disjuncts ++ [.bool .and equalPrefix] else disjuncts)

/-- `row_compare_expr`. -/
def rowCompareExpr (rctype : RowCompareType) (left right : List (QueryExpr Q)) : QueryExpr Q :=
  match rctype with
  | .eq => rowPairwiseBool left right .eq .and
  | .ne => rowPairwiseBool left right .notEq .or
  | .lt => rowLexicographicExpr left right .lt false
  | .le => rowLexicographicExpr left right .lt true
  | .gt => rowLexicographicExpr left right .gt false
  | .ge => rowLexicographicExpr left right .gt true

/-! ### Values -/

variable {α : Type} [LinearOrder α] (value : QueryExpr Q → Option α)

mutual

/-- The value of a boolean expression over comparisons. The elements of a row are of any type with a
total order: `α` may be the disjoint sum of the types of the columns. -/
def evalBool : QueryExpr Q → Option Bool
  | .bool .and args => Kleene.all (evalBools args)
  | .bool .or args => Kleene.any (evalBools args)
  | .binaryOp op left right _ => compareCells op (value left) (value right)
  | _ => none

def evalBools : List (QueryExpr Q) → List (Option Bool)
  | [] => []
  | e :: es => evalBool e :: evalBools es

end

lemma evalBools_eq_map (es : List (QueryExpr Q)) :
    evalBools value es = es.map (evalBool value) := by
  induction es with
  | nil => rfl
  | cons e es ih => rw [evalBools, ih, List.map_cons]

lemma evalBool_and (es : List (QueryExpr Q)) :
    evalBool value (.bool .and es) = Kleene.all (es.map (evalBool value)) := by
  rw [evalBool, evalBools_eq_map]

lemma evalBool_or (es : List (QueryExpr Q)) :
    evalBool value (.bool .or es) = Kleene.any (es.map (evalBool value)) := by
  rw [evalBool, evalBools_eq_map]

/-! ### PostgreSQL -/

/-- The comparison of the first pair that is not equal. -/
def pgLexicographic (strict : α → α → Bool) (ifEqual : Bool) :
    List (Option α × Option α) → Option Bool
  | [] => some ifEqual
  | (some a, some b) :: pairs =>
    if a = b then pgLexicographic strict ifEqual pairs else some (strict a b)
  | _ :: _ => none

/-- The comparison of two rows. -/
def pgRowCompare (rctype : RowCompareType) (pairs : List (Option α × Option α)) : Option Bool :=
  match rctype with
  | .eq => Kleene.all (pairs.map fun p => compareCells .eq p.1 p.2)
  | .ne => Kleene.any (pairs.map fun p => compareCells .notEq p.1 p.2)
  | .lt => pgLexicographic (fun a b => decide (a < b)) false pairs
  | .le => pgLexicographic (fun a b => decide (a < b)) true pairs
  | .gt => pgLexicographic (fun a b => decide (b < a)) false pairs
  | .ge => pgLexicographic (fun a b => decide (b < a)) true pairs

/-! ### The disjuncts -/

/-- The disjuncts from a pair on. -/
def lexicographicDisjuncts (cmp : QueryOperator) (includeEqual : Bool)
    (pairs : List (QueryExpr Q × QueryExpr Q))
    (equalPrefix : List (QueryExpr Q)) : List (QueryExpr Q) :=
  if includeEqual then
    (lexicographicLoop cmp pairs equalPrefix).1 ++
      [.bool .and (lexicographicLoop cmp pairs equalPrefix).2]
  else (lexicographicLoop cmp pairs equalPrefix).1

lemma lexicographicDisjuncts_cons (cmp : QueryOperator) (includeEqual : Bool)
    (p : QueryExpr Q × QueryExpr Q)
    (pairs : List (QueryExpr Q × QueryExpr Q)) (equalPrefix : List (QueryExpr Q)) :
    lexicographicDisjuncts cmp includeEqual (p :: pairs) equalPrefix =
      (if equalPrefix.isEmpty then boolBinaryOp p.1 cmp p.2
        else .bool .and (equalPrefix ++ [boolBinaryOp p.1 cmp p.2])) ::
        lexicographicDisjuncts cmp includeEqual pairs (equalPrefix ++
          [boolBinaryOp p.1 .eq p.2]) := by
  cases includeEqual <;> rfl

variable {equalPrefix : List (QueryExpr Q)}

/-- Every later disjunct is a conjunction that contains the equations so far. -/
lemma mem_lexicographicDisjuncts {cmp : QueryOperator} {includeEqual : Bool}
    {pairs : List (QueryExpr Q × QueryExpr Q)} (hne : equalPrefix ≠ [])
    {d : QueryExpr Q} (h : d ∈ lexicographicDisjuncts cmp includeEqual pairs equalPrefix) :
    ∃ args, d = .bool .and args ∧ equalPrefix ⊆ args := by
  induction pairs generalizing equalPrefix with
  | nil =>
    cases includeEqual with
    | false => cases h
    | true => exact ⟨equalPrefix, List.mem_singleton.mp h, List.Subset.refl _⟩
  | cons p pairs ih =>
    rw [lexicographicDisjuncts_cons, if_neg (by simpa using hne)] at h
    rcases List.mem_cons.mp h with rfl | h
    · exact ⟨_, rfl, List.subset_append_left _ _⟩
    · obtain ⟨args, rfl, hsub⟩ := ih (by simp) h
      exact ⟨args, rfl, List.Subset.trans (List.subset_append_left _ _) hsub⟩

/-- A pair that is not equal decides all later disjuncts. -/
lemma disjunct_of_prefix {cmp : QueryOperator} {includeEqual : Bool}
    {pairs : List (QueryExpr Q × QueryExpr Q)} {e : QueryExpr Q}
    (he : e ∈ equalPrefix) {d : QueryExpr Q}
    (h : d ∈ lexicographicDisjuncts cmp includeEqual pairs equalPrefix) :
    (evalBool value e = some false → evalBool value d = some false) ∧
      (evalBool value e = none → evalBool value d ≠ some true) := by
  obtain ⟨args, rfl, hsub⟩ := mem_lexicographicDisjuncts (List.ne_nil_of_mem he) h
  have hmem := List.mem_map_of_mem (f := evalBool value) (hsub he)
  rw [evalBool_and]
  exact ⟨fun hv => Kleene.all_eq_false (hv ▸ hmem), fun hv => Kleene.all_ne_true (hv ▸ hmem)⟩

/-- Behind equations that hold, a disjunct has the value of its comparison. -/
lemma branch_value (htrue : ∀ e ∈ equalPrefix, evalBool value e = some true) (e : QueryExpr Q) :
    evalBool value (if equalPrefix.isEmpty then e else .bool .and (equalPrefix ++ [e])) =
      evalBool value e := by
  have hand : Kleene.all ((equalPrefix ++ [e]).map (evalBool value)) = evalBool value e := by
    induction equalPrefix with
    | nil => exact Kleene.all_singleton _
    | cons a rest ih =>
      rw [List.cons_append, List.map_cons, htrue a (List.mem_cons_self ..), Kleene.all_cons_true]
      exact ih fun b hb => htrue b (List.mem_cons_of_mem _ hb)
  split_ifs
  · rfl
  · rw [evalBool_and]
    exact hand

/-- **The disjunction is decided by the first pair that is not equal**: the pairs after it occur in
conjunctions that are false, or unknown where it has a null. -/
lemma lexicographic_value {cmp : QueryOperator} {strict : α → α → Bool}
    (hcmp : ∀ a b, compareCells cmp (some a) (some b) = some (strict a b))
    (hnull : ∀ a b : Option α, a = none ∨ b = none → compareCells cmp a b = none)
    (hirrefl : ∀ a, strict a a = false) (includeEqual : Bool)
    (pairs : List (QueryExpr Q × QueryExpr Q))
    (equalPrefix : List (QueryExpr Q)) (htrue : ∀ e ∈ equalPrefix, evalBool value e = some true) :
    Kleene.any ((lexicographicDisjuncts cmp includeEqual pairs equalPrefix).map (evalBool value)) =
      pgLexicographic strict includeEqual (pairs.map fun p => (value p.1, value p.2)) := by
  induction pairs generalizing equalPrefix with
  | nil =>
    cases includeEqual with
    | false => rfl
    | true =>
      have hall : evalBool value (.bool .and equalPrefix) = some true := by
        rw [evalBool_and, Kleene.all, if_neg, if_neg]
        · intro hm
          obtain ⟨e, he, hv⟩ := List.mem_map.mp hm
          rw [htrue e he] at hv
          cases hv
        · intro hm
          obtain ⟨e, he, hv⟩ := List.mem_map.mp hm
          rw [htrue e he] at hv
          cases hv
      exact Kleene.any_eq_true (hall ▸ List.mem_map_of_mem (List.mem_singleton_self _))
  | cons p pairs ih =>
    obtain ⟨left, right⟩ := p
    rw [lexicographicDisjuncts_cons, List.map_cons, branch_value value htrue, List.map_cons]
    have hrest : ∀ d ∈ lexicographicDisjuncts cmp includeEqual pairs
        (equalPrefix ++ [boolBinaryOp left .eq right]),
        (evalBool value (boolBinaryOp left .eq right) = some false → evalBool value d =
          some false) ∧
          (evalBool value (boolBinaryOp left .eq right) = none → evalBool value d ≠ some true) :=
      fun d hd => disjunct_of_prefix value (List.mem_append_right _ (List.mem_singleton_self _)) hd
    have hnulls : ∀ a b : Option α, a = none ∨ b = none → value left = a → value right = b →
        Kleene.any (evalBool value (boolBinaryOp left cmp right) ::
          (lexicographicDisjuncts cmp includeEqual pairs
            (equalPrefix ++ [boolBinaryOp left .eq right])).map (evalBool value)) = none := by
      intro a b hab hleft hright
      have hc : evalBool value (boolBinaryOp left cmp right) = none := by
        rw [boolBinaryOp, evalBool, hleft, hright]
        exact hnull a b hab
      have heq : evalBool value (boolBinaryOp left .eq right) = none := by
        rw [boolBinaryOp, evalBool, hleft, hright]
        rcases hab with rfl | rfl
        · rfl
        · cases a <;> rfl
      rw [hc]
      refine Kleene.any_eq_none (List.mem_cons_self ..) fun hm => ?_
      rcases List.mem_cons.mp hm with hm | hm
      · cases hm
      · obtain ⟨d, hd, hv⟩ := List.mem_map.mp hm
        exact (hrest d hd).2 heq hv
    cases hleft : value left with
    | none => exact hnulls none _ (Or.inl rfl) hleft rfl
    | some a =>
      cases hright : value right with
      | none => exact hnulls _ none (Or.inr rfl) rfl hright
      | some b =>
        have hc : evalBool value (boolBinaryOp left cmp right) = some (strict a b) := by
          rw [boolBinaryOp, evalBool, hleft, hright]
          exact hcmp a b
        have heq : evalBool value (boolBinaryOp left .eq right) = some (decide (a = b)) := by
          rw [boolBinaryOp, evalBool, hleft, hright]
          rfl
        rw [hc, pgLexicographic]
        split_ifs with hab
        · -- an equal pair: its disjunct is false and the search goes on
          rw [hab, hirrefl, Kleene.any_cons_false]
          refine ih _ fun e he => ?_
          rcases List.mem_append.mp he with he | he
          · exact htrue e he
          · rw [List.mem_singleton.mp he, heq, decide_eq_true hab]
        · rw [decide_eq_false hab] at heq
          cases strict a b with
          | true => exact Kleene.any_eq_true (List.mem_cons_self ..)
          | false =>
            refine Kleene.any_eq_false fun v hv => ?_
            rcases List.mem_cons.mp hv with rfl | hv
            · rfl
            · obtain ⟨d, hd, rfl⟩ := List.mem_map.mp hv
              exact (hrest d hd).1 heq

/-- **Row comparisons follow PostgreSQL**, for rows of any width whose elements may be null. -/
theorem row_comparisons_follow (value : QueryExpr Q → Option α) (rctype : RowCompareType)
    (left right : List (QueryExpr Q)) :
    evalBool value (rowCompareExpr rctype left right) =
      pgRowCompare rctype ((left.zip right).map fun p => (value p.1, value p.2)) := by
  have hnull : ∀ cmp, cmp = .lt ∨ cmp = .gt → ∀ a b : Option α, a = none ∨ b = none →
    compareCells cmp a b = none := by
    rintro cmp (rfl | rfl) a b (rfl | rfl) <;> first | rfl | cases a <;> rfl
  have hlt : ∀ includeEqual, evalBool value (rowLexicographicExpr left right .lt includeEqual) =
      pgLexicographic (fun a b => decide (a < b)) includeEqual
        ((left.zip right).map fun p => (value p.1, value p.2)) := by
    intro includeEqual
    rw [← lexicographic_value value (fun _ _ => rfl) (hnull .lt (by decide))
      (fun a => by simp) includeEqual _ []
      (fun e he => by cases he), ← evalBool_or]
    rfl
  have hgt : ∀ includeEqual, evalBool value (rowLexicographicExpr left right .gt includeEqual) =
      pgLexicographic (fun a b => decide (b < a)) includeEqual
        ((left.zip right).map fun p => (value p.1, value p.2)) := by
    intro includeEqual
    rw [← lexicographic_value value (fun _ _ => rfl) (hnull .gt (by decide))
      (fun a => by simp) includeEqual _ []
      (fun e he => by cases he), ← evalBool_or]
    rfl
  cases rctype with
  | lt => exact hlt false
  | le => exact hlt true
  | gt => exact hgt false
  | ge => exact hgt true
  | eq =>
    rw [rowCompareExpr, rowPairwiseBool, evalBool_and, pgRowCompare, List.map_map, List.map_map]
    rfl
  | ne =>
    rw [rowCompareExpr, rowPairwiseBool, evalBool_or, pgRowCompare, List.map_map, List.map_map]
    rfl

end PgFusion.Frontend

import Mathlib.Data.List.Sort
import Mathlib.Tactic

/-!
Maps from keys to values that hold their key: `Keyed key` has the values with strictly increasing
keys, and `orInsert` keeps a value that is there.
-/

namespace PgFusion

/-- Values with strictly increasing keys. -/
@[ext] structure Keyed {α κ : Type*} [LinearOrder κ] (key : α → κ) where
  items : List α
  sorted : items.Pairwise fun a b => key a < key b

namespace Keyed

variable {α κ : Type*} [LinearOrder κ] {key : α → κ}

/-- No values. -/
def empty : Keyed key := ⟨[], List.Pairwise.nil⟩

/-- The value with a key. -/
def find? (t : Keyed key) (k : κ) : Option α := t.items.find? fun a => key a = k

/-- There is a value with a key. -/
def contains (t : Keyed key) (k : κ) : Bool := (t.find? k).isSome

/-- Put a value where its key belongs, in place of a value with that key. -/
def insertItem (key : α → κ) (a : α) : List α → List α
  | [] => [a]
  | b :: l => if key a < key b then a :: b :: l
      else if key a = key b then a :: l
      else b :: insertItem key a l

lemma mem_insertItem {a x : α} {l : List α} (h : x ∈ insertItem key a l) : x = a ∨ x ∈ l := by
  induction l with
  | nil => exact Or.inl (by simpa [insertItem] using h)
  | cons b l ih =>
    rw [insertItem] at h
    split_ifs at h
    · simpa using h
    · rcases List.mem_cons.mp h with h | h
      · exact Or.inl h
      · exact Or.inr (List.mem_cons_of_mem b h)
    · rcases List.mem_cons.mp h with rfl | h
      · exact Or.inr List.mem_cons_self
      · exact (ih h).imp id (List.mem_cons_of_mem b)

lemma sorted_insertItem {a : α} {l : List α} (h : l.Pairwise fun a b => key a < key b) :
    (insertItem key a l).Pairwise fun a b => key a < key b := by
  induction l with
  | nil => exact List.pairwise_singleton _ a
  | cons b l ih =>
    obtain ⟨hb, hl⟩ := List.pairwise_cons.mp h
    rw [insertItem]
    split_ifs with hlt heq
    · refine List.pairwise_cons.mpr ⟨fun x hx => ?_, h⟩
      rcases List.mem_cons.mp hx with rfl | hx
      · exact hlt
      · exact hlt.trans (hb x hx)
    · exact List.pairwise_cons.mpr ⟨fun x hx => heq ▸ hb x hx, hl⟩
    · refine List.pairwise_cons.mpr ⟨fun x hx => ?_, ih hl⟩
      rcases mem_insertItem hx with rfl | hx
      · exact lt_of_le_of_ne (not_lt.mp hlt) (Ne.symm heq)
      · exact hb x hx

/-- Put a value in, in place of one with its key. -/
def insert (t : Keyed key) (a : α) : Keyed key :=
  ⟨insertItem key a t.items, sorted_insertItem t.sorted⟩

/-- Put a value in unless there is one with its key. -/
def orInsert (t : Keyed key) (a : α) : Keyed key := if t.contains (key a) then t else t.insert a

/-- A value that is held is found under its key. -/
lemma find?_of_mem {t : Keyed key} {a : α} (h : a ∈ t.items) : t.find? (key a) = some a := by
  obtain ⟨items, sorted⟩ := t
  induction items with
  | nil => cases h
  | cons b l ih =>
    obtain ⟨hb, hl⟩ := List.pairwise_cons.mp sorted
    rcases List.mem_cons.mp h with rfl | h
    · exact List.find?_cons_of_pos (by simp)
    · rw [find?, List.find?_cons_of_neg (by simpa using (hb a h).ne)]
      exact ih hl h

lemma find?_insertItem {a : α} {k : κ} {l : List α} (h : ∀ b ∈ l, key b ≠ key a) :
    (insertItem key a l).find? (fun b => key b = k) =
      (l.find? fun b => key b = k).or (if key a = k then some a else none) := by
  induction l with
  | nil => by_cases hk : key a = k <;> simp [insertItem, hk]
  | cons b l ih =>
    obtain ⟨hb, hl⟩ := List.forall_mem_cons.mp h
    rw [insertItem, if_neg hb.symm]
    by_cases hlt : key a < key b
    · rw [if_pos hlt]
      by_cases hk : key a = k
      · -- no value has the key yet
        have hnone : (b :: l).find? (fun b => decide (key b = k)) = none :=
          List.find?_eq_none.mpr fun x hx => by simpa [← hk] using h x hx
        rw [hnone, List.find?_cons_of_pos (by simpa using hk), if_pos hk, Option.none_or]
      · rw [List.find?_cons_of_neg (by simpa using hk), if_neg hk, Option.or_none]
    · rw [if_neg hlt]
      by_cases hbk : key b = k
      · rw [List.find?_cons_of_pos (by simpa using hbk),
          List.find?_cons_of_pos (by simpa using hbk), Option.some_or]
      · rw [List.find?_cons_of_neg (by simpa using hbk),
          List.find?_cons_of_neg (by simpa using hbk), ih hl]

/-- What is found after an insertion: what was found before it, or the new value. -/
lemma find?_orInsert (t : Keyed key) (a : α) (k : κ) :
    (t.orInsert a).find? k = (t.find? k).or (if key a = k then some a else none) := by
  rw [orInsert, contains]
  split
  · next h =>
      by_cases hk : key a = k
      · rw [← hk, Option.or_of_isSome h]
      · rw [if_neg hk, Option.or_none]
  · next h =>
      refine find?_insertItem fun b hb heq => h ?_
      rw [← heq, find?_of_mem hb]
      rfl

/-- What is found after several insertions: the first value with the key. -/
lemma find?_foldl_orInsert (l : List α) (t : Keyed key) (k : κ) :
    (l.foldl orInsert t).find? k = (t.find? k).or (l.find? fun a => key a = k) := by
  induction l generalizing t with
  | nil => rw [List.foldl_nil, List.find?_nil, Option.or_none]
  | cons a l ih =>
    rw [List.foldl_cons, ih, find?_orInsert, Option.or_assoc]
    by_cases hk : key a = k
    · rw [if_pos hk, Option.some_or, List.find?_cons_of_pos (by simpa using hk)]
    · rw [if_neg hk, Option.none_or, List.find?_cons_of_neg (by simpa using hk)]

/-- What is found after insertions of values with different keys. -/
lemma find?_foldl_insert {l : List α} (hl : (l.map key).Nodup) (t : Keyed key)
    (ht : ∀ a ∈ l, t.find? (key a) = none)
    (k : κ) : (l.foldl insert t).find? k = (t.find? k).or (l.find? fun a => key a = k) := by
  have hsame : ∀ (l : List α) (t : Keyed key), (l.map key).Nodup →
    (∀ a ∈ l, t.find? (key a) = none) →
      l.foldl insert t = l.foldl orInsert t := by
    intro l
    induction l with
    | nil => exact fun _ _ _ => rfl
    | cons a l ih =>
      intro t hl ht
      rw [List.map_cons, List.nodup_cons] at hl
      obtain ⟨ha, hrest⟩ := List.forall_mem_cons.mp ht
      have hinsert : t.orInsert a = t.insert a := by
        rw [orInsert, contains, ha]
        rfl
      rw [List.foldl_cons, List.foldl_cons, hinsert]
      refine ih _ hl.2 fun b hb => ?_
      rw [← hinsert, find?_orInsert, hrest b hb, if_neg, Option.none_or]
      exact fun heq => hl.1 (heq ▸ List.mem_map_of_mem hb)
  rw [hsame l t hl ht, find?_foldl_orInsert]

end Keyed

end PgFusion

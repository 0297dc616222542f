import Mathlib.Data.List.Basic
import Mathlib.Data.Nat.ModEq
import Mathlib.Tactic.Ring

/-!
Lists stored in a circular buffer: `Stored c data pos bs` says that the buffer `data` of `c` cells
holds the list `bs` from position `pos` on, wrapping at the end.
-/

namespace PgFusion

variable {α : Type*} {c : ℕ} {data : ℕ → α} {pos : ℕ} {xs ys : List α}

/-- The buffer holds the list from the position on, cell by cell. -/
def Stored (c : ℕ) (data : ℕ → α) (pos : ℕ) : List α → Prop
  | [] => True
  | x :: xs => data (pos % c) = x ∧ Stored c data (pos + 1) xs

@[simp] lemma stored_nil : Stored c data pos [] := trivial

lemma stored_cons {x : α} :
    Stored c data pos (x :: xs) ↔ data (pos % c) = x ∧ Stored c data (pos + 1) xs := Iff.rfl

lemma stored_append :
    Stored c data pos (xs ++ ys) ↔ Stored c data pos xs ∧ Stored c data (pos + xs.length) ys := by
  induction xs generalizing pos with
  | nil => simp
  | cons x xs ih =>
    rw [List.cons_append, stored_cons, stored_cons, ih, and_assoc, List.length_cons,
      Nat.add_assoc, Nat.add_comm 1]

lemma Stored.congr_mod {pos' : ℕ} (h : Stored c data pos xs) (hpos : pos % c = pos' % c) :
    Stored c data pos' xs := by
  induction xs generalizing pos pos' with
  | nil => trivial
  | cons x xs ih =>
    exact ⟨hpos ▸ h.1, ih h.2 (Nat.ModEq.add_right 1 hpos)⟩

/-- Two positions less than a round apart are different cells. -/
lemma add_mod_ne (pos : ℕ) {i j : ℕ} (hij : i < j) (hc : j < i + c) :
    (pos + i) % c ≠ (pos + j) % c := by
  intro h
  have hdvd : c ∣ (pos + j) - (pos + i) := (Nat.modEq_iff_dvd' (by omega)).mp h
  exact absurd (Nat.le_of_dvd (by omega) hdvd) (by omega)

/-- The position after one that is not the last of its round. -/
lemma succ_mod {d : ℕ} (h : pos % c = d) (hd : d + 1 < c) : (pos + 1) % c = d + 1 := by
  rw [Nat.add_mod, h, Nat.mod_eq_of_lt (show 1 < c by omega), Nat.mod_eq_of_lt hd]

/-- The position that begins the next round. -/
lemma add_sub_mod {d : ℕ} (h : pos % c = d) (hd : d < c) : (pos + (c - d)) % c = 0 := by
  rw [Nat.add_mod, h]
  obtain rfl | hpos := Nat.eq_zero_or_pos d
  · simp
  · rw [Nat.mod_eq_of_lt (show c - d < c by omega), Nat.add_sub_cancel' hd.le, Nat.mod_self]

/-- Writing a cell behind a stored list keeps the list. -/
lemma Stored.update {j : ℕ} {b : α} (h : Stored c data pos xs) (hj : xs.length ≤ j)
    (hc : j < c) : Stored c (Function.update data ((pos + j) % c) b) pos xs := by
  induction xs generalizing pos j with
  | nil => trivial
  | cons x xs ih =>
    obtain ⟨k, rfl⟩ : ∃ k, j = k + 1 := ⟨j - 1, by rw [List.length_cons] at hj; omega⟩
    rw [List.length_cons] at hj
    have hne : pos % c ≠ (pos + (k + 1)) % c := by
      simpa using add_mod_ne (c := c) pos (i := 0) (j := k + 1) (by omega) (by omega)
    refine ⟨(Function.update_of_ne hne _ _).trans h.1, ?_⟩
    have hrest := ih h.2 (j := k) (by omega) (by omega)
    rwa [show pos + 1 + k = pos + (k + 1) by ring] at hrest

/-- Writing the cell after a stored list extends the list. -/
lemma Stored.snoc {b : α} (h : Stored c data pos xs) (hc : xs.length < c) :
    Stored c (Function.update data ((pos + xs.length) % c) b) pos (xs ++ [b]) :=
  stored_append.mpr ⟨h.update le_rfl hc, by simp [stored_cons]⟩

/-- The cell of a stored list at an index. -/
lemma Stored.getElem? {i : ℕ} {b : α} (h : Stored c data pos xs) (hi : xs[i]? = some b) :
    data ((pos + i) % c) = b := by
  induction xs generalizing pos i with
  | nil => simp at hi
  | cons x xs ih =>
    cases i with
    | zero => simpa using h.1.trans (by simpa using hi)
    | succ i =>
      have := ih h.2 (by simpa using hi)
      rwa [Nat.add_assoc, Nat.add_comm 1] at this

end PgFusion

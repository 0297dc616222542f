import Mathlib.Tactic

/-!
Searching the largest number with a property that every smaller number has too, with probes that may
fail.
-/

namespace PgFusion

variable {ε : Type}

/-- Halve the interval above `low`, with the middle rounded up. -/
def bisect (probe : ℕ → Except ε Bool) (low high : ℕ) : Except ε ℕ :=
  if low < high then
    match probe (low + (high - low + 1) / 2) with
    | .error e => .error e
    | .ok true => bisect probe (low + (high - low + 1) / 2) high
    | .ok false => bisect probe low (low + (high - low + 1) / 2 - 1)
  else .ok low
termination_by high - low

/-- **The search ends with the largest number that has the property.** -/
lemma bisect_spec {probe : ℕ → Except ε Bool} {p : ℕ → Prop} (hanti : ∀ m n, m ≤ n → p n → p m)
    {low high : ℕ} (hle : low ≤ high) (hlow : p low)
    (hprobe : ∀ mid, low < mid → mid ≤ high → ∃ b, probe mid = .ok b ∧ (b = true ↔ p mid)) :
    ∃ n, bisect probe low high = .ok n ∧ IsGreatest {n | n ≤ high ∧ p n} n := by
  induction hgap : high - low using Nat.strong_induction_on generalizing low high with
  | _ gap ih =>
    rw [bisect]
    by_cases hlt : low < high
    · rw [if_pos hlt]
      generalize hmid : low + (high - low + 1) / 2 = mid
      obtain ⟨b, hb, hiff⟩ := hprobe mid (by omega) (by omega)
      rw [hb]
      cases b with
      | true =>
        refine ih (high - mid) (by omega) (by omega) (hiff.mp rfl) (fun k hk => hprobe k ?_) rfl
        omega
      | false =>
        have hnot : ¬ p mid := fun h => Bool.false_ne_true (hiff.mpr h)
        obtain ⟨n, hn, ⟨hmem, hgreatest⟩⟩ := ih (mid - 1 - low) (by omega) (by omega) hlow
          (fun k hk hkm => hprobe k hk (by omega)) rfl
        refine ⟨n, hn, ⟨by have := hmem.1; omega, hmem.2⟩, fun k hk => hgreatest ⟨?_, hk.2⟩⟩
        -- a number from the middle on would give the property to the middle
        by_contra hlarge
        exact hnot (hanti mid k (by omega) hk.2)
    · rw [if_neg hlt]
      have heq : low = high := by omega
      exact ⟨low, rfl, ⟨hle, hlow⟩, fun k hk => heq ▸ hk.1⟩

/-- What the search answers is where it began or has passed its probe. -/
lemma bisect_result {probe : ℕ → Except ε Bool} {low high n : ℕ} (hle : low ≤ high)
    (h : bisect probe low high = .ok n) : n ≤ high ∧ (n = low ∨ probe n = .ok true) := by
  induction hgap : high - low using Nat.strong_induction_on generalizing low high with
  | _ gap ih =>
    rw [bisect] at h
    split at h
    · generalize hmid : low + (high - low + 1) / 2 = mid at h
      rcases hprobe : probe mid with e | _ | _ <;> rw [hprobe] at h
      · cases h
      · obtain ⟨hn, hcase⟩ := ih (mid - 1 - low) (by omega) (by omega) h rfl
        exact ⟨by omega, hcase⟩
      · obtain ⟨hn, rfl | hcase⟩ := ih (high - mid) (by omega) (by omega) h rfl
        · exact ⟨hn, .inr hprobe⟩
        · exact ⟨hn, .inr hcase⟩
    · obtain rfl := Except.ok.inj h
      exact ⟨hle, .inl rfl⟩

end PgFusion

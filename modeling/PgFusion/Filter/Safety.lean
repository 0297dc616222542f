import Mathlib.Tactic
import PgFusion.Filter.Outline

/-!
A runtime filter never rejects a row that joins (`not_inserted_of_absent`). A lookup may raise a
count that is about to be overwritten, and then the filter can be cleared under its probe
(`absent_of_uncounted`).
-/

namespace PgFusion.Filter

/-- **A runtime filter does not reject a row that joins.** In every run whose lookups
raise only counts that are not zero and below their largest value, a hash that a
decision reported definitely absent is none of those that the builder of the
probe's generation had inserted when it published. -/
theorem not_inserted_of_absent {config : PoolConfig} {c : Config (poolSystem config)}
    (hr : Reach counted (poolStart config) c) {p : ℕ} {cl : FilterClient} {h : ProbeHandle}
    {hash : UInt64} (hp : c.thread p = .ret cl)
    (hd : cl.decision = some (h, hash, .definitelyAbsent)) :
    hash ∉ (c.mem h.slotIndex).published h.generation := by
  obtain ⟨ρ, hI, hwp⟩ := holds_of_counted hr
  have hrest := hwp p
  rw [hp] at hrest
  exact (hI.absent p _ (AtRest.decision hrest h hash hd)).1

/-! ### Runs on a pool of one slot -/

/-- Process `0` publishes a filter with one hash, and process `1` finds another hash
absent. -/
theorem not_inserted_of_absent_one : ∃ c : Config (poolSystem oneSlot),
    Reach counted (poolStart oneSlot) c ∧
      (c.thread 1).result =
        some ⟨none, [⟨0, 1, 0, 1⟩], some (⟨0, 1, 0, 1⟩, 8, .definitelyAbsent)⟩ ∧
      (8 : UInt64) ∉ (c.mem 0).published 1 := by
  have hrun : ((poolStart oneSlot).run (fun _ (op : FilterOp) (x : ℕ → PoolSlot) =>
        decide (Counted op (x op.slot)))
      (poolCallFor 0 11 (.allocate ⟨1, 1, 0, 1⟩) ++ poolCallFor 0 2 (.insert 7) ++
        poolCallFor 0 1 .publish ++ poolCallFor 1 8 (.lookup 1 1) ++
        poolCallFor 1 2 (.decide 0 8))).map (fun c => (c.thread 1).result) =
      some (some ⟨none, [⟨0, 1, 0, 1⟩], some (⟨0, 1, 0, 1⟩, 8, .definitelyAbsent)⟩) := by
    decide +kernel
  obtain ⟨c, hc, hres⟩ := Option.map_eq_some_iff.mp hrun
  have hr : Reach counted (poolStart oneSlot) c :=
    reach_of_run (fun _ (op : FilterOp) (x : ℕ → PoolSlot) h =>
      of_decide_eq_true (p := Counted op (x op.slot)) h) hc
  exact ⟨c, hr, hres, not_inserted_of_absent hr (Prog.eq_ret_of_result hres) rfl⟩

/-- Process `1` has read that the slot is allocated when process `0` frees and claims it again; the
reference that process `1` then takes is lost when process `0` stores the count. Process `0`
publishes a hash, and after process `1` has seen the filter ready it drops the only counted
reference and clears the filter; process `1` finds the hash absent. -/
theorem absent_of_uncounted : ∃ (c : Config (poolSystem oneSlot)) (cl : FilterClient),
    Reach anyAccess (poolStart oneSlot) c ∧ c.thread 1 = .ret cl ∧
      cl.decision = some (⟨0, 2, 0, 1⟩, 7, .definitelyAbsent) ∧ ⟨0, 2, 0, 1⟩ ∈ cl.probes ∧
      (7 : UInt64) ∈ (c.mem 0).published 2 := by
  have hrun : ((poolStart oneSlot).run (fun _ _ _ => true)
      (poolCallFor 0 11 (.allocate ⟨1, 1, 0, 1⟩) ++ poolCallFor 1 1 (.lookup 1 1) ++
        poolCallFor 0 12 .dropBuild ++ poolCallFor 0 1 (.allocate ⟨1, 1, 0, 1⟩) ++
        [.step 1] ++ List.replicate 10 (.step 0) ++ List.replicate 6 (.step 1) ++
        poolCallFor 0 2 (.insert 7) ++ poolCallFor 0 1 .publish ++ poolCallFor 1 1 (.decide 0 7) ++
        poolCallFor 0 12 .dropBuild ++ poolCallFor 0 10 (.allocate ⟨1, 1, 0, 1⟩) ++
        [.step 1])).map (fun c => ((c.thread 1).result, (c.mem 0).published 2)) =
      some (some ⟨none, [⟨0, 2, 0, 1⟩], some (⟨0, 2, 0, 1⟩, 7, .definitelyAbsent)⟩, [7]) := by
    decide +kernel
  obtain ⟨c, hc, hres⟩ := Option.map_eq_some_iff.mp hrun
  obtain ⟨h₁, hpub⟩ := Prod.mk.inj hres
  exact ⟨c, _, reach_of_run (fun _ _ _ _ => trivial) hc, Prog.eq_ret_of_result h₁, rfl, by simp,
    by simp [hpub]⟩

end PgFusion.Filter

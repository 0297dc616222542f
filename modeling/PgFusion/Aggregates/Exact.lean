import Mathlib.Data.List.ReduceOption
import Mathlib.Tactic
import PgFusion.Aggregates.Average

/-!
`avg` is exact (`df_functions`: `pg_avg.rs`).

* `History.run_eq`: after every history the totals of an accumulator are those of its contents;
* `avg_exact`: so the result is the rounded average, or an error if it does not fit.
-/

namespace PgFusion.Aggregates

open Fallible (bind_eq_ok pure_eq_ok ok_bind)

/-! ### Bounds -/

/-- Values below `10 ^ 38`, and fewer than `2 ^ 64` of them. -/
structure Small (m : Multiset ℤ) : Prop where
  lt : ∀ value ∈ m, |value| < 10 ^ 38
  card : m.card < 2 ^ 64

lemma Small.mono {m m' : Multiset ℤ} (h : Small m) (hle : m' ≤ m) : Small m' :=
  ⟨fun value hvalue => h.lt value (Multiset.mem_of_le hle hvalue),
    (Multiset.card_le_card hle).trans_lt h.card⟩

lemma Small.abs_sum_lt {m : Multiset ℤ} (h : Small m) : |m.sum| < 2 ^ 64 * 10 ^ 38 := by
  have hsum : (m.map fun value => |value|).sum ≤ (m.map fun value => |value|).card •
    (10 ^ 38 : ℤ) := by
    refine Multiset.sum_le_card_nsmul _ _ fun x hx => ?_
    obtain ⟨value, hvalue, rfl⟩ := Multiset.mem_map.mp hx
    exact (h.lt value hvalue).le
  rw [Multiset.card_map, nsmul_eq_mul] at hsum
  have hcard : (m.card : ℤ) ≤ 2 ^ 64 - 1 := by
    have := h.card
    omega
  calc |m.sum|
      ≤ (m.map fun value => |value|).sum := Multiset.abs_sum_le_sum_abs
    _ ≤ m.card * 10 ^ 38 := hsum
    _ ≤ (2 ^ 64 - 1) * 10 ^ 38 := mul_le_mul_of_nonneg_right hcard (by positivity)
    _ < 2 ^ 64 * 10 ^ 38 := by norm_num

/-- The sum fits at every scale, with a bit to spare. -/
lemma Small.abs_mul_lt {m : Multiset ℤ} (h : Small m) {factor : ℤ} (hpos : 0 < factor)
    (hfactor : factor ≤ 10 ^ 19) :
    |m.sum * factor| < 2 ^ 254 := by
  rw [abs_mul, abs_of_pos hpos]
  calc |m.sum| * factor
      ≤ |m.sum| * 10 ^ 19 := mul_le_mul_of_nonneg_left hfactor (abs_nonneg _)
    _ ≤ 2 ^ 64 * 10 ^ 38 * 10 ^ 19 := mul_le_mul_of_nonneg_right h.abs_sum_lt.le (by positivity)
    _ < 2 ^ 254 := by norm_num

/-! ### Checked steps -/

lemma checkedI256_of_lt {x : ℤ} (h : |x| < 2 ^ 255) (message : String) :
    checkedI256 x message = .ok x := by
  rw [abs_lt] at h
  exact if_pos ⟨h.1.le, h.2⟩

lemma checkedI256_of_lt' {x : ℤ} (h : |x| < 2 ^ 254) (message : String) :
    checkedI256 x message = .ok x :=
  checkedI256_of_lt (h.trans (by norm_num)) message

lemma checkedU64_of_lt {n : ℕ} (h : n < 2 ^ 64) (message : String) : checkedU64 n message = .ok n :=
  if_pos ⟨Int.natCast_nonneg n, by exact_mod_cast h⟩

lemma tenPowI256_eq {power : ℕ} (h : power ≤ 76) : tenPowI256 power = .ok (10 ^ power) := by
  induction power with
  | zero => rfl
  | succ power ih =>
    have hlt : |(10 : ℤ) ^ (power + 1)| < 2 ^ 255 := by
      rw [abs_of_pos (by positivity)]
      calc (10 : ℤ) ^ (power + 1)
          ≤ 10 ^ 76 := pow_le_pow_right₀ (by norm_num) h
        _ < 2 ^ 255 := by norm_num
    rw [tenPowI256, ih (by omega), ok_bind, ← pow_succ, checkedI256_of_lt hlt]

/-! ### Steps of an accumulator -/

/-- The accumulator adds up the values times the factor, as long as its steps fit. -/
structure Tracks (acc : Accumulator) (factor : ℤ) : Prop where
  new : acc.new = .ok ⟨0, 0⟩
  add : ∀ (totals : Totals) (value : ℤ), |value * factor| < 2 ^ 254 → |totals.sum +
    value * factor| < 2 ^ 254 →
    totals.count + 1 < 2 ^ 64 → acc.add totals value = .ok ⟨totals.sum + value * factor,
      totals.count + 1⟩
  retract : ∀ (totals : Totals) (value : ℤ), |value * factor| < 2 ^ 254 →
    |totals.sum - value * factor| < 2 ^ 254 → 0 < totals.count → totals.count < 2 ^ 64 →
    acc.retract totals value = .ok ⟨totals.sum - value * factor, totals.count - 1⟩
  merge : ∀ (totals : Totals) (count : ℕ) (sum : ℤ), |totals.sum + sum| < 2 ^ 254 →
    totals.count + count < 2 ^ 64 →
    acc.merge totals count sum = .ok ⟨totals.sum + sum, totals.count + count⟩

section Shared

variable {totals : Totals} {value : ℤ} (label : String)

lemma addScaled_eq (hsum : |totals.sum + value| < 2 ^ 254) (hcount : totals.count + 1 < 2 ^ 64) :
    addScaled label totals value = .ok ⟨totals.sum + value, totals.count + 1⟩ := by
  rw [addScaled, checkedI256_of_lt' hsum, ok_bind]
  exact congrArg (· >>= _) (checkedU64_of_lt hcount _)

lemma retractScaled_eq (hsum : |totals.sum - value| < 2 ^ 254) (hpos : 0 < totals.count)
    (hcount : totals.count < 2 ^ 64) :
    retractScaled label totals value = .ok ⟨totals.sum - value, totals.count - 1⟩ := by
  have hsub : (totals.count : ℤ) - 1 = (totals.count - 1 : ℕ) := by omega
  rw [retractScaled, checkedI256_of_lt' hsum, ok_bind, hsub, checkedU64_of_lt (by omega), ok_bind]
  rfl

lemma mergeState_eq {count : ℕ} (hsum : |totals.sum + value| < 2 ^ 254)
    (hcount : totals.count + count < 2 ^ 64) :
    mergeState label totals count value = .ok ⟨totals.sum + value, totals.count + count⟩ := by
  rw [mergeState, checkedI256_of_lt' hsum, ok_bind]
  exact congrArg (· >>= _) (checkedU64_of_lt hcount _)

end Shared

lemma tracks_integerAvg : Tracks integerAvg 1 where
  new := rfl
  add totals value _ hsum hcount := by
    rw [mul_one] at hsum ⊢
    exact addScaled_eq _ hsum hcount
  retract totals value _ hsum hpos hcount := by
    rw [mul_one] at hsum ⊢
    exact retractScaled_eq _ hsum hpos hcount
  merge _ _ _ hsum hcount := mergeState_eq _ hsum hcount

/-- The factor between a decimal and the state. -/
def decimalFactor (scale : ℤ) : ℤ := 10 ^ (decimalAvgStateScale scale - scale).toNat

lemma scaleDecimal_eq {scale : ℤ} (hscale : -3 ≤ scale) (phase : String) {value : ℤ}
    (h : |value * decimalFactor scale| < 2 ^ 254) :
    scaleDecimal scale phase value = .ok (value * decimalFactor scale) := by
  have hpower : (decimalAvgStateScale scale - scale).toNat ≤ 76 := by
    rw [decimalAvgStateScale, numericAvgScale]
    omega
  rw [scaleDecimal, tenPowI256_eq hpower, ok_bind]
  exact checkedI256_of_lt' h _

lemma tracks_decimalAvg {scale : ℤ} (hscale : -3 ≤ scale) :
    Tracks (decimalAvg scale) (decimalFactor scale) where
  new := by
    refine if_pos ?_
    rw [decimalAvgStateScale, numericAvgScale]
    omega
  add totals value hvalue hsum hcount := by
    dsimp only [decimalAvg]
    rw [scaleDecimal_eq hscale _ hvalue, ok_bind]
    exact addScaled_eq _ hsum hcount
  retract totals value hvalue hsum hpos hcount := by
    dsimp only [decimalAvg]
    rw [scaleDecimal_eq hscale _ hvalue, ok_bind]
    exact retractScaled_eq _ hsum hpos hcount
  merge _ _ _ hsum hcount := mergeState_eq _ hsum hcount

/-! ### Histories -/

/-- The state of a collection of values. -/
def totalsOf (factor : ℤ) (m : Multiset ℤ) : Totals := ⟨m.sum * factor, m.card⟩

section Run

variable {acc : Accumulator} {factor : ℤ} (htracks : Tracks acc factor) (hpos : 0 < factor)
    (hfactor : factor ≤ 10 ^ 19)
include htracks hpos hfactor

lemma Tracks.updates (values : List ℤ) {m : Multiset ℤ} (h : Small (m + values)) :
    values.foldlM acc.add (totalsOf factor m) = .ok (totalsOf factor (m + values)) := by
  induction values generalizing m with
  | nil => rw [List.foldlM_nil, Multiset.coe_nil, add_zero]; rfl
  | cons value values ih =>
    have hsplit : m + (value :: values : List ℤ) = m + {value} + (values : Multiset ℤ) := by
      rw [add_assoc, ← Multiset.cons_coe, Multiset.singleton_add]
    rw [hsplit] at h ⊢
    have hstep : Small (m + {value}) := h.mono (Multiset.le_add_right _ _)
    have hvalue : Small {value} := hstep.mono (Multiset.le_add_left _ _)
    have hsum := hstep.abs_mul_lt hpos hfactor
    have hscaled := hvalue.abs_mul_lt hpos hfactor
    have hcard := hstep.card
    rw [Multiset.sum_singleton] at hscaled
    rw [Multiset.sum_add, Multiset.sum_singleton, add_mul] at hsum
    rw [Multiset.card_add, Multiset.card_singleton] at hcard
    have hadd : acc.add (totalsOf factor m) value = .ok (totalsOf factor (m + {value})) := by
      rw [htracks.add (totalsOf factor m) value hscaled hsum hcard, totalsOf, totalsOf,
        Multiset.sum_add, Multiset.sum_singleton, add_mul,
        Multiset.card_add, Multiset.card_singleton]
    rw [List.foldlM_cons, hadd, ok_bind, ih h]

lemma Tracks.retracts (values : List ℤ) {m : Multiset ℤ} (h : Small m)
    (hle : (values : Multiset ℤ) ≤ m) :
    values.foldlM acc.retract (totalsOf factor m) = .ok (totalsOf factor (m - values)) := by
  induction values generalizing m with
  | nil => rw [List.foldlM_nil, Multiset.coe_nil, Multiset.sub_zero]; rfl
  | cons value values ih =>
    rw [← Multiset.cons_coe] at hle ⊢
    have hmem : value ∈ m := Multiset.mem_of_le hle (Multiset.mem_cons_self _ _)
    have hsplit : value ::ₘ m.erase value = m := Multiset.cons_erase hmem
    have hrest : Small (m.erase value) := h.mono (Multiset.erase_le _ _)
    have hvalue : Small {value} := h.mono (Multiset.singleton_le.mpr hmem)
    have hscaled := hvalue.abs_mul_lt hpos hfactor
    rw [Multiset.sum_singleton] at hscaled
    have hsum : m.sum * factor - value * factor = (m.erase value).sum * factor := by
      rw [← sub_mul, ← Multiset.sum_erase hmem, add_sub_cancel_left]
    have hsmall := hrest.abs_mul_lt hpos hfactor
    rw [← hsum] at hsmall
    have hretract : acc.retract (totalsOf factor m) value =
      .ok (totalsOf factor (m.erase value)) := by
      rw [htracks.retract (totalsOf factor m) value hscaled hsmall
        (Multiset.card_pos_iff_exists_mem.mpr ⟨value, hmem⟩) h.card, totalsOf,
        totalsOf, hsum, Multiset.card_erase_of_mem hmem]
      rfl
    rw [List.foldlM_cons, hretract, ok_bind, Multiset.sub_cons]
    refine ih hrest ?_
    rw [← hsplit] at hle
    exact (Multiset.cons_le_cons_iff value).mp hle

lemma Tracks.merges (ms : List (Multiset ℤ)) {m : Multiset ℤ} (h : Small (m + ms.sum)) :
    mergeBatch acc (totalsOf factor m) (ms.map fun m => (totalsOf factor m).state) =
      .ok (totalsOf factor (m + ms.sum)) := by
  induction ms generalizing m with
  | nil => rw [List.sum_nil, add_zero]; rfl
  | cons m' ms ih =>
    rw [List.sum_cons, ← add_assoc] at h ⊢
    have hstep : Small (m + m') := h.mono (Multiset.le_add_right _ _)
    have hsum := hstep.abs_mul_lt hpos hfactor
    have hcard := hstep.card
    rw [Multiset.sum_add, add_mul] at hsum
    rw [Multiset.card_add] at hcard
    have hmerge : acc.merge (totalsOf factor m) m'.card (m'.sum * factor) =
        .ok (totalsOf factor (m + m')) := by
      rw [htracks.merge (totalsOf factor m) m'.card (m'.sum * factor) hsum hcard, totalsOf,
        totalsOf, Multiset.sum_add, add_mul, Multiset.card_add]
    rw [mergeBatch, List.map_cons, List.foldlM_cons]
    refine (congrArg (· >>= _) hmerge).trans ?_
    exact ih h

end Run

namespace History

mutual

/-- The contents of a valid history are within the bounds. -/
lemma Valid.small (h : History) (hvalid : h.Valid) : Small h.contents := by
  match h with
  | .new => exact ⟨fun _ hmem => absurd hmem (Multiset.notMem_zero _), by decide⟩
  | .update h values =>
    rw [Valid] at hvalid
    refine ⟨fun value hvalue => ?_, hvalid.2.2⟩
    rw [contents, Multiset.mem_add] at hvalue
    rcases hvalue with hvalue | hvalue
    · exact (Valid.small h hvalid.1).lt value hvalue
    · exact hvalid.2.1 value hvalue
  | .retract h values =>
    rw [Valid] at hvalid
    rw [contents]
    exact (Valid.small h hvalid.1).mono (Multiset.sub_le_self _ _)
  | .merge h others =>
    rw [Valid] at hvalid
    refine ⟨fun value hvalue => ?_, hvalid.2.2⟩
    rw [contents, Multiset.mem_add] at hvalue
    rcases hvalue with hvalue | hvalue
    · exact (Valid.small h hvalid.1).lt value hvalue
    · exact ValidAll.lt others hvalid.2.1 value hvalue

lemma ValidAll.lt (hs : List History) (hvalid : ValidAll hs) (value : ℤ)
    (hvalue : value ∈ contentsAll hs) :
    |value| < 10 ^ 38 := by
  match hs with
  | [] => exact absurd hvalue (Multiset.notMem_zero _)
  | h :: hs =>
    rw [ValidAll] at hvalid
    rw [contentsAll, Multiset.mem_add] at hvalue
    rcases hvalue with hvalue | hvalue
    · exact (Valid.small h hvalid.1).lt value hvalue
    · exact ValidAll.lt hs hvalid.2 value hvalue

end

lemma contentsAll_eq (hs : List History) : contentsAll hs = (hs.map contents).sum := by
  induction hs with
  | nil => rfl
  | cons h hs ih => rw [contentsAll, ih, List.map_cons, List.sum_cons]

mutual

/-- After a history the state is that of the contents: no step has failed. -/
lemma run_eq {acc : Accumulator} {factor : ℤ} (htracks : Tracks acc factor) (hpos : 0 < factor)
    (hfactor : factor ≤ 10 ^ 19) (h : History) (hvalid : h.Valid) :
    h.run acc = .ok (totalsOf factor h.contents) := by
  match h with
  | .new =>
    rw [run, htracks.new, contents, totalsOf, Multiset.sum_zero, zero_mul, Multiset.card_zero]
  | .update h values =>
    have hsmall := Valid.small _ hvalid
    rw [Valid] at hvalid
    rw [run, run_eq htracks hpos hfactor h hvalid.1, ok_bind, contents]
    exact htracks.updates hpos hfactor _ hsmall
  | .retract h values =>
    rw [Valid] at hvalid
    rw [run, run_eq htracks hpos hfactor h hvalid.1, ok_bind, contents]
    exact htracks.retracts hpos hfactor _ (Valid.small h hvalid.1) hvalid.2
  | .merge h others =>
    have hsmall := Valid.small _ hvalid
    rw [Valid] at hvalid
    rw [contents, contentsAll_eq] at hsmall
    rw [run, run_eq htracks hpos hfactor h hvalid.1, ok_bind,
      runAll_eq htracks hpos hfactor others hvalid.2.1, ok_bind,
      List.map_map, contents, contentsAll_eq, ← htracks.merges hpos hfactor _ hsmall, List.map_map]
    rfl

lemma runAll_eq {acc : Accumulator} {factor : ℤ} (htracks : Tracks acc factor) (hpos : 0 < factor)
    (hfactor : factor ≤ 10 ^ 19) (hs : List History) (hvalid : ValidAll hs) :
    runAll acc hs = .ok (hs.map fun h => totalsOf factor h.contents) := by
  match hs with
  | [] => rfl
  | h :: hs =>
    rw [ValidAll] at hvalid
    rw [runAll, run_eq htracks hpos hfactor h hvalid.1, ok_bind,
      runAll_eq htracks hpos hfactor hs hvalid.2, ok_bind]
    rfl

end

/-! ### Distinct values -/

lemma insertBatch_eq (seen : Finset ℤ) (values : List (Option ℤ)) :
    DistinctAvg.insertBatch seen values = seen ∪ values.reduceOption.toFinset := by
  rw [DistinctAvg.insertBatch]
  induction values.reduceOption generalizing seen with
  | nil => rw [List.foldl_nil, List.toFinset_nil, Finset.union_empty]
  | cons value values ih =>
    rw [List.foldl_cons, ih, List.toFinset_cons, Finset.insert_union, Finset.union_insert]

lemma mergeBatch_eq (seen : Finset ℤ) (hs : List History) :
    DistinctAvg.mergeBatch seen ((hs.map fun h => h.contents.toFinset).map
      DistinctAvg.stateValues) = seen ∪ (contentsAll hs).toFinset := by
  induction hs generalizing seen with
  | nil => rw [contentsAll, Multiset.toFinset_zero, Finset.union_empty]; rfl
  | cons h hs ih =>
    have hstate : DistinctAvg.insertBatch seen (DistinctAvg.stateValues h.contents.toFinset) =
        seen ∪ h.contents.toFinset := by
      have hvalues : (DistinctAvg.stateValues h.contents.toFinset).reduceOption =
        h.contents.toFinset.sort := by
        rw [DistinctAvg.stateValues, List.reduceOption, List.filterMap_map]
        exact List.filterMap_some
      rw [insertBatch_eq, hvalues, Finset.sort_toFinset]
    rw [contentsAll, Multiset.toFinset_add, ← Finset.union_assoc, ← ih]
    exact congrArg (fun seen => DistinctAvg.mergeBatch seen _) hstate

mutual

/-- The set is that of the values added, whatever was merged. -/
lemma runDistinct_eq (h : History) (hgrows : h.Grows) :
    h.runDistinct = .ok h.contents.toFinset := by
  match h with
  | .new => rfl
  | .update h values =>
    rw [Grows] at hgrows
    rw [runDistinct, runDistinct_eq h hgrows, ok_bind, insertBatch_eq, contents,
      Multiset.toFinset_add]
    rfl
  | .retract h values => exact absurd hgrows (by rw [Grows]; exact id)
  | .merge h others =>
    rw [Grows] at hgrows
    rw [runDistinct, runDistinct_eq h hgrows.1, ok_bind, runDistinctAll_eq others hgrows.2, ok_bind,
      mergeBatch_eq, contents, Multiset.toFinset_add]
    rfl

lemma runDistinctAll_eq (hs : List History) (hgrows : GrowsAll hs) :
    runDistinctAll hs = .ok (hs.map fun h => h.contents.toFinset) := by
  match hs with
  | [] => rfl
  | h :: hs =>
    rw [GrowsAll] at hgrows
    rw [runDistinctAll, runDistinct_eq h hgrows.1, ok_bind, runDistinctAll_eq hs hgrows.2, ok_bind]
    rfl

end

end History

lemma DistinctAvg.evaluate_eq {acc : Accumulator} {factor : ℤ} (htracks : Tracks acc factor)
    (hpos : 0 < factor) (hfactor : factor ≤ 10 ^ 19) {seen : Finset ℤ} (h : Small seen.val) :
    DistinctAvg.evaluate acc seen = acc.evaluate (totalsOf factor seen.val) := by
  have hsort : ((seen.sort : List ℤ) : Multiset ℤ) = seen.val := Finset.sort_eq _ _
  have hzero : (⟨0, 0⟩ : Totals) = totalsOf factor 0 := by
    rw [totalsOf, Multiset.sum_zero, zero_mul, Multiset.card_zero]
  have hupdates :=
    htracks.updates hpos hfactor seen.sort (m := 0) (by rw [zero_add, hsort]; exact h)
  rw [DistinctAvg.evaluate, htracks.new, ok_bind, hzero, hupdates, ok_bind, zero_add, hsort]

/-! ### The result -/

/-- The average of values with `scale` digits after the point, at the scale of the result. -/
def average (scale : ℤ) (m : Multiset ℤ) : ℤ :=
  roundHalfAway ((m.sum : ℚ) / 10 ^ scale / m.card * 10 ^ numericAvgScale)

/-- The division fits and rounds ties away from zero. -/
lemma roundedQuotient_eq {a d : ℤ} (ha : |a| < 2 ^ 254) (hd : 0 < d) (hd' : d < 2 ^ 254)
    (label : String) :
    roundedQuotient a d label = .ok (roundHalfAway ((a : ℚ) / d)) := by
  have hquot : |a.tdiv d| < 2 ^ 254 := by
    rw [Int.abs_eq_natAbs, Int.natAbs_tdiv]
    have hle : a.natAbs.div d.natAbs ≤ a.natAbs := Nat.div_le_self _ _
    rw [Int.abs_eq_natAbs] at ha
    omega
  have hrem : |a.tmod d| < d := by
    have hlt := Int.tmod_lt_of_pos a hd
    have hgt := Int.lt_tmod_of_pos a hd
    exact abs_lt.mpr ⟨hgt, hlt⟩
  have hdoubled : |(|a.tmod d| * 2)| < 2 ^ 255 := by
    rw [abs_of_nonneg (by positivity)]
    omega
  rw [roundedQuotient, checkedI256_of_lt' hquot, ok_bind, checkedI256_of_lt' (hrem.trans hd'),
    ok_bind, checkedI256_of_lt hdoubled, ok_bind, roundHalfAway_div a hd]
  split_ifs with hhalf hneg
  · exact checkedI256_of_lt (by rw [abs_lt] at hquot ⊢; omega) _
  · exact checkedI256_of_lt (by rw [abs_lt] at hquot ⊢; omega) _
  · rfl

/-- The sum and the count are brought to the scale of the result without a failing step. -/
lemma scaledParts_eq {scale state : ℤ} (hscale : -3 ≤ scale)
    (hstate : scale ≤ state ∧ 0 ≤ state ∧ state ≤ 38)
    (hdelta : state - scale ≤ 19) {m : Multiset ℤ} (h : Small m) (hne : m ≠ 0) (label : String) :
    ∃ a d, scaledParts (m.sum * 10 ^ (state - scale).toNat) m.card state numericAvgScale label =
      .ok (a, d) ∧ |a| < 2 ^ 254 ∧ 0 < d ∧ d < 2 ^ 254 ∧
      (a : ℚ) / d = (m.sum : ℚ) / 10 ^ scale / m.card * 10 ^ numericAvgScale := by
  have hcard : (0 : ℤ) < m.card := by exact_mod_cast Multiset.card_pos.mpr hne
  have hcard' : (m.card : ℤ) < 2 ^ 64 := by exact_mod_cast h.card
  have hpow : ∀ {i j k : ℤ}, 0 ≤ i → i = j - k → ((10 ^ i.toNat : ℤ) : ℚ) = 10 ^ j / 10 ^ k := by
    rintro i j k hi rfl
    rw [← zpow_sub₀ (by norm_num : (10 : ℚ) ≠ 0), Int.cast_pow, Int.cast_ofNat, ← zpow_natCast,
      Int.toNat_of_nonneg hi]
  have hpow' : ∀ {i : ℤ} (n : ℕ), i.toNat ≤ n → (10 : ℤ) ^ i.toNat ≤ 10 ^ n := fun n hn =>
    pow_le_pow_right₀ (by norm_num) hn
  rw [scaledParts]
  have hzero : ∀ k : ℤ, (10 : ℚ) ^ k ≠ 0 := fun k => zpow_ne_zero k (by norm_num)
  have hcard'' : (m.card : ℚ) ≠ 0 := Nat.cast_ne_zero.mpr (Multiset.card_pos.mpr hne).ne'
  by_cases hle : state ≤ numericAvgScale
  · -- the sum is scaled
    have hfactor : (10 : ℤ) ^ (state - scale).toNat * 10 ^ (numericAvgScale - state).toNat =
        10 ^ (numericAvgScale - scale).toNat := by
      rw [← pow_add]
      congr 1
      omega
    have hsum : |m.sum * 10 ^ (numericAvgScale - scale).toNat| < 2 ^ 254 :=
      h.abs_mul_lt (by positivity) (hpow' 19 (by rw [numericAvgScale]; omega))
    rw [← hfactor, ← mul_assoc] at hsum
    have hpower : (numericAvgScale - state).toNat ≤ 76 := by rw [numericAvgScale]; omega
    refine ⟨_, _, ?_, hsum, hcard, hcard'.trans (by norm_num), ?_⟩
    · rw [if_pos hle, tenPowI256_eq hpower, ok_bind, checkedI256_of_lt' hsum, ok_bind]
      rfl
    · rw [mul_assoc, hfactor, Int.cast_mul, hpow (i := numericAvgScale - scale) (by omega) rfl]
      push_cast
      ring
  · -- the count is scaled
    have hsum : |m.sum * 10 ^ (state - scale).toNat| < 2 ^ 254 :=
      h.abs_mul_lt (by positivity) (hpow' 19 (by omega))
    have hpower : (state - numericAvgScale).toNat ≤ 22 := by rw [numericAvgScale]; omega
    have hpos : (0 : ℤ) < m.card * 10 ^ (state - numericAvgScale).toNat :=
      mul_pos hcard (by positivity)
    have hdivisor : (m.card : ℤ) * 10 ^ (state - numericAvgScale).toNat < 2 ^ 254 := by
      calc (m.card : ℤ) * 10 ^ (state - numericAvgScale).toNat
          ≤ 2 ^ 64 * 10 ^ 22 := mul_le_mul hcard'.le (hpow' 22 hpower) (by positivity) (by norm_num)
        _ < 2 ^ 254 := by norm_num
    refine ⟨_, _, ?_, hsum, hpos, hdivisor, ?_⟩
    · rw [if_neg hle, tenPowI256_eq (hpower.trans (by norm_num)), ok_bind,
        checkedI256_of_lt' (by rwa [abs_of_pos hpos]), ok_bind]
      rfl
    · rw [Int.cast_mul, Int.cast_mul, hpow (i := state - scale) (by omega) rfl,
        hpow (i := state - numericAvgScale) (by omega) rfl, Int.cast_natCast]
      have hstate' := hzero state
      have hscale' := hzero scale
      have hresult := hzero numericAvgScale
      field_simp

/-- What `evaluate` returns for values: the average if it fits, nothing if there are none. An error
can only be that the average does not fit. -/
structure Exact (label : String) (scale : ℤ) (m : Multiset ℤ) (result : Except String (Option ℤ)) :
    Prop where
  none : m = 0 → result = .ok none
  some : m ≠ 0 → |average scale m| < 10 ^ 38 → result = .ok (some (average scale m))
  error : ∀ message, result = .error message → message = "avg " ++ label ++
    " result does not fit Decimal128(38, 16)"

/-- The result of a sum and a count: the average, unless it does not fit 128 bits. -/
lemma scaledAverage_eq {scale state : ℤ} (hscale : -3 ≤ scale)
    (hstate : scale ≤ state ∧ 0 ≤ state ∧ state ≤ 38) (hdelta : state - scale ≤ 19)
    {m : Multiset ℤ} (h : Small m) (label : String) :
    scaledAverage (m.sum * 10 ^ (state - scale).toNat) m.card state numericAvgScale label =
      if m = 0 then .ok none
      else if -2 ^ 127 ≤ average scale m ∧ average scale m < 2 ^ 127 then
        .ok (some (average scale m))
      else .error ("avg " ++ label ++ " result does not fit Decimal128(38, 16)") := by
  by_cases hne : m = 0
  · rw [if_pos hne, scaledAverage, if_pos (by rw [hne, Multiset.card_zero])]
    rfl
  · obtain ⟨a, d, hparts, ha, hd, hd', hquot⟩ := scaledParts_eq hscale hstate hdelta h hne label
    rw [if_neg hne, scaledAverage, if_neg (fun hzero => hne (Multiset.card_eq_zero.mp hzero)),
      hparts, ok_bind]
    dsimp only
    rw [roundedQuotient_eq ha hd hd', ok_bind, hquot]
    rfl

lemma scaledAverage_exact {scale state : ℤ} (hscale : -3 ≤ scale)
    (hstate : scale ≤ state ∧ 0 ≤ state ∧ state ≤ 38) (hdelta : state - scale ≤ 19)
    {m : Multiset ℤ} (h : Small m) (label : String) :
    Exact label scale m
      (scaledAverage (m.sum * 10 ^ (state - scale).toNat) m.card state numericAvgScale label) := by
  rw [scaledAverage_eq hscale hstate hdelta h label]
  refine ⟨fun hzero => if_pos hzero, fun hne hlt => ?_, fun message hmessage => ?_⟩
  · rw [abs_lt] at hlt
    rw [if_neg hne, if_pos ⟨by omega, by omega⟩]
  · split_ifs at hmessage
    exact (Except.error.inj hmessage).symm

lemma integerAvg_exact {m : Multiset ℤ} (h : Small m) :
    Exact "integer" 0 m (integerAvg.evaluate (totalsOf 1 m)) := by
  have hstate : (0 : ℤ) ≤ 0 ∧ (0 : ℤ) ≤ 0 ∧ (0 : ℤ) ≤ 38 := by norm_num
  exact scaledAverage_exact (by norm_num) hstate (by norm_num) h "integer"

/-- The scale of the state of an accumulator of decimals. -/
lemma decimalAvgStateScale_bounds {scale : ℤ} (hscale : -3 ≤ scale ∧ scale ≤ 38) :
    (scale ≤ decimalAvgStateScale scale ∧ 0 ≤ decimalAvgStateScale scale ∧
      decimalAvgStateScale scale ≤ 38) ∧ decimalAvgStateScale scale - scale ≤ 19 := by
  rw [decimalAvgStateScale, numericAvgScale]
  omega

lemma decimalAvg_exact {scale : ℤ} (hscale : -3 ≤ scale ∧ scale ≤ 38) {m : Multiset ℤ}
    (h : Small m) :
    Exact "decimal" scale m
      ((decimalAvg scale).evaluate (totalsOf (decimalFactor scale) m)) :=
  scaledAverage_exact hscale.1 (decimalAvgStateScale_bounds hscale).1
    (decimalAvgStateScale_bounds hscale).2 h "decimal"

lemma decimalFactor_le {scale : ℤ} (hscale : -3 ≤ scale) : decimalFactor scale ≤ 10 ^ 19 := by
  refine pow_le_pow_right₀ (by norm_num) ?_
  rw [decimalAvgStateScale, numericAvgScale]
  omega

/-- **`avg` is exact.** For values below `10 ^ 38`, the accumulators of integers and of decimals
with `-3` to `38` digits after the point return the rounded average of what they contain, however it
came in; `avg(DISTINCT)` that of the set of the values. No step overflows. -/
theorem avg_exact (scale : ℤ) (hscale : -3 ≤ scale ∧ scale ≤ 38) (h : History) (hvalid : h.Valid) :
    (∃ totals, h.run integerAvg = .ok totals ∧
      Exact "integer" 0 h.contents (integerAvg.evaluate totals)) ∧
    (∃ totals, h.run (decimalAvg scale) = .ok totals ∧
      Exact "decimal" scale h.contents ((decimalAvg scale).evaluate totals)) ∧
    (h.Grows → ∃ seen, h.runDistinct = .ok seen ∧
      Exact "integer" 0 h.contents.dedup (DistinctAvg.evaluate integerAvg seen) ∧
      Exact "decimal" scale h.contents.dedup (DistinctAvg.evaluate (decimalAvg scale) seen)) := by
  have hsmall := History.Valid.small h hvalid
  have hinteger := tracks_integerAvg
  have hdecimal := tracks_decimalAvg hscale.1
  have hfactor : 0 < decimalFactor scale := pow_pos (by norm_num) _
  have hfactor' := decimalFactor_le hscale.1
  refine ⟨⟨_, History.run_eq hinteger one_pos (by norm_num) h hvalid, integerAvg_exact hsmall⟩,
    ⟨_, History.run_eq hdecimal hfactor hfactor' h hvalid, decimalAvg_exact hscale hsmall⟩,
      fun hgrows => ?_⟩
  have hset : Small h.contents.toFinset.val := hsmall.mono (Multiset.dedup_le _)
  refine ⟨_, History.runDistinct_eq h hgrows, ?_, ?_⟩
  · rw [DistinctAvg.evaluate_eq hinteger one_pos (by norm_num) hset]
    exact integerAvg_exact hset
  · rw [DistinctAvg.evaluate_eq hdecimal hfactor hfactor' hset]
    exact decimalAvg_exact hscale hset

/-- Values with two digits after the point: `1.50` and `-0.25` come in a batch with a null, `0.07`
by a merged state, and `1.50` goes again. -/
def sampleHistory : History :=
  .retract (.merge (.update .new [some 150, none, some (-25)]) [.update .new [some 7]]) [some 150]

lemma sampleHistory_valid : sampleHistory.Valid := by
  simp only [sampleHistory, History.Valid, History.ValidAll, History.contents, History.contentsAll]
  decide

theorem avg_exact_sample :
    sampleHistory.Valid ∧ ∃ totals, sampleHistory.run (decimalAvg 2) = .ok totals ∧
      (decimalAvg 2).evaluate totals = .ok (some (-900000000000000)) := by
  obtain ⟨totals, hrun, hexact⟩ := (avg_exact 2 (by norm_num) sampleHistory sampleHistory_valid).2.1
  have haverage : average 2 sampleHistory.contents = -900000000000000 := by decide +kernel
  have hne : sampleHistory.contents ≠ 0 := by decide +kernel
  have hresult := hexact.some hne (by rw [haverage]; norm_num)
  rw [haverage] at hresult
  exact ⟨sampleHistory_valid, totals, hrun, hresult⟩

/-- With 23 digits before the point cut off, scaling a single value overflows. -/
theorem avg_scaling_overflows :
    (History.update .new [some (10 ^ 38 - 1)]).Valid ∧
      (History.update .new [some (10 ^ 38 - 1)]).run (decimalAvg (-23)) =
        .error "avg decimal transition scaling overflowed i256" := by
  refine ⟨?_, by decide +kernel⟩
  simp only [History.Valid, History.contents]
  decide

end PgFusion.Aggregates

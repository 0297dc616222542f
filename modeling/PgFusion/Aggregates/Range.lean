import PgFusion.Aggregates.Exact
import PgFusion.Numeric.RoundTrunc

/-!
Numeric results and their declared type, whose numbers have at most 38 digits.

The range is only enforced by the 128-bit integers that hold the results, which reach up to about
`1.7 * 10 ^ 38`. What is returned is therefore below `10 ^ 38` exactly where the right result is, or
where it does not even fit these integers.

* `integerAvg_stays`, `decimalAvg_stays`: the averages, which are `Contained` or leave the type;
* `average_integer_lt`: averages of 64-bit integers, which never leave it;
* `results_below`: averages, `round` and `trunc`, each with the exact condition.
-/

namespace PgFusion.Aggregates

open Numeric (NumericRoundTruncOp roundTruncDecimal128 roundedUnits RoundsExactly roundsExactly_iff)

/-! ### Averages -/

/-- What is returned has at most 38 digits. -/
def StaysBelow (result : Except String (Option ℤ)) : Prop :=
  ∀ r, result = .ok (some r) → |r| < 10 ^ 38

/-- A number of at most 38 digits, or one that does not fit 128 bits and is refused. -/
def Contained (r : ℤ) : Prop := |r| < 10 ^ 38 ∨ ¬(-2 ^ 127 ≤ r ∧ r < 2 ^ 127)

variable {m : Multiset ℤ}

/-- Averages are returned unless they do not fit 128 bits. -/
lemma scaledAverage_stays {scale state : ℤ} (hscale : -3 ≤ scale)
    (hstate : scale ≤ state ∧ 0 ≤ state ∧ state ≤ 38) (hdelta : state - scale ≤ 19)
    (h : Small m) (label : String) :
    StaysBelow (scaledAverage (m.sum * 10 ^ (state - scale).toNat) m.card state numericAvgScale
      label) ↔ Contained (average scale m) := by
  rw [scaledAverage_eq hscale hstate hdelta h label]
  by_cases hne : m = 0
  · have hzero : average scale m = 0 := by
      rw [average, hne, Multiset.sum_zero, Int.cast_zero, zero_div, zero_div, zero_mul]
      exact roundHalfAway_intCast 0
    rw [if_pos hne, hzero]
    exact iff_of_true (fun r hr => by cases hr) (.inl (by norm_num))
  · rw [if_neg hne, Contained]
    by_cases hfits : -2 ^ 127 ≤ average scale m ∧ average scale m < 2 ^ 127
    · rw [if_pos hfits, or_iff_left (not_not.mpr hfits)]
      refine ⟨fun hall => hall _ rfl, fun hlt r hr => ?_⟩
      rwa [← Option.some.inj (Except.ok.inj hr)]
    · rw [if_neg hfits]
      exact iff_of_true (fun r hr => by cases hr) (.inr hfits)

lemma integerAvg_stays (h : Small m) :
    StaysBelow (integerAvg.evaluate (totalsOf 1 m)) ↔ Contained (average 0 m) := by
  have hstate : (0 : ℤ) ≤ 0 ∧ (0 : ℤ) ≤ 0 ∧ (0 : ℤ) ≤ 38 := by norm_num
  exact scaledAverage_stays (by norm_num) hstate (by norm_num) h "integer"

lemma decimalAvg_stays {scale : ℤ} (hscale : -3 ≤ scale ∧ scale ≤ 38) (h : Small m) :
    StaysBelow ((decimalAvg scale).evaluate (totalsOf (decimalFactor scale) m)) ↔
      Contained (average scale m) :=
  scaledAverage_stays hscale.1 (decimalAvgStateScale_bounds hscale).1
    (decimalAvgStateScale_bounds hscale).2 h "decimal"

/-- An average of 64-bit integers has at most 38 digits. -/
lemma average_integer_lt (h : ∀ value ∈ m, |value| ≤ 2 ^ 63) :
    |average 0 m| < 10 ^ 38 := by
  have hsum : |m.sum| ≤ m.card * 2 ^ 63 := by
    have hle := Multiset.sum_le_card_nsmul (m.map fun value => |value|) (2 ^ 63) fun x hx => by
      obtain ⟨value, hvalue, rfl⟩ := Multiset.mem_map.mp hx
      exact h value hvalue
    rw [Multiset.card_map, nsmul_eq_mul] at hle
    exact Multiset.abs_sum_le_sum_abs.trans hle
  have hquot : |(m.sum : ℚ) / m.card| ≤ 2 ^ 63 := by
    rw [abs_div, Nat.abs_cast]
    refine div_le_of_le_mul₀ (Nat.cast_nonneg _) (by norm_num) ?_
    rw [mul_comm]
    exact_mod_cast hsum
  have hround := abs_roundHalfAway_le ((m.sum : ℚ) / 10 ^ (0 : ℤ) / m.card * 10 ^ numericAvgScale)
  rw [zpow_zero, div_one, abs_mul] at hround
  have hscale : |(10 : ℚ) ^ numericAvgScale| = 10 ^ 16 := by norm_num [numericAvgScale]
  rw [hscale] at hround
  have hlt : ((|average 0 m| : ℤ) : ℚ) < ((10 ^ 38 : ℤ) : ℚ) := by
    rw [average, zpow_zero, div_one, Int.cast_abs, Int.cast_pow, Int.cast_ofNat]
    linarith
  exact_mod_cast hlt

/-! ### Results -/

/-- **Numeric results stay inside their declared type** if and only if the exact average is below
`10 ^ 38` or does not fit 128 bits, which averages of 64-bit integers always are; and `round` and
`trunc` return what is below `10 ^ 38` and refuse the rest if and only if the place count does not
overflow and the rounded value is below `10 ^ 38` or has a remainder that cannot be doubled. -/
theorem results_below (h : History) (hvalid : h.Valid) (scale : ℤ) (hscale : 0 ≤ scale)
    (hscale' : scale ≤ 38) :
    ((∃ totals, h.run integerAvg = .ok totals ∧
        (StaysBelow (integerAvg.evaluate totals) ↔ Contained (average 0 h.contents))) ∧
      ((∀ value ∈ h.contents, |value| ≤ 2 ^ 63) → Contained (average 0 h.contents)) ∧
      ∃ totals, h.run (decimalAvg scale) = .ok totals ∧
        (StaysBelow ((decimalAvg scale).evaluate totals) ↔
          Contained (average scale h.contents))) ∧
    (h.Grows → ∃ seen, h.runDistinct = .ok seen ∧
      (StaysBelow (DistinctAvg.evaluate integerAvg seen) ↔
        Contained (average 0 h.contents.dedup)) ∧
      ((∀ value ∈ h.contents, |value| ≤ 2 ^ 63) → Contained (average 0 h.contents.dedup)) ∧
      (StaysBelow (DistinctAvg.evaluate (decimalAvg scale) seen) ↔
        Contained (average scale h.contents.dedup))) ∧
    ∀ (op : NumericRoundTruncOp) (v n : ℤ), |v| < 10 ^ 38 → -2 ^ 63 ≤ n → n < 2 ^ 63 →
      (RoundsExactly op v scale n ↔ (scale - n < 2 ^ 63 ∨ v = 0) ∧
        (op = .round →
          |roundedUnits op v scale n| < 10 ^ 38 ∨ scale - n = 38 ∧ 2 ^ 126 ≤ |v|)) := by
  have hsmall := History.Valid.small h hvalid
  have hset : Small h.contents.toFinset.val := hsmall.mono (Multiset.dedup_le _)
  have hinteger := tracks_integerAvg
  have hdecimal := @tracks_decimalAvg scale (by omega)
  have hfactor : 0 < decimalFactor scale := pow_pos (by norm_num) _
  have hfactor' : decimalFactor scale ≤ 10 ^ 19 := decimalFactor_le (by omega)
  refine ⟨⟨⟨_, History.run_eq hinteger one_pos (by norm_num) h hvalid, integerAvg_stays hsmall⟩,
    fun hvalues => .inl (average_integer_lt hvalues),
    ⟨_, History.run_eq hdecimal hfactor hfactor' h hvalid,
      decimalAvg_stays ⟨by omega, hscale'⟩ hsmall⟩⟩,
    fun hgrows => ⟨_, History.runDistinct_eq h hgrows, ?_, fun hvalues => .inl ?_, ?_⟩,
    fun op v n hv hlow hn => roundsExactly_iff op hv hscale hscale' hlow hn⟩
  · rw [DistinctAvg.evaluate_eq hinteger one_pos (by norm_num) hset]
    exact integerAvg_stays hset
  · exact average_integer_lt fun value hvalue => hvalues value (Multiset.mem_dedup.mp hvalue)
  · rw [DistinctAvg.evaluate_eq hdecimal hfactor hfactor' hset]
    exact decimalAvg_stays ⟨by omega, hscale'⟩ hset

/-- Values with two digits behind the point stay below, and `123.45` is rounded to one digit. -/
theorem results_below_sample :
    (∃ totals, sampleHistory.run (decimalAvg 2) = .ok totals ∧
      StaysBelow ((decimalAvg 2).evaluate totals)) ∧ RoundsExactly .round 12345 2 1 := by
  obtain ⟨⟨-, -, totals, hrun, havg⟩, -, hround⟩ :=
    results_below sampleHistory sampleHistory_valid 2 (by decide) (by decide)
  have haverage : average 2 sampleHistory.contents = -900000000000000 := by decide +kernel
  refine ⟨⟨totals, hrun, havg.mpr (.inl (by rw [haverage]; norm_num))⟩, ?_⟩
  have hunits : roundedUnits .round 12345 2 1 = 12350 := by decide +kernel
  refine (hround .round 12345 1 (by decide) (by decide) (by decide)).mpr
    ⟨.inl (by decide), fun _ => .inl ?_⟩
  rw [hunits]
  norm_num

/-- The average of the single number `10 ^ 22`, and `99…9` rounded to one digit less, are returned
with 39 digits; with the smallest place count the subtraction wraps and `5` is returned in place of
`0`. -/
theorem results_too_large :
    (History.update .new [some (10 ^ 22)]).run (decimalAvg 0) = .ok ⟨10 ^ 38, 1⟩ ∧
      (decimalAvg 0).evaluate ⟨10 ^ 38, 1⟩ = .ok (some (10 ^ 38)) ∧
      roundTruncDecimal128 .round (10 ^ 38 - 1) 16 15 = .ok (10 ^ 38) ∧
      roundTruncDecimal128 .round (5 * 10 ^ 37) 38 0 = .ok (10 ^ 38) ∧
      roundTruncDecimal128 .trunc 5 0 (-2 ^ 63) = .ok 5 := by
  decide +kernel

end PgFusion.Aggregates

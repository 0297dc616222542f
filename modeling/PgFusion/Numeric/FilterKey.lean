import Mathlib.Data.List.ReduceOption
import PgFusion.Filter.Bloom
import PgFusion.Numeric.Decimal
import PgFusion.PgType.Types

/-!
Decimal join keys of runtime filters, from `runtime/filter/src/lib.rs`,
`runtime/worker/src/runtime_filter_plan.rs` and `pg/slot_encoder/src/datum.rs`: numbers that are
equal are stripped to the same value and scale, and so have the same hash on both sides.

* `stripZeros_unique`: the stripped form of a number is unique;
* `decimal_filter_keys_agree`: no equal key is missed.
-/

namespace PgFusion.Numeric

/-! ### Hashes -/

/-- `FNV_OFFSET_BASIS`. -/
def fnvOffsetBasis : UInt64 := 0xcbf29ce484222325

/-- `FNV_PRIME`. -/
def fnvPrime : UInt64 := 0x00000100000001b3

/-- `hash_bytes_key`. -/
def hashBytesKey (bytes : List UInt8) : UInt64 :=
  bytes.foldl (fun hash byte => (hash ^^^ byte.toUInt64) * fnvPrime) fnvOffsetBasis

/-- `i128::to_le_bytes`. -/
def i128LeBytes (value : ℤ) : List UInt8 :=
  (List.range 16).map fun i => UInt8.ofNat ((value % 2 ^ 128).toNat / 256 ^ i % 256)

/-- The loop of `hash_decimal128_key`, for a scale that is not negative. -/
def stripZeros (value : ℤ) : ℕ → ℤ × ℕ
  | 0 => (value, 0)
  | scale + 1 => if value.tmod 10 = 0 then stripZeros (value.tdiv 10) scale else (value, scale + 1)

/-- `hash_decimal128_key`. -/
def hashDecimal128Key (value : ℤ) (scale : Int8) : UInt64 :=
  let key : ℤ × Int8 :=
    if 0 < scale.toInt then
      let stripped := stripZeros value scale.toInt.toNat
      (stripped.1, Int8.ofNat stripped.2)
    else (value, scale)
  hashBytesKey (i128LeBytes key.1 ++ [key.2.toUInt8])

/-! ### The two sides of a join -/

/-- The `Decimal128` case of `insert_batch`: the hashes of the values that are not null. -/
def insertBatchDecimal128 (scale : Int8) (values : List (Option ℤ)) : Except String (List UInt64) :=
  if scale.toInt < 0 then .error "runtime filter Decimal128 build key had negative scale"
  else .ok (values.reduceOption.map fun value => hashDecimal128Key value scale)

/-- The errors of `read_numeric_decimal128_with_scale`. -/
inductive DatumError where
  | unsupportedNumericTypmod (index : ℕ) (atttypmod : Int32)
  | nullDatumPointer (index : ℕ)
  | unsupportedSpecialNumeric (index : ℕ)
  | numericValueOutOfRange (index : ℕ) (precision : UInt8) (scale : Int8)
deriving DecidableEq

/-- `read_numeric_decimal128_with_scale`, for the bytes of the detoasted datum, or a null
pointer. -/
def readNumericDecimal128WithScale (datum : Option (List UInt8)) (atttypmod : Int32) (index : ℕ) :
    Except DatumError (ℤ × Int8) :=
  match numericShapeFromTypmod atttypmod with
  | none => .error (.unsupportedNumericTypmod index atttypmod)
  | some (precision, scale) =>
    match datum with
    | none => .error (.nullDatumPointer index)
    | some varlena =>
      match numericToDecimal128 varlena scale precision with
      | .ok value => .ok (value, scale)
      | .error .special => .error (.unsupportedSpecialNumeric index)
      | .error .outOfRange => .error (.numericValueOutOfRange index precision scale)

/-! ### Stripped numbers -/

/-- Stripping keeps the number and leaves no zero behind the point. -/
lemma stripZeros_spec (value : ℤ) (scale : ℕ) :
    value = (stripZeros value scale).1 * 10 ^ (scale - (stripZeros value scale).2) ∧
      (stripZeros value scale).2 ≤ scale ∧
      ((stripZeros value scale).2 = 0 ∨ ¬ (10 : ℤ) ∣ (stripZeros value scale).1) := by
  induction scale generalizing value with
  | zero => simp [stripZeros]
  | succ scale ih =>
    rw [stripZeros]
    by_cases h : value.tmod 10 = 0
    · obtain ⟨hvalue, hle, hlast⟩ := ih (value.tdiv 10)
      rw [if_pos h]
      refine ⟨?_, by omega, hlast⟩
      rw [Nat.succ_sub hle, pow_succ, ← mul_assoc, ← hvalue]
      exact (Int.tdiv_mul_cancel (Int.dvd_of_tmod_eq_zero h)).symm
    · rw [if_neg h]
      exact ⟨by simp, le_rfl, Or.inr fun hdvd => h (Int.tmod_eq_zero_of_dvd hdvd)⟩

/-- A stripped number that is equal to another one does not have the smaller scale. -/
lemma scale_le_of_eq {v₁ v₂ : ℤ} {s₁ s₂ : ℕ} (h₂ : s₂ = 0 ∨ ¬ (10 : ℤ) ∣ v₂)
    (h : v₁ * 10 ^ s₂ = v₂ * 10 ^ s₁) : s₂ ≤ s₁ := by
  by_contra hlt
  obtain ⟨n, rfl⟩ : ∃ n, s₂ = s₁ + (n + 1) := ⟨s₂ - s₁ - 1, by omega⟩
  rcases h₂ with h₂ | h₂
  · omega
  · refine h₂ ⟨v₁ * 10 ^ n, ?_⟩
    have hcancel : v₁ * 10 ^ (n + 1) * 10 ^ s₁ = v₂ * 10 ^ s₁ := by
      rw [← h, pow_add]
      ring
    rw [← mul_right_cancel₀ (by positivity) hcancel]
    ring

/-- **Equal numbers are stripped to the same value and scale.** -/
lemma stripZeros_unique {v₁ v₂ : ℤ} {s₁ s₂ : ℕ} (h : v₁ * 10 ^ s₂ = v₂ * 10 ^ s₁) :
    stripZeros v₁ s₁ = stripZeros v₂ s₂ := by
  obtain ⟨hv₁, hle₁, hlast₁⟩ := stripZeros_spec v₁ s₁
  obtain ⟨hv₂, hle₂, hlast₂⟩ := stripZeros_spec v₂ s₂
  generalize stripZeros v₁ s₁ = r₁ at *
  generalize stripZeros v₂ s₂ = r₂ at *
  obtain ⟨w₁, t₁⟩ := r₁
  obtain ⟨w₂, t₂⟩ := r₂
  simp only at *
  have heq : w₁ * 10 ^ t₂ = w₂ * 10 ^ t₁ := by
    obtain ⟨a, rfl⟩ := Nat.exists_eq_add_of_le hle₁
    obtain ⟨b, rfl⟩ := Nat.exists_eq_add_of_le hle₂
    rw [Nat.add_sub_cancel_left] at hv₁ hv₂
    rw [hv₁, hv₂, pow_add, pow_add] at h
    have hpos : (10 : ℤ) ^ a * 10 ^ b ≠ 0 := by positivity
    refine mul_right_cancel₀ hpos ?_
    linear_combination h
  have hscale : t₁ = t₂ := le_antisymm (scale_le_of_eq hlast₁ heq.symm) (scale_le_of_eq hlast₂ heq)
  subst hscale
  rw [mul_right_cancel₀ (by positivity) heq]

/-- The hash of a value at a scale that is not negative. -/
lemma hashDecimal128Key_eq (value : ℤ) {scale : Int8} (hscale : 0 ≤ scale.toInt) :
    hashDecimal128Key value scale =
      hashBytesKey (i128LeBytes (stripZeros value scale.toInt.toNat).1 ++
      [(Int8.ofNat (stripZeros value scale.toInt.toNat).2).toUInt8]) := by
  rw [hashDecimal128Key]
  by_cases hpos : 0 < scale.toInt
  · simp only [if_pos hpos]
  · have hzero : scale = 0 := Int8.toInt.inj (by rw [Int8.toInt_zero]; omega)
    subst hzero
    rfl

/-- Numbers that are equal have the same hash. -/
lemma hash_eq_of_div_eq {v₁ v₂ : ℤ} {s₁ s₂ : Int8} (h₁ : 0 ≤ s₁.toInt) (h₂ : 0 ≤ s₂.toInt)
    (h : (v₁ : ℚ) / 10 ^ s₁.toInt = v₂ / 10 ^ s₂.toInt) :
    hashDecimal128Key v₁ s₁ = hashDecimal128Key v₂ s₂ := by
  rw [hashDecimal128Key_eq v₁ h₁, hashDecimal128Key_eq v₂ h₂]
  obtain ⟨n₁, hn₁⟩ := Int.eq_ofNat_of_zero_le h₁
  obtain ⟨n₂, hn₂⟩ := Int.eq_ofNat_of_zero_le h₂
  rw [hn₁, hn₂, zpow_natCast, zpow_natCast, div_eq_div_iff (by positivity) (by positivity)] at h
  rw [hn₁, hn₂, Int.toNat_natCast, Int.toNat_natCast, stripZeros_unique (by exact_mod_cast h)]

/-! ### Both sides -/

/-- **What the probe side reads is the value of the number** in units of its scale. -/
lemma readNumeric_eq_ok {v : NumericVarlena} {atttypmod : Int32} {index : ℕ} {value : ℤ}
    {scale : Int8}
    (h : readNumericDecimal128WithScale (some v.bytes) atttypmod index = .ok (value, scale)) :
    0 ≤ scale.toInt ∧ v.value = some ((value : ℚ) / 10 ^ scale.toInt) := by
  rw [readNumericDecimal128WithScale] at h
  split at h
  · cases h
  · next precision scale' hshape =>
      obtain ⟨hp, hscale, -⟩ := numericShapeFromTypmod_eq_some hshape
      split at h
      · cases h
      · next varlena hdatum =>
          obtain rfl := Option.some.inj hdatum
          split at h
          · next value' hdecode =>
              obtain ⟨rfl, rfl⟩ := Prod.mk.inj (Except.ok.inj h)
              cases hs : v.stored with
              | special flags rest hflags =>
                rw [NumericVarlena.bytes, hs, Stored.bytes,
                  decode_special v.header_len hflags] at hdecode
                cases hdecode
              | finite n =>
                rw [NumericVarlena.bytes, hs, Stored.bytes,
                  decode_finite v.header_len n _ hp] at hdecode
                have hvalue := (Finite.decode_eq_ok (v.places hs _) hdecode).1
                refine ⟨hscale, ?_⟩
                rw [NumericVarlena.value, hs, ← hvalue, mul_div_cancel_right₀ _ (by positivity)]
          · cases h
          · cases h

/-- **Decimal keys respect equality of numbers.** Values that are equal at their scales have the
same hash. A stored number that the probe side reads is finite, and if an array of the build side,
with any scale, holds a value equal to it, the hash that is looked up was inserted, and its bits are
found in every filter that has the bits of the array. -/
theorem decimal_filter_keys_agree :
    (∀ (v₁ v₂ : ℤ) (s₁ s₂ : Int8), 0 ≤ s₁.toInt → 0 ≤ s₂.toInt →
      (v₁ : ℚ) / 10 ^ s₁.toInt = v₂ / 10 ^ s₂.toInt →
        hashDecimal128Key v₁ s₁ = hashDecimal128Key v₂ s₂) ∧
    ∀ (v : NumericVarlena) (atttypmod : Int32) (index : ℕ) (value : ℤ) (scale : Int8),
      readNumericDecimal128WithScale (some v.bytes) atttypmod index = .ok (value, scale) →
      ∃ x, v.value = some x ∧
        ∀ (buildScale : Int8) (values : List (Option ℤ)) (hashes : List UInt64) (b : ℤ),
          insertBatchDecimal128 buildScale values = .ok hashes → some b ∈ values →
          (b : ℚ) / 10 ^ buildScale.toInt = x →
          hashDecimal128Key value scale ∈ hashes ∧
          ∀ (params : Filter.BloomParams) (words : ℕ → UInt64),
            (∀ hash ∈ hashes, ∀ k < params.hashCount,
              Filter.Covers (words (params.wordMask hash k).1) (params.wordMask hash k).2) →
            ∀ k < params.hashCount,
              words (params.wordMask (hashDecimal128Key value scale) k).1 &&&
                (params.wordMask (hashDecimal128Key value scale) k).2 ≠ 0 := by
  refine ⟨fun v₁ v₂ s₁ s₂ => hash_eq_of_div_eq, ?_⟩
  intro v atttypmod index value scale hread
  obtain ⟨hscale, hvalue⟩ := readNumeric_eq_ok hread
  refine ⟨_, hvalue, ?_⟩
  intro buildScale values hashes b hinsert hb heq
  rw [insertBatchDecimal128] at hinsert
  split_ifs at hinsert with hneg
  obtain rfl := Except.ok.inj hinsert
  have hmem : hashDecimal128Key value scale ∈
      values.reduceOption.map fun value => hashDecimal128Key value buildScale :=
    List.mem_map.mpr ⟨b, List.reduceOption_mem_iff.mpr hb,
      hash_eq_of_div_eq (by omega) hscale heq⟩
  exact ⟨hmem, fun params words hwords k hk =>
    (hwords _ hmem k hk).and_ne_zero (params.wordMask_ne_zero _ k)⟩

/-- The number 1.50 in a column of type `numeric(5, 2)`. -/
def threeHalves : NumericVarlena where
  header := [40, 0, 0, 0]
  stored := .finite ⟨.short, false, 2, 0, [1, 5000], two_lt_short_dscales, neg_short_weights_le,
    short_weights_pos, by decide⟩
  header_len := rfl
  size_lt := by decide

/-- The number 1.50 in a column of scale 2, against the value 1.5 of an array of scale 1. -/
theorem decimal_filter_keys_threeHalves :
    hashDecimal128Key 150 2 = hashDecimal128Key 15 1 ∧
      readNumericDecimal128WithScale (some threeHalves.bytes) 327686 0 = .ok (150, 2) ∧
      insertBatchDecimal128 1 [none, some 15] = .ok [hashDecimal128Key 15 1] ∧
      hashDecimal128Key 150 2 ∈ [hashDecimal128Key 15 1] := by
  have hscale : (2 : Int8).toInt = 2 ∧ (1 : Int8).toInt = 1 := by decide
  have hread : readNumericDecimal128WithScale (some threeHalves.bytes) 327686 0 = .ok (150, 2) := by
    decide +kernel
  obtain ⟨hhash, hprobe⟩ := decimal_filter_keys_agree
  obtain ⟨x, hx, hbuild⟩ := hprobe threeHalves 327686 0 150 2 hread
  have heq : (15 : ℤ) / 10 ^ (1 : Int8).toInt = x := by
    rw [← Option.some.inj hx, hscale.2]
    norm_num [Finite.value]
  exact ⟨hhash 150 15 2 1 (by decide) (by decide) (by rw [hscale.1, hscale.2]; norm_num),
    hread, rfl, (hbuild 1 [none, some 15] _ 15 rfl (by decide) heq).1⟩

end PgFusion.Numeric

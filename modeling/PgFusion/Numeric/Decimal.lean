import PgFusion.Data.Positional

/-!
Decoding of PostgreSQL's `numeric`, from `pg/type/src/numeric.rs`. The integers of the source are
integers here, with its checks and, in `i32`, with the wrap-around of a release build. Words are
little-endian.

* `placeDigits_sound`, `placeDigits_complete`: the loop over the digits;
* `numeric_decoding_exact`: decoding returns the number in units of the scale, exactly if it can.
-/

namespace PgFusion.Numeric

open Positional

/-! ### The decoder -/

/-- `NumericDecodeError`. -/
inductive NumericDecodeError where
  | special
  | outOfRange
deriving DecidableEq

/-- `VARHDRSZ`. -/
def varhdrsz : ℕ := 4

/-- `NUMERIC_DIGIT_BYTES`. -/
def numericDigitBytes : ℕ := 2

/-- `DEC_DIGITS`. -/
def decDigits : ℕ := 4

/-- `NUMERIC_SIGN_MASK`. -/
def numericSignMask : ℕ := 0xC000

/-- `NUMERIC_SPECIAL`. -/
def numericSpecial : ℕ := 0xC000

/-- `NUMERIC_NEG`. -/
def numericNeg : ℕ := 0x4000

/-- `NUMERIC_SHORT`. -/
def numericShort : ℕ := 0x8000

/-- `NUMERIC_SHORT_SIGN_MASK`. -/
def numericShortSignMask : ℕ := 0x2000

/-- `NUMERIC_SHORT_WEIGHT_SIGN_MASK`. -/
def numericShortWeightSignMask : ℕ := 0x0040

/-- `NUMERIC_SHORT_WEIGHT_MASK`. -/
def numericShortWeightMask : ℕ := 0x003F

/-- `pow10_i128`, with the table `POW10_I128` of the powers up to `10 ^ 38`. -/
def pow10I128 (exp : ℤ) : Option ℤ := if 0 ≤ exp ∧ exp < 39 then some (10 ^ exp.toNat) else none

/-- The result of a checked operation of `i128`. -/
def checkedI128 (v : ℤ) : Except NumericDecodeError ℤ :=
  if -2 ^ 127 ≤ v ∧ v < 2 ^ 127 then .ok v else .error .outOfRange

/-- The result of an operation of `i32`, which wraps around. -/
def wrapI32 (v : ℤ) : ℤ := v.bmod (2 ^ 32)

/-- `u16::from_ne_bytes` of two bytes of a slice. -/
def u16At (varlena : List UInt8) (off : ℕ) : ℕ :=
  (varlena.getD off 0).toNat + 256 * (varlena.getD (off + 1) 0).toNat

/-- `i16::from_ne_bytes` of two bytes of a slice. -/
def i16At (varlena : List UInt8) (off : ℕ) : ℤ :=
  if u16At varlena off < 0x8000 then u16At varlena off else u16At varlena off - 0x10000

/-- The sign extension of the seven-bit weight. -/
def shortWeight (nHeader : ℕ) : ℤ :=
  let raw := Int32.ofNat (nHeader &&& numericShortWeightMask)
  if nHeader &&& numericShortWeightSignMask ≠ 0 then
    (raw ||| ~~~ Int32.ofNat numericShortWeightMask).toInt
  else raw.toInt

/-- A turn of the loop over the digits: a digit whose last decimal place stands at `10 ^ exp`. -/
def placeDigit (digit exp result : ℤ) : Except NumericDecodeError ℤ :=
  if 0 ≤ exp then
    if digit ≠ 0 then
      match pow10I128 exp with
      | none => .error .outOfRange
      | some power => do
        let scaled ← checkedI128 (digit * power)
        checkedI128 (result + scaled)
    else .ok result
  else if exp ≤ -decDigits then
    if digit ≠ 0 then .error .outOfRange else .ok result
  else
    let div := 10 ^ (-exp).toNat
    if digit.tmod div ≠ 0 then .error .outOfRange
    else checkedI128 (result + digit.tdiv div)

/-- `numeric_to_decimal128`. -/
def numericToDecimal128 (varlena : List UInt8) (targetScale : Int8) (maxPrecision : UInt8) :
    Except NumericDecodeError ℤ :=
  if varlena.length < varhdrsz + 2 then .ok 0
  else
    let nHeader := u16At varlena varhdrsz
    if nHeader &&& numericSignMask = numericSpecial then .error .special
    else
      let isShort := nHeader &&& numericShort ≠ 0
      let headerSize := if isShort then varhdrsz + 2 else varhdrsz + 4
      if varlena.length < headerSize then .ok 0
      else
        let ndigits := (varlena.length - headerSize) / numericDigitBytes
        let weight := if isShort then shortWeight nHeader else i16At varlena (varhdrsz + 2)
        let negative :=
          if isShort then nHeader &&& numericShortSignMask ≠ 0
          else nHeader &&& numericSignMask = numericNeg
        if ndigits = 0 then .ok 0
        else do
          let result ← (List.range ndigits).foldlM (fun result i =>
            placeDigit (i16At varlena (headerSize + i * numericDigitBytes))
              (wrapI32 (decDigits * (weight - i) + targetScale.toInt)) result) 0
          match pow10I128 maxPrecision.toNat with
          | none => .error .outOfRange
          | some limit =>
            if limit ≤ result then .error .outOfRange
            else .ok (if negative then -result else result)

/-! ### The layouts -/

/-- The two bytes of a word. -/
def word (n : ℕ) : List UInt8 := [UInt8.ofNat (n % 256), UInt8.ofNat (n / 256 % 256)]

/-- The layout of a finite number: with the sign, the display scale and the weight in one word,
or in two. -/
inductive Layout where
  | short
  | long
deriving DecidableEq

/-- The bound for display scales. -/
def Layout.dscales : Layout → ℕ
  | short => 0x40
  | long => 0x4000

/-- The bound for weights. -/
def Layout.weights : Layout → ℕ
  | short => 0x40
  | long => 0x8000

/-- A finite number: base-10000 digits, the first of them at `10000 ^ weight`. -/
structure Finite where
  layout : Layout
  negative : Bool
  dscale : ℕ
  weight : ℤ
  digits : List ℕ
  dscale_lt : dscale < layout.dscales
  weight_ge : -layout.weights ≤ weight
  weight_lt : weight < layout.weights
  digits_lt : ∀ d ∈ digits, d < 10 ^ decDigits

lemma two_lt_short_dscales : 2 < Layout.short.dscales := by decide

lemma neg_short_weights_le : -(Layout.short.weights : ℤ) ≤ 0 := by decide

lemma short_weights_pos : (0 : ℤ) < Layout.short.weights := by decide

/-- The words before the digits. -/
def Finite.head (n : Finite) : List UInt8 :=
  match n.layout with
  | .short => word (0x8000 + (if n.negative then 0x2000 else 0) + 0x80 * n.dscale +
      (n.weight % 0x80).toNat)
  | .long => word ((if n.negative then 0x4000 else 0) + n.dscale) ++
      word (n.weight % 0x10000).toNat

/-- The value of a finite number: its digits at their powers of 10000. -/
def Finite.value (n : Finite) : ℚ :=
  (if n.negative then -1 else 1) *
    (n.digits.zipIdx.map fun d => (d.1 : ℚ) * 10000 ^ (n.weight - (d.2 : ℤ))).sum

/-- A number as PostgreSQL stores it: finite, or not a number or infinite, which the two
highest bits of the first word tell. -/
inductive Stored where
  | finite (n : Finite)
  | special (flags : ℕ) (rest : List UInt8) (flags_lt : flags < 0x4000)

/-- The bytes of a number behind the header of the varlena. -/
def Stored.bytes : Stored → List UInt8
  | finite n => n.head ++ n.digits.flatMap word
  | special flags rest _ => word (0xC000 + flags) ++ rest

/-- A number in a varlena with a header of four bytes, which leaves 30 bits for the length of
the whole. -/
structure NumericVarlena where
  header : List UInt8
  stored : Stored
  header_len : header.length = varhdrsz
  size_lt : (header ++ stored.bytes).length < 2 ^ 30

/-- All bytes of a varlena. -/
def NumericVarlena.bytes (v : NumericVarlena) : List UInt8 := v.header ++ v.stored.bytes

/-- The value of a number that is finite. -/
def NumericVarlena.value (v : NumericVarlena) : Option ℚ :=
  match v.stored with
  | .finite n => some n.value
  | .special _ _ _ => none

/-! ### A digit -/

lemma pow10I128_eq_some {exp p : ℤ} :
    pow10I128 exp = some p ↔ 0 ≤ exp ∧ exp < 39 ∧ p = 10 ^ exp.toNat := by
  rw [pow10I128]
  split_ifs with h
  · simp [h.1, h.2, eq_comm]
  · constructor
    · intro hp
      cases hp
    · intro hp
      exact absurd ⟨hp.1, hp.2.1⟩ h

variable {r e : ℤ}

lemma checkedI128_eq_ok {v : ℤ} (h : checkedI128 v = .ok r) : r = v := by
  rw [checkedI128] at h
  split_ifs at h
  exact (Except.ok.inj h).symm

lemma checkedI128_of_lt {v : ℤ} (h0 : 0 ≤ v) (h : v < 10 ^ 38) : checkedI128 v = .ok v :=
  if_pos ⟨by omega, by omega⟩

/-- The exponents of digits wrap around only far below the point. -/
lemma wrapI32_cases (hlo : -2 ^ 31 - 2 ^ 20 ≤ e) (hhi : e < 2 ^ 20) :
    wrapI32 e = e ∨ e < 0 ∧ 39 ≤ wrapI32 e := by
  rw [wrapI32, Int.bmod_def]
  norm_num at hlo hhi ⊢
  split_ifs <;> omega

/-- **A digit that is accepted adds its value.** -/
lemma placeDigit_sound {d : ℕ} {r' : ℤ} (hlo : -2 ^ 31 - 2 ^ 20 ≤ e) (hhi : e < 2 ^ 20)
    (h : placeDigit d (wrapI32 e) r = .ok r') : (r' : ℚ) = r + d * (10 : ℚ) ^ e := by
  by_cases hd : d = 0
  · subst hd
    have hr : r' = r := by
      rw [placeDigit] at h
      simp only [Nat.cast_zero, ne_eq, not_true_eq_false, if_false, Int.zero_tmod, Int.zero_tdiv,
        add_zero] at h
      split_ifs at h
      · exact (Except.ok.inj h).symm
      · exact (Except.ok.inj h).symm
      · exact checkedI128_eq_ok h
    rw [hr, Nat.cast_zero, zero_mul, add_zero]
  have hd' : (d : ℤ) ≠ 0 := by exact_mod_cast hd
  rw [placeDigit] at h
  by_cases h0 : 0 ≤ wrapI32 e
  · -- above the point
    rw [if_pos h0, if_pos hd'] at h
    split at h
    · cases h
    · next power hpower =>
        obtain ⟨-, h39, rfl⟩ := pow10I128_eq_some.mp hpower
        have hwrap : wrapI32 e = e := (wrapI32_cases hlo hhi).resolve_right fun hw => by omega
        rw [hwrap] at h0 h
        obtain ⟨n, rfl⟩ := Int.eq_ofNat_of_zero_le h0
        cases hmul : checkedI128 ((d : ℤ) * 10 ^ (n : ℤ).toNat) with
        | error err =>
          rw [hmul] at h
          cases h
        | ok scaled =>
          rw [hmul] at h
          rw [checkedI128_eq_ok h, checkedI128_eq_ok hmul]
          push_cast
          rw [Int.toNat_natCast, zpow_natCast]
  · -- across the point
    have hwrap : wrapI32 e = e := (wrapI32_cases hlo hhi).resolve_right fun hw => by omega
    rw [hwrap] at h h0
    obtain ⟨n, hn⟩ := Int.eq_ofNat_of_zero_le (show 0 ≤ -e by omega)
    rw [if_neg h0, hn, Int.toNat_natCast] at h
    by_cases hlow : e ≤ -decDigits
    · rw [if_pos hlow, if_pos hd'] at h
      cases h
    rw [if_neg hlow] at h
    by_cases hdiv : (d : ℤ).tmod (10 ^ n) = 0
    swap
    · rw [if_pos hdiv] at h
      cases h
    rw [if_neg (not_not.mpr hdiv)] at h
    have hdigit : (d : ℤ) = (d : ℤ).tdiv (10 ^ n) * 10 ^ n :=
      (Int.tdiv_mul_cancel (Int.dvd_of_tmod_eq_zero hdiv)).symm
    have hdigit' : (d : ℚ) = ((d : ℤ).tdiv (10 ^ n) : ℤ) * 10 ^ n := by exact_mod_cast hdigit
    have hunit : (10 : ℚ) ^ n * (10 : ℚ) ^ e = 1 := by
      rw [← zpow_natCast, ← zpow_add₀ (by norm_num), show (n : ℤ) + e = 0 by omega, zpow_zero]
    rw [checkedI128_eq_ok h]
    push_cast
    rw [hdigit', mul_assoc, hunit, mul_one]

/-- **A digit is accepted if it is an integer at its place** and the sum stays small. -/
lemma placeDigit_complete {d : ℕ} {c : ℤ} (hlo : -2 ^ 31 - 2 ^ 20 ≤ e) (hhi : e < 2 ^ 20)
    (hd : d < 10 ^ decDigits) (hc : d * (10 : ℚ) ^ e = c) (hr : 0 ≤ r) (hsum : r + c < 10 ^ 38) :
    placeDigit d (wrapI32 e) r = .ok (r + c) := by
  have hc0 : 0 ≤ c := by
    have : (0 : ℚ) ≤ c := by rw [← hc]; positivity
    exact_mod_cast this
  rw [placeDigit]
  by_cases hzero : d = 0
  · subst hzero
    obtain rfl : c = 0 := by
      rw [Nat.cast_zero, zero_mul] at hc
      exact_mod_cast hc.symm
    simp only [Nat.cast_zero, ne_eq, not_true_eq_false, if_false, Int.zero_tmod, Int.zero_tdiv,
      add_zero] at hsum ⊢
    split_ifs
    · rfl
    · rfl
    · exact checkedI128_of_lt hr hsum
  have hd' : (d : ℤ) ≠ 0 := by exact_mod_cast hzero
  have hd1 : (1 : ℚ) ≤ d := by exact_mod_cast Nat.one_le_iff_ne_zero.mpr hzero
  -- the digit's place is not below the last digit that is an integer
  have hplace : -decDigits < e := by
    by_contra hlow
    have hpos : (0 : ℚ) < d * (10 : ℚ) ^ e := by positivity
    have hsmall : (d : ℚ) * (10 : ℚ) ^ e < 1 := by
      calc (d : ℚ) * (10 : ℚ) ^ e < 10 ^ decDigits * (10 : ℚ) ^ e := by
            gcongr
            exact_mod_cast hd
        _ = (10 : ℚ) ^ ((decDigits : ℤ) + e) := by rw [zpow_add₀ (by norm_num), zpow_natCast]
        _ ≤ (10 : ℚ) ^ (0 : ℤ) := zpow_le_zpow_right₀ (by norm_num) (by omega)
        _ = 1 := zpow_zero _
    rw [hc] at hpos hsmall
    have h0 : (0 : ℤ) < c := by exact_mod_cast hpos
    have h1 : c < 1 := by exact_mod_cast hsmall
    omega
  have hwrap : wrapI32 e = e := by
    rcases wrapI32_cases hlo hhi with hw | ⟨hneg, hw⟩
    · exact hw
    · rw [wrapI32, Int.bmod_eq_of_le (by norm_num [decDigits] at hplace ⊢; omega)
        (by norm_num at hhi ⊢; omega)] at hw
      omega
  rw [hwrap]
  by_cases h0 : 0 ≤ e
  · rw [if_pos h0, if_pos hd']
    obtain ⟨n, rfl⟩ := Int.eq_ofNat_of_zero_le h0
    have hcn : c = d * 10 ^ n := by
      rw [zpow_natCast] at hc
      exact_mod_cast hc.symm
    have hn : n < 38 := by
      by_contra hbig
      have hpow : (10 : ℤ) ^ 38 ≤ 10 ^ n := pow_le_pow_right₀ (by norm_num) (by omega)
      have hmul : (10 : ℤ) ^ n ≤ d * 10 ^ n := le_mul_of_one_le_left (by positivity) (by omega)
      omega
    have hpower : pow10I128 (n : ℤ) = some (10 ^ n) :=
      pow10I128_eq_some.mpr ⟨h0, by omega, by rw [Int.toNat_natCast]⟩
    rw [hpower]
    show (checkedI128 ((d : ℤ) * 10 ^ n)).bind _ = _
    rw [← hcn, checkedI128_of_lt hc0 (by omega)]
    exact checkedI128_of_lt (by omega) hsum
  · rw [if_neg h0, if_neg (by omega)]
    obtain ⟨n, hn⟩ := Int.eq_ofNat_of_zero_le (show 0 ≤ -e by omega)
    have hdigit : (d : ℤ) = c * 10 ^ n := by
      have hunit : (10 : ℚ) ^ e * (10 : ℚ) ^ n = 1 := by
        rw [← zpow_natCast, ← zpow_add₀ (by norm_num), show e + (n : ℤ) = 0 by omega, zpow_zero]
      have : (d : ℚ) = c * 10 ^ n := by rw [← hc, mul_assoc, hunit, mul_one]
      exact_mod_cast this
    have hdvd : (10 : ℤ) ^ n ∣ d := ⟨c, by rw [hdigit]; ring⟩
    rw [hn, Int.toNat_natCast, if_neg (by rw [not_not]; exact Int.tmod_eq_zero_of_dvd hdvd), hdigit,
      Int.mul_tdiv_cancel _ (by positivity)]
    exact checkedI128_of_lt (by omega) hsum

variable {err : NumericDecodeError}

lemma placeDigit_error {digit exp : ℤ}
    (h : placeDigit digit exp r = .error err) : err = .outOfRange := by
  have hchecked : ∀ v, checkedI128 v = .error err → err = .outOfRange := by
    intro v hv
    rw [checkedI128] at hv
    split_ifs at hv
    exact (Except.error.inj hv).symm
  rw [placeDigit] at h
  split_ifs at h
  · split at h
    · exact (Except.error.inj h).symm
    · next power _ =>
        cases hmul : checkedI128 (digit * power) with
        | error err' =>
          rw [hmul] at h
          exact hchecked (digit * power) (hmul.trans (congrArg _ (Except.error.inj h)))
        | ok scaled =>
          rw [hmul] at h
          exact hchecked _ h
  · exact (Except.error.inj h).symm
  · dsimp only at h
    split_ifs at h
    · exact (Except.error.inj h).symm
    · exact hchecked _ h

/-! ### All digits -/

/-- The loop over the digits, the first of them at `10 ^ e`. -/
def placeDigits : List ℕ → ℤ → ℤ → Except NumericDecodeError ℤ
  | [], _, r => .ok r
  | d :: ds, e, r => (placeDigit d (wrapI32 e) r).bind (placeDigits ds (e - decDigits))

/-- The exponents of the digits are so small in size that they wrap around at most far below
the point. -/
structure Places (ds : List ℕ) (e : ℤ) : Prop where
  lo : -2 ^ 31 - 2 ^ 20 ≤ e - decDigits * ds.length
  hi : e < 2 ^ 20

variable {ds : List ℕ}

lemma Places.tail {d : ℕ} (h : Places (d :: ds) e) : Places ds (e - decDigits) := by
  obtain ⟨hlo, hhi⟩ := h
  rw [List.length_cons] at hlo
  push_cast at hlo
  exact ⟨by linarith, by simp only [decDigits] at *; omega⟩

lemma Places.head {d : ℕ} (h : Places (d :: ds) e) : -2 ^ 31 - 2 ^ 20 ≤ e := by
  have := h.lo
  simp only [decDigits] at this
  omega

/-- **The loop adds up the digits.** -/
lemma placeDigits_sound {r' : ℤ} (hp : Places ds e)
    (h : placeDigits ds e r = .ok r') : (r' : ℚ) = r + placeSum 10 decDigits ds e := by
  induction ds generalizing e r with
  | nil =>
    obtain rfl := Except.ok.inj h
    rw [placeSum, add_zero]
  | cons d ds ih =>
    rw [placeDigits] at h
    cases hd : placeDigit d (wrapI32 e) r with
    | error err =>
      rw [hd] at h
      cases h
    | ok r₁ =>
      rw [hd] at h
      rw [ih hp.tail h, placeDigit_sound hp.head hp.hi hd, placeSum, add_assoc]
      rfl

/-- **The loop succeeds if the digits add up to an integer** that is not too large. -/
lemma placeDigits_complete {z : ℤ} (hp : Places ds e)
    (hds : ∀ d ∈ ds, d < 10 ^ decDigits) (hz : placeSum 10 decDigits ds e = z) (hr : 0 ≤ r)
    (hsum : r + z < 10 ^ 38) : placeDigits ds e r = .ok (r + z) := by
  induction ds generalizing e r z with
  | nil =>
    rw [placeSum] at hz
    obtain rfl : z = 0 := by exact_mod_cast hz.symm
    rw [placeDigits, add_zero]
  | cons d ds ih =>
    obtain ⟨hd, hds⟩ := List.forall_mem_cons.mp hds
    obtain ⟨c, z', hc, hz', rfl⟩ := isInt_of_placeSum (by norm_num) hds hz
    have hc0 : 0 ≤ c := by
      have : (0 : ℚ) ≤ c := by rw [← hc]; positivity
      exact_mod_cast this
    have hz0 : 0 ≤ z' := by
      have : (0 : ℚ) ≤ z' := by rw [← hz']; exact placeSum_nonneg _ _
      exact_mod_cast this
    rw [placeDigits, placeDigit_complete hp.head hp.hi hd hc hr (by omega)]
    show placeDigits ds (e - decDigits) (r + c) = _
    rw [ih hp.tail hds hz' (by omega) (by omega), add_assoc]

lemma placeDigits_error
    (h : placeDigits ds e r = .error err) : err = .outOfRange := by
  induction ds generalizing e r with
  | nil => cases h
  | cons d ds ih =>
    rw [placeDigits] at h
    cases hd : placeDigit d (wrapI32 e) r with
    | error err' =>
      rw [hd] at h
      obtain rfl := Except.error.inj h
      exact placeDigit_error hd
    | ok r₁ =>
      rw [hd] at h
      exact ih h

/-- The loop as the source counts it. -/
lemma foldlM_placeDigit (digitAt : ℕ → ℤ) {i : ℕ}
    (hdigits : ∀ j (hj : j < ds.length), digitAt (i + j) = ds[j]) (weight scale r : ℤ) :
    (List.range' i ds.length).foldlM (fun result i =>
        placeDigit (digitAt i) (wrapI32 (decDigits * (weight - (i : ℕ)) + scale)) result) r =
      placeDigits ds (decDigits * (weight - i) + scale) r := by
  induction ds generalizing i r with
  | nil => rfl
  | cons d ds ih =>
    have hd : digitAt i = d := hdigits 0 (Nat.zero_lt_succ _)
    have hds : ∀ j (hj : j < ds.length), digitAt (i + 1 + j) = ds[j] := by
      intro j hj
      rw [Nat.add_assoc, Nat.add_comm 1 j]
      exact hdigits (j + 1) (Nat.succ_lt_succ hj)
    have hexp : (decDigits : ℤ) * (weight - (i + 1 : ℕ)) + scale =
        decDigits * (weight - i) + scale - decDigits := by
      push_cast
      ring
    rw [List.length_cons, List.range'_succ, List.foldlM_cons, placeDigits, hd]
    congr 1
    funext r₁
    rw [ih hds r₁, hexp]

/-! ### The words of a layout -/

lemma length_word (n : ℕ) : (word n).length = 2 := rfl

lemma u16At_word {n : ℕ} (hn : n < 2 ^ 16) (rest : List UInt8) : u16At (word n ++ rest) 0 = n := by
  have hlo : (UInt8.ofNat (n % 256)).toNat = n % 256 := by
    rw [UInt8.toNat_ofNat']
    omega
  have hhi : (UInt8.ofNat (n / 256 % 256)).toNat = n / 256 % 256 := by
    rw [UInt8.toNat_ofNat']
    omega
  show (UInt8.ofNat (n % 256)).toNat + 256 * (UInt8.ofNat (n / 256 % 256)).toNat = n
  rw [hlo, hhi]
  omega

lemma u16At_append (pre rest : List UInt8) (off : ℕ) :
    u16At (pre ++ rest) (pre.length + off) = u16At rest off := by
  have hget : ∀ off, (pre ++ rest).getD (pre.length + off) 0 = rest.getD off 0 := fun off => by
    rw [List.getD_eq_getElem?_getD, List.getD_eq_getElem?_getD,
      List.getElem?_append_right (Nat.le_add_right _ _), Nat.add_sub_cancel_left]
  rw [u16At, u16At, hget, Nat.add_assoc, hget]

lemma u16At_flatMap_word (hds : ∀ d ∈ ds, d < 2 ^ 16) (j : ℕ) (hj : j < ds.length) :
    u16At (ds.flatMap word) (j * numericDigitBytes) = ds[j] := by
  induction ds generalizing j with
  | nil => cases hj
  | cons d ds ih =>
    obtain ⟨hd, hds⟩ := List.forall_mem_cons.mp hds
    rw [List.flatMap_cons]
    cases j with
    | zero =>
      rw [Nat.zero_mul]
      exact u16At_word hd _
    | succ j =>
      have hoff : (j + 1) * numericDigitBytes = (word d).length + j * numericDigitBytes := by
        rw [length_word, numericDigitBytes]
        ring
      rw [hoff, u16At_append]
      exact ih hds j (Nat.lt_of_succ_lt_succ hj)

/-- The bits under a mask of `j` ones from the bit `k` on. -/
lemma and_mask (n k j : ℕ) : n &&& ((2 ^ j - 1) <<< k) = (n / 2 ^ k % 2 ^ j) <<< k := by
  refine Nat.eq_of_testBit_eq fun i => ?_
  rw [Nat.testBit_and, Nat.testBit_shiftLeft, Nat.testBit_shiftLeft, Nat.testBit_two_pow_sub_one,
    Nat.testBit_mod_two_pow, Nat.testBit_div_two_pow]
  by_cases hik : k ≤ i
  · simp [hik, Bool.and_comm]
  · simp [hik]

lemma and_signMask (n : ℕ) : n &&& numericSignMask = n / 2 ^ 14 % 4 * 2 ^ 14 := by
  rw [← Nat.shiftLeft_eq]
  exact and_mask n 14 2

lemma and_short (n : ℕ) : n &&& numericShort = n / 2 ^ 15 % 2 * 2 ^ 15 := by
  rw [← Nat.shiftLeft_eq]
  exact and_mask n 15 1

lemma and_shortSignMask (n : ℕ) : n &&& numericShortSignMask = n / 2 ^ 13 % 2 * 2 ^ 13 := by
  rw [← Nat.shiftLeft_eq]
  exact and_mask n 13 1

/-- The weight of a short layout is the sign extension of the seven lowest bits. -/
lemma shortWeight_eq (n : ℕ) (weight : ℤ) (hlo : -64 ≤ weight) (hhi : weight < 64)
    (hn : (n % 128 : ℕ) = weight % 128) : shortWeight n = weight := by
  have hlow : n &&& numericShortWeightMask = n % 64 := by
    have := and_mask n 0 6
    rwa [Nat.shiftLeft_zero, Nat.shiftLeft_zero, pow_zero, Nat.div_one] at this
  have hsign : n &&& numericShortWeightSignMask = n / 64 % 2 * 64 := by
    rw [show (64 : ℕ) = 2 ^ 6 by rfl, ← Nat.shiftLeft_eq]
    exact and_mask n 6 1
  have hraw : ∀ raw < 64, (Int32.ofNat raw).toInt = raw ∧
      (Int32.ofNat raw ||| ~~~ Int32.ofNat numericShortWeightMask).toInt = raw - 64 := by decide
  obtain ⟨hpos, hneg⟩ := hraw (n % 64) (Nat.mod_lt _ (by norm_num))
  rw [shortWeight, hlow, hsign]
  by_cases h : n / 64 % 2 * 64 ≠ 0
  · rw [if_pos h, hneg]
    omega
  · rw [if_neg h, hpos]
    omega

/-! ### The value -/

/-- The digits with their weights are the digits at their decimal places. -/
lemma sum_zipIdx (ds : List ℕ) (weight : ℤ) (i : ℕ) :
    ((ds.zipIdx i).map fun d => (d.1 : ℚ) * 10000 ^ (weight - (d.2 : ℤ))).sum =
      placeSum 10 decDigits ds (decDigits * (weight - i)) := by
  induction ds generalizing i with
  | nil => rfl
  | cons d ds ih =>
    have hplace : (10000 : ℚ) ^ (weight - (i : ℤ)) =
      ((10 : ℕ) : ℚ) ^ (decDigits * (weight - i : ℤ)) := by
      rw [zpow_mul]
      norm_num [decDigits]
    have hnext : (decDigits : ℤ) * (weight - (i + 1 : ℕ)) = decDigits * (weight - i)
      - decDigits := by
      push_cast
      ring
    rw [List.zipIdx_cons, List.map_cons, List.sum_cons, ih, placeSum, hplace, hnext]

/-- The value of a number in units of a scale. -/
lemma Finite.value_mul (n : Finite) (scale : ℤ) : n.value * 10 ^ scale =
    (if n.negative then -1 else 1) * placeSum 10 decDigits n.digits (decDigits * n.weight +
      scale) := by
  have hsum := sum_zipIdx n.digits n.weight 0
  have hmul := placeSum_mul (b := 10) (k :=
    decDigits) (by norm_num) n.digits (decDigits * n.weight) scale
  rw [Nat.cast_zero, sub_zero] at hsum
  rw [Finite.value, hsum, mul_assoc, ← hmul]
  norm_num

/-! ### The decoder on the layouts -/

/-- What the decoder makes of a number whose parts it has found. -/
def Finite.decode (n : Finite) (scale : Int8) (precision : UInt8) : Except NumericDecodeError ℤ :=
  (placeDigits n.digits (decDigits * n.weight + scale.toInt) 0).bind fun r =>
    if 10 ^ precision.toNat ≤ r then .error .outOfRange else .ok (if n.negative then -r else r)

variable {precision : UInt8}

/-- The decoder finds the parts of a number. -/
lemma decode_of_parts {bytes : List UInt8} {nHeader headerSize : ℕ} (n : Finite) (scale : Int8)
    (hp : precision.toNat ≤ 38) (hheader : u16At bytes varhdrsz = nHeader)
    (hspecial : nHeader &&& numericSignMask ≠ numericSpecial)
    (hsize : headerSize = if nHeader &&& numericShort ≠ 0 then varhdrsz + 2 else varhdrsz + 4)
    (hlen : bytes.length = headerSize + n.digits.length * numericDigitBytes)
    (hweight : (if nHeader &&& numericShort ≠ 0 then shortWeight nHeader
      else i16At bytes (varhdrsz + 2)) = n.weight)
    (hneg : (if nHeader &&& numericShort ≠ 0 then nHeader &&& numericShortSignMask ≠ 0
      else nHeader &&& numericSignMask = numericNeg) ↔ n.negative = true)
    (hdigits : ∀ j (hj : j < n.digits.length),
      i16At bytes (headerSize + j * numericDigitBytes) = n.digits[j]) :
    numericToDecimal128 bytes scale precision = n.decode scale precision := by
  have hmin : varhdrsz + 2 ≤ headerSize := by
    rw [hsize]
    split_ifs <;> omega
  have hcount : (bytes.length - headerSize) / numericDigitBytes = n.digits.length := by
    rw [hlen, Nat.add_sub_cancel_left, Nat.mul_div_cancel _ (by decide)]
  have hparts : ∀ j (hj : j < n.digits.length),
      i16At bytes (headerSize + (0 + j) * numericDigitBytes) = n.digits[j] := fun j hj => by
    rw [Nat.zero_add]
    exact hdigits j hj
  have hloop := foldlM_placeDigit (fun i => i16At bytes (headerSize + i * numericDigitBytes)) hparts
    n.weight scale.toInt 0
  rw [← List.range_eq_range', Nat.cast_zero, sub_zero] at hloop
  have hlimit : pow10I128 (precision.toNat : ℤ) = some (10 ^ precision.toNat) :=
    pow10I128_eq_some.mpr ⟨Int.natCast_nonneg _, by omega, by rw [Int.toNat_natCast]⟩
  simp only [numericToDecimal128, hheader, ← hsize, hweight, hcount, hloop, hlimit]
  rw [if_neg (by omega), if_neg hspecial, if_neg (by omega), Finite.decode]
  by_cases hnil : n.digits.length = 0
  · -- zero, for which the source does not look at the precision
    rw [if_pos hnil, List.length_eq_zero_iff.mp hnil, placeDigits]
    have hpos : ¬ (10 : ℤ) ^ precision.toNat ≤ 0 := not_le.mpr (by positivity)
    simp [Except.bind, hpos]
  · rw [if_neg hnil]
    simp only [hneg]
    rfl

/-- The digits stand behind the words before them. -/
lemma i16At_digits (pre : List UInt8) (hds : ∀ d ∈ ds, d < 10 ^ decDigits) (j : ℕ)
    (hj : j < ds.length) :
    i16At (pre ++ ds.flatMap word) (pre.length + j * numericDigitBytes) = ds[j] := by
  simp only [decDigits] at hds
  have hlt : ds[j] < 10 ^ 4 := hds _ (List.getElem_mem hj)
  have hwords : ∀ d ∈ ds, d < 2 ^ 16 := fun d hd => by
    have := hds d hd
    omega
  rw [i16At, u16At_append, u16At_flatMap_word hwords j hj, if_pos (by omega)]

lemma length_flatMap_word (ds : List ℕ) :
    (ds.flatMap word).length = ds.length * numericDigitBytes := by
  induction ds with
  | nil => rfl
  | cons d ds ih =>
    rw [List.flatMap_cons, List.length_append, ih, length_word, List.length_cons, numericDigitBytes]
    ring

/-- **The decoder on a finite number.** -/
lemma decode_finite {header : List UInt8} (hheader : header.length = varhdrsz) (n : Finite)
    (scale : Int8) (hp : precision.toNat ≤ 38) :
    numericToDecimal128 (header ++ (n.head ++ n.digits.flatMap word)) scale precision =
      n.decode scale precision := by
  have hdscale := n.dscale_lt
  have hlo := n.weight_ge
  have hhi := n.weight_lt
  have hdigits := i16At_digits (header ++ n.head) n.digits_lt
  rw [List.append_assoc, List.length_append, hheader] at hdigits
  have hlen : (header ++ (n.head ++ n.digits.flatMap word)).length =
      varhdrsz + n.head.length + n.digits.length * numericDigitBytes := by
    rw [List.length_append, List.length_append, length_flatMap_word, hheader, Nat.add_assoc]
  cases hl : n.layout with
  | short =>
    rw [hl] at hdscale hlo hhi
    simp only [Layout.dscales, Layout.weights] at hdscale hlo hhi
    obtain ⟨w, hw⟩ : ∃ w, w = 0x8000 + (if n.negative then 0x2000 else 0) + 0x80 * n.dscale +
      (n.weight % 0x80).toNat := ⟨_, rfl⟩
    have hhead : n.head = word w := by rw [Finite.head, hl, hw]
    have hbits : n.negative = true ∧ 0xA000 ≤ w ∧ w < 0xC000 ∨
        n.negative = false ∧ 0x8000 ≤ w ∧ w < 0xA000 := by
      cases hn : n.negative with
      | true =>
        rw [hn, if_pos rfl] at hw
        exact Or.inl ⟨rfl, by omega, by omega⟩
      | false =>
        rw [hn, if_neg Bool.false_ne_true] at hw
        exact Or.inr ⟨rfl, by omega, by omega⟩
    have hmod : ((w % 128 : ℕ) : ℤ) = n.weight % 128 := by
      split_ifs at hw <;> omega
    have hu : u16At (header ++ (word w ++ n.digits.flatMap word)) varhdrsz = w := by
      have := u16At_append header (word w ++ n.digits.flatMap word) 0
      rwa [hheader, Nat.add_zero, u16At_word (by omega)] at this
    rw [hhead] at hdigits hlen ⊢
    have hisShort : w &&& numericShort ≠ 0 := by rw [and_short]; omega
    refine decode_of_parts n scale hp hu ?_ (if_pos hisShort).symm hlen ?_ ?_ hdigits
    · rw [and_signMask, numericSpecial]
      omega
    · rw [if_pos hisShort]
      exact shortWeight_eq w n.weight (by omega) (by omega) hmod
    · rw [if_pos hisShort, and_shortSignMask]
      rcases hbits with ⟨hn, hb⟩ | ⟨hn, hb⟩
      · simp only [hn, iff_true]
        omega
      · simp only [hn, Bool.false_eq_true, iff_false]
        omega
  | long =>
    rw [hl] at hdscale hlo hhi
    simp only [Layout.dscales, Layout.weights] at hdscale hlo hhi
    obtain ⟨w, hw⟩ : ∃ w, w = (if n.negative then 0x4000 else 0) + n.dscale := ⟨_, rfl⟩
    obtain ⟨wt, hwt⟩ : ∃ wt, wt = (n.weight % 0x10000).toNat := ⟨_, rfl⟩
    have hhead : n.head = word w ++ word wt := by rw [Finite.head, hl, hw, hwt]
    have hbits : n.negative = true ∧ 0x4000 ≤ w ∧ w < 0x8000 ∨ n.negative = false ∧ w < 0x4000 := by
      cases hn : n.negative with
      | true =>
        rw [hn, if_pos rfl] at hw
        exact Or.inl ⟨rfl, by omega, by omega⟩
      | false =>
        rw [hn, if_neg Bool.false_ne_true] at hw
        exact Or.inr ⟨rfl, by omega⟩
    have hu : u16At (header ++ (word w ++ word wt ++ n.digits.flatMap word)) varhdrsz = w := by
      have := u16At_append header (word w ++ (word wt ++ n.digits.flatMap word)) 0
      rwa [hheader, Nat.add_zero, u16At_word (by omega), ← List.append_assoc (word w)] at this
    have hweight : u16At (header ++ (word w ++ word wt ++ n.digits.flatMap word)) (varhdrsz + 2) =
        wt := by
      have := u16At_append (header ++ word w) (word wt ++ n.digits.flatMap word) 0
      rwa [List.length_append, hheader, Nat.add_zero, u16At_word (by omega), List.append_assoc,
        ← List.append_assoc (word w)] at this
    rw [hhead] at hdigits hlen ⊢
    have hisShort : ¬ w &&& numericShort ≠ 0 := by rw [and_short]; omega
    refine decode_of_parts n scale hp hu ?_ (if_neg hisShort).symm hlen ?_ ?_ hdigits
    · rw [and_signMask, numericSpecial]
      omega
    · rw [if_neg hisShort, i16At, hweight]
      split_ifs <;> omega
    · rw [if_neg hisShort, and_signMask, numericNeg]
      rcases hbits with ⟨hn, hb⟩ | ⟨hn, hb⟩
      · simp only [hn, iff_true]
        omega
      · simp only [hn, Bool.false_eq_true, iff_false]
        omega

/-- The decoder on what is not a number or infinite. -/
lemma decode_special {header rest : List UInt8} (hheader : header.length = varhdrsz) {flags : ℕ}
    (hflags : flags < 0x4000) (scale : Int8) (precision : UInt8) :
    numericToDecimal128 (header ++ (word (0xC000 + flags) ++ rest)) scale precision =
      .error .special := by
  have hu : u16At (header ++ (word (0xC000 + flags) ++ rest)) varhdrsz = 0xC000 + flags := by
    have := u16At_append header (word (0xC000 + flags) ++ rest) 0
    rwa [hheader, Nat.add_zero, u16At_word (by omega)] at this
  have hlen : ¬ (header ++ (word (0xC000 + flags) ++ rest)).length < varhdrsz + 2 := by
    rw [List.length_append, List.length_append, length_word, hheader]
    omega
  simp only [numericToDecimal128, if_neg hlen, hu]
  rw [if_pos]
  rw [and_signMask, numericSpecial]
  omega

/-- The exponents of the digits of a stored number. -/
lemma NumericVarlena.places (v : NumericVarlena) {n : Finite} (hn : v.stored = .finite n)
    (scale : Int8) :
    Places n.digits (decDigits * n.weight + scale.toInt) := by
  have hsize := v.size_lt
  rw [hn, Stored.bytes, List.length_append, List.length_append, length_flatMap_word,
    numericDigitBytes] at hsize
  have hlo := n.weight_ge
  have hhi := n.weight_lt
  have hbound : n.layout.weights ≤ 0x8000 := by cases n.layout <;> decide
  have hscale := scale.toInt_lt
  have hscale' := scale.le_toInt
  constructor
  · simp only [decDigits]
    push_cast
    omega
  · simp only [decDigits]
    omega

/-- **The result of the decoder is the value in units of the scale.** -/
lemma Finite.decode_eq_ok {n : Finite} {scale : Int8} {u : ℤ}
    (hplaces : Places n.digits (decDigits * n.weight + scale.toInt))
    (h : n.decode scale precision = .ok u) :
    n.value * 10 ^ scale.toInt = u ∧ |u| < 10 ^ precision.toNat := by
  rw [Finite.decode] at h
  cases hloop : placeDigits n.digits (decDigits * n.weight + scale.toInt) 0 with
  | error err =>
    rw [hloop] at h
    cases h
  | ok r =>
    rw [hloop] at h
    have hr := placeDigits_sound hplaces hloop
    rw [Int.cast_zero, zero_add] at hr
    have hr0 : 0 ≤ r := by
      have : (0 : ℚ) ≤ r := by rw [hr]; exact placeSum_nonneg _ _
      exact_mod_cast this
    by_cases hlimit : 10 ^ precision.toNat ≤ r
    · exact absurd h (by simp [Except.bind, hlimit])
    · have hu : (if n.negative then -r else r) = u := by simpa [Except.bind, hlimit] using h
      rw [n.value_mul, ← hr, ← hu]
      cases n.negative with
      | false => simpa [abs_of_nonneg hr0] using hlimit
      | true => simpa [abs_of_nonneg hr0] using hlimit

/-- **A value that is an integer in units of the scale is decoded.** -/
lemma Finite.decode_complete {n : Finite} {scale : Int8} {u : ℤ}
    (hp : precision.toNat ≤ 38) (hplaces : Places n.digits (decDigits * n.weight + scale.toInt))
    (hu : n.value * 10 ^ scale.toInt = u) (hlt : |u| < 10 ^ precision.toNat) :
    n.decode scale precision = .ok u := by
  have hsum : placeSum 10 decDigits n.digits (decDigits * n.weight + scale.toInt) =
      ((if n.negative then -u else u : ℤ) : ℚ) := by
    rw [n.value_mul] at hu
    cases hn : n.negative with
    | false => simpa [hn] using hu
    | true =>
      rw [hn, if_pos rfl] at hu
      rw [if_pos rfl]
      push_cast
      linarith
  have hnonneg : 0 ≤ (if n.negative then -u else u) := by
    have : (0 : ℚ) ≤ ((if n.negative then -u else u : ℤ) : ℚ) := by
      rw [← hsum]
      exact placeSum_nonneg _ _
    exact_mod_cast this
  have habs : (if n.negative then -u else u) = |u| := by
    rw [← abs_of_nonneg hnonneg]
    split_ifs
    · exact abs_neg u
    · rfl
  have hpow : (10 : ℤ) ^ precision.toNat ≤ 10 ^ 38 := pow_le_pow_right₀ (by norm_num) hp
  rw [Finite.decode, placeDigits_complete hplaces n.digits_lt hsum le_rfl (by rw [habs]; omega)]
  show (if 10 ^ precision.toNat ≤ 0 + (if n.negative then -u else u) then _ else _) = _
  rw [if_neg (by rw [habs]; omega), zero_add]
  cases n.negative <;> simp

lemma Finite.decode_error {n : Finite} {scale : Int8}
    (h : n.decode scale precision = .error err) : err = .outOfRange := by
  rw [Finite.decode] at h
  cases hloop : placeDigits n.digits (decDigits * n.weight + scale.toInt) 0 with
  | error err' =>
    rw [hloop] at h
    obtain rfl := Except.error.inj h
    exact placeDigits_error hloop
  | ok r =>
    rw [hloop] at h
    by_cases hlimit : 10 ^ precision.toNat ≤ r
    · simpa [Except.bind, hlimit] using h.symm
    · exact absurd h (by simp [Except.bind, hlimit])

/-- What is decoded are the finite numbers that are integers of few enough digits in units of the
scale. -/
lemma numericToDecimal128_eq_ok (v : NumericVarlena) (scale : Int8)
    (hp : precision.toNat ≤ 38) (u : ℤ) :
    numericToDecimal128 v.bytes scale precision = .ok u ↔
      ∃ x, v.value = some x ∧ x * 10 ^ scale.toInt = u ∧ |u| < 10 ^ precision.toNat := by
  cases hs : v.stored with
  | special flags rest hflags =>
    have hvalue : v.value = none := by rw [NumericVarlena.value, hs]
    rw [NumericVarlena.bytes, hs, Stored.bytes, decode_special v.header_len hflags, hvalue]
    simp
  | finite n =>
    have hvalue : v.value = some n.value := by rw [NumericVarlena.value, hs]
    have hplaces := v.places hs scale
    rw [NumericVarlena.bytes, hs, Stored.bytes, decode_finite v.header_len n scale hp, hvalue]
    simp only [Option.some.injEq, exists_eq_left']
    exact ⟨Finite.decode_eq_ok hplaces, fun hu => Finite.decode_complete hp hplaces hu.1 hu.2⟩

/-- **Decoding is exact.** For every scale and every precision up to 38, the decoder returns `u` for
a stored number exactly if the number is finite, `u` is its value in units of the scale, and `u` has
no more digits than the precision. Other finite numbers are out of range, and what is not finite is
special. -/
theorem numeric_decoding_exact (v : NumericVarlena) (scale : Int8) (precision : UInt8)
    (hp : precision.toNat ≤ 38) :
    (∀ u : ℤ, numericToDecimal128 v.bytes scale precision = .ok u ↔
      ∃ x, v.value = some x ∧ x * 10 ^ scale.toInt = u ∧ |u| < 10 ^ precision.toNat) ∧
    (numericToDecimal128 v.bytes scale precision = .error .outOfRange ↔
      ∃ x, v.value = some x ∧ ¬ ∃ u : ℤ, x * 10 ^ scale.toInt = u ∧ |u| < 10 ^ precision.toNat) ∧
    (numericToDecimal128 v.bytes scale precision = .error .special ↔ v.value = none) := by
  have hok := numericToDecimal128_eq_ok v scale hp
  refine ⟨hok, ?_⟩
  cases hs : v.stored with
  | special flags rest hflags =>
    have hvalue : v.value = none := by rw [NumericVarlena.value, hs]
    have hdecode : numericToDecimal128 v.bytes scale precision = .error .special := by
      rw [NumericVarlena.bytes, hs]
      exact decode_special v.header_len hflags scale precision
    simp [hvalue, hdecode]
  | finite n =>
    have hvalue : v.value = some n.value := by rw [NumericVarlena.value, hs]
    have herror : ∀ err, numericToDecimal128 v.bytes scale precision = .error err →
        err = .outOfRange := by
      intro err h
      rw [NumericVarlena.bytes, hs, Stored.bytes, decode_finite v.header_len n scale hp] at h
      exact Finite.decode_error h
    simp only [hvalue, Option.some.injEq, exists_eq_left', reduceCtorEq, iff_false] at hok ⊢
    refine ⟨⟨fun h hu => ?_, fun h => ?_⟩, fun h => nomatch herror _ h⟩
    · obtain ⟨u, hu⟩ := hu
      rw [(hok u).mpr hu] at h
      cases h
    · cases hr : numericToDecimal128 v.bytes scale precision with
      | ok u => exact absurd ⟨u, (hok u).mp hr⟩ h
      | error err => rw [herror err hr]

/-- The number 12.34 with a digit behind the point, at the scale 2. -/
theorem numeric_decoding_twelve :
    ∃ v : NumericVarlena, v.value = some (1234 / 100) ∧ (38 : UInt8).toNat ≤ 38 ∧
      ∀ u : ℤ, numericToDecimal128 v.bytes 2 38 = .ok u ↔
        ∃ x, v.value = some x ∧ x * 10 ^ (2 : Int8).toInt = u ∧ |u| < 10 ^ (38 : UInt8).toNat :=
  ⟨⟨[40, 0, 0, 0],
    .finite ⟨.short, false, 2, 0, [12, 3400], by decide, by decide, by decide, by decide⟩,
      rfl, by decide⟩, by norm_num [NumericVarlena.value, Finite.value], by decide,
    (numeric_decoding_exact _ 2 38 (by decide)).1⟩

end PgFusion.Numeric

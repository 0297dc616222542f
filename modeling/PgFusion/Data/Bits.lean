import PgFusion.Data.Bytes

/-!
Blocks of bytes, bit by bit: bit `p` of a block is bit `p % 8` of its byte `p / 8`. What a write may
change is then a set of bits, for bitmaps, slots and records alike.
-/

namespace PgFusion.Bytes

/-! ### Bits of a byte -/

/-- One bit of a byte. -/
def bitOf (byte : UInt8) (bit : ℕ) : Bool := (byte &&& (1 <<< UInt8.ofNat bit)) != 0

/-- A byte with one bit set or cleared. -/
def withBit (byte : UInt8) (bit : ℕ) (value : Bool) : UInt8 :=
  if value then byte ||| (1 <<< UInt8.ofNat bit) else byte &&& ~~~(1 <<< UInt8.ofNat bit)

lemma toBitVec_bit {j : ℕ} (hj : j < 8) :
    ((1 : UInt8) <<< UInt8.ofNat j).toBitVec = BitVec.twoPow 8 j := by
  interval_cases j <;> rfl

lemma bitOf_eq_getLsbD {byte : UInt8} {j : ℕ} (hj : j < 8) :
    bitOf byte j = byte.toBitVec.getLsbD j := by
  have hpow : BitVec.twoPow 8 j ≠ 0#8 := by
    interval_cases j <;> decide
  have hand : (byte &&& (1 <<< UInt8.ofNat j)).toBitVec =
      if byte.toBitVec.getLsbD j then BitVec.twoPow 8 j else 0#8 := by
    rw [UInt8.toBitVec_and, toBitVec_bit hj, BitVec.and_twoPow]
  cases hbit : byte.toBitVec.getLsbD j with
  | false =>
    rw [hbit, if_neg Bool.false_ne_true] at hand
    have hzero : byte &&& (1 <<< UInt8.ofNat j) = 0 := UInt8.toBitVec_inj.mp hand
    rw [bitOf, hzero]
    rfl
  | true =>
    rw [hbit, if_pos rfl] at hand
    rw [bitOf, bne_iff_ne]
    intro hzero
    rw [hzero] at hand
    exact hpow hand.symm

/-- Setting or clearing a bit changes that bit only. -/
lemma bitOf_withBit (byte : UInt8) {i j : ℕ} (hi : i < 8) (hj : j < 8) (v : Bool) :
    bitOf (withBit byte i v) j = if j = i then v else bitOf byte j := by
  have htwo : (BitVec.twoPow 8 i).getLsbD j = decide (j = i) := by
    rw [BitVec.getLsbD_twoPow, decide_eq_true hi, Bool.true_and]
    exact decide_eq_decide.mpr eq_comm
  rw [bitOf_eq_getLsbD hj, bitOf_eq_getLsbD hj, withBit]
  cases v with
  | true =>
    rw [if_pos rfl, UInt8.toBitVec_or, toBitVec_bit hi, BitVec.getLsbD_or, htwo]
    by_cases h : j = i
    · simp [h]
    · simp [h]
  | false =>
    rw [if_neg Bool.false_ne_true, UInt8.toBitVec_and, UInt8.toBitVec_not, toBitVec_bit hi,
      BitVec.getLsbD_and, BitVec.getLsbD_not, htwo, decide_eq_true hj]
    by_cases h : j = i
    · simp [h]
    · simp [h]

/-- A byte is given by its bits. -/
lemma eq_of_bitOf {x y : UInt8} (h : ∀ j < 8, bitOf x j = bitOf y j) : x = y := by
  refine UInt8.toBitVec_inj.mp (BitVec.eq_of_getLsbD_eq fun j hj => ?_)
  rw [← bitOf_eq_getLsbD hj, ← bitOf_eq_getLsbD hj]
  exact h j hj

/-! ### Bits of a block -/

/-- One bit of a block. -/
def bitAt (b : List UInt8) (p : ℕ) : Option Bool := (b[p / 8]?).map fun byte => bitOf byte (p % 8)

/-- The block with one bit set or cleared. -/
def setBit (b : List UInt8) (p : ℕ) (v : Bool) : List UInt8 := b.modify (p / 8) fun byte =>
  withBit byte (p % 8) v

@[simp] lemma length_setBit (b : List UInt8) (p : ℕ) (v : Bool) :
    (setBit b p v).length = b.length :=
  List.length_modify _ _ _

/-- What each bit becomes. -/
lemma bitAt_setBit {b : List UInt8} {p : ℕ} (v : Bool) (hp : p / 8 < b.length) (q : ℕ) :
    bitAt (setBit b p v) q = if q = p then some v else bitAt b q := by
  rw [bitAt, setBit, List.getElem?_modify]
  by_cases hbyte : p / 8 = q / 8
  · have hq : q / 8 < b.length := hbyte ▸ hp
    simp only [bitAt, List.getElem?_eq_getElem hq, if_pos hbyte, Option.map_eq_map, Option.map_some]
    rw [bitOf_withBit _ (Nat.mod_lt _ (by norm_num)) (Nat.mod_lt _ (by norm_num))]
    by_cases hqp : q = p
    · rw [if_pos hqp, if_pos (by rw [hqp])]
    · rw [if_neg hqp, if_neg (by omega)]
  · rw [if_neg (by rintro rfl; exact hbyte rfl), bitAt]
    simp only [if_neg hbyte, Option.map_eq_map, Option.map_id']

lemma bitAt_splice_of_apart {b data : List UInt8} {off : ℕ} (h : off + data.length ≤ b.length)
    {p : ℕ} (hp : p < 8 * off ∨ 8 * (off + data.length) ≤ p) :
    bitAt (splice b off data) p = bitAt b p := by
  rw [bitAt, getElem?_splice h, if_neg (by omega), ← bitAt]

/-! ### Blocks that agree off a set of bits -/

/-- The blocks have the same length and agree off `S`. -/
structure SameOff (S : Set ℕ) (b b' : List UInt8) : Prop where
  length : b'.length = b.length
  bit : ∀ p, p ∉ S → bitAt b' p = bitAt b p

namespace SameOff

variable {S T : Set ℕ} {b b' b'' : List UInt8}

lemma refl (S : Set ℕ) (b : List UInt8) : SameOff S b b := ⟨rfl, fun _ _ => rfl⟩

lemma mono (h : SameOff S b b') (hST : S ⊆ T) : SameOff T b b' :=
  ⟨h.length, fun p hp => h.bit p fun hS => hp (hST hS)⟩

lemma trans (h : SameOff S b b') (h' : SameOff S b' b'') : SameOff S b b'' :=
  ⟨h'.length.trans h.length, fun p hp => (h'.bit p hp).trans (h.bit p hp)⟩

/-- Bytes all of whose bits are off `S` are the same. -/
lemma getElem? (h : SameOff S b b') {a : ℕ} (ha : ∀ p, p / 8 = a → p ∉ S) : b'[a]? = b[a]? := by
  by_cases hlt : a < b.length
  · have hlt' : a < b'.length := by rw [h.length]; exact hlt
    rw [List.getElem?_eq_getElem hlt, List.getElem?_eq_getElem hlt', Option.some.injEq]
    refine eq_of_bitOf fun j hj => ?_
    have hdiv : (8 * a + j) / 8 = a := by omega
    have hmod : (8 * a + j) % 8 = j := by omega
    have hbit := h.bit (8 * a + j) (ha _ hdiv)
    rw [bitAt, bitAt, hdiv, hmod, List.getElem?_eq_getElem hlt,
      List.getElem?_eq_getElem hlt'] at hbit
    exact Option.some.inj hbit
  · rw [List.getElem?_eq_none (not_lt.mp hlt), List.getElem?_eq_none]
    rw [h.length]
    exact not_lt.mp hlt

/-- A slice all of whose bits are off `S` is the same. -/
lemma slice (h : SameOff S b b') {off len : ℕ}
    (hS : ∀ p, 8 * off ≤ p → p < 8 * (off + len) → p ∉ S) : slice b' off len = slice b off len := by
  refine slice_congr h.length fun k hk => h.getElem? fun p hp => hS p ?_ ?_
  · omega
  · omega

end SameOff

/-- Overwriting a range changes the bits of the range only. -/
lemma sameOff_splice {b data : List UInt8} {off : ℕ} (h : off + data.length ≤ b.length) :
    SameOff (Set.Ico (8 * off) (8 * (off + data.length))) b (splice b off data) := by
  refine ⟨length_splice h, fun p hp => bitAt_splice_of_apart h ?_⟩
  rw [Set.mem_Ico, not_and_or] at hp
  omega

/-- Setting a bit changes that bit only. -/
lemma sameOff_setBit {b : List UInt8} {p : ℕ} (v : Bool) (hp : p / 8 < b.length) :
    SameOff {p} b (setBit b p v) := by
  refine ⟨length_setBit b p v, fun q hq => ?_⟩
  rw [bitAt_setBit v hp, if_neg (by simpa using hq)]

end PgFusion.Bytes

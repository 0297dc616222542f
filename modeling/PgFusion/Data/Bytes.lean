import Mathlib.Tactic

/-!
Records, slices and regions of a block of bytes.
-/

namespace PgFusion.Bytes

/-! ### Numbers -/

/-- The `k` low bytes of `n`, the lowest first. -/
def leBytes : ℕ → ℕ → List UInt8
  | 0, _ => []
  | k + 1, n => UInt8.ofNat n :: leBytes k (n / 256)

/-- The number that bytes stand for, the lowest first. -/
def ofLe : List UInt8 → ℕ
  | [] => 0
  | c :: b => c.toNat + 256 * ofLe b

@[simp] lemma length_leBytes (k n : ℕ) : (leBytes k n).length = k := by
  induction k generalizing n with
  | zero => rfl
  | succ k ih => rw [leBytes, List.length_cons, ih]

/-- The number that the bytes of `n` stand for. -/
lemma ofLe_leBytes {k n : ℕ} (h : n < 256 ^ k) : ofLe (leBytes k n) = n := by
  induction k generalizing n with
  | zero =>
    rw [pow_zero] at h
    rw [leBytes, ofLe]
    omega
  | succ k ih =>
    have hq : n / 256 < 256 ^ k := by
      rw [Nat.div_lt_iff_lt_mul (by omega), ← pow_succ]
      exact h
    rw [leBytes, ofLe, ih hq, UInt8.toNat_ofNat']
    omega

lemma ofLe_lt (b : List UInt8) : ofLe b < 256 ^ b.length := by
  induction b with
  | nil => rw [ofLe, List.length_nil, pow_zero]; exact Nat.one_pos
  | cons c b ih =>
    have hc := c.toNat_lt
    rw [ofLe, List.length_cons, pow_succ]
    omega

/-! ### Fields -/

/-- The bytes of fields, each given by its width and its value. -/
def packFields (fs : List (ℕ × ℕ)) : List UInt8 := fs.flatMap fun f => leBytes f.1 f.2

/-- The values of fields of the given widths. -/
def unpackFields : List ℕ → List UInt8 → List ℕ
  | [], _ => []
  | w :: ws, b => ofLe (b.take w) :: unpackFields ws (b.drop w)

@[simp] lemma length_packFields (fs : List (ℕ × ℕ)) :
    (packFields fs).length = (fs.map Prod.fst).sum := by
  induction fs with
  | nil => rfl
  | cons f fs ih =>
    rw [packFields, List.flatMap_cons, List.length_append, length_leBytes, ← packFields, ih,
      List.map_cons, List.sum_cons]

/-- Fields that fit their widths are read back. -/
lemma unpackFields_packFields {fs : List (ℕ × ℕ)} (h : ∀ f ∈ fs, f.2 < 256 ^ f.1) :
    unpackFields (fs.map Prod.fst) (packFields fs) = fs.map Prod.snd := by
  induction fs with
  | nil => rfl
  | cons f fs ih =>
    have hf : ofLe (leBytes f.1 f.2) = f.2 := ofLe_leBytes (h f (by simp))
    have hlen : (leBytes f.1 f.2).length = f.1 := length_leBytes _ _
    have hpack : packFields (f :: fs) = leBytes f.1 f.2 ++ packFields fs := rfl
    rw [List.map_cons, unpackFields, hpack, List.take_left' hlen, List.drop_left' hlen, hf,
      ih fun g hg => h g (by simp [hg]), List.map_cons]

/-- A field that is read is below what its width allows. -/
lemma ofLe_take_lt (b : List UInt8) (w : ℕ) : ofLe (b.take w) < 256 ^ w :=
  calc ofLe (b.take w) < 256 ^ (b.take w).length := ofLe_lt _
    _ ≤ 256 ^ w := Nat.pow_le_pow_right (by omega) (List.length_take_le _ _)

/-! ### Slices -/

variable {α : Type}

/-- The bytes from `off` on, `len` of them, if the block has them. -/
def slice (b : List α) (off len : ℕ) : Option (List α) :=
  if off + len ≤ b.length then some ((b.drop off).take len) else none

/-- The block with the bytes from `off` on overwritten. -/
def splice (b : List α) (off : ℕ) (data : List α) : List α :=
  b.take off ++ data ++ b.drop (off + data.length)

variable {off len : ℕ}

lemma slice_of_le {b : List α} (h : off + len ≤ b.length) :
    slice b off len = some ((b.drop off).take len) := by
  rw [slice, if_pos h]

/-- A slice, byte by byte. -/
lemma slice_eq_some {b v : List α} :
    slice b off len = some v ↔
      off + len ≤ b.length ∧ v.length = len ∧ ∀ k < len, v[k]? = b[off + k]? := by
  rw [slice]
  constructor
  · intro h
    by_cases hle : off + len ≤ b.length
    · rw [if_pos hle, Option.some.injEq] at h
      refine ⟨hle, ?_, fun k hk => ?_⟩
      · rw [← h, List.length_take, List.length_drop]
        omega
      · rw [← h, List.getElem?_take, if_pos hk, List.getElem?_drop]
    · rw [if_neg hle] at h
      cases h
  · rintro ⟨hle, hlen, hv⟩
    rw [if_pos hle, Option.some.injEq]
    refine List.ext_getElem? fun k => ?_
    by_cases hk : k < len
    · rw [hv k hk, List.getElem?_take, if_pos hk, List.getElem?_drop]
    · rw [List.getElem?_eq_none (by rw [List.length_take]; omega),
        List.getElem?_eq_none (by omega)]

lemma length_splice {b data : List α} (h : off + data.length ≤ b.length) :
    (splice b off data).length = b.length := by
  rw [splice, List.length_append, List.length_append, List.length_take, List.length_drop]
  omega

/-- What each byte becomes. -/
lemma getElem?_splice {b data : List α} {off : ℕ} (h : off + data.length ≤ b.length) (a : ℕ) :
    (splice b off data)[a]? =
      if off ≤ a ∧ a < off + data.length then data[a - off]? else b[a]? := by
  have hoff : (b.take off).length = off := by
    rw [List.length_take]
    omega
  rw [splice, List.append_assoc]
  by_cases ha : a < off
  · rw [List.getElem?_append_left (by omega), List.getElem?_take, if_pos ha, if_neg (by omega)]
  rw [List.getElem?_append_right (by omega), hoff]
  by_cases hd : a < off + data.length
  · rw [List.getElem?_append_left (by omega), if_pos ⟨by omega, hd⟩]
  · rw [List.getElem?_append_right (by omega), List.getElem?_drop, if_neg (by omega)]
    congr 1
    omega

/-- The bytes that were written are read back. -/
lemma slice_splice_self {b data : List α} (h : off + data.length ≤ b.length) :
    slice (splice b off data) off data.length = some data := by
  refine slice_eq_some.mpr ⟨by rw [length_splice h]; exact h, rfl, fun k hk => ?_⟩
  rw [getElem?_splice h, if_pos ⟨by omega, by omega⟩, Nat.add_sub_cancel_left]

/-- Blocks that agree on a range have the same slice there. -/
lemma slice_congr {b b' : List α} (hlen : b'.length = b.length)
    (h : ∀ k < len, b'[off + k]? = b[off + k]?) : slice b' off len = slice b off len := by
  rw [slice, slice, hlen]
  split_ifs with hle
  · refine congrArg some (List.ext_getElem? fun k => ?_)
    rw [List.getElem?_take, List.getElem?_take]
    split_ifs with hk
    · rw [List.getElem?_drop, List.getElem?_drop, h k hk]
    · rfl
  · rfl

/-- A slice of a slice. -/
lemma slice_slice {b v : List α} {start n : ℕ} (h : slice b off len = some v)
    (hn : start + n ≤ len) : slice v start n = slice b (off + start) n := by
  obtain ⟨hle, hlen, hv⟩ := slice_eq_some.mp h
  rw [slice_of_le (b := b) (by omega)]
  refine slice_eq_some.mpr ⟨by omega, ?_, fun k hk => ?_⟩
  · rw [List.length_take, List.length_drop]
    omega
  · rw [List.getElem?_take, if_pos hk, List.getElem?_drop, hv (start + k) (by omega), Nat.add_assoc]

/-! ### Regions -/

/-- The regions, each given by its offset and its length, follow each other from
`c` to `e`. -/
def Consecutive : ℕ → List (ℕ × ℕ) → ℕ → Prop
  | c, [], e => c = e
  | c, r :: rs, e => r.1 = c ∧ Consecutive (c + r.2) rs e

namespace Consecutive

variable {rs : List (ℕ × ℕ)}

lemma append {c d e : ℕ} {ts : List (ℕ × ℕ)} (hr : Consecutive c rs d)
    (ht : Consecutive d ts e) : Consecutive c (rs ++ ts) e := by
  induction rs generalizing c with
  | nil =>
    obtain rfl : c = d := hr
    exact ht
  | cons r rs ih => exact ⟨hr.1, ih hr.2⟩

lemma split {c e : ℕ} {ts : List (ℕ × ℕ)} (h : Consecutive c (rs ++ ts) e) :
    ∃ d, Consecutive c rs d ∧ Consecutive d ts e := by
  induction rs generalizing c with
  | nil => exact ⟨c, rfl, h⟩
  | cons r rs ih =>
    obtain ⟨d, hr, ht⟩ := ih h.2
    exact ⟨d, ⟨h.1, hr⟩, ht⟩

lemma le {c e : ℕ} (h : Consecutive c rs e) : c ≤ e := by
  induction rs generalizing c with
  | nil => exact le_of_eq h
  | cons r rs ih => exact (Nat.le_add_right c r.2).trans (ih h.2)

/-- The regions stay within their bounds. -/
lemma within {c e : ℕ} (h : Consecutive c rs e) {r : ℕ × ℕ}
    (hr : r ∈ rs) : c ≤ r.1 ∧ r.1 + r.2 ≤ e := by
  induction rs generalizing c with
  | nil => cases hr
  | cons t rs ih =>
    obtain ⟨hstart, hrest⟩ := h
    rcases List.mem_cons.mp hr with rfl | hr
    · exact ⟨hstart.ge, hstart ▸ hrest.le⟩
    · exact ⟨(Nat.le_add_right c t.2).trans (ih hrest hr).1, (ih hrest hr).2⟩

/-- The regions do not overlap. -/
lemma pairwise {c e : ℕ} (h : Consecutive c rs e) :
    rs.Pairwise fun r t => r.1 + r.2 ≤ t.1 := by
  induction rs generalizing c with
  | nil => exact List.Pairwise.nil
  | cons r rs ih =>
    refine List.Pairwise.cons (fun t ht => ?_) (ih h.2)
    rw [h.1]
    exact (h.2.within ht).1

/-- Regions whose lengths are multiples of `m` all start at the same residue. -/
lemma modEq {m c e : ℕ} (h : Consecutive c rs e)
    (hm : ∀ r ∈ rs, m ∣ r.2) : (∀ r ∈ rs, r.1 ≡ c [MOD m]) ∧ e ≡ c [MOD m] := by
  induction rs generalizing c with
  | nil =>
    obtain rfl : c = e := h
    exact ⟨fun r hr => absurd hr List.not_mem_nil, Nat.ModEq.refl c⟩
  | cons t rs ih =>
    have hstep : c + t.2 ≡ c [MOD m] := by
      have hzero : t.2 ≡ 0 [MOD m] := (Nat.modEq_zero_iff_dvd).mpr (hm t (by simp))
      exact hzero.add_left c
    obtain ⟨hin, hend⟩ := ih h.2 fun r hr => hm r (by simp [hr])
    refine ⟨fun r hr => ?_, hend.trans hstep⟩
    rcases List.mem_cons.mp hr with rfl | hr
    · rw [h.1]
    · exact (hin r hr).trans hstep

end Consecutive

end PgFusion.Bytes

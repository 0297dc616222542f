import PgFusion.Ring.Fifo

/-!
The index sums of a ring, which may have up to `u32::MAX` bytes: indices are advanced by sums of
`u32` values before they are wrapped at the capacity.

* `index_sums_exact`: the sums are exact up to a capacity of `2 ^ 31`, and not beyond.
-/

namespace PgFusion.Ring

/-! ### The layout -/

/-- `ConfigError`, as far as rings raise it. -/
inductive ConfigError where
  | ringTooSmall (minimum actual : ℕ)
  | ringTooLarge (maximum actual : ℕ)
deriving DecidableEq

/-- `FramedRingLayout`, with the size of its layout. -/
structure FramedRingLayout where
  size : ℕ
  headOffset : ℕ
  tailOffset : ℕ
  dataOffset : ℕ
  dataLen : ℕ
deriving DecidableEq

/-- `framed_ring_layout`: two words and the bytes behind them, padded to whole words. With 64-bit
sizes the layout itself cannot overflow. -/
def framedRingLayout (capacity : ℕ) : Except ConfigError FramedRingLayout :=
  if capacity < minRingCapacity then .error (.ringTooSmall minRingCapacity capacity)
  else if capacity > u32Max then .error (.ringTooLarge u32Max capacity)
  else .ok ⟨(8 + capacity + 3) / 4 * 4, 0, 4, 8, capacity⟩

/-! ### Plans -/

/-- `build_consume_plan` behind the read of the length. -/
def consumePlan (s : RingSnapshot) (dstLen len : ℕ) : Except RxError ConsumePlan :=
  if framePrefixLen + len > s.usedBytes then .error (.corruptFrameLen len s.usedBytes s.capacity)
  else if len > dstLen then .error (.bufferTooSmall len dstLen)
  else .ok {
    len := len
    payloadStart := wrapIndex (addU32 s.head framePrefixLen) s.capacity
    nextHead := wrapIndex (addU32 s.head (framePrefixLen + len)) s.capacity }

/-- `build_consume_plan` reads the length and makes this plan of it. -/
lemma buildConsumePlan_eq (s : RingSnapshot) (dstLen : ℕ) :
    buildConsumePlan s dstLen =
      (readU32Wrapped s.head s.capacity).bind fun len => .ret (consumePlan s dstLen len) := by
  refine congrArg (Prog.bind _) (funext fun len => ?_)
  rw [consumePlan]
  dsimp only
  split_ifs <;> rfl

lemma usedBytes_lt {s : RingSnapshot} (hhead : s.head < s.capacity) (htail : s.tail < s.capacity) :
    s.usedBytes < s.capacity := by
  rw [RingSnapshot.usedBytes]
  split_ifs <;> omega

/-- What advances an index by less than the capacity stays in a `u32`. -/
lemma sum_le_u32Max {i n c : ℕ} (hi : i < c) (hn : n < c) (hc : c ≤ 2 ^ 31) : i + n ≤ u32Max := by
  rw [u32Max]
  omega

/-- With these indices, the sums of every plan are `u32` values, and the indices that the plan names
are the sums modulo the capacity. -/
structure SumsExact (capacity head tail : ℕ) : Prop where
  publish : ∀ payloadLen plan, buildPublishPlan ⟨head, tail, capacity⟩ payloadLen = .ok plan →
    tail + framePrefixLen ≤ u32Max ∧ tail + (framePrefixLen + payloadLen) ≤ u32Max ∧
      plan.payloadStart = (tail + framePrefixLen) % capacity ∧
      plan.publishTail = (tail + (framePrefixLen + payloadLen)) % capacity
  consume : ∀ dstLen len plan, consumePlan ⟨head, tail, capacity⟩ dstLen len = .ok plan →
    head + framePrefixLen ≤ u32Max ∧ head + (framePrefixLen + len) ≤ u32Max ∧
      plan.payloadStart = (head + framePrefixLen) % capacity ∧
      plan.nextHead = (head + (framePrefixLen + len)) % capacity

lemma sumsExact_of_le {capacity head tail : ℕ} (hcapacity : capacity ≤ 2 ^ 31)
    (hhead : head < capacity) (htail : tail < capacity) : SumsExact capacity head tail := by
  have hused : (⟨head, tail, capacity⟩ : RingSnapshot).usedBytes < capacity :=
    usedBytes_lt hhead htail
  refine ⟨fun payloadLen plan hplan => ?_, fun dstLen len plan hplan => ?_⟩
  · rw [buildPublishPlan] at hplan
    dsimp only at hplan
    split_ifs at hplan with hlarge hfull
    obtain rfl := Except.ok.inj hplan
    have hrequired : framePrefixLen + payloadLen < capacity := by
      rw [RingSnapshot.availableBytes] at hfull
      dsimp only at hfull
      omega
    have hprefix : framePrefixLen < capacity := by omega
    exact ⟨sum_le_u32Max htail hprefix hcapacity, sum_le_u32Max htail hrequired hcapacity,
      wrapIndex_addU32 htail hprefix.le hcapacity, wrapIndex_addU32 htail hrequired.le hcapacity⟩
  · rw [consumePlan] at hplan
    split_ifs at hplan with hcorrupt hsmall
    obtain rfl := Except.ok.inj hplan
    have hframe : framePrefixLen + len < capacity := by omega
    have hprefix : framePrefixLen < capacity := by omega
    exact ⟨sum_le_u32Max hhead hprefix hcapacity, sum_le_u32Max hhead hframe hcapacity,
      wrapIndex_addU32 hhead hprefix.le hcapacity, wrapIndex_addU32 hhead hframe.le hcapacity⟩

/-- A ring that is empty has room for a frame of all its bytes but one. -/
lemma exists_plan_of_empty {capacity : ℕ} (tail : ℕ) (hmin : minRingCapacity ≤ capacity) :
    ∃ plan, buildPublishPlan ⟨tail, tail, capacity⟩ (capacity - framePrefixLen - 1) = .ok plan := by
  have hmin' : 5 ≤ capacity := hmin
  rw [buildPublishPlan, RingSnapshot.availableBytes, RingSnapshot.usedBytes]
  dsimp only
  rw [if_neg (lt_irrefl _), if_pos le_rfl, if_neg (by rw [framePrefixLen]; omega)]
  exact ⟨_, rfl⟩

/-- **The index sums of a ring are exact if and only if it has at most `2 ^ 31` bytes.** In a larger
ring, a frame of all bytes but one that starts at the last byte overflows. -/
theorem index_sums_exact {capacity : ℕ} {layout : FramedRingLayout}
    (hlayout : framedRingLayout capacity = .ok layout) :
    (∀ head tail, head < capacity → tail < capacity → SumsExact layout.dataLen head tail) ↔
      capacity ≤ 2 ^ 31 := by
  rw [framedRingLayout] at hlayout
  split_ifs at hlayout with hsmall hlarge
  obtain rfl := Except.ok.inj hlayout
  refine ⟨fun h => ?_, fun hcapacity head tail => sumsExact_of_le hcapacity⟩
  have hmin : 5 ≤ capacity := not_lt.mp hsmall
  obtain ⟨plan, hplan⟩ := exists_plan_of_empty (capacity - 1) hmin
  have hsum := ((h (capacity - 1) (capacity - 1) (by omega) (by omega)).publish _ plan hplan).2.1
  rw [u32Max, framePrefixLen] at hsum
  omega

/-- An empty ring of `2 ^ 31` bytes whose indices stand at the last byte. -/
theorem index_sums_exact_at_last_byte :
    buildPublishPlan ⟨2 ^ 31 - 1, 2 ^ 31 - 1, 2 ^ 31⟩ 10 = .ok ⟨3, 13, 2 ^ 31 - 1, 10⟩ ∧
      2 ^ 31 - 1 + (framePrefixLen + 10) ≤ u32Max := by
  have hplan : buildPublishPlan ⟨2 ^ 31 - 1, 2 ^ 31 - 1, 2 ^ 31⟩ 10 =
      .ok ⟨3, 13, 2 ^ 31 - 1, 10⟩ := by
    simp [buildPublishPlan, RingSnapshot.availableBytes, RingSnapshot.usedBytes, framePrefixLen,
      wrapIndex, addU32]
  have hexact := (@index_sums_exact (2 ^ 31) ⟨2 ^ 31 + 8, 0, 4, 8, 2 ^ 31⟩ rfl).mpr le_rfl
  have hsums := (hexact (2 ^ 31 - 1) (2 ^ 31 - 1) (by omega) (by omega)).publish 10 _ hplan
  exact ⟨hplan, hsums.2.1⟩

/-- **An index sum overflows near the largest capacity.** In an empty ring of `u32::MAX` bytes
whose indices stand at its last byte, the sum for the start of an empty payload wraps at `2 ^ 32`,
and the plan names byte 2 instead of byte 3. -/
theorem index_sum_overflows :
    framedRingLayout u32Max = .ok ⟨4294967304, 0, 4, 8, u32Max⟩ ∧
      buildPublishPlan ⟨u32Max - 1, u32Max - 1, u32Max⟩ 0 = .ok ⟨2, 2, u32Max - 1, 0⟩ ∧
      u32Max < u32Max - 1 + framePrefixLen ∧ (u32Max - 1 + framePrefixLen) % u32Max = 3 := by
  refine ⟨by decide, ?_, by decide, by decide⟩
  simp [buildPublishPlan, RingSnapshot.availableBytes, RingSnapshot.usedBytes, framePrefixLen,
    wrapIndex, addU32, u32Max]

end PgFusion.Ring

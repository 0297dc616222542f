import Mathlib.Tactic

/-!
The Bloom filter of `runtime/filter/src/bloom.rs` and the lifecycle word of
`runtime/filter/src/shared.rs`.
-/

namespace PgFusion.Filter

/-! ### Parameters -/

/-- The number of values of a `usize`. -/
@[irreducible] def usizeValues : ℕ := 18446744073709551616

/-- `BloomParams`, with what its constructor ensures. -/
structure BloomParams where
  bitCount : ℕ
  hashCount : ℕ
  seed : UInt64
  bitCount_pos : 0 < bitCount
  hashCount_pos : 0 < hashCount
  fits : bitCount + 63 < usizeValues

namespace BloomParams

/-- The number of words that hold the bits. -/
def wordCount (params : BloomParams) : ℕ := (params.bitCount + 63) / 64

end BloomParams

/-! ### Bit positions -/

/-- `HASH_GAMMA`. -/
def hashGamma : UInt64 := 0x9E3779B97F4A7C15

/-- `HASH_SALT`. -/
def hashSalt : UInt64 := 0xD1B54A32D192ED03

/-- `splitmix64`. -/
def splitmix64 (value : UInt64) : UInt64 :=
  let value := value + hashGamma
  let value := (value ^^^ (value >>> 30)) * 0xBF58476D1CE4E5B9
  let value := (value ^^^ (value >>> 27)) * 0x94D049BB133111EB
  value ^^^ (value >>> 31)

namespace BloomParams

variable (params : BloomParams)

/-- `AtomicBloomRef::bit_index`. -/
def bitIndex (hash : UInt64) (hashIndex : ℕ) : ℕ :=
  let h1 := splitmix64 (hash ^^^ params.seed)
  let h2 := splitmix64 (h1 ^^^ hashSalt) ||| 1
  let value := h1 + UInt64.ofNat hashIndex * h2
  value.toNat % params.bitCount

/-- `AtomicBloomRef::word_mask`. -/
def wordMask (hash : UInt64) (hashIndex : ℕ) : ℕ × UInt64 :=
  let bit := params.bitIndex hash hashIndex
  (bit / 64, 1 <<< UInt64.ofNat (bit % 64))

/-- A mask is never empty. -/
lemma wordMask_ne_zero (hash : UInt64) (hashIndex : ℕ) :
    (params.wordMask hash hashIndex).2 ≠ 0 := by
  have hmask : ∀ k : Fin 64, (1 : UInt64) <<< UInt64.ofNat k ≠ 0 := by decide
  exact hmask ⟨params.bitIndex hash hashIndex % 64, Nat.mod_lt _ (by decide)⟩

end BloomParams

/-! ### Words that have the bits of a mask -/

/-- The word has all bits of the mask. -/
def Covers (word mask : UInt64) : Prop := word ||| mask = word

lemma covers_or_self (word mask : UInt64) : Covers (word ||| mask) mask := by
  rw [Covers, UInt64.or_assoc, UInt64.or_self]

lemma Covers.or {word mask : UInt64} (h : Covers word mask) (other : UInt64) :
    Covers (word ||| other) mask := by
  rw [Covers, UInt64.or_assoc, UInt64.or_comm other, ← UInt64.or_assoc, h]

lemma Covers.and_ne_zero {word mask : UInt64} (h : Covers word mask) (hmask : mask ≠ 0) :
    word &&& mask ≠ 0 := by
  have habsorb : (word ||| mask) &&& mask = mask := by
    apply UInt64.eq_of_toBitVec_eq
    simp only [UInt64.toBitVec_and, UInt64.toBitVec_or]
    ext i hi
    simpa using fun hmask => Or.inr hmask
  rw [Covers] at h
  rw [h] at habsorb
  rwa [habsorb]

/-! ### The lifecycle word -/

/-- `RuntimeFilterState`. -/
inductive RuntimeFilterState where
  | free | building | ready | disabled
deriving DecidableEq

/-- `LifecycleSnapshot`. -/
structure LifecycleSnapshot where
  generation : ℕ
  state : RuntimeFilterState
deriving DecidableEq

/-- `MAX_GENERATION`, `u64::MAX >> 2`. -/
@[irreducible] def maxGeneration : ℕ := 4611686018427387903

/-- `LifecycleError`. -/
inductive LifecycleError where
  | generationExhausted (generation : ℕ)
  | busy (snapshot : LifecycleSnapshot)
  | invalidTransition (expected actual : LifecycleSnapshot)
deriving DecidableEq

/-- `ProbeDecision`. -/
inductive ProbeDecision where
  | passUnfiltered | maybePresent | definitelyAbsent
deriving DecidableEq

end PgFusion.Filter

import Mathlib.Tactic

/-!
MessagePack, as strict readers and fixed-marker writers. A number is read only under the marker of
its width; a length, under any marker of its kind.
* `reads_uint`, `reads_len`: what is written is read;
* `readUint_eq_ok`, `readLen_eq_ok`: and nothing else is.
-/

namespace PgFusion.Wire

/-! ### Big-endian numbers -/

/-- The `k` low bytes of `n`, the highest first. -/
def beBytes : ℕ → ℕ → List UInt8
  | 0, _ => []
  | k + 1, n => beBytes k (n / 256) ++ [UInt8.ofNat n]

/-- The number that bytes stand for, the highest first. -/
def ofBe (b : List UInt8) : ℕ := b.foldl (fun n c => n * 256 + c.toNat) 0

@[simp] lemma length_beBytes (k n : ℕ) : (beBytes k n).length = k := by
  induction k generalizing n with
  | zero => rfl
  | succ k ih => simp [beBytes, ih]

lemma ofBe_append_singleton (b : List UInt8) (c : UInt8) :
    ofBe (b ++ [c]) = ofBe b * 256 + c.toNat := by
  simp [ofBe]

variable {k n : ℕ}

/-- The number that the bytes of `n` stand for. -/
lemma ofBe_beBytes (h : n < 256 ^ k) : ofBe (beBytes k n) = n := by
  induction k generalizing n with
  | zero =>
    rw [pow_zero] at h
    obtain rfl : n = 0 := by omega
    rfl
  | succ k ih =>
    have hdiv : n / 256 < 256 ^ k := by
      rw [pow_succ] at h
      exact Nat.div_lt_of_lt_mul (by rwa [mul_comm] at h)
    rw [beBytes, ofBe_append_singleton, ih hdiv, UInt8.toNat_ofNat']
    omega

lemma ofBe_lt (b : List UInt8) : ofBe b < 256 ^ b.length := by
  induction b using List.reverseRecOn with
  | nil => simp [ofBe]
  | append_singleton b c ih =>
    rw [ofBe_append_singleton, List.length_append, List.length_singleton, pow_succ]
    have := c.toNat_lt
    omega

/-- The bytes of the number that bytes stand for. -/
lemma beBytes_ofBe (b : List UInt8) : beBytes b.length (ofBe b) = b := by
  induction b using List.reverseRecOn with
  | nil => rfl
  | append_singleton b c ih =>
    have hc := c.toNat_lt
    have hdiv : (ofBe b * 256 + c.toNat) / 256 = ofBe b := by omega
    have hmod : UInt8.ofNat (ofBe b * 256 + c.toNat) = c := by
      rw [← UInt8.toNat_inj, UInt8.toNat_ofNat']
      omega
    rw [List.length_append, List.length_singleton, ofBe_append_singleton, beBytes, hdiv, ih, hmod]

/-! ### Readers -/

/-- Why a reader failed: the input ended, or it does not start with a marker that the
reader expects. -/
inductive ReadError where
  | outOfInput
  | typeMismatch (marker : UInt8)
deriving DecidableEq

/-- A reader takes bytes off the front of its input. -/
abbrev Reader (ε : Type) : Type → Type := StateT (List UInt8) (Except ε)

namespace Reader

variable {ε ε' α β : Type}

/-- The same reader with another report of its failures. -/
def mapError (f : ε → ε') (x : Reader ε α) : Reader ε' α :=
  StateT.mk fun s => (x.run s).mapError f

variable {s : List UInt8}

lemma bind_ok {x : Reader ε α} {f : α → Reader ε β} {s' : List UInt8} {a : α}
    (h : x.run s = .ok (a, s')) : (x >>= f).run s = (f a).run s' := by
  rw [StateT.run_bind, h]
  rfl

lemma bind_error {x : Reader ε α} {f : α → Reader ε β} {e : ε}
    (h : x.run s = .error e) : (x >>= f).run s = .error e := by
  rw [StateT.run_bind, h]
  rfl

/-- A reader that succeeds after another one did. -/
lemma bind_eq_ok {x : Reader ε α} {f : α → Reader ε β} {r : β × List UInt8}
    (h : (x >>= f).run s = .ok r) : ∃ a s', x.run s = .ok (a, s') ∧ (f a).run s' = .ok r := by
  cases hx : x.run s with
  | error e => simp [bind_error hx] at h
  | ok as => exact ⟨as.1, as.2, rfl, by rwa [bind_ok hx] at h⟩

lemma pure_eq_ok {a : α} {r : α × List UInt8} :
    (pure a : Reader ε α).run s = .ok r ↔ r = (a, s) := by
  rw [StateT.run_pure]
  exact ⟨fun h => (Except.ok.inj h).symm, fun h => h ▸ rfl⟩

lemma liftM_eq_ok {x : Except ε α} {a : α} {r : List UInt8} :
    (liftM x : Reader ε α).run s = .ok (a, r) ↔ x = .ok a ∧ r = s := by
  cases x with
  | error e => exact ⟨fun h => (nomatch h), fun h => (nomatch h.1)⟩
  | ok b =>
    constructor
    · intro h
      obtain ⟨rfl, rfl⟩ := Prod.mk.inj (Except.ok.inj h)
      exact ⟨rfl, rfl⟩
    · rintro ⟨h, rfl⟩
      rw [Except.ok.inj h]
      rfl

lemma mapError_eq_ok {x : Reader ε α} {f : ε → ε'} {r : α × List UInt8} :
    (x.mapError f).run s = .ok r ↔ x.run s = .ok r := by
  rw [mapError, StateT.run_mk]
  cases x.run s <;> simp [Except.mapError]

end Reader

/-- `x` reads `a` off the bytes `b`, whatever follows them. -/
def Reads {ε α : Type} (x : Reader ε α) (b : List UInt8) (a : α) : Prop :=
  ∀ s, x.run (b ++ s) = .ok (a, s)

namespace Reads

variable {ε ε' α β : Type} {x : Reader ε α} {f : α → Reader ε β} {b b' : List UInt8} {a : α} {c : β}

lemma pure (a : α) : Reads (Pure.pure a : Reader ε α) [] a := fun _ => rfl

lemma bind (hx : Reads x b a) (hf : Reads (f a) b' c) : Reads (x >>= f) (b ++ b') c := by
  intro s
  rw [List.append_assoc, Reader.bind_ok (hx _)]
  exact hf s

/-- A reader that takes nothing off the input, before another one. -/
lemma then_of_nil (hx : Reads x [] a) (hf : Reads (f a) b' c) : Reads (x >>= f) b' c := hx.bind hf

lemma liftM {y : Except ε α} (h : y = .ok a) : Reads (MonadLiftT.monadLift y : Reader ε α) [] a :=
  fun _ => Reader.liftM_eq_ok.mpr ⟨h, rfl⟩

lemma mapError (hx : Reads x b a) (g : ε → ε') : Reads (x.mapError g) b a := fun s =>
  Reader.mapError_eq_ok.mpr (hx s)

end Reads

/-! ### The values -/

/-- One byte. -/
def readByte : Reader ReadError UInt8 := StateT.mk fun s =>
  match s with
  | [] => .error .outOfInput
  | c :: s => .ok (c, s)

/-- The next `k` bytes. -/
def takeBytes (k : ℕ) : Reader ReadError (List UInt8) := StateT.mk fun s =>
  if s.length < k then .error .outOfInput else .ok (s.take k, s.drop k)

/-- A number of `k` bytes, without a marker. -/
def readData (k : ℕ) : Reader ReadError ℕ := do
  let b ← takeBytes k
  return ofBe b

/-- Fail unless the condition holds. -/
def require {ε : Type} (p : Prop) [Decidable p] (e : ε) : Reader ε Unit :=
  if p then pure () else throw e

/-- The widths of the unsigned numbers. -/
inductive Width where
  | u8 | u16 | u32 | u64
deriving DecidableEq

namespace Width

/-- The number of bytes. -/
def size : Width → ℕ
  | u8 => 1
  | u16 => 2
  | u32 => 4
  | u64 => 8

/-- The marker. -/
def marker : Width → UInt8
  | u8 => 0xcc
  | u16 => 0xcd
  | u32 => 0xce
  | u64 => 0xcf

end Width

/-- `write_u8`, `write_u16`, `write_u32` and `write_u64`: the marker of the width and the
bytes of the number. -/
def writeUint (w : Width) (n : ℕ) : List UInt8 := w.marker :: beBytes w.size n

/-- `read_u8`, `read_u16`, `read_u32` and `read_u64`, which accept no other marker. -/
def readUint (w : Width) : Reader ReadError ℕ := do
  let m ← readByte
  require (m = w.marker) (.typeMismatch m)
  readData w.size

/-- A kind of length prefix: the markers that hold a small length themselves, and the
markers that are followed by a length of so many bytes. -/
structure LenKind where
  fixBase : ℕ
  fixCount : ℕ
  wide : List (UInt8 × ℕ)
  /-- Markers are single bytes. -/
  fix_le : fixBase + fixCount ≤ 256
  /-- The marker tells which width follows. -/
  nodup : (wide.map Prod.fst).Nodup
  /-- The marker tells whether a length follows at all. -/
  wide_not_fix : ∀ mw ∈ wide, ¬ (fixBase ≤ mw.1.toNat ∧ mw.1.toNat < fixBase + fixCount)

/-- The shortest prefix of a length. -/
def writeLen (k : LenKind) (n : ℕ) : List UInt8 :=
  if n < k.fixCount then [UInt8.ofNat (k.fixBase + n)]
  else match k.wide.find? fun mw => n < 256 ^ mw.2 with
    | some mw => mw.1 :: beBytes mw.2 n
    | none => []

/-- A length, under any marker of the kind. -/
def readLen (k : LenKind) : Reader ReadError ℕ := do
  let m ← readByte
  if k.fixBase ≤ m.toNat ∧ m.toNat < k.fixBase + k.fixCount then
    return m.toNat - k.fixBase
  else match k.wide.find? fun mw => mw.1 = m with
    | some mw => readData mw.2
    | none => throw (.typeMismatch m)

/-- `FixArray`, `Array16` and `Array32`. -/
def arrayLen : LenKind where
  fixBase := 0x90
  fixCount := 16
  wide := [(0xdc, 2), (0xdd, 4)]
  fix_le := by decide
  nodup := by decide
  wide_not_fix := by decide

/-- `FixStr`, `Str8`, `Str16` and `Str32`. -/
def strLen : LenKind where
  fixBase := 0xa0
  fixCount := 32
  wide := [(0xd9, 1), (0xda, 2), (0xdb, 4)]
  fix_le := by decide
  nodup := by decide
  wide_not_fix := by decide

/-- `Bin8`, `Bin16` and `Bin32`. -/
def binLen : LenKind where
  fixBase := 0
  fixCount := 0
  wide := [(0xc4, 1), (0xc5, 2), (0xc6, 4)]
  fix_le := by decide
  nodup := by decide
  wide_not_fix := by decide

/-- `write_bool`. -/
def writeBool (b : Bool) : List UInt8 := [if b then 0xc3 else 0xc2]

/-! ### What the readers read -/

lemma readByte_cons (c : UInt8) (s : List UInt8) : readByte.run (c :: s) = .ok (c, s) := rfl

lemma run_takeBytes (k : ℕ) (s : List UInt8) : (takeBytes k).run s =
    if s.length < k then .error .outOfInput else .ok (s.take k, s.drop k) := rfl

lemma reads_byte (c : UInt8) : Reads readByte [c] c := readByte_cons c

lemma reads_take (b : List UInt8) : Reads (takeBytes b.length) b b := by
  intro s
  simp [run_takeBytes]

lemma reads_data (h : n < 256 ^ k) : Reads (readData k) (beBytes k n) n := by
  have htake := reads_take (beBytes k n)
  rw [length_beBytes] at htake
  intro s
  rw [readData, Reader.bind_ok (htake s), ofBe_beBytes h]
  rfl

lemma reads_require {ε : Type} {p : Prop} [Decidable p] (e : ε) (h : p) :
    Reads (require p e) [] () := by
  rw [require, if_pos h]
  exact Reads.pure ()

/-- A number that fits its width is read as it was written. -/
lemma reads_uint {w : Width} (h : n < 256 ^ w.size) :
    Reads (readUint w) (writeUint w n) n :=
  (reads_byte w.marker).bind ((reads_require _ rfl).bind (reads_data h))

lemma find_marker {l : List (UInt8 × ℕ)} (hnd : (l.map Prod.fst).Nodup) {mw : UInt8 × ℕ}
    (h : mw ∈ l) : l.find? (fun x => x.1 = mw.1) = some mw := by
  cases hf : l.find? (fun x => x.1 = mw.1) with
  | none =>
    have := List.find?_eq_none.mp hf mw h
    simp at this
  | some x =>
    have hx : x.1 = mw.1 := by simpa using List.find?_some hf
    rw [List.inj_on_of_nodup_map hnd (List.mem_of_find?_eq_some hf) h hx]

/-- A length that fits some width of its kind is read as it was written. -/
lemma reads_len {k : LenKind} (h : n < k.fixCount ∨ ∃ mw ∈ k.wide, n < 256 ^ mw.2) :
    Reads (readLen k) (writeLen k n) n := by
  have hfix := k.fix_le
  rw [writeLen]
  split
  · next hn =>
      have hm : (UInt8.ofNat (k.fixBase + n)).toNat = k.fixBase + n := by
        rw [UInt8.toNat_ofNat']
        omega
      intro s
      rw [readLen, Reader.bind_ok (reads_byte _ s), hm, if_pos (by omega), Nat.add_sub_cancel_left]
      rfl
  · next hn =>
      cases hf : k.wide.find? fun mw => n < 256 ^ mw.2 with
      | none =>
        obtain ⟨mw, hmem, hlt⟩ := h.resolve_left hn
        simpa [hlt] using List.find?_eq_none.mp hf mw hmem
      | some mw =>
        have hmem := List.mem_of_find?_eq_some hf
        have hlt : n < 256 ^ mw.2 := by simpa using List.find?_some hf
        intro s
        rw [List.cons_append, readLen, Reader.bind_ok (readByte_cons mw.1 _),
          if_neg (k.wide_not_fix mw hmem), find_marker k.nodup hmem]
        exact reads_data hlt s

/-- What was expected of a field is what is read: the reader of a fixed field. A failure
of the reader itself is reported as if the field were zero. -/
def readTag {ε : Type} (x : Reader ReadError ℕ) (expected : ℕ) (bad : ℕ → ε) : Reader ε Unit := do
  let v ← x.mapError fun _ => bad 0
  require (v = expected) (bad v)

lemma reads_tag {ε : Type} {x : Reader ReadError ℕ} {b : List UInt8} (bad : ℕ → ε)
    (h : Reads x b n) : Reads (readTag x n bad) b () := by
  intro s
  rw [readTag, Reader.bind_ok (h.mapError _ s)]
  exact reads_require (bad n) rfl s

/-! ### What they do not read -/

variable {s r : List UInt8}

lemma readByte_eq_ok {c : UInt8} (h : readByte.run s = .ok (c, r)) :
    s = c :: r := by
  cases s with
  | nil => exact absurd h (by simp [readByte])
  | cons c' s' =>
    rw [readByte_cons] at h
    obtain ⟨rfl, rfl⟩ := Prod.mk.inj (Except.ok.inj h)
    rfl

lemma takeBytes_eq_ok {b : List UInt8} (h : (takeBytes k).run s = .ok (b, r)) :
    s = b ++ r ∧ b.length = k := by
  rw [run_takeBytes] at h
  split at h
  · cases h
  · next hk =>
      obtain ⟨rfl, rfl⟩ := Prod.mk.inj (Except.ok.inj h)
      exact ⟨(List.take_append_drop k s).symm, by rw [List.length_take]; omega⟩

lemma readData_eq_ok (h : (readData k).run s = .ok (n, r)) :
    s = beBytes k n ++ r ∧ n < 256 ^ k := by
  obtain ⟨b, s', htake, hp⟩ := Reader.bind_eq_ok h
  obtain ⟨rfl, rfl⟩ := takeBytes_eq_ok htake
  obtain ⟨rfl, rfl⟩ := Prod.mk.inj (Reader.pure_eq_ok.mp hp)
  exact ⟨by rw [beBytes_ofBe], ofBe_lt b⟩

lemma require_eq_ok {ε : Type} {p : Prop} [Decidable p] {e : ε} {u : Unit}
    (h : (require p e).run s = .ok (u, r)) : p ∧ r = s := by
  rw [require] at h
  split at h
  · next hp => exact ⟨hp, (Prod.mk.inj (Reader.pure_eq_ok.mp h)).2⟩
  · cases h

/-- A number is read off its own encoding only. -/
lemma readUint_eq_ok {w : Width} (h : (readUint w).run s = .ok (n, r)) :
    s = writeUint w n ++ r ∧ n < 256 ^ w.size := by
  obtain ⟨m, s', hm, hrest⟩ := Reader.bind_eq_ok h
  obtain ⟨u, s'', hu, hdata⟩ := Reader.bind_eq_ok hrest
  obtain ⟨rfl, rfl⟩ := require_eq_ok hu
  obtain ⟨rfl, hlt⟩ := readData_eq_ok hdata
  exact ⟨readByte_eq_ok hm, hlt⟩

/-- A length is read off its marker alone, or off a marker and the bytes of the length. -/
lemma readLen_eq_ok {k : LenKind} (h : (readLen k).run s = .ok (n, r)) :
    (s = UInt8.ofNat (k.fixBase + n) :: r ∧ n < k.fixCount) ∨
      ∃ mw ∈ k.wide, s = mw.1 :: (beBytes mw.2 n ++ r) ∧ n < 256 ^ mw.2 := by
  obtain ⟨m, s', hm, hlen⟩ := Reader.bind_eq_ok h
  obtain rfl := readByte_eq_ok hm
  split at hlen
  · next hfix =>
      obtain ⟨rfl, rfl⟩ := Prod.mk.inj (Reader.pure_eq_ok.mp hlen)
      refine Or.inl ⟨?_, by omega⟩
      rw [Nat.add_sub_cancel' hfix.1, UInt8.ofNat_toNat]
  · cases hf : k.wide.find? fun mw => mw.1 = m with
    | none =>
      rw [hf] at hlen
      cases hlen
    | some mw =>
      rw [hf] at hlen
      have hmk : mw.1 = m := by simpa using List.find?_some hf
      obtain ⟨rfl, hlt⟩ := readData_eq_ok hlen
      exact Or.inr ⟨mw, List.mem_of_find?_eq_some hf, by rw [hmk], hlt⟩

/-- A length that was read off a single byte was read off its own encoding. -/
lemma readLen_of_length {k : LenKind}
    (h : (readLen k).run s = .ok (n, r)) (hwide : ∀ mw ∈ k.wide, 0 < mw.2)
    (hlen : s.length = r.length + 1) : s = writeLen k n ++ r := by
  rcases readLen_eq_ok h with ⟨rfl, hn⟩ | ⟨mw, hmw, rfl, -⟩
  · rw [writeLen, if_pos hn]
    rfl
  · have := hwide mw hmw
    simp only [List.length_cons, List.length_append, length_beBytes] at hlen
    omega

lemma readTag_eq_ok {ε : Type} {x : Reader ReadError ℕ} {bad : ℕ → ε}
    {u : Unit} (h : (readTag x n bad).run s = .ok (u, r)) : x.run s = .ok (n, r) := by
  obtain ⟨v, s', hx, hv⟩ := Reader.bind_eq_ok h
  obtain ⟨rfl, rfl⟩ := require_eq_ok hv
  exact Reader.mapError_eq_ok.mp hx

/-- A number is read off its encoding, and what follows off the rest. -/
lemma uint_bind_eq_ok {ε β : Type} {w : Width} {g : ReadError → ε} {f : ℕ → Reader ε β}
    {a : β × List UInt8} (h : ((readUint w).mapError g >>= f).run s = .ok a) :
    ∃ n r, s = writeUint w n ++ r ∧ n < 256 ^ w.size ∧ (f n).run r = .ok a := by
  obtain ⟨n, r, hn, hrest⟩ := Reader.bind_eq_ok h
  obtain ⟨hs, hlt⟩ := readUint_eq_ok (Reader.mapError_eq_ok.mp hn)
  exact ⟨n, r, hs, hlt, hrest⟩

/-- A tag is read off its encoding, and what follows off the rest. -/
lemma tag_bind_eq_ok {ε β : Type} {w : Width} {bad : ℕ → ε} {f : Unit → Reader ε β}
    {a : β × List UInt8} (h : (readTag (readUint w) n bad >>= f).run s = .ok a) :
    ∃ r, s = writeUint w n ++ r ∧ (f ()).run r = .ok a := by
  obtain ⟨_, r, hn, hrest⟩ := Reader.bind_eq_ok h
  exact ⟨r, (readUint_eq_ok (readTag_eq_ok hn)).1, hrest⟩

end PgFusion.Wire

import PgFusion.Data.Bytes
import PgFusion.Wire.Values

/-!
Readers that accept nothing but what a writer writes: `Canonical x w p`.
-/

namespace PgFusion.Wire

open Bytes

variable {ε α β : Type}

/-- What is read is what is written, in both directions. -/
def Canonical (x : Reader ε α) (w : α → List UInt8) (p : α → Prop) : Prop :=
  ∀ s a r, x.run s = .ok (a, r) ↔ p a ∧ s = w a ++ r

/-- Two readers, one after the other. -/
lemma Reader.run_bind_eq_ok {x : Reader ε α} {f : α → Reader ε β} {s : List UInt8}
    {r : β × List UInt8} :
    (x >>= f).run s = .ok r ↔ ∃ a s', x.run s = .ok (a, s') ∧ (f a).run s' = .ok r := by
  constructor
  · exact Reader.bind_eq_ok
  · rintro ⟨a, s', hx, hf⟩
    rw [Reader.bind_ok hx, hf]

lemma run_require_eq_ok {c : Prop} [Decidable c] {e : ε} {s r : List UInt8} {u : Unit} :
    (require c e : Reader ε Unit).run s = .ok (u, r) ↔ c ∧ s = r := by
  rw [require]
  split_ifs with hc
  · rw [Reader.pure_eq_ok, Prod.mk.injEq]
    exact ⟨fun h => ⟨hc, h.2.symm⟩, fun h => ⟨rfl, h.2.symm⟩⟩
  · constructor
    · intro h
      cases h
    · exact fun h => absurd h.1 hc

/-- A number from the bytes that it was taken from. -/
lemma leBytes_ofLe (b : List UInt8) : leBytes b.length (ofLe b) = b := by
  induction b with
  | nil => rfl
  | cons c b ih =>
    have hc := c.toNat_lt
    have hmod : UInt8.ofNat (c.toNat + 256 * ofLe b) = c := by
      apply UInt8.toNat_inj.mp
      rw [UInt8.toNat_ofNat']
      omega
    have hdiv : (c.toNat + 256 * ofLe b) / 256 = ofLe b := by omega
    rw [List.length_cons, ofLe, leBytes, hmod, hdiv, ih]

namespace Canonical

variable {x : Reader ε α} {w : α → List UInt8} {p : α → Prop}

lemma takeOr (n : ℕ) (err : ℕ → ε) : Canonical (takeOr n err) id fun b => b.length = n := by
  intro s b r
  rw [run_takeOr]
  constructor
  · intro h
    split_ifs at h with hlt
    obtain ⟨rfl, rfl⟩ := Prod.mk.inj (Except.ok.inj h)
    exact ⟨List.length_take_of_le (not_lt.mp hlt), (List.take_append_drop n s).symm⟩
  · rintro ⟨rfl, rfl⟩
    rw [if_neg (by simp), id_eq, List.take_left, List.drop_left]

/-- A value that stands for another one. -/
lemma map (h : Canonical x w p) {g : α → β} {back : β → α} (hg : ∀ b, g (back b) = b)
    (hback : ∀ a, p a → back (g a) = a) :
    Canonical (g <$> x) (fun b => w (back b)) fun b => p (back b) := by
  intro s b r
  rw [map_eq_pure_bind, Reader.run_bind_eq_ok]
  constructor
  · rintro ⟨a, s', hx, hpure⟩
    obtain ⟨hp, rfl⟩ := (h _ _ _).mp hx
    obtain ⟨rfl, rfl⟩ := Prod.mk.inj (Reader.pure_eq_ok.mp hpure)
    dsimp only
    rw [hback a hp]
    exact ⟨hp, rfl⟩
  · rintro ⟨hp, rfl⟩
    exact ⟨back b, r, (h _ _ _).mpr ⟨hp, rfl⟩, Reader.pure_eq_ok.mpr (by rw [hg])⟩

/-- A number of `k` bytes. -/
lemma word (k : ℕ) (err : ℕ → ε) : Canonical (ofLe <$> Wire.takeOr k err) (leBytes k) fun n =>
    n < 256 ^ k := by
  intro s n r
  rw [map_eq_pure_bind, Reader.run_bind_eq_ok]
  constructor
  · rintro ⟨b, s', hx, hpure⟩
    obtain ⟨rfl, rfl⟩ := (takeOr k err _ _ _).mp hx
    obtain ⟨rfl, rfl⟩ := Prod.mk.inj (Reader.pure_eq_ok.mp hpure)
    exact ⟨ofLe_lt b, by rw [leBytes_ofLe]; rfl⟩
  · rintro ⟨hn, rfl⟩
    exact ⟨leBytes k n, r, (takeOr k err _ _ _).mpr ⟨length_leBytes k n, rfl⟩,
      Reader.pure_eq_ok.mpr (by rw [ofLe_leBytes hn])⟩

/-- So many values. -/
lemma many (h : Canonical x w p) (n : ℕ) :
    Canonical (x.many n) (fun as => as.flatMap w) fun as => as.length = n ∧ ∀ a ∈ as, p a := by
  induction n with
  | zero =>
    intro s as r
    rw [Reader.many, Reader.pure_eq_ok, Prod.mk.injEq]
    constructor
    · rintro ⟨rfl, rfl⟩
      exact ⟨⟨rfl, fun a ha => absurd ha List.not_mem_nil⟩, rfl⟩
    · rintro ⟨⟨hlen, -⟩, rfl⟩
      obtain rfl := List.length_eq_zero_iff.mp hlen
      exact ⟨rfl, rfl⟩
  | succ n ih =>
    intro s as r
    simp only [Reader.many, Reader.run_bind_eq_ok, Reader.pure_eq_ok, Prod.mk.injEq]
    constructor
    · rintro ⟨a, s', hx, as', s'', hrest, rfl, rfl⟩
      obtain ⟨ha, rfl⟩ := (h _ _ _).mp hx
      obtain ⟨⟨hlen, has⟩, rfl⟩ := (ih _ _ _).mp hrest
      refine ⟨⟨by rw [List.length_cons, hlen], List.forall_mem_cons.mpr ⟨ha, has⟩⟩, ?_⟩
      rw [List.flatMap_cons, List.append_assoc]
    · rintro ⟨⟨hlen, has⟩, rfl⟩
      obtain ⟨a, as', rfl⟩ := List.exists_cons_of_length_eq_add_one hlen
      obtain ⟨ha, has'⟩ := List.forall_mem_cons.mp has
      refine ⟨a, as'.flatMap w ++ r, (h _ _ _).mpr ⟨ha, ?_⟩, as', r,
        (ih _ _ _).mpr ⟨⟨Nat.succ.inj hlen, has'⟩, rfl⟩, rfl, rfl⟩
      rw [List.flatMap_cons, List.append_assoc]

end Canonical

/-- The bytes of the text that they stand for. -/
lemma utf8_of_ofUtf8 {b : List UInt8} {t : String} (h : ofUtf8 b = some t) : utf8 t = b := by
  rw [ofUtf8, String.fromUTF8?] at h
  split_ifs at h with hvalid
  obtain rfl := Option.some.inj h
  rfl

end PgFusion.Wire

import Mathlib.Tactic

/-!
The sinks that plans are encoded into (`page/plan_codec/src/lib.rs`): one counts its bytes, the
other keeps only the bytes of one window.
* `shows_write`: the window holds its part of what is written.
-/

namespace PgFusion.PlanCodec

/-- A write into a `BufMut`: `put_slice`, or `put`, which goes through the sink's scratch
buffer. -/
inductive Put where
  | slice (src : List UInt8)
  | buf (src : List UInt8)
deriving DecidableEq

/-- The bytes of a write. -/
def Put.src : Put → List UInt8
  | slice src => src
  | buf src => src

/-- The bytes of the writes of an encoder. -/
def bytes (w : List Put) : List UInt8 := w.flatMap Put.src

@[simp] lemma bytes_nil : bytes [] = [] := rfl

@[simp] lemma bytes_cons (p : Put) (w : List Put) : bytes (p :: w) = p.src ++ bytes w := by
  rw [bytes, bytes, List.flatMap_cons]

@[simp] lemma bytes_append (w w' : List Put) : bytes (w ++ w') = bytes w ++ bytes w' := by
  rw [bytes, bytes, bytes, List.flatMap_append]

/-- `BUF_SCRATCH_LEN`. -/
def bufScratchLen : ℕ := 64

/-! ### Counting -/

/-- `CountingBufMut`. The count saturates at `usize::MAX`, more than any encoder writes. -/
structure CountingBufMut where
  len : ℕ
deriving DecidableEq

namespace CountingBufMut

/-- `CountingBufMut::new`. -/
def new : CountingBufMut := ⟨0⟩

/-- Count `n` bytes: `advance_mut` and `put_slice`. -/
def count (s : CountingBufMut) (n : ℕ) : CountingBufMut := ⟨s.len + n⟩

/-- A source goes through the scratch buffer piece by piece. -/
def putBuf (s : CountingBufMut) (src : List UInt8) : CountingBufMut :=
  if _h : src = [] then s
  else putBuf (s.count (src.take bufScratchLen).length) (src.drop bufScratchLen)
termination_by src.length
decreasing_by
  have := List.length_pos_of_ne_nil _h
  rw [List.length_drop, bufScratchLen]
  omega

/-- A write. -/
def put (s : CountingBufMut) : Put → CountingBufMut
  | .slice src => s.count src.length
  | .buf src => s.putBuf src

lemma putBuf_len (s : CountingBufMut) (src : List UInt8) :
    (s.putBuf src).len = s.len + src.length := by
  induction s, src using putBuf.induct with
  | case1 s => simp [putBuf]
  | case2 s src h ih =>
    rw [putBuf, dif_neg h, ih, count, List.length_take, List.length_drop]
    dsimp only
    omega

lemma put_len (s : CountingBufMut) (p : Put) : (s.put p).len = s.len + p.src.length := by
  cases p with
  | slice src => rfl
  | buf src => exact s.putBuf_len src

end CountingBufMut

/-- `encoded_len_with`. -/
def encodedLen (w : List Put) : ℕ := (w.foldl CountingBufMut.put .new).len

lemma foldl_put_len (w : List Put) (s : CountingBufMut) :
    (w.foldl CountingBufMut.put s).len = s.len + (bytes w).length := by
  induction w generalizing s with
  | nil => rfl
  | cons p w ih =>
    rw [List.foldl_cons, ih, s.put_len, bytes_cons, List.length_append, Nat.add_assoc]

/-- The count of an encoder's bytes. -/
lemma encodedLen_eq (w : List Put) : encodedLen w = (bytes w).length := by
  rw [encodedLen, foldl_put_len, CountingBufMut.new, Nat.zero_add]

/-! ### A window of the output -/

/-- `OverlapBufMut`, without its scratch buffer. -/
structure OverlapBufMut where
  out : List UInt8
  skip : ℕ
  observed : ℕ
  written : ℕ
deriving DecidableEq

namespace OverlapBufMut

/-- `OverlapBufMut::new`. -/
def new (out : List UInt8) (skip : ℕ) : OverlapBufMut := ⟨out, skip, 0, 0⟩

/-- `observe_bytes`. -/
def observeBytes (s : OverlapBufMut) (src : List UInt8) : OverlapBufMut :=
  let start := s.observed
  let fin := start + src.length
  let s := { s with observed := fin }
  let windowStart := s.skip
  let windowEnd := s.skip + s.out.length
  if fin ≤ windowStart ∨ windowEnd ≤ start then s
  else
    let copyStart := windowStart - start
    let copyEnd := min src.length (windowEnd - start)
    if copyEnd ≤ copyStart then s
    else
      let dstStart := max start windowStart - windowStart
      let len := copyEnd - copyStart
      { s with
        out :=
          s.out.take dstStart ++ (src.take copyEnd).drop copyStart ++ s.out.drop (dstStart + len)
        written := s.written + len }

/-- A source goes through the scratch buffer piece by piece; `advance_mut` observes each. -/
def putBuf (s : OverlapBufMut) (src : List UInt8) : OverlapBufMut :=
  if _h : src = [] then s
  else putBuf (s.observeBytes (src.take bufScratchLen)) (src.drop bufScratchLen)
termination_by src.length
decreasing_by
  have := List.length_pos_of_ne_nil _h
  rw [List.length_drop, bufScratchLen]
  omega

/-- A write. -/
def put (s : OverlapBufMut) : Put → OverlapBufMut
  | .slice src => s.observeBytes src
  | .buf src => s.putBuf src

/-- The part of `b` in the window of `n` bytes from `k` on. -/
def window (k n : ℕ) (b : List UInt8) : List UInt8 := (b.drop k).take n

lemma length_window (k n : ℕ) (b : List UInt8) : (window k n b).length = min n (b.length - k) := by
  rw [window, List.length_take, List.length_drop]

/-- What a further piece adds to a window. -/
lemma window_append (k n : ℕ) (b src : List UInt8) : window k n (b ++ src) =
    window k n b ++ (src.take (min src.length (k + n - b.length))).drop (k - b.length) := by
  rw [window, window, List.drop_append, List.take_append, List.drop_take, List.length_drop,
    List.append_cancel_left_eq, List.take_eq_take_iff, List.length_drop]
  omega

/-- The sink has seen the bytes `b`, and its output `out₀` begins with those of them that lie
in its window. -/
structure Shows (out₀ : List UInt8) (k : ℕ) (s : OverlapBufMut) (b : List UInt8) : Prop where
  skip : s.skip = k
  observed : s.observed = b.length
  out : s.out = window k out₀.length b ++ out₀.drop (window k out₀.length b).length
  written : s.written = (window k out₀.length b).length

lemma shows_new (out₀ : List UInt8) (k : ℕ) : Shows out₀ k (new out₀ k) [] := by
  constructor <;> simp [new, window]

variable {out₀ b src : List UInt8} {k : ℕ} {s : OverlapBufMut}

lemma Shows.length_out (h : Shows out₀ k s b) : s.out.length = out₀.length := by
  rw [h.out, List.length_append, List.length_drop, length_window]
  omega

/-- A piece that lies outside of the window. -/
lemma Shows.outside (h : Shows out₀ k s b) (src : List UInt8)
    (hsrc : (src.take (min src.length (k + out₀.length - b.length))).drop (k - b.length) = []) :
    Shows out₀ k { s with observed := s.observed + src.length } (b ++ src) where
  skip := h.skip
  observed := by rw [List.length_append, h.observed]
  out := by rw [window_append, hsrc, List.append_nil, h.out]
  written := by rw [window_append, hsrc, List.append_nil, h.written]

/-- A piece more. -/
lemma Shows.observeBytes (h : Shows out₀ k s b) (src : List UInt8) :
    Shows out₀ k (s.observeBytes src) (b ++ src) := by
  have hlen := h.length_out
  simp only [OverlapBufMut.observeBytes, hlen, h.skip, h.observed]
  split
  · next hout =>
      have := h.outside src (List.drop_eq_nil_of_le (by rw [List.length_take]; omega))
      rwa [h.observed, h.skip] at this
  · next hin =>
      split
      · next hempty =>
          have := h.outside src (List.drop_eq_nil_of_le (by rw [List.length_take]; omega))
          rwa [h.observed, h.skip] at this
      · next hcopy =>
          -- the piece goes on where the window's bytes end
          have hdst : max b.length k - k = (window k out₀.length b).length := by
            rw [length_window]
            omega
          have hpiece : ((src.take (min src.length (k + out₀.length - b.length))).drop
              (k - b.length)).length = min src.length (k + out₀.length - b.length)
                - (k - b.length) := by
            rw [List.length_drop, List.length_take]
            omega
          constructor
          · rfl
          · exact List.length_append.symm
          · rw [hdst, window_append, h.out, List.take_left, List.length_append, hpiece,
              List.drop_append, List.drop_eq_nil_of_le (Nat.le_add_right _ _), List.nil_append,
              Nat.add_sub_cancel_left, List.drop_drop]
          · rw [window_append, List.length_append, hpiece, h.written]

lemma Shows.putBuf (h : Shows out₀ k s b) : Shows out₀ k (s.putBuf src) (b ++ src) := by
  induction s, src using putBuf.induct generalizing b with
  | case1 s => simpa [OverlapBufMut.putBuf] using h
  | case2 s src hne ih =>
    rw [OverlapBufMut.putBuf, dif_neg hne]
    have := ih (h.observeBytes (src.take bufScratchLen))
    rwa [List.append_assoc, List.take_append_drop] at this

lemma Shows.put (h : Shows out₀ k s b) (p : Put) : Shows out₀ k (s.put p) (b ++ p.src) := by
  cases p with
  | slice src => exact h.observeBytes src
  | buf src => exact h.putBuf

/-- **An encoder shows its window**: however it cuts its bytes into writes. -/
lemma shows_write (h : Shows out₀ k s b) (w : List Put) :
    Shows out₀ k (w.foldl OverlapBufMut.put s) (b ++ bytes w) := by
  induction w generalizing s b with
  | nil => rwa [bytes_nil, List.append_nil]
  | cons p w ih =>
    have := ih (h.put p)
    rwa [List.append_assoc, ← bytes_cons] at this

end OverlapBufMut

end PgFusion.PlanCodec

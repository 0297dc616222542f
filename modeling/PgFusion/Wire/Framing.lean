import PgFusion.Wire.Msgpack

/-!
Frames of one fixed size, cut out of a stream that arrives in chunks. The stream is what is buffered
and what the chunk still holds; each call moves all of it to the buffer, or cuts off one frame.
* `Codec.pushAll_stream`: a stream decodes to its frames, however it is cut.
-/

namespace PgFusion.Wire

/-- A decoder of frames of a fixed size. -/
structure Codec (ε φ : Type) where
  size : ℕ
  size_pos : 0 < size
  decode : List UInt8 → Except ε φ

/-- The buffer for one partial frame: its first `filled` bytes are the frame's. -/
structure FrameDecoder (n : ℕ) where
  header : List UInt8
  filled : ℕ
  header_len : header.length = n
  filled_lt : filled < n

/-- `FrameDecoder::new`. -/
def FrameDecoder.new {n : ℕ} (h : 0 < n) : FrameDecoder n where
  header := List.replicate n 0
  filled := 0
  header_len := List.length_replicate
  filled_lt := h

/-- `FrameDecoder::buffered_len`. -/
def FrameDecoder.bufferedLen {n : ℕ} (d : FrameDecoder n) : ℕ := d.filled

/-- The buffered bytes of the next frame. -/
def FrameDecoder.pending {n : ℕ} (d : FrameDecoder n) : List UInt8 := d.header.take d.filled

/-- The frames of one chunk that are still to be decoded. -/
structure FrameIter (n : ℕ) where
  decoder : FrameDecoder n
  input : List UInt8
  done : Bool

/-- `FrameDecoder::push`. -/
def FrameDecoder.push {n : ℕ} (d : FrameDecoder n) (bytes : List UInt8) : FrameIter n :=
  { decoder := d, input := bytes, done := false }

namespace Codec

variable {ε φ : Type} (C : Codec ε φ)

/-- The buffer after copying `copied` bytes of the input into it. -/
def fillHeader (d : FrameDecoder C.size) (input : List UInt8) (copied : ℕ) : List UInt8 :=
  d.header.take d.filled ++ input.take copied ++ d.header.drop (d.filled + copied)

lemma length_fillHeader {d : FrameDecoder C.size} {input : List UInt8} {copied : ℕ}
    (hin : copied ≤ input.length) (hfit : d.filled + copied ≤ C.size) :
    (C.fillHeader d input copied).length = C.size := by
  have hlen := d.header_len
  have hlt := d.filled_lt
  simp only [fillHeader, List.length_append, List.length_take, List.length_drop]
  omega

/-- `decode_next`: the frame, if the chunk completes one, the decoder and the rest of the
chunk. -/
def decodeNext (d : FrameDecoder C.size) (input : List UInt8) :
    Except ε (Option φ) × FrameDecoder C.size × List UInt8 :=
  if d.filled = 0 ∧ C.size ≤ input.length then
    ((C.decode (input.take C.size)).map some, d, input.drop C.size)
  else if input = [] then (.ok none, d, input)
  else
    let copied := min (C.size - d.filled) input.length
    let header := C.fillHeader d input copied
    have hlen : header.length = C.size := by
      have := d.filled_lt
      exact C.length_fillHeader (by omega) (by omega)
    if h : d.filled + copied < C.size then
      (.ok none, ⟨header, d.filled + copied, hlen, h⟩, input.drop copied)
    else ((C.decode header).map some, ⟨header, 0, hlen, C.size_pos⟩, input.drop copied)

/-- `FrameIter::next`. -/
def next (it : FrameIter C.size) : Option (Except ε φ) × FrameIter C.size :=
  if it.done then (none, it)
  else match C.decodeNext it.decoder it.input with
    | (.ok (some frame), d, rest) => (some (.ok frame), { it with decoder := d, input := rest })
    | (.ok none, d, rest) => (none, { decoder := d, input := rest, done := true })
    | (.error err, d, rest) => (some (.error err), { decoder := d, input := rest, done := true })

/-! ### One call -/

/-- **One call of `decode_next`.** The stream is what is buffered and what the chunk still
holds. Either the call buffers all of it, or it cuts off the bytes of one frame, decodes
them and leaves the buffer empty. -/
lemma decodeNext_cases (d : FrameDecoder C.size) (input : List UInt8) :
    (∃ d', C.decodeNext d input = (.ok none, d', []) ∧ d'.pending = d.pending ++ input) ∨
      ∃ b d' rest, C.decodeNext d input = ((C.decode b).map some, d', rest) ∧
        d.pending ++ input = b ++ rest ∧ b.length = C.size ∧ d'.pending = [] ∧
        rest.length < input.length := by
  have hlt := d.filled_lt
  have hlen := d.header_len
  have hpos := C.size_pos
  rw [decodeNext]
  split
  · next h =>
      refine Or.inr ⟨_, d, _, rfl, ?_, by rw [List.length_take]; omega, ?_, ?_⟩
      · rw [FrameDecoder.pending, h.1, List.take_zero, List.nil_append, List.take_append_drop]
      · rw [FrameDecoder.pending, h.1, List.take_zero]
      · rw [List.length_drop]
        omega
  · next h =>
      split
      · next hnil => exact Or.inl ⟨d, by rw [hnil], by rw [hnil, List.append_nil]⟩
      · next hnil =>
          have hin : 0 < input.length := List.length_pos_of_ne_nil hnil
          have htake : (d.header.take d.filled).length = d.filled := by
            rw [List.length_take]
            omega
          dsimp only
          split
          · next hshort =>
              -- the chunk ends before the frame does
              have hall : min (C.size - d.filled) input.length = input.length := by omega
              refine Or.inl ⟨_, by rw [List.drop_eq_nil_of_le (by omega)], ?_⟩
              simp only [FrameDecoder.pending, fillHeader, hall, List.take_length]
              exact List.take_left' (by rw [List.length_append, htake])
          · next hfull =>
              have hneed : min (C.size - d.filled) input.length = C.size - d.filled := by omega
              refine Or.inr ⟨_, _, _, rfl, ?_, C.length_fillHeader (by omega) (by omega), ?_, ?_⟩
              · rw [fillHeader, hneed, List.drop_eq_nil_of_le (by omega), List.append_nil,
                  List.append_assoc, List.take_append_drop, FrameDecoder.pending]
              · rw [FrameDecoder.pending, List.take_zero]
              · rw [List.length_drop]
                omega

/-- A step of the iterator that yields an item takes bytes of the chunk or is the last. -/
lemma next_lt {it it' : FrameIter C.size} {item : Except ε φ} (h : C.next it = (some item, it')) :
    (if it'.done then 0 else it'.input.length + 1) < if it.done then 0
      else it.input.length + 1 := by
  rw [next] at h
  split at h
  · cases h
  · next hdone =>
      rw [if_neg hdone]
      rcases C.decodeNext_cases it.decoder it.input with ⟨d', heq, -⟩ | ⟨b, d', rest, heq, -,
        -, -, hlt⟩
      · rw [heq] at h
        cases h
      · rw [heq] at h
        cases hdec : C.decode b with
        | error e =>
          simp only [hdec, Except.map] at h
          obtain ⟨-, rfl⟩ := Prod.mk.inj h
          simp
        | ok f =>
          simp only [hdec, Except.map] at h
          obtain ⟨-, rfl⟩ := Prod.mk.inj h
          rw [if_neg hdone]
          exact Nat.succ_lt_succ hlt

/-- The items of an iterator to its end, and the decoder that is left. -/
def drain (it : FrameIter C.size) : List (Except ε φ) × FrameDecoder C.size :=
  match _h : C.next it with
  | (none, it') => ([], it'.decoder)
  | (some item, it') =>
    let r := drain it'
    (item :: r.1, r.2)
termination_by if it.done then 0 else it.input.length + 1
decreasing_by exact C.next_lt _h

/-- Push chunks one by one, each drained before the next. -/
def pushAll (d : FrameDecoder C.size) : List (List UInt8) → List (Except ε φ) × FrameDecoder C.size
  | [] => ([], d)
  | c :: chunks =>
    let r := C.drain (d.push c)
    let r' := pushAll r.2 chunks
    (r.1 ++ r'.1, r'.2)

/-! ### A stream of encoded frames -/

section Stream

variable {C} {enc : φ → List UInt8}

/-- Draining a chunk whose frame is only begun. -/
lemma drain_none {d d' : FrameDecoder C.size} {input : List UInt8}
    (h : C.decodeNext d input = (.ok none, d', [])) : C.drain (d.push input) = ([], d') := by
  have hnext : C.next (d.push input) = (none, { decoder := d', input := [], done := true }) := by
    simp [next, FrameDecoder.push, h]
  rw [drain]
  split
  · next it' heq => rw [hnext] at heq; obtain ⟨-, rfl⟩ := Prod.mk.inj heq; rfl
  · next heq => rw [hnext] at heq; cases heq

/-- Draining a chunk that completes a frame. -/
lemma drain_some {d d' : FrameDecoder C.size} {input rest : List UInt8} {f : φ}
    (h : C.decodeNext d input = (.ok (some f), d', rest)) :
    C.drain (d.push input) = (.ok f :: (C.drain (d'.push rest)).1, (C.drain (d'.push rest)).2) := by
  have hnext : C.next (d.push input) = (some (.ok f), d'.push rest) := by
    simp [next, FrameDecoder.push, h]
  rw [drain]
  split
  · next heq => rw [hnext] at heq; cases heq
  · next item it' heq =>
      rw [hnext] at heq
      obtain ⟨hitem, rfl⟩ := Prod.mk.inj heq
      obtain rfl := Option.some.inj hitem
      rfl

/-- Draining one chunk of a stream of encoded frames yields the frames that end in it. -/
lemma drain_stream {fs : List φ}
    (henc : ∀ f ∈ fs, (enc f).length = C.size ∧ C.decode (enc f) = .ok f)
    {d : FrameDecoder C.size} {input rest : List UInt8}
    (hstream : d.pending ++ input ++ rest = (fs.map enc).flatten) :
    ∃ fs₁ fs₂ d', fs = fs₁ ++ fs₂ ∧ C.drain (d.push input) = (fs₁.map .ok, d') ∧
      d'.pending ++ rest = (fs₂.map enc).flatten := by
  -- on the frames of the stream: each call cuts off the first one
  induction fs generalizing d input with
  | nil =>
    rcases C.decodeNext_cases d input with ⟨d', heq, hp⟩ | ⟨b, d', r, heq, hsplit, hb, -, -⟩
    · exact ⟨[], [], d', rfl, drain_none heq, by rw [hp]; exact hstream⟩
    · have hpos := C.size_pos
      have hlen := congrArg List.length hstream
      rw [hsplit] at hlen
      simp only [List.length_append, List.map_nil, List.flatten_nil, List.length_nil] at hlen
      omega
  | cons f fs ih =>
    obtain ⟨hf, hfs⟩ := List.forall_mem_cons.mp henc
    rcases C.decodeNext_cases d input with ⟨d', heq, hp⟩ | ⟨b, d', r, heq, hsplit, hb, hp, -⟩
    · exact ⟨[], f :: fs, d', rfl, drain_none heq, by rw [hp]; exact hstream⟩
    · rw [hsplit, List.map_cons, List.flatten_cons, List.append_assoc] at hstream
      obtain ⟨rfl, hrest⟩ := List.append_inj hstream (by rw [hb, hf.1])
      rw [hf.2] at heq
      obtain ⟨fs₁, fs₂, d'', hfs', hdrain, hp'⟩ := ih hfs (by rw [hp, List.nil_append]; exact hrest)
      refine ⟨f :: fs₁, fs₂, d'', by rw [hfs', List.cons_append], ?_, hp'⟩
      rw [drain_some heq, hdrain, List.map_cons]

/-- **However a stream of encoded frames is cut into chunks, it decodes to those frames**,
and nothing stays in the buffer. -/
lemma pushAll_stream {fs : List φ}
    (henc : ∀ f ∈ fs, (enc f).length = C.size ∧ C.decode (enc f) = .ok f)
    {d : FrameDecoder C.size} {chunks : List (List UInt8)}
    (hstream : d.pending ++ chunks.flatten = (fs.map enc).flatten) :
    (C.pushAll d chunks).1 = fs.map .ok ∧ (C.pushAll d chunks).2.bufferedLen = 0 := by
  induction chunks generalizing d fs with
  | nil =>
    -- what is buffered is shorter than a frame, so no frame is left
    rw [List.flatten_nil, List.append_nil] at hstream
    have hlt := d.filled_lt
    have hlen := d.header_len
    have hp := congrArg List.length hstream
    rw [FrameDecoder.pending, List.length_take] at hp
    cases fs with
    | nil =>
      refine ⟨rfl, ?_⟩
      rw [List.map_nil, List.flatten_nil, List.length_nil] at hp
      show d.filled = 0
      omega
    | cons f fs =>
      rw [List.map_cons, List.flatten_cons, List.length_append, (henc f List.mem_cons_self).1] at hp
      omega
  | cons c chunks ih =>
    rw [List.flatten_cons, ← List.append_assoc] at hstream
    obtain ⟨fs₁, fs₂, d', rfl, hdrain, hp⟩ := drain_stream henc hstream
    obtain ⟨hitems, hleft⟩ := ih (fun f hf => henc f (List.mem_append_right _ hf)) hp
    simp only [pushAll, hdrain]
    exact ⟨by rw [hitems, List.map_append], hleft⟩

end Stream

end Codec

/-! ### Encoders -/

/-- Write pieces one after the other into a window of `n` bytes that they must fill. `fail` takes
the number of bytes that are left: none when a piece does not fit. -/
def writeFields {ε : Type} (n : ℕ) (fail : ℕ → ε) (fields : List (List UInt8)) :
    Except ε (List UInt8) := do
  let written ← fields.foldlM
    (fun w f => if w.length + f.length ≤ n then .ok (w ++ f) else .error (fail 0)) []
  if written.length ≠ n then .error (fail (n - written.length)) else .ok written

lemma foldlM_write {ε : Type} {n : ℕ} {fail : ℕ → ε} {fields : List (List UInt8)} {w : List UInt8}
    (h : w.length + fields.flatten.length ≤ n) :
    fields.foldlM (fun w f => if w.length + f.length ≤ n then Except.ok (w ++ f)
      else Except.error (fail 0)) w = .ok (w ++ fields.flatten) := by
  induction fields generalizing w with
  | nil => simp [pure, Except.pure]
  | cons f fields ih =>
    rw [List.flatten_cons, List.length_append] at h
    rw [List.foldlM_cons, if_pos (by omega)]
    simp only [bind, Except.bind]
    rw [ih (by rw [List.length_append]; omega), List.append_assoc, List.flatten_cons]

/-- Pieces that fill the window are written. -/
lemma writeFields_eq {ε : Type} {n : ℕ} {fail : ℕ → ε} {fields : List (List UInt8)}
    (h : fields.flatten.length = n) : writeFields n fail fields = .ok fields.flatten := by
  rw [writeFields, foldlM_write (by rw [List.length_nil]; omega)]
  simp [bind, Except.bind, h]

/-- An encoder that never fails encodes a list of frames. -/
lemma mapM_encode {φ ε : Type} {encode : φ → Except ε (List UInt8)} {enc : φ → List UInt8}
    (h : ∀ f, encode f = .ok (enc f)) (fs : List φ) : fs.mapM encode = .ok (fs.map enc) := by
  induction fs with
  | nil => rfl
  | cons f fs ih => simp [List.mapM_cons, h, ih, bind, Except.bind, pure, Except.pure]

end PgFusion.Wire

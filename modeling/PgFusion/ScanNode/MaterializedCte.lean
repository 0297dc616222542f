import Mathlib.Tactic
import PgFusion.Data.Fallible

/-!
Readers of a materialized common table expression (`pg/scan_node`: `cte.rs`), around one result
behind a lock. A poll is cut into single deliveries of the input, and a reader may be dropped.

* `Good.step`, `Good.run`: what holds after every event;
* `computed_once_and_read_alike`: the input is computed once, and all readers read the same.
-/

namespace PgFusion.ScanNode

open Fallible

variable {α : Type}

/-! ### Batches -/

/-- A field of a schema; a data type is given by its name. -/
structure Field where
  name : String
  dataType : String
  nullable : Bool
deriving DecidableEq

/-- A row under a schema: as many cells, and no null in a field that has none. -/
def RowFits (fields : List Field) (row : List (Option α)) : Prop :=
  List.Forall₂ (fun field cell => field.nullable = false → cell.isSome = true) fields row

instance (fields : List Field) (row : List (Option α)) : Decidable (RowFits fields row) :=
  inferInstanceAs (Decidable (List.Forall₂ _ _ _))

/-- `RecordBatch`, by its rows. -/
structure RecordBatch (α : Type) where
  fields : List Field
  rows : List (List (Option α))
  fits : ∀ row ∈ rows, RowFits fields row

/-- What a `CteScanExec` is asked for. -/
structure CteReader where
  outputSchema : List Field
  projection : Option (List ℕ)
  fetch : Option ℕ

/-- The places of a list, as far as they exist. -/
def select {β : Type} (projection : List ℕ) (items : List β) : List β :=
  projection.filterMap (items[·]?)

/-- Arrow's functions on batches: `RecordBatch::project`, `RecordBatch::slice` from the first row,
and `RecordBatch::try_new_with_options` with another schema. -/
class Arrow (α : Type) where
  project : RecordBatch α → List ℕ → Except String (RecordBatch α)
  slice : RecordBatch α → ℕ → RecordBatch α
  tryNew : List Field → RecordBatch α → Except String (RecordBatch α)

/-- What is assumed of them: columns that exist are projected, a slice has the first rows, and a
schema of the same types that allows the nulls is taken. -/
class LawfulArrow (α : Type) [Arrow α] : Prop where
  project_ok : ∀ (batch : RecordBatch α) projection, (∀ i ∈ projection, i < batch.fields.length) →
    ∃ out, Arrow.project batch projection = .ok out ∧ out.fields = select projection batch.fields ∧
      out.rows = batch.rows.map (select projection)
  slice_eq : ∀ (batch : RecordBatch α) length,
    (Arrow.slice batch length).fields = batch.fields ∧
      (Arrow.slice batch length).rows = batch.rows.take length
  tryNew_ok : ∀ outputSchema (batch : RecordBatch α),
    batch.fields.map Field.dataType = outputSchema.map Field.dataType →
    (∀ row ∈ batch.rows, RowFits outputSchema row) →
    ∃ out, Arrow.tryNew outputSchema batch = .ok out ∧ out.rows = batch.rows

/-- `batch_with_output_schema`. -/
def batchWithOutputSchema [Arrow α] (batch : RecordBatch α) (outputSchema : List Field) :
    Except String (RecordBatch α) :=
  if batch.fields = outputSchema then .ok batch
  else if batch.fields.length ≠ outputSchema.length then
    .error (s!"CteScanExec output schema has {outputSchema.length} columns but batch has " ++
      s!"{batch.fields.length} columns")
  else
    match (batch.fields.zip outputSchema).zipIdx.find? fun p => p.1.1.dataType ≠ p.1.2.dataType with
    | some ((input, output), index) => .error (s!"CteScanExec output schema column {index} type " ++
        output.dataType ++ " does not match batch type " ++ input.dataType)
    | none => Arrow.tryNew outputSchema batch

/-- The projection of a reader. -/
def CteReader.project [Arrow α] (reader : CteReader) (batch : RecordBatch α) :
    Except String (RecordBatch α) :=
  match reader.projection with
  | some projection => Arrow.project batch projection
  | none => .ok batch

/-- `project_and_slice_batch`, with what remains of the limit. -/
def projectAndSliceBatch [Arrow α] (reader : CteReader) (batch : RecordBatch α)
    (remaining : Option ℕ) :
    Except String (Option (RecordBatch α) × Option ℕ) :=
  if batch.rows.length = 0 then .ok (none, remaining)
  else do
    let projected ← reader.project batch
    match remaining with
    | none => return (some (← batchWithOutputSchema projected reader.outputSchema), none)
    | some 0 => return (none, some 0)
    | some rows =>
      let (sliced, rows) :=
        if rows < projected.rows.length then (Arrow.slice projected rows, 0)
        else (projected, rows - projected.rows.length)
      return (some (← batchWithOutputSchema sliced reader.outputSchema), some rows)

/-- `emit_next_batch`, over the batches from the index on. -/
def emitNextBatch [Arrow α] (reader : CteReader) :
    List (RecordBatch α) → Option ℕ →
      Except String (Option (RecordBatch α × List (RecordBatch α) × Option ℕ))
  | [], _ => .ok none
  | batch :: rest, remaining =>
    if remaining = some 0 then .ok none
    else
      match projectAndSliceBatch reader batch remaining with
      | .error e => .error e
      | .ok (none, remaining) => emitNextBatch reader rest remaining
      | .ok (some out, remaining) => .ok (some (out, rest, remaining))

/-! ### Readers around one result -/

/-- `MaterializedCteResult`. -/
inductive MaterializedCteResult (α : Type) where
  | ready (batches : List (RecordBatch α))
  | failed (message : String)

/-- Where a reader is; `computing` holds the lock. -/
inductive Phase (α : Type) where
  | needBatches
  | computing (collected : List (RecordBatch α))
  | emit (rest : List (RecordBatch α)) (remaining : Option ℕ)
  | finished
  | failed (message : String)
  | dropped

/-- A reader's phase and what it has returned. -/
structure ReaderState (α : Type) where
  phase : Phase α
  output : List (RecordBatch α)

/-- The shared `MaterializedCteState` with the readers around it, the number of executions of the
input and what the last one has delivered. -/
structure System (ι α : Type) where
  result : Option (MaterializedCteResult α)
  lock : Option ι
  executions : ℕ
  input : List (RecordBatch α)
  readers : ι → ReaderState α

/-- What happens next: a reader without batches is polled, with the error of `execute` if there is
one; the input of the reader that computes delivers; a reader with batches is polled; a reader is
dropped. -/
inductive Event (ι α : Type) where
  | poll (i : ι) (executeError : Option String)
  | batch (i : ι) (batch : RecordBatch α)
  | inputError (i : ι) (message : String)
  | inputEnd (i : ι)
  | next (i : ι)
  | drop (i : ι)

variable {ι : Type} [DecidableEq ι]

/-- All readers before their first poll. -/
def start (ι α : Type) : System ι α := ⟨none, none, 0, [], fun _ => ⟨.needBatches, []⟩⟩

/-- Another phase for one reader. -/
def System.move (s : System ι α) (i : ι) (phase : Phase α) : System ι α :=
  { s with readers := Function.update s.readers i { s.readers i with phase := phase } }

/-- A batch from one reader. -/
def System.give (s : System ι α) (i : ι) (batch : RecordBatch α) (phase : Phase α) : System ι α :=
  { s with readers := Function.update s.readers i ⟨phase, (s.readers i).output ++ [batch]⟩ }

/-- `get_or_compute` up to the first wait for the input. -/
def getOrCompute (configs : ι → CteReader) (s : System ι α) (i : ι) (executeError : Option String) :
    System ι α :=
  match s.result with
  | some (.ready batches) => s.move i (.emit batches (configs i).fetch)
  | some (.failed message) => s.move i (.failed message)
  | none =>
    match executeError with
    | some message =>
      { s.move i (.failed message) with
        result := some (.failed message), executions := s.executions + 1, input := [] }
    | none =>
      { s.move i (.computing []) with lock := some i, executions := s.executions + 1, input := [] }

/-- One event. What cannot happen in a state changes nothing. -/
def step [Arrow α] (configs : ι → CteReader) (s : System ι α) : Event ι α → System ι α
  | .poll i executeError =>
    match (s.readers i).phase, s.lock with
    | .needBatches, none => getOrCompute configs s i executeError
    | _, _ => s
  | .batch i batch =>
    match (s.readers i).phase with
    | .computing collected =>
      { s.move i (.computing (collected ++ [batch])) with input := s.input ++ [batch] }
    | _ => s
  | .inputError i message =>
    match (s.readers i).phase with
    | .computing _ =>
      { s.move i (.failed message) with result := some (.failed message), lock := none }
    | _ => s
  | .inputEnd i =>
    match (s.readers i).phase with
    | .computing collected =>
      { s.move i (.emit collected (configs i).fetch) with
        result := some (.ready collected), lock := none }
    | _ => s
  | .next i =>
    match (s.readers i).phase with
    | .emit rest remaining =>
      match emitNextBatch (configs i) rest remaining with
      | .error message => s.move i (.failed message)
      | .ok none => s.move i .finished
      | .ok (some (batch, rest, remaining)) =>
        s.give i batch (.emit rest remaining)
    | _ => s
  | .drop i => { s.move i .dropped with lock := if s.lock = some i then none else s.lock }

/-- A run from the start. -/
def run [Arrow α] (configs : ι → CteReader) (events : List (Event ι α)) : System ι α :=
  events.foldl (step configs) (start ι α)

/-- No reader is dropped while it computes. -/
def Kept [Arrow α] (configs : ι → CteReader) : System ι α → List (Event ι α) → Prop
  | _, [] => True
  | s, event :: events =>
    (∀ i, event = .drop i → s.lock ≠ some i) ∧ Kept configs (step configs s event) events

/-! ### What a reader returns -/

/-- A limit of rows. -/
def limited {β : Type} : Option ℕ → List β → List β
  | some n, rows => rows.take n
  | none, rows => rows

/-- The cells of a row, or the fields of a schema, as a reader sees them. -/
def CteReader.view {β : Type} (reader : CteReader) (items : List β) : List β :=
  match reader.projection with
  | some projection => select projection items
  | none => items

/-- The rows of batches, as a reader sees them. -/
def CteReader.rows (reader : CteReader) (batches : List (RecordBatch α)) : List (List (Option α)) :=
  (batches.flatMap (·.rows)).map reader.view

/-- The reader's projection and schema are made for such a batch. -/
structure Fits (reader : CteReader) (batch : RecordBatch α) : Prop where
  inRange : ∀ projection ∈ reader.projection, ∀ i ∈ projection, i < batch.fields.length
  types : (reader.view batch.fields).map Field.dataType = reader.outputSchema.map Field.dataType
  nulls : ∀ row ∈ batch.rows, RowFits reader.outputSchema (reader.view row)

lemma map_eq_of_mem_zip {β γ : Type} {f : β → γ} {l l' : List β} (h : l.map f = l'.map f) :
    ∀ p ∈ l.zip l', f p.1 = f p.2 := by
  induction l generalizing l' with
  | nil => exact fun p hp => absurd hp List.not_mem_nil
  | cons b l ih =>
    cases l' with
    | nil => cases h
    | cons b' l' =>
      obtain ⟨hhead, htail⟩ := List.cons.inj h
      intro p hp
      rcases List.mem_cons.mp hp with rfl | hp
      · exact hhead
      · exact ih htail p hp

section Emit

variable [Arrow α] [LawfulArrow α]

lemma batchWithOutputSchema_of_fits {batch : RecordBatch α} {outputSchema : List Field}
    (htypes : batch.fields.map Field.dataType = outputSchema.map Field.dataType)
    (hnulls : ∀ row ∈ batch.rows, RowFits outputSchema row) :
    ∃ out, batchWithOutputSchema batch outputSchema = .ok out ∧ out.rows = batch.rows := by
  have hlength : batch.fields.length = outputSchema.length := by
    rw [← List.length_map Field.dataType, htypes, List.length_map]
  have hfind : ((batch.fields.zip outputSchema).zipIdx.find? fun p => p.1.1.dataType ≠
    p.1.2.dataType) = none := by
    rw [List.find?_eq_none]
    intro p hp
    rw [decide_eq_true_eq, not_not]
    exact map_eq_of_mem_zip htypes _ (List.fst_mem_of_mem_zipIdx hp)
  rw [batchWithOutputSchema]
  by_cases hsame : batch.fields = outputSchema
  · exact ⟨batch, if_pos hsame, rfl⟩
  · rw [if_neg hsame, if_neg (not_not.mpr hlength), hfind]
    exact LawfulArrow.tryNew_ok outputSchema batch htypes hnulls

/-- The batch that the reader sees before the limit. -/
lemma Fits.project {reader : CteReader} {batch : RecordBatch α} (h : Fits reader batch) :
    ∃ out, reader.project batch = .ok out ∧ out.fields = reader.view batch.fields ∧
      out.rows = batch.rows.map reader.view := by
  obtain ⟨outputSchema, projection, fetch⟩ := reader
  cases projection with
  | none => exact ⟨batch, rfl, rfl, (List.map_id _).symm⟩
  | some projection => exact LawfulArrow.project_ok batch projection (h.inRange projection rfl)

/-- A batch that is not empty gives its rows up to the limit. -/
lemma Fits.projectAndSliceBatch {reader : CteReader} {batch : RecordBatch α} (h : Fits reader batch)
    (hrows : batch.rows ≠ []) {remaining : Option ℕ} (hremaining : remaining ≠ some 0) :
    ∃ out remaining', projectAndSliceBatch reader batch remaining = .ok (some out, remaining') ∧
      out.rows ≠ [] ∧
      ∀ more : List (List (Option α)), limited remaining (batch.rows.map reader.view ++ more) =
        out.rows ++ limited remaining' more := by
  obtain ⟨projected, hproject, hfields, hprojected⟩ := h.project
  have hne : projected.rows ≠ [] := by
    rw [hprojected]
    exact fun hnil => hrows (List.map_eq_nil_iff.mp hnil)
  have hnulls : ∀ row ∈ projected.rows, RowFits reader.outputSchema row := by
    rw [hprojected, List.forall_mem_map]
    exact h.nulls
  have htypes : projected.fields.map Field.dataType = reader.outputSchema.map Field.dataType := by
    rw [hfields, h.types]
  rw [ScanNode.projectAndSliceBatch, if_neg fun h => hrows (List.length_eq_zero_iff.mp h),
    hproject, ok_bind, ← hprojected]
  match remaining, hremaining with
  | none, _ =>
    obtain ⟨out, hout, houtRows⟩ := batchWithOutputSchema_of_fits htypes hnulls
    refine ⟨out, none, by rw [hout]; rfl, houtRows ▸ hne, fun more => ?_⟩
    rw [houtRows]
    rfl
  | some (k + 1), _ =>
    by_cases hslice : k + 1 < projected.rows.length
    · obtain ⟨hsliceFields, hsliceRows⟩ := LawfulArrow.slice_eq projected (k + 1)
      obtain ⟨out, hout, houtRows⟩ := batchWithOutputSchema_of_fits (hsliceFields ▸ htypes)
        fun row hrow => hnulls row (List.mem_of_mem_take (hsliceRows ▸ hrow))
      have htake : out.rows = projected.rows.take (k + 1) := houtRows.trans hsliceRows
      refine ⟨out, some 0, ?_, ?_, fun more => ?_⟩
      · simp only [if_pos hslice, hout]
        rfl
      · rw [htake]
        exact fun hnil => hne ((List.take_eq_nil_iff.mp hnil).resolve_left (Nat.succ_ne_zero k))
      · rw [htake, limited, List.take_append_of_le_length hslice.le]
        exact (List.append_nil _).symm
    · obtain ⟨out, hout, houtRows⟩ := batchWithOutputSchema_of_fits htypes hnulls
      refine ⟨out, some (k + 1 - projected.rows.length), ?_, houtRows ▸ hne, fun more => ?_⟩
      · simp only [if_neg hslice, hout]
        rfl
      · rw [houtRows, limited, List.take_append, List.take_of_length_le (not_lt.mp hslice)]
        rfl

/-- **One batch more**: what is left is cut into what is returned and what is left then. -/
lemma emitNextBatch_spec {reader : CteReader} {rest : List (RecordBatch α)}
    (hfits : ∀ batch ∈ rest, Fits reader batch) (remaining : Option ℕ) :
    (emitNextBatch reader rest remaining = .ok none ∧ limited remaining (reader.rows rest) = []) ∨
      ∃ out rest' remaining', emitNextBatch reader rest remaining =
        .ok (some (out, rest', remaining')) ∧ out.rows ≠ [] ∧ rest' ⊆ rest ∧
        limited remaining (reader.rows rest) = out.rows ++
          limited remaining' (reader.rows rest') := by
  induction rest with
  | nil => exact .inl ⟨rfl, by cases remaining <;> simp [limited, CteReader.rows]⟩
  | cons batch rest ih =>
    by_cases hzero : remaining = some 0
    · refine .inl ⟨if_pos hzero, ?_⟩
      rw [hzero, limited, List.take_zero]
    · have hcons : reader.rows (batch :: rest) = batch.rows.map reader.view ++
        reader.rows rest := by
        rw [CteReader.rows, List.flatMap_cons, List.map_append]
        rfl
      rw [emitNextBatch, if_neg hzero]
      by_cases hrows : batch.rows = []
      · rw [ScanNode.projectAndSliceBatch, if_pos (List.length_eq_zero_iff.mpr hrows), hcons, hrows]
        obtain h | ⟨out, rest', remaining', hemit, hne, hsub, hcut⟩ :=
          ih fun b hb => hfits b (List.mem_cons_of_mem _ hb)
        · exact .inl h
        · exact .inr ⟨out, rest', remaining', hemit, hne, List.subset_cons_of_subset _ hsub, hcut⟩
      · obtain ⟨out, remaining', hslice, hne, hcut⟩ :=
          (hfits batch List.mem_cons_self).projectAndSliceBatch hrows hzero
        rw [hslice]
        refine .inr ⟨out, rest, remaining', rfl, hne, List.subset_cons_self _ _, ?_⟩
        rw [hcons, hcut]

end Emit

/-! ### Every state -/

/-- What a reader has returned and what it has yet to return are its share of the input. -/
structure Share (reader : CteReader) (input : List (RecordBatch α)) (output : List (RecordBatch α))
    (left : List (List (Option α))) : Prop where
  nonempty : ∀ batch ∈ output, batch.rows ≠ []
  rows : output.flatMap (·.rows) ++ left = limited reader.fetch (reader.rows input)

/-- What is known of a reader by its phase. -/
def ReaderGood (configs : ι → CteReader) (s : System ι α) (i : ι) : Prop :=
  match (s.readers i).phase with
  | .needBatches => s.lock ≠ some i ∧ (s.readers i).output = []
  | .computing collected => s.lock = some i ∧ s.result = none ∧ collected = s.input ∧
      (s.readers i).output = []
  | .emit rest remaining => s.lock ≠ some i ∧ s.result = some (.ready s.input) ∧ rest ⊆ s.input ∧
      Share (configs i) s.input (s.readers i).output (limited remaining ((configs i).rows rest))
  | .finished => s.lock ≠ some i ∧ s.result = some (.ready s.input) ∧
      Share (configs i) s.input (s.readers i).output []
  | .failed message => s.lock ≠ some i ∧ s.result = some (.failed message)
  | .dropped => s.lock ≠ some i

/-- What is known of every state. -/
structure Good (configs : ι → CteReader) (s : System ι α) : Prop where
  readers : ∀ i, ReaderGood configs s i
  executions : s.executions ≤ 1
  idle : s.lock = none → s.result = none → s.executions = 0
  ready : ∀ batches, s.result = some (.ready batches) → batches = s.input
  fits : ∀ i, ∀ batch ∈ s.input, Fits (configs i) batch

section Step

variable {configs : ι → CteReader} {s s' : System ι α} {i j : ι}

omit [DecidableEq ι] in
/-- A reader that nothing happens to. -/
lemma ReaderGood.congr (h : ReaderGood configs s j) (hresult : s'.result = s.result)
    (hinput : s'.input = s.input)
    (hlock : s'.lock = some j ↔ s.lock = some j) (hsame : s'.readers j = s.readers j) :
    ReaderGood configs s' j := by
  simp only [ReaderGood, hsame, hresult, hinput, ne_eq, hlock]
  exact h

omit [DecidableEq ι] in
/-- While there is no result, a reader without the lock waits or is dropped. -/
lemma ReaderGood.waiting (h : ReaderGood configs s j) (hresult : s.result = none)
    (hlock : s.lock ≠ some j)
    (hlock' : s'.lock ≠ some j) (hsame : s'.readers j = s.readers j) : ReaderGood configs s' j := by
  rw [ReaderGood] at h ⊢
  rw [hsame]
  cases hphase : (s.readers j).phase with
  | needBatches =>
    rw [hphase] at h
    exact ⟨hlock', h.2⟩
  | dropped => exact hlock'
  | computing collected =>
    rw [hphase] at h
    exact absurd h.1 hlock
  | emit rest remaining =>
    rw [hphase, hresult] at h
    cases h.2.1
  | finished =>
    rw [hphase, hresult] at h
    cases h.2.1
  | failed message =>
    rw [hphase, hresult] at h
    cases h.2

lemma move_readers_self (phase : Phase α) :
    (s.move i phase).readers i = ⟨phase, (s.readers i).output⟩ :=
  Function.update_self ..

lemma move_readers_ne (hij : j ≠ i) (phase : Phase α) : (s.move i phase).readers j = s.readers j :=
  Function.update_of_ne hij ..

/-- All rows are left at the beginning. -/
lemma Share.start (reader : CteReader) (input : List (RecordBatch α)) :
    Share reader input [] (limited reader.fetch (reader.rows input)) :=
  ⟨fun _ hbatch => absurd hbatch List.not_mem_nil, rfl⟩

/-- The phase of a reader whose phase alone changes. -/
lemma Good.move (h : Good configs s) {phase : Phase α}
    (hi : ReaderGood configs (s.move i phase) i) :
    Good configs (s.move i phase) where
  readers j := by
    by_cases hij : j = i
    · rw [hij]
      exact hi
    · exact (h.readers j).congr rfl rfl Iff.rfl (move_readers_ne hij phase)
  executions := h.executions
  idle := h.idle
  ready := h.ready
  fits := h.fits

/-- A step that decides the result, or starts to compute it, concerns one reader only. -/
lemma Good.others (h : Good configs s) (hresult : s.result = none)
    (hlock : s.lock = none ∨ s.lock = some i)
    (hlock' : s'.lock = none ∨ s'.lock = some i) (hsame : ∀ j, j ≠ i → s'.readers j = s.readers j)
    (hi : ReaderGood configs s' i) : ∀ j, ReaderGood configs s' j := by
  have hne : ∀ {l : Option ι} {j : ι}, j ≠ i → l = none ∨ l = some i → l ≠ some j := by
    rintro l j hij (rfl | rfl) heq
    · cases heq
    · exact hij (Option.some.inj heq).symm
  intro j
  by_cases hij : j = i
  · rw [hij]
    exact hi
  · exact (h.readers j).waiting hresult (hne hij hlock) (hne hij hlock') (hsame j hij)

lemma Good.getOrCompute (h : Good configs s) (hphase : (s.readers i).phase = .needBatches)
    (hlock : s.lock = none)
    (executeError : Option String) : Good configs (getOrCompute configs s i executeError) := by
  have houtput : (s.readers i).output = [] := by
    have hi := h.readers i
    rw [ReaderGood, hphase] at hi
    exact hi.2
  have hfree : s.lock ≠ some i := by
    rw [hlock]
    exact (Option.some_ne_none i).symm
  rw [ScanNode.getOrCompute.eq_def]
  cases hresult : s.result with
  | some result =>
    cases result with
    | ready batches =>
      obtain rfl := h.ready batches hresult
      refine h.move ?_
      rw [ReaderGood, move_readers_self, houtput]
      exact ⟨hfree, hresult, List.Subset.refl _, Share.start _ _⟩
    | failed message =>
      refine h.move ?_
      rw [ReaderGood, move_readers_self]
      exact ⟨hfree, hresult⟩
  | none =>
    have hzero := h.idle hlock hresult
    cases executeError with
    | some message =>
      refine ⟨h.others hresult (.inl hlock) (.inl hlock) (fun j hij => move_readers_ne hij _) ?_,
        (congrArg (· + 1) hzero).le, fun _ hnone => ?_, fun _ hready => ?_, fun _ _ hmem => ?_⟩
      · rw [ReaderGood, move_readers_self]
        exact ⟨hfree, rfl⟩
      · cases hnone
      · cases hready
      · cases hmem
    | none =>
      refine ⟨h.others hresult (.inl hlock) (.inr rfl) (fun j hij => move_readers_ne hij _) ?_,
        (congrArg (· + 1) hzero).le, fun hnone => ?_, fun _ hready => ?_, fun _ _ hmem => ?_⟩
      · rw [ReaderGood, move_readers_self]
        exact ⟨rfl, hresult, rfl, houtput⟩
      · cases hnone
      · exact absurd (hresult.symm.trans hready) (by simp)
      · cases hmem

omit [DecidableEq ι] in
/-- The reader that computes. -/
lemma Good.computing (h : Good configs s) {collected : List (RecordBatch α)}
    (hphase : (s.readers i).phase = .computing collected) :
    s.lock = some i ∧ s.result = none ∧ collected = s.input ∧ (s.readers i).output = [] := by
  have hi := h.readers i
  rw [ReaderGood, hphase] at hi
  exact hi

/-- The input delivers a batch. -/
lemma Good.batch (h : Good configs s) {collected : List (RecordBatch α)}
    (hphase : (s.readers i).phase = .computing collected) {batch : RecordBatch α}
    (hfits : ∀ j, Fits (configs j) batch) :
    Good configs
      { s.move i (.computing (collected ++ [batch])) with input := s.input ++ [batch] } := by
  obtain ⟨hlock, hresult, rfl, houtput⟩ := h.computing hphase
  refine ⟨h.others hresult (.inr hlock) (.inr hlock) (fun j hij => move_readers_ne hij _) ?_,
    h.executions, h.idle, fun _ hready => ?_, fun j b hb => ?_⟩
  · rw [ReaderGood, move_readers_self]
    exact ⟨hlock, hresult, rfl, houtput⟩
  · exact absurd (hresult.symm.trans hready) (by simp)
  · rcases List.mem_append.mp hb with hb | hb
    · exact h.fits j b hb
    · rw [List.mem_singleton.mp hb]
      exact hfits j

/-- The input fails. -/
lemma Good.inputError (h : Good configs s) {collected : List (RecordBatch α)}
    (hphase : (s.readers i).phase = .computing collected) (message : String) :
    Good configs
      { s.move i (.failed message) with result := some (.failed message), lock := none } := by
  obtain ⟨hlock, hresult, rfl, -⟩ := h.computing hphase
  refine ⟨h.others hresult (.inr hlock) (.inl rfl) (fun j hij => move_readers_ne hij _) ?_,
    h.executions, fun _ hnone => ?_, fun _ hready => ?_, h.fits⟩
  · rw [ReaderGood, move_readers_self]
    exact ⟨(Option.some_ne_none i).symm, rfl⟩
  · cases hnone
  · cases hready

/-- The input ends. -/
lemma Good.inputEnd (h : Good configs s) {collected : List (RecordBatch α)}
    (hphase : (s.readers i).phase = .computing collected) :
    Good configs { s.move i (.emit collected (configs i).fetch) with
      result := some (.ready collected), lock := none } := by
  obtain ⟨hlock, hresult, rfl, houtput⟩ := h.computing hphase
  refine ⟨h.others hresult (.inr hlock) (.inl rfl) (fun j hij => move_readers_ne hij _) ?_,
    h.executions, fun _ hnone => ?_, fun batches hready => ?_, h.fits⟩
  · rw [ReaderGood, move_readers_self, houtput]
    exact ⟨(Option.some_ne_none i).symm, rfl, List.Subset.refl _, Share.start _ _⟩
  · cases hnone
  · cases hready
    rfl

/-- A reader that does not compute is dropped. -/
lemma Good.drop [Arrow α] (h : Good configs s) (hlock : s.lock ≠ some i) :
    Good configs (step configs s (.drop i)) := by
  rw [step, if_neg hlock]
  refine h.move ?_
  rw [ReaderGood, move_readers_self]
  exact hlock

omit [DecidableEq ι] in
lemma good_start : Good configs (start ι α) where
  readers i := ⟨(Option.some_ne_none i).symm, rfl⟩
  executions := Nat.zero_le 1
  idle _ _ := rfl
  ready _ h := by cases h
  fits _ _ h := absurd h List.not_mem_nil

variable [Arrow α] [LawfulArrow α]

/-- A reader with batches is polled. -/
lemma Good.next (h : Good configs s) : Good configs (step configs s (.next i)) := by
  have hi := h.readers i
  rw [step]
  cases hphase : (s.readers i).phase with
  | emit rest remaining =>
    rw [ReaderGood, hphase] at hi
    obtain ⟨hlock, hresult, hsub, hnonempty, hrows⟩ := hi
    obtain ⟨hemit, hleft⟩ | ⟨out, rest', remaining', hemit, hne, hsub', hcut⟩ :=
      emitNextBatch_spec (fun b hb => h.fits i b (hsub hb)) remaining
    · dsimp only
      rw [hemit]
      refine h.move ?_
      rw [ReaderGood, move_readers_self]
      exact ⟨hlock, hresult, hnonempty, hleft ▸ hrows⟩
    · dsimp only
      rw [hemit]
      refine ⟨fun j => ?_, h.executions, h.idle, h.ready, h.fits⟩
      by_cases hij : j = i
      · have hself : (s.give i out (.emit rest' remaining')).readers j =
            ⟨.emit rest' remaining', (s.readers i).output ++ [out]⟩ := by
          rw [hij]
          exact Function.update_self ..
        rw [ReaderGood, hself, hij]
        refine ⟨hlock, hresult, fun b hb => hsub (hsub' hb), fun b hb => ?_, ?_⟩
        · rcases List.mem_append.mp hb with hb | hb
          · exact hnonempty b hb
          · rw [List.mem_singleton.mp hb]
            exact hne
        · calc ((s.readers i).output ++ [out]).flatMap (·.rows) ++
            limited remaining' ((configs i).rows rest')
              = (s.readers i).output.flatMap (·.rows) ++
                  (out.rows ++ limited remaining' ((configs i).rows rest')) := by
                rw [List.flatMap_append, List.flatMap_singleton, List.append_assoc]
            _ = (s.readers i).output.flatMap (·.rows) ++
              limited remaining ((configs i).rows rest) := by
                rw [hcut]
            _ = limited (configs i).fetch ((configs i).rows s.input) := hrows
      · exact (h.readers j).congr rfl rfl Iff.rfl (Function.update_of_ne hij ..)
  | needBatches => exact h
  | computing collected => exact h
  | finished => exact h
  | failed message => exact h
  | dropped => exact h

/-- **One event.** -/
lemma Good.step (h : Good configs s) {event : Event ι α}
    (hkept : ∀ i, event = .drop i → s.lock ≠ some i)
    (hfits : ∀ i batch, event = .batch i batch → ∀ j, Fits (configs j) batch) :
    Good configs (step configs s event) := by
  cases event with
  | poll i executeError =>
    rw [ScanNode.step.eq_def]
    dsimp only
    split
    next hphase hlock => exact h.getOrCompute hphase hlock executeError
    next => exact h
  | batch i batch =>
    rw [ScanNode.step.eq_def]
    dsimp only
    split
    next hphase => exact h.batch hphase (hfits i batch rfl)
    next => exact h
  | inputError i message =>
    rw [ScanNode.step.eq_def]
    dsimp only
    split
    next hphase => exact h.inputError hphase message
    next => exact h
  | inputEnd i =>
    rw [ScanNode.step.eq_def]
    dsimp only
    split
    next hphase => exact h.inputEnd hphase
    next => exact h
  | next i => exact h.next
  | drop i => exact h.drop (hkept i rfl)

/-- **Every run.** -/
lemma Good.run (h : Good configs s) {events : List (Event ι α)} (hkept : Kept configs s events)
    (hfits : ∀ i batch, .batch i batch ∈ events → ∀ j, Fits (configs j) batch) :
    Good configs (events.foldl (ScanNode.step configs) s) := by
  induction events generalizing s with
  | nil => exact h
  | cons event events ih =>
    refine ih (h.step hkept.1 fun i batch heq => hfits i batch ?_) hkept.2 fun i batch hmem =>
      hfits i batch (List.mem_cons_of_mem _ hmem)
    rw [heq]
    exact List.mem_cons_self

end Step

/-- **A common table expression is computed once and read alike**, in every run in which no reader
is dropped while it computes and the readers are made for the batches of the input. -/
theorem computed_once_and_read_alike [Arrow α] [LawfulArrow α] (configs : ι → CteReader)
    (events : List (Event ι α)) (hkept : Kept configs (start ι α) events)
    (hfits : ∀ i batch, .batch i batch ∈ events → ∀ j, Fits (configs j) batch) :
    (run configs events).executions ≤ 1 ∧
      (∀ i message, ((run configs events).readers i).phase = .failed message →
        (run configs events).result = some (.failed message)) ∧
      ∀ i, ((run configs events).readers i).phase = .finished →
        (run configs events).result = some (.ready (run configs events).input) ∧
          (∀ batch ∈ ((run configs events).readers i).output, batch.rows ≠ []) ∧
          ((run configs events).readers i).output.flatMap (·.rows) =
            limited (configs i).fetch ((configs i).rows (run configs events).input) := by
  have hgood : Good configs (run configs events) := good_start.run hkept hfits
  refine ⟨hgood.executions, fun i message hphase => ?_, fun i hphase => ?_⟩
  · have hi := hgood.readers i
    rw [ReaderGood, hphase] at hi
    exact hi.2
  · have hi := hgood.readers i
    rw [ReaderGood, hphase] at hi
    obtain ⟨-, hresult, hnonempty, hrows⟩ := hi
    exact ⟨hresult, hnonempty, by rw [← hrows, List.append_nil]⟩

lemma rowFits_select {fields : List Field} {row : List (Option α)} (h : RowFits fields row)
    (projection : List ℕ) :
    RowFits (select projection fields) (select projection row) := by
  induction projection with
  | nil => exact .nil
  | cons i projection ih =>
    obtain ⟨hlength, hcell⟩ := List.forall₂_iff_get.mp h
    rw [select, select, List.filterMap_cons, List.filterMap_cons]
    by_cases hi : i < fields.length
    · rw [List.getElem?_eq_getElem hi, List.getElem?_eq_getElem (hlength ▸ hi)]
      exact .cons (hcell i hi (hlength ▸ hi)) ih
    · rw [List.getElem?_eq_none (not_lt.mp hi), List.getElem?_eq_none (hlength ▸ not_lt.mp hi)]
      exact ih

/-- Arrow's functions, on rows. -/
instance rowArrow : Arrow ℕ where
  project batch projection := .ok
    { fields := select projection batch.fields
      rows := batch.rows.map (select projection)
      fits := List.forall_mem_map.mpr fun row hrow =>
        rowFits_select (batch.fits row hrow) projection }
  slice batch length :=
    { batch with
      rows := batch.rows.take length
      fits := fun row hrow => batch.fits row (List.mem_of_mem_take hrow) }
  tryNew outputSchema batch :=
    if h : ∀ row ∈ batch.rows, RowFits outputSchema row then .ok ⟨outputSchema, batch.rows, h⟩
    else .error "a column is declared as non-nullable but contains null values"

instance : LawfulArrow ℕ where
  project_ok _ _ _ := ⟨_, rfl, rfl, rfl⟩
  slice_eq _ _ := ⟨rfl, rfl⟩
  tryNew_ok _ _ _ hnulls := ⟨_, dif_pos hnulls, rfl⟩

/-- Two rows of one column. -/
def twoRows : RecordBatch ℕ :=
  ⟨[⟨"a", "Int64", false⟩], [[some 1], [some 2]], by decide⟩

/-- Readers of the first row. -/
def firstRow (_ : Bool) : CteReader := ⟨[⟨"a", "Int64", false⟩], none, some 1⟩

theorem computed_once_and_read_alike_twoRows :
    ((run firstRow [.poll true none, .poll false none, .batch true twoRows, .inputEnd true,
      .drop true,
      .poll false none, .next false, .next false]).readers false).output.flatMap (·.rows) =
        [[some 1]] ∧
    (run firstRow [.poll true none, .poll false none, .batch true twoRows, .inputEnd true,
      .drop true, .poll false none, .next false, .next false]).executions ≤ 1 := by
  have hkept : Kept firstRow (start Bool ℕ) [.poll true none, .poll false none, .batch true twoRows,
      .inputEnd true, .drop true, .poll false none, .next false, .next false] := by
    refine ⟨?_, ?_, ?_, ?_, ?_, ?_, ?_, ?_, trivial⟩ <;> intro i hdrop <;> cases hdrop
    exact (Option.some_ne_none true).symm
  have hfits : ∀ i batch, Event.batch i batch ∈ [.poll true none, .poll false none,
    .batch true twoRows,
      .inputEnd true, .drop true, .poll false none, .next false, .next false] →
        ∀ j, Fits (firstRow j) batch := by
    intro i batch hmem j
    simp only [List.mem_cons, Event.batch.injEq, reduceCtorEq, List.not_mem_nil, or_false,
      false_or] at hmem
    rw [hmem.2]
    refine ⟨fun projection hprojection => ?_, rfl, twoRows.fits⟩
    cases hprojection
  obtain ⟨honce, -, hread⟩ := computed_once_and_read_alike firstRow _ hkept hfits
  exact ⟨(hread false rfl).2.2, honce⟩

/-- A reader that is dropped while it computes: the next one executes the input again. -/
theorem computed_twice_after_drop :
    (run firstRow [.poll true none, .batch true twoRows, .drop true, .poll false none]).executions =
      2 := by
  decide

end PgFusion.ScanNode

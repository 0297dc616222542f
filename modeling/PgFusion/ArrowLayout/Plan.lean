import PgFusion.ArrowLayout.Accept

/-!
Plans, and the blocks that are initialised for them.

* `accepted_of_holds`: a block with the header and the descriptors of a plan is accepted, whatever
  its row count, tail cursor and null counts;
* `accepted_blocks_well_laid_out`: the regions of an accepted block are aligned, disjoint and
  inside.
-/

namespace PgFusion.ArrowLayout

open Bytes Fallible

/-! ### Plans -/

namespace ColumnSpec

lemma flagsContain_view (s : ColumnSpec) : flagsContain s.flags flagView = s.typeTag.isView := by
  obtain ⟨t, n⟩ := s
  cases t <;> cases n <;> rfl

lemma flagsContain_nullable (s : ColumnSpec) : flagsContain s.flags flagNullable = s.nullable := by
  obtain ⟨t, n⟩ := s
  cases t <;> cases n <;> rfl

lemma flags_lt (s : ColumnSpec) : s.flags < 4 := by
  obtain ⟨t, n⟩ := s
  cases t <;> cases n <;> decide

end ColumnSpec

/-- What a plan for the given specs guarantees. -/
structure LayoutPlan.Valid (plan : LayoutPlan) (specs : List ColumnSpec) : Prop where
  specs : plan.columns.map (fun c => (c.typeTag, c.flags)) =
    specs.map (fun s => (s.typeTag, s.flags))
  count : plan.columns.length < 0x10000
  front : frontBaseFor plan.columns.length = .ok plan.frontBase
  walk : Consecutive plan.frontBase (plan.columns.flatMap ColumnLayout.regions) plan.poolBase
  sized : ∀ c ∈ plan.columns, c.Sized plan.maxRows
  pool : plan.poolBase ≤ plan.blockSize

/-- What the loop of the planner guarantees. -/
lemma LayoutPlan.planColumns_spec {maxRows : ℕ} {specs : List ColumnSpec} {c e : ℕ}
    {cols : List ColumnLayout} (h : planColumns maxRows specs c = .ok (cols, e)) :
    cols.map (fun c => (c.typeTag, c.flags)) = specs.map (fun s => (s.typeTag, s.flags)) ∧
      Consecutive c (cols.flatMap ColumnLayout.regions) e ∧ ∀ x ∈ cols, x.Sized maxRows := by
  induction specs generalizing c cols with
  | nil =>
    obtain ⟨rfl, rfl⟩ : [] = cols ∧ c = e := by
      rw [planColumns, Except.ok.injEq, Prod.mk.injEq] at h
      exact h
    exact ⟨rfl, rfl, fun x hx => absurd hx List.not_mem_nil⟩
  | cons spec specs ih =>
    simp only [planColumns, bind_eq_ok, pure_eq_ok, alignUpU32_eq_ok,
      TypeTag.valuesReservedLen_eq_ok, checkedAdd_eq_ok, Prod.exists, Prod.mk.injEq] at h
    obtain ⟨vl, hvl, xl, hxl, _, ⟨-, rfl⟩, _, ⟨-, rfl⟩, rest, last, hrest, rfl, rfl⟩ := h
    obtain ⟨hspecs, hwalk, hsized⟩ := ih hrest
    refine ⟨by rw [List.map_cons, List.map_cons, hspecs], ⟨rfl, rfl, hwalk⟩, fun x hx => ?_⟩
    rcases List.mem_cons.mp hx with rfl | hx
    · exact ⟨spec.flagsContain_view, hvl, hxl⟩
    · exact hsized x hx

lemma LayoutPlan.new_spec {specs : List ColumnSpec} {maxRows blockSize : ℕ} {plan : LayoutPlan}
    (h : LayoutPlan.new specs maxRows blockSize = .ok plan) :
    plan.Valid specs ∧ plan.maxRows = maxRows ∧ plan.blockSize = blockSize := by
  simp only [LayoutPlan.new, bind_eq_ok, refuse_eq_ok, pure_eq_ok, not_le, not_lt, Prod.exists] at h
  obtain ⟨-, hcount, front, hfront, cols, e, hcols, -, hpool, rfl⟩ := h
  obtain ⟨hspecs, hwalk, hsized⟩ := LayoutPlan.planColumns_spec hcols
  have hlen : cols.length = specs.length := by simpa using congrArg List.length hspecs
  exact ⟨⟨hspecs, hlen ▸ hcount, hlen ▸ hfront, hwalk, hsized, hpool⟩, rfl, rfl⟩

namespace LayoutPlan.Valid

variable {plan : LayoutPlan} {specs : List ColumnSpec} {i : ℕ} {c : ColumnLayout}

/-- The descriptors end before the front region starts. -/
lemma descOffset_le (h : plan.Valid specs) : descOffset plan.columns.length ≤ plan.frontBase := by
  have hf := h.front
  rw [frontBaseFor_eq h.count, Except.ok.injEq] at hf
  rw [descOffset, BlockHeader.size, ColumnDesc.size]
  omega

lemma front_mod (h : plan.Valid specs) :
    plan.frontBase % bufferAlignment = bufferAlignmentBias := by
  have hf := h.front
  rw [frontBaseFor_eq h.count, Except.ok.injEq] at hf
  rw [bufferAlignment, bufferAlignmentBias]
  omega

lemma pool_mod (h : plan.Valid specs) : plan.poolBase % bufferAlignment = bufferAlignmentBias := by
  have hdvd : ∀ g ∈ plan.columns.flatMap ColumnLayout.regions, 16 ∣ g.2 := by
    intro g hg
    obtain ⟨c, hc, hg⟩ := List.mem_flatMap.mp hg
    exact (h.sized c hc).dvd g hg
  exact Eq.trans (h.walk.modEq hdvd).2 h.front_mod

/-- The flags of a column are those of its spec. -/
lemma spec (h : plan.Valid specs) (hc : plan.columns[i]? = some c) :
    ∃ s, specs[i]? = some s ∧ c.typeTag = s.typeTag ∧ c.flags = s.flags := by
  have hi := congrArg (fun l => l[i]?) h.specs
  simp only [List.getElem?_map, hc, Option.map_some] at hi
  obtain ⟨s, hs, heq⟩ := Option.map_eq_some_iff.mp hi.symm
  rw [Prod.mk.injEq] at heq
  exact ⟨s, hs, heq.1.symm, heq.2.symm⟩

lemma region (h : plan.Valid specs) (hc : plan.columns[i]? = some c) {g : ℕ × ℕ}
    (hg : g ∈ c.regions) : plan.frontBase ≤ g.1 ∧ g.1 + g.2 ≤ plan.poolBase :=
  h.walk.within (List.mem_flatMap.mpr ⟨c, List.mem_of_getElem? hc, hg⟩)

lemma header_fits (h : plan.Valid specs) (hrows : plan.maxRows < 0x100000000)
    (hsize : plan.blockSize < 0x100000000) : plan.blockHeader.Fits := by
  have hcount := h.count
  have hpool := h.pool
  have hfront := h.walk.le
  simp only [BlockHeader.Fits, BlockHeader.fields, LayoutPlan.blockHeader, List.forall_mem_cons,
    blockMagic, blockVersion]
  norm_num
  omega

/-- A descriptor with a null count is in the range of its types. -/
lemma desc_fits (h : plan.Valid specs) (hsize : plan.blockSize < 0x100000000)
    (hc : plan.columns[i]? = some c) {n : ℕ} (hn : n < 0x100000000) :
    ({ c.desc with nullCount := n } : ColumnDesc).Fits := by
  obtain ⟨s, -, -, hflags⟩ := h.spec hc
  have hlt := s.flags_lt
  have hvalidity := (h.region hc (g := (c.validityOff, c.validityLen))
    (by simp [ColumnLayout.regions])).2
  have hvalues := (h.region hc (g := (c.valuesOff, c.valuesLen)) (by simp [ColumnLayout.regions])).2
  have hpool := h.pool
  have hraw : c.typeTag.toRaw < 15 := by
    generalize c.typeTag = t
    cases t <;> decide
  simp only [ColumnDesc.Fits, ColumnDesc.fields, ColumnLayout.desc, List.forall_mem_cons]
  norm_num
  omega

/-- A descriptor of the plan, with any null count, stands for its column. -/
lemma layout (h : plan.Valid specs) (hc : plan.columns[i]? = some c) (n : ℕ) :
    columnLayoutFromDesc i plan.maxRows { c.desc with nullCount := n } = .ok c :=
  columnLayoutFromDesc_eq_ok.mpr ⟨c.typeTag.fromRaw_toRaw, rfl, rfl, rfl,
    h.sized c (List.mem_of_getElem? hc)⟩

end LayoutPlan.Valid

/-! ### Initialised blocks -/

/-- Descriptors that are written are read back, and nothing else changes. -/
lemma writeDescs_spec {cs : List ColumnLayout} {k : ℕ} {block : List UInt8}
    (h : descOffset (k + cs.length) ≤ block.length) :
    ∃ block', writeDescs cs k block = .ok block' ∧ block'.length = block.length ∧
      (∀ i c, cs[i]? = some c →
        slice block' (descOffset (k + i)) ColumnDesc.size = some c.desc.toBytes) ∧
      ∀ a, a < descOffset k ∨ descOffset (k + cs.length) ≤ a → block'[a]? = block[a]? := by
  induction cs generalizing k block with
  | nil => exact ⟨block, rfl, rfl, fun i c hc => by simp at hc, fun a _ => rfl⟩
  | cons c cs ih =>
    have hstep : ∀ j, descOffset (j + 1) = descOffset j + ColumnDesc.size := by
      intro j
      rw [descOffset, descOffset]
      ring
    have hmono : descOffset (k + 1) ≤ descOffset (k + 1 + cs.length) := by
      rw [descOffset, descOffset]
      exact Nat.add_le_add_left (Nat.mul_le_mul_right _ (Nat.le_add_right _ _)) _
    have hlen : k + (c :: cs).length = k + 1 + cs.length := by
      rw [List.length_cons]
      omega
    rw [hlen] at h ⊢
    have hfit : descOffset k + c.desc.toBytes.length ≤ block.length := by
      rw [ColumnDesc.length_toBytes, ← hstep]
      exact hmono.trans h
    have hnext : descOffset (k + 1 + cs.length) ≤
        (splice block (descOffset k) c.desc.toBytes).length := by
      rw [length_splice hfit]
      exact h
    obtain ⟨block', hrun, hlength, hdescs, hrest⟩ := ih hnext
    refine ⟨block', ?_, hlength.trans (length_splice hfit), fun i c' hc' => ?_, fun a ha => ?_⟩
    · rw [writeDescs, writeStruct_of_le hfit, ok_bind, hrun]
    · cases i with
      | zero =>
        obtain rfl : c = c' := by simpa using hc'
        have hself := slice_splice_self hfit
        rw [ColumnDesc.length_toBytes] at hself
        rw [Nat.add_zero, ← hself]
        refine slice_congr hlength fun j hj => hrest _ (Or.inl ?_)
        rw [hstep]
        omega
      | succ i =>
        have hadd : k + (i + 1) = k + 1 + i := by omega
        rw [hadd]
        exact hdescs i c' (by simpa using hc')
    · have hk := hstep k
      rw [hrest a (by omega), getElem?_splice hfit, ColumnDesc.length_toBytes]
      rw [if_neg (by omega)]

/-- What an initialised block holds: the header and the descriptors of the plan, and
zeros after them. -/
lemma initBlock_spec {plan : LayoutPlan} {specs : List ColumnSpec} (h : plan.Valid specs)
    {block : List UInt8} (hlen : plan.blockSize ≤ block.length) :
    ∃ block', initBlock block plan = .ok block' ∧ block'.length = block.length ∧
      slice block' 0 BlockHeader.size = some plan.blockHeader.toBytes ∧
      (∀ i c, plan.columns[i]? = some c →
        slice block' (descOffset i) ColumnDesc.size = some c.desc.toBytes) ∧
      ∀ a, descOffset plan.columns.length ≤ a → a < plan.blockSize → block'[a]? = some 0 := by
  have hdescs : descOffset plan.columns.length ≤ plan.blockSize :=
    h.descOffset_le.trans (h.walk.le.trans h.pool)
  have hhead : BlockHeader.size ≤ descOffset plan.columns.length := Nat.le_add_right _ _
  have hzero : 0 + (List.replicate plan.blockSize (0 : UInt8)).length ≤ block.length := by
    rw [List.length_replicate]
    omega
  have hzeroed := length_splice hzero
  have hfit : 0 + plan.blockHeader.toBytes.length ≤
      (splice block 0 (List.replicate plan.blockSize 0)).length := by
    rw [hzeroed, BlockHeader.length_toBytes]
    omega
  have hroom : descOffset (0 + plan.columns.length) ≤ (splice
      (splice block 0 (List.replicate plan.blockSize 0)) 0 plan.blockHeader.toBytes).length := by
    rw [length_splice hfit, hzeroed, Nat.zero_add]
    omega
  obtain ⟨block', hrun, hlength, hread, hrest⟩ := writeDescs_spec hroom
  rw [Nat.zero_add] at hrest
  refine ⟨block', ?_, by rw [hlength, length_splice hfit, hzeroed], ?_, fun i c hc => ?_,
    fun a ha hs => ?_⟩
  · rw [initBlock, refuse_of_not (not_lt.mpr hlen), ok_bind]
    dsimp only
    rw [writeStruct_of_le hfit, ok_bind, hrun]
  · have hself := slice_splice_self hfit
    rw [BlockHeader.length_toBytes] at hself
    rw [← hself]
    refine slice_congr hlength fun j hj => hrest _ (Or.inl ?_)
    rw [Nat.zero_add, descOffset, Nat.zero_mul]
    exact hj
  · rw [← hread i c hc, Nat.zero_add]
  · rw [hrest a (Or.inr ha), getElem?_splice hfit, BlockHeader.length_toBytes, if_neg (by omega),
      getElem?_splice hzero, List.length_replicate, if_pos ⟨Nat.zero_le a, by omega⟩,
      List.getElem?_replicate, if_pos (by omega)]

/-- A block that holds the header of a plan, up to its row count and its tail cursor, and
the descriptors of the plan, up to their null counts, is accepted. -/
lemma accepted_of_holds {plan : LayoutPlan} {specs : List ColumnSpec} (h : plan.Valid specs)
    {block : List UInt8} {header : BlockHeader} {nulls : ℕ → ℕ}
    (hlen : plan.blockSize ≤ block.length) (hheader : header = { plan.blockHeader with
      rowCount := header.rowCount, tailCursor := header.tailCursor })
    (hfits : header.Fits) (hrows : header.rowCount ≤ plan.maxRows)
    (hpool : plan.poolBase ≤ header.tailCursor) (htail : header.tailCursor ≤ plan.blockSize)
    (hnulls : ∀ i, nulls i < 0x100000000)
    (hhead : slice block 0 BlockHeader.size = some header.toBytes)
    (hdescs : ∀ i c, plan.columns[i]? = some c → slice block (descOffset i) ColumnDesc.size =
      some ({ c.desc with nullCount := nulls i } : ColumnDesc).toBytes) :
    BlockRef.openBlock block = .ok ⟨block, header⟩ ∧ Accepted ⟨block, header⟩ plan.columns := by
  have hsize : plan.blockSize < 0x100000000 := by
    have := hfits.bounds.2.2
    rw [hheader] at this
    exact this
  have hlaid : LaidOut block header plan.columns := by
    refine ⟨by rw [hheader]; rfl, fun i c hc => ⟨_, hdescs i c hc, ?_, ?_⟩, ?_⟩
    · rw [ColumnDesc.ofBytes_toBytes (h.desc_fits hsize hc (hnulls i)), hheader]
      exact h.layout hc (nulls i)
    · rw [ColumnDesc.ofBytes_toBytes (h.desc_fits hsize hc (hnulls i))]
      rfl
    · rw [hheader]
      exact h.walk
  have hok : HeaderOk header block.length := by
    have hd : descOffset plan.columns.length ≤ block.length :=
      h.descOffset_le.trans (h.walk.le.trans (h.pool.trans hlen))
    rw [hheader]
    exact ⟨rfl, rfl, hrows, h.front, h.walk.le, hpool, htail, hlen, hd, h.front_mod, h.pool_mod⟩
  refine ⟨openBlock_eq_ok.mpr ⟨rfl, ⟨_, hhead, BlockHeader.ofBytes_toBytes hfits⟩, hok, _, hlaid⟩,
    hok, hlaid, hfits⟩

/-- **An accepted block is well laid out, and the block of a plan is accepted.** The header, the
descriptors, the regions of the columns and the pool do not overlap and lie inside the bytes, the
regions start at the alignment bias, and the readers of a row below `max_rows` stay inside them. A
block initialised for a plan reports its regions. -/
theorem accepted_blocks_well_laid_out :
    (∀ block r, BlockRef.openBlock block = .ok r → r.block = block ∧ ∃ cols, r.WellLaidOut cols) ∧
      ∀ specs maxRows blockSize plan block, maxRows < 0x100000000 → blockSize < 0x100000000 →
        LayoutPlan.new specs maxRows blockSize = .ok plan → blockSize ≤ block.length →
        ∃ block' r, initBlock block plan = .ok block' ∧ BlockRef.openBlock block' = .ok r ∧
          r.block = block' ∧ r.header = plan.blockHeader ∧
          ∀ i, r.columnLayout i = plan.columnLayout i := by
  refine ⟨fun block r hopen => ?_, fun specs maxRows blockSize plan block hrows hsize hplan hlen =>
    ?_⟩
  · obtain ⟨hblock, cols, haccepted⟩ := accepted_of_openBlock hopen
    exact ⟨hblock, cols, haccepted.wellLaidOut⟩
  · obtain ⟨hvalid, rfl, rfl⟩ := LayoutPlan.new_spec hplan
    obtain ⟨block', hinit, hlength, hhead, hdescs, -⟩ := initBlock_spec hvalid hlen
    have hnulls : ∀ i : ℕ, (fun _ => 0 : ℕ → ℕ) i < 0x100000000 := fun _ => by norm_num
    obtain ⟨hopen, haccepted⟩ := accepted_of_holds hvalid (by rw [hlength]; exact hlen) rfl
      (hvalid.header_fits hrows hsize) (Nat.zero_le _) hvalid.pool le_rfl hnulls hhead hdescs
    refine ⟨block', _, hinit, hopen, rfl, rfl, fun i => ?_⟩
    cases hc : plan.columns[i]? with
    | some c => rw [haccepted.columnLayout hc, LayoutPlan.columnLayout, hc]
    | none =>
      rw [haccepted.columnLayout_of_none hc, LayoutPlan.columnLayout, hc]
      rfl

/-- The block of a plan with an `Int32` and a `Utf8View` column. -/
theorem accepted_blocks_well_laid_out_two_columns :
    ∃ plan block r, LayoutPlan.new [⟨.int32, true⟩, ⟨.utf8View, false⟩] 2 256 = .ok plan ∧
      initBlock (List.replicate 256 7) plan = .ok block ∧ BlockRef.openBlock block = .ok r ∧
      (∃ cols, r.WellLaidOut cols) ∧ r.header = plan.blockHeader := by
  obtain ⟨block, r, hinit, hopen, -, hheader, -⟩ := accepted_blocks_well_laid_out.2
    [⟨.int32, true⟩, ⟨.utf8View, false⟩] 2 256
    ⟨256, 2, 92, 172, [⟨.int32, 1, 92, 108, 16, 16⟩, ⟨.utf8View, 2, 124, 140, 16, 32⟩]⟩
    (List.replicate 256 7) (by decide) (by decide) (by decide +kernel)
    List.length_replicate.ge
  exact ⟨_, block, r, by decide +kernel, hinit, hopen,
    (accepted_blocks_well_laid_out.1 block r hopen).2, hheader⟩

end PgFusion.ArrowLayout

import PgFusion.CustomScan.Scan

/-!
A query's result is complete or an error (`result_complete_or_error`). The messages of the worker
are those that were read, those in the ring and those still to be sent; the rows of the pages that
were read are those that were returned and those left of the active page.
-/

namespace PgFusion.CustomScan

variable {R : Type}

/-! ### Messages -/

/-- The pages among some messages. -/
def pagesOf (messages : List (Inbound R)) : List (List R) :=
  messages.filterMap fun
    | .issued (.page rows) => some rows
    | _ => none

lemma pagesOf_append (l m : List (Inbound R)) : pagesOf (l ++ m) = pagesOf l ++ pagesOf m :=
  List.filterMap_append

lemma pagesOf_map (pages : List (List R)) :
    pagesOf (pages.map fun rows => Inbound.issued (.page rows)) = pages := by
  induction pages with
  | nil => rfl
  | cons rows pages ih =>
    rw [List.map_cons, pagesOf, List.filterMap_cons]
    exact congrArg _ ih

namespace Script

/-- What is sent behind the pages. -/
def tail : Script R → List (Inbound R)
  | completed _ => [.issued .close, .control .completeExecution]
  | failed _ true => [.issued .close, .control .failExecution]
  | failed _ false => [.control .failExecution]

lemma messages_eq (script : Script R) :
    script.messages = script.pages.map (fun rows => .issued (.page rows)) ++ script.tail := by
  cases script with
  | completed pages => rfl
  | failed pages closed =>
    rw [messages, List.append_assoc]
    cases closed <;> rfl

lemma pagesOf_tail (script : Script R) : pagesOf script.tail = [] := by
  cases script with
  | completed pages => rfl
  | failed pages closed => cases closed <;> rfl

lemma pagesOf_messages (script : Script R) : pagesOf script.messages = script.pages := by
  rw [messages_eq, pagesOf_append, pagesOf_map, pagesOf_tail, List.append_nil]

variable {read rest : List (Inbound R)}

/-- Once a message that is no page was read, all pages were. -/
lemma read_eq {script : Script R} {message : Inbound R}
    (h : script.messages = read ++ rest) (hmem : message ∈ read)
    (hmessage : ∀ rows, message ≠ .issued (.page rows)) :
    ∃ a, read = script.pages.map (fun rows => .issued (.page rows)) ++ a ∧
      script.tail = a ++ rest := by
  rw [messages_eq, List.append_eq_append_iff] at h
  rcases h with h | ⟨c, hpages, -⟩
  · exact h
  · have hpage : message ∈ script.pages.map (fun rows => Inbound.issued (.page rows)) := by
      rw [hpages]
      exact List.mem_append_left _ hmem
    obtain ⟨rows, -, heq⟩ := List.mem_map.mp hpage
    exact absurd heq.symm (hmessage rows)

/-- No page is sent behind the close frame. -/
lemma pages_of_close {script : Script R}
    (h : script.messages = read ++ rest) (hclose : Inbound.issued .close ∈ read) :
    pagesOf read = script.pages := by
  obtain ⟨a, rfl, htail⟩ := read_eq h hclose nofun
  have hnone := pagesOf_tail script
  rw [htail, pagesOf_append, List.append_eq_nil_iff] at hnone
  rw [pagesOf_append, pagesOf_map, hnone.1, List.append_nil]

/-- Nothing is sent behind a failure, and no end before it. -/
lemma nothing_after_failure {script : Script R}
    (h : script.messages = read ++ rest) (hfail : Inbound.control .failExecution ∈ read) :
    rest = [] ∧ Inbound.control .completeExecution ∉ read := by
  obtain ⟨a, rfl, htail⟩ := read_eq h hfail nofun
  have hpage : ∀ c,
    Inbound.control c ∉ script.pages.map (fun rows => Inbound.issued (.page rows)) := by
    intro c hc
    obtain ⟨rows, -, heq⟩ := List.mem_map.mp hc
    exact absurd heq nofun
  have hmem : Inbound.control .failExecution ∈ a :=
    (List.mem_append.mp hfail).resolve_left (hpage _)
  have hcomplete : Inbound.control .completeExecution ∉ script.tail → Inbound.control
      .completeExecution ∉ script.pages.map (fun rows => Inbound.issued (.page rows)) ++ a := by
    intro htail' hc
    rcases List.mem_append.mp hc with hc | hc
    · exact hpage _ hc
    · exact htail' (htail ▸ List.mem_append_left _ hc)
  cases script with
  | completed pages =>
    have : Inbound.control .failExecution ∈ (completed pages).tail :=
      htail ▸ List.mem_append_left _ hmem
    simp [tail] at this
  | failed pages closed =>
    refine ⟨?_, hcomplete (by cases closed <;> simp [tail])⟩
    have hlast : ∃ front, (failed pages closed).tail = front ++ [.control .failExecution] ∧
        Inbound.control .failExecution ∉ front := by
      cases closed with
      | true => exact ⟨[.issued .close], rfl, by simp⟩
      | false => exact ⟨[], rfl, List.not_mem_nil⟩
    obtain ⟨front, hfront, hnot⟩ := hlast
    rw [htail, List.append_eq_append_iff] at hfront
    rcases hfront with ⟨c, rfl, -⟩ | ⟨c, rfl, hrest⟩
    · exact absurd (List.mem_append_left _ hmem) hnot
    · have hc : c ≠ [] := by
        rintro rfl
        rw [List.append_nil] at hmem
        exact hnot hmem
      obtain ⟨x, c, rfl⟩ := List.exists_cons_of_ne_nil hc
      exact (List.append_eq_nil_iff.mp (List.cons.inj hrest).2.symm).2

end Script

/-! ### The invariant -/

/-- Pages that are opened and released one after the other. -/
def alternation (n : ℕ) : List PageEvent := (List.replicate n [.opened, .released]).flatten

lemma alternation_succ (n : ℕ) : alternation (n + 1) = alternation n ++ [.opened, .released] := by
  rw [alternation, List.replicate_succ', List.flatten_append]
  rfl

/-- The places of the loop that are only reached without an active page. -/
def Point.betweenPages : Point → Bool
  | .poll | .scans | .store .afterScans | .checkComplete => true
  | _ => false

/-- What holds between any two steps. -/
structure Inv (script : Script R) (s : Scan R) : Prop where
  sent : script.messages = s.read ++ (s.ring ++ s.toSend)
  rows : (∀ cause, s.point ≠ .raised cause) →
    (pagesOf s.read).flatten = s.returned ++ s.ingress.activePage.getD []
  returned : s.returned <+: (pagesOf s.read).flatten
  closed : s.ingress.streamClosed = true → .issued .close ∈ s.read
  completed : s.ingress.executionCompleted = true → .control .completeExecution ∈ s.read
  failed : .control .failExecution ∈ s.read →
    (s.point = .poll ∨ s.point = .checkFailure) ∧ s.terminalError = true ∨
      ∃ cause, s.point = .raised cause
  noPage : s.point.betweenPages = true → s.ingress.activePage = none
  ended : s.ended = true →
    s.returned = script.pages.flatten ∧ .control .completeExecution ∈ s.read
  log : ∃ n, s.pageLog =
    alternation n ++ if s.ingress.activePage.isSome then [.opened] else []
  notBusy : s.point ≠ .raised (.ingress .activePageBusy)

variable {script : Script R} {s s' : Scan R}

lemma inv_start (script : Script R) : Inv script (.start script) where
  sent := rfl
  rows := fun _ => rfl
  returned := List.prefix_refl _
  closed := nofun
  completed := nofun
  failed := fun h => absurd h List.not_mem_nil
  noPage := fun _ => rfl
  ended := nofun
  log := ⟨0, rfl⟩
  notBusy := nofun

/-- The rows that were read are rows of the script. -/
lemma Inv.read_rows (h : Inv script s) :
    (pagesOf s.read).flatten <+: script.pages.flatten := by
  rw [← script.pagesOf_messages, h.sent, pagesOf_append, List.flatten_append]
  exact List.prefix_append _ _

/-- Nothing is left of an active page after the end. -/
lemma Inv.no_row_after_end (h : Inv script s) (hended : s.ended = true)
    (hraised : ∀ cause, s.point ≠ .raised cause) : s.ingress.activePage.getD [] = [] := by
  have hall := (h.ended hended).1
  have hlength := h.read_rows.length_le
  rw [h.rows hraised, hall, List.length_append] at hlength
  exact List.eq_nil_of_length_eq_zero (by omega)

/-- A step that only moves the point of the loop, to a place where nothing more is asked. -/
lemma Inv.goto (h : Inv script s) {point : Point} (hraised : ∀ cause, s.point ≠ .raised cause)
    (hfail : .control .failExecution ∈ s.read →
      (point = .poll ∨ point = .checkFailure) ∧ s.terminalError = true ∨
        ∃ cause, point = .raised cause)
    (hpage : point.betweenPages = true → s.ingress.activePage = none)
    (hbusy : point ≠ .raised (.ingress .activePageBusy)) :
    Inv script { s with point := point } where
  sent := h.sent
  rows := fun _ => h.rows hraised
  returned := h.returned
  closed := h.closed
  completed := h.completed
  failed := hfail
  noPage := hpage
  ended := h.ended
  log := h.log
  notBusy := hbusy

lemma Inv.raise (h : Inv script s) (hraised : ∀ cause, s.point ≠ .raised cause) {cause : Cause}
    (hcause : cause ≠ .ingress .activePageBusy) :
    Inv script { s with point := .raised cause } :=
  h.goto hraised (fun _ => .inr ⟨cause, rfl⟩) nofun fun heq => hcause (Point.raised.inj heq)

/-- Outside of polling no failure was read. -/
lemma Inv.not_failed (h : Inv script s) (hraised : ∀ cause, s.point ≠ .raised cause)
    (hpoll : s.point ≠ .poll) (hcheck : s.point ≠ .checkFailure) :
    .control .failExecution ∉ s.read := by
  intro hfail
  rcases h.failed hfail with ⟨hpoint | hpoint, -⟩ | ⟨cause, hpoint⟩
  · exact hpoll hpoint
  · exact hcheck hpoint
  · exact hraised cause hpoint

/-! ### Steps -/

lemma Inv.store (h : Inv script s) {place : Place} (hpoint : s.point = .store place)
    (fault : Option Fault) : Inv script (s.store place fault) := by
  have hraised : ∀ cause, s.point ≠ .raised cause := fun cause => by rw [hpoint]; exact nofun
  have hfail : .control .failExecution ∉ s.read :=
    h.not_failed hraised (by rw [hpoint]; exact nofun) (by rw [hpoint]; exact nofun)
  have hrows := h.rows hraised
  rw [Scan.store, ResultIngress.storeNextInto]
  cases hpage : s.ingress.activePage with
  | none =>
    simp only [Option.isSome_none, Bool.false_eq_true, if_false]
    exact h.goto hraised (fun hf => absurd hf hfail) (fun _ => hpage)
      (by cases place <;> exact nofun)
  | some rows =>
    simp only []
    by_cases hfault : fault = some .project
    · rw [if_pos hfault]
      exact h.raise hraised nofun
    · rw [if_neg hfault]
      cases rows with
      | nil =>
        -- The page is exhausted and released.
        obtain ⟨n, hlog⟩ := h.log
        rw [hpage, Option.isSome_some, if_pos rfl] at hlog
        rw [hpage, Option.getD_some] at hrows
        refine ⟨h.sent, fun _ => hrows, h.returned, h.closed, h.completed,
          fun hf => absurd hf hfail, fun _ => rfl, h.ended, ⟨n + 1, ?_⟩,
          by cases place <;> exact nofun⟩
        simp only [Option.isSome_some, if_true, hlog, alternation_succ,
          Option.isSome_none, Bool.false_eq_true, if_false, List.append_nil, List.append_assoc]
        rfl
      | cons row rest =>
        rw [hpage, Option.getD_some] at hrows
        refine ⟨h.sent, fun _ => ?_, ?_, h.closed, h.completed, fun hf => absurd hf hfail,
          nofun, fun hended => ?_, ?_, nofun⟩
        · rw [hrows, List.append_assoc]
          rfl
        · show s.returned ++ [row] <+: (pagesOf s.read).flatten
          rw [hrows, List.append_cons s.returned row rest]
          exact List.prefix_append _ _
        · have hnone := h.no_row_after_end hended hraised
          rw [hpage] at hnone
          exact absurd hnone (List.cons_ne_nil row rest)
        · obtain ⟨n, hlog⟩ := h.log
          rw [hpage] at hlog
          exact ⟨n, hlog⟩

variable {ring : List (Inbound R)}

/-- Reading a message, which was in the ring. -/
lemma Inv.sent_read (h : Inv script s) {message : Inbound R} (hring : s.ring = message :: ring) :
    script.messages = (s.read ++ [message]) ++ (ring ++ s.toSend) := by
  rw [h.sent, hring, List.append_assoc]
  rfl

lemma mem_read {read : List (Inbound R)} {a message : Inbound R} (h : a ∈ read) :
    a ∈ read ++ [message] := List.mem_append_left _ h

/-- Before the last message is read, no failure was. -/
lemma Inv.not_failed_of_ring (h : Inv script s) {message : Inbound R}
    (hring : s.ring = message :: ring) : .control .failExecution ∉ s.read := by
  intro hfail
  have hnone := (Script.nothing_after_failure h.sent hfail).1
  rw [hring] at hnone
  exact absurd hnone (List.cons_ne_nil _ _)

lemma pagesOf_control (read : List (Inbound R)) (message : Control) :
    pagesOf (read ++ [.control message]) = pagesOf read := by
  rw [pagesOf_append]
  exact List.append_nil _

lemma Inv.control (h : Inv script s) (hpoint : s.point = .poll) (fault : Option Fault)
    {message : Control} (hring : s.ring = .control message :: ring) :
    Inv script (({ s with ring := ring, read := s.read ++ [.control message] } :
      Scan R).handlePrimaryControl fault message) := by
  have hraised : ∀ cause, s.point ≠ .raised cause := fun cause => by rw [hpoint]; exact nofun
  have hnot := h.not_failed_of_ring hring
  have hrows := h.rows hraised
  have hpages := pagesOf_control s.read message
  cases message with
  | completeExecution =>
    refine ⟨h.sent_read hring, fun _ => ?_, ?_, fun hc => mem_read (h.closed hc),
      fun _ => List.mem_append_right _ List.mem_cons_self, fun hf => ?_, h.noPage,
      fun he => ⟨(h.ended he).1, mem_read (h.ended he).2⟩, h.log, h.notBusy⟩
    · exact (congrArg List.flatten hpages).trans hrows
    · exact (congrArg List.flatten hpages) ▸ h.returned
    · rcases List.mem_append.mp hf with hf | hf
      · exact absurd hf hnot
      · exact absurd (List.mem_singleton.mp hf) nofun
  | failExecution =>
    rw [Scan.handlePrimaryControl]
    split_ifs with hfault
    · refine ⟨h.sent_read hring, fun hr => absurd rfl (hr .control), ?_,
        fun hc => mem_read (h.closed hc), fun hc => mem_read (h.completed hc),
        fun _ => .inr ⟨.control, rfl⟩, nofun,
        fun he => ⟨(h.ended he).1, mem_read (h.ended he).2⟩, h.log, nofun⟩
      exact (congrArg List.flatten hpages) ▸ h.returned
    · refine ⟨h.sent_read hring, fun _ => ?_, ?_, fun hc => mem_read (h.closed hc),
        fun hc => mem_read (h.completed hc), fun _ => .inl ⟨.inl hpoint, rfl⟩, h.noPage,
        fun he => ⟨(h.ended he).1, mem_read (h.ended he).2⟩, h.log, h.notBusy⟩
      · exact (congrArg List.flatten hpages).trans hrows
      · exact (congrArg List.flatten hpages) ▸ h.returned

/-- A frame that is read while there is no active page. -/
lemma Inv.issued (h : Inv script s) (hpoint : s.point = .poll) (fault : Option Fault)
    {frame : Frame R} (hring : s.ring = .issued frame :: ring) :
    Inv script (({ s with ring := ring, read := s.read ++ [.issued frame] } :
      Scan R).acceptIssued fault frame) := by
  have hraised : ∀ cause, s.point ≠ .raised cause := fun cause => by rw [hpoint]; exact nofun
  have hpage : s.ingress.activePage = none := h.noPage (by rw [hpoint]; rfl)
  have hrows := h.rows hraised
  rw [hpage, Option.getD_none, List.append_nil] at hrows
  have hfail : .control .failExecution ∉ s.read ++ [.issued frame] := fun hf => by
    rcases List.mem_append.mp hf with hf | hf
    · exact h.not_failed_of_ring hring hf
    · exact absurd (List.mem_singleton.mp hf) nofun
  have hreturned : s.returned <+: (pagesOf (s.read ++ [.issued frame])).flatten := by
    rw [pagesOf_append, List.flatten_append]
    exact h.returned.trans (List.prefix_append _ _)
  have hrefused : ∀ cause, cause ≠ .ingress .activePageBusy →
      Inv script
        { s with ring := ring, read := s.read ++ [.issued frame], point := .raised cause } :=
    fun cause hcause => ⟨h.sent_read hring, fun hr => absurd rfl (hr cause), hreturned,
      fun hc => mem_read (h.closed hc), fun hc => mem_read (h.completed hc),
      fun hf => absurd hf hfail, nofun, fun he => ⟨(h.ended he).1, mem_read (h.ended he).2⟩, h.log,
      fun heq => hcause (Point.raised.inj heq)⟩
  rw [Scan.acceptIssued, ResultIngress.acceptFrame.eq_def]
  by_cases haccept : fault = some .accept
  · simp only [if_pos haccept]
    exact hrefused _ nofun
  · simp only [if_neg haccept]
    cases frame with
    | close =>
      refine ⟨h.sent_read hring, fun _ => ?_, hreturned,
        fun _ => List.mem_append_right _ List.mem_cons_self, fun hc => mem_read (h.completed hc),
        fun hf => absurd hf hfail, h.noPage,
        fun he => ⟨(h.ended he).1, mem_read (h.ended he).2⟩, h.log, h.notBusy⟩
      show (pagesOf (s.read ++ [.issued .close])).flatten = s.returned ++
        s.ingress.activePage.getD []
      rw [pagesOf_append, hpage, Option.getD_none, List.append_nil, ← hrows]
      exact congrArg List.flatten (List.append_nil _)
    | page rows =>
      simp only [hpage, Option.isSome_none, Bool.false_eq_true, if_false]
      by_cases hopen : fault = some .openCursor
      · simp only [if_pos hopen]
        exact hrefused _ nofun
      · simp only [if_neg hopen]
        refine ⟨h.sent_read hring, fun _ => ?_, hreturned, fun hc => mem_read (h.closed hc),
          fun hc => mem_read (h.completed hc), fun hf => absurd hf hfail, nofun,
          fun he => ⟨(h.ended he).1, mem_read (h.ended he).2⟩, ?_, nofun⟩
        · show (pagesOf (s.read ++ [.issued (.page rows)])).flatten = s.returned ++ rows
          rw [pagesOf_append, List.flatten_append, hrows]
          exact congrArg _ (List.append_nil rows)
        · obtain ⟨n, hlog⟩ := h.log
          rw [hpage] at hlog
          refine ⟨n, ?_⟩
          show s.pageLog ++ [.opened] = alternation n ++ [.opened]
          rw [hlog]
          exact congrArg (· ++ _) (List.append_nil _)

lemma pollPrimaryPeer_nil (fault : Option Fault) (h : s.ring = []) :
    s.pollPrimaryPeer fault = { s with point := .checkFailure } := by
  cases s
  cases h
  rfl

lemma Inv.pollPrimaryPeer (h : Inv script s) (hpoint : s.point = .poll) (fault : Option Fault) :
    Inv script (s.pollPrimaryPeer fault) := by
  have hraised : ∀ cause, s.point ≠ .raised cause := fun cause => by rw [hpoint]; exact nofun
  cases hring : s.ring with
  | nil =>
    rw [pollPrimaryPeer_nil fault hring]
    -- What was read in this poll is what the check behind it looks at.
    refine h.goto hraised (fun hf => ?_) nofun nofun
    rcases h.failed hf with ⟨-, herror⟩ | ⟨cause, hcause⟩
    · exact .inl ⟨.inr rfl, herror⟩
    · exact absurd hcause (hraised cause)
  | cons message ring =>
    rw [Scan.pollPrimaryPeer]
    simp only [hring]
    split_ifs with hfault
    · rw [← hring]
      exact h.raise hraised nofun
    · cases message with
      | control message => exact h.control hpoint fault hring
      | issued frame => exact h.issued hpoint fault hring

/-- A terminal error is only left alone where no failure was read. -/
lemma Inv.raiseTerminal (h : Inv script s) (hraised : ∀ cause, s.point ≠ .raised cause)
    {place : Place} (hplace : Point.betweenPages (.store place) = false) :
    Inv script (s.raiseTerminal (.store place)) := by
  rw [Scan.raiseTerminal]
  split_ifs with herror
  · refine ⟨h.sent, fun hr => absurd rfl (hr .workerFailed), h.returned, h.closed, h.completed,
      fun _ => .inr ⟨.workerFailed, rfl⟩, nofun, h.ended, h.log, nofun⟩
  · refine h.goto hraised (fun hf => ?_) (fun hb => absurd (hplace.symm.trans hb) nofun) nofun
    rcases h.failed hf with ⟨-, ht⟩ | ⟨cause, hcause⟩
    · exact absurd ht herror
    · exact absurd hcause (hraised cause)

/-- The null slot: every page was read and no row of one is left. -/
lemma Inv.finish (h : Inv script s) (hpoint : s.point = .checkComplete)
    (hcomplete : s.ingress.isComplete = true) :
    Inv script { s with ended := true, point := .idle } := by
  have hraised : ∀ cause, s.point ≠ .raised cause := fun cause => by rw [hpoint]; exact nofun
  have hfail : .control .failExecution ∉ s.read :=
    h.not_failed hraised (by rw [hpoint]; exact nofun) (by rw [hpoint]; exact nofun)
  rw [ResultIngress.isComplete, Bool.and_eq_true, Bool.and_eq_true] at hcomplete
  obtain ⟨⟨hclosed, hcompleted⟩, -⟩ := hcomplete
  refine ⟨h.sent, fun _ => h.rows hraised, h.returned, h.closed, h.completed,
    fun hf => absurd hf hfail, nofun, fun _ => ⟨?_, h.completed hcompleted⟩, h.log, nofun⟩
  calc s.returned
      = s.returned ++ s.ingress.activePage.getD [] := by
        rw [h.noPage (by rw [hpoint]; rfl), Option.getD_none, List.append_nil]
    _ = (pagesOf s.read).flatten := (h.rows hraised).symm
    _ = script.pages.flatten := by rw [Script.pages_of_close h.sent (h.closed hclosed)]

lemma Inv.loopStep (h : Inv script s) {fault : Option Fault} (hstep : s.loopStep fault = some s') :
    Inv script s' := by
  rw [Scan.loopStep] at hstep
  cases hpoint : s.point with
  | idle => rw [hpoint] at hstep; cases hstep
  | raised cause => rw [hpoint] at hstep; cases hstep
  | entry =>
    rw [hpoint] at hstep
    cases hstep
    exact h.raiseTerminal (fun cause => by rw [hpoint]; exact nofun) rfl
  | store place =>
    rw [hpoint] at hstep
    cases hstep
    exact h.store hpoint fault
  | poll =>
    rw [hpoint] at hstep
    cases hstep
    exact h.pollPrimaryPeer hpoint fault
  | checkFailure =>
    rw [hpoint] at hstep
    cases hstep
    exact h.raiseTerminal (fun cause => by rw [hpoint]; exact nofun) rfl
  | scans =>
    have hraised : ∀ cause, s.point ≠ .raised cause := fun cause => by rw [hpoint]; exact nofun
    have hfail := h.not_failed hraised (by rw [hpoint]; exact nofun) (by rw [hpoint]; exact nofun)
    simp only [hpoint] at hstep
    split_ifs at hstep
    · cases hstep
      exact h.raise hraised nofun
    · cases hstep
      exact h.goto hraised (fun hf => absurd hf hfail)
        (fun _ => h.noPage (by rw [hpoint]; rfl)) nofun
  | checkComplete =>
    have hraised : ∀ cause, s.point ≠ .raised cause := fun cause => by rw [hpoint]; exact nofun
    have hfail := h.not_failed hraised (by rw [hpoint]; exact nofun) (by rw [hpoint]; exact nofun)
    simp only [hpoint] at hstep
    split_ifs at hstep with hcomplete
    · cases hstep
      exact h.finish hpoint hcomplete
    · cases hstep
      exact h.goto hraised (fun hf => absurd hf hfail) nofun nofun

/-- Every move keeps the invariant. -/
lemma Inv.move (h : Inv script s) {m : Move} (hmove : s.move m = some s') : Inv script s' := by
  cases m with
  | step fault => exact h.loopStep hmove
  | call =>
    rw [Scan.move] at hmove
    split_ifs at hmove with hpoint
    cases hmove
    have hraised : ∀ cause, s.point ≠ .raised cause := fun cause => by rw [hpoint]; exact nofun
    have hfail := h.not_failed hraised (by rw [hpoint]; exact nofun) (by rw [hpoint]; exact nofun)
    exact h.goto hraised (fun hf => absurd hf hfail) nofun nofun
  | send =>
    rw [Scan.move] at hmove
    cases hsend : s.toSend with
    | nil => rw [hsend] at hmove; cases hmove
    | cons message rest =>
      rw [hsend] at hmove
      cases hmove
      refine ⟨?_, h.rows, h.returned, h.closed, h.completed, h.failed, h.noPage, h.ended, h.log,
        h.notBusy⟩
      rw [h.sent, hsend, List.append_assoc]
      rfl

/-- Some moves, whatever fails in them. -/
abbrev Scan.Reaches (s s' : Scan R) : Prop := Runs Scan.move (fun _ _ => True) s s'

lemma inv_of_runs (h : (Scan.start script).Reaches s) : Inv script s :=
  h.invariant (inv_start script) fun _ _ _ hs _ hmove => hs.move hmove

/-! ### After a failure -/

/-- An error is raised after at most `n` moves, whichever are made. -/
def Scan.RaisesWithin : ℕ → Scan R → Prop
  | 0, s => ∃ cause, s.point = .raised cause
  | n + 1, s => (∃ cause, s.point = .raised cause) ∨
      (∃ m s', s.move m = some s') ∧ ∀ m s', s.move m = some s' → s'.RaisesWithin n

section

variable (h : Inv script s) (hfail : .control .failExecution ∈ s.read)

include h hfail

/-- After a failure was read only the loop moves. -/
lemma Inv.step_of_failed {m : Move} (hmove : s.move m = some s') : ∃ fault, m = .step fault := by
  have hnone := (Script.nothing_after_failure h.sent hfail).1
  cases m with
  | step fault => exact ⟨fault, rfl⟩
  | send =>
    rw [Scan.move, (List.append_eq_nil_iff.mp hnone).2] at hmove
    cases hmove
  | call =>
    rw [Scan.move] at hmove
    split_ifs at hmove with hpoint
    rcases h.failed hfail with ⟨hp | hp, -⟩ | ⟨cause, hp⟩
    all_goals exact absurd (hpoint.symm.trans hp) nofun

/-- What a move does after a failure was read: the poll ends, or the error is raised. -/
lemma Inv.move_of_failed {m : Move} (hmove : s.move m = some s') :
    s.point = .poll ∧ s' = { s with point := .checkFailure } ∨
      s.point = .checkFailure ∧
        s' = { s with terminalError := false, point := .raised .workerFailed } := by
  obtain ⟨fault, rfl⟩ := h.step_of_failed hfail hmove
  rw [Scan.move, Scan.loopStep] at hmove
  have hring := (List.append_eq_nil_iff.mp (Script.nothing_after_failure h.sent hfail).1).1
  rcases h.failed hfail with ⟨hp | hp, herror⟩ | ⟨cause, hp⟩
  · rw [hp] at hmove
    simp only [pollPrimaryPeer_nil fault hring] at hmove
    exact .inl ⟨hp, (Option.some.inj hmove).symm⟩
  · rw [hp] at hmove
    have hraise := Option.some.inj hmove
    rw [Scan.raiseTerminal, if_pos herror] at hraise
    exact .inr ⟨hp, hraise.symm⟩
  · rw [hp] at hmove
    cases hmove

lemma Inv.returns_nothing (hruns : s.Reaches s') :
    Inv script s' ∧ .control .failExecution ∈ s'.read ∧ s'.returned = s.returned ∧
      s'.ended = s.ended := by
  refine hruns.invariant (P := fun t => Inv script t ∧ .control .failExecution ∈ t.read ∧
    t.returned = s.returned ∧ t.ended = s.ended) ⟨h, hfail, rfl, rfl⟩ ?_
  rintro t m t' ⟨hinv, hf, hreturned, hended⟩ - hmove
  have hinv' := hinv.move hmove
  rcases hinv.move_of_failed hf hmove with ⟨-, rfl⟩ | ⟨-, rfl⟩
  · exact ⟨hinv', hf, hreturned, hended⟩
  · exact ⟨hinv', hf, hreturned, hended⟩

lemma Inv.not_ended :
    s.ended = false := by
  cases hended : s.ended with
  | false => rfl
  | true =>
    exact absurd (h.ended hended).2 (Script.nothing_after_failure h.sent hfail).2

lemma Inv.raisesWithin :
    s.RaisesWithin 2 := by
  rcases h.failed hfail with ⟨hp | hp, -⟩ | hraised
  · refine .inr ⟨⟨.step none, _, by rw [Scan.move, Scan.loopStep, hp]⟩, fun m s' hmove => ?_⟩
    have hinv := h.move hmove
    rcases h.move_of_failed hfail hmove with ⟨-, rfl⟩ | ⟨hp', -⟩
    · refine .inr ⟨⟨.step none, _, rfl⟩, fun m s'' hmove' => ?_⟩
      rcases hinv.move_of_failed hfail hmove' with ⟨hp', -⟩ | ⟨-, rfl⟩
      · exact absurd hp' nofun
      · exact ⟨.workerFailed, rfl⟩
    · exact absurd (hp.symm.trans hp') nofun
  · refine .inr ⟨⟨.step none, _, by rw [Scan.move, Scan.loopStep, hp]⟩, fun m s' hmove => ?_⟩
    rcases h.move_of_failed hfail hmove with ⟨hp', -⟩ | ⟨-, rfl⟩
    · exact absurd (hp.symm.trans hp') nofun
    · exact .inl ⟨.workerFailed, rfl⟩
  · exact .inl hraised

end

/-! ### The result -/

/-- **The result of a query is complete or an error**, however sends and calls interleave and
whatever fails. The rows that were returned are the first ones of the pages. A null slot is only
returned after all of them and after `CompleteExecution` was read. Once `FailExecution` was read, an
error is raised within two steps and nothing more is returned. No frame is refused for a busy page,
and each page is released before the next is opened. -/
theorem result_complete_or_error (script : Script R) (s : Scan R)
    (hruns : (Scan.start script).Reaches s) :
    s.returned <+: script.pages.flatten ∧
      (s.ended = true →
        s.returned = script.pages.flatten ∧ .control .completeExecution ∈ s.read) ∧
      (.control .failExecution ∈ s.read → s.RaisesWithin 2 ∧
        ∀ s', s.Reaches s' → s'.returned = s.returned ∧ s'.ended = false) ∧
      s.point ≠ .raised (.ingress .activePageBusy) ∧
      ∃ n, s.pageLog = alternation n ++ if s.ingress.activePage.isSome then [.opened] else [] := by
  have h := inv_of_runs hruns
  refine ⟨h.returned.trans h.read_rows, h.ended, fun hfail => ⟨h.raisesWithin hfail, ?_⟩, h.notBusy,
    h.log⟩
  intro s' hreaches
  obtain ⟨-, -, hreturned, hended⟩ := h.returns_nothing hfail hreaches
  exact ⟨hreturned, hended.trans (h.not_ended hfail)⟩

/-- Two runs in which nothing fails in the backend: the null slot behind a page of two rows and an
empty one, and a worker that fails behind its first page. -/
theorem result_of_two_pages :
    (∃ s, (Scan.start (.completed [[1, 2], []])).Reaches s ∧ s.ended = true ∧
      s.returned = [1, 2] ∧ .control .completeExecution ∈ s.read) ∧
    ∃ s, (Scan.start (.failed [[1, 2]] false)).Reaches s ∧ s.returned = [1, 2] ∧
      s.RaisesWithin 2 ∧ ∀ s', s.Reaches s' → s'.returned = [1, 2] ∧ s'.ended = false := by
  constructor
  · have hrun : (runCalls Scan.move (fun _ _ => true) (.start (.completed [[1, 2], []]))
        (List.replicate 4 .send ++ .call :: List.replicate 5 (.step none) ++
          .call :: List.replicate 2 (.step none) ++ .call :: List.replicate 18 (.step none))).map
          (fun s => s.ended) = some true := by
      decide +kernel
    obtain ⟨s, hs, hended⟩ := Option.map_eq_some_iff.mp hrun
    have hruns : (Scan.start (.completed [[1, 2], []])).Reaches s :=
      (runs_of_runCalls hs).mono fun _ _ _ => trivial
    exact ⟨s, hruns, hended, (result_complete_or_error _ s hruns).2.1 hended⟩
  · have hrun : (runCalls Scan.move (fun _ _ => true) (.start (.failed [[1, 2]] false))
        (List.replicate 2 .send ++ .call :: List.replicate 5 (.step none) ++
          .call :: List.replicate 2 (.step none) ++ .call :: List.replicate 3 (.step none))).map
          (fun s => (s.returned, s.read.contains (.control .failExecution))) =
        some ([1, 2], true) := by
      decide +kernel
    obtain ⟨s, hs, heq⟩ := Option.map_eq_some_iff.mp hrun
    obtain ⟨hreturned, hfail⟩ := Prod.mk.inj heq
    have hruns : (Scan.start (.failed [[1, 2]] false)).Reaches s :=
      (runs_of_runCalls hs).mono fun _ _ _ => trivial
    obtain ⟨hraises, hnothing⟩ :=
      (result_complete_or_error _ s hruns).2.2.1 (List.contains_iff_mem.mp hfail)
    exact ⟨s, hruns, hreturned, hraises, fun s' hreaches => hreturned ▸ hnothing s' hreaches⟩

end PgFusion.CustomScan

/-
No byte is lost in the buffer of a reader.

A read is taken apart into what it does between two looks at its buffer, so that the reader can be
seen in the middle of things: while it waits for the rest of a line, behind every header line, and
when somebody asks it to stop meanwhile.  A `Moment` keeps the books beside it, on what was
delivered and on what was used, by reads that failed later on as well.  Every step keeps them
balanced: what is used and what is unread make up what was delivered.

The steps are those of `readMessage`.  A read of a message goes through them from one moment between
two reads to the next, with the answer and the reader that it returns.
-/
import Mathlib.Logic.Relation
import AnalyzerBridge.Proofs.Frame.HeaderLine

namespace AnalyzerBridge.Frame

/-! ### The reader in the middle of things -/

/-- What a reader is at. -/
inductive Stage where
  /-- Nothing.  The last read, if there was one, has given this answer. -/
  | idle (last : Option (Except ReadFailure Bytes))
  /-- It looks for a header line.  `length` is the content length found so far, `first` says that
  no line has been read yet, and `scanned` of the unread bytes need not be looked at. -/
  | line (length : Option Nat) (first : Bool) (scanned : Nat)
  /-- It waits for a payload of this length. -/
  | payload (length : Nat)

/-- A reader with its books. -/
structure Moment where
  reader : Reader
  stage : Stage
  /-- The bytes of the header lines and payloads that were taken out of the buffer. -/
  used : Bytes
  /-- The bytes that came from low-level reads. -/
  delivered : Bytes

namespace Stage

/-- The read is over, for this reason. -/
def failed (reason : ReadFailure) : Stage := idle (some (.error reason))

/-- What is to be done behind a header line. -/
def afterLine (length : Option Nat) : Bytes → Stage
  | [] =>
    match length with
    | some n => payload n
    | none => failed .missingLength
  | b :: text =>
    match Field.ofLine (b :: text) with
    | .length n => line (some n) false 0
    | .other => line length false 0
    | .badLength => failed (.invalidLength (b :: text))
    | .malformed => failed (.malformedHeader (b :: text))

/-- The reason why a header cannot be read: behind its first line the end of the stream is always
inside it. -/
def reasonInHeader (first : Bool) (reason : ReadFailure) : ReadFailure :=
  if !first && reason = .closed then .closedInHeader else reason

end Stage

/-- The reason for which a low-level read brings nothing, if it does not.  `atEnd` is what the end
of the stream means at that point. -/
def Fill.reason? (atEnd : ReadFailure) : Fill → Option ReadFailure
  | .data => none
  | .endOfStream => some atEnd
  | .stopped => some .stopped
  | .failed reason => some (.failed reason)

open Stage in
/-- What can happen to a reader at a time.  A low-level read may bring anything, whatever the ones
before have brought. -/
inductive Step : Moment → Moment → Prop
  /-- Somebody asks for a message. -/
  | ask {m : Moment} {last : Option (Except ReadFailure Bytes)} (stage : m.stage = .idle last) :
      Step m { m with stage := .line none true 0 }
  /-- Somebody asks the reader to stop. -/
  | stop {m : Moment} : Step m { m with reader := m.reader.requestStop }
  /-- A header line is taken out of the buffer, with its end. -/
  | line {m : Moment} {length : Option Nat} {first : Bool} {scanned : Nat} {text : Bytes}
      {r : Reader} (stage : m.stage = .line length first scanned)
      (view : m.reader.viewLine scanned = .line text r) :
      Step m { m with reader := r, stage := afterLine length text, used := m.used ++ (text ++ crlf) }
  /-- A header line is refused. -/
  | refuse {m : Moment} {length : Option Nat} {first : Bool} {scanned : Nat} {reason : ReadFailure}
      (stage : m.stage = .line length first scanned)
      (view : m.reader.viewLine scanned = .refused reason) :
      Step m { m with stage := failed (reasonInHeader first reason) }
  /-- A chunk arrives, and the header line is looked for in what has not been looked at. -/
  | resume {m : Moment} {length : Option Nat} {first : Bool} {scanned : Nat} {s s' : Source}
      {chunk : Bytes} {r : Reader} (stage : m.stage = .line length first scanned)
      (view : m.reader.viewLine scanned = .unfinished) (took : s.chunks = chunk :: s'.chunks)
      (fill : m.reader.fill s = (.data, r, s')) :
      Step m { m with
        reader := r
        stage := .line length first m.reader.unread.length
        delivered := m.delivered ++ chunk }
  /-- Nothing arrives, and the header ends in the middle. -/
  | cutHeader {m : Moment} {length : Option Nat} {first : Bool} {scanned : Nat} {s s' : Source}
      {answer : Fill} {r : Reader} {reason : ReadFailure}
      (stage : m.stage = .line length first scanned)
      (view : m.reader.viewLine scanned = .unfinished) (fill : m.reader.fill s = (answer, r, s'))
      (because : answer.reason? (if m.reader.unread.length = 0 then .closed else .closedInHeader)
        = some reason) :
      Step m { m with reader := r, stage := failed (reasonInHeader first reason) }
  /-- A payload is taken out of the buffer. -/
  | payload {m : Moment} {length : Nat} (stage : m.stage = .payload length)
      (whole : (m.reader.unread.take length).length = length) :
      Step m { m with
        reader := m.reader.consume length
        stage := .idle (some (.ok (m.reader.unread.take length)))
        used := m.used ++ m.reader.unread.take length }
  /-- A chunk of the payload arrives. -/
  | wait {m : Moment} {length : Nat} {s s' : Source} {chunk : Bytes} {r : Reader}
      (stage : m.stage = .payload length) (part : (m.reader.unread.take length).length ≠ length)
      (took : s.chunks = chunk :: s'.chunks) (fill : m.reader.fill s = (.data, r, s')) :
      Step m { m with reader := r, delivered := m.delivered ++ chunk }
  /-- Nothing arrives, and the payload ends in the middle. -/
  | cutPayload {m : Moment} {length : Nat} {s s' : Source} {answer : Fill} {r : Reader}
      {reason : ReadFailure} (stage : m.stage = .payload length)
      (part : (m.reader.unread.take length).length ≠ length)
      (fill : m.reader.fill s = (answer, r, s'))
      (because : answer.reason? (.closedInPayload r.unread.length length) = some reason) :
      Step m { m with reader := r, stage := failed reason }

/-- One step after another. -/
abbrev Steps : Moment → Moment → Prop := Relation.ReflTransGen Step

/-- What a new reader can come to. -/
inductive Reachable : Moment → Prop
  /-- It is new. -/
  | start : Reachable ⟨{}, .idle none, [], []⟩
  /-- Something happens to it. -/
  | step {m m' : Moment} (before : Reachable m) (next : Step m m') : Reachable m'

theorem Reachable.steps {m m' : Moment} (h : Reachable m) (hsteps : Steps m m') : Reachable m' := by
  induction hsteps with
  | refl => exact h
  | tail _ hstep ih => exact ih.step hstep

/-! ### Low-level reads -/

variable {r r' : Reader} {s s' : Source} {bytes : Bytes}

/-- With nothing but the ending left, all that can happen to the reader is to be stopped. -/
theorem fillFromEnding_eq (r : Reader) (ending : Ending) :
    (fillFromEnding r ending).2 = r ∨ (fillFromEnding r ending).2 = r.requestStop := by
  cases ending with
  | endOfStream => exact .inl rfl
  | failing reason => exact .inl rfl
  | stopRequest => exact .inr rfl

/-- A low-level read that brings nothing takes nothing. -/
theorem Reader.fill_eq_of_ne_data {answer : Fill} (h : r.fill s = (answer, r', s'))
    (hanswer : answer ≠ .data) : s' = s ∧ (r' = r.compact ∨ r' = r.compact.requestStop) := by
  unfold fill at h
  dsimp only at h
  split at h
  · simp only [Prod.mk.injEq] at h
    obtain ⟨-, rfl, rfl⟩ := h
    exact ⟨rfl, .inl rfl⟩
  · split at h
    · simp only [Prod.mk.injEq] at h
      obtain ⟨-, rfl, rfl⟩ := h
      exact ⟨rfl, fillFromEnding_eq _ _⟩
    · simp only [Prod.mk.injEq] at h
      obtain ⟨-, rfl, rfl⟩ := h
      exact ⟨rfl, .inl rfl⟩
    · simp only [Prod.mk.injEq] at h
      exact absurd h.1.symm hanswer

/-- What a low-level read brings is put behind what is unread. -/
theorem Keeps.fill_of_data (h : Keeps r bytes) {chunk : Bytes} (hs : s.chunks = chunk :: s'.chunks)
    (hfill : r.fill s = (.data, r', s')) : Keeps r' (bytes ++ chunk) := by
  obtain ⟨taken, htaken, rfl⟩ := Reader.fill_eq_of_data hfill
  obtain rfl : chunk = taken := (List.cons.inj (hs.symm.trans htaken)).1
  exact h.compact.receive chunk

theorem Keeps.fill_of_ne_data (h : Keeps r bytes) {answer : Fill}
    (hfill : r.fill s = (answer, r', s')) (hanswer : answer ≠ .data) : Keeps r' bytes := by
  obtain ⟨-, rfl | rfl⟩ := Reader.fill_eq_of_ne_data hfill hanswer
  · exact h.compact
  · exact h.compact.requestStop

theorem Fill.ne_data_of_reason? {answer : Fill} {atEnd reason : ReadFailure}
    (h : answer.reason? atEnd = some reason) : answer ≠ .data := by
  rintro rfl
  simp [reason?] at h

/-! ### Looking for a line -/

/-- A line that is found is the first one of what is unread, and the reader goes behind its end. -/
theorem Reader.viewLine_eq_line {scanned : Nat} {text : Bytes} (hscan : 10 ∉ r.unread.take scanned)
    (h : r.viewLine scanned = .line text r') :
    ∃ rest, r.unread = text ++ crlf ++ rest ∧ 10 ∉ text ∧ r' = r.consume (text.length + 2) := by
  by_cases hmem : 10 ∈ r.unread
  · obtain ⟨front, rest, hunread, hfree⟩ := Bytes.eq_append_of_mem hmem
    rw [viewLine_of_append hunread hfree hscan] at h
    split at h
    next hreturn =>
      obtain ⟨text, rfl⟩ := List.getLast?_eq_some_iff.mp hreturn
      rw [List.dropLast_concat, LineView.line.injEq] at h
      obtain ⟨rfl, rfl⟩ := h
      refine ⟨rest, by simp [hunread, crlf], fun hc => hfree (List.mem_append_left _ hc), ?_⟩
      rw [List.length_append]
      rfl
    next => simp at h
  · rw [viewLine_of_not_mem hmem] at h
    split at h <;> simp at h

/-- Where the buffer does not tell, it has no line feed in it. -/
theorem Reader.not_mem_of_unfinished {scanned : Nat} (hscan : 10 ∉ r.unread.take scanned)
    (h : r.viewLine scanned = .unfinished) : 10 ∉ r.unread := by
  intro hmem
  obtain ⟨front, rest, hunread, hfree⟩ := Bytes.eq_append_of_mem hmem
  rw [viewLine_of_append hunread hfree hscan] at h
  split at h <;> simp at h

/-! ### The books -/

/-- Where a line is looked for, the bytes that are passed over are there, and none is a line feed. -/
def Stage.Scanned (unread : Bytes) : Stage → Prop
  | line _ _ scanned => scanned ≤ unread.length ∧ 10 ∉ unread.take scanned
  | _ => True

/-- The books are balanced, and no line feed is overlooked. -/
structure Conserved (m : Moment) : Prop where
  /-- The position is in the buffer. -/
  inside : m.reader.pos ≤ m.reader.buffer.length
  /-- What was used and what is unread were delivered, in this order, and nothing else was. -/
  balance : m.used ++ m.reader.buffer.drop m.reader.pos = m.delivered
  /-- The search for a line goes on behind bytes that are no line feeds. -/
  scanned : m.stage.Scanned (m.reader.buffer.drop m.reader.pos)

namespace Conserved

variable {m m' : Moment}

theorem keeps (h : Conserved m) : Keeps m.reader m.reader.unread := .of_inside h.inside

theorem balance_unread (h : Conserved m) : m.used ++ m.reader.unread = m.delivered := by
  rw [m.reader.unread_eq, h.balance]

theorem not_mem_take (h : Conserved m) {length : Option Nat} {first : Bool} {scanned : Nat}
    (hstage : m.stage = .line length first scanned) : 10 ∉ m.reader.unread.take scanned := by
  have hscanned := h.scanned
  rw [hstage, ← m.reader.unread_eq] at hscanned
  exact hscanned.2

/-- The books are balanced if they are for some unread bytes that the reader keeps. -/
theorem of_keeps {stage : Stage} {used delivered : Bytes} (h : Keeps r bytes)
    (hbalance : used ++ bytes = delivered) (hscanned : stage.Scanned bytes) :
    Conserved ⟨r, stage, used, delivered⟩ :=
  ⟨h.inside, by rw [h.unread, hbalance], by rw [h.unread]; exact hscanned⟩

theorem scanned_afterLine (length : Option Nat) (text unread : Bytes) :
    (Stage.afterLine length text).Scanned unread := by
  unfold Stage.afterLine
  split
  · split <;> trivial
  · split
    · exact ⟨Nat.zero_le _, by simp⟩
    · exact ⟨Nat.zero_le _, by simp⟩
    · trivial
    · trivial

/-- **A step keeps the books balanced.** -/
theorem step (h : Conserved m) (hstep : Step m m') : Conserved m' := by
  have hbalance := h.balance_unread
  cases hstep with
  | ask => exact of_keeps h.keeps hbalance ⟨Nat.zero_le _, by simp⟩
  | stop => exact of_keeps h.keeps.requestStop hbalance (m.reader.unread_eq ▸ h.scanned)
  | @line length first scanned text r hstage hview =>
      obtain ⟨rest, hunread, -, rfl⟩ := Reader.viewLine_eq_line (h.not_mem_take hstage) hview
      have hrest : m.reader.unread.drop (text.length + 2) = rest := by
        rw [hunread, List.drop_append_of_le_length (by simp [crlf])]
        simp [crlf]
      refine of_keeps (h.keeps.consume ?_) ?_ (scanned_afterLine length text _)
      · simp [hunread, crlf]
      · rw [hrest, ← hbalance, hunread]
        simp
  | refuse => exact of_keeps h.keeps hbalance trivial
  | @resume length first scanned s s' chunk r hstage hview htook hfill =>
      refine of_keeps (h.keeps.fill_of_data htook hfill) ?_ ⟨?_, ?_⟩
      · rw [← List.append_assoc, hbalance]
      · rw [List.length_append]
        exact Nat.le_add_right _ _
      · -- The place to go on from is counted from the position, so the cut does not move it.
        rw [List.take_left]
        exact Reader.not_mem_of_unfinished (h.not_mem_take hstage) hview
  | cutHeader hstage hview hfill hbecause =>
      have hkeeps := h.keeps.fill_of_ne_data hfill (Fill.ne_data_of_reason? hbecause)
      exact of_keeps hkeeps hbalance trivial
  | @payload length hstage hwhole =>
      rw [List.length_take] at hwhole
      refine of_keeps (h.keeps.consume (by omega)) ?_ trivial
      rw [List.append_assoc, List.take_append_drop, hbalance]
  | @wait length s s' chunk r hstage _ htook hfill =>
      refine of_keeps (h.keeps.fill_of_data htook hfill) ?_ ?_
      · rw [← List.append_assoc, hbalance]
      · rw [hstage]
        trivial
  | cutPayload hstage _ hfill hbecause =>
      have hkeeps := h.keeps.fill_of_ne_data hfill (Fill.ne_data_of_reason? hbecause)
      exact of_keeps hkeeps hbalance trivial

/-- **Whatever a new reader comes to, its books are balanced.** -/
theorem of_reachable (h : Reachable m) : Conserved m := by
  induction h with
  | start => exact ⟨Nat.le_refl _, rfl, trivial⟩
  | step _ hstep ih => exact ih.step hstep

end Conserved

/-! ### A read of a message goes through the steps -/

/-- Steps lead from one moment to another while chunks are taken from a source. -/
structure Leads (m : Moment) (s : Source) (m' : Moment) (s' : Source) : Prop where
  steps : Steps m m'
  taken : ∃ chunks, s.chunks = chunks ++ s'.chunks ∧ m'.delivered = m.delivered ++ chunks.flatten

namespace Leads

variable {m m' m'' : Moment} {s'' : Source}

theorem trans (h : Leads m s m' s') (h' : Leads m' s' m'' s'') : Leads m s m'' s'' := by
  obtain ⟨chunks, hs, hdelivered⟩ := h.taken
  obtain ⟨more, hs', hdelivered'⟩ := h'.taken
  refine ⟨h.steps.trans h'.steps, chunks ++ more, ?_, ?_⟩
  · rw [hs, hs', List.append_assoc]
  · rw [hdelivered', hdelivered, List.flatten_append, List.append_assoc]

/-- A step that takes nothing from the source. -/
theorem of_step (h : Step m m') (hdelivered : m'.delivered = m.delivered) : Leads m s m' s :=
  ⟨.single h, [], rfl, by rw [hdelivered, List.flatten_nil, List.append_nil]⟩

/-- A step that takes a chunk. -/
theorem of_chunk {chunk : Bytes} (h : Step m m') (hs : s.chunks = chunk :: s'.chunks)
    (hdelivered : m'.delivered = m.delivered ++ chunk) : Leads m s m' s' :=
  ⟨.single h, [chunk], hs, by rw [hdelivered, List.flatten_singleton]⟩

end Leads

/-- What a reader is at behind a header line that was looked for. -/
def Stage.ofLine (length : Option Nat) (first : Bool) : Except ReadFailure Bytes → Stage
  | .ok text => afterLine length text
  | .error reason => failed (reasonInHeader first reason)

/-- What it is at behind a header. -/
def Stage.ofHeader : Except ReadFailure Nat → Stage
  | .ok length => payload length
  | .error reason => failed reason

/-- An operation of the reader goes through steps from a stage to another. -/
def Performs (r : Reader) (s : Source) (stage : Stage) (r' : Reader) (s' : Source) (stage' : Stage) :
    Prop :=
  ∀ used delivered, ∃ used' delivered',
    Leads ⟨r, stage, used, delivered⟩ s ⟨r', stage', used', delivered'⟩ s'

theorem Performs.trans {r'' : Reader} {s'' : Source} {stage stage' stage'' : Stage}
    (h : Performs r s stage r' s' stage') (h' : Performs r' s' stage' r'' s'' stage'') :
    Performs r s stage r'' s'' stage'' := by
  intro used delivered
  obtain ⟨used', delivered', hlead⟩ := h used delivered
  obtain ⟨used'', delivered'', hlead'⟩ := h' used' delivered'
  exact ⟨used'', delivered'', hlead.trans hlead'⟩

/-- Looking for a header line: one step for each chunk that arrives, and one more. -/
theorem headerLine_performs (r : Reader) (scanned : Nat) (s : Source) (length : Option Nat)
    (first : Bool) :
    Performs r s (.line length first scanned) (r.headerLine scanned s).2.1
      (r.headerLine scanned s).2.2 (.ofLine length first (r.headerLine scanned s).1) := by
  fun_induction Reader.headerLine r scanned s with
  | case1 r scanned s text r' hview =>
      exact fun used delivered => ⟨_, _, .of_step (.line rfl hview) rfl⟩
  | case2 r scanned s reason hview =>
      exact fun used delivered => ⟨_, _, .of_step (.refuse rfl hview) rfl⟩
  | case3 r scanned s hview seen r' s' hfill ih =>
      obtain ⟨chunk, hs, -⟩ := Reader.fill_eq_of_data hfill
      exact .trans (fun used delivered => ⟨_, _, .of_chunk (.resume rfl hview hs hfill) hs rfl⟩) ih
  | case4 r scanned s hview seen r' s' hfill =>
      obtain ⟨rfl, -⟩ := Reader.fill_eq_of_ne_data hfill (by simp)
      exact fun used delivered => ⟨_, _, .of_step (.cutHeader rfl hview hfill rfl) rfl⟩
  | case5 r scanned s hview r' s' hfill =>
      obtain ⟨rfl, -⟩ := Reader.fill_eq_of_ne_data hfill (by simp)
      exact fun used delivered => ⟨_, _, .of_step (.cutHeader rfl hview hfill rfl) rfl⟩
  | case6 r scanned s hview reason r' s' hfill =>
      obtain ⟨rfl, -⟩ := Reader.fill_eq_of_ne_data hfill (by simp)
      exact fun used delivered => ⟨_, _, .of_step (.cutHeader rfl hview hfill rfl) rfl⟩

/-- Reading a header: one line after another. -/
theorem header_performs (r : Reader) (length : Option Nat) (first : Bool) (s : Source) :
    Performs r s (.line length first 0) (r.header length first s).2.1 (r.header length first s).2.2
      (.ofHeader (r.header length first s).1) := by
  have hline := headerLine_performs r 0 s length first
  rcases hread : r.headerLine 0 s with ⟨reason | _ | ⟨b, text⟩, r', s'⟩
  · rw [hread] at hline
    rw [Reader.header_of_error hread]
    exact hline
  · rw [hread] at hline
    rw [Reader.header_of_nil hread]
    cases length with
    | none => exact hline
    | some n => exact hline
  · have hless := r.headerLine_remaining_lt 0 s hread
    rw [hread] at hline
    rw [Reader.header_of_cons hread]
    simp only [Stage.ofLine, Stage.afterLine] at hline
    cases hfield : Field.ofLine (b :: text) with
    | length n =>
        rw [hfield] at hline
        exact hline.trans (header_performs r' (some n) false s')
    | other =>
        rw [hfield] at hline
        exact hline.trans (header_performs r' length false s')
    | badLength =>
        rw [hfield] at hline
        exact hline
    | malformed =>
        rw [hfield] at hline
        exact hline
termination_by remaining r s

/-- Waiting for a payload: one step for each chunk that arrives, and one more. -/
theorem payload_performs (r : Reader) (length : Nat) (s : Source) :
    Performs r s (.payload length) (r.payload length s).2.1 (r.payload length s).2.2
      (.idle (some (r.payload length s).1)) := by
  fun_induction Reader.payload r length s with
  | case1 r s bytes hwhole =>
      exact fun used delivered => ⟨_, _, .of_step (.payload rfl hwhole) rfl⟩
  | case2 r s bytes hpart r' s' hfill ih =>
      obtain ⟨chunk, hs, -⟩ := Reader.fill_eq_of_data hfill
      exact .trans (fun used delivered => ⟨_, _, .of_chunk (.wait rfl hpart hs hfill) hs rfl⟩) ih
  | case3 r s bytes hpart r' s' hfill =>
      obtain ⟨rfl, -⟩ := Reader.fill_eq_of_ne_data hfill (by simp)
      exact fun used delivered => ⟨_, _, .of_step (.cutPayload rfl hpart hfill rfl) rfl⟩
  | case4 r s bytes hpart r' s' hfill =>
      obtain ⟨rfl, -⟩ := Reader.fill_eq_of_ne_data hfill (by simp)
      exact fun used delivered => ⟨_, _, .of_step (.cutPayload rfl hpart hfill rfl) rfl⟩
  | case5 r s bytes hpart reason r' s' hfill =>
      obtain ⟨rfl, -⟩ := Reader.fill_eq_of_ne_data hfill (by simp)
      exact fun used delivered => ⟨_, _, .of_step (.cutPayload rfl hpart hfill rfl) rfl⟩

/-- **A read of a message is a walk through the steps.** -/
theorem readMessage_performs (r : Reader) (s : Source) (last : Option (Except ReadFailure Bytes)) :
    Performs r s (.idle last) (r.readMessage s).2.1 (r.readMessage s).2.2
      (.idle (some (r.readMessage s).1)) := by
  have hask : Performs r s (.idle last) r s (.line none true 0) :=
    fun used delivered => ⟨_, _, .of_step (.ask rfl) rfl⟩
  have hheader := hask.trans (header_performs r none true s)
  rcases hread : r.header none true s with ⟨reason | length, r', s'⟩
  · rw [hread] at hheader
    rw [Reader.readMessage, hread]
    exact hheader
  · rw [hread] at hheader
    rw [Reader.readMessage, hread]
    exact hheader.trans (payload_performs r' length s')

/-! ### A run of calls -/

/-- Something that is done with a reader. -/
inductive ReaderEvent where
  /-- A message is asked for, and this is what the low-level reads bring meanwhile. -/
  | read (s : Source)
  /-- The reader is asked to stop. -/
  | stop

/-- A reader between two calls. -/
structure ReaderRun where
  reader : Reader
  /-- What the reads have answered, in order. -/
  answers : List (Except ReadFailure Bytes)
  /-- What the low-level reads have brought. -/
  delivered : Bytes

namespace ReaderRun

def step (run : ReaderRun) : ReaderEvent → ReaderRun
  | .read s =>
    let (answer, r, s') := run.reader.readMessage s
    { reader := r
      answers := run.answers ++ [answer]
      delivered := run.delivered ++ (s.chunks.take (s.chunks.length - s'.chunks.length)).flatten }
  | .stop => { run with reader := run.reader.requestStop }

/-- What a run of events leaves. -/
def after (run : ReaderRun) (events : List ReaderEvent) : ReaderRun := events.foldl step run

/-- A new reader can come to where the run is. -/
def Attained (run : ReaderRun) : Prop :=
  ∃ used, Reachable ⟨run.reader, .idle run.answers.getLast?, used, run.delivered⟩

theorem attained_start : Attained ⟨{}, [], []⟩ := ⟨[], .start⟩

theorem Attained.step {run : ReaderRun} (h : run.Attained) (e : ReaderEvent) :
    (run.step e).Attained := by
  obtain ⟨used, hreach⟩ := h
  cases e with
  | stop => exact ⟨used, hreach.step .stop⟩
  | read s =>
      obtain ⟨used', delivered', hsteps, chunks, hs, hdelivered⟩ :=
        readMessage_performs run.reader s run.answers.getLast? used run.delivered
      have htaken : s.chunks.take (s.chunks.length - (run.reader.readMessage s).2.2.chunks.length)
          = chunks := by
        conv_lhs => rw [hs]
        rw [List.length_append, Nat.add_sub_cancel, List.take_left]
      refine ⟨used', ?_⟩
      unfold ReaderRun.step
      dsimp only
      rw [List.getLast?_concat, htaken, ← hdelivered]
      exact hreach.steps hsteps

theorem Attained.after {run : ReaderRun} (h : run.Attained) (events : List ReaderEvent) :
    (run.after events).Attained := by
  induction events generalizing run with
  | nil => exact h
  | cons e events ih => exact ih (h.step e)

end ReaderRun

/--
**The buffer of a reader loses nothing, repeats nothing and hides no line feed.**

Whatever a new reader comes to, in the middle of a read or between two, the position is in the
buffer, and the bytes that header lines and payloads were made of, in reads that failed later on as
well, together with the unread ones are those that low-level reads have brought.  Where a header
line is looked for, no line feed is passed over, so the line that is found is the first one of the
unread bytes.  That is what any run of reads and requests to stop comes to, whatever the low-level
reads bring each time; and cutting the buffer back leaves the unread bytes alone.
-/
theorem reader_conserves_bytes :
    (∀ m, Reachable m → Conserved m
        ∧ ∀ length first scanned text r, m.stage = .line length first scanned →
            m.reader.viewLine scanned = .line text r →
              ∃ rest, m.reader.buffer.drop m.reader.pos = text ++ crlf ++ rest ∧ 10 ∉ text
                ∧ r.buffer.drop r.pos = rest)
      ∧ (∀ events : List ReaderEvent, (ReaderRun.after ⟨{}, [], []⟩ events).Attained)
      ∧ ∀ r : Reader, r.compact.buffer.drop r.compact.pos = r.buffer.drop r.pos := by
  refine ⟨fun m hreach => ⟨.of_reachable hreach, ?_⟩, fun events => ?_, fun r => ?_⟩
  · intro length first scanned text r hstage hview
    have hconserved := Conserved.of_reachable hreach
    obtain ⟨rest, hunread, hfree, rfl⟩ :=
      Reader.viewLine_eq_line (hconserved.not_mem_take hstage) hview
    refine ⟨rest, by rw [← m.reader.unread_eq, hunread], hfree, ?_⟩
    rw [← Reader.unread_eq, Reader.unread_consume, hunread,
      List.drop_append_of_le_length (by simp [crlf])]
    simp [crlf]
  · exact ReaderRun.attained_start.after events
  · rw [← Reader.unread_eq, Reader.unread_compact, r.unread_eq]

/-- The first line of a header has arrived together with the beginning of the second one, whose rest
has come just now; the first line was cut off in between. -/
theorem reader_conserves_bytes_cut_back :
    let m : Moment :=
      { reader := Reader.receive {} (ascii "X: y\r\n")
        stage := .line none false 3
        used := ascii "A:" ++ crlf
        delivered := ascii "A:\r\nX: y\r\n" }
    Reachable m ∧ m.used ++ m.reader.buffer.drop m.reader.pos = m.delivered
      ∧ 10 ∉ (m.reader.buffer.drop m.reader.pos).take 3
      ∧ ∃ rest, m.reader.buffer.drop m.reader.pos = ascii "X: y" ++ crlf ++ rest := by
  intro m
  let chunk := ascii "A:\r\nX: "
  let s : Source := ⟨[chunk], .endOfStream⟩
  let t : Source := ⟨[ascii "y\r\n"], .endOfStream⟩
  let done : Source := ⟨[], .endOfStream⟩
  let r : Reader := Reader.receive {} chunk
  have hempty : Reader.viewLine {} 0 = .unfinished := rfl
  have hfill : Reader.fill {} s = (.data, r, done) := by decide
  have hview : r.viewLine 0 = .line (ascii "A:") (r.consume 4) := by
    have hunread : r.unread = ascii "A:\r" ++ 10 :: ascii "X: " := by decide
    rw [Reader.viewLine_of_append hunread (by decide) (by decide), if_pos (by decide)]
    rfl
  have hwait : (r.consume 4).viewLine 0 = .unfinished := by
    rw [Reader.viewLine_of_not_mem (by decide), if_neg (by decide)]
  have hfill' : (r.consume 4).fill t = (.data, m.reader, done) := by decide
  have hfound : m.reader.viewLine 3 = .line (ascii "X: y") (m.reader.consume 6) := by
    have hunread : m.reader.unread = ascii "X: y\r" ++ 10 :: [] := by decide
    rw [Reader.viewLine_of_append hunread (by decide) (by decide), if_pos (by decide)]
    rfl
  have hreach : Reachable m := by
    have hask : Reachable ⟨{}, .line none true 0, [], []⟩ := .step .start (.ask rfl)
    have hchunk : Reachable ⟨r, .line none true 0, [], chunk⟩ :=
      hask.step (.resume rfl hempty rfl hfill)
    have hafter : Stage.afterLine none (ascii "A:") = .line none false 0 := rfl
    have hline : Reachable ⟨r.consume 4, .line none false 0, ascii "A:" ++ crlf, chunk⟩ :=
      hafter ▸ hchunk.step (.line rfl hview)
    exact hline.step (.resume rfl hwait rfl hfill')
  obtain ⟨hconserved, hfirst⟩ := reader_conserves_bytes.1 m hreach
  obtain ⟨rest, hrest, -⟩ := hfirst none false 3 _ _ rfl hfound
  exact ⟨hreach, hconserved.balance, hconserved.scanned.2, rest, hrest⟩

end AnalyzerBridge.Frame

/-
A reader that was asked to stop.

It looks for such a request before it looks at its descriptor, so it takes nothing more from there,
whatever waits.  What it has buffered it still reads, and that is all it reads: it goes on like a new
reader to which the buffered bytes are the whole stream, but for the reason that it gives at their
end.

The argument runs the two side by side.  `Abreast` says that a reader that was asked to stop and one
that has come to the end of its stream have the same bytes left.  Every part of a read keeps them so,
and answers the same up to `ReadFailure.asStopped`; only the low-level read tells them apart, and
there neither of them gets anything.
-/
import AnalyzerBridge.Proofs.Frame.Refinement

namespace AnalyzerBridge.Frame

/-- What a reader that was asked to stop says where another one finds the end of its stream. -/
def ReadFailure.asStopped : ReadFailure → ReadFailure
  | closed | closedInHeader | closedInPayload _ _ => stopped
  | failure => failure

/-! ### Low-level reads -/

theorem Reader.stopRequested_compact (r : Reader) : r.compact.stopRequested = r.stopRequested := by
  unfold compact
  split <;> rfl

/-- A reader that was asked to stop leaves its descriptor alone. -/
theorem Reader.fill_of_stopped {r : Reader} (h : r.stopRequested = true) (s : Source) :
    r.fill s = (.stopped, r.compact, s) := by
  simp [fill, stopRequested_compact, h]

/-- The stream has nothing more. -/
def Source.AtEnd (s : Source) : Prop :=
  ∀ r : Reader, r.stopRequested = false → r.fill s = (.endOfStream, r.compact, s)

theorem Source.atEnd_nil : AtEnd ⟨[], .endOfStream⟩ := by
  intro r h
  simp [Reader.fill, Reader.stopRequested_compact, h, fillFromEnding]

theorem Source.atEnd_empty : AtEnd ⟨[[]], .endOfStream⟩ := by
  intro r h
  simp [Reader.fill, Reader.stopRequested_compact, h]

/-! ### Two readers side by side -/

/-- The first reader was asked to stop, the second one was not, and both have the same bytes left. -/
structure Abreast (r q : Reader) : Prop where
  stopped : r.stopRequested = true
  running : q.stopRequested = false
  unread : q.unread = r.unread

theorem Abreast.consume {r q : Reader} (h : Abreast r q) (count : Nat) :
    Abreast (r.consume count) (q.consume count) where
  stopped := h.stopped
  running := h.running
  unread := congrArg (List.drop count) h.unread

theorem Abreast.compact {r q : Reader} (h : Abreast r q) : Abreast r.compact q.compact where
  stopped := by rw [Reader.stopRequested_compact, h.stopped]
  running := by rw [Reader.stopRequested_compact, h.running]
  unread := by rw [Reader.unread_compact, Reader.unread_compact, h.unread]

variable {α : Type}

/-- The first outcome is that of a reader that was asked to stop, the second that of one at the end
of its stream: they differ in the reason at the end, and both streams are as they were. -/
structure Parallel (s e : Source) (out plain : Except ReadFailure α × Reader × Source) : Prop where
  answer : out.1 = plain.1.mapError ReadFailure.asStopped
  source : out.2.2 = s
  atEnd : plain.2.2 = e
  abreast : Abreast out.2.1 plain.2.1

section

variable {r q : Reader} {s e : Source}

/-- Both readers see the same of the next header line. -/
theorem Abreast.viewLine (h : Abreast r q) (scanned : Nat) :
    (∃ text count, r.viewLine scanned = .line text (r.consume count)
        ∧ q.viewLine scanned = .line text (q.consume count))
      ∨ (∃ reason, r.viewLine scanned = .refused reason ∧ q.viewLine scanned = .refused reason
        ∧ reason.asStopped = reason)
      ∨ r.viewLine scanned = .unfinished ∧ q.viewLine scanned = .unfinished := by
  unfold Reader.viewLine
  rw [h.unread]
  cases lineFeedFrom? r.unread scanned with
  | none =>
      dsimp only
      split
      · exact .inr (.inl ⟨.lineTooLong, rfl, rfl, rfl⟩)
      · exact .inr (.inr ⟨rfl, rfl⟩)
  | some feed =>
      dsimp only
      split
      · exact .inr (.inl ⟨.lineNotTerminated, rfl, rfl, rfl⟩)
      · exact .inl ⟨_, _, rfl, rfl⟩

theorem headerLine_of_fill_stopped {scanned : Nat} (hview : r.viewLine scanned = .unfinished)
    (h : r.stopRequested = true) (s : Source) :
    r.headerLine scanned s = (.error .stopped, r.compact, s) := by
  rw [Reader.headerLine, hview]
  dsimp only
  split <;> simp_all [Reader.fill_of_stopped h]

theorem headerLine_of_atEnd {scanned : Nat} (hview : r.viewLine scanned = .unfinished)
    (h : r.stopRequested = false) (hs : s.AtEnd) :
    r.headerLine scanned s
      = (.error (if r.unread.length = 0 then .closed else .closedInHeader), r.compact, s) := by
  rw [Reader.headerLine, hview]
  dsimp only
  split <;> simp_all [hs r h]

theorem headerLine_parallel (he : e.AtEnd) (h : Abreast r q) (scanned : Nat) :
    Parallel s e (r.headerLine scanned s) (q.headerLine scanned e) := by
  rcases h.viewLine scanned with ⟨text, count, hr, hq⟩ | ⟨reason, hr, hq, hsame⟩ | ⟨hr, hq⟩
  · rw [Reader.headerLine, Reader.headerLine, hr, hq]
    exact ⟨rfl, rfl, rfl, h.consume count⟩
  · rw [Reader.headerLine, Reader.headerLine, hr, hq]
    exact ⟨by rw [Except.mapError, hsame], rfl, rfl, h⟩
  · rw [headerLine_of_fill_stopped hr h.stopped, headerLine_of_atEnd hq h.running he]
    refine ⟨?_, rfl, rfl, h.compact⟩
    dsimp only
    split <;> rfl

/-! ### Headers -/

theorem Parallel.cases {out plain : Except ReadFailure α × Reader × Source}
    (h : Parallel s e out plain) :
    ∃ r' q', Abreast r' q'
      ∧ ((∃ a, out = (.ok a, r', s) ∧ plain = (.ok a, q', e))
        ∨ ∃ reason, out = (.error reason.asStopped, r', s) ∧ plain = (.error reason, q', e)) := by
  obtain ⟨answer, r', s'⟩ := out
  obtain ⟨said, q', e'⟩ := plain
  obtain ⟨rfl, rfl, rfl, hnext⟩ := h
  refine ⟨r', q', hnext, ?_⟩
  cases said with
  | ok a => exact .inl ⟨a, rfl, rfl⟩
  | error reason => exact .inr ⟨reason, rfl, rfl⟩

/-- **Reading a header.**  Neither reader gets anything, so the unread bytes become fewer with each
line. -/
theorem header_parallel {r q : Reader} (he : e.AtEnd) (h : Abreast r q) (length : Option Nat)
    (first : Bool) :
    Parallel s e (r.header length first s) (q.header length first e) := by
  obtain ⟨r', q', hnext, ⟨text, hr, hq⟩ | ⟨reason, hr, hq⟩⟩ :=
    (headerLine_parallel (s := s) he h 0).cases
  · cases text with
    | nil =>
        rw [Reader.header_of_nil hr, Reader.header_of_nil hq]
        cases length with
        | none => exact ⟨rfl, rfl, rfl, hnext⟩
        | some n => exact ⟨rfl, rfl, rfl, hnext⟩
    | cons b text =>
        have hless := r.headerLine_remaining_lt 0 s hr
        rw [Reader.header_of_cons hr, Reader.header_of_cons hq]
        cases Field.ofLine (b :: text) with
        | length n => exact header_parallel he hnext (some n) false
        | other => exact header_parallel he hnext length false
        | badLength => exact ⟨rfl, rfl, rfl, hnext⟩
        | malformed => exact ⟨rfl, rfl, rfl, hnext⟩
  · rw [Reader.header_of_error hr, Reader.header_of_error hq]
    refine ⟨?_, rfl, rfl, hnext⟩
    cases reason <;> cases first <;> rfl
termination_by remaining r s

/-! ### Payloads and messages -/

theorem payload_parallel (he : e.AtEnd) (h : Abreast r q) (length : Nat) :
    Parallel s e (r.payload length s) (q.payload length e) := by
  by_cases hwhole : (r.unread.take length).length = length
  · rw [Reader.payload, Reader.payload, h.unread, if_pos hwhole, if_pos hwhole]
    exact ⟨rfl, rfl, rfl, h.consume length⟩
  · have hr : r.payload length s = (.error .stopped, r.compact, s) := by
      rw [Reader.payload, if_neg hwhole]
      split <;> simp_all [Reader.fill_of_stopped h.stopped]
    have hq : q.payload length e
        = (.error (.closedInPayload q.compact.unread.length length), q.compact, e) := by
      rw [Reader.payload, h.unread, if_neg hwhole]
      split <;> simp_all [he q h.running]
    rw [hr, hq]
    exact ⟨rfl, rfl, rfl, h.compact⟩

theorem readMessage_parallel (he : e.AtEnd) (h : Abreast r q) :
    Parallel s e (r.readMessage s) (q.readMessage e) := by
  obtain ⟨r', q', hnext, ⟨length, hr, hq⟩ | ⟨reason, hr, hq⟩⟩ :=
    (header_parallel (s := s) he h none true).cases
  · rw [Reader.readMessage, Reader.readMessage, hr, hq]
    exact payload_parallel he hnext length
  · rw [Reader.readMessage, Reader.readMessage, hr, hq]
    exact ⟨rfl, rfl, rfl, hnext⟩

/-- **Reading on, message after message, keeps the two readers side by side.** -/
theorem readMessages_parallel (count : Nat) (he : e.AtEnd) (h : Abreast r q) :
    let out := Reader.readMessages count r s
    let plain := Reader.readMessages count q e
    out.1 = plain.1.map (·.mapError ReadFailure.asStopped) ∧ out.2.2 = s ∧ plain.2.2 = e
      ∧ Abreast out.2.1 plain.2.1 := by
  induction count generalizing r q with
  | zero => exact ⟨rfl, rfl, rfl, h⟩
  | succ count ih =>
      obtain ⟨r', q', hnext, hread⟩ := (readMessage_parallel (s := s) he h).cases
      obtain ⟨hanswers, hrest⟩ := ih hnext
      rcases hread with ⟨payload, hr, hq⟩ | ⟨reason, hr, hq⟩
      · simp only [Reader.readMessages, hr, hq]
        exact ⟨congrArg (.ok payload :: ·) hanswers, hrest⟩
      · simp only [Reader.readMessages, hr, hq]
        exact ⟨congrArg (.error reason.asStopped :: ·) hanswers, hrest⟩

end

/-! ### A new reader with the same bytes -/

theorem Reader.header_congr {r q : Reader} {s e : Source}
    (h : r.headerLine 0 s = q.headerLine 0 e) (length : Option Nat) (first : Bool) :
    r.header length first s = q.header length first e := by
  rcases hline : q.headerLine 0 e with ⟨reason | _ | ⟨b, text⟩, q', e'⟩
  · rw [header_of_error (h.trans hline), header_of_error hline]
  · rw [header_of_nil (h.trans hline), header_of_nil hline]
  · rw [header_of_cons (h.trans hline), header_of_cons hline]

/-- A new reader begins by taking the only chunk there is. -/
theorem Reader.readMessages_of_chunk {chunk : Bytes} (h : chunk ≠ []) (count : Nat) :
    readMessages (count + 1) {} ⟨[chunk], .endOfStream⟩
      = readMessages (count + 1) (receive {} chunk) ⟨[], .endOfStream⟩ := by
  have hstart : Holds {} ⟨[chunk], .endOfStream⟩ [chunk].flatten := Holds.start (by simpa using h)
  have hline := headerLine_of_cons hstart 0 (by simp) (by simp) rfl
  have hread : readMessage {} ⟨[chunk], .endOfStream⟩
      = readMessage (receive {} chunk) ⟨[], .endOfStream⟩ := by
    rw [readMessage, readMessage, header_congr hline]
    rfl
  rw [readMessages, readMessages, hread]

/-- Behind its first read a new reader has the bytes of its only chunk and nothing more to come. -/
theorem exists_abreast {r : Reader} (h : r.stopRequested = true) (count : Nat) :
    ∃ q e, Reader.readMessages (count + 1) {} ⟨[r.unread], .endOfStream⟩
        = Reader.readMessages (count + 1) q e
      ∧ e.AtEnd ∧ e.chunks.flatten = [] ∧ Abreast r q := by
  by_cases hnil : r.unread = []
  · refine ⟨{}, ⟨[[]], .endOfStream⟩, by rw [hnil], Source.atEnd_empty, rfl, h, rfl, ?_⟩
    exact hnil.symm
  · exact ⟨Reader.receive {} r.unread, ⟨[], .endOfStream⟩, Reader.readMessages_of_chunk hnil count,
      Source.atEnd_nil, rfl, h, rfl, rfl⟩

/--
**A reader that was asked to stop reads what it has buffered, and then says that it was stopped.**

Whatever waits behind the descriptor, and however often the reader is asked for a message, nothing
is taken from there and the request stays in force.  The answers are those of a new reader that is
given the unread bytes in one chunk and then the end of the stream, with another reason where that
one comes to the end; and the same bytes are left.
-/
theorem readMessages_of_stopRequested {r : Reader} (h : r.stopRequested = true) (s : Source)
    (count : Nat) :
    let out := Reader.readMessages count r s
    let fresh := Reader.readMessages count {} ⟨[r.unread], .endOfStream⟩
    out.2.2 = s ∧ out.2.1.stopRequested = true
      ∧ out.1 = fresh.1.map (·.mapError ReadFailure.asStopped)
      ∧ out.2.1.unread = fresh.2.1.unread ++ fresh.2.2.chunks.flatten
      ∧ ReadFailure.stopped.failure
        = { kind := .connectionClosed, message := ascii "reader stopped" } := by
  intro out fresh
  cases count with
  | zero => exact ⟨rfl, h, rfl, by simp [out, fresh, Reader.readMessages], rfl⟩
  | succ count =>
      obtain ⟨q, e, hfresh, he, hempty, habreast⟩ := exists_abreast h count
      obtain ⟨hanswers, hsource, hend, hlast⟩ := readMessages_parallel (s := s) (count + 1) he habreast
      refine ⟨hsource, hlast.stopped, ?_, ?_, rfl⟩
      · rw [hanswers, ← hfresh]
      · simp only [fresh, hfresh, hend, hempty, List.append_nil]
        exact hlast.unread.symm

/-- Behind a line that is used up the reader holds a frame and a part of the next one, whose rest
waits in front of a failure. -/
theorem readMessages_of_stopRequested_inside_payload :
    let held := ascii "Content-Length: 2\r\n\r\n\x7b\x7dContent-Length: 9\r\n\r\noo"
    let r : Reader := { buffer := ascii "X: y\r\n" ++ held, pos := 6, stopRequested := true }
    let s : Source := ⟨[ascii "ps, more"], .failing (ascii "Is a directory")⟩
    let out := Reader.readMessages 3 r s
    let fresh := Reader.readMessages 3 {} ⟨[held], .endOfStream⟩
    r.stopRequested = true ∧ r.unread = held
      ∧ out.2.2 = s ∧ out.2.1.stopRequested = true
      ∧ out.1 = fresh.1.map (·.mapError ReadFailure.asStopped)
      ∧ out.2.1.unread = fresh.2.1.unread ++ fresh.2.2.chunks.flatten := by
  intro held r s out fresh
  have hheld : r.unread = held := by decide
  obtain ⟨hsource, hstill, hanswers, hleft, -⟩ := readMessages_of_stopRequested (r := r) rfl s 3
  rw [hheld] at hanswers hleft
  exact ⟨rfl, hheld, hsource, hstill, hanswers, hleft⟩

end AnalyzerBridge.Frame

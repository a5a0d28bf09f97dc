/-
Reading frames from a stream that arrives in pieces.

The reader keeps what it has received and a position in it; the bytes before the
position are used up, and now and then the buffer is cut back to the rest.  The rest
itself is kept beside them, so that a header line costs its own length and not that of
all the lines before it.  The reader asks for more only when the buffer cannot answer,
and one low-level read hands over one chunk.  What the descriptor will still deliver is
a `Source`: chunks, and then an ending that stays.

The answer of `readMessage` is a payload or the reason why there is none.  A failing
read keeps its place: whole header lines it went past are used up, the line or payload
it failed in is not.
-/
import AnalyzerBridge.Failure
import AnalyzerBridge.Frame

namespace AnalyzerBridge.Frame

/-! ### What a descriptor delivers -/

/-- What happens once all chunks are read. -/
inductive Ending where
  /-- The other side has closed the stream. -/
  | endOfStream
  /-- Every further read fails, for the given reason. -/
  | failing (reason : Bytes)
  /-- Nothing more arrives, until someone asks the reader to stop. -/
  | stopRequest
  deriving DecidableEq, Repr

/-- What a descriptor will still deliver. -/
structure Source where
  /-- The chunks that further reads return, one each. -/
  chunks : List Bytes
  /-- What follows them. -/
  ending : Ending
  deriving DecidableEq, Repr

/-! ### The state of a reader -/

/-- A reader of frames. -/
structure Reader where
  /-- The bytes received and not yet cut off. -/
  buffer : Bytes := []
  /-- How many bytes of the buffer are used up. -/
  pos : Nat := 0
  /-- The bytes received and not yet used. -/
  unread : Bytes := buffer.drop pos
  unread_eq : unread = buffer.drop pos := by rfl
  /-- Someone has asked the reader to stop. -/
  stopRequested : Bool := false
  deriving DecidableEq, Repr

namespace Reader

theorem length_unread (r : Reader) : r.unread.length = r.buffer.length - r.pos := by
  rw [r.unread_eq, List.length_drop]

/-- Uses up the next bytes of the buffer. -/
def consume (r : Reader) (count : Nat) : Reader :=
  { r with
    pos := r.pos + count
    unread := r.unread.drop count
    unread_eq := by rw [r.unread_eq, List.drop_drop] }

@[simp] theorem unread_consume (r : Reader) (count : Nat) :
    (r.consume count).unread = r.unread.drop count := rfl

/-- Takes a chunk into the buffer. -/
def receive (r : Reader) (chunk : Bytes) : Reader :=
  let buffer := r.buffer ++ chunk
  { r with buffer, unread := buffer.drop r.pos, unread_eq := rfl }

theorem length_unread_receive (r : Reader) (chunk : Bytes) :
    (r.receive chunk).unread.length ≤ r.unread.length + chunk.length := by
  simp only [receive, r.length_unread, List.length_drop, List.length_append]
  omega

/-- Cuts off the used bytes once they make up half of the buffer. -/
def compact (r : Reader) : Reader :=
  if 0 < r.pos ∧ r.buffer.length ≤ r.pos * 2 then
    { r with buffer := r.unread, pos := 0, unread := r.unread, unread_eq := rfl }
  else r

@[simp] theorem unread_compact (r : Reader) : r.compact.unread = r.unread := by
  unfold compact
  split <;> rfl

/-- Asks the reader to stop.  What is buffered can still be read. -/
def requestStop (r : Reader) : Reader := { r with stopRequested := true }

end Reader

/-! ### Why a read fails -/

/-- The reasons for which a read hands over no payload. -/
inductive ReadFailure where
  /-- The stream ended between two frames. -/
  | closed
  /-- The stream ended inside a header. -/
  | closedInHeader
  /-- The stream ended inside a payload. -/
  | closedInPayload (received wanted : Nat)
  /-- A header line ends in a line feed with no carriage return before it. -/
  | lineNotTerminated
  /-- A header line does not end. -/
  | lineTooLong
  /-- A header line is no field. -/
  | malformedHeader (line : Bytes)
  /-- A content length is no number or too large. -/
  | invalidLength (line : Bytes)
  /-- A header has no content length. -/
  | missingLength
  /-- The reader was asked to stop. -/
  | stopped
  /-- The descriptor failed. -/
  | failed (reason : Bytes)
  deriving DecidableEq, Repr

namespace ReadFailure

/-- Whether the stream broke its format or merely went away. -/
def kind : ReadFailure → FailureKind
  | closed | stopped | failed _ => .connectionClosed
  | _ => .framing

/-- The wording of the reason. -/
def message : ReadFailure → Bytes
  | closed => ascii "stream closed"
  | closedInHeader => ascii "stream closed inside header"
  | closedInPayload received wanted =>
    ascii "stream closed after " ++ Bytes.decimal received ++ ascii " of " ++ Bytes.decimal wanted
      ++ ascii " payload bytes"
  | lineNotTerminated => ascii "header line not terminated by CRLF"
  | lineTooLong => ascii "header line too long"
  | malformedHeader line => ascii "malformed header line: " ++ line
  | invalidLength line => ascii "invalid Content-Length: " ++ line
  | missingLength => ascii "missing Content-Length header"
  | stopped => ascii "reader stopped"
  | failed reason => ascii "read failed: " ++ reason

/-- The failure that a caller of the reader sees. -/
def failure (f : ReadFailure) : Failure := { kind := f.kind, message := f.message }

end ReadFailure

/-! ### Low-level reads -/

/-- The answer of one low-level read. -/
inductive Fill where
  | data
  | endOfStream
  | stopped
  | failed (reason : Bytes)
  deriving DecidableEq, Repr

/-- One low-level read with nothing but the ending left. -/
def fillFromEnding (r : Reader) : Ending → Fill × Reader
  | .endOfStream => (.endOfStream, r)
  | .failing reason => (.failed reason, r)
  | .stopRequest => (.stopped, r.requestStop)

/-- One low-level read: the buffer is cut back first, and a request to stop comes before
anything the descriptor holds.  An empty chunk is the end of the stream. -/
def Reader.fill (r : Reader) (s : Source) : Fill × Reader × Source :=
  let r := r.compact
  if r.stopRequested then (.stopped, r, s)
  else match s.chunks with
    | [] =>
      let (answer, r) := fillFromEnding r s.ending
      (answer, r, s)
    | [] :: _ => (.endOfStream, r, s)
    | chunk :: chunks => (.data, r.receive chunk, { s with chunks })

/-- A low-level read that brings something takes one chunk. -/
theorem Reader.fill_eq_of_data {r r' : Reader} {s s' : Source} (h : r.fill s = (.data, r', s')) :
    ∃ chunk, s.chunks = chunk :: s'.chunks ∧ r' = r.compact.receive chunk := by
  unfold Reader.fill at h
  dsimp only at h
  split at h
  · simp at h
  · split at h
    · cases hs : s.ending <;> simp [fillFromEnding, hs] at h
    · simp at h
    · rename_i chunk chunks _ hchunks
      simp only [Prod.mk.injEq, true_and] at h
      obtain ⟨rfl, rfl⟩ := h
      exact ⟨chunk, hchunks, rfl⟩

theorem Reader.fill_data {r r' : Reader} {s s' : Source} (h : r.fill s = (.data, r', s')) :
    s'.chunks.length < s.chunks.length := by
  obtain ⟨chunk, hchunks, -⟩ := fill_eq_of_data h
  simp [hchunks]

/-! ### Header lines -/

/-- The index of the first line feed at or after `start`. -/
def lineFeedFrom? (bytes : Bytes) (start : Nat) : Option Nat :=
  ((bytes.drop start).findIdx? (· == 10)).map (start + ·)

/-- What the reader can say of the next header line from its buffer alone. -/
inductive LineView where
  /-- The line is whole; the reader stands behind it. -/
  | line (text : Bytes) (r : Reader)
  /-- The line cannot be accepted. -/
  | refused (reason : ReadFailure)
  /-- The end of the line has not arrived. -/
  | unfinished

/-- Looks for the next header line in the buffer.  `scanned` is how many of the unread bytes
are known to hold no line feed. -/
def Reader.viewLine (r : Reader) (scanned : Nat) : LineView :=
  match lineFeedFrom? r.unread scanned with
  | some feed =>
    if feed = 0 ∨ r.unread[feed - 1]? ≠ some 13 then .refused .lineNotTerminated
    else .line (r.unread.take (feed - 1)) (r.consume (feed + 1))
  | none => if lineLimit < r.unread.length then .refused .lineTooLong else .unfinished

/-- Reads one header line.  A stream that ends before any byte of the line is `closed`. -/
def Reader.headerLine (r : Reader) (scanned : Nat) (s : Source) :
    Except ReadFailure Bytes × Reader × Source :=
  match r.viewLine scanned with
  | .line text r => (.ok text, r, s)
  | .refused reason => (.error reason, r, s)
  | .unfinished =>
    let seen := r.unread.length
    match _h : r.fill s with
    | (.data, r', s') => r'.headerLine seen s'
    | (.endOfStream, r', s') => (.error (if seen = 0 then .closed else .closedInHeader), r', s')
    | (.stopped, r', s') => (.error .stopped, r', s')
    | (.failed reason, r', s') => (.error (.failed reason), r', s')
termination_by s.chunks.length
decreasing_by exact Reader.fill_data _h

/-! ### What is left to read

Every header line that is read takes at least its line feed from what is left, so a
reader cannot read header lines for ever.
-/

/-- How many bytes are still to be used, buffered or not. -/
def remaining (r : Reader) (s : Source) : Nat :=
  r.unread.length + s.chunks.flatten.length

/-- A low-level read adds nothing to what is left. -/
theorem Reader.fill_remaining_le {r r' : Reader} {s s' : Source}
    (h : r.fill s = (.data, r', s')) : remaining r' s' ≤ remaining r s := by
  obtain ⟨chunk, hchunks, rfl⟩ := fill_eq_of_data h
  have hle := r.compact.length_unread_receive chunk
  rw [unread_compact] at hle
  simp only [remaining, hchunks, List.flatten_cons, List.length_append]
  omega

theorem lineFeedFrom?_bounds {bytes : Bytes} {start feed : Nat}
    (h : lineFeedFrom? bytes start = some feed) : start ≤ feed ∧ feed < bytes.length := by
  unfold lineFeedFrom? at h
  obtain ⟨i, hi, rfl⟩ := Option.map_eq_some_iff.1 h
  have hlt := (List.findIdx?_eq_some_iff_getElem.1 hi).1
  simp only [List.length_drop] at hlt
  omega

/-- A header line that is read takes at least one byte. -/
theorem Reader.headerLine_remaining_lt (r : Reader) (scanned : Nat) (s : Source) {line : Bytes}
    {r' : Reader} {s' : Source} (h : r.headerLine scanned s = (.ok line, r', s')) :
    remaining r' s' < remaining r s := by
  fun_induction Reader.headerLine r scanned s with
  | case1 r scanned s text r₁ hview =>
    simp only [Prod.mk.injEq] at h
    obtain ⟨-, rfl, rfl⟩ := h
    unfold Reader.viewLine at hview
    split at hview
    · rename_i feed hfeed
      have := lineFeedFrom?_bounds hfeed
      split at hview
      · simp at hview
      · simp only [LineView.line.injEq] at hview
        obtain ⟨-, rfl⟩ := hview
        simp only [remaining, Reader.unread_consume, List.length_drop]
        omega
    · split at hview <;> simp at hview
  | case2 => simp at h
  | case3 r scanned s _ seen r₁ s₁ hfill ih =>
    have := ih h
    have := Reader.fill_remaining_le hfill
    omega
  | case4 => simp at h
  | case5 => simp at h
  | case6 => simp at h

/-! ### Payloads -/

/-- Reads a payload of the given length. -/
def Reader.payload (r : Reader) (length : Nat) (s : Source) :
    Except ReadFailure Bytes × Reader × Source :=
  let bytes := r.unread.take length
  if bytes.length = length then (.ok bytes, r.consume length, s)
  else
    match _h : r.fill s with
    | (.data, r', s') => r'.payload length s'
    | (.endOfStream, r', s') =>
      (.error (.closedInPayload r'.unread.length length), r', s')
    | (.stopped, r', s') => (.error .stopped, r', s')
    | (.failed reason, r', s') => (.error (.failed reason), r', s')
termination_by s.chunks.length
decreasing_by exact Reader.fill_data _h

/-! ### Whole frames -/

/-- Reads header lines up to the empty one that ends the header.  `length` is the content
length found so far, `first` says that no line has been read yet. -/
def Reader.header (r : Reader) (length : Option Nat) (first : Bool) (s : Source) :
    Except ReadFailure Nat × Reader × Source :=
  match _h : r.headerLine 0 s with
  | (.error reason, r', s') =>
    (.error (if !first && reason = .closed then .closedInHeader else reason), r', s')
  | (.ok [], r', s') =>
    match length with
    | some n => (.ok n, r', s')
    | none => (.error .missingLength, r', s')
  | (.ok (b :: line), r', s') =>
    match Field.ofLine (b :: line) with
    | .length n => r'.header (some n) false s'
    | .other => r'.header length false s'
    | .badLength => (.error (.invalidLength (b :: line)), r', s')
    | .malformed => (.error (.malformedHeader (b :: line)), r', s')
termination_by remaining r s
decreasing_by all_goals exact Reader.headerLine_remaining_lt r 0 s _h

/-- Reads one frame and hands over its payload. -/
def Reader.readMessage (r : Reader) (s : Source) : Except ReadFailure Bytes × Reader × Source :=
  match r.header none true s with
  | (.ok length, r', s') => r'.payload length s'
  | (.error reason, r', s') => (.error reason, r', s')

end AnalyzerBridge.Frame

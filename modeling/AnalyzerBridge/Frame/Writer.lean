/-
Writing frames to a stream.

A frame is written with as many calls as the descriptor needs; each takes some of the
bytes, asks to be tried again, or fails.  A failure may leave a part of the frame on the
wire, so after one the writer is of no further use: nothing it could write would be
understood.

A message is serialised before the writer is looked at.  One that has no serialisation is refused
by itself: whatever state the writer is in, nothing is written and the writer stays as it is.
-/
import AnalyzerBridge.Failure
import AnalyzerBridge.Frame

namespace AnalyzerBridge.Frame

/-- The answer of one call that writes bytes. -/
inductive WriteAnswer where
  /-- One more than `extra` bytes were taken, or all there were. -/
  | took (extra : Nat)
  /-- Nothing was taken; the call is to be repeated. -/
  | again
  /-- The descriptor failed. -/
  | failed (reason : Bytes)
  deriving DecidableEq, Repr

/-- What a writer is given: the serialisation of a message, or why the message has none. -/
abbrev Outgoing := Except Bytes Bytes

/-- A writer of frames. -/
structure Writer where
  /-- The descriptor is open. -/
  isOpen : Bool := true
  /-- A call has failed inside a frame. -/
  broken : Bool := false
  deriving DecidableEq, Repr

namespace Writer

/-- Gives up the descriptor. -/
def close (w : Writer) : Writer := { w with isOpen := false }

/-- Frames are still accepted. -/
def accepts (w : Writer) : Bool := w.isOpen && !w.broken

/-- Offers bytes until all are taken or a call fails.  The result is what reached the wire
and the reason of a failure.  A descriptor that is not said to behave otherwise takes
everything. -/
def push : List WriteAnswer → Bytes → Bytes × Option Bytes
  | _, [] => ([], none)
  | [], rest => (rest, none)
  | .took extra :: answers, rest =>
    let (written, failure) := push answers (rest.drop (extra + 1))
    (rest.take (extra + 1) ++ written, failure)
  | .again :: answers, rest => push answers rest
  | .failed reason :: _, _ => ([], some reason)

/-- The outcome of writing one frame. -/
structure Written where
  /-- Why the frame was not written, if it was not. -/
  failure : Option Failure
  /-- The bytes that reached the wire. -/
  wire : Bytes
  /-- The writer afterwards. -/
  writer : Writer
  deriving DecidableEq, Repr

/-- Writes the frame of a payload. -/
def writeMessage (w : Writer) (answers : List WriteAnswer) (payload : Bytes) : Written :=
  if w.accepts then
    match push answers (encode payload) with
    | (wire, none) => { failure := none, wire, writer := w }
    | (wire, some reason) =>
      { failure := some { kind := .connectionClosed, message := ascii "write failed: " ++ reason }
        wire
        writer := { w with broken := true } }
  else
    { failure := some { kind := .connectionClosed, message := ascii "output stream closed" }
      wire := []
      writer := w }

/-- Writes the frame of a message. -/
def offer (w : Writer) (answers : List WriteAnswer) : Outgoing → Written
  | .ok payload => w.writeMessage answers payload
  | .error reason =>
    { failure := some { kind := .invalidParams, message := ascii "unencodable message: " ++ reason }
      wire := []
      writer := w }

end Writer

end AnalyzerBridge.Frame

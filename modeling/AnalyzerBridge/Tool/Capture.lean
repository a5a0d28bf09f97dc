/-
Reading two streams to their ends.

A tool writes to two streams at once, and to wait on one while the other is full would hold
both sides up for ever.  So rounds of waiting tell which streams can be read, each such stream
is read once, and the rounds go on until both streams have ended.  What is read goes to the
text of the stream it came from.

A round tells of descriptors, not of streams, and a stream loses its descriptor when it ends.  So
which of the streams can be read is found out anew for each descriptor that a round tells of, by
comparing it with the one that standard output has by then.
-/
import AnalyzerBridge.Host.World

namespace AnalyzerBridge.Tool

open Host (Descriptor)

/-- How one attempt to read a descriptor goes. -/
inductive Attempt where
  /-- It is interrupted and reads nothing. -/
  | interrupted
  /-- It gets one byte more than `extra`, or as many as there are, or the end of the stream. -/
  | got (extra : Nat)
  /-- The descriptor cannot be read. -/
  | failed
  deriving DecidableEq, Repr

/-- What a round of waiting finds. -/
inductive Round where
  /-- The waiting is interrupted. -/
  | interrupted
  /-- Some descriptors can be read, and this is how the attempts on them go. -/
  | ready (attempts : Descriptor → Option Attempt)
  /-- The waiting fails. -/
  | failed

/-- What there is to be read behind a descriptor. -/
structure Wire where
  /-- What the other side has written or will write and was not read. -/
  rest : Bytes
  /-- An attempt has come upon the end. -/
  told : Bool := false
  deriving DecidableEq, Repr

/-- One of the streams of a tool. -/
inductive Side where
  | output
  | errors
  deriving DecidableEq, Repr

/-- A stream that is being read. -/
structure Tap where
  /-- Where to read it, until it has ended. -/
  descriptor : Option Descriptor
  /-- What attempts have read, the last first. -/
  pieces : List Bytes := []
  deriving DecidableEq, Repr

namespace Tap

/-- The most bytes that one attempt gets. -/
def limit : Nat := 4096

/-- What was read. -/
def text (t : Tap) : Bytes := t.pieces.reverse.flatten

end Tap

/-- Both streams of a tool, and what there is to be read. -/
structure Capture where
  /-- Standard output. -/
  output : Tap
  /-- Standard error. -/
  errors : Tap
  /-- What the descriptors have. -/
  wires : Descriptor → Wire
  /-- The descriptors that were closed, the last first. -/
  closed : List Descriptor := []

namespace Capture

/-- Two descriptors and their streams, before anything is read. -/
def start (output errors : Descriptor) (all faults : Bytes) : Capture where
  output := { descriptor := some output }
  errors := { descriptor := some errors }
  wires d := { rest := if d = output then all else if d = errors then faults else [] }

/-- One of the streams. -/
def tap (c : Capture) : Side → Tap
  | .output => c.output
  | .errors => c.errors

/-- Changes one of the streams. -/
def setTap (c : Capture) (t : Tap) : Side → Capture
  | .output => { c with output := t }
  | .errors => { c with errors := t }

/-- Changes what a descriptor has. -/
def setWire (c : Capture) (d : Descriptor) (wire : Wire) : Capture :=
  { c with wires := fun other => if other = d then wire else c.wires other }

/-- Both streams have ended. -/
def finished (c : Capture) : Bool := c.output.descriptor.isNone && c.errors.descriptor.isNone

/-- Closes the descriptor of a stream, if it has one. -/
def close (c : Capture) (side : Side) : Capture :=
  match (c.tap side).descriptor with
  | none => c
  | some d => { c.setTap { c.tap side with descriptor := none } side with closed := d :: c.closed }

/-- Reads some bytes of a stream from a descriptor. -/
def take (c : Capture) (side : Side) (d : Descriptor) (count : Nat) : Capture :=
  let piece := (c.wires d).rest.take count
  (c.setTap { c.tap side with pieces := piece :: (c.tap side).pieces } side).setWire d
    { c.wires d with rest := (c.wires d).rest.drop count }

/-- Makes one attempt to read a stream.  If there is nothing left it has ended. -/
def attempt (c : Capture) (side : Side) (a : Attempt) : Capture :=
  match (c.tap side).descriptor, a with
  | none, _ => c
  | some _, .interrupted => c
  | some d, .got extra =>
    if (c.wires d).rest.isEmpty then (c.setWire d { c.wires d with told := true }).close side
    else c.take side d (min (extra + 1) Tap.limit)
  | some _, .failed => c.close side

/-- The stream that a descriptor is taken to belong to. -/
def sideOf (c : Capture) (d : Descriptor) : Side :=
  if c.output.descriptor = some d then .output else .errors

/-- Does what a round asks for at one descriptor. -/
def visit (attempts : Descriptor → Option Attempt) (c : Capture) (d : Descriptor) : Capture :=
  match attempts d with
  | none => c
  | some a => c.attempt (c.sideOf d) a

/-- The descriptors that are waited on. -/
def watched (c : Capture) : List Descriptor :=
  c.output.descriptor.toList ++ c.errors.descriptor.toList

/-- One round.  If the waiting fails both streams are given up. -/
def round (c : Capture) : Round → Capture
  | .interrupted => c
  | .ready attempts => c.watched.foldl (visit attempts) c
  | .failed => (c.close .output).close .errors

/-- Rounds until both streams have ended. -/
def run (c : Capture) : List Round → Capture
  | [] => c
  | r :: rounds => if c.finished then c else (c.round r).run rounds

/-- Rounds in which every descriptor can be read and gives as much as it can: enough of them for
streams that have so many bytes together. -/
def eager (length : Nat) : List Round :=
  List.replicate (length + 2) (.ready fun _ => some (.got (Tap.limit - 1)))

end Capture

end AnalyzerBridge.Tool

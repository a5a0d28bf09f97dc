/-
The life of a process, seen from outside.

What a process does depends on how it was launched and on what has been done to it so far:
the input it was given, the signals it was sent, the streams that nobody reads any longer.
Time is counted in microseconds, and every event of a life carries its time.
-/
import AnalyzerBridge.Host.Launch
import AnalyzerBridge.Host.Signal

namespace AnalyzerBridge.Host

/-- A moment, in microseconds. -/
abbrev Time := Nat

/-- What a descriptor leads to. -/
inductive Channel where
  /-- A stream to read. -/
  | input (stream : Nat)
  /-- A stream to write. -/
  | output (stream : Nat)
  /-- The end of a file. -/
  | fileEnd (place : Place)
  /-- A device that takes everything and holds nothing. -/
  | nothing
  /-- A device that holds zero bytes without end. -/
  | zeros
  deriving DecidableEq, Repr

/-- A change of a file. -/
inductive Edit where
  /-- Something is stored at a place. -/
  | put (place : Place) (stored : Stored)
  /-- A place is removed. -/
  | drop (place : Place)
  deriving DecidableEq, Repr

/-- The tree after a change. -/
def FileTree.edit (t : FileTree) : Edit → FileTree
  | .put place stored => t.set place stored
  | .drop place => t.erase place

/-- Something that is done to a process. -/
inductive Deed where
  /-- Bytes are put into its input. -/
  | input (text : Bytes)
  /-- Its input ends. -/
  | inputEnds
  /-- It is sent a signal. -/
  | signal (signal : Signal)
  /-- One of its outputs is read no longer. -/
  | abandon (stream : Nat)
  deriving DecidableEq, Repr

/-- How a process is launched. -/
structure Launch where
  /-- The number it gets. -/
  pid : Nat
  /-- The program and its words. -/
  call : Call
  /-- The directory it starts in. -/
  directory : Place
  /-- Its environment. -/
  environment : List (Bytes × Bytes)
  /-- Its input comes from outside; otherwise it is empty. -/
  fed : Bool
  /-- The files at that time. -/
  tree : FileTree
  /-- When it starts. -/
  start : Time
  deriving DecidableEq, Repr

/-- What can be seen of the life of a process and its descendants. -/
structure Life where
  /-- What is written to standard output, stream zero, and standard error, stream one, and when;
  the earliest first. -/
  written : List (Time × Nat × Bytes) := []
  /-- When the last holder lets go of a stream. -/
  released : List (Channel × Option Time) := []
  /-- The changes of files, the earliest first. -/
  edits : List (Time × Edit) := []
  /-- When and how the process ends. -/
  ended : Option (Time × WaitStatus) := none
  deriving DecidableEq, Repr

namespace Life

/-- What is written to a stream, and when. -/
def output (life : Life) (stream : Nat) : List (Time × Bytes) :=
  (life.written.filter (·.2.1 == stream)).map fun w => (w.1, w.2.2)

/-- When a stream ends, if it does. -/
def outputEnds (life : Life) (stream : Nat) : Option Time :=
  (life.released.lookup (.output stream)).getD none

/-- Nobody can read the input any longer. -/
def refusesInput (life : Life) (now : Time) : Bool :=
  match life.released.lookup (.input 0) with
  | some (some time) => time ≤ now
  | _ => false

end Life

end AnalyzerBridge.Host

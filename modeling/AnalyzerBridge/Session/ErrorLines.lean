/-
Lines from pieces of a stream.

What the backend writes to standard error arrives in pieces that end anywhere.  A line is
handed on when its end has arrived; until then it is kept, and when the stream ends what is
kept is the last line.
-/
import AnalyzerBridge.Bytes

namespace AnalyzerBridge

/-- The part of a line whose end has not arrived. -/
structure ErrorLines where
  /-- Its bytes. -/
  kept : Bytes := []
  deriving DecidableEq, Repr

namespace ErrorLines

/-- What stands before a log line from the backend. -/
def mark : Bytes := ascii "[rust-analyzer] "

/-- A line without one carriage return at its end. -/
def withoutReturn (line : Bytes) : Bytes :=
  if line.getLast? = some 13 then line.dropLast else line

/-- The log line of a line, if it is not empty. -/
def logLine? (line : Bytes) : Option Bytes :=
  let line := withoutReturn line
  if line.isEmpty then none else some (mark ++ line)

/-- The pieces of a text between line feeds: those that are ended, and the rest. -/
def cut (text : Bytes) : List Bytes × Bytes :=
  match Bytes.splitOn 10 text with
  | [] => ([], [])
  | piece :: pieces => ((piece :: pieces).dropLast, (piece :: pieces).getLastD [])

/-- Takes in a piece of the stream, and hands on the log lines whose ends are in it. -/
def feed (l : ErrorLines) (piece : Bytes) : List Bytes × ErrorLines :=
  let (lines, rest) := cut (l.kept ++ piece)
  (lines.filterMap logLine?, ⟨rest⟩)

/-- Hands on what is left when the stream ends. -/
def finish (l : ErrorLines) : List Bytes := if l.kept.isEmpty then [] else [mark ++ l.kept]

/-- The log lines of a stream that arrives in pieces. -/
def ofPieces (l : ErrorLines) : List Bytes → List Bytes
  | [] => l.finish
  | piece :: pieces => (l.feed piece).1 ++ (l.feed piece).2.ofPieces pieces

end ErrorLines

end AnalyzerBridge

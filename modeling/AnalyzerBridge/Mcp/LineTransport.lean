/-
One message a line.

Towards its clients the bridge speaks in lines: each line is one message, blanks at its
ends do not matter, and lines of blanks alone are skipped.
-/
import AnalyzerBridge.Bytes

namespace AnalyzerBridge.Mcp

/-- The next message among the lines still to come, and the lines behind it. -/
def receive : List Bytes → Option (Bytes × List Bytes)
  | [] => none
  | line :: lines =>
    if (Bytes.trim line).isEmpty then receive lines else some (Bytes.trim line, lines)

/-- The messages among the lines, to the end of the input. -/
def receiveAll (lines : List Bytes) : List Bytes :=
  match _h : receive lines with
  | none => []
  | some (message, rest) => message :: receiveAll rest
termination_by lines.length
decreasing_by
  induction lines with
  | nil => simp [receive] at _h
  | cons line lines ih =>
    unfold receive at _h
    split at _h
    · exact Nat.lt_succ_of_lt (ih _h)
    · simp only [Option.some.injEq, Prod.mk.injEq] at _h
      simp [← _h.2]

/-- The messages of a whole input. -/
def messages (input : Bytes) : List Bytes := receiveAll (Bytes.lines input)

/-- A message as it is sent. -/
def send (message : Bytes) : Bytes := message ++ [10]

/-- Messages as they are sent, one after the other. -/
def sendAll (messages : List Bytes) : Bytes := messages.flatMap send

end AnalyzerBridge.Mcp

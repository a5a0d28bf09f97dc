/-
Signals and the ends of processes.
-/
import AnalyzerBridge.Bytes

namespace AnalyzerBridge.Host

/-- Signals by their numbers. -/
abbrev Signal := Nat

namespace Signal

/-- Ends a process that neither catches nor ignores it. -/
def terminate : Signal := 15

/-- Ends any process. -/
def kill : Signal := 9

/-- Written to a stream that nobody reads. -/
def pipe : Signal := 13

/-- The names of signals, without their common opening. -/
def names : List (Bytes × Signal) :=
  [(ascii "HUP", 1), (ascii "INT", 2), (ascii "QUIT", 3), (ascii "ILL", 4), (ascii "TRAP", 5),
    (ascii "ABRT", 6), (ascii "BUS", 7), (ascii "FPE", 8), (ascii "KILL", 9), (ascii "USR1", 10),
    (ascii "SEGV", 11), (ascii "USR2", 12), (ascii "PIPE", 13), (ascii "ALRM", 14),
    (ascii "TERM", 15), (ascii "CHLD", 17), (ascii "CONT", 18), (ascii "STOP", 19),
    (ascii "TSTP", 20), (ascii "TTIN", 21), (ascii "TTOU", 22), (ascii "URG", 23), (ascii "XCPU", 24),
    (ascii "XFSZ", 25), (ascii "WINCH", 28)]

/-- The signal of a name or number; a leading `SIG` and letter case do not matter. -/
def ofName? (text : Bytes) : Option Signal :=
  let upper := text.map fun b => if Bytes.isLower b then b - 32 else b
  if !text.isEmpty && text.all Bytes.isDigit then
    some (text.foldl (fun n b => n * 10 + (b.toNat - 48)) 0)
  else if upper = ascii "EXIT" then some 0
  else names.lookup (if (ascii "SIG").isPrefixOf upper then upper.drop 3 else upper)

/-- The signal does nothing to a process that does not care. -/
def isHarmless (s : Signal) : Bool := s == 0 || s == 17 || s == 18 || s == 23 || s == 28

/-- No process can catch or ignore the signal. -/
def isFinal (s : Signal) : Bool := s == 9 || s == 19

end Signal

/-- How a process ended. -/
inductive WaitStatus where
  /-- It left with a code. -/
  | exited (code : Nat)
  /-- A signal ended it. -/
  | signalled (signal : Signal)
  deriving DecidableEq, Repr

namespace WaitStatus

/-- The status word that waiting for a process yields. -/
def word : WaitStatus → Nat
  | exited code => code % 256 * 256
  | signalled signal => signal

/-- The status as a shell counts it: the code, or the signal above 128. -/
def code : WaitStatus → Nat
  | exited code => code % 256
  | signalled signal => 128 + signal

end WaitStatus

end AnalyzerBridge.Host

/-
Checking a workspace.

The build tool reports findings as lines of its output and everything else on standard error.
A line of findings starts with a brace; how it is written inside is not looked at here, and a
line that starts differently is none.
-/
import AnalyzerBridge.Tool.Command

namespace AnalyzerBridge.Tool.Cargo

open Host (World)

/-- What a check found. -/
structure Report where
  /-- The check succeeded. -/
  success : Bool
  /-- The exit code of the tool. -/
  exitCode : Nat
  /-- The lines of findings. -/
  findings : List Bytes
  /-- How many fixes were made. -/
  fixesApplied : Nat
  /-- What the tool wrote to standard error. -/
  errors : Bytes
  deriving DecidableEq, Repr

/-- The lines of findings in the output. -/
def findings (output : Bytes) : List Bytes :=
  (Bytes.lines output).filter fun line => line.head? == some 123

/-- The number of lines that tell of a fix. -/
def countFixes (errors : Bytes) : Nat :=
  ((Bytes.lines errors).filter fun line => (ascii "Fixed").isPrefixOf (Bytes.trim line)).length

/-- Calls the tool in a workspace. -/
def call (tool workspace : Bytes) (arguments : List Bytes) (fixes : Bool) :
    StateM World (Except Failure Report) := do
  if !(← get).disk.isDirectory workspace then
    return .error { kind := .fileAccess, message := ascii "not a directory: " ++ workspace }
  match ← run (tool :: arguments) workspace with
  | .error f => return .error f
  | .ok outcome =>
    return .ok
      { success := outcome.exitCode == 0
        exitCode := outcome.exitCode
        findings := findings outcome.output
        fixesApplied := if fixes then countFixes outcome.errors else 0
        errors := outcome.errors }

/-- Checks a workspace. -/
def check (tool workspace : Bytes) : StateM World (Except Failure Report) :=
  call tool workspace [ascii "check", ascii "--message-format=json"] false

/-- The words for a stricter check, which may fix what it finds. -/
def clippyArguments (fixes : Bool) : List Bytes :=
  [ascii "clippy"] ++ (if fixes then [ascii "--fix", ascii "--allow-dirty"] else [])
    ++ [ascii "--all-targets", ascii "--message-format=json", ascii "--", ascii "-W", ascii "clippy::all"]

/-- Checks a workspace more strictly. -/
def clippy (tool workspace : Bytes) (fixes : Bool) : StateM World (Except Failure Report) :=
  call tool workspace (clippyArguments fixes) fixes

end AnalyzerBridge.Tool.Cargo

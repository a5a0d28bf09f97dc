/-
Formatting a file.

The formatter is first asked whether the file is formatted already, and only if it says that it
is not, and more than an answer is wanted, it is called again to format the file.
-/
import AnalyzerBridge.Tool.Command

namespace AnalyzerBridge.Tool.Rustfmt

open Host (World)

/-- What became of a file. -/
structure Report where
  /-- It was formatted already. -/
  alreadyFormatted : Bool
  /-- It was formatted anew. -/
  formatted : Bool
  /-- What the formatter said about it. -/
  output : Bytes
  deriving DecidableEq, Repr

/-- The words behind the formatter's name: to check a file, or to format it. -/
def arguments (check : Bool) (file : Bytes) : List Bytes :=
  (if check then [ascii "--check"] else []) ++ [ascii "--edition", ascii "2021", file]

/-- The directory that the formatter runs in. -/
def directory (file : Bytes) : Bytes := Path.parent file

/-- The formatter failed. -/
def failed (o : Outcome) : Failure :=
  { kind := .backendRejected, message := ascii "rustfmt failed: " ++ Bytes.trim o.errors }

/-- Calls the formatter. -/
def call (tool file : Bytes) (check : Bool) : StateM World (Except Failure Outcome) :=
  run (tool :: arguments check file) (directory file)

/-- Formats a file, or only tells whether it is formatted. -/
def format (tool file : Bytes) (checkOnly : Bool) : StateM World (Except Failure Report) := do
  if !(← get).disk.isRegularFile file then
    return .error { kind := .fileAccess, message := ascii "not a regular file: " ++ file }
  match ← call tool file true with
  | .error f => return .error f
  | .ok check =>
    if check.exitCode != 0 && check.exitCode != 1 then return .error (failed check)
    let report : Report :=
      { alreadyFormatted := check.exitCode == 0, formatted := false, output := check.output ++ check.errors }
    if checkOnly || report.alreadyFormatted then return .ok report
    match ← call tool file false with
    | .error f => return .error f
    | .ok second =>
      if second.exitCode != 0 then return .error (failed second)
      World.note (ascii "rustfmt rewrote " ++ file)
      return .ok { report with formatted := true }

end AnalyzerBridge.Tool.Rustfmt

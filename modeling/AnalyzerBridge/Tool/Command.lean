/-
Running a tool to its end.
-/
import AnalyzerBridge.Failure
import AnalyzerBridge.Host.Kernel
import AnalyzerBridge.Tool.Capture

namespace AnalyzerBridge.Tool

open Host (World)

/-- What a tool left behind. -/
structure Outcome where
  /-- Its exit code, or 128 and the signal that ended it. -/
  exitCode : Nat
  /-- What it wrote to standard output. -/
  output : Bytes
  /-- What it wrote to standard error. -/
  errors : Bytes
  deriving DecidableEq, Repr

/-- The exit code that a status word tells of. -/
def exitCode (word : Nat) : Nat := if word % 128 = 0 then word / 256 % 256 else 128 + word % 128

/-- Reads the outputs of a process to their ends, and closes their descriptors in the order in which
they end. -/
def capture (output errors : Host.Descriptor) : StateM World Capture := do
  let all ← World.read output none
  let faults ← World.read errors none
  let captured := (Capture.start output errors all faults).run
    (Capture.eager (all.length + faults.length))
  captured.closed.reverse.forM World.close
  pure captured

/-- The pipes of a tool. -/
structure Pipes where
  /-- From its output. -/
  output : Host.Pipe
  /-- From its errors. -/
  errors : Host.Pipe
  /-- For the report of a failure to run. -/
  report : Host.Pipe
  deriving DecidableEq, Repr

/-- The ends of all of them, in the order in which they are opened. -/
def Pipes.ends (p : Pipes) : List Host.Descriptor :=
  [p.output, p.errors, p.report].flatMap Host.Pipe.ends

/-- Opens the pipes of a tool. -/
def openPipes : ExceptT Host.Errno (StateM World) Pipes := do
  let output ← World.kernel.openBeside []
  let errors ← World.kernel.openBeside [output]
  let report ← World.kernel.openBeside [output, errors]
  pure { output, errors, report }

/-- A failure to launch a tool. -/
def refusal (what : Bytes) (reason : Host.Errno) : Failure :=
  { kind := .spawn, message := what ++ ascii ": " ++ reason.message }

/-- Follows a tool that was started to its end. -/
def finish (words : List Bytes) (p : Pipes) (pid : Nat) : StateM World (Except Failure Outcome) := do
  World.kernel.closeAll [p.output.writing, p.errors.writing, p.report.writing]
  let refused ← World.launchReport p.report.reading
  World.close p.report.reading
  let captured ← capture p.output.reading p.errors.reading
  let status ← World.await pid
  match refused with
  | some reason => pure (.error (refusal (ascii "cannot launch " ++ words.headD []) reason))
  | none =>
    let code := (status.map exitCode).getD 0
    World.note (ascii "ran " ++ Bytes.join [32] words ++ ascii " -> " ++ Bytes.decimal code)
    pure (.ok { exitCode := code, output := captured.output.text, errors := captured.errors.text })

/-- What a tool is started with. -/
def request (executable : Bytes) (arguments : List Bytes) (directory : Bytes) (p : Pipes) :
    Host.LaunchRequest :=
  { executable, arguments, directory, input := none, output := p.output.writing
    errors := p.errors.writing, report := p.report.writing }

/-- Runs a tool with words, the first being its name, in a directory; an empty one is the present
directory.  Its input is empty. -/
def run (words : List Bytes) (directory : Bytes) : StateM World (Except Failure Outcome) := do
  match words with
  | [] => pure (.error { kind := .invalidParams, message := ascii "empty command" })
  | [] :: _ => pure (.error { kind := .invalidParams, message := ascii "empty command" })
  | executable :: arguments =>
    match ← openPipes.run with
    | .error reason => pure (.error (refusal (ascii "pipe creation failed") reason))
    | .ok pipes =>
      match ← World.fork (request executable arguments directory pipes) with
      | .error reason =>
        World.kernel.closeAll pipes.ends
        pure (.error (refusal (ascii "fork failed") reason))
      | .ok pid => finish words pipes pid

end AnalyzerBridge.Tool

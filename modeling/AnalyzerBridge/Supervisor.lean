/-
The keeper of one child process.

A keeper launches a process with a pipe to its input and pipes from its outputs, hands each of
its ends of them out at most once, tells whether the process is alive, and makes it go away.
The end of the process is collected once; from then on it is dead, and its number is never
used again.

Going away is asked for in three steps: the process is given half of the grace to go by itself,
is then asked to, and is killed when the grace is over.
-/
import AnalyzerBridge.Failure
import AnalyzerBridge.Host.Kernel

namespace AnalyzerBridge

open Host (Kernel Descriptor Pipe Signal)

/-- A stream of the child, as its keeper sees it. -/
inductive ChildStream where
  | input
  | output
  | errors
  deriving DecidableEq, Repr

/-- What is known of the child that was launched last. -/
structure KeptChild where
  /-- Its number. -/
  pid : Nat
  /-- It was found dead. -/
  dead : Bool := false
  /-- The status word that waiting for it yielded. -/
  status : Option Nat := none
  deriving DecidableEq, Repr

/-- The keeper of a child process. -/
structure Supervisor where
  /-- The child, if one was ever launched. -/
  child : Option KeptChild := none
  /-- The end of the child's input, until it is handed out. -/
  input : Option Descriptor := none
  /-- The end of the child's output, until it is handed out. -/
  output : Option Descriptor := none
  /-- The end of the child's errors, until it is handed out. -/
  errors : Option Descriptor := none
  deriving DecidableEq, Repr

/-- What is to be launched. -/
structure LaunchPlan where
  /-- The name or path of the program. -/
  executable : Bytes
  /-- The words behind it. -/
  arguments : List Bytes := []
  /-- The directory to run in; empty for the present one. -/
  directory : Bytes := []
  deriving DecidableEq, Repr

namespace Supervisor

variable {W : Type}

/-! ### The state of the child -/

/-- The child is not known to be dead. -/
def presumesAlive (s : Supervisor) : Bool := s.child.any (!·.dead)

/-- The number of the child that was launched last. -/
def pid? (s : Supervisor) : Option Nat := s.child.map (·.pid)

/-- The status word of the child, if it was collected. -/
def exitStatus (s : Supervisor) : Option Nat := s.child.bind (·.status)

/-- The state after the child was found dead, with its status word if it was collected. -/
def bury (s : Supervisor) (status : Option Nat) : Supervisor :=
  { s with child := s.child.map fun c => { c with dead := true, status := status.or c.status } }

/-- The log line for an end that was collected. -/
def endLine (pid status : Nat) : Bytes :=
  ascii "backend pid " ++ Bytes.decimal pid ++ ascii " exited with status " ++ Bytes.decimal status

/-- Looks whether the child has ended, without waiting; true if it is dead. -/
def reap (k : Kernel W) (s : Supervisor) : StateM W (Bool × Supervisor) := do
  match s.child with
  | none => pure (true, s)
  | some c =>
    if c.dead then pure (true, s)
    else match ← k.poll c.pid with
      | .running => pure (false, s)
      | .ended status =>
        k.note (endLine c.pid status)
        pure (true, s.bury (some status))
      | .gone => pure (true, s.bury none)

/-- Tells whether the child is alive. -/
def isAlive (k : Kernel W) (s : Supervisor) : StateM W (Bool × Supervisor) := do
  if s.presumesAlive then
    let (dead, s) ← s.reap k
    pure (!dead, s)
  else pure (false, s)

/-! ### Descriptors -/

/-- Closes a descriptor if there is one. -/
def closeIfOpen (k : Kernel W) (d : Option Descriptor) : StateM W Unit :=
  match d with
  | some d => k.close d
  | none => pure ()

/-- Closes what was not handed out. -/
def closeStreams (k : Kernel W) (s : Supervisor) : StateM W Supervisor := do
  closeIfOpen k s.input
  closeIfOpen k s.output
  closeIfOpen k s.errors
  pure { s with input := none, output := none, errors := none }

/-- Hands out the end of a stream, if it was not handed out before. -/
def take (s : Supervisor) : ChildStream → Option Descriptor × Supervisor
  | .input => (s.input, { s with input := none })
  | .output => (s.output, { s with output := none })
  | .errors => (s.errors, { s with errors := none })

/-! ### Launching -/

/-- The pipes of a launch. -/
structure Pipes where
  /-- To the child's input. -/
  input : Pipe
  /-- From the child's output. -/
  output : Pipe
  /-- From the child's errors. -/
  errors : Pipe
  /-- For the report of a failure to run. -/
  report : Pipe
  deriving DecidableEq, Repr

/-- The ends of all of them, in the order in which they are opened. -/
def Pipes.ends (p : Pipes) : List Descriptor :=
  [p.input, p.output, p.errors, p.report].flatMap Pipe.ends

/-- Opens the pipes of a launch. -/
def openPipes (k : Kernel W) : ExceptT Host.Errno (StateM W) Pipes := do
  let input ← k.openBeside []
  let output ← k.openBeside [input]
  let errors ← k.openBeside [input, output]
  let report ← k.openBeside [input, output, errors]
  pure { input, output, errors, report }

/-- A failure to launch. -/
def refusal (message : Bytes) : Failure := { kind := .spawn, message }

/-- The failure of a launch for which there is no pipe to be had. -/
def pipeFailure (reason : Host.Errno) : Failure :=
  refusal (ascii "pipe creation failed: " ++ reason.message)

/-- The failure of a launch for which there is no process to be had. -/
def forkFailure (reason : Host.Errno) : Failure :=
  refusal (ascii "fork failed: " ++ reason.message)

/-- The failure of a launch that came as far as a new process. -/
def launchFailure (executable : Bytes) (reason : Host.Errno) : Failure :=
  refusal (ascii "cannot launch " ++ executable ++ ascii ": " ++ reason.message)

/-- Goes on with a launch when there is a process for it. -/
def begin (k : Kernel W) (s : Supervisor) (plan : LaunchPlan) (p : Pipes) (pid : Nat) :
    StateM W (Except Failure Unit × Supervisor) := do
  k.closeAll [p.input.reading, p.output.writing, p.errors.writing, p.report.writing]
  let failed ← k.launchReport p.report.reading
  k.close p.report.reading
  match failed with
  | some reason =>
    let _ ← k.await pid
    k.closeAll [p.input.writing, p.output.reading, p.errors.reading]
    pure (.error (launchFailure plan.executable reason), s)
  | none =>
    let _ ← s.closeStreams k
    k.note (ascii "spawned " ++ plan.executable ++ ascii " (pid " ++ Bytes.decimal pid ++ ascii ")")
    pure (.ok (),
      { child := some { pid }
        input := some p.input.writing
        output := some p.output.reading
        errors := some p.errors.reading })

/-- Launches a process, with the pipes for it open. -/
def launch (k : Kernel W) (s : Supervisor) (plan : LaunchPlan) (p : Pipes) :
    StateM W (Except Failure Unit × Supervisor) := do
  let forked ← k.fork
    { executable := plan.executable, arguments := plan.arguments, directory := plan.directory
      input := some p.input.reading, output := p.output.writing, errors := p.errors.writing
      report := p.report.writing }
  match forked with
  | .ok pid => s.begin k plan p pid
  | .error reason =>
    k.closeAll p.ends
    pure (.error (forkFailure reason), s)

/-- Launches a process, unless one is there that is not known to be dead. -/
def spawn (k : Kernel W) (s : Supervisor) (plan : LaunchPlan) :
    StateM W (Except Failure Unit × Supervisor) := do
  if s.presumesAlive then pure (.error (refusal (ascii "backend already running")), s)
  else if plan.executable.isEmpty then
    pure (.error (refusal (ascii "no backend executable configured")), s)
  else match ← (openPipes k).run with
    | .ok pipes => s.launch k plan pipes
    | .error reason => pure (.error (pipeFailure reason), s)

/-! ### Making the child go away -/

/-- Looks at the child until it is dead or a moment has come, with a pause between two looks, and
at most so many times; true if it is dead. -/
def watch (k : Kernel W) (s : Supervisor) (deadline : Host.Time) : Nat → StateM W (Bool × Supervisor)
  | 0 => pure (false, s)
  | n + 1 => do
    match ← s.reap k with
    | (true, s) => pure (true, s)
    | (false, s) =>
      if deadline ≤ (← k.clock) then pure (false, s)
      else
        k.pause
        s.watch k deadline n

/-- How many looks fit into some milliseconds, as a pause takes ten of them at least. -/
def looks (span : Nat) : Nat := span / 10 + 2

/-- Waits until the child is dead. -/
def awaitEnd (k : Kernel W) (s : Supervisor) (pid : Nat) : StateM W Supervisor := do
  match ← k.await pid with
  | some status =>
    k.note (endLine pid status)
    pure (s.bury (some status))
  | none => pure (s.bury none)

/-- The moment so many milliseconds after another one. -/
def later (start : Host.Time) (span : Nat) : Host.Time := start + span * 1000

/-- Makes the child go away within a grace in milliseconds.  False if it had to be killed. -/
def terminate (k : Kernel W) (s : Supervisor) (grace : Nat) : StateM W (Bool × Supervisor) := do
  match s.child with
  | none => pure (true, s)
  | some c =>
    if c.dead then pure (true, s)
    else
      let start ← k.clock
      match ← s.watch k (later start (grace / 2)) (looks grace) with
      | (true, s) => pure (true, s)
      | (false, s) =>
        k.note (ascii "backend pid " ++ Bytes.decimal c.pid ++ ascii " still running, sending SIGTERM")
        k.signal c.pid Signal.terminate
        match ← s.watch k (later start grace) (looks grace) with
        | (true, s) => pure (true, s)
        | (false, s) =>
          k.note (ascii "backend pid " ++ Bytes.decimal c.pid ++ ascii " ignored SIGTERM, sending SIGKILL")
          k.signal c.pid Signal.kill
          pure (false, ← s.awaitEnd k c.pid)

/-- The grace that a child has when its keeper goes away, in milliseconds. -/
def lastGrace : Nat := 500

/-- What a keeper does before it goes away. -/
def finish (k : Kernel W) (s : Supervisor) : StateM W Supervisor := do
  let (_, s) ← s.terminate k lastGrace
  s.closeStreams k

end Supervisor

end AnalyzerBridge

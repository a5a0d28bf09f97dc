/-
The calls of the system that the keeper of a child makes.

They are kept apart from any particular world, so that what is said of the keeper holds
whatever its children do and whenever they do it.  The system may run out of descriptors and of
processes, and then says so.
-/
import AnalyzerBridge.Host.World

namespace AnalyzerBridge.Host

/-- The calls of the system, on a world of type `W`. -/
structure Kernel (W : Type) where
  /-- Opens a pipe, or tells why there is none to be had. -/
  openPipe : StateM W (Except Errno Pipe)
  /-- Closes a descriptor. -/
  close : Descriptor → StateM W Unit
  /-- Starts a process and yields its number, or tells why there is none to be had. -/
  fork : LaunchRequest → StateM W (Except Errno Nat)
  /-- Waits for what a report pipe tells: a failure to run, or nothing. -/
  launchReport : Descriptor → StateM W (Option Errno)
  /-- Asks whether a child has ended. -/
  poll : Nat → StateM W ProcessReport
  /-- Waits for a child to end; its status word, or nothing if it cannot be waited for. -/
  await : Nat → StateM W (Option Nat)
  /-- Sends a signal to a process. -/
  signal : Nat → Signal → StateM W Unit
  /-- What the clock shows, in microseconds.  It never goes back. -/
  clock : StateM W Time
  /-- Lets ten milliseconds pass, or more. -/
  pause : StateM W Unit
  /-- Writes a line to the log. -/
  note : Bytes → StateM W Unit

namespace Kernel

variable {W : Type}

/-- Closes descriptors one after the other. -/
def closeAll (k : Kernel W) : List Descriptor → StateM W Unit
  | [] => pure ()
  | d :: rest => do
    k.close d
    k.closeAll rest

/-- Opens one more pipe.  If there is none to be had, those that are open are closed. -/
def openBeside (k : Kernel W) (opened : List Pipe) : ExceptT Errno (StateM W) Pipe := ExceptT.mk do
  match ← k.openPipe with
  | .ok pipe => return .ok pipe
  | .error reason =>
    k.closeAll (opened.flatMap Pipe.ends)
    return .error reason

end Kernel

/-- How long a pause is, in microseconds. -/
def pauseLength : Time := 10000

/-- The calls of the system on the world of the bridge. -/
def World.kernel : Kernel World where
  openPipe := World.openPipe
  close := World.close
  fork := World.fork
  launchReport := World.launchReport
  poll := World.poll
  await := World.await
  signal := World.signal
  clock := World.clock
  pause := World.pass pauseLength
  note := World.note

end AnalyzerBridge.Host

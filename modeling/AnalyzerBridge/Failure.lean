/-
Failures.

A call on the bridge fails for one of nine reasons.  The reason decides how a caller
reacts, the message is for a person, and a refusal by the backend also carries the
number the backend gave.
-/
import AnalyzerBridge.Bytes

namespace AnalyzerBridge

/-- Why a call failed. -/
inductive FailureKind where
  /-- The backend process could not be launched. -/
  | spawn
  /-- The opening exchange with the backend did not succeed. -/
  | startup
  /-- The session is not ready for calls. -/
  | notReady
  /-- The backend's output is not a sequence of frames. -/
  | framing
  /-- The stream or the session is closed. -/
  | connectionClosed
  /-- The backend or a tool refused the call. -/
  | backendRejected
  /-- A file could not be read. -/
  | fileAccess
  /-- No reply arrived in time. -/
  | timeout
  /-- The caller's arguments make no sense. -/
  | invalidParams
  deriving DecidableEq, Repr

namespace FailureKind

/-- The name under which a failure is reported. -/
def label : FailureKind → Bytes
  | spawn => ascii "SpawnError"
  | startup => ascii "StartupError"
  | notReady => ascii "NotReadyError"
  | framing => ascii "FramingError"
  | connectionClosed => ascii "ConnectionClosedError"
  | backendRejected => ascii "BackendRejected"
  | fileAccess => ascii "FileAccessError"
  | timeout => ascii "TimeoutError"
  | invalidParams => ascii "InvalidParams"

/-- Every kind of failure. -/
def all : List FailureKind :=
  [spawn, startup, notReady, framing, connectionClosed, backendRejected, fileAccess, timeout,
    invalidParams]

/-- Failures of the transport end the whole session, all others only the call. -/
def endsSession : FailureKind → Bool
  | framing | connectionClosed => true
  | _ => false

end FailureKind

/-- A failed call. -/
structure Failure where
  /-- Why it failed. -/
  kind : FailureKind
  /-- What to tell a person. -/
  message : Bytes
  /-- The number that came with the backend's refusal, else zero. -/
  backendCode : Int := 0
  deriving DecidableEq, Repr

namespace Failure

/-- The failure in one line: its name, the backend's number if the backend refused, and the
message unless there is none. -/
def describe (f : Failure) : Bytes :=
  f.kind.label
    ++ (if f.kind = .backendRejected then ascii " (" ++ Bytes.decimalInt f.backendCode ++ ascii ")" else [])
    ++ (if f.message.isEmpty then [] else ascii ": " ++ f.message)

end Failure

end AnalyzerBridge

/-
The state of a session with the backend.

Several callers and the reader of the backend's output share this state, and each of its
changes happens at once, with nothing in between: the functions here are those changes.  A
session only moves forward, from unstarted through initializing and ready to terminated, and
stays terminated.  A call is registered under a number that is never used again, and leaves
the table of pending calls when it is answered, when it is given up, or when the session ends.
-/
import AnalyzerBridge.Failure
import AnalyzerBridge.Lsp.DiagnosticBoard

namespace AnalyzerBridge

open Lsp (DiagnosticBoard)

/-- How far a session has come. -/
inductive Stage where
  /-- Nothing has been launched. -/
  | unstarted
  /-- The backend runs, and the opening exchange is under way. -/
  | initializing
  /-- Calls are served. -/
  | ready
  /-- The session is over. -/
  | terminated
  deriving DecidableEq, Repr

namespace Stage

/-- The word for a stage. -/
def label : Stage → Bytes
  | unstarted => ascii "unstarted"
  | initializing => ascii "initializing"
  | ready => ascii "ready"
  | terminated => ascii "terminated"

/-- Every stage, in the order in which a session goes through them. -/
def all : List Stage := [unstarted, initializing, ready, terminated]

/-- The place of a stage in that order. -/
def rank : Stage → Nat
  | unstarted => 0
  | initializing => 1
  | ready => 2
  | terminated => 3

end Stage

/-- How a call ended that someone waits for. -/
inductive CallEnd where
  /-- The backend answered. -/
  | answered (reply : Bytes)
  /-- It will not be answered. -/
  | failed (cause : Failure)
  deriving DecidableEq, Repr

/-- The shared state of a session. -/
structure Session where
  /-- How far it has come. -/
  stage : Stage := .unstarted
  /-- There is a stream to the backend. -/
  connected : Bool := false
  /-- The number of the last call. -/
  lastId : Nat := 0
  /-- The calls that wait for their ends. -/
  pending : List Nat := []
  /-- The ends of calls, the last first. -/
  ends : List (Nat × CallEnd) := []
  /-- What ended the session, if the reader found it out. -/
  cause : Option Failure := none
  /-- Someone has begun to shut the session down. -/
  shuttingDown : Bool := false
  /-- What the backend has found in documents. -/
  board : DiagnosticBoard Unit := {}
  deriving DecidableEq, Repr

namespace Session

/-! ### Refusals -/

/-- The failure of a call on a session that is over. -/
def overFailure : Failure := { kind := .connectionClosed, message := ascii "session terminated" }

/-- The kind of failure for calls on a session that is not ready. -/
def unreadyKind (s : Session) : FailureKind :=
  if s.stage = .terminated then .connectionClosed else .notReady

/-- Why a session cannot be started, if it cannot. -/
def startRefusal (s : Session) : Option Failure :=
  if s.stage = .unstarted then none
  else some { kind := .startup, message := ascii "client already " ++ s.stage.label }

/-- Why a call or a notification of a caller is refused, if it is. -/
def callRefusal (s : Session) : Option Failure :=
  match s.stage with
  | .ready => none
  | .terminated => some overFailure
  | stage => some { kind := .notReady, message := ascii "client is " ++ stage.label }

/-- Why a document cannot be brought up to date, if it cannot. -/
def syncRefusal (s : Session) : Option Failure :=
  if s.stage = .ready then none
  else some { kind := s.unreadyKind, message := ascii "client is " ++ s.stage.label }

/-- Why nothing can be sent, if nothing can. -/
def sendRefusal (s : Session) : Option Failure :=
  if s.stage = .terminated || !s.connected then some overFailure else none

/-! ### Changes -/

/-- The backend could not be launched. -/
def launchFailed (s : Session) : Session := { s with stage := .terminated }

/-- The backend runs, and there is a stream to it. -/
def connect (s : Session) : Session := { s with stage := .initializing, connected := true }

/-- Registers a call under a new number. -/
def register (s : Session) : Except Failure (Nat × Session) :=
  match s.sendRefusal with
  | some failure => .error failure
  | none =>
    let id := s.lastId + 1
    .ok (id, { s with lastId := id, pending := id :: s.pending })

/-- Takes a call out of the table: it could not be sent, or it is waited for no longer. -/
def forget (s : Session) (id : Nat) : Session := { s with pending := s.pending.filter (· != id) }

/-- The end of a call, once it has one. -/
def end? (s : Session) (id : Nat) : Option CallEnd := s.ends.lookup id

/-- The backend answers a call; false if nobody waits for it. -/
def answer (s : Session) (id : Nat) (reply : CallEnd) : Bool × Session :=
  if s.pending.contains id then (true, { s.forget id with ends := (id, reply) :: s.ends })
  else (false, s)

/-- Ends the session for a reason, which is kept if `record`.  All pending calls fail for that
reason.  False if the session was over already. -/
def terminate (s : Session) (cause : Failure) (record : Bool) : Bool × Session :=
  if s.stage = .terminated then (false, s)
  else (true,
    { s with
      stage := .terminated
      cause := if record then some cause else s.cause
      ends := s.pending.map (fun id => (id, .failed cause)) ++ s.ends
      pending := []
      board := s.board.close })

/-- The opening exchange succeeded. -/
def becomeReady (s : Session) : Except Failure Session :=
  if s.stage = .initializing then .ok { s with stage := .ready }
  else .error { kind := .connectionClosed, message := ascii "backend exited during initialization" }

/-- How shutting down goes on. -/
inductive ShutdownTurn where
  /-- The session was never started and is over now. -/
  | unstarted
  /-- Someone else has begun already. -/
  | begun
  /-- The session has to be ended; it had come to the given stage. -/
  | fromStage (stage : Stage)
  deriving DecidableEq, Repr

/-- Begins to shut the session down. -/
def beginShutdown (s : Session) : ShutdownTurn × Session :=
  if s.stage = .unstarted then (.unstarted, { s with stage := .terminated })
  else if s.shuttingDown then (.begun, s)
  else (.fromStage s.stage, { s with shuttingDown := true })

end Session

end AnalyzerBridge

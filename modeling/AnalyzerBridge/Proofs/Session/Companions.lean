/-
A client with everything that goes on beside its callers.

`SessionRun` follows the threads that share a session at the moments at which they touch it.  Here
the rest of the client is followed with them: the keeper and its child, the writer, what the reader
does once its stream has failed, the thread that logs what the backend writes to standard error, and
how whoever ends the session stops all of them.  Each of them acts at single moments, too, and
anything may happen in between: the reader may end the session while a thread starts it, close the
writer while a frame is on its way, or make the child go away while a thread does the same.

What lies outside is given with each move: what the backend sends and how its stream ends, how far
the descriptor takes a frame, whether the deadline of a call has come.  What is written is given,
too, since nothing here depends on it, and so is what fails to have a text.

A move that writes stands for a write that has come back; as long as one does not, its thread makes
no move.  So two things are taken for granted wherever everybody is said to have a turn: a system call
that writes to the backend returns, and so does waiting for a child that was killed.  That the reader
can come upon something that ends the whole process is left to `ClientProcess`.
-/
import AnalyzerBridge.Proofs.Session.LifeCycle
import AnalyzerBridge.Proofs.Supervisor.LifeCycle
import AnalyzerBridge.Session.Client

namespace AnalyzerBridge

open Host (Kernel)
open AnalyzerBridge.Frame (Writer WriteAnswer Outgoing)

variable {W : Type}

/-- A system in which every program can be launched and goes on until it is killed. -/
def Host.Kernel.still : Kernel Unit where
  openPipe := pure (.ok ⟨0, 1⟩)
  close _ := pure ()
  fork _ := pure (.ok 1)
  launchReport _ := pure none
  poll _ := pure .running
  await _ := pure (some 9)
  signal _ _ := pure ()
  clock := pure 0
  pause := pure ()
  note _ := pure ()

/-! ### Failures -/

/-- Why the reader goes no further. -/
inductive ReadEnd where
  /-- There is no further frame. -/
  | stream (failure : Frame.ReadFailure)
  /-- The payload of a frame is not JSON: the parser comes to a place where it does not go on. -/
  | notJson (reason : Bytes)
  /-- The payload of a frame is JSON, but no object. -/
  | notObject
  deriving DecidableEq, Repr

/-- The failure that the reader sees. -/
def ReadEnd.failure : ReadEnd → Failure
  | stream failure => failure.failure
  | notJson reason => { kind := .framing, message := ascii "payload is not JSON: " ++ reason }
  | notObject => { kind := .framing, message := ascii "payload is not a JSON object" }

/-- The cause of a session's end when the stream has ended, with the status word of a backend that
is dead. -/
def backendExited (status : Option Nat) : Failure :=
  let detail := match status with
    | some word => ascii " (wait status " ++ Bytes.decimal word ++ ascii ")"
    | none => []
  { kind := .connectionClosed, message := ascii "backend exited" ++ detail }

/-- The failure of an opening call that is not answered in time. -/
def ClientOptions.openingLate (o : ClientOptions) : Failure where
  kind := .timeout
  message := ascii "initialize timed out after " ++ Bytes.decimal o.requestTimeout ++ ascii " ms"

/-- The failure of an opening call that has ended in a failure. -/
def openingCause (cause : Failure) : Failure :=
  if cause.kind = .backendRejected then
    { cause with kind := .startup, message := ascii "initialize rejected: " ++ cause.message }
  else cause

/-- The failure that whoever starts the session is told of. -/
def Failure.asStartup (f : Failure) : Failure :=
  if f.kind = .startup then f else { f with kind := .startup, message := f.describe }

/-- What is to be launched: in the workspace, unless it is said where. -/
def ClientOptions.plan (o : ClientOptions) : LaunchPlan :=
  { o.backend with
    directory := if o.backend.directory.isEmpty then o.workspaceRoot else o.backend.directory }

/-! ### What goes on beside the callers -/

/-- What the reader takes in. -/
inductive Arrival where
  /-- The end of a call. -/
  | reply (id : Nat) (reply : CallEnd)
  /-- What was found in a document. -/
  | findings (uri : Bytes)
  /-- A question of the backend, which the reader answers. -/
  | question (reply : Outgoing) (answers : List WriteAnswer)

/-- What the reader has yet to do after its stream has failed. -/
inductive ReaderTask where
  | nothing
  /-- Close the writer, and make the backend go away after that. -/
  | closeWriter
  /-- Make the backend go away. -/
  | expel
  /-- Ask whether the backend is alive. -/
  | look
  deriving DecidableEq, Repr

/-- Whether the thread that logs the backend's errors runs. -/
inductive Logging where
  | absent
  | running
  | gone
  deriving DecidableEq, Repr

/-- Something that has to be done before a session that is over is closed. -/
inductive Chore where
  | closeWriter
  /-- The backend is made to go away. -/
  | expel
  | askReader
  | askErrors
  /-- The reader is waited for. -/
  | joinReader
  /-- The thread that logs the backend's errors is waited for. -/
  | joinErrors
  deriving DecidableEq, Repr

/-- The threads beside the callers are stopped. -/
def Chore.halt : List Chore := [.askReader, .askErrors, .joinReader, .joinErrors]

/-- The backend is sent away, and the threads are stopped. -/
def Chore.farewell : List Chore := .closeWriter :: .expel :: halt

/-! ### What callers ask for -/

/-- Something that a caller asks for. -/
inductive Asking where
  | request
  | notify
  | sync
  deriving DecidableEq, Repr

/-- Why it is refused, if it is. -/
def Asking.refusal (s : Session) : Asking → Option Failure
  | request | notify => s.callRefusal
  | sync => s.syncRefusal

/-- What a caller is told. -/
inductive ClientReply where
  /-- How a start has ended. -/
  | started (result : Except Failure Unit)
  /-- The session was started before, or is over. -/
  | startRefused (failure : Failure)
  | refused (asking : Asking) (failure : Failure)
  /-- The session was shut down. -/
  | shutDown
  deriving DecidableEq

/-! ### All of it together -/

/-- A client and what it deals with, between two moves. -/
structure ClientRun (W : Type) where
  /-- The keeper of the backend. -/
  keeping : KeeperRun W
  /-- The session and the threads that share it. -/
  shared : SessionRun := {}
  /-- The writer, once there is a stream to the backend. -/
  writer : Option Writer := none
  /-- What has been written to the backend. -/
  wire : Bytes := []
  /-- What the reader has yet to do. -/
  task : ReaderTask := .nothing
  /-- Why the reader went no further. -/
  readEnd : Option ReadEnd := none
  /-- The reader was asked to stop. -/
  readerAsked : Bool := false
  /-- The thread that logs the backend's errors. -/
  errors : Logging := .absent
  /-- It was asked to stop. -/
  errorsAsked : Bool := false
  /-- The threads with a notification that the session has not refused. -/
  posting : List Nat := []
  /-- Why the opening has failed, until the start that failed with it has returned. -/
  opening : Option Failure := none
  /-- What the thread that closes the session has yet to do. -/
  chores : List Chore := []
  /-- What callers were told, each with its thread, in order. -/
  returned : List (Nat × ClientReply) := []

/-- Something that happens to a client. -/
inductive ClientMove (W : Type) where
  /-- The world goes on by itself. -/
  | elsewhere (change : W → W)
  /-- A thread starts the session, once no other starts it or shuts it down. -/
  | start (thread : Nat)
  /-- A thread shuts the session down, once no other starts it or shuts it down. -/
  | shutdown (thread : Nat)
  /-- A thread asks for something. -/
  | ask (thread : Nat) (asking : Asking)
  /-- A thread writes its notification. -/
  | post (thread : Nat) (message : Outgoing) (answers : List WriteAnswer)
  /-- A thread goes on from where it stands.  What it writes, if it writes, is `message`. -/
  | proceed (thread : Nat) (message : Outgoing) (answers : List WriteAnswer) (late : Bool)
  /-- The reader takes something in. -/
  | arrives (arrival : Arrival)
  /-- The reader comes to something that ends it. -/
  | fails (readEnd : ReadEnd)
  /-- The reader goes on with what it has yet to do. -/
  | readerGoesOn
  /-- The thread that logs the backend's errors stops, as it was asked to, or because the stream has
  ended. -/
  | errorsEnd (asked : Bool)

namespace KeeperRun

/-- How the keeper answers a request. -/
def answer (k : Kernel W) (r : KeeperRun W) (request : KeeperRequest) : Exchange :=
  (r.keeper.perform (recorded k) request (r.world, [])).1.1

end KeeperRun

/-- Why the backend could not be launched, if it could not. -/
def Exchange.launchFailure? : Exchange → Option Failure
  | .spawn _ failure => failure
  | _ => none

namespace SessionRun

/-- Something was found in a document. -/
def publish (s : SessionRun) (uri : Bytes) : SessionRun :=
  let session := { s.ledger.session with board := s.ledger.session.board.publish uri () }
  { s with ledger := { s.ledger with session } }

end SessionRun

namespace ClientRun

variable (k : Kernel W) (o : ClientOptions)

/-- The shared state of the session. -/
abbrev session (s : ClientRun W) : Session := s.shared.ledger.session

/-- The keeper of the backend. -/
abbrev keeper (s : ClientRun W) : Supervisor := s.keeping.keeper

/-- The reader does not run, or no longer. -/
def ReaderGone (s : ClientRun W) : Prop :=
  (s.shared.reader = .absent ∨ s.shared.reader = .stopped) ∧ s.task = .nothing

instance (s : ClientRun W) : Decidable s.ReaderGone := inferInstanceAs (Decidable (_ ∧ _))

/-! ### What is done at single moments -/

/-- A caller is told something. -/
def reply (s : ClientRun W) (thread : Nat) (told : ClientReply) : ClientRun W :=
  { s with returned := s.returned ++ [(thread, told)] }

/-- A thread goes on. -/
def go (s : ClientRun W) (thread : Nat) (well : Bool) : ClientRun W :=
  { s with shared := s.shared.step (.proceed thread well) }

/-- The keeper is asked for something. -/
def keep (s : ClientRun W) (request : KeeperRequest) : ClientRun W :=
  { s with keeping := s.keeping.step k (.request request) }

/-- What comes of writing a message, if there is a writer. -/
def written? (s : ClientRun W) (message : Outgoing) (answers : List WriteAnswer) :
    Option Writer.Written :=
  s.writer.map (·.offer answers message)

/-- Writes a message. -/
def write (s : ClientRun W) (message : Outgoing) (answers : List WriteAnswer) : ClientRun W :=
  { s with
    writer := (s.written? message answers).map (·.writer)
    wire := s.wire ++ (s.written? message answers).elim [] (·.wire) }

/-- Why the message was not written, if it was not. -/
def writeFailure? (s : ClientRun W) (message : Outgoing) (answers : List WriteAnswer) :
    Option Failure :=
  (s.written? message answers).elim (some Session.overFailure) (·.failure)

/-- Sends a notification, unless the session refuses. -/
def notify (s : ClientRun W) (message : Outgoing) (answers : List WriteAnswer) : ClientRun W :=
  if s.session.sendRefusal = none then s.write message answers else s

/-- Why the notification was not sent, if it was not. -/
def notifyFailure? (s : ClientRun W) (message : Outgoing) (answers : List WriteAnswer) :
    Option Failure :=
  s.session.sendRefusal.or (s.writeFailure? message answers)

/-- Writes nothing more. -/
def closeWriter (s : ClientRun W) : ClientRun W := { s with writer := s.writer.map (·.close) }

/-- Notes why the opening has failed, if it has. -/
def noteOpening (s : ClientRun W) (purpose : CallPurpose) (failure : Option Failure) :
    ClientRun W :=
  { s with opening := if purpose = .opening then failure.or s.opening else s.opening }

/-! ### Whoever starts the session or shuts it down -/

/-- The backend is launched.  The streams to it and from it are taken over. -/
def launch (s : ClientRun W) (thread : Nat) : ClientRun W :=
  let next := s.keep k (.spawn o.plan)
  match (s.keeping.answer k (.spawn o.plan)).launchFailure? with
  | some failure => (next.go thread false).reply thread (.started (.error failure))
  | none =>
    let next := ((next.keep k (.take .input)).keep k (.take .output)).keep k (.take .errors)
    { next with writer := some {} }.go thread true

/-- Why a call fails that is waited for, if it does. -/
def waitFailure? (s : ClientRun W) (id : Nat) (late : Bool) : Option Failure :=
  match s.session.end? id with
  | some (.failed cause) => some (openingCause cause)
  | some (.answered _) => none
  | none => if late then some o.openingLate else none

/-- Whoever shuts the session down finds how far it has come. -/
def turnOff (s : ClientRun W) (thread : Nat) : ClientRun W :=
  let next := s.go thread true
  match s.session.beginShutdown.1 with
  | .fromStage _ => next
  | .unstarted | .begun => next.reply thread .shutDown

/-- The opening exchange is over. -/
def settle (s : ClientRun W) (thread : Nat) : ClientRun W :=
  match s.session.becomeReady with
  | .ok _ => (s.go thread true).reply thread (.started (.ok ()))
  | .error failure => (s.noteOpening .opening (some failure)).go thread true

/-- Something is done on the way to a closed session. -/
def perform (s : ClientRun W) : Chore → ClientRun W
  | .closeWriter => s.closeWriter
  | .expel => s.keep k (.terminate o.shutdownGrace)
  | .askReader => { s with readerAsked := true }
  | .askErrors => { s with errorsAsked := true }
  | .joinReader | .joinErrors => s

/-- It cannot be done yet. -/
def Blocked (s : ClientRun W) : Chore → Prop
  | .joinReader => ¬s.ReaderGone
  | .joinErrors => s.errors = .running
  | _ => False

instance (s : ClientRun W) : DecidablePred s.Blocked
  | .joinReader => inferInstanceAs (Decidable (¬s.ReaderGone))
  | .joinErrors => inferInstanceAs (Decidable (s.errors = .running))
  | .closeWriter | .expel | .askReader | .askErrors => inferInstanceAs (Decidable False)

/-- What whoever has closed the session is told. -/
def lastWord (s : ClientRun W) : ClientReply :=
  match s.opening with
  | some failure => .started (.error failure.asStartup)
  | none => .shutDown

/-- The session is over, and one thing after the other is done to close it. -/
def tidy (s : ClientRun W) (thread : Nat) : ClientRun W :=
  match s.chores with
  | [] => { (s.go thread true).reply thread s.lastWord with opening := none }
  | chore :: rest => if s.Blocked chore then s else { s.perform k o chore with chores := rest }

/-- A thread goes on from where it stands. -/
def proceed (s : ClientRun W) (thread : Nat) (message : Outgoing) (answers : List WriteAnswer)
    (late : Bool) : ClientRun W :=
  match s.shared.place thread with
  | .idle | .unsent _ _ => s.go thread true
  | .launching => s.launch k o thread
  | .launched => { s with errors := .running }.go thread true
  | .calling purpose =>
    match s.session.register with
    | .ok _ => s.go thread true
    | .error failure => (s.noteOpening purpose (some failure)).go thread true
  | .sending purpose _ =>
    let failure := s.writeFailure? message answers
    ((s.write message answers).noteOpening purpose failure).go thread failure.isNone
  | .waiting purpose id => (s.noteOpening purpose (s.waitFailure? o id late)).go thread !late
  | .cancelling _ | .leaving => (s.notify message answers).go thread true
  | .acknowledging =>
    let failure := s.notifyFailure? message answers
    ((s.notify message answers).noteOpening .opening failure).go thread failure.isNone
  | .settling => s.settle thread
  | .openingFailed => { s with chores := Chore.halt }.go thread true
  | .turningOff _ => s.turnOff thread
  | .ending => { s with chores := Chore.farewell }.go thread true
  | .stopping => s.tidy k o thread

/-! ### The reader -/

/-- The reader takes something in. -/
def takeIn (s : ClientRun W) : Arrival → ClientRun W
  | .reply id reply => { s with shared := s.shared.step (.reply id reply) }
  | .findings uri => { s with shared := s.shared.publish uri }
  | .question reply answers => s.write reply answers

/-- The reader's stream fails.  A stream that is broken cannot be resumed, so the session is over
and the backend has to go; a stream that has ended ends the session unless that is being shut
down. -/
def failReading (s : ClientRun W) (readEnd : ReadEnd) : ClientRun W :=
  if readEnd.failure.kind = .framing then
    { s with
      shared := s.shared.step (.breaks readEnd.failure)
      readEnd := some readEnd
      task := .closeWriter }
  else
    { s with
      shared := s.shared.step (.ends (backendExited none))
      readEnd := some readEnd
      task := if s.session.shuttingDown then .nothing else .look }

/-- The reader asks whether the backend is alive, and knows what to report. -/
def look (s : ClientRun W) : ClientRun W :=
  let next := s.keep k .isAlive
  let status := if s.keeping.answer k .isAlive = .isAlive true then none else next.keeper.exitStatus
  { next with
    shared := { s.shared with reader := .found (backendExited status) }
    task := .nothing }

/-- The reader goes on with what it has yet to do. -/
def readOn (s : ClientRun W) : ClientRun W :=
  match s.task with
  | .closeWriter => { s.closeWriter with task := .expel }
  | .expel => { s.keep k (.terminate o.shutdownGrace) with task := .nothing }
  | .look => s.look k
  | .nothing => { s with shared := s.shared.step .report }

/-! ### Steps and runs -/

/-- What a move leaves.  A move that cannot be made leaves everything as it is. -/
def step (s : ClientRun W) : ClientMove W → ClientRun W
  | .elsewhere change => { s with keeping := s.keeping.step k (.elsewhere change) }
  | .start thread =>
    if s.shared.place thread = .idle ∧ s.shared.lock = none then
      match s.session.startRefusal with
      | some failure => s.reply thread (.startRefused failure)
      | none => { s with shared := s.shared.step (.start thread) }
    else s
  | .shutdown thread =>
    if s.shared.place thread = .idle ∧ s.shared.lock = none then
      let next := { s with shared := s.shared.step (.shutdown thread) }
      if s.session.stage = .unstarted then next.reply thread .shutDown else next
    else s
  | .ask thread asking =>
    if s.shared.place thread = .idle then
      match asking.refusal s.session with
      | some failure => s.reply thread (.refused asking failure)
      | none =>
        if asking = .request then { s with shared := s.shared.step (.request thread) }
        else { s with posting := thread :: s.posting }
    else s
  | .post thread message answers =>
    -- It was looked at the session before, and maybe long ago.
    if thread ∈ s.posting then
      { s.write message answers with posting := s.posting.erase thread }
    else s
  | .proceed thread message answers late => s.proceed k o thread message answers late
  | .arrives arrival => if s.shared.reader = .reading then s.takeIn arrival else s
  | .fails readEnd =>
    if s.shared.reader = .reading ∧ (readEnd = .stream .stopped → s.readerAsked = true) then
      s.failReading readEnd
    else s
  | .readerGoesOn => s.readOn k o
  | .errorsEnd asked =>
    if s.errors = .running ∧ (asked = true → s.errorsAsked = true) then { s with errors := .gone }
    else s

/-- What a run of moves leaves. -/
def run (s : ClientRun W) (moves : List (ClientMove W)) : ClientRun W := moves.foldl (step k o) s

theorem run_cons (s : ClientRun W) (move : ClientMove W) (moves : List (ClientMove W)) :
    s.run k o (move :: moves) = (s.step k o move).run k o moves := rfl

theorem run_append (s : ClientRun W) (moves more : List (ClientMove W)) :
    s.run k o (moves ++ more) = (s.run k o moves).run k o more := List.foldl_append

/-- A client before it starts. -/
def fresh (world : W) : ClientRun W := { keeping := { world } }

end ClientRun

end AnalyzerBridge

/-
A session with a backend process.

The client launches the backend, opens the session with an `initialize` call, and ends it.
Three things go on beside its callers: what the backend writes is read frame by frame, what it
writes to standard error is logged line by line, and its keeper makes it go away when the
stream of frames breaks.  They are followed here at the moments at which they matter: what the
reader will come upon, and when, is known from the life of the backend, and a caller who waits
goes on at that moment or at the deadline, whichever is first.

Replies are not looked into: no payload that arrives is taken for one.
-/
import AnalyzerBridge.Documents
import AnalyzerBridge.Frame.Reader
import AnalyzerBridge.Frame.Writer
import AnalyzerBridge.Session.ErrorLines
import AnalyzerBridge.Session.Message
import AnalyzerBridge.Session.State
import AnalyzerBridge.Supervisor

namespace AnalyzerBridge

open Host (World Descriptor Time)

/-- What a client is told before it starts. -/
structure ClientOptions where
  /-- The backend. -/
  backend : LaunchPlan
  /-- The root of the workspace; empty for the present directory. -/
  workspaceRoot : Bytes := []
  /-- How long a call is waited for, in milliseconds. -/
  requestTimeout : Nat := 30000
  /-- How long the backend has to go away, in milliseconds. -/
  shutdownGrace : Nat := 2000
  /-- The name that the client goes by. -/
  name : Bytes := ascii "ramcp"
  /-- Its version. -/
  version : Bytes := ascii "0.1.0"
  /-- The language of documents. -/
  language : Bytes := ascii "rust"
  deriving DecidableEq, Repr

/-- A call that was sent and is waited for. -/
structure Waiting where
  /-- Its number. -/
  id : Nat
  /-- Its method. -/
  method : Bytes
  /-- How long it is waited for, in milliseconds. -/
  timeout : Nat
  /-- When it is given up. -/
  deadline : Time
  deriving DecidableEq, Repr

/-- A client of a backend. -/
structure Client where
  /-- What it was told. -/
  options : ClientOptions
  /-- The shared state of the session. -/
  session : Session := {}
  /-- The keeper of the backend. -/
  keeper : Supervisor := {}
  /-- The writer of frames and its descriptor. -/
  writer : Option (Frame.Writer × Descriptor) := none
  /-- The reader of frames. -/
  reader : Frame.Reader := {}
  /-- The stream that frames are read from, as long as the reader goes on. -/
  output : Option Descriptor := none
  /-- The stream that log lines are read from, as long as that goes on. -/
  errors : Option Descriptor := none
  /-- The log line that has not ended. -/
  lines : ErrorLines := {}
  /-- The reader has yet to make the backend go away. -/
  expelling : Bool := false
  /-- The documents that the backend has been told of. -/
  documents : DocumentTable := {}
  /-- The opening call, while it is waited for. -/
  opening : Option Waiting := none
  /-- How the opening ended. -/
  opened : Option (Except Failure Unit) := none

/-- Actions of a client in the world. -/
abbrev ClientM := StateT Client (StateM World)

namespace Client

/-- A client before it starts. -/
def create (options : ClientOptions) : Client :=
  { options, documents := { language := options.language } }

/-! ### Surroundings -/

/-- Lets the keeper act. -/
def keep {α : Type} (act : Supervisor → StateM World (α × Supervisor)) : ClientM α := do
  let (result, keeper) ← act (← get).keeper
  modify ({ · with keeper })
  pure result

/-- Logs what the backend has written to standard error by now. -/
def logErrors : ClientM Unit := do
  let c ← get
  match c.errors with
  | none => pure ()
  | some d =>
    let w ← getThe World
    let (arrivals, ends) := w.pending d
    for (_, piece) in arrivals.filter (·.1 ≤ w.now) do
      let (found, lines) := (← get).lines.feed piece
      modify ({ · with lines })
      World.take d piece.length
      for line in found do World.note line
    if ends.any (· ≤ w.now) then
      for line in (← get).lines.finish do World.note line
      World.close d
      modify ({ · with errors := none, lines := {} })

/-- Logs no more of what the backend writes, but for the line that it has begun. -/
def stopErrors : ClientM Unit := do
  logErrors
  match (← get).errors with
  | none => pure ()
  | some d =>
    for line in (← get).lines.finish do World.note line
    World.close d
    modify ({ · with errors := none, lines := {} })

/-- Writes a line to the log. -/
def note (line : Bytes) : ClientM Unit := do
  logErrors
  World.note line

/-- Ends the session for a reason. -/
def terminate (cause : Failure) (record : Bool) : ClientM Unit := do
  let (wasLive, session) := (← get).session.terminate cause record
  modify ({ · with session })
  if wasLive then note (ascii "session terminated: " ++ cause.describe)

/-! ### Writing -/

/-- Writes a message. -/
def writeMessage (payload : Bytes) : ClientM (Option Failure) := do
  match (← get).writer with
  | none => pure (some Session.overFailure)
  | some (writer, d) =>
    let answers ← (do
      if writer.accepts then
        match ← World.write d (Frame.encode payload) with
        | .ok _ => pure []
        | .error e => pure [Frame.WriteAnswer.failed e.message]
      else pure [] : StateM World (List Frame.WriteAnswer))
    let done := writer.writeMessage answers payload
    modify ({ · with writer := some (done.writer, d) })
    pure done.failure

/-- Writes nothing more. -/
def closeWriter : ClientM Unit := do
  match (← get).writer with
  | none => pure ()
  | some (writer, d) =>
    if writer.isOpen then World.close d
    modify ({ · with writer := some (writer.close, d) })

/-- Sends a notification. -/
def sendNotification (method params : Bytes) : ClientM (Except Failure Unit) := do
  match (← get).session.sendRefusal with
  | some failure => pure (.error failure)
  | none =>
    match ← writeMessage (Message.notification method params) with
    | some failure => pure (.error failure)
    | none =>
      note (ascii "-> " ++ method)
      pure (.ok ())

/-- Sends a call. -/
def sendCall (method params : Bytes) (timeout : Nat) : ClientM (Except Failure Waiting) := do
  match (← get).session.register with
  | .error failure => pure (.error failure)
  | .ok (id, session) =>
    modify ({ · with session })
    match ← writeMessage (Message.call id method params) with
    | some failure =>
      modify fun c => { c with session := c.session.forget id }
      pure (.error failure)
    | none =>
      note (ascii "-> " ++ method ++ ascii " #" ++ Bytes.decimal id)
      pure (.ok { id, method, timeout, deadline := (← getThe World).now + timeout * 1000 })

/-! ### Reading -/

/-- What a reader comes upon that goes on until it fails. -/
def readToFailure : Nat → Frame.Reader → Frame.Source → Frame.ReadFailure × Frame.Reader × Frame.Source
  | 0, r, s => (.stopped, r, s)
  | fuel + 1, r, s =>
    match r.readMessage s with
    | (.ok _, r, s) => readToFailure fuel r s
    | (.error failure, r, s) => (failure, r, s)

/-- The failure is one that only the end of the stream brings. -/
def comesAtEnd : Frame.ReadFailure → Bool
  | .closed | .closedInHeader | .closedInPayload _ _ => true
  | _ => false

/-- The failure that the reader will come upon, and when; none if it will wait for ever. -/
def nextFailure (r : Frame.Reader) (now : Time) (arrivals : List (Time × Bytes)) (ends : Option Time) :
    Option (Time × Frame.ReadFailure) :=
  let ending := if ends.isSome then Frame.Ending.endOfStream else .stopRequest
  let chunks := arrivals.map (·.2)
  let (failure, _, rest) := readToFailure (chunks.flatten.length + 1) r ⟨chunks, ending⟩
  if failure = .stopped then none
  else if comesAtEnd failure then ends.map fun time => (max now time, failure)
  else
    let used := arrivals.take (arrivals.length - rest.chunks.length)
    some (max now ((used.getLast?.map (·.1)).getD now), failure)

/-- The reader fails.  A stream that is broken cannot be resumed, so the backend has to go; a
stream that has ended ends the session unless that is being shut down. -/
def readerFails (failure : Frame.ReadFailure) : ClientM Unit := do
  modify ({ · with output := none })
  let message := failure.message
  if failure.kind = .framing then
    note (ascii "framing error, terminating session: " ++ message)
    terminate failure.failure true
    closeWriter
    modify ({ · with expelling := true })
  else
    unless (← get).session.shuttingDown do
      note (ascii "backend output closed: " ++ message)
      let alive ← keep (·.isAlive World.kernel)
      let status := (← get).keeper.exitStatus
      let detail := match alive, status with
        | false, some word => ascii " (wait status " ++ Bytes.decimal word ++ ascii ")"
        | _, _ => []
      terminate { kind := .connectionClosed, message := ascii "backend exited" ++ detail } true

/-- The failure that the reader will come upon, and when. -/
def awaited : ClientM (Option (Time × Frame.ReadFailure)) := do
  let c ← get
  match c.output with
  | none => pure none
  | some d =>
    let w ← getThe World
    let (arrivals, ends) := w.pending d
    pure (nextFailure c.reader w.now arrivals ends)

/-- Makes the backend go away if the reader has yet to do so. -/
def finishExpelling : ClientM Unit := do
  let c ← get
  if c.expelling then
    let _ ← keep (·.terminate World.kernel c.options.shutdownGrace)
    modify ({ · with expelling := false })

/-- Stops what goes on beside the callers. -/
def stopReading : ClientM Unit := do
  if (← get).output.isSome then readerFails .stopped
  stopErrors
  finishExpelling

/-! ### Waiting for a call -/

/-- Gives a call up. -/
def expire (call : Waiting) : ClientM Failure := do
  let c ← get
  let ended := c.session.stage = .terminated
  set { c with session := c.session.forget call.id }
  let number := ascii "#" ++ Bytes.decimal call.id
  note (ascii "request " ++ call.method ++ ascii " " ++ number ++ ascii " timed out")
  if !ended then
    match ← sendNotification (ascii "$/cancelRequest")
      (Message.object [(ascii "id", Bytes.decimal call.id)]) with
    | .ok () => pure ()
    | .error failure => note (ascii "cancel " ++ number ++ ascii " failed: " ++ failure.describe)
  pure { kind := .timeout
         message := call.method ++ ascii " timed out after " ++ Bytes.decimal call.timeout ++ ascii " ms" }

/-- Waits for the end of a call. -/
def await (call : Waiting) : ClientM CallEnd := do
  match ← awaited with
  | some (time, failure) =>
    if time ≤ call.deadline then
      World.waitUntil time
      readerFails failure
  | none => pure ()
  match (← get).session.end? call.id with
  | some found => pure found
  | none =>
    World.waitUntil call.deadline
    return .failed (← expire call)

/-! ### Starting and ending -/

/-- What the opening call tells the backend. -/
def openingParams (o : ClientOptions) (root : Bytes) : Bytes :=
  let uri := Uri.ofPath root
  Message.object
    [(ascii "clientInfo", Message.object
        [(ascii "name", Message.quoted o.name), (ascii "version", Message.quoted o.version)]),
      (ascii "rootUri", Message.quoted uri), (ascii "rootPath", Message.quoted root),
      (ascii "capabilities", Message.object [])]

/-- The opening failed. -/
def openingFailed (failure : Failure) : ClientM Failure := do
  note (ascii "initialize failed: " ++ failure.describe)
  terminate { kind := .connectionClosed, message := ascii "startup failed" } false
  stopReading
  pure (if failure.kind = .startup then failure
    else { failure with kind := .startup, message := failure.describe })

/-- Notes how the opening ended. -/
def conclude (result : Except Failure Unit) : ClientM (Except Failure Unit) := do
  modify ({ · with opening := none, opened := some result })
  pure result

/-- Waits for the opening to end, if it is under way. -/
def finishOpening : ClientM Unit := do
  match (← get).opening with
  | none => pure ()
  | some call =>
    match ← await call with
    | .failed failure => let _ ← conclude (.error (← openingFailed failure))
    | .answered _ =>
      match (← get).session.becomeReady with
      | .ok session =>
        modify ({ · with session })
        note (ascii "session ready")
        let _ ← conclude (.ok ())
      | .error failure => let _ ← conclude (.error (← openingFailed failure))

/-- Launches the backend and sends the opening call.  The result is how the start has ended, if it
has. -/
def beginStart : ClientM (Option (Except Failure Unit)) := do
  finishOpening
  match (← get).session.startRefusal with
  | some failure => pure (some (.error failure))
  | none =>
    let o := (← get).options
    let plan := { o.backend with
      directory := if o.backend.directory.isEmpty then o.workspaceRoot else o.backend.directory }
    match ← keep (·.spawn World.kernel plan) with
    | .error failure =>
      note (ascii "backend spawn failed: " ++ failure.message)
      modify fun c => { c with session := c.session.launchFailed }
      return some (← conclude (.error failure))
    | .ok () =>
      let input ← keep fun s => pure (s.take .input)
      let output ← keep fun s => pure (s.take .output)
      let errors ← keep fun s => pure (s.take .errors)
      modify fun c => { c with
        writer := input.map fun d => ({}, d)
        output, errors
        session := c.session.connect }
      let disk := (← getThe World).disk
      let root := disk.absolute (if o.workspaceRoot.isEmpty then disk.currentPath else o.workspaceRoot)
      match ← sendCall (ascii "initialize") (openingParams o root) o.requestTimeout with
      | .ok call =>
        modify ({ · with opening := some call })
        pure none
      | .error failure => return some (← conclude (.error (← openingFailed failure)))

/-- Starts the session. -/
def start : ClientM (Except Failure Unit) := do
  match ← beginStart with
  | some result => pure result
  | none =>
    finishOpening
    return (← get).opened.getD (.ok ())

/-- Ends the session and makes the backend go away. -/
def shutdown : ClientM Unit := do
  finishOpening
  let (turn, session) := (← get).session.beginShutdown
  modify ({ · with session })
  match turn with
  | .unstarted => pure ()
  | .begun => pure ()
  | .fromStage stage =>
    let o := (← get).options
    if stage = .ready then
      match ← sendCall (ascii "shutdown") (Message.object []) (min o.requestTimeout o.shutdownGrace) with
      | .ok call =>
        match ← await call with
        | .answered _ => pure ()
        | .failed failure => note (ascii "shutdown request failed: " ++ failure.describe)
      | .error failure => note (ascii "shutdown request failed: " ++ failure.describe)
      match ← sendNotification (ascii "exit") (Message.object []) with
      | .ok () => pure ()
      | .error failure => note (ascii "exit notification failed: " ++ failure.describe)
    terminate { kind := .connectionClosed, message := ascii "client shut down" } false
    closeWriter
    let _ ← keep (·.terminate World.kernel o.shutdownGrace)
    stopReading
    note (ascii "session closed")

/-! ### What callers ask for -/

/-- Sends a call and waits for its reply. -/
def request (method params : Bytes) (timeout : Option Nat) : ClientM (Except Failure Bytes) := do
  match (← get).session.callRefusal with
  | some failure => pure (.error failure)
  | none =>
    match ← sendCall method params (timeout.getD (← get).options.requestTimeout) with
    | .error failure => pure (.error failure)
    | .ok call =>
      match ← await call with
      | .answered reply => pure (.ok reply)
      | .failed failure => pure (.error failure)

/-- Sends a notification. -/
def notify (method params : Bytes) : ClientM (Except Failure Unit) := do
  match (← get).session.callRefusal with
  | some failure => pure (.error failure)
  | none => sendNotification method params

/-- The parameters of a notification about a document. -/
def noticeParams : DocumentNotice → Bytes
  | .opened uri language text =>
    Message.object [(ascii "textDocument", Message.object
      [(ascii "uri", Message.quoted uri), (ascii "languageId", Message.quoted language),
        (ascii "version", ascii "1"), (ascii "text", Message.quoted text)])]
  | .changed uri version text =>
    Message.object
      [(ascii "textDocument", Message.object
          [(ascii "uri", Message.quoted uri), (ascii "version", Bytes.decimal version)]),
        (ascii "contentChanges", 91 :: Message.object [(ascii "text", Message.quoted text)] ++ [93])]

/-- Makes sure that the backend has the present text of a document. -/
def sync (path : Bytes) : ClientM (Except Failure DocumentTable.Ensured) := do
  let c ← get
  match c.session.syncRefusal with
  | some failure => pure (.error failure)
  | none =>
    let disk := (← getThe World).disk
    -- the notification is sent first, so that its fate is known when the table is settled
    let fate ← match c.documents.plan disk path with
      | .send notice _ _ => sendNotification notice.method (noticeParams notice)
      | _ => pure (.ok ())
    let refused : Option Failure := match fate with
      | .ok () => none
      | .error failure => some failure
    let done := c.documents.ensure disk (fun _ => refused) path
    modify ({ · with documents := done.table })
    for remark in done.remarks do note remark
    match done.failure with
    | some failure => pure (.error failure)
    | none => pure (.ok done)

end Client

end AnalyzerBridge

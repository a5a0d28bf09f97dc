/-
What happens on a machine while a process and its descendants live.

Time is counted in microseconds.  A process is followed from its first step to its last, and
whatever it starts is followed then and there: a descendant lives through its own time, and
the clock goes back to where its parent stands.  So every event carries its time, and who
looks at them from outside puts them in order.

A descriptor leads to a channel.  A channel that several processes hold is let go when the
last of them lets go; a process that never ends never lets go.  Input arrives at given times,
and a reader waits for it.  Waiting is where signals strike: one that is neither ignored nor
caught ends the process at the moment it arrives.
-/
import AnalyzerBridge.Host.Life
import AnalyzerBridge.Host.Shell.Syntax

namespace AnalyzerBridge.Host

/-- The bytes of a stream that arrive, and when it ends, if it does. -/
structure Inflow where
  /-- What arrives and when, the earliest first. -/
  arrivals : List (Time × Bytes) := []
  /-- When no more can arrive. -/
  ends : Option Time := none
  deriving DecidableEq, Repr

/-- What belongs to one process. -/
structure Process where
  /-- Its number. -/
  pid : Nat
  /-- Its directory. -/
  directory : Place
  /-- Its open descriptors. -/
  descriptors : List (Nat × Channel)
  /-- Its environment. -/
  environment : List (Bytes × Bytes) := []
  /-- The signals that it ignores. -/
  ignored : List Signal := []
  /-- The signals that it has a handler for. -/
  handled : List Signal := []
  /-- The handled signals that have arrived and wait for their handlers. -/
  caught : List Signal := []
  deriving DecidableEq, Repr

/-- What a shell remembers. -/
structure Shell.Memory where
  /-- The name it was called by. -/
  name : Bytes := ascii "sh"
  /-- Its parameters. -/
  parameters : List Bytes := []
  /-- Variables and their values. -/
  bindings : List (Bytes × Bytes) := []
  /-- The variables that programs get to see. -/
  exported : List Bytes := []
  /-- Functions. -/
  functions : List (Bytes × Shell.Command) := []
  /-- What to do on signals. -/
  handlers : List (Signal × Bytes) := []
  /-- How the last command ended. -/
  status : Nat := 0
  /-- The number of the process that the shell started as. -/
  pid : Nat := 0
  /-- The last command in the background. -/
  background : Option Nat := none
  /-- Commands in the background, when they end and how. -/
  jobs : List (Nat × Option Time × WaitStatus) := []
  /-- How the last script ended whose output was taken in by the present command. -/
  substituted : Option Nat := none
  /-- The line of the present command. -/
  line : Nat := 1
  /-- How many loops the present command stands in. -/
  loops : Nat := 0
  /-- Leave when a command fails. -/
  leaveOnFailure : Bool := false
  /-- A variable that is not set is a fault. -/
  refuseUnset : Bool := false

/-- The machine as one process sees it, and what has happened so far. -/
structure Machine where
  /-- The time. -/
  now : Time
  /-- The time beyond which nothing is followed. -/
  horizon : Time
  /-- The files. -/
  tree : FileTree
  /-- What the clock of the files shows at time zero. -/
  fileTime : Int := 0
  /-- The changes of files, the last first. -/
  edits : List (Time × Edit) := []
  /-- What was written to which stream, the last first. -/
  written : List (Time × Nat × Bytes) := []
  /-- When channels were let go of last; `none` for never. -/
  released : List (Channel × Option Time) := []
  /-- What can be read from which stream. -/
  inflows : List (Nat × Inflow) := []
  /-- The streams that nobody reads after a time. -/
  abandoned : List (Nat × Time) := []
  /-- The signals that are sent: when, to whom and which. -/
  signals : List (Time × Nat × Signal) := []
  /-- The number of the next process. -/
  nextPid : Nat
  /-- The number of the next stream. -/
  nextStream : Nat := 2
  /-- The present process. -/
  process : Process
  /-- Its memory, if it is a shell. -/
  shell : Shell.Memory := {}

/-- Why a process does not go on. -/
inductive Stop where
  /-- It leaves with a code. -/
  | leave (code : Nat)
  /-- A signal ends it. -/
  | killed (signal : Signal)
  /-- It waits for ever. -/
  | never
  /-- Inside a shell: a number of loops are left. -/
  | breakLoops (count : Nat)
  /-- Inside a shell: the next round of a loop is due. -/
  | nextRound (count : Nat)
  /-- Inside a shell: a function is left. -/
  | returned (status : Nat)
  deriving DecidableEq, Repr

/-- The actions of a process. -/
abbrev Run := ExceptT Stop (StateM Machine)

namespace Run

/-! ### Time and signals -/

/-- How long it takes to start a program. -/
def startCost : Time := 500

/-- How long a step takes. -/
def stepCost : Time := 1

/-- The first signal within a limit that ends the process. -/
def fatal? (m : Machine) (limit : Option Time) : Option (Time × Signal) :=
  let strikes (s : Time × Nat × Signal) : Bool :=
    s.2.1 == m.process.pid && limit.all (s.1 ≤ ·) && !Signal.isHarmless s.2.2
      && (Signal.isFinal s.2.2
        || !(m.process.ignored.contains s.2.2 || m.process.handled.contains s.2.2))
  (m.signals.filter strikes).foldl
    (fun best s => if best.all (s.1 < ·.1) then some (s.1, s.2.2) else best) none

/-- Takes note of the signals within a limit that do not end the process. -/
def noteSignals (m : Machine) (limit : Time) : Machine :=
  let mine (s : Time × Nat × Signal) : Bool := s.2.1 == m.process.pid && s.1 ≤ limit
  let caught := ((m.signals.filter mine).map (·.2.2)).filter m.process.handled.contains
  { m with
    signals := m.signals.filter (!mine ·)
    process := { m.process with caught := m.process.caught ++ caught } }

/-- Waits for something that does not come, until a signal strikes. -/
def waitForever : Run Unit := do
  let m ← get
  match fatal? m none with
  | some (time, signal) =>
    set { m with now := max m.now time }
    throw (.killed signal)
  | none => throw .never

/-- Waits until a moment. -/
def waitUntil (moment : Time) : Run Unit := do
  let m ← get
  if m.horizon < moment then waitForever
  else match fatal? m (some moment) with
    | some (time, signal) =>
      set { m with now := max m.now time }
      throw (.killed signal)
    | none => set (noteSignals { m with now := max m.now moment } moment)

/-- Waits for some time. -/
def pass (span : Time) : Run Unit := do waitUntil ((← get).now + span)

/-- The first signal within a limit that has a handler. -/
def handled? (m : Machine) (limit : Option Time) : Option (Time × Signal) :=
  let mine (s : Time × Nat × Signal) : Bool :=
    s.2.1 == m.process.pid && limit.all (s.1 ≤ ·) && m.process.handled.contains s.2.2
  (m.signals.filter mine).foldl
    (fun best s => if best.all (s.1 < ·.1) then some (s.1, s.2.2) else best) none

/-- Waits until a moment, or for ever, but not beyond the arrival of a signal that has a handler;
the signal, if one arrived. -/
def waitOrCatch (moment : Option Time) : Run (Option Signal) := do
  match handled? (← get) moment with
  | some (time, signal) =>
    waitUntil time
    pure (some signal)
  | none =>
    match moment with
    | some moment => waitUntil moment
    | none => waitForever
    pure none

/-- Sends a signal. -/
def send (pid : Nat) (signal : Signal) : Run Unit := do
  modify fun m => { m with signals := m.signals ++ [(m.now, pid, signal)] }
  waitUntil (← get).now

/-! ### Descriptors -/

/-- What a descriptor leads to. -/
def channel? (descriptor : Nat) : Run (Option Channel) := do
  return (← get).process.descriptors.lookup descriptor

/-- The later of two moments, where none is never. -/
def later : Option Time → Option Time → Option Time
  | some a, some b => some (max a b)
  | _, _ => none

/-- Notes that a process let go of a channel. -/
def release (moment : Option Time) (m : Machine) (channel : Channel) : Machine :=
  let moment := match m.released.lookup channel with
    | some before => later before moment
    | none => moment
  { m with released := (channel, moment) :: m.released.filter (·.1 != channel) }

/-- Points a descriptor to a channel, or closes it, and keeps what it led to for later. -/
def point (descriptor : Nat) (channel : Option Channel) : Run Unit := do
  modify fun m =>
    let others := m.process.descriptors.filter (·.1 != descriptor)
    { m with process := { m.process with
        descriptors := (channel.toList.map fun c => (descriptor, c)) ++ others } }

/-- Points a descriptor to a channel, or closes it, and lets go of what it led to. -/
def replace (descriptor : Nat) (channel : Option Channel) : Run Unit := do
  let old ← channel? descriptor
  point descriptor channel
  match old with
  | none => pure ()
  | some old =>
    modify fun m =>
      if m.process.descriptors.any (·.2 == old) then m else release (some m.now) m old

/-! ### Reading and writing -/

/-- What a stream holds. -/
def inflow (stream : Nat) : Run Inflow := do
  return ((← get).inflows.lookup stream).getD { ends := some 0 }

/-- When there is something to read, or the end of the stream is known. -/
def readable (descriptor : Nat) : Run (Option Time) := do
  match ← channel? descriptor with
  | some (.input stream) =>
    let flow ← inflow stream
    pure ((flow.arrivals.head?.map (·.1)).or flow.ends)
  | _ => return some (← get).now

/-- Changes what a stream holds. -/
def setInflow (stream : Nat) (flow : Inflow) : Run Unit :=
  modify fun m => { m with inflows := (stream, flow) :: m.inflows.filter (·.1 != stream) }

/-- Reads at least one byte and at most so many; nothing at the end of the stream. -/
def readChunk (descriptor : Nat) (most : Nat) : Run (Except Errno Bytes) := do
  match ← channel? descriptor with
  | none => pure (.error .badDescriptor)
  | some .nothing => pure (.ok [])
  | some .zeros => pure (.ok (List.replicate most 0))
  | some (.output _) => pure (.error .badDescriptor)
  | some (.fileEnd _) => pure (.error .badDescriptor)
  | some (.input stream) =>
    let flow ← inflow stream
    match flow.arrivals, flow.ends with
    | (time, text) :: later, _ =>
      waitUntil time
      setInflow stream { flow with
        arrivals := if most < text.length then (time, text.drop most) :: later else later }
      pure (.ok (text.take most))
    | [], some time =>
      waitUntil time
      pure (.ok [])
    | [], none =>
      waitForever
      pure (.ok [])

/-- Reads to the end of the stream. -/
def readAll (descriptor : Nat) : Nat → Run (Except Errno Bytes)
  | 0 => do
    waitForever
    pure (.ok [])
  | fuel + 1 => do
    match ← readChunk descriptor 65536 with
    | .error e => pure (.error e)
    | .ok [] => pure (.ok [])
    | .ok chunk => return (← readAll descriptor fuel).map (chunk ++ ·)

/-- Stores something at a place. -/
def putFile (place : Place) (node : Node) : Run Unit := modify fun m =>
  let edit := Edit.put place ⟨node, m.fileTime⟩
  { m with tree := m.tree.edit edit, edits := (m.now, edit) :: m.edits }

/-- Removes a place. -/
def dropFile (place : Place) : Run Unit := modify fun m =>
  { m with tree := m.tree.edit (.drop place), edits := (m.now, .drop place) :: m.edits }

/-- Writes a text. -/
def write (descriptor : Nat) (text : Bytes) : Run (Option Errno) := do
  match ← channel? descriptor with
  | none => pure (some .badDescriptor)
  | some (.input _) => pure (some .badDescriptor)
  | some .nothing => pure none
  | some .zeros => pure none
  | some (.fileEnd place) =>
    match (← get).tree.get? place with
    | some ⟨.file old executable, _⟩ => putFile place (.file (old ++ text) executable); pure none
    | _ => pure none
  | some (.output stream) =>
    let m ← get
    if text.isEmpty then pure none
    else if (m.abandoned.lookup stream).any (· < m.now) then
      send m.process.pid Signal.pipe
      pure (some .brokenPipe)
    else
      set { m with written := (m.now, stream, text) :: m.written }
      pure none

/-- Writes a text and pays no heed to failure. -/
def emit (descriptor : Nat) (text : Bytes) : Run Unit := do
  let _ ← write descriptor text

/-- A new stream from what one process writes to what another reads, before anything is
written. -/
def newStream : Run Nat := modifyGet fun m => (m.nextStream, { m with nextStream := m.nextStream + 1 })

/-- What was written to a stream, ready to be read. -/
def drain (stream : Nat) : Run Inflow := do
  let m ← get
  let arrivals := (m.written.filter (·.2.1 == stream)).map fun w => (w.1, w.2.2)
  pure { arrivals := arrivals.reverse.mergeSort (fun a b => a.1 ≤ b.1)
         ends := ((m.released.lookup (.output stream)).getD (some m.now)) }

/-! ### Other processes -/

/-- How a process went on until its end. -/
structure Ended where
  /-- Its number. -/
  pid : Nat
  /-- When it ended, if it did. -/
  time : Option Time
  /-- How it ended. -/
  status : WaitStatus
  deriving DecidableEq, Repr

/-- How a process ended that did what it had to do or stopped. -/
def outcome : Except Stop Nat → Option WaitStatus
  | .ok code => some (.exited code)
  | .error (.leave code) => some (.exited code)
  | .error (.killed signal) => some (.signalled signal)
  | .error .never => none
  | .error _ => some (.exited 0)

/-- Lets a process live to its end and lets go of all that it held. -/
def live (body : Run Nat) (m : Machine) : Option WaitStatus × Machine :=
  let (result, m) := (ExceptT.run body).run m
  let status := outcome result
  let moment := status.map fun _ => m.now
  (status, (m.process.descriptors.map (·.2)).foldl (release moment) m)

/-- Starts a process that does what is given, and follows it to its end.  The clock then goes
back to the moment of its start. -/
def fork (body : Run Nat) : Run Ended := do
  let m ← get
  let pid := m.nextPid
  let child := { m with nextPid := pid + 1, process := { m.process with pid, caught := [] } }
  let (status, after) := live body child
  set { after with now := m.now, process := m.process, shell := m.shell }
  pure { pid, time := status.map fun _ => after.now, status := status.getD (.exited 0) }

/-- Waits for a process to end. -/
def await (ended : Ended) : Run WaitStatus := do
  match ended.time with
  | some time => waitUntil time
  | none => waitForever
  pure ended.status

/-- Waits for processes to end; the outcome is that of the last. -/
def awaitAll : List Ended → Run WaitStatus
  | [] => pure (.exited 0)
  | [ended] => await ended
  | ended :: more => do
    let _ ← await ended
    awaitAll more

/-! ### Files -/

/-- The place that a path leads to. -/
def resolve (path : Bytes) : Run (Except Errno Place) := do
  let m ← get
  pure (m.tree.resolve m.process.directory path)

/-- What a path leads to. -/
def stat (path : Bytes) : Run (Except Errno Stored) := do
  let m ← get
  pure (m.tree.stat m.process.directory path)

/-- Opens a file to read. -/
def openRead (path : Bytes) : Run (Except Errno Channel) := do
  match ← stat path with
  | .error e => pure (.error e)
  | .ok ⟨.nothing, _⟩ => pure (.ok .nothing)
  | .ok ⟨.zeros, _⟩ => pure (.ok .zeros)
  | .ok ⟨node, _⟩ =>
    let text := match node with
      | .file text _ => text
      | _ => []
    let stream ← newStream
    setInflow stream { arrivals := if text.isEmpty then [] else [(0, text)], ends := some 0 }
    pure (.ok (.input stream))

/-- Opens a file to write, at its end or from an empty start. -/
def openWrite (path : Bytes) (append : Bool) : Run (Except Errno Channel) := do
  let m ← get
  match m.tree.writable m.process.directory path with
  | .error e => pure (.error e)
  | .ok (place, none) =>
    putFile place (.file [] false)
    pure (.ok (.fileEnd place))
  | .ok (place, some (.file _ executable)) =>
    if !append then putFile place (.file [] executable)
    pure (.ok (.fileEnd place))
  | .ok (_, some .zeros) => pure (.ok .zeros)
  | .ok (_, some _) => pure (.ok .nothing)

/-- Reads a whole file. -/
def readFile (path : Bytes) : Run (Except Errno Bytes) := do
  match ← stat path with
  | .error e => pure (.error e)
  | .ok ⟨.directory, _⟩ => pure (.error .isDirectory)
  | .ok ⟨.file text _, _⟩ => pure (.ok text)
  | .ok _ => pure (.ok [])

end Run

end AnalyzerBridge.Host

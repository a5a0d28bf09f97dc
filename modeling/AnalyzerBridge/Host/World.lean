/-
The world that the bridge lives in: its clock, its files, its descriptors, its children and
its log.

Nothing here happens by itself.  The clock moves when the bridge waits, and what its children
have done by then follows from their lives.  What lives programs lead is up to the world.
-/
import AnalyzerBridge.Host.Life
import AnalyzerBridge.LogRoute

namespace AnalyzerBridge.Host

/-- The number of an open file. -/
abbrev Descriptor := Nat

/-- An end of a pipe. -/
inductive PipeEnd where
  | reading (pipe : Nat)
  | writing (pipe : Nat)
  deriving DecidableEq, Repr

/-- The two ends of a new pipe. -/
structure Pipe where
  /-- The end that is read. -/
  reading : Descriptor
  /-- The end that is written. -/
  writing : Descriptor
  deriving DecidableEq, Repr

/-- Both ends. -/
def Pipe.ends (p : Pipe) : List Descriptor := [p.reading, p.writing]

/-- What a new process is to run, and what it is given. -/
structure LaunchRequest where
  /-- The name or path of the program. -/
  executable : Bytes
  /-- The words behind the name. -/
  arguments : List Bytes
  /-- The directory to run in; empty for the present one. -/
  directory : Bytes
  /-- The end of a pipe to read from, if input comes from one. -/
  input : Option Descriptor
  /-- The end of a pipe for standard output. -/
  output : Descriptor
  /-- The end of a pipe for standard error. -/
  errors : Descriptor
  /-- The end of a pipe that tells of a failure to run, and is closed by running. -/
  report : Descriptor
  deriving DecidableEq, Repr

/-- What the system answers when asked whether a process has ended. -/
inductive ProcessReport where
  /-- It has not. -/
  | running
  /-- It has, with a status word, and is gone for good now. -/
  | ended (status : Nat)
  /-- There is no such process to wait for. -/
  | gone
  deriving DecidableEq, Repr

/-- A child of the bridge. -/
structure Child where
  /-- How it was launched. -/
  launch : Launch
  /-- The pipes of its input, output and errors. -/
  pipes : Option Nat × Nat × Nat
  /-- What was done to it, the earliest first. -/
  deeds : List (Time × Deed) := []
  /-- Its life. -/
  life : Life
  /-- Its end has been collected. -/
  reaped : Bool := false
  /-- How many of its changes of files were taken into the files of the world. -/
  settled : Nat := 0
  deriving DecidableEq, Repr

/-- The world of the bridge. -/
structure World where
  /-- How a process lives that was launched, and to which something is done at given times. -/
  lifeOf : Launch → List (Time × Deed) → Life
  /-- The time. -/
  now : Time := 0
  /-- The files, with the changes that were taken in so far. -/
  tree : FileTree
  /-- The directory of the bridge. -/
  current : Place
  /-- Its environment. -/
  environment : Environment
  /-- The way of its log lines. -/
  route : LogRoute
  /-- The places of the files that the bridge itself wrote to. -/
  written : List Place := []
  /-- Its open descriptors. -/
  descriptors : List (Descriptor × PipeEnd) := []
  /-- The number of the next descriptor. -/
  nextDescriptor : Descriptor := 3
  /-- The number of the next pipe. -/
  nextPipe : Nat := 0
  /-- How many bytes were read from which pipe. -/
  taken : List (Nat × Nat) := []
  /-- What pipes tell of failures to run. -/
  reports : List (Nat × Errno) := []
  /-- Its children. -/
  children : List Child := []
  /-- How many descriptors it may have open at once, if that is limited. -/
  descriptorLimit : Option Nat := none
  /-- How many children it may have at once, if that is limited. -/
  childLimit : Option Nat := none

namespace World

/-- A world before anything has happened. -/
def initial (lifeOf : Launch → List (Time × Deed) → Life) (tree : FileTree) (current : Place)
    (environment : Environment) : World :=
  { lifeOf, tree, current, environment, route := .initial environment ⟨tree, current⟩ }

/-! ### Files and the log -/

/-- The time of files that are written. -/
def fileTime : Int := 0

/-- The changes of files that a child has made by now and that were not taken in, the earliest
first. -/
def due (w : World) (c : Child) : List (Time × Edit) :=
  (c.life.edits.drop c.settled).takeWhile (·.1 ≤ w.now)

/-- The files as they are now. -/
def files (w : World) : FileTree :=
  ((w.children.flatMap w.due).mergeSort fun a b => a.1 ≤ b.1).foldl (fun tree e => tree.edit e.2) w.tree

/-- Takes in what the children have changed by now. -/
def settle (w : World) : World :=
  { w with
    tree := w.files
    children := w.children.map fun c => { c with settled := c.settled + (w.due c).length } }

/-- The disk as it is now. -/
def disk (w : World) : Disk := ⟨w.files, w.current⟩

/-- Stores something at a place. -/
def put (w : World) (place : Place) (node : Node) : World :=
  let w := w.settle
  { w with
    tree := w.tree.set place ⟨node, fileTime⟩
    written := if w.written.contains place then w.written else place :: w.written }

/-- Puts a text behind what a file holds. -/
def append (path text : Bytes) : StateM World Unit := modify fun w =>
  match w.files.writable w.current path with
  | .ok (place, none) => w.put place (.file text false)
  | .ok (place, some (.file old executable)) => w.put place (.file (old ++ text) executable)
  | _ => w

/-- Writes a line to the log. -/
def note (line : Bytes) : StateM World Unit := do
  let w ← get
  let (route, written) := w.route.write w.disk.canAppend line
  set { w with route }
  match written with
  | some (path, text) => append path text
  | none => pure ()

/-! ### Time -/

/-- What the clock shows. -/
def clock : StateM World Time := do pure (← get).now

/-- Lets time pass, counted in microseconds. -/
def pass (span : Time) : StateM World Unit := modify fun w => { w with now := w.now + span }

/-- Lets time pass up to a moment. -/
def waitUntil (moment : Time) : StateM World Unit := modify fun w => { w with now := max w.now moment }

/-! ### Children -/

/-- How long it takes to launch a process. -/
def launchCost : Time := 500

/-- How long it takes from the end of a process until it can be collected. -/
def reapDelay : Time := 100

/-- The child of a number. -/
def child? (w : World) (pid : Nat) : Option Child := w.children.find? (·.launch.pid == pid)

/-- Changes a child. -/
def setChild (w : World) (c : Child) : World :=
  { w with children := w.children.map fun old => if old.launch.pid = c.launch.pid then c else old }

/-- Does something to a child. -/
def doTo (deed : Deed) (c : Child) : StateM World Unit := modify fun w =>
  let deeds := c.deeds ++ [(w.now, deed)]
  w.setChild { c with deeds, life := w.lifeOf c.launch deeds }

/-- The pipe that a descriptor belongs to. -/
def pipeOf (w : World) (d : Descriptor) : Option Nat :=
  (w.descriptors.lookup d).map fun
    | .reading pipe => pipe
    | .writing pipe => pipe

/-- There is room for so many more descriptors. -/
def hasDescriptors (w : World) (count : Nat) : Bool :=
  w.descriptorLimit.all (w.descriptors.length + count ≤ ·)

/-- The next pipe. -/
def freshPipe (w : World) : Pipe := ⟨w.nextDescriptor, w.nextDescriptor + 1⟩

/-- The world with one more pipe. -/
def withPipe (w : World) : World :=
  { w with
    descriptors := (w.freshPipe.reading, .reading w.nextPipe) ::
      (w.freshPipe.writing, .writing w.nextPipe) :: w.descriptors
    nextDescriptor := w.nextDescriptor + 2
    nextPipe := w.nextPipe + 1 }

/-- Opens a pipe, if there is room for its ends. -/
def openPipe : StateM World (Except Errno Pipe) := modifyGet fun w =>
  if w.hasDescriptors 2 then (.ok w.freshPipe, w.withPipe) else (.error .tooManyFiles, w)

/-- Closes a descriptor.  A child notices if it was the other end of one of its pipes. -/
def close (d : Descriptor) : StateM World Unit := do
  let w ← get
  set { w with descriptors := w.descriptors.filter (·.1 != d) }
  match w.descriptors.lookup d with
  | some (.writing pipe) =>
    match w.children.find? (·.pipes.1 == some pipe) with
    | some c => doTo .inputEnds c
    | none => pure ()
  | some (.reading pipe) =>
    match w.children.find? fun c => c.pipes.2.1 == pipe || c.pipes.2.2 == pipe with
    | some c => doTo (.abandon (if c.pipes.2.1 = pipe then 0 else 1)) c
    | none => pure ()
  | none => pure ()

/-- The directory that a request asks for. -/
def directoryOf (w : World) (path : Bytes) : Except Errno Place := do
  if path.isEmpty then .ok w.current
  else
    let place ← w.files.resolve w.current path
    match w.files.get? place with
    | some ⟨.directory, _⟩ => .ok place
    | some _ => .error .notDirectory
    | none => .error .noEntry

/-- The zero byte ends every text that is handed to the system. -/
def LaunchRequest.words (r : LaunchRequest) : List Bytes :=
  (r.executable :: r.arguments).map Bytes.untilZero

/-- The number of the first child. -/
def firstPid : Nat := 1000

/-- There is room for one more child. -/
def hasChild (w : World) : Bool :=
  w.childLimit.all ((w.children.filter (!·.reaped)).length < ·)

/-- Starts a process.  If the request cannot be carried out, the process tells why on its report
pipe and leaves. -/
def launch (r : LaunchRequest) : StateM World Nat := do
  pass launchCost
  let w ← get
  let pid := firstPid + 100 * w.children.length
  let words := LaunchRequest.words r
  let call : Except Errno (Place × Call) := do
    let directory ← w.directoryOf r.directory
    let call ← w.files.launch directory (w.environment.get? (ascii "PATH")) (words.headD []) words
    .ok (directory, call)
  let pipes := (r.input.bind w.pipeOf, (w.pipeOf r.output).getD 0, (w.pipeOf r.errors).getD 0)
  let launch (directory : Place) (call : Call) : Launch :=
    { pid, call, directory, environment := w.environment.bindings, fed := r.input.isSome
      tree := w.files, start := w.now }
  match call with
  | .ok (directory, call) =>
    let launch := launch directory call
    let child : Child := { launch, pipes, life := w.lifeOf launch [] }
    set { w with children := w.children ++ [child] }
  | .error e =>
    let life : Life :=
      { released := [(.output 0, some w.now), (.output 1, some w.now), (.input 0, some w.now)]
        ended := some (w.now, .exited 127) }
    let child : Child := { launch := launch w.current ⟨ascii "false", []⟩, pipes, life }
    set { w with
      children := w.children ++ [child]
      reports := ((w.pipeOf r.report).getD 0, e) :: w.reports }
  pure pid

/-- Starts a process, if there is room for one. -/
def fork (r : LaunchRequest) : StateM World (Except Errno Nat) := do
  if (← get).hasChild then return .ok (← launch r)
  else return .error .tryAgain

/-- What a report pipe tells: a failure to run, or nothing. -/
def launchReport (d : Descriptor) : StateM World (Option Errno) := do
  let w ← get
  pure ((w.pipeOf d).bind fun pipe => w.reports.lookup pipe)

/-- The end of a child, if it can be collected now. -/
def collectable (w : World) (c : Child) : Option WaitStatus :=
  match c.life.ended with
  | some (time, status) => if time + reapDelay ≤ w.now then some status else none
  | none => none

/-- Asks whether a child has ended, and collects its end. -/
def poll (pid : Nat) : StateM World ProcessReport := do
  let w ← get
  match w.child? pid with
  | none => pure .gone
  | some c =>
    if c.reaped then pure .gone
    else match w.collectable c with
      | none => pure .running
      | some status =>
        set (w.setChild { c with reaped := true })
        pure (.ended status.word)

/-- Waits for a child to end, and collects its end. -/
def await (pid : Nat) : StateM World (Option Nat) := do
  let w ← get
  match w.child? pid with
  | none => pure none
  | some c =>
    if c.reaped then pure none
    else match c.life.ended with
      | none => pure none
      | some (time, status) =>
        set ({ w with now := max w.now (time + reapDelay) }.setChild { c with reaped := true })
        pure (some status.word)

/-- Sends a signal to a child. -/
def signal (pid : Nat) (signal : Signal) : StateM World Unit := do
  match (← get).child? pid with
  | some c => if c.reaped then pure () else doTo (.signal signal) c
  | none => pure ()

/-! ### Streams -/

/-- The child that writes to a pipe, and which of its streams it is. -/
def writer? (w : World) (pipe : Nat) : Option (Child × Nat) :=
  (w.children.find? fun c => c.pipes.2.1 == pipe || c.pipes.2.2 == pipe).map fun c =>
    (c, if c.pipes.2.1 = pipe then 0 else 1)

/-- What is or will be in a pipe and was not read so far, and when the pipe ends. -/
def pending (w : World) (d : Descriptor) : List (Time × Bytes) × Option Time :=
  match (w.pipeOf d).bind fun pipe => (w.writer? pipe).map fun c => (pipe, c) with
  | none => ([], none)
  | some (pipe, c, stream) =>
    let skip := (w.taken.lookup pipe).getD 0
    let step (state : Nat × List (Time × Bytes)) (next : Time × Bytes) : Nat × List (Time × Bytes) :=
      let rest := next.2.drop state.1
      (state.1 - next.2.length, if rest.isEmpty then state.2 else (next.1, rest) :: state.2)
    (((c.life.output stream).foldl step (skip, [])).2.reverse, c.life.outputEnds stream)

/-- Notes that bytes were read from a pipe. -/
def take (d : Descriptor) (count : Nat) : StateM World Unit := modify fun w =>
  match w.pipeOf d with
  | none => w
  | some pipe =>
    let before := (w.taken.lookup pipe).getD 0
    { w with taken := (pipe, before + count) :: w.taken.filter (·.1 != pipe) }

/-- Reads so many bytes, or to the end of the stream, and waits for them.  A stream that neither
goes on nor ends yields what there is. -/
def read (d : Descriptor) (most : Option Nat) : StateM World Bytes := do
  let w ← get
  let (arrivals, ends) := w.pending d
  let step (state : Bytes × Time) (next : Time × Bytes) : Bytes × Time :=
    if most.any (· ≤ state.1.length) then state else (state.1 ++ next.2, next.1)
  let (text, time) := arrivals.foldl step ([], w.now)
  let text := (most.map text.take).getD text
  waitUntil time
  if !most.any (· ≤ text.length) then
    match ends with
    | some time => waitUntil time
    | none => pure ()
  take d text.length
  pure text

/-- Writes a text to a child. -/
def write (d : Descriptor) (text : Bytes) : StateM World (Except Errno Nat) := do
  let w ← get
  match w.descriptors.lookup d with
  | some (.writing pipe) =>
    match w.children.find? (·.pipes.1 == some pipe) with
    | some c =>
      if c.life.refusesInput w.now then pure (.error .brokenPipe)
      else
        doTo (.input text) c
        pure (.ok text.length)
    | none => pure (.ok text.length)
  | _ => pure (.error .badDescriptor)

end World

end AnalyzerBridge.Host

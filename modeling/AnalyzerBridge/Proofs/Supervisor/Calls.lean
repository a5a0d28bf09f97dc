/-
What a keeper of a child asks of the system.

Everything that can be said of a keeper from outside is said of the calls that it makes and of
the answers that it gets.  So a kernel is made to record them: it does what the plain one does
and notes each call that concerns a process or a descriptor.  `Makes` says of a piece of the
keeper's code which calls it makes and what comes of them, whatever the system answers, and that
being recorded changes nothing.

What the parts of the keeper make is listed, each way in which they can end with the calls made
on the way: `Looked` for looking at the child, `Departed` for making it go away, `Launched` for
launching.  Nothing but this file looks into how they work.
-/
import AnalyzerBridge.Supervisor

namespace AnalyzerBridge

open Host (Kernel Descriptor Pipe Signal Errno LaunchRequest ProcessReport)

/-! ### Calls -/

/-- A call of the system that concerns a process or a descriptor, with its answer. -/
inductive SystemCall where
  | opened (pipe : Pipe)
  /-- There was no pipe to be had. -/
  | unopened (reason : Errno)
  | closed (d : Descriptor)
  | forked (request : LaunchRequest) (pid : Nat)
  /-- There was no process to be had. -/
  | unforked (request : LaunchRequest) (reason : Errno)
  | reported (d : Descriptor) (failure : Option Errno)
  | polled (pid : Nat) (report : ProcessReport)
  | awaited (pid : Nat) (status : Option Nat)
  | signalled (pid : Nat) (signal : Signal)
  deriving DecidableEq, Repr

namespace SystemCall

/-- The call for a pipe that was answered so. -/
def ofPipe : Except Errno Pipe → SystemCall
  | .ok pipe => opened pipe
  | .error reason => unopened reason

/-- The call for a process that was answered so. -/
def ofFork (request : LaunchRequest) : Except Errno Nat → SystemCall
  | .ok pid => forked request pid
  | .error reason => unforked request reason

/-- What a call tells of a process that is dead: its number, and its status word if the call has
collected that. -/
def death? : SystemCall → Option (Nat × Option Nat)
  | polled pid (.ended status) => some (pid, some status)
  | polled pid .gone => some (pid, none)
  | awaited pid status => some (pid, status)
  | _ => none

/-- The signal that a call sends, and the process it is sent to. -/
def signal? : SystemCall → Option (Nat × Signal)
  | signalled pid signal => some (pid, signal)
  | _ => none

end SystemCall

variable {W : Type} {α β : Type}

/-- Does something and notes the call that it was. -/
def noting (act : StateM W α) (call : α → SystemCall) : StateM (W × List SystemCall) α :=
  fun s =>
  let (a, w) := act s.1
  (a, (w, s.2 ++ [call a]))

/-- Does something that has no result and notes the call. -/
def marking (act : StateM W Unit) (call : SystemCall) : StateM (W × List SystemCall) Unit :=
  noting act fun _ => call

/-- Does something that is not noted. -/
def silently (act : StateM W α) : StateM (W × List SystemCall) α := fun s =>
  let (a, w) := act s.1
  (a, (w, s.2))

/-- The kernel that notes its calls, the latest last. -/
def recorded (k : Kernel W) : Kernel (W × List SystemCall) where
  openPipe := noting k.openPipe .ofPipe
  close d := marking (k.close d) (.closed d)
  fork request := noting (k.fork request) (.ofFork request)
  launchReport d := noting (k.launchReport d) (.reported d)
  poll pid := noting (k.poll pid) (.polled pid)
  await pid := noting (k.await pid) (.awaited pid)
  signal pid signal := marking (k.signal pid signal) (.signalled pid signal)
  clock := silently k.clock
  pause := silently k.pause
  note line := silently (k.note line)

/-! ### What a piece of code makes -/

/-- The recorded code does what the plain code does, and the calls that it makes and its result
are as stated. -/
def Makes (act : StateM (W × List SystemCall) α) (plain : StateM W α)
    (P : List SystemCall → α → Prop) : Prop :=
  ∀ w calls, ∃ more, act (w, calls) = ((plain w).1, ((plain w).2, calls ++ more))
    ∧ P more (plain w).1

namespace Makes

variable {act : StateM (W × List SystemCall) α} {plain : StateM W α}
  {P P' : List SystemCall → α → Prop}

protected theorem pure {a : α} (h : P [] a) : Makes (W := W) (pure a) (pure a) P := by
  intro w calls
  exact ⟨[], by rw [List.append_nil]; rfl, h⟩

/-- One piece after the other makes the calls of both. -/
protected theorem bind {f : α → StateM (W × List SystemCall) β} {g : α → StateM W β}
    {Q : List SystemCall → β → Prop} (h : Makes act plain P)
    (hf : ∀ calls a, P calls a → Makes (f a) (g a) fun more b => Q (calls ++ more) b) :
    Makes (act >>= f) (plain >>= g) Q := by
  intro w calls
  obtain ⟨first, hact, hfirst⟩ := h w calls
  obtain ⟨second, hf, hsecond⟩ := hf first _ hfirst (plain w).2 (calls ++ first)
  refine ⟨first ++ second, ?_, hsecond⟩
  rw [← List.append_assoc]
  show f (act (w, calls)).1 (act (w, calls)).2 = _
  rw [hact]
  exact hf

theorem mono (h : Makes act plain P) (himp : ∀ calls a, P calls a → P' calls a) :
    Makes act plain P' := by
  intro w calls
  obtain ⟨more, hact, hmore⟩ := h w calls
  exact ⟨more, hact, himp _ _ hmore⟩

theorem of_noting (act : StateM W α) (call : α → SystemCall) :
    Makes (noting act call) act fun calls a => calls = [call a] := by
  intro w calls
  exact ⟨_, rfl, rfl⟩

theorem of_silently (act : StateM W α) : Makes (silently act) act fun calls _ => calls = [] := by
  intro w calls
  exact ⟨[], by rw [List.append_nil]; rfl, rfl⟩

/-- A call that is noted, and what comes behind it. -/
theorem noting_bind {call : α → SystemCall} {f : α → StateM (W × List SystemCall) β}
    {g : α → StateM W β} {Q : List SystemCall → β → Prop}
    (hf : ∀ a, Makes (f a) (g a) fun more b => Q (call a :: more) b) :
    Makes (noting plain call >>= f) (plain >>= g) Q := by
  refine (of_noting plain call).bind ?_
  rintro _ a rfl
  exact hf a

theorem of_marking (act : StateM W Unit) (call : SystemCall) :
    Makes (marking act call) act fun calls _ => calls = [call] := of_noting act fun _ => call

/-- A call without a result, and what comes behind it. -/
theorem marking_bind {act : StateM W Unit} {call : SystemCall}
    {f : Unit → StateM (W × List SystemCall) β} {g : Unit → StateM W β}
    {Q : List SystemCall → β → Prop}
    (hf : Makes (f ()) (g ()) fun more b => Q (call :: more) b) :
    Makes (marking act call >>= f) (act >>= g) Q :=
  noting_bind fun _ => hf

/-- Something that is not noted, and what comes behind it. -/
theorem silently_bind {f : α → StateM (W × List SystemCall) β} {g : α → StateM W β}
    {Q : List SystemCall → β → Prop} (hf : ∀ a, Makes (f a) (g a) Q) :
    Makes (silently plain >>= f) (plain >>= g) Q := by
  refine (of_silently plain).bind ?_
  rintro _ a rfl
  exact hf a

/-- What may fail makes the calls of both parts, or those of the first if that fails. -/
theorem except_bind {act : ExceptT Errno (StateM (W × List SystemCall)) α}
    {plain : ExceptT Errno (StateM W) α} {P : List SystemCall → Except Errno α → Prop}
    {f : α → ExceptT Errno (StateM (W × List SystemCall)) β} {g : α → ExceptT Errno (StateM W) β}
    {Q : List SystemCall → Except Errno β → Prop} (h : Makes act.run plain.run P)
    (hok : ∀ calls a, P calls (.ok a) →
      Makes (f a).run (g a).run fun more b => Q (calls ++ more) b)
    (herror : ∀ calls e, P calls (.error e) → Q calls (.error e)) :
    Makes (act >>= f).run (plain >>= g).run Q := by
  rw [ExceptT.run_bind, ExceptT.run_bind]
  refine h.bind fun calls found hfound => ?_
  cases found with
  | ok a => exact hok calls a hfound
  | error e => exact .pure (by simpa using herror calls e hfound)

end Makes

namespace Supervisor

/-! ### Looking at the child -/

variable {k : Kernel W} {s : Supervisor} {c : KeptChild}

/-- The keeper takes a process to be alive. -/
def Living (s : Supervisor) (pid : Nat) : Prop :=
  ∃ c, s.child = some c ∧ c.dead = false ∧ c.pid = pid

theorem presumesAlive_iff (s : Supervisor) : s.presumesAlive = true ↔ ∃ pid, s.Living pid := by
  unfold presumesAlive Living
  cases s.child with
  | none => simp
  | some c => simp

theorem presumesAlive_of_living {pid : Nat} (h : s.Living pid) : s.presumesAlive = true :=
  s.presumesAlive_iff.mpr ⟨pid, h⟩

/-- Nobody lives once the child was found dead. -/
theorem presumesAlive_bury (s : Supervisor) (status : Option Nat) :
    (s.bury status).presumesAlive = false := by
  unfold presumesAlive bury
  cases s.child with
  | none => rfl
  | some c => rfl

/-- All calls are looks at a process that has not ended. -/
def AllRunning (pid : Nat) (calls : List SystemCall) : Prop :=
  ∀ call ∈ calls, call = .polled pid .running

/-- The ways in which looking at a living child ends. -/
inductive Looked (s : Supervisor) (pid : Nat) : List SystemCall → Bool × Supervisor → Prop
  /-- It goes on living. -/
  | running {looks : List SystemCall} (alive : AllRunning pid looks) :
      Looked s pid looks (false, s)
  /-- It is found dead. -/
  | dead {looks : List SystemCall} {call : SystemCall} {status : Option Nat}
      (alive : AllRunning pid looks) (death : call.death? = some (pid, status)) :
      Looked s pid (looks ++ [call]) (true, s.bury status)

theorem Looked.cons {pid : Nat} {looks : List SystemCall} {done : Bool × Supervisor}
    (h : Looked s pid looks done) : Looked s pid (.polled pid .running :: looks) done := by
  cases h with
  | running alive => exact .running (List.forall_mem_cons.mpr ⟨rfl, alive⟩)
  | dead alive death =>
      rw [← List.cons_append]
      exact .dead (List.forall_mem_cons.mpr ⟨rfl, alive⟩) death

/-- One look at a living child. -/
theorem makes_reap (hchild : s.child = some c) (halive : c.dead = false) :
    Makes (s.reap (recorded k)) (s.reap k) fun calls done =>
      (calls = [.polled c.pid .running] ∧ done = (false, s))
        ∨ ∃ call status, calls = [call] ∧ call.death? = some (c.pid, status)
            ∧ done = (true, s.bury status) := by
  unfold reap
  simp only [hchild, halive, Bool.false_eq_true, if_false]
  refine Makes.noting_bind fun report => ?_
  cases report with
  | running => exact .pure (.inl ⟨rfl, rfl⟩)
  | ended status => exact Makes.silently_bind fun _ => .pure (.inr ⟨_, _, rfl, rfl, rfl⟩)
  | gone => exact .pure (.inr ⟨_, _, rfl, rfl, rfl⟩)

/-- However often and however long a living child is looked at. -/
theorem makes_watch (hchild : s.child = some c) (halive : c.dead = false)
    (deadline : Host.Time) (n : Nat) :
    Makes (s.watch (recorded k) deadline n) (s.watch k deadline n) (Looked s c.pid) := by
  induction n with
  | zero => exact .pure (.running (by simp [AllRunning]))
  | succ n ih =>
      unfold watch
      refine (makes_reap hchild halive).bind ?_
      rintro calls ⟨found, s'⟩ (⟨rfl, hdone⟩ | ⟨call, status, rfl, hdeath, hdone⟩)
      · obtain ⟨rfl, rfl⟩ := Prod.mk.inj hdone
        refine Makes.silently_bind fun now => ?_
        by_cases hover : deadline ≤ now
        · simp only [hover, if_true]
          exact .pure (.running (by simp [AllRunning]))
        · simp only [hover, if_false]
          refine Makes.silently_bind fun _ => ih.mono ?_
          intro more done hmore
          exact hmore.cons
      · obtain ⟨rfl, rfl⟩ := Prod.mk.inj hdone
        have hdead : Looked s c.pid ([] ++ [call]) (true, s.bury status) :=
          .dead (by simp [AllRunning]) hdeath
        exact .pure hdead

/-! ### Making the child go away -/

/-- The ways in which making the child go away ends. -/
inductive Departed (s : Supervisor) : List SystemCall → Bool × Supervisor → Prop
  /-- There was no child that was not known to be dead. -/
  | already (gone : s.presumesAlive = false) : Departed s [] (true, s)
  /-- The child went by itself. -/
  | alone {pid : Nat} {looks : List SystemCall} {call : SystemCall} {status : Option Nat}
      (living : s.Living pid) (alive : AllRunning pid looks)
      (death : call.death? = some (pid, status)) :
      Departed s (looks ++ [call]) (true, s.bury status)
  /-- The child went when it was asked to. -/
  | asked {pid : Nat} {looks more : List SystemCall} {call : SystemCall} {status : Option Nat}
      (living : s.Living pid) (alive : AllRunning pid looks) (still : AllRunning pid more)
      (death : call.death? = some (pid, status)) :
      Departed s (looks ++ .signalled pid .terminate :: (more ++ [call])) (true, s.bury status)
  /-- The child had to be killed. -/
  | killed {pid : Nat} {looks more : List SystemCall} {status : Option Nat}
      (living : s.Living pid) (alive : AllRunning pid looks) (still : AllRunning pid more) :
      Departed s
        (looks ++ .signalled pid .terminate ::
          (more ++ [.signalled pid .kill, .awaited pid status]))
        (false, s.bury status)

/-- Waiting for the end of a process buries the child with what was collected. -/
theorem makes_awaitEnd (k : Kernel W) (s : Supervisor) (pid : Nat) :
    Makes (s.awaitEnd (recorded k) pid) (s.awaitEnd k pid) fun calls s' =>
      ∃ status, calls = [.awaited pid status] ∧ s' = s.bury status := by
  unfold awaitEnd
  refine Makes.noting_bind fun status => ?_
  cases status with
  | none => exact .pure ⟨none, rfl, rfl⟩
  | some status => exact Makes.silently_bind fun _ => .pure ⟨some status, rfl, rfl⟩

theorem makes_terminate (k : Kernel W) (s : Supervisor) (grace : Nat) :
    Makes (s.terminate (recorded k) grace) (s.terminate k grace) s.Departed := by
  unfold terminate
  cases hchild : s.child with
  | none => exact .pure (.already (by simp [presumesAlive, hchild]))
  | some c =>
      by_cases hdead : c.dead = true
      · simp only [hdead, if_true]
        exact .pure (.already (by simp [presumesAlive, hchild, hdead]))
      · have halive : c.dead = false := Bool.eq_false_iff.mpr hdead
        have hliving : s.Living c.pid := ⟨c, hchild, halive, rfl⟩
        simp only [halive, Bool.false_eq_true, if_false]
        refine Makes.silently_bind fun start => ?_
        refine (makes_watch hchild halive _ _).bind ?_
        intro looks done hlooked
        cases hlooked with
        | dead alive death => exact .pure (by simpa using .alone hliving alive death)
        | running alive =>
            refine Makes.silently_bind fun _ => Makes.marking_bind ?_
            refine (makes_watch hchild halive _ _).bind ?_
            intro more done hmore
            cases hmore with
            | dead still death => exact .pure (by simpa using .asked hliving alive still death)
            | running still =>
                refine Makes.silently_bind fun _ => Makes.marking_bind ?_
                refine (makes_awaitEnd k s c.pid).bind ?_
                rintro _ _ ⟨status, rfl, rfl⟩
                exact .pure (by simpa using .killed hliving alive still)

/-- The child is not taken to be alive afterwards. -/
theorem Departed.presumesAlive_eq {calls : List SystemCall} {done : Bool × Supervisor}
    (h : s.Departed calls done) : done.2.presumesAlive = false := by
  cases h with
  | already gone => exact gone
  | alone | asked | killed => exact presumesAlive_bury s _

/-! ### Descriptors -/

/-- The descriptors that the keeper has in its hands. -/
def held (s : Supervisor) : List Descriptor :=
  s.input.toList ++ s.output.toList ++ s.errors.toList

/-- The end of a stream that the keeper has. -/
def stream? (s : Supervisor) : ChildStream → Option Descriptor
  | .input => s.input
  | .output => s.output
  | .errors => s.errors

/-- The keeper without descriptors. -/
def emptied (s : Supervisor) : Supervisor :=
  { s with input := none, output := none, errors := none }

theorem makes_closeIfOpen (k : Kernel W) (d : Option Descriptor) :
    Makes (closeIfOpen (recorded k) d) (closeIfOpen k d) fun calls _ =>
      calls = d.toList.map .closed := by
  unfold closeIfOpen
  cases d with
  | none => exact .pure rfl
  | some d => exact Makes.of_marking _ _

theorem makes_closeStreams (k : Kernel W) (s : Supervisor) :
    Makes (s.closeStreams (recorded k)) (s.closeStreams k) fun calls s' =>
      calls = s.held.map .closed ∧ s' = s.emptied := by
  unfold closeStreams
  refine (makes_closeIfOpen k s.input).bind fun _ _ hinput => ?_
  refine (makes_closeIfOpen k s.output).bind fun _ _ houtput => ?_
  refine (makes_closeIfOpen k s.errors).bind fun _ _ herrors => ?_
  refine .pure ⟨?_, rfl⟩
  rw [hinput, houtput, herrors, held]
  simp

theorem makes_closeAll (k : Kernel W) (ds : List Descriptor) :
    Makes ((recorded k).closeAll ds) (k.closeAll ds) fun calls _ => calls = ds.map .closed := by
  induction ds with
  | nil => exact .pure rfl
  | cons d rest ih =>
      unfold Kernel.closeAll
      refine Makes.marking_bind (ih.mono ?_)
      rintro _ _ rfl
      rfl

/-! ### Launching -/

/-- The child's ends of the pipes, and the end that tells of a failure. -/
def Pipes.given (p : Pipes) : List Descriptor :=
  [p.input.reading, p.output.writing, p.errors.writing, p.report.writing]

/-- The keeper's ends of the pipes. -/
def Pipes.kept (p : Pipes) : List Descriptor :=
  [p.input.writing, p.output.reading, p.errors.reading]

/-- The keeper's end of the pipe of a stream. -/
def Pipes.keptEnd (p : Pipes) : ChildStream → Descriptor
  | .input => p.input.writing
  | .output => p.output.reading
  | .errors => p.errors.reading

/-- What the new process is started with. -/
def LaunchPlan.request (plan : LaunchPlan) (p : Pipes) : LaunchRequest :=
  { executable := plan.executable, arguments := plan.arguments, directory := plan.directory
    input := some p.input.reading, output := p.output.writing, errors := p.errors.writing
    report := p.report.writing }

/-- The calls that open the pipes. -/
def Pipes.opening (p : Pipes) : List SystemCall :=
  [.opened p.input, .opened p.output, .opened p.errors, .opened p.report]

/-- The calls if there is no pipe to be had beside some that are open. -/
def pipeCalls (opened : List Pipe) (reason : Errno) : List SystemCall :=
  opened.map .opened ++ .unopened reason :: (opened.flatMap Pipe.ends).map .closed

/-- The calls if there is no process to be had. -/
def forkCalls (plan : LaunchPlan) (p : Pipes) (reason : Errno) : List SystemCall :=
  p.opening ++ .unforked (LaunchPlan.request plan p) reason :: p.ends.map .closed

/-- The calls of a launch up to what the report pipe tells. -/
def startingCalls (plan : LaunchPlan) (p : Pipes) (pid : Nat) (told : Option Errno) :
    List SystemCall :=
  p.opening ++ .forked (LaunchPlan.request plan p) pid :: (p.given.map .closed)
    ++ [.reported p.report.reading told, .closed p.report.reading]

/-- The keeper of a child that was just launched. -/
def launched (p : Pipes) (pid : Nat) : Supervisor where
  child := some { pid }
  input := some p.input.writing
  output := some p.output.reading
  errors := some p.errors.reading

/-- The ways in which launching ends. -/
inductive Launched (s : Supervisor) (plan : LaunchPlan) :
    List SystemCall → Except Failure Unit × Supervisor → Prop
  /-- There is a child that is not known to be dead. -/
  | busy (alive : s.presumesAlive = true) :
      Launched s plan [] (.error (refusal (ascii "backend already running")), s)
  /-- No program was named. -/
  | nameless (gone : s.presumesAlive = false) (empty : plan.executable.isEmpty = true) :
      Launched s plan [] (.error (refusal (ascii "no backend executable configured")), s)
  /-- There was a pipe too few, and those before it are closed. -/
  | pipeless {opened : List Pipe} {reason : Errno} (gone : s.presumesAlive = false) :
      Launched s plan (pipeCalls opened reason) (.error (pipeFailure reason), s)
  /-- There was no process, and the pipes are closed. -/
  | forkless {p : Pipes} {reason : Errno} (gone : s.presumesAlive = false) :
      Launched s plan (forkCalls plan p reason) (.error (forkFailure reason), s)
  /-- The program could not be run. -/
  | failed {p : Pipes} {pid : Nat} {reason : Errno} {status : Option Nat}
      (gone : s.presumesAlive = false) :
      Launched s plan
        (startingCalls plan p pid (some reason) ++ .awaited pid status :: p.kept.map .closed)
        (.error (launchFailure plan.executable reason), s)
  /-- The program runs, and what was left of the last one is closed. -/
  | running {p : Pipes} {pid : Nat} (gone : s.presumesAlive = false) :
      Launched s plan (startingCalls plan p pid none ++ s.held.map .closed)
        (.ok (), launched p pid)

theorem Launched.exists_launched {plan : LaunchPlan} {calls : List SystemCall}
    {done : Except Failure Unit × Supervisor} (h : s.Launched plan calls done)
    (hdone : done.1 = .ok ()) : ∃ p pid, done.2 = launched p pid := by
  cases h with
  | busy | nameless | pipeless | forkless | failed => simp at hdone
  | @running p pid => exact ⟨p, pid, rfl⟩

/-- The ways in which opening one more pipe ends. -/
inductive OpenedBeside (opened : List Pipe) : List SystemCall → Except Errno Pipe → Prop
  | more (pipe : Pipe) : OpenedBeside opened [.opened pipe] (.ok pipe)
  | refused (reason : Errno) :
      OpenedBeside opened (.unopened reason :: (opened.flatMap Pipe.ends).map .closed)
        (.error reason)

theorem makes_openBeside (k : Kernel W) (opened : List Pipe) :
    Makes ((recorded k).openBeside opened).run (k.openBeside opened).run
      (OpenedBeside opened) := by
  unfold Kernel.openBeside
  refine Makes.noting_bind fun answer => ?_
  cases answer with
  | ok pipe => exact .pure (.more pipe)
  | error reason =>
      refine (makes_closeAll k _).bind ?_
      rintro _ _ rfl
      exact .pure (by simpa [SystemCall.ofPipe] using .refused reason)

/-- The ways in which opening the pipes of a launch ends. -/
inductive PipesOpened : List SystemCall → Except Errno Pipes → Prop
  | all (p : Pipes) : PipesOpened p.opening (.ok p)
  | refused (opened : List Pipe) (reason : Errno) :
      PipesOpened (pipeCalls opened reason) (.error reason)

/-- One more pipe is opened, and then what is to be opened behind it. -/
theorem makes_openBeside_bind {opened : List Pipe}
    {f : Pipe → ExceptT Errno (StateM (W × List SystemCall)) Pipes}
    {g : Pipe → ExceptT Errno (StateM W) Pipes}
    (hmore : ∀ pipe, Makes (f pipe).run (g pipe).run fun calls found =>
      PipesOpened ((opened ++ [pipe]).map .opened ++ calls) found) :
    Makes ((recorded k).openBeside opened >>= f).run (k.openBeside opened >>= g).run
      fun calls found => PipesOpened (opened.map .opened ++ calls) found := by
  refine (makes_openBeside k opened).except_bind ?_ ?_
  · rintro _ pipe ⟨⟩
    simpa using hmore pipe
  · rintro _ _ ⟨⟩
    exact .refused opened _

theorem makes_openPipes (k : Kernel W) :
    Makes (openPipes (recorded k)).run (openPipes k).run PipesOpened := by
  unfold openPipes
  refine (makes_openBeside_bind fun input => ?_ : Makes _ _ fun calls found =>
    PipesOpened (([] : List Pipe).map .opened ++ calls) found)
  refine makes_openBeside_bind fun output => ?_
  refine makes_openBeside_bind fun errors => ?_
  refine makes_openBeside_bind fun report => ?_
  exact .pure (.all { input, output, errors, report })

/-- Launching with the pipes open, once there is a process for it. -/
theorem makes_begin (k : Kernel W) (plan : LaunchPlan) (p : Pipes) (pid : Nat)
    (hgone : s.presumesAlive = false) :
    Makes (s.begin (recorded k) plan p pid) (s.begin k plan p pid) fun calls done =>
      s.Launched plan (p.opening ++ .forked (LaunchPlan.request plan p) pid :: calls) done := by
  unfold begin
  refine (makes_closeAll k _).bind ?_
  rintro _ _ rfl
  refine Makes.noting_bind fun told => Makes.marking_bind ?_
  cases told with
  | some reason =>
      refine Makes.noting_bind fun status => ?_
      refine (makes_closeAll k _).bind ?_
      rintro _ _ rfl
      exact .pure (by simpa [startingCalls, Pipes.given] using .failed hgone)
  | none =>
      refine (makes_closeStreams k s).bind ?_
      rintro _ _ ⟨rfl, -⟩
      refine Makes.silently_bind fun _ => ?_
      exact .pure (by simpa [startingCalls, Pipes.given] using .running hgone)

theorem makes_launch (k : Kernel W) (plan : LaunchPlan) (p : Pipes)
    (hgone : s.presumesAlive = false) :
    Makes (s.launch (recorded k) plan p) (s.launch k plan p) fun calls done =>
      s.Launched plan (p.opening ++ calls) done := by
  unfold launch
  refine Makes.noting_bind fun answer => ?_
  cases answer with
  | ok pid => exact makes_begin k plan p pid hgone
  | error reason =>
      refine (makes_closeAll k _).bind ?_
      rintro _ _ rfl
      exact .pure (by simpa [forkCalls] using .forkless hgone)

theorem makes_spawn (k : Kernel W) (s : Supervisor) (plan : LaunchPlan) :
    Makes (s.spawn (recorded k) plan) (s.spawn k plan) (s.Launched plan) := by
  unfold spawn
  by_cases halive : s.presumesAlive = true
  · simp only [halive, if_true]
    exact .pure (.busy halive)
  have hgone : s.presumesAlive = false := Bool.eq_false_iff.mpr halive
  simp only [hgone, Bool.false_eq_true, if_false]
  by_cases hempty : plan.executable.isEmpty = true
  · simp only [hempty, if_true]
    exact .pure (.nameless hgone hempty)
  simp only [hempty]
  refine (makes_openPipes k).bind ?_
  rintro _ _ (⟨p⟩ | ⟨opened, reason⟩)
  · exact makes_launch k plan p hgone
  · exact .pure (by simpa using .pipeless hgone)

/-- The ways in which going away ends. -/
theorem makes_finish (k : Kernel W) (s : Supervisor) :
    Makes (s.finish (recorded k)) (s.finish k) fun calls s' =>
      ∃ looks done, s.Departed looks done ∧ calls = looks ++ done.2.held.map .closed
        ∧ s' = done.2.emptied := by
  unfold finish
  refine (makes_terminate k s lastGrace).bind ?_
  intro looks done hdeparture
  refine (makes_closeStreams k done.2).mono ?_
  rintro _ _ ⟨rfl, rfl⟩
  exact ⟨looks, done, hdeparture, rfl, rfl⟩

end Supervisor

end AnalyzerBridge

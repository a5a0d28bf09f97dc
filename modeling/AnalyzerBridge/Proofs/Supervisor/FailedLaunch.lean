/-
A launch that fails leaves no trace.

A keeper learns that a program cannot be run only when the pipes are open and there is a process
already, and it must not have given up anything of the last child by then.  `LaunchFails` lists the
ways in which launching fails, with all calls that are made on the way, and everything is read off
that list: who is waited for, what becomes of the process, and which descriptors are closed.

A number that the system gives out again is not mistaken for one that is still held.  Under a
system that gives out no number twice at the same time, what the keeper holds of an earlier child
is neither obtained nor given up by the launch that fails.

No wait is interrupted, as no signal is ever caught here.
-/
import AnalyzerBridge.Proofs.Supervisor.Descriptors

namespace AnalyzerBridge

open Host (Kernel Descriptor Errno)

variable {W : Type}

/-! ### Descriptors that are held by somebody else -/

/-- Moves that balance by themselves do not concern a number that was held before, if only free
numbers are given out. -/
theorem Balanced.not_mem_of_held {before moves : List DescriptorMove} {held : List Descriptor}
    (hbefore : Balanced [] before held) (hmoves : Balanced [] moves [])
    (hfresh : OnlyFresh (before ++ moves)) {d : Descriptor} (hd : d ∈ held) :
    d ∉ obtained moves ∧ d ∉ ended moves := by
  have hheld : 0 < held.count d := List.count_pos_iff.mpr hd
  have hbooks := hbefore.total.count_eq d
  have hobtained : d ∉ obtained moves := by
    intro hmem
    have hmove : .obtained d ∈ moves := by
      rw [← List.count_pos_iff, ← count_obtained]
      exact List.count_pos_iff.mpr hmem
    obtain ⟨first, rest, rfl⟩ := List.append_of_mem hmove
    have heven := hfresh (before ++ first) d rest (by simp)
    have hnever := hmoves.never first _ rfl d
    simp only [List.nil_append, obtained_append, ended_append, List.count_append] at *
    omega
  refine ⟨hobtained, fun hmem => hobtained ?_⟩
  exact hmoves.obtained_perm.mem_iff.mpr hmem

namespace Supervisor

variable {s : Supervisor} {plan : LaunchPlan} {calls : List SystemCall} {failure : Failure}

/-! ### The ways to fail -/

/-- The ways in which launching fails, with the calls that are made and the failure that is told. -/
inductive LaunchFails (s : Supervisor) (plan : LaunchPlan) : List SystemCall → Failure → Prop
  /-- There is a child that is not known to be dead. -/
  | busy (alive : s.presumesAlive = true) :
      LaunchFails s plan [] (refusal (ascii "backend already running"))
  /-- No program was named. -/
  | nameless (gone : s.presumesAlive = false) (empty : plan.executable.isEmpty = true) :
      LaunchFails s plan [] (refusal (ascii "no backend executable configured"))
  /-- There was a pipe too few.  Those before it are closed. -/
  | pipeless {opened : List Host.Pipe} {reason : Errno} (gone : s.presumesAlive = false) :
      LaunchFails s plan (pipeCalls opened reason) (pipeFailure reason)
  /-- There was no process to be had.  The pipes are closed. -/
  | forkless {p : Pipes} {reason : Errno} (gone : s.presumesAlive = false) :
      LaunchFails s plan (forkCalls plan p reason) (forkFailure reason)
  /-- The new process reports that it cannot enter its directory, or cannot run the program.  It is
  waited for, and the ends of its pipes are closed. -/
  | unable {p : Pipes} {pid : Nat} {reason : Errno} {status : Option Nat}
      (gone : s.presumesAlive = false) :
      LaunchFails s plan
        (startingCalls plan p pid (some reason) ++ .awaited pid status :: p.kept.map .closed)
        (launchFailure plan.executable reason)

/-- A launch that fails does so in one of these ways, and the keeper is what it was. -/
theorem Launched.fails {done : Except Failure Unit × Supervisor} (h : s.Launched plan calls done)
    (hdone : failure? done.1 = some failure) : s.LaunchFails plan calls failure ∧ done.2 = s := by
  cases h with
  | busy alive =>
      obtain rfl := Option.some.inj hdone
      exact ⟨.busy alive, rfl⟩
  | nameless gone empty =>
      obtain rfl := Option.some.inj hdone
      exact ⟨.nameless gone empty, rfl⟩
  | pipeless gone =>
      obtain rfl := Option.some.inj hdone
      exact ⟨.pipeless gone, rfl⟩
  | forkless gone =>
      obtain rfl := Option.some.inj hdone
      exact ⟨.forkless gone, rfl⟩
  | failed gone =>
      obtain rfl := Option.some.inj hdone
      exact ⟨.unable gone, rfl⟩
  | running => simp [failure?] at hdone

/-- Up to the report of the new process nobody is waited for. -/
theorem noDeath_startingCalls (plan : LaunchPlan) (p : Pipes) (new : Nat) (told : Option Errno)
    (pid : Nat) : NoDeath pid (startingCalls plan p new told) := by
  simp [NoDeath, startingCalls, Pipes.opening, Pipes.given, SystemCall.death?]

theorem noDeath_pipeCalls (opened : List Host.Pipe) (reason : Errno) (pid : Nat) :
    NoDeath pid (pipeCalls opened reason) := by
  have hopened : NoDeath pid (opened.map .opened) := by simp [NoDeath, SystemCall.death?]
  have hrefused : NoDeath pid [.unopened reason] := by simp [NoDeath, SystemCall.death?]
  exact hopened.append (hrefused.append (noDeath_closed pid _))

theorem noDeath_forkCalls (plan : LaunchPlan) (p : Pipes) (reason : Errno) (pid : Nat) :
    NoDeath pid (forkCalls plan p reason) := by
  have hopened : NoDeath pid p.opening := by simp [NoDeath, Pipes.opening, SystemCall.death?]
  have hrefused : NoDeath pid [.unforked (LaunchPlan.request plan p) reason] := by
    simp [NoDeath, SystemCall.death?]
  exact hopened.append (hrefused.append (noDeath_closed pid p.ends))

namespace LaunchFails

/-- As long as the child is taken to be alive, the system is not asked for anything. -/
theorem calls_eq_nil (h : s.LaunchFails plan calls failure) (halive : s.presumesAlive = true) :
    calls = [] := by
  cases h with
  | busy | nameless => rfl
  | pipeless gone | forkless gone | unable gone => simp [gone] at halive

theorem silent (h : s.LaunchFails plan calls failure) : Silent calls := by
  cases h with
  | busy | nameless => simp [Silent]
  | pipeless => exact silent_pipeCalls _ _
  | forkless => exact silent_forkCalls _ _ _
  | unable => exact silent_failedCalls _ _ _ _ _

/-- Only the process that was started for the launch is waited for. -/
theorem own (h : s.LaunchFails plan calls failure) {call : SystemCall} (hcall : call ∈ calls)
    {pid : Nat} {status : Option Nat} (hdeath : call.death? = some (pid, status)) :
    ∃ request, .forked request pid ∈ calls := by
  cases h with
  | busy | nameless => simp at hcall
  | pipeless => exact absurd hdeath (noDeath_pipeCalls _ _ pid call hcall status)
  | forkless => exact absurd hdeath (noDeath_forkCalls _ _ _ pid call hcall status)
  | @unable p new reason collected gone =>
      have hpid : pid = new := by
        rcases List.mem_append.mp hcall with hstart | hend
        · exact absurd hdeath (noDeath_startingCalls plan p new _ pid call hstart status)
        · rcases List.mem_cons.mp hend with rfl | hclose
          · exact (Prod.mk.inj (Option.some.inj hdeath)).1.symm
          · exact absurd hdeath (noDeath_closed pid _ call hclose status)
      exact ⟨LaunchPlan.request plan p, by simp [hpid, startingCalls]⟩

/-- That process is waited for, so that it is not left behind. -/
theorem not_notSeenDead (h : s.LaunchFails plan calls failure) (pid : Nat) :
    ¬NotSeenDead calls pid := by
  intro hpid
  cases h with
  | busy | nameless => exact Forkless.not_notSeenDead (by simp [Forkless]) pid hpid
  | pipeless => exact (forkless_pipeCalls _ _).not_notSeenDead pid hpid
  | forkless => exact (forkless_forkCalls _ _ _).not_notSeenDead pid hpid
  | @unable p new reason status gone =>
      have hlaunch := @Launched.failed s plan p new reason status gone
      exact not_living_of_gone gone pid (hlaunch.living_of_notSeenDead hpid)

end LaunchFails

/-! ### No trace -/

/-- A keeper with a history was asked to launch, failed, and is left with nothing but one more
turn. -/
structure NoTrace (history : List KeeperTurn) (s : Supervisor) (plan : LaunchPlan)
    (failure : Failure) (t : KeeperTurn) (s' : Supervisor) : Prop where
  /-- It is known why, and all that was done is known. -/
  fails : s.LaunchFails plan t.calls failure
  /-- The number of the child, whether it is dead, its exit status and the ends of its streams are
  what they were. -/
  kept : s' = s
  /-- A child that is taken to be alive goes on without anything being done. -/
  undisturbed : s.presumesAlive = true → t.calls = []
  /-- No process is sent a signal, -/
  silent : Silent t.calls
  /-- or waited for, but the one that was started to run the program. -/
  own : ∀ call ∈ t.calls, ∀ pid status, call.death? = some (pid, status) →
    ∃ request, .forked request pid ∈ t.calls
  /-- Of the processes that were ever started, those are left to be waited for that were left
  before. -/
  left : ∀ pid, NotSeenDead (callsOf (history ++ [t])) pid ↔ NotSeenDead (callsOf history) pid
  /-- All descriptors that were obtained are given up again. -/
  balanced : Balanced [] t.moves []
  /-- What the keeper holds of an earlier child is not among them. -/
  streams : OnlyFresh (movesOf (history ++ [t])) → ∀ d ∈ s.held, d ∉ ended t.moves

variable {history : List KeeperTurn} {s' : Supervisor} {t : KeeperTurn}

/-- Those that were not found dead are the same after a launch that fails. -/
theorem History.notSeenDead_iff_of_fails (h : History history s)
    (hfails : s.LaunchFails plan calls failure) (pid : Nat) :
    NotSeenDead (callsOf history ++ calls) pid ↔ NotSeenDead (callsOf history) pid := by
  constructor
  · intro hpid
    rcases notSeenDead_append hpid with ⟨hpast, -⟩ | hnew
    · exact hpast
    · exact absurd hnew (hfails.not_notSeenDead pid)
  · intro hpid
    -- somebody is left who may be the child, so that the launch did not get as far as a process
    have hliving := h.living_of_notSeenDead hpid
    rw [hfails.calls_eq_nil (presumesAlive_of_living hliving), List.append_nil]
    exact hpid

/-- A turn that tells of a launch that failed left no trace. -/
theorem Turned.noTrace (h : s.Turned t s') (hhistory : History history s)
    (hexchange : t.exchange = .spawn plan (some failure)) :
    NoTrace history s plan failure t s' := by
  obtain ⟨done, hlaunch, hfailure, rfl, hmoves⟩ := h.of_spawn hexchange
  obtain ⟨hfails, hkept⟩ := hlaunch.fails hfailure
  have hbalanced : Balanced [] t.moves [] := by
    rw [hmoves]
    exact hlaunch.of_error hfailure
  refine
    { fails := hfails
      kept := hkept
      undisturbed := hfails.calls_eq_nil
      silent := hfails.silent
      own := fun call hcall pid status => hfails.own hcall
      left := ?_
      balanced := hbalanced
      streams := ?_ }
  · have hcalls : callsOf (history ++ [t]) = callsOf history ++ t.calls := by simp [callsOf]
    rw [hcalls]
    exact hhistory.notSeenDead_iff_of_fails hfails
  · intro hfresh d hd
    have hall : movesOf (history ++ [t]) = movesOf history ++ t.moves := by simp [movesOf]
    rw [hall] at hfresh
    exact (hhistory.balanced.not_mem_of_held hbalanced hfresh hd).2

end Supervisor

namespace KeeperRun

/-- Why the keeper fails if it is asked to launch now, if it does. -/
def launchFailure? (k : Kernel W) (r : KeeperRun W) (plan : LaunchPlan) : Option Failure :=
  failure? (r.keeper.spawn k plan r.world).1.1

/--
**Whatever was asked of a keeper before, and whatever became of its children: a launch that fails
changes nothing, and leaves no process and no descriptor behind.**
-/
theorem step_spawn_leaves_no_trace (k : Kernel W) (world : W) (events : List (KeeperEvent W))
    (plan : LaunchPlan) (failure : Failure)
    (hfails : launchFailure? k (run k { world } events) plan = some failure) :
    ∃ t, (step k (run k { world } events) (.request (.spawn plan))).history
          = (run k { world } events).history ++ [t]
      ∧ t.exchange = .spawn plan (some failure)
      ∧ Supervisor.NoTrace (run k { world } events).history (run k { world } events).keeper plan
          failure t (step k (run k { world } events) (.request (.spawn plan))).keeper := by
  obtain ⟨calls, hstep, hturned⟩ := step_request k (run k { world } events) (.spawn plan)
  have hexchange : ((run k { world } events).keeper.perform k (.spawn plan)
      (run k { world } events).world).1.1 = .spawn plan (some failure) :=
    congrArg (Exchange.spawn plan) hfails
  rw [hstep]
  exact ⟨_, rfl, hexchange, hturned.noTrace (run_history k world events) hexchange⟩

/-- A system that counts its descriptors, and in which nothing but the first program can be run. -/
def countingOnce : Kernel Descriptor where
  __ := counting
  launchReport _ := fun next => (if next ≤ 11 then none else some .noEntry, next)

/-- A child was launched, its output was handed out, and it was found dead; its other two ends
outlive a second launch that comes to nothing. -/
theorem step_spawn_leaves_no_trace_of_second :
    ∃ t, (step countingOnce (run countingOnce { world := 3 } (twoLaunches.take 3))
            (.request (.spawn { executable := [0x62] }))).history
          = (run countingOnce { world := 3 } (twoLaunches.take 3)).history ++ [t]
      ∧ t.exchange = .spawn { executable := [0x62] }
          (some (Supervisor.launchFailure [0x62] .noEntry))
      ∧ Supervisor.NoTrace (run countingOnce { world := 3 } (twoLaunches.take 3)).history
          (run countingOnce { world := 3 } (twoLaunches.take 3)).keeper { executable := [0x62] }
          (Supervisor.launchFailure [0x62] .noEntry) t
          (step countingOnce (run countingOnce { world := 3 } (twoLaunches.take 3))
            (.request (.spawn { executable := [0x62] }))).keeper :=
  step_spawn_leaves_no_trace countingOnce 3 (twoLaunches.take 3) { executable := [0x62] } _ rfl

end KeeperRun

end AnalyzerBridge

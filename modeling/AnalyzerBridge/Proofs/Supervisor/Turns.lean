/-
The turns of a keeper, and its runs.

A keeper answers one request after the other, and each answer is a turn: the exchange, and the
calls that were made for it.  `Turned` lists the turns that there are.  Everything that is proved
about keepers is derived from that list.

A `History` is what a caller and the system have seen of a keeper.  Every run has one, whatever
the kernel answers and whatever goes on in the world between two requests.
-/
import Mathlib.Data.List.Induction
import AnalyzerBridge.Proofs.Supervisor.Calls

namespace AnalyzerBridge

open Host (Kernel Descriptor)

variable {W : Type}

/-! ### Requests -/

/-- Something that a keeper is asked for. -/
inductive KeeperRequest where
  | spawn (plan : LaunchPlan)
  | isAlive
  | terminate (grace : Nat)
  | take (stream : ChildStream)
  | exitStatus
  /-- The keeper is to go away. -/
  | finish

/-- What a keeper was asked for, and what it answered. -/
inductive Exchange where
  | spawn (plan : LaunchPlan) (failure : Option Failure)
  | isAlive (alive : Bool)
  | terminate (grace : Nat) (gentle : Bool)
  | take (stream : ChildStream) (d : Option Descriptor)
  | exitStatus (status : Option Nat)
  | finish
  deriving DecidableEq, Repr

/-- An exchange with a keeper, with the calls that it made for it. -/
structure KeeperTurn where
  exchange : Exchange
  calls : List SystemCall
  deriving DecidableEq, Repr

/-- Why a launch failed, if it did. -/
def failure? : Except Failure Unit → Option Failure
  | .ok () => none
  | .error failure => some failure

namespace Supervisor

/-- Answers a request. -/
def perform (k : Kernel W) (s : Supervisor) : KeeperRequest → StateM W (Exchange × Supervisor)
  | .spawn plan => do
    let (result, s) ← s.spawn k plan
    pure (.spawn plan (failure? result), s)
  | .isAlive => do
    let (alive, s) ← s.isAlive k
    pure (.isAlive alive, s)
  | .terminate grace => do
    let (gentle, s) ← s.terminate k grace
    pure (.terminate grace gentle, s)
  | .take stream => pure (.take stream (s.take stream).1, (s.take stream).2)
  | .exitStatus => pure (.exitStatus s.exitStatus, s)
  | .finish => do
    let s ← s.finish k
    pure (.finish, s)

/-- The turns that a keeper can take. -/
inductive Turned (s : Supervisor) : KeeperTurn → Supervisor → Prop
  | spawn {plan : LaunchPlan} {calls : List SystemCall} {done : Except Failure Unit × Supervisor}
      (launch : s.Launched plan calls done) :
      Turned s ⟨.spawn plan (failure? done.1), calls⟩ done.2
  /-- There is no child that is not known to be dead. -/
  | notAlive (gone : s.presumesAlive = false) : Turned s ⟨.isAlive false, []⟩ s
  | alive {pid : Nat} (living : s.Living pid) :
      Turned s ⟨.isAlive true, [.polled pid .running]⟩ s
  /-- The child is found dead. -/
  | foundDead {pid : Nat} {call : SystemCall} {status : Option Nat} (living : s.Living pid)
      (death : call.death? = some (pid, status)) :
      Turned s ⟨.isAlive false, [call]⟩ (s.bury status)
  | terminate {grace : Nat} {calls : List SystemCall} {done : Bool × Supervisor}
      (departure : s.Departed calls done) : Turned s ⟨.terminate grace done.1, calls⟩ done.2
  | take (stream : ChildStream) :
      Turned s ⟨.take stream (s.stream? stream), []⟩ (s.take stream).2
  | exitStatus : Turned s ⟨.exitStatus s.exitStatus, []⟩ s
  | finish {calls : List SystemCall} {done : Bool × Supervisor}
      (departure : s.Departed calls done) :
      Turned s ⟨.finish, calls ++ done.2.held.map .closed⟩ done.2.emptied

theorem makes_isAlive (k : Kernel W) (s : Supervisor) :
    Makes (s.isAlive (recorded k)) (s.isAlive k) fun calls done =>
      s.Turned ⟨.isAlive done.1, calls⟩ done.2 := by
  unfold isAlive
  by_cases halive : s.presumesAlive = true
  · simp only [halive, if_true]
    obtain ⟨pid, c, hchild, hlives, rfl⟩ := s.presumesAlive_iff.mp halive
    refine (makes_reap hchild hlives).bind ?_
    rintro _ _ (⟨rfl, rfl⟩ | ⟨call, status, rfl, hdeath, rfl⟩)
    · exact .pure (.alive ⟨c, hchild, hlives, rfl⟩)
    · exact .pure (.foundDead ⟨c, hchild, hlives, rfl⟩ hdeath)
  · simp only [halive]
    exact .pure (.notAlive (Bool.eq_false_iff.mpr halive))

/-- **Every request ends in one of the listed turns, whatever the system answers, and the keeper
behaves as it does where nothing is recorded.** -/
theorem makes_perform (k : Kernel W) (s : Supervisor) (request : KeeperRequest) :
    Makes (s.perform (recorded k) request) (s.perform k request) fun calls done =>
      s.Turned ⟨done.1, calls⟩ done.2 := by
  cases request with
  | spawn plan =>
      refine (makes_spawn k s plan).bind ?_
      intro calls done hlaunch
      exact .pure (by simpa using .spawn hlaunch)
  | isAlive =>
      refine (makes_isAlive k s).bind ?_
      intro calls done hturn
      exact .pure (by simpa using hturn)
  | terminate grace =>
      refine (makes_terminate k s grace).bind ?_
      intro calls done hdeparture
      exact .pure (by simpa using .terminate hdeparture)
  | take stream =>
      refine .pure ?_
      cases stream with
      | input => exact .take .input
      | output => exact .take .output
      | errors => exact .take .errors
  | exitStatus => exact .pure .exitStatus
  | finish =>
      refine (makes_finish k s).bind ?_
      rintro _ _ ⟨looks, done, hdeparture, rfl, rfl⟩
      exact .pure (by simpa using .finish hdeparture)

/-! ### Histories -/

/-- The keeper came to its state by the turns, the earliest first. -/
inductive History : List KeeperTurn → Supervisor → Prop
  | fresh : History [] {}
  | turn {history : List KeeperTurn} {s s' : Supervisor} {t : KeeperTurn} (h : History history s)
      (turned : s.Turned t s') : History (history ++ [t]) s'

namespace History

variable {history before after : List KeeperTurn} {s : Supervisor} {t : KeeperTurn}

/-- Before every turn the keeper was in some state, and it was in some state right after it. -/
theorem split (h : History history s) :
    ∀ {after}, history = before ++ t :: after →
      ∃ s₁ s₂, History before s₁ ∧ s₁.Turned t s₂ ∧ History (before ++ [t]) s₂ := by
  induction h with
  | fresh => intro after hsplit; simp at hsplit
  | @turn past s₁ s₂ last hpast hturned ih =>
      intro after hsplit
      rcases List.eq_nil_or_concat after with rfl | ⟨rest, u, rfl⟩
      · obtain ⟨rfl, hlast⟩ := List.append_inj' hsplit rfl
        obtain rfl : last = t := by simpa using hlast
        exact ⟨s₁, s₂, hpast, hturned, .turn hpast hturned⟩
      · have hcut : past ++ [last] = (before ++ t :: rest) ++ [u] := by simpa using hsplit
        exact ih (List.append_inj' hcut rfl).1

end History

end Supervisor

/-! ### Runs -/

/-- Something that happens while there is a keeper. -/
inductive KeeperEvent (W : Type) where
  /-- The world goes on by itself. -/
  | elsewhere (change : W → W)
  /-- The keeper is asked for something.  It has a lock, so that requests of several threads are
  answered one after the other. -/
  | request (request : KeeperRequest)

/-- A keeper and its world between two events. -/
structure KeeperRun (W : Type) where
  world : W
  keeper : Supervisor := {}
  /-- The turns that the keeper has taken, the earliest first. -/
  history : List KeeperTurn := []

namespace KeeperRun

variable {W : Type}

/-- What an event leaves. -/
def step (k : Kernel W) (r : KeeperRun W) : KeeperEvent W → KeeperRun W
  | .elsewhere change => { r with world := change r.world }
  | .request request =>
    let ((exchange, keeper), (world, calls)) := r.keeper.perform (recorded k) request (r.world, [])
    { world, keeper, history := r.history ++ [⟨exchange, calls⟩] }

/-- What a run of events leaves. -/
def run (k : Kernel W) (r : KeeperRun W) (events : List (KeeperEvent W)) : KeeperRun W :=
  events.foldl (step k) r

theorem run_concat (k : Kernel W) (r : KeeperRun W) (events : List (KeeperEvent W))
    (e : KeeperEvent W) : run k r (events ++ [e]) = step k (run k r events) e := by
  rw [run, List.foldl_append]
  rfl

/-- A request makes the keeper take one of its turns, and the keeper and the world become what the
request makes of them where nothing is recorded. -/
theorem step_request (k : Kernel W) (r : KeeperRun W) (request : KeeperRequest) :
    ∃ calls, step k r (.request request)
        = { world := (r.keeper.perform k request r.world).2
            keeper := (r.keeper.perform k request r.world).1.2
            history := r.history ++ [⟨(r.keeper.perform k request r.world).1.1, calls⟩] }
      ∧ r.keeper.Turned ⟨(r.keeper.perform k request r.world).1.1, calls⟩
          (r.keeper.perform k request r.world).1.2 := by
  obtain ⟨calls, hact, hturned⟩ := Supervisor.makes_perform k r.keeper request r.world []
  refine ⟨calls, ?_, hturned⟩
  simp only [step, hact, List.nil_append]

/-- The keeper of a run came to its state by its turns. -/
theorem run_history (k : Kernel W) (world : W) (events : List (KeeperEvent W)) :
    Supervisor.History (run k { world } events).history (run k { world } events).keeper := by
  induction events using List.reverseRecOn with
  | nil => exact .fresh
  | append_singleton events e ih =>
      rw [run_concat]
      cases e with
      | elsewhere change => exact ih
      | request request =>
          obtain ⟨calls, hstep, hturned⟩ := step_request k (run k { world } events) request
          rw [hstep]
          exact .turn ih hturned

end KeeperRun

end AnalyzerBridge

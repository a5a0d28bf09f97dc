/-
The life of a child, as its keeper tells it.

A keeper learns of the end of its child from its own waits, at most once, and never asks again.
So what it says is settled from then on until it launches the next one: the child is not alive,
and the exit status is what that one wait has collected.

`deaths` reads off a history what the waits since the last launch have found.  The invariant
`Informed` is that the keeper says exactly that.  Signals are sent only while nothing was found,
so each of them goes to a process that was launched and of whose end nothing is known; its number
cannot have passed to a stranger.
-/
import Mathlib.Data.List.DropRight
import AnalyzerBridge.Proofs.Supervisor.Turns

namespace AnalyzerBridge

open Host (Kernel Signal)

/-! ### What a turn finds -/

namespace KeeperTurn

/-- A child was launched. -/
def launches (t : KeeperTurn) : Bool :=
  match t.exchange with
  | .spawn _ none => true
  | _ => false

/-- The child was made to go away. -/
def terminates (t : KeeperTurn) : Bool :=
  match t.exchange with
  | .terminate _ _ => true
  | .finish => true
  | _ => false

/-- The calls that can be waits for the child.  A launch that fails waits, too, but for a process
that never became the child. -/
def waits (t : KeeperTurn) : List SystemCall :=
  match t.exchange with
  | .spawn _ _ => []
  | _ => t.calls

/-- The ends of the child that were found, with the status words as far as they were collected. -/
def deaths (t : KeeperTurn) : List (Option Nat) :=
  t.waits.filterMap fun call => call.death?.map Prod.snd

/-- The signals that were sent. -/
def signals (t : KeeperTurn) : List (Nat × Signal) := t.calls.filterMap SystemCall.signal?

end KeeperTurn

/-- The turns since the last launch. -/
def sinceLaunch (history : List KeeperTurn) : List KeeperTurn := history.rtakeWhile (!·.launches)

/-- The ends of the child that were found since it was launched. -/
def deaths (history : List KeeperTurn) : List (Option Nat) :=
  (sinceLaunch history).flatMap KeeperTurn.deaths

/-- The child was found dead since it was launched. -/
def FoundDead (history : List KeeperTurn) : Prop := deaths history ≠ []

/-- The status word of the child that a wait has collected. -/
def collected (history : List KeeperTurn) : Option Nat := (deaths history).findSome? id

/-- A child was launched at some time. -/
def EverLaunched (history : List KeeperTurn) : Prop := ∃ t ∈ history, t.launches = true

variable {history before mid : List KeeperTurn} {t : KeeperTurn}

theorem deaths_concat_of_launch (h : t.launches = true) : deaths (history ++ [t]) = [] := by
  unfold deaths sinceLaunch
  rw [List.rtakeWhile_concat_neg _ _ _ (by simp [h])]
  rfl

theorem deaths_concat (h : t.launches = false) :
    deaths (history ++ [t]) = deaths history ++ t.deaths := by
  unfold deaths sinceLaunch
  rw [List.rtakeWhile_concat_pos _ _ _ (by simp [h]), List.flatMap_append, List.flatMap_singleton]

theorem everLaunched_concat (h : t.launches = false) :
    EverLaunched (history ++ [t]) ↔ EverLaunched history := by
  simp [EverLaunched, h]

namespace Supervisor

variable {s s' : Supervisor}

/-! ### What a turn makes of the child -/

theorem filterMap_death_of_allRunning {pid : Nat} {looks : List SystemCall}
    (h : AllRunning pid looks) :
    looks.filterMap (fun call => call.death?.map Prod.snd) = [] := by
  refine List.filterMap_eq_nil_iff.mpr fun call hcall => ?_
  rw [h call hcall]
  rfl

theorem filterMap_death_closed (ds : List Host.Descriptor) :
    (ds.map SystemCall.closed).filterMap (fun call => call.death?.map Prod.snd) = [] := by
  simp [SystemCall.death?]

/-- Making a child go away finds its end once, and there is nothing to find if it is gone. -/
theorem Departed.deaths_eq {calls : List SystemCall} {done : Bool × Supervisor}
    (h : s.Departed calls done) :
    (calls = [] ∧ done.2 = s)
      ∨ ∃ pid status, s.Living pid ∧ done.2 = s.bury status
          ∧ calls.filterMap (fun call => call.death?.map Prod.snd) = [status] := by
  cases h with
  | already => exact .inl ⟨rfl, rfl⟩
  | alone living alive death =>
      refine .inr ⟨_, _, living, rfl, ?_⟩
      rw [List.filterMap_append, filterMap_death_of_allRunning alive]
      simp [death]
  | asked living alive still death =>
      refine .inr ⟨_, _, living, rfl, ?_⟩
      rw [List.filterMap_append, filterMap_death_of_allRunning alive, List.nil_append,
        List.filterMap_cons_none rfl, List.filterMap_append, filterMap_death_of_allRunning still]
      simp [death]
  | killed living alive still =>
      refine .inr ⟨_, _, living, rfl, ?_⟩
      rw [List.filterMap_append, filterMap_death_of_allRunning alive, List.nil_append,
        List.filterMap_cons_none rfl, List.filterMap_append, filterMap_death_of_allRunning still]
      rfl

/-- A turn launches a child, leaves the child as it was, or finds it dead. -/
inductive ChildTurn (s : Supervisor) (t : KeeperTurn) (s' : Supervisor) : Prop
  | launched (launches : t.launches = true) {pid : Nat} (child : s'.child = some { pid })
  | same (quiet : t.launches = false) (nothing : t.deaths = []) (child : s'.child = s.child)
  | found (quiet : t.launches = false) {pid : Nat} {status : Option Nat} (living : s.Living pid)
      (death : t.deaths = [status]) (child : s'.child = (s.bury status).child)

theorem Turned.childTurn (h : s.Turned t s') : ChildTurn s t s' := by
  cases h with
  | spawn launch =>
      cases launch with
      | running => exact .launched rfl rfl
      | busy | nameless | pipeless | forkless | failed => exact .same rfl rfl rfl
  | notAlive | alive | exitStatus => exact .same rfl rfl rfl
  | take stream => exact .same rfl rfl (by cases stream <;> rfl)
  | foundDead living death =>
      exact .found rfl living (by simp [KeeperTurn.deaths, KeeperTurn.waits, death]) rfl
  | @terminate grace calls done departure =>
      rcases departure.deaths_eq with ⟨rfl, hdone⟩ | ⟨pid, status, living, hdone, hdeaths⟩
      · exact .same rfl rfl (by rw [hdone])
      · exact .found rfl living hdeaths (by rw [hdone])
  | @finish calls done departure =>
      have hclosed := filterMap_death_closed done.2.held
      rcases departure.deaths_eq with ⟨rfl, hdone⟩ | ⟨pid, status, living, hdone, hdeaths⟩
      · exact .same rfl hclosed (by rw [hdone]; rfl)
      · refine .found rfl living ?_ (by rw [hdone]; rfl)
        show (calls ++ done.2.held.map SystemCall.closed).filterMap _ = [status]
        rw [List.filterMap_append, hdeaths, hclosed, List.append_nil]

/-! ### What the keeper knows -/

/-- The keeper says of its child what its waits have found. -/
structure Informed (history : List KeeperTurn) (s : Supervisor) : Prop where
  /-- The child is taken to be alive from its launch until it is found dead. -/
  alive : s.presumesAlive = true ↔ EverLaunched history ∧ ¬FoundDead history
  /-- The exit status is the one that was collected. -/
  status : s.exitStatus = collected history

theorem presumesAlive_congr (h : s'.child = s.child) : s'.presumesAlive = s.presumesAlive := by
  unfold presumesAlive
  rw [h]

theorem exitStatus_congr (h : s'.child = s.child) : s'.exitStatus = s.exitStatus := by
  unfold exitStatus
  rw [h]

theorem exitStatus_bury {pid : Nat} (hliving : s.Living pid) (hnone : s.exitStatus = none)
    (status : Option Nat) : (s.bury status).exitStatus = status := by
  obtain ⟨c, hchild, -, -⟩ := hliving
  have hstatus : c.status = none := by simpa [exitStatus, hchild] using hnone
  simp [exitStatus, bury, hchild, hstatus]

theorem Informed.turn (h : Informed history s) (hturn : ChildTurn s t s') :
    Informed (history ++ [t]) s' := by
  cases hturn with
  | launched hlaunch hchild =>
      have hdeaths : deaths (history ++ [t]) = [] := deaths_concat_of_launch hlaunch
      refine ⟨?_, ?_⟩
      · simp [presumesAlive, hchild, FoundDead, hdeaths, EverLaunched, hlaunch]
      · simp [exitStatus, hchild, collected, hdeaths]
  | same hquiet hnothing hchild =>
      have hdeaths : deaths (history ++ [t]) = deaths history := by
        rw [deaths_concat hquiet, hnothing, List.append_nil]
      refine ⟨?_, ?_⟩
      · rw [presumesAlive_congr hchild, h.alive, everLaunched_concat hquiet, FoundDead, FoundDead,
          hdeaths]
      · rw [exitStatus_congr hchild, h.status, collected, collected, hdeaths]
  | @found hquiet pid status hliving hdeath hchild =>
      obtain ⟨-, hnot⟩ := h.alive.mp (presumesAlive_of_living hliving)
      have hnone : deaths history = [] := not_not.mp hnot
      have hdeaths : deaths (history ++ [t]) = [status] := by
        rw [deaths_concat hquiet, hnone, hdeath, List.nil_append]
      have hstatus : s.exitStatus = none := by rw [h.status, collected, hnone]; rfl
      refine ⟨?_, ?_⟩
      · rw [presumesAlive_congr hchild, presumesAlive_bury, FoundDead, hdeaths]
        simp
      · rw [exitStatus_congr hchild, exitStatus_bury hliving hstatus, collected, hdeaths]
        cases status <;> rfl

theorem History.informed (h : History history s) : Informed history s := by
  induction h with
  | fresh => exact ⟨by simp [presumesAlive, EverLaunched], rfl⟩
  | turn _ hturned ih => exact ih.turn hturned.childTurn

/-- The child was never launched, or found dead since. -/
def Settled (history : List KeeperTurn) : Prop := EverLaunched history → FoundDead history

theorem History.presumesAlive_eq_false_iff (h : History history s) :
    s.presumesAlive = false ↔ Settled history := by
  rw [← Bool.not_eq_true, h.informed.alive, Settled, not_and, not_not]

/-- A keeper that is settled says that there is no child alive. -/
theorem Turned.ne_isAlive_of_settled (h : s.Turned t s') (hgone : s.presumesAlive = false) :
    t.exchange ≠ .isAlive true := by
  intro hc
  cases h with
  | alive living =>
      rw [presumesAlive_of_living living] at hgone
      exact absurd hgone (by decide)
  | _ => simp at hc

/-- A keeper says that the child is alive exactly if the system has just said so. -/
theorem Turned.isAlive_iff (h : s.Turned t s') {alive : Bool}
    (hexchange : t.exchange = .isAlive alive) :
    alive = true ↔ ∃ pid, t.calls = [.polled pid .running] := by
  cases h with
  | notAlive =>
      obtain rfl := Exchange.isAlive.inj hexchange
      simp
  | alive =>
      obtain rfl := Exchange.isAlive.inj hexchange
      simp
  | foundDead living death =>
      obtain rfl := Exchange.isAlive.inj hexchange
      refine iff_of_false (by decide) ?_
      rintro ⟨pid, hcalls⟩
      obtain rfl := List.singleton_inj.mp hcalls
      simp [SystemCall.death?] at death
  | _ => simp at hexchange

theorem Turned.status_eq (h : s.Turned t s') {status : Option Nat}
    (hexchange : t.exchange = .exitStatus status) : status = s.exitStatus := by
  cases h with
  | exitStatus => exact (Exchange.exitStatus.inj hexchange).symm
  | _ => simp at hexchange

/-- Turns without a launch find nothing once the child is settled, and leave it settled. -/
theorem History.deaths_append (h : History (before ++ mid) s) (hsettled : Settled before)
    (hquiet : ∀ u ∈ mid, u.launches = false) :
    deaths (before ++ mid) = deaths before ∧ Settled (before ++ mid) := by
  induction mid using List.reverseRecOn generalizing s with
  | nil => simpa using hsettled
  | append_singleton mid u ih =>
      have hlast : before ++ (mid ++ [u]) = (before ++ mid) ++ u :: [] := by simp
      obtain ⟨s₁, s₂, hpast, hturned, hnow⟩ := h.split hlast
      obtain ⟨hdeaths, hstill⟩ := ih hpast fun v hv => hquiet v (by simp [hv])
      have hgone := hpast.presumesAlive_eq_false_iff.mpr hstill
      have hu : u.launches = false := hquiet u (by simp)
      rw [← List.append_assoc]
      cases hturned.childTurn with
      | launched hlaunch => simp [hu] at hlaunch
      | same _ hnothing hchild =>
          refine ⟨by rw [deaths_concat hu, hnothing, List.append_nil, hdeaths], ?_⟩
          rw [← hnow.presumesAlive_eq_false_iff, presumesAlive_congr hchild]
          exact hgone
      | found _ hliving =>
          rw [presumesAlive_of_living hliving] at hgone
          exact absurd hgone (by decide)

/-! ### Signals -/

/-- No call finds the process dead. -/
def NoDeath (pid : Nat) (calls : List SystemCall) : Prop :=
  ∀ call ∈ calls, ∀ status, call.death? ≠ some (pid, status)

/-- No call sends a signal. -/
def Silent (calls : List SystemCall) : Prop := ∀ call ∈ calls, call.signal? = none

/-- The process was launched, and was not found dead since. -/
def NotSeenDead (calls : List SystemCall) (pid : Nat) : Prop :=
  ∃ past request since, calls = past ++ .forked request pid :: since ∧ NoDeath pid since

/-- Every signal goes to a process that was launched and was not found dead before. -/
def Aimed (calls : List SystemCall) : Prop :=
  ∀ past pid signal rest, calls = past ++ .signalled pid signal :: rest → NotSeenDead past pid

variable {calls more : List SystemCall} {pid : Nat}

theorem AllRunning.noDeath (h : AllRunning pid calls) (other : Nat) : NoDeath other calls := by
  intro call hcall status
  rw [h call hcall]
  simp [SystemCall.death?]

theorem AllRunning.silent (h : AllRunning pid calls) : Silent calls := by
  intro call hcall
  rw [h call hcall]
  rfl

theorem silent_closed (ds : List Host.Descriptor) : Silent (ds.map .closed) := by
  simp [Silent, SystemCall.signal?]

theorem Silent.append (h : Silent calls) (hmore : Silent more) : Silent (calls ++ more) :=
  fun call hcall => (List.mem_append.mp hcall).elim (h call) (hmore call)

theorem noDeath_closed (pid : Nat) (ds : List Host.Descriptor) : NoDeath pid (ds.map .closed) := by
  simp [NoDeath, SystemCall.death?]

theorem NoDeath.append (h : NoDeath pid calls) (hmore : NoDeath pid more) :
    NoDeath pid (calls ++ more) :=
  fun call hcall => (List.mem_append.mp hcall).elim (h call) (hmore call)

theorem NotSeenDead.append (h : NotSeenDead calls pid) (hmore : NoDeath pid more) :
    NotSeenDead (calls ++ more) pid := by
  obtain ⟨past, request, since, rfl, hsince⟩ := h
  exact ⟨past, request, since ++ more, by simp, hsince.append hmore⟩

theorem aimed_concat {call : SystemCall} (h : Aimed calls)
    (hlast : ∀ pid signal, call = .signalled pid signal → NotSeenDead calls pid) :
    Aimed (calls ++ [call]) := by
  intro past pid signal rest hsplit
  rcases List.eq_nil_or_concat rest with rfl | ⟨rest, last, rfl⟩
  · obtain ⟨rfl, hcall⟩ := List.append_inj' hsplit rfl
    exact hlast pid signal (by simpa using hcall)
  · have hcut : calls ++ [call] = (past ++ .signalled pid signal :: rest) ++ [last] := by
      simpa using hsplit
    exact h past pid signal rest (List.append_inj' hcut rfl).1

theorem Aimed.append (h : Aimed calls) (hmore : Silent more) : Aimed (calls ++ more) := by
  induction more using List.reverseRecOn with
  | nil => simpa using h
  | append_singleton more call ih =>
      rw [← List.append_assoc]
      refine aimed_concat (ih fun other hother => hmore other (by simp [hother])) ?_
      rintro pid signal rfl
      have hnone : (SystemCall.signalled pid signal).signal? = none := hmore _ (by simp)
      exact absurd hnone (by simp [SystemCall.signal?])

theorem Aimed.signalled (h : Aimed calls) (hpid : NotSeenDead calls pid) (signal : Signal) :
    Aimed (calls ++ [.signalled pid signal]) := by
  refine aimed_concat h ?_
  intro other signal' heq
  obtain ⟨rfl, -⟩ := SystemCall.signalled.inj heq
  exact hpid

theorem silent_of_death {call : SystemCall} {found : Nat × Option Nat}
    (h : call.death? = some found) : Silent [call] := by
  intro other hother
  obtain rfl := List.mem_singleton.mp hother
  cases other with
  | signalled => simp [SystemCall.death?] at h
  | _ => rfl

/-- Making the child go away sends at most two signals, both to the child before its end is
found, and the second one exactly if the child had to be killed. -/
theorem Departed.aimed {done : Bool × Supervisor} (h : s.Departed more done)
    (haimed : Aimed calls) (hseen : ∀ pid, s.Living pid → NotSeenDead calls pid) :
    Aimed (calls ++ more) := by
  cases h with
  | already => simpa using haimed
  | alone living alive death =>
      rw [← List.append_assoc]
      exact (haimed.append alive.silent).append (silent_of_death death)
  | asked living alive still death =>
      have hchild := (hseen _ living).append (alive.noDeath _)
      simpa using (((haimed.append alive.silent).signalled hchild .terminate).append
        still.silent).append (silent_of_death death)
  | @killed pid looks more status living alive still =>
      have hchild := (hseen _ living).append (alive.noDeath _)
      have hasked : NoDeath pid [.signalled pid .terminate] := by simp [NoDeath, SystemCall.death?]
      have hstill := (hchild.append hasked).append (still.noDeath _)
      have hlast : Silent [.awaited pid status] := by simp [Silent, SystemCall.signal?]
      simpa using ((((haimed.append alive.silent).signalled hchild .terminate).append
        still.silent).signalled hstill .kill).append hlast

theorem filterMap_signal_of_silent (h : Silent calls) : calls.filterMap SystemCall.signal? = [] :=
  List.filterMap_eq_nil_iff.mpr h

theorem Departed.signals_eq {done : Bool × Supervisor} (h : s.Departed calls done) :
    ∃ pid, (calls.filterMap SystemCall.signal? = [] ∧ done.1 = true)
      ∨ (calls.filterMap SystemCall.signal? = [(pid, .terminate)] ∧ done.1 = true)
      ∨ (calls.filterMap SystemCall.signal? = [(pid, .terminate), (pid, .kill)]
          ∧ done.1 = false) := by
  cases h with
  | already => exact ⟨0, .inl ⟨rfl, rfl⟩⟩
  | @alone pid _ _ _ living alive death =>
      refine ⟨pid, .inl ⟨?_, rfl⟩⟩
      rw [List.filterMap_append, filterMap_signal_of_silent alive.silent,
        filterMap_signal_of_silent (silent_of_death death), List.append_nil]
  | @asked pid _ _ _ _ living alive still death =>
      refine ⟨pid, .inr (.inl ⟨?_, rfl⟩)⟩
      have hlast := filterMap_signal_of_silent (silent_of_death death)
      simp [filterMap_signal_of_silent alive.silent, filterMap_signal_of_silent still.silent, hlast,
        List.filterMap_cons (a := SystemCall.signalled _ _), SystemCall.signal?]
  | @killed pid _ _ _ living alive still =>
      refine ⟨pid, .inr (.inr ⟨?_, rfl⟩)⟩
      simp [filterMap_signal_of_silent alive.silent, filterMap_signal_of_silent still.silent,
        SystemCall.signal?]

theorem not_living_of_gone (h : s.presumesAlive = false) (pid : Nat) : ¬s.Living pid := by
  intro hliving
  rw [presumesAlive_of_living hliving] at h
  exact absurd h (by decide)

theorem living_congr (h : s'.child = s.child) : s'.Living pid ↔ s.Living pid := by
  unfold Living
  rw [h]

theorem silent_startingCalls (plan : LaunchPlan) (p : Pipes) (pid : Nat)
    (told : Option Host.Errno) : Silent (startingCalls plan p pid told) := by
  simp [Silent, startingCalls, Pipes.opening, Pipes.given, SystemCall.signal?]

theorem silent_pipeCalls (opened : List Host.Pipe) (reason : Host.Errno) :
    Silent (pipeCalls opened reason) := by
  have hopened : Silent (opened.map .opened) := by simp [Silent, SystemCall.signal?]
  have hrefused : Silent [.unopened reason] := by simp [Silent, SystemCall.signal?]
  exact hopened.append (hrefused.append (silent_closed _))

theorem silent_forkCalls (plan : LaunchPlan) (p : Pipes) (reason : Host.Errno) :
    Silent (forkCalls plan p reason) := by
  have hopened : Silent p.opening := by simp [Silent, Pipes.opening, SystemCall.signal?]
  have hrefused : Silent [.unforked (LaunchPlan.request plan p) reason] := by
    simp [Silent, SystemCall.signal?]
  exact hopened.append (hrefused.append (silent_closed p.ends))

/-- A process that could not run the program is waited for. -/
theorem silent_failedCalls (plan : LaunchPlan) (p : Pipes) (pid : Nat) (told : Option Host.Errno)
    (status : Option Nat) :
    Silent (startingCalls plan p pid told ++ .awaited pid status :: p.kept.map .closed) := by
  have hwaited : Silent [.awaited pid status] := by simp [Silent, SystemCall.signal?]
  exact (silent_startingCalls plan p pid told).append (hwaited.append (silent_closed p.kept))

/-- A child that was just launched was not found dead. -/
theorem notSeenDead_startingCalls (calls : List SystemCall) (plan : LaunchPlan) (p : Pipes)
    (pid : Nat) (told : Option Host.Errno) :
    NotSeenDead (calls ++ startingCalls plan p pid told) pid := by
  refine ⟨calls ++ p.opening, LaunchPlan.request plan p,
    p.given.map .closed ++ [.reported p.report.reading told, .closed p.report.reading], ?_, ?_⟩
  · simp [startingCalls]
  · simp [NoDeath, Pipes.given, SystemCall.death?]

theorem Launched.aimed {plan : LaunchPlan} {done : Except Failure Unit × Supervisor}
    (h : s.Launched plan more done) (haimed : Aimed calls)
    (hseen : ∀ pid, s.Living pid → NotSeenDead calls pid) :
    Aimed (calls ++ more) ∧ ∀ pid, done.2.Living pid → NotSeenDead (calls ++ more) pid := by
  cases h with
  | busy | nameless => simpa using ⟨haimed, hseen⟩
  | pipeless gone =>
      exact ⟨haimed.append (silent_pipeCalls _ _),
        fun other hliving => absurd hliving (not_living_of_gone gone other)⟩
  | forkless gone =>
      exact ⟨haimed.append (silent_forkCalls _ _ _),
        fun other hliving => absurd hliving (not_living_of_gone gone other)⟩
  | failed gone =>
      exact ⟨haimed.append (silent_failedCalls _ _ _ _ _),
        fun other hliving => absurd hliving (not_living_of_gone gone other)⟩
  | @running p pid gone =>
      rw [← List.append_assoc]
      refine ⟨(haimed.append (silent_startingCalls _ _ _ _)).append (silent_closed _), ?_⟩
      rintro _ ⟨c, hchild, -, rfl⟩
      obtain rfl : { pid } = c := Option.some.inj hchild
      exact (notSeenDead_startingCalls calls plan p pid none).append (noDeath_closed pid _)

/-- A turn sends signals only to the child, and only before its end is found. -/
theorem Turned.aimed (h : s.Turned t s') (haimed : Aimed calls)
    (hseen : ∀ pid, s.Living pid → NotSeenDead calls pid) :
    Aimed (calls ++ t.calls) ∧ ∀ pid, s'.Living pid → NotSeenDead (calls ++ t.calls) pid := by
  cases h with
  | spawn launch => exact launch.aimed haimed hseen
  | notAlive | exitStatus => simpa using ⟨haimed, hseen⟩
  | take stream =>
      refine ⟨by simpa using haimed, fun pid hliving => ?_⟩
      have hold : s.Living pid := (living_congr (by cases stream <;> rfl)).mp hliving
      simpa using hseen pid hold
  | @alive pid living =>
      have hlook : AllRunning pid [.polled pid .running] := by simp [AllRunning]
      exact ⟨haimed.append hlook.silent,
        fun other h => (hseen other h).append (hlook.noDeath other)⟩
  | foundDead living death =>
      exact ⟨haimed.append (silent_of_death death),
        fun other h => absurd h (not_living_of_gone (presumesAlive_bury _ _) other)⟩
  | terminate departure =>
      exact ⟨departure.aimed haimed hseen,
        fun other h => absurd h (not_living_of_gone departure.presumesAlive_eq other)⟩
  | finish departure =>
      refine ⟨?_, fun other h => absurd h (not_living_of_gone departure.presumesAlive_eq other)⟩
      rw [← List.append_assoc]
      exact (departure.aimed haimed hseen).append (silent_closed _)

/-- The calls of a history, the earliest first. -/
def callsOf (history : List KeeperTurn) : List SystemCall := history.flatMap (·.calls)

theorem History.aimed (h : History history s) :
    Aimed (callsOf history) ∧ ∀ pid, s.Living pid → NotSeenDead (callsOf history) pid := by
  induction h with
  | fresh => simp [Aimed, callsOf, Living]
  | turn _ hturned ih =>
      have hcalls : ∀ (past : List KeeperTurn) (t : KeeperTurn),
          callsOf (past ++ [t]) = callsOf past ++ t.calls := by simp [callsOf]
      rw [hcalls]
      exact hturned.aimed ih.1 ih.2

/-! ### Processes that are left -/

theorem notSeenDead_append (h : NotSeenDead (calls ++ more) pid) :
    NotSeenDead calls pid ∧ NoDeath pid more ∨ NotSeenDead more pid := by
  obtain ⟨past, request, since, hsplit, hsince⟩ := h
  rcases List.append_eq_append_iff.mp hsplit with ⟨mid, rfl, hmore⟩ | ⟨mid, hcalls, hmid⟩
  · exact .inr ⟨mid, request, since, hmore, hsince⟩
  · cases mid with
    | nil => exact .inr ⟨[], request, since, by simpa using hmid.symm, hsince⟩
    | cons call mid =>
        obtain ⟨rfl, rfl⟩ := List.cons.inj hmid
        refine .inl ⟨⟨past, request, mid, hcalls, ?_⟩, ?_⟩
        · exact fun call hcall => hsince call (List.mem_append_left _ hcall)
        · exact fun call hcall => hsince call (List.mem_append_right _ hcall)

/-- No call starts a process. -/
def Forkless (calls : List SystemCall) : Prop := ∀ request pid, .forked request pid ∉ calls

theorem Forkless.not_notSeenDead (h : Forkless calls) (pid : Nat) : ¬NotSeenDead calls pid := by
  rintro ⟨past, request, since, rfl, -⟩
  exact h request pid (by simp)

theorem Living.unique {other : Nat} (h : s.Living pid) (h' : s.Living other) : pid = other := by
  obtain ⟨c, hchild, -, rfl⟩ := h
  obtain ⟨c', hchild', -, rfl⟩ := h'
  rw [Option.some.inj (hchild.symm.trans hchild')]

theorem AllRunning.forkless (h : AllRunning pid calls) : Forkless calls := by
  intro request other hcall
  simpa using h _ hcall

theorem forkless_of_death {call : SystemCall} {found : Nat × Option Nat}
    (h : call.death? = some found) : Forkless [call] := by
  intro request other hcall
  obtain rfl := List.mem_singleton.mp hcall
  simp [SystemCall.death?] at h

theorem Forkless.append (h : Forkless calls) (hmore : Forkless more) : Forkless (calls ++ more) :=
  fun request pid hcall => (List.mem_append.mp hcall).elim (h request pid) (hmore request pid)

/-- Making the child go away starts nothing, and finds the end of the child. -/
theorem Departed.forkless {done : Bool × Supervisor} (h : s.Departed calls done) :
    Forkless calls := by
  have hsignalled : ∀ pid signal, Forkless [.signalled pid signal] := by simp [Forkless]
  cases h with
  | already => simp [Forkless]
  | alone living alive death => exact alive.forkless.append (forkless_of_death death)
  | asked living alive still death =>
      exact alive.forkless.append
        ((hsignalled _ .terminate).append (still.forkless.append (forkless_of_death death)))
  | killed living alive still =>
      refine alive.forkless.append ((hsignalled _ .terminate).append (still.forkless.append ?_))
      simp [Forkless]

theorem Departed.finds_end {done : Bool × Supervisor} (h : s.Departed calls done)
    (hliving : s.Living pid) : ¬NoDeath pid calls := by
  intro hnone
  cases h with
  | already gone => exact not_living_of_gone gone pid hliving
  | @alone _ _ call status living _ death =>
      rw [living.unique hliving] at death
      exact hnone call (by simp) status death
  | @asked _ _ _ call status living _ _ death =>
      rw [living.unique hliving] at death
      exact hnone call (by simp) status death
  | @killed other _ _ status living =>
      obtain rfl := living.unique hliving
      exact hnone (.awaited other status) (by simp) status rfl

theorem eq_of_notSeenDead_startingCalls {plan : LaunchPlan} {p : Pipes} {new : Nat}
    {told : Option Host.Errno} (h : NotSeenDead (startingCalls plan p new told) pid) :
    pid = new := by
  obtain ⟨past, request, since, hsplit, -⟩ := h
  have hin : .forked request pid ∈ startingCalls plan p new told := by
    rw [hsplit]
    simp
  have hboth : request = LaunchPlan.request plan p ∧ pid = new := by
    simpa [startingCalls, Pipes.opening] using hin
  exact hboth.2

theorem forkless_closed (ds : List Host.Descriptor) : Forkless (ds.map .closed) := by
  simp [Forkless]

theorem forkless_pipeCalls (opened : List Host.Pipe) (reason : Host.Errno) :
    Forkless (pipeCalls opened reason) := by
  simp [Forkless, pipeCalls]

theorem forkless_forkCalls (plan : LaunchPlan) (p : Pipes) (reason : Host.Errno) :
    Forkless (forkCalls plan p reason) := by
  simp [Forkless, forkCalls, Pipes.opening]

theorem Launched.living_of_notSeenDead {plan : LaunchPlan} {done : Except Failure Unit × Supervisor}
    (h : s.Launched plan more done) (hpid : NotSeenDead more pid) : done.2.Living pid := by
  cases h with
  | busy | nameless => exact absurd hpid (Forkless.not_notSeenDead (by simp [Forkless]) pid)
  | pipeless => exact absurd hpid ((forkless_pipeCalls _ _).not_notSeenDead pid)
  | forkless => exact absurd hpid ((forkless_forkCalls _ _ _).not_notSeenDead pid)
  | @failed p new reason status gone =>
      -- A process that could not run the program is waited for.
      rcases notSeenDead_append hpid with ⟨hstart, hnone⟩ | hrest
      · obtain rfl := eq_of_notSeenDead_startingCalls hstart
        exact absurd rfl (hnone (.awaited pid status) (by simp) status)
      · have hwait : Forkless [.awaited new status] := by simp [Forkless]
        exact absurd hrest ((hwait.append (forkless_closed p.kept)).not_notSeenDead pid)
  | @running p new gone =>
      rcases notSeenDead_append hpid with ⟨hstart, -⟩ | hrest
      · obtain rfl := eq_of_notSeenDead_startingCalls hstart
        exact ⟨{ pid }, rfl, rfl, rfl⟩
      · exact absurd hrest ((forkless_closed _).not_notSeenDead pid)

/-- A process that a turn leaves and that was not found dead is the child. -/
theorem Turned.living_of_notSeenDead (h : s.Turned t s')
    (hold : NotSeenDead calls pid → s.Living pid) (hpid : NotSeenDead (calls ++ t.calls) pid) :
    s'.Living pid := by
  have hliving : ∀ {c : Prop}, (s.Living pid → NoDeath pid t.calls → c) → Forkless t.calls → c := by
    intro c hnext hforkless
    rcases notSeenDead_append hpid with ⟨hpast, hnone⟩ | hnew
    · exact hnext (hold hpast) hnone
    · exact absurd hnew (hforkless.not_notSeenDead pid)
  cases h with
  | spawn launch =>
      rcases notSeenDead_append hpid with ⟨hpast, -⟩ | hnew
      · cases launch with
        | busy | nameless => exact hold hpast
        | pipeless gone | forkless gone | failed gone | running gone =>
            exact absurd (hold hpast) (not_living_of_gone gone pid)
      · exact launch.living_of_notSeenDead hnew
  | notAlive | exitStatus => exact hliving (fun h _ => h) (by simp [Forkless])
  | take stream =>
      refine hliving (fun h _ => ?_) (by simp [Forkless])
      exact (living_congr (by cases stream <;> rfl)).mpr h
  | alive => exact hliving (fun h _ => h) (by simp [Forkless])
  | foundDead living death =>
      refine hliving (fun h hnone => ?_) (forkless_of_death death)
      rw [living.unique h] at death
      exact absurd death (hnone _ (by simp) _)
  | terminate departure =>
      exact hliving (fun h hnone => absurd hnone (departure.finds_end h)) departure.forkless
  | finish departure =>
      refine hliving (fun h hnone => ?_) (departure.forkless.append (forkless_closed _))
      exact absurd (fun call hcall => hnone call (List.mem_append_left _ hcall))
        (departure.finds_end h)

/-- **Of all the processes that a keeper has launched, none was not found dead but the child that it
takes to be alive.** -/
theorem History.living_of_notSeenDead (h : History history s)
    (hpid : NotSeenDead (callsOf history) pid) : s.Living pid := by
  induction h with
  | fresh => exact absurd hpid (Forkless.not_notSeenDead (by simp [Forkless, callsOf]) pid)
  | @turn past _ _ t _ hturned ih =>
      have hcalls : callsOf (past ++ [t]) = callsOf past ++ t.calls := by simp [callsOf]
      rw [hcalls] at hpid
      exact hturned.living_of_notSeenDead ih hpid

/-! ### The life cycle -/

/-- What callers and the system see of a keeper's child. -/
structure LifeCycleSafe (history : List KeeperTurn) : Prop where
  /-- The child is said to be alive exactly if the system has just been asked and said so. -/
  isAlive : ∀ t ∈ history, ∀ alive, t.exchange = .isAlive alive →
    (alive = true ↔ ∃ pid, t.calls = [.polled pid .running])
  /-- A child that was found dead is not alive, up to the next launch. -/
  stays_dead : ∀ before t after, history = before ++ t :: after → FoundDead before →
    t.exchange ≠ .isAlive true
  /-- The exit status is the status word that a wait since the last launch has collected. -/
  exitStatus : ∀ before t after status, history = before ++ t :: after →
    t.exchange = .exitStatus status → status = collected before
  /-- It does not change after the child was found dead, up to the next launch. -/
  exitStatus_kept : ∀ before t mid u after first second,
    history = before ++ t :: (mid ++ u :: after) → FoundDead before →
    (∀ v ∈ mid, v.launches = false) → t.exchange = .exitStatus first →
    u.exchange = .exitStatus second → first = second
  /-- Signals go to processes that were launched and not found dead since. -/
  aimed : Aimed (callsOf history)
  /-- Making the child go away takes no signal, the gentle one, or both; what it answers is whether
  the child was not killed. -/
  signals : ∀ t ∈ history, ∀ grace gentle, t.exchange = .terminate grace gentle →
    ∃ pid, (t.signals = [] ∧ gentle = true)
      ∨ (t.signals = [(pid, .terminate)] ∧ gentle = true)
      ∨ (t.signals = [(pid, .terminate), (pid, .kill)] ∧ gentle = false)
  /-- A child that was made to go away is not alive, up to the next launch. -/
  gone : ∀ before t mid u after, history = before ++ t :: (mid ++ u :: after) →
    t.terminates = true → (∀ v ∈ mid, v.launches = false) → u.exchange ≠ .isAlive true

theorem Turned.signals_eq (h : s.Turned t s') {grace : Nat} {gentle : Bool}
    (hexchange : t.exchange = .terminate grace gentle) :
    ∃ pid, (t.signals = [] ∧ gentle = true)
      ∨ (t.signals = [(pid, .terminate)] ∧ gentle = true)
      ∨ (t.signals = [(pid, .terminate), (pid, .kill)] ∧ gentle = false) := by
  cases h with
  | terminate departure =>
      obtain ⟨-, rfl⟩ := Exchange.terminate.inj hexchange
      exact departure.signals_eq
  | _ => simp at hexchange

theorem Turned.gone_of_terminates (h : s.Turned t s') (hends : t.terminates = true) :
    s'.presumesAlive = false := by
  cases h with
  | terminate departure => exact departure.presumesAlive_eq
  | finish departure => exact departure.presumesAlive_eq
  | _ => simp [KeeperTurn.terminates] at hends

/-- Only a launch makes a child live. -/
theorem Turned.stays_gone (h : s.Turned t s') (hquiet : t.launches = false)
    (hgone : s.presumesAlive = false) : s'.presumesAlive = false := by
  cases h.childTurn with
  | launched hlaunch => simp [hquiet] at hlaunch
  | same _ _ hchild => rw [presumesAlive_congr hchild, hgone]
  | found _ hliving => exact absurd hliving (not_living_of_gone hgone _)

theorem settled_of_foundDead (h : FoundDead history) : Settled history := fun _ => h

/-- Whatever became of a keeper. -/
theorem History.lifeCycleSafe (h : History history s) : LifeCycleSafe history where
  isAlive := by
    intro t hmem alive hexchange
    obtain ⟨before, after, hsplit⟩ := List.append_of_mem hmem
    obtain ⟨s₁, s₂, -, hturned, -⟩ := h.split hsplit
    exact hturned.isAlive_iff hexchange
  stays_dead := by
    intro before t after hsplit hfound
    obtain ⟨s₁, s₂, hbefore, hturned, -⟩ := h.split hsplit
    have hgone := hbefore.presumesAlive_eq_false_iff.mpr (settled_of_foundDead hfound)
    exact hturned.ne_isAlive_of_settled hgone
  exitStatus := by
    intro before t after status hsplit hexchange
    obtain ⟨s₁, s₂, hbefore, hturned, -⟩ := h.split hsplit
    rw [hturned.status_eq hexchange, hbefore.informed.status]
  exitStatus_kept := by
    intro before t mid u after first second hsplit hfound hquiet hfirst hsecond
    obtain ⟨s₁, s₂, hbefore, hturned, -⟩ := h.split hsplit
    have hlater : history = (before ++ t :: mid) ++ u :: after := by simp [hsplit]
    obtain ⟨s₃, s₄, hmid, hturned', -⟩ := h.split hlater
    have hquiet' : ∀ v ∈ t :: mid, v.launches = false :=
      List.forall_mem_cons.mpr ⟨by simp [KeeperTurn.launches, hfirst], hquiet⟩
    have hdeaths := (hmid.deaths_append (settled_of_foundDead hfound) hquiet').1
    rw [hturned.status_eq hfirst, hturned'.status_eq hsecond, hbefore.informed.status,
      hmid.informed.status, collected, collected, hdeaths]
  aimed := h.aimed.1
  signals := by
    intro t hmem grace gentle hexchange
    obtain ⟨before, after, hsplit⟩ := List.append_of_mem hmem
    obtain ⟨s₁, s₂, -, hturned, -⟩ := h.split hsplit
    exact hturned.signals_eq hexchange
  gone := by
    intro before t mid u after hsplit hends hquiet
    obtain ⟨s₁, s₂, -, hturned, hnow⟩ := h.split hsplit
    have hlater : history = ((before ++ [t]) ++ mid) ++ u :: after := by simp [hsplit]
    obtain ⟨s₃, s₄, hmid, hturned', -⟩ := h.split hlater
    have hsettled := hnow.presumesAlive_eq_false_iff.mp (hturned.gone_of_terminates hends)
    have hstill := (hmid.deaths_append hsettled hquiet).2
    exact hturned'.ne_isAlive_of_settled (hmid.presumesAlive_eq_false_iff.mpr hstill)

end Supervisor

namespace KeeperRun

/--
**Whatever is asked of a keeper, in whatever order, and whatever its children do: what it says of
a child that it has found dead is settled until the next launch, and no signal misses.**

The kernel gives any answers at all, so that children end at any moment and in any way, put up with
being asked to go, or are collected by someone else.  That a process which was killed does end is
taken for granted: the wait behind it returns.
-/
theorem run_supervises {W : Type} (k : Kernel W) (world : W) (events : List (KeeperEvent W)) :
    Supervisor.LifeCycleSafe (run k { world } events).history :=
  (run_history k world events).lifeCycleSafe

end KeeperRun

end AnalyzerBridge

/-
When a keeper refuses to launch because its child is running.

Launching does not look at the child.  It goes by what was found when the child was looked at last,
and the child may have ended since.  So whether a launch is refused depends on who has asked for
what in the meantime: asking whether the child is alive makes room for the next one.

A `chronicle` is what somebody sees who knows the children as well as their keeper.  It tells
exactly when the keeper refuses: a child was launched, and none of the requests that look at it has
found that it had ended.  `Probed` compares two runs that differ in looks only.
-/
import AnalyzerBridge.Proofs.Supervisor.FailedLaunch

namespace AnalyzerBridge

open Host (Kernel Descriptor)

variable {W : Type} {α β : Type}

/-! ### Systems that tell the truth -/

/-- Begun in a world where something is or is not so, the code ends with a result, and with that
being so or not, as stated. -/
def Passes (so : W → Bool) (before : Bool) (act : StateM W α) (P : α → Bool → Prop) : Prop :=
  ∀ w, so w = before → P (act w).1 (so (act w).2)

namespace Passes

variable {so : W → Bool} {before : Bool} {act : StateM W α} {P : α → Bool → Prop}
  {f : α → StateM W β} {Q : β → Bool → Prop}

protected theorem pure {a : α} (h : P a before) : Passes so before (pure a) P := by
  rintro w rfl
  exact h

protected theorem bind (h : Passes so before act P)
    (hf : ∀ a after, P a after → Passes so after (f a) Q) : Passes so before (act >>= f) Q := by
  intro w hw
  exact hf _ _ (h w hw) _ rfl

/-- Nothing is known of what some code does. -/
theorem any (so : W → Bool) (before : Bool) (act : StateM W α) :
    Passes so before act fun _ _ => True :=
  fun _ _ => trivial

end Passes

/-- The kernel tells the truth of its processes, which are ended in a world or not: one of which it
says that it is running has not ended, all others that are asked for have, and waiting for a process
takes until it has ended.  No process comes back to life by a log line or a descriptor that is
closed. -/
structure Truthful (k : Kernel W) (ended : W → Nat → Bool) : Prop where
  poll : ∀ pid before, Passes (ended · pid) before (k.poll pid) fun report after =>
    report = .running ↔ after = false
  await : ∀ pid before, Passes (ended · pid) before (k.await pid) fun _ after => after = true
  note : ∀ line pid, Passes (ended · pid) true (k.note line) fun _ after => after = true
  close : ∀ d pid, Passes (ended · pid) true (k.close d) fun _ after => after = true

namespace Supervisor

variable {k : Kernel W} {ended : W → Nat → Bool} {s : Supervisor} {c : KeptChild}

/-- The child that was launched last has ended, whether the keeper knows it or not. -/
def childEnded (ended : W → Nat → Bool) (s : Supervisor) (w : W) : Bool := s.pid?.any (ended w)

/-! ### Looking -/

/-- One look at a living child finds out how it is. -/
theorem passes_reap (hk : Truthful k ended) (hchild : s.child = some c) (halive : c.dead = false)
    (before : Bool) :
    Passes (ended · c.pid) before (s.reap k) fun done after =>
      done = (false, s) ∧ after = false
        ∨ ∃ status, done = (true, s.bury status) ∧ after = true := by
  unfold reap
  simp only [hchild, halive, Bool.false_eq_true, if_false]
  refine (hk.poll c.pid before).bind fun report after hreport => ?_
  cases report with
  | running => exact .pure (.inl ⟨rfl, hreport.mp rfl⟩)
  | ended status =>
      have hafter : after = true := by simpa using hreport
      rw [hafter]
      exact (hk.note _ _).bind fun _ _ hnoted => .pure (.inr ⟨some status, rfl, hnoted⟩)
  | gone =>
      have hafter : after = true := by simpa using hreport
      exact .pure (.inr ⟨none, rfl, hafter⟩)

/-- Watching a living child ends with its being found dead, or with nothing. -/
theorem passes_watch (hk : Truthful k ended) (hchild : s.child = some c) (halive : c.dead = false)
    (deadline : Host.Time) (n : Nat) (before : Bool) :
    Passes (ended · c.pid) before (s.watch k deadline n) fun done after =>
      done = (false, s) ∨ ∃ status, done = (true, s.bury status) ∧ after = true := by
  induction n generalizing before with
  | zero => exact .pure (.inl rfl)
  | succ n ih =>
      unfold watch
      refine (passes_reap hk hchild halive before).bind ?_
      rintro _ after (⟨rfl, -⟩ | ⟨status, rfl, hafter⟩)
      · refine (Passes.any _ _ _).bind fun now later _ => ?_
        by_cases hover : deadline ≤ now
        · simp only [hover, if_true]
          exact .pure (.inl rfl)
        · simp only [hover, if_false]
          exact (Passes.any _ _ _).bind fun _ passed _ => ih passed
      · exact .pure (.inr ⟨status, rfl, hafter⟩)

/-- The process has ended, and the keeper still goes by the number of the same child. -/
def Outlived (s : Supervisor) (so : Bool) (s' : Supervisor) : Prop :=
  so = true ∧ s'.pid? = s.pid?

theorem pid?_bury (s : Supervisor) (status : Option Nat) : (s.bury status).pid? = s.pid? := by
  unfold pid? bury
  cases s.child <;> rfl

theorem passes_awaitEnd (hk : Truthful k ended) (s : Supervisor) (pid : Nat) (before : Bool) :
    Passes (ended · pid) before (s.awaitEnd k pid) fun s' after => s.Outlived after s' := by
  unfold awaitEnd
  refine (hk.await pid before).bind fun status after hafter => ?_
  rw [hafter]
  cases status with
  | none => exact .pure ⟨rfl, s.pid?_bury none⟩
  | some status =>
      exact (hk.note _ _).bind fun _ _ hnoted => .pure ⟨hnoted, s.pid?_bury (some status)⟩

/-- A living child that is made to go away has ended by then. -/
theorem passes_terminate (hk : Truthful k ended) (hchild : s.child = some c)
    (halive : c.dead = false) (grace : Nat) (before : Bool) :
    Passes (ended · c.pid) before (s.terminate k grace) fun done after =>
      s.Outlived after done.2 := by
  unfold terminate
  simp only [hchild, halive, Bool.false_eq_true, if_false]
  refine (Passes.any _ _ _).bind fun start begun _ => ?_
  refine (passes_watch hk hchild halive _ _ begun).bind ?_
  rintro _ waited (rfl | ⟨status, rfl, hwaited⟩)
  · refine (Passes.any _ _ _).bind fun _ noted _ => (Passes.any _ _ _).bind fun _ asked _ => ?_
    refine (passes_watch hk hchild halive _ _ asked).bind ?_
    rintro _ passed (rfl | ⟨status, rfl, hpassed⟩)
    · refine (Passes.any _ _ _).bind fun _ _ _ => (Passes.any _ _ _).bind fun _ killed _ => ?_
      exact (passes_awaitEnd hk s c.pid killed).bind fun s' after h => .pure h
    · exact .pure ⟨hpassed, s.pid?_bury status⟩
  · exact .pure ⟨hwaited, s.pid?_bury status⟩

theorem passes_closeIfOpen (hk : Truthful k ended) (d : Option Descriptor) (pid : Nat) :
    Passes (ended · pid) true (closeIfOpen k d) fun _ after => after = true := by
  unfold closeIfOpen
  cases d with
  | none => exact .pure rfl
  | some d => exact hk.close d pid

/-- A living child has ended when its keeper has gone away. -/
theorem passes_finish (hk : Truthful k ended) (hchild : s.child = some c) (halive : c.dead = false)
    (before : Bool) :
    Passes (ended · c.pid) before (s.finish k) fun s' after => s.Outlived after s' := by
  unfold finish closeStreams
  refine (passes_terminate hk hchild halive lastGrace before).bind ?_
  rintro ⟨gentle, s'⟩ _ ⟨rfl, hpid⟩
  refine (passes_closeIfOpen hk s'.input c.pid).bind ?_
  rintro _ _ rfl
  refine (passes_closeIfOpen hk s'.output c.pid).bind ?_
  rintro _ _ rfl
  refine (passes_closeIfOpen hk s'.errors c.pid).bind ?_
  rintro _ _ rfl
  exact .pure ⟨rfl, hpid⟩

end Supervisor

/-! ### Chronicles -/

/-- A request to a keeper, as somebody sees it who knows the child, too. -/
structure Moment where
  request : KeeperRequest
  /-- A child was launched. -/
  launched : Bool
  /-- The child that was launched last had ended when the request was answered. -/
  ended : Bool

/-- The keeper looks at its child for such a request. -/
def KeeperRequest.looks : KeeperRequest → Bool
  | .isAlive => true
  | .terminate _ => true
  | .finish => true
  | _ => false

namespace Moment

def launches (m : Moment) : Bool := !m.request.looks && m.launched

/-- The keeper has looked and has found that the child had ended. -/
def notices (m : Moment) : Bool := m.request.looks && m.ended

end Moment

/-- The moments since the last launch. -/
def momentsSinceLaunch (ms : List Moment) : List Moment := ms.rtakeWhile (!·.launches)

/-- A child was launched, and nobody has noticed that it has ended. -/
def Unnoticed (ms : List Moment) : Prop :=
  (∃ m ∈ ms, m.launches = true) ∧ ∀ m ∈ momentsSinceLaunch ms, m.notices = false

/-- The second of two chronicles is the first one, with more looks. -/
inductive Probed : List Moment → List Moment → Prop
  | nil : Probed [] []
  | same {ms ms' : List Moment} (h : Probed ms ms') (m : Moment) : Probed (ms ++ [m]) (ms' ++ [m])
  | probe {ms ms' : List Moment} (h : Probed ms ms') (m : Moment) (asks : m.request = .isAlive) :
      Probed ms (ms' ++ [m])

section Chronicles

variable {ms ms' : List Moment} {m : Moment}

theorem momentsSinceLaunch_concat_of_launch (h : m.launches = true) :
    momentsSinceLaunch (ms ++ [m]) = [] :=
  List.rtakeWhile_concat_neg _ _ _ (by simp [h])

theorem momentsSinceLaunch_concat (h : m.launches = false) :
    momentsSinceLaunch (ms ++ [m]) = momentsSinceLaunch ms ++ [m] :=
  List.rtakeWhile_concat_pos _ _ _ (by simp [h])

theorem Moment.launches_of_asks (h : m.request = .isAlive) : m.launches = false := by
  simp [launches, h, KeeperRequest.looks]

/-- A launch makes room for noticing, and noticing settles it up to the next launch. -/
theorem unnoticed_concat_iff :
    Unnoticed (ms ++ [m]) ↔ m.launches = true ∨ (Unnoticed ms ∧ m.notices = false) := by
  cases hlaunch : m.launches with
  | true => simp [Unnoticed, momentsSinceLaunch_concat_of_launch hlaunch, hlaunch]
  | false =>
      simp only [Unnoticed, momentsSinceLaunch_concat hlaunch, List.mem_append,
        List.mem_singleton, or_and_right, exists_or, exists_eq_left, hlaunch, Bool.false_eq_true,
        or_false, false_or, or_imp, forall_and, forall_eq, and_assoc]

namespace Probed

theorem sublist (h : Probed ms ms') : ms.Sublist ms' := by
  induction h with
  | nil => exact .slnil
  | same _ m ih => exact ih.append_right [m]
  | probe _ m _ ih => exact ih.trans (List.sublist_append_left _ [m])

/-- What one chronicle has and the other has not are looks. -/
theorem mem_or_asks (h : Probed ms ms') (hm : m ∈ ms') : m ∈ ms ∨ m.request = .isAlive := by
  induction h with
  | nil => exact .inl hm
  | same _ other ih =>
      rcases List.mem_append.mp hm with hold | hnew
      · exact (ih hold).imp_left (List.mem_append_left _)
      · exact .inl (List.mem_append_right _ hnew)
  | probe _ other hasks ih =>
      rcases List.mem_append.mp hm with hold | hnew
      · exact ih hold
      · rw [List.mem_singleton.mp hnew]
        exact .inr hasks

/-- The two chronicles have the same launches, so they differ in looks from the last one on, too. -/
theorem momentsSinceLaunch (h : Probed ms ms') :
    Probed (momentsSinceLaunch ms) (momentsSinceLaunch ms') := by
  induction h with
  | nil => exact .nil
  | same _ m ih =>
      cases hlaunch : m.launches with
      | true =>
          rw [momentsSinceLaunch_concat_of_launch hlaunch,
            momentsSinceLaunch_concat_of_launch hlaunch]
          exact .nil
      | false =>
          rw [momentsSinceLaunch_concat hlaunch, momentsSinceLaunch_concat hlaunch]
          exact .same ih m
  | probe _ m hasks ih =>
      rw [momentsSinceLaunch_concat (Moment.launches_of_asks hasks)]
      exact .probe ih m hasks

theorem launches_iff (h : Probed ms ms') :
    (∃ m ∈ ms', m.launches = true) ↔ ∃ m ∈ ms, m.launches = true := by
  constructor
  · rintro ⟨m, hm, hlaunch⟩
    rcases h.mem_or_asks hm with hold | hasks
    · exact ⟨m, hold, hlaunch⟩
    · rw [Moment.launches_of_asks hasks] at hlaunch
      exact absurd hlaunch (by decide)
  · rintro ⟨m, hm, hlaunch⟩
    exact ⟨m, h.sublist.mem hm, hlaunch⟩

/-- With more looks, no less is noticed. -/
theorem unnoticed (h : Probed ms ms') (hquiet : Unnoticed ms') : Unnoticed ms :=
  ⟨h.launches_iff.mp hquiet.1, fun m hm => hquiet.2 m (h.momentsSinceLaunch.sublist.mem hm)⟩

/-- Something more is noticed exactly if one of the additional looks notices it. -/
theorem noticed_iff (h : Probed ms ms') (hquiet : Unnoticed ms) :
    ¬Unnoticed ms' ↔
      ∃ m ∈ AnalyzerBridge.momentsSinceLaunch ms', m.request = .isAlive ∧ m.ended = true := by
  constructor
  · intro hnoticed
    have hsome : ¬∀ m ∈ AnalyzerBridge.momentsSinceLaunch ms', m.notices = false :=
      fun hnone => hnoticed ⟨h.launches_iff.mpr hquiet.1, hnone⟩
    simp only [not_forall, Bool.not_eq_false] at hsome
    obtain ⟨m, hm, hnotices⟩ := hsome
    have hended : m.ended = true := (Bool.and_eq_true_iff.mp hnotices).2
    rcases h.momentsSinceLaunch.mem_or_asks hm with hold | hasks
    · rw [hquiet.2 m hold] at hnotices
      exact absurd hnotices (by decide)
    · exact ⟨m, hm, hasks, hended⟩
  · rintro ⟨m, hm, hasks, hended⟩ hnone
    have hnotices := hnone.2 m hm
    simp [Moment.notices, hasks, hended, KeeperRequest.looks] at hnotices

end Probed

end Chronicles

/-! ### Refusals -/

namespace Supervisor

variable {k : Kernel W} {s : Supervisor}

/-- What a caller is told who asks for a launch while there is a child. -/
def alreadyRunning : Failure := refusal (ascii "backend already running")

/-- Nothing else that can go wrong is told in these words. -/
theorem LaunchFails.alive_of_alreadyRunning {plan : LaunchPlan} {calls : List SystemCall}
    (h : s.LaunchFails plan calls alreadyRunning) : s.presumesAlive = true := by
  generalize hfailure : alreadyRunning = failure at h
  -- of those that tell a reason, none begins with the same letter
  have hfirst : ∀ letter, failure.message.head? = some letter → letter = 0x62 := by
    rw [← hfailure]
    intro letter hletter
    exact (Option.some.inj hletter).symm
  cases h with
  | busy alive => exact alive
  | nameless => exact absurd (congrArg (·.message) hfailure) (by decide)
  | pipeless => exact absurd (hfirst 0x70 rfl) (by decide)
  | forkless => exact absurd (hfirst 0x66 rfl) (by decide)
  | unable => exact absurd (hfirst 0x63 rfl) (by decide)

theorem spawn_of_alive (k : Kernel W) (plan : LaunchPlan) (w : W) (h : s.presumesAlive = true) :
    s.spawn k plan w = ((.error alreadyRunning, s), w) := by
  unfold spawn
  simp only [h, if_true]
  rfl

end Supervisor

namespace KeeperRun

open Supervisor (alreadyRunning)

variable {k : Kernel W} {ended : W → Nat → Bool}

/-- Asked to launch now, the keeper would refuse, as its child is running. -/
def Refuses (k : Kernel W) (r : KeeperRun W) (plan : LaunchPlan) : Prop :=
  launchFailure? k r plan = some alreadyRunning

theorem refuses_iff (k : Kernel W) (r : KeeperRun W) (plan : LaunchPlan) :
    Refuses k r plan ↔ r.keeper.presumesAlive = true := by
  constructor
  · intro hrefused
    obtain ⟨calls, -, hlaunch⟩ := Supervisor.makes_spawn k r.keeper plan r.world []
    exact (hlaunch.fails hrefused).1.alive_of_alreadyRunning
  · intro halive
    unfold Refuses launchFailure?
    rw [Supervisor.spawn_of_alive k plan r.world halive]
    rfl

/-- The moment of a request. -/
def moment (k : Kernel W) (ended : W → Nat → Bool) (r : KeeperRun W) (request : KeeperRequest) :
    Moment :=
  let r' := step k r (.request request)
  { request
    launched := r'.history.getLast?.any (·.launches)
    ended := Supervisor.childEnded ended r'.keeper r'.world }

/-- The moments of a run, the earliest first. -/
def chronicle (k : Kernel W) (ended : W → Nat → Bool) (r : KeeperRun W) :
    List (KeeperEvent W) → List Moment
  | [] => []
  | .elsewhere change :: rest => chronicle k ended (step k r (.elsewhere change)) rest
  | .request request :: rest =>
    moment k ended r request :: chronicle k ended (step k r (.request request)) rest

theorem chronicle_append (r : KeeperRun W) (events more : List (KeeperEvent W)) :
    chronicle k ended r (events ++ more)
      = chronicle k ended r events ++ chronicle k ended (run k r events) more := by
  induction events generalizing r with
  | nil => rfl
  | cons e rest ih =>
      cases e with
      | elsewhere change => exact ih _
      | request request =>
          rw [List.cons_append, chronicle, chronicle, ih]
          rfl

end KeeperRun

/-! ### What a request makes of the keeper's opinion -/

namespace Supervisor

variable {k : Kernel W} {ended : W → Nat → Bool} {s : Supervisor}

/-- A look keeps the opinion that the child is alive exactly if that is true. -/
theorem presumesAlive_look_iff (hk : Truthful k ended) (w : W) {request : KeeperRequest}
    (hlooks : request.looks = true) (halive : s.presumesAlive = true) :
    (s.perform k request w).1.2.presumesAlive = true ↔
      childEnded ended (s.perform k request w).1.2 (s.perform k request w).2 = false := by
  obtain ⟨pid, c, hchild, hlives, rfl⟩ := s.presumesAlive_iff.mp halive
  have hpid : s.pid? = some c.pid := by simp [pid?, hchild]
  -- making the child go away leaves it dead, in the opinion of the keeper and indeed
  have hgone : ∀ {s' : Supervisor} {w' : W}, s'.presumesAlive = false →
      s.Outlived (ended w' c.pid) s' →
      (s'.presumesAlive = true ↔ childEnded ended s' w' = false) := by
    rintro s' w' hdead ⟨hended, hsame⟩
    simp [childEnded, hdead, hsame, hpid, hended]
  cases request with
  | isAlive =>
      have hlook := passes_reap hk hchild hlives _ w rfl
      have hperform : s.perform k .isAlive w
          = ((.isAlive (!(s.reap k w).1.1), (s.reap k w).1.2), (s.reap k w).2) := by
        simp only [perform, isAlive, halive, if_true]
        rfl
      rw [hperform]
      rcases hlook with ⟨hdone, hended⟩ | ⟨status, hdone, hended⟩
      · simp [childEnded, hdone, halive, hpid, hended]
      · simp [childEnded, hdone, presumesAlive_bury, s.pid?_bury, hpid, hended]
  | terminate grace =>
      obtain ⟨calls, -, hdeparture⟩ := makes_terminate k s grace w []
      exact hgone hdeparture.presumesAlive_eq (passes_terminate hk hchild hlives grace _ w rfl)
  | finish =>
      obtain ⟨calls, -, looks, done, hdeparture, -, hfinished⟩ := makes_finish k s w []
      refine hgone ?_ (passes_finish hk hchild hlives _ w rfl)
      show (s.finish k w).1.presumesAlive = false
      rw [hfinished]
      exact hdeparture.presumesAlive_eq
  | spawn | take | exitStatus => simp [KeeperRequest.looks] at hlooks

/-- Without a look, only a launch that succeeds changes the opinion. -/
theorem Turned.presumesAlive_iff_of_blind {request : KeeperRequest} {w : W}
    {calls : List SystemCall} (hblind : request.looks = false)
    (h : s.Turned ⟨(s.perform k request w).1.1, calls⟩ (s.perform k request w).1.2) :
    (s.perform k request w).1.2.presumesAlive = true ↔
      KeeperTurn.launches ⟨(s.perform k request w).1.1, calls⟩ = true
        ∨ s.presumesAlive = true := by
  cases request with
  | spawn plan =>
      cases h.childTurn with
      | launched hlaunch hchild => simp [hlaunch, presumesAlive, hchild]
      | same hquiet _ hchild => simp [hquiet, presumesAlive_congr hchild]
      | found _ _ hdeath => exact absurd hdeath (List.cons_ne_nil _ _).symm
  | take stream =>
      have hchild : (s.take stream).2.child = s.child := by cases stream <;> rfl
      show (s.take stream).2.presumesAlive = true ↔ false = true ∨ s.presumesAlive = true
      simp [presumesAlive_congr hchild]
  | exitStatus =>
      show s.presumesAlive = true ↔ false = true ∨ s.presumesAlive = true
      simp
  | isAlive | terminate | finish => simp [KeeperRequest.looks] at hblind

/-- A request that looks launches nothing. -/
theorem launches_of_looks {request : KeeperRequest} (hlooks : request.looks = true) (w : W)
    (calls : List SystemCall) :
    KeeperTurn.launches ⟨(s.perform k request w).1.1, calls⟩ = false := by
  cases request with
  | isAlive | terminate | finish => rfl
  | spawn | take | exitStatus => simp [KeeperRequest.looks] at hlooks

end Supervisor

namespace KeeperRun

open Supervisor (alreadyRunning)

variable {k : Kernel W} {ended : W → Nat → Bool}

/-- A request makes of the keeper's opinion of its child what the moment tells. -/
theorem presumesAlive_step_iff (hk : Truthful k ended) (r : KeeperRun W)
    (request : KeeperRequest) :
    (step k r (.request request)).keeper.presumesAlive = true ↔
      (moment k ended r request).launches = true
        ∨ (r.keeper.presumesAlive = true ∧ (moment k ended r request).notices = false) := by
  obtain ⟨calls, hstep, hturned⟩ := step_request k r request
  simp only [Moment.launches, Moment.notices, moment, hstep, List.getLast?_concat, Option.any_some]
  cases hlooks : request.looks with
  | false =>
      simpa using hturned.presumesAlive_iff_of_blind hlooks
  | true =>
      simp only [Bool.not_true, Bool.false_and, Bool.false_eq_true, false_or, Bool.true_and]
      by_cases halive : r.keeper.presumesAlive = true
      · simp only [halive, true_and]
        exact Supervisor.presumesAlive_look_iff hk r.world hlooks halive
      · have hquiet := Supervisor.launches_of_looks (s := r.keeper) (k := k) hlooks r.world calls
        have hgone := hturned.stays_gone hquiet (Bool.eq_false_iff.mpr halive)
        simp [halive, hgone]

/-- The keeper takes its child to be alive from its launch until a look notices its end. -/
theorem presumesAlive_run_iff (hk : Truthful k ended) (world : W) (events : List (KeeperEvent W)) :
    (run k { world } events).keeper.presumesAlive = true ↔
      Unnoticed (chronicle k ended { world } events) := by
  induction events using List.reverseRecOn with
  | nil => simp [run, chronicle, Unnoticed, Supervisor.presumesAlive]
  | append_singleton events e ih =>
      rw [run_concat, chronicle_append]
      cases e with
      | elsewhere change => simpa [step, chronicle] using ih
      | request request =>
          rw [chronicle, chronicle, unnoticed_concat_iff, ← ih]
          exact presumesAlive_step_iff hk _ request

/-- A launch is refused for a child that was launched and of which nobody has noticed that it has
ended. -/
theorem refuses_run_iff (hk : Truthful k ended) (world : W) (events : List (KeeperEvent W))
    (plan : LaunchPlan) :
    Refuses k (run k { world } events) plan ↔ Unnoticed (chronicle k ended { world } events) :=
  (refuses_iff k _ plan).trans (presumesAlive_run_iff hk world events)

/--
**A launch is refused for a child exactly if no look has noticed that it has ended, whether or not
it has.**  Say that of two runs one has more looks, and the children end at the same times.  What is
refused behind that one is refused behind the other.  But what is refused behind the other goes
ahead behind that one if, and only if, one of its additional looks since the last launch has come
late enough to notice the end of the child.
-/
theorem refused_iff_unnoticed (hk : Truthful k ended) (world : W) (events : List (KeeperEvent W))
    (plan : LaunchPlan) :
    (Refuses k (run k { world } events) plan ↔ Unnoticed (chronicle k ended { world } events))
      ∧ ∀ world' events',
        Probed (chronicle k ended { world } events)
            (chronicle k ended { world := world' } events') →
          (Refuses k (run k { world := world' } events') plan →
            Refuses k (run k { world } events) plan)
          ∧ (Refuses k (run k { world } events) plan →
            (¬Refuses k (run k { world := world' } events') plan ↔
              ∃ m ∈ momentsSinceLaunch (chronicle k ended { world := world' } events'),
                m.request = .isAlive ∧ m.ended = true)) := by
  refine ⟨refuses_run_iff hk world events plan, fun world' events' hprobed => ?_⟩
  rw [refuses_run_iff hk, refuses_run_iff hk]
  exact ⟨hprobed.unnoticed, hprobed.noticed_iff⟩

/-! ### A child that ends by itself -/

/-- A system with one child, whose world is whether that has ended. -/
def mortal : Kernel Bool where
  openPipe := pure (.ok ⟨3, 4⟩)
  close _ := pure ()
  fork _ := fun _ => (.ok 1, false)
  launchReport _ := pure none
  poll _ := fun dead => (if dead then .ended 0 else .running, dead)
  await _ := fun _ => (some 0, true)
  signal _ _ := pure ()
  clock := pure 0
  pause := pure ()
  note _ := pure ()

theorem mortal_truthful : Truthful mortal fun dead _ => dead where
  poll pid before dead hdead := by cases dead <;> simp [mortal]
  await _ _ _ _ := rfl
  note _ _ _ h := h
  close _ _ _ h := h

/-- A child is launched, and ends. -/
def launchedAndEnded : List (KeeperEvent Bool) :=
  [.request (.spawn { executable := [0x61] }), .elsewhere fun _ => true]

/-- Nobody has noticed that the child has ended, so that the next launch is refused; after a look it
is not. -/
theorem refused_iff_unnoticed_of_ended :
    (Refuses mortal (run mortal { world := true } launchedAndEnded) { executable := [0x62] } ↔
        Unnoticed (chronicle mortal (fun dead _ => dead) { world := true } launchedAndEnded))
      ∧ (Refuses mortal (run mortal { world := true } launchedAndEnded) { executable := [0x62] } →
        (¬Refuses mortal (run mortal { world := true } (launchedAndEnded ++ [.request .isAlive]))
            { executable := [0x62] } ↔
          ∃ m ∈ momentsSinceLaunch (chronicle mortal (fun dead _ => dead) { world := true }
              (launchedAndEnded ++ [.request .isAlive])), m.request = .isAlive ∧ m.ended = true)) :=
  let h := refused_iff_unnoticed mortal_truthful true launchedAndEnded { executable := [0x62] }
  ⟨h.1, (h.2 true (launchedAndEnded ++ [.request .isAlive])
    (by
      rw [chronicle_append]
      exact .probe (.same .nil _) _ rfl)).2⟩

/-- That launch is refused although the child has ended, and one look more would have made room for
it. -/
theorem refused_after_end :
    Refuses mortal (run mortal { world := true } launchedAndEnded) { executable := [0x62] }
      ∧ Supervisor.childEnded (fun dead _ => dead)
          (run mortal { world := true } launchedAndEnded).keeper
          (run mortal { world := true } launchedAndEnded).world = true
      ∧ ¬Refuses mortal (run mortal { world := true } (launchedAndEnded ++ [.request .isAlive]))
          { executable := [0x62] } := by
  refine ⟨rfl, rfl, ?_⟩
  rw [refuses_iff]
  decide

end KeeperRun

end AnalyzerBridge

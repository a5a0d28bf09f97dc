/-
What goes on beside the callers comes to life once.

There is nothing beside the callers until the backend is launched: no child, no writer, no reader and
nobody who logs errors.  From then on each of them can only come to an end.  `Calm` says so of two
states, and every move but the two of a launch is calm.  So whatever has been done to stop one of
them stays done, whoever did it and whoever else was about to.

`Coherent` is what holds in between at any time.
-/
import AnalyzerBridge.Proofs.Frame.Delivery
import AnalyzerBridge.Proofs.Session.Companions
import AnalyzerBridge.Proofs.Session.Course

namespace AnalyzerBridge

open Host (Kernel)
open AnalyzerBridge.Frame (Writer WriteAnswer Outgoing)
open Ledger (Section Sound Precedes)

variable {W : Type}

/-! ### The keeper -/

/-- Every request makes the keeper take one of its turns. -/
theorem KeeperRun.step_turned (k : Kernel W) (r : KeeperRun W) (request : KeeperRequest) :
    ∃ calls, (r.step k (.request request)).history
        = r.history ++ [⟨r.answer k request, calls⟩]
      ∧ r.keeper.Turned ⟨r.answer k request, calls⟩ (r.step k (.request request)).keeper := by
  obtain ⟨calls, hact, hturned⟩ := Supervisor.makes_perform k r.keeper request r.world []
  refine ⟨calls, ?_, ?_⟩
  · simp only [step, answer, hact, List.nil_append]
  · simpa only [step, answer, hact] using hturned

theorem KeeperRun.history_step {k : Kernel W} {r : KeeperRun W} (request : KeeperRequest)
    (h : Supervisor.History r.history r.keeper) :
    Supervisor.History (r.step k (.request request)).history (r.step k (.request request)).keeper := by
  obtain ⟨calls, hhistory, hturned⟩ := r.step_turned k request
  rw [hhistory]
  exact .turn h hturned

/-- What became of a launch. -/
def KeeperTurn.launch? (t : KeeperTurn) : Option (Option Failure) :=
  match t.exchange with
  | .spawn _ failure => some failure
  | _ => none

/-- What became of the launches that a keeper was asked for, in order. -/
def KeeperRun.launches (r : KeeperRun W) : List (Option Failure) :=
  r.history.filterMap KeeperTurn.launch?

/-- Only a launch makes a child live. -/
theorem KeeperRun.presumesAlive_step {k : Kernel W} {r : KeeperRun W} {request : KeeperRequest}
    (hquiet : ∀ plan, r.answer k request ≠ .spawn plan none) (h : r.keeper.presumesAlive = false) :
    (r.step k (.request request)).keeper.presumesAlive = false := by
  obtain ⟨calls, -, hturned⟩ := r.step_turned k request
  refine hturned.stays_gone ?_ h
  unfold KeeperTurn.launches
  split
  case h_1 plan heq => exact absurd heq (hquiet plan)
  case h_2 => rfl

theorem KeeperRun.launches_spawn (k : Kernel W) (r : KeeperRun W) (plan : LaunchPlan) :
    (r.step k (.request (.spawn plan))).launches
      = r.launches ++ [(r.answer k (.spawn plan)).launchFailure?] := by
  obtain ⟨calls, hhistory, -⟩ := r.step_turned k (.spawn plan)
  have hanswer : ∃ failure, r.answer k (.spawn plan) = .spawn plan failure := ⟨_, rfl⟩
  obtain ⟨failure, hanswer⟩ := hanswer
  rw [launches, hhistory, List.filterMap_append, hanswer]
  rfl

/-- The keeper answers what it is asked. -/
theorem KeeperRun.answer_ne_spawn (k : Kernel W) (r : KeeperRun W) {request : KeeperRequest}
    (hnot : ∀ plan, request ≠ .spawn plan) (plan : LaunchPlan) (failure : Option Failure) :
    r.answer k request ≠ .spawn plan failure := by
  cases request with
  | spawn plan => exact absurd rfl (hnot plan)
  | isAlive | terminate | take | exitStatus | finish => exact nofun

theorem KeeperRun.launches_step (k : Kernel W) (r : KeeperRun W) {request : KeeperRequest}
    (hnot : ∀ plan, request ≠ .spawn plan) : (r.step k (.request request)).launches = r.launches := by
  obtain ⟨calls, hhistory, -⟩ := r.step_turned k request
  have hnone : KeeperTurn.launch? ⟨r.answer k request, calls⟩ = none := by
    unfold KeeperTurn.launch?
    split
    case h_1 plan failure heq => exact absurd heq (r.answer_ne_spawn k hnot plan failure)
    case h_2 => rfl
  rw [launches, hhistory, List.filterMap_append, List.filterMap_cons_none hnone, launches]
  simp

namespace SessionRun

variable {s : SessionRun}

/-! ### What a client does to its session -/

/-- What a move of a client does to the session, and in which document it tells that something was
found. -/
inductive Stirred (s : SessionRun) : Option Bytes → SessionRun → Prop
  | still : Stirred s none s
  | move (move : SessionMove) : Stirred s none (s.step move)
  | publish (runs : s.reader = .reading) (uri : Bytes) : Stirred s (some uri) (s.publish uri)
  /-- The reader knows what to report. -/
  | find (runs : s.reader ≠ .absent) (cause : Failure) :
      Stirred s none { s with reader := .found cause }

theorem Steady.publish (h : Steady s) (uri : Bytes) : Steady (s.publish uri) where
  orderly := ⟨{ h.orderly.books with }, h.orderly.reader, fun thread =>
    { h.orderly.seats thread with }⟩
  manned := h.manned
  unlaunched := h.unlaunched
  launched := h.launched
  streamed := h.streamed.publish uri

theorem Steady.find (h : Steady s) (hreader : s.reader ≠ .absent) (cause : Failure) :
    Steady { s with reader := .found cause } := by
  have hbegun := h.orderly.begun_of_reader hreader
  exact h.beside (h.orderly.beside .look hbegun (.inr hbegun) rfl rfl) hbegun h.streamed

theorem Steady.stirred {s' : SessionRun} {found : Option Bytes} (h : Steady s)
    (hs : s.Stirred found s') : Steady s' := by
  cases hs with
  | still => exact h
  | move move => exact steady_step h move
  | publish runs uri => exact h.publish uri
  | find runs cause => exact h.find runs cause

/-- The session does not go back. -/
theorem Stirred.precedes {s' : SessionRun} {found : Option Bytes} (hs : s.Stirred found s')
    (h : Steady s) :
    Precedes s.ledger s'.ledger := by
  cases hs with
  | still | find => exact .refl _
  | move move => exact (orderly_step h.orderly move).1.precedes
  | publish => exact .of_session (Nat.le_refl _) List.suffix_rfl

end SessionRun

namespace ClientRun

variable {k : Kernel W} {o : ClientOptions} {s s' s'' : ClientRun W}

/-! ### Writing -/

/-- A writer that was closed stays closed, and there is none where there was none. -/
def Worn (w w' : Option Writer) : Prop :=
  ∀ x' ∈ w', ∃ x ∈ w, x'.isOpen = true → x.isOpen = true

theorem Worn.refl (w : Option Writer) : Worn w w := fun x hx => ⟨x, hx, id⟩

theorem Worn.trans {w w' w'' : Option Writer} (h : Worn w w') (h' : Worn w' w'') : Worn w w'' := by
  intro x'' hx''
  obtain ⟨x', hx', hopen'⟩ := h' x'' hx''
  obtain ⟨x, hx, hopen⟩ := h x' hx'
  exact ⟨x, hx, fun hc => hopen (hopen' hc)⟩

theorem worn_close (w : Option Writer) : Worn w (w.map (·.close)) := by
  intro x' hx'
  obtain ⟨x, hx, rfl⟩ := Option.map_eq_some_iff.mp hx'
  exact ⟨x, hx, fun hc => absurd hc (by simp [Writer.close])⟩

theorem worn_write (s : ClientRun W) (message : Outgoing) (answers : List WriteAnswer) :
    Worn s.writer (s.write message answers).writer := by
  intro x' hx'
  obtain ⟨done, hdone, rfl⟩ := Option.map_eq_some_iff.mp hx'
  obtain ⟨x, hx, rfl⟩ := Option.map_eq_some_iff.mp hdone
  exact ⟨x, hx, fun hopen => (Writer.offer_ended x answers message).isOpen ▸ hopen⟩

theorem exists_notify (s : ClientRun W) (message : Outgoing) (answers : List WriteAnswer) :
    ∃ writer wire, s.notify message answers = { s with writer, wire } ∧ Worn s.writer writer := by
  unfold notify
  split
  · exact ⟨_, _, rfl, s.worn_write message answers⟩
  · exact ⟨_, _, rfl, .refl _⟩

/-- A thread on the way of a call, or of a notification, writes at most and goes on. -/
theorem exists_proceed (k : Kernel W) (o : ClientOptions) (s : ClientRun W) (thread : Nat)
    (message : Outgoing) (answers : List WriteAnswer) (late : Bool)
    (hquiet : (s.shared.place thread).isQuiet = true) (hnot : s.shared.place thread ≠ .stopping) :
    ∃ well writer wire opening, s.proceed k o thread message answers late
        = { s with shared := s.shared.step (.proceed thread well), writer, wire, opening }
      ∧ Worn s.writer writer := by
  unfold proceed
  cases hp : s.shared.place thread with
  | idle | unsent | waiting => exact ⟨_, _, _, _, rfl, .refl _⟩
  | calling purpose => cases s.session.register <;> exact ⟨_, _, _, _, rfl, .refl _⟩
  | sending purpose id => exact ⟨_, _, _, _, rfl, s.worn_write message answers⟩
  | cancelling | leaving | acknowledging =>
      obtain ⟨writer, wire, hnotify, hworn⟩ := s.exists_notify message answers
      simp only [hnotify]
      exact ⟨_, _, _, _, rfl, hworn⟩
  | stopping => exact absurd hp hnot
  | _ => simp [hp, ThreadPlace.isQuiet] at hquiet

/-! ### Nothing comes to life -/

/-- What the reader has yet to do fits to where it stands. -/
def TaskFits (s : ClientRun W) : Prop :=
  match s.task with
  | .nothing => True
  | .look => ∃ cause, s.shared.reader = .found cause
  | .closeWriter | .expel => s.shared.reader = .stopped

/-- How many steps the reader has before it at most, once nothing arrives any more. -/
def readerWork (s : ClientRun W) : Nat :=
  match s.task with
  | .closeWriter | .look => 2
  | .expel => 1
  | .nothing =>
    match s.shared.reader with
    | .reading => 3
    | .found _ => 1
    | .absent | .stopped => 0

/-- Nothing beside the callers has come to life, and nobody who was asked to stop was not. -/
structure Calm (s s' : ClientRun W) : Prop where
  writer : Worn s.writer s'.writer
  /-- The keeper has taken turns, none of which was a launch. -/
  turns : Supervisor.History s.keeping.history s.keeper →
    Supervisor.History s'.keeping.history s'.keeper
  launches : s'.keeping.launches = s.keeping.launches
  child : s.keeper.presumesAlive = false → s'.keeper.presumesAlive = false
  /-- The reader is where it was, or it was running and went on. -/
  reader : (s'.shared.reader = s.shared.reader ∧ s'.task = s.task)
    ∨ (s'.readerWork < s.readerWork ∧ s'.TaskFits)
  errors : s.errors ≠ .running → s'.errors ≠ .running
  readerAsked : s.readerAsked = true → s'.readerAsked = true
  errorsAsked : s.errorsAsked = true → s'.errorsAsked = true

theorem taskFits_congr (hreader : s'.shared.reader = s.shared.reader) (htask : s'.task = s.task) :
    s'.TaskFits ↔ s.TaskFits := by
  unfold TaskFits
  rw [hreader, htask]

theorem taskFits_of_nothing (h : s.task = .nothing) : s.TaskFits := by
  unfold TaskFits
  rw [h]
  trivial

theorem readerWork_congr (hreader : s'.shared.reader = s.shared.reader) (htask : s'.task = s.task) :
    s'.readerWork = s.readerWork := by
  unfold readerWork
  rw [hreader, htask]

/-- The reader has gone when it has nothing before it. -/
theorem readerGone_iff : s.ReaderGone ↔ s.readerWork = 0 := by
  unfold ReaderGone readerWork
  cases s.task with
  | nothing => cases s.shared.reader <;> simp
  | closeWriter | expel | look => simp

/-- A reader that takes in what the backend writes has not failed. -/
theorem task_of_reading (hfits : s.TaskFits) (hreading : s.shared.reader = .reading) :
    s.task = .nothing := by
  unfold TaskFits at hfits
  cases htask : s.task with
  | nothing => rfl
  | closeWriter | expel | look => simp [htask, hreading] at hfits

namespace Calm

/-- A reader that has gone does not come back. -/
theorem readerGone (h : Calm s s') (hgone : s.ReaderGone) : s'.ReaderGone := by
  rw [readerGone_iff] at hgone ⊢
  rcases h.reader with ⟨hreader, htask⟩ | ⟨hworks, -⟩
  · rw [readerWork_congr hreader htask, hgone]
  · omega

theorem taskFits (h : Calm s s') (hfits : s.TaskFits) : s'.TaskFits := by
  rcases h.reader with ⟨hreader, htask⟩ | ⟨-, hnext⟩
  · exact (taskFits_congr hreader htask).mpr hfits
  · exact hnext

theorem refl (s : ClientRun W) : Calm s s := ⟨.refl _, id, rfl, id, .inl ⟨rfl, rfl⟩, id, id, id⟩

theorem trans (h : Calm s s') (h' : Calm s' s'') : Calm s s'' where
  writer := h.writer.trans h'.writer
  turns := h'.turns ∘ h.turns
  launches := h'.launches.trans h.launches
  child := h'.child ∘ h.child
  reader := by
    rcases h.reader with ⟨hreader, htask⟩ | ⟨hworks, hfits⟩
    · rcases h'.reader with ⟨hreader', htask'⟩ | ⟨hworks', hfits'⟩
      · exact .inl ⟨hreader'.trans hreader, htask'.trans htask⟩
      · exact .inr ⟨readerWork_congr hreader htask ▸ hworks', hfits'⟩
    · refine .inr ⟨?_, h'.taskFits hfits⟩
      rcases h'.reader with ⟨hreader', htask'⟩ | ⟨hworks', -⟩
      · rwa [readerWork_congr hreader' htask']
      · exact hworks'.trans hworks
  errors := h'.errors ∘ h.errors
  readerAsked := h'.readerAsked ∘ h.readerAsked
  errorsAsked := h'.errorsAsked ∘ h.errorsAsked

/-- What the keeper is asked for may change the child, as long as that is no launch. -/
theorem keep {request : KeeperRequest} (hnot : ∀ plan, request ≠ .spawn plan) :
    Calm s (s.keep k request) where
  writer := .refl _
  turns := KeeperRun.history_step request
  launches := s.keeping.launches_step k hnot
  child := KeeperRun.presumesAlive_step fun plan => s.keeping.answer_ne_spawn k hnot plan none
  reader := .inl ⟨rfl, rfl⟩
  errors := id
  readerAsked := id
  errorsAsked := id

theorem closeWriter (s : ClientRun W) : Calm s s.closeWriter :=
  ⟨worn_close _, id, rfl, id, .inl ⟨rfl, rfl⟩, id, id, id⟩

theorem write (s : ClientRun W) (message : Outgoing) (answers : List WriteAnswer) :
    Calm s (s.write message answers) :=
  ⟨s.worn_write message answers, id, rfl, id, .inl ⟨rfl, rfl⟩, id, id, id⟩

/-- A change of the session that leaves the reader where it is. -/
theorem of_reader {shared : SessionRun} (h : shared.reader = s.shared.reader) :
    Calm s { s with shared } :=
  ⟨.refl _, id, rfl, id, .inl ⟨h, rfl⟩, id, id, id⟩

/-- A reader that runs goes on. -/
theorem of_running {shared : SessionRun} {readEnd : Option ReadEnd} {task : ReaderTask}
    (h : ({ s with shared, readEnd, task } : ClientRun W).readerWork < s.readerWork)
    (hfits : TaskFits { s with shared, readEnd, task }) : Calm s { s with shared, readEnd, task } :=
  ⟨.refl _, id, rfl, id, .inr ⟨h, hfits⟩, id, id, id⟩

theorem go {well : Bool} {thread : Nat} (h : s.shared.place thread ≠ .launched) :
    Calm s (s.go thread well) := of_reader (SessionRun.reader_take h)

/-- Whatever has become of the callers. -/
theorem of_callers {posting : List Nat} {opening : Option Failure} {chores : List Chore}
    {returned : List (Nat × ClientReply)} : Calm s { s with posting, opening, chores, returned } :=
  ⟨.refl _, id, rfl, id, .inl ⟨rfl, rfl⟩, id, id, id⟩

theorem noteOpening (s : ClientRun W) (purpose : CallPurpose) (failure : Option Failure) :
    Calm s (s.noteOpening purpose failure) := of_callers

theorem perform (k : Kernel W) (o : ClientOptions) (s : ClientRun W) (chore : Chore) :
    Calm s (s.perform k o chore) := by
  cases chore with
  | closeWriter => exact .closeWriter s
  | expel => exact .keep (by simp)
  | askReader => exact ⟨.refl _, id, rfl, id, .inl ⟨rfl, rfl⟩, id, fun _ => rfl, id⟩
  | askErrors => exact ⟨.refl _, id, rfl, id, .inl ⟨rfl, rfl⟩, id, id, fun _ => rfl⟩
  | joinReader | joinErrors => exact .refl s

/-- A thread on the way of a call, or in charge of a session that has begun, goes on. -/
theorem proceed (k : Kernel W) (o : ClientOptions) (s : ClientRun W) (thread : Nat)
    (message : Outgoing) (answers : List WriteAnswer) (late : Bool)
    (hfresh : (s.shared.place thread).isFresh = false) :
    Calm s (s.proceed k o thread message answers late) := by
  have hnot : s.shared.place thread ≠ .launched := by
    intro hc
    simp [hc, ThreadPlace.isFresh] at hfresh
  by_cases hordinary : (s.shared.place thread).isQuiet = true ∧ s.shared.place thread ≠ .stopping
  case pos =>
    obtain ⟨well, writer, wire, opening, hnext, hworn⟩ :=
      exists_proceed k o s thread message answers late hordinary.1 hordinary.2
    rw [hnext]
    exact ⟨hworn, id, rfl, id, .inl ⟨SessionRun.reader_take hnot, rfl⟩, id, id, id⟩
  case neg =>
    unfold ClientRun.proceed
    cases hp : s.shared.place thread with
    | settling =>
        show Calm s (s.settle thread)
        unfold settle
        split
        · exact (Calm.go hnot).trans .of_callers
        · exact (Calm.noteOpening s .opening _).trans (.go hnot)
    | openingFailed | ending => exact Calm.of_callers.trans (.go hnot)
    | turningOff stage =>
        show Calm s (s.turnOff thread)
        unfold turnOff
        split
        · exact .go hnot
        · exact (Calm.go hnot).trans .of_callers
        · exact (Calm.go hnot).trans .of_callers
    | stopping =>
        show Calm s (s.tidy k o thread)
        unfold tidy
        split
        · exact (Calm.go hnot).trans .of_callers
        · split
          · exact .refl s
          · exact (Calm.perform k o s _).trans .of_callers
    | launching | launched => simp [hp, ThreadPlace.isFresh] at hfresh
    | _ => simp [hp, ThreadPlace.isQuiet] at hordinary

theorem failReading (s : ClientRun W) (readEnd : ReadEnd) (hfits : s.TaskFits)
    (hreading : s.shared.reader = .reading) : Calm s (s.failReading readEnd) := by
  have htask := task_of_reading hfits hreading
  unfold ClientRun.failReading
  split
  · refine .of_running ?_ ?_
    · simp [readerWork, htask, hreading]
    · simp [TaskFits, SessionRun.step, hreading]
  · by_cases hflag : s.session.shuttingDown = true
    · refine .of_running ?_ ?_
      · simp [readerWork, SessionRun.step, htask, hreading, hflag]
      · simp [TaskFits, hflag]
    · refine .of_running ?_ ?_
      · simp [readerWork, htask, hreading, hflag]
      · simp [TaskFits, SessionRun.step, hreading, hflag]

theorem readOn (k : Kernel W) (o : ClientOptions) (s : ClientRun W) (hfits : s.TaskFits) :
    Calm s (s.readOn k o) := by
  unfold ClientRun.readOn
  split
  case h_1 htask =>
    have hstopped : s.shared.reader = .stopped := by simpa [TaskFits, htask] using hfits
    refine ⟨worn_close _, id, rfl, id, .inr ⟨?_, hstopped⟩, id, id, id⟩
    simp [readerWork, htask]
  case h_2 htask =>
    have hstopped : s.shared.reader = .stopped := by simpa [TaskFits, htask] using hfits
    have hkeep : Calm s (s.keep k (.terminate o.shutdownGrace)) := .keep (by simp)
    refine ⟨.refl _, hkeep.turns, hkeep.launches, hkeep.child, .inr ⟨?_, trivial⟩, id, id, id⟩
    simp [readerWork, htask, hstopped, ClientRun.keep]
  case h_3 htask =>
    have hkeep : Calm s (s.keep k .isAlive) := .keep (by simp)
    refine ⟨.refl _, hkeep.turns, hkeep.launches, hkeep.child, .inr ⟨?_, trivial⟩, id, id, id⟩
    simp [readerWork, htask, ClientRun.look]
  case h_4 htask =>
    cases hreader : s.shared.reader with
    | found cause =>
        refine .of_running ?_ (by simp [TaskFits, htask])
        simp [readerWork, htask, hreader, SessionRun.step]
    | _ => exact .of_reader (by simp [SessionRun.step, hreader])

theorem takeIn (s : ClientRun W) (arrival : Arrival) : Calm s (s.takeIn arrival) := by
  cases arrival with
  | reply id reply =>
      refine .of_reader ?_
      simp only [SessionRun.step]
      split <;> rfl
  | findings uri => exact .of_reader rfl
  | question reply answers => exact .write s reply answers

end Calm

/-- The move is not one of the two by which the backend is launched. -/
def IsLater (s : ClientRun W) (move : ClientMove W) : Prop :=
  ∀ thread message answers late, move = .proceed thread message answers late →
    (s.shared.place thread).isFresh = false

/-- Only whoever goes on launches anything. -/
theorem isLater_of_ne {move : ClientMove W}
    (h : ∀ thread message answers late, move ≠ .proceed thread message answers late) :
    s.IsLater move := fun _ _ _ _ hmove => absurd hmove (h _ _ _ _)

/-- **Nothing comes to life but by a launch.** -/
theorem calm_step (k : Kernel W) (o : ClientOptions) (s : ClientRun W) (hfits : s.TaskFits)
    {move : ClientMove W} (hlater : s.IsLater move) : Calm s (s.step k o move) := by
  cases move with
  | elsewhere change => exact ⟨.refl _, id, rfl, id, .inl ⟨rfl, rfl⟩, id, id, id⟩
  | start thread =>
      rw [step]
      split
      · split
        · exact .of_callers
        · refine .of_reader ?_
          simp only [SessionRun.step]
          split <;> rfl
      · exact .refl s
  | shutdown thread =>
      have hshared : Calm s { s with shared := s.shared.step (.shutdown thread) } := by
        refine .of_reader ?_
        simp only [SessionRun.step]
        split
        · split <;> rfl
        · rfl
      rw [step]
      split
      · split
        · exact hshared.trans .of_callers
        · exact hshared
      · exact .refl s
  | ask thread asking =>
      rw [step]
      split
      · split
        · exact .of_callers
        · split
          · refine .of_reader ?_
            simp only [SessionRun.step]
            split <;> rfl
          · exact .of_callers
      · exact .refl s
  | post thread message answers =>
      rw [step]
      split
      · exact (Calm.write s message answers).trans .of_callers
      · exact .refl s
  | proceed thread message answers late =>
      exact .proceed k o s thread message answers late (hlater _ _ _ _ rfl)
  | arrives arrival =>
      rw [step]
      split
      · exact .takeIn s arrival
      · exact .refl s
  | fails readEnd =>
      rw [step]
      split
      case isTrue hcan => exact .failReading s readEnd hfits hcan.1
      case isFalse => exact .refl s
  | readerGoesOn => exact .readOn k o s hfits
  | errorsEnd asked =>
      rw [step]
      split
      · exact ⟨.refl _, id, rfl, id, .inl ⟨rfl, rfl⟩, fun _ => by simp, id, id⟩
      · exact .refl s

/-! ### What a move does to the session -/

theorem exists_shared_proceed (k : Kernel W) (o : ClientOptions) (s : ClientRun W) (thread : Nat)
    (message : Outgoing) (answers : List WriteAnswer) (late : Bool) :
    (s.proceed k o thread message answers late).shared = s.shared
      ∨ ∃ well, (s.proceed k o thread message answers late).shared
        = s.shared.step (.proceed thread well) := by
  by_cases hordinary : (s.shared.place thread).isQuiet = true ∧ s.shared.place thread ≠ .stopping
  case pos =>
    obtain ⟨well, writer, wire, opening, hnext, -⟩ :=
      exists_proceed k o s thread message answers late hordinary.1 hordinary.2
    exact .inr ⟨well, by rw [hnext]⟩
  case neg =>
    unfold proceed
    cases hp : s.shared.place thread with
    | launching =>
        right
        show ∃ well, (s.launch k o thread).shared = _
        unfold launch
        split <;> exact ⟨_, rfl⟩
    | launched | openingFailed | ending => exact .inr ⟨true, rfl⟩
    | settling =>
        right
        show ∃ well, (s.settle thread).shared = _
        unfold settle
        split <;> exact ⟨true, rfl⟩
    | turningOff stage =>
        right
        show ∃ well, (s.turnOff thread).shared = _
        unfold turnOff
        split <;> exact ⟨true, rfl⟩
    | stopping =>
        show (s.tidy k o thread).shared = _ ∨ _
        unfold tidy
        split
        · exact .inr ⟨true, rfl⟩
        · split
          · exact .inl rfl
          case isFalse chore _ _ _ => cases chore <;> exact .inl rfl
    | _ => simp [hp, ThreadPlace.isQuiet] at hordinary

/-- The document in which a move tells that something was found. -/
def finding? (s : ClientRun W) : ClientMove W → Option Bytes
  | .arrives (.findings uri) => if s.shared.reader = .reading then some uri else none
  | _ => none

/-- What a move does to the session: it makes a move there, if it makes any. -/
inductive Does (s : ClientRun W) : ClientMove W → SessionRun → Prop
  | nothing (move : ClientMove W) (still : s.finding? move = none) : Does s move s.shared
  | start (thread : Nat) : Does s (.start thread) (s.shared.step (.start thread))
  | shutdown (thread : Nat) : Does s (.shutdown thread) (s.shared.step (.shutdown thread))
  | request (thread : Nat) (asking : Asking) :
      Does s (.ask thread asking) (s.shared.step (.request thread))
  | proceed (thread : Nat) (message : Outgoing) (answers : List WriteAnswer) (late well : Bool) :
      Does s (.proceed thread message answers late) (s.shared.step (.proceed thread well))
  | reply (id : Nat) (reply : CallEnd) :
      Does s (.arrives (.reply id reply)) (s.shared.step (.reply id reply))
  | publish (runs : s.shared.reader = .reading) (uri : Bytes) :
      Does s (.arrives (.findings uri)) (s.shared.publish uri)
  | breaks (readEnd : ReadEnd) :
      Does s (.fails readEnd) (s.shared.step (.breaks readEnd.failure))
  | ends (readEnd : ReadEnd) :
      Does s (.fails readEnd) (s.shared.step (.ends (backendExited none)))
  | find (runs : s.shared.reader ≠ .absent) (cause : Failure) :
      Does s .readerGoesOn { s.shared with reader := .found cause }
  | report : Does s .readerGoesOn (s.shared.step .report)

/-- **Every move does to the session what a thread or the reader does there.** -/
theorem does_step (k : Kernel W) (o : ClientOptions) (s : ClientRun W) (hfits : s.TaskFits)
    (move : ClientMove W) : s.Does move (s.step k o move).shared := by
  cases move with
  | elsewhere change => exact .nothing _ rfl
  | start thread =>
      rw [step]
      split
      · split
        · exact .nothing _ rfl
        · exact .start thread
      · exact .nothing _ rfl
  | shutdown thread =>
      rw [step]
      split
      · split <;> exact .shutdown thread
      · exact .nothing _ rfl
  | ask thread asking =>
      rw [step]
      split
      · split
        · exact .nothing _ rfl
        · split
          · exact .request thread asking
          · exact .nothing _ rfl
      · exact .nothing _ rfl
  | post thread message answers =>
      rw [step]
      split <;> exact .nothing _ rfl
  | proceed thread message answers late =>
      rcases exists_shared_proceed k o s thread message answers late with hsame | ⟨well, hmove⟩
      · rw [step, hsame]
        exact .nothing _ rfl
      · rw [step, hmove]
        exact .proceed thread message answers late well
  | arrives arrival =>
      rw [step]
      split
      case isTrue hreading =>
        cases arrival with
        | reply id reply => exact .reply id reply
        | findings uri => exact .publish hreading uri
        | question reply answers => exact .nothing _ rfl
      case isFalse hnot =>
        refine .nothing _ ?_
        cases arrival with
        | findings uri => simp [finding?, hnot]
        | reply | question => rfl
  | fails readEnd =>
      rw [step]
      split
      · unfold failReading
        split
        · exact .breaks readEnd
        · exact .ends readEnd
      · exact .nothing _ rfl
  | readerGoesOn =>
      rw [step]
      unfold readOn
      split
      case h_3 htask =>
        have hfound : ∃ cause, s.shared.reader = .found cause := by
          simpa [TaskFits, htask] using hfits
        obtain ⟨cause, hfound⟩ := hfound
        exact .find (by simp [hfound]) _
      case h_4 => exact .report
      all_goals exact .nothing _ rfl
  | errorsEnd asked =>
      rw [step]
      split <;> exact .nothing _ rfl

theorem Does.stirred {move : ClientMove W} {next : SessionRun} (h : s.Does move next) :
    s.shared.Stirred (s.finding? move) next := by
  cases h with
  | nothing _ still => rw [still]; exact .still
  | publish runs uri => simpa [finding?, runs] using .publish runs uri
  | find runs cause => exact .find runs cause
  | reply | start | shutdown | request | proceed | breaks | ends | report => exact .move _

/-- Only a launch makes a stream. -/
theorem Does.connected {move : ClientMove W} {next : SessionRun} (h : s.Does move next)
    (hlater : s.IsLater move) : next.ledger.session.connected = s.session.connected := by
  cases h with
  | nothing | publish | find => rfl
  | proceed thread message answers late well =>
      refine SessionRun.connected_step ?_
      rintro _ _ ⟨⟩
      exact hlater thread message answers late rfl
  | reply | start | shutdown | request | breaks | ends | report =>
      exact SessionRun.connected_step nofun

theorem stirred_step (k : Kernel W) (o : ClientOptions) (s : ClientRun W) (hfits : s.TaskFits)
    (move : ClientMove W) : s.shared.Stirred (s.finding? move) (s.step k o move).shared :=
  (does_step k o s hfits move).stirred

/-! ### Coherent clients -/

/-- There is nothing beside the callers. -/
structure Bare (s : ClientRun W) : Prop where
  writer : s.writer = none
  child : s.keeper.presumesAlive = false
  reader : s.ReaderGone
  errors : s.errors ≠ .running

theorem Calm.bare (h : Calm s s') (hbare : s.Bare) : s'.Bare where
  writer := by
    refine Option.eq_none_iff_forall_not_mem.mpr fun x hx => ?_
    obtain ⟨y, hy, -⟩ := h.writer x hx
    simp [hbare.writer] at hy
  child := h.child hbare.child
  reader := h.readerGone hbare.reader
  errors := h.errors hbare.errors

/-- There was one launch at most, and there is a stream to the backend exactly if it went well. -/
def LaunchesFit (s : ClientRun W) : Prop :=
  if s.session.connected = true then s.keeping.launches = [none]
  else s.keeping.launches = []
    ∨ s.session.stage = .terminated ∧ ∃ failure, s.keeping.launches = [some failure]

theorem launchesFit_of_connected (hsome : s.session.connected = true)
    (hlaunches : s.keeping.launches = [none]) : s.LaunchesFit := by
  unfold LaunchesFit
  rwa [if_pos hsome]

/-- What holds of a client at any time. -/
structure Coherent (s : ClientRun W) : Prop where
  /-- The session is in order. -/
  steady : s.shared.Steady
  /-- The keeper came to its state by its turns. -/
  history : Supervisor.History s.keeping.history s.keeper
  launches : s.LaunchesFit
  /-- There is nothing beside the callers as long as there is no stream to a backend. -/
  bare : s.session.connected = false → s.Bare
  /-- What the reader has yet to do fits to where it stands. -/
  task : s.TaskFits

theorem coherent_fresh (world : W) : Coherent (fresh world) where
  steady := .start
  history := .fresh
  launches := .inl rfl
  bare _ := ⟨rfl, rfl, ⟨.inl rfl, rfl⟩, by simp [fresh]⟩
  task := trivial

namespace Coherent

/-- A move that is not one of a launch. -/
theorem of_calm (h : Coherent s) (hcalm : Calm s s') {found : Option Bytes}
    (hstirred : s.shared.Stirred found s'.shared)
    (hconnected : s'.session.connected = s.session.connected) : Coherent s' := by
  refine ⟨h.steady.stirred hstirred, hcalm.turns h.history, ?_, ?_, hcalm.taskFits h.task⟩
  · have hfits := h.launches
    unfold LaunchesFit at hfits ⊢
    rw [hcalm.launches, hconnected]
    split at hfits
    case isTrue hsome => rwa [if_pos hsome]
    case isFalse hnone =>
      rw [if_neg hnone]
      exact hfits.imp_right fun ⟨hover, hfailed⟩ =>
        ⟨(hstirred.precedes h.steady).stays_terminated hover, hfailed⟩
  · intro hnone
    exact hcalm.bare (h.bare (hconnected ▸ hnone))

/-- A session that has not begun has no reader. -/
theorem task_of_unstarted (h : Coherent s) (hstage : s.session.stage = .unstarted) :
    s.task = .nothing := by
  have hreader := h.steady.orderly.reader hstage
  have hfits := h.task
  unfold TaskFits at hfits
  cases htask : s.task with
  | nothing => rfl
  | look | closeWriter | expel => simp [htask, hreader] at hfits

/-- Nothing was launched before. -/
theorem unlaunched (h : Coherent s) {thread : Nat} (hplace : s.shared.place thread = .launching) :
    s.session.stage = .unstarted ∧ s.session.connected = false ∧ s.keeping.launches = [] := by
  have hseat := h.steady.orderly.seats thread
  rw [hplace] at hseat
  have hnone : s.session.connected = false :=
    h.steady.unlaunched (SessionRun.busy_of_lock (hseat.lock rfl) ▸ hplace)
  have hstage : s.session.stage = .unstarted := hseat.fresh rfl
  have hfits := h.launches
  exact ⟨hstage, hnone, by simpa [LaunchesFit, hnone, hstage] using hfits⟩

/-- The backend is launched, or cannot be. -/
theorem launch (h : Coherent s) {thread : Nat} (hplace : s.shared.place thread = .launching) :
    Coherent (s.launch k o thread) := by
  obtain ⟨hstage, hnone, hbefore⟩ := h.unlaunched hplace
  have hspawn := s.keeping.launches_spawn k o.plan
  rw [hbefore, List.nil_append] at hspawn
  have htask := h.task_of_unstarted hstage
  unfold ClientRun.launch
  split
  case h_1 failure hfailure =>
    have hover : (s.shared.step (.proceed thread false)).ledger.session.stage = .terminated
        ∧ (s.shared.step (.proceed thread false)).ledger.session.connected = false := by
      simp [SessionRun.step, hplace, ThreadPlace.turn, Session.launchFailed, hnone]
    have hbare := h.bare hnone
    rw [hfailure] at hspawn
    refine ⟨SessionRun.steady_step h.steady (.proceed thread false),
      KeeperRun.history_step _ h.history, ?_, fun _ => ⟨hbare.writer, ?_, ?_, hbare.errors⟩,
      taskFits_of_nothing htask⟩
    · have hnot : ¬(s.shared.step (.proceed thread false)).ledger.session.connected = true := by
        simp [hover.2]
      exact (if_neg hnot).mpr (.inr ⟨hover.1, failure, hspawn⟩)
    · refine KeeperRun.presumesAlive_step (fun plan hc => ?_) hbare.child
      simp [hc, Exchange.launchFailure?] at hfailure
    · have hreader : (s.shared.step (.proceed thread false)).reader = s.shared.reader :=
        SessionRun.reader_take (by simp [hplace])
      exact ⟨hbare.reader.1.imp hreader.trans hreader.trans, hbare.reader.2⟩
  case h_2 hsuccess =>
    have hsome : (s.shared.step (.proceed thread true)).ledger.session.connected = true := by
      simp [SessionRun.step, hplace, ThreadPlace.turn]
    rw [hsuccess] at hspawn
    refine ⟨SessionRun.steady_step h.steady (.proceed thread true), ?_,
      launchesFit_of_connected hsome ?_, fun hc => absurd (hsome.symm.trans hc) (by decide),
      taskFits_of_nothing htask⟩
    · exact KeeperRun.history_step _ (KeeperRun.history_step _ (KeeperRun.history_step _
        (KeeperRun.history_step _ h.history)))
    · exact (KeeperRun.launches_step k _ (by simp)).trans ((KeeperRun.launches_step k _ (by simp)).trans
        ((KeeperRun.launches_step k _ (by simp)).trans hspawn))

/-- The threads beside the callers begin. -/
theorem equip (h : Coherent s) {thread : Nat} (hplace : s.shared.place thread = .launched) :
    Coherent ({ s with errors := .running }.go thread true) := by
  have hseat := h.steady.orderly.seats thread
  rw [hplace] at hseat
  have hstage : s.session.stage = .unstarted := hseat.fresh rfl
  have hbefore : s.session.connected = true :=
    (h.steady.launched hstage).mpr (SessionRun.busy_of_lock (hseat.lock rfl) ▸ hplace)
  have hsome : (s.shared.step (.proceed thread true)).ledger.session.connected = true := by
    simp [SessionRun.step, hplace, ThreadPlace.turn, Session.connect]
  refine ⟨SessionRun.steady_step h.steady (.proceed thread true), h.history,
    launchesFit_of_connected hsome ?_, fun hc => absurd (hsome.symm.trans hc) (by decide),
    taskFits_of_nothing (h.task_of_unstarted hstage)⟩
  have hfits := h.launches
  rwa [LaunchesFit, if_pos hbefore] at hfits

end Coherent

/-- **Whatever happens to a client, it stays coherent.** -/
theorem coherent_step (h : Coherent s) (move : ClientMove W) : Coherent (s.step k o move) := by
  by_cases hlater : s.IsLater move
  case pos =>
    have hdoes := does_step k o s h.task move
    exact h.of_calm (calm_step k o s h.task hlater) hdoes.stirred (hdoes.connected hlater)
  case neg =>
    unfold IsLater at hlater
    push Not at hlater
    obtain ⟨thread, message, answers, late, rfl, hplace⟩ := hlater
    rw [step]
    unfold proceed
    cases hp : s.shared.place thread with
    | launching => exact h.launch hp
    | launched => exact h.equip hp
    | _ => simp [hp, ThreadPlace.isFresh] at hplace

/-- The session does not go back, and nothing in its books is taken back. -/
theorem precedes_step (h : Coherent s) (move : ClientMove W) :
    Precedes s.shared.ledger (s.step k o move).shared.ledger :=
  (stirred_step k o s h.task move).precedes h.steady

/-- Every move is one of the things that happen to the shared state, but for the board. -/
theorem section_step (h : Coherent s) (move : ClientMove W) :
    ∃ l board, Section s.shared.ledger l
      ∧ (s.step k o move).shared.ledger = { l with session := { l.session with board } } := by
  have hstirred := stirred_step k o s h.task move
  generalize (s.step k o move).shared = next at hstirred ⊢
  generalize s.finding? move = found at hstirred
  cases hstirred with
  | still | publish | find => exact ⟨_, _, .look, rfl⟩
  | move m => exact ⟨_, _, (SessionRun.orderly_step h.steady.orderly m).1, rfl⟩

/-- There is a stream to the backend for good. -/
theorem stays_connected (h : Coherent s) (move : ClientMove W)
    (hsome : s.session.connected = true) : (s.step k o move).session.connected = true := by
  obtain ⟨l, board, hsection, hledger⟩ := section_step (k := k) (o := o) h move
  have hstays := SessionRun.stays_connected hsection hsome
  rwa [session, hledger]

/-- There is a stream exactly if the one launch went well. -/
theorem Coherent.connected_iff (h : Coherent s) :
    s.session.connected = true ↔ s.keeping.launches = [none] := by
  have hfits := h.launches
  unfold LaunchesFit at hfits
  split at hfits
  case isTrue hsome => exact iff_of_true hsome hfits
  case isFalse hnone =>
    refine iff_of_false hnone fun hc => ?_
    rcases hfits with hnever | ⟨-, failure, hfailed⟩
    · simp [hnever] at hc
    · simp [hfailed] at hc

/-- A session that has begun is not launched again. -/
theorem Coherent.isLater (h : Coherent s) (hbegun : s.session.stage ≠ .unstarted)
    (move : ClientMove W) : s.IsLater move :=
  fun thread _ _ _ _ => SessionRun.Steady.not_fresh h.steady.orderly hbegun thread

theorem precedes_run (h : Coherent s) (moves : List (ClientMove W)) :
    Precedes s.shared.ledger (s.run k o moves).shared.ledger := by
  induction moves generalizing s with
  | nil => exact .refl _
  | cons move rest ih => exact (precedes_step h move).trans (ih (coherent_step h move))

/-- A session that has begun without a stream gets none. -/
theorem stays_unconnected_run (h : Coherent s) (moves : List (ClientMove W))
    (hbegun : s.session.stage ≠ .unstarted) (hnone : s.session.connected = false) :
    (s.run k o moves).session.connected = false := by
  induction moves generalizing s with
  | nil => exact hnone
  | cons move rest ih =>
      have hsame := (does_step k o s h.task move).connected (h.isLater hbegun move)
      exact ih (coherent_step h move) ((precedes_step h move).begun hbegun) (hsame.trans hnone)

theorem stays_connected_run (h : Coherent s) (moves : List (ClientMove W))
    (hsome : s.session.connected = true) : (s.run k o moves).session.connected = true := by
  induction moves generalizing s with
  | nil => exact hsome
  | cons move rest ih => exact ih (coherent_step h move) (stays_connected h move hsome)

theorem coherent_run (h : Coherent s) (moves : List (ClientMove W)) : Coherent (s.run k o moves) := by
  induction moves generalizing s with
  | nil => exact h
  | cons move rest ih => exact ih (coherent_step h move)

end ClientRun

end AnalyzerBridge

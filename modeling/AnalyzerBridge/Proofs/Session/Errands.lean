/-
What whoever ends a session leaves undone, and for how long.

The thread that starts a session or shuts it down is in charge of it, and what it has noted belongs
to it: why the opening has failed, and what is left to be done before the session is closed.  All
that anyone else does is aside from that.

A session is closed when it is over and everything has been done that closes it.  Since nothing
beside the callers comes to life again, whatever was done stays done, and so it does not matter who
did it: a thread that starts a session and fails does a part of it, the reader does another part,
and whoever shuts the session down does it all, or finds that someone else has.
-/
import AnalyzerBridge.Proofs.Session.Coherence

namespace AnalyzerBridge

open Host (Kernel)
open AnalyzerBridge.Frame (Writer WriteAnswer Outgoing)
open Ledger (Section Sound Precedes)

variable {W : Type}

/-! ### Places -/

namespace ThreadPlace

/-- The opening has failed, and the session is not ended yet. -/
def isFailing : ThreadPlace → Bool
  | .unsent .opening _ | .cancelling .opening | .openingFailed => true
  | _ => false

/-- The session is shut down, and has not been ended yet. -/
def isClosing : ThreadPlace → Bool
  | .calling .closing | .sending .closing _ | .unsent .closing _ | .waiting .closing _
  | .cancelling .closing | .leaving | .ending => true
  | _ => false

variable {p : ThreadPlace} (l : Ledger) (thread : Nat) (well : Bool)

/-- On the way of a call nobody lets the lock go or comes to stop the session, and whoever shuts it
down goes on to. -/
theorem turn_of_isQuiet (h : p.isQuiet = true) (hnot : p ≠ .stopping) :
    (p.turn l thread well).releases = false ∧ (p.turn l thread well).place ≠ .stopping
      ∧ (p.isClosing = true → (p.turn l thread well).place.isClosing = true) := by
  cases p with
  | calling purpose =>
      rw [turn]
      split <;> cases purpose <;> simp [CallPurpose.after, isClosing]
  | sending purpose id => cases well <;> cases purpose <;> simp [turn, isClosing]
  | unsent purpose id => cases purpose <;> simp [turn, CallPurpose.after, isClosing]
  | waiting purpose id =>
      rw [turn]
      repeat' split
      all_goals cases purpose <;> simp [CallPurpose.after, isClosing]
  | cancelling purpose => cases purpose <;> simp [turn, CallPurpose.after, isClosing]
  | acknowledging =>
      rw [turn]
      split <;> simp [isClosing]
  | idle | leaving => simp [turn, isClosing]
  | stopping => exact absurd rfl hnot
  | _ => simp [isQuiet] at h

end ThreadPlace

/-- The caller has asked for something else than to start the session or to shut it down, or has
come too late to start it. -/
def ClientReply.isRefusal : ClientReply → Bool
  | .startRefused _ | .refused _ _ => true
  | .started _ | .shutDown => false

namespace ClientRun

variable {k : Kernel W} {o : ClientOptions} {s s' : ClientRun W}

/-! ### What is done -/

/-- A part of what closes a session is done, whoever did it. -/
def Achieved (s : ClientRun W) : Chore → Prop
  | .closeWriter => ∀ w ∈ s.writer, w.isOpen = false
  | .expel => s.keeper.presumesAlive = false
  | .askReader => s.ReaderGone ∨ s.readerAsked = true
  | .askErrors => s.errors ≠ .running ∨ s.errorsAsked = true
  | .joinReader => s.ReaderGone
  | .joinErrors => s.errors ≠ .running

/-- What was done stays done. -/
theorem Calm.achieved (h : Calm s s') {chore : Chore} (hdone : s.Achieved chore) :
    s'.Achieved chore := by
  cases chore with
  | closeWriter =>
      intro w' hw'
      obtain ⟨w, hw, hopen⟩ := h.writer w' hw'
      have hclosed := hdone w hw
      by_contra hc
      simp [hopen (by simpa using hc)] at hclosed
  | expel => exact h.child hdone
  | askReader => exact hdone.imp h.readerGone h.readerAsked
  | askErrors => exact hdone.imp h.errors h.errorsAsked
  | joinReader => exact h.readerGone hdone
  | joinErrors => exact h.errors hdone

/-- Whatever can be done is done after that. -/
theorem achieved_perform {chore : Chore} (h : ¬s.Blocked chore) :
    (s.perform k o chore).Achieved chore := by
  cases chore with
  | closeWriter =>
      intro w hw
      obtain ⟨x, -, rfl⟩ := Option.map_eq_some_iff.mp hw
      rfl
  | expel =>
      obtain ⟨calls, -, hturned⟩ := s.keeping.step_turned k (.terminate o.shutdownGrace)
      exact hturned.gone_of_terminates rfl
  | askReader | askErrors => exact .inr rfl
  | joinReader => exact of_not_not h
  | joinErrors => exact h

/-- Where there is nothing beside the callers, everything is done. -/
theorem Bare.achieved (h : s.Bare) (chore : Chore) : s.Achieved chore := by
  cases chore with
  | closeWriter =>
      intro w hw
      simp [h.writer] at hw
  | expel => exact h.child
  | askReader => exact .inl h.reader
  | askErrors => exact .inl h.errors
  | joinReader => exact h.reader
  | joinErrors => exact h.errors

/-- The session is over, and everything was done that closes it. -/
structure Closed (s : ClientRun W) : Prop where
  terminated : s.session.stage = .terminated
  done : ∀ chore ∈ Chore.farewell, s.Achieved chore

/-- A closed session stays closed. -/
theorem Closed.calm (h : s.Closed) (hcalm : Calm s s')
    (hnext : Precedes s.shared.ledger s'.shared.ledger) : s'.Closed :=
  ⟨hnext.stays_terminated h.terminated, fun chore hchore => hcalm.achieved (h.done chore hchore)⟩

/-! ### Who moves -/

/-- Nothing has happened to what belongs to whoever is in charge. -/
structure Aside (s s' : ClientRun W) : Prop where
  lock : s'.shared.lock = s.shared.lock
  busy : s'.shared.busy = s.shared.busy
  opening : s'.opening = s.opening
  chores : s'.chores = s.chores
  shuttingDown : s'.session.shuttingDown = s.session.shuttingDown
  told : ∃ refusals, s'.returned = s.returned ++ refusals
    ∧ ∀ told ∈ refusals, told.2.isRefusal = true

namespace Aside

/-- Nobody is told anything. -/
theorem nobody_told (s : ClientRun W) : ∃ refusals, s.returned = s.returned ++ refusals
    ∧ ∀ told ∈ refusals, told.2.isRefusal = true :=
  ⟨[], (List.append_nil _).symm, by simp⟩

theorem refl (s : ClientRun W) : Aside s s := ⟨rfl, rfl, rfl, rfl, rfl, nobody_told s⟩

/-- A change of what belongs to the reader, to the keeper, or to the writer. -/
theorem of_rest {keeping : KeeperRun W} {writer : Option Writer} {wire : Bytes} {task : ReaderTask}
    {readEnd : Option ReadEnd} {errors : Logging} {posting : List Nat} :
    Aside s { s with keeping, writer, wire, task, readEnd, errors, posting } :=
  ⟨rfl, rfl, rfl, rfl, rfl, nobody_told s⟩

/-- A change of the session in which every thread stays where it is. -/
theorem of_shared {l : Ledger} {reader : ReaderPlace} {keeping : KeeperRun W} {task : ReaderTask}
    {readEnd : Option ReadEnd} (h : l.session.shuttingDown = s.session.shuttingDown) :
    Aside s { s with shared := { s.shared with ledger := l, reader }, keeping, task, readEnd } :=
  ⟨rfl, rfl, rfl, rfl, h, nobody_told s⟩

/-- A caller is told that it is refused. -/
theorem reply {thread : Nat} {reply : ClientReply} (h : reply.isRefusal = true) :
    Aside s (s.reply thread reply) :=
  ⟨rfl, rfl, rfl, rfl, rfl, [(thread, reply)], rfl, by simpa using h⟩

/-- A thread without the lock goes on with its own call. -/
theorem proceed (h : Coherent s) (thread : Nat) (message : Outgoing)
    (answers : List WriteAnswer) (late : Bool) (hholds : (s.shared.place thread).holdsLock = false) :
    Aside s (s.proceed k o thread message answers late) := by
  have hlock : s.shared.lock ≠ some thread := by
    intro hc
    simp [h.steady.lock_iff.mp hc] at hholds
  have hquiet := ThreadPlace.isQuiet_of_not_holdsLock hholds
  have hnot : s.shared.place thread ≠ .stopping := by
    intro hc
    simp [hc, ThreadPlace.holdsLock] at hholds
  -- Its call opens nothing, so it notes nothing of the opening.
  have hopening : (s.proceed k o thread message answers late).opening = s.opening := by
    unfold ClientRun.proceed
    cases hp : s.shared.place thread with
    | idle | unsent => rfl
    | calling purpose | sending purpose | waiting purpose =>
        have hpurpose : purpose = .caller := by simpa [hp, ThreadPlace.holdsLock] using hholds
        subst hpurpose
        first | rfl | (simp only; split <;> rfl)
    | cancelling purpose =>
        obtain ⟨writer, wire, hnotify, -⟩ := s.exists_notify message answers
        simp only [hnotify]
        rfl
    | _ => simp [hp, ThreadPlace.holdsLock] at hholds
  obtain ⟨well, writer, wire, opening, hnext, -⟩ :=
    exists_proceed k o s thread message answers late hquiet hnot
  have hkeeps := (s.shared.place thread).turn_of_not_holdsLock s.shared.ledger thread well hholds
  have hcourse := (s.shared.place thread).sameCourse_turn s.shared.ledger thread well hquiet
  rw [hnext] at hopening ⊢
  exact ⟨if_neg (by simp [hkeeps.1]), SessionRun.busy_take_of_ne hlock hkeeps.1, hopening, rfl,
    hcourse.shuttingDown, nobody_told s⟩

end Aside

/-- The reader takes something in. -/
theorem aside_takeIn (s : ClientRun W) (arrival : Arrival) : Aside s (s.takeIn arrival) := by
  cases arrival with
  | reply id reply =>
      unfold takeIn
      simp only [SessionRun.step]
      split
      · exact .of_shared (Session.sameCourse_answer _ _ _).shuttingDown
      · exact .refl s
  | findings uri => exact .of_shared rfl
  | question reply answers => exact .of_rest

/-- The stream of the reader fails. -/
theorem aside_failReading (s : ClientRun W) (readEnd : ReadEnd) :
    Aside s (s.failReading readEnd) := by
  unfold failReading
  simp only [SessionRun.step]
  split
  · split
    · exact .of_shared (Session.shuttingDown_terminate _ _ _)
    · exact .of_rest
  · split
    · exact .of_shared rfl
    · exact .of_rest

/-- The reader goes on with what it has yet to do. -/
theorem aside_readOn (k : Kernel W) (o : ClientOptions) (s : ClientRun W) :
    Aside s (s.readOn k o) := by
  unfold readOn
  split
  case h_4 =>
    simp only [SessionRun.step]
    split
    · exact .of_shared (Session.shuttingDown_terminate _ _ _)
    · exact .refl s
  case h_3 => exact .of_shared rfl
  all_goals exact .of_rest

/-- The session as it is when a thread has taken the free lock. -/
def entered (s : ClientRun W) (thread : Nat) (p : ThreadPlace) : ClientRun W :=
  { s with shared := { s.shared.put thread p with lock := some thread } }

/-- Who makes a move, and what becomes of it. -/
inductive Moved (k : Kernel W) (o : ClientOptions) (s : ClientRun W) : ClientMove W → ClientRun W → Prop
  | aside {move : ClientMove W} {s' : ClientRun W} (later : s.IsLater move) (h : Aside s s') :
      Moved k o s move s'
  /-- A thread begins to start the session. -/
  | start (thread : Nat) (fresh : s.session.stage = .unstarted) (free : s.shared.lock = none) :
      Moved k o s (.start thread) (s.entered thread .launching)
  /-- A thread shuts a session down that was not started. -/
  | early (thread : Nat) (fresh : s.session.stage = .unstarted) (idle : s.shared.place thread = .idle)
      (free : s.shared.lock = none) :
      Moved k o s (.shutdown thread)
        ({ s with shared := s.shared.step (.shutdown thread) }.reply thread .shutDown)
  /-- A thread begins to shut the session down. -/
  | shutdown (thread : Nat) (begun : s.session.stage ≠ .unstarted) (free : s.shared.lock = none) :
      Moved k o s (.shutdown thread) (s.entered thread (.turningOff s.session.stage))
  /-- The thread in charge goes on. -/
  | proceed (thread : Nat) (holds : s.shared.lock = some thread) (message : Outgoing)
      (answers : List WriteAnswer) (late : Bool) :
      Moved k o s (.proceed thread message answers late)
        (s.proceed k o thread message answers late)

/-- A thread asks for something. -/
theorem aside_ask (h : Coherent s) (thread : Nat) (asking : Asking) :
    Aside s (s.step k o (.ask thread asking)) := by
  rw [step]
  split
  case isFalse => exact .refl s
  case isTrue hidle =>
    have hother : s.shared.lock ≠ some thread := by
      intro hc
      have hholds := h.steady.lock_iff.mp hc
      simp [hidle, ThreadPlace.holdsLock] at hholds
    split
    · exact .reply rfl
    · split
      · simp only [SessionRun.step]
        split
        · exact ⟨rfl, SessionRun.busy_put_of_ne hother, rfl, rfl, rfl, Aside.nobody_told s⟩
        · exact .refl s
      · exact .of_rest

/-- **Every move is one of the thread in charge, brings one in charge, or is aside.** -/
theorem moved_step (h : Coherent s) (move : ClientMove W) : Moved k o s move (s.step k o move) := by
  cases move with
  | elsewhere change => exact .aside (isLater_of_ne (by simp)) .of_rest
  | start thread =>
      rw [step]
      split
      case isFalse => exact .aside (isLater_of_ne (by simp)) (.refl s)
      case isTrue hcan =>
        split
        · exact .aside (isLater_of_ne (by simp)) (.reply rfl)
        case h_2 hrefusal =>
          have hfresh : s.session.stage = .unstarted := by
            by_contra hc
            simp [Session.startRefusal, hc] at hrefusal
          simp only [SessionRun.step]
          rw [if_pos ⟨hcan.1, hcan.2, hrefusal⟩]
          exact .start thread hfresh hcan.2
  | shutdown thread =>
      rw [step]
      split
      case isFalse => exact .aside (isLater_of_ne (by simp)) (.refl s)
      case isTrue hcan =>
        simp only
        split
        case isTrue hfresh => exact .early thread hfresh hcan.1 hcan.2
        case isFalse hbegun =>
          simp only [SessionRun.step]
          rw [if_pos hcan, if_neg hbegun]
          exact .shutdown thread hbegun hcan.2
  | ask thread asking => exact .aside (isLater_of_ne (by simp)) (aside_ask h thread asking)
  | post thread message answers =>
      rw [step]
      split
      · exact .aside (isLater_of_ne (by simp)) .of_rest
      · exact .aside (isLater_of_ne (by simp)) (.refl s)
  | proceed thread message answers late =>
      by_cases hlock : s.shared.lock = some thread
      · exact .proceed thread hlock message answers late
      · have hholds : (s.shared.place thread).holdsLock = false := by
          by_contra hc
          exact hlock (h.steady.lock_iff.mpr (by simpa using hc))
        refine .aside ?_ (.proceed h thread message answers late hholds)
        rintro _ _ _ _ ⟨⟩
        by_contra hc
        have hfresh := ThreadPlace.holdsLock_of_isFresh (by simpa using hc)
        simp [hfresh] at hholds
  | arrives arrival =>
      rw [step]
      split
      · exact .aside (isLater_of_ne (by simp)) (aside_takeIn s arrival)
      · exact .aside (isLater_of_ne (by simp)) (.refl s)
  | fails readEnd =>
      rw [step]
      split
      · exact .aside (isLater_of_ne (by simp)) (aside_failReading s readEnd)
      · exact .aside (isLater_of_ne (by simp)) (.refl s)
  | readerGoesOn => exact .aside (isLater_of_ne (by simp)) (aside_readOn k o s)
  | errorsEnd asked =>
      rw [step]
      split
      · exact .aside (isLater_of_ne (by simp)) .of_rest
      · exact .aside (isLater_of_ne (by simp)) (.refl s)

/-! ### What is left to be done -/

/-- What whoever stops a session that is over has to do. -/
def planned (s : ClientRun W) : List Chore :=
  if s.opening.isSome then Chore.halt else Chore.farewell

/-- Whoever is in charge, if anyone, does not stop the session yet. -/
structure Ahead (s : ClientRun W) : Prop where
  chores : s.chores = []
  /-- It is noted why the opening has failed as soon as it has. -/
  opening : s.opening.isSome = s.shared.busy.isFailing
  /-- A session that is shut down is closed, or someone is about to close it. -/
  shutting : s.session.shuttingDown = true → s.Closed ∨ s.shared.busy.isClosing = true

/-- Whoever is in charge stops the session. -/
structure Stopping (s : ClientRun W) : Prop where
  terminated : s.session.stage = .terminated
  /-- One thing is done after the other. -/
  order : s.chores <:+ Chore.farewell
  /-- What is not left to be done was done. -/
  done : ∀ chore ∈ s.planned, chore ∈ s.chores ∨ s.Achieved chore
  /-- Whoever starts the session finds it closed already if it is shut down. -/
  shutting : s.session.shuttingDown = true → s.Closed ∨ s.opening = none

/-- What is left to be done, and who does it. -/
structure Errands (s : ClientRun W) : Prop where
  ahead : s.shared.busy ≠ .stopping → s.Ahead
  stopping : s.shared.busy = .stopping → s.Stopping
  /-- Whoever has shut the session down has found it closed, or has closed it. -/
  told : ∀ thread, (thread, .shutDown) ∈ s.returned → s.Closed

theorem errands_fresh (world : W) : Errands (fresh world) where
  ahead _ := ⟨rfl, rfl, by simp [fresh]⟩
  stopping hbusy := by simp [fresh, SessionRun.busy] at hbusy
  told _ := by simp [fresh]

/-- Nobody closes the session, so it is closed if it was shut down. -/
theorem Ahead.closed (h : s.Ahead) (hbusy : s.shared.busy.isClosing = false)
    (hshutting : s.session.shuttingDown = true) : s.Closed :=
  (h.shutting hshutting).resolve_right (by simp [hbusy])

namespace Errands

/-- What happens aside leaves to whoever is in charge what is left to be done. -/
theorem of_aside (h : s.Errands) (haside : Aside s s') (hcalm : Calm s s')
    (hnext : Precedes s.shared.ledger s'.shared.ledger) : s'.Errands where
  ahead hbusy := by
    rw [haside.busy] at hbusy
    obtain ⟨hchores, hopening, hshutting⟩ := h.ahead hbusy
    refine ⟨haside.chores.trans hchores, ?_, fun hflag => ?_⟩
    · rw [haside.opening, haside.busy, hopening]
    · rw [haside.busy]
      exact (hshutting (haside.shuttingDown ▸ hflag)).imp_left (·.calm hcalm hnext)
  stopping hbusy := by
    rw [haside.busy] at hbusy
    obtain ⟨hover, horder, hdone, hshutting⟩ := h.stopping hbusy
    refine ⟨hnext.stays_terminated hover, haside.chores ▸ horder, fun chore hchore => ?_,
      fun hflag => ?_⟩
    · rw [haside.chores]
      refine (hdone chore ?_).imp_right hcalm.achieved
      rwa [planned, haside.opening] at hchore
    · rw [haside.opening]
      exact (hshutting (haside.shuttingDown ▸ hflag)).imp_left (·.calm hcalm hnext)
  told thread htold := by
    obtain ⟨refusals, hreturned, hrefused⟩ := haside.told
    rw [hreturned] at htold
    rcases List.mem_append.mp htold with hold | hrefusal
    · exact (h.told thread hold).calm hcalm hnext
    · exact absurd (hrefused _ hrefusal) (by simp [ClientReply.isRefusal])

end Errands

/-! ### The thread in charge -/

theorem isSome_noteOpening (h : s.opening.isSome = false) (purpose : CallPurpose)
    (failure : Option Failure) :
    (s.noteOpening purpose failure).opening.isSome
      = (decide (purpose = .opening) && failure.isSome) := by
  have hnone : s.opening = none := by simpa using h
  by_cases hpurpose : purpose = .opening <;> simp [noteOpening, hpurpose, hnone]

theorem isFailing_after (purpose : CallPurpose) :
    (purpose.after false).isFailing = decide (purpose = .opening) := by
  cases purpose <;> rfl

theorem isFailing_sending (l : Ledger) (thread : Nat) (purpose : CallPurpose) (id : Nat)
    (failure : Option Failure) :
    ((ThreadPlace.sending purpose id).turn l thread failure.isNone).place.isFailing
      = (decide (purpose = .opening) && failure.isSome) := by
  cases failure <;> cases purpose <;> rfl

theorem isFailing_waiting (s : ClientRun W) (thread : Nat) (purpose : CallPurpose) (id : Nat)
    (late : Bool) :
    ((ThreadPlace.waiting purpose id).turn s.shared.ledger thread (!late)).place.isFailing
      = (decide (purpose = .opening) && (s.waitFailure? o id late).isSome) := by
  simp only [waitFailure?, ThreadPlace.turn]
  cases hend : s.session.end? id with
  | some found =>
      cases found with
      | answered reply => cases purpose <;> rfl
      | failed cause => simp [isFailing_after]
  | none =>
      cases late with
      | false => simp [ThreadPlace.isFailing]
      | true =>
          by_cases hover : s.session.stage = .terminated
          · simp [hover, isFailing_after]
          · cases purpose <;> simp [hover, ThreadPlace.isFailing]

/-- The thread in charge notes why the opening has failed when it turns to that. -/
theorem exists_proceed_noting (k : Kernel W) (o : ClientOptions) (s : ClientRun W) (thread : Nat)
    (message : Outgoing) (answers : List WriteAnswer) (late : Bool)
    (hquiet : (s.shared.place thread).isQuiet = true) (hnot : s.shared.place thread ≠ .stopping)
    (hopening : s.opening.isSome = (s.shared.place thread).isFailing) :
    ∃ well writer wire opening, s.proceed k o thread message answers late
        = { s with shared := s.shared.step (.proceed thread well), writer, wire, opening }
      ∧ opening.isSome
        = ((s.shared.place thread).turn s.shared.ledger thread well).place.isFailing
      ∧ ∀ purpose id, s.shared.place thread = .waiting purpose id → well = !late := by
  unfold proceed
  cases hp : s.shared.place thread with
  | idle => exact ⟨true, _, _, _, rfl, by rw [hopening, hp]; rfl, (by simp)⟩
  | unsent purpose id =>
      refine ⟨true, _, _, _, rfl, ?_, (by simp)⟩
      rw [hopening, hp]
      cases purpose <;> rfl
  | calling purpose =>
      rw [hp] at hopening
      cases hregister : s.session.register with
      | ok registered =>
          refine ⟨true, _, _, _, rfl, ?_, (by simp)⟩
          simp [ThreadPlace.turn, hregister, hopening, ThreadPlace.isFailing]
      | error failure =>
          refine ⟨true, _, _, _, rfl, (isSome_noteOpening hopening _ _).trans ?_, (by simp)⟩
          simp [ThreadPlace.turn, hregister, isFailing_after]
  | sending purpose id =>
      rw [hp] at hopening
      refine ⟨_, _, _, _, rfl, (isSome_noteOpening hopening _ _).trans ?_, (by simp)⟩
      exact (isFailing_sending _ _ _ _ _).symm
  | waiting purpose id =>
      rw [hp] at hopening
      refine ⟨_, _, _, _, rfl, (isSome_noteOpening hopening _ _).trans ?_, fun _ _ _ => rfl⟩
      exact (isFailing_waiting s _ _ _ _).symm
  | cancelling purpose | leaving =>
      obtain ⟨writer, wire, hnotify, -⟩ := s.exists_notify message answers
      simp only [hnotify]
      refine ⟨true, _, _, _, rfl, ?_, (by simp)⟩
      rw [hopening, hp]
      first | rfl | (cases purpose <;> rfl)
  | acknowledging =>
      obtain ⟨writer, wire, hnotify, -⟩ := s.exists_notify message answers
      rw [hp] at hopening
      have hnone : ({ s with writer, wire } : ClientRun W).opening.isSome = false := hopening
      simp only [hnotify]
      refine ⟨_, _, _, _, rfl, (isSome_noteOpening hnone _ _).trans ?_, (by simp)⟩
      unfold notifyFailure? ThreadPlace.turn
      cases hrefusal : s.session.sendRefusal with
      | some failure => simp [ThreadPlace.isFailing]
      | none => cases s.writeFailure? message answers <;> simp [ThreadPlace.isFailing]
  | stopping => exact absurd hp hnot
  | _ => simp [hp, ThreadPlace.isQuiet] at hquiet

/-- A session that has not begun is not closed. -/
theorem Closed.begun (h : s.Closed) : s.session.stage ≠ .unstarted := by
  rw [h.terminated]
  decide

namespace Errands

/-- Where the thread in charge stands after its turn. -/
theorem busy_go {thread : Nat} (hlock : s.shared.lock = some thread) (well : Bool) :
    (s.shared.step (.proceed thread well)).busy
      = if ((s.shared.place thread).turn s.shared.ledger thread well).releases then .idle
        else ((s.shared.place thread).turn s.shared.ledger thread well).place :=
  SessionRun.busy_take hlock

/-- Whoever is told how a start has ended is not told that the session was shut down. -/
theorem mem_of_started {returned : List (Nat × ClientReply)} {thread other : Nat}
    {result : Except Failure Unit}
    (h : (other, .shutDown) ∈ returned ++ [(thread, .started result)]) :
    (other, .shutDown) ∈ returned := by
  rcases List.mem_append.mp h with hold | hnew
  · exact hold
  · simp at hnew

/-- The thread in charge goes to a place where it does not stop the session, and begins nothing. -/
theorem onward (he : s.Errands) {thread : Nat} (hlock : s.shared.lock = some thread) {well : Bool}
    (hshared : s'.shared = s.shared.step (.proceed thread well)) {p q : ThreadPlace}
    (hp : s.shared.place thread = p) (hnot : p ≠ .stopping)
    (hq : (if (p.turn s.shared.ledger thread well).releases then .idle
      else (p.turn s.shared.ledger thread well).place) = q) (hmoves : q ≠ .stopping)
    (hclosed : s.Closed → s'.Closed) (hchores : s'.chores = s.chores)
    (hopening : s'.opening.isSome = q.isFailing)
    (hflag : (p.turn s.shared.ledger thread well).ledger.session.shuttingDown
      = s.session.shuttingDown)
    (hcloses : p.isClosing = false ∨ q.isClosing = true)
    (htold : ∀ other, (other, .shutDown) ∈ s'.returned →
      (other, .shutDown) ∈ s.returned ∨ s.Closed) : s'.Errands := by
  have hbusy : s.shared.busy = p := (SessionRun.busy_of_lock hlock).trans hp
  have hplace : s'.shared.busy = q := by rw [hshared, busy_go hlock, hp, hq]
  have hsession : s'.session = (p.turn s.shared.ledger thread well).ledger.session := by
    rw [session, hshared, ← hp]
    rfl
  have hahead := he.ahead (hbusy ▸ hnot)
  refine ⟨fun _ => ⟨hchores.trans hahead.chores, ?_, fun hshutting => ?_⟩,
    fun hc => absurd (hplace ▸ hc) hmoves,
    fun other hc => hclosed ((htold other hc).elim (he.told other) id)⟩
  · rw [hplace, hopening]
  · rw [hsession, hflag] at hshutting
    have hbefore := hahead.shutting hshutting
    rw [hbusy] at hbefore
    rw [hplace]
    exact hbefore.imp hclosed fun hp => hcloses.resolve_left (by simp [hp])

/-- The thread in charge goes on with a call or a notification. -/
theorem quiet (h : Coherent s) (he : s.Errands) {thread : Nat}
    (hlock : s.shared.lock = some thread) (message : Outgoing) (answers : List WriteAnswer)
    (late : Bool) (hquiet : (s.shared.place thread).isQuiet = true)
    (hnot : s.shared.place thread ≠ .stopping) :
    (s.proceed k o thread message answers late).Errands := by
  have hbusy := SessionRun.busy_of_lock hlock
  have hahead := he.ahead (hbusy ▸ hnot)
  have hcalm : Calm s (s.proceed k o thread message answers late) := by
    refine .proceed k o s thread message answers late ?_
    revert hquiet
    cases s.shared.place thread <;> simp [ThreadPlace.isQuiet, ThreadPlace.isFresh]
  have hnext : Precedes s.shared.ledger (s.proceed k o thread message answers late).shared.ledger :=
    precedes_step h (.proceed thread message answers late)
  obtain ⟨well, writer, wire, opening, hstep, hopening, -⟩ :=
    exists_proceed_noting k o s thread message answers late hquiet hnot
      (hbusy ▸ hahead.opening)
  obtain ⟨hkeeps, hmoves, hcloses⟩ :=
    ThreadPlace.turn_of_isQuiet s.shared.ledger thread well hquiet hnot
  have hcourse := (s.shared.place thread).sameCourse_turn s.shared.ledger thread well hquiet
  rw [hstep] at hcalm hnext ⊢
  exact he.onward hlock rfl rfl hnot (by rw [hkeeps]; rfl) hmoves (·.calm hcalm hnext) rfl hopening
    hcourse.shuttingDown ((Bool.eq_false_or_eq_true _).symm.imp_right hcloses) fun _ => .inl

/-- The thread in charge launches the backend, and what runs beside the callers begins. -/
theorem launch (h : Coherent s) (he : s.Errands) {thread : Nat}
    (hlock : s.shared.lock = some thread) (message : Outgoing) (answers : List WriteAnswer)
    (late : Bool) (hfresh : (s.shared.place thread).isFresh = true) :
    (s.proceed k o thread message answers late).Errands := by
  have hbusy := SessionRun.busy_of_lock hlock
  have hstage : s.session.stage = .unstarted := (h.steady.orderly.seats thread).fresh hfresh
  have hnot : ¬s.Closed := fun hc => hc.begun hstage
  have hahead := he.ahead (by rw [hbusy]; intro hc; simp [hc, ThreadPlace.isFresh] at hfresh)
  have hopening := hahead.opening
  rw [hbusy] at hopening
  unfold proceed
  cases hp : s.shared.place thread with
  | launching =>
      rw [hp] at hopening
      show (s.launch k o thread).Errands
      unfold ClientRun.launch
      split
      · exact he.onward (q := .idle) hlock rfl hp (by simp) rfl (by simp) (absurd · hnot) rfl hopening
          rfl (.inl rfl) fun _ hc => .inl (mem_of_started hc)
      · exact he.onward (q := .launched) hlock rfl hp (by simp) rfl (by simp) (absurd · hnot) rfl
          hopening rfl (.inl rfl) fun _ => .inl
  | launched =>
      rw [hp] at hopening
      exact he.onward (q := .calling .opening) hlock rfl hp (by simp) rfl (by simp) (absurd · hnot) rfl
        hopening rfl (.inl rfl) fun _ => .inl
  | _ => simp [hp, ThreadPlace.isFresh] at hfresh

/-- The opening exchange is over. -/
theorem settle (he : s.Errands) {thread : Nat} (hlock : s.shared.lock = some thread)
    (hp : s.shared.place thread = .settling) (hclosed : s.Closed → (s.settle thread).Closed) :
    (s.settle thread).Errands := by
  have hbusy := (SessionRun.busy_of_lock hlock).trans hp
  have hopening := (he.ahead (by simp [hbusy])).opening
  rw [hbusy] at hopening
  unfold ClientRun.settle at hclosed ⊢
  cases hready : s.session.becomeReady with
  | ok session =>
      obtain ⟨-, rfl⟩ := Session.eq_of_becomeReady hready
      simp only [hready] at hclosed ⊢
      refine he.onward (q := .idle) hlock rfl hp (by simp) ?_ (by simp) hclosed rfl hopening ?_
        (.inl rfl) fun _ hc => .inl (mem_of_started hc)
      · simp [ThreadPlace.turn, hready]
      · simp [ThreadPlace.turn, hready]
  | error failure =>
      simp only [hready] at hclosed ⊢
      refine he.onward (q := .openingFailed) hlock rfl hp (by simp) ?_ (by simp) hclosed rfl rfl ?_
        (.inl rfl) fun _ => .inl
      · simp [ThreadPlace.turn, hready]
      · simp [ThreadPlace.turn, hready]

/-- The thread in charge has ended the session, and everything that closes it is left to be done. -/
theorem terminate (he : s.Errands) {thread : Nat} (hlock : s.shared.lock = some thread)
    {p : ThreadPlace} (hp : s.shared.place thread = p) {cause : Failure} {chores : List Chore}
    (hnot : p ≠ .stopping)
    (hturn : p.turn s.shared.ledger thread true
      = { ledger := s.shared.ledger.terminate cause false, place := .stopping })
    (hchores : chores = if p.isFailing then Chore.halt else Chore.farewell)
    (hshutting : p.isFailing = true → p.isClosing = false)
    (hclosed : s.Closed → ({ s with chores }.go thread true).Closed) :
    ({ s with chores }.go thread true).Errands := by
  have hbusy := (SessionRun.busy_of_lock hlock).trans hp
  have hahead := he.ahead (by rwa [hbusy])
  have hopening := hahead.opening
  rw [hbusy] at hopening
  have hplace : ({ s with chores }.go thread true).shared.busy = .stopping := by
    show (s.shared.step (.proceed thread true)).busy = .stopping
    rw [busy_go hlock, hp, hturn]
    rfl
  have hsession : ({ s with chores }.go thread true).session
      = (s.session.terminate cause false).2 := by
    show ((s.shared.place thread).turn s.shared.ledger thread true).ledger.session = _
    rw [hp, hturn]
    rfl
  refine ⟨fun hc => absurd hplace hc, fun _ => ⟨?_, ?_, fun chore hchore => .inl ?_, fun hflag => ?_⟩,
    fun other htold => hclosed (he.told other htold)⟩
  · rw [hsession]
    exact s.session.stage_terminate cause false
  · show chores <:+ Chore.farewell
    rw [hchores]
    split <;> decide
  · show chore ∈ chores
    rw [hchores, ← hopening]
    exact hchore
  · rw [hsession, Session.shuttingDown_terminate] at hflag
    rcases hahead.shutting hflag with hdone | hcloses
    · exact .inl (hclosed hdone)
    · rw [hbusy] at hcloses
      refine .inr (Option.not_isSome_iff_eq_none.mp fun hsome => ?_)
      simp [hshutting (hopening ▸ hsome)] at hcloses

/-- Whoever shuts the session down finds whether someone has done so before. -/
theorem turnOff (h : Coherent s) (he : s.Errands) {thread : Nat} (hlock : s.shared.lock = some thread)
    {stage : Stage} (hp : s.shared.place thread = .turningOff stage)
    (hclosed : s.Closed → (s.turnOff thread).Closed) : (s.turnOff thread).Errands := by
  have hbusy := (SessionRun.busy_of_lock hlock).trans hp
  have hahead := he.ahead (by simp [hbusy])
  have hopening := hahead.opening
  rw [hbusy] at hopening
  have hbegun : s.session.stage ≠ .unstarted := by
    have hseat := h.steady.orderly.seats thread
    rw [hp] at hseat
    exact hseat.begun (by simp) rfl
  unfold ClientRun.turnOff at hclosed ⊢
  by_cases hflag : s.session.shuttingDown = true
  · have hbegins : s.session.beginShutdown = (.begun, s.session) := by
      simp [Session.beginShutdown, hbegun, hflag]
    have hdone : s.Closed := hahead.closed (by simp [hbusy, ThreadPlace.isClosing]) hflag
    simp only [hbegins] at hclosed ⊢
    refine he.onward (q := .idle) hlock rfl hp (by simp) ?_ (by simp) hclosed rfl hopening ?_
      (.inl rfl) fun _ _ => .inr hdone
    · simp [ThreadPlace.turn, hbegins]
    · simp [ThreadPlace.turn, hbegins]
  · have hbegins : s.session.beginShutdown
        = (.fromStage s.session.stage, { s.session with shuttingDown := true }) := by
      simp [Session.beginShutdown, hbegun, hflag]
    simp only [hbegins] at hclosed ⊢
    have hplace : (s.go thread true).shared.busy
        = if stage = .ready then .calling .closing else .ending := by
      show (s.shared.step (.proceed thread true)).busy = _
      rw [busy_go hlock, hp]
      simp [ThreadPlace.turn, hbegins]
    have hcloses : (s.go thread true).shared.busy ≠ .stopping
        ∧ (s.go thread true).shared.busy.isFailing = false
        ∧ (s.go thread true).shared.busy.isClosing = true := by
      rw [hplace]
      split <;> simp [ThreadPlace.isFailing, ThreadPlace.isClosing]
    exact ⟨fun _ => ⟨hahead.chores, hopening.trans hcloses.2.1.symm, fun _ => .inr hcloses.2.2⟩,
      fun hc => absurd hc hcloses.1, fun other htold => hclosed (he.told other htold)⟩

/-- Nothing is left to be done that closes the session. -/
theorem closed_of_stopping (h : s.Stopping) (hchores : s.chores = []) (hopening : s.opening = none) :
    s.Closed := by
  refine ⟨h.terminated, fun chore hchore => (h.done chore ?_).resolve_left (by simp [hchores])⟩
  simpa [planned, hopening] using hchore

/-- Something of what closes the session is done, if it can be done. -/
theorem perform (h : s.Stopping) (hbusy : s.shared.busy = .stopping) (he : s.Errands)
    {chore : Chore} {rest : List Chore}
    (hchores : s.chores = chore :: rest) (hcan : ¬s.Blocked chore) :
    ({ s.perform k o chore with chores := rest } : ClientRun W).Errands := by
  have hcalm : Calm s { s.perform k o chore with chores := rest } :=
    (Calm.perform k o s chore).trans .of_callers
  have hframe : (s.perform k o chore).shared = s.shared
      ∧ (s.perform k o chore).opening = s.opening
      ∧ (s.perform k o chore).returned = s.returned := by
    cases chore <;> exact ⟨rfl, rfl, rfl⟩
  have hclosed : s.Closed → ({ s.perform k o chore with chores := rest } : ClientRun W).Closed := by
    refine fun hdone => hdone.calm hcalm ?_
    rw [hframe.1]
    exact .refl _
  have horder := h.order
  rw [hchores] at horder
  refine ⟨fun hc => absurd (hframe.1 ▸ hbusy) hc, fun _ => ⟨?_, ?_, fun other hother => ?_, ?_⟩, ?_⟩
  · rw [session, hframe.1]
    exact h.terminated
  · exact (List.suffix_cons chore rest).trans horder
  · rw [planned, hframe.2.1] at hother
    rcases h.done other hother with hleft | hdone
    · rw [hchores] at hleft
      rcases List.mem_cons.mp hleft with rfl | hrest
      · exact .inr (Calm.of_callers.achieved (achieved_perform hcan))
      · exact .inl hrest
    · exact .inr (hcalm.achieved hdone)
  · intro hflag
    rw [session, hframe.1] at hflag
    exact (h.shutting hflag).imp hclosed hframe.2.1.trans
  · intro other htold
    rw [hframe.2.2] at htold
    exact hclosed (he.told other htold)

/-- Whoever stops the session does what can be done, and goes when nothing is left. -/
theorem tidy (he : s.Errands) {thread : Nat} (hlock : s.shared.lock = some thread)
    (hp : s.shared.place thread = .stopping) (hclosed : s.Closed → (s.tidy k o thread).Closed) :
    (s.tidy k o thread).Errands := by
  have hbusy := (SessionRun.busy_of_lock hlock).trans hp
  have hstopping := he.stopping hbusy
  unfold ClientRun.tidy at hclosed ⊢
  split
  case h_1 hchores =>
    simp only [hchores] at hclosed
    have hplace : (s.go thread true).shared.busy = .idle := by
      show (s.shared.step (.proceed thread true)).busy = .idle
      rw [busy_go hlock, hp]
      rfl
    have hdone : s.opening = none → s.Closed := closed_of_stopping hstopping hchores
    refine ⟨fun _ => ⟨hchores, ?_, fun hflag => .inl (hclosed ?_)⟩, fun hc => ?_, fun other htold => ?_⟩
    · exact (congrArg ThreadPlace.isFailing hplace).symm
    · have hsame : s.session.shuttingDown = true := by
        have hturn : (s.shared.step (.proceed thread true)).ledger = s.shared.ledger := by
          simp [SessionRun.step, hp, ThreadPlace.turn]
        have hflag' : (s.shared.step (.proceed thread true)).ledger.session.shuttingDown = true := hflag
        rwa [hturn] at hflag'
      exact (hstopping.shutting hsame).elim id hdone
    · exact absurd (hplace.symm.trans hc) (by simp)
    · rcases List.mem_append.mp htold with hold | hnew
      · exact hclosed (he.told other hold)
      · have hword := (Prod.mk.inj (List.mem_singleton.mp hnew)).2
        refine hclosed (hdone ?_)
        unfold lastWord at hword
        split at hword
        · simp at hword
        case h_2 hnone => exact hnone
  case h_2 chore rest hchores =>
    split
    case isTrue => exact he
    case isFalse hcan => exact perform hstopping hbusy he hchores hcan

end Errands

/-- **Whoever is in charge goes on, and what is left to be done is known.** -/
theorem errands_proceed (h : Coherent s) (he : s.Errands) {thread : Nat}
    (hlock : s.shared.lock = some thread) (message : Outgoing) (answers : List WriteAnswer)
    (late : Bool) : (s.proceed k o thread message answers late).Errands := by
  by_cases hfresh : (s.shared.place thread).isFresh = true
  case pos => exact he.launch h hlock message answers late hfresh
  case neg =>
    have hclosed : s.Closed → (s.proceed k o thread message answers late).Closed := fun hc =>
      hc.calm (.proceed k o s thread message answers late (by simpa using hfresh))
        (precedes_step h (.proceed thread message answers late))
    by_cases hquiet : (s.shared.place thread).isQuiet = true ∧ s.shared.place thread ≠ .stopping
    case pos => exact he.quiet h hlock message answers late hquiet.1 hquiet.2
    case neg =>
      unfold proceed at hclosed ⊢
      cases hp : s.shared.place thread with
      | settling =>
          simp only [hp] at hclosed
          exact he.settle hlock hp hclosed
      | openingFailed =>
          simp only [hp] at hclosed
          exact he.terminate hlock hp (by simp) rfl rfl (fun _ => rfl) hclosed
      | turningOff stage =>
          simp only [hp] at hclosed
          exact he.turnOff h hlock hp hclosed
      | ending =>
          simp only [hp] at hclosed
          exact he.terminate hlock hp (by simp) rfl rfl (by simp [ThreadPlace.isFailing]) hclosed
      | stopping =>
          simp only [hp] at hclosed
          exact he.tidy hlock hp hclosed
      | launching | launched => simp [hp, ThreadPlace.isFresh] at hfresh
      | _ => simp [hp, ThreadPlace.isQuiet] at hquiet

theorem busy_entered (s : ClientRun W) (thread : Nat) (p : ThreadPlace) :
    (s.entered thread p).shared.busy = p := by
  simp [entered, SessionRun.busy, SessionRun.put]

/-- A thread comes to be in charge. -/
theorem errands_entered (he : s.Errands) (hfree : s.shared.lock = none) (thread : Nat)
    {p : ThreadPlace} (hnot : p ≠ .stopping) (hfailing : p.isFailing = false) :
    (s.entered thread p).Errands := by
  have hbusy := SessionRun.busy_of_free hfree
  have hahead := he.ahead (by simp [hbusy])
  have hplace := s.busy_entered thread p
  have hcalm : Calm s (s.entered thread p) := .of_reader rfl
  have hclosed : s.Closed → (s.entered thread p).Closed := (·.calm hcalm (.refl _))
  refine ⟨fun _ => ⟨hahead.chores, ?_, fun hflag => ?_⟩, fun hc => absurd (hplace ▸ hc) hnot,
    fun other htold => hclosed (he.told other htold)⟩
  · rw [hplace, hfailing]
    exact hahead.opening.trans (congrArg ThreadPlace.isFailing hbusy)
  · exact .inl (hclosed (hahead.closed (by rw [hbusy]; rfl) hflag))

/-- A session that was not started is shut down, and there is nothing to close. -/
theorem errands_early (h : Coherent s) (he : s.Errands) {thread : Nat}
    (hfresh : s.session.stage = .unstarted) (hidle : s.shared.place thread = .idle)
    (hfree : s.shared.lock = none) :
    ({ s with shared := s.shared.step (.shutdown thread) }.reply thread .shutDown).Errands := by
  have hbusy := SessionRun.busy_of_free hfree
  have hahead := he.ahead (by simp [hbusy])
  have hstep : s.shared.step (.shutdown thread) = { s.shared with
      ledger := { s.shared.ledger with session := { s.session with stage := .terminated } } } := by
    simp only [SessionRun.step]
    rw [if_pos ⟨hidle, hfree⟩, if_pos hfresh, Session.beginShutdown, if_pos hfresh]
  rw [hstep]
  have hbare := h.bare (h.steady.not_connected hfresh hfree)
  have hclosed : ({ s with shared := { s.shared with
      ledger := { s.shared.ledger with session := { s.session with stage := .terminated } } } }.reply
      thread .shutDown).Closed := by
    refine ⟨rfl, fun chore _ => ?_⟩
    exact ((Calm.of_reader rfl).trans .of_callers).achieved (hbare.achieved chore)
  refine ⟨fun _ => ⟨hahead.chores, ?_, fun _ => .inl hclosed⟩, fun hc => ?_, fun _ _ => hclosed⟩
  · exact hahead.opening.trans (congrArg ThreadPlace.isFailing (hbusy.trans
      (SessionRun.busy_of_free hfree).symm))
  · exact absurd (hc.symm.trans (SessionRun.busy_of_free hfree)) (by simp)

/-- **Whatever happens, what is left to be done is known.** -/
theorem errands_step (h : Coherent s) (he : s.Errands) (move : ClientMove W) :
    (s.step k o move).Errands := by
  have hnext := precedes_step (k := k) (o := o) h move
  have hmoved := moved_step (k := k) (o := o) h move
  generalize hs : s.step k o move = s' at hmoved hnext ⊢
  cases hmoved with
  | aside later haside => 
     rw [← hs] at haside hnext ⊢
     exact he.of_aside haside (calm_step k o s h.task later) hnext
  | start thread fresh free => exact errands_entered he free thread (by simp) rfl
  | early thread fresh idle free => exact errands_early h he fresh idle free
  | shutdown thread begun free => exact errands_entered he free thread (by simp) rfl
  | proceed thread holds message answers late => exact errands_proceed h he holds message answers late

/-- What everyone can rely on: what runs beside the callers is coherent, and what is left to be done is known. -/
theorem errands_run (h : Coherent s) (he : s.Errands) (moves : List (ClientMove W)) :
    (s.run k o moves).Errands := by
  induction moves generalizing s with
  | nil => exact he
  | cons move rest ih => exact ih (coherent_step h move) (errands_step h he move)

end ClientRun

end AnalyzerBridge

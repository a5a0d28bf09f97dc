/-
The course of a session, and who is in charge of it.

At most one thread starts the session or shuts it down at a time, and it has the lock for as long as
it does.  `busy` is where that thread stands; all others make calls, and a call changes nothing in
the course of the session.

`Steady` says what the course of a session has to do with the stream to the backend: there is one
exactly from the launch on, and the board of findings is closed exactly when a session that had one
is over.
-/
import AnalyzerBridge.Proofs.Session.LifeCycle

namespace AnalyzerBridge

open Ledger (Section Sound Precedes)

/-! ### Sessions that differ in their calls -/

/-- The sessions differ in their calls at most. -/
structure Session.SameCourse (s s' : Session) : Prop where
  stage : s'.stage = s.stage
  connected : s'.connected = s.connected
  cause : s'.cause = s.cause
  shuttingDown : s'.shuttingDown = s.shuttingDown
  board : s'.board = s.board

namespace Session

variable {s session : Session}

theorem SameCourse.refl (s : Session) : s.SameCourse s := ⟨rfl, rfl, rfl, rfl, rfl⟩

theorem sameCourse_register {id : Nat} (h : s.register = .ok (id, session)) :
    s.SameCourse session := by
  obtain ⟨-, rfl⟩ := eq_of_register h
  exact ⟨rfl, rfl, rfl, rfl, rfl⟩

theorem sameCourse_answer (s : Session) (id : Nat) (reply : CallEnd) :
    s.SameCourse (s.answer id reply).2 := by
  rw [answer]
  split
  · exact ⟨rfl, rfl, rfl, rfl, rfl⟩
  · exact .refl s

theorem connected_terminate (s : Session) (cause : Failure) (record : Bool) :
    (s.terminate cause record).2.connected = s.connected := by
  rw [terminate]
  split <;> rfl

theorem stage_terminate (s : Session) (cause : Failure) (record : Bool) :
    (s.terminate cause record).2.stage = .terminated := by
  rw [terminate]
  split
  case isTrue hover => exact hover
  case isFalse => rfl

theorem shuttingDown_terminate (s : Session) (cause : Failure) (record : Bool) :
    (s.terminate cause record).2.shuttingDown = s.shuttingDown := by
  rw [terminate]
  split <;> rfl

theorem connected_beginShutdown (s : Session) : s.beginShutdown.2.connected = s.connected := by
  rw [beginShutdown]
  split
  · rfl
  · split <;> rfl

/-- There is a stream while a session lasts, and the board is closed when one that had a stream is
over. -/
structure Streamed (s : Session) : Prop where
  live : s.stage ≠ .unstarted → s.stage ≠ .terminated → s.connected = true
  board : s.board.closed = true ↔ s.stage = .terminated ∧ s.connected = true

namespace Streamed

theorem of_sameCourse (h : s.Streamed) (hsame : s.SameCourse session) : session.Streamed := by
  obtain ⟨hstage, hconnected, -, -, hboard⟩ := hsame
  refine ⟨?_, ?_⟩
  · rw [hstage, hconnected]
    exact h.live
  · rw [hboard, hstage, hconnected]
    exact h.board

/-- The board of a session that is not over is open. -/
theorem board_open (h : s.Streamed) (hlive : s.stage ≠ .terminated) : s.board.closed = false := by
  by_contra hc
  exact hlive (h.board.mp (by simpa using hc)).1

theorem launchFailed (h : s.Streamed) (hnone : s.connected = false) : s.launchFailed.Streamed where
  live _ hlive := absurd rfl hlive
  board := by
    have hopen : s.board.closed = false := by
      by_contra hc
      simp [(h.board.mp (by simpa using hc)).2] at hnone
    simp [Session.launchFailed, hopen, hnone]

theorem attach (h : s.Streamed) (hstage : s.stage = .unstarted) :
    ({ s with connected := true } : Session).Streamed where
  live _ _ := rfl
  board := by simp [h.board_open (by simp [hstage]), hstage]

theorem connect (h : s.Streamed) (hstage : s.stage = .unstarted) : s.connect.Streamed where
  live _ _ := rfl
  board := by simp [Session.connect, h.board_open (by simp [hstage])]

theorem becomeReady (h : s.Streamed) (done : s.becomeReady = .ok session) : session.Streamed := by
  obtain ⟨hstage, rfl⟩ := eq_of_becomeReady done
  refine ⟨fun _ _ => h.live (by simp [hstage]) (by simp [hstage]), ?_⟩
  simp [h.board_open (by simp [hstage])]

/-- The end of a session closes the board, since a session that lasts has a stream. -/
theorem terminate (h : s.Streamed) (hbegun : s.stage ≠ .unstarted) (cause : Failure)
    (record : Bool) : (s.terminate cause record).2.Streamed := by
  rw [Session.terminate]
  split
  case isTrue => exact h
  case isFalse hlive =>
    refine ⟨fun _ hc => absurd rfl hc, ?_⟩
    simp [Lsp.DiagnosticBoard.close, h.live hbegun hlive]

theorem beginShutdown (h : s.Streamed) (hnone : s.stage = .unstarted → s.connected = false) :
    s.beginShutdown.2.Streamed := by
  rw [Session.beginShutdown]
  split
  case isTrue hstage => exact h.launchFailed (hnone hstage)
  case isFalse =>
    split
    · exact h
    · exact ⟨h.live, h.board⟩

theorem publish (h : s.Streamed) (uri : Bytes) :
    ({ s with board := s.board.publish uri () } : Session).Streamed := ⟨h.live, h.board⟩

end Streamed

end Session

/-! ### The lock -/

namespace ThreadPlace

variable {p : ThreadPlace} (l : Ledger) (thread : Nat) (well : Bool)

/-- A thread that goes on from here changes nothing in the course of the session. -/
def isQuiet : ThreadPlace → Bool
  | idle | calling _ | sending _ _ | unsent _ _ | waiting _ _ | cancelling _ | acknowledging
  | leaving | stopping => true
  | _ => false

theorem sameCourse_turn (h : p.isQuiet = true) :
    l.session.SameCourse (p.turn l thread well).ledger.session := by
  have hforget : ∀ id, l.session.SameCourse (l.session.forget id) :=
    fun _ => ⟨rfl, rfl, rfl, rfl, rfl⟩
  cases p with
  | calling purpose =>
      rw [turn]
      split
      case h_1 id session done => exact Session.sameCourse_register done
      case h_2 => exact .refl _
  | unsent purpose id => exact hforget id
  | waiting purpose id =>
      rw [turn]
      split
      · exact .refl _
      · exact .refl _
      · split
        · exact .refl _
        · split
          · exact hforget id
          · exact hforget id
  | acknowledging =>
      rw [turn]
      split <;> exact .refl _
  | idle | sending | cancelling | leaving | stopping => exact .refl _
  | _ => simp [isQuiet] at h

theorem isQuiet_of_not_holdsLock (h : p.holdsLock = false) : p.isQuiet = true := by
  cases p with
  | idle | calling | sending | unsent | waiting | cancelling => rfl
  | _ => simp [holdsLock] at h

/-- A thread without the lock stays without it. -/
theorem turn_of_not_holdsLock (h : p.holdsLock = false) :
    (p.turn l thread well).releases = false ∧ (p.turn l thread well).place.holdsLock = false := by
  have hcaller : ∀ {purpose : CallPurpose}, (purpose != .caller) = false →
      ∀ well, (purpose.after well).holdsLock = false := by
    intro purpose hpurpose well
    rwa [purpose.holdsLock_after]
  cases p with
  | idle => exact ⟨rfl, rfl⟩
  | calling purpose =>
      rw [turn]
      split
      · exact ⟨rfl, h⟩
      · exact ⟨rfl, hcaller h false⟩
  | sending purpose id => cases well <;> exact ⟨rfl, h⟩
  | unsent purpose id => exact ⟨rfl, hcaller h false⟩
  | waiting purpose id =>
      rw [turn]
      split
      · exact ⟨rfl, hcaller h true⟩
      · exact ⟨rfl, hcaller h false⟩
      · split
        · exact ⟨rfl, h⟩
        · split
          · exact ⟨rfl, hcaller h false⟩
          · exact ⟨rfl, h⟩
  | cancelling purpose => exact ⟨rfl, hcaller h false⟩
  | _ => simp [holdsLock] at h

/-- A thread keeps the lock until it has gone. -/
theorem releases_eq (h : p.holdsLock = true) :
    (p.turn l thread well).releases = !(p.turn l thread well).place.holdsLock := by
  have hafter : ∀ {purpose : CallPurpose}, (purpose != .caller) = true →
      ∀ well, false = !(purpose.after well).holdsLock := by
    intro purpose hpurpose well
    rw [purpose.holdsLock_after, hpurpose]
    rfl
  cases p with
  | idle => simp [holdsLock] at h
  | launching => cases well <;> rfl
  | calling purpose =>
      rw [turn]
      split
      · exact (congrArg not h).symm
      · exact hafter h false
  | sending purpose id => cases well <;> exact (congrArg not h).symm
  | unsent purpose id => exact hafter h false
  | waiting purpose id =>
      rw [turn]
      split
      · exact hafter h true
      · exact hafter h false
      · split
        · exact (congrArg not h).symm
        · split
          · exact hafter h false
          · exact (congrArg not h).symm
  | cancelling purpose => exact hafter h false
  | acknowledging =>
      rw [turn]
      split <;> rfl
  | settling =>
      rw [turn]
      split <;> rfl
  | turningOff stage =>
      rw [turn]
      split
      · by_cases hready : stage = .ready
        · simp [hready, holdsLock]
        · simp [hready, holdsLock]
      · rfl
  | launched | openingFailed | leaving | ending | stopping => rfl

/-- Once the session has begun, every turn leaves it with its stream and its board. -/
theorem streamed_turn (h : l.session.Streamed) (hbegun : l.session.stage ≠ .unstarted)
    (hfresh : p.isFresh = false) : (p.turn l thread well).ledger.session.Streamed := by
  by_cases hquiet : p.isQuiet = true
  case pos => exact h.of_sameCourse (sameCourse_turn l thread well hquiet)
  case neg =>
    cases p with
    | launching | launched => simp [isFresh] at hfresh
    | settling =>
        rw [turn]
        split
        case h_1 session done => exact h.becomeReady done
        case h_2 => exact h
    | openingFailed => exact h.terminate hbegun _ _
    | ending => exact h.terminate hbegun _ _
    | turningOff stage =>
        have hnext : l.session.beginShutdown.2.Streamed :=
          h.beginShutdown fun hc => absurd hc hbegun
        rw [turn]
        split
        case h_1 heq => rwa [heq] at hnext
        case h_2 heq => rwa [heq] at hnext
    | _ => exact absurd rfl hquiet

/-- Only a launch makes a stream. -/
theorem connected_turn (hfresh : p.isFresh = false) :
    (p.turn l thread well).ledger.session.connected = l.session.connected := by
  by_cases hquiet : p.isQuiet = true
  case pos => exact (sameCourse_turn l thread well hquiet).connected
  case neg =>
    cases p with
    | launching | launched => simp [isFresh] at hfresh
    | settling =>
        rw [turn]
        split
        case h_1 session done =>
          obtain ⟨-, rfl⟩ := Session.eq_of_becomeReady done
          rfl
        case h_2 => rfl
    | openingFailed => exact l.session.connected_terminate _ _
    | ending => exact l.session.connected_terminate _ _
    | turningOff stage =>
        have hnext := l.session.connected_beginShutdown
        rw [turn]
        split
        case h_1 heq => rwa [heq] at hnext
        case h_2 heq => rwa [heq] at hnext
    | _ => exact absurd rfl hquiet

end ThreadPlace

namespace SessionRun

variable {s : SessionRun} {thread : Nat} {turn : Turn}

/-- Where the thread stands that starts the session or shuts it down. -/
def busy (s : SessionRun) : ThreadPlace := s.lock.elim .idle s.place

theorem busy_of_lock (h : s.lock = some thread) : s.busy = s.place thread := by
  rw [busy, h]
  rfl

theorem busy_of_free (h : s.lock = none) : s.busy = .idle := by
  rw [busy, h]
  rfl

@[simp] theorem ledger_take : (s.take thread turn).ledger = turn.ledger := by
  simp only [take]

@[simp] theorem lock_take :
    (s.take thread turn).lock = if turn.releases then none else s.lock := rfl

theorem place_take (other : Nat) :
    (s.take thread turn).place other = if other = thread then turn.place else s.place other := by
  simp [take, put, Function.update_apply]

theorem reader_take (h : s.place thread ≠ .launched) : (s.take thread turn).reader = s.reader :=
  if_neg h

theorem busy_take (h : s.lock = some thread) :
    (s.take thread turn).busy = if turn.releases then .idle else turn.place := by
  unfold busy
  rw [lock_take]
  split
  · rfl
  · rw [h, Option.elim, place_take, if_pos rfl]

/-- What a thread without the lock does is nothing to the one that has it. -/
theorem busy_take_of_ne (h : s.lock ≠ some thread) (hkeeps : turn.releases = false) :
    (s.take thread turn).busy = s.busy := by
  unfold busy
  rw [lock_take, hkeeps]
  cases hlock : s.lock with
  | none => rfl
  | some holder =>
      have hother : holder ≠ thread := fun hc => h (by rw [hlock, hc])
      simp [place_take, hother]

theorem busy_put_of_ne {p : ThreadPlace} (h : s.lock ≠ some thread) :
    (s.put thread p).busy = s.busy := by
  unfold busy
  cases hlock : s.lock with
  | none => rw [show (s.put thread p).lock = none from hlock]; rfl
  | some holder =>
      have hother : holder ≠ thread := fun hc => h (by rw [hlock, hc])
      rw [show (s.put thread p).lock = some holder from hlock]
      simp [put, hother]

/-! ### Steady sessions -/

/-- The course of a session and the stream to the backend. -/
structure Steady (s : SessionRun) : Prop where
  /-- The books are in order, and every thread has what it relies on. -/
  orderly : s.Orderly
  /-- Whoever has the lock starts the session or shuts it down. -/
  manned : ∀ thread, s.lock = some thread → (s.place thread).holdsLock = true
  /-- There is no stream before the launch. -/
  unlaunched : s.busy = .launching → s.ledger.session.connected = false
  /-- There is one before the session has begun only if someone has just launched the backend. -/
  launched : s.ledger.session.stage = .unstarted →
    (s.ledger.session.connected = true ↔ s.busy = .launched)
  /-- There is one while the session lasts, and the board is open until it is over. -/
  streamed : s.ledger.session.Streamed

namespace Steady

theorem start : Steady {} where
  orderly := orderly_start
  manned _ := by simp
  unlaunched := by simp
  launched _ := by simp [busy]
  streamed := ⟨fun h => absurd rfl h, by simp⟩

theorem lock_iff (h : Steady s) : s.lock = some thread ↔ (s.place thread).holdsLock = true :=
  ⟨h.manned thread, (h.orderly.seats thread).lock⟩

/-- The session has begun once nobody is about to launch the backend. -/
theorem not_fresh (h : s.Orderly) (hbegun : s.ledger.session.stage ≠ .unstarted) (thread : Nat) :
    (s.place thread).isFresh = false := by
  by_contra hfresh
  exact hbegun ((h.seats thread).fresh (by simpa using hfresh))

theorem busy_not_fresh (h : s.Orderly) (hbegun : s.ledger.session.stage ≠ .unstarted) :
    s.busy.isFresh = false := by
  cases hlock : s.lock with
  | none => rw [busy_of_free hlock]; rfl
  | some thread => rw [busy_of_lock hlock]; exact not_fresh h hbegun thread

/-- Nobody has launched a backend before the session has begun if nobody is starting it. -/
theorem not_connected (h : Steady s) (hstage : s.ledger.session.stage = .unstarted)
    (hfree : s.lock = none) : s.ledger.session.connected = false := by
  by_contra hc
  have hbusy := (h.launched hstage).mp (by simpa using hc)
  rw [busy_of_free hfree] at hbusy
  simp at hbusy

/-- Once the session has begun, only its course matters. -/
theorem of_begun (horderly : s.Orderly)
    (hmanned : ∀ thread, s.lock = some thread → (s.place thread).holdsLock = true)
    (hbegun : s.ledger.session.stage ≠ .unstarted) (hstreamed : s.ledger.session.Streamed) :
    Steady s where
  orderly := horderly
  manned := hmanned
  unlaunched hbusy := by
    have hfresh := busy_not_fresh horderly hbegun
    rw [hbusy] at hfresh
    exact absurd hfresh (by decide)
  launched hstage := absurd hstage hbegun
  streamed := hstreamed

/-- Calls change nothing in the course of a session, wherever the thread with the lock stands. -/
theorem of_sameCourse (h : Steady s) {s' : SessionRun} (horderly : s'.Orderly)
    (hmanned : ∀ thread, s'.lock = some thread → (s'.place thread).holdsLock = true)
    (hcourse : s.ledger.session.SameCourse s'.ledger.session) (hbusy : s'.busy = s.busy) :
    Steady s' where
  orderly := horderly
  manned := hmanned
  unlaunched hc := by
    rw [hcourse.connected]
    exact h.unlaunched (hbusy ▸ hc)
  launched hc := by
    rw [hcourse.connected, hbusy]
    exact h.launched (hcourse.stage ▸ hc)
  streamed := h.streamed.of_sameCourse hcourse

theorem manned_take (h : Steady s) (thread : Nat) (well : Bool) (other : Nat)
    (hlock : (s.take thread ((s.place thread).turn s.ledger thread well)).lock = some other) :
    ((s.take thread ((s.place thread).turn s.ledger thread well)).place other).holdsLock = true := by
  rw [lock_take] at hlock
  split at hlock
  case isTrue => simp at hlock
  case isFalse hkeeps =>
    rw [place_take]
    split
    case isTrue hother =>
      subst hother
      have hreleases := (s.place other).releases_eq s.ledger other well (h.manned other hlock)
      simpa [hkeeps] using hreleases
    case isFalse => exact h.manned other hlock

/-- Whoever goes on leaves the session steady, wherever it stands. -/
theorem take (h : Steady s) (thread : Nat) (well : Bool) :
    Steady (s.take thread ((s.place thread).turn s.ledger thread well)) := by
  have horderly : (s.take thread ((s.place thread).turn s.ledger thread well)).Orderly :=
    (orderly_step h.orderly (.proceed thread well)).2
  have hmanned := h.manned_take thread well
  have hseat := h.orderly.seats thread
  by_cases hholds : (s.place thread).holdsLock = true
  case neg =>
    have hfree : (s.place thread).holdsLock = false := by simpa using hholds
    have hlock : s.lock ≠ some thread := fun hc => hholds (h.manned thread hc)
    exact h.of_sameCourse horderly hmanned
      (ThreadPlace.sameCourse_turn _ _ _ (ThreadPlace.isQuiet_of_not_holdsLock hfree))
      (busy_take_of_ne hlock (ThreadPlace.turn_of_not_holdsLock _ _ _ hfree).1)
  case pos =>
    have hlock : s.lock = some thread := h.lock_iff.mpr hholds
    have hplace := busy_of_lock hlock
    have hbusy : (s.take thread ((s.place thread).turn s.ledger thread well)).busy = _ :=
      busy_take hlock
    by_cases hfresh : (s.place thread).isFresh = true
    case neg =>
      have hbegun : s.ledger.session.stage ≠ .unstarted :=
        hseat.begun (by rintro hc; simp [hc, ThreadPlace.holdsLock] at hholds) (by simpa using hfresh)
      have hone := (orderly_step h.orderly (.proceed thread well)).1
      exact of_begun horderly hmanned (hone.precedes.begun hbegun)
        (ThreadPlace.streamed_turn _ _ _ h.streamed hbegun (by simpa using hfresh))
    case pos =>
      have hstage := hseat.fresh hfresh
      cases hp : s.place thread with
      | launching =>
          rw [hp] at hbusy horderly hmanned hplace
          have hnone := h.unlaunched hplace
          cases well with
          | true =>
              have hgoes : (s.take thread (ThreadPlace.launching.turn s.ledger thread true)).busy
                  = .launched := hbusy
              refine ⟨horderly, hmanned, ?_, fun _ => iff_of_true rfl hgoes, h.streamed.attach hstage⟩
              simp [hgoes]
          | false =>
              refine of_begun horderly hmanned ?_ (h.streamed.launchFailed hnone)
              simp [ThreadPlace.turn, Session.launchFailed]
      | launched =>
          rw [hp] at horderly hmanned
          refine of_begun horderly hmanned ?_ (h.streamed.connect hstage)
          simp [ThreadPlace.turn, Session.connect]
      | _ => simp [hp, ThreadPlace.isFresh] at hfresh

/-- A thread that comes from outside and takes the free lock. -/
theorem enter (h : Steady s) (hfree : s.lock = none) {p : ThreadPlace}
    (hholds : p.holdsLock = true) (hnot : p ≠ .launched)
    (horderly : Orderly { s.put thread p with lock := some thread }) :
    Steady { s.put thread p with lock := some thread } := by
  have hbusy : SessionRun.busy { s.put thread p with lock := some thread } = p := by
    simp [busy, put]
  refine ⟨horderly, ?_, fun hc => ?_, fun hstage => ?_, h.streamed⟩
  · intro other hother
    obtain rfl := Option.some.inj hother
    simpa [put] using hholds
  · rw [hbusy] at hc
    subst hc
    have hseat := horderly.seats thread
    exact h.not_connected (hseat.fresh (by simp [put, ThreadPlace.isFresh])) hfree
  · rw [hbusy]
    refine iff_of_false ?_ hnot
    show ¬s.ledger.session.connected = true
    simp [h.not_connected hstage hfree]

/-- The reader leaves the threads where they are. -/
theorem beside (h : Steady s) {l : Ledger} {reader : ReaderPlace}
    (horderly : Orderly { s with ledger := l, reader }) (hbegun : l.session.stage ≠ .unstarted)
    (hstreamed : l.session.Streamed) : Steady { s with ledger := l, reader } :=
  of_begun horderly h.manned hbegun hstreamed

/-- The reader ends the session. -/
theorem terminate (h : Steady s) {cause : Failure} {reader : ReaderPlace}
    (horderly : Orderly { s with ledger := s.ledger.terminate cause true, reader })
    (hbegun : s.ledger.session.stage ≠ .unstarted) :
    Steady { s with ledger := s.ledger.terminate cause true, reader } := by
  have hone : Section s.ledger (s.ledger.terminate cause true) := .terminate cause true
  exact h.beside horderly (hone.precedes.begun hbegun) (h.streamed.terminate hbegun cause true)

end Steady

/-- **Whatever happens in a session, it stays steady.** -/
theorem steady_step (h : Steady s) (move : SessionMove) : Steady (s.step move) := by
  have horderly := (orderly_step h.orderly move).2
  cases move with
  | start thread =>
      rw [step] at horderly ⊢
      split at horderly
      case isTrue hcan =>
        rw [if_pos hcan]
        exact h.enter hcan.2.1 rfl (by simp) horderly
      case isFalse hcannot =>
        rw [if_neg hcannot]
        exact h
  | shutdown thread =>
      rw [step] at horderly ⊢
      by_cases hcan : s.place thread = .idle ∧ s.lock = none
      case neg =>
        rw [if_neg hcan]
        exact h
      case pos =>
        rw [if_pos hcan] at horderly ⊢
        split at horderly
        case isTrue hstage =>
          rw [if_pos hstage]
          refine h.beside horderly ?_ (h.streamed.beginShutdown fun _ => ?_)
          · simp [Session.beginShutdown, hstage]
          · exact h.not_connected hstage hcan.2
        case isFalse hbegun =>
          rw [if_neg hbegun]
          exact h.enter hcan.2 rfl (by simp) horderly
  | request thread =>
      rw [step] at horderly ⊢
      split at horderly
      case isFalse hcannot =>
        rw [if_neg hcannot]
        exact h
      case isTrue hcan =>
        rw [if_pos hcan]
        have hother : ∀ other, s.lock = some other → other ≠ thread := by
          rintro other hlock rfl
          have hholds := h.manned other hlock
          simp [hcan.1, ThreadPlace.holdsLock] at hholds
        refine h.of_sameCourse horderly (fun other hlock => ?_) (.refl _)
          (busy_put_of_ne fun hc => hother thread hc rfl)
        simpa [put, hother other hlock] using h.manned other hlock
  | proceed thread well => exact h.take thread well
  | reply id reply =>
      rw [step] at horderly ⊢
      split at horderly
      case isTrue hreading =>
        rw [if_pos hreading]
        exact h.of_sameCourse horderly h.manned (Session.sameCourse_answer _ _ _) rfl
      case isFalse hnot =>
        rw [if_neg hnot]
        exact h
  | breaks cause =>
      rw [step] at horderly ⊢
      split at horderly
      case isTrue hreading =>
        rw [if_pos hreading]
        have hbegun := h.orderly.begun_of_reader (by simp [hreading])
        exact h.terminate horderly hbegun
      case isFalse hnot =>
        rw [if_neg hnot]
        exact h
  | ends cause =>
      rw [step] at horderly ⊢
      split at horderly
      case isTrue hreading =>
        rw [if_pos hreading]
        exact h.of_sameCourse horderly h.manned (.refl _) rfl
      case isFalse hnot =>
        rw [if_neg hnot]
        exact h
  | report =>
      rw [step] at horderly ⊢
      split at horderly
      case h_1 cause hfound =>
        have hbegun := h.orderly.begun_of_reader (by simp [hfound])
        simpa only [hfound] using h.terminate horderly hbegun
      case h_2 => exact h

/-- There is a stream to the backend for good. -/
theorem stays_connected {l l' : Ledger} (h : Section l l')
    (hold : l.session.connected = true) : l'.session.connected = true := by
  cases h with
  | look | launchFailed | dropUnsent | giveUp => exact hold
  | attach | connect => rfl
  | register _ _ done => rwa [(Session.sameCourse_register done).connected]
  | answer id reply => rwa [(Session.sameCourse_answer _ _ _).connected]
  | terminate cause record => exact (l.session.connected_terminate cause record).trans hold
  | becomeReady done =>
      obtain ⟨-, rfl⟩ := Session.eq_of_becomeReady done
      exact hold
  | beginShutdown => exact l.session.connected_beginShutdown.trans hold

/-- The move is not one of the two by which the backend is launched. -/
def IsLater (s : SessionRun) (move : SessionMove) : Prop :=
  ∀ thread well, move = .proceed thread well → (s.place thread).isFresh = false

/-- Only a launch makes a stream. -/
theorem connected_step {move : SessionMove} (hlater : s.IsLater move) :
    (s.step move).ledger.session.connected = s.ledger.session.connected := by
  cases move with
  | start thread | request thread =>
      rw [step]
      split <;> rfl
  | shutdown thread =>
      rw [step]
      split
      · split
        · exact s.ledger.session.connected_beginShutdown
        · rfl
      · rfl
  | proceed thread well => exact ThreadPlace.connected_turn _ _ _ (hlater thread well rfl)
  | reply id reply =>
      rw [step]
      split
      · exact (Session.sameCourse_answer _ _ _).connected
      · rfl
  | breaks cause =>
      rw [step]
      split
      · exact s.ledger.session.connected_terminate cause true
      · rfl
  | ends cause =>
      rw [step]
      split <;> rfl
  | report =>
      rw [step]
      split
      · exact s.ledger.session.connected_terminate _ true
      · rfl

end SessionRun

end AnalyzerBridge

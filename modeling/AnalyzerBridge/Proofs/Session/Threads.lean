/-
A session and the threads that share it.

Any number of threads start the session, make calls, or shut it down, and the reader of the
backend's output runs beside them.  A thread touches the shared state at single moments; between
two of them it stands at a `ThreadPlace`, and anything may happen before it goes on.  What lies
outside, whether the backend can be launched, takes the bytes or answers in time, turns out either
way.

Two locks take part in this.  The one that starting and shutting down hold from their first look to
their end is followed here, because without it a session could be started while it is shut
down.  The one that keeps frames apart is left out, and so is the waiting for the reader at the
end: both only take runs away.  A notification looks at the session and changes nothing.

The invariant has one part for the books, which `Ledger.Section` provides for, and one for each
thread, `Seated`: what it may rely on where it stands, whatever the others do.
-/
import Mathlib.Logic.Function.Basic
import AnalyzerBridge.Proofs.Session.Ledger

namespace AnalyzerBridge

/-! ### Where threads stand -/

/-- What a call is made for. -/
inductive CallPurpose where
  /-- A caller has asked for it. -/
  | caller
  /-- It opens the session. -/
  | opening
  /-- It announces the end of the session. -/
  | closing
  deriving DecidableEq, Repr

/-- Where a thread stands. -/
inductive ThreadPlace where
  /-- It is not in the client. -/
  | idle
  /-- It starts the session and is about to launch the backend. -/
  | launching
  /-- It has launched the backend, and there is a stream to it. -/
  | launched
  /-- It is about to register a call. -/
  | calling (purpose : CallPurpose)
  /-- It writes the frame of a call. -/
  | sending (purpose : CallPurpose) (id : Nat)
  /-- The frame of its call could not be written. -/
  | unsent (purpose : CallPurpose) (id : Nat)
  /-- It waits for the end of a call. -/
  | waiting (purpose : CallPurpose) (id : Nat)
  /-- It has given a call up and tells the backend. -/
  | cancelling (purpose : CallPurpose)
  /-- The opening call was answered, which it is about to acknowledge. -/
  | acknowledging
  /-- It is about to declare the session ready. -/
  | settling
  /-- The opening has failed. -/
  | openingFailed
  /-- It shuts the session down, which it has found at a stage. -/
  | turningOff (stage : Stage)
  /-- It takes leave of the backend. -/
  | leaving
  /-- It is about to end the session. -/
  | ending
  /-- The session is over, and what ran beside it is stopped. -/
  | stopping
  deriving DecidableEq, Repr

/-- Where a thread goes on after a call, which went well or not. -/
def CallPurpose.after : CallPurpose → Bool → ThreadPlace
  | caller, _ => .idle
  | opening, true => .acknowledging
  | opening, false => .openingFailed
  | closing, _ => .leaving

/-- Where the reader stands. -/
inductive ReaderPlace where
  /-- It does not run yet. -/
  | absent
  /-- It takes in what the backend writes. -/
  | reading
  /-- The stream has ended, for a reason that it is about to report. -/
  | found (cause : Failure)
  /-- It has stopped. -/
  | stopped
  deriving DecidableEq, Repr

/-- One turn of a thread: what it leaves behind. -/
structure Turn where
  /-- The books. -/
  ledger : Ledger
  /-- Where the thread stands. -/
  place : ThreadPlace
  /-- It gives the lock on starting and shutting down back. -/
  releases : Bool := false

/-- The failure of the calls that are pending when the session cannot be opened. -/
def startupFailed : Failure := { kind := .connectionClosed, message := ascii "startup failed" }

/-- The failure of the calls that are pending when the session is shut down. -/
def shutDown : Failure := { kind := .connectionClosed, message := ascii "client shut down" }

/-- The next turn of a thread that stands at a place.  `well` is how what lies outside turns out:
the backend can be launched, a frame is written, the deadline of a call has not come. -/
def ThreadPlace.turn (l : Ledger) (thread : Nat) (well : Bool) : ThreadPlace → Turn
  | idle => { ledger := l, place := idle }
  | launching =>
    if well then
      { ledger := { l with session := { l.session with connected := true } }, place := launched }
    else { ledger := { l with session := l.session.launchFailed }, place := idle, releases := true }
  | launched => { ledger := { l with session := l.session.connect }, place := calling .opening }
  | calling purpose =>
    match l.session.register with
    | .ok (id, session) =>
      { ledger := { l with session, registered := l.registered ++ [(id, thread)] }
        place := sending purpose id }
    | .error _ => { ledger := l, place := purpose.after false }
  | sending purpose id =>
    { ledger := l, place := if well then waiting purpose id else unsent purpose id }
  | unsent purpose id => { ledger := l.dropUnsent id, place := purpose.after false }
  | waiting purpose id =>
    match l.session.end? id with
    | some (.answered _) => { ledger := l, place := purpose.after true }
    | some (.failed _) => { ledger := l, place := purpose.after false }
    | none =>
      if well then { ledger := l, place := waiting purpose id }
      else if l.session.stage = .terminated then
        { ledger := l.giveUp id, place := purpose.after false }
      else { ledger := l.giveUp id, place := cancelling purpose }
  | cancelling purpose => { ledger := l, place := purpose.after false }
  | acknowledging =>
    if l.session.sendRefusal = none ∧ well = true then { ledger := l, place := settling }
    else { ledger := l, place := openingFailed }
  | settling =>
    match l.session.becomeReady with
    | .ok session => { ledger := { l with session }, place := idle, releases := true }
    | .error _ => { ledger := l, place := openingFailed }
  | openingFailed => { ledger := l.terminate startupFailed false, place := stopping }
  | turningOff stage =>
    match l.session.beginShutdown with
    | (.fromStage _, session) =>
      { ledger := { l with session }, place := if stage = .ready then calling .closing else ending }
    | (_, session) => { ledger := { l with session }, place := idle, releases := true }
  | leaving => { ledger := l, place := ending }
  | ending => { ledger := l.terminate shutDown false, place := stopping }
  | stopping => { ledger := l, place := idle, releases := true }

/-! ### All threads together -/

/-- Something that happens in a session that is shared. -/
inductive SessionMove where
  /-- A thread begins to start the session, once no other starts it or shuts it down. -/
  | start (thread : Nat)
  /-- A thread begins to shut the session down, once no other starts it or shuts it down. -/
  | shutdown (thread : Nat)
  /-- A thread makes a call. -/
  | request (thread : Nat)
  /-- A thread goes on from where it stands. -/
  | proceed (thread : Nat) (well : Bool)
  /-- The reader takes in an answer. -/
  | reply (id : Nat) (reply : CallEnd)
  /-- The reader comes upon something that is no frame. -/
  | breaks (cause : Failure)
  /-- The reader comes to the end of the stream. -/
  | ends (cause : Failure)
  /-- The reader reports why the stream has ended. -/
  | report

/-- A session and those who share it, between two moves. -/
structure SessionRun where
  /-- The session and what has happened to it. -/
  ledger : Ledger := {}
  /-- The thread that starts the session or shuts it down. -/
  lock : Option Nat := none
  /-- Where the reader stands. -/
  reader : ReaderPlace := .absent
  /-- Where each thread stands. -/
  place : Nat → ThreadPlace := fun _ => .idle

namespace SessionRun

open Ledger (Section Sound Precedes)

/-- A thread goes to another place. -/
def put (s : SessionRun) (thread : Nat) (place : ThreadPlace) : SessionRun :=
  { s with place := Function.update s.place thread place }

/-- A thread takes its turn.  With the stream to the backend there is a reader. -/
def take (s : SessionRun) (thread : Nat) (turn : Turn) : SessionRun :=
  { s.put thread turn.place with
    ledger := turn.ledger
    lock := if turn.releases then none else s.lock
    reader := if s.place thread = .launched then .reading else s.reader }

/-- What a move leaves.  A move that cannot be made leaves everything as it is. -/
def step (s : SessionRun) : SessionMove → SessionRun
  | .start thread =>
    if s.place thread = .idle ∧ s.lock = none ∧ s.ledger.session.startRefusal = none then
      { s.put thread .launching with lock := some thread }
    else s
  | .shutdown thread =>
    if s.place thread = .idle ∧ s.lock = none then
      if s.ledger.session.stage = .unstarted then
        { s with ledger := { s.ledger with session := s.ledger.session.beginShutdown.2 } }
      else { s.put thread (.turningOff s.ledger.session.stage) with lock := some thread }
    else s
  | .request thread =>
    if s.place thread = .idle ∧ s.ledger.session.callRefusal = none then
      s.put thread (.calling .caller)
    else s
  | .proceed thread well => s.take thread ((s.place thread).turn s.ledger thread well)
  | .reply id reply =>
    if s.reader = .reading then
      { s with ledger := { s.ledger with session := (s.ledger.session.answer id reply).2 } }
    else s
  | .breaks cause =>
    if s.reader = .reading then
      { s with ledger := s.ledger.terminate cause true, reader := .stopped }
    else s
  | .ends cause =>
    if s.reader = .reading then
      { s with reader := if s.ledger.session.shuttingDown then .stopped else .found cause }
    else s
  | .report =>
    match s.reader with
    | .found cause => { s with ledger := s.ledger.terminate cause true, reader := .stopped }
    | _ => s

/-- What a run of moves leaves. -/
def run (s : SessionRun) (moves : List SessionMove) : SessionRun := moves.foldl step s

end SessionRun

/-! ### What a thread may rely on -/

namespace ThreadPlace

/-- The place is one of starting or shutting down, which holds the lock. -/
def holdsLock : ThreadPlace → Bool
  | idle => false
  | calling purpose | sending purpose _ | unsent purpose _ | waiting purpose _
  | cancelling purpose => purpose != .caller
  | _ => true

/-- The session has not begun. -/
def isFresh : ThreadPlace → Bool
  | launching | launched => true
  | _ => false

/-- The call that the thread has to do with. -/
def call? : ThreadPlace → Option Nat
  | sending _ id | unsent _ id | waiting _ id => some id
  | _ => none

theorem holdsLock_of_isFresh {p : ThreadPlace} (h : p.isFresh = true) : p.holdsLock = true := by
  cases p with
  | launching | launched => rfl
  | _ => simp [isFresh] at h

end ThreadPlace

namespace CallPurpose

theorem isFresh_after (purpose : CallPurpose) (well : Bool) :
    (purpose.after well).isFresh = false := by
  cases purpose <;> cases well <;> rfl

theorem call?_after (purpose : CallPurpose) (well : Bool) : (purpose.after well).call? = none := by
  cases purpose <;> cases well <;> rfl

theorem holdsLock_after (purpose : CallPurpose) (well : Bool) :
    (purpose.after well).holdsLock = (purpose != .caller) := by
  cases purpose <;> cases well <;> rfl

end CallPurpose

open Ledger (Section Sound Precedes)

/-- What a thread may rely on where it stands. -/
structure Seated (l : Ledger) (lock : Option Nat) (thread : Nat) (p : ThreadPlace) : Prop where
  /-- It has the lock if it starts the session or shuts it down. -/
  lock : p.holdsLock = true → lock = some thread
  /-- The session has not begun while it launches the backend. -/
  fresh : p.isFresh = true → l.session.stage = .unstarted
  /-- The session has begun while it does anything else. -/
  begun : p ≠ .idle → p.isFresh = false → l.session.stage ≠ .unstarted
  /-- Its call was registered by it, and has been neither given up nor found unsent. -/
  call : ∀ id ∈ p.call?, (id, thread) ∈ l.registered ∧ id ∉ l.timedOut ∧ id ∉ l.unsent

namespace Seated

variable {l l' : Ledger} {lock lock' : Option Nat} {thread : Nat} {p q : ThreadPlace}

theorem idle (l : Ledger) (lock : Option Nat) (thread : Nat) : Seated l lock thread .idle where
  lock := by simp [ThreadPlace.holdsLock]
  fresh := by simp [ThreadPlace.isFresh]
  begun := by simp
  call := by simp [ThreadPlace.call?]

/-- A place without a call, once the session has begun. -/
theorem of_begun (hstage : l.session.stage ≠ .unstarted)
    (hlock : p.holdsLock = true → lock = some thread) (hfresh : p.isFresh = false)
    (hcall : p.call? = none) : Seated l lock thread p where
  lock := hlock
  fresh := by simp [hfresh]
  begun _ _ := hstage
  call := by simp [hcall]

/-- The place behind a call, once the session has begun. -/
theorem after {purpose : CallPurpose} (hstage : l.session.stage ≠ .unstarted)
    (hlock : (purpose != .caller) = true → lock = some thread) (well : Bool) :
    Seated l lock thread (purpose.after well) :=
  of_begun hstage (by rwa [purpose.holdsLock_after]) (purpose.isFresh_after well)
    (purpose.call?_after well)

/-- What others do leaves a thread what it relies on: the lock stays with it, nobody begins the
session while it is about to, and nobody settles its call. -/
theorem others (h : Seated l lock thread p) (hnext : Precedes l l')
    (hlock : lock = some thread → lock' = some thread)
    (hfresh : lock = some thread → l.session.stage = .unstarted → l'.session.stage = .unstarted)
    (hcall : ∀ id, (id, thread) ∈ l.registered → id ∉ l.timedOut → id ∉ l.unsent →
      id ∉ l'.timedOut ∧ id ∉ l'.unsent) : Seated l' lock' thread p where
  lock hp := hlock (h.lock hp)
  fresh hp := hfresh (h.lock (ThreadPlace.holdsLock_of_isFresh hp)) (h.fresh hp)
  begun hp hnot := hnext.begun (h.begun hp hnot)
  call id hid := by
    obtain ⟨hin, htimed, hunsent⟩ := h.call id hid
    exact ⟨hnext.registered.subset hin, hcall id hin htimed hunsent⟩

end Seated

/-! ### One turn -/

/-- What a turn of a thread does to the books, and what it leaves to itself and to the others. -/
structure Turn.Fair (l : Ledger) (lock : Option Nat) (thread : Nat) (turn : Turn) : Prop where
  /-- It is one of the things that happen to the shared state. -/
  inOne : Section l turn.ledger
  /-- Only a thread that has the lock gives it back. -/
  holder : turn.releases = true → lock = some thread
  /-- Only a thread that has the lock begins the session. -/
  beginner : l.session.stage = .unstarted → turn.ledger.session.stage ≠ .unstarted →
    lock = some thread
  /-- Only calls of its own are settled. -/
  own : ∀ id, id ∈ turn.ledger.timedOut ∨ id ∈ turn.ledger.unsent →
    (id ∈ l.timedOut ∨ id ∈ l.unsent) ∨ (id, thread) ∈ l.registered
  /-- It has what it relies on afterwards. -/
  seated : Seated turn.ledger (if turn.releases then none else lock) thread turn.place

section Turns

variable {l : Ledger} {lock : Option Nat} {thread : Nat}

/-- A turn that only looks and keeps the lock. -/
theorem Turn.Fair.look {p : ThreadPlace} (h : Seated l lock thread p) :
    Turn.Fair l lock thread { ledger := l, place := p } where
  inOne := .look
  holder := by simp
  beginner h h' := absurd h h'
  own _ := .inl
  seated := h

/-- A turn of a thread with the lock that changes the session and neither table of settled calls. -/
theorem Turn.Fair.of_holder {turn : Turn} (hlock : lock = some thread)
    (hone : Section l turn.ledger)
    (htimed : turn.ledger.timedOut = l.timedOut) (hunsent : turn.ledger.unsent = l.unsent)
    (hseated : Seated turn.ledger (if turn.releases then none else lock) thread turn.place) :
    Turn.Fair l lock thread turn where
  inOne := hone
  holder _ := hlock
  beginner _ _ := hlock
  own id := by
    rw [htimed, hunsent]
    exact .inl
  seated := hseated

/-- A turn that takes the thread's own call out of the table. -/
theorem Turn.Fair.of_settling {turn : Turn} {id : Nat} (hone : Section l turn.ledger)
    (hkeeps : turn.releases = false) (hstage : turn.ledger.session.stage = l.session.stage)
    (hsettled : ∀ other, other ∈ turn.ledger.timedOut ∨ other ∈ turn.ledger.unsent →
      (other ∈ l.timedOut ∨ other ∈ l.unsent) ∨ other = id)
    (hown : (id, thread) ∈ l.registered) (hseated : Seated turn.ledger lock thread turn.place) :
    Turn.Fair l lock thread turn where
  inOne := hone
  holder := by simp [hkeeps]
  beginner hfresh hbegun := absurd (hstage.trans hfresh) hbegun
  own other hother := by
    rcases hsettled other hother with hold | rfl
    · exact .inl hold
    · exact .inr hown
  seated := by rwa [hkeeps]

/-- A thread registers a call, and nothing has happened to a call that is registered just now. -/
theorem Turn.Fair.of_register (hs : Sound l) (hbegun : l.session.stage ≠ .unstarted)
    {purpose : CallPurpose} (hlock : (purpose != .caller) = true → lock = some thread) {id : Nat}
    {session : Session} (done : l.session.register = .ok (id, session)) :
    Turn.Fair l lock thread
      { ledger := { l with session, registered := l.registered ++ [(id, thread)] }
        place := .sending purpose id } where
  inOne := .register hbegun thread done
  holder := by simp
  beginner hc := absurd hc hbegun
  own _ := .inl
  seated := by
    obtain ⟨rfl, rfl⟩ := Session.eq_of_register done
    have hnew : ¬ l.IsSettled (l.session.lastId + 1) := by
      intro hc
      have hknown := hs.settledKnown _ hc
      rw [hs.numbers, List.mem_range'_1] at hknown
      omega
    refine ⟨hlock, by simp [ThreadPlace.isFresh], fun _ _ => hbegun, fun id hid => ?_⟩
    obtain rfl := Option.some.inj hid
    exact ⟨List.mem_append_right _ List.mem_cons_self, fun hc => hnew (.inr (.inl hc)),
      fun hc => hnew (.inr (.inr hc))⟩

/-- A thread with the lock ends the session. -/
theorem Turn.Fair.of_terminate (hlock : lock = some thread) (hbegun : l.session.stage ≠ .unstarted)
    (cause : Failure) :
    Turn.Fair l lock thread { ledger := l.terminate cause false, place := .stopping } := by
  have hone : Section l (l.terminate cause false) := .terminate cause false
  exact .of_holder hlock hone rfl rfl
    (.of_begun (hone.precedes.begun hbegun) (fun _ => hlock) rfl rfl)

theorem Seated.mem_ids {p : ThreadPlace} (h : Seated l lock thread p) {id : Nat}
    (hid : id ∈ p.call?) :
    id ∈ l.ids := List.mem_map.mpr ⟨_, (h.call id hid).1, rfl⟩

/-- **Every turn of a thread is fair, wherever the thread stands.** -/
theorem ThreadPlace.turn_fair (hs : Sound l) {p : ThreadPlace} (h : Seated l lock thread p)
    (well : Bool) :
    Turn.Fair l lock thread (p.turn l thread well) := by
  cases p with
  | idle => exact .look h
  | launching =>
      have hlock := h.lock rfl
      cases well with
      | true =>
          refine .of_holder hlock .attach rfl rfl ⟨fun _ => hlock, h.fresh, ?_, ?_⟩
          · simp [turn, isFresh]
          · simp [turn, call?]
      | false => exact .of_holder hlock (.launchFailed (h.fresh rfl)) rfl rfl (.idle _ _ _)
  | launched =>
      have hlock := h.lock rfl
      exact .of_holder hlock (.connect (h.fresh rfl)) rfl rfl
        (.of_begun (by simp [turn, Session.connect]) (fun _ => hlock) rfl rfl)
  | calling purpose =>
      have hbegun := h.begun (by simp) rfl
      rw [turn]
      split
      case h_1 id session done => exact .of_register hs hbegun h.lock done
      case h_2 => exact .look (.after hbegun h.lock false)
  | sending purpose id =>
      have hbegun := h.begun (by simp) rfl
      refine .look ⟨?_, ?_, fun _ _ => hbegun, ?_⟩
      · cases well <;> exact h.lock
      · cases well <;> simp [isFresh]
      · cases well <;> exact h.call
  | unsent purpose id =>
      have hbegun : (l.dropUnsent id).session.stage ≠ .unstarted := h.begun (by simp) rfl
      refine .of_settling (.dropUnsent (h.mem_ids rfl)) rfl rfl (fun other => ?_) (h.call id rfl).1
        (.after hbegun h.lock false)
      simp only [turn, Ledger.dropUnsent, List.mem_append, List.mem_singleton]
      tauto
  | waiting purpose id =>
      have hbegun := h.begun (by simp) rfl
      -- Wherever the thread goes on, it may give its own call up.
      have hgive : ∀ q : ThreadPlace, Seated (l.giveUp id) lock thread q →
          Turn.Fair l lock thread { ledger := l.giveUp id, place := q } := by
        intro q hq
        refine .of_settling (.giveUp (h.mem_ids rfl)) rfl rfl (fun other => ?_) (h.call id rfl).1 hq
        simp only [Ledger.giveUp, List.mem_append, List.mem_singleton]
        tauto
      have hgone : (l.giveUp id).session.stage ≠ .unstarted := hbegun
      rw [turn]
      split
      case h_1 => exact .look (.after hbegun h.lock true)
      case h_2 => exact .look (.after hbegun h.lock false)
      case h_3 =>
        split
        · exact .look h
        · split
          · exact hgive _ (.after hgone h.lock false)
          · exact hgive _ (.of_begun hgone h.lock rfl rfl)
  | cancelling purpose => exact .look (.after (h.begun (by simp) rfl) h.lock false)
  | acknowledging =>
      have hbegun := h.begun (by simp) rfl
      rw [turn]
      split
      · exact .look (.of_begun hbegun h.lock rfl rfl)
      · exact .look (.of_begun hbegun h.lock rfl rfl)
  | settling =>
      have hbegun := h.begun (by simp) rfl
      rw [turn]
      split
      case h_1 session done =>
        exact .of_holder (h.lock rfl) (.becomeReady done) rfl rfl (.idle _ _ _)
      case h_2 => exact .look (.of_begun hbegun h.lock rfl rfl)
  | openingFailed => exact .of_terminate (h.lock rfl) (h.begun (by simp) rfl) startupFailed
  | turningOff stage =>
      have hlock := h.lock rfl
      have hbegun := h.begun (by simp) rfl
      -- The stage may have moved on since the thread has looked; only that it has begun is sure.
      have hone : ∀ {shutdownTurn session}, l.session.beginShutdown = (shutdownTurn, session) →
          Section l { l with session } := by
        intro shutdownTurn session hnext
        have hsection : Section l { l with session := l.session.beginShutdown.2 } := .beginShutdown
        rwa [hnext] at hsection
      rw [turn]
      split
      case h_1 found session hnext =>
        have hstays : session.stage ≠ .unstarted := (hone hnext).precedes.begun hbegun
        refine .of_holder hlock (hone hnext) rfl rfl ?_
        by_cases hready : stage = .ready
        · simp only [hready, if_true]
          exact .of_begun hstays (fun _ => hlock) rfl rfl
        · simp only [hready, if_false]
          exact .of_begun hstays (fun _ => hlock) rfl rfl
      case h_2 found session _ hnext => exact .of_holder hlock (hone hnext) rfl rfl (.idle _ _ _)
  | leaving => exact .look (.of_begun (h.begun (by simp) rfl) h.lock rfl rfl)
  | ending => exact .of_terminate (h.lock rfl) (h.begun (by simp) rfl) shutDown
  | stopping => exact .of_holder (h.lock rfl) .look rfl rfl (.idle _ _ _)

end Turns

end AnalyzerBridge

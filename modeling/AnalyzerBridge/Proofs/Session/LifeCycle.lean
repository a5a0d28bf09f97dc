/-
The life cycle of a session that is shared.

Whatever the threads do, in whatever order, and however the backend behaves: the session only
moves forward, no call is lost, none is answered twice, and when the session is over nobody waits.

The order of the argument is that of the locks.  Whoever starts the session or shuts it down has
the lock, so the session begins under the eyes of one thread, and the reader runs only after
that; every other change is one of the sections of the books, which may come at any time.
-/
import AnalyzerBridge.Proofs.Session.Threads

namespace AnalyzerBridge

open Ledger (Section Sound Precedes)

namespace SessionRun

/-- The books are in order, and every thread has what it relies on. -/
structure Orderly (s : SessionRun) : Prop where
  /-- The books are in order. -/
  books : Sound s.ledger
  /-- There is no reader before the session has begun. -/
  reader : s.ledger.session.stage = .unstarted → s.reader = .absent
  /-- Every thread has what it relies on. -/
  seats : ∀ thread, Seated s.ledger s.lock thread (s.place thread)

variable {s : SessionRun}

theorem orderly_start : Orderly {} where
  books := .start
  reader := fun _ => rfl
  seats := fun thread => .idle _ _ thread

/-- A thread that comes from outside takes the free lock. -/
theorem Orderly.enter (h : Orderly s) (hfree : s.lock = none) {thread : Nat} {p : ThreadPlace}
    (hseat : Seated s.ledger (some thread) thread p) :
    Orderly { s.put thread p with lock := some thread } where
  books := h.books
  reader := h.reader
  seats other := by
    by_cases hother : other = thread
    · subst hother
      simpa [put] using hseat
    · have hold : Seated s.ledger (some thread) other (s.place other) :=
        (h.seats other).others (.refl _) (by simp [hfree]) (by simp [hfree])
          fun _ _ htimed hunsent => ⟨htimed, hunsent⟩
      simpa [put, hother] using hold

/-- Something happens beside the threads that settles no call of theirs. -/
theorem Orderly.beside (h : Orderly s) {l : Ledger} {reader : ReaderPlace}
    (hone : Section s.ledger l) (hbegun : l.session.stage ≠ .unstarted)
    (hfresh : s.lock = none ∨ s.ledger.session.stage ≠ .unstarted)
    (htimed : l.timedOut = s.ledger.timedOut) (hunsent : l.unsent = s.ledger.unsent) :
    Orderly { s with ledger := l, reader } where
  books := hone.sound h.books
  reader hc := absurd hc hbegun
  seats thread := by
    refine (h.seats thread).others hone.precedes id ?_ ?_
    · intro hlock hstage
      rcases hfresh with hfree | hstarted
      · simp [hfree] at hlock
      · exact absurd hstage hstarted
    · intro id _ htimedOut hunsentOut
      rw [htimed, hunsent]
      exact ⟨htimedOut, hunsentOut⟩

/-- A reader that runs finds a session that has begun. -/
theorem Orderly.begun_of_reader (h : Orderly s) (hreader : s.reader ≠ .absent) :
    s.ledger.session.stage ≠ .unstarted := fun hc => hreader (h.reader hc)

theorem Orderly.terminate (h : Orderly s) (hreader : s.reader ≠ .absent) (cause : Failure)
    (reader : ReaderPlace) :
    Orderly { s with ledger := s.ledger.terminate cause true, reader } := by
  have hbegun := h.begun_of_reader hreader
  have hone : Section s.ledger (s.ledger.terminate cause true) := .terminate cause true
  exact h.beside hone (hone.precedes.begun hbegun) (.inr hbegun) rfl rfl

/-- A turn of a thread that is fair leaves all threads what they rely on. -/
theorem Orderly.take (h : Orderly s) {thread : Nat} {turn : Turn}
    (hfair : Turn.Fair s.ledger s.lock thread turn)
    (hreader : turn.ledger.session.stage = .unstarted → s.place thread ≠ .launched) :
    Orderly (s.take thread turn) where
  books := hfair.inOne.sound h.books
  reader hstage := by
    have hfresh : s.ledger.session.stage = .unstarted := by
      by_contra hbegun
      exact hfair.inOne.precedes.begun hbegun hstage
    simp only [SessionRun.take, if_neg (hreader hstage)]
    exact h.reader hfresh
  seats other := by
    by_cases hother : other = thread
    · subst hother
      simpa [SessionRun.take, put] using hfair.seated
    · have hlock : s.lock = some other → s.lock ≠ some thread := by
        intro hheld hc
        exact hother (Option.some.inj (hheld.symm.trans hc))
      have hold : Seated turn.ledger (if turn.releases then none else s.lock) other
          (s.place other) := by
        refine (h.seats other).others hfair.inOne.precedes ?_ ?_ ?_
        · intro hheld
          rw [if_neg fun hrel => hlock hheld (hfair.holder hrel)]
          exact hheld
        · intro hheld hstage
          by_contra hbegun
          exact hlock hheld (hfair.beginner hstage hbegun)
        · -- A call that the turn settles would be one of both threads.
          intro id hid htimed hunsent
          refine not_or.mp fun hc => ?_
          rcases hfair.own id hc with hsettled | hown
          · exact hsettled.elim htimed hunsent
          · exact hother (h.books.thread_eq hid hown)
      simpa [SessionRun.take, put, hother] using hold

/-- **Every move is one of the things that happen to the shared state, and leaves it in order.** -/
theorem orderly_step (h : Orderly s) (move : SessionMove) :
    Section s.ledger (s.step move).ledger ∧ Orderly (s.step move) := by
  cases move with
  | start thread =>
      rw [step]
      split
      case isTrue hcan =>
        obtain ⟨-, hfree, hrefusal⟩ := hcan
        have hstage : s.ledger.session.stage = .unstarted := by
          by_contra hbegun
          simp [Session.startRefusal, hbegun] at hrefusal
        exact ⟨.look, h.enter hfree ⟨fun _ => rfl, fun _ => hstage, by simp [ThreadPlace.isFresh],
          by simp [ThreadPlace.call?]⟩⟩
      case isFalse => exact ⟨.look, h⟩
  | shutdown thread =>
      rw [step]
      split
      case isTrue hcan =>
        split
        case isTrue hstage =>
          refine ⟨.beginShutdown, h.beside .beginShutdown ?_ (.inl hcan.2) rfl rfl⟩
          simp [Session.beginShutdown, hstage]
        case isFalse hbegun =>
          exact ⟨.look, h.enter hcan.2 (.of_begun hbegun (fun _ => rfl) rfl rfl)⟩
      case isFalse => exact ⟨.look, h⟩
  | request thread =>
      rw [step]
      split
      case isTrue hcan =>
        have hbegun : s.ledger.session.stage ≠ .unstarted := by
          intro hc
          have hrefusal := hcan.2
          simp [Session.callRefusal, hc] at hrefusal
        refine ⟨.look, h.books, h.reader, fun other => ?_⟩
        by_cases hother : other = thread
        · subst hother
          have hseat : Seated s.ledger s.lock other (.calling .caller) :=
            .of_begun hbegun (by simp [ThreadPlace.holdsLock]) rfl rfl
          simpa [put] using hseat
        · simpa [put, hother] using h.seats other
      case isFalse => exact ⟨.look, h⟩
  | proceed thread well =>
      -- A thread that has launched the backend connects, so the reader begins with the session.
      have hfair := ThreadPlace.turn_fair h.books (h.seats thread) well
      refine ⟨hfair.inOne, h.take hfair fun hstage hlaunched => ?_⟩
      rw [hlaunched] at hstage
      simp [ThreadPlace.turn, Session.connect] at hstage
  | reply id reply =>
      rw [step]
      split
      case isTrue hreading =>
        have hbegun := h.begun_of_reader (by simp [hreading])
        have hone : Section s.ledger
            { s.ledger with session := (s.ledger.session.answer id reply).2 } := .answer id reply
        exact ⟨hone, h.beside hone (hone.precedes.begun hbegun) (.inr hbegun) rfl rfl⟩
      case isFalse => exact ⟨.look, h⟩
  | breaks cause =>
      rw [step]
      split
      case isTrue hreading =>
        exact ⟨.terminate cause true, h.terminate (by simp [hreading]) cause .stopped⟩
      case isFalse => exact ⟨.look, h⟩
  | ends cause =>
      rw [step]
      split
      case isTrue hreading =>
        have hbegun := h.begun_of_reader (by simp [hreading])
        exact ⟨.look, h.beside .look hbegun (.inr hbegun) rfl rfl⟩
      case isFalse => exact ⟨.look, h⟩
  | report =>
      rw [step]
      split
      case h_1 cause hfound =>
        exact ⟨.terminate cause true, h.terminate (by simp [hfound]) cause .stopped⟩
      case h_2 => exact ⟨.look, h⟩

/-- What is in order stays in order, and nothing in the books is taken back. -/
theorem orderly_run (h : Orderly s) (moves : List SessionMove) :
    Precedes s.ledger (s.run moves).ledger ∧ Orderly (s.run moves) := by
  induction moves generalizing s with
  | nil => exact ⟨.refl _, h⟩
  | cons move rest ih =>
      obtain ⟨hone, hnext⟩ := orderly_step h move
      obtain ⟨hrest, hlast⟩ := ih hnext
      exact ⟨hone.precedes.trans hrest, hlast⟩

/-! ### What the threads can count on -/

/-- What everyone who shares a session can count on, from now on. -/
structure LifeCycleSafe (s : SessionRun) : Prop where
  /-- The session only moves forward. -/
  forward : ∀ more, s.ledger.session.stage.rank ≤ (s.run more).ledger.session.stage.rank
  /-- A session that is over stays over. -/
  staysOver : s.ledger.session.stage = .terminated →
    ∀ more, (s.run more).ledger.session.stage = .terminated
  /-- A call that was registered and has not ended, was not given up and was not found unsent is
  in the table. -/
  accounted : ∀ id ∈ s.ledger.ids, id ∉ s.ledger.resolved → id ∉ s.ledger.timedOut →
    id ∉ s.ledger.unsent → id ∈ s.ledger.session.pending
  /-- When the session is over the table is empty, and no call is registered any more. -/
  closed : s.ledger.session.stage = .terminated → s.ledger.session.pending = []
    ∧ (s.ledger.session.register = .error Session.overFailure)
    ∧ ∀ more, (s.run more).ledger.registered = s.ledger.registered
  /-- Whoever waits, waits for a call in the table or for one that has ended. -/
  waits : ∀ thread purpose id, s.place thread = .waiting purpose id →
    id ∈ s.ledger.session.pending ∨ ∃ found, s.ledger.session.end? id = some found
  /-- When the session is over, whoever waits waits for a call that has ended. -/
  released : s.ledger.session.stage = .terminated →
    ∀ thread purpose id, s.place thread = .waiting purpose id →
      ∃ found, s.ledger.session.end? id = some found
  /-- No call ends twice, and its end stays as it is. -/
  resolvedOnce : s.ledger.resolved.Nodup
    ∧ ∀ more, s.ledger.session.ends <:+ (s.run more).ledger.session.ends
  /-- The numbers of calls are positive and grow, so none is used again. -/
  numbers : (∀ id ∈ s.ledger.ids, 0 < id) ∧ s.ledger.ids.Pairwise (· < ·)
  /-- What ended the session is recorded once at most, and is what the session tells. -/
  causeOnce : s.ledger.causes.length ≤ 1 ∧ s.ledger.session.cause = s.ledger.causes.head?
    ∧ ∀ more, s.ledger.causes <+: (s.run more).ledger.causes

theorem Orderly.waits (h : Orderly s) {thread : Nat} {purpose : CallPurpose} {id : Nat}
    (hplace : s.place thread = .waiting purpose id) :
    id ∈ s.ledger.session.pending ∨ ∃ found, s.ledger.session.end? id = some found := by
  have hseat := h.seats thread
  rw [hplace] at hseat
  obtain ⟨-, htimed, hunsent⟩ := hseat.call id rfl
  rw [Session.exists_end_iff]
  by_cases hend : id ∈ s.ledger.session.ends.map Prod.fst
  · exact .inr hend
  · refine .inl ((h.books.pending id).mpr ⟨hseat.mem_ids rfl, ?_⟩)
    rintro (hresolved | htimedOut | hunsentOut)
    · exact hend hresolved
    · exact htimed htimedOut
    · exact hunsent hunsentOut

theorem Orderly.lifeCycleSafe (h : Orderly s) : LifeCycleSafe s where
  forward more := (orderly_run h more).1.stage
  staysOver hover more := (orderly_run h more).1.stays_terminated hover
  accounted id hid hresolved htimed hunsent :=
    (h.books.pending id).mpr ⟨hid, not_or.mpr ⟨hresolved, not_or.mpr ⟨htimed, hunsent⟩⟩⟩
  closed hover := by
    refine ⟨h.books.finished hover, ?_, fun more => (orderly_run h more).1.closed hover⟩
    simp [Session.register, Session.sendRefusal, hover]
  waits _ _ _ hplace := h.waits hplace
  released hover _ _ _ hplace := by
    rcases h.waits hplace with hpending | hend
    · rw [h.books.finished hover] at hpending
      exact absurd hpending List.not_mem_nil
    · exact hend
  resolvedOnce := ⟨h.books.resolvedOnce, fun more => (orderly_run h more).1.ends⟩
  numbers := by
    rw [h.books.numbers]
    refine ⟨fun id hid => ?_, List.pairwise_lt_range'⟩
    exact (List.mem_range'_1.mp hid).1
  causeOnce := ⟨h.books.causesOnce, h.books.cause, fun more => (orderly_run h more).1.causes⟩

/--
**A session that is shared goes through its life safely, however its threads and the backend
interleave.**

Any number of threads start the session, make calls and shut it down; the reader takes in answers,
comes upon broken frames or the end of the stream; the backend may not be launched, refuse what is
written, or never answer.  After every run of moves the session is safe, as `LifeCycleSafe` says.
-/
theorem run_lifeCycleSafe (moves : List SessionMove) : LifeCycleSafe (run {} moves) :=
  (orderly_run orderly_start moves).2.lifeCycleSafe

/-- The session is opened by thread 0; thread 1 makes a call, and before it is answered the stream
breaks. -/
example :
    let cause : Failure := { kind := .framing, message := [] }
    let s := run {} [.start 0, .proceed 0 true, .proceed 0 true, .proceed 0 true, .proceed 0 true,
      .reply 1 (.answered []), .proceed 0 true, .proceed 0 true, .proceed 0 true, .request 1,
      .proceed 1 true, .proceed 1 true, .breaks cause]
    s.place 1 = .waiting .caller 2 ∧ s.ledger.session.stage = .terminated
      ∧ s.ledger.session.pending = []
      ∧ s.ledger.session.ends = [(2, .failed cause), (1, .answered [])] := by
  decide

end SessionRun

end AnalyzerBridge

/-
A session whose opening call is not answered.

Such a session never becomes ready, so nobody makes a call but the thread that opens it, and that
makes one, the first.  `Unanswered` says what holds of the books then, and of the thread in charge:
nothing ends the call but the reader, when it ends the session, and whatever ends the session
otherwise finds no call in the table.
-/
import AnalyzerBridge.Proofs.Session.Rounds

namespace AnalyzerBridge

open Ledger (Section Sound Precedes)

/-- Only a session that is ready takes calls. -/
theorem Session.ready_of_callRefusal {s : Session} (h : s.callRefusal = none) : s.stage = .ready := by
  unfold callRefusal at h
  split at h <;> simp_all

/-! ### Books and places -/

namespace ThreadPlace

/-- A place on the way of a session that is opened by the call with the number 1, or of one that is
shut down without having been ready. -/
def isEarly : ThreadPlace → Bool
  | idle | launching | launched | openingFailed | stopping | ending => true
  | calling purpose | cancelling purpose => purpose == .opening
  | sending purpose id | unsent purpose id | waiting purpose id => purpose == .opening && id == 1
  | turningOff stage => stage != .ready
  | acknowledging | settling | leaving => false

/-- The frame of the opening call has yet to be written, or could not be. -/
def writes : ThreadPlace → Bool
  | launching | launched | calling _ | sending _ _ | unsent _ _ => true
  | _ => false

/-- Whoever is here comes from outside or is in charge. -/
theorem eq_idle_of_isEarly {p : ThreadPlace} (h : p.isEarly = true) (hfree : p.holdsLock = false) :
    p = .idle := by
  cases p <;> simp_all [isEarly, holdsLock]

end ThreadPlace

/-- The opening call is not answered, and the thread in charge, if there is one, stands at a
place. -/
structure Unanswered (l : Ledger) (p : ThreadPlace) : Prop where
  unready : l.session.stage ≠ .ready
  early : p.isEarly = true
  /-- There is a stream once the backend was launched. -/
  streaming : p.opens = true → p ≠ .launching → l.session.connected = true
  /-- The opening call is the first. -/
  first : p = .calling .opening → l.session.lastId = 0
  /-- At most that call is in the table, as long as somebody has to do with it. -/
  pending : l.session.pending = [] ∨ l.session.pending = [1] ∧ p.call? = some 1
  /-- It ends only as the session does, when the reader has found out why. -/
  ends : ∀ found, l.session.end? 1 = some found →
    ∃ cause, found = .failed cause ∧ l.session.cause = some cause

namespace Unanswered

variable {l l' : Ledger} {p q : ThreadPlace}

/-- The number 1 has no end while its call is in the table. -/
theorem not_pending_of_end (hs : Sound l) {found : CallEnd} (hend : l.session.end? 1 = some found) :
    1 ∉ l.session.pending := by
  intro hc
  have hresolved := (l.session.exists_end_iff 1).mp ⟨found, hend⟩
  exact ((hs.pending 1).mp hc).2 (.inl hresolved)

/-- No call is in the table unless somebody has to do with it. -/
theorem pending_eq_nil (h : Unanswered l p) (hp : p.call? = none) : l.session.pending = [] :=
  h.pending.resolve_right (by simp [hp])

/-- A call is in the table only if there is a stream to the backend. -/
theorem connected_of_pending (h : Unanswered l p) (hpending : l.session.pending ≠ []) :
    l.session.connected = true := by
  obtain ⟨-, hcall⟩ := h.pending.resolve_left hpending
  have hearly := h.early
  cases p with
  | sending purpose id | unsent purpose id | waiting purpose id =>
      obtain ⟨rfl, -⟩ : purpose = .opening ∧ id = 1 := by
        simpa [ThreadPlace.isEarly] using hearly
      exact h.streaming rfl nofun
  | _ => simp [ThreadPlace.call?] at hcall

/-- The thread in charge goes on, and nothing changes but how far the session has come. -/
theorem onward (h : Unanswered l p) (hready : l'.session.stage ≠ .ready) (hearly : q.isEarly = true)
    (hstreaming : q.opens = false ∨ q = .launching ∨ l'.session.connected = true)
    (hfirst : q ≠ .calling .opening ∨ l'.session.lastId = 0)
    (hcall : p.call? = none ∨ l.session.pending ≠ [1] ∨ q.call? = some 1)
    (hpending : l'.session.pending = l.session.pending) (hends : l'.session.ends = l.session.ends)
    (hcause : l'.session.cause = l.session.cause) : Unanswered l' q where
  unready := hready
  early := hearly
  streaming hopens hnot := (hstreaming.resolve_left (by simp [hopens])).resolve_left hnot
  first hq := hfirst.resolve_left (absurd hq)
  pending := by
    rw [hpending]
    refine h.pending.imp_right fun ⟨hone, hp⟩ => ⟨hone, ?_⟩
    exact (hcall.resolve_left (by simp [hp])).resolve_left (absurd hone)
  ends found hfound := by
    rw [hcause]
    refine h.ends found ?_
    rwa [Session.end?, hends] at hfound

/-- The session ends, and no call is in the table. -/
theorem endSession (h : Unanswered l p) (hnone : l.session.pending = []) (cause : Failure)
    (hq : q.isEarly = true) (hopens : q.opens = false) :
    Unanswered (l.terminate cause false) q := by
  have hends : (l.terminate cause false).session.ends = l.session.ends := by
    simp only [Ledger.terminate, Session.terminate]
    split <;> simp [hnone]
  have hcause : (l.terminate cause false).session.cause = l.session.cause := by
    simp only [Ledger.terminate, Session.terminate]
    split <;> simp
  have hpending : (l.terminate cause false).session.pending = l.session.pending := by
    simp only [Ledger.terminate, Session.terminate]
    split <;> simp [hnone]
  refine h.onward ?_ hq (.inl hopens) (.inl ?_) (.inr (.inl (by simp [hnone]))) hpending hends hcause
  · rw [show (l.terminate cause false).session.stage = .terminated from
      l.session.stage_terminate cause false]
    decide
  · rintro rfl
    simp [ThreadPlace.opens] at hopens

/-- The reader ends the session, and the opening call with it if that is in the table. -/
theorem terminate (h : Unanswered l p) (hs : Sound l) (cause : Failure) :
    Unanswered (l.terminate cause true) p := by
  by_cases hover : l.session.stage = .terminated
  case pos =>
    have hsame : l.terminate cause true = l := by
      simp [Ledger.terminate, Session.terminate, hover]
    rwa [hsame]
  case neg =>
    have hsession : (l.terminate cause true).session = { l.session with
        stage := .terminated
        cause := some cause
        ends := l.session.pending.map (fun id => (id, .failed cause)) ++ l.session.ends
        pending := []
        board := l.session.board.close } := by
      simp [Ledger.terminate, Session.terminate, hover]
    have hnone : l.session.end? 1 = none := by
      refine Option.eq_none_iff_forall_ne_some.mpr fun found hfound => ?_
      obtain ⟨other, -, hcause⟩ := h.ends found hfound
      rw [hs.cause, hs.causesLast hover] at hcause
      simp at hcause
    refine ⟨by simp [hsession], h.early, ?_, ?_, .inl (by simp [hsession]), fun found hfound => ?_⟩
    · rw [hsession]
      exact h.streaming
    · rw [hsession]
      exact h.first
    · refine ⟨cause, ?_, by rw [hsession]⟩
      rw [hsession, Session.end?] at hfound
      rcases h.pending with hempty | ⟨hone, -⟩
      · rw [hempty] at hfound
        exact absurd (hnone.symm.trans hfound) (by simp)
      · rw [hone] at hfound
        simpa using hfound.symm

/-- The call is not in the table any more. -/
theorem forget (h : Unanswered l p) (hq : q.isEarly = true)
    (hcall : q ≠ .calling .opening) (hopens : p.opens = true) (hmoves : p ≠ .launching)
    (hsession : l'.session = l.session.forget 1) : Unanswered l' q where
  unready := by
    rw [hsession]
    exact h.unready
  early := hq
  streaming _ _ := by
    rw [hsession]
    exact h.streaming hopens hmoves
  first hc := absurd hc hcall
  pending := by
    left
    rw [hsession]
    rcases h.pending with hnone | ⟨hone, -⟩
    · simp [Session.forget, hnone]
    · simp [Session.forget, hone]
  ends := by
    rw [hsession]
    exact h.ends

end Unanswered

namespace ThreadPlace

variable {l : Ledger} {lock : Option Nat} {thread : Nat} {p : ThreadPlace}

/-- Whoever gives the lock back has left. -/
theorem place_of_releases {well : Bool} (h : (p.turn l thread well).releases = true) :
    (p.turn l thread well).place = .idle := by
  cases p with
  | launching => cases well <;> simp_all [turn]
  | calling | waiting | acknowledging | settling | turningOff =>
      simp only [turn] at h ⊢
      repeat' split at h
      all_goals simp_all
  | _ => simp_all [turn]

/-- **Whoever opens a session without being answered, or shuts it down, goes on like that.** -/
theorem unanswered_turn (hs : Sound l) (hseat : Seated l lock thread p) (h : Unanswered l p)
    (well : Bool) :
    Unanswered (p.turn l thread well).ledger
      (if (p.turn l thread well).releases then .idle else (p.turn l thread well).place) := by
  have hearly := h.early
  cases p with
  | idle => exact h
  | launching =>
      cases well with
      | true =>
          exact h.onward (q := .launched) h.unready rfl (.inr (.inr rfl)) (.inl (by simp)) (.inl rfl) rfl
            rfl rfl
      | false =>
          exact h.onward (q := .idle) (by simp [turn, Session.launchFailed]) rfl (.inl rfl)
            (.inl (by simp)) (.inl rfl) rfl rfl rfl
  | launched =>
      have hzero : l.session.lastId = 0 := hs.unbegun (hseat.fresh rfl)
      exact h.onward (q := .calling .opening) (by simp [turn, Session.connect]) rfl (.inr (.inr rfl))
        (.inr hzero) (.inl rfl) rfl rfl rfl
  | calling purpose =>
      obtain rfl : purpose = .opening := by simpa [isEarly] using hearly
      have hnone := h.pending_eq_nil rfl
      have hsome := h.streaming rfl (by simp)
      rw [turn]
      split
      case h_1 id session done =>
        obtain ⟨rfl, rfl⟩ := Session.eq_of_register done
        rw [h.first rfl, hnone]
        exact ⟨h.unready, rfl, fun _ _ => hsome, by simp, .inr ⟨rfl, rfl⟩, h.ends⟩
      case h_2 =>
        exact h.onward (q := .openingFailed) h.unready rfl (.inr (.inr hsome)) (.inl (by simp))
          (.inl rfl) rfl rfl rfl
  | sending purpose id =>
      obtain ⟨rfl, rfl⟩ : purpose = .opening ∧ id = 1 := by simpa [isEarly] using hearly
      have hsome := h.streaming rfl (by simp)
      cases well with
      | true =>
          exact h.onward (q := .waiting .opening 1) h.unready rfl (.inr (.inr hsome)) (.inl (by simp))
            (.inr (.inr rfl)) rfl rfl rfl
      | false =>
          exact h.onward (q := .unsent .opening 1) h.unready rfl (.inr (.inr hsome)) (.inl (by simp))
            (.inr (.inr rfl)) rfl rfl rfl
  | unsent purpose id =>
      obtain ⟨rfl, rfl⟩ : purpose = .opening ∧ id = 1 := by simpa [isEarly] using hearly
      exact h.forget (q := .openingFailed) rfl (by simp) rfl (by simp) rfl
  | waiting purpose id =>
      obtain ⟨rfl, rfl⟩ : purpose = .opening ∧ id = 1 := by simpa [isEarly] using hearly
      have hsome := h.streaming rfl (by simp)
      rw [turn]
      split
      case h_1 reply hend =>
        obtain ⟨cause, hcause, -⟩ := h.ends _ hend
        exact absurd hcause (by simp)
      case h_2 cause hend =>
        have hnot := Unanswered.not_pending_of_end hs hend
        exact h.onward (q := .openingFailed) h.unready rfl (.inr (.inr hsome)) (.inl (by simp))
          (.inr (.inl fun hone => hnot (by simp [hone]))) rfl rfl rfl
      case h_3 =>
        cases well with
        | true => exact h
        | false =>
            simp only [Bool.false_eq_true, if_false]
            split
            · exact h.forget (q := .openingFailed) rfl (by simp) rfl (by simp) rfl
            · exact h.forget (q := .cancelling .opening) rfl (by simp) rfl (by simp) rfl
  | cancelling purpose =>
      obtain rfl : purpose = .opening := by simpa [isEarly] using hearly
      exact h.onward (q := .openingFailed) h.unready rfl (.inr (.inr (h.streaming rfl (by simp))))
        (.inl (by simp)) (.inl rfl) rfl rfl rfl
  | openingFailed => exact h.endSession (h.pending_eq_nil rfl) startupFailed rfl rfl
  | turningOff stage =>
      have hbegun := hseat.begun (by simp) rfl
      have hnot : stage ≠ .ready := by simpa [isEarly] using hearly
      by_cases hflag : l.session.shuttingDown = true
      · have hbegins : l.session.beginShutdown = (.begun, l.session) := by
          simp [Session.beginShutdown, hbegun, hflag]
        simp only [turn, hbegins]
        exact h.onward (q := .idle) h.unready rfl (.inl rfl) (.inl (by simp)) (.inl rfl) rfl rfl rfl
      · have hbegins : l.session.beginShutdown
            = (.fromStage l.session.stage, { l.session with shuttingDown := true }) := by
          simp [Session.beginShutdown, hbegun, hflag]
        simp only [turn, hbegins, if_neg hnot]
        exact h.onward (q := .ending) h.unready rfl (.inl rfl) (.inl (by simp)) (.inl rfl) rfl rfl rfl
  | ending => exact h.endSession (h.pending_eq_nil rfl) shutDown rfl rfl
  | stopping =>
      exact h.onward (q := .idle) h.unready rfl (.inl rfl) (.inl (by simp)) (.inl rfl) rfl rfl rfl
  | acknowledging | settling | leaving => simp [isEarly] at hearly

/-- Behind the frame of the opening call nothing else is written that is waited for. -/
theorem written_turn (l : Ledger) (thread : Nat) (hearly : p.isEarly = true)
    (hwritten : p.writes = false) (well : Bool) :
    (p.turn l thread well).ledger.unsent = l.unsent
      ∧ (p.turn l thread well).place.writes = false := by
  cases p with
  | waiting purpose id =>
      obtain ⟨rfl, rfl⟩ : purpose = .opening ∧ id = 1 := by simpa [isEarly] using hearly
      rw [turn]
      split
      · exact ⟨rfl, rfl⟩
      · exact ⟨rfl, rfl⟩
      · split
        · exact ⟨rfl, rfl⟩
        · split <;> exact ⟨rfl, rfl⟩
  | cancelling purpose =>
      obtain rfl : purpose = .opening := by simpa [isEarly] using hearly
      exact ⟨rfl, rfl⟩
  | turningOff stage =>
      have hnot : stage ≠ .ready := by simpa [isEarly] using hearly
      rw [turn]
      split
      · rw [if_neg hnot]
        exact ⟨rfl, rfl⟩
      · exact ⟨rfl, rfl⟩
  | idle | openingFailed | ending | stopping => exact ⟨rfl, rfl⟩
  | launching | launched | calling | sending | unsent => simp [writes] at hwritten
  | acknowledging | settling | leaving => simp [isEarly] at hearly

end ThreadPlace

/-! ### Sessions -/

namespace SessionRun

variable {s : SessionRun}

/-- The session was not opened: the opening call is not answered, and nobody is in the client but
the thread in charge. -/
structure Unopened (s : SessionRun) : Prop where
  alone : ∀ thread, (s.place thread).holdsLock = false → s.place thread = .idle
  books : Unanswered s.ledger s.busy

theorem unopened_start : Unopened {} :=
  ⟨fun _ _ => rfl, by simp, rfl, by simp [busy, ThreadPlace.opens], by simp, .inl rfl,
    by simp [Session.end?]⟩

namespace Unopened

/-- Whoever is not in charge is not in the client. -/
theorem idle (h : Unopened s) (hs : Steady s) {thread : Nat} (hlock : s.lock ≠ some thread) :
    s.place thread = .idle := by
  refine h.alone thread ?_
  by_contra hc
  exact hlock (hs.lock_iff.mpr (by simpa using hc))

/-- A thread comes from outside and takes the free lock. -/
theorem enter (h : Unopened s) (hfree : s.lock = none) (thread : Nat) {p : ThreadPlace}
    (hearly : p.isEarly = true) (hopens : p.opens = false ∨ p = .launching)
    (hcall : p ≠ .calling .opening) : Unopened { s.put thread p with lock := some thread } := by
  have hbooks := h.books
  rw [busy_of_free hfree] at hbooks
  have hbusy : SessionRun.busy { s.put thread p with lock := some thread } = p := by
    simp [busy, put]
  refine ⟨fun other hother => ?_, ?_⟩
  · by_cases hsame : other = thread
    · subst hsame
      have hplace : ({ s.put other p with lock := some other } : SessionRun).place other = p := by
        simp [put]
      rw [hplace] at hother ⊢
      exact ThreadPlace.eq_idle_of_isEarly hearly hother
    · have hplace : ({ s.put thread p with lock := some thread } : SessionRun).place other
          = s.place other := by simp [put, hsame]
      rw [hplace] at hother ⊢
      exact h.alone other hother
  · rw [hbusy]
    exact hbooks.onward hbooks.unready hearly (hopens.imp_right .inl) (.inl hcall) (.inl rfl) rfl rfl
      rfl

/-- A thread goes on, which is the one in charge or does nothing. -/
theorem take (h : Unopened s) (hs : Steady s) (thread : Nat) (well : Bool) :
    Unopened (s.take thread ((s.place thread).turn s.ledger thread well)) := by
  by_cases hlock : s.lock = some thread
  case neg =>
    have hidle := h.idle hs hlock
    rw [hidle]
    refine ⟨fun other hother => ?_, ?_⟩
    · rw [place_take] at hother ⊢
      split
      case isTrue => rfl
      case isFalse hne =>
        rw [if_neg hne] at hother
        exact h.alone other hother
    · rw [busy_take_of_ne hlock rfl]
      exact h.books
  case pos =>
    have hbooks := h.books
    rw [busy_of_lock hlock] at hbooks
    have hseat := hs.orderly.seats thread
    have hnext := ThreadPlace.unanswered_turn hs.orderly.books hseat hbooks well
    rw [← busy_take hlock] at hnext
    refine ⟨fun other hother => ?_, hnext⟩
    rw [place_take] at hother ⊢
    split
    case isTrue =>
      -- A thread that was in charge and is not any more has left.
      rw [if_pos ‹_›] at hother
      have hreleases := (s.place thread).releases_eq s.ledger thread well (hs.lock_iff.mp hlock)
      rw [hother] at hreleases
      exact ThreadPlace.place_of_releases hreleases
    case isFalse hne =>
      rw [if_neg hne] at hother
      exact h.alone other hother

end Unopened

/-- **Whatever happens in a session, it is not opened as long as the opening call is not
answered.** -/
theorem unopened_step (h : Unopened s) (hs : Steady s) {move : SessionMove}
    (hsilent : ∀ reply, move ≠ .reply 1 reply) : Unopened (s.step move) := by
  have hbooks := h.books
  cases move with
  | start thread =>
      rw [step]
      split
      case isTrue hcan => exact h.enter hcan.2.1 thread rfl (.inr rfl) (by simp)
      case isFalse => exact h
  | shutdown thread =>
      rw [step]
      split
      case isTrue hcan =>
        split
        case isTrue hfresh =>
          have hbusy := busy_of_free hcan.2
          rw [hbusy] at hbooks
          have hafter : s.ledger.session.beginShutdown.2
              = { s.ledger.session with stage := .terminated } := by
            simp [Session.beginShutdown, hfresh]
          refine ⟨h.alone, ?_⟩
          rw [hafter]
          show Unanswered _ s.busy
          rw [hbusy]
          exact hbooks.onward (by simp) rfl (.inl rfl) (.inl (by simp)) (.inl rfl) rfl rfl rfl
        case isFalse =>
          exact h.enter hcan.2 thread (by simpa [ThreadPlace.isEarly] using hbooks.unready) (.inl rfl)
            (by simp)
      case isFalse => exact h
  | request thread =>
      rw [step]
      split
      case isTrue hcan =>
        exact absurd (Session.ready_of_callRefusal hcan.2) hbooks.unready
      case isFalse => exact h
  | proceed thread well => exact h.take hs thread well
  | reply id reply =>
      rw [step]
      split
      case isTrue =>
        have hother : id ≠ 1 := by
          rintro rfl
          exact hsilent reply rfl
        have hunknown : (s.ledger.session.answer id reply).2 = s.ledger.session := by
          rcases hbooks.pending with hnone | ⟨hone, -⟩
          · simp [Session.answer, hnone]
          · simp [Session.answer, hone, hother]
        rw [hunknown]
        exact h
      case isFalse => exact h
  | breaks cause =>
      rw [step]
      split
      · exact ⟨h.alone, hbooks.terminate hs.orderly.books cause⟩
      · exact h
  | ends cause =>
      rw [step]
      split
      · exact ⟨h.alone, hbooks⟩
      · exact h
  | report =>
      rw [step]
      split
      · exact ⟨h.alone, hbooks.terminate hs.orderly.books _⟩
      · exact h

/-- Once the frame of the opening call is written, no frame is found unsent. -/
theorem written_step (h : Unopened s) (hs : Steady s) (hbegun : s.ledger.session.stage ≠ .unstarted)
    (hwritten : s.busy.writes = false) (move : SessionMove) :
    (s.step move).ledger.unsent = s.ledger.unsent ∧ (s.step move).busy.writes = false := by
  cases move with
  | start thread =>
      rw [step]
      split
      case isTrue hcan =>
        have hrefusal := hcan.2.2
        simp [Session.startRefusal, hbegun] at hrefusal
      case isFalse => exact ⟨rfl, hwritten⟩
  | shutdown thread =>
      rw [step]
      split
      case isTrue hcan =>
        exact ⟨rfl, by simp [busy, put, ThreadPlace.writes]⟩
      case isFalse => exact ⟨rfl, hwritten⟩
  | request thread =>
      rw [step]
      split
      case isTrue hcan =>
        exact absurd (Session.ready_of_callRefusal hcan.2) h.books.unready
      case isFalse => exact ⟨rfl, hwritten⟩
  | proceed thread well =>
      by_cases hlock : s.lock = some thread
      case pos =>
        have hearly := h.books.early
        rw [busy_of_lock hlock] at hearly hwritten
        obtain ⟨hunsent, hnext⟩ :=
          ThreadPlace.written_turn s.ledger thread hearly hwritten well
        refine ⟨hunsent, ?_⟩
        show (s.take thread _).busy.writes = false
        rw [busy_take hlock]
        split
        · rfl
        · exact hnext
      case neg =>
        have hidle := h.idle hs hlock
        show (s.take thread _).ledger.unsent = _ ∧ (s.take thread _).busy.writes = false
        rw [hidle]
        refine ⟨rfl, ?_⟩
        rw [busy_take_of_ne hlock rfl]
        exact hwritten
  | reply id reply | breaks cause | ends cause =>
      rw [step]
      split <;> exact ⟨rfl, hwritten⟩
  | report =>
      rw [step]
      split <;> exact ⟨rfl, hwritten⟩

end SessionRun

end AnalyzerBridge

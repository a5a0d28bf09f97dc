/-
What the reader has come upon.

The reader ends a session for one of two reasons: what it has read is no frame or no message, or the
stream has ended, and then it looks first what has become of the backend.  `Heard` says that the
session has a cause on record only if the reader has come upon something that explains it, whoever
else has tried to end the session at the same time.
-/
import AnalyzerBridge.Proofs.Session.Coherence

namespace AnalyzerBridge

open Host (Kernel)
open AnalyzerBridge.Frame (Writer WriteAnswer Outgoing)
open Ledger (Section Sound Precedes)

variable {W : Type}

/-- What ends a session whose reader has come upon something. -/
def ReadEnd.Explains (readEnd : ReadEnd) (cause : Failure) : Prop :=
  if readEnd.failure.kind = .framing then cause = readEnd.failure
  else ∃ status, cause = backendExited status

theorem ReadEnd.Explains.kind {readEnd : ReadEnd} {cause : Failure} (h : readEnd.Explains cause) :
    cause.kind = .framing ∨ cause.kind = .connectionClosed := by
  unfold ReadEnd.Explains at h
  split at h
  case isTrue hframing =>
    rw [h]
    exact .inl hframing
  case isFalse =>
    obtain ⟨status, rfl⟩ := h
    exact .inr rfl

theorem Session.cause_terminate (s : Session) (cause : Failure) :
    (s.terminate cause true).2.cause = s.cause ∨ (s.terminate cause true).2.cause = some cause := by
  rw [terminate]
  split
  · exact .inl rfl
  · exact .inr rfl

/-- No turn of a thread is taken for the reason why the session has ended. -/
theorem ThreadPlace.cause_turn (p : ThreadPlace) (l : Ledger) (thread : Nat) (well : Bool) :
    (p.turn l thread well).ledger.session.cause = l.session.cause := by
  by_cases hquiet : p.isQuiet = true
  case pos => exact (sameCourse_turn l thread well hquiet).cause
  case neg =>
    have hends : ∀ cause, (l.session.terminate cause false).2.cause = l.session.cause := by
      intro cause
      rw [Session.terminate]
      split <;> rfl
    cases p with
    | launching => cases well <;> rfl
    | launched => rfl
    | settling =>
        rw [turn]
        split
        case h_1 session done =>
          obtain ⟨-, rfl⟩ := Session.eq_of_becomeReady done
          rfl
        case h_2 => rfl
    | openingFailed | ending => exact hends _
    | turningOff stage =>
        have hbegins := l.session.cause_beginShutdown
        rw [turn]
        split
        case h_1 heq => rwa [heq] at hbegins
        case h_2 heq => rwa [heq] at hbegins
    | _ => exact absurd rfl hquiet

namespace ClientRun

variable {k : Kernel W} {o : ClientOptions} {s s' : ClientRun W}

/-- What the reader tells, and what it is about to tell, is what it has come upon. -/
structure Heard (s : ClientRun W) : Prop where
  cause : ∀ cause, s.session.cause = some cause →
    s.shared.reader = .stopped ∧ ∃ readEnd, s.readEnd = some readEnd ∧ readEnd.Explains cause
  found : ∀ cause, s.shared.reader = .found cause →
    ∃ readEnd, s.readEnd = some readEnd ∧ readEnd.failure.kind ≠ .framing
      ∧ ∃ status, cause = backendExited status

theorem heard_fresh (world : W) : Heard (fresh world) where
  cause _ := nofun
  found _ := nofun

namespace Heard

theorem of_same (h : Heard s) (hcause : s'.session.cause = s.session.cause)
    (hreader : s'.shared.reader = s.shared.reader) (hend : s'.readEnd = s.readEnd) : Heard s' where
  cause cause := by
    rw [hcause, hreader, hend]
    exact h.cause cause
  found cause := by
    rw [hreader, hend]
    exact h.found cause

/-- The session has not ended for the reader while that runs. -/
theorem cause_none (h : Heard s) (hruns : s.shared.reader ≠ .stopped) : s.session.cause = none :=
  Option.eq_none_iff_forall_ne_some.mpr fun cause hcause => hruns (h.cause cause hcause).1

end Heard

/-- The stream of the reader fails. -/
theorem heard_failReading (h : Heard s) (readEnd : ReadEnd) (hreading : s.shared.reader = .reading) :
    Heard (s.failReading readEnd) := by
  have hnone := h.cause_none (by simp [hreading])
  unfold failReading
  split
  case isTrue hframing =>
    refine ⟨fun cause hcause => ⟨?_, readEnd, rfl, ?_⟩, fun cause hfound => ?_⟩
    · simp [SessionRun.step, hreading]
    · simp only [session, SessionRun.step, hreading, if_true] at hcause
      rcases s.session.cause_terminate readEnd.failure with hsame | hnew
      · exact absurd (hcause.symm.trans (hsame.trans hnone)) (by simp)
      · rw [ReadEnd.Explains, if_pos hframing]
        exact Option.some.inj (hcause.symm.trans hnew)
    · simp [SessionRun.step, hreading] at hfound
  case isFalse hclosed =>
    simp only [SessionRun.step, hreading, if_true]
    refine ⟨fun cause hcause => absurd (hcause.symm.trans hnone) (by simp), fun cause hfound =>
      ⟨readEnd, rfl, hclosed, none, ?_⟩⟩
    split at hfound
    · simp at hfound
    · exact (ReaderPlace.found.inj hfound).symm

/-- The reader looks at the backend, or reports what it has found. -/
theorem heard_readOn (h : Heard s) (hfits : s.TaskFits) : Heard (s.readOn k o) := by
  unfold readOn
  split
  case h_1 => exact h.of_same rfl rfl rfl
  case h_2 => exact h.of_same rfl rfl rfl
  case h_3 htask =>
    have hfound : ∃ cause, s.shared.reader = .found cause := by simpa [TaskFits, htask] using hfits
    obtain ⟨found, hfound⟩ := hfound
    have hnone := h.cause_none (by simp [hfound])
    obtain ⟨readEnd, hend, hclosed, -⟩ := h.found found hfound
    refine ⟨fun cause hcause => absurd (hcause.symm.trans hnone) (by simp), fun cause hnext => ?_⟩
    exact ⟨readEnd, hend, hclosed, _, (ReaderPlace.found.inj hnext).symm⟩
  case h_4 =>
    cases hreader : s.shared.reader with
    | found found =>
        have hnone := h.cause_none (by simp [hreader])
        obtain ⟨readEnd, hend, hclosed, hstatus⟩ := h.found found hreader
        simp only [SessionRun.step, hreader]
        refine ⟨fun cause hcause => ⟨rfl, readEnd, hend, ?_⟩, by simp⟩
        rcases s.session.cause_terminate found with hsame | hnew
        · exact absurd (hcause.symm.trans (hsame.trans hnone)) (by simp)
        · rw [ReadEnd.Explains, if_neg hclosed, Option.some.inj (hcause.symm.trans hnew)]
          exact hstatus
    | absent | reading | stopped =>
        have hsame : s.shared.step .report = s.shared := by simp only [SessionRun.step, hreader]
        rw [hsame]
        exact h

/-- Nobody but the reader says why the session has ended, and nobody but the one who launches the
backend moves the reader. -/
theorem Does.heard {move : ClientMove W} {next : SessionRun} (hdoes : s.Does move next)
    (hs : s.shared.Orderly) (hfails : ∀ readEnd, move ≠ .fails readEnd)
    (hreader : move ≠ .readerGoesOn) :
    next.ledger.session.cause = s.session.cause ∧ next.reader = s.shared.reader
      ∨ next.ledger.session.cause = none ∧ next.reader = .reading := by
  cases hdoes with
  | nothing | publish => exact .inl ⟨rfl, rfl⟩
  | start thread | request thread =>
      left
      simp only [SessionRun.step]
      split <;> exact ⟨rfl, rfl⟩
  | shutdown thread =>
      left
      simp only [SessionRun.step]
      split
      · split
        · exact ⟨s.session.cause_beginShutdown, rfl⟩
        · exact ⟨rfl, rfl⟩
      · exact ⟨rfl, rfl⟩
  | proceed thread message answers late well =>
      have hcause := (s.shared.place thread).cause_turn s.shared.ledger thread well
      by_cases hlaunched : s.shared.place thread = .launched
      · have hseat := hs.seats thread
        rw [hlaunched] at hseat
        have hstage : s.session.stage = .unstarted := hseat.fresh rfl
        refine .inr ⟨?_, if_pos hlaunched⟩
        show ((s.shared.place thread).turn s.shared.ledger thread well).ledger.session.cause = none
        rw [hcause, hs.books.cause, hs.books.causesLast (by rw [hstage]; decide)]
        rfl
      · exact .inl ⟨hcause, if_neg hlaunched⟩
  | reply id reply =>
      left
      simp only [SessionRun.step]
      split
      · exact ⟨(Session.sameCourse_answer _ _ _).cause, rfl⟩
      · exact ⟨rfl, rfl⟩
  | breaks | ends => exact absurd rfl (hfails _)
  | find | report => exact absurd rfl hreader

theorem readEnd_proceed (k : Kernel W) (o : ClientOptions) (s : ClientRun W) (thread : Nat)
    (message : Outgoing) (answers : List WriteAnswer) (late : Bool) :
    (s.proceed k o thread message answers late).readEnd = s.readEnd := by
  by_cases hordinary : (s.shared.place thread).isQuiet = true ∧ s.shared.place thread ≠ .stopping
  case pos =>
    obtain ⟨well, writer, wire, opening, hnext, -⟩ :=
      exists_proceed k o s thread message answers late hordinary.1 hordinary.2
    rw [hnext]
  case neg =>
    unfold proceed
    cases hp : s.shared.place thread with
    | launching =>
        show (s.launch k o thread).readEnd = _
        unfold launch
        split <;> rfl
    | settling =>
        show (s.settle thread).readEnd = _
        unfold settle
        split <;> rfl
    | turningOff stage =>
        show (s.turnOff thread).readEnd = _
        unfold turnOff
        split <;> rfl
    | stopping =>
        show (s.tidy k o thread).readEnd = _
        unfold tidy
        split
        · rfl
        · split
          · rfl
          case isFalse chore _ _ _ => cases chore <;> rfl
    | launched | openingFailed | ending => rfl
    | _ => simp [hp, ThreadPlace.isQuiet] at hordinary

/-- Only the end of the stream is noted as that. -/
theorem readEnd_step (k : Kernel W) (o : ClientOptions) (s : ClientRun W) {move : ClientMove W}
    (hfails : ∀ readEnd, move ≠ .fails readEnd) : (s.step k o move).readEnd = s.readEnd := by
  cases move with
  | elsewhere => rfl
  | start | shutdown | ask =>
      simp only [step]
      repeat' split
      all_goals rfl
  | post | errorsEnd =>
      rw [step]
      split <;> rfl
  | proceed thread message answers late => exact readEnd_proceed k o s thread message answers late
  | arrives arrival =>
      rw [step]
      split
      · cases arrival <;> rfl
      · rfl
  | fails readEnd => exact absurd rfl (hfails readEnd)
  | readerGoesOn =>
      rw [step]
      unfold readOn
      split <;> rfl

/-- **What the reader tells is what it has come upon.** -/
theorem heard_step (hs : Coherent s) (h : Heard s) (move : ClientMove W) :
    Heard (s.step k o move) := by
  by_cases hreader : move = .readerGoesOn
  case pos =>
    rw [hreader]
    exact heard_readOn h hs.task
  by_cases hfails : ∀ readEnd, move ≠ .fails readEnd
  case neg =>
    push Not at hfails
    obtain ⟨readEnd, rfl⟩ := hfails
    rw [step]
    split
    case isTrue hcan => exact heard_failReading h readEnd hcan.1
    case isFalse => exact h
  have hend := readEnd_step k o s hfails
  rcases (does_step k o s hs.task move).heard hs.steady.orderly hfails hreader with
    ⟨hcause, hsame⟩ | ⟨hnone, hreading⟩
  · exact h.of_same hcause hsame hend
  · refine ⟨fun cause hcause => absurd (hcause.symm.trans hnone) (by simp), fun cause hfound => ?_⟩
    exact absurd (hfound.symm.trans hreading) (by simp)

end ClientRun

end AnalyzerBridge

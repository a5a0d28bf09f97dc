/-
A start that is not answered fails, and says why.

The backend cannot be launched, does not take the opening call, ends before it answers, writes
something that is no frame, or stays silent.  Three threads find these things out, at any time and
in any order, and the first to end the session has ended it.  Whoever has started it is told one
failure, which is that of the launch or the first that it came upon itself.

If the reader has ended the session while the opening call was pending, that is the reader's failure,
with one exception.  The call is pending from when it is registered, which is before its frame is
written.  In between the reader can have ended the session and closed the writer, and then the thread
comes upon the closed writer and not upon the reader's failure.

`OpeningFailure` lists the failures that the starting thread can come upon, with what the books say
of each for good; `Noted` and `StartFailed` follow such a failure from there to whoever is told.
-/
import AnalyzerBridge.Proofs.Session.Heard
import AnalyzerBridge.Proofs.Session.Process
import AnalyzerBridge.Proofs.Session.Rest
import AnalyzerBridge.Proofs.Session.Unanswered

namespace AnalyzerBridge

open Host (Kernel)
open AnalyzerBridge.Frame (Writer WriteAnswer Outgoing)
open Ledger (Section Sound)

variable {W : Type}

namespace ClientRun

variable {k : Kernel W} {o : ClientOptions} {s s' : ClientRun W}

/-! ### Silence -/

/-- The backend does not answer the opening call. -/
def IsSilent (moves : List (ClientMove W)) : Prop := ∀ reply, .arrives (.reply 1 reply) ∉ moves

theorem IsSilent.mono {made moves : List (ClientMove W)} (h : IsSilent moves)
    (hmade : made <+: moves) : IsSilent made := fun reply hin => h reply (hmade.subset hin)

theorem IsSilent.split {before after : List (ClientMove W)} (h : IsSilent (before ++ after)) :
    IsSilent before ∧ IsSilent after :=
  ⟨fun reply hin => h reply (List.mem_append_left _ hin),
    fun reply hin => h reply (List.mem_append_right _ hin)⟩

theorem unopened_step (hs : Coherent s) (h : s.shared.Unopened) {move : ClientMove W}
    (hsilent : ∀ reply, move ≠ .arrives (.reply 1 reply)) : (s.step k o move).shared.Unopened := by
  have hdoes := does_step k o s hs.task move
  generalize (s.step k o move).shared = next at hdoes ⊢
  cases hdoes with
  | nothing => exact h
  | publish | find => exact ⟨h.alone, { h.books with }⟩
  | reply id reply =>
      refine SessionRun.unopened_step h hs.steady fun other hc => hsilent reply ?_
      rw [(SessionMove.reply.inj hc).1]
  | start | shutdown | request | proceed | breaks | ends | report =>
      exact SessionRun.unopened_step h hs.steady nofun

/-- Once the opening call was written, no call is found unsent. -/
theorem written_step (hs : Coherent s) (h : s.shared.Unopened)
    (hbegun : s.session.stage ≠ .unstarted) (hwritten : s.shared.busy.writes = false)
    (move : ClientMove W) :
    (s.step k o move).shared.ledger.unsent = s.shared.ledger.unsent
      ∧ (s.step k o move).shared.busy.writes = false := by
  have hdoes := does_step k o s hs.task move
  generalize (s.step k o move).shared = next at hdoes ⊢
  cases hdoes with
  | nothing | publish | find => exact ⟨rfl, hwritten⟩
  | start | shutdown | request | proceed | reply | breaks | ends | report =>
      exact SessionRun.written_step h hs.steady hbegun hwritten _

theorem written_run (hs : Coherent s) (h : s.shared.Unopened)
    (hbegun : s.session.stage ≠ .unstarted) (hwritten : s.shared.busy.writes = false)
    {moves : List (ClientMove W)} (hsilent : IsSilent moves) :
    (s.run k o moves).shared.ledger.unsent = s.shared.ledger.unsent := by
  induction moves generalizing s with
  | nil => rfl
  | cons move rest ih =>
      obtain ⟨hunsent, hnext⟩ := written_step (k := k) (o := o) hs h hbegun hwritten move
      have hsilent' : IsSilent rest := fun reply hin => hsilent reply (List.mem_cons_of_mem _ hin)
      refine (ih (coherent_step hs move) (unopened_step hs h fun reply hc => hsilent reply ?_)
        ((precedes_step hs move).begun hbegun) hnext hsilent').trans hunsent
      rw [hc]
      exact List.mem_cons_self

/-! ### Why an opening fails -/

/-- Why a frame is not written: nothing is written any more, or the writer fails. -/
def Unwritable (failure : Failure) : Prop :=
  failure = Session.overFailure
    ∨ ∃ (writer : Writer) (answers : List WriteAnswer) (message : Outgoing),
      (writer.offer answers message).failure = some failure

theorem unwritable_of_writeFailure {message : Outgoing} {answers : List WriteAnswer}
    {failure : Failure} (h : s.writeFailure? message answers = some failure) :
    Unwritable failure := by
  unfold writeFailure? written? at h
  cases hw : s.writer with
  | none =>
      rw [hw] at h
      exact .inl (Option.some.inj h).symm
  | some writer =>
      rw [hw] at h
      exact .inr ⟨writer, answers, message, h⟩

theorem Unwritable.kind_ne {failure : Failure} (h : Unwritable failure) :
    failure.kind ≠ .startup := by
  rcases h with rfl | ⟨writer, answers, message, hfails⟩
  · decide
  · have hdone := Writer.offer_ended writer answers message
    rcases hdone.kind hfails with hkind | hkind <;> simp [hkind]

/-- Why the opening has failed, and what the books say of it. -/
inductive OpeningFailure (o : ClientOptions) (l : Ledger) : Failure → Prop
  /-- The session was over before the opening call could be registered. -/
  | tooLate (ended : l.session.stage = .terminated) (none : l.registered = []) :
      OpeningFailure o l Session.overFailure
  /-- Its frame could not be written. -/
  | unwritten {failure : Failure} (unsent : 1 ∈ l.unsent) (unwritable : Unwritable failure) :
      OpeningFailure o l failure
  /-- The reader has ended the session while it was waited for. -/
  | ended {cause : Failure} (found : l.session.end? 1 = some (.failed cause))
      (recorded : l.session.cause = some cause) : OpeningFailure o l cause
  /-- It was not answered in time. -/
  | late (gaveUp : 1 ∈ l.timedOut) (endless : l.session.end? 1 = none) :
      OpeningFailure o l o.openingLate

namespace OpeningFailure

variable {l l' : Ledger} {failure : Failure}

/-- Nothing that happens afterwards is why the opening has failed. -/
theorem mono (h : OpeningFailure o l failure) (hs : Sound l) (step : Section l l') :
    OpeningFailure o l' failure := by
  cases h with
  | tooLate ended none =>
      exact .tooLate (step.precedes.stays_terminated ended) ((step.precedes.closed ended).trans none)
  | unwritten unsent unwritable =>
      exact .unwritten (step.settled_prefix.1.subset unsent) unwritable
  | ended found recorded =>
      have hover : l.session.stage = .terminated := by
        by_contra hlive
        rw [hs.cause, hs.causesLast hlive] at recorded
        simp at recorded
      exact .ended (step.end?_stays hs found) ((cause_of_over step hover).trans recorded)
  | late gaveUp endless =>
      have hnot : 1 ∉ l.session.pending := fun hc =>
        ((hs.pending 1).mp hc).2 (.inr (.inl gaveUp))
      exact .late (step.settled_prefix.2.subset gaveUp) ((step.end?_eq hnot).trans endless)

theorem step (hs : Coherent s) (h : OpeningFailure o s.shared.ledger failure)
    (move : ClientMove W) : OpeningFailure o (s.step k o move).shared.ledger failure := by
  obtain ⟨l, board, hsection, hledger⟩ := section_step (k := k) (o := o) hs move
  rw [hledger]
  -- Nothing of it has to do with the board.
  cases h.mono hs.steady.orderly.books hsection with
  | tooLate ended none => exact .tooLate ended none
  | unwritten unsent unwritable => exact .unwritten unsent unwritable
  | ended found recorded => exact .ended found recorded
  | late gaveUp endless => exact .late gaveUp endless

/-- It is not the failure of a start, but the reason for one. -/
theorem kind_ne (h : OpeningFailure o s.shared.ledger failure) (hheard : Heard s) :
    failure.kind ≠ .startup := by
  cases h with
  | tooLate => decide
  | unwritten unsent unwritable => exact unwritable.kind_ne
  | ended found recorded =>
      obtain ⟨-, readEnd, -, hexplains⟩ := hheard.cause failure recorded
      rcases hexplains.kind with hkind | hkind <;> simp [hkind]
  | late => exact nofun

end OpeningFailure

/-- Why the opening has failed is noted as it was come upon. -/
def Noted (o : ClientOptions) (s : ClientRun W) : Prop :=
  ∀ failure, s.opening = some failure → s.session.connected = true
    ∧ (s.shared.busy = .unsent .opening 1 ∧ Unwritable failure
      ∨ OpeningFailure o s.shared.ledger failure)

/-- Nothing new is noted. -/
theorem noted_onward (hs : Coherent s) (h : s.Noted o) (move : ClientMove W)
    (hopening : ∀ failure, (s.step k o move).opening = some failure → s.opening = some failure)
    (hbusy : s.shared.busy = .unsent .opening 1 →
      (s.step k o move).shared.busy = .unsent .opening 1) : (s.step k o move).Noted o := by
  intro failure hfailure
  obtain ⟨hsome, hwhy⟩ := h failure (hopening failure hfailure)
  exact ⟨stays_connected hs move hsome, hwhy.imp (·.imp_left hbusy) (·.step hs move)⟩

/-- What the thread that opens the session comes upon as a failure. -/
inductive ComesUpon (o : ClientOptions) (s : ClientRun W) (message : Outgoing)
    (answers : List WriteAnswer) (late : Bool) : ThreadPlace → Failure → Prop
  | unregistered {failure : Failure} (refuses : s.session.register = .error failure) :
      ComesUpon o s message answers late (.calling .opening) failure
  | unwritten {failure : Failure} (fails : s.writeFailure? message answers = some failure) :
      ComesUpon o s message answers late (.sending .opening 1) failure
  | unanswered {failure : Failure} (fails : s.waitFailure? o 1 late = some failure) :
      ComesUpon o s message answers late (.waiting .opening 1) failure

/-- Nothing else is noted. -/
theorem opening_proceed {thread : Nat} {message : Outgoing} {answers : List WriteAnswer}
    {late : Bool} (hearly : (s.shared.place thread).isEarly = true) {failure : Failure}
    (hnoted : (s.proceed k o thread message answers late).opening = some failure) :
    s.opening = some failure
      ∨ ComesUpon o s message answers late (s.shared.place thread) failure := by
  have hnote : ∀ (next : ClientRun W) (found : Option Failure), next.opening = s.opening →
      (next.noteOpening .opening found).opening = some failure →
      s.opening = some failure ∨ found = some failure := by
    intro next found hsame hnew
    cases found with
    | none => exact .inl (hsame ▸ hnew)
    | some other => exact .inr hnew
  unfold proceed at hnoted
  cases hp : s.shared.place thread with
  | idle | launched | unsent | openingFailed | ending =>
      rw [hp] at hnoted
      exact .inl hnoted
  | launching =>
      left
      simp only [hp, launch] at hnoted
      split at hnoted <;> exact hnoted
  | calling purpose =>
      obtain rfl : purpose = .opening := by simpa [hp, ThreadPlace.isEarly] using hearly
      cases hregister : s.session.register with
      | ok registered =>
          simp only [hp, hregister] at hnoted
          exact .inl hnoted
      | error refusal =>
          simp only [hp, hregister] at hnoted
          refine (hnote s (some refusal) rfl hnoted).imp_right fun hfound => ?_
          rw [Option.some.inj hfound] at hregister
          exact .unregistered hregister
  | sending purpose id =>
      obtain ⟨rfl, rfl⟩ : purpose = .opening ∧ id = 1 := by
        simpa [hp, ThreadPlace.isEarly] using hearly
      simp only [hp] at hnoted
      exact (hnote (s.write message answers) _ rfl hnoted).imp_right .unwritten
  | waiting purpose id =>
      obtain ⟨rfl, rfl⟩ : purpose = .opening ∧ id = 1 := by
        simpa [hp, ThreadPlace.isEarly] using hearly
      simp only [hp] at hnoted
      exact (hnote s _ rfl hnoted).imp_right .unanswered
  | cancelling purpose =>
      left
      obtain ⟨writer, wire, hnotify, -⟩ := s.exists_notify message answers
      simp only [hp, hnotify] at hnoted
      exact hnoted
  | turningOff stage =>
      left
      simp only [hp, turnOff] at hnoted
      split at hnoted <;> exact hnoted
  | stopping =>
      left
      simp only [hp, tidy] at hnoted
      split at hnoted
      · simp at hnoted
      · split at hnoted
        · exact hnoted
        case isFalse chore _ _ _ => cases chore <;> exact hnoted
  | acknowledging | settling | leaving => simp [hp, ThreadPlace.isEarly] at hearly

/-- The opening call cannot be registered only because the session is over. -/
theorem openingFailure_of_unregistered (hs : Sound s.shared.ledger)
    (hbooks : Unanswered s.shared.ledger (.calling .opening)) {failure : Failure}
    (hrefuses : s.session.register = .error failure) :
    OpeningFailure o s.shared.ledger failure := by
  have hsome : s.session.connected = true := hbooks.streaming rfl (by simp)
  have hnone : s.shared.ledger.registered = [] := by
    have hids := hs.numbers
    rw [hbooks.first rfl] at hids
    exact List.map_eq_nil_iff.mp hids
  rw [Session.register] at hrefuses
  split at hrefuses
  case h_1 refusal hrefusal =>
    obtain rfl := Except.error.inj hrefuses
    rw [Session.sendRefusal] at hrefusal
    split at hrefusal
    case isTrue hover =>
      obtain rfl := Option.some.inj hrefusal
      exact .tooLate (by simpa [hsome] using hover) hnone
    case isFalse => simp at hrefusal
  case h_2 => simp at hrefuses

/-- The opening call has come to its end, or is given up. -/
theorem openingFailure_of_unanswered (hheard : Heard s) {late : Bool}
    (hbooks : Unanswered s.shared.ledger (.waiting .opening 1)) {failure : Failure}
    (hfails : s.waitFailure? o 1 late = some failure) (thread : Nat) :
    OpeningFailure o ((ThreadPlace.waiting .opening 1).turn s.shared.ledger thread !late).ledger
      failure := by
  unfold waitFailure? at hfails
  rw [ThreadPlace.turn]
  split at hfails
  case h_1 cause hend =>
    obtain ⟨recorded, hcause, hrecorded⟩ := hbooks.ends _ hend
    obtain rfl := CallEnd.failed.inj hcause
    have hkind : cause.kind ≠ .backendRejected := by
      obtain ⟨-, readEnd, -, hexplains⟩ := hheard.cause cause hrecorded
      rcases hexplains.kind with hkind | hkind <;> simp [hkind]
    rw [← Option.some.inj hfails, openingCause, if_neg hkind]
    simp only [hend]
    exact .ended hend hrecorded
  case h_2 => simp at hfails
  case h_3 hend =>
    cases late with
    | false => simp at hfails
    | true =>
        obtain rfl := Option.some.inj hfails
        have hgiven : OpeningFailure o (s.shared.ledger.giveUp 1) o.openingLate :=
          .late (by simp [Ledger.giveUp]) hend
        simp only [hend, Bool.not_true, Bool.false_eq_true, if_false]
        split <;> exact hgiven

/-- The thread in charge of a session that is not opened goes on. -/
theorem noted_proceed (hs : Coherent s) (hheard : Heard s) (hunopened : s.shared.Unopened)
    (h : s.Noted o) {thread : Nat} (hlock : s.shared.lock = some thread) (message : Outgoing)
    (answers : List WriteAnswer) (late : Bool) :
    (s.proceed k o thread message answers late).Noted o := by
  have hbusy := SessionRun.busy_of_lock hlock
  have hbooks := hunopened.books
  rw [hbusy] at hbooks
  intro failure hnoted
  have hconnected : s.session.connected = true →
      (s.proceed k o thread message answers late).session.connected = true :=
    stays_connected hs (.proceed thread message answers late)
  have hmono : OpeningFailure o s.shared.ledger failure →
      OpeningFailure o (s.proceed k o thread message answers late).shared.ledger failure :=
    fun hwhy => hwhy.step hs (.proceed thread message answers late)
  rcases opening_proceed hbooks.early hnoted with hold | hnew
  case inl =>
    obtain ⟨hsome, ⟨hunsent, hunwritable⟩ | hwhy⟩ := h failure hold
    · refine ⟨hconnected hsome, .inr (.unwritten ?_ hunwritable)⟩
      have hp := hbusy.symm.trans hunsent
      simp [proceed, hp, go, SessionRun.step, ThreadPlace.turn, Ledger.dropUnsent]
    · exact ⟨hconnected hsome, .inr (hmono hwhy)⟩
  case inr =>
    generalize hp : s.shared.place thread = p at hnew hbooks
    cases hnew with
    | unregistered hrefuses =>
        exact ⟨hconnected (hbooks.streaming rfl (by simp)), .inr (hmono
          (openingFailure_of_unregistered hs.steady.orderly.books hbooks hrefuses))⟩
    | unwritten hfails =>
        refine ⟨hconnected (hbooks.streaming rfl (by simp)), .inl
          ⟨?_, unwritable_of_writeFailure hfails⟩⟩
        simp only [proceed, hp, hfails]
        show (s.shared.step (.proceed thread false)).busy = _
        rw [Errands.busy_go hlock, hp]
        rfl
    | unanswered hfails =>
        refine ⟨hconnected (hbooks.streaming rfl (by simp)), .inr ?_⟩
        simp only [proceed, hp, go, noteOpening, SessionRun.step, SessionRun.ledger_take]
        exact openingFailure_of_unanswered hheard hbooks hfails thread

/-- **What is noted of why the opening has failed is so.** -/
theorem noted_step (hs : Coherent s) (hheard : Heard s) (hunopened : s.shared.Unopened)
    (h : s.Noted o) (move : ClientMove W) : (s.step k o move).Noted o := by
  have hmoved := moved_step (k := k) (o := o) hs move
  have honward := noted_onward (k := k) hs h move
  generalize s.step k o move = s' at hmoved honward ⊢
  cases hmoved with
  | aside later haside =>
      refine honward (fun failure hfailure => haside.opening ▸ hfailure) fun hbusy => ?_
      rw [haside.busy, hbusy]
  | start thread fresh free | shutdown thread begun free | early thread fresh idle free =>
      refine honward (fun _ => id) fun hbusy => ?_
      simp [SessionRun.busy_of_free free] at hbusy
  | proceed thread holds message answers late =>
      exact noted_proceed hs hheard hunopened h holds message answers late

/-! ### What whoever starts the session is told -/

/-- How a start has ended, with the next turn of the thread in charge. -/
inductive StartEnds (k : Kernel W) (o : ClientOptions) (s : ClientRun W) :
    ThreadPlace → Except Failure Unit → Prop
  | unlaunched {failure : Failure}
      (fails : (s.keeping.answer k (.spawn o.plan)).launchFailure? = some failure) :
      StartEnds k o s .launching (.error failure)
  | stopped {failure : Failure} (noted : s.opening = some failure) :
      StartEnds k o s .stopping (.error failure.asStartup)

/-- A start that was not answered ends in no other way. -/
theorem started_proceed {thread other : Nat} {message : Outgoing} {answers : List WriteAnswer}
    {late : Bool} (hearly : (s.shared.place thread).isEarly = true) {result : Except Failure Unit}
    (htold : (other, .started result) ∈ (s.proceed k o thread message answers late).returned) :
    (other, .started result) ∈ s.returned ∨ StartEnds k o s (s.shared.place thread) result := by
  by_cases hordinary : (s.shared.place thread).isQuiet = true ∧ s.shared.place thread ≠ .stopping
  case pos =>
    obtain ⟨well, writer, wire, opening, hnext, -⟩ :=
      exists_proceed k o s thread message answers late hordinary.1 hordinary.2
    rw [hnext] at htold
    exact .inl htold
  case neg =>
    unfold proceed at htold
    cases hp : s.shared.place thread with
    | launching =>
        simp only [hp, launch] at htold
        split at htold
        case h_1 failure hfails =>
          rcases List.mem_append.mp htold with hold | hnew
          · exact .inl hold
          · obtain ⟨-, rfl⟩ : other = thread ∧ result = .error failure := by simpa using hnew
            exact .inr (.unlaunched hfails)
        case h_2 => exact .inl htold
    | turningOff stage =>
        left
        simp only [hp, turnOff] at htold
        split at htold
        · exact htold
        all_goals simpa [reply, go] using htold
    | stopping =>
        simp only [hp, tidy] at htold
        split at htold
        case h_1 =>
          rcases List.mem_append.mp htold with hold | hnew
          · exact .inl hold
          · unfold lastWord at hnew
            split at hnew
            case h_1 failure hnoted =>
              obtain ⟨-, rfl⟩ : other = thread ∧ result = .error failure.asStartup := by
                simpa using hnew
              exact .inr (.stopped hnoted)
            case h_2 => simp at hnew
        case h_2 chore rest hchores =>
          left
          split at htold
          · exact htold
          · cases chore <;> exact htold
    | launched | openingFailed | ending =>
        simp only [hp] at htold
        exact .inl htold
    | settling => simp [hp, ThreadPlace.isEarly] at hearly
    | _ => simp [hp, ThreadPlace.isQuiet] at hordinary

/-- How a start has ended that was not answered. -/
structure StartFailed (o : ClientOptions) (s : ClientRun W) (failure : Failure) : Prop where
  terminated : s.session.stage = .terminated
  /-- The backend could not be launched, or the opening has failed for a reason of its own. -/
  reason : s.keeping.launches = [some failure] ∧ failure.kind = .spawn
    ∨ s.keeping.launches = [none] ∧ ∃ found, OpeningFailure o s.shared.ledger found
      ∧ failure = { found with kind := .startup, message := found.describe }

/-- The failure of a start stays what it was. -/
theorem StartFailed.step (hs : Coherent s) {failure : Failure} (h : StartFailed o s failure)
    (move : ClientMove W) : StartFailed o (s.step k o move) failure := by
  have hbegun : s.session.stage ≠ .unstarted := by simp [h.terminated]
  have hlaunches := (calm_step k o s hs.task (hs.isLater hbegun move)).launches
  refine ⟨(precedes_step hs move).stays_terminated h.terminated, ?_⟩
  rw [hlaunches]
  exact h.reason.imp_right fun ⟨hlaunched, found, hwhy, hfailure⟩ =>
    ⟨hlaunched, found, hwhy.step hs move, hfailure⟩

end ClientRun

/-- A launch fails as one. -/
theorem KeeperRun.kind_of_launchFailure {k : Kernel W} {r : KeeperRun W} {plan : LaunchPlan}
    {failure : Failure} (h : (r.answer k (.spawn plan)).launchFailure? = some failure) :
    failure.kind = .spawn := by
  obtain ⟨calls, -, hturned⟩ := r.step_turned k (.spawn plan)
  generalize r.answer k (.spawn plan) = exchange at h hturned
  generalize (r.step k (.request (.spawn plan))).keeper = next at hturned
  cases hturned with
  | spawn launch =>
      cases launch with
      | running => simp [Exchange.launchFailure?, failure?] at h
      | busy | nameless | pipeless | forkless | failed => rw [← Option.some.inj h]; rfl
  | _ => simp [Exchange.launchFailure?] at h

namespace ClientRun

variable {k : Kernel W} {o : ClientOptions} {s s' : ClientRun W}

/-- The backend cannot be launched. -/
theorem startFailed_of_unlaunched (hs : Coherent s) {thread : Nat}
    (hp : s.shared.place thread = .launching) {failure : Failure}
    (hfails : (s.keeping.answer k (.spawn o.plan)).launchFailure? = some failure) :
    StartFailed o (s.launch k o thread) failure := by
  have hspawn := s.keeping.launches_spawn k o.plan
  rw [(hs.unlaunched hp).2.2, hfails, List.nil_append] at hspawn
  unfold launch
  simp only [hfails]
  refine ⟨?_, .inl ⟨hspawn, KeeperRun.kind_of_launchFailure hfails⟩⟩
  show (s.shared.step (.proceed thread false)).ledger.session.stage = .terminated
  simp [SessionRun.step, hp, ThreadPlace.turn, Session.launchFailed]

/-- Why the opening has failed was noted, and the session is closed now. -/
theorem startFailed_of_stopped (hs : Coherent s) (hheard : Heard s) (he : s.Errands)
    (hn : s.Noted o) (hbusy : s.shared.busy = .stopping) {failure : Failure}
    (hnoted : s.opening = some failure) : StartFailed o s failure.asStartup := by
  obtain ⟨hsome, ⟨hunsent, -⟩ | hwhy⟩ := hn failure hnoted
  · simp [hbusy] at hunsent
  · refine ⟨(he.stopping hbusy).terminated, .inr ⟨hs.connected_iff.mp hsome, failure, hwhy, ?_⟩⟩
    rw [Failure.asStartup, if_neg (hwhy.kind_ne hheard)]

/-- Everyone who has started the session was told that it has failed. -/
def Failing (o : ClientOptions) (s : ClientRun W) : Prop :=
  ∀ thread result, (thread, .started result) ∈ s.returned →
    ∃ failure, result = .error failure ∧ StartFailed o s failure

theorem failing_step (hs : Coherent s) (hheard : Heard s) (hunopened : s.shared.Unopened)
    (he : s.Errands) (hn : s.Noted o) (h : s.Failing o) (move : ClientMove W) :
    (s.step k o move).Failing o := by
  have hmoved := moved_step (k := k) (o := o) hs move
  have hlater : ∀ failure, StartFailed o s failure → StartFailed o (s.step k o move) failure :=
    fun failure hfailed => hfailed.step hs move
  have hold : ∀ thread result, (thread, .started result) ∈ s.returned →
      ∃ failure, result = .error failure ∧ StartFailed o (s.step k o move) failure :=
    fun thread result htold => (h thread result htold).imp fun _ => .imp_right (hlater _)
  intro other result htold
  generalize s.step k o move = s' at hmoved htold hold hlater ⊢
  cases hmoved with
  | aside later haside =>
      obtain ⟨refusals, hreturned, hrefused⟩ := haside.told
      rw [hreturned] at htold
      rcases List.mem_append.mp htold with hin | hrefusal
      · exact hold other result hin
      · exact absurd (hrefused _ hrefusal) (by simp [ClientReply.isRefusal])
  | start | shutdown => exact hold other result htold
  | early => exact hold other result (by simpa [reply] using htold)
  | proceed thread holds message answers late =>
      have hbusy := SessionRun.busy_of_lock holds
      have hearly := hunopened.books.early
      rw [hbusy] at hearly
      rcases started_proceed hearly htold with hin | hends
      · exact hold other result hin
      · generalize hp : s.shared.place thread = p at hends
        cases hends with
        | unlaunched hfails =>
            refine ⟨_, rfl, ?_⟩
            simp only [proceed, hp]
            exact startFailed_of_unlaunched hs hp hfails
        | stopped hnoted =>
            exact ⟨_, rfl, hlater _
              (startFailed_of_stopped hs hheard he hn (hbusy.trans hp) hnoted)⟩

/-! ### Runs without an answer -/

/-- What holds of a client whose opening call is not answered. -/
structure Fruitless (o : ClientOptions) (s : ClientRun W) : Prop where
  coherent : Coherent s
  errands : s.Errands
  heard : Heard s
  unopened : s.shared.Unopened
  noted : s.Noted o
  failing : s.Failing o

theorem fruitless_fresh (o : ClientOptions) (world : W) : Fruitless o (fresh world) where
  coherent := coherent_fresh world
  errands := errands_fresh world
  heard := heard_fresh world
  unopened := SessionRun.unopened_start
  noted _ := nofun
  failing _ _ := nofun

theorem fruitless_run (h : Fruitless o s) {moves : List (ClientMove W)} (hsilent : IsSilent moves) :
    Fruitless o (s.run k o moves) := by
  induction moves generalizing s with
  | nil => exact h
  | cons move rest ih =>
      obtain ⟨hs, he, hheard, hunopened, hn, hf⟩ := h
      have hquiet : ∀ reply, move ≠ .arrives (.reply 1 reply) := by
        rintro reply rfl
        exact hsilent reply List.mem_cons_self
      exact ih ⟨coherent_step hs move, errands_step hs he move, heard_step hs hheard move,
        unopened_step hs hunopened hquiet, noted_step hs hheard hunopened hn move,
        failing_step hs hheard hunopened he hn hf move⟩ fun reply hin =>
          hsilent reply (List.mem_cons_of_mem _ hin)

theorem end?_run (hs : Coherent s) {id : Nat} {found : CallEnd}
    (hend : s.session.end? id = some found) (moves : List (ClientMove W)) :
    (s.run k o moves).session.end? id = some found := by
  induction moves generalizing s with
  | nil => exact hend
  | cons move rest ih =>
      refine ih (coherent_step hs move) ?_
      obtain ⟨l, board, hsection, hledger⟩ := section_step (k := k) (o := o) hs move
      rw [session, hledger]
      exact hsection.end?_stays hs.steady.orderly.books hend

/-- Between the two states the session has ended for a cause that the reader has come upon, and the
opening call was in the table then. -/
structure EndsPending (s s' : ClientRun W) (cause : Failure) : Prop where
  pending : 1 ∈ s.session.pending
  before : s.session.cause = none
  found : s'.session.cause = some cause

/-- What a start is told of the cause for which the session has ended: it is the failure, unless the
thread was not waiting for the reply yet and could not write the frame of the call. -/
def Reports (s : ClientRun W) (cause failure : Failure) : Prop :=
  failure.message = cause.describe
    ∨ s.shared.busy ≠ .waiting .opening 1
      ∧ ∃ found, Unwritable found ∧ failure.message = found.describe

/-- If the opening call is waited for, its frame does not turn out to be unsent. -/
theorem not_unsent_of_waiting (h : Fruitless o s) (hwaits : s.shared.busy = .waiting .opening 1)
    {moves : List (ClientMove W)} (hsilent : IsSilent moves) :
    1 ∉ (s.run k o moves).shared.ledger.unsent := by
  have hs := h.coherent.steady
  obtain ⟨thread, hlock⟩ : ∃ thread, s.shared.lock = some thread := by
    refine Option.ne_none_iff_exists'.mp fun hfree => ?_
    simp [SessionRun.busy_of_free hfree] at hwaits
  have hseat := hs.orderly.seats thread
  rw [← SessionRun.busy_of_lock hlock, hwaits] at hseat
  have hbegun : s.session.stage ≠ .unstarted := hseat.begun (by simp) rfl
  rw [written_run h.coherent h.unopened hbegun (by rw [hwaits]; rfl) hsilent]
  exact (hseat.call 1 rfl).2.2

/-- **If the reader ends the session while the opening call is pending, its cause is reported**, or
the frame of the call could not be written any more. -/
theorem EndsPending.reported (h : Fruitless o s) {move : ClientMove W} {cause : Failure}
    (hends : EndsPending s (s.step k o move) cause) {after : List (ClientMove W)}
    (hsilent : IsSilent (move :: after)) {failure : Failure}
    (hfailed : StartFailed o (s.run k o (move :: after)) failure) : Reports s cause failure := by
  have hcoherent := h.coherent
  have hpending := hends.pending
  have hlast : Coherent (s.run k o (move :: after)) := coherent_run hcoherent (move :: after)
  -- The call ends with the session, for the same cause, and that does not change.
  have hend : (s.step k o move).session.end? 1 = some (.failed cause) := by
    obtain ⟨l, board, hsection, hledger⟩ := section_step (k := k) (o := o) hcoherent move
    have hfound := hends.found
    rw [session, hledger] at hfound ⊢
    exact hsection.end?_of_cause hends.before hfound hpending
  have hended := end?_run (k := k) (o := o) (coherent_step hcoherent move) hend after
  -- It was registered, so there was a stream.
  have hknown : (s.run k o (move :: after)).shared.ledger.registered ≠ [] := by
    have hids := ((hcoherent.steady.orderly.books.pending 1).mp hpending).1
    have hgrows := (precedes_run (k := k) (o := o) hcoherent (move :: after)).registered
    intro hnone
    have hnow : s.shared.ledger.registered = [] := List.prefix_nil.mp (hnone ▸ hgrows)
    simp [Ledger.ids, hnow] at hids
  have hsome : s.session.connected = true :=
    h.unopened.books.connected_of_pending (List.ne_nil_of_mem hpending)
  have hlaunched := hlast.connected_iff.mp (stays_connected_run hcoherent (move :: after) hsome)
  rcases hfailed.reason with ⟨hspawn, -⟩ | ⟨-, found, hwhy, rfl⟩
  · exact absurd (hspawn.symm.trans hlaunched) (by simp)
  · cases hwhy with
    | tooLate _ none => exact absurd none hknown
    | unwritten unsent unwritable =>
        exact .inr ⟨fun hwaits => not_unsent_of_waiting h hwaits hsilent unsent, found, unwritable,
          rfl⟩
    | ended hother =>
        rw [run_cons] at hother
        rw [CallEnd.failed.inj (Option.some.inj (hother.symm.trans hended))]
        exact .inl rfl
    | late _ endless =>
        rw [run_cons] at endless
        exact absurd (endless.symm.trans hended) (by simp)

/-! ### What is asked for afterwards -/

end ClientRun

/-! ### A start that is not answered -/

namespace ClientProcess

open ClientRun

variable {k : Kernel W} {o : ClientOptions}

/-- A client whose opening call is not answered gets nowhere, and it may do so in a process. -/
theorem fruitless_run {p : ClientProcess W} (h : Fruitless o p.client)
    {moves : List (ProcessMove W)} (hsilent : IsSilent (moves.filterMap (·.client?))) :
    Fruitless o (p.run k o moves).client := by
  obtain ⟨made, hmade, hclient, -⟩ := exists_run (k := k) (o := o) p moves
  rw [hclient]
  exact ClientRun.fruitless_run h (hsilent.mono hmade)

end ClientProcess

end AnalyzerBridge

/-
How a client is left when it was shut down.

However far it had come, and whoever had begun to end it, a client that was shut down is in one
state: the session is over, every process that was launched was found dead, nothing can be written,
and nobody runs beside the callers any more.  A client that was never started is there at once.

This is what `Errands` says of the moment at which a caller is told, and nothing leads out of that
state.  That the moment comes is what `told_of_shutdown` says.
-/
import AnalyzerBridge.Proofs.Session.Rounds

namespace AnalyzerBridge

open Host (Kernel)
open Ledger (Section Sound Precedes)
open Supervisor (NotSeenDead callsOf)

variable {W : Type}

/-- What ended a session is what it was when the session was over. -/
theorem cause_of_over {l l' : Ledger} (h : Section l l') (hover : l.session.stage = .terminated) :
    l'.session.cause = l.session.cause := by
  cases h with
  | look | launchFailed | attach | connect | dropUnsent | giveUp => rfl
  | register _ _ done => exact (Session.sameCourse_register done).cause
  | answer id reply => exact (Session.sameCourse_answer _ _ _).cause
  | terminate cause record => simp [Ledger.terminate, Session.terminate, hover]
  | becomeReady done =>
      obtain ⟨-, rfl⟩ := Session.eq_of_becomeReady done
      rfl
  | beginShutdown => exact l.session.cause_beginShutdown

namespace ClientRun

variable {k : Kernel W} {o : ClientOptions} {s : ClientRun W}

theorem cause_step (h : Coherent s) (hover : s.session.stage = .terminated) (move : ClientMove W) :
    (s.step k o move).session.cause = s.session.cause := by
  obtain ⟨l, board, hsection, hledger⟩ := section_step (k := k) (o := o) h move
  have hsame := cause_of_over hsection hover
  rwa [session, hledger]

theorem cause_run (h : Coherent s) (hover : s.session.stage = .terminated)
    (moves : List (ClientMove W)) : (s.run k o moves).session.cause = s.session.cause := by
  induction moves generalizing s with
  | nil => rfl
  | cons move rest ih =>
      have hstays := (precedes_step (k := k) (o := o) h move).stays_terminated hover
      exact (ih (coherent_step h move) hstays).trans (cause_step h hover move)

/-- Nothing goes on any more, and nothing can be sent. -/
structure AtRest (s : ClientRun W) : Prop where
  terminated : s.session.stage = .terminated
  /-- Every process that was ever launched was found dead since. -/
  departed : ∀ pid, ¬NotSeenDead (callsOf s.keeping.history) pid
  /-- No frame is accepted. -/
  writer : ∀ w ∈ s.writer, w.accepts = false
  reader : s.ReaderGone
  errors : s.errors ≠ .running

theorem Closed.atRest (h : s.Closed) (hs : Coherent s) : s.AtRest where
  terminated := h.terminated
  departed pid hpid := by
    have hliving := hs.history.living_of_notSeenDead hpid
    have hgone : s.keeper.presumesAlive = false := h.done .expel (by decide)
    simp [Supervisor.presumesAlive_of_living hliving] at hgone
  writer w hw := by
    have hshut : w.isOpen = false := h.done .closeWriter (by decide) w hw
    simp [Frame.Writer.accepts, hshut]
  reader := h.done .joinReader (by decide)
  errors := h.done .joinErrors (by decide)

theorem closed_run (h : Coherent s) (he : s.Errands) (hclosed : s.Closed)
    (moves : List (ClientMove W)) : (s.run k o moves).Closed := by
  induction moves generalizing s with
  | nil => exact hclosed
  | cons move rest ih =>
      have hcalm := calm_step k o s h.task (h.isLater hclosed.begun move)
      exact ih (coherent_step h move) (errands_step h he move)
        (hclosed.calm hcalm (precedes_step h move))

/--
**A client that was shut down is at rest, and stays so.**

Any number of threads start the client, shut it down and ask for things, in any order and at any
speed; the backend cannot be launched, writes anything, closes its output, or stays silent; the
reader ends the session and makes the backend go away while others do the same.  As soon as any
thread is told that the client was shut down, the client is at rest.  From then on, whatever anyone
does, and be it to shut the client down again, it stays at rest, and what ended the session stays
what it was.

And a thread is told, once it has begun: after 21 rounds in which everybody has a turn.
-/
theorem shutDown_atRest (k : Kernel W) (o : ClientOptions) (world : W)
    (moves : List (ClientMove W)) (thread : Nat) :
    let s := (fresh world).run k o moves
    ((thread, .shutDown) ∈ s.returned →
      s.AtRest ∧ ∀ more, (s.run k o more).AtRest
        ∧ (s.run k o more).session.cause = s.session.cause)
    ∧ (s.shared.place thread = .idle → s.shared.lock = none →
      ∀ rounds : List (List (ClientMove W)), (∀ round ∈ rounds, FairRound thread round) →
        21 ≤ rounds.length →
        Told s ((s.step k o (.shutdown thread)).run k o rounds.flatten) thread .shutDown) := by
  intro s
  have h : Coherent s := coherent_run (coherent_fresh world) moves
  have he : s.Errands := errands_run (coherent_fresh world) (errands_fresh world) moves
  refine ⟨fun htold => ?_, fun hidle hfree rounds hfair hmany =>
    told_of_shutdown h he hidle hfree hfair hmany⟩
  have hclosed : s.Closed := he.told thread htold
  exact ⟨hclosed.atRest h, fun more => ⟨(closed_run h he hclosed more).atRest (coherent_run h more),
    cause_run h hclosed.terminated more⟩⟩

/-- A start is given up when its deadline has come, and the client is shut down by one thread and
then by another. -/
theorem shutDown_atRest_after_late_start :
    let o : ClientOptions := { backend := ⟨ascii "ra", [], []⟩ }
    let goes (thread : Nat) : ClientMove Unit := .proceed thread (.ok []) [] true
    let round (thread : Nat) : List (ClientMove Unit) :=
      [goes thread, .fails (.stream .stopped), .readerGoesOn, .errorsEnd true]
    let moves := .start 0 :: (List.replicate 21 (round 0)).flatten
      ++ .shutdown 1 :: (List.replicate 21 (round 1)).flatten
    let s := (fresh ()).run .still o moves
    s.AtRest
      ∧ Told s ((s.step .still o (.shutdown 2)).run .still o (List.replicate 21 (round 2)).flatten) 2
        .shutDown := by
  intro o goes round moves s
  have hfair : ∀ r ∈ List.replicate 21 (round 2), FairRound 2 r := by
    intro r hr
    obtain rfl := List.eq_of_mem_replicate hr
    exact ⟨⟨.ok [], [], by simp [round, goes]⟩, by simp [round], by simp [round], by simp [round]⟩
  -- the run is some hundred and seventy moves long, and `decide` recurses once a move
  set_option maxRecDepth 3000 in
  have htold : (1, .shutDown) ∈ s.returned := by decide
  exact ⟨((shutDown_atRest .still o () moves 1).1 htold).1,
    (shutDown_atRest .still o () moves 2).2 (by decide) (by decide) _ hfair (by simp)⟩

end ClientRun

end AnalyzerBridge

/-
Whoever waits for findings when the session ends.

A wait goes on until there is something newer, until the board is closed, or until its time is up.
So what matters is who closes the board.  Whatever ends a session that had a stream to a backend
does: the reader, a start that has failed, a shutdown.  Two ways to end a session that had none do
not, a launch that fails and a shutdown before any start; then everyone who waits, now or later,
waits until the time is up.
-/
import AnalyzerBridge.Host.Follow
import AnalyzerBridge.Proofs.Session.Coherence

namespace AnalyzerBridge

open Host (Kernel World)
open Lsp (DiagnosticBoard)
open Lsp.DiagnosticBoard (Change)
open Ledger (Section)

variable {W : Type}

/-! ### Waits -/

namespace Lsp.DiagnosticBoard

variable {α : Type} {board : DiagnosticBoard α} (uri : Bytes) (mark timeout : Nat)

theorem releases_of_closed (h : board.closed = true) : board.releases uri mark = true := by
  simp [releases, h]

/-- A wait that need not go on ends at once. -/
theorem elapsed_of_releases (h : board.releases uri mark = true) (now : Nat)
    (changes : List (Nat × Change α)) :
    (await uri mark timeout board now changes).elapsed = now := by
  cases changes <;> simp [await, waited, h]

/-- A wait to which nothing happens ends when its time is up. -/
theorem elapsed_of_not_releases (h : board.releases uri mark = false) (now : Nat) :
    (await uri mark timeout board now []).elapsed = timeout := by
  simp [await, waited, h]

theorem not_releases_of_empty (hclosed : board.closed = false) (hentries : board.entries = []) :
    board.releases uri mark = false := by
  simp [releases, hclosed, hasNewer, get?, hentries]

/-- A board that was closed before is left as it is. -/
theorem close_of_closed (h : board.closed = true) : board.close = board := by
  rw [close, ← h]

end Lsp.DiagnosticBoard

/-! ### The board of a session -/

theorem board_of_section {l l' : Ledger} (h : Section l l') :
    l'.session.board = l.session.board ∨ l'.session.board = l.session.board.close := by
  cases h with
  | look | launchFailed | attach | connect | dropUnsent | giveUp => exact .inl rfl
  | register _ _ done => exact .inl (Session.sameCourse_register done).board
  | answer id reply => exact .inl (Session.sameCourse_answer _ _ _).board
  | terminate cause record =>
      rw [Ledger.terminate, Session.terminate]
      split
      · exact .inl rfl
      · exact .inr rfl
  | becomeReady done =>
      obtain ⟨-, rfl⟩ := Session.eq_of_becomeReady done
      exact .inl rfl
  | beginShutdown =>
      rw [Session.beginShutdown]
      split
      · exact .inl rfl
      · split <;> exact .inl rfl

namespace ClientRun

variable {k : Kernel W} {o : ClientOptions} {s : ClientRun W}

/-- What a move changes on the board of findings. -/
def boardChange? (k : Kernel W) (o : ClientOptions) (s : ClientRun W) (move : ClientMove W) :
    Option (Change Unit) :=
  if (s.step k o move).session.board.closed && !s.session.board.closed then some .closed
  else (s.finding? move).map fun uri => .published uri ()

/-- What someone who waits sees of moves that are made at the given times. -/
def seen (k : Kernel W) (o : ClientOptions) (s : ClientRun W) :
    List (Nat × ClientMove W) → List (Nat × Change Unit)
  | [] => []
  | (time, move) :: rest =>
    ((s.boardChange? k o move).map fun change => (time, change)).toList
      ++ (s.step k o move).seen k o rest

/-- A move leaves the board as it is, closes it, or tells what was found. -/
theorem board_cases (h : Coherent s) (move : ClientMove W) :
    (s.finding? move = none ∧ ((s.step k o move).session.board = s.session.board
        ∨ (s.step k o move).session.board = s.session.board.close))
      ∨ ∃ uri, s.shared.reader = .reading ∧ s.finding? move = some uri
        ∧ (s.step k o move).session.board = s.session.board.publish uri () := by
  have hsection : ∀ m, (s.step k o move).shared = s.shared.step m →
      (s.step k o move).session.board = s.session.board
        ∨ (s.step k o move).session.board = s.session.board.close := by
    intro m hm
    rw [session, hm]
    exact board_of_section (SessionRun.orderly_step h.steady.orderly m).1
  have hstirred := stirred_step k o s h.task move
  generalize hnext : (s.step k o move).shared = next at hstirred
  generalize hfound : s.finding? move = found at hstirred ⊢
  cases hstirred with
  | still => exact .inl ⟨rfl, .inl (by rw [session, hnext])⟩
  | find => exact .inl ⟨rfl, .inl (by rw [session, hnext])⟩
  | publish runs uri => exact .inr ⟨uri, runs, rfl, by rw [session, hnext]; rfl⟩
  | move m => exact .inl ⟨rfl, hsection m hnext⟩

/-- The board becomes what is seen of it. -/
theorem board_step (h : Coherent s) (move : ClientMove W) :
    (s.step k o move).session.board
      = (s.boardChange? k o move).elim s.session.board s.session.board.apply := by
  unfold boardChange?
  rcases board_cases (k := k) (o := o) h move with ⟨hnone, hsame | hclose⟩ | ⟨uri, -, hfound, hboard⟩
  · simp [hnone, hsame]
  · by_cases hclosed : s.session.board.closed = true
    · simp [hnone, hclose, DiagnosticBoard.close_of_closed hclosed, hclosed]
    · simp [hclose, DiagnosticBoard.close, hclosed, DiagnosticBoard.apply]
  · simp [hfound, hboard, DiagnosticBoard.publish, DiagnosticBoard.apply]

/-! ### Sessions with a stream -/

/-- The board is closed for good once a session that had a stream is over. -/
theorem closed_of_over (h : Coherent s) (hover : s.session.stage = .terminated)
    (hsome : s.session.connected = true) : s.session.board.closed = true :=
  h.steady.streamed.board.mpr ⟨hover, hsome⟩

/-- **Whoever waits has waited long enough when a session that had a stream is over.** -/
theorem elapsed_le (h : Coherent s) {timed : List (Nat × ClientMove W)} (uri : Bytes)
    (mark timeout : Nat) {now last : Nat} (hnow : now ≤ last)
    (hlast : ∀ time ∈ timed.map Prod.fst, time ≤ last)
    (hover : (s.run k o (timed.map Prod.snd)).session.stage = .terminated)
    (hsome : (s.run k o (timed.map Prod.snd)).session.connected = true) :
    (DiagnosticBoard.await uri mark timeout s.session.board now (s.seen k o timed)).elapsed
      ≤ last := by
  induction timed generalizing s now with
  | nil =>
      have hclosed := closed_of_over h hover hsome
      rw [DiagnosticBoard.elapsed_of_releases _ _ _ (DiagnosticBoard.releases_of_closed _ _ hclosed)]
      exact hnow
  | cons event rest ih =>
      obtain ⟨time, move⟩ := event
      have hboard := board_step (k := k) (o := o) h move
      have htime : time ≤ last := hlast time List.mem_cons_self
      have hrest : ∀ time ∈ rest.map Prod.fst, time ≤ last :=
        fun time htime => hlast time (List.mem_cons_of_mem _ htime)
      have hnext := coherent_step (k := k) (o := o) h move
      rw [seen]
      cases hchange : s.boardChange? k o move with
      | none =>
          rw [hchange, Option.elim] at hboard
          have hgoes := ih hnext hnow hrest hover hsome
          rwa [hboard] at hgoes
      | some change =>
          rw [hchange, Option.elim] at hboard
          have hgoes := ih hnext htime hrest hover hsome
          rw [hboard] at hgoes
          simp only [Option.map_some, Option.toList_some, List.singleton_append,
            DiagnosticBoard.await]
          split
          · exact hnow
          · split
            case isTrue hlate => exact Nat.le_trans hlate htime
            case isFalse => exact hgoes

/-! ### Sessions without a stream -/

/-- As long as there is no stream, nothing happens to the board. -/
theorem boardChange?_of_not_connected (h : Coherent s) {move : ClientMove W}
    (hnone : (s.step k o move).session.connected = false) : s.boardChange? k o move = none := by
  have hbefore : s.session.connected = false := by
    by_contra hc
    have hsome := stays_connected (k := k) (o := o) h move (by simpa using hc)
    simp [hsome] at hnone
  have hopen : (s.step k o move).session.board.closed = false := by
    by_contra hc
    have hsome := ((coherent_step h move).steady.streamed.board.mp (by simpa using hc)).2
    simp [hsome] at hnone
  unfold boardChange?
  rcases board_cases (k := k) (o := o) h move with ⟨hfinding, -⟩ | ⟨uri, hreading, -⟩
  · simp [hopen, hfinding]
  · rcases (h.bare hbefore).reader.1 with hc | hc <;> simp [hreading] at hc

/-- Nobody sees anything of a session that has no stream up to its end. -/
theorem seen_eq_nil (h : Coherent s) {timed : List (Nat × ClientMove W)}
    (hnone : (s.run k o (timed.map Prod.snd)).session.connected = false) :
    s.seen k o timed = [] := by
  induction timed generalizing s with
  | nil => rfl
  | cons event rest ih =>
      obtain ⟨time, move⟩ := event
      have hnext := coherent_step (k := k) (o := o) h move
      have hafter : (s.step k o move).session.connected = false := by
        by_contra hc
        have hsome := stays_connected_run (k := k) (o := o) hnext (rest.map Prod.snd) (by simpa using hc)
        exact absurd (hsome.symm.trans hnone) (by decide)
      rw [seen, boardChange?_of_not_connected h hafter, ih hnext hnone]
      rfl

/-- Nothing was ever found without a stream. -/
theorem board_of_not_connected (world : W) (moves : List (ClientMove W))
    (hnone : ((fresh world).run k o moves).session.connected = false) :
    ((fresh world).run k o moves).session.board = {} := by
  induction moves using List.reverseRecOn with
  | nil => rfl
  | append_singleton moves move ih =>
      have h : Coherent ((fresh world).run k o moves) := coherent_run (coherent_fresh world) moves
      rw [run_append, run_cons] at hnone ⊢
      have hchange := boardChange?_of_not_connected h hnone
      have hboard := board_step (k := k) (o := o) h move
      rw [hchange, Option.elim] at hboard
      refine hboard.trans (ih ?_)
      by_contra hc
      have hsome := stays_connected (k := k) (o := o) h move (by simpa using hc)
      exact absurd (hsome.symm.trans hnone) (by decide)

/-! ### Who is released -/

/--
**The end of a session releases those who wait for findings if it had a stream to a backend, and
nobody else.**

Someone begins to wait at any time `now` of any run, and the moves that follow are made at the given
times.  Let the session be over after them.  If there was a stream, the wait has ended when the last
of them has been made, whichever of them it was that ended the session; and every wait that begins
later ends at once.  If there was none, that is, if the backend could not be launched or the session
was shut down before any start, the wait goes on until its time is up, whatever happens after that;
with no moves in between this holds of every wait that begins later, too.
-/
theorem run_releases (k : Kernel W) (o : ClientOptions) (world : W) (moves : List (ClientMove W))
    (timed : List (Nat × ClientMove W)) (uri : Bytes) (mark timeout now : Nat) :
    let s := (fresh world).run k o moves
    let s' := s.run k o (timed.map Prod.snd)
    s'.session.stage = .terminated →
    (s'.keeping.launches = [none] →
      (∀ last, now ≤ last → (∀ time ∈ timed.map Prod.fst, time ≤ last) →
        (DiagnosticBoard.await uri mark timeout s.session.board now (s.seen k o timed)).elapsed
          ≤ last)
      ∧ ∀ more later changes,
        (DiagnosticBoard.await uri mark timeout (s'.run k o more).session.board later
          changes).elapsed = later)
    ∧ (s'.keeping.launches ≠ [none] → ∀ more,
      (DiagnosticBoard.await uri mark timeout s.session.board now
        (s.seen k o (timed ++ more))).elapsed = timeout) := by
  intro s s' hover
  have h : Coherent s := coherent_run (coherent_fresh world) moves
  have h' : Coherent s' := coherent_run h _
  refine ⟨fun hlaunched => ?_, fun hnot more => ?_⟩
  · have hsome := h'.connected_iff.mpr hlaunched
    refine ⟨fun last hnow hlast => elapsed_le h uri mark timeout hnow hlast hover hsome, ?_⟩
    intro more later changes
    have hclosed : (s'.run k o more).session.board.closed = true :=
      closed_of_over (coherent_run h' more) ((precedes_run h' more).stays_terminated hover)
        (stays_connected_run h' more hsome)
    exact DiagnosticBoard.elapsed_of_releases _ _ _
      (DiagnosticBoard.releases_of_closed _ _ hclosed) later changes
  · have hnone : s'.session.connected = false := by
      by_contra hc
      exact hnot (h'.connected_iff.mp (by simpa using hc))
    have hlast := stays_unconnected_run (k := k) (o := o) h' (more.map Prod.snd) (by simp [hover]) hnone
    have hbefore : s.session.connected = false := by
      by_contra hc
      have hsome := stays_connected_run (k := k) (o := o) h (timed.map Prod.snd) (by simpa using hc)
      exact absurd (hsome.symm.trans hnone) (by decide)
    rw [seen_eq_nil h (by rwa [List.map_append, run_append])]
    have hboard : s.session.board = {} := board_of_not_connected world moves hbefore
    rw [hboard]
    exact DiagnosticBoard.elapsed_of_not_releases _ _ _
      (DiagnosticBoard.not_releases_of_empty _ _ rfl rfl) now

/-- The backend writes something that is no frame while someone waits; and the session is shut down
before any start. -/
theorem run_releases_broken_stream_and_early_shutdown :
    let o : ClientOptions := { backend := ⟨ascii "ra", [], []⟩ }
    let begun := (fresh ()).run .still o [.start 0, .proceed 0 (.ok []) [] false]
    let breaks : List (Nat × ClientMove Unit) :=
      [(10, .proceed 0 (.ok []) [] false), (20, .fails (.stream .lineNotTerminated))]
    let ends : List (Nat × ClientMove Unit) := [(10, .shutdown 0)]
    ((begun.run .still o (breaks.map Prod.snd)).session.stage = .terminated
      ∧ (DiagnosticBoard.await (ascii "file:///a.rs") 0 3000 begun.session.board 0
          (begun.seen .still o breaks)).elapsed ≤ 20)
    ∧ ((fresh ()).run .still o (ends.map Prod.snd)).session.stage = .terminated
      ∧ (DiagnosticBoard.await (ascii "file:///a.rs") 0 3000 (fresh ()).session.board 0
          ((fresh ()).seen .still o (ends ++ []))).elapsed = 3000 := by
  intro o begun breaks ends
  have hbroken : (begun.run .still o (breaks.map Prod.snd)).session.stage = .terminated := by decide
  have hended : ((fresh ()).run .still o (ends.map Prod.snd)).session.stage = .terminated := by
    decide
  refine ⟨⟨hbroken, ?_⟩, hended, ?_⟩
  · exact ((run_releases .still o () [.start 0, .proceed 0 (.ok []) [] false] breaks
      (ascii "file:///a.rs") 0 3000 0 hbroken).1 (by decide)).1 20 (by decide) (by decide)
  · exact (run_releases .still o () [] ends (ascii "file:///a.rs") 0 3000 0 hended).2 (by decide) []

end ClientRun

/-- **A session that was shut down before any start, or whose backend could not be launched, leaves
those who wait waiting.** -/
theorem Client.board_left_open :
    let w : World := .start {} [] ⟨[]⟩
    let shut := (((Client.shutdown.run (.create { backend := ⟨ascii "sleep", [], []⟩ })).run w).1).2
    let failed := (((Client.start.run (.create { backend := ⟨[], [], []⟩ })).run w).1).2
    (shut.session.stage = .terminated ∧ shut.session.board.closed = false
      ∧ (DiagnosticBoard.await (ascii "file:///a.rs") 0 3000 shut.session.board 0 []).elapsed = 3000)
    ∧ failed.session.stage = .terminated ∧ failed.session.board.closed = false
      ∧ (DiagnosticBoard.await (ascii "file:///a.rs") 0 3000 failed.session.board 0 []).elapsed
        = 3000 := by
  decide

end AnalyzerBridge

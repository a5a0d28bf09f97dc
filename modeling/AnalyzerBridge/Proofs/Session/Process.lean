/-
The process that a client lives in.

A payload that does not parse, or is no object, breaks the stream of frames, and the reader ends the
session for it.  But the parser can give up for another reason, too: a number may be too large for
it.  And a message that has parsed can hold one thing where another is looked for.  The exception of
either is caught by nobody.  It leaves the reader's thread, and then the process is gone, whatever
its other threads were about.

`ClientProcess` puts this above `ClientRun`.  A client goes through nothing in a process that it
would not go through otherwise: what it has become when the process ends, or as long as it lasts, is
what some of its moves have made of it.  So what holds of every run of a client holds here as well.
-/
import AnalyzerBridge.Proofs.Session.Companions

namespace AnalyzerBridge

open Host (Kernel)

variable {W : Type}

/-- A client, and whether its process is still there. -/
structure ClientProcess (W : Type) where
  client : ClientRun W
  /-- An exception has ended the process. -/
  aborted : Bool := false

/-- Something that happens in the process of a client. -/
inductive ProcessMove (W : Type) where
  /-- Something happens to the client. -/
  | client (move : ClientMove W)
  /-- The reader has read what nobody is prepared for. -/
  | raises

/-- What happens to the client, if anything does. -/
def ProcessMove.client? : ProcessMove W → Option (ClientMove W)
  | client move => some move
  | raises => none

namespace ClientProcess

variable (k : Kernel W) (o : ClientOptions)

/-- What a move leaves.  A move that cannot be made leaves everything as it is. -/
def step (p : ClientProcess W) : ProcessMove W → ClientProcess W
  | .client move => if p.aborted then p else { p with client := p.client.step k o move }
  | .raises => if p.client.shared.reader = .reading then { p with aborted := true } else p

/-- What a run of moves leaves. -/
def run (p : ClientProcess W) (moves : List (ProcessMove W)) : ClientProcess W :=
  moves.foldl (step k o) p

/-- The process of a client before it starts. -/
def fresh (world : W) : ClientProcess W := { client := .fresh world }

variable {k o}

theorem run_cons (p : ClientProcess W) (move : ProcessMove W) (moves : List (ProcessMove W)) :
    p.run k o (move :: moves) = (p.step k o move).run k o moves := rfl

theorem run_append (p : ClientProcess W) (moves more : List (ProcessMove W)) :
    p.run k o (moves ++ more) = (p.run k o moves).run k o more := List.foldl_append

theorem step_of_aborted {p : ClientProcess W} (h : p.aborted = true) (move : ProcessMove W) :
    p.step k o move = p := by
  cases move with
  | client move => exact if_pos h
  | raises =>
      have hsame : { p with aborted := true } = p := by rw [← h]
      rw [step, hsame, ite_self]

/-- Nothing happens any more once the process is gone. -/
theorem run_of_aborted {p : ClientProcess W} (h : p.aborted = true)
    (moves : List (ProcessMove W)) : p.run k o moves = p := by
  induction moves with
  | nil => rfl
  | cons move rest ih => rw [run_cons, step_of_aborted h, ih]

/-- The client goes through a move, and a process that lasts has left none out. -/
theorem exists_step (p : ClientProcess W) (move : ProcessMove W) :
    ∃ made, made <+: move.client?.toList ∧ (p.step k o move).client = p.client.run k o made
      ∧ ((p.step k o move).aborted = false → made = move.client?.toList) := by
  cases move with
  | client move =>
      rw [step]
      split
      case isTrue haborted =>
        exact ⟨[], List.nil_prefix, rfl, fun hlasts => by simp [haborted] at hlasts⟩
      case isFalse => exact ⟨[move], List.prefix_refl _, rfl, fun _ => rfl⟩
  | raises =>
      refine ⟨[], List.prefix_refl _, ?_, fun _ => rfl⟩
      rw [step]
      split <;> rfl

/-- **A client goes through nothing in a process that it would not go through otherwise.**  A
process that is still there has left no move of its client out. -/
theorem exists_run (p : ClientProcess W) (moves : List (ProcessMove W)) :
    ∃ made, made <+: moves.filterMap (·.client?)
      ∧ (p.run k o moves).client = p.client.run k o made
      ∧ ((p.run k o moves).aborted = false → made = moves.filterMap (·.client?)) := by
  induction moves generalizing p with
  | nil => exact ⟨[], List.prefix_refl _, rfl, fun _ => rfl⟩
  | cons move rest ih =>
      have hmoves : (move :: rest).filterMap (·.client?)
          = move.client?.toList ++ rest.filterMap (·.client?) := by
        rw [List.filterMap_cons]
        cases move <;> rfl
      rw [run_cons, hmoves]
      obtain ⟨first, hfirst, hclient, hall⟩ := exists_step p move
      by_cases haborted : (p.step k o move).aborted = true
      · rw [run_of_aborted haborted]
        exact ⟨first, hfirst.trans (List.prefix_append _ _), hclient,
          fun hlasts => by simp [haborted] at hlasts⟩
      · obtain rfl := hall (by simpa using haborted)
        obtain ⟨made, hmade, hrest, hlasts⟩ := ih (p.step k o move)
        refine ⟨move.client?.toList ++ made, (List.prefix_append_right_inj _).mpr hmade, ?_,
          fun hlast => by rw [hlasts hlast]⟩
        rw [hrest, hclient, ClientRun.run_append]

end ClientProcess

end AnalyzerBridge

/-
The latest diagnostics of each document.

The backend publishes findings when it likes.  Each publication gets the next number of
one common count, so that a caller who notes the count before asking can wait for
something newer.  A closed board keeps no one waiting.

What happens while a caller waits is given as a list of changes with their times, in
milliseconds from the start of the wait; the findings themselves are of any type.
-/
import AnalyzerBridge.Bytes

namespace AnalyzerBridge.Lsp

/-- The findings of one publication. -/
structure Publication (α : Type) where
  /-- What was found. -/
  findings : α
  /-- The number of the publication. -/
  generation : Nat
  deriving DecidableEq, Repr

/-- The latest publication for each document. -/
structure DiagnosticBoard (α : Type) where
  /-- Documents with their latest publication. -/
  entries : List (Bytes × Publication α) := []
  /-- The number of the last publication. -/
  generation : Nat := 0
  /-- No one is to wait any longer. -/
  closed : Bool := false
  deriving DecidableEq, Repr

namespace DiagnosticBoard

variable {α : Type}

/-- The latest publication for a document. -/
def get? (board : DiagnosticBoard α) (uri : Bytes) : Option (Publication α) :=
  board.entries.lookup uri

/-- Records a publication. -/
def publish (board : DiagnosticBoard α) (uri : Bytes) (findings : α) : DiagnosticBoard α :=
  { board with
    entries := (uri, ⟨findings, board.generation + 1⟩) :: board.entries.filter (·.1 != uri)
    generation := board.generation + 1 }

/-- Wakes all waiters, now and later. -/
def close (board : DiagnosticBoard α) : DiagnosticBoard α := { board with closed := true }

/-- There is a publication for the document with a number above `mark`. -/
def hasNewer (board : DiagnosticBoard α) (uri : Bytes) (mark : Nat) : Bool :=
  match board.get? uri with
  | some publication => mark < publication.generation
  | none => false

/-- A waiter need not wait. -/
def releases (board : DiagnosticBoard α) (uri : Bytes) (mark : Nat) : Bool :=
  board.closed || board.hasNewer uri mark

/-- What may happen to the board while someone waits. -/
inductive Change (α : Type) where
  | published (uri : Bytes) (findings : α)
  | closed
  deriving DecidableEq, Repr

/-- The board after a change. -/
def apply (board : DiagnosticBoard α) : Change α → DiagnosticBoard α
  | .published uri findings => board.publish uri findings
  | .closed => board.close

/-- The end of a wait. -/
structure Waited (α : Type) where
  /-- How long it took, in milliseconds. -/
  elapsed : Nat
  /-- Something newer had been published. -/
  fresh : Bool
  /-- The latest publication for the document, newer or not. -/
  entry : Option (Publication α)
  deriving DecidableEq, Repr

/-- The outcome of a wait that ends now. -/
def waited (board : DiagnosticBoard α) (uri : Bytes) (mark elapsed : Nat) : Waited α :=
  ⟨elapsed, board.hasNewer uri mark, board.get? uri⟩

/-- Waits for a publication for the document with a number above `mark`, for at most
`timeout` milliseconds, while the board changes as listed. -/
def await (uri : Bytes) (mark timeout : Nat) (board : DiagnosticBoard α) (now : Nat) :
    List (Nat × Change α) → Waited α
  | [] => if board.releases uri mark then board.waited uri mark now else board.waited uri mark timeout
  | (time, change) :: changes =>
    if board.releases uri mark then board.waited uri mark now
    else if timeout ≤ time then board.waited uri mark timeout
    else await uri mark timeout (board.apply change) time changes

end DiagnosticBoard

end AnalyzerBridge.Lsp

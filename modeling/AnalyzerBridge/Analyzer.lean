/-
What can be asked about code.

Every question goes to the backend through a session and is refused unless that is ready.
Which refusal a caller sees depends on the order of the checks: arguments that need no session
come first where there are any, then the session, then the file.
-/
import AnalyzerBridge.Lsp.CodeAction
import AnalyzerBridge.Lsp.Position
import AnalyzerBridge.Session.Client

namespace AnalyzerBridge

open Host (World)

/-- A question about code.  A place or a stretch that is not given is the start of the file. -/
inductive Question where
  | definition (file : Bytes) (position : Lsp.Position := {})
  | references (file : Bytes) (position : Lsp.Position := {}) (includeDeclaration : Bool := true)
  | symbols (query : Bytes)
  | rename (file newName : Bytes) (position : Lsp.Position := {})
  | format (file : Bytes)
  | extract (file : Bytes) (range : Lsp.Range := {})
  | inlining (file : Bytes) (position : Lsp.Position := {})
  | changeSignature (file : Bytes) (position : Lsp.Position := {})
  | organizeImports (file : Bytes)
  | diagnostics (file : Bytes)
  | lifetimes (file : Bytes)
  deriving DecidableEq, Repr

namespace Analyzer

/-- Why a question is refused, if it is, for the state of the session. -/
def unready (s : Session) : Option Failure :=
  if s.stage = .ready then none
  else some { kind := s.unreadyKind, message := ascii "rust-analyzer session is " ++ s.stage.label }

/-- Makes sure that the session is ready and has the present text of a file. -/
def prepare (file : Bytes) : ClientM (Except Failure DocumentTable.Ensured) := do
  match unready (← get).session with
  | some failure => pure (.error failure)
  | none =>
    if file.isEmpty then pure (.error { kind := .invalidParams, message := ascii "file path is empty" })
    else Client.sync file

/-- Asks the backend about a file; `params` is what it is told besides the file. -/
def askFile (file method : Bytes) (params : List (Bytes × Bytes)) :
    ClientM (Except Failure Unit) := do
  match ← prepare file with
  | .error failure => pure (.error failure)
  | .ok done =>
    match ← Client.request method (Message.object (Message.document done.uri :: params)) none with
    | .ok _ => pure (.ok ())
    | .error failure => pure (.error failure)

/-- A place in the file as a parameter. -/
def place (position : Lsp.Position) : Bytes × Bytes := (ascii "position", Message.position position)

/-- Asks for code actions on a stretch of a file.  The findings there go along with the question;
what the backend publishes is not looked into, so that there are none. -/
def askActions (file : Bytes) (range : Lsp.Range) : ClientM (Except Failure Unit) :=
  askFile file (ascii "textDocument/codeAction")
    [(ascii "range", Message.range range),
      (ascii "context", Message.object [(ascii "diagnostics", ascii "[]")])]

/-- Waits for findings about a file. -/
def awaitDiagnostics (file : Bytes) (wait : Nat) : ClientM (Except Failure Unit) := do
  let mark := (← get).session.board.generation
  match ← prepare file with
  | .error failure => pure (.error failure)
  | .ok done =>
    let board := (← get).session.board
    let known := done.action = .none && (board.get? done.uri).isSome
    if !known then
      let waited := Lsp.DiagnosticBoard.await done.uri mark wait board 0 []
      World.pass (waited.elapsed * 1000)
      if !waited.fresh then
        Client.note (ascii "no fresh diagnostics for " ++ done.uri ++ ascii " within "
          ++ Bytes.decimal wait ++ ascii " ms")
    pure (.ok ())

/-- Asks a question.  `wait` is how long findings are waited for, in milliseconds. -/
def ask (wait : Nat) : Question → ClientM (Except Failure Unit)
  | .definition file position => askFile file (ascii "textDocument/definition") [place position]
  | .references file position includeDeclaration =>
    askFile file (ascii "textDocument/references")
      [place position, (ascii "context", Message.object
        [(ascii "includeDeclaration", if includeDeclaration then ascii "true" else ascii "false")])]
  | .format file =>
    askFile file (ascii "textDocument/formatting")
      [(ascii "options", Message.object
        [(ascii "tabSize", ascii "4"), (ascii "insertSpaces", ascii "true")])]
  | .extract file range => askActions file range
  | .inlining file position => askActions file ⟨position, position⟩
  | .changeSignature file position => askActions file ⟨position, position⟩
  | .diagnostics file => awaitDiagnostics file wait
  | .lifetimes file => awaitDiagnostics file wait
  | .symbols query => do
    match unready (← get).session with
    | some failure => pure (.error failure)
    | none =>
      match ← Client.request (ascii "workspace/symbol")
        (Message.object [(ascii "query", Message.quoted query)]) none with
      | .ok _ => pure (.ok ())
      | .error failure => pure (.error failure)
  | .rename file newName position =>
    if newName.isEmpty then
      pure (.error { kind := .invalidParams, message := ascii "new_name is empty" })
    else
      askFile file (ascii "textDocument/rename")
        [place position, (ascii "newName", Message.quoted newName)]
  | .organizeImports file => do
    let disk := (← getThe World).disk
    match disk.read (disk.absolute file) with
    | .error reason => pure (.error { kind := .fileAccess, message := reason })
    | .ok text => askActions file ⟨{}, Lsp.Position.endOf text⟩

end Analyzer

end AnalyzerBridge

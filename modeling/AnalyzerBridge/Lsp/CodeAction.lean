/-
Choosing among code actions.

The backend offers refactorings as code actions.  An action that names its kind is
judged by the kind alone: kinds are words separated by dots, and an action belongs to
every kind that its own refines.  An action without a kind is judged by its title, and
the answer says which of the two was used.
-/
import AnalyzerBridge.Bytes.Search

namespace AnalyzerBridge.Lsp

/-- What is known of an offered action. -/
structure CodeAction where
  /-- The title shown to a person. -/
  title : Bytes
  /-- The kind, if the backend gives one. -/
  kind : Option Bytes
  deriving DecidableEq, Repr

/-- A wish for actions of some sort. -/
structure Matcher where
  /-- The kind wished for. -/
  kind : Bytes
  /-- Words in a title that count in its place. -/
  keywords : List Bytes
  deriving DecidableEq, Repr

namespace Matcher

/-- Extracting code into a function or variable. -/
def extract : Matcher := ⟨ascii "refactor.extract", [ascii "extract"]⟩

/-- Inlining a function or variable. -/
def inlining : Matcher := ⟨ascii "refactor.inline", [ascii "inline"]⟩

/-- Changing the parameters of a function. -/
def changeSignature : Matcher :=
  ⟨ascii "refactor.rewrite", [ascii "signature", ascii "parameter", ascii "argument"]⟩

/-- Sorting and pruning imports. -/
def organizeImports : Matcher := ⟨ascii "source.organizeImports", [ascii "import"]⟩

end Matcher

/-- The kind refines the wanted one: it is that kind, or goes on with a dot behind it.
Every kind refines the empty one. -/
def kindMatches (kind wanted : Bytes) : Bool :=
  wanted.isEmpty
    || (wanted.isPrefixOf kind
      && match kind.drop wanted.length with
        | [] => true
        | b :: _ => b == 46)

/-- One of the keywords occurs in the title, letter case aside.  An empty keyword says
nothing. -/
def titleMatches (title : Bytes) (keywords : List Bytes) : Bool :=
  keywords.any fun keyword => !keyword.isEmpty && Bytes.containsIgnoringCase title keyword

/-- What an action was accepted by. -/
inductive MatchSource where
  | kind
  | title
  deriving DecidableEq, Repr

/-- Whether the action is of the wished sort, and by what.  An action with a kind is never
judged by its title. -/
def CodeAction.matchedBy (action : CodeAction) (matcher : Matcher) : Option MatchSource :=
  match action.kind with
  | some (b :: kind) => if kindMatches (b :: kind) matcher.kind then some .kind else none
  | _ => if titleMatches action.title matcher.keywords then some .title else none

/-- The actions of the wished sort, in the order they were offered. -/
def Matcher.filter (matcher : Matcher) (actions : List CodeAction) :
    List (CodeAction × MatchSource) :=
  actions.filterMap fun action => (action.matchedBy matcher).map (action, ·)

end AnalyzerBridge.Lsp

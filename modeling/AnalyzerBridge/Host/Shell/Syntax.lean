/-
Shell scripts as trees.

A word is a list of pieces that still have to be expanded.  What stands inside a piece
that is itself a script, a word or an expression is kept as text and read when it is
expanded, so that words stay flat and only commands nest.
-/
import AnalyzerBridge.Bytes

namespace AnalyzerBridge.Host.Shell

/-- What is made of the value of a parameter. -/
inductive ParameterUse where
  /-- The value itself. -/
  | value
  /-- The number of its bytes. -/
  | length
  /-- The value or something in its place, as `-`, `=`, `?` or `+` says; with `colon` an empty
  value counts as none. -/
  | orElse (sign : UInt8) (colon : Bool) (word : Bytes)
  /-- The value without what matches a pattern at one of its ends. -/
  | cut (atEnd longest : Bool) (pattern : Bytes)
  deriving DecidableEq, Repr

/-- A piece of a word. -/
inductive Piece where
  /-- Text outside of quotes. -/
  | plain (text : Bytes)
  /-- Text inside of quotes. -/
  | quoted (text : Bytes)
  /-- A parameter. -/
  | parameter (name : Bytes) (use : ParameterUse) (inQuotes : Bool)
  /-- The output of a script. -/
  | substitution (script : Bytes) (inQuotes : Bool)
  /-- The value of an expression. -/
  | arithmetic (text : Bytes) (inQuotes : Bool)
  deriving DecidableEq, Repr

/-- A word before its expansion. -/
abbrev Word := List Piece

/-- The text of a word that stands for itself. -/
def Word.reserved? : Word → Option Bytes
  | [.plain text] => some text
  | _ => none

/-- What a redirection does with a descriptor. -/
inductive RedirectKind where
  | read
  | write
  | append
  | readWrite
  | duplicate
  /-- Reads the target itself. -/
  | here
  deriving DecidableEq, Repr

/-- A redirection. -/
structure Redirect where
  /-- The descriptor that is changed. -/
  descriptor : Nat
  /-- How it is changed. -/
  kind : RedirectKind
  /-- The file or the other descriptor. -/
  target : Word
  deriving DecidableEq, Repr

/-- A command. -/
inductive Command where
  /-- Assignments, words and redirections, in the line where the command stands. -/
  | simple (line : Nat) (assignments : List (Bytes × Word)) (words : List Word)
      (redirects : List Redirect)
  /-- Commands that feed one another; the outcome may be turned around. -/
  | pipeline (negated : Bool) (parts : List Command)
  /-- The second only if the first succeeds. -/
  | both (first second : Command)
  /-- The second only if the first fails. -/
  | either (first second : Command)
  /-- One after the other, some of them in the background. -/
  | sequence (parts : List (Command × Bool))
  /-- In the shell itself. -/
  | group (body : Command) (redirects : List Redirect)
  /-- In a process of its own. -/
  | subshell (body : Command) (redirects : List Redirect)
  /-- The first branch whose condition succeeds, or the last resort. -/
  | choose (branches : List (Command × Command)) (otherwise : Option Command)
      (redirects : List Redirect)
  /-- As long as the condition succeeds, or as long as it fails. -/
  | repeatWhile (success : Bool) (condition body : Command) (redirects : List Redirect)
  /-- Once for each of the words, or of the parameters if no words are given. -/
  | forEach (name : Bytes) (words : Option (List Word)) (body : Command)
      (redirects : List Redirect)
  /-- The first branch with a pattern that matches. -/
  | matchWord (subject : Word) (branches : List (List Word × Command)) (redirects : List Redirect)
  /-- A function of a name. -/
  | define (name : Bytes) (body : Command)

end AnalyzerBridge.Host.Shell

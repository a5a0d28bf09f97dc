/-
From expanded words to fields.

Expansion turns a word into glyphs: bytes that remember how they came about.  Bytes from
quotes are safe; bytes that stood in the script as they are may mean something in a pattern;
bytes that an expansion brought may besides be blanks between fields.
-/
import AnalyzerBridge.Host.Machine
import AnalyzerBridge.Host.Shell.Pattern

namespace AnalyzerBridge.Host.Shell

/-- A byte of an expanded word, or something between bytes. -/
inductive Glyph where
  /-- A byte that stood outside of quotes. -/
  | plain (b : UInt8)
  /-- A byte from quotes. -/
  | hard (b : UInt8)
  /-- A byte that an expansion outside of quotes brought. -/
  | soft (b : UInt8)
  /-- Quotes stood here, so that there is a field even if it is empty. -/
  | mark
  /-- One field ends and another begins. -/
  | border
  deriving DecidableEq, Repr

namespace Glyph

/-- The text of glyphs that are not split: borders are blanks. -/
def text (glyphs : List Glyph) : Bytes :=
  glyphs.flatMap fun
    | plain b => [b]
    | hard b => [b]
    | soft b => [b]
    | mark => []
    | border => [32]

/-- The pattern of glyphs that are not split. -/
def pattern (glyphs : List Glyph) : Pattern :=
  glyphs.flatMap fun
    | plain b => [(b, true)]
    | hard b => [(b, false)]
    | soft b => [(b, true)]
    | mark => []
    | border => [(32, false)]

/-- Splits glyphs into fields at the separators; `field` is the present one from its end, if
one has begun. -/
def fields (separators : Bytes) (field : Option Pattern) : List Glyph → List Pattern
  | [] => field.toList.map List.reverse
  | glyph :: rest =>
    let begun := field.getD []
    match glyph with
    | plain b => fields separators (some ((b, true) :: begun)) rest
    | hard b => fields separators (some ((b, false) :: begun)) rest
    | mark => fields separators (some begun) rest
    | border => field.toList.map List.reverse ++ fields separators none rest
    | soft b =>
      if !separators.contains b then fields separators (some ((b, true) :: begun)) rest
      else if Bytes.isBlank b then field.toList.map List.reverse ++ fields separators none rest
      else begun.reverse :: fields separators none rest

end Glyph

namespace Memory

/-- The separators of fields. -/
def separators (m : Memory) : Bytes := (m.bindings.lookup (ascii "IFS")).getD [32, 9, 10]

/-- The value of a parameter that is one text. -/
def value? (m : Memory) (name : Bytes) : Option Bytes :=
  match name with
  | [35] => some (Bytes.decimal m.parameters.length)
  | [63] => some (Bytes.decimal m.status)
  | [36] => some (Bytes.decimal m.pid)
  | [33] => m.background.map Bytes.decimal
  | [45] => some []
  | [48] => some m.name
  | b :: _ =>
    if Bytes.isDigit b then m.parameters[name.foldl (fun n b => n * 10 + (b.toNat - 48)) 0 - 1]?
    else m.bindings.lookup name
  | [] => none

/-- Sets a variable. -/
def assign (m : Memory) (name value : Bytes) : Memory :=
  { m with bindings := (name, value) :: m.bindings.filter (·.1 != name) }

/-- Lets programs see a variable. -/
def exportVariable (m : Memory) (name : Bytes) : Memory :=
  { m with exported := name :: m.exported.filter (· != name) }

/-- Forgets a variable. -/
def unset (m : Memory) (name : Bytes) : Memory :=
  { m with
    bindings := m.bindings.filter (·.1 != name)
    exported := m.exported.filter (· != name) }

/-- What programs get to see. -/
def environment (m : Memory) : List (Bytes × Bytes) :=
  m.exported.reverse.filterMap fun name => (m.bindings.lookup name).map fun value => (name, value)

end Memory

/-! ### Names that match -/

/-- The names in a directory that match, in order. -/
def matchingNames (tree : FileTree) (place : Place) (pattern : Pattern) : List Bytes :=
  let hidden := pattern.head?.any (·.1 == 46)
  let names := (tree.names place).filter fun name =>
    (hidden || name.head? != some 46) && pattern.isMatch name
  names.mergeSort fun a b => compare a b != .gt

/-- The pieces of a pattern between slashes. -/
def splitPattern : Pattern → List Pattern
  | [] => [[]]
  | p :: rest =>
    if p.1 = 47 then [] :: splitPattern rest
    else match splitPattern rest with
      | [] => [[p]]
      | piece :: pieces => (p :: piece) :: pieces

/-- The paths that match the pieces of a pattern, starting from a path that is written so. -/
def matchingPaths (tree : FileTree) (current : Place) (written : Bytes) : List Pattern → List Bytes
  | [] => [written]
  | piece :: pieces =>
    let last := pieces.isEmpty
    let go (name : Bytes) : List Bytes :=
      matchingPaths tree current (written ++ name ++ (if last then [] else [47])) pieces
    if piece.isSpecial then
      match tree.resolve current (if written.isEmpty then Path.dot else written) with
      | .ok place => (matchingNames tree place piece).flatMap go
      | .error _ => []
    else
      let name := piece.map (·.1)
      if last && !name.isEmpty && (tree.stat current (written ++ name)).toOption.isNone then [] else go name

/-- A field as a word: the paths that match if it is a pattern and there are any, else its own
text. -/
def pathsOrText (tree : FileTree) (current : Place) (field : Pattern) : List Bytes :=
  let text := field.map (·.1)
  if field.isSpecial then
    match matchingPaths tree current [] (splitPattern field) with
    | [] => [text]
    | paths => paths
  else [text]

end AnalyzerBridge.Host.Shell

/-
Documents, read line by line.

A document is a list of entries, each under the last header above it.  A value that
opens more brackets than it closes goes on over the following lines until they balance,
with one blank for each line break; comments and blank lines inside it are no part of
it.  Lines that are neither headers nor assignments are passed over, and a value still
open at the end of the document is taken as far as it goes.
-/
import AnalyzerBridge.Toml.Value

namespace AnalyzerBridge.Toml

/-- One assignment. -/
structure Entry where
  /-- The header it stands under, empty at the top. -/
  header : Bytes
  /-- The key. -/
  key : Bytes
  /-- The value as it is written. -/
  value : Bytes
  /-- The line on which the key stands, counted from one. -/
  line : Nat
  deriving DecidableEq, Repr

/-- An entry whose value is still open. -/
structure OpenEntry where
  /-- The entry as far as its first line goes. -/
  first : Entry
  /-- What further lines hold of the value, the last line first. -/
  more : List Bytes := []
  /-- How many brackets are open. -/
  depth : Int
  deriving DecidableEq, Repr

/-- What reading a line depends on. -/
structure Progress where
  /-- The header above. -/
  header : Bytes := []
  /-- An entry whose value is still open, if there is one. -/
  openEntry : Option OpenEntry := none
  deriving DecidableEq, Repr

/-- The name in a header line: without the brackets around it, however many. -/
def headerName (line : Bytes) : Bytes :=
  Bytes.trim ((line.dropWhile (· == 91)).reverse.dropWhile (· == 93)).reverse

/-- A further line of an open value. -/
def OpenEntry.extend (o : OpenEntry) (text : Bytes) : OpenEntry :=
  { o with more := text :: o.more, depth := o.depth + nesting {} text }

/-- The entry as far as its lines go, with a blank for each line break. -/
def OpenEntry.entry (o : OpenEntry) : Entry :=
  { o.first with value := o.first.value ++ o.more.reverse.flatMap (32 :: ·) }

/-- An entry that begins on a line, complete or still open. -/
def Progress.begin (p : Progress) (entry : Entry) : Progress × List Entry :=
  let depth := nesting {} entry.value
  if 0 < depth then ({ p with openEntry := some { first := entry, depth } }, []) else (p, [entry])

/-- Reads a line that has been stripped of its comment and of blanks, and is not empty. -/
def Progress.readText (p : Progress) (number : Nat) (text : Bytes) : Progress × List Entry :=
  match p.openEntry with
  | some pending =>
    let pending := pending.extend text
    if 0 < pending.depth then ({ p with openEntry := some pending }, [])
    else ({ p with openEntry := none }, [pending.entry])
  | none =>
    match splitAssignment false text with
    | some (key, value) =>
      p.begin { header := p.header, key := stringValue key, value := Bytes.trim value, line := number }
    | none => if text.head? = some 91 then ({ p with header := headerName text }, []) else (p, [])

/-- Reads a line: the progress behind it and the entry it completes, if it does. -/
def Progress.readLine (p : Progress) (number : Nat) (line : Bytes) : Progress × List Entry :=
  let text := Bytes.trim (withoutComment {} line)
  if text.isEmpty then (p, []) else p.readText number text

/-- The entries of the lines from the given number on. -/
def Progress.entries (p : Progress) (number : Nat) : List Bytes → List Entry
  | [] => (p.openEntry.map (·.entry)).toList
  | line :: lines =>
    let (p, complete) := p.readLine number line
    complete ++ p.entries (number + 1) lines

/-- The entries of a document, in order. -/
def entries (text : Bytes) : List Entry := Progress.entries {} 1 (Bytes.lines text)

end AnalyzerBridge.Toml

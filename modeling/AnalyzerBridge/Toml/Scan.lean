/-
Strings, brackets and comments in a line.

The subset of TOML read here knows one kind of string when it looks for structure, the
one between double quotes, and a backslash always hides the byte behind it, inside a
string or not.  A byte that is neither hidden nor part of a string is *bare*: only bare
bytes can start a comment, open or close a bracket, or part two items.
-/
import AnalyzerBridge.Bytes

namespace AnalyzerBridge.Toml

/-- Where a scan stands. -/
structure Scan where
  /-- Inside a string. -/
  inString : Bool := false
  /-- Behind a backslash. -/
  hidden : Bool := false
  deriving DecidableEq, Repr

namespace Scan

/-- The byte is text outside strings, neither hidden nor hiding. -/
def isBare (s : Scan) (b : UInt8) : Bool := !s.hidden && !s.inString && b != 92 && b != 34

/-- The scan behind one more byte. -/
def next (s : Scan) (b : UInt8) : Scan :=
  if s.hidden then { s with hidden := false }
  else if b = 92 then { s with hidden := true }
  else if b = 34 then { s with inString := !s.inString }
  else s

end Scan

/-- The line up to its comment: the first bare `#`. -/
def withoutComment (s : Scan) : Bytes → Bytes
  | [] => []
  | b :: rest => if s.isBare b && b == 35 then [] else b :: withoutComment (s.next b) rest

/-- One more for a bare opening bracket, one less for a bare closing one. -/
def bracket (s : Scan) (b : UInt8) : Int :=
  if !s.isBare b then 0
  else if b = 91 ∨ b = 123 then 1
  else if b = 93 ∨ b = 125 then -1
  else 0

/-- How many more brackets a text opens than it closes. -/
def nesting (s : Scan) : Bytes → Int
  | [] => 0
  | b :: rest => bracket s b + nesting (s.next b) rest

/-- The texts between the bare commas that stand in no bracket: the first, and the others. -/
def commaPieces (s : Scan) (depth : Int) : Bytes → Bytes × List Bytes
  | [] => ([], [])
  | b :: rest =>
    let (piece, pieces) := commaPieces (s.next b) (depth + bracket s b) rest
    if s.isBare b && b == 44 && depth == 0 then ([], piece :: pieces) else (b :: piece, pieces)

/-- The items between commas, blanks around them and empty ones left out. -/
def commaItems (text : Bytes) : List Bytes :=
  let (piece, pieces) := commaPieces {} 0 text
  ((piece :: pieces).map Bytes.trim).filter (!·.isEmpty)

/-- The texts before and after the first equals sign outside double quotes.  Here a backslash
hides nothing. -/
def splitAssignment (quoted : Bool) : Bytes → Option (Bytes × Bytes)
  | [] => none
  | b :: rest =>
    if !quoted && b == 61 then some ([], rest)
    else (splitAssignment (if b = 34 then !quoted else quoted) rest).map
      fun (before, after) => (b :: before, after)

end AnalyzerBridge.Toml

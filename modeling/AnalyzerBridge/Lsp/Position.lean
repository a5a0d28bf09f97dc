/-
Positions in a document.

The backend counts lines from zero and columns in units of sixteen bits.  A document is
UTF-8, where the first byte of a character tells how many units it takes: two from
`F0` upwards, else one, and a continuation byte none.
-/
import AnalyzerBridge.Bytes

namespace AnalyzerBridge.Lsp

/-- A place in a document. -/
structure Position where
  /-- The line, counted from zero. -/
  line : Nat := 0
  /-- The units of sixteen bits before the place on its line. -/
  character : Nat := 0
  deriving DecidableEq, Repr

namespace Position

/-- How many units the character takes whose first byte this is; a continuation byte takes
none of its own. -/
def unitsOf (b : UInt8) : Nat :=
  if b &&& 0xC0 = 0x80 then 0 else if 0xF0 ≤ b then 2 else 1

/-- The place behind one more byte. -/
def advance (p : Position) (b : UInt8) : Position :=
  if b = 10 then ⟨p.line + 1, 0⟩ else ⟨p.line, p.character + unitsOf b⟩

/-- The place behind the last character of a text. -/
def endOf (text : Bytes) : Position := text.foldl advance {}

end Position

/-- A stretch of a document. -/
structure Range where
  /-- Where it starts. -/
  start : Position := {}
  /-- Where it ends. -/
  finish : Position := {}
  deriving DecidableEq, Repr

end AnalyzerBridge.Lsp

/-
Searching without regard to case.

Two bytes agree when their lower-case forms do.  The search walks the text one
position at a time and compares in place, so nothing is copied, and it ends where
the rest of the text is too short to hold the query.  That it finds exactly what a
plain search in the lower-case text would find is a theorem about it, not its
definition.
-/
import AnalyzerBridge.Bytes

namespace AnalyzerBridge.Bytes

/-- The text starts with the query, letter case aside. -/
def startsWithFolded : Bytes → Bytes → Bool
  | _, [] => true
  | [], _ :: _ => false
  | b :: text, q :: query => lower b == lower q && startsWithFolded text query

/-- The text starts with the given opening, letter case aside.  The empty opening is
refused: it would say nothing about the text. -/
def hasOpeningIgnoringCase (text opening : Bytes) : Bool :=
  !opening.isEmpty && startsWithFolded text opening

/-- The query occurs at one of the first `places` places of the text, letter case aside. -/
def occursWithin (query : Bytes) : Nat → Bytes → Bool
  | 0, _ => false
  | places + 1, text => startsWithFolded text query || occursWithin query places (text.drop 1)

/-- The query occurs somewhere in the text, letter case aside.  It can only stand where the
text has as many bytes left as it has itself, and the empty query stands everywhere. -/
def containsIgnoringCase (text query : Bytes) : Bool :=
  occursWithin query (text.length + 1 - query.length) text

end AnalyzerBridge.Bytes

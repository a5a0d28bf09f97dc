/-
Diagnostics about lifetimes and borrowing.

The compiler's findings carry a code and a message.  Thirteen codes are about lifetimes
or borrows; a message that speaks of either counts too, whatever its code.
-/
import AnalyzerBridge.Bytes.Search

namespace AnalyzerBridge.Lsp

/-- What is looked at in a diagnostic. -/
structure Diagnostic where
  /-- The compiler's code, empty if there is none. -/
  code : Bytes
  /-- The message. -/
  message : Bytes
  deriving DecidableEq, Repr

namespace Diagnostic

/-- The codes of findings about lifetimes and borrows. -/
def lifetimeCodes : List Bytes :=
  ["E0106", "E0261", "E0262", "E0263", "E0495", "E0499", "E0502", "E0505", "E0506", "E0597",
    "E0621", "E0700", "E0716"].map ascii

/-- The message speaks of lifetimes or borrows. -/
def speaksOfLifetimes (message : Bytes) : Bool :=
  Bytes.containsIgnoringCase message (ascii "lifetime")
    || Bytes.containsIgnoringCase message (ascii "borrow")

/-- The finding is about lifetimes or borrows. -/
def isAboutLifetimes (d : Diagnostic) : Bool :=
  lifetimeCodes.contains d.code || speaksOfLifetimes d.message

end Diagnostic

end AnalyzerBridge.Lsp

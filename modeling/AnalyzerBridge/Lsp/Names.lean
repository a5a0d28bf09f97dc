/-
Names for the numbers the backend uses.

Symbols carry the number of their kind and diagnostics that of their severity.  Numbers
outside the tables have a name of their own, so that every answer can be shown.
-/
import AnalyzerBridge.Bytes

namespace AnalyzerBridge.Lsp

/-- The kinds of symbols, by number from zero; zero is no kind. -/
def symbolKinds : List Bytes :=
  ["Unknown", "File", "Module", "Namespace", "Package", "Class", "Method", "Property", "Field",
    "Constructor", "Enum", "Interface", "Function", "Variable", "Constant", "String", "Number",
    "Boolean", "Array", "Object", "Key", "Null", "EnumMember", "Struct", "Event", "Operator",
    "TypeParameter"].map ascii

/-- The name of a kind of symbols. -/
def symbolKindName (kind : Int) : Bytes :=
  if kind < 0 then ascii "Unknown" else symbolKinds.getD kind.toNat (ascii "Unknown")

/-- The name of a severity. -/
def severityName (severity : Int) : Bytes :=
  if severity = 1 then ascii "error"
  else if severity = 2 then ascii "warning"
  else if severity = 3 then ascii "information"
  else if severity = 4 then ascii "hint"
  else ascii "unknown"

end AnalyzerBridge.Lsp

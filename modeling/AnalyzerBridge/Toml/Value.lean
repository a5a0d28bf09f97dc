/-
Values, read on demand.

A value is kept as it is written until someone asks for it as a string, an array, a
table, a number or a truth value.  Nothing is refused as a string: what is not quoted
stands for itself.
-/
import AnalyzerBridge.Bytes.Numeral
import AnalyzerBridge.Toml.Scan

namespace AnalyzerBridge.Toml

/-- The byte that a backslash and this byte stand for. -/
def escapedAs (b : UInt8) : UInt8 :=
  if b = 110 then 10 else if b = 116 then 9 else if b = 114 then 13 else b

/-- The text with its escapes undone.  A backslash at the very end goes away. -/
def unescape : Bytes → Bytes
  | [] => []
  | [b] => if b = 92 then [] else [b]
  | b :: c :: rest => if b = 92 then escapedAs c :: unescape rest else b :: unescape (c :: rest)

/-- The text between a first and a last byte, if it has two bytes or more and these are they. -/
def between? (first last : UInt8) : Bytes → Option Bytes
  | [] => none
  | b :: rest => if b = first && rest.getLast? == some last then some rest.dropLast else none

/-- The value as a string: between double quotes escapes are undone, between single quotes the
text stands as it is, and so does a text in no quotes. -/
def stringValue (value : Bytes) : Bytes :=
  let text := Bytes.trim value
  match between? 34 34 text with
  | some inner => unescape inner
  | none => (between? 39 39 text).getD text

/-- The value as an array of strings.  A value in no brackets is an array of itself, and
nothing at all is the empty array. -/
def stringArray (value : Bytes) : List Bytes :=
  let text := Bytes.trim value
  match between? 91 93 text with
  | some inner => (commaItems inner).map stringValue
  | none => if text.isEmpty then [] else [stringValue text]

/-- One `key = value` of an inline table. -/
def tableItem? (item : Bytes) : Option (Bytes × Bytes) :=
  (splitAssignment false item).map fun (key, value) => (stringValue key, Bytes.trim value)

/-- The value as an inline table.  Items that assign nothing are left out, and a value in no
braces is the empty table. -/
def inlineTable (value : Bytes) : List (Bytes × Bytes) :=
  match between? 123 125 (Bytes.trim value) with
  | some inner => (commaItems inner).filterMap tableItem?
  | none => []

/-- The value as an integer: it has to be one numeral up to the first zero byte, and counts
modulo `2 ^ 32`. -/
def intValue? (value : Bytes) : Option Int :=
  match Numeral.scan .announced (Bytes.untilZero (Bytes.trim value)) with
  | some (n, []) => some (Numeral.low32 n)
  | _ => none

/-- The value as a truth value, letter case aside. -/
def boolValue? (value : Bytes) : Option Bool :=
  let text := Bytes.lowercase (Bytes.trim value)
  if [ascii "true", ascii "1", ascii "yes", ascii "on"].contains text then some true
  else if [ascii "false", ascii "0", ascii "no", ascii "off"].contains text then some false
  else none

end AnalyzerBridge.Toml

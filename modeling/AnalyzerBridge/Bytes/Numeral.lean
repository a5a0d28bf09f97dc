/-
Written integers.

An integer may stand after blanks and a sign, and its base may be given or be read
off its first digits: `0x` announces sixteen, another leading zero eight, anything
else ten.  Reading stops at the first byte that is no digit of the base, and
magnitudes too large for a signed word of 64 bits stop at its ends.
-/
import AnalyzerBridge.Bytes

namespace AnalyzerBridge.Numeral

open Bytes (lower)

/-- How the base of a numeral is known. -/
inductive Base where
  /-- Sixteen; a leading `0x` may repeat it. -/
  | sixteen
  /-- Read off the first digits. -/
  | announced
  deriving DecidableEq, Repr

/-- The value of a digit below the base. -/
def digitBelow (base : Nat) (b : UInt8) : Option Nat :=
  (Bytes.digitValue b).filter (· < base)

/-- The magnitude of the least signed word of 64 bits.  Greater magnitudes are not told apart
from it: numerals may be long, and none of their words needs more. -/
def magnitudeLimit : Nat := 9223372036854775808

/-- The magnitude behind one more digit. -/
def extend (base value digit : Nat) : Nat := min (value * base + digit) magnitudeLimit

/-- The digits of the base that the text starts with, added to what was read before, and
the rest of the text. -/
def digits (base : Nat) (value : Nat) : Bytes → Nat × Bytes
  | [] => (value, [])
  | b :: rest =>
    match digitBelow base b with
    | some d => digits base (extend base value d) rest
    | none => (value, b :: rest)

/-- A magnitude of at least one digit, and the rest of the text. -/
def magnitudeIn (base : Nat) : Bytes → Option (Nat × Bytes)
  | [] => none
  | b :: rest => (digitBelow base b).map fun d => digits base d rest

/-- The base that the first digit announces: a leading zero stands for eight. -/
def announcedBase : Bytes → Nat
  | [] => 10
  | b :: rest => if b = 48 && !rest.isEmpty then 8 else 10

/-- The base of a magnitude that no `0x` starts. -/
def plainBase (base : Base) (text : Bytes) : Nat :=
  match base with
  | .sixteen => 16
  | .announced => announcedBase text

/-- The text behind a leading `0x`. -/
def afterHexMark : Bytes → Option Bytes
  | z :: x :: rest => if z = 48 && lower x == 120 then some rest else none
  | _ => none

/-- A magnitude.  `0x` with no digit of base sixteen behind it is the number zero followed
by an `x`. -/
def magnitude (base : Base) (text : Bytes) : Option (Nat × Bytes) :=
  match afterHexMark text with
  | some rest =>
    match magnitudeIn 16 rest with
    | some found => some found
    | none => some (0, text.drop 1)
  | none => magnitudeIn (plainBase base text) text

/-- The least value that a signed word of 64 bits can hold. -/
def least64 : Int := -9223372036854775808

/-- The greatest value that a signed word of 64 bits can hold. -/
def greatest64 : Int := 9223372036854775807

/-- The nearest value that a signed word of 64 bits can hold. -/
def saturate (n : Int) : Int := max least64 (min n greatest64)

/-- The sign at the start of the text, true for minus, and what follows it. -/
def sign : Bytes → Bool × Bytes
  | [] => (false, [])
  | b :: rest => if b = 45 then (true, rest) else if b = 43 then (false, rest) else (false, b :: rest)

/-- An integer at the start of the text, after blanks and a sign, and what follows it. -/
def scan (base : Base) (text : Bytes) : Option (Int × Bytes) :=
  let (negative, rest) := sign (Bytes.trimStart text)
  (magnitude base rest).map fun (n, after) =>
    (saturate (if negative then -(n : Int) else n), after)

/-- The low 32 bits of an integer, as a signed word. -/
def low32 (n : Int) : Int := Int.bmod n 4294967296

end AnalyzerBridge.Numeral

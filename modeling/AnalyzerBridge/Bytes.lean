/-
Byte strings.

Every text the bridge handles, be it a path, a header line, a configuration file
or a log message, is a sequence of bytes with no promise of being valid text in
any encoding.  They are kept as lists, so that a rule on them is a recursion on
the list and its law an induction.

The character classes are those of seven-bit text: a byte of 128 or more is never
a letter, a digit or a blank.
-/
namespace AnalyzerBridge

/-- A byte string. -/
abbrev Bytes := List UInt8

/-- The bytes of a seven-bit literal. -/
def ascii (s : String) : Bytes := s.toList.map fun c => c.val.toUInt8

namespace Bytes

/-! ### Single bytes -/

/-- Horizontal and vertical tab, line feed, form feed, carriage return and space. -/
def isBlank (b : UInt8) : Bool := b == 32 || (9 ≤ b && b ≤ 13)

/-- A decimal digit. -/
def isDigit (b : UInt8) : Bool := 48 ≤ b && b ≤ 57

/-- An upper-case letter. -/
def isUpper (b : UInt8) : Bool := 65 ≤ b && b ≤ 90

/-- A lower-case letter. -/
def isLower (b : UInt8) : Bool := 97 ≤ b && b ≤ 122

/-- A letter or a digit. -/
def isAlphanumeric (b : UInt8) : Bool := isUpper b || isLower b || isDigit b

/-- The lower-case form of a letter; any other byte is its own. -/
def lower (b : UInt8) : UInt8 := if isUpper b then b + 32 else b

/-- The value of a digit in bases up to 36, letters of either case counting from ten. -/
def digitValue (b : UInt8) : Option Nat :=
  if isDigit b then some (b.toNat - 48)
  else if isLower b then some (b.toNat - 87)
  else if isUpper b then some (b.toNat - 55)
  else none

/-! ### Whole strings -/

/-- The string in lower case. -/
def lowercase (s : Bytes) : Bytes := s.map lower

/-- The string without the blanks it starts with. -/
def trimStart (s : Bytes) : Bytes := s.dropWhile isBlank

/-- The string without the blanks it ends with. -/
def trimEnd (s : Bytes) : Bytes := (s.reverse.dropWhile isBlank).reverse

/-- The string without the blanks at either end. -/
def trim (s : Bytes) : Bytes := trimEnd (trimStart s)

/-- The part before the first `mark` and the part after it, if there is one. -/
def splitAt (mark : UInt8) : Bytes → Option (Bytes × Bytes)
  | [] => none
  | b :: rest =>
    if b = mark then some ([], rest)
    else (splitAt mark rest).map fun (before, after) => (b :: before, after)

/-- The pieces between the occurrences of `mark`; one more piece than there are marks. -/
def splitOn (mark : UInt8) : Bytes → List Bytes
  | [] => [[]]
  | b :: rest =>
    if b = mark then [] :: splitOn mark rest
    else match splitOn mark rest with
      | [] => [[b]]
      | piece :: pieces => (b :: piece) :: pieces

/-- The string up to its first zero byte, which is all that the system calls see of it. -/
def untilZero (s : Bytes) : Bytes := s.takeWhile (· != 0)

/-- The decimal digits of a number. -/
def decimal (n : Nat) : Bytes := (Nat.toDigits 10 n).map fun c => c.val.toUInt8

/-- The decimal form of an integer, with a minus sign if it is negative. -/
def decimalInt (n : Int) : Bytes :=
  if n < 0 then 45 :: decimal n.natAbs else decimal n.natAbs

/-- The pieces joined with `glue` between neighbours. -/
def join (glue : Bytes) : List Bytes → Bytes
  | [] => []
  | [piece] => piece
  | piece :: pieces => piece ++ glue ++ join glue pieces

/-! ### Lines -/

/-- The lines of a text: each ends at a line feed, which is not part of it, and what
follows the last line feed is one more line unless it is empty. -/
def lines : Bytes → List Bytes
  | [] => []
  | b :: rest =>
    if b = 10 then [] :: lines rest
    else match lines rest with
      | [] => [[b]]
      | line :: more => (b :: line) :: more

end Bytes

end AnalyzerBridge

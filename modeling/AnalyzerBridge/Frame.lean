/-
Frames on the wire.

Messages to and from the backend travel as frames: a header that ends in an empty
line and a payload of as many bytes as the header's `Content-Length` says.  This file
holds the written form of a frame and the reading of one header field; how frames are
cut out of a stream of reads is the business of the reader.
-/
import AnalyzerBridge.Bytes

namespace AnalyzerBridge.Frame

/-- The most bytes a header line may have before its end is in sight. -/
def lineLimit : Nat := 8192

/-- The longest payload that is accepted, 256 MiB. -/
def payloadLimit : Nat := 268435456

/-- The end of a header line. -/
def crlf : Bytes := [13, 10]

/-- The frame of a payload. -/
def encode (payload : Bytes) : Bytes :=
  ascii "Content-Length: " ++ Bytes.decimal payload.length ++ crlf ++ crlf ++ payload

/-- A length behind one more decimal digit.  Lengths above the limit on payloads are not told
apart: digits may go on for long, and none of these lengths is accepted. -/
def extendLength (length : Nat) (b : UInt8) : Nat :=
  min (length * 10 + (b.toNat - 48)) (payloadLimit + 1)

/-- The length that a string of decimal digits denotes. -/
def decimalLength (digits : Bytes) : Nat := digits.foldl extendLength 0

/-- A length as it may stand in a header: decimal digits, blanks around them, within the
limit on payloads. -/
def lengthOf? (value : Bytes) : Option Nat :=
  let digits := Bytes.trim value
  if digits.isEmpty || !digits.all Bytes.isDigit then none
  else if decimalLength digits ≤ payloadLimit then some (decimalLength digits)
  else none

/-- What one header line says. -/
inductive Field where
  /-- The length of the payload. -/
  | length (n : Nat)
  /-- A field that does not matter here. -/
  | other
  /-- A length that is no number or too large. -/
  | badLength
  /-- Not a field at all. -/
  | malformed
  deriving DecidableEq, Repr

/-- Reads a header line, which is a name, a colon and a value.  Names are compared without
regard to case, and the name may not be missing. -/
def Field.ofLine (line : Bytes) : Field :=
  match Bytes.splitAt 58 line with
  | none => malformed
  | some ([], _) => malformed
  | some (name, value) =>
    if Bytes.lowercase (Bytes.trim name) = ascii "content-length" then
      match lengthOf? value with
      | some n => length n
      | none => badLength
    else other

end AnalyzerBridge.Frame

/-
File URIs.

A document is known to the backend by a `file` URI: the scheme, then the path with
every byte that is not safe in a URI written as a percent sign and two hexadecimal
digits.  Reading a URI undoes the escapes; a percent sign that starts none is kept.
-/
import AnalyzerBridge.Bytes.Numeral

namespace AnalyzerBridge.Uri

/-- What a file URI starts with. -/
def scheme : Bytes := ascii "file://"

/-- The bytes that stand for themselves: letters, digits, `-`, `.`, `_`, `~` and the slash. -/
def isUnreserved (b : UInt8) : Bool :=
  Bytes.isAlphanumeric b || b == 45 || b == 46 || b == 95 || b == 126 || b == 47

/-- An upper-case hexadecimal digit. -/
def hexDigit (n : UInt8) : UInt8 := if n < 10 then 48 + n else 55 + n

/-- One byte of a path as it stands in a URI. -/
def encodeByte (b : UInt8) : Bytes :=
  if isUnreserved b then [b] else [37, hexDigit (b >>> 4), hexDigit (b &&& 15)]

/-- The URI of a path.  A path that does not start at the root is put under it. -/
def ofPath (path : Bytes) : Bytes :=
  scheme ++ (if path.head? = some 47 then [] else [47]) ++ path.flatMap encodeByte

/-- The byte that two characters after a percent sign denote: they have to be one whole
integer of base sixteen, of which the low eight bits count. -/
def escapedByte (a b : UInt8) : Option UInt8 :=
  match Numeral.scan .sixteen [a, b] with
  | some (n, []) => some (UInt8.ofInt n)
  | _ => none

/-- The text with its escapes undone. -/
def decode : Bytes → Bytes
  | c :: a :: b :: rest =>
    if c = 37 then
      match escapedByte a b with
      | some byte => byte :: decode rest
      | none => c :: decode (a :: b :: rest)
    else c :: decode (a :: b :: rest)
  | short => short

/-- The path that a URI names.  A text that is no file URI is taken as a path. -/
def toPath (uri : Bytes) : Bytes :=
  if scheme.isPrefixOf uri then decode (uri.drop scheme.length) else uri

end AnalyzerBridge.Uri

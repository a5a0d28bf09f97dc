/-
Messages to the backend.

A message names a method and carries parameters that are written already; a call also has a
number, under which its reply comes back.
-/
import AnalyzerBridge.Lsp.Position

namespace AnalyzerBridge.Message

/-- A byte inside of a written text. -/
def escape (b : UInt8) : Bytes :=
  let hex (n : UInt8) : UInt8 := if n < 10 then 48 + n else 87 + n
  if b = 34 then ascii "\\\""
  else if b = 92 then ascii "\\\\"
  else if b = 10 then ascii "\\n"
  else if b = 13 then ascii "\\r"
  else if b = 9 then ascii "\\t"
  else if b < 32 then ascii "\\u00" ++ [hex (b / 16), hex (b % 16)]
  else [b]

/-- A text in quotes. -/
def quoted (text : Bytes) : Bytes := 34 :: text.flatMap escape ++ [34]

/-- Names and written values as one value. -/
def object (fields : List (Bytes × Bytes)) : Bytes :=
  123 :: Bytes.join [44] (fields.map fun (name, value) => quoted name ++ 58 :: value) ++ [125]

/-- A document as a parameter. -/
def document (uri : Bytes) : Bytes × Bytes :=
  (ascii "textDocument", object [(ascii "uri", quoted uri)])

/-- A place in a document as a value. -/
def position (p : Lsp.Position) : Bytes :=
  object [(ascii "line", Bytes.decimal p.line), (ascii "character", Bytes.decimal p.character)]

/-- A stretch of a document as a value. -/
def range (r : Lsp.Range) : Bytes :=
  object [(ascii "start", position r.start), (ascii "end", position r.finish)]

/-- What every message says. -/
def version : Bytes × Bytes := (ascii "jsonrpc", quoted (ascii "2.0"))

/-- A call. -/
def call (id : Nat) (method params : Bytes) : Bytes :=
  object [version, (ascii "id", Bytes.decimal id), (ascii "method", quoted method), (ascii "params", params)]

/-- A notification. -/
def notification (method params : Bytes) : Bytes :=
  object [version, (ascii "method", quoted method), (ascii "params", params)]

end AnalyzerBridge.Message

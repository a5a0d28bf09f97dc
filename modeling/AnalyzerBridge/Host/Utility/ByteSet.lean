/-
Sets of bytes, and replacing the bytes of one by those of another.
-/
import AnalyzerBridge.Host.Shell.Format
import AnalyzerBridge.Host.Shell.Pattern

namespace AnalyzerBridge.Host.ByteSet

/-- The bytes of a list with escapes, each with whether it was escaped. -/
def unescape : Nat → Bytes → List (UInt8 × Bool)
  | 0, _ => []
  | _ + 1, [] => []
  | fuel + 1, b :: rest =>
    if b = 92 then
      match Format.escape Format.inFormats rest with
      | some (some c, n) => (c, true) :: unescape fuel (rest.drop n)
      | _ =>
        match rest with
        | c :: rest => (c, true) :: unescape fuel rest
        | [] => [(92, true)]
    else (b, false) :: unescape fuel rest

/-- Every byte, in order. -/
def allBytes : Bytes := (List.range 256).map fun n => n.toUInt8

/-- The bytes that a list stands for, its ranges and classes written out. -/
def members : Nat → List (UInt8 × Bool) → Bytes
  | 0, _ => []
  | _ + 1, [] => []
  | fuel + 1, (b, escaped) :: rest =>
    match Shell.Pattern.class? ((((b, escaped) :: rest).takeWhile (!·.2)).map (·.1)) with
    | some (holds, n) => allBytes.filter holds ++ members fuel (((b, escaped) :: rest).drop n)
    | none =>
      match rest with
      | (45, false) :: (high, _) :: rest =>
        (allBytes.filter fun c => b ≤ c && c ≤ high) ++ members fuel rest
      | _ => b :: members fuel rest

/-- The bytes that a list stands for. -/
def setOf (text : Bytes) : Bytes := members (text.length + 1) (unescape (text.length + 1) text)

/-- Runs of one byte of a set made single. -/
def squeeze (set : Bytes) : Bytes → Bytes
  | a :: b :: rest =>
    if a = b && set.contains a then squeeze set (b :: rest) else a :: squeeze set (b :: rest)
  | text => text

/-- Each byte of the first list replaced by the one at its place in the second, whose last byte
goes on for ever. -/
def replace (first second : Bytes) (text : Bytes) : Bytes :=
  let table := (first.zip (second ++ List.replicate (first.length - second.length) (second.getLastD 0))).reverse
  text.map fun b => (table.lookup b).getD b

end AnalyzerBridge.Host.ByteSet

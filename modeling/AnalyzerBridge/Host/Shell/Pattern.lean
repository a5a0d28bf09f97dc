/-
Patterns for names.

In a pattern a star stands for any bytes, a question mark for one, and brackets for one of
those they list.  Whether a byte of a pattern has its special meaning depends on how it was
quoted, so every byte comes with that.
-/
import AnalyzerBridge.Bytes

namespace AnalyzerBridge.Host.Shell

/-- A pattern: bytes, and whether they may have a special meaning. -/
abbrev Pattern := List (UInt8 × Bool)

namespace Pattern

/-- The byte with its special meaning. -/
def special (b : UInt8) (p : UInt8 × Bool) : Bool := p.2 && p.1 == b

/-- A byte is one of a list with ranges. -/
def listed (b : UInt8) : Bytes → Bool
  | low :: 45 :: high :: rest => (low ≤ b && b ≤ high) || listed b rest
  | c :: rest => c == b || listed b rest
  | [] => false

/-- The classes that have names. -/
def classes : List (Bytes × (UInt8 → Bool)) :=
  [(ascii "[:alpha:]", fun b => Bytes.isUpper b || Bytes.isLower b), (ascii "[:digit:]", Bytes.isDigit),
    (ascii "[:alnum:]", Bytes.isAlphanumeric), (ascii "[:upper:]", Bytes.isUpper),
    (ascii "[:lower:]", Bytes.isLower), (ascii "[:space:]", Bytes.isBlank),
    (ascii "[:blank:]", fun b => b == 32 || b == 9), (ascii "[:cntrl:]", fun b => b < 32 || b == 127),
    (ascii "[:punct:]", fun b => 33 ≤ b && b ≤ 126 && !Bytes.isAlphanumeric b),
    (ascii "[:print:]", fun b => 32 ≤ b && b ≤ 126), (ascii "[:graph:]", fun b => 33 ≤ b && b ≤ 126),
    (ascii "[:xdigit:]", fun b => ((Bytes.digitValue b).any (· < 16)))]

/-- The named class at the start of a text. -/
def class? (text : Bytes) : Option ((UInt8 → Bool) × Nat) :=
  classes.findSome? fun (name, holds) =>
    if name.isPrefixOf text then some (holds, name.length) else none

/-- The inside of brackets, told by whether a byte is in it, and how many bytes it takes with
the closing bracket. -/
def bracket (text : Bytes) : Option ((UInt8 → Bool) × Nat) :=
  let (negated, start, rest) := match text with
    | 33 :: rest => (true, 1, rest)
    | 94 :: rest => (true, 1, rest)
    | rest => (false, 0, rest)
  (go (rest.length + 1) true rest).map fun (holds, n) =>
    (fun b => holds b != negated, start + n)
where
  go : Nat → Bool → Bytes → Option ((UInt8 → Bool) × Nat)
    | 0, _, _ => none
    | _ + 1, _, [] => none
    | fuel + 1, first, b :: rest =>
      if b = 93 && !first then some (fun _ => false, 1)
      else match class? (b :: rest) with
        | some (holds, n) =>
          (go fuel false ((b :: rest).drop n)).map fun (more, k) => (fun c => holds c || more c, n + k)
        | none =>
          match rest with
          | 45 :: high :: after =>
            if high = 93 then
              (go fuel false rest).map fun (more, k) => (fun c => c == b || more c, k + 1)
            else
              (go fuel false after).map fun (more, k) =>
                (fun c => (b ≤ c && c ≤ high) || more c, k + 3)
          | _ => (go fuel false rest).map fun (more, k) => (fun c => c == b || more c, k + 1)

/-- The whole text matches the pattern.  The bound is at least the length of both together. -/
def matchesWithin : Nat → Pattern → Bytes → Bool
  | 0, _, _ => false
  | _ + 1, [], text => text.isEmpty
  | fuel + 1, p :: pattern, text =>
    if special 42 p then
      matchesWithin fuel pattern text
        || (match text with
          | [] => false
          | _ :: rest => matchesWithin fuel (p :: pattern) rest)
    else match text with
      | [] => false
      | b :: rest =>
        if special 63 p then matchesWithin fuel pattern rest
        else if special 91 p then
          match bracket (pattern.map (·.1)) with
          | some (holds, n) => holds b && matchesWithin fuel (pattern.drop n) rest
          | none => b == 91 && matchesWithin fuel pattern rest
        else b == p.1 && matchesWithin fuel pattern rest

/-- The whole text matches the pattern. -/
def isMatch (pattern : Pattern) (text : Bytes) : Bool :=
  matchesWithin (pattern.length + text.length + 1) pattern text

/-- The pattern has a special byte. -/
def isSpecial (pattern : Pattern) : Bool := pattern.any fun p => p.2 && (p.1 == 42 || p.1 == 63 || p.1 == 91)

/-- The text without what matches at one of its ends: as little of it as possible, or as much. -/
def cut (pattern : Pattern) (atEnd longest : Bool) (text : Bytes) : Bytes :=
  let lengths := if longest then (List.range (text.length + 1)).reverse else List.range (text.length + 1)
  let matching (n : Nat) : Bool :=
    if atEnd then pattern.isMatch (text.drop (text.length - n)) else pattern.isMatch (text.take n)
  match lengths.find? matching with
  | some n => if atEnd then text.take (text.length - n) else text.drop n
  | none => text

end Pattern

end AnalyzerBridge.Host.Shell

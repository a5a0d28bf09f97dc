/-
Basic regular expressions.

A match is sought by walking the expression with what is still to be matched behind it, so
that a repetition can give bytes back.  Repetitions take as much as they can, and the first
place that allows a match is the one that counts.
-/
import AnalyzerBridge.Host.Shell.Pattern

namespace AnalyzerBridge.Host

/-- A basic regular expression. -/
inductive Regex where
  | byte (b : UInt8)
  | any
  | oneOf (holds : UInt8 → Bool)
  | lineStart
  | lineEnd
  /-- What the group of a number matched. -/
  | again (group : Nat)
  /-- A group with its number. -/
  | group (number : Nat) (inside : List Regex)
  /-- At least so many times and at most so many. -/
  | repeated (least : Nat) (most : Option Nat) (inside : Regex)

namespace Regex

/-! ### Reading an expression -/

/-- What stands after an item: how often it may repeat, and how long that is. -/
def repetition : Bytes → Option (Nat × Option Nat × Nat)
  | 42 :: _ => some (0, none, 1)
  | 92 :: 43 :: _ => some (1, none, 2)
  | 92 :: 63 :: _ => some (0, some 1, 2)
  | 92 :: 123 :: text =>
    let number (digits : Bytes) : Nat := digits.foldl (fun n b => n * 10 + (b.toNat - 48)) 0
    let low := text.takeWhile Bytes.isDigit
    match text.drop low.length with
    | 92 :: 125 :: _ => some (number low, some (number low), low.length + 4)
    | 44 :: rest =>
      let high := rest.takeWhile Bytes.isDigit
      match rest.drop high.length with
      | 92 :: 125 :: _ =>
        some (number low, if high.isEmpty then none else some (number high), low.length + high.length + 5)
      | _ => none
    | _ => none
  | _ => none

/-- Reads the items of an expression.  The result is the items, the number of groups so far and
what is left behind a closing parenthesis. -/
def items : Nat → Bool → Nat → Bytes → Option (List Regex × Nat × Bytes)
  | 0, _, _, _ => none
  | _ + 1, _, groups, [] => some ([], groups, [])
  | _ + 1, _, groups, 92 :: 41 :: rest => some ([], groups, rest)
  | fuel + 1, first, groups, b :: rest =>
    let continueWith (item : Regex) (groups : Nat) (rest : Bytes) :
        Option (List Regex × Nat × Bytes) :=
      match repetition rest with
      | some (least, most, n) =>
        (items fuel false groups (rest.drop n)).map fun (more, groups, rest) =>
          (.repeated least most item :: more, groups, rest)
      | none =>
        (items fuel false groups rest).map fun (more, groups, rest) => (item :: more, groups, rest)
    if b = 94 && first then
      (items fuel true groups rest).map fun (more, groups, rest) => (.lineStart :: more, groups, rest)
    else if b = 36 && (rest.isEmpty || (ascii "\\)").isPrefixOf rest) then
      continueWith .lineEnd groups rest
    else if b = 46 then continueWith .any groups rest
    else if b = 91 then
      match Shell.Pattern.bracket rest with
      | some (holds, n) => continueWith (.oneOf holds) groups (rest.drop n)
      | none => none
    else if b = 92 then
      match rest with
      | [] => none
      | 40 :: rest =>
        match items fuel true (groups + 1) rest with
        | some (inside, after, rest) => continueWith (.group (groups + 1) inside) after rest
        | none => none
      | 110 :: rest => continueWith (.byte 10) groups rest
      | 116 :: rest => continueWith (.byte 9) groups rest
      | c :: rest =>
        if Bytes.isDigit c && c != 48 then continueWith (.again (c.toNat - 48)) groups rest
        else continueWith (.byte c) groups rest
    else continueWith (.byte b) groups rest

/-- The expression that a text denotes. -/
def ofText? (text : Bytes) : Option (List Regex) :=
  (items (2 * text.length + 2) true 0 text).bind fun (found, _, rest) =>
    if rest.isEmpty then some found else none

/-! ### Matching -/

/-- Where a match stands. -/
structure Place where
  /-- What was read of the line, the last byte first. -/
  before : Bytes
  /-- What is left of the line. -/
  after : Bytes
  /-- What the groups matched. -/
  groups : List (Nat × Bytes) := []

/-- Steps over a number of bytes. -/
def Place.step (p : Place) (n : Nat) : Place :=
  { p with before := (p.after.take n).reverse ++ p.before, after := p.after.drop n }

/-- Matches items from a place on, and then what is still to be matched. -/
def matchItems : Nat → List Regex → Place → (Place → Option Place) → Option Place
  | 0, _, _, _ => none
  | _ + 1, [], p, k => k p
  | fuel + 1, item :: rest, p, k =>
    let go (p : Place) : Option Place := matchItems fuel rest p k
    match item with
    | .byte b => if p.after.head? = some b then go (p.step 1) else none
    | .any => if p.after.isEmpty then none else go (p.step 1)
    | .oneOf holds => if p.after.head?.any holds then go (p.step 1) else none
    | .lineStart => if p.before.isEmpty then go p else none
    | .lineEnd => if p.after.isEmpty then go p else none
    | .again n =>
      let text := (p.groups.lookup n).getD []
      if text.isPrefixOf p.after then go (p.step text.length) else none
    | .group n inside =>
      matchItems fuel inside p fun q =>
        let text := (q.before.take (q.before.length - p.before.length)).reverse
        go { q with groups := (n, text) :: q.groups.filter (·.1 != n) }
    | .repeated least most inside =>
      let more : Option Place :=
        if most = some 0 then none
        else matchItems fuel [inside] p fun q =>
          if q.after.length = p.after.length then none
          else matchItems fuel (.repeated (least - 1) (most.map (· - 1)) inside :: rest) q k
      match more with
      | some found => some found
      | none => if least = 0 then go p else none

/-- The first match in a line from a place on. -/
def find (regex : List Regex) : Nat → Place → Option (Place × Place)
  | 0, _ => none
  | fuel + 1, p =>
    match matchItems (4 * p.after.length + 1000) regex p some with
    | some q => some (p, q)
    | none => if p.after.isEmpty then none else find regex fuel (p.step 1)

/-- The expression matches somewhere in the line. -/
def occursIn (regex : List Regex) (line : Bytes) : Bool :=
  (find regex (line.length + 1) ⟨[], line, []⟩).isSome

end Regex

end AnalyzerBridge.Host

/-
Editing lines by a script.
-/
import AnalyzerBridge.Host.Utility.Regex

namespace AnalyzerBridge.Host.Sed

/-- Which lines a command is for. -/
inductive Address where
  | line (n : Nat)
  | last
  | matching (regex : List Regex)

/-- What is done with a line. -/
inductive Action where
  | substitute (regex : List Regex) (replacement : Bytes) (everywhere print : Bool) (nth : Nat)
  | delete
  | print
  | quit
  | number

/-- A command. -/
structure Step where
  first : Option Address
  second : Option Address
  negated : Bool
  action : Action

/-! ### Reading a script -/

/-- The text before a delimiter, where a backslash hides one, and what follows it. -/
def upTo (delimiter : UInt8) : Bytes → Option (Bytes × Bytes)
  | [] => none
  | 92 :: b :: rest =>
    (upTo delimiter rest).map fun (text, rest) =>
      (if b = delimiter then b :: text else 92 :: b :: text, rest)
  | b :: rest =>
    if b = delimiter then some ([], rest)
    else (upTo delimiter rest).map fun (text, rest) => (b :: text, rest)

/-- An address at the start of a text. -/
def address? (text : Bytes) : Option (Option Address × Bytes) :=
  match text with
  | 36 :: rest => some (some .last, rest)
  | 47 :: rest =>
    (upTo 47 rest).bind fun (regex, rest) =>
      (Regex.ofText? regex).map fun regex => (some (.matching regex), rest)
  | _ =>
    let digits := text.takeWhile Bytes.isDigit
    if digits.isEmpty then some (none, text)
    else some (some (.line (digits.foldl (fun n b => n * 10 + (b.toNat - 48)) 0)), text.drop digits.length)

/-- The flags behind a substitution: everywhere, printing, and the number of the match. -/
def flags : Nat → Bytes → (Bool × Bool × Nat) × Bytes
  | 0, text => ((false, false, 1), text)
  | fuel + 1, text =>
    match text with
    | 103 :: rest => let ((_, p, n), rest) := flags fuel rest; ((true, p, n), rest)
    | 112 :: rest => let ((g, _, n), rest) := flags fuel rest; ((g, true, n), rest)
    | b :: rest =>
      if Bytes.isDigit b then
        let ((g, p, _), rest) := flags fuel rest
        ((g, p, b.toNat - 48), rest)
      else ((false, false, 1), text)
    | [] => ((false, false, 1), [])

/-- The action at the start of a text. -/
def action? (text : Bytes) : Option (Action × Bytes) :=
  match text with
  | 100 :: rest => some (.delete, rest)
  | 112 :: rest => some (.print, rest)
  | 113 :: rest => some (.quit, rest)
  | 61 :: rest => some (.number, rest)
  | 115 :: delimiter :: rest =>
    (upTo delimiter rest).bind fun (regex, rest) =>
      (upTo delimiter rest).bind fun (replacement, rest) =>
        (Regex.ofText? regex).map fun regex =>
          let ((everywhere, print, nth), rest) := flags 8 rest
          (.substitute regex replacement everywhere print nth, rest)
  | _ => none

/-- Blanks, line ends and semicolons. -/
def isGap (b : UInt8) : Bool := Bytes.isBlank b || b == 59

/-- The commands of a script. -/
def steps : Nat → Bytes → Option (List Step)
  | 0, _ => none
  | fuel + 1, text =>
    let text := text.dropWhile isGap
    if text.isEmpty then some []
    else do
      let (first, rest) ← address? text
      let (second, rest) ← match rest with
        | 44 :: rest => address? rest
        | rest => some (none, rest)
      let rest := Bytes.trimStart rest
      let negated := rest.head? == some 33
      let (action, rest) ← action? (if negated then rest.drop 1 else rest)
      let more ← steps fuel rest
      some ({ first, second, negated, action } :: more)

/-! ### Editing -/

/-- The text that stands for a match. -/
def expand (matched : Bytes) (groups : List (Nat × Bytes)) : Bytes → Bytes
  | [] => []
  | 92 :: b :: rest =>
    (if Bytes.isDigit b then
      if b = 48 then matched else (groups.lookup (b.toNat - 48)).getD []
    else if b = 110 then [10]
    else if b = 116 then [9]
    else [b]) ++ expand matched groups rest
  | b :: rest => (if b = 38 then matched else [b]) ++ expand matched groups rest

/-- Replaces matches from a place on, and tells whether there were any. -/
def substitute (regex : List Regex) (replacement : Bytes) (everywhere : Bool) :
    Nat → Nat → Regex.Place → Bytes × Bool
  | 0, _, p => (p.after, false)
  | fuel + 1, skip, p =>
    match Regex.find regex (p.after.length + 1) { p with groups := [] } with
    | none => (p.after, false)
    | some (start, finish) =>
      let head := p.after.take (p.after.length - start.after.length)
      let matched := start.after.take (start.after.length - finish.after.length)
      let text := if skip = 0 then expand matched finish.groups replacement else matched
      -- behind an empty match one byte is left as it is
      let (kept, next) :=
        if matched.isEmpty then (finish.after.take 1, finish.step 1) else ([], finish)
      let atEnd := matched.isEmpty && finish.after.isEmpty
      let (rest, more) :=
        if atEnd || (skip = 0 && !everywhere) then (next.after, false)
        else substitute regex replacement everywhere fuel (skip - 1) next
      (head ++ text ++ kept ++ rest, skip = 0 || more)

/-- The address holds for a line. -/
def Address.holds (a : Address) (number : Nat) (last : Bool) (line : Bytes) : Bool :=
  match a with
  | .line n => n == number
  | .last => last
  | .matching regex => Regex.occursIn regex line

/-- A line on its way through the script. -/
structure State where
  /-- The line, unless it was deleted. -/
  line : Option Bytes
  /-- What was printed. -/
  output : List Bytes := []
  /-- No further line is to be read. -/
  finished : Bool := false
  /-- The commands whose range has begun. -/
  ranges : List Nat := []

/-- Takes a line through one command. -/
def apply (number : Nat) (last : Bool) (s : State) (indexed : Nat × Step) : State :=
  match s.line with
  | none => s
  | some line =>
    if s.finished then s
    else
      let (index, step) := indexed
      let isOpen := s.ranges.contains index
      let starts := step.first.all (·.holds number last line)
      let ends (a : Address) : Bool := match a with
        | .line n => n ≤ number
        | a => a.holds number last line
      let (chosen, ranges) := match step.second with
        | none => (starts, s.ranges)
        | some a =>
          if isOpen then (true, if ends a then s.ranges.filter (· != index) else s.ranges)
          else if starts then
            (true, match a with
              | .line n => if n ≤ number then s.ranges else index :: s.ranges
              | _ => index :: s.ranges)
          else (false, s.ranges)
      let s := { s with ranges }
      if chosen == step.negated then s
      else match step.action with
        | .delete => { s with line := none }
        | .print => { s with output := s.output ++ [line] }
        | .number => { s with output := s.output ++ [Bytes.decimal number] }
        | .quit => { s with finished := true }
        | .substitute regex replacement everywhere print nth =>
          let (text, changed) :=
            substitute regex replacement everywhere (2 * line.length + 4) (nth - 1) ⟨[], line, []⟩
          { s with
            line := some text
            output := if changed && print then s.output ++ [text] else s.output }

/-- Takes lines through the script. -/
def run (script : List (Nat × Step)) (quiet : Bool) : Nat → List Nat → List Bytes → List Bytes
  | _, _, [] => []
  | number, ranges, line :: rest =>
    let s := script.foldl (apply number rest.isEmpty) { line := some line, ranges }
    let shown := s.output ++ (if quiet then [] else s.line.toList)
    if s.finished then shown else shown ++ run script quiet (number + 1) s.ranges rest

/-- The text that the script makes of a text.  A last line that has no end gets none. -/
def edit (script : List Step) (quiet : Bool) (text : Bytes) : Bytes :=
  let lines := Bytes.lines text
  let shown := run ((List.range script.length).zip script) quiet 1 [] lines
  let joined := (shown.map (· ++ [10])).flatten
  let counts := quiet && script.any fun step => match step.action with
    | .number => true
    | _ => false
  if text.getLast?.any (· != 10) && !shown.isEmpty && !counts then joined.dropLast else joined

end AnalyzerBridge.Host.Sed

/-
Formatted output: escapes and conversions.
-/
import AnalyzerBridge.Bytes.Numeral

namespace AnalyzerBridge.Host.Format

/-! ### Escapes -/

/-- An octal digit. -/
def isOctal (b : UInt8) : Bool := 48 ≤ b && b ≤ 55

/-- The byte that octal digits stand for. -/
def octalByte (digits : Bytes) : UInt8 := digits.foldl (fun n b => n * 8 + (b - 48)) 0

/-- The byte that a letter behind a backslash stands for. -/
def letterEscape : UInt8 → Option UInt8
  | 97 => some 7
  | 98 => some 8
  | 102 => some 12
  | 110 => some 10
  | 114 => some 13
  | 116 => some 9
  | 118 => some 11
  | 92 => some 92
  | _ => none

/-- The value of a hexadecimal digit. -/
def hexDigit (b : UInt8) : Option UInt8 :=
  ((Bytes.digitValue b).filter (· < 16)).map fun n => n.toUInt8

/-- Which escapes there are besides those of letters. -/
structure Escapes where
  /-- Octal digits, up to three of them. -/
  octal : Bool
  /-- A zero and up to three octal digits behind it. -/
  zeroOctal : Bool
  /-- An `x` and up to two hexadecimal digits. -/
  hexadecimal : Bool
  /-- A `c` ends all output. -/
  canEnd : Bool

/-- What an escape stands for, and how long it is behind its backslash; `none` inside for the end
of all output. -/
def escape (e : Escapes) (text : Bytes) : Option (Option UInt8 × Nat) :=
  match text with
  | [] => none
  | b :: rest =>
    match letterEscape b with
    | some c => some (some c, 1)
    | none =>
      if e.canEnd && b == 99 then some (none, 1)
      else if e.zeroOctal && b == 48 then
        let digits := (rest.take 3).takeWhile isOctal
        some (some (octalByte digits), 1 + digits.length)
      else if e.octal && isOctal b then
        let digits := (text.take 3).takeWhile isOctal
        some (some (octalByte digits), digits.length)
      else if e.hexadecimal && b == 120 then
        match ((rest.take 2).map hexDigit).takeWhile Option.isSome with
        | [] => none
        | digits => some (some (digits.foldl (fun n d => n * 16 + d.getD 0) 0), 1 + digits.length)
      else none

/-- The text with its escapes undone, and whether output goes on behind it. -/
def unescape (e : Escapes) : Nat → Bytes → Bytes × Bool
  | 0, _ => ([], true)
  | _ + 1, [] => ([], true)
  | fuel + 1, b :: rest =>
    if b = 92 then
      match escape e rest with
      | some (none, _) => ([], false)
      | some (some c, n) =>
        let (more, goesOn) := unescape e fuel (rest.drop n)
        (c :: more, goesOn)
      | none =>
        let (more, goesOn) := unescape e fuel rest
        (92 :: more, goesOn)
    else
      let (more, goesOn) := unescape e fuel rest
      (b :: more, goesOn)

/-- The escapes in arguments that are to be printed. -/
def inArguments : Escapes := { octal := true, zeroOctal := true, hexadecimal := false, canEnd := true }

/-- The escapes in formats. -/
def inFormats : Escapes := { octal := true, zeroOctal := false, hexadecimal := false, canEnd := false }

/-! ### Conversions -/

/-- How wide something is to be. -/
inductive Width where
  | unsaid
  | fixed (n : Nat)
  | argument
  deriving DecidableEq, Repr

/-- A part of a format. -/
inductive Part where
  | text (bytes : Bytes)
  /-- The end of all output. -/
  | finish
  | convert (flags : Bytes) (width precision : Width) (letter : UInt8)
  deriving DecidableEq, Repr

/-- A width at the start of a text and what follows it. -/
def widthOf : Bytes → Width × Bytes
  | 42 :: rest => (.argument, rest)
  | text =>
    let digits := text.takeWhile Bytes.isDigit
    (if digits.isEmpty then .unsaid else .fixed (digits.foldl (fun n b => n * 10 + (b.toNat - 48)) 0),
      text.drop digits.length)

/-- A conversion behind its percent sign and what follows it. -/
def conversion (text : Bytes) : Option (Part × Bytes) :=
  let flags := text.takeWhile (ascii "-+ 0#").contains
  let (width, rest) := widthOf (text.drop flags.length)
  let (precision, rest) := match rest with
    | 46 :: rest =>
      match widthOf rest with
      | (.unsaid, rest) => (.fixed 0, rest)
      | found => found
    | rest => (.unsaid, rest)
  match rest with
  | letter :: rest => some (.convert flags width precision letter, rest)
  | [] => none

/-- The parts of a format. -/
def parts (e : Escapes) : Nat → Bytes → List Part
  | 0, _ => []
  | _ + 1, [] => []
  | fuel + 1, b :: rest =>
    if b = 92 then
      match escape e rest with
      | some (none, _) => [.finish]
      | some (some c, n) => .text [c] :: parts e fuel (rest.drop n)
      | none => .text [92] :: parts e fuel rest
    else if b = 37 then
      match rest with
      | 37 :: rest => .text [37] :: parts e fuel rest
      | _ =>
        match conversion rest with
        | some (part, rest) => part :: parts e fuel rest
        | none => [.convert [] .unsaid .unsaid 0]
    else
      let run := b :: rest.takeWhile fun c => c != 92 && c != 37
      .text run :: parts e fuel ((b :: rest).drop run.length)

/-- Puts blanks or zeros at a side of a text. -/
def pad (flags : Bytes) (width : Nat) (zeros : Bool) (sign text : Bytes) : Bytes :=
  let missing := width - (sign.length + text.length)
  if flags.contains 45 then sign ++ text ++ List.replicate missing 32
  else if zeros then sign ++ List.replicate missing 48 ++ text
  else List.replicate missing 32 ++ sign ++ text

/-- The digits of a number in a base. -/
def digitsIn (base : Nat) (n : Nat) : Bytes := (Nat.toDigits base n).map fun c => c.val.toUInt8

/-- The letters of a text in upper case. -/
def uppercase (text : Bytes) : Bytes := text.map fun b => if Bytes.isLower b then b - 32 else b

/-- A number as a conversion writes it. -/
def number (flags : Bytes) (width : Nat) (precision : Option Nat) (letter : UInt8) (n : Int) : Bytes :=
  let unsigned := (Int.emod n 18446744073709551616).toNat
  let (sign, digits) :=
    if letter == 100 || letter == 105 then
      (if n < 0 then [45] else if flags.contains 43 then [43] else if flags.contains 32 then [32] else [],
        Bytes.decimal n.natAbs)
    else if letter == 111 then
      let digits := digitsIn 8 unsigned
      ([], if flags.contains 35 && digits.head? != some 48 then 48 :: digits else digits)
    else if letter == 120 then
      (if flags.contains 35 && unsigned != 0 then [48, 120] else [], digitsIn 16 unsigned)
    else if letter == 88 then
      (if flags.contains 35 && unsigned != 0 then [48, 88] else [], uppercase (digitsIn 16 unsigned))
    else ([], digitsIn 10 unsigned)
  let digits := match precision with
    | some 0 => if n = 0 then [] else digits
    | some p => List.replicate (p - digits.length) 48 ++ digits
    | none => digits
  pad flags width (flags.contains 48 && precision.isNone) sign digits

/-- A numeral as an argument, and whether all of it was one.  A quote stands for the code of the
byte behind it. -/
def numeral (text : Bytes) : Int × Bool :=
  match text with
  | [] => (0, true)
  | [34] => (0, false)
  | [39] => (0, false)
  | 34 :: b :: _ => (b.toNat, true)
  | 39 :: b :: _ => (b.toNat, true)
  | _ =>
    match Numeral.scan .announced text with
    | some (n, rest) => (n, rest.isEmpty)
    | none => (0, false)

/-- What was printed so far, and what is left to print. -/
structure Progress where
  /-- The output. -/
  output : Bytes := []
  /-- The arguments that were not used. -/
  arguments : List Bytes
  /-- An argument was used. -/
  used : Bool := false
  /-- The arguments that should have been numerals, each with whether it started like one. -/
  faults : List (Bytes × Bool) := []
  /-- All output has ended. -/
  finished : Bool := false
  /-- A conversion that there is none of. -/
  unknown : Option UInt8 := none

namespace Progress

/-- Takes the next argument. -/
def next (p : Progress) : Option Bytes × Progress :=
  match p.arguments with
  | [] => (none, p)
  | a :: rest => (some a, { p with arguments := rest, used := true })

/-- Takes the next argument as a number. -/
def nextNumber (p : Progress) : Int × Progress :=
  match p.next with
  | (none, p) => (0, p)
  | (some a, p) =>
    let (n, whole) := numeral a
    let started := ((Numeral.scan .announced a)).isSome
    (n, if whole then p else { p with faults := p.faults ++ [(a, started)] })

/-- A width, taken from the arguments if the format says so. -/
def width (p : Progress) : Width → Option Int × Progress
  | .unsaid => (none, p)
  | .fixed n => (some n, p)
  | .argument => let (n, p) := p.nextNumber; (some n, p)

/-- Prints a part of a format. -/
def print (p : Progress) (part : Part) : Progress :=
  if p.finished then p
  else match part with
  | .text bytes => { p with output := p.output ++ bytes }
  | .finish => { p with finished := true }
  | .convert flags width precision letter =>
    let (w, p) := p.width width
    let (q, p) := p.width precision
    let flags := if w.any (· < 0) then 45 :: flags else flags
    let w := (w.getD 0).natAbs
    let q := (q.filter (0 ≤ ·)).map Int.toNat
    let text (bytes : Bytes) : Bytes :=
      pad flags w false [] ((q.map bytes.take).getD bytes)
    if letter == 115 then
      let (a, p) := p.next
      { p with output := p.output ++ text (a.getD []) }
    else if letter == 98 then
      let (a, p) := p.next
      let (bytes, goesOn) := unescape inArguments ((a.getD []).length + 1) (a.getD [])
      { p with output := p.output ++ text bytes, finished := !goesOn }
    else if letter == 99 then
      let (a, p) := p.next
      { p with output := p.output ++ pad flags w false [] ((a.getD []).take 1) }
    else if (ascii "diouxX").contains letter then
      let (n, p) := p.nextNumber
      { p with output := p.output ++ number flags w q letter n }
    else { p with unknown := some letter, finished := true }

/-- Prints a format again and again until the arguments are used up. -/
def printAll (format : List Part) : Nat → Progress → Progress
  | 0, p => p
  | fuel + 1, p =>
    let p := format.foldl print { p with used := false }
    if p.finished || p.arguments.isEmpty || !p.used then p else printAll format fuel p

end Progress

/-- Prints arguments by a format. -/
def format (e : Escapes) (text : Bytes) (arguments : List Bytes) : Progress :=
  Progress.printAll (parts e (text.length + 1) text) (arguments.length + 1) { arguments }

end AnalyzerBridge.Host.Format

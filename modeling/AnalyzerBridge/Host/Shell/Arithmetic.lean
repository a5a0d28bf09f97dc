/-
Expressions with whole numbers.

Numbers are signed words of 64 bits that wrap around.  An expression is read by precedence:
each level reads operands of the next tighter level and the operators of its own between them.
Variables may be assigned to, so that the variables go in and come out.
-/
import AnalyzerBridge.Bytes.Numeral

namespace AnalyzerBridge.Host.Shell

/-- The value of an expression in the making. -/
structure Arithmetic where
  /-- What is left to read. -/
  rest : Bytes
  /-- The variables and their values. -/
  bindings : List (Bytes × Bytes)

namespace Arithmetic

/-- Readers of expressions; a fault is a wording. -/
abbrev Read := StateT Arithmetic (Except Bytes)

/-- How many values a word of 64 bits has. -/
def wordCount : Nat := 18446744073709551616

/-- A number as a signed word of 64 bits. -/
def wrap (n : Int) : Int := Int.bmod n wordCount

/-- A number as an unsigned word of 64 bits. -/
def unsigned (n : Int) : Nat := (Int.emod n wordCount).toNat

/-- The factor of a shift; only the low six bits of its width count. -/
def shiftFactor (width : Int) : Int := Int.ofNat (Nat.pow 2 (Int.emod width 64).toNat)

/-- Goes past blanks. -/
def skip : Read Bytes := modifyGet fun s =>
  let rest := Bytes.trimStart s.rest
  (rest, { s with rest })

/-- Takes a number of bytes. -/
def drop (n : Nat) : Read Unit := modify fun s => { s with rest := s.rest.drop n }

/-- A fault in an expression. -/
def fault {α : Type} (wording : String) : Read α := throw (ascii wording)

/-- A name can have the byte. -/
def inName (b : UInt8) : Bool := Bytes.isAlphanumeric b || b == 95

/-- The value of a variable; one that is not set is zero. -/
def valueOf (name : Bytes) : Read Int := do
  match (← get).bindings.lookup name with
  | none => pure 0
  | some text =>
    if Bytes.trim text = [] then pure 0
    else match Numeral.scan .announced text with
      | some (n, rest) => if (Bytes.trim rest).isEmpty then pure n else throw (ascii "Illegal number: " ++ text)
      | none => throw (ascii "Illegal number: " ++ text)

/-- Sets a variable. -/
def assign (name : Bytes) (n : Int) : Read Int := do
  modify fun s => { s with
    bindings := (name, Bytes.decimalInt n) :: s.bindings.filter (·.1 != name) }
  pure n

/-- A truth value as a number. -/
def truth (b : Bool) : Int := if b then 1 else 0

/-- The operators between two operands, by how tightly they bind, the loosest first.  Longer
ones stand before those they start with. -/
def levels : List (List (String × (Int → Int → Option Int))) :=
  [[("||", fun a b => some (truth (a != 0 || b != 0)))],
    [("&&", fun a b => some (truth (a != 0 && b != 0)))],
    [("|", fun a b => some (Int.ofNat (unsigned a ||| unsigned b)))],
    [("^", fun a b => some (Int.ofNat (unsigned a ^^^ unsigned b)))],
    [("&", fun a b => some (Int.ofNat (unsigned a &&& unsigned b)))],
    [("==", fun a b => some (truth (a == b))), ("!=", fun a b => some (truth (a != b)))],
    [("<=", fun a b => some (truth (a ≤ b))), (">=", fun a b => some (truth (b ≤ a))),
      ("<", fun a b => some (truth (a < b))), (">", fun a b => some (truth (b < a)))],
    [("<<", fun a b => some (a * shiftFactor b)), (">>", fun a b => some (a / shiftFactor b))],
    [("+", fun a b => some (a + b)), ("-", fun a b => some (a - b))],
    [("*", fun a b => some (a * b)), ("/", fun a b => if b = 0 then none else some (a.tdiv b)),
      ("%", fun a b => if b = 0 then none else some (a.tmod b))]]

/-- Operators that assign what another operator makes. -/
def compound : List (Bytes × Bytes) :=
  [(ascii "+=", ascii "+"), (ascii "-=", ascii "-"), (ascii "*=", ascii "*"), (ascii "/=", ascii "/"),
    (ascii "%=", ascii "%")]

/-- The operator of a level at the start of a text.  An operator that is the start of a longer
one is not meant. -/
def operator? (level : Nat) (text : Bytes) : Option (Nat × (Int → Int → Option Int)) :=
  let double (b : UInt8) : Bool := match text with
    | c :: d :: _ => c == b && d == b
    | _ => false
  ((levels.getD level []).find? fun o =>
    (ascii o.1).isPrefixOf text
      && !((o.1 == "|" && double 124) || (o.1 == "&" && double 38) || (o.1 == "<" && double 60)
        || (o.1 == ">" && double 62))).map fun o => (o.1.length, o.2)

mutual

/-- An expression. -/
def expression : Nat → Read Int
  | 0 => fault "expecting primary"
  | fuel + 1 => do
    let text ← skip
    let name := text.takeWhile inName
    let isName := !name.isEmpty && !(name.head?.any Bytes.isDigit)
    let after := Bytes.trimStart (text.drop name.length)
    match isName, after with
    | true, 61 :: 61 :: _ => choice fuel
    | true, 61 :: _ =>
      modify ({ · with rest := after.drop 1 })
      assign name (← expression fuel)
    | true, _ =>
      match compound.find? fun c => c.1.isPrefixOf after with
      | some (sign, op) =>
        modify ({ · with rest := after.drop sign.length })
        let old ← valueOf name
        let n ← expression fuel
        let level := if op = ascii "+" ∨ op = ascii "-" then 8 else 9
        match (operator? level op).bind fun o => o.2 old n with
        | some n => assign name (wrap n)
        | none => fault "division by zero"
      | none => choice fuel
    | _, _ => choice fuel

/-- An expression that may be a choice between two. -/
def choice : Nat → Read Int
  | 0 => fault "expecting primary"
  | fuel + 1 => do
    let condition ← level fuel 0
    match ← skip with
    | 63 :: _ =>
      drop 1
      let first ← expression fuel
      match ← skip with
      | 58 :: _ =>
        drop 1
        let second ← expression fuel
        pure (if condition = 0 then second else first)
      | _ => fault "expecting ':'"
    | _ => pure condition

/-- Operands with operators of a level between them. -/
def level : Nat → Nat → Read Int
  | 0, _ => fault "expecting primary"
  | fuel + 1, n =>
    if n < levels.length then do
      let first ← level fuel (n + 1)
      levelRest fuel n first
    else operand fuel

/-- The operators of a level behind an operand. -/
def levelRest : Nat → Nat → Int → Read Int
  | 0, _, _ => fault "expecting primary"
  | fuel + 1, n, first => do
    match operator? n (← skip) with
    | none => pure first
    | some (length, apply) =>
      drop length
      let second ← level fuel (n + 1)
      match apply first second with
      | some value => levelRest fuel n (wrap value)
      | none => fault "division by zero"

/-- A number, a variable, or something in parentheses. -/
def operand : Nat → Read Int
  | 0 => fault "expecting primary"
  | fuel + 1 => do
    match ← skip with
    | 45 :: _ => drop 1; return wrap (-(← operand fuel))
    | 43 :: _ => drop 1; operand fuel
    | 33 :: _ => drop 1; return truth ((← operand fuel) == 0)
    | 126 :: _ => drop 1; return -(← operand fuel) - 1
    | 40 :: _ =>
      drop 1
      let n ← expression fuel
      match ← skip with
      | 41 :: _ => drop 1; pure n
      | _ => fault "expecting ')'"
    | text =>
      let word := text.takeWhile inName
      if word.isEmpty then fault "expecting primary"
      else if word.head?.any Bytes.isDigit then
        match Numeral.scan .announced word with
        | some (n, rest) =>
          if rest.isEmpty then do
            drop word.length
            pure n
          else fault "expecting EOF"
        | none => fault "expecting primary"
      else do
        drop word.length
        valueOf word

end

/-- The value of a text, and the variables afterwards. -/
def evaluate (text : Bytes) (bindings : List (Bytes × Bytes)) :
    Except Bytes (Int × List (Bytes × Bytes)) :=
  let read : Read Int := do
    if (← skip).isEmpty then pure 0
    else
      let n ← expression (16 * text.length + 64)
      if (← skip).isEmpty then pure n else fault "expecting EOF"
  let shown (wording : Bytes) : Bytes :=
    if (ascii "Illegal").isPrefixOf wording then wording
    else ascii "arithmetic expression: " ++ wording ++ ascii ": \"" ++ text ++ ascii "\""
  match read.run { rest := text, bindings } with
  | .ok (n, s) => .ok (n, s.bindings)
  | .error wording => .error (shown wording)

end Arithmetic

end AnalyzerBridge.Host.Shell

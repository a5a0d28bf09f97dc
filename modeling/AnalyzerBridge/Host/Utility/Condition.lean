/-
Conditions on texts, numbers and files.
-/
import AnalyzerBridge.Host.Machine
import AnalyzerBridge.Bytes.Numeral

namespace AnalyzerBridge.Host.Condition

/-- Why a condition has no truth. -/
inductive Fault where
  | badNumber (text : Bytes)
  | missingArgument (operator : Bytes)
  | unknownOperator (text : Bytes)
  deriving DecidableEq, Repr

/-- A number in a condition. -/
def number (text : Bytes) : Except Fault Int :=
  let trimmed := Bytes.trim text
  let (negative, digits) := Numeral.sign trimmed
  if digits.isEmpty || !digits.all Bytes.isDigit then .error (.badNumber text)
  else
    let n : Int := digits.foldl (fun n b => n * 10 + (b.toNat - 48)) 0
    .ok (if negative then -n else n)

/-- What can be asked of a file. -/
def ofFile (operator : UInt8) (path : Bytes) : Run Bool := do
  match (← Run.stat path), operator with
  | .error _, _ => pure false
  | .ok _, 101 => pure true
  | .ok ⟨.file _ _, _⟩, 102 => pure true
  | .ok ⟨.program _, _⟩, 102 => pure true
  | .ok ⟨.directory, _⟩, 100 => pure true
  | .ok _, 114 => pure true
  | .ok _, 119 => pure true
  | .ok ⟨.file _ executable, _⟩, 120 => pure executable
  | .ok ⟨.program _, _⟩, 120 => pure true
  | .ok ⟨.directory, _⟩, 120 => pure true
  | .ok ⟨.file text _, _⟩, 115 => pure !text.isEmpty
  | .ok ⟨.directory, _⟩, 115 => pure true
  | .ok ⟨.program _, _⟩, 115 => pure true
  | .ok ⟨.nothing, _⟩, 99 => pure true
  | .ok ⟨.zeros, _⟩, 99 => pure true
  | _, _ => pure false

/-- A question about one text, if the operator is one. -/
def unary (operator text : Bytes) : Run (Option Bool) := do
  match operator with
  | [45, 110] => pure (some !text.isEmpty)
  | [45, 122] => pure (some text.isEmpty)
  | [45, b] =>
    if (ascii "efdrwxsbcpSughkLhOG").contains b then return some (← ofFile b text) else pure none
  | _ => pure none

/-- A comparison, if the operator is one. -/
def binary (left operator right : Bytes) : Option (Except Fault Bool) :=
  let numbers (holds : Int → Int → Bool) : Option (Except Fault Bool) := some do
    let a ← number left
    let b ← number right
    pure (holds a b)
  if operator = ascii "=" then some (.ok (left == right))
  else if operator = ascii "!=" then some (.ok (left != right))
  else if operator = ascii "<" then some (.ok (compare left right == .lt))
  else if operator = ascii ">" then some (.ok (compare left right == .gt))
  else if operator = ascii "-eq" then numbers (· == ·)
  else if operator = ascii "-ne" then numbers (· != ·)
  else if operator = ascii "-lt" then numbers (· < ·)
  else if operator = ascii "-le" then numbers (· ≤ ·)
  else if operator = ascii "-gt" then numbers (fun a b => b < a)
  else if operator = ascii "-ge" then numbers (fun a b => b ≤ a)
  else none

/-- The words before the first of a kind and those after it. -/
def splitWords (mark : Bytes) : List Bytes → Option (List Bytes × List Bytes)
  | [] => none
  | w :: rest =>
    if w = mark then some ([], rest) else (splitWords mark rest).map fun (a, b) => (w :: a, b)

/-- The truth of a condition. -/
def evaluate : Nat → List Bytes → Run (Except Fault Bool)
  | 0, _ => pure (.ok false)
  | _ + 1, [] => pure (.ok false)
  | _ + 1, [a] => pure (.ok !a.isEmpty)
  | fuel + 1, [a, b] => do
    if a = ascii "!" then return (← evaluate fuel [b]).map (!·)
    else match ← unary a b with
      | some holds => pure (.ok holds)
      | none =>
        if (binary [] b []).isSome then pure (.error (.missingArgument b))
        else pure (.error (.unknownOperator a))
  | fuel + 1, words => do
    match words with
    | [a, op, b] =>
      match binary a op b with
      | some result => return result
      | none => pure ()
    | _ => pure ()
    let bang := words.head? == some (ascii "!")
    if bang && words.length ≤ 4 then return (← evaluate fuel (words.drop 1)).map (!·)
    else if words.length = 3 && words.head? == some (ascii "(") && words.getLast? == some (ascii ")") then
      evaluate fuel (words.drop 1).dropLast
    else match splitWords (ascii "-o") words with
      | some (a, b) =>
        match ← evaluate fuel a with
        | .error e => pure (.error e)
        | .ok x => return (← evaluate fuel b).map (x || ·)
      | none =>
        match splitWords (ascii "-a") words with
        | some (a, b) =>
          match ← evaluate fuel a with
          | .error e => pure (.error e)
          | .ok x => return (← evaluate fuel b).map (x && ·)
        | none =>
          if bang then return (← evaluate fuel (words.drop 1)).map (!·)
          else pure (.error (.unknownOperator (words.headD [])))

end AnalyzerBridge.Host.Condition

/-
Reading shell scripts.

A script is read command by command: one complete command up to the end of its line, which
is carried out before the next is looked at.  So a fault in a later line does not keep the
earlier ones from running.  The readers take a bound on how deep they go; every step into a
nested construct takes text away, so the length of the script is bound enough.
-/
import AnalyzerBridge.Host.Shell.Syntax

namespace AnalyzerBridge.Host.Shell

/-- What is left to read. -/
structure Script where
  /-- The text. -/
  rest : Bytes
  /-- The number of the line it starts in. -/
  line : Nat := 1
  deriving DecidableEq, Repr

/-- A reader of scripts; a fault is a wording for a person and the line it is found in. -/
abbrev Parse := StateT Script (Except (Bytes × Nat))

namespace Parse

/-! ### Bytes -/

/-- A byte that ends a word. -/
def endsWord (b : UInt8) : Bool :=
  b == 32 || b == 9 || b == 10 || b == 59 || b == 38 || b == 124 || b == 40 || b == 41
    || b == 60 || b == 62

/-- A byte that a name can have. -/
def inName (b : UInt8) : Bool := Bytes.isAlphanumeric b || b == 95

/-- A name: no digit first. -/
def isName : Bytes → Bool
  | [] => false
  | b :: rest => !Bytes.isDigit b && inName b && rest.all inName

/-- What is left. -/
def rest : Parse Bytes := return (← get).rest

/-- Takes a number of bytes. -/
def drop (n : Nat) : Parse Unit := modify fun s =>
  { rest := s.rest.drop n, line := s.line + (s.rest.take n).count 10 }

/-- A fault of a wording. -/
def refuse {α : Type} (wording : Bytes) : Parse α := do
  throw (ascii "Syntax error: " ++ wording, (← get).line)

/-- A fault of a fixed wording. -/
def fault {α : Type} (wording : String) : Parse α := refuse (ascii wording)

/-- Something stands where it may not. -/
def unexpected {α : Type} : Parse α := do
  match ← rest with
  | [] => fault "end of file unexpected"
  | 10 :: _ => fault "newline unexpected"
  | 38 :: 38 :: _ => fault "\"&&\" unexpected"
  | 124 :: 124 :: _ => fault "\"||\" unexpected"
  | 59 :: 59 :: _ => fault "\";;\" unexpected"
  | text =>
    let word := text.takeWhile (!endsWord ·)
    if word.isEmpty then refuse (ascii "\"" ++ text.take 1 ++ ascii "\" unexpected")
    else refuse (ascii "\"" ++ word ++ ascii "\" unexpected")

/-- Goes past blanks, comments and line ends that are escaped. -/
def skipBlanks : Nat → Parse Unit
  | 0 => pure ()
  | fuel + 1 => do
    match ← rest with
    | 32 :: _ | 9 :: _ => drop 1; skipBlanks fuel
    | 92 :: 10 :: _ => drop 2; skipBlanks fuel
    | 35 :: text => drop (1 + (text.takeWhile (· != 10)).length); skipBlanks fuel
    | _ => pure ()

/-- Goes past blanks and line ends. -/
def skipLines : Nat → Parse Unit
  | 0 => pure ()
  | fuel + 1 => do
    skipBlanks (fuel + 1)
    match ← rest with
    | 10 :: _ => drop 1; skipLines fuel
    | _ => pure ()

/-! ### Nested text -/

/-- The length of the text before the byte `close` that belongs to an opening before the text.
Quotes hide what they hold, and `opening` nests. -/
def extent (opening close : UInt8) : Nat → Nat → Bytes → Option Nat
  | 0, _, _ => none
  | _ + 1, _, [] => none
  | fuel + 1, depth, b :: text =>
    if b = 92 then (extent opening close fuel depth (text.drop 1)).map (· + 1 + (text.take 1).length)
    else if b = 39 then
      let inside := text.takeWhile (· != 39)
      (extent opening close fuel depth (text.drop (inside.length + 1))).map (· + 2 + inside.length)
    else if b = 34 then
      let inside := quotedLength fuel text
      (extent opening close fuel depth (text.drop (inside + 1))).map (· + 2 + inside)
    else if b = close then
      match depth with
      | 0 => some 0
      | depth + 1 => (extent opening close fuel depth text).map (· + 1)
    else if b = opening then (extent opening close fuel (depth + 1) text).map (· + 1)
    else (extent opening close fuel depth text).map (· + 1)
where
  /-- The length of the text before the double quote that closes it. -/
  quotedLength : Nat → Bytes → Nat
    | 0, _ => 0
    | _ + 1, [] => 0
    | fuel + 1, b :: text =>
      if b = 34 then 0
      else if b = 92 then quotedLength fuel (text.drop 1) + 1 + (text.take 1).length
      else quotedLength fuel text + 1

/-- The text of a script between back quotes, its escapes undone, and how long it was. -/
def backQuoted : Bytes → Option (Bytes × Nat)
  | [] => none
  | 96 :: _ => some ([], 0)
  | 92 :: b :: text =>
    (backQuoted text).map fun (inside, n) =>
      ((if b == 96 || b == 92 || b == 36 then [b] else [92, b]) ++ inside, n + 2)
  | b :: text => (backQuoted text).map fun (inside, n) => (b :: inside, n + 1)

/-! ### Pieces of words -/

/-- What stands between the braces of a parameter. -/
def braced (text : Bytes) (inQuotes : Bool) : Option Piece :=
  let special (b : UInt8) : Bool := (ascii "@*#?$!-").contains b
  let (hash, text) := match text with
    | 35 :: b :: more => if inName b || special b && more.isEmpty then (true, b :: more) else (false, text)
    | _ => (false, text)
  let name := match text with
    | b :: _ => if Bytes.isDigit b then text.takeWhile Bytes.isDigit
      else if inName b then text.takeWhile inName
      else if special b then [b] else []
    | [] => []
  let after := text.drop name.length
  if name.isEmpty then none
  else if hash then if after.isEmpty then some (.parameter name .length inQuotes) else none
  else match after with
    | [] => some (.parameter name .value inQuotes)
    | 58 :: b :: word =>
      if (ascii "-=?+").contains b then some (.parameter name (.orElse b true word) inQuotes) else none
    | 35 :: 35 :: word => some (.parameter name (.cut false true word) inQuotes)
    | 35 :: word => some (.parameter name (.cut false false word) inQuotes)
    | 37 :: 37 :: word => some (.parameter name (.cut true true word) inQuotes)
    | 37 :: word => some (.parameter name (.cut true false word) inQuotes)
    | b :: word =>
      if (ascii "-=?+").contains b then some (.parameter name (.orElse b false word) inQuotes) else none

/-- What follows a dollar sign. -/
def dollar (inQuotes : Bool) : Parse Piece := do
  let text ← rest
  let literal (b : Bytes) : Piece := if inQuotes then .quoted b else .plain b
  match text with
  | 123 :: text =>
    match extent 123 125 (text.length + 1) 0 text with
    | none => fault "Missing '\x7d'"
    | some n =>
      match braced (text.take n) inQuotes with
      | none => fault "Bad substitution"
      | some piece => drop (n + 2); pure piece
  | 40 :: 40 :: text =>
    match extent 40 41 (text.length + 1) 0 text with
    | none => fault "Missing '))'"
    | some n => drop (n + 4); pure (.arithmetic (text.take n) inQuotes)
  | 40 :: text =>
    match extent 40 41 (text.length + 1) 0 text with
    | none => fault "end of file unexpected (expecting \")\")"
    | some n => drop (n + 2); pure (.substitution (text.take n) inQuotes)
  | b :: text =>
    if Bytes.isDigit b || (ascii "@*#?$!-").contains b then
      drop 1; pure (.parameter [b] .value inQuotes)
    else if inName b then
      let name := b :: text.takeWhile inName
      drop name.length; pure (.parameter name .value inQuotes)
    else pure (literal [36])
  | [] => pure (literal [36])

/-- A script between back quotes. -/
def backQuote (inQuotes : Bool) : Parse Piece := do
  match backQuoted (← rest) with
  | none => fault "EOF in backquote substitution"
  | some (script, n) => drop (n + 1); pure (.substitution script inQuotes)

/-- The pieces up to the closing double quote; `all` takes the whole text instead. -/
def inQuotes (all : Bool) : Nat → Parse Word
  | 0 => pure []
  | fuel + 1 => do
    match ← rest with
    | [] => if all then pure [] else fault "Unterminated quoted string"
    | 34 :: _ => if all then drop 1; return .quoted [34] :: (← inQuotes all fuel) else drop 1; pure []
    | 92 :: 10 :: _ => drop 2; inQuotes all fuel
    | 92 :: b :: _ =>
      if b == 36 || b == 96 || b == 92 || (b == 34 && !all) then
        drop 2; return .quoted [b] :: (← inQuotes all fuel)
      else drop 1; return .quoted [92] :: (← inQuotes all fuel)
    | 36 :: _ =>
      drop 1
      let piece ← dollar true
      return piece :: (← inQuotes all fuel)
    | 96 :: _ =>
      drop 1
      let piece ← backQuote true
      return piece :: (← inQuotes all fuel)
    | text =>
      let run := match text.takeWhile fun b => !(b == 34 || b == 92 || b == 36 || b == 96) with
        | [] => text.take 1
        | run => run
      drop run.length
      return .quoted run :: (← inQuotes all fuel)

/-- The pieces of a word; `all` takes blanks and operators as text. -/
def pieces (all : Bool) : Nat → Parse Word
  | 0 => pure []
  | fuel + 1 => do
    match ← rest with
    | [] => pure []
    | 92 :: 10 :: _ => drop 2; pieces all fuel
    | 92 :: b :: _ => drop 2; return .quoted [b] :: (← pieces all fuel)
    | 39 :: text =>
      let inside := text.takeWhile (· != 39)
      if inside.length = text.length then fault "Unterminated quoted string"
      drop (inside.length + 2)
      return .quoted inside :: (← pieces all fuel)
    | 34 :: _ =>
      drop 1
      let inside ← inQuotes false (fuel + 1)
      return (if inside.isEmpty then [.quoted []] else inside) ++ (← pieces all fuel)
    | 36 :: _ =>
      drop 1
      let piece ← dollar false
      return piece :: (← pieces all fuel)
    | 96 :: _ =>
      drop 1
      let piece ← backQuote false
      return piece :: (← pieces all fuel)
    | b :: text =>
      if endsWord b && !all then pure []
      else
        let run := b :: text.takeWhile fun c =>
          !((endsWord c && !all) || c == 92 || c == 39 || c == 34 || c == 36 || c == 96)
        drop run.length
        return .plain run :: (← pieces all fuel)

/-- A word. -/
def word : Parse Word := do pieces false ((← rest).length + 1)

/-! ### Commands -/

/-- Words that mean something where a command may start. -/
def reservedWords : List Bytes :=
  [ascii "!", ascii "\x7b", ascii "\x7d", ascii "case", ascii "do", ascii "done", ascii "elif",
    ascii "else", ascii "esac", ascii "fi", ascii "for", ascii "if", ascii "in", ascii "then",
    ascii "until", ascii "while"]

/-- The reserved word that stands next. -/
def peekReserved : Parse (Option Bytes) := do
  let text ← rest
  let run := text.takeWhile (!endsWord ·)
  return if reservedWords.contains run then some run else none

/-- Something stands where it may not, and `wanted` should. -/
def unexpectedBut {α : Type} (wanted : String) : Parse α := do
  let expecting := ascii " unexpected (expecting \"" ++ ascii wanted ++ ascii "\")"
  match ← rest with
  | [] => refuse (ascii "end of file" ++ expecting)
  | text =>
    let run := text.takeWhile (!endsWord ·)
    refuse (ascii "\"" ++ (if run.isEmpty then text.take 1 else run) ++ ascii "\"" ++ expecting)

/-- Takes a reserved word that has to stand next. -/
def expect (wanted : String) : Parse Unit := do
  skipLines ((← rest).length + 1)
  if (← peekReserved) = some (ascii wanted) then drop wanted.length
  else unexpectedBut wanted

/-- The operator of a redirection at the start of a text: its kind, its length, and the
descriptor that it is about if none is named. -/
def redirectOperator : Bytes → Option (RedirectKind × Nat × Nat)
  | 60 :: 62 :: _ => some (.readWrite, 2, 0)
  | 60 :: 38 :: _ => some (.duplicate, 2, 0)
  | 60 :: _ => some (.read, 1, 0)
  | 62 :: 62 :: _ => some (.append, 2, 1)
  | 62 :: 124 :: _ => some (.write, 2, 1)
  | 62 :: 38 :: _ => some (.duplicate, 2, 1)
  | 62 :: _ => some (.write, 1, 1)
  | _ => none

/-- The lines of a text before the one that is the delimiter, and what follows that one.  Tabs at
the start of lines go away if `strip`. -/
def hereLines (strip : Bool) (delimiter : Bytes) : Nat → Bytes → Bytes × Bytes
  | 0, text => (text, [])
  | fuel + 1, text =>
    let line := text.takeWhile (· != 10)
    let after := text.drop (line.length + 1)
    let shown := if strip then line.dropWhile (· == 9) else line
    if shown = delimiter then ([], after)
    else if text.isEmpty then ([], [])
    else
      let (more, rest) := hereLines strip delimiter fuel after
      (shown ++ 10 :: more, rest)

/-- A text that is given in the lines behind the present one, which are taken away. -/
def hereText (descriptor : Nat) (strip : Bool) : Parse Redirect := do
  skipBlanks ((← rest).length + 1)
  let delimiter ← word
  if delimiter.isEmpty then unexpected
  let verbatim := delimiter.any fun
    | .quoted _ => true
    | _ => false
  let wanted := delimiter.flatMap fun
    | .plain text => text
    | .quoted text => text
    | _ => []
  let text ← rest
  let line := text.takeWhile (· != 10)
  let behind := text.drop (line.length + 1)
  let (body, after) := hereLines strip wanted (behind.length + 1) behind
  modify ({ · with rest := line ++ 10 :: after })
  let target ←
    if verbatim then pure [.quoted body]
    else
      let s ← get
      set { s with rest := body }
      let target ← inQuotes true (body.length + 1)
      set s
      pure target
  pure { descriptor, kind := .here, target }

/-- A redirection, if one stands next. -/
def redirect? : Parse (Option Redirect) := do
  let text ← rest
  let digits := text.takeWhile Bytes.isDigit
  let number (fallback : Nat) : Nat := if digits.isEmpty then fallback
    else digits.foldl (fun n b => n * 10 + (b.toNat - 48)) 0
  if (ascii "<<-").isPrefixOf (text.drop digits.length) then
    drop (digits.length + 3)
    return some (← hereText (number 0) true)
  if (ascii "<<").isPrefixOf (text.drop digits.length) then
    drop (digits.length + 2)
    return some (← hereText (number 0) false)
  match redirectOperator (text.drop digits.length) with
  | none => pure none
  | some (kind, length, fallback) =>
    drop (digits.length + length)
    skipBlanks ((← rest).length + 1)
    let target ← word
    if target.isEmpty then unexpected
    pure (some { descriptor := number fallback, kind, target })

/-- The redirections behind a compound command. -/
def redirects : Nat → Parse (List Redirect)
  | 0 => pure []
  | fuel + 1 => do
    skipBlanks (fuel + 1)
    match ← redirect? with
    | none => pure []
    | some r => return r :: (← redirects fuel)

/-- The name and value of a word that is an assignment. -/
def assignment? : Word → Option (Bytes × Word)
  | .plain text :: more =>
    match Bytes.splitAt 61 text with
    | some (name, value) =>
      if isName name then some (name, if value.isEmpty then more else .plain value :: more) else none
    | none => none
  | _ => none

/-- What a simple command is made of so far, the last first. -/
structure Simple where
  assignments : List (Bytes × Word) := []
  words : List Word := []
  redirects : List Redirect := []

/-- The parts of a simple command. -/
def simpleParts : Nat → Simple → Parse Simple
  | 0, s => pure s
  | fuel + 1, s => do
    skipBlanks (fuel + 1)
    match ← redirect? with
    | some r => simpleParts fuel { s with redirects := r :: s.redirects }
    | none =>
      let w ← word
      if w.isEmpty then pure s
      else match if s.words.isEmpty then assignment? w else none with
        | some a => simpleParts fuel { s with assignments := a :: s.assignments }
        | none => simpleParts fuel { s with words := w :: s.words }

/-- The words of a loop up to the end of the line. -/
def words : Nat → Parse (List Word)
  | 0 => pure []
  | fuel + 1 => do
    skipBlanks (fuel + 1)
    let w ← word
    if w.isEmpty then pure [] else return w :: (← words fuel)

/-- The patterns of a branch, up to the closing parenthesis. -/
def patterns : Nat → Parse (List Word)
  | 0 => pure []
  | fuel + 1 => do
    skipBlanks (fuel + 1)
    let w ← word
    if w.isEmpty then unexpected
    skipBlanks (fuel + 1)
    match ← rest with
    | 124 :: _ => drop 1; return w :: (← patterns fuel)
    | 41 :: _ => drop 1; pure [w]
    | _ => unexpectedBut ")"

mutual

/-- Commands up to a word or operator that ends them; `oneLine` ends them at the end of the
line too. -/
def sequence (oneLine : Bool) : Nat → Parse (List (Command × Bool))
  | 0 => unexpected
  | fuel + 1 => do
    if oneLine then skipBlanks (fuel + 1) else skipLines (fuel + 1)
    let reserved ← peekReserved
    let closes := reserved.any fun w =>
      [ascii "\x7d", ascii "do", ascii "done", ascii "elif", ascii "else", ascii "esac", ascii "fi",
        ascii "then"].contains w
    match ← rest with
    | [] => pure []
    | 41 :: _ => pure []
    | 59 :: 59 :: _ => pure []
    | 10 :: _ => pure []
    | _ =>
      if closes then pure []
      else
        let command ← andOr fuel
        skipBlanks (fuel + 1)
        match ← rest with
        | 59 :: 59 :: _ => pure [(command, false)]
        | 59 :: _ => drop 1; return (command, false) :: (← sequence oneLine fuel)
        | 38 :: _ => drop 1; return (command, true) :: (← sequence oneLine fuel)
        | 10 :: _ =>
          if oneLine then pure [(command, false)]
          else return (command, false) :: (← sequence oneLine fuel)
        | _ => pure [(command, false)]

/-- Commands that depend on one another. -/
def andOr : Nat → Parse Command
  | 0 => unexpected
  | fuel + 1 => do andOrRest fuel (← pipeline fuel)

/-- What depends on a command before it. -/
def andOrRest : Nat → Command → Parse Command
  | 0, _ => unexpected
  | fuel + 1, first => do
    skipBlanks (fuel + 1)
    match ← rest with
    | 38 :: 38 :: _ =>
      drop 2
      skipLines (fuel + 1)
      andOrRest fuel (.both first (← pipeline fuel))
    | 124 :: 124 :: _ =>
      drop 2
      skipLines (fuel + 1)
      andOrRest fuel (.either first (← pipeline fuel))
    | _ => pure first

/-- Commands that feed one another. -/
def pipeline : Nat → Parse Command
  | 0 => unexpected
  | fuel + 1 => do
    skipBlanks (fuel + 1)
    if (← peekReserved) = some (ascii "!") then
      drop 1
      return .pipeline true (← pipelineParts fuel)
    else match ← pipelineParts fuel with
      | [command] => pure command
      | commands => pure (.pipeline false commands)

/-- The commands of a pipeline. -/
def pipelineParts : Nat → Parse (List Command)
  | 0 => unexpected
  | fuel + 1 => do
    let first ← command fuel
    skipBlanks (fuel + 1)
    match ← rest with
    | 124 :: 124 :: _ => pure [first]
    | 124 :: _ =>
      drop 1
      skipLines (fuel + 1)
      return first :: (← pipelineParts fuel)
    | _ => pure [first]

/-- A body of at least one command, which `closer` is to follow. -/
def body (closer : String) : Nat → Parse Command
  | 0 => unexpected
  | fuel + 1 => do
    match ← sequence false fuel with
    | [] => if (← rest).isEmpty then unexpectedBut closer else unexpected
    | parts => pure (.sequence parts)

/-- One command. -/
def command : Nat → Parse Command
  | 0 => unexpected
  | fuel + 1 => do
    skipBlanks (fuel + 1)
    match ← peekReserved with
    | some reserved =>
      if reserved = ascii "\x7b" then
        drop 1
        let inside ← body "\x7d" fuel
        expect "\x7d"
        return .group inside (← redirects fuel)
      else if reserved = ascii "if" then
        drop 2
        conditional fuel []
      else if reserved = ascii "while" ∨ reserved = ascii "until" then
        drop 5
        let condition ← body "do" fuel
        expect "do"
        let inside ← body "done" fuel
        expect "done"
        return .repeatWhile (reserved = ascii "while") condition inside (← redirects fuel)
      else if reserved = ascii "for" then
        drop 3
        forLoop fuel
      else if reserved = ascii "case" then
        drop 4
        skipBlanks (fuel + 1)
        let subject ← word
        expect "in"
        let branches ← caseBranches fuel
        expect "esac"
        return .matchWord subject branches (← redirects fuel)
      else unexpected
    | none =>
      match ← rest with
      | 40 :: _ =>
        drop 1
        let inside ← body ")" fuel
        skipLines (fuel + 1)
        match ← rest with
        | 41 :: _ => drop 1; return .subshell inside (← redirects fuel)
        | _ => unexpectedBut ")"
      | _ =>
        let line := (← get).line
        let s ← simpleParts fuel {}
        match ← rest, s.words, s.assignments, s.redirects with
        | 40 :: _, [name], [], [] =>
          drop 1
          skipBlanks (fuel + 1)
          match ← rest, name.reserved? with
          | 41 :: _, some name =>
            drop 1
            skipLines (fuel + 1)
            return .define name (← command fuel)
          | _, _ => unexpectedBut ")"
        | _, [], [], [] => unexpected
        | _, _, _, _ =>
          pure (.simple line s.assignments.reverse s.words.reverse s.redirects.reverse)

/-- The branches of a conditional behind its `if` or `elif`. -/
def conditional : Nat → List (Command × Command) → Parse Command
  | 0, _ => unexpected
  | fuel + 1, before => do
    let condition ← body "then" fuel
    expect "then"
    let inside ← body "fi" fuel
    let branches := before ++ [(condition, inside)]
    skipLines (fuel + 1)
    let next ← peekReserved
    if next = some (ascii "elif") then
      drop 4
      conditional fuel branches
    else if next = some (ascii "else") then
      drop 4
      let last ← body "fi" fuel
      expect "fi"
      return .choose branches (some last) (← redirects fuel)
    else
      expect "fi"
      return .choose branches none (← redirects fuel)

/-- A loop over words behind its `for`. -/
def forLoop : Nat → Parse Command
  | 0 => unexpected
  | fuel + 1 => do
    skipBlanks (fuel + 1)
    let name := (← rest).takeWhile inName
    if !isName name then fault "Bad for loop variable"
    drop name.length
    skipLines (fuel + 1)
    let given ←
      if (← peekReserved) = some (ascii "in") then
        drop 2
        pure (some (← words fuel))
      else pure none
    skipBlanks (fuel + 1)
    if (← rest).head? = some 59 then drop 1
    expect "do"
    let inside ← body "done" fuel
    expect "done"
    return .forEach name given inside (← redirects fuel)

/-- The branches of a choice by patterns. -/
def caseBranches : Nat → Parse (List (List Word × Command))
  | 0 => unexpected
  | fuel + 1 => do
    skipLines (fuel + 1)
    if (← peekReserved) = some (ascii "esac") then pure []
    else
      if (← rest).head? = some 40 then drop 1
      let alternatives ← patterns fuel
      let parts ← sequence false fuel
      let branch := (alternatives, Command.sequence parts)
      skipLines (fuel + 1)
      match ← rest with
      | 59 :: 59 :: _ => drop 2; return branch :: (← caseBranches fuel)
      | _ => pure [branch]

end

end Parse

/-- Reads the next complete command of a script, if there is one. -/
def nextCommand (script : Script) : Except (Bytes × Nat) (Option (Command × Script)) :=
  let bound := 4 * script.rest.length + 32
  let read : Parse (Option Command) := do
    Parse.skipLines bound
    if (← Parse.rest).isEmpty then pure none
    else
      let parts ← Parse.sequence true bound
      match ← Parse.rest with
      | [] => pure (some (.sequence parts))
      | 10 :: _ => Parse.drop 1; pure (some (.sequence parts))
      | _ => Parse.unexpected
  match read.run script with
  | .ok (none, _) => .ok none
  | .ok (some command, rest) => .ok (some (command, rest))
  | .error fault => .error fault

/-- Reads a text as the inside of one word, quotes and all, with nothing that ends it. -/
def wordOf (text : Bytes) (quoted : Bool) : Word :=
  let bound := text.length + 1
  let read := if quoted then Parse.inQuotes true bound else Parse.pieces true bound
  match read.run { rest := text } with
  | .ok (word, _) => word
  | .error _ => [.quoted text]

end AnalyzerBridge.Host.Shell

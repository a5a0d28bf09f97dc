/-
The small programs of the system.

Each takes the words it is called with, the first being its own name, and yields its exit
code.  Faults are reported in the words that these programs use.
-/
import AnalyzerBridge.Host.Utility.Condition
import AnalyzerBridge.Host.Utility.Sed
import AnalyzerBridge.Host.Utility.ByteSet

namespace AnalyzerBridge.Host.Utility

open Run

/-! ### Common ground -/

/-- How many pieces of a stream are read at most. -/
def patience : Nat := 100000

/-- Reports a fault. -/
def complain (name : Bytes) (text : Bytes) : Run Nat := do
  emit 2 (name ++ ascii ": " ++ text ++ [10])
  pure 1

/-- A text in quotes. -/
def quote (text : Bytes) : Bytes := [39] ++ text ++ [39]

/-- A call that makes no sense. -/
def misuse (name text : Bytes) : Run Nat := do
  let _ ← complain name text
  emit 2 (ascii "Try " ++ quote (name ++ ascii " --help") ++ ascii " for more information.\n")
  pure 1

/-- Writes the output of a program. -/
def put (name text : Bytes) (code : Nat := 0) : Run Nat := do
  match ← write 1 text with
  | none => pure code
  | some e => complain name (ascii "write error: " ++ e.message)

/-- Splits the options off the other words: letters behind a dash, until `--`. -/
def options : List Bytes → List UInt8 × List Bytes
  | [] => ([], [])
  | word :: rest =>
    if word = ascii "--" then ([], rest)
    else match word with
      | 45 :: b :: letters => let (more, words) := options rest; (b :: letters ++ more, words)
      | _ => ([], word :: rest)

/-- The number that decimal digits denote. -/
def decimal? (text : Bytes) : Option Nat :=
  if !text.isEmpty && text.all Bytes.isDigit then
    some (text.foldl (fun n b => n * 10 + (b.toNat - 48)) 0)
  else none

/-- The text of a file, or of the standard input for a dash. -/
def textOf (path : Bytes) : Run (Except Errno Bytes) := do
  if path = [45] then readAll 0 patience
  else match ← openRead path, ← stat path with
    | _, .ok ⟨.directory, _⟩ => pure (.error .isDirectory)
    | .error e, _ => pure (.error e)
    | .ok .zeros, _ => waitForever; pure (.ok [])
    | .ok _, _ => readFile path

/-- The texts of files one after the other, and the exit code after faults.  No files mean the
standard input. -/
def gather (name : Bytes) (fault : Bytes → Errno → Bytes) : List Bytes → Run (List (Bytes × Bytes) × Nat)
  | [] => pure ([], 0)
  | path :: rest => do
    match ← textOf path with
    | .ok text =>
      let (more, code) ← gather name fault rest
      pure ((path, text) :: more, code)
    | .error e =>
      let _ ← complain name (fault path e)
      let (more, _) ← gather name fault rest
      pure (more, 1)

/-- The standard input if no files are named. -/
def filesOr (files : List Bytes) : List Bytes := if files.isEmpty then [[45]] else files

/-- A path and why it cannot be used. -/
def plainFault (path : Bytes) (e : Errno) : Bytes := path ++ ascii ": " ++ e.message

/-- A path that cannot be opened to read. -/
def openFault (path : Bytes) (e : Errno) : Bytes :=
  if e = .isDirectory then ascii "error reading " ++ quote path ++ ascii ": " ++ e.message
  else ascii "cannot open " ++ quote path ++ ascii " for reading: " ++ e.message

/-- Does something with each file and counts a fault as code one. -/
def each (files : List Bytes) (act : Bytes → Run Nat) : Run Nat :=
  files.foldlM (fun code path => return max code (← act path)) 0

/-! ### Streams -/

/-- Hands on a stream as it comes. -/
def copyStream (name : Bytes) : Nat → Run Nat
  | 0 => do
    waitForever
    pure 0
  | fuel + 1 => do
    match ← readChunk 0 65536 with
    | .error e => do
      let _ ← complain name (ascii "-: " ++ e.message)
      complain name (ascii "closing standard input: " ++ e.message)
    | .ok [] => pure 0
    | .ok chunk =>
      match ← write 1 chunk with
      | none => copyStream name fuel
      | some e => complain name (ascii "write error: " ++ e.message)

/-- Hands on files and streams. -/
def cat (name : Bytes) (arguments : List Bytes) : Run Nat := do
  let (_, files) := options arguments
  match ← channel? 1 with
  | none => complain name (ascii "standard output: " ++ Errno.badDescriptor.message)
  | some _ =>
    each (filesOr files) fun path => do
      if path = [45] then copyStream name patience
      else match ← textOf path with
        | .ok text => put name text
        | .error e => complain name (plainFault path e)

/-- The first lines or bytes of a stream, which is read no further than needed. -/
def headOfStream (lines : Option Nat) (bytes : Nat) (sofar : Bytes) : Nat → Run Bytes
  | 0 => pure sofar
  | fuel + 1 => do
    let enough : Bool := match lines with
      | some n => n ≤ sofar.count 10
      | none => bytes ≤ sofar.length
    if enough then pure sofar
    else
      let most := if lines.isSome then 1024 else min 65536 (bytes - sofar.length)
      match ← readChunk 0 most with
      | .ok [] => pure sofar
      | .ok chunk => headOfStream lines bytes (sofar ++ chunk) fuel
      | .error _ => pure sofar

/-- The first lines of a text. -/
def firstLines : Nat → Bytes → Bytes
  | 0, _ => []
  | n + 1, text =>
    match Bytes.splitAt 10 text with
    | some (line, rest) => line ++ 10 :: firstLines n rest
    | none => text

/-- A count of lines or bytes, and the words behind it. -/
def countOption (name : Bytes) (fallback : Nat) : List Bytes →
    Except (Run Nat) (Bool × Bytes × List Bytes)
  | word :: rest =>
    if word = ascii "-n" ∨ word = ascii "-c" then
      match rest with
      | n :: rest => .ok (word = ascii "-c", n, rest)
      | [] => .error (misuse name (ascii "option requires an argument -- " ++ quote (word.drop 1)))
    else match word with
      | 45 :: 110 :: n => .ok (false, n, rest)
      | 45 :: 99 :: n => .ok (true, n, rest)
      | 45 :: n => if (decimal? n).isSome then .ok (false, n, rest) else .ok (false, Bytes.decimal fallback, word :: rest)
      | _ => .ok (false, Bytes.decimal fallback, word :: rest)
  | [] => .ok (false, Bytes.decimal fallback, [])

/-- The beginnings of files. -/
def head (name : Bytes) (arguments : List Bytes) : Run Nat := do
  match countOption name 10 arguments with
  | .error fault => fault
  | .ok (inBytes, count, files) =>
    match decimal? count with
    | none =>
      complain name (ascii "invalid number of " ++ (if inBytes then ascii "bytes" else ascii "lines")
        ++ ascii ": " ++ quote count)
    | some n =>
      let beginning (text : Bytes) : Bytes := if inBytes then text.take n else firstLines n text
      each (filesOr files) fun path => do
        let zeros ← (do
          match ← stat path with
          | .ok ⟨.zeros, _⟩ => pure inBytes
          | _ => pure false : Run Bool)
        if zeros then put name (List.replicate n 0)
        else if path = [45] then
          let text ← headOfStream (if inBytes then none else some n) n [] patience
          put name (beginning text)
        else match ← textOf path with
          | .ok text => put name (beginning text)
          | .error e => complain name (openFault path e)

/-- The ends of files. -/
def tail (name : Bytes) (arguments : List Bytes) : Run Nat := do
  match countOption name 10 arguments with
  | .error fault => fault
  | .ok (inBytes, count, files) =>
    let fromStart := count.head? == some 43
    match decimal? (if fromStart then count.drop 1 else count) with
    | none =>
      complain name (ascii "invalid number of " ++ (if inBytes then ascii "bytes" else ascii "lines")
        ++ ascii ": " ++ quote count)
    | some n =>
      let finish (text : Bytes) : Bytes :=
        let lines := Bytes.lines text
        let skip (length : Nat) : Nat := if fromStart then n - 1 else length - n
        if inBytes then text.drop (skip text.length)
        else text.drop (firstLines (skip lines.length) text).length
      each (filesOr files) fun path => do
        match ← textOf path with
        | .ok text => put name (finish text)
        | .error e => complain name (openFault path e)

/-- The number of words in a text. -/
def wordCount (text : Bytes) : Nat :=
  (text.foldl (fun (n, inside) b =>
    if Bytes.isBlank b then (n, false) else (if inside then n else n + 1, true)) (0, false)).1

/-- Counts lines, words and bytes. -/
def wc (name : Bytes) (arguments : List Bytes) : Run Nat := do
  let (letters, files) := options arguments
  let letters := if letters.isEmpty then ascii "lwc" else letters
  let (texts, code) ← gather name plainFault (filesOr files)
  let counts (text : Bytes) : List Nat :=
    (if letters.contains 108 then [text.count 10] else [])
      ++ (if letters.contains 119 then [wordCount text] else [])
      ++ (if letters.contains 99 || letters.contains 109 then [text.length] else [])
  let total := (texts.map (·.2)).flatten
  let rows := (texts.map fun (path, text) => (if files.isEmpty then [] else path, counts text))
    ++ (if 2 ≤ texts.length then [(ascii "total", counts total)] else [])
  let digits (n : Nat) : Nat := (Bytes.decimal n).length
  let width :=
    if (counts []).length = 1 && files.length ≤ 1 then 1
    else if files.isEmpty then 7
    else digits total.length
  let row (label : Bytes) (counts : List Nat) : Bytes :=
    Bytes.join [32] (counts.map fun n => List.replicate (width - digits n) 32 ++ Bytes.decimal n)
      ++ (if label.isEmpty then [] else 32 :: label) ++ [10]
  put name (rows.map fun (label, counts) => row label counts).flatten code

/-- Replaces or removes bytes. -/
def tr (name : Bytes) (arguments : List Bytes) : Run Nat := do
  let (letters, sets) := options arguments
  let delete := letters.contains 100
  let squeeze := letters.contains 115
  let first := ByteSet.setOf (sets.headD [])
  let first := if letters.contains 99 || letters.contains 67 then
    ByteSet.allBytes.filter (!first.contains ·) else first
  match sets with
  | [] => misuse name (ascii "missing operand")
  | [only] =>
    if !delete && !squeeze then
      let _ ← complain name (ascii "missing operand after " ++ quote only)
      emit 2 (ascii "Two strings must be given when translating.\n")
      emit 2 (ascii "Try " ++ quote (name ++ ascii " --help") ++ ascii " for more information.\n")
      pure 1
    else
      match ← readAll 0 patience with
      | .error e => complain name (ascii "read error: " ++ e.message)
      | .ok text =>
        if delete then put name (text.filter (!first.contains ·)) else put name (ByteSet.squeeze first text)
  | _ :: second :: _ =>
    match ← readAll 0 patience with
    | .error e => complain name (ascii "read error: " ++ e.message)
    | .ok text =>
      let second := ByteSet.setOf second
      let text := if delete then text.filter (!first.contains ·) else ByteSet.replace first second text
      put name (if squeeze then ByteSet.squeeze second text else text)

/-- Edits lines. -/
def sed (name : Bytes) (arguments : List Bytes) : Run Nat := do
  let rec split (quiet : Bool) (scripts : List Bytes) : List Bytes → Bool × List Bytes × List Bytes
    | [] => (quiet, scripts, [])
    | word :: rest =>
      if word = ascii "-n" then split true scripts rest
      else if word = ascii "-e" then
        match rest with
        | script :: rest => split quiet (scripts ++ [script]) rest
        | [] => (quiet, scripts, [])
      else if scripts.isEmpty then (quiet, [word], rest)
      else (quiet, scripts, word :: rest)
  let (quiet, scripts, files) := split false [] arguments
  let text := Bytes.join [10] scripts
  match Sed.steps (text.length + 2) text with
  | none =>
    complain name (ascii "-e expression #1, char " ++ Bytes.decimal text.length
      ++ (if text.head? = some 115 then ascii ": unterminated " ++ [96] ++ ascii "s' command"
        else ascii ": unknown command: " ++ [96] ++ text.take 1 ++ [39]))
  | some script =>
    let fault (path : Bytes) (e : Errno) : Bytes :=
      if e = .isDirectory then ascii "couldn't edit " ++ path ++ ascii ": not a regular file"
      else ascii "can't read " ++ path ++ ascii ": " ++ e.message
    let (texts, code) ← gather name fault (filesOr files)
    put name (Sed.edit script quiet (texts.map (·.2)).flatten) (2 * code)

/-- Picks lines. -/
def grep (name : Bytes) (arguments : List Bytes) : Run Nat := do
  let (letters, words) := options arguments
  match words with
  | [] =>
    emit 2 (ascii "Usage: " ++ name ++ ascii " [OPTION]... PATTERNS [FILE]...\n")
    emit 2 (ascii "Try " ++ quote (name ++ ascii " --help") ++ ascii " for more information.\n")
    pure 2
  | pattern :: files =>
    let fold (text : Bytes) : Bytes := if letters.contains 105 then Bytes.lowercase text else text
    let (texts, code) ← gather name plainFault (filesOr files)
    let holds (line : Bytes) : Bool :=
      (if letters.contains 70 then
          (List.range (line.length + 1)).any fun n => (fold pattern).isPrefixOf ((fold line).drop n)
        else match Regex.ofText? (fold pattern) with
          | some regex => Regex.occursIn regex (fold line)
          | none => false) != letters.contains 118
    let found := texts.map fun (path, text) => (path, (Bytes.lines text).filter holds)
    let label (path : Bytes) : Bytes := if 2 ≤ files.length then path ++ [58] else []
    let rows := found.flatMap fun (path, lines) =>
      if letters.contains 99 then [label path ++ Bytes.decimal lines.length ++ [10]]
      else lines.map fun line => label path ++ line ++ [10]
    let any := found.any (!·.2.isEmpty)
    let status := if any then (if code = 0 || letters.contains 113 then 0 else 2) else if code = 0 then 1 else 2
    if letters.contains 113 then pure status else put name rows.flatten status

/-! ### Texts -/

/-- Prints words. -/
def echo (name : Bytes) (arguments : List Bytes) : Run Nat := do
  let isOption (word : Bytes) : Bool :=
    match word with
    | 45 :: letters => !letters.isEmpty && letters.all (ascii "neE").contains
    | _ => false
  let letters := ((arguments.takeWhile isOption).map (·.drop 1)).flatten
  let text := Bytes.join [32] (arguments.dropWhile isOption)
  let escapes : Format.Escapes := { octal := false, zeroOctal := true, hexadecimal := true, canEnd := true }
  let (text, goesOn) :=
    if (letters.reverse.find? fun b => b != 110) = some 101 then Format.unescape escapes (text.length + 1) text
    else (text, true)
  put name (if letters.contains 110 || !goesOn then text else text ++ [10])

/-- Prints words by a format. -/
def printf (name : Bytes) (arguments : List Bytes) : Run Nat := do
  let arguments := if arguments.head? = some (ascii "--") then arguments.drop 1 else arguments
  match arguments with
  | [] => misuse name (ascii "missing operand")
  | format :: words =>
    let escapes : Format.Escapes := { octal := true, zeroOctal := false, hexadecimal := true, canEnd := true }
    let done := Format.format escapes format words
    for (text, started) in done.faults do
      let _ ← complain name (quote text
        ++ (if started then ascii ": value not completely converted" else ascii ": expected a numeric value"))
    match done.unknown with
    | some letter =>
      let _ ← put name done.output
      complain name (ascii "%" ++ [letter] ++ ascii ": invalid conversion specification")
    | none => put name done.output (if done.faults.isEmpty then 0 else 1)

/-- Counts. -/
def seq (name : Bytes) (arguments : List Bytes) : Run Nat := do
  let number (text : Bytes) : Int :=
    match text with
    | 45 :: digits => -(((decimal? digits).getD 0 : Nat) : Int)
    | digits => ((decimal? digits).getD 0 : Nat)
  let (first, step, last) := match arguments.map number with
    | [last] => (1, 1, last)
    | [first, last] => (first, 1, last)
    | first :: step :: last :: _ => (first, step, last)
    | [] => (1, 1, 0)
  if arguments.isEmpty then misuse name (ascii "missing operand")
  else
    let span := if 0 < step then last - first else first - last
    let count := if step = 0 ∨ span < 0 then 0 else (span / step.natAbs).toNat + 1
    put name (((List.range count).map fun (i : Nat) =>
      Bytes.decimalInt (first + step * i) ++ [10]).flatten)

/-- The last name of a path. -/
def basename (name : Bytes) (arguments : List Bytes) : Run Nat := do
  match arguments with
  | [] => misuse name (ascii "missing operand")
  | path :: rest =>
    let trimmed := (path.reverse.dropWhile (· == 47)).reverse
    let last := (trimmed.reverse.takeWhile (· != 47)).reverse
    let last := if trimmed.isEmpty && !path.isEmpty then [47] else last
    let ending := rest.headD []
    put name ((if ending.isSuffixOf last && ending.length < last.length then
      last.take (last.length - ending.length) else last) ++ [10])

/-- A path without its last name. -/
def dirname (name : Bytes) (arguments : List Bytes) : Run Nat := do
  match arguments with
  | [] => misuse name (ascii "missing operand")
  | path :: _ =>
    let trimmed := (path.reverse.dropWhile (· == 47)).dropWhile (· != 47)
    let head := (trimmed.dropWhile (· == 47)).reverse
    put name ((if head.isEmpty then (if path.head? = some 47 then [47] else [46]) else head) ++ [10])

/-- The present directory. -/
def pwd (name : Bytes) : Run Nat := do
  put name (47 :: Bytes.join [47] (← get).process.directory ++ [10])

/-- Answers a question. -/
def test (name : Bytes) (words : List Bytes) : Run Nat := do
  match ← Condition.evaluate (2 * words.length + 8) words with
  | .ok holds => pure (if holds then 0 else 1)
  | .error (.badNumber text) => return 1 + (← complain name (ascii "invalid integer " ++ quote text))
  | .error (.missingArgument op) => return 1 + (← complain name (ascii "missing argument after " ++ quote op))
  | .error (.unknownOperator text) =>
    return 1 + (← complain name (if words.length = 2 then quote text ++ ascii ": unary operator expected"
      else quote (words.getD 1 []) ++ ascii ": binary operator expected"))

/-! ### Time -/

/-- A span of time in microseconds. -/
def span? (text : Bytes) : Option Time :=
  let whole := text.takeWhile Bytes.isDigit
  let rest := text.drop whole.length
  let (part, rest) := match rest with
    | 46 :: rest => let part := rest.takeWhile Bytes.isDigit; (part, rest.drop part.length)
    | rest => ([], rest)
  let value (digits : Bytes) : Nat := digits.foldl (fun n b => n * 10 + (b.toNat - 48)) 0
  let micros := value whole * 1000000 + value ((part ++ ascii "000000").take 6)
  if whole.isEmpty && part.isEmpty then none
  else match rest with
    | [] => some micros
    | [115] => some micros
    | [109] => some (60 * micros)
    | [104] => some (3600 * micros)
    | [100] => some (86400 * micros)
    | _ => none

/-- Waits. -/
def sleep (name : Bytes) (arguments : List Bytes) : Run Nat := do
  let arguments := if arguments.head? = some (ascii "--") then arguments.drop 1 else arguments
  match arguments with
  | [] => misuse name (ascii "missing operand")
  | _ =>
    match arguments.find? fun a => (span? a).isNone && a != ascii "infinity" with
    | some (45 :: b :: _) => misuse name (ascii "invalid option -- " ++ quote [b])
    | some bad => misuse name (ascii "invalid time interval " ++ quote bad)
    | none =>
      if arguments.contains (ascii "infinity") then
        waitForever
        pure 0
      else
        pass ((arguments.filterMap span?).foldl (· + ·) 0)
        pure 0

/-! ### Files -/

/-- Removes a file, or a directory with what is in it. -/
def removeOne (name : Bytes) (deep force : Bool) (path : Bytes) : Run Nat := do
  let refuse (e : Errno) : Run Nat :=
    complain name (ascii "cannot remove " ++ quote path ++ ascii ": " ++ e.message)
  match ← resolve path, ← stat path with
  | .ok place, .ok ⟨.directory, _⟩ =>
    if deep then dropFile place; pure 0 else refuse .isDirectory
  | .ok place, .ok _ => dropFile place; pure 0
  | .error e, _ => if force && e = .noEntry then pure 0 else refuse e
  | _, .error e => if force && e = .noEntry then pure 0 else refuse e

/-- Removes files. -/
def rm (name : Bytes) (arguments : List Bytes) : Run Nat := do
  let (letters, files) := options arguments
  let force := letters.contains 102
  if files.isEmpty then
    if force then pure 0 else misuse name (ascii "missing operand")
  else each files (removeOne name (letters.contains 114 || letters.contains 82) force)

/-- Makes directories. -/
def mkdir (name : Bytes) (arguments : List Bytes) : Run Nat := do
  let (letters, directories) := options arguments
  let refuse (path : Bytes) (e : Errno) : Run Nat :=
    complain name (ascii "cannot create directory " ++ quote path ++ ascii ": " ++ e.message)
  if directories.isEmpty then misuse name (ascii "missing operand")
  else each directories fun path => do
    let m ← get
    if letters.contains 112 then
      let pieces := Bytes.splitOn 47 path
      for n in List.range pieces.length do
        match ← resolve (Bytes.join [47] (pieces.take (n + 1))) with
        | .ok place => if (m.tree.get? place).isNone then putFile place .directory
        | .error _ => pure ()
      match ← stat path with
      | .ok ⟨.directory, _⟩ => pure 0
      | .ok _ => refuse path .fileExists
      | .error e => refuse path e
    else match ← resolve ((path.reverse.dropWhile (· == 47)).reverse) with
      | .error e => refuse path (if path.all (· == 47) && !path.isEmpty then .fileExists else e)
      | .ok place =>
        if (m.tree.get? place).isSome then refuse path .fileExists
        else do
          putFile place .directory
          pure 0

/-- Removes empty directories. -/
def rmdir (name : Bytes) (arguments : List Bytes) : Run Nat := do
  let (_, directories) := options arguments
  if directories.isEmpty then misuse name (ascii "missing operand")
  else each directories fun path => do
    let refuse (e : Errno) : Run Nat :=
      complain name (ascii "failed to remove " ++ quote path ++ ascii ": " ++ e.message)
    match ← resolve path, ← stat path with
    | .ok place, .ok ⟨.directory, _⟩ =>
      if ((← get).tree.names place).isEmpty then dropFile place; pure 0 else refuse .notEmpty
    | .ok _, .ok _ => refuse .notDirectory
    | .error e, _ => refuse e
    | _, .error e => refuse e

/-- Creates files. -/
def touch (name : Bytes) (arguments : List Bytes) : Run Nat := do
  let (_, files) := options arguments
  if files.isEmpty then misuse name (ascii "missing file operand")
  else each files fun path => do
    match ← stat path with
    | .ok _ => pure 0
    | .error _ =>
      match ← openWrite path true with
      | .ok _ => pure 0
      | .error e => complain name (ascii "cannot touch " ++ quote path ++ ascii ": " ++ e.message)

/-- Whether a mode lets a file be run, if it says anything of that. -/
def modeRuns (mode : Bytes) : Option Bool :=
  if !mode.isEmpty && mode.all Format.isOctal then
    some (mode.any fun b => (b - 48) % 2 == 1)
  else
    let who := mode.takeWhile (ascii "ugoa").contains
    match mode.drop who.length with
    | 43 :: letters => if letters.contains 120 then some true else none
    | 45 :: letters => if letters.contains 120 then some false else none
    | 61 :: letters => some (letters.contains 120)
    | _ => none

/-- The text is a mode. -/
def isMode (mode : Bytes) : Bool :=
  (!mode.isEmpty && mode.all Format.isOctal)
    || (match mode.drop (mode.takeWhile (ascii "ugoa").contains).length with
      | b :: letters => (ascii "+-=").contains b && letters.all (ascii "rwxXst").contains
      | [] => false)

/-- Lets files be run, or not. -/
def chmod (name : Bytes) (arguments : List Bytes) : Run Nat := do
  let arguments := if arguments.head? = some (ascii "--") then arguments.drop 1 else arguments
  match arguments with
  | [] => misuse name (ascii "missing operand")
  | [mode] => misuse name (ascii "missing operand after " ++ quote mode)
  | mode :: files =>
    if !isMode mode then misuse name (ascii "invalid mode: " ++ quote mode)
    else each files fun path => do
      match ← resolve path, ← stat path with
      | .ok place, .ok ⟨.file text executable, _⟩ =>
        putFile place (.file text ((modeRuns mode).getD executable))
        pure 0
      | _, .error e => complain name (ascii "cannot access " ++ quote path ++ ascii ": " ++ e.message)
      | _, _ => pure 0

/-- Where a file goes: into a directory under its own name, or to a path. -/
def destination (source target : Bytes) : Run Bytes := do
  match ← stat target with
  | .ok ⟨.directory, _⟩ =>
    let trimmed := (source.reverse.dropWhile (· == 47)).reverse
    pure (Path.append target (trimmed.reverse.takeWhile (· != 47)).reverse)
  | _ => pure target

/-- Copies files, or moves them. -/
def copy (name : Bytes) (move : Bool) (arguments : List Bytes) : Run Nat := do
  let (_, paths) := options arguments
  match paths.getLast?, paths.dropLast with
  | none, _ => misuse name (ascii "missing file operand")
  | some only, [] => misuse name (ascii "missing destination file operand after " ++ quote only)
  | some target, sources =>
    each sources fun source => do
      match ← resolve source, ← stat source with
      | .ok place, .ok ⟨.file text executable, _⟩ =>
        let goal ← destination source target
        match ← openWrite goal false, ← resolve goal with
        | .ok _, .ok there =>
          putFile there (.file text executable)
          if move && there != place then dropFile place
          pure 0
        | .error e, _ =>
          complain name (if move then ascii "cannot move " ++ quote source ++ ascii " to " ++ quote goal
              ++ ascii ": " ++ e.message
            else ascii "cannot create regular file " ++ quote goal ++ ascii ": " ++ e.message)
        | _, _ => pure 1
      | _, .ok ⟨.directory, _⟩ =>
        complain name (ascii "-r not specified; omitting directory " ++ quote source)
      | _, .error e => complain name (ascii "cannot stat " ++ quote source ++ ascii ": " ++ e.message)
      | _, _ => pure 0

/-- Lists directories. -/
def ls (name : Bytes) (arguments : List Bytes) : Run Nat := do
  let (letters, paths) := options arguments
  let m ← get
  let before (a b : Bytes) : Bool := compare a b != .gt
  let listing (place : Place) : Bytes :=
    let names := (m.tree.names place).filter fun n => letters.contains 97 || n.head? != some 46
    ((names.mergeSort before).map (· ++ [10])).flatten
  let paths := if paths.isEmpty then [Path.dot] else paths.mergeSort before
  let many := 2 ≤ paths.length
  let (files, directories, code) ← paths.foldlM (fun (files, directories, code) path => do
    match m.tree.resolve m.process.directory path, ← stat path with
    | .ok place, .ok ⟨.directory, _⟩ => pure (files, directories ++ [(path, place)], code)
    | _, .ok _ => pure (files ++ [path], directories, code)
    | _, .error e =>
      let _ ← complain name (ascii "cannot access " ++ quote path ++ ascii ": " ++ e.message)
      pure (files, directories, 2)) (([] : List Bytes), ([] : List (Bytes × Place)), 0)
  let shown := directories.map fun (path, place) =>
    (if many then path ++ ascii ":\n" else []) ++ listing place
  put name ((files.map (· ++ [10])).flatten
    ++ (if files.isEmpty || shown.isEmpty then [] else [10]) ++ Bytes.join [10] shown) code

/-! ### The programs by name -/

/-- Runs a program of the system other than a shell; `none` if there is none of the name. -/
def run? (program : Bytes) (words : List Bytes) : Option (Run Nat) :=
  let name := words.headD program
  let arguments := words.drop 1
  let table : List (String × Run Nat) :=
    [("true", pure 0), ("false", pure 1), ("cat", cat name arguments), ("head", head name arguments),
      ("tail", tail name arguments), ("wc", wc name arguments), ("tr", tr name arguments),
      ("sed", sed name arguments), ("grep", grep name arguments), ("echo", echo name arguments),
      ("printf", printf name arguments), ("seq", seq name arguments),
      ("basename", basename name arguments), ("dirname", dirname name arguments), ("pwd", pwd name),
      ("test", test name arguments),
      ("[", if arguments.getLast? = some (ascii "]") then test name arguments.dropLast
        else return 1 + (← complain name (ascii "missing " ++ quote (ascii "]")))),
      ("sleep", sleep name arguments), ("rm", rm name arguments), ("mkdir", mkdir name arguments),
      ("rmdir", rmdir name arguments), ("touch", touch name arguments), ("chmod", chmod name arguments),
      ("cp", copy name false arguments), ("mv", copy name true arguments), ("ls", ls name arguments)]
  (table.find? fun entry => ascii entry.1 = program).map (·.2)

end AnalyzerBridge.Host.Utility

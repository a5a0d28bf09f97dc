/-
From a name to a program.

A name with a slash is a path; any other is looked for in the directories of the search path,
one after the other.  A file may be a program of the system, may name the program that is to
read it in its first line, or may be a text that a shell can read.
-/
import AnalyzerBridge.Host.FileTree

namespace AnalyzerBridge.Host

/-- A program of the system and the words it is called with. -/
structure Call where
  /-- The program. -/
  program : Bytes
  /-- The words, the first being the name it is called by. -/
  words : List Bytes
  deriving DecidableEq, Repr

namespace FileTree

/-- The longest first line of a file that names a program. -/
def bannerLimit : Nat := 256

/-- The program that a text names in its first line, and a word for it. -/
def banner? (text : Bytes) : Option (Bytes × Option Bytes) :=
  match text with
  | 35 :: 33 :: rest =>
    let isGap (b : UInt8) : Bool := b == 32 || b == 9
    let line := ((rest.take bannerLimit).takeWhile (· != 10)).dropWhile isGap
    let line := (line.reverse.dropWhile isGap).reverse
    let program := line.takeWhile (!isGap ·)
    let word := (line.drop program.length).dropWhile isGap
    if program.isEmpty then none else some (program, if word.isEmpty then none else some word)
  | _ => none

/-- How often a file may name a file that names a file. -/
def bannerDepth : Nat := 5

/-- The call that running the file at a path comes down to. -/
def call (t : FileTree) (current : Place) : Nat → Bytes → List Bytes → Except Errno Call
  | 0, _, _ => .error .execFormat
  | depth + 1, path, words => do
    match ← t.stat current path with
    | ⟨.program name, _⟩ => .ok ⟨name, words⟩
    | ⟨.file text true, _⟩ =>
      match banner? text with
      | some (program, word) =>
        t.call current depth program (program :: word.toList ++ path :: words.drop 1)
      | none => .error .execFormat
    | _ => .error .permissionDenied

/-- The call that running the file at a path comes down to, where a shell reads what is no
program. -/
def callOrRead (t : FileTree) (current : Place) (path : Bytes) (words : List Bytes) :
    Except Errno Call :=
  match t.call current bannerDepth path words with
  | .error .execFormat => .ok ⟨ascii "sh", ascii "/bin/sh" :: path :: words.drop 1⟩
  | result => result

/-- The directories that are searched if nothing says which. -/
def defaultSearchPath : Bytes := ascii "/bin:/usr/bin"

/-- Tries the directories of a search path in turn.  A file that may not be run is remembered,
one that is not there is passed over. -/
def search (t : FileTree) (current : Place) (name : Bytes) (words : List Bytes) (refused : Bool) :
    List Bytes → Except Errno Call
  | [] => .error (if refused then .permissionDenied else .noEntry)
  | directory :: more =>
    match t.callOrRead current (if directory.isEmpty then name else directory ++ 47 :: name) words with
    | .error .permissionDenied => t.search current name words true more
    | .error .noEntry => t.search current name words refused more
    | .error .notDirectory => t.search current name words refused more
    | result => result

/-- The longest word that a program can be given, the zero byte behind it counted. -/
def wordLimit : Nat := 131072

/-- The call that running a name with words comes down to. -/
def launch (t : FileTree) (current : Place) (searchPath : Option Bytes) (name : Bytes)
    (words : List Bytes) : Except Errno Call :=
  if name.isEmpty then .error .noEntry
  else if words.any (wordLimit ≤ ·.length) then .error .argumentTooLong
  else if name.contains 47 then t.callOrRead current name words
  else if nameLimit < name.length then .error .nameTooLong
  else t.search current name words false (Bytes.splitOn 58 (searchPath.getD defaultSearchPath))

end FileTree

end AnalyzerBridge.Host

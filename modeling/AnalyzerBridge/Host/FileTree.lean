/-
A tree of files.

The tree is a list of places and what is stored there; a place is the list of names
that lead to it from the root, and the root is always a directory.  Paths are walked
name by name as the system does it: every name but the last has to be a directory that
exists, `..` goes up from where the walk stands, and a closing slash asks for a
directory.  There are no links.
-/
import AnalyzerBridge.Host.Errno
import AnalyzerBridge.Path

namespace AnalyzerBridge.Host

/-- A place in the tree: the names from the root. -/
abbrev Place := List Bytes

/-- What can be stored at a place. -/
inductive Node where
  /-- A directory. -/
  | directory
  /-- A file with its content, which can be run or not. -/
  | file (text : Bytes) (executable : Bool)
  /-- A program that belongs to the system, under the name it goes by. -/
  | program (name : Bytes)
  /-- A device that takes everything and holds nothing. -/
  | nothing
  /-- A device that holds zero bytes without end. -/
  | zeros
  deriving DecidableEq, Repr

/-- A node and when it was last changed. -/
structure Stored where
  /-- What is stored. -/
  node : Node
  /-- The time of the last change. -/
  modified : Int
  deriving DecidableEq, Repr

/-- A tree of files. -/
structure FileTree where
  /-- The places below the root and what is stored there. -/
  entries : List (Place × Stored) := []
  deriving DecidableEq, Repr

namespace FileTree

/-- What is stored at a place. -/
def get? (t : FileTree) (place : Place) : Option Stored :=
  if place.isEmpty then some ⟨.directory, 0⟩ else t.entries.lookup place

/-- Stores something at a place, instead of what was there. -/
def set (t : FileTree) (place : Place) (stored : Stored) : FileTree :=
  { t with entries := (place, stored) :: t.entries.filter (·.1 != place) }

/-- Removes a place and everything below it. -/
def erase (t : FileTree) (place : Place) : FileTree :=
  { t with entries := t.entries.filter fun entry => !place.isPrefixOf entry.1 }

/-- The names in a directory. -/
def names (t : FileTree) (place : Place) : List Bytes :=
  t.entries.filterMap fun entry =>
    if entry.1.dropLast = place then entry.1.getLast? else none

/-- A directory is stored at the place. -/
def isDirectory (t : FileTree) (place : Place) : Bool :=
  match t.get? place with
  | some ⟨.directory, _⟩ => true
  | _ => false

/-- Makes the place a directory, and every place on the way to it. -/
def makeDirectories (t : FileTree) (place : Place) (time : Int) : FileTree :=
  ((List.range place.length).map fun i => place.take (i + 1)).foldl
    (fun t p => if (t.get? p).isSome then t else t.set p ⟨.directory, time⟩) t

/-! ### Walking a path -/

/-- The longest name. -/
def nameLimit : Nat := 255

/-- The length from which on a path is too long. -/
def pathLimit : Nat := 4096

/-- The walk may go on from here. -/
def enter (t : FileTree) (here : Place) : Except Errno Unit :=
  match t.get? here with
  | none => .error .noEntry
  | some ⟨.directory, _⟩ => .ok ()
  | some _ => .error .notDirectory

/-- Walks the pieces of a path.  The last place need not exist. -/
def walk (t : FileTree) (here : Place) : List Bytes → Except Errno Place
  | [] => .ok here
  | piece :: pieces => do
    t.enter here
    if piece.isEmpty || piece = Path.dot then t.walk here pieces
    else if piece = Path.dotDot then t.walk here.dropLast pieces
    else if nameLimit < piece.length then .error .nameTooLong
    else t.walk (here ++ [piece]) pieces

/-- The place that a path leads to from a directory. -/
def resolve (t : FileTree) (current : Place) (path : Bytes) : Except Errno Place :=
  let path := Bytes.untilZero path
  if path.isEmpty then .error .noEntry
  else if pathLimit ≤ path.length then .error .nameTooLong
  else t.walk (if Path.isAbsolute path then [] else current) (Bytes.splitOn Path.slash path)

/-- What is stored where a path leads. -/
def stat (t : FileTree) (current : Place) (path : Bytes) : Except Errno Stored := do
  let place ← t.resolve current path
  match t.get? place with
  | some stored => .ok stored
  | none => .error .noEntry

/-! ### Changing files -/

/-- The place of a file that may be written and what is in it so far, nothing if there is no
such file yet. -/
def writable (t : FileTree) (current : Place) (path : Bytes) : Except Errno (Place × Option Node) := do
  match t.resolve current path with
  | .error .noEntry =>
    if Path.hasFilename (Bytes.untilZero path) then .error .noEntry else .error .isDirectory
  | .error e => .error e
  | .ok place =>
    match t.get? place with
    | none => .ok (place, none)
    | some ⟨.directory, _⟩ => .error .isDirectory
    | some ⟨node, _⟩ => .ok (place, some node)

/-- Puts a text into a file, behind what it holds or instead of it. -/
def write (t : FileTree) (current : Place) (path text : Bytes) (append : Bool) (time : Int) :
    Except Errno FileTree := do
  match ← t.writable current path with
  | (place, none) => .ok (t.set place ⟨.file text false, time⟩)
  | (place, some (.file old executable)) =>
    .ok (t.set place ⟨.file (if append then old ++ text else text) executable, time⟩)
  | (_, some _) => .ok t

end FileTree

end AnalyzerBridge.Host

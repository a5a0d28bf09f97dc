/-
File paths as texts.

A path is a byte string whose names are separated by slashes.  `normalize` works on
the text alone and never asks the file system: doubled slashes and `.` go away, and
`..` takes the name before it along.  A path whose last step named a directory keeps
a closing slash, except behind `..`; what is left of a relative path that cancels out
is `.`.  Slashes alone, however many, are a root that is left as it is written.
-/
import AnalyzerBridge.Bytes

namespace AnalyzerBridge.Path

/-- The separator of names. -/
def slash : UInt8 := 47

/-- The name of the directory itself. -/
def dot : Bytes := [46]

/-- The name of the directory above. -/
def dotDot : Bytes := [46, 46]

/-- The path starts at the root. -/
def isAbsolute (path : Bytes) : Bool :=
  match path with
  | [] => false
  | b :: _ => b == slash

/-- The path ends in a name, not in a slash. -/
def hasFilename (path : Bytes) : Bool :=
  match path.getLast? with
  | none => false
  | some b => b != slash

/-- The path read from the directory `base`: an absolute path stands for itself. -/
def append (base path : Bytes) : Bytes :=
  if isAbsolute path || base.isEmpty then path
  else if hasFilename base then base ++ slash :: path
  else base ++ path

/-- The path without its last name and the slashes before it.  The root is its own parent. -/
def parent (path : Bytes) : Bytes :=
  let head := (path.reverse.dropWhile (· != slash)).dropWhile (· == slash)
  if path.all (· == slash) then path
  else if head.isEmpty && isAbsolute path then [slash]
  else head.reverse

/-! ### Lexical normal form -/

/-- A path on its way to normal form. -/
structure Steps where
  /-- The names kept so far, the last one first. -/
  names : List Bytes
  /-- The last step named a directory. -/
  directory : Bool
  deriving DecidableEq, Repr

/-- One piece of the text between two slashes. -/
def Steps.step (absolute : Bool) (s : Steps) (piece : Bytes) : Steps :=
  if piece = [] ∨ piece = dot then { s with directory := true }
  else if piece = dotDot then
    match s.names with
    | [] => if absolute then ⟨[], true⟩ else ⟨[dotDot], false⟩
    | name :: names =>
      if name = dotDot then ⟨dotDot :: name :: names, false⟩ else ⟨names, true⟩
  else ⟨piece :: s.names, false⟩

/-- All pieces of the text, from the left. -/
def Steps.ofPath (path : Bytes) : Steps :=
  (Bytes.splitOn slash path).foldl (Steps.step (isAbsolute path)) ⟨[], false⟩

/-- The steps written out. -/
def Steps.render (absolute : Bool) (s : Steps) : Bytes :=
  match s.names with
  | [] => if absolute then [slash] else dot
  | name :: names =>
    (if absolute then [slash] else [])
      ++ Bytes.join [slash] (name :: names).reverse
      ++ (if s.directory && name != dotDot then [slash] else [])

/-- The lexical normal form of a path.  A path of slashes alone, and the empty path, has none
but itself. -/
def normalize (path : Bytes) : Bytes :=
  if path.all (· == slash) then path else (Steps.ofPath path).render (isAbsolute path)

/-- The path as seen from the directory `current`, in a normal form.  The empty path names nothing
and stays empty. -/
def absoluteBy (normal : Bytes → Bytes) (current path : Bytes) : Bytes :=
  if path.isEmpty then [] else normal (append current path)

/-- The normal form of the path as seen from the directory `current`. -/
def absolute (current path : Bytes) : Bytes := absoluteBy normalize current path

end AnalyzerBridge.Path

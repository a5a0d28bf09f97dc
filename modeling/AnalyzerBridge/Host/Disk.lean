/-
The files as a program sees them.

A disk is a tree of files together with the directory that relative paths start from.
The questions the bridge asks of it are all here: whether something is there, of what
sort it is, when it was changed, and what it holds.
-/
import AnalyzerBridge.Host.FileTree

namespace AnalyzerBridge.Host

/-- A tree of files seen from a directory. -/
structure Disk where
  /-- The files. -/
  tree : FileTree
  /-- The directory that relative paths start from. -/
  current : Place
  deriving DecidableEq, Repr

/-- The path of a place. -/
def Place.path (place : Place) : Bytes := Path.slash :: Bytes.join [Path.slash] place

namespace Disk

/-- The path of the current directory. -/
def currentPath (d : Disk) : Bytes := d.current.path

/-- What a path leads to. -/
def stat (d : Disk) (path : Bytes) : Except Errno Stored := d.tree.stat d.current path

/-- The path leads to something. -/
def pathExists (d : Disk) (path : Bytes) : Bool := (d.stat path).toOption.isSome

/-- The path leads to a directory. -/
def isDirectory (d : Disk) (path : Bytes) : Bool :=
  match d.stat path with
  | .ok ⟨.directory, _⟩ => true
  | _ => false

/-- The path leads to a file. -/
def isRegularFile (d : Disk) (path : Bytes) : Bool :=
  match d.stat path with
  | .ok ⟨.file _ _, _⟩ => true
  | .ok ⟨.program _, _⟩ => true
  | _ => false

/-- When what the path leads to was last changed. -/
def modified (d : Disk) (path : Bytes) : Except Errno Int := (d.stat path).map (·.modified)

/-- What can be read from a node that is no directory. -/
def content : Node → Bytes
  | .file text _ => text
  | _ => []

/-- The content of the file that the path leads to, or why it cannot be had. -/
def read (d : Disk) (path : Bytes) : Except Bytes Bytes :=
  match d.stat path with
  | .error e => .error (ascii "Unable to open " ++ path ++ ascii ": " ++ e.message)
  | .ok ⟨.directory, _⟩ => .error (ascii "Not a regular file: " ++ path)
  | .ok ⟨node, _⟩ => .ok (content node)

/-- The normal form of the path as seen from the current directory. -/
def absolute (d : Disk) (path : Bytes) : Bytes := Path.absolute d.currentPath path

/-- A file at the path can be opened to write at its end. -/
def canAppend (d : Disk) (path : Bytes) : Bool := (d.tree.writable d.current path).toOption.isSome

/-- The disk after a text was put behind what the file at the path holds. -/
def append (d : Disk) (path text : Bytes) (time : Int) : Disk :=
  match d.tree.write d.current path text true time with
  | .ok tree => { d with tree }
  | .error _ => d

end Disk

end AnalyzerBridge.Host

/-
Package manifests.

A manifest names a package, its dependencies, its features, and the members of a
workspace.  Dependencies of three kinds may be limited to a target, and each can be
written in four ways: a version, an inline table, dotted keys, or a table of its own.
However it is mentioned, there is one record for a name, a kind and a target, and
the records stand in the order of first mention.
-/
import AnalyzerBridge.Failure
import AnalyzerBridge.Host.Disk
import AnalyzerBridge.Toml.Document

namespace AnalyzerBridge

/-- What a dependency is needed for. -/
inductive DependencyKind where
  | normal
  | dev
  | build
  deriving DecidableEq, Repr

/-- The word for a kind of dependencies. -/
def DependencyKind.label : DependencyKind → Bytes
  | normal => ascii "normal"
  | dev => ascii "dev"
  | build => ascii "build"

/-- The kind of dependencies that a table of this name holds. -/
def DependencyKind.ofTable? (name : Bytes) : Option DependencyKind :=
  if name = ascii "dependencies" then some normal
  else if name = ascii "dev-dependencies" ∨ name = ascii "dev_dependencies" then some dev
  else if name = ascii "build-dependencies" ∨ name = ascii "build_dependencies" then some build
  else none

/-- One dependency. -/
structure Dependency where
  /-- The name it is mentioned under. -/
  name : Bytes
  /-- What it is needed for. -/
  kind : DependencyKind := .normal
  /-- The target it is limited to, empty for none. -/
  target : Bytes := []
  /-- The version asked for. -/
  version : Bytes := []
  /-- Where it lies on disk. -/
  path : Bytes := []
  /-- The repository it comes from. -/
  git : Bytes := []
  /-- The features asked for. -/
  features : List Bytes := []
  /-- It is only used if a feature asks for it. -/
  optional : Bool := false
  /-- It is as the workspace says. -/
  workspace : Bool := false
  deriving DecidableEq, Repr

/-- What a manifest says. -/
structure Manifest where
  /-- The name of the package. -/
  packageName : Bytes := []
  /-- The version of the package. -/
  version : Bytes := []
  /-- The edition of the language. -/
  edition : Bytes := []
  /-- What the package is. -/
  description : Bytes := []
  /-- The dependencies, in the order of first mention. -/
  dependencies : List Dependency := []
  /-- The features with what they turn on, in the order of their names. -/
  features : List (Bytes × List Bytes) := []
  /-- The manifest is that of a workspace. -/
  isWorkspace : Bool := false
  /-- The members of the workspace. -/
  workspaceMembers : List Bytes := []
  deriving DecidableEq, Repr

/-! ### Sections -/

/-- The words of a section name: the texts between dots that stand in no quotes, first and
others.  Quotes of either kind hide what is between them and are left out. -/
def sectionWords (quote : Option UInt8) : Bytes → Bytes × List Bytes
  | [] => ([], [])
  | b :: rest =>
    match quote with
    | some q =>
      if b = q then sectionWords none rest
      else
        let (word, words) := sectionWords (some q) rest
        (b :: word, words)
    | none =>
      if b = 34 ∨ b = 39 then sectionWords (some b) rest
      else
        let (word, words) := sectionWords none rest
        if b = 46 then ([], word :: words) else (b :: word, words)

/-- A table of dependencies. -/
structure DependencyTable where
  /-- What its dependencies are needed for. -/
  kind : DependencyKind
  /-- The target they are limited to. -/
  target : Bytes
  /-- The one dependency that the table is about, if it is about one. -/
  name : Bytes
  deriving DecidableEq, Repr

/-- The table that a section of dependencies is, given its words behind the target. -/
def DependencyTable.ofWords? (target table : Bytes) (more : List Bytes) : Option DependencyTable :=
  match DependencyKind.ofTable? table, more with
  | some kind, [] => some ⟨kind, target, []⟩
  | some kind, [name] => some ⟨kind, target, name⟩
  | _, _ => none

/-- The table of dependencies that a section is, if it is one. -/
def DependencyTable.ofSection? (name : Bytes) : Option DependencyTable :=
  match sectionWords none name with
  | (first, target :: table :: more) =>
    if first = ascii "target" then ofWords? target table more
    else ofWords? [] first (target :: table :: more)
  | (first, more) => ofWords? [] first more

/-! ### Dependencies -/

/-- One field of a dependency.  Unknown fields say nothing here. -/
def Dependency.setField (d : Dependency) (key value : Bytes) : Dependency :=
  if key = ascii "version" then { d with version := Toml.stringValue value }
  else if key = ascii "path" then { d with path := Toml.stringValue value }
  else if key = ascii "git" then { d with git := Toml.stringValue value }
  else if key = ascii "features" then { d with features := Toml.stringArray value }
  else if key = ascii "optional" then { d with optional := (Toml.boolValue? value).getD false }
  else if key = ascii "workspace" then { d with workspace := (Toml.boolValue? value).getD false }
  else d

/-- The record is that of the name in the table. -/
def Dependency.isFor (d : Dependency) (name : Bytes) (table : DependencyTable) : Bool :=
  d.name = name && d.kind = table.kind && d.target = table.target

/-- Changes the record of a name in a table, which is made if it is not there yet. -/
def Dependency.change (name : Bytes) (table : DependencyTable) (f : Dependency → Dependency) :
    List Dependency → List Dependency
  | [] => [f { name, kind := table.kind, target := table.target }]
  | d :: ds => if d.isFor name table then f d :: ds else d :: change name table f ds

/-- What an assignment in a table of several dependencies says of one: a dotted key sets one
field, an inline table its fields, any other value the version. -/
def Dependency.assign (field : Option Bytes) (value : Bytes) (d : Dependency) : Dependency :=
  match field with
  | some key => d.setField key value
  | none =>
    if value.head? = some 123 then
      (Toml.inlineTable value).foldl (fun d (key, value) => d.setField key value) d
    else { d with version := Toml.stringValue value }

/-! ### Whole manifests -/

namespace Manifest

/-- Sets a feature, which keeps the list in the order of the names. -/
def setFeature (name : Bytes) (items : List Bytes) :
    List (Bytes × List Bytes) → List (Bytes × List Bytes)
  | [] => [(name, items)]
  | (other, old) :: more =>
    if name = other then (name, items) :: more
    else if name < other then (name, items) :: (other, old) :: more
    else (other, old) :: setFeature name items more

/-- An assignment in the section on the package. -/
def setPackage (m : Manifest) (key value : Bytes) : Manifest :=
  if key = ascii "name" then { m with packageName := Toml.stringValue value }
  else if key = ascii "version" then { m with version := Toml.stringValue value }
  else if key = ascii "edition" then { m with edition := Toml.stringValue value }
  else if key = ascii "description" then { m with description := Toml.stringValue value }
  else m

/-- An assignment in the section on the workspace. -/
def setWorkspace (m : Manifest) (key value : Bytes) : Manifest :=
  { m with
    isWorkspace := true
    workspaceMembers :=
      if key = ascii "members" then Toml.stringArray value else m.workspaceMembers }

/-- An assignment in a table of dependencies. -/
def setDependency (m : Manifest) (table : DependencyTable) (key value : Bytes) : Manifest :=
  if table.name.isEmpty then
    match Bytes.splitAt 46 key with
    | some (name, field) =>
      { m with dependencies :=
          Dependency.change name table (·.assign (some field) value) m.dependencies }
    | none =>
      { m with dependencies := Dependency.change key table (·.assign none value) m.dependencies }
  else
    { m with dependencies :=
        Dependency.change table.name table (·.setField key value) m.dependencies }

/-- The manifest with one more entry taken in. -/
def addEntry (m : Manifest) (entry : Toml.Entry) : Manifest :=
  if entry.header = ascii "package" then m.setPackage entry.key entry.value
  else if entry.header = ascii "workspace" then m.setWorkspace entry.key entry.value
  else if entry.header = ascii "features" then
    { m with features := setFeature entry.key (Toml.stringArray entry.value) m.features }
  else match DependencyTable.ofSection? entry.header with
    | some table => m.setDependency table entry.key entry.value
    | none => m

/-- The manifest that a text is. -/
def ofText (text : Bytes) : Manifest := (Toml.entries text).foldl addEntry {}

/-- The manifest of a file, or of the manifest in a directory. -/
def ofFile (disk : Host.Disk) (path : Bytes) : Except Failure Manifest :=
  let file := if disk.isDirectory path then Path.append path (ascii "Cargo.toml") else path
  match disk.read file with
  | .ok text => .ok (ofText text)
  | .error reason => .error { kind := .fileAccess, message := reason }

end Manifest

end AnalyzerBridge

/-
The ways to write a manifest.

A manifest is written by saying what is true of it, one thing in each assignment: a field of the
package, the members of the workspace, a feature, or something of a dependency.  A dependency can
be spoken of in four forms, in a table that has one of several names.  A `Spelling` of a manifest
is a document whose assignments say true things of it, which leaves nothing out and comes to the
dependencies in their order.
-/
import AnalyzerBridge.Manifest
import AnalyzerBridge.Proofs.Toml.Grammar

namespace AnalyzerBridge

open Toml (Key Value Datum)

/-! ### Fields -/

/-- What can be said of a dependency. -/
inductive DependencyField where
  | version
  | path
  | git
  | features
  | optional
  | workspace
  deriving DecidableEq, Repr

namespace DependencyField

/-- The word for a field. -/
def word : DependencyField → Bytes
  | version => ascii "version"
  | path => ascii "path"
  | git => ascii "git"
  | features => ascii "features"
  | optional => ascii "optional"
  | workspace => ascii "workspace"

theorem isKey_word (f : DependencyField) : Toml.IsKey f.word := by
  cases f <;> decide +kernel

def key (f : DependencyField) : Key := ⟨f.word, f.isKey_word⟩

end DependencyField

/-- What can be said of a package. -/
inductive PackageField where
  | name
  | version
  | edition
  | description
  deriving DecidableEq, Repr

def PackageField.word : PackageField → Bytes
  | name => ascii "name"
  | version => ascii "version"
  | edition => ascii "edition"
  | description => ascii "description"

/-! ### Tables of dependencies -/

/-- The names of a table of dependencies. -/
def DependencyKind.words : DependencyKind → List Bytes
  | normal => [ascii "dependencies"]
  | dev => [ascii "dev-dependencies", ascii "dev_dependencies"]
  | build => [ascii "build-dependencies", ascii "build_dependencies"]

/-- A letter, a digit, an underscore or a dash. -/
def isDependencyByte (b : UInt8) : Bool := Bytes.isAlphanumeric b || b == 95 || b == 45

/-- A byte of a target: one of a key, a space, a comma or a parenthesis. -/
def isTargetByte (b : UInt8) : Bool := Toml.isKeyByte b || b == 32 || b == 44 || b == 40 || b == 41

/-- What stands in front of the name of a table that is limited to a target, or is not. -/
inductive TargetWritten : Bytes → Bytes → Prop
  | none : TargetWritten [] []
  | quoted (target : Bytes) : TargetWritten target (ascii "target.'" ++ target ++ ascii "'.")

namespace Dependency

/-- What the record says in a field. -/
def field (d : Dependency) : DependencyField → Datum
  | .version => .text d.version
  | .path => .text d.path
  | .git => .text d.git
  | .features => .texts d.features
  | .optional => .truth d.optional
  | .workspace => .truth d.workspace

/-- The records are for the same: they would not be told apart. -/
def Same (d e : Dependency) : Prop := d.name = e.name ∧ d.kind = e.kind ∧ d.target = e.target

/-- The record as it is made. -/
def blank (d : Dependency) : Dependency := { name := d.name, kind := d.kind, target := d.target }

/-- The names of the tables that the dependency can stand in. -/
inductive TableNamed (d : Dependency) : Bytes → Prop
  | mk {target word : Bytes} (written : TargetWritten d.target target)
      (ofKind : word ∈ d.kind.words) : TableNamed d (target ++ word)

/-- The forms in which a dependency can be spoken of. -/
inductive Form where
  /-- The name and the version. -/
  | version
  /-- The name and a table of some of its fields. -/
  | inline (fields : List DependencyField)
  /-- The name with a field behind a dot. -/
  | dotted (field : DependencyField)
  /-- A field, in a table of its own. -/
  | own (field : DependencyField)
  deriving DecidableEq, Repr

/-- The fields that are spoken of. -/
def Form.fields : Form → List DependencyField
  | version => [.version]
  | inline fields => fields
  | dotted field => [field]
  | own field => [field]

end Dependency

/-! ### Whole manifests -/

namespace Manifest

/-- What the manifest says of the package. -/
def packageField (m : Manifest) : PackageField → Bytes
  | .name => m.packageName
  | .version => m.version
  | .edition => m.edition
  | .description => m.description

/-- A thing to say of a manifest. -/
inductive Saying where
  | package (field : PackageField)
  | members
  | feature (name : Bytes) (items : List Bytes)
  | dependency (d : Dependency) (form : Dependency.Form)
  deriving DecidableEq, Repr

/-- The dependency that is spoken of. -/
def Saying.dependency? : Saying → Option Dependency
  | dependency d _ => some d
  | _ => none

/-- The assignments that say a thing, if it is true of the manifest. -/
inductive Says (m : Manifest) : Saying → Bytes → Key → Value → Prop
  | package (f : PackageField) {key : Key} (word : key.val = f.word) :
      Says m (.package f) (ascii "package") key (.datum (.text (m.packageField f)))
  | members {key : Key} (word : key.val = ascii "members") (holds : m.isWorkspace = true) :
      Says m .members (ascii "workspace") key (.datum (.texts m.workspaceMembers))
  | feature {name : Key} {items : List Bytes} (holds : (name.val, items) ∈ m.features) :
      Says m (.feature name.val items) (ascii "features") name (.datum (.texts items))
  | version {d : Dependency} {table : Bytes} {key : Key} (holds : d ∈ m.dependencies)
      (named : d.TableNamed table) (word : key.val = d.name) :
      Says m (.dependency d .version) table key (.datum (.text d.version))
  | inline {d : Dependency} {table : Bytes} {key : Key} (holds : d ∈ m.dependencies)
      (named : d.TableNamed table) (word : key.val = d.name) (fields : List DependencyField) :
      Says m (.dependency d (.inline fields)) table key
        (.table (fields.map fun f => (f.key, d.field f)))
  | dotted {d : Dependency} {table : Bytes} {key : Key} (holds : d ∈ m.dependencies)
      (named : d.TableNamed table) (f : DependencyField) (word : key.val = d.name ++ 46 :: f.word) :
      Says m (.dependency d (.dotted f)) table key (.datum (d.field f))
  | own {d : Dependency} {table : Bytes} (holds : d ∈ m.dependencies) (named : d.TableNamed table)
      (f : DependencyField) :
      Says m (.dependency d (.own f)) (table ++ 46 :: d.name) f.key (.datum (d.field f))

/-- A manifest that can be written. -/
structure Regular (m : Manifest) : Prop where
  /-- Dependencies have names. -/
  names : ∀ d ∈ m.dependencies, d.name ≠ [] ∧ ∀ b ∈ d.name, isDependencyByte b = true
  /-- Their targets can stand between single quotes. -/
  targets : ∀ d ∈ m.dependencies, ∀ b ∈ d.target, isTargetByte b = true
  /-- No two of them have the same name, kind and target. -/
  distinct : m.dependencies.Pairwise fun d e => ¬ d.Same e
  /-- The names of features are keys. -/
  featureNames : ∀ f ∈ m.features, Toml.IsKey f.1
  /-- The features stand in the order of their names, which are distinct. -/
  sorted : m.features.Pairwise fun f g => f.1 < g.1
  /-- Only a workspace has members. -/
  members : m.isWorkspace = false → m.workspaceMembers = []

/-- A way to write a manifest. -/
structure Spelling (m : Manifest) where
  /-- The manifest can be written. -/
  regular : m.Regular
  /-- What is written. -/
  document : Toml.Document
  /-- What its assignments say. -/
  sayings : List Saying
  /-- They say it. -/
  stated : List.Forall₂ (fun s (header, key, value) => m.Says s header key value) sayings
    document.assignments
  /-- Of the package, only what is empty may be left out. -/
  package : ∀ f, m.packageField f ≠ [] → .package f ∈ sayings
  /-- No feature is left out. -/
  features : ∀ f ∈ m.features, .feature f.1 f.2 ∈ sayings
  /-- A workspace says what its members are. -/
  workspace : m.isWorkspace = true → .members ∈ sayings
  /-- The dependencies are first spoken of in their order. -/
  order : (sayings.filterMap Saying.dependency?).eraseDups = m.dependencies
  /-- Of a dependency, only what is as in a new record may be left out. -/
  fields : ∀ d ∈ m.dependencies, ∀ f, d.field f ≠ d.blank.field f →
    ∃ form, .dependency d form ∈ sayings ∧ f ∈ form.fields

end Manifest

end AnalyzerBridge

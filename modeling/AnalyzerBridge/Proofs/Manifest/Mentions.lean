/-
Records and what they are found by.

Whatever an entry in a table of dependencies looks like, it mentions one dependency: the record
with its name, kind and target is changed, or made if there is none.  No change touches what a
record is found by.  So the records are those of the dependencies that are mentioned, each once and
in the order of first mention.
-/
import AnalyzerBridge.Proofs.Manifest.RoundTrip

namespace AnalyzerBridge

/-! ### One dependency -/

/-- What the record of a dependency is found by. -/
structure Dependency.Identity where
  /-- The name it is mentioned under. -/
  name : Bytes
  /-- What it is needed for. -/
  kind : DependencyKind
  /-- The target it is limited to, empty for none. -/
  target : Bytes
  deriving DecidableEq, Repr

namespace Dependency

def identity (d : Dependency) : Identity := ⟨d.name, d.kind, d.target⟩

theorem same_iff {d e : Dependency} : d.Same e ↔ d.identity = e.identity := by
  simp [Same, identity]

theorem isFor_iff {d : Dependency} {name : Bytes} {table : DependencyTable} :
    d.isFor name table = true ↔ d.identity = ⟨name, table.kind, table.target⟩ := by
  simp [isFor, identity, and_assoc]

theorem identity_setField (d : Dependency) (key value : Bytes) :
    (d.setField key value).identity = d.identity := by
  unfold setField
  split_ifs <;> rfl

theorem identity_assign (field : Option Bytes) (value : Bytes) (d : Dependency) :
    (d.assign field value).identity = d.identity := by
  cases field with
  | some key => exact identity_setField d key value
  | none =>
      rw [assign]
      split
      case isTrue =>
        induction Toml.inlineTable value generalizing d with
        | nil => rfl
        | cons item items ih => exact (ih _).trans (identity_setField d item.1 item.2)
      case isFalse => rfl

end Dependency

namespace DependencyTable

/-- The dependency that an assignment to a key in the table is about.  If the table is about none,
it is the one that the key names, be it with a field behind a dot. -/
def identity (table : DependencyTable) (key : Bytes) : Dependency.Identity where
  name := if table.name.isEmpty then key.takeWhile (· ≠ 46) else table.name
  kind := table.kind
  target := table.target

/-- What the assignment does to its record. -/
def tells (table : DependencyTable) (key value : Bytes) (d : Dependency) : Dependency :=
  if table.name.isEmpty then d.assign ((Bytes.splitAt 46 key).map Prod.snd) value
  else d.setField key value

theorem identity_tells (table : DependencyTable) (key value : Bytes) (d : Dependency) :
    (table.tells key value d).identity = d.identity := by
  unfold tells
  split
  case isTrue => exact Dependency.identity_assign _ value d
  case isFalse => exact Dependency.identity_setField d key value

end DependencyTable

/-- The dependency that an entry mentions, if it stands in a table of dependencies. -/
def Toml.Entry.mention? (e : Toml.Entry) : Option Dependency.Identity :=
  (DependencyTable.ofSection? e.header).map (·.identity e.key)

/-! ### One entry -/

/-- The records after a change: a new one stands behind the others. -/
theorem Dependency.map_identity_change {f : Dependency → Dependency}
    (hf : ∀ d, (f d).identity = d.identity) {name : Bytes} {table : DependencyTable} {i : Identity}
    (hi : i = ⟨name, table.kind, table.target⟩) (ds : List Dependency) :
    (change name table f ds).map identity
      = if i ∈ ds.map identity then ds.map identity else ds.map identity ++ [i] := by
  induction ds with
  | nil =>
      rw [change, List.map_singleton, hf, hi]
      rfl
  | cons d ds ih =>
      rw [change]
      by_cases hd : d.isFor name table = true
      · have hfound : i = d.identity := hi.trans (isFor_iff.mp hd).symm
        simp [hd, hf, hfound]
      · have hother : i ≠ d.identity := fun h => hd (isFor_iff.mpr (h.symm.trans hi))
        rw [if_neg hd, List.map_cons, ih]
        simp only [List.map_cons, List.mem_cons, hother, false_or]
        split <;> rfl

namespace Manifest

theorem setDependency_eq (m : Manifest) (table : DependencyTable) (key value : Bytes) :
    m.setDependency table key value = { m with
      dependencies := Dependency.change (table.identity key).name table (table.tells key value)
        m.dependencies } := by
  by_cases hname : table.name = []
  · by_cases hdot : 46 ∈ key
    · obtain ⟨name, field, rfl, hfree⟩ := Bytes.eq_append_of_mem hdot
      have hbytes : ∀ b ∈ name, b ≠ 46 := by
        rintro b hb rfl
        exact hfree hb
      have hfirst : (name ++ 46 :: field).takeWhile (· ≠ 46) = name := by
        rw [List.takeWhile_append_of_pos (by simpa using hbytes)]
        simp
      have htells : table.tells (name ++ 46 :: field) value = (·.assign (some field) value) := by
        funext d
        simp [DependencyTable.tells, hname, Bytes.splitAt_append hfree]
      rw [setDependency_of_dotted hname hfree, htells, DependencyTable.identity, hname, hfirst]
      rfl
    · have hbytes : ∀ b ∈ key, b ≠ 46 := by
        rintro b hb rfl
        exact hdot hb
      have hfirst : key.takeWhile (· ≠ 46) = key := by
        rw [List.takeWhile_eq_self_iff]
        simpa using hbytes
      have htells : table.tells key value = (·.assign none value) := by
        funext d
        simp [DependencyTable.tells, hname, Bytes.splitAt_eq_none hdot]
      rw [setDependency_of_name hname hdot, htells, DependencyTable.identity, hname, hfirst]
      rfl
  · have htells : table.tells key value = (·.setField key value) := by
      funext d
      simp [DependencyTable.tells, hname]
    rw [setDependency_of_own hname, htells]
    simp [DependencyTable.identity, hname]

/-- What it can come to to take in an entry. -/
inductive Takes (e : Toml.Entry) : (Manifest → Manifest) → Prop
  | package (silent : e.mention? = none) : Takes e (·.setPackage e.key e.value)
  | workspace (silent : e.mention? = none) : Takes e (·.setWorkspace e.key e.value)
  | feature (silent : e.mention? = none) :
      Takes e fun m => { m with
        features := setFeature e.key (Toml.stringArray e.value) m.features }
  | dependency (table : DependencyTable) (mentions : e.mention? = some (table.identity e.key)) :
      Takes e fun m => { m with
        dependencies := Dependency.change (table.identity e.key).name table
          (table.tells e.key e.value) m.dependencies }
  | nothing (silent : e.mention? = none) : Takes e id

theorem mention?_of_section {e : Toml.Entry} {name : Bytes} (h : e.header = name)
    (hname : DependencyTable.ofSection? name = none) : e.mention? = none := by
  rw [Toml.Entry.mention?, h, hname]
  rfl

/-- **To take in an entry comes to one of these.** -/
theorem takes_addEntry (e : Toml.Entry) : Takes e fun m => m.addEntry e := by
  unfold addEntry
  split
  case isTrue h => exact .package (mention?_of_section h (by decide))
  case isFalse =>
    split
    case isTrue h => exact .workspace (mention?_of_section h (by decide))
    case isFalse =>
      split
      case isTrue h => exact .feature (mention?_of_section h (by decide))
      case isFalse =>
        cases htable : DependencyTable.ofSection? e.header with
        | none => exact .nothing (mention?_of_section rfl htable)
        | some table =>
            simp only [setDependency_eq]
            exact .dependency table (by rw [Toml.Entry.mention?, htable]; rfl)

@[simp] theorem dependencies_setPackage (m : Manifest) (key value : Bytes) :
    (m.setPackage key value).dependencies = m.dependencies := by
  unfold setPackage
  split_ifs <;> rfl

@[simp] theorem dependencies_setWorkspace (m : Manifest) (key value : Bytes) :
    (m.setWorkspace key value).dependencies = m.dependencies := rfl

/-- What the records are found by, in their order. -/
def identities (m : Manifest) : List Dependency.Identity := m.dependencies.map Dependency.identity

/-- **An entry makes a record for what it mentions if there is none, behind the others.** -/
theorem identities_addEntry {m : Manifest} {done : List Dependency.Identity}
    (h : m.identities = done.eraseDups) (e : Toml.Entry) :
    (m.addEntry e).identities = (done ++ e.mention?.toList).eraseDups := by
  have htakes := takes_addEntry e
  change ((fun m : Manifest => m.addEntry e) m).identities = _
  generalize (fun m : Manifest => m.addEntry e) = take at htakes ⊢
  cases htakes with
  | package silent | workspace silent | feature silent | nothing silent =>
      rw [silent, Option.toList_none, List.append_nil, ← h]
      simp [identities]
  | dependency table mentions =>
      rw [mentions, Option.toList_some, eraseDups_concat, ← h, identities,
        Dependency.map_identity_change (table.identity_tells e.key e.value) rfl]
      simp only [← List.mem_eraseDups (l := done), ← h]
      rfl

/-- **The records are those of the dependencies that are mentioned, in the order of first
mention.** -/
theorem identities_foldl {m : Manifest} {done : List Dependency.Identity}
    (h : m.identities = done.eraseDups) (es : List Toml.Entry) :
    (es.foldl addEntry m).identities
      = (done ++ es.filterMap Toml.Entry.mention?).eraseDups := by
  induction es generalizing m done with
  | nil => simpa using h
  | cons e es ih =>
      rw [List.foldl_cons, ih (identities_addEntry h e), List.append_assoc]
      cases hmention : e.mention? with
      | none => simp [hmention]
      | some i => simp [hmention]

theorem identities_of_entries (es : List Toml.Entry) :
    (es.foldl addEntry {}).identities = (es.filterMap Toml.Entry.mention?).eraseDups := by
  have hempty : ({} : Manifest).identities = ([] : List Dependency.Identity).eraseDups := rfl
  exact identities_foldl hempty es

/-- No two records are for the same. -/
theorem pairwise_not_same {m : Manifest} (h : m.identities.Nodup) :
    m.dependencies.Pairwise fun d e => ¬ d.Same e :=
  (List.pairwise_map.mp h).imp fun hne hsame => hne (Dependency.same_iff.mp hsame)

end Manifest

end AnalyzerBridge

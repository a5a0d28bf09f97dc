/-
What is written of a manifest is read.

After some of the things that there are to say have been said, the reader holds the manifest as
far as they tell it.  This is kept by each assignment, whatever its form: it adds to what is told
and disturbs nothing else.  Once nothing is left out, what is told is the manifest.
-/
import Mathlib.Data.List.Induction
import Mathlib.Data.List.Nodup
import Mathlib.Data.List.Pairwise
import AnalyzerBridge.Proofs.Manifest.Records
import AnalyzerBridge.Proofs.Toml.RoundTrip

namespace AnalyzerBridge

open Toml (IsBlanks Key Datum Value)

namespace Manifest

/-! ### Features -/

/-- A name in front of all others is set in front. -/
theorem setFeature_of_lt {name : Bytes} {items : List Bytes} {l : List (Bytes × List Bytes)}
    (h : ∀ f ∈ l, name < f.1) : setFeature name items l = (name, items) :: l := by
  cases l with
  | nil => rfl
  | cons f rest =>
      have hlt : name < f.1 := h f List.mem_cons_self
      have hne : name ≠ f.1 := fun heq => List.lt_irrefl name (heq ▸ hlt)
      rw [setFeature, if_neg hne, if_pos hlt]

/-- Setting one feature of an ordered list where some are set. -/
theorem setFeature_filter {name : Bytes} {items : List Bytes} {l : List (Bytes × List Bytes)}
    (hsorted : l.Pairwise fun f g => f.1 < g.1) (hmem : (name, items) ∈ l)
    (p : Bytes × List Bytes → Bool) :
    setFeature name items (l.filter p) = l.filter fun f => p f || decide (f = (name, items)) := by
  induction l with
  | nil => exact absurd hmem List.not_mem_nil
  | cons f rest ih =>
      rw [List.pairwise_cons] at hsorted
      by_cases hf : f = (name, items)
      case pos =>
        obtain rfl := hf
        have hrest : rest.filter (fun g => p g || decide (g = (name, items))) = rest.filter p := by
          refine List.filter_congr fun g hg => ?_
          have hne : g ≠ (name, items) := by
            rintro rfl
            exact List.lt_irrefl name (hsorted.1 _ hg)
          simp [hne]
        have hlater : ∀ g ∈ rest.filter p, name < g.1 := fun g hg =>
          hsorted.1 g (List.mem_of_mem_filter hg)
        rw [List.filter_cons, List.filter_cons, hrest]
        split
        · simp [setFeature]
        · simp [setFeature_of_lt hlater]
      case neg =>
        have hmem' : (name, items) ∈ rest := (List.mem_cons.mp hmem).resolve_left (Ne.symm hf)
        have hlt : f.1 < name := hsorted.1 _ hmem'
        have hne : name ≠ f.1 := fun heq => List.lt_irrefl name (heq ▸ hlt)
        have hnot : ¬ name < f.1 := List.lt_asymm hlt
        rw [List.filter_cons, List.filter_cons]
        simp only [hf, decide_false, Bool.or_false]
        split
        · rw [setFeature, if_neg hne, if_neg hnot, ih hsorted.2 hmem']
        · exact ih hsorted.2 hmem'

/-! ### What has been said -/

/-- What is said tells a field of a dependency. -/
def Saying.tells : Saying → Dependency → DependencyField → Bool
  | dependency e form, d, f => decide (d = e) && decide (f ∈ form.fields)
  | _, _, _ => false

/-- A field of a dependency has been told. -/
def told (done : List Saying) (d : Dependency) (f : DependencyField) : Bool :=
  done.any (·.tells d f)

/-- The dependencies that have been spoken of, in the order of first mention. -/
def mentioned (done : List Saying) : List Dependency :=
  (done.filterMap Saying.dependency?).eraseDups

/-- The manifest as far as it has been told. -/
def saidBy (m : Manifest) (done : List Saying) : Manifest where
  packageName := if .package .name ∈ done then m.packageName else []
  version := if .package .version ∈ done then m.version else []
  edition := if .package .edition ∈ done then m.edition else []
  description := if .package .description ∈ done then m.description else []
  dependencies := (mentioned done).map fun d => d.keep (told done d)
  features := m.features.filter fun f => decide (.feature f.1 f.2 ∈ done)
  isWorkspace := decide (.members ∈ done)
  workspaceMembers := if .members ∈ done then m.workspaceMembers else []

theorem eraseDups_concat {α : Type} [DecidableEq α] (l : List α) (a : α) :
    (l ++ [a]).eraseDups = if a ∈ l then l.eraseDups else l.eraseDups ++ [a] := by
  rw [List.eraseDups_append]
  split <;> simp [List.removeAll, List.eraseDups_cons, *]

theorem nodup_eraseDups {α : Type} [DecidableEq α] (l : List α) : l.eraseDups.Nodup := by
  induction l using List.reverseRecOn with
  | nil => simp
  | append_singleton l a ih =>
      rw [eraseDups_concat]
      split
      case isTrue => exact ih
      case isFalse hnew =>
        rw [← List.concat_eq_append]
        exact ih.concat (by simpa using hnew)

theorem saidBy_nil (m : Manifest) : m.saidBy [] = {} := by
  simp [saidBy, mentioned]

variable {m : Manifest} {done : List Saying}

theorem mentioned_concat (done : List Saying) (d : Dependency) (form : Dependency.Form) :
    mentioned (done ++ [Saying.dependency d form])
      = if d ∈ mentioned done then mentioned done else mentioned done ++ [d] := by
  simp only [mentioned, List.filterMap_append, List.mem_eraseDups]
  exact eraseDups_concat _ d

theorem told_concat (done : List Saying) (d e : Dependency) (form : Dependency.Form) :
    told (done ++ [Saying.dependency d form]) e
      = fun g => told done e g || (decide (e = d) && decide (g ∈ form.fields)) := by
  funext g
  simp [told, Saying.tells]

/-- What is said of no dependency tells nothing of one. -/
theorem records_concat {s : Saying} (h : s.dependency? = none) (done : List Saying) :
    (mentioned (done ++ [s])).map (fun d => d.keep (told (done ++ [s]) d))
      = (mentioned done).map fun d => d.keep (told done d) := by
  have htells : ∀ d g, s.tells d g = false := by
    cases s with
    | dependency e form => simp [Saying.dependency?] at h
    | _ => exact fun _ _ => rfl
  have htold : told (done ++ [s]) = told done := by
    funext d g
    simp [told, htells]
  simp [mentioned, h, htold]

/-- Of a dependency that has not been spoken of nothing has been told. -/
theorem told_of_not_mem {d : Dependency} (h : d ∉ mentioned done) :
    told done d = fun _ => false := by
  funext g
  rw [told, List.any_eq_false]
  intro s hs
  cases s with
  | dependency e form =>
      have hne : d ≠ e := by
        rintro rfl
        exact h (List.mem_eraseDups.mpr (List.mem_filterMap.mpr ⟨_, hs, rfl⟩))
      simp [Saying.tells, hne]
  | _ => simp [Saying.tells]

/-! ### One assignment -/

theorem Regular.eq_of_same (hm : m.Regular) {d e : Dependency} (hd : d ∈ m.dependencies)
    (he : e ∈ m.dependencies) (h : d.Same e) : d = e := by
  have hsymm : Std.Symm fun d e : Dependency => ¬ d.Same e :=
    ⟨fun _ _ hnot hsame => hnot ⟨hsame.1.symm, hsame.2.1.symm, hsame.2.2.symm⟩⟩
  by_contra hne
  exact hm.distinct.forall hd he hne h

/-- A change of the record of a dependency tells what is told of it. -/
theorem change_mentioned (hm : m.Regular) (hdone : ∀ d ∈ mentioned done, d ∈ m.dependencies)
    {d : Dependency} (hd : d ∈ m.dependencies) {form : Dependency.Form} {table : DependencyTable}
    (hkind : table.kind = d.kind) (htarget : table.target = d.target) {f : Dependency → Dependency}
    (hf : ∀ known, f (d.keep known) = d.keep fun g => known g || decide (g ∈ form.fields)) :
    Dependency.change d.name table f ((mentioned done).map fun e => e.keep (told done e))
      = (mentioned (done ++ [Saying.dependency d form])).map fun e =>
          e.keep (told (done ++ [Saying.dependency d form]) e) := by
  have hsame : ∀ e ∈ mentioned done, e.Same d → e = d := fun e he =>
    hm.eq_of_same (hdone e he) hd
  simp only [mentioned_concat, told_concat]
  split
  case isTrue hmem =>
    exact Dependency.change_of_mem (nodup_eraseDups _) hsame hmem hkind htarget (told done) (hf _)
  case isFalse hnew =>
    -- The record is made new at the end, and those in front of it stay as they are.
    have hother : ∀ e ∈ mentioned done, e ≠ d := by
      rintro e he rfl
      exact hnew he
    have hkept : (mentioned done).map (fun e => e.keep (told done e))
        = (mentioned done).map fun e =>
            e.keep fun g => told done e g || (decide (e = d) && decide (g ∈ form.fields)) :=
      List.map_congr_left fun e he => by simp [hother e he]
    rw [Dependency.change_of_not_mem (fun e he h => hother e he (hsame e he h)) hkind htarget,
      List.map_append, ← hkept, hf]
    simp [told_of_not_mem hnew]

theorem Regular.quote_not_mem (hm : m.Regular) {d : Dependency} (hd : d ∈ m.dependencies) :
    39 ∉ d.target := fun hmem => absurd (hm.targets d hd 39 hmem) (by decide)

theorem Regular.dot_not_mem (hm : m.Regular) {d : Dependency} (hd : d ∈ m.dependencies) :
    46 ∉ d.name := fun hmem =>
  (facts_of_isDependencyByte ((hm.names d hd).2 46 hmem)).2.2.2 rfl

/-- An entry in a table of dependencies. -/
theorem addEntry_of_table {e : Toml.Entry} {table : DependencyTable}
    (hother : e.header ≠ ascii "package" ∧ e.header ≠ ascii "workspace"
      ∧ e.header ≠ ascii "features")
    (htable : DependencyTable.ofSection? e.header = some table) (m : Manifest) :
    m.addEntry e = m.setDependency table e.key e.value := by
  simp only [addEntry, hother, if_false, htable]

/-- An entry in a table that is named for a dependency. -/
theorem addEntry_of_named (hm : m.Regular) {d : Dependency} (hd : d ∈ m.dependencies)
    {e : Toml.Entry} (named : d.TableNamed e.header) (m' : Manifest) :
    m'.addEntry e = m'.setDependency ⟨d.kind, d.target, []⟩ e.key e.value := by
  have hother := named.ne_section []
  rw [List.append_nil] at hother
  exact addEntry_of_table hother (named.ofSection? (hm.quote_not_mem hd)) m'

/-- An entry in the table of a dependency. -/
theorem addEntry_of_own (hm : m.Regular) {d : Dependency} (hd : d ∈ m.dependencies)
    {e : Toml.Entry} {table : Bytes} (named : d.TableNamed table)
    (hheader : e.header = table ++ 46 :: d.name) (m' : Manifest) :
    m'.addEntry e = m'.setDependency ⟨d.kind, d.target, d.name⟩ e.key e.value := by
  have hother := named.ne_section (46 :: d.name)
  have htable := named.ofSection?_own (hm.quote_not_mem hd) (hm.names d hd).2
  rw [← hheader] at hother htable
  exact addEntry_of_table hother htable m'

theorem setDependency_of_name {table : DependencyTable} (htable : table.name = []) {key : Bytes}
    (hkey : 46 ∉ key) (value : Bytes) (m : Manifest) :
    m.setDependency table key value = { m with
      dependencies := Dependency.change key table (·.assign none value) m.dependencies } := by
  simp [setDependency, htable, Bytes.splitAt_eq_none hkey]

theorem setDependency_of_dotted {table : DependencyTable} (htable : table.name = []) {name : Bytes}
    (hname : 46 ∉ name) (field value : Bytes) (m : Manifest) :
    m.setDependency table (name ++ 46 :: field) value = { m with
      dependencies :=
        Dependency.change name table (·.assign (some field) value) m.dependencies } := by
  simp [setDependency, htable, Bytes.splitAt_append hname]

theorem setDependency_of_own {table : DependencyTable} (htable : table.name ≠ [])
    (key value : Bytes) (m : Manifest) :
    m.setDependency table key value = { m with
      dependencies :=
        Dependency.change table.name table (·.setField key value) m.dependencies } := by
  simp [setDependency, htable]

/-- What an assignment says of a dependency changes its record. -/
theorem Says.exists_change (hm : m.Regular) {d : Dependency} {form : Dependency.Form}
    {header : Bytes} {key : Key} {value : Value}
    (h : m.Says (.dependency d form) header key value) {e : Toml.Entry}
    (he : e.ComesFrom (header, key, value)) :
    d ∈ m.dependencies ∧ ∃ (table : DependencyTable) (f : Dependency → Dependency),
      table.kind = d.kind ∧ table.target = d.target
      ∧ (∀ m' : Manifest, m'.addEntry e =
          { m' with dependencies := Dependency.change d.name table f m'.dependencies })
      ∧ ∀ known, f (d.keep known) = d.keep fun g => known g || decide (g ∈ form.fields) := by
  obtain ⟨entryHeader, entryKey, raw, line⟩ := e
  obtain ⟨hheader, hkey, hraw⟩ := he
  simp only at hheader hkey hraw
  subst hheader hkey
  cases h with
  | version holds named word =>
      refine ⟨holds, ⟨d.kind, d.target, []⟩, (·.assign none raw), rfl, rfl, fun m' => ?_,
        fun known => Dependency.assign_version known hraw⟩
      rw [addEntry_of_named hm holds named, word, setDependency_of_name rfl (hm.dot_not_mem holds)]
  | inline holds named word fields =>
      refine ⟨holds, ⟨d.kind, d.target, []⟩, (·.assign none raw), rfl, rfl, fun m' => ?_,
        fun known => Dependency.assign_table known hraw⟩
      rw [addEntry_of_named hm holds named, word, setDependency_of_name rfl (hm.dot_not_mem holds)]
  | dotted holds named f word =>
      refine ⟨holds, ⟨d.kind, d.target, []⟩, (·.assign (some f.word) raw), rfl, rfl, fun m' => ?_,
        fun known => ?_⟩
      · rw [addEntry_of_named hm holds named, word,
          setDependency_of_dotted rfl (hm.dot_not_mem holds)]
      · have hset := Dependency.setField_keep known hraw.readFrom
        simpa [Dependency.Form.fields, Dependency.assign] using hset
  | own holds named f =>
      refine ⟨holds, ⟨d.kind, d.target, d.name⟩, (·.setField f.word raw), rfl, rfl, fun m' => ?_,
        fun known => ?_⟩
      · rw [addEntry_of_own hm holds named rfl, setDependency_of_own (hm.names d holds).1]
        rfl
      · have hset := Dependency.setField_keep known hraw.readFrom
        simpa [Dependency.Form.fields] using hset

/-- **An assignment adds what it says, and nothing else.** -/
theorem addEntry_saidBy (hm : m.Regular) (hdone : ∀ d ∈ mentioned done, d ∈ m.dependencies)
    {s : Saying} {header : Bytes} {key : Key} {value : Value} (h : m.Says s header key value)
    {e : Toml.Entry} (he : e.ComesFrom (header, key, value)) :
    (m.saidBy done).addEntry e = m.saidBy (done ++ [s]) := by
  have hheader : e.header = header := he.1
  have hkey : e.key = key.val := he.2.1
  have hraw : value.Written IsBlanks e.value := he.2.2
  cases s with
  | package f =>
      cases h with
      | package _ word =>
        have hread : Toml.stringValue e.value = m.packageField f := hraw.readFrom
        have hrecords := records_concat (s := .package f) rfl done
        rw [addEntry, if_pos hheader, hkey, word]
        cases f <;> simp +decide [setPackage, hread, saidBy, packageField, hrecords]
  | members =>
      cases h with
      | members word holds =>
        have hread : Toml.stringArray e.value = m.workspaceMembers := hraw.readFrom
        have hrecords := records_concat (s := .members) rfl done
        rw [addEntry, if_neg (by rw [hheader]; decide), if_pos hheader, hkey, word]
        simp [setWorkspace, hread, saidBy, hrecords]
  | feature name items =>
      cases h with
      | feature holds =>
        have hread : Toml.stringArray e.value = items := hraw.readFrom
        have hrecords := records_concat (s := .feature key.val items) rfl done
        rw [addEntry, if_neg (by rw [hheader]; decide), if_neg (by rw [hheader]; decide),
          if_pos hheader, hkey, hread]
        simp [saidBy, setFeature_filter hm.sorted holds, hrecords, Prod.ext_iff]
  | dependency d form =>
      obtain ⟨hd, table, f, hkind, htarget, hentry, hkeep⟩ := h.exists_change hm he
      have hchange := change_mentioned hm hdone hd hkind htarget hkeep
      rw [hentry]
      simp [saidBy, hchange]

theorem Says.mem {s : Saying} {header : Bytes} {key : Key} {value : Value}
    (h : m.Says s header key value) {d : Dependency} (hd : s.dependency? = some d) :
    d ∈ m.dependencies := by
  cases h <;> simp only [Saying.dependency?, Option.some.injEq, reduceCtorEq] at hd
  all_goals
    obtain rfl := hd
    assumption

/-- What is said one after the other is taken in one after the other. -/
theorem foldl_addEntry (hm : m.Regular) {sayings : List Saying}
    {assignments : List (Bytes × Key × Value)} {entries : List Toml.Entry}
    (hsaid : List.Forall₂ (fun s (header, key, value) => m.Says s header key value) sayings
      assignments)
    (hentries : List.Forall₂ (fun a e => e.ComesFrom a) assignments entries)
    (hdone : ∀ d ∈ mentioned done, d ∈ m.dependencies) :
    entries.foldl addEntry (m.saidBy done) = m.saidBy (done ++ sayings) := by
  induction hsaid generalizing entries done with
  | nil =>
      cases hentries
      simp
  | @cons s a sayings assignments hsay _ ih =>
      cases hentries with
      | cons hentry hrest =>
        -- What is said is true of the manifest, so it speaks of dependencies of the manifest only.
        have hnext : ∀ d ∈ mentioned (done ++ [s]), d ∈ m.dependencies := by
          simp only [mentioned, List.mem_eraseDups, List.filterMap_append, List.mem_append,
            List.mem_filterMap, List.mem_singleton] at hdone ⊢
          rintro d (h | ⟨_, rfl, hd⟩)
          exacts [hdone d h, Says.mem hsay hd]
        rw [List.foldl_cons, addEntry_saidBy hm hdone hsay hentry, ih hrest hnext,
          List.append_assoc]
        rfl

/-! ### Whole manifests -/

theorem Says.isWorkspace {header : Bytes} {key : Key} {value : Value}
    (h : m.Says .members header key value) : m.isWorkspace = true := by
  cases h with
  | members word holds => exact holds

/-- Only of a workspace the members are said. -/
theorem Spelling.isWorkspace_of_mem (spelling : m.Spelling) (h : .members ∈ spelling.sayings) :
    m.isWorkspace = true := by
  have hholds : List.Forall₂ (fun s (header, key, value) =>
      (s = .members → m.isWorkspace = true) ∧ m.Says s header key value) spelling.sayings
      spelling.document.assignments := spelling.stated.imp fun s a hsaid => by
    refine ⟨?_, hsaid⟩
    rintro rfl
    exact Says.isWorkspace hsaid
  exact ((List.forall₂_and_left _ _).mp hholds).1 _ h rfl

/-- Once nothing is left out, what has been said is the manifest. -/
theorem Spelling.saidBy_sayings (spelling : m.Spelling) : m.saidBy spelling.sayings = m := by
  have hdependencies : (mentioned spelling.sayings).map
      (fun d => d.keep (told spelling.sayings d)) = m.dependencies := by
    have htold : ∀ d ∈ m.dependencies, d.keep (told spelling.sayings d) = d := fun d hd =>
      Dependency.keep_eq_self fun f hf => by
        obtain ⟨form, hmem, hfield⟩ := spelling.fields d hd f hf
        exact List.any_eq_true.mpr ⟨_, hmem, by simp [Saying.tells, hfield]⟩
    rw [mentioned, spelling.order]
    exact (List.map_congr_left htold).trans (List.map_id m.dependencies)
  have hfeatures : (m.features.filter fun f => decide (.feature f.1 f.2 ∈ spelling.sayings))
      = m.features :=
    List.filter_eq_self.mpr fun f hf => decide_eq_true (spelling.features f hf)
  have hpackage : ∀ f : PackageField,
      (if .package f ∈ spelling.sayings then m.packageField f else []) = m.packageField f := by
    intro f
    split
    case isTrue => rfl
    case isFalse h => exact (not_not.mp fun hne => h (spelling.package f hne)).symm
  have hname := hpackage .name
  have hversion := hpackage .version
  have hedition := hpackage .edition
  have hdescription := hpackage .description
  simp only [packageField] at hname hversion hedition hdescription
  have hworkspace : decide (.members ∈ spelling.sayings) = m.isWorkspace := by
    by_cases h : .members ∈ spelling.sayings
    · rw [decide_eq_true h, spelling.isWorkspace_of_mem h]
    · rw [decide_eq_false h, Bool.eq_false_iff.mpr fun hw => h (spelling.workspace hw)]
  have hmembers : (if .members ∈ spelling.sayings then m.workspaceMembers else [])
      = m.workspaceMembers := by
    split
    case isTrue => rfl
    case isFalse h =>
      have hno : m.isWorkspace = false := Bool.eq_false_iff.mpr fun hw => h (spelling.workspace hw)
      exact (spelling.regular.members hno).symm
  simp only [saidBy, hdependencies, hfeatures, hname, hversion, hedition, hdescription, hworkspace,
    hmembers]

/-- **What is written of a manifest is read.**  However the dependencies are spoken of, under
whatever name their tables stand, and however the text is laid out, the manifest that is read is the
one that is written. -/
theorem ofText_of_layout (spelling : m.Spelling) (layout : Toml.Layout spelling.document) :
    ofText layout.text = m := by
  have hnone : ∀ d ∈ mentioned [], d ∈ m.dependencies := by simp [mentioned]
  have hread := foldl_addEntry spelling.regular spelling.stated layout.entries_comeFrom hnone
  rwa [saidBy_nil, List.nil_append, spelling.saidBy_sayings] at hread

/-- A dependency that is spoken of in two forms, the second over several lines. -/
example :
    let dotted := ascii "[target.'cfg(unix)'.dependencies] # here\nserde.version = \"1\"\n"
    let own := ascii "[target.'cfg(unix)'.dependencies.serde]\nfeatures=[ # two\n \"a#\", \"b\"\n]"
    (ofText (dotted ++ own)).dependencies
      = [{ name := ascii "serde", target := ascii "cfg(unix)", version := ascii "1",
           features := [ascii "a#", ascii "b"] }] := by
  decide +kernel

end Manifest

end AnalyzerBridge

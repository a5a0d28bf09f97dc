/-
Manifests that are read twice.

Whatever is asked of a manifest, an entry leaves the answer as it is or gives it anew, no matter
what it was.  The same is then true of many entries, and so they change nothing if they come again.
What no single answer tells is the order of the records and of the features: the records stand in
the order of first mention, which is over after the first time, and the features in that of their
names.

A text that comes again is read as it was if it starts with a header, for the last header of a text
stays in force behind it.
-/
import Mathlib.Data.List.Sort
import AnalyzerBridge.Proofs.Manifest.Mentions
import AnalyzerBridge.Proofs.Toml.Settled

namespace AnalyzerBridge

open Toml (Datum)

/-! ### Steps that overwrite -/

/-- What is seen behind the step is what was seen before, or what the step has written. -/
def Overwrites {α β : Type} (view : α → β) (step : α → α) : Prop :=
  ∃ written : Option β, ∀ a, view (step a) = written.getD (view a)

namespace Overwrites

variable {α β : Type} {view : α → β} {step : α → α}

theorem unchanged (h : ∀ a, view (step a) = view a) : Overwrites view step := ⟨none, h⟩

theorem written {b : β} (h : ∀ a, view (step a) = b) : Overwrites view step := ⟨some b, h⟩

theorem written_if {p : Prop} [Decidable p] {b : β}
    (h : ∀ a, view (step a) = if p then b else view a) : Overwrites view step := by
  by_cases hp : p
  · exact .written fun a => by rw [h, if_pos hp]
  · exact .unchanged fun a => by rw [h, if_neg hp]

/-- Many steps overwrite if each of them does. -/
theorem foldl {ι : Type} {step : α → ι → α} (h : ∀ i, Overwrites view fun a => step a i)
    (is : List ι) : Overwrites view fun a => is.foldl step a := by
  induction is with
  | nil => exact .unchanged fun _ => rfl
  | cons i is ih =>
      obtain ⟨first, hfirst⟩ := h i
      obtain ⟨more, hmore⟩ := ih
      refine ⟨more.or first, fun a => ?_⟩
      calc view (is.foldl step (step a i))
          = more.getD (view (step a i)) := hmore _
        _ = more.getD (first.getD (view a)) := congrArg _ (hfirst a)
        _ = (more.or first).getD (view a) := Option.getD_or.symm

/-- A second time nothing new is seen. -/
theorem again (h : Overwrites view step) (a : α) : view (step (step a)) = view (step a) := by
  obtain ⟨written, hwritten⟩ := h
  rw [hwritten (step a), hwritten a]
  cases written with
  | none => rfl
  | some b => rfl

end Overwrites

/-! ### One record -/

/-- What a value says in a field. -/
def DependencyField.read (value : Bytes) : DependencyField → Datum
  | version | path | git => .text (Toml.stringValue value)
  | features => .texts (Toml.stringArray value)
  | optional | workspace => .truth ((Toml.boolValue? value).getD false)

namespace Dependency

theorem field_setField (d : Dependency) (key value : Bytes) (f : DependencyField) :
    (d.setField key value).field f = if key = f.word then f.read value else d.field f := by
  by_cases hkey : key = f.word
  · rw [if_pos hkey, hkey]
    cases f <;> simp +decide [setField, field, DependencyField.read]
  · rw [if_neg hkey]
    cases f <;> simp only [DependencyField.word] at hkey <;>
      simp only [setField, hkey, if_false] <;> split_ifs <;> rfl

theorem overwrites_setField (key value : Bytes) (f : DependencyField) :
    Overwrites (fun d : Dependency => d.field f) fun d => d.setField key value :=
  .written_if fun d => field_setField d key value f

theorem overwrites_assign (field? : Option Bytes) (value : Bytes) (f : DependencyField) :
    Overwrites (fun d : Dependency => d.field f) fun d => d.assign field? value := by
  cases field? with
  | some key => exact overwrites_setField key value f
  | none =>
      by_cases htable : value.head? = some 123
      · have hfields : ∀ d : Dependency, d.assign none value
            = (Toml.inlineTable value).foldl (fun d item => d.setField item.1 item.2) d :=
          fun d => if_pos htable
        simp only [hfields]
        exact .foldl (fun item : Bytes × Bytes => overwrites_setField item.1 item.2 f) _
      · -- Any other value is the version, as if this was assigned.
        have hversion : ∀ d : Dependency,
            d.assign none value = d.setField (ascii "version") value := fun d => by
          rw [assign, if_neg htable, setField, if_pos rfl]
        simp only [hversion]
        exact overwrites_setField _ value f

end Dependency

theorem DependencyTable.overwrites_tells (table : DependencyTable) (key value : Bytes)
    (f : DependencyField) : Overwrites (fun d => d.field f) (table.tells key value) := by
  unfold tells
  split
  case isTrue => exact Dependency.overwrites_assign _ value f
  case isFalse => exact Dependency.overwrites_setField key value f

/-! ### All records -/

namespace Dependency

/-- The record as it is made. -/
def Identity.blank (i : Identity) : Dependency :=
  { name := i.name, kind := i.kind, target := i.target }

/-- The record that is found, or else would be made. -/
def record (ds : List Dependency) (i : Identity) : Dependency :=
  (ds.find? (·.identity = i)).getD i.blank

theorem record_cons (d : Dependency) (ds : List Dependency) (i : Identity) :
    record (d :: ds) i = if d.identity = i then d else record ds i := by
  unfold record
  by_cases hd : d.identity = i
  · simp [hd]
  · simp [hd]

theorem identity_record (ds : List Dependency) (i : Identity) : (record ds i).identity = i := by
  induction ds with
  | nil => rfl
  | cons d ds ih =>
      rw [record_cons]
      split
      case isTrue hd => exact hd
      case isFalse => exact ih

/-- A change is one of the record that is looked for, and of no other. -/
theorem record_change {f : Dependency → Dependency} (hf : ∀ d, (f d).identity = d.identity)
    {name : Bytes} {table : DependencyTable} {i : Identity}
    (hi : i = ⟨name, table.kind, table.target⟩) (ds : List Dependency) (j : Identity) :
    record (change name table f ds) j = if i = j then f (record ds j) else record ds j := by
  induction ds with
  | nil =>
      have hnew : ({ name, kind := table.kind, target := table.target } : Dependency)
          = i.blank := by
        rw [hi]
        rfl
      rw [change, hnew, record_cons, hf]
      by_cases hj : i = j
      · rw [if_pos hj, if_pos (show i.blank.identity = j from hj), ← hj]
        rfl
      · rw [if_neg hj, if_neg (show i.blank.identity ≠ j from hj)]
  | cons d ds ih =>
      rw [change]
      by_cases hd : d.isFor name table = true
      · have hfound : d.identity = i := (isFor_iff.mp hd).trans hi.symm
        rw [if_pos hd, record_cons, record_cons, hf, hfound]
        split <;> rfl
      · have hother : d.identity ≠ i := fun h => hd (isFor_iff.mpr (h.trans hi))
        rw [if_neg hd, record_cons, record_cons, ih]
        split
        case isTrue hj => rw [if_neg fun h => hother (hj.trans h.symm)]
        case isFalse => rfl

/-- The records are known from what they are found by. -/
theorem map_record {ds : List Dependency} (h : (ds.map identity).Nodup) :
    (ds.map identity).map (record ds) = ds := by
  induction ds with
  | nil => rfl
  | cons d ds ih =>
      rw [List.map_cons, List.nodup_cons] at h
      have hrest : (ds.map identity).map (record (d :: ds))
          = (ds.map identity).map (record ds) := by
        refine List.map_congr_left fun i hi => ?_
        have hne : d.identity ≠ i := by
          rintro rfl
          exact h.1 hi
        rw [record_cons, if_neg hne]
      rw [List.map_cons, List.map_cons, record_cons, if_pos rfl, hrest, ih h.2]

end Dependency

/-- An assignment in a table overwrites the field of every record. -/
theorem DependencyTable.overwrites_change (table : DependencyTable) (key value : Bytes)
    (i : Dependency.Identity) (f : DependencyField) :
    Overwrites (fun ds => (Dependency.record ds i).field f)
      (Dependency.change (table.identity key).name table (table.tells key value)) := by
  have hrecord : ∀ ds, Dependency.record
      (Dependency.change (table.identity key).name table (table.tells key value) ds) i
        = if table.identity key = i then table.tells key value (Dependency.record ds i)
          else Dependency.record ds i :=
    fun ds => Dependency.record_change (table.identity_tells key value) rfl ds i
  by_cases hi : table.identity key = i
  · obtain ⟨written, hwritten⟩ := table.overwrites_tells key value f
    refine ⟨written, fun ds => ?_⟩
    simp only [hrecord, if_pos hi]
    exact hwritten (Dependency.record ds i)
  · exact .unchanged fun ds => by simp only [hrecord, if_neg hi]

/-! ### Features -/

namespace Manifest

variable {l l' : List (Bytes × List Bytes)}

theorem lookup_cons (name : Bytes) (items : List Bytes) (l : List (Bytes × List Bytes))
    (other : Bytes) :
    ((name, items) :: l).lookup other = if other = name then some items else l.lookup other := by
  rw [List.lookup_cons]
  by_cases h : other = name
  · rw [if_pos h, beq_iff_eq.mpr h]
  · rw [if_neg h, beq_eq_false_iff_ne.mpr h]

theorem lookup_setFeature (name : Bytes) (items : List Bytes) (l : List (Bytes × List Bytes))
    (other : Bytes) : (setFeature name items l).lookup other
      = if other = name then some items else l.lookup other := by
  induction l with
  | nil => exact lookup_cons name items [] other
  | cons f rest ih =>
      obtain ⟨taken, old⟩ := f
      rw [setFeature]
      by_cases hname : name = taken
      · rw [if_pos hname, lookup_cons, lookup_cons, ← hname]
        split <;> rfl
      · rw [if_neg hname]
        by_cases hlt : name < taken
        · rw [if_pos hlt, lookup_cons]
        · rw [if_neg hlt, lookup_cons, lookup_cons, ih]
          by_cases hother : other = taken
          · rw [if_pos hother, if_pos hother, if_neg (hother ▸ Ne.symm hname)]
          · rw [if_neg hother, if_neg hother]

theorem mem_setFeature {name : Bytes} {items : List Bytes} {g : Bytes × List Bytes}
    (h : g ∈ setFeature name items l) : g = (name, items) ∨ g ∈ l := by
  induction l with
  | nil => exact .inl (List.mem_singleton.mp h)
  | cons f rest ih =>
      rw [setFeature] at h
      split_ifs at h with hname hlt
      · exact (List.mem_cons.mp h).imp_right (List.mem_cons_of_mem f)
      · exact List.mem_cons.mp h
      · rcases List.mem_cons.mp h with rfl | hmem
        · exact .inr List.mem_cons_self
        · exact (ih hmem).imp_right (List.mem_cons_of_mem f)

/-- The features stay in the order of their names. -/
theorem pairwise_setFeature (h : l.Pairwise fun f g => f.1 < g.1) (name : Bytes)
    (items : List Bytes) : (setFeature name items l).Pairwise fun f g => f.1 < g.1 := by
  induction l with
  | nil => exact List.pairwise_singleton _ _
  | cons f rest ih =>
      have hall := h
      rw [List.pairwise_cons] at h
      rw [setFeature]
      split_ifs with hname hlt
      · exact List.pairwise_cons.mpr ⟨hname ▸ h.1, h.2⟩
      · refine List.pairwise_cons.mpr ⟨?_, hall⟩
        rw [List.forall_mem_cons]
        exact ⟨hlt, fun g hg => List.lt_trans hlt (h.1 g hg)⟩
      · have hbehind : f.1 < name := Std.lt_of_le_of_ne (List.not_lt.mp hlt) (Ne.symm hname)
        refine List.pairwise_cons.mpr ⟨fun g hg => ?_, ih h.2⟩
        rcases mem_setFeature hg with rfl | hold
        · exact hbehind
        · exact h.1 g hold

theorem mem_iff_lookup (h : l.Pairwise fun f g => f.1 < g.1) (f : Bytes × List Bytes) :
    f ∈ l ↔ l.lookup f.1 = some f.2 := by
  rw [List.lookup_eq_some_iff]
  constructor
  · intro hmem
    obtain ⟨front, rest, rfl⟩ := List.append_of_mem hmem
    refine ⟨front, rest, rfl, fun g hg => ?_⟩
    have hlt : g.1 < f.1 := (List.pairwise_append.mp h).2.2 g hg f List.mem_cons_self
    simpa using fun heq : f.1 = g.1 => List.lt_irrefl f.1 (heq ▸ hlt)
  · rintro ⟨front, rest, rfl, -⟩
    exact List.mem_append_right front List.mem_cons_self

/-- Features in the order of their names are known from what is looked up. -/
theorem eq_of_lookup (h : l.Pairwise fun f g => f.1 < g.1) (h' : l'.Pairwise fun f g => f.1 < g.1)
    (hlookup : ∀ name, l.lookup name = l'.lookup name) : l = l' := by
  have hirrefl : Std.Irrefl fun f g : Bytes × List Bytes => f.1 < g.1 :=
    ⟨fun f => List.lt_irrefl f.1⟩
  have hantisymm : Std.Antisymm fun f g : Bytes × List Bytes => f.1 < g.1 :=
    ⟨fun f g hfg hgf => absurd hgf (List.lt_asymm hfg)⟩
  refine h.eq_of_mem_iff h' fun f => ?_
  rw [mem_iff_lookup h, mem_iff_lookup h', hlookup]

/-! ### Whole manifests -/

/-- What can be asked of a manifest. -/
inductive Query where
  | package (f : PackageField)
  | isWorkspace
  | members
  | feature (name : Bytes)
  | dependency (i : Dependency.Identity) (f : DependencyField)

/-- What is answered. -/
def Query.Answer : Query → Type
  | package _ => Bytes
  | isWorkspace => Bool
  | members => List Bytes
  | feature _ => Option (List Bytes)
  | dependency _ _ => Datum

def answer (m : Manifest) : (q : Query) → q.Answer
  | .package f => m.packageField f
  | .isWorkspace => m.isWorkspace
  | .members => m.workspaceMembers
  | .feature name => m.features.lookup name
  | .dependency i f => (Dependency.record m.dependencies i).field f

variable {m m' : Manifest}

/-- Manifests that answer every query in the same way are equal, if their records are found by the
same and their features are in order. -/
theorem eq_of_answer (hrecords : m.identities = m'.identities) (hnodup : m.identities.Nodup)
    (hsorted : m.features.Pairwise fun f g => f.1 < g.1)
    (hsorted' : m'.features.Pairwise fun f g => f.1 < g.1)
    (h : ∀ q, m.answer q = m'.answer q) : m = m' := by
  have hfeatures : m.features = m'.features :=
    eq_of_lookup hsorted hsorted' fun name => h (.feature name)
  have hrecord : Dependency.record m.dependencies = Dependency.record m'.dependencies := by
    funext i
    have hsame := (Dependency.identity_record m.dependencies i).trans
      (Dependency.identity_record m'.dependencies i).symm
    exact Dependency.eq_of_field (Dependency.same_iff.mpr hsame) fun f => h (.dependency i f)
  have hnodup' : m'.identities.Nodup := by rwa [← hrecords]
  have hdependencies : m.dependencies = m'.dependencies :=
    calc m.dependencies
        = m.identities.map (Dependency.record m.dependencies) :=
          (Dependency.map_record hnodup).symm
      _ = m'.identities.map (Dependency.record m'.dependencies) := by rw [hrecords, hrecord]
      _ = m'.dependencies := Dependency.map_record hnodup'
  have hname : m.packageName = m'.packageName := h (.package .name)
  have hversion : m.version = m'.version := h (.package .version)
  have hedition : m.edition = m'.edition := h (.package .edition)
  have hdescription : m.description = m'.description := h (.package .description)
  have hworkspace : m.isWorkspace = m'.isWorkspace := h .isWorkspace
  have hmembers : m.workspaceMembers = m'.workspaceMembers := h .members
  cases m
  cases m'
  simp only [mk.injEq]
  exact ⟨hname, hversion, hedition, hdescription, hdependencies, hfeatures, hworkspace, hmembers⟩

theorem packageField_setPackage (m : Manifest) (key value : Bytes) (f : PackageField) :
    (m.setPackage key value).packageField f
      = if key = f.word then Toml.stringValue value else m.packageField f := by
  by_cases hkey : key = f.word
  · rw [if_pos hkey, hkey]
    cases f <;> simp +decide [setPackage, packageField]
  · rw [if_neg hkey]
    cases f <;> simp only [PackageField.word] at hkey <;>
      simp only [setPackage, hkey, if_false] <;> split_ifs <;> rfl

/-- The section on the package is about nothing else. -/
theorem answer_setPackage (m : Manifest) (key value : Bytes) {q : Query}
    (h : ∀ f, q ≠ .package f) : (m.setPackage key value).answer q = m.answer q := by
  cases q with
  | package f => exact absurd rfl (h f)
  | _ =>
      unfold setPackage
      split_ifs <;> rfl

/-- **An entry overwrites the answer to every query.** -/
theorem overwrites_addEntry (q : Query) (e : Toml.Entry) :
    Overwrites (fun m : Manifest => m.answer q) fun m => m.addEntry e := by
  have htakes := takes_addEntry e
  generalize (fun m : Manifest => m.addEntry e) = take at htakes ⊢
  cases htakes with
  | nothing => exact .unchanged fun _ => rfl
  | package =>
      cases q with
      | package f => exact .written_if fun m => packageField_setPackage m e.key e.value f
      | _ => exact .unchanged fun m => answer_setPackage m e.key e.value (by simp)
  | workspace =>
      cases q with
      | isWorkspace => exact .written (b := true) fun _ => rfl
      | members => exact .written_if (p := e.key = ascii "members") fun _ => rfl
      | _ => exact .unchanged fun _ => rfl
  | feature =>
      cases q with
      | feature name => exact .written_if fun m => lookup_setFeature e.key _ m.features name
      | _ => exact .unchanged fun _ => rfl
  | dependency table =>
      cases q with
      | dependency i f =>
          obtain ⟨written, hwritten⟩ := table.overwrites_change e.key e.value i f
          exact ⟨written, fun m => hwritten m.dependencies⟩
      | _ => exact .unchanged fun _ => rfl

theorem features_setPackage (m : Manifest) (key value : Bytes) :
    (m.setPackage key value).features = m.features := by
  unfold setPackage
  split_ifs <;> rfl

/-- The features are in the order of their names behind any entries. -/
theorem pairwise_features (h : m.features.Pairwise fun f g => f.1 < g.1) (es : List Toml.Entry) :
    (es.foldl addEntry m).features.Pairwise fun f g => f.1 < g.1 := by
  induction es generalizing m with
  | nil => exact h
  | cons e es ih =>
      refine ih ?_
      have htakes := takes_addEntry e
      change ((fun m : Manifest => m.addEntry e) m).features.Pairwise _
      generalize (fun m : Manifest => m.addEntry e) = take at htakes ⊢
      cases htakes with
      | package =>
          rw [features_setPackage]
          exact h
      | feature => exact pairwise_setFeature h e.key _
      | workspace | dependency | nothing => exact h

theorem eraseDups_append_self {α : Type} [DecidableEq α] (l : List α) :
    (l ++ l).eraseDups = l.eraseDups := by
  have hnone : l.removeAll l = [] := List.filter_eq_nil_iff.mpr (by simp)
  rw [List.eraseDups_append, hnone, List.eraseDups_nil, List.append_nil]

/-- **Entries that come again change nothing.** -/
theorem foldl_addEntry_again (es : List Toml.Entry) :
    es.foldl addEntry (es.foldl addEntry {}) = es.foldl addEntry {} := by
  have hfirst := identities_of_entries es
  have hsecond : (es.foldl addEntry (es.foldl addEntry {})).identities
      = (es.filterMap Toml.Entry.mention?).eraseDups :=
    (identities_foldl hfirst es).trans (eraseDups_append_self _)
  have hsorted : (es.foldl addEntry {}).features.Pairwise fun f g => f.1 < g.1 :=
    pairwise_features .nil es
  refine eq_of_answer (hsecond.trans hfirst.symm) ?_ (pairwise_features hsorted es) hsorted
    fun q => ?_
  · rw [hsecond]
    exact nodup_eraseDups _
  · exact (Overwrites.foldl (overwrites_addEntry q) es).again {}

/-- Where an entry stands does not matter. -/
theorem foldl_addEntry_renumber (f : Nat → Nat) (m : Manifest) (es : List Toml.Entry) :
    (es.map (Toml.Entry.renumber f)).foldl addEntry m = es.foldl addEntry m :=
  List.foldl_map

/-- A text that starts with a header and leaves nothing open can come twice. -/
theorem ofText_again {text : Bytes} (hheader : Toml.StartsWithHeader text)
    (hclosed : (Toml.Progress.after {} 1 (Bytes.lines text)).openEntry = none) :
    ofText (text ++ 10 :: text) = ofText text := by
  rw [ofText, Toml.entries_twice hheader hclosed, List.foldl_append, foldl_addEntry_renumber]
  exact foldl_addEntry_again (Toml.entries text)

/--
**A dependency has one record, however often and in whatever forms it is mentioned.**

The records stand in the order of first mention.  And a text that comes again behind itself says
nothing new, if it leaves no value open and its first line that says anything is read as a header.
-/
theorem ofText_dependencies (text : Bytes) :
    ((ofText text).dependencies.Pairwise fun d e => ¬ d.Same e)
      ∧ (ofText text).identities
        = ((Toml.entries text).filterMap Toml.Entry.mention?).eraseDups
      ∧ (Toml.StartsWithHeader text →
          (Toml.Progress.after {} 1 (Bytes.lines text)).openEntry = none →
          ofText (text ++ 10 :: text) = ofText text) := by
  have hmentioned := identities_of_entries (Toml.entries text)
  refine ⟨pairwise_not_same ?_, hmentioned, ofText_again⟩
  exact hmentioned ▸ nodup_eraseDups _

/-- Two dependencies in all forms, one below two names of its table. -/
theorem ofText_dependencies_repeated :
    let text := ascii "# two\n[dev_dependencies]\nx = \x7b path = \"p\", optional = true \x7d\n"
      ++ ascii "[dependencies]\ns = \"1\"\ns.features = [\n\"b\", \"a\"]\n"
      ++ ascii "[dev-dependencies]\nx.version = \"2\"\n[dependencies.s]\nversion = \"3\""
    (ofText text).dependencies
        = [{ name := ascii "x", kind := .dev, version := ascii "2", path := ascii "p",
             optional := true },
           { name := ascii "s", version := ascii "3", features := [ascii "b", ascii "a"] }]
      ∧ Toml.StartsWithHeader text
      ∧ (Toml.Progress.after {} 1 (Bytes.lines text)).openEntry = none
      ∧ ofText (text ++ 10 :: text) = ofText text := by
  intro text
  have hheader : Toml.StartsWithHeader text := by
    refine ⟨[ascii "# two"], ascii "[dev_dependencies]", (Bytes.lines text).drop 2,
      by decide +kernel, ?_, by decide +kernel, by decide +kernel⟩
    rw [List.forall_mem_singleton]
    exact ⟨by decide +kernel, by decide +kernel⟩
  have hclosed : (Toml.Progress.after {} 1 (Bytes.lines text)).openEntry = none := by
    decide +kernel
  exact ⟨by decide +kernel, hheader, hclosed, (ofText_dependencies text).2.2 hheader hclosed⟩

/-- **A text that starts with the table of a platform can say something new the second time.**  The
line with the name of the table is not read as a header if it is found to assign something.  It is
then part of the section above, and the second time this is the last section of the text. -/
theorem linux_table_makes_record :
    let table := ascii "[target.'cfg(target_os = \"linux\")'.dependencies]"
    let text := table ++ 10 :: ascii "[dependencies]\ns = \"1\"\n"
    (Toml.Progress.after {} 1 (Bytes.lines text)).openEntry = none
      ∧ (ofText text).dependencies = [{ name := ascii "s", version := ascii "1" }]
      ∧ (ofText (text ++ 10 :: text)).dependencies
        = [{ name := ascii "s", version := ascii "1" }, { name := ascii "[target" }] := by
  decide +kernel

end Manifest

end AnalyzerBridge

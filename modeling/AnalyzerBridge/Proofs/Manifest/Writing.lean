/-
Every manifest can be written, in any choice of forms.

For each dependency the forms in which it is spoken of can be chosen freely, as long as there is
one and no field of its record is left out.  Each thing that is said then gets a section of its
own.
-/
import AnalyzerBridge.Proofs.Manifest.RoundTrip
import AnalyzerBridge.Proofs.Toml.Writing

namespace AnalyzerBridge

open Toml (Key Name Value IsName)

/-! ### Names of sections -/

theorem isNameByte_of_isKeyByte {b : UInt8} (h : Toml.isKeyByte b = true) :
    Toml.isNameByte b = true := by
  simp [Toml.isNameByte, h]

theorem isNameByte_of_isTargetByte {b : UInt8} (h : isTargetByte b = true) :
    Toml.isNameByte b = true := by
  simp only [isTargetByte, Bool.or_eq_true] at h
  simp only [Toml.isNameByte, Bool.or_eq_true]
  tauto

/-- Between two names anything may stand that a name can have in it. -/
theorem isName_append {t mid u : Bytes} (ht : IsName t) (hu : IsName u) (hne : t ≠ [])
    (hne' : u ≠ []) (hmid : ∀ b ∈ mid, Toml.isNameByte b = true) : IsName (t ++ mid ++ u) := by
  refine ⟨fun b hb => ?_, ?_, ?_⟩
  · simp only [List.mem_append] at hb
    rcases hb with (hb | hb) | hb
    exacts [ht.1 b hb, hmid b hb, hu.1 b hb]
  · obtain ⟨c, rest, rfl⟩ := List.exists_cons_of_ne_nil hne
    exact ht.2.1
  · rw [List.getLast?_append_of_ne_nil _ hne']
    exact hu.2.2

/-- A text without spaces is a name. -/
theorem isName_of_isKeyByte {t : Bytes} (h : ∀ b ∈ t, Toml.isKeyByte b = true) : IsName t := by
  have hspace : Toml.isKeyByte 32 ≠ true := by decide
  refine ⟨fun b hb => isNameByte_of_isKeyByte (h b hb), fun hb => ?_, fun hb => ?_⟩
  · exact hspace (h 32 (List.mem_of_mem_head? hb))
  · exact hspace (h 32 (List.mem_of_mem_getLast? hb))

theorem DependencyKind.exists_word (kind : DependencyKind) :
    ∃ word ∈ kind.words, word ≠ [] ∧ IsName word ∧ IsName (ascii "'." ++ word) := by
  cases kind <;> exact ⟨_, List.mem_cons_self, by decide +kernel⟩

namespace Manifest

variable {m : Manifest} {forms : Dependency → List Dependency.Form}

theorem Regular.isKey_name (hm : m.Regular) {d : Dependency} (hd : d ∈ m.dependencies) :
    Toml.IsKey d.name :=
  ⟨(hm.names d hd).1, fun b hb => (facts_of_isDependencyByte ((hm.names d hd).2 b hb)).1⟩

/-- A dependency has a table to stand in, and its own table has a name, too. -/
theorem Regular.exists_table (hm : m.Regular) {d : Dependency} (hd : d ∈ m.dependencies) :
    ∃ table, d.TableNamed table ∧ IsName table ∧ IsName (table ++ 46 :: d.name) := by
  obtain ⟨word, hword, hne, hdirect, hquoted⟩ := d.kind.exists_word
  have hname : IsName d.name := isName_of_isKeyByte (hm.isKey_name hd).2
  have hdot : ∀ b ∈ [46], Toml.isNameByte b = true := by
    intro b hb
    rw [List.mem_singleton.mp hb]
    decide
  have hown : ∀ table, table ≠ [] → IsName table → IsName (table ++ 46 :: d.name) :=
    fun table htable h => by
      simpa using isName_append h hname htable (hm.names d hd).1 hdot
  by_cases htarget : d.target = []
  case pos =>
    have hnamed : d.TableNamed ([] ++ word) := .mk (by rw [htarget]; exact .none) hword
    exact ⟨word, hnamed, hdirect, hown word hne hdirect⟩
  case neg =>
    have htable : IsName (ascii "target.'" ++ d.target ++ (ascii "'." ++ word)) :=
      isName_append (by decide +kernel) hquoted (by decide) (by simp [hne])
        fun b hb => isNameByte_of_isTargetByte (hm.targets d hd b hb)
    rw [← List.append_assoc] at htable
    exact ⟨_, .mk (.quoted d.target) hword, htable, hown _ (by simp [hne]) htable⟩

/-! ### Sayings -/

/-- All there is to say of a manifest, with chosen forms for the dependencies. -/
def sayings (m : Manifest) (forms : Dependency → List Dependency.Form) : List Saying :=
  [Saying.package .name, .package .version, .package .edition, .package .description]
    ++ (if m.isWorkspace then [Saying.members] else [])
    ++ m.features.map (fun f => Saying.feature f.1 f.2)
    ++ m.dependencies.flatMap fun d => (forms d).map (Saying.dependency d)

theorem PackageField.isKey_word (f : PackageField) : Toml.IsKey f.word := by
  cases f <;> decide +kernel

/-- What is said of a dependency can be written. -/
theorem Regular.exists_says_dependency (hm : m.Regular) {d : Dependency} (hd : d ∈ m.dependencies)
    (form : Dependency.Form) :
    ∃ (name : Name) (key : Key) (value : Value),
      m.Says (.dependency d form) name.val key value := by
  obtain ⟨table, hnamed, htable, hown⟩ := hm.exists_table hd
  have hkey := hm.isKey_name hd
  cases form with
  | version => exact ⟨⟨table, htable⟩, ⟨d.name, hkey⟩, _, .version hd hnamed rfl⟩
  | inline fields => exact ⟨⟨table, htable⟩, ⟨d.name, hkey⟩, _, .inline hd hnamed rfl fields⟩
  | dotted f =>
      have hdotted : Toml.IsKey (d.name ++ 46 :: f.word) := by
        refine ⟨by simp, fun b hb => ?_⟩
        rw [List.mem_append, List.mem_cons] at hb
        rcases hb with hb | rfl | hb
        exacts [hkey.2 b hb, by decide, f.isKey_word.2 b hb]
      exact ⟨⟨table, htable⟩, ⟨_, hdotted⟩, _, .dotted hd hnamed f rfl⟩
  | own f => exact ⟨⟨_, hown⟩, f.key, _, .own hd hnamed f⟩

/-- All that is said can be written. -/
theorem Regular.exists_says (hm : m.Regular) {s : Saying} (hs : s ∈ m.sayings forms) :
    ∃ (name : Name) (key : Key) (value : Value), m.Says s name.val key value := by
  have hpackage : ∀ f, ∃ (name : Name) (key : Key) (value : Value),
      m.Says (.package f) name.val key value := fun f =>
    ⟨⟨ascii "package", by decide +kernel⟩, ⟨f.word, PackageField.isKey_word f⟩, _, .package f rfl⟩
  simp only [sayings, List.mem_append, List.mem_map, List.mem_flatMap] at hs
  rcases hs with ((hs | hs) | ⟨f, hf, rfl⟩) | ⟨d, hd, form, _, rfl⟩
  case inl.inl.inl =>
    simp only [List.mem_cons, List.not_mem_nil, or_false] at hs
    rcases hs with rfl | rfl | rfl | rfl
    all_goals exact hpackage _
  case inl.inl.inr =>
    by_cases hw : m.isWorkspace = true
    · rw [if_pos hw, List.mem_singleton] at hs
      rw [hs]
      exact ⟨⟨ascii "workspace", by decide +kernel⟩, ⟨ascii "members", by decide +kernel⟩, _,
        .members rfl hw⟩
    · rw [if_neg hw] at hs
      exact absurd hs List.not_mem_nil
  case inl.inr =>
    have hkey := hm.featureNames f hf
    exact ⟨⟨ascii "features", by decide +kernel⟩, ⟨f.1, hkey⟩, _,
      @Says.feature m ⟨f.1, hkey⟩ f.2 hf⟩
  case inr => exact hm.exists_says_dependency hd form

/-- What can be written can be written in sections of one assignment each. -/
theorem exists_sections {sayings : List Saying}
    (h : ∀ s ∈ sayings, ∃ (name : Name) (key : Key) (value : Value), m.Says s name.val key value) :
    ∃ sections, List.Forall₂ (fun s (header, key, value) => m.Says s header key value) sayings
      (Toml.Document.mk [] sections).assignments := by
  induction sayings with
  | nil => exact ⟨[], .nil⟩
  | cons s rest ih =>
      obtain ⟨name, key, value, hsay⟩ := h s List.mem_cons_self
      obtain ⟨sections, hrest⟩ := ih fun s hs => h s (List.mem_cons_of_mem _ hs)
      exact ⟨(name, [(key, value)]) :: sections, .cons hsay hrest⟩

/-- What repeats each element of a list on the spot is the list but for the repetitions. -/
theorem eraseDups_flatMap_map {α β : Type} [DecidableEq α] {l : List α} (hl : l.Nodup)
    {f : α → List β} (hf : ∀ a ∈ l, f a ≠ []) :
    (l.flatMap fun a => (f a).map fun _ => a).eraseDups = l := by
  induction l with
  | nil => rfl
  | cons a rest ih =>
      rw [List.nodup_cons] at hl
      obtain ⟨b, bs, hb⟩ := List.exists_cons_of_ne_nil (hf a List.mem_cons_self)
      have hfront : ((f a).map fun _ => a).eraseDups = [a] := by
        simp [hb, List.eraseDups_cons]
      have hrest : (rest.flatMap fun a => (f a).map fun _ => a).removeAll ((f a).map fun _ => a)
          = rest.flatMap fun a => (f a).map fun _ => a := by
        refine List.filter_eq_self.mpr fun c hc => ?_
        have hmem : c ∈ rest := by
          obtain ⟨d, hd, hc⟩ := List.mem_flatMap.mp hc
          obtain ⟨_, _, rfl⟩ := List.mem_map.mp hc
          exact hd
        have hne : c ≠ a := by rintro rfl; exact hl.1 hmem
        simp [hne]
      rw [List.flatMap_cons, List.eraseDups_append, hfront, hrest,
        ih hl.2 fun c hc => hf c (List.mem_cons_of_mem _ hc)]
      rfl

theorem Regular.nodup_dependencies (hm : m.Regular) : m.dependencies.Nodup :=
  hm.distinct.imp fun {d e} hnot heq => hnot (by rw [heq]; exact ⟨rfl, rfl, rfl⟩)

/-- The dependencies are spoken of in their order. -/
theorem Regular.mentioned_sayings (hm : m.Regular) (hforms : ∀ d ∈ m.dependencies, forms d ≠ []) :
    ((m.sayings forms).filterMap Saying.dependency?).eraseDups = m.dependencies := by
  have hmention : (m.sayings forms).filterMap Saying.dependency?
      = m.dependencies.flatMap fun d => (forms d).map fun _ => d := by
    have hpackage : [Saying.package .name, .package .version, .package .edition,
        .package .description].filterMap Saying.dependency? = [] := rfl
    have hmembers : (if m.isWorkspace then [Saying.members] else []).filterMap Saying.dependency?
        = [] := by split <;> rfl
    have hfeatures : (m.features.map fun f => Saying.feature f.1 f.2).filterMap Saying.dependency?
        = [] := by
      rw [List.filterMap_map]
      exact List.filterMap_eq_nil_iff.mpr fun _ _ => rfl
    have hdependencies : (m.dependencies.flatMap fun d =>
        (forms d).map (Saying.dependency d)).filterMap Saying.dependency?
        = m.dependencies.flatMap fun d => (forms d).map fun _ => d := by
      rw [List.filterMap_flatMap]
      refine congrArg m.dependencies.flatMap (funext fun d => ?_)
      rw [List.filterMap_map]
      exact congrFun List.filterMap_eq_map (forms d)
    simp only [sayings, List.filterMap_append, hpackage, hmembers, hfeatures, hdependencies,
      List.nil_append]
  rw [hmention, eraseDups_flatMap_map hm.nodup_dependencies hforms]

/-- **Every manifest can be written, in any choice of forms for its dependencies.** -/
theorem Regular.exists_spelling (hm : m.Regular) (hforms : ∀ d ∈ m.dependencies, forms d ≠ [])
    (hfields : ∀ d ∈ m.dependencies, ∀ f, d.field f ≠ d.blank.field f →
      ∃ form ∈ forms d, f ∈ form.fields) :
    ∃ spelling : m.Spelling, spelling.sayings = m.sayings forms := by
  obtain ⟨sections, hstated⟩ :=
    exists_sections fun s (hs : s ∈ m.sayings forms) => hm.exists_says hs
  have hpackage : ∀ f : PackageField, .package f ∈ m.sayings forms := fun f => by
    cases f <;> simp [sayings]
  have hfeatures : ∀ f ∈ m.features, .feature f.1 f.2 ∈ m.sayings forms := fun f hf => by
    simp only [sayings, List.mem_append, List.mem_map]
    exact .inl (.inr ⟨f, hf, rfl⟩)
  have hworkspace : m.isWorkspace = true → .members ∈ m.sayings forms := fun hw => by
    simp [sayings, hw]
  have hdependency : ∀ d ∈ m.dependencies, ∀ f, d.field f ≠ d.blank.field f →
      ∃ form, .dependency d form ∈ m.sayings forms ∧ f ∈ form.fields := fun d hd f hf => by
    obtain ⟨form, hform, hmem⟩ := hfields d hd f hf
    refine ⟨form, ?_, hmem⟩
    simp only [sayings, List.mem_append, List.mem_flatMap, List.mem_map]
    exact .inr ⟨d, hd, form, hform, rfl⟩
  exact ⟨⟨hm, ⟨[], sections⟩, m.sayings forms, hstated, fun f _ => hpackage f, hfeatures,
    hworkspace, hm.mentioned_sayings hforms, hdependency⟩, rfl⟩

end Manifest

end AnalyzerBridge

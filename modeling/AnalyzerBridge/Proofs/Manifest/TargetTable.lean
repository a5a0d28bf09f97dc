/-
The tables of what a target needs.

The header of such a table names the target between single quotes.  The reader of section names
knows these, so whatever stands between them is the target.  But the header has to come that far:
the scan for comments and the one for assignments know double quotes only, and if one of them finds
something in the target, the line is no header any more.

A line that is no header leaves the one above in force.  Here there is none above, so the entries
of the table are at the top of the manifest, where they say nothing.
-/
import AnalyzerBridge.Proofs.Manifest.RoundTrip
import AnalyzerBridge.Proofs.Toml.Settled

namespace AnalyzerBridge

open Toml (Lacks Settled Progress splitAssignment withoutComment headerName)
open Bytes (Tight)

/-- The name of the table of what a target needs. -/
def targetTable (t : Bytes) : Bytes := ascii "target.'" ++ t ++ ascii "'." ++ ascii "dependencies"

def targetHeader (t : Bytes) : Bytes := 91 :: targetTable t ++ [93]

/-- The line that asks for a version of a dependency. -/
def versionLine (n v : Bytes) : Bytes := n ++ ascii " = " ++ Toml.quote v

/-- The scanners find nothing in the target: neither the start of a comment nor an assignment. -/
def Legible (t : Bytes) : Prop := Lacks Toml.isHash {} t ∧ splitAssignment false t = none

instance (t : Bytes) : Decidable (Legible t) :=
  inferInstanceAs (Decidable (Lacks Toml.isHash {} t ∧ splitAssignment false t = none))

/-! ### Header lines -/

theorem facts_of_front : ∀ b ∈ ascii "[target.'", b ≠ 34 ∧ b ≠ 61 :=
  Bytes.forall_mem_of_all (by decide)

theorem facts_of_back :
    ∀ b ∈ ascii "'.dependencies]", (b ≠ 34 ∧ b ≠ 61) ∧ Toml.isHash b = false :=
  Bytes.forall_mem_of_all (by decide)

variable {t n v : Bytes}

theorem targetHeader_eq (t : Bytes) :
    targetHeader t = ascii "[target.'" ++ t ++ ascii "'.dependencies]" := by
  have hfront : ascii "[target.'" = 91 :: ascii "target.'" := by decide
  have hback : ascii "'.dependencies]" = ascii "'." ++ ascii "dependencies" ++ [93] := by decide
  simp [targetHeader, targetTable, hfront, hback]

theorem tight_targetTable (t : Bytes) : Tight (targetTable t) := by
  have hfront : Tight (ascii "target.'") := .of_forall (Bytes.forall_mem_of_all (by decide))
  have hback : Tight (ascii "dependencies") := .of_forall (Bytes.forall_mem_of_all (by decide))
  have h := hfront.append hback (by decide) (by decide) (t ++ ascii "'.")
  simpa [targetTable] using h

theorem whole_front : Toml.Whole (ascii "[target.'") 1 where
  after := by decide
  noComment := by decide
  nesting := by decide
  oneLine := by decide

/-- If no comment starts in the target, the reader sees the header as it is. -/
theorem trim_targetHeader (h : Lacks Toml.isHash {} t) :
    Bytes.trim (withoutComment {} (targetHeader t)) = targetHeader t := by
  have hlacks : Lacks Toml.isHash {} (targetHeader t) := by
    rw [targetHeader_eq]
    refine Lacks.append (whole_front.noComment.append ?_) (.of_forall fun b hb => ?_)
    · rw [whole_front.after]
      exact h
    · exact (facts_of_back b hb).2
  rw [Toml.withoutComment_of_lacks hlacks]
  refine Tight.trim_eq ⟨?_, ?_⟩
  · intro b hb
    obtain rfl : 91 = b := by simpa [targetHeader] using hb
    rfl
  · intro b hb
    obtain rfl : 93 = b := by simpa [targetHeader, List.getLast?_cons] using hb
    rfl

theorem splitAssignment_targetHeader_eq_none_iff (t : Bytes) :
    splitAssignment false (targetHeader t) = none ↔ splitAssignment false t = none := by
  rw [targetHeader_eq]
  exact Toml.splitAssignment_between_eq_none_iff facts_of_front
    (fun b hb => (facts_of_back b hb).1) t

/-- If a comment starts in the target, the reader sees no more than the front of the header. -/
theorem exists_trim_targetHeader (h : ¬Lacks Toml.isHash {} t) :
    ∃ w, w <+: t
      ∧ Bytes.trim (withoutComment {} (targetHeader t)) = 91 :: ascii "target." ++ 39 :: w := by
  obtain ⟨hcut, hinit⟩ := Toml.withoutComment_of_not_lacks h (ascii "'.dependencies]")
  have hfront : ascii "[target.'" = 91 :: ascii "target." ++ [39] := by decide
  have hcomment : withoutComment {} (targetHeader t)
      = 91 :: ascii "target." ++ 39 :: withoutComment {} t := by
    rw [targetHeader_eq, List.append_assoc, whole_front.withoutComment_append, hcut, hfront,
      List.append_assoc]
    rfl
  have htight : Tight (91 :: ascii "target.") := .of_forall (Bytes.forall_mem_of_all (by decide))
  obtain ⟨w, d, hw, -, -, htrim⟩ :=
    Bytes.exists_trim_append (c := 39) rfl htight.first (withoutComment {} t)
  have hfirst : w <+: withoutComment {} t := ⟨d, hw.symm⟩
  exact ⟨w, hfirst.trans hinit, by rw [hcomment, htrim]⟩

/-- A target in which the scanners find nothing stands in a header. -/
theorem Legible.readLine (h : Legible t) {p : Progress} (hp : p.openEntry = none) (number : Nat) :
    p.readLine number (targetHeader t) = ({ p with header := targetTable t }, []) := by
  have hsplit : splitAssignment false (targetHeader t) = none :=
    (splitAssignment_targetHeader_eq_none_iff t).mpr h.2
  have hname : headerName (targetHeader t) = targetTable t := by
    have hfirst : ascii "target.'" = 116 :: ascii "arget.'" := by decide
    have hlast : ascii "dependencies" = ascii "dependencie" ++ [115] := by decide
    have hbare := Toml.headerName_of_tight .nil (tight_targetTable t) .nil
    rw [List.nil_append, List.append_nil] at hbare
    refine hbare ?_ ?_
    · intro b hb
      obtain rfl : 116 = b := by simpa [targetTable, hfirst] using hb
      decide
    · intro b hb
      rw [targetTable, hlast, ← List.append_assoc, List.getLast?_concat] at hb
      obtain rfl : 115 = b := by simpa using hb
      decide
  have hfull : (targetHeader t).isEmpty = false := rfl
  have hhead : (targetHeader t).head? = some 91 := rfl
  simp only [Progress.readLine, trim_targetHeader h.1, hfull, Progress.readText, hp, hsplit, hname,
    hhead, Bool.false_eq_true, if_true, if_false]

/-! ### The line below -/

/-- The line that asks for a version is an assignment, whether the dependency has a name or not. -/
theorem exists_text_versionLine (hn : ∀ b ∈ n, isDependencyByte b = true) (v : Bytes) :
    ∃ g, Toml.IsBlanks g ∧ Toml.stringValue (n ++ g) = n
      ∧ Bytes.trim (withoutComment {} (versionLine n v))
        = n ++ g ++ 61 :: (32 :: Toml.quote v) := by
  have hequals : ascii " = " = [32, 61, 32] := by decide
  have hkey : ∀ b ∈ n, Toml.isPlain b = true := fun b hb =>
    (Toml.facts_of_isKeyByte (facts_of_isDependencyByte (hn b hb)).1).1
  have hspaces : ∀ b ∈ ([32, 61, 32] : Bytes), Toml.isPlain b = true :=
      Bytes.forall_mem_of_all (by decide)
  have hwhole : Toml.Whole (versionLine n v) 0 := by
    rw [versionLine, hequals]
    exact ((Toml.Whole.of_plain hkey).append (.of_plain hspaces)).append (Toml.whole_quote v)
  rw [Toml.withoutComment_of_lacks hwhole.noComment, versionLine, hequals]
  by_cases hnil : n = []
  · subst hnil
    have htight : Tight (61 :: (32 :: Toml.quote v)) :=
      Toml.Token.equals.tight.append (Toml.tight_quote v) (List.cons_ne_nil _ _)
        (List.cons_ne_nil _ _) [32]
    refine ⟨[], .nil, rfl, ?_⟩
    show Bytes.trim (32 :: (61 :: (32 :: Toml.quote v))) = _
    rw [Bytes.trim_cons_of_blank rfl, htight.trim_eq]
    rfl
  · let key : Toml.Key := ⟨n, hnil, fun b hb => (facts_of_isDependencyByte (hn b hb)).1⟩
    have htight := (Toml.Token.assign key .space .space (Toml.Token.quote v)).tight
    refine ⟨[32], .space, Toml.stringValue_key key .space, ?_⟩
    have hline : n ++ [32, 61, 32] ++ Toml.quote v
        = n ++ [32] ++ 61 :: (32 :: Toml.quote v) := by simp
    rw [hline]
    exact htight.trim_eq

theorem splitAssignment_versionLine (hn : ∀ b ∈ n, isDependencyByte b = true) {g : Bytes}
    (hg : Toml.IsBlanks g) (v : Bytes) :
    splitAssignment false (n ++ g ++ 61 :: (32 :: Toml.quote v))
      = some (n ++ g, 32 :: Toml.quote v) := by
  refine Toml.splitAssignment_append (fun b hb => ?_) _
  rcases List.mem_append.mp hb with hmem | hblank
  · have hfacts := Toml.facts_of_isKeyByte (facts_of_isDependencyByte (hn b hmem)).1
    exact ⟨hfacts.2.2.1, hfacts.2.2.2.2⟩
  · exact (Toml.facts_of_isBlank (hg b hblank)).2

theorem readLine_versionLine {p : Progress} (hp : p.openEntry = none)
    (hn : ∀ b ∈ n, isDependencyByte b = true) (v : Bytes) (number : Nat) :
    p.readLine number (versionLine n v) = (p, [⟨p.header, n, Toml.quote v, number⟩]) := by
  obtain ⟨g, hg, hvalue, htext⟩ := exists_text_versionLine hn v
  have hsplit := splitAssignment_versionLine hn hg v
  have htrim : Bytes.trim (32 :: Toml.quote v) = Toml.quote v := by
    rw [Bytes.trim_cons_of_blank rfl, (Toml.tight_quote v).trim_eq]
  have hfull : (n ++ g ++ 61 :: (32 :: Toml.quote v)).isEmpty = false := by simp
  have hdepth : ¬0 < Toml.nesting {} (Toml.quote v) := by
    rw [(Toml.whole_quote v).nesting]
    decide
  simp only [Progress.readLine, htext, hfull, Progress.readText, hp, hsplit, hvalue, htrim,
    Progress.begin, Bool.false_eq_true, if_false, if_neg hdepth]

namespace Manifest

/-! ### The table is read -/

/-- A version for a dependency that has no record yet makes one, behind all others. -/
theorem change_of_new {ds : List Dependency} {table : DependencyTable} {f : Dependency → Dependency}
    (h : ∀ d ∈ ds, d.isFor n table = false) :
    Dependency.change n table f ds
      = ds ++ [f { name := n, kind := table.kind, target := table.target }] := by
  induction ds with
  | nil => rfl
  | cons d rest ih =>
      have hd : ¬d.isFor n table = true := by
        rw [h d List.mem_cons_self]
        exact Bool.false_ne_true
      rw [Dependency.change, if_neg hd, ih fun e he => h e (List.mem_cons_of_mem _ he)]
      rfl

/-- The header and the line below it, at the end of a text. -/
def targetSection (t n v : Bytes) : Bytes := targetHeader t ++ 10 :: versionLine n v

theorem lineFeed_not_mem_targetHeader (ht : 10 ∉ t) : 10 ∉ targetHeader t := by
  have hfront : 10 ∉ ascii "[target.'" := by decide
  have hback : 10 ∉ ascii "'.dependencies]" := by decide
  simp [targetHeader_eq, hfront, ht, hback]

theorem lines_targetSection (ht : 10 ∉ t) (hn : ∀ b ∈ n, isDependencyByte b = true) (v : Bytes)
    {ending : Bytes} (hending : ending = [] ∨ ending = [10]) :
    Bytes.lines (targetSection t n v ++ ending) = [targetHeader t, versionLine n v] := by
  have hversion : 10 ∉ versionLine n v := by
    have hname : 10 ∉ n := fun hmem => absurd (hn 10 hmem) (by decide)
    have hequals : 10 ∉ ascii " = " := by decide
    simp [versionLine, hname, hequals, (Toml.whole_quote v).oneLine]
  have hne : versionLine n v ≠ [] := by simp [versionLine, Toml.quote]
  have hlast : Bytes.lines (versionLine n v ++ ending) = [versionLine n v] := by
    rcases hending with rfl | rfl
    · rw [List.append_nil]
      exact Bytes.lines_of_not_mem hversion hne
    · exact Bytes.lines_append hversion []
  rw [targetSection, List.append_assoc, List.cons_append,
    Bytes.lines_append (lineFeed_not_mem_targetHeader ht), hlast]

/-- The table is one that a dependency with that target can stand in. -/
theorem tableNamed_targetTable (t : Bytes) :
    Dependency.TableNamed { name := [], target := t } (targetTable t) :=
  .mk (.quoted t) (List.mem_singleton.mpr rfl)

theorem addEntry_of_targetTable (ht : 39 ∉ t) (hn : ∀ b ∈ n, isDependencyByte b = true)
    (v : Bytes) (number : Nat) {m : Manifest}
    (hnew : ∀ d ∈ m.dependencies, d.isFor n ⟨.normal, t, []⟩ = false) :
    m.addEntry ⟨targetTable t, n, Toml.quote v, number⟩ = { m with
      dependencies := m.dependencies ++ [{ name := n, target := t, version := v }] } := by
  have hnamed := tableNamed_targetTable t
  have hsection : DependencyTable.ofSection? (targetTable t) = some ⟨.normal, t, []⟩ :=
    hnamed.ofSection? ht
  have hother := hnamed.ne_section []
  rw [List.append_nil] at hother
  have hdot : 46 ∉ n := fun hmem => (facts_of_isDependencyByte (hn 46 hmem)).2.2.2 rfl
  have hquote : ¬(Toml.quote v).head? = some 123 := by simp [Toml.quote]
  rw [addEntry_of_table hother hsection, setDependency_of_name rfl hdot,
    change_of_new hnew]
  simp [Dependency.assign, hquote, Toml.stringValue_quote]

theorem ofText_of_legible (ht : 39 ∉ t ∧ 10 ∉ t) (h : Legible t) {front : Bytes}
    (hfront : Settled front) (hn : ∀ b ∈ n, isDependencyByte b = true) (v : Bytes)
    {ending : Bytes} (hending : ending = [] ∨ ending = [10])
    (hnew : ∀ d ∈ (ofText front).dependencies, d.isFor n ⟨.normal, t, []⟩ = false) :
    ofText (front ++ (targetSection t n v ++ ending))
      = { ofText front with dependencies :=
            (ofText front).dependencies ++ [{ name := n, target := t, version := v }] } := by
  let p := Progress.after {} 1 (Bytes.lines front)
  let number := 1 + (Bytes.lines front).length
  have hp : p.openEntry = none := hfront.closed
  have hentries : Toml.entries (front ++ (targetSection t n v ++ ending))
      = Toml.entries front ++ [⟨targetTable t, n, Toml.quote v, number + 1⟩] := by
    rw [hfront.entries_append, lines_targetSection ht.2 hn v hending]
    show Toml.entries front ++ p.entries number [targetHeader t, versionLine n v] = _
    -- The first line brings the header into force, and the second one gives the only entry.
    have hinside : Progress.openEntry { p with header := targetTable t } = none := hp
    simp only [Progress.entries, h.readLine hp, readLine_versionLine hinside hn]
    simp [hp]
  rw [ofText, hentries, List.foldl_concat]
  exact addEntry_of_targetTable ht.1 hn v (number + 1) hnew

/-! ### The table is lost -/

/-- A header that names no section: there is none, or its target does not end. -/
def NoSection (header : Bytes) : Prop :=
  header = [] ∨ ∃ w, header = ascii "target." ++ 39 :: w ∧ 39 ∉ w

theorem NoSection.addEntry {e : Toml.Entry} (h : NoSection e.header) (m : Manifest) :
    m.addEntry e = m := by
  have hother : e.header ≠ ascii "package" ∧ e.header ≠ ascii "workspace"
      ∧ e.header ≠ ascii "features" := by
    rcases h with hnil | ⟨w, hw, -⟩
    · rw [hnil]
      decide
    · have hfirst : e.header.head? = some 116 := by
        rw [hw]
        rfl
      have hne : ∀ s : Bytes, s.head? ≠ some 116 → e.header ≠ s := by
        intro s hs heq
        exact hs (heq ▸ hfirst)
      exact ⟨hne _ (by decide), hne _ (by decide), hne _ (by decide)⟩
  have hnone : DependencyTable.ofSection? e.header = none := by
    rcases h with hnil | ⟨w, hw, hquote⟩
    · rw [hnil]
      decide
    · have hopen : ascii "target." = ascii "target" ++ [46] := by decide
      have hbytes : (ascii "target").all isDependencyByte = true := by decide
      -- The quote that is never closed takes all the rest for one word.
      have hinside : sectionWords (some 39) w = (w, []) := by
        clear hw
        induction w with
        | nil => rfl
        | cons b w ih =>
            rw [List.mem_cons, not_or] at hquote
            simp [sectionWords, Ne.symm hquote.1, ih hquote.2]
      have hlast : sectionWords none (39 :: w) = (w, []) := by simp [sectionWords, hinside]
      have hwords := sectionWords_append_dot (w := ascii "target")
        (fun b hb => (facts_of_isDependencyByte (List.all_eq_true.mp hbytes b hb)).2) (39 :: w)
      rw [hlast] at hwords
      rw [hw, hopen, List.append_assoc, List.singleton_append]
      simp only [DependencyTable.ofSection?, hwords]
      rfl
  simp only [Manifest.addEntry, hother, if_false, hnone]

theorem foldl_addEntry_of_noSection {entries : List Toml.Entry}
    (h : ∀ e ∈ entries, NoSection e.header) (m : Manifest) : entries.foldl addEntry m = m := by
  induction entries with
  | nil => rfl
  | cons e rest ih =>
      rw [List.foldl_cons, (h e List.mem_cons_self).addEntry]
      exact ih fun other hother => h other (List.mem_cons_of_mem _ hother)

/-- If the scanners find something in the target, its header names no section. -/
theorem names_targetHeader (ht : 39 ∉ t) (h : ¬Legible t) :
    Progress.Names NoSection (targetHeader t) := by
  unfold Progress.Names
  intro text hsplit hhead
  by_cases hhash : Lacks Toml.isHash {} t
  · -- The header is whole, so what was found in it is an assignment.
    have hwhole : text = targetHeader t := trim_targetHeader hhash
    rw [hwhole, splitAssignment_targetHeader_eq_none_iff] at hsplit
    exact absurd ⟨hhash, hsplit⟩ h
  · obtain ⟨w, hw, htext⟩ := exists_trim_targetHeader hhash
    have htext' : text = 91 :: ascii "target." ++ 39 :: w := htext
    have hopen : (91 :: ascii "target." ++ 39 :: w).dropWhile (· == 91)
        = ascii "target." ++ 39 :: w := rfl
    -- The name is what stands between the brackets, without the blanks around it.
    obtain ⟨u, d, hu, -, -, hclose⟩ := Bytes.exists_dropWhile_end (p := (· == 93)) (c := 39) rfl
      (ascii "target.") w
    have htight : Tight (ascii "target.") := .of_forall (Bytes.forall_mem_of_all (by decide))
    obtain ⟨x, e, hx, -, -, htrim⟩ := Bytes.exists_trim_append (c := 39) rfl htight.first u
    have hname : headerName text = ascii "target." ++ 39 :: x := by
      rw [headerName, htext', hopen, hclose]
      exact htrim
    rw [hname]
    refine .inr ⟨x, rfl, ?_⟩
    intro hmem
    apply ht
    apply hw.subset
    rw [hu, hx]
    simp [hmem]

theorem names_versionLine (hn : ∀ b ∈ n, isDependencyByte b = true) (v : Bytes) :
    Progress.Names NoSection (versionLine n v) := by
  obtain ⟨g, hg, -, htext⟩ := exists_text_versionLine hn v
  unfold Progress.Names
  intro text hsplit
  have hassign := splitAssignment_versionLine hn hg v
  rw [← htext] at hassign
  exact absurd (hsplit.symm.trans hassign) (by simp)

/-- **A target in which the scanners find something is lost**, and its table with it. -/
theorem ofText_of_not_legible (ht : 39 ∉ t ∧ 10 ∉ t) (h : ¬Legible t)
    (hn : ∀ b ∈ n, isDependencyByte b = true) (v : Bytes) {ending : Bytes}
    (hending : ending = [] ∨ ending = [10]) : ofText (targetSection t n v ++ ending) = {} := by
  have hnames : ∀ line ∈ [targetHeader t, versionLine n v], Progress.Names NoSection line := by
    intro line hline
    rcases List.mem_pair.mp hline with rfl | rfl
    · exact names_targetHeader ht.1 h
    · exact names_versionLine hn v
  have htop : Progress.Under NoSection {} := ⟨.inl rfl, by simp⟩
  rw [ofText, Toml.entries, lines_targetSection ht.2 hn v hending]
  exact foldl_addEntry_of_noSection (htop.entries hnames 1) {}

/--
**Which targets are kept.**

A table of what a target needs, put behind any settled text that has no such record yet, adds its
one record and changes nothing else, if the scanners find nothing in the target.  If they do, a
manifest that consists of the table alone says nothing at all.
-/
theorem ofText_targetSection {t : Bytes} (ht : 39 ∉ t ∧ 10 ∉ t) :
    (Legible t → ∀ front n v ending : Bytes, Settled front →
      (∀ b ∈ n, isDependencyByte b = true) → (ending = [] ∨ ending = [10]) →
      (∀ d ∈ (ofText front).dependencies, d.isFor n ⟨.normal, t, []⟩ = false) →
      ofText (front ++ (targetSection t n v ++ ending))
        = { ofText front with dependencies :=
              (ofText front).dependencies ++ [{ name := n, target := t, version := v }] })
    ∧ (¬Legible t → ∀ n v ending : Bytes, (∀ b ∈ n, isDependencyByte b = true) →
      (ending = [] ∨ ending = [10]) → ofText (targetSection t n v ++ ending) = {}) := by
  constructor
  · intro h front n v ending hfront hn hending hnew
    exact ofText_of_legible ht h hfront hn v hending hnew
  · intro h n v ending hn hending
    exact ofText_of_not_legible ht h hn v hending

/-- A target with a version of a dependency that has one for all targets. -/
theorem ofText_targetSection_unix :
    let t := ascii "cfg(all(unix, not(macos)))"
    let front := ascii "[dependencies]\nlibc = \"0.1\"\n"
    (39 ∉ t ∧ 10 ∉ t)
      ∧ ofText (front ++ (targetSection t (ascii "libc") (ascii "0.2") ++ [10]))
        = { dependencies := [{ name := ascii "libc", version := ascii "0.1" },
              { name := ascii "libc", target := t, version := ascii "0.2" }] } := by
  intro t front
  have ht : 39 ∉ t ∧ 10 ∉ t := by decide
  have hfront : ofText front
      = { dependencies := [{ name := ascii "libc", version := ascii "0.1" }] } := by
    decide +kernel
  refine ⟨ht, ?_⟩
  rw [(ofText_targetSection ht).1 (by decide) front (ascii "libc") (ascii "0.2") [10]
    (by decide +kernel) (Bytes.forall_mem_of_all (by decide)) (.inr rfl) (by rw [hfront]; decide),
    hfront]
  rfl

/-- **A target with an equals sign loses its table.** -/
theorem linux_table_is_lost :
    let t := ascii "cfg(target_os = \"linux\")"
    (39 ∉ t ∧ 10 ∉ t)
      ∧ ofText (targetSection t (ascii "libc") (ascii "0.2") ++ [10])
        ≠ { dependencies := [{ name := ascii "libc", target := t, version := ascii "0.2" }] } := by
  intro t
  have ht : 39 ∉ t ∧ 10 ∉ t := by decide
  refine ⟨ht, ?_⟩
  rw [ofText_of_not_legible ht (by decide) (Bytes.forall_mem_of_all (by decide)) (ascii "0.2")
    (.inr rfl)]
  simp

end Manifest

end AnalyzerBridge

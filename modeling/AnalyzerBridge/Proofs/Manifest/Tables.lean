/-
Names of tables and the tables they stand for.

A name is taken apart at its dots, but not at those of a target, which stands in quotes.  So a
table that is named for a dependency is found to be of its kind and for its target, and if a name
stands behind, to be about the dependency of that name.
-/
import AnalyzerBridge.Proofs.Bytes
import AnalyzerBridge.Proofs.Manifest.Spelling

namespace AnalyzerBridge

/-! ### Words between dots -/

/-- A text without quotes and dots is one word. -/
theorem sectionWords_of_word {w : Bytes} (h : ∀ b ∈ w, b ≠ 34 ∧ b ≠ 39 ∧ b ≠ 46) :
    sectionWords none w = (w, []) := by
  induction w with
  | nil => rfl
  | cons b rest ih =>
      have hb := h b List.mem_cons_self
      have hrest := ih fun c hc => h c (List.mem_cons_of_mem _ hc)
      simp [sectionWords, hb, hrest]

/-- A text without quotes and dots in front of a dot is the first word. -/
theorem sectionWords_append_dot {w : Bytes} (h : ∀ b ∈ w, b ≠ 34 ∧ b ≠ 39 ∧ b ≠ 46) (rest : Bytes) :
    sectionWords none (w ++ 46 :: rest)
      = (w, (sectionWords none rest).1 :: (sectionWords none rest).2) := by
  induction w with
  | nil => simp [sectionWords]
  | cons b w ih =>
      have hb := h b List.mem_cons_self
      have hrest := ih fun c hc => h c (List.mem_cons_of_mem _ hc)
      simp [sectionWords, hb, hrest]

/-- A text between single quotes in front of a dot is the first word, whatever is in it. -/
theorem sectionWords_quoted_dot {t : Bytes} (h : 39 ∉ t) (rest : Bytes) :
    sectionWords none (39 :: (t ++ 39 :: 46 :: rest))
      = (t, (sectionWords none rest).1 :: (sectionWords none rest).2) := by
  have hinside : sectionWords (some 39) (t ++ 39 :: 46 :: rest)
      = (t, (sectionWords none rest).1 :: (sectionWords none rest).2) := by
    induction t with
    | nil => simp [sectionWords]
    | cons b t ih =>
        rw [List.mem_cons, not_or] at h
        simp [sectionWords, Ne.symm h.1, ih h.2]
  simpa [sectionWords] using hinside

/-! ### Tables -/

theorem facts_of_isDependencyByte {b : UInt8} : isDependencyByte b = true →
    Toml.isKeyByte b = true ∧ b ≠ 34 ∧ b ≠ 39 ∧ b ≠ 46 :=
  Bytes.forall_byte (P := fun b => isDependencyByte b = true →
    Toml.isKeyByte b = true ∧ b ≠ 34 ∧ b ≠ 39 ∧ b ≠ 46) (by decide +kernel) b

variable {kind : DependencyKind} {word : Bytes}

theorem DependencyKind.ofTable?_word (h : word ∈ kind.words) : ofTable? word = some kind := by
  cases kind <;> simp only [words, List.mem_cons, List.not_mem_nil, or_false] at h <;>
    rcases h with rfl | rfl <;> decide

/-- The words that name a table look like the names of dependencies. -/
theorem DependencyKind.isDependencyByte_of_mem_word (h : word ∈ kind.words) :
    ∀ b ∈ word, isDependencyByte b = true := by
  have hall : kind.words.all (fun word => word.all isDependencyByte) = true := by
    cases kind <;> decide
  exact List.all_eq_true.mp (List.all_eq_true.mp hall word h)

theorem DependencyKind.facts_of_mem_word (h : word ∈ kind.words) :
    ∀ b ∈ word, b ≠ 34 ∧ b ≠ 39 ∧ b ≠ 46 := fun b hb =>
  (facts_of_isDependencyByte (isDependencyByte_of_mem_word h b hb)).2

/-- The words that name a table start with a `b` or a `d`. -/
theorem DependencyKind.exists_cons_of_mem_words (h : word ∈ kind.words) :
    ∃ b t, word = b :: t ∧ (b = 98 ∨ b = 100) := by
  cases kind <;> simp only [words, List.mem_cons, List.not_mem_nil, or_false] at h <;>
    rcases h with rfl | rfl
  all_goals exact ⟨_, _, rfl, by decide⟩

/-- What stands in front of the word, if anything, starts with a `t`. -/
theorem TargetWritten.eq_nil_or {target front : Bytes} (h : TargetWritten target front) :
    front = [] ∨ ∃ t, front = 116 :: t := by
  cases h with
  | none => exact .inl rfl
  | quoted =>
      have hopen : ascii "target.'" = 116 :: ascii "arget.'" := by decide
      exact .inr ⟨_, by rw [hopen]; rfl⟩

namespace DependencyTable

theorem ofWords?_word (target : Bytes) (h : word ∈ kind.words) :
    ofWords? target word [] = some ⟨kind, target, []⟩ := by
  simp only [ofWords?, DependencyKind.ofTable?_word h]

theorem ofWords?_word_name (target : Bytes) (h : word ∈ kind.words) (name : Bytes) :
    ofWords? target word [name] = some ⟨kind, target, name⟩ := by
  simp only [ofWords?, DependencyKind.ofTable?_word h]

/-- Behind a target, or with none, a section is classified by its words. -/
theorem ofSection?_append {target front : Bytes} (h : TargetWritten target front)
    (hquote : 39 ∉ target) {rest first : Bytes} {more : List Bytes}
    (hrest : sectionWords none rest = (first, more)) (hmore : more.length ≤ 1) :
    ofSection? (front ++ rest) = ofWords? target first more := by
  cases h with
  | none =>
      match more, hmore with
      | [], _ => simp [ofSection?, hrest]
      | [name], _ => simp [ofSection?, hrest]
  | quoted =>
      have hopen : ascii "target.'" = ascii "target" ++ [46, 39] := by decide
      have hclose : ascii "'." = [39, 46] := by decide
      have hfront : ascii "target.'" ++ target ++ ascii "'." ++ rest
          = ascii "target" ++ 46 :: (39 :: (target ++ 39 :: 46 :: rest)) := by
        simp [hopen, hclose]
      have hbytes : (ascii "target").all isDependencyByte = true := by decide
      have hwords := sectionWords_append_dot (w := ascii "target")
        (fun b hb => (facts_of_isDependencyByte (List.all_eq_true.mp hbytes b hb)).2)
        (39 :: (target ++ 39 :: 46 :: rest))
      rw [sectionWords_quoted_dot hquote, hrest] at hwords
      simp only [hfront, ofSection?, hwords, if_true]

end DependencyTable

namespace Dependency.TableNamed

variable {d : Dependency} {table : Bytes}

/-- A table that is named for a dependency is one for its kind and target. -/
theorem ofSection? (h : d.TableNamed table) (hquote : 39 ∉ d.target) :
    DependencyTable.ofSection? table = some ⟨d.kind, d.target, []⟩ := by
  cases h with
  | mk written ofKind =>
      have hword := sectionWords_of_word (DependencyKind.facts_of_mem_word ofKind)
      rw [DependencyTable.ofSection?_append written hquote hword (by simp),
        DependencyTable.ofWords?_word _ ofKind]

/-- A table with the name of a dependency behind that is about this dependency. -/
theorem ofSection?_own (h : d.TableNamed table) (hquote : 39 ∉ d.target)
    (hname : ∀ b ∈ d.name, isDependencyByte b = true) :
    DependencyTable.ofSection? (table ++ 46 :: d.name) = some ⟨d.kind, d.target, d.name⟩ := by
  cases h with
  | @mk front word written ofKind =>
      have hwords := sectionWords_append_dot (DependencyKind.facts_of_mem_word ofKind) d.name
      rw [sectionWords_of_word fun b hb => (facts_of_isDependencyByte (hname b hb)).2] at hwords
      rw [List.append_assoc, DependencyTable.ofSection?_append written hquote hwords (by simp),
        DependencyTable.ofWords?_word_name _ ofKind]

/-- The name starts like that of no other section. -/
theorem exists_cons (h : d.TableNamed table) :
    ∃ b t, table = b :: t ∧ (b = 98 ∨ b = 100 ∨ b = 116) := by
  cases h with
  | @mk front word written ofKind =>
      obtain ⟨b, t, rfl, hb⟩ := DependencyKind.exists_cons_of_mem_words ofKind
      rcases written.eq_nil_or with rfl | ⟨u, rfl⟩
      · exact ⟨b, t, rfl, by tauto⟩
      · exact ⟨116, u ++ b :: t, rfl, by decide⟩

/-- The name is not that of another section. -/
theorem ne_section (h : d.TableNamed table) (rest : Bytes) :
    table ++ rest ≠ ascii "package" ∧ table ++ rest ≠ ascii "workspace"
      ∧ table ++ rest ≠ ascii "features" := by
  obtain ⟨b, t, rfl, hb⟩ := h.exists_cons
  have hfirst : ∀ c s, b ≠ c → b :: t ++ rest ≠ c :: s := by
    rintro c s hne heq
    exact hne (List.cons_eq_cons.mp heq).1
  refine ⟨hfirst 112 (ascii "ackage") ?_, hfirst 119 (ascii "orkspace") ?_,
    hfirst 102 (ascii "eatures") ?_⟩
  all_goals rcases hb with rfl | rfl | rfl <;> decide

end Dependency.TableNamed

end AnalyzerBridge

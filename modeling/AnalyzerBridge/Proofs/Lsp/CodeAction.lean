/-
Kinds of code actions are paths of words.

A kind is looked at byte by byte: it has to start with the wanted one, and then end or go on with a
dot.  That is the same as to say that its words, those between the dots, start with the words of the
wanted kind, and this holds of any bytes, words without letters and dots at the ends included.  What
one expects of a hierarchy follows from what prefixes do: a kind refines itself, what refines in
turn refines, and two kinds that one action refines are one above the other.  The four built-in
wishes ask for kinds of which none is above another.
-/
import Mathlib.Data.List.Nodup
import AnalyzerBridge.Lsp.CodeAction
import AnalyzerBridge.Proofs.Bytes.Pieces

namespace AnalyzerBridge.Lsp

/-- The words of a kind, which stand between its dots. -/
def components (kind : Bytes) : List Bytes := Bytes.splitOn 46 kind

variable {kind wanted : Bytes}

/-! ### The hierarchy -/

/-- The byte behind the wanted kind decides. -/
theorem kindMatches_iff_append (h : wanted ≠ []) :
    kindMatches kind wanted = true ↔ kind = wanted ∨ ∃ rest, kind = wanted ++ 46 :: rest := by
  rw [kindMatches, List.isEmpty_eq_false_iff.mpr h, Bool.false_or, Bool.and_eq_true,
    List.isPrefixOf_iff_prefix]
  constructor
  · rintro ⟨⟨rest, rfl⟩, hnext⟩
    rw [List.drop_left] at hnext
    cases rest with
    | nil => exact .inl (List.append_nil _)
    | cons b rest =>
        obtain rfl : b = 46 := by simpa using hnext
        exact .inr ⟨rest, rfl⟩
  · rintro (rfl | ⟨rest, rfl⟩)
    · exact ⟨List.prefix_refl _, by rw [List.drop_length]⟩
    · exact ⟨List.prefix_append _ _, by rw [List.drop_left]; rfl⟩

/-- **Kinds are compared word by word.** -/
theorem kindMatches_iff (h : wanted ≠ []) :
    kindMatches kind wanted = true ↔ components wanted <+: components kind := by
  rw [kindMatches_iff_append h, components, components, Bytes.splitOn_prefix_splitOn_iff]

theorem kindMatches_refl (h : kind ≠ []) : kindMatches kind kind = true :=
  (kindMatches_iff h).mpr (List.prefix_refl _)

theorem kindMatches_trans {narrow middle wide : Bytes} (hmiddle : middle ≠ []) (hwide : wide ≠ [])
    (h : kindMatches narrow middle = true) (h' : kindMatches middle wide = true) :
    kindMatches narrow wide = true := by
  rw [kindMatches_iff hmiddle] at h
  rw [kindMatches_iff hwide] at h' ⊢
  exact h'.trans h

theorem kindMatches_antisymm {a b : Bytes} (ha : a ≠ []) (hb : b ≠ [])
    (h : kindMatches a b = true) (h' : kindMatches b a = true) : a = b := by
  rw [kindMatches_iff hb] at h
  rw [kindMatches_iff ha] at h'
  have hlength : (components a).length = (components b).length :=
    Nat.le_antisymm h'.length_le h.length_le
  exact Bytes.splitOn_injective 46 (h'.eq_of_length hlength)

/-- Two kinds that a third one refines are one above the other. -/
theorem kindMatches_or_of_common {a b : Bytes} (ha : a ≠ []) (hb : b ≠ [])
    (h : kindMatches kind a = true) (h' : kindMatches kind b = true) :
    kindMatches a b = true ∨ kindMatches b a = true := by
  rw [kindMatches_iff ha] at h
  rw [kindMatches_iff hb] at h'
  rw [kindMatches_iff ha, kindMatches_iff hb]
  exact List.prefix_or_prefix_of_prefix h' h

/-! ### The built-in wishes -/

/-- The wishes that the bridge itself has. -/
def Matcher.builtIn : List Matcher := [extract, inlining, changeSignature, organizeImports]

theorem Matcher.kind_ne_nil_of_builtIn {m : Matcher} (h : m ∈ builtIn) : m.kind ≠ [] := by
  revert m
  decide

/-- None of them asks for a kind above that of another. -/
theorem Matcher.eq_of_kindMatches {m : Matcher} (h : m ∈ builtIn) {m' : Matcher}
    (h' : m' ∈ builtIn) (hkind : kindMatches m.kind m'.kind = true) : m = m' := by
  have hall : ∀ m ∈ builtIn, ∀ m' ∈ builtIn, kindMatches m.kind m'.kind = true → m = m' := by decide
  exact hall m h m' h' hkind

/-- An action that has a kind is accepted by its kind or not at all. -/
theorem CodeAction.isSome_matchedBy {action : CodeAction} (hkind : action.kind = some kind)
    (hne : kind ≠ []) (m : Matcher) :
    (action.matchedBy m).isSome = kindMatches kind m.kind := by
  obtain ⟨b, rest, rfl⟩ := List.exists_cons_of_ne_nil hne
  rw [matchedBy, hkind]
  dsimp only
  cases kindMatches (b :: rest) m.kind <;> rfl

theorem CodeAction.eq_of_isSome_matchedBy {action : CodeAction} (hkind : action.kind = some kind)
    (hne : kind ≠ []) {m m' : Matcher} (hm : m ∈ Matcher.builtIn) (hm' : m' ∈ Matcher.builtIn)
    (h : (action.matchedBy m).isSome = true) (h' : (action.matchedBy m').isSome = true) :
    m = m' := by
  rw [isSome_matchedBy hkind hne] at h h'
  rcases kindMatches_or_of_common (Matcher.kind_ne_nil_of_builtIn hm)
    (Matcher.kind_ne_nil_of_builtIn hm') h h' with habove | hbelow
  · exact Matcher.eq_of_kindMatches hm hm' habove
  · exact (Matcher.eq_of_kindMatches hm' hm hbelow).symm

/-- The wishes that accept an action with a kind are one at most. -/
theorem CodeAction.length_accepting_le_one {action : CodeAction} (hkind : action.kind = some kind)
    (hne : kind ≠ []) :
    (Matcher.builtIn.filter fun m => (action.matchedBy m).isSome).length ≤ 1 := by
  have hnodup : (Matcher.builtIn.filter fun m => (action.matchedBy m).isSome).Nodup :=
    List.Nodup.filter _ (by decide)
  have hsame : ∀ m ∈ Matcher.builtIn.filter fun m => (action.matchedBy m).isSome,
      ∀ m' ∈ Matcher.builtIn.filter fun m => (action.matchedBy m).isSome, m = m' := by
    intro m hm m' hm'
    obtain ⟨hin, haccepts⟩ := List.mem_filter.mp hm
    obtain ⟨hin', haccepts'⟩ := List.mem_filter.mp hm'
    exact eq_of_isSome_matchedBy hkind hne hin hin' haccepts haccepts'
  generalize Matcher.builtIn.filter _ = accepting at hnodup hsame
  match accepting with
  | [] => exact Nat.zero_le _
  | [_] => exact Nat.le_refl _
  | m :: m' :: _ =>
    obtain rfl : m = m' := hsame m (by simp) m' (by simp)
    simp at hnodup

/--
**Kinds match by their words.**

A kind matches a wanted one that is not empty exactly if the words of the wanted kind are the first
words of the kind.  On kinds that are not empty this is a partial order.  An action that has a kind,
whatever its title, is accepted by at most one of the four built-in wishes.
-/
theorem kinds_match_by_components :
    (∀ kind wanted : Bytes, wanted ≠ [] →
        (kindMatches kind wanted = true ↔ components wanted <+: components kind))
      ∧ (∀ kind : Bytes, kind ≠ [] → kindMatches kind kind = true)
      ∧ (∀ narrow middle wide : Bytes, narrow ≠ [] → middle ≠ [] → wide ≠ [] →
          kindMatches narrow middle = true → kindMatches middle wide = true →
            kindMatches narrow wide = true)
      ∧ (∀ a b : Bytes, a ≠ [] → b ≠ [] → kindMatches a b = true → kindMatches b a = true → a = b)
      ∧ ∀ (action : CodeAction) (kind : Bytes), action.kind = some kind → kind ≠ [] →
          (Matcher.builtIn.filter fun m => (action.matchedBy m).isSome).length ≤ 1 :=
  ⟨fun _ _ h => kindMatches_iff h, fun _ h => kindMatches_refl h,
    fun _ _ _ _ hmiddle hwide h h' => kindMatches_trans hmiddle hwide h h',
    fun _ _ ha hb h h' => kindMatches_antisymm ha hb h h',
    fun _ _ hkind hne => CodeAction.length_accepting_le_one hkind hne⟩

/-- A kind with an empty word at its end, and an action whose title speaks of other wishes. -/
theorem kinds_match_by_components_of_inlining :
    let wanted := ascii "refactor.inline"
    let kind := ascii "refactor.inline."
    let action : CodeAction := ⟨ascii "Extract the imports", some kind⟩
    wanted ≠ [] ∧ kind ≠ [] ∧ kindMatches kind wanted = true ∧ components wanted <+: components kind
      ∧ kindMatches wanted kind = false
      ∧ (Matcher.builtIn.filter fun m => (action.matchedBy m).isSome).length ≤ 1 := by
  intro wanted kind action
  obtain ⟨hwords, -, -, hantisymm, hone⟩ := kinds_match_by_components
  have hmatches : kindMatches kind wanted = true := by decide
  have hback : kindMatches wanted kind ≠ true := fun h =>
    absurd (hantisymm wanted kind (by decide) (by decide) h hmatches) (by decide)
  exact ⟨by decide, by decide, hmatches, (hwords kind wanted (by decide)).mp hmatches,
    Bool.eq_false_iff.mpr hback, hone action kind rfl (by decide)⟩

end AnalyzerBridge.Lsp

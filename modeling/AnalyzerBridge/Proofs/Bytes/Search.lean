/-
A search without regard to case is a search in the lower-case text.

The search walks the places where the query still fits and compares bytes in place.  It finds a
query exactly if the lower-case query is a stretch of the lower-case text.  One comparison is an
induction on the query and says that the one is a prefix of the other; the walk is an induction on
the places; and a stretch is a prefix of what is left at some place, which leaves room for it.

That case does not matter follows from this one equivalence, since texts that differ only in the
case of letters are those with the same lower-case form.
-/
import Mathlib.Data.List.Forall2
import AnalyzerBridge.Bytes.Search
import AnalyzerBridge.Proofs.Bytes

namespace AnalyzerBridge.Bytes

/-! ### Texts that differ in case -/

/-- Two bytes that are equal, or one letter in its two cases. -/
def SameLetter (a b : UInt8) : Prop :=
  a = b ∨ (isUpper a = true ∧ b = a + 32) ∨ (isUpper b = true ∧ a = b + 32)

/-- Two texts that differ in nothing but the case of letters. -/
def Recased (s t : Bytes) : Prop := List.Forall₂ SameLetter s t

/-- A letter and its lower-case form have the same lower-case form. -/
theorem lower_add {b : UInt8} : isUpper b = true → lower (b + 32) = lower b :=
  forall_byte (P := fun b => isUpper b = true → lower (b + 32) = lower b) (by decide +kernel) b

theorem lower_eq_lower_iff {a b : UInt8} : lower a = lower b ↔ SameLetter a b := by
  constructor
  · intro h
    by_cases ha : isUpper a = true
    · by_cases hb : isUpper b = true
      · rw [lower, lower, if_pos ha, if_pos hb, UInt8.add_left_inj] at h
        exact .inl h
      · rw [lower, lower, if_pos ha, if_neg hb] at h
        exact .inr (.inl ⟨ha, h.symm⟩)
    · by_cases hb : isUpper b = true
      · rw [lower, lower, if_neg ha, if_pos hb] at h
        exact .inr (.inr ⟨hb, h⟩)
      · rw [lower, lower, if_neg ha, if_neg hb] at h
        exact .inl h
  · rintro (rfl | ⟨ha, rfl⟩ | ⟨hb, rfl⟩)
    · rfl
    · exact (lower_add ha).symm
    · exact lower_add hb

/-- **Texts that differ only in case are those with the same lower-case form.** -/
theorem lowercase_eq_lowercase_iff {s t : Bytes} : lowercase s = lowercase t ↔ Recased s t := by
  rw [lowercase, lowercase, ← List.forall₂_eq_eq_eq, List.forall₂_map_left_iff,
    List.forall₂_map_right_iff]
  simp only [lower_eq_lower_iff]
  rfl

instance (s t : Bytes) : Decidable (Recased s t) := decidable_of_iff _ lowercase_eq_lowercase_iff

theorem Recased.refl (s : Bytes) : Recased s s := lowercase_eq_lowercase_iff.mp rfl

theorem Recased.isEmpty_eq {s t : Bytes} (h : Recased s t) : s.isEmpty = t.isEmpty := by
  cases h with
  | nil => rfl
  | cons _ _ => rfl

/-! ### Lower case, place by place -/

@[simp] theorem lowercase_nil : lowercase [] = [] := rfl

@[simp] theorem lowercase_cons (b : UInt8) (s : Bytes) :
    lowercase (b :: s) = lower b :: lowercase s := rfl

@[simp] theorem length_lowercase (s : Bytes) : (lowercase s).length = s.length :=
  List.length_map lower

theorem lowercase_drop (s : Bytes) (n : Nat) : lowercase (s.drop n) = (lowercase s).drop n :=
  List.map_drop

/-- A stretch of a text stands at some place that leaves room for it. -/
theorem lowercase_infix_iff {query text : Bytes} :
    lowercase query <:+: lowercase text
      ↔ ∃ i, i + query.length ≤ text.length ∧ lowercase query <+: lowercase (text.drop i) := by
  simp only [lowercase_drop]
  rw [List.infix_iff_prefix_suffix]
  constructor
  · rintro ⟨rest, hquery, hrest⟩
    have hroom := hquery.length_le
    have hfits := hrest.length_le
    rw [length_lowercase] at hroom hfits
    refine ⟨text.length - rest.length, by omega, ?_⟩
    rw [← length_lowercase text, ← List.suffix_iff_eq_drop.mp hrest]
    exact hquery
  · rintro ⟨i, -, hquery⟩
    exact ⟨_, hquery, List.drop_suffix i _⟩

/-! ### The search -/

theorem startsWithFolded_iff {text query : Bytes} :
    startsWithFolded text query = true ↔ lowercase query <+: lowercase text := by
  induction query generalizing text with
  | nil => simp [startsWithFolded]
  | cons q query ih =>
      cases text with
      | nil => simp [startsWithFolded]
      | cons b text =>
          rw [startsWithFolded, Bool.and_eq_true, beq_iff_eq, ih, lowercase_cons, lowercase_cons,
            List.cons_prefix_cons, eq_comm]

/-- An opening is looked for in lower case as well, and is never empty. -/
theorem hasOpeningIgnoringCase_iff {text opening : Bytes} :
    hasOpeningIgnoringCase text opening = true
      ↔ opening ≠ [] ∧ lowercase opening <+: lowercase text := by
  rw [hasOpeningIgnoringCase, Bool.and_eq_true, startsWithFolded_iff]
  simp

theorem occursWithin_iff {query text : Bytes} {places : Nat} :
    occursWithin query places text = true
      ↔ ∃ i < places, startsWithFolded (text.drop i) query = true := by
  induction places generalizing text with
  | zero => simp [occursWithin]
  | succ places ih =>
      rw [occursWithin, Bool.or_eq_true, ih, Nat.exists_lt_succ_left]
      simp only [List.drop_zero, List.drop_drop, Nat.add_comm 1]

/-- A query is found if it is empty or opens what is left of the text at a place where it fits. -/
theorem containsIgnoringCase_iff_exists_opening {text query : Bytes} :
    containsIgnoringCase text query = true
      ↔ query = [] ∨ ∃ i, i + query.length ≤ text.length
          ∧ hasOpeningIgnoringCase (text.drop i) query = true := by
  have hplace : ∀ i, i < text.length + 1 - query.length ↔ i + query.length ≤ text.length := by
    intro i
    omega
  rw [containsIgnoringCase, occursWithin_iff]
  by_cases hquery : query = []
  · -- The empty query is found at the first place, and no opening is empty.
    subst hquery
    exact iff_of_true ⟨0, Nat.succ_pos _, by rw [startsWithFolded]⟩ (.inl rfl)
  · simp only [hplace, hasOpeningIgnoringCase, List.isEmpty_eq_false_iff.mpr hquery, hquery,
      false_or, Bool.not_false, Bool.true_and]

/-- **A query is found exactly if it is a stretch of the text, both in lower case.** -/
theorem containsIgnoringCase_iff {text query : Bytes} :
    containsIgnoringCase text query = true ↔ lowercase query <:+: lowercase text := by
  rw [containsIgnoringCase_iff_exists_opening, lowercase_infix_iff]
  by_cases hquery : query = []
  · subst hquery
    exact iff_of_true (.inl rfl) ⟨0, Nat.zero_le _, List.nil_prefix⟩
  · simp only [hasOpeningIgnoringCase_iff, ne_eq, hquery, not_false_eq_true, true_and, false_or]

/-- Only letters of seven-bit text have two cases. -/
example : containsIgnoringCase (ascii "Inline") (ascii "LINE") = true
    ∧ containsIgnoringCase [0xC9] [0xE9] = false := by decide

/-- The search does not see the case of either text. -/
theorem containsIgnoringCase_of_recased {text text' query query' : Bytes}
    (htext : Recased text text') (hquery : Recased query query') :
    containsIgnoringCase text query = containsIgnoringCase text' query' := by
  rw [Bool.eq_iff_iff, containsIgnoringCase_iff, containsIgnoringCase_iff,
    lowercase_eq_lowercase_iff.mpr htext, lowercase_eq_lowercase_iff.mpr hquery]

end AnalyzerBridge.Bytes

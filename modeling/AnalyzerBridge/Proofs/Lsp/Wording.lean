/-
Titles and messages are judged by their words, in whatever case.

An action without a kind is judged by its title, and a diagnostic without a telling code by its
message.  Both look for words by the search without regard to case, so a word counts exactly if it
is a stretch of the lower-case text.  Spelling titles, messages or words in another case changes no
verdict; the codes of diagnostics are not words and keep their case.
-/
import AnalyzerBridge.Lsp.CodeAction
import AnalyzerBridge.Lsp.Diagnostic
import AnalyzerBridge.Proofs.Bytes.Search

namespace AnalyzerBridge.Lsp

open Bytes (Recased containsIgnoringCase lowercase)

/-! ### Titles -/

variable {title title' : Bytes} {keywords keywords' : List Bytes}

theorem titleMatches_cons (title keyword : Bytes) (keywords : List Bytes) :
    titleMatches title (keyword :: keywords)
      = (!keyword.isEmpty && containsIgnoringCase title keyword || titleMatches title keywords) :=
  rfl

/-- **A title matches by a keyword with something in it that is a stretch of it, in lower case.** -/
theorem titleMatches_iff :
    titleMatches title keywords = true
      ↔ ∃ keyword ∈ keywords, keyword ≠ [] ∧ lowercase keyword <:+: lowercase title := by
  simp only [titleMatches, List.any_eq_true, Bool.and_eq_true, Bool.not_eq_true',
    List.isEmpty_eq_false_iff, Bytes.containsIgnoringCase_iff]

theorem titleMatches_of_recased (htitle : Recased title title')
    (hkeywords : List.Forall₂ Recased keywords keywords') :
    titleMatches title keywords = titleMatches title' keywords' := by
  induction hkeywords with
  | nil => rfl
  | cons hkeyword _ ih =>
      rw [titleMatches_cons, titleMatches_cons, ih, hkeyword.isEmpty_eq,
        Bytes.containsIgnoringCase_of_recased htitle hkeyword]

/-! ### Messages -/

namespace Diagnostic

variable {message message' : Bytes}

/-- **A message speaks of lifetimes by one of two words that are a stretch of it, in lower case.** -/
theorem speaksOfLifetimes_iff :
    speaksOfLifetimes message = true
      ↔ ascii "lifetime" <:+: lowercase message ∨ ascii "borrow" <:+: lowercase message := by
  have hlifetime : lowercase (ascii "lifetime") = ascii "lifetime" := by decide
  have hborrow : lowercase (ascii "borrow") = ascii "borrow" := by decide
  rw [speaksOfLifetimes, Bool.or_eq_true, Bytes.containsIgnoringCase_iff,
    Bytes.containsIgnoringCase_iff, hlifetime, hborrow]

/-- The two words may be spelled in any case, and so may the message. -/
theorem speaksOfLifetimes_of_recased {lifetime borrow : Bytes} (hmessage : Recased message message')
    (hlifetime : Recased (ascii "lifetime") lifetime) (hborrow : Recased (ascii "borrow") borrow) :
    speaksOfLifetimes message
      = (containsIgnoringCase message' lifetime || containsIgnoringCase message' borrow) := by
  rw [speaksOfLifetimes, Bytes.containsIgnoringCase_of_recased hmessage hlifetime,
    Bytes.containsIgnoringCase_of_recased hmessage hborrow]

theorem isAboutLifetimes_of_recased {d d' : Diagnostic} (hcode : d.code = d'.code)
    (hmessage : Recased d.message d'.message) : d.isAboutLifetimes = d'.isAboutLifetimes := by
  have hwords := speaksOfLifetimes_of_recased hmessage (Bytes.Recased.refl _) (Bytes.Recased.refl _)
  rw [isAboutLifetimes, isAboutLifetimes, hcode, hwords, speaksOfLifetimes]

end Diagnostic

/-! ### Any case -/

/--
**Words are found as in lower case, and no verdict depends on case.**

A query is found in a text exactly if its lower-case form is a stretch of that of the text, and the
empty query is found everywhere.  A title matches by those of the keywords that are not empty, and a
message speaks of lifetimes by the one word or the other.  Texts that differ only in the case of
letters, which are those with the same lower-case form, are judged alike: titles with keywords, each
in any case, and messages with the two words, each in any case.
-/
theorem words_found_in_any_case :
    (∀ text query : Bytes,
        containsIgnoringCase text query = true ↔ lowercase query <:+: lowercase text)
      ∧ (∀ text : Bytes, containsIgnoringCase text [] = true)
      ∧ (∀ (title : Bytes) (keywords : List Bytes), titleMatches title keywords = true
          ↔ ∃ keyword ∈ keywords, keyword ≠ [] ∧ lowercase keyword <:+: lowercase title)
      ∧ (∀ message : Bytes, Diagnostic.speaksOfLifetimes message = true
          ↔ ascii "lifetime" <:+: lowercase message ∨ ascii "borrow" <:+: lowercase message)
      ∧ (∀ s t : Bytes, Recased s t ↔ lowercase s = lowercase t)
      ∧ (∀ (title title' : Bytes) (keywords keywords' : List Bytes), Recased title title' →
          List.Forall₂ Recased keywords keywords' →
            titleMatches title keywords = titleMatches title' keywords')
      ∧ (∀ message message' lifetime borrow : Bytes, Recased message message' →
          Recased (ascii "lifetime") lifetime → Recased (ascii "borrow") borrow →
            Diagnostic.speaksOfLifetimes message
              = (containsIgnoringCase message' lifetime || containsIgnoringCase message' borrow))
      ∧ ∀ d d' : Diagnostic, d.code = d'.code → Recased d.message d'.message →
          d.isAboutLifetimes = d'.isAboutLifetimes :=
  ⟨fun _ _ => Bytes.containsIgnoringCase_iff,
    fun _ => Bytes.containsIgnoringCase_iff.mpr List.nil_infix,
    fun _ _ => titleMatches_iff,
    fun _ => Diagnostic.speaksOfLifetimes_iff,
    fun _ _ => Bytes.lowercase_eq_lowercase_iff.symm,
    fun _ _ _ _ htitle hkeywords => titleMatches_of_recased htitle hkeywords,
    fun _ _ _ _ hmessage hlifetime hborrow =>
      Diagnostic.speaksOfLifetimes_of_recased hmessage hlifetime hborrow,
    fun _ _ hcode hmessage => Diagnostic.isAboutLifetimes_of_recased hcode hmessage⟩

/-- A keyword at the very end of a title, beside one that says nothing, and a word inside another. -/
theorem words_found_in_any_case_at_the_end :
    let title := ascii "Extract Into Function"
    let title' := ascii "eXTRACT iNTO fUNCTION"
    let keywords := [[], ascii "into function"]
    let keywords' := [[], ascii "INTO Function"]
    let d : Diagnostic := ⟨[], ascii "value reBorrowed here"⟩
    let d' : Diagnostic := ⟨[], ascii "Value REBORROWED here"⟩
    (Recased title title' ∧ List.Forall₂ Recased keywords keywords'
        ∧ titleMatches title keywords = true ∧ titleMatches title' keywords' = true)
      ∧ d.code = d'.code ∧ Recased d.message d'.message
      ∧ Recased (ascii "lifetime") (ascii "LifeTime") ∧ Recased (ascii "borrow") (ascii "BORROW")
      ∧ d.isAboutLifetimes = true ∧ d'.isAboutLifetimes = true
      ∧ (containsIgnoringCase d'.message (ascii "LifeTime")
          || containsIgnoringCase d'.message (ascii "BORROW")) = true := by
  intro title title' keywords keywords' d d'
  obtain ⟨-, -, htitles, hspeaks, -, hsame, hwords, hdiagnostics⟩ := words_found_in_any_case
  have htitle : Recased title title' := by decide
  have hkeywords : List.Forall₂ Recased keywords keywords' :=
    .cons (by decide) (.cons (by decide) .nil)
  have hmessage : Recased d.message d'.message := by decide
  have hlifetime : Recased (ascii "lifetime") (ascii "LifeTime") := by decide
  have hborrow : Recased (ascii "borrow") (ascii "BORROW") := by decide
  have hmatches : titleMatches title keywords = true :=
    (htitles title keywords).mpr ⟨ascii "into function", by decide, by decide,
      ascii "extract ", [], by decide⟩
  have hspoken : Diagnostic.speaksOfLifetimes d.message = true :=
    (hspeaks d.message).mpr (.inr ⟨ascii "value re", ascii "ed here", by decide⟩)
  have habout : d.isAboutLifetimes = true := by
    rw [Diagnostic.isAboutLifetimes, hspoken, Bool.or_true]
  refine ⟨⟨htitle, hkeywords, hmatches, ?_⟩, rfl, hmessage, hlifetime, hborrow, habout, ?_, ?_⟩
  · rw [← hsame title title' keywords keywords' htitle hkeywords]
    exact hmatches
  · rw [← hdiagnostics d d' rfl hmessage]
    exact habout
  · rw [← hwords d.message d'.message _ _ hmessage hlifetime hborrow]
    exact hspoken

end AnalyzerBridge.Lsp

/-
The lines of a text.

A text is cut behind every line feed, so a text that ends with a line feed has nothing open, and
what is put behind it adds lines of its own.
-/
import AnalyzerBridge.Bytes

namespace AnalyzerBridge.Bytes

theorem lines_append {line : Bytes} (h : 10 ∉ line) (rest : Bytes) :
    lines (line ++ 10 :: rest) = line :: lines rest := by
  induction line with
  | nil => simp [lines]
  | cons b line ih =>
      rw [List.mem_cons, not_or] at h
      rw [List.cons_append, lines, if_neg (Ne.symm h.1), ih h.2]

theorem lines_of_not_mem {line : Bytes} (h : 10 ∉ line) (hne : line ≠ []) :
    lines line = [line] := by
  induction line with
  | nil => exact absurd rfl hne
  | cons b line ih =>
      rw [List.mem_cons, not_or] at h
      rw [lines, if_neg (Ne.symm h.1)]
      cases line with
      | nil => rfl
      | cons c rest => rw [ih h.2 (by simp)]

theorem lines_ne_nil {s : Bytes} (h : s ≠ []) : lines s ≠ [] := by
  cases s with
  | nil => exact absurd rfl h
  | cons b rest =>
      unfold lines
      split
      · exact List.cons_ne_nil _ _
      · split
        · exact List.cons_ne_nil _ _
        · exact List.cons_ne_nil _ _

theorem lines_append_of_getLast? {front : Bytes} (h : front = [] ∨ front.getLast? = some 10)
    (rest : Bytes) : lines (front ++ rest) = lines front ++ lines rest := by
  induction front with
  | nil => rfl
  | cons b front ih =>
      have hlast : (b :: front).getLast? = some 10 := h.resolve_left (List.cons_ne_nil b front)
      by_cases hnil : front = []
      · subst hnil
        have hb : b = 10 := by simpa using hlast
        simp [lines, hb]
      · -- The tail ends with the same byte, and `b` joins the first of its lines or ends its own.
        rw [List.getLast?_cons_of_ne_nil hnil] at hlast
        rw [List.cons_append, lines, lines, ih (.inr hlast)]
        by_cases hb : b = 10
        · rw [if_pos hb, if_pos hb, List.cons_append]
        · obtain ⟨line, more, hlines⟩ := List.exists_cons_of_ne_nil (lines_ne_nil hnil)
          rw [if_neg hb, if_neg hb, hlines]
          rfl

/-- A line feed behind a text ends its last line, or else adds an empty one. -/
theorem lines_append_feed (s : Bytes) :
    ∃ more, (more = [] ∨ more = [[]]) ∧ lines (s ++ [10]) = lines s ++ more := by
  induction s with
  | nil => exact ⟨[[]], .inr rfl, rfl⟩
  | cons b rest ih =>
      obtain ⟨more, hmore, hlines⟩ := ih
      by_cases hb : b = 10
      · refine ⟨more, hmore, ?_⟩
        rw [List.cons_append, lines, lines, if_pos hb, if_pos hb, hlines, List.cons_append]
      · cases rest with
        | nil => exact ⟨[], .inl rfl, by simp [lines, hb]⟩
        | cons c rest =>
            obtain ⟨line, others, hrest⟩ :=
              List.exists_cons_of_ne_nil (lines_ne_nil (List.cons_ne_nil c rest))
            refine ⟨more, hmore, ?_⟩
            rw [List.cons_append, lines, lines, if_neg hb, if_neg hb, hlines, hrest]
            rfl

end AnalyzerBridge.Bytes

/-
The pieces between marks.

A text is cut at every occurrence of a mark.  Cutting and putting together with marks undo each
other as long as no piece has a mark in it.
-/
import Mathlib.Logic.Function.Basic
import AnalyzerBridge.Bytes

namespace AnalyzerBridge

namespace Bytes

variable {mark : UInt8}

theorem splitOn_of_not_mem {piece : Bytes} (h : mark ∉ piece) : splitOn mark piece = [piece] := by
  induction piece with
  | nil => rfl
  | cons b rest ih =>
      rw [List.mem_cons, not_or] at h
      rw [splitOn, if_neg (Ne.symm h.1), ih h.2]

theorem splitOn_ne_nil (mark : UInt8) (s : Bytes) : splitOn mark s ≠ [] := by
  cases s with
  | nil => simp [splitOn]
  | cons b rest =>
      rw [splitOn]
      split
      · simp
      · split <;> simp

theorem splitOn_append_cons (mark : UInt8) (s rest : Bytes) :
    splitOn mark (s ++ mark :: rest) = splitOn mark s ++ splitOn mark rest := by
  induction s with
  | nil => simp [splitOn]
  | cons b s ih =>
      rw [List.cons_append, splitOn, splitOn, ih]
      by_cases hb : b = mark
      · simp [hb]
      · obtain ⟨piece, pieces, hpieces⟩ := List.exists_cons_of_ne_nil (splitOn_ne_nil mark s)
        simp [hb, hpieces]

theorem splitOn_append {piece : Bytes} (h : mark ∉ piece) (rest : Bytes) :
    splitOn mark (piece ++ mark :: rest) = piece :: splitOn mark rest := by
  rw [splitOn_append_cons, splitOn_of_not_mem h, List.singleton_append]

theorem not_mem_of_mem_splitOn {s piece : Bytes} (h : piece ∈ splitOn mark s) : mark ∉ piece := by
  induction s generalizing piece with
  | nil =>
      rw [splitOn, List.mem_singleton] at h
      simp [h]
  | cons b rest ih =>
      rw [splitOn] at h
      by_cases hb : b = mark
      · rw [if_pos hb] at h
        rcases List.mem_cons.mp h with hnil | hmem
        · simp [hnil]
        · exact ih hmem
      · rw [if_neg hb] at h
        cases hrest : splitOn mark rest with
        | nil =>
            rw [hrest, List.mem_singleton] at h
            simp [h, Ne.symm hb]
        | cons first more =>
            rw [hrest] at ih
            rw [hrest] at h
            rcases List.mem_cons.mp h with hfirst | hmem
            · rw [hfirst, List.mem_cons, not_or]
              exact ⟨Ne.symm hb, ih List.mem_cons_self⟩
            · exact ih (List.mem_cons_of_mem _ hmem)

/-- Pieces that each have a mark behind them are found again, and so is what stands behind them. -/
theorem splitOn_flatMap_append {pieces : List Bytes} (h : ∀ piece ∈ pieces, mark ∉ piece)
    (rest : Bytes) :
    splitOn mark (pieces.flatMap (· ++ [mark]) ++ rest) = pieces ++ splitOn mark rest := by
  induction pieces with
  | nil => rfl
  | cons piece pieces ih =>
      rw [List.flatMap_cons, List.append_assoc, List.append_assoc, List.singleton_append,
        splitOn_append (h piece List.mem_cons_self),
        ih fun other hother => h other (List.mem_cons_of_mem _ hother), List.cons_append]

/-- Pieces that are joined with a mark are found again, and so is what is put behind them. -/
theorem splitOn_join_append {pieces : List Bytes} (h : ∀ piece ∈ pieces, mark ∉ piece)
    (hne : pieces ≠ []) {rest : Bytes} {more : List Bytes}
    (hrest : ∀ piece : Bytes, mark ∉ piece → splitOn mark (piece ++ rest) = piece :: more) :
    splitOn mark (join [mark] pieces ++ rest) = pieces ++ more := by
  induction pieces with
  | nil => exact absurd rfl hne
  | cons piece pieces ih =>
      have hpiece : mark ∉ piece := h piece List.mem_cons_self
      cases pieces with
      | nil => exact hrest piece hpiece
      | cons next pieces =>
          have htail := ih (fun q hq => h q (List.mem_cons_of_mem _ hq)) (List.cons_ne_nil _ _)
          have hjoin : join [mark] (piece :: next :: pieces) ++ rest
              = piece ++ mark :: (join [mark] (next :: pieces) ++ rest) := by
            simp [join]
          rw [hjoin, splitOn_append hpiece, htail]
          rfl

theorem join_cons (glue piece : Bytes) {pieces : List Bytes} (h : pieces ≠ []) :
    join glue (piece :: pieces) = piece ++ glue ++ join glue pieces := by
  cases pieces with
  | nil => exact absurd rfl h
  | cons next pieces => rfl

/-- The pieces of a text make it up. -/
theorem join_splitOn (mark : UInt8) (s : Bytes) : join [mark] (splitOn mark s) = s := by
  induction s with
  | nil => rfl
  | cons b rest ih =>
      rw [splitOn]
      by_cases hb : b = mark
      · rw [if_pos hb, join_cons [mark] [] (splitOn_ne_nil mark rest), ih, hb]
        rfl
      · obtain ⟨piece, pieces, hpieces⟩ := List.exists_cons_of_ne_nil (splitOn_ne_nil mark rest)
        rw [hpieces] at ih
        rw [if_neg hb, hpieces]
        dsimp only
        rw [← ih]
        cases pieces with
        | nil => rfl
        | cons next pieces => rfl

theorem splitOn_injective (mark : UInt8) : Function.Injective (splitOn mark) :=
  Function.LeftInverse.injective (join_splitOn mark)

theorem join_append (glue : Bytes) {pieces more : List Bytes} (h : pieces ≠ []) (hmore : more ≠ []) :
    join glue (pieces ++ more) = join glue pieces ++ glue ++ join glue more := by
  induction pieces with
  | nil => exact absurd rfl h
  | cons piece pieces ih =>
      cases pieces with
      | nil => exact join_cons glue piece hmore
      | cons next pieces =>
          rw [List.cons_append, join_cons glue piece (by simp), ih (by simp),
            join_cons glue piece (by simp)]
          simp

/-- **A text goes on with whole pieces behind another exactly if it ends there or a mark follows.** -/
theorem splitOn_prefix_splitOn_iff {s t : Bytes} :
    splitOn mark s <+: splitOn mark t ↔ t = s ∨ ∃ rest, t = s ++ mark :: rest := by
  constructor
  · rintro ⟨more, hmore⟩
    have htext : t = join [mark] (splitOn mark s ++ more) := by rw [hmore, join_splitOn]
    by_cases hnil : more = []
    · left
      rw [htext, hnil, List.append_nil, join_splitOn]
    · right
      refine ⟨join [mark] more, ?_⟩
      rw [htext, join_append [mark] (splitOn_ne_nil mark s) hnil, join_splitOn, List.append_assoc,
        List.singleton_append]
  · rintro (rfl | ⟨rest, rfl⟩)
    · exact List.prefix_refl _
    · rw [splitOn_append_cons]
      exact List.prefix_append _ _

end Bytes

end AnalyzerBridge

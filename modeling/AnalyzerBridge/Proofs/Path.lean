/-
Where a path starts.

A path read from a directory that is itself given from the root is a path from the root,
and bringing it into normal form leaves it one.
-/
import AnalyzerBridge.Path

namespace AnalyzerBridge.Path

theorem isAbsolute_append_of_base {base : Bytes} (h : isAbsolute base = true) (rest : Bytes) :
    isAbsolute (base ++ rest) = true := by
  cases base with
  | nil => exact absurd h (by decide)
  | cons b base => exact h

theorem isAbsolute_append_of_ne_nil {path : Bytes} (h : path ≠ []) (rest : Bytes) :
    isAbsolute (path ++ rest) = isAbsolute path := by
  obtain ⟨b, more, rfl⟩ := List.exists_cons_of_ne_nil h
  rfl

/-- From the root, whatever is appended starts there too. -/
theorem isAbsolute_append {base : Bytes} (h : isAbsolute base = true) (path : Bytes) :
    isAbsolute (append base path) = true := by
  have hbase : base.isEmpty = false := by
    cases base with
    | nil => exact absurd h (by decide)
    | cons b base => rfl
  unfold append
  split
  · rename_i hpath
    simpa [hbase] using hpath
  · split
    · exact isAbsolute_append_of_base h _
    · exact isAbsolute_append_of_base h _

theorem isAbsolute_render (s : Steps) : isAbsolute (s.render true) = true := by
  unfold Steps.render
  split <;> rfl

theorem isAbsolute_normalize {path : Bytes} (h : isAbsolute path = true) :
    isAbsolute (normalize path) = true := by
  unfold normalize
  split
  · exact h
  · rw [h]
    exact isAbsolute_render _

/-- Seen from a directory given from the root, a path is empty or from the root. -/
theorem isAbsolute_absolute {current path : Bytes} (hcurrent : isAbsolute current = true)
    (hpath : path ≠ []) : isAbsolute (absolute current path) = true := by
  have hempty : path.isEmpty = false := by simpa using hpath
  rw [absolute, absoluteBy, hempty]
  exact isAbsolute_normalize (isAbsolute_append hcurrent path)

end AnalyzerBridge.Path

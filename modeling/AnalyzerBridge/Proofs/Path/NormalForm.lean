/-
The normal form of a path is normal.

Bringing a path into normal form is a stack machine: a name is pushed, `..` takes the last name
away.  `Stacked` says which stacks there can be, and it is kept by every step.  The names of such a
stack, pushed again in the order in which they are written out, build the same stack, so what is
written out is read as what it is.
-/
import AnalyzerBridge.Proofs.Bytes.Pieces
import AnalyzerBridge.Proofs.Path

namespace AnalyzerBridge

namespace Path

/-! ### The stacks there can be -/

/-- The names on a stack, the last one first: none is empty, `.` or two names in one, and if there
is a `..`, the path is relative and there are only such names below. -/
def Stacked (fromRoot : Bool) : List Bytes → Prop
  | [] => True
  | name :: names =>
    (name ≠ [] ∧ name ≠ dot ∧ slash ∉ name)
      ∧ (name = dotDot → fromRoot = false ∧ ∀ other ∈ names, other = dotDot)
      ∧ Stacked fromRoot names

variable {fromRoot : Bool}

theorem Stacked.facts {names : List Bytes} (h : Stacked fromRoot names) :
    ∀ name ∈ names, name ≠ [] ∧ slash ∉ name := by
  induction names with
  | nil => simp
  | cons name names ih =>
      intro other hother
      rcases List.mem_cons.mp hother with hfirst | hrest
      · rw [hfirst]
        exact ⟨h.1.1, h.1.2.2⟩
      · exact ih h.2.2 other hrest

theorem Stacked.step {s : Steps} (h : Stacked fromRoot s.names) {piece : Bytes}
    (hpiece : slash ∉ piece) : Stacked fromRoot (s.step fromRoot piece).names := by
  unfold Steps.step
  by_cases hnothing : piece = [] ∨ piece = dot
  · rw [if_pos hnothing]
    exact h
  · rw [if_neg hnothing]
    rw [not_or] at hnothing
    by_cases hup : piece = dotDot
    · rw [if_pos hup]
      have hdots : dotDot ≠ [] ∧ dotDot ≠ dot ∧ slash ∉ dotDot := by decide
      cases hnames : s.names with
      | nil =>
          cases fromRoot with
          | true => exact trivial
          | false => exact ⟨hdots, fun _ => ⟨rfl, by simp⟩, trivial⟩
      | cons name names =>
          rw [hnames] at h
          dsimp only
          -- A `..` stays only above others, where it has nothing to take away.
          by_cases hname : name = dotDot
          · rw [if_pos hname]
            obtain ⟨hroot, hbelow⟩ := h.2.1 hname
            exact ⟨hdots, fun _ => ⟨hroot, List.forall_mem_cons.mpr ⟨hname, hbelow⟩⟩, h⟩
          · rw [if_neg hname]
            exact h.2.2
    · rw [if_neg hup]
      exact ⟨⟨hnothing.1, hnothing.2, hpiece⟩, fun heq => absurd heq hup, h⟩

theorem Stacked.foldl {pieces : List Bytes} (hpieces : ∀ piece ∈ pieces, slash ∉ piece) {s : Steps}
    (h : Stacked fromRoot s.names) :
    Stacked fromRoot (pieces.foldl (Steps.step fromRoot) s).names := by
  induction pieces generalizing s with
  | nil => exact h
  | cons piece pieces ih =>
      have hfirst := h.step (hpieces piece List.mem_cons_self)
      exact ih (fun q hq => hpieces q (List.mem_cons_of_mem _ hq)) hfirst

theorem stacked_ofPath (path : Bytes) : Stacked (isAbsolute path) (Steps.ofPath path).names :=
  Stacked.foldl (fun _ hpiece => Bytes.not_mem_of_mem_splitOn hpiece) trivial

/-! ### Pushing a stack again -/

theorem Stacked.step_push {name : Bytes} {names : List Bytes}
    (h : Stacked fromRoot (name :: names)) (directory : Bool) :
    Steps.step fromRoot ⟨names, directory⟩ name = ⟨name :: names, false⟩ := by
  have hnothing : ¬(name = [] ∨ name = dot) := not_or.mpr ⟨h.1.1, h.1.2.1⟩
  rw [Steps.step, if_neg hnothing]
  by_cases hup : name = dotDot
  · obtain ⟨hroot, hbelow⟩ := h.2.1 hup
    rw [if_pos hup]
    cases names with
    | nil => simp [hroot, hup]
    | cons other names =>
        have hother : other = dotDot := hbelow other List.mem_cons_self
        simp [hother, hup]
  · rw [if_neg hup]

/-- The names of a stack, pushed in the order in which they are written out. -/
theorem Stacked.foldl_reverse {names : List Bytes} (h : Stacked fromRoot names)
    (directory : Bool) :
    names.reverse.foldl (Steps.step fromRoot) ⟨[], directory⟩
      = ⟨names, if names.isEmpty then directory else false⟩ := by
  induction names with
  | nil => rfl
  | cons name names ih =>
      -- When a name is pushed, the names below it are on the stack already.
      rw [List.reverse_cons, List.foldl_append, ih h.2.2]
      exact h.step_push _

/-! ### Normal forms -/

theorem isAbsolute_join {names : List Bytes} (h : ∀ name ∈ names, name ≠ [] ∧ slash ∉ name)
    (hne : names ≠ []) (rest : Bytes) : isAbsolute (Bytes.join [slash] names ++ rest) = false := by
  obtain ⟨name, more, rfl⟩ := List.exists_cons_of_ne_nil hne
  obtain ⟨hfull, hslash⟩ := h name List.mem_cons_self
  obtain ⟨b, tail, rfl⟩ := List.exists_cons_of_ne_nil hfull
  have hb : (b == slash) = false := by
    rw [List.mem_cons, not_or] at hslash
    simpa using Ne.symm hslash.1
  cases more with
  | nil => simpa [Bytes.join, isAbsolute] using hb
  | cons _ _ => simpa [Bytes.join, isAbsolute] using hb

theorem isAbsolute_render_eq {s : Steps} (h : Stacked fromRoot s.names) :
    isAbsolute (s.render fromRoot) = fromRoot := by
  cases fromRoot with
  | true => exact isAbsolute_render s
  | false =>
      obtain ⟨names, directory⟩ := s
      cases names with
      | nil => rfl
      | cons name names =>
          have hfacts : ∀ other ∈ (name :: names).reverse, other ≠ [] ∧ slash ∉ other := by
            intro other hother
            exact h.facts other (List.mem_reverse.mp hother)
          exact isAbsolute_join hfacts (by simp) _

/-- The pieces of what is written out: an empty one for the root, the names, and an empty one if the
last name is that of a directory. -/
theorem splitOn_render {name : Bytes} {names : List Bytes} (h : Stacked fromRoot (name :: names))
    (directory : Bool) :
    Bytes.splitOn slash (Steps.render fromRoot ⟨name :: names, directory⟩)
      = (if fromRoot then [[]] else [])
        ++ ((name :: names).reverse ++ if directory && name != dotDot then [[]] else []) := by
  let ending : Bytes := if directory && name != dotDot then [slash] else []
  let closing : List Bytes := if directory && name != dotDot then [[]] else []
  have hending : ∀ piece : Bytes, slash ∉ piece →
      Bytes.splitOn slash (piece ++ ending) = piece :: closing := by
    intro piece hpiece
    by_cases hdirectory : (directory && name != dotDot) = true
    · simp only [ending, closing, if_pos hdirectory]
      exact Bytes.splitOn_append hpiece []
    · simp only [ending, closing, if_neg hdirectory, List.append_nil]
      exact Bytes.splitOn_of_not_mem hpiece
  have hpieces : Bytes.splitOn slash (Bytes.join [slash] (name :: names).reverse ++ ending)
      = (name :: names).reverse ++ closing := by
    refine Bytes.splitOn_join_append ?_ (by simp) hending
    intro other hother
    exact (h.facts other (List.mem_reverse.mp hother)).2
  rw [← hpieces]
  cases fromRoot with
  | true => rfl
  | false => rfl

/-- **What is written out is read as the same stack.** -/
theorem ofPath_render {name : Bytes} {names : List Bytes} {directory : Bool}
    (h : Stacked fromRoot (name :: names)) :
    Steps.ofPath (Steps.render fromRoot ⟨name :: names, directory⟩)
      = ⟨name :: names, directory && name != dotDot⟩ := by
  have hclosing : (if directory && name != dotDot then [[]] else []).foldl (Steps.step fromRoot)
      ⟨name :: names, false⟩ = ⟨name :: names, directory && name != dotDot⟩ := by
    by_cases hdirectory : (directory && name != dotDot) = true
    · simp [hdirectory, Steps.step]
    · simp [hdirectory]
  have hfront : (if fromRoot then [[]] else []).foldl (Steps.step fromRoot) ⟨[], false⟩
      = ⟨[], fromRoot⟩ := by
    cases fromRoot with
    | true => rfl
    | false => rfl
  rw [Steps.ofPath, isAbsolute_render_eq h, splitOn_render h, List.foldl_append, hfront,
    List.foldl_append, h.foldl_reverse]
  exact hclosing

/-- What is written out, read and written out again is the same text. -/
theorem render_ofPath_render {s : Steps} (h : Stacked fromRoot s.names) :
    (Steps.ofPath (s.render fromRoot)).render fromRoot = s.render fromRoot := by
  obtain ⟨names, directory⟩ := s
  cases names with
  | nil =>
      cases fromRoot with
      | true => rfl
      | false => rfl
  | cons name names =>
      rw [ofPath_render h]
      unfold Steps.render
      cases directory with
      | true => simp
      | false => simp

/-- **The normal form of a path is its own normal form.** -/
theorem normalize_normalize (path : Bytes) : normalize (normalize path) = normalize path := by
  by_cases hslashes : path.all (· == slash) = true
  · have hsame : normalize path = path := if_pos hslashes
    rw [hsame, hsame]
  · have hpath : normalize path = (Steps.ofPath path).render (isAbsolute path) := if_neg hslashes
    have hstacked := stacked_ofPath path
    rw [hpath, normalize, isAbsolute_render_eq hstacked, render_ofPath_render hstacked]
    split <;> rfl

/-! ### Paths seen from a directory -/

/-- A path from the root means the same from everywhere. -/
theorem absolute_of_isAbsolute {path : Bytes} (h : isAbsolute path = true) (current : Bytes) :
    absolute current path = normalize path := by
  have hne : path.isEmpty = false := by
    cases path with
    | nil => exact absurd h (by decide)
    | cons b rest => rfl
  have happend : append current path = path := by simp [append, h]
  rw [absolute, absoluteBy, hne, happend]
  rfl

/-- What a path means from one directory means the same from every other. -/
theorem absolute_absolute {base : Bytes} (hbase : isAbsolute base = true) (current path : Bytes) :
    absolute current (absolute base path) = absolute base path := by
  by_cases hnil : path = []
  · rw [hnil]
    rfl
  · rw [absolute_of_isAbsolute (isAbsolute_absolute hbase hnil)]
    have hfull : path.isEmpty = false := by simpa using hnil
    rw [absolute, absoluteBy, hfull]
    exact normalize_normalize _

theorem isAbsolute_parent {path : Bytes} (h : isAbsolute path = true) :
    isAbsolute (parent path) = true := by
  unfold parent
  dsimp only
  split
  · exact h
  · split
    · rfl
    · rename_i hfull
      rw [h, Bool.and_true, List.isEmpty_iff] at hfull
      -- What is left is the front of the path, and there is something left.
      have hsuffix :
          (path.reverse.dropWhile (· != slash)).dropWhile (· == slash) <:+ path.reverse :=
        (List.dropWhile_suffix _).trans (List.dropWhile_suffix _)
      obtain ⟨rest, hrest⟩ := List.reverse_prefix.mpr hsuffix
      rw [List.reverse_reverse] at hrest
      generalize (path.reverse.dropWhile (· != slash)).dropWhile (· == slash) = head at hfull hrest
      cases hhead : head.reverse with
      | nil => exact absurd (List.reverse_eq_nil_iff.mp hhead) hfull
      | cons b front =>
          rw [← hrest, hhead] at h
          exact h

end Path

end AnalyzerBridge

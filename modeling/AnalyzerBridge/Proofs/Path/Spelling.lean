/-
Different spellings of one path.

Between two parts of a path a second slash, a dot, or a name that is left again at once change
nothing.  The reason is a remark on the stack machine: all that such a detour can change is
whether the last step named a directory, and that is forgotten at the next step.

The normal form is taken as it is specified.  `normalize` follows a library that differs from it
in one point: slashes alone are the root, but they stay as many as they are.
-/
import AnalyzerBridge.Proofs.Path.NormalForm

namespace AnalyzerBridge.Path

variable {fromRoot : Bool} {current path a b name : Bytes} {pieces : List Bytes}

/-! ### The form that is specified -/

/-- The normal form of a path as it is specified: it makes no difference how many slashes stand
together. -/
def lexicalForm (path : Bytes) : Bytes :=
  if path.isEmpty then [] else (Steps.ofPath path).render (isAbsolute path)

/-- The path consists of slashes, of which there are several. -/
def SlashesOnly (path : Bytes) : Prop := 2 ≤ path.length ∧ path.all (· == slash) = true

instance (path : Bytes) : Decidable (SlashesOnly path) :=
  inferInstanceAs (Decidable (2 ≤ path.length ∧ path.all (· == slash) = true))

theorem lexicalForm_of_ne_nil (h : path ≠ []) :
    lexicalForm path = (Steps.ofPath path).render (isAbsolute path) :=
  if_neg (by simpa using h)

theorem ne_nil_of_isAbsolute (h : isAbsolute path = true) : path ≠ [] := by
  rintro rfl
  exact absurd h (by decide)

theorem lexicalForm_of_isAbsolute (h : isAbsolute path = true) :
    lexicalForm path = (Steps.ofPath path).render true := by
  rw [lexicalForm_of_ne_nil (ne_nil_of_isAbsolute h), h]

theorem isAbsolute_of_all_slash (h : path.all (· == slash) = true) (hne : path ≠ []) :
    isAbsolute path = true := by
  obtain ⟨b, rest, rfl⟩ := List.exists_cons_of_ne_nil hne
  exact List.all_eq_true.mp h b List.mem_cons_self

theorem SlashesOnly.isAbsolute (h : SlashesOnly path) : isAbsolute path = true := by
  refine isAbsolute_of_all_slash h.2 ?_
  rintro rfl
  exact absurd h.1 (by decide)

theorem append_of_isAbsolute (h : isAbsolute path = true) (current : Bytes) :
    append current path = path := by
  simp [append, h]

/-- What is appended stands at the end. -/
theorem suffix_append (current path : Bytes) : path <:+ append current path := by
  unfold append
  split
  · exact List.suffix_refl path
  · split
    · exact (List.suffix_cons slash path).trans (List.suffix_append current _)
    · exact List.suffix_append current path

theorem absoluteBy_of_ne_nil (hpath : path ≠ []) (normal : Bytes → Bytes) (current : Bytes) :
    absoluteBy normal current path = normal (append current path) :=
  if_neg (by simpa using hpath)

/-- **A path of several slashes keeps them, and every other one is brought into the specified
form.** -/
theorem absolute_eq (current path : Bytes) :
    absolute current path
      = if SlashesOnly path then path else absoluteBy lexicalForm current path := by
  by_cases hpath : path = []
  · rw [hpath]
    rfl
  have happend : append current path ≠ [] := fun hnil =>
    hpath (List.suffix_nil.mp (hnil ▸ suffix_append current path))
  rw [absolute, absoluteBy_of_ne_nil hpath, absoluteBy_of_ne_nil hpath, normalize]
  by_cases hall : path.all (· == slash) = true
  · have hsame : append current path = path :=
      append_of_isAbsolute (isAbsolute_of_all_slash hall hpath) current
    rw [hsame, if_pos hall]
    by_cases hlength : 2 ≤ path.length
    · rw [if_pos ⟨hlength, hall⟩]
    · rw [if_neg fun hslashes : SlashesOnly path => hlength hslashes.1]
      -- one slash is the root in either form
      obtain ⟨b, rest, rfl⟩ := List.exists_cons_of_ne_nil hpath
      obtain rfl : rest = [] := by
        cases rest with
        | nil => rfl
        | cons c rest => exact absurd (by simp) hlength
      obtain rfl : b = slash := by simpa using hall
      rfl
  · have hrest : ¬(append current path).all (· == slash) = true := by
      intro hslashes
      refine hall (List.all_eq_true.mpr fun c hc => ?_)
      exact List.all_eq_true.mp hslashes c ((suffix_append current path).subset hc)
    rw [if_neg hrest, if_neg fun hslashes : SlashesOnly path => hall hslashes.2,
      lexicalForm_of_ne_nil happend]

theorem absolute_of_slashesOnly (h : SlashesOnly path) (current : Bytes) :
    absolute current path = path := by
  rw [absolute_eq, if_pos h]

theorem absolute_of_not_slashesOnly (h : ¬SlashesOnly path) (current : Bytes) :
    absolute current path = absoluteBy lexicalForm current path := by
  rw [absolute_eq, if_neg h]

example : absolute (ascii "/") (ascii "//") = ascii "//" := by decide

theorem isAbsolute_lexicalForm (h : isAbsolute path = true) :
    isAbsolute (lexicalForm path) = true := by
  rw [lexicalForm_of_isAbsolute h]
  exact isAbsolute_render _

theorem lexicalForm_lexicalForm (h : isAbsolute path = true) :
    lexicalForm (lexicalForm path) = lexicalForm path := by
  have hstacked := stacked_ofPath path
  rw [h] at hstacked
  rw [lexicalForm_of_isAbsolute (isAbsolute_lexicalForm h), lexicalForm_of_isAbsolute h]
  exact render_ofPath_render hstacked

/-! ### Paths with nothing to leave out -/

/-- A path from the root in which nothing can be left out. -/
structure Canonical (path : Bytes) : Prop where
  /-- It starts at the root. -/
  rooted : isAbsolute path = true
  /-- None of its names is that of the directory itself or of the one above. -/
  noDots : ∀ piece ∈ Bytes.splitOn slash path, piece ≠ dot ∧ piece ≠ dotDot
  /-- No two slashes stand together. -/
  noDoubled : ¬[slash, slash] <:+: path

/-- Slashes that stand together have an empty piece between them that is neither the first nor the
last. -/
theorem nil_mem_of_doubled (h : [slash, slash] <:+: path) :
    [] ∈ (Bytes.splitOn slash path).tail.dropLast := by
  obtain ⟨front, rest, rfl⟩ := h
  obtain ⟨piece, pieces, hfront⟩ := List.exists_cons_of_ne_nil (Bytes.splitOn_ne_nil slash front)
  have hsplit : Bytes.splitOn slash (front ++ [slash, slash] ++ rest)
      = piece :: (pieces ++ [] :: Bytes.splitOn slash rest) := by
    have htail : Bytes.splitOn slash (slash :: rest) = [] :: Bytes.splitOn slash rest :=
      Bytes.splitOn_append_cons slash [] rest
    rw [List.append_assoc, List.cons_append, Bytes.splitOn_append_cons, hfront]
    simp [htail]
  rw [hsplit, List.tail_cons, List.dropLast_append_of_ne_nil (by simp),
    List.dropLast_cons_of_ne_nil (Bytes.splitOn_ne_nil slash rest)]
  simp

/-- From the root there is no way up that is left to be gone. -/
theorem Stacked.plain {names : List Bytes} (h : Stacked true names) :
    ∀ name ∈ names, name ≠ [] ∧ name ≠ dot ∧ name ≠ dotDot := by
  induction names with
  | nil => simp
  | cons name names ih =>
      obtain ⟨⟨hfull, hdot, -⟩, hup, hrest⟩ := h
      exact List.forall_mem_cons.mpr
        ⟨⟨hfull, hdot, fun hdots => absurd (hup hdots).1 (by decide)⟩, ih hrest⟩

/-- **Nothing can be left out of a path in the specified form.** -/
theorem canonical_lexicalForm (h : isAbsolute path = true) : Canonical (lexicalForm path) := by
  have hstacked := stacked_ofPath path
  rw [h] at hstacked
  rw [lexicalForm_of_isAbsolute h]
  generalize Steps.ofPath path = s at hstacked
  obtain ⟨_ | ⟨name, names⟩, directory⟩ := s
  · show Canonical [slash]
    exact ⟨rfl, by decide, fun hdoubled => absurd hdoubled.length_le (by decide)⟩
  · have hplain := hstacked.plain
    have hpieces := splitOn_render hstacked directory
    rw [if_pos rfl] at hpieces
    refine ⟨isAbsolute_render _, ?_, ?_⟩
    · intro piece hpiece
      have hcases : piece = [] ∨ piece ∈ name :: names := by
        rw [hpieces, List.mem_append, List.mem_append, List.mem_reverse] at hpiece
        rcases hpiece with hroot | hname | hclosing
        · exact .inl (List.mem_singleton.mp hroot)
        · exact .inr hname
        · split at hclosing
          · exact .inl (List.mem_singleton.mp hclosing)
          · simp at hclosing
      rcases hcases with rfl | hname
      · decide
      · exact (hplain piece hname).2
    · intro hdoubled
      have hnil := nil_mem_of_doubled hdoubled
      rw [hpieces, List.singleton_append, List.tail_cons] at hnil
      refine (hplain [] ?_).1 rfl
      rw [← List.mem_reverse]
      split at hnil
      · rwa [List.dropLast_concat] at hnil
      · rw [List.append_nil] at hnil
        exact List.dropLast_subset _ hnil

/-! ### Detours -/

/-- Pieces that lead back to where they start. -/
structure Idle (fromRoot : Bool) (pieces : List Bytes) : Prop where
  noSlash : ∀ piece ∈ pieces, slash ∉ piece
  names_eq : ∀ s : Steps, (pieces.foldl (Steps.step fromRoot) s).names = s.names

/-- A path with more pieces between its two parts. -/
def detour (a : Bytes) (pieces : List Bytes) (b : Bytes) : Bytes :=
  a ++ slash :: (pieces.flatMap (· ++ [slash]) ++ b)

theorem splitOn_detour (h : ∀ piece ∈ pieces, slash ∉ piece) (a b : Bytes) :
    Bytes.splitOn slash (detour a pieces b)
      = Bytes.splitOn slash a ++ (pieces ++ Bytes.splitOn slash b) := by
  rw [detour, Bytes.splitOn_append_cons, Bytes.splitOn_flatMap_append h]

/-- A step does not ask whether the one before named a directory. -/
theorem step_congr {s s' : Steps} (h : s.names = s'.names) (piece : Bytes) :
    s.step fromRoot piece = s'.step fromRoot piece := by
  obtain ⟨names, directory⟩ := s
  obtain ⟨names', directory'⟩ := s'
  obtain rfl : names = names' := h
  rfl

theorem isAbsolute_detour (a : Bytes) (pieces : List Bytes) (b : Bytes) :
    isAbsolute (detour a pieces b) = isAbsolute (a ++ [slash]) := by
  cases a with
  | nil => rfl
  | cons c a => rfl

theorem detour_ne_nil (a : Bytes) (pieces : List Bytes) (b : Bytes) : detour a pieces b ≠ [] := by
  simp [detour]

/-- **A detour is not seen in the steps of a path.** -/
theorem ofPath_detour (h : ∀ fromRoot, Idle fromRoot pieces) (a b : Bytes) :
    Steps.ofPath (detour a pieces b) = Steps.ofPath (detour a [] b) := by
  have hroot : isAbsolute (detour a pieces b) = isAbsolute (detour a [] b) := by
    rw [isAbsolute_detour, isAbsolute_detour]
  obtain ⟨piece, more, hb⟩ := List.exists_cons_of_ne_nil (Bytes.splitOn_ne_nil slash b)
  rw [Steps.ofPath, Steps.ofPath, hroot, splitOn_detour (h true).noSlash,
    splitOn_detour (by simp), List.foldl_append, List.foldl_append, List.foldl_append,
    List.nil_append, hb, List.foldl_cons, List.foldl_cons]
  rw [step_congr ((h _).names_eq _)]

/-- Where a path is read from does not depend on its detours. -/
theorem exists_append_detour (current a : Bytes) :
    ∃ front, ∀ pieces b, append current (detour a pieces b) = detour front pieces b := by
  simp only [append, isAbsolute_detour]
  by_cases hroot : (isAbsolute (a ++ [slash]) || current.isEmpty) = true
  · exact ⟨a, fun pieces b => if_pos hroot⟩
  · simp only [if_neg hroot]
    by_cases hfile : hasFilename current = true
    · exact ⟨current ++ slash :: a, fun pieces b => by simp [hfile, detour]⟩
    · exact ⟨current ++ a, fun pieces b => by simp [hfile, detour]⟩

theorem absoluteBy_detour (h : ∀ fromRoot, Idle fromRoot pieces) (current a b : Bytes) :
    absoluteBy lexicalForm current (detour a pieces b)
      = absoluteBy lexicalForm current (detour a [] b) := by
  obtain ⟨front, hfront⟩ := exists_append_detour current a
  rw [absoluteBy_of_ne_nil (detour_ne_nil _ _ _), absoluteBy_of_ne_nil (detour_ne_nil _ _ _),
    hfront, hfront, lexicalForm_of_ne_nil (detour_ne_nil _ _ _),
    lexicalForm_of_ne_nil (detour_ne_nil _ _ _), isAbsolute_detour, isAbsolute_detour,
    ofPath_detour h]

/-! ### Slashes alone -/

theorem eq_replicate_of_all_slash (h : path.all (· == slash) = true) :
    path = List.replicate path.length slash :=
  List.eq_replicate_of_mem fun b hb => by simpa using List.all_eq_true.mp h b hb

theorem splitOn_replicate (n : Nat) :
    Bytes.splitOn slash (List.replicate n slash) = List.replicate (n + 1) [] := by
  induction n with
  | zero => rfl
  | succ n ih => rw [List.replicate_succ, Bytes.splitOn, if_pos rfl, ih, ← List.replicate_succ]

/-- In the specified form, slashes alone are the root. -/
theorem lexicalForm_of_slashesOnly (h : SlashesOnly path) : lexicalForm path = [slash] := by
  have hempty : ∀ (n : Nat) (s : Steps),
      ((List.replicate n []).foldl (Steps.step true) s).names = s.names := by
    intro n
    induction n with
    | zero => exact fun s => rfl
    | succ n ih => exact fun s => ih { s with directory := true }
  have hnames : (Steps.ofPath path).names = [] := by
    rw [Steps.ofPath, h.isAbsolute, eq_replicate_of_all_slash h.2,
      splitOn_replicate]
    exact hempty _ _
  rw [lexicalForm_of_isAbsolute h.isAbsolute, Steps.render, hnames]
  rfl

/-! ### Spellings -/

/-- The name of something in a directory. -/
structure IsName (name : Bytes) : Prop where
  full : name ≠ []
  noSlash : slash ∉ name
  ne_dot : name ≠ dot
  ne_dotDot : name ≠ dotDot

instance (name : Bytes) : Decidable (IsName name) :=
  decidable_of_iff (name ≠ [] ∧ slash ∉ name ∧ name ≠ dot ∧ name ≠ dotDot)
    ⟨fun h => ⟨h.1, h.2.1, h.2.2.1, h.2.2.2⟩, fun h => ⟨h.1, h.2, h.3, h.4⟩⟩

/-- A path of two parts: with a slash between them, with a dot, with a second slash, and with a name
that is left again. -/
def spellings (a b name : Bytes) : List Bytes :=
  [a ++ ascii "/" ++ b, a ++ ascii "/./" ++ b, a ++ ascii "//" ++ b,
    a ++ ascii "/" ++ name ++ ascii "/../" ++ b]

theorem idle_nil (fromRoot : Bool) : Idle fromRoot [] := ⟨by simp, fun _ => rfl⟩

theorem idle_dot (fromRoot : Bool) : Idle fromRoot [dot] := ⟨by decide, fun _ => rfl⟩

theorem idle_empty (fromRoot : Bool) : Idle fromRoot [[]] := ⟨by decide, fun _ => rfl⟩

theorem IsName.idle (h : IsName name) (fromRoot : Bool) : Idle fromRoot [name, dotDot] where
  noSlash := by
    have hup : slash ∉ dotDot := by decide
    simpa using ⟨h.noSlash, hup⟩
  names_eq s := by
    have hpushed : s.step fromRoot name = ⟨name :: s.names, false⟩ := by
      rw [Steps.step, if_neg (not_or.mpr ⟨h.full, h.ne_dot⟩), if_neg h.ne_dotDot]
    have hnothing : ¬(dotDot = [] ∨ dotDot = dot) := by decide
    rw [List.foldl_cons, hpushed, List.foldl_cons, List.foldl_nil, Steps.step, if_neg hnothing,
      if_pos rfl]
    dsimp only
    rw [if_neg h.ne_dotDot]

theorem exists_detour (hname : IsName name) (h : path ∈ spellings a b name) :
    ∃ pieces, (∀ fromRoot, Idle fromRoot pieces) ∧ path = detour a pieces b := by
  have hone : ascii "/" = [slash] := rfl
  have hdot : ascii "/./" = slash :: dot ++ [slash] := rfl
  have htwo : ascii "//" = [slash, slash] := rfl
  have hup : ascii "/../" = slash :: dotDot ++ [slash] := rfl
  simp only [spellings, hone, hdot, htwo, hup, List.mem_cons, List.not_mem_nil, or_false] at h
  rcases h with rfl | rfl | rfl | rfl
  · exact ⟨[], idle_nil, by simp [detour]⟩
  · exact ⟨[dot], idle_dot, by simp [detour]⟩
  · exact ⟨[[]], idle_empty, by simp [detour]⟩
  · exact ⟨[name, dotDot], hname.idle, by simp [detour]⟩

/-! ### Keys -/

/-- `key` gives every path one key for all its spellings. -/
structure IsKey (key : Bytes → Bytes) : Prop where
  /-- Nothing can be left out of a key. -/
  canonical : ∀ path, path ≠ [] → Canonical (key path)
  /-- A key is its own key. -/
  settled : ∀ path, path ≠ [] → key (key path) = key path
  /-- All spellings of a path have the same key. -/
  respelled : ∀ a b name, IsName name → ∀ p ∈ spellings a b name, ∀ q ∈ spellings a b name,
    key p = key q

/-- **The absolute form of a path is a key.** -/
theorem isKey_absoluteBy (hcurrent : isAbsolute current = true) :
    IsKey (absoluteBy lexicalForm current) where
  canonical path hpath := by
    rw [absoluteBy_of_ne_nil hpath]
    exact canonical_lexicalForm (isAbsolute_append hcurrent path)
  settled path hpath := by
    have habsolute := isAbsolute_append hcurrent path
    have hform := isAbsolute_lexicalForm habsolute
    rw [absoluteBy_of_ne_nil hpath, absoluteBy_of_ne_nil (ne_nil_of_isAbsolute hform),
      append_of_isAbsolute hform, lexicalForm_lexicalForm habsolute]
  respelled a b name hname p hp q hq := by
    obtain ⟨pieces, hpieces, rfl⟩ := exists_detour hname hp
    obtain ⟨others, hothers, rfl⟩ := exists_detour hname hq
    exact (absoluteBy_detour hpieces current a b).trans (absoluteBy_detour hothers current a b).symm

end AnalyzerBridge.Path

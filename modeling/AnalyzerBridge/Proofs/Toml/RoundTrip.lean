/-
What is written is read.

A text is read piece by piece: a piece that says nothing changes nothing, a header changes what
the entries below stand under, and an assignment becomes one entry.  What the pieces say together
is what the document says, so the entries of a text are the assignments of the document that the
text is a layout of.
-/
import AnalyzerBridge.Proofs.Toml.Lines

namespace AnalyzerBridge.Toml

open Bytes (Tight endLine)

/-! ### Headers -/

theorem facts_of_isNameByte {b : UInt8} : isNameByte b = true →
    isQuiet b = true ∧ (Bytes.isBlank b = true → b = 32) ∧ b ≠ 34 ∧ b ≠ 61 :=
  Bytes.forall_byte (P := fun b => isNameByte b = true →
    isQuiet b = true ∧ (Bytes.isBlank b = true → b = 32) ∧ b ≠ 34 ∧ b ≠ 61) (by decide +kernel) b

theorem tight_name (name : Name) : Tight name.val := by
  obtain ⟨n, hbytes, hfirst, hlast⟩ := name
  have hspace : ∀ b ∈ n, b ≠ 32 → Bytes.isBlank b = false := fun b hb hne =>
    Bool.eq_false_iff.mpr fun h => hne ((facts_of_isNameByte (hbytes b hb)).2.1 h)
  refine ⟨fun b hb => hspace b (List.mem_of_mem_head? hb) ?_,
    fun b hb => hspace b (List.mem_of_mem_getLast? hb) ?_⟩
  · rintro rfl
    exact hfirst hb
  · rintro rfl
    exact hlast hb

/-- What a byte between the brackets of a header is not. -/
theorem facts_of_mem_header {name : Name} {b c : Bytes} (hb : IsBlanks b) (hc : IsBlanks c)
    {x : UInt8} (hx : x ∈ b ++ name.val ++ c) : isQuiet x = true ∧ x ≠ 34 ∧ x ≠ 61 := by
  have hblank : ∀ {t}, IsBlanks t → x ∈ t → isQuiet x = true ∧ x ≠ 34 ∧ x ≠ 61 := fun ht hx => by
    have hfacts := facts_of_isBlank (ht x hx)
    exact ⟨(isPlain_iff.mp hfacts.1).1, hfacts.2⟩
  rcases List.mem_append.mp hx with h | h
  · rcases List.mem_append.mp h with h | h
    · exact hblank hb h
    · have hfacts := facts_of_isNameByte (name.property.1 x h)
      exact ⟨hfacts.1, hfacts.2.2⟩
  · exact hblank hc h

/-- The brackets of a header go away, and so do the blanks inside them, if behind and in front of
these there is no further one. -/
theorem headerName_of_tight {b name c : Bytes} (hb : IsBlanks b) (hname : Tight name)
    (hc : IsBlanks c) (hfirst : ∀ x ∈ (b ++ name ++ c).head?, x ≠ 91)
    (hlast : ∀ x ∈ (b ++ name ++ c).getLast?, x ≠ 93) :
    headerName (91 :: (b ++ name ++ c) ++ [93]) = name := by
  generalize hinner : b ++ name ++ c = inner at hfirst hlast
  have hfront : (91 :: inner ++ [93]).dropWhile (· == 91) = inner ++ [93] := by
    cases inner with
    | nil => rfl
    | cons x rest =>
        have hx : x ≠ 91 := hfirst x rfl
        simp [hx]
  have hback : (inner ++ [93]).reverse.dropWhile (· == 93) = inner.reverse := by
    rw [List.reverse_append, List.reverse_singleton, List.singleton_append]
    cases hrev : inner.reverse with
    | nil => rfl
    | cons x rest =>
        have hx : x ≠ 93 := hlast x (by rw [← List.head?_reverse, hrev]; rfl)
        simp [hx]
  rw [headerName, hfront, hback, List.reverse_reverse, ← hinner]
  exact Bytes.trim_of_tight hb.blank hname hc.blank

theorem headerName_header (name : Name) {b c : Bytes} (hb : IsBlanks b) (hc : IsBlanks c) :
    headerName (91 :: (b ++ name.val ++ c) ++ [93]) = name.val := by
  have hbracket : ∀ x ∈ b ++ name.val ++ c, x ≠ 91 ∧ x ≠ 93 := fun x hx => by
    have hquiet := (isQuiet_iff.mp (facts_of_mem_header hb hc hx).1).2.2
    simp only [isBracket, Bool.or_eq_false_iff, beq_eq_false_iff_ne] at hquiet
    exact ⟨hquiet.1.1.1, hquiet.1.2⟩
  refine headerName_of_tight hb (tight_name name) hc ?_ ?_
  · intro x hx
    exact (hbracket x (List.mem_of_mem_head? hx)).1
  · intro x hx
    exact (hbracket x (List.mem_of_mem_getLast? hx)).2

namespace Progress

variable {p : Progress}

theorem readText_header (hp : p.openEntry = none) (name : Name) {b c : Bytes} (hb : IsBlanks b)
    (hc : IsBlanks c) (number : Nat) :
    p.readText number (91 :: (b ++ name.val ++ c) ++ [93])
      = ({ p with header := name.val }, []) := by
  have hsplit : splitAssignment false (91 :: (b ++ name.val ++ c) ++ [93]) = none := by
    refine splitAssignment_eq_none fun x hx => ?_
    rw [List.cons_append, List.mem_cons, List.mem_append, List.mem_singleton] at hx
    rcases hx with rfl | hx | rfl
    exacts [by decide, (facts_of_mem_header hb hc hx).2, by decide]
  rw [readText_of_header hp hsplit rfl, headerName_header name hb hc]

/-- A header changes what the entries below stand under. -/
theorem read_header (hp : p.openEntry = none) {name : Name} {t : Bytes}
    (h : (Statement.header name).Written t) (number : Nat) (tail : Option Bytes) :
    p.read number (t ++ endLine tail)
      = { p with header := name.val }.readOn (number + 1 + t.count 10) tail := by
  obtain @⟨_, a, b, c, d, remark, before, ahead, behind, after, ends⟩ := h
  have hwhole : Whole (b ++ name.val ++ c) 0 :=
    .of_quiet fun x hx => (facts_of_mem_header ahead behind hx).1
  have htoken : Token (91 :: (b ++ name.val ++ c) ++ [93]) 0 :=
    .bracketed (.inl rfl) (.inl rfl) hwhole
  rw [List.count_eq_zero.mpr (lineFeed_not_mem_line before htoken after ends),
    read_token before htoken after ends, readText_header hp name ahead behind]
  rfl

/-- An assignment becomes one entry. -/
theorem read_assign (hp : p.openEntry = none) {key : Key} {value : Value} {t : Bytes}
    (h : (Statement.assign key value).Written t) (number : Nat) :
    ∃ raw, value.Written IsBlanks raw ∧ ∀ tail, p.read number (t ++ endLine tail)
      = ⟨p.header, key.val, raw, number⟩ :: p.readOn (number + 1 + t.count 10) tail := by
  cases h with
  | @assign _ _ a b c d t remark before behind ahead written after ends =>
      obtain ⟨raw, hraw, hflat⟩ := written.flattens
      obtain ⟨q, a', cur, ha', hcursor, hread⟩ := hflat.read hp key before behind ahead number
      obtain ⟨n, hcur⟩ := hcursor.token
      have htoken : Token raw 0 := hraw.token
      obtain ⟨o, hentry, hdepth, hstop⟩ := hcursor.stop htoken.tight
      -- Behind the value no bracket is open, so the entry is complete.
      have hsettle : p.settle o = (p, [o.entry]) := by
        have hclosed : { p with openEntry := none } = p := by rw [← hp]
        rw [settle, if_neg (by rw [hdepth, htoken.whole.nesting]; decide), hclosed]
      have hcount : (a ++ (key.val ++ b ++ 61 :: (c ++ t)) ++ (d ++ remark)).count 10
          = t.count 10 := by
        simp [List.count_append, before.whole.count_lineFeed, (Token.key key).whole.count_lineFeed,
          behind.whole.count_lineFeed, ahead.whole.count_lineFeed, after.whole.count_lineFeed,
          ends.count_lineFeed]
      refine ⟨raw, hraw, fun tail => ?_⟩
      have hlast : p.read number
            (a ++ (key.val ++ b ++ 61 :: (c ++ t)) ++ (d ++ remark) ++ endLine tail)
          = q.read (number + t.count 10) (a' ++ cur ++ (d ++ remark) ++ endLine tail) := by
        simpa using hread (d ++ remark ++ endLine tail)
      rw [hlast, read_token ha' hcur after ends, hstop, hsettle, hentry, hcount,
        Nat.add_right_comm number]
      rfl

/-- A line that says nothing changes nothing. -/
theorem read_nothing {t : Bytes} (h : IsFiller t) (number : Nat) (tail : Option Bytes) :
    p.read number (t ++ endLine tail) = p.readOn (number + 1 + t.count 10) tail := by
  obtain ⟨blank, ends⟩ := h
  rw [read_filler blank ends, List.count_append, blank.whole.count_lineFeed, ends.count_lineFeed]

end Progress

/-! ### Documents -/

/-- The assignments among some statements below a header. -/
def assigned (header : Bytes) : List Statement → List (Bytes × Key × Value)
  | [] => []
  | .header name :: statements => assigned name.val statements
  | .assign key value :: statements => (header, key, value) :: assigned header statements

theorem assigned_append_map (header : Bytes) (assignments : List (Key × Value))
    (statements : List Statement) :
    assigned header (assignments.map (fun (key, value) => Statement.assign key value) ++ statements)
      = assignments.map (fun (key, value) => (header, key, value))
        ++ assigned header statements := by
  induction assignments with
  | nil => rfl
  | cons assignment rest ih => simp [assigned, ih]

theorem assigned_sections (header : Bytes) (sections : List (Name × List (Key × Value))) :
    assigned header (sections.flatMap fun (name, assignments) =>
        Statement.header name :: assignments.map fun (key, value) => Statement.assign key value)
      = sections.flatMap fun (name, assignments) =>
          assignments.map fun (key, value) => (name.val, key, value) := by
  induction sections generalizing header with
  | nil => rfl
  | cons entry rest ih => simp [assigned, assigned_append_map, ih]

theorem Document.assigned_statements (d : Document) : assigned [] d.statements = d.assignments := by
  rw [statements, assigned_append_map, assigned_sections, assignments]

/-- An entry comes from an assignment: it has the name of the section, the key, and the value in one
line. -/
def Entry.ComesFrom (e : Entry) (a : Bytes × Key × Value) : Prop :=
  e.header = a.1 ∧ e.key = a.2.1.val ∧ a.2.2.Written IsBlanks e.value

/-- What comes behind a piece. -/
def tailOf (pieces : List Piece) : Option Bytes :=
  if pieces.isEmpty then none else some (textOf pieces)

theorem textOf_cons (piece : Piece) (pieces : List Piece) :
    textOf (piece :: pieces) = piece.text ++ endLine (tailOf pieces) := by
  cases pieces with
  | nil => simp [textOf, tailOf, Bytes.join, endLine]
  | cons next rest => simp [textOf, tailOf, Bytes.join, endLine]

theorem Progress.read_textOf (p : Progress) (number : Nat) (pieces : List Piece) :
    p.read number (textOf pieces) = p.readOn number (tailOf pieces) := by
  cases pieces <;> rfl

/-- The pieces of a text are read one after the other. -/
theorem Progress.readOn_pieces (pieces : List Piece) {p : Progress} (hp : p.openEntry = none)
    (number : Nat) :
    List.Forall₂ (fun a e => e.ComesFrom a) (assigned p.header (pieces.filterMap (·.means)))
        (p.readOn number (tailOf pieces))
      ∧ (p.readOn number (tailOf pieces)).map (·.line) = keyLines number pieces := by
  induction pieces generalizing p number with
  | nil => simp [tailOf, readOn, entries, hp, assigned, keyLines]
  | cons piece rest ih =>
      rw [← p.read_textOf, textOf_cons]
      obtain ⟨means, text, written⟩ := piece
      cases means with
      | none =>
          have hfiller : IsFiller text := written
          rw [read_nothing hfiller]
          exact ih hp _
      | some statement =>
          have hwritten : statement.Written text := written
          cases statement with
          | header name =>
              rw [read_header hp hwritten]
              exact ih (p := { p with header := name.val }) hp _
          | assign key value =>
              obtain ⟨raw, hraw, hread⟩ := read_assign hp hwritten number
              rw [hread]
              obtain ⟨hentries, hlines⟩ := ih hp (number + 1 + text.count 10)
              exact ⟨.cons ⟨rfl, rfl, hraw⟩ hentries, congrArg (number :: ·) hlines⟩

variable {d : Document}

theorem Layout.entries_text (layout : Layout d) :
    entries layout.text = Progress.readOn {} 1 (tailOf layout.pieces) :=
  Progress.read_textOf {} 1 layout.pieces

/-- The entries of a text are the assignments of the document, each with its value in one line. -/
theorem Layout.entries_comeFrom (layout : Layout d) :
    List.Forall₂ (fun a e => e.ComesFrom a) d.assignments (entries layout.text) := by
  rw [← d.assigned_statements, ← layout.complete, layout.entries_text]
  exact (Progress.readOn_pieces (p := {}) layout.pieces rfl 1).1

/-- **What is written is read.**  However a document is written, the entries of the text are its
assignments, each once, in order, under the name of its section and with its key, on the line where
the key stands; and the value of each entry is read as the value assigned. -/
theorem entries_of_layout (layout : Layout d) :
    List.Forall₂ (fun (header, key, value) e =>
        e.header = header ∧ e.key = key.val ∧ value.ReadFrom e.value)
      d.assignments (entries layout.text)
    ∧ (entries layout.text).map (·.line) = layout.lines := by
  constructor
  · exact layout.entries_comeFrom.imp fun a e h => ⟨h.1, h.2.1, h.2.2.readFrom⟩
  · rw [layout.entries_text]
    exact (Progress.readOn_pieces (p := {}) layout.pieces rfl 1).2

end AnalyzerBridge.Toml

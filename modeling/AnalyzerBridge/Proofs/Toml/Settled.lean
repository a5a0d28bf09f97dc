/-
A text behind another.

Whoever adds lines to a document wants to know what becomes of those above and below.  A document
is settled if it ends with a whole line and leaves no value open.  Then its entries stay what they
are, whatever comes behind, and what comes behind is read under the last header.

All that the number of a line does is to be written down, so lines that move down by one give the
same entries, moved down by one.
-/
import AnalyzerBridge.Proofs.Toml.Lines

namespace AnalyzerBridge

namespace Toml

/-! ### What is left open -/

/-- The progress behind some lines. -/
def Progress.after (p : Progress) (number : Nat) : List Bytes → Progress
  | [] => p
  | line :: lines => (p.readLine number line).1.after (number + 1) lines

/-- Lines behind which no value is open give their entries by themselves. -/
theorem Progress.entries_append {p : Progress} {number : Nat} {lines : List Bytes}
    (h : (p.after number lines).openEntry = none) (more : List Bytes) :
    p.entries number (lines ++ more)
      = p.entries number lines
        ++ (p.after number lines).entries (number + lines.length) more := by
  induction lines generalizing p number with
  | nil =>
      have hopen : p.openEntry = none := h
      simp [after, entries, hopen]
  | cons line lines ih =>
      have hrest := ih h
      rw [Nat.add_assoc, Nat.add_comm 1] at hrest
      simp only [List.cons_append, entries, after, hrest, List.length_cons, List.append_assoc]

/-- The text ends with a whole line, and no value is open behind it. -/
structure Settled (text : Bytes) : Prop where
  ended : text = [] ∨ text.getLast? = some 10
  closed : (Progress.after {} 1 (Bytes.lines text)).openEntry = none

instance (text : Bytes) : Decidable (Settled text) :=
  decidable_of_iff ((text = [] ∨ text.getLast? = some 10)
      ∧ (Progress.after {} 1 (Bytes.lines text)).openEntry = none)
    ⟨fun h => ⟨h.1, h.2⟩, fun h => ⟨h.ended, h.closed⟩⟩

theorem Settled.nil : Settled [] := ⟨.inl rfl, rfl⟩

/-- What is put behind a settled text leaves its entries alone. -/
theorem Settled.entries_append {front : Bytes} (h : Settled front) (rest : Bytes) :
    entries (front ++ rest)
      = entries front ++ (Progress.after {} 1 (Bytes.lines front)).entries
          (1 + (Bytes.lines front).length) (Bytes.lines rest) := by
  rw [entries, Bytes.lines_append_of_getLast? h.ended, Progress.entries_append h.closed]
  rfl

/-! ### Lines that assign -/

namespace Progress

/-- A line that assigns to a key, whatever the value looks like: what counts of it is the part in
front of a comment, without the blanks that part ends with. -/
theorem readLine_assign {p : Progress} (hp : p.openEntry = none) (key : Key) {b c u t d : Bytes}
    (hb : IsBlanks b) (hc : IsBlanks c) (hu : withoutComment {} u = t ++ d) (ht : Bytes.Tight t)
    (hne : t ≠ []) (hd : ∀ x ∈ d, Bytes.isBlank x = true) (number : Nat) :
    p.readLine number (key.val ++ b ++ 61 :: (c ++ u))
      = p.settle { first := ⟨p.header, key.val, t, number⟩, depth := nesting {} t } := by
  have hwhole : Whole (key.val ++ (b ++ 61 :: c)) 0 :=
    (Token.key key).whole.append (hb.whole.append (Token.equals.whole.append hc.whole))
  have hcomment : withoutComment {} (key.val ++ b ++ 61 :: (c ++ u))
      = key.val ++ (b ++ 61 :: c) ++ t ++ d := by
    have hfront := hwhole.withoutComment_append u
    rw [hu] at hfront
    simpa using hfront
  have htight : Bytes.Tight (key.val ++ (b ++ 61 :: c) ++ t) :=
    (Token.key key).tight.append ht key.property.1 hne _
  have htrim : Bytes.trim (key.val ++ (b ++ 61 :: c) ++ t ++ d)
      = key.val ++ b ++ 61 :: (c ++ t) := by
    have h := Bytes.trim_of_tight (a := []) (by simp) htight hd
    simpa using h
  have hfull : (key.val ++ b ++ 61 :: (c ++ t)).isEmpty = false := by simp
  simp only [readLine, hcomment, htrim, hfull, Bool.false_eq_true, if_false]
  exact readText_assign hp key hb hc ht number

theorem settle_of_complete {p : Progress} (hp : p.openEntry = none) {o : OpenEntry}
    (h : o.depth ≤ 0) : p.settle o = (p, [o.entry]) := by
  have hclosed : { p with openEntry := none } = p := by rw [← hp]
  rw [settle, if_neg (Int.not_lt.mpr h), hclosed]

theorem entries_settle {p : Progress} (hp : p.openEntry = none) (o : OpenEntry) (number : Nat) :
    (p.settle o).2 ++ (p.settle o).1.entries number [] = [o.entry] := by
  by_cases hdepth : o.depth ≤ 0
  · rw [settle_of_complete hp hdepth]
    simp [entries, hp]
  · rw [settle, if_pos (Int.not_le.mp hdepth)]
    rfl

end Progress

/-! ### What a line can do -/

/-- What the reader sees of a line: neither its comment nor the blanks around the rest. -/
def seen (line : Bytes) : Bytes := Bytes.trim (withoutComment {} line)

/-- The line begins the entry: it assigns to the key of the entry, and what it assigns is the start
of the value. -/
def Entry.BeginsOn (e : Entry) (line : Bytes) : Prop :=
  ∃ key value, splitAssignment false (seen line) = some (key, value)
    ∧ e.key = stringValue key ∧ Bytes.trim value <+: e.value

/-- The line is a header: it starts with a bracket and assigns nothing. -/
def IsHeader (line : Bytes) : Prop :=
  splitAssignment false (seen line) = none ∧ (seen line).head? = some 91

/-- The line says nothing outside values: it is neither an assignment nor a header. -/
def IsSilent (line : Bytes) : Prop :=
  splitAssignment false (seen line) = none ∧ (seen line).head? ≠ some 91

namespace Progress

variable {p : Progress} {number : Nat} {line : Bytes}

/-- What a line can do. -/
inductive Does (p : Progress) (number : Nat) (line : Bytes) : Progress × List Entry → Prop
  /-- It changes nothing. -/
  | nothing : Does p number line (p, [])
  /-- It names a section. -/
  | header (closed : p.openEntry = none) (isHeader : IsHeader line) :
      Does p number line ({ p with header := headerName (seen line) }, [])
  /-- It begins an entry. -/
  | begins {e : Entry} (closed : p.openEntry = none) (under : e.header = p.header)
      (first : e.line = number) (begun : e.BeginsOn line) (depth : Int) :
      Does p number line (p.settle { first := e, depth })
  /-- It goes on with the entry that is open. -/
  | goesOn {o : OpenEntry} (isOpen : p.openEntry = some o) (text : Bytes) :
      Does p number line (p.settle (o.extend text))

theorem readLine_eq (p : Progress) (number : Nat) (line : Bytes) :
    p.readLine number line
      = if (seen line).isEmpty then (p, []) else p.readText number (seen line) := rfl

/-- **A line does one of these things.** -/
theorem does_readLine (p : Progress) (number : Nat) (line : Bytes) :
    p.Does number line (p.readLine number line) := by
  rw [readLine_eq]
  split
  case isTrue => exact .nothing
  case isFalse =>
    cases hopen : p.openEntry with
    | some o =>
        rw [readText, hopen]
        exact .goesOn hopen (seen line)
    | none =>
        cases hsplit : splitAssignment false (seen line) with
        | some pair =>
            rw [readText_of_assignment hopen hsplit]
            have hbegun : Entry.BeginsOn
                ⟨p.header, stringValue pair.1, Bytes.trim pair.2, number⟩ line :=
              ⟨pair.1, pair.2, hsplit, rfl, List.prefix_refl _⟩
            exact .begins hopen rfl rfl hbegun _
        | none =>
            by_cases hhead : (seen line).head? = some 91
            · rw [readText_of_header hopen hsplit hhead]
              exact .header hopen ⟨hsplit, hhead⟩
            · rw [readText_of_silent hopen hsplit hhead]
              exact .nothing

end Progress

/-! ### Lines that move -/

/-- The entry as it is if the lines have other numbers. -/
def Entry.renumber (f : Nat → Nat) (e : Entry) : Entry := { e with line := f e.line }

def Entry.moved (e : Entry) : Entry := { e with line := e.line + 1 }

namespace Progress

/-- The progress as it is if the lines have other numbers. -/
def renumber (f : Nat → Nat) (p : Progress) : Progress :=
  { p with openEntry := p.openEntry.map fun o => { o with first := o.first.renumber f } }

theorem renumber_of_closed (f : Nat → Nat) {p : Progress} (h : p.openEntry = none) :
    p.renumber f = p := by
  unfold renumber
  rw [h]
  exact congrArg (Progress.mk p.header) h.symm

/-- A line does what it does, whatever its number. -/
theorem readLine_renumber (f : Nat → Nat) (p : Progress) (number : Nat) (line : Bytes) :
    (p.renumber f).readLine (f number) line
      = ((p.readLine number line).1.renumber f,
        (p.readLine number line).2.map (Entry.renumber f)) := by
  obtain ⟨header, openEntry⟩ := p
  unfold readLine
  dsimp only
  generalize Bytes.trim (withoutComment {} line) = text
  by_cases hempty : text.isEmpty = true
  · rw [if_pos hempty, if_pos hempty]
    rfl
  · rw [if_neg hempty, if_neg hempty]
    -- How deep the brackets go, which decides whether an entry stays open, has no number in it.
    cases openEntry with
    | some o =>
        by_cases hdepth : 0 < o.depth + nesting {} text
        · simp [readText, renumber, OpenEntry.extend, hdepth]
        · simp [readText, renumber, OpenEntry.extend, hdepth, OpenEntry.entry, Entry.renumber]
    | none =>
        simp only [readText, renumber, Option.map_none]
        cases splitAssignment false text with
        | some pair =>
            by_cases hdepth : 0 < nesting {} (Bytes.trim pair.2)
            · simp [begin, hdepth, Entry.renumber]
            · simp [begin, hdepth, Entry.renumber]
        | none =>
            by_cases hhead : text.head? = some 91
            · simp [hhead]
            · simp [hhead]

/-- **Lines that get other numbers give the same entries, on these.** -/
theorem entries_renumber {f : Nat → Nat} {number : Nat} (hf : ∀ n ≥ number, f (n + 1) = f n + 1)
    (p : Progress) (lines : List Bytes) :
    (p.renumber f).entries (f number) lines = (p.entries number lines).map (Entry.renumber f) := by
  induction lines generalizing p number with
  | nil =>
      unfold entries renumber
      cases p.openEntry with
      | none => rfl
      | some o => simp [OpenEntry.entry, Entry.renumber]
  | cons line lines ih =>
      have hrest : ∀ n ≥ number + 1, f (n + 1) = f n + 1 := fun n hn => hf n (by omega)
      simp only [entries, readLine_renumber, List.map_append, ← hf number (Nat.le_refl number),
        ih hrest]

/-- Lines that move down by one. -/
theorem entries_moved {p : Progress} (h : p.openEntry = none) (number : Nat) (lines : List Bytes) :
    p.entries (number + 1) lines = (p.entries number lines).map Entry.moved := by
  have hmoved := entries_renumber (f := (· + 1)) (fun n (_ : n ≥ number) => rfl) p lines
  rwa [renumber_of_closed _ h] at hmoved

/-! ### The headers that entries stand under -/

/-- The header in force and that of the open entry satisfy a condition. -/
structure Under (P : Bytes → Prop) (p : Progress) : Prop where
  header : P p.header
  openEntry : ∀ o, p.openEntry = some o → P o.first.header

/-- If the line is a header line, the name in it satisfies the condition. -/
def Names (P : Bytes → Prop) (line : Bytes) : Prop :=
  let text := Bytes.trim (withoutComment {} line)
  splitAssignment false text = none → text.head? = some 91 → P (headerName text)

variable {P : Bytes → Prop} {p : Progress}

/-- What is put away stands under the header that it came with. -/
theorem Under.settle (h : p.Under P) {o : OpenEntry} (ho : P o.first.header) :
    (p.settle o).1.Under P ∧ ∀ e ∈ (p.settle o).2, P e.header := by
  unfold Progress.settle
  split
  · exact ⟨⟨h.header, by simpa [holding] using ho⟩, by simp⟩
  · exact ⟨⟨h.header, by simp⟩, by simpa [OpenEntry.entry] using ho⟩

/-- A line hands on the header above or brings its own. -/
theorem Under.readLine (h : p.Under P) {line : Bytes} (hline : Names P line) (number : Nat) :
    (p.readLine number line).1.Under P ∧ ∀ e ∈ (p.readLine number line).2, P e.header := by
  have hdoes := p.does_readLine number line
  generalize p.readLine number line = result at hdoes ⊢
  cases hdoes with
  | nothing => exact ⟨h, by simp⟩
  | header closed isHeader =>
      exact ⟨⟨hline isHeader.1 isHeader.2, by simp [closed]⟩, by simp⟩
  | begins closed under first begun depth => exact h.settle (under ▸ h.header)
  | @goesOn o isOpen text =>
      have ho : P o.first.header := h.openEntry o isOpen
      exact h.settle ho

/-- All entries stand under headers that the text names, or that were in force before it. -/
theorem Under.entries (h : p.Under P) {lines : List Bytes} (hlines : ∀ line ∈ lines, Names P line)
    (number : Nat) : ∀ e ∈ p.entries number lines, P e.header := by
  induction lines generalizing p number with
  | nil =>
      intro e he
      unfold Progress.entries at he
      obtain ⟨o, ho, rfl⟩ : ∃ o, p.openEntry = some o ∧ o.entry = e := by simpa using he
      exact h.openEntry o ho
  | cons line lines ih =>
      have hread := h.readLine (hlines line List.mem_cons_self) number
      intro e he
      rcases List.mem_append.mp he with hfirst | hrest
      · exact hread.2 e hfirst
      · exact ih hread.1 (fun l hl => hlines l (List.mem_cons_of_mem _ hl)) (number + 1) e hrest

end Progress

/-! ### A text behind itself -/

/-- The first line of the text that says anything is a header. -/
def StartsWithHeader (text : Bytes) : Prop :=
  ∃ silent header rest, Bytes.lines text = silent ++ header :: rest
    ∧ (∀ line ∈ silent, IsSilent line) ∧ IsHeader header

namespace Progress

theorem readLine_of_silent {p : Progress} (hp : p.openEntry = none) {line : Bytes}
    (h : IsSilent line) (number : Nat) : p.readLine number line = (p, []) := by
  rw [readLine_eq]
  split
  case isTrue => rfl
  case isFalse => exact readText_of_silent hp h.1 h.2 number

theorem readLine_of_header {p : Progress} (hp : p.openEntry = none) {line : Bytes}
    (h : IsHeader line) (number : Nat) :
    p.readLine number line = ({ p with header := headerName (seen line) }, []) := by
  have hfull : (seen line).isEmpty = false := by
    cases hseen : seen line with
    | nil => exact absurd h.2 (by simp [hseen])
    | cons b rest => rfl
  rw [readLine_eq, hfull]
  exact readText_of_header hp h.1 h.2 number

/-- What stands below a header does not depend on the header above. -/
theorem entries_of_header {p q : Progress} (hp : p.openEntry = none) (hq : q.openEntry = none)
    {silent : List Bytes} (hsilent : ∀ line ∈ silent, IsSilent line) {header : Bytes}
    (hheader : IsHeader header) (number : Nat) (rest : List Bytes) :
    p.entries number (silent ++ header :: rest) = q.entries number (silent ++ header :: rest) := by
  induction silent generalizing number with
  | nil =>
      have hsame : ({ p with header := headerName (seen header) } : Progress)
          = { q with header := headerName (seen header) } := by rw [hp, hq]
      simp only [List.nil_append, entries_cons, readLine_of_header hp hheader,
        readLine_of_header hq hheader, hsame]
  | cons line silent ih =>
      rw [List.forall_mem_cons] at hsilent
      simp only [List.cons_append, entries_cons, readLine_of_silent hp hsilent.1,
        readLine_of_silent hq hsilent.1, ih hsilent.2]

theorem after_append (p : Progress) (number : Nat) (lines more : List Bytes) :
    p.after number (lines ++ more)
      = (p.after number lines).after (number + lines.length) more := by
  induction lines generalizing p number with
  | nil => rfl
  | cons line lines ih =>
      rw [List.cons_append, after, after, ih, List.length_cons, Nat.add_assoc, Nat.add_comm 1]

end Progress

/-- With a line feed behind it, a text that leaves nothing open is settled, and says the same. -/
theorem settled_append_feed {text : Bytes}
    (h : (Progress.after {} 1 (Bytes.lines text)).openEntry = none) :
    Settled (text ++ [10]) ∧ entries (text ++ [10]) = entries text := by
  obtain ⟨more, hmore, hlines⟩ := Bytes.lines_append_feed text
  have hafter : Progress.after {} 1 (Bytes.lines (text ++ [10]))
      = Progress.after {} 1 (Bytes.lines text) := by
    rw [hlines, Progress.after_append]
    rcases hmore with rfl | rfl
    · rfl
    · rfl
  refine ⟨⟨.inr (by simp), by rwa [hafter]⟩, ?_⟩
  rw [entries, hlines, Progress.entries_append h, entries]
  rcases hmore with rfl | rfl
  · simp [Progress.entries, h]
  · simp [Progress.entries, Progress.readLine_nil, h]

/-- **A text that starts with a header and leaves nothing open says the same once more.** -/
theorem entries_twice {text : Bytes} (hheader : StartsWithHeader text)
    (hclosed : (Progress.after {} 1 (Bytes.lines text)).openEntry = none) :
    entries (text ++ 10 :: text) = entries text
      ++ (entries text).map (Entry.renumber (· + (Bytes.lines (text ++ [10])).length)) := by
  obtain ⟨hsettled, hsame⟩ := settled_append_feed hclosed
  obtain ⟨silent, header, rest, hlines, hsilent, hfirst⟩ := hheader
  have hrenumber := Progress.entries_renumber (f := (· + (Bytes.lines (text ++ [10])).length))
    (fun n (_ : n ≥ 1) => Nat.add_right_comm n 1 _) {} (Bytes.lines text)
  rw [Progress.renumber_of_closed _ rfl] at hrenumber
  have happend := hsettled.entries_append text
  rw [List.append_assoc, List.singleton_append, hsame] at happend
  rw [happend, entries, ← hrenumber, hlines]
  exact congrArg _ (Progress.entries_of_header hsettled.closed rfl hsilent hfirst _ rest)

end Toml

end AnalyzerBridge

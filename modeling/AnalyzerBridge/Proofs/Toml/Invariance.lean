/-
What the layout of a text does not change.

Nothing is asked of the text here: strings may be open, backslashes may stand anywhere, and brackets
need not balance.  All that counts of a line is what the reader sees of it, and a line of which it
sees nothing is passed over, in the middle of a value too.  So neither carriage returns nor empty
lines nor comments change the entries; only the numbers of the lines below are others.

An entry is numbered when it begins and handed out when it is complete.  In between no other one
begins, and so the numbers go up from entry to entry.
-/
import AnalyzerBridge.Proofs.Toml.Settled

namespace AnalyzerBridge.Toml

/-! ### The order of the entries -/

namespace Progress

variable {p : Progress} {number : Nat} {line : Bytes}

/-- The open entry, if there is one, has begun above the line. -/
def Above (p : Progress) (number : Nat) : Prop := ∀ o, p.openEntry = some o → o.first.line < number

/-- The least line that an entry still to come can have. -/
def nextLine (p : Progress) (number : Nat) : Nat :=
  match p.openEntry with
  | some o => o.first.line
  | none => number

theorem Above.start (number : Nat) : Above {} number := by
  rintro o ⟨⟩

/-- What a line leaves behind: the open entry has begun on it or above, and an entry that is handed
out stands between those before and those to come. -/
structure Advances (p : Progress) (number : Nat) (result : Progress × List Entry) : Prop where
  above : result.1.Above (number + 1)
  least : p.nextLine number ≤ result.1.nextLine (number + 1)
  between : ∀ e ∈ result.2, p.nextLine number ≤ e.line ∧ e.line ≤ number
    ∧ e.line < result.1.nextLine (number + 1)
  ordered : result.2.Pairwise fun e f => e.line < f.line

/-- An entry that is put away has begun on the line or above. -/
theorem advances_settle {o : OpenEntry} (hleast : p.nextLine number ≤ o.first.line)
    (habove : o.first.line ≤ number) : p.Advances number (p.settle o) := by
  unfold settle
  split
  case isTrue =>
    refine ⟨?_, hleast, by simp, by simp⟩
    intro o' ho'
    obtain rfl := Option.some.inj ho'
    exact Nat.lt_succ_of_le habove
  case isFalse =>
    refine ⟨?_, Nat.le_succ_of_le (Nat.le_trans hleast habove), ?_, by simp⟩
    · rintro o' ⟨⟩
    · intro e he
      obtain rfl := List.mem_singleton.mp he
      exact ⟨hleast, habove, Nat.lt_succ_of_le habove⟩

theorem nextLine_le (p : Progress) (number : Nat) :
    p.nextLine number ≤ p.nextLine (number + 1) := by
  unfold nextLine
  split
  · exact Nat.le_refl _
  · exact Nat.le_succ number

theorem advances_readLine (h : p.Above number) (line : Bytes) :
    p.Advances number (p.readLine number line) := by
  have hdoes := p.does_readLine number line
  generalize p.readLine number line = result at hdoes ⊢
  cases hdoes with
  | nothing =>
      exact ⟨fun o ho => Nat.lt_succ_of_lt (h o ho), nextLine_le p number, by simp, by simp⟩
  | header closed isHeader =>
      exact ⟨fun o ho => Nat.lt_succ_of_lt (h o ho), nextLine_le p number, by simp, by simp⟩
  | @begins e closed under first begun depth =>
      have hnext : p.nextLine number = number := by rw [nextLine, closed]
      exact advances_settle (by simp [hnext, first]) (Nat.le_of_eq first)
  | @goesOn o isOpen text =>
      have hnext : p.nextLine number = o.first.line := by rw [nextLine, isOpen]
      exact advances_settle (Nat.le_of_eq hnext) (Nat.le_of_lt (h o isOpen))

/-- **Numbers go up from entry to entry.** -/
theorem entries_increasing (h : p.Above number) (lines : List Bytes) :
    (∀ e ∈ p.entries number lines, p.nextLine number ≤ e.line)
      ∧ (p.entries number lines).Pairwise fun e f => e.line < f.line := by
  induction lines generalizing p number with
  | nil =>
      unfold entries nextLine
      cases p.openEntry with
      | none => simp
      | some o => simp [OpenEntry.entry]
  | cons line lines ih =>
      have hstep := advances_readLine h line
      obtain ⟨hleast, hrest⟩ := ih hstep.above
      rw [entries_cons]
      simp only [List.mem_append, List.pairwise_append]
      refine ⟨?_, hstep.ordered, hrest, ?_⟩
      · rintro e (he | he)
        · exact (hstep.between e he).1
        · exact Nat.le_trans hstep.least (hleast e he)
      · intro e he f hf
        exact Nat.lt_of_lt_of_le (hstep.between e he).2.2 (hleast f hf)

/-! ### Where keys stand -/

end Progress

/-- The entry begins on the line whose number it has, counted from one. -/
def Entry.InPlace (lines : List Bytes) (e : Entry) : Prop :=
  ∃ i line, e.line = i + 1 ∧ lines[i]? = some line ∧ e.BeginsOn line

/-- An entry that goes on has begun where it has. -/
theorem OpenEntry.inPlace_extend {lines : List Bytes} {o : OpenEntry} (h : o.entry.InPlace lines)
    (text : Bytes) : (o.extend text).entry.InPlace lines := by
  obtain ⟨i, line, hline, hget, key, value, hsplit, hkey, hvalue⟩ := h
  rw [OpenEntry.entry_extend]
  exact ⟨i, line, hline, hget, key, value, hsplit, hkey, hvalue.trans (List.prefix_append _ _)⟩

namespace Progress

variable {p : Progress} {number : Nat} {line : Bytes}

theorem inPlace_settle {lines : List Bytes} {o : OpenEntry} (h : o.entry.InPlace lines) :
    (∀ o', (p.settle o).1.openEntry = some o' → o'.entry.InPlace lines)
      ∧ ∀ e ∈ (p.settle o).2, e.InPlace lines := by
  unfold settle
  split
  case isTrue =>
    refine ⟨?_, by simp⟩
    intro o' ho'
    obtain rfl := Option.some.inj ho'
    exact h
  case isFalse =>
    refine ⟨?_, ?_⟩
    · rintro o' ⟨⟩
    · intro e he
      obtain rfl := List.mem_singleton.mp he
      exact h

theorem inPlace_readLine {lines : List Bytes} {i : Nat} (hline : lines[i]? = some line)
    (h : ∀ o, p.openEntry = some o → o.entry.InPlace lines) :
    (∀ o, (p.readLine (i + 1) line).1.openEntry = some o → o.entry.InPlace lines)
      ∧ ∀ e ∈ (p.readLine (i + 1) line).2, e.InPlace lines := by
  have hdoes := p.does_readLine (i + 1) line
  generalize p.readLine (i + 1) line = result at hdoes ⊢
  cases hdoes with
  | nothing => exact ⟨h, by simp⟩
  | header closed isHeader => exact ⟨h, by simp⟩
  | @begins e closed under first begun depth =>
      refine inPlace_settle ⟨i, line, first, hline, ?_⟩
      simpa [OpenEntry.entry] using begun
  | goesOn isOpen text => exact inPlace_settle (OpenEntry.inPlace_extend (h _ isOpen) text)

/-- **Every entry has the number of the line on which its key stands.** -/
theorem entries_inPlace {done lines : List Bytes}
    (h : ∀ o, p.openEntry = some o → o.entry.InPlace (done ++ lines)) :
    ∀ e ∈ p.entries (done.length + 1) lines, e.InPlace (done ++ lines) := by
  induction lines generalizing p done with
  | nil =>
      intro e he
      unfold entries at he
      obtain ⟨o, ho, rfl⟩ : ∃ o, p.openEntry = some o ∧ o.entry = e := by simpa using he
      exact h o ho
  | cons line lines ih =>
      have hline : (done ++ line :: lines)[done.length]? = some line := by simp
      obtain ⟨hopen, hdone⟩ := inPlace_readLine hline h
      have hrest : ∀ e ∈ (p.readLine (done.length + 1) line).1.entries
          ((done ++ [line]).length + 1) lines, e.InPlace (done ++ [line] ++ lines) :=
        ih (by simpa using hopen)
      rw [List.append_assoc, List.length_append] at hrest
      intro e he
      rw [entries_cons] at he
      rcases List.mem_append.mp he with hfirst | hmore
      · exact hdone e hfirst
      · exact hrest e hmore

/-! ### Lines of which the same is seen -/

/-- The reader goes by what it sees of a line. -/
theorem readLine_congr {other : Bytes} (h : seen line = seen other) (p : Progress)
    (number : Nat) : p.readLine number line = p.readLine number other := by
  rw [readLine_eq, readLine_eq, h]

theorem entries_congr {lines others : List Bytes}
    (h : List.Forall₂ (fun line other => seen line = seen other) lines others) (p : Progress)
    (number : Nat) : p.entries number lines = p.entries number others := by
  induction h generalizing p number with
  | nil => rfl
  | cons hline _ ih => rw [entries_cons, entries_cons, readLine_congr hline, ih]

end Progress

/-- A carriage return at the end of a line is not seen: it is part of a comment or a blank behind
the rest. -/
theorem seen_return (line : Bytes) : seen (line ++ [13]) = seen line := by
  unfold seen
  by_cases hcomment : Lacks isHash {} line
  · have hreturn : withoutComment (Scan.after {} line) [13] = [13] := by simp [withoutComment]
    rw [withoutComment_append hcomment, hreturn, withoutComment_of_lacks hcomment]
    exact Bytes.trim_append_of_blank (by simp; decide) line
  · rw [(withoutComment_of_not_lacks hcomment [13]).1]

/-- The text with a carriage return in front of every line feed. -/
def withReturns (text : Bytes) : Bytes := text.flatMap fun b => if b = 10 then [13, 10] else [b]

/-- The lines are those of the text, most with a carriage return at the end. -/
theorem lines_withReturns (text : Bytes) :
    List.Forall₂ (fun line other => other = line ∨ other = line ++ [13]) (Bytes.lines text)
      (Bytes.lines (withReturns text)) := by
  induction text with
  | nil => exact .nil
  | cons b rest ih =>
      by_cases hb : b = 10
      · have hrest : withReturns (b :: rest) = [13] ++ 10 :: withReturns rest := by
          simp [withReturns, hb]
        rw [hrest, Bytes.lines_append (by decide), Bytes.lines, if_pos hb]
        exact .cons (.inr rfl) ih
      · have hrest : withReturns (b :: rest) = b :: withReturns rest := by
          simp [withReturns, hb]
        rw [hrest, Bytes.lines, Bytes.lines, if_neg hb, if_neg hb]
        generalize Bytes.lines rest = lines at ih
        generalize Bytes.lines (withReturns rest) = others at ih
        cases ih with
        | nil => exact .cons (.inl rfl) .nil
        | cons hline hmore =>
            refine .cons ?_ hmore
            rcases hline with rfl | rfl
            · exact .inl rfl
            · exact .inr rfl

theorem entries_withReturns (text : Bytes) : entries (withReturns text) = entries text := by
  refine (Progress.entries_congr ((lines_withReturns text).imp ?_) {} 1).symm
  rintro line other (rfl | rfl)
  · rfl
  · exact (seen_return line).symm

/-! ### Lines that are put in -/

theorem IsFiller.oneLine {filler : Bytes} (h : IsFiller filler) : 10 ∉ filler := by
  obtain ⟨blank, ends⟩ := h
  rw [List.mem_append, not_or]
  exact ⟨blank.whole.oneLine, ends.oneLine⟩

/-- Where a line is to be found if one is put in behind the first lines, so many of them. -/
def shifted (above : Nat) (number : Nat) : Nat := if above < number then number + 1 else number

namespace Progress

variable {p : Progress} {number above : Nat} {filler : Bytes}

/-- Below the new line all numbers are greater by one, but an entry that is open there keeps the
number of the line above on which it has begun. -/
theorem entries_shifted (h : p.Above (above + 1)) (lines : List Bytes) :
    p.entries (above + 1 + 1) lines
      = (p.entries (above + 1) lines).map (Entry.renumber (shifted above)) := by
  have hfirst : shifted above (above + 1) = above + 1 + 1 := if_pos (Nat.lt_succ_self above)
  have hbelow : ∀ n ≥ above + 1, shifted above (n + 1) = shifted above n + 1 := by
    intro n hn
    rw [shifted, shifted, if_pos (by omega), if_pos (by omega)]
  have hopen : p.renumber (shifted above) = p := by
    obtain ⟨header, openEntry⟩ := p
    cases openEntry with
    | none => rfl
    | some o =>
        have hkept : shifted above o.first.line = o.first.line :=
          if_neg (Nat.not_lt.mpr (Nat.le_of_lt_succ (h o rfl)))
        simp [renumber, Entry.renumber, hkept]
  have hentries := entries_renumber hbelow p lines
  rwa [hopen, hfirst] at hentries

/-- A line that says nothing moves the entries that begin below it, wherever it is put in. -/
theorem entries_insert (hfiller : IsFiller filler) (h : p.Above number) {front : List Bytes}
    (habove : number + front.length = above + 1) (rest : List Bytes) :
    p.entries number (front ++ filler :: rest)
      = (p.entries number (front ++ rest)).map (Entry.renumber (shifted above)) := by
  induction front generalizing p number with
  | nil =>
      obtain rfl : number = above + 1 := habove
      obtain ⟨blank, ends⟩ := hfiller
      rw [List.nil_append, List.nil_append, entries_cons, readLine_filler blank ends]
      exact entries_shifted h rest
  | cons line front ih =>
      have hstep := advances_readLine h line
      have hrest := ih hstep.above (by rw [List.length_cons] at habove; omega)
      -- What is complete up to this line has begun above the new one.
      have hdone : (p.readLine number line).2.map (Entry.renumber (shifted above))
          = (p.readLine number line).2 := by
        refine (List.map_congr_left ?_).trans (List.map_id _)
        intro e he
        have hle := (hstep.between e he).2.1
        have hkept : shifted above e.line = e.line :=
          if_neg (by rw [List.length_cons] at habove; omega)
        simp [Entry.renumber, hkept]
      rw [List.cons_append, List.cons_append, entries_cons, entries_cons, List.map_append, hdone,
        hrest]

end Progress

/-- A line that is put in between two lines, or before the first or behind the last. -/
theorem entries_append_filler {front filler : Bytes}
    (hfront : front = [] ∨ front.getLast? = some 10) (hfiller : IsFiller filler) (rest : Bytes) :
    entries (front ++ (filler ++ 10 :: rest))
      = (entries (front ++ rest)).map (Entry.renumber (shifted (Bytes.lines front).length)) := by
  rw [entries, entries, Bytes.lines_append_of_getLast? hfront,
    Bytes.lines_append_of_getLast? hfront, Bytes.lines_append hfiller.oneLine]
  exact Progress.entries_insert hfiller (.start 1) (Nat.add_comm _ _) _

/--
**The layout of a text does not change its entries.**

This is so for every text, well formed or not.  The numbers of the entries go up, and each is that
of the line on which the key stands, counted from one.  With a carriage return in front of every
line feed the entries are the same; and a line of blanks, or of blanks and a comment, that is put in
between two lines only moves the entries that begin below it.
-/
theorem layout_invariant (text : Bytes) :
    ((entries text).Pairwise fun e f => e.line < f.line)
      ∧ (∀ e ∈ entries text, e.InPlace (Bytes.lines text))
      ∧ entries (withReturns text) = entries text
      ∧ ∀ front rest filler, text = front ++ rest → (front = [] ∨ front.getLast? = some 10) →
          IsFiller filler →
          entries (front ++ (filler ++ 10 :: rest))
            = (entries text).map (Entry.renumber (shifted (Bytes.lines front).length)) := by
  refine ⟨(Progress.entries_increasing (.start 1) _).2, ?_, entries_withReturns text, ?_⟩
  · have hplace : ∀ e ∈ Progress.entries {} (([] : List Bytes).length + 1) (Bytes.lines text),
        e.InPlace ([] ++ Bytes.lines text) := Progress.entries_inPlace (by simp)
    exact hplace
  · rintro front rest filler rfl hfront hfiller
    exact entries_append_filler hfront hfiller rest

/-- A comment with quotes and brackets in it that is put into an open array, above a stray
bracket. -/
theorem layout_invariant_in_array :
    let front := ascii "a = [ \"x\",\n"
    let rest := ascii "1 ] ]\nb = \"\\\n"
    let filler := ascii " \t# \"[\x7b\\"
    entries (front ++ rest)
        = [⟨[], ascii "a", ascii "[ \"x\", 1 ] ]", 1⟩, ⟨[], ascii "b", ascii "\"\\", 3⟩]
      ∧ (front = [] ∨ front.getLast? = some 10) ∧ IsFiller filler
      ∧ entries (front ++ (filler ++ 10 :: rest))
        = [⟨[], ascii "a", ascii "[ \"x\", 1 ] ]", 1⟩, ⟨[], ascii "b", ascii "\"\\", 4⟩] := by
  intro front rest filler
  have hentries : entries (front ++ rest)
      = [⟨[], ascii "a", ascii "[ \"x\", 1 ] ]", 1⟩, ⟨[], ascii "b", ascii "\"\\", 3⟩] := by
    decide +kernel
  have hfront : front = [] ∨ front.getLast? = some 10 := by decide
  have hblank : IsBlanks (ascii " \t") := Bytes.forall_mem_of_all (by decide)
  have hfiller : IsFiller filler := .mk hblank (.comment (ascii " \"[\x7b\\") (by decide))
  obtain ⟨-, -, -, hinsert⟩ := layout_invariant (front ++ rest)
  refine ⟨hentries, hfront, hfiller, ?_⟩
  rw [hinsert front rest filler rfl hfront hfiller, hentries]
  decide +kernel

end AnalyzerBridge.Toml

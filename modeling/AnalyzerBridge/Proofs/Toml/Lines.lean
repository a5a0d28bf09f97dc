/-
Reading a text line by line.

The reader takes one line after the other, so what it makes of a text is followed from line feed
to line feed.  Lines that say nothing leave it as it is.  While it reads a value that goes over
several lines it holds the lines so far; `Cursor` says what that means for the line that it has
begun: however the line goes on, the entry will be made of the value so far and what is still to
come.
-/
import AnalyzerBridge.Proofs.Bytes.Lines
import AnalyzerBridge.Proofs.Toml.Flatten

namespace AnalyzerBridge

/-! ### The end of a line -/

namespace Bytes

/-- A line feed and what comes behind it, if anything does. -/
def endLine : Option Bytes → Bytes
  | none => []
  | some rest => 10 :: rest

end Bytes

namespace Toml

open Bytes (Tight endLine)

namespace Progress

/-- The entries of a text whose first line has the given number. -/
def read (p : Progress) (number : Nat) (text : Bytes) : List Entry :=
  p.entries number (Bytes.lines text)

/-- The entries of what is behind a line. -/
def readOn (p : Progress) (number : Nat) : Option Bytes → List Entry
  | none => p.entries number []
  | some rest => p.read number rest

variable {p q : Progress} {number : Nat}

theorem readLine_nil : p.readLine number [] = (p, []) := rfl

theorem entries_cons (p : Progress) (number : Nat) (line : Bytes) (lines : List Bytes) :
    p.entries number (line :: lines)
      = (p.readLine number line).2 ++ (p.readLine number line).1.entries (number + 1) lines := rfl

/-- A text is read line by line. -/
theorem read_endLine {line : Bytes} (h : 10 ∉ line) (tail : Option Bytes) :
    p.read number (line ++ endLine tail)
      = (p.readLine number line).2 ++ (p.readLine number line).1.readOn (number + 1) tail := by
  cases tail with
  | some rest => rw [read, endLine, Bytes.lines_append h]; rfl
  | none =>
      rw [read, endLine, List.append_nil]
      cases line with
      | nil => simp [Bytes.lines, readLine_nil, readOn, entries]
      | cons b rest => rw [Bytes.lines_of_not_mem h (by simp)]; rfl

end Progress

/-! ### Comments and blanks in a line -/

namespace IsRemark

variable {remark : Bytes}

theorem oneLine (h : IsRemark remark) : 10 ∉ remark := by
  cases h with
  | none => simp
  | comment text oneLine => simpa using oneLine

theorem count_lineFeed (h : IsRemark remark) : remark.count 10 = 0 :=
  List.count_eq_zero.mpr h.oneLine

theorem withoutComment (h : IsRemark remark) : withoutComment {} remark = [] := by
  cases h with
  | none => rfl
  | comment text oneLine => rfl

end IsRemark

theorem Whole.count_lineFeed {t : Bytes} {n : Int} (h : Whole t n) : t.count 10 = 0 :=
  List.count_eq_zero.mpr h.oneLine

/-- A token with blanks around it and a comment is one line. -/
theorem lineFeed_not_mem_line {a t d remark : Bytes} (ha : IsBlanks a) {n : Int} (ht : Token t n)
    (hd : IsBlanks d) (hremark : IsRemark remark) : 10 ∉ a ++ t ++ (d ++ remark) := by
  simp only [List.mem_append, not_or]
  exact ⟨⟨ha.whole.oneLine, ht.whole.oneLine⟩, hd.whole.oneLine, hremark.oneLine⟩

/-- What the reader sees of a line: neither the comment nor the blanks around the rest. -/
theorem trim_withoutComment {a t d remark : Bytes} (ha : IsBlanks a) {n : Int} (ht : Token t n)
    (hd : IsBlanks d) (hremark : IsRemark remark) :
    Bytes.trim (withoutComment {} (a ++ t ++ (d ++ remark))) = t := by
  have hwhole := (ha.whole.append ht.whole).append hd.whole
  rw [← List.append_assoc, hwhole.withoutComment_append, hremark.withoutComment, List.append_nil]
  exact Bytes.trim_of_tight ha.blank ht.tight hd.blank

namespace Progress

variable {p q : Progress} {number : Nat} {a t d remark : Bytes} {n : Int}

/-- A line with a token in it. -/
theorem readLine_token (ha : IsBlanks a) (ht : Token t n) (hd : IsBlanks d)
    (hremark : IsRemark remark) :
    p.readLine number (a ++ t ++ (d ++ remark)) = p.readText number t := by
  have hne : t.isEmpty = false := by simpa using ht.nonempty
  simp only [readLine, trim_withoutComment ha ht hd hremark, hne, Bool.false_eq_true, if_false]

/-- A line with nothing in it. -/
theorem readLine_filler (ha : IsBlanks a) (hremark : IsRemark remark) :
    p.readLine number (a ++ remark) = (p, []) := by
  have hempty : Bytes.trim (withoutComment {} (a ++ remark)) = [] := by
    rw [ha.whole.withoutComment_append, hremark.withoutComment, List.append_nil]
    exact Bytes.trim_eq_nil ha.blank
  simp only [readLine, hempty, List.isEmpty_nil, if_true]

/-- A line with a token in it, and what comes behind. -/
theorem read_token (ha : IsBlanks a) (ht : Token t n) (hd : IsBlanks d) (hremark : IsRemark remark)
    (tail : Option Bytes) :
    p.read number (a ++ t ++ (d ++ remark) ++ endLine tail)
      = (p.readText number t).2 ++ (p.readText number t).1.readOn (number + 1) tail := by
  rw [read_endLine (lineFeed_not_mem_line ha ht hd hremark), readLine_token ha ht hd hremark]

/-- A line with nothing in it, and what comes behind. -/
theorem read_filler (ha : IsBlanks a) (hremark : IsRemark remark) (tail : Option Bytes) :
    p.read number (a ++ remark ++ endLine tail) = p.readOn (number + 1) tail := by
  have hline : 10 ∉ a ++ remark := by
    simp only [List.mem_append, not_or]
    exact ⟨ha.whole.oneLine, hremark.oneLine⟩
  rw [read_endLine hline, readLine_filler ha hremark]
  rfl

/-- The lines of a gap are passed over, up to the blanks in front of what comes next. -/
theorem read_gap {g : Bytes} (h : IsGap g) (p : Progress) (number : Nat) :
    ∃ a, IsBlanks a ∧ ∀ u, p.read number (g ++ u) = p.read (number + g.count 10) (a ++ u) := by
  induction h generalizing number with
  | @blanks t blank =>
      exact ⟨t, blank, fun u => by rw [blank.whole.count_lineFeed]; rfl⟩
  | @line t remark rest blank ends more ih =>
      obtain ⟨a, ha, hread⟩ := ih (number + 1)
      refine ⟨a, ha, fun u => ?_⟩
      have hline : p.read number (t ++ remark ++ endLine (some (rest ++ u)))
          = p.read (number + 1) (rest ++ u) := read_filler blank ends _
      have hcount : (t ++ remark ++ 10 :: rest).count 10 = 1 + rest.count 10 := by
        simp [List.count_append, blank.whole.count_lineFeed, ends.count_lineFeed, Nat.add_comm]
      calc p.read number (t ++ remark ++ 10 :: rest ++ u)
          = p.read number (t ++ remark ++ endLine (some (rest ++ u))) := by simp [endLine]
        _ = p.read (number + 1 + rest.count 10) (a ++ u) := by rw [hline, hread]
        _ = p.read (number + (t ++ remark ++ 10 :: rest).count 10) (a ++ u) := by
            rw [hcount, Nat.add_assoc]

/-! ### Values over several lines -/

/-- The progress with an entry that is still open. -/
def holding (p : Progress) (o : OpenEntry) : Progress := { p with openEntry := some o }

/-- Puts an entry away: it stays open if brackets in it are. -/
def settle (p : Progress) (o : OpenEntry) : Progress × List Entry :=
  if 0 < o.depth then (p.holding o, [])
  else ({ p with openEntry := none }, [o.entry])

theorem begin_eq_settle (h : p.openEntry = none) (e : Entry) :
    p.begin e = p.settle { first := e, depth := nesting {} e.value } := by
  have hclosed : { p with openEntry := none } = p := by rw [← h]
  simp [begin, settle, holding, hclosed, OpenEntry.entry]

theorem readText_of_assignment (h : p.openEntry = none) {text key value : Bytes}
    (hsplit : splitAssignment false text = some (key, value)) (number : Nat) :
    p.readText number text = p.settle
      { first := ⟨p.header, stringValue key, Bytes.trim value, number⟩
        depth := nesting {} (Bytes.trim value) } := by
  simp only [readText, h, hsplit]
  exact begin_eq_settle h _

theorem readText_of_header (h : p.openEntry = none) {text : Bytes}
    (hsplit : splitAssignment false text = none) (hhead : text.head? = some 91) (number : Nat) :
    p.readText number text = ({ p with header := headerName text }, []) := by
  simp only [readText, h, hsplit, if_pos hhead]

theorem readText_of_silent (h : p.openEntry = none) {text : Bytes}
    (hsplit : splitAssignment false text = none) (hhead : text.head? ≠ some 91) (number : Nat) :
    p.readText number text = (p, []) := by
  simp only [readText, h, hsplit, if_neg hhead]

/-- The line that starts an entry. -/
theorem readText_assign (hp : p.openEntry = none) (key : Key) {b c : Bytes} (hb : IsBlanks b)
    (hc : IsBlanks c) {t : Bytes} (ht : Tight t) (number : Nat) :
    p.readText number (key.val ++ b ++ 61 :: (c ++ t))
      = p.settle { first := ⟨p.header, key.val, t, number⟩, depth := nesting {} t } := by
  have htrim : Bytes.trim (c ++ t) = t := by
    simpa using Bytes.trim_of_tight hc.blank ht (d := []) (by simp)
  rw [readText_of_assignment hp (splitAssignment_key key hb _), stringValue_key key hb, htrim]

end Progress

theorem OpenEntry.entry_extend (o : OpenEntry) (text : Bytes) :
    (o.extend text).entry = { o.entry with value := o.entry.value ++ 32 :: text } := by
  simp [extend, entry]

/-- What stands in the line that the reader has begun belongs to an entry: however the line goes
on, the entry is made of the value so far and of that. -/
structure Cursor (p : Progress) (e : Entry) (q : Progress) (number : Nat) (cur : Bytes) : Prop where
  /-- The line is a token so far. -/
  token : ∃ n, Token cur n
  /-- Reading the line goes on with the entry. -/
  reads : ∀ u, Tight (e.value ++ u) → ∃ o : OpenEntry, o.entry = { e with value := e.value ++ u } ∧
    o.depth = nesting {} (e.value ++ u) ∧ q.readText number (cur ++ u) = p.settle o

namespace Cursor

variable {p q : Progress} {e : Entry} {number : Nat} {cur : Bytes}

/-- An entry begins on a line. -/
theorem start (hp : p.openEntry = none) (key : Key) {b c : Bytes} (hb : IsBlanks b)
    (hc : IsBlanks c) {w : Bytes} {n : Int} (hw : Token w n) :
    Cursor p ⟨p.header, key.val, w, number⟩ p number (key.val ++ b ++ 61 :: (c ++ w)) where
  token := ⟨n, .assign key hb hc hw⟩
  reads u hu := by
    refine ⟨{ first := ⟨p.header, key.val, w ++ u, number⟩, depth := nesting {} (w ++ u) },
      by simp [OpenEntry.entry], rfl, ?_⟩
    simpa using Progress.readText_assign hp key hb hc hu number

/-- The line of an entry goes on with blanks and a token. -/
theorem blanks (h : Cursor p e q number cur) {g w : Bytes} {k : Int} (hg : IsBlanks g)
    (hw : Token w k) :
    Cursor p { e with value := e.value ++ g ++ w } q number (cur ++ g ++ w) where
  token := by
    obtain ⟨n, hcur⟩ := h.token
    exact ⟨_, hcur.append hg.whole hw⟩
  reads u hu := by
    obtain ⟨o, hentry, hdepth, hread⟩ := h.reads (g ++ w ++ u) (by simpa using hu)
    exact ⟨o, by simpa using hentry, by simpa using hdepth, by simpa using hread⟩

/-- An entry goes on in the next line. -/
theorem next {o : OpenEntry} {n : Int} (ho : Whole o.entry.value n) (hdepth : o.depth = n)
    {w : Bytes} {k : Int} (hw : Token w k) (p : Progress) (number : Nat) :
    Cursor p { o.entry with value := o.entry.value ++ [32] ++ w } (p.holding o) number w where
  token := ⟨k, hw⟩
  reads u _ := by
    refine ⟨o.extend (w ++ u), by simp [OpenEntry.entry_extend], ?_, rfl⟩
    have hspace : Whole (o.entry.value ++ [32]) (n + 0) := ho.append IsBlanks.space.whole
    rw [List.append_assoc _ w u, nesting_append, hspace.nesting, hspace.after, OpenEntry.extend,
      hdepth, Int.add_zero]

/-- The line ends while the entry is open, or the entry is complete. -/
theorem stop (h : Cursor p e q number cur) (he : Tight e.value) :
    ∃ o : OpenEntry, o.entry = e ∧ o.depth = nesting {} e.value ∧
      q.readText number cur = p.settle o := by
  simpa using h.reads [] (by simpa using he)

end Cursor

/-- **A value over several lines is read as what becomes of it in one line.** -/
theorem Flattens.read {n : Int} {t t' : Bytes} (h : Flattens 0 n t t') {p : Progress}
    (hp : p.openEntry = none) (key : Key) {a b c : Bytes} (ha : IsBlanks a) (hb : IsBlanks b)
    (hc : IsBlanks c) (number : Nat) :
    ∃ q a' cur, IsBlanks a' ∧
      Cursor p ⟨p.header, key.val, t', number⟩ q (number + t.count 10) cur ∧
      ∀ u, p.read number (a ++ (key.val ++ b ++ 61 :: (c ++ t)) ++ u)
        = q.read (number + t.count 10) (a' ++ cur ++ u) := by
  -- From token to token, with the reader in the middle of the line that the token stands on.
  induction h with
  | @token w k token =>
      rw [token.whole.count_lineFeed]
      exact ⟨p, a, _, ha, .start hp key hb hc token, fun u => rfl⟩
  | @blanks n k t t' g w before blank token ih =>
      obtain ⟨q, a', cur, ha', hcursor, hread⟩ := ih
      have hcount : (t ++ g ++ w).count 10 = t.count 10 := by
        simp [List.count_append, blank.whole.count_lineFeed, token.whole.count_lineFeed]
      rw [hcount]
      refine ⟨q, a', cur ++ g ++ w, ha', hcursor.blanks blank token, fun u => ?_⟩
      simpa using hread (g ++ w ++ u)
  | @lines n k t t' d remark g w before isOpen blank ends more token ih =>
      obtain ⟨q, a', cur, ha', hcursor, hread⟩ := ih
      obtain ⟨m, hcur⟩ := hcursor.token
      have ht' := before.isToken
      rw [Int.sub_zero] at ht'
      obtain ⟨o, hentry, hdepth, hstop⟩ := hcursor.stop ht'.tight
      rw [ht'.whole.nesting] at hdepth
      -- A bracket is open, so the reader holds the entry and goes on.
      have hsettle : p.settle o = (p.holding o, []) :=
        if_pos (by rw [hdepth]; exact isOpen)
      -- The line ends, and those of the gap are passed over.
      obtain ⟨a'', ha'', hgap⟩ := Progress.read_gap more (p.holding o) (number + t.count 10 + 1)
      have hcount : number + (t ++ (d ++ remark ++ 10 :: g) ++ w).count 10
          = number + t.count 10 + 1 + g.count 10 := by
        simp [List.count_append, blank.whole.count_lineFeed, ends.count_lineFeed,
          token.whole.count_lineFeed]
        omega
      rw [hcount]
      have hwhole : Whole o.entry.value n := by rw [hentry]; exact ht'.whole
      have hnext := Cursor.next hwhole hdepth token p (number + t.count 10 + 1 + g.count 10)
      rw [hentry] at hnext
      refine ⟨p.holding o, a'', w, ha'', hnext, fun u => ?_⟩
      calc p.read number
            (a ++ (key.val ++ b ++ 61 :: (c ++ (t ++ (d ++ remark ++ 10 :: g) ++ w))) ++ u)
          = q.read (number + t.count 10)
              (a' ++ cur ++ (d ++ remark) ++ endLine (some (g ++ (w ++ u)))) := by
            simpa [endLine] using hread (d ++ remark ++ 10 :: (g ++ (w ++ u)))
        _ = (p.holding o).read (number + t.count 10 + 1) (g ++ (w ++ u)) := by
            rw [Progress.read_token ha' hcur blank ends, hstop, hsettle]
            rfl
        _ = (p.holding o).read (number + t.count 10 + 1 + g.count 10)
              (a'' ++ w ++ u) := by rw [List.append_assoc]; exact hgap (w ++ u)

end Toml

end AnalyzerBridge

/-
Values over several lines, and the same values in one line.

While brackets are open, a line break with the blanks and comments around it is read as one blank.
`Flattens m n t t'` says that `t'` is what becomes of `t` in this way if so many brackets are open
before it and behind it.  It goes from token to token, as the reader does from line to line, and
two such texts can be put together with a gap between them.

What becomes of a written form of a value is again a written form of it, now with blanks for gaps.
This goes by the grammar, for which the texts of its rules are put together token by token.
-/
import AnalyzerBridge.Proofs.Toml.Values

namespace AnalyzerBridge.Toml

/-- One text is the other with a blank for each gap that has line breaks in it.  There is such a
gap only where brackets are open; the numbers say how many are open before the text and behind
it. -/
inductive Flattens (m : Int) : Int → Bytes → Bytes → Prop
  /-- A token. -/
  | token {w : Bytes} {k : Int} (token : Token w k) : Flattens m (m + k) w w
  /-- Blanks and a token. -/
  | blanks {n k : Int} {t t' g w : Bytes} (before : Flattens m n t t') (blank : IsBlanks g)
      (token : Token w k) : Flattens m (n + k) (t ++ g ++ w) (t' ++ g ++ w)
  /-- Line breaks and a token. -/
  | lines {n k : Int} {t t' a remark g w : Bytes} (before : Flattens m n t t') (isOpen : 0 < n)
      (blank : IsBlanks a) (ends : IsRemark remark) (more : IsGap g) (token : Token w k) :
      Flattens m (n + k) (t ++ (a ++ remark ++ 10 :: g) ++ w) (t' ++ [32] ++ w)

namespace Flattens

variable {m n k : Int} {t t' u u' g w : Bytes}

/-- What comes out is a token. -/
theorem isToken (h : Flattens m n t t') : Token t' (n - m) := by
  induction h with
  | @token w k token =>
      rw [show m + k - m = k by omega]
      exact token
  | @blanks n k t t' g w before blank token ih =>
      rw [show n + k - m = n - m + 0 + k by omega]
      exact ih.append blank.whole token
  | @lines n k t t' a remark g w before isOpen blank ends more token ih =>
      rw [show n + k - m = n - m + 0 + k by omega]
      exact ih.append IsBlanks.space.whole token

/-- A gap and a token go on with the text. -/
theorem gap (h : Flattens m n t t') (hopen : 0 < n) (hg : IsGap g) (hw : Token w k) :
    ∃ g', IsBlanks g' ∧ Flattens m (n + k) (t ++ g ++ w) (t' ++ g' ++ w) := by
  cases hg with
  | blanks blank => exact ⟨g, blank, h.blanks blank hw⟩
  | line blank ends more => exact ⟨[32], .space, h.lines hopen blank ends more hw⟩

/-- Two texts with a gap between them. -/
theorem append (h : Flattens m n t t') (hopen : 0 < n) (hg : IsGap g) (hu : Flattens n k u u') :
    ∃ g', IsBlanks g' ∧ Flattens m k (t ++ g ++ u) (t' ++ g' ++ u') := by
  induction hu with
  | token token => exact h.gap hopen hg token
  | blanks before blank token ih =>
      obtain ⟨g', hg', hflat⟩ := ih
      exact ⟨g', hg', by simpa using hflat.blanks blank token⟩
  | lines before isOpen blank ends more token ih =>
      obtain ⟨g', hg', hflat⟩ := ih
      exact ⟨g', hg', by simpa using hflat.lines isOpen blank ends more token⟩

end Flattens

/-! ### Written forms -/

section

variable {α : Type} {item item' : α → Bytes → Prop} {m n : Int}

/-- Items with commas between them, between the token that opens the brackets and the one that
closes them. -/
theorem Separated.flattens (hopen : 0 < n)
    (hitem : ∀ a t, item a t → ∃ t', item' a t' ∧ Flattens n n t t') {as : List α} {u : Bytes}
    (h : Separated IsGap item as u) {p p' g w : Bytes} {k : Int} (hp : Flattens m n p p')
    (hg : IsGap g) (hw : Token w k) :
    ∃ g' u', IsBlanks g' ∧ Separated IsBlanks item' as u' ∧
      Flattens m (n + k) (p ++ (g ++ u) ++ w) (p' ++ (g' ++ u') ++ w) := by
  -- From item to item, with what stands before the next gap as the text so far.
  induction h generalizing p p' g with
  | none =>
      obtain ⟨g', hg', hflat⟩ := hp.gap hopen hg hw
      exact ⟨g', [], hg', .none, by simpa using hflat⟩
  | last written behind =>
      obtain ⟨t', hwritten, ht⟩ := hitem _ _ written
      obtain ⟨g', hg', hfront⟩ := hp.append hopen hg ht
      obtain ⟨e', he', hflat⟩ := hfront.gap hopen behind hw
      exact ⟨g', t' ++ e', hg', .last hwritten he', by simpa using hflat⟩
  | more written behind ahead rest ih =>
      obtain ⟨t', hwritten, ht⟩ := hitem _ _ written
      obtain ⟨g', hg', hfront⟩ := hp.append hopen hg ht
      obtain ⟨e', he', hcomma⟩ := hfront.gap hopen behind Token.comma
      rw [Int.add_zero] at hcomma
      obtain ⟨f', u', hf', hrest, hflat⟩ := ih hcomma ahead
      exact ⟨g', t' ++ e' ++ 44 :: (f' ++ u'), hg', .more hwritten he' hf' hrest,
        by simpa using hflat⟩

end

/-- A text that is one token. -/
theorem Token.flattens {n : Int} {t : Bytes} (h : Token t 0) : Flattens n n t t := by
  simpa using Flattens.token (m := n) h

variable {n : Int} {t : Bytes}

theorem Datum.Written.flattens {d : Datum} (h : d.Written IsGap t) (hn : 0 ≤ n) :
    ∃ t', d.Written IsBlanks t' ∧ Flattens n n t t' := by
  cases h with
  | text s => exact ⟨_, .text s, (Token.quote s).flattens⟩
  | texts ahead items =>
      have hopen : Flattens n (n + 1) [91] [91] := .token (.opening (.inl rfl))
      have hitem : ∀ s t, t = quote s → ∃ t', t' = quote s ∧ Flattens (n + 1) (n + 1) t t' :=
        fun s t h => ⟨t, h, (quote_item h).toToken.flattens⟩
      obtain ⟨g', u', hg', hitems, hflat⟩ :=
        items.flattens (by omega) hitem hopen ahead (.closing (.inl rfl))
      rw [show n + 1 + -1 = n by omega] at hflat
      exact ⟨_, .texts hg' hitems, hflat⟩
  | truth b => exact ⟨_, .truth b, (Token.truthWord b).flattens⟩

theorem FieldWritten.flattens {field : Key × Datum} (h : FieldWritten IsGap field t) (hn : 0 < n) :
    ∃ t', FieldWritten IsBlanks field t' ∧ Flattens n n t t' := by
  cases h with
  | @assign k d g g' t behind ahead value =>
      obtain ⟨t', hvalue, ht⟩ := value.flattens (Int.le_of_lt hn)
      obtain ⟨e, he, hequals⟩ := (Token.key k).flattens.gap hn behind Token.equals
      rw [Int.add_zero] at hequals
      obtain ⟨e', he', hflat⟩ := hequals.append hn ahead ht
      exact ⟨_, .assign he he' hvalue, by simpa using hflat⟩

/-- **What becomes of a value over several lines is the value in one line.** -/
theorem Value.Written.flattens {v : Value} (h : v.Written IsGap t) :
    ∃ t', v.Written IsBlanks t' ∧ Flattens 0 0 t t' := by
  cases h with
  | datum value =>
      obtain ⟨t', hvalue, hflat⟩ := value.flattens (Int.le_refl 0)
      exact ⟨t', .datum hvalue, hflat⟩
  | table ahead items =>
      have hopen : Flattens 0 1 [123] [123] := .token (.opening (.inr rfl))
      obtain ⟨g', u', hg', hitems, hflat⟩ := items.flattens (by decide)
        (fun _ _ h => h.flattens (by decide)) hopen ahead (.closing (.inr rfl))
      exact ⟨_, .table hg' hitems, hflat⟩

end AnalyzerBridge.Toml

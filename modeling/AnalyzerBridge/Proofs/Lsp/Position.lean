/-
Columns are counted from bytes.

The end of a text is found without decoding it: each byte tells by its high bits how many units it
adds.  For a text that is the encoding of characters the bytes of one character add up to what the
character takes in sixteen-bit units, since its first byte says how long it is and the others add
nothing.  No byte of a longer character is a line feed, so lines are counted right as well.

One character is one step, and the rest is an induction on the text from its end.
-/
import Mathlib.Algebra.GroupWithZero.Nat
import Mathlib.Data.List.Induction
import AnalyzerBridge.Lsp.Position
import AnalyzerBridge.Proofs.Bytes

namespace AnalyzerBridge.Lsp

open String (utf8EncodeChar)

/-- The encoding of a text in UTF-8. -/
def utf8 (text : List Char) : Bytes := text.flatMap utf8EncodeChar

/-- The sixteen-bit units of a character: two beyond the first plane. -/
def utf16Units (c : Char) : Nat := if 0xFFFF < c.val then 2 else 1

/-- The part of a text behind its last line feed. -/
def lastLine (text : List Char) : List Char := (text.reverse.takeWhile (· != '\n')).reverse

namespace Position

/-! ### The bytes of a character -/

/-- The byte is no line feed and adds so many units. -/
def Adds (b : UInt8) (units : Nat) : Prop := b ≠ 10 ∧ unitsOf b = units

instance (b : UInt8) (units : Nat) : Decidable (Adds b units) :=
  inferInstanceAs (Decidable (b ≠ 10 ∧ unitsOf b = units))

/-- The first byte of a character in two, three or four bytes, and any further byte. -/
theorem adds_of_parts (b : UInt8) :
    Adds (b &&& 31 ||| 192) 1 ∧ Adds (b &&& 15 ||| 224) 1 ∧ Adds (b &&& 7 ||| 240) 2
      ∧ Adds (b &&& 63 ||| 128) 0 :=
  Bytes.forall_byte
    (P := fun b => Adds (b &&& 31 ||| 192) 1 ∧ Adds (b &&& 15 ||| 224) 1 ∧ Adds (b &&& 7 ||| 240) 2
      ∧ Adds (b &&& 63 ||| 128) 0)
    (by decide +kernel) b

/-- A byte that is a whole character adds one unit. -/
theorem unitsOf_of_le {b : UInt8} : b ≤ 127 → unitsOf b = 1 :=
  Bytes.forall_byte (P := fun b => b ≤ 127 → unitsOf b = 1) (by decide +kernel) b

theorem advance_of_adds {b : UInt8} {units : Nat} (h : Adds b units) (p : Position) :
    p.advance b = ⟨p.line, p.character + units⟩ := by
  rw [advance, if_neg h.1, h.2]

theorem advance_further (b : UInt8) (p : Position) : p.advance (b &&& 63 ||| 128) = p :=
  advance_of_adds (adds_of_parts b).2.2.2 p

/-! ### One character -/

/-- The place behind one more character. -/
def advanceChar (p : Position) (c : Char) : Position :=
  if c = '\n' then ⟨p.line + 1, 0⟩ else ⟨p.line, p.character + utf16Units c⟩

theorem toUInt8_eq_ten_iff {c : Char} (h : c.val ≤ 127) : c.val.toUInt8 = 10 ↔ c = '\n' := by
  have hle : c.val.toNat ≤ 127 := UInt32.le_iff_toNat_le.mp h
  have hten : (10 : UInt8).toNat = 10 := rfl
  have hfeed : ('\n').val.toNat = 10 := rfl
  rw [Char.ext_iff, ← UInt8.toNat_inj, ← UInt32.toNat_inj, UInt32.toNat_toUInt8]
  omega

theorem toUInt8_le {c : Char} (h : c.val ≤ 127) : c.val.toUInt8 ≤ 127 := by
  have hle : c.val.toNat ≤ 127 := UInt32.le_iff_toNat_le.mp h
  have hbound : (127 : UInt8).toNat = 127 := rfl
  rw [UInt8.le_iff_toNat_le, UInt32.toNat_toUInt8]
  omega

/-- A character of more than one byte is no line feed. -/
theorem advanceChar_of_lt {c : Char} (h : 127 < c.val) (p : Position) :
    p.advanceChar c = ⟨p.line, p.character + utf16Units c⟩ := by
  refine if_neg ?_
  rintro rfl
  exact absurd h (by decide)

theorem utf16Units_of_le {c : Char} (h : c.val ≤ 65535) : utf16Units c = 1 :=
  if_neg (UInt32.not_lt.mpr h)

/-- **The bytes of a character lead as far as the character does.** -/
theorem foldl_utf8EncodeChar (c : Char) (p : Position) :
    (utf8EncodeChar c).foldl advance p = p.advanceChar c := by
  rcases c.utf8Size_eq with hone | htwo | hthree | hfour
  · have hle : c.val ≤ 127 := Char.utf8Size_eq_one_iff.mp hone
    have hunits : utf16Units c = 1 := utf16Units_of_le (UInt32.le_trans hle (by decide))
    rw [String.utf8EncodeChar_eq_singleton hone, List.foldl_cons, List.foldl_nil, advance,
      advanceChar, unitsOf_of_le (toUInt8_le hle), hunits]
    by_cases hfeed : c = '\n'
    · rw [if_pos ((toUInt8_eq_ten_iff hle).mpr hfeed), if_pos hfeed]
    · rw [if_neg (hfeed ∘ (toUInt8_eq_ten_iff hle).mp), if_neg hfeed]
  · obtain ⟨hlt, hle⟩ := Char.utf8Size_eq_two_iff.mp htwo
    rw [String.utf8EncodeChar_eq_cons_cons htwo, List.foldl_cons, List.foldl_cons, List.foldl_nil,
      advance_further, advance_of_adds (adds_of_parts _).1, advanceChar_of_lt hlt,
      utf16Units_of_le (UInt32.le_trans hle (by decide))]
  · obtain ⟨hlt, hle⟩ := Char.utf8Size_eq_three_iff.mp hthree
    rw [String.utf8EncodeChar_eq_cons_cons_cons hthree, List.foldl_cons, List.foldl_cons,
      List.foldl_cons, List.foldl_nil, advance_further, advance_further,
      advance_of_adds (adds_of_parts _).2.1, advanceChar_of_lt (UInt32.lt_trans (by decide) hlt),
      utf16Units_of_le hle]
  · have hlt : 65535 < c.val := Char.utf8Size_eq_four_iff.mp hfour
    have hunits : utf16Units c = 2 := if_pos hlt
    rw [String.utf8EncodeChar_eq_cons_cons_cons_cons hfour, List.foldl_cons, List.foldl_cons,
      List.foldl_cons, List.foldl_cons, List.foldl_nil, advance_further, advance_further,
      advance_further, advance_of_adds (adds_of_parts _).2.2.1,
      advanceChar_of_lt (UInt32.lt_trans (by decide) hlt), hunits]

/-! ### All characters -/

theorem endOf_utf8 (text : List Char) : endOf (utf8 text) = text.foldl advanceChar {} := by
  rw [endOf, utf8, List.foldl_flatMap]
  simp only [foldl_utf8EncodeChar]

theorem lastLine_concat (text : List Char) (c : Char) :
    lastLine (text ++ [c]) = if c = '\n' then [] else lastLine text ++ [c] := by
  unfold lastLine
  rw [List.reverse_concat]
  by_cases hfeed : c = '\n'
  · rw [if_pos hfeed, List.takeWhile_cons_of_neg (by simp [hfeed])]
    rfl
  · rw [if_neg hfeed, List.takeWhile_cons_of_pos (by simpa using hfeed), List.reverse_cons]

/-- Going on by characters counts line feeds, and units from the last one on. -/
theorem foldl_advanceChar (text : List Char) :
    text.foldl advanceChar {} = ⟨text.count '\n', ((lastLine text).map utf16Units).sum⟩ := by
  induction text using List.reverseRecOn with
  | nil => rfl
  | append_singleton text c ih =>
      rw [List.foldl_concat, ih, advanceChar, lastLine_concat, List.count_append]
      by_cases hfeed : c = '\n'
      · rw [if_pos hfeed, if_pos hfeed, hfeed]
        rfl
      · rw [if_neg hfeed, if_neg hfeed, List.count_singleton, if_neg (by simpa using hfeed)]
        simp

/-- A character adds no more to a position than it has bytes. -/
theorem advanceChar_le (p : Position) (c : Char) :
    (p.advanceChar c).line + (p.advanceChar c).character
      ≤ p.line + p.character + (utf8EncodeChar c).length := by
  rw [String.length_utf8EncodeChar, advanceChar]
  have hsize := c.utf8Size_pos
  split
  · dsimp only
    omega
  · rw [utf16Units]
    split
    case isTrue hlt =>
      have hfour : c.utf8Size = 4 := Char.utf8Size_eq_four_iff.mpr hlt
      dsimp only
      omega
    case isFalse =>
      dsimp only
      omega

theorem endOf_le (text : List Char) :
    (endOf (utf8 text)).line + (endOf (utf8 text)).character ≤ (utf8 text).length := by
  induction text using List.reverseRecOn with
  | nil => exact Nat.le_refl 0
  | append_singleton text c ih =>
      have hstep := advanceChar_le (endOf (utf8 text)) c
      have hbytes : utf8 (text ++ [c]) = utf8 text ++ utf8EncodeChar c := by simp [utf8]
      rw [endOf_utf8, List.foldl_concat, ← endOf_utf8, hbytes, List.length_append]
      omega

/--
**The end of a text is found on the line behind its last line feed, in sixteen-bit units.**

Neither number is greater than the number of bytes, so that a text of less than `2 ^ 31` bytes has
no position that a word of 32 bits could not hold.
-/
theorem endOf_counts (text : List Char) :
    (endOf (utf8 text)).line = text.count '\n'
      ∧ (endOf (utf8 text)).character = ((lastLine text).map utf16Units).sum
      ∧ (endOf (utf8 text)).line + (endOf (utf8 text)).character ≤ (utf8 text).length := by
  have hend := (endOf_utf8 text).trans (foldl_advanceChar text)
  exact ⟨congrArg line hend, congrArg character hend, endOf_le text⟩

example : endOf (utf8 ['a', '\n', 'é', '€', '😀']) = ⟨1, 4⟩ := by decide

end Position

end AnalyzerBridge.Lsp

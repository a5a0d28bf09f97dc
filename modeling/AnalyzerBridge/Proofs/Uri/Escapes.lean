/-
Which escapes are undone.

The two bytes behind a percent sign are taken for an escape if they are an integer of base sixteen
from the first to the last.  Two hexadecimal digits are one, and so is a single digit behind a blank
or a sign.  A reader that knows only the first sort is the reference here: it gives what decoding
gives exactly for the texts without an escape of the second sort.

A percent sign is no digit, no blank and no sign.  So none is ever read as part of an escape that
an earlier one starts, whichever sorts are known, and the two readers stop at the same ones.
-/
import Mathlib.Data.List.Infix
import AnalyzerBridge.Proofs.Bytes.Numeral
import AnalyzerBridge.Proofs.Uri

namespace AnalyzerBridge.Uri

open Bytes (isBlank)
open Numeral (digitBelow)

/-! ### The two bytes behind a percent sign -/

/-- The value of a hexadecimal digit of either case. -/
def hexValue? (b : UInt8) : Option Nat := (ascii "0123456789abcdef").idxOf? (Bytes.lower b)

/-- The byte that two hexadecimal digits denote. -/
def pairByte (a b : UInt8) : Option UInt8 :=
  match hexValue? a, hexValue? b with
  | some high, some low => some (UInt8.ofNat (16 * high + low))
  | _, _ => none

/-- The byte that one hexadecimal digit denotes behind a blank or a sign. -/
def loneByte (a b : UInt8) : Option UInt8 :=
  if isBlank a || a == 43 then (hexValue? b).map UInt8.ofNat
  else if a == 45 then (hexValue? b).map fun low => -UInt8.ofNat low
  else none

/-- What is found by looking at each of the 256 bytes: which of them are digits, that no digit may
stand before a number, and what a single byte denotes behind a plus, a minus and a space. -/
theorem facts_of_byte (b : UInt8) :
    hexValue? b = digitBelow 16 b
      ∧ ((digitBelow 16 b).isSome = true → b ≠ 37 ∧ isBlank b = false ∧ b ≠ 43 ∧ b ≠ 45)
      ∧ escapedByte 43 b = (digitBelow 16 b).map UInt8.ofNat
      ∧ escapedByte 45 b = (digitBelow 16 b).map (fun low => -UInt8.ofNat low)
      ∧ escapedByte 32 b = (digitBelow 16 b).map UInt8.ofNat :=
  Bytes.forall_byte (P := fun b => hexValue? b = digitBelow 16 b
      ∧ ((digitBelow 16 b).isSome = true → b ≠ 37 ∧ isBlank b = false ∧ b ≠ 43 ∧ b ≠ 45)
      ∧ escapedByte 43 b = (digitBelow 16 b).map UInt8.ofNat
      ∧ escapedByte 45 b = (digitBelow 16 b).map (fun low => -UInt8.ofNat low)
      ∧ escapedByte 32 b = (digitBelow 16 b).map UInt8.ofNat)
    (by decide +kernel) b

theorem hexValue?_eq (b : UInt8) : hexValue? b = digitBelow 16 b := (facts_of_byte b).1

theorem hexValue?_lt {b : UInt8} {n : Nat} (h : hexValue? b = some n) : n < 16 := by
  rw [hexValue?_eq, digitBelow, Option.filter_eq_some_iff] at h
  simpa using h.2

/-- A hexadecimal digit is neither a percent sign nor anything that may stand before a number. -/
theorem plain_of_hexValue? {b : UInt8} (h : (hexValue? b).isSome = true) :
    b ≠ 37 ∧ isBlank b = false ∧ b ≠ 43 ∧ b ≠ 45 := by
  obtain ⟨hvalue, hplain, -⟩ := facts_of_byte b
  rw [hvalue] at h
  exact hplain h

theorem escapedByte_plus (b : UInt8) : escapedByte 43 b = (hexValue? b).map UInt8.ofNat := by
  obtain ⟨hvalue, -, hplus, -⟩ := facts_of_byte b
  rw [hplus, hvalue]

theorem escapedByte_minus (b : UInt8) :
    escapedByte 45 b = (hexValue? b).map fun low => -UInt8.ofNat low := by
  obtain ⟨hvalue, -, -, hminus, -⟩ := facts_of_byte b
  rw [hminus, hvalue]

/-- A blank in front is passed over, whichever it is. -/
theorem escapedByte_of_blank {a : UInt8} (h : isBlank a = true) (b : UInt8) :
    escapedByte a b = (hexValue? b).map UInt8.ofNat := by
  obtain ⟨hvalue, -, -, -, hspace⟩ := facts_of_byte b
  have hdrop : Bytes.trimStart [a, b] = Bytes.trimStart [32, b] := by
    simp [Bytes.trimStart, h, show isBlank 32 = true from rfl]
  have hsame : escapedByte a b = escapedByte 32 b := by
    rw [escapedByte, escapedByte, Numeral.scan, Numeral.scan, hdrop]
  rw [hsame, hspace, hvalue]

theorem magnitude_of_no_digit {a : UInt8} (h : hexValue? a = none) (b : UInt8) :
    Numeral.magnitude .sixteen [a, b] = none := by
  have ha : a ≠ 48 := by
    rintro rfl
    exact absurd h (by decide)
  simp [Numeral.magnitude, Numeral.afterHexMark, ha, Numeral.plainBase, Numeral.magnitudeIn,
    ← hexValue?_eq, h]

/-- A single digit is read as far as it goes, be it the zero of a `0x` that nothing follows. -/
theorem magnitude_of_one_digit {a b : UInt8} {high : Nat} (ha : hexValue? a = some high)
    (hb : hexValue? b = none) : ∃ n, Numeral.magnitude .sixteen [a, b] = some (n, [b]) := by
  unfold Numeral.magnitude
  by_cases hmark : a = 48 ∧ Bytes.lower b = 120
  · exact ⟨0, by simp [Numeral.afterHexMark, hmark, Numeral.magnitudeIn]⟩
  · have hplain : Numeral.afterHexMark [a, b] = none := by simpa [Numeral.afterHexMark] using hmark
    exact ⟨high, by simp [hplain, Numeral.plainBase, Numeral.magnitudeIn, Numeral.digits,
      ← hexValue?_eq, ha, hb]⟩

theorem magnitude_of_two_digits {a b : UInt8} {high low : Nat} (ha : hexValue? a = some high)
    (hb : hexValue? b = some low) :
    Numeral.magnitude .sixteen [a, b] = some (16 * high + low, []) := by
  have hx : Bytes.lower b ≠ 120 := by
    intro hx
    have hnone : hexValue? b = none := by
      rw [hexValue?, hx]
      decide
    exact absurd (hnone.symm.trans hb) nofun
  have hsmall : Numeral.extend 16 high low = 16 * high + low := by
    have hhigh := hexValue?_lt ha
    have hlow := hexValue?_lt hb
    unfold Numeral.extend Numeral.magnitudeLimit
    omega
  simp [Numeral.magnitude, Numeral.afterHexMark, hx, Numeral.plainBase, Numeral.magnitudeIn,
    Numeral.digits, ← hexValue?_eq, ha, hb, hsmall]

theorem ofInt_natCast (n : Nat) : UInt8.ofInt (n : Int) = UInt8.ofNat n := by
  rw [UInt8.ofInt]
  norm_cast
  exact UInt8.ofNat_mod_size

/-- With neither a blank nor a sign in front, two digits are needed. -/
theorem escapedByte_of_plain {a : UInt8} (hblank : isBlank a = false) (hplus : a ≠ 43)
    (hminus : a ≠ 45) (b : UInt8) : escapedByte a b = pairByte a b := by
  have hscan : Numeral.scan .sixteen [a, b]
      = (Numeral.magnitude .sixteen [a, b]).map
          fun found => (Numeral.saturate found.1, found.2) := by
    simp [Numeral.scan, Bytes.trimStart, hblank, Numeral.sign, hplus, hminus]
  rw [escapedByte, hscan, pairByte]
  cases ha : hexValue? a with
  | none => rw [magnitude_of_no_digit ha]; rfl
  | some high =>
      cases hb : hexValue? b with
      | none =>
          obtain ⟨n, hn⟩ := magnitude_of_one_digit ha hb
          rw [hn]
          rfl
      | some low =>
          have hfits : Numeral.saturate (16 * high + low : Nat) = (16 * high + low : Nat) := by
            have hhigh := hexValue?_lt ha
            have hlow := hexValue?_lt hb
            exact Numeral.saturate_of_fits ⟨by omega, by omega⟩
          rw [magnitude_of_two_digits ha hb]
          simp only [Option.map_some, hfits, ofInt_natCast]

theorem pairByte_of_none {a : UInt8} (h : hexValue? a = none) (b : UInt8) :
    pairByte a b = none := by
  rw [pairByte, h]

/-- **Two digits are an escape, and so are a blank or a sign and one digit; nothing else is.** -/
theorem escapedByte_eq (a b : UInt8) : escapedByte a b = (pairByte a b).or (loneByte a b) := by
  by_cases hplain : isBlank a = false ∧ a ≠ 43 ∧ a ≠ 45
  · obtain ⟨hblank, hplus, hminus⟩ := hplain
    rw [escapedByte_of_plain hblank hplus hminus]
    simp [loneByte, hblank, hplus, hminus]
  · have hnone : hexValue? a = none := by
      cases h : hexValue? a with
      | none => rfl
      | some n => exact absurd (plain_of_hexValue? (by rw [h]; rfl)).2 hplain
    rw [pairByte_of_none hnone, Option.none_or, loneByte]
    by_cases hblank : isBlank a = true
    · simp [escapedByte_of_blank hblank, hblank]
    · by_cases hplus : a = 43
      · simp [hplus, escapedByte_plus]
      · have hminus : a = 45 := by
          by_contra hminus
          exact hplain ⟨by simpa using hblank, hplus, hminus⟩
        simp [hminus, escapedByte_minus, show isBlank 45 = false from rfl]

/-! ### Reading a text -/

/-- The text with its escapes undone, from the left to the right: `read` tells which two bytes
behind a percent sign are an escape, and of which byte.  All other bytes are copied. -/
def decodeWith (read : UInt8 → UInt8 → Option UInt8) : Bytes → Bytes
  | 37 :: a :: b :: rest =>
    match read a b with
    | some byte => byte :: decodeWith read rest
    | none => 37 :: decodeWith read (a :: b :: rest)
  | c :: rest => c :: decodeWith read rest
  | [] => []

theorem decodeWith_cons_of_ne {c : UInt8} (h : c ≠ 37) (read : UInt8 → UInt8 → Option UInt8)
    (rest : Bytes) : decodeWith read (c :: rest) = c :: decodeWith read rest := by
  rw [decodeWith]
  rintro a b rest rfl
  exact absurd rfl h

/-- Too short a text has no escape. -/
theorem decodeWith_of_length_lt {text : Bytes} (h : text.length < 3)
    (read : UInt8 → UInt8 → Option UInt8) : decodeWith read text = text := by
  match text with
  | [] => rfl
  | [c] => simp [decodeWith]
  | [c, d] => simp [decodeWith]

theorem length_lt_of_forall_ne {text : Bytes}
    (h : ∀ c a b rest, text = c :: a :: b :: rest → False) : text.length < 3 := by
  match text with
  | [] | [_] | [_, _] => simp
  | c :: a :: b :: rest => exact absurd rfl (h c a b rest)

theorem decode_eq_decodeWith (text : Bytes) : decode text = decodeWith escapedByte text := by
  induction text using decode.induct with
  | case1 a b rest byte hbyte ih => rw [decode, if_pos rfl, hbyte, decodeWith, hbyte, ih]
  | case2 a b rest hnone ih => rw [decode, if_pos rfl, hnone, decodeWith, hnone, ih]
  | case3 c a b rest hne ih => rw [decode_cons_of_ne hne, decodeWith_cons_of_ne hne, ih]
  | case4 short hshort =>
      rw [decodeWith_of_length_lt (length_lt_of_forall_ne hshort), decode]
      exact hshort

/-! ### Escapes of one digit -/

/-- Somewhere a percent sign is followed by a blank or a sign and one digit. -/
def HasLoneEscape (text : Bytes) : Prop :=
  ∃ a b, [37, a, b] <:+: text ∧ (loneByte a b).isSome = true

theorem hasLoneEscape_cons_of_ne {c : UInt8} (h : c ≠ 37) (rest : Bytes) :
    HasLoneEscape (c :: rest) ↔ HasLoneEscape rest := by
  simp [HasLoneEscape, List.infix_cons_iff, h.symm]

theorem hasLoneEscape_percent (a b : UInt8) (rest : Bytes) :
    HasLoneEscape (37 :: a :: b :: rest)
      ↔ (loneByte a b).isSome = true ∨ HasLoneEscape (a :: b :: rest) := by
  constructor
  · rintro ⟨x, y, hinfix, hlone⟩
    rcases List.infix_cons_iff.mp hinfix with hprefix | hlater
    · obtain ⟨rfl, rfl⟩ : x = a ∧ y = b := by simpa using hprefix
      exact .inl hlone
    · exact .inr ⟨x, y, hlater, hlone⟩
  · rintro (hlone | ⟨x, y, hinfix, hlone⟩)
    · exact ⟨a, b, ⟨[], rest, rfl⟩, hlone⟩
    · exact ⟨x, y, List.infix_cons hinfix, hlone⟩

theorem not_hasLoneEscape_of_length_lt {text : Bytes} (h : text.length < 3) :
    ¬HasLoneEscape text := by
  rintro ⟨a, b, hinfix, -⟩
  have hlength := hinfix.length_le
  simp at hlength
  omega

theorem isSome_of_pairByte {a b byte : UInt8} (h : pairByte a b = some byte) :
    (hexValue? a).isSome = true ∧ (hexValue? b).isSome = true := by
  rw [pairByte] at h
  cases ha : hexValue? a with
  | none => simp [ha] at h
  | some high =>
      cases hb : hexValue? b with
      | none => simp [ha, hb] at h
      | some low => exact ⟨rfl, rfl⟩

/-- Nothing is an escape of both sorts. -/
theorem loneByte_of_pairByte {a b byte : UInt8} (h : pairByte a b = some byte) :
    loneByte a b = none := by
  obtain ⟨-, hblank, hplus, hminus⟩ := plain_of_hexValue? (isSome_of_pairByte h).1
  simp [loneByte, hblank, hplus, hminus]

/-- No percent sign is the byte of an escape of one digit. -/
theorem loneByte_ne_percent (a b : UInt8) : loneByte a b ≠ some 37 := by
  have hsmall : ∀ low < 16, UInt8.ofNat low ≠ 37 ∧ -UInt8.ofNat low ≠ 37 := by decide
  intro h
  unfold loneByte at h
  split at h
  · obtain ⟨low, hlow, hbyte⟩ := Option.map_eq_some_iff.mp h
    exact (hsmall low (hexValue?_lt hlow)).1 hbyte
  · split at h
    · obtain ⟨low, hlow, hbyte⟩ := Option.map_eq_some_iff.mp h
      exact (hsmall low (hexValue?_lt hlow)).2 hbyte
    · exact nomatch h

/-- **Decoding agrees with a reader of two digits exactly where no single digit is taken.** -/
theorem decode_eq_reference_iff (text : Bytes) :
    decode text = decodeWith pairByte text ↔ ¬HasLoneEscape text := by
  induction text using decode.induct with
  | case1 a b rest byte hbyte ih =>
      rw [decode, if_pos rfl, hbyte, decodeWith]
      rw [escapedByte_eq] at hbyte
      cases hpair : pairByte a b with
      | none =>
          have hlone : loneByte a b = some byte := by rwa [hpair, Option.none_or] at hbyte
          have hne : byte ≠ 37 := by
            rintro rfl
            exact loneByte_ne_percent a b hlone
          simp [hasLoneEscape_percent, hlone, hne]
      | some other =>
          obtain rfl : other = byte := by simpa [hpair] using hbyte
          obtain ⟨ha, hb⟩ := isSome_of_pairByte hpair
          rw [hasLoneEscape_percent, loneByte_of_pairByte hpair,
            hasLoneEscape_cons_of_ne (plain_of_hexValue? ha).1,
            hasLoneEscape_cons_of_ne (plain_of_hexValue? hb).1]
          simpa using ih
  | case2 a b rest hnone ih =>
      rw [decode, if_pos rfl, hnone, decodeWith]
      rw [escapedByte_eq, Option.or_eq_none_iff] at hnone
      rw [hasLoneEscape_percent, hnone.1, hnone.2]
      simpa using ih
  | case3 c a b rest hne ih =>
      rw [decode_cons_of_ne hne, decodeWith_cons_of_ne hne, hasLoneEscape_cons_of_ne hne]
      simpa using ih
  | case4 short hshort =>
      have hlength := length_lt_of_forall_ne hshort
      rw [decodeWith_of_length_lt hlength, decode]
      · simp [not_hasLoneEscape_of_length_lt hlength]
      · exact hshort

/--
**Which escapes are undone.**

Decoding goes through the text from the left to the right and replaces a percent sign and two
hexadecimal digits by the byte that the digits denote, and also a percent sign, a blank or a sign,
and one digit; all else is copied.  So it is the reader of two digits, except for the texts in
which somewhere a single digit is taken.
-/
theorem decode_undoes_escapes (text : Bytes) :
    decode text = decodeWith (fun a b => (pairByte a b).or (loneByte a b)) text
      ∧ (decode text = decodeWith pairByte text ↔ ¬HasLoneEscape text) := by
  refine ⟨?_, decode_eq_reference_iff text⟩
  have hread : escapedByte = fun a b => (pairByte a b).or (loneByte a b) :=
    funext fun a => funext fun b => escapedByte_eq a b
  rw [decode_eq_decodeWith, hread]

/-- A percent sign, a plus sign and a digit do not stay as they are. -/
theorem lone_digit_is_decoded :
    decode (ascii "%+1") = [1] ∧ decodeWith pairByte (ascii "%+1") = ascii "%+1" := by
  decide +kernel

end AnalyzerBridge.Uri

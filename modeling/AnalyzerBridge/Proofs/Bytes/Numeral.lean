/-
What is read of a written integer.

A magnitude is read digit by digit and cut to its limit at every step.  Cutting early does no harm,
since more digits never make a number smaller: cutting once at the end comes to the same.  So the
decimal form of any integer, however long, is read to its end and as the nearest word of 64 bits.

The base is the one thing that could go wrong, as a zero in front announces eight.  The decimal
form of a number has a zero in front only if it is nothing else.

Of the word the low half is kept.  That is the number itself exactly if 32 bits can hold it.
-/
import AnalyzerBridge.Bytes.Numeral
import AnalyzerBridge.Proofs.Bytes

namespace AnalyzerBridge.Numeral

open Bytes (decimal decimalInt decimalValue isBlank isDigit)

/-! ### Magnitudes of base ten -/

theorem digitBelow_of_isDigit {b : UInt8} :
    isDigit b = true → digitBelow 10 b = some (b.toNat - 48) :=
  Bytes.forall_byte (P := fun b => isDigit b = true → digitBelow 10 b = some (b.toNat - 48))
    (by decide +kernel) b

/-- A number with more decimal digits behind it. -/
def followedBy (value : Nat) (ds : Bytes) : Nat :=
  ds.foldl (fun n b => n * 10 + (b.toNat - 48)) value

theorem extend_min (value digit : Nat) :
    extend 10 (min value magnitudeLimit) digit = min (value * 10 + digit) magnitudeLimit := by
  unfold extend
  omega

/-- Decimal digits are read to their end, and one cut is enough. -/
theorem digits_of_isDigit {ds : Bytes} (h : ∀ b ∈ ds, isDigit b = true) (value : Nat) :
    digits 10 (min value magnitudeLimit) ds = (min (followedBy value ds) magnitudeLimit, []) := by
  induction ds generalizing value with
  | nil => rfl
  | cons b rest ih =>
      rw [digits, digitBelow_of_isDigit (h b (by simp))]
      simp only [extend_min]
      exact ih (fun d hd => h d (by simp [hd])) _

theorem magnitudeIn_of_isDigit {ds : Bytes} (h : ∀ b ∈ ds, isDigit b = true) (hne : ds ≠ []) :
    magnitudeIn 10 ds = some (min (decimalValue ds) magnitudeLimit, []) := by
  obtain ⟨b, rest, rfl⟩ := List.exists_cons_of_ne_nil hne
  have hb : b.toNat - 48 = min (b.toNat - 48) magnitudeLimit := by
    have hlt := b.toNat_lt
    unfold magnitudeLimit
    omega
  have hvalue : decimalValue (b :: rest) = followedBy (b.toNat - 48) rest := by
    simp [decimalValue, followedBy]
  rw [magnitudeIn, digitBelow_of_isDigit (h b (by simp)), Option.map_some, hb,
    digits_of_isDigit (fun d hd => h d (by simp [hd])), hvalue]

/-! ### The decimal form of a number -/

theorem decimal_of_le {n : Nat} (h : 10 ≤ n) : ∃ d, decimal n = decimal (n / 10) ++ [d] := by
  unfold decimal
  rw [Nat.toDigits_of_base_le (by decide) h, List.map_append]
  exact ⟨_, rfl⟩

/-- Only zero has a zero in front. -/
theorem eq_zero_of_head? (n : Nat) (h : (decimal n).head? = some 48) : n = 0 := by
  induction n using Nat.strongRecOn with
  | ind n ih =>
      by_cases hle : 10 ≤ n
      · obtain ⟨d, hd⟩ := decimal_of_le hle
        rw [hd, List.head?_append_of_ne_nil _ (Bytes.decimal_ne_nil _)] at h
        have hzero := ih (n / 10) (by omega) h
        omega
      · have hsmall : ∀ n < 10, (decimal n).head? = some 48 → n = 0 := by decide
        exact hsmall n (by omega) h

theorem magnitude_decimal (n : Nat) :
    magnitude .announced (decimal n) = some (min n magnitudeLimit, []) := by
  have hread := magnitudeIn_of_isDigit (fun _ hb => Bytes.decimal_isDigit hb)
    (Bytes.decimal_ne_nil n)
  rw [Bytes.decimalValue_decimal] at hread
  -- With anything behind it, the first digit is not the zero that would announce another base.
  cases hform : decimal n with
  | nil => exact absurd hform (Bytes.decimal_ne_nil n)
  | cons b rest =>
      rw [hform] at hread
      cases rest with
      | nil => simpa [magnitude, afterHexMark, plainBase, announcedBase] using hread
      | cons c rest =>
          have hb : b ≠ 48 := by
            rintro rfl
            obtain rfl := eq_zero_of_head? n (by rw [hform]; rfl)
            exact absurd hform (by simp [decimal])
          simpa [magnitude, afterHexMark, plainBase, announcedBase, hb] using hread

theorem sign_decimal (n : Nat) : sign (decimal n) = (false, decimal n) := by
  obtain ⟨b, rest, hform⟩ := List.exists_cons_of_ne_nil (Bytes.decimal_ne_nil n)
  have hb : isDigit b = true := Bytes.decimal_isDigit (n := n) (by simp [hform])
  have hplus : b ≠ 43 := by
    rintro rfl
    exact absurd hb (by decide)
  have hminus : b ≠ 45 := by
    rintro rfl
    exact absurd hb (by decide)
  rw [hform, sign, if_neg hminus, if_neg hplus]

theorem mem_decimalInt {n : Int} {b : UInt8} (h : b ∈ decimalInt n) :
    b = 45 ∨ isDigit b = true := by
  unfold decimalInt at h
  split at h
  · rcases List.mem_cons.mp h with rfl | hmem
    · exact .inl rfl
    · exact .inr (Bytes.decimal_isDigit hmem)
  · exact .inr (Bytes.decimal_isDigit h)

theorem isBlank_of_mem_decimalInt {n : Int} {b : UInt8} (h : b ∈ decimalInt n) :
    isBlank b = false := by
  rcases mem_decimalInt h with rfl | hdigit
  · rfl
  · exact Bytes.isBlank_eq_false_of_isDigit hdigit

/-- Cutting the magnitude and taking the nearest word is taking the nearest word. -/
theorem saturate_min (n : Int) :
    saturate (if n < 0 then -((min n.natAbs magnitudeLimit : Nat) : Int)
      else ((min n.natAbs magnitudeLimit : Nat) : Int)) = saturate n := by
  unfold saturate least64 greatest64 magnitudeLimit
  split <;> omega

/-- **The decimal form of an integer is read to its end, as the nearest word of 64 bits.** -/
theorem scan_decimalInt (n : Int) : scan .announced (decimalInt n) = some (saturate n, []) := by
  have htrim : Bytes.trimStart (decimalInt n) = decimalInt n :=
    Bytes.dropWhile_blank_of_head? fun b hb =>
      isBlank_of_mem_decimalInt (List.mem_of_mem_head? hb)
  have hsign : sign (decimalInt n) = (decide (n < 0), decimal n.natAbs) := by
    unfold decimalInt
    split
    · rename_i hneg
      simp [sign, hneg]
    · rename_i hpos
      simp [sign_decimal, hpos]
  rw [scan, htrim, hsign, ← saturate_min n]
  simp [magnitude_decimal]

/-! ### Numbers that are too large -/

/-- The number can be held by a signed word of 32 bits. -/
def Fits (n : Int) : Prop := -2147483648 ≤ n ∧ n ≤ 2147483647

instance (n : Int) : Decidable (Fits n) :=
  inferInstanceAs (Decidable (-2147483648 ≤ n ∧ n ≤ 2147483647))

/-- What is left of a number: the low half of the nearest word of 64 bits. -/
def kept (n : Int) : Int := low32 (saturate n)

theorem fits_low32 (n : Int) : Fits (low32 n) := by
  unfold Fits low32 Int.bmod
  dsimp only
  split <;> omega

theorem low32_of_fits {n : Int} (h : Fits n) : low32 n = n := by
  unfold Fits at h
  unfold low32 Int.bmod
  dsimp only
  split <;> omega

theorem saturate_of_fits {n : Int} (h : Fits n) : saturate n = n := by
  unfold Fits at h
  unfold saturate least64 greatest64
  omega

/-- **A number is left as it is exactly if it fits.** -/
theorem kept_eq_iff {n : Int} : kept n = n ↔ Fits n := by
  constructor
  · intro h
    rw [← h]
    exact fits_low32 _
  · intro h
    rw [kept, saturate_of_fits h, low32_of_fits h]

end AnalyzerBridge.Numeral

/-
Cutting byte strings, and decimal numbers in them.

Everything that reads text here cuts it at a mark, trims the pieces and looks for
digits, so the laws of these three are kept in one place.  A cut is the same as a
decomposition of the text whose first part is free of the mark, which is how it is
used everywhere: `splitAt` never has to be unfolded again.

For numbers the law is that printing and adding up the digits are inverse.  The
library already proves it for characters, `Nat.ofDigitChars_ten_toDigits`; what is
added is the way from characters to bytes.
-/
import Mathlib.Data.List.Basic
import Mathlib.Data.List.TakeWhile
import AnalyzerBridge.Bytes

namespace AnalyzerBridge.Bytes

/-! ### Single bytes -/

/-- What holds of all 256 bytes can be decided by looking at each of them. -/
theorem forall_byte {P : UInt8 → Prop} (h : ∀ n, n < 256 → P (UInt8.ofNat n)) (b : UInt8) :
    P b := by
  have hb := h b.toNat b.toNat_lt
  rwa [UInt8.ofNat_toNat] at hb

/-- What holds of the bytes in a fixed text can be decided by looking at these. -/
theorem forall_mem_of_all {P : UInt8 → Prop} [DecidablePred P] {s : Bytes}
    (h : s.all (fun b => decide (P b)) = true) : ∀ b ∈ s, P b := by
  simpa using h

/-! ### Cutting at a mark -/

theorem splitAt_append {mark : UInt8} {before : Bytes} (h : mark ∉ before) (after : Bytes) :
    splitAt mark (before ++ mark :: after) = some (before, after) := by
  induction before with
  | nil => simp [splitAt]
  | cons b rest ih =>
      have hb : b ≠ mark := fun hc => h (by simp [hc])
      have hrest : mark ∉ rest := fun hc => h (by simp [hc])
      rw [List.cons_append, splitAt, if_neg hb, ih hrest]
      rfl

theorem splitAt_eq_none {mark : UInt8} {s : Bytes} (h : mark ∉ s) : splitAt mark s = none := by
  induction s with
  | nil => rfl
  | cons b rest ih =>
      have hb : b ≠ mark := fun hc => h (by simp [hc])
      rw [splitAt, if_neg hb, ih fun hc => h (by simp [hc])]
      rfl

/-- A text that has the mark is a part without it, the mark, and the rest. -/
theorem eq_append_of_mem {mark : UInt8} {s : Bytes} (h : mark ∈ s) :
    ∃ before after, s = before ++ mark :: after ∧ mark ∉ before := by
  obtain ⟨before, after, hs, hfree⟩ := List.eq_append_cons_of_mem h
  exact ⟨before, after, hs, hfree⟩

/-- A cut puts the text together again, and its first part is free of the mark. -/
theorem eq_append_of_splitAt {mark : UInt8} {s before after : Bytes}
    (h : splitAt mark s = some (before, after)) :
    s = before ++ mark :: after ∧ mark ∉ before := by
  by_cases hmem : mark ∈ s
  · obtain ⟨b, a, rfl, hfree⟩ := eq_append_of_mem hmem
    rw [splitAt_append hfree, Option.some.injEq, Prod.mk.injEq] at h
    obtain ⟨rfl, rfl⟩ := h
    exact ⟨rfl, hfree⟩
  · rw [splitAt_eq_none hmem] at h
    exact absurd h (by simp)

/-! ### Trimming -/

/-- A text with no blank in it is trimmed already. -/
theorem trim_of_forall_not_blank {s : Bytes} (h : ∀ b ∈ s, isBlank b = false) : trim s = s := by
  have hdrop : ∀ l : Bytes, (∀ b ∈ l, isBlank b = false) → l.dropWhile isBlank = l := by
    intro l hl
    cases l with
    | nil => rfl
    | cons b rest => simp [hl b (by simp)]
  rw [trim, trimStart, hdrop s h, trimEnd, hdrop s.reverse (by simpa using h), List.reverse_reverse]

theorem trim_cons_of_blank {b : UInt8} (h : isBlank b = true) (s : Bytes) :
    trim (b :: s) = trim s := by
  simp [trim, trimStart, h]

/-- Trimming leaves the text alone: it neither starts nor ends with a blank. -/
structure Tight (t : Bytes) : Prop where
  /-- It does not start with a blank. -/
  first : ∀ b ∈ t.head?, isBlank b = false
  /-- It does not end with one. -/
  last : ∀ b ∈ t.getLast?, isBlank b = false

theorem dropWhile_blank_append {t : Bytes} (h : ∀ b ∈ t, isBlank b = true) (u : Bytes) :
    (t ++ u).dropWhile isBlank = u.dropWhile isBlank := by
  rw [List.dropWhile_append]
  have hnil : t.dropWhile isBlank = [] := List.dropWhile_eq_nil_iff.mpr h
  simp [hnil]

theorem dropWhile_blank_of_head? {t : Bytes} (h : ∀ b ∈ t.head?, isBlank b = false) :
    t.dropWhile isBlank = t := by
  cases t with
  | nil => rfl
  | cons b rest => simp [h b rfl]

/-- **Trimming takes the blanks around a tight text away and nothing else.** -/
theorem trim_of_tight {a t d : Bytes} (ha : ∀ b ∈ a, isBlank b = true) (ht : Tight t)
    (hd : ∀ b ∈ d, isBlank b = true) : trim (a ++ t ++ d) = t := by
  have hback : trimEnd (t ++ d) = t := by
    have hfirst : ∀ b ∈ t.reverse.head?, isBlank b = false := by
      rw [List.head?_reverse]
      exact ht.last
    rw [trimEnd, List.reverse_append, dropWhile_blank_append (by simpa using hd),
      dropWhile_blank_of_head? hfirst, List.reverse_reverse]
  rw [trim, trimStart, List.append_assoc, dropWhile_blank_append ha]
  cases t with
  | nil =>
      have hnil : d.dropWhile isBlank = [] := List.dropWhile_eq_nil_iff.mpr hd
      rw [List.nil_append, hnil]
      rfl
  | cons b rest =>
      have hfront : ∀ c ∈ (b :: rest ++ d).head?, isBlank c = false := by simpa using ht.first
      rw [dropWhile_blank_of_head? hfront]
      exact hback

theorem Tight.trim_eq {t : Bytes} (h : Tight t) : trim t = t := by
  have htrim := trim_of_tight (a := []) (d := []) (by simp) h (by simp)
  simpa using htrim

theorem trim_eq_nil {t : Bytes} (h : ∀ b ∈ t, isBlank b = true) : trim t = [] := by
  have htrim := trim_of_tight (t := []) h ⟨by simp, by simp⟩ (d := []) (by simp)
  simpa using htrim

theorem Tight.of_forall {t : Bytes} (h : ∀ b ∈ t, isBlank b = false) : Tight t where
  first b hb := h b (List.mem_of_mem_head? hb)
  last b hb := h b (List.mem_of_mem_getLast? hb)

/-- What is taken away at the end of a text stands behind every byte that is to stay. -/
theorem exists_dropWhile_end {p : UInt8 → Bool} {c : UInt8} (hc : p c = false) (front t : Bytes) :
    ∃ u d, t = u ++ d ∧ (∀ x ∈ d, p x = true) ∧ (∀ x ∈ (c :: u).getLast?, p x = false)
      ∧ ((front ++ c :: t).reverse.dropWhile p).reverse = front ++ c :: u := by
  have hback : t = (t.reverse.dropWhile p).reverse ++ (t.reverse.takeWhile p).reverse := by
    rw [← List.reverse_append, List.takeWhile_append_dropWhile, List.reverse_reverse]
  refine ⟨_, _, hback, ?_, ?_, ?_⟩
  · intro x hx
    exact List.all_eq_true.mp List.all_takeWhile x (List.mem_reverse.mp hx)
  · intro x hx
    rw [List.getLast?_cons, List.getLast?_reverse] at hx
    have hstop := List.head?_dropWhile_not p t.reverse
    cases hhead : (t.reverse.dropWhile p).head? with
    | none =>
        rw [hhead] at hx
        obtain rfl : c = x := by simpa using hx
        exact hc
    | some y =>
        rw [hhead] at hx hstop
        obtain rfl : y = x := by simpa using hx
        exact hstop
  · have hsplit : (front ++ c :: t).reverse = t.reverse ++ c :: front.reverse := by simp
    rw [hsplit, List.dropWhile_append]
    cases hrest : t.reverse.dropWhile p with
    | nil => simp [hc]
    | cons x rest => simp

/-- Trimming a text that starts with no blank takes blanks away behind any other byte. -/
theorem exists_trim_append {c : UInt8} (hc : isBlank c = false) {front : Bytes}
    (hfront : ∀ b ∈ front.head?, isBlank b = false) (t : Bytes) :
    ∃ u d, t = u ++ d ∧ (∀ x ∈ d, isBlank x = true)
      ∧ (∀ x ∈ (c :: u).getLast?, isBlank x = false) ∧ trim (front ++ c :: t) = front ++ c :: u := by
  have hstart : (front ++ c :: t).dropWhile isBlank = front ++ c :: t := by
    refine dropWhile_blank_of_head? ?_
    cases front with
    | nil => simpa using hc
    | cons b front => simpa using hfront
  rw [trim, trimStart, hstart]
  exact exists_dropWhile_end hc front t

/-- A text that starts with no blank is a tight one with blanks behind. -/
theorem exists_tight_append {c : UInt8} (hc : isBlank c = false) (t : Bytes) :
    ∃ u d, t = u ++ d ∧ (∀ x ∈ d, isBlank x = true) ∧ Tight (c :: u) ∧ trim (c :: t) = c :: u := by
  obtain ⟨u, d, ht, hd, hlast, htrim⟩ := @exists_trim_append c hc [] (by simp) t
  exact ⟨u, d, ht, hd, ⟨by simpa using hc, hlast⟩, htrim⟩

/-- A text is a tight one with blanks around it. -/
theorem exists_tight (s : Bytes) :
    ∃ a t d, s = a ++ t ++ d ∧ (∀ b ∈ a, isBlank b = true) ∧ Tight t
      ∧ ∀ b ∈ d, isBlank b = true := by
  have hstart : ∀ b ∈ s.takeWhile isBlank, isBlank b = true := fun b hb =>
    List.all_eq_true.mp List.all_takeWhile b hb
  have hsplit : s.takeWhile isBlank ++ s.dropWhile isBlank = s := List.takeWhile_append_dropWhile
  cases hrest : s.dropWhile isBlank with
  | nil =>
      rw [hrest, List.append_nil] at hsplit
      exact ⟨s, [], [], by simp, hsplit ▸ hstart, ⟨by simp, by simp⟩, by simp⟩
  | cons c rest =>
      have hc : isBlank c = false := by
        have hstop := List.head?_dropWhile_not isBlank s
        rw [hrest] at hstop
        exact hstop
      obtain ⟨u, d, rfl, hd, ht, -⟩ := exists_tight_append hc rest
      rw [hrest] at hsplit
      exact ⟨s.takeWhile isBlank, c :: u, d, by simpa using hsplit.symm, hstart, ht, hd⟩

/-- Blanks behind a text do not matter. -/
theorem trim_append_of_blank {d : Bytes} (h : ∀ b ∈ d, isBlank b = true) (s : Bytes) :
    trim (s ++ d) = trim s := by
  obtain ⟨a, t, c, rfl, ha, ht, hc⟩ := exists_tight s
  have hblank : ∀ b ∈ c ++ d, isBlank b = true := by
    intro b hb
    rcases List.mem_append.mp hb with hmem | hmem
    · exact hc b hmem
    · exact h b hmem
  rw [List.append_assoc, trim_of_tight ha ht hblank, trim_of_tight ha ht hc]

/-- What stands between two tight texts does not matter. -/
theorem Tight.append {t u : Bytes} (ht : Tight t) (hu : Tight u) (hne : t ≠ []) (hne' : u ≠ [])
    (mid : Bytes) : Tight (t ++ mid ++ u) where
  first b hb := by
    obtain ⟨c, rest, rfl⟩ := List.exists_cons_of_ne_nil hne
    exact ht.first b (by simpa using hb)
  last b hb := by
    rw [List.getLast?_append_of_ne_nil _ hne'] at hb
    exact hu.last b hb

/-! ### Decimal numbers -/

/-- The number that a string of decimal digits denotes. -/
def decimalValue (digits : Bytes) : Nat := digits.foldl (fun n b => n * 10 + (b.toNat - 48)) 0

theorem isBlank_eq_false_of_isDigit {b : UInt8} : isDigit b = true → isBlank b = false :=
  forall_byte (P := fun b => isDigit b = true → isBlank b = false) (by decide +kernel) b

/-- A decimal digit is the same number as a character and as a byte. -/
theorem toNat_toUInt8_of_isDigit {c : Char} (h : c.isDigit = true) :
    c.val.toUInt8.toNat = c.toNat := by
  simp only [Char.isDigit, Bool.and_eq_true, decide_eq_true_eq] at h
  have hle : c.val.toNat ≤ 57 := UInt32.le_iff_toNat_le.mp h.2
  rw [UInt32.toNat_toUInt8]
  exact Nat.mod_eq_of_lt (by omega)

theorem decimal_isDigit {n : Nat} {b : UInt8} (h : b ∈ decimal n) : isDigit b = true := by
  obtain ⟨c, hc, rfl⟩ := List.mem_map.mp h
  have hdigit : c.isDigit = true := Nat.isDigit_of_mem_toDigits (by decide) (by decide) hc
  have hval := toNat_toUInt8_of_isDigit hdigit
  simp only [Char.isDigit, Bool.and_eq_true, decide_eq_true_eq] at hdigit
  have hlow : 48 ≤ c.val.toNat := UInt32.le_iff_toNat_le.mp hdigit.1
  have hhigh : c.val.toNat ≤ 57 := UInt32.le_iff_toNat_le.mp hdigit.2
  have hnat : c.val.toUInt8.toNat = c.val.toNat := hval
  simp only [isDigit, Bool.and_eq_true, decide_eq_true_eq, UInt8.le_iff_toNat_le, hnat]
  exact ⟨hlow, hhigh⟩

theorem decimal_ne_nil (n : Nat) : decimal n ≠ [] := by
  simp [decimal, Nat.toDigits_ne_nil]

theorem length_decimal_le_nine {n : Nat} (h : n < 1000000000) : (decimal n).length ≤ 9 := by
  rw [decimal, List.length_map]
  exact (Nat.length_toDigits_le_iff (by decide) (by decide)).mpr h

/-- Adding up digits goes the same on bytes as on characters. -/
theorem foldl_map_digits (l : List Char) (h : ∀ c ∈ l, c.isDigit = true) (init : Nat) :
    (l.map fun c => c.val.toUInt8).foldl (fun n b => n * 10 + (b.toNat - 48)) init
      = Nat.ofDigitChars 10 l init := by
  induction l generalizing init with
  | nil => simp
  | cons c rest ih =>
      have hc : c.val.toUInt8.toNat = c.toNat := toNat_toUInt8_of_isDigit (h c (by simp))
      rw [List.map_cons, List.foldl_cons, ih (fun d hd => h d (by simp [hd])),
        Nat.ofDigitChars_cons, hc, Nat.mul_comm 10 init]
      rfl

/-- **Reading the digits of a number gives the number back.** -/
@[simp] theorem decimalValue_decimal (n : Nat) : decimalValue (decimal n) = n := by
  rw [decimalValue, decimal, foldl_map_digits _ fun c hc =>
    Nat.isDigit_of_mem_toDigits (by decide) (by decide) hc]
  exact Nat.ofDigitChars_ten_toDigits

end AnalyzerBridge.Bytes

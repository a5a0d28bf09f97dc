/-
Keys between double quotes.

Comments, brackets and commas are not looked for behind a backslash, but the scanner for assignments
does not know backslashes: it takes every double quote for the start or the end of a string, those
in a key too.  So a key comes back only if the scanner comes out of it where it should, that is, if
the double quotes in it pair up and no equals sign stands inside a pair.

That this is necessary goes by counting.  Reading a text as a string leaves the number of equals
signs in it as it is, so if the key is read back, then what was taken for the key has as many of
them as the key.  There is only one place where such a text can end.
-/
import Mathlib.Data.List.Count
import AnalyzerBridge.Proofs.Toml.Settled

namespace AnalyzerBridge.Toml

open Bytes (Tight)

/-! ### Equals signs -/

/-- A text is cut at one of its marks, and which of them it is can be told by counting. -/
theorem eq_of_append_cons {a : UInt8} {x y x' y' : Bytes} (h : x ++ a :: y = x' ++ a :: y')
    (hcount : x.count a = x'.count a) : x = x' ∧ y = y' := by
  induction x generalizing x' with
  | nil =>
      cases x' with
      | nil => exact ⟨rfl, (List.cons.inj h).2⟩
      | cons c rest =>
          obtain rfl : a = c := (List.cons.inj h).1
          simp at hcount
  | cons b x ih =>
      cases x' with
      | nil =>
          obtain rfl : b = a := (List.cons.inj h).1
          simp at hcount
      | cons c rest =>
          obtain ⟨rfl, hrest⟩ := List.cons.inj h
          obtain ⟨rfl, rfl⟩ := ih hrest (by simpa [List.count_cons] using hcount)
          exact ⟨rfl, rfl⟩

theorem count_of_blank {t : Bytes} (h : ∀ b ∈ t, Bytes.isBlank b = true) : t.count 61 = 0 :=
  List.count_eq_zero.mpr fun hmem => absurd (h 61 hmem) (by decide)

theorem count_trim (t : Bytes) : (Bytes.trim t).count 61 = t.count 61 := by
  obtain ⟨a, t, d, rfl, ha, ht, hd⟩ := Bytes.exists_tight t
  rw [Bytes.trim_of_tight ha ht hd, List.count_append, List.count_append, count_of_blank ha,
    count_of_blank hd]
  omega

theorem eq_of_between? {first last : UInt8} {t inner : Bytes}
    (h : between? first last t = some inner) : t = first :: inner ++ [last] := by
  cases t with
  | nil => cases h
  | cons b rest =>
      rw [between?] at h
      split at h
      case isTrue hends =>
        obtain rfl := Option.some.inj h
        simp only [Bool.and_eq_true, decide_eq_true_eq, beq_iff_eq] at hends
        obtain ⟨rfl, hlast⟩ := hends
        rw [List.cons_append, List.dropLast_append_getLast? last hlast]
      case isFalse => cases h

theorem count_between? {q : UInt8} (hq : q ≠ 61) {t inner : Bytes}
    (h : between? q q t = some inner) : inner.count 61 = t.count 61 := by
  rw [eq_of_between? h]
  simp [hq]

/-- No escape stands for an equals sign, but a backslash in front of one is one. -/
theorem escapedAs_eq_equals_iff {b : UInt8} : escapedAs b = 61 ↔ b = 61 :=
  Bytes.forall_byte (P := fun b => escapedAs b = 61 ↔ b = 61) (by decide +kernel) b

theorem count_unescape (t : Bytes) : (unescape t).count 61 = t.count 61 := by
  fun_induction unescape t with
  | case1 => rfl
  | case2 => rfl
  | case3 => rfl
  | case4 c rest ih => simp [List.count_cons, ih, escapedAs_eq_equals_iff]
  | case5 b c rest hb ih => rw [List.count_cons, List.count_cons, ih]

/-- **Reading a text as a string leaves the number of equals signs as it is.** -/
theorem count_stringValue (t : Bytes) : (stringValue t).count 61 = t.count 61 := by
  rw [← count_trim t, stringValue]
  cases hdouble : between? 34 34 (Bytes.trim t) with
  | some inner =>
      simp only
      exact (count_unescape inner).trans (count_between? (by decide) hdouble)
  | none =>
      simp only
      cases hsingle : between? 39 39 (Bytes.trim t) with
      | some inner => exact count_between? (by decide) hsingle
      | none => rfl

theorem count_quote (s : Bytes) : (quote s).count 61 = s.count 61 := by
  rw [← count_stringValue, stringValue_quote]

/-! ### Where the assignment is found -/

/-- The double quotes of the text pair up, and no equals sign stands inside a pair.  The flag says
that one is still to be paired. -/
def Paired (odd : Bool) : Bytes → Prop
  | [] => odd = false
  | b :: t => (b = 61 → odd = false) ∧ Paired (if b = 34 then !odd else odd) t

instance decidablePaired : (odd : Bool) → (t : Bytes) → Decidable (Paired odd t)
  | odd, [] => inferInstanceAs (Decidable (odd = false))
  | odd, b :: t =>
    have := decidablePaired (if b = 34 then !odd else odd) t
    inferInstanceAs (Decidable ((b = 61 → odd = false) ∧ Paired (if b = 34 then !odd else odd) t))

theorem eq_append_of_splitAssignment {quoted : Bool} {t x y : Bytes}
    (h : splitAssignment quoted t = some (x, y)) : t = x ++ 61 :: y := by
  induction t generalizing quoted x with
  | nil => cases h
  | cons b rest ih =>
      rw [splitAssignment] at h
      split at h
      case isTrue hsplit =>
        simp only [Bool.and_eq_true, beq_iff_eq] at hsplit
        obtain ⟨rfl, rfl⟩ := Prod.mk.inj (Option.some.inj h)
        rw [hsplit.2, List.nil_append]
      case isFalse =>
        obtain ⟨⟨x', y'⟩, hrest, hpair⟩ := Option.map_eq_some_iff.mp h
        obtain ⟨rfl, rfl⟩ := Prod.mk.inj hpair
        rw [ih hrest, List.cons_append]

/-- The scanner passes over a byte that is no equals sign outside a string. -/
theorem splitAssignment_cons {quoted : Bool} {b : UInt8} (h : b = 61 → quoted = true) (t : Bytes) :
    splitAssignment quoted (b :: t)
      = (splitAssignment (if b = 34 then !quoted else quoted) t).map fun (x, y) => (b :: x, y) := by
  rw [splitAssignment, if_neg]
  simp only [Bool.and_eq_true, Bool.not_eq_true', beq_iff_eq, not_and]
  intro hquoted hequals
  exact absurd (h hequals) (Bool.eq_false_iff.mp hquoted)

/-- A byte is written as itself, or as a backslash and a byte that is a quote if it is one. -/
theorem escapeByte_cases (b : UInt8) :
    escapeByte b = [b] ∨ ∃ c, escapeByte b = [92, c] ∧ c ≠ 61 ∧ (c = 34 ↔ b = 34) := by
  rw [escapeByte]
  split
  case isTrue hmark =>
    refine .inr ⟨b, rfl, ?_, Iff.rfl⟩
    rcases hmark with rfl | rfl <;> decide
  case isFalse hmark =>
    rw [not_or] at hmark
    split_ifs with hfeed hreturn htab
    · exact .inr ⟨110, rfl, by decide, by simp [hmark.2]⟩
    · exact .inr ⟨114, rfl, by decide, by simp [hmark.2]⟩
    · exact .inr ⟨116, rfl, by decide, by simp [hmark.2]⟩
    · exact .inl rfl

/-- It passes over an escape too, and counts a quote in it. -/
theorem splitAssignment_escapeByte {quoted : Bool} {b : UInt8} (h : b = 61 → quoted = true)
    (t : Bytes) :
    splitAssignment quoted (escapeByte b ++ t)
      = (splitAssignment (if b = 34 then !quoted else quoted) t).map
          fun (x, y) => (escapeByte b ++ x, y) := by
  rcases escapeByte_cases b with hplain | ⟨c, hescape, hequals, hquote⟩
  · rw [hplain]
    exact splitAssignment_cons h t
  · rw [hescape, List.cons_append, List.singleton_append,
      splitAssignment_cons (fun hc => absurd hc (by decide)), if_neg (by decide),
      splitAssignment_cons (fun hc => absurd hc hequals)]
    simp only [hquote, Option.map_map]
    rfl

/-- Putting a text in front of what stands before the equals sign can be undone. -/
theorem map_prepend_eq_some_iff {t x y : Bytes} {split : Option (Bytes × Bytes)} :
    split.map (fun (before, after) => (t ++ before, after)) = some (t ++ x, y)
      ↔ split = some (x, y) := by
  cases split with
  | none => simp
  | some pair => simp [Prod.ext_iff]

/-- Inside a string an equals sign is none. -/
theorem splitAssignment_quoted_ne {g : Bytes} (hg : ∀ b ∈ g, b ≠ 34 ∧ b ≠ 61) (u : Bytes) :
    splitAssignment true (g ++ 61 :: u) ≠ some (g, u) := by
  induction g with
  | nil =>
      intro h
      rw [List.nil_append, splitAssignment_cons (fun _ => rfl)] at h
      obtain ⟨pair, -, hpair⟩ := Option.map_eq_some_iff.mp h
      exact List.cons_ne_nil _ _ (Prod.mk.inj hpair).1
  | cons b g ih =>
      intro h
      rw [List.forall_mem_cons] at hg
      rw [List.cons_append, splitAssignment_cons (fun _ => rfl), if_neg hg.1.1] at h
      exact ih hg.2 (map_prepend_eq_some_iff (t := [b]).mp h)

/-- Behind the quote that ends a key, the equals sign is found if the scanner has come out of the
key as the reader of values does. -/
theorem splitAssignment_escaped_iff {g : Bytes} (hg : IsBlanks g) (u : Bytes) (k : Bytes)
    (odd : Bool) :
    splitAssignment (!odd) (k.flatMap escapeByte ++ 34 :: (g ++ 61 :: u))
        = some (k.flatMap escapeByte ++ 34 :: g, u) ↔ Paired odd k := by
  have hblank : ∀ b ∈ g, b ≠ 34 ∧ b ≠ 61 := fun b hb => (facts_of_isBlank (hg b hb)).2
  induction k generalizing odd with
  | nil =>
      rw [List.flatMap_nil, List.nil_append, List.nil_append,
        splitAssignment_cons (fun h => absurd h (by decide)), if_pos rfl, Bool.not_not]
      refine (map_prepend_eq_some_iff (t := [34])).trans ?_
      cases odd with
      | false => exact iff_of_true (splitAssignment_append hblank u) rfl
      | true => exact iff_of_false (splitAssignment_quoted_ne hblank u) (by simp [Paired])
  | cons b k ih =>
      rw [List.flatMap_cons, List.append_assoc, List.append_assoc, Paired]
      by_cases hb : b = 61 → odd = false
      · rw [splitAssignment_escapeByte (fun h => by rw [hb h]; rfl), map_prepend_eq_some_iff,
          and_iff_right hb]
        refine Iff.trans ?_ (ih _)
        split <;> rfl
      · -- The scanner stops inside the key.
        refine iff_of_false ?_ fun h => hb h.1
        rw [Classical.not_imp, Bool.not_eq_false] at hb
        obtain ⟨rfl, rfl⟩ := hb
        intro h
        have hstop : (splitAssignment (!true) (escapeByte 61 ++ (k.flatMap escapeByte
            ++ 34 :: (g ++ 61 :: u)))) = some ([], k.flatMap escapeByte ++ 34 :: (g ++ 61 :: u)) :=
          rfl
        rw [hstop] at h
        exact absurd (Prod.mk.inj (Option.some.inj h)).1 (by simp [escapeByte])

/-- **Which keys are found.** -/
theorem splitAssignment_quote_iff {g : Bytes} (hg : IsBlanks g) (k u : Bytes) :
    splitAssignment false (quote k ++ g ++ 61 :: u) = some (quote k ++ g, u) ↔ Paired false k := by
  rw [← splitAssignment_escaped_iff hg u k false, quote]
  simp only [List.cons_append, List.append_assoc, List.nil_append]
  rw [splitAssignment_cons (fun h => absurd h (by decide)), if_pos rfl]
  exact map_prepend_eq_some_iff (t := [34])

/-! ### Pairs of a key and a value -/

/-- The written forms of a key and a value that both stand between double quotes. -/
inductive QuotedPair : Bytes × Bytes → Bytes → Prop
  | mk {k v g g' : Bytes} (behind : IsBlanks g) (ahead : IsBlanks g') :
      QuotedPair (k, v) (quote k ++ g ++ 61 :: (g' ++ quote v))

theorem stringValue_quote_append (k : Bytes) {g : Bytes} (hg : IsBlanks g) :
    stringValue (quote k ++ g) = k := by
  have htrim : Bytes.trim (quote k ++ g) = Bytes.trim (quote k) :=
    Bytes.trim_append_of_blank hg.blank _
  unfold stringValue
  rw [htrim]
  exact stringValue_quote k

namespace QuotedPair

variable {k v t : Bytes}

/-- What is cut off in front of an equals sign is read as the key only if the key is found. -/
theorem readBack_iff (h : QuotedPair (k, v) t) :
    (∃ x y, splitAssignment false t = some (x, y) ∧ stringValue x = k
        ∧ stringValue (Bytes.trim y) = v) ↔ Paired false k := by
  obtain @⟨_, _, g, g', hg, hg'⟩ := h
  rw [← splitAssignment_quote_iff hg k (g' ++ quote v)]
  constructor
  · rintro ⟨x, y, hsplit, hkey, -⟩
    have hcount : x.count 61 = (quote k ++ g).count 61 := by
      rw [← count_stringValue x, hkey, List.count_append, count_quote, count_of_blank hg.blank,
        Nat.add_zero]
    obtain ⟨rfl, rfl⟩ := eq_of_append_cons (eq_append_of_splitAssignment hsplit).symm hcount
    exact hsplit
  · intro hsplit
    have htrim : Bytes.trim (g' ++ quote v) = quote v := by
      simpa using Bytes.trim_of_tight hg'.blank (tight_quote v) (d := []) (by simp)
    refine ⟨_, _, hsplit, stringValue_quote_append k hg, ?_⟩
    rw [htrim, stringValue_quote]

theorem token (h : QuotedPair (k, v) t) : Token t 0 := by
  obtain @⟨_, _, g, g', hg, hg'⟩ := h
  simpa using (Token.quote k).append hg.whole (Token.equals.append hg'.whole (.quote v))

/-- A pair is an item of a table. -/
theorem item (h : QuotedPair (k, v) t) : Item t := by
  refine ⟨h.token, .of_lacks ?_⟩
  obtain @⟨_, _, g, g', hg, hg'⟩ := h
  have hblank : ∀ {g}, IsBlanks g → Lacks isComma {} g := fun hg =>
    .of_forall fun b hb => (isPlain_iff.mp (hg.plain b hb)).2
  have hkey : Lacks isComma {} (quote k ++ g) :=
    (lacks_quote isComma k).append (by rw [after_quote]; exact hblank hg)
  have hvalue : Lacks isComma {} (61 :: g' ++ quote v) := by
    refine Lacks.append ⟨fun _ => rfl, hblank hg'⟩ ?_
    have hafter : Scan.after {} (61 :: g') = {} := hg'.whole.after
    rw [hafter]
    exact lacks_quote isComma v
  refine hkey.append ?_
  rw [Scan.after_append, after_quote, hg.whole.after]
  exact hvalue

/-- A line with a pair makes one entry or none. -/
theorem entries_eq (h : QuotedPair (k, v) t) :
    entries t = ((splitAssignment false t).map fun (x, y) =>
      (⟨[], stringValue x, Bytes.trim y, 1⟩ : Entry)).toList := by
  have hread : Progress.read {} 1 ([] ++ t ++ ([] ++ []) ++ Bytes.endLine none) = _ :=
    Progress.read_token .nil h.token .nil .none none
  simp only [List.nil_append, List.append_nil, Bytes.endLine] at hread
  show Progress.read {} 1 t = _
  rw [hread, Progress.readOn]
  cases hsplit : splitAssignment false t with
  | none =>
      obtain @⟨_, _, g, g', hg, hg'⟩ := h
      rw [Progress.readText_of_silent rfl hsplit (by simp [quote])]
      rfl
  | some pair =>
      rw [Progress.readText_of_assignment rfl hsplit, Progress.entries_settle rfl]
      simp [OpenEntry.entry]

/-- A key is read from its line exactly if it is found. -/
theorem entries_iff (h : QuotedPair (k, v) t) :
    (∃ e, entries t = [e] ∧ e.key = k ∧ stringValue e.value = v) ↔ Paired false k := by
  rw [← h.readBack_iff, h.entries_eq]
  cases splitAssignment false t with
  | none => simp
  | some pair =>
      obtain ⟨x, y⟩ := pair
      simp

/-- A key is read from its table exactly if it is found. -/
theorem tableItem_iff (h : QuotedPair (k, v) t) :
    (∃ raw, tableItem? t = some (k, raw) ∧ stringValue raw = v) ↔ Paired false k := by
  rw [← h.readBack_iff, tableItem?]
  cases splitAssignment false t with
  | none => simp
  | some pair =>
      obtain ⟨x, y⟩ := pair
      simp

end QuotedPair

/-! ### Inline tables -/

/-- The written forms of an inline table in which all keys and values stand between double
quotes. -/
inductive QuotedTable (pairs : List (Bytes × Bytes)) : Bytes → Prop
  | mk {g u : Bytes} (ahead : IsBlanks g) (items : Separated IsBlanks QuotedPair pairs u) :
      QuotedTable pairs (123 :: (g ++ u) ++ [125])

/-- The table with its values read as strings. -/
def stringTable (value : Bytes) : List (Bytes × Bytes) :=
  (inlineTable value).map fun (key, raw) => (key, stringValue raw)

theorem tableItems_eq_iff {pairs : List (Bytes × Bytes)} {items : List Bytes}
    (h : List.Forall₂ QuotedPair pairs items) :
    (items.filterMap tableItem?).map (fun (key, raw) => (key, stringValue raw)) = pairs
      ↔ ∀ pair ∈ pairs, Paired false pair.1 := by
  induction h with
  | nil => simp
  | @cons pair item pairs items hitem hrest ih =>
      obtain ⟨k, v⟩ := pair
      rw [List.filterMap_cons, List.forall_mem_cons, ← hitem.tableItem_iff, ← ih]
      cases tableItem? item with
      | none =>
          -- An item that is left out makes the table too short.
          refine iff_of_false ?_ (by simp)
          intro hshort
          have hlength := congrArg List.length hshort
          have hle := List.length_filterMap_le tableItem? items
          rw [List.length_map, List.length_cons, hrest.length_eq] at hlength
          exact absurd (hlength ▸ hle) (Nat.not_succ_le_self _)
      | some found =>
          obtain ⟨key, raw⟩ := found
          simp [and_assoc]

theorem QuotedTable.stringTable_iff {pairs : List (Bytes × Bytes)} {t : Bytes}
    (h : QuotedTable pairs t) : stringTable t = pairs ↔ ∀ pair ∈ pairs, Paired false pair.1 := by
  obtain @⟨g, u, ahead, items⟩ := h
  have hitems := commaItems_of_separated (fun h => QuotedPair.item h) items ahead
  have hwhole : Whole (g ++ u) 0 :=
    ahead.whole.append (whole_of_separated (fun h => QuotedPair.item h) items)
  have htoken : Token (123 :: (g ++ u) ++ [125]) 0 := .bracketed (.inr rfl) (.inr rfl) hwhole
  simp only [stringTable, inlineTable, htoken.tight.trim_eq, between?_append]
  exact tableItems_eq_iff hitems

/--
**Keys between double quotes are read back exactly if their double quotes pair up and no equals sign
stands inside a pair.**

A line with such a key and a value makes one entry with this key, the value of which is read as the
value, and an inline table has all its keys and values in order.  What else stands in the keys, and
what stands in the values, does not matter.
-/
theorem quoted_read_back_iff {k v t : Bytes} (h : QuotedPair (k, v) t)
    {pairs : List (Bytes × Bytes)} {table : Bytes} (htable : QuotedTable pairs table) :
    ((∃ e, entries t = [e] ∧ e.key = k ∧ stringValue e.value = v) ↔ Paired false k)
      ∧ (stringTable table = pairs ↔ ∀ pair ∈ pairs, Paired false pair.1) :=
  ⟨h.entries_iff, htable.stringTable_iff⟩

/-- Backslashes, comments, brackets and line breaks do no harm, and neither do an equals sign and
pairs of quotes that keep out of each other's way. -/
theorem quoted_read_back_harmless :
    let k := ascii "a\\\"[#\"=\n"
    let v := ascii "\"=\x7b"
    let pairs := [(k, v), ([], ascii ","), (ascii "\"\"", [])]
    let written := pairs.map fun (k, v) => quote k ++ 61 :: quote v
    let table := 123 :: Bytes.join [44, 32] written ++ [125]
    (∃ e, entries (quote k ++ 61 :: quote v) = [e] ∧ e.key = k ∧ stringValue e.value = v)
      ∧ stringTable table = pairs := by
  intro k v pairs written table
  have hpair : ∀ k v, QuotedPair (k, v) (quote k ++ 61 :: quote v) := by
    intro k v
    have h := QuotedPair.mk (k := k) (v := v) .nil .nil
    simpa using h
  have hitems : Separated IsBlanks QuotedPair pairs _ :=
    .more (hpair k v) .nil .space
      (.more (hpair [] (ascii ",")) .nil .space (.last (hpair (ascii "\"\"") []) .nil))
  have htable : QuotedTable pairs table := by
    have h := QuotedTable.mk .nil hitems
    simpa [table, written, pairs, Bytes.join] using h
  have hread := quoted_read_back_iff (hpair k v) htable
  exact ⟨hread.1.mpr (by decide), hread.2.mpr (by decide)⟩

/-- **Not every key between double quotes is read back.**  With a single double quote in its key, a
line makes no entry and a table has no field. -/
theorem quoted_key_is_lost :
    (¬∃ e, entries (quote [34] ++ 61 :: quote (ascii "v")) = [e] ∧ e.key = [34]
        ∧ stringValue e.value = ascii "v")
      ∧ stringTable (123 :: (quote [34] ++ 61 :: quote (ascii "v")) ++ [125]) = [] := by
  have hnone : entries (quote [34] ++ 61 :: quote (ascii "v")) = [] := by decide +kernel
  refine ⟨?_, by decide +kernel⟩
  rw [hnone]
  rintro ⟨e, he, -⟩
  cases he

end AnalyzerBridge.Toml

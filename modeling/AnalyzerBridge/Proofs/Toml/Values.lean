/-
A value in one line is read back.

What is between double quotes, and what is between brackets, looks the same to all scanners: they
come to it outside strings, find nothing in it, and leave it outside strings.  A `Token` is
such a text with no blank at either end, and an item of an array or a table is a token in which
no comma parts anything.  Cutting at commas then gives the items back, and each of them is read
by itself.
-/
import AnalyzerBridge.Proofs.Toml.Grammar
import AnalyzerBridge.Proofs.Toml.Scan

namespace AnalyzerBridge.Toml

open Bytes (Tight)

/-! ### Classes of bytes -/

/-- What a blank in a line is not. -/
theorem facts_of_isBlank {b : UInt8} : Bytes.isBlank b = true ∧ b ≠ 10 →
    isPlain b = true ∧ b ≠ 34 ∧ b ≠ 61 :=
  Bytes.forall_byte (P := fun b => Bytes.isBlank b = true ∧ b ≠ 10 →
    isPlain b = true ∧ b ≠ 34 ∧ b ≠ 61) (by decide +kernel) b

/-- What a byte of a key is not. -/
theorem facts_of_isKeyByte {b : UInt8} : isKeyByte b = true →
    isPlain b = true ∧ Bytes.isBlank b = false ∧ b ≠ 34 ∧ b ≠ 39 ∧ b ≠ 61 :=
  Bytes.forall_byte (P := fun b => isKeyByte b = true →
    isPlain b = true ∧ Bytes.isBlank b = false ∧ b ≠ 34 ∧ b ≠ 39 ∧ b ≠ 61) (by decide +kernel) b

theorem isKey_truthWord (b : Bool) : IsKey (truthWord b) := by
  cases b <;> decide

namespace IsBlanks

variable {t : Bytes}

theorem blank (h : IsBlanks t) : ∀ b ∈ t, Bytes.isBlank b = true := fun b hb => (h b hb).1

theorem plain (h : IsBlanks t) : ∀ b ∈ t, isPlain b = true := fun b hb =>
  (facts_of_isBlank (h b hb)).1

theorem whole (h : IsBlanks t) : Whole t 0 := .of_plain h.plain

theorem nil : IsBlanks [] := fun _ hb => absurd hb List.not_mem_nil

theorem space : IsBlanks [32] := by
  intro b hb
  obtain rfl := List.mem_singleton.mp hb
  decide

end IsBlanks

/-! ### Strings -/

theorem unescape_of_ne {b : UInt8} (h : b ≠ 92) (t : Bytes) :
    unescape (b :: t) = b :: unescape t := by
  cases t with
  | nil => simp [unescape, h]
  | cons c rest => simp [unescape, h]

/-- An escape is undone by itself, whatever follows. -/
theorem unescape_escapeByte_append (b : UInt8) (t : Bytes) :
    unescape (escapeByte b ++ t) = b :: unescape t := by
  rw [escapeByte]
  split
  case isTrue hmark => rcases hmark with rfl | rfl <;> simp [unescape, escapedAs]
  case isFalse hmark =>
    rw [not_or] at hmark
    split_ifs with hfeed hreturn htab
    · simp [unescape, escapedAs, hfeed]
    · simp [unescape, escapedAs, hreturn]
    · simp [unescape, escapedAs, htab]
    · exact unescape_of_ne hmark.1 t

theorem unescape_escaped (s : Bytes) : unescape (s.flatMap escapeByte) = s := by
  induction s with
  | nil => rfl
  | cons b rest ih => rw [List.flatMap_cons, unescape_escapeByte_append, ih]

/-- Inside a string an escape leaves the scan there. -/
theorem after_escapeByte (b : UInt8) :
    Scan.after { inString := true } (escapeByte b) = { inString := true } := by
  rw [escapeByte]
  split_ifs with hmark hfeed hreturn htab
  case neg =>
    rw [not_or] at hmark
    simp [Scan.next, hmark]
  all_goals simp [Scan.next]

/-- Inside a string no byte of an escape is bare. -/
theorem lacks_escapeByte (p : UInt8 → Bool) (b : UInt8) :
    Lacks p { inString := true } (escapeByte b) := by
  rw [escapeByte]
  split_ifs <;> simp [Lacks, Scan.isBare, Scan.next]

theorem lineFeed_not_mem_escapeByte (b : UInt8) : 10 ∉ escapeByte b :=
  Bytes.forall_byte (P := fun b => 10 ∉ escapeByte b) (by decide +kernel) b

theorem after_escaped (s : Bytes) :
    Scan.after { inString := true } (s.flatMap escapeByte) = { inString := true } := by
  induction s with
  | nil => rfl
  | cons b rest ih => rw [List.flatMap_cons, Scan.after_append, after_escapeByte, ih]

theorem lacks_escaped (p : UInt8 → Bool) (s : Bytes) :
    Lacks p { inString := true } (s.flatMap escapeByte) := by
  induction s with
  | nil => trivial
  | cons b rest ih =>
      rw [List.flatMap_cons]
      exact (lacks_escapeByte p b).append (by rw [after_escapeByte]; exact ih)

/-- Behind a string the scan is outside strings again. -/
theorem after_quote (s : Bytes) : Scan.after {} (quote s) = {} := by
  have hopen : Scan.next {} 34 = { inString := true } := rfl
  rw [quote, Scan.after_cons, hopen, Scan.after_append, after_escaped]
  rfl

/-- No byte of a string is bare. -/
theorem lacks_quote (p : UInt8 → Bool) (s : Bytes) : Lacks p {} (quote s) := by
  refine ⟨by simp [Scan.isBare], (lacks_escaped p s).append ?_⟩
  rw [after_escaped]
  simp [Lacks, Scan.isBare]

theorem whole_quote (s : Bytes) : Whole (quote s) 0 where
  after := after_quote s
  noComment := lacks_quote isHash s
  nesting := nesting_of_lacks (lacks_quote isBracket s)
  oneLine := by simp [quote, lineFeed_not_mem_escapeByte]

theorem tight_quote (s : Bytes) : Tight (quote s) where
  first b hb := by
    obtain rfl : 34 = b := by simpa [quote] using hb
    rfl
  last b hb := by
    obtain rfl : 34 = b := by simpa [quote, List.getLast?_cons] using hb
    rfl

/-- What stands between two bytes. -/
theorem between?_append (first last : UInt8) (t : Bytes) :
    between? first last (first :: t ++ [last]) = some t := by
  simp [between?]

/-- **Unquoting undoes quoting.** -/
theorem stringValue_quote (s : Bytes) : stringValue (quote s) = s := by
  have hbetween : between? 34 34 (quote s) = some (s.flatMap escapeByte) := between?_append 34 34 _
  simp only [stringValue, (tight_quote s).trim_eq, hbetween, unescape_escaped]

/-! ### Tokens and items -/

/-- A text in one line that neither starts nor ends with a blank, leaves no string open and has no
comment, and opens so many brackets more than it closes. -/
structure Token (t : Bytes) (depth : Int) : Prop where
  /-- It leaves no string open and has no comment. -/
  whole : Whole t depth
  /-- It neither starts nor ends with a blank. -/
  tight : Tight t
  /-- There is something in it. -/
  nonempty : t ≠ []

namespace Token

variable {t u : Bytes} {m n : Int}

theorem append (ht : Token t m) {g : Bytes} {k : Int} (hg : Whole g k) (hu : Token u n) :
    Token (t ++ g ++ u) (m + k + n) where
  whole := (ht.whole.append hg).append hu.whole
  tight := ht.tight.append hu.tight ht.nonempty hu.nonempty g
  nonempty := by simp [hu.nonempty]

theorem quote (s : Bytes) : Token (quote s) 0 :=
  ⟨whole_quote s, tight_quote s, by simp [Toml.quote]⟩

theorem of_plain (hplain : ∀ b ∈ t, isPlain b = true) (hblank : ∀ b ∈ t, Bytes.isBlank b = false)
    (hne : t ≠ []) : Token t 0 :=
  ⟨.of_plain hplain, .of_forall hblank, hne⟩

theorem singleton {b : UInt8} (hnext : Scan.next {} b = {}) (hhash : isHash b = false)
    (hbracket : bracket {} b = n) (hfeed : b ≠ 10) (hblank : Bytes.isBlank b = false) :
    Token [b] n where
  whole :=
    ⟨hnext, ⟨fun _ => hhash, trivial⟩, by simp [nesting, hbracket], by simpa using hfeed.symm⟩
  tight := .of_forall (by simpa using hblank)
  nonempty := List.cons_ne_nil b []

theorem opening {b : UInt8} (h : b = 91 ∨ b = 123) : Token [b] 1 := by
  rcases h with rfl | rfl <;> exact .singleton rfl rfl rfl (by decide) rfl

theorem closing {b : UInt8} (h : b = 93 ∨ b = 125) : Token [b] (-1) := by
  rcases h with rfl | rfl <;> exact .singleton rfl rfl rfl (by decide) rfl

theorem comma : Token [44] 0 := .singleton rfl rfl rfl (by decide) rfl

theorem equals : Token [61] 0 := .singleton rfl rfl rfl (by decide) rfl

theorem key (k : Key) : Token k.val 0 :=
  .of_plain (fun b hb => (facts_of_isKeyByte (k.property.2 b hb)).1)
    (fun b hb => (facts_of_isKeyByte (k.property.2 b hb)).2.1) k.property.1

theorem truthWord (b : Bool) : Token (truthWord b) 0 := key ⟨_, isKey_truthWord b⟩

end Token

/-- A token in which no comma parts anything. -/
structure Item (t : Bytes) : Prop extends Token t 0 where
  /-- Its commas stand in brackets or in strings. -/
  noSplit : NoSplit {} 0 t

theorem Item.quote (s : Bytes) : Item (quote s) := ⟨.quote s, .of_lacks (lacks_quote isComma s)⟩

theorem noSplit_of_plain {t : Bytes} (h : ∀ b ∈ t, isPlain b = true) {n : Int} :
    NoSplit {} n t :=
  .of_lacks <| .of_forall fun b hb => (isPlain_iff.mp (h b hb)).2

/-! ### Lists of items -/

/-- Blanks make no item. -/
theorem commaItems_of_blanks {g : Bytes} (hg : IsBlanks g) : commaItems g = [] := by
  have hpieces := commaPieces_append (noSplit_of_plain hg.plain (n := 0)) []
  rw [List.append_nil] at hpieces
  simp [commaItems, hpieces, commaPieces, Bytes.trim_eq_nil hg.blank]

/-- What stands in front of a comma. -/
theorem commaPieces_of_item {g t g' : Bytes} (hg : IsBlanks g) (ht : Item t) (hg' : IsBlanks g')
    (u : Bytes) :
    commaPieces {} 0 (g ++ t ++ g' ++ u)
      = (g ++ t ++ g' ++ (commaPieces {} 0 u).1, (commaPieces {} 0 u).2) := by
  have hwhole : Whole (g ++ t ++ g') 0 := (hg.whole.append ht.whole).append hg'.whole
  have hfront : NoSplit {} 0 (g ++ t) := (noSplit_of_plain hg.plain).append <| by
    rw [hg.whole.after, hg.whole.nesting]
    exact ht.noSplit
  have hsplit : NoSplit {} 0 (g ++ t ++ g') := hfront.append <| by
    rw [(hg.whole.append ht.whole).after]
    exact noSplit_of_plain hg'.plain
  rw [commaPieces_append hsplit, hwhole.after, hwhole.nesting]
  rfl

/-- An item is what it is without the blanks around it. -/
theorem trim_of_item {g t g' : Bytes} (hg : IsBlanks g) (ht : Item t) (hg' : IsBlanks g') :
    Bytes.trim (g ++ t ++ g') = t :=
  Bytes.trim_of_tight hg.blank ht.tight hg'.blank

theorem commaItems_last {g t g' : Bytes} (hg : IsBlanks g) (ht : Item t) (hg' : IsBlanks g') :
    commaItems (g ++ t ++ g') = [t] := by
  have hpieces := commaPieces_of_item hg ht hg' []
  rw [List.append_nil] at hpieces
  simp [commaItems, hpieces, commaPieces, -List.append_assoc, trim_of_item hg ht hg', ht.nonempty]

theorem commaItems_more {g t g' : Bytes} (hg : IsBlanks g) (ht : Item t) (hg' : IsBlanks g')
    (u : Bytes) : commaItems (g ++ t ++ g' ++ 44 :: u) = t :: commaItems u := by
  have hpieces := commaPieces_of_item hg ht hg' (44 :: u)
  rw [commaPieces_comma] at hpieces
  simp [commaItems, hpieces, -List.append_assoc, trim_of_item hg ht hg', ht.nonempty]

/-- **Items that are parted by commas are found again.** -/
theorem commaItems_of_separated {α : Type} {item : α → Bytes → Prop}
    (hitem : ∀ {a t}, item a t → Item t) {as : List α} {u : Bytes}
    (h : Separated IsBlanks item as u) {g : Bytes} (hg : IsBlanks g) :
    List.Forall₂ item as (commaItems (g ++ u)) := by
  induction h generalizing g with
  | none =>
      rw [List.append_nil, commaItems_of_blanks hg]
      exact .nil
  | last written behind =>
      rw [← List.append_assoc, commaItems_last hg (hitem written) behind]
      exact .cons written .nil
  | more written behind ahead rest ih =>
      simp only [← List.append_assoc]
      rw [commaItems_more hg (hitem written) behind]
      exact .cons written (ih ahead)

/-- Items that are parted by commas leave no string open and have no comment. -/
theorem whole_of_separated {α : Type} {item : α → Bytes → Prop}
    (hitem : ∀ {a t}, item a t → Item t) {as : List α} {u : Bytes}
    (h : Separated IsBlanks item as u) : Whole u 0 := by
  induction h with
  | none => exact .nil
  | last written behind => exact (hitem written).whole.append behind.whole
  | more written behind ahead rest ih =>
      have hfront := (hitem written).whole.append behind.whole
      exact hfront.append (Token.comma.whole.append (ahead.whole.append ih))

/-! ### Values -/

/-- A whole text without brackets. -/
structure Level (t : Bytes) : Prop extends Whole t 0 where
  /-- No bracket opens or closes. -/
  noBracket : Lacks isBracket {} t

namespace Level

variable {t u : Bytes}

theorem append (ht : Level t) (hu : Level u) : Level (t ++ u) where
  toWhole := ht.toWhole.append hu.toWhole
  noBracket := ht.noBracket.append (by rw [ht.after]; exact hu.noBracket)

theorem quote (s : Bytes) : Level (quote s) := ⟨whole_quote s, lacks_quote isBracket s⟩

theorem blanks (h : IsBlanks t) : Level t where
  toWhole := h.whole
  noBracket := .of_forall fun b hb => (isQuiet_iff.mp (isPlain_iff.mp (h.plain b hb)).1).2.2

theorem comma : Level [44] := ⟨Token.comma.whole, fun _ => rfl, trivial⟩

/-- Strings with commas between them have no bracket. -/
theorem strings {ss : List Bytes} {u : Bytes}
    (h : Separated IsBlanks (fun s t => t = Toml.quote s) ss u) : Level u := by
  induction h with
  | none => exact .blanks .nil
  | last written behind =>
      obtain rfl := written
      exact (quote _).append (blanks behind)
  | more written behind ahead rest ih =>
      obtain rfl := written
      exact ((quote _).append (blanks behind)).append (comma.append ((blanks ahead).append ih))

end Level

/-- What stands between two brackets. -/
theorem Token.bracketed {first last : UInt8} (hopen : first = 91 ∨ first = 123)
    (hclose : last = 93 ∨ last = 125) {t : Bytes} (ht : Whole t 0) :
    Token (first :: t ++ [last]) 0 := by
  simpa using (Token.opening hopen).append ht (.closing hclose)

/-- A value that holds no keys is an item. -/
theorem Datum.Written.item {d : Datum} {t : Bytes} (h : d.Written IsBlanks t) : Item t := by
  cases h with
  | text s => exact .quote s
  | @texts ss g u ahead items =>
      have hinner : Level (g ++ u) := (Level.blanks ahead).append (.strings items)
      refine ⟨.bracketed (.inl rfl) (.inl rfl) hinner.toWhole, by decide, ?_⟩
      -- The commas stand inside the brackets, and behind these there is none.
      refine NoSplit.append (.of_level (by decide) hinner.noBracket) (.of_lacks ?_)
      exact ⟨fun _ => rfl, trivial⟩
  | truth b =>
      refine ⟨.truthWord b, noSplit_of_plain fun c hc => ?_⟩
      exact (facts_of_isKeyByte ((isKey_truthWord b).2 c hc)).1

theorem boolValue?_truthWord (b : Bool) : boolValue? (truthWord b) = some b := by
  cases b <;> decide

theorem quote_item {s t : Bytes} (h : t = quote s) : Item t := by
  rw [h]
  exact .quote s

/-- **A value that holds no keys is read back.** -/
theorem Datum.Written.readFrom {d : Datum} {t : Bytes} (h : d.Written IsBlanks t) :
    d.ReadFrom t := by
  have htrim : Bytes.trim t = t := h.item.tight.trim_eq
  cases h with
  | text s => exact stringValue_quote s
  | @texts ss g u ahead items =>
      have hitems := commaItems_of_separated quote_item items ahead
      have hread : List.Forall₂ (fun s t => s = stringValue t) ss (commaItems (g ++ u)) :=
        hitems.imp fun s t ht => by rw [ht, stringValue_quote]
      rw [← List.forall₂_map_right_iff, List.forall₂_eq_eq_eq] at hread
      simp only [Datum.ReadFrom, stringArray, htrim, between?_append, hread]
  | truth b => exact boolValue?_truthWord b

/-- In front of an equals sign a key is found to the left of it. -/
theorem splitAssignment_key (k : Key) {g : Bytes} (hg : IsBlanks g) (u : Bytes) :
    splitAssignment false (k.val ++ g ++ 61 :: u) = some (k.val ++ g, u) := by
  refine splitAssignment_append (fun b hb => ?_) u
  rcases List.mem_append.mp hb with hkey | hblank
  · have hfacts := facts_of_isKeyByte (k.property.2 b hkey)
    exact ⟨hfacts.2.2.1, hfacts.2.2.2.2⟩
  · exact (facts_of_isBlank (hg b hblank)).2

/-- A key is read as itself, with blanks behind it or not. -/
theorem stringValue_key (k : Key) {g : Bytes} (hg : IsBlanks g) :
    stringValue (k.val ++ g) = k.val := by
  have htrim : Bytes.trim (k.val ++ g) = k.val :=
    Bytes.trim_of_tight (a := []) (by simp) (Token.key k).tight hg.blank
  -- No quotes are taken off, as a key does not begin with one.
  have hbetween : ∀ q : UInt8, (q = 34 ∨ q = 39) → between? q q k.val = none := by
    intro q hq
    obtain ⟨b, rest, hk⟩ := List.exists_cons_of_ne_nil k.property.1
    have hfacts := facts_of_isKeyByte (k.property.2 b (by simp [hk]))
    have hne : b ≠ q := by rcases hq with rfl | rfl; exacts [hfacts.2.2.1, hfacts.2.2.2.1]
    simp [hk, between?, hne]
  simp only [stringValue, htrim, hbetween 34 (.inl rfl), hbetween 39 (.inr rfl), Option.getD_none]

/-- An assignment of a token to a key is a token. -/
theorem Token.assign (k : Key) {g g' t : Bytes} (hg : IsBlanks g) (hg' : IsBlanks g') {n : Int}
    (ht : Token t n) : Token (k.val ++ g ++ 61 :: (g' ++ t)) n := by
  simpa using (Token.key k).append hg.whole (Token.equals.append hg'.whole ht)

namespace FieldWritten

variable {k : Key} {d : Datum} {t : Bytes}

/-- A field of a table is an item. -/
theorem item (h : FieldWritten IsBlanks (k, d) t) : Item t := by
  obtain @⟨_, _, g, g', t, behind, ahead, value⟩ := h
  have hkey : ∀ b ∈ k.val, isPlain b = true := fun b hb =>
    (facts_of_isKeyByte (k.property.2 b hb)).1
  have hplain : ∀ b ∈ k.val ++ g ++ 61 :: g', isPlain b = true := by
    simp only [List.mem_append, List.mem_cons]
    rintro b ((hb | hb) | rfl | hb)
    exacts [hkey b hb, behind.plain b hb, by decide, ahead.plain b hb]
  -- Up to the value nothing is looked for, and in the value no comma parts anything.
  have hsplit : NoSplit {} 0 (k.val ++ g ++ 61 :: g' ++ t) := by
    refine (noSplit_of_plain hplain).append ?_
    rw [(Whole.of_plain hplain).after, (Whole.of_plain hplain).nesting]
    exact value.item.noSplit
  exact ⟨.assign k behind ahead value.item.toToken, by simpa using hsplit⟩

/-- A field of a table is read back. -/
theorem tableItem (h : FieldWritten IsBlanks (k, d) t) :
    ∃ r, tableItem? t = some (k.val, r) ∧ d.Written IsBlanks r := by
  obtain @⟨_, _, g, g', t, behind, ahead, value⟩ := h
  have htrim : Bytes.trim (g' ++ t) = t := by
    simpa using Bytes.trim_of_tight ahead.blank value.item.tight (d := []) (by simp)
  refine ⟨t, ?_, value⟩
  simp only [tableItem?, splitAssignment_key k behind, Option.map_some, stringValue_key k behind,
    htrim]

end FieldWritten

/-- No field of a table is left out. -/
theorem filterMap_tableItem {fields : List (Key × Datum)} {ts : List Bytes}
    (h : List.Forall₂ (FieldWritten IsBlanks) fields ts) :
    List.Forall₂ (fun (key, d) (k, r) => k = key.val ∧ d.Written IsBlanks r) fields
      (ts.filterMap tableItem?) := by
  induction h with
  | nil => exact .nil
  | cons written _ ih =>
      obtain ⟨r, hitem, hr⟩ := written.tableItem
      rw [List.filterMap_cons, hitem]
      exact .cons ⟨rfl, hr⟩ ih

/-- **The fields of a table are found again.** -/
theorem inlineTable_of_fields {fields : List (Key × Datum)} {g u : Bytes} (ahead : IsBlanks g)
    (items : Separated IsBlanks (FieldWritten IsBlanks) fields u) :
    List.Forall₂ (fun (key, d) (k, r) => k = key.val ∧ d.Written IsBlanks r) fields
      (inlineTable (123 :: (g ++ u) ++ [125])) := by
  have hwhole : Whole (g ++ u) 0 := ahead.whole.append (whole_of_separated FieldWritten.item items)
  have htoken : Token (123 :: (g ++ u) ++ [125]) 0 := .bracketed (.inr rfl) (.inr rfl) hwhole
  simp only [inlineTable, htoken.tight.trim_eq, between?_append]
  exact filterMap_tableItem (commaItems_of_separated FieldWritten.item items ahead)

/-- A value in one line is a token. -/
theorem Value.Written.token {v : Value} {t : Bytes} (h : v.Written IsBlanks t) : Token t 0 := by
  cases h with
  | datum value => exact value.item.toToken
  | table ahead items =>
      exact .bracketed (.inr rfl) (.inr rfl)
        (ahead.whole.append (whole_of_separated FieldWritten.item items))

/-- **A value in one line is read back.** -/
theorem Value.Written.readFrom {v : Value} {t : Bytes} (h : v.Written IsBlanks t) :
    v.ReadFrom t := by
  cases h with
  | datum value => exact value.readFrom
  | table ahead items =>
      exact (inlineTable_of_fields ahead items).imp fun field r h => ⟨h.1, h.2.readFrom⟩

end AnalyzerBridge.Toml

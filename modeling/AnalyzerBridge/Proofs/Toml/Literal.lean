/-
Strings between single quotes.

Only the reader of values knows single quotes.  The four scanners that have gone over a line before
it see what is between them as text outside strings.  So a string that is written between single
quotes comes back only if the scanners make nothing of it: in a line no comment may start in it,
and it may not open more brackets than it closes; in an array, moreover, no comma in it may part
anything, and the scanner must come out of it as it has come in.

That these conditions are necessary goes by one law, `literal_of_stringValue`: of all texts that
begin with a single quote, only the string in its quotes is read as the string.
-/
import AnalyzerBridge.Proofs.Toml.Settled
import AnalyzerBridge.Proofs.Toml.Writing

namespace AnalyzerBridge.Toml

open Bytes (Tight)

/-- The text between single quotes. -/
def literal (s : Bytes) : Bytes := 39 :: (s ++ [39])

/-- An array of strings between single quotes. -/
def literalArray (ss : List Bytes) : Bytes := 91 :: Bytes.join [44, 32] (ss.map literal) ++ [93]

theorem tight_literal (s : Bytes) : Tight (literal s) where
  first b hb := by
    obtain rfl : 39 = b := by simpa [literal] using hb
    rfl
  last b hb := by
    obtain rfl : 39 = b := by simpa [literal, List.getLast?_cons] using hb
    rfl

/-! ### What is read as a string -/

theorem stringValue_literal (s : Bytes) : stringValue (literal s) = s := by
  have hdouble : between? 34 34 (literal s) = none := by simp [between?, literal]
  have hsingle : between? 39 39 (literal s) = some s := by simp [between?, literal]
  simp only [stringValue, (tight_literal s).trim_eq, hdouble, hsingle, Option.getD_some]

/-- **What begins with a single quote and is read as a string** is the string in its quotes, with
blanks behind. -/
theorem literal_of_stringValue {w s : Bytes} (hs : 39 ∉ s)
    (h : stringValue (Bytes.trim (39 :: w)) = s) :
    ∃ d, 39 :: w = literal s ++ d ∧ ∀ b ∈ d, Bytes.isBlank b = true := by
  obtain ⟨t, d, rfl, hd, ht, htrim⟩ := Bytes.exists_tight_append (c := 39) rfl w
  have hdouble : between? 34 34 (39 :: t) = none := by simp [between?]
  rw [htrim] at h
  simp only [stringValue, ht.trim_eq, hdouble] at h
  -- Without a quote at its end the text would stand for itself, with the quote at its start.
  have hlast : t.getLast? = some 39 := by
    apply Decidable.byContradiction
    intro hlast
    have hsingle : between? 39 39 (39 :: t) = none := by simp [between?, hlast]
    rw [hsingle, Option.getD_none] at h
    exact hs (h ▸ List.mem_cons_self)
  have hsingle : between? 39 39 (39 :: t) = some t.dropLast := by simp [between?, hlast]
  rw [hsingle, Option.getD_some] at h
  have ht' : t = s ++ [39] := by
    rw [← h]
    exact (List.dropLast_append_getLast? 39 hlast).symm
  exact ⟨d, by simp [literal, ht'], hd⟩

theorem stringValue_ne_of_not_mem {w s : Bytes} (hs : 39 ∉ s) (hw : 39 ∉ w) :
    stringValue (Bytes.trim (39 :: w)) ≠ s := by
  intro h
  obtain ⟨d, heq, -⟩ := literal_of_stringValue hs h
  have hw' : w = s ++ [39] ++ d := by simpa [literal] using heq
  exact hw (by simp [hw'])

/-! ### What the scanners see -/

theorem lacks_literal_iff {p : UInt8 → Bool} (hp : p 39 = false) {s : Bytes} :
    Lacks p {} (literal s) ↔ Lacks p {} s := by
  -- The scanner comes out of a single quote as it has come in.
  have hfirst : Scan.next {} 39 = {} := rfl
  simp [literal, Lacks, hfirst, hp, Lacks.append_iff]

theorem nesting_literal (s : Bytes) : nesting {} (literal s) = nesting {} s := by
  have hquote : ∀ scan : Scan, bracket scan 39 = 0 := fun scan => bracket_eq_zero fun _ => rfl
  have hfirst : Scan.next {} 39 = {} := rfl
  simp [literal, nesting, nesting_append, hquote, hfirst]

/-- A comma that parts a text ends its first piece. -/
theorem commaPieces_of_not_noSplit {scan : Scan} {depth : Int} {s : Bytes}
    (h : ¬NoSplit scan depth s) (u : Bytes) : (commaPieces scan depth (s ++ u)).1 <+: s := by
  induction s generalizing scan depth with
  | nil => exact absurd trivial h
  | cons b rest ih =>
      rw [List.cons_append, commaPieces]
      by_cases hsplit : (scan.isBare b && b == 44 && depth == 0) = true
      · simp only [if_pos hsplit]
        exact List.nil_prefix
      · simp only [if_neg hsplit]
        exact (List.prefix_cons_inj b).mpr (ih fun hrest => h ⟨hsplit, hrest⟩)

/-! ### A string in a line -/

/-- In a line the scanners make nothing of the text: no comment starts in it, and it opens no more
brackets than it closes. -/
def Calm (s : Bytes) : Prop := Lacks isHash {} s ∧ nesting {} s ≤ 0

instance (s : Bytes) : Decidable (Calm s) :=
  inferInstanceAs (Decidable (Lacks isHash {} s ∧ nesting {} s ≤ 0))

def literalLine (key : Key) (s : Bytes) : Bytes := plainAssignment key (literal s)

variable {key : Key} {s : Bytes}

theorem lineFeed_not_mem_literalLine (hs : 10 ∉ s) : 10 ∉ literalLine key s := by
  have hkey := (Token.key key).whole.oneLine
  simp [literalLine, plainAssignment, literal, hkey, hs]

/-- The line sets the key, to the string in its quotes if no comment starts in the string. -/
theorem readLine_literalLine {p : Progress} (hp : p.openEntry = none) (h : Lacks isHash {} s)
    (number : Nat) :
    p.readLine number (literalLine key s) = p.settle
      { first := ⟨p.header, key.val, literal s, number⟩, depth := nesting {} s } := by
  have hcomment : withoutComment {} (literal s) = literal s ++ [] := by
    rw [List.append_nil]
    exact withoutComment_of_lacks ((lacks_literal_iff rfl).mpr h)
  rw [literalLine, plainAssignment, Progress.readLine_assign hp key .space .space hcomment
    (tight_literal s) (List.cons_ne_nil _ _) (by simp) number, nesting_literal]

/-- Else it sets the key to what is left in front of the comment. -/
theorem readLine_literalLine_of_not_lacks {p : Progress} (hp : p.openEntry = none)
    (h : ¬Lacks isHash {} s) (number : Nat) :
    ∃ w, w <+: s ∧ p.readLine number (literalLine key s) = p.settle
      { first := ⟨p.header, key.val, Bytes.trim (39 :: w), number⟩
        depth := nesting {} (Bytes.trim (39 :: w)) } := by
  obtain ⟨hcut, hinit⟩ := withoutComment_of_not_lacks h [39]
  refine ⟨withoutComment {} s, hinit, ?_⟩
  obtain ⟨t, d, hw, hd, ht, htrim⟩ :=
    Bytes.exists_tight_append (c := 39) rfl (withoutComment {} s)
  have hcomment : withoutComment {} (literal s) = 39 :: t ++ d := by
    have hfirst : withoutComment {} (literal s) = 39 :: withoutComment {} (s ++ [39]) := rfl
    rw [hfirst, hcut, hw]
    rfl
  rw [htrim]
  exact Progress.readLine_assign hp key .space .space hcomment ht (List.cons_ne_nil _ _) hd number

/-- The line says that the key is the string, and the lines above and below say what they have said
without it. -/
def SaysLiteral (key : Key) (s front rest : Bytes) : Prop :=
  ∃ e later, entries (front ++ rest) = entries front ++ later
    ∧ entries (front ++ (literalLine key s ++ 10 :: rest))
      = entries front ++ e :: later.map Entry.moved
    ∧ e.key = key.val ∧ stringValue e.value = s

/-- A calm string is read back wherever its line stands. -/
theorem Calm.saysLiteral (h : Calm s) (hs : 10 ∉ s) {front : Bytes} (hfront : Settled front)
    (rest : Bytes) : SaysLiteral key s front rest := by
  let p := Progress.after {} 1 (Bytes.lines front)
  let number := 1 + (Bytes.lines front).length
  have hp : p.openEntry = none := hfront.closed
  have hline : p.readLine number (literalLine key s)
      = (p, [⟨p.header, key.val, literal s, number⟩]) := by
    rw [readLine_literalLine hp h.1, Progress.settle_of_complete hp h.2]
    simp [OpenEntry.entry]
  have hbelow : p.entries (number + 1) (Bytes.lines rest)
      = (p.entries number (Bytes.lines rest)).map Entry.moved :=
    Progress.entries_moved hp number _
  refine ⟨⟨p.header, key.val, literal s, number⟩, p.entries number (Bytes.lines rest),
    hfront.entries_append rest, ?_, rfl, stringValue_literal s⟩
  rw [hfront.entries_append, Bytes.lines_append (lineFeed_not_mem_literalLine hs)]
  show entries front ++ ((p.readLine number (literalLine key s)).2
    ++ (p.readLine number (literalLine key s)).1.entries (number + 1) (Bytes.lines rest)) = _
  rw [hline, hbelow]
  rfl

/-- A comment that starts in the string takes its end away. -/
theorem not_says_of_not_lacks (hs : 39 ∉ s ∧ 10 ∉ s) (h : ¬Lacks isHash {} s) :
    ¬SaysLiteral key s [] [] := by
  intro hsay
  obtain ⟨e, later, -, hentries, -, hvalue⟩ := hsay
  obtain ⟨w, hinit, hline⟩ := @readLine_literalLine_of_not_lacks key s {} rfl h 1
  have hread := Progress.entries_settle (p := {}) rfl
    { first := ⟨[], key.val, Bytes.trim (39 :: w), 1⟩
      depth := nesting {} (Bytes.trim (39 :: w)) } 2
  have hthis : entries (literalLine key s ++ 10 :: [])
      = [⟨[], key.val, Bytes.trim (39 :: w), 1⟩] := by
    rw [entries, Bytes.lines_append (lineFeed_not_mem_literalLine hs.2)]
    show (Progress.readLine {} 1 (literalLine key s)).2
      ++ (Progress.readLine {} 1 (literalLine key s)).1.entries 2 [] = _
    rw [hline, hread]
    simp [OpenEntry.entry]
  rw [List.nil_append, hthis] at hentries
  have he : e = ⟨[], key.val, Bytes.trim (39 :: w), 1⟩ := (List.cons.inj hentries).1.symm
  rw [he] at hvalue
  exact stringValue_ne_of_not_mem hs.1 (fun hmem => hs.1 (hinit.subset hmem)) hvalue

/-- A bracket that the string leaves open swallows the line below. -/
theorem not_says_of_nesting (hs : 10 ∉ s) (h : Lacks isHash {} s) (hopen : 0 < nesting {} s) :
    ¬SaysLiteral key s [] (ascii "a=1") := by
  intro hsay
  obtain ⟨e, later, hlater, hentries, -⟩ := hsay
  have hbelow : entries ([] ++ ascii "a=1") = [⟨[], ascii "a", ascii "1", 1⟩] := rfl
  have hlength : later.length = 1 := by
    have hlengths := congrArg List.length hlater
    rw [hbelow] at hlengths
    simpa [entries, Bytes.lines, Progress.entries] using hlengths.symm
  let o : OpenEntry := { first := ⟨[], key.val, literal s, 1⟩, depth := nesting {} s }
  have hfirst : Progress.readLine {} 1 (literalLine key s) = (Progress.holding {} o, []) := by
    rw [readLine_literalLine rfl h]
    exact if_pos hopen
  -- The second line goes on with the entry of the first, which stays open to the end.
  have hsecond : (Progress.holding {} o).readLine 2 (ascii "a=1")
      = (Progress.holding {} (o.extend (ascii "a=1")), []) := by
    have hdepth : 0 < (o.extend (ascii "a=1")).depth := by
      have hnone : nesting {} (ascii "a=1") = 0 := rfl
      show 0 < nesting {} s + nesting {} (ascii "a=1")
      omega
    exact if_pos hdepth
  have hone : (entries (literalLine key s ++ 10 :: ascii "a=1")).length = 1 := by
    have hlines : Bytes.lines (ascii "a=1") = [ascii "a=1"] := rfl
    rw [entries, Bytes.lines_append (lineFeed_not_mem_literalLine hs), hlines]
    simp only [Progress.entries, hfirst, hsecond]
    rfl
  rw [List.nil_append] at hentries
  rw [hentries, List.length_append, List.length_cons, List.length_map, hlength] at hone
  omega

/-- **Which strings are read back from a line.** -/
theorem calm_iff_saysLiteral (hs : 39 ∉ s ∧ 10 ∉ s) :
    (∀ front rest, Settled front → SaysLiteral key s front rest) ↔ Calm s := by
  constructor
  · intro hsay
    have hhash : Lacks isHash {} s := by
      by_contra h
      exact not_says_of_not_lacks hs h (hsay [] [] .nil)
    refine ⟨hhash, Int.not_lt.mp ?_⟩
    intro hopen
    exact not_says_of_nesting hs.2 hhash hopen (hsay [] (ascii "a=1") .nil)
  · intro hcalm front rest hfront
    exact hcalm.saysLiteral hs.2 hfront rest

/-! ### Strings in an array -/

/-- In the array every string is an item of its own: no comma in it parts anything, and behind it,
but for the last, the scanner is outside strings and brackets again. -/
structure Parted (ss : List Bytes) : Prop where
  noSplit : ∀ s ∈ ss, NoSplit {} 0 s
  closed : ∀ s ∈ ss.dropLast, Scan.after {} (literal s) = {} ∧ nesting {} s = 0

instance (ss : List Bytes) : Decidable (Parted ss) :=
  decidable_of_iff ((∀ s ∈ ss, NoSplit {} 0 s)
      ∧ ∀ s ∈ ss.dropLast, Scan.after {} (literal s) = {} ∧ nesting {} s = 0)
    ⟨fun h => ⟨h.1, h.2⟩, fun h => ⟨h.noSplit, h.closed⟩⟩

theorem parted_cons_iff {t : Bytes} {ss : List Bytes} :
    Parted (s :: t :: ss) ↔ (NoSplit {} 0 s ∧ Scan.after {} (literal s) = {} ∧ nesting {} s = 0)
      ∧ Parted (t :: ss) := by
  constructor
  · intro h
    obtain ⟨hsplit, hclosed⟩ := h
    rw [List.forall_mem_cons] at hsplit
    rw [List.dropLast_cons_cons, List.forall_mem_cons] at hclosed
    exact ⟨⟨hsplit.1, hclosed.1⟩, hsplit.2, hclosed.2⟩
  · intro h
    obtain ⟨⟨hsplit, hclosed⟩, hrest⟩ := h
    refine ⟨List.forall_mem_cons.mpr ⟨hsplit, hrest.noSplit⟩, ?_⟩
    rw [List.dropLast_cons_cons]
    exact List.forall_mem_cons.mpr ⟨hclosed, hrest.closed⟩

theorem noSplit_literal (h : NoSplit {} 0 s) : NoSplit {} 0 (literal s) := by
  have hlast : ∀ scan : Scan, ∀ depth : Int, NoSplit scan depth [39] := by
    intro scan depth
    simp [NoSplit]
  refine ⟨by simp, ?_⟩
  exact NoSplit.append h (hlast _ _)

theorem commaItems_of_pieces {text piece : Bytes} {pieces : List Bytes}
    (h : commaPieces {} 0 text = (piece, pieces)) (hne : Bytes.trim piece ≠ []) :
    commaItems text
      = Bytes.trim piece :: (pieces.map Bytes.trim).filter (fun item => !item.isEmpty) := by
  have hfull : (!(Bytes.trim piece).isEmpty) = true := by simpa using hne
  unfold commaItems
  rw [h]
  exact List.filter_cons_of_pos hfull

theorem commaItems_quote (u : Bytes) :
    ∃ items, commaItems (39 :: u) = Bytes.trim (39 :: (commaPieces {} 0 u).1) :: items := by
  have hpieces : commaPieces {} 0 (39 :: u)
      = (39 :: (commaPieces {} 0 u).1, (commaPieces {} 0 u).2) := rfl
  refine ⟨_, commaItems_of_pieces hpieces ?_⟩
  obtain ⟨t, d, -, -, -, htrim⟩ :=
    Bytes.exists_tight_append (c := 39) rfl (commaPieces {} 0 u).1
  rw [htrim]
  exact List.cons_ne_nil 39 t

theorem trim_literal_ne_nil (s : Bytes) : Bytes.trim (literal s) ≠ [] := by
  rw [(tight_literal s).trim_eq]
  exact List.cons_ne_nil _ _

theorem commaItems_literal (h : NoSplit {} 0 s) : commaItems (literal s) = [literal s] := by
  have hpieces : commaPieces {} 0 (literal s) = (literal s, []) := by
    have happend := commaPieces_append (noSplit_literal h) []
    simpa [commaPieces] using happend
  rw [commaItems_of_pieces hpieces (trim_literal_ne_nil s), (tight_literal s).trim_eq]
  rfl

theorem commaItems_literal_comma (h : NoSplit {} 0 s) (hafter : Scan.after {} (literal s) = {})
    (hnesting : nesting {} s = 0) (u : Bytes) :
    commaItems (literal s ++ 44 :: 32 :: u) = literal s :: commaItems u := by
  have hpieces : commaPieces {} 0 (literal s ++ 44 :: 32 :: u)
      = (literal s, (32 :: (commaPieces {} 0 u).1) :: (commaPieces {} 0 u).2) := by
    have happend := commaPieces_append (noSplit_literal h) (44 :: 32 :: u)
    have hspace : commaPieces {} 0 (32 :: u)
        = (32 :: (commaPieces {} 0 u).1, (commaPieces {} 0 u).2) := rfl
    rw [hafter, nesting_literal, hnesting, Int.add_zero, commaPieces_comma, hspace,
      List.append_nil] at happend
    exact happend
  have hblank : Bytes.trim (32 :: (commaPieces {} 0 u).1) = Bytes.trim (commaPieces {} 0 u).1 :=
    Bytes.trim_cons_of_blank rfl _
  rw [commaItems_of_pieces hpieces (trim_literal_ne_nil s), (tight_literal s).trim_eq,
    List.map_cons, hblank]
  rfl

/-- Inside a string or a bracket, and behind a backslash, a comma parts nothing. -/
theorem commaPieces_of_open {scan : Scan} {depth : Int} (h : ¬(scan = {} ∧ depth = 0))
    (u : Bytes) : ∃ y, (commaPieces scan depth (44 :: u)).1 = 44 :: y := by
  have hno : ¬(scan.isBare 44 && (44 : UInt8) == 44 && depth == 0) = true := by
    intro hcomma
    apply h
    obtain ⟨inString, hidden⟩ := scan
    simpa [Scan.isBare, and_comm] using hcomma
  refine ⟨(commaPieces (scan.next 44) (depth + bracket scan 44) u).1, ?_⟩
  rw [commaPieces]
  simp only [if_neg hno]

variable {u item : Bytes} {items : List Bytes}

theorem item_eq_trim (hitems : commaItems (literal s ++ u) = item :: items) :
    item = Bytes.trim (39 :: (commaPieces {} 0 (s ++ 39 :: u)).1) := by
  have htext : literal s ++ u = 39 :: (s ++ 39 :: u) := by simp [literal]
  obtain ⟨more, hmore⟩ := commaItems_quote (s ++ 39 :: u)
  rw [htext, hmore, List.cons.injEq] at hitems
  exact hitems.1.symm

/-- If the scanner does not come out of the string as it has come in, the item goes on behind the
comma, and is not read as the string. -/
theorem closed_of_item (hs : 39 ∉ s) (h : NoSplit {} 0 s)
    (hitems : commaItems (literal s ++ 44 :: u) = item :: items) (hitem : stringValue item = s) :
    Scan.after {} (literal s) = {} ∧ nesting {} s = 0 := by
  by_contra hopen
  obtain ⟨y, hy⟩ := commaPieces_of_open hopen u
  have hpiece : 39 :: (commaPieces {} 0 (s ++ 39 :: 44 :: u)).1 = literal s ++ 44 :: y := by
    have htext : literal s ++ 44 :: u = 39 :: (s ++ 39 :: 44 :: u) := by simp [literal]
    have happend := congrArg Prod.fst (commaPieces_append (noSplit_literal h) (44 :: u))
    rw [nesting_literal, Int.zero_add, hy, htext] at happend
    exact happend
  rw [item_eq_trim hitems] at hitem
  obtain ⟨d, hd, hblank⟩ := literal_of_stringValue hs hitem
  rw [hpiece] at hd
  -- So the comma would have to be one of the blanks behind the string.
  have hcomma : 44 ∈ d := by
    rw [← List.append_cancel_left hd]
    exact List.mem_cons_self
  exact absurd (hblank 44 hcomma) (by decide)

/-- A comma that parts the string takes its end away. -/
theorem noSplit_of_item (hs : 39 ∉ s) (hitems : commaItems (literal s ++ u) = item :: items)
    (hitem : stringValue item = s) : NoSplit {} 0 s := by
  by_contra hsplit
  have hinit := commaPieces_of_not_noSplit hsplit (39 :: u)
  rw [item_eq_trim hitems] at hitem
  exact stringValue_ne_of_not_mem hs (fun hmem => hs (hinit.subset hmem)) hitem

theorem join_literals (t : Bytes) (ss : List Bytes) :
    Bytes.join [44, 32] ((s :: t :: ss).map literal)
      = literal s ++ 44 :: 32 :: Bytes.join [44, 32] ((t :: ss).map literal) := by
  simp [Bytes.join]

theorem Parted.commaItems {ss : List Bytes} (h : Parted ss) :
    commaItems (Bytes.join [44, 32] (ss.map literal)) = ss.map literal := by
  induction ss with
  | nil => rfl
  | cons s ss ih =>
      cases ss with
      | nil => exact commaItems_literal (h.noSplit s List.mem_cons_self)
      | cons t ss =>
          obtain ⟨⟨hsplit, hafter, hnesting⟩, hrest⟩ := parted_cons_iff.mp h
          rw [join_literals, commaItems_literal_comma hsplit hafter hnesting, ih hrest]
          rfl

theorem parted_of_commaItems {ss : List Bytes} (hss : ∀ s ∈ ss, 39 ∉ s)
    (h : (Toml.commaItems (Bytes.join [44, 32] (ss.map literal))).map stringValue = ss) :
    Parted ss := by
  induction ss with
  | nil => exact ⟨by simp, by simp⟩
  | cons s ss ih =>
      have hs : 39 ∉ s := hss s List.mem_cons_self
      obtain ⟨item, items, hitems, hitem, hmore⟩ := List.map_eq_cons_iff.mp h
      cases ss with
      | nil =>
          have htext : Bytes.join [44, 32] ([s].map literal) = literal s ++ [] := by
            simp [Bytes.join]
          rw [htext] at hitems
          exact ⟨by simpa using noSplit_of_item hs hitems hitem, by simp⟩
      | cons t ss =>
          -- The first item decides about the first string.  Only when that is known to end at its
          -- comma, the other items are those of the array behind it.
          rw [join_literals] at hitems
          have hsplit := noSplit_of_item hs hitems hitem
          have hclosed := closed_of_item hs hsplit hitems hitem
          rw [commaItems_literal_comma hsplit hclosed.1 hclosed.2, List.cons.injEq] at hitems
          refine parted_cons_iff.mpr ⟨⟨hsplit, hclosed⟩, ih ?_ ?_⟩
          · intro r hr
            exact hss r (List.mem_cons_of_mem _ hr)
          · rw [hitems.2]
            exact hmore

/-- **Which strings are read back from an array.** -/
theorem parted_iff_stringArray {ss : List Bytes} (hss : ∀ s ∈ ss, 39 ∉ s) :
    stringArray (literalArray ss) = ss ↔ Parted ss := by
  have hbetween : between? 91 93 (literalArray ss)
      = some (Bytes.join [44, 32] (ss.map literal)) := between?_append 91 93 _
  have htight : Tight (literalArray ss) := by
    refine ⟨?_, ?_⟩
    · intro b hb
      obtain rfl : 91 = b := by simpa [literalArray] using hb
      rfl
    · intro b hb
      obtain rfl : 93 = b := by simpa [literalArray, List.getLast?_cons] using hb
      rfl
  simp only [stringArray, htight.trim_eq, hbetween]
  constructor
  · exact parted_of_commaItems hss
  · intro h
    rw [h.commaItems, List.map_map]
    have hread : stringValue ∘ literal = id := funext stringValue_literal
    rw [hread, List.map_id]

/-! ### Which strings are read back -/

/--
**Strings between single quotes are read back exactly if the scanners make nothing of them.**

A line sets its key to the string and leaves all other lines alone, wherever it stands, exactly if
the string is calm.  An array gives its strings back exactly if they are parted by the commas
between them and by no other.
-/
theorem literal_read_back_iff (key : Key) {s : Bytes} (hs : 39 ∉ s ∧ 10 ∉ s) {ss : List Bytes}
    (hss : ∀ s ∈ ss, 39 ∉ s ∧ 10 ∉ s) :
    ((∀ front rest, Settled front → SaysLiteral key s front rest) ↔ Calm s)
      ∧ (stringArray (literalArray ss) = ss ↔ Parted ss) :=
  ⟨calm_iff_saysLiteral hs, parted_iff_stringArray fun s hmem => (hss s hmem).1⟩

/-- Backslashes, equals signs and brackets that close do no harm, and neither do commas in
brackets. -/
theorem literal_read_back_calm :
    let key : Key := ⟨ascii "path", by decide⟩
    let s := ascii "C:\\dir=]"
    let ss := [ascii "[a,b]", ascii "c = d\\"]
    (39 ∉ s ∧ 10 ∉ s) ∧ (∀ s ∈ ss, 39 ∉ s ∧ 10 ∉ s)
      ∧ SaysLiteral key s (ascii "[table]\n") (ascii "more = 1")
      ∧ stringArray (literalArray ss) = ss := by
  intro key s ss
  have hs : 39 ∉ s ∧ 10 ∉ s := by decide
  have hss : ∀ s ∈ ss, 39 ∉ s ∧ 10 ∉ s := by decide
  have hread := literal_read_back_iff key hs hss
  exact ⟨hs, hss, hread.1.mpr (by decide) _ _ (by decide +kernel), hread.2.mpr (by decide)⟩

/-- **Strings between single quotes are not opaque.**  A `#` takes the rest of the line away, and a
comma makes two items of one. -/
theorem literal_not_opaque :
    ¬SaysLiteral ⟨ascii "k", by decide⟩ (ascii "a#b") [] []
      ∧ stringArray (literalArray [ascii "a,b"]) ≠ [ascii "a,b"] :=
  ⟨not_says_of_not_lacks (by decide) (by decide), by decide +kernel⟩

end AnalyzerBridge.Toml

/-
Scans of a text in two parts.

Comments, brackets, commas and assignments are looked for by four scanners, and a text is only
read back if all of them agree on where its strings are.  Each has one law here: it goes
through the first part of a text, provided there is nothing in it that it looks for, and goes on
with the second from where the first has left it.

What a scanner looks for counts only where it is bare, so the side conditions of all four laws
are of one form: `Lacks p s t` says that in a text that is scanned from `s` on no bare byte
satisfies `p`.
-/
import AnalyzerBridge.Proofs.Bytes
import AnalyzerBridge.Toml.Value

namespace AnalyzerBridge.Toml

/-! ### Where a scan stands behind a text -/

namespace Scan

/-- The scan behind a text. -/
def after (s : Scan) (t : Bytes) : Scan := t.foldl next s

@[simp] theorem after_nil (s : Scan) : s.after [] = s := rfl

@[simp] theorem after_cons (s : Scan) (b : UInt8) (t : Bytes) :
    s.after (b :: t) = (s.next b).after t := rfl

@[simp] theorem after_append (s : Scan) (t u : Bytes) : s.after (t ++ u) = (s.after t).after u :=
  List.foldl_append

end Scan

/-! ### Texts without a certain byte -/

/-- No bare byte of the text satisfies the condition. -/
def Lacks (p : UInt8 → Bool) (s : Scan) : Bytes → Prop
  | [] => True
  | b :: t => (s.isBare b = true → p b = false) ∧ Lacks p (s.next b) t

instance decidableLacks (p : UInt8 → Bool) : (s : Scan) → (t : Bytes) → Decidable (Lacks p s t)
  | _, [] => .isTrue trivial
  | s, b :: t =>
    have := decidableLacks p (s.next b) t
    inferInstanceAs (Decidable ((s.isBare b = true → p b = false) ∧ Lacks p (s.next b) t))

namespace Lacks

variable {p q : UInt8 → Bool} {s : Scan} {t u : Bytes}

theorem append_iff : Lacks p s (t ++ u) ↔ Lacks p s t ∧ Lacks p (s.after t) u := by
  induction t generalizing s with
  | nil => simp [Lacks]
  | cons b rest ih => simp [Lacks, ih, and_assoc]

theorem append (ht : Lacks p s t) (hu : Lacks p (s.after t) u) : Lacks p s (t ++ u) :=
  append_iff.mpr ⟨ht, hu⟩

/-- A text without the byte lacks it wherever the scan stands. -/
theorem of_forall (h : ∀ b ∈ t, p b = false) : Lacks p s t := by
  induction t generalizing s with
  | nil => trivial
  | cons b rest ih =>
      exact ⟨fun _ => h b List.mem_cons_self, ih fun c hc => h c (List.mem_cons_of_mem _ hc)⟩

end Lacks

/-- The byte starts a comment. -/
def isHash (b : UInt8) : Bool := b == 35

/-- The byte opens or closes a bracket. -/
def isBracket (b : UInt8) : Bool := b == 91 || b == 123 || b == 93 || b == 125

/-- The byte parts two items. -/
def isComma (b : UInt8) : Bool := b == 44

/-! ### Comments -/

/-- What stands before the first bare `#` is no comment. -/
theorem withoutComment_append {s : Scan} {t : Bytes} (h : Lacks isHash s t) (u : Bytes) :
    withoutComment s (t ++ u) = t ++ withoutComment (s.after t) u := by
  induction t generalizing s with
  | nil => rfl
  | cons b rest ih =>
      have hno : ¬ (s.isBare b && b == 35) = true := by
        rw [Bool.and_eq_true]
        rintro ⟨hbare, hhash⟩
        exact Bool.eq_false_iff.mp (h.1 hbare) hhash
      rw [List.cons_append, withoutComment, if_neg hno, ih h.2]
      rfl

theorem withoutComment_of_lacks {s : Scan} {t : Bytes} (h : Lacks isHash s t) :
    withoutComment s t = t := by
  have hcut := withoutComment_append h []
  rw [List.append_nil] at hcut
  exact hcut.trans (List.append_nil t)

/-- Behind a first bare `#` nothing is left of a line. -/
theorem withoutComment_of_not_lacks {scan : Scan} {s : Bytes} (h : ¬Lacks isHash scan s)
    (u : Bytes) :
    withoutComment scan (s ++ u) = withoutComment scan s ∧ withoutComment scan s <+: s := by
  induction s generalizing scan with
  | nil => exact absurd trivial h
  | cons b rest ih =>
      rw [List.cons_append, withoutComment, withoutComment]
      by_cases hhash : (scan.isBare b && b == 35) = true
      · rw [if_pos hhash, if_pos hhash]
        exact ⟨rfl, List.nil_prefix⟩
      · have hfirst : scan.isBare b = true → isHash b = false := by
          intro hbare
          simpa [hbare, isHash] using hhash
        have hrest : ¬Lacks isHash (scan.next b) rest := fun hrest => h ⟨hfirst, hrest⟩
        obtain ⟨hcut, hinit⟩ := ih hrest
        rw [if_neg hhash, if_neg hhash, hcut]
        exact ⟨rfl, (List.prefix_cons_inj b).mpr hinit⟩

/-! ### Brackets -/

theorem nesting_append (s : Scan) (t u : Bytes) :
    nesting s (t ++ u) = nesting s t + nesting (s.after t) u := by
  induction t generalizing s with
  | nil => simp [nesting]
  | cons b rest ih => simp [nesting, ih, Int.add_assoc]

theorem bracket_eq_zero {s : Scan} {b : UInt8} (h : s.isBare b = true → isBracket b = false) :
    bracket s b = 0 := by
  rw [bracket]
  by_cases hbare : s.isBare b = true
  · have hno := h hbare
    simp only [isBracket, Bool.or_eq_false_iff, beq_eq_false_iff_ne] at hno
    simp [hbare, hno]
  · simp [hbare]

theorem nesting_of_lacks {s : Scan} {t : Bytes} (h : Lacks isBracket s t) : nesting s t = 0 := by
  induction t generalizing s with
  | nil => rfl
  | cons b rest ih => rw [nesting, bracket_eq_zero h.1, ih h.2, Int.add_zero]

/-! ### Commas -/

/-- No bare comma of the text stands in no bracket, if so many are open before it. -/
def NoSplit (s : Scan) (depth : Int) : Bytes → Prop
  | [] => True
  | b :: t => ¬ (s.isBare b && b == 44 && depth == 0) = true
      ∧ NoSplit (s.next b) (depth + bracket s b) t

instance decidableNoSplit : (s : Scan) → (depth : Int) → (t : Bytes) → Decidable (NoSplit s depth t)
  | _, _, [] => .isTrue trivial
  | s, depth, b :: t =>
    have := decidableNoSplit (s.next b) (depth + bracket s b) t
    inferInstanceAs (Decidable (¬ (s.isBare b && b == 44 && depth == 0) = true
      ∧ NoSplit (s.next b) (depth + bracket s b) t))

namespace NoSplit

variable {s : Scan} {depth : Int} {t u : Bytes}

theorem append (ht : NoSplit s depth t) (hu : NoSplit (s.after t) (depth + nesting s t) u) :
    NoSplit s depth (t ++ u) := by
  induction t generalizing s depth with
  | nil => simpa [nesting] using hu
  | cons b rest ih =>
      refine ⟨ht.1, ih ht.2 ?_⟩
      rw [nesting, ← Int.add_assoc] at hu
      exact hu

theorem of_lacks (h : Lacks isComma s t) : NoSplit s depth t := by
  induction t generalizing s depth with
  | nil => trivial
  | cons b rest ih =>
      refine ⟨?_, ih h.2⟩
      simp only [Bool.and_eq_true, not_and]
      intro hsplit
      exact absurd hsplit.2 (Bool.eq_false_iff.mp (h.1 hsplit.1))

/-- Inside a bracket commas part nothing, as long as no bracket opens or closes. -/
theorem of_level (hdepth : depth ≠ 0) (h : Lacks isBracket s t) : NoSplit s depth t := by
  induction t generalizing s with
  | nil => trivial
  | cons b rest ih =>
      refine ⟨by simp [hdepth], ?_⟩
      rw [bracket_eq_zero h.1, Int.add_zero]
      exact ih h.2

end NoSplit

/-- What holds no splitting comma belongs to the first piece. -/
theorem commaPieces_append {s : Scan} {depth : Int} {t : Bytes} (h : NoSplit s depth t)
    (u : Bytes) :
    commaPieces s depth (t ++ u)
      = (t ++ (commaPieces (s.after t) (depth + nesting s t) u).1,
        (commaPieces (s.after t) (depth + nesting s t) u).2) := by
  induction t generalizing s depth with
  | nil => simp [nesting]
  | cons b rest ih =>
      rw [List.cons_append, commaPieces, ih h.2]
      simp only [if_neg h.1, nesting, Scan.after_cons, Int.add_assoc, List.cons_append]

/-- A bare comma in no bracket ends a piece. -/
theorem commaPieces_comma (u : Bytes) :
    commaPieces {} 0 (44 :: u) = ([], (commaPieces {} 0 u).1 :: (commaPieces {} 0 u).2) := rfl

/-! ### Assignments -/

/-- The first equals sign splits the text, if there are no quotes before it. -/
theorem splitAssignment_append {t : Bytes} (h : ∀ b ∈ t, b ≠ 34 ∧ b ≠ 61) (u : Bytes) :
    splitAssignment false (t ++ 61 :: u) = some (t, u) := by
  induction t with
  | nil => rfl
  | cons b rest ih =>
      obtain ⟨hquote, hequals⟩ := h b List.mem_cons_self
      have hrest := ih fun c hc => h c (List.mem_cons_of_mem _ hc)
      rw [List.cons_append, splitAssignment, if_neg (by simp [hequals]), if_neg hquote, hrest]
      rfl

theorem splitAssignment_eq_none {t : Bytes} (h : ∀ b ∈ t, b ≠ 34 ∧ b ≠ 61) {quoted : Bool} :
    splitAssignment quoted t = none := by
  induction t with
  | nil => rfl
  | cons b rest ih =>
      obtain ⟨hquote, hequals⟩ := h b List.mem_cons_self
      rw [splitAssignment, if_neg (by simp [hequals]), if_neg hquote,
        ih fun c hc => h c (List.mem_cons_of_mem _ hc)]
      rfl

/-- Whether there is an assignment does not depend on a text around it that has neither quotes nor
equals signs. -/
theorem splitAssignment_between_eq_none_iff {front back : Bytes}
    (hfront : ∀ b ∈ front, b ≠ 34 ∧ b ≠ 61) (hback : ∀ b ∈ back, b ≠ 34 ∧ b ≠ 61) (t : Bytes) :
    splitAssignment false (front ++ t ++ back) = none ↔ splitAssignment false t = none := by
  have hbehind : ∀ quoted, splitAssignment quoted (t ++ back) = none
      ↔ splitAssignment quoted t = none := by
    induction t with
    | nil =>
        intro quoted
        simp [splitAssignment_eq_none hback, splitAssignment]
    | cons b rest ih =>
        intro quoted
        rw [List.cons_append, splitAssignment, splitAssignment]
        by_cases hsplit : (!quoted && b == 61) = true
        · simp [hsplit]
        · rw [if_neg hsplit, if_neg hsplit, Option.map_eq_none_iff, Option.map_eq_none_iff]
          exact ih _
  rw [List.append_assoc, ← hbehind false]
  induction front with
  | nil => rfl
  | cons b rest ih =>
      obtain ⟨hquote, hequals⟩ := hfront b List.mem_cons_self
      rw [List.cons_append, splitAssignment, if_neg (by simp [hequals]), if_neg hquote,
        Option.map_eq_none_iff]
      exact ih fun c hc => hfront c (List.mem_cons_of_mem _ hc)

/-! ### Whole texts

A text is whole if a scan that comes to it outside strings also leaves it there, and if nothing
in it starts a comment.
-/

/-- A text in one line that leaves no string open, has no comment, and opens so many brackets more
than it closes. -/
structure Whole (t : Bytes) (depth : Int) : Prop where
  /-- The scan is outside strings again. -/
  after : Scan.after {} t = {}
  /-- There is no comment. -/
  noComment : Lacks isHash {} t
  /-- So many brackets are open. -/
  nesting : nesting {} t = depth
  /-- There is no line feed. -/
  oneLine : 10 ∉ t

/-- The byte leaves the scan alone, starts no comment, and opens and closes no bracket. -/
def isQuiet (b : UInt8) : Bool := b != 34 && b != 92 && b != 10 && !isHash b && !isBracket b

/-- The byte means nothing to any scanner but the one for assignments. -/
def isPlain (b : UInt8) : Bool := isQuiet b && !isComma b

theorem isPlain_iff {b : UInt8} : isPlain b = true ↔ isQuiet b = true ∧ isComma b = false := by
  simp [isPlain]

theorem isQuiet_iff {b : UInt8} : isQuiet b = true ↔
    (b ≠ 34 ∧ b ≠ 92 ∧ b ≠ 10) ∧ isHash b = false ∧ isBracket b = false := by
  simp [isQuiet, and_assoc]

theorem Scan.after_of_quiet {t : Bytes} (h : ∀ b ∈ t, isQuiet b = true) : Scan.after {} t = {} := by
  induction t with
  | nil => rfl
  | cons b rest ih =>
      have hquiet := (isQuiet_iff.mp (h b List.mem_cons_self)).1
      have hnext : Scan.next {} b = {} := by simp [Scan.next, hquiet]
      rw [Scan.after_cons, hnext]
      exact ih fun c hc => h c (List.mem_cons_of_mem _ hc)

namespace Whole

variable {t u : Bytes} {m n : Int}

theorem nil : Whole [] 0 := ⟨rfl, trivial, rfl, List.not_mem_nil⟩

theorem append (ht : Whole t m) (hu : Whole u n) : Whole (t ++ u) (m + n) where
  after := by rw [Scan.after_append, ht.after, hu.after]
  noComment := ht.noComment.append (by rw [ht.after]; exact hu.noComment)
  nesting := by rw [nesting_append, ht.nesting, ht.after, hu.nesting]
  oneLine := by
    rw [List.mem_append, not_or]
    exact ⟨ht.oneLine, hu.oneLine⟩

theorem of_quiet (h : ∀ b ∈ t, isQuiet b = true) : Whole t 0 where
  after := Scan.after_of_quiet h
  noComment := .of_forall fun b hb => (isQuiet_iff.mp (h b hb)).2.1
  nesting := nesting_of_lacks <| .of_forall fun b hb => (isQuiet_iff.mp (h b hb)).2.2
  oneLine hc := absurd (h 10 hc) (by decide)

theorem of_plain (h : ∀ b ∈ t, isPlain b = true) : Whole t 0 :=
  of_quiet fun b hb => (isPlain_iff.mp (h b hb)).1

theorem withoutComment_append (h : Whole t n) (u : Bytes) :
    withoutComment {} (t ++ u) = t ++ withoutComment {} u := by
  rw [Toml.withoutComment_append h.noComment, h.after]

end Whole

end AnalyzerBridge.Toml

/-
Reading one header line, however it arrives.

What a reader and a source still have to give is one byte string, the unread part of
the buffer followed by the chunks to come.  Low-level reads and the cutting back of the
buffer leave that string alone, so every operation of the reader can be described by
what it does to it, and `Frame.Grammar` says what that is.

A header line is searched for from the place up to which the buffer is known to hold no
line feed.  That place is kept relative to the unread part, so it survives a buffer that
is cut back, and the search finds what a fresh one would find.
-/
import AnalyzerBridge.Proofs.Frame.Grammar

namespace AnalyzerBridge.Frame

open Grammar (borders Alike)

/-! ### Finding a line feed -/

theorem lineFeedFrom?_eq_none {bytes : Bytes} (h : 10 ∉ bytes) (start : Nat) :
    lineFeedFrom? bytes start = none := by
  rw [lineFeedFrom?, Option.map_eq_none_iff, List.findIdx?_eq_none_iff]
  intro b hb
  have hmem : b ∈ bytes := List.mem_of_mem_drop hb
  simp only [beq_eq_false_iff_ne]
  rintro rfl
  exact h hmem

/-- The search may skip what is known to hold no line feed. -/
theorem lineFeedFrom?_append {text rest : Bytes} {start : Nat} (hfree : 10 ∉ text)
    (hstart : 10 ∉ (text ++ 10 :: rest).take start) :
    lineFeedFrom? (text ++ 10 :: rest) start = some text.length := by
  have hle : start ≤ text.length := by
    refine Nat.le_of_not_lt fun hlt => hstart ?_
    rw [List.take_append, List.mem_append]
    right
    obtain ⟨k, hk⟩ : ∃ k, start - text.length = k + 1 := ⟨start - text.length - 1, by omega⟩
    rw [hk, List.take_succ_cons]
    exact List.mem_cons_self
  have hnone : (text.drop start).findIdx? (· == 10) = none := by
    rw [List.findIdx?_eq_none_iff]
    intro b hb
    simp only [beq_eq_false_iff_ne]
    rintro rfl
    exact hfree (List.mem_of_mem_drop hb)
  rw [lineFeedFrom?, List.drop_append_of_le_length hle, List.findIdx?_append, hnone]
  simp only [List.findIdx?_cons, beq_self_eq_true, if_true, List.length_drop, Option.map_some,
    Option.none_or]
  congr 1
  omega

namespace Reader

theorem viewLine_of_not_mem {r : Reader} (h : 10 ∉ r.unread) (scanned : Nat) :
    r.viewLine scanned
      = if lineLimit < r.unread.length then .refused .lineTooLong else .unfinished := by
  rw [viewLine, lineFeedFrom?_eq_none h]

theorem viewLine_of_append {r : Reader} {text rest : Bytes} {scanned : Nat}
    (hunread : r.unread = text ++ 10 :: rest) (hfree : 10 ∉ text)
    (hscan : 10 ∉ r.unread.take scanned) :
    r.viewLine scanned
      = if text.getLast? = some 13 then .line text.dropLast (r.consume (text.length + 1))
        else .refused .lineNotTerminated := by
  rw [hunread] at hscan
  rw [viewLine, hunread, lineFeedFrom?_append hfree hscan]
  dsimp only
  rcases List.eq_nil_or_concat text with rfl | ⟨front, last, rfl⟩
  · simp
  · rw [List.concat_eq_append]
    have hlast : (front ++ [last] ++ 10 :: rest)[(front ++ [last]).length - 1]? = some last := by
      simp
    rw [hlast]
    by_cases hr : last = 13
    · subst hr
      simp
    · simp [hr]

end Reader

/-! ### What is in the buffer -/

/-- The reader has these bytes in its buffer that are not yet used. -/
structure Keeps (r : Reader) (bytes : Bytes) : Prop where
  /-- No more of the buffer is used up than there is. -/
  inside : r.pos ≤ r.buffer.length
  /-- What is behind the position. -/
  unread : r.buffer.drop r.pos = bytes

namespace Keeps

variable {r : Reader} {bytes : Bytes}

theorem of_inside (h : r.pos ≤ r.buffer.length) : Keeps r r.unread := ⟨h, r.unread_eq.symm⟩

theorem unread_eq (h : Keeps r bytes) : r.unread = bytes := r.unread_eq.trans h.unread

theorem requestStop (h : Keeps r bytes) : Keeps r.requestStop bytes := ⟨h.inside, h.unread⟩

theorem compact (h : Keeps r bytes) : Keeps r.compact bytes := by
  refine ⟨?_, ?_⟩
  · unfold Reader.compact
    split
    · exact Nat.zero_le _
    · exact h.inside
  · rw [← r.compact.unread_eq, Reader.unread_compact, h.unread_eq]

theorem receive (h : Keeps r bytes) (chunk : Bytes) : Keeps (r.receive chunk) (bytes ++ chunk) := by
  refine ⟨?_, ?_⟩
  · have hin := h.inside
    show r.pos ≤ (r.buffer ++ chunk).length
    rw [List.length_append]
    omega
  · show (r.buffer ++ chunk).drop r.pos = bytes ++ chunk
    rw [List.drop_append_of_le_length h.inside, h.unread]

theorem consume (h : Keeps r bytes) {count : Nat} (hle : count ≤ bytes.length) :
    Keeps (r.consume count) (bytes.drop count) := by
  refine ⟨?_, ?_⟩
  · have hlen := r.length_unread
    have hin := h.inside
    rw [h.unread_eq] at hlen
    show r.pos + count ≤ r.buffer.length
    omega
  · rw [← (r.consume count).unread_eq, Reader.unread_consume, h.unread_eq]

end Keeps

/-! ### What is left to hand over -/

/-- Reader and source together have `bytes` left, and the stream ends behind them. -/
structure Holds (r : Reader) (s : Source) (bytes : Bytes) : Prop where
  /-- Nobody has asked the reader to stop. -/
  running : r.stopRequested = false
  /-- No more of the buffer is used up than there is. -/
  inside : r.pos ≤ r.buffer.length
  /-- Behind the chunks the stream ends. -/
  ends : s.ending = .endOfStream
  /-- An empty chunk would be the end of the stream. -/
  nonempty : ∀ chunk ∈ s.chunks, chunk ≠ []
  /-- What is unread and what is still to come. -/
  left : r.unread ++ s.chunks.flatten = bytes

namespace Holds

variable {r : Reader} {s : Source} {bytes : Bytes}

theorem start {chunks : List Bytes} (h : ∀ chunk ∈ chunks, chunk ≠ []) :
    Holds {} ⟨chunks, .endOfStream⟩ chunks.flatten :=
  ⟨rfl, Nat.le_refl _, rfl, h, rfl⟩

theorem keeps (h : Holds r s bytes) : Keeps r r.unread := .of_inside h.inside

theorem consume (h : Holds r s bytes) {count : Nat} (hle : count ≤ r.unread.length) :
    Holds (r.consume count) s (bytes.drop count) := by
  refine ⟨h.running, (h.keeps.consume hle).inside, h.ends, h.nonempty, ?_⟩
  rw [Reader.unread_consume, ← h.left, List.drop_append_of_le_length hle]

theorem compact (h : Holds r s bytes) : Holds r.compact s bytes := by
  refine ⟨?_, h.keeps.compact.inside, h.ends, h.nonempty, ?_⟩
  · unfold Reader.compact
    split
    · exact h.running
    · exact h.running
  · rw [Reader.unread_compact, h.left]

theorem unread_receive (h : Holds r s bytes) (chunk : Bytes) :
    (r.receive chunk).unread = r.unread ++ chunk :=
  (h.keeps.receive chunk).unread_eq

theorem receive (h : Holds r s bytes) {chunk : Bytes} {chunks : List Bytes}
    (hs : s.chunks = chunk :: chunks) : Holds (r.receive chunk) { s with chunks } bytes := by
  refine ⟨h.running, (h.keeps.receive chunk).inside, h.ends, ?_, ?_⟩
  · intro c hc
    exact h.nonempty c (by rw [hs]; exact List.mem_cons_of_mem _ hc)
  · rw [h.unread_receive, ← h.left, hs, List.flatten_cons, List.append_assoc]

/-- With no chunk to come, a low-level read finds the end of the stream. -/
theorem fill_nil (h : Holds r s bytes) (hs : s.chunks = []) :
    r.fill s = (.endOfStream, r.compact, s) := by
  simp [Reader.fill, h.compact.running, hs, h.ends, fillFromEnding]

/-- Else it takes the next chunk into the buffer and changes nothing of what is left. -/
theorem fill_cons (h : Holds r s bytes) {chunk : Bytes} {chunks : List Bytes}
    (hs : s.chunks = chunk :: chunks) :
    r.fill s = (.data, r.compact.receive chunk, { s with chunks }) := by
  have hne : chunk ≠ [] := h.nonempty chunk (by rw [hs]; exact List.mem_cons_self)
  cases chunk with
  | nil => exact absurd rfl hne
  | cons b rest => simp [Reader.fill, h.compact.running, hs]

end Holds

/-- An operation of the reader does what the grammar says: it gives the same answer, leaves the
same bytes, and goes past no border of `here` that matters for them. -/
structure Follows {α : Type} (out : Except ReadFailure α × Reader × Source)
    (said : Except ReadFailure α × Bytes) (here : List Nat) : Prop where
  answer : out.1 = said.1
  holds : Holds out.2.1 out.2.2 said.2
  alike : Alike said.2 here (borders out.2.2.chunks)

theorem Follows.of_alike {α : Type} {out : Except ReadFailure α × Reader × Source}
    {said : Except ReadFailure α × Bytes} {here there : List Nat} (h : Follows out said there)
    (hlike : Alike said.2 here there) : Follows out said here :=
  ⟨h.answer, h.holds, hlike.trans h.alike⟩

/-! ### Header lines

The grammar's line is looked up in what is left as a whole.  `line_of_append` and
`line_of_long` say what it is when the buffer alone decides.
-/

theorem length_mem_borders (chunks : List Bytes) : chunks.flatten.length ∈ borders chunks := by
  cases chunks with
  | nil => exact List.mem_singleton.mpr rfl
  | cons chunk chunks => exact List.mem_cons_self

theorem le_of_mem_borders {chunks : List Bytes} {behind : Nat} (h : behind ∈ borders chunks) :
    behind ≤ chunks.flatten.length := by
  induction chunks with
  | nil => simpa [borders] using h
  | cons chunk chunks ih =>
      rcases List.mem_cons.mp h with rfl | hrest
      · exact Nat.le_refl _
      · have hle := ih hrest
        rw [List.flatten_cons, List.length_append]
        omega

section

variable {r : Reader} {s : Source} {bytes : Bytes}

/-- A line that is whole in the buffer is cut by no border that is still to come. -/
theorem line_of_append (h : Holds r s bytes) {text rest : Bytes}
    (hunread : r.unread = text ++ 10 :: rest) (hfree : 10 ∉ text) :
    Grammar.line (borders s.chunks) bytes
      = if text.getLast? = some 13 then (.ok text.dropLast, rest ++ s.chunks.flatten)
        else (.error .lineNotTerminated, bytes) := by
  have hbytes : bytes = text ++ 10 :: (rest ++ s.chunks.flatten) := by
    rw [← h.left, hunread, List.append_assoc, List.cons_append]
  have hcut : ¬ Grammar.CutLate (borders s.chunks) bytes (rest ++ s.chunks.flatten) := by
    rintro ⟨behind, hmem, -, hlt⟩
    have hle := le_of_mem_borders hmem
    rw [List.length_append] at hlt
    omega
  rw [Grammar.line, hbytes, Bytes.splitAt_append hfree, ← hbytes]
  dsimp only
  rw [if_neg hcut]

/-- A line that has outgrown the limit in the buffer is refused, wherever it ends. -/
theorem line_of_long (h : Holds r s bytes) (hfree : 10 ∉ r.unread)
    (hlong : lineLimit < r.unread.length) :
    Grammar.line (borders s.chunks) bytes = (.error .lineTooLong, bytes) := by
  have hlen : bytes.length = r.unread.length + s.chunks.flatten.length := by
    rw [← h.left, List.length_append]
  rw [Grammar.line]
  by_cases hmem : 10 ∈ bytes
  · obtain ⟨text, rest, hbytes, htext⟩ := Bytes.eq_append_of_mem hmem
    -- The line feed is not in the buffer, so the border behind the buffer comes before it.
    have hrest : rest.length < s.chunks.flatten.length := by
      rw [← h.left] at hbytes
      rcases List.append_eq_append_iff.mp hbytes with ⟨more, -, hmore⟩ | ⟨more, hunread, hmore⟩
      · rw [hmore, List.length_append, List.length_cons]
        omega
      · cases more with
        | nil =>
            rw [List.nil_append] at hmore
            rw [← hmore, List.length_cons]
            exact Nat.lt_succ_self _
        | cons b more =>
            rw [List.cons_append, List.cons.injEq] at hmore
            exact absurd (by simp [hunread, ← hmore.1]) hfree
    have hcut : Grammar.CutLate (borders s.chunks) bytes rest :=
      ⟨s.chunks.flatten.length, length_mem_borders _, by omega, hrest⟩
    rw [hbytes, Bytes.splitAt_append htext, ← hbytes]
    dsimp only
    rw [if_pos hcut]
  · rw [Bytes.splitAt_eq_none hmem]
    dsimp only
    rw [if_pos (by omega)]

/-- The answer lies in the buffer: nothing is read from the source. -/
theorem headerLine_of_append (h : Holds r s bytes) {scanned : Nat} {text rest : Bytes}
    (hunread : r.unread = text ++ 10 :: rest) (hfree : 10 ∉ text)
    (hscan : 10 ∉ r.unread.take scanned) :
    Follows (r.headerLine scanned s) (Grammar.line (borders s.chunks) bytes)
      (borders s.chunks) := by
  rw [line_of_append h hunread hfree, Reader.headerLine,
    Reader.viewLine_of_append hunread hfree hscan]
  by_cases hreturn : text.getLast? = some 13
  · rw [if_pos hreturn, if_pos hreturn]
    refine ⟨rfl, ?_, Alike.refl _ _⟩
    have hrest : bytes.drop (text.length + 1) = rest ++ s.chunks.flatten := by
      rw [← h.left, hunread, List.append_assoc, List.drop_length_add_append]
      rfl
    show Holds (r.consume (text.length + 1)) s (rest ++ s.chunks.flatten)
    rw [← hrest]
    refine h.consume ?_
    rw [hunread, List.length_append, List.length_cons]
    omega
  · rw [if_neg hreturn, if_neg hreturn]
    exact ⟨rfl, h, Alike.refl _ _⟩

theorem headerLine_of_long (h : Holds r s bytes) (scanned : Nat) (hfree : 10 ∉ r.unread)
    (hlong : lineLimit < r.unread.length) :
    Follows (r.headerLine scanned s) (Grammar.line (borders s.chunks) bytes)
      (borders s.chunks) := by
  rw [line_of_long h hfree hlong, Reader.headerLine, Reader.viewLine_of_not_mem hfree,
    if_pos hlong]
  exact ⟨rfl, h, Alike.refl _ _⟩

/-- The buffer does not tell, and the source has one more chunk. -/
theorem headerLine_of_cons (h : Holds r s bytes) (scanned : Nat) (hfree : 10 ∉ r.unread)
    (hshort : ¬ lineLimit < r.unread.length) {chunk : Bytes} {chunks : List Bytes}
    (hs : s.chunks = chunk :: chunks) :
    r.headerLine scanned s
      = (r.compact.receive chunk).headerLine r.unread.length { s with chunks } := by
  rw [Reader.headerLine, Reader.viewLine_of_not_mem hfree, if_neg hshort]
  dsimp only
  split <;> simp_all [h.fill_cons hs]

/-- The buffer does not tell, and the stream has ended. -/
theorem headerLine_of_nil (h : Holds r s bytes) (scanned : Nat) (hfree : 10 ∉ r.unread)
    (hshort : ¬ lineLimit < r.unread.length) (hs : s.chunks = []) :
    r.headerLine scanned s
      = (.error (if r.unread.length = 0 then .closed else .closedInHeader), r.compact, s) := by
  rw [Reader.headerLine, Reader.viewLine_of_not_mem hfree, if_neg hshort]
  dsimp only
  split <;> simp_all [h.fill_nil hs]

/-- What the buffer alone decides. -/
theorem headerLine_of_decided (h : Holds r s bytes) {scanned : Nat}
    (hscan : 10 ∉ r.unread.take scanned)
    (hdecided : 10 ∈ r.unread ∨ lineLimit < r.unread.length) :
    Follows (r.headerLine scanned s)
      (if bytes = [] then (.error .closed, bytes) else Grammar.line (borders s.chunks) bytes)
      (borders s.chunks) := by
  have hne : bytes ≠ [] := by
    rintro rfl
    have hnil : r.unread = [] := (List.append_eq_nil_iff.mp h.left).1
    rw [hnil] at hdecided
    simp [lineLimit] at hdecided
  rw [if_neg hne]
  by_cases hmem : 10 ∈ r.unread
  · obtain ⟨text, rest, hunread, hfree⟩ := Bytes.eq_append_of_mem hmem
    exact headerLine_of_append h hunread hfree hscan
  · exact headerLine_of_long h scanned hmem (hdecided.resolve_left hmem)

/-- **Reading one header line.**  What arrives while the line is not yet whole only moves from the
source to the buffer, so the induction is on the chunks to come. -/
theorem headerLine_follows (h : Holds r s bytes) (scanned : Nat)
    (hscan : 10 ∉ r.unread.take scanned) :
    Follows (r.headerLine scanned s)
      (if bytes = [] then (.error .closed, bytes) else Grammar.line (borders s.chunks) bytes)
      (borders s.chunks) := by
  induction hs : s.chunks generalizing r s scanned with
  | nil =>
      rw [← hs]
      by_cases hdecided : 10 ∈ r.unread ∨ lineLimit < r.unread.length
      · exact headerLine_of_decided h hscan hdecided
      · obtain ⟨hfree, hshort⟩ := not_or.mp hdecided
        have hbytes : r.unread = bytes := by
          rw [← h.left, hs, List.flatten_nil, List.append_nil]
        rw [headerLine_of_nil h scanned hfree hshort hs]
        rw [hbytes] at hfree hshort ⊢
        rw [Grammar.line_of_short hfree hshort]
        by_cases hnil : bytes = []
        · subst hnil
          exact ⟨rfl, h.compact, Alike.refl _ _⟩
        · rw [if_neg hnil, if_neg (mt List.length_eq_zero_iff.mp hnil)]
          exact ⟨rfl, h.compact, Alike.refl _ _⟩
  | cons chunk chunks ih =>
      by_cases hdecided : 10 ∈ r.unread ∨ lineLimit < r.unread.length
      · rw [← hs]
        exact headerLine_of_decided h hscan hdecided
      · obtain ⟨hfree, hshort⟩ := not_or.mp hdecided
        have h₁ : Holds (r.compact.receive chunk) { s with chunks } bytes := h.compact.receive hs
        have hseen : 10 ∉ (r.compact.receive chunk).unread.take r.unread.length := by
          rw [h.compact.unread_receive, Reader.unread_compact, List.take_left]
          exact hfree
        -- The border behind the buffer is too near to matter, here and for what is left.
        have hnear : Alike bytes (borders (chunk :: chunks)) (borders chunks) := by
          refine Alike.cons ?_
          rw [← h.left, hs, List.length_append]
          omega
        rw [headerLine_of_cons h scanned hfree hshort hs, Grammar.line_congr hnear]
        refine (ih h₁ _ hseen rfl).of_alike (hnear.mono ?_)
        split
        · exact Nat.le_refl _
        · exact Grammar.length_line_le (Prod.eta _).symm

end

/-! ### Headers

What a header comes to is decided line by line.
-/

section

variable {r : Reader} {s : Source}

theorem Reader.header_of_error {r' : Reader} {s' : Source} {reason : ReadFailure}
    (h : r.headerLine 0 s = (.error reason, r', s')) (length : Option Nat) (first : Bool) :
    r.header length first s
      = (.error (if !first && reason = .closed then .closedInHeader else reason), r', s') := by
  rw [header]
  split <;> simp_all

theorem Reader.header_of_nil {r' : Reader} {s' : Source} (h : r.headerLine 0 s = (.ok [], r', s'))
    (length : Option Nat) (first : Bool) :
    r.header length first s
      = match length with
        | some n => (.ok n, r', s')
        | none => (.error .missingLength, r', s') := by
  rw [header]
  cases length <;> split <;> simp_all

theorem Reader.header_of_cons {r' : Reader} {s' : Source} {b : UInt8} {text : Bytes}
    (h : r.headerLine 0 s = (.ok (b :: text), r', s')) (length : Option Nat) (first : Bool) :
    r.header length first s
      = match Field.ofLine (b :: text) with
        | .length n => r'.header (some n) false s'
        | .other => r'.header length false s'
        | .badLength => (.error (.invalidLength (b :: text)), r', s')
        | .malformed => (.error (.malformedHeader (b :: text)), r', s') := by
  rw [header]
  cases hfield : Field.ofLine (b :: text) <;> split <;> simp_all

end

end AnalyzerBridge.Frame

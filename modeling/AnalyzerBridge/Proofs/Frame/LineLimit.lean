/-
Which header lines the limit on their length keeps out.

The reader looks at the length of a line only while the end of the line is not in its buffer.  So
the limit does not hold of lines but of what has arrived of them: a line is refused as soon as the
reader holds more than `lineLimit` bytes of it and still no line feed.  A line whose line feed
arrives before that, or together with what is too much, is a line like any other.

`Meets` follows a read from header line to header line, so that the theorem speaks of every line
that any read comes to, and `Overgrows` says what arrives of such a line.  The borders of
`Frame.Grammar` are the same thing seen from the other end of the stream.
-/
import AnalyzerBridge.Proofs.Frame.Refinement

namespace AnalyzerBridge.Frame

open Grammar (borders Alike)

/-! ### The lines that a read comes to -/

/-- A read from the first state comes to a header line in the second: it has read the lines before
it, and they are fields. -/
inductive Reader.Meets : Reader → Source → Reader → Source → Prop
  | first {r : Reader} {s : Source} : Meets r s r s
  | behind {r r₁ r' : Reader} {s s₁ s' : Source} {b : UInt8} {text : Bytes}
      (read : r.headerLine 0 s = (.ok (b :: text), r₁, s₁))
      (field : Field.ofLine (b :: text) ≠ .badLength ∧ Field.ofLine (b :: text) ≠ .malformed)
      (more : Meets r₁ s₁ r' s') : Meets r s r' s'

theorem Reader.header_of_field {r r₁ : Reader} {s s₁ : Source} {b : UInt8} {text : Bytes}
    (read : r.headerLine 0 s = (.ok (b :: text), r₁, s₁))
    (field : Field.ofLine (b :: text) ≠ .badLength ∧ Field.ofLine (b :: text) ≠ .malformed)
    (length : Option Nat) (first : Bool) :
    ∃ length', r.header length first s = r₁.header length' false s₁ := by
  cases hfield : Field.ofLine (b :: text) with
  | length n => exact ⟨some n, by rw [header_of_cons read, hfield]⟩
  | other => exact ⟨length, by rw [header_of_cons read, hfield]⟩
  | badLength => exact absurd hfield field.1
  | malformed => exact absurd hfield field.2

namespace Reader.Meets

variable {r r' : Reader} {s s' : Source} {bytes : Bytes}

/-- What a read makes of the header is decided from the line on that it has come to. -/
theorem header_eq (h : Meets r s r' s') (length : Option Nat) (first : Bool) :
    ∃ length' first', r.header length first s = r'.header length' first' s' := by
  induction h generalizing length first with
  | first => exact ⟨length, first, rfl⟩
  | behind read field more ih =>
      obtain ⟨length', hnext⟩ := header_of_field read field length first
      rw [hnext]
      exact ih length' false

/-- A line that is refused has the whole read fail, for the same reason. -/
theorem readMessage_of_refused (h : Meets r s r' s') {reason : ReadFailure}
    (hopen : reason ≠ .closed) (hrefused : (r'.headerLine 0 s').1 = .error reason) :
    r.readMessage s = (.error reason, (r'.headerLine 0 s').2) := by
  obtain ⟨length, first, hheader⟩ := h.header_eq none true
  have hline : r'.headerLine 0 s' = (.error reason, (r'.headerLine 0 s').2) :=
    Prod.ext hrefused rfl
  have hkept : ¬ (!first && decide (reason = .closed)) = true := by simp [hopen]
  rw [readMessage, hheader, header_of_error hline, if_neg hkept]

/-- Reading header lines leaves a state from which the next one can be described. -/
theorem holds (h : Meets r s r' s') (hr : Holds r s bytes) :
    Holds r' s' (r'.unread ++ s'.chunks.flatten) := by
  induction h generalizing bytes with
  | first =>
      rw [hr.left]
      exact hr
  | behind read field more ih => exact ih (headerLine_of_ok hr read).2.holds

end Reader.Meets

/-! ### What arrives of a line -/

/-- The bytes that are unread after so many more low-level reads. -/
def arrived (r : Reader) (s : Source) (reads : Nat) : Bytes :=
  r.unread ++ (s.chunks.take reads).flatten

theorem arrived_first (chunk : Bytes) (chunks : List Bytes) (ending : Ending) :
    arrived {} ⟨chunk :: chunks, ending⟩ 1 = chunk := by
  simp [arrived]

/-- After some of the low-level reads to come, the reader holds more than `lineLimit` bytes of the
line and not its line feed. -/
def Overgrows (r : Reader) (s : Source) (text : Bytes) : Prop :=
  ∃ reads, lineLimit < (arrived r s reads).length ∧ (arrived r s reads).length ≤ text.length

theorem mem_borders_iff {chunks : List Bytes} {behind : Nat} :
    behind ∈ borders chunks ↔ ∃ reads, behind = (chunks.drop reads).flatten.length := by
  induction chunks with
  | nil => simp [borders]
  | cons chunk chunks ih =>
      unfold borders
      rw [List.mem_cons, ih]
      constructor
      · intro h
        rcases h with hfirst | ⟨reads, hreads⟩
        · exact ⟨0, hfirst⟩
        · exact ⟨reads + 1, hreads⟩
      · intro h
        obtain ⟨reads, hreads⟩ := h
        cases reads with
        | zero => exact Or.inl hreads
        | succ reads => exact Or.inr ⟨reads, hreads⟩

/-- What overgrows is what some border cuts late. -/
theorem cutLate_iff_overgrows {r : Reader} {s : Source} {text rest : Bytes}
    (hleft : r.unread ++ s.chunks.flatten = text ++ 10 :: rest) :
    Grammar.CutLate (borders s.chunks) (text ++ 10 :: rest) rest ↔ Overgrows r s text := by
  -- What has arrived and what is still to come are the line, its line feed and the rest.
  have hlen : ∀ reads, (arrived r s reads).length + (s.chunks.drop reads).flatten.length
      = text.length + 1 + rest.length := by
    intro reads
    have hsplit : arrived r s reads ++ (s.chunks.drop reads).flatten = text ++ 10 :: rest := by
      unfold arrived
      rw [List.append_assoc, ← List.flatten_append, List.take_append_drop, hleft]
    have htotal := congrArg List.length hsplit
    rw [List.length_append, List.length_append, List.length_cons] at htotal
    omega
  have hbytes : (text ++ 10 :: rest).length = text.length + 1 + rest.length := by
    rw [List.length_append, List.length_cons]
    omega
  constructor
  · intro h
    obtain ⟨behind, hmem, hfar, hlt⟩ := h
    obtain ⟨reads, rfl⟩ := mem_borders_iff.mp hmem
    have htotal := hlen reads
    exact ⟨reads, by omega, by omega⟩
  · intro h
    obtain ⟨reads, hover, hopen⟩ := h
    have htotal := hlen reads
    exact ⟨_, mem_borders_iff.mpr ⟨reads, rfl⟩, by omega, by omega⟩

/-! ### Which lines are refused -/

/-- **What becomes of a header line** that ends somewhere in the stream: it is refused if it
overgrows, and else it only has to end in the right way. -/
theorem headerLine_of_line {r : Reader} {s : Source} {text rest : Bytes}
    (h : Holds r s (text ++ 10 :: rest)) (hfree : 10 ∉ text) :
    (Overgrows r s text → (r.headerLine 0 s).1 = .error .lineTooLong)
      ∧ (¬Overgrows r s text → (r.headerLine 0 s).1
          = if text.getLast? = some 13 then .ok text.dropLast else .error .lineNotTerminated) := by
  have hcut := cutLate_iff_overgrows h.left
  have hf := headerLine_follows h 0 (by simp)
  rw [if_neg (by simp)] at hf
  rw [hf.answer, Grammar.line, Bytes.splitAt_append hfree]
  dsimp only
  constructor
  · intro hover
    rw [if_pos (hcut.mpr hover)]
  · intro hover
    rw [if_neg (mt hcut.mp hover)]
    split <;> rfl

/--
**What the limit keeps out.**

Whichever header line a read comes to, after any number of reads and however the stream is cut:
if the line overgrows, it is longer than the limit, the read fails for that reason and the line
stays in front of what is left.  If it does not overgrow, it is taken for the line that it is, with
no regard to its length.
-/
theorem header_line_refused_or_taken (chunks : List Bytes)
    (hchunks : ∀ chunk ∈ chunks, chunk ≠ []) (count : Nat) {r' : Reader} {s' : Source}
    {text rest : Bytes}
    (hmeets : Reader.Meets (Reader.readMessages count {} ⟨chunks, .endOfStream⟩).2.1
      (Reader.readMessages count {} ⟨chunks, .endOfStream⟩).2.2 r' s')
    (hline : r'.unread ++ s'.chunks.flatten = text ++ 10 :: rest) (hfree : 10 ∉ text) :
    let out := Reader.readMessages count {} ⟨chunks, .endOfStream⟩
    let read := out.2.1.readMessage out.2.2
    (Overgrows r' s' text →
      lineLimit < text.length
        ∧ read.1.mapError ReadFailure.failure
          = .error { kind := .framing, message := ascii "header line too long" }
        ∧ read.2.1.unread ++ read.2.2.chunks.flatten = text ++ 10 :: rest)
    ∧ (¬Overgrows r' s' text →
      (r'.headerLine 0 s').1
        = if text.getLast? = some 13 then .ok text.dropLast else .error .lineNotTerminated) := by
  intro out read
  -- The reads that are done leave a state that the grammar describes, and so do the lines.
  have hstart : Holds out.2.1 out.2.2 _ :=
    (readMessages_follows count (Holds.start hchunks) (Alike.refl _ (borders chunks))).2
  have hthere : Holds r' s' (text ++ 10 :: rest) := hline ▸ hmeets.holds hstart
  obtain ⟨hrefused, htaken⟩ := headerLine_of_line hthere hfree
  refine ⟨?_, htaken⟩
  intro hover
  have hcut := (cutLate_iff_overgrows hline).mpr hover
  have hstuck : Grammar.line (borders s'.chunks) (text ++ 10 :: rest)
      = (.error .lineTooLong, text ++ 10 :: rest) :=
    Grammar.Stuck.line_eq ⟨text, rest, rfl, hfree, hcut⟩
  have hstays := (headerLine_follows hthere 0 (by simp)).holds.left
  rw [if_neg (by simp), hstuck] at hstays
  have hread : read = (.error .lineTooLong, (r'.headerLine 0 s').2) :=
    hmeets.readMessage_of_refused (by simp) (hrefused hover)
  rw [hread]
  exact ⟨Grammar.lt_length_of_cutLate hcut, rfl, hstays⟩

/-- A line of more than `lineLimit` bytes that is cut right before its end. -/
theorem header_line_refused_or_taken_cut_late :
    let front := 88 :: 58 :: List.replicate lineLimit 97
    let rest := ascii "Content-Length: 0\r\n\r\n"
    let chunks := [front, 13 :: 10 :: rest]
    let out := Reader.readMessages 0 {} ⟨chunks, .endOfStream⟩
    (∀ chunk ∈ chunks, chunk ≠ [])
      ∧ Reader.Meets out.2.1 out.2.2 {} ⟨chunks, .endOfStream⟩
      ∧ chunks.flatten = (front ++ [13]) ++ 10 :: rest ∧ 10 ∉ front ++ [13]
      ∧ (out.2.1.readMessage out.2.2).1.mapError ReadFailure.failure
          = .error { kind := .framing, message := ascii "header line too long" } := by
  intro front rest chunks out
  have hlong : lineLimit < front.length := by
    simp only [front, List.length_cons, List.length_replicate]
    omega
  have hfree : 10 ∉ front ++ [13] := by simp [front]
  -- Only these two facts about the front matter, and it is too long to be computed with.
  clear_value front
  have hchunks : ∀ chunk ∈ chunks, chunk ≠ [] := by
    have hne : front ≠ [] := List.ne_nil_of_length_pos (Nat.zero_lt_of_lt hlong)
    simp [chunks, hne]
  have hflat : chunks.flatten = (front ++ [13]) ++ 10 :: rest := by simp [chunks]
  have hover : Overgrows {} ⟨chunks, .endOfStream⟩ (front ++ [13]) := by
    refine ⟨1, ?_⟩
    rw [arrived_first, List.length_append]
    omega
  have hsaid := header_line_refused_or_taken chunks hchunks 0 .first hflat hfree
  exact ⟨hchunks, .first, hflat, hfree, (hsaid.1 hover).2.1⟩

/-- **The limit is none on header lines.**  A line of more than `lineLimit` bytes is read like any
other if it arrives together with its end. -/
theorem long_line_taken :
    ¬ ∀ (chunks : List Bytes) (text rest : Bytes), (∀ chunk ∈ chunks, chunk ≠ []) →
        chunks.flatten = text ++ 10 :: rest → 10 ∉ text → lineLimit < text.length →
        (Reader.readMessages 1 {} ⟨chunks, .endOfStream⟩).1 = [.error .lineTooLong] := by
  intro hlimit
  let front : Bytes := 88 :: 58 :: List.replicate lineLimit 97
  let whole : Bytes := [front, ascii "\r\nContent-Length: 0\r\n\r\n"].flatten
  have hwhole : whole = (front ++ [13]) ++ 10 :: ascii "Content-Length: 0\r\n\r\n" := by
    have hend : ascii "\r\nContent-Length: 0\r\n\r\n"
        = 13 :: 10 :: ascii "Content-Length: 0\r\n\r\n" := by decide
    simp [whole, hend]
  have hchunks : ∀ chunk ∈ [whole], chunk ≠ [] := by simp [hwhole]
  have hlong : lineLimit < (front ++ [13]).length := by
    simp only [front, List.length_append, List.length_cons, List.length_replicate]
    omega
  have hrefused := hlimit [whole] (front ++ [13]) _ hchunks (by rw [← hwhole]; simp)
    (by simp [front]) hlong
  -- The only borders stand in front of everything and behind everything.
  have hnone : Alike [whole].flatten [] (borders [whole]) := by
    intro behind hpos hfar
    simp only [borders, List.flatten_singleton, List.mem_cons, List.not_mem_nil, or_false,
      false_iff] at hfar ⊢
    omega
  have hread := (readMessages_follows 1 (Holds.start hchunks) hnone).1
  rw [List.flatten_singleton, messages_of_long_line lineLimit] at hread
  rw [hread] at hrefused
  exact absurd hrefused (by simp)

end AnalyzerBridge.Frame

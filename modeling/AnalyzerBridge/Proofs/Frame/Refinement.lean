/-
The reader computes the grammar, however the stream is cut.

`Proofs/Frame/HeaderLine.lean` shows it for one header line.  A header is a recursion on
its lines and a payload waits for its bytes, so what remains is to follow these two and
to see that one read leaves a state from which the next can be described again.

That is where borders come in.  The borders that a read went past cannot matter to the
reads after it, because too little is left behind them for a line that they could cut
late.  The one exception is a read that waited for a payload until the stream ended.
-/
import AnalyzerBridge.Proofs.Frame.HeaderLine

namespace AnalyzerBridge.Frame

open Grammar (borders Alike)

/-! ### Header fields

The reader stops counting above the limit on payloads.  A capped sum is the cap of the
sum, and a number above the limit is refused either way.
-/

theorem foldl_extendLength (digits : Bytes) (length : Nat) :
    digits.foldl extendLength (min length (payloadLimit + 1))
      = min (digits.foldl (fun n b => n * 10 + (b.toNat - 48)) length) (payloadLimit + 1) := by
  induction digits generalizing length with
  | nil => rfl
  | cons b rest ih =>
      have hstep : extendLength (min length (payloadLimit + 1)) b
          = min (length * 10 + (b.toNat - 48)) (payloadLimit + 1) := by
        rw [extendLength]
        omega
      rw [List.foldl_cons, hstep, ih, List.foldl_cons]

theorem decimalLength_eq (digits : Bytes) :
    decimalLength digits = min (Bytes.decimalValue digits) (payloadLimit + 1) := by
  rw [Bytes.decimalValue, ← foldl_extendLength digits 0]
  rfl

theorem lengthOf?_eq (value : Bytes) : lengthOf? value = Grammar.contentLength value := by
  rw [lengthOf?, Grammar.contentLength, decimalLength_eq]
  by_cases hdigits : Bytes.trim value ≠ [] ∧ (Bytes.trim value).all Bytes.isDigit = true
  · have hshape : ¬ ((Bytes.trim value).isEmpty
        || !(Bytes.trim value).all Bytes.isDigit) = true := by
      simpa using hdigits
    rw [if_neg hshape]
    by_cases hfits : Bytes.decimalValue (Bytes.trim value) ≤ payloadLimit
    · have hcap : min (Bytes.decimalValue (Bytes.trim value)) (payloadLimit + 1)
          = Bytes.decimalValue (Bytes.trim value) := by omega
      rw [hcap, if_pos hfits, if_pos ⟨hdigits.1, hdigits.2, hfits⟩]
    · rw [if_neg (by omega), if_neg fun hc => hfits hc.2.2]
  · have hshape : ((Bytes.trim value).isEmpty
        || !(Bytes.trim value).all Bytes.isDigit) = true := by
      cases hb : (Bytes.trim value).isEmpty || !(Bytes.trim value).all Bytes.isDigit with
      | true => rfl
      | false => exact absurd (by simpa using hb) hdigits
    rw [if_pos hshape, if_neg fun hc => hdigits ⟨hc.1, hc.2.1⟩]

/-- The reader takes a header line for what the grammar says it is. -/
theorem ofLine_eq (line : Bytes) : Field.ofLine line = Grammar.field line := by
  rw [Field.ofLine, Grammar.field]
  rcases Bytes.splitAt 58 line with _ | ⟨_ | ⟨b, name⟩, value⟩
  · rfl
  · rfl
  · dsimp only
    rw [lengthOf?_eq]
    exact (if_neg (List.cons_ne_nil b name)).symm

/-! ### Headers -/

section

variable {r : Reader} {s : Source} {bytes : Bytes}

/-- A line that was read was there to be read. -/
theorem headerLine_of_ok (h : Holds r s bytes) {text : Bytes} {r' : Reader} {s' : Source}
    (hline : r.headerLine 0 s = (.ok text, r', s')) :
    bytes ≠ [] ∧ Follows (Except.ok text, r', s') (Grammar.line (borders s.chunks) bytes)
      (borders s.chunks) := by
  have hf := headerLine_follows h 0 (by simp)
  rw [hline] at hf
  by_cases hnil : bytes = []
  · rw [if_pos hnil] at hf
    exact absurd hf.answer (by simp)
  · rw [if_neg hnil] at hf
    exact ⟨hnil, hf⟩

/-- **Reading a header.**  The end of the stream is a clean one only before the first line. -/
theorem header_follows (length : Option Nat) (first : Bool) (h : Holds r s bytes) :
    Follows (r.header length first s)
      (if first = true ∧ bytes = [] then (.error .closed, bytes)
        else Grammar.header (borders s.chunks) length bytes)
      (borders s.chunks) := by
  fun_induction Reader.header r length first s generalizing bytes with
  | case1 r length first s reason r' s' hline =>
      have hf := headerLine_follows h 0 (by simp)
      rw [hline] at hf
      by_cases hnil : bytes = []
      · subst hnil
        rw [if_pos rfl] at hf
        have hclosed : reason = .closed := Except.error.inj hf.answer
        subst hclosed
        cases first with
        | true => exact ⟨rfl, hf.holds, hf.alike⟩
        | false =>
            have hshort : Grammar.line (borders s.chunks) [] = (.error .closedInHeader, []) :=
              Grammar.line_of_short (by simp) (by simp)
            rw [Grammar.header_of_error hshort]
            exact ⟨rfl, hf.holds, hf.alike⟩
      · rw [if_neg hnil] at hf
        have hopen : ¬ (!first && decide (reason = .closed)) = true := by
          rcases Grammar.line_error hf.answer.symm with rfl | rfl | rfl <;> simp
        rw [if_neg hopen, if_neg fun hc => hnil hc.2,
          Grammar.header_of_error (Prod.ext hf.answer.symm rfl)]
        exact ⟨rfl, hf.holds, hf.alike⟩
  | case2 r first s r' s' hline n =>
      obtain ⟨hne, hf⟩ := headerLine_of_ok h hline
      rw [if_neg fun hc => hne hc.2, Grammar.header_of_nil (Prod.ext hf.answer.symm rfl)]
      exact ⟨rfl, hf.holds, hf.alike⟩
  | case3 r first s r' s' hline =>
      obtain ⟨hne, hf⟩ := headerLine_of_ok h hline
      rw [if_neg fun hc => hne hc.2, Grammar.header_of_nil (Prod.ext hf.answer.symm rfl)]
      exact ⟨rfl, hf.holds, hf.alike⟩
  | case4 r length first s b text r' s' hline n hfield ih =>
      obtain ⟨hne, hf⟩ := headerLine_of_ok h hline
      rw [ofLine_eq] at hfield
      rw [if_neg fun hc => hne hc.2, Grammar.header_of_cons (Prod.ext hf.answer.symm rfl), hfield]
      have hrest := ih hf.holds
      rw [if_neg (by simp), ← Grammar.header_congr _ hf.alike] at hrest
      exact hrest.of_alike (hf.alike.mono (Grammar.length_header_le _ _ _))
  | case5 r length first s b text r' s' hline hfield ih =>
      obtain ⟨hne, hf⟩ := headerLine_of_ok h hline
      rw [ofLine_eq] at hfield
      rw [if_neg fun hc => hne hc.2, Grammar.header_of_cons (Prod.ext hf.answer.symm rfl), hfield]
      have hrest := ih hf.holds
      rw [if_neg (by simp), ← Grammar.header_congr _ hf.alike] at hrest
      exact hrest.of_alike (hf.alike.mono (Grammar.length_header_le _ _ _))
  | case6 r length first s b text r' s' hline hfield =>
      obtain ⟨hne, hf⟩ := headerLine_of_ok h hline
      rw [ofLine_eq] at hfield
      rw [if_neg fun hc => hne hc.2, Grammar.header_of_cons (Prod.ext hf.answer.symm rfl), hfield]
      exact ⟨rfl, hf.holds, hf.alike⟩
  | case7 r length first s b text r' s' hline hfield =>
      obtain ⟨hne, hf⟩ := headerLine_of_ok h hline
      rw [ofLine_eq] at hfield
      rw [if_neg fun hc => hne hc.2, Grammar.header_of_cons (Prod.ext hf.answer.symm rfl), hfield]
      exact ⟨rfl, hf.holds, hf.alike⟩

/-! ### Payloads -/

/-- The payload is not whole in the buffer, and the source has one more chunk. -/
theorem payload_of_cons (h : Holds r s bytes) {length : Nat} (hlt : r.unread.length < length)
    {chunk : Bytes} {chunks : List Bytes} (hs : s.chunks = chunk :: chunks) :
    r.payload length s = (r.compact.receive chunk).payload length { s with chunks } := by
  have hpart : (r.unread.take length).length ≠ length := by
    rw [List.length_take]
    omega
  rw [Reader.payload, if_neg hpart]
  split <;> simp_all [h.fill_cons hs]

/-- The payload is not whole in the buffer, and the stream has ended. -/
theorem payload_of_nil (h : Holds r s bytes) {length : Nat} (hlt : r.unread.length < length)
    (hs : s.chunks = []) :
    r.payload length s
      = (.error (.closedInPayload r.compact.unread.length length), r.compact, s) := by
  have hpart : (r.unread.take length).length ≠ length := by
    rw [List.length_take]
    omega
  rw [Reader.payload, if_neg hpart]
  split <;> simp_all [h.fill_nil hs]

/-- The payload is whole in the buffer. -/
theorem payload_of_le (h : Holds r s bytes) {length : Nat} (hle : length ≤ r.unread.length) :
    Follows (r.payload length s) (Grammar.payload length bytes)
      (Grammar.bordersAfter (Grammar.payload length bytes).1 (borders s.chunks)) := by
  have hbytes : length ≤ bytes.length := by
    rw [← h.left, List.length_append]
    omega
  have htake : bytes.take length = r.unread.take length := by
    rw [← h.left, List.take_append_of_le_length hle]
  have hwhole : (r.unread.take length).length = length := by
    rw [List.length_take]
    omega
  rw [Grammar.payload, if_pos hbytes, htake, Reader.payload, if_pos hwhole]
  exact ⟨rfl, h.consume hle, Alike.refl _ _⟩

/-- **Reading a payload.** -/
theorem payload_follows (length : Nat) (h : Holds r s bytes) :
    Follows (r.payload length s) (Grammar.payload length bytes)
      (Grammar.bordersAfter (Grammar.payload length bytes).1 (borders s.chunks)) := by
  induction hs : s.chunks generalizing r s with
  | nil =>
      rw [← hs]
      rcases Nat.lt_or_ge r.unread.length length with hlt | hle
      · have hbytes : r.unread = bytes := by
          rw [← h.left, hs, List.flatten_nil, List.append_nil]
        rw [payload_of_nil h hlt hs, Reader.unread_compact]
        rw [hbytes] at hlt ⊢
        rw [Grammar.payload, if_neg (Nat.not_le.mpr hlt)]
        refine ⟨rfl, h.compact, ?_⟩
        -- The only border there is stands at the very end.
        intro behind hpos _
        show behind ∈ [] ↔ behind ∈ borders s.chunks
        rw [hs, borders, List.mem_singleton]
        simp [Nat.ne_of_gt hpos]
      · exact payload_of_le h hle
  | cons chunk chunks ih =>
      rcases Nat.lt_or_ge r.unread.length length with hlt | hle
      · have h₁ : Holds (r.compact.receive chunk) { s with chunks } bytes := h.compact.receive hs
        rw [payload_of_cons h hlt hs]
        refine (ih h₁ rfl).of_alike ?_
        by_cases hfits : length ≤ bytes.length
        · rw [Grammar.payload, if_pos hfits]
          refine Alike.cons ?_
          -- The payload ends behind the border, so nothing that is left is before it.
          have hlen := congrArg List.length h.left
          rw [hs, List.length_append] at hlen
          show (bytes.drop length).length ≤ _
          rw [List.length_drop]
          omega
        · rw [Grammar.payload, if_neg hfits]
          exact Alike.refl _ _
      · rw [← hs]
        exact payload_of_le h hle

/-! ### Messages -/

/-- **One read hands over what the grammar says and leaves what it says.** -/
theorem readMessage_follows (h : Holds r s bytes) :
    Follows (r.readMessage s) (Grammar.message (borders s.chunks) bytes)
      (Grammar.bordersAfter (Grammar.message (borders s.chunks) bytes).1 (borders s.chunks)) := by
  have hf := header_follows none true h
  rw [Reader.readMessage, Grammar.message]
  by_cases hnil : bytes = []
  · rw [if_pos ⟨rfl, hnil⟩] at hf
    rw [if_pos hnil]
    rcases hout : r.header none true s with ⟨answer, r', s'⟩
    rw [hout] at hf
    have hanswer : answer = .error .closed := hf.answer
    subst hanswer
    exact ⟨rfl, hf.holds, hf.alike⟩
  · rw [if_neg fun hc => hnil hc.2] at hf
    rw [if_neg hnil]
    rcases hout : r.header none true s with ⟨answer, r', s'⟩
    rcases hsaid : Grammar.header (borders s.chunks) none bytes with ⟨said, rest⟩
    rw [hout, hsaid] at hf
    obtain rfl : answer = said := hf.answer
    cases answer with
    | error reason =>
        dsimp only
        rw [Grammar.bordersAfter_header hsaid]
        exact ⟨rfl, hf.holds, hf.alike⟩
    | ok length =>
        refine (payload_follows length hf.holds).of_alike ?_
        exact (hf.alike.mono (Grammar.length_payload_le length rest)).after _

end

/-- A number of successive reads: their answers, and the reader and the source after them. -/
def Reader.readMessages :
    Nat → Reader → Source → List (Except ReadFailure Bytes) × Reader × Source
  | 0, r, s => ([], r, s)
  | count + 1, r, s =>
    let (answer, r', s') := r.readMessage s
    let (answers, last) := readMessages count r' s'
    (answer :: answers, last)

theorem readMessages_follows (count : Nat) {r : Reader} {s : Source} {bytes : Bytes}
    {here : List Nat} (h : Holds r s bytes) (hlike : Alike bytes here (borders s.chunks)) :
    (Reader.readMessages count r s).1 = (Grammar.messages count here bytes).1 ∧
      Holds (Reader.readMessages count r s).2.1 (Reader.readMessages count r s).2.2
        (Grammar.messages count here bytes).2 := by
  induction count generalizing r s bytes here with
  | zero => exact ⟨rfl, h⟩
  | succ count ih =>
      have hf := readMessage_follows h
      rw [Reader.readMessages, Grammar.messages, Grammar.message_congr hlike]
      rcases hout : r.readMessage s with ⟨answer, r', s'⟩
      rcases hsaid : Grammar.message (borders s.chunks) bytes with ⟨said, rest⟩
      rw [hout, hsaid] at hf
      obtain rfl : answer = said := hf.answer
      have hrest : Alike rest (Grammar.bordersAfter answer here) (borders s'.chunks) := by
        have hle := Grammar.length_message_le (borders s.chunks) bytes
        rw [hsaid] at hle
        exact ((hlike.mono hle).after answer).trans hf.alike
      obtain ⟨hanswers, hlast⟩ := ih hf.holds hrest
      exact ⟨congrArg (answer :: ·) hanswers, hlast⟩

/--
**The reader refines the grammar.**

However the stream is cut into chunks and however often it is read, the answers are those of the
grammar on the whole string and the same bytes are left.  Borders have a say only where the
grammar gives them one: the answers and what is left are also those of the grammar without
borders, unless the reader has come to a line that is longer than the limit and that a border
cuts late.  It refuses that line then and stays in front of it.
-/
theorem readMessages_refine_grammar (chunks : List Bytes)
    (hchunks : ∀ chunk ∈ chunks, chunk ≠ []) (count : Nat) :
    let out := Reader.readMessages count {} ⟨chunks, .endOfStream⟩
    let left := out.2.1.unread ++ out.2.2.chunks.flatten
    (out.1, left) = Grammar.messages count (borders chunks) chunks.flatten
      ∧ ((out.1, left) = Grammar.messages count [] chunks.flatten
        ∨ out.1.getLast? = some (.error .lineTooLong)
          ∧ ∃ text rest, left = text ++ 10 :: rest ∧ 10 ∉ text ∧ lineLimit < text.length
            ∧ Grammar.CutLate (borders chunks) left rest) := by
  intro out left
  obtain ⟨hanswers, hlast⟩ :=
    readMessages_follows count (Holds.start hchunks) (Alike.refl _ (borders chunks))
  have hout : (out.1, left) = Grammar.messages count (borders chunks) chunks.flatten :=
    Prod.ext hanswers hlast.left
  refine ⟨hout, ?_⟩
  rcases Grammar.messages_cases count (borders chunks) chunks.flatten with
    hplain | ⟨⟨text, rest, hleft, hfree, hcut⟩, hrefused⟩
  · exact .inl (hout.trans hplain)
  · rw [← hout] at hleft hcut hrefused
    have hleft' : left = text ++ 10 :: rest := hleft
    exact .inr ⟨hrefused, text, rest, hleft', hfree,
      Grammar.lt_length_of_cutLate (hleft' ▸ hcut), hcut⟩

/-- The second read fails in a line that ends in a bare line feed, and so does the third. -/
theorem readMessages_refine_grammar_bare_feed :
    let chunks := [ascii "Content-Le", ascii "ngth: 2\r", ascii "\n\r\n\x7b\x7doo", ascii "ps\n!"]
    let out := Reader.readMessages 3 {} ⟨chunks, .endOfStream⟩
    let left := out.2.1.unread ++ out.2.2.chunks.flatten
    (∀ chunk ∈ chunks, chunk ≠ [])
      ∧ (out.1, left) = Grammar.messages 3 (borders chunks) chunks.flatten
      ∧ ((out.1, left) = Grammar.messages 3 [] chunks.flatten
        ∨ out.1.getLast? = some (.error .lineTooLong)
          ∧ ∃ text rest, left = text ++ 10 :: rest ∧ 10 ∉ text ∧ lineLimit < text.length
            ∧ Grammar.CutLate (borders chunks) left rest) :=
  ⟨by decide, readMessages_refine_grammar _ (by decide) 3⟩

/-! ### Where the way the stream was cut matters -/

/-- A border behind more than `lineLimit` bytes of a header line has it refused. -/
theorem readMessages_of_late_border {front back : Bytes} (hfree : 10 ∉ front)
    (hlong : lineLimit < front.length) (hback : back ≠ []) :
    (Reader.readMessages 1 {} ⟨[front, back], .endOfStream⟩).1 = [.error .lineTooLong] := by
  have hfront : front ≠ [] := by
    rintro rfl
    exact absurd hlong (Nat.not_lt_zero _)
  have hstart : Holds {} ⟨[front, back], .endOfStream⟩ [front, back].flatten :=
    Holds.start (by simp [hfront, hback])
  have hunread : (Reader.receive {} front).unread = front := hstart.unread_receive front
  have hline := line_of_long (hstart.receive rfl) (hunread ▸ hfree) (hunread ▸ hlong)
  -- The border in front of everything is one more in the list, but nothing stands before it.
  have hlike : Alike [front, back].flatten (borders [front, back]) (borders [back]) :=
    Alike.cons (Nat.le_add_right _ _)
  have hne : [front, back].flatten ≠ [] := by simp [hfront]
  rw [(readMessages_follows 1 hstart hlike.symm).1, Grammar.messages_succ, Grammar.message,
    if_neg hne, Grammar.header_of_error hline]
  rfl

/-- Without borders a header line may be of any length. -/
theorem messages_of_long_line (filler : Nat) :
    (Grammar.messages 1 [] [88 :: 58 :: List.replicate filler 97,
      ascii "\r\nContent-Length: 0\r\n\r\n"].flatten).1 = [.ok []] := by
  have hbytes : [88 :: 58 :: List.replicate filler 97,
      ascii "\r\nContent-Length: 0\r\n\r\n"].flatten
      = 88 :: 58 :: List.replicate filler 97
          ++ 13 :: 10 :: (ascii "Content-Length: 0" ++ 13 :: 10 :: [13, 10]) := by
    have hend : ascii "\r\nContent-Length: 0\r\n\r\n"
        = 13 :: 10 :: (ascii "Content-Length: 0" ++ 13 :: 10 :: [13, 10]) := by decide
    rw [hend]
    simp
  have hfirst : Grammar.line [] (88 :: 58 :: List.replicate filler 97
      ++ 13 :: 10 :: (ascii "Content-Length: 0" ++ 13 :: 10 :: [13, 10]))
      = (.ok (88 :: 58 :: List.replicate filler 97),
          ascii "Content-Length: 0" ++ 13 :: 10 :: [13, 10]) :=
    Grammar.line_of_crlf (by simp) (Grammar.not_cutLate_nil _ _)
  have hsecond : Grammar.line [] (ascii "Content-Length: 0" ++ 13 :: 10 :: [13, 10])
      = (.ok (ascii "Content-Length: 0"), [13, 10]) := rfl
  have hthird : Grammar.line [] [13, 10] = (.ok [], []) := rfl
  have hfield : Grammar.field (88 :: 58 :: List.replicate filler 97) = .other := rfl
  have hlength : Grammar.field (ascii "Content-Length: 0") = .length 0 := by decide +kernel
  rw [hbytes, Grammar.messages_succ, Grammar.message, if_neg (by simp),
    Grammar.header_of_cons hfirst, hfield]
  dsimp only
  have hcons : ascii "Content-Length: 0" = 67 :: ascii "ontent-Length: 0" := by decide
  rw [hcons] at hsecond hlength
  rw [hcons, Grammar.header_of_cons hsecond, hlength]
  dsimp only
  rw [Grammar.header_of_nil hthird]
  rfl

/--
**The plain grammar is not what the reader computes.**

A header line longer than the limit is a line to the grammar.  Cut behind more than `lineLimit` of
its bytes it is refused.
-/
theorem plain_grammar_not_refined :
    ¬ ∀ chunks : List Bytes, (∀ chunk ∈ chunks, chunk ≠ []) → ∀ count,
        (Reader.readMessages count {} ⟨chunks, .endOfStream⟩).1
          = (Grammar.messages count [] chunks.flatten).1 := by
  intro hplain
  have hlong : lineLimit < (88 :: 58 :: List.replicate lineLimit (97 : UInt8)).length := by
    simp only [List.length_cons, List.length_replicate]
    omega
  have hread : (Reader.readMessages 1 {} ⟨[88 :: 58 :: List.replicate lineLimit 97,
      ascii "\r\nContent-Length: 0\r\n\r\n"], .endOfStream⟩).1 = [.error .lineTooLong] :=
    readMessages_of_late_border (by simp) hlong (by simp [ascii])
  have heq := hplain [88 :: 58 :: List.replicate lineLimit 97,
    ascii "\r\nContent-Length: 0\r\n\r\n"] (by simp [ascii]) 1
  rw [hread, messages_of_long_line] at heq
  exact absurd heq (by simp)

end AnalyzerBridge.Frame

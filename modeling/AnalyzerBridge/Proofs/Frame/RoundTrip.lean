/-
What is written as frames is read back, and a stream that breaks off is noticed.

By `Proofs/Frame/Refinement.lean` it is enough to look at the grammar, which sees the
stream as one byte string.  There are three cases for what is left of a row of frames
that was cut off somewhere: a whole frame and more, nothing, or a part of a frame.

The header of a frame is one short line, so no border can cut it late and the way the
stream was cut into chunks drops out.  A payload may hold anything, also bytes that look
like a header: it is never searched, only counted.
-/
import AnalyzerBridge.Proofs.Frame.Refinement

namespace AnalyzerBridge.Frame

open Grammar (borders)

/-- The frames of some payloads, one behind the other. -/
def wire (payloads : List Bytes) : Bytes := payloads.flatMap encode

@[simp] theorem wire_nil : wire [] = [] := rfl

@[simp] theorem wire_cons (payload : Bytes) (payloads : List Bytes) :
    wire (payload :: payloads) = encode payload ++ wire payloads := rfl

namespace Grammar

/-! ### The header that is written -/

/-- The header line that gives a length. -/
def lengthLine (length : Nat) : Bytes := ascii "Content-Length" ++ 58 :: 32 :: Bytes.decimal length

theorem encode_eq (payload : Bytes) :
    encode payload = lengthLine payload.length ++ 13 :: 10 :: 13 :: 10 :: payload := by
  have hname : ascii "Content-Length: " = ascii "Content-Length" ++ [58, 32] := by decide
  simp [encode, lengthLine, crlf, hname]

theorem lineFeed_notMem_lengthLine (length : Nat) : 10 ∉ lengthLine length := by
  intro hmem
  rcases List.mem_append.mp hmem with hname | hvalue
  · exact absurd hname (by decide)
  · simp only [List.mem_cons] at hvalue
    rcases hvalue with hcolon | hspace | hdigit
    · exact absurd hcolon (by decide)
    · exact absurd hspace (by decide)
    · exact absurd (Bytes.decimal_isDigit hdigit) (by decide)

theorem length_lengthLine_lt {length : Nat} (h : length ≤ payloadLimit) :
    (lengthLine length).length < 32 := by
  have hdigits : (Bytes.decimal length).length ≤ 9 :=
    Bytes.length_decimal_le_nine (Nat.lt_of_le_of_lt h (by decide))
  have hname : (ascii "Content-Length").length = 14 := by decide
  simp only [lengthLine, List.length_append, List.length_cons, hname]
  omega

theorem contentLength_decimal {length : Nat} (h : length ≤ payloadLimit) :
    contentLength (32 :: Bytes.decimal length) = some length := by
  have htrim : Bytes.trim (32 :: Bytes.decimal length) = Bytes.decimal length := by
    rw [Bytes.trim_cons_of_blank (by decide)]
    exact Bytes.trim_of_forall_not_blank fun b hb =>
      Bytes.isBlank_eq_false_of_isDigit (Bytes.decimal_isDigit hb)
  rw [contentLength, htrim, Bytes.decimalValue_decimal]
  have hdigits : (Bytes.decimal length).all Bytes.isDigit = true :=
    List.all_eq_true.mpr fun b hb => Bytes.decimal_isDigit hb
  exact if_pos ⟨Bytes.decimal_ne_nil length, hdigits, h⟩

/-- The line says what it was written to say. -/
theorem field_lengthLine {length : Nat} (h : length ≤ payloadLimit) :
    field (lengthLine length) = .length length := by
  have hname : 58 ∉ ascii "Content-Length" := by decide
  rw [field, lengthLine, Bytes.splitAt_append hname]
  dsimp only
  rw [if_neg (by decide), if_pos (by decide), contentLength_decimal h]

/-! ### Whole frames -/

theorem lengthLine_ne_nil (length : Nat) : lengthLine length ≠ [] := by
  simp [lengthLine]

/-- Reading the line that gives a length takes it in and goes on. -/
theorem header_lengthLine {length : Nat} (h : length ≤ payloadLimit) (borders : List Nat)
    (before : Option Nat) (rest : Bytes) :
    header borders before (lengthLine length ++ 13 :: 10 :: rest)
      = header borders (some length) rest := by
  have hlimit : (lengthLine length).length < lineLimit :=
    Nat.lt_trans (length_lengthLine_lt h) (by decide)
  have hline : line borders (lengthLine length ++ 13 :: 10 :: rest)
      = (.ok (lengthLine length), rest) :=
    line_of_crlf (lineFeed_notMem_lengthLine length) (not_cutLate_of_short hlimit)
  obtain ⟨b, text, hcons⟩ := List.exists_cons_of_ne_nil (lengthLine_ne_nil length)
  have hfield := field_lengthLine h
  rw [hcons] at hline hfield ⊢
  rw [header_of_cons hline, hfield]

/-- The empty line ends a header. -/
theorem header_emptyLine (borders : List Nat) (length : Nat) (rest : Bytes) :
    header borders (some length) (13 :: 10 :: rest) = (.ok length, rest) := by
  have hline : line borders ([] ++ 13 :: 10 :: rest) = (.ok [], rest) :=
    line_of_crlf List.not_mem_nil (not_cutLate_of_short (by decide))
  exact header_of_nil hline

/-- **A whole frame is read as its payload, and what follows it is left.** -/
theorem message_encode_append {payload : Bytes} (h : payload.length ≤ payloadLimit)
    (borders : List Nat) (rest : Bytes) :
    message borders (encode payload ++ rest) = (.ok payload, rest) := by
  have hbytes : encode payload ++ rest
      = lengthLine payload.length ++ 13 :: 10 :: 13 :: 10 :: (payload ++ rest) := by
    rw [encode_eq, List.append_assoc]
    rfl
  have hne : encode payload ++ rest ≠ [] := by
    rw [hbytes]
    simp [lengthLine]
  rw [message, if_neg hne, hbytes, header_lengthLine h, header_emptyLine]
  dsimp only
  rw [Grammar.payload, if_pos (by simp), List.take_left, List.drop_left]

/-! ### Frames that break off -/

/-- A text that breaks off stops inside its first line or reaches what follows it. -/
theorem prefix_crlf_cases {bytes text after : Bytes} (h : bytes <+: text ++ 13 :: 10 :: after) :
    bytes <+: text ++ [13] ∨ ∃ rest, bytes = text ++ 13 :: 10 :: rest ∧ rest <+: after := by
  have hsplit : text ++ 13 :: 10 :: after = (text ++ [13]) ++ 10 :: after := by simp
  rw [hsplit] at h
  rcases List.prefix_or_prefix_of_prefix h (List.prefix_append _ _) with hin | ⟨rest, rfl⟩
  · exact .inl hin
  · have hrest : rest <+: 10 :: after := (List.prefix_append_right_inj _).mp h
    rcases List.prefix_cons_iff.mp hrest with rfl | ⟨more, rfl, hmore⟩
    · exact .inl (by simp)
    · exact .inr ⟨more, by simp, hmore⟩

/-- A part of a line is no line. -/
theorem header_of_cut {bytes text : Bytes} (hcut : bytes <+: text ++ [13]) (hfree : 10 ∉ text)
    (hshort : text.length < lineLimit) (borders : List Nat) (length : Option Nat) :
    header borders length bytes = (.error .closedInHeader, bytes) := by
  have hlen := hcut.length_le
  rw [List.length_append, List.length_singleton] at hlen
  have hbytes : 10 ∉ bytes := by
    intro hmem
    rcases List.mem_append.mp (hcut.subset hmem) with htext | hreturn
    · exact hfree htext
    · exact absurd hreturn (by decide)
  exact header_of_error (line_of_short hbytes (by omega))

/-- **A part of a frame is never read as anything.** -/
theorem message_of_cut {payload bytes : Bytes} (h : payload.length ≤ payloadLimit)
    (hcut : bytes <+: encode payload) (hpart : bytes ≠ encode payload) (hne : bytes ≠ [])
    (borders : List Nat) :
    ∃ reason rest, message borders bytes = (.error reason, rest) ∧ reason.kind = .framing := by
  have hlimit : (lengthLine payload.length).length < lineLimit :=
    Nat.lt_trans (length_lengthLine_lt h) (by decide)
  rw [encode_eq] at hcut hpart
  rw [message, if_neg hne]
  rcases prefix_crlf_cases hcut with hline | ⟨rest, rfl, hrest⟩
  · rw [header_of_cut hline (lineFeed_notMem_lengthLine _) hlimit]
    exact ⟨_, _, rfl, rfl⟩
  · rw [header_lengthLine h]
    have hend : rest <+: [] ++ 13 :: 10 :: payload := hrest
    rcases prefix_crlf_cases hend with hempty | ⟨taken, rfl, htaken⟩
    · rw [header_of_cut hempty List.not_mem_nil (by decide)]
      exact ⟨_, _, rfl, rfl⟩
    · -- The header is whole, so it is the payload that has lost its end.
      have hshort : ¬ payload.length ≤ taken.length := by
        intro hle
        exact hpart (by rw [htaken.eq_of_length_le hle]; rfl)
      rw [List.nil_append, header_emptyLine]
      dsimp only
      rw [Grammar.payload, if_neg hshort]
      exact ⟨_, _, rfl, rfl⟩

/-! ### A row of frames that breaks off somewhere -/

/-- Reading a row of frames that breaks off: the whole frames are handed over, and the read after
them fails. -/
theorem messages_of_cut {payloads : List Bytes} (hfit : ∀ p ∈ payloads, p.length ≤ payloadLimit)
    {bytes : Bytes} (hcut : bytes <+: wire payloads) (borders : List Nat) :
    ∃ whole failure, whole <+: payloads ∧ wire whole <+: bytes
      ∧ (∀ p, whole ++ [p] <+: payloads → bytes.length < (wire (whole ++ [p])).length)
      ∧ (messages (whole.length + 1) borders bytes).1 = whole.map .ok ++ [.error failure]
      ∧ failure.kind = if bytes = wire whole then .connectionClosed else .framing := by
  induction payloads generalizing bytes with
  | nil =>
      obtain rfl : bytes = [] := List.prefix_nil.mp hcut
      exact ⟨[], .closed, List.prefix_rfl, List.prefix_rfl, by simp, rfl, rfl⟩
  | cons payload payloads ih =>
      have hhead : payload.length ≤ payloadLimit := hfit payload List.mem_cons_self
      rw [wire_cons] at hcut
      by_cases hwhole : encode payload <+: bytes
      · obtain ⟨rest, rfl⟩ := hwhole
        have hrest : rest <+: wire payloads := (List.prefix_append_right_inj _).mp hcut
        obtain ⟨whole, failure, hfront, hin, hlast, hread, hkind⟩ :=
          ih (fun p hp => hfit p (List.mem_cons_of_mem _ hp)) hrest
        refine ⟨payload :: whole, failure, ?_, ?_, ?_, ?_, ?_⟩
        · exact (List.prefix_cons_inj payload).mpr hfront
        · exact (List.prefix_append_right_inj _).mpr hin
        · intro p hp
          have hlt := hlast p ((List.prefix_cons_inj payload).mp hp)
          rw [List.cons_append, wire_cons, List.length_append, List.length_append]
          omega
        · rw [List.length_cons, messages, message_encode_append hhead]
          exact congrArg (.ok payload :: ·) hread
        · rw [hkind, wire_cons]
          simp only [List.append_cancel_left_eq]
      · have hpart : bytes <+: encode payload := by
          rcases List.prefix_or_prefix_of_prefix hcut (List.prefix_append _ _) with hin | hout
          · exact hin
          · exact absurd hout hwhole
        have hshort : bytes.length < (encode payload).length := by
          refine Nat.lt_of_le_of_ne hpart.length_le fun hlen => hwhole ⟨[], ?_⟩
          rw [List.append_nil]
          exact (hpart.eq_of_length hlen).symm
        have hnext : ∀ p, [] ++ [p] <+: payload :: payloads
            → bytes.length < (wire ([] ++ [p])).length := by
          intro p hp
          obtain rfl : p = payload := (List.cons_prefix_cons.mp hp).1
          simpa [wire] using hshort
        by_cases hnil : bytes = []
        · subst hnil
          exact ⟨[], .closed, List.nil_prefix, List.prefix_rfl, hnext, rfl, rfl⟩
        · obtain ⟨reason, rest, hread, hkind⟩ := message_of_cut hhead hpart
            (fun hc => hwhole (hc ▸ List.prefix_rfl)) hnil borders
          refine ⟨[], reason, List.nil_prefix, List.nil_prefix, hnext, ?_, ?_⟩
          · simp [messages, hread]
          · rw [hkind, wire_nil, if_neg hnil]

end Grammar

/--
**Frames survive any cutting of the stream, and a stream that breaks off is noticed.**

Some payloads are written as frames, and the stream delivers the bytes up to anywhere, in chunks
of any size.  Reading hands over the payloads whose frames are whole, in order; `whole` is the
longest such front part, as the frame behind it does not fit.  The read after them fails: the
stream is closed if it ends between two frames, and broken if it ends inside one.  With that read the
run ends: whoever has met the failure reads no further.
-/
theorem readMessages_of_cut_wire (payloads : List Bytes)
    (hfit : ∀ p ∈ payloads, p.length ≤ payloadLimit) (chunks : List Bytes)
    (hchunks : ∀ chunk ∈ chunks, chunk ≠ []) (hcut : chunks.flatten <+: wire payloads) :
    ∃ whole failure, whole <+: payloads ∧ wire whole <+: chunks.flatten
      ∧ (∀ p, whole ++ [p] <+: payloads → chunks.flatten.length < (wire (whole ++ [p])).length)
      ∧ (Reader.readMessages (whole.length + 1) {} ⟨chunks, .endOfStream⟩).1
          = whole.map .ok ++ [.error failure]
      ∧ failure.kind = if chunks.flatten = wire whole then .connectionClosed else .framing := by
  obtain ⟨whole, failure, hfront, hin, hlast, hread, hkind⟩ :=
    Grammar.messages_of_cut hfit hcut (borders chunks)
  obtain ⟨hanswers, -⟩ :=
    readMessages_follows (whole.length + 1) (Holds.start hchunks) (Grammar.Alike.refl _ _)
  exact ⟨whole, failure, hfront, hin, hlast, hanswers.trans hread, hkind⟩

/-- The first payload is a line end, and the stream breaks off in the middle of the second header,
inside the end of its line. -/
theorem readMessages_of_cut_wire_inside_header :
    let payloads : List Bytes := [[13, 10], [123, 125]]
    let chunks := [ascii "Content-Length: 2\r\n\r", ascii "\n\r", ascii "\nContent-Length: 2\r"]
    (∀ p ∈ payloads, p.length ≤ payloadLimit) ∧ (∀ chunk ∈ chunks, chunk ≠ [])
      ∧ chunks.flatten <+: wire payloads
      ∧ ∃ whole failure, whole <+: payloads ∧ wire whole <+: chunks.flatten
        ∧ (∀ p, whole ++ [p] <+: payloads → chunks.flatten.length < (wire (whole ++ [p])).length)
        ∧ (Reader.readMessages (whole.length + 1) {} ⟨chunks, .endOfStream⟩).1
            = whole.map .ok ++ [.error failure]
        ∧ failure.kind = if chunks.flatten = wire whole then .connectionClosed else .framing :=
  ⟨by decide, by decide, by decide,
    readMessages_of_cut_wire _ (by decide) _ (by decide) (by decide)⟩

end AnalyzerBridge.Frame

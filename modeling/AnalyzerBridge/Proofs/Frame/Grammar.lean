/-
What a stream of frames means, read as one byte string.

The reader works on a buffer that fills up chunk by chunk.  Here is the same format
without buffer and position: a function from the bytes that are left to what one
read hands over and the bytes that are left after it.  `Proofs/Frame/Refinement.lean`
shows that the reader computes it.

A read goes past the header lines that it could accept as lines, and past a payload
that it hands over.  A line that does not end, or that ends in a bare line feed, stays
where it is, and so does a payload that is cut off.

Where the chunks were cut matters in one place only.  A line is refused once more than
`lineLimit` bytes of it have arrived without its end, so a longer line is accepted or
refused depending on whether a border falls between.  The parser is therefore told the
borders, each as the number of bytes behind it, which does not change as bytes are used
up from the front.  With no borders it is the plain grammar.
-/
import AnalyzerBridge.Frame.Reader
import AnalyzerBridge.Proofs.Bytes

namespace AnalyzerBridge.Frame.Grammar

/-! ### Header fields -/

/-- The length that a header may give: decimal digits and nothing else, but for blanks around
them, and no more than a payload may have. -/
def contentLength (value : Bytes) : Option Nat :=
  let digits := Bytes.trim value
  if digits ≠ [] ∧ digits.all Bytes.isDigit = true
      ∧ Bytes.decimalValue digits ≤ payloadLimit then
    some (Bytes.decimalValue digits)
  else none

/-- What a header line says: a name that is not empty, a colon and a value. -/
def field (line : Bytes) : Field :=
  match Bytes.splitAt 58 line with
  | none => .malformed
  | some (name, value) =>
    if name = [] then .malformed
    else if Bytes.lowercase (Bytes.trim name) = ascii "content-length" then
      match contentLength value with
      | some n => .length n
      | none => .badLength
    else .other

/-! ### Header lines -/

/-- The borders at which a stream is cut, each as the number of bytes behind it. -/
def borders : List Bytes → List Nat
  | [] => [0]
  | chunk :: chunks => (chunk :: chunks).flatten.length :: borders chunks

/-- Some border cuts the first line of `bytes` late: more than `lineLimit` bytes of the line are
before the border and its line feed, which `rest` follows, is behind it. -/
def CutLate (borders : List Nat) (bytes rest : Bytes) : Prop :=
  ∃ behind ∈ borders, behind + lineLimit < bytes.length ∧ rest.length < behind

instance (borders : List Nat) (bytes rest : Bytes) : Decidable (CutLate borders bytes rest) :=
  inferInstanceAs (Decidable (∃ behind ∈ borders, _))

/-- The first line of what is left, without its end, and what follows it. -/
def line (borders : List Nat) (bytes : Bytes) : Except ReadFailure Bytes × Bytes :=
  match Bytes.splitAt 10 bytes with
  | none => (.error (if lineLimit < bytes.length then .lineTooLong else .closedInHeader), bytes)
  | some (text, rest) =>
    if CutLate borders bytes rest then (.error .lineTooLong, bytes)
    else if text.getLast? = some 13 then (.ok text.dropLast, rest)
    else (.error .lineNotTerminated, bytes)

theorem length_lt_of_line {borders : List Nat} {bytes text rest : Bytes}
    (h : line borders bytes = (.ok text, rest)) : rest.length < bytes.length := by
  unfold line at h
  split at h
  · simp at h
  · rename_i before after hsplit
    obtain ⟨rfl, -⟩ := Bytes.eq_append_of_splitAt hsplit
    split at h
    · simp at h
    · split at h
      · simp only [Prod.mk.injEq] at h
        rw [← h.2]
        simp only [List.length_append, List.length_cons]
        omega
      · simp at h

/-- A line that is refused stays where it is. -/
theorem eq_of_line_error {borders : List Nat} {bytes rest : Bytes} {reason : ReadFailure}
    (h : line borders bytes = (.error reason, rest)) : rest = bytes := by
  unfold line at h
  split at h
  · simp only [Prod.mk.injEq] at h
    exact h.2.symm
  · split at h
    · simp only [Prod.mk.injEq] at h
      exact h.2.symm
    · split at h
      · simp at h
      · simp only [Prod.mk.injEq] at h
        exact h.2.symm

theorem length_line_le {borders : List Nat} {bytes rest : Bytes}
    {answer : Except ReadFailure Bytes} (h : line borders bytes = (answer, rest)) :
    rest.length ≤ bytes.length := by
  cases answer with
  | ok text => exact Nat.le_of_lt (length_lt_of_line h)
  | error reason => exact Nat.le_of_eq (congrArg List.length (eq_of_line_error h))

/-- The reasons for which a line is refused.  That the stream ended cleanly is none of them. -/
theorem line_error {borders : List Nat} {bytes : Bytes} {reason : ReadFailure}
    (h : (line borders bytes).1 = .error reason) :
    reason = .lineTooLong ∨ reason = .closedInHeader ∨ reason = .lineNotTerminated := by
  unfold line at h
  split at h
  · split at h <;> simp_all
  · split at h
    · simp_all
    · split at h <;> simp_all

theorem line_of_short {borders : List Nat} {bytes : Bytes} (hfree : 10 ∉ bytes)
    (hshort : ¬ lineLimit < bytes.length) :
    line borders bytes = (.error .closedInHeader, bytes) := by
  rw [line, Bytes.splitAt_eq_none hfree]
  dsimp only
  rw [if_neg hshort]

theorem line_of_crlf {borders : List Nat} {text rest : Bytes} (hfree : 10 ∉ text)
    (hcut : ¬ CutLate borders (text ++ 13 :: 10 :: rest) rest) :
    line borders (text ++ 13 :: 10 :: rest) = (.ok text, rest) := by
  have hbytes : text ++ 13 :: 10 :: rest = (text ++ [13]) ++ 10 :: rest := by simp
  rw [hbytes] at hcut ⊢
  rw [line, Bytes.splitAt_append (by simp [hfree])]
  dsimp only
  rw [if_neg hcut, if_pos (by simp), List.dropLast_concat]

/-- No border cuts a line late that is within the limit. -/
theorem not_cutLate_of_short {borders : List Nat} {text rest : Bytes}
    (hshort : text.length < lineLimit) : ¬ CutLate borders (text ++ 13 :: 10 :: rest) rest := by
  rintro ⟨behind, -, hfar, hlt⟩
  simp only [List.length_append, List.length_cons] at hfar
  omega

/-- No border at all cuts no line. -/
theorem not_cutLate_nil (bytes rest : Bytes) : ¬ CutLate [] bytes rest := by
  simp [CutLate]

/-! ### Headers, messages and what successive reads hand over -/

/-- The header lines up to the empty one.  `length` is the content length found so far; a later
one takes its place. -/
def header (borders : List Nat) (length : Option Nat) (bytes : Bytes) :
    Except ReadFailure Nat × Bytes :=
  match _h : line borders bytes with
  | (.error reason, rest) => (.error reason, rest)
  | (.ok [], rest) =>
    match length with
    | some n => (.ok n, rest)
    | none => (.error .missingLength, rest)
  | (.ok (b :: text), rest) =>
    match field (b :: text) with
    | .length n => header borders (some n) rest
    | .other => header borders length rest
    | .badLength => (.error (.invalidLength (b :: text)), rest)
    | .malformed => (.error (.malformedHeader (b :: text)), rest)
termination_by bytes.length
decreasing_by all_goals exact length_lt_of_line _h

theorem header_of_error {borders : List Nat} {length : Option Nat} {bytes rest : Bytes}
    {reason : ReadFailure} (h : line borders bytes = (.error reason, rest)) :
    header borders length bytes = (.error reason, rest) := by
  rw [header]
  split <;> simp_all

theorem header_of_nil {borders : List Nat} {length : Option Nat} {bytes rest : Bytes}
    (h : line borders bytes = (.ok [], rest)) :
    header borders length bytes
      = match length with
        | some n => (.ok n, rest)
        | none => (.error .missingLength, rest) := by
  rw [header]
  split <;> simp_all

theorem header_of_cons {borders : List Nat} {length : Option Nat} {bytes text rest : Bytes}
    {b : UInt8} (h : line borders bytes = (.ok (b :: text), rest)) :
    header borders length bytes
      = match field (b :: text) with
        | .length n => header borders (some n) rest
        | .other => header borders length rest
        | .badLength => (.error (.invalidLength (b :: text)), rest)
        | .malformed => (.error (.malformedHeader (b :: text)), rest) := by
  rw [header]
  split <;> simp_all

theorem length_header_le (borders : List Nat) (length : Option Nat) (bytes : Bytes) :
    (header borders length bytes).2.length ≤ bytes.length := by
  fun_induction header borders length bytes with
  | case1 length bytes reason rest hline => exact length_line_le hline
  | case2 bytes rest hline n => exact length_line_le hline
  | case3 bytes rest hline => exact length_line_le hline
  | case4 length bytes b text rest hline n hfield ih => exact Nat.le_trans ih (length_line_le hline)
  | case5 length bytes b text rest hline hfield ih => exact Nat.le_trans ih (length_line_le hline)
  | case6 length bytes b text rest hline hfield => exact length_line_le hline
  | case7 length bytes b text rest hline hfield => exact length_line_le hline

/-- The payload of the given length. -/
def payload (length : Nat) (bytes : Bytes) : Except ReadFailure Bytes × Bytes :=
  if length ≤ bytes.length then (.ok (bytes.take length), bytes.drop length)
  else (.error (.closedInPayload bytes.length length), bytes)

theorem length_payload_le (length : Nat) (bytes : Bytes) :
    (payload length bytes).2.length ≤ bytes.length := by
  unfold payload
  split
  · rw [List.length_drop]
    exact Nat.sub_le _ _
  · exact Nat.le_refl _

/-- One frame.  Only between two frames may a stream end. -/
def message (borders : List Nat) (bytes : Bytes) : Except ReadFailure Bytes × Bytes :=
  if bytes = [] then (.error .closed, bytes)
  else match header borders none bytes with
    | (.ok length, rest) => payload length rest
    | (.error reason, rest) => (.error reason, rest)

theorem length_message_le (borders : List Nat) (bytes : Bytes) :
    (message borders bytes).2.length ≤ bytes.length := by
  have hheader := length_header_le borders none bytes
  unfold message
  split
  · exact Nat.le_refl _
  · split
    · rename_i length rest hsaid
      rw [hsaid] at hheader
      exact Nat.le_trans (length_payload_le length rest) hheader
    · rename_i reason rest hsaid
      rw [hsaid] at hheader
      exact hheader

/-- The borders that still matter after a read: a payload that is cut off is noticed at the end of
the stream only, and by then all chunks have arrived. -/
def bordersAfter (answer : Except ReadFailure Bytes) (borders : List Nat) : List Nat :=
  match answer with
  | .error (.closedInPayload _ _) => []
  | _ => borders

theorem bordersAfter_nil (answer : Except ReadFailure Bytes) : bordersAfter answer [] = [] := by
  unfold bordersAfter
  split <;> rfl

theorem mem_of_mem_bordersAfter {answer : Except ReadFailure Bytes} {borders : List Nat}
    {behind : Nat} (h : behind ∈ bordersAfter answer borders) : behind ∈ borders := by
  unfold bordersAfter at h
  split at h
  · exact absurd h List.not_mem_nil
  · exact h

/-- A header never ends in a payload. -/
theorem bordersAfter_header {here : List Nat} {length : Option Nat} {bytes rest : Bytes}
    {reason : ReadFailure} (h : header here length bytes = (.error reason, rest))
    (there : List Nat) : bordersAfter (.error reason) there = there := by
  fun_induction header here length bytes with
  | case1 length bytes refusal left hline =>
      obtain ⟨rfl, -⟩ : refusal = reason ∧ left = rest := by simpa using h
      rcases line_error (congrArg Prod.fst hline) with rfl | rfl | rfl <;> rfl
  | case2 bytes left hline n => simp at h
  | case3 bytes left hline =>
      obtain ⟨rfl, -⟩ : ReadFailure.missingLength = reason ∧ left = rest := by simpa using h
      rfl
  | case4 length bytes b text left hline n hfield ih => exact ih h
  | case5 length bytes b text left hline hfield ih => exact ih h
  | case6 length bytes b text left hline hfield =>
      obtain ⟨rfl, -⟩ : ReadFailure.invalidLength (b :: text) = reason ∧ left = rest := by
        simpa using h
      rfl
  | case7 length bytes b text left hline hfield =>
      obtain ⟨rfl, -⟩ : ReadFailure.malformedHeader (b :: text) = reason ∧ left = rest := by
        simpa using h
      rfl

/-- The answers of a number of successive reads, and the bytes that are left after them. -/
def messages : Nat → List Nat → Bytes → List (Except ReadFailure Bytes) × Bytes
  | 0, _, bytes => ([], bytes)
  | count + 1, borders, bytes =>
    let (answer, rest) := message borders bytes
    let (answers, last) := messages count (bordersAfter answer borders) rest
    (answer :: answers, last)

theorem messages_succ (count : Nat) (borders : List Nat) (bytes : Bytes) :
    messages (count + 1) borders bytes
      = ((message borders bytes).1 ::
            (messages count (bordersAfter (message borders bytes).1 borders)
              (message borders bytes).2).1,
          (messages count (bordersAfter (message borders bytes).1 borders)
            (message borders bytes).2).2) := rfl

/-! ### Borders that do not matter

A border with at most `lineLimit` bytes between it and the place of a read cuts no line
late there, nor at any later place.  So two lists of borders are as good as each other
for the bytes that are left as soon as they agree on the borders further away.
-/

/-- The two lists have the same borders as far as reading `bytes` goes. -/
def Alike (bytes : Bytes) (here there : List Nat) : Prop :=
  ∀ behind, 0 < behind → behind + lineLimit < bytes.length → (behind ∈ here ↔ behind ∈ there)

theorem Alike.refl (bytes : Bytes) (here : List Nat) : Alike bytes here here :=
  fun _ _ _ => Iff.rfl

theorem Alike.symm {bytes : Bytes} {here there : List Nat} (h : Alike bytes here there) :
    Alike bytes there here :=
  fun behind hpos hfar => (h behind hpos hfar).symm

theorem Alike.trans {bytes : Bytes} {here there yonder : List Nat} (h : Alike bytes here there)
    (h' : Alike bytes there yonder) : Alike bytes here yonder :=
  fun behind hpos hfar => (h behind hpos hfar).trans (h' behind hpos hfar)

theorem Alike.mono {bytes rest : Bytes} {here there : List Nat} (h : Alike bytes here there)
    (hle : rest.length ≤ bytes.length) : Alike rest here there :=
  fun behind hpos hfar => h behind hpos (by omega)

/-- The border in front of the chunks to come is dropped once the line has gone past it. -/
theorem Alike.cons {bytes : Bytes} {behind : Nat} {here : List Nat}
    (h : bytes.length ≤ behind + lineLimit) : Alike bytes (behind :: here) here := by
  intro other _ hfar
  have hne : other ≠ behind := by
    rintro rfl
    omega
  simp [hne]

theorem Alike.after {bytes : Bytes} {here there : List Nat} (h : Alike bytes here there)
    (answer : Except ReadFailure Bytes) :
    Alike bytes (bordersAfter answer here) (bordersAfter answer there) := by
  unfold bordersAfter
  split
  · exact Alike.refl _ _
  · exact h

theorem cutLate_congr {bytes rest : Bytes} {here there : List Nat} (h : Alike bytes here there) :
    CutLate here bytes rest ↔ CutLate there bytes rest := by
  constructor
  · rintro ⟨behind, hmem, hfar, hlt⟩
    exact ⟨behind, (h behind (by omega) hfar).mp hmem, hfar, hlt⟩
  · rintro ⟨behind, hmem, hfar, hlt⟩
    exact ⟨behind, (h behind (by omega) hfar).mpr hmem, hfar, hlt⟩

theorem line_congr {bytes : Bytes} {here there : List Nat} (h : Alike bytes here there) :
    line here bytes = line there bytes := by
  unfold line
  split
  · rfl
  · simp only [cutLate_congr h]

theorem header_congr {bytes : Bytes} {here there : List Nat} (length : Option Nat)
    (h : Alike bytes here there) : header here length bytes = header there length bytes := by
  fun_induction header here length bytes with
  | case1 length bytes reason rest hline =>
      rw [line_congr h] at hline
      rw [header_of_error hline]
  | case2 bytes rest hline n =>
      rw [line_congr h] at hline
      rw [header_of_nil hline]
  | case3 bytes rest hline =>
      rw [line_congr h] at hline
      rw [header_of_nil hline]
  | case4 length bytes b text rest hline n hfield ih =>
      rw [ih (h.mono (Nat.le_of_lt (length_lt_of_line hline)))]
      rw [line_congr h] at hline
      rw [header_of_cons hline, hfield]
  | case5 length bytes b text rest hline hfield ih =>
      rw [ih (h.mono (Nat.le_of_lt (length_lt_of_line hline)))]
      rw [line_congr h] at hline
      rw [header_of_cons hline, hfield]
  | case6 length bytes b text rest hline hfield =>
      rw [line_congr h] at hline
      rw [header_of_cons hline, hfield]
  | case7 length bytes b text rest hline hfield =>
      rw [line_congr h] at hline
      rw [header_of_cons hline, hfield]

theorem message_congr {bytes : Bytes} {here there : List Nat} (h : Alike bytes here there) :
    message here bytes = message there bytes := by
  rw [message, message, header_congr none h]

/-! ### What borders can change

All a border can do is to have a line refused that does end.  Then every further read
comes back to that line and refuses it again; until then the answers and the bytes that
are left are those of the grammar without borders.
-/

/-- What is left begins with a line that has an end, and some border cuts it late. -/
def Stuck (borders : List Nat) (bytes : Bytes) : Prop :=
  ∃ text rest, bytes = text ++ 10 :: rest ∧ 10 ∉ text ∧ CutLate borders bytes rest

/-- Only a line beyond the limit can be cut late. -/
theorem lt_length_of_cutLate {borders : List Nat} {text rest : Bytes}
    (h : CutLate borders (text ++ 10 :: rest) rest) : lineLimit < text.length := by
  obtain ⟨behind, -, hfar, hlt⟩ := h
  rw [List.length_append, List.length_cons] at hfar
  omega

theorem Stuck.line_eq {borders : List Nat} {bytes : Bytes} (h : Stuck borders bytes) :
    line borders bytes = (.error .lineTooLong, bytes) := by
  obtain ⟨text, rest, rfl, hfree, hcut⟩ := h
  rw [line, Bytes.splitAt_append hfree]
  exact if_pos hcut

theorem Stuck.message_eq {borders : List Nat} {bytes : Bytes} (h : Stuck borders bytes) :
    message borders bytes = (.error .lineTooLong, bytes) := by
  have hne : bytes ≠ [] := by
    rintro rfl
    obtain ⟨text, rest, hbytes, -⟩ := h
    simp at hbytes
  rw [message, if_neg hne, header_of_error h.line_eq]

/-- A stuck reader gives the same answer for ever. -/
theorem Stuck.messages_eq {borders : List Nat} {bytes : Bytes} (h : Stuck borders bytes)
    (count : Nat) :
    messages count borders bytes = (List.replicate count (.error .lineTooLong), bytes) := by
  induction count with
  | zero => rfl
  | succ count ih =>
      rw [messages_succ, h.message_eq]
      show (_ :: (messages count borders bytes).1, (messages count borders bytes).2) = _
      rw [ih]
      rfl

theorem line_cases (borders : List Nat) (bytes : Bytes) :
    Stuck borders bytes ∨ line borders bytes = line [] bytes := by
  by_cases hmem : 10 ∈ bytes
  · obtain ⟨text, rest, hbytes, hfree⟩ := Bytes.eq_append_of_mem hmem
    by_cases hcut : CutLate borders bytes rest
    · exact .inl ⟨text, rest, hbytes, hfree, hcut⟩
    · right
      rw [line, line, hbytes, Bytes.splitAt_append hfree, ← hbytes]
      dsimp only
      rw [if_neg hcut, if_neg (not_cutLate_nil bytes rest)]
  · right
    rw [line, line, Bytes.splitAt_eq_none hmem]

theorem header_cases (borders : List Nat) (length : Option Nat) (bytes : Bytes) :
    (∃ rest, header borders length bytes = (.error .lineTooLong, rest) ∧ Stuck borders rest)
      ∨ header borders length bytes = header [] length bytes := by
  rcases line_cases borders bytes with hstuck | hplain
  · exact .inl ⟨bytes, header_of_error hstuck.line_eq, hstuck⟩
  · fun_induction header borders length bytes with
    | case1 length bytes reason rest hline =>
        rw [hplain] at hline
        exact .inr (header_of_error hline).symm
    | case2 bytes rest hline n =>
        rw [hplain] at hline
        rw [header_of_nil hline]
        exact .inr rfl
    | case3 bytes rest hline =>
        rw [hplain] at hline
        rw [header_of_nil hline]
        exact .inr rfl
    | case4 length bytes b text rest hline n hfield ih =>
        rw [hplain] at hline
        rw [header_of_cons hline, hfield]
        rcases line_cases borders rest with hstuck | hplain'
        · exact .inl ⟨rest, header_of_error hstuck.line_eq, hstuck⟩
        · exact ih hplain'
    | case5 length bytes b text rest hline hfield ih =>
        rw [hplain] at hline
        rw [header_of_cons hline, hfield]
        rcases line_cases borders rest with hstuck | hplain'
        · exact .inl ⟨rest, header_of_error hstuck.line_eq, hstuck⟩
        · exact ih hplain'
    | case6 length bytes b text rest hline hfield =>
        rw [hplain] at hline
        rw [header_of_cons hline, hfield]
        exact .inr rfl
    | case7 length bytes b text rest hline hfield =>
        rw [hplain] at hline
        rw [header_of_cons hline, hfield]
        exact .inr rfl

theorem message_cases (borders : List Nat) (bytes : Bytes) :
    (∃ rest, message borders bytes = (.error .lineTooLong, rest) ∧ Stuck borders rest)
      ∨ message borders bytes = message [] bytes := by
  unfold message
  by_cases hnil : bytes = []
  · exact .inr (by rw [if_pos hnil, if_pos hnil])
  · rw [if_neg hnil, if_neg hnil]
    rcases header_cases borders none bytes with ⟨rest, hlong, hstuck⟩ | hplain
    · exact .inl ⟨rest, by rw [hlong], hstuck⟩
    · exact .inr (by rw [hplain])

/-- **Borders change nothing until a read gets stuck.** -/
theorem messages_cases (count : Nat) (borders : List Nat) (bytes : Bytes) :
    messages count borders bytes = messages count [] bytes
      ∨ Stuck borders (messages count borders bytes).2
        ∧ (messages count borders bytes).1.getLast? = some (.error .lineTooLong) := by
  induction count generalizing borders bytes with
  | zero => exact .inl rfl
  | succ count ih =>
      rw [messages_succ, messages_succ count []]
      rcases message_cases borders bytes with ⟨rest, hsaid, hstuck⟩ | hplain
      · right
        rw [hsaid]
        show Stuck borders (messages count borders rest).2
          ∧ (_ :: (messages count borders rest).1).getLast? = some (.error .lineTooLong)
        rw [hstuck.messages_eq]
        refine ⟨hstuck, ?_⟩
        rw [← List.replicate_succ, List.getLast?_replicate]
        rfl
      · rw [hplain, bordersAfter_nil]
        rcases ih (bordersAfter (message [] bytes).1 borders) (message [] bytes).2 with
          hsame | ⟨hstuck, hlast⟩
        · exact .inl (by rw [hsame])
        · right
          refine ⟨?_, ?_⟩
          · obtain ⟨text, rest, hbytes, hfree, behind, hmem, hcut⟩ := hstuck
            exact ⟨text, rest, hbytes, hfree, behind, mem_of_mem_bordersAfter hmem, hcut⟩
          · rw [List.getLast?_cons, hlast]
            rfl

end AnalyzerBridge.Frame.Grammar

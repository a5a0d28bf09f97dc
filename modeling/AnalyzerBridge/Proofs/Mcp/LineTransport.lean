/-
What is sent arrives.

Between the two ends of a transport a text may be changed in ways that do not matter: lines of
blanks come in between, carriage returns come in front of line feeds, and the last line feed gets
lost.  A message is what a line says apart from the blanks at its ends, and lines that say nothing
are passed over, so none of these changes what the text says.  This is an induction on the way in
which the text was changed, and holds of every text.  What was sent says its messages, one a line.
-/
import AnalyzerBridge.Mcp.LineTransport
import AnalyzerBridge.Proofs.Bytes
import AnalyzerBridge.Proofs.Bytes.Lines

namespace AnalyzerBridge.Mcp

open Bytes (Tight isBlank trim)

/-! ### One read after another -/

/-- The answers of successive reads, so many of them.  A read that finds no message has come to
the end of the input, and nothing is left for the next one. -/
def reads : Nat → List Bytes → List (Option Bytes)
  | 0, _ => []
  | count + 1, lines =>
    match receive lines with
    | some (message, rest) => some message :: reads count rest
    | none => none :: reads count []

/-- A line of blanks is passed over. -/
theorem receive_cons_of_blank {line : Bytes} (h : trim line = []) (lines : List Bytes) :
    receive (line :: lines) = receive lines := by
  rw [receive, if_pos (by simp [h])]

theorem receive_cons_of_said {line : Bytes} (h : trim line ≠ []) (lines : List Bytes) :
    receive (line :: lines) = some (trim line, lines) := by
  rw [receive, if_neg (by simp [h])]

theorem receiveAll_of_none {lines : List Bytes} (h : receive lines = none) :
    receiveAll lines = [] := by
  rw [receiveAll]
  split <;> simp_all

theorem receiveAll_of_some {lines rest : List Bytes} {message : Bytes}
    (h : receive lines = some (message, rest)) :
    receiveAll lines = message :: receiveAll rest := by
  rw [receiveAll]
  split <;> simp_all

theorem receiveAll_nil : receiveAll [] = [] := receiveAll_of_none rfl

theorem receiveAll_cons_of_blank {line : Bytes} (h : trim line = []) (lines : List Bytes) :
    receiveAll (line :: lines) = receiveAll lines := by
  have hread := receive_cons_of_blank h lines
  cases hnext : receive lines with
  | none => rw [receiveAll_of_none hnext, receiveAll_of_none (hread.trans hnext)]
  | some found => rw [receiveAll_of_some hnext, receiveAll_of_some (hread.trans hnext)]

theorem receiveAll_cons_of_said {line : Bytes} (h : trim line ≠ []) (lines : List Bytes) :
    receiveAll (line :: lines) = trim line :: receiveAll lines :=
  receiveAll_of_some (receive_cons_of_said h lines)

/-- **The messages are what the lines say, without the lines that say nothing.** -/
theorem receiveAll_eq (lines : List Bytes) :
    receiveAll lines = (lines.map trim).filter (· ≠ []) := by
  induction lines with
  | nil => exact receiveAll_nil
  | cons line lines ih =>
      by_cases h : trim line = []
      · rw [receiveAll_cons_of_blank h, ih]
        simp [h]
      · rw [receiveAll_cons_of_said h, ih]
        simp [h]

theorem reads_nil (count : Nat) : reads count [] = List.replicate count none := by
  induction count with
  | zero => rfl
  | succ count ih =>
      rw [reads, List.replicate_succ, ← ih]
      rfl

/-- **Successive reads give the messages in order, and then the end for ever.** -/
theorem reads_eq (count : Nat) (lines : List Bytes) :
    reads count lines
      = ((receiveAll lines).map some ++ List.replicate count none).take count := by
  induction lines generalizing count with
  | nil => simp [reads_nil, receiveAll_nil]
  | cons line lines ih =>
      cases count with
      | zero => rfl
      | succ count =>
          by_cases h : trim line = []
          · have hskip : reads (count + 1) (line :: lines) = reads (count + 1) lines := by
              rw [reads, reads, receive_cons_of_blank h]
            rw [hskip, ih, receiveAll_cons_of_blank h]
          · rw [reads, receive_cons_of_said h, receiveAll_cons_of_said h]
            dsimp only
            rw [ih, List.map_cons, List.cons_append, List.take_succ_cons]
            -- One end less is enough behind the messages that are left.
            rw [List.take_append, List.take_append, List.take_replicate, List.take_replicate]
            congr 3
            omega

/-! ### What may happen on the way -/

/-- The second text is the first one with lines of blanks put in anywhere between its lines, and
with carriage returns put behind some of its lines. -/
inductive Spaced : Bytes → Bytes → Prop
  /-- There are no more lines. -/
  | done : Spaced [] []
  /-- A line of blanks is put in. -/
  | gap {sent arrived gap : Bytes} (oneLine : 10 ∉ gap) (blank : ∀ b ∈ gap, isBlank b = true)
      (rest : Spaced sent arrived) : Spaced sent (gap ++ 10 :: arrived)
  /-- A line passes as it is. -/
  | line {sent arrived line : Bytes} (oneLine : 10 ∉ line) (rest : Spaced sent arrived) :
      Spaced (line ++ 10 :: sent) (line ++ 10 :: arrived)
  /-- A line gets a carriage return. -/
  | withReturn {sent arrived line : Bytes} (oneLine : 10 ∉ line) (rest : Spaced sent arrived) :
      Spaced (line ++ 10 :: sent) (line ++ 13 :: 10 :: arrived)

/-- What may arrive of a text of lines that is sent: its last line feed may be missing, too. -/
def Arrives (sent arrived : Bytes) : Prop := Spaced sent arrived ∨ Spaced sent (arrived ++ [10])

theorem messages_eq (input : Bytes) :
    messages input = ((Bytes.lines input).map trim).filter (· ≠ []) :=
  receiveAll_eq _

/-- The first line comes first. -/
theorem messages_append {line : Bytes} (h : 10 ∉ line) (rest : Bytes) :
    messages (line ++ 10 :: rest) = [trim line].filter (· ≠ []) ++ messages rest := by
  rw [messages_eq, messages_eq, Bytes.lines_append h, List.map_cons, ← List.singleton_append,
    List.filter_append]

/-- **Lines of blanks and carriage returns change nothing of what a text says.** -/
theorem Spaced.messages_eq {sent arrived : Bytes} (h : Spaced sent arrived) :
    messages arrived = messages sent := by
  induction h with
  | done => rfl
  | gap oneLine blank _ ih =>
      rw [messages_append oneLine, Bytes.trim_eq_nil blank, ih]
      rfl
  | line oneLine _ ih => rw [messages_append oneLine, messages_append oneLine, ih]
  | @withReturn sent arrived line oneLine _ ih =>
      have hreturn : 10 ∉ line ++ [13] := by simp [oneLine]
      have htrim : trim (line ++ [13]) = trim line :=
        Bytes.trim_append_of_blank (Bytes.forall_mem_of_all rfl) line
      have hline : line ++ 13 :: 10 :: arrived = (line ++ [13]) ++ 10 :: arrived := by simp
      rw [hline, messages_append hreturn, messages_append oneLine, htrim, ih]

/-- Nor does a line feed at the end. -/
theorem messages_append_feed (text : Bytes) : messages (text ++ [10]) = messages text := by
  obtain ⟨more, hmore, hlines⟩ := Bytes.lines_append_feed text
  rw [messages_eq, messages_eq, hlines, List.map_append, List.filter_append]
  rcases hmore with rfl | rfl
  · exact List.append_nil _
  · exact List.append_nil _

theorem Arrives.messages_eq {sent arrived : Bytes} (h : Arrives sent arrived) :
    messages arrived = messages sent := by
  rcases h with hwhole | hopen
  · exact hwhole.messages_eq
  · rw [← messages_append_feed, hopen.messages_eq]

/-! ### What is sent -/

/-- A text that stands for a message: it is one line, it says something, and there are no blanks
around what it says. -/
structure IsMessage (text : Bytes) : Prop where
  oneLine : 10 ∉ text
  notBlank : ∃ b ∈ text, isBlank b = false
  tight : Tight text

theorem IsMessage.ne_nil {text : Bytes} (h : IsMessage text) : text ≠ [] := by
  obtain ⟨b, hb, -⟩ := h.notBlank
  exact List.ne_nil_of_mem hb

theorem messages_sendAll {texts : List Bytes} (h : ∀ text ∈ texts, IsMessage text) :
    messages (sendAll texts) = texts := by
  induction texts with
  | nil => exact receiveAll_nil
  | cons text texts ih =>
      obtain ⟨htext, htexts⟩ := List.forall_mem_cons.mp h
      have hsent : sendAll (text :: texts) = text ++ 10 :: sendAll texts := by
        simp [sendAll, send]
      rw [hsent, messages_append htext.oneLine, htext.tight.trim_eq, ih htexts]
      simp [htext.ne_nil]

/--
**Messages arrive as they were sent.**

Messages are sent one after another, and what arrives may have any lines of blanks put in, carriage
returns in front of line feeds, and no line feed at its end.  Successive reads find exactly these
messages, in order, and after them the end of the input, as often as they look.
-/
theorem sent_messages_arrive {texts : List Bytes} (h : ∀ text ∈ texts, IsMessage text)
    {arrived : Bytes} (harrived : Arrives (sendAll texts) arrived) :
    messages arrived = texts
      ∧ ∀ count, reads count (Bytes.lines arrived)
          = (texts.map some ++ List.replicate count none).take count := by
  have hall : messages arrived = texts := harrived.messages_eq.trans (messages_sendAll h)
  refine ⟨hall, fun count => ?_⟩
  rw [reads_eq]
  exact congrArg (fun said => (said.map some ++ List.replicate count none).take count) hall

/-- Lines of blanks come before, between and behind two messages, one line has a carriage return,
and the last line feed is missing. -/
theorem sent_messages_arrive_spaced :
    let texts := [ascii "\x7b\"id\": 1\x7d", ascii "[ ]"]
    let arrived := ascii "\n\x7b\"id\": 1\x7d\r\n \t\r\n[ ]\n "
    (∀ text ∈ texts, IsMessage text) ∧ Arrives (sendAll texts) arrived
      ∧ messages arrived = texts
      ∧ reads 4 (Bytes.lines arrived) = texts.map some ++ [none, none] := by
  intro texts arrived
  have htexts : ∀ text ∈ texts, IsMessage text := by
    intro text htext
    simp only [texts, List.mem_cons, List.not_mem_nil, or_false] at htext
    rcases htext with rfl | rfl
    · refine ⟨by decide, ⟨125, by decide, by decide⟩, ?_, ?_⟩ <;> (rintro b ⟨⟩; rfl)
    · refine ⟨by decide, ⟨91, by decide, by decide⟩, ?_, ?_⟩ <;> (rintro b ⟨⟩; rfl)
  have harrived : Arrives (sendAll texts) arrived := by
    refine .inr ?_
    refine @Spaced.gap _ _ [] (by simp) (by simp) ?_
    refine @Spaced.withReturn _ _ (ascii "\x7b\"id\": 1\x7d") (by decide) ?_
    refine @Spaced.gap _ _ [32, 9, 13] (by decide) (Bytes.forall_mem_of_all rfl) ?_
    refine @Spaced.line _ _ (ascii "[ ]") (by decide) ?_
    exact @Spaced.gap _ _ [32] (by decide) (Bytes.forall_mem_of_all rfl) .done
  obtain ⟨hall, hreads⟩ := sent_messages_arrive htexts harrived
  exact ⟨htexts, harrived, hall, hreads 4⟩

end AnalyzerBridge.Mcp

/-
What a writer of frames leaves on the wire.

A frame goes out in as many calls as the descriptor needs, and any of them can fail after any
number of bytes.  The receiver is nevertheless never led astray: the wire holds whole frames
and behind them at most a part of one more, after which there is silence.

Two facts carry this.  A call that fails with a frame has sent a proper part of it, and the writer
takes no frame after it; a writer that was given up takes none either.  So as long as frames
are taken the wire holds nothing but whole ones, and there is only one way out of that.  A message
that has no serialisation stands outside of all this: its call fails before the writer is looked
at, so it neither ends anything nor learns that everything has ended.

Calls that come from several threads hold a lock from the first byte to the last, so one call
is one event.  A payload stands for the message that it is the serialisation of.
-/
import AnalyzerBridge.Frame.Writer
import AnalyzerBridge.Proofs.Frame.RoundTrip

namespace AnalyzerBridge.Frame

namespace Writer

/-! ### One call -/

/-- The failure of a call that finds the writer given up or broken. -/
def streamClosed : Failure := { kind := .connectionClosed, message := ascii "output stream closed" }

/-- The failure of a call whose descriptor failed. -/
def writeFailed (reason : Bytes) : Failure :=
  { kind := .connectionClosed, message := ascii "write failed: " ++ reason }

/-- The failure of a call whose message has no serialisation. -/
def unencodable (reason : Bytes) : Failure :=
  { kind := .invalidParams, message := ascii "unencodable message: " ++ reason }

/-- The failure of a call once no frame is taken. -/
def refusal : Outgoing → Failure
  | .ok _ => streamClosed
  | .error reason => unencodable reason

/-- The bytes are the beginning of the frame of a payload, but not all of it. -/
def IsPartOf (part payload : Bytes) : Prop := part <+: encode payload ∧ part ≠ encode payload

/-- Bytes that are pushed without a failure are all on the wire. -/
theorem push_of_done {answers : List WriteAnswer} {bytes sent : Bytes}
    (h : push answers bytes = (sent, none)) : sent = bytes := by
  fun_induction push answers bytes generalizing sent with
  | case1 =>
      rw [Prod.mk.injEq] at h
      exact h.1.symm
  | case2 rest =>
      rw [Prod.mk.injEq] at h
      exact h.1.symm
  | case3 extra answers rest _ written failure hpush ih =>
      rw [Prod.mk.injEq] at h
      obtain ⟨rfl, rfl⟩ := h
      rw [ih hpush, List.take_append_drop]
  | case4 answers rest _ ih => exact ih h
  | case5 => simp at h

/-- Where pushing fails, some of the bytes are missing at the end. -/
theorem push_of_failed {answers : List WriteAnswer} {bytes sent reason : Bytes}
    (h : push answers bytes = (sent, some reason)) : sent <+: bytes ∧ sent ≠ bytes := by
  fun_induction push answers bytes generalizing sent with
  | case1 => simp at h
  | case2 rest => simp at h
  | case3 extra answers rest _ written failure hpush ih =>
      rw [Prod.mk.injEq] at h
      obtain ⟨rfl, rfl⟩ := h
      obtain ⟨hpart, hne⟩ := ih hpush
      refine ⟨?_, fun hall => hne ?_⟩
      · calc rest.take (extra + 1) ++ written
            <+: rest.take (extra + 1) ++ rest.drop (extra + 1) :=
              (List.prefix_append_right_inj _).mpr hpart
          _ = rest := List.take_append_drop _ _
      · exact List.append_cancel_left (hall.trans (List.take_append_drop (extra + 1) rest).symm)
  | case4 answers rest _ ih => exact ih h
  | case5 reason answers rest hne =>
      rw [Prod.mk.injEq] at h
      rw [← h.1]
      exact ⟨List.nil_prefix, fun hc => hne hc.symm⟩

/-- The ways in which writing a message can end. -/
inductive Ended (w : Writer) : Outgoing → Written → Prop
  /-- The whole frame is on the wire. -/
  | delivered (taken : w.accepts = true) (payload : Bytes) :
      Ended w (.ok payload) { failure := none, wire := encode payload, writer := w }
  /-- The descriptor failed inside the frame. -/
  | torn (taken : w.accepts = true) (payload part reason : Bytes) (inside : IsPartOf part payload) :
      Ended w (.ok payload)
        { failure := some (writeFailed reason), wire := part, writer := { w with broken := true } }
  /-- Nothing was taken: there is no frame, or the writer takes none. -/
  | refused (message : Outgoing) (why : w.accepts = true → ∃ reason, message = .error reason) :
      Ended w message { failure := some (refusal message), wire := [], writer := w }

theorem writeMessage_ended (w : Writer) (answers : List WriteAnswer) (payload : Bytes) :
    Ended w (.ok payload) (w.writeMessage answers payload) := by
  rw [writeMessage]
  by_cases htaken : w.accepts = true
  · rw [if_pos htaken]
    rcases hpush : push answers (encode payload) with ⟨sent, _ | reason⟩
    · rw [push_of_done hpush]
      exact .delivered htaken payload
    · exact .torn htaken payload sent reason (push_of_failed hpush)
  · rw [if_neg htaken]
    exact .refused (.ok payload) fun htakes => absurd htakes htaken

theorem offer_ended (w : Writer) (answers : List WriteAnswer) (message : Outgoing) :
    Ended w message (w.offer answers message) := by
  cases message with
  | ok payload => exact writeMessage_ended w answers payload
  | error reason => exact .refused (.error reason) fun _ => ⟨reason, rfl⟩

theorem accepts_of_broken (w : Writer) : Writer.accepts { w with broken := true } = false :=
  Bool.and_false _

/-- No call opens or closes the descriptor. -/
theorem Ended.isOpen {w : Writer} {message : Outgoing} {done : Written}
    (hdone : Ended w message done) : done.writer.isOpen = w.isOpen := by
  cases hdone <;> rfl

theorem Ended.kind {w : Writer} {message : Outgoing} {done : Written}
    (hdone : Ended w message done) {failure : Failure} (h : done.failure = some failure) :
    failure.kind = .connectionClosed ∨ failure.kind = .invalidParams := by
  cases hdone with
  | delivered => simp at h
  | torn =>
      rw [← Option.some.inj h]
      exact .inl rfl
  | refused =>
      rw [← Option.some.inj h]
      cases message with
      | ok payload => exact .inl rfl
      | error reason => exact .inr rfl

end Writer

/-! ### A run of calls -/

open Writer

/-- Something that is done with a writer. -/
inductive WriterEvent where
  /-- A message is written, and the descriptor behaves in some way. -/
  | write (message : Outgoing) (answers : List WriteAnswer)
  /-- The descriptor is given up. -/
  | close

/-- A call to write a message that has come back. -/
structure WriteCall where
  message : Outgoing
  /-- Why it failed, if it did. -/
  failure : Option Failure

/-- The payload that the call has delivered, if it succeeded. -/
def WriteCall.delivered? : WriteCall → Option Bytes
  | ⟨.ok payload, none⟩ => some payload
  | _ => none

/-- A writer between two events. -/
structure WriterRun where
  writer : Writer := {}
  /-- The bytes that reached the wire. -/
  wire : Bytes := []
  /-- The calls that came back, in order. -/
  calls : List WriteCall := []

namespace WriterRun

/-- A call comes back. -/
def record (s : WriterRun) (message : Outgoing) (done : Written) : WriterRun where
  writer := done.writer
  wire := s.wire ++ done.wire
  calls := s.calls ++ [⟨message, done.failure⟩]

def step (s : WriterRun) : WriterEvent → WriterRun
  | .write message answers => s.record message (s.writer.offer answers message)
  | .close => { s with writer := s.writer.close }

/-- What a run of events leaves. -/
def run (s : WriterRun) (events : List WriterEvent) : WriterRun := events.foldl step s

/-- The payloads of the calls that succeeded, in order. -/
def delivered (s : WriterRun) : List Bytes := s.calls.filterMap (·.delivered?)

theorem run_cons (s : WriterRun) (e : WriterEvent) (events : List WriterEvent) :
    s.run (e :: events) = (s.step e).run events := rfl

theorem run_append (s : WriterRun) (before after : List WriterEvent) :
    s.run (before ++ after) = (s.run before).run after := List.foldl_append

/-- What every event keeps is kept by a run. -/
theorem run_invariant {P : WriterRun → Prop} (hstep : ∀ s e, P s → P (s.step e))
    (events : List WriterEvent) (s : WriterRun) (h : P s) : P (s.run events) := by
  induction events generalizing s with
  | nil => exact h
  | cons e rest ih => exact ih (s.step e) (hstep s e h)

/-! ### After the last frame -/

/-- The bytes are what one call left of its frame when it failed, and all calls after that one
were refused. -/
def LeftBy (calls : List WriteCall) (part : Bytes) : Prop :=
  ∃ before payload reason after,
    calls = before ++ ⟨.ok payload, some (writeFailed reason)⟩ :: after
      ∧ IsPartOf part payload ∧ ∀ later ∈ after, later.failure = some (refusal later.message)

theorem LeftBy.last (calls : List WriteCall) {payload part : Bytes} (reason : Bytes)
    (h : IsPartOf part payload) :
    LeftBy (calls ++ [⟨.ok payload, some (writeFailed reason)⟩]) part :=
  ⟨calls, payload, reason, [], rfl, h, by simp⟩

theorem LeftBy.concat {calls : List WriteCall} {part : Bytes} (h : LeftBy calls part)
    (message : Outgoing) : LeftBy (calls ++ [⟨message, some (refusal message)⟩]) part := by
  obtain ⟨before, payload, reason, after, rfl, hpart, hafter⟩ := h
  refine ⟨before, payload, reason, after ++ [⟨message, some (refusal message)⟩], by simp, hpart, ?_⟩
  intro later hlater
  rcases List.mem_append.mp hlater with hin | hlast
  · exact hafter later hin
  · rw [List.mem_singleton.mp hlast]

/-- The wire holds whole frames and behind them the part of one more, if a call left one; then
no frame is taken any more. -/
def Sound (s : WriterRun) : Prop :=
  ∃ part, s.wire = Frame.wire s.delivered ++ part
    ∧ (part = [] ∨ s.writer.accepts = false ∧ LeftBy s.calls part)

/-- A call adds what it has delivered. -/
theorem delivered_record (s : WriterRun) (message : Outgoing) (done : Written) :
    (s.record message done).delivered
      = s.delivered ++ (WriteCall.delivered? ⟨message, done.failure⟩).toList := by
  rw [record, delivered, List.filterMap_append, List.filterMap_cons]
  cases WriteCall.delivered? ⟨message, done.failure⟩ with
  | none => rfl
  | some payload => rfl

theorem delivered?_of_failed (message : Outgoing) (failure : Failure) :
    WriteCall.delivered? ⟨message, some failure⟩ = none := by
  cases message <;> rfl

/-- A call that failed has delivered nothing. -/
theorem delivered_record_of_failed {s : WriterRun} {message : Outgoing} {done : Written}
    {failure : Failure} (h : done.failure = some failure) :
    (s.record message done).delivered = s.delivered := by
  rw [delivered_record, h, delivered?_of_failed]
  exact List.append_nil _

/-- A call keeps the wire sound, however it ends. -/
theorem Sound.record {s : WriterRun} (h : Sound s) {message : Outgoing} {done : Written}
    (hdone : Ended s.writer message done) : Sound (s.record message done) := by
  obtain ⟨part, hwire, hpart⟩ := h
  -- A writer that takes a frame has left no part of one on the wire.
  have hwhole : s.writer.accepts = true → s.wire = Frame.wire s.delivered := by
    intro htaken
    rcases hpart with rfl | ⟨hclosed, -⟩
    · rw [hwire, List.append_nil]
    · rw [htaken] at hclosed
      exact absurd hclosed (by decide)
  cases hdone with
  | delivered taken payload =>
      refine ⟨[], ?_, .inl rfl⟩
      rw [delivered_record, List.append_nil]
      calc s.wire ++ encode payload
          = Frame.wire s.delivered ++ Frame.wire [payload] := by
            rw [hwhole taken, wire_cons, wire_nil, List.append_nil]
        _ = Frame.wire (s.delivered ++ [payload]) := List.flatMap_append.symm
  | torn taken payload left reason inside =>
      -- This call is the one way out of a wire with nothing but whole frames.
      refine ⟨left, ?_, .inr ⟨accepts_of_broken s.writer, LeftBy.last s.calls reason inside⟩⟩
      rw [delivered_record_of_failed rfl, ← hwhole taken]
      rfl
  | refused _ why =>
      refine ⟨part, ?_, hpart.imp_right fun ⟨hclosed, hleft⟩ => ⟨hclosed, hleft.concat message⟩⟩
      rw [delivered_record_of_failed rfl, ← hwire]
      exact List.append_nil _

theorem Sound.step {s : WriterRun} (e : WriterEvent) (h : Sound s) : Sound (s.step e) := by
  cases e with
  | write message answers => exact h.record (offer_ended s.writer answers message)
  | close =>
      obtain ⟨part, hwire, hpart⟩ := h
      exact ⟨part, hwire, hpart.imp_right fun ⟨_, hleft⟩ => ⟨rfl, hleft⟩⟩

/-- The messages without a serialisation have failed for that reason, wherever they came. -/
def TellsUnencodable (s : WriterRun) : Prop :=
  ∀ reason failure, ⟨.error reason, failure⟩ ∈ s.calls → failure = some (unencodable reason)

theorem TellsUnencodable.step {s : WriterRun} (e : WriterEvent) (h : TellsUnencodable s) :
    TellsUnencodable (s.step e) := by
  cases e with
  | write message answers =>
      intro reason failure hmem
      rcases List.mem_append.mp hmem with hin | hlast
      · exact h reason failure hin
      · obtain ⟨rfl, rfl⟩ := WriteCall.mk.inj (List.mem_singleton.mp hlast)
        rfl
  | close => exact h

end WriterRun

end AnalyzerBridge.Frame

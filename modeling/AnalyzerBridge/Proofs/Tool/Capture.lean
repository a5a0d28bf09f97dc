/-
Two streams are read exactly, however the reading goes.

The loop that reads has no say in what happens: which of the descriptors can be read, how many
bytes an attempt gets, when it is interrupted and when a stream ends are all up to the system.
`Exact` is what every round keeps: the text of a stream and what was not read of it are the stream,
and a descriptor is closed once, when its stream is given up.

A round works on descriptors, and streams lose theirs while it goes on.  `round_ready` says that
it does for each stream what it should all the same: the stream is attempted once, where it is.

Each attempt that gets something takes from what is `left`, the end of a stream being one more
thing to get, so that the rounds end.
-/
import Mathlib.Data.List.Induction
import AnalyzerBridge.Tool.Command

namespace AnalyzerBridge.Tool

open Host (Descriptor World)

theorem Tap.text_cons (t : Tap) (piece : Bytes) :
    ({ t with pieces := piece :: t.pieces } : Tap).text = t.text ++ piece := by
  simp [Tap.text]

namespace Capture

variable {c : Capture} {side other : Side} {d : Descriptor}

/-! ### Parts of a capture -/

theorem tap_setTap (c : Capture) (t : Tap) (side other : Side) :
    (c.setTap t side).tap other = if other = side then t else c.tap other := by
  cases side <;> cases other <;> rfl

@[simp] theorem wires_setTap (c : Capture) (t : Tap) (side : Side) :
    (c.setTap t side).wires = c.wires := by
  cases side <;> rfl

@[simp] theorem closed_setTap (c : Capture) (t : Tap) (side : Side) :
    (c.setTap t side).closed = c.closed := by
  cases side <;> rfl

@[simp] theorem tap_setWire (c : Capture) (d : Descriptor) (wire : Wire) (side : Side) :
    (c.setWire d wire).tap side = c.tap side := by
  cases side <;> rfl

@[simp] theorem closed_setWire (c : Capture) (d : Descriptor) (wire : Wire) :
    (c.setWire d wire).closed = c.closed := rfl

theorem wires_setWire (c : Capture) (d : Descriptor) (wire : Wire) (d' : Descriptor) :
    (c.setWire d wire).wires d' = if d' = d then wire else c.wires d' := rfl

theorem close_of_none (h : (c.tap side).descriptor = none) : c.close side = c := by
  simp [close, h]

@[simp] theorem wires_close (c : Capture) (side : Side) : (c.close side).wires = c.wires := by
  unfold close
  split <;> simp

theorem tap_close (h : (c.tap side).descriptor = some d) (other : Side) :
    (c.close side).tap other
      = if other = side then { c.tap side with descriptor := none } else c.tap other := by
  rw [close, h]
  exact c.tap_setTap _ side other

@[simp] theorem descriptor_close (c : Capture) (side : Side) :
    ((c.close side).tap side).descriptor = none := by
  cases h : (c.tap side).descriptor with
  | none => rw [close_of_none h, h]
  | some d => rw [tap_close h, if_pos rfl]

theorem closed_close (h : (c.tap side).descriptor = some d) :
    (c.close side).closed = d :: c.closed := by
  rw [close, h]

theorem finished_iff : c.finished = true ↔ ∀ side, (c.tap side).descriptor = none := by
  constructor
  · intro h side
    obtain ⟨houtput, herrors⟩ := Bool.and_eq_true_iff.mp h
    cases side with
    | output => exact Option.isNone_iff_eq_none.mp houtput
    | errors => exact Option.isNone_iff_eq_none.mp herrors
  · intro h
    have houtput : c.output.descriptor = none := h .output
    have herrors : c.errors.descriptor = none := h .errors
    simp [finished, houtput, herrors]

/-! ### What every round keeps -/

/-- The streams are read from their descriptors, and nothing of them is lost. -/
structure Exact (ends : Side → Descriptor) (streams : Side → Bytes) (c : Capture) : Prop where
  /-- What was read of a stream, and what was not, are the stream. -/
  whole : ∀ side, (c.tap side).text ++ (c.wires (ends side)).rest = streams side
  /-- A stream is read from its descriptor. -/
  own : ∀ side d, (c.tap side).descriptor = some d → d = ends side
  /-- No descriptor is closed twice. -/
  once : c.closed.Nodup
  /-- Those that are closed are those of the streams that are not read any longer. -/
  closed : ∀ d, d ∈ c.closed ↔ ∃ side, d = ends side ∧ (c.tap side).descriptor = none
  /-- If the end of a stream was come upon, all of it was read. -/
  ended : ∀ side, (c.wires (ends side)).told = true → (c.wires (ends side)).rest = []

namespace Exact

variable {ends : Side → Descriptor} {streams : Side → Bytes}

theorem close (h : Exact ends streams c) (hends : Function.Injective ends) (side : Side) :
    Exact ends streams (c.close side) := by
  cases hside : (c.tap side).descriptor with
  | none => rwa [close_of_none hside]
  | some d =>
      obtain rfl := h.own side d hside
      have htap := tap_close hside
      refine
        { whole := ?_
          own := ?_
          once := ?_
          closed := ?_
          ended := by simpa using h.ended }
      · intro s
        rw [wires_close, htap, ← h.whole s]
        split
        next hs => rw [hs]; rfl
        next => rfl
      · intro s d hd
        rw [htap] at hd
        split at hd
        next => simp at hd
        next => exact h.own s d hd
      · have hopen : ends side ∉ c.closed := by
          rintro hmem
          obtain ⟨s, hs, hnone⟩ := (h.closed _).mp hmem
          rw [← hends hs, hside] at hnone
          exact absurd hnone (by simp)
        rw [closed_close hside]
        exact List.nodup_cons.mpr ⟨hopen, h.once⟩
      · intro d
        rw [closed_close hside, List.mem_cons, h.closed]
        constructor
        · rintro (rfl | ⟨s, rfl, hnone⟩)
          · exact ⟨side, rfl, by simp [htap]⟩
          · refine ⟨s, rfl, ?_⟩
            rw [htap]
            split
            next => rfl
            next => exact hnone
        · rintro ⟨s, rfl, hnone⟩
          by_cases hs : s = side
          · exact .inl (by rw [hs])
          · rw [htap, if_neg hs] at hnone
            exact .inr ⟨s, rfl, hnone⟩

theorem take (h : Exact ends streams c) (hends : Function.Injective ends) {side : Side}
    (hopen : (c.tap side).descriptor = some d) (hmore : (c.wires d).rest ≠ []) (count : Nat) :
    Exact ends streams (c.take side d count) := by
  obtain rfl := h.own side d hopen
  have htap : ∀ s, ((c.take side (ends side) count).tap s).descriptor = (c.tap s).descriptor := by
    intro s
    simp only [Capture.take, tap_setWire, tap_setTap]
    split
    next hs => rw [hs]
    next => rfl
  have hclosed : (c.take side (ends side) count).closed = c.closed := by simp [Capture.take]
  refine
    { whole := ?_
      own := fun s d hd => h.own s d (by rwa [htap] at hd)
      once := by simpa [hclosed] using h.once
      closed := fun d => by simpa only [hclosed, htap] using h.closed d
      ended := ?_ }
  · intro s
    rw [← h.whole s]
    simp only [Capture.take, tap_setWire, tap_setTap, wires_setWire, hends.eq_iff]
    split
    next hs => rw [hs, Tap.text_cons, List.append_assoc, List.take_append_drop]
    next => simp
  · intro s htold
    simp only [Capture.take, wires_setWire, wires_setTap, hends.eq_iff] at htold ⊢
    split
    next hs =>
      rw [if_pos hs] at htold
      exact absurd (h.ended side htold) hmore
    next hs => exact h.ended s (by rwa [if_neg hs] at htold)

theorem tell (h : Exact ends streams c) (hends : Function.Injective ends) {side : Side}
    (hend : (c.wires (ends side)).rest = []) :
    Exact ends streams
      (c.setWire (ends side) { c.wires (ends side) with told := true }) := by
  have hrest : ∀ s, ((c.setWire (ends side) { c.wires (ends side) with told := true }).wires
      (ends s)).rest = (c.wires (ends s)).rest := by
    intro s
    simp only [wires_setWire, hends.eq_iff]
    split
    next hs => rw [hs]
    next => rfl
  refine
    { whole := fun s => by simpa [hrest] using h.whole s
      own := by simpa using h.own
      once := h.once
      closed := by simpa using h.closed
      ended := ?_ }
  intro s htold
  rw [hrest]
  simp only [wires_setWire, hends.eq_iff] at htold
  split at htold
  next hs => rw [hs, hend]
  next => exact h.ended s htold

end Exact

/-! ### Attempts -/

/-- The ways in which an attempt to read a stream goes. -/
inductive Attempted (c : Capture) (side : Side) : Attempt → Capture → Prop
  /-- The stream is not read any longer. -/
  | closed {a : Attempt} (shut : (c.tap side).descriptor = none) : Attempted c side a c
  | interrupted : Attempted c side .interrupted c
  /-- The end is come upon. -/
  | ended {d : Descriptor} {extra : Nat} (opened : (c.tap side).descriptor = some d)
      (nothing : (c.wires d).rest = []) :
      Attempted c side (.got extra) ((c.setWire d { c.wires d with told := true }).close side)
  | took {d : Descriptor} {extra : Nat} (opened : (c.tap side).descriptor = some d)
      (more : (c.wires d).rest ≠ []) :
      Attempted c side (.got extra) (c.take side d (min (extra + 1) Tap.limit))
  | failed : Attempted c side .failed (c.close side)

theorem attempted (c : Capture) (side : Side) (a : Attempt) :
    Attempted c side a (c.attempt side a) := by
  unfold attempt
  cases hside : (c.tap side).descriptor with
  | none => exact .closed hside
  | some d =>
      cases a with
      | interrupted => exact .interrupted
      | failed => exact .failed
      | got extra =>
          show Attempted c side (.got extra) (if (c.wires d).rest.isEmpty then _ else _)
          split
          next hend => exact .ended hside (List.isEmpty_iff.mp hend)
          next hmore => exact .took hside (by simpa using hmore)

namespace Attempted

variable {a : Attempt} {c' : Capture} {ends : Side → Descriptor} {streams : Side → Bytes}

theorem exact (h : Attempted c side a c') (hexact : Exact ends streams c)
    (hends : Function.Injective ends) : Exact ends streams c' := by
  cases h with
  | closed | interrupted => exact hexact
  | ended hopen hend =>
      obtain rfl := hexact.own side _ hopen
      exact (hexact.tell hends hend).close hends side
  | took hopen hmore => exact hexact.take hends hopen hmore _
  | failed => exact hexact.close hends side

/-- The other stream is left alone. -/
theorem tap_of_ne (h : Attempted c side a c') (hother : other ≠ side) :
    c'.tap other = c.tap other := by
  cases h with
  | closed | interrupted => rfl
  | ended hopen =>
      rw [tap_close (by rwa [tap_setWire]), if_neg hother, tap_setWire]
  | took => rw [take, tap_setWire, tap_setTap, if_neg hother]
  | failed =>
      cases hside : (c.tap side).descriptor with
      | none => rw [close_of_none hside]
      | some d => rw [tap_close hside, if_neg hother]

/-- The wire of the other stream is left alone, too. -/
theorem wires_of_ne (h : Attempted c side a c') (hexact : Exact ends streams c)
    (hends : Function.Injective ends) (hother : other ≠ side) :
    c'.wires (ends other) = c.wires (ends other) := by
  cases h with
  | closed | interrupted => rfl
  | ended hopen =>
      obtain rfl := hexact.own side _ hopen
      rw [wires_close, wires_setWire, if_neg (hends.ne hother)]
  | took hopen =>
      obtain rfl := hexact.own side _ hopen
      rw [take, wires_setWire, if_neg (hends.ne hother), wires_setTap]
  | failed => rw [wires_close]

end Attempted

/-! ### Rounds -/

/-- Makes the attempt that a round has for a stream, if the stream is still read and there is one
for its descriptor. -/
def serve (attempts : Descriptor → Option Attempt) (c : Capture) (side : Side) : Capture :=
  match (c.tap side).descriptor.bind attempts with
  | none => c
  | some a => c.attempt side a

theorem tap_serve_of_ne (attempts : Descriptor → Option Attempt) (h : other ≠ side) :
    (serve attempts c side).tap other = c.tap other := by
  unfold serve
  split
  next => rfl
  next a _ => exact (c.attempted side a).tap_of_ne h

variable {ends : Side → Descriptor} {streams : Side → Bytes}

namespace Exact

theorem serve (h : Exact ends streams c) (hends : Function.Injective ends)
    (attempts : Descriptor → Option Attempt) (side : Side) :
    Exact ends streams (c.serve attempts side) := by
  unfold Capture.serve
  split
  next => exact h
  next a _ => exact (c.attempted side a).exact h hends

/-- A descriptor that a stream still has is taken to belong to that stream. -/
theorem sideOf_eq (h : Exact ends streams c) (hends : Function.Injective ends)
    (hopen : (c.tap side).descriptor = some d) : c.sideOf d = side := by
  obtain rfl := h.own side d hopen
  cases side with
  | output => exact if_pos hopen
  | errors =>
      refine if_neg fun houtput => ?_
      exact absurd (hends (h.own .output _ houtput)) (by decide)

/-- Visiting the descriptor that a stream still has serves the stream. -/
theorem foldl_visit (h : Exact ends streams c) (hends : Function.Injective ends)
    (attempts : Descriptor → Option Attempt) (side : Side) :
    (c.tap side).descriptor.toList.foldl (visit attempts) c = c.serve attempts side := by
  unfold Capture.serve
  cases hside : (c.tap side).descriptor with
  | none => rfl
  | some d =>
      show visit attempts c d = _
      unfold visit
      rw [h.sideOf_eq hends hside]
      rfl

/-- **A round serves both streams, each where it is.** -/
theorem round_ready (h : Exact ends streams c) (hends : Function.Injective ends)
    (attempts : Descriptor → Option Attempt) :
    c.round (.ready attempts) = (c.serve attempts .output).serve attempts .errors := by
  have houtput : c.output.descriptor.toList.foldl (visit attempts) c = c.serve attempts .output :=
    h.foldl_visit hends attempts .output
  -- the descriptor of standard error is still the one that the round was told of
  have hsame : c.errors.descriptor = ((c.serve attempts .output).tap .errors).descriptor := by
    rw [tap_serve_of_ne attempts (by decide)]
    rfl
  show (c.output.descriptor.toList ++ c.errors.descriptor.toList).foldl (visit attempts) c = _
  rw [List.foldl_append, houtput, hsame]
  exact (h.serve hends attempts .output).foldl_visit hends attempts .errors

theorem round (h : Exact ends streams c) (hends : Function.Injective ends) (r : Round) :
    Exact ends streams (c.round r) := by
  cases r with
  | interrupted => exact h
  | failed => exact (h.close hends .output).close hends .errors
  | ready attempts =>
      rw [h.round_ready hends]
      exact (h.serve hends attempts .output).serve hends attempts .errors

end Exact

/-! ### Runs -/

/-- There is nothing to do any longer once both streams have ended. -/
theorem round_of_finished (h : c.finished = true) (r : Round) : c.round r = c := by
  have hnone := finished_iff.mp h
  cases r with
  | interrupted => rfl
  | failed =>
      show (c.close .output).close .errors = c
      rw [close_of_none (hnone .output), close_of_none (hnone .errors)]
  | ready attempts =>
      have houtput : c.output.descriptor = none := hnone .output
      have herrors : c.errors.descriptor = none := hnone .errors
      simp [Capture.round, watched, houtput, herrors]

theorem run_eq_foldl (c : Capture) (rounds : List Round) : c.run rounds = rounds.foldl round c := by
  induction rounds generalizing c with
  | nil => rfl
  | cons r rest ih =>
      unfold run
      split
      next hfinished =>
        rw [List.foldl_cons, round_of_finished hfinished, ← ih]
        cases rest with
        | nil => rfl
        | cons => simp [run, hfinished]
      next => exact ih _

theorem run_concat (c : Capture) (rounds : List Round) (r : Round) :
    c.run (rounds ++ [r]) = (c.run rounds).round r := by
  rw [run_eq_foldl, run_eq_foldl, List.foldl_append]
  rfl

theorem Exact.run (h : Exact ends streams c) (hends : Function.Injective ends)
    (rounds : List Round) : Exact ends streams (c.run rounds) := by
  induction rounds using List.reverseRecOn with
  | nil => exact h
  | append_singleton rounds r ih =>
      rw [run_concat]
      exact ih.round hends r

/-! ### When nothing fails -/

/-- The streams that are not read any longer are those whose ends were come upon. -/
def Honest (ends : Side → Descriptor) (c : Capture) : Prop :=
  ∀ side, (c.tap side).descriptor = none ↔ (c.wires (ends side)).told = true

theorem Attempted.honest {a : Attempt} {c' : Capture} (h : Attempted c side a c')
    (hexact : Exact ends streams c) (hends : Function.Injective ends) (hworks : a ≠ .failed)
    (hhonest : Honest ends c) : Honest ends c' := by
  intro s
  by_cases hs : s = side
  · obtain rfl := hs
    cases h with
    | closed | interrupted => exact hhonest s
    | failed => exact absurd rfl hworks
    | ended hopen =>
        obtain rfl := hexact.own s _ hopen
        rw [tap_close (by rwa [tap_setWire]), wires_close, wires_setWire]
        simp
    | took hopen =>
        obtain rfl := hexact.own s _ hopen
        rw [take, tap_setWire, tap_setTap, wires_setWire]
        simpa using hhonest s
  · rw [h.tap_of_ne hs, h.wires_of_ne hexact hends hs]
    exact hhonest s

end Capture

/-- Neither the waiting nor an attempt fails. -/
def Round.Works : Round → Prop
  | .interrupted => True
  | .ready attempts => ∀ d, attempts d ≠ some .failed
  | .failed => False

namespace Capture

variable {c : Capture} {ends : Side → Descriptor} {streams : Side → Bytes}

theorem Honest.serve (h : Honest ends c) (hexact : Exact ends streams c)
    (hends : Function.Injective ends) {attempts : Descriptor → Option Attempt}
    (hworks : ∀ d, attempts d ≠ some .failed) (side : Side) :
    Honest ends (c.serve attempts side) := by
  unfold Capture.serve
  split
  next => exact h
  next a ha =>
    obtain ⟨d, -, ha⟩ := Option.bind_eq_some_iff.mp ha
    refine (c.attempted side a).honest hexact hends ?_ h
    rintro rfl
    exact hworks d ha

theorem Honest.round (h : Honest ends c) (hexact : Exact ends streams c)
    (hends : Function.Injective ends) {r : Round} (hworks : r.Works) :
    Honest ends (c.round r) := by
  cases r with
  | interrupted => exact h
  | failed => exact hworks.elim
  | ready attempts =>
      rw [hexact.round_ready hends]
      have houtput := h.serve hexact hends hworks .output
      exact houtput.serve (hexact.serve hends attempts .output) hends hworks .errors

theorem Honest.run (h : Honest ends c) (hexact : Exact ends streams c)
    (hends : Function.Injective ends) {rounds : List Round} (hworks : ∀ r ∈ rounds, r.Works) :
    Honest ends (c.run rounds) := by
  induction rounds using List.reverseRecOn with
  | nil => exact h
  | append_singleton rounds r ih =>
      rw [run_concat]
      have hbefore := ih fun r' hr' => hworks r' (by simp [hr'])
      exact hbefore.round (hexact.run hends rounds) hends (hworks r (by simp))

/-! ### What is left -/

/-- How many things there are to be got from a stream: its bytes, and its end. -/
def pending (ends : Side → Descriptor) (c : Capture) (side : Side) : Nat :=
  if (c.tap side).descriptor.isSome then (c.wires (ends side)).rest.length + 1 else 0

/-- How many things there are to be got from both streams. -/
def left (ends : Side → Descriptor) (c : Capture) : Nat :=
  pending ends c .output + pending ends c .errors

variable {side : Side} {d : Descriptor}

theorem pending_of_none (h : (c.tap side).descriptor = none) : pending ends c side = 0 := by
  simp [pending, h]

theorem pending_of_some (h : (c.tap side).descriptor = some d) :
    pending ends c side = (c.wires (ends side)).rest.length + 1 := by
  simp [pending, h]

/-- Taking bytes from a stream leaves the others that it has. -/
theorem pending_take (hopen : (c.tap side).descriptor = some (ends side)) (count : Nat) :
    pending ends (c.take side (ends side) count) side
      = (c.wires (ends side)).rest.length - count + 1 := by
  simp [pending, take, tap_setTap, wires_setWire, hopen]

/-- An attempt leaves no more than there was. -/
theorem Attempted.pending_le {a : Attempt} {c' : Capture} (h : Attempted c side a c')
    (hexact : Exact ends streams c) (hends : Function.Injective ends) (s : Side) :
    pending ends c' s ≤ pending ends c s := by
  by_cases hs : s = side
  · obtain rfl := hs
    cases h with
    | closed | interrupted => exact Nat.le_refl _
    | ended | failed =>
        rw [pending_of_none (descriptor_close _ s)]
        exact Nat.zero_le _
    | took hopen =>
        obtain rfl := hexact.own s _ hopen
        rw [pending_take hopen, pending_of_some hopen]
        omega
  · have hsame : pending ends c' s = pending ends c s := by
      rw [pending, h.tap_of_ne hs, h.wires_of_ne hexact hends hs, pending]
    exact Nat.le_of_eq hsame

/-- An attempt that gets something leaves less. -/
theorem Attempted.pending_lt {extra : Nat} {c' : Capture} (h : Attempted c side (.got extra) c')
    (hexact : Exact ends streams c) (hopen : (c.tap side).descriptor = some d) :
    pending ends c' side < pending ends c side := by
  rw [pending_of_some hopen]
  cases h with
  | closed hshut => simp [hopen] at hshut
  | ended =>
      rw [pending_of_none (descriptor_close _ side)]
      exact Nat.succ_pos _
  | took hopen hmore =>
      obtain rfl := hexact.own side _ hopen
      have hlength : 0 < (c.wires (ends side)).rest.length := List.length_pos_iff.mpr hmore
      have hlimit : 0 < Tap.limit := by decide
      rw [pending_take hopen]
      omega

theorem pending_serve_le (hexact : Exact ends streams c) (hends : Function.Injective ends)
    (attempts : Descriptor → Option Attempt) (side s : Side) :
    pending ends (c.serve attempts side) s ≤ pending ends c s := by
  unfold Capture.serve
  split
  next => exact Nat.le_refl _
  next a _ => exact (c.attempted side a).pending_le hexact hends s

theorem left_le_of_pending_le {c' : Capture}
    (h : ∀ s, pending ends c' s ≤ pending ends c s) : left ends c' ≤ left ends c :=
  Nat.add_le_add (h .output) (h .errors)

theorem left_lt_of_pending_lt {c' : Capture} (side : Side)
    (h : ∀ s, pending ends c' s ≤ pending ends c s)
    (hless : pending ends c' side < pending ends c side) : left ends c' < left ends c := by
  have houtput := h .output
  have herrors := h .errors
  unfold left
  cases side <;> omega

/-- Serving a stream that yields something leaves less. -/
theorem left_serve_lt (hexact : Exact ends streams c) (hends : Function.Injective ends)
    {attempts : Descriptor → Option Attempt} (hopen : (c.tap side).descriptor = some d)
    {extra : Nat} (hgot : attempts d = some (.got extra)) :
    left ends (c.serve attempts side) < left ends c := by
  refine left_lt_of_pending_lt side (pending_serve_le hexact hends attempts side) ?_
  have hattempt : c.serve attempts side = c.attempt side (.got extra) := by
    simp [Capture.serve, hopen, hgot]
  rw [hattempt]
  exact (c.attempted side _).pending_lt hexact hopen

theorem left_serve_le (hexact : Exact ends streams c) (hends : Function.Injective ends)
    (attempts : Descriptor → Option Attempt) (side : Side) :
    left ends (c.serve attempts side) ≤ left ends c :=
  left_le_of_pending_le (pending_serve_le hexact hends attempts side)

theorem left_close_le (hexact : Exact ends streams c) (hends : Function.Injective ends)
    (side : Side) : left ends (c.close side) ≤ left ends c :=
  left_le_of_pending_le (Attempted.failed.pending_le hexact hends)

/-- A round leaves no more than there was. -/
theorem left_round_le (hexact : Exact ends streams c) (hends : Function.Injective ends)
    (r : Round) : left ends (c.round r) ≤ left ends c := by
  cases r with
  | interrupted => exact Nat.le_refl _
  | failed =>
      exact Nat.le_trans (left_close_le (hexact.close hends .output) hends .errors)
        (left_close_le hexact hends .output)
  | ready attempts =>
      rw [hexact.round_ready hends]
      exact Nat.le_trans
        (left_serve_le (hexact.serve hends attempts .output) hends attempts .errors)
        (left_serve_le hexact hends attempts .output)

end Capture

/-- One of the streams that are still read yields something: bytes, or its end. -/
def Round.Yields (c : Capture) : Round → Prop
  | .ready attempts => ∃ side d extra, (c.tap side).descriptor = some d
      ∧ attempts d = some (.got extra)
  | _ => False

namespace Capture

variable {c : Capture} {ends : Side → Descriptor} {streams : Side → Bytes}

/-- A round in which a stream yields something leaves less. -/
theorem left_round_lt (hexact : Exact ends streams c) (hends : Function.Injective ends) {r : Round}
    (hyields : r.Yields c) : left ends (c.round r) < left ends c := by
  cases r with
  | interrupted | failed => exact hyields.elim
  | ready attempts =>
      obtain ⟨side, d, extra, hopen, hgot⟩ := hyields
      rw [hexact.round_ready hends]
      have houtput := hexact.serve hends attempts .output
      cases side with
      | output =>
          exact Nat.lt_of_le_of_lt (left_serve_le houtput hends attempts .errors)
            (left_serve_lt hexact hends hopen hgot)
      | errors =>
          have hstill : ((c.serve attempts .output).tap .errors).descriptor = some d := by
            rw [tap_serve_of_ne attempts (by decide), hopen]
          exact Nat.lt_of_lt_of_le (left_serve_lt houtput hends hstill hgot)
            (left_serve_le hexact hends attempts .output)

/-! ### The end of the rounds -/

/-- If everything that is waited on can be read something is yielded, up to the end. -/
theorem yields_of_unfinished (h : ¬c.finished = true) (extra : Nat) :
    (Round.ready fun _ => some (.got extra)).Yields c := by
  rw [finished_iff, not_forall] at h
  obtain ⟨side, hside⟩ := h
  obtain ⟨d, hd⟩ := Option.ne_none_iff_exists'.mp hside
  exact ⟨side, d, extra, hd, rfl⟩

theorem finished_of_left (h : left ends c = 0) : c.finished = true := by
  refine finished_iff.mpr fun side => ?_
  obtain ⟨houtput, herrors⟩ := Nat.add_eq_zero_iff.mp h
  have hnone : pending ends c side = 0 := by cases side <;> assumption
  cases hside : (c.tap side).descriptor with
  | none => rfl
  | some d => simp [pending_of_some hside] at hnone

/-- Rounds that all yield something, as long as there is something to be read, come to an end as
soon as they are as many as there are things to be got. -/
theorem finished_run (hexact : Exact ends streams c) (hends : Function.Injective ends)
    {rounds : List Round}
    (hyield : ∀ r ∈ rounds, ∀ c : Capture, ¬c.finished = true → r.Yields c)
    (hlength : left ends c ≤ rounds.length) : (c.run rounds).finished = true := by
  induction rounds generalizing c with
  | nil => exact finished_of_left (Nat.le_zero.mp hlength)
  | cons r rest ih =>
      unfold run
      split
      next hfinished => exact hfinished
      next hunfinished =>
        have hless := left_round_lt hexact hends (hyield r (by simp) c hunfinished)
        refine ih (hexact.round hends r) (fun r' hr' => hyield r' (by simp [hr'])) ?_
        rw [List.length_cons] at hlength
        omega

/-- What the first rounds of a schedule leave. -/
def after (c : Capture) (schedule : Nat → Round) (n : Nat) : Capture :=
  c.run ((List.range n).map schedule)

theorem after_succ (c : Capture) (schedule : Nat → Round) (n : Nat) :
    c.after schedule (n + 1) = (c.after schedule n).round (schedule n) := by
  rw [after, List.range_succ, List.map_append]
  exact run_concat c _ _

/-- As long as there is something to be read, there will be a round in which something is read. -/
def Fair (c : Capture) (schedule : Nat → Round) : Prop :=
  ∀ n, ¬(c.after schedule n).finished = true →
    ∃ m, n ≤ m ∧ (schedule m).Yields (c.after schedule m)

theorem left_after_le (hexact : Exact ends streams c) (hends : Function.Injective ends)
    (schedule : Nat → Round) (n more : Nat) :
    left ends (c.after schedule (n + more)) ≤ left ends (c.after schedule n) := by
  induction more with
  | zero => exact Nat.le_refl _
  | succ more ih =>
      rw [← Nat.add_assoc, after_succ]
      exact Nat.le_trans (left_round_le (hexact.run hends _) hends _) ih

/-- A fair schedule comes to an end. -/
theorem exists_finished (hexact : Exact ends streams c) (hends : Function.Injective ends)
    {schedule : Nat → Round} (hfair : c.Fair schedule) :
    ∃ n, (c.after schedule n).finished = true := by
  suffices h : ∀ n, ∃ m, (c.after schedule m).finished = true from h 0
  intro n
  -- from any round on, there is either nothing to be read or a later round that leaves less
  induction hleft : left ends (c.after schedule n) using Nat.strongRecOn generalizing n with
  | _ _ ih =>
      by_cases hfinished : (c.after schedule n).finished = true
      · exact ⟨n, hfinished⟩
      · obtain ⟨m, hm, hyields⟩ := hfair n hfinished
        obtain ⟨more, rfl⟩ := Nat.exists_eq_add_of_le hm
        have hless := left_round_lt (hexact.run hends _) hends hyields
        refine ih _ ?_ (n + more + 1) rfl
        rw [after_succ, ← hleft]
        exact Nat.lt_of_lt_of_le hless (left_after_le hexact hends schedule n more)

/-! ### Two descriptors -/

/-- The descriptor of a stream. -/
def endOf (output errors : Descriptor) : Side → Descriptor
  | .output => output
  | .errors => errors

/-- A stream. -/
def streamOf (all faults : Bytes) : Side → Bytes
  | .output => all
  | .errors => faults

variable {output errors : Descriptor}

theorem endOf_injective (hne : output ≠ errors) : Function.Injective (endOf output errors) := by
  intro s s' hs
  cases s <;> cases s' <;> first | rfl | exact absurd hs hne | exact absurd hs.symm hne

theorem start_wires (hne : output ≠ errors) (all faults : Bytes) (side : Side) :
    (start output errors all faults).wires (endOf output errors side)
      = { rest := streamOf all faults side } := by
  cases side with
  | output => simp [start, endOf, streamOf]
  | errors => simp [start, endOf, streamOf, hne.symm]

theorem start_tap (output errors : Descriptor) (all faults : Bytes) (side : Side) :
    (start output errors all faults).tap side
      = { descriptor := some (endOf output errors side) } := by
  cases side <;> rfl

theorem exact_start (hne : output ≠ errors) (all faults : Bytes) :
    Exact (endOf output errors) (streamOf all faults) (start output errors all faults) where
  whole side := by rw [start_tap, start_wires hne]; rfl
  own side d hd := by rw [start_tap] at hd; exact (Option.some.inj hd).symm
  once := List.nodup_nil
  closed d := by
    have hclosed : (start output errors all faults).closed = [] := rfl
    simp [hclosed, start_tap]
  ended side htold := by simp [start_wires hne] at htold

theorem honest_start (hne : output ≠ errors) (all faults : Bytes) :
    Honest (endOf output errors) (start output errors all faults) := by
  intro side
  simp [start_tap, start_wires hne]

/-- What reading has come to while nothing failed. -/
structure ReadsOut (output errors : Descriptor) (all faults : Bytes) (c : Capture) : Prop where
  /-- Reading is over exactly if the ends of both streams were come upon. -/
  complete : c.finished = true ↔ ∀ side, (c.wires (endOf output errors side)).told = true
  /-- Then the texts are the streams, -/
  texts : c.finished = true → c.output.text = all ∧ c.errors.text = faults
  /-- and both descriptors were closed, each of them once. -/
  closed : c.finished = true → c.closed.Perm [output, errors]

theorem Exact.readsOut {all faults : Bytes}
    (h : Exact (endOf output errors) (streamOf all faults) c) (hne : output ≠ errors)
    (hhonest : Honest (endOf output errors) c) : ReadsOut output errors all faults c where
  complete := by
    rw [finished_iff]
    exact forall_congr' hhonest
  texts := by
    intro hfinished
    have htext : ∀ side, (c.tap side).text = streamOf all faults side := by
      intro side
      have htold := (hhonest side).mp (finished_iff.mp hfinished side)
      rw [← h.whole side, h.ended side htold, List.append_nil]
    exact ⟨htext .output, htext .errors⟩
  closed := by
    intro hfinished
    have hnone := finished_iff.mp hfinished
    refine (List.perm_ext_iff_of_nodup h.once (by simpa using hne)).mpr fun d => ?_
    rw [h.closed]
    simp only [hnone, and_true, List.mem_cons, List.not_mem_nil, or_false]
    constructor
    · rintro ⟨side, rfl⟩
      cases side with
      | output => exact .inl rfl
      | errors => exact .inr rfl
    · rintro (rfl | rfl)
      · exact ⟨.output, rfl⟩
      · exact ⟨.errors, rfl⟩

theorem readsOut_run (hne : output ≠ errors) (all faults : Bytes) {rounds : List Round}
    (hworks : ∀ r ∈ rounds, r.Works) :
    ReadsOut output errors all faults ((start output errors all faults).run rounds) := by
  have hends := endOf_injective hne
  have hstart := exact_start hne all faults
  have hhonest := (honest_start hne all faults).run hstart hends hworks
  exact (hstart.run hends rounds).readsOut hne hhonest

/--
**Two streams are read exactly, whatever can be read when, however much an attempt gets, whenever
one is interrupted, and whenever the streams end.**  At any time the texts are what was read of the
streams, in order.  If nothing fails, reading is over when the ends of both streams were come upon,
and not before, and then the texts are the streams, and each descriptor was closed once.  It does
come to an end, unless there is a stream to be read that never again yields anything.
-/
theorem run_reads_exactly (hne : output ≠ errors) (all faults : Bytes) :
    (∀ rounds, Exact (endOf output errors) (streamOf all faults)
        ((start output errors all faults).run rounds))
      ∧ (∀ rounds, (∀ r ∈ rounds, r.Works) →
        ReadsOut output errors all faults ((start output errors all faults).run rounds))
      ∧ ∀ schedule, (start output errors all faults).Fair schedule →
        ∃ n, ((start output errors all faults).after schedule n).finished = true := by
  have hends := endOf_injective hne
  have hstart := exact_start hne all faults
  exact ⟨fun rounds => hstart.run hends rounds,
    fun rounds hworks => readsOut_run hne all faults hworks,
    fun schedule hfair => exists_finished hstart hends hfair⟩

/-- The output comes in two pieces and the errors end in between; the last rounds are interrupted
and find the end. -/
def interleaved : List Round :=
  [.ready fun d => if d = 3 then some (.got 0) else some .interrupted,
    .ready fun _ => some (.got 7), .interrupted, .ready fun _ => some (.got 0)]

/-- So it is read, and so would it be one byte at a time. -/
theorem run_reads_exactly_interleaved :
    ReadsOut 3 5 [0x61, 0x62] [0x63] ((start 3 5 [0x61, 0x62] [0x63]).run interleaved)
      ∧ ((start 3 5 [0x61, 0x62] [0x63]).run interleaved).finished = true
      ∧ ∃ n, ((start 3 5 [0x61, 0x62] [0x63]).after (fun _ => .ready fun _ => some (.got 0))
          n).finished = true := by
  have h := run_reads_exactly (by decide : (3 : Descriptor) ≠ 5) [0x61, 0x62] [0x63]
  refine ⟨h.2.1 interleaved ?_, by decide,
    h.2.2 _ fun n hunfinished => ⟨n, Nat.le_refl n, yields_of_unfinished hunfinished 0⟩⟩
  intro r hr
  simp only [interleaved, List.mem_cons, List.not_mem_nil, or_false] at hr
  rcases hr with rfl | rfl | rfl | rfl
  · intro d
    dsimp only
    split <;> simp
  · simp [Round.Works]
  · trivial
  · simp [Round.Works]

/-! ### Eager rounds -/

/-- They are enough. -/
theorem finished_run_eager (hne : output ≠ errors) (all faults : Bytes) :
    ((start output errors all faults).run (eager (all.length + faults.length))).finished
      = true := by
  refine finished_run (exact_start hne all faults) (endOf_injective hne) ?_ ?_
  · intro r hr c hunfinished
    obtain rfl := List.eq_of_mem_replicate hr
    exact yields_of_unfinished hunfinished _
  · have hpending : ∀ side, pending (endOf output errors) (start output errors all faults) side
        = (streamOf all faults side).length + 1 := by
      intro side
      rw [pending_of_some (by rw [start_tap]), start_wires hne]
    simp only [left, hpending, streamOf, eager, List.length_replicate]
    omega

theorem works_of_mem_eager {length : Nat} {r : Round} (hr : r ∈ eager length) : r.Works := by
  obtain rfl := List.eq_of_mem_replicate hr
  simp [Round.Works]

theorem texts_run_eager (hne : output ≠ errors) (all faults : Bytes) :
    ((start output errors all faults).run (eager (all.length + faults.length))).output.text = all
      ∧ ((start output errors all faults).run (eager (all.length + faults.length))).errors.text
        = faults :=
  (readsOut_run hne all faults fun _ hr => works_of_mem_eager hr).texts
    (finished_run_eager hne all faults)

end Capture

/-- The texts of a tool are what its streams yield. -/
theorem capture_texts {output errors : Descriptor} (hne : output ≠ errors) (w : World) :
    (capture output errors w).1.output.text = (World.read output none w).1
      ∧ (capture output errors w).1.errors.text
        = (World.read errors none (World.read output none w).2).1 :=
  Capture.texts_run_eager hne _ _

end AnalyzerBridge.Tool

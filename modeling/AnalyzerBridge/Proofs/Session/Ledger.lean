/-
The books of a session.

A session forgets: a call that was given up leaves no trace in the table, and neither does one
that could not be sent.  A `Ledger` is a session together with what has happened to it, so that
one can say that no call was lost.

`Section` is the list of everything that ever happens to the shared state, each of it at once.
All invariants are derived from this list and never from the code that runs the sections, which
has only to say which of them it runs, and when.
-/
import Mathlib.Data.List.Nodup
import Mathlib.Data.List.Range
import AnalyzerBridge.Session.State

namespace AnalyzerBridge

/-! ### Stages -/

namespace Stage

theorem rank_le_terminated (stage : Stage) : stage.rank ≤ terminated.rank := by
  cases stage <;> decide

theorem eq_unstarted_of_rank_le {stage : Stage} (h : stage.rank ≤ unstarted.rank) :
    stage = unstarted := by
  cases stage with
  | unstarted => rfl
  | initializing | ready | terminated => exact absurd h (by decide)

theorem eq_terminated_of_rank_le {stage : Stage} (h : terminated.rank ≤ stage.rank) :
    stage = terminated := by
  cases stage with
  | terminated => rfl
  | unstarted | initializing | ready => exact absurd h (by decide)

end Stage

/-! ### The table of pending calls -/

namespace Session

variable {s session : Session} {id : Nat}

theorem stage_of_register (h : s.register = .ok (id, session)) : s.stage ≠ .terminated := by
  intro hover
  simp [register, sendRefusal, hover] at h

/-- A call is registered under the next number, and nothing else changes. -/
theorem eq_of_register (h : s.register = .ok (id, session)) :
    id = s.lastId + 1 ∧ session
      = { s with lastId := s.lastId + 1, pending := (s.lastId + 1) :: s.pending } := by
  rw [register] at h
  split at h
  · simp at h
  · rw [Except.ok.injEq, Prod.mk.injEq] at h
    exact ⟨h.1.symm, h.2.symm⟩

theorem eq_of_becomeReady (h : s.becomeReady = .ok session) :
    s.stage = .initializing ∧ session = { s with stage := .ready } := by
  rw [becomeReady] at h
  split at h
  case isTrue hstage => exact ⟨hstage, (Except.ok.inj h).symm⟩
  case isFalse => simp at h

theorem mem_forget (s : Session) (id other : Nat) :
    other ∈ (s.forget id).pending ↔ other ∈ s.pending ∧ other ≠ id := by
  simp [forget]

/-- A call has an end exactly when its number is among the ends. -/
theorem exists_end_iff (s : Session) (id : Nat) :
    (∃ found, s.end? id = some found) ↔ id ∈ s.ends.map Prod.fst := by
  rw [end?]
  constructor
  · rintro ⟨found, hfound⟩
    obtain ⟨before, after, hends, -⟩ := List.lookup_eq_some_iff.mp hfound
    simp [hends]
  · intro hmem
    cases hfound : s.ends.lookup id with
    | some found => exact ⟨found, rfl⟩
    | none =>
        obtain ⟨⟨other, found⟩, hin, rfl⟩ := List.mem_map.mp hmem
        have hne := List.lookup_eq_none_iff.mp hfound _ hin
        exact absurd hne (by simp)

theorem cause_beginShutdown (s : Session) : s.beginShutdown.2.cause = s.cause := by
  rw [beginShutdown]
  split
  · rfl
  · split <;> rfl

/-- Calls that end alike end so each of them, and no other does. -/
theorem lookup_ended (ids : List Nat) (found : CallEnd) (id : Nat) :
    (ids.map fun other => (other, found)).lookup id = if id ∈ ids then some found else none := by
  induction ids with
  | nil => rfl
  | cons other rest ih =>
      by_cases hid : id = other
      · simp [hid]
      · simp [List.lookup_cons, beq_false_of_ne hid, ih, hid]

end Session

/-! ### What a session has gone through -/

/-- A session and what has happened to it. -/
structure Ledger where
  session : Session := {}
  /-- The calls that were registered, each with the thread that made it, in order. -/
  registered : List (Nat × Nat) := []
  /-- The calls that were not waited for any longer. -/
  timedOut : List Nat := []
  /-- The calls that could not be sent. -/
  unsent : List Nat := []
  /-- The reasons that were recorded for the end of the session. -/
  causes : List Failure := []

namespace Ledger

/-- The numbers of the calls that were registered. -/
def ids (l : Ledger) : List Nat := l.registered.map Prod.fst

/-- The calls that have ended, the last first. -/
def resolved (l : Ledger) : List Nat := l.session.ends.map Prod.fst

/-- Something has happened to the call: it has ended, was given up, or could not be sent. -/
def IsSettled (l : Ledger) (id : Nat) : Prop := id ∈ l.resolved ∨ id ∈ l.timedOut ∨ id ∈ l.unsent

/-- Ends the session for a reason, and notes the reason if it is kept. -/
def terminate (l : Ledger) (cause : Failure) (record : Bool) : Ledger :=
  { l with
    session := (l.session.terminate cause record).2
    causes :=
      if (l.session.terminate cause record).1 && record then l.causes ++ [cause] else l.causes }

/-- A call could not be sent and leaves the table. -/
def dropUnsent (l : Ledger) (id : Nat) : Ledger :=
  { l with session := l.session.forget id, unsent := l.unsent ++ [id] }

/-- A call is given up and leaves the table. -/
def giveUp (l : Ledger) (id : Nat) : Ledger :=
  { l with session := l.session.forget id, timedOut := l.timedOut ++ [id] }

/-- Everything that happens to the shared state, each of it at once. -/
inductive Section (l : Ledger) : Ledger → Prop
  /-- Someone looks. -/
  | look : Section l l
  /-- The backend could not be launched. -/
  | launchFailed (fresh : l.session.stage = .unstarted) :
      Section l { l with session := l.session.launchFailed }
  /-- There is a stream to the backend. -/
  | attach : Section l { l with session := { l.session with connected := true } }
  /-- The opening exchange begins. -/
  | connect (fresh : l.session.stage = .unstarted) :
      Section l { l with session := l.session.connect }
  | register (begun : l.session.stage ≠ .unstarted) (thread : Nat) {id : Nat} {session : Session}
      (done : l.session.register = .ok (id, session)) :
      Section l { l with session, registered := l.registered ++ [(id, thread)] }
  | dropUnsent {id : Nat} (known : id ∈ l.ids) : Section l (l.dropUnsent id)
  | giveUp {id : Nat} (known : id ∈ l.ids) : Section l (l.giveUp id)
  | answer (id : Nat) (reply : CallEnd) :
      Section l { l with session := (l.session.answer id reply).2 }
  | terminate (cause : Failure) (record : Bool) : Section l (l.terminate cause record)
  /-- The opening exchange succeeded. -/
  | becomeReady {session : Session} (done : l.session.becomeReady = .ok session) :
      Section l { l with session }
  /-- Someone begins to shut the session down. -/
  | beginShutdown : Section l { l with session := l.session.beginShutdown.2 }

/-! ### The books are in order -/

/-- What the books say at any time. -/
structure Sound (l : Ledger) : Prop where
  /-- Calls are numbered from one. -/
  numbers : l.ids = List.range' 1 l.session.lastId
  /-- Before the session has begun there are no calls. -/
  unbegun : l.session.stage = .unstarted → l.session.lastId = 0
  /-- The table has the calls that nothing has happened to yet. -/
  pending : ∀ id, id ∈ l.session.pending ↔ id ∈ l.ids ∧ ¬ l.IsSettled id
  /-- It has each of them once. -/
  pendingOnce : l.session.pending.Nodup
  /-- A call ends once. -/
  resolvedOnce : l.resolved.Nodup
  /-- Nothing happens to a call that was not registered. -/
  settledKnown : ∀ id, l.IsSettled id → id ∈ l.ids
  /-- A session that is over waits for nothing. -/
  finished : l.session.stage = .terminated → l.session.pending = []
  /-- What ended the session is recorded once at most. -/
  causesOnce : l.causes.length ≤ 1
  /-- It is recorded only when the session ends. -/
  causesLast : l.session.stage ≠ .terminated → l.causes = []
  /-- The session has the recorded reason. -/
  cause : l.session.cause = l.causes.head?

namespace Sound

variable {l : Ledger}

theorem start : Sound {} where
  numbers := rfl
  unbegun := fun _ => rfl
  pending := by simp [ids]
  pendingOnce := List.nodup_nil
  resolvedOnce := List.nodup_nil
  settledKnown := by simp [IsSettled, resolved]
  finished := fun _ => rfl
  causesOnce := Nat.zero_le 1
  causesLast := fun _ => rfl
  cause := rfl

/-- A call is registered by one thread only. -/
theorem thread_eq (h : Sound l) {id thread other : Nat} (hid : (id, thread) ∈ l.registered)
    (hother : (id, other) ∈ l.registered) : thread = other := by
  have hnodup : (l.registered.map Prod.fst).Nodup := by
    have hids := h.numbers
    rw [ids] at hids
    rw [hids]
    exact List.nodup_range'
  have heq := List.inj_on_of_nodup_map hnodup hid hother rfl
  exact congrArg Prod.snd heq

theorem pending_eq_nil_of_unstarted (h : Sound l) (fresh : l.session.stage = .unstarted) :
    l.session.pending = [] := by
  have hids : l.ids = [] := by rw [h.numbers, h.unbegun fresh]; rfl
  refine List.eq_nil_iff_forall_not_mem.mpr fun id hid => ?_
  have hknown := ((h.pending id).mp hid).1
  rw [hids] at hknown
  exact List.not_mem_nil hknown

/-- Another stage that is not the first changes nothing in the books, as long as a session that
is over waits for nothing. -/
theorem restage (h : Sound l) {stage : Stage} {connected shuttingDown : Bool}
    (hstart : stage = .unstarted → l.session.stage = .unstarted)
    (hlast : l.session.stage = .terminated → stage = .terminated)
    (hover : stage = .terminated → l.session.pending = []) :
    Sound { l with session := { l.session with stage, connected, shuttingDown } } :=
  { h with
    unbegun := fun hstage => h.unbegun (hstart hstage)
    finished := hover
    causesLast := fun hstage => h.causesLast (fun hc => hstage (hlast hc)) }

theorem launchFailed (h : Sound l) (fresh : l.session.stage = .unstarted) :
    Sound { l with session := l.session.launchFailed } :=
  h.restage (by simp) (fun _ => rfl) (fun _ => h.pending_eq_nil_of_unstarted fresh)

theorem connect (h : Sound l) (fresh : l.session.stage = .unstarted) :
    Sound { l with session := l.session.connect } :=
  h.restage (by simp) (by simp [fresh]) (by simp)

theorem attach (h : Sound l) :
    Sound { l with session := { l.session with connected := true } } :=
  h.restage id id h.finished

theorem becomeReady (h : Sound l) {session : Session}
    (done : l.session.becomeReady = .ok session) : Sound { l with session } := by
  obtain ⟨hstage, rfl⟩ := Session.eq_of_becomeReady done
  exact h.restage (by simp) (by simp [hstage]) (by simp)

theorem beginShutdown (h : Sound l) :
    Sound { l with session := l.session.beginShutdown.2 } := by
  rw [Session.beginShutdown]
  split
  case isTrue fresh => exact h.launchFailed fresh
  case isFalse =>
    split
    · exact h
    · exact h.restage id id h.finished

theorem register (h : Sound l) (begun : l.session.stage ≠ .unstarted) (thread : Nat) {id : Nat}
    {session : Session} (done : l.session.register = .ok (id, session)) :
    Sound { l with session, registered := l.registered ++ [(id, thread)] } := by
  have hlive := Session.stage_of_register done
  obtain ⟨rfl, rfl⟩ := Session.eq_of_register done
  -- The number is new, so nothing has happened to the call yet.
  have hnew : l.session.lastId + 1 ∉ l.ids := by
    rw [h.numbers, List.mem_range'_1]
    omega
  have hopen : ¬ l.IsSettled (l.session.lastId + 1) := fun hc => hnew (h.settledKnown _ hc)
  have hids : (l.registered ++ [(l.session.lastId + 1, thread)]).map Prod.fst
      = l.ids ++ [l.session.lastId + 1] := List.map_append
  exact
    { h with
      numbers := by
        rw [ids, hids, h.numbers, List.range'_1_concat, Nat.add_comm 1]
      unbegun := fun hc => absurd hc begun
      pending := by
        intro id
        rw [ids, hids, List.mem_append, List.mem_singleton, List.mem_cons, h.pending]
        constructor
        · rintro (rfl | ⟨hknown, hfree⟩)
          · exact ⟨.inr rfl, hopen⟩
          · exact ⟨.inl hknown, hfree⟩
        · rintro ⟨hknown | rfl, hfree⟩
          · exact .inr ⟨hknown, hfree⟩
          · exact .inl rfl
      pendingOnce := List.nodup_cons.mpr ⟨fun hc => hnew ((h.pending _).mp hc).1, h.pendingOnce⟩
      settledKnown := by
        intro id hid
        rw [ids, hids]
        exact List.mem_append_left _ (h.settledKnown id hid)
      finished := fun hc => absurd hc hlive }

/-- Taking a call out of the table is right if the books say that something has happened to it. -/
theorem forget (h : Sound l) {id : Nat} (known : id ∈ l.ids) {l' : Ledger}
    (hsession : l'.session = l.session.forget id) (hids : l'.ids = l.ids)
    (hsettled : ∀ other, l'.IsSettled other ↔ other = id ∨ l.IsSettled other)
    (hcauses : l'.causes = l.causes) : Sound l' where
  numbers := by rw [hids, hsession]; exact h.numbers
  unbegun := by rw [hsession]; exact h.unbegun
  pending := by
    intro other
    rw [hsession, Session.mem_forget, h.pending, hids, hsettled]
    tauto
  pendingOnce := by
    rw [hsession]
    exact h.pendingOnce.filter _
  resolvedOnce := by
    rw [resolved, hsession]
    exact h.resolvedOnce
  settledKnown := by
    intro other hother
    rw [hids]
    rcases (hsettled other).mp hother with rfl | hold
    · exact known
    · exact h.settledKnown other hold
  finished := by
    rw [hsession]
    intro hstage
    rw [Session.forget, h.finished hstage]
    rfl
  causesOnce := by rw [hcauses]; exact h.causesOnce
  causesLast := by rw [hcauses, hsession]; exact h.causesLast
  cause := by rw [hcauses, hsession]; exact h.cause

theorem dropUnsent (h : Sound l) {id : Nat} (known : id ∈ l.ids) : Sound (l.dropUnsent id) := by
  refine h.forget known rfl rfl (fun other => ?_) rfl
  simp only [IsSettled, Ledger.dropUnsent, List.mem_append, List.mem_singleton]
  tauto

theorem giveUp (h : Sound l) {id : Nat} (known : id ∈ l.ids) : Sound (l.giveUp id) := by
  refine h.forget known rfl rfl (fun other => ?_) rfl
  simp only [IsSettled, Ledger.giveUp, List.mem_append, List.mem_singleton]
  tauto

/-- An answer ends a call that is waited for; any other is thrown away. -/
theorem answer (h : Sound l) (id : Nat) (reply : CallEnd) :
    Sound { l with session := (l.session.answer id reply).2 } := by
  rw [Session.answer]
  split
  case isFalse => exact h
  case isTrue hin =>
    obtain ⟨hknown, hfree⟩ := (h.pending id).mp (List.contains_iff_mem.mp hin)
    have hsettled : ∀ other, ({ l with session :=
          { l.session.forget id with ends := (id, reply) :: l.session.ends } }
        : Ledger).IsSettled other ↔ other = id ∨ l.IsSettled other := by
      intro other
      simp only [IsSettled, resolved, List.map_cons, List.mem_cons]
      tauto
    exact
      { numbers := h.numbers
        unbegun := h.unbegun
        pending := by
          intro other
          rw [hsettled]
          have hrest := Session.mem_forget l.session id other
          rw [h.pending] at hrest
          refine hrest.trans ?_
          simp only [ids]
          tauto
        pendingOnce := h.pendingOnce.filter _
        resolvedOnce := List.nodup_cons.mpr ⟨fun hc => hfree (.inl hc), h.resolvedOnce⟩
        settledKnown := by
          intro other hother
          rcases (hsettled other).mp hother with rfl | hold
          · exact hknown
          · exact h.settledKnown other hold
        finished := by
          intro hstage
          simp [Session.forget, h.finished hstage]
        causesOnce := h.causesOnce
        causesLast := h.causesLast
        cause := h.cause }

/-- Ending the session ends every call that is waited for, and only the first end counts. -/
theorem terminate (h : Sound l) (cause : Failure) (record : Bool) :
    Sound (l.terminate cause record) := by
  by_cases hover : l.session.stage = .terminated
  · -- The session is over already, and a second end leaves everything as it is.
    have hsame : l.terminate cause record = l := by
      simp [Ledger.terminate, Session.terminate, hover]
    rw [hsame]
    exact h
  · have hnone : l.causes = [] := h.causesLast hover
    have hnew : l.terminate cause record = { l with
        session := { l.session with
          stage := .terminated
          cause := if record then some cause else l.session.cause
          ends := l.session.pending.map (fun id => (id, .failed cause)) ++ l.session.ends
          pending := []
          board := l.session.board.close }
        causes := if record then [cause] else [] } := by
      simp [Ledger.terminate, Session.terminate, hover, hnone]
    have hresolved : (l.terminate cause record).resolved = l.session.pending ++ l.resolved := by
      rw [hnew]
      simp [resolved, Function.comp_def]
    have hsettled : ∀ id, (l.terminate cause record).IsSettled id
        ↔ id ∈ l.session.pending ∨ l.IsSettled id := by
      intro id
      rw [IsSettled, hresolved, hnew, List.mem_append, IsSettled, or_assoc]
    have hids : (l.terminate cause record).ids = l.ids := by rw [hnew]; rfl
    exact
      { numbers := by rw [hids, hnew]; exact h.numbers
        unbegun := by simp [hnew]
        pending := by
          intro id
          rw [hids, hsettled, h.pending, hnew]
          simp only [List.not_mem_nil]
          tauto
        pendingOnce := by simp [hnew]
        resolvedOnce := by
          -- The calls that end now were in the table, so none of them had ended.
          rw [hresolved]
          refine List.nodup_append'.mpr ⟨h.pendingOnce, h.resolvedOnce, fun id hin hc => ?_⟩
          exact ((h.pending id).mp hin).2 (.inl hc)
        settledKnown := by
          intro id hid
          rw [hids]
          rcases (hsettled id).mp hid with hin | hold
          · exact ((h.pending id).mp hin).1
          · exact h.settledKnown id hold
        finished := by simp [hnew]
        causesOnce := by
          rw [hnew]
          cases record <;> simp
        causesLast := by simp [hnew]
        cause := by
          have hcause := h.cause
          rw [hnone] at hcause
          rw [hnew]
          cases record <;> simp [hcause] }

end Sound

/-- **Whatever happens to the shared state, the books stay in order.** -/
theorem Section.sound {l l' : Ledger} (step : Section l l') (h : Sound l) : Sound l' := by
  cases step with
  | look => exact h
  | launchFailed fresh => exact h.launchFailed fresh
  | attach => exact h.attach
  | connect fresh => exact h.connect fresh
  | register begun thread done => exact h.register begun thread done
  | dropUnsent known => exact h.dropUnsent known
  | giveUp known => exact h.giveUp known
  | answer id reply => exact h.answer id reply
  | terminate cause record => exact h.terminate cause record
  | becomeReady done => exact h.becomeReady done
  | beginShutdown => exact h.beginShutdown

/-! ### The books only grow -/

/-- One state of the books can come after another. -/
structure Precedes (l l' : Ledger) : Prop where
  /-- The session has not gone back. -/
  stage : l.session.stage.rank ≤ l'.session.stage.rank
  /-- No call is struck out. -/
  registered : l.registered <+: l'.registered
  /-- Nothing is registered once the session is over. -/
  closed : l.session.stage = .terminated → l'.registered = l.registered
  /-- An end stays as it is. -/
  ends : l.session.ends <:+ l'.session.ends
  /-- A recorded reason stays as it is. -/
  causes : l.causes <+: l'.causes

namespace Precedes

variable {l l' l'' : Ledger}

theorem refl (l : Ledger) : Precedes l l :=
  ⟨Nat.le_refl _, List.prefix_rfl, fun _ => rfl, List.suffix_rfl, List.prefix_rfl⟩

/-- A session that has begun has begun for good. -/
theorem begun (h : Precedes l l') (hbegun : l.session.stage ≠ .unstarted) :
    l'.session.stage ≠ .unstarted := by
  intro hc
  have hrank := h.stage
  rw [hc] at hrank
  exact hbegun (Stage.eq_unstarted_of_rank_le hrank)

theorem stays_terminated (h : Precedes l l')
    (hover : l.session.stage = .terminated) : l'.session.stage = .terminated := by
  refine Stage.eq_terminated_of_rank_le ?_
  rw [← hover]
  exact h.stage

theorem trans (h : Precedes l l') (h' : Precedes l' l'') : Precedes l l'' where
  stage := Nat.le_trans h.stage h'.stage
  registered := h.registered.trans h'.registered
  closed hover := (h'.closed (h.stays_terminated hover)).trans (h.closed hover)
  ends := h.ends.trans h'.ends
  causes := h.causes.trans h'.causes

/-- A change of the session alone that does not lead back and keeps the ends. -/
theorem of_session {session : Session}
    (stage : l.session.stage.rank ≤ session.stage.rank) (ends : l.session.ends <:+ session.ends) :
    Precedes l { l with session } :=
  ⟨stage, List.prefix_rfl, fun _ => rfl, ends, List.prefix_rfl⟩

end Precedes

/-- **Whatever happens to the shared state, nothing in the books is taken back.** -/
theorem Section.precedes {l l' : Ledger} (step : Section l l') : Precedes l l' := by
  cases step with
  | look => exact .refl l
  | launchFailed => exact .of_session (Stage.rank_le_terminated _) List.suffix_rfl
  | attach => exact .of_session (Nat.le_refl _) List.suffix_rfl
  | connect fresh => exact .of_session (by rw [fresh]; exact Nat.zero_le _) List.suffix_rfl
  | register begun thread done =>
      have hlive := Session.stage_of_register done
      obtain ⟨rfl, rfl⟩ := Session.eq_of_register done
      exact ⟨Nat.le_refl _, List.prefix_append _ _, fun hc => absurd hc hlive, List.suffix_rfl,
        List.prefix_rfl⟩
  | dropUnsent | giveUp =>
      exact ⟨Nat.le_refl _, List.prefix_rfl, fun _ => rfl, List.suffix_rfl, List.prefix_rfl⟩
  | answer id reply =>
      rw [Session.answer]
      split
      · exact .of_session (Nat.le_refl _) (List.suffix_cons _ _)
      · exact .refl l
  | terminate cause record =>
      rw [Ledger.terminate, Session.terminate]
      split
      · exact .refl l
      · exact ⟨Stage.rank_le_terminated _, List.prefix_rfl, fun _ => rfl, List.suffix_append _ _,
          by cases record <;> simp⟩
  | becomeReady done =>
      obtain ⟨hstage, rfl⟩ := Session.eq_of_becomeReady done
      exact .of_session (by rw [hstage]; exact Nat.le_succ 1) List.suffix_rfl
  | beginShutdown =>
      rw [Session.beginShutdown]
      split
      · exact .of_session (Stage.rank_le_terminated _) List.suffix_rfl
      · split
        · exact .refl l
        · exact .of_session (Nat.le_refl _) List.suffix_rfl

/-- A call that is not waited for does not end any more. -/
theorem Section.end?_eq {l l' : Ledger} (step : Section l l') {id : Nat}
    (hid : id ∉ l.session.pending) : l'.session.end? id = l.session.end? id := by
  cases step with
  | look | launchFailed | attach | connect | dropUnsent | giveUp => rfl
  | register begun thread done =>
      obtain ⟨-, rfl⟩ := Session.eq_of_register done
      rfl
  | answer other reply =>
      rw [Session.answer]
      split
      case isTrue hin =>
        have hne : id ≠ other := by
          rintro rfl
          exact hid (List.contains_iff_mem.mp hin)
        simp [Session.end?, List.lookup_cons, beq_false_of_ne hne]
      case isFalse => rfl
  | terminate cause record =>
      rw [Ledger.terminate, Session.terminate]
      split
      · rfl
      · simp [Session.end?, List.lookup_append, Session.lookup_ended, hid]
  | becomeReady done =>
      obtain ⟨-, rfl⟩ := Session.eq_of_becomeReady done
      rfl
  | beginShutdown =>
      rw [Session.beginShutdown]
      split
      · rfl
      · split <;> rfl

/-- A call ends once. -/
theorem Section.end?_stays {l l' : Ledger} (step : Section l l') (h : Sound l) {id : Nat}
    {found : CallEnd} (hend : l.session.end? id = some found) : l'.session.end? id = some found := by
  have hresolved : id ∈ l.resolved := (l.session.exists_end_iff id).mp ⟨found, hend⟩
  have hnot : id ∉ l.session.pending := fun hc => ((h.pending id).mp hc).2 (.inl hresolved)
  rw [step.end?_eq hnot, hend]

/-- What is recorded as the reason for the end ends every call that is waited for. -/
theorem Section.end?_of_cause {l l' : Ledger} (step : Section l l') (hnone : l.session.cause = none)
    {cause : Failure} (hcause : l'.session.cause = some cause) {id : Nat}
    (hid : id ∈ l.session.pending) : l'.session.end? id = some (.failed cause) := by
  have hunchanged : l'.session.cause = l.session.cause → l'.session.end? id = some (.failed cause) :=
    fun hsame => absurd (hcause.symm.trans (hsame.trans hnone)) (by simp)
  cases step with
  | look | launchFailed | attach | connect | dropUnsent | giveUp => exact hunchanged rfl
  | register begun thread done =>
      obtain ⟨-, rfl⟩ := Session.eq_of_register done
      exact hunchanged rfl
  | answer other reply =>
      refine hunchanged ?_
      rw [Session.answer]
      split <;> rfl
  | terminate found record =>
      rw [Ledger.terminate, Session.terminate] at hcause ⊢
      split
      case isTrue hover => exact absurd (by simpa [hover] using hcause) (by simp [hnone])
      case isFalse hlive =>
        obtain ⟨-, rfl⟩ : record = true ∧ found = cause := by
          simpa [hlive, hnone] using hcause
        simp [Session.end?, List.lookup_append, Session.lookup_ended, hid]
  | becomeReady done =>
      obtain ⟨-, rfl⟩ := Session.eq_of_becomeReady done
      exact hunchanged rfl
  | beginShutdown => exact hunchanged l.session.cause_beginShutdown

/-- A call stays unsent, or given up. -/
theorem Section.settled_prefix {l l' : Ledger} (step : Section l l') :
    l.unsent <+: l'.unsent ∧ l.timedOut <+: l'.timedOut := by
  cases step with
  | dropUnsent => exact ⟨List.prefix_append _ _, List.prefix_rfl⟩
  | giveUp => exact ⟨List.prefix_rfl, List.prefix_append _ _⟩
  | _ => exact ⟨List.prefix_rfl, List.prefix_rfl⟩

end Ledger

end AnalyzerBridge

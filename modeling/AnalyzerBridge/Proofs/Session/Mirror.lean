/-
A client that runs, beside a client among all that it shares its session with.

`ClientRun` follows any number of threads, the reader and the thread that logs errors from one
moment to the next.  `Client` is what runs: one thread that does one thing after the other, and
that comes upon what goes on beside it where that matters.  `Mirrors` says that the two stand alike,
as long as the backend answers nothing; the lemmas here say, for each move that a client ever makes,
what it makes of two that stand alike.

A `Standing` is what one has to know of both to tell which moves come next.  What they share beyond
that, the keeper, the writer and the world, is the same for both, whatever it is.
-/
import AnalyzerBridge.Proofs.Session.FailedStart

namespace AnalyzerBridge

open Host (World Descriptor)
open AnalyzerBridge.Frame (Writer WriteAnswer ReadFailure Outgoing)

/-! ### Sessions that answer nothing -/

namespace Session

/-- No call was answered, and none is served. -/
structure Unserved (s : Session) : Prop where
  unready : s.stage ≠ .ready
  ends : ∀ e ∈ s.ends, ∃ cause, e.2 = .failed cause ∧ cause.kind ≠ .backendRejected

namespace Unserved

variable {s session : Session}

theorem terminate (h : s.Unserved) {cause : Failure} (hcause : cause.kind ≠ .backendRejected)
    (record : Bool) : (s.terminate cause record).2.Unserved := by
  rw [Session.terminate]
  split
  · exact h
  · refine ⟨by simp, fun e he => ?_⟩
    rcases List.mem_append.mp he with hnew | hold
    · obtain ⟨id, -, rfl⟩ := List.mem_map.mp hnew
      exact ⟨cause, rfl, hcause⟩
    · exact h.ends e hold

theorem register (h : s.Unserved) {id : Nat} (done : s.register = .ok (id, session)) :
    session.Unserved := by
  obtain ⟨-, rfl⟩ := eq_of_register done
  exact ⟨h.unready, h.ends⟩

theorem forget (h : s.Unserved) (id : Nat) : (s.forget id).Unserved := ⟨h.unready, h.ends⟩

/-- A call that has ended has failed. -/
theorem failed (h : s.Unserved) {id : Nat} {found : CallEnd} (hend : s.end? id = some found) :
    ∃ cause, found = .failed cause ∧ cause.kind ≠ .backendRejected := by
  obtain ⟨before, after, hends, -⟩ := List.lookup_eq_some_iff.mp hend
  exact h.ends (id, found) (by simp [hends])

/-- Whatever is asked for is refused. -/
theorem exists_refusal (h : s.Unserved) (asking : Asking) :
    ∃ failure, asking.refusal s = some failure := by
  have hcall : ∃ failure, s.callRefusal = some failure := by
    rw [callRefusal]
    cases hstage : s.stage with
    | ready => exact absurd hstage h.unready
    | unstarted | initializing | terminated => exact ⟨_, rfl⟩
  cases asking with
  | request | notify => exact hcall
  | sync => exact ⟨_, if_neg h.unready⟩

end Unserved

end Session

/-! ### Where a client stands -/

/-- Where the one thread stands that starts the session and ends it, and what is under way. -/
structure Standing where
  session : Session := {}
  /-- Where the thread stands. -/
  place : ThreadPlace := .idle
  /-- Why the opening has failed. -/
  failure : Option Failure := none
  /-- What the thread has yet to do to close the session. -/
  chores : List Chore := []
  /-- Where the reader stands. -/
  reader : ReaderPlace := .absent
  /-- What the reader has yet to do. -/
  task : ReaderTask := .nothing
  /-- Those who run beside the thread were asked to stop. -/
  asked : Bool := false
  /-- What callers were told. -/
  told : List (Nat × ClientReply) := []
  /-- The client listens for frames. -/
  listens : Bool := false
  /-- The client may have errors of the backend to log. -/
  logs : Bool := false
  /-- The opening call, while it is waited for. -/
  call : Option Waiting := none
  /-- How the opening ended. -/
  ended : Option (Except Failure Unit) := none

/-- What the thread is told when it has closed the session. -/
def Standing.lastWord (f : Standing) : ClientReply :=
  match f.failure with
  | some failure => .started (.error failure.asStartup)
  | none => .shutDown

/-- Both clients stand there, and have the same keeper, writer and world. -/
structure Mirrors (o : ClientOptions) (f : Standing) (s : ClientRun World) (c : Client)
    (w : World) : Prop where
  options : c.options = o
  session : c.session = f.session
  call : c.opening = f.call
  ended : c.opened = f.ended
  listens : c.output.isSome = f.listens
  logs : c.errors.isSome = true → f.logs = true
  expelling : c.expelling = decide (f.task = .expel)
  world : s.keeping.world = w
  keeper : s.keeper = c.keeper
  shared : s.shared.ledger.session = c.session
  writer : s.writer = c.writer.map Prod.fst
  errors : s.errors = .running ↔ c.errors.isSome = true
  place : s.shared.place = Function.update (fun _ => .idle) 0 f.place
  lock : s.shared.lock = if f.place.holdsLock then some 0 else none
  failure : s.opening = f.failure
  chores : s.chores = f.chores
  reader : s.shared.reader = f.reader
  task : s.task = f.task
  asked : f.asked = true → s.readerAsked = true ∧ s.errorsAsked = true
  told : s.returned = f.told
  unserved : c.session.Unserved

/-- The thread goes on, and writes nothing. -/
abbrev ClientMove.onward : ClientMove World := .proceed 0 (.ok []) [] false

namespace Mirrors

variable {o : ClientOptions} {f : Standing} {s : ClientRun World} {c : Client} {w : World}

theorem create (o : ClientOptions) (w : World) :
    Mirrors o {} (ClientRun.fresh w) (Client.create o) w where
  options := rfl
  session := rfl
  call := rfl
  ended := rfl
  listens := rfl
  logs := by simp [Client.create]
  expelling := rfl
  world := rfl
  keeper := rfl
  shared := rfl
  writer := rfl
  errors := by simp [ClientRun.fresh, Client.create]
  place := by simp [ClientRun.fresh]
  lock := rfl
  failure := rfl
  chores := rfl
  reader := rfl
  task := rfl
  asked := by simp
  told := rfl
  unserved := ⟨by simp [Client.create], by simp [Client.create]⟩

theorem place_zero (h : Mirrors o f s c w) : s.shared.place 0 = f.place := by
  rw [h.place, Function.update_self]

theorem idle (h : Mirrors o f s c w) (hplace : f.place = .idle) :
    s.shared.place 0 = .idle ∧ s.shared.lock = none := by
  rw [h.place_zero, h.lock, hplace]
  exact ⟨rfl, rfl⟩

/-! ### The world and the log -/

theorem elsewhere (h : Mirrors o f s c w) (w' : World) :
    Mirrors o f (s.step World.kernel o (.elsewhere fun _ => w')) c w' := { h with world := rfl }

/-- The client keeps another part of a line to log. -/
theorem keepsLine (h : Mirrors o f s c w) (lines : ErrorLines) :
    Mirrors o f s { c with lines } w := { h with }

/-- The errors of the backend are logged no more. -/
theorem errorsEnd (h : Mirrors o f s c w) (asked : Bool) (hasked : asked = true → f.asked = true)
    (lines : ErrorLines) :
    Mirrors o { f with logs := false } (s.step World.kernel o (.errorsEnd asked))
      { c with errors := none, lines } w := by
  by_cases hrunning : s.errors = .running
  · have hcan : s.errors = .running ∧ (asked = true → s.errorsAsked = true) :=
      ⟨hrunning, fun ha => (h.asked (hasked ha)).2⟩
    simp only [ClientRun.step, if_pos hcan]
    exact { h with logs := by simp, errors := by simp }
  · simp only [ClientRun.step, hrunning, false_and, if_false]
    exact { h with logs := by simp, errors := by simpa using hrunning }

/-- Somebody is told something. -/
theorem reply (h : Mirrors o f s c w) (thread : Nat) (told : ClientReply) :
    Mirrors o { f with told := f.told ++ [(thread, told)] } (s.reply thread told) c w :=
  { h with
    told := by
      show s.returned ++ _ = _
      rw [h.told] }

/-- The opening call is under way. -/
theorem awaits (h : Mirrors o f s c w) (call : Waiting) :
    Mirrors o { f with call := some call } s { c with opening := some call } w :=
  { h with call := rfl }

/-- It is known how the opening ended. -/
theorem concludes (h : Mirrors o f s c w) (result : Except Failure Unit) :
    Mirrors o { f with call := none, ended := some result } s
      { c with opening := none, opened := some result } w :=
  { h with call := rfl, ended := rfl }

/-! ### The keeper -/

/-- Both ask the keeper for the same thing, and get the same answer. -/
theorem keep (h : Mirrors o f s c w) (request : KeeperRequest) :
    Mirrors o f (s.keep World.kernel request)
        { c with keeper := (c.keeper.perform World.kernel request w).1.2 }
        (c.keeper.perform World.kernel request w).2
      ∧ s.keeping.answer World.kernel request
        = (c.keeper.perform World.kernel request w).1.1 := by
  have hkeeper : s.keeping.keeper = c.keeper := h.keeper
  obtain ⟨calls, hstep, -⟩ := KeeperRun.step_request World.kernel s.keeping request
  rw [h.world, hkeeper] at hstep
  obtain ⟨calls, hact, -⟩ := Supervisor.makes_perform World.kernel c.keeper request w []
  refine ⟨{ h with world := ?_, keeper := ?_ }, ?_⟩
  · simp only [ClientRun.keep, hstep]
  · simp only [ClientRun.keeper, ClientRun.keep, hstep]
  · rw [KeeperRun.answer, h.world, hkeeper, hact]

/-! ### The reader -/

/-- The reader closes the writer, and has yet to make the backend go away. -/
theorem closesWriter (h : Mirrors o f s c w) (htask : f.task = .closeWriter) :
    Mirrors o { f with task := .expel } (s.step World.kernel o .readerGoesOn)
      { c with
        writer := c.writer.map fun (writer, d) => (writer.close, d)
        expelling := true } w := by
  have hstep : s.step World.kernel o .readerGoesOn
      = { s with writer := s.writer.map (·.close), task := .expel } := by
    simp only [ClientRun.step, ClientRun.readOn, h.task.trans htask, ClientRun.closeWriter]
  rw [hstep]
  exact
    { h with
      writer := by rw [h.writer, Option.map_map, Option.map_map]; rfl
      task := rfl
      expelling := rfl }

/-- The reader makes the backend go away. -/
theorem expels (h : Mirrors o f s c w) (htask : f.task = .expel) :
    let gone := c.keeper.terminate World.kernel o.shutdownGrace w
    Mirrors o { f with task := .nothing } (s.step World.kernel o .readerGoesOn)
      { c with keeper := gone.1.2, expelling := false } gone.2 := by
  intro gone
  obtain ⟨hkept, -⟩ := h.keep (.terminate o.shutdownGrace)
  have hstep : s.step World.kernel o .readerGoesOn
      = { s.keep World.kernel (.terminate o.shutdownGrace) with task := .nothing } := by
    simp only [ClientRun.step, ClientRun.readOn, h.task.trans htask]
  rw [hstep]
  exact { hkept with task := rfl, expelling := rfl }

/-- What breaks the stream of frames ends the session. -/
theorem breaks (h : Mirrors o f s c w) {failure : ReadFailure} (hreader : f.reader = .reading)
    (htask : f.task = .nothing) (hkind : failure.kind = .framing) :
    Mirrors o
      { f with
        session := (c.session.terminate failure.failure true).2
        reader := .stopped
        task := .closeWriter }
      (s.step World.kernel o (.fails (.stream failure)))
      { c with session := (c.session.terminate failure.failure true).2 } w := by
  have hreading : s.shared.reader = .reading := h.reader.trans hreader
  have hasked : ReadEnd.stream failure = .stream .stopped → s.readerAsked = true := by
    intro hc
    rw [ReadEnd.stream.inj hc] at hkind
    simp [ReadFailure.kind] at hkind
  have hbroken : (ReadEnd.stream failure).failure.kind = .framing := hkind
  have hstep : s.step World.kernel o (.fails (.stream failure))
      = { s with
          shared := { s.shared with
            ledger := s.shared.ledger.terminate failure.failure true
            reader := .stopped }
          readEnd := some (.stream failure)
          task := .closeWriter } := by
    simp only [ClientRun.step, if_pos (And.intro hreading hasked), ClientRun.failReading,
      if_pos hbroken, SessionRun.step, if_pos hreading]
    rfl
  rw [hstep]
  exact
    { h with
      session := rfl
      shared := by rw [← h.shared]; rfl
      reader := rfl
      task := rfl
      expelling := h.expelling.trans (by simp [htask])
      unserved := h.unserved.terminate (by simp [ReadFailure.failure, hkind]) true }

/-- The reader was asked to stop, or has come to the end of the stream. -/
theorem ends (h : Mirrors o f s c w) {failure : ReadFailure} (hreader : f.reader = .reading)
    (htask : f.task = .nothing) (hkind : failure.kind ≠ .framing)
    (hstopped : failure = .stopped → f.asked = true) :
    Mirrors o
      { f with
        reader := if c.session.shuttingDown then .stopped else .found (backendExited none)
        task := if c.session.shuttingDown then .nothing else .look }
      (s.step World.kernel o (.fails (.stream failure))) c w := by
  have hreading : s.shared.reader = .reading := h.reader.trans hreader
  have hasked : ReadEnd.stream failure = .stream .stopped → s.readerAsked = true :=
    fun hc => (h.asked (hstopped (ReadEnd.stream.inj hc))).1
  have hended : (ReadEnd.stream failure).failure.kind ≠ .framing := hkind
  have hstep : s.step World.kernel o (.fails (.stream failure))
      = { s with
          shared := { s.shared with
            reader := if c.session.shuttingDown then .stopped else .found (backendExited none) }
          readEnd := some (.stream failure)
          task := if c.session.shuttingDown then .nothing else .look } := by
    rw [← h.shared]
    simp only [ClientRun.step, if_pos (And.intro hreading hasked), ClientRun.failReading,
      if_neg hended, SessionRun.step, if_pos hreading]
  rw [hstep]
  exact
    { h with
      reader := rfl
      task := rfl
      expelling := h.expelling.trans (by rw [htask]; cases c.session.shuttingDown <;> rfl) }

/-- The reader asks whether the backend is alive. -/
theorem looks (h : Mirrors o f s c w) (htask : f.task = .look) :
    let asked := c.keeper.isAlive World.kernel w
    Mirrors o
      { f with
        reader := .found (backendExited (if asked.1.1 = true then none else asked.1.2.exitStatus))
        task := .nothing }
      (s.step World.kernel o .readerGoesOn) { c with keeper := asked.1.2 } asked.2 := by
  intro asked
  obtain ⟨hkept, hanswer⟩ := h.keep .isAlive
  have halive : (s.keeping.answer World.kernel .isAlive = .isAlive true) = (asked.1.1 = true) := by
    rw [hanswer]
    show (Exchange.isAlive asked.1.1 = .isAlive true) = _
    simp
  have hkeeper : (s.keep World.kernel .isAlive).keeper = asked.1.2 := hkept.keeper
  have hstep : s.step World.kernel o .readerGoesOn
      = { s.keep World.kernel .isAlive with
          shared := { s.shared with
            reader := .found
              (backendExited (if asked.1.1 = true then none else asked.1.2.exitStatus)) }
          task := .nothing } := by
    simp only [ClientRun.step, ClientRun.readOn, h.task.trans htask, ClientRun.look, hkeeper,
      halive]
  rw [hstep]
  exact
    { hkept with
      reader := rfl
      task := rfl
      expelling := h.expelling.trans (by simp [htask]) }

/-- The reader reports why the stream has ended. -/
theorem reports (h : Mirrors o f s c w) {cause : Failure} (hreader : f.reader = .found cause)
    (htask : f.task = .nothing) (hkind : cause.kind ≠ .backendRejected) :
    Mirrors o
      { f with session := (c.session.terminate cause true).2, reader := .stopped }
      (s.step World.kernel o .readerGoesOn)
      { c with session := (c.session.terminate cause true).2 } w := by
  have hstep : s.step World.kernel o .readerGoesOn
      = { s with
          shared := { s.shared with
            ledger := s.shared.ledger.terminate cause true
            reader := .stopped } } := by
    simp only [ClientRun.step, ClientRun.readOn, h.task.trans htask, SessionRun.step,
      h.reader.trans hreader]
  rw [hstep]
  exact
    { h with
      session := rfl
      shared := by rw [← h.shared]; rfl
      reader := rfl
      unserved := h.unserved.terminate hkind true }

/-! ### A turn of the thread -/

/-- The thread takes a turn.  It has the lock, and gives it back when it leaves. -/
theorem takesTurn (h : Mirrors o f s c w) {well : Bool} {turn : Turn}
    (hturn : f.place.turn s.shared.ledger 0 well = turn) (hholds : f.place.holdsLock = true)
    (hreleases : turn.releases = !turn.place.holdsLock)
    (hunserved : turn.ledger.session.Unserved) :
    Mirrors o
      { f with
        session := turn.ledger.session
        place := turn.place
        reader := if f.place = .launched then .reading else f.reader }
      (s.go 0 well) { c with session := turn.ledger.session } w := by
  have hshared : (s.go 0 well).shared = s.shared.take 0 turn := by
    rw [ClientRun.go, SessionRun.step, h.place_zero, hturn]
  exact
    { h with
      session := rfl
      shared := by rw [hshared]; rfl
      place := by
        rw [hshared]
        show Function.update s.shared.place 0 turn.place = _
        rw [h.place, Function.update_idem]
      lock := by
        rw [hshared]
        show (if turn.releases then none else s.shared.lock) = _
        rw [h.lock, hreleases, if_pos hholds]
        cases turn.place.holdsLock <;> rfl
      reader := by
        rw [hshared]
        show (if s.shared.place 0 = .launched then .reading else s.shared.reader) = _
        rw [h.place_zero, h.reader]
      unserved := hunserved }

/-- A turn that does not begin the session leaves the reader alone. -/
theorem goes (h : Mirrors o f s c w) {p : ThreadPlace} (hplace : f.place = p) {well : Bool}
    {turn : Turn} (hturn : p.turn s.shared.ledger 0 well = turn) (hnot : p ≠ .launched)
    (hholds : p.holdsLock = true) (hreleases : turn.releases = !turn.place.holdsLock)
    (hunserved : turn.ledger.session.Unserved) :
    Mirrors o { f with session := turn.ledger.session, place := turn.place } (s.go 0 well)
      { c with session := turn.ledger.session } w := by
  subst hplace
  have hgone := h.takesTurn hturn hholds hreleases hunserved
  rwa [if_neg hnot] at hgone

/-- A turn in which the thread only looks leaves the session alone, too. -/
theorem looksOn (h : Mirrors o f s c w) {p : ThreadPlace} (hplace : f.place = p) {well : Bool}
    {turn : Turn} (hturn : p.turn s.shared.ledger 0 well = turn) (hnot : p ≠ .launched)
    (hholds : p.holdsLock = true) (hreleases : turn.releases = !turn.place.holdsLock)
    (hsame : turn.ledger = s.shared.ledger) :
    Mirrors o { f with place := turn.place } (s.go 0 well) c w := by
  have hsession : turn.ledger.session = c.session := by rw [hsame, h.shared]
  have hgone := h.goes hplace hturn hnot hholds hreleases (hsession ▸ h.unserved)
  rw [hsession] at hgone
  exact { hgone with session := h.session }

/-! ### The opening call -/

/-- The opening call is registered. -/
theorem registers (h : Mirrors o f s c w) (hplace : f.place = .calling .opening) {id : Nat}
    {session : Session} (done : c.session.register = .ok (id, session)) :
    Mirrors o { f with session, place := .sending .opening id }
      (s.step World.kernel o .onward) { c with session } w := by
  have hdone : s.shared.ledger.session.register = .ok (id, session) := by rwa [h.shared]
  have hstep : s.step World.kernel o .onward = s.go 0 true := by
    simp only [ClientRun.step, ClientRun.proceed, h.place_zero, hplace, hdone]
  have hturn : ThreadPlace.turn s.shared.ledger 0 true (.calling .opening)
      = { ledger := { s.shared.ledger with
            session, registered := s.shared.ledger.registered ++ [(id, 0)] }
          place := .sending .opening id } := by
    rw [ThreadPlace.turn, hdone]
  rw [hstep]
  exact h.goes hplace hturn (by simp) rfl rfl (h.unserved.register done)

/-- The opening call is not registered. -/
theorem registersNot (h : Mirrors o f s c w) (hplace : f.place = .calling .opening)
    {failure : Failure} (done : c.session.register = .error failure) :
    Mirrors o { f with place := .openingFailed, failure := some failure }
      (s.step World.kernel o .onward) c w := by
  have hdone : s.shared.ledger.session.register = .error failure := by rwa [h.shared]
  have hstep : s.step World.kernel o .onward
      = (s.noteOpening .opening (some failure)).go 0 true := by
    simp only [ClientRun.step, ClientRun.proceed, h.place_zero, hplace, hdone]
  have hturn : ThreadPlace.turn s.shared.ledger 0 true (.calling .opening)
      = { ledger := s.shared.ledger, place := .openingFailed } := by
    rw [ThreadPlace.turn, hdone]
    rfl
  have hnoted : Mirrors o { f with failure := some failure }
      (s.noteOpening .opening (some failure)) c w := { h with failure := rfl }
  rw [hstep]
  exact hnoted.looksOn hplace hturn (by simp) rfl rfl rfl

/-- The frame of the opening call is written. -/
theorem sends (h : Mirrors o f s c w) {id : Nat} (hplace : f.place = .sending .opening id)
    {message : Outgoing} {answers : List WriteAnswer} {writer : Option (Writer × Descriptor)}
    (hwritten : s.writeFailure? message answers = none)
    (hwriter : (s.write message answers).writer = writer.map Prod.fst) :
    Mirrors o { f with place := .waiting .opening id }
      (s.step World.kernel o (.proceed 0 message answers false)) { c with writer } w := by
  have hstep : s.step World.kernel o (.proceed 0 message answers false)
      = ((s.write message answers).noteOpening .opening none).go 0 true := by
    simp only [ClientRun.step, ClientRun.proceed, h.place_zero, hplace, hwritten]
    rfl
  have hnoted : Mirrors o f ((s.write message answers).noteOpening .opening none)
      { c with writer } w := { h with writer := hwriter }
  have hturn : ThreadPlace.turn s.shared.ledger 0 true (.sending .opening id)
      = { ledger := s.shared.ledger, place := .waiting .opening id } := rfl
  rw [hstep]
  exact hnoted.looksOn hplace hturn (by simp) rfl rfl rfl

/-- The frame of the opening call is not written. -/
theorem sendsNot (h : Mirrors o f s c w) {id : Nat} (hplace : f.place = .sending .opening id)
    {message : Outgoing} {answers : List WriteAnswer} {writer : Option (Writer × Descriptor)}
    {failure : Failure} (hfailed : s.writeFailure? message answers = some failure)
    (hwriter : (s.write message answers).writer = writer.map Prod.fst) :
    Mirrors o { f with place := .unsent .opening id, failure := some failure }
      (s.step World.kernel o (.proceed 0 message answers false)) { c with writer } w := by
  have hstep : s.step World.kernel o (.proceed 0 message answers false)
      = ((s.write message answers).noteOpening .opening (some failure)).go 0 false := by
    simp only [ClientRun.step, ClientRun.proceed, h.place_zero, hplace, hfailed]
    rfl
  have hnoted : Mirrors o { f with failure := some failure }
      ((s.write message answers).noteOpening .opening (some failure)) { c with writer } w :=
    { h with writer := hwriter, failure := rfl }
  have hturn : ThreadPlace.turn s.shared.ledger 0 false (.sending .opening id)
      = { ledger := s.shared.ledger, place := .unsent .opening id } := rfl
  rw [hstep]
  exact hnoted.looksOn hplace hturn (by simp) rfl rfl rfl

/-- The opening call could not be sent, and leaves the table. -/
theorem drops (h : Mirrors o f s c w) {id : Nat} (hplace : f.place = .unsent .opening id) :
    Mirrors o { f with session := c.session.forget id, place := .openingFailed }
      (s.step World.kernel o .onward) { c with session := c.session.forget id } w := by
  have hstep : s.step World.kernel o .onward = s.go 0 true := by
    simp only [ClientRun.step, ClientRun.proceed, h.place_zero, hplace]
  have hforgotten : (s.shared.ledger.dropUnsent id).session = c.session.forget id :=
    congrArg (Session.forget · id) h.shared
  have hturn : ThreadPlace.turn s.shared.ledger 0 true (.unsent .opening id)
      = { ledger := s.shared.ledger.dropUnsent id, place := .openingFailed } := rfl
  have hgone := h.goes hplace hturn (by simp) rfl rfl (hforgotten ▸ h.unserved.forget id)
  rw [hstep]
  rwa [hforgotten] at hgone

/-- The thread finds that the opening call has ended. -/
theorem findsEnd (h : Mirrors o f s c w) {id : Nat} (hplace : f.place = .waiting .opening id)
    {cause : Failure} (hend : c.session.end? id = some (.failed cause))
    (hkind : cause.kind ≠ .backendRejected) :
    Mirrors o { f with place := .openingFailed, failure := some cause }
      (s.step World.kernel o .onward) c w := by
  have hfound : s.shared.ledger.session.end? id = some (.failed cause) := by rwa [h.shared]
  have hnotes : s.waitFailure? o id false = some cause := by
    rw [ClientRun.waitFailure?, hfound]
    simp only [openingCause, if_neg hkind]
  have hstep : s.step World.kernel o .onward = (s.noteOpening .opening (some cause)).go 0 true := by
    simp only [ClientRun.step, ClientRun.proceed, h.place_zero, hplace, hnotes]
    rfl
  have hturn : ThreadPlace.turn s.shared.ledger 0 true (.waiting .opening id)
      = { ledger := s.shared.ledger, place := .openingFailed } := by
    rw [ThreadPlace.turn, hfound]
    rfl
  have hnoted : Mirrors o { f with failure := some cause }
      (s.noteOpening .opening (some cause)) c w := { h with failure := rfl }
  rw [hstep]
  exact hnoted.looksOn hplace hturn (by simp) rfl rfl rfl

/-- The thread gives the opening call up, and tells the backend unless the session is over. -/
theorem givesUp (h : Mirrors o f s c w) {id : Nat} (hplace : f.place = .waiting .opening id)
    (hend : c.session.end? id = none) :
    Mirrors o
      { f with
        session := c.session.forget id
        place := if c.session.stage = .terminated then .openingFailed else .cancelling .opening
        failure := some o.openingLate }
      (s.step World.kernel o (.proceed 0 (.ok []) [] true))
      { c with session := c.session.forget id } w := by
  have hfound : s.shared.ledger.session.end? id = none := by rwa [h.shared]
  have hnotes : s.waitFailure? o id true = some o.openingLate := by
    rw [ClientRun.waitFailure?, hfound]
    rfl
  have hstep : s.step World.kernel o (.proceed 0 (.ok []) [] true)
      = (s.noteOpening .opening (some o.openingLate)).go 0 false := by
    simp only [ClientRun.step, ClientRun.proceed, h.place_zero, hplace, hnotes]
    rfl
  have hforgotten : (s.shared.ledger.giveUp id).session = c.session.forget id :=
    congrArg (Session.forget · id) h.shared
  have hturn : ThreadPlace.turn s.shared.ledger 0 false (.waiting .opening id)
      = { ledger := s.shared.ledger.giveUp id
          place := if c.session.stage = .terminated then .openingFailed
            else .cancelling .opening } := by
    rw [ThreadPlace.turn, hfound, h.shared]
    by_cases hover : c.session.stage = .terminated
    · simp only [hover, if_true, Bool.false_eq_true, if_false, CallPurpose.after]
    · simp only [hover, Bool.false_eq_true, if_false]
  have hnoted : Mirrors o { f with failure := some o.openingLate }
      (s.noteOpening .opening (some o.openingLate)) c w := { h with failure := rfl }
  have hgone := hnoted.goes hplace hturn (by simp) rfl (by split <;> rfl)
    (hforgotten ▸ h.unserved.forget id)
  rw [hstep]
  rwa [hforgotten] at hgone

/-- The backend is told that the opening call was given up, unless nothing can be sent. -/
theorem cancels (h : Mirrors o f s c w) (hplace : f.place = .cancelling .opening)
    {message : Outgoing} {answers : List WriteAnswer} {writer : Option (Writer × Descriptor)}
    (hwriter : (s.notify message answers).writer = writer.map Prod.fst) :
    Mirrors o { f with place := .openingFailed }
      (s.step World.kernel o (.proceed 0 message answers false)) { c with writer } w := by
  have hstep : s.step World.kernel o (.proceed 0 message answers false)
      = (s.notify message answers).go 0 true := by
    simp only [ClientRun.step, ClientRun.proceed, h.place_zero, hplace]
  obtain ⟨worn, wire, hnotify, -⟩ := s.exists_notify message answers
  have hnotified : Mirrors o f (s.notify message answers) { c with writer } w := by
    rw [hnotify] at hwriter ⊢
    exact { h with writer := hwriter }
  rw [hstep]
  exact hnotified.looksOn hplace rfl (by simp) rfl rfl rfl

/-! ### Starting -/

/-- Somebody starts a session that was started before. -/
theorem startsNot (h : Mirrors o f s c w) (hplace : f.place = .idle) {failure : Failure}
    (hrefusal : c.session.startRefusal = some failure) :
    Mirrors o { f with told := f.told ++ [(0, .startRefused failure)] }
      (s.step World.kernel o (.start 0)) c w := by
  have hrefused : s.shared.ledger.session.startRefusal = some failure := by rwa [h.shared]
  have hstep : s.step World.kernel o (.start 0) = s.reply 0 (.startRefused failure) := by
    simp only [ClientRun.step, if_pos (h.idle hplace), hrefused]
  rw [hstep]
  exact h.reply 0 _

/-- The thread begins to start the session. -/
theorem starts (h : Mirrors o f s c w) (hplace : f.place = .idle)
    (hrefusal : c.session.startRefusal = none) :
    Mirrors o { f with place := .launching } (s.step World.kernel o (.start 0)) c w := by
  have hrefused : s.shared.ledger.session.startRefusal = none := by rwa [h.shared]
  have hstep : s.step World.kernel o (.start 0)
      = { s with shared := { s.shared.put 0 .launching with lock := some 0 } } := by
    simp only [ClientRun.step, h.idle hplace, hrefused, and_self, if_true, SessionRun.step]
  rw [hstep]
  exact
    { h with
      place := by
        show Function.update s.shared.place 0 .launching = _
        rw [h.place, Function.update_idem]
      lock := rfl }

/-- The backend cannot be launched. -/
theorem launchesNot (h : Mirrors o f s c w) (hplace : f.place = .launching) {failure : Failure}
    (hfailed : (c.keeper.spawn World.kernel o.plan w).1.1 = .error failure) :
    Mirrors o
      { f with
        session := c.session.launchFailed
        place := .idle
        told := f.told ++ [(0, .started (.error failure))] }
      (s.step World.kernel o .onward)
      { c with
        keeper := (c.keeper.spawn World.kernel o.plan w).1.2
        session := c.session.launchFailed }
      (c.keeper.spawn World.kernel o.plan w).2 := by
  obtain ⟨hkept, hanswer⟩ := h.keep (.spawn o.plan)
  have hwhy : (s.keeping.answer World.kernel (.spawn o.plan)).launchFailure? = some failure := by
    rw [hanswer]
    show failure? (c.keeper.spawn World.kernel o.plan w).1.1 = some failure
    rw [hfailed]
    rfl
  have hstep : s.step World.kernel o .onward
      = ((s.keep World.kernel (.spawn o.plan)).go 0 false).reply 0 (.started (.error failure)) := by
    simp only [ClientRun.step, ClientRun.proceed, h.place_zero, hplace, ClientRun.launch, hwhy]
  have hturn : ThreadPlace.turn s.shared.ledger 0 false .launching
      = { ledger := { s.shared.ledger with session := c.session.launchFailed }
          place := .idle
          releases := true } := by
    rw [ThreadPlace.turn, h.shared]
    rfl
  rw [hstep]
  exact (hkept.goes hplace hturn (by simp) rfl rfl
    ⟨by simp [Session.launchFailed], h.unserved.ends⟩).reply 0 _

/-- The backend is launched, and its streams are taken over. -/
theorem launches (h : Mirrors o f s c w) (hplace : f.place = .launching)
    (hlaunched : (c.keeper.spawn World.kernel o.plan w).1.1 = .ok ()) (d : Descriptor) :
    Mirrors o { f with session := { c.session with connected := true }, place := .launched }
      (s.step World.kernel o .onward)
      { c with
        keeper := { (c.keeper.spawn World.kernel o.plan w).1.2 with
          input := none, output := none, errors := none }
        writer := some ({}, d)
        session := { c.session with connected := true } }
      (c.keeper.spawn World.kernel o.plan w).2 := by
  obtain ⟨hkept, hanswer⟩ := h.keep (.spawn o.plan)
  have hwhy : (s.keeping.answer World.kernel (.spawn o.plan)).launchFailure? = none := by
    rw [hanswer]
    show failure? (c.keeper.spawn World.kernel o.plan w).1.1 = none
    rw [hlaunched]
    rfl
  obtain ⟨htook, -⟩ := hkept.keep (.take .input)
  obtain ⟨htook, -⟩ := htook.keep (.take .output)
  obtain ⟨htook, -⟩ := htook.keep (.take .errors)
  have hequipped : Mirrors o f
      { (((s.keep World.kernel (.spawn o.plan)).keep World.kernel (.take .input)).keep
          World.kernel (.take .output)).keep World.kernel (.take .errors) with writer := some {} }
      { c with
        keeper := { (c.keeper.spawn World.kernel o.plan w).1.2 with
          input := none, output := none, errors := none }
        writer := some ({}, d) }
      (c.keeper.spawn World.kernel o.plan w).2 := { htook with writer := rfl }
  have hstep : s.step World.kernel o .onward
      = { (((s.keep World.kernel (.spawn o.plan)).keep World.kernel (.take .input)).keep
            World.kernel (.take .output)).keep World.kernel (.take .errors) with
          writer := some {} }.go 0 true := by
    simp only [ClientRun.step, ClientRun.proceed, h.place_zero, hplace, ClientRun.launch, hwhy]
  have hturn : ThreadPlace.turn s.shared.ledger 0 true .launching
      = { ledger := { s.shared.ledger with session := { c.session with connected := true } }
          place := .launched } := by
    rw [ThreadPlace.turn, h.shared]
    rfl
  rw [hstep]
  exact hequipped.goes hplace hturn (by simp) rfl rfl ⟨h.unserved.unready, h.unserved.ends⟩

/-- The session begins, and the reader runs. -/
theorem connects (h : Mirrors o f s c w) (hplace : f.place = .launched)
    (output errors : Descriptor) :
    Mirrors o
      { f with
        session := c.session.connect
        place := .calling .opening
        reader := .reading
        listens := true
        logs := true }
      (s.step World.kernel o .onward)
      { c with output := some output, errors := some errors, session := c.session.connect } w := by
  have hstep : s.step World.kernel o .onward = { s with errors := .running }.go 0 true := by
    simp only [ClientRun.step, ClientRun.proceed, h.place_zero, hplace]
  have hruns : Mirrors o { f with listens := true, logs := true } { s with errors := .running }
      { c with output := some output, errors := some errors } w :=
    { h with
      listens := rfl
      logs := fun _ => rfl
      errors := iff_of_true rfl rfl }
  have hturn : f.place.turn s.shared.ledger 0 true
      = { ledger := { s.shared.ledger with session := c.session.connect }
          place := .calling .opening } := by
    rw [hplace, ThreadPlace.turn, h.shared]
  have hgone := hruns.takesTurn hturn (by rw [hplace]; rfl) rfl
    ⟨by simp [Session.connect], h.unserved.ends⟩
  rw [hstep]
  rwa [if_pos hplace] at hgone

/-! ### Ending the session -/

/-- The opening has failed, and the session is ended. -/
theorem endsOpening (h : Mirrors o f s c w) (hplace : f.place = .openingFailed) :
    Mirrors o
      { f with
        session := (c.session.terminate startupFailed false).2
        place := .stopping
        chores := Chore.halt }
      (s.step World.kernel o .onward)
      { c with session := (c.session.terminate startupFailed false).2 } w := by
  have hstep : s.step World.kernel o .onward = { s with chores := Chore.halt }.go 0 true := by
    simp only [ClientRun.step, ClientRun.proceed, h.place_zero, hplace]
  have hover : (s.shared.ledger.terminate startupFailed false).session
      = (c.session.terminate startupFailed false).2 :=
    congrArg (fun session => (Session.terminate session startupFailed false).2) h.shared
  have hturn : ThreadPlace.turn s.shared.ledger 0 true .openingFailed
      = { ledger := s.shared.ledger.terminate startupFailed false, place := .stopping } := rfl
  have hnext : Mirrors o { f with chores := Chore.halt } { s with chores := Chore.halt } c w :=
    { h with chores := rfl }
  have hgone := hnext.goes hplace hturn (by simp) rfl rfl
    (hover ▸ h.unserved.terminate (by decide) false)
  rw [hstep]
  rwa [hover] at hgone

/-- A session that was never started is shut down. -/
theorem shutsUnstarted (h : Mirrors o f s c w) (hplace : f.place = .idle)
    (hfresh : c.session.stage = .unstarted) :
    Mirrors o
      { f with session := c.session.beginShutdown.2, told := f.told ++ [(0, .shutDown)] }
      (s.step World.kernel o (.shutdown 0)) { c with session := c.session.beginShutdown.2 } w := by
  have hstep : s.step World.kernel o (.shutdown 0)
      = { s with shared := { s.shared with
            ledger := { s.shared.ledger with session := c.session.beginShutdown.2 } } }.reply 0
          .shutDown := by
    simp only [ClientRun.step, ClientRun.session, h.idle hplace, and_self, if_true,
      SessionRun.step, h.shared, hfresh]
  have hover : c.session.beginShutdown.2.Unserved := by
    rw [Session.beginShutdown, if_pos hfresh]
    exact ⟨by simp, h.unserved.ends⟩
  have hnext : Mirrors o { f with session := c.session.beginShutdown.2 }
      { s with shared := { s.shared with
          ledger := { s.shared.ledger with session := c.session.beginShutdown.2 } } }
      { c with session := c.session.beginShutdown.2 } w :=
    { h with session := rfl, shared := rfl, unserved := hover }
  rw [hstep]
  exact hnext.reply 0 .shutDown

/-- The thread begins to shut the session down. -/
theorem shuts (h : Mirrors o f s c w) (hplace : f.place = .idle)
    (hbegun : c.session.stage ≠ .unstarted) :
    Mirrors o { f with place := .turningOff c.session.stage }
      (s.step World.kernel o (.shutdown 0)) c w := by
  have hstep : s.step World.kernel o (.shutdown 0)
      = { s with shared := { s.shared.put 0 (.turningOff c.session.stage) with
            lock := some 0 } } := by
    simp only [ClientRun.step, ClientRun.session, h.idle hplace, and_self, if_true,
      SessionRun.step, h.shared, if_neg hbegun]
  rw [hstep]
  exact
    { h with
      place := by
        show Function.update s.shared.place 0 _ = _
        rw [h.place, Function.update_idem]
      lock := rfl }

/-- Somebody has begun to shut the session down before. -/
theorem turnsOffNot (h : Mirrors o f s c w) {stage : Stage} (hplace : f.place = .turningOff stage)
    (hturn : c.session.beginShutdown = (.begun, c.session)) :
    Mirrors o { f with place := .idle, told := f.told ++ [(0, .shutDown)] }
      (s.step World.kernel o .onward) c w := by
  have hstep : s.step World.kernel o .onward = (s.go 0 true).reply 0 .shutDown := by
    simp only [ClientRun.step, ClientRun.proceed, h.place_zero, hplace, ClientRun.turnOff,
      ClientRun.session, h.shared, hturn]
  have hleaves : ThreadPlace.turn s.shared.ledger 0 true (.turningOff stage)
      = { ledger := s.shared.ledger, place := .idle, releases := true } := by
    rw [ThreadPlace.turn, h.shared, hturn, ← h.shared]
  rw [hstep]
  exact (h.looksOn hplace hleaves (by simp) rfl rfl rfl).reply 0 .shutDown

/-- The session is to be ended. -/
theorem turnsOff (h : Mirrors o f s c w) {stage found : Stage}
    (hplace : f.place = .turningOff stage) (hstage : stage ≠ .ready)
    (hturn : c.session.beginShutdown
      = (.fromStage found, { c.session with shuttingDown := true })) :
    Mirrors o
      { f with session := { c.session with shuttingDown := true }, place := .ending }
      (s.step World.kernel o .onward)
      { c with session := { c.session with shuttingDown := true } } w := by
  have hstep : s.step World.kernel o .onward = s.go 0 true := by
    simp only [ClientRun.step, ClientRun.proceed, h.place_zero, hplace, ClientRun.turnOff,
      ClientRun.session, h.shared, hturn]
  have hgoes : ThreadPlace.turn s.shared.ledger 0 true (.turningOff stage)
      = { ledger := { s.shared.ledger with session := { c.session with shuttingDown := true } }
          place := .ending } := by
    rw [ThreadPlace.turn, h.shared, hturn]
    simp only [if_neg hstage]
  rw [hstep]
  exact h.goes hplace hgoes (by simp) rfl rfl ⟨h.unserved.unready, h.unserved.ends⟩

/-- The session is ended because it is shut down. -/
theorem endsSession (h : Mirrors o f s c w) (hplace : f.place = .ending) :
    Mirrors o
      { f with
        session := (c.session.terminate shutDown false).2
        place := .stopping
        chores := Chore.farewell }
      (s.step World.kernel o .onward)
      { c with session := (c.session.terminate shutDown false).2 } w := by
  have hstep : s.step World.kernel o .onward = { s with chores := Chore.farewell }.go 0 true := by
    simp only [ClientRun.step, ClientRun.proceed, h.place_zero, hplace]
  have hover : (s.shared.ledger.terminate shutDown false).session
      = (c.session.terminate shutDown false).2 :=
    congrArg (fun session => (Session.terminate session shutDown false).2) h.shared
  have hturn : ThreadPlace.turn s.shared.ledger 0 true .ending
      = { ledger := s.shared.ledger.terminate shutDown false, place := .stopping } := rfl
  have hnext : Mirrors o { f with chores := Chore.farewell }
      { s with chores := Chore.farewell } c w := { h with chores := rfl }
  have hgone := hnext.goes hplace hturn (by simp) rfl rfl
    (hover ▸ h.unserved.terminate (by decide) false)
  rw [hstep]
  rwa [hover] at hgone

/-! ### Closing the session -/

theorem step_chore (h : Mirrors o f s c w) (hplace : f.place = .stopping) {chore : Chore}
    {rest : List Chore} (hchores : f.chores = chore :: rest) (hcan : ¬s.Blocked chore) :
    s.step World.kernel o .onward
      = { s.perform World.kernel o chore with chores := rest } := by
  simp only [ClientRun.step, ClientRun.proceed, h.place_zero, hplace, ClientRun.tidy,
    h.chores.trans hchores, if_neg hcan]

/-- The thread closes the writer. -/
theorem closes (h : Mirrors o f s c w) (hplace : f.place = .stopping) {rest : List Chore}
    (hchores : f.chores = .closeWriter :: rest) :
    Mirrors o { f with chores := rest } (s.step World.kernel o .onward)
      { c with writer := c.writer.map fun (writer, d) => (writer.close, d) } w := by
  rw [h.step_chore hplace hchores (by exact id)]
  exact
    { h with
      writer := by
        show s.writer.map _ = _
        rw [h.writer, Option.map_map, Option.map_map]
        rfl
      chores := rfl }

/-- The thread makes the backend go away. -/
theorem sendsAway (h : Mirrors o f s c w) (hplace : f.place = .stopping) {rest : List Chore}
    (hchores : f.chores = .expel :: rest) :
    let gone := c.keeper.terminate World.kernel o.shutdownGrace w
    Mirrors o { f with chores := rest } (s.step World.kernel o .onward)
      { c with keeper := gone.1.2 } gone.2 := by
  intro gone
  obtain ⟨hkept, -⟩ := h.keep (.terminate o.shutdownGrace)
  rw [h.step_chore hplace hchores (by exact id)]
  exact { hkept with chores := rfl }

/-- Those who run beside the thread are asked to stop. -/
theorem asks (h : Mirrors o f s c w) (hplace : f.place = .stopping)
    (hchores : f.chores = Chore.halt) :
    Mirrors o { f with chores := [.joinReader, .joinErrors], asked := true }
      ((s.step World.kernel o .onward).step World.kernel o .onward) c w := by
  have hfirst := h.step_chore hplace hchores (by exact id)
  have hnext : Mirrors o { f with chores := [.askErrors, .joinReader, .joinErrors] }
      (s.step World.kernel o .onward) c w := by
    rw [hfirst]
    exact { h with chores := rfl, asked := fun hasked => ⟨rfl, (h.asked hasked).2⟩ }
  rw [hnext.step_chore hplace rfl (by exact id), hfirst]
  exact { h with chores := rfl, asked := fun _ => ⟨rfl, rfl⟩ }

/-- Nobody runs beside the thread any more. -/
theorem joins (h : Mirrors o f s c w) (hplace : f.place = .stopping)
    (hchores : f.chores = [.joinReader, .joinErrors])
    (hreader : f.reader = .absent ∨ f.reader = .stopped) (htask : f.task = .nothing)
    (hlogs : f.logs = false) :
    Mirrors o { f with chores := [] }
      ((s.step World.kernel o .onward).step World.kernel o .onward) c w := by
  have hgone : s.ReaderGone := ⟨by rwa [h.reader], h.task.trans htask⟩
  have hquiet : s.errors ≠ .running := by
    intro hrunning
    have hlogs' := h.logs (h.errors.mp hrunning)
    simp [hlogs] at hlogs'
  have hfirst := h.step_chore hplace hchores (by exact not_not_intro hgone)
  have hnext : Mirrors o { f with chores := [.joinErrors] }
      (s.step World.kernel o .onward) c w := by
    rw [hfirst]
    exact { h with chores := rfl }
  rw [hnext.step_chore hplace rfl (by rw [hfirst]; exact hquiet), hfirst]
  exact { h with chores := rfl }

/-- The thread has nothing more to do, and leaves. -/
theorem leaves (h : Mirrors o f s c w) (hplace : f.place = .stopping) (hchores : f.chores = []) :
    Mirrors o { f with place := .idle, failure := none, told := f.told ++ [(0, f.lastWord)] }
      (s.step World.kernel o .onward) c w := by
  have hword : s.lastWord = f.lastWord := by
    cases hf : f.failure <;> simp only [ClientRun.lastWord, Standing.lastWord, h.failure, hf]
  have hstep : s.step World.kernel o .onward
      = { (s.go 0 true).reply 0 f.lastWord with opening := none } := by
    simp only [ClientRun.step, ClientRun.proceed, h.place_zero, hplace, ClientRun.tidy,
      h.chores.trans hchores, hword]
  have hturn : ThreadPlace.turn s.shared.ledger 0 true .stopping
      = { ledger := s.shared.ledger, place := .idle, releases := true } := rfl
  have hgone := (h.looksOn hplace hturn (by simp) rfl rfl rfl).reply 0 f.lastWord
  rw [hstep]
  exact { hgone with failure := rfl }

/-! ### Asking for something else -/

/-- Whoever asks for something is refused. -/
theorem refuses (h : Mirrors o f s c w) {asking : Asking} {failure : Failure}
    (hrefusal : asking.refusal c.session = some failure) :
    Mirrors o { f with told := f.told ++ [(1, .refused asking failure)] }
      (s.step World.kernel o (.ask 1 asking)) c w := by
  have hrefused : asking.refusal s.shared.ledger.session = some failure := by rwa [h.shared]
  have hidle : s.shared.place 1 = .idle := by rw [h.place, Function.update_of_ne (by decide)]
  have hstep : s.step World.kernel o (.ask 1 asking) = s.reply 1 (.refused asking failure) := by
    simp only [ClientRun.step, hidle, if_true, hrefused]
  rw [hstep]
  exact h.reply 1 _

end Mirrors

end AnalyzerBridge

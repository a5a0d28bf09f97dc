/-
What a client does is one of the runs that it could be part of.

`Enacts` says of an action of a client that runs that a run of `ClientRun` leads from where the
client stands to where the action leaves it.  It is proved of one action after the other, in the
order in which they call each other, and the moves are made where the action does the same thing:
what the client logs and how long it waits are moves of the world, and all others are moves of the
thread and of those who run beside it.

An action that neither starts the session nor ends it changes a few parts of where a client stands;
what is said of it lists them, so that everything else stays.
-/
import AnalyzerBridge.Proofs.Session.ErrorLines
import AnalyzerBridge.Proofs.Session.Mirror

namespace AnalyzerBridge

open Host (World Descriptor Time)
open AnalyzerBridge.Frame (Writer WriteAnswer ReadFailure)
open ClientRun (IsSilent)

/-! ### What a client does by itself -/

namespace Client

/-- A look at the backend's errors changes nothing but what is left of them. -/
theorem exists_logErrors (c : Client) (w : World) : ∃ errors lines w',
    (logErrors.run c).run w = (((), { c with errors, lines }), w')
      ∧ (errors = c.errors ∨ errors = none) := by
  obtain hnone | ⟨d, hsome⟩ := Option.eq_none_or_eq_some c.errors
  · refine ⟨c.errors, c.lines, w, ?_, .inl rfl⟩
    cases c
    cases hnone
    rfl
  · have hrun := logErrors_run (w := w) hsome
    cases hover : w.isOver d with
    | true =>
        rw [look_of_over hsome hover] at hrun
        exact ⟨none, {}, _, hrun, .inr rfl⟩
    | false =>
        rw [look_of_open hsome hover] at hrun
        exact ⟨c.errors, _, _, hrun, .inl rfl⟩

theorem exists_note (line : Bytes) (c : Client) (w : World) : ∃ errors lines w',
    ((note line).run c).run w = (((), { c with errors, lines }), w')
      ∧ (errors = c.errors ∨ errors = none) := by
  obtain ⟨errors, lines, w', hrun, herrors⟩ := c.exists_logErrors w
  refine ⟨errors, lines, (World.note line w').2, ?_, herrors⟩
  rw [note, run_bind_of hrun]
  rfl

theorem stopErrors_eq : stopErrors = (do
    logErrors
    match (← get).errors with
    | none => pure ()
    | some d => endErrors d) := by
  refine bind_congr fun _ => bind_congr fun c => ?_
  cases c.errors with
  | none => rfl
  | some d => simp only [endErrors, noteEach, bind_assoc, pure_bind]

theorem exists_closeWriter (c : Client) (w : World) : ∃ w', (closeWriter.run c).run w
    = (((), { c with writer := c.writer.map fun (writer, d) => (writer.close, d) }), w') := by
  obtain hnone | ⟨⟨⟨isOpen, broken⟩, d⟩, hsome⟩ := Option.eq_none_or_eq_some c.writer
  · refine ⟨w, ?_⟩
    cases c
    cases hnone
    rfl
  · cases c
    cases hsome
    cases isOpen with
    | true => exact ⟨_, rfl⟩
    | false => exact ⟨_, rfl⟩

/-- What the descriptor does decides what becomes of a frame. -/
theorem exists_writeMessage {c : Client} {writer : Writer} {d : Descriptor}
    (hwriter : c.writer = some (writer, d)) (payload : Bytes) (w : World) : ∃ answers w',
    ((writeMessage payload).run c).run w
      = (((writer.writeMessage answers payload).failure,
          { c with writer := some ((writer.writeMessage answers payload).writer, d) }), w') := by
  cases c
  cases hwriter
  cases haccepts : writer.accepts with
  | true =>
      obtain ⟨⟨result, w'⟩, hwrite⟩ :
          ∃ done, (World.write d (Frame.encode payload)).run w = done := ⟨_, rfl⟩
      simp only [writeMessage, bind_pure_comp, StateT.run_bind, StateT.run_get, pure_bind,
        haccepts, if_true, liftM_bind, bind_assoc, StateT.run_monadLift, monadLift_self,
        StateT.run_map, StateT.run_modify, map_pure, Functor.map_map, bind_map_left, hwrite]
      cases result with
      | ok n => exact ⟨[], w', rfl⟩
      | error e => exact ⟨[.failed e.message], w', rfl⟩
  | false =>
      simp only [writeMessage, bind_pure_comp, StateT.run_bind, StateT.run_get, pure_bind,
        haccepts, Bool.false_eq_true, if_false, liftM_pure, StateT.run_map, StateT.run_modify,
        map_pure, StateT.run_pure]
      exact ⟨[], w, rfl⟩

/-- What the reader will come upon is not that it was asked to stop. -/
theorem nextFailure_ne_stopped {r : Frame.Reader} {now time : Time}
    {arrivals : List (Time × Bytes)} {ends : Option Time} {failure : ReadFailure}
    (h : nextFailure r now arrivals ends = some (time, failure)) : failure ≠ .stopped := by
  simp only [nextFailure] at h
  generalize readToFailure _ _ _ = read at h
  obtain ⟨found, _, rest⟩ := read
  by_cases hstop : found = .stopped
  · simp [hstop] at h
  · rw [if_neg hstop] at h
    by_cases hlast : comesAtEnd found = true
    · rw [if_pos hlast] at h
      obtain ⟨_, -, heq⟩ := Option.map_eq_some_iff.mp h
      rwa [← (Prod.mk.inj heq).2]
    · rw [if_neg hlast] at h
      rwa [← (Prod.mk.inj (Option.some.inj h)).2]

theorem exists_awaited (c : Client) (w : World) : ∃ found,
    (awaited.run c).run w = ((found, c), w)
      ∧ ∀ time failure, found = some (time, failure) →
        failure ≠ .stopped ∧ c.output.isSome = true := by
  obtain hnone | ⟨d, hsome⟩ := Option.eq_none_or_eq_some c.output
  · refine ⟨none, ?_, by simp⟩
    cases c
    cases hnone
    rfl
  · refine ⟨nextFailure c.reader w.now (w.pending d).1 (w.pending d).2, ?_, ?_⟩
    · cases c
      cases hsome
      rfl
    · intro time failure hnext
      exact ⟨nextFailure_ne_stopped hnext, by rw [hsome]; rfl⟩

end Client

/-- A message is written, or is not, as it is by the client that is shared. -/
theorem Mirrors.exists_write {o : ClientOptions} {f : Standing} {s : ClientRun World} {c : Client}
    {w : World} (h : Mirrors o f s c w) (payload : Bytes) : ∃ answers writer w',
    ((Client.writeMessage payload).run c).run w
        = ((s.writeFailure? (.ok payload) answers, { c with writer }), w')
      ∧ (s.write (.ok payload) answers).writer = writer.map Prod.fst := by
  obtain hnone | ⟨⟨writer, d⟩, hsome⟩ := Option.eq_none_or_eq_some c.writer
  · have hwriter : s.writer = none := by rw [h.writer, hnone]; rfl
    refine ⟨[], none, w, ?_, ?_⟩
    · rw [ClientRun.writeFailure?, ClientRun.written?, hwriter]
      cases c
      cases hnone
      rfl
    · rw [ClientRun.write, ClientRun.written?, hwriter]
      rfl
  · have hwriter : s.writer = some writer := by rw [h.writer, hsome]; rfl
    obtain ⟨answers, w', hrun⟩ := Client.exists_writeMessage hsome payload w
    refine ⟨answers, some ((writer.writeMessage answers payload).writer, d), w', ?_, ?_⟩
    · rw [hrun, ClientRun.writeFailure?, ClientRun.written?, hwriter]
      rfl
    · rw [ClientRun.write, ClientRun.written?, hwriter]
      rfl

/-! ### Moves that answer nothing -/

/-- The opening call is not answered by the move. -/
def ClientMove.isSilent : ClientMove World → Bool
  | .arrives (.reply id _) => id != 1
  | _ => true

namespace ClientRun.IsSilent

variable {move : ClientMove World} {moves more : List (ClientMove World)}

theorem nil : IsSilent ([] : List (ClientMove World)) := fun _ => List.not_mem_nil

theorem cons (h : IsSilent moves) (hmove : move.isSilent = true) : IsSilent (move :: moves) := by
  intro reply hin
  rcases List.mem_cons.mp hin with rfl | hlater
  · simp [ClientMove.isSilent] at hmove
  · exact h reply hlater

theorem append (h : IsSilent moves) (hmore : IsSilent more) : IsSilent (moves ++ more) :=
  fun reply hin => (List.mem_append.mp hin).elim (h reply) (hmore reply)

end ClientRun.IsSilent

/-! ### Actions and runs -/

/-- What an action does to a client that runs is done by a run from where the client stands, in
which no call is answered. -/
def Enacts {α : Type} (o : ClientOptions) (s : ClientRun World) (act : ClientM α) (c : Client)
    (w : World) (Q : α → Standing → Prop) : Prop :=
  ∃ moves f, IsSilent moves
    ∧ Mirrors o f (s.run World.kernel o moves) ((act.run c).run w).1.2 ((act.run c).run w).2
    ∧ Q ((act.run c).run w).1.1 f

namespace Enacts

variable {α β : Type} {o : ClientOptions} {f : Standing} {s : ClientRun World} {c : Client}
  {w : World} {Q : α → Standing → Prop}

theorem done {a : α} (h : Mirrors o f s c w) (hQ : Q a f) : Enacts o s (pure a) c w Q :=
  ⟨[], f, .nil, h, hQ⟩

/-- A move is made first. -/
theorem move {act : ClientM α} (move : ClientMove World) (hsilent : move.isSilent = true)
    (h : Enacts o (s.step World.kernel o move) act c w Q) : Enacts o s act c w Q := by
  obtain ⟨moves, f, hmoves, hm, hQ⟩ := h
  exact ⟨move :: moves, f, hmoves.cons hsilent, hm, hQ⟩

/-- One action is taken after the other. -/
theorem bind {act : ClientM α} {next : α → ClientM β} {R : β → Standing → Prop}
    (h : Enacts o s act c w Q)
    (hnext : ∀ a f s c w, Mirrors o f s c w → Q a f → Enacts o s (next a) c w R) :
    Enacts o s (act >>= next) c w R := by
  obtain ⟨moves, f, hmoves, hm, hQ⟩ := h
  obtain ⟨more, g, hmore, hm', hR⟩ := hnext _ f _ _ _ hm hQ
  refine ⟨moves ++ more, g, hmoves.append hmore, ?_, hR⟩
  rw [ClientRun.run_append]
  exact hm'

/-- More moves are made when an action is over. -/
theorem andThen {act : ClientM α} {R : α → Standing → Prop} (h : Enacts o s act c w Q)
    (hnext : ∀ a f s c w, Mirrors o f s c w → Q a f → Enacts o s (pure a) c w R) :
    Enacts o s act c w R := by
  have hboth := h.bind hnext
  rwa [bind_pure] at hboth

theorem mono {act : ClientM α} {R : α → Standing → Prop} (h : Enacts o s act c w Q)
    (hQR : ∀ a f, Q a f → R a f) : Enacts o s act c w R :=
  h.andThen fun _ _ _ _ _ hm hQ => .done hm (hQR _ _ hQ)

/-- An action whose outcome is known is taken. -/
theorem of_run_bind {act : ClientM β} {next : β → ClientM α} {b : β} {c' : Client}
    {w' : World} (hrun : (act.run c).run w = ((b, c'), w')) (h : Enacts o s (next b) c' w' Q) :
    Enacts o s (act >>= next) c w Q := by
  obtain ⟨moves, f, hmoves, hm, hQ⟩ := h
  refine ⟨moves, f, hmoves, ?_, ?_⟩
  · rw [Client.run_bind_of hrun]
    exact hm
  · rw [Client.run_bind_of hrun]
    exact hQ

theorem of_run {act : ClientM α} {a : α} {c' : Client} {w' : World}
    (hrun : (act.run c).run w = ((a, c'), w')) (h : Enacts o s (pure a) c' w' Q) :
    Enacts o s act c w Q := by
  rw [← bind_pure act]
  exact of_run_bind hrun h

/-! ### Steps of an action

All of these hold by what the actions of a state monad are. -/

section Steps

variable {next : β → ClientM α}

theorem of_get {next : Client → ClientM α} :
    Enacts o s (get >>= next) c w Q ↔ Enacts o s (next c) c w Q := Iff.rfl

theorem of_set {c' : Client} {next : PUnit → ClientM α} :
    Enacts o s (set c' >>= next) c w Q ↔ Enacts o s (next ⟨⟩) c' w Q := Iff.rfl

theorem of_modify {change : Client → Client} {next : PUnit → ClientM α} :
    Enacts o s (modify change >>= next) c w Q ↔ Enacts o s (next ⟨⟩) (change c) w Q := Iff.rfl

theorem of_lastModify {change : Client → Client} {Q : PUnit → Standing → Prop} :
    Enacts o s (modify change) c w Q ↔ Enacts o s (pure ⟨⟩) (change c) w Q := Iff.rfl

theorem of_world {next : World → ClientM α} :
    Enacts o s (getThe World >>= next) c w Q ↔ Enacts o s (next w) c w Q := Iff.rfl

theorem of_lift {act : StateM World β} :
    Enacts o s (liftM act >>= next) c w Q ↔ Enacts o s (next (act w).1) c (act w).2 Q := Iff.rfl

theorem of_keep {act : Supervisor → StateM World (β × Supervisor)} :
    Enacts o s (Client.keep act >>= next) c w Q
      ↔ Enacts o s (next (act c.keeper w).1.1) { c with keeper := (act c.keeper w).1.2 }
        (act c.keeper w).2 Q := Iff.rfl

theorem of_conclude {result : Except Failure Unit} {next : Except Failure Unit → ClientM α} :
    Enacts o s (Client.conclude result >>= next) c w Q
      ↔ Enacts o s (next result) { c with opening := none, opened := some result } w Q := Iff.rfl

end Steps

/-! ### The log -/

/-- What is left of the backend's errors after a look at them changes nothing else. -/
theorem looked (h : Mirrors o f s c w) {errors : Option Descriptor} (lines : ErrorLines)
    (w' : World) (herrors : errors = c.errors ∨ errors = none) {act : ClientM α}
    (hnext : ∀ s, Mirrors o f s { c with errors, lines } w' →
      Enacts o s act { c with errors, lines } w' Q) :
    Enacts o s act { c with errors, lines } w' Q := by
  refine .move (.elsewhere fun _ => w') rfl ?_
  have hlater := h.elsewhere w'
  rcases herrors with rfl | rfl
  · exact hnext _ (hlater.keepsLine lines)
  · have hended := hlater.errorsEnd false (by simp) lines
    exact .move (.errorsEnd false) rfl (hnext _ { hended with logs := by simp })

theorem logErrors (h : Mirrors o f s c w) : Enacts o s Client.logErrors c w fun _ g => g = f := by
  obtain ⟨errors, lines, w', hrun, herrors⟩ := c.exists_logErrors w
  exact .of_run hrun (looked h lines w' herrors fun _ hm => .done hm rfl)

theorem note (h : Mirrors o f s c w) (line : Bytes) :
    Enacts o s (Client.note line) c w fun _ g => g = f := by
  obtain ⟨errors, lines, w', hrun, herrors⟩ := c.exists_note line w
  exact .of_run hrun (looked h lines w' herrors fun _ hm => .done hm rfl)

theorem stopErrors (h : Mirrors o f s c w) (hasked : f.asked = true) :
    Enacts o s Client.stopErrors c w fun _ g => g = { f with logs := false } := by
  rw [Client.stopErrors_eq]
  refine (logErrors h).bind ?_
  rintro _ g s c w hlogged rfl
  rw [of_get]
  cases herrors : c.errors with
  | none =>
      have hquiet : Mirrors o { g with logs := false } s c w :=
        { hlogged with logs := by simp [herrors] }
      exact .done hquiet rfl
  | some d =>
      have hended := (hlogged.elsewhere (World.close d (w.noting c.lines.finish)).2).errorsEnd true
        (fun _ => hasked) {}
      refine .of_run (Client.endErrors_run d c w) ?_
      refine .move (.elsewhere fun _ => (World.close d (w.noting c.lines.finish)).2) rfl ?_
      exact .move (.errorsEnd true) rfl (.done hended rfl)

/-- The session is ended by a move that was just made. -/
theorem terminate {cause : Failure} {record : Bool}
    (h : Mirrors o f s { c with session := (c.session.terminate cause record).2 } w) :
    Enacts o s (Client.terminate cause record) c w fun _ g => g = f := by
  unfold Client.terminate
  rw [of_get]
  dsimp only
  rw [of_modify]
  by_cases hlive : (c.session.terminate cause record).1 = true
  · rw [if_pos hlive]
    exact note h _
  · rw [if_neg hlive]
    exact done h rfl

/-! ### The reader -/

/-- What runs beside the thread: the reader, or nobody, but for the reader's last task. -/
inductive Beside (f : Standing) : Prop
  | reading (reader : f.reader = .reading) (task : f.task = .nothing) (listens : f.listens = true)
  | gone (reader : f.reader = .absent ∨ f.reader = .stopped)
      (task : f.task = .nothing ∨ f.task = .expel) (listens : f.listens = false)

theorem Beside.congr {g : Standing} (h : Beside f) (hreader : g.reader = f.reader)
    (htask : g.task = f.task) (hlistens : g.listens = f.listens) : Beside g := by
  cases h with
  | reading reader task listens =>
      exact .reading (hreader.trans reader) (htask.trans task) (hlistens.trans listens)
  | gone reader task listens =>
      exact .gone (by rwa [hreader]) (by rwa [htask]) (hlistens.trans listens)

/-- The reader stops. -/
theorem readerFails (h : Mirrors o f s c w) {failure : ReadFailure} (hreader : f.reader = .reading)
    (htask : f.task = .nothing) (hstopped : failure = .stopped → f.asked = true) :
    Enacts o s (Client.readerFails failure) c w fun _ g => ∃ session task,
      g = { f with session, reader := .stopped, task, listens := false }
        ∧ (task = .nothing ∨ task = .expel) := by
  unfold Client.readerFails
  rw [of_modify]
  have hdeaf : Mirrors o { f with listens := false } s { c with output := none } w :=
    { h with listens := rfl }
  by_cases hkind : failure.kind = .framing
  · rw [if_pos hkind]
    refine (note hdeaf _).bind ?_
    rintro _ _ s c w hnoted rfl
    refine .move (.fails (.stream failure)) rfl ?_
    refine (terminate (hnoted.breaks hreader htask hkind)).bind ?_
    rintro _ _ s c w hbroken rfl
    obtain ⟨w', hrun⟩ := c.exists_closeWriter w
    have hclosed := (hbroken.closesWriter rfl).elsewhere w'
    refine .of_run_bind hrun (.move .readerGoesOn rfl (.move (.elsewhere fun _ => w') rfl ?_))
    rw [of_lastModify]
    exact .done hclosed ⟨_, _, rfl, .inr rfl⟩
  · rw [if_neg hkind, of_get]
    refine .move (.fails (.stream failure)) rfl ?_
    have hended := hdeaf.ends hreader htask hkind hstopped
    cases hdown : c.session.shuttingDown with
    | true =>
        simp only [hdown, if_true] at hended ⊢
        exact .done hended ⟨_, _, rfl, .inl rfl⟩
    | false =>
        simp only [hdown, Bool.false_eq_true, if_false] at hended ⊢
        refine (note hended _).bind ?_
        rintro _ _ s c w hnoted rfl
        have hlooked := hnoted.looks rfl
        rw [of_keep, of_get]
        refine .move .readerGoesOn rfl ?_
        generalize c.keeper.isAlive World.kernel w = asked at *
        obtain ⟨⟨alive, keeper⟩, w'⟩ := asked
        have hreported := hlooked.reports rfl rfl (by simp [backendExited])
        refine .move .readerGoesOn rfl ?_
        -- what is logged of the backend's end is what is reported
        cases alive with
        | true => exact (terminate hreported).mono fun _ _ hg => ⟨_, _, hg, .inl rfl⟩
        | false =>
            dsimp only at hreported ⊢
            cases hstatus : keeper.exitStatus with
            | none =>
                rw [hstatus] at hreported
                exact (terminate hreported).mono fun _ _ hg => ⟨_, _, hg, .inl rfl⟩
            | some word =>
                rw [hstatus] at hreported
                exact (terminate hreported).mono fun _ _ hg => ⟨_, _, hg, .inl rfl⟩

theorem finishExpelling (h : Mirrors o f s c w) (htask : f.task = .nothing ∨ f.task = .expel) :
    Enacts o s Client.finishExpelling c w fun _ g => g = { f with task := .nothing } := by
  unfold Client.finishExpelling
  rw [of_get]
  rcases htask with hnothing | hexpel
  · have hidle : c.expelling = false := by rw [h.expelling, hnothing]; rfl
    have hnext : Mirrors o { f with task := .nothing } s c w :=
      { h with task := h.task.trans hnothing, expelling := hidle }
    simp only [hidle, Bool.false_eq_true, if_false]
    exact .done hnext rfl
  · have hbusy : c.expelling = true := by rw [h.expelling, hexpel]; rfl
    have hgrace : o.shutdownGrace = c.options.shutdownGrace := by rw [h.options]
    have hgone := h.expels hexpel
    rw [hgrace] at hgone
    simp only [hbusy, if_true]
    rw [of_keep, of_lastModify]
    exact .move .readerGoesOn rfl (.done hgone rfl)

/-- Those who run beside the thread stop, as they were asked to. -/
theorem stopReading (h : Mirrors o f s c w) (hasked : f.asked = true) (hbeside : Beside f) :
    Enacts o s Client.stopReading c w fun _ g => ∃ session reader,
      (reader = .absent ∨ reader = .stopped)
        ∧ g = { f with session, reader, task := .nothing, listens := false, logs := false } := by
  have hrest : ∀ {s c w session reader task},
      Mirrors o { f with session, reader, task, listens := false } s c w →
      (reader = .absent ∨ reader = .stopped) → (task = .nothing ∨ task = .expel) →
      Enacts o s (do Client.stopErrors; Client.finishExpelling) c w fun _ g =>
        ∃ session reader, (reader = .absent ∨ reader = .stopped)
          ∧ g = { f with
              session, reader, task := .nothing, listens := false, logs := false } := by
    intro s c w session reader task hm hreader htask
    refine (stopErrors hm hasked).bind ?_
    rintro _ _ s c w hquiet rfl
    exact (finishExpelling hquiet htask).mono fun _ _ hg => ⟨_, _, hreader, hg⟩
  unfold Client.stopReading
  rw [of_get]
  cases hbeside with
  | reading hreader htask hlistens =>
      simp only [h.listens.trans hlistens, if_true]
      refine (readerFails h hreader htask fun _ => hasked).bind ?_
      rintro _ _ s c w hstopped ⟨session, task, rfl, hleft⟩
      exact hrest hstopped (.inr rfl) hleft
  | gone hreader htask hlistens =>
      simp only [h.listens.trans hlistens, Bool.false_eq_true, if_false]
      have hdeaf : Mirrors o
          { f with session := f.session, reader := f.reader, task := f.task, listens := false }
          s c w := { h with listens := h.listens.trans hlistens }
      exact hrest hdeaf hreader htask

/-! ### The opening call -/

/-- What becomes of the opening call when it is sent. -/
def Sent (f : Standing) (method : Bytes) (timeout : Nat) :
    Except Failure Waiting → Standing → Prop
  | .ok call, g => call.method = method ∧ call.timeout = timeout
    ∧ ∃ session, g = { f with session, place := .waiting .opening call.id }
  | .error failure, g =>
    ∃ session, g = { f with session, place := .openingFailed, failure := some failure }

theorem sendCall (h : Mirrors o f s c w) (hplace : f.place = .calling .opening)
    (method params : Bytes) (timeout : Nat) :
    Enacts o s (Client.sendCall method params timeout) c w (Sent f method timeout) := by
  unfold Client.sendCall
  rw [of_get]
  cases done : c.session.register with
  | error failure =>
      exact .move .onward rfl (.done (h.registersNot hplace done) ⟨f.session, rfl⟩)
  | ok registered =>
      obtain ⟨id, session⟩ := registered
      dsimp only
      rw [of_modify]
      have hregistered := h.registers hplace done
      obtain ⟨answers, writer, w', hrun, hwriter⟩ :=
        hregistered.exists_write (Message.call id method params)
      have hlater := hregistered.elsewhere w'
      refine .move .onward rfl (.of_run_bind hrun (.move (.elsewhere fun _ => w') rfl
        (.move (.proceed 0 (.ok (Message.call id method params)) answers false) rfl ?_)))
      cases hfailure : (s.step World.kernel o .onward).writeFailure?
          (.ok (Message.call id method params)) answers with
      | none =>
          refine (note (hlater.sends rfl hfailure hwriter) _).bind ?_
          rintro _ _ s c w hnoted rfl
          rw [of_world]
          exact .done hnoted ⟨rfl, rfl, session, rfl⟩
      | some failure =>
          dsimp only
          rw [of_modify]
          exact .move .onward rfl
            (.done ((hlater.sendsNot rfl hfailure hwriter).drops rfl) ⟨_, rfl⟩)

/-- The backend is told that the opening call was given up. -/
theorem sendNotification (h : Mirrors o f s c w) (hplace : f.place = .cancelling .opening)
    (method params : Bytes) :
    Enacts o s (Client.sendNotification method params) c w fun _ g =>
      g = { f with place := .openingFailed } := by
  unfold Client.sendNotification
  rw [of_get]
  have hsession : s.session = c.session := h.shared
  cases hrefusal : c.session.sendRefusal with
  | some failure =>
      have hsilent : s.notify (.ok []) [] = s := by
        rw [ClientRun.notify, if_neg (by simp [hsession, hrefusal])]
      exact .move .onward rfl (.done (h.cancels hplace (by rw [hsilent, h.writer])) rfl)
  | none =>
      dsimp only
      obtain ⟨answers, writer, w', hrun, hwriter⟩ :=
        h.exists_write (Message.notification method params)
      have hwritten : s.notify (.ok (Message.notification method params)) answers
          = s.write (.ok (Message.notification method params)) answers := by
        rw [ClientRun.notify, if_pos (by simp [hsession, hrefusal])]
      have hcancelled := (h.cancels hplace (hwritten ▸ hwriter)).elsewhere w'
      refine .of_run_bind hrun
        (.move (.proceed 0 (.ok (Message.notification method params)) answers false) rfl
          (.move (.elsewhere fun _ => w') rfl ?_))
      cases s.writeFailure? (.ok (Message.notification method params)) answers with
      | some failure => exact .done hcancelled rfl
      | none =>
          refine (note hcancelled _).bind ?_
          rintro _ _ s c w hnoted rfl
          exact .done hnoted rfl

/-- The thread gives the opening call up. -/
theorem expire (h : Mirrors o f s c w) {call : Waiting}
    (hplace : f.place = .waiting .opening call.id) (hmethod : call.method = ascii "initialize")
    (htimeout : call.timeout = o.requestTimeout) (hend : c.session.end? call.id = none) :
    Enacts o s (Client.expire call) c w fun failure g => ∃ session,
      g = { f with session, place := .openingFailed, failure := some failure } := by
  unfold Client.expire
  rw [of_get]
  dsimp only
  rw [of_set]
  have hgone := h.givesUp hplace hend
  have hlate : o.openingLate
      = { kind := .timeout
          message := call.method ++ ascii " timed out after " ++ Bytes.decimal call.timeout
            ++ ascii " ms" } := by
    rw [hmethod, htimeout]
    rfl
  rw [hlate] at hgone
  refine .move (.proceed 0 (.ok []) [] true) rfl ?_
  by_cases hover : c.session.stage = .terminated
  · rw [if_pos hover] at hgone
    refine (note hgone _).bind ?_
    rintro _ _ s c w hnoted rfl
    simp only [hover, decide_true, Bool.not_true, Bool.false_eq_true, if_false]
    exact .done hnoted ⟨_, rfl⟩
  · rw [if_neg hover] at hgone
    refine (note hgone _).bind ?_
    rintro _ _ s c w hnoted rfl
    simp only [hover, decide_false, Bool.not_false, if_true]
    refine (sendNotification hnoted rfl _ _).bind ?_
    rintro (failure | ⟨⟩) _ s c w hcancelled rfl
    · refine (note hcancelled _).bind ?_
      rintro _ _ s c w hnoted rfl
      exact .done hnoted ⟨_, rfl⟩
    · exact .done hcancelled ⟨_, rfl⟩

/-- The opening call has ended in a failure. -/
def Failed (f : Standing) : CallEnd → Standing → Prop
  | .failed cause, g => Beside g ∧ ∃ session reader task listens,
    g = { f with session, place := .openingFailed, failure := some cause, reader, task, listens }
  | .answered _, _ => False

/-- The thread looks whether the call has ended, and waits for its deadline if it has not. -/
theorem waitOn (h : Mirrors o f s c w) {call : Waiting}
    (hplace : f.place = .waiting .opening call.id) (hmethod : call.method = ascii "initialize")
    (htimeout : call.timeout = o.requestTimeout) (hbeside : Beside f) :
    Enacts o s (do
      match (← get).session.end? call.id with
      | some found => pure found
      | none =>
        World.waitUntil call.deadline
        return .failed (← Client.expire call)) c w (Failed f) := by
  rw [of_get]
  cases hend : c.session.end? call.id with
  | some found =>
      obtain ⟨cause, rfl, hkind⟩ := h.unserved.failed hend
      exact .move .onward rfl (.done (h.findsEnd hplace hend hkind)
        ⟨hbeside.congr rfl rfl rfl, _, _, _, _, rfl⟩)
  | none =>
      dsimp only
      rw [of_lift]
      refine .move (.elsewhere fun _ => (World.waitUntil call.deadline w).2) rfl ?_
      refine (expire (h.elsewhere _) hplace hmethod htimeout hend).bind ?_
      rintro failure _ s c w hexpired ⟨session, rfl⟩
      exact .done hexpired ⟨hbeside.congr rfl rfl rfl, _, _, _, _, rfl⟩

theorem await (h : Mirrors o f s c w) {call : Waiting}
    (hplace : f.place = .waiting .opening call.id) (hmethod : call.method = ascii "initialize")
    (htimeout : call.timeout = o.requestTimeout) (hbeside : Beside f) :
    Enacts o s (Client.await call) c w (Failed f) := by
  unfold Client.await
  obtain ⟨found, hrun, hfound⟩ := c.exists_awaited w
  refine .of_run_bind hrun ?_
  rcases found with _ | ⟨time, failure⟩
  · exact waitOn h hplace hmethod htimeout hbeside
  · by_cases hintime : time ≤ call.deadline
    · simp only [if_pos hintime]
      rw [of_lift]
      obtain ⟨hnot, hlistens⟩ := hfound time failure rfl
      obtain ⟨hreader, htask⟩ : f.reader = .reading ∧ f.task = .nothing := by
        cases hbeside with
        | reading hreader htask => exact ⟨hreader, htask⟩
        | gone _ _ hdeaf =>
            simp [h.listens, hdeaf] at hlistens
      refine .move (.elsewhere fun _ => (World.waitUntil time w).2) rfl ?_
      refine (readerFails (h.elsewhere _) hreader htask (absurd · hnot)).bind ?_
      rintro _ _ s c w hstopped ⟨session, task, rfl, hleft⟩
      exact waitOn hstopped hplace hmethod htimeout (.gone (.inr rfl) hleft rfl)
    · simp only [if_neg hintime]
      exact waitOn h hplace hmethod htimeout hbeside

end Enacts

/-! ### Closing the session -/

/-- Where a client stands when its session was closed. -/
def Standing.closed (f : Standing) (session : Session) (reader : ReaderPlace)
    (told : ClientReply) : Standing :=
  { session
    reader
    asked := true
    told := f.told ++ [(0, told)]
    call := f.call
    ended := f.ended }

namespace Enacts

variable {o : ClientOptions} {f : Standing} {s : ClientRun World} {c : Client} {w : World}

/-- The thread has nothing left to do but to stop those who run beside it. -/
theorem closeSession (h : Mirrors o f s c w) (hplace : f.place = .stopping)
    (hchores : f.chores = Chore.halt) (hbeside : Beside f) :
    Enacts o s Client.stopReading c w fun _ g => ∃ session reader,
      (reader = .absent ∨ reader = .stopped) ∧ g = f.closed session reader f.lastWord := by
  refine .move .onward rfl (.move .onward rfl ?_)
  refine (stopReading (h.asks hplace hchores) rfl (hbeside.congr rfl rfl rfl)).andThen ?_
  rintro _ _ s c w hstopped ⟨session, reader, hreader, rfl⟩
  have hleft := (hstopped.joins hplace rfl hreader rfl rfl).leaves hplace rfl
  exact .move .onward rfl (.move .onward rfl (.move .onward rfl
    (.done hleft ⟨session, reader, hreader, rfl⟩)))

/-- The session is closed because it could not be opened. -/
theorem openingFailed (h : Mirrors o f s c w) (hplace : f.place = .openingFailed)
    {failure : Failure} (hfailure : f.failure = some failure) (hbeside : Beside f) :
    Enacts o s (Client.openingFailed failure) c w fun result g => result = failure.asStartup
      ∧ ∃ session reader, (reader = .absent ∨ reader = .stopped)
        ∧ g = f.closed session reader (.started (.error failure.asStartup)) := by
  unfold Client.openingFailed
  refine (note h _).bind ?_
  rintro _ _ s c w hnoted rfl
  refine .move .onward rfl ((terminate (hnoted.endsOpening hplace)).bind ?_)
  rintro _ _ s c w hended rfl
  refine (closeSession hended rfl rfl (hbeside.congr rfl rfl rfl)).bind ?_
  rintro _ _ s c w hclosed ⟨session, reader, hreader, rfl⟩
  simp only [Standing.lastWord, hfailure] at hclosed
  exact .done hclosed ⟨rfl, session, reader, hreader, rfl⟩

/-- The session is closed because it is shut down. -/
theorem farewell (h : Mirrors o f s c w) (hplace : f.place = .ending) (hfailure : f.failure = none)
    (hbeside : Beside f) :
    Enacts o s (do
        Client.terminate shutDown false
        Client.closeWriter
        let _ ← Client.keep (·.terminate World.kernel o.shutdownGrace)
        Client.stopReading
        Client.note (ascii "session closed")) c w fun _ g => ∃ session reader,
      (reader = .absent ∨ reader = .stopped) ∧ g = f.closed session reader .shutDown := by
  refine .move .onward rfl ((terminate (h.endsSession hplace)).bind ?_)
  rintro _ _ s c w hended rfl
  obtain ⟨w', hrun⟩ := c.exists_closeWriter w
  have hshut := (hended.closes rfl rfl).elsewhere w'
  refine .move .onward rfl (.move (.elsewhere fun _ => w') rfl (.of_run_bind hrun ?_))
  rw [of_keep]
  refine .move .onward rfl ((closeSession (hshut.sendsAway rfl rfl) rfl rfl
    (hbeside.congr rfl rfl rfl)).bind ?_)
  rintro _ _ s c w hclosed ⟨session, reader, hreader, rfl⟩
  simp only [Standing.lastWord, hfailure] at hclosed
  exact (note hclosed _).mono fun _ _ hg => ⟨session, reader, hreader, hg⟩

end Enacts

end AnalyzerBridge

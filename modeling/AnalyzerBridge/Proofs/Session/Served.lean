/-
What a client does, whatever it is asked for.

A client that runs is asked for one thing after the other, and between any two of them the world may
go on as it likes.  All of that together is one run of `ClientRun`, so what holds of every run holds
of the client: a start is not answered and fails for a reason, and a client that was shut down has
come to rest for good.

Between two things that it is asked for, a client rests or waits for the opening call; nothing else
is ever left half done.
-/
import AnalyzerBridge.Proofs.Session.Enactment

namespace AnalyzerBridge

open Host (World)
open ClientRun (IsSilent Unwritable)

/-! ### Between two things -/

/-- Nothing is under way. -/
structure Resting (f : Standing) : Prop where
  place : f.place = .idle
  failure : f.failure = none
  call : f.call = none
  task : f.task = .nothing
  listens : f.listens = false
  reader : f.reader = .absent ∨ f.reader = .stopped

/-- The opening call is waited for. -/
structure Opening (o : ClientOptions) (f : Standing) (call : Waiting) : Prop where
  waits : f.call = some call
  place : f.place = .waiting .opening call.id
  method : call.method = ascii "initialize"
  timeout : call.timeout = o.requestTimeout
  beside : Enacts.Beside f

/-- A client rests, or waits for the opening call. -/
inductive Settled (o : ClientOptions) (f : Standing) : Prop
  | resting (rests : Resting f)
  | opening {call : Waiting} (opens : Opening o f call)

theorem Settled.tell {o : ClientOptions} {f : Standing} (h : Settled o f)
    (told : List (Nat × ClientReply)) : Settled o { f with told } := by
  cases h with
  | resting hrests => exact .resting { hrests with }
  | opening hopens => exact .opening { hopens with beside := hopens.beside.congr rfl rfl rfl }

/-- The opening has failed, and whoever has started the session was told. -/
structure Concluded (failure : Failure) (g : Standing) : Prop where
  rests : Resting g
  ended : g.ended = some (.error failure)
  told : (0, .started (.error failure)) ∈ g.told

/-- What a start comes to at once, if it does. -/
inductive Begun (o : ClientOptions) (f g : Standing) : Option (Except Failure Unit) → Prop
  /-- The session was started before. -/
  | refused {failure : Failure} (rests : Resting g)
      (late : f.call = none → f.session.stage ≠ .unstarted) :
      Begun o f g (some (.error failure))
  | failed {failure : Failure} (concluded : Concluded failure g) :
      Begun o f g (some (.error failure))
  /-- The opening call was sent. -/
  | waits {call : Waiting} (opens : Opening o g call) : Begun o f g none

namespace Concluded

variable {f : Standing} {session : Session}

/-- The opening call was sent, or was not, and the session was closed. -/
theorem of_closed (f : Standing) (session : Session) {reader : ReaderPlace}
    (hreader : reader = .absent ∨ reader = .stopped) (failure : Failure) :
    Concluded failure { f.closed session reader (.started (.error failure)) with
      call := none, ended := some (.error failure) } where
  rests := ⟨rfl, rfl, rfl, rfl, rfl, hreader⟩
  ended := rfl
  told := List.mem_append_right _ List.mem_cons_self

/-- The backend was not launched. -/
theorem of_unlaunched (hrests : Resting f) (failure : Failure) :
    Concluded failure { f with
      session
      place := .idle
      told := f.told ++ [(0, .started (.error failure))]
      call := none
      ended := some (.error failure) } where
  rests := { hrests with place := rfl, call := rfl }
  ended := rfl
  told := List.mem_append_right _ List.mem_cons_self

end Concluded

namespace Enacts

variable {α : Type} {o : ClientOptions} {f : Standing} {s : ClientRun World} {c : Client}
  {w : World}

/-! ### Starting and shutting down -/

theorem finishOpening (h : Mirrors o f s c w) (hsettled : Settled o f) :
    Enacts o s Client.finishOpening c w fun _ g => Resting g
      ∧ (f.call = none ∧ g = f ∨ f.call ≠ none ∧ ∃ failure, Concluded failure g) := by
  unfold Client.finishOpening
  rw [of_get]
  cases hsettled with
  | resting hrests =>
      simp only [h.call.trans hrests.call]
      exact .done h ⟨hrests, .inl ⟨hrests.call, rfl⟩⟩
  | @opening call hopens =>
      simp only [h.call.trans hopens.waits]
      refine (await h hopens.place hopens.method hopens.timeout hopens.beside).bind ?_
      rintro (reply | cause) g s c w hfailed hwhy
      · exact hwhy.elim
      · obtain ⟨hbeside, session, reader, task, listens, rfl⟩ := hwhy
        refine (openingFailed hfailed rfl rfl hbeside).bind ?_
        rintro _ _ s c w hended ⟨rfl, session, reader, hreader, rfl⟩
        rw [of_conclude]
        have hconcluded := Concluded.of_closed { f with place := .openingFailed } session hreader
          cause.asStartup
        exact .done (hended.concludes _)
          ⟨hconcluded.rests, .inr ⟨by simp [hopens.waits], _, hconcluded⟩⟩

theorem beginStart (h : Mirrors o f s c w) (hsettled : Settled o f) :
    Enacts o s Client.beginStart c w fun r g => Begun o f g r := by
  unfold Client.beginStart
  refine (finishOpening h hsettled).bind ?_
  rintro _ g s c w hm ⟨hrests, hg⟩
  obtain rfl := hm.options
  rw [of_get]
  dsimp only
  cases hrefusal : c.session.startRefusal with
  | some failure =>
      refine .move (.start 0) rfl (.done (hm.startsNot hrests.place hrefusal)
        (.refused { hrests with } fun hnone hfresh => ?_))
      rcases hg with ⟨-, rfl⟩ | ⟨hsome, -⟩
      · simp [hm.session, Session.startRefusal, hfresh] at hrefusal
      · exact hsome hnone
  | none =>
      have hstarts := hm.starts hrests.place hrefusal
      refine .move (.start 0) rfl ?_
      rw [of_get]
      show Enacts c.options _ (Client.keep (·.spawn World.kernel c.options.plan) >>= _) c w _
      rw [of_keep]
      cases hlaunch : (c.keeper.spawn World.kernel c.options.plan w).1.1 with
      | error failure =>
          -- the failure is logged before the session is over
          have hfails := (hstarts.launchesNot rfl hlaunch).concludes (.error failure)
          obtain ⟨errors, lines, w', hrun, herrors⟩ :=
            Client.exists_note (ascii "backend spawn failed: " ++ failure.message)
              { c with keeper := (c.keeper.spawn World.kernel c.options.plan w).1.2 }
              (c.keeper.spawn World.kernel c.options.plan w).2
          refine .move .onward rfl (.of_run_bind hrun ?_)
          rw [of_modify, of_conclude]
          exact looked hfails lines w' herrors fun _ hm =>
            .done hm (.failed (.of_unlaunched hrests failure))
      | ok _ =>
          obtain ⟨calls, -, hlaunched⟩ :=
            Supervisor.makes_spawn World.kernel c.keeper c.options.plan w []
          obtain ⟨p, pid, hkeeper⟩ := hlaunched.exists_launched hlaunch
          have hconnects := (hstarts.launches rfl hlaunch p.input.writing).connects rfl
            p.output.reading p.errors.reading
          rw [hkeeper] at hconnects ⊢
          dsimp only
          rw [of_keep, of_keep, of_keep, of_modify, of_world]
          refine .move .onward rfl (.move .onward rfl ?_)
          refine (sendCall hconnects rfl _ _ _).bind ?_
          rintro (failure | call) _ s c' w hsent hfate
          · obtain ⟨session, rfl⟩ := hfate
            refine (openingFailed hsent rfl rfl (.reading rfl hrests.task rfl)).bind ?_
            rintro _ _ s c w hended ⟨rfl, session, reader, hreader, rfl⟩
            rw [of_conclude]
            exact .done (hended.concludes _) (.failed (.of_closed _ _ hreader _))
          · obtain ⟨hmethod, htimeout, session, rfl⟩ := hfate
            dsimp only
            rw [of_modify]
            exact .done (hsent.awaits call)
              (.waits ⟨rfl, rfl, hmethod, htimeout, .reading rfl hrests.task rfl⟩)

/-- A start fails, and whoever starts a session that was not started before is told why. -/
theorem start (h : Mirrors o f s c w) (hsettled : Settled o f) :
    Enacts o s Client.start c w fun r g => Resting g ∧ ∃ failure, r = .error failure
      ∧ (f.call = none → f.session.stage = .unstarted →
        (0, .started (.error failure)) ∈ g.told) := by
  unfold Client.start
  refine (beginStart h hsettled).bind ?_
  rintro _ g s c w hm hbegun
  cases hbegun with
  | @refused failure hrests hlate =>
      exact .done hm ⟨hrests, failure, rfl, fun hnone hfresh => absurd hfresh (hlate hnone)⟩
  | @failed failure hconcluded =>
      exact .done hm ⟨hconcluded.rests, failure, rfl, fun _ _ => hconcluded.told⟩
  | @waits call hopens =>
      refine (finishOpening hm (.opening hopens)).bind ?_
      rintro _ g s c w hm ⟨hrests, ⟨hnone, -⟩ | ⟨-, failure, hconcluded⟩⟩
      · simp [hopens.waits] at hnone
      · rw [of_get, hm.ended.trans hconcluded.ended]
        exact .done hm ⟨hrests, failure, rfl, fun _ _ => hconcluded.told⟩

/-- The session is shut down, and the thread is told. -/
theorem shutdown (h : Mirrors o f s c w) (hsettled : Settled o f) :
    Enacts o s Client.shutdown c w fun _ g => Resting g ∧ (0, .shutDown) ∈ g.told := by
  unfold Client.shutdown
  refine (finishOpening h hsettled).bind ?_
  rintro _ g s c w hm ⟨hrests, -⟩
  obtain rfl := hm.options
  have htold : ∀ told : List (Nat × ClientReply), (0, .shutDown) ∈ told ++ [(0, .shutDown)] :=
    fun told => List.mem_append_right told List.mem_cons_self
  rw [of_get]
  by_cases hfresh : c.session.stage = .unstarted
  · have hturn : c.session.beginShutdown.1 = .unstarted := by
      rw [Session.beginShutdown, if_pos hfresh]
    dsimp only
    rw [of_modify, hturn]
    exact .move (.shutdown 0) rfl
      (.done (hm.shutsUnstarted hrests.place hfresh) ⟨{ hrests with }, htold _⟩)
  · have hshuts := hm.shuts hrests.place hfresh
    refine .move (.shutdown 0) rfl ?_
    have hfirst : c.session.beginShutdown = (.begun, c.session)
        ∨ c.session.beginShutdown
          = (.fromStage c.session.stage, { c.session with shuttingDown := true }) := by
      rw [Session.beginShutdown, if_neg hfresh]
      split
      · exact .inl rfl
      · exact .inr rfl
    rcases hfirst with hturn | hturn
    · rw [hturn]
      dsimp only
      rw [of_modify]
      exact .move .onward rfl
        (.done (hshuts.turnsOffNot rfl hturn) ⟨{ hrests with place := rfl }, htold _⟩)
    · rw [hturn]
      dsimp only
      rw [of_modify, of_get]
      dsimp only
      rw [if_neg hm.unserved.unready]
      have hoff := hshuts.turnsOff rfl hm.unserved.unready hturn
      refine .move .onward rfl ((farewell hoff rfl hrests.failure
        (.gone hrests.reader (.inl hrests.task) hrests.listens)).mono ?_)
      rintro _ _ ⟨session, reader, hreader, rfl⟩
      exact ⟨⟨rfl, rfl, hrests.call, rfl, rfl, hreader⟩, htold _⟩

/-! ### Asking for something else -/

/-- The session is not ready, and the caller is told so. -/
def TurnedAway (f : Standing) (asking : Asking) : Except Failure α → Standing → Prop
  | .error failure, g => g = { f with told := f.told ++ [(1, .refused asking failure)] }
  | .ok _, _ => False

theorem settled_of_turnedAway {asking : Asking} {r : Except Failure α} {g : Standing}
    (h : Settled o f) (hg : TurnedAway f asking r g) : Settled o g := by
  cases r with
  | ok a => exact hg.elim
  | error failure =>
      obtain rfl := hg
      exact h.tell _

theorem request (h : Mirrors o f s c w) (method params : Bytes) (timeout : Option Nat) :
    Enacts o s (Client.request method params timeout) c w (TurnedAway f .request) := by
  unfold Client.request
  obtain ⟨failure, hrefusal⟩ := h.unserved.exists_refusal .request
  have hrefused := h.refuses hrefusal
  rw [Asking.refusal] at hrefusal
  rw [of_get, hrefusal]
  exact .move (.ask 1 .request) rfl (.done hrefused rfl)

theorem notify (h : Mirrors o f s c w) (method params : Bytes) :
    Enacts o s (Client.notify method params) c w (TurnedAway f .notify) := by
  unfold Client.notify
  obtain ⟨failure, hrefusal⟩ := h.unserved.exists_refusal .notify
  have hrefused := h.refuses hrefusal
  rw [Asking.refusal] at hrefusal
  rw [of_get, hrefusal]
  exact .move (.ask 1 .notify) rfl (.done hrefused rfl)

theorem sync (h : Mirrors o f s c w) (path : Bytes) :
    Enacts o s (Client.sync path) c w (TurnedAway f .sync) := by
  unfold Client.sync
  obtain ⟨failure, hrefusal⟩ := h.unserved.exists_refusal .sync
  have hrefused := h.refuses hrefusal
  rw [Asking.refusal] at hrefusal
  rw [of_get]
  dsimp only
  rw [hrefusal]
  exact .move (.ask 1 .sync) rfl (.done hrefused rfl)

end Enacts

/-! ### All that a client is asked for -/

/-- Something that a client is asked for, or that goes on in the world meanwhile. -/
inductive Demand where
  | start
  /-- The session is started, and how that ends is waited for later. -/
  | beginStart
  | finishOpening
  | shutdown
  | request (method params : Bytes) (timeout : Option Nat)
  | notify (method params : Bytes)
  | sync (path : Bytes)
  /-- The errors of the backend are logged that have come in by now. -/
  | logErrors
  /-- The world goes on by itself. -/
  | elapse (change : World → World)

namespace Client

/-- What is done for a demand. -/
def meet : Demand → ClientM Unit
  | .start => do let _ ← start
  | .beginStart => do let _ ← beginStart
  | .finishOpening => finishOpening
  | .shutdown => shutdown
  | .request method params timeout => do let _ ← request method params timeout
  | .notify method params => do let _ ← notify method params
  | .sync path => do let _ ← sync path
  | .logErrors => logErrors
  | .elapse change => modifyThe World change

/-- A client and its world when a demand was met. -/
def after (before : Client × World) (demand : Demand) : Client × World :=
  let done := ((meet demand).run before.1).run before.2
  (done.1.2, done.2)

/-- A client and its world when one demand after the other was met. -/
def served (o : ClientOptions) (w : World) (demands : List Demand) : Client × World :=
  demands.foldl after (create o, w)

end Client

namespace Enacts

variable {o : ClientOptions} {f : Standing} {s : ClientRun World} {c : Client} {w : World}

theorem meet (h : Mirrors o f s c w) (hsettled : Settled o f) (demand : Demand) :
    Enacts o s (Client.meet demand) c w fun _ g => Settled o g := by
  cases demand with
  | start =>
      refine (start h hsettled).bind ?_
      rintro _ g s c w hm ⟨hrests, -⟩
      exact .done hm (.resting hrests)
  | beginStart =>
      refine (beginStart h hsettled).bind ?_
      rintro _ g s c w hm hbegun
      cases hbegun with
      | refused hrests => exact .done hm (.resting hrests)
      | failed hconcluded => exact .done hm (.resting hconcluded.rests)
      | waits hopens => exact .done hm (.opening hopens)
  | finishOpening => exact (finishOpening h hsettled).mono fun _ _ hg => .resting hg.1
  | shutdown => exact (shutdown h hsettled).mono fun _ _ hg => .resting hg.1
  | request method params timeout =>
      refine (request h method params timeout).bind ?_
      intro _ g s c w hm hg
      exact .done hm (settled_of_turnedAway hsettled hg)
  | notify method params =>
      refine (notify h method params).bind ?_
      intro _ g s c w hm hg
      exact .done hm (settled_of_turnedAway hsettled hg)
  | sync path =>
      refine (sync h path).bind ?_
      intro _ g s c w hm hg
      exact .done hm (settled_of_turnedAway hsettled hg)
  | logErrors =>
      refine (logErrors h).mono ?_
      rintro _ _ rfl
      exact hsettled
  | elapse change =>
      exact .move (.elsewhere fun _ => change w) rfl
        (.of_run rfl (.done (h.elsewhere (change w)) hsettled))

end Enacts

namespace Client

variable {o : ClientOptions} {f : Standing} {s : ClientRun World} {c : Client} {w : World}

/-- **Whatever a client is asked for, one thing after the other, is done by a run.** -/
theorem exists_run (h : Mirrors o f s c w) (hsettled : Settled o f) (demands : List Demand) :
    ∃ moves g, IsSilent moves
      ∧ Mirrors o g (s.run World.kernel o moves) (demands.foldl after (c, w)).1
        (demands.foldl after (c, w)).2
      ∧ Settled o g := by
  induction demands generalizing f s c w with
  | nil => exact ⟨[], f, .nil, h, hsettled⟩
  | cons demand rest ih =>
      obtain ⟨moves, g, hmoves, hm, hg⟩ := Enacts.meet h hsettled demand
      obtain ⟨more, g', hmore, hm', hg'⟩ := ih hm hg
      refine ⟨moves ++ more, g', hmoves.append hmore, ?_, hg'⟩
      rw [ClientRun.run_append]
      exact hm'

/-- A client is served by a run without an answer. -/
theorem exists_run_served (o : ClientOptions) (w : World) (demands : List Demand) :
    ∃ moves f, IsSilent moves
      ∧ Mirrors o f ((ClientRun.fresh w).run World.kernel o moves) (served o w demands).1
        (served o w demands).2
      ∧ Settled o f :=
  exists_run (Mirrors.create o w) (.resting ⟨rfl, rfl, rfl, rfl, rfl, .inl rfl⟩) demands

/-! ### What a client comes to -/

/-- Why a start fails: the backend cannot be launched, or the opening call comes to nothing. -/
inductive StartFailure (o : ClientOptions) (c : Client) : Failure → Prop
  | unlaunched {failure : Failure} (none : c.session.connected = false)
      (kind : failure.kind = .spawn) : StartFailure o c failure
  | unopened {found : Failure} (some : c.session.connected = true)
      (why : found = o.openingLate ∨ c.session.cause = .some found ∨ Unwritable found) :
      StartFailure o c { found with kind := .startup, message := found.describe }

theorem startFailure_of_startFailed (h : Mirrors o f s c w) (hs : s.Coherent) {failure : Failure}
    (hfailed : ClientRun.StartFailed o s failure) : StartFailure o c failure := by
  have hsession : s.session = c.session := h.shared
  rcases hfailed.reason with ⟨hnever, hkind⟩ | ⟨hlaunched, found, hwhy, rfl⟩
  · refine .unlaunched (Bool.eq_false_iff.mpr fun hsome => ?_) hkind
    have hlaunched := hs.connected_iff.mp (hsession ▸ hsome)
    exact absurd (hnever.symm.trans hlaunched) (by simp)
  · refine .unopened (hsession ▸ hs.connected_iff.mpr hlaunched) ?_
    cases hwhy with
    | tooLate => exact .inr (.inr (.inl rfl))
    | unwritten _ hunwritable => exact .inr (.inr hunwritable)
    | ended _ hcause => exact .inr (.inl (hsession ▸ hcause))
    | late => exact .inl rfl

/-- No opening call is waited for before the session has begun. -/
theorem call_of_unstarted (h : Mirrors o f s c w) (hs : s.Coherent) (hsettled : Settled o f)
    (hfresh : c.session.stage = .unstarted) : f.call = none := by
  cases hsettled with
  | resting hrests => exact hrests.call
  | @opening call hopens =>
      have hseat := hs.steady.orderly.seats 0
      rw [h.place_zero, hopens.place] at hseat
      have hbegun : s.session.stage ≠ .unstarted := hseat.begun (by simp) rfl
      exact absurd ((congrArg (·.stage) h.shared).trans hfresh) hbegun

/--
**Whatever a client was asked for before, a start fails, and a first one for a reason.**

The backend cannot be launched, ends, breaks the stream of frames, takes nothing more or stays
silent, at any time.  Then the session is over, and the failure is that of the launch, or tells in
one line what has ended the session, that the opening call was too late, or that it could not be
written.
-/
theorem start_of_served (o : ClientOptions) (w : World) (demands : List Demand) :
    let before := served o w demands
    let started : (Except Failure Unit × Client) × World := (start.run before.1).run before.2
    ∃ failure, started.1.1 = .error failure
      ∧ (before.1.session.stage = .unstarted →
        started.1.2.session.stage = .terminated ∧ StartFailure o started.1.2 failure) := by
  intro before started
  obtain ⟨moves, f, hsilent, hm, hsettled⟩ := exists_run_served o w demands
  have h := ClientRun.fruitless_run (k := World.kernel) (ClientRun.fruitless_fresh o w) hsilent
  obtain ⟨more, g, hmore, hg, -, failure, hresult, htold⟩ := Enacts.start hm hsettled
  refine ⟨failure, hresult, fun hfresh => ?_⟩
  have hlast := ClientRun.fruitless_run (k := World.kernel) h hmore
  have hin := htold (call_of_unstarted hm h.coherent hsettled hfresh) (hm.session ▸ hfresh)
  rw [← hg.told] at hin
  obtain ⟨_, hsame, hfailed⟩ := hlast.failing 0 _ hin
  obtain rfl := Except.error.inj hsame
  exact ⟨(congrArg (·.stage) hg.shared).symm.trans hfailed.terminated,
    startFailure_of_startFailed hg hlast.coherent hfailed⟩

/-- What is left of a client that was shut down. -/
structure Stopped (c : Client) : Prop where
  terminated : c.session.stage = .terminated
  child : c.keeper.presumesAlive = false
  /-- No frame is accepted. -/
  writer : ∀ x ∈ c.writer, x.1.accepts = false
  output : c.output = none
  errors : c.errors = none
  expelling : c.expelling = false

theorem stopped_of_closed (h : Mirrors o f s c w) (hsettled : Settled o f) (hclosed : s.Closed) :
    c.Stopped := by
  obtain ⟨hreader, htask⟩ : s.ReaderGone := hclosed.done .joinReader (by decide)
  have hdeaf : f.listens = false := by
    cases hsettled with
    | resting hrests => exact hrests.listens
    | opening hopens =>
        cases hopens.beside with
        | reading hreading => simp [h.reader, hreading] at hreader
        | gone _ _ hlistens => exact hlistens
  refine ⟨(congrArg (·.stage) h.shared).symm.trans hclosed.terminated,
    h.keeper ▸ hclosed.done .expel (by decide), fun x hx => ?_, ?_, ?_, ?_⟩
  · have hshut : x.1.isOpen = false := hclosed.done .closeWriter (by decide) x.1
      (h.writer ▸ Option.mem_map_of_mem Prod.fst hx)
    simp [Frame.Writer.accepts, hshut]
  · exact Option.not_isSome_iff_eq_none.mp (by simp [h.listens, hdeaf])
  · exact Option.not_isSome_iff_eq_none.mp
      (mt h.errors.mpr (hclosed.done .joinErrors (by decide)))
  · simp [h.expelling, ← h.task, htask]

/--
**A client that was shut down has stopped for good.**

Whatever it was asked for before and is asked for afterwards, be it to start again, it does not
listen, write or log any more, its backend is gone, and what ended the session stays what it was.
-/
theorem stopped_of_served_shutdown (o : ClientOptions) (w : World) (before rest : List Demand) :
    let stopped := (served o w (before ++ [.shutdown])).1
    let later := (served o w (before ++ .shutdown :: rest)).1
    later.Stopped ∧ later.session.cause = stopped.session.cause := by
  have hstopped : served o w (before ++ [.shutdown]) = after (served o w before) .shutdown := by
    simp [served]
  have hlater : served o w (before ++ .shutdown :: rest)
      = rest.foldl after (after (served o w before) .shutdown) := by
    simp [served]
  rw [hstopped, hlater]
  obtain ⟨moves, f, -, hm, hsettled⟩ := exists_run_served o w before
  obtain ⟨closing, g, -, hg, hrests, htold⟩ := Enacts.shutdown hm hsettled
  obtain ⟨more, g', -, hg', hsettled'⟩ := exists_run hg (.resting hrests) rest
  have hbegun := ClientRun.coherent_run (k := World.kernel) (o := o)
    (ClientRun.coherent_fresh w) moves
  have hs := ClientRun.coherent_run (k := World.kernel) (o := o) hbegun closing
  have he := ClientRun.errands_run (k := World.kernel) (o := o) hbegun
    (ClientRun.errands_run (ClientRun.coherent_fresh w) (ClientRun.errands_fresh w) moves) closing
  have hclosed := he.told 0 (hg.told ▸ htold)
  have hcause := ClientRun.cause_run (k := World.kernel) (o := o) hs hclosed.terminated more
  exact ⟨stopped_of_closed hg' hsettled' (ClientRun.closed_run hs he hclosed more),
    (congrArg (·.cause) hg'.shared).symm.trans (hcause.trans (congrArg (·.cause) hg.shared))⟩

end Client

end AnalyzerBridge

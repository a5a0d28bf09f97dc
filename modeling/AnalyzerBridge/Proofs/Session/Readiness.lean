/-
Questions to a session that is not ready.

Each of them is refused, and nothing else happens: the client and the world are what they were, and
so no document has been opened and nothing has been sent.  The refusal says how far the session has
come, but for two questions that are looked at before the session is: a renaming without a new name,
and an organizing of imports in a file that cannot be read.
-/
import AnalyzerBridge.Analyzer
import AnalyzerBridge.Host.Follow

namespace AnalyzerBridge

open Host (Disk World)

/-- The action fails for the given reason and leaves everything as it was. -/
def Refuses {α : Type} (act : ClientM (Except Failure α)) (failure : Failure) (c : Client)
    (w : World) : Prop :=
  (act.run c).run w = ((.error failure, c), w)

/-- Whatever hands a failure on fails after a refused action. -/
theorem Refuses.bind {α β : Type} {act : ClientM (Except Failure α)} {failure : Failure}
    {c : Client} {w : World} (h : Refuses act failure c w)
    {next : Except Failure α → ClientM (Except Failure β)}
    (hnext : next (.error failure) = pure (.error failure)) :
    Refuses (act >>= next) failure c w := by
  unfold Refuses at h ⊢
  rw [StateT.run_bind, StateT.run_bind, h]
  show ((next (.error failure)).run c).run w = _
  rw [hnext]
  rfl

/-- Looking at the client changes nothing. -/
theorem Refuses.of_get {α : Type} {next : Client → ClientM (Except Failure α)} {failure : Failure}
    {c : Client} {w : World} (h : Refuses (next c) failure c w) :
    Refuses (get >>= next) failure c w := h

/-- Looking at the world changes nothing. -/
theorem Refuses.of_getWorld {α : Type} {next : World → ClientM (Except Failure α)}
    {failure : Failure} {c : Client} {w : World} (h : Refuses (next w) failure c w) :
    Refuses (getThe World >>= next) failure c w := h

namespace Analyzer

variable {c : Client} {w : World}

/-! ### How a session says that it is not ready -/

/-- The kind of failure that a session causes which is not ready. -/
def unreadyKind : Stage → FailureKind
  | .terminated => .connectionClosed
  | _ => .notReady

/-- The failure that such a session causes. -/
def unreadyFailure (stage : Stage) : Failure where
  kind := unreadyKind stage
  message := ascii "rust-analyzer session is " ++ stage.label

theorem unready_eq {s : Session} (h : s.stage ≠ .ready) :
    unready s = some (unreadyFailure s.stage) := by
  unfold unready unreadyFailure Session.unreadyKind unreadyKind
  cases hstage : s.stage with
  | ready => exact absurd hstage h
  | _ => rfl

theorem refuses_prepare (h : c.session.stage ≠ .ready) (file : Bytes) :
    Refuses (prepare file) (unreadyFailure c.session.stage) c w := by
  refine Refuses.of_get ?_
  rw [unready_eq h]
  rfl

theorem refuses_askFile (h : c.session.stage ≠ .ready) (file method : Bytes)
    (params : List (Bytes × Bytes)) :
    Refuses (askFile file method params) (unreadyFailure c.session.stage) c w :=
  (refuses_prepare h file).bind rfl

theorem refuses_awaitDiagnostics (h : c.session.stage ≠ .ready) (file : Bytes) (wait : Nat) :
    Refuses (awaitDiagnostics file wait) (unreadyFailure c.session.stage) c w :=
  Refuses.of_get ((refuses_prepare h file).bind rfl)

/-! ### Questions that are judged first -/

/-- A question that is refused before the session is looked at, and how. -/
inductive JudgedFirst (disk : Disk) : Question → Failure → Prop
  | noName (file : Bytes) (position : Lsp.Position) :
      JudgedFirst disk (.rename file [] position)
        { kind := .invalidParams, message := ascii "new_name is empty" }
  | unreadable {file reason : Bytes} (content : disk.read (disk.absolute file) = .error reason) :
      JudgedFirst disk (.organizeImports file) { kind := .fileAccess, message := reason }

theorem refuses_of_judgedFirst {q : Question} {failure : Failure}
    (h : JudgedFirst w.disk q failure) (wait : Nat) : Refuses (ask wait q) failure c w := by
  cases h with
  | noName file position => rfl
  | unreadable content =>
      refine Refuses.of_getWorld ?_
      simp only [content]
      rfl

/-- Every other question is refused for the state of the session. -/
theorem refuses_of_not_judgedFirst (h : c.session.stage ≠ .ready) {q : Question}
    (hq : ∀ failure, ¬JudgedFirst w.disk q failure) (wait : Nat) :
    Refuses (ask wait q) (unreadyFailure c.session.stage) c w := by
  cases q with
  | definition file position => exact refuses_askFile h _ _ _
  | references file position includeDeclaration => exact refuses_askFile h _ _ _
  | symbols query =>
      refine Refuses.of_get ?_
      rw [unready_eq h]
      rfl
  | rename file newName position =>
      cases newName with
      | nil => exact absurd (.noName file position) (hq _)
      | cons b newName => exact refuses_askFile h _ _ _
  | format file => exact refuses_askFile h _ _ _
  | extract file range => exact refuses_askFile h _ _ _
  | inlining file position => exact refuses_askFile h _ _ _
  | changeSignature file position => exact refuses_askFile h _ _ _
  | organizeImports file =>
      cases content : w.disk.read (w.disk.absolute file) with
      | error reason => exact absurd (.unreadable content) (hq _)
      | ok text =>
          refine Refuses.of_getWorld ?_
          simp only [content]
          exact refuses_askFile h _ _ _
  | diagnostics file => exact refuses_awaitDiagnostics h _ _
  | lifetimes file => exact refuses_awaitDiagnostics h _ _

/-! ### What a caller is told -/

theorem kind_ne_of_judgedFirst {disk : Disk} {q : Question} {failure : Failure}
    (h : JudgedFirst disk q failure) (stage : Stage) : failure.kind ≠ unreadyKind stage := by
  cases h <;> cases stage <;> simp [unreadyKind]

/--
**A question to a session that is not ready is refused, and nothing else happens.**

Whatever is asked, of whatever file and place, the client and the world stay as they were.  The
refusal is the one for the stage of the session, unless the question is judged first; then it is
the one for its argument, which says nothing of the session.
-/
theorem ask_of_unready (wait : Nat) (q : Question) {c : Client} (h : c.session.stage ≠ .ready)
    (w : World) :
    ∃ failure, Refuses (ask wait q) failure c w
      ∧ (JudgedFirst w.disk q failure ∧ failure.kind ≠ unreadyKind c.session.stage
        ∨ (∀ early, ¬JudgedFirst w.disk q early)
          ∧ failure = unreadyFailure c.session.stage) := by
  by_cases hq : ∃ early, JudgedFirst w.disk q early
  · obtain ⟨early, hearly⟩ := hq
    exact ⟨early, refuses_of_judgedFirst hearly wait,
      .inl ⟨hearly, kind_ne_of_judgedFirst hearly _⟩⟩
  · have hlate : ∀ early, ¬JudgedFirst w.disk q early := fun early hearly => hq ⟨early, hearly⟩
    exact ⟨_, refuses_of_not_judgedFirst h hlate wait, .inr ⟨hlate, rfl⟩⟩

/-- A session that is over, asked about no file at all. -/
theorem ask_of_unready_no_file :
    let c : Client := { options := { backend := ⟨ascii "ra", [], []⟩ }
                        session := { stage := .terminated } }
    let w : World := .start {} [] ⟨[]⟩
    c.session.stage ≠ .ready
      ∧ Refuses (ask 20 (.extract [] ⟨⟨2, 0⟩, ⟨1, 7⟩⟩))
          { kind := .connectionClosed, message := ascii "rust-analyzer session is terminated" }
          c w := by
  intro c w
  have hstage : c.session.stage ≠ .ready := by decide
  obtain ⟨failure, hrefuses, ⟨hfirst, -⟩ | ⟨-, rfl⟩⟩ :=
    ask_of_unready 20 (.extract [] ⟨⟨2, 0⟩, ⟨1, 7⟩⟩) hstage w
  · nomatch hfirst
  · exact ⟨hstage, hrefuses⟩

/-- **Not every question asks for the session first.**  Before anything was started, a renaming
without a new name and a file that is not there are refused as such. -/
theorem argument_judged_before_session :
    let c : Client := .create { backend := ⟨ascii "ra", [], []⟩ }
    let w : World := .start {} [] ⟨[]⟩
    c.session.stage = .unstarted
      ∧ Refuses (ask 20 (.rename (ascii "/a.rs") []))
          { kind := .invalidParams, message := ascii "new_name is empty" } c w
      ∧ ∃ reason, Refuses (ask 20 (.organizeImports (ascii "/a.rs")))
          { kind := .fileAccess, message := reason } c w := by
  intro c w
  refine ⟨rfl, refuses_of_judgedFirst (.noName _ _) 20, ?_⟩
  have hfails : (w.disk.read (w.disk.absolute (ascii "/a.rs"))).isOk = false := by decide +kernel
  cases content : w.disk.read (w.disk.absolute (ascii "/a.rs")) with
  | ok text => rw [content] at hfails; nomatch hfails
  | error reason => exact ⟨reason, refuses_of_judgedFirst (.unreadable content) 20⟩

end Analyzer

end AnalyzerBridge

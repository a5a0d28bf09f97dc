/-
What a call that has failed leaves behind.

A call fails if the file cannot be looked at or read, or if its notification cannot be sent.  All
of these but one leave the table as it was, so that the next call sends what this one could not.

The one is a new text that cannot be sent.  The file's time of change is recorded before the
notification goes out, and stays recorded if it does not.  To the next call the file then looks as
if it had not been changed since: the call succeeds without a word, and the backend goes on with
the old text until the file is touched again.
-/
import AnalyzerBridge.Proofs.Documents.Freshness

namespace AnalyzerBridge

open Host (Disk)

namespace DocumentTable

variable {t : DocumentTable} {disk : Disk} {send : DocumentNotice → Option Failure} {path : Bytes}
  {notice : DocumentNotice} {sent unsent : DocumentTable}

/-! ### What a call has to send -/

/-- The notification that a call gives to its sender. -/
def pending? (t : DocumentTable) (disk : Disk) (path : Bytes) : Option DocumentNotice :=
  match t.plan disk path with
  | .send notice _ _ => some notice
  | _ => none

/-- The notifications that a call can have to send, with the table if that fails. -/
inductive Sending (t : DocumentTable) (disk : Disk) (path : Bytes) :
    DocumentNotice → DocumentTable → Prop
  | opening {text : Bytes} (entry : t.get? (uriOf disk path) = none) :
      Sending t disk path (.opened (uriOf disk path) t.language text) t
  | changing {d : Document} {modified : Int} {text : Bytes}
      (entry : t.get? (uriOf disk path) = some d)
      (time : disk.modified (disk.absolute path) = .ok modified) (newer : d.modified ≠ modified)
      (content : disk.read (disk.absolute path) = .ok text) :
      Sending t disk path (.changed (uriOf disk path) (d.version + 1) text)
        (t.set (uriOf disk path) { d with modified })

theorem plan_of_unread {modified : Int}
    (time : disk.modified (disk.absolute path) = .ok modified)
    (unknown : (t.get? (uriOf disk path)).map (·.modified) ≠ some modified) :
    t.plan disk path = match disk.read (disk.absolute path) with
      | .error reason => .refused { kind := .fileAccess, message := reason }
      | .ok text => t.planText (uriOf disk path) modified text := by
  simp only [plan, time]
  exact if_neg unknown

theorem plan_of_known {d : Document} (entry : t.get? (uriOf disk path) = some d)
    (time : disk.modified (disk.absolute path) = .ok d.modified) :
    t.plan disk path = .settled t := by
  have hknown : (t.get? (uriOf disk path)).map (·.modified) = some d.modified := by
    rw [entry]
    rfl
  simp only [plan, time]
  exact if_pos hknown

theorem plan_of_unseen {e : Host.Errno} (time : disk.modified (disk.absolute path) = .error e) :
    ∃ failure, t.plan disk path = .refused failure := by
  simp only [plan, time]
  exact ⟨_, rfl⟩

/-- There are no other notifications. -/
theorem sending_of_plan (h : t.plan disk path = .send notice sent unsent) :
    Sending t disk path notice unsent := by
  cases time : disk.modified (disk.absolute path) with
  | error e =>
      obtain ⟨failure, hrefused⟩ := plan_of_unseen (t := t) time
      simp [hrefused] at h
  | ok modified =>
      cases entry : t.get? (uriOf disk path) with
      | none =>
          rw [plan_of_unread time (by simp [entry])] at h
          cases content : disk.read (disk.absolute path) with
          | error reason => simp [content] at h
          | ok text =>
              simp only [content, planText_of_none entry, Plan.send.injEq] at h
              obtain ⟨rfl, -, rfl⟩ := h
              exact .opening entry
      | some d =>
          by_cases newer : d.modified = modified
          · rw [plan_of_known entry (newer ▸ time)] at h
            simp at h
          · rw [plan_of_unread time (by simpa [entry] using newer)] at h
            cases content : disk.read (disk.absolute path) with
            | error reason => simp [content] at h
            | ok text =>
                by_cases same : d.fingerprint = t.fingerprint text
                · simp [content, planText_of_same entry same] at h
                · simp only [content, planText_of_other entry same, Plan.send.injEq] at h
                  obtain ⟨rfl, -, rfl⟩ := h
                  exact .changing entry time newer content

/-! ### A file that stays as it is -/

/-- The path leads to the same file on both disks. -/
structure SameFile (disk later : Disk) (path : Bytes) : Prop where
  absolute : later.absolute path = disk.absolute path
  modified : later.modified (disk.absolute path) = disk.modified (disk.absolute path)
  content : later.read (disk.absolute path) = disk.read (disk.absolute path)

variable {later : Disk}

theorem SameFile.refl (disk : Disk) (path : Bytes) : SameFile disk disk path := ⟨rfl, rfl, rfl⟩

theorem SameFile.uriOf_eq (h : SameFile disk later path) : uriOf later path = uriOf disk path :=
  congrArg Uri.ofPath h.absolute

theorem SameFile.plan_eq (h : SameFile disk later path) (t : DocumentTable) :
    t.plan later path = t.plan disk path := by
  simp only [plan, h.absolute, h.modified, h.content]

/-! ### Failing without a trace -/

/-- If the call fails, it leaves the table as it was, and the next one for the file as it is, if
its notification can be sent, sends what this one could not. -/
def FailsAtomically (t : DocumentTable) (disk : Disk) (send : DocumentNotice → Option Failure)
    (path : Bytes) : Prop :=
  (t.ensure disk send path).failure ≠ none →
    (t.ensure disk send path).table = t
      ∧ ∀ notice ∈ t.pending? disk path, ∀ later, SameFile disk later path →
          ∀ works, works notice = none →
            ((t.ensure disk send path).table.ensure later works path).notice = some notice

/-- A new text has to be sent and cannot be. -/
def LosesChange (t : DocumentTable) (disk : Disk) (send : DocumentNotice → Option Failure)
    (path : Bytes) : Prop :=
  ∃ version text failure, t.pending? disk path = some (.changed (uriOf disk path) version text)
    ∧ send (.changed (uriOf disk path) version text) = some failure

/-- The call has failed and has recorded nothing but the file's time of change; until that is
another one, all further calls for the file succeed and send nothing. -/
structure GoesSilent (t : DocumentTable) (disk : Disk) (send : DocumentNotice → Option Failure)
    (path : Bytes) : Prop where
  failed : (t.ensure disk send path).failure ≠ none
  recorded : ∃ d modified, t.get? (uriOf disk path) = some d
    ∧ disk.modified (disk.absolute path) = .ok modified ∧ d.modified ≠ modified
    ∧ (t.ensure disk send path).table = t.set (uriOf disk path) { d with modified }
  silent : ∀ later, SameFile disk later path →
    ∀ works, (t.ensure disk send path).table.ensure later works path
      = { uri := uriOf disk path, table := (t.ensure disk send path).table }

theorem pending?_eq_some_iff :
    t.pending? disk path = some notice
      ↔ ∃ sent unsent, t.plan disk path = .send notice sent unsent := by
  unfold pending?
  cases t.plan disk path with
  | refused | settled => simp
  | send pending sent unsent => simp

/-- What a call has to send is sent if it can be. -/
theorem notice_of_pending (h : t.pending? disk path = some notice)
    (accepted : send notice = none) : (t.ensure disk send path).notice = some notice := by
  obtain ⟨sent, unsent, hplan⟩ := pending?_eq_some_iff.mp h
  rw [ensure_of_accepted hplan accepted, notice_afterSending]

theorem goesSilent_of_losesChange (h : LosesChange t disk send path) :
    GoesSilent t disk send path := by
  obtain ⟨version, text, failure, hpending, hlost⟩ := h
  obtain ⟨sent, unsent, hplan⟩ := pending?_eq_some_iff.mp hpending
  have hend := ensure_of_lost hplan hlost
  cases sending_of_plan hplan with
  | @changing d modified _ entry time newer content =>
      refine ⟨by simp [hend], ⟨d, modified, entry, time, newer, by rw [hend]⟩, ?_⟩
      intro later hsame works
      -- the time in the table is now that of the file, which is all that the next call looks at
      have hseen := get?_set_self t (uriOf disk path) { d with modified }
      have hsettled := (hsame.plan_eq _).trans (plan_of_known hseen time)
      rw [hend, ensure_of_settled hsettled, hsame.uriOf_eq]

/-- A table with another time of change is another table. -/
theorem not_failsAtomically_of_goesSilent (h : GoesSilent t disk send path) :
    ¬FailsAtomically t disk send path := by
  intro hatomic
  obtain ⟨d, modified, hentry, -, hnewer, htable⟩ := h.recorded
  have hsame := (hatomic h.failed).1
  rw [htable] at hsame
  have hafter := get?_set_self t (uriOf disk path) { d with modified }
  rw [hsame, hentry, Option.some.injEq] at hafter
  exact hnewer (congrArg Document.modified hafter)

/-- A call that fails otherwise leaves the table as it was. -/
theorem table_of_failure (h : ¬LosesChange t disk send path)
    (hfailure : (t.ensure disk send path).failure ≠ none) :
    (t.ensure disk send path).table = t := by
  cases hplan : t.plan disk path with
  | refused failure => rw [ensure_of_refused hplan]
  | settled table => simp [ensure_of_settled hplan] at hfailure
  | send notice sent unsent =>
      cases hsend : send notice with
      | none => simp [ensure_of_accepted hplan hsend] at hfailure
      | some failure =>
          have hpending := pending?_eq_some_iff.mpr ⟨sent, unsent, hplan⟩
          rw [ensure_of_lost hplan hsend]
          cases sending_of_plan hplan with
          | opening => rfl
          | changing => exact absurd ⟨_, _, failure, hpending, hsend⟩ h

theorem failsAtomically_of_not_losesChange (h : ¬LosesChange t disk send path) :
    FailsAtomically t disk send path := by
  intro hfailure
  have htable := table_of_failure h hfailure
  refine ⟨htable, ?_⟩
  intro notice hpending later hsame works hworks
  have hpending' : t.pending? later path = some notice := by
    simpa [pending?, hsame.plan_eq t] using hpending
  rw [htable]
  exact notice_of_pending hpending' hworks

/-- **A call that fails leaves no trace, unless it was to send a new text.  The file whose new text
was lost goes silent.** -/
theorem failure_leaves_no_trace_unless_change_lost (t : DocumentTable) (disk : Disk)
    (send : DocumentNotice → Option Failure) (path : Bytes) :
    (FailsAtomically t disk send path ↔ ¬LosesChange t disk send path)
      ∧ (LosesChange t disk send path → GoesSilent t disk send path) := by
  refine ⟨⟨?_, failsAtomically_of_not_losesChange⟩, goesSilent_of_losesChange⟩
  intro hatomic hlost
  exact not_failsAtomically_of_goesSilent (goesSilent_of_losesChange hlost) hatomic

end DocumentTable

namespace DocumentRun

open DocumentTable

/-- A document was opened, and its file has then been edited. -/
def edited : DocumentRun :=
  (start (oneFile (ascii "old") 1) (ascii "rust")).run
    [.ensure (ascii "/a") fun _ => none, .filesChange (oneFile (ascii "new") 2)]

/-- A connection that is closed. -/
def refusing : DocumentNotice → Option Failure :=
  fun _ => some { kind := .connectionClosed, message := ascii "closed" }

/-- The new text could not be sent. -/
def unsent : DocumentRun := edited.step (.ensure (ascii "/a") refusing)

/-- The new text is not sent either when it could be, and the call says that all is well. -/
theorem edited_text_is_lost :
    ¬FailsAtomically edited.table edited.disk refusing (ascii "/a")
      ∧ edited.table.pending? edited.disk (ascii "/a")
          = some (.changed (ascii "file:///a") 2 (ascii "new"))
      ∧ (unsent.ensured (ascii "/a") fun _ => none).failure = none
      ∧ (unsent.ensured (ascii "/a") fun _ => none).notice = none := by
  have hpending : edited.table.pending? edited.disk (ascii "/a")
      = some (.changed (ascii "file:///a") 2 (ascii "new")) := by decide +kernel
  have hsilent : GoesSilent edited.table edited.disk refusing (ascii "/a") :=
    goesSilent_of_losesChange ⟨2, ascii "new", _, hpending, rfl⟩
  have hagain := hsilent.silent _ (.refl _ _) fun _ => none
  exact ⟨not_failsAtomically_of_goesSilent hsilent, hpending,
    congrArg Ensured.failure hagain, congrArg Ensured.notice hagain⟩

end DocumentRun

end AnalyzerBridge

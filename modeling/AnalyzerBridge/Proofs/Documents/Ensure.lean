/-
What one call does to the table of documents.

A call that brings a document up to date can end in seven ways, and `Outcome` lists them,
each with what was found on the way there.  Everything that is proved about a run of calls
goes through that list, so that nothing but this file looks into how a call decides.
-/
import Mathlib.Data.List.Nodup
import AnalyzerBridge.Documents

namespace AnalyzerBridge.DocumentTable

open Host (Disk)

/-! ### Looking a document up -/

@[simp] theorem get?_set_self (t : DocumentTable) (uri : Bytes) (d : Document) :
    (t.set uri d).get? uri = some d := by
  simp [get?, set]

theorem lookup_filter_ne {uri other : Bytes} (h : other ≠ uri) (entries : List (Bytes × Document)) :
    (entries.filter (·.1 != uri)).lookup other = entries.lookup other := by
  induction entries with
  | nil => rfl
  | cons entry rest ih =>
      obtain ⟨key, d⟩ := entry
      by_cases hkey : key = uri
      · have hother : (other == key) = false := by simpa [hkey] using h
        rw [List.filter_cons_of_neg (by simp [hkey]), ih, List.lookup_cons, hother]
      · rw [List.filter_cons_of_pos (by simpa using hkey), List.lookup_cons, List.lookup_cons, ih]

theorem get?_set_of_ne {uri other : Bytes} (h : other ≠ uri) (t : DocumentTable) (d : Document) :
    (t.set uri d).get? other = t.get? other := by
  have hother : (other == uri) = false := by simpa using h
  show ((uri, d) :: t.entries.filter (·.1 != uri)).lookup other = t.entries.lookup other
  rw [List.lookup_cons, hother]
  exact lookup_filter_ne h t.entries

@[simp] theorem language_set (t : DocumentTable) (uri : Bytes) (d : Document) :
    (t.set uri d).language = t.language := rfl

@[simp] theorem fingerprint_set (t : DocumentTable) (uri : Bytes) (d : Document) :
    (t.set uri d).fingerprint = t.fingerprint := rfl

/-! ### The documents of a table -/

/-- The URIs of the documents in the table. -/
def uris (t : DocumentTable) : List Bytes := t.entries.map (·.1)

/-- A table that keeps every document once still does when one is recorded. -/
theorem nodup_uris_set {t : DocumentTable} (h : t.uris.Nodup) (uri : Bytes) (d : Document) :
    (t.set uri d).uris.Nodup := by
  show (uri :: (t.entries.filter (·.1 != uri)).map (·.1)).Nodup
  refine List.nodup_cons.mpr ⟨?_, ?_⟩
  · simp
  · exact h.sublist ((List.filter_sublist).map _)

/-- A document is in the table exactly when it can be looked up. -/
theorem mem_uris_iff (t : DocumentTable) (uri : Bytes) :
    uri ∈ t.uris ↔ (t.get? uri).isSome = true := by
  show uri ∈ t.entries.map (·.1) ↔ (t.entries.lookup uri).isSome = true
  induction t.entries with
  | nil => simp
  | cons entry rest ih =>
      obtain ⟨key, d⟩ := entry
      by_cases hkey : uri = key
      · simp [hkey]
      · have hbeq : (uri == key) = false := by simpa using hkey
        rw [List.map_cons, List.mem_cons, List.lookup_cons, hbeq, ← ih]
        exact or_iff_right hkey

/-! ### The ends of a call -/

variable {t : DocumentTable} {disk : Disk} {send : DocumentNotice → Option Failure} {path : Bytes}

/-- The ends that a call for a path can come to. -/
inductive Outcome (t : DocumentTable) (disk : Disk) (send : DocumentNotice → Option Failure)
    (path : Bytes) : Ensured → Prop
  /-- The file could not be looked at or read. -/
  | refused {failure : Failure} (plan : t.plan disk path = .refused failure) :
      Outcome t disk send path
        { uri := uriOf disk path, failure := some failure, table := t }
  /-- The file was not changed since it was looked at last. -/
  | known {d : Document} (entry : t.get? (uriOf disk path) = some d)
      (time : disk.modified (disk.absolute path) = .ok d.modified) :
      Outcome t disk send path { uri := uriOf disk path, table := t }
  /-- The file was touched, and holds what it held. -/
  | touched {d : Document} {modified : Int} {text : Bytes}
      (entry : t.get? (uriOf disk path) = some d)
      (time : disk.modified (disk.absolute path) = .ok modified)
      (content : disk.read (disk.absolute path) = .ok text)
      (same : d.fingerprint = t.fingerprint text) :
      Outcome t disk send path
        { uri := uriOf disk path, table := t.set (uriOf disk path) { d with modified } }
  /-- The document was opened. -/
  | opened {modified : Int} {text : Bytes} (entry : t.get? (uriOf disk path) = none)
      (time : disk.modified (disk.absolute path) = .ok modified)
      (content : disk.read (disk.absolute path) = .ok text)
      (accepted : send (.opened (uriOf disk path) t.language text) = none) :
      Outcome t disk send path
        (afterSending (uriOf disk path)
          (t.set (uriOf disk path) ⟨1, modified, t.fingerprint text⟩)
          (.opened (uriOf disk path) t.language text))
  /-- The document could not be opened. -/
  | unopened {modified : Int} {text : Bytes} {failure : Failure}
      (entry : t.get? (uriOf disk path) = none)
      (time : disk.modified (disk.absolute path) = .ok modified)
      (content : disk.read (disk.absolute path) = .ok text)
      (lost : send (.opened (uriOf disk path) t.language text) = some failure) :
      Outcome t disk send path
        { uri := uriOf disk path, failure := some failure, table := t }
  /-- The backend was told the new text. -/
  | changed {d : Document} {modified : Int} {text : Bytes}
      (entry : t.get? (uriOf disk path) = some d)
      (time : disk.modified (disk.absolute path) = .ok modified)
      (content : disk.read (disk.absolute path) = .ok text)
      (other : d.fingerprint ≠ t.fingerprint text)
      (accepted : send (.changed (uriOf disk path) (d.version + 1) text) = none) :
      Outcome t disk send path
        (afterSending (uriOf disk path)
          (t.set (uriOf disk path) ⟨d.version + 1, modified, t.fingerprint text⟩)
          (.changed (uriOf disk path) (d.version + 1) text))
  /-- The backend could not be told the new text. -/
  | untold {d : Document} {modified : Int} {text : Bytes} {failure : Failure}
      (entry : t.get? (uriOf disk path) = some d)
      (time : disk.modified (disk.absolute path) = .ok modified)
      (content : disk.read (disk.absolute path) = .ok text)
      (other : d.fingerprint ≠ t.fingerprint text)
      (lost : send (.changed (uriOf disk path) (d.version + 1) text) = some failure) :
      Outcome t disk send path
        { uri := uriOf disk path, failure := some failure
          table := t.set (uriOf disk path) { d with modified } }

theorem ensure_of_refused {failure : Failure} (h : t.plan disk path = .refused failure) :
    t.ensure disk send path
      = { uri := uriOf disk path, failure := some failure, table := t } := by
  simp only [ensure, h]

theorem ensure_of_settled {table : DocumentTable} (h : t.plan disk path = .settled table) :
    t.ensure disk send path = { uri := uriOf disk path, table } := by
  simp only [ensure, h]

theorem ensure_of_accepted {notice : DocumentNotice} {sent unsent : DocumentTable}
    (h : t.plan disk path = .send notice sent unsent) (accepted : send notice = none) :
    t.ensure disk send path = afterSending (uriOf disk path) sent notice := by
  simp only [ensure, h, accepted]

theorem ensure_of_lost {notice : DocumentNotice} {sent unsent : DocumentTable} {failure : Failure}
    (h : t.plan disk path = .send notice sent unsent) (lost : send notice = some failure) :
    t.ensure disk send path
      = { uri := uriOf disk path, failure := some failure, table := unsent } := by
  simp only [ensure, h, lost]

theorem planText_of_none {uri : Bytes} (h : t.get? uri = none) (modified : Int) (text : Bytes) :
    t.planText uri modified text
      = .send (.opened uri t.language text) (t.set uri ⟨1, modified, t.fingerprint text⟩) t := by
  simp only [planText, h]

theorem planText_of_same {uri text : Bytes} {d : Document} (h : t.get? uri = some d)
    (same : d.fingerprint = t.fingerprint text) (modified : Int) :
    t.planText uri modified text = .settled (t.set uri { d with modified }) := by
  simp only [planText, h, if_pos same]

theorem planText_of_other {uri text : Bytes} {d : Document} (h : t.get? uri = some d)
    (other : d.fingerprint ≠ t.fingerprint text) (modified : Int) :
    t.planText uri modified text
      = .send (.changed uri (d.version + 1) text)
          (t.set uri ⟨d.version + 1, modified, t.fingerprint text⟩)
          (t.set uri { d with modified }) := by
  simp only [planText, h, if_neg other]

/-- A call that has read the file ends in one of the ways that follow reading. -/
theorem outcome_of_planText {modified : Int} {text : Bytes}
    (time : disk.modified (disk.absolute path) = .ok modified)
    (content : disk.read (disk.absolute path) = .ok text)
    (h : t.plan disk path = t.planText (uriOf disk path) modified text) :
    Outcome t disk send path (t.ensure disk send path) := by
  cases hentry : t.get? (uriOf disk path) with
  | none =>
      rw [planText_of_none hentry] at h
      cases hsend : send (.opened (uriOf disk path) t.language text) with
      | none =>
          rw [ensure_of_accepted h hsend]
          exact .opened hentry time content hsend
      | some failure =>
          rw [ensure_of_lost h hsend]
          exact .unopened hentry time content hsend
  | some d =>
      by_cases hsame : d.fingerprint = t.fingerprint text
      · rw [planText_of_same hentry hsame] at h
        rw [ensure_of_settled h]
        exact .touched hentry time content hsame
      · rw [planText_of_other hentry hsame] at h
        cases hsend : send (.changed (uriOf disk path) (d.version + 1) text) with
        | none =>
            rw [ensure_of_accepted h hsend]
            exact .changed hentry time content hsame hsend
        | some failure =>
            rw [ensure_of_lost h hsend]
            exact .untold hentry time content hsame hsend

/-- **Every call ends in one of the listed ways.** -/
theorem ensure_outcome (t : DocumentTable) (disk : Disk) (send : DocumentNotice → Option Failure)
    (path : Bytes) : Outcome t disk send path (t.ensure disk send path) := by
  cases hmodified : disk.modified (disk.absolute path) with
  | error e =>
      have hplan : ∃ failure, t.plan disk path = .refused failure := by
        simp only [plan, hmodified]
        exact ⟨_, rfl⟩
      obtain ⟨failure, hplan⟩ := hplan
      rw [ensure_of_refused hplan]
      exact .refused hplan
  | ok modified =>
      by_cases hknown : (t.get? (uriOf disk path)).map (·.modified) = some modified
      · have hplan : t.plan disk path = .settled t := by
          simp only [plan, hmodified]
          exact if_pos hknown
        obtain ⟨d, hentry, rfl⟩ := Option.map_eq_some_iff.mp hknown
        rw [ensure_of_settled hplan]
        exact .known hentry hmodified
      · cases hcontent : disk.read (disk.absolute path) with
        | error reason =>
            have hplan : t.plan disk path
                = .refused { kind := .fileAccess, message := reason } := by
              simp only [plan, hmodified, hcontent]
              exact if_neg hknown
            rw [ensure_of_refused hplan]
            exact .refused hplan
        | ok text =>
            refine outcome_of_planText hmodified hcontent ?_
            simp only [plan, hmodified, hcontent]
            exact if_neg hknown

/-! ### What every end has in common -/

variable {done : Ensured}

/-- The action that goes with what was sent. -/
def actionFor : Option DocumentNotice → SyncAction
  | none => .none
  | some (.opened _ _ _) => .opened
  | some (.changed _ _ _) => .changed

@[simp] theorem notice_afterSending (uri : Bytes) (table : DocumentTable)
    (notice : DocumentNotice) : (afterSending uri table notice).notice = some notice := by
  cases notice <;> rfl

@[simp] theorem table_afterSending (uri : Bytes) (table : DocumentTable) (notice : DocumentNotice) :
    (afterSending uri table notice).table = table := by
  cases notice <;> rfl

@[simp] theorem failure_afterSending (uri : Bytes) (table : DocumentTable)
    (notice : DocumentNotice) : (afterSending uri table notice).failure = none := by
  cases notice <;> rfl

namespace Outcome

/-- What was sent is about the document that was asked for. -/
theorem uri_of_notice (h : Outcome t disk send path done) :
    ∀ notice ∈ done.notice, notice.uri = uriOf disk path := by
  cases h <;> simp [DocumentNotice.uri]

/-- What was sent was accepted. -/
theorem accepted_of_notice (h : Outcome t disk send path done) :
    ∀ notice ∈ done.notice, send notice = none := by
  cases h with
  | opened entry time content accepted => simpa using accepted
  | changed entry time content other accepted => simpa using accepted
  | _ => simp

theorem language_eq (h : Outcome t disk send path done) : done.table.language = t.language := by
  cases h <;> simp

/-- Texts are marked as before. -/
theorem fingerprint_eq (h : Outcome t disk send path done) :
    done.table.fingerprint = t.fingerprint := by
  cases h <;> simp

theorem nodup_uris (h : Outcome t disk send path done) (distinct : t.uris.Nodup) :
    done.table.uris.Nodup := by
  cases h with
  | refused => exact distinct
  | known => exact distinct
  | unopened => exact distinct
  | touched => exact nodup_uris_set distinct _ _
  | untold => exact nodup_uris_set distinct _ _
  | opened => simpa using nodup_uris_set distinct _ _
  | changed => simpa using nodup_uris_set distinct _ _

/-- A call that has sent something has not failed. -/
theorem failure_of_notice (h : Outcome t disk send path done) :
    ∀ notice ∈ done.notice, done.failure = none := by
  cases h <;> simp

/-- A call names what it has sent. -/
theorem action_eq (h : Outcome t disk send path done) : done.action = actionFor done.notice := by
  cases h <;> rfl

theorem uri_eq (h : Outcome t disk send path done) : done.uri = uriOf disk path := by
  cases h <;> rfl

/-- Other documents are left alone. -/
theorem get?_of_ne (h : Outcome t disk send path done) {uri : Bytes}
    (hne : uri ≠ uriOf disk path) : done.table.get? uri = t.get? uri := by
  cases h <;> simp [get?_set_of_ne hne]

/-- After a call that has not failed, the table has the time of the present file. -/
theorem time_of_success (h : Outcome t disk send path done) (hfailure : done.failure = none) :
    ∃ d, done.table.get? (uriOf disk path) = some d
      ∧ disk.modified (disk.absolute path) = .ok d.modified := by
  cases h with
  | refused => simp at hfailure
  | unopened => simp at hfailure
  | untold => simp at hfailure
  | @known d entry time => exact ⟨d, entry, time⟩
  | touched entry time => exact ⟨_, get?_set_self _ _ _, time⟩
  | opened entry time =>
      rw [table_afterSending]
      exact ⟨_, get?_set_self _ _ _, time⟩
  | changed entry time =>
      rw [table_afterSending]
      exact ⟨_, get?_set_self _ _ _, time⟩

end Outcome

/-- A call that succeeded without sending anything has not asked the sender. -/
theorem ensure_eq_of_quiet (hfailure : (t.ensure disk send path).failure = none)
    (hnotice : (t.ensure disk send path).notice = none) (other : DocumentNotice → Option Failure) :
    t.ensure disk other path = t.ensure disk send path := by
  cases hplan : t.plan disk path with
  | refused failure =>
      rw [ensure_of_refused hplan] at hfailure
      simp at hfailure
  | settled table => rw [ensure_of_settled hplan, ensure_of_settled hplan]
  | send notice sent unsent =>
      cases hsend : send notice with
      | none =>
          rw [ensure_of_accepted hplan hsend] at hnotice
          simp at hnotice
      | some failure =>
          rw [ensure_of_lost hplan hsend] at hfailure
          simp at hfailure

end AnalyzerBridge.DocumentTable

/-
A table of documents through a run of events.

The files change, documents are brought up to date, the table is cleared or asked about a
document, in any order.  A `DocumentRun` is what there is between two events: the disk, the
table, and the notifications that went out since the documents were last forgotten.

Calls that come from several threads hold a lock from the look at the table to the end, so
one call is one event.
-/
import AnalyzerBridge.Proofs.Documents.Ensure

namespace AnalyzerBridge

open Host (Disk)

/-- Something that happens while documents are kept up to date. -/
inductive DocumentEvent where
  /-- The files, or the directory they are seen from, become others. -/
  | filesChange (disk : Disk)
  /-- A document is brought up to date, with a sender of its own. -/
  | ensure (path : Bytes) (send : DocumentNotice → Option Failure)
  /-- All documents are forgotten. -/
  | clear
  /-- The table is asked about a document. -/
  | query (uri : Bytes)

/-- A table of documents between two events. -/
structure DocumentRun where
  /-- The files. -/
  disk : Disk
  /-- The documents. -/
  table : DocumentTable
  /-- The notifications sent since the documents were last forgotten, the latest last. -/
  sent : List DocumentNotice := []

namespace DocumentRun

open DocumentTable

/-- No document has been told of yet. -/
def start (disk : Disk) (language : Bytes) (fingerprint : Bytes → UInt64 := byteFingerprint) :
    DocumentRun :=
  { disk, table := { language, fingerprint } }

/-- The end that a call comes to. -/
def ensured (s : DocumentRun) (path : Bytes) (send : DocumentNotice → Option Failure) : Ensured :=
  s.table.ensure s.disk send path

/-- What a call that came to the given end leaves. -/
def record (s : DocumentRun) (done : Ensured) : DocumentRun :=
  { s with table := done.table, sent := s.sent ++ done.notice.toList }

/-- What an event leaves. -/
def step (s : DocumentRun) : DocumentEvent → DocumentRun
  | .filesChange disk => { s with disk }
  | .ensure path send => s.record (s.ensured path send)
  | .clear => { s with table := s.table.clear, sent := [] }
  | .query _ => s

/-- What a run of events leaves. -/
def run (s : DocumentRun) (events : List DocumentEvent) : DocumentRun := events.foldl step s

/-- What was sent about one document since all were last forgotten. -/
def told (s : DocumentRun) (uri : Bytes) : List DocumentNotice := s.sent.filter (·.uri = uri)

theorem run_concat (s : DocumentRun) (events : List DocumentEvent) (e : DocumentEvent) :
    s.run (events ++ [e]) = (s.run events).step e := by
  rw [run, List.foldl_append]
  rfl

theorem fingerprint_step (s : DocumentRun) (e : DocumentEvent) :
    (s.step e).table.fingerprint = s.table.fingerprint := by
  cases e with
  | ensure path send => exact (ensure_outcome _ _ _ _).fingerprint_eq
  | _ => rfl

/-- What every event keeps is kept by a run. -/
theorem run_invariant {P : DocumentRun → Prop} (hstep : ∀ s e, P s → P (s.step e)) :
    ∀ (events : List DocumentEvent) (s : DocumentRun), P s → P (s.run events) := by
  intro events
  induction events with
  | nil => intro s h; exact h
  | cons e rest ih => intro s h; exact ih (s.step e) (hstep s e h)

/-! ### What a document was told -/

variable {s : DocumentRun} {done : Ensured}

theorem told_record_of_none (h : done.notice = none) (uri : Bytes) :
    (s.record done).told uri = s.told uri := by
  simp [record, told, h]

theorem told_record_opened (s : DocumentRun) (uri language text : Bytes) (table : DocumentTable) :
    (s.record (afterSending uri table (.opened uri language text))).told uri
      = s.told uri ++ [.opened uri language text] := by
  simp [record, told, DocumentNotice.uri]

theorem told_record_changed (s : DocumentRun) (uri : Bytes) (version : Nat) (text : Bytes)
    (table : DocumentTable) :
    (s.record (afterSending uri table (.changed uri version text))).told uri
      = s.told uri ++ [.changed uri version text] := by
  simp [record, told, DocumentNotice.uri]

theorem told_record_of_ne {uri : Bytes} (h : ∀ notice ∈ done.notice, notice.uri ≠ uri) :
    (s.record done).told uri = s.told uri := by
  cases hnotice : done.notice with
  | none => exact told_record_of_none hnotice uri
  | some notice =>
      have huri : notice.uri ≠ uri := h notice hnotice
      simp [record, told, hnotice, huri]

/-- What holds of every document before a call, and of the one it was made for afterwards,
holds of every document afterwards. -/
theorem record_of_self {K : Bytes → List DocumentNotice → Option Document → Prop} {path : Bytes}
    {send : DocumentNotice → Option Failure} (hdone : Outcome s.table s.disk send path done)
    (hbefore : ∀ uri, K uri (s.told uri) (s.table.get? uri))
    (hself : K (uriOf s.disk path) ((s.record done).told (uriOf s.disk path))
      (done.table.get? (uriOf s.disk path))) (uri : Bytes) :
    K uri ((s.record done).told uri) ((s.record done).table.get? uri) := by
  by_cases huri : uri = uriOf s.disk path
  · rw [huri]
    exact hself
  · have htold : (s.record done).told uri = s.told uri := by
      refine told_record_of_ne fun notice hnotice => ?_
      rw [hdone.uri_of_notice notice hnotice]
      exact Ne.symm huri
    have hentry : (s.record done).table.get? uri = s.table.get? uri := hdone.get?_of_ne huri
    rw [htold, hentry]
    exact hbefore uri

/-- A document was told something exactly when a notification about it was sent. -/
theorem told_eq_nil_iff (s : DocumentRun) (uri : Bytes) :
    s.told uri = [] ↔ uri ∉ s.sent.map (·.uri) := by
  simp [told]

end DocumentRun

end AnalyzerBridge

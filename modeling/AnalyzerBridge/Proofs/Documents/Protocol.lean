/-
The order in which documents are opened and changed.

What the backend is told about a document between two clearings is one conversation: the
document is opened once, as version one, and then changed, each time with the next version
and another text.  No failure on the way breaks that, because the table takes over a
version and a fingerprint only together with the notification that carried them.

`Kept` is the invariant, for one document: its notifications are a conversation, and the
table holds the version and the fingerprint of the last one.  It is silent about the time
of change, which a failed call records as well.
-/
import Mathlib.Data.List.Chain
import Mathlib.Data.List.Dedup
import Mathlib.Data.List.Perm.Basic
import AnalyzerBridge.Proofs.Documents.Run

namespace AnalyzerBridge

open Host (Disk)

/-! ### Conversations about a document -/

/-- The notifications about a document, in order, are an opening followed by changes. -/
structure IsConversation (language uri : Bytes) (told : List DocumentNotice) : Prop where
  /-- The first opens the document. -/
  first : ∀ notice ∈ told.head?, ∃ text, notice = .opened uri language text
  /-- All others change it. -/
  later : ∀ notice ∈ told.tail, ∃ version text, notice = .changed uri version text
  /-- The versions count from one. -/
  versions : told.map (·.version) = List.range' 1 told.length
  /-- Each tells another text than the one before. -/
  texts : told.IsChain (·.text ≠ ·.text)

namespace IsConversation

variable {language uri : Bytes} {told : List DocumentNotice}

theorem silent (language uri : Bytes) : IsConversation language uri [] where
  first := by simp
  later := by simp
  versions := rfl
  texts := List.isChain_nil

theorem opened (language uri text : Bytes) :
    IsConversation language uri [.opened uri language text] where
  first := by simp
  later := by simp
  versions := rfl
  texts := List.isChain_singleton _

/-- The last version is the number of notifications. -/
theorem version_last (h : IsConversation language uri told) {last : DocumentNotice}
    (hlast : last ∈ told.getLast?) : last.version = told.length := by
  have hversion : (told.map (·.version)).getLast? = some last.version := by
    rw [List.getLast?_map, hlast]
    rfl
  rw [h.versions, List.getLast?_range'] at hversion
  by_cases hzero : told.length = 0
  · simp [hzero] at hversion
  · rw [if_neg hzero, Option.some.injEq] at hversion
    omega

/-- A change to another text, with the next version, goes on with a conversation. -/
theorem changed (h : IsConversation language uri told) {last : DocumentNotice}
    (hlast : last ∈ told.getLast?) {text : Bytes} (htext : last.text ≠ text) :
    IsConversation language uri (told ++ [.changed uri (last.version + 1) text]) := by
  have hne : told ≠ [] := by
    rintro rfl
    simp at hlast
  refine ⟨?_, ?_, ?_, ?_⟩
  · rw [List.head?_append_of_ne_nil _ hne]
    exact h.first
  · rw [List.tail_append_of_ne_nil hne]
    intro notice hnotice
    rcases List.mem_append.mp hnotice with hold | hnew
    · exact h.later notice hold
    · exact ⟨last.version + 1, text, List.mem_singleton.mp hnew⟩
  · rw [List.map_append, h.versions, List.length_append, List.length_singleton,
      List.range'_1_concat, h.version_last hlast, Nat.add_comm 1]
    rfl
  · refine h.texts.append (List.isChain_singleton _) ?_
    intro before hbefore after hafter
    obtain rfl : before = last := Option.mem_unique hbefore hlast
    obtain rfl : _ = after := by simpa using hafter
    exact htext

end IsConversation

/-! ### What the table keeps of a conversation -/

/-- What the backend was told about a document, and what the table keeps of it. -/
structure Kept (fingerprint : Bytes → UInt64) (language uri : Bytes) (told : List DocumentNotice)
    (entry : Option Document) : Prop where
  /-- The notifications are a conversation. -/
  conversation : IsConversation language uri told
  /-- The table has the version and the fingerprint of the last one. -/
  last : entry.map (fun d => (d.version, d.fingerprint))
    = told.getLast?.map (fun notice => (notice.version, fingerprint notice.text))

namespace Kept

variable {fingerprint : Bytes → UInt64} {language uri : Bytes} {told : List DocumentNotice}
  {entry : Option Document}

theorem silent (fingerprint : Bytes → UInt64) (language uri : Bytes) :
    Kept fingerprint language uri [] none :=
  ⟨.silent language uri, rfl⟩

theorem eq_nil (h : Kept fingerprint language uri told none) : told = [] := by
  have hlast := h.last
  simpa using hlast.symm

theorem exists_last {d : Document} (h : Kept fingerprint language uri told (some d)) :
    ∃ last ∈ told.getLast?, last.version = d.version ∧ fingerprint last.text = d.fingerprint := by
  obtain ⟨last, hlast, heq⟩ := Option.map_eq_some_iff.mp h.last.symm
  rw [Prod.mk.injEq] at heq
  exact ⟨last, hlast, heq⟩

/-- Another time of change is none of the backend's business. -/
theorem retimed {d : Document} (h : Kept fingerprint language uri told (some d)) (modified : Int) :
    Kept fingerprint language uri told (some { d with modified }) :=
  ⟨h.conversation, h.last⟩

theorem opened (h : Kept fingerprint language uri told none) (modified : Int) (text : Bytes) :
    Kept fingerprint language uri (told ++ [.opened uri language text])
      (some ⟨1, modified, fingerprint text⟩) := by
  rw [h.eq_nil]
  exact ⟨.opened language uri text, rfl⟩

theorem changed {d : Document} (h : Kept fingerprint language uri told (some d)) (modified : Int)
    {text : Bytes} (other : d.fingerprint ≠ fingerprint text) :
    Kept fingerprint language uri (told ++ [.changed uri (d.version + 1) text])
      (some ⟨d.version + 1, modified, fingerprint text⟩) := by
  obtain ⟨last, hlast, hversion, hfingerprint⟩ := h.exists_last
  have htext : last.text ≠ text := by
    rintro rfl
    exact other hfingerprint.symm
  rw [← hversion]
  refine ⟨h.conversation.changed hlast htext, ?_⟩
  rw [List.getLast?_concat]
  rfl

theorem isSome_iff (h : Kept fingerprint language uri told entry) : entry.isSome = true ↔ told ≠ [] := by
  have hsome := congrArg Option.isSome h.last
  rw [Option.isSome_map, Option.isSome_map] at hsome
  rw [hsome]
  exact List.getLast?_isSome

theorem version_eq (h : Kept fingerprint language uri told entry) :
    entry.map (·.version) = told.getLast?.map (·.version) := by
  have hversion := congrArg (Option.map Prod.fst) h.last
  rw [Option.map_map, Option.map_map] at hversion
  exact hversion

end Kept

/-! ### The invariant of a run -/

namespace DocumentRun

open DocumentTable

/-- The table keeps every document once, and of each what the backend was told last. -/
structure Orderly (language : Bytes) (s : DocumentRun) : Prop where
  language_eq : s.table.language = language
  distinct : s.table.uris.Nodup
  kept : ∀ uri, Kept s.table.fingerprint language uri (s.told uri) (s.table.get? uri)

variable {language : Bytes} {s : DocumentRun}

theorem orderly_start (disk : Disk) (language : Bytes) (fingerprint : Bytes → UInt64) :
    Orderly language (start disk language fingerprint) where
  language_eq := rfl
  distinct := List.nodup_nil
  kept uri := .silent fingerprint language uri

/-- A call keeps what is known of the document it was made for. -/
theorem kept_record (h : Orderly language s) {send : DocumentNotice → Option Failure}
    {path : Bytes} {done : Ensured}
    (hdone : Outcome s.table s.disk send path done) :
    Kept s.table.fingerprint language (uriOf s.disk path)
      ((s.record done).told (uriOf s.disk path))
      (done.table.get? (uriOf s.disk path)) := by
  have hkept := h.kept (uriOf s.disk path)
  cases hdone with
  | refused =>
      rw [told_record_of_none rfl]
      exact hkept
  | known =>
      rw [told_record_of_none rfl]
      exact hkept
  | unopened =>
      rw [told_record_of_none rfl]
      exact hkept
  | touched entry =>
      rw [told_record_of_none rfl, get?_set_self]
      rw [entry] at hkept
      exact hkept.retimed _
  | untold entry =>
      rw [told_record_of_none rfl, get?_set_self]
      rw [entry] at hkept
      exact hkept.retimed _
  | opened entry =>
      rw [told_record_opened, h.language_eq, table_afterSending, get?_set_self]
      rw [entry] at hkept
      exact hkept.opened _ _
  | changed entry time content other =>
      rw [told_record_changed, table_afterSending, get?_set_self]
      rw [entry] at hkept
      exact hkept.changed _ other

theorem orderly_record (h : Orderly language s) {send : DocumentNotice → Option Failure}
    {path : Bytes} {done : Ensured}
    (hdone : Outcome s.table s.disk send path done) :
    Orderly language (s.record done) where
  language_eq := hdone.language_eq.trans h.language_eq
  distinct := hdone.nodup_uris h.distinct
  kept := by
    rw [show (s.record done).table.fingerprint = s.table.fingerprint from hdone.fingerprint_eq]
    exact record_of_self hdone h.kept (kept_record h hdone)

/-- Every event keeps a run orderly. -/
theorem orderly_step (e : DocumentEvent) (h : Orderly language s) :
    Orderly language (s.step e) := by
  cases e with
  | filesChange disk => exact ⟨h.language_eq, h.distinct, h.kept⟩
  | ensure path send => exact orderly_record h (ensure_outcome _ _ _ _)
  | clear => exact ⟨h.language_eq, List.nodup_nil, fun uri => .silent _ language uri⟩
  | query uri => exact h

theorem orderly_run (disk : Disk) (language : Bytes) (fingerprint : Bytes → UInt64)
    (events : List DocumentEvent) :
    Orderly language ((start disk language fingerprint).run events) :=
  run_invariant (P := Orderly language) (fun _ e h => orderly_step e h) events _
    (orderly_start disk language fingerprint)

/-- The table has as many documents as were told something. -/
theorem size_eq (h : Orderly language s) :
    s.table.size = (s.sent.map (·.uri)).dedup.length := by
  have hperm : s.table.uris.Perm (s.sent.map (·.uri)).dedup := by
    refine (List.perm_ext_iff_of_nodup h.distinct (List.nodup_dedup _)).mpr fun uri => ?_
    rw [mem_uris_iff, (h.kept uri).isSome_iff, List.mem_dedup, Ne,
      told_eq_nil_iff, not_not]
  rw [← hperm.length_eq]
  exact (List.length_map _).symm

/-! ### The protocol -/

/-- What the notifications, the table and the answers of calls have to do with one another. -/
structure FollowsProtocol (language : Bytes) (s : DocumentRun) : Prop where
  /-- Each document is opened once and then changed, version by version. -/
  conversation : ∀ uri, IsConversation language uri (s.told uri)
  /-- A document is open if a notification about it was sent. -/
  isOpen : ∀ uri, s.table.isOpen uri = true ↔ s.told uri ≠ []
  /-- The version is that of the last notification. -/
  version : ∀ uri, s.table.version? uri = (s.told uri).getLast?.map (·.version)
  /-- The documents are counted that a notification was sent about. -/
  size : s.table.size = (s.sent.map (·.uri)).dedup.length
  /-- A call names what it has sent. -/
  action : ∀ path send,
    (s.ensured path send).action = actionFor (s.ensured path send).notice
  /-- What a call has sent was accepted, and it has not failed. -/
  accepted : ∀ path send, ∀ notice ∈ (s.ensured path send).notice,
    send notice = none ∧ (s.ensured path send).failure = none
      ∧ notice.uri = (s.ensured path send).uri
  /-- A call that has neither failed nor sent anything did not ask its sender. -/
  quiet : ∀ path send, (s.ensured path send).failure = none → (s.ensured path send).notice = none →
    ∀ other, s.ensured path other = s.ensured path send

/-- **Whatever happens to files, calls and senders, the backend sees an opening and then
changes, and the table and the answers agree with what was sent.** -/
theorem run_followsProtocol (disk : Disk) (language : Bytes) (fingerprint : Bytes → UInt64)
    (events : List DocumentEvent) :
    FollowsProtocol language ((start disk language fingerprint).run events) := by
  have h := orderly_run disk language fingerprint events
  refine ⟨?_, ?_, ?_, size_eq h, ?_, ?_, ?_⟩
  · intro uri
    exact (h.kept uri).conversation
  · intro uri
    exact (h.kept uri).isSome_iff
  · intro uri
    exact (h.kept uri).version_eq
  · intro path send
    exact (ensure_outcome _ _ _ _).action_eq
  · intro path send notice hnotice
    have hdone := ensure_outcome ((start disk language fingerprint).run events).table
      ((start disk language fingerprint).run events).disk send path
    refine ⟨hdone.accepted_of_notice notice hnotice, hdone.failure_of_notice notice hnotice, ?_⟩
    rw [hdone.uri_of_notice notice hnotice]
    exact hdone.uri_eq.symm
  · intro path send hfailure hnotice other
    exact ensure_eq_of_quiet hfailure hnotice other

end DocumentRun

end AnalyzerBridge

/-
The backend never works on stale text.

Whether a text has to be sent is decided from two marks of it, the file's time of change
and the text's fingerprint, and both are stored at moments that have passed since.  What
makes them good enough is the invariant `Fresh`: the text that the backend was told last
has the stored fingerprint, and it is what the file once held with the stored time of
change.  So if the time is still the same, the file holds that text now.

The marks stand for the text only as long as the outside does its part: files that hold
different things at two moments were changed at different times, and no two of the texts
that are looked at share a fingerprint.
-/
import AnalyzerBridge.Proofs.Documents.Protocol
import AnalyzerBridge.Proofs.Path
import AnalyzerBridge.Proofs.Uri

namespace AnalyzerBridge

open Host (Disk)

/-! ### Paths that can be looked at -/

/-- The normal form of a path starts at the root, if there is anything to be found at it. -/
theorem isAbsolute_of_modified {disk : Disk} {path : Bytes} {modified : Int}
    (h : disk.modified (disk.absolute path) = .ok modified) :
    Path.isAbsolute (disk.absolute path) = true := by
  by_cases hpath : path = []
  · have hnone : disk.absolute path = [] := by rw [hpath]; rfl
    rw [hnone] at h
    exact absurd h (by simp [Disk.modified, Disk.stat, Host.FileTree.stat, Host.FileTree.resolve,
      Bytes.untilZero, Except.map, bind, Except.bind])
  · exact Path.isAbsolute_absolute rfl hpath

namespace DocumentRun

open DocumentTable

/-! ### What a run looks at -/

/-- The disks that there are in a run, one for each moment between two events. -/
def disks : DocumentRun → List DocumentEvent → List Disk
  | s, [] => [s.disk]
  | s, e :: rest => s.disk :: disks (s.step e) rest

/-- The text of the file that an event asks for. -/
def text? (s : DocumentRun) : DocumentEvent → Option Bytes
  | .ensure path _ => (s.disk.read (s.disk.absolute path)).toOption
  | _ => none

/-- The texts of the files that a run asks for. -/
def texts : DocumentRun → List DocumentEvent → List Bytes
  | _, [] => []
  | s, e :: rest => (s.text? e).toList ++ texts (s.step e) rest

/-! ### What is expected of the outside -/

/-- Every notification can be sent. -/
def SendsSucceed (events : List DocumentEvent) : Prop :=
  ∀ path send, .ensure path send ∈ events → ∀ notice, send notice = none

/-- What is stored at a path is the same whenever its time of change is. -/
def TimesTell (disks : List Disk) : Prop :=
  ∀ disk ∈ disks, ∀ other ∈ disks, ∀ path, Path.isAbsolute path = true →
    ∀ time, disk.modified path = .ok time → other.modified path = .ok time →
      disk.read path = other.read path

/-- No two of the texts share a fingerprint. -/
def FingerprintsTell (fingerprint : Bytes → UInt64) (texts : List Bytes) : Prop :=
  ∀ text ∈ texts, ∀ other ∈ texts, fingerprint text = fingerprint other → text = other

/-! ### The invariant -/

/-- The file behind a URI was seen on one of the disks, changed at the given time and with
the given text. -/
def Seen (disks : List Disk) (uri : Bytes) (modified : Int) (text : Bytes) : Prop :=
  ∃ disk ∈ disks, ∃ path, Path.isAbsolute path = true ∧ uri = Uri.ofPath path
    ∧ disk.modified path = .ok modified ∧ disk.read path = .ok text

/-- The text that the backend was told last was seen when the file had been changed at the
time in the table, and has the fingerprint there. -/
def Fresh (fingerprint : Bytes → UInt64) (disks : List Disk) (texts : List Bytes) (uri : Bytes)
    (told : List DocumentNotice) (entry : Option Document) : Prop :=
  ∀ d ∈ entry, ∃ last ∈ told.getLast?, last.text ∈ texts
    ∧ fingerprint last.text = d.fingerprint ∧ Seen disks uri d.modified last.text

variable {fingerprint : Bytes → UInt64} {held : List Disk} {read : List Bytes} {s : DocumentRun} {path : Bytes}
  {send : DocumentNotice → Option Failure} {done : Ensured}

/-- What a call finds is seen. -/
theorem seen_now (hdisk : s.disk ∈ held) {modified : Int} {text : Bytes}
    (time : s.disk.modified (s.disk.absolute path) = .ok modified)
    (content : s.disk.read (s.disk.absolute path) = .ok text) :
    Seen held (uriOf s.disk path) modified text :=
  ⟨s.disk, hdisk, s.disk.absolute path, isAbsolute_of_modified time, rfl, time, content⟩

/-- The same text seen again, after the file was touched. -/
theorem Fresh.touched {uri : Bytes} {told : List DocumentNotice} {d : Document}
    (h : Fresh fingerprint held read uri told (some d)) (hmarks : FingerprintsTell fingerprint read) {modified : Int}
    {text : Bytes} (htext : text ∈ read) (same : d.fingerprint = fingerprint text)
    (hseen : Seen held uri modified text) :
    Fresh fingerprint held read uri told (some { d with modified }) := by
  obtain ⟨last, hlast, hread, hfingerprint, -⟩ := h d rfl
  obtain rfl : last.text = text := hmarks _ hread _ htext (hfingerprint.trans same)
  rintro _ ⟨rfl⟩
  exact ⟨last, hlast, hread, hfingerprint, hseen⟩

/-- A text that has just been seen and sent is fresh. -/
theorem fresh_of_sent {uri : Bytes} (told : List DocumentNotice) {notice : DocumentNotice}
    {version : Nat} {modified : Int} (htext : notice.text ∈ read)
    (hseen : Seen held uri modified notice.text) :
    Fresh fingerprint held read uri (told ++ [notice])
      (some ⟨version, modified, fingerprint notice.text⟩) := by
  rintro _ ⟨rfl⟩
  exact ⟨notice, List.getLast?_concat, htext, rfl, hseen⟩

/-- A call whose notification can be sent leaves its document fresh. -/
theorem fresh_record (hmark : s.table.fingerprint = fingerprint)
    (hsend : ∀ notice, send notice = none) (hdisk : s.disk ∈ held)
    (htext : ∀ text, s.disk.read (s.disk.absolute path) = .ok text → text ∈ read)
    (hmarks : FingerprintsTell fingerprint read)
    (h : Fresh fingerprint held read (uriOf s.disk path) (s.told (uriOf s.disk path))
      (s.table.get? (uriOf s.disk path)))
    (hdone : Outcome s.table s.disk send path done) :
    Fresh fingerprint held read (uriOf s.disk path) ((s.record done).told (uriOf s.disk path))
      (done.table.get? (uriOf s.disk path)) := by
  subst hmark
  cases hdone with
  | refused =>
      rw [told_record_of_none rfl]
      exact h
  | known =>
      rw [told_record_of_none rfl]
      exact h
  | unopened entry time content lost =>
      rw [hsend] at lost
      contradiction
  | untold entry time content other lost =>
      rw [hsend] at lost
      contradiction
  | touched entry time content same =>
      rw [told_record_of_none rfl, get?_set_self]
      rw [entry] at h
      exact h.touched hmarks (htext _ content) same (seen_now hdisk time content)
  | opened entry time content =>
      rw [told_record_opened, table_afterSending, get?_set_self]
      exact fresh_of_sent _ (htext _ content) (seen_now hdisk time content)
  | changed entry time content =>
      rw [told_record_changed, table_afterSending, get?_set_self]
      exact fresh_of_sent _ (htext _ content) (seen_now hdisk time content)

/-- An event leaves every document fresh. -/
theorem fresh_step {e : DocumentEvent} (hmark : s.table.fingerprint = fingerprint)
    (hsend : ∀ path send, e = .ensure path send → ∀ notice, send notice = none)
    (hdisk : s.disk ∈ held) (htext : ∀ text ∈ s.text? e, text ∈ read)
    (hmarks : FingerprintsTell fingerprint read)
    (h : ∀ uri, Fresh fingerprint held read uri (s.told uri) (s.table.get? uri)) :
    ∀ uri, Fresh fingerprint held read uri ((s.step e).told uri) ((s.step e).table.get? uri) := by
  cases e with
  | filesChange disk => exact h
  | ensure path send =>
      have hdone := ensure_outcome s.table s.disk send path
      refine record_of_self hdone h ?_
      refine fresh_record hmark (hsend path send rfl) hdisk ?_ hmarks (h _) hdone
      intro text hread
      exact htext text (by simp [text?, hread, Except.toOption])
  | clear =>
      intro uri d hd
      simp [step, clear, get?] at hd
  | query uri => exact h

theorem fresh_run (hmarks : FingerprintsTell fingerprint read) :
    ∀ (events : List DocumentEvent) (s : DocumentRun), s.table.fingerprint = fingerprint →
      SendsSucceed events → (∀ disk ∈ disks s events, disk ∈ held) →
      (∀ text ∈ texts s events, text ∈ read) →
      (∀ uri, Fresh fingerprint held read uri (s.told uri) (s.table.get? uri)) →
      ∀ uri, Fresh fingerprint held read uri ((s.run events).told uri) ((s.run events).table.get? uri) := by
  intro events
  induction events with
  | nil => intro s _ _ _ _ h; exact h
  | cons e rest ih =>
      intro s hmark hsend hdisks htexts h
      refine ih (s.step e) ((fingerprint_step s e).trans hmark) ?_ ?_ ?_
        (fresh_step hmark ?_ ?_ ?_ hmarks h)
      · intro path send hmem
        exact hsend path send (List.mem_cons_of_mem e hmem)
      · intro disk hmem
        exact hdisks disk (List.mem_cons_of_mem s.disk hmem)
      · intro text hmem
        exact htexts text (List.mem_append_right _ hmem)
      · rintro path send rfl
        exact hsend path send List.mem_cons_self
      · exact hdisks s.disk List.mem_cons_self
      · intro text hmem
        exact htexts text (List.mem_append_left _ (Option.mem_toList.mpr hmem))

/-! ### Calls leave nothing stale -/

theorem disk_mem_disks (e : DocumentEvent) (rest : List DocumentEvent) :
    ∀ (events : List DocumentEvent) (s : DocumentRun),
      (s.run events).disk ∈ disks s (events ++ e :: rest) := by
  intro events
  induction events with
  | nil => intro s; exact List.mem_cons_self
  | cons _ _ ih => intro s; exact List.mem_cons_of_mem _ (ih _)

/-- If the stored time is the present one, what was seen at that time is what there is. -/
theorem present_of_fresh (htimes : TimesTell held) (hdisk : s.disk ∈ held)
    (hdone : Outcome s.table s.disk send path done) (hsuccess : done.failure = none)
    (hfresh : Fresh fingerprint held read (uriOf s.disk path) ((s.record done).told (uriOf s.disk path))
      (done.table.get? (uriOf s.disk path))) :
    ∃ text, s.disk.read (s.disk.absolute path) = .ok text
      ∧ ((s.record done).told done.uri).getLast?.map (·.text) = some text := by
  obtain ⟨d, hentry, htime⟩ := hdone.time_of_success hsuccess
  obtain ⟨last, hlast, -, -, old, hold, oldPath, habsolute, huri, holdTime, holdText⟩ :=
    hfresh d hentry
  have hpath := Uri.eq_of_ofPath_eq (isAbsolute_of_modified htime) habsolute huri
  rw [← hpath] at holdTime holdText
  refine ⟨last.text, ?_, ?_⟩
  · rw [← holdText]
    exact htimes _ hdisk _ hold _ (isAbsolute_of_modified htime) _ htime holdTime
  · rw [hdone.uri_eq, hlast]
    rfl

/-- **A call that has not failed leaves the backend with the present text of the file.** -/
theorem ensured_text_is_present (disk : Disk) (language : Bytes) (fingerprint : Bytes → UInt64)
    (events : List DocumentEvent) (path : Bytes) (send : DocumentNotice → Option Failure)
    (hsends : SendsSucceed (events ++ [.ensure path send]))
    (htimes : TimesTell (disks (start disk language fingerprint) (events ++ [.ensure path send])))
    (hmarks : FingerprintsTell fingerprint
      (texts (start disk language fingerprint) (events ++ [.ensure path send])))
    (hdone : (((start disk language fingerprint).run events).ensured path send).failure = none) :
    ∃ text,
      ((start disk language fingerprint).run events).disk.read
          (((start disk language fingerprint).run events).disk.absolute path) = .ok text
        ∧ (((start disk language fingerprint).run (events ++ [.ensure path send])).told
            (((start disk language fingerprint).run events).ensured path send).uri).getLast?.map
              (·.text)
          = some text := by
  have hfresh := fresh_run hmarks (events ++ [.ensure path send])
    (start disk language fingerprint) rfl hsends
    (fun _ h => h) (fun _ h => h) (fun uri d hd => by simp [start, get?] at hd)
  rw [run_concat] at hfresh ⊢
  exact present_of_fresh htimes (disk_mem_disks _ _ _ _) (ensure_outcome _ _ _ _) hdone (hfresh _)

/-! ### A file that is edited and then touched -/

/-- A disk with one file. -/
def oneFile (text : Bytes) (time : Int) : Disk where
  tree := { entries := [([ascii "a"], ⟨.file text false, time⟩)] }
  current := []

theorem exists_place_of_stat {disk : Disk} {path : Bytes} {stored : Host.Stored}
    (h : disk.stat path = .ok stored) : ∃ place, disk.tree.get? place = some stored := by
  unfold Disk.stat Host.FileTree.stat at h
  cases hplace : disk.tree.resolve disk.current path with
  | error e =>
      rw [hplace] at h
      exact absurd h (by simp [bind, Except.bind])
  | ok place =>
      refine ⟨place, ?_⟩
      rw [hplace] at h
      simp only [bind, Except.bind] at h
      split at h
      · rename_i hget
        rw [hget, Except.ok.inj h]
      · simp at h

theorem stat_oneFile {text : Bytes} {time : Int} {path : Bytes} {stored : Host.Stored}
    (h : (oneFile text time).stat path = .ok stored) :
    stored = ⟨.directory, 0⟩ ∨ stored = ⟨.file text false, time⟩ := by
  obtain ⟨place, hget⟩ := exists_place_of_stat h
  unfold Host.FileTree.get? at hget
  by_cases hroot : place.isEmpty = true
  · rw [if_pos hroot, Option.some.injEq] at hget
    exact Or.inl hget.symm
  · rw [if_neg hroot] at hget
    by_cases hname : place = [ascii "a"]
    · simp [oneFile, hname] at hget
      exact Or.inr hget.symm
    · simp [oneFile, List.lookup_cons, beq_false_of_ne hname] at hget

/-- With one file, a time tells whether there is a directory or the file with its text. -/
theorem read_oneFile {text : Bytes} {time modified : Int} {path : Bytes}
    (h : (oneFile text time).modified path = .ok modified) :
    (modified = 0 ∧ (oneFile text time).read path = .error (ascii "Not a regular file: " ++ path))
      ∨ (modified = time ∧ (oneFile text time).read path = .ok text) := by
  cases hstat : (oneFile text time).stat path with
  | error e => simp [Disk.modified, hstat, Except.map] at h
  | ok stored =>
      have htime : stored.modified = modified := by
        simpa [Disk.modified, hstat, Except.map] using h
      rcases stat_oneFile hstat with rfl | rfl
      · exact Or.inl ⟨htime.symm, by simp [Disk.read, hstat]⟩
      · exact Or.inr ⟨htime.symm, by simp [Disk.read, hstat, Disk.content]⟩

theorem timesTell_oneFile (history : List (Bytes × Int))
    (h : ∀ a ∈ history, a.2 ≠ 0 ∧ ∀ b ∈ history, a.2 = b.2 → a.1 = b.1) :
    TimesTell (history.map fun moment => oneFile moment.1 moment.2) := by
  intro disk hdisk other hother path _ time htime hsame
  obtain ⟨a, ha, rfl⟩ := List.mem_map.mp hdisk
  obtain ⟨b, hb, rfl⟩ := List.mem_map.mp hother
  rcases read_oneFile htime with ⟨rfl, hread⟩ | ⟨rfl, hread⟩
  · rcases read_oneFile hsame with ⟨-, hread'⟩ | ⟨hzero, -⟩
    · rw [hread, hread']
    · exact absurd hzero.symm (h b hb).1
  · rcases read_oneFile hsame with ⟨hzero, -⟩ | ⟨htimes, hread'⟩
    · exact absurd hzero (h a ha).1
    · rw [hread, hread', (h a ha).2 b hb htimes]

/-- A file is opened, edited, told again, and touched. -/
def editThenTouch : List DocumentEvent :=
  [.ensure (ascii "/a") fun _ => none, .filesChange (oneFile (ascii "new") 2),
    .ensure (ascii "/a") fun _ => none, .filesChange (oneFile (ascii "new") 3)]

theorem ensured_text_is_present_after_touch :
    SendsSucceed (editThenTouch ++ [.ensure (ascii "/a") fun _ => none])
      ∧ TimesTell (disks (start (oneFile (ascii "old") 1) (ascii "rust"))
          (editThenTouch ++ [.ensure (ascii "/a") fun _ => none]))
      ∧ FingerprintsTell byteFingerprint (texts (start (oneFile (ascii "old") 1) (ascii "rust"))
          (editThenTouch ++ [.ensure (ascii "/a") fun _ => none]))
      ∧ (((start (oneFile (ascii "old") 1) (ascii "rust")).run editThenTouch).ensured
          (ascii "/a") fun _ => none).failure = none
      ∧ ∃ text,
          ((start (oneFile (ascii "old") 1) (ascii "rust")).run editThenTouch).disk.read
              (((start (oneFile (ascii "old") 1) (ascii "rust")).run editThenTouch).disk.absolute
                (ascii "/a")) = .ok text
            ∧ (((start (oneFile (ascii "old") 1) (ascii "rust")).run
                (editThenTouch ++ [.ensure (ascii "/a") fun _ => none])).told
                  (((start (oneFile (ascii "old") 1) (ascii "rust")).run editThenTouch).ensured
                    (ascii "/a") fun _ => none).uri).getLast?.map (·.text) = some text := by
  have hsends : SendsSucceed (editThenTouch ++ [.ensure (ascii "/a") fun _ => none]) := by
    intro path send hmem
    simp only [editThenTouch, List.cons_append, List.nil_append, List.mem_cons,
      DocumentEvent.ensure.injEq, reduceCtorEq, List.not_mem_nil, false_or, or_false] at hmem
    rcases hmem with ⟨-, rfl⟩ | ⟨-, rfl⟩ | ⟨-, rfl⟩ <;> exact fun _ => rfl
  have htimes : TimesTell (disks (start (oneFile (ascii "old") 1) (ascii "rust"))
      (editThenTouch ++ [.ensure (ascii "/a") fun _ => none])) :=
    timesTell_oneFile [(ascii "old", 1), (ascii "old", 1), (ascii "new", 2), (ascii "new", 2),
      (ascii "new", 3), (ascii "new", 3)] (by decide)
  have hmarks : FingerprintsTell byteFingerprint (texts (start (oneFile (ascii "old") 1) (ascii "rust"))
      (editThenTouch ++ [.ensure (ascii "/a") fun _ => none])) := by
    unfold FingerprintsTell
    decide +kernel
  have hdone : (((start (oneFile (ascii "old") 1) (ascii "rust")).run editThenTouch).ensured
      (ascii "/a") fun _ => none).failure = none := by decide +kernel
  exact ⟨hsends, htimes, hmarks, hdone,
    ensured_text_is_present _ _ _ _ _ _ hsends htimes hmarks hdone⟩

end DocumentRun

end AnalyzerBridge

/-
One document for all spellings of its path.

A document is known by the absolute form of the path that was given, and nothing else of the path is
looked at.  That form is the same for all spellings.  Where the normal form that runs differs from the
specified one, the path is nothing but slashes: it leads to a directory, of which there is never a
document, so the table does not come to see the difference.
-/
import AnalyzerBridge.Proofs.Documents.Ensure
import AnalyzerBridge.Proofs.Host.Walk
import AnalyzerBridge.Proofs.Path.Spelling

namespace AnalyzerBridge

open Host (Disk)
open AnalyzerBridge.Path (IsKey IsName SlashesOnly absolute absoluteBy lexicalForm slash spellings)

/-! ### Slashes alone lead to the root -/

theorem Host.FileTree.walk_empty (t : Host.FileTree) (n : Nat) :
    t.walk [] (List.replicate n []) = .ok [] := by
  induction n with
  | zero => rfl
  | succ n ih => exact ih

theorem Host.Disk.exists_read_slashes (disk : Disk) (n : Nat) :
    ∃ reason, disk.read (List.replicate (n + 1) slash) = .error reason := by
  have hbytes : Bytes.untilZero (List.replicate (n + 1) slash) = List.replicate (n + 1) slash :=
    Bytes.untilZero_of_not_mem fun hzero => absurd (List.eq_of_mem_replicate hzero) (by decide)
  have hempty : (List.replicate (n + 1) slash).isEmpty = false := rfl
  have hroot : Path.isAbsolute (List.replicate (n + 1) slash) = true := rfl
  have hresolve : disk.tree.resolve disk.current (List.replicate (n + 1) slash)
      = if Host.FileTree.pathLimit ≤ n + 1 then .error .nameTooLong else .ok [] := by
    simp only [Host.FileTree.resolve, hbytes, hempty, hroot, Path.splitOn_replicate,
      List.length_replicate, Host.FileTree.walk_empty, Bool.false_eq_true, if_false, if_true]
  by_cases hlong : Host.FileTree.pathLimit ≤ n + 1
  · rw [if_pos hlong] at hresolve
    simp only [Host.Disk.read, Host.Disk.stat, Host.FileTree.stat, hresolve]
    exact ⟨_, rfl⟩
  · rw [if_neg hlong] at hresolve
    simp only [Host.Disk.read, Host.Disk.stat, Host.FileTree.stat, hresolve]
    exact ⟨_, rfl⟩

namespace DocumentTable

variable {t : DocumentTable} {disk : Disk} {send : DocumentNotice → Option Failure} {path : Bytes}
  {done : Ensured}

/-- Of a path nothing counts but its absolute form. -/
theorem ensure_congr {other : Bytes} (h : disk.absolute path = disk.absolute other)
    (t : DocumentTable) (send : DocumentNotice → Option Failure) :
    t.ensure disk send path = t.ensure disk send other := by
  simp only [ensure, plan, uriOf, h]

/-- What cannot be read is no document, and nothing is sent or recorded. -/
theorem Outcome.of_unreadable (h : Outcome t disk send path done) {reason : Bytes}
    (hread : disk.read (disk.absolute path) = .error reason) :
    done.table = t ∧ done.notice = none := by
  cases h with
  | refused | known => exact ⟨rfl, rfl⟩
  | touched entry time content | opened entry time content | unopened entry time content
  | changed entry time content | untold entry time content =>
      rw [hread] at content
      exact nomatch content

/-- If one spelling of a path is several slashes, every spelling leads to the root, which is no
document. -/
theorem ensure_of_slashesOnly {a b name p q : Bytes} (hname : IsName name)
    (hp : p ∈ spellings a b name) (hq : q ∈ spellings a b name) (h : SlashesOnly p)
    (t : DocumentTable) (disk : Disk) (send : DocumentNotice → Option Failure) :
    (t.ensure disk send q).table = t ∧ (t.ensure disk send q).notice = none := by
  have hslashes : ∃ n, disk.absolute q = List.replicate (n + 1) slash := by
    by_cases hqs : SlashesOnly q
    · obtain ⟨n, hn⟩ := Nat.exists_eq_add_of_le' hqs.1
      refine ⟨n + 1, ?_⟩
      rw [Disk.absolute, Path.absolute_of_slashesOnly hqs, Path.eq_replicate_of_all_slash hqs.2, hn]
    · refine ⟨0, ?_⟩
      have hcurrent : Path.isAbsolute disk.currentPath = true := rfl
      have hsame := (Path.isKey_absoluteBy hcurrent).respelled a b name hname q hq p hp
      rw [Disk.absolute, Path.absolute_of_not_slashesOnly hqs, hsame,
        Path.absoluteBy_of_ne_nil (Path.ne_nil_of_isAbsolute h.isAbsolute),
        Path.append_of_isAbsolute h.isAbsolute, Path.lexicalForm_of_slashesOnly h]
      rfl
  obtain ⟨n, hn⟩ := hslashes
  obtain ⟨reason, hread⟩ := disk.exists_read_slashes n
  exact (ensure_outcome t disk send q).of_unreadable (hn ▸ hread)

/-- **All spellings of a path are one entry of the table**, and the same is sent for them. -/
theorem ensure_of_spellings {a b name p q : Bytes} (hname : IsName name)
    (hp : p ∈ spellings a b name) (hq : q ∈ spellings a b name)
    (t : DocumentTable) (disk : Disk) (send : DocumentNotice → Option Failure) :
    (t.ensure disk send p).table = (t.ensure disk send q).table
      ∧ (t.ensure disk send p).notice = (t.ensure disk send q).notice := by
  by_cases hslashes : SlashesOnly p ∨ SlashesOnly q
  · have hnothing : ∀ r ∈ spellings a b name,
        (t.ensure disk send r).table = t ∧ (t.ensure disk send r).notice = none := by
      intro r hr
      rcases hslashes with h | h
      · exact ensure_of_slashesOnly hname hp hr h t disk send
      · exact ensure_of_slashesOnly hname hq hr h t disk send
    exact ⟨(hnothing p hp).1.trans (hnothing q hq).1.symm,
      (hnothing p hp).2.trans (hnothing q hq).2.symm⟩
  · rw [not_or] at hslashes
    have hcurrent : Path.isAbsolute disk.currentPath = true := rfl
    have hsame : disk.absolute p = disk.absolute q := by
      rw [Disk.absolute, Disk.absolute, Path.absolute_of_not_slashesOnly hslashes.1,
        Path.absolute_of_not_slashesOnly hslashes.2]
      exact (Path.isKey_absoluteBy hcurrent).respelled a b name hname p hp q hq
    rw [ensure_congr hsame]
    exact ⟨rfl, rfl⟩

end DocumentTable

/--
**All spellings of a path have one key, one URI and one document.**

The absolute form of a path, with the normal form as it is specified, is a key, whatever the current
directory: nothing can be left out of it, it is its own key, and it is the same for all spellings of
the path, so they have the same URI.  It is the form that runs, unless the path is several slashes.
Whatever the disk and the table hold, a call for one spelling of a path leaves the same table as one
for another and sends the same.
-/
theorem spellings_share_key {current : Bytes} (hcurrent : Path.isAbsolute current = true) :
    IsKey (absoluteBy lexicalForm current)
      ∧ (∀ path, ¬SlashesOnly path → absolute current path = absoluteBy lexicalForm current path)
      ∧ ∀ a b name, IsName name → ∀ p ∈ spellings a b name, ∀ q ∈ spellings a b name,
          Uri.ofPath (absoluteBy lexicalForm current p)
              = Uri.ofPath (absoluteBy lexicalForm current q)
            ∧ ∀ (disk : Disk) (t : DocumentTable) (send : DocumentNotice → Option Failure),
              (t.ensure disk send p).table = (t.ensure disk send q).table
                ∧ (t.ensure disk send p).notice = (t.ensure disk send q).notice := by
  have hkey := Path.isKey_absoluteBy hcurrent
  refine ⟨hkey, fun path h => Path.absolute_of_not_slashesOnly h current, ?_⟩
  intro a b name hname p hp q hq
  exact ⟨congrArg Uri.ofPath (hkey.respelled a b name hname p hp q hq),
    fun disk t send => DocumentTable.ensure_of_spellings hname hp hq t disk send⟩

/-- A name that is left again does not count. -/
theorem spellings_share_key_in_home :
    Path.isAbsolute (ascii "/home") = true
      ∧ absolute (ascii "/home") (ascii "src/old/../main.rs")
        = absolute (ascii "/home") (ascii "src/main.rs") := by
  obtain ⟨hkey, hruns, -⟩ := @spellings_share_key (ascii "/home") rfl
  refine ⟨rfl, ?_⟩
  rw [hruns _ (by decide), hruns _ (by decide)]
  exact hkey.respelled (ascii "src") (ascii "main.rs") (ascii "old") (by decide) _ (by decide) _
    (by decide)

end AnalyzerBridge

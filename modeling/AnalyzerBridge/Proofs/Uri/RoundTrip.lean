/-
A path is known by its URI.

Every URI is that of one path from the root, and gives it back, whatever bytes the path has: a path
that does not start at the root is first put under it.  So a document that is kept under its URI is
kept under its path, and no two paths are ever taken for one document.

What a URI is made of is said by a grammar of its own, in which every byte stands for itself or is
part of an escape.
-/
import Mathlib.Data.Set.Function
import AnalyzerBridge.Proofs.Documents.Freshness
import AnalyzerBridge.Proofs.Uri

namespace AnalyzerBridge

open Host (Disk)

namespace Uri

/-! ### There and back -/

/-- The path from the root that a path is put at. -/
def rooted (path : Bytes) : Bytes := if path.head? = some 47 then path else 47 :: path

/-- The slash that may have to be added stands for itself. -/
theorem ofPath_eq (path : Bytes) : ofPath path = scheme ++ (rooted path).flatMap encodeByte := by
  have hslash : encodeByte 47 = [47] := rfl
  unfold ofPath rooted
  split
  · rw [List.append_nil]
  · rw [List.flatMap_cons, hslash, List.append_assoc]

/-- **The path comes back from its URI.** -/
theorem toPath_ofPath (path : Bytes) : toPath (ofPath path) = rooted path := by
  have hscheme : scheme.isPrefixOf (ofPath path) = true := by simp [ofPath_eq]
  rw [toPath, if_pos hscheme, ofPath_eq, List.drop_left, decode_flatMap_encodeByte]

theorem injOn_ofPath : Set.InjOn ofPath {path | Path.isAbsolute path = true} :=
  fun _ hpath _ hother huri => eq_of_ofPath_eq hpath hother huri

/-! ### What a URI is made of -/

/-- A byte that may stand for itself. -/
def Plain (b : UInt8) : Prop := Bytes.isAlphanumeric b = true ∨ b ∈ ascii "-._~/"

/-- A decimal digit, or a letter from `A` to `F`. -/
def UpperHex (b : UInt8) : Prop := Bytes.isDigit b = true ∨ 65 ≤ b ∧ b ≤ 70

instance (b : UInt8) : Decidable (UpperHex b) :=
  inferInstanceAs (Decidable (Bytes.isDigit b = true ∨ 65 ≤ b ∧ b ≤ 70))

/-- The text consists of plain bytes and of escapes of two upper-case digits. -/
inductive Escaped : Bytes → Prop
  | nil : Escaped []
  | plain {b : UInt8} {rest : Bytes} (hb : Plain b) (hrest : Escaped rest) : Escaped (b :: rest)
  | escape {a b : UInt8} {rest : Bytes} (ha : UpperHex a) (hb : UpperHex b)
      (hrest : Escaped rest) : Escaped (37 :: a :: b :: rest)

theorem plain_of_isUnreserved {b : UInt8} (h : isUnreserved b = true) : Plain b := by
  have hmarks : ascii "-._~/" = [45, 46, 95, 126, 47] := by decide
  simpa [isUnreserved, Plain, hmarks, or_assoc] using h

theorem upperHex_hexDigit (b : UInt8) :
    UpperHex (hexDigit (b >>> 4)) ∧ UpperHex (hexDigit (b &&& 15)) :=
  Bytes.forall_byte
    (P := fun b => UpperHex (hexDigit (b >>> 4)) ∧ UpperHex (hexDigit (b &&& 15)))
    (by decide +kernel) b

theorem Escaped.encodeByte_append {rest : Bytes} (h : Escaped rest) (b : UInt8) :
    Escaped (encodeByte b ++ rest) := by
  unfold encodeByte
  split
  · rename_i hplain
    exact .plain (plain_of_isUnreserved hplain) h
  · exact .escape (upperHex_hexDigit b).1 (upperHex_hexDigit b).2 h

theorem escaped_flatMap_encodeByte (path : Bytes) : Escaped (path.flatMap encodeByte) := by
  induction path with
  | nil => exact .nil
  | cons b rest ih =>
      rw [List.flatMap_cons]
      exact ih.encodeByte_append b

end Uri

/-! ### Documents and their paths -/

namespace DocumentTable

variable {t : DocumentTable} {disk : Disk} {send : DocumentNotice → Option Failure} {path : Bytes}
  {done : Ensured}

/-- Only a path from the root gets as far as the table. -/
theorem Outcome.table_eq_or_isAbsolute (h : Outcome t disk send path done) :
    done.table = t ∨ Path.isAbsolute (disk.absolute path) = true := by
  cases h with
  | refused plan => exact .inl rfl
  | unopened => exact .inl rfl
  | known entry time => exact .inr (isAbsolute_of_modified time)
  | touched entry time => exact .inr (isAbsolute_of_modified time)
  | opened entry time => exact .inr (isAbsolute_of_modified time)
  | changed entry time => exact .inr (isAbsolute_of_modified time)
  | untold entry time => exact .inr (isAbsolute_of_modified time)

/-- What a call leaves of the document of another path. -/
theorem Outcome.get?_of_path_ne (h : Outcome t disk send path done) {other : Bytes}
    (hother : Path.isAbsolute other = true) (hne : other ≠ disk.absolute path) :
    done.table.get? (Uri.ofPath other) = t.get? (Uri.ofPath other) := by
  rcases h.table_eq_or_isAbsolute with htable | habsolute
  · rw [htable]
  · exact h.get?_of_ne fun huri => hne (Uri.injOn_ofPath hother habsolute huri)

end DocumentTable

namespace DocumentRun

open DocumentTable

/-- Every document that is open has the URI of a path from the root. -/
def OpensPaths (s : DocumentRun) : Prop :=
  ∀ uri, s.table.isOpen uri = true → ∃ path, Path.isAbsolute path = true ∧ Uri.ofPath path = uri

theorem opensPaths_step (s : DocumentRun) (e : DocumentEvent) (h : OpensPaths s) :
    OpensPaths (s.step e) := by
  cases e with
  | filesChange disk => exact h
  | clear => exact nofun
  | query uri => exact h
  | ensure path send =>
      intro uri hopen
      have hdone := ensure_outcome s.table s.disk send path
      by_cases huri : uri = uriOf s.disk path
      · rcases hdone.table_eq_or_isAbsolute with htable | habsolute
        · exact h uri (htable ▸ hopen)
        · exact ⟨_, habsolute, huri.symm⟩
      · refine h uri ?_
        rwa [isOpen, ← hdone.get?_of_ne huri]

theorem opensPaths_run (disk : Disk) (language : Bytes) (fingerprint : Bytes → UInt64)
    (events : List DocumentEvent) : OpensPaths ((start disk language fingerprint).run events) :=
  run_invariant opensPaths_step events _ nofun

/-- An open document has one path only. -/
theorem existsUnique_path_of_isOpen {s : DocumentRun} (h : OpensPaths s) {uri : Bytes}
    (hopen : s.table.isOpen uri = true) :
    ∃! path, Path.isAbsolute path = true ∧ Uri.ofPath path = uri := by
  obtain ⟨path, habsolute, rfl⟩ := h uri hopen
  refine ⟨path, ⟨habsolute, rfl⟩, ?_⟩
  rintro other ⟨hother, huri⟩
  exact Uri.injOn_ofPath hother habsolute huri

end DocumentRun

/--
**A URI determines the path it was made of.**

* Whatever bytes a path has, its URI gives it back, with a slash in front if it had none.
* Two paths from the root with one URI are one path.
* In the table of documents, whatever has happened, an open document has exactly one path from the
  root; and bringing the document at a path up to date changes nothing about that at any other.
* Behind the scheme, a URI consists of letters, digits and the marks that stand for themselves, and
  of percent signs with two upper-case hexadecimal digits.
-/
theorem uri_determines_path :
    (∀ path, Uri.toPath (Uri.ofPath path) = if path.head? = some 47 then path else 47 :: path)
    ∧ Set.InjOn Uri.ofPath {path | Path.isAbsolute path = true}
    ∧ (∀ disk language fingerprint events uri,
        ((DocumentRun.start disk language fingerprint).run events).table.isOpen uri = true →
          ∃! path, Path.isAbsolute path = true ∧ Uri.ofPath path = uri)
    ∧ (∀ (t : DocumentTable) disk send path other, Path.isAbsolute other = true →
        other ≠ disk.absolute path →
          (t.ensure disk send path).table.get? (Uri.ofPath other) = t.get? (Uri.ofPath other))
    ∧ ∀ path, ∃ rest, Uri.ofPath path = Uri.scheme ++ rest ∧ Uri.Escaped rest := by
  refine ⟨Uri.toPath_ofPath, Uri.injOn_ofPath, ?_, ?_, ?_⟩
  · intro disk language fingerprint events uri hopen
    exact DocumentRun.existsUnique_path_of_isOpen
      (DocumentRun.opensPaths_run disk language fingerprint events) hopen
  · intro t disk send path other hother hne
    exact (DocumentTable.ensure_outcome t disk send path).get?_of_path_ne hother hne
  · exact fun path => ⟨_, Uri.ofPath_eq path, Uri.escaped_flatMap_encodeByte _⟩

/-- A file that was opened, and a path next to it. -/
theorem uri_determines_path_one_file :
    ((DocumentRun.start (DocumentRun.oneFile (ascii "fn") 1) (ascii "rust")).run
        [.ensure (ascii "a") fun _ => none]).table.isOpen (ascii "file:///a") = true
      ∧ (∃! path, Path.isAbsolute path = true ∧ Uri.ofPath path = ascii "file:///a")
      ∧ Path.isAbsolute (ascii "/%61") = true
      ∧ ascii "/%61" ≠ (DocumentRun.oneFile (ascii "fn") 1).absolute (ascii "a")
      ∧ (DocumentTable.ensure {} (DocumentRun.oneFile (ascii "fn") 1) (fun _ => none)
          (ascii "a")).table.get? (Uri.ofPath (ascii "/%61")) = none := by
  obtain ⟨-, -, hopened, hother, -⟩ := uri_determines_path
  have hopen : ((DocumentRun.start (DocumentRun.oneFile (ascii "fn") 1) (ascii "rust")).run
      [.ensure (ascii "a") fun _ => none]).table.isOpen (ascii "file:///a") = true := by
    decide +kernel
  have habsolute : Path.isAbsolute (ascii "/%61") = true := by decide
  have hne : ascii "/%61" ≠ (DocumentRun.oneFile (ascii "fn") 1).absolute (ascii "a") := by
    decide +kernel
  exact ⟨hopen, hopened _ _ _ _ _ hopen, habsolute, hne, hother _ _ _ _ _ habsolute hne⟩

end AnalyzerBridge

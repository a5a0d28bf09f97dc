/-
Where a path leads from the directory that it lies in.

A path consists of its parent and its last name.  Read from the place that its parent leads to, it
goes the way of the parent a second time.  So it leads to the same place as before exactly if that
way leads back to where it starts, as it does from `.` or `a/..`, but never by plain names.
-/
import Mathlib.Data.List.DropRight
import AnalyzerBridge.Host.Disk
import AnalyzerBridge.Proofs.Path.NormalForm

namespace AnalyzerBridge

namespace Bytes

/-! ### Zero bytes -/

theorem untilZero_append_of_not_mem {s : Bytes} (h : (0 : UInt8) ∉ s) (rest : Bytes) :
    untilZero (s ++ rest) = s ++ untilZero rest := by
  refine List.takeWhile_append_of_pos fun b hb => ?_
  simpa using fun hzero : b = 0 => h (hzero ▸ hb)

theorem untilZero_of_not_mem {s : Bytes} (h : (0 : UInt8) ∉ s) : untilZero s = s := by
  have happend := untilZero_append_of_not_mem h []
  rwa [List.append_nil, show untilZero [] = [] from rfl, List.append_nil] at happend

theorem untilZero_append_of_mem {s : Bytes} (h : (0 : UInt8) ∈ s) (rest : Bytes) :
    untilZero (s ++ rest) = untilZero s := by
  unfold untilZero
  induction s with
  | nil => simp at h
  | cons b s ih =>
      by_cases hb : b = 0
      · simp [hb]
      · have hs : (0 : UInt8) ∈ s := (List.mem_cons.mp h).resolve_left (Ne.symm hb)
        simp [hb, ih hs]

theorem untilZero_replicate_append {b : UInt8} (hb : b ≠ 0) (n : Nat) (rest : Bytes) :
    untilZero (List.replicate n b ++ rest) = List.replicate n b ++ untilZero rest := by
  refine untilZero_append_of_not_mem (fun hzero => hb ?_) rest
  exact (List.eq_of_mem_replicate hzero).symm

@[simp] theorem untilZero_untilZero (s : Bytes) : untilZero (untilZero s) = untilZero s := by
  refine untilZero_of_not_mem fun hzero => ?_
  simpa using List.all_eq_true.mp List.all_takeWhile 0 hzero

theorem not_mem_untilZero {s : Bytes} {b : UInt8} (h : b ∉ s) : b ∉ untilZero s :=
  fun hmem => h (List.takeWhile_subset _ hmem)

/-! ### Cutting at slashes -/

/-- Slashes that stand together have empty pieces between them. -/
theorem splitOn_append_replicate (mark : UInt8) (s : Bytes) (n : Nat) {name : Bytes}
    (hname : mark ∉ name) :
    splitOn mark (s ++ (List.replicate n mark ++ mark :: name))
      = splitOn mark s ++ (List.replicate n [] ++ [name]) := by
  induction n generalizing s with
  | zero => simp [splitOn_append_cons, splitOn_of_not_mem hname]
  | succ n ih =>
      have hrest := ih []
      rw [List.nil_append] at hrest
      rw [List.replicate_succ, List.cons_append, splitOn_append_cons, hrest]
      rfl

end Bytes

/-! ### Paths and their parents -/

namespace Path

/-- A relative path in a directory is the path of that directory, slashes, and a name. -/
theorem exists_parent_append {path : Bytes} (hrelative : isAbsolute path = false)
    (hparent : parent path ≠ []) :
    ∃ n name, slash ∉ name
      ∧ path = parent path ++ (List.replicate n slash ++ slash :: name) := by
  have hsome : ¬path.all (· == slash) = true := by
    intro hall
    cases path with
    | nil => exact hparent rfl
    | cons b rest =>
        have hb : b = slash := by simpa using List.all_eq_true.mp hall b List.mem_cons_self
        simp [isAbsolute, hb] at hrelative
  have heq : parent path
      = ((path.reverse.dropWhile (· != slash)).dropWhile (· == slash)).reverse := by
    simp [parent, hsome, hrelative]
  -- from the end there are the name, the last slash, more slashes, and what is left
  have hname : path.reverse = path.reverse.takeWhile (· != slash)
      ++ path.reverse.dropWhile (· != slash) := List.takeWhile_append_dropWhile.symm
  have hstop := List.head?_dropWhile_not (· != slash) path.reverse
  cases hback : path.reverse.dropWhile (· != slash) with
  | nil =>
      rw [heq, hback] at hparent
      exact absurd rfl hparent
  | cons b more =>
      rw [hback] at heq hname hstop
      obtain rfl : b = slash := by simpa using hstop
      have hmore : more = List.replicate (more.takeWhile (· == slash)).length slash
          ++ more.dropWhile (· == slash) := by
        have hrun : more.takeWhile (· == slash)
            = List.replicate (more.takeWhile (· == slash)).length slash :=
          List.eq_replicate_of_mem fun x hx => by
            simpa using List.all_eq_true.mp List.all_takeWhile x hx
        rw [← hrun]
        exact List.takeWhile_append_dropWhile.symm
      refine ⟨(more.takeWhile (· == slash)).length, (path.reverse.takeWhile (· != slash)).reverse,
        ?_, ?_⟩
      · intro hmem
        simpa using List.all_eq_true.mp List.all_takeWhile slash (List.mem_reverse.mp hmem)
      · have hpath := congrArg List.reverse hname
        rw [hmore] at hpath
        simpa [heq] using hpath

theorem isAbsolute_parent_eq_false {path : Bytes} (hrelative : isAbsolute path = false)
    (hparent : parent path ≠ []) : isAbsolute (parent path) = false := by
  obtain ⟨n, name, -, hsplit⟩ := exists_parent_append hrelative hparent
  rw [hsplit, isAbsolute_append_of_ne_nil hparent] at hrelative
  exact hrelative

theorem isAbsolute_untilZero {path : Bytes} (h : Bytes.untilZero path ≠ []) :
    isAbsolute (Bytes.untilZero path) = isAbsolute path := by
  have happend := isAbsolute_append_of_ne_nil h (path.dropWhile (· != 0))
  rw [← happend]
  exact congrArg isAbsolute List.takeWhile_append_dropWhile

end Path

namespace Host.FileTree

variable {t : FileTree} {here place : Place}

/-! ### Steps of a walk -/

theorem isDirectory_of_enter (h : t.enter here = .ok ()) : t.isDirectory here = true := by
  unfold enter at h
  unfold isDirectory
  split at h
  next => simp at h
  next heq => rw [heq]
  next => simp at h

/-- A walk goes on from where its first part leads. -/
theorem walk_append (t : FileTree) (here : Place) (pieces more : List Bytes) :
    t.walk here (pieces ++ more) = (t.walk here pieces).bind (t.walk · more) := by
  induction pieces generalizing here with
  | nil => rfl
  | cons piece pieces ih =>
      rw [List.cons_append, walk, walk]
      cases t.enter here with
      | error e => rfl
      | ok _ =>
          simp only [bind, Except.bind]
          split
          · exact ih here
          · split
            · exact ih here.dropLast
            · split
              · rfl
              · exact ih (here ++ [piece])

/-- Slashes that are doubled make no difference. -/
theorem walk_replicate_nil (t : FileTree) (here : Place) (n : Nat) (name : Bytes) :
    t.walk here (List.replicate n [] ++ [name]) = t.walk here [name] := by
  induction n with
  | zero => rfl
  | succ n ih =>
      rw [List.replicate_succ, List.cons_append, walk, ih, walk]
      cases t.enter here <;> rfl

/-- The place that a name leads to from a directory. -/
def leaf (here : Place) (name : Bytes) : Place :=
  if name.isEmpty || name = Path.dot then here
  else if name = Path.dotDot then here.dropLast
  else here ++ [name]

theorem of_walk_singleton {name : Bytes} (h : t.walk here [name] = .ok place) :
    t.isDirectory here = true ∧ place = leaf here name := by
  rw [walk] at h
  cases henter : t.enter here with
  | error e => rw [henter] at h; simp [bind, Except.bind] at h
  | ok _ =>
      rw [henter] at h
      refine ⟨isDirectory_of_enter henter, ?_⟩
      simp only [bind, Except.bind, walk] at h
      unfold leaf
      split at h
      next hhere => rw [if_pos hhere]; exact (Except.ok.inj h).symm
      next hhere =>
        rw [if_neg hhere]
        split at h
        next hup => rw [if_pos hup]; exact (Except.ok.inj h).symm
        next hup =>
          rw [if_neg hup]
          split at h
          next => simp at h
          next => exact (Except.ok.inj h).symm

/-- A name that does not lead upwards leads to different places from different directories. -/
theorem leaf_injective {name : Bytes} (h : name ≠ Path.dotDot) {other : Place}
    (hleaf : leaf here name = leaf other name) : here = other := by
  unfold leaf at hleaf
  split at hleaf
  next => exact hleaf
  next => exact (List.append_inj' hleaf rfl).1

/-! ### Resolving -/

/-- The system walks the path at all. -/
def Walkable (path : Bytes) : Prop :=
  Bytes.untilZero path ≠ [] ∧ (Bytes.untilZero path).length < pathLimit

theorem walkable_of_resolve {current : Place} {path : Bytes}
    (h : t.resolve current path = .ok place) : Walkable path := by
  simp only [resolve, List.isEmpty_iff] at h
  split at h
  next => simp at h
  next hne =>
    split at h
    next => simp at h
    next hlength => exact ⟨hne, Nat.lt_of_not_le hlength⟩

theorem resolve_of_walkable {path : Bytes} (h : Walkable path) (current : Place) :
    t.resolve current path
      = t.walk (if Path.isAbsolute (Bytes.untilZero path) then [] else current)
          (Bytes.splitOn Path.slash (Bytes.untilZero path)) := by
  simp only [resolve, List.isEmpty_iff]
  rw [if_neg h.1, if_neg (Nat.not_le_of_lt h.2)]

/-- What is behind a zero byte makes no difference. -/
theorem resolve_congr {path other : Bytes} (h : Bytes.untilZero path = Bytes.untilZero other)
    (current : Place) : t.resolve current path = t.resolve current other := by
  unfold resolve
  rw [h]

/-- An absolute path leads to the same place from everywhere. -/
theorem resolve_of_isAbsolute {path : Bytes} (h : Path.isAbsolute path = true)
    (current other : Place) : t.resolve current path = t.resolve other path := by
  unfold resolve
  cases hempty : Bytes.untilZero path with
  | nil => rfl
  | cons b rest =>
      have hfull : Bytes.untilZero path ≠ [] := by simp [hempty]
      have habsolute := (Path.isAbsolute_untilZero hfull).trans h
      rw [hempty] at habsolute
      simp only [habsolute, if_true]

/-! ### From the directory of a path -/

/-- **Read from the directory that it lies in, a relative path leads where it led before exactly if
its parent leads back to that directory.** -/
theorem resolve_from_parent_iff {current directory : Place} {path : Bytes}
    (hrelative : Path.isAbsolute path = false) (hparent : Path.parent path ≠ [])
    (hdirectory : t.resolve current (Path.parent path) = .ok directory)
    (hpath : t.resolve current path = .ok place)
    (hlast : (Bytes.splitOn Path.slash (Bytes.untilZero path)).getLast? ≠ some Path.dotDot) :
    t.resolve directory path = .ok place
      ↔ t.resolve directory (Path.parent path) = .ok directory := by
  obtain ⟨n, name, hname, hsplit⟩ := Path.exists_parent_append hrelative hparent
  by_cases hzero : (0 : UInt8) ∈ Path.parent path
  · -- nothing but the parent is seen of the path
    have hsame : Bytes.untilZero path = Bytes.untilZero (Path.parent path) :=
      (congrArg Bytes.untilZero hsplit).trans (Bytes.untilZero_append_of_mem hzero _)
    rw [resolve_congr hsame] at hpath ⊢
    rw [Except.ok.inj (hpath.symm.trans hdirectory)]
  have hcut : Bytes.untilZero path = Path.parent path
      ++ (List.replicate n Path.slash ++ Path.slash :: Bytes.untilZero name) := by
    refine (congrArg Bytes.untilZero hsplit).trans ?_
    rw [Bytes.untilZero_append_of_not_mem hzero, Bytes.untilZero_replicate_append (by decide)]
    rfl
  have hpieces : Bytes.splitOn Path.slash (Bytes.untilZero path)
      = Bytes.splitOn Path.slash (Path.parent path)
        ++ (List.replicate n [] ++ [Bytes.untilZero name]) := by
    rw [hcut]
    exact Bytes.splitOn_append_replicate _ _ n (Bytes.not_mem_untilZero hname)
  have hfrom := Path.isAbsolute_parent_eq_false hrelative hparent
  have hname' : Bytes.untilZero name ≠ Path.dotDot := by
    intro hup
    rw [hpieces, hup, ← List.append_assoc, List.getLast?_concat] at hlast
    exact hlast rfl
  have hway : ∀ here, t.resolve here (Path.parent path)
      = t.walk here (Bytes.splitOn Path.slash (Path.parent path)) := by
    intro here
    rw [resolve_of_walkable (walkable_of_resolve hdirectory), Bytes.untilZero_of_not_mem hzero,
      hfrom]
    rfl
  have hwhole : ∀ here, t.resolve here path
      = (t.walk here (Bytes.splitOn Path.slash (Path.parent path))).bind
          (t.walk · [Bytes.untilZero name]) := by
    intro here
    have hrelative' : Path.isAbsolute (Bytes.untilZero path) = false := by
      rw [hcut, Path.isAbsolute_append_of_ne_nil hparent, hfrom]
    rw [resolve_of_walkable (walkable_of_resolve hpath), hrelative', hpieces, walk_append]
    simp only [walk_replicate_nil]
    rfl
  rw [hway] at hdirectory
  rw [hwhole, hdirectory] at hpath
  have hhere : t.walk directory [Bytes.untilZero name] = .ok place := hpath
  rw [hwhole, hway]
  constructor
  · intro hagain
    cases hthere : t.walk directory (Bytes.splitOn Path.slash (Path.parent path)) with
    | error e =>
        rw [hthere] at hagain
        exact nomatch hagain
    | ok there =>
        rw [hthere] at hagain
        have hsame : leaf there (Bytes.untilZero name) = leaf directory (Bytes.untilZero name) :=
          (of_walk_singleton hagain).2.symm.trans (of_walk_singleton hhere).2
        rw [leaf_injective hname' hsame]
  · intro hback
    rw [hback]
    exact hhere

/-- A name that is that of something in a directory. -/
def Plain (name : Bytes) : Prop := name ≠ [] ∧ name ≠ Path.dot ∧ name ≠ Path.dotDot

theorem walk_of_plain {pieces : List Bytes} (hplain : ∀ name ∈ pieces, Plain name)
    (h : t.walk here pieces = .ok place) : place = here ++ pieces := by
  induction pieces generalizing here with
  | nil => simpa [walk] using h.symm
  | cons name pieces ih =>
      obtain ⟨hfull, hdot, hup⟩ := hplain name List.mem_cons_self
      rw [← List.singleton_append, walk_append] at h
      cases hfirst : t.walk here [name] with
      | error e =>
          rw [hfirst] at h
          exact nomatch h
      | ok next =>
          rw [hfirst] at h
          have hnext : next = here ++ [name] := by
            rw [(of_walk_singleton hfirst).2]
            simp [leaf, hfull, hdot, hup]
          rw [ih (fun other hother => hplain other (List.mem_cons_of_mem _ hother)) h, hnext]
          simp

/-- Plain names lead to somewhere else. -/
theorem resolve_ne_of_plain {path : Bytes} (hrelative : Path.isAbsolute path = false)
    (hplain : ∀ name ∈ Bytes.splitOn Path.slash (Bytes.untilZero path), Plain name) :
    t.resolve here path ≠ .ok here := by
  intro h
  have hwalkable := walkable_of_resolve h
  rw [resolve_of_walkable hwalkable, Path.isAbsolute_untilZero hwalkable.1, hrelative] at h
  have hpieces := List.self_eq_append_right.mp (walk_of_plain hplain h)
  exact Bytes.splitOn_ne_nil _ _ hpieces

/-! ### Trees -/

/-- Everything in the tree is in a directory. -/
def Sound (t : FileTree) : Prop := ∀ entry ∈ t.entries, t.isDirectory entry.1.dropLast = true

theorem Sound.isDirectory_dropLast (h : t.Sound) (hhere : t.isDirectory here = true) :
    t.isDirectory here.dropLast = true := by
  cases here with
  | nil => exact hhere
  | cons name rest =>
      have hlookup : ∃ stored, t.entries.lookup (name :: rest) = some stored := by
        refine Option.ne_none_iff_exists'.mp fun hnone => ?_
        simp [isDirectory, get?, hnone] at hhere
      obtain ⟨stored, hstored⟩ := hlookup
      obtain ⟨before, after, hentries, -⟩ := List.lookup_eq_some_iff.mp hstored
      exact h (name :: rest, stored) (by simp [hentries])

/-- A path that does not lead to a directory does not end by going up. -/
theorem Sound.getLast?_ne_dotDot (h : t.Sound) {current : Place} {path : Bytes}
    (hpath : t.resolve current path = .ok place) (hfile : t.isDirectory place = false) :
    (Bytes.splitOn Path.slash (Bytes.untilZero path)).getLast? ≠ some Path.dotDot := by
  intro hlast
  obtain ⟨pieces, hpieces⟩ := List.getLast?_eq_some_iff.mp hlast
  rw [resolve_of_walkable (walkable_of_resolve hpath), hpieces, walk_append] at hpath
  cases hfirst : t.walk (if Path.isAbsolute (Bytes.untilZero path) then [] else current) pieces with
  | error e =>
      rw [hfirst] at hpath
      exact nomatch hpath
  | ok there =>
      rw [hfirst] at hpath
      obtain ⟨hthere, hplace⟩ := of_walk_singleton hpath
      have hup : leaf there Path.dotDot = there.dropLast := rfl
      rw [hplace, hup, h.isDirectory_dropLast hthere] at hfile
      exact absurd hfile (by decide)

end Host.FileTree

end AnalyzerBridge

/-
Which file the formatter is pointed at.

The formatter is run in the directory of the file, and it is given the path of the file as it
stands.  So a relative path is read from two directories: by the bridge from its own, when it finds
that there is such a file, and by the formatter from that of the file.  `Pointed` tells exactly when
both come to the same place: if the path is absolute or a mere name, or if the way to the file's
directory, gone from there once more, leads back to it.
-/
import AnalyzerBridge.Host.Follow
import AnalyzerBridge.Proofs.Host.Launches
import AnalyzerBridge.Proofs.Host.Walk
import AnalyzerBridge.Tool.Rustfmt

namespace AnalyzerBridge.Tool

open Host (World Launch Place FileTree)
open Host.World (Adds Once Started Quiet)

/-! ### Running a tool -/

theorem quiet_capture (output errors : Host.Descriptor) : Quiet (capture output errors) :=
  (World.quiet_read _ _).bind fun _ => (World.quiet_read _ _).bind fun _ =>
    (Quiet.forM World.quiet_close _).bind fun _ => .pure _

theorem quiet_openPipes : Quiet openPipes.run :=
  Quiet.except (World.quiet_openBeside _) fun _ => Quiet.except (World.quiet_openBeside _) fun _ =>
    Quiet.except (World.quiet_openBeside _) fun _ => .pure _

theorem quiet_finish (words : List Bytes) (p : Pipes) (pid : Nat) : Quiet (finish words p pid) := by
  refine (World.quiet_closeAll _).bind fun _ => ?_
  refine (World.quiet_launchReport _).bind fun refused => ?_
  refine (World.quiet_close _).bind fun _ => ?_
  refine (quiet_capture _ _).bind fun captured => ?_
  refine (World.quiet_await _).bind fun status => ?_
  cases refused with
  | some reason => exact .pure _
  | none => exact (World.quiet_note _).bind fun _ => .pure _

/-- What a tool launches has the words and the directory that were asked for. -/
theorem adds_run (current : Place) (words : List Bytes) (directory : Bytes) :
    Adds current (Started current directory (words.map Bytes.untilZero)) (run words directory) := by
  have quiet : ∀ {α : Type} {act : StateM World α}, Quiet act →
      Adds current (Started current directory (words.map Bytes.untilZero)) act := fun h => h.adds _ _
  match words with
  | [] => exact quiet (.pure _)
  | [] :: _ => exact quiet (.pure _)
  | (b :: name) :: arguments =>
      refine (quiet quiet_openPipes).bind fun found => ?_
      cases found with
      | error reason => exact quiet (.pure _)
      | ok p =>
          refine (World.adds_fork (request (b :: name) arguments directory p) current).bind ?_
          intro answer
          cases answer with
          | error reason => exact quiet ((World.quiet_closeAll _).bind fun _ => .pure _)
          | ok pid => exact quiet (quiet_finish _ _ _)

/-! ### Room for a tool -/

/-- There is room for the ends of a tool's pipes, and for its process. -/
def HasRoom (w : World) : Prop := w.hasDescriptors 6 = true ∧ w.hasChild = true

/-- The pipes of a tool, if there is room for them. -/
def freshPipes (w : World) : Pipes where
  output := ⟨w.nextDescriptor, w.nextDescriptor + 1⟩
  errors := ⟨w.nextDescriptor + 2, w.nextDescriptor + 3⟩
  report := ⟨w.nextDescriptor + 4, w.nextDescriptor + 5⟩

/-- The world when a tool is about to be started: there are pipes for its outputs and its report. -/
def piped (w : World) : World := w.withPipe.withPipe.withPipe

theorem rests_piped (w : World) : World.Rests w (piped w) := .of_eq rfl rfl

theorem openPipes_of_room {w : World} (h : HasRoom w) :
    openPipes.run w = (.ok (freshPipes w), piped w) := by
  have hfirst : w.hasDescriptors 2 = true := World.hasDescriptors_of_le (by decide) h.1
  have hsecond : w.withPipe.hasDescriptors 2 = true := by
    rw [World.hasDescriptors_withPipe]
    exact World.hasDescriptors_of_le (by decide) h.1
  have hthird : w.withPipe.withPipe.hasDescriptors 2 = true := by
    rw [World.hasDescriptors_withPipe, World.hasDescriptors_withPipe]
    exact h.1
  unfold openPipes
  rw [World.openBeside_bind_of_room hfirst, World.openBeside_bind_of_room hsecond,
    World.openBeside_bind_of_room hthird]
  rfl

/-- Running a tool launches what is started for it. -/
theorem run_once {w : World} (hnumbered : World.Numbered w) (hroom : HasRoom w) {executable : Bytes}
    (h : executable ≠ []) {arguments : List Bytes} {directory : Bytes} {l : Launch}
    (hl : Once (piped w) l (World.launch (request executable arguments directory (freshPipes w)))) :
    Once w l (run (executable :: arguments) directory) := by
  match executable with
  | [] => exact absurd rfl h
  | b :: name =>
      refine .after quiet_openPipes hnumbered ?_
      rw [openPipes_of_room hroom]
      refine (hl.fork (by exact hroom.2)).bind fun answer => ?_
      cases answer with
      | error reason => exact (World.quiet_closeAll _).bind fun _ => .pure _
      | ok pid => exact quiet_finish _ _ _

namespace Rustfmt

variable {current : Place} {tool file : Bytes} {l : Launch} {w : World}

/-! ### Calling the formatter -/

/-- A launch of the formatter for a file, to check it or to format it. -/
def Called (current : Place) (tool file : Bytes) (l : Launch) : Prop :=
  ∃ check, Started current (directory file)
    ((tool :: arguments check file).map Bytes.untilZero) l

theorem adds_call (current : Place) (tool file : Bytes) (check : Bool) :
    Adds current (Called current tool file) (call tool file check) :=
  (adds_run current _ _).mono fun _ h => ⟨check, h⟩

theorem launches_call_ne (file : Bytes) (hnumbered : World.Numbered w) (hroom : HasRoom w)
    (htool : tool ≠ []) (check : Bool) : (call tool file check w).2.launches ≠ w.launches := by
  obtain ⟨l, hstarted, -⟩ := World.once_launch
    (request tool (arguments check file) (directory file) (freshPipes w))
    ((rests_piped w).numbered hnumbered)
  rw [call, (run_once hnumbered hroom htool hstarted).launches]
  simp

/-- What is no file for the bridge is not handed on. -/
theorem format_of_not_regular {w : World} (h : w.disk.isRegularFile file = false)
    (checkOnly : Bool) : (format tool file checkOnly w).2 = w := by
  simp only [format, bind, StateT.bind, get, getThe, MonadStateOf.get, StateT.get, pure, h]
  rfl

/-- A file is checked first, and then perhaps formatted. -/
theorem launches_format (tool : Bytes) (hnumbered : World.Numbered w)
    (hregular : w.disk.isRegularFile file = true) (checkOnly : Bool) :
    ∃ more, (format tool file checkOnly w).2.launches
        = (call tool file true w).2.launches ++ more
      ∧ ∀ l ∈ more, Called w.current tool file l := by
  have quiet : ∀ {α : Type} {act : StateM World α}, Quiet act →
      Adds w.current (Called w.current tool file) act := fun h => h.adds _ _
  obtain ⟨hchecked, hcurrent, -⟩ := adds_call w.current tool file true w hnumbered rfl
  unfold format
  rw [World.get_bind, if_neg (by simp [hregular])]
  refine Adds.after (fun checked => ?_) hchecked hcurrent
  cases checked with
  | error f => exact quiet (.pure _)
  | ok checked =>
      dsimp only
      split
      · exact quiet (.pure _)
      split
      · exact quiet (.pure _)
      refine (adds_call w.current tool file false).bind fun second => ?_
      cases second with
      | error f => exact quiet (.pure _)
      | ok second =>
          dsimp only
          split
          · exact quiet (.pure _)
          · exact (quiet (World.quiet_note _)).bind fun _ => quiet (.pure _)

/-- If the formatter is run at all, its last word is the path of the file as it stands, and its
directory is where the parent of that path leads. -/
theorem Called.of_word (h : Called current tool file l) {word : Bytes}
    (hword : l.call.words.getLast? = some word) :
    word = Bytes.untilZero file
      ∧ (Path.parent file = [] ∧ l.directory = current
        ∨ Path.parent file ≠ [] ∧ l.tree.resolve current (Path.parent file) = .ok l.directory) := by
  obtain ⟨check, hstarted⟩ := h
  cases hstarted with
  | refused hidle =>
      rw [hidle] at hword
      exact nomatch hword
  | carriedOut hthere hcall =>
      refine ⟨?_, hthere⟩
      have hlast := FileTree.launch_getLast? hcall (by cases check <;> simp [arguments])
      rw [hword] at hlast
      cases check <;> simpa [arguments] using hlast

/-! ### Two readings of a path -/

/-- Read from the formatter's directory, its last word is the path of the file as it stands. -/
structure Pointed (current : Place) (file : Bytes) (l : Launch) (word : Bytes) : Prop where
  given : word = Bytes.untilZero file
  /-- Where the path leads for the bridge, the word leads for the formatter, too, exactly if the
  path is absolute, if there is no directory in it, or if that directory, gone to from itself, is
  the same one. -/
  same_iff : ∀ place, l.tree.resolve current file = .ok place →
    (l.tree.resolve l.directory word = .ok place ↔
      Path.isAbsolute file = true ∨ Path.parent file = []
        ∨ l.tree.resolve l.directory (Path.parent file) = .ok l.directory)
  /-- So it leads elsewhere, or nowhere, if a relative path names the directory in plain words. -/
  elsewhere : Path.isAbsolute file = false → Path.parent file ≠ [] →
    (∀ name ∈ Bytes.splitOn Path.slash (Bytes.untilZero (Path.parent file)), FileTree.Plain name) →
    ∀ place, l.tree.resolve current file = .ok place → l.tree.resolve l.directory word ≠ .ok place

/-- What is a file for the bridge is no directory. -/
theorem exists_place_of_regular {w : World} (h : w.disk.isRegularFile file = true) :
    ∃ place, w.files.resolve w.current file = .ok place ∧ w.files.isDirectory place = false := by
  unfold Host.Disk.isRegularFile Host.Disk.stat FileTree.stat at h
  cases hplace : w.files.resolve w.current file with
  | error e => simp [World.disk, hplace, bind, Except.bind] at h
  | ok place =>
      refine ⟨place, rfl, ?_⟩
      simp only [World.disk, hplace, bind, Except.bind] at h
      unfold FileTree.isDirectory
      cases hstored : w.files.get? place with
      | none => rfl
      | some stored =>
          obtain ⟨node, modified⟩ := stored
          cases node with
          | directory => simp [hstored] at h
          | _ => rfl

theorem Called.pointed (h : Called current tool file l)
    (hlast : (Bytes.splitOn Path.slash (Bytes.untilZero file)).getLast? ≠ some Path.dotDot)
    {word : Bytes} (hword : l.call.words.getLast? = some word) : Pointed current file l word := by
  obtain ⟨rfl, hthere⟩ := h.of_word hword
  have hread : ∀ here, l.tree.resolve here (Bytes.untilZero file) = l.tree.resolve here file :=
    FileTree.resolve_congr (Bytes.untilZero_untilZero file)
  have hsame : ∀ place, l.tree.resolve current file = .ok place →
      (l.tree.resolve l.directory (Bytes.untilZero file) = .ok place ↔
        Path.isAbsolute file = true ∨ Path.parent file = []
          ∨ l.tree.resolve l.directory (Path.parent file) = .ok l.directory) := by
    intro place hplace
    rw [hread]
    cases habsolute : Path.isAbsolute file with
    | true => simpa [FileTree.resolve_of_isAbsolute habsolute l.directory current] using hplace
    | false =>
        rcases hthere with ⟨hnone, hhere⟩ | ⟨hsome, hdirectory⟩
        · simp [hnone, hhere, hplace]
        · simp only [Bool.false_eq_true, hsome, false_or]
          exact FileTree.resolve_from_parent_iff habsolute hsome hdirectory hplace hlast
  refine ⟨rfl, hsame, fun hrelative hparent hplain place hplace hagain => ?_⟩
  rcases (hsame place hplace).mp hagain with habsolute | hnone | hback
  · simp [hrelative] at habsolute
  · exact hparent hnone
  · have hfrom := Path.isAbsolute_parent_eq_false hrelative hparent
    exact FileTree.resolve_ne_of_plain hfrom hplain hback

/--
**The formatter is given the path of a file as it stands, and is run in the directory of the file.**
So, in checking as in formatting, the file that it is pointed at is the one that was asked for
exactly if the path is absolute or has no directory in it, or if that directory, gone to from
itself, is the same one; and it never is if the path is relative and names its directory in plain
words.
The formatter is called at all for whatever is a file for the bridge, if there is room for it.

What the formatter then does is left open: its life may be any.  There are no links in these trees
of files, so that two paths denote the same file exactly if they lead to the same place.
-/
theorem format_points (w : World) (hnumbered : World.Numbered w) (hsound : w.files.Sound)
    (tool file : Bytes) (checkOnly : Bool) :
    ∃ new, (format tool file checkOnly w).2.launches = w.launches ++ new
      ∧ (w.disk.isRegularFile file = true → tool ≠ [] → HasRoom w → new ≠ [])
      ∧ ∀ l ∈ new, ∀ word, l.call.words.getLast? = some word → Pointed w.current file l word := by
  cases hregular : w.disk.isRegularFile file with
  | false =>
      rw [format_of_not_regular hregular]
      exact ⟨[], by simp, by simp, by simp⟩
  | true =>
      obtain ⟨place, hplace, hfile⟩ := exists_place_of_regular hregular
      have hlast := hsound.getLast?_ne_dotDot hplace hfile
      obtain ⟨-, -, new, hchecked, hnew⟩ := adds_call w.current tool file true w hnumbered rfl
      obtain ⟨more, hlaunches, hmore⟩ := launches_format tool hnumbered hregular checkOnly
      rw [hchecked, List.append_assoc] at hlaunches
      refine ⟨new ++ more, hlaunches, fun _ htool hroom hnone => ?_, fun l hl word hword => ?_⟩
      · refine launches_call_ne file hnumbered hroom htool true ?_
        rw [hchecked, (List.append_eq_nil_iff.mp hnone).1, List.append_nil]
      · have hcalled : Called w.current tool file l :=
          (List.mem_append.mp hl).elim (hnew l) (hmore l)
        exact hcalled.pointed hlast hword

/-! ### A file in a directory -/

/-- A formatter `/t`, and a file `b` in a directory `a`. -/
def nested : World :=
  .start
    ⟨[([[0x74]], ⟨.program [0x74], 0⟩), ([[0x61]], ⟨.directory, 0⟩),
      ([[0x61], [0x62]], ⟨.file [] false, 0⟩)]⟩
    [] {}

theorem files_nested : nested.files = nested.tree := World.files_of_no_children rfl

theorem sound_nested : nested.files.Sound := by
  rw [files_nested]
  unfold FileTree.Sound
  decide

theorem format_points_in_nested :
    ∃ new, (format [0x2f, 0x74] [0x61, 0x2f, 0x62] true nested).2.launches = nested.launches ++ new
      ∧ (nested.disk.isRegularFile [0x61, 0x2f, 0x62] = true → [(0x2f : UInt8), 0x74] ≠ [] →
        HasRoom nested → new ≠ [])
      ∧ ∀ l ∈ new, ∀ word, l.call.words.getLast? = some word →
        Pointed nested.current [0x61, 0x2f, 0x62] l word :=
  format_points nested (World.numbered_initial _ _ _ _) sound_nested [0x2f, 0x74] [0x61, 0x2f, 0x62]
    true

/-- The file is there for the bridge, but the formatter is pointed at a file `a/b` in `a`. -/
theorem nested_file_missed :
    nested.disk.isRegularFile [0x61, 0x2f, 0x62] = true
      ∧ ∃ l ∈ (format [0x2f, 0x74] [0x61, 0x2f, 0x62] true nested).2.launches,
        ∃ word, l.call.words.getLast? = some word
          ∧ l.tree.resolve nested.current [0x61, 0x2f, 0x62] = .ok [[0x61], [0x62]]
          ∧ l.tree.resolve l.directory word = .error .noEntry := by
  have hregular : nested.disk.isRegularFile [0x61, 0x2f, 0x62] = true := by
    rw [World.disk, files_nested]
    decide
  refine ⟨hregular, ?_⟩
  have hnumbered : World.Numbered nested := World.numbered_initial _ _ _ _
  obtain ⟨l, hstarted, htree, hcase⟩ := World.once_launch
    (request [0x2f, 0x74] (arguments true [0x61, 0x2f, 0x62]) (directory [0x61, 0x2f, 0x62])
      (freshPipes nested))
    ((rests_piped nested).numbered hnumbered)
  have hfiles : (World.pass World.launchCost (piped nested)).2.files = nested.tree :=
    World.files_of_no_children rfl
  have hfound : World.carriedOut (request [0x2f, 0x74] (arguments true [0x61, 0x2f, 0x62])
      (directory [0x61, 0x2f, 0x62]) (freshPipes nested)) (piped nested)
      = .ok ([[0x61]], ⟨[0x74], [0x2f, 0x74] :: arguments true [0x61, 0x2f, 0x62]⟩) := by
    simp only [World.carriedOut, World.directoryOf, hfiles]
    decide
  simp only [hfound] at hcase
  obtain ⟨hdirectory, hcall⟩ := hcase
  have hcalled : Once nested l (call [0x2f, 0x74] [0x61, 0x2f, 0x62] true) :=
    run_once hnumbered ⟨rfl, rfl⟩ (List.cons_ne_nil _ _) hstarted
  obtain ⟨more, hlaunches, -⟩ :=
    launches_format [0x2f, 0x74] hnumbered hregular true
  refine ⟨l, ?_, [0x61, 0x2f, 0x62], ?_, ?_, ?_⟩
  · simp [hlaunches, hcalled.launches]
  · rw [hcall]
    decide
  · rw [htree, hfiles]
    decide
  · rw [htree, hfiles, hdirectory]
    decide

end Rustfmt

end AnalyzerBridge.Tool

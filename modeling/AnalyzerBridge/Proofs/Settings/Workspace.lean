/-
The workspace that was asked for, and the one that it becomes.

The workspace is found out twice: first to see where the configuration file would be, and again
once all sources have been taken in.  A workspace that the command line names is the same both
times, and so is one that the environment names from the root.  But of a relative one that the
environment names the second time no one knows any more that the file has not named it, and so it
is read from the directory of the configuration, and not from the current directory.
-/
import AnalyzerBridge.Proofs.Path.NormalForm
import AnalyzerBridge.Proofs.Settings.Precedence

namespace AnalyzerBridge.CommandLine

open Host (Disk Environment FileTree Stored)

namespace Options

variable {o : Options} {env : Environment} {disk : Disk} {s : Settings} {r : Resolution}
  {path : Bytes}

/-- The workspace that is asked for: what the command line says, else the environment. -/
def askedWorkspace? (o : Options) (env : Environment) : Option Bytes :=
  o.workspaceRoot.or (env.nonempty? (ascii "RAMCP_WORKSPACE"))

theorem namedWorkspace_eq (h : o.askedWorkspace? env = some path) (disk : Disk) :
    o.namedWorkspace env disk = path := by
  unfold askedWorkspace? at h
  unfold namedWorkspace
  cases hflag : o.workspaceRoot with
  | some flag =>
      rw [hflag] at h
      exact Option.some.inj h
  | none =>
      rw [hflag, Option.none_or] at h
      rw [h]
      rfl

theorem ne_nil_of_nonempty? {name value : Bytes} (h : env.nonempty? name = some value) :
    value ≠ [] := by
  obtain ⟨-, hfull⟩ := Option.filter_eq_some_iff.mp h
  simpa using hfull

theorem isAbsolute_currentPath (disk : Disk) : Path.isAbsolute disk.currentPath = true := rfl

theorem read_nil (disk : Disk) : ∃ reason, disk.read [] = .error reason := ⟨_, rfl⟩

/-- The directory that a configuration counts for: that of the file that is named, else the
workspace that is asked for. -/
def configBase (o : Options) (disk : Disk) (path : Bytes) : Bytes :=
  match o.configPath with
  | some file => Path.parent (disk.absolute file)
  | none => disk.absolute path

theorem configDir_of_resolve (hasked : o.askedWorkspace? env = some path)
    (h : o.resolve env disk s = .ok r) : r.configDir = o.configBase disk path := by
  unfold resolve fileSettings at h
  unfold configBase
  rw [namedWorkspace_eq hasked] at h
  cases hfile : o.configPath with
  | none =>
      rw [hfile] at h
      have hr := Except.ok.inj h
      rw [← hr]
  | some file =>
      rw [hfile] at h
      cases hread : disk.read file with
      | error reason =>
          simp only [Settings.addFile, hread] at h
          exact absurd h (by intro hno; cases hno)
      | ok text =>
          simp only [Settings.addFile, hread] at h
          have hr := Except.ok.inj h
          rw [← hr]

theorem isAbsolute_configBase (hpath : path ≠ []) (hresolve : o.resolve env disk s = .ok r) :
    Path.isAbsolute (o.configBase disk path) = true := by
  have hcurrent := isAbsolute_currentPath disk
  unfold configBase
  cases hfile : o.configPath with
  | none => exact Path.isAbsolute_absolute hcurrent hpath
  | some file =>
      refine Path.isAbsolute_parent (Path.isAbsolute_absolute hcurrent ?_)
      intro hnil
      obtain ⟨reason, hread⟩ := read_nil disk
      simp only [resolve, fileSettings, hfile, hnil, Settings.addFile, hread] at hresolve
      cases hresolve

theorem workspaceRoot_of_resolve (hasked : o.askedWorkspace? env = some path)
    (h : o.resolve env disk s = .ok r) :
    r.settings.workspaceRoot
      = if o.workspaceRoot.isSome then disk.absolute path
        else if Path.isAbsolute path then path
        else Path.absolute (o.configBase disk path) path := by
  have hsettings : r.settings = o.override (disk.absolute path) r.configDir
      ((s.addEntries (o.configEntries env disk)).1.addEnvironment env) := by
    rcases resolve_cases o env disk s with ⟨reason, hfailed, -⟩ | ⟨r', hr', hsettings⟩
    · rw [hfailed] at h
      cases h
    · rw [hr', Except.ok.injEq] at h
      rw [h, namedWorkspace_eq hasked] at hsettings
      exact hsettings
  rw [hsettings, configDir_of_resolve hasked h]
  unfold askedWorkspace? at hasked
  -- Whatever the files have said, the variable is asked once more.
  show o.finalWorkspace _ _ ((env.nonempty? (ascii "RAMCP_WORKSPACE")).getD _) = _
  unfold finalWorkspace
  cases hflag : o.workspaceRoot with
  | some flag => rfl
  | none =>
      rw [hflag, Option.none_or] at hasked
      have hfull : path.isEmpty = false := by simpa using ne_nil_of_nonempty? hasked
      rw [hasked]
      simp only [Option.getD_some, Option.isSome_none, hfull, Path.absolute, Path.absoluteBy,
        Bool.or_false, Bool.false_eq_true, if_false]

/--
**Which workspace it is in the end.**

Whatever the files hold and whatever was set before: a workspace that the command line names, or
the environment from the root, is the one that is asked for, read from the current directory.  A
relative one that the environment names is read from the directory of the configuration instead,
which is itself the workspace that is asked for unless a file is named.
-/
theorem workspace_of_asked (hasked : o.askedWorkspace? env = some path)
    (h : o.resolve env disk s = .ok r) :
    r.configDir = o.configBase disk path
      ∧ disk.absolute r.settings.workspaceRoot
        = if o.workspaceRoot.isSome || Path.isAbsolute path then disk.absolute path
          else Path.absolute r.configDir path := by
  have hdir := configDir_of_resolve hasked h
  have hcurrent := isAbsolute_currentPath disk
  refine ⟨hdir, ?_⟩
  rw [workspaceRoot_of_resolve hasked h, hdir]
  by_cases hflag : o.workspaceRoot.isSome = true
  · rw [if_pos hflag, hflag, Bool.true_or, if_pos rfl]
    exact Path.absolute_absolute hcurrent _ _
  · rw [if_neg hflag, Bool.eq_false_iff.mpr hflag, Bool.false_or]
    by_cases hroot : Path.isAbsolute path = true
    · rw [if_pos hroot, if_pos hroot]
    · rw [if_neg hroot, if_neg hroot]
      have hne : path ≠ [] := by
        have hnone : o.workspaceRoot = none := by simpa using hflag
        rw [askedWorkspace?, hnone, Option.none_or] at hasked
        exact ne_nil_of_nonempty? hasked
      exact Path.absolute_absolute (isAbsolute_configBase hne h) _ _

/-- A workspace that the environment names from the root, above a configuration that names
another. -/
theorem workspace_of_asked_from_root :
    let o : Options := { configPath := some (ascii "conf/ramcp.toml") }
    let env : Environment := ⟨[(ascii "RAMCP_WORKSPACE", ascii "/w/../proj")]⟩
    let tree := ({} : FileTree).makeDirectories [ascii "w", ascii "conf"] 0
    let file : Stored := ⟨.file (ascii "workspace = \"x\"") false, 0⟩
    let disk : Disk := ⟨tree.set [ascii "w", ascii "conf", ascii "ramcp.toml"] file, [ascii "w"]⟩
    o.askedWorkspace? env = some (ascii "/w/../proj")
      ∧ ∃ r, o.resolve env disk {} = .ok r ∧ r.configDir = ascii "/w/conf"
        ∧ disk.absolute r.settings.workspaceRoot = disk.absolute (ascii "/w/../proj") := by
  intro o env tree file disk
  have hasked : o.askedWorkspace? env = some (ascii "/w/../proj") := by decide
  have hresolve : ∃ r, o.resolve env disk {} = .ok r := by
    cases hcase : o.resolve env disk {} with
    | ok r => exact ⟨r, rfl⟩
    | error reason =>
        have hfine : (o.resolve env disk {}).toOption.isSome = true := by decide +kernel
        rw [hcase] at hfine
        exact absurd hfine (by simp [Except.toOption])
  obtain ⟨r, hr⟩ := hresolve
  obtain ⟨hdir, hroot⟩ := workspace_of_asked hasked hr
  have hbase : o.configBase disk (ascii "/w/../proj") = ascii "/w/conf" := by decide +kernel
  exact ⟨hasked, r, hr, hdir.trans hbase, hroot⟩

/-- **A relative workspace in the environment is read twice.**  The program looks for its
configuration in one directory and works in another, below it. -/
theorem relative_workspace_is_read_twice :
    let env : Environment := ⟨[(ascii "RAMCP_WORKSPACE", ascii "proj")]⟩
    let tree := ({} : FileTree).makeDirectories [ascii "w", ascii "proj"] 0
    let disk : Disk := ⟨tree, [ascii "w"]⟩
    ∃ r, resolve {} env disk {} = .ok r
      ∧ disk.absolute r.settings.workspaceRoot = ascii "/w/proj/proj"
      ∧ r.configDir = ascii "/w/proj" ∧ disk.absolute (ascii "proj") = ascii "/w/proj" :=
  ⟨_, rfl, by decide +kernel, by decide +kernel, by decide +kernel⟩

end Options

end AnalyzerBridge.CommandLine

/-
From options to settings.

The workspace decides where a configuration file is looked for, unless one is named.
The file comes first, then the environment, then the command line; a workspace that the
file or the environment names relatively is read from the directory of the configuration
file.
-/
import AnalyzerBridge.CommandLine.Options

namespace AnalyzerBridge.CommandLine

open Host (Disk Environment)

/-- The settings of a run. -/
structure Resolution where
  /-- The settings. -/
  settings : Settings
  /-- The directory that configured paths are looked for in. -/
  configDir : Bytes
  /-- What was remarked on the way. -/
  remarks : List Bytes
  deriving DecidableEq, Repr

namespace Options

/-- The workspace as the command line or the environment names it, else the current directory. -/
def namedWorkspace (o : Options) (env : Environment) (disk : Disk) : Bytes :=
  match o.workspaceRoot with
  | some path => path
  | none => (env.nonempty? (ascii "RAMCP_WORKSPACE")).getD disk.currentPath

/-- The settings that the configuration file leads to, and the directory it counts for. -/
def fileSettings (o : Options) (disk : Disk) (workspace : Bytes) (s : Settings) :
    Except Bytes Resolution :=
  match o.configPath with
  | some path => do
    let (settings, remarks) ← s.addFile disk path
    .ok { settings, configDir := Path.parent (disk.absolute path), remarks }
  | none =>
    let (settings, remarks) := s.addFileIfThere disk (Path.append workspace configFileName)
    .ok { settings, configDir := workspace, remarks }

/-- The root of the workspace in the end: what the command line says, or what the file or the
environment says, which may be relative to the configuration, or `workspace`. -/
def finalWorkspace (o : Options) (workspace configDir root : Bytes) : Bytes :=
  if o.workspaceRoot.isSome || root.isEmpty then workspace
  else if Path.isAbsolute root then root
  else Path.normalize (Path.append configDir root)

/-- Takes in the command line. -/
def override (o : Options) (workspace configDir : Bytes) (s : Settings) : Settings :=
  { s with
    analyzerPath := o.analyzerPath.getD s.analyzerPath
    workspaceRoot := o.finalWorkspace workspace configDir s.workspaceRoot
    requestTimeout := o.requestTimeout.getD s.requestTimeout
    logPath := o.logPath.or s.logPath
    logEnabled :=
      if o.noLog then some false else if o.logPath.isSome then some true else s.logEnabled }

/-- The settings of a run, on top of the given ones. -/
def resolve (o : Options) (env : Environment) (disk : Disk) (s : Settings) :
    Except Bytes Resolution := do
  let workspace := disk.absolute (o.namedWorkspace env disk)
  let r ← o.fileSettings disk workspace s
  .ok { r with settings := o.override workspace r.configDir (r.settings.addEnvironment env) }

end Options

end AnalyzerBridge.CommandLine

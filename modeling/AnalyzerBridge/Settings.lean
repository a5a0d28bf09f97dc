/-
Settings.

The bridge is set up from a configuration file, the environment and the command line,
in this order, and each overrides what came before.  This file holds the settings, their
defaults, and the first two sources.
-/
import AnalyzerBridge.Host.Disk
import AnalyzerBridge.Host.Environment
import AnalyzerBridge.Toml.Document

namespace AnalyzerBridge

open Host (Disk Environment)

/-- How the bridge is set up.  Times are in milliseconds. -/
structure Settings where
  /-- The backend to launch. -/
  analyzerPath : Bytes := ascii "rust-analyzer"
  /-- Its arguments. -/
  analyzerArgs : List Bytes := []
  /-- The root of the workspace, empty while unknown. -/
  workspaceRoot : Bytes := []
  /-- How long a request may take. -/
  requestTimeout : Nat := 30000
  /-- How long a backend may take to end. -/
  shutdownGrace : Nat := 2000
  /-- How long to wait for diagnostics. -/
  diagnosticsWait : Nat := 3000
  /-- Whether to log, if anyone has said so. -/
  logEnabled : Option Bool := none
  /-- The log file, if anyone has named one. -/
  logPath : Option Bytes := none
  /-- The source formatter. -/
  rustfmtPath : Bytes := ascii "rustfmt"
  /-- The build tool. -/
  cargoPath : Bytes := ascii "cargo"
  deriving DecidableEq, Repr

/-! ### Paths in settings -/

/-- The place that a configured path means: a relative one is looked for beside the
configuration file first, and belongs to the workspace if it is not there. -/
def resolveConfigured (disk : Disk) (raw configDir workspaceRoot : Bytes) : Bytes :=
  if raw.isEmpty then []
  else if Path.isAbsolute raw then Path.normalize raw
  else
    let beside := Path.normalize (Path.append configDir raw)
    if !configDir.isEmpty && disk.pathExists beside then beside
    else if !workspaceRoot.isEmpty then Path.normalize (Path.append workspaceRoot raw)
    else Path.normalize raw

/-! ### The configuration file -/

/-- The name of the configuration file of a workspace. -/
def configFileName : Bytes := ascii "ramcp.toml"

/-- A thing that can be set in the configuration file. -/
inductive Setting where
  | analyzerPath
  | analyzerArgs
  | workspaceRoot
  | requestTimeout
  | shutdownGrace
  | diagnosticsWait
  | logEnabled
  | logPath
  | rustfmtPath
  | cargoPath
  deriving DecidableEq, Repr

/-- The keys under which a setting may be written. -/
def Setting.keys : Setting → List Bytes
  | analyzerPath => [ascii "rust_analyzer", ascii "rust_analyzer_path"]
  | analyzerArgs => [ascii "rust_analyzer_args"]
  | workspaceRoot => [ascii "workspace", ascii "workspace_root"]
  | requestTimeout => [ascii "request_timeout_ms"]
  | shutdownGrace => [ascii "shutdown_grace_ms"]
  | diagnosticsWait => [ascii "diagnostics_wait_ms"]
  | logEnabled => [ascii "log_enabled"]
  | logPath => [ascii "log_path"]
  | rustfmtPath => [ascii "rustfmt", ascii "rustfmt_path"]
  | cargoPath => [ascii "cargo", ascii "cargo_path"]

/-- Every setting. -/
def Setting.all : List Setting :=
  [analyzerPath, analyzerArgs, workspaceRoot, requestTimeout, shutdownGrace, diagnosticsWait,
    logEnabled, logPath, rustfmtPath, cargoPath]

/-- The setting that a key means. -/
def Setting.ofKey? (key : Bytes) : Option Setting := all.find? (·.keys.contains key)

/-- A value as a number of milliseconds: a positive integer. -/
def positiveValue? (value : Bytes) : Option Nat :=
  ((Toml.intValue? value).filter (0 < ·)).map Int.toNat

namespace Settings

/-- Gives one setting its written value, if the value can be taken. -/
def assign (s : Settings) (setting : Setting) (value : Bytes) : Option Settings :=
  match setting with
  | .analyzerPath => some { s with analyzerPath := Toml.stringValue value }
  | .analyzerArgs => some { s with analyzerArgs := Toml.stringArray value }
  | .workspaceRoot => some { s with workspaceRoot := Toml.stringValue value }
  | .requestTimeout => (positiveValue? value).map fun n => { s with requestTimeout := n }
  | .shutdownGrace => (positiveValue? value).map fun n => { s with shutdownGrace := n }
  | .diagnosticsWait => (positiveValue? value).map fun n => { s with diagnosticsWait := n }
  | .logEnabled => some { s with logEnabled := Toml.boolValue? value }
  | .logPath => some { s with logPath := some (Toml.stringValue value) }
  | .rustfmtPath => some { s with rustfmtPath := Toml.stringValue value }
  | .cargoPath => some { s with cargoPath := Toml.stringValue value }

/-- The remark on an entry whose value cannot be taken. -/
def ignored (entry : Toml.Entry) : Bytes :=
  ascii "config: ignoring " ++ entry.key ++ ascii " at line " ++ Bytes.decimal entry.line

/-- Takes in one entry, whatever section it stands in.  Unknown keys say nothing; a value that
cannot be taken changes nothing and is remarked on. -/
def addEntry (s : Settings) (entry : Toml.Entry) : Settings × List Bytes :=
  match Setting.ofKey? entry.key with
  | none => (s, [])
  | some setting =>
    match s.assign setting entry.value with
    | some s => (s, [])
    | none => (s, [ignored entry])

/-- Takes in entries in order, and collects the remarks. -/
def addEntries (s : Settings) : List Toml.Entry → Settings × List Bytes
  | [] => (s, [])
  | entry :: entries =>
    let (s, remarks) := s.addEntry entry
    let (s, more) := s.addEntries entries
    (s, remarks ++ more)

/-- Takes in a configuration file that has to be there. -/
def addFile (s : Settings) (disk : Disk) (path : Bytes) : Except Bytes (Settings × List Bytes) :=
  match disk.read path with
  | .ok text => .ok (s.addEntries (Toml.entries text))
  | .error reason => .error (ascii "Unable to open config: " ++ reason)

/-- Takes in a configuration file if something is there; if it cannot be read, that is only
remarked on. -/
def addFileIfThere (s : Settings) (disk : Disk) (path : Bytes) : Settings × List Bytes :=
  if disk.pathExists path then
    match s.addFile disk path with
    | .ok result => result
    | .error reason => (s, [reason])
  else (s, [])

/-! ### The environment -/

/-- Takes in the environment: three variables, each if it is not empty. -/
def addEnvironment (s : Settings) (env : Environment) : Settings :=
  { s with
    analyzerPath := (env.nonempty? (ascii "RAMCP_RUST_ANALYZER")).getD s.analyzerPath
    workspaceRoot := (env.nonempty? (ascii "RAMCP_WORKSPACE")).getD s.workspaceRoot
    logPath := (env.nonempty? (ascii "RAMCP_LOG_PATH")).or s.logPath }

end Settings

end AnalyzerBridge

/-
Command-line options.

A flag with a value is written as two arguments or as one with an equals sign; the last
flag of a kind counts.  Reading stops at the first argument that makes no sense, and what
was set before it stays set.
-/
import AnalyzerBridge.Settings

namespace AnalyzerBridge.CommandLine

/-- What the command line says.  Anything left open is decided elsewhere. -/
structure Options where
  /-- The backend to launch. -/
  analyzerPath : Option Bytes := none
  /-- The root of the workspace. -/
  workspaceRoot : Option Bytes := none
  /-- The configuration file. -/
  configPath : Option Bytes := none
  /-- How long a request may take, in milliseconds. -/
  requestTimeout : Option Nat := none
  /-- The log file. -/
  logPath : Option Bytes := none
  /-- Nothing is to be logged. -/
  noLog : Bool := false
  /-- Only the usage is wanted. -/
  showHelp : Bool := false
  deriving DecidableEq, Repr

/-- Why a command line makes no sense. -/
inductive OptionError where
  /-- The last flag lacks its value. -/
  | missingValue (arg : Bytes)
  /-- The timeout is no positive integer. -/
  | invalidTimeout (value : Bytes)
  /-- There is no such flag. -/
  | unknown (arg : Bytes)
  deriving DecidableEq, Repr

/-- The wording of the reason. -/
def OptionError.message : OptionError → Bytes
  | missingValue arg => ascii "missing value for " ++ arg
  | invalidTimeout value => ascii "invalid --timeout-ms: " ++ value
  | unknown arg => ascii "unknown option: " ++ arg

namespace Options

/-- Takes in a flag with its value; `arg` is the argument the flag was written in. -/
def setFlag (o : Options) (arg flag value : Bytes) : Except OptionError Options :=
  if flag = ascii "--rust-analyzer" then .ok { o with analyzerPath := some value }
  else if flag = ascii "--workspace" then .ok { o with workspaceRoot := some value }
  else if flag = ascii "--config" then .ok { o with configPath := some value }
  else if flag = ascii "--timeout-ms" then
    match positiveValue? value with
    | some n => .ok { o with requestTimeout := some n }
    | none => .error (.invalidTimeout value)
  else if flag = ascii "--log" then .ok { o with logPath := some value }
  else .error (.unknown arg)

/-- The flag and the value of an argument that holds both. -/
def joined? (arg : Bytes) : Option (Bytes × Bytes) :=
  if (ascii "--").isPrefixOf arg then Bytes.splitAt 61 arg else none

/-- Reads the arguments in order.  The options are those set so far, also if reading fails. -/
def parse (o : Options) : List Bytes → Options × Option OptionError
  | [] => (o, none)
  | arg :: rest =>
    if arg = ascii "--help" ∨ arg = ascii "-h" then { o with showHelp := true }.parse rest
    else if arg = ascii "--no-log" then { o with noLog := true }.parse rest
    else match joined? arg with
      | some (flag, value) =>
        match o.setFlag arg flag value with
        | .ok o => o.parse rest
        | .error e => (o, some e)
      | none =>
        match rest with
        | [] => (o, some (.missingValue arg))
        | value :: rest =>
          match o.setFlag arg arg value with
          | .ok o => o.parse rest
          | .error e => (o, some e)

end Options

/-- How the program is used. -/
def usage (program : Bytes) : Bytes :=
  ascii "Usage: " ++ program ++ ascii " [options]\n\n"
    ++ ascii "Serves rust-analyzer operations as MCP tools over stdio.\n\n"
    ++ ascii "Options:\n"
    ++ ascii "  --rust-analyzer <path>  rust-analyzer executable (default: PATH lookup)\n"
    ++ ascii "  --workspace <dir>       Cargo workspace root (default: current directory)\n"
    ++ ascii "  --config <path>         Config file (default: <workspace>/ramcp.toml)\n"
    ++ ascii "  --timeout-ms <n>        Per-request timeout in milliseconds\n"
    ++ ascii "  --log <path>            Log file (default: <tmp>/ramcp.log)\n"
    ++ ascii "  --no-log                Disable logging\n"
    ++ ascii "  -h, --help              Show help\n"

end AnalyzerBridge.CommandLine

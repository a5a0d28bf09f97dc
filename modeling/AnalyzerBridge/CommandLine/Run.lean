/-
A run of the bridge, from its command line to its exit code.

A command line that makes no sense and a configuration that cannot be read end the run before
anything else happens.  A backend that cannot be started does not: the bridge serves its input
without one.  The session with the backend is always ended before the run is.
-/
import AnalyzerBridge.CommandLine.Resolve
import AnalyzerBridge.Host.Follow
import AnalyzerBridge.Mcp.LineTransport
import AnalyzerBridge.Session.Client

namespace AnalyzerBridge.CommandLine

open Host (World)

/-- What a run leaves to its caller. -/
structure RunResult where
  /-- The exit code. -/
  exitCode : Nat
  /-- What was written to standard output. -/
  output : Bytes := []
  /-- What was written to standard error. -/
  errors : Bytes := []
  deriving DecidableEq, Repr

/-- How messages of the input are answered, if they are. -/
abbrev Reply := Bytes → StateM World (Option Bytes)

/-- The messages that answer those of the input, which are taken one after the other. -/
def replies (reply : Reply) : List Bytes → StateM World (List Bytes)
  | [] => pure []
  | message :: rest => do
    let own ← reply message
    let more ← replies reply rest
    pure (own.toList ++ more)

/-- Serves an input to its end. -/
def serve (reply : Reply) (input : Bytes) : StateM World Bytes := do
  let sent ← replies reply (Mcp.messages input)
  World.note (ascii "MCP input closed")
  pure (Mcp.sendAll sent)

/-- The version of the bridge. -/
def version : Bytes := ascii "0.1.0"

/-- What the client of a run is told. -/
def clientOptions (s : Settings) : ClientOptions :=
  { backend := { executable := s.analyzerPath, arguments := s.analyzerArgs }
    workspaceRoot := s.workspaceRoot
    requestTimeout := s.requestTimeout
    shutdownGrace := s.shutdownGrace
    version }

/-- Sends log lines the way that the settings want. -/
def routeLog (r : Resolution) : StateM World Unit := modify fun w =>
  let path := r.settings.logPath.map fun raw =>
    resolveConfigured w.disk raw r.configDir r.settings.workspaceRoot
  { w with route := w.route.configure r.settings.logEnabled path }

/-- Writes lines to the log. -/
def noteAll : List Bytes → StateM World Unit
  | [] => pure ()
  | line :: lines => do
    World.note line
    noteAll lines

/-- Serves an input, with a backend if one can be started. -/
def bridge (reply : Reply) (s : Settings) (input : Bytes) : StateM World Bytes := do
  World.note (ascii "ramcp starting in " ++ s.workspaceRoot)
  let (started, client) ← (Client.start).run (.create (clientOptions s))
  match started with
  | .ok () => pure ()
  | .error failure => World.note (ascii "rust-analyzer unavailable: " ++ failure.describe)
  let output ← serve reply input
  let _ ← (Client.shutdown).run client
  World.note (ascii "ramcp exiting")
  pure output

/-- Runs the bridge.  `program` is the name it was called by. -/
def run (reply : Reply) (program : Bytes) (args : List Bytes) (input : Bytes) : StateM World RunResult := do
  match Options.parse {} args with
  | (_, some failure) =>
    pure { exitCode := 2, errors := failure.message ++ ascii "\n\n" ++ usage program }
  | (options, none) =>
    if options.showHelp then pure { exitCode := 0, errors := usage program }
    else
      let w ← get
      match options.resolve w.environment w.disk {} with
      | .error reason => pure { exitCode := 1, errors := reason ++ ascii "\n" }
      | .ok resolution =>
        noteAll resolution.remarks
        routeLog resolution
        pure { exitCode := 0, output := ← bridge reply resolution.settings input }

end AnalyzerBridge.CommandLine

/-
The program.

It looks at the files and variables that a run depends on, works the run out on what it saw, and
then does what came of it: it puts back the files that were written, prints, and leaves with the
exit code.  Nothing but this file touches the world outside.

Two things lie beyond it.  It launches nothing, so that a run goes on without a backend, and it
takes messages without answering them.
-/
import AnalyzerBridge.CommandLine.Run

namespace AnalyzerBridge.Program

open CommandLine (Options)
open Host (Environment FileTree Place World)

/-- The text of a string. -/
def bytesOf (s : String) : Bytes := s.toUTF8.toList

/-- The string for a text, if it has one. -/
def stringOf? (s : Bytes) : Option String := String.fromUTF8? ⟨s.toArray⟩

/-- The place that a path in normal form leads to from the root. -/
def placeOf (path : Bytes) : Place := (Bytes.splitOn Path.slash path).filter (!·.isEmpty)

/-- The names of the variables that a run depends on. -/
def variableNames : List String :=
  ["RAMCP_RUST_ANALYZER", "RAMCP_WORKSPACE", "RAMCP_LOG_PATH", "TMPDIR", "TMP", "TEMP", "TEMPDIR", "PATH"]

/-- Those of the variables that are set. -/
def environment : IO Environment := do
  let found ← variableNames.filterMapM fun name => do
    return (← IO.getEnv name).map fun value => (bytesOf name, bytesOf value)
  pure ⟨found⟩

/-- Adds what is at a path to a tree of files. -/
def look (tree : FileTree) (path : Bytes) : IO FileTree := do
  match stringOf? path with
  | none => pure tree
  | some name =>
    let file := (← IO.currentDir) / name
    let place := placeOf path
    if ← file.isDir then pure (tree.makeDirectories place 0)
    else if ← file.pathExists then
      let text ← IO.FS.readBinFile file
      pure ((tree.makeDirectories place.dropLast 0).set place ⟨.file text.toList false, 0⟩)
    else pure tree

/-- Adds what is at a path and the directory around it. -/
def lookAround (tree : FileTree) (path : Bytes) : IO FileTree := do
  look (← look tree (Path.parent path)) path

/-- The world as far as a run depends on it. -/
def world (args : List Bytes) : IO World := do
  let env ← environment
  let current := placeOf (bytesOf (← IO.currentDir).toString)
  let tree := ({} : FileTree).makeDirectories current 0
  let tree ← look tree ((env.get? (ascii "TMPDIR")).getD (ascii "/tmp"))
  let before := World.start tree current env
  let tree ← lookAround tree before.route.target
  match Options.parse {} args with
  | (_, some _) => pure before
  | (options, none) =>
    let disk : Host.Disk := ⟨tree, current⟩
    let workspace := disk.absolute (options.namedWorkspace env disk)
    let tree ← look tree workspace
    let tree ← lookAround tree (match options.configPath with
      | some path => disk.absolute path
      | none => Path.append workspace configFileName)
    match options.resolve env ⟨tree, current⟩ {} with
    | .error _ => pure (.start tree current env)
    | .ok r =>
      let tree ← look tree r.settings.workspaceRoot
      match r.settings.logPath with
      | none => pure (.start tree current env)
      | some raw =>
        let tree ← lookAround tree (Path.absolute r.configDir raw)
        let tree ← lookAround tree (Path.absolute r.settings.workspaceRoot raw)
        pure (.start tree current env)

/-- Puts the files back that were written. -/
def store (w : World) : IO Unit := do
  for place in w.written do
    match w.tree.get? place, stringOf? (Place.path place) with
    | some ⟨.file text _, _⟩, some name => IO.FS.writeBinFile name ⟨text.toArray⟩
    | _, _ => pure ()

end AnalyzerBridge.Program

open AnalyzerBridge in
/-- Runs the bridge on its arguments and its standard input. -/
def main (args : List String) : IO UInt32 := do
  let args := args.map Program.bytesOf
  let input ← (← IO.getStdin).readBinToEnd
  let before ← Program.world args
  let (result, after) := (CommandLine.run (fun _ => pure none) (ascii "ramcp") args input.toList).run before
  Program.store after
  (← IO.getStdout).write ⟨result.output.toArray⟩
  (← IO.getStderr).write ⟨result.errors.toArray⟩
  pure result.exitCode.toUInt32

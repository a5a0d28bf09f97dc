/-
The commands that a shell carries out itself.

Those that lead to further commands being carried out are not here but with the evaluation
of scripts.
-/
import AnalyzerBridge.Host.Launch
import AnalyzerBridge.Host.Shell.Fields
import AnalyzerBridge.Host.Utility

namespace AnalyzerBridge.Host.Shell

open Run

/-- What the shell remembers. -/
def memory : Run Memory := return (← get).shell

/-- Changes what the shell remembers. -/
def remember (change : Memory → Memory) : Run Unit := modify fun m => { m with shell := change m.shell }

/-- Reports a fault. -/
def report (text : Bytes) : Run Unit := do
  let m ← memory
  emit 2 (m.name ++ ascii ": " ++ Bytes.decimal m.line ++ ascii ": " ++ text ++ [10])

/-- Reports a fault that the shell does not survive. -/
def fail {α : Type} (text : Bytes) : Run α := do
  report text
  throw (.leave 2)

/-- Reports a fault that makes a command fail. -/
def refuse (name text : Bytes) : Run Nat := do
  report (name ++ ascii ": " ++ text)
  pure 2

/-- Writes the output of a command. -/
def put (name text : Bytes) (code : Nat := 0) : Run Nat := do
  match ← write 1 text with
  | none => pure code
  | some _ =>
    report (name ++ ascii ": " ++ name ++ ascii ": I/O error")
    pure 1

/-- The words for a signal that ended a command. -/
def signalText (signal : Signal) : Bytes :=
  let known : List (Nat × String) :=
    [(1, "Hangup"), (3, "Quit"), (4, "Illegal instruction"), (5, "Trace/breakpoint trap"), (6, "Aborted"),
      (7, "Bus error"), (8, "Floating point exception"), (9, "Killed"), (10, "User defined signal 1"),
      (11, "Segmentation fault"), (12, "User defined signal 2"), (14, "Alarm clock"), (15, "Terminated")]
  ((known.lookup signal).map ascii).getD (ascii "Signal " ++ Bytes.decimal signal)

/-- The outcome of a command that was waited for; one that a signal ended is spoken of. -/
def outcomeOf (status : WaitStatus) : Run Nat := do
  match status with
  | .signalled signal => if signal != 2 && signal != 13 then emit 2 (signalText signal ++ [10])
  | .exited _ => pure ()
  pure status.code

/-! ### Reading -/

/-- A byte of the input; nothing at its end, and nothing if a signal arrives first that has a
handler. -/
def readByte : Run (Except Errno Bytes) := do
  match ← waitOrCatch (← readable 0) with
  | some _ => pure (.ok [])
  | none => readChunk 0 1

/-- The bytes of a line, with whether they were escaped, and whether the line was ended. -/
def readLine (raw : Bool) : Nat → Run (List (UInt8 × Bool) × Bool)
  | 0 => pure ([], false)
  | fuel + 1 => do
    match ← readByte with
    | .ok [10] => pure ([], true)
    | .ok [92] =>
      if raw then
        let (rest, ended) ← readLine raw fuel
        pure ((92, false) :: rest, ended)
      else match ← readByte with
        | .ok [10] => readLine raw fuel
        | .ok [b] =>
          let (rest, ended) ← readLine raw fuel
          pure ((b, true) :: rest, ended)
        | _ => pure ([], false)
    | .ok [0] => readLine raw fuel
    | .ok [b] =>
      let (rest, ended) ← readLine raw fuel
      pure ((b, false) :: rest, ended)
    | _ => pure ([], false)

/-- Deals a line out to variables: a field to each, and what is left to the last. -/
def deal (separators : Bytes) : List Bytes → List (UInt8 × Bool) → List (Bytes × Bytes)
  | [], _ => []
  | name :: names, line =>
    let splits (b : UInt8 × Bool) : Bool := !b.2 && separators.contains b.1
    let blank (b : UInt8 × Bool) : Bool := splits b && Bytes.isBlank b.1
    let line := line.dropWhile blank
    match names with
    | [] => [(name, ((line.reverse.dropWhile blank).reverse).map (·.1))]
    | _ =>
      let field := line.takeWhile (!splits ·)
      let rest := (line.drop field.length).dropWhile blank
      let rest := match rest with
        | b :: more => if splits b then more else rest
        | [] => []
      (name, field.map (·.1)) :: deal separators names rest

/-- Reads a line into variables. -/
def read (arguments : List Bytes) : Run Nat := do
  let (letters, names) := Utility.options arguments
  if names.isEmpty then refuse (ascii "read") (ascii "arg count")
  else
    let (line, ended) ← readLine (letters.contains 114) Utility.patience
    for (name, value) in deal (← memory).separators names line do
      remember (·.assign name value)
    pure (if ended then 0 else 1)

/-! ### Signals -/

/-- Sends signals. -/
def kill (arguments : List Bytes) : Run Nat := do
  let name := ascii "kill"
  let send (signal : Signal) (targets : List Bytes) : Run Nat := do
    if targets.isEmpty then
      refuse name (ascii "Usage: kill [-s sigspec | -signum | -sigspec] [pid | job]... or\nkill -l [exitstatus]")
    else targets.foldlM (fun code target => do
      match Utility.decimal? target with
      | none => refuse name (ascii "Illegal number: " ++ target)
      | some pid =>
        let m ← get
        let running (job : Nat × Option Time × WaitStatus) : Bool :=
          job.1 == pid && job.2.1.all (m.now < ·)
        if m.shell.jobs.any running then
          if !Signal.isHarmless signal then
            remember fun s => { s with
              jobs := s.jobs.map fun job =>
                if running job then (pid, some m.now, .signalled signal) else job }
          pure code
        else if pid = m.process.pid ∨ pid = m.shell.pid then
          if signal != 0 then Run.send pid signal
          pure code
        else
          report (name ++ ascii ": No such process\n")
          pure 1) 0
  match arguments with
  | [45, 108] :: code :: _ =>
    let n := (Utility.decimal? code).getD 0
    let n := if 128 < n then n - 128 else n
    match Signal.names.find? (·.2 == n) with
    | some (text, _) => put name (text ++ [10])
    | none => refuse name (ascii "invalid signal number or exit status: " ++ code)
  | [45, 115] :: text :: targets =>
    match Signal.ofName? text with
    | some signal => send signal targets
    | none => refuse name (ascii "invalid signal number or name: " ++ text)
  | [45, 45] :: targets => send Signal.terminate targets
  | (45 :: text) :: targets =>
    match Signal.ofName? text with
    | some signal => send signal targets
    | none => refuse name (ascii "Illegal option -" ++ text.take 1)
  | targets => send Signal.terminate targets

/-- Says what is to be done on signals. -/
def trap (arguments : List Bytes) : Run Nat := do
  let reset (names : List Bytes) (action : Option Bytes) : Run Nat := do
    names.foldlM (fun code text => do
      match Signal.ofName? text with
      | none => refuse (ascii "trap") (text ++ ascii ": bad trap")
      | some signal =>
        modify fun m => { m with
          process := { m.process with
            ignored := m.process.ignored.filter (· != signal) ++ (if action = some [] then [signal] else [])
            handled := m.process.handled.filter (· != signal)
              ++ (if action.any (!·.isEmpty) then [signal] else []) }
          shell := { m.shell with
            handlers := m.shell.handlers.filter (·.1 != signal)
              ++ (action.toList.map fun text => (signal, text)) } }
        pure code) 0
  match (if arguments.head? = some (ascii "--") then arguments.drop 1 else arguments) with
  | [] =>
    let shown := ((← memory).handlers.map fun (signal, text) =>
      ascii "trap -- " ++ Utility.quote text ++ [32]
        ++ (((Signal.names.find? (·.2 == signal)).map (·.1)).getD (ascii "EXIT")) ++ [10]).flatten
    put (ascii "trap") shown
  | [only] => reset [only] none
  | action :: names =>
    if action = [45] then reset names none
    else if (Utility.decimal? action).isSome then reset (action :: names) none
    else reset names (some action)

/-- Waits for commands in the background, the last of which decides the outcome.  A signal that
has a handler ends the waiting. -/
def waitFor (code : Nat) : List Nat → Run Nat
  | [] => pure code
  | pid :: more => do
    match (← memory).jobs.lookup pid with
    | none => waitFor 127 more
    | some (time, status) =>
      match ← waitOrCatch time with
      | some signal => pure (128 + signal)
      | none =>
        let code ← outcomeOf status
        remember fun m => { m with jobs := m.jobs.filter (·.1 != pid) }
        waitFor code more

/-- Waits for given commands in the background, or for all of them. -/
def wait (arguments : List Bytes) : Run Nat := do
  match arguments with
  | [] =>
    let code ← waitFor 0 ((← memory).jobs.map (·.1))
    pure (if 128 < code && !(← get).process.caught.isEmpty then code else 0)
  | targets => waitFor 0 (targets.map fun target => (Utility.decimal? target).getD 0)

/-! ### The rest -/

/-- Goes to a directory. -/
def cd (arguments : List Bytes) : Run Nat := do
  let m ← get
  let wanted := match arguments with
    | [] => (m.shell.bindings.lookup (ascii "HOME")).getD []
    | [45] :: _ => (m.shell.bindings.lookup (ascii "OLDPWD")).getD []
    | directory :: _ => directory
  if wanted.isEmpty then pure 0
  else
    let old := 47 :: Bytes.join [47] m.process.directory
    match m.tree.resolve m.process.directory wanted with
    | .ok place =>
      if m.tree.isDirectory place then
        modify fun m => { m with process := { m.process with directory := place } }
        remember fun s => (s.assign (ascii "OLDPWD") old).assign (ascii "PWD") (47 :: Bytes.join [47] place)
        if arguments.head? = some [45] then put (ascii "cd") (47 :: Bytes.join [47] place ++ [10]) else pure 0
      else refuse (ascii "cd") (ascii "can't cd to " ++ wanted)
    | .error _ => refuse (ascii "cd") (ascii "can't cd to " ++ wanted)

/-- Prints words. -/
def echo (arguments : List Bytes) : Run Nat := do
  let silent := arguments.head? == some (ascii "-n")
  let text := Bytes.join [32] (if silent then arguments.drop 1 else arguments)
  let (text, goesOn) := Format.unescape Format.inArguments (text.length + 1) text
  put (ascii "echo") (if silent || !goesOn then text else text ++ [10])

/-- Prints words by a format. -/
def printf (arguments : List Bytes) : Run Nat := do
  let name := ascii "printf"
  match (if arguments.head? = some (ascii "--") then arguments.drop 1 else arguments) with
  | [] => refuse name (ascii "usage: printf format [arg ...]")
  | format :: words =>
    let done := Format.format Format.inFormats format words
    for (text, started) in done.faults do
      report (name ++ ascii ": " ++ text
        ++ (if started then ascii ": not completely converted" else ascii ": expected numeric value"))
    match done.unknown with
    | some letter =>
      if letter = 0 then report (name ++ ascii ": missing format character")
      let _ ← put name done.output
      if letter = 0 then pure 2 else refuse name (ascii "%" ++ [letter] ++ ascii ": invalid directive")
    | none => put name done.output (if done.faults.isEmpty then 0 else 1)

/-- Answers a question. -/
def test (name : Bytes) (words : List Bytes) : Run Nat := do
  match ← Condition.evaluate (2 * words.length + 8) words with
  | .ok holds => pure (if holds then 0 else 1)
  | .error (.badNumber text) => refuse name (ascii "Illegal number: " ++ text)
  | .error (.missingArgument op) => refuse name (op ++ ascii ": argument expected")
  | .error (.unknownOperator text) => refuse name (text ++ ascii ": unexpected operator")

/-- A number that a command needs. -/
def number (name text : Bytes) : Run Nat := do
  match Utility.decimal? text with
  | some n => pure n
  | none => fail (name ++ ascii ": Illegal number: " ++ text)

/-- Sets options and parameters. -/
def setOptions : List Bytes → Run Nat
  | [] => pure 0
  | word :: rest =>
    let change (on : Bool) (letters : Bytes) : Run Unit := do
      if letters.contains 101 then remember ({ · with leaveOnFailure := on })
      if letters.contains 117 then remember ({ · with refuseUnset := on })
    if word = ascii "--" then do
      remember ({ · with parameters := rest })
      pure 0
    else match word with
      | 45 :: b :: letters => do
        change true (b :: letters)
        setOptions rest
      | 43 :: b :: letters => do
        change false (b :: letters)
        setOptions rest
      | _ => do
        remember ({ · with parameters := word :: rest })
        pure 0

/-- Lets programs see variables. -/
def exportVariables (arguments : List Bytes) : Run Nat := do
  for word in arguments do
    match Bytes.splitAt 61 word with
    | some (name, value) => remember fun m => (m.assign name value).exportVariable name
    | none => remember (·.exportVariable word)
  pure 0

/-- The commands whose faults end the shell and whose assignments stay. -/
def specialNames : List Bytes :=
  [":", ".", "break", "continue", "eval", "exec", "exit", "export", "readonly", "return", "set", "shift",
    "times", "trap", "unset"].map ascii

/-- The commands that lead to further commands. -/
def leadingNames : List Bytes := [".", "command", "eval", "exec", "type"].map ascii

/-- A command of the shell that leads to no further commands. -/
def builtin? (name : Bytes) (arguments : List Bytes) : Option (Run Nat) :=
  let first := arguments.headD []
  let status : Run Nat := do
    if arguments.isEmpty then return (← memory).status else number name first
  let loops : Run Nat := do if arguments.isEmpty then pure 1 else number name first
  let table : List (String × Run Nat) :=
    [(":", pure 0), ("true", pure 0), ("false", pure 1), ("echo", echo arguments), ("printf", printf arguments),
      ("pwd", do put name (47 :: Bytes.join [47] (← get).process.directory ++ [10])), ("cd", cd arguments),
      ("test", test name arguments),
      ("[", if arguments.getLast? = some (ascii "]") then test name arguments.dropLast
        else refuse name (ascii "missing ]")),
      ("read", read arguments), ("kill", kill arguments), ("trap", trap arguments), ("wait", wait arguments),
      ("exit", do throw (.leave ((← status) % 256))), ("return", do throw (.returned (← status))),
      ("break", do
        let n ← loops
        let m ← memory
        if m.loops = 0 then pure 0 else throw (.breakLoops (min n m.loops))),
      ("continue", do
        let n ← loops
        let m ← memory
        if m.loops = 0 then pure 0 else throw (.nextRound (min n m.loops))),
      ("set", setOptions arguments), ("export", exportVariables arguments),
      ("readonly", exportVariables arguments), ("local", exportVariables arguments),
      ("unset", do
        for word in arguments do remember (·.unset word)
        pure 0),
      ("shift", do
        let n ← loops
        let m ← memory
        if m.parameters.length < n then fail (ascii "shift: can't shift that many")
        else
          remember ({ · with parameters := m.parameters.drop n })
          pure 0),
      ("umask", if arguments.isEmpty then put name (ascii "0022\n") else pure 0), ("hash", pure 0),
      ("times", put name (ascii "0m0.000000s 0m0.000000s\n0m0.000000s 0m0.000000s\n")), ("alias", pure 0),
      ("ulimit", put name (ascii "unlimited\n"))]
  (table.find? fun entry => ascii entry.1 = name).map (·.2)

/-- The name is one of the shell's own. -/
def isBuiltin (name : Bytes) : Bool := (builtin? name []).isSome || leadingNames.contains name

/-- The file that a name leads to along the search path. -/
def locate (name : Bytes) : Run (Option Bytes) := do
  let m ← get
  let runs (path : Bytes) : Bool :=
    (m.tree.callOrRead m.process.directory path [path]).toOption.isSome
  if name.contains 47 then pure (if runs name then some name else none)
  else
    let directories := Bytes.splitOn 58 ((m.shell.value? (ascii "PATH")).getD FileTree.defaultSearchPath)
    pure ((directories.map fun d => if d.isEmpty then name else d ++ 47 :: name).find? runs)

/-- Tells what names mean. -/
def describe (names : List Bytes) : Run Nat := do
  names.foldlM (fun code name => do
    let m ← memory
    if (m.functions.lookup name).isSome then put (ascii "type") (name ++ ascii " is a shell function\n") code
    else if specialNames.contains name then put (ascii "type") (name ++ ascii " is a special shell builtin\n") code
    else if isBuiltin name then put (ascii "type") (name ++ ascii " is a shell builtin\n") code
    else match ← locate name with
      | some path => put (ascii "type") (name ++ ascii " is " ++ path ++ [10]) code
      | none =>
        let _ ← put (ascii "type") (name ++ ascii ": not found\n")
        pure 127) 0

end AnalyzerBridge.Host.Shell

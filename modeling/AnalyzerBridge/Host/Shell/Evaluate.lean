/-
Carrying out scripts.

Everything here runs in the present process; what needs a process of its own is forked.  The
bound on the depth also bounds the rounds of a loop: a script that goes on beyond it is taken
to go on for ever.
-/
import AnalyzerBridge.Host.Launch
import AnalyzerBridge.Host.Shell.Arithmetic
import AnalyzerBridge.Host.Shell.Builtin
import AnalyzerBridge.Host.Shell.Parse

namespace AnalyzerBridge.Host.Shell

open Run

/-- The search path of a shell that is given none. -/
def usualSearchPath : Bytes := ascii "/usr/local/sbin:/usr/local/bin:/usr/sbin:/usr/bin:/sbin:/bin"

/-- A process that goes on for ever. -/
def endless {α : Type} : Run α := do
  waitForever
  throw .never

/-- Starts a shell that is a copy of this one. -/
def forkShell (body : Run Nat) : Run Ended :=
  fork do
    modify fun m => { m with
      process := { m.process with handled := [] }
      shell := { m.shell with handlers := m.shell.handlers.filter (·.2.isEmpty), jobs := [] } }
    body

/-- Why a file cannot be opened, as a shell says it. -/
def openFault (e : Errno) (absent : String) : Bytes :=
  match e with
  | .noEntry => ascii absent
  | .notDirectory => ascii absent
  | e => e.message

/-- Redirects a descriptor, where `change` points it elsewhere; false after a fault. -/
def redirect (change : Nat → Option Channel → Run Unit) (r : Redirect) (target : Bytes) : Run Bool := do
  let openTo (write : Bool) (result : Except Errno Channel) : Run Bool := do
    match result with
    | .ok channel =>
      change r.descriptor (some channel)
      pure true
    | .error e =>
      report (if write then ascii "cannot create " ++ target ++ ascii ": " ++ openFault e "Directory nonexistent"
        else ascii "cannot open " ++ target ++ ascii ": " ++ openFault e "No such file")
      pure false
  match r.kind with
  | .here =>
    let stream ← newStream
    setInflow stream { arrivals := if target.isEmpty then [] else [(0, target)], ends := some 0 }
    change r.descriptor (some (.input stream))
    pure true
  | .read => openTo false (← openRead target)
  | .write => openTo true (← openWrite target false)
  | .append => openTo true (← openWrite target true)
  | .readWrite => openTo true (← openWrite target true)
  | .duplicate =>
    if target = [45] then
      change r.descriptor none
      pure true
    else match Utility.decimal? target with
      | none => fail (ascii "Syntax error: Bad fd number")
      | some n =>
        match ← channel? n with
        | some channel =>
          change r.descriptor (some channel)
          pure true
        | none =>
          report (target ++ ascii ": Bad file descriptor")
          pure false

/-- Goes back to descriptors and lets go of what they do not hold. -/
def restore (descriptors : List (Nat × Channel)) : Run Unit := modify fun m =>
  let gone := (m.process.descriptors.map (·.2)).filter fun c => !descriptors.any (·.2 == c)
  gone.foldl (release (some m.now)) { m with process := { m.process with descriptors } }

/-- Goes back to descriptors however an action ends. -/
def restoring (descriptors : List (Nat × Channel)) (body : Run Nat) : Run Nat := do
  let result ← tryCatch (Except.ok <$> body) fun stop => pure (Except.error stop)
  restore descriptors
  match result with
  | .ok status => pure status
  | .error stop => throw stop

/-- Carries out a loop. -/
def inLoop (body : Run Nat) : Run Nat := do
  let depth := (← memory).loops
  remember ({ · with loops := depth + 1 })
  let result ← tryCatch (Except.ok <$> body) fun stop => pure (Except.error stop)
  remember ({ · with loops := depth })
  match result with
  | .ok status => pure status
  | .error stop => throw stop

/-- The round of a loop ends; true if the loop goes on. -/
def roundEnd (body : Run Nat) : Run (Nat × Bool) :=
  tryCatch (return (← body, true)) fun
    | .breakLoops n => if 1 < n then throw (.breakLoops (n - 1)) else pure (0, false)
    | .nextRound n => if 1 < n then throw (.nextRound (n - 1)) else pure (0, true)
    | stop => throw stop

/-- What becomes of an unfinished call: a command left by `return` has its status. -/
def callEnd (body : Run Nat) : Run Nat :=
  tryCatch body fun
    | .returned status => pure status
    | stop => throw stop

/-- Glyphs of bytes that an expansion brought. -/
def brought (inQuotes : Bool) (text : Bytes) : List Glyph :=
  if inQuotes then .mark :: text.map .hard else text.map .soft

mutual

-- Words.

/-- The output of a script. -/
def output : Nat → Bytes → Run Bytes
  | 0, _ => endless
  | fuel + 1, text => do
    let stream ← newStream
    let ended ← forkShell do
      replace 1 (some (.output stream))
      script fuel { rest := text }
    let flow ← drain stream
    match flow.ends with
    | some time => waitUntil time
    | none => waitForever
    let status ← await ended
    remember fun m => { m with status := status.code, substituted := some status.code }
    let all := (flow.arrivals.map (·.2)).flatten
    pure ((all.reverse.dropWhile (· == 10)).reverse)

/-- The glyphs of a parameter. -/
def parameter : Nat → Bytes → ParameterUse → Bool → Run (List Glyph)
  | 0, _, _, _ => endless
  | fuel + 1, name, use, inQuotes => do
    let m ← memory
    let all := name = [64] ∨ name = [42]
    let value := if all then
        if m.parameters.isEmpty then none else some (Bytes.join [32] m.parameters)
      else m.value? name
    let known := brought inQuotes (value.getD [])
    let soften (glyphs : List Glyph) : List Glyph := glyphs.map fun
      | .plain b => .soft b
      | glyph => glyph
    match use with
    | .value =>
      if all then
        if inQuotes && name == [42] then pure (brought true (Bytes.join (m.separators.take 1) m.parameters))
        else
          pure ((m.parameters.map (brought inQuotes)).intersperse [.border]).flatten
      else
        if value.isNone && m.refuseUnset then fail (name ++ ascii ": parameter not set")
        else pure known
    | .length =>
      pure (brought inQuotes (Bytes.decimal (if all then m.parameters.length else (value.getD []).length)))
    | .cut atEnd longest text =>
      let pattern := Glyph.pattern (← glyphs fuel (wordOf text false))
      pure (brought inQuotes (pattern.cut atEnd longest (value.getD [])))
    | .orElse sign colon text =>
      let has := value.any fun v => !(colon && v.isEmpty)
      let instead := wordOf text inQuotes
      if sign = 43 then if has then soften <$> glyphs fuel instead else pure (brought inQuotes [])
      else if has then pure known
      else if sign = 45 then soften <$> glyphs fuel instead
      else if sign = 61 then
        let found ← glyphs fuel instead
        remember (·.assign name (Glyph.text found))
        pure (soften found)
      else
        let found ← glyphs fuel instead
        let wording := Glyph.text found
        fail (name ++ ascii ": " ++ (if wording.isEmpty then
          if colon then ascii "parameter not set or null" else ascii "parameter not set" else wording))

/-- The glyphs of a word. -/
def glyphs : Nat → Word → Run (List Glyph)
  | 0, _ => endless
  | _ + 1, [] => pure []
  | fuel + 1, piece :: rest => do
    let first ← match piece with
      | .plain text => pure (text.map .plain)
      | .quoted text => pure (.mark :: text.map .hard)
      | .parameter name use inQuotes => parameter fuel name use inQuotes
      | .substitution text inQuotes => do
        let text ← output fuel text
        pure (brought inQuotes (text.filter (· != 0)))
      | .arithmetic text inQuotes => do
        let text := Glyph.text (← glyphs fuel (wordOf text true))
        match Arithmetic.evaluate text (← memory).bindings with
        | .ok (n, bindings) => do
          remember ({ · with bindings })
          pure (brought inQuotes (Bytes.decimalInt n))
        | .error wording => fail wording
    return first ++ (← glyphs fuel rest)

/-- The words that a word stands for. -/
def fields : Nat → List Word → Run (List Bytes)
  | 0, _ => endless
  | _ + 1, [] => pure []
  | fuel + 1, word :: rest => do
    let found := Glyph.fields (← memory).separators none (← glyphs fuel word)
    let m ← get
    let texts := found.flatMap (pathsOrText m.tree m.process.directory)
    return texts ++ (← fields fuel rest)

/-- Makes redirections; false after a fault. -/
def redirectAll (change : Nat → Option Channel → Run Unit) : Nat → List Redirect → Run Bool
  | 0, _ => endless
  | _ + 1, [] => pure true
  | fuel + 1, r :: rest => do
    let target := Glyph.text (← glyphs fuel r.target)
    if ← redirect change r target then redirectAll change fuel rest else pure false

/-- Makes assignments; programs get to see the variables if `visible`. -/
def assignAll (visible : Bool) : Nat → List (Bytes × Word) → Run Unit
  | 0, _ => endless
  | _ + 1, [] => pure ()
  | fuel + 1, (name, word) :: rest => do
    let value := Glyph.text (← glyphs fuel word)
    remember (·.assign name value)
    if visible then remember (·.exportVariable name)
    assignAll visible fuel rest

-- Commands.

/-- Carries out something with redirections in force. -/
def redirected : Nat → List Redirect → Command → Bool → Run Nat
  | 0, _, _, _ => endless
  | fuel + 1, redirects, body, tested => do
    if redirects.isEmpty then command fuel tested body
    else
      let before := (← get).process.descriptors
      restoring before do
        if ← redirectAll point fuel redirects then command fuel tested body else pure 2

/-- Runs the handlers of signals that were caught. -/
def handleSignals : Nat → Run Unit
  | 0 => endless
  | fuel + 1 => do
    let m ← get
    match m.process.caught with
    | [] => pure ()
    | signal :: rest =>
      set { m with process := { m.process with caught := rest } }
      match m.shell.handlers.lookup signal with
      | some text =>
        let _ ← script fuel { rest := text, line := m.shell.line }
        remember ({ · with status := m.shell.status })
      | none => pure ()
      handleSignals fuel

/-- Turns the process into a program; `who` stands before faults. -/
def become : Nat → Bytes → List Bytes → Run Nat
  | 0, _, _ => endless
  | fuel + 1, who, words => do
    let m ← get
    let name := words.headD []
    let refuse (text : Bytes) (code : Nat) : Run Nat := do
      report (who ++ name ++ ascii ": " ++ text)
      pure code
    let path := (m.shell.bindings.lookup (ascii "PATH")).getD []
    match m.tree.launch m.process.directory (some path) name words with
    | .ok call =>
      set { m with process := { m.process with
        environment := m.shell.environment, handled := [], caught := [] } }
      pass startCost
      program fuel call
    | .error .noEntry => refuse (ascii "not found") 127
    | .error .notDirectory => refuse (ascii "not found") 127
    | .error e => refuse e.message 126

/-- Carries out a program of the system. -/
def program : Nat → Call → Run Nat
  | 0, _ => endless
  | fuel + 1, call => do
    let m ← get
    set { m with shell := {
      name := call.words.headD []
      pid := m.process.pid
      bindings := (ascii "PWD", 47 :: Bytes.join [47] m.process.directory)
        :: m.process.environment.filter (·.1 != ascii "PWD") ++ [(ascii "PATH", usualSearchPath)]
      exported := (m.process.environment.map Prod.fst).reverse } }
    if call.program = ascii "sh" then shell fuel call.words
    else if call.program = ascii "kill" then kill (call.words.drop 1)
    else if call.program = ascii "env" then
      let isAssignment (word : Bytes) : Bool := word.contains 61
      let words := (call.words.drop 1).dropWhile (· == ascii "-i")
      let _ ← exportVariables (words.takeWhile isAssignment)
      match words.dropWhile isAssignment with
      | [] =>
        let shown := ((← memory).environment.map fun (name, value) => name ++ 61 :: value ++ [10]).flatten
        Utility.put (ascii "env") shown
      | words =>
        match m.tree.launch m.process.directory ((← memory).value? (ascii "PATH")) (words.headD []) words with
        | .ok _ => become fuel [] words
        | .error e => do
          let _ ← Utility.complain (call.words.headD []) (Utility.quote (words.headD []) ++ ascii ": " ++ e.message)
          pure (if e = .permissionDenied then 126 else 127)
    else match Utility.run? call.program call.words with
      | some run => run
      | none => pure 127

/-- Carries out a shell that is called with words. -/
def shell : Nat → List Bytes → Run Nat
  | 0, _ => endless
  | fuel + 1, words => do
    let name := words.headD (ascii "sh")
    let isOption (word : Bytes) : Bool := match word with
      | 45 :: _ :: _ => word != ascii "--"
      | 43 :: _ :: _ => true
      | _ => false
    let chosen := (words.drop 1).takeWhile isOption
    let letters : Bytes := (chosen.map fun word => word.drop 1).flatten
    let operands := (words.drop 1).drop chosen.length
    let operands := if operands.head? = some (ascii "--") then operands.drop 1 else operands
    remember fun m => { m with
      name, line := 0, leaveOnFailure := letters.contains 101, refuseUnset := letters.contains 117 }
    let text ←
      if letters.contains 99 then
        match operands with
        | [] => fail (ascii "-c requires an argument")
        | text :: more =>
          remember fun m => { m with name := more.headD name, parameters := more.drop 1 }
          pure text
      else match if letters.contains 115 then [] else operands with
        | [] =>
          remember fun m => { m with parameters := operands }
          match ← readAll 0 Utility.patience with
          | .ok text => pure text
          | .error _ => pure []
        | file :: more =>
          match ← readFile file with
          | .ok text =>
            remember fun m => { m with name := file, parameters := more }
            pure text
          | .error e => fail (ascii "cannot open " ++ file ++ ascii ": " ++ openFault e "No such file")
    remember ({ · with line := 1 })
    let code ← tryCatch (script fuel { rest := text }) fun
      | .leave code => pure code
      | .returned code => pure code
      | .breakLoops _ => pure 0
      | .nextRound _ => pure 0
      | stop => throw stop
    match (← memory).handlers.lookup 0 with
    | none => pure code
    | some handler =>
      remember fun m => { m with status := code, handlers := m.handlers.filter (·.1 != 0) }
      let _ ← script fuel { rest := handler }
      pure code

/-- Carries out a simple command whose words are expanded. -/
def simple : Nat → Bool → List (Bytes × Word) → List Bytes → List Redirect → Run Nat
  | 0, _, _, _, _ => endless
  | fuel + 1, tested, assignments, words, redirects => do
    let before := (← get).process.descriptors
    match words with
    | [] =>
      let ok ← restoring before do
        return if ← redirectAll point fuel redirects then 0 else 2
      if ok != 0 then pure ok
      else
        assignAll false fuel assignments
        return ((← memory).substituted.getD 0)
    | name :: arguments =>
      let m ← memory
      match m.functions.lookup name with
      | some body =>
        restoring before do
          if ← redirectAll point fuel redirects then
            assignAll false fuel assignments
            remember ({ · with parameters := arguments, loops := 0 })
            let status ← callEnd (command fuel tested body)
            remember ({ · with parameters := m.parameters, loops := m.loops })
            pure status
          else pure 2
      | none =>
        if name = ascii "exec" then
          if ← redirectAll replace fuel redirects then
            assignAll true fuel assignments
            if arguments.isEmpty then pure 0
            else throw (.leave (← become fuel (ascii "exec: ") arguments))
          else throw (.leave 2)
        else if isBuiltin name then
          let special := specialNames.contains name
          restoring before do
            if ← redirectAll point fuel redirects then
              assignAll false fuel assignments
              let status ←
                if name = ascii "eval" then script fuel { rest := Bytes.join [32] arguments, line := m.line }
                else if name = ascii "." then
                  match ← readFile (arguments.headD []) with
                  | .ok text => callEnd (script fuel { rest := text })
                  | .error e =>
                    fail (ascii ".: cannot open " ++ arguments.headD [] ++ ascii ": " ++ openFault e "No such file")
                else if name = ascii "command" then
                  match arguments with
                  | [45, 118] :: wanted :: _ => do
                    if isBuiltin wanted then put name (wanted ++ [10])
                    else match ← locate wanted with
                      | some path => put name (path ++ [10])
                      | none => pure 127
                  | words => simple fuel tested [] words []
                else if name = ascii "type" then describe arguments
                else (builtin? name arguments).getD (pure 127)
              if !special && !assignments.isEmpty then
                remember fun now => { now with
                  bindings := now.bindings.filter (fun v => !assignments.any (·.1 == v.1))
                    ++ m.bindings.filter (fun v => assignments.any (·.1 == v.1)) }
              pure status
            else if special then throw (.leave 2)
            else pure 2
        else
          let ended ← fork do
            modify fun m => { m with process := { m.process with handled := [] } }
            if ← redirectAll replace fuel redirects then
              assignAll true fuel assignments
              become fuel [] words
            else pure 2
          outcomeOf (← await ended)

/-- Starts the commands of a pipeline, the first reading what is given. -/
def pipeline : Nat → Option Nat → List Command → Run (List Ended)
  | 0, _, _ => endless
  | _ + 1, _, [] => pure []
  | fuel + 1, source, part :: rest => do
    let stream ← newStream
    let ended ← forkShell do
      match source with
      | some stream => replace 0 (some (.input stream))
      | none => pure ()
      if !rest.isEmpty then replace 1 (some (.output stream))
      command fuel false part
    let flow ← drain stream
    setInflow stream flow
    return ended :: (← pipeline fuel (some stream) rest)

/-- Repeats a body. -/
def loop : Nat → Bool → Bool → Command → Command → Nat → Run Nat
  | 0, _, _, _, _, _ => endless
  | fuel + 1, tested, success, condition, body, status => do
    let (holds, goesOn) ← roundEnd (command fuel true condition)
    if !goesOn then pure 0
    else if (holds == 0) != success then pure status
    else
      let (status, goesOn) ← roundEnd (command fuel tested body)
      if goesOn then loop fuel tested success condition body status else pure status

/-- Carries out a body for each word. -/
def each : Nat → Bool → Bytes → List Bytes → Command → Nat → Run Nat
  | 0, _, _, _, _, _ => endless
  | _ + 1, _, _, [], _, status => pure status
  | fuel + 1, tested, name, word :: words, body, _ => do
    remember (·.assign name word)
    let (status, goesOn) ← roundEnd (command fuel tested body)
    if goesOn then each fuel tested name words body status else pure status

/-- The first branch whose condition succeeds. -/
def choose : Nat → Bool → List (Command × Command) → Option Command → Run Nat
  | 0, _, _, _ => endless
  | fuel + 1, tested, (condition, body) :: more, otherwise => do
    if (← command fuel true condition) = 0 then command fuel tested body
    else choose fuel tested more otherwise
  | fuel + 1, tested, [], some body => command fuel tested body
  | _ + 1, _, [], none => pure 0

/-- The first branch with a pattern that matches. -/
def matching : Nat → Bool → Bytes → List (List Word × Command) → Run Nat
  | 0, _, _, _ => endless
  | _ + 1, _, _, [] => pure 0
  | fuel + 1, tested, subject, ([], _) :: more => matching fuel tested subject more
  | fuel + 1, tested, subject, (word :: words, body) :: more => do
    let pattern := Glyph.pattern (← glyphs fuel word)
    if pattern.isMatch subject then command fuel tested body
    else matching fuel tested subject ((words, body) :: more)

/-- Carries out commands one after the other. -/
def sequence : Nat → Bool → List (Command × Bool) → Run Nat
  | 0, _, _ => endless
  | _ + 1, _, [] => return (← memory).status
  | fuel + 1, tested, (part, background) :: rest => do
    if background then
      let ended ← forkShell do
        replace 0 (some .nothing)
        command fuel false part
      remember fun m => { m with
        status := 0, background := some ended.pid, jobs := m.jobs ++ [(ended.pid, ended.time, ended.status)] }
    else
      let _ ← command fuel tested part
    handleSignals fuel
    sequence fuel tested rest

/-- Carries out a command and remembers how it ended.  A failure that nobody tests ends a shell
that is told to leave on failure. -/
def command : Nat → Bool → Command → Run Nat
  | 0, _, _ => endless
  | fuel + 1, tested, c => do
    let (status, counts) ← match c with
      | .simple line assignments words redirects => do
        pass stepCost
        remember ({ · with line, substituted := none })
        let words ← fields fuel words
        let status ← simple fuel tested assignments words redirects
        pure (status, true)
      | .pipeline negated [part] => do
        let status ← command fuel (tested || negated) part
        pure (if negated then if status = 0 then 1 else 0 else status, !negated)
      | .pipeline negated parts => do
        let ended ← pipeline fuel none parts
        let status ← outcomeOf (← awaitAll ended)
        pure (if negated then if status = 0 then 1 else 0 else status, !negated)
      | .both first second => do
        let status ← command fuel true first
        if status = 0 then pure (← command fuel tested second, false) else pure (status, false)
      | .either first second => do
        let status ← command fuel true first
        if status = 0 then pure (status, false) else pure (← command fuel tested second, false)
      | .sequence parts => pure (← sequence fuel tested parts, false)
      | .group body redirects => pure (← redirected fuel redirects body tested, false)
      | .subshell body redirects => do
        let ended ← forkShell do
          if ← redirectAll replace fuel redirects then command fuel tested body else pure 2
        pure (← outcomeOf (← await ended), true)
      | .choose branches otherwise redirects => do
        let before := (← get).process.descriptors
        let status ← restoring before do
          if ← redirectAll point fuel redirects then choose fuel tested branches otherwise else pure 2
        pure (status, false)
      | .repeatWhile success condition body redirects => do
        let before := (← get).process.descriptors
        let status ← restoring before do
          if ← redirectAll point fuel redirects then inLoop (loop fuel tested success condition body 0) else pure 2
        pure (status, false)
      | .forEach name words body redirects => do
        let before := (← get).process.descriptors
        let status ← restoring before do
          if ← redirectAll point fuel redirects then
            let words ← match words with
              | some words => fields fuel words
              | none => pure (← memory).parameters
            inLoop (each fuel tested name words body 0)
          else pure 2
        pure (status, false)
      | .matchWord subject branches redirects => do
        let before := (← get).process.descriptors
        let status ← restoring before do
          if ← redirectAll point fuel redirects then
            let subject := Glyph.text (← glyphs fuel subject)
            matching fuel tested subject branches
          else pure 2
        pure (status, false)
      | .define name body => do
        remember fun m => { m with functions := (name, body) :: m.functions.filter (·.1 != name) }
        pure (0, false)
    remember ({ · with status })
    if counts && status != 0 && !tested && (← memory).leaveOnFailure then throw (.leave status)
    else pure status

/-- Carries out a script command by command. -/
def script : Nat → Script → Run Nat
  | 0, _ => endless
  | fuel + 1, text => do
    match nextCommand text with
    | .error (wording, line) =>
      remember ({ · with line })
      fail wording
    | .ok none => return (← memory).status
    | .ok (some (first, rest)) =>
      let _ ← command fuel false first
      handleSignals fuel
      script fuel rest

end

end AnalyzerBridge.Host.Shell

/-
Which source a setting comes from.

The command line counts before the environment, the environment before the configuration file, and
the file before the defaults.  `Precedence` says so for one setting after the other, since not
every source can set each of them.

Neither the command line nor the file can set a time that is not positive, and so no time ever
becomes zero.
-/
import Mathlib.Tactic.SplitIfs
import AnalyzerBridge.CommandLine.Resolve
import AnalyzerBridge.Proofs.Settings.Entries

namespace AnalyzerBridge

open Host (Disk Environment)

/-! ### Times -/

theorem positiveValue?_pos {value : Bytes} {n : Nat} (h : positiveValue? value = some n) :
    0 < n := by
  obtain ⟨i, hi, rfl⟩ := Option.map_eq_some_iff.mp h
  obtain ⟨-, hpos⟩ := Option.filter_eq_some_iff.mp hi
  have hpos : 0 < i := by simpa using hpos
  omega

/-- A time is positive if it is written in a file, and else if it was before. -/
theorem getD_written_pos (values : List Bytes) {time : Nat} (h : 0 < time) :
    0 < (values.filterMap positiveValue?).getLast?.getD time := by
  cases hlast : (values.filterMap positiveValue?).getLast? with
  | none => exact h
  | some n =>
      obtain ⟨value, -, hn⟩ := List.mem_filterMap.mp (List.mem_of_getLast? hlast)
      exact positiveValue?_pos hn

namespace CommandLine.Options

variable {o o' : Options} {env : Environment} {disk : Disk}

/-! ### The command line -/

/-- What every flag keeps is kept by reading arguments. -/
theorem parse_invariant {P : Options → Prop} (hhelp : ∀ o, P o → P { o with showHelp := true })
    (hquiet : ∀ o, P o → P { o with noLog := true })
    (hset : ∀ o o' arg flag value, P o → o.setFlag arg flag value = .ok o' → P o')
    (o : Options) (args : List Bytes) (h : P o) : P (o.parse args).1 := by
  fun_induction parse o args with
  | case1 o => exact h
  | case2 o _ _ _ ih => exact ih (hhelp o h)
  | case3 o _ _ ih => exact ih (hquiet o h)
  | case4 o _ _ _ _ _ _ _ o' hflag ih => exact ih (hset o o' _ _ _ h hflag)
  | case5 => exact h
  | case6 => exact h
  | case7 o _ _ _ _ _ _ o' hflag ih => exact ih (hset o o' _ _ _ h hflag)
  | case8 => exact h

/-- A flag leaves the time of a request alone or gives it a time that can be taken. -/
theorem requestTimeout_of_setFlag {arg flag value : Bytes}
    (hset : o.setFlag arg flag value = .ok o') :
    o'.requestTimeout = o.requestTimeout
      ∨ ∃ n, positiveValue? value = some n ∧ o'.requestTimeout = some n := by
  unfold setFlag at hset
  split_ifs at hset with hanalyzer hworkspace hconfig htimeout hlog
  case pos =>
    obtain rfl := Except.ok.inj hset
    exact .inl rfl
  case pos =>
    obtain rfl := Except.ok.inj hset
    exact .inl rfl
  case pos =>
    obtain rfl := Except.ok.inj hset
    exact .inl rfl
  case pos =>
    cases hvalue : positiveValue? value with
    | none => simp [hvalue] at hset
    | some n =>
        simp only [hvalue, Except.ok.injEq] at hset
        exact .inr ⟨n, rfl, by rw [← hset]⟩
  case pos =>
    obtain rfl := Except.ok.inj hset
    exact .inl rfl

/-- The command line sets no time that is not positive. -/
theorem requestTimeout_pos_of_parse (args : List Bytes) :
    ∀ n ∈ (parse {} args).1.requestTimeout, 0 < n := by
  refine parse_invariant (P := fun o => ∀ n ∈ o.requestTimeout, 0 < n) (fun _ h => h)
    (fun _ h => h) ?_ {} args (by simp)
  intro o o' arg flag value h hset n hn
  rcases requestTimeout_of_setFlag hset with hsame | ⟨m, hvalue, htime⟩
  · exact h n (hsame ▸ hn)
  · obtain rfl : m = n := by simpa [htime] using hn
    exact positiveValue?_pos hvalue

/-! ### The configuration file -/

/-- The configuration file that is looked for. -/
def configFile (o : Options) (env : Environment) (disk : Disk) : Bytes :=
  o.configPath.getD (Path.append (disk.absolute (o.namedWorkspace env disk)) configFileName)

/-- What the configuration file says; nothing if it cannot be read. -/
def configEntries (o : Options) (env : Environment) (disk : Disk) : List Toml.Entry :=
  match disk.read (o.configFile env disk) with
  | .ok text => Toml.entries text
  | .error _ => []

/-- A file that is not there cannot be read. -/
theorem exists_read_error {path : Bytes} (h : ¬disk.pathExists path = true) :
    ∃ reason, disk.read path = .error reason := by
  cases hstat : disk.stat path with
  | error e => exact ⟨_, by simp only [Disk.read, hstat]; rfl⟩
  | ok stored => simp [Disk.pathExists, hstat, Except.toOption] at h

theorem settings_of_addFileIfThere (s : Settings) (disk : Disk) (path : Bytes) :
    (s.addFileIfThere disk path).1
      = (s.addEntries (match disk.read path with
          | .ok text => Toml.entries text
          | .error _ => [])).1 := by
  unfold Settings.addFileIfThere
  by_cases hthere : disk.pathExists path = true
  · rw [if_pos hthere]
    cases hread : disk.read path with
    | ok text => simp only [Settings.addFile, hread]
    | error reason =>
        simp only [Settings.addFile, hread]
        rfl
  · obtain ⟨reason, hread⟩ := exists_read_error hthere
    rw [if_neg hthere, hread]
    rfl

/-- The settings are resolved unless a configuration file was named that cannot be read. -/
theorem resolve_cases (o : Options) (env : Environment) (disk : Disk) (s : Settings) :
    (∃ reason, o.resolve env disk s = .error reason
        ∧ ∃ path failure, o.configPath = some path ∧ disk.read path = .error failure)
      ∨ ∃ r, o.resolve env disk s = .ok r
          ∧ r.settings = o.override (disk.absolute (o.namedWorkspace env disk)) r.configDir
              ((s.addEntries (o.configEntries env disk)).1.addEnvironment env) := by
  unfold resolve fileSettings
  cases hpath : o.configPath with
  | none =>
      have hfile := settings_of_addFileIfThere s disk
        (Path.append (disk.absolute (o.namedWorkspace env disk)) configFileName)
      rcases hadded : s.addFileIfThere disk _ with ⟨settings, remarks⟩
      rw [hadded] at hfile
      refine .inr ⟨_, by simp only [hadded]; rfl, ?_⟩
      simp only [configEntries, configFile, hpath, Option.getD_none, ← hfile]
  | some path =>
      cases hread : disk.read path with
      | error failure =>
          simp only [Settings.addFile, hread]
          exact .inl ⟨_, rfl, path, failure, rfl, hread⟩
      | ok text =>
          simp only [Settings.addFile, hread]
          refine .inr ⟨_, rfl, ?_⟩
          simp only [configEntries, configFile, hpath, Option.getD_some, hread]

/-! ### The sources of a setting -/

/-- What the first source says that says anything. -/
def highest {α : Type} (sources : List (Option α)) : Option α := sources.findSome? id

theorem highest_pair {α : Type} (a b : Option α) : highest [a, b] = a.or b := by
  cases a <;> cases b <;> rfl

theorem highest_three {α : Type} (a b c : Option α) : highest [a, b, c] = a.or (b.or c) := by
  cases a <;> cases b <;> cases c <;> rfl

/-- Every setting has the value of the highest source that sets it. -/
structure Precedence (o : Options) (env : Environment) (entries : List Toml.Entry) (s : Settings) :
    Prop where
  analyzerPath : s.analyzerPath
    = (highest [o.analyzerPath, env.nonempty? (ascii "RAMCP_RUST_ANALYZER"),
        (Setting.analyzerPath.written entries).getLast?.map Toml.stringValue]).getD
          ({} : Settings).analyzerPath
  requestTimeout : s.requestTimeout
    = (highest [o.requestTimeout,
        ((Setting.requestTimeout.written entries).filterMap positiveValue?).getLast?]).getD
          ({} : Settings).requestTimeout
  shutdownGrace : s.shutdownGrace
    = ((Setting.shutdownGrace.written entries).filterMap positiveValue?).getLast?.getD
        ({} : Settings).shutdownGrace
  diagnosticsWait : s.diagnosticsWait
    = ((Setting.diagnosticsWait.written entries).filterMap positiveValue?).getLast?.getD
        ({} : Settings).diagnosticsWait
  logPath : s.logPath
    = highest [o.logPath, env.nonempty? (ascii "RAMCP_LOG_PATH"),
        (Setting.logPath.written entries).getLast?.map Toml.stringValue]
  /-- A log file on the command line asks for logging too.  A last entry that is no truth value
  leaves it open. -/
  logEnabled : s.logEnabled
    = if o.noLog then some false else if o.logPath.isSome then some true
      else (Setting.logEnabled.written entries).getLast?.bind Toml.boolValue?
  rustfmtPath : s.rustfmtPath
    = ((Setting.rustfmtPath.written entries).getLast?.map Toml.stringValue).getD
        ({} : Settings).rustfmtPath
  cargoPath : s.cargoPath
    = ((Setting.cargoPath.written entries).getLast?.map Toml.stringValue).getD
        ({} : Settings).cargoPath
  analyzerArgs : s.analyzerArgs
    = ((Setting.analyzerArgs.written entries).getLast?.map Toml.stringArray).getD
        ({} : Settings).analyzerArgs

theorem getLast?_filterMap_some {α β : Type} (f : α → β) (l : List α) :
    (l.filterMap fun a => some (f a)).getLast? = l.getLast?.map f := by
  rw [List.filterMap_eq_map', List.getLast?_map]

/-- What a file makes of a setting whose written values can all be taken. -/
theorem get_file (setting : Setting) {read : Bytes → setting.Value}
    (hread : setting.read? = fun value => some (read value)) (entries : List Toml.Entry) :
    (({} : Settings).addEntries entries).1.get setting
      = ((setting.written entries).getLast?.map read).getD (({} : Settings).get setting) := by
  rw [Settings.get_addEntries, hread, getLast?_filterMap_some]

theorem precedence_override (o : Options) (env : Environment) (entries : List Toml.Entry)
    (workspace configDir : Bytes) :
    Precedence o env entries (o.override workspace configDir
      ((({} : Settings).addEntries entries).1.addEnvironment env)) where
  analyzerPath := by
    rw [highest_three, Option.getD_or, Option.getD_or]
    show o.analyzerPath.getD ((env.nonempty? _).getD
      (((({} : Settings).addEntries entries).1).get .analyzerPath)) = _
    rw [get_file .analyzerPath rfl]
    rfl
  requestTimeout := by
    rw [highest_pair, Option.getD_or]
    show o.requestTimeout.getD ((({} : Settings).addEntries entries).1.get .requestTimeout) = _
    rw [Settings.get_addEntries]
    rfl
  shutdownGrace := ({} : Settings).get_addEntries .shutdownGrace entries
  diagnosticsWait := ({} : Settings).get_addEntries .diagnosticsWait entries
  logPath := by
    rw [highest_three]
    show o.logPath.or ((env.nonempty? _).or
      ((({} : Settings).addEntries entries).1.get .logPath)) = _
    rw [get_file .logPath rfl]
    cases (Setting.logPath.written entries).getLast? <;> rfl
  logEnabled := by
    show (if o.noLog then some false else if o.logPath.isSome then some true
      else ((({} : Settings).addEntries entries).1.get .logEnabled)) = _
    rw [get_file .logEnabled rfl]
    cases (Setting.logEnabled.written entries).getLast? <;> rfl
  rustfmtPath := get_file .rustfmtPath rfl entries
  cargoPath := get_file .cargoPath rfl entries
  analyzerArgs := get_file .analyzerArgs rfl entries

/-- All times of such settings are positive. -/
theorem Precedence.times_pos {entries : List Toml.Entry} {s : Settings}
    (h : Precedence o env entries s) (htime : ∀ n ∈ o.requestTimeout, 0 < n) :
    0 < s.requestTimeout ∧ 0 < s.shutdownGrace ∧ 0 < s.diagnosticsWait := by
  rw [h.requestTimeout, h.shutdownGrace, h.diagnosticsWait, highest_pair, Option.getD_or]
  refine ⟨?_, getD_written_pos _ (by decide), getD_written_pos _ (by decide)⟩
  cases hflag : o.requestTimeout with
  | some n => exact htime n hflag
  | none => exact getD_written_pos _ (by decide)

/--
**Whatever the command line, the environment and the files are, every setting has the value of the
highest source that sets it, and every time is positive.**

There are no settings only if the command line names a configuration file that cannot be read.
-/
theorem resolve_respects_precedence (args : List Bytes) (env : Environment) (disk : Disk) :
    match (parse {} args).1.resolve env disk {} with
    | .ok r =>
      Precedence (parse {} args).1 env ((parse {} args).1.configEntries env disk) r.settings
        ∧ 0 < r.settings.requestTimeout ∧ 0 < r.settings.shutdownGrace
        ∧ 0 < r.settings.diagnosticsWait
    | .error _ =>
      ∃ path reason, (parse {} args).1.configPath = some path
        ∧ disk.read path = .error reason := by
  have htime := requestTimeout_pos_of_parse args
  rcases resolve_cases (parse {} args).1 env disk {} with
    ⟨reason, hresolve, hunread⟩ | ⟨r, hresolve, hsettings⟩
  · rw [hresolve]
    exact hunread
  · have hprecedence : Precedence (parse {} args).1 env
        ((parse {} args).1.configEntries env disk) r.settings := by
      rw [hsettings]
      exact precedence_override _ env _ _ _
    rw [hresolve]
    exact ⟨hprecedence, hprecedence.times_pos htime⟩

end CommandLine.Options

end AnalyzerBridge

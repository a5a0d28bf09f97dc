/-
What is written on a command line is read.

A command line mentions one thing after the other: a flag with its value, in one of two forms, or a
switch.  A mention only ever changes what the options hold of its subject, and sets that to
something that does not depend on what was there.  So of all mentions of a subject the last counts,
and it does not matter in which order the subjects come.

That a value may look like a flag does no harm, since the reader has passed over the value when it
comes to look for the next flag.
-/
import Mathlib.Data.List.Nodup
import AnalyzerBridge.Proofs.Settings.Times

namespace AnalyzerBridge.CommandLine

/-! ### Mentions -/

/-- A flag that takes a value. -/
inductive Flag where
  | analyzerPath
  | workspaceRoot
  | configPath
  | requestTimeout
  | logPath
  deriving DecidableEq, Repr

/-- How a flag is written. -/
def Flag.word : Flag → Bytes
  | analyzerPath => ascii "--rust-analyzer"
  | workspaceRoot => ascii "--workspace"
  | configPath => ascii "--config"
  | requestTimeout => timeFlag
  | logPath => ascii "--log"

/-- A word that stands alone. -/
inductive Switch where
  | noLog
  | help
  deriving DecidableEq, Repr

/-- How a switch is written. -/
def Switch.words : Switch → List Bytes
  | noLog => [ascii "--no-log"]
  | help => [ascii "--help", ascii "-h"]

/-- What is said in one place of a command line. -/
inductive Mention where
  | flag (f : Flag) (value : Bytes)
  | switch (s : Switch)
  deriving DecidableEq, Repr

namespace Mention

/-- What a mention is about. -/
def subject : Mention → Flag ⊕ Switch
  | flag f _ => .inl f
  | switch s => .inr s

/-- The value can be taken: that of a time has to be a positive number, any other text is fine. -/
def Valid : Mention → Prop
  | flag .requestTimeout value => (positiveValue? value).isSome = true
  | _ => True

instance : (m : Mention) → Decidable m.Valid
  | flag .requestTimeout value => inferInstanceAs (Decidable ((positiveValue? value).isSome = true))
  | flag .analyzerPath _ | flag .workspaceRoot _ | flag .configPath _ | flag .logPath _ =>
    inferInstanceAs (Decidable True)
  | switch _ => inferInstanceAs (Decidable True)

/-- The arguments that say it. -/
inductive Written : Mention → List Bytes → Prop
  | flag {f : Flag} {value : Bytes} {args : List Bytes} (form : FlagWritten f.word value args) :
      Written (flag f value) args
  | switch {s : Switch} {word : Bytes} (spelling : word ∈ s.words) : Written (switch s) [word]

end Mention

/-- The arguments of a command line, which mention one thing after the other. -/
inductive Line : List Mention → List Bytes → Prop
  | nil : Line [] []
  | cons {m : Mention} {mentions : List Mention} {args rest : List Bytes} (first : m.Written args)
      (more : Line mentions rest) : Line (m :: mentions) (args ++ rest)

/-- What is mentioned last of each subject. -/
def lasts : List Mention → List Mention
  | [] => []
  | m :: rest => if rest.any (fun n => n.subject = m.subject) then lasts rest else m :: lasts rest

namespace Options

/-- What there is to mention of the options, each subject once. -/
def mentions (o : Options) : List Mention :=
  o.analyzerPath.toList.map (.flag .analyzerPath)
    ++ o.workspaceRoot.toList.map (.flag .workspaceRoot)
    ++ o.configPath.toList.map (.flag .configPath)
    ++ o.requestTimeout.toList.map (fun time => .flag .requestTimeout (Bytes.decimal time))
    ++ o.logPath.toList.map (.flag .logPath)
    ++ (if o.noLog then [.switch .noLog] else [])
    ++ (if o.showHelp then [.switch .help] else [])

/-- The options with one thing more mentioned. -/
def take (o : Options) : Mention → Options
  | .flag .analyzerPath value => { o with analyzerPath := some value }
  | .flag .workspaceRoot value => { o with workspaceRoot := some value }
  | .flag .configPath value => { o with configPath := some value }
  | .flag .requestTimeout value => { o with requestTimeout := positiveValue? value }
  | .flag .logPath value => { o with logPath := some value }
  | .switch .noLog => { o with noLog := true }
  | .switch .help => { o with showHelp := true }

/-! ### Reading mentions -/

theorem isFlagWord (f : Flag) : IsFlagWord f.word := by
  cases f <;> decide

theorem setFlag_word (o : Options) (arg : Bytes) {f : Flag} {value : Bytes}
    (h : (Mention.flag f value).Valid) :
    o.setFlag arg f.word value = .ok (o.take (.flag f value)) := by
  cases f
  case requestTimeout =>
    obtain ⟨time, htime⟩ := Option.isSome_iff_exists.mp h
    have hset : o.setFlag arg timeFlag value = .ok { o with requestTimeout := some time } := by
      simp +decide [setFlag, htime]
    rw [Flag.word, hset, take, htime]
  all_goals rfl

/-- A mention is taken in, and reading goes on behind it. -/
theorem parse_mention {m : Mention} {args : List Bytes} (h : m.Written args) (hvalid : m.Valid)
    (o : Options) (rest : List Bytes) : o.parse (args ++ rest) = (o.take m).parse rest := by
  cases h with
  | @flag f value args form =>
      obtain ⟨arg, hparse⟩ := parse_flag (isFlagWord f) form o rest
      rw [hparse, setFlag_word o arg hvalid]
  | @switch s word spelling =>
      rw [List.singleton_append, parse.eq_def]
      cases s with
      | noLog =>
          obtain rfl := List.mem_singleton.mp spelling
          rfl
      | help =>
          have hword : word = ascii "--help" ∨ word = ascii "-h" := by
            simpa [Switch.words] using spelling
          simp only [if_pos hword]
          rfl

/-- A whole command line is read to its end. -/
theorem parse_line {mentions : List Mention} {args : List Bytes} (h : Line mentions args)
    (hvalid : ∀ m ∈ mentions, m.Valid) (o : Options) :
    o.parse args = (mentions.foldl take o, none) := by
  induction h generalizing o with
  | nil => rfl
  | @cons m mentions args rest first more ih =>
      rw [List.forall_mem_cons] at hvalid
      rw [parse_mention first hvalid.1, ih hvalid.2, List.foldl_cons]

/-! ### Which mentions count -/

/-- Mentions of different things do not get in each other's way. -/
theorem take_comm {m n : Mention} (h : m.subject ≠ n.subject) (o : Options) :
    (o.take m).take n = (o.take n).take m := by
  cases m with
  | flag f value =>
      cases n with
      | flag g other =>
          have hne : f ≠ g := fun heq => h (congrArg Sum.inl heq)
          cases f <;> cases g <;> simp_all [take]
      | switch s => cases f <;> cases s <;> rfl
  | switch s =>
      cases n with
      | flag g other => cases s <;> cases g <;> rfl
      | switch other => cases s <;> cases other <;> rfl

/-- Of two mentions of one thing only the later counts. -/
theorem take_take {m n : Mention} (h : m.subject = n.subject) (o : Options) :
    (o.take m).take n = o.take n := by
  cases m with
  | flag f value =>
      cases n with
      | flag g other =>
          obtain rfl := Sum.inl.inj h
          cases f <;> rfl
      | switch s => exact absurd h Sum.inl_ne_inr
  | switch s =>
      cases n with
      | flag g other => exact absurd h Sum.inr_ne_inl
      | switch other =>
          obtain rfl := Sum.inr.inj h
          cases s <;> rfl

/-- A mention does not count if there is a later one of the same subject. -/
theorem foldl_take_of_mem {m : Mention} {rest : List Mention} {n : Mention} (hn : n ∈ rest)
    (hsubject : n.subject = m.subject) (o : Options) :
    rest.foldl take (o.take m) = rest.foldl take o := by
  induction rest generalizing o with
  | nil => exact absurd hn List.not_mem_nil
  | cons next rest ih =>
      rw [List.foldl_cons, List.foldl_cons]
      by_cases hnext : m.subject = next.subject
      · rw [take_take hnext]
      · have hrest : n ∈ rest := by
          refine (List.mem_cons.mp hn).resolve_left ?_
          rintro rfl
          exact hnext hsubject.symm
        rw [take_comm hnext, ih hrest]

/-- What is mentioned last is all that counts. -/
theorem foldl_take_lasts (mentions : List Mention) (o : Options) :
    (lasts mentions).foldl take o = mentions.foldl take o := by
  induction mentions generalizing o with
  | nil => rfl
  | cons m rest ih =>
      rw [lasts, List.foldl_cons]
      split
      case isTrue hlater =>
        obtain ⟨n, hn, hsubject⟩ := List.any_eq_true.mp hlater
        rw [ih, foldl_take_of_mem hn (of_decide_eq_true hsubject)]
      case isFalse => rw [List.foldl_cons, ih]

theorem lasts_subset (mentions : List Mention) : lasts mentions ⊆ mentions := by
  induction mentions with
  | nil => exact List.Subset.refl _
  | cons m rest ih =>
      rw [lasts]
      split
      case isTrue => exact List.subset_cons_of_subset m ih
      case isFalse => exact List.cons_subset_cons m ih

theorem nodup_subjects_lasts (mentions : List Mention) :
    ((lasts mentions).map Mention.subject).Nodup := by
  induction mentions with
  | nil => exact List.nodup_nil
  | cons m rest ih =>
      rw [lasts]
      split
      case isTrue => exact ih
      case isFalse hlast =>
        refine List.nodup_cons.mpr ⟨?_, ih⟩
        intro hmem
        obtain ⟨n, hn, hsubject⟩ := List.mem_map.mp hmem
        exact hlast (List.any_eq_true.mpr ⟨n, lasts_subset rest hn, decide_eq_true hsubject⟩)

/-- The order of the last mentions does not matter. -/
theorem foldl_take_perm {mentions others : List Mention} (h : (lasts mentions).Perm others)
    (o : Options) : mentions.foldl take o = others.foldl take o := by
  rw [← foldl_take_lasts]
  refine h.foldl_eq' ?_ o
  intro m hm n hn z
  by_cases hsubject : m.subject = n.subject
  · rw [List.inj_on_of_nodup_map (nodup_subjects_lasts mentions) hm hn hsubject]
  · exact take_comm hsubject z

/-! ### What the options are -/

/-- A time that a word of 32 bits can hold is what its decimal form is read as. -/
theorem positiveValue?_decimal {time : Nat} (hpos : 0 < time) (hle : time ≤ 2147483647) :
    positiveValue? (Bytes.decimal time) = some time := by
  have hspells : Spells (Bytes.decimal time) time := by
    refine ⟨[], [], by simp, by simp, ?_⟩
    simp [Bytes.decimalInt]
  have hfits : Numeral.Fits time := ⟨by omega, by omega⟩
  rw [hspells.positiveValue?, Numeral.kept_eq_iff.mpr hfits, if_pos (by omega)]
  rfl

/-- Mentioning all there is to mention gives the options. -/
theorem foldl_take_mentions {o : Options}
    (htime : ∀ time ∈ o.requestTimeout, 0 < time ∧ time ≤ 2147483647) :
    o.mentions.foldl take {} = o := by
  obtain ⟨analyzerPath, workspaceRoot, configPath, requestTimeout, logPath, noLog, showHelp⟩ := o
  -- One subject after the other, each with those before it set and those behind it not.
  have hanalyzer : (analyzerPath.toList.map (.flag .analyzerPath)).foldl take {}
      = { analyzerPath } := by
    cases analyzerPath <;> rfl
  have hworkspace : (workspaceRoot.toList.map (.flag .workspaceRoot)).foldl take { analyzerPath }
      = { analyzerPath, workspaceRoot } := by
    cases workspaceRoot <;> rfl
  have hconfig : (configPath.toList.map (.flag .configPath)).foldl take
      { analyzerPath, workspaceRoot } = { analyzerPath, workspaceRoot, configPath } := by
    cases configPath <;> rfl
  have hrequest : (requestTimeout.toList.map fun time =>
        Mention.flag .requestTimeout (Bytes.decimal time)).foldl take
      { analyzerPath, workspaceRoot, configPath }
      = { analyzerPath, workspaceRoot, configPath, requestTimeout } := by
    cases requestTimeout with
    | none => rfl
    | some time =>
        obtain ⟨hpos, hle⟩ := htime time rfl
        simp [take, positiveValue?_decimal hpos hle]
  have hlog : (logPath.toList.map (.flag .logPath)).foldl take
      { analyzerPath, workspaceRoot, configPath, requestTimeout }
      = { analyzerPath, workspaceRoot, configPath, requestTimeout, logPath } := by
    cases logPath <;> rfl
  have hnoLog : (if noLog then [Mention.switch .noLog] else []).foldl take
      { analyzerPath, workspaceRoot, configPath, requestTimeout, logPath }
      = { analyzerPath, workspaceRoot, configPath, requestTimeout, logPath, noLog } := by
    cases noLog <;> rfl
  have hhelp : (if showHelp then [Mention.switch .help] else []).foldl take
      { analyzerPath, workspaceRoot, configPath, requestTimeout, logPath, noLog }
      = { analyzerPath, workspaceRoot, configPath, requestTimeout, logPath, noLog,
          showHelp } := by
    cases showHelp <;> rfl
  simp only [mentions, List.foldl_append, hanalyzer, hworkspace, hconfig, hrequest, hlog, hnoLog,
    hhelp]

/--
**What is written on a command line is read.**

Whatever the options are, in whatever order their subjects are mentioned, in whichever form each
flag is written, and whatever else has been said of a subject before its last mention: the command
line is read to its end, and as these options.
-/
theorem parse_of_line {o : Options}
    (htime : ∀ time ∈ o.requestTimeout, 0 < time ∧ time ≤ 2147483647) {mentions : List Mention}
    (hlast : (lasts mentions).Perm o.mentions) (hvalid : ∀ m ∈ mentions, m.Valid)
    {args : List Bytes} (hargs : Line mentions args) : parse {} args = (o, none) := by
  rw [parse_line hargs hvalid, foldl_take_perm hlast, foldl_take_mentions htime]

/-- Values that look like flags, an empty one, and flags that are written twice. -/
theorem parse_of_line_confusing :
    let o : Options :=
      { analyzerPath := some [], workspaceRoot := some (ascii "--help"),
        requestTimeout := some 2147483647, logPath := some (ascii "--config=a"), showHelp := true }
    let args := [ascii "--log", ascii "-h", ascii "--workspace", ascii "--help",
      ascii "--timeout-ms=0x10", ascii "--log=--config=a", ascii "-h", ascii "--rust-analyzer=",
      ascii "--timeout-ms", ascii "2147483647"]
    (∀ time ∈ o.requestTimeout, 0 < time ∧ time ≤ 2147483647) ∧ parse {} args = (o, none) := by
  intro o args
  have htime : ∀ time ∈ o.requestTimeout, 0 < time ∧ time ≤ 2147483647 := by
    intro time h
    obtain rfl := Option.some.inj h
    decide
  let said : List Mention :=
    [.flag .logPath (ascii "-h"), .flag .workspaceRoot (ascii "--help"),
      .flag .requestTimeout (ascii "0x10"), .flag .logPath (ascii "--config=a"), .switch .help,
      .flag .analyzerPath [], .flag .requestTimeout (ascii "2147483647")]
  have hline : Line said args :=
    .cons (.flag .apart) <| .cons (.flag .apart) <| .cons (.flag .joined) <|
      .cons (.flag .joined) <| .cons (.switch (by decide)) <| .cons (.flag .joined) <|
      .cons (.flag .apart) .nil
  exact ⟨htime, parse_of_line htime (by decide +kernel) (by decide +kernel) hline⟩

end Options

end AnalyzerBridge.CommandLine

/-
Times that are written as numbers.

A time comes from the command line or from the configuration file, and from either it is read as an
integer that has to be positive.  The test is made on what is left of the number, and so it does not
notice a number that has become another one: a time is the number that was written exactly if that
fits into a word of 32 bits.
-/
import AnalyzerBridge.CommandLine.Options
import AnalyzerBridge.Proofs.Bytes.Numeral
import AnalyzerBridge.Proofs.Settings.Entries

namespace AnalyzerBridge

open Bytes (Tight decimalInt isBlank)
open Numeral (Fits kept)

/-! ### Numbers with blanks around them -/

/-- The text is the decimal form of the number, with blanks around it. -/
def Spells (text : Bytes) (n : Int) : Prop :=
  ∃ before after, (∀ b ∈ before, isBlank b = true) ∧ (∀ b ∈ after, isBlank b = true)
    ∧ text = before ++ decimalInt n ++ after

variable {text : Bytes} {n : Int}

theorem Spells.trim_eq (h : Spells text n) : Bytes.trim text = decimalInt n := by
  obtain ⟨before, after, hbefore, hafter, rfl⟩ := h
  exact Bytes.trim_of_tight hbefore (Tight.of_forall fun _ => Numeral.isBlank_of_mem_decimalInt)
    hafter

theorem untilZero_decimalInt (n : Int) : Bytes.untilZero (decimalInt n) = decimalInt n := by
  refine List.takeWhile_eq_self_iff.mpr fun b hb => ?_
  have hne : b ≠ 0 := by
    rintro rfl
    rcases Numeral.mem_decimalInt hb with hminus | hdigit
    · exact absurd hminus (by decide)
    · exact absurd hdigit (by decide)
  simpa using hne

theorem Spells.intValue? (h : Spells text n) : Toml.intValue? text = some (kept n) := by
  simp only [Toml.intValue?, h.trim_eq, untilZero_decimalInt, Numeral.scan_decimalInt]
  rfl

theorem Spells.positiveValue? (h : Spells text n) :
    positiveValue? text = if 0 < kept n then some (kept n).toNat else none := by
  rw [AnalyzerBridge.positiveValue?, h.intValue?, Option.filter_some]
  by_cases hpos : 0 < kept n
  · simp [hpos]
  · simp [hpos]

/-! ### Times on the command line -/

/-- The flag for the time of a request. -/
def timeFlag : Bytes := ascii "--timeout-ms"

/-- The two ways to write a flag with its value. -/
inductive FlagWritten (flag value : Bytes) : List Bytes → Prop
  | apart : FlagWritten flag value [flag, value]
  | joined : FlagWritten flag value [flag ++ 61 :: value]

namespace CommandLine.Options

/-- The word of a flag with a value: it starts with two dashes, has no equals sign, and is none of
the words that stand alone. -/
structure IsFlagWord (flag : Bytes) : Prop where
  dashes : (ascii "--").isPrefixOf flag = true
  noEquals : 61 ∉ flag
  noHelp : ¬(flag = ascii "--help" ∨ flag = ascii "-h")
  noSwitch : flag ≠ ascii "--no-log"

instance (flag : Bytes) : Decidable (IsFlagWord flag) :=
  decidable_of_iff ((ascii "--").isPrefixOf flag = true ∧ 61 ∉ flag
      ∧ ¬(flag = ascii "--help" ∨ flag = ascii "-h") ∧ flag ≠ ascii "--no-log")
    ⟨fun h => ⟨h.1, h.2.1, h.2.2.1, h.2.2.2⟩, fun h => ⟨h.1, h.2, h.3, h.4⟩⟩

/-- A flag is taken in with its value, whatever the value looks like. -/
theorem parse_flag {flag value : Bytes} {args : List Bytes} (hflag : IsFlagWord flag)
    (h : FlagWritten flag value args) (o : Options) (rest : List Bytes) :
    ∃ arg, o.parse (args ++ rest) = match o.setFlag arg flag value with
      | .ok o => o.parse rest
      | .error e => (o, some e) := by
  cases h with
  | apart =>
      have hjoined : joined? flag = none := by
        rw [joined?, if_pos hflag.dashes]
        exact Bytes.splitAt_eq_none hflag.noEquals
      refine ⟨flag, ?_⟩
      rw [List.cons_append, List.cons_append, List.nil_append, parse.eq_def]
      cases hset : o.setFlag flag flag value <;>
        simp only [if_neg hflag.noHelp, if_neg hflag.noSwitch, hjoined, hset]
  | joined =>
      -- With an equals sign in it, the argument is none of the words that stand alone.
      have hhead : ∀ name : Bytes, 61 ∉ name → flag ++ 61 :: value ≠ name := by
        rintro _ hname rfl
        exact hname (by simp)
      have hhelp : ¬(flag ++ 61 :: value = ascii "--help" ∨ flag ++ 61 :: value = ascii "-h") :=
        not_or.mpr ⟨hhead _ (by decide), hhead _ (by decide)⟩
      have hjoined : joined? (flag ++ 61 :: value) = some (flag, value) := by
        have hdashes : (ascii "--").isPrefixOf (flag ++ 61 :: value) = true :=
          List.isPrefixOf_iff_prefix.mpr
            ((List.isPrefixOf_iff_prefix.mp hflag.dashes).trans (List.prefix_append _ _))
        rw [joined?, if_pos hdashes]
        exact Bytes.splitAt_append hflag.noEquals value
      refine ⟨flag ++ 61 :: value, ?_⟩
      rw [List.singleton_append, parse.eq_def]
      have hswitch := hhead (ascii "--no-log") (by decide)
      cases hset : o.setFlag (flag ++ 61 :: value) flag value <;>
        simp only [if_neg hhelp, if_neg hswitch, hjoined, hset]

theorem parse_timeFlag {value : Bytes} {args : List Bytes} (h : FlagWritten timeFlag value args)
    (o : Options) (rest : List Bytes) :
    o.parse (args ++ rest) = match positiveValue? value with
      | some time => { o with requestTimeout := some time }.parse rest
      | none => (o, some (.invalidTimeout value)) := by
  obtain ⟨arg, hparse⟩ := parse_flag (by decide) h o rest
  have hset : o.setFlag arg timeFlag value = match positiveValue? value with
      | some time => .ok { o with requestTimeout := some time }
      | none => .error (.invalidTimeout value) := rfl
  rw [hparse, hset]
  cases positiveValue? value <;> rfl

end CommandLine.Options

/-! ### Times in the configuration file -/

/-- A setting that is a time. -/
inductive TimeSetting where
  | requestTimeout
  | shutdownGrace
  | diagnosticsWait
  deriving DecidableEq, Repr

/-- As one of the settings. -/
def TimeSetting.setting : TimeSetting → Setting
  | requestTimeout => .requestTimeout
  | shutdownGrace => .shutdownGrace
  | diagnosticsWait => .diagnosticsWait

/-- The time that is set. -/
def Settings.time (s : Settings) : TimeSetting → Nat
  | .requestTimeout => s.requestTimeout
  | .shutdownGrace => s.shutdownGrace
  | .diagnosticsWait => s.diagnosticsWait

theorem Settings.time_addEntry {time : TimeSetting} {entry : Toml.Entry}
    (h : entry.key ∈ time.setting.keys) (s : Settings) :
    (s.addEntry entry).1.time time = (positiveValue? entry.value).getD (s.time time) := by
  cases time <;> exact get_addEntry_of_mem h s

/-! ### Times that are not what was written -/

/--
**An integer is read as the number that was written exactly if that fits into 32 bits.**

It is read in any case, and what is left of it is tested and taken where a time is expected: on the
command line, however the flag is written, and under the keys of the configuration file.
-/
theorem number_read_iff_fits (h : Spells text n) :
    Toml.intValue? text = some (kept n) ∧ (Toml.intValue? text = some n ↔ Fits n)
      ∧ (∀ (o : CommandLine.Options) (args rest : List Bytes), FlagWritten timeFlag text args →
          o.parse (args ++ rest)
            = if 0 < kept n then { o with requestTimeout := some (kept n).toNat }.parse rest
              else (o, some (.invalidTimeout text)))
      ∧ ∀ (time : TimeSetting) (s : Settings) (entry : Toml.Entry),
          entry.key ∈ time.setting.keys → entry.value = text →
            (s.addEntry entry).1.time time
              = if 0 < kept n then (kept n).toNat else s.time time := by
  refine ⟨h.intValue?, ?_, ?_, ?_⟩
  · rw [h.intValue?, Option.some.injEq]
    exact Numeral.kept_eq_iff
  · intro o args rest hargs
    rw [CommandLine.Options.parse_timeFlag hargs, h.positiveValue?]
    by_cases hpos : 0 < kept n
    · rw [if_pos hpos, if_pos hpos]
    · rw [if_neg hpos, if_neg hpos]
  · intro time s entry hkey hvalue
    rw [Settings.time_addEntry hkey, hvalue, h.positiveValue?]
    by_cases hpos : 0 < kept n
    · rw [if_pos hpos, if_pos hpos, Option.getD_some]
    · rw [if_neg hpos, if_neg hpos, Option.getD_none]

/-- The least number that fits is read in spite of the blanks, and refused as a time. -/
theorem number_read_least :
    Spells (ascii "\t -2147483648\r\n") (-2147483648)
      ∧ Toml.intValue? (ascii "\t -2147483648\r\n") = some (-2147483648)
      ∧ CommandLine.Options.parse {} [timeFlag ++ 61 :: ascii "\t -2147483648\r\n"]
          = ({}, some (.invalidTimeout (ascii "\t -2147483648\r\n"))) := by
  have hspells : Spells (ascii "\t -2147483648\r\n") (-2147483648) :=
    ⟨ascii "\t ", ascii "\r\n", Bytes.forall_mem_of_all (by decide),
      Bytes.forall_mem_of_all (by decide), by decide +kernel⟩
  obtain ⟨-, hread, hflag, -⟩ := number_read_iff_fits hspells
  exact ⟨hspells, hread.mpr (by decide), hflag {} _ [] .joined⟩

/-- **A number that does not fit is read as another one.**  A time of seven weeks becomes one of a
millisecond, and a negative one is taken for the longest there is. -/
theorem wide_number_becomes_another :
    ¬Fits 4294967297 ∧ Toml.intValue? (ascii "4294967297") = some 1
      ∧ CommandLine.Options.parse {} [timeFlag, ascii "4294967297"]
          = ({ requestTimeout := some 1 }, none)
      ∧ CommandLine.Options.parse {} [timeFlag, ascii "-2147483649"]
          = ({ requestTimeout := some 2147483647 }, none) := by
  refine ⟨by decide, ?_, ?_, ?_⟩ <;> decide +kernel

end AnalyzerBridge

/-
Invalid values in a configuration file.

A value is invalid if the type of its setting does not accept it: a time has to be a positive
integer, a truth value one of eight words.  Whether an entry changes anything is another
question, and for each setting one entry of the file answers it: the last one that is taken.  If
that entry is valid, the file has done to the setting what it does without its invalid entries.

Two sorts of invalid values are taken nevertheless.  A truth value that is none unsets whether lines
are logged, where it should have been passed over.  And a number is judged by its low 32 bits, so
that one far below zero is taken for a time.
-/
import AnalyzerBridge.Proofs.Settings.Times

namespace AnalyzerBridge

open Numeral (low32)

namespace Toml

/-- The number that a value is written as, if it is one whole numeral. -/
def numeral? (value : Bytes) : Option Int :=
  match Numeral.scan .announced (Bytes.untilZero (Bytes.trim value)) with
  | some (n, []) => some n
  | _ => none

theorem intValue?_eq (value : Bytes) : intValue? value = (numeral? value).map low32 := by
  unfold intValue? numeral?
  rcases Numeral.scan .announced (Bytes.untilZero (Bytes.trim value)) with _ | ⟨n, _ | ⟨b, rest⟩⟩ <;>
    rfl

end Toml

theorem positiveValue?_eq (value : Bytes) :
    positiveValue? value
      = (((Toml.numeral? value).map low32).filter (0 < ·)).map Int.toNat := by
  rw [positiveValue?, Toml.intValue?_eq]

/-! ### Values that are accepted, and values that are taken -/

namespace Setting

/-- The type of the setting accepts the value. -/
def accepts (setting : Setting) (value : Bytes) : Bool :=
  match setting with
  | requestTimeout | shutdownGrace | diagnosticsWait => (Toml.numeral? value).any (0 < ·)
  | logEnabled => (Toml.boolValue? value).isSome
  | _ => true

/-- The value is invalid, and an entry with it changes the setting nevertheless. -/
inductive Slips : Setting → Bytes → Prop
  /-- What is no truth value stands for none. -/
  | truthValue {value : Bytes} (unknown : Toml.boolValue? value = none) : Slips .logEnabled value
  /-- A number that is not positive has low bits that are. -/
  | time (time : TimeSetting) {value : Bytes} {n : Int} (written : Toml.numeral? value = some n)
      (invalid : n ≤ 0) (positive : 0 < low32 n) : Slips time.setting value

variable {setting : Setting} {value : Bytes} {entries : List Toml.Entry} {entry : Toml.Entry}

theorem slips_of_taken_time (time : TimeSetting) (hinvalid : time.setting.accepts value = false)
    (htaken : (positiveValue? value).isSome = true) : Slips time.setting value := by
  have hrefused : (Toml.numeral? value).any (0 < ·) = false := by
    cases time <;> exact hinvalid
  rw [positiveValue?_eq] at htaken
  cases hnumeral : Toml.numeral? value with
  | none => simp [hnumeral] at htaken
  | some n =>
      rw [hnumeral] at hrefused htaken
      refine .time time hnumeral (by simpa using hrefused) ?_
      by_contra hnot
      simp [hnot] at htaken

/-- **The values that slip through are those that are taken without being accepted.** -/
theorem slips_iff :
    Slips setting value ↔ setting.accepts value = false ∧ (setting.read? value).isSome = true := by
  constructor
  · intro h
    cases h with
    | truthValue unknown => exact ⟨by simp [accepts, unknown], rfl⟩
    | @time time value n written invalid positive =>
        have hrefused : (Toml.numeral? value).any (0 < ·) = false := by simpa [written] using invalid
        have htaken : (positiveValue? value).isSome = true := by
          simp [positiveValue?_eq, written, positive]
        cases time <;> exact ⟨hrefused, htaken⟩
  · rintro ⟨hinvalid, htaken⟩
    cases setting with
    | requestTimeout => exact slips_of_taken_time .requestTimeout hinvalid htaken
    | shutdownGrace => exact slips_of_taken_time .shutdownGrace hinvalid htaken
    | diagnosticsWait => exact slips_of_taken_time .diagnosticsWait hinvalid htaken
    | logEnabled => exact .truthValue (by simpa [accepts] using hinvalid)
    | _ => simp [accepts] at hinvalid

instance (setting : Setting) (value : Bytes) : Decidable (Slips setting value) :=
  decidable_of_iff _ slips_iff.symm

/-! ### The entry that counts -/

/-- The entry is written for the setting, and its value is taken. -/
def takes (setting : Setting) (entry : Toml.Entry) : Bool :=
  setting.keys.contains entry.key && (setting.read? entry.value).isSome

/-- The entry that counts for a setting: the last one that is taken. -/
def decisive? (setting : Setting) (entries : List Toml.Entry) : Option Toml.Entry :=
  entries.reverse.find? setting.takes

theorem takes_iff : setting.takes entry = true
    ↔ entry.key ∈ setting.keys ∧ (setting.read? entry.value).isSome = true := by
  simp [takes]

theorem takes_of_decisive? (h : entry ∈ setting.decisive? entries) :
    entry.key ∈ setting.keys ∧ (setting.read? entry.value).isSome = true :=
  takes_iff.mp (List.find?_some (Option.mem_def.mp h))

/-- The values that are taken end with that of the entry that counts. -/
theorem getLast?_taken (setting : Setting) (entries : List Toml.Entry) :
    ((setting.written entries).filterMap setting.read?).getLast?
      = (setting.decisive? entries).bind (setting.read? ·.value) := by
  rw [List.getLast?_filterMap, decisive?, written, ← List.map_reverse, ← List.filter_reverse]
  induction entries.reverse with
  | nil => rfl
  | cons entry rest ih =>
      by_cases hkey : entry.key ∈ setting.keys
      · rw [List.filter_cons_of_pos (by simpa using hkey), List.map_cons, List.findSome?_cons]
        cases hread : setting.read? entry.value with
        | none => simpa [takes, hread] using ih
        | some v => simp [takes, hread, hkey]
      · rw [List.filter_cons_of_neg (by simpa using hkey), ih,
          List.find?_cons_of_neg (by simp [takes, hkey])]

end Setting

namespace Settings

open Setting (Slips takes_of_decisive?)

/-- The entry has a key without a meaning, or a value that its setting accepts. -/
def isValid (entry : Toml.Entry) : Bool :=
  (Setting.ofKey? entry.key).all (·.accepts entry.value)

variable {s s' : Settings} {setting : Setting} {entry : Toml.Entry} {entries : List Toml.Entry}

theorem isValid_of_mem (h : entry.key ∈ setting.keys) :
    isValid entry = setting.accepts entry.value := by
  simp [isValid, Setting.ofKey?_eq_some_iff.mpr h]

theorem get_of_decisive? (s : Settings) (h : entry ∈ setting.decisive? entries) :
    setting.read? entry.value = some ((s.addEntries entries).1.get setting) := by
  obtain ⟨v, hread⟩ := Option.isSome_iff_exists.mp (takes_of_decisive? h).2
  rw [get_addEntries, Setting.getLast?_taken, Option.mem_def.mp h, Option.bind_some, hread,
    Option.getD_some]

/-- If the entry that counts is valid, it also counts when the invalid ones are left out. -/
theorem decisive?_filter
    (h : ∀ entry ∈ setting.decisive? entries, setting.accepts entry.value = true) :
    setting.decisive? (entries.filter isValid) = setting.decisive? entries := by
  unfold Setting.decisive? at h ⊢
  rw [← List.filter_reverse]
  generalize entries.reverse = back at h ⊢
  induction back with
  | nil => rfl
  | cons entry rest ih =>
      by_cases htakes : setting.takes entry = true
      · have hvalid : isValid entry = true := by
          rw [isValid_of_mem (Setting.takes_iff.mp htakes).1]
          exact h entry (List.find?_cons_of_pos htakes)
        rw [List.filter_cons_of_pos hvalid, List.find?_cons_of_pos htakes,
          List.find?_cons_of_pos htakes]
      · rw [List.find?_cons_of_neg htakes] at h ⊢
        by_cases hvalid : isValid entry = true
        · rw [List.filter_cons_of_pos hvalid, List.find?_cons_of_neg htakes, ih h]
        · rw [List.filter_cons_of_neg hvalid, ih h]

/-- Settings are what their values are. -/
theorem eq_of_get (h : ∀ setting, s.get setting = s'.get setting) : s = s' := by
  obtain ⟨⟩ := s
  obtain ⟨⟩ := s'
  simp only [Settings.mk.injEq]
  exact ⟨h .analyzerPath, h .analyzerArgs, h .workspaceRoot, h .requestTimeout, h .shutdownGrace,
    h .diagnosticsWait, h .logEnabled, h .logPath, h .rustfmtPath, h .cargoPath⟩

/-- What a setting comes to does not depend on the invalid entries if the one that counts is not
among them. -/
theorem get_filter (s : Settings)
    (h : ∀ entry ∈ setting.decisive? entries, ¬Slips setting entry.value) :
    (s.addEntries entries).1.get setting
      = (s.addEntries (entries.filter isValid)).1.get setting := by
  have hvalid : ∀ entry ∈ setting.decisive? entries, setting.accepts entry.value = true := by
    intro entry hentry
    by_contra hinvalid
    exact h entry hentry
      (Setting.slips_iff.mpr ⟨Bool.eq_false_iff.mpr hinvalid, (takes_of_decisive? hentry).2⟩)
  rw [get_addEntries, get_addEntries, Setting.getLast?_taken, Setting.getLast?_taken,
    decisive?_filter hvalid]

/-- An entry whose value cannot be taken changes nothing. -/
theorem addEntry_of_read?_eq_none (hkey : entry.key ∈ setting.keys)
    (hread : setting.read? entry.value = none) (s : Settings) : (s.addEntry entry).1 = s := by
  have hassign : s.assign setting entry.value = none := by
    rw [← Option.map_eq_none_iff, get_assign_self, hread]
  rw [addEntry_of_mem hkey, hassign, Option.getD_none]

/-- An entry that slips through changes settings in which lines are logged or no time is set. -/
theorem exists_addEntry_ne (hkey : entry.key ∈ setting.keys) (h : Slips setting entry.value) :
    ∃ s : Settings, (s.addEntry entry).1 ≠ s := by
  generalize hvalue : entry.value = value at h
  cases h with
  | truthValue unknown =>
      refine ⟨{ logEnabled := some true }, fun hsame => ?_⟩
      have hget : (({ logEnabled := some true } : Settings).addEntry entry).1.logEnabled
          = Toml.boolValue? entry.value := get_addEntry_of_mem hkey _
      rw [hsame, hvalue, unknown] at hget
      exact absurd hget (by simp)
  | @time time value n written invalid positive =>
      let untimed : Settings := { requestTimeout := 0, shutdownGrace := 0, diagnosticsWait := 0 }
      refine ⟨untimed, fun hsame => ?_⟩
      have hget := time_addEntry hkey untimed
      have hzero : untimed.time time = 0 := by cases time <;> rfl
      have hread : positiveValue? entry.value = some (low32 n).toNat := by
        simp [positiveValue?_eq, hvalue, written, positive]
      rw [hsame, hzero, hread, Option.getD_some] at hget
      omega

/--
**An invalid value is ignored exactly if it does not slip through.**

* An invalid entry changes nothing, whatever the settings are, if and only if its value does not
  slip through.
* Entries have the effect that they have without the invalid ones, on a setting and on all
  settings, if the entry that counts does not slip through.
* What slips through is what the setting comes to, if nothing that is taken stands behind it.
* A setting that no entry is written for stays as it was.

A configuration file has the effect of its entries.
-/
theorem invalid_ignored_unless_slipping (s : Settings) (entries : List Toml.Entry) :
    (∀ (setting : Setting) (entry : Toml.Entry), entry.key ∈ setting.keys →
        setting.accepts entry.value = false →
          ((∀ s : Settings, (s.addEntry entry).1 = s) ↔ ¬Slips setting entry.value))
      ∧ ((∀ setting, ∀ entry ∈ setting.decisive? entries, ¬Slips setting entry.value) →
          (s.addEntries entries).1 = (s.addEntries (entries.filter isValid)).1)
      ∧ (∀ setting : Setting,
          ((∀ entry ∈ setting.decisive? entries, ¬Slips setting entry.value) →
            (s.addEntries entries).1.get setting
              = (s.addEntries (entries.filter isValid)).1.get setting)
          ∧ (∀ entry ∈ setting.decisive? entries,
              setting.read? entry.value = some ((s.addEntries entries).1.get setting))
          ∧ ((∀ entry ∈ entries, entry.key ∉ setting.keys) →
              (s.addEntries entries).1.get setting = s.get setting))
      ∧ ∀ (disk : Host.Disk) (path text : Bytes), disk.read path = .ok text →
          s.addFile disk path = .ok (s.addEntries (Toml.entries text)) := by
  refine ⟨?_, ?_, ?_, ?_⟩
  · intro setting entry hkey hinvalid
    constructor
    · intro hsame hslips
      obtain ⟨s, hchanged⟩ := exists_addEntry_ne hkey hslips
      exact hchanged (hsame s)
    · intro hnot s
      refine addEntry_of_read?_eq_none hkey ?_ s
      by_contra htaken
      exact hnot (Setting.slips_iff.mpr ⟨hinvalid, Option.isSome_iff_ne_none.mpr htaken⟩)
  · intro h
    exact eq_of_get fun setting => get_filter s (h setting)
  · intro setting
    refine ⟨get_filter s, fun entry hentry => get_of_decisive? s hentry, fun hnone => ?_⟩
    have hwritten : setting.written entries = [] := by
      simpa [Setting.written] using hnone
    rw [get_addEntries, hwritten]
    rfl
  · intro disk path text hread
    simp only [addFile, hread]

/-- A file with invalid entries, the last of which are followed by a valid one or take nothing. -/
def mixedFile : Bytes :=
  ascii "request_timeout_ms = 1500\nrequest_timeout_ms = soon\nlog_enabled = maybe\nlog_enabled = off"

theorem entries_mixedFile : Toml.entries mixedFile
    = [⟨[], ascii "request_timeout_ms", ascii "1500", 1⟩,
      ⟨[], ascii "request_timeout_ms", ascii "soon", 2⟩,
      ⟨[], ascii "log_enabled", ascii "maybe", 3⟩,
      ⟨[], ascii "log_enabled", ascii "off", 4⟩] := by
  decide +kernel

/-- A time that is no number leaves what an earlier entry has set, and an unknown truth value does
no harm in front of a known one. -/
theorem invalid_ignored_unless_slipping_in_file :
    (∀ setting, ∀ entry ∈ setting.decisive? (Toml.entries mixedFile), ¬Slips setting entry.value)
      ∧ (({} : Settings).addEntries (Toml.entries mixedFile)).1
        = { requestTimeout := 1500, logEnabled := some false } := by
  have hvalid : ∀ setting, ∀ entry ∈ setting.decisive? (Toml.entries mixedFile),
      ¬Slips setting entry.value := by
    rw [entries_mixedFile]
    intro setting
    cases setting <;> decide
  refine ⟨hvalid, ?_⟩
  rw [(invalid_ignored_unless_slipping {} (Toml.entries mixedFile)).2.1 hvalid, entries_mixedFile]
  decide

/-- **An unknown truth value unsets what an earlier entry has set.**  A number far below zero is
taken for the longest time there is. -/
theorem unknown_truth_value_unsets :
    (({} : Settings).addEntries (Toml.entries (ascii "log_enabled = true\nlog_enabled = maybe\n"))).1
        = { logEnabled := none }
      ∧ (({} : Settings).addEntries ((Toml.entries (ascii
          "log_enabled = true\nlog_enabled = maybe\n")).filter isValid)).1
        = { logEnabled := some true }
      ∧ (({} : Settings).addEntries (Toml.entries (ascii "request_timeout_ms = -2147483649"))).1
        = { requestTimeout := 2147483647 }
      ∧ (({} : Settings).addEntries ((Toml.entries (ascii
          "request_timeout_ms = -2147483649")).filter isValid)).1 = {} := by
  have htruth : Toml.entries (ascii "log_enabled = true\nlog_enabled = maybe\n")
      = [⟨[], ascii "log_enabled", ascii "true", 1⟩,
        ⟨[], ascii "log_enabled", ascii "maybe", 2⟩] := by decide +kernel
  have htime : Toml.entries (ascii "request_timeout_ms = -2147483649")
      = [⟨[], ascii "request_timeout_ms", ascii "-2147483649", 1⟩] := by decide +kernel
  rw [htruth, htime]
  decide +kernel

end Settings

end AnalyzerBridge

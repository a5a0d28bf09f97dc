/-
What a configuration file makes of the settings.

A setting can be written under several keys, in any section and more than once.  What it comes to
depends on the values that are written for it and on nothing else in the file: the last one that
can be taken counts.

The settings have values of different types, so that `Setting.Value` gives each its own, and one
theorem speaks of all of them.
-/
import AnalyzerBridge.Settings

namespace AnalyzerBridge

namespace Setting

/-! ### Keys -/

theorem mem_all (setting : Setting) : setting ∈ all := by
  cases setting <;> decide

/-- A key means one setting only. -/
theorem keys_disjoint : ∀ a ∈ all, ∀ b ∈ all, ∀ key ∈ a.keys, key ∈ b.keys → a = b := by
  decide +kernel

theorem ofKey?_eq_some_iff {key : Bytes} {setting : Setting} :
    ofKey? key = some setting ↔ key ∈ setting.keys := by
  unfold ofKey?
  constructor
  · intro h
    simpa using List.find?_some h
  · intro hkey
    have hsome : (all.find? (·.keys.contains key)).isSome := by
      rw [List.find?_isSome]
      exact ⟨setting, setting.mem_all, by simpa using hkey⟩
    obtain ⟨found, hfound⟩ := Option.isSome_iff_exists.mp hsome
    have hmem : key ∈ found.keys := by simpa using List.find?_some hfound
    rw [hfound, keys_disjoint found found.mem_all setting setting.mem_all key hmem hkey]

/-- The values that are written for a setting, whatever sections they stand in. -/
def written (setting : Setting) (entries : List Toml.Entry) : List Bytes :=
  (entries.filter (setting.keys.contains ·.key)).map (·.value)

theorem written_cons_of_mem {setting : Setting} {entry : Toml.Entry}
    (h : entry.key ∈ setting.keys) (rest : List Toml.Entry) :
    setting.written (entry :: rest) = entry.value :: setting.written rest := by
  unfold written
  rw [List.filter_cons_of_pos (by simpa using h), List.map_cons]

theorem written_cons_of_not_mem {setting : Setting} {entry : Toml.Entry}
    (h : entry.key ∉ setting.keys) (rest : List Toml.Entry) :
    setting.written (entry :: rest) = setting.written rest := by
  unfold written
  rw [List.filter_cons_of_neg (by simpa using h)]

/-! ### Values -/

/-- The values that a setting can have. -/
def Value : Setting → Type
  | analyzerPath => Bytes
  | analyzerArgs => List Bytes
  | workspaceRoot => Bytes
  | requestTimeout => Nat
  | shutdownGrace => Nat
  | diagnosticsWait => Nat
  | logEnabled => Option Bool
  | logPath => Option Bytes
  | rustfmtPath => Bytes
  | cargoPath => Bytes

/-- What a written value is taken to mean, if it can be taken. -/
def read? : (setting : Setting) → Bytes → Option setting.Value
  | analyzerPath, value => some (Toml.stringValue value)
  | analyzerArgs, value => some (Toml.stringArray value)
  | workspaceRoot, value => some (Toml.stringValue value)
  | requestTimeout, value => positiveValue? value
  | shutdownGrace, value => positiveValue? value
  | diagnosticsWait, value => positiveValue? value
  | logEnabled, value => some (Toml.boolValue? value)
  | logPath, value => some (some (Toml.stringValue value))
  | rustfmtPath, value => some (Toml.stringValue value)
  | cargoPath, value => some (Toml.stringValue value)

end Setting

namespace Settings

/-- The value of a setting. -/
def get (s : Settings) : (setting : Setting) → setting.Value
  | .analyzerPath => s.analyzerPath
  | .analyzerArgs => s.analyzerArgs
  | .workspaceRoot => s.workspaceRoot
  | .requestTimeout => s.requestTimeout
  | .shutdownGrace => s.shutdownGrace
  | .diagnosticsWait => s.diagnosticsWait
  | .logEnabled => s.logEnabled
  | .logPath => s.logPath
  | .rustfmtPath => s.rustfmtPath
  | .cargoPath => s.cargoPath

variable {s s' : Settings} {setting other : Setting} {value : Bytes}

/-- An assignment gives the setting what is written, and is not made if that cannot be taken. -/
theorem get_assign_self (s : Settings) (setting : Setting) (value : Bytes) :
    (s.assign setting value).map (·.get setting) = setting.read? value := by
  cases setting with
  | requestTimeout | shutdownGrace | diagnosticsWait =>
      show ((positiveValue? value).map _).map _ = positiveValue? value
      cases positiveValue? value with
      | none => rfl
      | some n => rfl
  | _ => rfl

/-- It leaves the other settings alone. -/
theorem get_assign_of_ne (h : s.assign setting value = some s') (hne : other ≠ setting) :
    s'.get other = s.get other := by
  cases setting with
  | requestTimeout | shutdownGrace | diagnosticsWait =>
      obtain ⟨n, -, rfl⟩ := Option.map_eq_some_iff.mp h
      cases other <;> trivial
  | _ =>
      obtain rfl := Option.some.inj h
      cases other <;> trivial

theorem addEntry_of_mem {entry : Toml.Entry} (h : entry.key ∈ setting.keys) (s : Settings) :
    (s.addEntry entry).1 = (s.assign setting entry.value).getD s := by
  have hkey := Setting.ofKey?_eq_some_iff.mpr h
  cases hassign : s.assign setting entry.value with
  | none => simp only [addEntry, hkey, hassign, Option.getD_none]
  | some s' => simp only [addEntry, hkey, hassign, Option.getD_some]

theorem get_addEntry_of_mem {entry : Toml.Entry} (h : entry.key ∈ setting.keys) (s : Settings) :
    (s.addEntry entry).1.get setting = (setting.read? entry.value).getD (s.get setting) := by
  rw [addEntry_of_mem h, ← get_assign_self s]
  cases s.assign setting entry.value with
  | none => rfl
  | some s' => rfl

theorem get_addEntry_of_not_mem {entry : Toml.Entry} (h : entry.key ∉ setting.keys)
    (s : Settings) : (s.addEntry entry).1.get setting = s.get setting := by
  cases hkey : Setting.ofKey? entry.key with
  | none => simp only [addEntry, hkey]
  | some found =>
      have hmem := Setting.ofKey?_eq_some_iff.mp hkey
      have hne : setting ≠ found := by
        rintro rfl
        exact h hmem
      rw [addEntry_of_mem hmem]
      cases hassign : s.assign found entry.value with
      | none => rfl
      | some s' => exact get_assign_of_ne hassign hne

/-- **A setting comes to the last value written for it that can be taken, and stays what it was if
there is none.** -/
theorem get_addEntries (s : Settings) (setting : Setting) (entries : List Toml.Entry) :
    (s.addEntries entries).1.get setting
      = ((setting.written entries).filterMap setting.read?).getLast?.getD (s.get setting) := by
  -- from any settings, since the later entries find what the first one has left
  induction entries generalizing s with
  | nil => rfl
  | cons entry rest ih =>
      show ((s.addEntry entry).1.addEntries rest).1.get setting = _
      rw [ih]
      by_cases hkey : entry.key ∈ setting.keys
      · rw [Setting.written_cons_of_mem hkey, get_addEntry_of_mem hkey]
        cases hread : setting.read? entry.value with
        | none => rw [List.filterMap_cons_none hread, Option.getD_none]
        | some v => rw [List.filterMap_cons_some hread, List.getLast?_cons, Option.getD_some,
            Option.getD_some]
      · rw [Setting.written_cons_of_not_mem hkey, get_addEntry_of_not_mem hkey]

end Settings

end AnalyzerBridge

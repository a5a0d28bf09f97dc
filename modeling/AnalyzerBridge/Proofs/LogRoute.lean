/-
Log lines end up in the file that they are meant for.

The file that a route has open is the one that the last line went to, or was to go to, and may be
another than what is configured by now.  What is known of it is only that it is open exactly if it
can be; the next line that is logged catches up.  So whatever was configured in between, a line goes
to the file that is configured when it is logged, and nothing of the route but its configuration
bears on where later lines go.

Calls come one after another, as each holds a lock from its beginning to its end.  Which files can
be opened is fixed, and a file is told by its path.
-/
import AnalyzerBridge.LogRoute
import AnalyzerBridge.Settings
import AnalyzerBridge.Proofs.Path.Spelling

namespace AnalyzerBridge

open Host (Disk Environment)

/-! ### Calls -/

/-- A call that has to do with the log. -/
inductive LogCall where
  /-- A line is logged. -/
  | log (line : Bytes)
  /-- Settings are taken over; the disk is as it is at that time. -/
  | configure (settings : Settings) (configDir : Bytes) (disk : Disk)

namespace LogCall

/-- Whether to log, if the call says anything of that. -/
def enabled? : LogCall → Option Bool
  | log _ => none
  | configure settings _ _ => settings.logEnabled

/-- The path that the call configures, if it does. -/
def path? : LogCall → Option Bytes
  | log _ => none
  | configure settings configDir disk =>
    settings.logPath.map fun raw => resolveConfigured disk raw configDir settings.workspaceRoot

end LogCall

/-- Lines are logged behind these calls: the last one that says anything of that decides, and in
the beginning they are. -/
def enabledAfter (calls : List LogCall) : Bool := (calls.filterMap LogCall.enabled?).getLast?.getD true

/-- The path that is configured behind these calls, empty for none. -/
def pathAfter (calls : List LogCall) : Bytes := (calls.filterMap LogCall.path?).getLast?.getD []

/-- The file that lines are meant for behind these calls. -/
def targetAfter (fallback : Bytes) (calls : List LogCall) : Bytes :=
  if pathAfter calls = [] then fallback else pathAfter calls

/-- The lines of the calls that are logged while logging is on, in order, each with the file that it
is meant for.  `before` are the calls that were made before. -/
def aimed (fallback : Bytes) (before : List LogCall) : List LogCall → List (Bytes × Bytes)
  | [] => []
  | .log line :: calls =>
    (if enabledAfter before then [(targetAfter fallback before, line)] else [])
      ++ aimed fallback (before ++ [.log line]) calls
  | .configure settings configDir disk :: calls =>
    aimed fallback (before ++ [.configure settings configDir disk]) calls

/-- What texts add up to that are put at the end of files, for one of the files. -/
def appendedTo (file : Bytes) (written : List (Bytes × Bytes)) : Bytes :=
  (written.filter (·.1 = file)).flatMap (·.2)

namespace LogRoute

/-- One call.  The result is the route behind it and what is put at the end of which file. -/
def call (canOpen : Bytes → Bool) (route : LogRoute) : LogCall → LogRoute × List (Bytes × Bytes)
  | .log line => ((route.write canOpen line).1, (route.write canOpen line).2.toList)
  | .configure settings configDir disk =>
    let c := LogCall.configure settings configDir disk
    (route.configure c.enabled? c.path?, [])

/-- What a run of calls writes, in order. -/
def written (canOpen : Bytes → Bool) (route : LogRoute) : List LogCall → List (Bytes × Bytes)
  | [] => []
  | c :: calls => (route.call canOpen c).2 ++ (route.call canOpen c).1.written canOpen calls

/-! ### One line -/

variable {canOpen : Bytes → Bool} {route : LogRoute} {fallback : Bytes} {before : List LogCall}

/-- What is known of the file that was opened last: it is open if it can be. -/
def Coherent (canOpen : Bytes → Bool) (route : LogRoute) : Prop :=
  route.opened ≠ [] → route.isOpen = canOpen route.opened

/-- Behind `reopen` the target is at hand, wherever the last line went. -/
theorem reopen_eq (h : Coherent canOpen route) (hne : route.target ≠ []) :
    route.reopen canOpen = { route with opened := route.target, isOpen := canOpen route.target } := by
  unfold reopen
  split
  next hsame =>
    have hopen : route.isOpen = canOpen route.target := by
      rw [hsame] at hne ⊢
      exact h hne
    rw [← hopen, hsame]
  next => rfl

/-- **A line goes to its target, or nowhere, and the route goes on with the same configuration.** -/
theorem write_eq (h : Coherent canOpen route) (hne : route.target ≠ []) (line : Bytes) :
    (route.write canOpen line).2
        = (if route.enabled && canOpen route.target then some (route.target, line ++ [10]) else none)
      ∧ Coherent canOpen (route.write canOpen line).1
      ∧ (route.write canOpen line).1.enabled = route.enabled
      ∧ (route.write canOpen line).1.path = route.path
      ∧ (route.write canOpen line).1.fallback = route.fallback := by
  rw [write]
  cases henabled : route.enabled with
  | false => exact ⟨rfl, h, henabled, rfl, rfl⟩
  | true =>
      dsimp only
      rw [reopen_eq h hne, Bool.true_and]
      exact ⟨rfl, fun _ => rfl, henabled, rfl, rfl⟩

/-! ### A run of calls -/

theorem enabledAfter_append (calls : List LogCall) (c : LogCall) :
    enabledAfter (calls ++ [c]) = c.enabled?.getD (enabledAfter calls) := by
  rw [enabledAfter, List.filterMap_append]
  cases henabled : c.enabled? with
  | none => simp [henabled, enabledAfter]
  | some enabled => simp [henabled]

theorem pathAfter_append (calls : List LogCall) (c : LogCall) :
    pathAfter (calls ++ [c]) = c.path?.getD (pathAfter calls) := by
  rw [pathAfter, List.filterMap_append]
  cases hpath : c.path? with
  | none => simp [hpath, pathAfter]
  | some path => simp [hpath]

/-- The route is configured as the calls say, and whatever file it has open it has by right. -/
structure ConfiguredBy (canOpen : Bytes → Bool) (fallback : Bytes) (route : LogRoute)
    (before : List LogCall) : Prop where
  coherent : Coherent canOpen route
  enabled : route.enabled = enabledAfter before
  path : route.path = pathAfter before
  fallback_eq : route.fallback = fallback

theorem ConfiguredBy.target (h : ConfiguredBy canOpen fallback route before) :
    route.target = targetAfter fallback before := by
  rw [LogRoute.target, targetAfter, h.path, h.fallback_eq]
  simp only [List.isEmpty_iff]

theorem targetAfter_ne_nil (hfallback : fallback ≠ []) (before : List LogCall) :
    targetAfter fallback before ≠ [] := by
  unfold targetAfter
  split
  next => exact hfallback
  next hpath => exact hpath

/-- What a call writes: a line that is logged while logging is on, if its target can be opened. -/
theorem ConfiguredBy.call (h : ConfiguredBy canOpen fallback route before) (hfallback : fallback ≠ [])
    (c : LogCall) :
    (route.call canOpen c).2
        = ((aimed fallback before [c]).filter (canOpen ·.1)).map (fun (file, line) => (file, line ++ [10]))
      ∧ ConfiguredBy canOpen fallback (route.call canOpen c).1 (before ++ [c]) := by
  cases c with
  | log line =>
      have hne : route.target ≠ [] := h.target ▸ targetAfter_ne_nil hfallback before
      obtain ⟨hwritten, hcoherent, henabled, hpath, hback⟩ := write_eq h.coherent hne line
      refine ⟨?_, hcoherent, ?_, ?_, hback.trans h.fallback_eq⟩
      · rw [LogRoute.call, hwritten, aimed, h.target, h.enabled]
        cases enabledAfter before with
        | false => rfl
        | true =>
            cases hopen : canOpen (targetAfter fallback before) with
            | false => simp [aimed, hopen]
            | true => simp [aimed, hopen]
      · rw [enabledAfter_append]
        exact henabled.trans h.enabled
      · rw [pathAfter_append]
        exact hpath.trans h.path
  | configure settings configDir disk =>
      refine ⟨rfl, h.coherent, ?_, ?_, h.fallback_eq⟩
      · rw [enabledAfter_append, ← h.enabled]
        rfl
      · rw [pathAfter_append, ← h.path]
        rfl

theorem aimed_cons (fallback : Bytes) (before : List LogCall) (c : LogCall) (calls : List LogCall) :
    aimed fallback before (c :: calls)
      = aimed fallback before [c] ++ aimed fallback (before ++ [c]) calls := by
  cases c with
  | log line => simp [aimed]
  | configure => simp [aimed]

/-- **A run writes the lines whose targets can be opened, each to its target and in order.** -/
theorem ConfiguredBy.written (h : ConfiguredBy canOpen fallback route before)
    (hfallback : fallback ≠ []) (calls : List LogCall) :
    route.written canOpen calls
      = ((aimed fallback before calls).filter (canOpen ·.1)).map
          (fun (file, line) => (file, line ++ [10])) := by
  induction calls generalizing route before with
  | nil => rfl
  | cons c calls ih =>
      obtain ⟨hwritten, hnext⟩ := h.call hfallback c
      rw [LogRoute.written, hwritten, ih hnext, aimed_cons fallback before c calls,
        List.filter_append, List.map_append]

theorem defaultPath_ne_nil (env : Environment) (disk : Disk) : defaultPath env disk ≠ [] := by
  intro hnil
  have hname : ascii "ramcp.log" <:+ defaultPath env disk := Path.suffix_append _ _
  rw [hnil, List.suffix_nil] at hname
  exact absurd hname (by decide)

theorem configuredBy_initial (canOpen : Bytes → Bool) (env : Environment) (disk : Disk) :
    ConfiguredBy canOpen (defaultPath env disk) (initial env disk) [] :=
  ⟨fun h => absurd rfl h, rfl, rfl, rfl⟩

/-! ### What is left out -/

/-- Where lines are meant for depends on what was configured before and on nothing else. -/
theorem aimed_congr {before' : List LogCall} (henabled : enabledAfter before = enabledAfter before')
    (hpath : pathAfter before = pathAfter before') (calls : List LogCall) :
    aimed fallback before calls = aimed fallback before' calls := by
  induction calls generalizing before before' with
  | nil => rfl
  | cons c calls ih =>
      have hrest : aimed fallback (before ++ [c]) calls = aimed fallback (before' ++ [c]) calls := by
        refine ih ?_ ?_
        · rw [enabledAfter_append, enabledAfter_append, henabled]
        · rw [pathAfter_append, pathAfter_append, hpath]
      cases c with
      | log line => rw [aimed, aimed, hrest, henabled, targetAfter, targetAfter, hpath]
      | configure => rw [aimed, aimed, hrest]

theorem aimed_append (fallback : Bytes) (before calls more : List LogCall) :
    aimed fallback before (calls ++ more)
      = aimed fallback before calls ++ aimed fallback (before ++ calls) more := by
  induction calls generalizing before with
  | nil => simp [aimed]
  | cons c calls ih =>
      rw [List.cons_append, aimed_cons, aimed_cons fallback before c calls, ih]
      simp

/-- A line that is logged does not change where later ones are meant for. -/
theorem aimed_log (fallback : Bytes) (before calls : List LogCall) (line : Bytes) :
    aimed fallback (before ++ [.log line]) calls = aimed fallback before calls :=
  aimed_congr (enabledAfter_append before _) (pathAfter_append before _) calls

/-- The part of what is written that goes to one file. -/
theorem appendedTo_map_filter (canOpen : Bytes → Bool) (file : Bytes) (lines : List (Bytes × Bytes)) :
    appendedTo file ((lines.filter (canOpen ·.1)).map fun (file, line) => (file, line ++ [10]))
      = if canOpen file then (lines.filter (·.1 = file)).flatMap (·.2 ++ [10]) else [] := by
  induction lines with
  | nil => simp [appendedTo]
  | cons entry lines ih =>
      obtain ⟨target, line⟩ := entry
      unfold appendedTo at ih ⊢
      by_cases hfile : target = file
      · subst hfile
        cases hopen : canOpen target with
        | false => simpa [hopen] using ih
        | true => simpa [hopen] using ih
      · cases hopen : canOpen target with
        | false => simpa [hopen, hfile] using ih
        | true => simpa [hopen, hfile] using ih

/--
**Nothing that is logged is lost or ends up in another file.**

Whatever is configured and logged, in any order, what a run puts at the end of a file that can be
opened are the lines, each with a line feed behind it, that were logged while logging was on and
while this file was the configured one, or the default one with none configured; a file that cannot
be opened gets nothing.  A line that was logged while logging was off, or for a file that cannot be
opened, might as well not have been logged.
-/
theorem lines_reach_their_files (env : Environment) (disk : Disk) (canOpen : Bytes → Bool)
    (calls : List LogCall) :
    let route := initial env disk
    let fallback := defaultPath env disk
    (∀ file, appendedTo file (route.written canOpen calls)
        = if canOpen file then
            ((aimed fallback [] calls).filter (·.1 = file)).flatMap (·.2 ++ [10])
          else [])
      ∧ ∀ before line after, calls = before ++ .log line :: after →
          enabledAfter before = false ∨ canOpen (targetAfter fallback before) = false →
            route.written canOpen calls = route.written canOpen (before ++ after) := by
  intro route fallback
  have hwritten := (configuredBy_initial canOpen env disk).written (defaultPath_ne_nil env disk)
  refine ⟨fun file => ?_, ?_⟩
  · rw [hwritten, appendedTo_map_filter]
  · rintro before line after rfl hlost
    rw [hwritten, hwritten, aimed_append, aimed_append, aimed_cons, List.nil_append, aimed_log]
    have hnone : (aimed fallback before [.log line]).filter (canOpen ·.1) = [] := by
      rcases hlost with hoff | hclosed
      · simp [aimed, hoff]
      · simp [aimed, hclosed]
    simp only [List.filter_append, fallback] at hnone ⊢
    rw [hnone, List.nil_append]

/-- The path is switched to a file that cannot be opened and back, and logging is off for a while. -/
theorem lines_reach_their_files_switched :
    let disk : Disk := ⟨⟨[]⟩, []⟩
    let routed (path : Bytes) : LogCall := .configure { logPath := some path } [] disk
    let turn (enabled : Bool) : LogCall := .configure { logEnabled := some enabled } [] disk
    let before := [.log (ascii "a"), routed (ascii "/x"), .log (ascii "b"), routed (ascii "/no")]
    let after := [routed (ascii "/x"), turn false, .log (ascii "d"), turn true, .log (ascii "e"),
      routed [], .log (ascii "f")]
    let canOpen : Bytes → Bool := (· != ascii "/no")
    let written := (initial {} disk).written canOpen (before ++ .log (ascii "c") :: after)
    appendedTo (ascii "/x") written = ascii "b\ne\n"
      ∧ appendedTo (ascii "/tmp/ramcp.log") written = ascii "a\nf\n"
      ∧ appendedTo (ascii "/no") written = []
      ∧ written = (initial {} disk).written canOpen (before ++ after) := by
  intro disk routed turn before after canOpen written
  obtain ⟨hfiles, hlost⟩ :=
    lines_reach_their_files {} disk canOpen (before ++ .log (ascii "c") :: after)
  refine ⟨(hfiles _).trans ?_, (hfiles _).trans ?_, (hfiles _).trans ?_, hlost before _ after rfl ?_⟩
  · decide
  · decide
  · decide
  · exact .inr (by decide)

end LogRoute

end AnalyzerBridge

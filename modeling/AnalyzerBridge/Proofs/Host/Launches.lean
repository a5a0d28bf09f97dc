/-
What is launched in a world.

Each process that is started leaves a record of how it was launched, which nothing changes
afterwards: a child may be fed, signalled and collected, but its launch is what it was.  A fork adds
one launch, or none if there is no room for a process; whatever else is needed to run a tool adds
none, and is `Quiet`.  What longer code adds is told by `Adds`, and by `Once` where it is one launch
that is known.

A child is known by its number.  That no other has the same one is part of what is kept.
-/
import Mathlib.Data.List.Nodup
import AnalyzerBridge.Host.Kernel

namespace AnalyzerBridge.Host

/-! ### The words of a call -/

namespace FileTree

variable {t : FileTree} {current : Place} {words : List Bytes} {c : Call}

theorem getLast?_append_drop (h : words.drop 1 ≠ []) (front : List Bytes) :
    (front ++ words.drop 1).getLast? = words.getLast? := by
  rw [List.getLast?_append_of_ne_nil _ h]
  cases words with
  | nil => exact absurd rfl h
  | cons first rest => exact (List.getLast?_append_of_ne_nil [first] h).symm

/-- However a file is run, the last word that it is given stays the last. -/
theorem call_getLast? {depth : Nat} {path : Bytes} (h : t.call current depth path words = .ok c)
    (hmore : words.drop 1 ≠ []) : c.words.getLast? = words.getLast? := by
  induction depth generalizing path words with
  | zero => exact nomatch h
  | succ depth ih =>
      rw [call] at h
      cases hstat : t.stat current path with
      | error e => rw [hstat] at h; exact nomatch h
      | ok stored =>
          rw [hstat] at h
          simp only [bind, Except.bind] at h
          split at h
          next => rw [← Except.ok.inj h]
          next text =>
            split at h
            next program word _ =>
              rw [ih h (by simp)]
              simpa using getLast?_append_drop hmore (program :: word.toList ++ [path])
            next => exact nomatch h
          next => exact nomatch h

theorem callOrRead_getLast? {path : Bytes} (h : t.callOrRead current path words = .ok c)
    (hmore : words.drop 1 ≠ []) : c.words.getLast? = words.getLast? := by
  unfold callOrRead at h
  split at h
  next =>
    rw [← Except.ok.inj h]
    exact getLast?_append_drop hmore [ascii "/bin/sh", path]
  next => exact call_getLast? h hmore

theorem search_getLast? {name : Bytes} {refused : Bool} {directories : List Bytes}
    (h : t.search current name words refused directories = .ok c) (hmore : words.drop 1 ≠ []) :
    c.words.getLast? = words.getLast? := by
  induction directories generalizing refused with
  | nil => exact nomatch h
  | cons directory more ih =>
      rw [search] at h
      split at h
      next => exact ih h
      next => exact ih h
      next => exact ih h
      next => exact callOrRead_getLast? h hmore

theorem launch_getLast? {searchPath : Option Bytes} {name : Bytes}
    (h : t.launch current searchPath name words = .ok c) (hmore : words.drop 1 ≠ []) :
    c.words.getLast? = words.getLast? := by
  unfold launch at h
  split at h
  next => exact nomatch h
  next =>
    split at h
    next => exact nomatch h
    next =>
      split at h
      next => exact callOrRead_getLast? h hmore
      next =>
        split at h
        next => exact nomatch h
        next => exact search_getLast? h hmore

end FileTree

namespace World

variable {α β : Type} {w w' : World}

/-! ### Launches and numbers -/

/-- How the children were launched, the earliest first. -/
def launches (w : World) : List Launch := w.children.map (·.launch)

/-- The children have the numbers that forks give them. -/
def Numbered (w : World) : Prop :=
  w.launches.map (·.pid) = (List.range w.launches.length).map (firstPid + 100 * ·)

theorem numbered_initial (lifeOf : Launch → List (Time × Deed) → Life) (tree : FileTree)
    (current : Place) (environment : Environment) :
    Numbered (initial lifeOf tree current environment) := rfl

theorem files_of_no_children (h : w.children = []) : w.files = w.tree := by
  simp [files, h]

theorem Numbered.nodup (h : Numbered w) : (w.launches.map (·.pid)).Nodup := by
  unfold Numbered at h
  rw [h]
  refine List.nodup_range.map fun i j hij => ?_
  have heq : firstPid + 100 * i = firstPid + 100 * j := hij
  omega

/-- Nothing was launched, and the bridge is still in the same directory. -/
structure Rests (w w' : World) : Prop where
  launches : w'.launches = w.launches
  current : w'.current = w.current

namespace Rests

protected theorem refl (w : World) : Rests w w := ⟨rfl, rfl⟩

theorem of_eq (hchildren : w'.children = w.children) (hcurrent : w'.current = w.current) :
    Rests w w' := by
  refine ⟨?_, hcurrent⟩
  rw [World.launches, hchildren, World.launches]

protected theorem trans {w'' : World} (h : Rests w w') (h' : Rests w' w'') : Rests w w'' :=
  ⟨h'.launches.trans h.launches, h'.current.trans h.current⟩

theorem numbered (h : Rests w w') (hnumbered : Numbered w) : Numbered w' := by
  unfold Numbered
  rw [h.launches]
  exact hnumbered

end Rests

/-- Changing a child does not change how it was launched. -/
theorem rests_setChild (hnumbered : Numbered w) {old : Child} (hold : old ∈ w.children) {c : Child}
    (hsame : c.launch = old.launch) : Rests w (w.setChild c) := by
  refine ⟨?_, rfl⟩
  unfold setChild launches
  rw [List.map_map]
  refine List.map_congr_left fun other hother => ?_
  show (if other.launch.pid = c.launch.pid then c else other).launch = other.launch
  split
  next hpid =>
    rw [hsame] at hpid ⊢
    exact (List.inj_on_of_nodup_map hnumbered.nodup (List.mem_map_of_mem hother)
      (List.mem_map_of_mem hold) hpid).symm
  next => rfl

/-! ### Code that launches nothing -/

/-- The code launches nothing. -/
def Quiet (act : StateM World α) : Prop := ∀ w, Numbered w → Rests w (act w).2

namespace Quiet

protected theorem pure (a : α) : Quiet (pure a) := fun w _ => Rests.refl w

protected theorem bind {act : StateM World α} {f : α → StateM World β} (h : Quiet act)
    (hf : ∀ a, Quiet (f a)) : Quiet (act >>= f) := by
  intro w hw
  have hfirst := h w hw
  exact hfirst.trans (hf _ _ (hfirst.numbered hw))

protected theorem get : Quiet get := fun w _ => Rests.refl w

theorem forM {act : α → StateM World Unit} (h : ∀ a, Quiet (act a)) (items : List α) :
    Quiet (items.forM act) := by
  induction items with
  | nil => exact Quiet.pure ()
  | cons a rest ih => exact (h a).bind fun _ => ih

/-- What may fail is quiet if its parts are. -/
theorem except {act : ExceptT Errno (StateM World) α} {f : α → ExceptT Errno (StateM World) β}
    (h : Quiet act.run) (hf : ∀ a, Quiet (f a).run) : Quiet (act >>= f).run := by
  rw [ExceptT.run_bind]
  refine h.bind fun found => ?_
  cases found with
  | ok a => exact hf a
  | error e => exact .pure _

end Quiet

theorem get_bind (f : World → StateM World α) (w : World) : (get >>= f) w = f w w := rfl

theorem set_bind (w' : World) (f : Unit → StateM World α) (w : World) :
    (set w' >>= f) w = f () w' := rfl

theorem bind_apply (act : StateM World α) (f : α → StateM World β) (w : World) :
    (act >>= f) w = f (act w).1 (act w).2 := rfl

theorem quiet_openPipe : Quiet openPipe := by
  intro w _
  simp only [openPipe, modifyGet, MonadStateOf.modifyGet, StateT.modifyGet, pure]
  split
  · exact .of_eq rfl rfl
  · exact .refl w

theorem quiet_waitUntil (moment : Time) : Quiet (waitUntil moment) := fun _ _ => .of_eq rfl rfl

theorem quiet_launchReport (d : Descriptor) : Quiet (launchReport d) := fun _ _ => .of_eq rfl rfl

theorem quiet_take (d : Descriptor) (count : Nat) : Quiet (take d count) := by
  intro w _
  simp only [take, modify, modifyGet, MonadStateOf.modifyGet, StateT.modifyGet, pure]
  split
  · exact .refl w
  · exact .of_eq rfl rfl

theorem rests_settle (w : World) : Rests w w.settle := by
  refine ⟨?_, rfl⟩
  unfold settle launches
  rw [List.map_map]
  rfl

theorem rests_put (w : World) (place : Place) (node : Node) : Rests w (w.put place node) :=
  (rests_settle w).trans (.of_eq rfl rfl)

theorem quiet_append (path text : Bytes) : Quiet (append path text) := by
  intro w _
  simp only [append, modify, modifyGet, MonadStateOf.modifyGet, StateT.modifyGet, pure]
  split
  · exact rests_put w _ _
  · exact rests_put w _ _
  · exact .refl w

theorem quiet_note (line : Bytes) : Quiet (note line) := by
  intro w hw
  have hroute : Rests w { w with route := (w.route.write w.disk.canAppend line).1 } :=
    .of_eq rfl rfl
  simp only [note, bind, StateT.bind, get, getThe, MonadStateOf.get, StateT.get, pure]
  cases (w.route.write w.disk.canAppend line).2 with
  | none => exact hroute
  | some written => exact hroute.trans (quiet_append _ _ _ (hroute.numbered hw))

theorem rests_doTo (hnumbered : Numbered w) {c : Child} (hc : c ∈ w.children) (deed : Deed) :
    Rests w (doTo deed c w).2 :=
  rests_setChild hnumbered hc rfl

theorem quiet_close (d : Descriptor) : Quiet (close d) := by
  intro w hw
  have hclosed : Rests w { w with descriptors := w.descriptors.filter (·.1 != d) } := .of_eq rfl rfl
  have hnotice : ∀ {c : Child}, c ∈ w.children → ∀ deed,
      Rests w (doTo deed c { w with descriptors := w.descriptors.filter (·.1 != d) }).2 :=
    fun hc deed => hclosed.trans (rests_doTo (hclosed.numbered hw) hc deed)
  unfold close
  rw [get_bind, set_bind]
  cases w.descriptors.lookup d with
  | none => exact hclosed
  | some pipeEnd =>
      cases pipeEnd with
      | writing pipe =>
          dsimp only
          cases hc : w.children.find? (·.pipes.1 == some pipe) with
          | none => exact hclosed
          | some c => exact hnotice (List.mem_of_find?_eq_some hc) _
      | reading pipe =>
          dsimp only
          cases hc : w.children.find? fun c => c.pipes.2.1 == pipe || c.pipes.2.2 == pipe with
          | none => exact hclosed
          | some c => exact hnotice (List.mem_of_find?_eq_some hc) _

theorem quiet_closeAll (ds : List Descriptor) : Quiet (kernel.closeAll ds) := by
  induction ds with
  | nil => exact .pure ()
  | cons d rest ih => exact (quiet_close d).bind fun _ => ih

theorem quiet_openBeside (opened : List Pipe) : Quiet (kernel.openBeside opened).run := by
  refine Quiet.bind quiet_openPipe fun found => ?_
  cases found with
  | ok pipe => exact .pure _
  | error reason => exact (quiet_closeAll _).bind fun _ => .pure _

/-! ### Room -/

theorem hasDescriptors_of_le {few many : Nat} (hle : few ≤ many)
    (h : w.hasDescriptors many = true) : w.hasDescriptors few = true := by
  unfold hasDescriptors at h ⊢
  cases hlimit : w.descriptorLimit with
  | none => rfl
  | some limit =>
      have hroom : w.descriptors.length + many ≤ limit := by simpa [hlimit] using h
      simp only [Option.all_some, decide_eq_true_eq]
      omega

theorem hasDescriptors_withPipe (w : World) (count : Nat) :
    w.withPipe.hasDescriptors count = w.hasDescriptors (2 + count) := by
  simp only [hasDescriptors, withPipe, List.length_cons, Nat.add_assoc, Nat.reduceAdd]

/-- If there is room for one more pipe, it is there for what follows. -/
theorem openBeside_bind_of_room {opened : List Pipe} (h : w.hasDescriptors 2 = true)
    (f : Pipe → ExceptT Errno (StateM World) α) :
    (kernel.openBeside opened >>= f).run w = (f w.freshPipe).run w.withPipe := by
  have hopen : openPipe w = (.ok w.freshPipe, w.withPipe) := if_pos h
  have hbeside : (kernel.openBeside opened).run w = (.ok w.freshPipe, w.withPipe) := by
    show (openPipe >>= _) w = _
    rw [bind_apply, hopen]
    rfl
  rw [ExceptT.run_bind, bind_apply, hbeside]

theorem quiet_await (pid : Nat) : Quiet (await pid) := by
  intro w hw
  simp only [await, bind, StateT.bind, get, getThe, MonadStateOf.get, StateT.get, set, pure]
  cases hc : w.child? pid with
  | none => exact .refl w
  | some c =>
      by_cases hreaped : c.reaped = true
      · simp only [hreaped, if_true]
        exact .refl w
      · simp only [hreaped]
        cases c.life.ended with
        | none => exact .refl w
        | some ended =>
            have hnow : Rests w { w with now := max w.now (ended.1 + reapDelay) } := .of_eq rfl rfl
            exact hnow.trans (rests_setChild (hnow.numbered hw) (List.mem_of_find?_eq_some hc) rfl)

theorem quiet_read (d : Descriptor) (most : Option Nat) : Quiet (read d most) := by
  refine Quiet.get.bind fun w => ?_
  generalize w.pending d = found
  obtain ⟨arrivals, ends⟩ := found
  refine (quiet_waitUntil _).bind fun _ => ?_
  split
  · cases ends with
    | none => exact (quiet_take _ _).bind fun _ => .pure _
    | some time =>
        exact (quiet_waitUntil time).bind fun _ => (quiet_take _ _).bind fun _ => .pure _
  · exact (quiet_take _ _).bind fun _ => .pure _

/-! ### Forks -/

theorem fork_of_room {r : LaunchRequest} (h : w.hasChild = true) :
    fork r w = (.ok (launch r w).1, (launch r w).2) := by
  unfold fork
  rw [get_bind, if_pos h]
  rfl

theorem fork_of_no_room {r : LaunchRequest} (h : w.hasChild = false) :
    fork r w = (.error .tryAgain, w) := by
  unfold fork
  rw [get_bind, if_neg (by simp [h])]
  rfl

theorem numbered_concat {l : Launch} (hnumbered : Numbered w)
    (hlaunches : w'.launches = w.launches ++ [l])
    (hpid : l.pid = firstPid + 100 * w.children.length) : Numbered w' := by
  have hlength : w.launches.length = w.children.length := List.length_map _
  unfold Numbered at hnumbered ⊢
  rw [hlaunches, List.map_append, hnumbered, List.length_append, List.length_singleton,
    List.range_succ, List.map_append, hlength]
  simp [hpid]

/-- From a world, the code launches one process. -/
structure Once (w : World) (l : Launch) (act : StateM World α) : Prop where
  numbered : Numbered (act w).2
  current : (act w).2.current = w.current
  launches : (act w).2.launches = w.launches ++ [l]

namespace Once

variable {l : Launch} {act : StateM World α} {f : α → StateM World β}

protected theorem bind (h : Once w l act) (hf : ∀ a, Quiet (f a)) : Once w l (act >>= f) := by
  have hrests := hf (act w).1 (act w).2 h.numbered
  exact ⟨hrests.numbered h.numbered, hrests.current.trans h.current,
    hrests.launches.trans h.launches⟩

theorem after (hquiet : Quiet act) (hnumbered : Numbered w)
    (h : Once (act w).2 l (f (act w).1)) : Once w l (act >>= f) := by
  have hrests := hquiet w hnumbered
  exact ⟨h.numbered, h.current.trans hrests.current, h.launches.trans (by rw [hrests.launches])⟩

/-- With room for a child, what is started is forked. -/
protected theorem fork {r : LaunchRequest} (h : Once w l (launch r)) (hroom : w.hasChild = true) :
    Once w l (fork r) := by
  have hworld : (World.fork r w).2 = (launch r w).2 := by rw [fork_of_room hroom]
  exact ⟨hworld ▸ h.numbered, hworld ▸ h.current, hworld ▸ h.launches⟩

end Once

/-- What a launch is, if some words were to be run in a directory: the empty path is that of the
bridge's own, which is where other paths start from. -/
inductive Started (current : Place) (directory : Bytes) (words : List Bytes) (l : Launch) : Prop
  /-- This cannot be done, and nothing is run. -/
  | refused (idle : l.call.words = [])
  | carriedOut {search : Option Bytes}
      (there : directory = [] ∧ l.directory = current
        ∨ directory ≠ [] ∧ l.tree.resolve current directory = .ok l.directory)
      (call : l.tree.launch l.directory search (words.headD []) words = .ok l.call)

theorem of_directoryOf {path : Bytes} {place : Place} (h : w.directoryOf path = .ok place) :
    path = [] ∧ place = w.current ∨ path ≠ [] ∧ w.files.resolve w.current path = .ok place := by
  unfold directoryOf at h
  split at h
  next hempty => exact .inl ⟨List.isEmpty_iff.mp hempty, (Except.ok.inj h).symm⟩
  next hfull =>
    refine .inr ⟨fun hempty => hfull (List.isEmpty_iff.mpr hempty), ?_⟩
    cases hplace : w.files.resolve w.current path with
    | error e => rw [hplace] at h; exact nomatch h
    | ok found =>
        rw [hplace] at h
        simp only [bind, Except.bind] at h
        split at h
        next => exact h
        next => exact nomatch h
        next => exact nomatch h

/-- What a request comes down to when the process has started: a call in a directory, if it can be
carried out. -/
def carriedOut (r : LaunchRequest) (w : World) : Except Errno (Place × Call) := do
  let w := (pass launchCost w).2
  let directory ← w.directoryOf r.directory
  let call ← w.files.launch directory (w.environment.get? (ascii "PATH"))
    ((LaunchRequest.words r).headD []) (LaunchRequest.words r)
  .ok (directory, call)

theorem of_carriedOut {r : LaunchRequest} {place : Place} {c : Call}
    (h : carriedOut r w = .ok (place, c)) :
    (pass launchCost w).2.directoryOf r.directory = .ok place
      ∧ (pass launchCost w).2.files.launch place (w.environment.get? (ascii "PATH"))
          ((LaunchRequest.words r).headD []) (LaunchRequest.words r) = .ok c := by
  simp only [carriedOut, bind, Except.bind] at h
  split at h
  next => exact nomatch h
  next place' hplace =>
    split at h
    next => exact nomatch h
    next c' hcall =>
      obtain ⟨rfl, rfl⟩ : place' = place ∧ c' = c := by simpa using h
      exact ⟨hplace, hcall⟩

/-- One process is launched, with the files that are there when it has started. -/
theorem once_launch (r : LaunchRequest) (hnumbered : Numbered w) :
    ∃ l, Once w l (launch r) ∧ l.tree = (pass launchCost w).2.files
      ∧ match carriedOut r w with
        | .ok (directory, call) => l.directory = directory ∧ l.call = call
        | .error _ => l.call.words = [] := by
  have hforked : ∃ child : Child,
      (launch r w).2.children = w.children ++ [child] ∧ (launch r w).2.current = w.current
        ∧ child.launch.pid = firstPid + 100 * w.children.length
        ∧ child.launch.tree = (pass launchCost w).2.files
        ∧ match carriedOut r w with
          | .ok (directory, call) => child.launch.directory = directory ∧ child.launch.call = call
          | .error _ => child.launch.call.words = [] := by
    simp only [carriedOut, launch, pass, bind, StateT.bind, get, getThe, MonadStateOf.get, StateT.get,
      modify, modifyGet, MonadStateOf.modifyGet, StateT.modifyGet, set, pure]
    cases World.directoryOf { w with now := w.now + launchCost } r.directory with
    | error e => exact ⟨_, rfl, rfl, rfl, rfl, rfl⟩
    | ok directory =>
        simp only [Except.bind]
        cases FileTree.launch (World.files { w with now := w.now + launchCost }) directory
            (w.environment.get? (ascii "PATH")) ((LaunchRequest.words r).headD [])
            (LaunchRequest.words r) with
        | error e => exact ⟨_, rfl, rfl, rfl, rfl, rfl⟩
        | ok call => exact ⟨_, rfl, rfl, rfl, rfl, rfl, rfl⟩
  obtain ⟨child, hchildren, hcurrent, hpid, hrest⟩ := hforked
  have hlaunches : (launch r w).2.launches = w.launches ++ [child.launch] := by
    rw [launches, hchildren]
    exact List.map_append
  exact ⟨child.launch, ⟨numbered_concat hnumbered hlaunches hpid, hcurrent, hlaunches⟩, hrest⟩

/-- What is started is what was asked for, or nothing. -/
theorem started_launch (r : LaunchRequest) (hnumbered : Numbered w) :
    ∃ l, Once w l (launch r) ∧ Started w.current r.directory (LaunchRequest.words r) l := by
  obtain ⟨l, honce, htree, hcase⟩ := once_launch r hnumbered
  refine ⟨l, honce, ?_⟩
  cases hfound : carriedOut r w with
  | error e => exact .refused (by simpa only [hfound] using hcase)
  | ok found =>
      obtain ⟨place, call⟩ := found
      simp only [hfound] at hcase
      obtain ⟨rfl, rfl⟩ := hcase
      obtain ⟨hplace, hcall⟩ := of_carriedOut hfound
      rw [← htree] at hcall
      refine .carriedOut ?_ hcall
      rw [htree]
      exact of_directoryOf hplace

/-! ### Code that launches -/

/-- Begun in a directory, the code stays there, and what it launches is as stated. -/
def Adds (current : Place) (P : Launch → Prop) (act : StateM World α) : Prop :=
  ∀ w, Numbered w → w.current = current →
    Numbered (act w).2 ∧ (act w).2.current = current
      ∧ ∃ new, (act w).2.launches = w.launches ++ new ∧ ∀ l ∈ new, P l

theorem Quiet.adds {act : StateM World α} (h : Quiet act) (current : Place) (P : Launch → Prop) :
    Adds current P act := by
  intro w hw hcurrent
  have hrests := h w hw
  exact ⟨hrests.numbered hw, hrests.current.trans hcurrent, [], by simp [hrests.launches], by simp⟩

namespace Adds

variable {current : Place} {P Q : Launch → Prop}

protected theorem bind {act : StateM World α} {f : α → StateM World β} (h : Adds current P act)
    (hf : ∀ a, Adds current P (f a)) : Adds current P (act >>= f) := by
  intro w hw hcurrent
  obtain ⟨hmid, hthere, new, hlaunches, hnew⟩ := h w hw hcurrent
  obtain ⟨hend, hstill, more, hmore, hall⟩ := hf (act w).1 (act w).2 hmid hthere
  refine ⟨hend, hstill, new ++ more, ?_, ?_⟩
  · rw [← List.append_assoc, ← hlaunches]
    exact hmore
  · intro l hl
    exact (List.mem_append.mp hl).elim (hnew l) (hall l)

/-- What follows on some code comes after what that launches. -/
theorem after {act : StateM World α} {f : α → StateM World β} (hf : ∀ a, Adds current P (f a))
    (hnumbered : Numbered (act w).2) (hcurrent : (act w).2.current = current) :
    ∃ more, ((act >>= f) w).2.launches = (act w).2.launches ++ more ∧ ∀ l ∈ more, P l :=
  (hf _ _ hnumbered hcurrent).2.2

theorem mono {act : StateM World α} (h : Adds current P act) (himp : ∀ l, P l → Q l) :
    Adds current Q act := by
  intro w hw hcurrent
  obtain ⟨hend, hstill, new, hlaunches, hnew⟩ := h w hw hcurrent
  exact ⟨hend, hstill, new, hlaunches, fun l hl => himp l (hnew l hl)⟩

end Adds

/-- A fork starts what it was asked to, or nothing. -/
theorem adds_fork (r : LaunchRequest) (current : Place) :
    Adds current (Started current r.directory (LaunchRequest.words r)) (fork r) := by
  rintro w hw rfl
  cases hroom : w.hasChild with
  | false =>
      rw [fork_of_no_room hroom]
      exact ⟨hw, rfl, [], by simp, by simp⟩
  | true =>
      obtain ⟨l, honce, hstarted⟩ := started_launch r hw
      rw [fork_of_room hroom]
      exact ⟨honce.numbered, honce.current, [l], honce.launches,
        List.forall_mem_singleton.mpr hstarted⟩

end World

end AnalyzerBridge.Host

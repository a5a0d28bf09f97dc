/-
What becomes of the descriptors that a keeper opens.

A launch opens eight of them, and they come to their ends in many places: the child's ends are
closed right away, the report pipe when it has told, all of them when the program cannot be run;
the keeper's ends are handed out one by one, or closed by the next launch, or when the keeper
goes away.

`Balanced` is the balance of an account: what was held before and what was obtained is what was
given up and what is held now, and never was more given up than there was.  Accounts of pieces
add up to that of a history, so every piece is balanced on its own, and the pieces of a turn
are those in the list of turns.

The system may give a number out again once it is free.  Numbers are therefore counted: each time
a descriptor is obtained is paid for by one time that it is given up.
-/
import Mathlib.Data.List.Count
import Mathlib.Data.List.Perm.Basic
import AnalyzerBridge.Proofs.Supervisor.LifeCycle

namespace AnalyzerBridge

open Host (Kernel Descriptor Pipe)

/-! ### Moves of descriptors -/

/-- Something that happens to a descriptor. -/
inductive DescriptorMove where
  /-- It comes from a new pipe. -/
  | obtained (d : Descriptor)
  | closed (d : Descriptor)
  /-- It is handed out to the caller. -/
  | handed (d : Descriptor)
  deriving DecidableEq, Repr

namespace DescriptorMove

def obtained? : DescriptorMove → Option Descriptor
  | obtained d => some d
  | _ => none

/-- The descriptor that is given up, in either way. -/
def ended? : DescriptorMove → Option Descriptor
  | obtained _ => none
  | closed d => some d
  | handed d => some d

end DescriptorMove

/-- The descriptors that are obtained, in order. -/
def obtained (moves : List DescriptorMove) : List Descriptor := moves.filterMap (·.obtained?)

/-- The descriptors that are given up, in order. -/
def ended (moves : List DescriptorMove) : List Descriptor := moves.filterMap (·.ended?)

theorem obtained_cons (move : DescriptorMove) (rest : List DescriptorMove) :
    obtained (move :: rest) = move.obtained?.toList ++ obtained rest := by
  unfold obtained
  cases move <;> rfl

theorem obtained_append (moves more : List DescriptorMove) :
    obtained (moves ++ more) = obtained moves ++ obtained more := List.filterMap_append

theorem ended_append (moves more : List DescriptorMove) :
    ended (moves ++ more) = ended moves ++ ended more := List.filterMap_append

theorem ended_cons (move : DescriptorMove) (rest : List DescriptorMove) :
    ended (move :: rest) = move.ended?.toList ++ ended rest := by
  unfold ended
  cases move <;> rfl

namespace SystemCall

def moves : SystemCall → List DescriptorMove
  | opened pipe => [.obtained pipe.reading, .obtained pipe.writing]
  | closed d => [.closed d]
  | _ => []

@[simp] theorem moves_signalled (pid : Nat) (signal : Host.Signal) :
    (signalled pid signal).moves = [] := rfl

@[simp] theorem moves_awaited (pid : Nat) (status : Option Nat) :
    (awaited pid status).moves = [] := rfl

end SystemCall

namespace KeeperTurn

/-- The moves of a turn: those of its calls, and a descriptor that is its answer. -/
def moves (t : KeeperTurn) : List DescriptorMove :=
  t.calls.flatMap SystemCall.moves ++
    match t.exchange with
    | .take _ (some d) => [.handed d]
    | _ => []

/-- The turn opens the pipes, before anything else. -/
def Opens (t : KeeperTurn) (p : Supervisor.Pipes) : Prop := p.opening <+: t.calls

/-- The keeper's end of the stream does not change hands. -/
def leaves (t : KeeperTurn) (stream : ChildStream) : Prop :=
  t.launches = false ∧ t.exchange ≠ .finish ∧ ∀ d, t.exchange ≠ .take stream d

end KeeperTurn

/-- The moves of a history, the earliest first. -/
def movesOf (history : List KeeperTurn) : List DescriptorMove := history.flatMap KeeperTurn.moves

/-! ### Balanced accounts -/

/-- Between the moves, what is held turns from the one into the other. -/
structure Balanced (held : List Descriptor) (moves : List DescriptorMove)
    (held' : List Descriptor) : Prop where
  /-- What was held and obtained was given up or is held. -/
  total : (held ++ obtained moves).Perm (ended moves ++ held')
  /-- Never is more given up than there is. -/
  never : ∀ before after, moves = before ++ after →
    ∀ d, (ended before).count d ≤ (held ++ obtained before).count d

namespace Balanced

variable {held held' held'' : List Descriptor} {moves more : List DescriptorMove}

theorem refl (held : List Descriptor) : Balanced held [] held where
  total := by simp [obtained, ended]
  never := by
    intro before after hsplit d
    obtain ⟨rfl, -⟩ := List.append_eq_nil_iff.mp hsplit.symm
    simp [ended]

theorem perm {start finish : List Descriptor} (h : Balanced held moves held')
    (hstart : start.Perm held) (hfinish : held'.Perm finish) : Balanced start moves finish where
  total := (hstart.append_right _).trans (h.total.trans (hfinish.append_left _))
  never := by
    intro before after hsplit d
    rw [(hstart.append_right (obtained before)).count_eq d]
    exact h.never before after hsplit d

theorem append (h : Balanced held moves held') (hmore : Balanced held' more held'') :
    Balanced held (moves ++ more) held'' where
  total := by
    refine List.perm_iff_count.mpr fun d => ?_
    have hfirst := h.total.count_eq d
    have hsecond := hmore.total.count_eq d
    simp only [obtained_append, ended_append, List.count_append] at *
    omega
  never := by
    intro before after hsplit d
    -- the moves are cut in the second part, where the whole first one counts, or in the first
    rcases List.append_eq_append_iff.mp hsplit with ⟨part, rfl, hpart⟩ | ⟨part, rfl, hpart⟩
    · have htotal := h.total.count_eq d
      have hnever := hmore.never part after hpart d
      simp only [obtained_append, ended_append, List.count_append] at *
      omega
    · exact h.never before part rfl d

theorem obtain (d : Descriptor) (held : List Descriptor) :
    Balanced held [.obtained d] (d :: held) where
  total := List.perm_append_singleton d held
  never := by
    intro before after hsplit e
    rcases List.append_eq_cons_iff.mp hsplit.symm with ⟨rfl, -⟩ | ⟨rest, rfl, hrest⟩
    · simp [ended]
    · obtain ⟨rfl, -⟩ := List.append_eq_nil_iff.mp hrest.symm
      simp [ended, DescriptorMove.ended?]

/-- What is given up was held. -/
theorem giveUp {move : DescriptorMove} {d : Descriptor} (hmove : move.ended? = some d)
    (held : List Descriptor) : Balanced (d :: held) [move] held where
  total := by
    have hnone : move.obtained? = none := by
      cases move with
      | obtained => simp [DescriptorMove.ended?] at hmove
      | closed | handed => rfl
    simp [obtained, ended, hmove, hnone]
  never := by
    intro before after hsplit e
    rcases List.append_eq_cons_iff.mp hsplit.symm with ⟨rfl, -⟩ | ⟨rest, rfl, hrest⟩
    · simp [ended]
    · obtain ⟨rfl, -⟩ := List.append_eq_nil_iff.mp hrest.symm
      simp only [ended, List.filterMap_cons_some hmove, List.filterMap_nil, List.cons_append,
        List.count_cons, List.count_nil]
      omega

theorem obtainAll (ds held : List Descriptor) :
    Balanced held (ds.map .obtained) (ds ++ held) := by
  induction ds generalizing held with
  | nil => exact refl held
  | cons d rest ih =>
      refine ((obtain d held).append (ih (d :: held))).perm (.refl _) ?_
      exact List.perm_middle

theorem closeAll (ds held : List Descriptor) :
    Balanced (ds ++ held) (ds.map .closed) held := by
  induction ds with
  | nil => exact refl held
  | cons d rest ih => exact (giveUp rfl (rest ++ held)).append ih

/-- What is obtained and closed again comes out even. -/
theorem obtainAll_closeAll (ds held : List Descriptor) :
    Balanced held (ds.map .obtained ++ ds.map .closed) held :=
  (obtainAll ds held).append (closeAll ds held)

/-- An account that ends with nothing held: all that was obtained was given up. -/
theorem obtained_perm (h : Balanced [] moves []) : (obtained moves).Perm (ended moves) := by
  simpa using h.total

end Balanced

/-! ### Giving up once -/

theorem count_obtained (moves : List DescriptorMove) (d : Descriptor) :
    (obtained moves).count d = moves.count (.obtained d) := by
  induction moves with
  | nil => rfl
  | cons move rest ih =>
      rw [obtained_cons, List.count_append, ih, List.count_cons]
      cases move <;> simp [DescriptorMove.obtained?, List.count_cons, Nat.add_comm]

theorem count_ended (moves : List DescriptorMove) (d : Descriptor) :
    (ended moves).count d = moves.count (.closed d) + moves.count (.handed d) := by
  induction moves with
  | nil => rfl
  | cons move rest ih =>
      rw [ended_cons, List.count_append, ih, List.count_cons, List.count_cons]
      cases move <;> simp [DescriptorMove.ended?, List.count_cons] <;> omega

/-- The system gives out no number that is still in the keeper's hands. -/
def OnlyFresh (moves : List DescriptorMove) : Prop :=
  ∀ before d after, moves = before ++ .obtained d :: after →
    (obtained before).count d = (ended before).count d

/-- The descriptor does not come again in the first moves, and the moves after them are none or
begin with its coming again. -/
def UpToNext (d : Descriptor) (mid after : List DescriptorMove) : Prop :=
  .obtained d ∉ mid ∧ (after = [] ∨ ∃ rest, after = .obtained d :: rest)

/-- Everything that came was given up. -/
structure Returned (moves : List DescriptorMove) : Prop where
  all : (obtained moves).Perm (ended moves)
  /-- From one time that a number comes to the next, it is closed once or handed out once. -/
  once : OnlyFresh moves → ∀ before d mid after,
    moves = before ++ .obtained d :: (mid ++ after) → UpToNext d mid after →
      mid.count (.closed d) + mid.count (.handed d) = 1

theorem returned_of_perm {moves : List DescriptorMove}
    (hall : (obtained moves).Perm (ended moves)) : Returned moves where
  all := hall
  once := by
    intro hfresh before d mid after hsplit hnext
    obtain ⟨hmid, hafter⟩ := hnext
    have hstart := hfresh before d (mid ++ after) hsplit
    -- the books are even at both ends of the stretch, and only there does the number come
    have hend : (obtained (before ++ .obtained d :: mid)).count d
        = (ended (before ++ .obtained d :: mid)).count d := by
      rcases hafter with rfl | ⟨rest, rfl⟩
      · rw [show before ++ .obtained d :: mid = moves by simp [hsplit]]
        exact hall.count_eq d
      · exact hfresh (before ++ .obtained d :: mid) d rest (by simp [hsplit])
    have hnone : mid.count (.obtained d) = 0 := List.count_eq_zero.mpr hmid
    have hsum : before.count (.obtained d) + 1 = before.count (.closed d) + mid.count (.closed d)
        + (before.count (.handed d) + mid.count (.handed d)) := by
      simpa [count_obtained, count_ended, hnone] using hend
    rw [count_obtained, count_ended] at hstart
    omega

/-- Numbers that are all different are fresh. -/
theorem Balanced.onlyFresh {moves : List DescriptorMove} {left : List Descriptor}
    (h : Balanced [] moves left) (hdistinct : (obtained moves).Nodup) : OnlyFresh moves := by
  intro before d after hsplit
  have hone := List.nodup_iff_count.mp hdistinct d
  have hnever := h.never before _ hsplit d
  have hcount : (obtained moves).count d
      = (obtained before).count d + (1 + (obtained after).count d) := by
    simp [hsplit, count_obtained]
    omega
  simp only [List.nil_append] at hnever
  omega

/-! ### The account of a turn -/

namespace Supervisor

variable {s s' : Supervisor} {t : KeeperTurn}

theorem Pipes.ends_perm (p : Pipes) :
    p.ends.Perm (p.given ++ ([p.report.reading] ++ p.kept)) := by
  refine List.perm_iff_count.mpr fun d => ?_
  simp only [Pipes.ends, Host.Pipe.ends, Pipes.given, Pipes.kept, List.flatMap_cons,
    List.flatMap_nil, List.cons_append, List.nil_append, List.count_cons, List.count_nil]
  omega

theorem flatMap_moves_closed (ds : List Descriptor) :
    (ds.map SystemCall.closed).flatMap SystemCall.moves = ds.map .closed := by
  induction ds with
  | nil => rfl
  | cons d rest ih => rw [List.map_cons, List.flatMap_cons, ih]; rfl

theorem moves_startingCalls (plan : LaunchPlan) (p : Pipes) (pid : Nat)
    (told : Option Host.Errno) :
    (startingCalls plan p pid told).flatMap SystemCall.moves
      = p.ends.map .obtained ++ (p.given.map .closed ++ [.closed p.report.reading]) := rfl

/-- A launch obtains all ends and closes the child's and the report pipe. -/
theorem balanced_startingCalls (plan : LaunchPlan) (p : Pipes) (pid : Nat)
    (told : Option Host.Errno) (held : List Descriptor) :
    Balanced held ((startingCalls plan p pid told).flatMap SystemCall.moves) (p.kept ++ held) := by
  rw [moves_startingCalls]
  have hopen := Balanced.obtainAll p.ends held
  have hgiven := Balanced.closeAll p.given ([p.report.reading] ++ p.kept ++ held)
  have hreport := Balanced.closeAll [p.report.reading] (p.kept ++ held)
  have hends : (p.ends ++ held).Perm (p.given ++ ([p.report.reading] ++ p.kept ++ held)) := by
    simpa using p.ends_perm.append_right held
  refine (hopen.perm (.refl _) hends).append (hgiven.append ?_)
  simpa using hreport

theorem flatMap_moves_opened (pipes : List Pipe) :
    (pipes.map SystemCall.opened).flatMap SystemCall.moves
      = (pipes.flatMap Pipe.ends).map .obtained := by
  induction pipes with
  | nil => rfl
  | cons pipe rest ih => rw [List.map_cons, List.flatMap_cons, ih]; rfl

theorem balanced_pipeCalls (opened : List Pipe) (reason : Host.Errno) (held : List Descriptor) :
    Balanced held ((pipeCalls opened reason).flatMap SystemCall.moves) held := by
  rw [pipeCalls, List.flatMap_append, List.flatMap_cons, flatMap_moves_opened,
    flatMap_moves_closed]
  exact Balanced.obtainAll_closeAll (opened.flatMap Pipe.ends) held

theorem balanced_forkCalls (plan : LaunchPlan) (p : Pipes) (reason : Host.Errno)
    (held : List Descriptor) :
    Balanced held ((forkCalls plan p reason).flatMap SystemCall.moves) held := by
  rw [forkCalls, List.flatMap_append, List.flatMap_cons, flatMap_moves_closed]
  exact Balanced.obtainAll_closeAll p.ends held

theorem balanced_failedCalls (plan : LaunchPlan) (p : Pipes) (pid : Nat)
    (told : Option Host.Errno) (status : Option Nat) (held : List Descriptor) :
    Balanced held ((startingCalls plan p pid told ++
      SystemCall.awaited pid status :: p.kept.map SystemCall.closed).flatMap SystemCall.moves)
        held := by
  rw [List.flatMap_append, List.flatMap_cons, flatMap_moves_closed]
  exact (balanced_startingCalls plan p pid told held).append (Balanced.closeAll p.kept held)

/-- Launching keeps the account balanced, however it ends. -/
theorem Launched.balanced {plan : LaunchPlan} {calls : List SystemCall}
    {done : Except Failure Unit × Supervisor} (h : s.Launched plan calls done) :
    Balanced s.held (calls.flatMap SystemCall.moves) done.2.held := by
  cases h with
  | busy | nameless => exact .refl _
  | @pipeless opened reason => exact balanced_pipeCalls opened reason s.held
  | @forkless p reason => exact balanced_forkCalls plan p reason s.held
  | @failed p pid reason status => exact balanced_failedCalls plan p pid _ status s.held
  | @running p pid gone =>
      have hclose := Balanced.closeAll s.held p.kept
      rw [List.flatMap_append, flatMap_moves_closed]
      exact (balanced_startingCalls plan p pid _ s.held).append
        (hclose.perm List.perm_append_comm (.refl _))

theorem moves_of_allRunning {pid : Nat} {looks : List SystemCall} (h : AllRunning pid looks) :
    looks.flatMap SystemCall.moves = [] := by
  refine List.flatMap_eq_nil_iff.mpr fun call hcall => ?_
  rw [h call hcall]
  rfl

theorem moves_of_death {call : SystemCall} {found : Nat × Option Nat}
    (h : call.death? = some found) : call.moves = [] := by
  cases call with
  | opened | closed => simp [SystemCall.death?] at h
  | _ => rfl

/-- Making the child go away does nothing to descriptors. -/
theorem Departed.moves_eq {calls : List SystemCall} {done : Bool × Supervisor}
    (h : s.Departed calls done) :
    calls.flatMap SystemCall.moves = [] ∧ done.2.held = s.held := by
  cases h with
  | already => exact ⟨rfl, rfl⟩
  | alone living alive death =>
      simp [moves_of_allRunning alive, moves_of_death death, bury, held]
  | asked living alive still death =>
      simp [moves_of_allRunning alive, moves_of_allRunning still, moves_of_death death, bury, held]
  | killed living alive still =>
      simp [moves_of_allRunning alive, moves_of_allRunning still, bury, held]

/-- Handing out takes the end of the stream from what is held. -/
theorem held_perm_take (s : Supervisor) (stream : ChildStream) :
    s.held.Perm ((s.stream? stream).toList ++ (s.take stream).2.held) := by
  refine List.perm_iff_count.mpr fun d => ?_
  cases stream <;>
    simp only [held, stream?, Supervisor.take, List.count_append, Option.toList_none,
      List.count_nil] <;>
    omega

/-- **Every turn keeps the account balanced.** -/
theorem Turned.balanced (h : s.Turned t s') : Balanced s.held t.moves s'.held := by
  cases h with
  | spawn launch => simpa [KeeperTurn.moves] using launch.balanced
  | notAlive | alive | exitStatus => exact .refl _
  | foundDead living death => simpa [KeeperTurn.moves, moves_of_death death] using .refl _
  | terminate departure =>
      obtain ⟨hmoves, hheld⟩ := departure.moves_eq
      rw [hheld]
      simpa [KeeperTurn.moves, hmoves] using .refl _
  | take stream =>
      have hheld := s.held_perm_take stream
      cases hstream : s.stream? stream with
      | none => exact (Balanced.refl _).perm (by simpa [hstream] using hheld) (.refl _)
      | some d => exact (Balanced.giveUp rfl _).perm (by simpa [hstream] using hheld) (.refl _)
  | @finish calls done departure =>
      obtain ⟨hmoves, hheld⟩ := departure.moves_eq
      have hclose := Balanced.closeAll s.held []
      have hempty : done.2.emptied.held = [] := rfl
      simpa [KeeperTurn.moves, hmoves, hheld, hempty, flatMap_moves_closed] using hclose

theorem History.balanced {history : List KeeperTurn} (h : History history s) :
    Balanced [] (movesOf history) s.held := by
  induction h with
  | fresh => exact .refl []
  | @turn past s₁ s₂ t hpast hturned ih =>
      have hmoves : movesOf (past ++ [t]) = movesOf past ++ t.moves := by simp [movesOf]
      rw [hmoves]
      exact ih.append hturned.balanced

/-! ### Handing out -/

theorem stream?_take_of_ne (s : Supervisor) {stream other : ChildStream} (h : other ≠ stream) :
    (s.take other).2.stream? stream = s.stream? stream := by
  cases other <;> cases stream <;> simp_all [stream?, Supervisor.take]

/-- A turn launches a child whose pipe has the stream, gives up the keeper's end of the stream, or
leaves it where it is. -/
inductive StreamTurn (s : Supervisor) (t : KeeperTurn) (s' : Supervisor) (stream : ChildStream) :
    Prop
  | launched {p : Pipes} (launches : t.launches = true) (opens : t.Opens p)
      (kept : s'.stream? stream = some (p.keptEnd stream))
  | gone (quiet : t.launches = false) (moved : ¬t.leaves stream) (empty : s'.stream? stream = none)
  | same (left : t.leaves stream) (kept : s'.stream? stream = s.stream? stream)

theorem Turned.streamTurn (h : s.Turned t s') (stream : ChildStream) :
    StreamTurn s t s' stream := by
  cases h with
  | spawn launch =>
      cases launch with
      | @running p pid gone =>
          refine .launched (p := p) rfl ?_ ?_
          · show p.opening <+: startingCalls _ p pid none ++ s.held.map .closed
            simp [startingCalls]
          · cases stream <;> rfl
      | busy | nameless | pipeless | forkless | failed =>
          exact .same ⟨rfl, by simp, by simp⟩ rfl
  | notAlive | alive | exitStatus => exact .same ⟨rfl, by simp, by simp⟩ rfl
  | foundDead => exact .same ⟨rfl, by simp, by simp⟩ (by cases stream <;> rfl)
  | terminate departure =>
      refine .same ⟨rfl, by simp, by simp⟩ ?_
      cases departure <;> cases stream <;> rfl
  | take other =>
      by_cases hother : other = stream
      · obtain rfl := hother
        exact .gone rfl (by simp [KeeperTurn.leaves]) (by cases other <;> rfl)
      · refine .same ⟨rfl, by simp, by simpa using fun h => absurd h hother⟩ ?_
        exact stream?_take_of_ne s hother
  | finish => exact .gone rfl (by simp [KeeperTurn.leaves]) (by cases stream <;> rfl)

/-- The keeper has that end of the stream's pipe since the last launch. -/
def HoldsEnd (history : List KeeperTurn) (stream : ChildStream) (d : Descriptor) : Prop :=
  ∃ past u since p, history = past ++ u :: since ∧ u.launches = true ∧ u.Opens p
    ∧ d = p.keptEnd stream ∧ ∀ v ∈ since, v.leaves stream

/-- After one more turn the keeper has the end because that turn was the launch, or because it had
the end before and the turn has left it there. -/
theorem holdsEnd_concat_iff (history : List KeeperTurn) (t : KeeperTurn) (stream : ChildStream)
    (d : Descriptor) :
    HoldsEnd (history ++ [t]) stream d ↔
      (t.launches = true ∧ ∃ p, t.Opens p ∧ d = p.keptEnd stream)
        ∨ (t.leaves stream ∧ HoldsEnd history stream d) := by
  constructor
  · rintro ⟨past, u, since, p, hsplit, hlaunch, hopens, hd, hsince⟩
    rcases List.eq_nil_or_concat since with rfl | ⟨rest, v, rfl⟩
    · obtain ⟨-, hlast⟩ := List.append_inj' hsplit rfl
      obtain rfl : t = u := by simpa using hlast
      exact .inl ⟨hlaunch, p, hopens, hd⟩
    · have hcut : history ++ [t] = (past ++ u :: rest) ++ [v] := by simpa using hsplit
      obtain ⟨hhistory, hlast⟩ := List.append_inj' hcut rfl
      obtain rfl : t = v := by simpa using hlast
      refine .inr ⟨hsince t (by simp), past, u, rest, p, hhistory, hlaunch, hopens, hd, ?_⟩
      intro w hw
      exact hsince w (by simp [hw])
  · rintro (⟨hlaunch, p, hopens, hd⟩ | ⟨hleft, past, u, since, p, rfl, hlaunch, hopens, hd, hsince⟩)
    · exact ⟨history, t, [], p, rfl, hlaunch, hopens, hd, by simp⟩
    · refine ⟨past, u, since ++ [t], p, by simp, hlaunch, hopens, hd, ?_⟩
      intro v hv
      rcases List.mem_append.mp hv with hold | hnew
      · exact hsince v hold
      · rw [List.mem_singleton.mp hnew]
        exact hleft

theorem opens_inj {p q : Pipes} (hp : t.Opens p) (hq : t.Opens q) : p = q := by
  have hopening : p.opening = q.opening :=
    (List.prefix_of_prefix_length_le hp hq (Nat.le_refl 4)).eq_of_length rfl
  cases p
  cases q
  simpa [Pipes.opening] using hopening

/-- The keeper has an end of a stream from its launch until it hands it out or goes away. -/
theorem History.stream?_eq_some_iff {history : List KeeperTurn} (h : History history s)
    (stream : ChildStream) (d : Descriptor) :
    s.stream? stream = some d ↔ HoldsEnd history stream d := by
  induction h with
  | fresh =>
      refine iff_of_false (by cases stream <;> simp [stream?]) ?_
      rintro ⟨past, u, since, p, hsplit, -⟩
      simp at hsplit
  | turn hpast hturned ih =>
      rw [holdsEnd_concat_iff]
      cases hturned.streamTurn stream with
      | launched hlaunch hopens hkept =>
          rw [hkept, Option.some.injEq]
          constructor
          · rintro rfl
            exact .inl ⟨hlaunch, _, hopens, rfl⟩
          · rintro (⟨-, q, hopens', rfl⟩ | ⟨hleft, -⟩)
            · rw [opens_inj hopens hopens']
            · exact absurd hlaunch (by simp [hleft.1])
      | gone hquiet hmoved hempty => simp [hempty, hquiet, hmoved]
      | same hleft hkept => simp [hkept, ih, hleft, hleft.1]

/-! ### The account of a keeper -/

/-- What becomes of the descriptors while there is a keeper. -/
structure Accounted (history : List KeeperTurn) : Prop where
  /-- Never is a descriptor given up that is not in the keeper's hands. -/
  never : ∀ before after, movesOf history = before ++ after →
    ∀ d, (ended before).count d ≤ (obtained before).count d
  /-- A launch opens four pipes and gives one end of each to the child.  Of all descriptors that
  ever were, the keeper then has its three ends. -/
  launched : ∀ before t after plan, history = before ++ t :: after →
    t.exchange = .spawn plan none →
    ∃ p pid, t.Opens p ∧ .forked (LaunchPlan.request plan p) pid ∈ t.calls
      ∧ obtained t.moves = p.ends
      ∧ (obtained (movesOf (before ++ [t]))).Perm (ended (movesOf (before ++ [t])) ++ p.kept)
  /-- A launch that fails gives up all that it has opened, and nothing else. -/
  failed : ∀ t ∈ history, ∀ plan failure, t.exchange = .spawn plan (some failure) →
    Balanced [] t.moves []
  /-- An end of a stream is handed out if there was a launch and it was not handed out since. -/
  taken : ∀ before t after stream answer, history = before ++ t :: after →
    t.exchange = .take stream answer → ∀ d, answer = some d ↔ HoldsEnd before stream d

theorem obtained_map_obtained (ds : List Descriptor) : obtained (ds.map .obtained) = ds := by
  induction ds with
  | nil => rfl
  | cons d rest ih => rw [List.map_cons, obtained_cons, ih]; rfl

theorem obtained_map_closed (ds : List Descriptor) : obtained (ds.map .closed) = [] := by
  induction ds with
  | nil => rfl
  | cons d rest ih => rw [List.map_cons, obtained_cons, ih]; rfl

theorem Launched.of_ok {plan : LaunchPlan} {calls : List SystemCall}
    {done : Except Failure Unit × Supervisor} (h : s.Launched plan calls done)
    (hdone : failure? done.1 = none) :
    ∃ p pid, p.opening <+: calls ∧ .forked (LaunchPlan.request plan p) pid ∈ calls
      ∧ obtained (calls.flatMap SystemCall.moves) = p.ends ∧ done.2.held = p.kept := by
  cases h with
  | @running p pid gone =>
      refine ⟨p, pid, by simp [startingCalls], by simp [startingCalls], ?_, rfl⟩
      rw [List.flatMap_append, flatMap_moves_closed, moves_startingCalls]
      simp only [obtained_append, obtained_map_obtained, obtained_map_closed]
      rfl
  | busy | nameless | pipeless | forkless | failed => simp [failure?] at hdone

theorem Launched.of_error {plan : LaunchPlan} {calls : List SystemCall}
    {done : Except Failure Unit × Supervisor} (h : s.Launched plan calls done) {failure : Failure}
    (hdone : failure? done.1 = some failure) :
    Balanced [] (calls.flatMap SystemCall.moves) [] := by
  cases h with
  | busy | nameless => exact .refl _
  | @pipeless opened reason => exact balanced_pipeCalls opened reason []
  | @forkless p reason => exact balanced_forkCalls plan p reason []
  | @failed p pid reason status => exact balanced_failedCalls plan p pid _ status []
  | running => simp [failure?] at hdone

theorem Turned.of_spawn (h : s.Turned t s') {plan : LaunchPlan} {failure : Option Failure}
    (hexchange : t.exchange = .spawn plan failure) :
    ∃ done : Except Failure Unit × Supervisor, s.Launched plan t.calls done
      ∧ failure? done.1 = failure ∧ done.2 = s'
      ∧ t.moves = t.calls.flatMap SystemCall.moves := by
  cases h with
  | spawn launch =>
      obtain ⟨rfl, rfl⟩ := Exchange.spawn.inj hexchange
      exact ⟨_, launch, rfl, rfl, by simp [KeeperTurn.moves]⟩
  | _ => simp at hexchange

theorem Turned.of_take (h : s.Turned t s') {stream : ChildStream} {answer : Option Descriptor}
    (hexchange : t.exchange = .take stream answer) : s.stream? stream = answer := by
  cases h with
  | take other =>
      obtain ⟨rfl, rfl⟩ := Exchange.take.inj hexchange
      rfl
  | _ => simp at hexchange

/-- Whatever became of a keeper, its descriptors are accounted for. -/
theorem History.accounted {history : List KeeperTurn} (h : History history s) :
    Accounted history where
  never := by
    intro before after hsplit d
    simpa using h.balanced.never before after hsplit d
  launched := by
    intro before t after plan hsplit hexchange
    obtain ⟨s₁, s₂, -, hturned, hnow⟩ := h.split hsplit
    obtain ⟨done, hlaunch, hok, rfl, hmoves⟩ := hturned.of_spawn hexchange
    obtain ⟨p, pid, hopens, hforked, hobtained, hheld⟩ := hlaunch.of_ok hok
    refine ⟨p, pid, hopens, hforked, by rw [hmoves, hobtained], ?_⟩
    rw [← hheld]
    simpa using hnow.balanced.total
  failed := by
    intro t hmem plan failure hexchange
    obtain ⟨before, after, hsplit⟩ := List.append_of_mem hmem
    obtain ⟨s₁, s₂, -, hturned, -⟩ := h.split hsplit
    obtain ⟨done, hlaunch, herror, -, hmoves⟩ := hturned.of_spawn hexchange
    rw [hmoves]
    exact hlaunch.of_error herror
  taken := by
    intro before t after stream answer hsplit hexchange d
    obtain ⟨s₁, s₂, hbefore, hturned, -⟩ := h.split hsplit
    rw [← hturned.of_take hexchange]
    exact hbefore.stream?_eq_some_iff stream d

end Supervisor

namespace KeeperRun

/--
**Whatever is asked of a keeper, in whatever order, and whatever its launches come to: each
descriptor that it opens is closed once or handed out once by the time that it has gone away.**
-/
theorem run_returns_descriptors {W : Type} (k : Kernel W) (world : W)
    (events : List (KeeperEvent W)) :
    Supervisor.Accounted (run k { world } events).history
      ∧ Returned (movesOf (run k { world } (events ++ [.request .finish])).history) := by
  refine ⟨(run_history k world events).accounted, returned_of_perm ?_⟩
  have hempty : (run k { world } (events ++ [.request .finish])).keeper.held = [] := by
    rw [run_concat]
    obtain ⟨calls, hstep, -⟩ := step_request k (run k { world } events) .finish
    rw [hstep]
    rfl
  have hbalanced := (run_history k world (events ++ [.request .finish])).balanced
  rw [hempty] at hbalanced
  exact hbalanced.obtained_perm

/-- A system that counts its descriptors, and whose children end at once. -/
def counting : Kernel Descriptor where
  openPipe := fun next => (.ok ⟨next, next + 1⟩, next + 2)
  close _ := pure ()
  fork _ := pure (.ok 1)
  launchReport _ := pure none
  poll _ := pure (.ended 0)
  await _ := pure none
  signal _ _ := pure ()
  clock := pure 0
  pause := pure ()
  note _ := pure ()

/-- A child is launched, its output is handed out, it is found dead, and another is launched. -/
def twoLaunches : List (KeeperEvent Descriptor) :=
  [.request (.spawn { executable := [0x61] }), .request (.take .output), .request .isAlive,
    .request (.spawn { executable := [0x62] })]

/-- Its numbers are fresh, so that each is closed once or handed out once. -/
theorem run_returns_descriptors_of_two_launches :
    OnlyFresh (movesOf (run counting { world := 3 } (twoLaunches ++ [.request .finish])).history)
      ∧ Returned
          (movesOf (run counting { world := 3 } (twoLaunches ++ [.request .finish])).history) :=
  ⟨(run_history counting 3 _).balanced.onlyFresh (by decide),
    (run_returns_descriptors counting 3 twoLaunches).2⟩

end KeeperRun

end AnalyzerBridge

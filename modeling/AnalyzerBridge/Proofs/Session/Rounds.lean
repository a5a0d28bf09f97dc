/-
Whoever starts a session or shuts it down is told how that has ended.

Nothing lets a thread in charge wait for ever.  `work` counts what is before it at most: the turns
from where it stands, the chores that are left, and what those have to do for whom it waits.  No move
adds to the work, and as long as nobody has moved who matters there is always somebody whose next
move takes something away: the thread itself, or the one that it waits for.  That one has been asked
to stop by then.

So it is enough that everybody gets a turn now and then.  A `FairRound` is a stretch of a run in
which everybody has one; in between anything may happen.
-/
import Mathlib.Data.List.Infix
import AnalyzerBridge.Proofs.Session.Errands

namespace AnalyzerBridge

open Host (Kernel)
open AnalyzerBridge.Frame (WriteAnswer Outgoing)
open Ledger (Precedes)

variable {W : Type}

/-! ### Places -/

namespace ThreadPlace

/-- How many turns a thread in charge has before it at most. -/
def weight : ThreadPlace → Nat
  | idle => 0
  | stopping => 1
  | ending => 8
  | leaving | openingFailed => 9
  | settling => 10
  | acknowledging | cancelling _ => 11
  | unsent _ _ | waiting _ _ => 12
  | sending _ _ => 13
  | calling _ => 14
  | turningOff _ => 15
  | launched => 20
  | launching => 21

/-- The session is being started. -/
def opens : ThreadPlace → Bool
  | launching | launched | acknowledging | settling | openingFailed => true
  | calling purpose | sending purpose _ | unsent purpose _ | waiting purpose _
  | cancelling purpose => purpose == .opening
  | _ => false

variable {p : ThreadPlace} (l : Ledger) (thread : Nat) (well : Bool)

/-- On the way of a call a thread in charge comes nearer to its end unless it goes on waiting, and
it neither begins nor gives up to start the session. -/
theorem nearer_turn (hquiet : p.isQuiet = true) (hnot : p ≠ .stopping) (hholds : p.holdsLock = true) :
    (p.turn l thread well).place.opens = p.opens
      ∧ ((p.turn l thread well).place.weight < p.weight
        ∨ (p.turn l thread well).place = p ∧ well = true ∧ ∃ purpose id, p = .waiting purpose id) := by
  cases p with
  | calling purpose =>
      rw [turn]
      split <;> cases purpose <;> simp [CallPurpose.after, opens, weight, holdsLock] at hholds ⊢
  | sending purpose id => cases well <;> simp [turn, opens, weight]
  | unsent purpose id =>
      cases purpose <;> simp [turn, CallPurpose.after, opens, weight, holdsLock] at hholds ⊢
  | waiting purpose id =>
      rw [turn]
      split
      · cases purpose <;> simp [CallPurpose.after, opens, weight, holdsLock] at hholds ⊢
      · cases purpose <;> simp [CallPurpose.after, opens, weight, holdsLock] at hholds ⊢
      · cases well with
        | true => simp
        | false =>
            simp only [Bool.false_eq_true, if_false]
            split <;> cases purpose <;>
              simp [CallPurpose.after, opens, weight, holdsLock] at hholds ⊢
  | cancelling purpose =>
      cases purpose <;> simp [turn, CallPurpose.after, opens, weight, holdsLock] at hholds ⊢
  | acknowledging =>
      rw [turn]
      split <;> simp [opens, weight]
  | leaving => simp [turn, opens, weight]
  | idle => simp [holdsLock] at hholds
  | stopping => exact absurd rfl hnot
  | _ => simp [isQuiet] at hquiet

end ThreadPlace

namespace ClientRun

variable {k : Kernel W} {o : ClientOptions} {s s' s'' : ClientRun W} {thread : Nat}

/-! ### What is before the thread in charge -/

/-- What is before the thread that logs the backend's errors. -/
def errorsWork (s : ClientRun W) : Nat := if s.errors = .running then 1 else 0

/-- What is before the thread in charge, and before those for whom it may have to wait. -/
def work (s : ClientRun W) : Nat :=
  s.shared.busy.weight + s.chores.length + s.readerWork + s.errorsWork

/-- The thread in charge starts the session. -/
def Starts (s : ClientRun W) : Prop :=
  s.shared.busy.opens = true ∨ s.shared.busy = .stopping ∧ s.opening.isSome = true

/-- What the thread in charge is told in the end. -/
def Owed (s : ClientRun W) : ClientReply → Prop
  | .started _ => s.Starts
  | .shutDown => ¬s.Starts
  | _ => False

/-- Since then a thread was told something. -/
def Told (s s' : ClientRun W) (thread : Nat) (reply : ClientReply) : Prop :=
  ∃ told, s'.returned = s.returned ++ told ∧ (thread, reply) ∈ told

/-- Nothing has happened for which the thread in charge may be waiting. -/
structure Still (s s' : ClientRun W) : Prop where
  busy : s'.shared.busy = s.shared.busy
  chores : s'.chores = s.chores
  reader : s'.shared.reader = s.shared.reader
  task : s'.task = s.task
  errors : s'.errors = .running ↔ s.errors = .running

/-- The thread in charge waits for the reader. -/
def AwaitsReader (s : ClientRun W) : Prop :=
  s.shared.busy = .stopping ∧ s.chores.head? = some .joinReader ∧ ¬s.ReaderGone

/-- The thread in charge waits for the one that logs the backend's errors. -/
def AwaitsErrors (s : ClientRun W) : Prop :=
  s.shared.busy = .stopping ∧ s.chores.head? = some .joinErrors ∧ s.errors = .running

/-- The move brings the thread in charge nearer to its end. -/
def Helps (s : ClientRun W) (thread : Nat) : ClientMove W → Prop
  | .proceed mover _ _ late => mover = thread ∧ late = true ∧ ¬s.AwaitsReader ∧ ¬s.AwaitsErrors
  | .fails _ => s.AwaitsReader ∧ s.shared.reader = .reading
  | .readerGoesOn => s.AwaitsReader ∧ s.shared.reader ≠ .reading
  | .errorsEnd _ => s.AwaitsErrors
  | _ => False

theorem Still.refl (s : ClientRun W) : Still s s := ⟨rfl, rfl, rfl, rfl, .rfl⟩

theorem Still.trans (h : Still s s') (h' : Still s' s'') : Still s s'' where
  busy := h'.busy.trans h.busy
  chores := h'.chores.trans h.chores
  reader := h'.reader.trans h.reader
  task := h'.task.trans h.task
  errors := h'.errors.trans h.errors

theorem Still.helps_iff (h : Still s s') (move : ClientMove W) :
    s'.Helps thread move ↔ s.Helps thread move := by
  have hgone : s'.ReaderGone ↔ s.ReaderGone := by
    rw [readerGone_iff, readerGone_iff, readerWork_congr h.reader h.task]
  have hreader : s'.AwaitsReader ↔ s.AwaitsReader := by
    rw [AwaitsReader, AwaitsReader, h.busy, h.chores, hgone]
  have herrors : s'.AwaitsErrors ↔ s.AwaitsErrors := by
    rw [AwaitsErrors, AwaitsErrors, h.busy, h.chores, h.errors]
  cases move <;> simp only [Helps, hreader, herrors, h.reader]

/-- The thread is still in charge, with the same aim, and there is less before it, or nothing has
happened and the move was no help. -/
structure Nearer (s s' : ClientRun W) (thread : Nat) (helped : Prop) : Prop where
  lock : s'.shared.lock = some thread
  starts : s'.Starts ↔ s.Starts
  told : s.returned <+: s'.returned
  work : s'.work < s.work ∨ Still s s' ∧ ¬helped

/-- What becomes of the thread in charge with a move: it is told how it has ended, or it comes
nearer to that. -/
def Advances (s s' : ClientRun W) (thread : Nat) (helped : Prop) : Prop :=
  (∃ reply, s.Owed reply ∧ Told s s' thread reply) ∨ Nearer s s' thread helped

theorem readerWork_le (s : ClientRun W) : s.readerWork ≤ 3 := by
  unfold readerWork
  cases s.task with
  | nothing => cases s.shared.reader <;> simp
  | closeWriter | expel | look => simp

theorem errorsWork_le (s : ClientRun W) : s.errorsWork ≤ 1 := by
  unfold errorsWork
  split <;> simp

/-- Beside the thread in charge nobody gets more to do. -/
theorem work_lt_of_calm (hcalm : Calm s s')
    (hown : s'.shared.busy.weight + s'.chores.length < s.shared.busy.weight + s.chores.length) :
    s'.work < s.work := by
  have hreader : s'.readerWork ≤ s.readerWork := by
    rcases hcalm.reader with ⟨hreads, htask⟩ | ⟨hless, -⟩
    · rw [readerWork_congr hreads htask]
    · exact hless.le
  have herrors : s'.errorsWork ≤ s.errorsWork := by
    unfold errorsWork
    by_cases hbefore : s.errors = .running
    · by_cases hafter : s'.errors = .running <;> simp [hbefore, hafter]
    · simp [hbefore, hcalm.errors hbefore]
  unfold work
  omega

/-- If the thread in charge stays where it is, there is less to do for the others, or nothing has
happened. -/
theorem work_of_calm (hcalm : Calm s s') (hbusy : s'.shared.busy = s.shared.busy)
    (hchores : s'.chores = s.chores) : s'.work < s.work ∨ Still s s' := by
  have herrors : s'.errorsWork < s.errorsWork
      ∨ s'.errorsWork = s.errorsWork ∧ (s'.errors = .running ↔ s.errors = .running) := by
    unfold errorsWork
    by_cases hbefore : s.errors = .running
    · by_cases hafter : s'.errors = .running <;> simp [hbefore, hafter]
    · simp [hbefore, hcalm.errors hbefore]
  unfold work
  rw [hbusy, hchores]
  rcases hcalm.reader with ⟨hreads, htask⟩ | ⟨hless, -⟩
  · have hreader := readerWork_congr hreads htask
    rcases herrors with hless | ⟨-, hlogs⟩
    · left
      omega
    · exact .inr ⟨hbusy, hchores, hreads, htask, hlogs⟩
  · left
    omega

/-! ### Those who do not have the lock -/

/-- While a thread is in charge, what others do is aside. -/
theorem aside_of_held (h : Coherent s) (hlock : s.shared.lock = some thread)
    {move : ClientMove W} (hother : ∀ message answers late,
      move ≠ .proceed thread message answers late) :
    Aside s (s.step k o move) ∧ Calm s (s.step k o move) := by
  have hmoved := moved_step (k := k) (o := o) h move
  generalize hs : s.step k o move = s' at hmoved
  cases hmoved with
  | aside later haside => exact ⟨haside, hs ▸ calm_step k o s h.task later⟩
  | start _ _ free | shutdown _ _ free => simp [hlock] at free
  | early _ _ _ free => simp [hlock] at free
  | proceed mover holds message answers late =>
      obtain rfl := Option.some.inj (hlock.symm.trans holds)
      exact absurd rfl (hother message answers late)

/-- What is left to be done is an end of what has to be done. -/
theorem Stopping.asked (h : s.Stopping) (asks : Chore) {first : Chore} {rest : List Chore}
    (hchores : s.chores = first :: rest) (hplanned : asks ∈ Chore.halt)
    (hbefore : ∀ chores ∈ Chore.farewell.tails, chores.head? = some first → asks ∉ chores) :
    s.Achieved asks := by
  have hin : asks ∈ s.planned := by
    unfold planned
    split
    · exact hplanned
    · exact List.mem_cons_of_mem _ (List.mem_cons_of_mem _ hplanned)
  refine (h.done asks hin).resolve_left ?_
  exact hbefore _ ((List.mem_tails _ _).mpr h.order) (by rw [hchores]; rfl)

/-- Whoever waits for the reader has asked it to stop. -/
theorem AwaitsReader.asked (h : s.AwaitsReader) (he : s.Errands) : s.readerAsked = true := by
  obtain ⟨hbusy, hhead, hruns⟩ := h
  obtain ⟨rest, hchores⟩ := List.head?_eq_some_iff.mp hhead
  exact ((he.stopping hbusy).asked .askReader hchores (by decide) (by decide)).resolve_left hruns

/-- Whoever waits for the thread that logs the backend's errors has asked it to stop. -/
theorem AwaitsErrors.asked (h : s.AwaitsErrors) (he : s.Errands) : s.errorsAsked = true := by
  obtain ⟨hbusy, hhead, hruns⟩ := h
  obtain ⟨rest, hchores⟩ := List.head?_eq_some_iff.mp hhead
  have hachieved := (he.stopping hbusy).asked .askErrors hchores (by decide) (by decide)
  exact hachieved.resolve_left (by simp [hruns])

/-- Whoever was asked to stop does so when it is its turn. -/
theorem not_still_of_helps (he : s.Errands) {move : ClientMove W}
    (hhelps : s.Helps thread move)
    (hother : ∀ message answers late, move ≠ .proceed thread message answers late) :
    ¬Still s (s.step k o move) := by
  cases move with
  | proceed mover message answers late =>
      obtain ⟨rfl, -⟩ := hhelps
      exact absurd rfl (hother message answers late)
  | fails readEnd =>
      obtain ⟨hawaits, hreading⟩ := hhelps
      intro hstill
      have hreader := hstill.reader
      rw [step, if_pos ⟨hreading, fun _ => hawaits.asked he⟩, hreading] at hreader
      unfold failReading at hreader
      split at hreader
      · simp [SessionRun.step, hreading] at hreader
      · simp only [SessionRun.step, hreading, if_true] at hreader
        split at hreader <;> simp at hreader
  | readerGoesOn =>
      obtain ⟨⟨-, -, hruns⟩, hnot⟩ := hhelps
      intro hstill
      have hreader := hstill.reader
      have htask := hstill.task
      rw [step] at hreader htask
      unfold readOn at hreader htask
      cases hdo : s.task with
      | closeWriter | expel | look => simp [hdo, look] at htask
      | nothing =>
          cases hplace : s.shared.reader with
          | reading => exact hnot hplace
          | absent => exact hruns ⟨.inl hplace, hdo⟩
          | stopped => exact hruns ⟨.inr hplace, hdo⟩
          | found cause => simp [hdo, SessionRun.step, hplace] at hreader
  | errorsEnd asked =>
      have hawaits : s.AwaitsErrors := hhelps
      intro hstill
      have herrors := hstill.errors
      rw [step, if_pos ⟨hawaits.2.2, fun _ => hawaits.asked he⟩] at herrors
      simpa using herrors.mpr hawaits.2.2
  | _ => exact absurd hhelps id

theorem starts_congr (hbusy : s'.shared.busy = s.shared.busy) (hopening : s'.opening = s.opening) :
    s'.Starts ↔ s.Starts := by
  unfold Starts
  rw [hbusy, hopening]

/-- What others do brings the thread in charge no further away from its end. -/
theorem advances_of_aside (h : Coherent s) (he : s.Errands) (hlock : s.shared.lock = some thread)
    {move : ClientMove W} (hother : ∀ message answers late,
      move ≠ .proceed thread message answers late) :
    Advances s (s.step k o move) thread (s.Helps thread move) := by
  obtain ⟨haside, hcalm⟩ := aside_of_held (k := k) (o := o) h hlock hother
  obtain ⟨refusals, hreturned, -⟩ := haside.told
  refine .inr ⟨haside.lock.trans hlock, starts_congr haside.busy haside.opening,
    ⟨refusals, hreturned.symm⟩, ?_⟩
  refine (work_of_calm hcalm haside.busy haside.chores).imp_right fun hstill =>
    ⟨hstill, fun hhelps => not_still_of_helps he hhelps hother hstill⟩

/-! ### The thread in charge -/

namespace Advances

variable {helped : Prop}

/-- The thread in charge goes to a place where it does not stop the session. -/
theorem go (hlock : s.shared.lock = some thread) {well : Bool}
    (hshared : s'.shared = s.shared.step (.proceed thread well)) {p q : ThreadPlace}
    (hp : s.shared.place thread = p) (hkeeps : (p.turn s.shared.ledger thread well).releases = false)
    (hq : (p.turn s.shared.ledger thread well).place = q) (hnot : p ≠ .stopping)
    (hmoves : q ≠ .stopping) (hopens : q.opens = p.opens) (hreturned : s'.returned = s.returned)
    (hwork : s.shared.busy = p → s'.shared.busy = q → s'.work < s.work ∨ Still s s' ∧ ¬helped) :
    Advances s s' thread helped := by
  have hbusy : s.shared.busy = p := (SessionRun.busy_of_lock hlock).trans hp
  have hplace : s'.shared.busy = q := by
    rw [hshared, Errands.busy_go hlock, hp, hkeeps, hq]
    rfl
  refine .inr ⟨?_, ?_, hreturned ▸ List.prefix_rfl, hwork hbusy hplace⟩
  · rw [hshared, ← hlock]
    exact if_neg (by simp [hp, hkeeps])
  · simp [Starts, hbusy, hplace, hnot, hmoves, hopens]

end Advances

/-- The thread in charge goes on with a call or a notification. -/
theorem advances_quiet (h : Coherent s) (he : s.Errands) (hlock : s.shared.lock = some thread)
    (message : Outgoing) (answers : List WriteAnswer) (late : Bool)
    (hquiet : (s.shared.place thread).isQuiet = true) (hnot : s.shared.place thread ≠ .stopping) :
    Advances s (s.proceed k o thread message answers late) thread
      (s.Helps thread (.proceed (W := W) thread message answers late)) := by
  have hbusy := SessionRun.busy_of_lock hlock
  have hholds := h.steady.lock_iff.mp hlock
  have hcalm : Calm s (s.proceed k o thread message answers late) := by
    refine .proceed k o s thread message answers late ?_
    revert hquiet
    cases s.shared.place thread <;> simp [ThreadPlace.isQuiet, ThreadPlace.isFresh]
  obtain ⟨well, writer, wire, opening, hstep, -, hwaits⟩ :=
    exists_proceed_noting k o s thread message answers late hquiet hnot
      (hbusy ▸ (he.ahead (hbusy ▸ hnot)).opening)
  obtain ⟨hkeeps, hmoves, -⟩ := ThreadPlace.turn_of_isQuiet s.shared.ledger thread well hquiet hnot
  obtain ⟨hopens, hnearer⟩ :=
    ThreadPlace.nearer_turn s.shared.ledger thread well hquiet hnot hholds
  rw [hstep] at hcalm ⊢
  refine .go hlock rfl rfl hkeeps rfl hnot hmoves hopens rfl fun hbusy hplace => ?_
  rcases hnearer with hless | ⟨hsame, hwell, purpose, id, hp⟩
  · refine .inl (work_lt_of_calm hcalm ?_)
    rw [hbusy, hplace]
    exact Nat.add_lt_add_right hless _
  · have hlate : late = false := by simpa [hwell] using hwaits purpose id hp
    refine (work_of_calm hcalm ?_ rfl).imp_right fun hstill => ⟨hstill, ?_⟩
    · rw [hbusy, hplace, hsame]
    · simp [Helps, hlate]

/-- The thread in charge launches the backend, and what runs beside the callers begins. -/
theorem advances_launch (hlock : s.shared.lock = some thread)
    (message : Outgoing) (answers : List WriteAnswer) (late : Bool)
    (hfresh : (s.shared.place thread).isFresh = true) (helped : Prop) :
    Advances s (s.proceed k o thread message answers late) thread helped := by
  have hbusy := SessionRun.busy_of_lock hlock
  unfold proceed
  cases hp : s.shared.place thread with
  | launching =>
      rw [hp] at hbusy
      have hstarts : s.Starts := .inl (by rw [hbusy]; rfl)
      show Advances s (s.launch k o thread) thread helped
      unfold launch
      split
      · exact .inl ⟨.started (.error _), hstarts, [_], rfl, List.mem_cons_self⟩
      · have hless : ∀ s' : ClientRun W, s'.shared.busy = .launched → s'.chores = s.chores →
            s'.readerWork = s.readerWork → s'.errors = s.errors → s'.work < s.work := by
          intro s' hplace hchores hreader herrors
          unfold work errorsWork
          rw [hplace, hbusy, hchores, hreader, herrors]
          exact Nat.add_lt_add_right (Nat.add_lt_add_right (Nat.add_lt_add_right (by decide) _) _) _
        have hreader : (s.shared.step (.proceed thread true)).reader = s.shared.reader :=
          SessionRun.reader_take (by simp [hp])
        exact .go (q := .launched) hlock rfl hp rfl rfl (by simp) (by simp) rfl rfl
          fun _ hplace => .inl (hless _ hplace rfl (readerWork_congr (s := s) hreader rfl) rfl)
  | launched =>
      rw [hp] at hbusy
      -- Two more have something before them now, and a thread here has enough for both.
      have hless : ∀ s' : ClientRun W, s'.shared.busy = .calling .opening → s'.chores = s.chores →
          s'.work < s.work := by
        intro s' hplace hchores
        have hreader := s'.readerWork_le
        have herrors := s'.errorsWork_le
        simp only [work, hplace, hbusy, hchores, ThreadPlace.weight]
        omega
      exact .go (q := .calling .opening) hlock rfl hp rfl rfl (by simp) (by simp) rfl rfl
        fun _ hplace => .inl (hless _ hplace rfl)
  | _ => simp [hp, ThreadPlace.isFresh] at hfresh

/-- The opening exchange is over. -/
theorem advances_settle (hlock : s.shared.lock = some thread)
    (hp : s.shared.place thread = .settling) (hcalm : Calm s (s.settle thread)) (helped : Prop) :
    Advances s (s.settle thread) thread helped := by
  have hbusy := (SessionRun.busy_of_lock hlock).trans hp
  unfold settle at hcalm ⊢
  cases hready : s.session.becomeReady with
  | ok session =>
      have hstarts : s.Starts := .inl (by rw [hbusy]; rfl)
      exact .inl ⟨.started (.ok ()), hstarts, [_], rfl, List.mem_cons_self⟩
  | error failure =>
      simp only [hready] at hcalm ⊢
      refine .go (q := .openingFailed) hlock rfl hp ?_ ?_ (by simp) (by simp) rfl rfl fun _ hplace => .inl ?_
      · simp [ThreadPlace.turn, hready]
      · simp [ThreadPlace.turn, hready]
      · refine work_lt_of_calm hcalm ?_
        rw [hbusy, hplace]
        exact Nat.add_lt_add_right (by decide) _

/-- Whoever shuts the session down finds whether someone has done so before. -/
theorem advances_turnOff (hlock : s.shared.lock = some thread) {stage : Stage}
    (hp : s.shared.place thread = .turningOff stage) (hcalm : Calm s (s.turnOff thread))
    (helped : Prop) : Advances s (s.turnOff thread) thread helped := by
  have hbusy := (SessionRun.busy_of_lock hlock).trans hp
  have hstarts : ¬s.Starts := by simp [Starts, hbusy, ThreadPlace.opens]
  unfold turnOff at hcalm ⊢
  rcases hbegins : s.session.beginShutdown with ⟨found, session⟩
  cases found with
  | fromStage found =>
      simp only [hbegins] at hcalm ⊢
      have hcloses : ∀ q : ThreadPlace,
          (if stage = .ready then .calling .closing else .ending) = q →
          q ≠ .stopping ∧ q.opens = false ∧ q.weight < 15 := by
        rintro q rfl
        split <;> simp [ThreadPlace.opens, ThreadPlace.weight]
      obtain ⟨hmoves, hopens, hless⟩ := hcloses _ rfl
      refine .go hlock rfl hp ?_ ?_ nofun hmoves hopens rfl fun _ hplace => .inl ?_
      · simp [ThreadPlace.turn, hbegins]
      · simp [ThreadPlace.turn, hbegins]
      · refine work_lt_of_calm hcalm ?_
        rw [hbusy, hplace]
        exact Nat.add_lt_add_right hless _
  | unstarted | begun =>
      exact .inl ⟨.shutDown, hstarts, [_], rfl, List.mem_cons_self⟩

/-- The thread in charge has ended the session. -/
theorem advances_terminate (he : s.Errands) (hlock : s.shared.lock = some thread) {p : ThreadPlace}
    (hp : s.shared.place thread = p) {cause : Failure} {chores : List Chore} (hnot : p ≠ .stopping)
    (hturn : p.turn s.shared.ledger thread true
      = { ledger := s.shared.ledger.terminate cause false, place := .stopping })
    (hopens : p.opens = p.isFailing) (hless : 1 + chores.length < p.weight)
    (hcalm : Calm s ({ s with chores }.go thread true)) (helped : Prop) :
    Advances s ({ s with chores }.go thread true) thread helped := by
  have hbusy := (SessionRun.busy_of_lock hlock).trans hp
  have hopening := (he.ahead (by rwa [hbusy])).opening
  have hplace : ({ s with chores }.go thread true).shared.busy = .stopping := by
    show (s.shared.step (.proceed thread true)).busy = .stopping
    rw [Errands.busy_go hlock, hp, hturn]
    rfl
  refine .inr ⟨?_, ?_, List.prefix_rfl, .inl (work_lt_of_calm hcalm ?_)⟩
  · show (s.shared.step (.proceed thread true)).lock = some thread
    rw [← hlock]
    exact if_neg (by simp [hp, hturn])
  · rw [hbusy, ← hopens] at hopening
    simp only [Starts, hplace, hbusy, ← hopening]
    simp [ThreadPlace.opens, hnot, go]
  · rw [hplace, hbusy]
    exact hless.trans_le (Nat.le_add_right _ _)

/-- Whoever stops the session does what can be done, and is told how it has ended when nothing is
left. -/
theorem advances_tidy (hlock : s.shared.lock = some thread)
    (hp : s.shared.place thread = .stopping) (hcalm : Calm s (s.tidy k o thread))
    (message : Outgoing) (answers : List WriteAnswer) (late : Bool) :
    Advances s (s.tidy k o thread) thread
      (s.Helps thread (.proceed (W := W) thread message answers late)) := by
  have hbusy := (SessionRun.busy_of_lock hlock).trans hp
  unfold tidy at hcalm ⊢
  cases hchores : s.chores with
  | nil =>
      refine .inl ⟨s.lastWord, ?_, [_], rfl, List.mem_cons_self⟩
      cases hopening : s.opening <;> simp [lastWord, Owed, Starts, hbusy, hopening, ThreadPlace.opens]
  | cons chore rest =>
      by_cases hblocked : s.Blocked chore
      · simp only [hchores, if_pos hblocked] at hcalm ⊢
        refine .inr ⟨hlock, .rfl, List.prefix_rfl, .inr ⟨.refl s, ?_⟩⟩
        rintro ⟨-, -, hreader, herrors⟩
        cases chore with
        | joinReader => exact hreader ⟨hbusy, by rw [hchores]; rfl, hblocked⟩
        | joinErrors => exact herrors ⟨hbusy, by rw [hchores]; rfl, hblocked⟩
        | _ => exact hblocked
      · simp only [hchores, if_neg hblocked] at hcalm ⊢
        have hframe : (s.perform k o chore).shared = s.shared
            ∧ (s.perform k o chore).opening = s.opening
            ∧ (s.perform k o chore).returned = s.returned := by
          cases chore <;> exact ⟨rfl, rfl, rfl⟩
        refine .inr ⟨?_, starts_congr ?_ hframe.2.1, ?_, .inl (work_lt_of_calm hcalm ?_)⟩
        · rw [hframe.1, hlock]
        · rw [hframe.1]
        · rw [hframe.2.2]
        · simp [hframe.1, hchores]

/-- **Every move brings the thread in charge nearer to its end, or does nothing to it and is no
help.** -/
theorem advances_step (h : Coherent s) (he : s.Errands) (hlock : s.shared.lock = some thread)
    (move : ClientMove W) : Advances s (s.step k o move) thread (s.Helps thread move) := by
  by_cases hother : ∀ message answers late, move ≠ .proceed thread message answers late
  case pos => exact advances_of_aside h he hlock hother
  case neg =>
    push Not at hother
    obtain ⟨message, answers, late, rfl⟩ := hother
    rw [step]
    by_cases hfresh : (s.shared.place thread).isFresh = true
    case pos => exact advances_launch hlock message answers late hfresh _
    case neg =>
      have hcalm : Calm s (s.proceed k o thread message answers late) :=
        .proceed k o s thread message answers late (by simpa using hfresh)
      by_cases hquiet : (s.shared.place thread).isQuiet = true ∧ s.shared.place thread ≠ .stopping
      case pos => exact advances_quiet h he hlock message answers late hquiet.1 hquiet.2
      case neg =>
        unfold proceed at hcalm ⊢
        cases hp : s.shared.place thread with
        | settling =>
            simp only [hp] at hcalm
            exact advances_settle hlock hp hcalm _
        | openingFailed =>
            simp only [hp] at hcalm
            exact advances_terminate he hlock hp (by simp) rfl rfl (by decide) hcalm _
        | turningOff stage =>
            simp only [hp] at hcalm
            exact advances_turnOff hlock hp hcalm _
        | ending =>
            simp only [hp] at hcalm
            exact advances_terminate he hlock hp (by simp) rfl rfl (by decide) hcalm _
        | stopping =>
            simp only [hp] at hcalm
            exact advances_tidy hlock hp hcalm message answers late
        | launching | launched => simp [hp, ThreadPlace.isFresh] at hfresh
        | _ => simp [hp, ThreadPlace.isQuiet] at hquiet

/-! ### Runs -/

theorem Still.work_eq (h : Still s s') : s'.work = s.work := by
  have herrors : s'.errorsWork = s.errorsWork := by
    unfold errorsWork
    by_cases hlogs : s.errors = .running
    · simp [hlogs, h.errors.mpr hlogs]
    · simp [hlogs, mt h.errors.mp hlogs]
  unfold work
  rw [h.busy, h.chores, readerWork_congr h.reader h.task, herrors]

/-- What somebody was told is not taken back. -/
theorem returned_step (h : Coherent s) (he : s.Errands) (move : ClientMove W) :
    s.returned <+: (s.step k o move).returned := by
  have hmoved := moved_step (k := k) (o := o) h move
  generalize hs : s.step k o move = s' at hmoved
  cases hmoved with
  | aside later haside =>
      obtain ⟨refusals, hreturned, -⟩ := haside.told
      exact ⟨refusals, hreturned.symm⟩
  | start | shutdown => exact List.prefix_rfl
  | early => exact List.prefix_append _ _
  | proceed mover holds message answers late =>
      have hadvances := advances_step (k := k) (o := o) h he holds (.proceed mover message answers late)
      rcases hadvances with ⟨reply, -, told, hreturned, -⟩ | hnearer
      · exact ⟨told, hreturned.symm⟩
      · exact hnearer.told

theorem returned_run (h : Coherent s) (he : s.Errands) (moves : List (ClientMove W)) :
    s.returned <+: (s.run k o moves).returned := by
  induction moves generalizing s with
  | nil => exact List.prefix_rfl
  | cons move rest ih =>
      exact (returned_step h he move).trans (ih (coherent_step h move) (errands_step h he move))

/-- Whoever was told something was told it in whatever comes after. -/
theorem Told.mono {reply : ClientReply} (h : Told s s' thread reply)
    (hnext : s'.returned <+: s''.returned) : Told s s'' thread reply := by
  obtain ⟨told, hreturned, hin⟩ := h
  obtain ⟨more, hmore⟩ := hnext
  exact ⟨told ++ more, by rw [← hmore, hreturned, List.append_assoc], List.mem_append_left _ hin⟩

theorem Told.of_later {reply : ClientReply} (h : Told s' s'' thread reply)
    (hbefore : s.returned <+: s'.returned) : Told s s'' thread reply := by
  obtain ⟨told, hreturned, hin⟩ := h
  obtain ⟨more, hmore⟩ := hbefore
  exact ⟨more ++ told, by rw [hreturned, ← hmore, List.append_assoc], List.mem_append_right _ hin⟩

theorem owed_congr (h : s'.Starts ↔ s.Starts) {reply : ClientReply} (howed : s'.Owed reply) :
    s.Owed reply := by
  cases reply with
  | started result => exact h.mp howed
  | shutDown => exact mt h.mpr howed
  | startRefused | refused => exact howed

/-- **A run brings the thread in charge to its end, or nearer to it, or was no help.** -/
theorem advances_run (h : Coherent s) (he : s.Errands) (hlock : s.shared.lock = some thread)
    (moves : List (ClientMove W)) :
    Advances s (s.run k o moves) thread (∃ move ∈ moves, s.Helps thread move) := by
  induction moves generalizing s with
  | nil => exact .inr ⟨hlock, .rfl, List.prefix_rfl, .inr ⟨.refl s, by simp⟩⟩
  | cons move rest ih =>
      have hnext := coherent_step (k := k) (o := o) h move
      have henext := errands_step (k := k) (o := o) h he move
      rw [run_cons]
      rcases advances_step (k := k) (o := o) h he hlock move with ⟨reply, howed, htold⟩ | hnearer
      · exact .inl ⟨reply, howed, htold.mono (returned_run hnext henext rest)⟩
      · rcases ih hnext henext hnearer.lock with ⟨reply, howed, htold⟩ | hrest
        · exact .inl ⟨reply, owed_congr hnearer.starts howed, htold.of_later hnearer.told⟩
        · refine .inr ⟨hrest.lock, hrest.starts.trans hnearer.starts,
            hnearer.told.trans hrest.told, ?_⟩
          rcases hnearer.work with hless | ⟨hstill, hnot⟩
          · left
            rcases hrest.work with hmore | ⟨hsame, -⟩
            · exact hmore.trans hless
            · rwa [hsame.work_eq]
          · rcases hrest.work with hmore | ⟨hsame, hnone⟩
            · exact .inl (hstill.work_eq ▸ hmore)
            · refine .inr ⟨hstill.trans hsame, ?_⟩
              rintro ⟨other, hother, hhelps⟩
              rcases List.mem_cons.mp hother with rfl | hin
              · exact hnot hhelps
              · exact hnone ⟨other, hin, (hstill.helps_iff other).mpr hhelps⟩

/-! ### Rounds -/

/-- Everybody has a turn: the thread, with its deadline come if it waits for a reply; the reader,
which looks whether it was asked to stop, and goes on; and the thread that logs errors, which does
the same. -/
structure FairRound (thread : Nat) (round : List (ClientMove W)) : Prop where
  thread : ∃ message answers, .proceed thread message answers true ∈ round
  stream : .fails (.stream .stopped) ∈ round
  reader : .readerGoesOn ∈ round
  errors : .errorsEnd true ∈ round

/-- In a fair round there is a move that helps, whoever is waited for. -/
theorem FairRound.helps {round : List (ClientMove W)} (h : FairRound thread round)
    (s : ClientRun W) : ∃ move ∈ round, s.Helps thread move := by
  by_cases hreader : s.AwaitsReader
  · by_cases hreading : s.shared.reader = .reading
    · exact ⟨_, h.stream, hreader, hreading⟩
    · exact ⟨_, h.reader, hreader, hreading⟩
  · by_cases herrors : s.AwaitsErrors
    · exact ⟨_, h.errors, herrors⟩
    · obtain ⟨message, answers, hin⟩ := h.thread
      exact ⟨_, hin, rfl, rfl, hreader, herrors⟩

theorem weight_pos {p : ThreadPlace} (h : p.holdsLock = true) : 0 < p.weight := by
  cases p <;> simp [ThreadPlace.weight, ThreadPlace.holdsLock] at h ⊢

/-- **After as many fair rounds as there is work, the thread in charge has been told how it has
ended.** -/
theorem told_of_rounds (h : Coherent s) (he : s.Errands) (hlock : s.shared.lock = some thread)
    {rounds : List (List (ClientMove W))} (hfair : ∀ round ∈ rounds, FairRound thread round)
    (hmany : s.work ≤ rounds.length) :
    ∃ reply, s.Owed reply ∧ Told s (s.run k o rounds.flatten) thread reply := by
  induction rounds generalizing s with
  | nil =>
      have hpos : 0 < s.shared.busy.weight := by
        rw [SessionRun.busy_of_lock hlock]
        exact weight_pos (h.steady.lock_iff.mp hlock)
      unfold work at hmany
      simp only [List.length_nil] at hmany
      omega
  | cons round rest ih =>
      have hnext := coherent_run (k := k) (o := o) h round
      have henext := errands_run (k := k) (o := o) h he round
      rw [List.flatten_cons, run_append]
      rcases advances_run (k := k) (o := o) h he hlock round with ⟨reply, howed, htold⟩ | hnearer
      · exact ⟨reply, howed, htold.mono (returned_run hnext henext _)⟩
      · have hless : (s.run k o round).work < s.work :=
          hnearer.work.resolve_right fun hc => hc.2 ((hfair round List.mem_cons_self).helps s)
        obtain ⟨reply, howed, htold⟩ := ih hnext henext hnearer.lock
          (fun other hother => hfair other (List.mem_cons_of_mem _ hother))
          (by rw [List.length_cons] at hmany; omega)
        exact ⟨reply, owed_congr hnearer.starts howed, htold.of_later hnearer.told⟩

/-! ### Starting and shutting down -/

/-- Whoever begins to shut a session down is told when that was done. -/
theorem told_of_shutdown (h : Coherent s) (he : s.Errands)
    (hidle : s.shared.place thread = .idle) (hfree : s.shared.lock = none)
    {rounds : List (List (ClientMove W))} (hfair : ∀ round ∈ rounds, FairRound thread round)
    (hmany : 21 ≤ rounds.length) :
    Told s ((s.step k o (.shutdown thread)).run k o rounds.flatten) thread .shutDown := by
  have hnext := coherent_step (k := k) (o := o) h (.shutdown thread)
  have henext := errands_step (k := k) (o := o) h he (.shutdown thread)
  by_cases hfresh : s.session.stage = .unstarted
  case pos =>
    have hreturned : (s.step k o (.shutdown thread)).returned
        = s.returned ++ [(thread, .shutDown)] := by
      simp only [step, if_pos (And.intro hidle hfree), if_pos hfresh]
      rfl
    have htold : Told s (s.step k o (.shutdown thread)) thread .shutDown :=
      ⟨_, hreturned, List.mem_cons_self⟩
    exact htold.mono (returned_run hnext henext _)
  case neg =>
    have hstep : s.step k o (.shutdown thread)
        = s.entered thread (.turningOff s.session.stage) := by
      simp only [step, if_pos (And.intro hidle hfree), if_neg hfresh, SessionRun.step, entered]
    rw [hstep] at hnext henext ⊢
    have hchores := (he.ahead (by simp [SessionRun.busy_of_free hfree])).chores
    have hwork : (s.entered thread (.turningOff s.session.stage)).work ≤ 21 := by
      have hreader := (s.entered thread (.turningOff s.session.stage)).readerWork_le
      have herrors := (s.entered thread (.turningOff s.session.stage)).errorsWork_le
      have hnone : (s.entered thread (.turningOff s.session.stage)).chores = [] := hchores
      simp only [work, busy_entered, hnone, ThreadPlace.weight, List.length_nil]
      omega
    obtain ⟨reply, howed, htold⟩ := told_of_rounds (k := k) (o := o) hnext henext rfl hfair
      (hwork.trans hmany)
    have hstarts : ¬(s.entered thread (.turningOff s.session.stage)).Starts := by
      simp [Starts, busy_entered, ThreadPlace.opens]
    cases reply with
    | started result => exact absurd howed hstarts
    | shutDown => exact htold
    | startRefused | refused => exact absurd howed id

end ClientRun

end AnalyzerBridge

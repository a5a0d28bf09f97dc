/-
A child is killed only when its grace is over.

Watching a child is bounded by a number of looks, so that it ends under any kernel.  Under one
that keeps time it is the clock that ends it: a pause lets time pass, and the looks are as many as
can be needed until the moment has come.
-/
import AnalyzerBridge.Supervisor

namespace AnalyzerBridge

open Host (Kernel World pauseLength)

variable {W : Type} {α β : Type} {time : W → Nat}

/-- Begun at a moment or later, the code ends with a result and at a time as stated. -/
def Ends (time : W → Nat) (start : Nat) (act : StateM W α) (P : α → Nat → Prop) : Prop :=
  ∀ w, start ≤ time w → P (act w).1 (time (act w).2)

/-- The code takes no time back. -/
def Forward (time : W → Nat) (act : StateM W α) : Prop :=
  ∀ start, Ends time start act fun _ now => start ≤ now

namespace Ends

variable {start : Nat} {act : StateM W α} {P : α → Nat → Prop} {f : α → StateM W β}
  {Q : β → Nat → Prop}

protected theorem pure {a : α} (h : ∀ now, start ≤ now → P a now) :
    Ends time start (pure a) P := by
  intro w hw
  exact h (time w) hw

protected theorem bind (h : Ends time start act P)
    (hf : ∀ a now, P a now → Ends time now (f a) Q) : Ends time start (act >>= f) Q := by
  intro w hw
  exact hf _ _ (h w hw) _ (Nat.le_refl _)

theorem mono {P' : α → Nat → Prop} (h : Ends time start act P)
    (himp : ∀ a now, P a now → P' a now) : Ends time start act P' := by
  intro w hw
  exact himp _ _ (h w hw)

end Ends

/-- Code that takes no time back, and what comes behind it. -/
theorem Forward.bind {start : Nat} {act : StateM W α} {f : α → StateM W β} {Q : β → Nat → Prop}
    (h : Forward time act) (hf : ∀ a now, start ≤ now → Ends time now (f a) Q) :
    Ends time start (act >>= f) Q :=
  (h start).bind hf

/-- The clock of a kernel shows the time, which never goes back, and a pause takes its time. -/
structure KeepsTime (k : Kernel W) (time : W → Nat) : Prop where
  clock : ∀ start, Ends time start k.clock fun shown now => now = shown ∧ start ≤ now
  poll : ∀ pid, Forward time (k.poll pid)
  await : ∀ pid, Forward time (k.await pid)
  signal : ∀ pid signal, Forward time (k.signal pid signal)
  note : ∀ line, Forward time (k.note line)
  pause : ∀ start, Ends time start k.pause fun _ now => start + pauseLength ≤ now

/-! ### The world of the bridge -/

/-- Code that does something to a child at most if it is there and was not collected. -/
theorem now_le_of_child {w : World} {missing reaped : α} {act : Host.Child → StateM World α}
    (hact : ∀ c, w.now ≤ (act c w).2.now) (child : Option Host.Child) :
    w.now ≤ ((match child with
      | none => pure missing
      | some c => if c.reaped then pure reaped else act c : StateM World α) w).2.now := by
  cases child with
  | none => exact Nat.le_refl _
  | some c =>
      by_cases hreaped : c.reaped = true
      · simp only [hreaped, if_true]
        exact Nat.le_refl _
      · simp only [hreaped]
        exact hact c

theorem forward_poll (pid : Nat) : Forward World.now (World.poll pid) := by
  intro start w hw
  refine Nat.le_trans hw (now_le_of_child (fun c => ?_) (w.child? pid))
  cases w.collectable c with
  | none => exact Nat.le_refl _
  | some status => exact Nat.le_refl _

theorem forward_await (pid : Nat) : Forward World.now (World.await pid) := by
  intro start w hw
  refine Nat.le_trans hw (now_le_of_child (fun c => ?_) (w.child? pid))
  cases c.life.ended with
  | none => exact Nat.le_refl _
  | some ended => exact Nat.le_max_left _ _

theorem forward_signal (pid : Nat) (signal : Host.Signal) :
    Forward World.now (World.signal pid signal) := by
  intro start w hw
  simp only [World.signal, bind, StateT.bind, get, getThe, MonadStateOf.get, StateT.get, pure]
  cases w.child? pid with
  | none => exact hw
  | some c =>
      by_cases hreaped : c.reaped = true
      · simp only [hreaped, if_true]
        exact hw
      · simp only [hreaped]
        exact hw

theorem forward_modify {f : World → World} (h : ∀ w, w.now ≤ (f w).now) :
    Forward World.now (modify f) := by
  intro start w hw
  exact Nat.le_trans hw (h w)

theorem forward_append (path text : Bytes) : Forward World.now (World.append path text) := by
  refine forward_modify fun w => ?_
  split <;> exact Nat.le_refl _

theorem forward_note (line : Bytes) : Forward World.now (World.note line) := by
  intro start w hw
  simp only [World.note, bind, StateT.bind, get, getThe, MonadStateOf.get, StateT.get, pure]
  cases (w.route.write w.disk.canAppend line).2 with
  | none => exact hw
  | some written => exact forward_append written.1 written.2 start _ hw

/-- The world of the bridge keeps time. -/
theorem kernel_keepsTime : KeepsTime World.kernel World.now where
  clock := by
    intro start w hw
    exact ⟨rfl, hw⟩
  poll := forward_poll
  await := forward_await
  signal := forward_signal
  note := forward_note
  pause := by
    intro start w hw
    exact Nat.add_le_add_right hw _

namespace Supervisor

variable {k : Kernel W}

theorem forward_reap (hk : KeepsTime k time) (s : Supervisor) : Forward time (s.reap k) := by
  intro start
  unfold reap
  cases hchild : s.child with
  | none => exact .pure fun _ h => h
  | some c =>
      by_cases hdead : c.dead = true
      · simp only [hdead, if_true]
        exact .pure fun _ h => h
      · simp only [hdead]
        refine (hk.poll c.pid).bind fun report polled hpolled => ?_
        cases report with
        | running => exact .pure fun now h => by omega
        | ended status =>
            exact (hk.note _).bind fun _ noted hnoted => .pure fun now h => by omega
        | gone => exact .pure fun now h => by omega

theorem forward_awaitEnd (hk : KeepsTime k time) (s : Supervisor) (pid : Nat) :
    Forward time (s.awaitEnd k pid) := by
  intro start
  unfold awaitEnd
  refine (hk.await pid).bind fun status awaited hawaited => ?_
  cases status with
  | none => exact .pure fun now h => by omega
  | some status => exact (hk.note _).bind fun _ noted hnoted => .pure fun now h => by omega

/-- A watch takes no time back, and is given up only when its moment has come, if there are looks
enough up to then. -/
theorem ends_watch (hk : KeepsTime k time) {deadline : Nat} (n : Nat) :
    ∀ (s : Supervisor) (start : Nat), deadline ≤ start + n * pauseLength →
      Ends time start (s.watch k deadline n) fun done now =>
        start ≤ now ∧ (done.1 = false → deadline ≤ now) := by
  -- the looks that are left always reach up to the moment: each goes with a pause
  induction n with
  | zero =>
      intro s start hlooks
      exact .pure fun now h => ⟨h, fun _ => by omega⟩
  | succ n ih =>
      intro s start hlooks
      unfold watch
      refine (forward_reap hk s).bind ?_
      rintro ⟨dead, s'⟩ looked hlooked
      cases dead with
      | true => exact .pure fun now h => ⟨Nat.le_trans hlooked h, by simp⟩
      | false =>
          refine (hk.clock looked).bind ?_
          rintro _ now ⟨rfl, hnow⟩
          by_cases hover : deadline ≤ now
          · simp only [hover, if_true]
            exact .pure fun later h => ⟨by omega, fun _ => Nat.le_trans hover h⟩
          · simp only [hover, if_false]
            refine (hk.pause now).bind fun _ later hlater => ?_
            have hleft : deadline ≤ later + n * pauseLength := by
              rw [Nat.succ_mul] at hlooks
              omega
            refine (ih s' later hleft).mono ?_
            rintro done ended ⟨hforward, hlate⟩
            exact ⟨by omega, hlate⟩

/-- The looks for a grace are enough for all of it. -/
theorem later_le_looks {start begun span grace : Nat} (hbegun : begun ≤ start)
    (hspan : span ≤ grace) : later begun span ≤ start + looks grace * pauseLength := by
  show begun + span * 1000 ≤ start + (grace / 10 + 2) * 10000
  omega

/-- **A child is killed only when its grace is over.** -/
theorem grace_over_of_killed (hk : KeepsTime k time) (s : Supervisor) (grace start : Nat) :
    Ends time start (s.terminate k grace) fun done now =>
      done.1 = false → start + grace * 1000 ≤ now := by
  unfold terminate
  cases hchild : s.child with
  | none => exact .pure fun _ _ => by simp
  | some c =>
      by_cases hdead : c.dead = true
      · simp only [hdead, if_true]
        exact .pure fun _ _ => by simp
      · simp only [hdead]
        refine (hk.clock start).bind ?_
        rintro _ begun ⟨rfl, hbegun⟩
        have hhalf := later_le_looks (Nat.le_refl begun) (Nat.div_le_self grace 2)
        refine (ends_watch hk (looks grace) s begun hhalf).bind ?_
        rintro ⟨dead, s₁⟩ waited ⟨hwaited, -⟩
        cases dead with
        | true => exact .pure fun _ _ => by simp
        | false =>
            refine (hk.note _).bind fun _ noted hnoted => ?_
            refine (hk.signal c.pid _).bind fun _ asked hasked => ?_
            have hpast : begun ≤ asked := by omega
            have hwhole := later_le_looks hpast (Nat.le_refl grace)
            refine (ends_watch hk (looks grace) s₁ asked hwhole).bind ?_
            rintro ⟨dead, s₂⟩ passed ⟨hpassed, hlate⟩
            cases dead with
            | true => exact .pure fun _ _ => by simp
            | false =>
                have hgrace : begun + grace * 1000 ≤ passed := hlate rfl
                refine (hk.note _).bind fun _ _ _ => (hk.signal c.pid _).bind fun _ _ _ => ?_
                refine (forward_awaitEnd hk s₂ c.pid).bind fun _ _ _ => .pure fun now _ _ => ?_
                omega

end Supervisor

end AnalyzerBridge

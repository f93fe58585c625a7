import Gthread.Sched.KernelLocks
import Gthread.Sched.KernelParks

/-! The preempt flags of all tasks, over every run of the kernel thread and its waiters. -/

namespace Gthread

open Function (update update_of_ne update_self)

namespace Kernel

open Lot (claimsAt waitsAt takesAt)

variable {k k' : Kernel} {l : KernelLabel} {clock : Clock} {b host : Addr} {tick : Int}
  {maxSize : Nat}

/-- Handles are used linearly, no trap takes a spawner off a new stack, and no exchange is stale. -/
def Undisturbed (k : Kernel) : KernelLabel → Prop
  | .sched l => k.toSys.Linear l ∧ k.toSys.Undisturbed l
  | .enter _ _ => True
  | .wait _ _ => k.stale = false

instance (k : Kernel) : (l : KernelLabel) → Decidable (k.Undisturbed l)
  | .sched _ => inferInstanceAs (Decidable (_ ∧ _))
  | .enter _ _ => .isTrue trivial
  | .wait _ _ => inferInstanceAs (Decidable (_ = _))

/-- A step of the scheduler's interface keeps the invariant. -/
theorem Parks.sched {l : Label} (parks : k.Parks host) (linear : k.toSys.Linear l)
    (undisturbed : k.toSys.Undisturbed l) (scheduled : k.Scheduled l k') : k'.Parks host := by
  have ordered := parks.ordered.step linear undisturbed scheduled.step
  -- A task that makes a call is inside no waiter.
  have uncalled : ∀ {b}, k.inside b ≠ none → b = k.cur → ∀ c clock, l ≠ .call c clock := by
    rintro b inside rfl c clock rfl
    exact inside (scheduled.outside rfl)
  have awake : (k'.tasks k'.cur).runState = .waiting →
      k'.pc.base.pauses = true ∨ k.inside k'.cur ≠ none := by
    intro waiting
    have before : (k.tasks k.cur).runState = .waiting → k.pc.base.pauses = true ∨
        (k.pc.base = .user ∧ ∀ c clock, l ≠ .call c clock) := by
      intro slept
      exact (parks.awake slept).imp_right fun inside =>
        ⟨parks.base inside, uncalled inside rfl⟩
    rcases parks.ordered.paused linear before scheduled.step waiting
      with pauses | ⟨cur, user, slept⟩
    · exact .inl pauses
    · rcases parks.awake slept with pauses | inside
      · rw [user] at pauses
        cases pauses
      · exact .inr (cur ▸ inside)
  have beside := parks.beside ordered awake fun b inside =>
    parks.ordered.spared ordered linear (uncalled inside) (parks.free b inside) scheduled.step
  have shape : k' = { k with toSys := k'.toSys } := by
    obtain ⟨s, spin, waiter, inside⟩ := k'
    obtain rfl : spin = k.spinLock := scheduled.spinLock
    obtain rfl : waiter = k.waiter := scheduled.waiter
    obtain rfl : inside = k.inside := parks.inside_of_sched scheduled
    rfl
  rw [shape]
  exact beside

/-- Every step keeps the invariant, while handles and exchanges are in order. -/
theorem Parks.step (parks : k.Parks host) (undisturbed : k.Undisturbed l) (ok : k.step l = .ok k') :
    k'.Parks host := by
  cases l with
  | sched l => exact parks.sched undisturbed.1 undisturbed.2 (sched_ok ok)
  | enter w c =>
    simp only [Kernel.step] at ok
    split at ok
    · rename_i free
      rw [← Except.ok.inj ok]
      refine parks.local (some (w, c.pc)) parks.ordered rfl rfl (fun _ _ => rfl) (fun _ => id)
        (by rw [free.1]; rfl) rfl (fun _ _ _ => id) (fun m stood => ?_) (fun waiting => ?_)
        (fun m q took => by cases c <;> cases took)
      · obtain ⟨pc, inside⟩ := parks.inside_of_slot stood
        rw [free.2] at inside
        cases inside
      · rcases parks.awake waiting with pauses | inside
        · rw [free.1] at pauses
          cases pauses
        · exact absurd free.2 inside
    · cases ok
  | wait clock holds =>
    simp only [Kernel.step] at ok
    split at ok
    · rename_i at_
      split at ok
      · cases ok
      · rename_i w pc here
        exact parks.wait at_ here undisturbed ok
    · cases ok

/-- Nobody is inside a waiter right after `start_async`. -/
theorem parks_boot (host : Addr) (tick : Int) (maxSize : Nat) :
    (boot host tick maxSize).Parks host where
  ordered := ⟨Sys.inOrder_start False host tick maxSize, Sys.named_start host tick maxSize,
    Sys.starting_start host tick maxSize, Sys.balanced_start host tick maxSize⟩
  free b inside := absurd rfl inside
  home w q stands := by cases stands
  asleep q inside := absurd rfl inside
  awake waiting := by
    have running : ((boot host tick maxSize).tasks host).runState = .running := by
      simp [boot, Sys.start, Node.startAsync, Task.wrapCurrent]
    rw [show (boot host tick maxSize).cur = host from rfl, running] at waiting
    cases waiting
  taken b w q took := by cases took
  unique b b' w w' q took := by cases took

/-- The preempt flags of all tasks are set where they have to be, and by their tasks alone. -/
structure FlagDiscipline (host : Addr) (k : Kernel) : Prop where
  -- The assertions of `preempt_mutex::lock` and `preempt_mutex::unlock` hold, whatever comes next.
  asserts : ∀ l, k.step l ≠ .error (.assertion "succ")
  -- A task that was switched away from has its flag set, and one that never ran has it clear.
  away : ∀ b, b ≠ k.cur → (b = host ∨ (k.tasks b).scheduled = true) →
    (k.tasks b).Left ∨ (k.tasks b).Unrun
  left : ∀ l k', k.step l = .ok k' → k'.cur ≠ k.cur → (k'.tasks k.cur).Left
  -- Of the blocks of other tasks, a step writes to the flag of one that it resets.
  alone : ∀ l k' b, k.step l = .ok k' → b ≠ k.cur → k.mapped b = true →
    (∀ entry arg h, k.pc ≠ .makeFound b entry arg h) →
    (k'.tasks b).noPreemptFlag = (k.tasks b).noPreemptFlag

/-- The unlock at the end of a critical section fails where the flag is clear. -/
theorem unlock_fails {p : Pc} (at_ : k.pc = .unlock p) (clear : k.flag = false) :
    k.step (.sched (.run Sys.stillClock 0)) = .error (.assertion "succ") := by
  simp [Kernel.step, Kernel.sched, stepSys, Sys.entersNode, at_, Sys.step, Sys.run, Node.unlock,
    clear, Label.isCall, Bind.bind, Except.bind]

/-- Handles are linear, no start is disturbed, and only the host enters `unpark` or `swap`. -/
def SoleWaker (host : Addr) (k : Kernel) : KernelLabel → Prop
  | .sched l => k.toSys.Linear l ∧ k.toSys.Undisturbed l
  | .enter _ c => c = .parkIf ∨ k.cur = host
  | .wait _ _ => True

instance (host : Addr) (k : Kernel) : (l : KernelLabel) → Decidable (k.SoleWaker host l)
  | .sched _ => inferInstanceAs (Decidable (_ ∧ _))
  | .enter _ _ => inferInstanceAs (Decidable (_ ∨ _))
  | .wait _ _ => .isTrue trivial

/-- The kernel thread goes on after a switch. -/
private def resumed : KernelLabel := .sched (.run Sys.stillClock 0)

/-- A trap that charges the running task up to a time, and another task that goes on. -/
private def passOn (now : Int) : List KernelLabel := [.sched (.trap (Sys.clockAt now)), resumed]

/-- A statement of a waiter, where `check_thunk` returns false. -/
private def waits : KernelLabel := .wait Sys.stillClock false

/-- A call of the scheduler's interface, whose caller is charged up to a time. -/
private def calls (c : Call) (now : Int) : KernelLabel := .sched (.call c (Sys.clockAt now))

/--
The host swaps to a task that has left the waiter, waited elsewhere, and claimed the waiter again.

The task is on the runqueue then, and stays there while it runs.
It finishes, is joined, and its block is prepared for the next task when it is taken off the queue.
-/
def staleSwapLabels : List KernelLabel :=
  List.flatten [(Sys.spawnInto kLightAttr 0 1).map .sched, passOn 5000,
    [.enter 0 .parkIf, waits], passOn 20000, (Sys.spawnInto kLightAttr 1 2).map .sched,
    [.enter 0 .swap, waits], passOn 40000, passOn 60000,
    [waits, waits, calls (.join 1 true) 60000, .sched (.run (Sys.clockAt 70000) 0), resumed],
    -- The host finds the task waiting, but in `join`.
    waits :: passOn 80000, calls (.exit 5) 90000 :: List.replicate 5 resumed,
    [.enter 0 .parkIf, waits], passOn 120000,
    [waits, .wait (Sys.clockAt 140000) false, resumed, waits, waits],
    (Sys.spawnInto kLightAttr 1 3).map .sched, [calls (.exit 5) 150000, resumed],
    calls (.join 0 true) 150000 :: List.replicate 4 resumed,
    [calls (.spawn ⟨⟨none, totalStackSize kLightAttr, sizeMax⟩, false⟩ (some 7) 0 2) 150000,
      resumed, resumed, .sched (.trap (Sys.clockAt 190000))]]

/-- A stale exchange breaks the discipline too, even with one task that wakes others. -/
theorem stale_swap_unlocks_clear : ∃ k,
    Run.Reaches step (SoleWaker 0) (boot 0 0 4) k ∧ ¬ k.FlagDiscipline 0 := by
  have run : ∃ k, Run.Reaches step (SoleWaker 0) (boot 0 0 4) k ∧
      k.pc = .unlock .exited ∧ k.flag = false :=
    Run.Reaches.of_check staleSwapLabels (by decide +kernel)
  obtain ⟨k, reached, at_, clear⟩ := run
  refine ⟨k, reached, fun discipline => discipline.asserts (.sched (.run Sys.stillClock 0)) ?_⟩
  exact unlock_fails at_ clear

/-- Handles are used linearly, and no waiter is used at all. -/
def Unshared (k : Kernel) : KernelLabel → Prop
  | .sched l => k.toSys.Linear l
  | _ => False

instance (k : Kernel) : (l : KernelLabel) → Decidable (k.Unshared l)
  | .sched l => inferInstanceAs (Decidable (k.toSys.Linear l))
  | .enter _ _ | .wait _ _ => .isFalse id

/-- The host is preempted on the stack of its second task, and comes back to it. -/
def preemptedStartLabels : List KernelLabel :=
  (Sys.preemptedStartLabels ++ [Label.run Sys.stillClock 0]).map KernelLabel.sched

end Kernel

end Gthread

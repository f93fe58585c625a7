import Gthread.Sched.KernelJoins
import Gthread.Sched.KernelLocks
import Gthread.Sched.SchedSafe

/-! What can go wrong on the kernel thread: an exit of the root task, and a deadlock. -/

namespace Gthread

open Function (update update_of_ne update_self)

namespace Sys

variable {s s' : Sys} {phase : Addr → Phase} {p : Pc} {b host : Addr} {tick : Int} {maxSize : Nat}

/-- Nobody becomes known by a statement of a waiter. -/
theorem Aside.known_of (aside : s.Aside host phase s') (known : s'.Known host b) :
    s.Known host b := by
  refine ⟨?_, fun ended => known.going ((aside.stopped b).mpr ended)⟩
  rcases known.known with same | scheduled
  · exact .inl same
  · exact aside.known b scheduled

/-- What the spawns have made is left alone by a statement of a waiter. -/
theorem Aside.builds (aside : s.Aside host phase s') (builds : s.Builds host) :
    s'.Builds host := by
  refine ⟨fun h o works => ?_, fun b known => ?_⟩
  · rw [aside.busy] at works
    have built := builds.calls h o works
    rw [aside.at_ o]
    cases at_ : s.at_ o with
    | made t entry arg h' =>
      rw [at_] at built
      exact (aside.stopped t).mpr built
    | startOnNew t h' | startBack t h' | started t h' =>
      rw [at_] at built
      exact (aside.entry t).trans_ne built
    | _ => trivial
  · rw [aside.entry b]
    exact builds.entry b (aside.known_of known)

/-- And so are the statements that the tasks are at. -/
theorem Aside.alive (aside : s.Aside host phase s') (alive : s.Alive host) : s'.Alive host := by
  intro b known
  rw [aside.at_ b]
  exact alive b (aside.known_of known)

/-- A swap with another task goes on at it. -/
theorem swapTo_total {q : Addr} (clear : s.flag = false) (other : q ≠ s.cur) (clock : Clock) :
    ∃ s', s.swapTo q clock = .ok s' := by
  have locked : s.lock = .ok (s.setFlag true) := by simp [Node.lock, clear]
  obtain ⟨n, ok⟩ : ∃ n, ((s.setFlag true).modify (s.setFlag true).cur
      (Task.setState .waiting)).switchTo clock.charged q (.unlock .user) = .ok n := by
    simp only [Node.switchTo, Node.switchTask]
    exact ⟨_, if_neg other⟩
  refine ⟨{ s with toNode := n }, ?_⟩
  simp only [swapTo, locked, ok, Bind.bind, Except.bind, pure, Except.pure]

/-- A wake with the preempt mutex free queues its task. -/
theorem wake_total (clear : s.flag = false) (q : Addr) : ∃ s', s.wake q = .ok s' := by
  simp only [wake, clear]
  exact ⟨_, rfl⟩

end Sys

namespace Kernel

open Lot (takesAt)

variable {k k' : Kernel} {l : KernelLabel} {clock : Clock} {w : WaiterId} {pc : WaiterPc Addr}
  {host : Addr} {tick : Int} {maxSize : Nat}

/-- What the statements of the library rely on, in a system whose tasks may sleep in waiters. -/
structure Sound (host : Addr) (k : Kernel) : Prop where
  joint : k.Joint host
  builds : k.toSys.Builds host
  alive : k.toSys.Alive host

/-- Every step keeps it, while no exchange is stale. -/
theorem Sound.step (sound : k.Sound host) (undisturbed : k.Undisturbed l)
    (ok : k.step l = .ok k') : k'.Sound host := by
  obtain ⟨joint, builds, alive⟩ := sound
  have parks := joint.complete.parks
  obtain ⟨phase, inv⟩ := parks.ordered.order
  have kept := joint.step undisturbed ok
  rcases parks.steps inv undisturbed ok with ⟨m, linear, steps, -⟩ | ⟨-, aside⟩
  · exact ⟨kept, builds.step parks.ordered linear steps, alive.step parks.ordered linear steps⟩
  · exact ⟨kept, aside.builds builds, aside.alive alive⟩

/-- Whether the kernel thread can take a step. -/
def Enabled (k : Kernel) : KernelLabel → Prop
  -- A task that is inside a waiter makes no other call.
  | .sched l => k.toSys.Enabled l ∧ (l.isCall = true → k.inside k.cur = none)
  | .enter _ _ => k.pc = .user ∧ k.inside k.cur = none
  | .wait _ _ => k.pc = .user ∧ k.inside k.cur ≠ none

/-- No task can run once the running one has given up the processor. -/
structure Deadlocked (host : Addr) (k : Kernel) (l : KernelLabel) : Prop where
  empty : k.rq.runqueue = []
  -- The running task ends, and nobody joins it, or it waits itself.
  last : ((∃ value clock, l = .sched (.call (.exit value) clock)) ∧
      (k.tasks k.cur).joiner = none) ∨ k.toSys.Joined k.cur ∨
    ∃ w, k.inside k.cur = some (w, .yield) ∧ k.waiter w = some k.cur
  -- So do all the others, each in a join or in a waiter.
  others : ∀ b, k.toSys.Known host b → b ≠ k.cur → k.At b .joining ∨ k.At b .parked

/-- What comes of a step that the kernel thread can take. -/
inductive Comes (host : Addr) (k : Kernel) (l : KernelLabel) : Prop
  | goes {k' : Kernel} (ok : k.step l = .ok k')
  | root {value : Nat} {clock : Clock} (exits : l = .sched (.call (.exit value) clock))
      (root : k.cur = host) (failed : k.step l = .error (.fatal "cannot exit from the root task!"))
  | stuck (dead : k.Deadlocked host l)
      (failed : k.step l = .error (.fatal "nothing to do. deadlock?"))

/-- A task that has taken another one out of its slot does not sleep, and is in no join. -/
theorem Parks.takes_awake {b q : Addr} (parks : k.Parks host)
    (took : takesAt (k.inside b) = some (w, q)) : ¬ k.Sleeps b ∧ ¬ k.toSys.Joined b := by
  have inside : k.inside b ≠ none := by
    intro out
    rw [out] at took
    cases took
  refine ⟨fun asleep => ?_, parks.unjoined inside⟩
  obtain ⟨⟨m, waits⟩, -⟩ := parks.asleep b inside asleep.2
  rw [(Lot.waitsAt_excludes waits).2] at took
  cases took

/-- If nobody is queued, and the running task ends or waits, then all tasks are stuck. -/
theorem Complete.deadlocked (complete : k.Complete True host) (empty : k.rq.runqueue = [])
    (last : ((∃ value clock, l = .sched (.call (.exit value) clock)) ∧
        (k.tasks k.cur).joiner = none ∧ k.inside k.cur = none) ∨
      k.toSys.Joined k.cur ∨ k.Sleeps k.cur) : k.Deadlocked host l := by
  have parks := complete.parks
  -- The running task has taken nobody out of a slot.
  have nobody : ∀ w q, takesAt (k.inside k.cur) ≠ some (w, q) := by
    intro w q took
    rcases last with ⟨-, -, outside⟩ | joined | asleep
    · rw [outside] at took
      cases took
    · exact (parks.takes_awake took).2 joined
    · exact (parks.takes_awake took).1 asleep
  refine ⟨empty, ?_, fun b known other => ?_⟩
  · refine last.imp (fun exits => ⟨exits.1, exits.2.1⟩) (Or.imp_right fun asleep => ?_)
    obtain ⟨-, -, yields⟩ := parks.asleep k.cur asleep.1 asleep.2
    obtain ⟨w, inside⟩ := yields rfl
    rcases complete.held.found k.cur asleep.1 asleep.2 with ⟨m, stands⟩ | ⟨c, m, took⟩
    · obtain ⟨pc, there⟩ := parks.inside_of_slot stands
      rw [inside] at there
      obtain rfl := (Prod.mk.inj (Option.some.inj there)).1
      exact ⟨w, inside, stands⟩
    · exact absurd rfl (parks.taken c m k.cur took).2.2.1
  · obtain ⟨spot, there, -⟩ := complete.conserves.spots b known
    cases spot with
    | running => exact absurd there other
    | queued =>
      have once : k.rq.runqueue.count (some b) = 1 := there
      rw [empty] at once
      cases once
    | joining => exact .inl there
    | parked => exact .inr there
    | taken =>
      -- Whoever has taken it would be queued, or running.
      obtain ⟨-, -, c, ⟨w, took⟩, -⟩ := there
      have inside : k.inside c ≠ none := by
        intro out
        rw [out] at took
        cases took
      obtain ⟨unsleeping, unjoined⟩ := parks.takes_awake took
      have free := parks.free c inside
      rcases complete.placed trivial c ⟨free.known, free.going⟩
        with ((same | queued) | joined) | asleep
      · exact absurd took (same ▸ nobody w b)
      · rw [empty] at queued
        cases queued
      · exact absurd joined unjoined
      · exact absurd asleep unsleeping

/-- A running task that is not running, and not about to be, waits in a join or in a waiter. -/
theorem Complete.waits {strict : Prop} (complete : k.Complete strict host)
    (waits : (k.tasks k.cur).runState ≠ .running) (begun : k.pc.base ≠ .prologue) :
    k.toSys.Joined k.cur ∨ k.Sleeps k.cur := by
  rcases complete.returns with (running | begins | joined) | asleep
  · exact absurd running waits
  · exact absurd begins begun
  · exact .inl joined
  · exact .inr asleep

/-- A statement of a waiter comes to an end, unless its yield leaves nobody to go on. -/
theorem Complete.comes_of_wait (clock : Clock) (holds : Bool)
    (complete : k.Complete True host) (locks : k.Locks) (at_ : k.pc = .user)
    (here : k.inside k.cur = some (w, pc)) :
    (∃ k', k.wait w pc clock holds = .ok k') ∨ (k.Deadlocked host (.wait clock holds) ∧
      k.wait w pc clock holds = .error (.fatal "nothing to do. deadlock?")) := by
  have parks := complete.parks
  obtain ⟨phase, inv⟩ := parks.ordered.order
  have clear := parks.ordered.balanced.clear at_ rfl
  have free := locks.guarded.free (by rw [at_]; rfl)
  cases pc with
  | claim =>
    simp only [Kernel.wait]
    split <;> exact .inl ⟨_, rfl⟩
  | load | swapLoad =>
    simp only [Kernel.wait]
    split <;> exact .inl ⟨_, rfl⟩
  | state q | cas q | swapState q | swapCas q =>
    simp only [Kernel.wait]
    split <;> exact .inl ⟨_, rfl⟩
  | check | release | mark | parked | swapped => exact .inl ⟨_, rfl⟩
  | yield =>
    have through := throughNode_eq (k := k.advance w .parked) locks.spin
      fun s => s.yieldLocked clock .user
    rcases Sys.comes_of_yieldLocked inv clear (.inr free) clock .user
      with ⟨s', ok⟩ | ⟨empty, waits, failed⟩
    · have ok : (k.advance w .parked).toSys.yieldLocked clock .user = .ok s' := ok
      simp only [ok] at through
      exact .inl ⟨_, through⟩
    · have failed : (k.advance w .parked).toSys.yieldLocked clock .user =
          .error (.fatal "nothing to do. deadlock?") := failed
      simp only [failed] at through
      refine .inr ⟨complete.deadlocked empty (.inr ?_), through⟩
      exact complete.waits waits (by simp [at_, Pc.base])
  | wake q =>
    -- Whoever was taken still waits, and the running task is outside all critical sections.
    have took : takesAt (k.inside k.cur) = some (w, q) := by
      rw [here]
      rfl
    have waiting := (parks.taken k.cur w q took).2.1
    obtain ⟨s', ok⟩ := Sys.wake_total (s := k.leave.toSys) clear q
    refine .inl ⟨{ k.leave with toSys := s' }, ?_⟩
    simp only [Kernel.wait, waiting, ne_eq, not_true_eq_false, if_false]
    rw [throughNode_eq (k := k.leave) locks.spin, ok]
    rfl
  | switch q =>
    have took : takesAt (k.inside k.cur) = some (w, q) := by
      rw [here]
      rfl
    have other := (parks.taken k.cur w q took).2.2.1
    obtain ⟨s', ok⟩ := Sys.swapTo_total (s := (k.advance w .swapped).toSys) clear other clock
    refine .inl ⟨{ k.advance w .swapped with toSys := s' }, ?_⟩
    simp only [Kernel.wait]
    rw [throughNode_eq (k := k.advance w .swapped) locks.spin, ok]
    rfl

/-- Every step comes to an end, but for the host's exit, and one that leaves nobody to go on. -/
theorem Sound.comes (sound : k.Sound host) (complete : k.Complete True host) (locks : k.Locks)
    (undisturbed : k.Undisturbed l) (begun : k.Begun l) (unheld : k.Unheld l)
    (enabled : k.Enabled l) : k.Comes host l := by
  have ordered := complete.parks.ordered
  cases l with
  | sched l =>
    obtain ⟨enabled, outside⟩ := enabled
    have same := sched_eq locks.spin outside
    have comes := ordered.comes sound.joint.calls locks.guarded sound.builds sound.alive
      undisturbed.1 begun unheld enabled
    cases comes with
    | goes s' ok =>
      rw [ok] at same
      exact .goes same
    | root exits root failed =>
      rw [failed] at same
      exact .root (congrArg KernelLabel.sched exits) root same
    | stuck empty last failed =>
      rw [failed] at same
      refine .stuck (complete.deadlocked empty ?_) same
      rcases last with ⟨⟨value, clock, rfl⟩, alone⟩ | ⟨waits, begins⟩
      · exact .inl ⟨⟨value, clock, rfl⟩, alone, outside rfl⟩
      · exact .inr (complete.waits waits begins)
  | enter w c => exact .goes (if_pos enabled)
  | wait clock holds =>
    obtain ⟨at_, within⟩ := enabled
    obtain ⟨⟨w, pc⟩, here⟩ := Option.ne_none_iff_exists'.mp within
    have same : k.step (.wait clock holds) = k.wait w pc clock holds := by
      simp only [Kernel.step, at_, here, if_true]
    rcases complete.comes_of_wait clock holds locks at_ here
      with ⟨k', ok⟩ | ⟨dead, failed⟩
    · exact .goes (same.trans ok)
    · exact .stuck dead (same.trans failed)

/-- A step that finds its program in order, as far as traps and handles go. -/
def Careful (k : Kernel) (l : KernelLabel) : Prop := k.Undisturbed l ∧ k.Begun l ∧ k.Unheld l

instance (k : Kernel) (l : KernelLabel) : Decidable (k.Careful l) :=
  inferInstanceAs (Decidable (_ ∧ _))

end Kernel

end Gthread

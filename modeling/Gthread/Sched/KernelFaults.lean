import Gthread.Sched.Kernel

/-! What may go wrong in a step of the kernel thread: its locks, and everything else. -/

namespace Gthread

/-- The statements outside critical sections that may take the free list's lock. -/
def Pc.mayLock : Pc → Bool
  | .user | .joinYield _ _ | .returning _ => true
  | _ => false

/-- Whether a label is a timer trap. -/
def Label.isTrap : Label → Bool
  | .trap _ => true
  | _ => false

namespace Sys

variable {s : Sys} {l : Label} {trap : Bool} {clock : Clock} {p : Pc} {f : Fault}

/-- Why a step may fail, which may be a trap. -/
inductive Fails (s : Sys) (trap : Bool) : Fault → Prop
  -- It waits for the free list's lock, in a call or in a trap that has a block to return.
  | blocked (held : s.mu ≠ none) (reaches : s.pc.mayLock = true ∨
      (trap = true ∧ s.flag = false ∧ s.deferred ≠ none)) : Fails s trap .blocked
  -- It takes the preempt mutex a second time, or releases it without holding it.
  | nested (set : s.flag = true) (outside : ∀ p, s.pc ≠ .unlock p) :
      Fails s trap (.assertion "succ")
  | bare {p : Pc} (clear : s.flag = false) (at_ : s.pc = .unlock p) :
      Fails s trap (.assertion "succ")
  -- Anything else.
  | other {f : Fault} (waits : f ≠ .blocked) (locks : f ≠ .assertion "succ") : Fails s trap f

/-- What fails in the scheduler is no lock. -/
theorem Fails.of_yield (fault : Node.YieldFault f) : s.Fails trap f := by
  cases fault <;> exact .other (by simp) (by simp)

/-- A sequence fails in its first part or in its second. -/
theorem error_of_bind {σ τ : Type} {m : Except Fault σ} {g : σ → Except Fault τ}
    (failed : (m >>= g) = .error f) : m = .error f ∨ ∃ n, m = .ok n ∧ g n = .error f := by
  cases m with
  | error fault => exact .inl (by simpa [Bind.bind, Except.bind] using failed)
  | ok n => exact .inr ⟨n, rfl, failed⟩

/-- What runs under the preempt flag fails on that flag, or on its own. -/
theorem Fails.of_locked {τ : Type} {g : Node Pc → Except Fault τ}
    (outside : s.flag = true → ∀ p, s.pc ≠ .unlock p)
    (inner : g (s.setFlag true) = .error f → s.Fails trap f)
    (failed : (s.lock >>= g) = .error f) : s.Fails trap f := by
  rcases error_of_bind failed with locks | ⟨n, locked, later⟩
  · unfold Node.lock at locks
    split at locks
    · rename_i set
      exact Except.error.inj locks ▸ .nested set (outside set)
    · cases locks
  · obtain ⟨-, rfl⟩ := lock_ok locked
    exact inner later

/-- A yield of a node with the same lock fails on that lock, or in the scheduler. -/
theorem Fails.of_yields {σ : Type} {n : Node Pc} {k : Pc} {g : Node Pc → σ} (mu : n.mu = s.mu)
    (deferred : n.deferred = s.deferred)
    (reaches : s.pc.mayLock = true ∨ (trap = true ∧ s.flag = false))
    (failed : (n.yield clock k >>= fun n => pure (g n)) = .error f) : s.Fails trap f := by
  rcases error_of_bind failed with yields | ⟨n', -, returns⟩
  · rcases Node.yield_error yields with ⟨rfl, held, waits⟩ | fault
    · have waits : s.deferred ≠ none := deferred ▸ waits
      exact .blocked (mu ▸ held) (reaches.imp_right fun traps => ⟨traps.1, traps.2, waits⟩)
    · exact .of_yield fault
  · cases returns

/-- A call of `yield`. -/
theorem Fails.of_yieldLocked (outside : s.flag = true → ∀ p, s.pc ≠ .unlock p)
    (reaches : s.pc.mayLock = true ∨ (trap = true ∧ s.flag = false))
    (failed : s.yieldLocked clock p = .error f) : s.Fails trap f :=
  .of_locked outside (.of_yields (n := s.setFlag true) rfl rfl reaches) failed

/-- A call of the program. -/
theorem fails_of_call {c : Call} (at_ : s.pc = .user) (failed : s.call c clock = .error f) :
    s.Fails false f := by
  have outside : s.flag = true → ∀ p, s.pc ≠ .unlock p := by simp [at_]
  have reaches : s.pc.mayLock = true := by rw [at_]; rfl
  cases c with
  | spawn a entry arg h =>
    simp only [call, spawn] at failed
    split at failed
    · cases failed
    · split at failed
      · rename_i held
        exact Except.error.inj failed ▸ .blocked held (.inl reaches)
      · cases failed
  | yield => exact .of_yieldLocked outside (.inl reaches) failed
  | sleepFor start duration =>
    refine .of_locked outside (fun yields => ?_) failed
    exact .of_yields (n := { (s.setFlag true).modify s.cur (Task.setState .waiting) with
      rq := s.rq.sleepPush start duration s.cur }) rfl rfl (.inl reaches) yields
  | join h wanted =>
    simp only [call, join] at failed
    split at failed
    · cases failed
    · split_ifs at failed with set
      exact Except.error.inj failed ▸ .nested set (outside set)
  | detach h =>
    simp only [call, detach] at failed
    split at failed
    · cases failed
    · split_ifs at failed with set
      exact Except.error.inj failed ▸ .nested set (outside set)
  | exit value =>
    simp only [call, exit] at failed
    split at failed
    · exact Except.error.inj failed ▸ .other (by simp) (by simp)
    · have finished := Node.finish_finished value (s.setFlag true)
      exact .of_locked outside (.of_yields finished.mu finished.deferred (.inl reaches)) failed
  | assign dst src => cases failed

/-- A statement of the library. -/
theorem fails_of_run {fresh : Addr} (failed : s.run clock fresh = .error f) :
    s.Fails false f := by
  unfold run at failed
  cases at_ : s.pc with
  | unlock p =>
    simp only [at_, Node.unlock] at failed
    split at failed
    · cases failed
    · rename_i clear
      exact Except.error.inj failed ▸ .bare (by simpa using clear) at_
  | joinYield h wanted =>
    simp only [at_] at failed
    exact .of_yieldLocked (by simp [at_]) (.inl (by rw [at_]; rfl)) failed
  | returning h =>
    simp only [at_, callReturn] at failed
    split at failed
    · exact Except.error.inj failed ▸ .other (by simp) (by simp)
    · split at failed
      · rename_i held
        exact Except.error.inj failed ▸ .blocked held (.inl (by rw [at_]; rfl))
      · cases failed
  | started t h =>
    simp only [at_, scheduleNew] at failed
    split at failed
    · rename_i set
      exact Except.error.inj failed ▸ .nested set (by simp [at_])
    · cases failed
  | makeCreate a entry arg h =>
    simp only [at_, create] at failed
    split at failed
    · exact Except.error.inj failed ▸ .other (by simp) (by simp)
    · cases failed
  | made t entry arg h =>
    simp only [at_, startTask] at failed
    split_ifs at failed
    · exact Except.error.inj failed ▸ .other (by simp) (by simp)
    · exact Except.error.inj failed ▸ .other (by simp) (by simp)
  | take h wanted =>
    simp only [at_, takeResult] at failed
    split at failed
    · exact Except.error.inj failed ▸ .other (by simp) (by simp)
    · split at failed
      · exact Except.error.inj failed ▸ .other (by simp) (by simp)
      · cases failed
  | zero | user | exited =>
    simp only [at_] at failed
    exact Except.error.inj failed ▸ .other (by simp) (by simp)
  | _ =>
    simp only [at_] at failed
    cases failed

/-- Every step that fails does so for one of these reasons. -/
theorem fails_of_step (failed : s.step l = .error f) : s.Fails l.isTrap f := by
  cases l with
  | trap clock =>
    simp only [step, trap] at failed
    split at failed
    · cases failed
    · rename_i clear
      have clear : s.flag = false := by simpa using clear
      exact .of_yieldLocked (by simp [clear]) (.inr ⟨rfl, clear⟩) failed
  | call c clock =>
    simp only [step] at failed
    split at failed
    · rename_i at_
      exact fails_of_call at_ failed
    · exact Except.error.inj failed ▸ .other (by simp) (by simp)
  | run clock fresh => exact fails_of_run failed

end Sys

/-- Whether a step of the kernel thread is a timer trap. -/
def KernelLabel.isTrap : KernelLabel → Bool
  | .sched l => l.isTrap
  | _ => false

namespace Kernel

variable {k k' : Kernel} {l : KernelLabel} {clock : Clock} {f : Fault}

/-- A call into the node fails inside, unless it finds the node's lock held. -/
theorem error_of_throughNode {g : Sys → Except Fault Sys} (free : k.spinLock = none)
    (failed : k.throughNode g = .error f) : g k.toSys = .error f := by
  unfold throughNode acquire at failed
  cases runs : g k.toSys with
  | error fault => simpa [free, runs, Bind.bind, Except.bind] using failed
  | ok s => simp [free, runs, release, Bind.bind, Except.bind, pure, Except.pure] at failed

/-- A statement of a waiter fails as a call of the scheduler's interface does. -/
theorem fails_of_wait {w : WaiterId} {pc : WaiterPc Addr} {holds : Bool} (free : k.spinLock = none)
    (at_ : k.pc = .user) (failed : k.wait w pc clock holds = .error f) :
    k.toSys.Fails false f := by
  have outside : k.flag = true → ∀ p, k.pc ≠ .unlock p := by simp [at_]
  cases pc with
  | yield =>
    have yields := error_of_throughNode (k := k.advance w .parked) free failed
    exact .of_yieldLocked outside (.inl (by rw [at_]; rfl)) yields
  | wake q =>
    simp only [wait] at failed
    split at failed
    · exact Except.error.inj failed ▸ .other (by simp) (by simp)
    · have wakes := error_of_throughNode (k := k.leave) free failed
      unfold Sys.wake at wakes
      split at wakes
      · rename_i set
        exact Except.error.inj wakes ▸ .nested set (outside set)
      · cases wakes
  | switch q =>
    have swaps := error_of_throughNode (k := k.advance w .swapped) free failed
    refine .of_locked (s := k.toSys) outside (fun later => ?_) swaps
    -- The switch itself only asserts that it goes to another task.
    rcases Sys.error_of_bind later with switches | ⟨n, -, returns⟩
    · unfold Node.switchTo Node.switchTask at switches
      dsimp only at switches
      split at switches
      · exact Except.error.inj switches ▸ .other (by simp) (by simp)
      · cases switches
    · cases returns
  | _ =>
    -- The other statements do not fail.
    simp only [wait] at failed
    try split at failed
    all_goals cases failed

/-- Every step that fails does so for one of these reasons, while nobody holds the node's lock. -/
theorem fails_of_step (free : k.spinLock = none) (failed : k.step l = .error f) :
    k.toSys.Fails l.isTrap f := by
  cases l with
  | sched l =>
    simp only [step, sched] at failed
    split at failed
    · exact Except.error.inj failed ▸ .other (by simp) (by simp)
    · rcases Sys.error_of_bind failed with steps | ⟨k', -, returns⟩
      · refine Sys.fails_of_step ?_
        unfold stepSys at steps
        split at steps
        · exact error_of_throughNode free steps
        · rcases Sys.error_of_bind steps with inner | ⟨s, -, returns⟩
          · exact inner
          · cases returns
      · split at returns <;> cases returns
  | enter w c =>
    simp only [step] at failed
    split at failed
    · cases failed
    · exact Except.error.inj failed ▸ .other (by simp) (by simp)
  | wait clock holds =>
    simp only [step] at failed
    split at failed
    · rename_i at_
      split at failed
      · exact Except.error.inj failed ▸ .other (by simp) (by simp)
      · exact fails_of_wait free at_ failed
    · exact Except.error.inj failed ▸ .other (by simp) (by simp)

end Kernel

end Gthread

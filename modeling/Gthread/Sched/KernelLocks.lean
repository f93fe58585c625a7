import Gthread.Sched.KernelFaults
import Gthread.Sched.SchedStart

/-! Locks that block: `_mu` of the free list and `_spin_lock` of the node, across preemption. -/

namespace Gthread

open Function (update update_of_ne update_self)

/-- The statements inside the free list's lock. -/
def Pc.locked : Pc → Bool
  | .makeLocked _ _ _ _ | .returnLocked _ _ => true
  | _ => false

/-- Where the free list's lock may be taken, nobody is inside it. -/
theorem Pc.unlocked_of_mayLock {p : Pc} (may : p.mayLock = true) : p.base.locked = false := by
  cases p with
  | user => rfl
  | joinYield h wanted => rfl
  | returning h => rfl
  | _ => cases may

namespace Sys

variable {s s' : Sys} {l : Label} {clock : Clock} {p : Pc} {t : Addr}

/-- The free list's lock is held by the running task, inside its critical section, or free. -/
structure Guarded (s : Sys) : Prop where
  running : s.running = true
  -- A trap that comes back to the task leaves it inside.
  held : ∀ o, s.mu = some o → o = s.cur ∧ s.pc.base.locked = true
  holds : s.pc.base.locked = true → s.mu = some s.cur
  -- No context was saved inside the lock.
  saved : ∀ o, (s.tasks o).ctx.resume.pc.base.locked = false

/-- A trap inside `_mu`, with the flag clear, has no block to return and selects no other task. -/
def Unheld (s : Sys) : Label → Prop
  | .trap clock => s.flag = false → s.mu = some s.cur → s.deferred = none ∧ s.stays clock = true
  | _ => True

/-- Outside the critical section the lock is free. -/
theorem Guarded.free (guarded : s.Guarded) (outside : s.pc.base.locked = false) :
    s.mu = none := by
  cases held : s.mu with
  | none => rfl
  | some o => exact absurd (guarded.held o held).2 (by simp [outside])

/-- A task that gives up the processor is outside the critical section, or a trap hits it there. -/
theorem Guarded.outside (guarded : s.Guarded) (unheld : s.Unheld l) (clear : s.flag = false)
    (leaves : Leaves s l clock p) : (s.pc.base.locked = false ∧ p.base.locked = false) ∨
      (p = s.pc ∧ s.deferred = none ∧ s.trap clock = s.yieldLocked clock p ∧
        s.stays clock = true) := by
  cases leaves with
  | trap =>
    cases locked : s.pc.base.locked with
    | false => exact .inl ⟨rfl, rfl⟩
    | true =>
      obtain ⟨nothing, stays⟩ := unheld clear (guarded.holds locked)
      exact .inr ⟨rfl, nothing, by simp [trap, clear], stays⟩
  | call at_ => exact .inl ⟨by rw [at_]; rfl, rfl⟩
  | join at_ => exact .inl ⟨by rw [at_]; rfl, rfl⟩

/-- A state with the lock free, and no context saved inside it. -/
theorem Guarded.of_free (running : s.running = true) (free : s.mu = none)
    (outside : s.pc.base.locked = false)
    (saved : ∀ o, (s.tasks o).ctx.resume.pc.base.locked = false) : s.Guarded where
  running := running
  held o held := by
    rw [free] at held
    cases held
  holds locked := absurd locked (by simp [outside])
  saved := saved

/-- A step outside the critical section, to another statement outside it. -/
theorem Guarded.onward (guarded : s.Guarded) (outside : s.pc.base.locked = false)
    (running : s'.running = s.running) (mu : s'.mu = s.mu) (next : s'.pc.base.locked = false)
    (contexts : ∀ o, (s'.tasks o).ctx = (s.tasks o).ctx) : s'.Guarded := by
  refine .of_free (running.trans guarded.running) (mu.trans (guarded.free outside)) next ?_
  intro o
  rw [contexts o]
  exact guarded.saved o

/-- A yield saves one context outside the lock, and goes on at another. -/
theorem Guarded.yield {m : Node Pc} (guarded : s.Guarded) (outside : s.pc.base.locked = false)
    (below : p.base.locked = false) (running : m.running = s.running) (mu : m.mu = s.mu)
    (contexts : ∀ o, (m.tasks o).ctx = (s.tasks o).ctx)
    (yielded : Node.Yielded clock (.unlock p) m s'.toNode) : s'.Guarded := by
  have going : s'.running = true := yielded.running.trans (running.trans guarded.running)
  have free : s'.mu = none := yielded.mu.trans (mu.trans (guarded.free outside))
  rcases yielded.went with ⟨stayed, pc⟩ | moved
  · refine .of_free going free (by rw [pc]; exact below) fun o => ?_
    rw [(stayed.unchanged o).2, contexts o]
    exact guarded.saved o
  · refine .of_free going free ?_ fun o => ?_
    · rw [moved.pc, contexts]
      exact guarded.saved s'.cur
    · by_cases left : o = m.cur
      · rw [left, moved.saved]
        exact below
      · rw [(moved.others o left).1, contexts o]
        exact guarded.saved o

/-- A yield that comes back saves none, and leaves the lock to the running task. -/
theorem Guarded.stay {m : Node Pc} (guarded : s.Guarded) (running : m.running = s.running)
    (mu : m.mu = s.mu) (cur : m.cur = s.cur) (contexts : ∀ o, (m.tasks o).ctx = (s.tasks o).ctx)
    (yielded : Node.Yielded clock (.unlock s.pc) m s'.toNode) (stays : s'.cur = s.cur) :
    s'.Guarded := by
  have same : s'.mu = s.mu := yielded.mu.trans mu
  rcases yielded.went with ⟨stayed, pc⟩ | moved
  · -- The end of the trap's critical section is put on top of where the task was.
    refine ⟨yielded.running.trans (running.trans guarded.running), ?_, ?_, fun o => ?_⟩
    · intro o held
      rw [stays, pc]
      exact guarded.held o (same ▸ held)
    · intro inside
      rw [pc] at inside
      rw [same, stays]
      exact guarded.holds inside
    · rw [(stayed.unchanged o).2, contexts o]
      exact guarded.saved o
  · exact absurd (stays.trans cur.symm) moved.other

/-- A switch to a given task does the same. -/
theorem Guarded.switch {m : Node Pc} (guarded : s.Guarded) (outside : s.pc.base.locked = false)
    (below : p.base.locked = false) (running : m.running = s.running) (mu : m.mu = s.mu)
    (contexts : ∀ o, (m.tasks o).ctx = (s.tasks o).ctx)
    (switched : m.Switched s'.toNode t (.unlock p)) : s'.Guarded := by
  have going : s'.running = true := switched.running.trans (running.trans guarded.running)
  have free : s'.mu = none := switched.mu.trans (mu.trans (guarded.free outside))
  refine .of_free going free ?_ fun o => ?_
  · rw [switched.pc, contexts]
    exact guarded.saved t
  · by_cases left : o = m.cur
    · rw [left, switched.saved]
      exact below
    · rw [(switched.others o left).1, contexts o]
      exact guarded.saved o

/-- Contexts after the preempt flag is set. -/
theorem setFlag_ctx (flag : Bool) (s : Sys) (b : Addr) :
    ((s.setFlag flag).tasks b).ctx = (s.tasks b).ctx :=
  write_ctx s.cur (fun t => { t with noPreemptFlag := flag }) (fun _ => rfl) s b

/-- A statement that writes no context leaves them all outside the lock. -/
theorem Guarded.saved_of (guarded : s.Guarded)
    (contexts : ∀ o, (s'.tasks o).ctx = (s.tasks o).ctx) (o : Addr) :
    (s'.tasks o).ctx.resume.pc.base.locked = false := by
  rw [contexts o]
  exact guarded.saved o

/-- Every step keeps the lock to the running task, if no trap inside it gives up the processor. -/
theorem Guarded.step (guarded : s.Guarded) (unheld : s.Unheld l) (ok : s.step l = .ok s') :
    s'.Guarded := by
  have running := guarded.running
  -- The other statements are outside the critical section, before and after.
  have plain : ∀ {s₁ : Sys} {p : Pc}, s.pc = p → p.base.locked = false → s₁.running = s.running →
      s₁.mu = s.mu → s₁.pc.base.locked = false →
      (∀ o, (s₁.tasks o).ctx = (s.tasks o).ctx) → s₁.Guarded := by
    intro s₁ p at_ outside
    exact guarded.onward (at_ ▸ outside)
  cases stepped_of_ok ok with
  | nothing => exact guarded
  | yields leaves ok =>
    obtain ⟨clear, n, rfl, -, yielded⟩ := yieldLocked_ok running ok
    rcases guarded.outside unheld clear leaves with ⟨outside, below⟩ | ⟨rfl, -, trapped, stays⟩
    · exact guarded.yield (m := s.setFlag true) outside below rfl rfl (setFlag_ctx true s) yielded
    · -- The trap comes back to the task, which is inside the critical section.
      rw [Sys.stays, trapped, ok] at stays
      exact guarded.stay (m := s.setFlag true) rfl rfl rfl (setFlag_ctx true s) yielded
        (by simpa using stays)
  | @sleeps start duration clock _ at_ ok =>
    obtain ⟨-, n, rfl, yielded⟩ := sleepFor_ok running ok
    let asleep : Node Pc := { (s.setFlag true).modify s.cur (Task.setState .waiting) with
      rq := s.rq.sleepPush start duration s.cur }
    refine guarded.yield (m := asleep) (by rw [at_]; rfl) rfl rfl rfl (fun o => ?_) yielded
    exact (write_ctx s.cur (Task.setState .waiting) (fun _ => rfl)
      { s with toNode := s.setFlag true } o).trans (setFlag_ctx true s o)
  | @exits value clock _ at_ ok =>
    obtain ⟨-, -, n, rfl, -, yielded⟩ := exit_ok running ok
    have finished := Node.finish_finished value (s.setFlag true)
    refine guarded.yield (by rw [at_]; rfl) rfl finished.running finished.mu (fun o => ?_) yielded
    exact (finished.kept o).1.trans (setFlag_ctx true s o)
  | spawns at_ unlocked =>
    refine ⟨running, ?_, fun _ => rfl, guarded.saved⟩
    rintro o held
    exact ⟨(Option.some.inj held).symm, rfl⟩
  | waits at_ points clear unjoined going =>
    refine plain at_ rfl rfl rfl rfl fun o => ?_
    simp only [goto, reserve, write_tasks]
    split_ifs <;> simp_all
  | consumes at_ points clear stopped asks => exact plain at_ rfl rfl rfl rfl fun _ => rfl
  | detaches at_ points clear going =>
    refine plain at_ rfl rfl rfl ?_ fun o => ?_
    · show s.pc.base.locked = false
      rw [at_]
      rfl
    simp only [settle, write_tasks]
    split_ifs <;> simp_all
  | assigns at_ => exact plain at_ rfl rfl rfl (by rw [at_]; rfl) fun _ => rfl
  | @unlocks p clock fresh at_ held =>
    have base : s.pc.base = p.base := by rw [at_]; rfl
    refine ⟨running, fun o owns => ?_, fun inside => ?_, guarded.saved_of (setFlag_ctx false s)⟩
    · have inside := guarded.held o owns
      rwa [base] at inside
    · have inside : s.pc.base.locked = true := base ▸ inside
      exact guarded.holds inside
  | begins at_ =>
    exact plain at_ rfl rfl rfl rfl (write_ctx s.cur (Task.setState .running) (fun _ => rfl) s)
  | @finds a entry arg h t rest clock fresh at_ found =>
    refine .of_free running rfl rfl (guarded.saved_of fun o => ?_)
    simp only [goto, number_tasks]
    split_ifs <;> simp_all
  | misses at_ => exact .of_free running rfl rfl guarded.saved
  | @resets t entry arg h clock fresh at_ =>
    exact plain at_ rfl rfl rfl rfl (write_ctx t Task.reset (fun _ => rfl) s)
  | @creates a entry arg h clock fresh at_ unmapped =>
    -- The context of a new block is all zeros.
    refine .of_free running (guarded.free (by rw [at_]; rfl)) rfl fun o => ?_
    by_cases new : o = fresh
    · subst new
      simp [goto, number_tasks, write_tasks, Task.construct, Resume.pc, Pc.base, Pc.locked]
    · simpa [goto, number_tasks, write_tasks, new] using guarded.saved o
  | @launches t entry arg h clock fresh at_ stopped other =>
    -- The spawner is saved where it goes on in `start`.
    refine .of_free running (guarded.free (by rw [at_]; rfl)) rfl fun o => ?_
    by_cases own : o = s.cur
    · subst own
      simp [goto, write_tasks, Resume.pc, Pc.base, Pc.locked]
    · have kept := write_ctx t (fun b => { b with entry := some entry, arg := arg })
        (fun _ => rfl) s o
      simp only [goto, write_tasks] at kept ⊢
      rw [if_neg own, kept]
      exact guarded.saved o
  | @lands t h clock fresh at_ =>
    have saved : ∀ o, ((s.switchBack t).tasks o).ctx = (s.tasks o).ctx ∨
        ((s.switchBack t).tasks o).ctx.resume = .plain .prologue := by
      intro o
      simp only [switchBack, Node.gthreadSwitchTo, Node.load, Node.modify_tasks,
        Function.update_apply]
      split_ifs <;> simp_all
    have pc : (s.switchBack t).pc = (s.tasks s.cur).ctx.resume.pc ∨
        (s.switchBack t).pc = .prologue := by
      simp only [switchBack, Node.gthreadSwitchTo, Node.load, Node.modify_tasks, Node.modify_pc,
        Function.update_apply]
      split_ifs
      · exact .inr rfl
      · exact .inl rfl
    refine .of_free running (guarded.free (by rw [at_]; rfl)) ?_ fun o => ?_
    · rcases pc with back | first
      · rw [back]
        exact guarded.saved s.cur
      · rw [first]
        rfl
    · rcases saved o with same | first
      · rw [same]
        exact guarded.saved o
      · rw [first]
        rfl
  | @suspends t h clock fresh at_ =>
    exact plain at_ rfl rfl rfl rfl (write_ctx t (Task.setState .suspended) (fun _ => rfl) s)
  | @publishes t h clock fresh at_ clear =>
    refine plain at_ rfl rfl rfl rfl fun o => ?_
    simp only [goto, schedule_tasks]
    split_ifs <;> simp_all
  | gives at_ => exact plain at_ rfl rfl rfl rfl fun _ => rfl
  | takes at_ points stopped => exact plain at_ rfl rfl rfl rfl fun _ => rfl
  | returns at_ points unlocked =>
    refine ⟨running, ?_, fun _ => rfl, guarded.saved⟩
    rintro o held
    exact ⟨(Option.some.inj held).symm, rfl⟩
  | pools at_ => exact .of_free running rfl rfl guarded.saved
  | overflows at_ => exact .of_free running rfl rfl guarded.saved
  | destroys at_ => exact plain at_ rfl rfl rfl rfl fun _ => rfl
  | clears at_ => exact plain at_ rfl rfl rfl rfl fun _ => rfl

/-- A yield that has a block to return, and finds the lock held, waits for it. -/
theorem yieldLocked_blocked (running : s.running = true) (clear : s.flag = false)
    (held : s.mu ≠ none) (waits : s.deferred ≠ none) :
    s.yieldLocked clock p = .error .blocked := by
  obtain ⟨t, waits⟩ := Option.ne_none_iff_exists'.mp waits
  have flush : (s.setFlag true).flushDeferred = .error .blocked := by
    have deferred : (s.setFlag true).deferred = some t := waits
    have taken : (s.setFlag true).mu ≠ none := held
    simp [Node.flushDeferred, deferred, Node.returnTask, taken, Bind.bind, Except.bind]
  have going : (s.setFlag true).running = true := running
  simp [yieldLocked, Node.lock, clear, Node.yield, going, flush, Bind.bind, Except.bind]

/-- A trap does not wait for the lock: it has no block to return, or finds the lock free. -/
theorem Guarded.unblocked_of_trap (guarded : s.Guarded) (unheld : s.Unheld l)
    (traps : l.isTrap = true) (clear : s.flag = false) : s.deferred = none ∨ s.mu = none := by
  cases l with
  | trap clock =>
    have leaves : Leaves s (.trap clock) clock s.pc := .trap
    rcases guarded.outside unheld clear leaves with ⟨outside, -⟩ | ⟨-, nothing, -⟩
    · exact .inr (guarded.free outside)
    · exact .inl nothing
  | _ => cases traps

end Sys

namespace Kernel

variable {k k' : Kernel} {l : KernelLabel} {clock : Clock} {host : Addr} {tick : Int}
    {maxSize : Nat}

/-- A trap inside `_mu`, with the flag clear, has no block to return and selects no other task. -/
def Unheld (k : Kernel) : KernelLabel → Prop
  | .sched l => k.toSys.Unheld l
  | _ => True

instance (k : Kernel) : (l : KernelLabel) → Decidable (k.Unheld l)
  | .sched (.trap _) => inferInstanceAs (Decidable (_ → _ → _ ∧ _))
  | .sched (.call _ _) | .sched (.run _ _) | .enter _ _ | .wait _ _ => .isTrue trivial

/-- The locks that block: nobody holds the node's, and only the running task the free list's. -/
structure Locks (k : Kernel) : Prop where
  guarded : k.toSys.Guarded
  spin : k.spinLock = none

/-- The locks after a statement of a waiter. -/
theorem Locks.wait {w : WaiterId} {pc : WaiterPc Addr} {holds : Bool} (locks : k.Locks)
    (at_ : k.pc = .user) (ok : k.wait w pc clock holds = .ok k') : k'.Locks := by
  have outside : k.pc.base.locked = false := by rw [at_]; rfl
  cases pc with
  | mark =>
    simp only [Kernel.wait, Except.ok.injEq] at ok
    subst ok
    refine ⟨locks.guarded.onward outside rfl rfl outside ?_, locks.spin⟩
    exact Sys.write_ctx k.cur (Task.setState .waiting) (fun _ => rfl) k.toSys
  | yield =>
    obtain ⟨-, s, yields, rfl⟩ := throughNode_ok ok
    obtain ⟨-, n, rfl, -, yielded⟩ := Sys.yieldLocked_ok (s := k.toSys) locks.guarded.running yields
    refine ⟨?_, locks.spin⟩
    exact locks.guarded.yield (m := k.setFlag true) outside rfl rfl rfl
      (Sys.setFlag_ctx true k.toSys) yielded
  | wake q =>
    simp only [Kernel.wait] at ok
    split at ok
    · cases ok
    · obtain ⟨-, s, wakes, rfl⟩ := throughNode_ok ok
      obtain ⟨-, rfl⟩ := Sys.wake_ok wakes
      refine ⟨locks.guarded.onward outside rfl rfl outside fun o => ?_, locks.spin⟩
      simp only [leave, Node.schedule, Node.modify_tasks, Function.update_apply]
      split_ifs <;> simp_all
  | switch q =>
    obtain ⟨-, s, swaps, rfl⟩ := throughNode_ok ok
    obtain ⟨-, n, rfl, -, switched⟩ := Sys.swapTo_ok swaps
    refine ⟨?_, locks.spin⟩
    refine locks.guarded.switch (m := k.toSys.leaving clock) outside rfl rfl rfl
      (fun o => ?_) switched
    rw [Sys.leaving_tasks]
    split_ifs with own
    · rw [own]
      rfl
    · rfl
  | _ =>
    -- The other statements touch the waiter alone.
    simp only [Kernel.wait] at ok
    try split at ok
    all_goals
      simp only [Except.ok.injEq] at ok
      subst ok
      exact ⟨locks.guarded.onward outside rfl rfl outside fun _ => rfl, locks.spin⟩

/-- Every step keeps the locks to the running task. -/
theorem Locks.step (locks : k.Locks) (unheld : k.Unheld l) (ok : k.step l = .ok k') : k'.Locks := by
  cases l with
  | sched l =>
    have scheduled := sched_ok ok
    exact ⟨locks.guarded.step unheld scheduled.step, scheduled.spinLock.trans locks.spin⟩
  | enter w c =>
    simp only [Kernel.step] at ok
    split at ok
    · simp only [Except.ok.injEq] at ok
      subst ok
      exact ⟨locks.guarded, locks.spin⟩
    · cases ok
  | wait clock holds =>
    simp only [Kernel.step] at ok
    split at ok
    · rename_i at_
      split at ok
      · cases ok
      · exact locks.wait at_ ok
    · cases ok

/-- No step blocks, if no trap inside the free list's lock gives up the processor. -/
theorem Locks.ne_blocked (locks : k.Locks) (unheld : k.Unheld l) : k.step l ≠ .error .blocked := by
  intro blocked
  cases fails_of_step locks.spin blocked with
  | blocked held reaches =>
    rcases reaches with calls | ⟨traps, clear, waits⟩
    · exact held (locks.guarded.free (Pc.unlocked_of_mayLock calls))
    · cases l with
      | sched l =>
        rcases locks.guarded.unblocked_of_trap unheld traps clear with nothing | free
        · exact waits nothing
        · exact held free
      | _ => cases traps
  | other waits => exact waits rfl

/-- The locks of every state reached if no trap inside the free list's lock does so. -/
theorem locks_reaches (reached : Run.Reaches step Unheld (boot host tick maxSize) k) : k.Locks := by
  refine Run.Reaches.invariant (P := Locks) ⟨?_, rfl⟩ ?_ reached
  · refine .of_free rfl rfl rfl fun o => ?_
    show ((update (fun _ => Task.construct Pc.zero 0 false) host
      (Task.wrapCurrent Pc.zero host) o).ctx.resume.pc.base.locked) = false
    rw [Function.update_apply]
    split_ifs <;> rfl
  · exact fun _ _ _ locks unheld ok => locks.step unheld ok

/-- Without such a trap no lock is held by a task that does not run, and nothing blocks. -/
theorem unblocked_of_unheld (reached : Run.Reaches step Unheld (boot host tick maxSize) k) :
    (∀ o, k.mu = some o ∨ k.spinLock = some o → o = k.cur) ∧
      ∀ l, k.Unheld l → k.step l ≠ .error .blocked := by
  have locks := locks_reaches reached
  refine ⟨?_, fun l unheld => locks.ne_blocked unheld⟩
  rintro o (held | held)
  · exact (locks.guarded.held o held).1
  · rw [locks.spin] at held
    cases held

/-- A call into the node that finds its lock free comes to what the call itself comes to. -/
theorem throughNode_eq (free : k.spinLock = none) (f : Sys → Except Fault Sys) :
    k.throughNode f = (f k.toSys).map fun s => { k with toSys := s } := by
  cases runs : f k.toSys with
  | error fault => simp [throughNode, acquire, free, runs, Bind.bind, Except.bind, Except.map]
  | ok s =>
    simp [throughNode, acquire, release, free, runs, Bind.bind, Except.bind, Except.map, pure,
      Except.pure]

/-- And so does a step of the scheduler's interface. -/
theorem stepSys_eq (free : k.spinLock = none) (l : Label) :
    k.stepSys l = (k.toSys.step l).map fun s => { k with toSys := s } := by
  unfold stepSys
  split
  · exact throughNode_eq free _
  · cases k.toSys.step l with
    | error fault => rfl
    | ok s => rfl

/-- A step of the scheduler's interface comes to what it comes to without the waiters. -/
theorem sched_eq {l : Label} (free : k.spinLock = none)
    (outside : l.isCall = true → k.inside k.cur = none) :
    k.sched l = (k.toSys.step l).map fun s => { k with
      toSys := s
      inside := if l.isRun ∧ k.pc = .prologue then update k.inside k.cur none else k.inside } := by
  have admitted : ¬ (l.isCall ∧ k.inside k.cur ≠ none) := by
    rintro ⟨calls, within⟩
    exact within (outside calls)
  rw [sched, if_neg admitted, stepSys_eq free]
  cases k.toSys.step l with
  | error fault => rfl
  | ok s =>
    simp only [Except.map, Bind.bind, Except.bind]
    split_ifs <;> rfl

/-- The condition is exact: its steps neither wait nor leave `_mu` to another task. -/
theorem Locks.unheld_iff (locks : k.Locks) : k.Unheld l ↔
    k.step l ≠ .error .blocked ∧ ∀ k', k.step l = .ok k' → ∀ o, k'.mu = some o → o = k'.cur := by
  constructor
  · intro unheld
    refine ⟨locks.ne_blocked unheld, fun k' ok o held => ?_⟩
    exact ((locks.step unheld ok).guarded.held o held).1
  · rintro ⟨passes, kept⟩
    cases l with
    | sched l =>
      cases l with
      | trap clock =>
        intro clear held
        have same : k.step (.sched (.trap clock)) = _ :=
          sched_eq locks.spin (by simp [Label.isCall])
        have trapped : k.toSys.step (.trap clock) = k.toSys.yieldLocked clock k.pc := by
          simp [Sys.step, Sys.trap, clear]
        have running := locks.guarded.running
        have nothing : k.deferred = none := by
          by_contra waits
          have blocks : k.toSys.yieldLocked clock k.pc = .error .blocked :=
            Sys.yieldLocked_blocked running clear (by simp [held]) waits
          exact passes (same.trans (congrArg _ (trapped.trans blocks)))
        refine ⟨nothing, ?_⟩
        cases done : k.toSys.yieldLocked clock k.pc with
        | error fault => simp [Sys.stays, Sys.trap, clear, done]
        | ok s =>
          obtain ⟨-, n, rfl, -, yielded⟩ := Sys.yieldLocked_ok running done
          have left := kept _ (same.trans (congrArg _ (trapped.trans done))) k.cur
            (yielded.mu.trans held)
          simpa [Sys.stays, Sys.trap, clear, done] using left.symm
      | call c clock => trivial
      | run clock fresh => trivial
    | enter w call => trivial
    | wait w clock => trivial

/-- A task is spawned, and a second spawn is inside `make_task`. -/
def makingLabels : List KernelLabel :=
  (Sys.spawnInto kLightAttr 0 1).map .sched ++
    [.sched (.call (.spawn kLightAttr (some 7) 0 1) Sys.stillClock)]

/-- A task inside `make_task` holds the free list's lock, and runs. -/
theorem unblocked_of_unheld_making : ∃ k,
    Run.Reaches step Unheld (boot 0 0 4) k ∧ k.mu = some 0 ∧ k.cur = 0 ∧
      (∀ o, k.mu = some o ∨ k.spinLock = some o → o = k.cur) ∧
      ∀ l, k.Unheld l → k.step l ≠ .error .blocked := by
  have run : ∃ k, Run.Reaches step Unheld (boot 0 0 4) k ∧ k.mu = some 0 ∧ k.cur = 0 :=
    Run.Reaches.of_check makingLabels (by decide +kernel)
  obtain ⟨k, reached, held, cur⟩ := run
  exact ⟨k, reached, held, cur, unblocked_of_unheld reached⟩

/-- The timer takes the processor from the task that holds the lock. -/
def preemptedMakingLabels : List KernelLabel :=
  makingLabels ++ [.sched (.trap (Sys.clockAt 5000)), .sched (.run Sys.stillClock 0)]

/-- The next task to spawn waits for a lock whose holder cannot run. -/
theorem preempted_make_task_blocks : ∃ k l,
    Run.Reaches step (fun _ _ => True) (boot 0 0 4) k ∧ k.step l = .error .blocked ∧
      ∃ o, k.mu = some o ∧ o ≠ k.cur := by
  have run : ∃ k, Run.Reaches step (fun _ _ => True) (boot 0 0 4) k ∧ k.mu = some 0 ∧ k.cur = 1 ∧
      k.pc = .user ∧ k.inside 1 = none :=
    Run.Reaches.of_check preemptedMakingLabels (by decide +kernel)
  obtain ⟨k, reached, held, cur, at_, outside⟩ := run
  let l : Label := .call (.spawn kLightAttr (some 7) 0 2) Sys.stillClock
  refine ⟨k, .sched l, reached, ?_, 0, held, by simp [cur]⟩
  have blocked : k.toSys.step l = .error .blocked := by
    simp [l, Sys.step, Sys.call, Sys.spawn, at_, held]
  have free : k.inside k.cur = none := cur ▸ outside
  simp [Kernel.step, sched, stepSys, Sys.entersNode, l, free, blocked, Bind.bind, Except.bind]

end Kernel

end Gthread

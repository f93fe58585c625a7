import Gthread.Concur.Waiter
import Gthread.Sched.SchedNames

/-! The whole kernel thread: the scheduler's interface, the waiters, and the node's own lock. -/

namespace Gthread

/-- A `waiter` object of the program. -/
abbrev WaiterId := Nat

/-- A system whose tasks also use waiters. -/
structure Kernel extends Sys where
  -- `_spin_lock` of the node, with the task that holds it.
  spinLock : TaskPtr
  -- `_waiter` of each waiter.
  waiter : WaiterId → TaskPtr
  -- The member function of a waiter a task is inside of, at its next statement there.
  inside : Addr → Option (WaiterId × WaiterPc Addr)

/-- A call of a member function of `waiter`. -/
inductive WaiterCall where
  | parkIf
  | unpark
  | swap
  deriving DecidableEq, Repr

/-- The first statement of a member function. -/
def WaiterCall.pc : WaiterCall → WaiterPc Addr
  | .parkIf => .claim
  | .unpark => .load
  | .swap => .swapLoad

/-- What happens next on the kernel thread. -/
inductive KernelLabel where
  -- A trap, a call of the scheduler's interface, or a statement of it.
  | sched (l : Label)
  | enter (w : WaiterId) (c : WaiterCall)
  -- The statement inside a waiter; `holds` is what `check_thunk` would return.
  | wait (clock : Clock) (holds : Bool)

/-- Whether a label is a call of the program. -/
def Label.isCall : Label → Bool
  | .call _ _ => true
  | _ => false

/-- Whether a label is a statement of the library. -/
def Label.isRun : Label → Bool
  | .run _ _ => true
  | _ => false

namespace Sys

/-- The critical section of `waiter::unpark`. -/
def wake (q : Addr) (s : Sys) : Except Fault Sys :=
  if s.flag then .error (.assertion "succ")
  else .ok { s with toNode := (s.modify q (Task.setState .suspended)).schedule q }

/-- The critical section of `waiter::swap`. -/
def swapTo (q : Addr) (clock : Clock) (s : Sys) : Except Fault Sys := do
  let n ← s.lock
  let n ← (n.modify n.cur (Task.setState .waiting)).switchTo clock.charged q (.unlock .user)
  return { s with toNode := n }

/-- Whether a step calls a member function of the node. -/
def entersNode (s : Sys) : Label → Bool
  | .trap _ => !s.flag
  | .call .yield _ | .call (.sleepFor _ _) _ | .call (.exit _) _ => true
  | .call _ _ => false
  | .run _ _ =>
    match s.pc with
    | .joinYield _ _ | .started _ _ => true
    | _ => false

/-- The critical section of `waiter::unpark`, taken apart. -/
theorem wake_ok {s s' : Sys} {q : Addr} (ok : s.wake q = .ok s') : s.flag = false ∧
    s' = { s with toNode := (s.modify q (Task.setState .suspended)).schedule q } := by
  unfold wake at ok
  split at ok
  · cases ok
  · rename_i clear
    simp only [Except.ok.injEq] at ok
    exact ⟨by simpa using clear, ok.symm⟩

/-- The node as the caller of `waiter::swap` leaves it: waiting, and charged for its slice. -/
def leaving (clock : Clock) (s : Sys) : Node Pc :=
  { ((s.setFlag true).modify s.cur (Task.setState .waiting)).charge clock.charged with
    lastTick := clock.charged }

/-- What the blocks look like then. -/
theorem leaving_tasks (clock : Clock) (s : Sys) (b : Addr) :
    (s.leaving clock).tasks b = if b = s.cur
      then (((s.tasks s.cur).setState .waiting).charge (clock.charged - s.lastTick) |>
        fun t => { t with noPreemptFlag := true })
      else s.tasks b := by
  by_cases here : b = s.cur
  · subst here
    simp [leaving, Node.charge, Node.setFlag, Task.charge, Task.setState]
  · simp [leaving, Node.charge, Node.setFlag, here]

/-- The critical section of `waiter::swap`, taken apart. -/
theorem swapTo_ok {s s' : Sys} {q : Addr} {clock : Clock} (ok : s.swapTo q clock = .ok s') :
    s.flag = false ∧ ∃ n, s' = { s with toNode := n } ∧
      ((s.setFlag true).modify s.cur (Task.setState .waiting)).switchTo clock.charged q
        (.unlock .user) = .ok n ∧
      (s.leaving clock).Switched n q (.unlock .user) := by
  cases locked : s.lock with
  | error fault => simp [swapTo, locked, Bind.bind, Except.bind] at ok
  | ok n =>
    obtain ⟨clear, rfl⟩ := lock_ok locked
    cases done : ((s.setFlag true).modify s.cur (Task.setState .waiting)).switchTo clock.charged q
        (.unlock .user) with
    | error fault =>
      have same : (s.setFlag true).cur = s.cur := rfl
      simp [swapTo, locked, same, done, Bind.bind, Except.bind] at ok
    | ok n =>
      have same : (s.setFlag true).cur = s.cur := rfl
      simp only [swapTo, locked, same, done, Bind.bind, Except.bind, pure, Except.pure,
        Except.ok.injEq] at ok
      exact ⟨clear, n, ok.symm, rfl, Node.switchTask_switched done⟩

end Sys

namespace Kernel

/-- `spin_lock::lock`, which spins for ever on a lock whose holder cannot run. -/
def acquire (k : Kernel) : Except Fault Kernel :=
  if k.spinLock ≠ none then .error .blocked else .ok { k with spinLock := some k.cur }

/-- `spin_lock::unlock`. -/
def release (k : Kernel) : Kernel := { k with spinLock := none }

/--
A call into the node, which the preempt flag keeps traps out of.

The node's lock is released before any switch.
A task that comes back into `yield` takes it once more.
-/
def throughNode (f : Sys → Except Fault Sys) (k : Kernel) : Except Fault Kernel := do
  let k ← k.acquire
  let s ← f k.toSys
  let k ← { k with toSys := s }.release.acquire
  return k.release

/-- A step of the scheduler's interface, through the node or beside it. -/
def stepSys (l : Label) (k : Kernel) : Except Fault Kernel :=
  if k.entersNode l then k.throughNode fun s => s.step l
  else do
    let s ← k.toSys.step l
    return { k with toSys := s }

/-- A step of the scheduler's interface, as the kernel thread takes it. -/
def sched (l : Label) (k : Kernel) : Except Fault Kernel :=
  -- A task that is inside a waiter calls nothing else.
  if l.isCall ∧ k.inside k.cur ≠ none then .error .disabled
  else do
    let k' ← k.stepSys l
    -- A task begins with no call on its stack.
    if l.isRun ∧ k.pc = .prologue then
      return { k' with inside := Function.update k.inside k.cur none }
    else return k'

/-- Go on at another statement of a waiter. -/
def advance (w : WaiterId) (pc : WaiterPc Addr) (k : Kernel) : Kernel :=
  { k with inside := Function.update k.inside k.cur (some (w, pc)) }

/-- Return from a member function of a waiter. -/
def leave (k : Kernel) : Kernel := { k with inside := Function.update k.inside k.cur none }

/-- Store to `_waiter`. -/
def store (w : WaiterId) (t : TaskPtr) (k : Kernel) : Kernel :=
  { k with waiter := Function.update k.waiter w t }

/-- A statement of a member function of a waiter. -/
def wait (w : WaiterId) (pc : WaiterPc Addr) (clock : Clock) (holds : Bool) (k : Kernel) :
    Except Fault Kernel :=
  match pc with
  | .claim =>
    if k.waiter w = none then .ok (k.store w (some k.cur) |>.advance w .check) else .ok k.leave
  | .check => .ok (k.advance w (if holds then .mark else .release))
  | .release => .ok (k.store w none).leave
  | .mark => .ok ({ k with toSys := k.write k.cur (Task.setState .waiting) }.advance w .yield)
  | .yield => (k.advance w .parked).throughNode fun s => s.yieldLocked clock .user
  | .parked => .ok k.leave
  | .load =>
    match k.waiter w with
    | none => .ok k.leave
    | some q => .ok (k.advance w (.state q))
  | .state q =>
    if (k.tasks q).runState = .waiting then .ok (k.advance w (.cas q)) else .ok k.leave
  | .cas q =>
    if k.waiter w = some q then .ok (k.store w none |>.advance w (.wake q)) else .ok k.leave
  | .wake q =>
    if (k.tasks q).runState ≠ .waiting then
      .error (.assertion "parked->run_state == task::WAITING")
    else k.leave.throughNode fun s => s.wake q
  | .swapLoad =>
    match k.waiter w with
    | none => .ok k.leave
    | some q => .ok (k.advance w (.swapState q))
  | .swapState q =>
    if (k.tasks q).runState = .waiting then .ok (k.advance w (.swapCas q)) else .ok k.leave
  | .swapCas q =>
    if k.waiter w = some q then .ok (k.store w (some k.cur) |>.advance w (.switch q))
    else .ok k.leave
  | .switch q => (k.advance w .swapped).throughNode fun s => s.swapTo q clock
  | .swapped => .ok k.leave

/-- One step of the kernel thread. -/
def step (k : Kernel) : KernelLabel → Except Fault Kernel
  | .sched l => k.sched l
  | .enter w c =>
    if k.pc = .user ∧ k.inside k.cur = none then .ok (k.advance w c.pc) else .error .disabled
  | .wait clock holds =>
    if k.pc = .user then
      match k.inside k.cur with
      | none => .error .disabled
      | some (w, pc) => k.wait w pc clock holds
    else .error .disabled

/-- A program right after `start_async`, whose waiters are empty. -/
def boot (host : Addr) (tick : Int) (maxSize : Nat) : Kernel where
  toSys := Sys.start host tick maxSize
  spinLock := none
  waiter := fun _ => none
  inside := fun _ => none

variable {k k' : Kernel} {l : Label}

/-- A call into the node finds its lock free, and leaves it free. -/
theorem throughNode_ok {f : Sys → Except Fault Sys} (ok : k.throughNode f = .ok k') :
    k.spinLock = none ∧ ∃ s, f k.toSys = .ok s ∧ k' = { k with toSys := s } := by
  unfold throughNode acquire at ok
  by_cases held : k.spinLock ≠ none
  · simp [held, Bind.bind, Except.bind] at ok
  · rw [not_not] at held
    refine ⟨held, ?_⟩
    cases runs : f k.toSys with
    | error fault => simp [held, runs, Bind.bind, Except.bind] at ok
    | ok s =>
      refine ⟨s, rfl, ?_⟩
      simp only [held, runs, release, Bind.bind, Except.bind, ne_eq, not_true_eq_false, if_false,
        pure, Except.pure, Except.ok.injEq] at ok
      rw [← ok, ← held]

/-- With or without the node's lock, the system takes its step. -/
theorem stepSys_ok (ok : k.stepSys l = .ok k') :
    k.toSys.step l = .ok k'.toSys ∧ k' = { k with toSys := k'.toSys } ∧
      (k.entersNode l = true → k.spinLock = none) := by
  unfold stepSys at ok
  split at ok
  · obtain ⟨free, s, steps, rfl⟩ := throughNode_ok ok
    exact ⟨steps, rfl, fun _ => free⟩
  · rename_i beside
    cases steps : k.toSys.step l with
    | error fault => simp [steps, Bind.bind, Except.bind] at ok
    | ok s =>
      simp only [steps, Bind.bind, Except.bind, pure, Except.pure, Except.ok.injEq] at ok
      subst ok
      exact ⟨rfl, rfl, fun enters => absurd enters beside⟩

/-- What a step of the scheduler's interface does to the rest of the kernel thread. -/
structure Scheduled (l : Label) (k k' : Kernel) : Prop where
  step : k.toSys.step l = .ok k'.toSys
  outside : l.isCall = true → k.inside k.cur = none
  free : k.entersNode l = true → k.spinLock = none
  spinLock : k'.spinLock = k.spinLock
  waiter : k'.waiter = k.waiter
  inside : k'.inside = if l.isRun = true ∧ k.pc = .prologue
    then Function.update k.inside k.cur none else k.inside

/-- A step of the scheduler's interface, taken apart. -/
theorem sched_ok (ok : k.sched l = .ok k') : k.Scheduled l k' := by
  unfold sched at ok
  split at ok
  · cases ok
  rename_i outside
  have outside : l.isCall = true → k.inside k.cur = none := by
    intro calls
    by_contra within
    exact outside ⟨calls, within⟩
  simp only [Bind.bind, Except.bind] at ok
  split at ok
  · cases ok
  · rename_i k₁ stepped
    obtain ⟨step, rest, free⟩ := stepSys_ok stepped
    split at ok
    · rename_i begins
      simp only [pure, Except.pure, Except.ok.injEq] at ok
      subst ok
      refine ⟨step, outside, free, ?_, ?_, ?_⟩
      · rw [rest]
      · rw [rest]
      · rw [if_pos begins]
    · rename_i goes
      simp only [pure, Except.pure, Except.ok.injEq] at ok
      subst ok
      refine ⟨step, outside, free, ?_, ?_, ?_⟩
      · rw [rest]
      · rw [rest]
      · rw [if_neg goes, rest]

end Kernel

end Gthread

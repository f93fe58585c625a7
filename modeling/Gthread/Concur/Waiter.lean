import Gthread.Concur.Cpu

/-! The class `waiter`, one access to shared memory at a time, and the two tasks of a channel. -/

namespace Gthread

/-- The two tasks of a channel. -/
inductive Party where
  | reader
  | writer
  deriving DecidableEq, Repr

/-- The task at the other end. -/
def Party.other : Party → Party
  | .reader => .writer
  | .writer => .reader

@[simp] theorem Party.other_other (p : Party) : p.other.other = p := by cases p <;> rfl

theorem Party.other_ne (p : Party) : p.other ≠ p := by cases p <;> decide

/-- There are two parties. -/
theorem Party.eq_or_other (p b : Party) : b = p ∨ b = p.other := by
  cases p <;> cases b <;> decide

/-- What happens next to the two tasks of a channel. -/
inductive ChannelLabel (α : Type) where
  -- The running task's next statement.
  | run
  -- The timer takes the processor from the running task.
  | preempt
  | dispatch (p : Party)
  | read
  | write (v : α)
  | close (p : Party)
  deriving DecidableEq, Repr

/-- Whether the channel stays open. -/
def ChannelLabel.opens {α : Type} : ChannelLabel α → Bool
  | .close _ => false
  | _ => true

/-- A `waiter` and the processor its tasks run on. -/
structure Waiter (ι : Type) where
  cpu : Cpu ι
  -- `_waiter`.
  slot : Option ι

/-- The next statement of a task inside a member function of `waiter`. -/
inductive WaiterPc (ι : Type) where
  -- `park_if`: the exchange, the check, and what follows either answer.
  | claim
  | check
  | release
  | mark
  | yield
  -- `sched::yield` was called and has to return.
  | parked
  -- `unpark`: the load, the test of the run state, the exchange, and the critical section.
  | load
  | state (q : ι)
  | cas (q : ι)
  | wake (q : ι)
  -- The same for `swap`.
  | swapLoad
  | swapState (q : ι)
  | swapCas (q : ι)
  | switch (q : ι)
  -- `switch_to` was called and has to return.
  | swapped
  deriving DecidableEq, Repr

/-- How a statement of a member function ends. -/
inductive Outcome (ι : Type) where
  | goto (pc : WaiterPc ι)
  | return_ (result : Bool)
  deriving DecidableEq, Repr

/-- The statements of `while (_waiter && !_waiter.unpark()) gthread::self::yield();`. -/
inductive DrainPc (ι : Type) where
  | test
  | unpark (pc : WaiterPc ι)
  | again
  deriving DecidableEq, Repr

namespace Waiter

variable {ι : Type} [DecidableEq ι]

/-- Set the run state of a task. -/
def setState (p : ι) (state : RunState) (w : Waiter ι) : Waiter ι :=
  { w with cpu := w.cpu.setState p state }

/-- The running task calls `sched::yield`. -/
def yield (p : ι) (w : Waiter ι) : Waiter ι := { w with cpu := w.cpu.leave p }

/-- A statement of task `p`; the check of `park_if` is `!_closed.load()` in every caller. -/
def step (p : ι) (closed : Bool) (pc : WaiterPc ι) (w : Waiter ι) :
    Except Fault (Outcome ι × Waiter ι) :=
  match pc with
  | .claim =>
    if w.slot = none then .ok (.goto .check, { w with slot := some p }) else .ok (.return_ false, w)
  | .check => .ok (.goto (if closed then .release else .mark), w)
  | .release => .ok (.return_ false, { w with slot := none })
  | .mark => .ok (.goto .yield, w.setState p .waiting)
  | .yield => .ok (.goto .parked, w.yield p)
  | .parked => .ok (.return_ true, w)
  | .load =>
    match w.slot with
    | none => .ok (.return_ false, w)
    | some q => .ok (.goto (.state q), w)
  | .state q =>
    if w.cpu.state q = .waiting then .ok (.goto (.cas q), w) else .ok (.return_ false, w)
  | .cas q =>
    if w.slot = some q then .ok (.goto (.wake q), { w with slot := none })
    else .ok (.return_ false, w)
  | .wake q =>
    if w.cpu.state q ≠ .waiting then .error (.assertion "parked->run_state == task::WAITING")
    else .ok (.return_ true, { w with cpu := (w.cpu.setState q .suspended).schedule q })
  | .swapLoad =>
    match w.slot with
    | none => .ok (.return_ false, w)
    | some q => .ok (.goto (.swapState q), w)
  | .swapState q =>
    if w.cpu.state q = .waiting then .ok (.goto (.swapCas q), w) else .ok (.return_ false, w)
  | .swapCas q =>
    if w.slot = some q then .ok (.goto (.switch q), { w with slot := some p })
    else .ok (.return_ false, w)
  | .switch q =>
    if q = p then .error (.assertion "switching to current task is a logic error")
    else .ok (.goto .swapped, { w with cpu := (w.cpu.setState p .waiting).switchTo p q })
  | .swapped => .ok (.return_ true, w)

/-- A statement of the loop that unparks whoever is parked; nothing follows once it ends. -/
def drain (p : ι) (pc : DrainPc ι) (w : Waiter ι) :
    Except Fault (Option (DrainPc ι) × Waiter ι) :=
  match pc with
  | .test => .ok (if w.slot = none then none else some (.unpark .load), w)
  | .unpark pc => do
    let (outcome, w) ← w.step p false pc
    match outcome with
    | .goto pc => return (some (.unpark pc), w)
    | .return_ true => return (none, w)
    | .return_ false => return (some .again, w)
  | .again => .ok (some .test, w.yield p)

end Waiter

end Gthread

import Gthread.Lib.Run
import Gthread.Sched.Node

/-! The scheduler's interface on one kernel thread, statement by statement, with timer traps. -/

namespace Gthread

/-- A `sched::handle` object of the program. -/
abbrev HandleId := Nat

/-- The next statement of a task, with the locals the rest of its call needs. -/
inductive Pc where
  -- A context that was never saved.
  | zero
  -- Code of the program, outside the library.
  | user
  -- The end of a critical section of `preempt_mutex`, and what follows it.
  | unlock (next : Pc)
  -- `gthread_task_entry` after its first switch, before it sets the run state.
  | prologue
  -- `make_task` holding `_mu`, and after it with or without a pooled task.
  | makeLocked (a : Attr) (entry arg : Nat) (h : HandleId)
  | makeFound (t : Addr) (entry arg : Nat) (h : HandleId)
  | makeCreate (a : Attr) (entry arg : Nat) (h : HandleId)
  -- `spawn` once `make_task` has returned, up to the call inside `start`.
  | made (t : Addr) (entry arg : Nat) (h : HandleId)
  -- `gthread_task_entry` before its first switch: on the new stack, in the spawner's name.
  | startOnNew (t : Addr) (h : HandleId)
  -- `start` after that switch has come back, and `spawn` after `start`.
  | startBack (t : Addr) (h : HandleId)
  | started (t : Addr) (h : HandleId)
  -- `spawn` has scheduled the task and returns its handle.
  | spawned (t : Addr) (h : HandleId)
  -- `join` after releasing its critical section to call `yield`.
  | joinYield (h : HandleId) (wanted : Bool)
  -- `join` or `detach` at the assertion that the task has stopped.
  | take (h : HandleId) (wanted : Bool)
  -- The call of `return_task`, its critical section, and its call of `destroy`.
  | returning (h : HandleId)
  | returnLocked (t : Addr) (h : HandleId)
  | returnDestroy (t : Addr) (h : HandleId)
  -- The assignment that clears the handle.
  | clearHandle (h : HandleId)
  -- `exit` has come back from the scheduler.
  | exited
  deriving DecidableEq, Repr

/-- A node, the program's handles, and histories that no code reads. -/
structure Sys extends Node Pc where
  handles : HandleId → TaskPtr
  -- The task whose call is at work on a handle.
  busy : HandleId → TaskPtr
  -- The spawn a handle was last given.
  owner : HandleId → Nat
  -- The number the next spawn gets; the host counts as number zero.
  next : Nat
  -- The spawns whose `join` or `detach` has returned.
  settled : List Nat
  -- What finished spawns passed to `exit`, and what joins of spawns reported.
  exits : List (Nat × Nat)
  joined : List (Nat × Nat)

/-- A call the program makes, or an assignment between two of its handles. -/
inductive Call where
  | spawn (a : Attr) (entry : Option Nat) (arg : Nat) (h : HandleId)
  | yield
  | sleepFor (start duration : Int)
  | join (h : HandleId) (wanted : Bool)
  | detach (h : HandleId)
  | exit (value : Nat)
  | assign (dst src : HandleId)
  deriving DecidableEq, Repr

/-- What happens next on the kernel thread. -/
inductive Label where
  | trap (clock : Clock)
  | call (c : Call) (clock : Clock)
  -- The statement at hand; `fresh` is the address a new block would get.
  | run (clock : Clock) (fresh : Addr)

namespace Node

variable {κ : Type}

/-- Set the current task's `no_preempt_flag`. -/
def setFlag (flag : Bool) (n : Node κ) : Node κ :=
  n.modify n.cur fun t => { t with noPreemptFlag := flag }

/-- The current task's `no_preempt_flag`. -/
def flag (n : Node κ) : Bool := (n.tasks n.cur).noPreemptFlag

/-- `preempt_mutex::lock`. -/
def lock (n : Node κ) : Except Fault (Node κ) :=
  if n.flag then .error (.assertion "succ") else .ok (n.setFlag true)

/-- `preempt_mutex::unlock`. -/
def unlock (n : Node κ) : Except Fault (Node κ) :=
  if n.flag then .ok (n.setFlag false) else .error (.assertion "succ")

/-- What `exit` does before it yields: keep the result, stop, and schedule the joiner. -/
def finish (value : Nat) (n : Node κ) : Node κ :=
  let n := n.modify n.cur fun b => { b with returnValue := value, runState := .stopped }
  match (n.tasks n.cur).joiner with
  | none => n
  | some j => n.schedule j

/-- With no joiner, that is all. -/
theorem finish_alone {value : Nat} {n : Node κ} (alone : (n.tasks n.cur).joiner = none) :
    n.finish value =
      n.modify n.cur fun b => { b with returnValue := value, runState := .stopped } := by
  simp [finish, alone]

/-- Otherwise the joiner is scheduled. -/
theorem finish_joined {value : Nat} {n : Node κ} {j : Addr}
    (joins : (n.tasks n.cur).joiner = some j) :
    n.finish value =
      (n.modify n.cur fun b => { b with returnValue := value, runState := .stopped }).schedule
        j := by
  simp [finish, joins]

end Node

namespace Sys

/-- Go on at another statement. -/
def goto (p : Pc) (s : Sys) : Sys := { s with pc := p }

/-- Write to the block at an address. -/
def write (t : Addr) (f : Task Pc → Task Pc) (s : Sys) : Sys :=
  { s with toNode := s.toNode.modify t f }

/-- Mark a handle as in use by the current task's call. -/
def reserve (h : HandleId) (s : Sys) : Sys :=
  { s with busy := Function.update s.busy h (some s.cur) }

/-- Note that a call on a handle has returned, and that it settled the handle's spawn. -/
def settle (h : HandleId) (s : Sys) : Sys :=
  { s with
    handles := Function.update s.handles h none
    busy := Function.update s.busy h none
    settled := s.owner h :: s.settled }

/-- Give a block the next spawn number. -/
def number (t : Addr) (s : Sys) : Sys :=
  { s.write t fun b => { b with spawn := s.next, scheduled := false } with next := s.next + 1 }

/-- `preempt_mutex` held around the scheduler's `yield`, after which the caller is at `p`. -/
def yieldLocked (clock : Clock) (p : Pc) (s : Sys) : Except Fault Sys := do
  let n ← s.lock
  let n ← n.yield clock (.unlock p)
  return { s with toNode := n }

/-- The timer trap. -/
def trap (clock : Clock) (s : Sys) : Except Fault Sys :=
  if s.flag then .ok s else s.yieldLocked clock s.pc

/-- `spawn` up to the lock inside `make_task`. -/
def spawn (a : Attr) (entry : Option Nat) (arg : Nat) (h : HandleId) (s : Sys) : Except Fault Sys :=
  match entry with
  -- The exception goes to the program.
  | none => .ok s
  | some entry =>
    if s.mu ≠ none then .error .blocked
    else .ok ({ s with mu := some s.cur }.reserve h |>.goto (.makeLocked a entry arg h))

/-- `sleep_for`. -/
def sleepFor (start duration : Int) (clock : Clock) (s : Sys) : Except Fault Sys := do
  let n ← s.lock
  let n ← n.yieldFor start duration clock (.unlock .user)
  return { s with toNode := n }

/-- `join` up to the end of its critical section. -/
def join (h : HandleId) (wanted : Bool) (s : Sys) : Except Fault Sys :=
  match s.handles h with
  | none => .ok s
  | some t =>
    if s.flag then .error (.assertion "succ")
    -- The second exception also goes to the program.
    else if (s.tasks t).joiner ≠ none then .ok s
    else if (s.tasks t).runState ≠ .stopped then
      let s := s.write t fun b => { b with joiner := some s.cur }
      let s := s.write s.cur (Task.setState .waiting)
      .ok (s.reserve h |>.goto (.joinYield h wanted))
    else .ok (s.reserve h |>.goto (.take h wanted))

/-- `detach` up to the end of its critical section. -/
def detach (h : HandleId) (s : Sys) : Except Fault Sys :=
  match s.handles h with
  | none => .ok s
  | some t =>
    if s.flag then .error (.assertion "succ")
    else if (s.tasks t).runState ≠ .stopped then
      .ok ((s.write t fun b => { b with detached := true }).settle h)
    else .ok (s.reserve h |>.goto (.take h false))

/-- `exit`, which a task also reaches by returning from its entry function. -/
def exit (value : Nat) (clock : Clock) (s : Sys) : Except Fault Sys :=
  if (s.tasks s.cur).entry = none then .error (.fatal "cannot exit from the root task!")
  else do
    let n ← s.lock
    let n ← (n.finish value).yield clock (.unlock .exited)
    return { s with toNode := n, exits := ((s.tasks s.cur).spawn, value) :: s.exits }

/-- A call of the program. -/
def call (c : Call) (clock : Clock) (s : Sys) : Except Fault Sys :=
  match c with
  | .spawn a entry arg h => s.spawn a entry arg h
  | .yield => s.yieldLocked clock .user
  | .sleepFor start duration => s.sleepFor start duration clock
  | .join h wanted => s.join h wanted
  | .detach h => s.detach h
  | .exit value => s.exit value clock
  | .assign dst src =>
    .ok { s with
      handles := Function.update s.handles dst (s.handles src)
      owner := Function.update s.owner dst (s.owner src) }

/-- `make_task` inside its lock: take a pooled block or leave without one. -/
def makeLocked (a : Attr) (entry arg : Nat) (h : HandleId) (s : Sys) : Sys :=
  match Node.findTask s.tasks a s.pool with
  | some (t, rest) =>
      { s with pool := rest, mu := none }.number t |>.goto (.makeFound t entry arg h)
  | none => { s with mu := none }.goto (.makeCreate a entry arg h)

/-- `task::create`; an address that is taken stands for an allocation that failed. -/
def create (fresh : Addr) (a : Attr) (entry arg : Nat) (h : HandleId) (s : Sys) :
    Except Fault Sys :=
  -- The block's size is never set on a stack of the caller's, and its address not on a failure.
  if a.stack.addr ≠ none ∨ s.mapped fresh then .error .undefined
  else
    let s := s.write fresh fun _ => Task.construct .zero (totalStackSize a) a.allocTls
    let s := { s with mapped := Function.update s.mapped fresh true }
    .ok (s.number fresh |>.goto (.made fresh entry arg h))

/-- `task::start` up to the jump onto the new stack. -/
def startTask (t : Addr) (entry arg : Nat) (h : HandleId) (s : Sys) : Except Fault Sys :=
  let s := s.write t fun b => { b with entry := some entry, arg := arg }
  if (s.tasks t).runState ≠ .stopped then .error (.assertion "run_state == STOPPED")
  else if t = s.cur then .error (.assertion "this != cur")
  else
    -- `gthread_switch_to_and_spawn`, in one step, saves the spawner so as to continue in `start`.
    let s := s.write s.cur (Task.save ⟨.plain (.startBack t h), s.stack⟩)
    .ok ({ s with stack := t }.goto (.startOnNew t h))

/-- The first switch of `gthread_task_entry`: save the new task, load the spawner's context. -/
def switchBack (t : Addr) (s : Sys) : Sys :=
  { s with toNode := s.gthreadSwitchTo t s.cur (.plain .prologue) }

/-- `schedule` inside `spawn`, under `preempt_mutex`. -/
def scheduleNew (t : Addr) (h : HandleId) (s : Sys) : Except Fault Sys :=
  if s.flag then .error (.assertion "succ")
  else .ok ({ s with toNode := s.schedule t }.goto (.spawned t h))

/-- The end of `spawn`: the program's handle receives the task. -/
def giveHandle (t : Addr) (h : HandleId) (s : Sys) : Sys :=
  { s with
    handles := Function.update s.handles h (some t)
    owner := Function.update s.owner h (s.tasks t).spawn
    busy := Function.update s.busy h none }.goto .user

/-- `join` and `detach` once the task has stopped: its result is taken if it is wanted. -/
def takeResult (h : HandleId) (wanted : Bool) (s : Sys) : Except Fault Sys :=
  match s.handles h with
  | none => .error .undefined
  | some t =>
    if (s.tasks t).runState ≠ .stopped then
      .error (.assertion "handle->t->run_state == task::STOPPED")
    else
      let taken := if wanted then [(s.owner h, (s.tasks t).returnValue)] else []
      .ok ({ s with joined := taken ++ s.joined }.goto (.returning h))

/-- The call of `return_task`, up to its lock. -/
def callReturn (h : HandleId) (s : Sys) : Except Fault Sys :=
  match s.handles h with
  | none => .error .undefined
  | some t =>
    if s.mu ≠ none then .error .blocked
    else .ok
      ({ s with toNode := { s.recordReturn t with mu := some s.cur } }.goto (.returnLocked t h))

/-- `return_task` inside its lock. -/
def returnLocked (t : Addr) (h : HandleId) (s : Sys) : Sys :=
  if s.pool.length < s.maxSize then
    { s with pool := Node.insertTask s.tasks t s.pool, mu := none }.goto (.clearHandle h)
  else { s with mu := none }.goto (.returnDestroy t h)

/-- The statement at hand, other than code of the program. -/
def run (clock : Clock) (fresh : Addr) (s : Sys) : Except Fault Sys :=
  match s.pc with
  | .zero | .user => .error .disabled
  | .unlock p => do
    let n ← s.unlock
    return { s with toNode := n }.goto p
  | .prologue => .ok (s.write s.cur (Task.setState .running) |>.goto .user)
  | .makeLocked a entry arg h => .ok (s.makeLocked a entry arg h)
  | .makeFound t entry arg h => .ok (s.write t Task.reset |>.goto (.made t entry arg h))
  | .makeCreate a entry arg h => s.create fresh a entry arg h
  | .made t entry arg h => s.startTask t entry arg h
  | .startOnNew t _ => .ok (s.switchBack t)
  | .startBack t h => .ok (s.write t (Task.setState .suspended) |>.goto (.started t h))
  | .started t h => s.scheduleNew t h
  | .spawned t h => .ok (s.giveHandle t h)
  | .joinYield h wanted => s.yieldLocked clock (.take h wanted)
  | .take h wanted => s.takeResult h wanted
  | .returning h => s.callReturn h
  | .returnLocked t h => .ok (s.returnLocked t h)
  | .returnDestroy t h => .ok ({ s with toNode := s.destroy t }.goto (.clearHandle h))
  | .clearHandle h => .ok (s.settle h |>.goto .user)
  | .exited => .error (.fatal "task end handler did not stop the task!")

/-- One step of the system. -/
def step (s : Sys) : Label → Except Fault Sys
  | .trap clock => s.trap clock
  | .call c clock => if s.pc = .user then s.call c clock else .error .disabled
  | .run clock fresh => s.run clock fresh

/-- A program right after `start_async`, with no handle given out. -/
def start (host : Addr) (tick : Int) (maxSize : Nat) : Sys where
  toNode := Node.startAsync host .zero .user tick maxSize
  handles := fun _ => none
  busy := fun _ => none
  owner := fun _ => 0
  next := 1
  settled := []
  exits := []
  joined := []

end Sys

end Gthread

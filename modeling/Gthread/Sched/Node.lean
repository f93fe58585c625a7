import Gthread.Sched.Rq
import Mathlib.Tactic.Simps.Basic

/-! A scheduler node on its kernel thread: the free list, context switches, and yielding. -/

namespace Gthread

/-- One call of `task_freelist::return_task`, recorded for history only. -/
structure Return where
  block : Addr
  -- The spawn the block served when it was handed back.
  spawn : Nat
  -- The block on whose stack the call was made.
  stack : Addr
  deriving DecidableEq, Repr

/--
A `sched_node` with its free list and the kernel thread that hosts it.

A statement of the code run by a task is a `κ`, and a saved context continues at one.
-/
structure Node (κ : Type) where
  -- The kernel thread: `task::current()`, the next statement, the stack `rsp` points into.
  cur : Addr
  pc : κ
  stack : Addr
  -- Memory: the task blocks, which of them are mapped, and whose TLS block is installed.
  tasks : Addr → Task κ
  mapped : Addr → Bool
  tls : Addr
  -- The fields of `sched_node`.
  running : Bool
  deferred : TaskPtr
  rq : Rq
  lastTick : Int
  -- The fields of `task_freelist`, with the task holding `_mu`.
  pool : List Addr
  maxSize : Nat
  mu : TaskPtr
  -- History: the calls of `return_task`, and whether a non-null `_deferred` was ever overwritten.
  returned : List Return
  overwrote : Bool

/-- The clock readings one pass through the scheduler makes. -/
structure Clock where
  -- Nanoseconds of `vruntime_clock` when the current task is charged, and when the next one starts.
  charged : Int
  tick : Int
  -- The sleep queue's reading of `sleepqueue_clock`, and the reading after idling until a time.
  now : Int
  idle : Int → Int

namespace Node

variable {κ : Type}

/-- Write to the block at an address. -/
@[simps] def modify (at_ : Addr) (write : Task κ → Task κ) (n : Node κ) : Node κ :=
  { n with tasks := Function.update n.tasks at_ (write (n.tasks at_)) }

/-- The virtual runtimes the run queue's comparison reads. -/
def vruntime (n : Node κ) (t : Addr) : Int := (n.tasks t).vruntime

/-- `find_task`: the first pooled task that fits the attributes, with the pool that remains. -/
def findTask (tasks : Addr → Task κ) (a : Attr) : List Addr → Option (Addr × List Addr)
  | [] => none
  | t :: rest =>
    if a.stack.size = (tasks t).totalStackSize ∧ a.allocTls = (tasks t).tls then some (t, rest)
    else (findTask tasks a rest).map fun found => (found.1, t :: found.2)

/-- `insert_task`. -/
def insertTask (tasks : Addr → Task κ) (t : Addr) : List Addr → List Addr
  | [] => [t]
  | i :: rest =>
    if (tasks t).totalStackSize ≥ (tasks i).totalStackSize ∧
        ((tasks t).tls ∨ ¬ (tasks i).tls) then t :: i :: rest
    else i :: insertTask tasks t rest

/-- Record that a block was passed to `return_task`. -/
@[simps] def recordReturn (t : Addr) (n : Node κ) : Node κ :=
  { n with returned := ⟨t, (n.tasks t).spawn, n.stack⟩ :: n.returned }

/-- `task::destroy`: the block's memory is unmapped. -/
@[simps] def destroy (t : Addr) (n : Node κ) : Node κ :=
  { n with mapped := Function.update n.mapped t false }

/-- `task_freelist::return_task`, called where the kernel thread cannot be preempted. -/
def returnTask (t : Addr) (n : Node κ) : Except Fault (Node κ) :=
  let n := n.recordReturn t
  if n.mu ≠ none then .error .blocked
  else if n.pool.length < n.maxSize then .ok { n with pool := insertTask n.tasks t n.pool }
  else .ok (n.destroy t)

/-- Continue at a saved context, finishing `switch_to_internal` where it was saved there. -/
def load (c : Ctx κ) (n : Node κ) : Node κ :=
  { n with pc := c.resume.pc, stack := c.stack }.modify n.cur (Task.resumed c.resume)

/-- `gthread_switch_to`: save into one task's context and load another's. -/
def gthreadSwitchTo (from_ to_ : Addr) (resume : Resume κ) (n : Node κ) : Node κ :=
  let n := n.modify from_ (Task.save ⟨resume, n.stack⟩)
  n.load (n.tasks to_).ctx

/--
`task::switch_to`: suspend the current task, whose call continues at `k`, and switch to `t`.

This is one step: a timer trap between its statements is left out.
-/
def switchTask (t : Addr) (k : κ) (n : Node κ) : Except Fault (Node κ) :=
  let prev := n.cur
  if t = prev then .error (.assertion "switching to current task is a logic error")
  else
    let n := n.modify prev Task.suspend
    -- A task without TLS runs on whatever block is installed.
    let n := { n with cur := t, tls := if (n.tasks t).tls then t else n.tls }
    .ok (n.gthreadSwitchTo prev t (.switched k))

/-- Charge the current task for the time since the last tick. -/
def charge (now : Int) (n : Node κ) : Node κ :=
  n.modify n.cur (Task.charge (now - n.lastTick))

/-- Queue the current task if it can run on; a finished detached one is to be returned later. -/
def requeue (n : Node κ) : Node κ :=
  if (n.tasks n.cur).runState = .running then { n with rq := n.rq.push n.vruntime (some n.cur) }
  else if (n.tasks n.cur).runState = .stopped ∧ (n.tasks n.cur).detached then
    { n with deferred := some n.cur, overwrote := n.overwrote || n.deferred.isSome }
  else n

/-- `sched_node::get_next_task` for the current task. -/
def getNextTask (clock : Clock) (n : Node κ) : Except Fault (Addr × Node κ) := do
  let n := (n.charge clock.charged).requeue
  let (next, rq) ← n.rq.pop n.vruntime clock.now clock.idle
  return (next, { n with rq, lastTick := clock.tick })

/-- Return the task whose return was deferred, if there is one. -/
def flushDeferred (n : Node κ) : Except Fault (Node κ) :=
  match n.deferred with
  | none => .ok n
  | some t => do
    let n ← n.returnTask t
    return { n with deferred := none }

/-- `sched_node::yield`, after which the caller continues at `k`. -/
def yield (clock : Clock) (k : κ) (n : Node κ) : Except Fault (Node κ) :=
  if !n.running then .ok { n with pc := k }
  else do
    let n ← n.flushDeferred
    let (next, n) ← n.getNextTask clock
    if next ≠ n.cur then n.switchTask next k
    else return { n with pc := k }

/-- `sched_node::yield_for`, where the clock reads `start` as the sleeper is queued. -/
def yieldFor (start duration : Int) (clock : Clock) (k : κ) (n : Node κ) : Except Fault (Node κ) :=
  let n := n.modify n.cur (Task.setState .waiting)
  let n := { n with rq := n.rq.sleepPush start duration n.cur }
  n.yield clock k

/-- `sched_node::schedule`. -/
def schedule (t : Addr) (n : Node κ) : Node κ :=
  let n := n.modify t (Task.enqueue n.rq.minVruntime)
  { n with rq := n.rq.push n.vruntime (some t) }

/-- `sched_node::switch_to`. -/
def switchTo (now : Int) (t : Addr) (k : κ) (n : Node κ) : Except Fault (Node κ) :=
  { n.charge now with lastTick := now }.switchTask t k

/-- A node right after `start_async` on a thread whose host task stands at `host`. -/
def startAsync (host : Addr) (zero start : κ) (tick : Int) (maxSize : Nat) : Node κ where
  cur := host
  pc := start
  stack := host
  tasks := Function.update (fun _ => Task.construct zero 0 false) host (Task.wrapCurrent zero host)
  mapped := fun t => t = host
  tls := host
  running := true
  deferred := none
  rq := ⟨[], [], 0⟩
  lastTick := tick
  pool := []
  maxSize := maxSize
  mu := none
  returned := []
  overwrote := false

end Node

end Gthread

import Mathlib.Algebra.Order.Ring.Int
import Mathlib.Logic.Function.Basic
import Mathlib.Tactic.Simps.Basic

/-! Task blocks, the attributes they are made from, and the ways an execution can stop. -/

namespace Gthread

/-- The address of a task block, compared as the run queue compares pointers. -/
abbrev Addr := Nat

/-- A `task*`, with `none` for the null pointer. -/
abbrev TaskPtr := Option Addr

/-- Why a statement has no successor state. -/
inductive Fault where
  -- The running context is not at a statement of the requested kind.
  | disabled
  -- The code dereferences a null pointer or the end of a container.
  | undefined
  -- The kernel thread waits for a lock whose holder cannot run.
  | blocked
  -- An `assert` fails.
  | assertion (text : String)
  -- `gthread_log_fatal` throws.
  | fatal (text : String)
  deriving DecidableEq, Repr

/-- `task::run_state_t`. -/
inductive RunState where
  | running
  | suspended
  | stopped
  | waiting
  deriving DecidableEq, Repr

/-- `attr::stack_t`, with sizes in bytes. -/
structure StackAttr where
  addr : Option Nat
  size : Nat
  guardsize : Nat
  deriving DecidableEq, Repr

/-- `attr`. -/
structure Attr where
  stack : StackAttr
  allocTls : Bool
  deriving DecidableEq, Repr

/-- The value `static_cast<size_t>(-1)`, which asks for the default guard. -/
def sizeMax : Nat := 2 ^ 64 - 1

/-- `k_default_attr`: a large stack and thread-local storage. -/
def kDefaultAttr : Attr := ⟨⟨none, 4 * 1024 * 1024, sizeMax⟩, true⟩

/-- `k_light_attr`: a large stack and no thread-local storage. -/
def kLightAttr : Attr := ⟨⟨none, 4 * 1024 * 1024, sizeMax⟩, false⟩

/-- `k_stack_min`. -/
def kStackMin : Nat := 0x2000

/-- The total stack size `allocate_stack` reports for a stack it maps itself. -/
def totalStackSize (a : Attr) : Nat :=
  (a.stack.size + if a.stack.guardsize ≠ sizeMax then a.stack.guardsize else kStackMin) % 2 ^ 64

/-- Where a saved context continues once it is loaded. -/
inductive Resume (κ : Type) where
  -- Saved by a bare `gthread_switch_to` or `gthread_switch_to_and_spawn`.
  | plain (at_ : κ)
  -- Saved inside `task::switch_to_internal`, whose last statements run first.
  | switched (at_ : κ)
  deriving DecidableEq, Repr

/-- The statement that follows once the context switch itself is finished. -/
def Resume.pc {κ : Type} : Resume κ → κ
  | .plain at_ => at_
  | .switched at_ => at_

/-- The run state once it is finished: the end of `switch_to_internal` sets it to running. -/
def Resume.runState {κ : Type} : Resume κ → RunState → RunState
  | .plain _, state => state
  | .switched _, _ => .running

/-- A `gthread_saved_ctx_t`: the continuation, and the block whose stack `rsp` points into. -/
structure Ctx (κ : Type) where
  resume : Resume κ
  stack : Addr
  deriving DecidableEq, Repr

/-- A task block; the last two fields are history and stand for no field of the source. -/
structure Task (κ : Type) where
  -- Read by `has_tls()`.
  tls : Bool
  ctx : Ctx κ
  totalStackSize : Nat
  runState : RunState
  entry : Option Nat
  arg : Nat
  returnValue : Nat
  joiner : TaskPtr
  detached : Bool
  -- Microseconds.
  vruntime : Int
  priorityBoost : Nat
  noPreemptFlag : Bool
  -- The number of the spawn the block serves.
  spawn : Nat
  -- Whether the block was passed to `schedule()` since that spawn took it.
  scheduled : Bool
  deriving DecidableEq, Repr

namespace Task

variable {κ : Type}

/-- `task::reset`, apart from clearing the thread-local storage itself. -/
def reset (t : Task κ) : Task κ :=
  { t with
    runState := .stopped
    entry := none
    arg := 0
    returnValue := 0
    joiner := none
    detached := false
    vruntime := 0
    priorityBoost := 0
    noPreemptFlag := false }

/-- Leaving in `switch_to_internal`: a task that set its own state keeps it. -/
@[simps] def suspend (t : Task κ) : Task κ :=
  { t with runState := if t.runState = .running then .suspended else t.runState }

/-- Coming back to a saved context. -/
@[simps] def resumed (resume : Resume κ) (t : Task κ) : Task κ :=
  { t with runState := resume.runState t.runState }

/-- Overwrite the saved context. -/
@[simps] def save (c : Ctx κ) (t : Task κ) : Task κ := { t with ctx := c }

/-- Set the run state. -/
@[simps] def setState (state : RunState) (t : Task κ) : Task κ := { t with runState := state }

/-- `duration_cast<microseconds>` of a difference of nanosecond readings. -/
def microseconds (elapsed : Int) : Int := elapsed.tdiv 1000

/-- Add a slice, given in nanoseconds, to the virtual runtime. -/
@[simps] def charge (elapsed : Int) (t : Task κ) : Task κ :=
  { t with vruntime := t.vruntime + microseconds elapsed }

/-- A runtime of zero marks a new task, which starts at the least runtime handed out so far. -/
@[simps] def enqueue (minVruntime : Int) (t : Task κ) : Task κ :=
  { t with
    vruntime := if t.vruntime = 0 then minVruntime else t.vruntime
    scheduled := true }

/-- The constructor `task::create` runs on a new stack; its saved context is all zeros. -/
def construct (zero : κ) (total : Nat) (allocTls : Bool) : Task κ where
  tls := allocTls
  ctx := ⟨.plain zero, 0⟩
  totalStackSize := total
  runState := .stopped
  entry := none
  arg := 0
  returnValue := 0
  joiner := none
  detached := false
  vruntime := 0
  priorityBoost := 0
  noPreemptFlag := false
  spawn := 0
  scheduled := false

/-- A default-constructed task after `wrap_current`, which is how a node holds its host. -/
def wrapCurrent (zero : κ) (host : Addr) : Task κ :=
  { construct zero 0 true with ctx := ⟨.plain zero, host⟩, runState := .running }

end Task

end Gthread

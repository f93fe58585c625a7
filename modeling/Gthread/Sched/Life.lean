import Gthread.Sched.Sched

/-! The life cycle of task blocks: who may use a block, and what every state of it satisfies. -/

namespace Gthread

/-- The statement of a task's own call, below the critical sections that traps have opened. -/
def Pc.base : Pc → Pc
  | .unlock p => p.base
  | p => p

/-- The block on whose stack task `o` runs: its own, but for the excursion onto one it starts. -/
def Pc.stack (o : Addr) : Pc → Addr
  | .startOnNew t _ => t
  | _ => o

/-- The handle the call at a statement works on. -/
def Pc.handle : Pc → Option HandleId
  | .makeLocked _ _ _ h | .makeFound _ _ _ h | .makeCreate _ _ _ h | .made _ _ _ h
  | .startOnNew _ h | .startBack _ h | .started _ h | .spawned _ h
  | .joinYield h _ | .take h _ | .returning h | .returnLocked _ h | .returnDestroy _ h
  | .clearHandle h => some h
  | _ => none

/-- The one reference through which a task can still be joined or detached. -/
inductive Holder where
  -- The local of the `spawn` call some task is in.
  | spawner (o : Addr)
  | handle (h : HandleId)
  deriving DecidableEq, Repr

/-- What a task block is in use for. -/
inductive Phase where
  | unmapped
  | pooled
  -- Taken by the `spawn` of a task, which has not scheduled it yet.
  | building (o : Addr)
  | active (holder : Option Holder)
  -- Finished after it was detached, and waiting for the next `yield`.
  | deferred
  -- Passed to `return_task` by a task that has not put it away yet.
  | returning (o : Addr)
  deriving DecidableEq, Repr

/-- What the number of a block's last spawn says about its phase. -/
inductive Phase.Kind where
  | gone
  | building
  | active (held : Bool)
  | deferred
  deriving DecidableEq, Repr

/-- Forget which tasks and handles a phase names. -/
def Phase.kind : Phase → Kind
  | .unmapped | .pooled | .returning _ => .gone
  | .building _ => .building
  | .active holder => .active holder.isSome
  | .deferred => .deferred

/-- The parts of a system that decide what happens to its task blocks, with a phase for each. -/
@[ext] structure Life where
  phase : Addr → Phase
  -- Control: the running task, the queue, and where each task goes on and on which stack.
  cur : Addr
  running : Bool
  rq : Rq
  at_ : Addr → Pc
  stackOf : Addr → Addr
  -- Where the running task's own saved context would continue.
  saved : Pc × Addr
  -- Whether a task's saved context was saved by a switch to another task.
  switched : Addr → Bool
  -- Fields of the blocks.
  state : Addr → RunState
  joiner : Addr → TaskPtr
  detached : Addr → Bool
  spawn : Addr → Nat
  scheduled : Addr → Bool
  -- The node, the free list and the program's handles.
  pool : List Addr
  deferred : TaskPtr
  mapped : Addr → Bool
  returned : List Return
  overwrote : Bool
  handles : HandleId → TaskPtr
  busy : HandleId → TaskPtr
  owner : HandleId → Nat
  next : Nat
  settled : List Nat

namespace Life

/-- A block that holds a task which has not stopped. -/
def Live (a : Life) (b : Addr) : Prop :=
  (∃ holder, a.phase b = .active holder) ∧ a.state b ≠ .stopped

/-- A block no task but `o` may change the use of. -/
def Owned (a : Life) (o t : Addr) : Prop :=
  a.phase t = .building o ∨ a.phase t = .active (some (.spawner o)) ∨ a.phase t = .returning o ∨
    ∃ h, a.phase t = .active (some (.handle h)) ∧ a.busy h = some o

/-- A handle gives access to the task of the spawn it was given, and is the only one to do so. -/
def Refers (a : Life) (h : HandleId) (t : Addr) : Prop :=
  a.handles h = some t ∧ a.phase t = .active (some (.handle h)) ∧ a.spawn t = a.owner h

/-- Task `o` is about to fill a handle, which until then gives access to what it did before. -/
def Fills (a : Life) (o : Addr) (h : HandleId) : Prop :=
  a.busy h = some o ∧ ∀ t, a.handles h = some t → a.Refers h t

/-- A block a `spawn` has made or reset: it looks like nobody has used it. -/
def Unused (a : Life) (t : Addr) : Prop := a.joiner t = none ∧ a.detached t = false

/-- The block of a spawn was passed to `return_task`. -/
def Returned (a : Life) (m : Nat) : Prop := m ∈ a.returned.map Return.spawn ∧ m ≠ 0

/-- What a task inside a call has to itself, from the statement it is at. -/
def Ok (a : Life) (o : Addr) : Pc → Prop
  | .makeLocked _ _ _ h | .makeCreate _ _ _ h => a.Fills o h
  | .makeFound t _ _ h => a.Fills o h ∧ a.phase t = .building o
  | .made t _ _ h | .startOnNew t h => a.Fills o h ∧ a.phase t = .building o ∧ a.Unused t
  -- From here on the new task has a context of its own, which starts at the prologue.
  | .startBack t h => a.Fills o h ∧ a.phase t = .building o ∧ a.Unused t ∧
      a.at_ t = .prologue ∧ a.stackOf t = t
  | .started t h => a.Fills o h ∧ a.phase t = .building o ∧ a.Unused t ∧
      a.at_ t = .prologue ∧ a.stackOf t = t ∧ a.state t = .suspended
  | .spawned t h => a.Fills o h ∧ a.phase t = .active (some (.spawner o))
  | .joinYield h _ | .take h _ => a.busy h = some o ∧ ∃ t, a.Refers h t
  | .returning h => a.busy h = some o ∧ ∃ t, a.Refers h t ∧ a.state t = .stopped
  | .returnLocked t h | .returnDestroy t h => a.busy h = some o ∧ a.phase t = .returning o ∧
      a.Returned (a.owner h)
  | .clearHandle h => a.busy h = some o ∧ a.Returned (a.owner h)
  | _ => True

/-- The waiting side of a `join`: descheduled or about to be, and known by its handle. -/
def Joining (a : Life) (b j : Addr) : Prop :=
  a.state j = .waiting ∧ (∃ holder, a.phase j = .active holder) ∧ some j ∉ a.rq.runqueue ∧
    ∃ h wanted, (a.at_ j = .joinYield h wanted ∨ (a.at_ j = .take h wanted ∧ j ≠ a.cur)) ∧
      a.handles h = some b ∧ a.busy h = some j

/-- The run queue of a node on which nobody sleeps. -/
structure Queues (a : Life) : Prop where
  running : a.running = true
  awake : a.rq.sleepqueue = []
  nonNull : none ∉ a.rq.runqueue
  nodup : (some a.cur :: a.rq.runqueue).Nodup
  live : ∀ b, some b ∈ a.rq.runqueue → a.Live b

/-- The phases say which blocks are pooled, deferred and mapped. -/
structure Places (phase : Addr → Phase) (pool : List Addr) (deferred : TaskPtr)
    (mapped : Addr → Bool) (overwrote : Bool) : Prop where
  nodup : pool.Nodup
  pooled : ∀ b, b ∈ pool ↔ phase b = .pooled
  held : ∀ b, deferred = some b ↔ phase b = .deferred
  absent : ∀ b, mapped b = false ↔ phase b = .unmapped
  kept : overwrote = false

/-- The spawn numbers of the blocks against those returned and those settled. -/
structure Records (kind : Addr → Phase.Kind) (spawn : Addr → Nat) (detached : Addr → Bool)
    (returned settled : List Nat) (next : Nat) : Prop where
  positive : 0 < next
  pending : ∀ b, kind b ≠ .gone → spawn b < next ∧ spawn b ∉ returned
  distinct : ∀ b c, kind b ≠ .gone → kind c ≠ .gone → spawn b = spawn c → b = c
  once : returned.Nodup
  bound : ∀ m ∈ returned, m < next
  gone : ∀ b, kind b = .gone → spawn b ∈ returned ∨ spawn b = 0
  -- The host has number zero and is the only task that nobody spawned.
  spawned : ∀ b, kind b = .building ∨ kind b = .active true → spawn b ≠ 0
  settles : ∀ m ∈ settled, m < next ∧ m ≠ 0
  building : ∀ b, kind b = .building → spawn b ∉ settled
  active : ∀ b held, kind b = .active held → spawn b ∈ settled → detached b = true

/-- A block without a task that can run is stopped, or not scheduled yet. -/
structure Idle (kind : Addr → Phase.Kind) (state : Addr → RunState) (joiner : Addr → TaskPtr)
    (scheduled : Addr → Bool) : Prop where
  gone : ∀ b, kind b = .gone ∨ kind b = .deferred → state b = .stopped
  building : ∀ b, kind b = .building → scheduled b = false ∧ (state b = .stopped ∨ joiner b = none)

/-- No task is lost: it runs, is queued, or waits for one that has not stopped. -/
structure Conserved (a : Life) : Prop where
  placed : ∀ b, a.Live b →
    b = a.cur ∨ some b ∈ a.rq.runqueue ∨ ∃ t, a.Live t ∧ a.joiner t = some b
  -- The running task will be queued again, unless it joins or has not begun.
  current : a.state a.cur = .running ∨ a.at_ a.cur = .prologue ∨
    ∃ t, a.Live t ∧ a.joiner t = some a.cur
  resumes : ∀ b, a.Live b → b ≠ a.cur → a.switched b = true ∨ a.at_ b = .prologue

/-- What holds before the running task is known to go on. -/
structure Core (a : Life) : Prop where
  queues : a.Queues
  active : ∃ holder, a.phase a.cur = .active holder
  places : Places a.phase a.pool a.deferred a.mapped a.overwrote
  calls : ∀ o, a.Live o → a.Ok o (a.at_ o)
  onStack : ∀ o, a.Live o → a.stackOf o = (a.at_ o).stack o
  busy : ∀ h o, a.busy h = some o → a.Live o ∧ (a.at_ o).handle = some h
  free : ∀ h t, a.busy h = none → a.handles h = some t → a.Refers h t
  joins : ∀ b j, a.Live b → a.joiner b = some j → a.Joining b j
  records : Records (fun b => (a.phase b).kind) a.spawn a.detached
    (a.returned.map Return.spawn) a.settled a.next
  offStack : ∀ r ∈ a.returned, r.block ≠ r.stack
  idle : Idle (fun b => (a.phase b).kind) a.state a.joiner a.scheduled
  -- A detached task is handed over at the yield after it stops, which is still ahead of it.
  finishes : ∀ b holder, a.phase b = .active holder → a.detached b = true →
    holder = none ∧ (a.state b ≠ .stopped ∨ b = a.cur)

/-- The invariant; with `strict` it includes that no task is lost. -/
structure Inv (strict : Prop) (a : Life) : Prop extends Core a where
  going : a.state a.cur ≠ .stopped
  saved : ∀ t h, a.at_ a.cur = .startOnNew t h →
    a.saved = (.startBack t h, a.cur) ∨ a.saved = (.startOnNew t h, t)
  conserved : strict → a.Conserved

end Life

end Gthread

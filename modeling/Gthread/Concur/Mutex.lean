import Gthread.Lib.Run
import Gthread.Concur.Lot

/-! The class `mutex` with any number of tasks, one access to shared memory at a time. -/

namespace Gthread

open Function (update)

/-- Where `spin_lock::lock` was called. -/
inductive LockSite where
  -- At the beginning of `mutex::lock`, after its `park`, and at the beginning of `mutex::unlock`.
  | entry
  | again
  | unlock
  deriving DecidableEq, Repr

/-- The next statement of a task, in `lock` or `unlock`. -/
inductive MutexPc (ι : Type) where
  | idle
  -- `spin_lock::lock`: the test-and-set, and the call of `self::yield` that follows a failed one.
  | acquire (site : LockSite)
  | spin (site : LockSite)
  -- `lock`: the condition of the loop, and its body.
  | test
  | boost
  | boostOwner
  | emplace
  | release (n : Nat)
  | park (n : Nat) (pc : WaiterPc ι)
  | assertParked (succ : Bool)
  | unboost
  -- After the loop; the destructor of `l` comes last.
  | setOwner
  | setBoost
  | leave
  -- `unlock`: the test of `_owner`, and the destructor of `l` when an exception is thrown.
  | checkOwner
  | unwind
  -- Its fast path.
  | testEmpty
  | clearFast
  | releaseFast
  -- Its slow path.
  | unpark (n : Nat) (pc : WaiterPc ι)
  | again (n : Nat)
  | pop
  | clear
  | zeroBoost
  | releaseSlow
  | yield
  deriving DecidableEq, Repr

/-- What happens next to the tasks of a mutex. -/
inductive MutexLabel (ι : Type) where
  | run
  -- The timer takes the processor from the running task.
  | preempt
  | dispatch (p : ι)
  -- Calls of the running task.
  | lock
  | unlock
  deriving DecidableEq, Repr

/-- A mutex, its tasks, and notes that no code reads. -/
structure Mutex (ι : Type) where
  -- The waiters of the list nodes, which are numbered as they are made.
  lot : Lot Nat ι
  -- `_lock`.
  locked : Bool
  owner : Option ι
  -- `_waitqueue`.
  queue : List Nat
  nodes : Nat
  -- `_priority_boost`, and `priority_boost` of each task.
  boost : BitVec 64
  taskBoost : ι → BitVec 64
  pc : ι → MutexPc ι
  -- Whether a task is between a returned `lock` and the store of its `unlock` to `_owner`.
  held : ι → Bool
  -- What the last `unlock` to take the spin lock has found.
  found : Option ι × List Nat × BitVec 64

namespace Mutex

variable {ι : Type} [DecidableEq ι]

/-- Go on at another statement. -/
def goto (p : ι) (pc : MutexPc ι) (s : Mutex ι) : Mutex ι := { s with pc := update s.pc p pc }

/-- Whether a statement of a waiter reads or writes the list node that the waiter is. -/
def touches : WaiterPc ι → Bool
  | .claim | .release | .load | .cas _ => true
  | _ => false

/-- A statement of the waiter in a list node, which has to be in the list if it is touched. -/
def stepNode (p : ι) (n : Nat) (pc : WaiterPc ι) (s : Mutex ι) :
    Except Fault (Outcome ι × Lot Nat ι) :=
  if touches pc ∧ n ∉ s.queue then .error .undefined else s.lot.step p false n pc

/-- The test-and-set of the spin lock finds it free. -/
def acquired (p : ι) (site : LockSite) (s : Mutex ι) : Mutex ι :=
  match site with
  | .entry => { s with locked := true }.goto p .test
  | .again => { s with locked := true }.goto p .unboost
  | .unlock =>
    { s with locked := true, found := (s.owner, s.queue, s.boost) }.goto p .checkOwner

/-- A statement of a task. -/
def runTask (p : ι) (s : Mutex ι) : Except Fault (Mutex ι) :=
  match s.pc p with
  | .idle => .error .disabled
  | .acquire site => .ok (if s.locked then s.goto p (.spin site) else s.acquired p site)
  | .spin site => .ok ({ s with lot := s.lot.yield p }.goto p (.acquire site))
  | .test => .ok (s.goto p (if s.owner = none then .setOwner else .boost))
  | .boost => .ok ({ s with boost := s.boost + 1 }.goto p .boostOwner)
  | .boostOwner =>
    match s.owner with
    | none => .error .undefined
    | some o =>
      .ok ({ s with taskBoost := update s.taskBoost o (s.taskBoost o + 1) }.goto p .emplace)
  | .emplace =>
    -- A new node is at the end of the list, and its waiter is empty.
    .ok ({ s with
      lot := { s.lot with slot := update s.lot.slot s.nodes none }
      queue := s.queue ++ [s.nodes]
      nodes := s.nodes + 1 }.goto p (.release s.nodes))
  | .release n => .ok ({ s with locked := false }.goto p (.park n .claim))
  | .park n pc => do
    let (outcome, lot) ← s.stepNode p n pc
    match outcome with
    | .goto pc => return { s with lot }.goto p (.park n pc)
    | .return_ succ => return { s with lot }.goto p (.assertParked succ)
  | .assertParked succ =>
    if succ then .ok (s.goto p (.acquire .again)) else .error (.assertion "succ")
  | .unboost => .ok ({ s with boost := s.boost - 1 }.goto p .test)
  | .setOwner => .ok ({ s with owner := some p }.goto p .setBoost)
  | .setBoost =>
    .ok ({ s with taskBoost := update s.taskBoost p s.boost }.goto p .leave)
  | .leave => .ok ({ s with locked := false, held := update s.held p true }.goto p .idle)
  | .checkOwner => .ok (s.goto p (if s.owner = some p then .testEmpty else .unwind))
  | .unwind => .ok ({ s with locked := false }.goto p .idle)
  | .testEmpty =>
    match s.queue with
    | [] => .ok (s.goto p .clearFast)
    | n :: _ => .ok (s.goto p (.unpark n .load))
  | .clearFast => .ok ({ s with owner := none, held := update s.held p false }.goto p .releaseFast)
  | .releaseFast => .ok ({ s with locked := false }.goto p .idle)
  | .unpark n pc => do
    let (outcome, lot) ← s.stepNode p n pc
    match outcome with
    | .goto pc => return { s with lot }.goto p (.unpark n pc)
    | .return_ true => return { s with lot }.goto p .pop
    | .return_ false => return { s with lot }.goto p (.again n)
  | .again n => .ok ({ s with lot := s.lot.yield p }.goto p (.unpark n .load))
  | .pop => .ok ({ s with queue := s.queue.tail }.goto p .clear)
  | .clear => .ok ({ s with owner := none, held := update s.held p false }.goto p .zeroBoost)
  | .zeroBoost => .ok ({ s with taskBoost := update s.taskBoost p 0 }.goto p .releaseSlow)
  | .releaseSlow => .ok ({ s with locked := false }.goto p .yield)
  | .yield => .ok ({ s with lot := s.lot.yield p }.goto p .idle)

/-- The running task calls `lock` or `unlock`. -/
def call (site : LockSite) (s : Mutex ι) : Except Fault (Mutex ι) :=
  match s.lot.cpu.running with
  | none => .error .disabled
  | some p => if s.pc p = .idle then .ok (s.goto p (.acquire site)) else .error .disabled

/-- One step of the tasks and their scheduler. -/
def step (s : Mutex ι) : MutexLabel ι → Except Fault (Mutex ι)
  | .run =>
    match s.lot.cpu.running with
    | none => .error .disabled
    | some p => s.runTask p
  | .preempt =>
    match s.lot.cpu.running with
    | none => .error .disabled
    | some p => .ok { s with lot := s.lot.yield p }
  | .dispatch p =>
    if s.lot.cpu.running = none ∧ s.lot.cpu.queued p = true then
      .ok { s with lot := s.lot.enter p }
    else .error .disabled
  | .lock => s.call .entry
  | .unlock => s.call .unlock

/-- A new mutex whose tasks are queued. -/
def start : Mutex ι where
  lot := ⟨⟨none, fun _ => .suspended, fun _ => true⟩, fun _ => none⟩
  locked := false
  owner := none
  queue := []
  nodes := 0
  boost := 0
  taskBoost := fun _ => 0
  pc := fun _ => .idle
  held := fun _ => false
  found := (none, [], 0)

end Mutex

end Gthread

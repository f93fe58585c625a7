import Gthread.Sched.TimeOrderedQueue

/-! The run queue: runnable tasks by virtual runtime, and sleepers by wake time. -/

namespace Gthread

/-- `internal::rq`. -/
structure Rq where
  -- The multiset's elements in iteration order.
  runqueue : List TaskPtr
  sleepqueue : TimeOrderedQueue TaskPtr
  -- Read by `min_vruntime()`.
  minVruntime : Int
  deriving DecidableEq, Repr

namespace Rq

/-- `rq::time_ordered_compare`, where `vruntime` reads the field of the task at an address. -/
def timeOrderedCompare (vruntime : Addr → Int) : TaskPtr → TaskPtr → Bool
  | some a, some b => if vruntime a ≠ vruntime b then vruntime a < vruntime b else a < b
  -- A null is only ever emplaced into an empty set, where nothing is compared.
  | _, _ => false

/-- `std::multiset::emplace`: after every element that is not larger. -/
def emplace (vruntime : Addr → Int) (t : TaskPtr) (runqueue : List TaskPtr) : List TaskPtr :=
  runqueue.orderedInsert (fun a b => timeOrderedCompare vruntime a b) t

/-- `rq::push`. -/
def push (vruntime : Addr → Int) (t : TaskPtr) (q : Rq) : Rq :=
  { q with runqueue := emplace vruntime t q.runqueue }

/-- `rq::sleep_push` at the clock reading `now`; it queues the current task, not its argument. -/
def sleepPush (now duration : Int) (cur : Addr) (q : Rq) : Rq :=
  { q with sleepqueue := q.sleepqueue.push (now + duration) (some cur) }

/--
The first half of `rq::pop`: move at most one sleeper to the run queue.

The sleep queue reads its clock as `now`, and `idle` maps the time given to the idle thunk
to the clock reading at which that thunk returns.
-/
def wakeSleeper (vruntime : Addr → Int) (now : Int) (idle : Int → Int) (q : Rq) : Except Fault Rq :=
  if !q.sleepqueue.empty then do
    let (sleeper, nextRunnable, sleepqueue) ← q.sleepqueue.pop now (some 0)
    let nextRunnable := nextRunnable.getD 0
    if sleeper ≠ none then
      return { q with runqueue := emplace vruntime sleeper q.runqueue, sleepqueue }
    else if q.runqueue.isEmpty then
      if idle nextRunnable ≥ nextRunnable then
        -- The pointer read before the wait is emplaced again, and it is null here.
        return { q with runqueue := emplace vruntime sleeper q.runqueue, sleepqueue }
      else .error (.assertion "sleepqueue_clock::now() >= next_runnable")
    else return { q with sleepqueue }
  else if q.runqueue.isEmpty then .error (.fatal "nothing to do. deadlock?")
  else return q

/-- The second half of `rq::pop`: take the first task off the run queue. -/
def takeFirst (vruntime : Addr → Int) (q : Rq) : Except Fault (Addr × Rq) :=
  match q.runqueue with
  | [] => .error .undefined
  -- Reading `next_task->vruntime` dereferences the null.
  | none :: _ => .error .undefined
  | some next :: rest =>
    .ok (next, { q with
      runqueue := rest
      minVruntime := if q.minVruntime < vruntime next then vruntime next else q.minVruntime })

/-- `rq::pop`. -/
def pop (vruntime : Addr → Int) (now : Int) (idle : Int → Int) (q : Rq) :
    Except Fault (Addr × Rq) := do
  let q ← q.wakeSleeper vruntime now idle
  q.takeFirst vruntime

end Rq

end Gthread

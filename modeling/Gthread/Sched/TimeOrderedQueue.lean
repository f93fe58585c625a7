import Gthread.Lib.StableQueue
import Gthread.Sched.Task

/-! The sleep queue's container: entries ordered by the time at which they become ripe. -/

namespace Gthread

/-- `time_ordered_queue`: its multimap as the list of its entries in iteration order. -/
abbrev TimeOrderedQueue (T : Type) := List (Int × T)

namespace TimeOrderedQueue

variable {T : Type}

/-- `time_ordered_queue::push`: a multimap emplaces after the entries with an equal key. -/
def push (ripe : Int) (u : T) (q : TimeOrderedQueue T) : TimeOrderedQueue T :=
  StableQueue.insert (ripe, u) q

/-- `time_ordered_queue::empty`. -/
def empty (q : TimeOrderedQueue T) : Bool := q.isEmpty

/--
`time_ordered_queue::pop` at the clock reading `now`.

The argument `ripe` is the variable the caller points at, and `none` is a null pointer.
The result is the returned value, that variable afterwards, and the queue left behind.
-/
def pop [Inhabited T] (now : Int) (ripe : Option Int) :
    TimeOrderedQueue T → Except Fault (T × Option Int × TimeOrderedQueue T)
  -- An empty queue has no first entry to dereference.
  | [] => .error .undefined
  | (first, second) :: rest =>
    let ripe := ripe.map fun _ => first
    if first ≥ now then .ok (second, ripe, rest)
    else .ok (default, ripe, (first, second) :: rest)

end TimeOrderedQueue

end Gthread

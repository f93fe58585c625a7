import Gthread.Sched.SchedQueue
import Gthread.Sched.Kernel

/-! What a node adds to the runtimes of its tasks, against the time they had the processor. -/

namespace Gthread

open Function (update update_of_ne update_self)

/-- A node, with the slices each task was charged for and what that added to its runtime. -/
structure Ledger (κ : Type) extends Node κ where
  -- Nanoseconds.
  slices : Addr → List Int
  -- Microseconds.
  added : Addr → Int

/-- What can happen to a node: its member functions, and what the rest of the program does. -/
inductive NodeOp (κ : Type) where
  | yield (clock : Clock) (k : κ)
  | yieldFor (start duration : Int) (clock : Clock) (k : κ)
  | switchTo (now : Int) (t : Addr) (k : κ)
  | schedule (t : Addr)
  -- `task::create` or `task::reset`: the block is that of a new task.
  | renew (t : Addr) (block : Task κ)
  | other (n : Node κ)

namespace Ledger

variable {κ : Type} {a a' : Ledger κ} {op : NodeOp κ} {k : κ} {clock : Clock} {t b host : Addr}

/-- Close the slice of the running task, and add up what its runtime has gained. -/
def close (reading : Int) (n : Node κ) (a : Ledger κ) : Ledger κ where
  toNode := n
  slices := update a.slices a.cur ((reading - a.lastTick) :: a.slices a.cur)
  added b := a.added b + (n.vruntime b - a.vruntime b)

/-- One operation on a node. -/
def step (a : Ledger κ) : NodeOp κ → Except Fault (Ledger κ)
  | .yield clock k => do
    let n ← a.yield clock k
    return a.close clock.charged n
  | .yieldFor start duration clock k => do
    let n ← a.yieldFor start duration clock k
    return a.close clock.charged n
  | .switchTo now t k => do
    let n ← a.switchTo now t k
    return a.close now n
  | .schedule t => .ok { a with toNode := a.schedule t }
  | .renew t block => .ok
    { a with
      toNode := a.modify t fun _ => block
      slices := update a.slices t []
      added := update a.added t 0 }
  | .other n => .ok { a with toNode := n }

/--
Slices are not negative, and the rest of the program changes no runtime.

It also leaves the running task, the last tick and the node's running to the node.
-/
def Admits (a : Ledger κ) : NodeOp κ → Prop
  | .yield clock _ | .yieldFor _ _ clock _ => a.lastTick ≤ clock.charged
  | .switchTo now _ _ => a.lastTick ≤ now
  | .schedule _ => True
  | .renew _ block => block.vruntime = 0
  | .other n => n.cur = a.cur ∧ n.lastTick = a.lastTick ∧ n.running = a.running ∧
      n.vruntime = a.vruntime

/-- A node right after `start_async`, of whose host nothing was charged. -/
def open_ (host : Addr) (zero start : κ) (tick : Int) (maxSize : Nat) : Ledger κ where
  toNode := Node.startAsync host zero start tick maxSize
  slices := fun _ => []
  added := fun _ => 0

/-- The nanoseconds by which a list of slices exceeds whole microseconds. -/
def remainders (slices : List Int) : Int := (slices.map (· % 1000)).sum

/-- What was added is less than one microsecond away from the time the task had. -/
def Accounted (a : Ledger κ) (b : Addr) : Prop :=
  (1000 * a.added b - (a.slices b).sum).natAbs < 1000

/-- The books of a node that runs: slices are not negative, and each was rounded on its own. -/
structure Books (a : Ledger κ) : Prop where
  running : a.running = true
  forward : ∀ b, ∀ slice ∈ a.slices b, 0 ≤ slice
  total : ∀ b, a.added b = ((a.slices b).map Task.microseconds).sum

/-- A slice that is not negative is rounded down. -/
theorem microseconds_eq {slice : Int} (forward : 0 ≤ slice) :
    Task.microseconds slice = slice / 1000 := by
  rw [Task.microseconds, Int.tdiv_eq_ediv_of_nonneg forward]

/-- Whole microseconds and remainders together are the time of the slices. -/
theorem microseconds_add_remainders {slices : List Int} (forward : ∀ slice ∈ slices, 0 ≤ slice) :
    1000 * (slices.map Task.microseconds).sum + remainders slices = slices.sum ∧
      0 ≤ remainders slices := by
  induction slices with
  | nil => exact ⟨rfl, le_rfl⟩
  | cons slice rest ih =>
    have here := microseconds_eq (forward slice List.mem_cons_self)
    have there := ih fun slice member => forward slice (List.mem_cons_of_mem _ member)
    rw [remainders] at there
    simp only [remainders, List.map_cons, List.sum_cons, here]
    omega

/-- Rounded slices add up to nothing if all of them are shorter than one microsecond. -/
theorem microseconds_sum_eq_zero_iff {slices : List Int} (forward : ∀ slice ∈ slices, 0 ≤ slice) :
    ((slices.map Task.microseconds).sum = 0 ↔ ∀ slice ∈ slices, slice < 1000) ∧
      0 ≤ (slices.map Task.microseconds).sum := by
  induction slices with
  | nil => simp
  | cons slice rest ih =>
    have sign := forward slice List.mem_cons_self
    have here := microseconds_eq sign
    obtain ⟨zero, positive⟩ := ih fun slice member => forward slice (List.mem_cons_of_mem _ member)
    rw [List.map_cons, List.sum_cons, List.forall_mem_cons, ← zero, here]
    omega

/-- Closing a slice keeps the books if the running task alone gains, as the code rounds. -/
theorem Books.close {reading : Int} {n : Node κ} (books : a.Books) (forward : a.lastTick ≤ reading)
    (running : n.running = true) (charged : n.vruntime = (a.charge reading).vruntime) :
    (a.close reading n).Books := by
  have here : (a.close reading n).slices a.cur = (reading - a.lastTick) :: a.slices a.cur :=
    update_self _ _ _
  have gained : (a.close reading n).added a.cur =
      a.added a.cur + Task.microseconds (reading - a.lastTick) := by
    show a.added a.cur + (n.vruntime a.cur - a.vruntime a.cur) = _
    rw [charged]
    simp only [Node.charge, Node.vruntime, Node.modify_tasks, update_self, Task.charge_vruntime]
    omega
  have elsewhere : ∀ b, b ≠ a.cur → (a.close reading n).slices b = a.slices b ∧
      (a.close reading n).added b = a.added b := by
    intro b other
    refine ⟨update_of_ne other _ _, ?_⟩
    simp [Ledger.close, charged, Node.charge_vruntime reading other]
  refine ⟨running, fun b slice member => ?_, fun b => ?_⟩
  · by_cases own : b = a.cur
    · subst own
      rw [here] at member
      rcases List.mem_cons.mp member with rfl | before
      · omega
      · exact books.forward a.cur slice before
    · rw [(elsewhere b own).1] at member
      exact books.forward b slice member
  · by_cases own : b = a.cur
    · subst own
      rw [here, gained, List.map_cons, List.sum_cons, books.total a.cur]
      exact Int.add_comm _ _
    · rw [(elsewhere b own).1, (elsewhere b own).2]
      exact books.total b

/-- Only the node's own functions charge, and the running task is all they charge. -/
theorem Books.step (books : a.Books) (admitted : a.Admits op) (ok : a.step op = .ok a') :
    a'.Books := by
  cases op with
  | yield clock k =>
    cases yields : a.yield clock k with
    | error fault => simp [Ledger.step, yields, Bind.bind, Except.bind] at ok
    | ok n =>
      simp only [Ledger.step, yields, Bind.bind, Except.bind, pure, Except.pure,
        Except.ok.injEq] at ok
      subst ok
      have yielded := Node.yield_yielded books.running yields
      exact books.close admitted (yielded.running.trans books.running)
        (Node.yield_vruntime books.running yields)
  | yieldFor start duration clock k =>
    cases yields : a.yieldFor start duration clock k with
    | error fault => simp [Ledger.step, yields, Bind.bind, Except.bind] at ok
    | ok n =>
      simp only [Ledger.step, yields, Bind.bind, Except.bind, pure, Except.pure,
        Except.ok.injEq] at ok
      subst ok
      have yielded := Node.yieldFor_yielded books.running yields
      refine books.close admitted (yielded.running.trans books.running) ?_
      let asleep : Node κ := { a.modify a.cur (Task.setState .waiting) with
        rq := a.rq.sleepPush start duration a.cur }
      refine (Node.yield_vruntime (n := asleep) books.running yields).trans ?_
      -- Going to sleep changes the run state, and no runtime.
      funext b
      simp only [asleep, Node.charge, Node.vruntime, Node.modify, Function.update_apply]
      split_ifs <;> simp_all
  | switchTo now t k =>
    cases switches : a.switchTo now t k with
    | error fault => simp [Ledger.step, switches, Bind.bind, Except.bind] at ok
    | ok n =>
      simp only [Ledger.step, switches, Bind.bind, Except.bind, pure, Except.pure,
        Except.ok.injEq] at ok
      subst ok
      have switched := Node.switchTask_switched switches
      exact books.close admitted (switched.running.trans books.running)
        (Node.switchTask_vruntime (n := { a.charge now with lastTick := now }) switches)
  | schedule t =>
    simp only [Ledger.step, Except.ok.injEq] at ok
    subst ok
    exact ⟨books.running, books.forward, books.total⟩
  | renew t block =>
    simp only [Ledger.step, Except.ok.injEq] at ok
    subst ok
    refine ⟨books.running, fun b slice member => ?_, fun b => ?_⟩
    · by_cases new : b = t
      · simp [new] at member
      · exact books.forward b slice (by simpa [new] using member)
    · by_cases new : b = t
      · simp [new]
      · simpa [new] using books.total b
  | other n =>
    simp only [Ledger.step, Except.ok.injEq] at ok
    subst ok
    exact ⟨admitted.2.2.1.trans books.running, books.forward, books.total⟩

/-- The books of every state reached. -/
theorem books_reaches {zero start : κ} {tick : Int} {maxSize : Nat}
    (reached : Run.Reaches step Admits (open_ host zero start tick maxSize) a) : a.Books := by
  refine Run.Reaches.invariant (P := Books) ⟨rfl, ?_, fun b => rfl⟩ ?_ reached
  · intro b slice member
    cases member
  · exact fun _ _ _ books admitted ok => books.step admitted ok

/-- Accounts do not drift exactly while the remainders stay below one microsecond. -/
theorem accounted_iff {zero start : κ} {tick : Int} {maxSize : Nat}
    (reached : Run.Reaches step Admits (open_ host zero start tick maxSize) a) (b : Addr) :
    (a.Accounted b ↔ remainders (a.slices b) < 1000) ∧
      (a.added b = 0 ↔ ∀ slice ∈ a.slices b, slice < 1000) := by
  have books := books_reaches reached
  obtain ⟨balance, positive⟩ := microseconds_add_remainders (books.forward b)
  obtain ⟨zero, -⟩ := microseconds_sum_eq_zero_iff (books.forward b)
  rw [← books.total b] at balance zero
  refine ⟨?_, zero⟩
  rw [Accounted]
  omega

/-- A host that is alone yields at two readings of the clock. -/
theorem twoYields_reaches (first second : Int) (forward : 0 ≤ first ∧ first ≤ second) :
    ∃ a : Ledger Unit, Run.Reaches step Admits (open_ 0 () () 0 4) a ∧
      a.slices 0 = [second - first, first - 0] := by
  let ops : Int → NodeOp Unit := fun reading => .yield (Sys.clockAt reading) ()
  have start : Run.Reaches step Admits (open_ 0 () () 0 4 : Ledger Unit) (open_ 0 () () 0 4) :=
    .refl
  have once := start.tail (show Admits _ (ops first) from forward.1) rfl
  have twice := once.tail (show Admits _ (ops second) from forward.2) rfl
  exact ⟨_, twice, rfl⟩

/-- Slices of 1500 and 1400 nanoseconds are accounted for to less than a microsecond. -/
theorem accounted_of_long_slices : ∃ a : Ledger Unit,
    Run.Reaches step Admits (open_ 0 () () 0 4) a ∧ a.slices 0 = [1400, 1500] ∧ a.Accounted 0 := by
  obtain ⟨a, reached, slices⟩ := twoYields_reaches 1500 2900 (by decide)
  refine ⟨a, reached, slices, ((accounted_iff reached 0).1).mpr ?_⟩
  rw [slices]
  decide

/-- Two slices of 600 nanoseconds are lost, and the task still has the least runtime. -/
theorem short_slices_are_lost : ¬ ∀ a : Ledger Unit,
    Run.Reaches step Admits (open_ 0 () () 0 4) a → ∀ b, a.Accounted b := by
  intro accounted
  obtain ⟨a, reached, slices⟩ := twoYields_reaches 600 1200 (by decide)
  have within := accounted a reached 0
  have zero : a.added 0 = 0 := by
    refine ((accounted_iff reached 0).2).mpr ?_
    rw [slices]
    decide
  rw [Accounted, zero, slices] at within
  revert within
  decide

/-- One node is got from another by operations that the ledger records. -/
def Follows (n n' : Node κ) : Prop :=
  ∀ slices added, ∃ slices' added',
    Run.Reaches step Admits ⟨n, slices, added⟩ ⟨n', slices', added'⟩

variable {n n' n'' : Node κ}

theorem Follows.trans (first : Follows n n') (second : Follows n' n'') : Follows n n'' := by
  intro slices added
  obtain ⟨slices', added', before⟩ := first slices added
  obtain ⟨slices'', added'', after⟩ := second slices' added'
  exact ⟨slices'', added'', before.trans after⟩

/-- What changes no runtime, and is not the node's to change, is not recorded. -/
theorem Follows.other (cur : n'.cur = n.cur) (tick : n'.lastTick = n.lastTick)
    (running : n'.running = n.running) (same : n'.vruntime = n.vruntime) : Follows n n' := by
  intro slices added
  have admitted : Admits ⟨n, slices, added⟩ (.other n') := ⟨cur, tick, running, same⟩
  exact ⟨slices, added, Run.Reaches.refl.tail admitted rfl⟩

/-- A write to one block that keeps its runtime is not recorded. -/
theorem Follows.modify (t : Addr) (f : Task κ → Task κ)
    (same : (f (n.tasks t)).vruntime = (n.tasks t).vruntime) : Follows n (n.modify t f) := by
  refine .other rfl rfl rfl ?_
  funext b
  by_cases here : b = t
  · subst here
    simpa [Node.vruntime] using same
  · simp [Node.vruntime, here]

/-- A yield is recorded. -/
theorem Follows.yield (forward : n.lastTick ≤ clock.charged) (ok : n.yield clock k = .ok n') :
    Follows n n' := by
  intro slices added
  have admitted : Admits ⟨n, slices, added⟩ (.yield clock k) := forward
  have closes : step ⟨n, slices, added⟩ (.yield clock k) =
      .ok (close clock.charged n' ⟨n, slices, added⟩) := by
    simp [Ledger.step, ok, Bind.bind, Except.bind, pure, Except.pure]
  exact ⟨_, _, Run.Reaches.refl.tail admitted closes⟩

/-- So is a sleep. -/
theorem Follows.yieldFor {start duration : Int} (forward : n.lastTick ≤ clock.charged)
    (ok : n.yieldFor start duration clock k = .ok n') : Follows n n' := by
  intro slices added
  have admitted : Admits ⟨n, slices, added⟩ (.yieldFor start duration clock k) := forward
  have closes : step ⟨n, slices, added⟩ (.yieldFor start duration clock k) =
      .ok (close clock.charged n' ⟨n, slices, added⟩) := by
    simp [Ledger.step, ok, Bind.bind, Except.bind, pure, Except.pure]
  exact ⟨_, _, Run.Reaches.refl.tail admitted closes⟩

/-- So is a direct switch. -/
theorem Follows.switchTo {now : Int} (forward : n.lastTick ≤ now)
    (ok : n.switchTo now t k = .ok n') : Follows n n' := by
  intro slices added
  have admitted : Admits ⟨n, slices, added⟩ (.switchTo now t k) := forward
  have closes : step ⟨n, slices, added⟩ (.switchTo now t k) =
      .ok (close now n' ⟨n, slices, added⟩) := by
    simp [Ledger.step, ok, Bind.bind, Except.bind, pure, Except.pure]
  exact ⟨_, _, Run.Reaches.refl.tail admitted closes⟩

/-- Scheduling a task charges nobody. -/
theorem Follows.schedule (n : Node κ) (t : Addr) : Follows n (n.schedule t) := by
  intro slices added
  have admitted : Admits ⟨n, slices, added⟩ (.schedule t) := trivial
  exact ⟨slices, added, Run.Reaches.refl.tail admitted rfl⟩

/-- A block of a new task starts a new account. -/
theorem Follows.renew (n : Node κ) (t : Addr) {block : Task κ} (zero : block.vruntime = 0) :
    Follows n (n.modify t fun _ => block) := by
  intro slices added
  have admitted : Admits ⟨n, slices, added⟩ (.renew t block) := zero
  exact ⟨update slices t [], update added t 0, Run.Reaches.refl.tail admitted rfl⟩

end Ledger

namespace Kernel

open Ledger (Follows)

variable {s s' : Sys} {k k' : Kernel} {l : KernelLabel} {clock : Clock} {p : Pc}

/-- The reading of the clock at which a step charges the running task. -/
def charges (k : Kernel) : KernelLabel → Option Int
  | .sched (.trap clock) => if k.flag then none else some clock.charged
  | .sched (.call .yield clock) | .sched (.call (.exit _) clock)
  | .sched (.call (.sleepFor _ _) clock) => some clock.charged
  | .sched (.call _ _) => none
  | .sched (.run clock _) =>
    match k.pc with
    | .joinYield _ _ => some clock.charged
    | _ => none
  | .enter _ _ => none
  | .wait clock _ =>
    match k.inside k.cur with
    | some (_, .yield) | some (_, .switch _) => some clock.charged
    | _ => none

/-- The clock does not go back from the last tick to the reading at which a slice is charged. -/
def Forward (k : Kernel) (l : KernelLabel) : Prop :=
  ∀ reading, k.charges l = some reading → k.lastTick ≤ reading

/-- Setting the preempt flag is not recorded. -/
theorem follows_setFlag (flag : Bool) (n : Node Pc) : Follows n (n.setFlag flag) :=
  .modify n.cur (fun t => { t with noPreemptFlag := flag }) rfl

/-- A yield under the preempt flag is recorded. -/
theorem follows_yieldLocked (running : s.running = true) (forward : s.lastTick ≤ clock.charged)
    (ok : s.yieldLocked clock p = .ok s') : Follows s.toNode s'.toNode := by
  obtain ⟨-, n, rfl, yields, -⟩ := Sys.yieldLocked_ok running ok
  exact (follows_setFlag true s.toNode).trans (.yield forward yields)

/-- Ending a task charges nobody but its joiner's queue entry. -/
theorem follows_finish (value : Nat) (n : Node Pc) : Follows n (n.finish value) := by
  have stopped : Follows n (n.modify n.cur fun b =>
      { b with returnValue := value, runState := .stopped }) := .modify _ _ rfl
  unfold Node.finish
  dsimp only
  split
  · exact stopped
  · exact stopped.trans (.schedule _ _)

/-- A call of `sleep_for` is recorded. -/
theorem follows_sleepFor {start duration : Int} (forward : s.lastTick ≤ clock.charged)
    (ok : s.sleepFor start duration clock = .ok s') : Follows s.toNode s'.toNode := by
  cases locked : s.lock with
  | error fault => simp [Sys.sleepFor, locked, Bind.bind, Except.bind] at ok
  | ok n =>
    obtain ⟨-, rfl⟩ := Sys.lock_ok locked
    cases done : (s.setFlag true).yieldFor start duration clock (.unlock .user) with
    | error fault => simp [Sys.sleepFor, locked, done, Bind.bind, Except.bind] at ok
    | ok n =>
      simp only [Sys.sleepFor, locked, done, Bind.bind, Except.bind, pure, Except.pure,
        Except.ok.injEq] at ok
      subst ok
      exact (follows_setFlag true s.toNode).trans (.yieldFor forward done)

/-- A step that leaves the node's own fields and all runtimes is not recorded. -/
theorem follows_still (cur : s'.cur = s.cur) (tick : s'.lastTick = s.lastTick)
    (running : s'.running = s.running)
    (same : ∀ b, (s'.tasks b).vruntime = (s.tasks b).vruntime) : Follows s.toNode s'.toNode :=
  .other cur tick running (funext same)

/-- Every step of the scheduler's interface is recorded. -/
theorem follows_step {l : Label} (running : k.running = true) (forward : k.Forward (.sched l))
    (ok : k.toSys.step l = .ok s') : Follows k.toNode s'.toNode := by
  cases Sys.stepped_of_ok ok with
  | @yields _ clock p _ leaves ok =>
    refine follows_yieldLocked running (forward clock.charged ?_) ok
    cases leaves with
    | trap => simp [charges, (Sys.yieldLocked_ok running ok).1]
    | call at_ => rfl
    | join at_ => simp [charges, at_]
  | sleeps at_ ok => exact follows_sleepFor (forward _ rfl) ok
  | @exits value clock _ at_ ok =>
    obtain ⟨-, -, n, rfl, yields, -⟩ := Sys.exit_ok running ok
    have ends := (follows_setFlag true k.toNode).trans (follows_finish value _)
    refine ends.trans (.yield ?_ yields)
    have tick : ((k.setFlag true).finish value).lastTick = k.lastTick := by
      unfold Node.finish
      dsimp only
      split <;> rfl
    rw [tick]
    exact forward _ rfl
  | waits at_ points clear unjoined going =>
    refine follows_still rfl rfl rfl fun b => ?_
    simp only [Sys.goto, Sys.reserve, Sys.write_tasks]
    split_ifs <;> simp_all
  | detaches at_ points clear going =>
    refine follows_still rfl rfl rfl fun b => ?_
    simp only [Sys.settle, Sys.write_tasks]
    split_ifs <;> simp_all
  | unlocks at_ held =>
    exact follows_still rfl rfl rfl fun b => congrFun (Sys.setFlag_vruntime false k.toNode) b
  | begins at_ =>
    refine follows_still rfl rfl rfl fun b => ?_
    simp only [Sys.goto, Sys.write_tasks]
    split_ifs <;> simp_all
  | @finds a entry arg h t rest clock fresh at_ found =>
    refine follows_still rfl rfl rfl fun b => ?_
    simp only [Sys.goto, Sys.number_tasks]
    split_ifs <;> simp_all
  | @resets t entry arg h clock fresh at_ =>
    have renewed := Follows.renew k.toNode t (show (k.tasks t).reset.vruntime = 0 from rfl)
    exact renewed.trans (.other rfl rfl rfl rfl)
  | @creates a entry arg h clock fresh at_ unmapped =>
    have zero : (Task.construct Pc.zero (totalStackSize a) a.allocTls).vruntime = 0 := rfl
    refine (Follows.renew k.toNode fresh zero).trans (.other rfl rfl rfl (funext fun b => ?_))
    simp only [Node.vruntime, Sys.goto, Sys.number_tasks, Sys.write_tasks, Node.modify_tasks,
      Function.update_apply]
    split_ifs <;> simp_all
  | @launches t entry arg h clock fresh at_ stopped other =>
    refine follows_still rfl rfl rfl fun b => ?_
    simp only [Sys.goto, Sys.write_tasks]
    split_ifs <;> simp_all
  | @lands t h clock fresh at_ =>
    refine follows_still rfl rfl rfl fun b => ?_
    simp only [Sys.switchBack, Node.gthreadSwitchTo, Node.load, Node.modify_tasks,
      Function.update_apply]
    split_ifs <;> simp_all
  | suspends at_ =>
    refine follows_still rfl rfl rfl fun b => ?_
    simp only [Sys.goto, Sys.write_tasks]
    split_ifs <;> simp_all
  | publishes at_ clear => exact (Follows.schedule _ _).trans (.other rfl rfl rfl rfl)
  | _ => exact follows_still rfl rfl rfl fun _ => rfl

/-- A statement of a waiter is recorded if it goes through the node. -/
theorem follows_wait {w : WaiterId} {pc : WaiterPc Addr} {holds : Bool}
    (running : k.running = true) (within : k.inside k.cur = some (w, pc))
    (forward : k.Forward (.wait clock holds)) (ok : k.wait w pc clock holds = .ok k') :
    Follows k.toNode k'.toNode := by
  have still : Follows k.toNode k.toNode := .other rfl rfl rfl rfl
  cases pc with
  | mark =>
    simp only [wait, Except.ok.injEq] at ok
    subst ok
    exact .modify k.cur (Task.setState .waiting) rfl
  | yield =>
    obtain ⟨-, s, yields, rfl⟩ := throughNode_ok ok
    exact follows_yieldLocked (s := k.toSys) running (forward _ (by simp [charges, within])) yields
  | wake q =>
    simp only [wait] at ok
    split at ok
    · cases ok
    · obtain ⟨-, s, wakes, rfl⟩ := throughNode_ok ok
      obtain ⟨-, rfl⟩ := Sys.wake_ok wakes
      have woken : Follows k.toNode (k.modify q (Task.setState .suspended)) := .modify q _ rfl
      exact woken.trans (.schedule _ q)
  | switch q =>
    obtain ⟨-, s, swaps, rfl⟩ := throughNode_ok ok
    obtain ⟨-, n, rfl, switches, -⟩ := Sys.swapTo_ok swaps
    have waiting : Follows (k.setFlag true)
        ((k.setFlag true).modify k.cur (Task.setState .waiting)) := .modify k.cur _ rfl
    refine ((follows_setFlag true k.toNode).trans waiting).trans (.switchTo ?_ switches)
    exact forward _ (by simp [charges, within])
  | _ =>
    -- The other statements touch the waiter alone.
    simp only [wait] at ok
    try split at ok
    all_goals
      simp only [Except.ok.injEq] at ok
      subst ok
      exact still

/-- Every step of the kernel thread is recorded. -/
theorem follows_next (running : k.running = true) (forward : k.Forward l)
    (ok : k.step l = .ok k') : Follows k.toNode k'.toNode := by
  cases l with
  | sched l => exact follows_step running forward (sched_ok ok).step
  | enter w c =>
    simp only [step] at ok
    split at ok
    · simp only [Except.ok.injEq] at ok
      subst ok
      exact .other rfl rfl rfl rfl
    · cases ok
  | wait clock holds =>
    simp only [step] at ok
    split at ok
    · split at ok
      · cases ok
      · rename_i w pc within
        exact follows_wait running within forward ok
    · cases ok

/-- Every run of the kernel thread on a clock that does not go back is a run of the ledger. -/
theorem ledger_of_reaches {host : Addr} {tick : Int} {maxSize : Nat}
    (reached : Run.Reaches step Forward (boot host tick maxSize) k) : ∃ a : Ledger Pc,
      a.toNode = k.toNode ∧
      Run.Reaches Ledger.step Ledger.Admits (Ledger.open_ host .zero .user tick maxSize) a := by
  refine Run.Reaches.invariant (P := fun k : Kernel => ∃ a : Ledger Pc, a.toNode = k.toNode ∧
    Run.Reaches Ledger.step Ledger.Admits
      (Ledger.open_ host .zero .user tick maxSize) a) ?_ ?_ reached
  · exact ⟨Ledger.open_ host .zero .user tick maxSize, rfl, .refl⟩
  · rintro k l k' ⟨a, same, before⟩ forward ok
    have running : k.running = true := same ▸ (Ledger.books_reaches before).running
    obtain ⟨slices, added, after⟩ := follows_next running forward ok a.slices a.added
    rw [← same] at after
    exact ⟨_, rfl, before.trans after⟩

end Kernel

end Gthread

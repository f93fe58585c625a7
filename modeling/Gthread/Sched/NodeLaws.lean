import Gthread.Sched.Node
import Gthread.Sched.RqLaws

/-! What yielding does to a node, and in which run state it returns to a task. -/

namespace Gthread

variable {κ : Type}

/-- The fields of a block that passing through the scheduler leaves alone. -/
structure Task.Kept (t u : Task κ) : Prop where
  tls : u.tls = t.tls
  totalStackSize : u.totalStackSize = t.totalStackSize
  entry : u.entry = t.entry
  returnValue : u.returnValue = t.returnValue
  joiner : u.joiner = t.joiner
  detached : u.detached = t.detached
  noPreemptFlag : u.noPreemptFlag = t.noPreemptFlag
  spawn : u.spawn = t.spawn
  scheduled : u.scheduled = t.scheduled

namespace Task.Kept

/-- Leaving a block alone keeps its fields. -/
protected theorem refl (t : Task κ) : t.Kept t := by constructor <;> rfl

/-- Keeping fields twice keeps them. -/
protected theorem trans {t u v : Task κ} (first : t.Kept u) (second : u.Kept v) : t.Kept v where
  tls := second.tls.trans first.tls
  totalStackSize := second.totalStackSize.trans first.totalStackSize
  entry := second.entry.trans first.entry
  returnValue := second.returnValue.trans first.returnValue
  joiner := second.joiner.trans first.joiner
  detached := second.detached.trans first.detached
  noPreemptFlag := second.noPreemptFlag.trans first.noPreemptFlag
  spawn := second.spawn.trans first.spawn
  scheduled := second.scheduled.trans first.scheduled

/-- A write that keeps the fields of every block keeps those of the block it is applied to. -/
theorem modify {write : Task κ → Task κ} (keeps : ∀ t : Task κ, t.Kept (write t)) (n : Node κ)
    (at_ b : Addr) : (n.tasks b).Kept ((n.modify at_ write).tasks b) := by
  by_cases here : b = at_
  · subst here
    simpa using keeps (n.tasks b)
  · simpa [here] using Task.Kept.refl (n.tasks b)

end Task.Kept

namespace Task

theorem kept_suspend (t : Task κ) : t.Kept t.suspend := by constructor <;> rfl

theorem kept_save (c : Ctx κ) (t : Task κ) : t.Kept (t.save c) := by constructor <;> rfl

theorem kept_resumed (resume : Resume κ) (t : Task κ) : t.Kept (t.resumed resume) := by
  constructor <;> rfl

theorem kept_charge (elapsed : Int) (t : Task κ) : t.Kept (t.charge elapsed) := by
  constructor <;> rfl

end Task

namespace Node

/-- What switching from the current task to another one does. -/
structure Switched (n n' : Node κ) (t : Addr) (k : κ) : Prop where
  other : t ≠ n.cur
  cur : n'.cur = t
  pc : n'.pc = (n.tasks t).ctx.resume.pc
  stack : n'.stack = (n.tasks t).ctx.stack
  rq : n'.rq = n.rq
  deferred : n'.deferred = n.deferred
  running : n'.running = n.running
  mu : n'.mu = n.mu
  pool : n'.pool = n.pool
  mapped : n'.mapped = n.mapped
  returned : n'.returned = n.returned
  overwrote : n'.overwrote = n.overwrote
  kept : ∀ b, (n.tasks b).Kept (n'.tasks b)
  -- The task left behind is suspended unless it set its own state.
  left : (n'.tasks n.cur).runState =
    if (n.tasks n.cur).runState = .running then .suspended else (n.tasks n.cur).runState
  saved : (n'.tasks n.cur).ctx = ⟨.switched k, n.stack⟩
  -- The task switched to runs again if it was switched away from before.
  entered : (n'.tasks t).runState = (n.tasks t).ctx.resume.runState (n.tasks t).runState
  others : ∀ b, b ≠ n.cur → (n'.tasks b).ctx = (n.tasks b).ctx ∧
    (b ≠ t → (n'.tasks b).runState = (n.tasks b).runState)

variable {n n' : Node κ} {k : κ} {t : Addr}

/-- A successful switch has exactly these effects. -/
theorem switchTask_switched (switched : n.switchTask t k = .ok n') : n.Switched n' t k := by
  simp only [switchTask] at switched
  split at switched
  · simp at switched
  · rename_i other
    have apart : n.cur ≠ t := fun same => other same.symm
    simp only [Except.ok.injEq, gthreadSwitchTo, load] at switched
    subst switched
    -- The current task is written first, so the context loaded is the target's old one.
    refine
      { other, cur := rfl, pc := by simp [other], stack := by simp [other], rq := rfl,
        deferred := rfl, running := rfl, mu := rfl, pool := rfl, mapped := rfl, returned := rfl,
        overwrote := rfl, kept := ?_, left := by simp [apart], saved := by simp [apart],
        entered := by simp [other], others := ?_ }
    · intro b
      by_cases here : b = n.cur
      · subst here
        simpa [apart] using (n.tasks n.cur).kept_suspend.trans (Task.kept_save _ _)
      · by_cases there : b = t
        · subst there
          simpa [other] using Task.kept_resumed _ _
        · simpa [here, there] using Task.Kept.refl _
    · intro b elsewhere
      by_cases there : b = t
      · subst there
        simp [elsewhere]
      · simp [elsewhere, there]

/-- A block was passed to `return_task`, which pooled it or unmapped it. -/
structure HandedBack (n n' : Node κ) (d : Addr) : Prop where
  returned : n'.returned = ⟨d, (n.tasks d).spawn, n.stack⟩ :: n.returned
  went : (n'.pool = insertTask n.tasks d n.pool ∧ n'.mapped = n.mapped) ∨
    (n'.pool = n.pool ∧ n'.mapped = Function.update n.mapped d false)

/-- The free list and the history are as before. -/
structure NoneBack (n n' : Node κ) : Prop where
  returned : n'.returned = n.returned
  pool : n'.pool = n.pool
  mapped : n'.mapped = n.mapped

/-- A deferred task was handed back if there was one. -/
def Flushed (n n' : Node κ) : Prop :=
  (n.deferred = none ∧ n.NoneBack n') ∨ ∃ d, n.deferred = some d ∧ n.HandedBack n' d

/-- Later steps that leave the free list and the history alone do not undo a flush. -/
theorem Flushed.congr {n'' : Node κ} (flushed : n.Flushed n')
    (returned : n''.returned = n'.returned)
    (pool : n''.pool = n'.pool) (mapped : n''.mapped = n'.mapped) : n.Flushed n'' := by
  rcases flushed with ⟨none_, kept⟩ | ⟨d, some_, handed⟩
  · exact .inl ⟨none_, returned.trans kept.returned, pool.trans kept.pool, mapped.trans kept.mapped⟩
  · refine .inr ⟨d, some_, returned.trans handed.returned, ?_⟩
    rw [pool, mapped]
    exact handed.went

/-- The run queue a yielding task pops from: it queued itself if it can run on. -/
def offered (clock : Clock) (n : Node κ) : Rq :=
  if (n.tasks n.cur).runState = .running
  then n.rq.push (n.charge clock.charged).vruntime (some n.cur) else n.rq

/-- What is settled once the next task is chosen, whether or not a switch to it follows. -/
structure Chosen (clock : Clock) (n n' : Node κ) (next : Addr) : Prop where
  running : n'.running = n.running
  mu : n'.mu = n.mu
  -- The flush did not have to wait for the free list's lock.
  unblocked : n.deferred = none ∨ n.mu = none
  flushed : n.Flushed n'
  deferred : n'.deferred =
    if (n.tasks n.cur).runState = .stopped ∧ (n.tasks n.cur).detached then some n.cur else none
  overwrote : n'.overwrote = n.overwrote
  popped : (n.offered clock).pop (n.charge clock.charged).vruntime clock.now clock.idle =
    .ok (next, n'.rq)
  kept : ∀ b, (n.tasks b).Kept (n'.tasks b)

/-- The current task, its position and every saved context and run state are as before. -/
structure Stayed (n n' : Node κ) : Prop where
  cur : n'.cur = n.cur
  stack : n'.stack = n.stack
  unchanged : ∀ b, (n'.tasks b).runState = (n.tasks b).runState ∧ (n'.tasks b).ctx = (n.tasks b).ctx

/-- The caller's context is saved to continue at `k`, and another task's is loaded. -/
structure Moved (k : κ) (n n' : Node κ) : Prop where
  other : n'.cur ≠ n.cur
  pc : n'.pc = (n.tasks n'.cur).ctx.resume.pc
  stack : n'.stack = (n.tasks n'.cur).ctx.stack
  saved : (n'.tasks n.cur).ctx = ⟨.switched k, n.stack⟩
  left : (n'.tasks n.cur).runState =
    if (n.tasks n.cur).runState = .running then .suspended else (n.tasks n.cur).runState
  entered : (n'.tasks n'.cur).runState =
    (n.tasks n'.cur).ctx.resume.runState (n.tasks n'.cur).runState
  others : ∀ b, b ≠ n.cur → (n'.tasks b).ctx = (n.tasks b).ctx ∧
    (b ≠ n'.cur → (n'.tasks b).runState = (n.tasks b).runState)

/-- What a completed `yield` of a running node has done. -/
structure Yielded (clock : Clock) (k : κ) (n n' : Node κ) : Prop extends
    Chosen clock n n' n'.cur where
  -- Without a switch the caller goes on where it was, in the state it was in.
  went : (n.Stayed n' ∧ n'.pc = k) ∨ Moved k n n'

/-- Flushing changes only the free list, the history and the deferred task. -/
theorem flushDeferred_ok {flushed : Node κ} (ok : n.flushDeferred = .ok flushed) :
    (∃ pool mapped returned,
      flushed = { n with deferred := none, pool := pool, mapped := mapped, returned := returned }) ∧
    n.Flushed flushed ∧ (n.deferred = none ∨ n.mu = none) := by
  cases held : n.deferred with
  | none =>
    simp only [flushDeferred, held, Except.ok.injEq] at ok
    subst ok
    refine ⟨⟨n.pool, n.mapped, n.returned, ?_⟩, .inl ⟨held, rfl, rfl, rfl⟩, .inl rfl⟩
    rw [← held]
  | some d =>
    simp only [flushDeferred, held, returnTask, Bind.bind, Except.bind, pure, Except.pure] at ok
    by_cases locked : (n.recordReturn d).mu ≠ none
    · rw [if_pos locked] at ok
      cases ok
    have free : n.mu = none := by simpa using locked
    by_cases room : (n.recordReturn d).pool.length < (n.recordReturn d).maxSize
    · simp only [if_neg locked, if_pos room, Except.ok.injEq] at ok
      subst ok
      exact ⟨⟨_, _, _, rfl⟩, .inr ⟨d, held, rfl, .inl ⟨rfl, rfl⟩⟩, .inr free⟩
    · simp only [if_neg locked, if_neg room, Except.ok.injEq] at ok
      subst ok
      exact ⟨⟨_, _, _, rfl⟩, .inr ⟨d, held, rfl, .inr ⟨rfl, rfl⟩⟩, .inr free⟩

/-- Charging the current task touches nothing but its virtual runtime. -/
theorem charge_unchanged (now : Int) (n : Node κ) (b : Addr) :
    ((n.charge now).tasks b).runState = (n.tasks b).runState ∧
      ((n.charge now).tasks b).ctx = (n.tasks b).ctx := by
  by_cases here : b = n.cur
  · subst here
    simp [charge]
  · simp [charge, here]

/-- Queueing or deferring the current task touches no block. -/
theorem requeue_tasks (n : Node κ) : n.requeue.tasks = n.tasks := by
  unfold requeue
  split
  · rfl
  · split <;> rfl

/-- Queueing or deferring the current task switches to no other. -/
theorem requeue_cur (n : Node κ) : n.requeue.cur = n.cur := by
  unfold requeue
  split
  · rfl
  · split <;> rfl

/-- Choosing the next task charges the current one, queues or defers it, and pops. -/
theorem getNextTask_ok {clock : Clock} {next : Addr} (ok : n.getNextTask clock = .ok (next, n')) :
    ∃ rq, (n.charge clock.charged).requeue.rq.pop (n.charge clock.charged).vruntime clock.now
        clock.idle = .ok (next, rq) ∧
      n' = { (n.charge clock.charged).requeue with rq := rq, lastTick := clock.tick } := by
  have same : (n.charge clock.charged).requeue.vruntime = (n.charge clock.charged).vruntime := by
    unfold vruntime
    rw [requeue_tasks]
  simp only [getNextTask, same, Bind.bind, Except.bind, pure, Except.pure] at ok
  split at ok
  · simp at ok
  · rename_i out popped
    simp only [Except.ok.injEq, Prod.mk.injEq] at ok
    obtain ⟨rfl, rfl⟩ := ok
    exact ⟨out.2, popped, rfl⟩

/-- Requeueing after a flush queues the task that can run on, or defers the finished one. -/
theorem requeue_effect (now : Int) (flushed : n.deferred = none) :
    (n.charge now).requeue.rq = (if (n.tasks n.cur).runState = .running
      then n.rq.push (n.charge now).vruntime (some n.cur) else n.rq) ∧
    (n.charge now).requeue.deferred = (if (n.tasks n.cur).runState = .stopped ∧
      (n.tasks n.cur).detached then some n.cur else none) ∧
    (n.charge now).requeue.overwrote = n.overwrote := by
  have state : ((n.charge now).tasks n.cur).runState = (n.tasks n.cur).runState :=
    (charge_unchanged now n n.cur).1
  have detached : ((n.charge now).tasks n.cur).detached = (n.tasks n.cur).detached := by
    simp [charge]
  have nothing : (n.charge now).deferred = none := flushed
  have here : (n.charge now).cur = n.cur := rfl
  simp only [requeue, here, state, detached]
  by_cases going : (n.tasks n.cur).runState = .running
  · simp only [if_pos going]
    refine ⟨rfl, ?_, rfl⟩
    rw [if_neg (by simp [going])]
    exact flushed
  · by_cases finished : (n.tasks n.cur).runState = .stopped ∧ (n.tasks n.cur).detached
    · simp only [if_neg going, if_pos finished, nothing]
      exact ⟨rfl, trivial, by simp [charge]⟩
    · simp only [if_neg going, if_neg finished]
      exact ⟨rfl, flushed, rfl⟩

/-- Flushing and choosing the next task, without the switch. -/
theorem chosen_of_ok {clock : Clock} {flushed ready : Node κ} {next : Addr}
    (ok : n.flushDeferred = .ok flushed) (picked : flushed.getNextTask clock = .ok (next, ready)) :
    Chosen clock n ready next ∧ n.Stayed ready := by
  obtain ⟨⟨pool, mapped, returned, shape⟩, back, unblocked⟩ := flushDeferred_ok ok
  obtain ⟨rq, popped, rfl⟩ := getNextTask_ok picked
  have cleared : flushed.deferred = none := by rw [shape]
  obtain ⟨queue, deferred, overwrote⟩ := requeue_effect clock.charged cleared
  rw [queue] at popped
  -- The fields `requeue` leaves alone are read through its three branches once.
  have frame : ∀ m : Node κ, m.requeue.running = m.running ∧ m.requeue.mu = m.mu ∧
      m.requeue.cur = m.cur ∧ m.requeue.stack = m.stack ∧ m.requeue.pool = m.pool ∧
      m.requeue.mapped = m.mapped ∧ m.requeue.returned = m.returned := by
    intro m
    unfold requeue
    split
    · exact ⟨rfl, rfl, rfl, rfl, rfl, rfl, rfl⟩
    · split <;> exact ⟨rfl, rfl, rfl, rfl, rfl, rfl, rfl⟩
  obtain ⟨running, mu, cur, stack, sPool, sMapped, sReturned⟩ :=
    frame (flushed.charge clock.charged)
  subst shape
  constructor
  · refine
      { running, mu, unblocked, flushed := back.congr sReturned sPool sMapped, deferred, overwrote,
        popped,
        kept := ?_ }
    intro b
    show (n.tasks b).Kept ((Node.requeue _).tasks b)
    rw [requeue_tasks]
    exact Task.Kept.modify (Task.kept_charge _) _ _ b
  · refine ⟨cur, stack, fun b => ?_⟩
    show ((Node.requeue _).tasks b).runState = _ ∧ ((Node.requeue _).tasks b).ctx = _
    rw [requeue_tasks]
    exact charge_unchanged _ _ b

/-- A successful yield of a running node, taken apart. -/
theorem yield_cases {clock : Clock} (running : n.running = true)
    (yielded : n.yield clock k = .ok n') :
    ∃ flushed ready next, n.flushDeferred = .ok flushed ∧
      flushed.getNextTask clock = .ok (next, ready) ∧
      ((next = ready.cur ∧ n' = { ready with pc := k }) ∨ ready.switchTask next k = .ok n') := by
  simp only [yield, running, Bool.not_true, Bool.false_eq_true, ↓reduceIte, Bind.bind,
    Except.bind] at yielded
  split at yielded
  · simp at yielded
  · rename_i flushed ok
    split at yielded
    · simp at yielded
    · rename_i out picked
      split at yielded
      · exact ⟨flushed, out.2, out.1, ok, picked, .inr yielded⟩
      · rename_i same
        simp only [pure, Except.pure, Except.ok.injEq] at yielded
        exact ⟨flushed, out.2, out.1, ok, picked, .inl ⟨by simpa using same, yielded.symm⟩⟩

/-- A successful yield of a running node has exactly these effects. -/
theorem yield_yielded {clock : Clock} (running : n.running = true)
    (yielded : n.yield clock k = .ok n') : Yielded clock k n n' := by
  obtain ⟨flushed, ready, next, ok, picked, went⟩ := yield_cases running yielded
  obtain ⟨chosen, stayed⟩ := chosen_of_ok ok picked
  rcases went with ⟨here, rfl⟩ | went
  · refine ⟨⟨chosen.running, chosen.mu, chosen.unblocked, chosen.flushed.congr rfl rfl rfl,
      chosen.deferred, chosen.overwrote, ?_, chosen.kept⟩,
      .inl ⟨⟨stayed.cur, stayed.stack, stayed.unchanged⟩, rfl⟩⟩
    rw [here] at chosen
    exact chosen.popped
  · have switched := switchTask_switched went
    have target : n'.cur = next := switched.cur
    refine ⟨⟨switched.running.trans chosen.running, switched.mu.trans chosen.mu,
      chosen.unblocked, chosen.flushed.congr switched.returned switched.pool switched.mapped,
      switched.deferred.trans chosen.deferred, switched.overwrote.trans chosen.overwrote, ?_,
      fun b => (chosen.kept b).trans (switched.kept b)⟩, .inr ?_⟩
    · rw [target, switched.rq]
      exact chosen.popped
    · rw [← target] at switched
      refine ⟨stayed.cur ▸ switched.other, ?_, ?_, ?_, ?_, ?_, ?_⟩
      · rw [switched.pc, (stayed.unchanged _).2]
      · rw [switched.stack, (stayed.unchanged _).2]
      · rw [← stayed.cur, switched.saved, stayed.stack]
      · rw [← stayed.cur, switched.left, (stayed.unchanged _).1]
      · rw [switched.entered, (stayed.unchanged _).2, (stayed.unchanged _).1]
      · intro b elsewhere
        obtain ⟨ctx, state⟩ := switched.others b (stayed.cur ▸ elsewhere)
        rw [(stayed.unchanged b).2] at ctx
        rw [(stayed.unchanged b).1] at state
        exact ⟨ctx, state⟩

variable {clock : Clock}

/-- A started node whose queues hold each task once, and not the one that is running. -/
structure Distinct (n : Node κ) : Prop where
  running : n.running = true
  nonNull : n.rq.NonNull
  nodup : (some n.cur ::ₘ n.rq.contents).Nodup

/-- Control comes back to a task from the scheduler, rather than to its first statement. -/
def ReturnsTo (n n' : Node κ) : Prop :=
  n'.cur = n.cur ∨ ∃ at_, (n.tasks n'.cur).ctx.resume = .switched at_

/-- If a call returned to a task, that task is running, and yielding again keeps it runnable. -/
def ReturnsRunning (n n' : Node κ) : Prop :=
  n.ReturnsTo n' → (n'.tasks n'.cur).runState = .running ∧
    ∀ clock k n'', n'.yield clock k = .ok n'' → n''.cur = n'.cur ∨ some n'.cur ∈ n''.rq.runqueue

/-- The caller of `yield_for` is at once the first sleeper, due by the inverted test, and next. -/
structure SelfFirst (start duration : Int) (clock : Clock) (n : Node κ) : Prop where
  -- A task that awaits its return does not leave the thread waiting for the free list.
  unblocked : n.deferred = none ∨ n.mu = none
  soonest : ∀ first ∈ n.rq.sleepqueue.head?, start + duration < first.1
  due : clock.now ≤ start + duration
  foremost : ∀ first ∈ n.rq.runqueue.head?,
    Rq.timeOrderedCompare (n.charge clock.charged).vruntime (some n.cur) first

/-- The offered queue holds the caller if it can run on, and is null-free with the queues. -/
theorem offered_nonNull (clock : Clock) (nonNull : n.rq.NonNull) : (n.offered clock).NonNull := by
  unfold offered
  split
  · refine ⟨?_, nonNull.2⟩
    simpa [Rq.push, (Rq.emplace_perm _ _ _).mem_iff] using nonNull.1
  · exact nonNull

/-- The queue a scheduled block was pushed to. -/
theorem schedule_rq (n : Node κ) (t : Addr) :
    (n.schedule t).rq.runqueue.Perm (some t :: n.rq.runqueue) ∧
      (n.schedule t).rq.sleepqueue = n.rq.sleepqueue :=
  ⟨Rq.emplace_perm _ _ _, rfl⟩

/-- The queue a yielding task leaves, when nobody sleeps. -/
theorem popped_perm {clock : Clock} {m n : Node κ} (yielded : Yielded clock k m n)
    (nonNull : none ∉ m.rq.runqueue) (awake : m.rq.sleepqueue = []) :
    (some n.cur :: n.rq.runqueue).Perm (if (m.tasks m.cur).runState = .running
      then some m.cur :: m.rq.runqueue else m.rq.runqueue) ∧ n.rq.sleepqueue = [] := by
  have nobody : (m.offered clock).sleepqueue = [] := by
    unfold offered
    split
    · exact awake
    · exact awake
  have valid : (m.offered clock).NonNull := offered_nonNull clock ⟨nonNull, by simp [awake]⟩
  rcases Rq.pop_cases valid yielded.popped with ⟨front, same, -⟩ | ⟨ripe, sleeper, first, -⟩
  · refine ⟨?_, same.trans nobody⟩
    rw [← front]
    unfold offered
    split
    · exact Rq.emplace_perm _ _ _
    · exact .refl _
  · rw [nobody] at first
    cases first

/-- A running task that yields is chosen again or waits on the run queue. -/
theorem Yielded.caller_runnable (nonNull : n.rq.NonNull) (yielded : Yielded clock k n n')
    (going : (n.tasks n.cur).runState = .running) :
    n'.cur = n.cur ∨ some n.cur ∈ n'.rq.runqueue := by
  refine Rq.pop_runnable (offered_nonNull clock nonNull) ?_ yielded.popped
  simp [offered, going, Rq.push, (Rq.emplace_perm _ _ _).mem_iff]

/-- The queues after a yield hold each task once, and not the one that runs now. -/
theorem Yielded.distinct (distinct : n.Distinct) (yielded : Yielded clock k n n') :
    n'.Distinct := by
  have offered := offered_nonNull clock distinct.nonNull
  refine ⟨yielded.running.trans distinct.running, Rq.pop_nonNull offered yielded.popped, ?_⟩
  rw [Rq.pop_contents offered yielded.popped]
  unfold Node.offered
  split
  · have same : (n.rq.push (n.charge clock.charged).vruntime (some n.cur)).contents =
        some n.cur ::ₘ n.rq.contents := by
      have perm := Multiset.coe_eq_coe.mpr
        (Rq.emplace_perm (n.charge clock.charged).vruntime (some n.cur) n.rq.runqueue)
      simp [Rq.contents, Rq.push, perm, ← Multiset.cons_coe]
    rw [same]
    exact distinct.nodup
  · exact (Multiset.nodup_cons.mp distinct.nodup).2


/-- A successful `yield_for` is a yield of the caller once it waits and sleeps. -/
theorem yieldFor_yielded {start duration : Int} (running : n.running = true)
    (yielded : n.yieldFor start duration clock k = .ok n') :
    Yielded clock k { n.modify n.cur (Task.setState .waiting) with
      rq := n.rq.sleepPush start duration n.cur } n' :=
  yield_yielded running yielded

/-- Once a task runs again, its next yield keeps it runnable. -/
theorem returnsRunning_of_running (running : n'.running = true) (nonNull : n'.rq.NonNull)
    (going : n.ReturnsTo n' → (n'.tasks n'.cur).runState = .running) : n.ReturnsRunning n' := by
  intro returned
  refine ⟨going returned, fun clock k n'' yielded => ?_⟩
  exact (yield_yielded running yielded).caller_runnable nonNull (going returned)

/-- A switch back into the scheduler ends with the task running. -/
theorem Moved.running_of_returns (moved : Moved k n n') (returned : n.ReturnsTo n') :
    (n'.tasks n'.cur).runState = .running := by
  rcases returned with same | ⟨at_, saved⟩
  · exact absurd same moved.other
  · rw [moved.entered, saved]
    rfl

/-- Without a held lock, or with nothing to return, flushing succeeds. -/
theorem flushDeferred_total (unblocked : n.deferred = none ∨ n.mu = none) :
    ∃ flushed, n.flushDeferred = .ok flushed := by
  cases held : n.deferred with
  | none => exact ⟨n, by simp [flushDeferred, held]⟩
  | some d =>
    have free : (n.recordReturn d).mu = none := by simpa [held] using unblocked
    by_cases room : (n.recordReturn d).pool.length < (n.recordReturn d).maxSize
    · refine ⟨{ n.recordReturn d with
        deferred := none, pool := insertTask n.tasks d (n.recordReturn d).pool }, ?_⟩
      simp only [flushDeferred, held, returnTask, free, ne_eq, not_true_eq_false, if_false,
        if_pos room, Bind.bind, Except.bind, pure, Except.pure]
      rfl
    · refine ⟨{ (n.recordReturn d).destroy d with deferred := none }, ?_⟩
      simp only [flushDeferred, held, returnTask, free, ne_eq, not_true_eq_false, if_false,
        if_neg room, Bind.bind, Except.bind, pure, Except.pure]

/-- What may go wrong in the scheduler itself, other than waiting for the free list's lock. -/
inductive YieldFault : Fault → Prop
  -- The run queue is empty, or holds a null.
  | undefined : YieldFault .undefined
  | deadlock : YieldFault (.fatal "nothing to do. deadlock?")
  | early : YieldFault (.assertion "sleepqueue_clock::now() >= next_runnable")
  | self : YieldFault (.assertion "switching to current task is a logic error")

/-- A pop fails on an empty queue, on a null, or when the idle thunk returns early. -/
theorem pop_error {q : Rq} {vruntime : Addr → Int} {now : Int} {idle : Int → Int} {f : Fault}
    (failed : q.pop vruntime now idle = .error f) : YieldFault f := by
  -- The second half can only find the queue empty or a null in front.
  have second : ∀ q : Rq, q.takeFirst vruntime = .error f → YieldFault f := by
    intro q failed
    unfold Rq.takeFirst at failed
    split at failed
    · exact (Except.error.inj failed) ▸ .undefined
    · exact (Except.error.inj failed) ▸ .undefined
    · cases failed
  have first : q.wakeSleeper vruntime now idle = .error f → YieldFault f := by
    intro failed
    unfold Rq.wakeSleeper at failed
    split at failed
    · cases entries : q.sleepqueue with
      | nil =>
        simp only [entries, TimeOrderedQueue.pop, Bind.bind, Except.bind,
          Except.error.injEq] at failed
        exact failed ▸ .undefined
      | cons entry rest =>
        simp only [entries, TimeOrderedQueue.pop] at failed
        split at failed
        all_goals
          simp only [Bind.bind, Except.bind, pure, Except.pure] at failed
          split_ifs at failed
          exact (Except.error.inj failed) ▸ .early
    · split at failed
      · exact (Except.error.inj failed) ▸ .deadlock
      · cases failed
  unfold Rq.pop at failed
  cases woken : q.wakeSleeper vruntime now idle with
  | error fault =>
    simp only [woken, Bind.bind, Except.bind, Except.error.injEq] at failed
    exact first (woken.trans (congrArg Except.error failed))
  | ok q' =>
    simp only [woken, Bind.bind, Except.bind] at failed
    exact second q' failed

/-- A yield that fails returns a block and waits for the lock, or fails in the scheduler. -/
theorem yield_error {f : Fault} (failed : n.yield clock k = .error f) :
    (f = .blocked ∧ n.mu ≠ none ∧ n.deferred ≠ none) ∨ YieldFault f := by
  unfold yield at failed
  split at failed
  · cases failed
  cases flush : n.flushDeferred with
  | error fault =>
    simp only [flush, Bind.bind, Except.bind, Except.error.injEq] at failed
    subst failed
    -- Returning the deferred block only waits for the lock.
    have blocks : ¬ (n.deferred = none ∨ n.mu = none) := by
      intro unblocked
      obtain ⟨flushed, ok⟩ := flushDeferred_total unblocked
      rw [flush] at ok
      cases ok
    obtain ⟨waits, held⟩ := not_or.mp blocks
    refine .inl ⟨?_, held, waits⟩
    · unfold flushDeferred returnTask at flush
      dsimp only [Bind.bind, Except.bind] at flush
      split at flush
      · cases flush
      · split at flush
        · rename_i returned
          split at returned
          · cases returned
            exact (Except.error.inj flush).symm
          · split at returned <;> cases returned
        · cases flush
  | ok flushed =>
    simp only [flush, Bind.bind, Except.bind] at failed
    right
    cases picked : flushed.getNextTask clock with
    | error fault =>
      simp only [picked, Except.error.injEq] at failed
      subst failed
      unfold getNextTask at picked
      cases popped : (flushed.charge clock.charged).requeue.rq.pop
          (flushed.charge clock.charged).requeue.vruntime clock.now clock.idle with
      | error fault =>
        simp only [popped, Bind.bind, Except.bind, Except.error.injEq] at picked
        exact pop_error (popped.trans (congrArg Except.error picked))
      | ok out => simp [popped, Bind.bind, Except.bind, pure, Except.pure] at picked
    | ok out =>
      obtain ⟨next, ready⟩ := out
      simp only [picked] at failed
      split at failed
      · unfold switchTask at failed
        dsimp only at failed
        split at failed
        · exact (Except.error.inj failed) ▸ .self
        · cases failed
      · cases failed

/-- A yield that would choose its own caller returns. -/
theorem yield_self (running : n.running = true) (unblocked : n.deferred = none ∨ n.mu = none)
    {rq : Rq}
    (popped : (n.offered clock).pop (n.charge clock.charged).vruntime clock.now clock.idle =
      .ok (n.cur, rq)) : ∃ n', n.yield clock k = .ok n' ∧ n'.cur = n.cur := by
  obtain ⟨flushed, ok⟩ := flushDeferred_total unblocked
  obtain ⟨⟨pool, mapped, returned, shape⟩, -, -⟩ := flushDeferred_ok ok
  have cleared : flushed.deferred = none := by rw [shape]
  have queue := (requeue_effect clock.charged cleared).1
  have runtimes : (flushed.charge clock.charged).requeue.vruntime =
      (n.charge clock.charged).vruntime := by
    unfold vruntime
    rw [requeue_tasks, shape]
    rfl
  have chosen : (flushed.charge clock.charged).requeue.rq.pop (n.charge clock.charged).vruntime
      clock.now clock.idle = .ok (n.cur, rq) := by
    rw [queue, shape]
    exact popped
  have same : (flushed.charge clock.charged).requeue.cur = n.cur := by
    rw [requeue_cur, shape]
    rfl
  refine ⟨{ (flushed.charge clock.charged).requeue with rq := rq, lastTick := clock.tick, pc := k },
    ?_, same⟩
  simp only [yield, running, ok, getNextTask, runtimes, chosen, same, Bool.not_true,
    Bool.false_eq_true, if_false, Bind.bind, Except.bind, pure, Except.pure, ne_eq,
    not_true_eq_false]

/--
`yield` always returns to a running task, whichever task that is. `yield_for` does so exactly
when it does not select its own caller: then it returns without the switch that restores the state.
-/
theorem yield_returns_running_iff (n : Node κ) (k : κ) (distinct : n.Distinct) :
    (∀ clock n', n.yield clock k = .ok n' → n.ReturnsRunning n' ∧ n'.Distinct) ∧
    ∀ start duration clock,
      (∀ n', n.yieldFor start duration clock k = .ok n' → n.ReturnsRunning n') ↔
        ¬ n.SelfFirst start duration clock := by
  obtain ⟨absent, -⟩ := Multiset.nodup_cons.mp distinct.nodup
  constructor
  · intro clock n' ok
    have yielded := yield_yielded distinct.running ok
    have after := yielded.distinct distinct
    refine ⟨returnsRunning_of_running after.running after.nonNull fun returned => ?_, after⟩
    rcases yielded.went with ⟨stayed, -⟩ | moved
    · rw [(stayed.unchanged _).1, stayed.cur]
      -- Without a switch the caller was popped, so it had queued itself as running.
      by_contra other
      have kept : n.offered clock = n.rq := if_neg other
      have member := Rq.pop_contents (offered_nonNull clock distinct.nonNull) yielded.popped
      rw [kept, stayed.cur] at member
      exact absent (member ▸ Multiset.mem_cons_self _ _)
    · exact moved.running_of_returns returned
  · intro start duration clock
    have self := @Rq.pop_self_iff (n.charge clock.charged).vruntime clock.now clock.idle n.rq
      start duration n.cur distinct.nonNull absent
    -- The node on which the inner `yield` is called.
    let m : Node κ := { n.modify n.cur (Task.setState .waiting) with
      rq := n.rq.sleepPush start duration n.cur }
    have waits : (m.tasks m.cur).runState = .waiting := by simp [m]
    have runtimes : (m.charge clock.charged).vruntime = (n.charge clock.charged).vruntime := by
      funext b
      by_cases here : b = n.cur
      · simp [m, vruntime, charge, here]
      · simp [m, vruntime, charge, here]
    have queue : m.offered clock = n.rq.sleepPush start duration n.cur := if_neg (by simp [waits])
    constructor
    · intro returns first
      obtain ⟨rq, popped⟩ := self.mpr ⟨first.soonest, first.due, first.foremost⟩
      rw [← runtimes, ← queue] at popped
      obtain ⟨n', ok, same⟩ := yield_self (n := m) (k := k) distinct.running first.unblocked popped
      have yielded := yield_yielded (n := m) distinct.running ok
      have running := (returns n' ok (.inl same)).1
      rcases yielded.went with ⟨stayed, -⟩ | moved
      · rw [(stayed.unchanged _).1, stayed.cur, waits] at running
        cases running
      · exact moved.other same
    · intro other n' ok
      have yielded := yieldFor_yielded distinct.running ok
      have offered : (m.offered clock).NonNull :=
        queue ▸ Rq.sleepPush_nonNull start duration n.cur distinct.nonNull
      have nonNull := Rq.pop_nonNull offered yielded.popped
      refine returnsRunning_of_running
        (yielded.running.trans distinct.running) nonNull fun returned => ?_
      rcases yielded.went with ⟨stayed, -⟩ | moved
      · -- The caller can only have been popped as the sleeper it just became.
        exfalso
        have popped := yielded.popped
        rw [show n'.cur = n.cur from stayed.cur] at popped
        have shape : m.offered clock = n.rq.sleepPush start duration n.cur := queue
        rw [show Node.offered clock _ = m.offered clock from rfl, shape,
          show (Node.charge clock.charged _).vruntime = (m.charge clock.charged).vruntime from rfl,
          runtimes] at popped
        obtain ⟨soonest, due, foremost⟩ := self.mp ⟨_, popped⟩
        exact other ⟨yielded.unblocked, soonest, due, foremost⟩
      · refine moved.running_of_returns ?_
        rcases returned with same | ⟨at_, saved⟩
        · exact .inl same
        · refine .inr ⟨at_, ?_⟩
          have elsewhere : n'.cur ≠ n.cur := moved.other
          simpa [elsewhere] using saved

/-- A started node whose host is about to give up the processor to another task. -/
def twoTasks : Node Unit := (startAsync 0 () () 0 64).schedule 1

/-- A task that sleeps beside the host, which was switched out, lets the host go on as running. -/
theorem yield_for_returns_running_beside_other : ∃ n n' : Node Unit, n.Distinct ∧
    ¬ n.SelfFirst 6000 5 ⟨20000, 20000, 20000, id⟩ ∧
    n.yieldFor 6000 5 ⟨20000, 20000, 20000, id⟩ () = .ok n' ∧ n.ReturnsTo n' ∧
    n.ReturnsRunning n' := by
  have started : twoTasks.Distinct := ⟨rfl, ⟨by decide, by decide⟩, by decide⟩
  obtain ⟨n, n', yields, sleeps, next, saved, first, ahead⟩ : ∃ n n' : Node Unit,
      twoTasks.yield ⟨5000, 5000, 5000, id⟩ () = .ok n ∧
      n.yieldFor 6000 5 ⟨20000, 20000, 20000, id⟩ () = .ok n' ∧ n'.cur = 0 ∧
      (n.tasks 0).ctx.resume = .switched () ∧ n.rq.runqueue.head? = some (some 0) ∧
      Rq.timeOrderedCompare (n.charge 20000).vruntime (some n.cur) (some 0) = false :=
    ⟨_, _, rfl, rfl, by decide, by decide, by decide, by decide⟩
  have distinct := ((yield_returns_running_iff twoTasks () started).1 _ n yields).2
  -- The host has the smaller runtime, so the sleeper is not selected itself.
  have behind : ¬ n.SelfFirst 6000 5 ⟨20000, 20000, 20000, id⟩ := by
    intro self
    have before := self.foremost (some 0) first
    rw [ahead] at before
    cases before
  have returned : n.ReturnsTo n' := .inr ⟨(), by rw [next]; exact saved⟩
  exact ⟨n, n', distinct, behind, sleeps, returned,
    ((yield_returns_running_iff n () distinct).2 6000 5 _).mpr behind n' sleeps⟩

/-- A host that sleeps alone is selected itself and goes on in the state of a sleeper. -/
theorem yield_for_alone_stays_waiting :
    ¬ ∀ n : Node Unit, n.Distinct → ∀ start duration clock n',
      n.yieldFor start duration clock () = .ok n' → n.ReturnsRunning n' := by
  intro returns
  have distinct : (startAsync 0 () () 0 64).Distinct := ⟨rfl, ⟨by decide, by decide⟩, by decide⟩
  obtain ⟨state, -⟩ :=
    returns (startAsync 0 () () 0 64) distinct 0 5 ⟨1000, 1000, 0, id⟩ _ rfl (.inl rfl)
  revert state
  decide

end Node

end Gthread

import Gthread.Sched.KernelLocks
import Gthread.Sched.SchedBuilds

/-! Which steps of the scheduler's interface can fail: an exit of the root task, and a deadlock. -/

namespace Gthread

open Function (update update_of_ne update_self)

namespace Node

variable {κ : Type} {n : Node κ} {clock : Clock} {k : κ}

/-- There is a task to go on with: one that is queued, or the current one. -/
def Ready (n : Node κ) : Prop := n.rq.runqueue ≠ [] ∨ (n.tasks n.cur).runState = .running

/-- The queue that a yielding task pops from is empty exactly if there is no such task. -/
theorem offered_ne_nil (clock : Clock) : (n.offered clock).runqueue ≠ [] ↔ n.Ready := by
  unfold offered Ready
  by_cases going : (n.tasks n.cur).runState = .running
  · rw [if_pos going]
    refine ⟨fun _ => .inr going, fun _ empty => ?_⟩
    have perm := Rq.emplace_perm (n.charge clock.charged).vruntime (some n.cur) n.rq.runqueue
    rw [show Rq.emplace _ _ _ = [] from empty] at perm
    cases perm.nil_eq
  · rw [if_neg going]
    exact ⟨.inl, fun ready => ready.resolve_right going⟩

/-- What the choice of the next task pops, once a deferred block is returned. -/
theorem getNextTask_eq {flushed : Node κ} (ok : n.flushDeferred = .ok flushed) :
    flushed.getNextTask clock = (do
      let (next, rq) ←
        (n.offered clock).pop (n.charge clock.charged).vruntime clock.now clock.idle
      return (next, { (flushed.charge clock.charged).requeue with
        rq, lastTick := clock.tick })) := by
  obtain ⟨⟨pool, mapped, returned, shape⟩, -, -⟩ := flushDeferred_ok ok
  have cleared : flushed.deferred = none := by rw [shape]
  have queue := (requeue_effect clock.charged cleared).1
  have runtimes : (flushed.charge clock.charged).requeue.vruntime =
      (n.charge clock.charged).vruntime := by
    unfold vruntime
    rw [requeue_tasks, shape]
    rfl
  have offered : (flushed.charge clock.charged).requeue.rq = n.offered clock := by
    rw [queue, shape]
    rfl
  simp only [getNextTask]
  rw [runtimes, offered]

/-- A yield with a task to go on with returns, or switches to it. -/
theorem yield_of_ready (clock : Clock) (k : κ) (awake : n.rq.sleepqueue = [])
    (nonNull : none ∉ n.rq.runqueue) (unblocked : n.deferred = none ∨ n.mu = none)
    (ready : n.Ready) : ∃ n', n.yield clock k = .ok n' := by
  unfold yield
  split
  · exact ⟨_, rfl⟩
  obtain ⟨flushed, ok⟩ := flushDeferred_total unblocked
  -- Nobody sleeps, so the pop takes what comes first.
  have asleep : (n.offered clock).sleepqueue = [] := by
    unfold offered
    split <;> exact awake
  have members : none ∉ (n.offered clock).runqueue := by
    unfold offered
    split
    · intro member
      have perm := Rq.emplace_perm (n.charge clock.charged).vruntime (some n.cur) n.rq.runqueue
      rcases List.mem_cons.mp (perm.mem_iff.mp member) with same | before
      · cases same
      · exact nonNull before
    · exact nonNull
  obtain ⟨next, rq, popped⟩ : ∃ next rq, (n.offered clock).pop (n.charge clock.charged).vruntime
      clock.now clock.idle = .ok (next, rq) := by
    have filled := (offered_ne_nil clock).mpr ready
    rw [Rq.pop, Rq.wakeSleeper_awake asleep filled]
    cases queue : (n.offered clock).runqueue with
    | nil => exact absurd queue filled
    | cons first rest =>
      cases first with
      | none =>
        rw [queue] at members
        exact absurd List.mem_cons_self members
      | some next =>
        refine ⟨next, ?_⟩
        simp [Bind.bind, Except.bind, Rq.takeFirst, queue]
  simp only [ok, getNextTask_eq ok, popped, Bind.bind, Except.bind, pure, Except.pure]
  split
  · rename_i other
    unfold switchTask
    simp only [other, if_false]
    exact ⟨_, rfl⟩
  · exact ⟨_, rfl⟩

/-- A yield without one ends the program. -/
theorem yield_of_idle (clock : Clock) (k : κ) (running : n.running = true)
    (awake : n.rq.sleepqueue = []) (unblocked : n.deferred = none ∨ n.mu = none)
    (idle : ¬ n.Ready) :
    n.yield clock k = .error (.fatal "nothing to do. deadlock?") := by
  obtain ⟨flushed, ok⟩ := flushDeferred_total unblocked
  have going : (n.tasks n.cur).runState ≠ .running := fun going => idle (.inr going)
  have empty : n.rq.runqueue = [] := by
    by_contra filled
    exact idle (.inl filled)
  have kept : n.offered clock = n.rq := if_neg going
  have popped : (n.offered clock).pop (n.charge clock.charged).vruntime clock.now clock.idle =
      .error (.fatal "nothing to do. deadlock?") := by
    rw [kept]
    simp [Rq.pop, Rq.wakeSleeper, awake, empty, TimeOrderedQueue.empty, Bind.bind, Except.bind]
  simp only [yield, running, ok, getNextTask_eq ok, popped, Bind.bind, Except.bind, Bool.not_true,
    Bool.false_eq_true, if_false]

end Node

/-- Statements at which no task can be that may run on. -/
def Pc.dead : Pc → Bool
  | .zero | .exited => true
  | _ => false

namespace Sys

variable {strict : Prop} {s s' : Sys} {phase : Addr → Phase} {l : Label} {clock : Clock} {p : Pc}
  {b host : Addr}

/-- No task that may run on is at such a statement. -/
def Alive (host : Addr) (s : Sys) : Prop := ∀ b, s.Known host b → (s.at_ b).dead = false

/-- A step comes to no such statement with a task that may run on. -/
theorem Alive.step (alive : s.Alive host) (d : s.Disciplined host) (linear : s.Linear l)
    (ok : s.step l = .ok s') : s'.Alive host := by
  intro b known
  obtain ⟨phase, inv⟩ := d.order
  rcases d.known_of_step linear ok known with before | published
  swap
  · rw [published.at_]
    rfl
  have here := alive b before
  by_cases own : b = s.cur
  swap
  · -- The other tasks are where they were.
    obtain ⟨holder, active⟩ := d.active_of_known inv before
    have foreign : Foreign phase s s' b := by
      refine foreign_of_step inv linear ok own (by simp [active]) fun unmapped => ?_
      rw [active] at unmapped
      cases unmapped
    rw [foreign.at_ own]
    exact here
  subst own
  -- The running task goes on at the next statement, unless its step was its exit.
  have onward : s'.cur = s.cur → s'.pc.base.dead = false → (s'.at_ s.cur).dead = false := by
    intro cur next
    rw [← cur, at_cur]
    exact next
  rw [at_cur] at here
  cases stepped_of_ok ok with
  | nothing => exact onward rfl here
  | yields leaves ok =>
    rw [at_cur_of_yieldLocked inv.queues.running ok]
    cases leaves with
    | trap => exact here
    | call at_ => rfl
    | join at_ => rfl
  | sleeps => exact linear.elim
  | exits at_ exits =>
    exact absurd (((exit_exited inv at_ exits).stopped s.cur).mpr (.inl rfl)) known.going
  | unlocks at_ held =>
    refine onward rfl ?_
    rw [at_] at here
    exact here
  | @lands t h clock fresh at_ =>
    -- It comes back to what it saved before it jumped.
    have saved := (d.starting.own t h (by rw [at_]; rfl)).1
    have away := building_ne_cur inv (ok_at inv at_).2.1
    refine onward rfl ?_
    have pc : (s.switchBack t).pc = (s.tasks s.cur).ctx.resume.pc := by
      simp [switchBack, Node.gthreadSwitchTo, Node.load, away.symm]
    rw [pc, saved]
    rfl
  | detaches at_ | assigns at_ =>
    refine onward rfl ?_
    exact here
  | _ => exact onward rfl rfl

/-- Whether the running context can take a step: calls are made in code of the program alone. -/
def Enabled (s : Sys) : Label → Prop
  | .trap _ => True
  | .call _ _ => s.pc = .user
  -- A new block comes from memory that the library maps, and that is not mapped yet.
  | .run _ fresh => s.pc ≠ .user ∧ ∀ a entry arg h, s.pc = .makeCreate a entry arg h →
      a.stack.addr = none ∧ s.mapped fresh = false

/-- What comes of a step that the running context can take. -/
inductive Comes (host : Addr) (s : Sys) (l : Label) : Prop
  | goes (s' : Sys) (ok : s.step l = .ok s')
  | root {value : Nat} {clock : Clock} (exits : l = .call (.exit value) clock)
      (root : s.cur = host)
      (failed : s.step l = .error (.fatal "cannot exit from the root task!"))
  -- Nobody is queued, and the running task ends, or gives up the processor while it waits.
  | stuck (empty : s.rq.runqueue = [])
      (last : ((∃ value clock, l = .call (.exit value) clock) ∧
          (s.tasks s.cur).joiner = none) ∨
        ((s.tasks s.cur).runState ≠ .running ∧ s.pc.base ≠ .prologue))
      (failed : s.step l = .error (.fatal "nothing to do. deadlock?"))

/-- A yield returns, or switches to a queued task, unless there is none and the caller waits. -/
theorem comes_of_yieldLocked (inv : (s.life phase).Inv strict) (clear : s.flag = false)
    (unblocked : s.deferred = none ∨ s.mu = none) (clock : Clock) (p : Pc) :
    (∃ s', s.yieldLocked clock p = .ok s') ∨
      (s.rq.runqueue = [] ∧ (s.tasks s.cur).runState ≠ .running ∧
        s.yieldLocked clock p = .error (.fatal "nothing to do. deadlock?")) := by
  have locked : s.lock = .ok (s.setFlag true) := by simp [Node.lock, clear]
  have state := (setFlag_fields true s s.cur).2.2.1
  by_cases ready : (s.setFlag true).Ready
  · obtain ⟨n, ok⟩ := Node.yield_of_ready (n := s.setFlag true) clock (.unlock p)
      inv.queues.awake inv.queues.nonNull unblocked ready
    refine .inl ⟨{ s with toNode := n }, ?_⟩
    simp [yieldLocked, locked, ok, Bind.bind, Except.bind, pure, Except.pure]
  · have failed := Node.yield_of_idle (n := s.setFlag true) clock (.unlock p)
      inv.queues.running inv.queues.awake unblocked ready
    refine .inr ⟨?_, ?_, ?_⟩
    · by_contra filled
      exact ready (.inl filled)
    · intro running
      exact ready (.inr (state.trans running))
    · simp [yieldLocked, locked, failed, Bind.bind, Except.bind]

/-- A stopped block of another task can be started. -/
theorem startTask_total {t : Addr} (entry arg : Nat) (h : HandleId)
    (stopped : (s.tasks t).runState = .stopped) (away : t ≠ s.cur) :
    ∃ s', s.startTask t entry arg h = .ok s' := by
  have written : ∀ entry arg, ((s.write t fun b => { b with entry, arg }).tasks t).runState =
      .stopped := by
    intro entry arg
    rw [write_tasks, if_pos rfl]
    exact stopped
  have other : ∀ entry arg, t ≠ (s.write t fun b => { b with entry, arg }).cur :=
    fun _ _ => away
  simp only [startTask]
  rw [if_neg (not_not.mpr (written _ _)), if_neg (other _ _)]
  exact ⟨_, rfl⟩

/-- An exit switches to another task, unless there is none, or the caller was not spawned. -/
theorem comes_of_exit {value : Nat} (inv : (s.life phase).Inv strict) (at_ : s.pc = .user)
    (clear : s.flag = false) (free : s.mu = none)
    (spawned : (s.tasks s.cur).entry = none → s.cur = host) (clock : Clock) :
    s.Comes host (.call (.exit value) clock) := by
  have locked : s.lock = .ok (s.setFlag true) := by simp [Node.lock, clear]
  by_cases entry : (s.tasks s.cur).entry = none
  · exact .root rfl (spawned entry) (by simp [step, at_, call, exit, entry])
  obtain ⟨⟨awake, nonNull⟩, -⟩ := finish_queues value inv at_
  have finished := Node.finish_finished value (s.setFlag true)
  have unlocked : ((s.setFlag true).finish value).mu = none := finished.mu.trans free
  by_cases ready : ((s.setFlag true).finish value).Ready
  · obtain ⟨n, ok⟩ := Node.yield_of_ready clock (.unlock .exited) awake nonNull
      (.inr unlocked) ready
    refine .goes { s with toNode := n, exits := ((s.tasks s.cur).spawn, value) :: s.exits } ?_
    simp [step, at_, call, exit, entry, locked, ok, Bind.bind, Except.bind, pure, Except.pure]
  · have failed := Node.yield_of_idle clock (.unlock .exited)
      (finished.running.trans inv.queues.running) awake (.inr unlocked) ready
    refine .stuck ?_ (.inl ⟨⟨value, clock, rfl⟩, ?_⟩) ?_
    · -- Whoever was queued before the exit still is.
      by_contra filled
      obtain ⟨first, member⟩ := List.exists_mem_of_ne_nil _ filled
      obtain ⟨q, rfl⟩ := Option.ne_none_iff_exists'.mp fun null =>
        inv.queues.nonNull (null ▸ member)
      have queued := finish_queued value s (.inl member)
      exact ready (.inl (List.ne_nil_of_mem queued))
    · -- A joiner would be queued by now.
      by_contra joined
      obtain ⟨j, joins⟩ := Option.ne_none_iff_exists'.mp joined
      exact ready (.inl (List.ne_nil_of_mem (finish_queued value s (.inr joins))))
    · simp [step, at_, call, exit, entry, locked, failed, Bind.bind, Except.bind]

/-- A call comes to an end, unless it is the root task's exit, or nobody else can run. -/
theorem comes_of_call {c : Call} (inv : (s.life phase).Inv strict)
    (linear : s.Linear (.call c clock)) (at_ : s.pc = .user) (clear : s.flag = false)
    (free : s.mu = none) (spawned : (s.tasks s.cur).entry = none → s.cur = host) :
    s.Comes host (.call c clock) := by
  cases c with
  | spawn a entry arg h =>
    cases entry with
    | none => exact .goes s (by simp [step, at_, call, spawn])
    | some entry => exact .goes _ (by simp [step, at_, call, spawn, free]; rfl)
  | yield =>
    rcases comes_of_yieldLocked inv clear (.inr free) clock .user
      with ⟨s', ok⟩ | ⟨empty, waits, failed⟩
    · exact .goes _ (by rw [step, if_pos at_]; exact ok)
    · refine .stuck empty (.inr ⟨waits, by simp [at_, Pc.base]⟩) ?_
      rw [step, if_pos at_]
      exact failed
  | sleepFor start duration => exact linear.elim
  | join h wanted =>
    obtain ⟨s', ok⟩ : ∃ s', s.step (.call (.join h wanted) clock) = .ok s' := by
      rw [step, if_pos at_, call, join]
      cases points : s.handles h with
      | none => exact ⟨s, rfl⟩
      | some t =>
        -- A second join throws, and the others wait or go on.
        simp only [clear, Bool.false_eq_true, if_false]
        split_ifs
        · exact ⟨_, rfl⟩
        · exact ⟨_, rfl⟩
        · exact ⟨_, rfl⟩
    exact .goes _ ok
  | detach h =>
    obtain ⟨s', ok⟩ : ∃ s', s.step (.call (.detach h) clock) = .ok s' := by
      rw [step, if_pos at_, call, detach]
      cases points : s.handles h with
      | none => exact ⟨s, rfl⟩
      | some t =>
        simp only [clear, Bool.false_eq_true, if_false]
        split_ifs
        · exact ⟨_, rfl⟩
        · exact ⟨_, rfl⟩
    exact .goes _ ok
  | exit value => exact comes_of_exit inv at_ clear free spawned clock
  | assign dst src => exact .goes _ (by simp [step, at_, call]; rfl)

/-- A statement of the library comes to an end, unless a join waits and nobody else can run. -/
theorem Disciplined.comes_of_run {fresh : Addr} (d : s.Disciplined host) (calls : s.Calls)
    (guarded : s.Guarded) (builds : s.Builds host) (alive : s.Alive host)
    (enabled : s.Enabled (.run clock fresh)) :
    s.Comes host (.run clock fresh) := by
  obtain ⟨phase, inv⟩ := d.order
  obtain ⟨outside, allocates⟩ := enabled
  have balanced := d.balanced
  have living : s.pc.base.dead = false := by
    have here := alive s.cur d.known_cur
    rwa [at_cur] at here
  have goes : (∃ s', s.run clock fresh = .ok s') → s.Comes host (.run clock fresh) := by
    rintro ⟨s', ok⟩
    exact .goes _ ok
  cases at_ : s.pc with
  | zero | exited =>
    rw [at_] at living
    cases living
  | user => exact absurd at_ outside
  | unlock p =>
    have set : s.flag = true := balanced.own.mpr (by rw [at_]; rfl)
    exact goes ⟨_, by simp [Sys.run, at_, Node.unlock, set, Bind.bind, Except.bind]; rfl⟩
  | makeCreate a entry arg h =>
    obtain ⟨own, free⟩ := allocates a entry arg h at_
    exact goes ⟨_, by simp [Sys.run, at_, create, own, free]; rfl⟩
  | made t entry arg h =>
    -- The new task is stopped, and another one than its spawner.
    obtain ⟨⟨handle, -⟩, building, -⟩ := ok_at inv at_
    have away := building_ne_cur inv building
    have stopped : (s.tasks t).runState = .stopped := by
      have built := builds.calls h s.cur handle
      rwa [at_cur, at_] at built
    obtain ⟨s', ok⟩ := startTask_total entry arg h stopped away
    exact goes ⟨s', by simp only [Sys.run, at_, ok]⟩
  | started t h =>
    have clear := balanced.clear at_ rfl
    exact goes ⟨_, by simp [Sys.run, at_, scheduleNew, clear]; rfl⟩
  | joinYield h wanted =>
    have clear := balanced.clear at_ rfl
    have free := guarded.free (by rw [at_]; rfl)
    rcases comes_of_yieldLocked inv clear (.inr free) clock (.take h wanted)
      with ⟨s', ok⟩ | ⟨empty, waits, failed⟩
    · exact goes ⟨s', by simp only [Sys.run, at_, ok]⟩
    · refine .stuck empty (.inr ⟨waits, by simp [at_, Pc.base]⟩) ?_
      simp only [Sys.step, Sys.run, at_, failed]
  | take h wanted =>
    obtain ⟨t, points, stopped⟩ := calls.stopped_of_take inv at_
    exact goes ⟨_, by simp [Sys.run, at_, takeResult, points, stopped]; rfl⟩
  | returning h =>
    obtain ⟨-, t, refers, -⟩ := ok_at inv at_
    have points : s.handles h = some t := refers.1
    have free := guarded.free (by rw [at_]; rfl)
    exact goes ⟨_, by simp [Sys.run, at_, callReturn, points, free]; rfl⟩
  | _ => exact goes ⟨_, by simp only [Sys.run, at_]; rfl⟩

/-- So does every step, and a trap when it is not taken in a prologue or inside the lock. -/
theorem Disciplined.comes (d : s.Disciplined host) (calls : s.Calls) (guarded : s.Guarded)
    (builds : s.Builds host) (alive : s.Alive host) (linear : s.Linear l) (begun : s.Begun l)
    (unheld : s.Unheld l) (enabled : s.Enabled l) : s.Comes host l := by
  obtain ⟨phase, inv⟩ := d.order
  cases l with
  | trap clock =>
    by_cases set : s.flag = true
    · exact .goes s (by simp [Sys.step, trap, set])
    · have clear : s.flag = false := by simpa using set
      have unblocked := guarded.unblocked_of_trap unheld rfl clear
      rcases comes_of_yieldLocked inv clear unblocked clock s.pc
        with ⟨s', ok⟩ | ⟨empty, waits, failed⟩
      · exact .goes s' (by simp [Sys.step, trap, clear, ok])
      · exact .stuck empty (.inr ⟨waits, begun clear⟩) (by simp [Sys.step, trap, clear, failed])
  | call c clock =>
    have at_ : s.pc = .user := enabled
    have clear := d.balanced.clear at_ rfl
    have spawned : (s.tasks s.cur).entry = none → s.cur = host := by
      intro entry
      exact (builds.entry s.cur d.known_cur).resolve_right (not_not.mpr entry)
    exact comes_of_call inv linear at_ clear (guarded.free (by rw [at_]; rfl)) spawned
  | run clock fresh => exact d.comes_of_run calls guarded builds alive enabled

end Sys

end Gthread

import Gthread.Sched.SchedSteps

/-! The host and the numbers of the spawns: which blocks hold a task that was scheduled. -/

namespace Gthread

open Function (update update_of_ne update_self)

namespace Node

variable {κ : Type} {n n' : Node κ} {k : κ} {clock : Clock}

/-- Whoever is runnable after a yield was runnable before. -/
theorem Yielded.runnable_cases (yielded : Yielded clock k n n') (nonNull : none ∉ n.rq.runqueue)
    (awake : n.rq.sleepqueue = []) {b : Addr} (runnable : b = n'.cur ∨ some b ∈ n'.rq.runqueue) :
    (b = n.cur ∧ (n.tasks n.cur).runState = .running) ∨ some b ∈ n.rq.runqueue := by
  obtain ⟨perm, -⟩ := popped_perm yielded nonNull awake
  have member : some b ∈ some n'.cur :: n'.rq.runqueue := by simpa using runnable
  have before := perm.mem_iff.mp member
  split at before
  · rename_i running
    rcases List.mem_cons.mp before with same | queued
    · exact .inl ⟨by simpa using same, running⟩
    · exact .inr queued
  · exact .inr before

/-- A yield stops no task and starts none, if those in the queue have not stopped. -/
theorem Yielded.stopped_iff (yielded : Yielded clock k n n') (nonNull : none ∉ n.rq.runqueue)
    (awake : n.rq.sleepqueue = [])
    (live : ∀ b, some b ∈ n.rq.runqueue → (n.tasks b).runState ≠ .stopped) (b : Addr) :
    (n'.tasks b).runState = .stopped ↔ (n.tasks b).runState = .stopped := by
  rcases yielded.went with ⟨stayed, -⟩ | moved
  · rw [(stayed.unchanged b).1]
  · by_cases caller : b = n.cur
    · rw [caller, moved.left]
      split
      · rename_i running
        simp [running]
      · exact Iff.rfl
    · by_cases next : b = n'.cur
      · have going : (n.tasks n'.cur).runState ≠ .stopped := by
          rcases yielded.runnable_cases nonNull awake (.inl rfl) with ⟨same, -⟩ | queued
          · exact absurd same moved.other
          · exact live _ queued
        rw [next, moved.entered]
        cases (n.tasks n'.cur).ctx.resume with
        | plain at_ => simp [Resume.runState, going]
        | switched at_ => simp [Resume.runState, going]
      · rw [(moved.others b caller).2 next]

/-- What stopping the current task does before it yields. -/
structure Finished (value : Nat) (n n' : Node κ) : Prop where
  cur : n'.cur = n.cur
  stack : n'.stack = n.stack
  tls : n'.tls = n.tls
  running : n'.running = n.running
  deferred : n'.deferred = n.deferred
  mu : n'.mu = n.mu
  pool : n'.pool = n.pool
  mapped : n'.mapped = n.mapped
  returned : n'.returned = n.returned
  asleep : n'.rq.sleepqueue = n.rq.sleepqueue
  queue : n'.rq.runqueue.Perm (match (n.tasks n.cur).joiner with
    | none => n.rq.runqueue
    | some j => some j :: n.rq.runqueue)
  own : (n'.tasks n.cur).runState = .stopped ∧ (n'.tasks n.cur).returnValue = value
  others : ∀ b, b ≠ n.cur → (n'.tasks b).runState = (n.tasks b).runState ∧
    (n'.tasks b).returnValue = (n.tasks b).returnValue
  kept : ∀ b, (n'.tasks b).ctx = (n.tasks b).ctx ∧ (n'.tasks b).entry = (n.tasks b).entry ∧
    (n'.tasks b).tls = (n.tasks b).tls ∧ (n'.tasks b).joiner = (n.tasks b).joiner ∧
    (n'.tasks b).detached = (n.tasks b).detached ∧ (n'.tasks b).spawn = (n.tasks b).spawn ∧
    (n'.tasks b).noPreemptFlag = (n.tasks b).noPreemptFlag
  scheduled : ∀ b, (n'.tasks b).scheduled =
    ((n.tasks b).scheduled || decide ((n.tasks n.cur).joiner = some b))

/-- `exit` does this before it yields. -/
theorem finish_finished (value : Nat) (n : Node κ) : Finished value n (n.finish value) := by
  let halted := n.modify n.cur fun b => { b with returnValue := value, runState := .stopped }
  cases waits : (n.tasks n.cur).joiner with
  | none =>
    have shape : n.finish value = halted := Node.finish_alone waits
    rw [shape]
    constructor
    case queue => simp [waits, halted]
    case own => simp [halted]
    case others =>
      intro b other
      simp [halted, other]
    case kept =>
      intro b
      by_cases same : b = n.cur
      · simp [halted, same]
      · simp [halted, same]
    case scheduled =>
      intro b
      by_cases same : b = n.cur
      · simp [halted, same, waits]
      · simp [halted, same, waits]
    all_goals rfl
  | some j =>
    have shape : n.finish value = halted.schedule j := Node.finish_joined waits
    rw [shape]
    -- The joiner may be the task itself, so each block is compared with both.
    have fields : ∀ b, ((halted.schedule j).tasks b).runState = (halted.tasks b).runState ∧
        ((halted.schedule j).tasks b).returnValue = (halted.tasks b).returnValue ∧
        (((halted.schedule j).tasks b).ctx = (halted.tasks b).ctx ∧
        ((halted.schedule j).tasks b).entry = (halted.tasks b).entry ∧
        ((halted.schedule j).tasks b).tls = (halted.tasks b).tls ∧
        ((halted.schedule j).tasks b).joiner = (halted.tasks b).joiner ∧
        ((halted.schedule j).tasks b).detached = (halted.tasks b).detached ∧
        ((halted.schedule j).tasks b).spawn = (halted.tasks b).spawn ∧
        ((halted.schedule j).tasks b).noPreemptFlag = (halted.tasks b).noPreemptFlag) ∧
        ((halted.schedule j).tasks b).scheduled =
          ((halted.tasks b).scheduled || decide (j = b)) := by
      intro b
      by_cases same : b = j
      · subst same
        simp [schedule]
      · simp [schedule, same, Ne.symm same]
    constructor
    case queue =>
      rw [waits]
      exact (schedule_rq halted j).1
    case own =>
      obtain ⟨state, value', -⟩ := fields n.cur
      simp [state, value', halted]
    case others =>
      intro b other
      obtain ⟨state, value', -⟩ := fields b
      simp [state, value', halted, other]
    case kept =>
      intro b
      obtain ⟨-, -, kept, -⟩ := fields b
      by_cases same : b = n.cur
      · simpa [halted, same] using kept
      · simpa [halted, same] using kept
    case scheduled =>
      intro b
      obtain ⟨-, -, -, scheduled⟩ := fields b
      rw [scheduled, waits]
      by_cases same : b = n.cur
      · simp [halted, same]
      · simp [halted, same]
    all_goals rfl

end Node

namespace Sys

variable {s s' : Sys} {phase : Addr → Phase} {host t b : Addr} {l : Label}

/-- A write, block by block. -/
theorem write_tasks (t : Addr) (f : Task Pc → Task Pc) (s : Sys) (b : Addr) :
    (s.write t f).tasks b = if b = t then f (s.tasks t) else s.tasks b := by
  simp [write, Function.update_apply]

/-- Numbering a block, block by block. -/
theorem number_tasks (t : Addr) (s : Sys) (b : Addr) :
    (s.number t).tasks b =
      if b = t then { s.tasks t with spawn := s.next, scheduled := false } else s.tasks b :=
  write_tasks t (fun b => { b with spawn := s.next, scheduled := false }) s b

/-- The switch back to the spawner, block by block. -/
theorem switchBack_tasks (other : t ≠ s.cur) (b : Addr) :
    (s.switchBack t).tasks b =
      if b = s.cur then (s.tasks s.cur).resumed (s.tasks s.cur).ctx.resume
      else if b = t then (s.tasks t).save ⟨.plain .prologue, s.stack⟩ else s.tasks b := by
  by_cases here : b = s.cur
  · simp [switchBack, Node.gthreadSwitchTo, Node.load, here, other.symm]
  · simp [switchBack, Node.gthreadSwitchTo, Node.load, here, Function.update_apply]

/-- Scheduling a block, block by block. -/
theorem schedule_tasks (t : Addr) (s : Sys) (b : Addr) :
    (s.schedule t).tasks b =
      if b = t then (s.tasks t).enqueue s.rq.minVruntime else s.tasks b := by
  simp [Node.schedule, Function.update_apply]

/-- The host never ends, and whoever can run was scheduled. -/
structure Named (host : Addr) (s : Sys) : Prop where
  entry : (s.tasks host).entry = none
  going : (s.tasks host).runState ≠ .stopped
  zero : (s.tasks host).spawn = 0
  numbered : ∀ b, (s.tasks b).runState ≠ .stopped → b = host ∨ (s.tasks b).spawn ≠ 0
  scheduled : ∀ b, b = s.cur ∨ some b ∈ s.rq.runqueue → b = host ∨ (s.tasks b).scheduled = true

/-- A step that leaves the numbers of the blocks alone. -/
theorem Named.keep (named : s.Named host)
    (runnable : ∀ b, b = s'.cur ∨ some b ∈ s'.rq.runqueue →
      (b = s.cur ∨ some b ∈ s.rq.runqueue) ∨ (s'.tasks b).scheduled = true)
    (stopped : ∀ b, (s'.tasks b).runState = .stopped ↔ (s.tasks b).runState = .stopped)
    (entry : ∀ b, (s'.tasks b).entry = (s.tasks b).entry)
    (spawn : ∀ b, (s'.tasks b).spawn = (s.tasks b).spawn)
    (scheduled : ∀ b, (s.tasks b).scheduled = true → (s'.tasks b).scheduled = true) :
    s'.Named host where
  entry := (entry host).trans named.entry
  going := fun ended => named.going ((stopped host).mp ended)
  zero := (spawn host).trans named.zero
  numbered := by
    intro b alive
    rw [spawn b]
    exact named.numbered b fun ended => alive ((stopped b).mpr ended)
  scheduled := by
    intro b can
    rcases runnable b can with before | now
    · exact (named.scheduled b before).imp_right (scheduled b)
    · exact .inr now

/-- Only the running task, the queue and the blocks matter. -/
theorem Named.congr (named : s.Named host) (cur : s'.cur = s.cur) (rq : s'.rq = s.rq)
    (tasks : s'.tasks = s.tasks) : s'.Named host := by
  refine named.keep ?_ ?_ ?_ ?_ ?_
  · intro b can
    rw [cur, rq] at can
    exact .inl can
  all_goals simp [tasks]

/-- A write to the other fields of a block. -/
theorem Named.write (named : s.Named host) (t : Addr) (f : Task Pc → Task Pc)
    (stopped : (f (s.tasks t)).runState = .stopped ↔ (s.tasks t).runState = .stopped)
    (entry : (f (s.tasks t)).entry = (s.tasks t).entry)
    (spawn : (f (s.tasks t)).spawn = (s.tasks t).spawn)
    (scheduled : (f (s.tasks t)).scheduled = (s.tasks t).scheduled) : (s.write t f).Named host := by
  have fields : ∀ b, (((s.write t f).tasks b).runState = .stopped ↔
      (s.tasks b).runState = .stopped) ∧ ((s.write t f).tasks b).entry = (s.tasks b).entry ∧
      ((s.write t f).tasks b).spawn = (s.tasks b).spawn ∧
      ((s.write t f).tasks b).scheduled = (s.tasks b).scheduled := by
    intro b
    rw [write_tasks]
    split
    · rename_i here
      rw [here]
      exact ⟨stopped, entry, spawn, scheduled⟩
    · exact ⟨Iff.rfl, rfl, rfl, rfl⟩
  exact named.keep (fun b can => .inl can) (fun b => (fields b).1) (fun b => (fields b).2.1)
    (fun b => (fields b).2.2.1) fun b before => (fields b).2.2.2.trans before

/-- A step that changes a block that holds no task. -/
theorem Named.touch (named : s.Named host) (other : t ≠ host) (cur : s'.cur = s.cur)
    (rq : s'.rq = s.rq) (off : t ≠ s.cur ∧ some t ∉ s.rq.runqueue)
    (same : ∀ b, b ≠ t → (s'.tasks b).entry = (s.tasks b).entry ∧
      ((s'.tasks b).runState = .stopped ↔ (s.tasks b).runState = .stopped) ∧
      (s'.tasks b).spawn = (s.tasks b).spawn ∧ (s'.tasks b).scheduled = (s.tasks b).scheduled)
    (numbered : (s'.tasks t).runState ≠ .stopped → (s'.tasks t).spawn ≠ 0) : s'.Named host where
  entry := (same host other.symm).1.trans named.entry
  going := fun ended => named.going ((same host other.symm).2.1.mp ended)
  zero := (same host other.symm).2.2.1.trans named.zero
  numbered := by
    intro b alive
    by_cases here : b = t
    · exact .inr (here ▸ numbered (here ▸ alive))
    · obtain ⟨-, stopped, spawn, -⟩ := same b here
      rw [spawn]
      exact named.numbered b fun ended => alive (stopped.mpr ended)
  scheduled := by
    intro b can
    rw [cur, rq] at can
    have here : b ≠ t := by
      rintro rfl
      exact can.elim off.1 off.2
    rw [(same b here).2.2.2]
    exact named.scheduled b can

/-- The host is a task. -/
theorem Named.host_active (named : s.Named host) (core : (s.life phase).Core) :
    ∃ holder, phase host = .active holder := by
  rcases live_or_building core named.going with ⟨active, -⟩ | building
  · exact active
  · exact absurd named.zero (core.records.spawned host (.inl building))

/-- A block that holds no task is not the host's, does not run and is not queued. -/
theorem Named.off {strict : Prop} (named : s.Named host) (inv : (s.life phase).Inv strict)
    (idle : ∀ holder, phase t ≠ .active holder) :
    t ≠ host ∧ t ≠ s.cur ∧ some t ∉ s.rq.runqueue := by
  refine ⟨?_, ?_, ?_⟩
  · rintro rfl
    obtain ⟨holder, active⟩ := named.host_active inv.toCore
    exact idle holder active
  · rintro rfl
    obtain ⟨holder, active⟩ := inv.active
    exact idle holder active
  · intro queued
    obtain ⟨⟨holder, active⟩, -⟩ := inv.queues.live t queued
    exact idle holder active

/-- Giving up the processor leaves the numbers alone. -/
theorem Named.yield {clock : Clock} {k : Pc} (named : s.Named host)
    (queues : s.rq.sleepqueue = [] ∧ none ∉ s.rq.runqueue)
    (live : ∀ b, some b ∈ s.rq.runqueue → (s.tasks b).runState ≠ .stopped)
    (yielded : Node.Yielded clock k s.toNode s'.toNode) : s'.Named host := by
  refine named.keep ?_ (yielded.stopped_iff queues.2 queues.1 live)
    (fun b => (yielded.kept b).entry) (fun b => (yielded.kept b).spawn) ?_
  · intro b can
    exact .inl ((yielded.runnable_cases queues.2 queues.1 can).imp_left (·.1))
  · intro b before
    exact ((yielded.kept b).scheduled).trans before

/-- Setting the preempt flag leaves them alone, too. -/
theorem Named.setFlag (named : s.Named host) (flag : Bool) :
    Named host { s with toNode := s.setFlag flag } :=
  named.write s.cur (fun t => { t with noPreemptFlag := flag }) Iff.rfl rfl rfl rfl

/-- Stopping the running task, which is not the host. -/
theorem Named.finish {value : Nat} {n : Node Pc} (named : s.Named host) (other : s.cur ≠ host)
    (finished : Node.Finished value s.toNode n) : Named host { s with toNode := n } where
  entry := (finished.kept host).2.1.trans named.entry
  going := by
    rw [(finished.others host other.symm).1]
    exact named.going
  zero := (finished.kept host).2.2.2.2.2.1.trans named.zero
  numbered := by
    intro b alive
    have here : b ≠ s.cur := by
      rintro rfl
      exact alive finished.own.1
    rw [(finished.others b here).1] at alive
    rw [(finished.kept b).2.2.2.2.2.1]
    exact named.numbered b alive
  scheduled := by
    intro b can
    rw [finished.scheduled b]
    rw [finished.cur, finished.queue.mem_iff] at can
    -- The joiner is scheduled in this very step.
    cases joiner : (s.tasks s.cur).joiner with
    | none =>
      simp only [joiner] at can
      simpa using named.scheduled b can
    | some j =>
      simp only [joiner, List.mem_cons, Option.some.injEq] at can
      by_cases woken : j = b
      · simp [woken]
      · simpa [woken] using named.scheduled b (by simpa [Ne.symm woken] using can)

/-- What the queue of a system in order holds. -/
theorem queued_going {strict : Prop} (inv : (s.life phase).Inv strict) (b : Addr)
    (queued : some b ∈ s.rq.runqueue) : (s.tasks b).runState ≠ .stopped :=
  (inv.queues.live b queued).2

/-- The queue as a task that exits leaves it to its yield. -/
theorem finish_queues {strict : Prop} (value : Nat) (inv : (s.life phase).Inv strict)
    (at_ : s.pc = .user) :
    (((s.setFlag true).finish value).rq.sleepqueue = [] ∧
      none ∉ ((s.setFlag true).finish value).rq.runqueue) ∧
    ∀ b, some b ∈ ((s.setFlag true).finish value).rq.runqueue →
      (((s.setFlag true).finish value).tasks b).runState ≠ .stopped := by
  have here : (s.life phase).at_ s.cur = .user := by rw [life_at_cur, at_]; rfl
  obtain ⟨rq, woken, life⟩ := life_finish value phase { s with toNode := s.setFlag true }
  rw [life_setFlag] at woken life
  obtain ⟨core, -⟩ := inv.stop here woken
  rw [← life] at core
  exact ⟨⟨core.queues.awake, core.queues.nonNull⟩, fun b queued => (core.queues.live b queued).2⟩

/-- A call at work on the life of a block, at the statement the running task is at. -/
theorem ok_at {strict : Prop} {p : Pc} (inv : (s.life phase).Inv strict) (at_ : s.pc = p) :
    (s.life phase).Ok s.cur p.base := by
  have here := life_at_cur phase s
  rw [at_] at here
  exact here ▸ inv.ok_cur

/-- The host stays what it is and the numbers are kept, whatever step is taken. -/
theorem Named.step {strict : Prop} (named : s.Named host) (inv : (s.life phase).Inv strict)
    (linear : s.Linear l) (ok : s.step l = .ok s') : s'.Named host := by
  have queues : s.rq.sleepqueue = [] ∧ none ∉ s.rq.runqueue :=
    ⟨inv.queues.awake, inv.queues.nonNull⟩
  have running : s.running = true := inv.queues.running
  have flagged : ∀ b, ((s.setFlag true).tasks b).runState = (s.tasks b).runState := by
    intro b
    by_cases here : b = s.cur
    · simp [Node.setFlag, here]
    · simp [Node.setFlag, here]
  have going : (s.tasks s.cur).runState ≠ .stopped := inv.going
  cases stepped_of_ok ok with
  | nothing => exact named
  | yields leaves ok =>
    obtain ⟨-, n, rfl, -, yielded⟩ := yieldLocked_ok running ok
    refine (named.setFlag true).yield queues ?_ yielded
    intro b queued
    exact (flagged b).symm ▸ queued_going inv b queued
  | sleeps => exact linear.elim
  | @exits value clock _ at_ ok =>
    obtain ⟨entered, -, n, rfl, -, yielded⟩ := exit_ok running ok
    have other : s.cur ≠ host := by
      intro same
      exact entered (same ▸ named.entry)
    obtain ⟨queues, live⟩ := finish_queues value inv at_
    have finished := Node.finish_finished value (s.setFlag true)
    exact ((named.setFlag true).finish other finished).yield queues live yielded
  | @waits h wanted t clock at_ points clear unjoined waited =>
    have joined := named.write t (fun b => { b with joiner := some s.cur }) Iff.rfl rfl rfl rfl
    have waiting := joined.write s.cur (Task.setState .waiting) ?_ rfl rfl rfl
    · exact waiting.congr rfl rfl rfl
    · rw [write_tasks]
      split_ifs <;> simp_all
  | @detaches h t clock at_ points clear going =>
    exact
      (named.write t (fun b => { b with detached := true }) Iff.rfl rfl rfl rfl).congr rfl rfl rfl
  | unlocks at_ held => exact (named.setFlag false).congr rfl rfl rfl
  | begins at_ =>
    refine (named.write s.cur (Task.setState .running) ?_ rfl rfl rfl).congr rfl rfl rfl
    simp [going]
  | @finds a entry arg h t rest clock fresh at_ found =>
    have pooled : phase t = .pooled := by
      refine (inv.places.pooled t).mp ?_
      exact (Node.findTask_perm found).mem_iff.mpr List.mem_cons_self
    obtain ⟨other, away, off⟩ := named.off inv (t := t) (by simp [pooled])
    refine named.touch other rfl rfl ⟨away, off⟩ ?_ ?_
    · intro b elsewhere
      simp [goto, number_tasks, elsewhere]
    · intro _
      simpa [goto, number_tasks] using Nat.pos_iff_ne_zero.mp inv.records.positive
  | @resets t entry arg h clock fresh at_ =>
    have building : phase t = .building s.cur := (ok_at inv at_).2
    obtain ⟨other, away, off⟩ := named.off inv (t := t) (by simp [building])
    refine named.touch other rfl rfl ⟨away, off⟩ ?_ ?_
    · intro b elsewhere
      simp [goto, write_tasks, elsewhere]
    · simp [goto, write_tasks, Task.reset]
  | @creates a entry arg h clock fresh at_ unmapped =>
    have absent : phase fresh = .unmapped := (inv.places.absent fresh).mp unmapped
    obtain ⟨other, away, off⟩ := named.off inv (t := fresh) (by simp [absent])
    refine named.touch other rfl rfl ⟨away, off⟩ ?_ ?_
    · intro b elsewhere
      simp [goto, number_tasks, write_tasks, elsewhere]
    · simp [goto, number_tasks, write_tasks, Task.construct]
  | @launches t entry arg h clock fresh at_ stopped other =>
    have building : phase t = .building s.cur := (ok_at inv at_).2.1
    obtain ⟨other, away, off⟩ := named.off inv (t := t) (by simp [building])
    refine named.touch other rfl rfl ⟨away, off⟩ ?_ ?_
    · intro b elsewhere
      simp only [goto, write_tasks, if_neg elsewhere]
      split_ifs <;> simp_all
    · simp [goto, write_tasks, away, stopped]
  | @lands t h clock fresh at_ =>
    have building : phase t = .building s.cur := (ok_at inv at_).2.1
    obtain ⟨other, away, off⟩ := named.off inv (t := t) (by simp [building])
    refine named.keep (fun b can => .inl can) ?_ ?_ ?_ ?_
    all_goals
      intro b
      rw [switchBack_tasks away]
      split_ifs with here
      · cases (s.tasks s.cur).ctx.resume <;> simp_all [Resume.runState]
      · simp_all
      · simp
  | @suspends t h clock fresh at_ =>
    have building : phase t = .building s.cur := (ok_at inv at_).2.1
    obtain ⟨other, away, off⟩ := named.off inv (t := t) (by simp [building])
    refine named.touch other rfl rfl ⟨away, off⟩ ?_ ?_
    · intro b elsewhere
      simp [goto, write_tasks, elsewhere]
    · intro _
      simpa [goto, write_tasks] using inv.records.spawned t (.inl (by simp [building, Phase.kind]))
  | @publishes t h clock fresh at_ clear =>
    refine named.keep ?_ ?_ ?_ ?_ ?_
    · intro b can
      by_cases new : b = t
      · exact .inr (by simp [goto, schedule_tasks, new])
      · refine .inl (can.imp_right fun queued => ?_)
        have member := (Node.schedule_rq s.toNode t).1.mem_iff.mp queued
        simpa [new] using member
    all_goals
      intro b
      simp only [goto, schedule_tasks]
      split_ifs <;> simp_all
  | _ => exact named.congr rfl rfl rfl

/-- A node that was just started has its host. -/
theorem named_start (host : Addr) (tick : Int) (maxSize : Nat) :
    (start host tick maxSize).Named host := by
  have task : ∀ b, (start host tick maxSize).tasks b = if b = host
      then Task.wrapCurrent .zero host else Task.construct .zero 0 false := by
    intro b
    exact Function.update_apply (fun _ => Task.construct Pc.zero 0 false) host _ b
  constructor
  case numbered =>
    intro b
    rw [task]
    split_ifs with same
    · exact fun _ => .inl same
    · simp [Task.construct]
  case scheduled => simp [start, Node.startAsync]
  all_goals simp [task, Task.wrapCurrent, Task.construct]

end Sys

end Gthread

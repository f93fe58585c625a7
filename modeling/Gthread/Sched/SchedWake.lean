import Gthread.Sched.Kernel
import Gthread.Sched.LifeWake
import Gthread.Sched.PreemptFlag

/-! What the critical sections of `waiter` do to the scheduler: waiting, waking and swapping. -/

namespace Gthread

open Function (update update_of_ne update_self)

namespace Sys

variable {s s' : Sys} {phase : Addr → Phase} {l : Label} {clock : Clock} {p : Pc} {b q host : Addr}
  {tick : Int} {maxSize : Nat}

/-- A task known to the scheduler that is in code of the program. -/
structure Free (host : Addr) (s : Sys) (b : Addr) : Prop where
  going : (s.tasks b).runState ≠ .stopped
  known : b = host ∨ (s.tasks b).scheduled = true
  at_ : s.at_ b = .user

/-- A system in order, whose flags are balanced. -/
structure Disciplined (host : Addr) (s : Sys) : Prop where
  order : s.InOrder False
  named : s.Named host
  starting : s.Starting
  balanced : s.Balanced host

/-- Such a task is in no call. -/
theorem Free.apart (free : s.Free host b) (named : s.Named host)
    (inv : (s.life phase).Inv False) : (s.life phase).Apart b := by
  refine ⟨?_, free.at_⟩
  rcases live_or_building inv.toCore free.going with live | building
  · exact live
  · -- A block in the making is not known, and not the host's.
    rcases free.known with rfl | scheduled
    · exact ⟨named.host_active inv.toCore, free.going⟩
    · have unscheduled : (s.tasks b).scheduled = false := (inv.idle.building b building).1
      exact absurd scheduled (by simp [unscheduled])

/-- The running task, when it is in code of the program. -/
theorem Disciplined.free_cur (d : s.Disciplined host) (at_ : s.pc.base = .user) :
    s.Free host s.cur := by
  obtain ⟨phase, inv⟩ := d.order
  exact ⟨inv.going, d.named.scheduled s.cur (.inl rfl), (at_cur s).trans at_⟩

/-- A step of the scheduler's interface keeps it. -/
theorem Disciplined.step (d : s.Disciplined host) (linear : s.Linear l)
    (undisturbed : s.Undisturbed l) (ok : s.step l = .ok s') : s'.Disciplined host := by
  obtain ⟨phase, inv⟩ := d.order
  exact ⟨inOrder_step d.order linear False.elim ok, d.named.step inv linear ok,
    d.starting.step undisturbed ok, d.balanced.step d.named d.starting inv linear ok⟩

/-- New blocks and a new queue that differ only in who waits, among the tasks in no call. -/
structure Rouses (host : Addr) (s : Sys) (tasks : Addr → Task Pc) (queue : Rq) : Prop where
  blocks : ∀ b, (tasks b).ctx = (s.tasks b).ctx ∧ (tasks b).entry = (s.tasks b).entry ∧
    (tasks b).joiner = (s.tasks b).joiner ∧ (tasks b).detached = (s.tasks b).detached ∧
    (tasks b).spawn = (s.tasks b).spawn ∧ (tasks b).noPreemptFlag = (s.tasks b).noPreemptFlag
  state : ∀ b, (tasks b).runState = (s.tasks b).runState ∨
    (s.Free host b ∧ (tasks b).runState ≠ .stopped)
  scheduled : ∀ b, (tasks b).scheduled = (s.tasks b).scheduled ∨
    (b ≠ s.cur ∧ s.Free host b ∧ (tasks b).scheduled = true)
  awake : queue.sleepqueue = s.rq.sleepqueue
  queued : ∀ b, b ∈ queue.runqueue → b ∈ s.rq.runqueue ∨ ∃ q, b = some q ∧ s.Free host q
  nodup : (some s.cur :: queue.runqueue).Nodup

/-- Who waits among the tasks in no call may change. -/
theorem Disciplined.rouse {tasks : Addr → Task Pc} {queue : Rq} (d : s.Disciplined host)
    (at_ : s.pc = .user) (rouses : s.Rouses host tasks queue) :
    Sys.Disciplined host { s with tasks := tasks, rq := queue } := by
  obtain ⟨phase, inv⟩ := d.order
  have apart : ∀ {b}, s.Free host b → (s.life phase).Apart b := fun free => free.apart d.named inv
  have cur := apart (d.free_cur (by rw [at_]; rfl))
  have blocks := rouses.blocks
  have known : ∀ b, (b = host ∨ (tasks b).scheduled = true) →
      b = host ∨ (s.tasks b).scheduled = true := by
    rintro b (same | after)
    · exact .inl same
    · rcases rouses.scheduled b with kept | ⟨-, free, -⟩
      · exact .inr (kept.symm.trans after)
      · exact free.known
  have serves : ∀ b, (s.tasks b).scheduled = true → (tasks b).scheduled = true := fun b before =>
    (rouses.scheduled b).elim (fun kept => kept.trans before) fun changed => changed.2.2
  have queued : ∀ b, some b ∈ queue.runqueue → some b ∈ s.rq.runqueue ∨ s.Free host b := by
    intro b member
    refine (rouses.queued (some b) member).imp_right ?_
    rintro ⟨q, same, free⟩
    exact Option.some.inj same ▸ free
  have nonNull : none ∉ queue.runqueue := by
    intro null
    rcases rouses.queued none null with before | ⟨q, same, -⟩
    · exact inv.queues.nonNull before
    · cases same
  have stopped : ∀ b, (tasks b).runState = .stopped ↔ (s.tasks b).runState = .stopped := by
    intro b
    rcases rouses.state b with same | ⟨free, going⟩
    · rw [same]
    · exact ⟨fun ended => absurd ended going, fun ended => absurd ended free.going⟩
  refine ⟨⟨phase, inv.wake ?_⟩, ?_, ?_, ?_⟩
  · constructor
    case running => rfl
    case next => exact cur
    case caller => exact cur
    case awake => exact rouses.awake.trans inv.queues.awake
    case nonNull => exact nonNull
    case nodup => exact rouses.nodup
    case queued => exact fun b member => (queued b member).imp_right apart
    case control =>
      refine ⟨rfl, funext fun b => ?_, funext fun b => ?_⟩
      · simp only [life_at_, (blocks b).1]
      · simp only [life_stackOf, (blocks b).1]
    case state => exact fun b => (rouses.state b).imp_right (And.imp_left apart)
    case scheduled => exact fun b => (rouses.scheduled b).imp_right fun changed => apart changed.2.1
    case kept =>
      exact ⟨funext fun b => (blocks b).2.2.1, funext fun b => (blocks b).2.2.2.1,
        funext fun b => (blocks b).2.2.2.2.1⟩
    case places => exact ⟨rfl, rfl, rfl, rfl⟩
    case program => exact ⟨rfl, rfl, rfl⟩
    case history => exact ⟨rfl, rfl, rfl⟩
  · refine ⟨(blocks host).2.1.trans d.named.entry,
      fun ended => d.named.going ((stopped host).mp ended),
      (blocks host).2.2.2.2.1.trans d.named.zero, fun b going => ?_, fun b can => ?_⟩
    · show b = host ∨ (tasks b).spawn ≠ 0
      rw [(blocks b).2.2.2.2.1]
      exact d.named.numbered b fun ended => going ((stopped b).mpr ended)
    · have before : b = host ∨ (s.tasks b).scheduled = true := by
        rcases can with same | member
        · exact d.named.scheduled b (.inl same)
        · rcases queued b member with before | free
          · exact d.named.scheduled b (.inr before)
          · exact free.known
      exact before.imp_right (serves b)
  · exact d.starting.keep rfl rfl (fun b => (blocks b).1) rfl fun t h => id
  · refine d.balanced.proceed d.named inv at_ rfl (fun b other _ => ?_) rfl ?_ ?_ ?_ ?_ ?_
    · exact
        { ctx := (blocks b).1, flag := (blocks b).2.2.2.2.2,
          entered := fun here => absurd here other,
          serves := fun _ => serves b, known := known b }
    · exact congrArg Pc.ends at_
    · exact ⟨(blocks s.cur).2.2.2.2.2,
        (rouses.scheduled s.cur).resolve_right fun changed => changed.1 rfl⟩
    · -- The running task is in no call, so it makes no block.
      intro b building after
      rcases rouses.scheduled b with kept | ⟨-, free, -⟩
      · have idle : (s.tasks b).scheduled = false :=
          (inv.idle.building b (by simp [building, Phase.kind])).1
        exact absurd (kept.symm.trans after) (by simp [idle])
      · obtain ⟨⟨⟨holder, active⟩, -⟩, -⟩ := apart free
        exact absurd (building.symm.trans active) (by simp)
    · exact fun h o works _ => works
    · intro h _
      show Sys.Bare _ s.pc.base
      rw [at_]
      trivial

/-- A task marks itself as waiting. -/
theorem Disciplined.mark (d : s.Disciplined host) (at_ : s.pc = .user) :
    (s.write s.cur (Task.setState .waiting)).Disciplined host := by
  obtain ⟨phase, inv⟩ := d.order
  have cur := d.free_cur (by rw [at_]; rfl)
  have fields : ∀ b, (s.write s.cur (Task.setState .waiting)).tasks b =
      if b = s.cur then (s.tasks s.cur).setState .waiting else s.tasks b :=
    fun b => write_tasks s.cur (Task.setState .waiting) s b
  suffices rouses : s.Rouses host (s.write s.cur (Task.setState .waiting)).tasks s.rq from
    d.rouse at_ rouses
  refine
    { blocks := fun b => ?_, state := fun b => ?_, scheduled := fun b => .inl ?_, awake := rfl
      queued := fun b => .inl, nodup := inv.queues.nodup }
  · simp only [fields]
    split_ifs <;> simp_all
  · simp only [fields]
    split_ifs with own
    · exact .inr ⟨own ▸ cur, by simp⟩
    · exact .inl rfl
  · simp only [fields]
    split_ifs <;> simp_all

/-- What a wake-up changes: the task is suspended, and queued. -/
structure Roused (q : Addr) (s s' : Sys) : Prop where
  cur : s'.cur = s.cur
  pc : s'.pc = s.pc
  state : ∀ b, (s'.tasks b).runState = if b = q then .suspended else (s.tasks b).runState
  ctx : ∀ b, (s'.tasks b).ctx = (s.tasks b).ctx
  flag : ∀ b, (s'.tasks b).noPreemptFlag = (s.tasks b).noPreemptFlag
  serves : ∀ b, (s.tasks b).scheduled = true → (s'.tasks b).scheduled = true
  queued : ∀ b, some b ∈ s'.rq.runqueue → b = q ∨ some b ∈ s.rq.runqueue

/-- The critical section of `unpark` does this. -/
theorem wake_roused (ok : s.wake q = .ok s') : s.Roused q s' := by
  obtain ⟨-, rfl⟩ := wake_ok ok
  have fields : ∀ b, ((s.modify q (Task.setState .suspended)).schedule q).tasks b =
      if b = q then ((s.tasks q).setState .suspended).enqueue s.rq.minVruntime else s.tasks b := by
    intro b
    by_cases here : b = q
    · simp [Node.schedule, here]
    · simp [Node.schedule, here]
  constructor
  case cur => rfl
  case pc => rfl
  case queued =>
    intro b member
    have perm := (Node.schedule_rq (s.modify q (Task.setState .suspended)) q).1
    exact (List.mem_cons.mp (perm.mem_iff.mp member)).imp_left Option.some.inj
  all_goals
    intro b
    simp only [fields]
    split_ifs <;> simp_all

/-- A task that is waiting off the queue is woken. -/
theorem Disciplined.wake (d : s.Disciplined host) (at_ : s.pc = .user) (free : s.Free host q)
    (off : ¬ s.Runnable q) (ok : s.wake q = .ok s') : s'.Disciplined host := by
  obtain ⟨-, rfl⟩ := wake_ok ok
  obtain ⟨phase, inv⟩ := d.order
  have other : q ≠ s.cur := fun same => off (.inl same)
  obtain ⟨perm, asleep⟩ := Node.schedule_rq (s.modify q (Task.setState .suspended)) q
  have fields : ∀ b, ((s.modify q (Task.setState .suspended)).schedule q).tasks b =
      if b = q then ((s.tasks q).setState .suspended).enqueue s.rq.minVruntime else s.tasks b := by
    intro b
    by_cases here : b = q
    · simp [Node.schedule, here]
    · simp [Node.schedule, here]
  suffices rouses : s.Rouses host ((s.modify q (Task.setState .suspended)).schedule q).tasks
      ((s.modify q (Task.setState .suspended)).schedule q).rq from d.rouse at_ rouses
  refine
    { blocks := fun b => ?_, state := fun b => ?_, scheduled := fun b => ?_, awake := asleep
      queued := fun b member => ?_, nodup := ?_ }
  · simp only [fields]
    split_ifs <;> simp_all
  · simp only [fields]
    split_ifs with target
    · exact .inr ⟨target ▸ free, by simp⟩
    · exact .inl rfl
  · simp only [fields]
    split_ifs with target
    · exact .inr ⟨target ▸ other, target ▸ free, by simp⟩
    · exact .inl rfl
  · rcases List.mem_cons.mp (perm.mem_iff.mp member) with same | before
    · exact .inr ⟨q, same, free⟩
    · exact .inl before
  · -- It was neither running nor queued.
    have fresh : (some s.cur :: some q :: s.rq.runqueue).Nodup := by
      obtain ⟨idle, once⟩ := List.nodup_cons.mp inv.queues.nodup
      refine List.nodup_cons.mpr ⟨?_, List.nodup_cons.mpr ⟨fun queued => off (.inr queued), once⟩⟩
      rw [List.mem_cons, not_or]
      exact ⟨fun same => other (Option.some.inj same).symm, idle⟩
    exact (perm.cons (some s.cur)).nodup_iff.mpr fresh

/-- What the blocks look like after a swap with a task that waits. -/
structure Swapped (q : Addr) (s s' : Sys) : Prop where
  other : q ≠ s.cur
  cur : s'.cur = q
  pc : s'.pc = (s.tasks q).ctx.resume.pc
  stack : s'.stack = (s.tasks q).ctx.stack
  rq : s'.rq = s.rq
  saved : (s'.tasks s.cur).ctx = ⟨.switched (.unlock .user), s.stack⟩
  ctx : ∀ b, b ≠ s.cur → (s'.tasks b).ctx = (s.tasks b).ctx
  flag : ∀ b, (s'.tasks b).noPreemptFlag =
    if b = s.cur then true else (s.tasks b).noPreemptFlag
  left : (s'.tasks s.cur).runState = .waiting
  entered : (s'.tasks q).runState = (s.tasks q).ctx.resume.runState (s.tasks q).runState
  state : ∀ b, b ≠ s.cur → b ≠ q → (s'.tasks b).runState = (s.tasks b).runState
  kept : ∀ b, (s'.tasks b).entry = (s.tasks b).entry ∧ (s'.tasks b).joiner = (s.tasks b).joiner ∧
    (s'.tasks b).detached = (s.tasks b).detached ∧ (s'.tasks b).spawn = (s.tasks b).spawn ∧
    (s'.tasks b).scheduled = (s.tasks b).scheduled

/-- A swap does this, and touches nothing else of the node or of the program. -/
theorem swapTo_swapped (ok : s.swapTo q clock = .ok s') :
    s.Swapped q s' ∧ (s'.running = s.running ∧ s'.pool = s.pool ∧ s'.deferred = s.deferred ∧
      s'.mapped = s.mapped ∧ s'.overwrote = s.overwrote) ∧
    (s'.handles = s.handles ∧ s'.busy = s.busy ∧ s'.owner = s.owner) ∧
    (s'.returned = s.returned ∧ s'.settled = s.settled ∧ s'.next = s.next) := by
  obtain ⟨-, n, rfl, -, switched⟩ := swapTo_ok ok
  have tasks := leaving_tasks clock s
  have other : q ≠ s.cur := switched.other
  have kept := switched.kept
  refine ⟨?_, ⟨switched.running, switched.pool, switched.deferred, switched.mapped,
    switched.overwrote⟩, ⟨rfl, rfl, rfl⟩, ⟨switched.returned, rfl, rfl⟩⟩
  constructor
  case other => exact other
  case cur => exact switched.cur
  case pc => exact switched.pc.trans (by rw [tasks, if_neg other])
  case stack => exact switched.stack.trans (by rw [tasks, if_neg other])
  case rq => exact switched.rq
  case saved => exact switched.saved
  case ctx =>
    intro b elsewhere
    exact (switched.others b elsewhere).1.trans (by rw [tasks, if_neg elsewhere])
  case flag =>
    intro b
    rw [(kept b).noPreemptFlag, tasks]
    split_ifs <;> rfl
  case left =>
    have waiting : ((s.leaving clock).tasks s.cur).runState = .waiting := by
      rw [tasks, if_pos rfl]
      rfl
    have left := switched.left
    rw [show (s.leaving clock).cur = s.cur from rfl, waiting] at left
    exact left
  case entered =>
    refine switched.entered.trans ?_
    rw [tasks, if_neg other]
  case state =>
    intro b elsewhere apart
    exact ((switched.others b elsewhere).2 apart).trans (by rw [tasks, if_neg elsewhere])
  case kept =>
    intro b
    rw [(kept b).entry, (kept b).joiner, (kept b).detached, (kept b).spawn, (kept b).scheduled,
      tasks]
    split_ifs with own
    · subst own
      exact ⟨rfl, rfl, rfl, rfl, rfl⟩
    · exact ⟨rfl, rfl, rfl, rfl, rfl⟩

/-- Every task is at the statement it was at. -/
theorem Swapped.at_ (swapped : s.Swapped q s') (base : s.pc.base = .user) (b : Addr) :
    s'.at_ b = s.at_ b := by
  have moved : s'.cur ≠ s.cur := swapped.cur ▸ swapped.other
  by_cases own : b = s.cur
  · subst own
    rw [Sys.at_, if_neg moved.symm, swapped.saved, at_cur, base]
    rfl
  · by_cases target : b = q
    · subst target
      rw [Sys.at_, Sys.at_, if_pos swapped.cur.symm, if_neg own, swapped.pc]
    · have elsewhere : b ≠ s'.cur := swapped.cur ▸ target
      rw [Sys.at_, Sys.at_, if_neg elsewhere, if_neg own, swapped.ctx b own]

/-- A task that is not running keeps what it needs to go on in code of the program. -/
theorem Free.keep (free : s.Free host b) (going : (s'.tasks b).runState ≠ .stopped)
    (serves : (s.tasks b).scheduled = true → (s'.tasks b).scheduled = true)
    (at_ : s'.at_ b = s.at_ b) : s'.Free host b :=
  ⟨going, free.known.imp_right serves, at_.trans free.at_⟩

/-- A task that marks itself as waiting stays in code of the program, and so do the others. -/
theorem Free.mark (free : s.Free host b) :
    (s.write s.cur (Task.setState .waiting)).Free host b := by
  have fields := write_tasks s.cur (Task.setState .waiting) s b
  refine free.keep ?_ (fun before => ?_) ?_
  · show ((s.write s.cur (Task.setState .waiting)).tasks b).runState ≠ .stopped
    rw [fields]
    split_ifs
    · simp
    · exact free.going
  · show ((s.write s.cur (Task.setState .waiting)).tasks b).scheduled = true
    rw [fields]
    split_ifs with own
    · exact own ▸ before
    · exact before
  · have ctx := write_ctx s.cur (Task.setState .waiting) (fun _ => rfl) s b
    rw [Sys.at_, Sys.at_, ctx]
    rfl

/-- So does every task when one is woken. -/
theorem Free.rouse (free : s.Free host b) (roused : s.Roused q s') : s'.Free host b := by
  refine free.keep ?_ (roused.serves b) ?_
  · rw [roused.state]
    split_ifs
    · simp
    · exact free.going
  · rw [Sys.at_, Sys.at_, roused.cur, roused.pc, roused.ctx]

/-- A task in code of the program that does not run was switched away from. -/
theorem Free.resume (free : s.Free host b) (balanced : s.Balanced host) (other : b ≠ s.cur) :
    ∃ p, (s.tasks b).ctx.resume = .switched (.unlock p) := by
  rcases balanced.away b other free.known with ⟨⟨p, -, resume⟩, -⟩ | ⟨resume, -⟩
  · exact ⟨p, resume⟩
  · -- A task that never ran is at its prologue.
    have here := free.at_
    rw [Sys.at_, if_neg other, resume] at here
    cases here

/-- The task that takes over was switched away from, so that it runs now. -/
theorem Swapped.runs (swapped : s.Swapped q s') (balanced : s.Balanced host)
    (free : s.Free host q) : (s'.tasks q).runState = .running := by
  obtain ⟨p, resume⟩ := free.resume balanced swapped.other
  rw [swapped.entered, resume]
  rfl

/-- Every task stays in code of the program when one takes over from another. -/
theorem Free.swap (free : s.Free host b) (swapped : s.Swapped q s') (base : s.pc.base = .user)
    (runs : (s'.tasks q).runState = .running) : s'.Free host b := by
  refine free.keep ?_ (swapped.kept b).2.2.2.2.trans (swapped.at_ base b)
  by_cases same : b = s.cur
  · rw [same, swapped.left]
    simp
  · by_cases target : b = q
    · rw [target, runs]
      simp
    · rw [swapped.state b same target]
      exact free.going

/-- The running task goes to wait, and one that is waiting off the queue takes over. -/
theorem Disciplined.swap (d : s.Disciplined host) (at_ : s.pc = .user) (free : s.Free host q)
    (off : ¬ s.Runnable q) (ok : s.swapTo q clock = .ok s') : s'.Disciplined host := by
  obtain ⟨swapped, ⟨running, pool, deferred, mapped, overwrote⟩, ⟨handles, busy, owner⟩,
    returned, settled, next⟩ := swapTo_swapped ok
  obtain ⟨phase, inv⟩ := d.order
  have caller := d.free_cur (by rw [at_]; rfl)
  have base : s.pc.base = .user := by
    rw [at_]
    rfl
  have moved : s'.cur ≠ s.cur := swapped.cur ▸ swapped.other
  have kept := swapped.kept
  have goes : (s'.tasks q).runState ≠ .stopped := by
    rw [swapped.entered]
    cases (s.tasks q).ctx.resume with
    | plain k => exact free.going
    | switched k => simp [Resume.runState]
  have stopped : ∀ b, (s'.tasks b).runState = .stopped ↔ (s.tasks b).runState = .stopped := by
    intro b
    by_cases own : b = s.cur
    · rw [own, swapped.left]
      simp [caller.going]
    · by_cases target : b = q
      · rw [target]
        exact ⟨fun ended => absurd ended goes, fun ended => absurd ended free.going⟩
      · rw [swapped.state b own target]
  have steady : ∀ b, b ≠ s.cur → AtRest host phase s s' b := fun b other =>
    { ctx := swapped.ctx b other, flag := (swapped.flag b).trans (if_neg other)
      entered := fun here => (here.trans swapped.cur) ▸ swapped.pc
      serves := fun _ => (kept b).2.2.2.2.trans
      known := fun after => after.imp_right (kept b).2.2.2.2.symm.trans }
  refine ⟨⟨phase, inv.wake ?_⟩, ?_, ?_, ?_⟩
  · constructor
    case running => exact running
    case next =>
      show (s.life phase).Apart s'.cur
      exact swapped.cur ▸ free.apart d.named inv
    case caller => exact caller.apart d.named inv
    case awake => exact (congrArg Rq.sleepqueue swapped.rq).trans inv.queues.awake
    case nonNull =>
      show none ∉ s'.rq.runqueue
      exact swapped.rq ▸ inv.queues.nonNull
    case nodup =>
      show (some s'.cur :: s'.rq.runqueue).Nodup
      rw [swapped.cur, swapped.rq]
      refine List.nodup_cons.mpr ⟨fun queued => off (.inr queued), ?_⟩
      exact (List.nodup_cons.mp inv.queues.nodup).2
    case queued =>
      intro b member
      have before : some b ∈ s'.rq.runqueue := member
      rw [swapped.rq] at before
      exact .inl before
    case control =>
      refine ⟨rfl, funext fun b => ?_, funext fun b => ?_⟩
      · exact swapped.at_ base b
      · by_cases own : b = s.cur
        · simp [own, moved.symm, swapped.saved]
        · by_cases target : b = q
          · simp [target, swapped.cur, swapped.stack, swapped.other]
          · have elsewhere : b ≠ s'.cur := swapped.cur ▸ target
            simp [own, elsewhere, swapped.ctx b own]
    case state =>
      intro b
      by_cases own : b = s.cur
      · exact .inr ⟨own ▸ caller.apart d.named inv, by simp [own, swapped.left]⟩
      · by_cases target : b = q
        · exact .inr ⟨target ▸ free.apart d.named inv, target ▸ goes⟩
        · exact .inl (swapped.state b own target)
    case scheduled => exact fun b => .inl (kept b).2.2.2.2
    case kept =>
      exact ⟨funext fun b => (kept b).2.1, funext fun b => (kept b).2.2.1,
        funext fun b => (kept b).2.2.2.1⟩
    case places => exact ⟨pool, deferred, mapped, overwrote⟩
    case program => exact ⟨handles, busy, owner⟩
    case history => exact ⟨returned, settled, next⟩
  · refine ⟨(kept host).1.trans d.named.entry, fun ended => d.named.going ((stopped host).mp ended),
      (kept host).2.2.2.1.trans d.named.zero, fun b going => ?_, fun b can => ?_⟩
    · rw [(kept b).2.2.2.1]
      exact d.named.numbered b fun ended => going ((stopped b).mpr ended)
    · rw [(kept b).2.2.2.2]
      rw [swapped.cur, swapped.rq] at can
      exact can.elim (fun same => same ▸ free.known) fun queued => d.named.scheduled b (.inr queued)
  · have saved := congrArg Ctx.resume swapped.saved
    refine d.starting.move (running.trans inv.queues.running) moved ?_ saved swapped.ctx ?_
    · rw [swapped.cur]
      exact swapped.pc
    · simp [Pc.base]
  · refine d.balanced.move (p := .user) inv rfl moved steady ?_ (congrArg Ctx.resume swapped.saved)
      ((swapped.flag s.cur).trans (if_pos rfl)) ?_ busy fun h works => ?_
    · rw [swapped.cur]
      exact free.known
    · rw [(kept s.cur).2.2.2.2]
      exact caller.known
    · trivial

end Sys

end Gthread

import Gthread.Sched.SchedJoin

/-! What a step of the running task leaves alone: the blocks it neither runs in nor makes. -/

namespace Gthread

open Function (update update_of_ne update_self)

namespace Sys

variable {strict : Prop} {s s' : Sys} {phase : Addr → Phase} {l : Label} {clock : Clock} {p : Pc}
  {b t host : Addr} {tick : Int} {maxSize : Nat}

/-- What stays of a block that is not the running task's, and not in its making. -/
structure Foreign (phase : Addr → Phase) (s s' : Sys) (b : Addr) : Prop where
  ctx : (s'.tasks b).ctx = (s.tasks b).ctx
  flag : (s'.tasks b).noPreemptFlag = (s.tasks b).noPreemptFlag
  -- Its run state changes only if it is entered, where its context says.
  state : b ≠ s'.cur → (s'.tasks b).runState = (s.tasks b).runState
  entered : b = s'.cur → s'.pc = (s.tasks b).ctx.resume.pc
  woken : b = s'.cur →
    (s'.tasks b).runState = (s.tasks b).ctx.resume.runState (s.tasks b).runState
  serves : phase b ≠ .pooled → (s.tasks b).scheduled = true → (s'.tasks b).scheduled = true
  -- It is scheduled, and becomes runnable, only by the end of a task it has joined.
  known : (s'.tasks b).scheduled = true →
    (s.tasks b).scheduled = true ∨ (s.tasks s.cur).joiner = some b
  runnable : s'.Runnable b → s.Runnable b ∨ (s.tasks s.cur).joiner = some b

/-- A step does not put another task to wait. -/
theorem Foreign.waits (foreign : Foreign phase s s' b)
    (waiting : (s'.tasks b).runState = .waiting) : (s.tasks b).runState = .waiting := by
  by_cases here : b = s'.cur
  · -- A task that was switched away from comes back running.
    have woken := (foreign.woken here).symm.trans waiting
    cases saved : (s.tasks b).ctx.resume with
    | plain k =>
      rw [saved] at woken
      exact woken
    | switched k =>
      rw [saved] at woken
      cases woken
  · exact (foreign.state here).symm.trans waiting

/-- A step that does not write to the block at all. -/
theorem foreign_of_tasks (cur : s'.cur = s.cur) (queue : s'.rq = s.rq) (other : b ≠ s.cur)
    (same : s'.tasks b = s.tasks b) : Foreign phase s s' b where
  ctx := congrArg Task.ctx same
  flag := congrArg Task.noPreemptFlag same
  state _ := congrArg Task.runState same
  entered here := absurd (here.trans cur) other
  woken here := absurd (here.trans cur) other
  serves _ before := (congrArg Task.scheduled same).trans before
  known after := .inl ((congrArg Task.scheduled same).symm.trans after)
  runnable can := by
    rw [Node.Runnable, cur, queue] at can
    exact .inl can

/-- A step that gives up the processor. -/
theorem foreign_of_yielded {m : Node Pc} (cur : m.cur = s.cur) (other : b ≠ s.cur)
    (nonNull : none ∉ m.rq.runqueue) (awake : m.rq.sleepqueue = [])
    (ctx : (m.tasks b).ctx = (s.tasks b).ctx)
    (flag : (m.tasks b).noPreemptFlag = (s.tasks b).noPreemptFlag)
    (state : (m.tasks b).runState = (s.tasks b).runState)
    (serves : (s.tasks b).scheduled = true → (m.tasks b).scheduled = true)
    (known : (m.tasks b).scheduled = true →
      (s.tasks b).scheduled = true ∨ (s.tasks s.cur).joiner = some b)
    (queued : some b ∈ m.rq.runqueue →
      some b ∈ s.rq.runqueue ∨ (s.tasks s.cur).joiner = some b)
    (yielded : Node.Yielded clock (.unlock p) m s'.toNode) : Foreign phase s s' b where
  ctx := by
    rcases yielded.went with ⟨stayed, -⟩ | moved
    · exact (stayed.unchanged b).2.trans ctx
    · exact (moved.others b (cur ▸ other)).1.trans ctx
  flag := (yielded.kept b).noPreemptFlag.trans flag
  state elsewhere := by
    rcases yielded.went with ⟨stayed, -⟩ | moved
    · exact (stayed.unchanged b).1.trans state
    · exact ((moved.others b (cur ▸ other)).2 elsewhere).trans state
  entered here := by
    rcases yielded.went with ⟨stayed, -⟩ | moved
    · exact absurd (here.trans (stayed.cur.trans cur)) other
    · rw [moved.pc, ← here, ctx]
  woken here := by
    rcases yielded.went with ⟨stayed, -⟩ | moved
    · exact absurd (here.trans (stayed.cur.trans cur)) other
    · rw [here, moved.entered, ← here, ctx, state]
  serves _ before := (yielded.kept b).scheduled.trans (serves before)
  known after := known ((yielded.kept b).scheduled.symm.trans after)
  runnable can := by
    -- Who runs or is queued now was queued before, since it is not the caller.
    rcases yielded.runnable_cases nonNull awake can with ⟨same, -⟩ | before
    · exact absurd (same.trans cur) other
    · exact (queued before).imp_left .inr

/-- A call of `yield` leaves all other blocks alone. -/
theorem foreign_of_yieldLocked (inv : (s.life phase).Inv strict)
    (ok : s.yieldLocked clock p = .ok s') (other : b ≠ s.cur) : Foreign phase s s' b := by
  obtain ⟨-, n, rfl, -, yielded⟩ := yieldLocked_ok inv.queues.running ok
  obtain ⟨ctx, scheduled, state, -, flag⟩ := setFlag_fields true s b
  exact foreign_of_yielded (m := s.setFlag true) rfl other inv.queues.nonNull inv.queues.awake
    ctx (flag other) state (fun before => scheduled.trans before)
    (fun after => .inl (scheduled.symm.trans after)) .inl yielded

/-- So does a call of `exit`, but for scheduling the task that waits for the caller. -/
theorem foreign_of_exit {value : Nat} (inv : (s.life phase).Inv strict) (at_ : s.pc = .user)
    (ok : s.exit value clock = .ok s') (other : b ≠ s.cur) : Foreign phase s s' b := by
  obtain ⟨-, -, n, rfl, -, yielded⟩ := exit_ok inv.queues.running ok
  obtain ⟨⟨awake, nonNull⟩, -⟩ := finish_queues value inv at_
  obtain ⟨ctx, scheduled, state, -, flag⟩ := setFlag_fields true s b
  have finished := Node.finish_finished value (s.setFlag true)
  have kept := finished.kept b
  have joiner : ((s.setFlag true).tasks (s.setFlag true).cur).joiner = (s.tasks s.cur).joiner :=
    (setFlag_fields true s s.cur).2.2.2.1
  refine foreign_of_yielded (m := (s.setFlag true).finish value) finished.cur other nonNull awake
    (kept.1.trans ctx) (kept.2.2.2.2.2.2.trans (flag other))
    ((finished.others b other).1.trans state) (fun before => ?_) (fun after => ?_)
    (fun queued => ?_) yielded
  · rw [finished.scheduled b, scheduled, before]
    rfl
  · rw [finished.scheduled b, scheduled, Bool.or_eq_true, decide_eq_true_eq] at after
    exact after.imp_right joiner.symm.trans
  · have queue := finished.queue
    rw [joiner] at queue
    have member := queue.mem_iff.mp queued
    cases joins : (s.tasks s.cur).joiner with
    | none =>
      rw [joins] at member
      exact .inl member
    | some j =>
      rw [joins] at member
      rcases List.mem_cons.mp member with same | before
      · exact .inr same.symm
      · exact .inl before

/-- Every step leaves the other blocks alone, but for those that get a new task. -/
theorem foreign_of_step (inv : (s.life phase).Inv strict) (linear : s.Linear l)
    (ok : s.step l = .ok s') (other : b ≠ s.cur) (made : phase b ≠ .building s.cur)
    (mapped : phase b = .unmapped → ∀ a entry arg h, s.pc ≠ .makeCreate a entry arg h) :
    Foreign phase s s' b := by
  have still : ∀ {s'' : Sys}, s''.cur = s.cur → s''.rq = s.rq → s''.tasks b = s.tasks b →
      Foreign phase s s'' b := fun cur queue same => foreign_of_tasks cur queue other same
  -- The block that the running task is making is another one.
  have apart : ∀ {t : Addr}, phase t = .building s.cur → b ≠ t := by
    rintro t building rfl
    exact made building
  cases stepped_of_ok ok with
  | nothing => exact still rfl rfl rfl
  | yields leaves ok => exact foreign_of_yieldLocked inv ok other
  | sleeps => exact linear.elim
  | exits at_ ok => exact foreign_of_exit inv at_ ok other
  | @waits h wanted t clock at_ points unlocked unjoined alive =>
    obtain ⟨ctx, scheduled, flag, state, -⟩ := waitFor_fields h wanted t s b
    rw [if_neg other] at state
    exact
      { ctx, flag, state := fun _ => state, entered := fun here => absurd here other,
        woken := fun here => absurd here other, serves := fun _ before => scheduled.trans before,
        known := fun after => .inl (scheduled.symm.trans after), runnable := fun can => .inl can }
  | @detaches h t clock at_ points unlocked alive =>
    by_cases target : b = t
    · subst target
      constructor
      case entered | woken => exact fun here => absurd here other
      case runnable => exact fun can => .inl can
      all_goals simp +contextual [settle, write_tasks]
    · exact still rfl rfl (by simp [settle, write_tasks, target])
  | unlocks at_ held => exact still rfl rfl (by simp [goto, Node.setFlag, other])
  | begins at_ => exact still rfl rfl (by simp [goto, write_tasks, other])
  | @finds a entry arg h t rest clock fresh at_ found =>
    have pooled : phase t = .pooled := by
      refine (inv.places.pooled t).mp ?_
      exact (Node.findTask_perm found).mem_iff.mpr List.mem_cons_self
    by_cases target : b = t
    · -- A block from the pool gets a new number, and is used by nobody else.
      subst target
      constructor
      case serves => exact fun used => absurd pooled used
      case entered | woken => exact fun here => absurd here other
      case runnable => exact fun can => .inl can
      all_goals simp [goto, number_tasks]
    · exact still rfl rfl (by simp [goto, number_tasks, target])
  | @resets t entry arg h clock fresh at_ =>
    exact still rfl rfl (by simp [goto, write_tasks, apart (ok_at inv at_).2])
  | @creates a entry arg h clock fresh at_ unmapped =>
    have absent : b ≠ fresh := by
      rintro rfl
      exact mapped ((inv.places.absent b).mp unmapped) a entry arg h at_
    exact still rfl rfl (by simp [goto, number_tasks, write_tasks, absent])
  | @launches t entry arg h clock fresh at_ stopped elsewhere =>
    have building := apart (ok_at inv at_).2.1
    exact still rfl rfl (by simp [goto, write_tasks, other, building])
  | @lands t h clock fresh at_ =>
    have building : phase t = .building s.cur := (ok_at inv at_).2.1
    refine still rfl rfl ?_
    rw [switchBack_tasks (building_ne_cur inv building), if_neg other, if_neg (apart building)]
  | @suspends t h clock fresh at_ =>
    exact still rfl rfl (by simp [goto, write_tasks, apart (ok_at inv at_).2.1])
  | @publishes t h clock fresh at_ unlocked =>
    have building := apart (ok_at inv at_).2.1
    have same : (s.schedule t).tasks b = s.tasks b := by simp [schedule_tasks, building]
    exact
      { ctx := congrArg Task.ctx same, flag := congrArg Task.noPreemptFlag same,
        state := fun _ => congrArg Task.runState same, entered := fun here => absurd here other,
        woken := fun here => absurd here other
        serves := fun _ before => (congrArg Task.scheduled same).trans before
        known := fun after => .inl ((congrArg Task.scheduled same).symm.trans after)
        runnable := by
          intro can
          refine .inl (can.imp_right fun queued => ?_)
          have member := (Node.schedule_rq s.toNode t).1.mem_iff.mp queued
          exact (List.mem_cons.mp member).resolve_left fun here => building (Option.some.inj here) }
  | _ => exact still rfl rfl rfl

end Sys

end Gthread

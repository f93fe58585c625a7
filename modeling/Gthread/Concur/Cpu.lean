import Gthread.Sched.NodeLaws

/-! One kernel thread as a few of its tasks see it, and how the scheduler's node implements it. -/

namespace Gthread

open Function (update update_of_ne update_self)

/-- The kernel thread, for tasks named by `ι`; the others and the order of the queue are hidden. -/
structure Cpu (ι : Type) where
  -- Nothing while a task runs that has no name.
  running : Option ι
  state : ι → RunState
  queued : ι → Bool

namespace Cpu

variable {ι : Type} [DecidableEq ι]

/-- A task gives up the processor in `yield`; it is queued if it can run on. -/
@[simps] def leave (p : ι) (c : Cpu ι) : Cpu ι where
  running := none
  state := update c.state p (if c.state p = .running then .suspended else c.state p)
  queued := update c.queued p (c.state p = .running)

/-- The scheduler switches to a task that was switched away from before. -/
@[simps] def enter (p : ι) (c : Cpu ι) : Cpu ι where
  running := some p
  state := update c.state p .running
  queued := update c.queued p false

/-- Set a task's run state. -/
@[simps] def setState (p : ι) (state : RunState) (c : Cpu ι) : Cpu ι :=
  { c with state := update c.state p state }

/-- `schedule`. -/
@[simps] def schedule (p : ι) (c : Cpu ι) : Cpu ι :=
  { c with queued := update c.queued p true }

/-- `switch_to`, from a task to one that is not queued. -/
@[simps] def switchTo (p q : ι) (c : Cpu ι) : Cpu ι :=
  { c with
    running := some q
    state := update (update c.state p (if c.state p = .running then .suspended else c.state p)) q
      .running }

/-- The running task, if it has a name, gives up the processor. -/
def vacate (c : Cpu ι) : Cpu ι :=
  match c.running with
  | none => c
  | some p => c.leave p

/-- Nobody with a name runs then. -/
theorem vacate_running (c : Cpu ι) : c.vacate.running = none := by
  unfold vacate
  split
  · assumption
  · rfl

/-- A node looks to the named tasks, which stand at given addresses, like this processor. -/
structure Views {κ : Type} (place : ι → Addr) (n : Node κ) (c : Cpu ι) : Prop where
  running : ∀ p, c.running = some p ↔ n.cur = place p
  state : ∀ p, c.state p = (n.tasks (place p)).runState
  queued : ∀ p, c.queued p = true ↔ some (place p) ∈ n.rq.runqueue

/-- A node on which nobody sleeps; the named tasks it has queued were switched away from before. -/
structure Settled {κ : Type} (place : ι → Addr) (n : Node κ) : Prop where
  awake : n.rq.sleepqueue = []
  nonNull : none ∉ n.rq.runqueue
  nodup : (some n.cur :: n.rq.runqueue).Nodup
  switched : ∀ p, some (place p) ∈ n.rq.runqueue →
    ∃ k, (n.tasks (place p)).ctx.resume = .switched k

section Simulation

variable {κ : Type} {place : ι → Addr} {n n' : Node κ} {c : Cpu ι} {k : κ}

/-- The queue after a `yield`, as the named tasks see it. -/
theorem Views.vacated_queue (views : Views place n c) (settled : Settled place n) (b : ι) :
    c.vacate.queued b = true ↔
      some (place b) ∈ if (n.tasks n.cur).runState = .running then some n.cur :: n.rq.runqueue
        else n.rq.runqueue := by
  have off : some n.cur ∉ n.rq.runqueue := (List.nodup_cons.mp settled.nodup).1
  unfold vacate
  cases runs : c.running with
  | none =>
    have other : place b ≠ n.cur := by
      intro same
      rw [(views.running b).mpr same.symm] at runs
      cases runs
    rw [views.queued b]
    split
    · simp [other]
    · exact Iff.rfl
  | some p =>
    have here : n.cur = place p := (views.running p).mp runs
    by_cases same : b = p
    · subst same
      rw [← here, leave_queued, update_self, views.state b, ← here]
      by_cases going : (n.tasks n.cur).runState = .running
      · simp [going]
      · simp [going, off]
    · have other : place b ≠ n.cur := by
        intro there
        have twice := (views.running b).mpr there.symm
        rw [runs, Option.some.injEq] at twice
        exact same twice.symm
      rw [leave_queued, update_of_ne same, views.queued b]
      split
      · simp [other]
      · exact Iff.rfl

/-- The run state a task has once it has given up the processor. -/
theorem Views.vacated_state (views : Views place n c) (b : ι) :
    c.vacate.state b = if place b = n.cur ∧ (n.tasks n.cur).runState = .running then .suspended
      else (n.tasks (place b)).runState := by
  unfold vacate
  cases runs : c.running with
  | none =>
    have other : place b ≠ n.cur := by
      intro same
      rw [(views.running b).mpr same.symm] at runs
      cases runs
    rw [views.state b, if_neg (by simp [other])]
  | some p =>
    have here : n.cur = place p := (views.running p).mp runs
    by_cases same : b = p
    · subst same
      rw [leave_state, update_self, views.state b, ← here]
      simp
    · have other : place b ≠ n.cur := by
        intro there
        have twice := (views.running b).mpr there.symm
        rw [runs, Option.some.injEq] at twice
        exact same twice.symm
      rw [leave_state, update_of_ne same, views.state b, if_neg (by simp [other])]

omit [DecidableEq ι] in
/-- The run states after a `yield`: the next task runs, the others are as they were left. -/
theorem yielded_state {clock : Clock} (settled : Settled place n)
    (yielded : Node.Yielded clock k n n') (p : ι) :
    (n'.tasks (place p)).runState = if place p = n'.cur then .running
      else if place p = n.cur ∧ (n.tasks n.cur).runState = .running then .suspended
      else (n.tasks (place p)).runState := by
  obtain ⟨perm, -⟩ := Node.popped_perm yielded settled.nonNull settled.awake
  have off : some n.cur ∉ n.rq.runqueue := (List.nodup_cons.mp settled.nodup).1
  -- The task that was popped had been queued, or could run on.
  have member : some n'.cur ∈ if (n.tasks n.cur).runState = .running
      then some n.cur :: n.rq.runqueue else n.rq.runqueue := perm.subset List.mem_cons_self
  rcases yielded.went with ⟨stayed, -⟩ | moved
  · have same := stayed.cur
    have going : (n.tasks n.cur).runState = .running := by
      by_contra idle
      rw [if_neg idle, same] at member
      exact off member
    rw [(stayed.unchanged (place p)).1, same]
    by_cases here : place p = n.cur
    · rw [if_pos here, here, going]
    · rw [if_neg here, if_neg (by simp [here])]
  · have other := moved.other
    by_cases next : place p = n'.cur
    · have queued : some n'.cur ∈ n.rq.runqueue := by
        split at member
        · simpa [other] using member
        · exact member
      obtain ⟨at_, resume⟩ := settled.switched p (next ▸ queued)
      rw [next] at resume
      rw [if_pos next, next, moved.entered, resume]
      rfl
    · rw [if_neg next]
      by_cases here : place p = n.cur
      · rw [here, moved.left]
        simp
      · rw [if_neg (by simp [here]), (moved.others (place p) here).2 next]

/-- With nobody named running, a queued task is switched to, or one without a name runs on. -/
theorem Views.pass (injective : Function.Injective place) (idle : c.running = none)
    (state : ∀ p, (n'.tasks (place p)).runState =
      if place p = n'.cur then .running else c.state p)
    (queue : ∀ p, c.queued p = true ↔ place p = n'.cur ∨ some (place p) ∈ n'.rq.runqueue)
    (nodup : (some n'.cur :: n'.rq.runqueue).Nodup) :
    Views place n' c ∨ ∃ q, c.queued q = true ∧ Views place n' (c.enter q) := by
  by_cases named : ∃ q, n'.cur = place q
  · obtain ⟨q, here⟩ := named
    refine .inr ⟨q, (queue q).mpr (.inl here.symm), ?_, ?_, ?_⟩
    · intro p
      rw [enter_running, here, Option.some.injEq, injective.eq_iff]
    · intro p
      rw [state, enter_state, here]
      by_cases same : p = q
      · simp [same]
      · rw [update_of_ne same, if_neg (injective.ne same)]
    · intro p
      rw [enter_queued]
      by_cases same : p = q
      · -- The task that runs is off the queue.
        rw [same, update_self, ← here]
        simpa using (List.nodup_cons.mp nodup).1
      · rw [update_of_ne same, queue p, here]
        simp [injective.ne same]
  · have elsewhere : ∀ p, n'.cur ≠ place p := fun p here => named ⟨p, here⟩
    refine .inl ⟨?_, ?_, ?_⟩
    · intro p
      simp [idle, elsewhere p]
    · intro p
      rw [state, if_neg (elsewhere p).symm]
    · intro p
      rw [queue p]
      simp [(elsewhere p).symm]

/-- `yield` implements giving up the processor, after which any queued task may be switched to. -/
theorem Views.yield {clock : Clock} (views : Views place n c) (settled : Settled place n)
    (injective : Function.Injective place) (yielded : Node.Yielded clock k n n') :
    Views place n' c.vacate ∨ ∃ q, c.vacate.queued q = true ∧
      Views place n' (c.vacate.enter q) := by
  obtain ⟨perm, -⟩ := Node.popped_perm yielded settled.nonNull settled.awake
  refine Views.pass injective (vacate_running c) (fun p => ?_) (fun p => ?_) ?_
  · rw [yielded_state settled yielded, views.vacated_state]
  · rw [views.vacated_queue settled p, ← perm.mem_iff]
    simp
  · refine perm.nodup_iff.mpr ?_
    split
    · exact settled.nodup
    · exact (List.nodup_cons.mp settled.nodup).2

/-- `schedule` implements its abstraction. -/
theorem Views.schedule (views : Views place n c) (injective : Function.Injective place) (q : ι) :
    Views place (n.schedule (place q)) (c.schedule q) where
  running := views.running
  state := by
    intro p
    rw [schedule_state, views.state p]
    by_cases same : p = q
    · simp [Node.schedule, same]
    · simp [Node.schedule, injective.ne same]
  queued := by
    intro p
    rw [(Node.schedule_rq n (place q)).1.mem_iff]
    by_cases same : p = q
    · simp [same]
    · simp [same, injective.ne same, views.queued p]

/-- Setting the run state of a named task. -/
theorem Views.setState (views : Views place n c) (injective : Function.Injective place) (q : ι)
    (state : RunState) :
    Views place (n.modify (place q) (Task.setState state)) (c.setState q state) where
  running := views.running
  state := by
    intro p
    by_cases same : p = q
    · simp [same]
    · simp [same, injective.ne same, views.state p]
  queued := views.queued

/-- `switch_to` implements its abstraction, for a target that was switched away from before. -/
theorem Views.switchTo {now : Int} {p q : ι} (views : Views place n c)
    (injective : Function.Injective place) (here : c.running = some p)
    (resume : ∃ k, (n.tasks (place q)).ctx.resume = .switched k)
    (ok : n.switchTo now (place q) k = .ok n') : Views place n' (c.switchTo p q) := by
  have at_ : n.cur = place p := (views.running p).mp here
  have switched := Node.switchTask_switched ok
  obtain ⟨k', resume⟩ := resume
  have charged := Node.charge_unchanged now n
  have other : place q ≠ n.cur := switched.other
  have apart : q ≠ p := by
    rintro rfl
    exact other at_.symm
  constructor
  · intro b
    rw [switched.cur, switchTo_running, Option.some.injEq, injective.eq_iff]
  · intro b
    rw [switchTo_state]
    by_cases target : b = q
    · rw [target, update_self, switched.entered]
      have loaded : ((n.charge now).tasks (place q)).ctx.resume = .switched k' := by
        rw [(charged (place q)).2, resume]
      exact (congrArg (Resume.runState · _) loaded).symm
    · rw [update_of_ne target]
      by_cases caller : b = p
      · have left := switched.left
        rw [caller, update_self, views.state p, ← at_]
        refine Eq.trans ?_ left.symm
        rw [← (charged n.cur).1]
        rfl
      · rw [update_of_ne caller, views.state b]
        have away : place b ≠ n.cur := fun same => caller (injective (same.trans at_))
        exact ((switched.others (place b) away).2 (injective.ne target)).symm ▸
          (charged (place b)).1.symm
  · intro b
    rw [switchTo_queued, switched.rq]
    exact views.queued b

end Simulation

end Cpu

end Gthread

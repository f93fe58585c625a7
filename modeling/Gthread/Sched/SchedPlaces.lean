import Gthread.Sched.SchedSpared

/-! Where the tasks known to the scheduler are, from step to step, if some of them may sleep. -/

namespace Gthread

open Function (update update_of_ne update_self)

namespace Sys

variable {strict : Prop} {s s' : Sys} {phase : Addr → Phase} {l : Label} {clock : Clock} {p : Pc}
  {b j t host : Addr}

/-- A task that the scheduler knows and that has not ended. -/
structure Known (host : Addr) (s : Sys) (b : Addr) : Prop where
  known : b = host ∨ (s.tasks b).scheduled = true
  going : (s.tasks b).runState ≠ .stopped

/-- A task that the scheduler can find. -/
def Placed (s : Sys) (b : Addr) : Prop := s.Runnable b ∨ s.Joined b

/-- The running task is known. -/
theorem Disciplined.known_cur (d : s.Disciplined host) : s.Known host s.cur := by
  obtain ⟨phase, inv⟩ := d.order
  exact ⟨d.named.scheduled s.cur (.inl rfl), inv.going⟩

/-- What is known of a task that a spawn has just scheduled. -/
structure Published (s s' : Sys) (b : Addr) : Prop where
  builds : ∃ h, s.pc = .started b h
  runnable : s'.Runnable b
  at_ : s'.at_ b = .prologue
  entry : (s'.tasks b).entry = (s.tasks b).entry

/-- The scheduler gets to know a task by queuing it, before it has begun. -/
theorem Disciplined.known_of_step (d : s.Disciplined host) (linear : s.Linear l)
    (ok : s.step l = .ok s') (known : s'.Known host b) :
    s.Known host b ∨ s.Published s' b := by
  obtain ⟨phase, inv⟩ := d.order
  by_cases own : b = s.cur
  · exact .inl (own ▸ d.known_cur)
  obtain ⟨rfl | scheduled, going⟩ := known
  · exact .inl ⟨.inl rfl, d.named.going⟩
  -- A block that is known keeps its state, and others are not known unless they are queued.
  suffices old : ((s.tasks b).scheduled = true ∧
      ((s.tasks b).runState = .stopped → (s'.tasks b).runState = .stopped)) ∨
      s.Known host b ∨ s.Published s' b by
    rcases old with ⟨before, ended⟩ | rest
    · exact .inl ⟨.inr before, fun stopped => going (ended stopped)⟩
    · exact rest
  have same : s'.tasks b = s.tasks b → (s.tasks b).scheduled = true ∧
      ((s.tasks b).runState = .stopped → (s'.tasks b).runState = .stopped) := by
    intro same
    rw [same] at scheduled ⊢
    exact ⟨scheduled, id⟩
  have building : ∀ {t}, phase t = .building s.cur → (s.tasks t).scheduled = false := by
    intro t making
    have kind : (phase t).kind = .building := by rw [making]; rfl
    exact (inv.idle.building t kind).1
  cases stepped_of_ok ok with
  | nothing => exact .inl (same rfl)
  | yields leaves ok =>
    obtain ⟨-, n, rfl, -, yielded⟩ := yieldLocked_ok inv.queues.running ok
    have fields := setFlag_fields true s
    refine .inl ⟨?_, fun ended => ?_⟩
    · rw [← (fields b).2.1, ← (yielded.kept b).scheduled]
      exact scheduled
    · refine (yielded.stopped_iff inv.queues.nonNull inv.queues.awake ?_ b).mpr ?_
      · intro b queued
        rw [(fields b).2.2.1]
        exact queued_going inv b queued
      · exact (fields b).2.2.1.trans ended
  | sleeps => exact linear.elim
  | exits at_ exits =>
    have exited := exit_exited inv at_ exits
    rw [exited.scheduled b, Bool.or_eq_true, decide_eq_true_eq] at scheduled
    rcases scheduled with before | joins
    · exact .inl ⟨before, fun ended => (exited.stopped b).mpr (.inr ended)⟩
    · -- The task that has joined the caller waits for it.
      refine .inr (.inl ⟨d.balanced.joiner inv inv.going joins, ?_⟩)
      have waiting : (s.tasks b).runState = .waiting := (joining_of_joiner inv inv.going joins).1
      simp [waiting]
  | unlocks at_ held => exact .inl (same (by simp [goto, Node.setFlag, own]))
  | @waits h wanted t clock at_ points clear unjoined going =>
    obtain ⟨-, kept, -, state, -⟩ := waitFor_fields h wanted t s b
    rw [if_neg own] at state
    exact .inl ⟨kept.symm.trans scheduled, state.trans⟩
  | @detaches h t clock at_ points clear going =>
    refine .inl ?_
    by_cases target : b = t
    · simpa [settle, write_tasks, target] using scheduled
    · exact same (by simp [settle, write_tasks, target])
  | begins at_ => exact .inl (same (by simp [goto, write_tasks, own]))
  | @finds a entry arg h t rest clock fresh at_ found =>
    by_cases target : b = t
    · simp [goto, number_tasks, target] at scheduled
    · exact .inl (same (by simp [goto, number_tasks, target]))
  | @resets t entry arg h clock fresh at_ =>
    by_cases target : b = t
    · exact absurd (by simp [goto, write_tasks, target, Task.reset]) going
    · exact .inl (same (by simp [goto, write_tasks, target]))
  | @creates a entry arg h clock fresh at_ unmapped =>
    by_cases target : b = fresh
    · simp [goto, number_tasks, write_tasks, target] at scheduled
    · exact .inl (same (by simp [goto, number_tasks, write_tasks, target]))
  | @launches t entry arg h clock fresh at_ stopped other =>
    by_cases target : b = t
    · have never := building (ok_at inv at_).2.1
      simp [goto, write_tasks, target, other, never] at scheduled
    · exact .inl (same (by simp [goto, write_tasks, target, own]))
  | @lands t h clock fresh at_ =>
    have making : phase t = .building s.cur := (ok_at inv at_).2.1
    have away := building_ne_cur inv making
    by_cases target : b = t
    · have never := building making
      rw [switchBack_tasks away, if_neg own, if_pos target] at scheduled
      exact absurd (never.symm.trans scheduled) (by simp)
    · refine .inl (same ?_)
      rw [switchBack_tasks away, if_neg own, if_neg target]
  | @suspends t h clock fresh at_ =>
    by_cases target : b = t
    · have never := building (ok_at inv at_).2.1
      simp [goto, write_tasks, target, never] at scheduled
    · exact .inl (same (by simp [goto, write_tasks, target]))
  | @publishes t h clock fresh at_ clear =>
    by_cases target : b = t
    · have unrun : (s.tasks t).Unrun := by
        have before := d.balanced.making h s.cur (ok_at inv at_).1.1
        rwa [at_cur, at_] at before
      refine .inr (.inr ⟨⟨h, target ▸ at_⟩,
        .inr ((Node.schedule_rq s.toNode t).1.mem_iff.mpr ?_), ?_, ?_⟩)
      · rw [target]
        exact List.mem_cons_self
      · have ctx : ((s.schedule t).tasks b).ctx = (s.tasks t).ctx := by
          simp [schedule_tasks, target]
        show (if b = s.cur then _ else ((s.schedule t).tasks b).ctx.resume.pc.base) = _
        rw [if_neg own, ctx, unrun.resume]
        rfl
      · simp [goto, schedule_tasks, target]
    · exact .inl (same (by simp [goto, schedule_tasks, target]))
  | _ => exact .inl (same rfl)

/-- A task that somebody has joined is in use. -/
theorem active_of_joiner (inv : (s.life phase).Inv strict) (going : (s.tasks t).runState ≠ .stopped)
    (joins : (s.tasks t).joiner = some j) : ∃ holder, phase t = .active holder := by
  rcases live_or_building inv.toCore going with live | building
  · exact live.1
  · rcases (inv.idle.building t building).2 with stopped | unjoined
    · exact absurd stopped going
    · rw [show (s.tasks t).joiner = none from unjoined] at joins
      cases joins

/-- A calm step ends no join. -/
theorem Joined.calm (joined : s.Joined b) (inv : (s.life phase).Inv strict)
    (calm : Calm phase s s') : s'.Joined b := by
  obtain ⟨t, going, joins⟩ := joined
  obtain ⟨holder, active⟩ := active_of_joiner inv going joins
  obtain ⟨stops, keeps, -⟩ := calm t holder active
  exact ⟨t, fun ended => going (stops ended), keeps b joins⟩

/-- Whoever is joined stays so, or is woken by the end of the task that it waits for. -/
theorem Joined.step (joined : s.Joined b) (inv : (s.life phase).Inv False) (linear : s.Linear l)
    (ok : s.step l = .ok s') : s'.Placed b := by
  rcases calm_of_step inv linear ok with calm | ⟨value, clock, rfl⟩
  · exact .inr (joined.calm inv calm)
  · obtain ⟨t, going, joins⟩ := joined
    have at_ : s.pc = .user := by
      by_contra elsewhere
      simp [Sys.step, elsewhere] at ok
    have exits : s.exit value clock = .ok s' := by simpa [Sys.step, at_, call] using ok
    have exited := exit_exited inv at_ exits
    by_cases here : t = s.cur
    · exact .inl (exit_runnable inv at_ exits (.inr (here ▸ joins)))
    · refine .inr ⟨t, fun ended => ?_, (exited.joiner t).trans joins⟩
      exact ((exited.stopped t).mp ended).elim here going

/-- Whoever the scheduler can find, and does not run, can be found after a step. -/
theorem Placed.step (placed : s.Placed b) (inv : (s.life phase).Inv False) (linear : s.Linear l)
    (ok : s.step l = .ok s') (other : b ≠ s.cur) : s'.Placed b := by
  rcases placed with (same | queued) | joined
  · exact absurd same other
  · exact .inl (runnable_of_queued inv linear ok queued)
  · exact joined.step inv linear ok

/-- The running task can be found once it has given up the processor: it runs, begins, or joins. -/
def Returns (s : Sys) : Prop :=
  (s.tasks s.cur).runState = .running ∨ s.pc.base = .prologue ∨ s.Joined s.cur

/-- The running task can be found after its step. -/
theorem Returns.placed (returns : s.Returns) (inv : (s.life phase).Inv False)
    (linear : s.Linear l) (begun : s.Begun l) (ok : s.step l = .ok s')
    (going : (s'.tasks s.cur).runState ≠ .stopped) : s'.Placed s.cur := by
  by_cases same : s'.cur = s.cur
  · exact .inl (.inl same.symm)
  rcases returns with running | prologue | joined
  · cases stepped_of_ok ok with
    | yields leaves ok =>
      obtain ⟨-, n, rfl, -, yielded⟩ := yieldLocked_ok inv.queues.running ok
      refine .inl (yielded.still_runnable inv.queues.nonNull inv.queues.awake (.inl ⟨rfl, ?_⟩))
      exact (setFlag_fields true s s.cur).2.2.1.trans running
    | sleeps => exact linear.elim
    | exits at_ exits =>
      exact absurd (((exit_exited inv at_ exits).stopped s.cur).mpr (.inl rfl)) going
    | _ => exact absurd rfl same
  · -- A prologue is not left, except by a trap.
    cases stepped_of_ok ok with
    | yields leaves ok =>
      obtain ⟨clear, -⟩ := yieldLocked_ok inv.queues.running ok
      cases leaves with
      | trap => exact absurd prologue (begun clear)
      | call at_ | join at_ =>
        rw [at_] at prologue
        cases prologue
    | sleeps => exact linear.elim
    | exits at_ exits =>
      rw [at_] at prologue
      cases prologue
    | _ => exact absurd rfl same
  · exact joined.step inv linear ok

/-- After a step the running task can be found later, or it waits where it has waited before. -/
theorem Disciplined.returns {P : Prop} (d : s.Disciplined host) (linear : s.Linear l)
    (before : s.Returns ∨ (P ∧ (s.tasks s.cur).runState = .waiting)) (ok : s.step l = .ok s') :
    s'.Returns ∨ (P ∧ s'.cur = s.cur ∧ (s'.tasks s.cur).runState = .waiting) := by
  obtain ⟨phase, inv⟩ := d.order
  have entered : ∀ {P : Prop}, (s'.tasks s'.cur).runState = .running ∨ s'.pc.base = .prologue →
      s'.Returns ∨ P := fun goes => .inl (goes.imp_right .inl)
  cases d.paces linear ok with
  | yields ok => exact entered (d.entered_of_yield ok)
  | exits at_ ok => exact entered (d.entered_of_exit at_ ok)
  | joins cur at_ joined => exact .inl (.inr (.inr joined))
  | begins cur running => exact entered (.inl running)
  | stays cur state base =>
    rcases before with (running | prologue | joined) | ⟨sleeps, waiting⟩
    · exact entered (.inl (by rw [cur, state, running]))
    · rcases base with same | ⟨begun, -⟩
      · exact entered (.inr (same.trans prologue))
      · exact absurd prologue begun
    · rcases calm_of_step inv linear ok with calm | ⟨value, clock, rfl⟩
      · exact .inl (.inr (.inr (cur ▸ joined.calm inv calm)))
      · -- A task that has joined another one does not exit.
        obtain ⟨t, going, joins⟩ := joined
        have at_ : s.pc = .user := by
          by_contra elsewhere
          simp [Sys.step, elsewhere] at ok
        obtain ⟨-, -, -, h, wanted, inside, -⟩ := joining_of_joiner inv going joins
        have here : s.at_ s.cur = .user := by
          rw [at_cur, at_]
          rfl
        rcases inside with yielding | ⟨-, away⟩
        · exact absurd (yielding.symm.trans here) (by simp)
        · exact absurd rfl away
    · exact .inr ⟨sleeps, cur, state.trans waiting⟩

end Sys

end Gthread

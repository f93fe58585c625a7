import Gthread.Sched.SchedLife

/-! Every step of the system keeps its blocks in order. -/

namespace Gthread

open Function (update update_of_ne update_self)

namespace Sys

variable {strict : Prop} {s s' : Sys} {phase : Addr → Phase} {p : Pc} {h : HandleId} {t : Addr}

/-- A system in order: some phases of its blocks satisfy the invariant. -/
def InOrder (strict : Prop) (s : Sys) : Prop := ∃ phase, (s.life phase).Inv strict

/-- Where the running task is. -/
theorem life_at_cur (phase : Addr → Phase) (s : Sys) : (s.life phase).at_ s.cur = s.pc.base := by
  simp

/-- The preempt flag is no part of a block's life cycle. -/
theorem life_setFlag (flag : Bool) (phase : Addr → Phase) (s : Sys) :
    { s with toNode := s.setFlag flag }.life phase = s.life phase := by
  refine (life_write s.cur (fun t => { t with noPreemptFlag := flag }) phase s rfl).trans ?_
  apply Life.ext
  all_goals first | rfl | exact Function.update_eq_self s.cur _

/-- A held lock was free before. -/
theorem lock_ok {κ : Type} {n n' : Node κ} (locked : n.lock = .ok n') :
    n.flag = false ∧ n' = n.setFlag true := by
  unfold Node.lock at locked
  split at locked
  · cases locked
  · rename_i clear
    simp only [Except.ok.injEq] at locked
    exact ⟨by simpa using clear, locked.symm⟩

/-- Giving up the processor keeps a system in order. -/
theorem inOrder_yielded {clock : Clock} {n : Node Pc} (inv : (s.life phase).Inv strict)
    (yielded : Node.Yielded clock (.unlock p) s.toNode n)
    (own : (s.life phase).Ok s.cur p.base) (works : p.base.handle = s.pc.base.handle)
    (stack : p.base.stack s.cur = s.pc.base.stack s.cur)
    (joins : ∀ h wanted, s.pc.base = .joinYield h wanted →
      p.base = .joinYield h wanted ∨ p.base = .take h wanted)
    (starts : ∀ t h, p.base = .startOnNew t h → s.pc.base = .startOnNew t h)
    (begun : strict → s.pc.base ≠ .prologue) : { s with toNode := n }.InOrder strict := by
  obtain ⟨a, phase', flush, -, switch⟩ :=
    life_yielded yielded inv.queues.nonNull inv.queues.awake phase
  have at_ := life_at_cur phase s
  refine ⟨phase', inv.toCore.yield (fun d => inv.off_deferred) flush switch (fun _ => own)
    ?_ ?_ ?_ ?_ ?_⟩
  · exact works.trans (congrArg Pc.handle at_).symm
  · intro _
    exact (inv.stack_cur at_).trans stack.symm
  · intro h wanted here
    exact joins h wanted (at_.symm.trans here)
  · intro t h here
    exact inv.saved t h (at_.trans (starts t h here))
  · refine inv.leaving fun strictly => ?_
    exact fun first => begun strictly (at_.symm.trans first)

/-- The same, from the call under `preempt_mutex`. -/
theorem inOrder_yieldLocked {clock : Clock} (inv : (s.life phase).Inv strict)
    (ok : s.yieldLocked clock p = .ok s') (own : (s.life phase).Ok s.cur p.base)
    (works : p.base.handle = s.pc.base.handle)
    (stack : p.base.stack s.cur = s.pc.base.stack s.cur)
    (joins : ∀ h wanted, s.pc.base = .joinYield h wanted →
      p.base = .joinYield h wanted ∨ p.base = .take h wanted)
    (starts : ∀ t h, p.base = .startOnNew t h → s.pc.base = .startOnNew t h)
    (begun : strict → s.pc.base ≠ .prologue) : s'.InOrder strict := by
  cases locked : s.lock with
  | error fault => simp [yieldLocked, locked, Bind.bind, Except.bind] at ok
  | ok n =>
    obtain ⟨-, rfl⟩ := lock_ok locked
    cases done : (s.setFlag true).yield clock (.unlock p) with
    | error fault => simp [yieldLocked, locked, done, Bind.bind, Except.bind] at ok
    | ok n =>
      simp only [yieldLocked, locked, done, Bind.bind, Except.bind, pure, Except.pure,
        Except.ok.injEq] at ok
      subst ok
      have flagged := life_setFlag true phase s
      have running : (s.setFlag true).running = true := inv.queues.running
      exact inOrder_yielded (s := { s with toNode := s.setFlag true }) (flagged ▸ inv)
        (Node.yield_yielded running done) (flagged ▸ own) works stack joins starts begun

/-- The timer trap keeps a system in order, and loses nothing unless it hits a prologue. -/
theorem inOrder_trap {clock : Clock} (order : s.InOrder strict) (ok : s.trap clock = .ok s')
    (begun : strict → s.flag = false → s.pc.base ≠ .prologue) : s'.InOrder strict := by
  obtain ⟨phase, inv⟩ := order
  unfold trap at ok
  split at ok
  · simp only [Except.ok.injEq] at ok
    exact ok ▸ ⟨phase, inv⟩
  · rename_i unset
    have clear : s.flag = false := by simpa using unset
    have own : (s.life phase).Ok s.cur s.pc.base := life_at_cur phase s ▸ inv.ok_cur
    exact inOrder_yieldLocked inv ok own rfl rfl (fun _ _ here => .inl here) (fun _ _ here => here)
      fun strictly => begun strictly clear

/-- A spawn that begins reserves its handle. -/
theorem inOrder_spawn {a : Attr} {entry : Option Nat} {arg : Nat} (order : s.InOrder strict)
    (at_ : s.pc = .user) (free : s.busy h = none) (ok : s.spawn a entry arg h = .ok s') :
    s'.InOrder strict := by
  obtain ⟨phase, inv⟩ := order
  have here : (s.life phase).at_ s.cur = .user := by rw [life_at_cur, at_]; rfl
  unfold spawn at ok
  split at ok
  · simp only [Except.ok.injEq] at ok
    exact ok ▸ ⟨phase, inv⟩
  · split at ok
    · cases ok
    · simp only [Except.ok.injEq] at ok
      refine ok ▸ ⟨phase, ?_⟩
      rw [life_goto, life_reserve]
      exact inv.reserve here free (by simp [Pc.base]) rfl
        ⟨update_self .., fun t points => inv.free h t free points⟩

/-- A join that begins waits for a task, or is about to take its result. -/
theorem inOrder_join {wanted : Bool} (order : s.InOrder strict) (at_ : s.pc = .user)
    (free : s.busy h = none ∨ ∃ t, s.handles h = some t ∧ (s.tasks t).joiner ≠ none)
    (ok : s.join h wanted = .ok s') : s'.InOrder strict := by
  obtain ⟨phase, inv⟩ := order
  have here : (s.life phase).at_ s.cur = .user := by rw [life_at_cur, at_]; rfl
  unfold join at ok
  split at ok
  · simp only [Except.ok.injEq] at ok
    exact ok ▸ ⟨phase, inv⟩
  · rename_i t points
    split at ok
    · cases ok
    split at ok
    · simp only [Except.ok.injEq] at ok
      exact ok ▸ ⟨phase, inv⟩
    · rename_i unjoined
      have unjoined : (s.tasks t).joiner = none := by simpa using unjoined
      have free : s.busy h = none := by
        rcases free with free | ⟨t', points', joined⟩
        · exact free
        · rw [points, Option.some.injEq] at points'
          exact absurd (points' ▸ unjoined) joined
      split at ok
      · rename_i going
        simp only [Except.ok.injEq] at ok
        refine ok ▸ ⟨phase, ?_⟩
        rw [life_goto, life_reserve, life_setState, life_writeJoiner]
        exact inv.wait wanted here free points going unjoined
      · simp only [Except.ok.injEq] at ok
        refine ok ▸ ⟨phase, ?_⟩
        rw [life_goto, life_reserve]
        have refers := inv.free h t free points
        exact inv.reserve here free (by simp [Pc.base]) rfl ⟨by simp [Pc.base], t, refers⟩

/-- A detach that begins detaches a running task, or is about to return a finished one. -/
theorem inOrder_detach (order : s.InOrder strict) (at_ : s.pc = .user) (free : s.busy h = none)
    (ok : s.detach h = .ok s') : s'.InOrder strict := by
  obtain ⟨phase, inv⟩ := order
  have here : (s.life phase).at_ s.cur = .user := by rw [life_at_cur, at_]; rfl
  unfold detach at ok
  split at ok
  · simp only [Except.ok.injEq] at ok
    exact ok ▸ ⟨phase, inv⟩
  · rename_i t points
    split at ok
    · cases ok
    split at ok
    · rename_i going
      simp only [Except.ok.injEq] at ok
      refine ok ▸ ⟨update phase t (.active none), ?_⟩
      rw [life_settle, life_writeDetached]
      exact inv.detach here free points going
    · simp only [Except.ok.injEq] at ok
      refine ok ▸ ⟨phase, ?_⟩
      rw [life_goto, life_reserve]
      have refers := inv.free h t free points
      exact inv.reserve here free (by simp [Pc.base]) rfl ⟨by simp [Pc.base], t, refers⟩

/-- The running task stops. -/
theorem life_halt (value : Nat) (phase : Addr → Phase) (s : Sys) :
    (s.write s.cur fun b => { b with returnValue := value, runState := .stopped }).life phase =
      (s.life phase).setState s.cur .stopped := by
  rw [life_write _ _ _ _ rfl]
  apply Life.ext
  all_goals first | rfl | exact Function.update_eq_self s.cur _

/-- Stopping the running task, as seen by the blocks. -/
theorem life_finish (value : Nat) (phase : Addr → Phase) (s : Sys) :
    ∃ rq, Life.Woken rq (s.life phase) ∧
      { s with toNode := s.finish value }.life phase = (s.life phase).stop rq := by
  have same : (s.life phase).joiner (s.life phase).cur = (s.tasks s.cur).joiner := rfl
  let halted := s.write s.cur fun b => { b with returnValue := value, runState := .stopped }
  cases waits : (s.tasks s.cur).joiner with
  | none =>
    rw [Node.finish_alone waits]
    refine ⟨s.rq, ⟨rfl, ?_⟩, (life_halt value phase s).trans ?_⟩
    · rw [same, waits]
      exact .refl _
    · apply Life.ext
      case scheduled =>
        funext b
        simp [waits]
      all_goals rfl
  | some j =>
    rw [Node.finish_joined waits]
    obtain ⟨perm, asleep⟩ := Node.schedule_rq halted.toNode j
    refine ⟨(halted.schedule j).rq, ⟨asleep, ?_⟩, (life_schedule j phase halted).trans ?_⟩
    · rw [same, waits]
      exact perm
    · have life := life_halt value phase s
      rw [life]
      apply Life.ext
      case scheduled =>
        funext b
        simp only [Life.stop_scheduled, same, waits]
        rfl
      all_goals rfl

/-- A task that exits leaves the system in order. -/
theorem inOrder_exit {value : Nat} {clock : Clock} (order : s.InOrder strict) (at_ : s.pc = .user)
    (ok : s.exit value clock = .ok s') : s'.InOrder strict := by
  obtain ⟨phase, inv⟩ := order
  have here : (s.life phase).at_ s.cur = .user := by rw [life_at_cur, at_]; rfl
  unfold exit at ok
  split at ok
  · cases ok
  cases locked : s.lock with
  | error fault => simp [locked, Bind.bind, Except.bind] at ok
  | ok n =>
    obtain ⟨-, rfl⟩ := lock_ok locked
    cases done : ((s.setFlag true).finish value).yield clock (.unlock .exited) with
    | error fault => simp [locked, done, Bind.bind, Except.bind] at ok
    | ok n =>
      simp only [locked, done, Bind.bind, Except.bind, pure, Except.pure, Except.ok.injEq] at ok
      obtain ⟨rq, woken, life⟩ := life_finish value phase { s with toNode := s.setFlag true }
      rw [life_setFlag] at woken life
      obtain ⟨core, leaving⟩ := inv.stop here woken
      rw [← life] at core leaving
      have yielded :=
        Node.yield_yielded (n := (s.setFlag true).finish value) core.queues.running done
      obtain ⟨a, phase', flush, -, switch⟩ :=
        life_yielded (s := { s with toNode := (s.setFlag true).finish value }) yielded
          core.queues.nonNull core.queues.awake phase
      -- The task that leaves has stopped, so nothing is asked of where it would go on.
      have stopped : ¬ (({ s with toNode := (s.setFlag true).finish value } : Sys).life phase).Live
          s.cur := by
        rw [life]
        simp [Life.Live]
      have stack : (({ s with toNode := (s.setFlag true).finish value } : Sys).life phase).stackOf
          s.cur = s.cur := by
        rw [life]
        exact inv.stack_cur here
      have user : (({ s with toNode := (s.setFlag true).finish value } : Sys).life phase).at_
          s.cur = .user := by
        rw [life]
        exact here
      obtain ⟨holder, active⟩ : ∃ holder, phase s.cur = .active holder := inv.active
      have cur : (({ s with toNode := (s.setFlag true).finish value } : Sys).life phase).cur =
          s.cur := by
        rw [life]
        rfl
      subst ok
      refine ⟨phase', core.yield ?_ flush switch ?_ ?_ ?_ ?_ ?_ leaving⟩
      · intro d deferred
        rw [cur, stack]
        rintro rfl
        rw [show phase s.cur = .deferred from deferred] at active
        cases active
      · rw [cur]
        exact fun going => absurd going stopped
      · rw [cur, user]
        rfl
      · rw [cur]
        exact fun going => absurd going stopped
      · rw [cur, user]
        simp
      · simp [Pc.base]

/-- An assignment of an empty handle, or of a handle to itself, keeps a system in order. -/
theorem inOrder_assign {dst src : HandleId} (order : s.InOrder strict) (at_ : s.pc = .user)
    (empty : dst = src ∨ (s.busy dst = none ∧ s.handles src = none)) :
    InOrder strict { s with
      handles := update s.handles dst (s.handles src)
      owner := update s.owner dst (s.owner src) } := by
  obtain ⟨phase, inv⟩ := order
  have here : (s.life phase).at_ s.cur = .user := by rw [life_at_cur, at_]; rfl
  rcases empty with rfl | ⟨free, empty⟩
  · rw [Function.update_eq_self, Function.update_eq_self]
    exact ⟨phase, inv⟩
  · rw [empty]
    exact ⟨phase, inv.overwrite here free (s.owner src)⟩

/-- Leaving a critical section. -/
theorem inOrder_unlock {n : Node Pc} (order : s.InOrder strict) (at_ : s.pc = .unlock p)
    (ok : s.unlock = .ok n) : ({ s with toNode := n }.goto p).InOrder strict := by
  obtain ⟨phase, inv⟩ := order
  have clear : n = s.setFlag false := by
    unfold Node.unlock at ok
    split at ok
    · simpa using ok.symm
    · cases ok
  refine ⟨phase, ?_⟩
  rw [life_goto, clear, life_setFlag]
  -- The task was at the same statement of its call before.
  have same : (s.life phase).goto p.base = s.life phase := by
    have at_ : p.base = (s.life phase).at_ s.cur := by rw [life_at_cur, at_]; rfl
    rw [at_]
    apply Life.ext
    case at_ => exact Function.update_eq_self s.cur _
    all_goals rfl
  rw [same]
  exact inv

/-- `make_task` inside its lock keeps a system in order. -/
theorem inOrder_makeLocked {a : Attr} {entry arg : Nat} (order : s.InOrder strict)
    (at_ : s.pc = .makeLocked a entry arg h) : (s.makeLocked a entry arg h).InOrder strict := by
  obtain ⟨phase, inv⟩ := order
  have here : (s.life phase).at_ s.cur = .makeLocked a entry arg h := by rw [life_at_cur, at_]; rfl
  unfold makeLocked
  split
  · rename_i t rest found
    refine ⟨update phase t (.building s.cur), ?_⟩
    rw [life_goto]
    exact (life_number t phase { s with pool := rest, mu := none }) ▸
      inv.takePooled here (Node.findTask_perm found)
  · refine ⟨phase, ?_⟩
    rw [life_goto]
    have own : (s.life phase).Ok s.cur (.makeLocked a entry arg h) := here ▸ inv.ok_cur
    refine inv.goto ?_ ?_ ?_ ?_ ?_ own
    all_goals simp [at_, Pc.base, Pc.handle]

/-- Creating a block keeps a system in order. -/
theorem inOrder_create {a : Attr} {entry arg : Nat} {fresh : Addr} (order : s.InOrder strict)
    (at_ : s.pc = .makeCreate a entry arg h) (ok : s.create fresh a entry arg h = .ok s') :
    s'.InOrder strict := by
  obtain ⟨phase, inv⟩ := order
  have here : (s.life phase).at_ s.cur = .makeCreate a entry arg h := by rw [life_at_cur, at_]; rfl
  unfold create at ok
  split at ok
  · cases ok
  rename_i allocates
  have unmapped : s.mapped fresh = false := by simpa using (not_or.mp allocates).2
  have other : fresh ≠ s.cur := by
    rintro rfl
    obtain ⟨holder, active⟩ : ∃ holder, phase s.cur = .active holder := inv.active
    rw [show phase s.cur = .unmapped from (inv.places.absent s.cur).mp unmapped] at active
    cases active
  simp only [Except.ok.injEq] at ok
  refine ok ▸ ⟨update phase fresh (.building s.cur), ?_⟩
  rw [life_goto]
  have created := inv.create here unmapped
  have built := life_construct (totalStackSize a) a.allocTls phase s other
  refine Eq.mpr (congrArg (fun a => (Life.goto (.made fresh entry arg h) a).Inv strict) ?_) created
  refine (life_number fresh phase
    { s.write fresh fun _ => Task.construct .zero (totalStackSize a) a.allocTls with
      mapped := update s.mapped fresh true }).trans ?_
  rw [built]
  apply Life.ext
  case spawn => exact Function.update_idem _ _ _
  case scheduled => exact Function.update_idem _ _ _
  all_goals rfl

/-- The jump onto a new block's stack keeps a system in order. -/
theorem inOrder_startTask {entry arg : Nat} (order : s.InOrder strict)
    (at_ : s.pc = .made t entry arg h) (ok : s.startTask t entry arg h = .ok s') :
    s'.InOrder strict := by
  obtain ⟨phase, inv⟩ := order
  have here : (s.life phase).at_ s.cur = .made t entry arg h := by rw [life_at_cur, at_]; rfl
  unfold startTask at ok
  dsimp only at ok
  split at ok
  · cases ok
  split at ok
  · cases ok
  simp only [Except.ok.injEq] at ok
  refine ok ▸ ⟨phase, ?_⟩
  rw [life_goto]
  have launched := life_launch t h phase
    (s.write t fun b => { b with entry := some entry, arg := arg })
  rw [life_entry] at launched
  exact launched ▸ inv.launch here

/-- The switch back to the spawner keeps a system in order. -/
theorem inOrder_switchBack (order : s.InOrder strict) (at_ : s.pc = .startOnNew t h) :
    (s.switchBack t).InOrder strict := by
  obtain ⟨phase, inv⟩ := order
  have here : (s.life phase).at_ s.cur = .startOnNew t h := by rw [life_at_cur, at_]; rfl
  have own : (s.life phase).Ok s.cur (.startOnNew t h) := here ▸ inv.ok_cur
  have stack : s.stack = t := by
    simpa [Pc.stack] using inv.stack_cur here
  have other : t ≠ s.cur := by
    rintro rfl
    obtain ⟨holder, active⟩ : ∃ holder, phase s.cur = .active holder := inv.active
    rw [show phase s.cur = .building s.cur from own.2.1] at active
    cases active
  refine ⟨phase, ?_⟩
  rw [life_land phase s other stack]
  exact inv.land here

/-- Scheduling a new task keeps a system in order. -/
theorem inOrder_scheduleNew (order : s.InOrder strict) (at_ : s.pc = .started t h)
    (ok : s.scheduleNew t h = .ok s') : s'.InOrder strict := by
  obtain ⟨phase, inv⟩ := order
  have here : (s.life phase).at_ s.cur = .started t h := by rw [life_at_cur, at_]; rfl
  unfold scheduleNew at ok
  split at ok
  · cases ok
  simp only [Except.ok.injEq] at ok
  refine ok ▸ ⟨update phase t (.active (some (.spawner s.cur))), ?_⟩
  obtain ⟨pushed, asleep⟩ := Node.schedule_rq s.toNode t
  rw [life_goto, life_schedule]
  exact inv.publish here pushed asleep

/-- The end of a spawn keeps a system in order. -/
theorem inOrder_giveHandle (order : s.InOrder strict) (at_ : s.pc = .spawned t h) :
    (s.giveHandle t h).InOrder strict := by
  obtain ⟨phase, inv⟩ := order
  have here : (s.life phase).at_ s.cur = .spawned t h := by rw [life_at_cur, at_]; rfl
  refine ⟨update phase t (.active (some (.handle h))), ?_⟩
  unfold giveHandle
  rw [life_goto]
  exact inv.give here

/-- Taking a finished task's result keeps a system in order. -/
theorem inOrder_takeResult {wanted : Bool} (order : s.InOrder strict)
    (at_ : s.pc = .take h wanted) (ok : s.takeResult h wanted = .ok s') : s'.InOrder strict := by
  obtain ⟨phase, inv⟩ := order
  have here : (s.life phase).at_ s.cur = .take h wanted := by rw [life_at_cur, at_]; rfl
  unfold takeResult at ok
  split at ok
  · cases ok
  rename_i t points
  split at ok
  · cases ok
  rename_i stopped
  simp only [Except.ok.injEq] at ok
  refine ok ▸ ⟨phase, ?_⟩
  rw [life_goto]
  obtain ⟨busy, t', refers⟩ : (s.life phase).Ok s.cur (.take h wanted) := here ▸ inv.ok_cur
  obtain rfl : t = t' := by simpa [points] using refers.1
  refine inv.goto ?_ ?_ ?_ ?_ ?_ ⟨busy, t, refers, by simpa using stopped⟩
  all_goals simp [at_, Pc.base, Pc.handle]

/-- The call of `return_task` keeps a system in order. -/
theorem inOrder_callReturn (order : s.InOrder strict) (at_ : s.pc = .returning h)
    (ok : s.callReturn h = .ok s') : s'.InOrder strict := by
  obtain ⟨phase, inv⟩ := order
  have here : (s.life phase).at_ s.cur = .returning h := by rw [life_at_cur, at_]; rfl
  unfold callReturn at ok
  split at ok
  · cases ok
  rename_i t points
  split at ok
  · cases ok
  simp only [Except.ok.injEq] at ok
  refine ok ▸ ⟨update phase t (.returning s.cur), ?_⟩
  rw [life_goto]
  have recorded : (s.life phase).record t =
      { s with toNode := { s.recordReturn t with mu := some s.cur } }.life phase := by
    apply Life.ext
    case returned => simp [Node.recordReturn]
    all_goals rfl
  have returning := inv.callReturn here points
  rw [recorded] at returning
  exact returning

/-- The body of `return_task` keeps a system in order. -/
theorem inOrder_returnLocked (order : s.InOrder strict) (at_ : s.pc = .returnLocked t h) :
    (s.returnLocked t h).InOrder strict := by
  obtain ⟨phase, inv⟩ := order
  have here : (s.life phase).at_ s.cur = .returnLocked t h := by rw [life_at_cur, at_]; rfl
  have own : (s.life phase).Ok s.cur (.returnLocked t h) := here ▸ inv.ok_cur
  unfold returnLocked
  split
  · refine ⟨update phase t .pooled, ?_⟩
    rw [life_goto]
    have inserted := Node.insertTask_perm s.tasks t s.pool
    have hidden : Life.placed (phase t) = false := by
      rw [show phase t = .returning s.cur from own.2.1]
      rfl
    exact inv.putAway (.inl here) rfl (inv.places.insert hidden inserted)
  · refine ⟨phase, ?_⟩
    rw [life_goto]
    refine inv.goto ?_ ?_ ?_ ?_ ?_ own
    all_goals simp [at_, Pc.base, Pc.handle]

/-- Destroying a block keeps a system in order. -/
theorem inOrder_returnDestroy (order : s.InOrder strict) (at_ : s.pc = .returnDestroy t h) :
    ({ s with toNode := s.destroy t }.goto (.clearHandle h)).InOrder strict := by
  obtain ⟨phase, inv⟩ := order
  have here : (s.life phase).at_ s.cur = .returnDestroy t h := by rw [life_at_cur, at_]; rfl
  have own : (s.life phase).Ok s.cur (.returnDestroy t h) := here ▸ inv.ok_cur
  refine ⟨update phase t .unmapped, ?_⟩
  rw [life_goto]
  have hidden : Life.placed (phase t) = false := by
    rw [show phase t = .returning s.cur from own.2.1]
    rfl
  exact inv.putAway (.inr here) rfl (inv.places.unmap hidden)

/-- The statement at hand keeps a system in order. -/
theorem inOrder_run {clock : Clock} {fresh : Addr} (order : s.InOrder strict)
    (ok : s.run clock fresh = .ok s') : s'.InOrder strict := by
  obtain ⟨phase, inv⟩ := order
  have here := life_at_cur phase s
  have own : (s.life phase).Ok s.cur s.pc.base := here ▸ inv.ok_cur
  cases at_ : s.pc with
  | zero => simp [run, at_] at ok
  | user => simp [run, at_] at ok
  | unlock p =>
    cases done : s.unlock with
    | error fault => simp [run, at_, done, Bind.bind, Except.bind] at ok
    | ok n =>
      simp only [run, at_, done, Bind.bind, Except.bind, pure, Except.pure, Except.ok.injEq] at ok
      exact ok ▸ inOrder_unlock ⟨phase, inv⟩ at_ done
  | prologue =>
    simp only [run, at_, Except.ok.injEq] at ok
    refine ok ▸ ⟨phase, ?_⟩
    rw [life_goto, life_setState]
    exact inv.begin (here.trans (by rw [at_]; rfl))
  | makeLocked a entry arg h =>
    simp only [run, at_, Except.ok.injEq] at ok
    exact ok ▸ inOrder_makeLocked ⟨phase, inv⟩ at_
  | makeFound t entry arg h =>
    simp only [run, at_, Except.ok.injEq] at ok
    refine ok ▸ ⟨phase, ?_⟩
    rw [life_goto, life_reset]
    exact inv.reset (here.trans (by rw [at_]; rfl))
  | makeCreate a entry arg h =>
    simp only [run, at_] at ok
    exact inOrder_create ⟨phase, inv⟩ at_ ok
  | made t entry arg h =>
    simp only [run, at_] at ok
    exact inOrder_startTask ⟨phase, inv⟩ at_ ok
  | startOnNew t h =>
    simp only [run, at_, Except.ok.injEq] at ok
    exact ok ▸ inOrder_switchBack ⟨phase, inv⟩ at_
  | startBack t h =>
    simp only [run, at_, Except.ok.injEq] at ok
    refine ok ▸ ⟨phase, ?_⟩
    rw [life_goto, life_setState]
    exact inv.suspend (here.trans (by rw [at_]; rfl))
  | started t h =>
    simp only [run, at_] at ok
    exact inOrder_scheduleNew ⟨phase, inv⟩ at_ ok
  | spawned t h =>
    simp only [run, at_, Except.ok.injEq] at ok
    exact ok ▸ inOrder_giveHandle ⟨phase, inv⟩ at_
  | joinYield h wanted =>
    simp only [run, at_] at ok
    rw [at_] at own
    refine inOrder_yieldLocked inv ok own ?_ ?_ ?_ ?_ ?_
    all_goals simp [at_, Pc.base, Pc.stack, Pc.handle]
  | take h wanted =>
    simp only [run, at_] at ok
    exact inOrder_takeResult ⟨phase, inv⟩ at_ ok
  | returning h =>
    simp only [run, at_] at ok
    exact inOrder_callReturn ⟨phase, inv⟩ at_ ok
  | returnLocked t h =>
    simp only [run, at_, Except.ok.injEq] at ok
    exact ok ▸ inOrder_returnLocked ⟨phase, inv⟩ at_
  | returnDestroy t h =>
    simp only [run, at_, Except.ok.injEq] at ok
    exact ok ▸ inOrder_returnDestroy ⟨phase, inv⟩ at_
  | clearHandle h =>
    simp only [run, at_, Except.ok.injEq] at ok
    refine ok ▸ ⟨phase, ?_⟩
    rw [life_goto, life_settle]
    exact inv.clear (here.trans (by rw [at_]; rfl))
  | exited => simp [run, at_] at ok

end Sys

end Gthread

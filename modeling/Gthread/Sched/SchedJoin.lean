import Gthread.Sched.SchedOutcome

/-! The join protocol: who is woken and when, and whose result a join reports. -/

namespace Gthread

open Function (update update_of_ne update_self)

/-- A `join` that is not past its assertion, or a `detach` of a stopped task. -/
def Pc.joins : Pc → Bool
  | .joinYield _ _ | .take _ _ => true
  | _ => false

/-- The statements after that assertion. -/
def Pc.past : Pc → Bool
  | .returning _ | .returnLocked _ _ | .returnDestroy _ _ | .clearHandle _ => true
  | _ => false

namespace Sys

variable {strict : Prop} {s s' : Sys} {phase : Addr → Phase} {l : Label} {clock : Clock} {p : Pc}
  {t host : Addr} {h : HandleId} {tick : Int} {maxSize : Nat}

/-- A task that waits for another: it was told of that task's end, or will be. -/
def Told (s : Sys) (o t : Addr) : Prop :=
  ((s.tasks t).runState = .stopped → s.Runnable o) ∧
    ((s.tasks t).runState ≠ .stopped → (s.tasks t).joiner = some o)

/-- What a call at work on a handle relies on, from the statement it is at. -/
def Owes (s : Sys) (h : HandleId) (o : Addr) : Pc → Prop
  | .made t _ _ _ | .startOnNew t _ => (s.tasks t).noPreemptFlag = false
  | .startBack t _ | .started t _ => (s.tasks t).noPreemptFlag = false ∧
      (s.tasks t).ctx.resume = .plain .prologue
  | .spawned t _ => (s.tasks t).scheduled = true
  | .joinYield _ _ | .take _ _ => ∀ t, s.handles h = some t → s.Told o t
  | .returning _ | .returnLocked _ _ | .returnDestroy _ _ | .clearHandle _ =>
      s.owner h ∈ s.exits.map Prod.fst
  | _ => True

/-- Every call at work on a handle has what it relies on. -/
def Calls (s : Sys) : Prop := ∀ h o, s.busy h = some o → s.Owes h o (s.at_ o)

/-- What a task relies on depends on the blocks it has to itself, and on its target. -/
theorem Owes.keep {o : Addr} (owes : s.Owes h o p) (ok : (s.life phase).Ok o p)
    (handle : p.handle = some h)
    (handles : s'.handles h = s.handles h) (owner : s'.owner h = s.owner h)
    (exits : ∀ m ∈ s.exits.map Prod.fst, m ∈ s'.exits.map Prod.fst)
    (making : ∀ t, phase t = .building o →
      (s'.tasks t).noPreemptFlag = (s.tasks t).noPreemptFlag ∧ (s'.tasks t).ctx = (s.tasks t).ctx)
    (serving : ∀ t, phase t = .active (some (.spawner o)) → (s.tasks t).scheduled = true →
      (s'.tasks t).scheduled = true)
    (target : ∀ t, phase t = .active (some (.handle h)) → s.handles h = some t → s.Told o t →
      s'.Told o t) : s'.Owes h o p := by
  -- The task of a handle is held by that handle.
  have held : ∀ t, (∃ u, (s.life phase).Refers h u) → s.handles h = some t →
      phase t = .active (some (.handle h)) := by
    rintro t ⟨u, points, active, -⟩ same
    have equal : u = t := Option.some.inj (points.symm.trans same)
    exact equal ▸ active
  have ended : s.owner h ∈ s.exits.map Prod.fst → s'.owner h ∈ s'.exits.map Prod.fst := by
    intro before
    rw [owner]
    exact exits _ before
  cases p with
  | made t entry arg h' =>
    have same := making t ok.2.1
    exact same.1.trans owes
  | startOnNew t h' =>
    have same := making t ok.2.1
    exact same.1.trans owes
  | startBack t h' =>
    have same := making t ok.2.1
    exact ⟨same.1.trans owes.1, same.2 ▸ owes.2⟩
  | started t h' =>
    have same := making t ok.2.1
    exact ⟨same.1.trans owes.1, same.2 ▸ owes.2⟩
  | spawned t h' => exact serving t ok.2 owes
  | joinYield h' wanted =>
    cases handle
    intro t points
    rw [handles] at points
    exact target t (held t ok.2 points) points (owes t points)
  | take h' wanted =>
    cases handle
    intro t points
    rw [handles] at points
    exact target t (held t ok.2 points) points (owes t points)
  | returning h' => exact ended owes
  | returnLocked t h' => exact ended owes
  | returnDestroy t h' => exact ended owes
  | clearHandle h' => exact ended owes
  | _ => trivial

/-- A step leaves the calls of other tasks what they rely on. -/
theorem Calls.keep (calls : s.Calls) (inv : (s.life phase).Inv strict)
    (busy : ∀ h o, s'.busy h = some o → o ≠ s.cur →
      s.busy h = some o ∧ s'.handles h = s.handles h ∧ s'.owner h = s.owner h)
    (exits : ∀ m ∈ s.exits.map Prod.fst, m ∈ s'.exits.map Prod.fst)
    (stays : ∀ o, o ≠ s.cur → (s.life phase).Live o → s'.at_ o = s.at_ o)
    (making : ∀ t o, phase t = .building o → o ≠ s.cur →
      (s'.tasks t).noPreemptFlag = (s.tasks t).noPreemptFlag ∧ (s'.tasks t).ctx = (s.tasks t).ctx)
    (serving : ∀ t holder, phase t = .active holder → (s.tasks t).scheduled = true →
      (s'.tasks t).scheduled = true)
    (target : ∀ h o t, s.busy h = some o → o ≠ s.cur → phase t = .active (some (.handle h)) →
      s.handles h = some t → s.Told o t → s'.Told o t)
    (own : ∀ h, s'.busy h = some s.cur → s'.Owes h s.cur (s'.at_ s.cur)) : s'.Calls := by
  intro h o works
  by_cases here : o = s.cur
  · subst here
    exact own h works
  · obtain ⟨before, handles, owner⟩ := busy h o works here
    obtain ⟨live, handle⟩ := inv.busy h o before
    have own : (s.life phase).Ok o (s.at_ o) := inv.calls o live
    rw [stays o here live]
    refine Owes.keep (calls h o before) own handle handles owner exits
      (fun t building => making t o building here)
      (fun t active => serving t _ active)
      (fun t active points => target h o t before here active points)

/-- How the tasks that do not run were left, and how the one that runs came back. -/
structure Rests (host : Addr) (s : Sys) : Prop where
  own : s.flag = true → ∃ p, s.pc = .unlock p
  current : (s.tasks s.cur).runState = .running ∨ s.pc.base = .prologue ∨
    ∃ t, (s.tasks t).runState ≠ .stopped ∧ (s.tasks t).joiner = some s.cur
  away : ∀ b, b ≠ s.cur → (b = host ∨ (s.tasks b).scheduled = true) →
    (∃ p, (s.tasks b).ctx.resume = .switched (.unlock p)) ∨
      ((s.tasks b).ctx.resume = .plain .prologue ∧ (s.tasks b).noPreemptFlag = false)
  joiners : ∀ t j, (s.tasks t).runState ≠ .stopped → (s.tasks t).joiner = some j →
    j = host ∨ (s.tasks j).scheduled = true

/-- Outside the ends of critical sections the flag is clear. -/
theorem Rests.clear (rests : s.Rests host) (at_ : s.pc = p) (plain : ∀ q, p ≠ .unlock q) :
    s.flag = false := by
  cases flag : s.flag with
  | false => rfl
  | true =>
    obtain ⟨q, same⟩ := rests.own flag
    exact absurd (at_.symm.trans same) (plain q)

/-- A task that is not about to yield in a join, and has begun, is running. -/
theorem Rests.running (rests : s.Rests host) (inv : (s.life phase).Inv strict) (at_ : s.pc.base = p)
    (begun : p ≠ .prologue) (awake : ∀ h wanted, p ≠ .joinYield h wanted) :
    (s.tasks s.cur).runState = .running := by
  rcases rests.current with running | prologue | ⟨t, going, joins⟩
  · exact running
  · exact absurd (at_.symm.trans prologue) begun
  · -- Whoever waits for a task is inside a join, before its yield or switched away in it.
    obtain ⟨-, -, -, h, wanted, inside, -⟩ := joining_of_joiner inv going joins
    have here : (s.life phase).at_ s.cur = p := (life_at_cur phase s).trans at_
    rw [here] at inside
    rcases inside with yielding | ⟨-, other⟩
    · exact absurd yielding (awake h wanted)
    · exact absurd rfl other

/-- A yield leaves its caller at the end of a critical section, and enters one or a prologue. -/
theorem Rests.yield {m : Node Pc} (rests : s.Rests host) (cur : m.cur = s.cur)
    (contexts : ∀ b, (m.tasks b).ctx = (s.tasks b).ctx)
    (flags : ∀ b, b ≠ s.cur → (m.tasks b).noPreemptFlag = (s.tasks b).noPreemptFlag)
    (serves : ∀ b, (m.tasks b).scheduled = true → b = host ∨ (s.tasks b).scheduled = true)
    (queued : ∀ b, some b ∈ m.rq.runqueue → b = host ∨ (s.tasks b).scheduled = true)
    (nonNull : none ∉ m.rq.runqueue) (awake : m.rq.sleepqueue = [])
    (off : some s.cur ∉ m.rq.runqueue)
    (joiners : ∀ t j, (s'.tasks t).runState ≠ .stopped → (s'.tasks t).joiner = some j →
      j = host ∨ (s'.tasks j).scheduled = true)
    (yielded : Node.Yielded clock (.unlock p) m s'.toNode) : s'.Rests host := by
  have known : ∀ b, (b = host ∨ (s'.tasks b).scheduled = true) →
      b = host ∨ (s.tasks b).scheduled = true := by
    rintro b (same | scheduled)
    · exact .inl same
    · exact serves b ((yielded.kept b).scheduled ▸ scheduled)
  -- What a task looks like that was not running before.
  have before : ∀ b, b ≠ s.cur → (b = host ∨ (s.tasks b).scheduled = true) →
      (∃ p, (m.tasks b).ctx.resume = .switched (.unlock p)) ∨
        ((m.tasks b).ctx.resume = .plain .prologue ∧ (s'.tasks b).noPreemptFlag = false) := by
    intro b other serves
    rw [contexts b, (yielded.kept b).noPreemptFlag, flags b other]
    exact rests.away b other serves
  have popped := yielded.runnable_cases nonNull awake (.inl rfl)
  rcases yielded.went with ⟨stayed, pc⟩ | moved
  · have same : s'.cur = s.cur := stayed.cur.trans cur
    refine ⟨fun _ => ⟨p, pc⟩, .inl ?_, ?_, joiners⟩
    · -- It took itself off the queue, so it had queued itself.
      rcases popped with ⟨-, running⟩ | queued
      · rw [(stayed.unchanged s'.cur).1, stayed.cur]
        exact running
      · exact absurd (same ▸ queued) off
    · intro b other serves
      rw [(stayed.unchanged b).2]
      exact before b (same ▸ other) (known b serves)
  · have other : s'.cur ≠ s.cur := cur ▸ moved.other
    have entering :=
      before s'.cur other (queued s'.cur (popped.resolve_left fun own => moved.other own.1))
    refine ⟨fun flag => ?_, ?_, ?_, joiners⟩
    · rcases entering with ⟨q, back⟩ | ⟨-, clear⟩
      · exact ⟨q, by rw [moved.pc, back]; rfl⟩
      · exact absurd flag (by simp [Node.flag, clear])
    · rcases entering with ⟨q, back⟩ | ⟨first, -⟩
      · exact .inl (by rw [moved.entered, back]; rfl)
      · exact .inr (.inl (by rw [moved.pc, first]; rfl))
    · intro b away serves
      by_cases left : b = s.cur
      · rw [left, ← cur, moved.saved]
        exact .inl ⟨p, rfl⟩
      · rw [(moved.others b (cur ▸ left)).1]
        exact before b left (known b serves)

/-- A step of a task that runs on leaves the others as they are, or as they are first entered. -/
theorem Rests.keep (rests : s.Rests host) (cur : s'.cur = s.cur)
    (own : s'.flag = true → ∃ p, s'.pc = .unlock p)
    (current : (s'.tasks s.cur).runState = .running ∨ s'.pc.base = .prologue ∨
      ∃ t, (s'.tasks t).runState ≠ .stopped ∧ (s'.tasks t).joiner = some s.cur)
    (away : ∀ b, b ≠ s.cur → (b = host ∨ (s'.tasks b).scheduled = true) →
      ((b = host ∨ (s.tasks b).scheduled = true) ∧ (s'.tasks b).ctx = (s.tasks b).ctx ∧
        (s'.tasks b).noPreemptFlag = (s.tasks b).noPreemptFlag) ∨
      ((s'.tasks b).ctx.resume = .plain .prologue ∧ (s'.tasks b).noPreemptFlag = false))
    (joiners : ∀ t j, (s'.tasks t).runState ≠ .stopped → (s'.tasks t).joiner = some j →
      j = host ∨ (s'.tasks j).scheduled = true) : s'.Rests host := by
  refine ⟨own, cur ▸ current, fun b other serves => ?_, joiners⟩
  rcases away b (cur ▸ other) serves with ⟨before, ctx, flag⟩ | first
  · rw [ctx, flag]
    exact rests.away b (cur ▸ other) before
  · exact .inr first

/-- A statement after which the blocks look the same to the scheduler. -/
theorem Rests.onward (rests : s.Rests host) (cur : s'.cur = s.cur)
    (clear : s.flag = false) (running : (s.tasks s.cur).runState = .running)
    (same : ∀ b, (s'.tasks b).noPreemptFlag = (s.tasks b).noPreemptFlag ∧
      (s'.tasks b).scheduled = (s.tasks b).scheduled ∧
      (s'.tasks b).runState = (s.tasks b).runState ∧ (s'.tasks b).joiner = (s.tasks b).joiner)
    (contexts : ∀ b, b ≠ s.cur → (s'.tasks b).ctx = (s.tasks b).ctx) : s'.Rests host := by
  refine rests.keep cur (fun flag => ?_) (.inl ((same s.cur).2.2.1.trans running)) ?_ ?_
  · have kept : s'.flag = s.flag := by
      rw [Node.flag, Node.flag, cur]
      exact (same s.cur).1
    exact absurd flag (by simp [kept, clear])
  · intro b other serves
    rw [(same b).2.1] at serves
    exact .inl ⟨serves, contexts b other, (same b).1⟩
  · intro t j going joins
    rw [(same t).2.2.1] at going
    rw [(same t).2.2.2] at joins
    rw [(same j).2.1]
    exact rests.joiners t j going joins

/-- A step that writes to a block which is neither running, nor the host's, nor a joiner. -/
theorem Rests.touch (rests : s.Rests host) (cur : s'.cur = s.cur) (clear : s.flag = false)
    (running : (s.tasks s.cur).runState = .running) (other : t ≠ host ∧ t ≠ s.cur)
    (others : ∀ b, b ≠ t → s'.tasks b = s.tasks b)
    (idle : (s'.tasks t).scheduled = true →
      (s'.tasks t).ctx.resume = .plain .prologue ∧ (s'.tasks t).noPreemptFlag = false)
    (unjoined : (s'.tasks t).runState ≠ .stopped → (s'.tasks t).joiner = none)
    (joiner : ∀ u, (s.tasks u).runState ≠ .stopped → (s.tasks u).joiner ≠ some t) :
    s'.Rests host := by
  have here : s'.tasks s.cur = s.tasks s.cur := others s.cur other.2.symm
  refine rests.keep cur (fun flag => ?_) (.inl (by rw [here]; exact running)) ?_ ?_
  · have kept : s'.flag = s.flag := by rw [Node.flag, Node.flag, cur, here]
    exact absurd flag (by simp [kept, clear])
  · intro b _ serves
    by_cases touched : b = t
    · subst touched
      exact .inr (idle (serves.resolve_left other.1))
    · rw [others b touched] at serves ⊢
      exact .inl ⟨serves, rfl, rfl⟩
  · intro u j going joins
    by_cases touched : u = t
    · subst touched
      rw [unjoined going] at joins
      cases joins
    · rw [others u touched] at going joins
      have apart : j ≠ t := fun same => joiner u going (same ▸ joins)
      rw [others j apart]
      exact rests.joiners u j going joins

/-- Joiners stay known while blocks keep what they serve and who waits for them. -/
theorem Rests.joiners_of (rests : s.Rests host)
    (same : ∀ b, (s'.tasks b).scheduled = (s.tasks b).scheduled ∧
      (s'.tasks b).joiner = (s.tasks b).joiner ∧
      ((s'.tasks b).runState ≠ .stopped → (s.tasks b).runState ≠ .stopped)) (t j : Addr)
    (going : (s'.tasks t).runState ≠ .stopped) (joins : (s'.tasks t).joiner = some j) :
    j = host ∨ (s'.tasks j).scheduled = true := by
  rw [(same j).1]
  rw [(same t).2.1] at joins
  exact rests.joiners t j ((same t).2.2 going) joins

/-- Nobody waits as a joiner in a block that holds no task. -/
theorem joiner_ne (inv : (s.life phase).Inv strict) (idle : ∀ holder, phase t ≠ .active holder)
    (u : Addr) (going : (s.tasks u).runState ≠ .stopped) : (s.tasks u).joiner ≠ some t := by
  intro joins
  obtain ⟨-, ⟨holder, active⟩, -⟩ := joining_of_joiner inv going joins
  exact idle holder active

/-- The fields of the blocks once the preempt flag is set. -/
theorem setFlag_fields (flag : Bool) (s : Sys) (b : Addr) :
    ((s.setFlag flag).tasks b).ctx = (s.tasks b).ctx ∧
      ((s.setFlag flag).tasks b).scheduled = (s.tasks b).scheduled ∧
      ((s.setFlag flag).tasks b).runState = (s.tasks b).runState ∧
      ((s.setFlag flag).tasks b).joiner = (s.tasks b).joiner ∧
      (b ≠ s.cur → ((s.setFlag flag).tasks b).noPreemptFlag = (s.tasks b).noPreemptFlag) := by
  by_cases here : b = s.cur
  · simp [Node.setFlag, here]
  · simp [Node.setFlag, here]

/-- The state in which a `join` waits for a task that has not stopped. -/
def waitFor (h : HandleId) (wanted : Bool) (t : Addr) (s : Sys) : Sys :=
  ((s.write t fun b => { b with joiner := some s.cur }).write s.cur
    (Task.setState .waiting)).reserve h |>.goto (.joinYield h wanted)

/-- The fields of the blocks then. -/
theorem waitFor_fields (h : HandleId) (wanted : Bool) (t : Addr) (s : Sys) (b : Addr) :
    ((s.waitFor h wanted t).tasks b).ctx = (s.tasks b).ctx ∧
      ((s.waitFor h wanted t).tasks b).scheduled = (s.tasks b).scheduled ∧
      ((s.waitFor h wanted t).tasks b).noPreemptFlag = (s.tasks b).noPreemptFlag ∧
      ((s.waitFor h wanted t).tasks b).runState =
        (if b = s.cur then .waiting else (s.tasks b).runState) ∧
      ((s.waitFor h wanted t).tasks b).joiner =
        (if b = t then some s.cur else (s.tasks b).joiner) := by
  simp only [waitFor, goto, reserve, write_tasks]
  split_ifs <;> simp_all

/-- Every step leaves the tasks that do not run at rest. -/
theorem Rests.step (rests : s.Rests host) (named : s.Named host) (inv : (s.life phase).Inv strict)
    (linear : s.Linear l)
    (begun : ∀ t h, s.pc = .started t h → (s.tasks t).noPreemptFlag = false ∧
      (s.tasks t).ctx.resume = .plain .prologue)
    (ok : s.step l = .ok s') : s'.Rests host := by
  -- A statement other than the ends of critical sections, prologues and yields of joins.
  have clear : ∀ {p : Pc}, s.pc = p → (∀ q, p ≠ .unlock q) → s.flag = false :=
    fun at_ plain => rests.clear at_ plain
  have running : ∀ {p : Pc}, s.pc = p → p.base ≠ .prologue →
      (∀ h wanted, p.base ≠ .joinYield h wanted) → (s.tasks s.cur).runState = .running :=
    fun at_ started awake => rests.running inv (by rw [at_]) started awake
  cases stepped_of_ok ok with
  | nothing => exact rests
  | yields leaves ok =>
    obtain ⟨-, n, rfl, -, yielded⟩ := yieldLocked_ok inv.queues.running ok
    have fields := setFlag_fields true s
    have live : ∀ b, some b ∈ (s.setFlag true).rq.runqueue →
        ((s.setFlag true).tasks b).runState ≠ .stopped := by
      intro b queued
      rw [(fields b).2.2.1]
      exact queued_going inv b queued
    refine rests.yield (m := s.setFlag true) rfl (fun b => (fields b).1)
      (fun b => (fields b).2.2.2.2) (fun b scheduled => .inr ((fields b).2.1 ▸ scheduled))
      (fun b queued => named.scheduled b (.inr queued)) inv.queues.nonNull inv.queues.awake
      (cur_off_queue inv) (fun t j going joins => ?_) yielded
    rw [(yielded.kept j).scheduled, (fields j).2.1]
    rw [(yielded.kept t).joiner, (fields t).2.2.2.1] at joins
    rw [Ne, yielded.stopped_iff inv.queues.nonNull inv.queues.awake live t,
      (fields t).2.2.1] at going
    exact rests.joiners t j going joins
  | sleeps => exact linear.elim
  | @exits value clock _ at_ ok =>
    have exited := exit_exited inv at_ ok
    obtain ⟨-, -, n, rfl, -, yielded⟩ := exit_ok inv.queues.running ok
    obtain ⟨⟨awake, nonNull⟩, -⟩ := finish_queues value inv at_
    have finished := Node.finish_finished value (s.setFlag true)
    have fields := setFlag_fields true s
    have going : (s.tasks s.cur).runState ≠ .stopped := inv.going
    have joiner : ((s.setFlag true).tasks s.cur).joiner = (s.tasks s.cur).joiner :=
      (fields s.cur).2.2.2.1
    -- The joiner that is scheduled now was known before.
    have woken : ∀ b, (s.tasks s.cur).joiner = some b → b = host ∨ (s.tasks b).scheduled = true :=
      fun b joins => rests.joiners s.cur b going joins
    have queue := finished.queue
    rw [show ((s.setFlag true).tasks (s.setFlag true).cur).joiner = _ from joiner] at queue
    refine rests.yield (m := (s.setFlag true).finish value) finished.cur
      (fun b => (finished.kept b).1.trans (fields b).1)
      (fun b other => (finished.kept b).2.2.2.2.2.2.trans ((fields b).2.2.2.2 other))
      (fun b scheduled => ?_) (fun b queued => ?_) nonNull awake (fun queued => ?_)
      (fun t j going joins => ?_) yielded
    · rw [finished.scheduled b, Bool.or_eq_true, decide_eq_true_eq, (fields b).2.1] at scheduled
      rcases scheduled with before | joins
      · exact .inr before
      · exact woken b (joiner.symm.trans joins)
    · have member := queue.mem_iff.mp queued
      cases joins : (s.tasks s.cur).joiner with
      | none =>
        rw [joins] at member
        exact named.scheduled b (.inr member)
      | some j =>
        rw [joins] at member
        rcases List.mem_cons.mp member with same | before
        · exact woken b (by rw [joins, same])
        · exact named.scheduled b (.inr before)
    · have member := queue.mem_iff.mp queued
      cases joins : (s.tasks s.cur).joiner with
      | none =>
        rw [joins] at member
        exact cur_off_queue inv member
      | some j =>
        rw [joins] at member
        rcases List.mem_cons.mp member with same | before
        · exact (joiner_ne_cur inv at_ joins).1 (Option.some.inj same).symm
        · exact cur_off_queue inv before
    · rw [Ne, exited.stopped t, not_or] at going
      rw [exited.joiner t] at joins
      have known := rests.joiners t j going.2 joins
      refine known.imp_right fun before => ?_
      rw [exited.scheduled j, before]
      rfl
  | @waits h wanted t clock at_ points unlocked unjoined going =>
    have fields := waitFor_fields h wanted t s
    have alive : ((s.waitFor h wanted t).tasks t).runState ≠ .stopped := by
      rw [(fields t).2.2.2.1]
      split_ifs
      · simp
      · exact going
    have joined : ((s.waitFor h wanted t).tasks t).joiner = some s.cur := by
      rw [(fields t).2.2.2.2, if_pos rfl]
    show (s.waitFor h wanted t).Rests host
    refine rests.keep rfl (fun flag => ?_) (.inr (.inr ⟨t, alive, joined⟩)) ?_ ?_
    · have kept : (s.waitFor h wanted t).flag = s.flag := (fields s.cur).2.2.1
      exact absurd (kept.symm.trans flag) (by simp [unlocked])
    · intro b other serves
      rw [(fields b).2.1] at serves
      exact .inl ⟨serves, (fields b).1, (fields b).2.2.1⟩
    · intro u j going joins
      rw [(fields j).2.1]
      rw [(fields u).2.2.2.2] at joins
      split_ifs at joins with target
      · rw [← Option.some.inj joins]
        exact named.scheduled s.cur (.inl rfl)
      · refine rests.joiners u j ?_ joins
        rw [(fields u).2.2.2.1] at going
        split_ifs at going with own
        · rw [own]
          exact inv.going
        · exact going
  | consumes at_ points unlocked stopped asks =>
    exact rests.onward rfl unlocked (running at_ (by simp [Pc.base]) (by simp [Pc.base]))
      (fun b => ⟨rfl, rfl, rfl, rfl⟩) fun _ _ => rfl
  | detaches at_ points unlocked going =>
    refine rests.onward rfl unlocked (running at_ (by simp [Pc.base]) (by simp [Pc.base]))
      (fun b => ?_) fun b _ => ?_
    all_goals
      simp only [settle, write_tasks]
      split_ifs <;> simp_all
  | @unlocks p clock fresh at_ held =>
    have fields := setFlag_fields false s
    have base : s.pc.base = p.base := by rw [at_]; rfl
    refine rests.keep rfl (fun flag => ?_) ?_ ?_ ?_
    · have off : ((s.setFlag false).tasks s.cur).noPreemptFlag = false := by simp [Node.setFlag]
      exact absurd (off.symm.trans flag) (by simp)
    · rcases rests.current with running | prologue | ⟨t, going, joins⟩
      · exact .inl ((fields s.cur).2.2.1.trans running)
      · exact .inr (.inl (base.symm.trans prologue))
      · refine .inr (.inr ⟨t, ?_, (fields t).2.2.2.1.trans joins⟩)
        exact fun stopped => going ((fields t).2.2.1.symm.trans stopped)
    · intro b other serves
      refine .inl ⟨?_, (fields b).1, (fields b).2.2.2.2 other⟩
      exact serves.imp_right fun scheduled => (fields b).2.1.symm.trans scheduled
    · refine rests.joiners_of fun b => ⟨(fields b).2.1, (fields b).2.2.2.1, fun going stopped => ?_⟩
      exact going ((fields b).2.2.1.trans stopped)
  | begins at_ =>
    have unlocked := clear at_ (by simp)
    refine rests.keep rfl (fun flag => ?_) (.inl ?_) ?_ ?_
    · have kept : (s.write s.cur (Task.setState .running)).flag = s.flag := by
        simp [Node.flag, write]
      exact absurd (kept.symm.trans flag) (by simp [unlocked])
    · simp [goto, write_tasks]
    · intro b other serves
      have same : (s.write s.cur (Task.setState .running)).tasks b = s.tasks b := by
        simp [write_tasks, other]
      refine .inl ⟨?_, congrArg Task.ctx same, congrArg Task.noPreemptFlag same⟩
      exact serves.imp_right fun scheduled => (congrArg Task.scheduled same).symm.trans scheduled
    · refine rests.joiners_of fun b => ?_
      have alive : (s.tasks s.cur).runState ≠ .stopped := inv.going
      simp only [goto, write_tasks]
      split_ifs <;> simp_all
  | @finds a entry arg h t rest clock fresh at_ found =>
    have pooled : phase t = .pooled := by
      refine (inv.places.pooled t).mp ?_
      exact (Node.findTask_perm found).mem_iff.mpr List.mem_cons_self
    obtain ⟨other, away, -⟩ := named.off inv (t := t) (by simp [pooled])
    have stopped : (s.tasks t).runState = .stopped :=
      inv.idle.gone t (.inl (by simp [pooled, Phase.kind]))
    refine rests.touch (t := t) rfl (clear at_ (by simp))
      (running at_ (by simp [Pc.base]) (by simp [Pc.base])) ⟨other, away⟩ ?_ ?_ ?_
      (joiner_ne inv (by simp [pooled]))
    · intro b elsewhere
      simp [goto, number_tasks, elsewhere]
    · simp [goto, number_tasks]
    · simp [goto, number_tasks, stopped]
  | @resets t entry arg h clock fresh at_ =>
    have building : phase t = .building s.cur := (ok_at inv at_).2
    have unscheduled := (inv.idle.building t (by simp [building, Phase.kind])).1
    obtain ⟨other, away, -⟩ := named.off inv (t := t) (by simp [building])
    refine rests.touch (t := t) rfl (clear at_ (by simp))
      (running at_ (by simp [Pc.base]) (by simp [Pc.base])) ⟨other, away⟩ ?_ ?_ ?_
      (joiner_ne inv (by simp [building]))
    · intro b elsewhere
      simp [goto, write_tasks, elsewhere]
    · have kept : (s.tasks t).scheduled = false := unscheduled
      simp [goto, write_tasks, Task.reset, kept]
    · simp [goto, write_tasks, Task.reset]
  | @creates a entry arg h clock fresh at_ unmapped =>
    have absent : phase fresh = .unmapped := (inv.places.absent fresh).mp unmapped
    obtain ⟨other, away, -⟩ := named.off inv (t := fresh) (by simp [absent])
    refine rests.touch (t := fresh) rfl (clear at_ (by simp))
      (running at_ (by simp [Pc.base]) (by simp [Pc.base])) ⟨other, away⟩ ?_ ?_ ?_
      (joiner_ne inv (by simp [absent]))
    · intro b elsewhere
      simp [goto, number_tasks, write_tasks, elsewhere]
    · simp [goto, number_tasks]
    · simp [goto, number_tasks, write_tasks, Task.construct]
  | @launches t entry arg h clock fresh at_ stopped other =>
    refine rests.onward rfl (clear at_ (by simp))
      (running at_ (by simp [Pc.base]) (by simp [Pc.base])) (fun b => ?_) fun b elsewhere => ?_
    all_goals
      simp only [goto, write_tasks]
      split_ifs <;> simp_all
  | @lands t h clock fresh at_ =>
    have building : phase t = .building s.cur := (ok_at inv at_).2.1
    have unscheduled : (s.tasks t).scheduled = false :=
      (inv.idle.building t (by simp [building, Phase.kind])).1
    obtain ⟨other, away, -⟩ := named.off inv (t := t) (by simp [building])
    have state := running at_ (by simp [Pc.base]) (by simp [Pc.base])
    have unlocked := clear at_ (by simp)
    have blocks := fun b => switchBack_tasks (s := s) away b
    have own : (s.switchBack t).tasks s.cur =
        (s.tasks s.cur).resumed (s.tasks s.cur).ctx.resume := by rw [blocks, if_pos rfl]
    refine rests.keep rfl (fun flag => ?_) (.inl ?_) ?_ (rests.joiners_of fun b => ?_)
    · have kept : (s.switchBack t).flag = s.flag := by
        show ((s.switchBack t).tasks s.cur).noPreemptFlag = _
        rw [own]
        rfl
      exact absurd (kept.symm.trans flag) (by simp [unlocked])
    · rw [own]
      cases (s.tasks s.cur).ctx.resume <;> simp [Resume.runState, state]
    · intro b elsewhere serves
      rw [blocks, if_neg elsewhere] at serves ⊢
      split_ifs at serves ⊢ with new
      · subst new
        exact absurd (serves.resolve_left other) (by simp [unscheduled])
      · exact .inl ⟨serves, rfl, rfl⟩
    · rw [blocks]
      split_ifs <;> simp_all
  | @suspends t h clock fresh at_ =>
    have building : phase t = .building s.cur := (ok_at inv at_).2.1
    have unused : (s.tasks t).joiner = none := (ok_at inv at_).2.2.1.1
    have unscheduled : (s.tasks t).scheduled = false :=
      (inv.idle.building t (by simp [building, Phase.kind])).1
    obtain ⟨other, away, -⟩ := named.off inv (t := t) (by simp [building])
    refine rests.touch (t := t) rfl (clear at_ (by simp))
      (running at_ (by simp [Pc.base]) (by simp [Pc.base])) ⟨other, away⟩ ?_ ?_ ?_
      (joiner_ne inv (by simp [building]))
    · intro b elsewhere
      simp [goto, write_tasks, elsewhere]
    · simp [goto, write_tasks, unscheduled]
    · simp [goto, write_tasks, unused]
  | @publishes t h clock fresh at_ unlocked =>
    have building : phase t = .building s.cur := (ok_at inv at_).2.1
    have unused : (s.tasks t).joiner = none := (ok_at inv at_).2.2.1.1
    obtain ⟨other, away, -⟩ := named.off inv (t := t) (by simp [building])
    obtain ⟨flag, first⟩ := begun t h at_
    refine rests.touch (t := t) rfl unlocked
      (running at_ (by simp [Pc.base]) (by simp [Pc.base])) ⟨other, away⟩ ?_ ?_ ?_
      (joiner_ne inv (by simp [building]))
    · intro b elsewhere
      simp [goto, schedule_tasks, elsewhere]
    · simp [goto, schedule_tasks, flag, first]
    · simp [goto, schedule_tasks, unused]
  | spawns at_ | assigns at_ | misses at_ | gives at_ | takes at_ | returns at_ | pools at_
  | overflows at_ | destroys at_ | clears at_ =>
    exact rests.onward rfl (clear at_ (by simp))
      (running at_ (by simp [Pc.base]) (by simp [Pc.base]))
      (fun b => ⟨rfl, rfl, rfl, rfl⟩) fun _ _ => rfl

/-- Where the tasks are after a yield: the caller at the end of its call, the others as before. -/
theorem at_leave {m : Node Pc} (cur : m.cur = s.cur)
    (contexts : ∀ b, (m.tasks b).ctx = (s.tasks b).ctx)
    (yielded : Node.Yielded clock (.unlock p) m s'.toNode) (o : Addr) :
    s'.at_ o = if o = s.cur then p.base else s.at_ o := by
  rcases yielded.went with ⟨stayed, pc⟩ | moved
  · have same : s'.cur = s.cur := stayed.cur.trans cur
    unfold Sys.at_
    rw [same, pc, (stayed.unchanged o).2, contexts o]
    split_ifs
    · rfl
    · rfl
  · have other : s'.cur ≠ s.cur := cur ▸ moved.other
    by_cases left : o = s.cur
    · rw [if_pos left, left, Sys.at_, if_neg other.symm, ← cur, moved.saved]
      rfl
    · rw [if_neg left, Sys.at_, Sys.at_, if_neg left]
      split_ifs with entered
      · rw [entered, moved.pc, contexts]
      · rw [(moved.others o (cur ▸ left)).1, contexts o]

/-- Contexts of tasks that were not running are untouched by a yield. -/
theorem ctx_leave {m : Node Pc} (cur : m.cur = s.cur)
    (contexts : ∀ b, (m.tasks b).ctx = (s.tasks b).ctx)
    (yielded : Node.Yielded clock (.unlock p) m s'.toNode) {b : Addr} (other : b ≠ s.cur) :
    (s'.tasks b).ctx = (s.tasks b).ctx := by
  rcases yielded.went with ⟨stayed, -⟩ | moved
  · rw [(stayed.unchanged b).2, contexts b]
  · rw [(moved.others b (cur ▸ other)).1, contexts b]

/-- Who was queued can run after a yield. -/
theorem runnable_leave {m : Node Pc} (nonNull : none ∉ m.rq.runqueue)
    (awake : m.rq.sleepqueue = []) (yielded : Node.Yielded clock (.unlock p) m s'.toNode) {o : Addr}
    (queued : some o ∈ m.rq.runqueue ∨ (o = m.cur ∧ (m.tasks m.cur).runState = .running)) :
    s'.Runnable o := by
  obtain ⟨perm, -⟩ := Node.popped_perm yielded nonNull awake
  have member : some o ∈ some s'.cur :: s'.rq.runqueue := by
    rw [perm.mem_iff]
    rcases queued with queued | ⟨rfl, running⟩
    · split_ifs
      · exact List.mem_cons_of_mem _ queued
      · exact queued
    · rw [if_pos running]
      exact List.mem_cons_self
  rcases List.mem_cons.mp member with same | rest
  · exact .inl (Option.some.inj same)
  · exact .inr rest

/-- A block that is being made does not run. -/
theorem building_ne_cur {o : Addr} (inv : (s.life phase).Inv strict)
    (building : phase t = .building o) : t ≠ s.cur := by
  rintro rfl
  obtain ⟨holder, active⟩ : ∃ holder, phase s.cur = .active holder := inv.active
  rw [active] at building
  cases building

/-- A call on a handle is at a statement that names it. -/
theorem handle_at (inv : (s.life phase).Inv strict) (at_ : s.pc = p)
    (busy : s.busy h = some s.cur) :
    p.base.handle = some h := by
  obtain ⟨-, handle⟩ := inv.busy h s.cur busy
  rwa [life_at_cur, at_] at handle

/-- A task in a join whose target has stopped can run on. -/
def Alert (s : Sys) : Prop := ∀ h t, s.busy h = some s.cur → s.pc.base ≠ .prologue →
  s.handles h = some t → (s.tasks t).runState = .stopped → (s.tasks s.cur).runState = .running

/-- It can if the running task runs, begins, or waits for a task that has not stopped. -/
theorem alert_of_current (inv : (s.life phase).Inv strict)
    (current : (s.tasks s.cur).runState = .running ∨ s.pc.base = .prologue ∨
      ∃ t, (s.tasks t).runState ≠ .stopped ∧ (s.tasks t).joiner = some s.cur) : s.Alert := by
  intro h t busy begun points stopped
  rcases current with running | prologue | ⟨u, going, joins⟩
  · exact running
  · exact absurd prologue begun
  · -- It waits for no other task than that of its handle.
    obtain ⟨-, -, -, h', wanted, -, points', busy'⟩ := joining_of_joiner inv going joins
    have handle := handle_at inv rfl busy
    have handle' := handle_at inv rfl busy'
    have same : h = h' := Option.some.inj (handle.symm.trans handle')
    subst same
    have target : t = u := Option.some.inj (points.symm.trans points')
    exact absurd (target ▸ stopped) going

/-- A yield of the running task leaves every call what it relies on. -/
theorem Calls.yield (calls : s.Calls) (alert : s.Alert) (inv : (s.life phase).Inv strict)
    (leaves : Leaves s l clock p) (ok : s.yieldLocked clock p = .ok s') : s'.Calls := by
  obtain ⟨-, n, rfl, -, yielded⟩ := yieldLocked_ok inv.queues.running ok
  have fields := setFlag_fields true s
  have live : ∀ b, some b ∈ (s.setFlag true).rq.runqueue →
      ((s.setFlag true).tasks b).runState ≠ .stopped := by
    intro b queued
    rw [(fields b).2.2.1]
    exact queued_going inv b queued
  let after : Sys := { s with toNode := n }
  have places : ∀ o, after.at_ o = if o = s.cur then p.base else s.at_ o :=
    at_leave (m := s.setFlag true) rfl (fun b => (fields b).1) yielded
  have stopped : ∀ b, (n.tasks b).runState = .stopped ↔ (s.tasks b).runState = .stopped := by
    intro b
    rw [yielded.stopped_iff inv.queues.nonNull inv.queues.awake live b, (fields b).2.2.1]
  have joiner : ∀ b, (n.tasks b).joiner = (s.tasks b).joiner :=
    fun b => (yielded.kept b).joiner.trans (fields b).2.2.2.1
  have making : ∀ u o, phase u = .building o →
      (after.tasks u).noPreemptFlag = (s.tasks u).noPreemptFlag ∧
      (after.tasks u).ctx = (s.tasks u).ctx := by
    intro u o building
    have other := building_ne_cur inv building
    refine ⟨(yielded.kept u).noPreemptFlag.trans ((fields u).2.2.2.2 other), ?_⟩
    exact ctx_leave (m := s.setFlag true) rfl (fun b => (fields b).1) yielded other
  have serving : ∀ u, (s.tasks u).scheduled = true → (n.tasks u).scheduled = true := by
    intro u before
    exact ((yielded.kept u).scheduled.trans (fields u).2.1).trans before
  have told : ∀ o u, ((s.tasks u).runState = .stopped → s.Runnable o → after.Runnable o) →
      s.Told o u → after.Told o u := by
    intro o u still before
    refine ⟨fun ended => ?_, fun going => (joiner u).trans (before.2 fun ended => ?_)⟩
    · exact still ((stopped u).mp ended) (before.1 ((stopped u).mp ended))
    · exact going ((stopped u).mpr ended)
  refine calls.keep inv (fun h o works _ => ⟨works, rfl, rfl⟩) (fun _ => id) (fun o other _ => ?_)
    (fun u o building _ => making u o building) (fun u _ _ => serving u) ?_ ?_
  · rw [places o, if_neg other]
  · intro h o u works other _ _ before
    refine told o u (fun _ can => ?_) before
    refine runnable_leave (m := s.setFlag true) inv.queues.nonNull inv.queues.awake yielded ?_
    exact .inl (can.resolve_left other)
  · intro h works
    have works : s.busy h = some s.cur := works
    have owes := calls h s.cur works
    rw [at_cur] at owes
    rw [places s.cur, if_pos rfl]
    have kept : after.Owes h s.cur s.pc.base := by
      refine Owes.keep owes (ok_at inv rfl) (handle_at inv rfl works) rfl rfl
        (fun _ => id) (fun u building => making u _ building) (fun u _ => serving u) ?_
      intro u active points before
      refine told s.cur u (fun ended _ => ?_) before
      -- The caller waits no longer, so it queues itself.
      have begun : s.pc.base ≠ .prologue := by
        intro prologue
        have handle := handle_at inv rfl works
        rw [prologue] at handle
        cases handle
      have running := alert h u works begun points ended
      refine runnable_leave (m := s.setFlag true) inv.queues.nonNull inv.queues.awake yielded ?_
      exact .inr ⟨rfl, (fields s.cur).2.2.1.trans running⟩
    cases leaves with
    | trap => exact kept
    | call at_ => trivial
    | join at_ =>
      rw [at_] at kept
      exact kept

/-- The queue an exiting task pops from holds the one that waits for it, and those queued before. -/
theorem finish_queued (value : Nat) (s : Sys) {o : Addr}
    (queued : some o ∈ s.rq.runqueue ∨ (s.tasks s.cur).joiner = some o) :
    some o ∈ ((s.setFlag true).finish value).rq.runqueue := by
  have queue := (Node.finish_finished value (s.setFlag true)).queue
  rw [show ((s.setFlag true).tasks (s.setFlag true).cur).joiner = (s.tasks s.cur).joiner from
    (setFlag_fields true s s.cur).2.2.2.1] at queue
  rw [queue.mem_iff]
  cases joins : (s.tasks s.cur).joiner with
  | none =>
    rw [joins] at queued
    exact queued.resolve_right (by simp)
  | some j =>
    rcases queued with before | same
    · exact List.mem_cons_of_mem _ before
    · rw [joins] at same
      exact List.mem_cons.mpr (.inl same.symm)

/-- Who is queued, or waits for the task that exits, can run after the exit. -/
theorem exit_runnable {value : Nat} {o : Addr} (inv : (s.life phase).Inv strict)
    (at_ : s.pc = .user)
    (ok : s.exit value clock = .ok s')
    (queued : some o ∈ s.rq.runqueue ∨ (s.tasks s.cur).joiner = some o) : s'.Runnable o := by
  obtain ⟨-, -, n, rfl, -, yielded⟩ := exit_ok inv.queues.running ok
  obtain ⟨⟨awake, nonNull⟩, -⟩ := finish_queues value inv at_
  exact runnable_leave (m := (s.setFlag true).finish value) nonNull awake yielded
    (.inl (finish_queued value s queued))

/-- An exit tells the one that waits for it. -/
theorem Calls.exit {value : Nat} (calls : s.Calls) (inv : (s.life phase).Inv strict)
    (at_ : s.pc = .user) (ok : s.exit value clock = .ok s') : s'.Calls := by
  have exited := exit_exited inv at_ ok
  have wakes := fun {o : Addr} => exit_runnable (o := o) inv at_ ok
  have going : (s.tasks s.cur).runState ≠ .stopped := inv.going
  obtain ⟨-, -, n, rfl, -, yielded⟩ := exit_ok inv.queues.running ok
  have finished := Node.finish_finished value (s.setFlag true)
  have fields := setFlag_fields true s
  have contexts : ∀ b, (((s.setFlag true).finish value).tasks b).ctx = (s.tasks b).ctx :=
    fun b => (finished.kept b).1.trans (fields b).1
  refine calls.keep inv (fun h o works _ => ⟨works, rfl, rfl⟩) ?_ (fun o other _ => ?_) ?_ ?_ ?_ ?_
  · intro m member
    exact List.mem_cons_of_mem _ member
  · rw [at_leave (m := (s.setFlag true).finish value) finished.cur contexts yielded o, if_neg other]
  · intro u o building _
    have other := building_ne_cur inv building
    refine ⟨?_, ctx_leave (m := (s.setFlag true).finish value) finished.cur contexts yielded other⟩
    rw [(yielded.kept u).noPreemptFlag, (finished.kept u).2.2.2.2.2.2, (fields u).2.2.2.2 other]
  · intro u holder _ before
    rw [exited.scheduled u, before]
    rfl
  · intro h o u works other active points told
    refine ⟨fun ended => ?_, fun alive => ?_⟩
    · rcases (exited.stopped u).mp ended with rfl | before
      · -- The task that exits had not stopped, so it knows who waits for it.
        exact wakes (.inr (told.2 going))
      · exact wakes (.inl ((told.1 before).resolve_left other))
    · rw [exited.joiner u]
      exact told.2 fun before => alive ((exited.stopped u).mpr (.inr before))
  · intro h works
    have handle := handle_at inv at_ works
    cases handle

/-- A statement of a task that runs on, which writes nothing the calls of others rely on. -/
theorem Calls.onward (calls : s.Calls) (inv : (s.life phase).Inv strict) (cur : s'.cur = s.cur)
    (queue : ∀ b, some b ∈ s.rq.runqueue → some b ∈ s'.rq.runqueue)
    (exits : s'.exits = s.exits)
    (busy : ∀ h o, s'.busy h = some o → o ≠ s.cur →
      s.busy h = some o ∧ s'.handles h = s.handles h ∧ s'.owner h = s.owner h)
    (making : ∀ t o, phase t = .building o → o ≠ s.cur →
      (s'.tasks t).noPreemptFlag = (s.tasks t).noPreemptFlag ∧ (s'.tasks t).ctx = (s.tasks t).ctx)
    (active : ∀ b holder, phase b = .active holder →
      ((s.tasks b).scheduled = true → (s'.tasks b).scheduled = true) ∧
      ((s'.tasks b).runState = .stopped ↔ (s.tasks b).runState = .stopped) ∧
      (s'.tasks b).joiner = (s.tasks b).joiner ∧ (b ≠ s.cur → (s'.tasks b).ctx = (s.tasks b).ctx))
    (own : ∀ h, s'.busy h = some s.cur → s'.Owes h s.cur s'.pc.base) : s'.Calls := by
  refine calls.keep inv busy (fun m member => exits ▸ member) ?_ making ?_ ?_ ?_
  · rintro o other ⟨⟨holder, serves⟩, -⟩
    rw [Sys.at_, Sys.at_, cur, if_neg other, if_neg other, (active o holder serves).2.2.2 other]
  · intro u holder serves
    exact (active u holder serves).1
  · intro h o u works other serves points told
    obtain ⟨-, stopped, joiner, -⟩ := active u _ serves
    refine ⟨fun ended => ?_, fun going => joiner.trans (told.2 fun ended => ?_)⟩
    · rcases told.1 (stopped.mp ended) with same | queued
      · exact absurd same other
      · exact .inr (queue o queued)
    · exact going (stopped.mpr ended)
  · intro h works
    rw [← cur, at_cur, cur]
    exact own h works

/-- A statement that touches no block at all but one that is being made. -/
theorem Calls.touch (calls : s.Calls) (inv : (s.life phase).Inv strict) (cur : s'.cur = s.cur)
    (queue : s'.rq = s.rq) (exits : s'.exits = s.exits) (busy : s'.busy = s.busy)
    (handles : s'.handles = s.handles) (owner : s'.owner = s.owner)
    (mine : ∀ o, phase t = .building o → o = s.cur) (idle : ∀ holder, phase t ≠ .active holder)
    (others : ∀ b, b ≠ t → b ≠ s.cur → s'.tasks b = s.tasks b)
    (self : (s'.tasks s.cur).scheduled = (s.tasks s.cur).scheduled ∧
      ((s'.tasks s.cur).runState = .stopped ↔ (s.tasks s.cur).runState = .stopped) ∧
      (s'.tasks s.cur).joiner = (s.tasks s.cur).joiner)
    (own : ∀ h, s'.busy h = some s.cur → s'.Owes h s.cur s'.pc.base) : s'.Calls := by
  refine calls.onward inv cur (fun b queued => queue ▸ queued) exits
    (fun h o works _ => ⟨busy ▸ works, congrFun handles h, congrFun owner h⟩) ?_ ?_ own
  · intro u o building other
    have apart : u ≠ t := by
      rintro rfl
      exact other (mine o building)
    rw [others u apart (building_ne_cur inv building)]
    exact ⟨rfl, rfl⟩
  · intro b holder serves
    have apart : b ≠ t := by
      rintro rfl
      exact idle holder serves
    by_cases here : b = s.cur
    · subst here
      exact ⟨fun before => self.1.trans before, self.2.1, self.2.2, fun other => absurd rfl other⟩
    · rw [others b apart here]
      exact ⟨id, Iff.rfl, rfl, fun _ => rfl⟩

/-- A statement that touches no block at all. -/
theorem Calls.quiet (calls : s.Calls) (inv : (s.life phase).Inv strict) (cur : s'.cur = s.cur)
    (queue : s'.rq = s.rq) (exits : s'.exits = s.exits) (tasks : s'.tasks = s.tasks)
    (busy : ∀ h o, s'.busy h = some o → o ≠ s.cur →
      s.busy h = some o ∧ s'.handles h = s.handles h ∧ s'.owner h = s.owner h)
    (own : ∀ h, s'.busy h = some s.cur → s'.Owes h s.cur s'.pc.base) : s'.Calls := by
  refine calls.onward inv cur (fun b queued => queue ▸ queued) exits busy ?_ ?_ own
  · intro u o _ _
    rw [tasks]
    exact ⟨rfl, rfl⟩
  · intro b holder _
    rw [tasks]
    exact ⟨id, Iff.rfl, rfl, fun _ => rfl⟩

/-- A call that takes a handle for itself leaves those of other tasks alone. -/
theorem reserve_busy {h h' : HandleId} {o : Addr} (works : (s.reserve h).busy h' = some o)
    (other : o ≠ s.cur) : s.busy h' = some o := by
  by_cases same : h' = h
  · simp only [reserve, same, update_self, Option.some.injEq] at works
    exact absurd works.symm other
  · simpa [reserve, same] using works

/-- A task that was in no call works on the handle its new call takes. -/
theorem reserved_eq {h h' : HandleId} (inv : (s.life phase).Inv strict) (at_ : s.pc = .user)
    (works : (s.reserve h).busy h' = some s.cur) : h' = h := by
  by_contra apart
  have before : s.busy h' = some s.cur := by simpa [reserve, apart] using works
  exact absurd (handle_at inv at_ before) (by simp [Pc.base, Pc.handle])

/-- A call that lets go of a handle leaves those of other tasks alone. -/
theorem settle_busy {h h' : HandleId} {o : Addr} (works : (s.settle h).busy h' = some o) :
    s.busy h' = some o ∧ (s.settle h).handles h' = s.handles h' := by
  by_cases same : h' = h
  · simp [settle, same] at works
  · simpa [settle, same] using works

/-- Every step leaves every call what it relies on. -/
theorem Calls.step (calls : s.Calls) (alert : s.Alert) (outcomes : s.Outcomes)
    (named : s.Named host) (inv : (s.life phase).Inv strict) (linear : s.Linear l)
    (ok : s.step l = .ok s') : s'.Calls := by
  have going : (s.tasks s.cur).runState ≠ .stopped := inv.going
  -- What the running task relies on, at the statement it is at.
  have owes : ∀ {p : Pc} {h : HandleId}, s.pc = p → s.busy h = some s.cur →
      s.Owes h s.cur p.base := by
    intro p h at_ works
    have before := calls h s.cur works
    rwa [at_cur, at_] at before
  have same : ∀ (h : HandleId) (o : Addr), s.busy h = some o → o ≠ s.cur →
      s.busy h = some o ∧ s.handles h = s.handles h ∧ s.owner h = s.owner h :=
    fun h o works _ => ⟨works, rfl, rfl⟩
  cases stepped_of_ok ok with
  | nothing => exact calls
  | yields leaves ok => exact calls.yield alert inv leaves ok
  | sleeps => exact linear.elim
  | exits at_ ok => exact calls.exit inv at_ ok
  | spawns at_ unlocked =>
    exact calls.quiet inv rfl rfl rfl rfl
      (fun h o works other => ⟨reserve_busy works other, rfl, rfl⟩) fun _ _ => trivial
  | @waits h wanted t clock at_ points unlocked unjoined alive =>
    have fields := waitFor_fields h wanted t s
    have idle : s.busy h = none := by
      rcases linear with free | joined
      · exact free
      · simp [points, unjoined] at joined
    -- No call of another task is at work on a handle of the same task.
    have alone : ∀ h' o, s.busy h' = some o → phase t ≠ .active (some (.handle h')) := by
      intro h' o works active
      obtain ⟨-, active', -⟩ := inv.free h t idle points
      have same : h = h' := by simpa using active'.symm.trans active
      subst same
      rw [idle] at works
      cases works
    show (s.waitFor h wanted t).Calls
    refine calls.keep inv (fun h' o works other => ⟨reserve_busy works other, rfl, rfl⟩)
      (fun _ => id) (fun o other _ => ?_) (fun u o _ _ => ⟨(fields u).2.2.1, (fields u).1⟩)
      (fun u _ _ before => (fields u).2.1.trans before) ?_ ?_
    · rw [Sys.at_, Sys.at_, (fields o).1]
      exact (if_neg other).trans (if_neg other).symm
    · intro h' o u works other active _ told
      have apart : u ≠ t := by
        rintro rfl
        exact alone h' o works active
      have stopped : ((s.waitFor h wanted t).tasks u).runState = .stopped ↔
          (s.tasks u).runState = .stopped := by
        rw [(fields u).2.2.2.1]
        split_ifs with here
        · subst here
          simp [going]
        · exact Iff.rfl
      have joiner : ((s.waitFor h wanted t).tasks u).joiner = (s.tasks u).joiner := by
        rw [(fields u).2.2.2.2, if_neg apart]
      exact ⟨fun ended => told.1 (stopped.mp ended), fun alive =>
        joiner.trans (told.2 fun ended => alive (stopped.mpr ended))⟩
    · intro h' works
      have at_cur : (s.waitFor h wanted t).at_ s.cur = .joinYield h wanted := if_pos rfl
      rw [at_cur]
      intro t' points'
      have same : h' = h := reserved_eq inv at_ works
      subst same
      have target : t = t' := Option.some.inj (points.symm.trans points')
      subst target
      exact ⟨fun _ => .inl rfl, fun _ => by rw [(fields t).2.2.2.2, if_pos rfl]⟩
  | @consumes c clock h wanted t at_ points unlocked stopped asks =>
    refine calls.quiet inv rfl rfl rfl rfl
      (fun h o works other => ⟨reserve_busy works other, rfl, rfl⟩) fun h' works t' points' => ?_
    have same : h' = h := reserved_eq inv at_ works
    subst same
    have target : t = t' := Option.some.inj (points.symm.trans points')
    subst target
    exact ⟨fun _ => .inl rfl, fun alive => absurd stopped alive⟩
  | @detaches h t clock at_ points unlocked alive =>
    refine calls.onward inv rfl (fun _ => id) rfl (fun h' o works _ => ?_) ?_ ?_ ?_
    · exact ⟨(settle_busy works).1, (settle_busy works).2, rfl⟩
    · intro u o _ _
      simp only [settle, write_tasks]
      split_ifs <;> simp_all
    · intro b holder _
      simp only [settle, write_tasks]
      split_ifs <;> simp_all
    · intro h' works
      have before := (settle_busy works).1
      exact absurd (handle_at inv at_ before) (by simp [Pc.base, Pc.handle])
  | @assigns dst src clock at_ =>
    refine calls.quiet inv rfl rfl rfl rfl (fun h o works _ => ⟨works, ?_⟩) fun h works => ?_
    · rcases linear with rfl | ⟨free, -⟩
      · simp
      · have apart : h ≠ dst := by
          rintro rfl
          exact absurd (free.symm.trans works) (by simp)
        simp [apart]
    · exact absurd (handle_at inv at_ works) (by simp [Pc.base, Pc.handle])
  | @unlocks p clock fresh at_ held =>
    have fields := setFlag_fields false s
    refine calls.onward inv rfl (fun _ => id) rfl same ?_ (fun b _ _ => ?_) fun h works => ?_
    · intro u o building _
      exact ⟨(fields u).2.2.2.2 (building_ne_cur inv building), (fields u).1⟩
    · have state : ((s.setFlag false).tasks b).runState = .stopped ↔
          (s.tasks b).runState = .stopped := by rw [(fields b).2.2.1]
      exact ⟨fun before => (fields b).2.1.trans before, state, (fields b).2.2.2.1,
        fun _ => (fields b).1⟩
    · have here := ok_at inv at_
      have handle := handle_at inv at_ works
      have before := owes at_ works
      refine Owes.keep before here handle rfl rfl (fun _ => id) ?_ ?_ ?_
      · intro u building
        exact ⟨(fields u).2.2.2.2 (building_ne_cur inv building), (fields u).1⟩
      · exact fun u _ before => (fields u).2.1.trans before
      · intro u _ _ told
        refine ⟨fun _ => .inl rfl, fun alive => ?_⟩
        exact (fields u).2.2.2.1.trans
          (told.2 fun stopped => alive ((fields u).2.2.1.trans stopped))
  | begins at_ =>
    refine calls.onward inv rfl (fun _ => id) rfl same ?_ ?_ fun _ _ => trivial
    · intro u o building _
      simp [goto, write_tasks, building_ne_cur inv building]
    · intro b holder _
      simp only [goto, write_tasks]
      split_ifs <;> simp_all
  | @finds a entry arg h t rest clock fresh at_ found =>
    have pooled : phase t = .pooled := by
      refine (inv.places.pooled t).mp ?_
      exact (Node.findTask_perm found).mem_iff.mpr List.mem_cons_self
    obtain ⟨-, away, -⟩ := named.off inv (t := t) (by simp [pooled])
    refine calls.touch (t := t) inv rfl rfl rfl rfl rfl rfl (by simp [pooled]) (by simp [pooled])
      (fun b other _ => ?_) ?_ fun _ _ => trivial
    · simp [goto, number_tasks, other]
    · simp [goto, number_tasks, away.symm]
  | misses at_ => exact calls.quiet inv rfl rfl rfl rfl same fun _ _ => trivial
  | @resets t entry arg h clock fresh at_ =>
    have building : phase t = .building s.cur := (ok_at inv at_).2
    have away := building_ne_cur inv building
    refine calls.touch (t := t) inv rfl rfl rfl rfl rfl rfl ?_ (by simp [building])
      (fun b other _ => ?_) ?_ fun _ _ => ?_
    · intro o owner
      exact (Phase.building.inj (building.symm.trans owner)).symm
    · simp [goto, write_tasks, other]
    · simp [goto, write_tasks, away.symm]
    · show ((s.write t Task.reset).tasks t).noPreemptFlag = false
      simp [write_tasks, Task.reset]
  | @creates a entry arg h clock fresh at_ unmapped =>
    have absent : phase fresh = .unmapped := (inv.places.absent fresh).mp unmapped
    obtain ⟨-, away, -⟩ := named.off inv (t := fresh) (by simp [absent])
    refine calls.touch (t := fresh) inv rfl rfl rfl rfl rfl rfl (by simp [absent])
      (by simp [absent])
      (fun b other _ => ?_) ?_ fun _ _ => ?_
    · simp [goto, number_tasks, write_tasks, other]
    · simp [goto, number_tasks, write_tasks, away.symm]
    · simp [Owes, goto, Pc.base, number_tasks, write_tasks, Task.construct]
  | @launches t entry arg h clock fresh at_ stopped other =>
    have building : phase t = .building s.cur := (ok_at inv at_).2.1
    refine calls.touch (t := t) inv rfl rfl rfl rfl rfl rfl ?_ (by simp [building])
      (fun b other away => ?_) ?_ fun h' works => ?_
    · intro o owner
      exact (Phase.building.inj (building.symm.trans owner)).symm
    · simp [goto, write_tasks, other, away]
    · simp [goto, write_tasks, other.symm]
    · have flag : (s.tasks t).noPreemptFlag = false := owes at_ works
      simp [Owes, goto, Pc.base, write_tasks, other, flag]
  | @lands t h clock fresh at_ =>
    have building : phase t = .building s.cur := (ok_at inv at_).2.1
    have away := building_ne_cur inv building
    have blocks := fun b => switchBack_tasks (s := s) away b
    refine calls.onward inv rfl (fun _ => id) rfl same (fun u o making other => ?_)
      (fun b holder serves => ?_) fun h' works => ?_
    · have apart : u ≠ t := by
        rintro rfl
        exact other (Phase.building.inj (making.symm.trans building))
      rw [blocks, if_neg (building_ne_cur inv making), if_neg apart]
      exact ⟨rfl, rfl⟩
    · have apart : b ≠ t := by
        rintro rfl
        exact absurd (building.symm.trans serves) (by simp)
      rw [blocks, if_neg apart]
      split_ifs with here
      · subst here
        cases (s.tasks s.cur).ctx.resume <;> simp_all [Resume.runState]
      · exact ⟨id, Iff.rfl, rfl, fun _ => rfl⟩
    · -- The spawner goes on in `start`, or where a trap on the new stack has saved it.
      have made : (s.switchBack t).tasks t = (s.tasks t).save ⟨.plain .prologue, s.stack⟩ := by
        rw [blocks, if_neg away, if_pos rfl]
      have flag : (s.tasks t).noPreemptFlag = false := owes at_ works
      have onNew : (s.life phase).at_ s.cur = .startOnNew t h := by
        rw [life_at_cur, at_]
        rfl
      have base : (s.switchBack t).pc.base = .startBack t h ∨
          (s.switchBack t).pc.base = .startOnNew t h := by
        have loaded : (s.switchBack t).pc = (s.tasks s.cur).ctx.resume.pc := by
          simp [switchBack, Node.gthreadSwitchTo, Node.load, away.symm]
        rw [loaded]
        exact (inv.saved t h onNew).imp (congrArg Prod.fst) (congrArg Prod.fst)
      rcases base with back | stays
      · rw [back]
        exact ⟨by rw [made]; exact flag, by rw [made]; rfl⟩
      · rw [stays]
        show ((s.switchBack t).tasks t).noPreemptFlag = false
        rw [made]
        exact flag
  | @suspends t h clock fresh at_ =>
    have building : phase t = .building s.cur := (ok_at inv at_).2.1
    have away := building_ne_cur inv building
    refine calls.touch (t := t) inv rfl rfl rfl rfl rfl rfl ?_ (by simp [building])
      (fun b other _ => ?_) ?_ fun h' works => ?_
    · intro o owner
      exact (Phase.building.inj (building.symm.trans owner)).symm
    · simp [goto, write_tasks, other]
    · simp [goto, write_tasks, away.symm]
    · have before : (s.tasks t).noPreemptFlag = false ∧
        (s.tasks t).ctx.resume = .plain .prologue := owes at_ works
      simp [Owes, goto, Pc.base, write_tasks, before]
  | @publishes t h clock fresh at_ unlocked =>
    have building : phase t = .building s.cur := (ok_at inv at_).2.1
    have away := building_ne_cur inv building
    refine calls.onward inv rfl (fun b queued => ?_) rfl same (fun u o making other => ?_)
      (fun b holder serves => ?_) fun h' works => ?_
    · exact (Node.schedule_rq s.toNode t).1.mem_iff.mpr (List.mem_cons_of_mem _ queued)
    · have apart : u ≠ t := by
        rintro rfl
        exact other (Phase.building.inj (making.symm.trans building))
      simp [goto, schedule_tasks, apart]
    · have apart : b ≠ t := by
        rintro rfl
        exact absurd (building.symm.trans serves) (by simp)
      simp [goto, schedule_tasks, apart]
    · simp [Owes, goto, Pc.base, schedule_tasks]
  | @gives t h clock fresh at_ =>
    refine calls.quiet inv rfl rfl rfl rfl (fun h' o works _ => ?_) fun _ _ => trivial
    have apart : h' ≠ h := by
      rintro rfl
      simp [giveHandle, goto] at works
    simpa [giveHandle, goto, apart] using works
  | @takes h wanted t clock fresh at_ points stopped =>
    refine calls.quiet inv rfl rfl rfl rfl same fun h' works => ?_
    have handle := handle_at inv at_ works
    cases handle
    -- The task of the handle is the one of the spawn it was given, and it has exited.
    obtain ⟨-, u, refers⟩ := ok_at inv at_
    have target : u = t := Option.some.inj (refers.1.symm.trans points)
    subst target
    have number : (s.tasks u).spawn = s.owner h := refers.2.2
    have ended := outcomes.results u (outcomes.given h u points number) stopped
    rw [number] at ended
    exact List.mem_map.mpr ⟨_, ended, rfl⟩
  | returns at_ points unlocked =>
    exact calls.quiet inv rfl rfl rfl rfl same fun h' works => owes at_ works
  | pools at_ => exact calls.quiet inv rfl rfl rfl rfl same fun h' works => owes at_ works
  | overflows at_ => exact calls.quiet inv rfl rfl rfl rfl same fun h' works => owes at_ works
  | destroys at_ => exact calls.quiet inv rfl rfl rfl rfl same fun h' works => owes at_ works
  | clears at_ =>
    refine calls.quiet inv rfl rfl rfl rfl (fun h' o works _ => ?_) fun _ _ => trivial
    exact ⟨(settle_busy works).1, (settle_busy works).2, rfl⟩

end Sys

end Gthread

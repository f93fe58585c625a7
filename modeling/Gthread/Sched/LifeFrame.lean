import Gthread.Sched.Life

/-! The frame of a step: what the running task leaves alone keeps the invariant of all others. -/

namespace Gthread.Life

variable {strict : Prop} {a a' : Life}

/-- A handle is filled by the same task as long as nothing happens to it and to its own task. -/
theorem Fills.keep {o : Addr} {h : HandleId} (fills : a.Fills o h)
    (handle : a'.busy h = a.busy h ∧ a'.handles h = a.handles h ∧ a'.owner h = a.owner h)
    (block : ∀ t, a.phase t = .active (some (.handle h)) →
      a'.phase t = a.phase t ∧ a'.spawn t = a.spawn t) : a'.Fills o h := by
  obtain ⟨busy, refers⟩ := fills
  obtain ⟨busy', handles, owner⟩ := handle
  refine ⟨busy'.trans busy, fun t points => ?_⟩
  rw [handles] at points
  obtain ⟨points, phase, number⟩ := refers t points
  obtain ⟨phase', number'⟩ := block t phase
  exact ⟨handles.trans points, phase'.trans phase, by rw [number', number, owner]⟩

/-- What a step leaves to a task that is inside a call. -/
structure Keeps (o : Addr) (a a' : Life) : Prop where
  handle : ∀ h, a.busy h = some o →
    a'.busy h = some o ∧ a'.handles h = a.handles h ∧ a'.owner h = a.owner h
  block : ∀ t, a.Owned o t →
    a'.phase t = a.phase t ∧ a'.spawn t = a.spawn t ∧ (a.state t = .stopped → a'.state t = .stopped)
  built : ∀ t, a.phase t = .building o →
    (a.Unused t → a'.Unused t) ∧ a'.at_ t = a.at_ t ∧ a'.stackOf t = a.stackOf t ∧
      a'.state t = a.state t
  returned : ∀ m, a.Returned m → a'.Returned m

namespace Keeps

variable {o : Addr}

/-- A handle the task works on refers to the same task. -/
theorem refers {h : HandleId} {t : Addr} (keeps : Keeps o a a') (busy : a.busy h = some o)
    (refers : a.Refers h t) : a'.Refers h t ∧ (a.state t = .stopped → a'.state t = .stopped) := by
  obtain ⟨points, phase, number⟩ := refers
  obtain ⟨-, handles, owner⟩ := keeps.handle h busy
  obtain ⟨phase', number', stopped⟩ := keeps.block t (.inr (.inr (.inr ⟨h, phase, busy⟩)))
  exact ⟨⟨handles.trans points, phase'.trans phase, by rw [number', number, owner]⟩, stopped⟩

/-- A handle the task is to fill stays as it is until then. -/
theorem fills {h : HandleId} (keeps : Keeps o a a') (fills : a.Fills o h) : a'.Fills o h := by
  have busy := fills.1
  obtain ⟨busy', same⟩ := keeps.handle h busy
  refine fills.keep ⟨busy'.trans busy.symm, same⟩ fun t phase => ?_
  obtain ⟨phase', number, -⟩ := keeps.block t (.inr (.inr (.inr ⟨h, phase, busy⟩)))
  exact ⟨phase', number⟩

/-- What the task has to itself it keeps. -/
theorem ok (keeps : Keeps o a a') (p : Pc) (ok : a.Ok o p) : a'.Ok o p := by
  have busy : ∀ {h}, a.busy h = some o → a'.busy h = some o := fun held => (keeps.handle _ held).1
  have block : ∀ {t}, a.Owned o t → a'.phase t = a.phase t :=
    fun owned => (keeps.block _ owned).1
  have gave : ∀ {h}, a.busy h = some o → a.Returned (a.owner h) → a'.Returned (a'.owner h) :=
    fun held back => (keeps.handle _ held).2.2 ▸ keeps.returned _ back
  -- One case for each statement that owns something; the others own nothing.
  cases p with
  | makeLocked _ _ _ h => exact keeps.fills ok
  | makeCreate _ _ _ h => exact keeps.fills ok
  | makeFound t _ _ h => exact ⟨keeps.fills ok.1, (block (.inl ok.2)).trans ok.2⟩
  | made t _ _ h =>
    exact ⟨keeps.fills ok.1, (block (.inl ok.2.1)).trans ok.2.1, (keeps.built t ok.2.1).1 ok.2.2⟩
  | startOnNew t h =>
    exact ⟨keeps.fills ok.1, (block (.inl ok.2.1)).trans ok.2.1, (keeps.built t ok.2.1).1 ok.2.2⟩
  | startBack t h =>
    obtain ⟨unused, at_, stack, -⟩ := keeps.built t ok.2.1
    exact ⟨keeps.fills ok.1, (block (.inl ok.2.1)).trans ok.2.1, unused ok.2.2.1,
      at_.trans ok.2.2.2.1,
      stack.trans ok.2.2.2.2⟩
  | started t h =>
    obtain ⟨unused, at_, stack, state⟩ := keeps.built t ok.2.1
    exact ⟨keeps.fills ok.1, (block (.inl ok.2.1)).trans ok.2.1, unused ok.2.2.1,
      at_.trans ok.2.2.2.1,
      stack.trans ok.2.2.2.2.1, state.trans ok.2.2.2.2.2⟩
  | spawned t h => exact ⟨keeps.fills ok.1, (block (.inr (.inl ok.2))).trans ok.2⟩
  | joinYield h _ =>
    obtain ⟨held, t, points⟩ := ok
    exact ⟨busy held, t, (keeps.refers held points).1⟩
  | take h _ =>
    obtain ⟨held, t, points⟩ := ok
    exact ⟨busy held, t, (keeps.refers held points).1⟩
  | returning h =>
    obtain ⟨held, t, points, stopped⟩ := ok
    obtain ⟨points', stopped'⟩ := keeps.refers held points
    exact ⟨busy held, t, points', stopped' stopped⟩
  | returnLocked t h =>
    exact ⟨busy ok.1, (block (.inr (.inr (.inl ok.2.1)))).trans ok.2.1, gave ok.1 ok.2.2⟩
  | returnDestroy t h =>
    exact ⟨busy ok.1, (block (.inr (.inr (.inl ok.2.1)))).trans ok.2.1, gave ok.1 ok.2.2⟩
  | clearHandle h => exact ⟨busy ok.1, gave ok.1 ok.2⟩
  | _ => exact trivial

end Keeps

/-- What a step of the running task leaves alone, as seen by every other task. -/
structure Frame (a a' : Life) : Prop where
  cur : a'.cur = a.cur
  running : a'.running = a.running
  keeps : ∀ o, o ≠ a.cur → Keeps o a a'
  task : ∀ o, o ≠ a.cur → a.Live o →
    (∃ holder, a'.phase o = .active holder) ∧ a'.state o = a.state o ∧ a'.at_ o = a.at_ o ∧
      a'.stackOf o = a.stackOf o ∧ a'.switched o = a.switched o
  queued : ∀ b, some b ∈ a.rq.runqueue → some b ∈ a'.rq.runqueue
  -- A task the step brings to life is at its first statement and nobody waits for it.
  born : ∀ o, o ≠ a.cur → a'.Live o → a.Live o ∨
    (a'.at_ o = .prologue ∧ a'.stackOf o = o ∧ a'.joiner o = none ∧ some o ∈ a'.rq.runqueue)

namespace Frame

/-- Every task is still in order if the running one is. -/
theorem calls (frame : Frame a a') (calls : ∀ o, a.Live o → a.Ok o (a.at_ o))
    (own : a'.Ok a.cur (a'.at_ a.cur)) (o : Addr) (live : a'.Live o) : a'.Ok o (a'.at_ o) := by
  by_cases other : o = a.cur
  · exact other ▸ own
  · rcases frame.born o other live with old | ⟨first, -⟩
    · rw [(frame.task o other old).2.2.1]
      exact (frame.keeps o other).ok _ (calls o old)
    · rw [first]
      exact trivial

/-- Every task is still on its stack if the running one is. -/
theorem onStack (frame : Frame a a') (onStack : ∀ o, a.Live o → a.stackOf o = (a.at_ o).stack o)
    (own : a'.stackOf a.cur = (a'.at_ a.cur).stack a.cur) (o : Addr) (live : a'.Live o) :
    a'.stackOf o = (a'.at_ o).stack o := by
  by_cases other : o = a.cur
  · exact other ▸ own
  · rcases frame.born o other live with old | ⟨first, stack, -⟩
    · obtain ⟨-, -, at_, stack, -⟩ := frame.task o other old
      rw [at_, stack]
      exact onStack o old
    · rw [first, stack]
      rfl

/-- Tasks other than the running one stay live. -/
theorem live (frame : Frame a a') {b : Addr} (other : b ≠ a.cur) (live : a.Live b) : a'.Live b := by
  obtain ⟨active, state, -⟩ := frame.task b other live
  exact ⟨active, state ▸ live.2⟩

/-- The queues are still in order if the step did not touch them. -/
theorem queues (frame : Frame a a') (queues : a.Queues) (same : a'.rq = a.rq) : a'.Queues where
  running := frame.running.trans queues.running
  awake := same ▸ queues.awake
  nonNull := same ▸ queues.nonNull
  nodup := by
    rw [same, frame.cur]
    exact queues.nodup
  live := by
    intro b member
    rw [same] at member
    have other : b ≠ a.cur := by
      rintro rfl
      exact (List.nodup_cons.mp queues.nodup).1 member
    exact frame.live other (queues.live b member)

/-- A task that waits for another one goes on waiting, unless it is the one that took the step. -/
theorem joining (frame : Frame a a') {b j : Addr} (other : j ≠ a.cur)
    (same : some j ∈ a'.rq.runqueue → some j ∈ a.rq.runqueue) (joining : a.Joining b j) :
    a'.Joining b j := by
  obtain ⟨waiting, active, off, h, wanted, at_, points, busy⟩ := joining
  have live : a.Live j := ⟨active, by simp [waiting]⟩
  obtain ⟨active', state, at', -, -⟩ := frame.task j other live
  obtain ⟨busy', handles, -⟩ := (frame.keeps j other).handle h busy
  refine ⟨state.trans waiting, active', fun member => off (same member), h, wanted, ?_,
    handles.trans points, busy'⟩
  rw [at', frame.cur]
  exact at_

end Frame

/-- The running task waits for nobody unless it is about to yield in `join`. -/
theorem Core.not_joiner (core : a.Core) (elsewhere : ∀ h wanted, a.at_ a.cur ≠ .joinYield h wanted)
    {b j : Addr} (live : a.Live b) (joined : a.joiner b = some j) : j ≠ a.cur := by
  rintro rfl
  obtain ⟨-, -, -, h, wanted, at_ | ⟨-, away⟩, -⟩ := core.joins b a.cur live joined
  · exact elsewhere h wanted at_
  · exact away rfl

/-- The running task's state, away from the two places where it is not running. -/
theorem Inv.state_running (inv : a.Inv strict) (kept : strict) (begun : a.at_ a.cur ≠ .prologue)
    (elsewhere : ∀ h wanted, a.at_ a.cur ≠ .joinYield h wanted) : a.state a.cur = .running := by
  rcases (inv.conserved kept).current with running | first | ⟨t, live, joined⟩
  · exact running
  · exact absurd first begun
  · exact absurd rfl (inv.not_joiner elsewhere live joined)

/-- A call at work on a handle is another task's as before, or the running task's own. -/
def Called (a a' : Life) : Prop :=
  ∀ h o, a'.busy h = some o →
    (o ≠ a.cur ∧ a.busy h = some o) ∨ (o = a.cur ∧ (a'.at_ a.cur).handle = some h)

/-- The running task goes on with its call. -/
theorem Inv.called_on (inv : a.Inv strict) (busy : a'.busy = a.busy)
    (same : (a'.at_ a.cur).handle = (a.at_ a.cur).handle) : Called a a' := by
  intro h o work
  rw [busy] at work
  by_cases here : o = a.cur
  · exact .inr ⟨here, same.trans (here ▸ (inv.busy h o work).2)⟩
  · exact .inl ⟨here, work⟩

/-- The running task begins a call. -/
theorem Inv.called_begin {g : HandleId} (inv : a.Inv strict) (before : (a.at_ a.cur).handle = none)
    (busy : a'.busy = Function.update a.busy g (some a.cur))
    (after : (a'.at_ a.cur).handle = some g) : Called a a' := by
  intro h o work
  rw [busy] at work
  by_cases here : h = g
  · subst here
    rw [Function.update_self, Option.some.injEq] at work
    exact .inr ⟨work.symm, after⟩
  · rw [Function.update_of_ne here] at work
    refine .inl ⟨?_, work⟩
    rintro rfl
    simpa [before] using (inv.busy h _ work).2

/-- The running task's call is over. -/
theorem Inv.called_end {g : HandleId} (inv : a.Inv strict)
    (before : (a.at_ a.cur).handle = some g ∨ (a.at_ a.cur).handle = none)
    (busy : a'.busy = Function.update a.busy g none) : Called a a' := by
  intro h o work
  rw [busy] at work
  by_cases here : h = g
  · subst here
    simp at work
  · rw [Function.update_of_ne here] at work
    refine .inl ⟨?_, work⟩
    rintro rfl
    have handle := (inv.busy h _ work).2
    rcases before with own | none_
    · rw [own, Option.some.injEq] at handle
      exact here handle.symm
    · rw [none_] at handle
      cases handle

/-- A step of the running task that stays the running task. -/
structure Step (strict : Prop) (a a' : Life) : Prop extends Frame a a' where
  elsewhere : ∀ h wanted, a.at_ a.cur ≠ .joinYield h wanted
  queues : a'.Queues
  off : ∀ j, a.Live j → some j ∈ a'.rq.runqueue → some j ∈ a.rq.runqueue
  -- The running task itself.
  active : ∃ holder, a'.phase a.cur = .active holder
  going : a'.state a.cur ≠ .stopped
  own : a'.Ok a.cur (a'.at_ a.cur)
  called : Called a a'
  stack : a'.stackOf a.cur = (a'.at_ a.cur).stack a.cur
  saved : ∀ t h, a'.at_ a.cur = .startOnNew t h →
    a'.saved = (.startBack t h, a.cur) ∨ a'.saved = (.startOnNew t h, t)
  state : strict → a'.state a.cur = .running ∨ a'.at_ a.cur = .prologue ∨
    ∃ t, a'.Live t ∧ a'.joiner t = some a.cur
  -- What no task has to itself.
  places : Places a'.phase a'.pool a'.deferred a'.mapped a'.overwrote
  free : ∀ h t, a'.busy h = none → a'.handles h = some t → a'.Refers h t
  joined : ∀ b j, a'.Live b → a'.joiner b = some j →
    (a.Live b ∧ a.joiner b = some j) ∨ a'.Joining b j
  joins : ∀ b j, a.Live b → a.joiner b = some j → a'.joiner b = some j
  records : Records (fun b => (a'.phase b).kind) a'.spawn a'.detached
    (a'.returned.map Return.spawn) a'.settled a'.next
  offStack : ∀ r ∈ a'.returned, r.block ≠ r.stack
  idle : Idle (fun b => (a'.phase b).kind) a'.state a'.joiner a'.scheduled
  finishes : ∀ b holder, a'.phase b = .active holder → a'.detached b = true →
    holder = none ∧ (a'.state b ≠ .stopped ∨ b = a.cur)

/-- Such a step keeps the invariant. -/
theorem Inv.step (inv : a.Inv strict) (step : Step strict a a') : a'.Inv strict := by
  have frame := step.toFrame
  have kept : ∀ t, a.Live t → a'.Live t := by
    intro t live
    by_cases other : t = a.cur
    · exact other ▸ ⟨step.active, step.going⟩
    · exact frame.live other live
  refine
    { queues := step.queues, active := frame.cur ▸ step.active, places := step.places,
      calls := frame.calls inv.calls step.own, onStack := frame.onStack inv.onStack step.stack,
      busy := ?_, free := step.free, joins := ?_, records := step.records,
      offStack := step.offStack,
      idle := step.idle, finishes := frame.cur ▸ step.finishes, going := frame.cur ▸ step.going,
      saved := frame.cur ▸ step.saved, conserved := ?_ }
  · intro h o work
    rcases step.called h o work with ⟨other, old⟩ | ⟨rfl, handle⟩
    · obtain ⟨live, handle⟩ := inv.busy h o old
      exact ⟨frame.live other live, (frame.task o other live).2.2.1 ▸ handle⟩
    · exact ⟨⟨step.active, step.going⟩, handle⟩
  · intro b j live joined
    rcases step.joined b j live joined with ⟨old, joined⟩ | new
    · have joining := inv.joins b j old joined
      have waits : a.Live j := ⟨joining.2.1, by simp [joining.1]⟩
      exact frame.joining (inv.not_joiner step.elsewhere old joined) (step.off j waits) joining
    · exact new
  · intro strictly
    obtain ⟨placed, -, resumes⟩ := inv.conserved strictly
    refine ⟨?_, frame.cur ▸ step.state strictly, ?_⟩
    · intro b live
      by_cases other : b = a.cur
      · exact .inl (other.trans frame.cur.symm)
      · rcases frame.born b other live with old | ⟨-, -, -, member⟩
        · rcases placed b old with here | member | ⟨t, going, joined⟩
          · exact absurd here other
          · exact .inr (.inl (frame.queued b member))
          · exact .inr (.inr ⟨t, kept t going, step.joins t b going joined⟩)
        · exact .inr (.inl member)
    · intro b live other
      rw [frame.cur] at other
      rcases frame.born b other live with old | ⟨first, -⟩
      · obtain ⟨-, -, at_, -, switched⟩ := frame.task b other old
        rw [switched, at_]
        exact resumes b old other
      · exact .inr first

/--
A step that changes only handles the running task may change, and blocks it may change.

The blocks in `B` are either not live, or keep their control and stay tasks.
-/
structure Touches (H : HandleId → Prop) (B : Addr → Prop) (a a' : Life) : Prop where
  cur : a'.cur = a.cur
  running : a'.running = a.running
  queued : ∀ b, some b ∈ a.rq.runqueue → some b ∈ a'.rq.runqueue
  returned : ∀ m, a.Returned m → a'.Returned m
  handles : ∀ g, ¬ H g → a'.busy g = a.busy g ∧ a'.handles g = a.handles g ∧ a'.owner g = a.owner g
  mineH : ∀ g o, H g → a.busy g = some o → o = a.cur
  blocks : ∀ b, ¬ B b → a'.phase b = a.phase b ∧ a'.spawn b = a.spawn b ∧
    a'.joiner b = a.joiner b ∧ a'.detached b = a.detached b
  control : ∀ b, ¬ B b → b ≠ a.cur → a'.state b = a.state b ∧ a'.at_ b = a.at_ b ∧
    a'.stackOf b = a.stackOf b ∧ a'.switched b = a.switched b
  mineB : ∀ b o, B b → a.Owned o b → o = a.cur
  live : ∀ b, B b → b ≠ a.cur → a.Live b →
    (∃ holder, a'.phase b = .active holder) ∧ a'.state b = a.state b ∧ a'.at_ b = a.at_ b ∧
      a'.stackOf b = a.stackOf b ∧ a'.switched b = a.switched b
  born : ∀ b, B b → b ≠ a.cur → a'.Live b → a.Live b ∨
    (a'.at_ b = .prologue ∧ a'.stackOf b = b ∧ a'.joiner b = none ∧ some b ∈ a'.rq.runqueue)

/-- Such a step is framed. -/
theorem Touches.frame {H : HandleId → Prop} {B : Addr → Prop} (touches : Touches H B a a')
    (going : a.Live a.cur) : Frame a a' where
  cur := touches.cur
  running := touches.running
  queued := touches.queued
  keeps := by
    intro o other
    refine ⟨?_, ?_, ?_, touches.returned⟩
    · intro h busy
      have untouched : ¬ H h := fun touched => other (touches.mineH h o touched busy)
      obtain ⟨busy', rest⟩ := touches.handles h untouched
      exact ⟨busy'.trans busy, rest⟩
    · intro t owned
      have untouched : ¬ B t := fun touched => other (touches.mineB t o touched owned)
      obtain ⟨phase, spawn, -⟩ := touches.blocks t untouched
      refine ⟨phase, spawn, fun stopped => ?_⟩
      by_cases here : t = a.cur
      · exact absurd stopped (here ▸ going.2)
      · exact (touches.control t untouched here).1.trans stopped
    · intro t building
      have untouched : ¬ B t := fun touched => other (touches.mineB t o touched (.inl building))
      have away : t ≠ a.cur := by
        rintro rfl
        obtain ⟨⟨holder, active⟩, -⟩ := going
        simp [active] at building
      obtain ⟨-, -, joiner, detached⟩ := touches.blocks t untouched
      obtain ⟨state, at_, stack, -⟩ := touches.control t untouched away
      refine ⟨fun unused => ?_, at_, stack, state⟩
      exact ⟨joiner.trans unused.1, detached.trans unused.2⟩
  task := by
    intro o other live
    by_cases touched : B o
    · exact touches.live o touched other live
    · obtain ⟨phase, -⟩ := touches.blocks o touched
      obtain ⟨state, at_, stack, switched⟩ := touches.control o touched other
      exact ⟨phase ▸ live.1, state, at_, stack, switched⟩
  born := by
    intro o other live
    by_cases touched : B o
    · exact touches.born o touched other live
    · obtain ⟨phase, -⟩ := touches.blocks o touched
      obtain ⟨state, -⟩ := touches.control o touched other
      exact .inl ⟨phase ▸ live.1, state ▸ live.2⟩

/-- The running task is live. -/
theorem Inv.live_cur (inv : a.Inv strict) : a.Live a.cur := ⟨inv.active, inv.going⟩

/-- The running task has to itself what its statement says. -/
theorem Inv.ok_cur (inv : a.Inv strict) : a.Ok a.cur (a.at_ a.cur) := inv.calls _ inv.live_cur

/-- The running task is on the stack its statement says. -/
theorem Inv.stack_cur (inv : a.Inv strict) {p : Pc} (at_ : a.at_ a.cur = p) :
    a.stackOf a.cur = p.stack a.cur := at_ ▸ inv.onStack _ inv.live_cur

/-- Away from the excursion of `start`, a task is on its own stack. -/
theorem stack_own {o : Addr} {p : Pc} (away : ∀ t h, p ≠ .startOnNew t h) : p.stack o = o := by
  cases p with
  | startOnNew t h => exact absurd rfl (away t h)
  | _ => rfl

/-- A step that only touches what the running task may touch, and no queue. -/
structure Touch (H : HandleId → Prop) (B : Addr → Prop) (a a' : Life) : Prop extends
    Touches H B a a' where
  elsewhere : ∀ h wanted, a.at_ a.cur ≠ .joinYield h wanted
  rq : a'.rq = a.rq
  joiner : ∀ b, B b → a.Live b → a'.joiner b = a.joiner b
  -- The running task itself.
  active : ∃ holder, a'.phase a.cur = .active holder
  -- A task that has not begun is not running until it says so.
  state : a'.state a.cur = .running ∨ (a'.state a.cur = a.state a.cur ∧ a.at_ a.cur ≠ .prologue)
  own : a'.Ok a.cur (a'.at_ a.cur)
  called : Called a a'
  stack : a'.stackOf a.cur = (a'.at_ a.cur).stack a.cur
  saved : ∀ t h, a'.at_ a.cur = .startOnNew t h →
    a'.saved = (.startBack t h, a.cur) ∨ a'.saved = (.startOnNew t h, t)
  -- The handles on which no call is at work.
  others : ∀ b h, B b → ¬ H h → a.busy h = none → a.phase b ≠ .active (some (.handle h))
  given : ∀ h t, H h → a'.busy h = none → a'.handles h = some t → a'.Refers h t
  -- What no task has to itself.
  places : Places a'.phase a'.pool a'.deferred a'.mapped a'.overwrote
  records : Records (fun b => (a'.phase b).kind) a'.spawn a'.detached
    (a'.returned.map Return.spawn) a'.settled a'.next
  offStack : ∀ r ∈ a'.returned, r.block ≠ r.stack
  idle : Idle (fun b => (a'.phase b).kind) a'.state a'.joiner a'.scheduled
  finishes : ∀ b holder, a'.phase b = .active holder → a'.detached b = true →
    holder = none ∧ (a'.state b ≠ .stopped ∨ b = a.cur)

/-- Such a step keeps the invariant. -/
theorem Inv.touch {H : HandleId → Prop} {B : Addr → Prop} (inv : a.Inv strict)
    (touch : Touch H B a a') : a'.Inv strict := by
  obtain ⟨touches, elsewhere, rq, joiner, active, state, own, called, stack, saved, others, given,
    places, records, offStack, idle, finishes⟩ := touch
  have frame := touches.frame inv.live_cur
  have queues := frame.queues inv.queues rq
  have old : ∀ b, a'.Live b → a.Live b := by
    intro b live
    by_cases here : b = a.cur
    · exact here ▸ inv.live_cur
    · rcases frame.born b here live with old | ⟨-, -, -, member⟩
      · exact old
      · exact inv.queues.live b (rq ▸ member)
  have same : ∀ b, a.Live b → a'.joiner b = a.joiner b := by
    intro b live
    by_cases touched : B b
    · exact joiner b touched live
    · exact (touches.blocks b touched).2.2.1
  have going : a'.state a.cur ≠ .stopped := by
    rcases state with running | ⟨same, -⟩
    · simp [running]
    · exact same ▸ inv.going
  refine inv.step { frame with
    elsewhere, queues, off := ?_, active, going, own, called, stack, saved, state := ?_, places,
    free := ?_,
    joined := ?_, joins := ?_, records, offStack, idle, finishes }
  · intro j _ member
    exact rq ▸ member
  · intro kept
    rcases state with running | ⟨same, begun⟩
    · exact .inl running
    · exact .inl (same.trans (inv.state_running kept begun elsewhere))
  · intro h t unused points
    by_cases touched : H h
    · exact given h t touched unused points
    · obtain ⟨busy, handles, owner⟩ := touches.handles h touched
      obtain ⟨points', phase, number⟩ := inv.free h t (busy ▸ unused) (handles ▸ points)
      have away : ¬ B t := fun block => others t h block touched (busy ▸ unused) phase
      obtain ⟨phase', spawn, -⟩ := touches.blocks t away
      exact ⟨points, phase'.trans phase, by rw [spawn, number, owner]⟩
  · intro b j live joined
    exact .inl ⟨old b live, same b (old b live) ▸ joined⟩
  · intro b j live joined
    exact (same b live).trans joined

end Gthread.Life

import Gthread.Sched.LifeYield

/-! Tasks in code of the program change their run states, and which of them runs. -/

namespace Gthread.Life

variable {strict : Prop} {a a' : Life}

/-- A task that is inside no call of the library. -/
def Apart (a : Life) (b : Addr) : Prop := a.Live b ∧ a.at_ b = .user

/-- A step that only says which of the tasks apart run, are queued, or wait. -/
structure Wakes (a a' : Life) : Prop where
  running : a'.running = a.running
  -- The task that runs next, and the queue.
  next : a.Apart a'.cur
  caller : a.Apart a.cur
  awake : a'.rq.sleepqueue = []
  nonNull : none ∉ a'.rq.runqueue
  nodup : (some a'.cur :: a'.rq.runqueue).Nodup
  queued : ∀ b, some b ∈ a'.rq.runqueue → some b ∈ a.rq.runqueue ∨ a.Apart b
  -- The blocks.
  control : a'.phase = a.phase ∧ a'.at_ = a.at_ ∧ a'.stackOf = a.stackOf
  state : ∀ b, a'.state b = a.state b ∨ (a.Apart b ∧ a'.state b ≠ .stopped)
  scheduled : ∀ b, a'.scheduled b = a.scheduled b ∨ a.Apart b
  kept : a'.joiner = a.joiner ∧ a'.detached = a.detached ∧ a'.spawn = a.spawn
  places : a'.pool = a.pool ∧ a'.deferred = a.deferred ∧ a'.mapped = a.mapped ∧
    a'.overwrote = a.overwrote
  program : a'.handles = a.handles ∧ a'.busy = a.busy ∧ a'.owner = a.owner
  history : a'.returned = a.returned ∧ a'.settled = a.settled ∧ a'.next = a.next

namespace Wakes

/-- No task is stopped or brought to life by it. -/
theorem stopped_iff (wakes : Wakes a a') (b : Addr) :
    a'.state b = .stopped ↔ a.state b = .stopped := by
  rcases wakes.state b with same | ⟨⟨⟨-, going⟩, -⟩, alive⟩
  · rw [same]
  · exact ⟨fun stopped => absurd stopped alive, fun stopped => absurd stopped going⟩

/-- The tasks that have not stopped are the same ones. -/
theorem live_iff (wakes : Wakes a a') (b : Addr) : a'.Live b ↔ a.Live b := by
  unfold Live
  rw [wakes.control.1, ne_eq, wakes.stopped_iff b]

/-- A block that holds no task keeps its state. -/
theorem state_of_idle (wakes : Wakes a a') {b : Addr}
    (idle : ∀ holder, a.phase b ≠ .active holder) :
    a'.state b = a.state b ∧ a'.scheduled b = a.scheduled b := by
  have other : ¬ a.Apart b := fun apart => apart.1.1.elim idle
  exact ⟨(wakes.state b).resolve_right fun changed => other changed.1,
    (wakes.scheduled b).resolve_right other⟩

/-- It leaves to every task what it has to itself. -/
theorem keeps (wakes : Wakes a a') (o : Addr) : Keeps o a a' := by
  obtain ⟨joiner, detached, spawn⟩ := wakes.kept
  obtain ⟨handles, busy, owner⟩ := wakes.program
  obtain ⟨phase, at_, stackOf⟩ := wakes.control
  refine ⟨fun h held => ?_, fun t _ => ?_, fun t building => ?_, fun m back => ?_⟩
  · rw [handles, busy, owner]
    exact ⟨held, rfl, rfl⟩
  · rw [phase, spawn]
    exact ⟨rfl, rfl, (wakes.stopped_iff t).mpr⟩
  · have same := (wakes.state_of_idle (b := t) (by simp [building])).1
    rw [Unused, Unused, joiner, detached, at_, stackOf]
    exact ⟨id, rfl, rfl, same⟩
  · rw [Returned, wakes.history.1]
    exact back

/-- A task inside a join is not apart, so it goes on waiting. -/
theorem joining (wakes : Wakes a a') {b j : Addr} (joining : a.Joining b j) : a'.Joining b j := by
  obtain ⟨waiting, active, off, h, wanted, inside, points, busy⟩ := joining
  obtain ⟨phase, at_, -⟩ := wakes.control
  have other : ¬ a.Apart j := by
    rintro ⟨-, user⟩
    rcases inside with yielding | ⟨taking, -⟩
    · exact absurd (yielding.symm.trans user) (by simp)
    · exact absurd (taking.symm.trans user) (by simp)
  have state : a'.state j = .waiting :=
    ((wakes.state j).resolve_right fun changed => other changed.1).trans waiting
  refine ⟨state, phase ▸ active, fun queued => ?_, h, wanted, ?_, wakes.program.1 ▸ points,
    wakes.program.2.1 ▸ busy⟩
  · exact (wakes.queued j queued).elim off other
  · rw [at_]
    refine inside.imp_right fun ⟨taking, _⟩ => ⟨taking, ?_⟩
    rintro rfl
    exact other wakes.next

/-- The numbers of the blocks and the idle blocks are as before. -/
theorem idle (wakes : Wakes a a') (core : a.Core) :
    Idle (fun b => (a'.phase b).kind) a'.state a'.joiner a'.scheduled := by
  obtain ⟨joiner, -, -⟩ := wakes.kept
  rw [wakes.control.1, joiner]
  refine ⟨fun b gone => (wakes.stopped_iff b).mpr (core.idle.gone b gone), fun b building => ?_⟩
  have empty : ∀ holder, a.phase b ≠ .active holder := by
    intro holder active
    simp [active, Phase.kind] at building
  obtain ⟨never, unjoined⟩ := core.idle.building b building
  obtain ⟨state, scheduled⟩ := wakes.state_of_idle empty
  rw [state, scheduled]
  exact ⟨never, unjoined⟩

/-- It keeps everything in order. -/
theorem core (wakes : Wakes a a') (core : a.Core) : a'.Core := by
  obtain ⟨phase, at_, stackOf⟩ := wakes.control
  obtain ⟨joiner, detached, spawn⟩ := wakes.kept
  obtain ⟨pool, deferred, mapped, overwrote⟩ := wakes.places
  obtain ⟨handles, busy, owner⟩ := wakes.program
  obtain ⟨returned, settled, next⟩ := wakes.history
  have live := wakes.live_iff
  refine
    { queues := ⟨wakes.running.trans core.queues.running, wakes.awake, wakes.nonNull, wakes.nodup,
        fun b queued => ?_⟩
      active := phase ▸ wakes.next.1.1
      places := ?_, calls := ?_, onStack := ?_, busy := ?_, free := ?_, joins := ?_, records := ?_
      offStack := ?_, idle := wakes.idle core, finishes := ?_ }
  · exact (live b).mpr ((wakes.queued b queued).elim (core.queues.live b) And.left)
  · rw [phase, pool, deferred, mapped, overwrote]
    exact core.places
  · intro o alive
    rw [at_]
    exact (wakes.keeps o).ok _ (core.calls o ((live o).mp alive))
  · intro o alive
    rw [at_, stackOf]
    exact core.onStack o ((live o).mp alive)
  · intro h o work
    rw [busy] at work
    rw [at_]
    exact (core.busy h o work).imp (live o).mpr id
  · intro h t unused points
    rw [busy] at unused
    rw [handles] at points
    rw [Refers, handles, phase, spawn, owner]
    exact core.free h t unused points
  · intro b j alive joined
    rw [joiner] at joined
    exact wakes.joining (core.joins b j ((live b).mp alive) joined)
  · rw [phase, spawn, detached, returned, settled, next]
    exact core.records
  · rw [returned]
    exact core.offStack
  · intro b holder active flagged
    rw [phase] at active
    rw [detached] at flagged
    obtain ⟨unheld, going⟩ := core.finishes b holder active flagged
    refine ⟨unheld, .inl fun stopped => ?_⟩
    -- The task that ran before has not stopped either.
    rcases going with going | rfl
    · exact going ((wakes.stopped_iff b).mp stopped)
    · exact wakes.caller.1.2 ((wakes.stopped_iff a.cur).mp stopped)

end Wakes

/-- Such a step keeps the invariant, though tasks may get lost by it. -/
theorem Inv.wake (inv : a.Inv False) (wakes : Wakes a a') : a'.Inv False where
  toCore := wakes.core inv.toCore
  going := fun stopped => wakes.next.1.2 ((wakes.stopped_iff a'.cur).mp stopped)
  saved := by
    intro t h here
    rw [wakes.control.2.1, wakes.next.2] at here
    cases here
  conserved := False.elim

end Gthread.Life

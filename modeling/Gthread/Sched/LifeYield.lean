import Gthread.Sched.LifeSteps

/-! Giving up the processor: the deferred block is returned, and another task takes over. -/

namespace Gthread.Life

open Function (update update_of_ne update_self)

variable {strict : Prop} {a a' : Life} {p : Pc}

/-- The first part of a yield: a block whose return was deferred is returned now. -/
inductive Flush (a : Life) : Life → Prop
  | nothing (none_ : a.deferred = none) : Flush a a
  | pooled {d : Addr} {pool : List Addr} (held : a.deferred = some d)
      (inserted : pool.Perm (d :: a.pool)) :
      Flush a ({ a.record d with deferred := none, pool := pool }.rephase d .pooled)
  | unmapped {d : Addr} (held : a.deferred = some d) :
      Flush a ({ a.record d with
        deferred := none, mapped := update a.mapped d false }.rephase d .unmapped)

/-- The deferred block was no task before its return, and is none after. -/
theorem returned_task {d b : Addr} {new : Phase} (deferred : a.phase d = .deferred)
    (gone : new.kind = .gone) (holder : Option Holder) :
    update a.phase d new b = .active holder ↔ a.phase b = .active holder := by
  by_cases here : b = d
  · subst here
    rw [update_self, deferred]
    constructor
    · rintro rfl
      cases gone
    · intro impossible
      cases impossible
  · rw [update_of_ne here]

/-- What a flush leaves as it is. -/
structure Flush.Same (a a' : Life) : Prop where
  live : ∀ b, a'.Live b ↔ a.Live b
  keeps : ∀ o, Keeps o a a'
  control : a'.cur = a.cur ∧ a'.rq = a.rq ∧ a'.at_ = a.at_ ∧ a'.stackOf = a.stackOf ∧
    a'.saved = a.saved ∧ a'.switched = a.switched
  fields : a'.state = a.state ∧ a'.joiner = a.joiner
  deferred : a'.deferred = none

/-- Returning the deferred block leaves every task and every call as it is. -/
private theorem flush_same {d : Addr} (pool : List Addr) (mapped : Addr → Bool) {new : Phase}
    (deferred : a.phase d = .deferred) (gone : new.kind = .gone) :
    Flush.Same a
      ({ a.record d with deferred := none, pool := pool, mapped := mapped }.rephase d new) where
  live b := and_congr (exists_congr (returned_task deferred gone)) Iff.rfl
  keeps := by
    intro o
    unfold Life.rephase Life.record
    constructor
    all_goals try dsimp only
    all_goals grind [Function.update_apply, Owned, Unused, Returned]
  control := ⟨rfl, rfl, rfl, rfl, rfl, rfl⟩
  fields := ⟨rfl, rfl⟩
  deferred := rfl

/-- A flush leaves every task and every call as it is. -/
theorem Flush.same (flush : Flush a a') (core : a.Core) : Flush.Same a a' := by
  cases flush with
  | nothing none_ =>
    exact ⟨fun _ => Iff.rfl, fun _ => ⟨fun _ busy => ⟨busy, rfl, rfl⟩, fun _ _ => ⟨rfl, rfl, id⟩,
      fun _ _ => ⟨id, rfl, rfl, rfl⟩, fun _ back => back⟩, ⟨rfl, rfl, rfl, rfl, rfl, rfl⟩,
        ⟨rfl, rfl⟩,
      none_⟩
  | pooled held _ => exact flush_same _ _ ((core.places.held _).mp held) rfl
  | unmapped held => exact flush_same _ _ ((core.places.held _).mp held) rfl

/-- Returning the deferred block keeps everything in order. -/
private theorem Core.flush_some {d : Addr} {pool : List Addr} {mapped : Addr → Bool} {new : Phase}
    (core : a.Core) (held : a.deferred = some d) (off : a.stackOf a.cur ≠ d)
    (gone : new.kind = .gone)
    (places : Places (update a.phase d new) pool none mapped a.overwrote) :
    ({ a.record d with deferred := none, pool := pool, mapped := mapped }.rephase d new).Core := by
  have deferred : a.phase d = .deferred := (core.places.held d).mp held
  have task := fun b => returned_task (b := b) deferred gone
  have same := flush_same pool mapped deferred gone
  have live := same.live
  have records : Records (update (fun b => (a.phase b).kind) d .gone) a.spawn a.detached
      (a.spawn d :: a.returned.map Return.spawn) a.settled a.next :=
    core.records.give (by simp [deferred, Phase.kind])
  have idle : Idle (update (fun b => (a.phase b).kind) d .gone) a.state a.joiner a.scheduled := by
    obtain ⟨stopped, building⟩ := core.idle
    constructor
    all_goals grind [Function.update_apply, Phase.kind]
  have kinds : (fun b => (update a.phase d new b).kind) =
      update (fun b => (a.phase b).kind) d .gone := gone ▸ kind_update a.phase d new
  obtain ⟨running, awake, nonNull, nodup, queued⟩ := core.queues
  exact
    { queues := ⟨running, awake, nonNull, nodup, fun b member => (live b).mpr (queued b member)⟩
      active := core.active.imp fun holder => (task a.cur holder).mpr
      places
      calls := fun o alive => (same.keeps o).ok _ (core.calls o ((live o).mp alive))
      onStack := fun o alive => core.onStack o ((live o).mp alive)
      busy := fun h o work => (core.busy h o work).imp (live o).mpr id
      free := by
        intro h t unused points
        obtain ⟨points, phase, number⟩ := core.free h t unused points
        exact ⟨points, (task t _).mpr phase, number⟩
      joins := by
        intro b j alive joined
        obtain ⟨waiting, active, rest⟩ := core.joins b j ((live b).mp alive) joined
        exact ⟨waiting, active.imp fun holder => (task j holder).mpr, rest⟩
      records := kinds ▸ records
      offStack := by
        intro r member
        rcases List.mem_cons.mp member with rfl | old
        · exact off.symm
        · exact core.offStack r old
      idle := kinds ▸ idle
      finishes := fun b holder phase => core.finishes b holder ((task b holder).mp phase) }

/-- Flushing keeps everything in order, if the deferred block is not the stack in use. -/
theorem Core.flush (core : a.Core) (off : ∀ d, a.phase d = .deferred → a.stackOf a.cur ≠ d)
    (flush : Flush a a') : a'.Core := by
  cases flush with
  | nothing => exact core
  | @pooled d pool held inserted =>
    have deferred := (core.places.held d).mp held
    have places : Places (update a.phase d .pooled) pool none a.mapped a.overwrote := by
      have member : ∀ b, b ∈ pool ↔ b ∈ d :: a.pool := fun b => inserted.mem_iff
      have nodup := inserted.nodup_iff
      obtain ⟨unique, pooled, kept, absent, never⟩ := core.places
      constructor
      all_goals grind [Function.update_apply]
    exact core.flush_some held (off d deferred) rfl places
  | @unmapped d held =>
    have deferred := (core.places.held d).mp held
    have places : Places (update a.phase d .unmapped) a.pool none (update a.mapped d false)
        a.overwrote := by
      obtain ⟨unique, pooled, kept, absent, never⟩ := core.places
      constructor
      all_goals grind [Function.update_apply]
    exact core.flush_some held (off d deferred) rfl places

/-- The rest of a yield, with nothing deferred: the caller will go on at `p`. -/
structure Switch (p : Pc) (a a' : Life) : Prop where
  running : a'.running = a.running
  awake : a'.rq.sleepqueue = a.rq.sleepqueue
  popped : (some a'.cur :: a'.rq.runqueue).Perm
    (if a.state a.cur = .running then some a.cur :: a.rq.runqueue else a.rq.runqueue)
  at_ : a'.at_ = update a.at_ a.cur p
  stackOf : a'.stackOf = a.stackOf
  saved : a'.saved = if a'.cur = a.cur then a.saved else (a.at_ a'.cur, a.stackOf a'.cur)
  switched : a'.switched = if a'.cur = a.cur then a.switched else update a.switched a.cur true
  -- The task left behind is suspended, and the one entered runs if it was left by a switch.
  stayed : a'.cur = a.cur → a'.state = a.state
  left : a'.cur ≠ a.cur → a'.state a.cur =
    if a.state a.cur = .running then .suspended else a.state a.cur
  entered : a'.cur ≠ a.cur → a'.state a'.cur =
    if a.switched a'.cur then .running else a.state a'.cur
  others : ∀ b, b ≠ a.cur → b ≠ a'.cur → a'.state b = a.state b
  -- A finished detached task is to be returned by a later yield.
  phase : a'.phase = if a.state a.cur = .stopped ∧ a.detached a.cur
    then update a.phase a.cur .deferred else a.phase
  deferred : a'.deferred = if a.state a.cur = .stopped ∧ a.detached a.cur then some a.cur else none
  kept : a'.joiner = a.joiner ∧ a'.detached = a.detached ∧ a'.spawn = a.spawn ∧
    a'.scheduled = a.scheduled
  places : a'.pool = a.pool ∧ a'.mapped = a.mapped ∧ a'.overwrote = a.overwrote
  program : a'.handles = a.handles ∧ a'.busy = a.busy ∧ a'.owner = a.owner
  history : a'.returned = a.returned ∧ a'.settled = a.settled ∧ a'.next = a.next

/-- No task is lost as the running one gives up the processor. -/
structure Leaving (a : Life) : Prop where
  placed : ∀ b, a.Live b →
    b = a.cur ∨ some b ∈ a.rq.runqueue ∨ ∃ t, a.Live t ∧ a.joiner t = some b
  current : a.Live a.cur → a.state a.cur = .running ∨ ∃ t, a.Live t ∧ a.joiner t = some a.cur
  resumes : ∀ b, a.Live b → b ≠ a.cur → a.switched b = true ∨ a.at_ b = .prologue

namespace Switch

/-- The task that takes over was queued, or is the caller because it could run on. -/
theorem next_cases (switch : Switch p a a') :
    (a'.cur = a.cur ∧ a.state a.cur = .running) ∨ some a'.cur ∈ a.rq.runqueue := by
  have member := switch.popped.mem_iff.mp List.mem_cons_self
  split at member
  · rename_i running
    rcases List.mem_cons.mp member with same | queued
    · exact .inl ⟨by simpa using same, running⟩
    · exact .inr queued
  · exact .inr member

/-- Whoever is queued now was queued before, or is the caller because it could run on. -/
theorem queued_cases (switch : Switch p a a') {b : Addr} (queued : some b ∈ a'.rq.runqueue) :
    (b = a.cur ∧ a.state a.cur = .running) ∨ some b ∈ a.rq.runqueue := by
  have member := switch.popped.mem_iff.mp (List.mem_cons_of_mem _ queued)
  split at member
  · rename_i running
    rcases List.mem_cons.mp member with same | queued
    · exact .inl ⟨by simpa using same, running⟩
    · exact .inr queued
  · exact .inr member

/-- Whoever was queued, or is the caller and could run on, runs now or is queued. -/
theorem still_queued (switch : Switch p a a') {b : Addr}
    (queued : (b = a.cur ∧ a.state a.cur = .running) ∨ some b ∈ a.rq.runqueue) :
    b = a'.cur ∨ some b ∈ a'.rq.runqueue := by
  have member : some b ∈ if a.state a.cur = .running
      then some a.cur :: a.rq.runqueue else a.rq.runqueue := by
    rcases queued with ⟨rfl, running⟩ | queued
    · simp [running]
    · split
      · exact List.mem_cons_of_mem _ queued
      · exact queued
  simpa using switch.popped.mem_iff.mpr member

/-- The next task is a live one. -/
theorem next_live (switch : Switch p a a') (core : a.Core) : a.Live a'.cur := by
  rcases switch.next_cases with ⟨same, running⟩ | queued
  · rw [same]
    exact ⟨core.active, by simp [running]⟩
  · exact core.queues.live _ queued

/-- Nobody is stopped or started by a switch. -/
theorem stopped_iff (switch : Switch p a a') (core : a.Core) (b : Addr) :
    a'.state b = .stopped ↔ a.state b = .stopped := by
  by_cases same : a'.cur = a.cur
  · rw [switch.stayed same]
  · by_cases caller : b = a.cur
    · rw [caller, switch.left same]
      split
      · rename_i running
        simp [running]
      · exact Iff.rfl
    · by_cases next : b = a'.cur
      · have going := (switch.next_live core).2
        rw [next, switch.entered same]
        split
        · simp [going]
        · exact Iff.rfl
      · rw [switch.others b caller next]

/-- The tasks that have not stopped are the same ones. -/
theorem live_iff (switch : Switch p a a') (core : a.Core) (b : Addr) : a'.Live b ↔ a.Live b := by
  have stopped := switch.stopped_iff core b
  unfold Live
  rw [switch.phase, ne_eq, stopped]
  split
  · rename_i finished
    by_cases here : b = a.cur
    · simp [here, finished.1]
    · simp [here]
  · exact Iff.rfl

/-- A task that waits for another one is neither chosen nor queued. -/
theorem joining (switch : Switch p a a') {b j : Addr}
    (at_ : ∀ h wanted, a.at_ a.cur = .joinYield h wanted →
      p = .joinYield h wanted ∨ p = .take h wanted)
    (joining : a.Joining b j) : a'.Joining b j := by
  obtain ⟨waiting, ⟨holder, active⟩, off, h, wanted, where_, points, busy⟩ := joining
  have idle : ¬ (j = a.cur ∧ a.state a.cur = .running) := by
    rintro ⟨rfl, running⟩
    simp [waiting] at running
  have passed : j ≠ a'.cur := by
    rintro rfl
    rcases switch.next_cases with own | queued
    · exact idle own
    · exact off queued
  have state : a'.state j = .waiting := by
    by_cases caller : j = a.cur
    · have moved : a'.cur ≠ a.cur := fun same => passed (caller.trans same.symm)
      rw [caller] at waiting ⊢
      rw [switch.left moved, waiting]
      rfl
    · rw [switch.others j caller passed, waiting]
  have phase : a'.phase j = .active holder := by
    rw [switch.phase]
    split
    · rename_i finished
      have other : j ≠ a.cur := by
        rintro rfl
        simp [finished.1] at waiting
      simpa [other] using active
    · exact active
  refine ⟨state, ⟨holder, phase⟩, ?_, h, wanted, ?_, switch.program.1 ▸ points,
    switch.program.2.1 ▸ busy⟩
  · intro queued
    rcases switch.queued_cases queued with own | old
    · exact idle own
    · exact off old
  · rw [switch.at_]
    by_cases caller : j = a.cur
    · subst caller
      rw [update_self]
      rcases where_ with yields | ⟨-, away⟩
      · rcases at_ h wanted yields with same | taken
        · exact .inl same
        · exact .inr ⟨taken, passed⟩
      · exact absurd rfl away
    · rw [update_of_ne caller]
      exact where_.imp_right fun taken => ⟨taken.1, passed⟩

end Switch

/-- A block is still for the same use, unless it is the caller's and the caller has finished. -/
theorem Switch.phase_of {b : Addr} (switch : Switch p a a')
    (other : b = a.cur → a.state a.cur = .stopped → a.detached a.cur = false) :
    a'.phase b = a.phase b := by
  rw [switch.phase]
  split
  · rename_i finished
    have away : b ≠ a.cur := fun same => by simp [other same finished.1] at finished
    simp [away]
  · rfl

/-- A switch leaves to every task what it has to itself. -/
theorem Switch.keeps (switch : Switch p a a') (core : a.Core) (o : Addr) : Keeps o a a' := by
  obtain ⟨joiner, detached, spawn, scheduled⟩ := switch.kept
  obtain ⟨handles, busy, owner⟩ := switch.program
  have unheld : ∀ t, a.Owned o t → t = a.cur → a.state a.cur = .stopped →
      a.detached a.cur = false := by
    rintro t owned rfl -
    by_contra flagged
    obtain ⟨holder, active⟩ := core.active
    obtain ⟨rfl, -⟩ := core.finishes _ holder active (by simpa using flagged)
    simp [Owned, active] at owned
  refine ⟨?_, ?_, ?_, ?_⟩
  · intro h held
    rw [handles, busy, owner]
    exact ⟨held, rfl, rfl⟩
  · intro t owned
    exact ⟨switch.phase_of (unheld t owned), congrFun spawn t, (switch.stopped_iff core t).mpr⟩
  · intro t built
    obtain ⟨holder, active⟩ := core.active
    have other : t ≠ a.cur := by
      rintro rfl
      simp [active] at built
    have passed : t ≠ a'.cur := by
      rintro rfl
      obtain ⟨⟨holder, active⟩, -⟩ := switch.next_live core
      simp [active] at built
    refine ⟨fun unused => ?_, ?_, congrFun switch.stackOf t, switch.others t other passed⟩
    · rw [Unused, joiner, detached]
      exact unused
    · rw [switch.at_, update_of_ne other]
  · intro m back
    rw [Returned, switch.history.1]
    exact back

/-- The queues after a switch. -/
theorem Switch.queues (switch : Switch p a a') (core : a.Core) : a'.Queues := by
  obtain ⟨running, awake, nonNull, nodup, live⟩ := core.queues
  refine ⟨switch.running.trans running, switch.awake.trans awake, ?_, ?_, ?_⟩
  · intro null
    have member := switch.popped.mem_iff.mp (List.mem_cons_of_mem _ null)
    split at member
    · simp [nonNull] at member
    · exact nonNull member
  · refine switch.popped.nodup_iff.mpr ?_
    split
    · exact nodup
    · exact (List.nodup_cons.mp nodup).2
  · intro b queued
    rw [switch.live_iff core]
    rcases switch.queued_cases queued with ⟨rfl, running⟩ | old
    · exact ⟨core.active, by simp [running]⟩
    · exact live b old

/-- The free list, the deferred block and the memory map after a switch. -/
theorem Switch.places_after (switch : Switch p a a') (core : a.Core) (none_ : a.deferred = none) :
    Places a'.phase a'.pool a'.deferred a'.mapped a'.overwrote := by
  obtain ⟨pool, mapped, overwrote⟩ := switch.places
  obtain ⟨holder, active⟩ := core.active
  obtain ⟨nodup, pooled, held, absent, kept⟩ := core.places
  rw [switch.phase, switch.deferred, pool, mapped, overwrote]
  split
  · constructor
    all_goals grind [Function.update_apply]
  · exact ⟨nodup, pooled, none_ ▸ held, absent, kept⟩

/-- The spawn numbers and the idle blocks after a switch. -/
theorem Switch.records_after (switch : Switch p a a') (core : a.Core) :
    Records (fun b => (a'.phase b).kind) a'.spawn a'.detached (a'.returned.map Return.spawn)
      a'.settled a'.next ∧
    Idle (fun b => (a'.phase b).kind) a'.state a'.joiner a'.scheduled := by
  obtain ⟨joiner, detached, spawn, scheduled⟩ := switch.kept
  obtain ⟨returned, settled, next⟩ := switch.history
  obtain ⟨holder, active⟩ := core.active
  obtain ⟨gone, building⟩ := core.idle
  have stopped := fun b => (switch.stopped_iff core b).mpr
  rw [switch.phase, spawn, detached, returned, settled, next, joiner, scheduled]
  split
  · rename_i finished
    rw [kind_update]
    have kind : (a.phase a.cur).kind = .active holder.isSome := by
      rw [active]
      rfl
    refine ⟨core.records.defer kind, ?_⟩
    constructor
    all_goals grind [Function.update_apply, Phase.kind]
  · refine ⟨core.records, fun b idle => stopped b (gone b idle), fun b kind => ?_⟩
    obtain ⟨never, unjoined⟩ := building b kind
    exact ⟨never, unjoined.imp (stopped b) id⟩

/-- No task is lost by a switch. -/
theorem Switch.conserved (switch : Switch p a a') (core : a.Core) (leaving : a.Leaving) :
    a'.Conserved := by
  obtain ⟨placed, current, resumes⟩ := leaving
  have live := switch.live_iff core
  have waits : ∀ b, (∃ t, a.Live t ∧ a.joiner t = some b) →
      ∃ t, a'.Live t ∧ a'.joiner t = some b := by
    rintro b ⟨t, going, joined⟩
    exact ⟨t, (live t).mpr going, by rw [switch.kept.1, joined]⟩
  have runs : ∀ b, (b = a.cur ∧ a.state a.cur = .running) ∨ some b ∈ a.rq.runqueue →
      b = a'.cur ∨ some b ∈ a'.rq.runqueue ∨ ∃ t, a'.Live t ∧ a'.joiner t = some b := by
    intro b queued
    rcases switch.still_queued queued with chosen | queued
    · exact .inl chosen
    · exact .inr (.inl queued)
  refine ⟨?_, ?_, ?_⟩
  · intro b going
    rcases placed b ((live b).mp going) with rfl | queued | waiting
    · -- The caller queued itself, or waits for the task it joined.
      rcases current ((live _).mp going) with running | waiting
      · exact runs _ (.inl ⟨rfl, running⟩)
      · exact .inr (.inr (waits _ waiting))
    · exact runs b (.inr queued)
    · exact .inr (.inr (waits b waiting))
  · by_cases same : a'.cur = a.cur
    · refine .inl ?_
      rcases switch.next_cases with ⟨-, running⟩ | queued
      · rw [switch.stayed same, same, running]
      · rw [same] at queued
        exact absurd queued (List.nodup_cons.mp core.queues.nodup).1
    · rw [switch.entered same, switch.at_, update_of_ne same]
      rcases resumes _ (switch.next_live core) same with back | first
      · exact .inl (by rw [if_pos back])
      · exact .inr (.inl first)
  · intro b going other
    rw [switch.switched, switch.at_]
    by_cases caller : b = a.cur
    · subst caller
      rw [if_neg (Ne.symm other), update_self]
      exact .inl rfl
    · rw [update_of_ne caller]
      split
      · exact resumes b ((live b).mp going) caller
      · rw [update_of_ne caller]
        exact resumes b ((live b).mp going) caller

/-- Handing the processor over restores the invariant. -/
theorem Core.switch (core : a.Core) (none_ : a.deferred = none) (switch : Switch p a a')
    (own : a.Live a.cur → a.Ok a.cur p) (works : p.handle = (a.at_ a.cur).handle)
    (stack : a.Live a.cur → a.stackOf a.cur = p.stack a.cur)
    (at_ : ∀ h wanted, a.at_ a.cur = .joinYield h wanted →
      p = .joinYield h wanted ∨ p = .take h wanted)
    (saved : ∀ t h, p = .startOnNew t h →
      a.saved = (.startBack t h, a.cur) ∨ a.saved = (.startOnNew t h, t))
    (leaving : strict → a.Leaving) : a'.Inv strict := by
  have live := switch.live_iff core
  have next := (live _).mpr (switch.next_live core)
  obtain ⟨joiner, detached, spawn, -⟩ := switch.kept
  obtain ⟨handles, busy, owner⟩ := switch.program
  have onStack : ∀ o, a'.Live o → a'.stackOf o = (a'.at_ o).stack o := by
    intro o going
    rw [switch.stackOf, switch.at_]
    by_cases caller : o = a.cur
    · subst caller
      rw [update_self]
      exact stack ((live _).mp going)
    · rw [update_of_ne caller]
      exact core.onStack o ((live o).mp going)
  refine
    { queues := switch.queues core, active := next.1, places := switch.places_after core none_,
      calls := ?_, onStack, busy := ?_, free := ?_, joins := ?_,
      records := (switch.records_after core).1,
      offStack := switch.history.1 ▸ core.offStack, idle := (switch.records_after core).2,
      finishes := ?_, going := next.2, saved := ?_,
      conserved := fun strictly => switch.conserved core (leaving strictly) }
  · intro o going
    refine (switch.keeps core o).ok _ ?_
    rw [switch.at_]
    by_cases caller : o = a.cur
    · subst caller
      rw [update_self]
      exact own ((live _).mp going)
    · rw [update_of_ne caller]
      exact core.calls o ((live o).mp going)
  · intro h o work
    rw [busy] at work
    obtain ⟨going, handle⟩ := core.busy h o work
    refine ⟨(live o).mpr going, ?_⟩
    rw [switch.at_]
    by_cases caller : o = a.cur
    · subst caller
      rw [update_self, works, handle]
    · rw [update_of_ne caller, handle]
  · intro h t unused points
    rw [busy] at unused
    rw [handles] at points
    obtain ⟨points', phase, number⟩ := core.free h t unused points
    refine ⟨by rw [handles, points], ?_, by rw [spawn, number, owner]⟩
    rw [← phase]
    refine switch.phase_of fun same _ => ?_
    by_contra flagged
    have unheld := (core.finishes t _ phase (by rw [same]; simpa using flagged)).1
    simp at unheld
  · intro b j going joined
    rw [joiner] at joined
    exact switch.joining at_ (core.joins b j ((live b).mp going) joined)
  · intro b holder task flagged
    rw [detached] at flagged
    have old : a.phase b = .active holder := by
      rw [switch.phase] at task
      split at task
      · by_cases here : b = a.cur
        · simp [here] at task
        · simpa [here] using task
      · exact task
    obtain ⟨unheld, either⟩ := core.finishes b holder old flagged
    refine ⟨unheld, .inl fun stopped => ?_⟩
    rw [switch.stopped_iff core] at stopped
    rcases either with going | rfl
    · exact going stopped
    · -- The finished caller is deferred, so it is no task any more.
      rw [switch.phase, if_pos ⟨stopped, flagged⟩, update_self] at task
      cases task
  · intro t h starting
    rw [switch.saved]
    split
    · rename_i same
      rw [same, switch.at_, update_self] at starting
      rw [same]
      exact saved t h starting
    · rename_i moved
      have first : a.at_ a'.cur = .startOnNew t h := by
        rw [switch.at_, update_of_ne moved] at starting
        exact starting
      have stack := core.onStack _ (switch.next_live core)
      rw [first] at stack
      rw [first, stack]
      exact .inr rfl

/-- A whole yield: flush, then hand the processor over. -/
theorem Core.yield {a₁ : Life} (core : a.Core)
    (off : ∀ d, a.phase d = .deferred → a.stackOf a.cur ≠ d) (flush : Flush a a₁)
    (switch : Switch p a₁ a') (own : a.Live a.cur → a.Ok a.cur p)
    (works : p.handle = (a.at_ a.cur).handle)
    (stack : a.Live a.cur → a.stackOf a.cur = p.stack a.cur)
    (at_ : ∀ h wanted, a.at_ a.cur = .joinYield h wanted →
      p = .joinYield h wanted ∨ p = .take h wanted)
    (saved : ∀ t h, p = .startOnNew t h →
      a.saved = (.startBack t h, a.cur) ∨ a.saved = (.startOnNew t h, t))
    (leaving : strict → a.Leaving) : a'.Inv strict := by
  have flushed := core.flush off flush
  obtain ⟨live, keeps, ⟨cur, rq, at', stackOf, saved', switched⟩, ⟨state, joiner⟩, none_⟩ :=
    flush.same core
  refine flushed.switch none_ switch ?_ ?_ ?_ ?_ ?_ ?_
  · intro going
    rw [cur] at going ⊢
    exact (keeps _).ok p (own ((live _).mp going))
  · rw [at', cur]
    exact works
  · intro going
    rw [cur] at going ⊢
    rw [stackOf]
    exact stack ((live _).mp going)
  · rw [cur, at']
    exact at_
  · rw [saved', cur]
    exact saved
  · intro strictly
    obtain ⟨placed, current, resumes⟩ := leaving strictly
    constructor
    · intro b
      simp only [live, cur, rq, joiner]
      exact placed b
    · simp only [live, cur, state, joiner]
      exact current
    · intro b
      simp only [live, cur, switched, at']
      exact resumes b

/-- The stack in use is not that of a block whose return is deferred. -/
theorem Inv.off_deferred (inv : a.Inv strict) {d : Addr} (deferred : a.phase d = .deferred) :
    a.stackOf a.cur ≠ d := by
  rintro rfl
  obtain ⟨holder, active⟩ := inv.active
  have stack := inv.stack_cur rfl
  by_cases away : ∀ t h, a.at_ a.cur ≠ .startOnNew t h
  · rw [stack, stack_own away, active] at deferred
    cases deferred
  · obtain ⟨t, h, onNew⟩ : ∃ t h, a.at_ a.cur = .startOnNew t h := by simpa using away
    have own : a.Ok a.cur (.startOnNew t h) := onNew ▸ inv.ok_cur
    rw [stack, onNew, Pc.stack, own.2.1] at deferred
    cases deferred

/-- A running task that has begun can give up the processor without being lost. -/
theorem Inv.leaving (inv : a.Inv strict) (begun : strict → a.at_ a.cur ≠ .prologue)
    (strictly : strict) : a.Leaving := by
  obtain ⟨placed, current, resumes⟩ := inv.conserved strictly
  refine ⟨placed, fun _ => ?_, resumes⟩
  rcases current with running | first | waits
  · exact .inl running
  · exact absurd first (begun strictly)
  · exact .inr waits

/-- The running task stops; the task that waits for it is queued. -/
@[simps] def stop (rq : Rq) (a : Life) : Life :=
  { a with
    state := update a.state a.cur .stopped
    rq := rq
    scheduled := match a.joiner a.cur with
      | none => a.scheduled
      | some j => update a.scheduled j true }

/-- The queue once the joiner of the running task, if there is one, was pushed. -/
def Woken (rq : Rq) (a : Life) : Prop :=
  rq.sleepqueue = a.rq.sleepqueue ∧ rq.runqueue.Perm (match a.joiner a.cur with
    | none => a.rq.runqueue
    | some j => some j :: a.rq.runqueue)

/-- A task that stops leaves everything in order for the yield that follows. -/
theorem Inv.stop (inv : a.Inv strict) {rq : Rq} (at_ : a.at_ a.cur = .user)
    (woken : Woken rq a) : (a.stop rq).Core ∧ (strict → (a.stop rq).Leaving) := by
  obtain ⟨asleep, pushed⟩ := woken
  have live : ∀ b, (a.stop rq).Live b ↔ a.Live b ∧ b ≠ a.cur := by
    intro b
    by_cases here : b = a.cur
    · simp [Live, here]
    · simp [Live, here]
  have joined : ∀ j, a.joiner a.cur = some j → a.Joining a.cur j ∧ j ≠ a.cur := fun j waits =>
    ⟨inv.joins _ j inv.live_cur waits, inv.not_joiner (by simp [at_]) inv.live_cur waits⟩
  have queued : ∀ b, some b ∈ rq.runqueue ↔
      some b ∈ a.rq.runqueue ∨ a.joiner a.cur = some b := by
    intro b
    rw [pushed.mem_iff]
    cases waits : a.joiner a.cur with
    | none => simp
    | some j => simp [eq_comm, or_comm]
  have awaits : ∀ j, a.joiner a.cur = some j → a.Live j := fun j waits =>
    ⟨(joined j waits).1.2.1, by simp [(joined j waits).1.1]⟩
  obtain ⟨holder, active⟩ := inv.active
  have keeps : ∀ o, Keeps o a (a.stop rq) := by
    intro o
    constructor
    · exact fun h busy => ⟨busy, rfl, rfl⟩
    · intro t owned
      refine ⟨rfl, rfl, fun stopped => ?_⟩
      by_cases here : t = a.cur
      · simp [here]
      · simpa [here] using stopped
    · intro t built
      have other : t ≠ a.cur := by
        rintro rfl
        simp [active] at built
      exact ⟨id, rfl, rfl, by simp [other]⟩
    · exact fun m back => back
  have off : some a.cur ∉ a.rq.runqueue := (List.nodup_cons.mp inv.queues.nodup).1
  have queues : (a.stop rq).Queues := by
    obtain ⟨running, awake, nonNull, nodup, runnable⟩ := inv.queues
    refine ⟨running, asleep.trans awake, ?_, ?_, ?_⟩
    · show none ∉ rq.runqueue
      rw [pushed.mem_iff]
      split
      · exact nonNull
      · simpa using nonNull
    · show (some a.cur :: rq.runqueue).Nodup
      refine (pushed.cons _).nodup_iff.mpr ?_
      split
      · exact nodup
      · rename_i j waits
        obtain ⟨⟨-, -, absent, -⟩, other⟩ := joined j waits
        refine ((List.Perm.swap _ _ _).nodup_iff).mpr (List.nodup_cons.mpr ⟨?_, nodup⟩)
        simpa [other] using absent
    · intro b member
      rw [live]
      rcases (queued b).mp member with old | waits
      · refine ⟨runnable b old, ?_⟩
        rintro rfl
        exact off old
      · exact ⟨awaits b waits, (joined b waits).2⟩
  have joins : ∀ b j, (a.stop rq).Live b → a.joiner b = some j → (a.stop rq).Joining b j := by
    intro b j going waits
    obtain ⟨old, other⟩ := (live b).mp going
    obtain ⟨waiting, task, absent, h, wanted, where_, points, busy⟩ := inv.joins b j old waits
    have away := inv.not_joiner (by simp [at_]) old waits
    refine ⟨by simpa [away] using waiting, task, ?_, h, wanted, where_, points, busy⟩
    intro member
    rcases (queued j).mp member with old | same
    · exact absent old
    · -- One task waits at one handle, and that handle refers to one task.
      obtain ⟨⟨-, -, -, g, wanted', where', points', -⟩, -⟩ := joined j same
      have handle : g = h := by
        rcases where_ with here | ⟨here, -⟩ <;> rcases where' with there | ⟨there, -⟩ <;>
          simp_all
      rw [handle, points] at points'
      exact other (by simpa using points')
  have idle : Idle (fun b => (a.phase b).kind) (update a.state a.cur .stopped)
      a.joiner (a.stop rq).scheduled := by
    obtain ⟨gone, building⟩ := inv.idle
    refine ⟨?_, ?_⟩
    · intro b kind
      by_cases here : b = a.cur
      · simp [here]
      · simpa [here] using gone b kind
    · intro b kind
      have away : b ≠ a.cur := by
        rintro rfl
        simp [active, Phase.kind] at kind
      cases waits : a.joiner a.cur with
      | none => simpa [waits, away] using building b kind
      | some j =>
        have other : b ≠ j := by
          rintro rfl
          obtain ⟨⟨holder, task⟩, -⟩ := awaits b waits
          simp [task, Phase.kind] at kind
        simpa [waits, other, away] using building b kind
  constructor
  · exact
      { queues
        active := ⟨holder, active⟩
        places := inv.places
        calls := fun o going => (keeps o).ok _ (inv.calls o ((live o).mp going).1)
        onStack := fun o going => inv.onStack o ((live o).mp going).1
        busy := by
          intro h o work
          obtain ⟨going, handle⟩ := inv.busy h o work
          refine ⟨(live o).mpr ⟨going, ?_⟩, handle⟩
          rintro rfl
          simp [at_, Pc.handle] at handle
        free := inv.free
        joins
        records := inv.records
        offStack := inv.offStack
        idle
        finishes := by
          intro b holder task detached
          obtain ⟨unheld, going⟩ := inv.finishes b holder task detached
          refine ⟨unheld, ?_⟩
          by_cases here : b = a.cur
          · exact .inr here
          · exact .inl (by simpa [here] using going) }
  · intro strictly
    obtain ⟨placed, -, resumes⟩ := inv.conserved strictly
    refine ⟨?_, fun going => absurd rfl ((live _).mp going).2, ?_⟩
    · intro b going
      obtain ⟨old, other⟩ := (live b).mp going
      rcases placed b old with here | member | ⟨t, running, waits⟩
      · exact absurd here other
      · exact .inr (.inl ((queued b).mpr (.inl member)))
      · by_cases own : t = a.cur
        · exact .inr (.inl ((queued b).mpr (.inr (own ▸ waits))))
        · exact .inr (.inr ⟨t, (live t).mpr ⟨running, own⟩, waits⟩)
    · intro b going other
      exact resumes b ((live b).mp going).1 other

end Gthread.Life

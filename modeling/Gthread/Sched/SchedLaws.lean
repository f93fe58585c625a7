import Gthread.Sched.SchedOrder

/-! What holds in every run of programs whose joins and detaches of a handle do not overlap. -/

namespace Gthread

open Function (update update_of_ne update_self)

/-- The statements of `join` and `detach` on a handle. -/
def Pc.consumes (h : HandleId) : Pc → Bool
  | .joinYield g _ | .take g _ | .returning g | .returnLocked _ g | .returnDestroy _ g
  | .clearHandle g => g = h
  | _ => false

/-- Whether a label is a call of `join`. -/
def Label.isJoin : Label → Bool
  | .call (.join _ _) _ => true
  | _ => false

namespace Sys

variable {strict : Prop} {s s' : Sys} {l : Label} {host : Addr} {tick : Int} {maxSize : Nat}

/-- The statement a task is at, or was at when it was last saved. -/
def at_ (s : Sys) (o : Addr) : Pc :=
  if o = s.cur then s.pc.base else (s.tasks o).ctx.resume.pc.base

/--
What a program may do next if no join or detach begins beside another call on its handle.

A second join of a task that has a joiner throws, and does no harm.
-/
def Linear (s : Sys) : Label → Prop
  | .call (.spawn _ _ _ h) _ => s.busy h = none
  -- Nobody sleeps.
  | .call (.sleepFor _ _) _ => False
  | .call (.join h _) _ =>
    s.busy h = none ∨ (s.handles h).any (fun t => (s.tasks t).joiner.isSome) = true
  | .call (.detach h) _ => s.busy h = none
  -- Handles are not copied, but an empty one or the handle itself may be assigned.
  | .call (.assign dst src) _ => dst = src ∨ (s.busy dst = none ∧ s.handles src = none)
  | _ => True

instance (s : Sys) : (l : Label) → Decidable (s.Linear l)
  | .call (.spawn _ _ _ h) _ => inferInstanceAs (Decidable (s.busy h = none))
  | .call (.sleepFor _ _) _ => .isFalse id
  | .call (.join _ _) _ => inferInstanceAs (Decidable (_ ∨ _))
  | .call (.detach h) _ => inferInstanceAs (Decidable (s.busy h = none))
  | .call (.assign _ _) _ => inferInstanceAs (Decidable (_ ∨ _))
  | .call .yield _ | .call (.exit _) _ | .trap _ | .run _ _ => .isTrue trivial

/-- What a program may do next if its joins may also run beside each other. -/
def Uncopied (s : Sys) (l : Label) : Prop := s.Linear l ∨ l.isJoin = true

instance (s : Sys) (l : Label) : Decidable (s.Uncopied l) := inferInstanceAs (Decidable (_ ∨ _))

/-- A timer trap is not taken between a task's first switch and its first run state. -/
def Begun (s : Sys) : Label → Prop
  | .trap _ => s.flag = false → s.pc.base ≠ .prologue
  | _ => True

instance (s : Sys) : (l : Label) → Decidable (s.Begun l)
  | .trap _ => inferInstanceAs (Decidable (_ → _))
  | .call _ _ | .run _ _ => .isTrue trivial

/-- Every step of such a program keeps the system in order. -/
theorem inOrder_step (order : s.InOrder strict) (linear : s.Linear l) (begun : strict → s.Begun l)
    (ok : s.step l = .ok s') : s'.InOrder strict := by
  cases l with
  | trap clock => exact inOrder_trap order ok begun
  | run clock fresh => exact inOrder_run order ok
  | call c clock =>
    unfold step at ok
    dsimp only at ok
    split at ok
    case isFalse => cases ok
    case isTrue at_ =>
      cases c with
      | spawn a entry arg h => exact inOrder_spawn order at_ linear ok
      | yield =>
        obtain ⟨phase, inv⟩ := order
        refine inOrder_yieldLocked inv ok trivial ?_ ?_ ?_ ?_ ?_
        all_goals simp [at_, Pc.base]
      | sleepFor start duration => exact linear.elim
      | join h wanted =>
        refine inOrder_join order at_ (linear.imp_right fun joined => ?_) ok
        obtain ⟨t, points, joiner⟩ := Option.any_eq_true _ _ |>.mp joined
        exact ⟨t, points, Option.isSome_iff_ne_none.mp joiner⟩
      | detach h => exact inOrder_detach order at_ linear ok
      | exit value => exact inOrder_exit order at_ ok
      | assign dst src =>
        simp only [call, Except.ok.injEq] at ok
        exact ok ▸ inOrder_assign order at_ linear

/-- A node that was just started is in order: its host runs, and nothing else exists. -/
theorem inOrder_start (strict : Prop) (host : Addr) (tick : Int) (maxSize : Nat) :
    (start host tick maxSize).InOrder strict := by
  let phase : Addr → Phase := update (fun _ => .unmapped) host (.active none)
  have only : ∀ b, b ≠ host → phase b = .unmapped := fun b other => update_of_ne other ..
  have here : phase host = .active none := update_self ..
  have kind : ∀ b, (phase b).kind = if b = host then .active false else .gone := by
    intro b
    by_cases same : b = host
    · simp [same, here, Phase.kind]
    · simp [same, only b same, Phase.kind]
  have task : ∀ b, (start host tick maxSize).tasks b = if b = host
      then Task.wrapCurrent .zero host else Task.construct .zero 0 false := by
    intro b
    exact Function.update_apply (fun _ => Task.construct Pc.zero 0 false) host _ b
  have live : ∀ b, ((start host tick maxSize).life phase).Live b ↔ b = host := by
    intro b
    by_cases same : b = host
    · simp [Life.Live, same, here, task, Task.wrapCurrent]
    · simp [Life.Live, same, only b same]
  have calm : ∀ b, ((start host tick maxSize).tasks b).joiner = none ∧
      ((start host tick maxSize).tasks b).detached = false ∧
      ((start host tick maxSize).tasks b).spawn = 0 := by
    intro b
    rw [task]
    split
    · exact ⟨rfl, rfl, rfl⟩
    · exact ⟨rfl, rfl, rfl⟩
  refine ⟨phase, ?_⟩
  exact
    { queues := ⟨rfl, rfl, by simp [start, Node.startAsync], by simp [start, Node.startAsync],
        by simp [start, Node.startAsync]⟩
      active := ⟨none, here⟩
      places := by
        constructor
        case absent =>
          intro b
          by_cases same : b = host
          · simp [same, here, start, Node.startAsync]
          · simp [same, only b same, start, Node.startAsync]
        case nodup => simp [start, Node.startAsync]
        case kept => rfl
        all_goals
          intro b
          by_cases same : b = host
          · simp [same, here, start, Node.startAsync]
          · simp [only b same, start, Node.startAsync]
      calls := by
        intro o going
        rw [(live o).mp going, life_at_]
        simp [start, Node.startAsync, Pc.base, Life.Ok]
      onStack := by
        intro o going
        rw [(live o).mp going]
        simp [start, Node.startAsync, Pc.base, Pc.stack]
      busy := by simp [start]
      free := by simp [start]
      joins := by
        intro b j _ joined
        rw [life_joiner, (calm b).1] at joined
        cases joined
      records := by
        constructor
        case distinct =>
          intro b c pending pending' _
          have same : ∀ b, (phase b).kind ≠ .gone → b = host := by
            intro b pending
            by_contra other
            simp [kind, other] at pending
          rw [same b pending, same c pending']
        case pending =>
          intro b _
          rw [life_spawn, (calm b).2.2]
          simp [start, Node.startAsync]
        case gone =>
          intro b _
          exact .inr (calm b).2.2
        case spawned =>
          intro b spawned
          simp only [life_phase, kind] at spawned
          split at spawned <;> simp at spawned
        all_goals simp [kind, start, Node.startAsync]
      offStack := by simp [start, Node.startAsync]
      idle := by
        constructor
        · intro b idle
          by_cases same : b = host
          · simp [kind, same] at idle
          · simp [task, same, Task.construct]
        · intro b building
          simp only [life_phase, kind] at building
          split at building <;> cases building
      finishes := by
        intro b holder _ detached
        rw [life_detached, (calm b).2.1] at detached
        cases detached
      going := ((live host).mpr rfl).2
      saved := by simp [start, Node.startAsync, Pc.base]
      conserved := by
        intro _
        refine ⟨fun b going => .inl ((live b).mp going), .inl ?_, ?_⟩
        · simp [start, Node.startAsync, Task.wrapCurrent]
        · intro b going other
          exact absurd ((live b).mp going) other }

/-- The calls that work on a handle are those that fill it and those that consume it. -/
theorem fills_or_consumes {a : Life} {o : Addr} {p : Pc} {h : HandleId} (own : a.Ok o p)
    (handle : p.handle = some h) : a.Fills o h ∨ p.consumes h = true := by
  cases p
  all_goals simp_all [Pc.handle, Pc.consumes, Life.Ok]

/-- A clock that stands still. -/
def stillClock : Clock := ⟨0, 0, 0, id⟩

/-- A clock reading at which the running task is charged and the next one starts. -/
def clockAt (now : Int) : Clock := ⟨now, now, 0, id⟩

/-- The labels of a whole `spawn` into a handle, whose block gets the address `t`. -/
def spawnInto (a : Attr) (h : HandleId) (t : Addr) : List Label :=
  .call (.spawn a (some 7) 0 h) stillClock :: List.replicate 7 (.run stillClock t)

/-- The task in block `1` exits, and the one in block `2` joins it, up to the assertion. -/
def joinStoppedLabels : List Label :=
  List.flatten [spawnInto kLightAttr 0 1, spawnInto kLightAttr 1 2,
    [.trap (clockAt 5000), .run stillClock 0, .call (.exit 5) (clockAt 6000), .run stillClock 0,
      .call (.join 0 true) stillClock]]

/-- The timer gives the processor to the host, whose join of the same task runs to its end. -/
def joinAlsoLabels : List Label :=
  [.trap (clockAt 20000), .run stillClock 0, .call (.join 0 true) stillClock] ++
    List.replicate 4 (.run stillClock 0)

/-- Where a task can be that was scheduled and has not stopped. -/
inductive Place where
  | running
  | queued
  -- Descheduled by `join` until the task it waits for exits.
  | joining
  deriving DecidableEq, Repr

/-- A task is in a place. -/
def In (s : Sys) (b : Addr) : Place → Prop
  | .running => b = s.cur
  | .queued => s.rq.runqueue.count (some b) = 1
  | .joining => b ≠ s.cur ∧ (s.tasks b).runState = .waiting ∧
      ∃ t, (s.tasks t).runState ≠ .stopped ∧ (s.tasks t).joiner = some b

/-- Every task is in one place, and the run queue holds tasks that can run. -/
structure Conserves (s : Sys) : Prop where
  placed : ∀ b, (s.tasks b).scheduled = true → (s.tasks b).runState ≠ .stopped →
    ∃! place, s.In b place
  nodup : s.rq.runqueue.Nodup
  nonNull : none ∉ s.rq.runqueue
  going : ∀ b, some b ∈ s.rq.runqueue → (s.tasks b).runState ≠ .stopped

/-- A block that is not stopped belongs to a task, or to one that is being started. -/
theorem live_or_building {phase : Addr → Phase} {b : Addr} (core : (s.life phase).Core)
    (going : (s.tasks b).runState ≠ .stopped) :
    (s.life phase).Live b ∨ (phase b).kind = .building := by
  have idle := core.idle.gone b
  cases task : phase b with
  | active holder => exact .inl ⟨⟨holder, task⟩, going⟩
  | building o => exact .inr rfl
  | deferred => exact absurd (idle (.inr (by simp [task, Phase.kind]))) going
  | _ => exact absurd (idle (.inl (by simp [task, Phase.kind]))) going

/-- A task that waits for one that has not stopped is not in the run queue. -/
theorem joining_of_joiner {phase : Addr → Phase} {t b : Addr} (inv : (s.life phase).Inv strict)
    (going : (s.tasks t).runState ≠ .stopped) (joined : (s.tasks t).joiner = some b) :
    (s.life phase).Joining t b := by
  rcases live_or_building inv.toCore going with live | building
  · exact inv.joins t b live joined
  · rcases (inv.idle.building t building).2 with stopped | unjoined
    · exact absurd stopped going
    · rw [show (s.tasks t).joiner = none from unjoined] at joined
      cases joined

/-- In every run in which no trap hits a prologue, no task is lost. -/
theorem conserves_of_begun
    (reached : Run.Reaches step (fun s l => s.Linear l ∧ s.Begun l) (start host tick maxSize) s) :
    s.Conserves := by
  obtain ⟨phase, inv⟩ : s.InOrder True :=
    reached.invariant (inOrder_start True host tick maxSize) fun _ _ _ order admitted ok =>
      inOrder_step order admitted.1 (fun _ => admitted.2) ok
  obtain ⟨off, nodup⟩ := List.nodup_cons.mp inv.queues.nodup
  refine ⟨?_, nodup, inv.queues.nonNull, fun b queued => (inv.queues.live b queued).2⟩
  intro b scheduled going
  have live : (s.life phase).Live b := by
    rcases live_or_building inv.toCore going with live | building
    · exact live
    · rw [show (s.tasks b).scheduled = false from (inv.idle.building b building).1] at scheduled
      cases scheduled
  by_cases here : b = s.cur
  · refine ⟨.running, here, ?_⟩
    rintro (_ | _ | _) there
    · rfl
    · have queued : some b ∈ s.rq.runqueue := List.count_pos_iff.mp (there ▸ Nat.one_pos)
      subst here
      exact absurd queued off
    · exact absurd here there.1
  by_cases queued : some b ∈ s.rq.runqueue
  · refine ⟨.queued, List.count_eq_one_of_mem nodup queued, ?_⟩
    rintro (_ | _ | _) there
    · exact absurd there here
    · rfl
    · obtain ⟨-, -, t, running, joined⟩ := there
      exact absurd queued (joining_of_joiner inv running joined).2.2.1
  · refine ⟨.joining, ?_, ?_⟩
    · rcases (inv.conserved trivial).placed b live with run | member | ⟨t, running, joined⟩
      · exact absurd run here
      · exact absurd member queued
      · exact ⟨here, (inv.joins t b running joined).1, t, running.2, joined⟩
    · rintro (_ | _ | _) there
      · exact absurd there here
      · exact absurd (List.count_pos_iff.mp (there ▸ Nat.one_pos)) queued
      · rfl

/-- Traps that hit the spawner and the task after its prologue lose neither. -/
theorem conserves_of_begun_yield : ∃ s, Run.Reaches step (fun s l => s.Linear l ∧ s.Begun l)
    (start 0 0 4) s ∧ s.cur = 1 ∧ s.rq.runqueue = [some 0] ∧ s.Conserves := by
  let labels := spawnInto kLightAttr 0 1 ++ [.trap stillClock, .run stillClock 0,
    .call .yield (clockAt 5000), .run stillClock 0, .trap stillClock]
  suffices run : ∃ s, Run.Reaches step (fun s l => s.Linear l ∧ s.Begun l) (start 0 0 4) s ∧
      s.cur = 1 ∧ s.rq.runqueue = [some 0] by
    obtain ⟨s, reached, cur, queue⟩ := run
    exact ⟨s, reached, cur, queue, conserves_of_begun reached⟩
  exact Run.Reaches.of_check labels (by decide +kernel)

/-- A trap in the prologue loses the task: it was scheduled, is not stopped, and is nowhere. -/
theorem prologue_trap_loses : ∃ s, Run.Reaches step Linear (start 0 0 4) s ∧ ¬ s.Conserves := by
  let labels := spawnInto kLightAttr 0 1 ++ [.call .yield (clockAt 5000), .trap stillClock]
  suffices run : ∃ s, Run.Reaches step Linear (start 0 0 4) s ∧ s.cur = 0 ∧ s.rq.runqueue = [] ∧
      (s.tasks 1).runState = .suspended ∧ (s.tasks 1).scheduled = true by
    obtain ⟨s, reached, cur, queue, suspended, scheduled⟩ := run
    refine ⟨s, reached, fun conserves => ?_⟩
    obtain ⟨place, there, -⟩ := conserves.placed 1 scheduled (by simp [suspended])
    cases place
    · simp [In, cur] at there
    · simp [In, queue] at there
    · simp [In, suspended] at there
  exact Run.Reaches.of_check labels (by decide +kernel)

end Sys

end Gthread

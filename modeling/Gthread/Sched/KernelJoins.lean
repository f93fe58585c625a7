import Gthread.Sched.JoinProtocol
import Gthread.Sched.KernelPlaces
import Gthread.Sched.SchedBuilds

/-! The join protocol on the whole kernel thread, where tasks also sleep in waiters. -/

namespace Gthread

open Function (update update_of_ne update_self)

namespace Sys

variable {strict : Prop} {s s' : Sys} {phase : Addr → Phase} {clock : Clock} {b q t j host : Addr}
  {h : HandleId}

/-- What a statement of a waiter leaves alone, as far as spawns and joins go. -/
structure Aside (host : Addr) (phase : Addr → Phase) (s s' : Sys) : Prop where
  handles : s'.handles = s.handles
  busy : s'.busy = s.busy
  owner : s'.owner = s.owner
  next : s'.next = s.next
  exits : s'.exits = s.exits
  joined : s'.joined = s.joined
  at_ : ∀ b, s'.at_ b = s.at_ b
  stands : ∀ b, (s.tasks b).Stands (s'.tasks b)
  serves : ∀ b, (s.tasks b).scheduled = true → (s'.tasks b).scheduled = true
  known : ∀ b, (s'.tasks b).scheduled = true → b = host ∨ (s.tasks b).scheduled = true
  entry : ∀ b, (s'.tasks b).entry = (s.tasks b).entry
  stopped : ∀ b, (s'.tasks b).runState = .stopped ↔ (s.tasks b).runState = .stopped
  joiner : ∀ b, (s'.tasks b).joiner = (s.tasks b).joiner
  making : ∀ b o, phase b = .building o →
    (s'.tasks b).noPreemptFlag = (s.tasks b).noPreemptFlag ∧ (s'.tasks b).ctx = (s.tasks b).ctx
  -- Only tasks in code of the program come to the queue, or leave the processor.
  queued : ∀ b, some b ∈ s.rq.runqueue → some b ∈ s'.rq.runqueue
  runnable : ∀ b, s'.Runnable b → s.Runnable b ∨ s.at_ b = .user

/-- A statement that does nothing to the system leaves all of this alone. -/
theorem Aside.refl (host : Addr) (phase : Addr → Phase) (s : Sys) : s.Aside host phase s where
  handles := rfl
  busy := rfl
  owner := rfl
  next := rfl
  exits := rfl
  joined := rfl
  at_ _ := rfl
  stands b := .refl (s.tasks b)
  serves _ := id
  known _ := .inr
  entry _ := rfl
  stopped _ := Iff.rfl
  joiner _ := rfl
  making _ _ _ := ⟨rfl, rfl⟩
  queued _ := id
  runnable _ := .inl

/-- Results of spawns are left alone. -/
theorem Aside.outcomes (aside : s.Aside host phase s') (outcomes : s.Outcomes) : s'.Outcomes :=
  outcomes.still aside.stands aside.next aside.exits aside.handles aside.owner aside.joined

/-- The calls of the other tasks keep what they rely on. -/
theorem Aside.calls (aside : s.Aside host phase s') (inv : (s.life phase).Inv strict)
    (base : s.pc.base = .user) (calls : s.Calls) : s'.Calls := by
  refine calls.keep inv ?_ ?_ ?_ ?_ ?_ ?_ ?_
  · intro h o works _
    rw [aside.busy] at works
    exact ⟨works, congrFun aside.handles h, congrFun aside.owner h⟩
  · intro m member
    rwa [aside.exits]
  · intro o _ _
    exact aside.at_ o
  · intro t o building _
    exact aside.making t o building
  · intro t _ _
    exact aside.serves t
  · -- Whoever was told of an end was queued, and still is.
    intro h o t works other _ _ told
    refine ⟨fun ended => ?_, fun going => (aside.joiner t).trans (told.2 fun ended => ?_)⟩
    · have can := told.1 ((aside.stopped t).mp ended)
      exact .inr (aside.queued o (can.resolve_left other))
    · exact going ((aside.stopped t).mpr ended)
  · intro h works
    rw [aside.busy] at works
    exact absurd works (idle_of_user inv base)

/-- A task in a join goes on waiting. -/
theorem Aside.waits (aside : s.Aside host phase s') (inv : (s.life phase).Inv strict)
    {phase' : Addr → Phase} (inv' : (s'.life phase').Inv strict) (waits : s.Waits j t) :
    s'.Waits j t := by
  obtain ⟨going, joins⟩ := waits.target
  have going' : (s'.tasks t).runState ≠ .stopped := fun ended => going ((aside.stopped t).mp ended)
  have joins' : (s'.tasks t).joiner = some j := (aside.joiner t).trans joins
  refine ⟨⟨going', joins'⟩, (joining_of_joiner inv' going' joins').1, fun can => ?_⟩
  rcases aside.runnable j can with before | user
  · exact waits.dormant before
  · -- It is inside its join, and not in code of the program.
    obtain ⟨-, -, -, h, wanted, inside, -⟩ := joining_of_joiner inv going joins
    have here : (s.life phase).at_ j = .user := user
    rcases inside with yielding | ⟨taking, -⟩
    · exact absurd (yielding.symm.trans here) (by simp)
    · exact absurd (taking.symm.trans here) (by simp)

/-- A task that marks itself as waiting. -/
theorem mark_aside (inv : (s.life phase).Inv strict) :
    s.Aside host phase (s.write s.cur (Task.setState .waiting)) := by
  have same : ∀ {β : Type} (field : Task Pc → β),
      (∀ u, field (Task.setState .waiting u) = field u) → ∀ b,
      field ((s.write s.cur (Task.setState .waiting)).tasks b) = field (s.tasks b) :=
    fun field keeps b => write_field field s.cur (Task.setState .waiting) keeps s b
  have stopped : ∀ b, ((s.write s.cur (Task.setState .waiting)).tasks b).runState = .stopped ↔
      (s.tasks b).runState = .stopped := by
    intro b
    rw [write_tasks]
    split_ifs with own
    · subst own
      exact ⟨fun ended => (by cases ended), fun ended => absurd ended inv.going⟩
    · exact Iff.rfl
  constructor
  case handles => rfl
  case busy => rfl
  case owner => rfl
  case next => rfl
  case exits => rfl
  case joined => rfl
  case at_ =>
    intro b
    rw [Sys.at_, Sys.at_, same Task.ctx (fun _ => rfl) b]
    rfl
  case stands =>
    intro b
    refine ⟨same Task.spawn (fun _ => rfl) b, .inl ⟨?_, stopped b, ?_⟩⟩
    · exact same Task.scheduled (fun _ => rfl) b
    · exact same Task.returnValue (fun _ => rfl) b
  case serves => exact fun b before => (same Task.scheduled (fun _ => rfl) b).trans before
  case known => exact fun b after => .inr ((same Task.scheduled (fun _ => rfl) b).symm.trans after)
  case entry => exact same Task.entry fun _ => rfl
  case stopped => exact stopped
  case joiner => exact same Task.joiner fun _ => rfl
  case making =>
    intro b _ _
    exact ⟨same Task.noPreemptFlag (fun _ => rfl) b, same Task.ctx (fun _ => rfl) b⟩
  case queued => exact fun _ => id
  case runnable => exact fun _ => .inl

/-- A task in code of the program that is woken. -/
theorem wake_aside (free : s.Free host q) (ok : s.wake q = .ok s') : s.Aside host phase s' := by
  have roused := wake_roused ok
  obtain ⟨-, rfl⟩ := wake_ok ok
  have perm := (Node.schedule_rq (s.modify q (Task.setState .suspended)) q).1
  have fields : ∀ b, ((s.modify q (Task.setState .suspended)).schedule q).tasks b =
      if b = q then ((s.tasks q).setState .suspended).enqueue s.rq.minVruntime else s.tasks b := by
    intro b
    by_cases here : b = q
    · simp [Node.schedule, here]
    · simp [Node.schedule, here]
  have stopped : ∀ b, (((s.modify q (Task.setState .suspended)).schedule q).tasks b).runState =
      .stopped ↔ (s.tasks b).runState = .stopped := by
    intro b
    rw [fields]
    split_ifs with target
    · subst target
      exact ⟨fun ended => (by cases ended), fun ended => absurd ended free.going⟩
    · exact Iff.rfl
  constructor
  case handles => rfl
  case busy => rfl
  case owner => rfl
  case next => rfl
  case exits => rfl
  case joined => rfl
  case at_ =>
    intro b
    rw [Sys.at_, Sys.at_, roused.ctx, roused.cur, roused.pc]
  case stands =>
    intro b
    show (s.tasks b).Stands (((s.modify q (Task.setState .suspended)).schedule q).tasks b)
    rw [fields]
    split_ifs with target
    · subst target
      refine ⟨rfl, ?_⟩
      -- The host may be scheduled here for the first time.
      cases serves : (s.tasks b).scheduled with
      | true => exact .inl ⟨rfl, ⟨fun ended => (by cases ended),
          fun ended => absurd ended free.going⟩, rfl⟩
      | false => exact .inr ⟨rfl, .inr (by simp)⟩
    · exact .refl _
  case serves => exact roused.serves
  case known =>
    intro b after
    by_cases target : b = q
    · exact target ▸ free.known
    · have after : (((s.modify q (Task.setState .suspended)).schedule q).tasks b).scheduled =
          true := after
      rw [fields, if_neg target] at after
      exact .inr after
  case entry =>
    intro b
    show (((s.modify q (Task.setState .suspended)).schedule q).tasks b).entry = _
    rw [fields]
    split_ifs with target
    · rw [target]
      rfl
    · rfl
  case stopped => exact stopped
  case joiner =>
    intro b
    show (((s.modify q (Task.setState .suspended)).schedule q).tasks b).joiner = _
    rw [fields]
    split_ifs with target
    · rw [target]
      rfl
    · rfl
  case making =>
    intro b _ _
    exact ⟨roused.flag b, roused.ctx b⟩
  case queued =>
    intro b member
    exact perm.mem_iff.mpr (List.mem_cons_of_mem _ member)
  case runnable =>
    intro b can
    rcases can with same | member
    · exact .inl (.inl same)
    · rcases roused.queued b member with target | before
      · exact .inr (target ▸ free.at_)
      · exact .inl (.inr before)

/-- What a swap leaves of the results and the entry functions that are kept in the blocks. -/
theorem fields_of_swapTo (ok : s.swapTo q clock = .ok s') (b : Addr) :
    (s'.tasks b).returnValue = (s.tasks b).returnValue ∧
      (s'.tasks b).entry = (s.tasks b).entry := by
  obtain ⟨-, n, rfl, -, switched⟩ := swapTo_ok ok
  rw [(switched.kept b).returnValue, (switched.kept b).entry, leaving_tasks]
  split_ifs with own
  · rw [own]
    exact ⟨rfl, rfl⟩
  · exact ⟨rfl, rfl⟩

/-- A task in code of the program that takes over from another one. -/
theorem swap_aside (inv : (s.life phase).Inv strict) (base : s.pc.base = .user)
    (free : s.Free host q) (balanced : s.Balanced host) (ok : s.swapTo q clock = .ok s') :
    s.Aside host phase s' := by
  obtain ⟨swapped, -, ⟨handles, busy, owner⟩, -, -, next⟩ := swapTo_swapped ok
  have value := fun b => (fields_of_swapTo ok b).1
  have entry := fun b => (fields_of_swapTo ok b).2
  have runs := swapped.runs balanced free
  have histories : s'.exits = s.exits ∧ s'.joined = s.joined := by
    obtain ⟨-, n, rfl, -⟩ := swapTo_ok ok
    exact ⟨rfl, rfl⟩
  have stopped : ∀ b, (s'.tasks b).runState = .stopped ↔ (s.tasks b).runState = .stopped := by
    intro b
    by_cases own : b = s.cur
    · rw [own, swapped.left]
      exact ⟨fun ended => (by cases ended), fun ended => absurd ended inv.going⟩
    by_cases target : b = q
    · rw [target, runs]
      exact ⟨fun ended => (by cases ended), fun ended => absurd ended free.going⟩
    · rw [swapped.state b own target]
  constructor
  case handles => exact handles
  case busy => exact busy
  case owner => exact owner
  case next => exact next
  case exits => exact histories.1
  case joined => exact histories.2
  case at_ => exact swapped.at_ base
  case stands =>
    intro b
    obtain ⟨-, -, -, spawn, scheduled⟩ := swapped.kept b
    exact ⟨spawn, .inl ⟨scheduled, stopped b, value b⟩⟩
  case serves => exact fun b before => (swapped.kept b).2.2.2.2.trans before
  case known => exact fun b after => .inr ((swapped.kept b).2.2.2.2.symm.trans after)
  case entry => exact entry
  case stopped => exact stopped
  case joiner => exact fun b => (swapped.kept b).2.1
  case making =>
    intro b o building
    have other := building_ne_cur inv building
    refine ⟨?_, swapped.ctx b other⟩
    rw [swapped.flag, if_neg other]
  case queued =>
    intro b member
    rwa [swapped.rq]
  case runnable =>
    intro b can
    rcases can with same | member
    · -- The task that runs now was inside a waiter.
      rw [swapped.cur] at same
      exact .inr (same ▸ free.at_)
    · rw [swapped.rq] at member
      exact .inl (.inr member)

end Sys

namespace Kernel

open Lot (takesAt)

variable {strict : Prop} {k k' : Kernel} {l : KernelLabel} {clock : Clock} {w : WaiterId}
  {pc : WaiterPc Addr} {h : HandleId} {host j t : Addr} {tick : Int} {maxSize : Nat}

/-- A statement of a waiter is its yield, or it leaves spawns and joins alone. -/
theorem Parks.aside_of_wait {holds : Bool} {phase : Addr → Phase} (parks : k.Parks host)
    (inv : (k.toSys.life phase).Inv strict) (at_ : k.pc = .user)
    (here : k.inside k.cur = some (w, pc)) (ok : k.wait w pc clock holds = .ok k') :
    k.toSys.step (.call .yield clock) = .ok k'.toSys ∨ k.toSys.Aside host phase k'.toSys := by
  have base : k.pc.base = .user := by
    rw [at_]
    rfl
  cases pc with
  | mark =>
    obtain rfl := Except.ok.inj ok
    exact .inr (Sys.mark_aside inv)
  | yield =>
    obtain ⟨-, s, yields, rfl⟩ := throughNode_ok ok
    refine .inl ?_
    rw [Sys.step, if_pos at_]
    exact yields
  | wake q =>
    simp only [Kernel.wait] at ok
    split at ok
    · cases ok
    · obtain ⟨-, s, wakes, rfl⟩ := throughNode_ok ok
      have took : takesAt (k.inside k.cur) = some (w, q) := by
        rw [here]
        rfl
      exact .inr (Sys.wake_aside (parks.ready took).1 wakes)
  | switch q =>
    obtain ⟨-, s, swaps, rfl⟩ := throughNode_ok ok
    have took : takesAt (k.inside k.cur) = some (w, q) := by
      rw [here]
      rfl
    exact .inr (Sys.swap_aside inv base (parks.ready took).1 parks.ordered.balanced swaps)
  | _ =>
    -- The other statements leave the whole system alone.
    have same : k'.toSys = k.toSys := by
      simp only [Kernel.wait] at ok
      try split at ok
      all_goals
        rw [← Except.ok.inj ok]
        rfl
    rw [same]
    exact .inr (.refl host phase k.toSys)

/-- A step of the kernel thread is one of the scheduler, or leaves spawns and joins alone. -/
theorem Parks.steps {phase : Addr → Phase} (parks : k.Parks host)
    (inv : (k.toSys.life phase).Inv strict) (undisturbed : k.Undisturbed l)
    (ok : k.step l = .ok k') :
    (∃ m, k.toSys.Linear m ∧ k.toSys.step m = .ok k'.toSys ∧
      ((∃ value clock, m = .call (.exit value) clock) → l = .sched m)) ∨
    (k.pc = .user ∧ k.toSys.Aside host phase k'.toSys) := by
  cases l with
  | sched l =>
    have scheduled := sched_ok ok
    exact .inl ⟨l, undisturbed.1, scheduled.step, fun _ => rfl⟩
  | enter w c =>
    simp only [Kernel.step] at ok
    split at ok
    · rename_i outside
      rw [← Except.ok.inj ok]
      exact .inr ⟨outside.1, .refl host phase k.toSys⟩
    · cases ok
  | wait clock holds =>
    simp only [Kernel.step] at ok
    split at ok
    · rename_i at_
      split at ok
      · cases ok
      · rename_i w pc here
        rcases parks.aside_of_wait inv at_ here ok with yields | aside
        · refine .inl ⟨.call .yield clock, trivial, yields, ?_⟩
          rintro ⟨value, clock, exits⟩
          cases exits
        · exact .inr ⟨at_, aside⟩
    · cases ok

/-- What the calls and the results of a system satisfy, while some tasks sleep in waiters. -/
structure Joint (host : Addr) (k : Kernel) : Prop where
  complete : k.Complete False host
  outcomes : k.toSys.Outcomes
  calls : k.toSys.Calls

/-- A task in a join whose target has stopped can run on. -/
theorem Complete.alert (complete : k.Complete strict host) : k.toSys.Alert := by
  obtain ⟨phase, inv⟩ := complete.parks.ordered.order
  rcases complete.returns with returns | asleep
  · exact Sys.alert_of_current inv returns
  · -- A task inside a waiter is in no join.
    intro h t busy
    exact absurd busy (Sys.idle_of_user inv (complete.parks.base asleep.1))

/-- The start of a program satisfies it. -/
theorem joint_boot (host : Addr) (tick : Int) (maxSize : Nat) :
    (boot host tick maxSize).Joint host := by
  have joint := Sys.joint_start host tick maxSize
  exact ⟨complete_boot False host tick maxSize, joint.outcomes, joint.calls⟩

/-- Every step keeps it, while no exchange is stale. -/
theorem Joint.step (joint : k.Joint host) (undisturbed : k.Undisturbed l)
    (ok : k.step l = .ok k') : k'.Joint host := by
  have complete := joint.complete
  have named := complete.parks.ordered.named
  obtain ⟨phase, inv⟩ := complete.parks.ordered.order
  have kept := complete.step undisturbed False.elim ok
  rcases complete.parks.steps inv undisturbed ok with ⟨m, linear, steps, -⟩ | ⟨at_, aside⟩
  · have published : ∀ t h, k.pc = .spawned t h → (k.tasks t).scheduled = true := by
      intro t h at_
      have before := joint.calls h k.cur (Sys.ok_at inv at_).1.1
      rwa [Sys.at_cur, at_] at before
    exact ⟨kept, joint.outcomes.step named inv linear published steps,
      joint.calls.step complete.alert joint.outcomes named inv linear steps⟩
  · have base : k.pc.base = .user := by
      rw [at_]
      rfl
    exact ⟨kept, aside.outcomes joint.outcomes, aside.calls inv base joint.calls⟩

/-- What is left of a join after its assertion runs once the spawn of its handle has exited. -/
theorem Joint.ended_of_past (joint : k.Joint host) (past : k.pc.base.past = true)
    (handle : k.pc.base.handle = some h) : k.owner h ∈ k.exits.map Prod.fst := by
  obtain ⟨phase, inv⟩ := joint.complete.parks.ordered.order
  have own := Sys.ok_at inv (rfl : k.pc = k.pc)
  have owes : k.busy h = some k.cur → k.toSys.Owes h k.cur k.pc.base := by
    intro works
    have before := joint.calls h k.cur works
    rwa [Sys.at_cur] at before
  cases at_ : k.pc.base with
  | returning h' | returnLocked t h' | returnDestroy t h' | clearHandle h' =>
    rw [at_] at own handle owes
    cases handle
    exact owes own.1
  | _ => simp [at_, Pc.past] at past

/-- What a program whose tasks also sleep in waiters can rely on when it joins tasks. -/
structure JoinProtocol (k : Kernel) : Prop where
  -- The assertion that the joined task has stopped holds wherever it is reached.
  asserts : ∀ h wanted, k.pc = .take h wanted →
    ∀ clock fresh, ∃ k', k.step (.sched (.run clock fresh)) = .ok k'
  after : ∀ h, k.pc.base.past = true → k.pc.base.handle = some h →
    k.owner h ∈ k.exits.map Prod.fst
  result : ∀ r ∈ k.joined, r ∈ k.exits
  once : (k.exits.map Prod.fst).Nodup
  -- A task in a join that cannot run waits for the task of its handle, and in no waiter.
  dormant : ∀ h j, k.busy h = some j → (k.toSys.at_ j).joins = true → ¬ k.Runnable j →
    k.inside j = none ∧ ∃ t, k.handles h = some t ∧ k.toSys.Waits j t
  -- No unpark or swap wakes it: it waits until that task exits, and can run from then on.
  wakes : ∀ j t, k.toSys.Waits j t → ∀ l k', k.Undisturbed l → k.step l = .ok k' →
    k'.toSys.Waits j t ∨ ((∃ value clock, l = .sched (.call (.exit value) clock)) ∧ k.cur = t ∧
      (some k'.cur :: k'.rq.runqueue).count (some j) = 1)

/-- In every undisturbed run, joins keep to the protocol beside the waiters. -/
theorem join_protocol_of_undisturbed
    (reached : Run.Reaches step Undisturbed (boot host tick maxSize) k) : k.JoinProtocol := by
  have joint : k.Joint host := reached.invariant (joint_boot host tick maxSize)
    fun k l k' joint undisturbed ok => joint.step undisturbed ok
  have parks := joint.complete.parks
  obtain ⟨phase, inv⟩ := parks.ordered.order
  constructor
  case asserts =>
    intro h wanted at_ clock fresh
    obtain ⟨t, points, stopped⟩ := joint.calls.stopped_of_take inv at_
    -- The statement is no call, and enters neither the node nor a prologue.
    simp [Kernel.step, Kernel.sched, stepSys, Sys.entersNode, Label.isCall, Sys.step, Sys.run, at_,
      Sys.takeResult, points, stopped, Bind.bind, Except.bind, pure, Except.pure]
  case after => exact fun h past handle => joint.ended_of_past past handle
  case result => exact joint.outcomes.joined
  case once => exact joint.outcomes.once
  case dormant =>
    intro h j works joins off
    refine ⟨?_, joint.calls.waits_of_joins inv works joins off⟩
    by_contra inside
    rw [(parks.free j inside).at_] at joins
    cases joins
  case wakes =>
    intro j t waits l k' undisturbed ok
    obtain ⟨phase', inv'⟩ := (parks.step undisturbed ok).ordered.order
    rcases parks.steps inv undisturbed ok with ⟨m, linear, steps, same⟩ | ⟨-, aside⟩
    · rcases waits.step inv inv' linear steps with still | ⟨exits, here, can⟩
      · exact .inl still
      · obtain rfl := same exits
        obtain ⟨value, clock, rfl⟩ := exits
        refine .inr ⟨⟨value, clock, rfl⟩, here, List.count_eq_one_of_mem inv'.queues.nodup ?_⟩
        rcases can with same | queued
        · exact same ▸ List.mem_cons_self
        · exact List.mem_cons_of_mem _ queued
    · exact .inl (aside.waits inv inv' waits)

/-- The host joins a task that parks first, is unparked by another one, and exits with `5`. -/
def parkedJoinLabels : List KernelLabel :=
  List.flatten [(Sys.spawnInto kLightAttr 0 1 ++ Sys.spawnInto kLightAttr 1 2).map .sched,
    [.sched (.call (.join 0 true) Sys.stillClock), .sched (.run Sys.stillClock 0)],
    [.sched (.run Sys.stillClock 0), .enter 0 .parkIf],
    List.replicate 4 (.wait Sys.stillClock true),
    [.sched (.run Sys.stillClock 0), .enter 0 .unpark],
    List.replicate 4 (.wait Sys.stillClock true),
    [.sched (.call .yield Sys.stillClock), .sched (.run Sys.stillClock 0)],
    [.wait Sys.stillClock true, .sched (.call (.exit 5) Sys.stillClock)],
    List.replicate 5 (.sched (.run Sys.stillClock 0))]

/-- The join has slept through the park, and reports the result. -/
theorem join_protocol_of_undisturbed_parked : ∃ k,
    Run.Reaches step Undisturbed (boot 0 0 4) k ∧ k.cur = 0 ∧ k.joined = [(1, 5)] ∧
      k.JoinProtocol := by
  have run : ∃ k, Run.Reaches step Undisturbed (boot 0 0 4) k ∧ k.cur = 0 ∧ k.joined = [(1, 5)] :=
    Run.Reaches.of_check parkedJoinLabels (by decide +kernel)
  obtain ⟨k, reached, cur, joined⟩ := run
  exact ⟨k, reached, cur, joined, join_protocol_of_undisturbed reached⟩

end Kernel

end Gthread

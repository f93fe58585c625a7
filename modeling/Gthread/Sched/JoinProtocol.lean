import Gthread.Sched.SchedJoin

/-! The join protocol over whole runs: joins end after exits, report them, and are woken once. -/

namespace Gthread

open Function (update update_of_ne update_self)

namespace Sys

variable {strict : Prop} {s s' : Sys} {phase : Addr → Phase} {l : Label} {clock : Clock} {p : Pc}
  {t j host : Addr} {h : HandleId} {tick : Int} {maxSize : Nat}

/-- A step that stops no task in use, keeps who waits for them, and makes none runnable. -/
def Calm (phase : Addr → Phase) (s s' : Sys) : Prop :=
  ∀ b holder, phase b = .active holder →
    ((s'.tasks b).runState = .stopped → (s.tasks b).runState = .stopped) ∧
    (∀ j, (s.tasks b).joiner = some j → (s'.tasks b).joiner = some j) ∧
    (s'.Runnable b → s.Runnable b)

/-- A step that leaves the processor and the queue alone, and these fields of the blocks in use. -/
theorem calm_of_fields (cur : s'.cur = s.cur) (queue : s'.rq = s.rq)
    (fields : ∀ b holder, phase b = .active holder →
      ((s'.tasks b).runState = .stopped → (s.tasks b).runState = .stopped) ∧
      ∀ j, (s.tasks b).joiner = some j → (s'.tasks b).joiner = some j) : Calm phase s s' := by
  intro b holder active
  refine ⟨(fields b holder active).1, (fields b holder active).2, fun can => ?_⟩
  rw [Node.Runnable, cur, queue] at can
  exact can

/-- A step that writes to no block but one that is not in use yet. -/
theorem calm_of_others (cur : s'.cur = s.cur) (queue : s'.rq = s.rq)
    (idle : ∀ holder, phase t ≠ .active holder)
    (others : ∀ b, b ≠ t → s'.tasks b = s.tasks b) : Calm phase s s' := by
  refine calm_of_fields cur queue fun b holder active => ?_
  have apart : b ≠ t := by
    rintro rfl
    exact idle holder active
  rw [others b apart]
  exact ⟨id, fun _ => id⟩

/-- Every step other than an exit is calm. -/
theorem calm_of_step (inv : (s.life phase).Inv strict) (linear : s.Linear l)
    (ok : s.step l = .ok s') :
    Calm phase s s' ∨ ∃ value clock, l = .call (.exit value) clock := by
  have going : (s.tasks s.cur).runState ≠ .stopped := inv.going
  -- Statements that write to no block at all.
  have still : ∀ {s'' : Sys}, s''.cur = s.cur → s''.rq = s.rq → s''.tasks = s.tasks →
      Calm phase s s'' := by
    intro s'' cur queue tasks
    refine calm_of_fields cur queue fun b holder active => ?_
    rw [tasks]
    exact ⟨id, fun _ => id⟩
  -- A block that the running task is making is not in use.
  have unused : ∀ {t : Addr}, phase t = .building s.cur → ∀ holder, phase t ≠ .active holder := by
    intro t building holder active
    exact absurd (building.symm.trans active) (by simp)
  cases stepped_of_ok ok with
  | nothing => exact .inl (still rfl rfl rfl)
  | yields leaves ok =>
    obtain ⟨-, n, rfl, -, yielded⟩ := yieldLocked_ok inv.queues.running ok
    have fields := setFlag_fields true s
    have live : ∀ b, some b ∈ (s.setFlag true).rq.runqueue →
        ((s.setFlag true).tasks b).runState ≠ .stopped := by
      intro b queued
      rw [(fields b).2.2.1]
      exact queued_going inv b queued
    refine .inl fun b _ _ => ⟨fun ended => ?_, fun j joins => ?_, fun can => ?_⟩
    · rw [yielded.stopped_iff inv.queues.nonNull inv.queues.awake live b, (fields b).2.2.1] at ended
      exact ended
    · exact ((yielded.kept b).joiner.trans (fields b).2.2.2.1).trans joins
    · -- Who can run after a yield ran before it, or was queued.
      exact (yielded.runnable_cases inv.queues.nonNull inv.queues.awake can).imp_left And.left
  | sleeps => exact linear.elim
  | exits at_ ok => exact .inr ⟨_, _, rfl⟩
  | @waits h wanted t clock at_ points unlocked unjoined alive =>
    have fields := waitFor_fields h wanted t s
    refine .inl (calm_of_fields rfl rfl fun b _ _ => ?_)
    change (((s.waitFor h wanted t).tasks b).runState = .stopped → _) ∧
      ∀ j, _ → ((s.waitFor h wanted t).tasks b).joiner = some j
    refine ⟨fun ended => ?_, fun j joins => ?_⟩
    · rw [(fields b).2.2.2.1] at ended
      split_ifs at ended
      exact ended
    · rw [(fields b).2.2.2.2]
      split_ifs with target
      · -- Nobody waited for the task that is joined now.
        rw [target, unjoined] at joins
        cases joins
      · exact joins
  | detaches at_ points unlocked alive =>
    refine .inl (calm_of_fields rfl rfl fun b _ _ => ?_)
    simp only [settle, write_tasks]
    split_ifs <;> simp_all
  | unlocks at_ held =>
    have fields := setFlag_fields false s
    refine .inl (calm_of_fields rfl rfl fun b _ _ => ⟨fun ended => ?_, fun j joins => ?_⟩)
    · exact (fields b).2.2.1.symm.trans ended
    · exact (fields b).2.2.2.1.trans joins
  | begins at_ =>
    refine .inl (calm_of_fields rfl rfl fun b _ _ => ?_)
    simp only [goto, write_tasks]
    split_ifs <;> simp_all
  | @finds a entry arg h t rest clock fresh at_ found =>
    have pooled : phase t = .pooled := by
      refine (inv.places.pooled t).mp ?_
      exact (Node.findTask_perm found).mem_iff.mpr List.mem_cons_self
    refine .inl (calm_of_others (t := t) rfl rfl (by simp [pooled]) fun b other => ?_)
    simp [goto, number_tasks, other]
  | @resets t entry arg h clock fresh at_ =>
    refine .inl (calm_of_others (t := t) rfl rfl (unused (ok_at inv at_).2) fun b other => ?_)
    simp [goto, write_tasks, other]
  | @creates a entry arg h clock fresh at_ unmapped =>
    have absent : phase fresh = .unmapped := (inv.places.absent fresh).mp unmapped
    refine .inl (calm_of_others (t := fresh) rfl rfl (by simp [absent]) fun b other => ?_)
    simp [goto, number_tasks, write_tasks, other]
  | @launches t entry arg h clock fresh at_ stopped other =>
    refine .inl (calm_of_fields rfl rfl fun b _ _ => ?_)
    simp only [goto, write_tasks]
    split_ifs <;> simp_all
  | @lands t h clock fresh at_ =>
    have building : phase t = .building s.cur := (ok_at inv at_).2.1
    have away := building_ne_cur inv building
    refine .inl (calm_of_fields rfl rfl fun b _ _ => ?_)
    rw [switchBack_tasks away]
    split_ifs with here
    · -- The spawner goes on in the state it was in, or running.
      subst here
      cases (s.tasks s.cur).ctx.resume <;> simp_all [Resume.runState]
    · simp_all
    · exact ⟨id, fun _ => id⟩
  | @suspends t h clock fresh at_ =>
    refine .inl (calm_of_others (t := t) rfl rfl (unused (ok_at inv at_).2.1) fun b other => ?_)
    simp [goto, write_tasks, other]
  | @publishes t h clock fresh at_ unlocked =>
    have building : phase t = .building s.cur := (ok_at inv at_).2.1
    refine .inl fun b holder active => ?_
    have apart : b ≠ t := by
      rintro rfl
      exact unused building holder active
    refine ⟨?_, ?_, fun can => ?_⟩
    · simp [goto, schedule_tasks, apart]
    · simp [goto, schedule_tasks, apart]
    · -- The only task that is queued now is the new one.
      refine can.imp_right fun queued => ?_
      have member := (Node.schedule_rq s.toNode t).1.mem_iff.mp queued
      exact (List.mem_cons.mp member).resolve_left fun same => apart (Option.some.inj same)
  | _ => exact .inl (still rfl rfl rfl)

/-- Task `j` is descheduled in a join, and the task `t` it waits for knows it. -/
structure Waits (s : Sys) (j t : Addr) : Prop where
  target : (s.tasks t).runState ≠ .stopped ∧ (s.tasks t).joiner = some j
  waiting : (s.tasks j).runState = .waiting
  dormant : ¬ s.Runnable j

/-- Nobody waits for two tasks. -/
theorem joiner_unique (inv : (s.life phase).Inv strict) {t u : Addr}
    (first : (s.tasks t).runState ≠ .stopped ∧ (s.tasks t).joiner = some j)
    (second : (s.tasks u).runState ≠ .stopped ∧ (s.tasks u).joiner = some j) : t = u := by
  obtain ⟨-, -, -, h, -, -, points, busy⟩ := joining_of_joiner inv first.1 first.2
  obtain ⟨-, -, -, h', -, -, points', busy'⟩ := joining_of_joiner inv second.1 second.2
  -- Both are the task of the one handle that `j` is at work on.
  have same : h = h' := by
    have handle := (inv.busy h j busy).2
    have handle' := (inv.busy h' j busy').2
    exact Option.some.inj (handle.symm.trans handle')
  subst same
  exact Option.some.inj (points.symm.trans points')

/-- Who can run after an exit could before, or waited for the task that exits. -/
theorem exit_runnable_cases {value : Nat} {b : Addr} (inv : (s.life phase).Inv strict)
    (at_ : s.pc = .user) (ok : s.exit value clock = .ok s') (can : s'.Runnable b) :
    some b ∈ s.rq.runqueue ∨ (s.tasks s.cur).joiner = some b := by
  obtain ⟨-, -, n, rfl, -, yielded⟩ := exit_ok inv.queues.running ok
  obtain ⟨⟨awake, nonNull⟩, -⟩ := finish_queues value inv at_
  have finished := Node.finish_finished value (s.setFlag true)
  rcases yielded.runnable_cases nonNull awake can with ⟨-, running⟩ | queued
  · -- The exiting task does not queue itself.
    rw [finished.cur] at running
    have stopped := finished.own.1
    rw [running] at stopped
    cases stopped
  · have queue := finished.queue
    rw [show ((s.setFlag true).tasks (s.setFlag true).cur).joiner = (s.tasks s.cur).joiner from
      (setFlag_fields true s s.cur).2.2.2.1] at queue
    have member := queue.mem_iff.mp queued
    cases joins : (s.tasks s.cur).joiner with
    | none =>
      rw [joins] at member
      exact .inl member
    | some k =>
      rw [joins] at member
      rcases List.mem_cons.mp member with same | before
      · exact .inr same.symm
      · exact .inl before

/-- A task that waits goes on waiting until the one it waits for exits, and can run from then on. -/
theorem Waits.step (waits : s.Waits j t) (inv : (s.life phase).Inv strict)
    {phase' : Addr → Phase} (inv' : (s'.life phase').Inv strict) (linear : s.Linear l)
    (ok : s.step l = .ok s') :
    s'.Waits j t ∨
      ((∃ value clock, l = .call (.exit value) clock) ∧ s.cur = t ∧ s'.Runnable j) := by
  obtain ⟨going, joins⟩ := waits.target
  have joining := joining_of_joiner inv going joins
  -- Whatever the step was: a task that still runs and knows its joiner keeps it waiting.
  have later : (s'.tasks t).runState ≠ .stopped → (s'.tasks t).joiner = some j → ¬ s'.Runnable j →
      s'.Waits j t := by
    intro going' joins' off
    exact ⟨⟨going', joins'⟩, (joining_of_joiner inv' going' joins').1, off⟩
  rcases calm_of_step inv linear ok with calm | ⟨value, clock, rfl⟩
  · obtain ⟨holder, active⟩ : ∃ holder, phase t = .active holder := by
      rcases live_or_building inv.toCore going with live | building
      · exact live.1
      · exact absurd joins (by
          rcases (inv.idle.building t building).2 with stopped | unjoined
          · exact absurd stopped going
          · rw [show (s.tasks t).joiner = none from unjoined]
            simp)
    obtain ⟨holder', active'⟩ : ∃ holder, phase j = .active holder := joining.2.1
    obtain ⟨stops, keeps, -⟩ := calm t holder active
    refine .inl (later (fun ended => going (stops ended)) (keeps j joins) fun can => ?_)
    exact waits.dormant ((calm j holder' active').2.2 can)
  · have at_ : s.pc = .user := by
      by_contra elsewhere
      simp [Sys.step, elsewhere] at ok
    have exits : s.exit value clock = .ok s' := by simpa [Sys.step, at_, call] using ok
    have exited := exit_exited inv at_ exits
    by_cases here : s.cur = t
    · subst here
      exact .inr ⟨⟨value, clock, rfl⟩, rfl, exit_runnable inv at_ exits (.inr joins)⟩
    · refine .inl (later (fun ended => ?_) ((exited.joiner t).trans joins) fun can => ?_)
      · exact ((exited.stopped t).mp ended).elim (fun same => here same.symm) going
      · rcases exit_runnable_cases inv at_ exits can with queued | same
        · exact waits.dormant (.inr queued)
        · exact here (joiner_unique inv ⟨inv.going, same⟩ ⟨going, joins⟩)

/-- What the calls, the tasks at rest and the results of a system satisfy together. -/
structure Joint (host : Addr) (s : Sys) : Prop where
  order : s.InOrder False
  named : s.Named host
  outcomes : s.Outcomes
  rests : s.Rests host
  calls : s.Calls

/-- The start of a program satisfies it. -/
theorem joint_start (host : Addr) (tick : Int) (maxSize : Nat) :
    (start host tick maxSize).Joint host := by
  have task : ∀ b, (start host tick maxSize).tasks b = if b = host
      then Task.wrapCurrent .zero host else Task.construct .zero 0 false := by
    intro b
    exact Function.update_apply (fun _ => Task.construct Pc.zero 0 false) host _ b
  have fields : ∀ b, ((start host tick maxSize).tasks b).scheduled = false ∧
      ((start host tick maxSize).tasks b).joiner = none ∧
      ((start host tick maxSize).tasks b).noPreemptFlag = false := by
    intro b
    rw [task]
    split_ifs
    · exact ⟨rfl, rfl, rfl⟩
    · exact ⟨rfl, rfl, rfl⟩
  refine ⟨inOrder_start False host tick maxSize, named_start host tick maxSize, ?_, ?_, ?_⟩
  · refine ⟨by simp [start], by simp [start], fun b scheduled => ?_, by simp [start],
      by simp [start], by simp [start]⟩
    rw [(fields b).1] at scheduled
    cases scheduled
  · refine ⟨fun flag => ?_, .inl ?_, fun b other serves => ?_, fun t j _ joins => ?_⟩
    · rw [Node.flag, (fields _).2.2] at flag
      cases flag
    · rw [task, show (start host tick maxSize).cur = host from rfl, if_pos rfl]
      rfl
    · rcases serves with same | scheduled
      · exact absurd same other
      · rw [(fields b).1] at scheduled
        cases scheduled
    · rw [(fields t).2.1] at joins
      cases joins
  · intro h o works
    cases works

/-- Every step keeps it. -/
theorem Joint.step (joint : s.Joint host) (linear : s.Linear l) (ok : s.step l = .ok s') :
    s'.Joint host := by
  obtain ⟨phase, inv⟩ := joint.order
  -- A spawn has its handle to itself, so its call is one of those that are looked after.
  have owes : ∀ {p : Pc} {h : HandleId}, s.pc = p → p.base = p → s.busy h = some s.cur →
      s.Owes h s.cur p := by
    intro p h at_ plain works
    have before := joint.calls h s.cur works
    rwa [at_cur, at_, plain] at before
  have published : ∀ t h, s.pc = .spawned t h → (s.tasks t).scheduled = true := by
    intro t h at_
    exact owes at_ rfl (ok_at inv at_).1.1
  have begun : ∀ t h, s.pc = .started t h → (s.tasks t).noPreemptFlag = false ∧
      (s.tasks t).ctx.resume = .plain .prologue := by
    intro t h at_
    exact owes at_ rfl (ok_at inv at_).1.1
  exact ⟨inOrder_step joint.order linear False.elim ok, joint.named.step inv linear ok,
    joint.outcomes.step joint.named inv linear published ok,
    joint.rests.step joint.named inv linear begun ok,
    joint.calls.step (alert_of_current inv joint.rests.current) joint.outcomes joint.named inv
      linear ok⟩

/-- Every reachable state satisfies it. -/
theorem joint_reaches (reached : Run.Reaches step Linear (start host tick maxSize) s) :
    s.Joint host :=
  reached.invariant (joint_start host tick maxSize) fun _ _ _ joint linear ok =>
    joint.step linear ok

/-- What a program can rely on when it joins tasks. -/
structure JoinProtocol (s : Sys) : Prop where
  -- The assertion that the joined task has stopped holds wherever it is reached.
  asserts : ∀ h wanted, s.pc = .take h wanted →
    ∀ clock fresh, ∃ s', s.step (.run clock fresh) = .ok s'
  -- What is left of a join after that runs only once the spawn of its handle has exited.
  after : ∀ h, s.pc.base.past = true → s.pc.base.handle = some h → s.owner h ∈ s.exits.map Prod.fst
  -- A reported result is the one the spawn passed to its only exit.
  result : ∀ r ∈ s.joined, r ∈ s.exits
  once : (s.exits.map Prod.fst).Nodup
  -- A task in a join that cannot run waits for the task of its handle.
  dormant : ∀ h j, s.busy h = some j → (s.at_ j).joins = true → ¬ s.Runnable j →
    ∃ t, s.handles h = some t ∧ s.Waits j t
  -- It goes on waiting until that task exits, which puts it in one place to run from.
  wakes : ∀ j t, s.Waits j t → ∀ l s', s.Linear l → s.step l = .ok s' →
    s'.Waits j t ∨ ((∃ value clock, l = .call (.exit value) clock) ∧ s.cur = t ∧
      (some s'.cur :: s'.rq.runqueue).count (some j) = 1)
  -- A second join of the same task throws, and nothing has changed.
  second : ∀ h t, s.pc = .user → s.handles h = some t → (s.tasks t).joiner ≠ none →
    ∀ wanted clock, s.step (.call (.join h wanted) clock) = .ok s

/-- The target of a join that is past its yield has stopped. -/
theorem Calls.stopped_of_take {wanted : Bool} (calls : s.Calls) (inv : (s.life phase).Inv strict)
    (at_ : s.pc = .take h wanted) :
    ∃ t, s.handles h = some t ∧ (s.tasks t).runState = .stopped := by
  obtain ⟨works, t, refers⟩ := ok_at inv at_
  have points : s.handles h = some t := refers.1
  have told : s.Told s.cur t := by
    have before := calls h s.cur works
    rw [at_cur, at_] at before
    exact before t points
  refine ⟨t, points, ?_⟩
  by_contra going
  -- It would still wait, and be at its yield or not running.
  obtain ⟨-, -, -, h', wanted', inside, -⟩ := joining_of_joiner inv going (told.2 going)
  rw [life_at_cur, at_] at inside
  rcases inside with yielding | ⟨-, other⟩
  · cases yielding
  · exact other rfl

/-- A task in a join that cannot run waits for the task of its handle. -/
theorem Calls.waits_of_joins (calls : s.Calls) (inv : (s.life phase).Inv strict)
    (works : s.busy h = some j) (joins : (s.at_ j).joins = true) (off : ¬ s.Runnable j) :
    ∃ t, s.handles h = some t ∧ s.Waits j t := by
  obtain ⟨live, handle⟩ := inv.busy h j works
  have own := inv.calls j live
  have owes := calls h j works
  have place : (s.life phase).at_ j = s.at_ j := rfl
  rw [place] at own handle
  obtain ⟨t, points, told⟩ : ∃ t, s.handles h = some t ∧ s.Told j t := by
    cases at_ : s.at_ j with
    | joinYield h' wanted =>
      rw [at_] at own handle owes
      cases handle
      obtain ⟨-, t, refers⟩ := own
      exact ⟨t, refers.1, owes t refers.1⟩
    | take h' wanted =>
      rw [at_] at own handle owes
      cases handle
      obtain ⟨-, t, refers⟩ := own
      exact ⟨t, refers.1, owes t refers.1⟩
    | _ => simp [at_, Pc.joins] at joins
  have going : (s.tasks t).runState ≠ .stopped := fun stopped => off (told.1 stopped)
  have knows := told.2 going
  exact ⟨t, points, ⟨going, knows⟩, (joining_of_joiner inv going knows).1, off⟩

/-- The target of a join that is past its yield has stopped. -/
theorem Joint.stopped_of_take {wanted : Bool} (joint : s.Joint host) (at_ : s.pc = .take h wanted) :
    ∃ t, s.handles h = some t ∧ (s.tasks t).runState = .stopped := by
  obtain ⟨phase, inv⟩ := joint.order
  exact joint.calls.stopped_of_take inv at_

/-- A task in a join that cannot run waits for the task of its handle. -/
theorem Joint.waits_of_joins (joint : s.Joint host) (works : s.busy h = some j)
    (joins : (s.at_ j).joins = true) (off : ¬ s.Runnable j) :
    ∃ t, s.handles h = some t ∧ s.Waits j t := by
  obtain ⟨phase, inv⟩ := joint.order
  exact joint.calls.waits_of_joins inv works joins off

/-- In every run, joins keep to the protocol. -/
theorem join_protocol (reached : Run.Reaches step Linear (start host tick maxSize) s) :
    s.JoinProtocol := by
  have joint := joint_reaches reached
  obtain ⟨phase, inv⟩ := joint.order
  refine ⟨?_, ?_, joint.outcomes.joined, joint.outcomes.once, ?_, ?_, ?_⟩
  · intro h wanted at_ clock fresh
    obtain ⟨t, points, stopped⟩ := joint.stopped_of_take at_
    simp [Sys.step, run, at_, takeResult, points, stopped]
  · intro h past handle
    have own := ok_at inv (rfl : s.pc = s.pc)
    have owes : s.busy h = some s.cur → s.Owes h s.cur s.pc.base := by
      intro works
      have before := joint.calls h s.cur works
      rwa [at_cur] at before
    cases at_ : s.pc.base with
    | returning h' | returnLocked t h' | returnDestroy t h' | clearHandle h' =>
      rw [at_] at own handle owes
      cases handle
      exact owes own.1
    | _ => simp [at_, Pc.past] at past
  · exact fun h j works joins off => joint.waits_of_joins works joins off
  · intro j t waits l s' linear ok
    obtain ⟨phase', inv'⟩ := inOrder_step joint.order linear False.elim ok
    rcases waits.step inv inv' linear ok with still | ⟨exits, here, can⟩
    · exact .inl still
    · refine .inr ⟨exits, here, List.count_eq_one_of_mem inv'.queues.nodup ?_⟩
      rcases can with same | queued
      · exact same ▸ List.mem_cons_self
      · exact List.mem_cons_of_mem _ queued
  · intro h t at_ points joined wanted clock
    have unlocked := joint.rests.clear at_ (by simp)
    simp [Sys.step, at_, call, join, points, unlocked, joined]

/-- A whole life of a task: the host waits for it, is woken by its exit and reports `5`. -/
def joinedLabels : List Label :=
  spawnInto kLightAttr 0 1 ++ [.call (.join 0 true) stillClock, .run stillClock 0,
    .run stillClock 0, .call (.exit 5) stillClock] ++ List.replicate 5 (.run stillClock 0)

/-- The protocol in the state this leads to. -/
theorem join_protocol_of_exit : ∃ s, Run.Reaches step Linear (start 0 0 4) s ∧
    s.joined = [(1, 5)] ∧ s.JoinProtocol := by
  have run : ∃ s, Run.Reaches step Linear (start 0 0 4) s ∧ s.joined = [(1, 5)] :=
    Run.Reaches.of_check joinedLabels (by decide +kernel)
  obtain ⟨s, reached, joined⟩ := run
  exact ⟨s, reached, joined, join_protocol reached⟩

/-- A join of a finished task is preempted before its assertion, and the host's overtakes it. -/
def overtakenLabels : List Label :=
  List.flatten [joinStoppedLabels, joinAlsoLabels,
    [.call .yield (clockAt 40000), .run stillClock 0]]

/-- The assertion then looks for the run state of a task behind an empty handle. -/
theorem concurrent_join_undefined : ∃ s, Run.Reaches step Uncopied (start 0 0 4) s ∧
    s.settled = [1] ∧ s.pc = .take 0 true ∧ s.step (.run stillClock 0) = .error .undefined ∧
      ¬ s.JoinProtocol := by
  have run : ∃ s, Run.Reaches step Uncopied (start 0 0 4) s ∧ s.settled = [1] ∧
      s.pc = .take 0 true ∧ s.handles 0 = none :=
    Run.Reaches.of_check overtakenLabels (by decide +kernel)
  obtain ⟨s, reached, settled, at_, cleared⟩ := run
  have undefined : s.step (.run stillClock 0) = .error .undefined := by
    simp [Sys.step, Sys.run, at_, takeResult, cleared]
  refine ⟨s, reached, settled, at_, undefined, fun protocol => ?_⟩
  obtain ⟨s', ok⟩ := protocol.asserts 0 true at_ stillClock 0
  rw [undefined] at ok
  cases ok

end Sys

end Gthread

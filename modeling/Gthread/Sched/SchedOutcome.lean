import Gthread.Sched.SchedFair

/-! What spawns end with: each exit is kept in its block until the block's handle is consumed. -/

namespace Gthread

open Function (update update_of_ne update_self)

/-- A block whose task and result stand, or one that serves no scheduled task yet. -/
def Task.Stands (t u : Task Pc) : Prop :=
  u.spawn = t.spawn ∧
    ((u.scheduled = t.scheduled ∧ (u.runState = .stopped ↔ t.runState = .stopped) ∧
        u.returnValue = t.returnValue) ∨
      (t.scheduled = false ∧ (u.scheduled = false ∨ u.runState ≠ .stopped)))

/-- A block that did not change stands. -/
theorem Task.Stands.refl (t : Task Pc) : t.Stands t := ⟨rfl, .inl ⟨rfl, Iff.rfl, rfl⟩⟩

namespace Sys

variable {strict : Prop} {s s' : Sys} {phase : Addr → Phase} {l : Label} {clock : Clock} {p : Pc}
  {t host : Addr} {tick : Int} {maxSize : Nat}

/-- The results of the spawns that have ended, against the blocks and handles that keep them. -/
structure Outcomes (s : Sys) : Prop where
  -- A spawn that has ended stays ended: no block that has its number runs.
  ended : ∀ e ∈ s.exits, e.1 < s.next ∧ ∀ b, (s.tasks b).spawn = e.1 →
    (s.tasks b).runState = .stopped ∧ (s.tasks b).scheduled = true
  once : (s.exits.map Prod.fst).Nodup
  results : ∀ b, (s.tasks b).scheduled = true → (s.tasks b).runState = .stopped →
    ((s.tasks b).spawn, (s.tasks b).returnValue) ∈ s.exits
  given : ∀ h t, s.handles h = some t → (s.tasks t).spawn = s.owner h →
    (s.tasks t).scheduled = true
  owners : ∀ h, s.owner h < s.next
  joined : ∀ r ∈ s.joined, r ∈ s.exits

/-- A step that ends no task and takes no block for a new one. -/
theorem Outcomes.keep (outcomes : s.Outcomes) (blocks : ∀ b, (s.tasks b).Stands (s'.tasks b))
    (next : s'.next = s.next) (exits : s'.exits = s.exits)
    (given : ∀ h t, s'.handles h = some t → (s.tasks t).spawn = s'.owner h →
      (s.tasks t).scheduled = true)
    (owners : ∀ h, s'.owner h < s.next) (joined : ∀ r ∈ s'.joined, r ∈ s.exits) :
    s'.Outcomes := by
  -- A block that serves a scheduled task stands.
  have stands : ∀ b, (s.tasks b).scheduled = true → (s'.tasks b).scheduled = true ∧
      ((s'.tasks b).runState = .stopped ↔ (s.tasks b).runState = .stopped) := by
    intro b serves
    rcases (blocks b).2 with ⟨scheduled, stopped, -⟩ | ⟨idle, -⟩
    · exact ⟨scheduled.trans serves, stopped⟩
    · exact absurd serves (by simp [idle])
  refine ⟨?_, ?_, ?_, ?_, ?_, ?_⟩
  · intro e member
    rw [exits] at member
    obtain ⟨below, all⟩ := outcomes.ended e member
    refine ⟨next ▸ below, fun b number => ?_⟩
    obtain ⟨stopped, serves⟩ := all b ((blocks b).1 ▸ number)
    exact ⟨(stands b serves).2.mpr stopped, (stands b serves).1⟩
  · rw [exits]
    exact outcomes.once
  · intro b serves stopped
    rw [exits]
    rcases (blocks b).2 with ⟨scheduled, same, value⟩ | ⟨-, idle | going⟩
    · rw [(blocks b).1, value]
      exact outcomes.results b (scheduled ▸ serves) (same.mp stopped)
    · exact absurd serves (by simp [idle])
    · exact absurd stopped going
  · intro h t points number
    exact (stands t (given h t points ((blocks t).1 ▸ number))).1
  · rw [next]
    exact owners
  · rw [exits]
    exact joined

/-- A step that changes neither the handles nor what was reported. -/
theorem Outcomes.still (outcomes : s.Outcomes) (blocks : ∀ b, (s.tasks b).Stands (s'.tasks b))
    (next : s'.next = s.next) (exits : s'.exits = s.exits) (handles : s'.handles = s.handles)
    (owner : s'.owner = s.owner) (joined : s'.joined = s.joined) : s'.Outcomes := by
  refine outcomes.keep blocks next exits ?_ ?_ ?_
  · rw [handles, owner]
    exact outcomes.given
  · rw [owner]
    exact outcomes.owners
  · rw [joined]
    exact outcomes.joined

/-- A block that is taken for a new spawn gets a number no other spawn has. -/
theorem Outcomes.renew (outcomes : s.Outcomes)
    (number : (s'.tasks t).spawn = s.next ∧ (s'.tasks t).scheduled = false)
    (others : ∀ b, b ≠ t → s'.tasks b = s.tasks b) (next : s'.next = s.next + 1)
    (exits : s'.exits = s.exits) (handles : s'.handles = s.handles) (owner : s'.owner = s.owner)
    (joined : s'.joined = s.joined) : s'.Outcomes := by
  refine ⟨?_, ?_, ?_, ?_, ?_, ?_⟩
  · intro e member
    rw [exits] at member
    obtain ⟨below, all⟩ := outcomes.ended e member
    refine ⟨by omega, fun b same => ?_⟩
    by_cases new : b = t
    · subst new
      rw [number.1] at same
      omega
    · rw [others b new] at same ⊢
      exact all b same
  · rw [exits]
    exact outcomes.once
  · intro b serves stopped
    by_cases new : b = t
    · subst new
      exact absurd serves (by simp [number.2])
    · rw [others b new] at serves stopped ⊢
      rw [exits]
      exact outcomes.results b serves stopped
  · intro h u points same
    rw [handles] at points
    rw [owner] at same
    by_cases new : u = t
    · -- No handle was given that number.
      subst new
      have below := outcomes.owners h
      rw [number.1] at same
      omega
    · rw [others u new] at same ⊢
      exact outcomes.given h u points same
  · intro h
    have below := outcomes.owners h
    rw [owner, next]
    omega
  · rw [joined, exits]
    exact outcomes.joined

/-- Blocks after a yield: nobody ends, and results stay. -/
theorem stands_yielded {m : Node Pc} {n : Node Pc} {k : Pc}
    (yielded : Node.Yielded clock k m n) (nonNull : none ∉ m.rq.runqueue)
    (awake : m.rq.sleepqueue = [])
    (live : ∀ b, some b ∈ m.rq.runqueue → (m.tasks b).runState ≠ .stopped) (b : Addr) :
    (m.tasks b).Stands (n.tasks b) := by
  have kept := yielded.kept b
  exact ⟨kept.spawn, .inl ⟨kept.scheduled, yielded.stopped_iff nonNull awake live b,
    kept.returnValue⟩⟩

/-- What an exit of the running task does to the blocks. -/
structure Exited (value : Nat) (s s' : Sys) : Prop where
  stopped : ∀ b, (s'.tasks b).runState = .stopped ↔ b = s.cur ∨ (s.tasks b).runState = .stopped
  result : ∀ b, (s'.tasks b).returnValue = if b = s.cur then value else (s.tasks b).returnValue
  spawn : ∀ b, (s'.tasks b).spawn = (s.tasks b).spawn
  joiner : ∀ b, (s'.tasks b).joiner = (s.tasks b).joiner
  scheduled : ∀ b, (s'.tasks b).scheduled =
    ((s.tasks b).scheduled || decide ((s.tasks s.cur).joiner = some b))
  exits : s'.exits = ((s.tasks s.cur).spawn, value) :: s.exits
  handles : s'.handles = s.handles ∧ s'.owner = s.owner ∧ s'.busy = s.busy
  next : s'.next = s.next
  joined : s'.joined = s.joined

/-- A call of `exit` does this. -/
theorem exit_exited {value : Nat} (inv : (s.life phase).Inv strict) (at_ : s.pc = .user)
    (ok : s.exit value clock = .ok s') : s.Exited value s' := by
  obtain ⟨-, -, n, rfl, -, yielded⟩ := exit_ok inv.queues.running ok
  obtain ⟨⟨awake, nonNull⟩, live⟩ := finish_queues value inv at_
  have finished := Node.finish_finished value (s.setFlag true)
  have flagged : ∀ b, ((s.setFlag true).tasks b).runState = (s.tasks b).runState ∧
      ((s.setFlag true).tasks b).returnValue = (s.tasks b).returnValue ∧
      ((s.setFlag true).tasks b).spawn = (s.tasks b).spawn ∧
      ((s.setFlag true).tasks b).joiner = (s.tasks b).joiner ∧
      ((s.setFlag true).tasks b).scheduled = (s.tasks b).scheduled := by
    intro b
    by_cases here : b = s.cur
    · simp [Node.setFlag, here]
    · simp [Node.setFlag, here]
  refine
    { stopped := ?_, result := ?_, spawn := ?_, joiner := ?_, scheduled := ?_, exits := rfl,
      handles := ⟨rfl, rfl, rfl⟩, next := rfl, joined := rfl }
  · intro b
    rw [yielded.stopped_iff nonNull awake live b]
    by_cases own : b = s.cur
    · subst own
      exact ⟨fun _ => .inl rfl, fun _ => finished.own.1⟩
    · rw [(finished.others b own).1, (flagged b).1]
      simp [own]
  · intro b
    rw [(yielded.kept b).returnValue]
    split_ifs with own
    · subst own
      exact finished.own.2
    · exact (finished.others b own).2.trans (flagged b).2.1
  · intro b
    rw [(yielded.kept b).spawn, (finished.kept b).2.2.2.2.2.1]
    exact (flagged b).2.2.1
  · intro b
    rw [(yielded.kept b).joiner, (finished.kept b).2.2.2.1]
    exact (flagged b).2.2.2.1
  · intro b
    rw [(yielded.kept b).scheduled, finished.scheduled b, (flagged b).2.2.2.2]
    have joiner := (flagged s.cur).2.2.2.1
    show (_ || decide (((s.setFlag true).tasks s.cur).joiner = some b)) = _
    rw [joiner]

/-- The spawn that the running task serves is not one that has ended, and no other block has it. -/
theorem Outcomes.exit {value : Nat} (outcomes : s.Outcomes) (named : s.Named host)
    (inv : (s.life phase).Inv strict) (entered : (s.tasks s.cur).entry ≠ none)
    (exited : s.Exited value s') : s'.Outcomes := by
  have other : s.cur ≠ host := fun same => entered (same ▸ named.entry)
  have going : (s.tasks s.cur).runState ≠ .stopped := inv.going
  have serves : (s.tasks s.cur).scheduled = true :=
    (named.scheduled s.cur (.inl rfl)).resolve_left other
  have positive : (s.tasks s.cur).spawn ≠ 0 := (named.numbered s.cur going).resolve_left other
  obtain ⟨holder, active⟩ : ∃ holder, phase s.cur = .active holder := inv.active
  have here : (phase s.cur).kind ≠ .gone := by simp [active, Phase.kind]
  obtain ⟨below, pending⟩ := inv.records.pending s.cur here
  -- Blocks that were handed back have other numbers.
  have alone : ∀ b, (s.tasks b).spawn = (s.tasks s.cur).spawn → b = s.cur := by
    intro b same
    by_cases gone : (phase b).kind = .gone
    · rcases inv.records.gone b gone with back | zero
      · have back : (s.tasks b).spawn ∈ s.returned.map Return.spawn := back
        rw [same] at back
        exact absurd back pending
      · exact absurd (same.symm.trans zero) positive
    · exact inv.records.distinct b s.cur gone here same
  have fresh : (s.tasks s.cur).spawn ∉ s.exits.map Prod.fst := by
    intro member
    obtain ⟨e, ended, same⟩ := List.mem_map.mp member
    exact going ((outcomes.ended e ended).2 s.cur same.symm).1
  have stays : ∀ b, (s.tasks b).scheduled = true → (s'.tasks b).scheduled = true := by
    intro b before
    simp [exited.scheduled b, before]
  refine ⟨?_, ?_, ?_, ?_, ?_, ?_⟩
  · intro e member
    rw [exited.exits] at member
    rw [exited.next]
    rcases List.mem_cons.mp member with rfl | before
    · refine ⟨below, fun b same => ?_⟩
      rw [exited.spawn b] at same
      rw [alone b same]
      exact ⟨(exited.stopped s.cur).mpr (.inl rfl), stays s.cur serves⟩
    · obtain ⟨bound, all⟩ := outcomes.ended e before
      refine ⟨bound, fun b same => ?_⟩
      obtain ⟨stopped, scheduled⟩ := all b (exited.spawn b ▸ same)
      exact ⟨(exited.stopped b).mpr (.inr stopped), stays b scheduled⟩
  · rw [exited.exits, List.map_cons, List.nodup_cons]
    exact ⟨fresh, outcomes.once⟩
  · intro b scheduled stopped
    rw [exited.exits, exited.spawn b, exited.result b]
    by_cases own : b = s.cur
    · subst own
      rw [if_pos rfl]
      exact List.mem_cons_self
    · rw [if_neg own]
      have before := ((exited.stopped b).mp stopped).resolve_left own
      have known : (s.tasks b).scheduled = true := by
        rw [exited.scheduled b, Bool.or_eq_true] at scheduled
        rcases scheduled with known | joins
        · exact known
        · -- The task that waits for this one has not stopped.
          have waits := inv.joins s.cur b ⟨inv.active, inv.going⟩ (of_decide_eq_true joins)
          have waiting : (s.tasks b).runState = .waiting := waits.1
          exact absurd (before.symm.trans waiting) (by simp)
      exact List.mem_cons_of_mem _ (outcomes.results b known before)
  · intro h u points same
    rw [exited.handles.1] at points
    rw [exited.handles.2.1, exited.spawn u] at same
    exact stays u (outcomes.given h u points same)
  · intro h
    rw [exited.handles.2.1, exited.next]
    exact outcomes.owners h
  · intro r member
    rw [exited.joined] at member
    rw [exited.exits]
    exact List.mem_cons_of_mem _ (outcomes.joined r member)

/-- Setting the preempt flag changes no outcome. -/
theorem stands_setFlag (flag : Bool) (s : Sys) (b : Addr) :
    (s.tasks b).Stands ((s.setFlag flag).tasks b) := by
  by_cases here : b = s.cur
  · subst here
    simp [Task.Stands, Node.setFlag]
  · simp [Task.Stands, Node.setFlag, here]

/-- What stands after two changes that are known to keep the blocks of scheduled tasks. -/
theorem stands_trans {t u v : Task Pc} (first : t.Stands u) (second : u.Stands v)
    (kept : u.scheduled = t.scheduled) : t.Stands v := by
  obtain ⟨number, before⟩ := first
  obtain ⟨number', after⟩ := second
  refine ⟨number'.trans number, ?_⟩
  rcases after with ⟨scheduled, stopped, value⟩ | ⟨idle, rest⟩
  · rcases before with ⟨-, stopped', value'⟩ | ⟨idle, rest⟩
    · exact .inl ⟨scheduled.trans kept, stopped.trans stopped', value.trans value'⟩
    · refine .inr ⟨idle, ?_⟩
      rw [scheduled, Ne, stopped]
      exact rest
  · exact .inr ⟨kept ▸ idle, rest⟩

/-- Settling a handle clears it and leaves the others. -/
theorem settle_handles {h h' : HandleId} (points : (s.settle h).handles h' = some t) :
    h' ≠ h ∧ s.handles h' = some t := by
  by_cases here : h' = h
  · simp [settle, here] at points
  · exact ⟨here, by simpa [settle, here] using points⟩

/-- Every step keeps the outcomes, if what a spawn hands out was scheduled. -/
theorem Outcomes.step (outcomes : s.Outcomes) (named : s.Named host)
    (inv : (s.life phase).Inv strict) (linear : s.Linear l)
    (published : ∀ t h, s.pc = .spawned t h → (s.tasks t).scheduled = true)
    (ok : s.step l = .ok s') : s'.Outcomes := by
  have going : (s.tasks s.cur).runState ≠ .stopped := inv.going
  -- A block that is being made serves no scheduled task.
  have idle : ∀ {t : Addr}, phase t = .building s.cur → (s.tasks t).scheduled = false := by
    intro t building
    exact (inv.idle.building t (by simp [building, Phase.kind])).1
  cases stepped_of_ok ok with
  | nothing => exact outcomes
  | yields leaves ok =>
    obtain ⟨-, n, rfl, -, yielded⟩ := yieldLocked_ok inv.queues.running ok
    refine outcomes.still (fun b => ?_) rfl rfl rfl rfl rfl
    have flagged := stands_setFlag true s b
    have live : ∀ b, some b ∈ (s.setFlag true).rq.runqueue →
        ((s.setFlag true).tasks b).runState ≠ .stopped := by
      intro b queued stopped
      have same : ((s.setFlag true).tasks b).runState = (s.tasks b).runState := by
        by_cases here : b = s.cur
        · simp [Node.setFlag, here]
        · simp [Node.setFlag, here]
      exact queued_going inv b queued (same ▸ stopped)
    have kept : ((s.setFlag true).tasks b).scheduled = (s.tasks b).scheduled := by
      by_cases here : b = s.cur
      · simp [Node.setFlag, here]
      · simp [Node.setFlag, here]
    exact stands_trans flagged
      (stands_yielded yielded inv.queues.nonNull inv.queues.awake live b) kept
  | sleeps => exact linear.elim
  | exits at_ ok =>
    have entered := (exit_ok inv.queues.running ok).1
    exact outcomes.exit named inv entered (exit_exited inv at_ ok)
  | waits at_ points clear unjoined waited =>
    refine outcomes.still (fun b => ?_) rfl rfl rfl rfl rfl
    simp only [Task.Stands, goto, reserve, write_tasks]
    split_ifs <;> simp_all
  | detaches at_ points clear going =>
    refine outcomes.keep (fun b => ?_) rfl rfl ?_ outcomes.owners outcomes.joined
    · simp only [Task.Stands, settle, write_tasks]
      split_ifs <;> simp_all
    · intro h' u points' same
      exact outcomes.given h' u (settle_handles points').2 same
  | @assigns dst src clock at_ =>
    refine outcomes.keep (fun b => .refl _) rfl rfl ?_ ?_ outcomes.joined
    · intro h u points same
      by_cases here : h = dst
      · subst here
        exact outcomes.given src u (by simpa using points) (by simpa using same)
      · exact outcomes.given h u (by simpa [here] using points) (by simpa [here] using same)
    · intro h
      by_cases here : h = dst
      · subst here
        simpa using outcomes.owners src
      · simpa [here] using outcomes.owners h
  | unlocks at_ held =>
    exact outcomes.still (stands_setFlag false s) rfl rfl rfl rfl rfl
  | begins at_ =>
    refine outcomes.still (fun b => ?_) rfl rfl rfl rfl rfl
    simp only [Task.Stands, goto, write_tasks]
    split_ifs <;> simp_all
  | @finds a entry arg h t rest clock fresh at_ found =>
    refine outcomes.renew (t := t) ?_ (fun b other => ?_) rfl rfl rfl rfl rfl
    · simp [goto, number_tasks]
    · simp [goto, number_tasks, other]
  | @resets t entry arg h clock fresh at_ =>
    have unscheduled := idle (ok_at inv at_).2
    refine outcomes.still (fun b => ?_) rfl rfl rfl rfl rfl
    simp only [Task.Stands, goto, write_tasks]
    split_ifs <;> simp_all [Task.reset]
  | @creates a entry arg h clock fresh at_ unmapped =>
    refine outcomes.renew (t := fresh) ?_ (fun b other => ?_) rfl rfl rfl rfl rfl
    · simp [goto, number_tasks]
      rfl
    · simp [goto, number_tasks, write_tasks, other]
  | @launches t entry arg h clock fresh at_ stopped other =>
    refine outcomes.still (fun b => ?_) rfl rfl rfl rfl rfl
    simp only [Task.Stands, goto, write_tasks]
    split_ifs <;> simp_all
  | @lands t h clock fresh at_ =>
    have building : phase t = .building s.cur := (ok_at inv at_).2.1
    obtain ⟨-, away, -⟩ := named.off inv (t := t) (by simp [building])
    refine outcomes.still (fun b => ?_) rfl rfl rfl rfl rfl
    rw [switchBack_tasks away]
    split_ifs with here
    · -- The spawner goes on, in the state it was in or running.
      subst here
      cases (s.tasks s.cur).ctx.resume <;> simp_all [Task.Stands, Resume.runState]
    · simp_all [Task.Stands]
    · exact .refl _
  | @suspends t h clock fresh at_ =>
    have unscheduled := idle (ok_at inv at_).2.1
    refine outcomes.still (fun b => ?_) rfl rfl rfl rfl rfl
    simp only [Task.Stands, goto, write_tasks]
    split_ifs <;> simp_all
  | @publishes t h clock fresh at_ clear =>
    have unscheduled := idle (ok_at inv at_).2.1
    have suspended : (s.tasks t).runState = .suspended := (ok_at inv at_).2.2.2.2.2
    refine outcomes.still (fun b => ?_) rfl rfl rfl rfl rfl
    simp only [Task.Stands, goto, schedule_tasks]
    split_ifs <;> simp_all
  | @gives t h clock fresh at_ =>
    have active : phase t = .active (some (.spawner s.cur)) := (ok_at inv at_).2
    have kind : (phase t).kind ≠ .gone := by simp [active, Phase.kind]
    refine outcomes.keep (fun b => .refl _) rfl rfl ?_ ?_ outcomes.joined
    · intro h' u points same
      by_cases here : h' = h
      · subst here
        have given : t = u := by simpa [giveHandle, goto] using points
        exact given ▸ published t h' at_
      · refine outcomes.given h' u ?_ ?_
        · simpa [giveHandle, goto, here] using points
        · simpa [giveHandle, goto, here] using same
    · intro h'
      by_cases here : h' = h
      · subst here
        simpa [giveHandle, goto] using (inv.records.pending t kind).1
      · simpa [giveHandle, goto, here] using outcomes.owners h'
  | @takes h wanted t clock fresh at_ points stopped =>
    refine outcomes.keep (fun b => .refl _) rfl rfl outcomes.given outcomes.owners ?_
    intro r member
    rcases List.mem_append.mp member with taken | before
    · -- The handle's task is the one of the spawn it was given.
      obtain ⟨-, u, refers⟩ := ok_at inv at_
      have same : u = t := Option.some.inj (refers.1.symm.trans points)
      subst same
      have number : (s.tasks u).spawn = s.owner h := refers.2.2
      have result := outcomes.results u (outcomes.given h u points number) stopped
      rw [number] at result
      cases wanted with
      | false => simp at taken
      | true =>
        rw [if_pos rfl, List.mem_singleton] at taken
        exact taken ▸ result
    · exact outcomes.joined r before
  | clears at_ =>
    refine outcomes.keep (fun b => .refl _) rfl rfl ?_ outcomes.owners outcomes.joined
    intro h' u points same
    exact outcomes.given h' u (settle_handles points).2 same
  | _ => exact outcomes.still (fun b => .refl _) rfl rfl rfl rfl rfl

end Sys

end Gthread

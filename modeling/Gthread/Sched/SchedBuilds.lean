import Gthread.Sched.SchedPlaces

/-! What a spawn builds: a block that is stopped when it is started, and has an entry function. -/

namespace Gthread

open Function (update update_of_ne update_self)

namespace Sys

variable {strict : Prop} {s s' : Sys} {phase : Addr → Phase} {l : Label} {clock : Clock} {p : Pc}
  {b o t host : Addr} {h : HandleId} {tick : Int} {maxSize : Nat}

/-- What a `spawn` has made of its block, at the statement it is at. -/
def Built (s : Sys) : Pc → Prop
  | .made t _ _ _ => (s.tasks t).runState = .stopped
  | .startOnNew t _ | .startBack t _ | .started t _ => (s.tasks t).entry ≠ none
  | _ => True

/-- The blocks in the making, and those of the tasks, of which only the host was not spawned. -/
structure Builds (host : Addr) (s : Sys) : Prop where
  calls : ∀ h o, s.busy h = some o → s.Built (s.at_ o)
  entry : ∀ b, s.Known host b → b = host ∨ (s.tasks b).entry ≠ none

/-- The handles that another task is at work on stay its own. -/
theorem busy_of_step (inv : (s.life phase).Inv strict) (ok : s.step l = .ok s')
    (other : o ≠ s.cur) (works : s'.busy h = some o) : s.busy h = some o := by
  cases stepped_of_ok ok with
  | yields leaves ok =>
    obtain ⟨-, n, rfl, -⟩ := yieldLocked_ok inv.queues.running ok
    exact works
  | sleeps at_ ok =>
    obtain ⟨-, n, rfl, -⟩ := sleepFor_ok inv.queues.running ok
    exact works
  | exits at_ exits => exact (exit_exited inv at_ exits).handles.2.2 ▸ works
  | spawns at_ | waits at_ | consumes at_ => exact reserve_busy works other
  | detaches at_ | clears at_ => exact (settle_busy works).1
  | @gives t h' clock fresh at_ =>
    have works : update s.busy h' none h = some o := works
    by_cases same : h = h'
    · simp [same] at works
    · rwa [update_of_ne same] at works
  | _ => exact works

/-- A yield changes no entry function. -/
theorem entry_of_yieldLocked (running : s.running = true) (ok : s.yieldLocked clock p = .ok s')
    (b : Addr) : (s'.tasks b).entry = (s.tasks b).entry := by
  obtain ⟨-, n, rfl, -, yielded⟩ := yieldLocked_ok running ok
  refine (yielded.kept b).entry.trans ?_
  by_cases here : b = s.cur
  · simp [Node.setFlag, here]
  · simp [Node.setFlag, here]

/-- The caller of a yield goes on where it was told to. -/
theorem at_cur_of_yieldLocked (running : s.running = true)
    (ok : s.yieldLocked clock p = .ok s') : s'.at_ s.cur = p.base := by
  obtain ⟨-, n, rfl, -, yielded⟩ := yieldLocked_ok running ok
  have left : Sys.at_ { s with toNode := n } s.cur = if s.cur = s.cur then p.base else _ :=
    at_leave (m := s.setFlag true) rfl (fun b => (setFlag_fields true s b).1) yielded s.cur
  exact left.trans (if_pos rfl)

/-- Other steps change only that of a block which they make. -/
theorem entry_of_step (inv : (s.life phase).Inv strict) (linear : s.Linear l)
    (ok : s.step l = .ok s') (mine : phase b ≠ .building s.cur) (mapped : phase b ≠ .unmapped) :
    (s'.tasks b).entry = (s.tasks b).entry := by
  have flagged : ∀ flag, ((s.setFlag flag).tasks b).entry = (s.tasks b).entry := by
    intro flag
    by_cases here : b = s.cur
    · simp [Node.setFlag, here]
    · simp [Node.setFlag, here]
  -- The block that the running task makes is another one.
  have apart : ∀ {t}, phase t = .building s.cur → b ≠ t := by
    rintro t building rfl
    exact mine building
  cases stepped_of_ok ok with
  | yields leaves ok => exact entry_of_yieldLocked inv.queues.running ok b
  | sleeps => exact linear.elim
  | @exits value _ _ at_ exits =>
    obtain ⟨-, -, n, rfl, -, yielded⟩ := exit_ok inv.queues.running exits
    have finished := Node.finish_finished value (s.setFlag true)
    exact (yielded.kept b).entry.trans ((finished.kept b).2.1.trans (flagged true))
  | unlocks at_ held => exact flagged false
  | @resets t entry arg h clock fresh at_ =>
    simp [goto, write_tasks, apart (ok_at inv at_).2]
  | @creates a entry arg h clock fresh at_ unmapped =>
    have other : b ≠ fresh := by
      rintro rfl
      exact mapped ((inv.places.absent b).mp unmapped)
    simp [goto, number_tasks, write_tasks, other]
  | @launches t entry arg h clock fresh at_ stopped other =>
    by_cases own : b = s.cur
    · simp [goto, write_tasks, own, other.symm]
    · simp [goto, write_tasks, apart (ok_at inv at_).2.1, own]
  | @lands t h clock fresh at_ =>
    rw [switchBack_tasks (building_ne_cur inv (ok_at inv at_).2.1)]
    split_ifs <;> simp_all
  | @publishes t h clock fresh at_ clear =>
    simp [goto, schedule_tasks, apart (ok_at inv at_).2.1]
  | @suspends t h clock fresh at_ =>
    simp [goto, write_tasks, apart (ok_at inv at_).2.1]
  | @finds a entry arg h t rest clock fresh at_ found =>
    simp only [goto, number_tasks]
    split_ifs <;> simp_all
  | waits at_ | detaches at_ | begins at_ =>
    simp only [goto, reserve, settle, write_tasks]
    split_ifs <;> simp_all
  | _ => rfl

/-- A task that another one leaves alone is where it was. -/
theorem Foreign.at_ (foreign : Foreign phase s s' b) (other : b ≠ s.cur) : s'.at_ b = s.at_ b := by
  rw [Sys.at_, Sys.at_, if_neg other]
  split_ifs with entered
  · rw [foreign.entered entered]
  · rw [foreign.ctx]

/-- A task that is known is in use. -/
theorem Disciplined.active_of_known (d : s.Disciplined host) (inv : (s.life phase).Inv strict)
    (known : s.Known host b) : ∃ holder, phase b = .active holder := by
  rcases live_or_building inv.toCore known.going with live | building
  · exact live.1
  · rcases known.known with rfl | scheduled
    · exact d.named.host_active inv.toCore
    · have idle : (s.tasks b).scheduled = false := (inv.idle.building b building).1
      exact absurd scheduled (by simp [idle])

/-- A task in code of the program is at work on no handle. -/
theorem idle_of_user (inv : (s.life phase).Inv strict) (base : s.pc.base = .user) :
    s.busy h ≠ some s.cur := by
  intro busy
  have handle := handle_at inv rfl busy
  rw [base] at handle
  cases handle

/-- A block in the making stays as it is while others run. -/
theorem Foreign.making (foreign : Foreign phase s s' t) (inv : (s.life phase).Inv strict)
    (building : phase t = .building o) :
    (s'.tasks t).runState = (s.tasks t).runState := by
  apply foreign.state
  intro entered
  -- Nobody can run it before it is scheduled.
  have unused : ∀ holder, phase t ≠ .active holder := by
    intro holder active
    exact absurd (building.symm.trans active) (by simp)
  rcases foreign.runnable (.inl entered) with (same | queued) | joins
  · exact building_ne_cur inv building same
  · obtain ⟨⟨holder, active⟩, -⟩ := inv.queues.live t queued
    exact unused holder active
  · exact joiner_ne inv unused s.cur inv.going joins

/-- What a spawn of another task has made stays made. -/
theorem Built.keep (built : s.Built p) (ok : (s.life phase).Ok o p)
    (blocks : ∀ t, phase t = .building o → (s'.tasks t).runState = (s.tasks t).runState ∧
      (s'.tasks t).entry = (s.tasks t).entry) : s'.Built p := by
  cases p with
  | made t entry arg h => exact (blocks t ok.2.1).1.trans built
  | startOnNew t h => exact (blocks t ok.2.1).2.trans_ne built
  | startBack t h => exact (blocks t ok.2.1).2.trans_ne built
  | started t h => exact (blocks t ok.2.1).2.trans_ne built
  | _ => trivial

/-- What the running task has made of its block after its own step. -/
theorem Builds.own (builds : s.Builds host) (d : s.Disciplined host)
    (inv : (s.life phase).Inv False) (linear : s.Linear l) (ok : s.step l = .ok s')
    (works : s'.busy h = some s.cur) : s'.Built (s'.at_ s.cur) := by
  have built : ∀ {p : Pc} {h : HandleId}, s.pc = p → s.busy h = some s.cur → s.Built p.base := by
    intro p h at_ works
    have before := builds.calls h s.cur works
    rwa [at_cur, at_] at before
  -- A task in code of the program is in no spawn.
  have idle : ∀ {h}, s.pc = .user → s.busy h ≠ some s.cur :=
    fun at_ => idle_of_user inv (by rw [at_]; rfl)
  have onward : s'.cur = s.cur → s'.Built s'.pc.base → s'.Built (s'.at_ s.cur) := by
    intro cur now
    rw [← cur, at_cur]
    exact now
  cases stepped_of_ok ok with
  | nothing => exact builds.calls h s.cur works
  | yields leaves yields =>
    rename_i clock p
    have before : s.busy h = some s.cur := by
      obtain ⟨-, n, rfl, -⟩ := yieldLocked_ok inv.queues.running yields
      exact works
    rw [at_cur_of_yieldLocked inv.queues.running yields]
    cases leaves with
    | call at_ => trivial
    | join at_ => trivial
    | trap =>
      refine (built rfl before).keep (ok_at inv rfl) fun t building => ?_
      have foreign := foreign_of_yieldLocked inv yields (building_ne_cur inv building)
      exact ⟨foreign.making inv building, entry_of_yieldLocked inv.queues.running yields t⟩
  | sleeps => exact linear.elim
  | exits at_ exits =>
    have before := (exit_exited inv at_ exits).handles.2.2 ▸ works
    exact absurd before (idle at_)
  | detaches at_ => exact absurd (settle_busy works).1 (idle at_)
  | assigns at_ => exact absurd works (idle at_)
  | @unlocks p clock fresh at_ held =>
    have works : s.busy h = some s.cur := works
    refine onward rfl ((built at_ works).keep (ok_at inv at_) fun t building => ?_)
    have other := building_ne_cur inv building
    simp [goto, Node.setFlag, other]
  | @resets t entry arg h' clock fresh at_ =>
    refine onward rfl ?_
    show ((s.write t Task.reset).tasks t).runState = .stopped
    rw [write_tasks, if_pos rfl]
    rfl
  | @creates a entry arg h' clock fresh at_ unmapped =>
    refine onward rfl ?_
    simp [Built, goto, Pc.base, number_tasks, write_tasks, Task.construct]
  | @launches t entry arg h' clock fresh at_ stopped other =>
    refine onward rfl ?_
    simp [Built, goto, Pc.base, write_tasks, other]
  | @lands t h' clock fresh at_ =>
    -- It comes back to what it saved before it jumped.
    have saved := (d.starting.own t h' (by rw [at_]; rfl)).1
    have away := building_ne_cur inv (ok_at inv at_).2.1
    have before : (s.tasks t).entry ≠ none := built at_ (ok_at inv at_).1.1
    have pc : (s.switchBack t).pc = (s.tasks s.cur).ctx.resume.pc := by
      simp [switchBack, Node.gthreadSwitchTo, Node.load, away.symm]
    refine onward rfl ?_
    rw [pc, saved]
    show ((s.switchBack t).tasks t).entry ≠ none
    rw [switchBack_tasks away, if_neg away, if_pos rfl]
    exact before
  | @suspends t h' clock fresh at_ =>
    have before : (s.tasks t).entry ≠ none := built at_ (ok_at inv at_).1.1
    refine onward rfl ?_
    show ((s.write t (Task.setState .suspended)).tasks t).entry ≠ none
    rw [write_tasks, if_pos rfl]
    exact before
  | _ => exact onward rfl trivial

/-- Every step keeps it. -/
theorem Builds.step (builds : s.Builds host) (d : s.Disciplined host) (linear : s.Linear l)
    (ok : s.step l = .ok s') : s'.Builds host := by
  obtain ⟨phase, inv⟩ := d.order
  -- What the running task has built so far, at the statement it is at.
  have built : ∀ {p : Pc} {h : HandleId}, s.pc = p → p.base = p → s.busy h = some s.cur →
      s.Built p := by
    intro p h at_ plain works
    have before := builds.calls h s.cur works
    rwa [at_cur, at_, plain] at before
  refine ⟨fun h o works => ?_, fun b known => ?_⟩
  · by_cases own : o = s.cur
    swap
    · -- Another task is where it was, and so is the block that it makes.
      have before := busy_of_step inv ok own works
      obtain ⟨⟨⟨holder, active⟩, going⟩, -⟩ := inv.busy h o before
      have stays : s'.at_ o = s.at_ o := by
        refine (foreign_of_step inv linear ok own ?_ fun unmapped => ?_).at_ own
        · exact fun building => absurd (active.symm.trans building) (by simp)
        · exact absurd (active.symm.trans unmapped) (by simp)
      rw [stays]
      refine (builds.calls h o before).keep (inv.calls o ⟨⟨holder, active⟩, going⟩) ?_
      intro t building
      have away := building_ne_cur inv building
      have mine : phase t ≠ .building s.cur := by
        rw [building]
        exact fun same => own (Phase.building.inj same)
      have mapped : phase t ≠ .unmapped := by simp [building]
      have foreign := foreign_of_step inv linear ok away mine fun unmapped => absurd unmapped mapped
      exact ⟨foreign.making inv building, entry_of_step inv linear ok mine mapped⟩
    rw [own] at works ⊢
    exact builds.own d inv linear ok works
  · rcases d.known_of_step linear ok known with before | published
    · obtain ⟨holder, active⟩ := d.active_of_known inv before
      refine (builds.entry b before).imp_right fun entered => ?_
      rw [entry_of_step inv linear ok (by simp [active]) (by simp [active])]
      exact entered
    · obtain ⟨h, at_⟩ := published.builds
      right
      rw [published.entry]
      exact built at_ rfl (ok_at inv at_).1.1

end Sys

end Gthread

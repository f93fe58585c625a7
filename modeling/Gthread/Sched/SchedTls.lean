import Gthread.Sched.SchedNames

/-! Whose thread-local storage is installed, when tasks without any run on that of others. -/

namespace Gthread

open Function (update update_of_ne update_self)

namespace Node

variable {κ : Type} {n n' : Node κ} {k : κ} {clock : Clock}

/-- Which TLS block a yield leaves installed. -/
theorem yield_tls (running : n.running = true) (ok : n.yield clock k = .ok n') :
    (n'.cur = n.cur ∧ n'.tls = n.tls) ∨
      (n'.cur ≠ n.cur ∧ n'.tls = if (n.tasks n'.cur).tls then n'.cur else n.tls) := by
  obtain ⟨flushed, ready, next, flush, picked, went⟩ := yield_cases running ok
  obtain ⟨chosen, stayed⟩ := chosen_of_ok flush picked
  -- Neither the flush nor the choice of the next task installs anything.
  have same : ready.tls = n.tls := by
    obtain ⟨⟨pool, mapped, returned, rfl⟩, -, -⟩ := flushDeferred_ok flush
    obtain ⟨rq, -, rfl⟩ := getNextTask_ok picked
    show (Node.requeue _).tls = _
    unfold requeue
    split
    · rfl
    · split <;> rfl
  rcases went with ⟨-, rfl⟩ | went
  · exact .inl ⟨stayed.cur, same⟩
  · have switched := switchTask_switched went
    refine .inr ⟨switched.cur.symm ▸ stayed.cur ▸ switched.other, ?_⟩
    have owned : (ready.tasks next).tls = (n.tasks next).tls := (chosen.kept next).tls
    have other := switched.other
    simp only [switchTask, if_neg other, Except.ok.injEq] at went
    subst went
    simp [gthreadSwitchTo, load, other, owned, same]

end Node

namespace Sys

variable {s s' : Sys} {phase : Addr → Phase} {host t b : Addr} {l : Label} {tick : Int}
  {maxSize : Nat}

/-- The task that a step passes to `return_task`. -/
def returns (s : Sys) : Label → TaskPtr
  | .trap _ => if s.flag then none else s.deferred
  | .call .yield _ | .call (.exit _) _ => s.deferred
  | .call _ _ => none
  | .run _ _ =>
    match s.pc with
    | .joinYield _ _ => s.deferred
    | .returning h => s.handles h
    | _ => none

/-- A task without TLS of its own does not return the task on whose TLS block it runs. -/
def Spares (s : Sys) (l : Label) : Prop :=
  (s.tasks s.cur).tls = true ∨ s.returns l ≠ some s.tls

instance (s : Sys) (l : Label) : Decidable (s.Spares l) := inferInstanceAs (Decidable (_ ∨ _))

/-- The owner of the installed TLS block is the host, or holds a task that was not returned. -/
structure Lent (host : Addr) (s : Sys) : Prop where
  own : (s.tasks s.cur).tls = true → s.tls = s.cur
  owner : s.tls = host ∨ ((s.tasks s.tls).scheduled = true ∧ (s.tasks s.tls).spawn ≠ 0 ∧
    (s.tasks s.tls).spawn ∉ s.returned.map Return.spawn)

/-- The TLS block in use belongs to the host, or to a task that is neither pooled nor destroyed. -/
structure Installed (host : Addr) (s : Sys) : Prop where
  alive : s.tls = host ∨ (s.tls ∉ s.pool ∧ s.mapped s.tls = true)
  -- The statements that reset a block or unmap it are about other blocks.
  reset : ∀ t entry arg h, s.pc = .makeFound t entry arg h → t ≠ s.tls
  unmapped : ∀ t h, s.pc = .returnDestroy t h → t ≠ s.tls

/-- The owner of the installed block is in use. -/
theorem Lent.kind (lent : s.Lent host) (named : s.Named host) (core : (s.life phase).Core) :
    (phase s.tls).kind ≠ .gone ∧ (phase s.tls).kind ≠ .building := by
  rcases lent.owner with same | ⟨scheduled, spawned, pending⟩
  · obtain ⟨holder, active⟩ := named.host_active core
    simp [same, active, Phase.kind]
  · refine ⟨fun gone => ?_, fun building => ?_⟩
    · exact (core.records.gone s.tls gone).elim pending spawned
    · rw [show (s.tasks s.tls).scheduled = false from (core.idle.building s.tls building).1]
        at scheduled
      cases scheduled

/-- A step that leaves the installed block and its owner's record alone. -/
theorem Lent.keep (lent : s.Lent host) (cur : s'.cur = s.cur) (tls : s'.tls = s.tls)
    (returned : s'.returned = s.returned)
    (own : (s'.tasks s.cur).tls = (s.tasks s.cur).tls)
    (scheduled : (s.tasks s.tls).scheduled = true → (s'.tasks s.tls).scheduled = true)
    (spawn : (s'.tasks s.tls).spawn = (s.tasks s.tls).spawn) : s'.Lent host where
  own := by
    rw [cur, tls, own]
    exact lent.own
  owner := by
    rw [tls, returned, spawn]
    exact lent.owner.imp_right fun owner => ⟨scheduled owner.1, owner.2⟩

/-- A write to a block that keeps its number. -/
theorem Lent.write (lent : s.Lent host) (t : Addr) (f : Task Pc → Task Pc)
    (own : (f (s.tasks t)).tls = (s.tasks t).tls)
    (scheduled : (f (s.tasks t)).scheduled = (s.tasks t).scheduled)
    (spawn : (f (s.tasks t)).spawn = (s.tasks t).spawn) : (s.write t f).Lent host := by
  have fields : ∀ b, ((s.write t f).tasks b).tls = (s.tasks b).tls ∧
      ((s.write t f).tasks b).scheduled = (s.tasks b).scheduled ∧
      ((s.write t f).tasks b).spawn = (s.tasks b).spawn := by
    intro b
    rw [write_tasks]
    split
    · rename_i here
      rw [here]
      exact ⟨own, scheduled, spawn⟩
    · exact ⟨rfl, rfl, rfl⟩
  refine lent.keep rfl rfl rfl (fields _).1 ?_ (fields _).2.2
  exact fun before => (fields _).2.1.trans before

/-- Giving up the processor, when the block that was deferred is not the installed one. -/
theorem Lent.yield {clock : Clock} {k : Pc} {n : Node Pc} (lent : s.Lent host)
    (named : s.Named host) (core : (s.life phase).Core) (spares : s.deferred ≠ some s.tls)
    (ok : s.yield clock k = .ok n) : Lent host { s with toNode := n } := by
  have yielded := Node.yield_yielded core.queues.running ok
  have kept := yielded.kept
  have distinct := core.records.distinct
  -- A number that was pending is still so, unless it is the deferred block's.
  have pending : ∀ b, s.deferred ≠ some b → (phase b).kind ≠ .gone →
      (s.tasks b).spawn ∉ n.returned.map Return.spawn := by
    intro b other in_use
    have before := (core.records.pending b in_use).2
    rcases yielded.flushed with ⟨-, back⟩ | ⟨d, held, back⟩
    · rw [back.returned]
      exact before
    · have deferred : phase d = .deferred := (core.places.held d).mp held
      have apart : (s.tasks b).spawn ≠ (s.tasks d).spawn := by
        intro same
        have here := distinct b d in_use (by simp [deferred, Phase.kind]) same
        exact other (here ▸ held)
      rw [back.returned]
      simpa [apart] using before
  have stays : s.tls = host ∨ ((n.tasks s.tls).scheduled = true ∧ (n.tasks s.tls).spawn ≠ 0 ∧
      (n.tasks s.tls).spawn ∉ n.returned.map Return.spawn) := by
    rcases lent.owner with own | ⟨scheduled, spawned, -⟩
    · exact .inl own
    · refine .inr ?_
      rw [(kept s.tls).scheduled, (kept s.tls).spawn]
      exact ⟨scheduled, spawned, pending s.tls spares (lent.kind named core).1⟩
  rcases Node.yield_tls core.queues.running ok with ⟨cur, tls⟩ | ⟨other, tls⟩
  · refine ⟨?_, ?_⟩
    · show (n.tasks n.cur).tls = true → n.tls = n.cur
      rw [cur, tls, (kept s.cur).tls]
      exact lent.own
    · show n.tls = host ∨ _
      rw [tls]
      exact stays
  · have next : some n.cur ∈ s.rq.runqueue := by
      rcases yielded.runnable_cases core.queues.nonNull core.queues.awake (.inl rfl) with
        ⟨same, -⟩ | queued
      · exact absurd same other
      · exact queued
    obtain ⟨⟨holder, active⟩, going⟩ := core.queues.live n.cur next
    refine ⟨?_, ?_⟩
    · show (n.tasks n.cur).tls = true → n.tls = n.cur
      intro owns
      rw [tls, if_pos ((kept n.cur).tls ▸ owns)]
    · show n.tls = host ∨ _
      rw [tls]
      by_cases owns : (s.tasks n.cur).tls = true
      · -- The next task installs its own block.
        rw [if_pos owns]
        rcases named.scheduled n.cur (.inr next) with same | scheduled
        · exact .inl same
        · rcases named.numbered n.cur going with same | spawned
          · exact .inl same
          · refine .inr ⟨(kept n.cur).scheduled.trans scheduled,
              (kept n.cur).spawn.symm ▸ spawned, ?_⟩
            rw [(kept n.cur).spawn]
            have active : phase n.cur = .active holder := active
            refine pending n.cur (fun held => ?_) (by simp [active, Phase.kind])
            rw [show phase n.cur = .deferred from (core.places.held n.cur).mp held] at active
            cases active
      · rw [if_neg owns]
        exact stays

/-- The running task's own block is not deferred. -/
theorem Lent.own_not_deferred {strict : Prop} (lent : s.Lent host)
    (inv : (s.life phase).Inv strict) (owns : (s.tasks s.cur).tls = true) :
    s.deferred ≠ some s.tls := by
  rw [lent.own owns]
  intro held
  obtain ⟨holder, active⟩ : ∃ holder, phase s.cur = .active holder := inv.active
  rw [show phase s.cur = .deferred from (inv.places.held s.cur).mp held] at active
  cases active

/-- The installed block stays in use, as long as nobody returns the block it runs on. -/
theorem Lent.step {strict : Prop} (lent : s.Lent host) (named : s.Named host)
    (inv : (s.life phase).Inv strict) (linear : s.Linear l) (spares : s.Spares l)
    (ok : s.step l = .ok s') : s'.Lent host := by
  have running : s.running = true := inv.queues.running
  obtain ⟨in_use, published⟩ := lent.kind named inv.toCore
  have congr : ∀ {s₁ s₂ : Sys}, s₁.Lent host → s₂.cur = s₁.cur → s₂.tls = s₁.tls →
      s₂.returned = s₁.returned → s₂.tasks = s₁.tasks → s₂.Lent host := by
    intro s₁ s₂ lent cur tls returned tasks
    refine lent.keep cur tls returned ?_ ?_ ?_
    all_goals simp [tasks]
  -- A block that is about to be used for a new task is not the installed one.
  have apart : ∀ t, (phase t).kind = .gone ∨ (phase t).kind = .building →
      t ≠ s.tls ∧ t ≠ s.cur := by
    intro t idle
    refine ⟨?_, ?_⟩
    · rintro rfl
      exact idle.elim in_use published
    · rintro rfl
      obtain ⟨holder, active⟩ : ∃ holder, phase s.cur = .active holder := inv.active
      simp [active, Phase.kind] at idle
  have flagged : ∀ flag, Lent host { s with toNode := s.setFlag flag } := fun flag =>
    lent.write s.cur (fun t => { t with noPreemptFlag := flag }) rfl rfl rfl
  cases stepped_of_ok ok with
  | nothing => exact lent
  | yields leaves ok =>
    obtain ⟨clear, n, rfl, done, -⟩ := yieldLocked_ok running ok
    have kept : s.deferred ≠ some s.tls := by
      rcases spares with owns | kept
      · exact lent.own_not_deferred inv owns
      · cases leaves with
        | trap => simpa [returns, clear] using kept
        | call => exact kept
        | join at_ => simpa [returns, at_] using kept
    have core : (({ s with toNode := s.setFlag true } : Sys).life phase).Core :=
      (life_setFlag true phase s).symm ▸ inv.toCore
    exact (flagged true).yield (named.setFlag true) core kept done
  | sleeps => exact linear.elim
  | @exits value clock _ at_ ok =>
    obtain ⟨entered, -, n, rfl, done, -⟩ := exit_ok running ok
    have other : s.cur ≠ host := by
      intro same
      exact entered (same ▸ named.entry)
    have kept : s.deferred ≠ some s.tls := by
      rcases spares with owns | kept
      · exact lent.own_not_deferred inv owns
      · exact kept
    have here : (s.life phase).at_ s.cur = .user := by rw [life_at_cur, at_]; rfl
    have finished := Node.finish_finished value (s.setFlag true)
    have stopped : Lent host { s with toNode := (s.setFlag true).finish value } := by
      refine (flagged true).keep finished.cur finished.tls finished.returned
        (finished.kept _).2.2.1 ?_ (finished.kept _).2.2.2.2.2.1
      intro before
      have scheduled := finished.scheduled s.tls
      exact scheduled.trans (by simp [show ((s.setFlag true).tasks s.tls).scheduled = true from
        before])
    obtain ⟨rq, woken, life⟩ := life_finish value phase { s with toNode := s.setFlag true }
    rw [life_setFlag] at woken life
    obtain ⟨core, -⟩ := inv.stop here woken
    rw [← life] at core
    have still : ((s.setFlag true).finish value).deferred ≠
        some ((s.setFlag true).finish value).tls := by
      rw [finished.deferred, finished.tls]
      exact kept
    have left := stopped.yield ((named.setFlag true).finish other finished) core still done
    exact congr left rfl rfl rfl rfl
  | @waits h wanted t clock at_ points clear unjoined going =>
    refine congr ((lent.write t (fun b => { b with joiner := some s.cur }) rfl rfl rfl).write s.cur
      (Task.setState .waiting) rfl rfl rfl) rfl rfl rfl rfl
  | @detaches h t clock at_ points clear going =>
    exact congr (lent.write t (fun b => { b with detached := true }) rfl rfl rfl) rfl rfl rfl rfl
  | unlocks at_ held => exact congr (flagged false) rfl rfl rfl rfl
  | begins at_ =>
    exact congr (lent.write s.cur (Task.setState .running) rfl rfl rfl) rfl rfl rfl rfl
  | @finds a entry arg h t rest clock fresh at_ found =>
    have pooled : phase t = .pooled := by
      refine (inv.places.pooled t).mp ?_
      exact (Node.findTask_perm found).mem_iff.mpr List.mem_cons_self
    obtain ⟨other, away⟩ := apart t (by simp [pooled, Phase.kind])
    refine lent.keep rfl rfl rfl ?_ ?_ ?_
    all_goals simp [goto, number_tasks, other.symm, away.symm]
  | @resets t entry arg h clock fresh at_ =>
    have building : phase t = .building s.cur := (ok_at inv at_).2
    obtain ⟨other, away⟩ := apart t (by simp [building, Phase.kind])
    refine lent.keep rfl rfl rfl ?_ ?_ ?_
    all_goals simp [goto, write_tasks, other.symm, away.symm]
  | @creates a entry arg h clock fresh at_ unmapped =>
    have absent : phase fresh = .unmapped := (inv.places.absent fresh).mp unmapped
    obtain ⟨other, away⟩ := apart fresh (by simp [absent, Phase.kind])
    refine lent.keep rfl rfl rfl ?_ ?_ ?_
    all_goals simp [goto, number_tasks, write_tasks, other.symm, away.symm]
  | @launches t entry arg h clock fresh at_ stopped other =>
    exact congr ((lent.write t (fun b => { b with entry := some entry, arg := arg }) rfl rfl
      rfl).write s.cur (Task.save ⟨.plain (.startBack t h), s.stack⟩) rfl rfl rfl) rfl rfl rfl rfl
  | @lands t h clock fresh at_ =>
    have building : phase t = .building s.cur := (ok_at inv at_).2.1
    obtain ⟨other, away⟩ := apart t (by simp [building, Phase.kind])
    refine lent.keep rfl rfl rfl ?_ ?_ ?_
    all_goals
      rw [switchBack_tasks away]
      split_ifs <;> simp_all
  | @suspends t h clock fresh at_ =>
    exact congr (lent.write t (Task.setState .suspended) rfl rfl rfl) rfl rfl rfl rfl
  | @publishes t h clock fresh at_ clear =>
    refine lent.keep rfl rfl rfl ?_ ?_ ?_
    all_goals
      simp only [goto, schedule_tasks]
      split_ifs <;> simp_all
  | @returns h t clock fresh at_ points unlocked =>
    obtain ⟨-, u, ⟨points', active, -⟩, stopped⟩ : (s.life phase).Ok s.cur (.returning h) :=
      ok_at inv at_
    obtain rfl : t = u := by simpa [points] using points'
    have active : phase t = .active (some (.handle h)) := active
    have other : t ≠ s.tls := by
      rintro rfl
      rcases spares with owns | kept
      · rw [lent.own owns] at stopped
        exact inv.going stopped
      · exact kept (by simpa [Sys.returns, at_] using points)
    have differs : (s.tasks s.tls).spawn ≠ (s.tasks t).spawn := by
      intro same
      exact other (inv.records.distinct s.tls t in_use (by simp [active, Phase.kind]) same).symm
    refine ⟨lent.own, ?_⟩
    rcases lent.owner with own | ⟨scheduled, spawned, pending⟩
    · exact .inl own
    · exact .inr ⟨scheduled, spawned, by simpa [goto, differs] using pending⟩
  | _ => exact congr lent rfl rfl rfl rfl

/-- In every run in which no task returns the block it borrows, the installed block is alive. -/
theorem installed_of_spares
    (reached : Run.Reaches step (fun s l => s.Linear l ∧ s.Spares l) (start host tick maxSize) s) :
    s.Installed host := by
  have holds : s.InOrder False ∧ s.Named host ∧ s.Lent host := by
    refine reached.invariant (P := fun s => s.InOrder False ∧ s.Named host ∧ s.Lent host)
      ⟨inOrder_start False host tick maxSize, named_start host tick maxSize, fun _ => rfl,
        .inl rfl⟩ ?_
    rintro s l s' ⟨order, named, lent⟩ ⟨linear, spares⟩ ok
    obtain ⟨phase, inv⟩ := order
    exact ⟨inOrder_step ⟨phase, inv⟩ linear False.elim ok, named.step inv linear ok,
      lent.step named inv linear spares ok⟩
  obtain ⟨⟨phase, inv⟩, named, lent⟩ := holds
  obtain ⟨in_use, published⟩ := lent.kind named inv.toCore
  refine ⟨.inr ⟨?_, ?_⟩, ?_, ?_⟩
  · intro member
    simp [show phase s.tls = .pooled from (inv.places.pooled s.tls).mp member, Phase.kind] at in_use
  · by_contra absent
    have unmapped := (inv.places.absent s.tls).mp (by simpa using absent)
    simp [show phase s.tls = .unmapped from unmapped, Phase.kind] at in_use
  · rintro t entry arg h at_ rfl
    have building : phase s.tls = .building s.cur := (ok_at inv at_).2
    simp [building, Phase.kind] at published
  · rintro t h at_ rfl
    have returning : phase s.tls = .returning s.cur := (ok_at inv at_).2.1
    simp [returning, Phase.kind] at in_use

/-- Task 1 has TLS, task 2 has none and is switched to from task 1. -/
def borrowLabels : List Label :=
  List.flatten [spawnInto kDefaultAttr 0 1, spawnInto kLightAttr 1 2,
    [.call .yield (clockAt 5000), .run stillClock 0, .call .yield (clockAt 6000),
      .run stillClock 0]]

/-- Task 2 runs on the block of task 1, which is alive. -/
theorem installed_of_spares_borrowed : ∃ s,
    Run.Reaches step (fun s l => s.Linear l ∧ s.Spares l) (start 0 0 4) s ∧ s.cur = 2 ∧
      s.tls = 1 ∧ s.Installed 0 := by
  have run : ∃ s, Run.Reaches step (fun s l => s.Linear l ∧ s.Spares l) (start 0 0 4) s ∧
      s.cur = 2 ∧ s.tls = 1 := Run.Reaches.of_check borrowLabels (by decide +kernel)
  obtain ⟨s, reached, cur, tls⟩ := run
  exact ⟨s, reached, cur, tls, installed_of_spares reached⟩

/-- Task 2 joins task 1, which exits, and task 2 returns it. -/
def joinLabels : List Label :=
  List.flatten [borrowLabels, [.call (.join 0 false) stillClock, .run (clockAt 6000) 0,
    .run stillClock 0, .call (.exit 3) (clockAt 6000)], List.replicate 4 (.run stillClock 0)]

/-- A task without TLS that joins the task it took over from runs on a block of the free list. -/
theorem joiner_returns_installed : ∃ s, Run.Reaches step Linear (start 0 0 4) s ∧
    ¬ s.Installed 0 := by
  have run : ∃ s, Run.Reaches step Linear (start 0 0 4) s ∧ s.tls = 1 ∧ s.pool = [1] :=
    Run.Reaches.of_check joinLabels (by decide +kernel)
  obtain ⟨s, reached, tls, pool⟩ := run
  refine ⟨s, reached, fun installed => ?_⟩
  rcases installed.alive with host | ⟨out, -⟩
  · simp [tls] at host
  · simp [tls, pool] at out

end Sys

end Gthread

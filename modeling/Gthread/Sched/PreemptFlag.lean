import Gthread.Sched.SchedForeign
import Gthread.Sched.SchedStart

/-! The preempt flag of every task: set where a critical section is open, and by its task alone. -/

namespace Gthread

open Function (update update_of_ne update_self)

/-- Whether a statement is the end of a critical section. -/
def Pc.ends : Pc → Bool
  | .unlock _ => true
  | _ => false

/-- A task that was switched away from, inside the critical section it will end. -/
structure Task.Left (t : Task Pc) : Prop where
  resume : ∃ p, p.ends = false ∧ t.ctx.resume = .switched (.unlock p)
  flag : t.noPreemptFlag = true

/-- A task that never ran, and begins outside any critical section. -/
structure Task.Unrun (t : Task Pc) : Prop where
  resume : t.ctx.resume = .plain .prologue
  flag : t.noPreemptFlag = false

namespace Sys

variable {strict : Prop} {s s' : Sys} {phase : Addr → Phase} {l : Label} {clock : Clock} {p : Pc}
  {b t host : Addr} {tick : Int} {maxSize : Nat}

/-- What a `spawn` needs of the flag of the block it makes. -/
def Bare (s : Sys) : Pc → Prop
  | .made t _ _ _ | .startOnNew t _ => (s.tasks t).noPreemptFlag = false
  | .startBack t _ | .started t _ => (s.tasks t).Unrun
  | _ => True

/-- Preempt flags that are set where a critical section is open, and nowhere else. -/
structure Balanced (host : Addr) (s : Sys) : Prop where
  own : s.flag = true ↔ s.pc.ends = true
  -- Critical sections are not nested.
  inner : ∀ p, s.pc = .unlock p → p.ends = false
  away : ∀ b, b ≠ s.cur → (b = host ∨ (s.tasks b).scheduled = true) →
    (s.tasks b).Left ∨ (s.tasks b).Unrun
  making : ∀ h o, s.busy h = some o → s.Bare (s.at_ o)
  callers : ∀ h o, s.busy h = some o → o = host ∨ (s.tasks o).scheduled = true

/-- Outside the ends of critical sections the flag is clear. -/
theorem Balanced.clear (balanced : s.Balanced host) (at_ : s.pc = p) (plain : p.ends = false) :
    s.flag = false := by
  rw [← at_] at plain
  cases flag : s.flag with
  | false => rfl
  | true =>
    rw [balanced.own.mp flag] at plain
    cases plain

/-- What a spawn needs depends on the flag and the context of its block. -/
theorem Bare.keep {o : Addr} (bare : s.Bare p) (ok : (s.life phase).Ok o p)
    (same : ∀ t, phase t = .building o → (s'.tasks t).ctx = (s.tasks t).ctx ∧
      (s'.tasks t).noPreemptFlag = (s.tasks t).noPreemptFlag) : s'.Bare p := by
  -- The blocks of all these statements are in the making.
  cases p with
  | made t entry arg h => exact (same t ok.2.1).2.trans bare
  | startOnNew t h => exact (same t ok.2.1).2.trans bare
  | startBack t h =>
    obtain ⟨ctx, flag⟩ := same t ok.2.1
    exact ⟨ctx ▸ bare.resume, flag.trans bare.flag⟩
  | started t h =>
    obtain ⟨ctx, flag⟩ := same t ok.2.1
    exact ⟨ctx ▸ bare.resume, flag.trans bare.flag⟩
  | _ => trivial

/-- Whoever waits for a task that has not stopped is known to the scheduler. -/
theorem Balanced.joiner {j : Addr} (balanced : s.Balanced host) (inv : (s.life phase).Inv strict)
    (going : (s.tasks t).runState ≠ .stopped) (joins : (s.tasks t).joiner = some j) :
    j = host ∨ (s.tasks j).scheduled = true := by
  obtain ⟨-, -, -, h, -, -, -, busy⟩ := joining_of_joiner inv going joins
  exact balanced.callers h j busy

/-- A block whose flag and context stay, and which the scheduler knows if it did before. -/
structure AtRest (host : Addr) (phase : Addr → Phase) (s s' : Sys) (b : Addr) : Prop where
  ctx : (s'.tasks b).ctx = (s.tasks b).ctx
  flag : (s'.tasks b).noPreemptFlag = (s.tasks b).noPreemptFlag
  entered : b = s'.cur → s'.pc = (s.tasks b).ctx.resume.pc
  serves : phase b ≠ .pooled → (s.tasks b).scheduled = true → (s'.tasks b).scheduled = true
  known : (b = host ∨ (s'.tasks b).scheduled = true) → b = host ∨ (s.tasks b).scheduled = true

/-- Blocks that a step of the scheduler's interface leaves alone are of this kind. -/
theorem Foreign.atRest (foreign : Foreign phase s s' b) (balanced : s.Balanced host)
    (inv : (s.life phase).Inv strict) : AtRest host phase s s' b where
  ctx := foreign.ctx
  flag := foreign.flag
  entered := foreign.entered
  serves := foreign.serves
  known := by
    rintro (same | after)
    · exact .inl same
    · exact (foreign.known after).elim .inr (balanced.joiner inv inv.going)

namespace AtRest

/-- A task that is not running goes on where it was. -/
theorem at_ (atRest : AtRest host phase s s' b) (other : b ≠ s.cur) : s'.at_ b = s.at_ b := by
  rw [Sys.at_, Sys.at_, if_neg other]
  split_ifs with entered
  · rw [atRest.entered entered]
  · rw [atRest.ctx]

/-- A task at rest stays at rest. -/
theorem rests (atRest : AtRest host phase s s' b)
    (rests : (s.tasks b).Left ∨ (s.tasks b).Unrun) : (s'.tasks b).Left ∨ (s'.tasks b).Unrun := by
  refine rests.imp (fun left => ?_) fun unrun => ?_
  · exact ⟨atRest.ctx ▸ left.resume, atRest.flag.trans left.flag⟩
  · exact ⟨atRest.ctx ▸ unrun.resume, atRest.flag.trans unrun.flag⟩

end AtRest

/-- The spawns of other tasks, and all callers, after a step of the running task. -/
theorem Balanced.calls (balanced : s.Balanced host) (inv : (s.life phase).Inv strict)
    (atRest : ∀ b, b ≠ s.cur → ((∃ holder, phase b = .active holder) ∨
      ∃ o, o ≠ s.cur ∧ phase b = .building o) → AtRest host phase s s' b)
    (busy : ∀ h o, s'.busy h = some o → o ≠ s.cur → s.busy h = some o)
    (caller : s.cur = host ∨ (s'.tasks s.cur).scheduled = true)
    (makes : ∀ h, s'.busy h = some s.cur → s'.Bare (s'.at_ s.cur)) :
    (∀ h o, s'.busy h = some o → s'.Bare (s'.at_ o)) ∧
      ∀ h o, s'.busy h = some o → o = host ∨ (s'.tasks o).scheduled = true := by
  refine ⟨fun h o works => ?_, fun h o works => ?_⟩
  all_goals by_cases here : o = s.cur
  · subst here
    exact makes h works
  · have before := busy h o works here
    obtain ⟨live, -⟩ := inv.busy h o before
    have own : (s.life phase).Ok o (s.at_ o) := inv.calls o live
    rw [(atRest o here (.inl live.1)).at_ here]
    refine Bare.keep (balanced.making h o before) own fun t building => ?_
    have kept := atRest t (building_ne_cur inv building) (.inr ⟨o, here, building⟩)
    exact ⟨kept.ctx, kept.flag⟩
  · subst here
    exact caller
  · have before := busy h o works here
    obtain ⟨holder, active⟩ : ∃ holder, phase o = .active holder := (inv.busy h o before).1.1
    have used : phase o ≠ .pooled := by simp [active]
    refine (balanced.callers h o before).imp_right ?_
    exact (atRest o here (.inl ⟨holder, active⟩)).serves used

/-- A step after which the same task runs; the blocks in `B` are new. -/
theorem Balanced.onward {B : Addr → Prop} (balanced : s.Balanced host) (named : s.Named host)
    (inv : (s.life phase).Inv strict) (cur : s'.cur = s.cur)
    (own : s'.flag = true ↔ s'.pc.ends = true) (inner : ∀ p, s'.pc = .unlock p → p.ends = false)
    (atRest : ∀ b, b ≠ s.cur → phase b ≠ .building s.cur → ¬ B b → AtRest host phase s s' b)
    (absent : ∀ b, B b → phase b = .unmapped)
    (new : ∀ b, phase b = .building s.cur ∨ B b → (s'.tasks b).scheduled = true →
      (s'.tasks b).Unrun)
    (busy : ∀ h o, s'.busy h = some o → o ≠ s.cur → s.busy h = some o)
    (caller : (s'.tasks s.cur).scheduled = (s.tasks s.cur).scheduled)
    (makes : ∀ h, s'.busy h = some s.cur → s'.Bare s'.pc.base) : s'.Balanced host := by
  have serves : s.cur = host ∨ (s'.tasks s.cur).scheduled = true :=
    (named.scheduled s.cur (.inl rfl)).imp_right caller.trans
  have at_ : s'.at_ s.cur = s'.pc.base := if_pos cur.symm
  -- Tasks in use, and blocks that others make, are not new.
  have others : ∀ b, b ≠ s.cur → ((∃ holder, phase b = .active holder) ∨
      ∃ o, o ≠ s.cur ∧ phase b = .building o) → AtRest host phase s s' b := by
    rintro b other (⟨holder, active⟩ | ⟨o, others, building⟩)
    · refine atRest b other (by simp [active]) fun fresh => ?_
      exact absurd (active.symm.trans (absent b fresh)) (by simp)
    · refine atRest b other ?_ fun fresh => ?_
      · rw [building]
        exact fun same => others (Phase.building.inj same)
      · exact absurd (building.symm.trans (absent b fresh)) (by simp)
  obtain ⟨making, callers⟩ := balanced.calls inv others busy serves fun h works =>
    at_ ▸ makes h works
  refine ⟨own, inner, fun b other serves => ?_, making, callers⟩
  rw [cur] at other
  by_cases touched : phase b = .building s.cur ∨ B b
  · -- A block that holds no task is not the host's.
    have unused : ∀ holder, phase b ≠ .active holder := by
      rcases touched with building | fresh
      · simp [building]
      · simp [absent b fresh]
    exact .inr (new b touched (serves.resolve_left (named.off inv unused).1))
  · rw [not_or] at touched
    have kept := atRest b other touched.1 touched.2
    exact kept.rests (balanced.away b other (kept.known serves))

/-- A statement outside critical sections that leads to another one. -/
theorem Balanced.proceed (balanced : s.Balanced host) (named : s.Named host)
    (inv : (s.life phase).Inv strict) (at_ : s.pc = p) (plain : p.ends = false)
    (atRest : ∀ b, b ≠ s.cur → phase b ≠ .building s.cur → AtRest host phase s s' b)
    (cur : s'.cur = s.cur) (outside : s'.pc.ends = false)
    (self : (s'.tasks s.cur).noPreemptFlag = (s.tasks s.cur).noPreemptFlag ∧
      (s'.tasks s.cur).scheduled = (s.tasks s.cur).scheduled)
    (new : ∀ b, phase b = .building s.cur → (s'.tasks b).scheduled = true → (s'.tasks b).Unrun)
    (busy : ∀ h o, s'.busy h = some o → o ≠ s.cur → s.busy h = some o)
    (makes : ∀ h, s'.busy h = some s.cur → s'.Bare s'.pc.base) : s'.Balanced host := by
  have clear : s'.flag = false := by
    rw [Node.flag, cur, self.1]
    exact balanced.clear at_ plain
  refine balanced.onward (B := fun _ => False) named inv cur ?_ ?_
    (fun b other made _ => atRest b other made) (fun b => False.elim)
    (fun b touched => new b (touched.resolve_right id)) busy self.2 makes
  · rw [clear, outside]
  · intro q here
    rw [here] at outside
    cases outside

/-- Another task runs next, and the caller goes on later at the end of its critical section. -/
theorem Balanced.move (balanced : s.Balanced host) (inv : (s.life phase).Inv strict)
    (plain : p.ends = false) (moved : s'.cur ≠ s.cur)
    (atRest : ∀ b, b ≠ s.cur → AtRest host phase s s' b)
    (next : s'.cur = host ∨ (s.tasks s'.cur).scheduled = true)
    (saved : (s'.tasks s.cur).ctx.resume = .switched (.unlock p))
    (flagged : (s'.tasks s.cur).noPreemptFlag = true)
    (caller : s.cur = host ∨ (s'.tasks s.cur).scheduled = true) (busy : s'.busy = s.busy)
    (makes : ∀ h, s.busy h = some s.cur → s'.Bare p.base) : s'.Balanced host := by
  have at_ : s'.at_ s.cur = p.base := by
    rw [Sys.at_, if_neg moved.symm, saved]
    rfl
  obtain ⟨making, callers⟩ := balanced.calls inv (fun b other _ => atRest b other)
    (fun h o works _ => busy ▸ works) caller fun h works => at_ ▸ makes h (busy ▸ works)
  -- The task that runs next was at rest, and its flag says how it is entered.
  have kept := atRest s'.cur moved
  have entered : s'.pc = (s'.tasks s'.cur).ctx.resume.pc := by
    rw [kept.ctx]
    exact kept.entered rfl
  have rested := kept.rests (balanced.away s'.cur moved next)
  refine ⟨?_, ?_, fun b elsewhere serves => ?_, making, callers⟩
  · rcases rested with ⟨⟨q, -, resume⟩, flag⟩ | ⟨resume, flag⟩
    · rw [Node.flag, flag, entered, resume]
      exact ⟨fun _ => rfl, fun _ => rfl⟩
    · rw [Node.flag, flag, entered, resume]
      simp [Resume.pc, Pc.ends]
  · intro q here
    rcases rested with ⟨⟨q', inside, resume⟩, -⟩ | ⟨resume, -⟩
    · rw [entered, resume] at here
      exact Pc.unlock.inj here ▸ inside
    · rw [entered, resume] at here
      cases here
  · by_cases left : b = s.cur
    · subst left
      exact .inl ⟨⟨p, plain, saved⟩, flagged⟩
    · have kept := atRest b left
      exact kept.rests (balanced.away b left (kept.known serves))

/-- Giving up the processor from outside a critical section. -/
theorem Balanced.leave {m : Node Pc} (balanced : s.Balanced host) (named : s.Named host)
    (inv : (s.life phase).Inv strict) (plain : p.ends = false) (cur : m.cur = s.cur)
    (foreign : ∀ b, b ≠ s.cur → Foreign phase s s' b)
    (flag : (m.tasks s.cur).noPreemptFlag = true)
    (scheduled : (s.tasks s.cur).scheduled = true → (m.tasks s.cur).scheduled = true)
    (busy : s'.busy = s.busy) (makes : ∀ h, s.busy h = some s.cur → s'.Bare p.base)
    (yielded : Node.Yielded clock (.unlock p) m s'.toNode) : s'.Balanced host := by
  have flagged : (s'.tasks s.cur).noPreemptFlag = true :=
    (yielded.kept s.cur).noPreemptFlag.trans flag
  have caller : s.cur = host ∨ (s'.tasks s.cur).scheduled = true := by
    refine (named.scheduled s.cur (.inl rfl)).imp_right fun before => ?_
    exact (yielded.kept s.cur).scheduled.trans (scheduled before)
  have atRest : ∀ b, b ≠ s.cur → AtRest host phase s s' b :=
    fun b other => (foreign b other).atRest balanced inv
  rcases yielded.went with ⟨stayed, pc⟩ | moved
  · have same : s'.cur = s.cur := stayed.cur.trans cur
    have at_ : s'.at_ s.cur = p.base := by
      rw [Sys.at_, if_pos same.symm, pc]
      rfl
    obtain ⟨making, callers⟩ := balanced.calls inv (fun b other _ => atRest b other)
      (fun h o works _ => busy ▸ works) caller fun h works => at_ ▸ makes h (busy ▸ works)
    refine ⟨?_, ?_, fun b other serves => ?_, making, callers⟩
    · rw [Node.flag, same, flagged, pc]
      exact ⟨fun _ => rfl, fun _ => rfl⟩
    · intro q here
      rw [pc] at here
      exact Pc.unlock.inj here ▸ plain
    · rw [same] at other
      exact (atRest b other).rests (balanced.away b other ((atRest b other).known serves))
  · have other : s'.cur ≠ s.cur := cur ▸ moved.other
    refine balanced.move inv plain other atRest ?_ ?_ flagged caller busy makes
    · exact ((foreign s'.cur other).runnable (.inl rfl)).elim (named.scheduled s'.cur)
        (balanced.joiner inv inv.going)
    · rw [← cur, moved.saved]

/-- Every step keeps the flags balanced, while the way back from new stacks stands. -/
theorem Balanced.step (balanced : s.Balanced host) (named : s.Named host) (starting : s.Starting)
    (inv : (s.life phase).Inv strict) (linear : s.Linear l) (ok : s.step l = .ok s') :
    s'.Balanced host := by
  have foreign := fun {b : Addr} => foreign_of_step (b := b) inv linear ok
  -- What a block in the making says of its own future.
  have idle : ∀ b, phase b = .building s.cur → (s.tasks b).scheduled = false := fun b building =>
    (inv.idle.building b (by simp [building, Phase.kind])).1
  have bare : ∀ {p : Pc} {h : HandleId}, s.pc = p → s.busy h = some s.cur → s.Bare p.base := by
    intro p h at_ works
    have before := balanced.making h s.cur works
    rwa [at_cur, at_] at before
  have clear : ∀ {p : Pc}, s.pc = p → p.ends = false → s.flag = false :=
    fun at_ plain => balanced.clear at_ plain
  have same : ∀ (h : HandleId) (o : Addr), s.busy h = some o → o ≠ s.cur → s.busy h = some o :=
    fun _ _ works _ => works
  have elsewhere : (∀ a entry arg h, s.pc ≠ .makeCreate a entry arg h) → ∀ b, b ≠ s.cur →
      phase b ≠ .building s.cur → AtRest host phase s s' b :=
    fun uncreated b other made => (foreign other made fun _ => uncreated).atRest balanced inv
  have still : ∀ {u : Task Pc} b, phase b = .building s.cur → (s.tasks b).scheduled = true →
      u.Unrun := by
    intro u b building scheduled
    rw [idle b building] at scheduled
    cases scheduled
  cases stepped_of_ok ok with
  | nothing => exact balanced
  | @yields _ clock p _ leaves ok =>
    obtain ⟨unset, n, rfl, -, yielded⟩ := yieldLocked_ok inv.queues.running ok
    have fields := setFlag_fields true s
    have plain : p.ends = false := by
      cases leaves with
      | trap =>
        -- A trap finds the flag clear, so it opens the only critical section.
        cases ends : s.pc.ends with
        | false => rfl
        | true => exact absurd (balanced.own.mpr ends) (by simp [unset])
      | call at_ => rfl
      | join at_ => rfl
    have others : ∀ b, b ≠ s.cur → Foreign phase s { s with toNode := n } b :=
      fun b other => foreign_of_yieldLocked inv ok other
    refine balanced.leave (m := s.setFlag true) named inv plain rfl others (by simp [Node.setFlag])
      (fields s.cur).2.1.trans rfl (fun h works => ?_) yielded
    have kept : Sys.Bare { s with toNode := n } s.pc.base := by
      refine Bare.keep (bare rfl works) (ok_at inv rfl) fun t building => ?_
      have untouched := others t (building_ne_cur inv building)
      exact ⟨untouched.ctx, untouched.flag⟩
    cases leaves with
    | trap => exact kept
    | call at_ => trivial
    | join at_ => trivial
  | sleeps => exact linear.elim
  | @exits value clock _ at_ ok =>
    obtain ⟨-, -, n, rfl, -, yielded⟩ := exit_ok inv.queues.running ok
    have finished := Node.finish_finished value (s.setFlag true)
    refine balanced.leave (m := (s.setFlag true).finish value) named inv rfl finished.cur
      (fun b other => foreign_of_exit inv at_ ok other) ?_ (fun before => ?_) rfl
      (fun _ _ => by trivial) yielded
    · rw [(finished.kept s.cur).2.2.2.2.2.2]
      simp [Node.setFlag]
    · rw [finished.scheduled s.cur, (setFlag_fields true s s.cur).2.1, before]
      rfl
  | @unlocks p clock fresh at_ held =>
    have plain : p.ends = false := balanced.inner p at_
    have fields := setFlag_fields false s
    refine balanced.onward (B := fun _ => False) named inv rfl ?_ ?_
      (fun b other made _ => elsewhere (by simp [at_]) b other made) (fun b => False.elim)
      (fun b touched scheduled => ?_) same (fields s.cur).2.1 fun h works => ?_
    · have unset : (s.setFlag false).flag = false := by simp [Node.flag, Node.setFlag]
      show (s.setFlag false).flag = true ↔ p.ends = true
      rw [unset, plain]
    · rintro q rfl
      cases plain
    · have building := touched.resolve_right id
      exact absurd ((fields b).2.1.symm.trans scheduled) (by simp [idle b building])
    · have before := bare at_ works
      have here := ok_at inv at_
      refine Bare.keep before here fun t building => ?_
      have other := building_ne_cur inv building
      exact ⟨(fields t).1, (fields t).2.2.2.2 other⟩
  | @spawns a entry arg h clock at_ unlocked =>
    exact balanced.proceed named inv at_ rfl (elsewhere (by simp [at_])) rfl rfl ⟨rfl, rfl⟩
      (fun b => still b) (fun h o works other => reserve_busy works other) fun _ _ => trivial
  | @waits h wanted t clock at_ points unlocked unjoined alive =>
    have fields := waitFor_fields h wanted t s
    refine balanced.proceed named inv at_ rfl (elsewhere (by simp [at_])) rfl rfl
      ⟨(fields s.cur).2.2.1, (fields s.cur).2.1⟩ (fun b building scheduled => ?_)
      (fun h o works other => reserve_busy works other) fun _ _ => trivial
    exact still b building ((fields b).2.1.symm.trans scheduled)
  | consumes at_ points unlocked stopped asks =>
    exact balanced.proceed named inv at_ rfl (elsewhere (by simp [at_])) rfl rfl ⟨rfl, rfl⟩
      (fun b => still b) (fun h o works other => reserve_busy works other) fun _ _ => trivial
  | @detaches h t clock at_ points unlocked alive =>
    refine balanced.proceed named inv at_ rfl (elsewhere (by simp [at_])) rfl ?_ ?_
      (fun b building scheduled => still b building ?_)
      (fun h o works _ => (settle_busy works).1) fun _ _ => ?_
    · exact congrArg Pc.ends at_
    · simp only [settle, write_tasks]
      split_ifs <;> simp_all
    · simp only [settle, write_tasks] at scheduled
      split_ifs at scheduled <;> simp_all
    · show Sys.Bare _ s.pc.base
      rw [at_]
      trivial
  | @assigns dst src clock at_ =>
    refine balanced.proceed named inv at_ rfl (elsewhere (by simp [at_])) rfl ?_ ⟨rfl, rfl⟩
      (fun b => still b) same fun _ _ => ?_
    · exact congrArg Pc.ends at_
    · show Sys.Bare _ s.pc.base
      rw [at_]
      trivial
  | begins at_ =>
    refine balanced.proceed named inv at_ rfl (elsewhere (by simp [at_])) rfl rfl ?_
      (fun b building scheduled => still b building ?_) same fun _ _ => trivial
    · simp [goto, write_tasks]
    · have other := building_ne_cur inv building
      simpa [goto, write_tasks, other] using scheduled
  | @finds a entry arg h t rest clock fresh at_ found =>
    have pooled : phase t = .pooled := by
      refine (inv.places.pooled t).mp ?_
      exact (Node.findTask_perm found).mem_iff.mpr List.mem_cons_self
    obtain ⟨-, away, -⟩ := named.off inv (t := t) (by simp [pooled])
    refine balanced.proceed named inv at_ rfl (elsewhere (by simp [at_])) rfl rfl ?_
      (fun b building scheduled => still b building ?_) same fun _ _ => trivial
    · simp [goto, number_tasks, away.symm]
    · simp only [goto, number_tasks] at scheduled
      split_ifs at scheduled
      exact scheduled
  | misses at_ =>
    exact balanced.proceed named inv at_ rfl (elsewhere (by simp [at_])) rfl rfl ⟨rfl, rfl⟩
      (fun b => still b) same fun _ _ => trivial
  | @resets t entry arg h clock fresh at_ =>
    have away := building_ne_cur inv (ok_at inv at_).2
    refine balanced.proceed named inv at_ rfl (elsewhere (by simp [at_])) rfl rfl ?_
      (fun b building scheduled => still b building ?_) same fun _ _ => ?_
    · simp [goto, write_tasks, away.symm]
    · simp only [goto, write_tasks] at scheduled
      split_ifs at scheduled <;> simp_all [Task.reset]
    · simp [Bare, goto, Pc.base, write_tasks, Task.reset]
  | @creates a entry arg h clock fresh at_ unmapped =>
    have absent : phase fresh = .unmapped := (inv.places.absent fresh).mp unmapped
    obtain ⟨-, away, -⟩ := named.off inv (t := fresh) (by simp [absent])
    have clear : s.flag = false := balanced.clear at_ rfl
    refine balanced.onward (B := fun b => b = fresh) named inv rfl ?_ ?_
      (fun b other made old => ?_) (fun b new => new ▸ absent) (fun b touched scheduled => ?_) same
      ?_ fun _ _ => ?_
    · have unset : (s.tasks s.cur).noPreemptFlag = false := clear
      simp [goto, Node.flag, number, write, away.symm, unset, Pc.ends]
    · rintro q here
      cases here
    · refine Foreign.atRest ?_ balanced inv
      refine foreign_of_tasks rfl rfl other ?_
      simp [goto, number_tasks, write_tasks, old]
    · -- The new block is not scheduled yet, nor is any other in the making.
      simp only [goto, number_tasks, write_tasks] at scheduled
      split_ifs at scheduled with new
      exact still b (touched.resolve_right new) scheduled
    · simp [goto, number_tasks, write_tasks, away.symm]
    · simp [Bare, goto, Pc.base, number_tasks, write_tasks, Task.construct]
  | @launches t entry arg h clock fresh at_ stopped other =>
    refine balanced.proceed named inv at_ rfl (elsewhere (by simp [at_])) rfl rfl ?_
      (fun b building scheduled => still b building ?_) same fun _ works => ?_
    · simp [goto, write_tasks, other.symm]
    · simp only [goto, write_tasks] at scheduled
      split_ifs at scheduled <;> simp_all
    · have flag : (s.tasks t).noPreemptFlag = false := bare at_ works
      simp [Bare, goto, Pc.base, write_tasks, other, flag]
  | @lands t h clock fresh at_ =>
    have building : phase t = .building s.cur := (ok_at inv at_).2.1
    have away := building_ne_cur inv building
    have blocks := fun b => switchBack_tasks (s := s) away b
    -- The spawner goes on in `start`, since nothing has taken it away in between.
    have back : (s.switchBack t).pc = .startBack t h := by
      have saved := (starting.own t h (by rw [at_]; rfl)).1
      simp [switchBack, Node.gthreadSwitchTo, Node.load, away.symm, saved, Resume.pc]
    refine balanced.proceed named inv at_ rfl (elsewhere (by simp [at_])) rfl ?_ ?_
      (fun b building scheduled => still b building ?_) same fun _ works => ?_
    · rw [back]
      rfl
    · rw [blocks, if_pos rfl]
      exact ⟨rfl, rfl⟩
    · rw [blocks] at scheduled
      split_ifs at scheduled <;> simp_all
    · have flag : (s.tasks t).noPreemptFlag = false := bare at_ works
      rw [back]
      show ((s.switchBack t).tasks t).Unrun
      rw [blocks, if_neg away, if_pos rfl]
      exact ⟨rfl, flag⟩
  | @suspends t h clock fresh at_ =>
    have away := building_ne_cur inv (ok_at inv at_).2.1
    refine balanced.proceed named inv at_ rfl (elsewhere (by simp [at_])) rfl rfl ?_
      (fun b building scheduled => still b building ?_) same fun _ works => ?_
    · simp [goto, write_tasks, away.symm]
    · simp only [goto, write_tasks] at scheduled
      split_ifs at scheduled <;> simp_all
    · have unrun : (s.tasks t).Unrun := bare at_ works
      show ((s.write t (Task.setState .suspended)).tasks t).Unrun
      rw [write_tasks, if_pos rfl]
      exact ⟨unrun.resume, unrun.flag⟩
  | @publishes t h clock fresh at_ unlocked =>
    have away := building_ne_cur inv (ok_at inv at_).2.1
    have unrun : (s.tasks t).Unrun := bare at_ (ok_at inv at_).1.1
    refine balanced.proceed named inv at_ rfl (elsewhere (by simp [at_])) rfl rfl ?_
      (fun b building scheduled => ?_) same fun _ _ => trivial
    · simp [goto, schedule_tasks, away.symm]
    · -- Of the blocks in the making, only the new task's is scheduled now.
      by_cases new : b = t
      · subst new
        show ((s.schedule b).tasks b).Unrun
        rw [schedule_tasks, if_pos rfl]
        exact ⟨unrun.resume, unrun.flag⟩
      · refine still b building ?_
        simpa [goto, schedule_tasks, new] using scheduled
  | @gives t h clock fresh at_ =>
    refine balanced.proceed named inv at_ rfl (elsewhere (by simp [at_])) rfl rfl ⟨rfl, rfl⟩
      (fun b => still b) (fun h' o works _ => ?_) fun _ _ => trivial
    have apart : h' ≠ h := by
      rintro rfl
      simp [giveHandle, goto] at works
    simpa [giveHandle, goto, apart] using works
  | takes at_ | returns at_ | pools at_ | overflows at_ | destroys at_ =>
    exact balanced.proceed named inv at_ rfl (elsewhere (by simp [at_])) rfl rfl ⟨rfl, rfl⟩
      (fun b => still b) same fun _ _ => trivial
  | clears at_ =>
    exact balanced.proceed named inv at_ rfl (elsewhere (by simp [at_])) rfl rfl ⟨rfl, rfl⟩
      (fun b => still b) (fun h o works _ => (settle_busy works).1) fun _ _ => trivial

/-- A task that leaves the processor from outside a critical section is left inside one. -/
theorem left_of_yielded {m : Node Pc} (cur : m.cur = s.cur) (plain : p.ends = false)
    (flag : (m.tasks s.cur).noPreemptFlag = true) (moved : s'.cur ≠ s.cur)
    (yielded : Node.Yielded clock (.unlock p) m s'.toNode) : (s'.tasks s.cur).Left := by
  rcases yielded.went with ⟨stayed, -⟩ | went
  · exact absurd (stayed.cur.trans cur) moved
  · refine ⟨⟨p, plain, ?_⟩, (yielded.kept s.cur).noPreemptFlag.trans flag⟩
    rw [← cur, went.saved]

/-- Whoever a step takes off the processor is left with its flag set. -/
theorem Balanced.left (balanced : s.Balanced host) (running : s.running = true)
    (ok : s.step l = .ok s') (moved : s'.cur ≠ s.cur) : (s'.tasks s.cur).Left := by
  have flagged : ((s.setFlag true).tasks s.cur).noPreemptFlag = true := by simp [Node.setFlag]
  cases stepped_of_ok ok with
  | @yields _ clock p _ leaves ok =>
    obtain ⟨unset, n, rfl, -, yielded⟩ := yieldLocked_ok running ok
    refine left_of_yielded (m := s.setFlag true) rfl ?_ flagged moved yielded
    cases leaves with
    | trap =>
      cases ends : s.pc.ends with
      | false => rfl
      | true => exact absurd (balanced.own.mpr ends) (by simp [unset])
    | call at_ => rfl
    | join at_ => rfl
  | @sleeps start duration clock _ at_ ok =>
    obtain ⟨-, n, rfl, yielded⟩ := sleepFor_ok running ok
    refine left_of_yielded (m := { (s.setFlag true).modify s.cur (Task.setState .waiting) with
      rq := s.rq.sleepPush start duration s.cur }) rfl rfl ?_ moved yielded
    simp [Node.setFlag]
  | @exits value clock _ at_ ok =>
    obtain ⟨-, -, n, rfl, -, yielded⟩ := exit_ok running ok
    have finished := Node.finish_finished value (s.setFlag true)
    exact left_of_yielded finished.cur rfl ((finished.kept s.cur).2.2.2.2.2.2.trans flagged) moved
      yielded
  | _ => exact absurd rfl moved

/-- Right after `start_async` all flags are clear. -/
theorem balanced_start (host : Addr) (tick : Int) (maxSize : Nat) :
    (start host tick maxSize).Balanced host := by
  have task : ∀ b, (start host tick maxSize).tasks b = if b = host
      then Task.wrapCurrent .zero host else Task.construct .zero 0 false :=
    fun b => Function.update_apply (fun _ => Task.construct Pc.zero 0 false) host _ b
  have cur : (start host tick maxSize).cur = host := rfl
  refine ⟨?_, (by rintro p ⟨⟩), fun b other known => ?_, (by rintro h o ⟨⟩), (by rintro h o ⟨⟩)⟩
  · rw [Node.flag, task, if_pos cur]
    exact ⟨id, id⟩
  · have other : b ≠ host := other
    rw [task, if_neg other] at known
    rcases known with same | scheduled
    · exact absurd same other
    · cases scheduled

end Sys

end Gthread

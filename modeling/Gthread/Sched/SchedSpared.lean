import Gthread.Sched.JoinProtocol
import Gthread.Sched.SchedWake

/-! What a step of the scheduler's interface leaves of the tasks that are in code of the program. -/

namespace Gthread

/-- Statements at which the running task may be marked as waiting, outside the waiters' code. -/
def Pc.pauses : Pc → Bool
  | .prologue | .joinYield _ _ => true
  | _ => false

namespace Node

variable {κ : Type} {n n' : Node κ} {clock : Clock} {k : κ} {b : Addr}

/-- Whoever was queued, or is the caller and could run on, is runnable after a yield. -/
theorem Yielded.still_runnable (yielded : Yielded clock k n n') (nonNull : none ∉ n.rq.runqueue)
    (awake : n.rq.sleepqueue = [])
    (can : (b = n.cur ∧ (n.tasks n.cur).runState = .running) ∨ some b ∈ n.rq.runqueue) :
    n'.Runnable b := by
  obtain ⟨perm, -⟩ := popped_perm yielded nonNull awake
  have member : some b ∈ if (n.tasks n.cur).runState = .running
      then some n.cur :: n.rq.runqueue else n.rq.runqueue := by
    rcases can with ⟨rfl, running⟩ | queued
    · simp [running]
    · split
      · exact List.mem_cons_of_mem _ queued
      · exact queued
  simpa [Runnable] using perm.mem_iff.mpr member

end Node

namespace Sys

variable {s s' : Sys} {phase : Addr → Phase} {l : Label} {clock : Clock} {p : Pc} {b host : Addr}

/-- What a step leaves of a task that is in code of the program. -/
structure Spared (host : Addr) (s s' : Sys) (b : Addr) : Prop where
  free : s'.Free host b
  waits : (s'.tasks b).runState = .waiting → (s.tasks b).runState = .waiting
  -- A task that waits off the queue stays there, and is not switched to.
  sleeps : (s.tasks b).runState = .waiting → some b ∉ s.rq.runqueue →
    (s'.tasks b).runState = .waiting ∧ some b ∉ s'.rq.runqueue ∧ (b = s'.cur → b = s.cur)

/-- A task that is not running is left alone. -/
theorem Foreign.spared (foreign : Foreign phase s s' b) (d : s.Disciplined host)
    (inv : (s.life phase).Inv False) (d' : s'.Disciplined host) (free : s.Free host b)
    (other : b ≠ s.cur) : s.Spared host s' b := by
  obtain ⟨phase', inv'⟩ := d'.order
  obtain ⟨⟨⟨holder, active⟩, -⟩, -⟩ := free.apart d.named inv
  have used : phase b ≠ .pooled := by
    rw [show phase b = .active holder from active]
    simp
  refine ⟨⟨?_, free.known.imp_right (foreign.serves used), ?_⟩, foreign.waits, ?_⟩
  · by_cases entered : b = s'.cur
    · exact entered ▸ inv'.going
    · rw [foreign.state entered]
      exact free.going
  · rw [(foreign.atRest d.balanced inv).at_ other]
    exact free.at_
  · intro waiting off
    -- The end of a task would only schedule it if it were in a join.
    have unjoined : (s.tasks s.cur).joiner ≠ some b := by
      intro joins
      obtain ⟨-, -, -, h, wanted, inside, -⟩ := joining_of_joiner inv inv.going joins
      have here : s.at_ b = .user := free.at_
      rcases inside with yielding | ⟨taking, -⟩
      · exact absurd (yielding.symm.trans here) (by simp)
      · exact absurd (taking.symm.trans here) (by simp)
    have dormant : ¬ s'.Runnable b := by
      intro can
      rcases foreign.runnable can with (same | queued) | joins
      · exact other same
      · exact off queued
      · exact unjoined joins
    refine ⟨?_, fun queued => dormant (.inr queued), fun entered => absurd (.inl entered) dormant⟩
    rw [foreign.state fun entered => dormant (.inl entered)]
    exact waiting

/-- How a task that gives up the processor is left. -/
theorem yieldLocked_left (running : s.running = true) (ok : s.yieldLocked clock p = .ok s') :
    (s'.tasks s.cur).scheduled = (s.tasks s.cur).scheduled ∧
      ((s'.cur = s.cur ∧ s'.pc = .unlock p ∧
        (s'.tasks s.cur).runState = (s.tasks s.cur).runState) ∨
      (s'.cur ≠ s.cur ∧ (s'.tasks s.cur).ctx.resume = .switched (.unlock p) ∧
        (s'.tasks s.cur).runState = if (s.tasks s.cur).runState = .running then .suspended
          else (s.tasks s.cur).runState)) := by
  obtain ⟨-, n, rfl, -, yielded⟩ := yieldLocked_ok running ok
  obtain ⟨-, scheduled, state, -⟩ := setFlag_fields true s s.cur
  refine ⟨(yielded.kept s.cur).scheduled.trans scheduled, ?_⟩
  rcases yielded.went with ⟨stayed, pc⟩ | moved
  · exact .inl ⟨stayed.cur, pc, (stayed.unchanged s.cur).1.trans state⟩
  · have left := moved.left
    have own : (s.setFlag true).cur = s.cur := rfl
    rw [own, state] at left
    exact .inr ⟨moved.other, congrArg Ctx.resume moved.saved, left⟩

/-- Whoever can run afterwards was queued, or is the caller, which did not wait. -/
theorem yieldLocked_runnable_cases (inv : (s.life phase).Inv False)
    (ok : s.yieldLocked clock p = .ok s') (can : s'.Runnable b) :
    (b = s.cur ∧ (s.tasks s.cur).runState = .running) ∨ some b ∈ s.rq.runqueue := by
  obtain ⟨-, n, rfl, -, yielded⟩ := yieldLocked_ok inv.queues.running ok
  refine (yielded.runnable_cases inv.queues.nonNull inv.queues.awake can).imp_left ?_
  rintro ⟨same, running⟩
  exact ⟨same, (setFlag_fields true s s.cur).2.2.1.symm.trans running⟩

/-- A task that gives up the processor is left as it put itself. -/
theorem Disciplined.spared_yield (d : s.Disciplined host)
    (base : s.pc.base = .user) (below : p.base = .user) (ok : s.yieldLocked clock p = .ok s') :
    s.Spared host s' s.cur ∧ ((s.tasks s.cur).runState = .waiting → s'.cur ≠ s.cur) := by
  obtain ⟨phase, inv⟩ := d.order
  have free := d.free_cur base
  obtain ⟨scheduled, went⟩ := yieldLocked_left inv.queues.running ok
  have away : (s.tasks s.cur).runState = .waiting → s'.cur ≠ s.cur := by
    intro waiting same
    rcases yieldLocked_runnable_cases (b := s.cur) inv ok (.inl same.symm)
      with ⟨-, running⟩ | queued
    · rw [waiting] at running
      cases running
    · exact (List.nodup_cons.mp inv.queues.nodup).1 queued
  refine ⟨⟨⟨?_, free.known.imp_right scheduled.trans, ?_⟩, ?_, ?_⟩, away⟩
  · rcases went with ⟨-, -, state⟩ | ⟨-, -, state⟩
    · rw [state]
      exact free.going
    · rw [state]
      split_ifs
      · simp
      · exact free.going
  · rcases went with ⟨same, pc, -⟩ | ⟨moved, saved, -⟩
    · rw [Sys.at_, if_pos same.symm, pc]
      exact below
    · rw [Sys.at_, if_neg moved.symm, saved]
      exact below
  · intro after
    rcases went with ⟨-, -, state⟩ | ⟨-, -, state⟩
    · exact state.symm.trans after
    · rw [state] at after
      split_ifs at after
      exact after
  · intro waiting off
    refine ⟨?_, fun queued => ?_, fun same => absurd same.symm (away waiting)⟩
    · rcases went with ⟨same, -⟩ | ⟨-, -, state⟩
      · exact absurd same (away waiting)
      · rw [state, waiting]
        rfl
    · rcases yieldLocked_runnable_cases inv ok (.inr queued) with ⟨-, running⟩ | before
      · rw [waiting] at running
        cases running
      · exact off before

/-- So is a task that takes a trap, or ends one, in code of the program. -/
theorem Disciplined.spared_cur (d : s.Disciplined host) (d' : s'.Disciplined host)
    (base : s.pc.base = .user) (uncalled : ∀ c clock, l ≠ .call c clock) (ok : s.step l = .ok s') :
    s.Spared host s' s.cur := by
  have free := d.free_cur base
  -- Other statements are not in code of the program.
  have inside : ∀ {q : Pc}, s.pc = q → q.base = .user := fun at_ => at_ ▸ base
  cases stepped_of_ok ok with
  | nothing => exact ⟨free, id, fun waiting off => ⟨waiting, off, fun _ => rfl⟩⟩
  | yields leaves ok =>
    refine (d.spared_yield base ?_ ok).1
    cases leaves with
    | trap => exact base
    | call at_ => rfl
    | join at_ => cases inside at_
  | @unlocks p clock fresh at_ held =>
    obtain ⟨ctx, scheduled, state, -⟩ := setFlag_fields false s s.cur
    refine ⟨⟨fun ended => free.going (state.symm.trans ended),
      free.known.imp_right scheduled.trans, ?_⟩, state.symm.trans, fun waiting off => ?_⟩
    · have below : (Pc.unlock p).base = .user := inside at_
      exact (at_cur (goto p { s with toNode := s.setFlag false })).trans below
    · exact ⟨state.trans waiting, off, fun _ => rfl⟩
  | sleeps | exits | spawns | waits | consumes | detaches | assigns =>
      exact absurd rfl (uncalled _ _)
  | begins at_ | finds at_ | misses at_ | resets at_ | creates at_ | launches at_ | lands at_
  | suspends at_ | publishes at_ | gives at_ | takes at_ | returns at_ | pools at_ | overflows at_
  | destroys at_ | clears at_ => cases inside at_

/-- A task that takes over runs, or begins. -/
theorem Disciplined.entered (d : s.Disciplined host) (inv : (s.life phase).Inv False)
    (moved : s'.cur ≠ s.cur) (foreign : Foreign phase s s' s'.cur) :
    (s'.tasks s'.cur).runState = .running ∨ s'.pc.base = .prologue := by
  have known : s'.cur = host ∨ (s.tasks s'.cur).scheduled = true :=
    (foreign.runnable (.inl rfl)).elim (d.named.scheduled s'.cur)
      (d.balanced.joiner inv inv.going)
  rcases d.balanced.away s'.cur moved known with ⟨⟨p, -, resume⟩, -⟩ | ⟨resume, -⟩
  · left
    rw [foreign.woken rfl, resume]
    rfl
  · right
    rw [foreign.entered rfl, resume]
    rfl

/-- So does the task that runs after a yield, be it the same one. -/
theorem Disciplined.entered_of_yield (d : s.Disciplined host)
    (ok : s.yieldLocked clock p = .ok s') :
    (s'.tasks s'.cur).runState = .running ∨ s'.pc.base = .prologue := by
  obtain ⟨phase, inv⟩ := d.order
  by_cases same : s'.cur = s.cur
  · -- Only a task that runs on takes itself off the queue again.
    rcases yieldLocked_runnable_cases inv ok (b := s.cur) (.inl same.symm)
      with ⟨-, running⟩ | queued
    · rcases (yieldLocked_left inv.queues.running ok).2 with ⟨-, -, state⟩ | ⟨moved, -⟩
      · exact .inl (by rw [same, state, running])
      · exact absurd same moved
    · exact absurd queued (cur_off_queue inv)
  · exact d.entered inv same (foreign_of_yieldLocked inv ok same)

/-- And the one that runs after the end of a task. -/
theorem Disciplined.entered_of_exit {value : Nat} (d : s.Disciplined host) (at_ : s.pc = .user)
    (ok : s.exit value clock = .ok s') :
    (s'.tasks s'.cur).runState = .running ∨ s'.pc.base = .prologue := by
  obtain ⟨phase, inv⟩ := d.order
  have moved : s'.cur ≠ s.cur := by
    intro same
    rcases exit_runnable_cases inv at_ ok (.inl same.symm) with queued | joins
    · exact cur_off_queue inv queued
    · exact (joiner_ne_cur inv at_ joins).1 rfl
  exact d.entered inv moved (foreign_of_exit inv at_ ok moved)

/-- A task that another one, which has not ended, is going to wake. -/
def Joined (s : Sys) (b : Addr) : Prop :=
  ∃ t, (s.tasks t).runState ≠ .stopped ∧ (s.tasks t).joiner = some b

/-- What a step does to the run state of the running task. -/
inductive Paces (s : Sys) (l : Label) (s' : Sys) : Prop
  | yields {clock : Clock} {p : Pc} (ok : s.yieldLocked clock p = .ok s')
  | exits {value : Nat} {clock : Clock} (at_ : s.pc = .user) (ok : s.exit value clock = .ok s')
  | joins {h : HandleId} {wanted : Bool} (cur : s'.cur = s.cur) (at_ : s'.pc = .joinYield h wanted)
      (joined : s'.Joined s'.cur)
  | begins (cur : s'.cur = s.cur) (running : (s'.tasks s'.cur).runState = .running)
  -- The other statements leave it alone, and prologues and joins are left in no other way.
  | stays (cur : s'.cur = s.cur) (state : (s'.tasks s.cur).runState = (s.tasks s.cur).runState)
      (base : s'.pc.base = s.pc.base ∨
        (s.pc.base ≠ .prologue ∧ ∀ h wanted, s.pc.base ≠ .joinYield h wanted))

/-- A step does one of these things to it. -/
theorem Disciplined.paces (d : s.Disciplined host) (linear : s.Linear l)
    (ok : s.step l = .ok s') : s.Paces l s' := by
  obtain ⟨phase, inv⟩ := d.order
  have away : ∀ {t}, phase t = .building s.cur → s.cur ≠ t := fun building =>
    (building_ne_cur inv building).symm
  have other : ∀ {p : Pc}, s.pc = p → p.base ≠ .prologue →
      (∀ h wanted, p.base ≠ .joinYield h wanted) →
        s.pc.base ≠ .prologue ∧ ∀ h wanted, s.pc.base ≠ .joinYield h wanted := by
    rintro p rfl first second
    exact ⟨first, second⟩
  cases stepped_of_ok ok with
  | nothing => exact .stays rfl rfl (.inl rfl)
  | yields leaves ok => exact .yields ok
  | sleeps => exact linear.elim
  | exits at_ ok => exact .exits at_ ok
  | @waits h wanted t clock at_ points clear unjoined going =>
    refine .joins rfl rfl ⟨t, ?_, ?_⟩
    · show ((s.waitFor h wanted t).tasks t).runState ≠ .stopped
      rw [(waitFor_fields h wanted t s t).2.2.2.1]
      split_ifs
      · simp
      · exact going
    · show ((s.waitFor h wanted t).tasks t).joiner = some s.cur
      rw [(waitFor_fields h wanted t s t).2.2.2.2, if_pos rfl]
  | unlocks at_ held =>
    exact .stays rfl (setFlag_fields false s s.cur).2.2.1 (.inl (by rw [at_]; rfl))
  | begins at_ =>
    refine .begins rfl ?_
    show ((s.write s.cur (Task.setState .running)).tasks s.cur).runState = .running
    rw [write_tasks, if_pos rfl]
    rfl
  | @detaches h t clock at_ points clear going =>
    exact .stays rfl
      (write_field Task.runState t (fun b => { b with detached := true }) (fun _ => rfl) s s.cur)
      (.inr (other at_ (by simp [Pc.base]) (by simp [Pc.base])))
  | @finds a entry arg h t rest clock fresh at_ found =>
    refine .stays rfl ?_ (.inr (other at_ (by simp [Pc.base]) (by simp [Pc.base])))
    exact write_field Task.runState t (fun b => { b with spawn := s.next, scheduled := false })
      (fun _ => rfl) s s.cur
  | @resets t entry arg h clock fresh at_ =>
    refine .stays rfl ?_ (.inr (other at_ (by simp [Pc.base]) (by simp [Pc.base])))
    simp [goto, write_tasks, away (ok_at inv at_).2]
  | @creates a entry arg h clock fresh at_ unmapped =>
    have absent : phase fresh = .unmapped := (inv.places.absent fresh).mp unmapped
    obtain ⟨-, apart, -⟩ := d.named.off inv (t := fresh) (by simp [absent])
    refine .stays rfl ?_ (.inr (other at_ (by simp [Pc.base]) (by simp [Pc.base])))
    simp [goto, number_tasks, write_tasks, apart.symm]
  | @launches t entry arg h clock fresh at_ stopped elsewhere =>
    refine .stays rfl ?_ (.inr (other at_ (by simp [Pc.base]) (by simp [Pc.base])))
    simp [goto, write_tasks, elsewhere.symm]
  | @lands t h clock fresh at_ =>
    have saved := (d.starting.own t h (by rw [at_]; rfl)).1
    refine .stays rfl ?_ (.inr (other at_ (by simp [Pc.base]) (by simp [Pc.base])))
    rw [switchBack_tasks (building_ne_cur inv (ok_at inv at_).2.1), if_pos rfl, saved]
    rfl
  | @suspends t h clock fresh at_ =>
    refine .stays rfl ?_ (.inr (other at_ (by simp [Pc.base]) (by simp [Pc.base])))
    simp [goto, write_tasks, away (ok_at inv at_).2.1]
  | @publishes t h clock fresh at_ clear =>
    refine .stays rfl ?_ (.inr (other at_ (by simp [Pc.base]) (by simp [Pc.base])))
    simp [goto, schedule_tasks, away (ok_at inv at_).2.1]
  | spawns at_ | consumes at_ | assigns at_ | misses at_ | gives at_ | takes at_ | returns at_
  | pools at_ | overflows at_ | destroys at_ | clears at_ =>
    exact .stays rfl rfl (.inr (other at_ (by simp [Pc.base]) (by simp [Pc.base])))

/-- After a step the running task waits only at such a statement, or where it has waited before. -/
theorem Disciplined.paused (d : s.Disciplined host) (linear : s.Linear l)
    (before : (s.tasks s.cur).runState = .waiting → s.pc.base.pauses = true ∨
      (s.pc.base = .user ∧ ∀ c clock, l ≠ .call c clock))
    (ok : s.step l = .ok s') (waiting : (s'.tasks s'.cur).runState = .waiting) :
    s'.pc.base.pauses = true ∨
      (s'.cur = s.cur ∧ s.pc.base = .user ∧ (s.tasks s.cur).runState = .waiting) := by
  have entered : ∀ {P : Prop}, (s'.tasks s'.cur).runState = .running ∨ s'.pc.base = .prologue →
      s'.pc.base.pauses = true ∨ P := by
    rintro P (running | prologue)
    · rw [waiting] at running
      cases running
    · rw [prologue]
      exact .inl rfl
  cases d.paces linear ok with
  | yields ok => exact entered (d.entered_of_yield ok)
  | exits at_ ok => exact entered (d.entered_of_exit at_ ok)
  | joins cur at_ joined =>
    rw [at_]
    exact .inl rfl
  | begins cur running => exact entered (.inl running)
  | stays cur state base =>
    have slept : (s.tasks s.cur).runState = .waiting := state.symm.trans (cur ▸ waiting)
    rcases before slept with pauses | ⟨user, -⟩
    · -- Such a statement is only left by a trap, or by its own step.
      rcases base with same | ⟨begun, unjoined⟩
      · exact .inl (same ▸ pauses)
      · cases here : s.pc.base with
        | prologue => exact absurd here begun
        | joinYield h wanted => exact absurd here (unjoined h wanted)
        | _ =>
          rw [here] at pauses
          cases pauses
    · exact .inr ⟨cur, user, slept⟩

/-- A step that is no call leaves every task alone that is in code of the program. -/
theorem Disciplined.spared (d : s.Disciplined host) (d' : s'.Disciplined host) (linear : s.Linear l)
    (uncalled : b = s.cur → ∀ c clock, l ≠ .call c clock) (free : s.Free host b)
    (ok : s.step l = .ok s') : s.Spared host s' b := by
  obtain ⟨phase, inv⟩ := d.order
  by_cases own : b = s.cur
  · subst own
    exact d.spared_cur d' ((at_cur s).symm.trans free.at_) (uncalled rfl) ok
  · obtain ⟨⟨⟨holder, active⟩, -⟩, -⟩ := free.apart d.named inv
    have used : phase b = .active holder := active
    have foreign := foreign_of_step inv linear ok own (by simp [used]) (by simp [used])
    exact foreign.spared d inv d' free own

/-- Nor does a call of `yield` harm any of them, the caller included. -/
theorem Disciplined.spared_call (d : s.Disciplined host) (d' : s'.Disciplined host)
    (at_ : s.pc = .user) (free : s.Free host b) (ok : s.yieldLocked clock .user = .ok s') :
    s.Spared host s' b := by
  by_cases own : b = s.cur
  · exact own ▸ (d.spared_yield (by rw [at_]; rfl) rfl ok).1
  · refine d.spared d' (l := .call .yield clock) trivial (fun same => absurd same own) free ?_
    rw [Sys.step, if_pos at_]
    exact ok

/-- A step loses nobody from the queue. -/
theorem runnable_of_queued (inv : (s.life phase).Inv False) (linear : s.Linear l)
    (ok : s.step l = .ok s') (queued : some b ∈ s.rq.runqueue) : s'.Runnable b := by
  cases stepped_of_ok ok with
  | yields leaves ok =>
    obtain ⟨-, n, rfl, -, yielded⟩ := yieldLocked_ok inv.queues.running ok
    exact yielded.still_runnable inv.queues.nonNull inv.queues.awake (.inr queued)
  | sleeps => exact linear.elim
  | exits at_ exits =>
    rename_i value clock
    -- The end of a task queues the one that has joined it, before the yield.
    obtain ⟨-, -, n, rfl, -, yielded⟩ := exit_ok inv.queues.running exits
    obtain ⟨⟨awake, nonNull⟩, -⟩ := finish_queues value inv at_
    have queue := (Node.finish_finished value (s.setFlag true)).queue
    refine yielded.still_runnable nonNull awake (.inr (queue.mem_iff.mpr ?_))
    split
    · exact queued
    · exact List.mem_cons_of_mem _ queued
  | @publishes t h clock fresh at_ unlocked =>
    exact .inr ((Node.schedule_rq s.toNode t).1.mem_iff.mpr (List.mem_cons_of_mem _ queued))
  | _ => exact .inr queued

end Sys

end Gthread

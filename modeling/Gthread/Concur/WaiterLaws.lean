import Gthread.Concur.WaiterSteps

/-! What holds of a waiter and its two tasks whatever they interleave. -/

namespace Gthread

open Function (update update_of_ne update_self)

namespace Waiter

open Party (other_other other_ne eq_or_other)

variable {w w' : Waiter Party} {role : Party → Option (WaiterPc Party)} {p q : Party}

/-- A task that runs or is queued, and stands in the slot only while it is about to wait. -/
structure Awake (w : Waiter Party) (role : Party → Option (WaiterPc Party)) (p : Party) : Prop where
  state : (w.cpu.running = some p ∧ w.cpu.state p = .running ∧ w.cpu.queued p = false) ∨
    (w.cpu.running ≠ some p ∧ w.cpu.state p = .suspended ∧ w.cpu.queued p = true)
  slot : w.slot = some p ↔ claims (role p) = true
  free : takes (role p.other) ≠ some p

/-- A task that waits in the slot, or that the other one has taken to wake it. -/
structure Asleep (w : Waiter Party) (role : Party → Option (WaiterPc Party)) (p : Party) :
    Prop where
  state : w.cpu.state p = .waiting
  queued : w.cpu.queued p = false
  at_ : waits (role p) = true
  running : w.cpu.running = some p → role p = some .yield
  slot : (w.slot = some p ∧ takes (role p.other) ≠ some p) ∨
    (w.slot ≠ some p ∧ takes (role p.other) = some p ∧ w.cpu.running ≠ some p)

/-- Both tasks are awake or asleep, and a task about to be taken is asleep in the slot. -/
structure Inv (w : Waiter Party) (role : Party → Option (WaiterPc Party)) : Prop where
  party : ∀ p, w.Awake role p ∨ w.Asleep role p
  names : ∀ p q, reads (role p) = some q → q = p.other
  aims : ∀ p q, aimsAt (role p) = some q →
    w.slot = some q ∧ w.cpu.state q = .waiting ∧ w.cpu.running ≠ some q

/-- The running task is awake, except where it is about to yield to wait. -/
theorem Inv.awake (inv : w.Inv role) (running : w.cpu.running = some p)
    (going : role p ≠ some .yield) : w.Awake role p := by
  rcases inv.party p with awake | asleep
  · exact awake
  · exact absurd (asleep.running running) going

/-- A statement that changes nothing of the other task keeps the invariant, if its own task is. -/
theorem Inv.local (inv : w.Inv role) (running : w.cpu.running = some p)
    {new : Option (WaiterPc Party)}
    (runs : w'.cpu.running = some p ∨ w'.cpu.running = none)
    (state : w'.cpu.state p.other = w.cpu.state p.other)
    (queued : w'.cpu.queued p.other = w.cpu.queued p.other)
    (slot : w'.slot = some p.other ↔ w.slot = some p.other)
    (taken : takes new = some p.other ↔ takes (role p) = some p.other)
    (own : w'.Awake (update role p new) p ∨ w'.Asleep (update role p new) p)
    (named : ∀ q, reads new = some q → q = p.other)
    (aimed : ∀ q, aimsAt new = some q → w'.slot = some q ∧ w'.cpu.state q = .waiting) :
    w'.Inv (update role p new) := by
  have away : w.cpu.running ≠ some p.other := by
    rw [running]
    simpa using (other_ne p).symm
  have away' : w'.cpu.running ≠ some p.other := by
    rcases runs with runs | runs
    · rw [runs]
      simpa using (other_ne p).symm
    · simp [runs]
  have at_ : update role p new p.other = role p.other := update_of_ne (other_ne p) ..
  have back : update role p new p.other.other = new := by rw [other_other, update_self]
  constructor
  · intro b
    rcases eq_or_other p b with rfl | rfl
    · exact own
    · rcases inv.party p.other with ⟨cpu, stands, free⟩ | ⟨waiting, off, sleeps, yields, stands⟩
      · refine .inl ⟨?_, ?_, ?_⟩
        · rcases cpu with ⟨here, -⟩ | ⟨-, rest⟩
          · exact absurd here away
          · exact .inr ⟨away', by rw [state, queued]; exact rest⟩
        · rw [slot, at_]
          exact stands
        · rw [back, ne_eq, taken]
          rw [other_other] at free
          exact free
      · refine .inr ⟨state.trans waiting, queued.trans off, at_.symm ▸ sleeps, ?_, ?_⟩
        · exact fun here => absurd here away'
        · rw [other_other] at stands
          simp only [back, ne_eq, slot, taken]
          exact stands.imp id fun taken => ⟨taken.1, taken.2.1, away'⟩
  · intro b q
    rcases eq_or_other p b with rfl | rfl
    · rw [update_self]
      exact named q
    · rw [at_]
      exact inv.names _ q
  · intro b q
    rcases eq_or_other p b with rfl | rfl
    · rw [update_self]
      intro aimed'
      obtain ⟨stands, waiting⟩ := aimed q aimed'
      refine ⟨stands, waiting, ?_⟩
      rw [named q (reads_of_aims aimed')]
      exact away'
    · rw [at_]
      intro aimed'
      -- The other task cannot aim at the one that runs.
      have target := inv.names _ q (reads_of_aims aimed')
      rw [other_other] at target
      exact absurd running (target ▸ (inv.aims _ q aimed').2.2)

/-- A statement of a task that stays awake, and that takes nobody. -/
theorem Inv.quiet (inv : w.Inv role) (running : w.cpu.running = some p)
    (going : role p ≠ some .yield) (takes_ : takes (role p) = none) {new : Option (WaiterPc Party)}
    {slot : Option Party} (same : slot = some p.other ↔ w.slot = some p.other)
    (stands : slot = some p ↔ claims new = true) (nobody : takes new = none)
    (named : ∀ q, reads new = some q → q = p.other)
    (aimed : ∀ q, aimsAt new = some q → slot = some q ∧ w.cpu.state q = .waiting) :
    { w with slot := slot }.Inv (update role p new) := by
  obtain ⟨cpu, -, free⟩ := inv.awake running going
  refine inv.local running (.inl running) rfl rfl same (by simp [takes_, nobody]) (.inl ?_)
    named aimed
  refine ⟨cpu, by rw [update_self]; exact stands, ?_⟩
  rw [update_of_ne (other_ne p)]
  exact free

/-- The running task begins a member function. -/
theorem Inv.enter (inv : w.Inv role) (running : w.cpu.running = some p) (out : role p = none)
    {new : Option (WaiterPc Party)} (stands : claims new = false) (nobody : reads new = none) :
    w.Inv (update role p new) := by
  have awake := inv.awake running (by simp [out])
  have off : w.slot ≠ some p := by
    intro stands
    have claimed := awake.slot.mp stands
    simp [out, claims] at claimed
  have takes_ : ∀ q, takes new ≠ some q := by
    intro q taken
    rw [reads_of_takes taken] at nobody
    cases nobody
  have aims : ∀ q, aimsAt new ≠ some q := by
    intro q aimed
    rw [reads_of_aims aimed] at nobody
    cases nobody
  exact inv.quiet running (by simp [out]) (by simp [out, takes]) Iff.rfl (by simp [off, stands])
    (Option.eq_none_iff_forall_ne_some.mpr takes_) (by simp [nobody])
    (fun q aimed => absurd aimed (aims q))

/-- Both parties are as they should be, given the one that moved and a sleeping other one. -/
theorem inv_of_pair {new : Option (WaiterPc Party)} (sleeps : waits (role p.other) = true)
    (own : w'.Awake (update role p new) p ∨ w'.Asleep (update role p new) p)
    (other : w'.Awake (update role p new) p.other ∨ w'.Asleep (update role p new) p.other)
    (named : ∀ q, reads new = some q → q = p.other) (nobody : aimsAt new = none) :
    w'.Inv (update role p new) := by
  have at_ : update role p new p.other = role p.other := update_of_ne (other_ne p) ..
  have none_ := reads_of_waits sleeps
  constructor
  · intro b
    rcases eq_or_other p b with rfl | rfl
    · exact own
    · exact other
  · intro b q
    rcases eq_or_other p b with rfl | rfl
    · rw [update_self]
      exact named q
    · rw [at_, none_]
      exact fun absurd_ => by cases absurd_
  · intro b q aimed
    rcases eq_or_other p b with rfl | rfl
    · rw [update_self, nobody] at aimed
      cases aimed
    · rw [at_] at aimed
      rw [reads_of_aims aimed] at none_
      cases none_

/-- A task that is waiting is asleep. -/
theorem Inv.asleep (inv : w.Inv role) (waiting : w.cpu.state q = .waiting) : w.Asleep role q := by
  rcases inv.party q with ⟨⟨-, running, -⟩ | ⟨-, suspended, -⟩, -, -⟩ | asleep
  · rw [running] at waiting
    cases waiting
  · rw [suspended] at waiting
    cases waiting
  · exact asleep

/-- A task in the slot is about to wait, or waits. -/
theorem Inv.stands (inv : w.Inv role) (stands : w.slot = some p) :
    ∃ pc, role p = some pc ∧ pc.member ≠ .unpark ∧
      (claims (some pc) = true ∨ (waits (some pc) = true ∧ w.cpu.state p = .waiting)) := by
  have at_ : claims (role p) = true ∨ (waits (role p) = true ∧ w.cpu.state p = .waiting) := by
    rcases inv.party p with awake | asleep
    · exact .inl (awake.slot.mp stands)
    · exact .inr ⟨asleep.at_, asleep.state⟩
  cases here : role p with
  | none => simp [here, claims, waits] at at_
  | some pc =>
    rw [here] at at_
    exact ⟨pc, rfl, member_of_stands (at_.imp id And.left), at_⟩

/-- The exchange that takes the other task out of the slot. -/
theorem Inv.take (inv : w.Inv role) (running : w.cpu.running = some p)
    (aimed : aimsAt (role p) = some p.other) {new : Option (WaiterPc Party)} {slot : Option Party}
    (gone : slot ≠ some p.other) (stands : slot = some p ↔ claims new = true)
    (taken : takes new = some p.other) (nobody : aimsAt new = none) :
    { w with slot := slot }.Inv (update role p new) := by
  obtain ⟨inSlot, waiting, away⟩ := inv.aims p _ aimed
  have asleep := inv.asleep waiting
  have awake : w.Awake role p := inv.awake running (by
    intro yields
    simp [yields, aimsAt] at aimed)
  refine inv_of_pair asleep.at_ (.inl ⟨awake.state, ?_, ?_⟩) (.inr ?_) ?_ nobody
  · rw [update_self]
    exact stands
  · rw [update_of_ne (other_ne p)]
    exact awake.free
  · refine ⟨waiting, asleep.queued, ?_, fun here => absurd here away, .inr ⟨gone, ?_, away⟩⟩
    · rw [update_of_ne (other_ne p)]
      exact asleep.at_
    · rw [other_other, update_self]
      exact taken
  · intro q named
    have same := reads_of_takes taken
    rw [named, Option.some.injEq] at same
    exact same

/-- The task that was taken, before it is woken or switched to. -/
theorem Inv.taken (inv : w.Inv role) (taken : takes (role p) = some p.other) :
    w.Asleep role p.other ∧ w.slot ≠ some p.other ∧ w.cpu.running ≠ some p.other := by
  rcases inv.party p.other with awake | asleep
  · exact absurd (by rw [other_other]; exact taken) awake.free
  · rcases asleep.slot with ⟨-, free⟩ | ⟨out, -, away⟩
    · exact absurd (by rw [other_other]; exact taken) free
    · exact ⟨asleep, out, away⟩

/-- The critical section of `unpark`. -/
theorem Inv.wake (inv : w.Inv role) (running : w.cpu.running = some p)
    (at_ : role p = some (.wake p.other)) :
    { w with cpu := (w.cpu.setState p.other .suspended).schedule p.other }.Inv
      (update role p none) := by
  obtain ⟨asleep, out, away⟩ := inv.taken (p := p) (by simp [at_, takes])
  obtain ⟨cpu, stands, free⟩ := inv.awake running (by simp [at_])
  have apart := other_ne p
  refine inv_of_pair asleep.at_ (.inl ⟨?_, ?_, ?_⟩) (.inl ⟨.inr ?_, ?_, ?_⟩)
    (by simp [reads]) (by simp [aimsAt])
  · simpa [apart.symm] using cpu
  · simpa [at_, claims] using stands
  · rw [update_of_ne apart]
    exact free
  · exact ⟨away, by simp, by simp⟩
  · rw [update_of_ne apart]
    simpa [claims_of_waits asleep.at_] using out
  · simp [other_other, takes]

/-- The critical section of `swap`. -/
theorem Inv.switch (inv : w.Inv role) (running : w.cpu.running = some p)
    (at_ : role p = some (.switch p.other)) :
    { w with cpu := (w.cpu.setState p .waiting).switchTo p p.other }.Inv
      (update role p (some .swapped)) := by
  obtain ⟨asleep, out, away⟩ := inv.taken (p := p) (by simp [at_, takes])
  obtain ⟨cpu, stands, free⟩ := inv.awake running (by simp [at_])
  have apart := other_ne p
  have off : w.cpu.queued p = false := by
    rcases cpu with ⟨-, -, off⟩ | ⟨elsewhere, -⟩
    · exact off
    · exact absurd running elsewhere
  refine inv_of_pair asleep.at_ (.inr ⟨?_, off, ?_, ?_, .inl ⟨?_, ?_⟩⟩) (.inl ⟨.inl ?_, ?_, ?_⟩)
    (by simp [reads]) (by simp [aimsAt])
  · simp [apart.symm]
  · simp [waits]
  · simpa using apart
  · exact stands.mpr (by simp [at_, claims])
  · rw [update_of_ne apart]
    exact free
  · exact ⟨by simp, by simp, asleep.queued⟩
  · rw [update_of_ne apart]
    simpa [claims_of_waits asleep.at_] using out
  · simp [other_other, takes]

/-- Setting the own run state to wait, in the slot. -/
theorem Inv.mark (inv : w.Inv role) (running : w.cpu.running = some p)
    (at_ : role p = some .mark) : (w.setState p .waiting).Inv (update role p (some .yield)) := by
  obtain ⟨cpu, stands, free⟩ := inv.awake running (by simp [at_])
  have apart := other_ne p
  refine inv.local running (.inl running) ?_ rfl Iff.rfl (by simp [at_, takes]) (.inr ?_)
    (by simp [reads]) (by simp [aimsAt])
  · simp [setState, apart]
  · refine ⟨by simp [setState], ?_, by simp [waits], by simp, .inl ⟨?_, ?_⟩⟩
    · rcases cpu with ⟨-, -, off⟩ | ⟨elsewhere, -⟩
      · exact off
      · exact absurd running elsewhere
    · exact stands.mpr (by simp [at_, claims])
    · rw [update_of_ne apart]
      exact free

/-- Giving up the processor, awake or asleep. -/
theorem Inv.leave (inv : w.Inv role) (running : w.cpu.running = some p)
    {new : Option (WaiterPc Party)}
    (same : new = role p ∨ (role p = some .yield ∧ new = some .parked)) :
    (w.yield p).Inv (update role p new) := by
  have apart := other_ne p
  have claimed : claims new = claims (role p) := by
    rcases same with rfl | ⟨before, rfl⟩
    · rfl
    · simp [before, claims]
  have took : takes new = takes (role p) := by
    rcases same with rfl | ⟨before, rfl⟩
    · rfl
    · simp [before, takes]
  refine inv.local running (.inr rfl) ?_ ?_ Iff.rfl (by rw [took]) ?_ ?_ ?_
  · simp [yield, apart]
  · simp [yield, apart]
  · rcases inv.party p with ⟨cpu, stands, free⟩ | ⟨waiting, off, sleeps, yields, stands⟩
    · refine .inl ⟨.inr ?_, ?_, ?_⟩
      · rcases cpu with ⟨-, going, -⟩ | ⟨elsewhere, -⟩
        · simp [yield, going]
        · exact absurd running elsewhere
      · rw [update_self, claimed]
        exact stands
      · rw [update_of_ne apart]
        exact free
    · have before := yields running
      refine .inr ⟨?_, ?_, ?_, ?_, ?_⟩
      · simp [yield, waiting]
      · simp [yield, waiting]
      · rw [update_self]
        rcases same with rfl | ⟨-, rfl⟩
        · exact sleeps
        · rfl
      · simp [yield]
      · rw [update_of_ne apart]
        exact stands.imp id fun taken => ⟨taken.1, taken.2.1, by simp [yield]⟩
  · rcases same with rfl | ⟨-, rfl⟩
    · exact inv.names p
    · simp [reads]
  · rcases same with rfl | ⟨-, rfl⟩
    · intro q aimed
      obtain ⟨stands, waiting, away⟩ := inv.aims p q aimed
      have other : q ≠ p := by
        rintro rfl
        exact away running
      exact ⟨stands, by simpa [yield, other] using waiting⟩
    · simp [aimsAt]

/-- The timer takes the processor from the running task. -/
theorem Inv.preempt (inv : w.Inv role) (running : w.cpu.running = some p) :
    (w.yield p).Inv role := by
  have left := inv.leave running (.inl rfl)
  rw [Function.update_eq_self] at left
  exact left

/-- The scheduler switches to a queued task. -/
theorem Inv.dispatch (inv : w.Inv role) (idle : w.cpu.running = none)
    (queued : w.cpu.queued p = true) : { w with cpu := w.cpu.enter p }.Inv role := by
  have suspended : w.Awake role p ∧ w.cpu.state p = .suspended := by
    rcases inv.party p with awake | asleep
    · rcases awake.state with ⟨here, -⟩ | ⟨-, suspended, -⟩
      · rw [idle] at here
        cases here
      · exact ⟨awake, suspended⟩
    · rw [asleep.queued] at queued
      cases queued
  have apart := other_ne p
  constructor
  · intro b
    rcases eq_or_other p b with rfl | rfl
    · exact .inl ⟨.inl ⟨rfl, by simp, by simp⟩, suspended.1.slot, suspended.1.free⟩
    · have away : some p ≠ some p.other := by simpa using apart.symm
      rcases inv.party p.other with ⟨cpu, stands, free⟩ | ⟨waiting, off, sleeps, -, stands⟩
      · refine .inl ⟨.inr ⟨away, ?_⟩, stands, free⟩
        rcases cpu with ⟨here, -⟩ | ⟨-, rest⟩
        · rw [idle] at here
          cases here
        · simpa [apart] using rest
      · refine .inr ⟨by simpa [apart] using waiting, by simpa [apart] using off, sleeps,
          fun here => absurd here away, ?_⟩
        exact stands.imp id fun taken => ⟨taken.1, taken.2.1, away⟩
  · exact inv.names
  · intro b q aimed
    obtain ⟨stands, waiting, -⟩ := inv.aims b q aimed
    have other : q ≠ p := by
      rintro rfl
      rw [suspended.2] at waiting
      cases waiting
    exact ⟨stands, by simpa [other] using waiting, by simpa using other.symm⟩

/-- A statement of a member function keeps the invariant. -/
theorem Inv.step {closed : Bool} {pc : WaiterPc Party} {outcome : Outcome Party} (inv : w.Inv role)
    (running : w.cpu.running = some p) (at_ : role p = some pc)
    (ok : w.step p closed pc = .ok (outcome, w')) : w'.Inv (update role p outcome.pc) := by
  -- Away from the end of `park_if`, the running task is awake.
  have awake : pc ≠ .yield → w.Awake role p := fun other =>
    inv.awake running (by simpa [at_] using other)
  -- Leaving the member function from a statement that neither claims nor takes.
  have leaves : pc ≠ .yield → claims (some pc) = false → takes (some pc) = none →
      w.Inv (update role p none) := by
    intro other unclaimed untaken
    have off : w.slot ≠ some p := by
      intro stands
      have claimed := (awake other).slot.mp stands
      simp [at_, unclaimed] at claimed
    exact inv.quiet running (by simpa [at_] using other) (by rw [at_, untaken]) Iff.rfl
      (by simp [off, claims]) rfl (by simp [reads]) (by simp [aimsAt])
  -- A task read from the slot is the other one.
  have read : ∀ q, pc ≠ .yield → claims (some pc) = false → w.slot = some q → q = p.other := by
    intro q other unclaimed stands
    rcases eq_or_other p q with rfl | rfl
    · have claimed := (awake other).slot.mp stands
      simp [at_, unclaimed] at claimed
    · rfl
  -- A waiting task that nobody has taken is in the slot.
  have found : ∀ q, takes (some pc) = none → reads (some pc) = some q →
      w.cpu.state q = .waiting → w.slot = some q := by
    intro q untaken named waiting
    obtain rfl := inv.names p q (by rw [at_, named])
    rcases (inv.asleep waiting).slot with ⟨stands, -⟩ | ⟨-, taken, -⟩
    · exact stands
    · rw [other_other, at_, untaken] at taken
      cases taken
  cases pc with
  | claim =>
    simp only [Waiter.step] at ok
    split at ok
    · rename_i empty
      simp only [Except.ok.injEq, Prod.mk.injEq] at ok
      obtain ⟨rfl, rfl⟩ := ok
      exact inv.quiet running (by simp [at_]) (by simp [at_, takes])
        (by simpa [empty] using (other_ne p).symm) (by simp [Outcome.pc, claims]) rfl
        (by simp [Outcome.pc, reads]) (by simp [Outcome.pc, aimsAt])
    · simp only [Except.ok.injEq, Prod.mk.injEq] at ok
      obtain ⟨rfl, rfl⟩ := ok
      exact leaves (by simp) rfl rfl
  | check =>
    simp only [Waiter.step, Except.ok.injEq, Prod.mk.injEq] at ok
    obtain ⟨rfl, rfl⟩ := ok
    have stands : w.slot = some p := (awake (by simp)).slot.mpr (by simp [at_, claims])
    refine inv.quiet running (by simp [at_]) (by simp [at_, takes]) Iff.rfl ?_ ?_ ?_ ?_
    all_goals cases closed <;> simp [Outcome.pc, claims, takes, reads, aimsAt, stands]
  | release =>
    simp only [Waiter.step, Except.ok.injEq, Prod.mk.injEq] at ok
    obtain ⟨rfl, rfl⟩ := ok
    have stands : w.slot = some p := (awake (by simp)).slot.mpr (by simp [at_, claims])
    exact inv.quiet running (by simp [at_]) (by simp [at_, takes])
      (by simpa [stands] using (other_ne p).symm) (by simp [Outcome.pc, claims]) rfl
      (by simp [Outcome.pc, reads]) (by simp [Outcome.pc, aimsAt])
  | mark =>
    simp only [Waiter.step, Except.ok.injEq, Prod.mk.injEq] at ok
    obtain ⟨rfl, rfl⟩ := ok
    exact inv.mark running at_
  | yield =>
    simp only [Waiter.step, Except.ok.injEq, Prod.mk.injEq] at ok
    obtain ⟨rfl, rfl⟩ := ok
    exact inv.leave running (.inr ⟨at_, rfl⟩)
  | parked =>
    simp only [Waiter.step, Except.ok.injEq, Prod.mk.injEq] at ok
    obtain ⟨rfl, rfl⟩ := ok
    exact leaves (by simp) rfl rfl
  | load =>
    simp only [Waiter.step] at ok
    split at ok
    · simp only [Except.ok.injEq, Prod.mk.injEq] at ok
      obtain ⟨rfl, rfl⟩ := ok
      exact leaves (by simp) rfl rfl
    · rename_i q stands
      simp only [Except.ok.injEq, Prod.mk.injEq] at ok
      obtain ⟨rfl, rfl⟩ := ok
      obtain rfl := read q (by simp) rfl stands
      exact inv.quiet running (by simp [at_]) (by simp [at_, takes]) Iff.rfl
        (by simpa [stands, Outcome.pc, claims] using other_ne p) rfl
        (by simp [Outcome.pc, reads, eq_comm]) (by simp [Outcome.pc, aimsAt])
  | state q =>
    simp only [Waiter.step] at ok
    split at ok
    · rename_i waiting
      simp only [Except.ok.injEq, Prod.mk.injEq] at ok
      obtain ⟨rfl, rfl⟩ := ok
      have stands := found q rfl rfl waiting
      obtain rfl := read q (by simp) rfl stands
      exact inv.quiet running (by simp [at_]) (by simp [at_, takes]) Iff.rfl
        (by simpa [stands, Outcome.pc, claims] using other_ne p) rfl
        (by simp [Outcome.pc, reads, eq_comm]) (by simp [Outcome.pc, aimsAt, stands, waiting])
    · simp only [Except.ok.injEq, Prod.mk.injEq] at ok
      obtain ⟨rfl, rfl⟩ := ok
      exact leaves (by simp) rfl rfl
  | cas q =>
    simp only [Waiter.step] at ok
    obtain rfl := inv.names p q (by simp [at_, reads])
    split at ok
    · simp only [Except.ok.injEq, Prod.mk.injEq] at ok
      obtain ⟨rfl, rfl⟩ := ok
      exact inv.take running (by simp [at_, aimsAt]) (by simp)
        (by simp [Outcome.pc, claims]) rfl rfl
    · simp only [Except.ok.injEq, Prod.mk.injEq] at ok
      obtain ⟨rfl, rfl⟩ := ok
      exact leaves (by simp) rfl rfl
  | wake q =>
    simp only [Waiter.step] at ok
    obtain rfl := inv.names p q (by simp [at_, reads])
    split at ok
    · cases ok
    · simp only [Except.ok.injEq, Prod.mk.injEq] at ok
      obtain ⟨rfl, rfl⟩ := ok
      exact inv.wake running at_
  | swapLoad =>
    simp only [Waiter.step] at ok
    split at ok
    · simp only [Except.ok.injEq, Prod.mk.injEq] at ok
      obtain ⟨rfl, rfl⟩ := ok
      exact leaves (by simp) rfl rfl
    · rename_i q stands
      simp only [Except.ok.injEq, Prod.mk.injEq] at ok
      obtain ⟨rfl, rfl⟩ := ok
      obtain rfl := read q (by simp) rfl stands
      exact inv.quiet running (by simp [at_]) (by simp [at_, takes]) Iff.rfl
        (by simpa [stands, Outcome.pc, claims] using other_ne p) rfl
        (by simp [Outcome.pc, reads, eq_comm]) (by simp [Outcome.pc, aimsAt])
  | swapState q =>
    simp only [Waiter.step] at ok
    split at ok
    · rename_i waiting
      simp only [Except.ok.injEq, Prod.mk.injEq] at ok
      obtain ⟨rfl, rfl⟩ := ok
      have stands := found q rfl rfl waiting
      obtain rfl := read q (by simp) rfl stands
      exact inv.quiet running (by simp [at_]) (by simp [at_, takes]) Iff.rfl
        (by simpa [stands, Outcome.pc, claims] using other_ne p) rfl
        (by simp [Outcome.pc, reads, eq_comm]) (by simp [Outcome.pc, aimsAt, stands, waiting])
    · simp only [Except.ok.injEq, Prod.mk.injEq] at ok
      obtain ⟨rfl, rfl⟩ := ok
      exact leaves (by simp) rfl rfl
  | swapCas q =>
    simp only [Waiter.step] at ok
    obtain rfl := inv.names p q (by simp [at_, reads])
    split at ok
    · simp only [Except.ok.injEq, Prod.mk.injEq] at ok
      obtain ⟨rfl, rfl⟩ := ok
      exact inv.take running (by simp [at_, aimsAt]) (by simpa using (other_ne p).symm)
        (by simp [Outcome.pc, claims]) rfl rfl
    · simp only [Except.ok.injEq, Prod.mk.injEq] at ok
      obtain ⟨rfl, rfl⟩ := ok
      exact leaves (by simp) rfl rfl
  | switch q =>
    simp only [Waiter.step] at ok
    obtain rfl := inv.names p q (by simp [at_, reads])
    split at ok
    · cases ok
    · simp only [Except.ok.injEq, Prod.mk.injEq] at ok
      obtain ⟨rfl, rfl⟩ := ok
      exact inv.switch running at_
  | swapped =>
    simp only [Waiter.step, Except.ok.injEq, Prod.mk.injEq] at ok
    obtain ⟨rfl, rfl⟩ := ok
    exact leaves (by simp) rfl rfl

/-- A running task that stands in the slot keeps standing there, unless it releases the slot. -/
theorem Inv.stays {closed : Bool} {pc : WaiterPc Party} {outcome : Outcome Party} (inv : w.Inv role)
    (running : w.cpu.running = some p) (at_ : role p = some pc) (stands : w.slot = some p)
    (kept : pc ≠ .release) (ok : w.step p closed pc = .ok (outcome, w')) :
    w'.slot = some p ∧ outcome.pc ≠ none := by
  have here : claims (some pc) = true ∨ pc = .yield := by
    rcases inv.party p with awake | asleep
    · exact .inl (at_ ▸ awake.slot.mp stands)
    · exact .inr (by simpa [at_] using asleep.running running)
  cases pc with
  | check | mark | yield =>
    simp only [Waiter.step, Except.ok.injEq, Prod.mk.injEq] at ok
    obtain ⟨rfl, rfl⟩ := ok
    exact ⟨stands, by simp [Outcome.pc]⟩
  | switch q =>
    simp only [Waiter.step] at ok
    split at ok
    · cases ok
    · simp only [Except.ok.injEq, Prod.mk.injEq] at ok
      obtain ⟨rfl, rfl⟩ := ok
      exact ⟨stands, by simp [Outcome.pc]⟩
  | release => exact absurd rfl kept
  | claim | parked | load | state | cas | wake | swapLoad | swapState | swapCas | swapped =>
    simp [claims] at here

/-- A task that has found the other one in the slot holds on to it until it wakes it. -/
theorem Inv.holds {closed : Bool} {pc : WaiterPc Party} {outcome : Outcome Party} (inv : w.Inv role)
    (at_ : role p = some pc) (away : pc.member ≠ .parkIf)
    (holds : w.slot = some p.other ∨ takes (some pc) = some p.other)
    (ok : w.step p closed pc = .ok (outcome, w')) :
    w'.slot = some p.other ∨ takes outcome.pc = some p.other ∨ pc = .wake p.other ∨
      pc = .switch p.other ∨ pc = .swapped := by
  have names := inv.names p
  rw [at_] at names
  cases pc with
  | wake q => exact .inr (.inr (.inl (by rw [names q rfl])))
  | switch q => exact .inr (.inr (.inr (.inl (by rw [names q rfl]))))
  | swapped => exact .inr (.inr (.inr (.inr rfl)))
  | cas q | swapCas q =>
    have stands : w.slot = some p.other := holds.resolve_right (by simp [takes])
    obtain rfl := names q rfl
    simp only [Waiter.step, if_pos stands, Except.ok.injEq, Prod.mk.injEq] at ok
    obtain ⟨rfl, rfl⟩ := ok
    exact .inr (.inl rfl)
  | load | swapLoad =>
    have stands : w.slot = some p.other := holds.resolve_right (by simp [takes])
    simp only [Waiter.step, stands, Except.ok.injEq, Prod.mk.injEq] at ok
    obtain ⟨-, rfl⟩ := ok
    exact .inl stands
  | state q | swapState q =>
    have stands : w.slot = some p.other := holds.resolve_right (by simp [takes])
    simp only [Waiter.step] at ok
    split at ok
    all_goals
      simp only [Except.ok.injEq, Prod.mk.injEq] at ok
      obtain ⟨-, rfl⟩ := ok
      exact .inl stands
  | claim | check | release | mark | yield | parked => simp [WaiterPc.member] at away

/-- However a task moves, the invariant is kept. -/
theorem Inv.moves {closed : Bool} {old new : Option (WaiterPc Party)} (inv : w.Inv role)
    (running : w.cpu.running = some p) (at_ : role p = old) (moves : Moves p closed w old new w') :
    w'.Inv (update role p new) := by
  cases moves with
  | enter out stands nobody => exact inv.enter running (at_.trans out) stands nobody
  | yield out stands nobody =>
    -- The next call begins before the task gives up the processor, which changes nothing else.
    exact (inv.enter running (at_.trans out) stands nobody).preempt running
  | step here ok => exact inv.step running (at_.trans here) ok
  | next here ok stands nobody =>
    have left := inv.step running (at_.trans here) ok
    have still := (step_return ok).1.trans running
    have begun : w'.Inv (update (update role p none) p new) :=
      left.enter still (update_self ..) stands nobody
    rw [Function.update_idem] at begun
    exact begun

/-- The loop holds on to the task it has found in the slot, and ends by waking it. -/
theorem Inv.drain_holds {pc : DrainPc Party} {next : Option (DrainPc Party)} (inv : w.Inv role)
    (at_ : role p = pc.inside) (member : ∀ at_, pc.inside = some at_ → at_.member = .unpark)
    (holds : w.slot = some p.other ∨ takes pc.inside = some p.other)
    (ok : w.drain p pc = .ok (next, w')) :
    (w'.slot = some p.other ∨ takes (next.bind DrainPc.inside) = some p.other) ∧ next ≠ none ∨
      pc = .unpark (.wake p.other) := by
  rcases drain_cases ok with ⟨rfl, rfl, rfl⟩ | ⟨inner, outcome, rfl, done, goes⟩ | ⟨rfl, rfl, rfl⟩
  · have stands : w'.slot = some p.other := holds.resolve_right (by simp [DrainPc.inside, takes])
    exact .inl ⟨.inl stands, by simp [stands]⟩
  · have inside := member inner rfl
    rcases inv.holds at_ (by simp [inside]) holds done with stands | taken | rfl | rfl | rfl
    · -- A call that returns true has woken the task, which then is not in the slot.
      rcases outcome with pc' | (_ | _)
      · exact .inl ⟨.inl stands, by simp [goes]⟩
      · exact .inl ⟨.inl stands, by simp [goes]⟩
      · obtain ⟨⟨q, rfl⟩, -⟩ := unpark_true inside done
        exact .inr (by rw [inv.names p q (by rw [at_]; rfl)])
    · rcases outcome with pc' | result
      · exact .inl ⟨.inr (by rw [goes]; exact taken), by simp [goes]⟩
      · cases taken
    · exact .inr rfl
    · cases inside
    · cases inside
  · have stands : w.slot = some p.other := holds.resolve_right (by simp [DrainPc.inside, takes])
    exact .inl ⟨.inl stands, by simp⟩

/-- When the loop ends, the other task is not in the slot. -/
theorem Inv.drained {pc : DrainPc Party} (inv : w.Inv role) (at_ : role p = pc.inside)
    (member : ∀ at_, pc.inside = some at_ → at_.member = .unpark)
    (ok : w.drain p pc = .ok (none, w')) : w'.slot ≠ some p.other := by
  rcases drain_cases ok with ⟨rfl, rfl, ends⟩ | ⟨inner, outcome, rfl, done, ends⟩ | ⟨-, -, ends⟩
  · split at ends
    · rename_i empty
      simp [empty]
    · cases ends
  · cases outcome with
    | goto at' => cases ends
    | return_ result =>
      cases result with
      | false => cases ends
      | true =>
        obtain ⟨⟨q, rfl⟩, same⟩ := unpark_true (member _ rfl) done
        rw [same]
        have target := inv.names p q (by rw [at_]; rfl)
        exact (inv.taken (by rw [at_, ← target]; rfl)).2.1
  · cases ends

/-- Two queued tasks that are outside the waiter's code. -/
theorem inv_start :
    (⟨⟨none, fun _ => .suspended, fun _ => true⟩, none⟩ : Waiter Party).Inv fun _ => none := by
  refine ⟨fun p => .inl ⟨.inr ⟨by simp, rfl, rfl⟩, by simp [claims], by simp [takes]⟩, ?_, ?_⟩
  · simp [reads]
  · simp [aimsAt]

end Waiter

end Gthread

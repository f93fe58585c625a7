import Gthread.Concur.Waiter

/-! What one statement of a waiter does, for any number of tasks. -/

namespace Gthread

/-- The member function a statement belongs to. -/
inductive Member where
  | parkIf
  | unpark
  | swap
  deriving DecidableEq, Repr

variable {ι : Type}

/-- The member function of a statement. -/
def WaiterPc.member : WaiterPc ι → Member
  | .claim | .check | .release | .mark | .yield | .parked => .parkIf
  | .load | .state _ | .cas _ | .wake _ => .unpark
  | .swapLoad | .swapState _ | .swapCas _ | .switch _ | .swapped => .swap

/-- The statement of `unpark` that the loop is at. -/
def DrainPc.inside : DrainPc ι → Option (WaiterPc ι)
  | .unpark pc => some pc
  | _ => none

/-- The statement a member function goes on with, if it has not returned. -/
def Outcome.pc : Outcome ι → Option (WaiterPc ι)
  | .goto pc => some pc
  | .return_ _ => none

namespace Waiter

variable {w w' : Waiter ι} {p q : ι}

/-- Statements at which a task stands in the slot although it runs. -/
def claims : Option (WaiterPc ι) → Bool
  | some .check | some .release | some .mark | some (.switch _) => true
  | _ => false

/-- Statements at which a task may be waiting. -/
def waits : Option (WaiterPc ι) → Bool
  | some .yield | some .parked | some .swapped => true
  | _ => false

/-- The task a statement is about to wake or to switch to, once it has taken it out of the slot. -/
def takes : Option (WaiterPc ι) → Option ι
  | some (.wake q) | some (.switch q) => some q
  | _ => none

/-- The task a statement is about to take. -/
def aimsAt : Option (WaiterPc ι) → Option ι
  | some (.cas q) | some (.swapCas q) => some q
  | _ => none

/-- The task a statement has read from the slot. -/
def reads : Option (WaiterPc ι) → Option ι
  | some (.state q) | some (.swapState q) | some (.cas q) | some (.swapCas q) | some (.wake q)
  | some (.switch q) => some q
  | _ => none

/-- A party that a statement aims at or takes is one it has read. -/
theorem reads_of_aims {pc : Option (WaiterPc ι)} (aimed : aimsAt pc = some q) :
    reads pc = some q := by
  unfold aimsAt at aimed
  split at aimed
  · exact aimed
  · exact aimed
  · cases aimed

theorem reads_of_takes {pc : Option (WaiterPc ι)} (taken : takes pc = some q) :
    reads pc = some q := by
  unfold takes at taken
  split at taken
  · exact taken
  · exact taken
  · cases taken

/-- A task that stands in the slot, or may wait, is at a statement of `park_if` or `swap`. -/
theorem member_of_stands {pc : WaiterPc ι}
    (stands : claims (some pc) = true ∨ waits (some pc) = true) :
    pc.member ≠ .unpark := by
  cases pc <;> simp_all [claims, waits, WaiterPc.member]

/-- A task that waits at a statement reads nobody. -/
theorem reads_of_waits {pc : Option (WaiterPc ι)} (sleeps : waits pc = true) : reads pc = none := by
  unfold waits at sleeps
  split at sleeps
  · rfl
  · rfl
  · rfl
  · cases sleeps

/-- A task that waits at a statement does not claim the slot. -/
theorem claims_of_waits {pc : Option (WaiterPc ι)} (sleeps : waits pc = true) :
    claims pc = false := by
  unfold waits at sleeps
  split at sleeps
  · rfl
  · rfl
  · rfl
  · cases sleeps

/-- A slot that was left or cleared holds who was there before. -/
theorem slot_of_kept (kept : w'.slot = w.slot ∨ w'.slot = none) (stands : w'.slot = some q) :
    w.slot = some q := by
  rcases kept with same | none_
  · exact same ▸ stands
  · rw [none_] at stands
    cases stands

variable [DecidableEq ι]

/-- A statement leads to one of the same member function. -/
theorem step_member {closed : Bool} {pc pc' : WaiterPc ι}
    (ok : w.step p closed pc = .ok (.goto pc', w')) : pc'.member = pc.member := by
  cases pc
  all_goals
    simp only [Waiter.step] at ok
    first | split at ok | skip
    all_goals grind [WaiterPc.member]

/-- A member function returns to the task that called it. -/
theorem step_return {closed : Bool} {pc : WaiterPc ι} {result : Bool}
    (ok : w.step p closed pc = .ok (.return_ result, w')) :
    w'.cpu.running = w.cpu.running ∧ (pc.member = .unpark ∧ result = true ∨ w'.cpu = w.cpu) := by
  cases pc
  all_goals
    simp only [Waiter.step] at ok
    first | split at ok | skip
    all_goals grind [WaiterPc.member, Cpu.schedule, Cpu.setState]

/-- What a statement does to the slot: it leaves or clears it, or puts its own task there. -/
theorem step_slot {closed : Bool} {pc : WaiterPc ι} {outcome : Outcome ι}
    (ok : w.step p closed pc = .ok (outcome, w')) :
    w'.slot = w.slot ∨ w'.slot = none ∨
      (w'.slot = some p ∧ (pc = .claim ∧ w.slot = none ∨ pc.member = .swap)) := by
  cases pc
  all_goals
    simp only [Waiter.step] at ok
    first | split at ok | skip
    all_goals grind [WaiterPc.member, Waiter.setState, Waiter.yield]

/-- `park_if` puts its task in the slot by claiming it, and leaves or clears it otherwise. -/
theorem park_slot {closed : Bool} {pc : WaiterPc ι} {outcome : Outcome ι}
    (member : pc.member = .parkIf) (ok : w.step p closed pc = .ok (outcome, w')) :
    (w'.slot = w.slot ∨ w'.slot = none) ∨
      (pc = .claim ∧ w.slot = none ∧ outcome = .goto .check ∧ w'.slot = some p) := by
  rcases step_slot ok with same | none_ | ⟨own, ⟨rfl, empty⟩ | swap⟩
  · exact .inl (.inl same)
  · exact .inl (.inr none_)
  · simp only [Waiter.step, if_pos empty, Except.ok.injEq, Prod.mk.injEq] at ok
    exact .inr ⟨rfl, empty, ok.1.symm, own⟩
  · rw [member] at swap
    cases swap

/-- `park_if` releases the slot only after its check has failed. -/
theorem goto_release {closed : Bool} {pc : WaiterPc ι}
    (ok : w.step p closed pc = .ok (.goto .release, w')) : closed = true := by
  cases pc
  all_goals
    simp only [Waiter.step] at ok
    first | split at ok | skip
    all_goals grind

/-- `park_if` marks its task only after its check has passed. -/
theorem goto_mark {closed : Bool} {pc : WaiterPc ι}
    (ok : w.step p closed pc = .ok (.goto .mark, w')) : closed = false := by
  cases pc
  all_goals
    simp only [Waiter.step] at ok
    first | split at ok | skip
    all_goals grind

/-- `unpark` goes on to its exchange once it has seen the task waiting. -/
theorem goto_cas {closed : Bool} {pc : WaiterPc ι}
    (ok : w.step p closed pc = .ok (.goto (.cas q), w')) : w.cpu.state q = .waiting := by
  cases pc
  all_goals
    simp only [Waiter.step] at ok
    first | split at ok | skip
    all_goals grind

/-- `unpark` leaves the processor alone until its critical section. -/
theorem unpark_goto {closed : Bool} {pc pc' : WaiterPc ι} (member : pc.member = .unpark)
    (ok : w.step p closed pc = .ok (.goto pc', w')) : w'.cpu = w.cpu := by
  cases pc
  all_goals
    simp only [Waiter.step] at ok
    first | split at ok | skip
    all_goals grind [WaiterPc.member]

/-- `unpark` wakes the task that its exchange has taken out of the slot. -/
theorem goto_wake {closed : Bool} {pc : WaiterPc ι}
    (ok : w.step p closed pc = .ok (.goto (.wake q), w')) : pc = .cas q := by
  cases pc
  all_goals
    simp only [Waiter.step] at ok
    first | split at ok | skip
    all_goals grind

/-- `swap` waits once it has switched to another task. -/
theorem goto_swapped {closed : Bool} {pc : WaiterPc ι}
    (ok : w.step p closed pc = .ok (.goto .swapped, w')) : ∃ q, pc = .switch q := by
  cases pc
  all_goals
    simp only [Waiter.step] at ok
    first | split at ok | skip
    all_goals grind

/-- `swap` switches to the task that its exchange has taken out of the slot. -/
theorem goto_switch {closed : Bool} {pc : WaiterPc ι}
    (ok : w.step p closed pc = .ok (.goto (.switch q), w')) : pc = .swapCas q := by
  cases pc
  all_goals
    simp only [Waiter.step] at ok
    first | split at ok | skip
    all_goals grind

/-- `park_if` returns true only to a task that was woken. -/
theorem park_true {closed : Bool} {pc : WaiterPc ι} (member : pc.member = .parkIf)
    (ok : w.step p closed pc = .ok (.return_ true, w')) : pc = .parked ∧ w' = w := by
  cases pc
  all_goals
    simp only [Waiter.step] at ok
    first | split at ok | skip
    all_goals grind [WaiterPc.member]

/-- `swap` returns true only to a task that was woken. -/
theorem swap_true {closed : Bool} {pc : WaiterPc ι} (member : pc.member = .swap)
    (ok : w.step p closed pc = .ok (.return_ true, w')) : pc = .swapped ∧ w' = w := by
  cases pc
  all_goals
    simp only [Waiter.step] at ok
    first | split at ok | skip
    all_goals grind [WaiterPc.member]

/-- `unpark` returns true only from its critical section. -/
theorem unpark_true {closed : Bool} {pc : WaiterPc ι} (member : pc.member = .unpark)
    (ok : w.step p closed pc = .ok (.return_ true, w')) :
    (∃ q, pc = .wake q) ∧ w'.slot = w.slot := by
  cases pc
  all_goals
    simp only [Waiter.step] at ok
    first | split at ok | skip
    all_goals grind [WaiterPc.member]

/-- A statement changes the run state of another task only where it wakes it or switches to it. -/
theorem step_state {closed : Bool} {pc : WaiterPc ι} {outcome : Outcome ι} (other : q ≠ p)
    (ok : w.step p closed pc = .ok (outcome, w')) :
    w'.cpu.state q = w.cpu.state q ∨ pc = .wake q ∨ pc = .switch q := by
  cases pc
  all_goals
    simp only [Waiter.step] at ok
    first | split at ok | skip
    all_goals simp only [Except.ok.injEq, Prod.mk.injEq, reduceCtorEq] at ok
    all_goals obtain ⟨rfl, rfl⟩ := ok
    all_goals simp [setState, yield, Function.update_apply, other]
    all_goals grind

/-- The critical section of `unpark` suspends the task it wakes, and returns true. -/
theorem step_wake {closed : Bool} {outcome : Outcome ι}
    (ok : w.step p closed (.wake q) = .ok (outcome, w')) :
    outcome = .return_ true ∧ w'.cpu.state q = .suspended := by
  simp only [Waiter.step] at ok
  split at ok
  · cases ok
  · simp only [Except.ok.injEq, Prod.mk.injEq] at ok
    obtain ⟨rfl, rfl⟩ := ok
    exact ⟨rfl, by simp⟩

/-- A statement makes no other task wait. -/
theorem step_waiting {closed : Bool} {pc : WaiterPc ι} {outcome : Outcome ι} (other : q ≠ p)
    (ok : w.step p closed pc = .ok (outcome, w')) (waiting : w'.cpu.state q = .waiting) :
    w.cpu.state q = .waiting := by
  rcases step_state other ok with same | rfl | rfl
  · exact same ▸ waiting
  · -- The task that is woken is suspended, and the one that is switched to runs.
    rw [(step_wake ok).2] at waiting
    cases waiting
  · simp only [Waiter.step] at ok
    split at ok
    · cases ok
    · simp only [Except.ok.injEq, Prod.mk.injEq] at ok
      obtain ⟨-, rfl⟩ := ok
      simp at waiting

/-- A task begins to wait only where it marks itself or switches to another one. -/
theorem step_awake {closed : Bool} {pc : WaiterPc ι} {outcome : Outcome ι}
    (awake : w.cpu.state p ≠ .waiting) (ok : w.step p closed pc = .ok (outcome, w')) :
    w'.cpu.state p ≠ .waiting ∨ pc = .mark ∨ ∃ q, pc = .switch q := by
  cases pc
  all_goals
    simp only [Waiter.step] at ok
    first | split at ok | skip
    all_goals simp only [Except.ok.injEq, Prod.mk.injEq, reduceCtorEq] at ok
    all_goals obtain ⟨rfl, rfl⟩ := ok
    all_goals simp [setState, yield, Function.update_apply]
    all_goals grind

/-- Only `park_if` looks at `_closed`. -/
theorem step_unchecked {closed : Bool} {pc : WaiterPc ι} (member : pc.member = .unpark)
    (closed' : Bool) : w.step p closed pc = w.step p closed' pc := by
  cases pc <;> first | rfl | cases member

/-- What a statement of the loop does. -/
theorem drain_cases {pc : DrainPc ι} {next : Option (DrainPc ι)}
    (ok : w.drain p pc = .ok (next, w')) :
    (pc = .test ∧ w' = w ∧ next = if w.slot = none then none else some (.unpark .load)) ∨
    (∃ at_ outcome, pc = .unpark at_ ∧ w.step p false at_ = .ok (outcome, w') ∧
      next = match outcome with
        | .goto pc => some (.unpark pc)
        | .return_ true => none
        | .return_ false => some .again) ∨
    (pc = .again ∧ w' = w.yield p ∧ next = some .test) := by
  cases pc with
  | test =>
    simp only [drain, Except.ok.injEq, Prod.mk.injEq] at ok
    exact .inl ⟨rfl, ok.2.symm, ok.1.symm⟩
  | again =>
    simp only [drain, Except.ok.injEq, Prod.mk.injEq] at ok
    exact .inr (.inr ⟨rfl, ok.2.symm, ok.1.symm⟩)
  | unpark at_ =>
    refine .inr (.inl ?_)
    cases done : w.step p false at_ with
    | error fault => simp [drain, done, Bind.bind, Except.bind] at ok
    | ok result =>
      obtain ⟨outcome, w₁⟩ := result
      simp only [drain, done, Bind.bind, Except.bind, pure, Except.pure] at ok
      refine ⟨at_, outcome, rfl, ?_⟩
      cases outcome with
      | goto pc =>
        simp only [Except.ok.injEq, Prod.mk.injEq] at ok
        exact ⟨by rw [done, ok.2], ok.1.symm⟩
      | return_ result =>
        cases result with
        | false =>
          simp only [Except.ok.injEq, Prod.mk.injEq] at ok
          exact ⟨by rw [done, ok.2], ok.1.symm⟩
        | true =>
          simp only [Except.ok.injEq, Prod.mk.injEq] at ok
          exact ⟨by rw [done, ok.2], ok.1.symm⟩

/-- How a task moves outside and inside the waiter's code, from one statement to another. -/
inductive Moves (p : ι) (closed : Bool) (w : Waiter ι) (old : Option (WaiterPc ι)) :
    Option (WaiterPc ι) → Waiter ι → Prop
  -- A statement of its own, after which it may call a member function.
  | enter {new : Option (WaiterPc ι)} (out : old = none) (stands : claims new = false)
      (nobody : reads new = none) : Moves p closed w old new w
  | yield {new : Option (WaiterPc ι)} (out : old = none) (stands : claims new = false)
      (nobody : reads new = none) : Moves p closed w old new (w.yield p)
  | step {pc : WaiterPc ι} {outcome : Outcome ι} {w' : Waiter ι} (at_ : old = some pc)
      (ok : w.step p closed pc = .ok (outcome, w')) : Moves p closed w old outcome.pc w'
  -- The member function returns, and another one is called.
  | next {pc : WaiterPc ι} {result : Bool} {new : Option (WaiterPc ι)} {w' : Waiter ι}
      (at_ : old = some pc) (ok : w.step p closed pc = .ok (.return_ result, w'))
      (stands : claims new = false) (nobody : reads new = none) : Moves p closed w old new w'

/-- A statement of the loop moves the task, whatever `_closed` is. -/
theorem moves_of_drain {closed : Bool} {pc : DrainPc ι} {next : Option (DrainPc ι)}
    (member : ∀ at_, pc.inside = some at_ → at_.member = .unpark)
    (ok : w.drain p pc = .ok (next, w')) :
    Moves p closed w pc.inside (next.bind DrainPc.inside) w' := by
  rcases drain_cases ok with ⟨rfl, rfl, rfl⟩ | ⟨inner, outcome, rfl, done, rfl⟩ | ⟨rfl, rfl, rfl⟩
  · split
    · exact .enter rfl rfl rfl
    · exact .enter rfl rfl rfl
  · rw [step_unchecked (member inner rfl) closed] at done
    have moved : Moves p closed w (some inner) outcome.pc w' := .step rfl done
    split
    · exact moved
    · exact moved
    · exact moved
  · exact .yield rfl rfl rfl

/-- The loop puts nobody in the slot, and stays in `unpark`. -/
theorem drain_slot {pc : DrainPc ι} {next : Option (DrainPc ι)}
    (member : ∀ at_, pc.inside = some at_ → at_.member = .unpark)
    (ok : w.drain p pc = .ok (next, w')) :
    (w'.slot = w.slot ∨ w'.slot = none) ∧
      ∀ pc' at_, next = some pc' → pc'.inside = some at_ → at_.member = .unpark := by
  rcases drain_cases ok with ⟨rfl, rfl, rfl⟩ | ⟨inner, outcome, rfl, done, rfl⟩ | ⟨rfl, rfl, rfl⟩
  · refine ⟨.inl rfl, ?_⟩
    split
    · simp
    · rintro pc' at_ same here
      obtain rfl : pc' = .unpark .load := by simpa using same.symm
      obtain rfl : at_ = .load := by simpa [DrainPc.inside] using here.symm
      rfl
  · have inside := member inner rfl
    constructor
    · rcases step_slot done with same | none_ | ⟨-, ⟨rfl, -⟩ | swap⟩
      · exact .inl same
      · exact .inr none_
      · cases inside
      · rw [inside] at swap
        cases swap
    · intro pc' at_ same here
      cases outcome with
      | return_ result =>
        cases result with
        | false =>
          obtain rfl : pc' = .again := by simpa using same.symm
          cases here
        | true => cases same
      | goto at' =>
        simp only [Option.some.injEq] at same
        subst same
        obtain rfl : at' = at_ := by simpa [DrainPc.inside] using here
        exact (step_member done).trans inside
  · refine ⟨.inl rfl, ?_⟩
    rintro pc' at_ same here
    obtain rfl : pc' = .test := by simpa using same.symm
    cases here

/-- The loop changes the run state of another task only where it wakes it. -/
theorem drain_state {pc : DrainPc ι} {next : Option (DrainPc ι)} (other : q ≠ p)
    (member : ∀ at_, pc.inside = some at_ → at_.member = .unpark)
    (ok : w.drain p pc = .ok (next, w')) :
    w'.cpu.state q = w.cpu.state q ∨ (pc = .unpark (.wake q) ∧ next = none) := by
  rcases drain_cases ok with ⟨rfl, rfl, -⟩ | ⟨inner, outcome, rfl, done, goes⟩ | ⟨rfl, rfl, -⟩
  · exact .inl rfl
  · rcases step_state other done with same | rfl | rfl
    · exact .inl same
    · -- The critical section of `unpark` returns true, which ends the loop.
      simp only [Waiter.step] at done
      split at done
      · cases done
      · simp only [Except.ok.injEq, Prod.mk.injEq] at done
        obtain ⟨rfl, -⟩ := done
        exact .inr ⟨rfl, goes⟩
    · cases member _ rfl
  · exact .inl (by simp [yield, other])

/-- A task does not wait in the loop. -/
theorem drain_awake {pc : DrainPc ι} {next : Option (DrainPc ι)}
    (member : ∀ at_, pc.inside = some at_ → at_.member = .unpark)
    (awake : w.cpu.state p ≠ .waiting) (ok : w.drain p pc = .ok (next, w')) :
    w'.cpu.state p ≠ .waiting := by
  rcases drain_cases ok with ⟨rfl, rfl, -⟩ | ⟨inner, outcome, rfl, done, -⟩ | ⟨rfl, rfl, -⟩
  · exact awake
  · rcases step_awake awake done with still | rfl | ⟨q, rfl⟩
    · exact still
    · cases member _ rfl
    · cases member _ rfl
  · cases state : w.cpu.state p <;> simp_all [yield]

/-- The loop ends where it wakes a task. -/
theorem drain_wakes {next : Option (DrainPc ι)}
    (ok : w.drain p (.unpark (.wake q)) = .ok (next, w')) :
    next = none ∧ w'.cpu.state q = .suspended := by
  simp only [drain, Waiter.step] at ok
  split at ok
  · simp [Bind.bind, Except.bind] at ok
  · simp only [Bind.bind, Except.bind, pure, Except.pure, Except.ok.injEq, Prod.mk.injEq] at ok
    obtain ⟨rfl, rfl⟩ := ok
    exact ⟨rfl, by simp⟩

end Waiter

end Gthread

import Gthread.Concur.MutexSteps

/-! What holds of a mutex and its tasks whatever they interleave. -/

namespace Gthread

open Function (update update_of_ne update_self)
open Waiter (claims waits takes aimsAt)
open Lot (claimsAt waitsAt takesAt)

variable {ι : Type}

namespace Mutex

/-- The waiters' code that the tasks are in. -/
def role (s : Mutex ι) (p : ι) : Option (Nat × WaiterPc ι) := (s.pc p).role

/-- A task that has put a node in the list and that no `unlock` has unparked from it. -/
def Enqueued (s : Mutex ι) (p : ι) (n : Nat) : Prop :=
  s.pc p = .release n ∨
    ∃ pc, s.pc p = .park n pc ∧ (s.lot.cpu.state p = .waiting ∨ waits (some pc) = false)

/-- A task that was unparked and has not tested `_owner` since. -/
def Woken (s : Mutex ι) (p : ι) : Prop :=
  match s.pc p with
  | .park _ pc => waits (some pc) = true ∧ s.lot.cpu.state p ≠ .waiting
  | .assertParked _ | .acquire .again | .spin .again | .unboost => True
  | _ => False

/-- What a task knows at its statement. -/
def Knows (s : Mutex ι) (p : ι) : Prop :=
  match s.pc p with
  | .park _ pc => pc.member = .parkIf ∧ pc ≠ .release
  | .assertParked succ => succ = true
  | .boost | .boostOwner | .emplace => s.owner ≠ none
  | .setOwner => s.owner = none
  | .setBoost | .leave | .testEmpty => s.owner = some p
  | .checkOwner => s.found = (s.owner, s.queue, s.boost)
  | .unwind => s.found = (s.owner, s.queue, s.boost) ∧ s.owner ≠ some p
  | .clearFast => s.owner = some p ∧ s.queue = []
  | .unpark n pc => s.owner = some p ∧ s.queue.head? = some n ∧ pc.member = .unpark ∧
      ∀ q, pc = .cas q → s.lot.cpu.state q = .waiting
  | .again n => s.owner = some p ∧ s.queue.head? = some n
  -- The task of the first node was woken, and has not got on since.
  | .pop => s.owner = some p ∧ (∃ n, s.queue.head? = some n ∧ ∀ q, ¬ s.Enqueued q n) ∧
      ∃ q, s.Woken q
  | .clear => s.owner = some p ∧ ∃ q, s.Woken q
  | _ => True

/-- The invariant of a mutex. -/
structure Inv (s : Mutex ι) : Prop where
  lot : s.lot.Inv s.role
  locked : ∀ p, (s.pc p).critical = true → s.locked = true
  exclusive : ∀ p q, (s.pc p).critical = true → (s.pc q).critical = true → p = q
  knows : ∀ p, s.Knows p
  held : ∀ p, s.held p = true → s.owner = some p
  -- Nodes are numbered as they are made, and each belongs to the task that made it.
  old : ∀ n ∈ s.queue, n < s.nodes
  fresh : ∀ p n, (s.pc p).node = some n → n < s.nodes
  nodup : s.queue.Nodup
  own : ∀ p q n, (s.pc p).node = some n → (s.pc q).node = some n → p = q
  member : ∀ p n, s.Enqueued p n → n ∈ s.queue
  served : ∀ n ∈ s.queue, (∃ p, s.Enqueued p n) ∨ ∃ u, s.pc u = .pop ∧ s.queue.head? = some n
  progress : s.owner = none → s.queue = [] ∨
    ∃ p, s.Woken p ∨ s.pc p = .test ∨ s.pc p = .setOwner

variable [DecidableEq ι] {s s' : Mutex ι} {l : MutexLabel ι} {p q : ι} {n : Nat}

/-- The roles once a task has moved. -/
theorem Runs.role (runs : Runs p s s') : s'.role = update s.role p (s'.pc p).role := by
  funext q
  simp only [Mutex.role]
  rw [runs.pc]
  by_cases here : q = p
  · rw [here, update_self, update_self]
  · rw [update_of_ne here, update_of_ne here]
    rfl

/-- The other tasks stay where they are. -/
theorem Runs.pc_other (runs : Runs p s s') (other : q ≠ p) : s'.pc q = s.pc q := by
  rw [runs.pc, update_of_ne other]

omit [DecidableEq ι] in
/-- A task in the list refers to its node. -/
theorem node_of_enqueued (enqueued : s.Enqueued p n) : (s.pc p).node = some n := by
  rcases enqueued with released | ⟨pc, parks, -⟩
  · rw [released]
    rfl
  · rw [parks]
    rfl

omit [DecidableEq ι] in
/-- A task in the waiter's code is in `park` or in `unpark`. -/
theorem pc_of_role {pc : WaiterPc ι} (at_ : s.role p = some (n, pc)) :
    s.pc p = .park n pc ∨ s.pc p = .unpark n pc := by
  unfold Mutex.role at at_
  cases here : s.pc p <;> simp_all [MutexPc.role]

omit [DecidableEq ι] in
/-- A task that stands in a slot, or that may be waiting, is in `park`. -/
theorem Inv.parks (inv : s.Inv) {pc : WaiterPc ι} (at_ : s.role p = some (n, pc))
    (stands : claims (some pc) = true ∨ waits (some pc) = true) : s.pc p = .park n pc := by
  rcases pc_of_role at_ with parks | unparks
  · exact parks
  · have knows := inv.knows p
    simp only [Knows, unparks] at knows
    exact absurd knows.2.2.1 (Waiter.member_of_stands stands)

omit [DecidableEq ι] in
/-- Whoever is in a slot has made the node of that slot. -/
theorem Inv.parks_of_slot (inv : s.Inv) (stands : s.lot.slot n = some p) :
    ∃ pc, s.pc p = .park n pc ∧ (claims (some pc) = true ∨ waits (some pc) = true) := by
  rcases inv.lot.home n p stands with claimed | ⟨sleeps, -⟩
  · obtain ⟨pc, at_, claims_⟩ := Lot.claimsAt_eq_some claimed
    exact ⟨pc, inv.parks at_ (.inl claims_), .inl claims_⟩
  · obtain ⟨pc, at_, waits_⟩ := Lot.waitsAt_eq_some sleeps
    exact ⟨pc, inv.parks at_ (.inr waits_), .inr waits_⟩

omit [DecidableEq ι] in
/-- A node that is still to be made has an empty waiter. -/
theorem Inv.slot_fresh (inv : s.Inv) : s.lot.slot s.nodes = none := by
  cases stands : s.lot.slot s.nodes with
  | none => rfl
  | some p =>
    obtain ⟨pc, at_, -⟩ := inv.parks_of_slot stands
    have lt := inv.fresh p s.nodes (by rw [at_]; rfl)
    omega

omit [DecidableEq ι] in
/-- A task that waits does so in `park`. -/
theorem Inv.parks_of_waiting (inv : s.Inv) (waiting : s.lot.cpu.state p = .waiting) :
    ∃ n pc, s.pc p = .park n pc ∧ waits (some pc) = true := by
  obtain ⟨-, n, sleeps, -⟩ := inv.lot.asleep p waiting
  obtain ⟨pc, at_, waits_⟩ := Lot.waitsAt_eq_some sleeps
  exact ⟨n, pc, inv.parks at_ (.inr waits_), waits_⟩

omit [DecidableEq ι] in
/-- Whoever an exchange is about to take out of a slot waits, and claims no slot. -/
theorem Inv.settled (inv : s.Inv) {pc : WaiterPc ι} (at_ : s.role p = some (n, pc))
    (aims : aimsAt (some pc) = some q) : claimsAt (s.role q) = none := by
  have knows := inv.knows p
  have waiting : s.lot.cpu.state q = .waiting := by
    rcases pc_of_role at_ with parks | unparks
    · simp only [Knows, parks] at knows
      cases pc <;> simp_all [aimsAt, WaiterPc.member]
    · simp only [Knows, unparks] at knows
      refine knows.2.2.2 q ?_
      cases pc <;> simp_all [aimsAt, WaiterPc.member]
  obtain ⟨-, m, sleeps, -⟩ := inv.lot.asleep q waiting
  exact (Lot.waitsAt_excludes sleeps).1

/-- A statement keeps the waiters in order. -/
theorem Inv.lot_step (inv : s.Inv) (running : s.lot.cpu.running = some p) (runs : Runs p s s') :
    s'.lot.Inv s'.role := by
  rw [runs.role]
  rcases runs.lot_cases
    with ⟨out, stands, nobody, same | same | ⟨-, same⟩⟩ | ⟨n, pc, outcome, at_, ok, goes⟩
  · rw [same]
    exact inv.lot.begin running out stands nobody
  · rw [same]
    exact (inv.lot.begin running out stands nobody).preempt running
  · -- The waiter of a new node was empty anyway.
    rw [same, ← inv.slot_fresh, Function.update_eq_self]
    exact inv.lot.begin running out stands nobody
  · rw [goes]
    exact inv.lot.step running at_ (fun q aims _ => inv.settled at_ aims) ok

/-- The critical section of `unpark` ends the loop of `unlock`. -/
theorem Runs.wakes (runs : Runs p s s') (at_ : s.pc p = .unpark n (.wake q)) :
    s'.pc p = .pop ∧ s'.lot.cpu.state q = .suspended ∧ s'.queue = s.queue ∧
      s'.owner = s.owner := by
  cases runs with
  | @unparked m pc lot at' ok =>
    obtain ⟨rfl, rfl⟩ : m = n ∧ pc = .wake q := by simpa [at_, eq_comm] using at'
    obtain ⟨w, done, rfl⟩ := Lot.step_ok ok
    exact ⟨by simp [goto], (Waiter.step_wake done).2, rfl, rfl⟩
  | @unparks m pc pc' lot at' ok =>
    obtain ⟨rfl, rfl⟩ : m = n ∧ pc = .wake q := by simpa [at_, eq_comm] using at'
    obtain ⟨w, done, -⟩ := Lot.step_ok ok
    cases (Waiter.step_wake done).1
  | @unready m pc lot at' ok =>
    obtain ⟨rfl, rfl⟩ : m = n ∧ pc = .wake q := by simpa [at_, eq_comm] using at'
    obtain ⟨w, done, -⟩ := Lot.step_ok ok
    cases (Waiter.step_wake done).1
  | _ at' =>
    rw [at_] at at'
    cases at'

/-- A statement wakes another task only in the critical section of `unpark`. -/
theorem Inv.state_other (inv : s.Inv) (runs : Runs p s s') (other : q ≠ p) :
    s'.lot.cpu.state q = s.lot.cpu.state q ∨
      ∃ n, s.pc p = .unpark n (.wake q) := by
  have knows := inv.knows p
  rcases runs.lot_cases with ⟨-, -, -, same | same | ⟨-, same⟩⟩ | ⟨n, pc, outcome, at_, ok, goes⟩
  · exact .inl (by rw [same])
  · exact .inl (by simp [same, Lot.yield, other])
  · exact .inl (by rw [same])
  · obtain ⟨w, done, same⟩ := Lot.step_ok ok
    rcases Waiter.step_state other done with kept | rfl | rfl
    · exact .inl (by rw [same]; exact kept)
    · rcases pc_of_role at_ with parks | unparks
      · simp [Knows, parks, WaiterPc.member] at knows
      · exact .inr ⟨n, unparks⟩
    · rcases pc_of_role at_ with parks | unparks
      · simp [Knows, parks, WaiterPc.member] at knows
      · simp [Knows, unparks, WaiterPc.member] at knows

/-- A statement keeps its own task waiting where it gives up the processor to wait. -/
theorem Inv.waits_own (inv : s.Inv) (running : s.lot.cpu.running = some p) (runs : Runs p s s')
    (waiting : s.lot.cpu.state p = .waiting) :
    ∃ n, s.pc p = .park n .yield ∧ s'.pc p = .park n .parked ∧ s'.lot.cpu.state p = .waiting := by
  obtain ⟨-, n, -, yields, -⟩ := inv.lot.asleep p waiting
  have at_ : s.pc p = .park n .yield := inv.parks (yields running) (.inr rfl)
  refine ⟨n, at_, ?_⟩
  cases runs with
  | @parks m pc pc' lot at' ok =>
    obtain ⟨rfl, rfl⟩ : m = n ∧ pc = .yield := by simpa [at_, eq_comm] using at'
    obtain ⟨w, done, rfl⟩ := Lot.step_ok ok
    simp only [Waiter.step, Except.ok.injEq, Prod.mk.injEq, Outcome.goto.injEq] at done
    obtain ⟨rfl, rfl⟩ := done
    exact ⟨by simp [goto], by simp [goto, Waiter.yield, waiting]⟩
  | @parked m pc succ lot at' ok =>
    obtain ⟨rfl, rfl⟩ : m = n ∧ pc = .yield := by simpa [at_, eq_comm] using at'
    obtain ⟨w, done, -⟩ := Lot.step_ok ok
    simp [Waiter.step] at done
  | _ at' =>
    rw [at_] at at'
    cases at'

/-- Whoever waits goes on waiting until it is woken. -/
theorem Inv.waiting_step (inv : s.Inv) (running : s.lot.cpu.running = some p) (runs : Runs p s s')
    (waiting : s.lot.cpu.state q = .waiting) :
    s'.lot.cpu.state q = .waiting ∨ ∃ n, s.pc p = .unpark n (.wake q) := by
  by_cases here : q = p
  · subst here
    obtain ⟨n, -, -, still⟩ := inv.waits_own running runs waiting
    exact .inl still
  · rcases inv.state_other runs here with same | wakes
    · exact .inl (same.trans waiting)
    · exact .inr wakes

/-- A task that another one has moved past stays in the list, unless it is woken. -/
theorem Inv.enqueued_other (inv : s.Inv) (runs : Runs p s s') (other : q ≠ p) :
    (s'.Enqueued q n → s.Enqueued q n) ∧
      (s.Enqueued q n → s'.Enqueued q n ∨ ∃ m, s.pc p = .unpark m (.wake q)) := by
  unfold Enqueued
  rw [runs.pc_other other]
  rcases inv.state_other runs other with same | ⟨m, wakes⟩
  · rw [same]
    exact ⟨id, .inl⟩
  · refine ⟨?_, fun _ => .inr ⟨m, wakes⟩⟩
    rintro (released | ⟨pc, at_, waiting | going⟩)
    · exact .inl released
    · rw [(runs.wakes wakes).2.1] at waiting
      cases waiting
    · exact .inr ⟨pc, at_, .inr going⟩

omit [DecidableEq ι] in
/-- A task finds the waiter of its own node empty. -/
theorem Inv.slot_own (inv : s.Inv) (at_ : s.pc p = .park n .claim) : s.lot.slot n = none := by
  cases stands : s.lot.slot n with
  | none => rfl
  | some q =>
    obtain ⟨pc, parks, standing⟩ := inv.parks_of_slot stands
    obtain rfl := inv.own q p n (by rw [parks]; rfl) (by rw [at_]; rfl)
    obtain rfl : pc = .claim := by simpa [at_, eq_comm] using parks
    simp [claims, waits] at standing

/-- What a statement of `park` does: it goes from the exchange to the return of `sched::yield`. -/
theorem Inv.park_cases (inv : s.Inv) {pc : WaiterPc ι} (runs : Runs p s s')
    (at_ : s.pc p = .park n pc) :
    (pc = .claim ∧ s'.pc p = .park n .check ∧ s'.lot.cpu = s.lot.cpu) ∨
    (pc = .check ∧ s'.pc p = .park n .mark ∧ s'.lot.cpu = s.lot.cpu) ∨
    (pc = .mark ∧ s'.pc p = .park n .yield ∧ s'.lot.cpu.state p = .waiting) ∨
    (pc = .yield ∧ s'.pc p = .park n .parked ∧
      (s'.lot.cpu.state p = .waiting ↔ s.lot.cpu.state p = .waiting)) ∨
    (pc = .parked ∧ s'.pc p = .assertParked true ∧ s'.lot.cpu = s.lot.cpu) := by
  have knows := inv.knows p
  simp only [Knows, at_] at knows
  obtain ⟨outcome, w, done, cpu, goes⟩ : ∃ outcome w,
      Waiter.step p false pc ⟨s.lot.cpu, s.lot.slot n⟩ = .ok (outcome, w) ∧ s'.lot.cpu = w.cpu ∧
      s'.pc p = .parkOutcome n outcome := by
    cases runs with
    | @parks m pc₁ pc' lot at' ok =>
      obtain ⟨rfl, rfl⟩ : m = n ∧ pc₁ = pc := by simpa [at_, eq_comm] using at'
      obtain ⟨w, done, rfl⟩ := Lot.step_ok ok
      exact ⟨_, w, done, rfl, by simp [goto, MutexPc.parkOutcome]⟩
    | @parked m pc₁ succ lot at' ok =>
      obtain ⟨rfl, rfl⟩ : m = n ∧ pc₁ = pc := by simpa [at_, eq_comm] using at'
      obtain ⟨w, done, rfl⟩ := Lot.step_ok ok
      exact ⟨_, w, done, rfl, by simp [goto, MutexPc.parkOutcome]⟩
    | _ at' =>
      rw [at_] at at'
      cases at'
  cases pc with
  | claim =>
    simp only [Waiter.step, if_pos (inv.slot_own at_), Except.ok.injEq, Prod.mk.injEq] at done
    obtain ⟨rfl, rfl⟩ := done
    exact .inl ⟨rfl, goes, cpu⟩
  | check =>
    simp only [Waiter.step, Except.ok.injEq, Prod.mk.injEq] at done
    obtain ⟨rfl, rfl⟩ := done
    exact .inr (.inl ⟨rfl, goes, cpu⟩)
  | mark =>
    simp only [Waiter.step, Except.ok.injEq, Prod.mk.injEq] at done
    obtain ⟨rfl, rfl⟩ := done
    exact .inr (.inr (.inl ⟨rfl, goes, by simp [cpu, Waiter.setState]⟩))
  | yield =>
    simp only [Waiter.step, Except.ok.injEq, Prod.mk.injEq] at done
    obtain ⟨rfl, rfl⟩ := done
    refine .inr (.inr (.inr (.inl ⟨rfl, goes, ?_⟩)))
    cases state : s.lot.cpu.state p <;> simp [cpu, Waiter.yield, state]
  | parked =>
    simp only [Waiter.step, Except.ok.injEq, Prod.mk.injEq] at done
    obtain ⟨rfl, rfl⟩ := done
    exact .inr (.inr (.inr (.inr ⟨rfl, goes, cpu⟩)))
  | release => exact absurd rfl knows.2
  | load | state | cas | wake | swapLoad | swapState | swapCas | switch | swapped =>
    cases knows.1

/-- What a statement of `unpark` does: it goes on, fails, or wakes the task it has taken. -/
theorem Inv.unpark_cases (inv : s.Inv) {pc : WaiterPc ι} (runs : Runs p s s')
    (at_ : s.pc p = .unpark n pc) :
    ((∃ pc', s'.pc p = .unpark n pc' ∧ pc'.member = .unpark ∧
      (∀ q, pc' = .cas q → s.lot.cpu.state q = .waiting)) ∧ s'.lot.cpu = s.lot.cpu) ∨
    (s'.pc p = .again n ∧ s'.lot.cpu = s.lot.cpu) ∨
    ∃ q, pc = .wake q ∧ s'.pc p = .pop := by
  have knows := inv.knows p
  simp only [Knows, at_] at knows
  obtain ⟨-, -, member, -⟩ := knows
  cases runs with
  | @unparks m pc₁ pc' lot at' ok =>
    obtain ⟨rfl, rfl⟩ : m = n ∧ pc₁ = pc := by simpa [at_, eq_comm] using at'
    obtain ⟨w, done, rfl⟩ := Lot.step_ok ok
    have inside := (Waiter.step_member done).trans member
    refine .inl ⟨⟨pc', by simp [goto], inside, ?_⟩, Waiter.unpark_goto member done⟩
    rintro q rfl
    exact Waiter.goto_cas done
  | @unparked m pc₁ lot at' ok =>
    obtain ⟨rfl, rfl⟩ : m = n ∧ pc₁ = pc := by simpa [at_, eq_comm] using at'
    obtain ⟨w, done, rfl⟩ := Lot.step_ok ok
    obtain ⟨⟨q, rfl⟩, -⟩ := Waiter.unpark_true member done
    exact .inr (.inr ⟨q, rfl, by simp [goto]⟩)
  | @unready m pc₁ lot at' ok =>
    obtain ⟨rfl, rfl⟩ : m = n ∧ pc₁ = pc := by simpa [at_, eq_comm] using at'
    obtain ⟨w, done, rfl⟩ := Lot.step_ok ok
    rcases (Waiter.step_return done).2 with ⟨-, succeeds⟩ | same
    · cases succeeds
    · exact .inr (.inl ⟨by simp [goto], same⟩)
  | _ at' =>
    rw [at_] at at'
    cases at'

/-- A task gets into the list where it makes a node, and stays there until it is woken. -/
theorem Inv.enqueued_own (inv : s.Inv) (running : s.lot.cpu.running = some p)
    (runs : Runs p s s') :
    (s'.Enqueued p n → s.Enqueued p n ∨ (s.pc p = .emplace ∧ n = s.nodes)) ∧
      (s.Enqueued p n → s'.Enqueued p n) := by
  by_cases inside : ∃ m pc, s.pc p = .park m pc
  · obtain ⟨m, pc, at_⟩ := inside
    rcases inv.park_cases runs at_ with ⟨rfl, goes, -⟩ | ⟨rfl, goes, -⟩ | ⟨rfl, goes, waiting⟩ |
      ⟨rfl, goes, same⟩ | ⟨rfl, goes, -⟩
    · simp [Enqueued, at_, goes, waits]
    · simp [Enqueued, at_, goes, waits]
    · simp [Enqueued, at_, goes, waits, waiting]
    · simp [Enqueued, at_, goes, waits, same]
    · -- A task that goes on from `sched::yield` runs.
      have state := (inv.lot.runs running (by simp [Mutex.role, at_, MutexPc.role])).1
      simp [Enqueued, at_, goes, waits, state]
  · cases runs with
    | @acquired site at_ free => cases site <;> simp [Enqueued, Mutex.acquired, goto, at_]
    | parks at_ ok => exact absurd ⟨_, _, at_⟩ inside
    | parked at_ ok => exact absurd ⟨_, _, at_⟩ inside
    | emplace at_ =>
      refine ⟨fun after => .inr ⟨at_, ?_⟩, by simp [Enqueued, at_]⟩
      have made : s.nodes = n := by simpa [Enqueued, goto] using after
      exact made.symm
    | _ at_ => simp [Enqueued, goto, at_, waits]

/-- A woken task stays so until it tests `_owner`. -/
theorem Inv.woken_own (inv : s.Inv) (runs : Runs p s s') (woken : s.Woken p) :
    s'.Woken p ∨ s'.pc p = .test := by
  by_cases inside : ∃ m pc, s.pc p = .park m pc
  · obtain ⟨m, pc, at_⟩ := inside
    rcases inv.park_cases runs at_ with ⟨rfl, goes, -⟩ | ⟨rfl, goes, -⟩ | ⟨rfl, goes, waiting⟩ |
      ⟨rfl, goes, same⟩ | ⟨rfl, goes, -⟩
    · simp [Woken, at_, waits] at woken
    · simp [Woken, at_, waits] at woken
    · simp [Woken, at_, waits] at woken
    · simp_all [Woken, waits]
    · simp [Woken, goes]
  · cases runs with
    | @acquired site at_ free => cases site <;> simp_all [Woken, Mutex.acquired, goto]
    | parks at_ ok => exact absurd ⟨_, _, at_⟩ inside
    | parked at_ ok => exact absurd ⟨_, _, at_⟩ inside
    | @busy site at_ locked => cases site <;> simp_all [Woken, goto]
    | @spin site at_ => cases site <;> simp_all [Woken, goto]
    | _ at_ => simp_all [Woken, goto]

/-- A woken task stays so while another one runs. -/
theorem Inv.woken_other (inv : s.Inv) (runs : Runs p s s') (other : q ≠ p) (woken : s.Woken q) :
    s'.Woken q := by
  unfold Woken at woken ⊢
  rw [runs.pc_other other]
  split at woken
  · refine ⟨woken.1, ?_⟩
    rcases inv.state_other runs other with same | ⟨m, wakes⟩
    · rw [same]
      exact woken.2
    · simp [(runs.wakes wakes).2.1]
  all_goals trivial

omit [DecidableEq ι] in
/-- Whoever `unlock` has taken waits in `park`, on the same node. -/
theorem Inv.taken_parks (inv : s.Inv) (running : s.lot.cpu.running = some p)
    (at_ : s.pc p = .unpark n (.wake q)) :
    q ≠ p ∧ ∃ pc, s.pc q = .park n pc ∧ waits (some pc) = true := by
  have takes_ : takesAt (s.role p) = some (n, q) := by simp [Mutex.role, at_, MutexPc.role]; rfl
  obtain ⟨waiting, away, out⟩ := inv.lot.taken p n q takes_
  constructor
  · rintro rfl
    exact away running
  · obtain ⟨-, m, sleeps, -, stands | ⟨b, takes'⟩⟩ := inv.lot.asleep q waiting
    · exact absurd stands (out m)
    · -- The one task that has taken it says on which node.
      obtain rfl := inv.lot.unique b p m n q takes' takes_
      rw [takes_, Option.some.injEq, Prod.mk.injEq] at takes'
      obtain ⟨pc, parks, waits_⟩ := Lot.waitsAt_eq_some (takes'.1 ▸ sleeps)
      exact ⟨pc, inv.parks parks (.inr waits_), waits_⟩

/-- The spin lock stays with one task. -/
theorem Inv.lock_step (inv : s.Inv) (runs : Runs p s s') :
    (∀ b, (s'.pc b).critical = true → s'.locked = true) ∧
      ∀ b c, (s'.pc b).critical = true → (s'.pc c).critical = true → b = c := by
  have others : ∀ b, b ≠ p → (s'.pc b).critical = true → (s.pc b).critical = true := by
    intro b other critical
    rwa [runs.pc_other other] at critical
  rcases runs.lock_cases with ⟨same, locked⟩ | ⟨-, free, locked⟩ | ⟨inside, out, -⟩
  · have before : ∀ b, (s'.pc b).critical = true → (s.pc b).critical = true := by
      intro b critical
      by_cases here : b = p
      · rw [here, same] at critical
        exact here ▸ critical
      · exact others b here critical
    refine ⟨fun b critical => locked.trans (inv.locked b (before b critical)), ?_⟩
    exact fun b c critical critical' => inv.exclusive b c (before b critical) (before c critical')
  · -- Nobody was inside before, so that only this task is now.
    have only : ∀ b, (s'.pc b).critical = true → b = p := by
      intro b critical
      by_contra other
      have held := inv.locked b (others b other critical)
      rw [free] at held
      cases held
    exact ⟨fun _ _ => locked, fun b c critical critical' =>
      (only b critical).trans (only c critical').symm⟩
  · have nobody : ∀ b, (s'.pc b).critical ≠ true := by
      intro b critical
      by_cases here : b = p
      · rw [here, out] at critical
        cases critical
      · exact here (inv.exclusive b p (others b here critical) inside)
    exact ⟨fun b critical => absurd critical (nobody b),
      fun b _ critical => absurd critical (nobody b)⟩

/-- While a task holds the spin lock, another one leaves the guarded data alone. -/
theorem Inv.guarded (inv : s.Inv) (runs : Runs p s s') (other : q ≠ p)
    (critical : (s.pc q).critical = true) :
    s'.owner = s.owner ∧ s'.queue = s.queue ∧ s'.boost = s.boost ∧ s'.found = s.found ∧
      (s.pc p).critical = false ∧ (s'.pc p).critical = false := by
  have out : (s.pc p).critical = false := by
    by_contra inside
    exact other (inv.exclusive q p critical (by simpa using inside))
  have locked := inv.locked q critical
  obtain ⟨owner, queue, boost, found | ⟨free, -⟩⟩ := runs.guarded out
  · refine ⟨owner, queue, boost, found, out, ?_⟩
    rcases runs.lock_cases with ⟨same, -⟩ | ⟨-, free, -⟩ | ⟨inside, -⟩
    · rw [same, out]
    · rw [locked] at free
      cases free
    · rw [out] at inside
      cases inside
  · rw [locked] at free
    cases free

/-- What a task knows survives the statements of the others. -/
theorem Inv.knows_other (inv : s.Inv) (running : s.lot.cpu.running = some p) (runs : Runs p s s')
    (other : q ≠ p) : s'.Knows q := by
  have knows := inv.knows q
  by_cases critical : (s.pc q).critical = true
  · obtain ⟨owner, queue, boost, found, out, out'⟩ := inv.guarded runs other critical
    have woken : (∃ b, s.Woken b) → ∃ b, s'.Woken b := by
      rintro ⟨b, woken⟩
      by_cases here : b = p
      · rcases inv.woken_own runs (here ▸ woken) with still | tests
        · exact ⟨p, still⟩
        · -- Testing `_owner` needs the spin lock.
          rw [tests] at out'
          cases out'
      · exact ⟨b, inv.woken_other runs here woken⟩
    unfold Knows at knows ⊢
    rw [runs.pc_other other, owner, queue, boost, found]
    cases at_ : s.pc q with
    | unpark n pc =>
      simp only [at_] at knows ⊢
      refine ⟨knows.1, knows.2.1, knows.2.2.1, fun b cas => ?_⟩
      rcases inv.waiting_step running runs (knows.2.2.2 b cas) with still | ⟨m, wakes⟩
      · exact still
      · rw [wakes] at out
        cases out
    | pop =>
      simp only [at_] at knows ⊢
      obtain ⟨own, ⟨n, head, empty⟩, woke⟩ := knows
      refine ⟨own, ⟨n, head, ?_⟩, woken woke⟩
      intro b enqueued
      by_cases here : b = p
      · subst here
        rcases (inv.enqueued_own running runs).1 enqueued with before | ⟨emplaces, -⟩
        · exact empty b before
        · rw [emplaces] at out
          cases out
      · exact empty b ((inv.enqueued_other runs here).1 enqueued)
    | clear =>
      simp only [at_] at knows ⊢
      exact ⟨knows.1, woken knows.2⟩
    | _ =>
      rw [at_] at knows
      exact knows
  · unfold Knows at knows ⊢
    rw [runs.pc_other other]
    cases at_ : s.pc q <;> simp_all [MutexPc.critical]

/-- Once the critical section of `unpark` is over, the first node is nobody's. -/
theorem Inv.knows_woken (inv : s.Inv) (running : s.lot.cpu.running = some p) (runs : Runs p s s')
    (at_ : s.pc p = .unpark n (.wake q)) :
    s'.owner = some p ∧ (∃ n, s'.queue.head? = some n ∧ ∀ b, ¬ s'.Enqueued b n) ∧
      ∃ b, s'.Woken b := by
  have knows := inv.knows p
  simp only [Knows, at_] at knows
  obtain ⟨pops, suspended, queue, owner⟩ := runs.wakes at_
  obtain ⟨other, pc, parks, waits_⟩ := inv.taken_parks running at_
  have stays : s'.pc q = .park n pc := (runs.pc_other other).trans parks
  refine ⟨owner.trans knows.1, ⟨n, by rw [queue]; exact knows.2.1, ?_⟩, q, ?_⟩
  · intro b enqueued
    by_cases here : b = p
    · simp [Enqueued, here, pops] at enqueued
    · have before := (inv.enqueued_other runs here).1 enqueued
      -- The node belongs to the task that was woken.
      obtain rfl := inv.own b q n (node_of_enqueued before) (by rw [parks]; rfl)
      simp [Enqueued, stays, suspended, waits_] at enqueued
  · simp [Woken, stays, waits_, suspended]

/-- What a task knows after its own statement. -/
theorem Inv.knows_own (inv : s.Inv) (running : s.lot.cpu.running = some p) (runs : Runs p s s') :
    s'.Knows p := by
  have knows := inv.knows p
  have all := runs
  cases runs with
  | @acquired site at_ free => cases site <;> simp [Knows, Mutex.acquired, goto]
  | @parks n pc pc' lot at_ ok =>
    rcases inv.park_cases all at_ with ⟨-, goes, -⟩ | ⟨-, goes, -⟩ | ⟨-, goes, -⟩ | ⟨-, goes, -⟩ |
      ⟨-, goes, -⟩
    all_goals simp [Knows, goes, WaiterPc.member]
  | @parked n pc succ lot at_ ok =>
    rcases inv.park_cases all at_ with ⟨-, goes, -⟩ | ⟨-, goes, -⟩ | ⟨-, goes, -⟩ | ⟨-, goes, -⟩ |
      ⟨-, goes, -⟩
    all_goals simp [Knows, goes, WaiterPc.member]
  | @unparks n pc pc' lot at_ ok =>
    simp only [Knows, at_] at knows
    rcases inv.unpark_cases all at_ with ⟨⟨pc₁, goes, member, waiting⟩, cpu⟩ | ⟨goes, -⟩ |
      ⟨q, -, goes⟩
    · simp only [Knows, goes, cpu]
      exact ⟨knows.1, knows.2.1, member, waiting⟩
    · simp [goto] at goes
    · simp [goto] at goes
  | @unparked n pc lot at_ ok =>
    rcases inv.unpark_cases all at_ with ⟨⟨pc₁, goes, -⟩, -⟩ | ⟨goes, -⟩ | ⟨q, rfl, goes⟩
    · simp [goto] at goes
    · simp [goto] at goes
    · simp only [Knows, goes]
      exact inv.knows_woken running all at_
  | @unready n pc lot at_ ok =>
    simp only [Knows, at_] at knows
    simp only [Knows, goto, update_self]
    exact ⟨knows.1, knows.2.1⟩
  | @again n at_ =>
    simp only [Knows, at_] at knows
    simp only [Knows, goto, update_self]
    exact ⟨knows.1, knows.2, rfl, by simp⟩
  | pop at_ =>
    simp only [Knows, at_] at knows
    obtain ⟨own, -, q, woken⟩ := knows
    have other : q ≠ p := by
      rintro rfl
      simp [Woken, at_] at woken
    simp only [Knows, goto, update_self]
    exact ⟨own, q, inv.woken_other all other woken⟩
  | owned at_ own => simp [Knows, goto, own]
  | refused at_ foreign =>
    simp only [Knows, at_] at knows
    simp only [Knows, goto, update_self]
    exact ⟨knows, foreign⟩
  | nonempty at_ head =>
    simp only [Knows, at_] at knows
    simp only [Knows, goto, update_self]
    exact ⟨knows, head, rfl, by simp⟩
  | _ at_ => simp_all [Knows, goto, WaiterPc.member]

/-- Who holds the mutex is its owner. -/
theorem Inv.held_step (inv : s.Inv) (runs : Runs p s s') (b : ι) (held : s'.held b = true) :
    s'.owner = some b := by
  have knows := inv.knows p
  rcases runs.owner_cases with ⟨owner, same | ⟨leaves, same⟩⟩ | ⟨sets, owner, same⟩ |
    ⟨clears, owner, same⟩
  · rw [same] at held
    exact owner.trans (inv.held b held)
  · rw [same] at held
    by_cases here : b = p
    · simp only [Knows, leaves] at knows
      rw [owner, here]
      exact knows
    · rw [update_of_ne here] at held
      exact owner.trans (inv.held b held)
  · -- The owner is set only when there was none, so that nobody held the mutex.
    rw [same] at held
    simp only [Knows, sets] at knows
    rw [inv.held b held] at knows
    cases knows
  · have own : s.owner = some p := by
      rcases clears with at_ | at_
      · simp only [Knows, at_] at knows
        exact knows.1
      · simp only [Knows, at_] at knows
        exact knows.1
    rw [same] at held
    by_cases here : b = p
    · rw [here, update_self] at held
      cases held
    · rw [update_of_ne here] at held
      have twice := inv.held b held
      rw [own, Option.some.injEq] at twice
      exact absurd twice.symm here

/-- The nodes of the list, and those that tasks refer to, stay numbered and apart. -/
theorem Inv.node_step (inv : s.Inv) (runs : Runs p s s') :
    (∀ n ∈ s'.queue, n < s'.nodes) ∧ (∀ b n, (s'.pc b).node = some n → n < s'.nodes) ∧
      s'.queue.Nodup ∧
      ∀ b c n, (s'.pc b).node = some n → (s'.pc c).node = some n → b = c := by
  have grows : s.nodes ≤ s'.nodes := by
    rcases runs.queue_cases with ⟨-, -, -, nodes⟩ | ⟨-, -, nodes, -⟩ | ⟨-, -, nodes⟩ <;> omega
  -- A task refers to the node it has referred to, or to the one it has just made.
  have before : ∀ b n, (s'.pc b).node = some n → (s.pc b).node = some n ∨
      (b = p ∧ n = s.nodes ∧ s'.nodes = s.nodes + 1) := by
    intro b n node
    by_cases here : b = p
    · rcases runs.node_cases with same | none_ | ⟨made, nodes⟩
      · exact .inl (by rw [here, ← same, ← here]; exact node)
      · rw [here, none_] at node
        cases node
      · rw [here, made, Option.some.injEq] at node
        exact .inr ⟨here, node.symm, nodes⟩
    · rw [runs.pc_other here] at node
      exact .inl node
  refine ⟨?_, ?_, ?_, ?_⟩
  · intro n member
    rcases runs.queue_cases with ⟨-, -, queue, -⟩ | ⟨-, queue, nodes, -⟩ | ⟨-, queue, -⟩
    · rw [queue] at member
      exact (inv.old n member).trans_le grows
    · rw [queue, List.mem_append, List.mem_singleton] at member
      rcases member with old | rfl
      · exact (inv.old n old).trans_le grows
      · omega
    · rw [queue] at member
      exact (inv.old n (List.mem_of_mem_tail member)).trans_le grows
  · intro b n node
    rcases before b n node with old | ⟨-, rfl, nodes⟩
    · exact (inv.fresh b n old).trans_le grows
    · omega
  · rcases runs.queue_cases with ⟨-, -, queue, -⟩ | ⟨-, queue, -⟩ | ⟨-, queue, -⟩
    · rw [queue]
      exact inv.nodup
    · rw [queue]
      refine List.nodup_append.mpr ⟨inv.nodup, by simp, ?_⟩
      rintro a member b made rfl
      have lt := inv.old a member
      rw [List.mem_singleton] at made
      omega
    · rw [queue]
      exact inv.nodup.tail
  · intro b c n node node'
    rcases before b n node with old | ⟨rfl, rfl, -⟩
    · rcases before c n node' with old' | ⟨rfl, rfl, -⟩
      · exact inv.own b c n old old'
      · have lt := inv.fresh b _ old
        omega
    · rcases before c _ node' with old' | ⟨rfl, -, -⟩
      · have lt := inv.fresh c _ old'
        omega
      · rfl

/-- The list holds the nodes of the tasks that were not woken. -/
theorem Inv.queue_step (inv : s.Inv) (running : s.lot.cpu.running = some p) (runs : Runs p s s') :
    (∀ b n, s'.Enqueued b n → n ∈ s'.queue) ∧
      ∀ n ∈ s'.queue, (∃ b, s'.Enqueued b n) ∨ ∃ u, s'.pc u = .pop ∧ s'.queue.head? = some n := by
  have knows := inv.knows p
  have before : ∀ b n, s'.Enqueued b n → s.Enqueued b n ∨ (s.pc p = .emplace ∧ n = s.nodes) := by
    intro b n enqueued
    by_cases here : b = p
    · subst here
      exact (inv.enqueued_own running runs).1 enqueued
    · exact .inl ((inv.enqueued_other runs here).1 enqueued)
  -- A node that was somebody's is so still, unless its task is woken just now.
  have after : ∀ b n, s.Enqueued b n → (∃ c, s'.Enqueued c n) ∨
      ∃ u, s'.pc u = .pop ∧ s'.queue.head? = some n := by
    intro b n enqueued
    by_cases here : b = p
    · subst here
      exact .inl ⟨b, (inv.enqueued_own running runs).2 enqueued⟩
    · rcases (inv.enqueued_other runs here).2 enqueued with still | ⟨m, wakes⟩
      · exact .inl ⟨b, still⟩
      · obtain ⟨-, pc, parks, -⟩ := inv.taken_parks running wakes
        obtain rfl : m = n := by simpa [parks, MutexPc.node] using node_of_enqueued enqueued
        obtain ⟨pops, -, queue, -⟩ := runs.wakes wakes
        simp only [Knows, wakes] at knows
        exact .inr ⟨p, pops, by rw [queue]; exact knows.2.1⟩
  constructor
  · intro b n enqueued
    rcases before b n enqueued with old | ⟨emplaces, rfl⟩
    · have member := inv.member b n old
      rcases runs.queue_cases with ⟨-, -, queue, -⟩ | ⟨-, queue, -⟩ | ⟨pops, queue, -⟩
      · rw [queue]
        exact member
      · rw [queue]
        exact List.mem_append_left _ member
      · -- The node that is taken off the list is nobody's.
        simp only [Knows, pops] at knows
        obtain ⟨-, ⟨m, head, empty⟩, -⟩ := knows
        have apart : n ≠ m := by
          rintro rfl
          exact empty b old
        rw [queue]
        cases list : s.queue with
        | nil => simp [list] at head
        | cons first rest =>
          obtain rfl : first = m := by simpa [list] using head
          simpa [list, apart] using member
    · rcases runs.queue_cases with ⟨other, -⟩ | ⟨-, queue, -⟩ | ⟨pops, -⟩
      · exact absurd emplaces other
      · rw [queue]
        simp
      · rw [emplaces] at pops
        cases pops
  · intro n member
    rcases runs.queue_cases with ⟨-, away, queue, -⟩ | ⟨emplaces, queue, -, goes⟩ | ⟨pops, queue, -⟩
    · rw [queue] at member
      rcases inv.served n member with ⟨b, enqueued⟩ | ⟨u, pops, head⟩
      · exact after b n enqueued
      · have other : u ≠ p := by
          rintro rfl
          exact away pops
        exact .inr ⟨u, by rw [runs.pc_other other]; exact pops, by rw [queue]; exact head⟩
    · rw [queue, List.mem_append, List.mem_singleton] at member
      rcases member with old | rfl
      · rcases inv.served n old with ⟨b, enqueued⟩ | ⟨u, pops, -⟩
        · exact after b n enqueued
        · -- Nobody else is inside while a node is made.
          have same := inv.exclusive u p (by rw [pops]; rfl) (by rw [emplaces]; rfl)
          rw [same, emplaces] at pops
          cases pops
      · exact .inl ⟨p, .inl goes⟩
    · rw [queue] at member
      rcases inv.served n (List.mem_of_mem_tail member) with ⟨b, enqueued⟩ | ⟨u, -, head⟩
      · exact after b n enqueued
      · cases list : s.queue with
        | nil => simp [list] at head
        | cons first rest =>
          obtain rfl : first = n := by simpa [list] using head
          have nodup := inv.nodup
          rw [list] at nodup member
          exact absurd member (List.nodup_cons.mp nodup).1

/-- While the mutex is free and tasks wait, one that was woken is on its way to it. -/
theorem Inv.progress_step (inv : s.Inv) (runs : Runs p s s') (free : s'.owner = none) :
    s'.queue = [] ∨ ∃ b, s'.Woken b ∨ s'.pc b = .test ∨ s'.pc b = .setOwner := by
  have knows := inv.knows p
  rcases runs.owner_cases with ⟨owner, -⟩ | ⟨-, owner, -⟩ | ⟨clears, -, -⟩
  · have before : s.owner = none := owner ▸ free
    rcases inv.progress before with empty | ⟨b, going⟩
    · rcases runs.queue_cases with ⟨-, -, queue, -⟩ | ⟨emplaces, -⟩ | ⟨-, queue, -⟩
      · exact .inl (queue.trans empty)
      · simp only [Knows, emplaces] at knows
        exact absurd before knows
      · exact .inl (by rw [queue, empty]; rfl)
    · refine .inr ?_
      by_cases here : b = p
      · subst here
        rcases going with woken | tests | sets
        · rcases inv.woken_own runs woken with still | tests
          · exact ⟨b, .inl still⟩
          · exact ⟨b, .inr (.inl tests)⟩
        · cases runs with
          | free at_ unowned => exact ⟨b, .inr (.inr (by simp [goto]))⟩
          | contended at_ owned => exact absurd before owned
          | _ at_ => simp [tests] at at_
        · cases runs with
          | setOwner at_ => simp [goto] at free
          | _ at_ => simp [sets] at at_
      · rcases going with woken | at_
        · exact ⟨b, .inl (inv.woken_other runs here woken)⟩
        · exact ⟨b, .inr (by rw [runs.pc_other here]; exact at_)⟩
  · rw [free] at owner
    cases owner
  · rcases clears with at_ | at_
    · simp only [Knows, at_] at knows
      rcases runs.queue_cases with ⟨-, -, queue, -⟩ | ⟨emplaces, -⟩ | ⟨pops, -⟩
      · exact .inl (queue.trans knows.2)
      · rw [at_] at emplaces
        cases emplaces
      · rw [at_] at pops
        cases pops
    · simp only [Knows, at_] at knows
      obtain ⟨-, b, woken⟩ := knows
      have other : b ≠ p := by
        rintro rfl
        simp [Woken, at_] at woken
      exact .inr ⟨b, .inl (inv.woken_other runs other woken)⟩

/-- Every statement keeps the invariant. -/
theorem Inv.runs (inv : s.Inv) (running : s.lot.cpu.running = some p) (runs : Runs p s s') :
    s'.Inv := by
  obtain ⟨locked, exclusive⟩ := inv.lock_step runs
  obtain ⟨old, fresh, nodup, own⟩ := inv.node_step runs
  obtain ⟨member, served⟩ := inv.queue_step running runs
  refine ⟨inv.lot_step running runs, locked, exclusive, ?_, inv.held_step runs, old, fresh, nodup,
    own, member, served, inv.progress_step runs⟩
  intro b
  by_cases here : b = p
  · exact here ▸ inv.knows_own running runs
  · exact inv.knows_other running runs here

omit [DecidableEq ι] in
/-- The scheduler keeps the invariant, as it lets the same tasks wait. -/
theorem Inv.scheduled {lot : Lot Nat ι} (inv : s.Inv) (order : lot.Inv s.role)
    (waiting : ∀ q, lot.cpu.state q = .waiting ↔ s.lot.cpu.state q = .waiting) :
    { s with lot }.Inv := by
  have enqueued : ∀ q n, Enqueued { s with lot } q n ↔ s.Enqueued q n := by
    intro q n
    simp only [Enqueued, waiting]
  have woken : ∀ q, Woken { s with lot } q ↔ s.Woken q := by
    intro q
    simp only [Woken, ne_eq, waiting]
  refine ⟨order, inv.locked, inv.exclusive, ?_, inv.held, inv.old, inv.fresh, inv.nodup, inv.own,
    ?_, ?_, ?_⟩
  · intro q
    have knows := inv.knows q
    simp only [Knows, enqueued, woken, waiting] at knows ⊢
    exact knows
  · intro q n there
    exact inv.member q n ((enqueued q n).mp there)
  · intro n member
    rcases inv.served n member with ⟨q, there⟩ | pops
    · exact .inl ⟨q, (enqueued q n).mpr there⟩
    · exact .inr pops
  · intro free
    rcases inv.progress free with empty | ⟨q, going⟩
    · exact .inl empty
    · exact .inr ⟨q, going.imp_left (woken q).mpr⟩

/-- A call keeps the invariant. -/
theorem Inv.call {site : LockSite} (inv : s.Inv) (running : s.lot.cpu.running = some p)
    (idle : s.pc p = .idle) (begins : site ≠ .again) : (s.goto p (.acquire site)).Inv := by
  have pc : ∀ q, q ≠ p → (s.goto p (.acquire site)).pc q = s.pc q := by
    intro q other
    simp [goto, other]
  have own : (s.goto p (.acquire site)).pc p = .acquire site := by simp [goto]
  have role : (s.goto p (.acquire site)).role = update s.role p none := by
    funext q
    by_cases here : q = p
    · rw [here, update_self, Mutex.role, own]
      rfl
    · rw [update_of_ne here, Mutex.role, pc q here]
      rfl
  have critical : ∀ q, ((s.goto p (.acquire site)).pc q).critical = (s.pc q).critical := by
    intro q
    by_cases here : q = p
    · rw [here, own, idle]
      rfl
    · rw [pc q here]
  have node : ∀ q, ((s.goto p (.acquire site)).pc q).node = (s.pc q).node := by
    intro q
    by_cases here : q = p
    · rw [here, own, idle]
      rfl
    · rw [pc q here]
  have enqueued : ∀ q n, (s.goto p (.acquire site)).Enqueued q n ↔ s.Enqueued q n := by
    intro q n
    by_cases here : q = p
    · simp [Enqueued, here, own, idle]
    · simp only [Enqueued, pc q here]
      rfl
  have woken : ∀ q, (s.goto p (.acquire site)).Woken q ↔ s.Woken q := by
    intro q
    by_cases here : q = p
    · cases site <;> simp_all [Woken]
    · simp only [Woken, pc q here]
      rfl
  refine ⟨?_, ?_, ?_, ?_, inv.held, inv.old, ?_, inv.nodup, ?_, ?_, ?_, ?_⟩
  · rw [role]
    exact inv.lot.begin running (by rw [Mutex.role, idle]; rfl) rfl rfl
  · intro q inside
    exact inv.locked q (critical q ▸ inside)
  · intro q b inside inside'
    exact inv.exclusive q b (critical q ▸ inside) (critical b ▸ inside')
  · intro q
    by_cases here : q = p
    · simp [Knows, here, own]
    · have knows := inv.knows q
      simp only [Knows, pc q here, enqueued, woken] at knows ⊢
      exact knows
  · intro q n there
    exact inv.fresh q n (node q ▸ there)
  · intro q b n there there'
    exact inv.own q b n (node q ▸ there) (node b ▸ there')
  · intro q n there
    exact inv.member q n ((enqueued q n).mp there)
  · intro n member
    rcases inv.served n member with ⟨q, there⟩ | ⟨u, pops, head⟩
    · exact .inl ⟨q, (enqueued q n).mpr there⟩
    · have other : u ≠ p := by
        rintro rfl
        rw [idle] at pops
        cases pops
      exact .inr ⟨u, by rw [pc u other]; exact pops, head⟩
  · intro free
    rcases inv.progress free with empty | ⟨q, there | tests⟩
    · exact .inl empty
    · exact .inr ⟨q, .inl ((woken q).mpr there)⟩
    · have other : q ≠ p := by
        rintro rfl
        simp [idle] at tests
      exact .inr ⟨q, .inr (by rw [pc q other]; exact tests)⟩

/-- Every step keeps the invariant. -/
theorem Inv.step (inv : s.Inv) (steps : Steps s l s') : s'.Inv := by
  cases steps with
  | runs running runs => exact inv.runs running runs
  | @preempt p running =>
    refine inv.scheduled (inv.lot.preempt running) ?_
    intro q
    by_cases here : q = p
    · cases state : s.lot.cpu.state p <;> simp [Lot.yield, here, state]
    · simp [Lot.yield, here]
  | @dispatch p idle queued =>
    refine inv.scheduled (inv.lot.dispatch idle queued) ?_
    intro q
    by_cases here : q = p
    · have awake : s.lot.cpu.state p ≠ .waiting := by
        intro waiting
        rw [(inv.lot.asleep p waiting).1] at queued
        cases queued
      simp [Lot.enter, here, awake]
    · simp [Lot.enter, here]
  | call running idle begins => exact inv.call running idle begins

omit [DecidableEq ι] in
/-- A new mutex is in order. -/
theorem inv_start : (start : Mutex ι).Inv := by
  refine ⟨Lot.inv_start, ?_, ?_, ?_, ?_, ?_, ?_, ?_, ?_, ?_, ?_, ?_⟩
  all_goals simp [start, MutexPc.critical, Knows, MutexPc.node, Enqueued]

end Mutex

end Gthread

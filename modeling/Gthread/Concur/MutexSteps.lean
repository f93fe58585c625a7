import Gthread.Concur.Mutex

/-! What each statement of a mutex does to the data that its spin lock guards. -/

namespace Gthread

open Function (update update_of_ne update_self)

variable {ι : Type}

namespace MutexPc

/-- The waiter's code that a task is in. -/
def role : MutexPc ι → Option (Nat × WaiterPc ι)
  | .park n pc | .unpark n pc => some (n, pc)
  | _ => none

/-- Whether a task holds the spin lock. -/
def critical : MutexPc ι → Bool
  | .idle | .acquire _ | .spin _ | .park _ _ | .assertParked _ | .yield => false
  | _ => true

/-- Where a task goes on after a statement of `park`. -/
def parkOutcome (n : Nat) : Outcome ι → MutexPc ι
  | .goto pc => .park n pc
  | .return_ succ => .assertParked succ

/-- The list node that a task has made, while `lock` refers to it. -/
def node : MutexPc ι → Option Nat
  | .release n | .park n _ => some n
  | _ => none

end MutexPc

namespace Mutex

variable [DecidableEq ι]

/-- What a statement of a task does. -/
inductive Runs (p : ι) (s : Mutex ι) : Mutex ι → Prop
  | busy {site : LockSite} (at_ : s.pc p = .acquire site) (locked : s.locked = true) :
      Runs p s (s.goto p (.spin site))
  | acquired {site : LockSite} (at_ : s.pc p = .acquire site) (free : s.locked = false) :
      Runs p s (s.acquired p site)
  | spin {site : LockSite} (at_ : s.pc p = .spin site) :
      Runs p s ({ s with lot := s.lot.yield p }.goto p (.acquire site))
  | free (at_ : s.pc p = .test) (unowned : s.owner = none) : Runs p s (s.goto p .setOwner)
  | contended (at_ : s.pc p = .test) (owned : s.owner ≠ none) : Runs p s (s.goto p .boost)
  | boost (at_ : s.pc p = .boost) :
      Runs p s ({ s with boost := s.boost + 1 }.goto p .boostOwner)
  | boostOwner {o : ι} (at_ : s.pc p = .boostOwner) (owned : s.owner = some o) :
      Runs p s ({ s with taskBoost := update s.taskBoost o (s.taskBoost o + 1) }.goto p .emplace)
  | emplace (at_ : s.pc p = .emplace) :
      Runs p s ({ s with
        lot := { s.lot with slot := update s.lot.slot s.nodes none }
        queue := s.queue ++ [s.nodes]
        nodes := s.nodes + 1 }.goto p (.release s.nodes))
  | release {n : Nat} (at_ : s.pc p = .release n) :
      Runs p s ({ s with locked := false }.goto p (.park n .claim))
  | parks {n : Nat} {pc pc' : WaiterPc ι} {lot : Lot Nat ι} (at_ : s.pc p = .park n pc)
      (ok : s.lot.step p false n pc = .ok (.goto pc', lot)) :
      Runs p s ({ s with lot }.goto p (.park n pc'))
  | parked {n : Nat} {pc : WaiterPc ι} {succ : Bool} {lot : Lot Nat ι} (at_ : s.pc p = .park n pc)
      (ok : s.lot.step p false n pc = .ok (.return_ succ, lot)) :
      Runs p s ({ s with lot }.goto p (.assertParked succ))
  | assertParked (at_ : s.pc p = .assertParked true) : Runs p s (s.goto p (.acquire .again))
  | unboost (at_ : s.pc p = .unboost) : Runs p s ({ s with boost := s.boost - 1 }.goto p .test)
  | setOwner (at_ : s.pc p = .setOwner) : Runs p s ({ s with owner := some p }.goto p .setBoost)
  | setBoost (at_ : s.pc p = .setBoost) :
      Runs p s ({ s with taskBoost := update s.taskBoost p s.boost }.goto p .leave)
  | leave (at_ : s.pc p = .leave) :
      Runs p s ({ s with locked := false, held := update s.held p true }.goto p .idle)
  | owned (at_ : s.pc p = .checkOwner) (own : s.owner = some p) : Runs p s (s.goto p .testEmpty)
  | refused (at_ : s.pc p = .checkOwner) (foreign : s.owner ≠ some p) : Runs p s (s.goto p .unwind)
  | unwind (at_ : s.pc p = .unwind) : Runs p s ({ s with locked := false }.goto p .idle)
  | empty (at_ : s.pc p = .testEmpty) (none_ : s.queue = []) : Runs p s (s.goto p .clearFast)
  | nonempty {n : Nat} (at_ : s.pc p = .testEmpty) (head : s.queue.head? = some n) :
      Runs p s (s.goto p (.unpark n .load))
  | clearFast (at_ : s.pc p = .clearFast) :
      Runs p s ({ s with owner := none, held := update s.held p false }.goto p .releaseFast)
  | releaseFast (at_ : s.pc p = .releaseFast) : Runs p s ({ s with locked := false }.goto p .idle)
  | unparks {n : Nat} {pc pc' : WaiterPc ι} {lot : Lot Nat ι} (at_ : s.pc p = .unpark n pc)
      (ok : s.lot.step p false n pc = .ok (.goto pc', lot)) :
      Runs p s ({ s with lot }.goto p (.unpark n pc'))
  | unparked {n : Nat} {pc : WaiterPc ι} {lot : Lot Nat ι} (at_ : s.pc p = .unpark n pc)
      (ok : s.lot.step p false n pc = .ok (.return_ true, lot)) :
      Runs p s ({ s with lot }.goto p .pop)
  | unready {n : Nat} {pc : WaiterPc ι} {lot : Lot Nat ι} (at_ : s.pc p = .unpark n pc)
      (ok : s.lot.step p false n pc = .ok (.return_ false, lot)) :
      Runs p s ({ s with lot }.goto p (.again n))
  | again {n : Nat} (at_ : s.pc p = .again n) :
      Runs p s ({ s with lot := s.lot.yield p }.goto p (.unpark n .load))
  | pop (at_ : s.pc p = .pop) : Runs p s ({ s with queue := s.queue.tail }.goto p .clear)
  | clear (at_ : s.pc p = .clear) :
      Runs p s ({ s with owner := none, held := update s.held p false }.goto p .zeroBoost)
  | zeroBoost (at_ : s.pc p = .zeroBoost) :
      Runs p s ({ s with taskBoost := update s.taskBoost p 0 }.goto p .releaseSlow)
  | releaseSlow (at_ : s.pc p = .releaseSlow) : Runs p s ({ s with locked := false }.goto p .yield)
  | yield (at_ : s.pc p = .yield) : Runs p s ({ s with lot := s.lot.yield p }.goto p .idle)

variable {s s' : Mutex ι} {l : MutexLabel ι} {p q : ι} {n : Nat}

/-- A statement of a waiter is one of the lot, on a node that is there. -/
theorem stepNode_ok {pc : WaiterPc ι} {result : Outcome ι × Lot Nat ι}
    (ok : s.stepNode p n pc = .ok result) : s.lot.step p false n pc = .ok result := by
  unfold stepNode at ok
  split at ok
  · cases ok
  · exact ok

/-- A statement of a task does one of these things. -/
theorem runs_of_ok (ok : s.runTask p = .ok s') : Runs p s s' := by
  unfold runTask at ok
  cases at_ : s.pc p with
  | idle => simp [at_] at ok
  | acquire site =>
    simp only [at_, Except.ok.injEq] at ok
    cases locked : s.locked with
    | true =>
      rw [locked, if_pos rfl] at ok
      exact ok ▸ .busy at_ locked
    | false =>
      rw [locked, if_neg nofun] at ok
      exact ok ▸ .acquired at_ locked
  | test =>
    simp only [at_, Except.ok.injEq] at ok
    by_cases unowned : s.owner = none
    · rw [if_pos unowned] at ok
      exact ok ▸ .free at_ unowned
    · rw [if_neg unowned] at ok
      exact ok ▸ .contended at_ unowned
  | boostOwner =>
    simp only [at_] at ok
    split at ok
    · cases ok
    · rename_i o owned
      simp only [Except.ok.injEq] at ok
      exact ok ▸ .boostOwner at_ owned
  | park n pc =>
    simp only [at_] at ok
    cases done : s.stepNode p n pc with
    | error fault => simp [done, Bind.bind, Except.bind] at ok
    | ok result =>
      obtain ⟨outcome, lot⟩ := result
      simp only [done, Bind.bind, Except.bind, pure, Except.pure] at ok
      cases outcome with
      | goto pc' =>
        simp only [Except.ok.injEq] at ok
        exact ok ▸ .parks at_ (stepNode_ok done)
      | return_ succ =>
        simp only [Except.ok.injEq] at ok
        exact ok ▸ .parked at_ (stepNode_ok done)
  | assertParked succ =>
    simp only [at_] at ok
    split at ok
    · rename_i succ_
      simp only [Except.ok.injEq] at ok
      exact ok ▸ .assertParked (succ_ ▸ at_)
    · cases ok
  | checkOwner =>
    simp only [at_, Except.ok.injEq] at ok
    by_cases own : s.owner = some p
    · rw [if_pos own] at ok
      exact ok ▸ .owned at_ own
    · rw [if_neg own] at ok
      exact ok ▸ .refused at_ own
  | testEmpty =>
    simp only [at_] at ok
    split at ok
    · rename_i none_
      simp only [Except.ok.injEq] at ok
      exact ok ▸ .empty at_ none_
    · rename_i n rest some_
      simp only [Except.ok.injEq] at ok
      exact ok ▸ .nonempty at_ (by rw [some_]; rfl)
  | unpark n pc =>
    simp only [at_] at ok
    cases done : s.stepNode p n pc with
    | error fault => simp [done, Bind.bind, Except.bind] at ok
    | ok result =>
      obtain ⟨outcome, lot⟩ := result
      simp only [done, Bind.bind, Except.bind, pure, Except.pure] at ok
      rcases outcome with pc' | (_ | _)
      · simp only [Except.ok.injEq] at ok
        exact ok ▸ .unparks at_ (stepNode_ok done)
      · simp only [Except.ok.injEq] at ok
        exact ok ▸ .unready at_ (stepNode_ok done)
      · simp only [Except.ok.injEq] at ok
        exact ok ▸ .unparked at_ (stepNode_ok done)
  | spin site =>
    simp only [at_, Except.ok.injEq] at ok
    exact ok ▸ .spin at_
  | boost =>
    simp only [at_, Except.ok.injEq] at ok
    exact ok ▸ .boost at_
  | emplace =>
    simp only [at_, Except.ok.injEq] at ok
    exact ok ▸ .emplace at_
  | release n =>
    simp only [at_, Except.ok.injEq] at ok
    exact ok ▸ .release at_
  | unboost =>
    simp only [at_, Except.ok.injEq] at ok
    exact ok ▸ .unboost at_
  | setOwner =>
    simp only [at_, Except.ok.injEq] at ok
    exact ok ▸ .setOwner at_
  | setBoost =>
    simp only [at_, Except.ok.injEq] at ok
    exact ok ▸ .setBoost at_
  | leave =>
    simp only [at_, Except.ok.injEq] at ok
    exact ok ▸ .leave at_
  | unwind =>
    simp only [at_, Except.ok.injEq] at ok
    exact ok ▸ .unwind at_
  | clearFast =>
    simp only [at_, Except.ok.injEq] at ok
    exact ok ▸ .clearFast at_
  | releaseFast =>
    simp only [at_, Except.ok.injEq] at ok
    exact ok ▸ .releaseFast at_
  | again n =>
    simp only [at_, Except.ok.injEq] at ok
    exact ok ▸ .again at_
  | pop =>
    simp only [at_, Except.ok.injEq] at ok
    exact ok ▸ .pop at_
  | clear =>
    simp only [at_, Except.ok.injEq] at ok
    exact ok ▸ .clear at_
  | zeroBoost =>
    simp only [at_, Except.ok.injEq] at ok
    exact ok ▸ .zeroBoost at_
  | releaseSlow =>
    simp only [at_, Except.ok.injEq] at ok
    exact ok ▸ .releaseSlow at_
  | yield =>
    simp only [at_, Except.ok.injEq] at ok
    exact ok ▸ .yield at_

/-- What a step does. -/
inductive Steps (s : Mutex ι) : MutexLabel ι → Mutex ι → Prop
  | runs {p : ι} {s' : Mutex ι} (running : s.lot.cpu.running = some p) (runs : Runs p s s') :
      Steps s .run s'
  | preempt {p : ι} (running : s.lot.cpu.running = some p) :
      Steps s .preempt { s with lot := s.lot.yield p }
  | dispatch {p : ι} (idle : s.lot.cpu.running = none) (queued : s.lot.cpu.queued p = true) :
      Steps s (.dispatch p) { s with lot := s.lot.enter p }
  | call {p : ι} {site : LockSite} {l : MutexLabel ι} (running : s.lot.cpu.running = some p)
      (idle : s.pc p = .idle) (begins : site ≠ .again) : Steps s l (s.goto p (.acquire site))

/-- A step does one of these things. -/
theorem steps_of_ok (ok : s.step l = .ok s') : Steps s l s' := by
  cases l with
  | run =>
    simp only [step] at ok
    split at ok
    · cases ok
    · rename_i p running
      exact .runs running (runs_of_ok ok)
  | preempt =>
    simp only [step] at ok
    split at ok
    · cases ok
    · rename_i p running
      simp only [Except.ok.injEq] at ok
      exact ok ▸ .preempt running
  | dispatch p =>
    simp only [step] at ok
    split at ok
    · rename_i ready
      simp only [Except.ok.injEq] at ok
      exact ok ▸ .dispatch ready.1 ready.2
    · cases ok
  | lock | unlock =>
    simp only [step, call] at ok
    split at ok
    · cases ok
    · rename_i p running
      split at ok
      · rename_i idle
        simp only [Except.ok.injEq] at ok
        exact ok ▸ .call running idle nofun
      · cases ok

/-- A statement moves its own task only. -/
theorem Runs.pc (runs : Runs p s s') : s'.pc = update s.pc p (s'.pc p) := by
  cases runs with
  | @acquired site at_ free => cases site <;> simp [Mutex.acquired, goto]
  | _ => simp [goto]

/-- A statement keeps, takes or gives back the spin lock. -/
theorem Runs.lock_cases (runs : Runs p s s') :
    ((s'.pc p).critical = (s.pc p).critical ∧ s'.locked = s.locked) ∨
    ((s.pc p).critical = false ∧ s.locked = false ∧ s'.locked = true) ∨
    ((s.pc p).critical = true ∧ (s'.pc p).critical = false ∧ s'.locked = false) := by
  cases runs with
  | @acquired site at_ free =>
    cases site <;> simp [Mutex.acquired, goto, at_, free, MutexPc.critical]
  | _ at_ => simp [goto, at_, MutexPc.critical]

/-- What a statement does to the owner, and to the note of who holds the mutex. -/
theorem Runs.owner_cases (runs : Runs p s s') :
    (s'.owner = s.owner ∧ (s'.held = s.held ∨ s.pc p = .leave ∧ s'.held = update s.held p true)) ∨
    (s.pc p = .setOwner ∧ s'.owner = some p ∧ s'.held = s.held) ∨
    ((s.pc p = .clearFast ∨ s.pc p = .clear) ∧ s'.owner = none ∧
      s'.held = update s.held p false) := by
  cases runs with
  | @acquired site at_ free => cases site <;> simp [Mutex.acquired, goto]
  | _ at_ => simp [goto, at_]

/-- What a statement does to the list. -/
theorem Runs.queue_cases (runs : Runs p s s') :
    (s.pc p ≠ .emplace ∧ s.pc p ≠ .pop ∧ s'.queue = s.queue ∧ s'.nodes = s.nodes) ∨
    (s.pc p = .emplace ∧ s'.queue = s.queue ++ [s.nodes] ∧ s'.nodes = s.nodes + 1 ∧
      s'.pc p = .release s.nodes) ∨
    (s.pc p = .pop ∧ s'.queue = s.queue.tail ∧ s'.nodes = s.nodes) := by
  cases runs with
  | @acquired site at_ free => cases site <;> simp [Mutex.acquired, goto, at_]
  | _ at_ => simp [goto, at_]

/-- A task without the spin lock leaves the guarded data alone, and takes note of it in `unlock`. -/
theorem Runs.guarded (runs : Runs p s s') (out : (s.pc p).critical = false) :
    s'.owner = s.owner ∧ s'.queue = s.queue ∧ s'.boost = s.boost ∧
    (s'.found = s.found ∨ (s.locked = false ∧ s'.found = (s.owner, s.queue, s.boost))) := by
  cases runs with
  | @acquired site at_ free => cases site <;> simp [Mutex.acquired, goto, free]
  | _ at_ => simp_all [goto, MutexPc.critical]

/-- Which node a task refers to. -/
theorem Runs.node_cases (runs : Runs p s s') :
    (s'.pc p).node = (s.pc p).node ∨ (s'.pc p).node = none ∨
      ((s'.pc p).node = some s.nodes ∧ s'.nodes = s.nodes + 1) := by
  cases runs with
  | @acquired site at_ free => cases site <;> simp [Mutex.acquired, goto, MutexPc.node]
  | _ at_ => simp [goto, at_, MutexPc.node]

/-- What a statement does to the processor and the waiters. -/
theorem Runs.lot_cases (runs : Runs p s s') :
    ((s.pc p).role = none ∧ Lot.claimsAt (s'.pc p).role = none ∧
      Lot.takesAt (s'.pc p).role = none ∧
      (s'.lot = s.lot ∨ s'.lot = s.lot.yield p ∨
        (s.pc p = .emplace ∧
          s'.lot = { s.lot with slot := update s.lot.slot s.nodes none }))) ∨
    ∃ n pc outcome, (s.pc p).role = some (n, pc) ∧
      s.lot.step p false n pc = .ok (outcome, s'.lot) ∧
      (s'.pc p).role = outcome.pc.map (n, ·) := by
  cases runs with
  | @acquired site at_ free =>
    cases site <;> simp [Mutex.acquired, goto, at_, MutexPc.role, Lot.claimsAt, Lot.takesAt]
  | @parks n pc pc' lot at_ ok =>
    exact .inr ⟨n, pc, .goto pc', by rw [at_]; rfl, ok, by simp [goto, MutexPc.role, Outcome.pc]⟩
  | @parked n pc succ lot at_ ok =>
    exact .inr ⟨n, pc, .return_ succ, by rw [at_]; rfl, ok,
      by simp [goto, MutexPc.role, Outcome.pc]⟩
  | @unparks n pc pc' lot at_ ok =>
    exact .inr ⟨n, pc, .goto pc', by rw [at_]; rfl, ok, by simp [goto, MutexPc.role, Outcome.pc]⟩
  | @unparked n pc lot at_ ok =>
    exact .inr ⟨n, pc, .return_ true, by rw [at_]; rfl, ok,
      by simp [goto, MutexPc.role, Outcome.pc]⟩
  | @unready n pc lot at_ ok =>
    exact .inr ⟨n, pc, .return_ false, by rw [at_]; rfl, ok,
      by simp [goto, MutexPc.role, Outcome.pc]⟩
  | _ at_ =>
    exact .inl (by simp [goto, at_, MutexPc.role, Lot.claimsAt, Lot.takesAt, Waiter.claims,
      Waiter.takes])

end Mutex

end Gthread

import Gthread.Lib.Run
import Gthread.Concur.Lot

/-! Tasks that park, unpark and swap on waiters, and when each wake-up is for one sleep. -/

namespace Gthread

open Function (update update_of_ne update_self)

/-- What happens next to the tasks. -/
inductive ParkLabel (ν ι : Type) where
  -- The running task's next statement, and the answer of its check if it is at one.
  | run (answer : Bool)
  -- The timer takes the processor from the running task.
  | preempt
  | dispatch (p : ι)
  -- Calls of the running task; `park` is `park_if` with a check that passes.
  | parkIf (n : ν)
  | unpark (n : ν)
  | swap (n : ν)
  deriving DecidableEq, Repr

/-- The waiters and their tasks, and counters that no code reads. -/
structure Parking (ν ι : Type) where
  lot : Lot ν ι
  -- The waiter whose member function a task has called, and its next statement there.
  role : ι → Option (ν × WaiterPc ι)
  -- How often a task was set to wait, and how often a call took it out of a slot.
  slept : ι → Nat
  ended : ι → Nat

namespace Parking

open Waiter (claims waits takes aimsAt)
open Lot (claimsAt waitsAt takesAt)

variable {ν ι : Type} [DecidableEq ν] [DecidableEq ι]

/-- Statements that set the run state of their task to `WAITING`. -/
def suspends : WaiterPc ι → Bool
  | .mark | .switch _ => true
  | _ => false

/-- Count a statement that sets its task to wait. -/
def countSleep (p : ι) (pc : WaiterPc ι) (slept : ι → Nat) : ι → Nat :=
  if suspends pc then update slept p (slept p + 1) else slept

/-- Count a statement that takes a task out of a slot. -/
def countEnd (taken : Option ι) (ended : ι → Nat) : ι → Nat :=
  match taken with
  | some q => update ended q (ended q + 1)
  | none => ended

/-- A statement of a task inside a member function. -/
def runTask (p : ι) (n : ν) (pc : WaiterPc ι) (answer : Bool) (s : Parking ν ι) :
    Except Fault (Parking ν ι) := do
  let (outcome, lot) ← s.lot.step p (!answer) n pc
  return {
    lot
    role := update s.role p (outcome.pc.map (n, ·))
    slept := countSleep p pc s.slept
    ended := countEnd (takes outcome.pc) s.ended }

/-- The running task calls a member function. -/
def call (n : ν) (pc : WaiterPc ι) (s : Parking ν ι) : Except Fault (Parking ν ι) :=
  match s.lot.cpu.running with
  | none => .error .disabled
  | some p =>
    if s.role p = none then .ok { s with role := update s.role p (some (n, pc)) }
    else .error .disabled

/-- One step of the tasks and their scheduler. -/
def step (s : Parking ν ι) : ParkLabel ν ι → Except Fault (Parking ν ι)
  | .run answer =>
    match s.lot.cpu.running with
    | none => .error .disabled
    | some p =>
      match s.role p with
      | none => .error .disabled
      | some (n, pc) => s.runTask p n pc answer
  | .preempt =>
    match s.lot.cpu.running with
    | none => .error .disabled
    | some p => .ok { s with lot := s.lot.yield p }
  | .dispatch p =>
    if s.lot.cpu.running = none ∧ s.lot.cpu.queued p = true then
      .ok { s with lot := s.lot.enter p }
    else .error .disabled
  | .parkIf n => s.call n .claim
  | .unpark n => s.call n .load
  | .swap n => s.call n .swapLoad

/-- Tasks that are all queued, and empty waiters. -/
def start : Parking ν ι where
  lot := ⟨⟨none, fun _ => .suspended, fun _ => true⟩, fun _ => none⟩
  role := fun _ => none
  slept := fun _ => 0
  ended := fun _ => 0

/-- The task that a step puts on the runqueue. -/
def pushes (s : Parking ν ι) : ParkLabel ν ι → Option ι
  | .run _ => do
    let p ← s.lot.cpu.running
    match s.role p with
    | some (_, .wake q) => some q
    | some (_, .yield) => if s.lot.cpu.state p = .running then some p else none
    | _ => none
  | .preempt => do
    let p ← s.lot.cpu.running
    if s.lot.cpu.state p = .running then some p else none
  | _ => none

/-- The task that the next statement takes out of a slot, and the waiter of that slot. -/
def takesNext (s : Parking ν ι) : ParkLabel ν ι → Option (ν × ι)
  | .run _ => do
    let p ← s.lot.cpu.running
    let (n, pc) ← s.role p
    let q ← aimsAt (some pc)
    if s.lot.slot n = some q then some (n, q) else none
  | _ => none

/-- Whether whoever is taken out of a slot has not just claimed it again, without waiting yet. -/
def orderly (s : Parking ν ι) (l : ParkLabel ν ι) : Bool :=
  match s.takesNext l with
  | some (_, q) => claimsAt (s.role q) = none
  | none => true

/-- The tasks come from one state to another by orderly steps. -/
abbrev OrderlyRun (s s' : Parking ν ι) : Prop :=
  Run.Reaches step (fun s l => s.orderly l = true) s s'

variable {s s' : Parking ν ι} {l : ParkLabel ν ι} {p q : ι} {n : ν}

/-- What a step does. -/
inductive Steps (s : Parking ν ι) : ParkLabel ν ι → Parking ν ι → Prop
  | run {p : ι} {n : ν} {pc : WaiterPc ι} {answer : Bool} {outcome : Outcome ι} {lot : Lot ν ι}
      (running : s.lot.cpu.running = some p) (at_ : s.role p = some (n, pc))
      (ok : s.lot.step p (!answer) n pc = .ok (outcome, lot)) :
      Steps s (.run answer) {
        lot
        role := update s.role p (outcome.pc.map (n, ·))
        slept := countSleep p pc s.slept
        ended := countEnd (takes outcome.pc) s.ended }
  | preempt {p : ι} (running : s.lot.cpu.running = some p) :
      Steps s .preempt { s with lot := s.lot.yield p }
  | dispatch {p : ι} (idle : s.lot.cpu.running = none) (queued : s.lot.cpu.queued p = true) :
      Steps s (.dispatch p) { s with lot := s.lot.enter p }
  | call {p : ι} {n : ν} {pc : WaiterPc ι} {l : ParkLabel ν ι}
      (running : s.lot.cpu.running = some p) (out : s.role p = none)
      (begins : pc = .claim ∨ pc = .load ∨ pc = .swapLoad) :
      Steps s l { s with role := update s.role p (some (n, pc)) }

/-- A call is one by the running task. -/
theorem steps_of_call {pc : WaiterPc ι} (begins : pc = .claim ∨ pc = .load ∨ pc = .swapLoad)
    (ok : s.call n pc = .ok s') : Steps s l s' := by
  unfold call at ok
  split at ok
  · cases ok
  · rename_i p running
    split at ok
    · rename_i out
      simp only [Except.ok.injEq] at ok
      exact ok ▸ .call running out begins
    · cases ok

/-- A step does one of these things. -/
theorem steps_of_ok (ok : s.step l = .ok s') : Steps s l s' := by
  cases l with
  | run answer =>
    simp only [step] at ok
    split at ok
    · cases ok
    · rename_i p running
      split at ok
      · cases ok
      · rename_i n pc at_
        unfold runTask at ok
        cases done : s.lot.step p (!answer) n pc with
        | error fault => simp [done, Bind.bind, Except.bind] at ok
        | ok result =>
          simp only [done, Bind.bind, Except.bind, pure, Except.pure, Except.ok.injEq] at ok
          exact ok ▸ .run running at_ done
  | preempt =>
    simp only [step] at ok
    split at ok
    · cases ok
    · rename_i p running
      simp only [Except.ok.injEq] at ok
      exact ok ▸ .preempt running
  | dispatch p =>
    simp only [step] at ok
    split at ok
    · rename_i ready
      simp only [Except.ok.injEq] at ok
      exact ok ▸ .dispatch ready.1 ready.2
    · cases ok
  | parkIf n => exact steps_of_call (.inl rfl) ok
  | unpark n => exact steps_of_call (.inr (.inl rfl)) ok
  | swap n => exact steps_of_call (.inr (.inr rfl)) ok

/-- The running task takes a statement of the waiter it is inside of. -/
theorem step_run {pc : WaiterPc ι} {answer : Bool} {outcome : Outcome ι} {lot : Lot ν ι}
    (running : s.lot.cpu.running = some p) (at_ : s.role p = some (n, pc))
    (ok : s.lot.step p (!answer) n pc = .ok (outcome, lot)) :
    s.step (.run answer) = .ok {
      lot
      role := update s.role p (outcome.pc.map (n, ·))
      slept := countSleep p pc s.slept
      ended := countEnd (takes outcome.pc) s.ended } := by
  simp [step, running, at_, runTask, ok, Bind.bind, Except.bind, pure, Except.pure]

omit [DecidableEq ν] in
/-- A call of the running task, which is inside no waiter. -/
theorem call_run {pc : WaiterPc ι} (running : s.lot.cpu.running = some p)
    (out : s.role p = none) :
    s.call n pc = .ok { s with role := update s.role p (some (n, pc)) } := by
  simp [call, running, out]

omit [DecidableEq ν] in
/-- A statement is orderly if whoever it may take has claimed no slot. -/
theorem orderly_run {pc : WaiterPc ι} (answer : Bool) (running : s.lot.cpu.running = some p)
    (at_ : s.role p = some (n, pc))
    (settled : ∀ q, aimsAt (some pc) = some q → s.lot.slot n = some q →
      claimsAt (s.role q) = none) : s.orderly (.run answer) = true := by
  cases taken : s.takesNext (.run answer) with
  | none => simp [orderly, taken]
  | some next =>
    obtain ⟨m, q⟩ := next
    obtain ⟨b, aims, stands, rfl, rfl⟩ :
        ∃ b, aimsAt (some pc) = some b ∧ s.lot.slot n = some b ∧ n = m ∧ b = q := by
      simpa [takesNext, running, at_, Option.bind_eq_some_iff] using taken
    simp [orderly, taken, settled b aims stands]

/-- A task that waits and that no call has taken yet. -/
def Parked (lot : Lot ν ι) (q : ι) : Prop := lot.cpu.state q = .waiting ∧ ∃ n, lot.slot n = some q

/-- What a statement does to the sleep of a task. -/
inductive Sleeps (p : ι) (pc : WaiterPc ι) (outcome : Outcome ι) (lot lot' : Lot ν ι) (q : ι) : Prop
  | begins (own : q = p) (suspends_ : suspends pc = true) (nobody : takes outcome.pc = none)
      (before : ¬ Parked lot q) (after : Parked lot' q)
  | ends (taken : takes outcome.pc = some q) (awake : suspends pc = false) (before : Parked lot q)
      (after : ¬ Parked lot' q)
  | stays (free : takes outcome.pc ≠ some q) (other : suspends pc = true → q ≠ p)
      (same : Parked lot' q ↔ Parked lot q)

section Statements

variable {lot lot' : Lot ν ι} {role : ι → Option (ν × WaiterPc ι)} {closed : Bool}
  {pc : WaiterPc ι} {outcome : Outcome ι} {b : ι}

omit [DecidableEq ν] [DecidableEq ι] in
/-- A statement after which the same tasks wait in the same slots. -/
theorem sleeps_of_same (nobody : takes outcome.pc = none) (awake : suspends pc = false)
    (state : ∀ b, lot'.cpu.state b = .waiting ↔ lot.cpu.state b = .waiting)
    (slot : ∀ b, lot.cpu.state b = .waiting → ∀ m, lot'.slot m = some b ↔ lot.slot m = some b) :
    Sleeps p pc outcome lot lot' b := by
  refine .stays (by simp [nobody]) (by simp [awake]) ?_
  unfold Parked
  rw [state b]
  exact and_congr_right fun waiting => exists_congr (slot b waiting)

/-- The exchange of `unpark` or `swap` ends the sleep of the task it takes. -/
theorem sleeps_of_exchange {slot : Option ι} (inv : lot.Inv role)
    (running : lot.cpu.state p = .running) (stands : lot.slot n = some q)
    (settled : claimsAt (role q) = none) (taken : takes outcome.pc = some q)
    (awake : suspends pc = false) (own : slot = none ∨ slot = some p) :
    Sleeps p pc outcome lot { lot with slot := update lot.slot n slot } b := by
  obtain ⟨sleeps, waiting⟩ : waitsAt (role q) = some n ∧ lot.cpu.state q = .waiting := by
    rcases inv.home n q stands with claimed | sleeps
    · rw [settled] at claimed
      cases claimed
    · exact sleeps
  -- Whoever waits is not the task that runs, so that it does not come into the slot.
  have out : ∀ c, lot.cpu.state c = .waiting → slot ≠ some c := by
    rintro c sleeping here
    rcases own with none_ | self
    · rw [none_] at here
      cases here
    · rw [self, Option.some.injEq] at here
      rw [← here, running] at sleeping
      cases sleeping
  by_cases here : b = q
  · subst here
    refine .ends taken awake ⟨waiting, n, stands⟩ ?_
    rintro ⟨-, m, stands'⟩
    by_cases same : m = n
    · rw [same] at stands'
      exact out b waiting (by simpa using stands')
    · have elsewhere : lot.slot m = some b := by simpa [same] using stands'
      rcases inv.home m b elsewhere with claimed | ⟨sleeps', -⟩
      · rw [settled] at claimed
        cases claimed
      · rw [sleeps, Option.some.injEq] at sleeps'
        exact same sleeps'.symm
  · refine .stays (by simpa [taken] using fun same => here same.symm) (by simp [awake]) ?_
    unfold Parked
    refine and_congr_right fun sleeping => exists_congr fun m => ?_
    by_cases same : m = n
    · subst same
      have gone := out b sleeping
      simpa [stands, gone] using fun same => here same.symm
    · simp [same]

/-- Every statement begins the sleep of its own task, ends that of the one it takes, or neither. -/
theorem sleeps_of_step (inv : lot.Inv role)
    (running : lot.cpu.running = some p) (at_ : role p = some (n, pc))
    (settled : ∀ q, aimsAt (some pc) = some q → lot.slot n = some q → claimsAt (role q) = none)
    (ok : lot.step p closed n pc = .ok (outcome, lot')) : Sleeps p pc outcome lot lot' b := by
  have runs : pc ≠ .yield → lot.cpu.state p = .running := by
    intro going
    exact (inv.runs running (by simp [at_, going])).1
  have awake : pc ≠ .yield → ∀ c, lot.cpu.state c = .waiting → p ≠ c := by
    rintro going c waiting rfl
    rw [runs going] at waiting
    cases waiting
  obtain ⟨w, done, rfl⟩ := Lot.step_ok ok
  cases pc with
  | claim =>
    simp only [Waiter.step] at done
    split at done
    · rename_i empty
      simp only [Except.ok.injEq, Prod.mk.injEq] at done
      obtain ⟨rfl, rfl⟩ := done
      refine sleeps_of_same rfl rfl (fun _ => Iff.rfl) ?_
      intro c waiting m
      by_cases here : m = n
      · simp [here, awake (by simp) c waiting, show lot.slot n = none from empty]
      · simp [here]
    · simp only [Except.ok.injEq, Prod.mk.injEq] at done
      obtain ⟨rfl, rfl⟩ := done
      exact sleeps_of_same rfl rfl (fun _ => Iff.rfl) (by simp)
  | check =>
    simp only [Waiter.step, Except.ok.injEq, Prod.mk.injEq] at done
    obtain ⟨rfl, rfl⟩ := done
    exact sleeps_of_same (by cases closed <;> rfl) rfl (fun _ => Iff.rfl) (by simp)
  | release =>
    simp only [Waiter.step, Except.ok.injEq, Prod.mk.injEq] at done
    obtain ⟨rfl, rfl⟩ := done
    refine sleeps_of_same rfl rfl (fun _ => Iff.rfl) ?_
    intro c waiting m
    by_cases here : m = n
    · have own : lot.slot n = some p := inv.claimed n p (by rw [at_]; rfl)
      simp [here, own, awake (by simp) c waiting]
    · simp [here]
  | mark =>
    simp only [Waiter.step, Except.ok.injEq, Prod.mk.injEq] at done
    obtain ⟨rfl, rfl⟩ := done
    have own : lot.slot n = some p := inv.claimed n p (by rw [at_]; rfl)
    by_cases here : b = p
    · subst here
      refine .begins rfl rfl rfl ?_ ⟨by simp [Waiter.setState], n, by simp [Waiter.setState, own]⟩
      rintro ⟨waiting, -⟩
      exact awake (by simp) b waiting rfl
    · exact .stays (by simp [Outcome.pc, takes]) (fun _ => here)
        (by simp [Parked, Waiter.setState, here])
  | yield =>
    simp only [Waiter.step, Except.ok.injEq, Prod.mk.injEq] at done
    obtain ⟨rfl, rfl⟩ := done
    refine sleeps_of_same rfl rfl ?_ (by simp [Waiter.yield])
    intro c
    by_cases here : c = p
    · cases state : lot.cpu.state p <;> simp [Waiter.yield, here, state]
    · simp [Waiter.yield, here]
  | parked | swapped =>
    simp only [Waiter.step, Except.ok.injEq, Prod.mk.injEq] at done
    obtain ⟨rfl, rfl⟩ := done
    exact sleeps_of_same rfl rfl (fun _ => Iff.rfl) (by simp)
  | load | swapLoad =>
    simp only [Waiter.step] at done
    split at done
    all_goals
      simp only [Except.ok.injEq, Prod.mk.injEq] at done
      obtain ⟨rfl, rfl⟩ := done
      exact sleeps_of_same rfl rfl (fun _ => Iff.rfl) (by simp)
  | state q | swapState q =>
    simp only [Waiter.step] at done
    split at done
    all_goals
      simp only [Except.ok.injEq, Prod.mk.injEq] at done
      obtain ⟨rfl, rfl⟩ := done
      exact sleeps_of_same rfl rfl (fun _ => Iff.rfl) (by simp)
  | cas q =>
    simp only [Waiter.step] at done
    split at done
    · rename_i stands
      simp only [Except.ok.injEq, Prod.mk.injEq] at done
      obtain ⟨rfl, rfl⟩ := done
      exact sleeps_of_exchange inv (runs (by simp)) stands (settled q rfl stands) rfl rfl (.inl rfl)
    · simp only [Except.ok.injEq, Prod.mk.injEq] at done
      obtain ⟨rfl, rfl⟩ := done
      exact sleeps_of_same rfl rfl (fun _ => Iff.rfl) (by simp)
  | swapCas q =>
    simp only [Waiter.step] at done
    split at done
    · rename_i stands
      simp only [Except.ok.injEq, Prod.mk.injEq] at done
      obtain ⟨rfl, rfl⟩ := done
      exact sleeps_of_exchange inv (runs (by simp)) stands (settled q rfl stands) rfl rfl (.inr rfl)
    · simp only [Except.ok.injEq, Prod.mk.injEq] at done
      obtain ⟨rfl, rfl⟩ := done
      exact sleeps_of_same rfl rfl (fun _ => Iff.rfl) (by simp)
  | wake q =>
    simp only [Waiter.step] at done
    split at done
    · cases done
    · simp only [Except.ok.injEq, Prod.mk.injEq] at done
      obtain ⟨rfl, rfl⟩ := done
      -- The task that is woken was taken out of its slot before.
      obtain ⟨-, -, out⟩ := inv.taken p n q (by rw [at_]; rfl)
      refine .stays (by simp [Outcome.pc, takes]) (by simp [suspends]) ?_
      by_cases here : b = q
      · simp [Parked, here, out]
      · simp [Parked, here]
  | switch q =>
    simp only [Waiter.step] at done
    split at done
    · cases done
    · rename_i apart
      simp only [Except.ok.injEq, Prod.mk.injEq] at done
      obtain ⟨rfl, rfl⟩ := done
      obtain ⟨-, -, out⟩ := inv.taken p n q (by rw [at_]; rfl)
      have own : lot.slot n = some p := inv.claimed n p (by rw [at_]; rfl)
      by_cases here : b = p
      · subst here
        refine .begins rfl rfl rfl ?_ ⟨by simp [Ne.symm apart], n, by simp [own]⟩
        rintro ⟨waiting, -⟩
        exact awake (by simp) b waiting rfl
      · refine .stays (by simp [Outcome.pc, takes]) (fun _ => here) ?_
        by_cases there : b = q
        · simp [Parked, there, out]
        · simp [Parked, here, there]

end Statements

/-- Every sleep that is over was ended once, and a parked task has one more sleep to be ended. -/
structure Balanced (s : Parking ν ι) : Prop where
  parked : ∀ q, Parked s.lot q → s.slept q = s.ended q + 1
  free : ∀ q, ¬ Parked s.lot q → s.slept q = s.ended q

/-- What holds when the next step is taken. -/
structure Once (s : Parking ν ι) (l : ParkLabel ν ι) : Prop where
  -- Whoever is taken is suspended, waiting on that waiter.
  takes : ∀ n q, s.takesNext l = some (n, q) → s.lot.cpu.state q = .waiting ∧
    s.lot.cpu.running ≠ some q ∧ s.lot.cpu.queued q = false ∧ waitsAt (s.role q) = some n
  asserts : ∀ text, s.step l ≠ .error (.assertion text)
  pushes : ∀ q, s.pushes l = some q → s.lot.cpu.queued q = false

omit [DecidableEq ν] in
/-- The condition, as the laws of the waiters use it. -/
theorem settled_of_orderly {answer : Bool} {pc : WaiterPc ι}
    (orderly : s.orderly (.run answer) = true) (running : s.lot.cpu.running = some p)
    (at_ : s.role p = some (n, pc)) (q : ι) (aims : aimsAt (some pc) = some q)
    (stands : s.lot.slot n = some q) : claimsAt (s.role q) = none := by
  simpa [Parking.orderly, takesNext, running, at_, aims, stands] using orderly

/-- An orderly step keeps the waiters in order. -/
theorem inv_step (inv : s.lot.Inv s.role) (orderly : s.orderly l = true) (steps : Steps s l s') :
    s'.lot.Inv s'.role := by
  cases steps with
  | run running at_ ok =>
    exact inv.step running at_ (settled_of_orderly orderly running at_) ok
  | preempt running => exact inv.preempt running
  | dispatch idle queued => exact inv.dispatch idle queued
  | call running out begins =>
    refine inv.begin running out ?_ ?_
    · rcases begins with rfl | rfl | rfl <;> rfl
    · rcases begins with rfl | rfl | rfl <;> rfl

/-- The counters of a task whose sleep neither begins nor ends. -/
theorem counters_of_stays {pc : WaiterPc ι} {taken : Option ι} (slept ended : ι → Nat)
    (untaken : taken ≠ some q) (other : suspends pc = true → q ≠ p) :
    countSleep p pc slept q = slept q ∧ countEnd taken ended q = ended q := by
  constructor
  · unfold countSleep
    split
    · rename_i suspends_
      exact update_of_ne (other suspends_) ..
    · rfl
  · cases taken with
    | none => rfl
    | some b =>
      refine update_of_ne ?_ ..
      rintro rfl
      exact untaken rfl

/-- An orderly step keeps sleeps and wake-ups in balance. -/
theorem Balanced.step (balanced : s.Balanced) (inv : s.lot.Inv s.role)
    (orderly : s.orderly l = true) (steps : Steps s l s') : s'.Balanced := by
  obtain ⟨parked, free⟩ := balanced
  cases steps with
  | @run p n pc answer outcome lot running at_ ok =>
    have sleeps : ∀ q, Sleeps p pc outcome s.lot lot q := fun q =>
      sleeps_of_step inv running at_ (settled_of_orderly orderly running at_) ok
    constructor
    · intro q after
      cases sleeps q with
      | begins own suspends_ nobody before _ =>
        subst own
        simp [countSleep, countEnd, suspends_, nobody, free q before]
      | ends taken awake before gone => exact absurd after gone
      | stays untaken other same =>
        obtain ⟨slept, ended⟩ := counters_of_stays s.slept s.ended untaken other
        exact slept.trans ((parked q (same.mp after)).trans (congrArg (· + 1) ended.symm))
    · intro q after
      cases sleeps q with
      | begins own suspends_ nobody _ there => exact absurd there after
      | ends taken awake before _ => simp [countSleep, countEnd, taken, awake, parked q before]
      | stays untaken other same =>
        obtain ⟨slept, ended⟩ := counters_of_stays s.slept s.ended untaken other
        exact slept.trans ((free q (mt same.mpr after)).trans ended.symm)
  | @preempt p running =>
    have same : ∀ q, Parked (s.lot.yield p) q ↔ Parked s.lot q := by
      intro q
      by_cases here : q = p
      · cases state : s.lot.cpu.state p <;> simp [Parked, Lot.yield, here, state]
      · simp [Parked, Lot.yield, here]
    exact ⟨fun q after => parked q ((same q).mp after),
      fun q after => free q (mt (same q).mpr after)⟩
  | @dispatch p idle queued =>
    have same : ∀ q, Parked (s.lot.enter p) q ↔ Parked s.lot q := by
      intro q
      by_cases here : q = p
      · -- A queued task does not wait.
        have awake : s.lot.cpu.state p ≠ .waiting := by
          intro waiting
          rw [(inv.asleep p waiting).1] at queued
          cases queued
        simp [Parked, Lot.enter, here, awake]
      · simp [Parked, Lot.enter, here]
    exact ⟨fun q after => parked q ((same q).mp after),
      fun q after => free q (mt (same q).mpr after)⟩
  | call running out begins => exact ⟨parked, free⟩

omit [DecidableEq ν] [DecidableEq ι] in
/-- The tasks that a step puts on the runqueue are not there yet. -/
theorem unqueued_of_pushes (inv : s.lot.Inv s.role) (pushed : s.pushes l = some q) :
    s.lot.cpu.queued q = false := by
  have runs : ∀ p, s.lot.cpu.running = some p → s.lot.cpu.state p = .running →
      s.lot.cpu.queued p = false := by
    intro p running state
    rcases inv.awake p (by simp [state]) with ⟨-, -, off⟩ | ⟨away, -⟩
    · exact off
    · exact absurd running away
  cases l with
  | run answer =>
    cases running : s.lot.cpu.running with
    | none => simp [pushes, running] at pushed
    | some p =>
      simp only [pushes, running, Option.bind_eq_bind, Option.bind_some] at pushed
      split at pushed
      · -- Whoever is woken was taken before, and waits.
        rename_i n b at_
        obtain rfl : b = q := by simpa using pushed
        obtain ⟨waiting, -⟩ := inv.taken p n b (by rw [at_]; rfl)
        exact (inv.asleep b waiting).1
      · split at pushed
        · rename_i state
          obtain rfl : p = q := by simpa using pushed
          exact runs p running state
        · cases pushed
      · cases pushed
  | preempt =>
    cases running : s.lot.cpu.running with
    | none => simp [pushes, running] at pushed
    | some p =>
      simp only [pushes, running, Option.bind_eq_bind, Option.bind_some] at pushed
      split at pushed
      · rename_i state
        obtain rfl : p = q := by simpa using pushed
        exact runs p running state
      · cases pushed
  | dispatch | parkIf | unpark | swap => cases pushed

/-- A statement of a waiter fails no assertion while the waiters are in order. -/
theorem asserts_of_inv (inv : s.lot.Inv s.role) (text : String) :
    s.step l ≠ .error (.assertion text) := by
  cases l with
  | run answer =>
    cases running : s.lot.cpu.running with
    | none => simp [step, running]
    | some p =>
      cases at_ : s.role p with
      | none => simp [step, running, at_]
      | some place =>
        obtain ⟨n, pc⟩ := place
        simp only [step, running, at_, runTask, Lot.step]
        -- Only the critical sections assert something, and of a task that was taken.
        have taken : ∀ q, takes (some pc) = some q →
            s.lot.cpu.state q = .waiting ∧ q ≠ p := by
          intro q takes_
          obtain ⟨waiting, away, -⟩ := inv.taken p n q (by simp [at_, takesAt, takes_])
          refine ⟨waiting, ?_⟩
          rintro rfl
          exact away running
        cases done : Waiter.step p (!answer) pc ⟨s.lot.cpu, s.lot.slot n⟩ with
        | ok result => simp [Bind.bind, Except.bind, pure, Except.pure]
        | error fault =>
          exfalso
          cases pc with
          | wake q => simp [Waiter.step, (taken q rfl).1] at done
          | switch q => simp [Waiter.step, (taken q rfl).2] at done
          | claim | check | release | mark | yield | parked | load | state | cas | swapLoad
          | swapState | swapCas | swapped =>
            simp only [Waiter.step] at done
            first | split at done | skip
            all_goals cases done
  | preempt =>
    simp only [step]
    split
    · simp
    · simp
  | dispatch p =>
    simp only [step]
    split
    · simp
    · simp
  | parkIf | unpark | swap =>
    simp only [step, call]
    split
    · simp
    · split
      · simp
      · simp

omit [DecidableEq ν] in
/-- Whoever an orderly step takes is suspended, waiting on that waiter. -/
theorem asleep_of_takes (inv : s.lot.Inv s.role) (orderly : s.orderly l = true)
    (taken : s.takesNext l = some (n, q)) :
    s.lot.cpu.state q = .waiting ∧ s.lot.cpu.running ≠ some q ∧ s.lot.cpu.queued q = false ∧
      waitsAt (s.role q) = some n := by
  have unclaimed : claimsAt (s.role q) = none := by simpa [Parking.orderly, taken] using orderly
  cases l with
  | run answer =>
    cases running : s.lot.cpu.running with
    | none => simp [takesNext, running] at taken
    | some p =>
      cases at_ : s.role p with
      | none => simp [takesNext, running, at_] at taken
      | some place =>
        obtain ⟨m, pc⟩ := place
        obtain ⟨b, aims, stands, rfl, rfl⟩ :
            ∃ b, aimsAt (some pc) = some b ∧ s.lot.slot m = some b ∧ m = n ∧ b = q := by
          simpa [takesNext, running, at_, Option.bind_eq_some_iff] using taken
        have going : ∀ k, s.role p ≠ some (k, .yield) := by
          rw [at_]
          cases pc <;> simp_all [aimsAt]
        obtain ⟨sleeps, waiting⟩ :
            waitsAt (s.role b) = some m ∧ s.lot.cpu.state b = .waiting := by
          rcases inv.home m b stands with claimed | sleeps
          · rw [unclaimed] at claimed
            cases claimed
          · exact sleeps
        refine ⟨waiting, ?_, (inv.asleep b waiting).1, sleeps⟩
        intro same
        obtain rfl : p = b := by simpa using same
        rw [(inv.runs running going).1] at waiting
        cases waiting
  | preempt | dispatch | parkIf | unpark | swap => cases taken

/-- Orderly steps keep the waiters in order, and sleeps and wake-ups in balance. -/
theorem OrderlyRun.keeps (run : s.OrderlyRun s') (order : s.lot.Inv s.role ∧ s.Balanced) :
    s'.lot.Inv s'.role ∧ s'.Balanced := by
  refine run.invariant (P := fun s => s.lot.Inv s.role ∧ s.Balanced) order ?_
  rintro s l s' ⟨inv, balanced⟩ orderly ok
  have steps := steps_of_ok ok
  exact ⟨inv_step inv orderly steps, balanced.step inv orderly steps⟩

omit [DecidableEq ν] [DecidableEq ι] in
/-- Nobody has slept yet where the tasks start. -/
theorem order_start :
    (start : Parking ν ι).lot.Inv (start : Parking ν ι).role ∧ (start : Parking ν ι).Balanced :=
  ⟨Lot.inv_start, fun q parked => (by cases parked.1), fun _ _ => rfl⟩

/-- In every orderly run, each sleep is ended once, by a call that finds its task asleep. -/
theorem once_of_orderly
    (reached : Run.Reaches step (fun s l => s.orderly l = true) (start : Parking ν ι) s) :
    s.Balanced ∧ ∀ l, s.orderly l = true → s.Once l := by
  obtain ⟨inv, balanced⟩ : s.lot.Inv s.role ∧ s.Balanced := by
    refine reached.invariant (P := fun s => s.lot.Inv s.role ∧ s.Balanced) ?_ ?_
    · exact ⟨Lot.inv_start, fun q parked => (by cases parked.1), fun _ _ => rfl⟩
    · rintro s l s' ⟨inv, balanced⟩ orderly ok
      have steps := steps_of_ok ok
      exact ⟨inv_step inv orderly steps, balanced.step inv orderly steps⟩
  exact ⟨balanced, fun l orderly => ⟨fun n q => asleep_of_takes inv orderly, asserts_of_inv inv,
    fun q => unqueued_of_pushes inv⟩⟩

/-- The task `p` parks, and `q` is about to unpark it. -/
def parkThenAim (p q : ι) : List (ParkLabel Unit ι) :=
  List.flatten [[.dispatch p, .parkIf ()], List.replicate 4 (.run true),
    [.dispatch q, .unpark ()], List.replicate 2 (.run true)]

/-- The exchange takes a parked task, whose sleep is then ended. -/
theorem once_of_orderly_unpark : ∃ s : Parking Unit (Fin 3),
    s.takesNext (.run true) = some ((), 2) ∧ s.slept 2 = 1 ∧ s.ended 2 = 0 ∧
      s.Balanced ∧ s.Once (.run true) := by
  have run : ∃ s : Parking Unit (Fin 3),
      Run.Reaches step (fun s l => s.orderly l = true) start s ∧
      s.takesNext (.run true) = some ((), 2) ∧ s.slept 2 = 1 ∧ s.ended 2 = 0 ∧
      s.orderly (.run true) = true :=
    Run.Reaches.of_check (parkThenAim 2 0) (by decide +kernel)
  obtain ⟨s, reached, taken, slept, ended, orderly⟩ := run
  obtain ⟨balanced, once⟩ := once_of_orderly reached
  exact ⟨s, taken, slept, ended, balanced, once _ orderly⟩

/-- A third task `r` unparks `p` first, which claims the slot again before it waits. -/
def reparkThenTake (p q r : ι) : List (ParkLabel Unit ι) :=
  List.flatten [parkThenAim p q, [.preempt, .dispatch r, .unpark ()], List.replicate 4 (.run true),
    [.preempt, .dispatch p, .run true, .parkIf (), .run true, .preempt, .dispatch q, .run true]]

/-- The stale exchange then succeeds, and the assertion in `unpark` fails. -/
theorem stale_unpark_fails : ∃ s : Parking Unit (Fin 3),
    Run.Reaches step (fun _ _ => True) start s ∧
      s.step (.run true) = .error (.assertion "parked->run_state == task::WAITING") := by
  have run : ∃ s : Parking Unit (Fin 3), Run.Reaches step (fun _ _ => True) start s ∧
      s.lot.cpu.running = some 0 ∧ s.role 0 = some ((), .wake 2) ∧ s.lot.cpu.state 2 = .suspended :=
    Run.Reaches.of_check (reparkThenTake 2 0 1) (by decide +kernel)
  obtain ⟨s, reached, running, at_, state⟩ := run
  refine ⟨s, reached, ?_⟩
  simp [step, running, at_, runTask, Lot.step, Waiter.step, state, Bind.bind, Except.bind]

end Parking

end Gthread

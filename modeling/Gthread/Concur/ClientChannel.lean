import Gthread.Concur.ClientThread
import Gthread.Concur.WaiterLaws

/-! What the code of a channel has in common: two tasks, one waiter, and loops that unpark. -/

namespace Gthread

open Waiter (aimsAt)

/-- The waiter of a channel, whichever it is on the kernel thread. -/
def stalled : WaiterId := 0

instance : Fintype Party where
  elems := {.reader, .writer}
  complete p := by cases p <;> decide

/-- The reader is in the block of the first of two tasks, and the writer in the other one. -/
def partyNames : Naming Party where
  place
    | .reader => 1
    | .writer => 2
  name b := if b = 1 then some .reader else if b = 2 then some .writer else none
  agree b p := by
    by_cases first : b = 1
    · cases p <;> simp [first]
    · cases p <;> simp [first]

/-- Where the loop that unparks goes on once `unpark` has returned. -/
def DrainPc.after {ι : Type} (result : Bool) : Option (DrainPc ι) :=
  if result then none else some .again

/-- Where the loop goes on after a statement of `unpark`. -/
def Outcome.drained {ι : Type} : Outcome ι → Option (DrainPc ι)
  | .goto pc => some (.unpark pc)
  | .return_ result => DrainPc.after result

/-- The same statement of the loop, where the waiter's code is at the one it says. -/
def DrainPc.inner {ι : Type} : DrainPc ι → Option (WaiterId × WaiterPc ι) → DrainPc ι
  | .unpark _, some (_, pc) => .unpark pc
  | pc, _ => pc

/-- A statement of the loop that unparks; `goes` is the memory once it is done. -/
def Act.drains {γ : Type} (pc : DrainPc Party) (goes : Option (DrainPc Party) → γ) :
    Act WaiterId γ :=
  match pc with
  | .test => .tests stalled fun stands => goes (if stands then some (.unpark .load) else none)
  | .unpark _ => .calls stalled .unpark
  | .again => .yields (goes (some .test))

/-- A statement that uses neither the waiter nor `yield`. -/
def Act.of {ν γ : Type} : Except Fault γ → Act ν γ
  | .ok memory => .moves memory
  | .error fault => .fails fault

/-- The memory may be this one once a statement outside the waiters is done. -/
def Act.Leads {ν γ : Type} (memory : γ) : Act ν γ → Prop
  | .moves memory' | .yields memory' => memory = memory'
  | .tests _ next => ∃ stands, memory = next stands
  | _ => False

/-- What a task is at if a statement of it is an access to the memory. -/
theorem Act.of_moves {ν γ : Type} {memory : γ} {result : Except Fault γ}
    (acts : (Act.of result : Act ν γ) = .moves memory) : result = .ok memory := by
  cases result with
  | ok memory' =>
    cases acts
    rfl
  | error fault => cases acts

/-- Such a statement does not yield. -/
theorem Act.of_ne_yields {ν γ : Type} {memory : γ} (result : Except Fault γ) :
    (Act.of result : Act ν γ) ≠ .yields memory := by
  cases result <;> simp [Act.of]

/-- It does not test the waiter. -/
theorem Act.of_ne_tests {ν γ : Type} (result : Except Fault γ) (n : ν) (next : Bool → γ) :
    Act.of result ≠ .tests n next := by
  cases result <;> simp [Act.of]

/-- It does not call it. -/
theorem Act.of_ne_calls {ν γ : Type} (result : Except Fault γ) (n : ν) (c : WaiterCall) :
    Act.of result ≠ .calls n c := by
  cases result <;> simp [Act.of]

namespace Client.State

variable {γ : Type}

/-- The waiter of a channel and the processor of its tasks. -/
def waiter (s : Client.State WaiterId Party γ) : Waiter Party := ⟨s.lot.cpu, s.lot.slot stalled⟩

variable {s : Client.State WaiterId Party γ} {p : Party}

/-- A statement of a waiter of the lot is one of the waiter alone. -/
theorem waiter_step {closed : Bool} {pc : WaiterPc Party} {outcome : Outcome Party}
    {lot : Lot WaiterId Party} (ok : s.lot.step p closed stalled pc = .ok (outcome, lot)) :
    s.waiter.step p closed pc = .ok (outcome, ⟨lot.cpu, lot.slot stalled⟩) := by
  obtain ⟨w, done, rfl⟩ := Lot.step_ok ok
  rw [waiter, done]
  simp

/-- Only the check of `park_if` depends on whether the channel is closed. -/
theorem waiter_checked {closed holds : Bool} {pc : WaiterPc Party} {outcome : Outcome Party}
    {lot : Lot WaiterId Party} (checks : holds = if pc = .check then !closed else true)
    (ok : s.lot.step p (!holds) stalled pc = .ok (outcome, lot)) :
    s.waiter.step p closed pc = .ok (outcome, ⟨lot.cpu, lot.slot stalled⟩) := by
  have stepped := waiter_step ok
  cases pc with
  | check =>
    rw [if_pos rfl] at checks
    rwa [checks, Bool.not_not] at stepped
  | _ => exact stepped

/-- A statement inside `unpark` is one of the loop. -/
theorem waiter_unpark {pc : WaiterPc Party} {outcome : Outcome Party} {lot : Lot WaiterId Party}
    (ok : s.lot.step p false stalled pc = .ok (outcome, lot)) :
    s.waiter.drain p (.unpark pc) = .ok (outcome.drained, ⟨lot.cpu, lot.slot stalled⟩) := by
  simp only [Waiter.drain, waiter_step ok, Bind.bind, Except.bind, pure, Except.pure]
  cases outcome with
  | goto pc' => rfl
  | return_ result => cases result <;> rfl

/-- So is the test of the waiter. -/
theorem waiter_test : s.waiter.drain p .test =
    .ok (if (s.lot.slot stalled).isSome then some (.unpark .load) else none, s.waiter) := by
  simp only [Waiter.drain, waiter]
  by_cases empty : s.lot.slot stalled = none
  · simp [empty]
  · simp [empty, Option.isSome_iff_ne_none]

/-- Tasks that are in order take nobody that has just claimed the slot. -/
theorem orderly_of_inv {role : Party → Option (WaiterPc Party)} (inv : s.waiter.Inv role)
    (placed : ∀ p n pc, s.role p = some (n, pc) → n = stalled ∧ role p = some pc) :
    s.Orderly := by
  intro p n pc q running there aims stands
  obtain ⟨rfl, here⟩ := placed p n pc there
  obtain ⟨-, waiting, -⟩ := inv.aims p q (by rw [here]; exact aims)
  have sleeps := (inv.asleep waiting).at_
  cases at_ : s.role q with
  | none => rfl
  | some place =>
    obtain ⟨m, pc'⟩ := place
    rw [(placed q m pc' at_).2] at sleeps
    have apart := Waiter.claims_of_waits sleeps
    simp only [Lot.claimsAt, apart]
    rfl

end Client.State

end Gthread

import Gthread.Sched.KernelRefines

/-! Any code that uses waiters, run by tasks that share one abstract processor. -/

namespace Gthread

open Function (update update_of_ne update_self)

/-- What the code of a task does next; `γ` is the memory of the code, with the locals of tasks. -/
inductive Act (ν γ : Type) where
  -- Nothing, until the program makes its next call.
  | rests
  | fails (fault : Fault)
  -- One access to the memory, or a call of `self::yield`.
  | moves (memory : γ)
  | yields (memory : γ)
  -- The test whether a task stands in a waiter, or a call of one of its member functions.
  | tests (n : ν) (next : Bool → γ)
  | calls (n : ν) (c : WaiterCall)

/-- Whether the task is in no call of the program. -/
def Act.resting {ν γ : Type} : Act ν γ → Bool
  | .rests => true
  | _ => false

/-- Code that uses waiters, for tasks named by `ι`; the calls that a program can make are a `κ`. -/
structure Client (ν ι κ γ : Type) where
  act : ι → γ → Act ν γ
  -- What `check_thunk` returns inside `park_if`, and the memory after it.
  check : ι → γ → Bool × γ
  -- The memory once a member function of a waiter has returned a result.
  back : ι → Bool → γ → γ
  -- The memory once the program has made a call, if it can.
  call : ι → κ → γ → Option γ

namespace Client

/-- The tasks on their processor. -/
structure State (ν ι γ : Type) where
  lot : Lot ν ι
  -- The waiter whose member function a task has called, and its next statement there.
  role : ι → Option (ν × WaiterPc ι)
  memory : γ

/-- What happens next to the tasks. -/
inductive Label (ι κ : Type) where
  | run
  -- The timer takes the processor from the running task.
  | preempt
  | dispatch (p : ι)
  | call (c : κ)
  deriving DecidableEq, Repr

variable {ν ι κ γ : Type} [DecidableEq ν] [DecidableEq ι] (C : Client ν ι κ γ)

/-- What the check of `park_if` returns, if its statement is the next one, and the memory. -/
def checked {α : Type} [DecidableEq α] (p : ι) (pc : WaiterPc α) (memory : γ) : Bool × γ :=
  if pc = .check then C.check p memory else (true, memory)

/-- The memory after a statement of a waiter, which may return to the code. -/
def returned (p : ι) (outcome : Outcome ι) (memory : γ) : γ :=
  match outcome with
  | .goto _ => memory
  | .return_ result => C.back p result memory

/-- The next statement of a task. -/
def statement (p : ι) (s : State ν ι γ) : Except Fault (State ν ι γ) :=
  match s.role p with
  | some (n, pc) => do
    let (holds, memory) := C.checked p pc s.memory
    let (outcome, lot) ← s.lot.step p (!holds) n pc
    return {
      lot
      role := update s.role p (outcome.pc.map (n, ·))
      memory := C.returned p outcome memory }
  | none =>
    match C.act p s.memory with
    | .rests => .error .disabled
    | .fails fault => .error fault
    | .moves memory => .ok { s with memory }
    | .yields memory => .ok { s with lot := s.lot.yield p, memory }
    | .tests n next => .ok { s with memory := next (s.lot.slot n).isSome }
    | .calls n c => .ok { s with role := update s.role p (some (n, Kernel.beginning c)) }

/-- One step of the tasks and their scheduler. -/
def step (s : State ν ι γ) : Label ι κ → Except Fault (State ν ι γ)
  | .run =>
    match s.lot.cpu.running with
    | none => .error .disabled
    | some p => C.statement p s
  | .preempt =>
    match s.lot.cpu.running with
    | none => .error .disabled
    | some p => .ok { s with lot := s.lot.yield p }
  | .dispatch p =>
    if s.lot.cpu.running = none ∧ s.lot.cpu.queued p = true then
      .ok { s with lot := s.lot.enter p }
    else .error .disabled
  | .call c =>
    match s.lot.cpu.running with
    | none => .error .disabled
    | some p =>
      match s.role p, C.call p c s.memory with
      | none, some memory => .ok { s with memory }
      | _, _ => .error .disabled

/-- Tasks that are all queued, with empty waiters. -/
def start (memory : γ) : State ν ι γ where
  lot := ⟨⟨none, fun _ => .suspended, fun _ => true⟩, fun _ => none⟩
  role := fun _ => none
  memory := memory

/-- The states that the tasks come to. -/
abbrev Reaches (memory : γ) : State ν ι γ → Prop :=
  Run.Reaches C.step (fun _ _ => True) (start memory)

/-- Whoever the running task may take out of a slot has not just claimed it. -/
def State.Orderly (s : State ν ι γ) : Prop :=
  ∀ p n pc q, s.lot.cpu.running = some p → s.role p = some (n, pc) →
    Waiter.aimsAt (some pc) = some q → s.lot.slot n = some q → Lot.claimsAt (s.role q) = none

variable {C} {s s' : State ν ι γ} {p : ι} {memory : γ}

/-- What a statement of a task does. -/
inductive Does (C : Client ν ι κ γ) (p : ι) (s : State ν ι γ) : State ν ι γ → Prop
  | inside {n : ν} {pc : WaiterPc ι} {holds : Bool} {memory : γ} {outcome : Outcome ι}
      {lot : Lot ν ι} (at_ : s.role p = some (n, pc))
      (checks : C.checked p pc s.memory = (holds, memory))
      (ok : s.lot.step p (!holds) n pc = .ok (outcome, lot)) :
      Does C p s {
        lot
        role := update s.role p (outcome.pc.map (n, ·))
        memory := C.returned p outcome memory }
  | moves {memory : γ} (out : s.role p = none) (act : C.act p s.memory = .moves memory) :
      Does C p s { s with memory }
  | yields {memory : γ} (out : s.role p = none) (act : C.act p s.memory = .yields memory) :
      Does C p s { s with lot := s.lot.yield p, memory }
  | tests {n : ν} {next : Bool → γ} (out : s.role p = none)
      (act : C.act p s.memory = .tests n next) :
      Does C p s { s with memory := next (s.lot.slot n).isSome }
  | calls {n : ν} {c : WaiterCall} (out : s.role p = none) (act : C.act p s.memory = .calls n c) :
      Does C p s { s with role := update s.role p (some (n, Kernel.beginning c)) }

/-- A statement does one of these things. -/
theorem does_of_ok (ok : C.statement p s = .ok s') : Does C p s s' := by
  unfold statement at ok
  cases at_ : s.role p with
  | some place =>
    obtain ⟨n, pc⟩ := place
    simp only [at_] at ok
    cases done : s.lot.step p (!(C.checked p pc s.memory).1) n pc with
    | error fault => simp [done, Bind.bind, Except.bind] at ok
    | ok result =>
      obtain ⟨outcome, lot⟩ := result
      simp only [done, Bind.bind, Except.bind, pure, Except.pure, Except.ok.injEq] at ok
      exact ok ▸ .inside at_ rfl done
  | none =>
    simp only [at_] at ok
    split at ok
    · cases ok
    · cases ok
    · rename_i act
      exact Except.ok.inj ok ▸ .moves at_ act
    · rename_i act
      exact Except.ok.inj ok ▸ .yields at_ act
    · rename_i act
      exact Except.ok.inj ok ▸ .tests at_ act
    · rename_i act
      exact Except.ok.inj ok ▸ .calls at_ act

/-- What a step does. -/
inductive Steps (C : Client ν ι κ γ) (s : State ν ι γ) : Label ι κ → State ν ι γ → Prop
  | runs {p : ι} {s' : State ν ι γ} (running : s.lot.cpu.running = some p)
      (does : Does C p s s') : Steps C s .run s'
  | preempt {p : ι} (running : s.lot.cpu.running = some p) :
      Steps C s .preempt { s with lot := s.lot.yield p }
  | dispatch {p : ι} (idle : s.lot.cpu.running = none) (queued : s.lot.cpu.queued p = true) :
      Steps C s (.dispatch p) { s with lot := s.lot.enter p }
  | call {p : ι} {c : κ} {memory : γ} (running : s.lot.cpu.running = some p)
      (out : s.role p = none) (called : C.call p c s.memory = some memory) :
      Steps C s (.call c) { s with memory }

/-- A step does one of these things. -/
theorem steps_of_ok {l : Label ι κ} (ok : C.step s l = .ok s') : Steps C s l s' := by
  cases l with
  | run =>
    simp only [step] at ok
    split at ok
    · cases ok
    · rename_i p running
      exact .runs running (does_of_ok ok)
  | preempt =>
    simp only [step] at ok
    split at ok
    · cases ok
    · rename_i p running
      exact Except.ok.inj ok ▸ .preempt running
  | dispatch p =>
    simp only [step] at ok
    split at ok
    · rename_i ready
      exact Except.ok.inj ok ▸ .dispatch ready.1 ready.2
    · cases ok
  | call c =>
    simp only [step] at ok
    split at ok
    · cases ok
    · rename_i p running
      split at ok
      · rename_i out called
        exact Except.ok.inj ok ▸ .call running out called
      · cases ok

/-- An orderly step keeps the waiters in order. -/
theorem inv_step {l : Label ι κ} (inv : s.lot.Inv s.role) (orderly : s.Orderly)
    (steps : Steps C s l s') : s'.lot.Inv s'.role := by
  cases steps with
  | @runs p s' running does =>
    cases does with
    | inside at_ checks ok =>
      exact inv.step running at_ (fun q => orderly p _ _ q running at_) ok
    | moves | tests => exact inv
    | yields => exact inv.preempt running
    | @calls n c out act =>
      refine inv.begin running out ?_ ?_
      · cases c <;> rfl
      · cases c <;> rfl
  | preempt running => exact inv.preempt running
  | dispatch idle queued => exact inv.dispatch idle queued
  | call => exact inv

/-- The tasks can follow the processor. -/
theorem follows {lot : Lot ν ι} (passes : s.lot.Passes lot) :
    Run.Reaches C.step (fun _ _ => True) s { s with lot } := by
  -- The induction is on the passes, each of which is one step.
  induction passes with
  | refl => exact .refl
  | tail _ pass ih =>
    cases pass with
    | leave running =>
      refine ih.tail (a := .preempt) trivial ?_
      simp [step, running]
    | @enter p idle queued =>
      refine ih.tail (a := .dispatch p) trivial ?_
      simp [step, idle, queued]

end Client

end Gthread

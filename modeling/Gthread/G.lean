import Gthread.Sched.SchedLaws

/-! The class `g`: programs that own their tasks through objects. -/

namespace Gthread

/-- A system and which of its handles belong to a `g` object that is alive. -/
structure Program where
  sys : Sys
  live : HandleId → Bool

/-- What a program does with `g` objects, and the end of a task. -/
inductive Op where
  -- `g x;`
  | create (x : HandleId)
  -- `g x(function, args...)`
  | construct (entry arg : Nat) (x : HandleId)
  -- `g x(y)`
  | copy (x y : HandleId)
  -- `x = y`
  | assign (x y : HandleId)
  | join (x : HandleId)
  | detach (x : HandleId)
  -- The end of the object's life.
  | destroy (x : HandleId)
  | yield
  | exit (value : Nat)
  deriving DecidableEq, Repr

namespace Program

/-- What happens next on the kernel thread. -/
inductive Label where
  | trap (clock : Clock)
  | op (o : Op) (clock : Clock)
  | run (clock : Clock) (fresh : Addr)

/-- Carry on with another state of the system. -/
def lift (p : Program) (result : Except Fault Sys) : Except Fault Program := do
  let s ← result
  return { p with sys := s }

/-- The life of an object begins, in storage that no other object occupies. -/
def begin_ (x : HandleId) (p : Program) : Except Fault Program :=
  if p.live x = true ∨ p.sys.busy x ≠ none then .error .disabled
  else .ok
    { sys := { p.sys with handles := Function.update p.sys.handles x none }
      live := Function.update p.live x true }

/-- `g::join`, whose exception for an empty object goes to the program. -/
def join (x : HandleId) (p : Program) : Except Fault Program :=
  if p.sys.handles x = none then .ok p else p.lift (p.sys.join x false)

/-- `g::detach`. -/
def detach (x : HandleId) (p : Program) : Except Fault Program :=
  if p.sys.handles x = none then .ok p else p.lift (p.sys.detach x)

/-- An operation of the program; those on objects need the objects to be alive. -/
def op (o : Op) (clock : Clock) (p : Program) : Except Fault Program :=
  match o with
  | .create x => p.begin_ x
  | .construct entry arg x => do
    let p ← p.begin_ x
    p.lift (p.sys.spawn kLightAttr (some entry) arg x)
  -- Copies are the implicitly declared ones: they copy the handle.
  | .copy x y => if p.live y then do
      let p ← p.begin_ x
      p.lift (p.sys.call (.assign x y) clock)
    else .error .disabled
  | .assign x y =>
    if p.live x ∧ p.live y then p.lift (p.sys.call (.assign x y) clock) else .error .disabled
  | .join x => if p.live x then p.join x else .error .disabled
  | .detach x => if p.live x then p.detach x else .error .disabled
  -- The destructor detaches.
  | .destroy x =>
    if p.live x then { p with live := Function.update p.live x false }.detach x
    else .error .disabled
  | .yield => p.lift (p.sys.call .yield clock)
  | .exit value => p.lift (p.sys.call (.exit value) clock)

/-- One step of a program. -/
def step (p : Program) : Label → Except Fault Program
  | .trap clock => p.lift (p.sys.step (.trap clock))
  | .op o clock => if p.sys.pc = .user then p.op o clock else .error .disabled
  | .run clock fresh => p.lift (p.sys.step (.run clock fresh))

/-- A program right after `start_async`, before it has any object. -/
def start (host : Addr) (tick : Int) (maxSize : Nat) : Program where
  sys := Sys.start host tick maxSize
  live := fun _ => false

end Program

end Gthread

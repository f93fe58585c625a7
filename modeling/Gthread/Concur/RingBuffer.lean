import Gthread.Lib.Run
import Gthread.Concur.Waiter

/-! The class template `ring_buffer` with one reading and one writing task. -/

namespace Gthread

/-- The template argument `Size`, with what its `static_assert` checks. -/
structure RingSize where
  value : BitVec 64
  nonzero : value ≠ 0
  power : value &&& (value - 1) = 0

/-- The constant `_mask`. -/
def RingSize.mask (size : RingSize) : BitVec 64 := size.value - 1

/-- The next statement of the reading task, in `read` or `close`, with its locals. -/
inductive ReadPc (α : Type) where
  | idle
  | loadR
  | loadW (r : BitVec 64)
  | park (r w : BitVec 64) (pc : WaiterPc Party) (loadedClosed : Bool)
  -- The value is moved out of the buffer and destroyed there.
  | take (r : BitVec 64)
  | storeR (r : BitVec 64) (v : α)
  | drain (v : α) (pc : DrainPc Party)
  | ret (result : Option α)
  | close
  | closeDrain (pc : DrainPc Party)
  deriving DecidableEq, Repr

/-- The next statement of the writing task, in `write` or `close`, with its locals. -/
inductive WritePc (α : Type) where
  | idle
  | checkClosed (v : α)
  | loadW (v : α)
  | loadR (v : α) (w : BitVec 64)
  | park (v : α) (w r : BitVec 64) (pc : WaiterPc Party) (loadedClosed : Bool)
  | put (v : α) (w : BitVec 64)
  | storeW (v : α) (w : BitVec 64)
  | drain (v : α) (pc : DrainPc Party)
  -- Whether the value was accepted, so that `nullopt` is returned.
  | ret (v : α) (accepted : Bool)
  | close
  | closeDrain (pc : DrainPc Party)
  deriving DecidableEq, Repr

/-- A ring buffer, its two tasks, and histories that no code reads. -/
structure Ring (α : Type) where
  -- `_stalled`.
  waiter : Waiter Party
  r : BitVec 64
  w : BitVec 64
  -- An element of `_buffer` holds an object or raw storage.
  buffer : BitVec 64 → Option α
  closed : Bool
  reader : ReadPc α
  writer : WritePc α
  -- The values whose store to `_w` is done, and the results of finished calls.
  pushed : List α
  accepted : List α
  delivered : List α

namespace Ring

variable {α : Type}

/-- A statement of the reading task. -/
def runReader (size : RingSize) (s : Ring α) : Except Fault (Ring α) :=
  match s.reader with
  | .idle => .error .disabled
  | .loadR => .ok { s with reader := .loadW s.r }
  | .loadW r =>
    .ok { s with reader := if s.w - r = 0 then .park r s.w .claim false else .take r }
  | .park r w pc loadedClosed => do
    let (outcome, waiter) ← s.waiter.step .reader s.closed pc
    -- The check of `park_if` keeps what it has loaded.
    let loadedClosed := if pc = .check then s.closed else loadedClosed
    match outcome with
    | .goto pc => return { s with waiter, reader := .park r w pc loadedClosed }
    | .return_ _ =>
      return { s with waiter, reader := if loadedClosed then .ret none else .loadW r }
  | .take r =>
    match s.buffer (r &&& size.mask) with
    | none => .error .undefined
    | some v => .ok { s with
        buffer := Function.update s.buffer (r &&& size.mask) none
        reader := .storeR r v }
  | .storeR r v => .ok { s with r := r + 1, reader := .drain v .test }
  | .drain v pc => do
    let (next, waiter) ← s.waiter.drain .reader pc
    match next with
    | some pc => return { s with waiter, reader := .drain v pc }
    | none => return { s with waiter, reader := .ret (some v) }
  | .ret result => .ok { s with delivered := s.delivered ++ result.toList, reader := .idle }
  | .close => .ok { s with closed := true, reader := .closeDrain .test }
  | .closeDrain pc => do
    let (next, waiter) ← s.waiter.drain .reader pc
    match next with
    | some pc => return { s with waiter, reader := .closeDrain pc }
    | none => return { s with waiter, reader := .idle }

/-- A statement of the writing task. -/
def runWriter (size : RingSize) (s : Ring α) : Except Fault (Ring α) :=
  match s.writer with
  | .idle => .error .disabled
  | .checkClosed v => .ok { s with writer := if s.closed then .ret v false else .loadW v }
  | .loadW v => .ok { s with writer := .loadR v s.w }
  | .loadR v w =>
    .ok { s with writer := if w - s.r = size.value then .park v w s.r .claim false else .put v w }
  | .park v w r pc loadedClosed => do
    let (outcome, waiter) ← s.waiter.step .writer s.closed pc
    let loadedClosed := if pc = .check then s.closed else loadedClosed
    match outcome with
    | .goto pc => return { s with waiter, writer := .park v w r pc loadedClosed }
    | .return_ _ =>
      return { s with waiter, writer := if loadedClosed then .ret v false else .loadR v w }
  | .put v w => .ok { s with
      buffer := Function.update s.buffer (w &&& size.mask) (some v)
      writer := .storeW v w }
  | .storeW v w =>
    .ok { s with w := w + 1, pushed := s.pushed ++ [v], writer := .drain v .test }
  | .drain v pc => do
    let (next, waiter) ← s.waiter.drain .writer pc
    match next with
    | some pc => return { s with waiter, writer := .drain v pc }
    | none => return { s with waiter, writer := .ret v true }
  | .ret v accepted =>
    .ok { s with accepted := if accepted then s.accepted ++ [v] else s.accepted, writer := .idle }
  | .close => .ok { s with closed := true, writer := .closeDrain .test }
  | .closeDrain pc => do
    let (next, waiter) ← s.waiter.drain .writer pc
    match next with
    | some pc => return { s with waiter, writer := .closeDrain pc }
    | none => return { s with waiter, writer := .idle }

/-- One step of the two tasks and their scheduler. -/
def step (size : RingSize) (s : Ring α) : ChannelLabel α → Except Fault (Ring α)
  | .run =>
    match s.waiter.cpu.running with
    | none => .error .disabled
    | some .reader => s.runReader size
    | some .writer => s.runWriter size
  | .preempt =>
    match s.waiter.cpu.running with
    | none => .error .disabled
    | some p => .ok { s with waiter := s.waiter.yield p }
  | .dispatch p =>
    if s.waiter.cpu.running = none ∧ s.waiter.cpu.queued p = true then
      .ok { s with waiter := { s.waiter with cpu := s.waiter.cpu.enter p } }
    else .error .disabled
  | .read =>
    match s.waiter.cpu.running, s.reader with
    | some .reader, .idle => .ok { s with reader := .loadR }
    | _, _ => .error .disabled
  | .write v =>
    match s.waiter.cpu.running, s.writer with
    | some .writer, .idle => .ok { s with writer := .checkClosed v }
    | _, _ => .error .disabled
  | .close .reader =>
    match s.waiter.cpu.running, s.reader with
    | some .reader, .idle => .ok { s with reader := .close }
    | _, _ => .error .disabled
  | .close .writer =>
    match s.waiter.cpu.running, s.writer with
    | some .writer, .idle => .ok { s with writer := .close }
    | _, _ => .error .disabled

/-- A new buffer whose tasks are queued. -/
def start : Ring α where
  waiter := ⟨⟨none, fun _ => .suspended, fun _ => true⟩, none⟩
  r := 0
  w := 0
  buffer := fun _ => none
  closed := false
  reader := .idle
  writer := .idle
  pushed := []
  accepted := []
  delivered := []

end Ring

end Gthread

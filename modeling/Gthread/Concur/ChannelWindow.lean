import Gthread.Lib.Run
import Gthread.Concur.Waiter

/-! The class template `channel_window` with one reading and one writing task. -/

namespace Gthread

/-- The next statement of `channel_window::close`. -/
inductive ClosePc where
  | store
  | clear
  | drain (pc : DrainPc Party)
  deriving DecidableEq, Repr

/-- The next statement of the reading task, in `read` or `close`. -/
inductive WindowReadPc where
  | idle
  -- The assertion at entry, and the store of `&ret` to `_reader`.
  | assertEntry
  | setReader
  | checkClosed
  | park (pc : WaiterPc Party)
  -- `park_if` has returned true.
  | assertServed
  | drain (pc : DrainPc Party)
  | swap (pc : WaiterPc Party)
  | yield
  | ret
  | close (pc : ClosePc)
  deriving DecidableEq, Repr

/-- Whether a call of `read` is under way, so that its local `ret` exists. -/
def WindowReadPc.calling : WindowReadPc → Bool
  | .idle | .close _ => false
  | _ => true

/-- The next statement of the writing task, in `write` or `close`, with the argument `t`. -/
inductive WindowWritePc (α : Type) where
  | idle
  | checkClosed (t : α)
  | park (t : α) (pc : WaiterPc Party)
  -- `park_if` has returned true: the channel may have been closed since.
  | checkAgain (t : α)
  | clearClosed (t : α)
  | assertReader (t : α)
  -- The hand-over, in the branch that has parked or in the one that finds a parked reader.
  | emplace (parked : Bool) (t : α)
  | clear (parked : Bool) (t : α)
  | swap (t : α) (pc : WaiterPc Party)
  | swapAgain (t : α)
  -- The condition `_waiter && _reader != nullptr`, one load at a time.
  | testWaiter (t : α)
  | testReader (t : α)
  | drain (t : α) (pc : DrainPc Party)
  | yield (t : α)
  -- Whether the value was handed over, so that `nullopt` is returned.
  | ret (t : α) (accepted : Bool)
  | close (pc : ClosePc)
  deriving DecidableEq, Repr

/-- A window, its two tasks, and histories that no code reads. -/
structure Window (α : Type) where
  -- `_waiter`.
  waiter : Waiter Party
  -- `_reader`: the call of `read` whose `ret` it points to.
  target : Option Nat
  closed : Bool
  reader : WindowReadPc
  writer : WindowWritePc α
  -- The local `ret` of the last call of `read`.
  ret : Option α
  -- The calls that were begun name the last one; `origin` is the call that wrote `ret`.
  reads : Nat
  writes : Nat
  origin : Nat
  accepted : List α
  delivered : List α

namespace Window

variable {α : Type}

/-- `_reader->emplace(std::move(t))`, which needs the call that `_reader` points to. -/
def emplace (t : α) (s : Window α) : Except Fault (Window α) :=
  if s.target = some s.reads ∧ s.reader.calling = true then
    .ok { s with ret := some t, origin := s.writes }
  else .error .undefined

/-- A statement of `close`; nothing follows once it returns. -/
def runClose (p : Party) (pc : ClosePc) (s : Window α) :
    Except Fault (Option ClosePc × Window α) :=
  match pc with
  | .store => .ok (some .clear, { s with closed := true })
  | .clear => .ok (some (.drain .test), { s with target := none })
  | .drain pc => do
    let (next, waiter) ← s.waiter.drain p pc
    return (next.map .drain, { s with waiter })

/-- A statement of the reading task. -/
def runReader (s : Window α) : Except Fault (Window α) :=
  match s.reader with
  | .idle => .error .disabled
  | .assertEntry =>
    if s.target ≠ none then .error (.assertion "_reader == nullptr")
    else .ok { s with reader := .setReader }
  | .setReader => .ok { s with target := some s.reads, reader := .checkClosed }
  | .checkClosed => .ok { s with reader := if s.closed then .ret else .park .claim }
  | .park pc => do
    let (outcome, waiter) ← s.waiter.step .reader s.closed pc
    match outcome with
    | .goto pc => return { s with waiter, reader := .park pc }
    | .return_ true => return { s with waiter, reader := .assertServed }
    | .return_ false => return { s with waiter, reader := .swap .swapLoad }
  | .assertServed =>
    if s.target ≠ none then .error (.assertion "_reader == nullptr")
    else .ok { s with reader := .drain .test }
  | .drain pc => do
    let (next, waiter) ← s.waiter.drain .reader pc
    match next with
    | some pc => return { s with waiter, reader := .drain pc }
    | none => return { s with waiter, reader := .ret }
  | .swap pc => do
    let (outcome, waiter) ← s.waiter.step .reader s.closed pc
    match outcome with
    | .goto pc => return { s with waiter, reader := .swap pc }
    | .return_ true => return { s with waiter, reader := .ret }
    | .return_ false => return { s with waiter, reader := .yield }
  | .yield => .ok { s with waiter := s.waiter.yield .reader, reader := .checkClosed }
  | .ret => .ok { s with delivered := s.delivered ++ s.ret.toList, reader := .idle }
  | .close pc => do
    let (next, s) ← s.runClose .reader pc
    match next with
    | some pc => return { s with reader := .close pc }
    | none => return { s with reader := .idle }

/-- A statement of the writing task. -/
def runWriter (s : Window α) : Except Fault (Window α) :=
  match s.writer with
  | .idle => .error .disabled
  | .checkClosed t => .ok { s with writer := if s.closed then .ret t false else .park t .claim }
  | .park t pc => do
    let (outcome, waiter) ← s.waiter.step .writer s.closed pc
    match outcome with
    | .goto pc => return { s with waiter, writer := .park t pc }
    | .return_ true => return { s with waiter, writer := .checkAgain t }
    | .return_ false => return { s with waiter, writer := .testWaiter t }
  | .checkAgain t =>
    .ok { s with writer := if s.closed then .clearClosed t else .assertReader t }
  | .clearClosed t => .ok { s with target := none, writer := .ret t false }
  | .assertReader t =>
    if s.target = none then .error (.assertion "_reader != nullptr")
    else .ok { s with writer := .emplace true t }
  | .emplace parked t => do
    let s ← s.emplace t
    return { s with writer := .clear parked t }
  | .clear parked t =>
    .ok { s with target := none, writer := if parked then .swap t .swapLoad else .drain t .test }
  | .swap t pc => do
    let (outcome, waiter) ← s.waiter.step .writer s.closed pc
    match outcome with
    | .goto pc => return { s with waiter, writer := .swap t pc }
    | .return_ true => return { s with waiter, writer := .ret t true }
    | .return_ false => return { s with waiter, writer := .swapAgain t }
  | .swapAgain t => .ok { s with waiter := s.waiter.yield .writer, writer := .swap t .swapLoad }
  | .testWaiter t =>
    .ok { s with writer := if s.waiter.slot = none then .yield t else .testReader t }
  | .testReader t =>
    .ok { s with writer := if s.target = none then .yield t else .emplace false t }
  | .drain t pc => do
    let (next, waiter) ← s.waiter.drain .writer pc
    match next with
    | some pc => return { s with waiter, writer := .drain t pc }
    | none => return { s with waiter, writer := .ret t true }
  | .yield t => .ok { s with waiter := s.waiter.yield .writer, writer := .checkClosed t }
  | .ret t accepted =>
    .ok { s with accepted := if accepted then s.accepted ++ [t] else s.accepted, writer := .idle }
  | .close pc => do
    let (next, s) ← s.runClose .writer pc
    match next with
    | some pc => return { s with writer := .close pc }
    | none => return { s with writer := .idle }

/-- One step of the two tasks and their scheduler. -/
def step (s : Window α) : ChannelLabel α → Except Fault (Window α)
  | .run =>
    match s.waiter.cpu.running with
    | none => .error .disabled
    | some .reader => s.runReader
    | some .writer => s.runWriter
  | .preempt =>
    match s.waiter.cpu.running with
    | none => .error .disabled
    | some p => .ok { s with waiter := s.waiter.yield p }
  | .dispatch p =>
    if s.waiter.cpu.running = none ∧ s.waiter.cpu.queued p = true then
      .ok { s with waiter := { s.waiter with cpu := s.waiter.cpu.enter p } }
    else .error .disabled
  | .read =>
    match s.waiter.cpu.running, s.reader with
    | some .reader, .idle =>
      .ok { s with ret := none, reads := s.reads + 1, reader := .assertEntry }
    | _, _ => .error .disabled
  | .write t =>
    match s.waiter.cpu.running, s.writer with
    | some .writer, .idle => .ok { s with writes := s.writes + 1, writer := .checkClosed t }
    | _, _ => .error .disabled
  | .close .reader =>
    match s.waiter.cpu.running, s.reader with
    | some .reader, .idle => .ok { s with reader := .close .store }
    | _, _ => .error .disabled
  | .close .writer =>
    match s.waiter.cpu.running, s.writer with
    | some .writer, .idle => .ok { s with writer := .close .store }
    | _, _ => .error .disabled

/-- A new window whose tasks are queued. -/
def start : Window α where
  waiter := ⟨⟨none, fun _ => .suspended, fun _ => true⟩, none⟩
  target := none
  closed := false
  reader := .idle
  writer := .idle
  ret := none
  reads := 0
  writes := 0
  origin := 0
  accepted := []
  delivered := []

end Window

end Gthread

import Gthread.Lib.ByteMemory
import Gthread.Lib.Run
import Gthread.Sched.Task

/-! The two assembly functions that switch contexts, over registers and byte memory. -/

namespace Gthread.Arch

open ByteMemory
open Function (update)

/-- The value of a register. -/
abbrev Word := BitVec 64

/-- The registers that the two functions read or write. -/
inductive Reg where
  | rbx
  | rsp
  | rbp
  | r12
  | r13
  | r14
  | r15
  | rdi
  | rsi
  | rdx
  | rcx
  deriving DecidableEq, Repr

/-- A processor and its memory. -/
structure Machine where
  reg : Reg → Word
  rip : Word
  zf : Bool
  mem : Memory

/-- The instructions of `switch_to.s`, with operands in the order of the source. -/
inductive Instr where
  | test (a b : Reg)
  -- The target is a position in the function.
  | jz (target : Nat)
  | store (src : Reg) (offset : Nat) (base : Reg)
  | load (offset : Nat) (base dst : Reg)
  | lea (offset : Word) (base dst : Reg)
  | movImm (value : Word) (dst : Reg)
  | storeImm (value : Word) (base : Reg)
  | mov (src dst : Reg)
  | jmp (target : Reg)
  | ret
  deriving DecidableEq, Repr

/-- Where control is after an instruction. -/
inductive Next where
  | fall (m : Machine)
  | jump (target : Nat) (m : Machine)
  -- Outside the function, at the address in `rip`.
  | leave (m : Machine)

/-- The address `offset(%base)`. -/
def Machine.address (m : Machine) (offset : Nat) (base : Reg) : Word :=
  m.reg base + BitVec.ofNat 64 offset

/-- Write a register. -/
def Machine.set (m : Machine) (r : Reg) (v : Word) : Machine := { m with reg := update m.reg r v }

/-- Execute one instruction. -/
def Instr.exec (m : Machine) : Instr → Next
  | .test a b => .fall { m with zf := m.reg a &&& m.reg b = 0 }
  | .jz target => if m.zf then .jump target m else .fall m
  | .store src offset base =>
    .fall { m with mem := ByteMemory.store m.mem (m.address offset base) (n := 8) (m.reg src) }
  | .load offset base dst => .fall (m.set dst (ByteMemory.load m.mem (m.address offset base) 8))
  | .lea offset base dst => .fall (m.set dst (m.reg base + offset))
  | .movImm value dst => .fall (m.set dst value)
  | .storeImm value base =>
    .fall { m with mem := ByteMemory.store m.mem (m.reg base) (n := 8) value }
  | .mov src dst => .fall (m.set dst (m.reg src))
  | .jmp target => .leave { m with rip := m.reg target }
  | .ret =>
    .leave { m.set .rsp (m.reg .rsp + 8) with rip := ByteMemory.load m.mem (m.reg .rsp) 8 }

/-- Execute a function from a position on until control leaves it. -/
def run (code : List Instr) : Nat → Nat → Machine → Option Machine
  | 0, _, _ => none
  | fuel + 1, i, m =>
    match code[i]? with
    | none => none
    | some instr =>
      match instr.exec m with
      | .fall m => run code fuel (i + 1) m
      | .jump target m => run code fuel target m
      | .leave m => some m

/-- `gthread_switch_to`; the label `1:` is position 9. -/
def gthreadSwitchTo : List Instr :=
  [.test .rdi .rdi,
    .jz 9,
    .store .rbx 0x00 .rdi,
    .store .rsp 0x08 .rdi,
    .store .rbp 0x10 .rdi,
    .store .r12 0x18 .rdi,
    .store .r13 0x20 .rdi,
    .store .r14 0x28 .rdi,
    .store .r15 0x30 .rdi,
    .load 0x00 .rsi .rbx,
    .load 0x08 .rsi .rsp,
    .load 0x10 .rsi .rbp,
    .load 0x18 .rsi .r12,
    .load 0x20 .rsi .r13,
    .load 0x28 .rsi .r14,
    .load 0x30 .rsi .r15,
    .ret]

/-- `gthread_switch_to_and_spawn`; the label `1:` is position 9. -/
def gthreadSwitchToAndSpawn : List Instr :=
  [.test .rdi .rdi,
    .jz 9,
    .store .rbx 0x00 .rdi,
    .store .rsp 0x08 .rdi,
    .store .rbp 0x10 .rdi,
    .store .r12 0x18 .rdi,
    .store .r13 0x20 .rdi,
    .store .r14 0x28 .rdi,
    .store .r15 0x30 .rdi,
    .lea (-8) .rsi .rsp,
    .movImm 0 .rbp,
    .storeImm 0 .rsp,
    .mov .rcx .rdi,
    .jmp .rdx]

/-- A `call` pushes the return address; the functions are at most 17 instructions long. -/
def Machine.call (m : Machine) (code : List Instr) (ret : Word) : Option Machine :=
  let rsp := m.reg .rsp - 8
  run code 17 0 { m.set .rsp rsp with mem := store m.mem rsp (n := 8) ret }

/-- What a context expects to find when it is resumed: its registers before the call. -/
structure Snapshot where
  reg : Reg → Word
  ret : Word

/-- The registers a function must preserve. -/
def calleeSaved : List Reg := [.rbx, .rbp, .r12, .r13, .r14, .r15]

/-- The machine is where a context left off. -/
structure Machine.Resumes (m : Machine) (snap : Snapshot) : Prop where
  registers : ∀ r ∈ calleeSaved, m.reg r = snap.reg r
  rsp : m.reg .rsp = snap.reg .rsp
  rip : m.rip = snap.ret

/-- Contexts that share a processor; the snapshots are history that no code reads. -/
structure World (ι : Type) where
  machine : Machine
  running : ι
  -- The contexts that are saved and may be resumed.
  saved : ι → Option Snapshot

/-- What the running context does next. -/
inductive WorldLabel (ι : Type) where
  -- Any computation of its own, which leads to some machine state.
  | compute (m : Machine)
  -- `gthread_switch_to`, with its own area or null as `from`, to be returned from at an address.
  | switchTo (null : Bool) (j : ι) (ret : Word)
  -- `gthread_switch_to_and_spawn` of a new context.
  | spawn (null : Bool) (j : ι) (stack entry arg ret : Word)

namespace World

variable {ι : Type} [DecidableEq ι] (area : ι → Word)

/-- The first argument: the running context's own area, or null. -/
def fromArea (w : World ι) (null : Bool) : Word := if null then 0 else area w.running

/-- The snapshots after the running context has left for another one. -/
def left (w : World ι) (null : Bool) (j : ι) (ret : Word) : ι → Option Snapshot :=
  update (update w.saved w.running (if null then none else some ⟨w.machine.reg, ret⟩)) j none

/-- One step, in which the calls execute the code. -/
def step (w : World ι) : WorldLabel ι → Except Fault (World ι)
  | .compute m => .ok { w with machine := m }
  | .switchTo null j ret =>
    let m := (w.machine.set .rdi (w.fromArea area null)).set .rsi (area j)
    match m.call gthreadSwitchTo ret with
    | some m => .ok ⟨m, j, w.left null j ret⟩
    | none => .error .undefined
  | .spawn null j stack entry arg ret =>
    let m := (((w.machine.set .rdi (w.fromArea area null)).set .rsi stack).set .rdx entry).set
      .rcx arg
    match m.call gthreadSwitchToAndSpawn ret with
    | some m => .ok ⟨m, j, w.left null j ret⟩
    | none => .error .undefined

/-- Eight bytes that no save area and no return address of a saved context overlaps. -/
structure Clear (w : World ι) (slot : Word) : Prop where
  areas : ∀ k, Apart slot 8 (area k) 56
  frames : ∀ k snap, w.saved k = some snap → Apart slot 8 (snap.reg .rsp - 8) 8

/-- What the contexts respect of one another. -/
def Admits (w : World ι) : WorldLabel ι → Prop
  | .compute m => ∀ k snap, w.saved k = some snap →
    (∀ i, i < 56 →
      m.mem (area k + BitVec.ofNat 64 i) = w.machine.mem (area k + BitVec.ofNat 64 i)) ∧
    ∀ i, i < 8 → m.mem (snap.reg .rsp - 8 + BitVec.ofNat 64 i) =
      w.machine.mem (snap.reg .rsp - 8 + BitVec.ofNat 64 i)
  -- The target was saved, or is the running context that saves itself.
  | .switchTo null j _ => ((w.saved j).isSome ∨ (j = w.running ∧ null = false)) ∧
    w.Clear area (w.machine.reg .rsp - 8)
  -- The new stack is not in use.
  | .spawn null j stack _ _ _ => j ≠ w.running ∧ w.saved j = none ∧
    w.Clear area (w.machine.reg .rsp - 8) ∧ w.Clear area (stack - 8) ∧
    (null = false → Apart (stack - 8) 8 (w.machine.reg .rsp - 8) 8)

end World

/-- Save areas of 56 bytes that are not null and do not overlap. -/
structure Areas {ι : Type} (area : ι → Word) : Prop where
  nonnull : ∀ i, area i ≠ 0
  apart : ∀ i j, i ≠ j → Apart (area i) 56 (area j) 56

end Gthread.Arch

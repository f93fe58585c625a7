import Gthread.Concur.Gate
import Gthread.Concur.RingBufferSteps
import Gthread.Concur.ChannelWindowSteps

/-! Closing a channel strands nobody, for the buffer and for the window. -/

namespace Gthread

open Function (update update_of_ne update_self)

variable {α : Type} {size : RingSize}

/-- How far the reading task has got in `ring_buffer::close`. -/
def ReadPc.phase : ReadPc α → ClosePhase
  | .close => .storing
  | .closeDrain _ => .draining
  | _ => .outside

/-- How far the writing task has got in `ring_buffer::close`. -/
def WritePc.phase : WritePc α → ClosePhase
  | .close => .storing
  | .closeDrain _ => .draining
  | _ => .outside

/-- How far a task has got in `channel_window::close`. -/
def ClosePc.phase : ClosePc → ClosePhase
  | .store => .storing
  | .clear | .drain _ => .draining

/-- How far the reading task has got in `channel_window::close`. -/
def WindowReadPc.phase : WindowReadPc → ClosePhase
  | .close pc => pc.phase
  | _ => .outside

/-- How far the writing task has got in `channel_window::close`. -/
def WindowWritePc.phase : WindowWritePc α → ClosePhase
  | .close pc => pc.phase
  | _ => .outside

namespace Ring

variable {s s' : Ring α} {l : ChannelLabel α}

/-- The buffer as `close` sees it. -/
def gate (s : Ring α) : Gate where
  waiter := s.waiter
  closed := s.closed
  role := s.role
  phase
    | .reader => s.reader.phase
    | .writer => s.writer.phase

/-- `close` calls no member function of the waiter but `unpark`. -/
theorem Formed.inside (formed : s.Formed size) (p : Party) (closing : s.gate.phase p ≠ .outside)
    (pc : WaiterPc Party) (at_ : s.gate.role p = some pc) : pc.member = .unpark := by
  cases p with
  | reader =>
    have reader := formed.reader
    simp only [gate, role] at closing at_
    cases here : s.reader with
    | closeDrain inner =>
      rw [here] at reader at_
      exact reader pc at_
    | _ => simp_all [ReadPc.phase, ReadPc.role]
  | writer =>
    have writer := formed.writer
    simp only [gate, role] at closing at_
    cases here : s.writer with
    | closeDrain inner =>
      rw [here] at writer at_
      exact writer pc at_
    | _ => simp_all [WritePc.phase, WritePc.role]

/-- A statement of the reader advances it in `close`. -/
theorem Reads.advances (formed : s.Formed size) (reads : Reads size s s') :
    Gate.Advances .reader s.gate s'.gate := by
  have inside := formed.reader
  cases reads with
  | loadR at_ => exact .stays (by simp only [gate, at_]; rfl) rfl
  | empty at_ none_ => exact .stays (by simp only [gate, at_]; rfl) rfl
  | ready at_ some_ => exact .stays (by simp only [gate, at_]; rfl) rfl
  | parks at_ ok => exact .stays (by simp only [gate, at_]; rfl) rfl
  | @parked r w pc loadedClosed result waiter at_ ok =>
    refine .stays ?_ rfl
    simp only [gate, at_]
    cases loadedClosed <;> rfl
  | take at_ found => exact .stays (by simp only [gate, at_]; rfl) rfl
  | storeR at_ => exact .stays (by simp only [gate, at_]; rfl) rfl
  | drains at_ ok => exact .stays (by simp only [gate, at_]; rfl) rfl
  | drained at_ ok => exact .stays (by simp only [gate, at_]; rfl) rfl
  | ret at_ => exact .stays (by simp only [gate, at_]; rfl) rfl
  | close at_ => exact .stores rfl rfl
  | closeDrains at_ ok => exact .stays (by simp only [gate, at_]; rfl) rfl
  | @closeDrained pc waiter at_ ok =>
    rw [at_] at inside
    have here : s.role .reader = pc.inside := by simp only [Ring.role, at_]; rfl
    exact .ends (by simp only [gate, at_]; rfl) rfl rfl rfl (formed.waiter.drained here inside ok)

/-- A statement of the writer advances it in `close`. -/
theorem Writes.advances (formed : s.Formed size) (writes : Writes size s s') :
    Gate.Advances .writer s.gate s'.gate := by
  have inside := formed.writer
  cases writes with
  | refused at_ closed => exact .stays (by simp only [gate, at_]; rfl) rfl
  | opened at_ open_ => exact .stays (by simp only [gate, at_]; rfl) rfl
  | loadW at_ => exact .stays (by simp only [gate, at_]; rfl) rfl
  | full at_ full_ => exact .stays (by simp only [gate, at_]; rfl) rfl
  | room at_ room_ => exact .stays (by simp only [gate, at_]; rfl) rfl
  | parks at_ ok => exact .stays (by simp only [gate, at_]; rfl) rfl
  | @parked v w r pc loadedClosed result waiter at_ ok =>
    refine .stays ?_ rfl
    simp only [gate, at_]
    cases loadedClosed <;> rfl
  | put at_ => exact .stays (by simp only [gate, at_]; rfl) rfl
  | storeW at_ => exact .stays (by simp only [gate, at_]; rfl) rfl
  | drains at_ ok => exact .stays (by simp only [gate, at_]; rfl) rfl
  | drained at_ ok => exact .stays (by simp only [gate, at_]; rfl) rfl
  | ret at_ => exact .stays (by simp only [gate, at_]; rfl) rfl
  | close at_ => exact .stores rfl rfl
  | closeDrains at_ ok => exact .stays (by simp only [gate, at_]; rfl) rfl
  | @closeDrained pc waiter at_ ok =>
    rw [at_] at inside
    have here : s.role .writer = pc.inside := by simp only [Ring.role, at_]; rfl
    exact .ends (by simp only [gate, at_]; rfl) rfl rfl rfl (formed.waiter.drained here inside ok)

/-- Every step of the buffer is a step of its gate. -/
theorem Formed.gate_steps (formed : s.Formed size) (steps : Steps size s l s') :
    s.gate.Steps s'.gate := by
  have inside := (formed.step steps).inside
  cases steps with
  | reads running reads =>
    exact .moves running (reads.moves formed) reads.role (by cases reads <;> rfl) (inside .reader)
      (reads.advances formed)
  | writes running writes =>
    exact .moves running (writes.moves formed) writes.role (by cases writes <;> rfl)
      (inside .writer) (writes.advances formed)
  | preempt running => exact .preempt running
  | dispatch idle queued => exact .dispatch idle queued
  | read running at_ =>
    have out : s.gate.role .reader = none := by simp only [gate, role, at_]; rfl
    exact .moves (p := .reader) running (.enter out rfl rfl) (role_reader s _) rfl
      (inside .reader) (.stays (by simp only [gate, at_]; rfl) rfl)
  | write running at_ =>
    have out : s.gate.role .writer = none := by simp only [gate, role, at_]; rfl
    exact .moves (p := .writer) running (.enter out rfl rfl) (role_writer s _) rfl
      (inside .writer) (.stays (by simp only [gate, at_]; rfl) rfl)
  | readerCloses running at_ =>
    have out : s.gate.role .reader = none := by simp only [gate, role, at_]; rfl
    exact .moves (p := .reader) running (.enter out rfl rfl) (role_reader s _) rfl
      (inside .reader) (.begins (by simp only [gate, at_]; rfl) rfl rfl)
  | writerCloses running at_ =>
    have out : s.gate.role .writer = none := by simp only [gate, role, at_]; rfl
    exact .moves (p := .writer) running (.enter out rfl rfl) (role_writer s _) rfl
      (inside .writer) (.begins (by simp only [gate, at_]; rfl) rfl rfl)

/-- Nobody retires from a new buffer. -/
theorem gate_start : (start : Ring α).gate.Inv := by
  have formed : (start : Ring α).Formed ⟨1, by decide, by decide⟩ := formed_start
  refine ⟨formed.waiter, ?_, ?_, nofun⟩
  · intro p within
    cases p <;> exact absurd rfl within
  · intro p draining
    cases p <;> cases draining

end Ring

/-- `channel_window::close` calls no member function of the waiter but `unpark`. -/
theorem ClosePc.Formed.inside {pc : ClosePc} (formed : pc.Formed) (inner : WaiterPc Party)
    (at_ : pc.role = some inner) : inner.member = .unpark := by
  cases pc with
  | drain pc => exact formed inner at_
  | store | clear => cases at_

namespace Window

variable {s s' : Window α} {l : ChannelLabel α} {p : Party}

/-- The window as `close` sees it. -/
def gate (s : Window α) : Gate where
  waiter := s.waiter
  closed := s.closed
  role := s.role
  phase
    | .reader => s.reader.phase
    | .writer => s.writer.phase

/-- A task in `close` is in no member function of the waiter but `unpark`. -/
theorem Formed.inside (formed : s.Formed) (p : Party) (closing : s.gate.phase p ≠ .outside)
    (pc : WaiterPc Party) (at_ : s.gate.role p = some pc) : pc.member = .unpark := by
  cases p with
  | reader =>
    have reader := formed.reader
    simp only [gate, role] at closing at_
    cases here : s.reader with
    | close inner =>
      rw [here] at reader at_
      exact ClosePc.Formed.inside reader pc at_
    | _ => simp_all [WindowReadPc.phase]
  | writer =>
    have writer := formed.writer
    simp only [gate, role] at closing at_
    cases here : s.writer with
    | close inner =>
      rw [here] at writer at_
      exact ClosePc.Formed.inside writer pc at_
    | _ => simp_all [WindowWritePc.phase]

/-- When the loop of `close` ends, the other task is not in the slot. -/
theorem Closes.drained_slot {pc : ClosePc} (inv : s.waiter.Inv s.role) (formed : pc.Formed)
    (at_ : s.role p = pc.role) (closes : Closes s p pc none s') :
    pc.phase = .draining ∧ s'.closed = s.closed ∧ s'.waiter.slot ≠ some p.other := by
  cases closes with
  | drained ok => exact ⟨rfl, rfl, inv.drained at_ formed ok⟩

/-- Until `close` returns, it stores and then stays in the loop. -/
theorem Closes.phase {pc pc' : ClosePc} (closes : Closes s p pc (some pc') s') :
    (pc'.phase = pc.phase ∧ s'.closed = s.closed) ∨ (pc'.phase = .draining ∧ s'.closed = true) := by
  cases closes with
  | store => exact .inr ⟨rfl, rfl⟩
  | clear => exact .inl ⟨rfl, rfl⟩
  | drains ok => exact .inl ⟨rfl, rfl⟩

/-- A statement of the reader advances it in `close`. -/
theorem Reads.advances (formed : s.Formed) (reads : Reads s s') :
    Gate.Advances .reader s.gate s'.gate := by
  have inside := formed.reader
  cases reads with
  | @closes s' pc pc' at_ closes =>
    rcases closes.phase with ⟨phase, same⟩ | ⟨phase, closed⟩
    · exact .stays (by simp only [gate, at_]; exact phase) same
    · exact .stores phase closed
  | @closeReturns s' pc at_ closes =>
    rw [at_] at inside
    have here : s.role .reader = pc.role := by simp only [Window.role, at_]; rfl
    obtain ⟨phase, closed, off⟩ := closes.drained_slot formed.waiter inside here
    exact .ends (by simp only [gate, at_]; exact phase) rfl closed rfl off
  -- Outside `close` nothing is stored to `_closed`.
  | _ => exact .stays (by simp_all [gate, WindowReadPc.phase]) rfl

/-- A statement of the writer advances it in `close`. -/
theorem Writes.advances (formed : s.Formed) (writes : Writes s s') :
    Gate.Advances .writer s.gate s'.gate := by
  have inside := formed.writer
  cases writes with
  | @closes s' pc pc' at_ closes =>
    rcases closes.phase with ⟨phase, same⟩ | ⟨phase, closed⟩
    · exact .stays (by simp only [gate, at_]; exact phase) same
    · exact .stores phase closed
  | @closeReturns s' pc at_ closes =>
    rw [at_] at inside
    have here : s.role .writer = pc.role := by simp only [Window.role, at_]; rfl
    obtain ⟨phase, closed, off⟩ := closes.drained_slot formed.waiter inside here
    exact .ends (by simp only [gate, at_]; exact phase) rfl closed rfl off
  | _ => exact .stays (by simp_all [gate, WindowWritePc.phase]) rfl

/-- Every step of the window is a step of its gate. -/
theorem Formed.gate_steps (formed : s.Formed) (steps : Steps s l s') :
    s.gate.Steps s'.gate := by
  have inside := (formed.step steps).inside
  cases steps with
  | reads running reads =>
    have other := congrArg WindowWritePc.phase (reads.formed formed).2
    exact .moves running (reads.moves formed) (reads.role formed) other (inside .reader)
      (reads.advances formed)
  | writes running writes =>
    have other := congrArg WindowReadPc.phase (writes.formed formed).2
    exact .moves running (writes.moves formed) (writes.role formed) other (inside .writer)
      (writes.advances formed)
  | preempt running => exact .preempt running
  | dispatch idle queued => exact .dispatch idle queued
  | read running at_ =>
    have out : s.gate.role .reader = none := by simp only [gate, role, at_]; rfl
    exact .moves (p := .reader) running (.enter out rfl rfl) (role_reader s _) rfl
      (inside .reader) (.stays (by simp only [gate, at_]; rfl) rfl)
  | write running at_ =>
    have out : s.gate.role .writer = none := by simp only [gate, role, at_]; rfl
    exact .moves (p := .writer) running (.enter out rfl rfl) (role_writer s _) rfl
      (inside .writer) (.stays (by simp only [gate, at_]; rfl) rfl)
  | readerCloses running at_ =>
    have out : s.gate.role .reader = none := by simp only [gate, role, at_]; rfl
    exact .moves (p := .reader) running (.enter out rfl rfl) (role_reader s _) rfl
      (inside .reader) (.begins (by simp only [gate, at_]; rfl) rfl rfl)
  | writerCloses running at_ =>
    have out : s.gate.role .writer = none := by simp only [gate, role, at_]; rfl
    exact .moves (p := .writer) running (.enter out rfl rfl) (role_writer s _) rfl
      (inside .writer) (.begins (by simp only [gate, at_]; rfl) rfl rfl)

/-- Nobody retires from a new window. -/
theorem gate_start : (start : Window α).gate.Inv := by
  refine ⟨formed_start.waiter, ?_, ?_, nofun⟩
  · intro p within
    cases p <;> exact absurd rfl within
  · intro p draining
    cases p <;> cases draining

end Window

/-- After `close` has returned, neither task of a buffer or of a window is ever suspended. -/
theorem unstranded (size : RingSize) :
    Gate.Unstranded (Ring.step (α := α) size) Ring.start Ring.gate ∧
      Gate.Unstranded (Window.step (α := α)) Window.start Window.gate := by
  constructor
  · exact Gate.unstranded_of_steps (F := Ring.Formed size) Ring.formed_start Ring.gate_start
      (fun s l s' formed ok => formed.step (Ring.steps_of_ok ok))
      (fun s l s' formed ok => formed.gate_steps (Ring.steps_of_ok ok))
  · exact Gate.unstranded_of_steps (F := Window.Formed) Window.formed_start Window.gate_start
      (fun s l s' formed ok => formed.step (Window.steps_of_ok ok))
      (fun s l s' formed ok => formed.gate_steps (Window.steps_of_ok ok))

/-- The reader parks on an empty buffer, and the writer closes it up to the last statement. -/
def parkedThenClosed : List (ChannelLabel Nat) :=
  List.flatten [[.dispatch .reader, .read], List.replicate 6 .run,
    [.dispatch .writer, .close .writer], List.replicate 5 .run]

/-- Whether the next statement is the last one of the writer's `close`. -/
def Ring.closesNext (size : RingSize) (s : Ring Nat) : Bool :=
  match s.step size .run with
  | .ok s' => s'.writer.phase = .outside
  | .error _ => false

/-- A parked reader is ready once the writer's `close` has returned. -/
theorem unstranded_parked_reader :
    ∃ s s' : Ring Nat, s.waiter.cpu.state .reader = .waiting ∧
      s.step ⟨1, by decide, by decide⟩ .run = .ok s' ∧ s'.gate.Ready := by
  have closing : ∃ s : Ring Nat, Run.Reaches (Ring.step ⟨1, by decide, by decide⟩)
      (fun _ _ => True) Ring.start s ∧ s.waiter.cpu.state .reader = .waiting ∧
      s.writer.phase = .draining ∧ s.closesNext ⟨1, by decide, by decide⟩ = true :=
    Run.Reaches.of_check parkedThenClosed (by decide +kernel)
  obtain ⟨s, reached, parked, inside, next⟩ := closing
  unfold Ring.closesNext at next
  split at next
  · rename_i s' ok
    have out : s'.gate.phase .writer = .outside := of_decide_eq_true next
    have within : s.gate.phase .writer ≠ .outside := fun same => by
      cases inside.symm.trans same
    exact ⟨s, s', parked, ok, (unstranded _).1 .writer .run s s' s' reached within ok out .refl⟩
  · cases next

end Gthread

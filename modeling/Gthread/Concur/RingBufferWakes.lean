import Gthread.Concur.RingBufferSteps

/-! No wake-up is lost in a ring buffer, unless a task claims the slot on stale news. -/

namespace Gthread

open Function (update update_of_ne update_self)

variable {α : Type} {size : RingSize}

namespace Ring

variable {s s' : Ring α} {l : ChannelLabel α}

/-- A task waits in the slot. -/
def Parked (s : Ring α) (p : Party) : Prop :=
  s.waiter.slot = some p ∧ s.waiter.cpu.state p = .waiting

/-- No wake-up is lost: a parked task has nothing to do, or is about to be unparked. -/
structure Awakens (size : RingSize) (s : Ring α) : Prop where
  reader : s.Parked .reader → s.w - s.r = 0 ∨ s.writer.waking = true
  writer : s.Parked .writer → s.w - s.r = size.value ∨ s.reader.waking = true
  -- Hence the other task does not spin for ever: its next load ends its loop.
  writerServed : s.Parked .reader → s.writer.spins = true → s.w - s.r ≠ size.value
  readerServed : s.Parked .writer → s.reader.spins = true → s.w - s.r ≠ 0

/-- A task that claims the slot does so on fresh news, or while the other one looks for it. -/
def fresh (s : Ring α) : ChannelLabel α → Bool
  | .run =>
    match s.waiter.cpu.running, s.reader, s.writer with
    | some .reader, .park _ w .claim _, _ => s.waiter.slot ≠ none || s.w = w || s.writer.waking
    | some .writer, _, .park _ _ r .claim _ => s.waiter.slot ≠ none || s.r = r || s.reader.waking
    | _, _, _ => true
  | _ => true

/-- Whoever stands in the slot has nothing to do, or is about to be unparked. -/
structure Signalled (size : RingSize) (s : Ring α) : Prop where
  reader : s.waiter.slot = some .reader → s.w = s.r ∨ s.writer.waking = true
  writer : s.waiter.slot = some .writer → s.w - s.r = size.value ∨ s.reader.waking = true

/-- A statement of the reader loses no wake-up. -/
theorem Signalled.reads (signalled : s.Signalled size) (formed : s.Formed size)
    (running : s.waiter.cpu.running = some .reader) (fresh : s.fresh .run = true)
    (reads : Reads size s s') : s'.Signalled size := by
  obtain ⟨reader, writer⟩ := signalled
  -- Outside its unpark loop the reader has nothing to look for.
  have idle : s.reader.waking = false → s.waiter.slot = some .writer → s.w - s.r = size.value := by
    intro awake stands
    rcases writer stands with full | waking
    · exact full
    · rw [awake] at waking
      cases waking
  cases reads with
  | loadR at_ => exact ⟨reader, fun stands => .inl (idle (by rw [at_]; rfl) stands)⟩
  | empty at_ none_ => exact ⟨reader, fun stands => .inl (idle (by rw [at_]; rfl) stands)⟩
  | ready at_ some_ => exact ⟨reader, fun stands => .inl (idle (by rw [at_]; rfl) stands)⟩
  | @parks r w pc pc' loadedClosed waiter at_ ok =>
    have inside := formed.reader
    rw [at_] at inside
    obtain rfl := formed.loaded.readerCounter r (by rw [at_]; rfl)
    rcases Waiter.park_slot inside.1 ok with kept | ⟨rfl, empty, -, own⟩
    · exact ⟨fun stands => reader (Waiter.slot_of_kept kept stands),
        fun stands => .inl (idle (by rw [at_]; rfl) (Waiter.slot_of_kept kept stands))⟩
    · refine ⟨fun _ => ?_, fun stands => ?_⟩
      · -- The claim is made on a fresh reading of `_w`, or the writer still looks at the slot.
        simp only [Ring.fresh, running, at_, empty, inside.2] at fresh
        simpa using fresh
      · rw [own] at stands
        cases stands
  | @parked r w pc loadedClosed result waiter at_ ok =>
    have inside := formed.reader
    rw [at_] at inside
    rcases Waiter.park_slot inside.1 ok with kept | ⟨-, -, goes, -⟩
    · exact ⟨fun stands => reader (Waiter.slot_of_kept kept stands),
        fun stands => .inl (idle (by rw [at_]; rfl) (Waiter.slot_of_kept kept stands))⟩
    · cases goes
  | take at_ found => exact ⟨reader, fun stands => .inl (idle (by rw [at_]; rfl) stands)⟩
  | storeR at_ =>
    have out : s.role .reader = none := by simp only [role, at_]; rfl
    have awake := formed.waiter.awake running (by simp [out])
    refine ⟨fun stands => ?_, fun _ => .inr rfl⟩
    have claimed := awake.slot.mp stands
    simp [out, Waiter.claims] at claimed
  | @drains v pc pc' waiter at_ ok =>
    have inside := formed.reader
    rw [at_] at inside
    have kept := (Waiter.drain_slot inside ok).1
    exact ⟨fun stands => reader (Waiter.slot_of_kept kept stands), fun _ => .inr rfl⟩
  | @drained v pc waiter at_ ok =>
    have inside := formed.reader
    rw [at_] at inside
    have kept := (Waiter.drain_slot inside ok).1
    have here : s.role .reader = pc.inside := by simp only [role, at_]; rfl
    have gone := formed.waiter.drained here inside ok
    exact ⟨fun stands => reader (Waiter.slot_of_kept kept stands), fun stands => absurd stands gone⟩
  | ret at_ => exact ⟨reader, fun stands => .inl (idle (by rw [at_]; rfl) stands)⟩
  | close at_ => exact ⟨reader, fun stands => .inl (idle (by rw [at_]; rfl) stands)⟩
  | @closeDrains pc pc' waiter at_ ok =>
    have inside := formed.reader
    rw [at_] at inside
    have kept := (Waiter.drain_slot inside ok).1
    exact ⟨fun stands => reader (Waiter.slot_of_kept kept stands),
      fun stands => .inl (idle (by rw [at_]; rfl) (Waiter.slot_of_kept kept stands))⟩
  | @closeDrained pc waiter at_ ok =>
    have inside := formed.reader
    rw [at_] at inside
    have kept := (Waiter.drain_slot inside ok).1
    exact ⟨fun stands => reader (Waiter.slot_of_kept kept stands),
      fun stands => .inl (idle (by rw [at_]; rfl) (Waiter.slot_of_kept kept stands))⟩

/-- A statement of the writer loses no wake-up. -/
theorem Signalled.writes (signalled : s.Signalled size) (formed : s.Formed size)
    (running : s.waiter.cpu.running = some .writer) (fresh : s.fresh .run = true)
    (writes : Writes size s s') : s'.Signalled size := by
  obtain ⟨reader, writer⟩ := signalled
  have idle : s.writer.waking = false → s.waiter.slot = some .reader → s.w = s.r := by
    intro awake stands
    rcases reader stands with empty | waking
    · exact empty
    · rw [awake] at waking
      cases waking
  have inside := formed.writer
  cases writes with
  | refused at_ closed => exact ⟨fun stands => .inl (idle (by rw [at_]; rfl) stands), writer⟩
  | opened at_ open_ => exact ⟨fun stands => .inl (idle (by rw [at_]; rfl) stands), writer⟩
  | loadW at_ => exact ⟨fun stands => .inl (idle (by rw [at_]; rfl) stands), writer⟩
  | full at_ full_ => exact ⟨fun stands => .inl (idle (by rw [at_]; rfl) stands), writer⟩
  | room at_ room_ => exact ⟨fun stands => .inl (idle (by rw [at_]; rfl) stands), writer⟩
  | @parks v w r pc pc' loadedClosed waiter at_ ok =>
    rw [at_] at inside
    obtain rfl := formed.loaded.writerCounter w (by rw [at_]; rfl)
    rcases Waiter.park_slot inside.1 ok with kept | ⟨rfl, empty, -, own⟩
    · exact ⟨fun stands => .inl (idle (by rw [at_]; rfl) (Waiter.slot_of_kept kept stands)),
        fun stands => writer (Waiter.slot_of_kept kept stands)⟩
    · refine ⟨fun stands => ?_, fun _ => ?_⟩
      · rw [own] at stands
        cases stands
      · -- The claim is made on a fresh reading of `_r`, or the reader still looks at the slot.
        simp only [Ring.fresh, running, at_, empty] at fresh
        have news : s.r = r ∨ s.reader.waking = true := by simpa using fresh
        rcases news with same | waking
        · exact .inl (by rw [same]; exact inside.2)
        · exact .inr waking
  | @parked v w r pc loadedClosed result waiter at_ ok =>
    rw [at_] at inside
    rcases Waiter.park_slot inside.1 ok with kept | ⟨-, -, goes, -⟩
    · exact ⟨fun stands => .inl (idle (by rw [at_]; rfl) (Waiter.slot_of_kept kept stands)),
        fun stands => writer (Waiter.slot_of_kept kept stands)⟩
    · cases goes
  | put at_ => exact ⟨fun stands => .inl (idle (by rw [at_]; rfl) stands), writer⟩
  | storeW at_ =>
    have out : s.role .writer = none := by simp only [role, at_]; rfl
    have awake := formed.waiter.awake running (by simp [out])
    refine ⟨fun _ => .inr rfl, fun stands => ?_⟩
    have claimed := awake.slot.mp stands
    simp [out, Waiter.claims] at claimed
  | @drains v pc pc' waiter at_ ok =>
    rw [at_] at inside
    have kept := (Waiter.drain_slot inside ok).1
    exact ⟨fun _ => .inr rfl, fun stands => writer (Waiter.slot_of_kept kept stands)⟩
  | @drained v pc waiter at_ ok =>
    rw [at_] at inside
    have kept := (Waiter.drain_slot inside ok).1
    have here : s.role .writer = pc.inside := by simp only [role, at_]; rfl
    have gone := formed.waiter.drained here inside ok
    exact ⟨fun stands => absurd stands gone, fun stands => writer (Waiter.slot_of_kept kept stands)⟩
  | ret at_ => exact ⟨fun stands => .inl (idle (by rw [at_]; rfl) stands), writer⟩
  | close at_ => exact ⟨fun stands => .inl (idle (by rw [at_]; rfl) stands), writer⟩
  | @closeDrains pc pc' waiter at_ ok =>
    rw [at_] at inside
    have kept := (Waiter.drain_slot inside ok).1
    exact ⟨fun stands => .inl (idle (by rw [at_]; rfl) (Waiter.slot_of_kept kept stands)),
      fun stands => writer (Waiter.slot_of_kept kept stands)⟩
  | @closeDrained pc waiter at_ ok =>
    rw [at_] at inside
    have kept := (Waiter.drain_slot inside ok).1
    exact ⟨fun stands => .inl (idle (by rw [at_]; rfl) (Waiter.slot_of_kept kept stands)),
      fun stands => writer (Waiter.slot_of_kept kept stands)⟩

/-- Every step that claims on fresh news loses no wake-up. -/
theorem Signalled.step (signalled : s.Signalled size) (formed : s.Formed size)
    (fresh : s.fresh l = true) (steps : Steps size s l s') : s'.Signalled size := by
  have reader := signalled.reader
  have writer := signalled.writer
  cases steps with
  | reads running reads => exact signalled.reads formed running fresh reads
  | writes running writes => exact signalled.writes formed running fresh writes
  | preempt running => exact ⟨reader, writer⟩
  | dispatch idle queued => exact ⟨reader, writer⟩
  | read running at_ =>
      exact ⟨reader, fun stands => by simpa [at_, ReadPc.waking] using writer stands⟩
  | write running at_ =>
    exact ⟨fun stands => by simpa [at_, WritePc.waking] using reader stands, writer⟩
  | readerCloses running at_ =>
    exact ⟨reader, fun stands => by simpa [at_, ReadPc.waking] using writer stands⟩
  | writerCloses running at_ =>
    exact ⟨fun stands => by simpa [at_, WritePc.waking] using reader stands, writer⟩

/-- In every run whose claims are made on fresh news, no wake-up is lost. -/
theorem awakens_of_fresh
    (reached : Run.Reaches (step size) (fun s l => s.fresh l = true) (start : Ring α) s) :
    s.Awakens size := by
  obtain ⟨formed, reader, writer⟩ : s.Formed size ∧ s.Signalled size := by
    refine reached.invariant (P := fun s => s.Formed size ∧ s.Signalled size) ?_ ?_
    · exact ⟨formed_start, by simp [start], by simp [start]⟩
    · rintro s l s' ⟨formed, signalled⟩ fresh ok
      have steps := steps_of_ok ok
      exact ⟨formed.step steps, signalled.step formed fresh steps⟩
  have positive : (0 : BitVec 64) ≠ size.value := size.nonzero.symm
  constructor
  · intro parked
    exact (reader parked.1).imp (fun same => by rw [same]; exact BitVec.sub_self _) id
  · exact fun parked => writer parked.1
  · intro parked spins
    rcases reader parked.1 with same | waking
    · rw [same, BitVec.sub_self]
      exact positive
    · cases at_ : s.writer <;> simp [at_, WritePc.waking, WritePc.spins] at waking spins
  · intro parked spins
    rcases writer parked.1 with full | waking
    · rw [full]
      exact size.nonzero
    · cases at_ : s.reader <;> simp [at_, ReadPc.waking, ReadPc.spins] at waking spins

/-- A buffer of four elements. -/
def four : RingSize := ⟨4, by decide, by decide⟩

/-- A read that parks, and a write that unparks it. -/
def parkedRead : List (ChannelLabel Nat) :=
  List.flatten [[.dispatch .reader, .read], List.replicate 6 .run, [.dispatch .writer, .write 7],
    List.replicate 11 .run]

/-- The reader parks on an empty buffer, and is unparked by the next write. -/
theorem awakens_of_fresh_write : ∃ s, Run.Reaches (step four) (fun s l => s.fresh l = true)
    (start : Ring Nat) s ∧ s.waiter.cpu.queued .reader = true ∧ s.accepted = [7] ∧
      s.Awakens four := by
  suffices run : ∃ s, Run.Reaches (step four) (fun s l => s.fresh l = true) (start : Ring Nat) s ∧
      s.waiter.cpu.queued .reader = true ∧ s.accepted = [7] by
    obtain ⟨s, reached, queued, accepted⟩ := run
    exact ⟨s, reached, queued, accepted, awakens_of_fresh reached⟩
  exact Run.Reaches.of_check parkedRead (by decide +kernel)

/-- The labels of a read that finds the buffer empty and is preempted before it claims the slot. -/
def staleRead : List (ChannelLabel Nat) := [.dispatch .reader, .read, .run, .run, .preempt]

/-- A write during the stale read, which then claims the slot. -/
def staleClaim : List (ChannelLabel Nat) :=
  List.flatten [staleRead, [.dispatch .writer, .write 7], List.replicate 7 .run,
    [.preempt, .dispatch .reader, .run, .run, .run]]

/-- A write between the reader's load of `_w` and its claim leaves the reader parked for good. -/
theorem stale_claim_sleeps : ∃ s, Run.Reaches (step four) (fun _ _ => True) (start : Ring Nat) s ∧
    s.closed = false ∧ s.accepted = [7] ∧ ¬ s.Awakens four := by
  suffices run : ∃ s, Run.Reaches (step four) (fun _ _ => True) (start : Ring Nat) s ∧
      s.closed = false ∧ s.accepted = [7] ∧ s.waiter.slot = some .reader ∧
      s.waiter.cpu.state .reader = .waiting ∧ s.w - s.r = 1 ∧ s.writer = .idle by
    obtain ⟨s, reached, open_, accepted, stands, waiting, size, idle⟩ := run
    refine ⟨s, reached, open_, accepted, fun awakens => ?_⟩
    rcases awakens.reader ⟨stands, waiting⟩ with empty | waking
    · rw [size] at empty
      exact absurd empty (by decide)
    · rw [idle] at waking
      cases waking
  exact Run.Reaches.of_check staleClaim (by decide +kernel)

end Ring

end Gthread

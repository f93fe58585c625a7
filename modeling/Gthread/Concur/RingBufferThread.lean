import Gthread.Concur.ClientChannel
import Gthread.Concur.Closing
import Gthread.Concur.RingBufferFifo

/-! The ring buffer on the kernel thread: its code runs there as on the abstract processor. -/

namespace Gthread

open Function (update update_eq_self_iff update_of_ne update_self)

/-- What a program calls; each task makes its own calls. -/
inductive RingCall (α : Type) where
  | read
  | write (v : α)
  | close
  deriving DecidableEq, Repr

namespace ReadPc

variable {α : Type}

/-- The statement that follows the loop that unparks in `read`, or the next one in it. -/
def drained (v : α) : Option (DrainPc Party) → ReadPc α
  | some pc => .drain v pc
  | none => .ret (some v)

/-- The same in `close`. -/
def closing : Option (DrainPc Party) → ReadPc α
  | some pc => .closeDrain pc
  | none => .idle

/-- The same statement, where the waiter's code is at the one it says. -/
def inner : ReadPc α → Option (WaiterId × WaiterPc Party) → ReadPc α
  | .park r w _ loadedClosed, some (_, pc) => .park r w pc loadedClosed
  | .drain v pc, place => .drain v (pc.inner place)
  | .closeDrain pc, place => .closeDrain (pc.inner place)
  | pc, _ => pc

/-- A call of the waiter is at its beginning. -/
def Begins : ReadPc α → Prop
  | .park _ _ pc _ => pc = .claim
  | .drain _ (.unpark pc) | .closeDrain (.unpark pc) => pc = .load
  | _ => True

/-- A reader outside the waiter is at its own statement. -/
theorem inner_none (pc : ReadPc α) : pc.inner none = pc := by
  cases pc with
  | drain v pc | closeDrain pc => cases pc <;> rfl
  | _ => rfl

end ReadPc

namespace WritePc

variable {α : Type}

/-- The statement that follows the loop that unparks in `write`, or the next one in it. -/
def drained (v : α) : Option (DrainPc Party) → WritePc α
  | some pc => .drain v pc
  | none => .ret v true

/-- The same in `close`. -/
def closing : Option (DrainPc Party) → WritePc α
  | some pc => .closeDrain pc
  | none => .idle

/-- The same statement, where the waiter's code is at the one it says. -/
def inner : WritePc α → Option (WaiterId × WaiterPc Party) → WritePc α
  | .park v w r _ loadedClosed, some (_, pc) => .park v w r pc loadedClosed
  | .drain v pc, place => .drain v (pc.inner place)
  | .closeDrain pc, place => .closeDrain (pc.inner place)
  | pc, _ => pc

/-- A call of the waiter is at its beginning. -/
def Begins : WritePc α → Prop
  | .park _ _ _ pc _ => pc = .claim
  | .drain _ (.unpark pc) | .closeDrain (.unpark pc) => pc = .load
  | _ => True

/-- A writer outside the waiter is at its own statement. -/
theorem inner_none (pc : WritePc α) : pc.inner none = pc := by
  cases pc with
  | drain v pc | closeDrain pc => cases pc <;> rfl
  | _ => rfl

end WritePc

namespace Ring

variable {α : Type}

/-- What a task does next. -/
def act (size : RingSize) (p : Party) (m : Ring α) : Act WaiterId (Ring α) :=
  match p with
  | .reader =>
    match m.reader with
    | .idle => .rests
    | .park _ _ _ _ => .calls stalled .parkIf
    | .drain v pc => .drains pc fun next => { m with reader := .drained v next }
    | .closeDrain pc => .drains pc fun next => { m with reader := .closing next }
    | _ => .of (m.runReader size)
  | .writer =>
    match m.writer with
    | .idle => .rests
    | .park _ _ _ _ _ => .calls stalled .parkIf
    | .drain v pc => .drains pc fun next => { m with writer := .drained v next }
    | .closeDrain pc => .drains pc fun next => { m with writer := .closing next }
    | _ => .of (m.runWriter size)

/-- The check of `park_if`, which keeps what it has loaded. -/
def check (p : Party) (m : Ring α) : Bool × Ring α :=
  match p with
  | .reader =>
    match m.reader with
    | .park r w pc _ => (!m.closed, { m with reader := .park r w pc m.closed })
    | _ => (!m.closed, m)
  | .writer =>
    match m.writer with
    | .park v w r pc _ => (!m.closed, { m with writer := .park v w r pc m.closed })
    | _ => (!m.closed, m)

/-- Where a task goes on after a call of the waiter. -/
def back (p : Party) (result : Bool) (m : Ring α) : Ring α :=
  match p with
  | .reader =>
    match m.reader with
    | .park r _ _ loadedClosed => { m with reader := if loadedClosed then .ret none else .loadW r }
    | .drain v _ => { m with reader := .drained v (DrainPc.after result) }
    | .closeDrain _ => { m with reader := .closing (DrainPc.after result) }
    | _ => m
  | .writer =>
    match m.writer with
    | .park v w _ _ loadedClosed =>
      { m with writer := if loadedClosed then .ret v false else .loadR v w }
    | .drain v _ => { m with writer := .drained v (DrainPc.after result) }
    | .closeDrain _ => { m with writer := .closing (DrainPc.after result) }
    | _ => m

/-- A call of the running task. -/
def begins (p : Party) (c : RingCall α) (m : Ring α) : Option (Ring α) :=
  match p, c, m.reader, m.writer with
  | .reader, .read, .idle, _ => some { m with reader := .loadR }
  | .reader, .close, .idle, _ => some { m with reader := .close }
  | .writer, .write v, _, .idle => some { m with writer := .checkClosed v }
  | .writer, .close, _, .idle => some { m with writer := .close }
  | _, _, _, _ => none

/-- The code of a ring buffer; `waiter` and the statements inside it are not its own. -/
def client (size : RingSize) : Client WaiterId Party (RingCall α) (Ring α) where
  act := act size
  check := check
  back := back
  call := begins

/-- The ring buffer with its waiter and its processor. -/
def whole (s : Client.State WaiterId Party (Ring α)) : Ring α :=
  { s.memory with
    waiter := s.waiter
    reader := s.memory.reader.inner (s.role .reader)
    writer := s.memory.writer.inner (s.role .writer) }

/-- Tasks are inside the waiter exactly during the calls of the buffer. -/
structure Placed (s : Client.State WaiterId Party (Ring α)) : Prop where
  inside : ∀ p n pc, s.role p = some (n, pc) → n = stalled ∧ s.memory.role p ≠ none
  reader : s.memory.reader.Begins
  writer : s.memory.writer.Begins

variable {size : RingSize} {s s' : Client.State WaiterId Party (Ring α)} {p : Party}
  {m m' : Ring α} {n : WaiterId}

/-- Where the reader goes on, it does so in the whole. -/
theorem whole_reader (lot : Lot WaiterId Party) (place : Option (WaiterId × WaiterPc Party))
    (m : Ring α) (pc : ReadPc α) :
    whole ⟨lot, update s.role .reader place, { m with reader := pc }⟩ =
      { whole ⟨lot, s.role, m⟩ with reader := pc.inner place } := by
  simp [whole, Client.State.waiter]

/-- Where the writer goes on, it does so in the whole. -/
theorem whole_writer (lot : Lot WaiterId Party) (place : Option (WaiterId × WaiterPc Party))
    (m : Ring α) (pc : WritePc α) :
    whole ⟨lot, update s.role .writer place, { m with writer := pc }⟩ =
      { whole ⟨lot, s.role, m⟩ with writer := pc.inner place } := by
  simp [whole, Client.State.waiter]

/-- An access of the reader to the memory is the same one in the whole. -/
theorem reader_moves (out : s.role .reader = none) (acts : act size .reader s.memory = .moves m') :
    (whole s).runReader size = .ok (whole { s with memory := m' }) := by
  have here : (whole s).reader = s.memory.reader.inner none := by rw [← out]; rfl
  rw [ReadPc.inner_none] at here
  cases at_ : s.memory.reader with
  | idle | park => simp [act, at_] at acts
  | drain v pc | closeDrain pc => cases pc <;> simp [act, at_, Act.drains] at acts
  | loadR | storeR r v | ret result | close | loadW r =>
    rw [at_] at here
    simp only [act, at_] at acts
    have ok := Act.of_moves acts
    simp only [runReader, at_, Except.ok.injEq] at ok
    rw [← ok]
    simp only [runReader, here]
    simp only [whole, Client.State.waiter, out, ReadPc.inner_none]
  | take r =>
    rw [at_] at here
    simp only [act, at_] at acts
    have ok := Act.of_moves acts
    simp only [runReader, at_] at ok
    split at ok
    · cases ok
    · rename_i v found
      have found_ : (whole s).buffer (r &&& size.mask) = some v := found
      simp only [Except.ok.injEq] at ok
      rw [← ok]
      simp only [runReader, here, found_]
      simp only [whole, Client.State.waiter, out, ReadPc.inner_none]

/-- An access of the writer to the memory is the same one in the whole. -/
theorem writer_moves (out : s.role .writer = none) (acts : act size .writer s.memory = .moves m') :
    (whole s).runWriter size = .ok (whole { s with memory := m' }) := by
  have here : (whole s).writer = s.memory.writer.inner none := by rw [← out]; rfl
  rw [WritePc.inner_none] at here
  cases at_ : s.memory.writer with
  | idle | park => simp [act, at_] at acts
  | drain v pc | closeDrain pc => cases pc <;> simp [act, at_, Act.drains] at acts
  | checkClosed v | loadW v | loadR v w | put v w | storeW v w | ret v accepted | close =>
    rw [at_] at here
    simp only [act, at_] at acts
    have ok := Act.of_moves acts
    simp only [runWriter, at_, Except.ok.injEq] at ok
    rw [← ok]
    simp only [runWriter, here]
    simp only [whole, Client.State.waiter, out, WritePc.inner_none]

/-- The call of `yield` in a loop of the reader that unparks is the same one in the whole. -/
theorem reader_yields (out : s.role .reader = none)
    (acts : act size .reader s.memory = .yields m') :
    (whole s).runReader size = .ok (whole { s with lot := s.lot.yield .reader, memory := m' }) := by
  have here : (whole s).reader = s.memory.reader.inner none := by rw [← out]; rfl
  rw [ReadPc.inner_none] at here
  cases at_ : s.memory.reader with
  | drain v pc | closeDrain pc =>
    rw [at_] at here
    cases pc with
    | again =>
      simp only [act, at_, Act.drains, Act.yields.injEq] at acts
      rw [← acts]
      simp only [runReader, here, Waiter.drain]
      simp only [whole, Client.State.waiter, out, ReadPc.inner_none]
      rfl
    | test | unpark => simp [act, at_, Act.drains] at acts
  | idle | park => simp [act, at_] at acts
  | _ =>
    simp only [act, at_] at acts
    exact absurd acts (Act.of_ne_yields _)

/-- So is that of the writer. -/
theorem writer_yields (out : s.role .writer = none)
    (acts : act size .writer s.memory = .yields m') :
    (whole s).runWriter size = .ok (whole { s with lot := s.lot.yield .writer, memory := m' }) := by
  have here : (whole s).writer = s.memory.writer.inner none := by rw [← out]; rfl
  rw [WritePc.inner_none] at here
  cases at_ : s.memory.writer with
  | drain v pc | closeDrain pc =>
    rw [at_] at here
    cases pc with
    | again =>
      simp only [act, at_, Act.drains, Act.yields.injEq] at acts
      rw [← acts]
      simp only [runWriter, here, Waiter.drain]
      simp only [whole, Client.State.waiter, out, WritePc.inner_none]
      rfl
    | test | unpark => simp [act, at_, Act.drains] at acts
  | idle | park => simp [act, at_] at acts
  | _ =>
    simp only [act, at_] at acts
    exact absurd acts (Act.of_ne_yields _)

/-- The test of the waiter in a loop of the reader is the same one in the whole. -/
theorem reader_tests {next : Bool → Ring α} (out : s.role .reader = none)
    (acts : act size .reader s.memory = .tests n next) : (whole s).runReader size =
      .ok (whole { s with memory := next (s.lot.slot n).isSome }) := by
  have here : (whole s).reader = s.memory.reader.inner none := by rw [← out]; rfl
  rw [ReadPc.inner_none] at here
  have tested : (whole s).waiter.drain .reader .test = _ := Client.State.waiter_test
  cases at_ : s.memory.reader with
  | drain v pc | closeDrain pc =>
    rw [at_] at here
    cases pc with
    | test =>
      simp only [act, at_, Act.drains, Act.tests.injEq] at acts
      obtain ⟨rfl, rfl⟩ := acts
      simp only [runReader, here, tested]
      cases (s.lot.slot stalled).isSome
      all_goals
        simp only [whole, Client.State.waiter, out, ReadPc.inner_none]
        rfl
    | again | unpark => simp [act, at_, Act.drains] at acts
  | idle | park => simp [act, at_] at acts
  | _ =>
    simp only [act, at_] at acts
    exact absurd acts (Act.of_ne_tests _ _ _)

/-- So is that of the writer. -/
theorem writer_tests {next : Bool → Ring α} (out : s.role .writer = none)
    (acts : act size .writer s.memory = .tests n next) : (whole s).runWriter size =
      .ok (whole { s with memory := next (s.lot.slot n).isSome }) := by
  have here : (whole s).writer = s.memory.writer.inner none := by rw [← out]; rfl
  rw [WritePc.inner_none] at here
  have tested : (whole s).waiter.drain .writer .test = _ := Client.State.waiter_test
  cases at_ : s.memory.writer with
  | drain v pc | closeDrain pc =>
    rw [at_] at here
    cases pc with
    | test =>
      simp only [act, at_, Act.drains, Act.tests.injEq] at acts
      obtain ⟨rfl, rfl⟩ := acts
      simp only [runWriter, here, tested]
      cases (s.lot.slot stalled).isSome
      all_goals
        simp only [whole, Client.State.waiter, out, WritePc.inner_none]
        rfl
    | again | unpark => simp [act, at_, Act.drains] at acts
  | idle | park => simp [act, at_] at acts
  | _ =>
    simp only [act, at_] at acts
    exact absurd acts (Act.of_ne_tests _ _ _)

/-- The whole is inside the waiter as soon as a call of it is reached. -/
theorem whole_calls {c : WaiterCall} (placed : Placed s) (out : s.role p = none)
    (acts : act size p s.memory = .calls n c) :
    whole { s with role := update s.role p (some (n, Kernel.beginning c)) } = whole s := by
  cases p with
  | reader =>
    have begins := placed.reader
    have same : s.memory.reader.inner (some (n, Kernel.beginning c)) = s.memory.reader := by
      cases at_ : s.memory.reader with
      | park r w pc loadedClosed =>
        rw [at_] at begins
        simp only [act, at_, Act.calls.injEq] at acts
        rw [begins, ← acts.2]
        rfl
      | drain v pc | closeDrain pc =>
        rw [at_] at begins
        cases pc with
        | unpark pc =>
          simp only [act, at_, Act.drains, Act.calls.injEq] at acts
          rw [begins, ← acts.2]
          rfl
        | test | again => simp [act, at_, Act.drains] at acts
      | idle => simp [act, at_] at acts
      | _ =>
        simp only [act, at_] at acts
        exact absurd acts (Act.of_ne_calls _ _ _)
    refine (whole_reader s.lot _ s.memory s.memory.reader).trans ?_
    simp only [whole, out, same, ReadPc.inner_none]
  | writer =>
    have begins := placed.writer
    have same : s.memory.writer.inner (some (n, Kernel.beginning c)) = s.memory.writer := by
      cases at_ : s.memory.writer with
      | park v w r pc loadedClosed =>
        rw [at_] at begins
        simp only [act, at_, Act.calls.injEq] at acts
        rw [begins, ← acts.2]
        rfl
      | drain v pc | closeDrain pc =>
        rw [at_] at begins
        cases pc with
        | unpark pc =>
          simp only [act, at_, Act.drains, Act.calls.injEq] at acts
          rw [begins, ← acts.2]
          rfl
        | test | again => simp [act, at_, Act.drains] at acts
      | idle => simp [act, at_] at acts
      | _ =>
        simp only [act, at_] at acts
        exact absurd acts (Act.of_ne_calls _ _ _)
    refine (whole_writer s.lot _ s.memory s.memory.writer).trans ?_
    simp only [whole, out, same, WritePc.inner_none]

/-- A statement of the reader inside the waiter is the same one in the whole. -/
theorem reader_waits {pc : WaiterPc Party} {holds : Bool} {kept : Ring α}
    {outcome : Outcome Party} {lot : Lot WaiterId Party} (inv : (whole s).Formed size)
    (placed : Placed s) (there : s.role .reader = some (n, pc))
    (checks : (client size).checked .reader pc s.memory = (holds, kept))
    (ok : s.lot.step .reader (!holds) n pc = .ok (outcome, lot)) :
    (whole s).runReader size = .ok (whole ⟨lot, update s.role .reader (outcome.pc.map (n, ·)),
      (client size).returned .reader outcome kept⟩) := by
  obtain ⟨rfl, called⟩ := placed.inside .reader n pc there
  have formed := inv.reader
  have here : (whole s).reader = s.memory.reader.inner (some (stalled, pc)) := by
    rw [← there]
    rfl
  have idle : pc ≠ .check → holds = true ∧ kept = s.memory := by
    intro elsewhere
    rw [Client.checked, if_neg elsewhere] at checks
    cases checks
    exact ⟨rfl, rfl⟩
  cases at_ : s.memory.reader with
  | park r w pc₀ loadedClosed =>
    rw [at_] at here
    -- The check keeps what it has loaded, and no other statement loads it.
    have loads : holds = (if pc = .check then !s.memory.closed else true) ∧
        kept = { s.memory with
          reader := .park r w pc₀ (if pc = .check then s.memory.closed else loadedClosed) } := by
      by_cases check : pc = .check
      · rw [Client.checked, if_pos check] at checks
        simp only [client, Ring.check, at_, Prod.mk.injEq] at checks
        rw [if_pos check, if_pos check]
        exact ⟨checks.1.symm, checks.2.symm⟩
      · rw [if_neg check, if_neg check, ← at_]
        exact idle check
    have stepped : (whole s).waiter.step .reader (whole s).closed pc = _ :=
      Client.State.waiter_checked loads.1 ok
    rw [loads.2]
    cases outcome with
    | goto pc' =>
      refine Eq.trans ?_ (congrArg Except.ok (whole_reader lot _ s.memory _).symm)
      simp only [runReader, here, ReadPc.inner, stepped]
      rfl
    | return_ result =>
      simp only [Client.returned, client, back]
      refine Eq.trans ?_ (congrArg Except.ok (whole_reader lot _ s.memory _).symm)
      simp only [runReader, here, ReadPc.inner, stepped]
      rw [show (whole s).closed = s.memory.closed from rfl]
      generalize (if pc = .check then s.memory.closed else loadedClosed) = loaded
      cases loaded <;> rfl
  | drain v pc₀ | closeDrain pc₀ =>
    rw [at_] at here
    rw [here] at formed
    cases pc₀ with
    | unpark pc₀ =>
      obtain ⟨rfl, rfl⟩ := idle (by
        rintro rfl
        cases formed _ rfl)
      have stepped : (whole s).waiter.drain .reader (.unpark pc) = _ :=
        Client.State.waiter_unpark ok
      cases outcome with
      | goto pc' =>
        refine Eq.trans ?_ (congrArg Except.ok (whole_reader lot _ s.memory s.memory.reader).symm)
        simp only [runReader, here, ReadPc.inner, DrainPc.inner, stepped, at_]
        rfl
      | return_ result =>
        simp only [Client.returned, client, back, at_]
        refine Eq.trans ?_ (congrArg Except.ok (whole_reader lot _ s.memory _).symm)
        simp only [runReader, here, ReadPc.inner, DrainPc.inner, stepped]
        cases result <;> rfl
    | test | again => exact absurd (by simp only [Ring.role, at_]; rfl) called
  | _ => exact absurd (by simp only [Ring.role, at_]; rfl) called

/-- A statement of the writer inside the waiter is the same one in the whole. -/
theorem writer_waits {pc : WaiterPc Party} {holds : Bool} {kept : Ring α}
    {outcome : Outcome Party} {lot : Lot WaiterId Party} (inv : (whole s).Formed size)
    (placed : Placed s) (there : s.role .writer = some (n, pc))
    (checks : (client size).checked .writer pc s.memory = (holds, kept))
    (ok : s.lot.step .writer (!holds) n pc = .ok (outcome, lot)) :
    (whole s).runWriter size = .ok (whole ⟨lot, update s.role .writer (outcome.pc.map (n, ·)),
      (client size).returned .writer outcome kept⟩) := by
  obtain ⟨rfl, called⟩ := placed.inside .writer n pc there
  have formed := inv.writer
  have here : (whole s).writer = s.memory.writer.inner (some (stalled, pc)) := by
    rw [← there]
    rfl
  have idle : pc ≠ .check → holds = true ∧ kept = s.memory := by
    intro elsewhere
    rw [Client.checked, if_neg elsewhere] at checks
    cases checks
    exact ⟨rfl, rfl⟩
  cases at_ : s.memory.writer with
  | park v w r pc₀ loadedClosed =>
    rw [at_] at here
    have loads : holds = (if pc = .check then !s.memory.closed else true) ∧
        kept = { s.memory with
          writer := .park v w r pc₀ (if pc = .check then s.memory.closed else loadedClosed) } := by
      by_cases check : pc = .check
      · rw [Client.checked, if_pos check] at checks
        simp only [client, Ring.check, at_, Prod.mk.injEq] at checks
        rw [if_pos check, if_pos check]
        exact ⟨checks.1.symm, checks.2.symm⟩
      · rw [if_neg check, if_neg check, ← at_]
        exact idle check
    have stepped : (whole s).waiter.step .writer (whole s).closed pc = _ :=
      Client.State.waiter_checked loads.1 ok
    rw [loads.2]
    cases outcome with
    | goto pc' =>
      refine Eq.trans ?_ (congrArg Except.ok (whole_writer lot _ s.memory _).symm)
      simp only [runWriter, here, WritePc.inner, stepped]
      rfl
    | return_ result =>
      simp only [Client.returned, client, back]
      refine Eq.trans ?_ (congrArg Except.ok (whole_writer lot _ s.memory _).symm)
      simp only [runWriter, here, WritePc.inner, stepped]
      rw [show (whole s).closed = s.memory.closed from rfl]
      generalize (if pc = .check then s.memory.closed else loadedClosed) = loaded
      cases loaded <;> rfl
  | drain v pc₀ | closeDrain pc₀ =>
    rw [at_] at here
    rw [here] at formed
    cases pc₀ with
    | unpark pc₀ =>
      obtain ⟨rfl, rfl⟩ := idle (by
        rintro rfl
        cases formed _ rfl)
      have stepped : (whole s).waiter.drain .writer (.unpark pc) = _ :=
        Client.State.waiter_unpark ok
      cases outcome with
      | goto pc' =>
        refine Eq.trans ?_ (congrArg Except.ok (whole_writer lot _ s.memory s.memory.writer).symm)
        simp only [runWriter, here, WritePc.inner, DrainPc.inner, stepped, at_]
        rfl
      | return_ result =>
        simp only [Client.returned, client, back, at_]
        refine Eq.trans ?_ (congrArg Except.ok (whole_writer lot _ s.memory _).symm)
        simp only [runWriter, here, WritePc.inner, DrainPc.inner, stepped]
        cases result <;> rfl
    | test | again => exact absurd (by simp only [Ring.role, at_]; rfl) called
  | _ => exact absurd (by simp only [Ring.role, at_]; rfl) called

/-- A statement of a task is the same one in the whole, or a call that it has already made. -/
theorem whole_does (inv : (whole s).Formed size) (placed : Placed s)
    (running : s.lot.cpu.running = some p) (does : Client.Does (client size) p s s') :
    (whole s).step size .run = .ok (whole s') ∨ whole s' = whole s := by
  have running_ : (whole s).waiter.cpu.running = some p := running
  cases p with
  | reader =>
    simp only [step, running_]
    cases does with
    | inside there checks ok => exact .inl (reader_waits inv placed there checks ok)
    | moves out acts => exact .inl (reader_moves out acts)
    | yields out acts => exact .inl (reader_yields out acts)
    | tests out acts => exact .inl (reader_tests out acts)
    | calls out acts => exact .inr (whole_calls placed out acts)
  | writer =>
    simp only [step, running_]
    cases does with
    | inside there checks ok => exact .inl (writer_waits inv placed there checks ok)
    | moves out acts => exact .inl (writer_moves out acts)
    | yields out acts => exact .inl (writer_yields out acts)
    | tests out acts => exact .inl (writer_tests out acts)
    | calls out acts => exact .inr (whole_calls placed out acts)

/-- A call of a task is the same one in the whole. -/
theorem whole_begins {c : RingCall α} (out : s.role p = none)
    (running : s.lot.cpu.running = some p) (called : begins p c s.memory = some m') :
    ∃ l, (whole s).step size l = .ok (whole { s with memory := m' }) := by
  have running_ : (whole s).waiter.cpu.running = some p := running
  unfold begins at called
  split at called
  case h_5 => cases called
  all_goals
    rename_i at_
    cases called
  · have here : (whole s).reader = .idle := by simp only [whole, at_, ReadPc.inner]
    refine ⟨.read, ?_⟩
    simp only [step, running_, here]
    simp only [whole, Client.State.waiter, out, ReadPc.inner]
  · have here : (whole s).reader = .idle := by simp only [whole, at_, ReadPc.inner]
    refine ⟨.close .reader, ?_⟩
    simp only [step, running_, here]
    simp only [whole, Client.State.waiter, out, ReadPc.inner]
  · have here : (whole s).writer = .idle := by simp only [whole, at_, WritePc.inner]
    rename_i v
    refine ⟨.write v, ?_⟩
    simp only [step, running_, here]
    simp only [whole, Client.State.waiter, out, WritePc.inner]
  · have here : (whole s).writer = .idle := by simp only [whole, at_, WritePc.inner]
    refine ⟨.close .writer, ?_⟩
    simp only [step, running_, here]
    simp only [whole, Client.State.waiter, out, WritePc.inner]

/-- Every step of the tasks is one of the whole, or none. -/
theorem whole_step {l : Client.Label Party (RingCall α)} (inv : (whole s).Formed size)
    (placed : Placed s) (steps : Client.Steps (client size) s l s') :
    Run.Reaches (step size) (fun _ _ => True) (whole s) (whole s') := by
  cases steps with
  | runs running does =>
    rcases whole_does inv placed running does with ran | same
    · exact .one trivial ran
    · rw [same]
      exact .refl
  | @preempt p running =>
    refine .one (a := .preempt) trivial ?_
    have running_ : (whole s).waiter.cpu.running = some p := running
    simp only [step, running_]
    rfl
  | @dispatch p idle queued =>
    refine .one (a := .dispatch p) trivial ?_
    have ready : (whole s).waiter.cpu.running = none ∧ (whole s).waiter.cpu.queued p = true :=
      ⟨idle, queued⟩
    simp only [step, if_pos ready]
    rfl
  | call running out called =>
    obtain ⟨l, ok⟩ := whole_begins out running called
    exact .one trivial ok

/-- A statement of the reader outside the waiter leads it to the beginning of a call at most. -/
theorem reader_leads (leads : (act size .reader m).Leads m') :
    m'.reader.Begins ∧ m'.writer = m.writer := by
  cases at_ : m.reader with
  | idle | park => simp [act, at_, Act.Leads] at leads
  | drain v pc | closeDrain pc =>
    cases pc with
    | test =>
      simp only [act, at_, Act.drains, Act.Leads] at leads
      obtain ⟨stands, rfl⟩ := leads
      cases stands <;> simp [ReadPc.drained, ReadPc.closing, ReadPc.Begins]
    | again =>
      simp only [act, at_, Act.drains, Act.Leads] at leads
      simp [leads, ReadPc.drained, ReadPc.closing, ReadPc.Begins]
    | unpark pc => simp [act, at_, Act.drains, Act.Leads] at leads
  | take r =>
    simp only [act, at_, runReader] at leads
    split at leads
    · cases leads
    · cases leads
      exact ⟨trivial, rfl⟩
  | loadW r =>
    simp only [act, at_, runReader] at leads
    cases leads
    refine ⟨?_, rfl⟩
    split
    · exact rfl
    · exact trivial
  | loadR | storeR | ret | close =>
    simp only [act, at_, runReader] at leads
    cases leads
    exact ⟨trivial, rfl⟩

/-- So does one of the writer. -/
theorem writer_leads (leads : (act size .writer m).Leads m') :
    m'.writer.Begins ∧ m'.reader = m.reader := by
  cases at_ : m.writer with
  | idle | park => simp [act, at_, Act.Leads] at leads
  | drain v pc | closeDrain pc =>
    cases pc with
    | test =>
      simp only [act, at_, Act.drains, Act.Leads] at leads
      obtain ⟨stands, rfl⟩ := leads
      cases stands <;> simp [WritePc.drained, WritePc.closing, WritePc.Begins]
    | again =>
      simp only [act, at_, Act.drains, Act.Leads] at leads
      simp [leads, WritePc.drained, WritePc.closing, WritePc.Begins]
    | unpark pc => simp [act, at_, Act.drains, Act.Leads] at leads
  | checkClosed v =>
    simp only [act, at_, runWriter] at leads
    cases leads
    refine ⟨?_, rfl⟩
    cases m.closed <;> simp [WritePc.Begins]
  | loadR v w =>
    simp only [act, at_, runWriter] at leads
    cases leads
    refine ⟨?_, rfl⟩
    split
    · exact rfl
    · exact trivial
  | loadW | put | storeW | ret | close =>
    simp only [act, at_, runWriter] at leads
    cases leads
    exact ⟨trivial, rfl⟩

/-- The check leaves the reader at its call of the waiter. -/
theorem reader_checks {pc : WaiterPc Party} {holds : Bool} (begins : m.reader.Begins)
    (checks : (client size).checked .reader pc m = (holds, m')) :
    m'.reader.Begins ∧ m'.writer = m.writer ∧ m'.reader.role = m.reader.role := by
  unfold Client.checked at checks
  split at checks
  · simp only [client, check] at checks
    split at checks
    · rename_i at_
      cases checks
      rw [at_] at begins
      exact ⟨begins, rfl, by rw [at_]; rfl⟩
    · cases checks
      exact ⟨begins, rfl, rfl⟩
  · cases checks
    exact ⟨begins, rfl, rfl⟩

/-- A return from the waiter leads the reader out of the call. -/
theorem reader_back (result : Bool) (begins : m.reader.Begins) :
    (back .reader result m).reader.Begins ∧ (back .reader result m).writer = m.writer := by
  simp only [back]
  split
  · refine ⟨?_, rfl⟩
    split
    · exact trivial
    · exact trivial
  · refine ⟨?_, rfl⟩
    cases result <;> exact trivial
  · refine ⟨?_, rfl⟩
    cases result <;> exact trivial
  · exact ⟨begins, rfl⟩

/-- The reader has gone on, to the beginning of a call at most. -/
theorem Placed.reader_goes (placed : Placed s) (lot : Lot WaiterId Party)
    (place : Option (WaiterId × WaiterPc Party)) (begins : m.reader.Begins)
    (same : m.writer = s.memory.writer)
    (inside : ∀ n pc, place = some (n, pc) → n = stalled ∧ m.reader.role ≠ none) :
    Placed ⟨lot, update s.role .reader place, m⟩ := by
  refine ⟨?_, begins, by rw [same]; exact placed.writer⟩
  intro p n pc there
  change update s.role .reader place p = _ at there
  cases p with
  | reader =>
    rw [update_self] at there
    exact inside n pc there
  | writer =>
    rw [update_of_ne (by decide)] at there
    obtain ⟨known, called⟩ := placed.inside .writer n pc there
    refine ⟨known, ?_⟩
    change m.writer.role ≠ none
    rwa [same]

/-- The check leaves the writer at its call of the waiter. -/
theorem writer_checks {pc : WaiterPc Party} {holds : Bool} (begins : m.writer.Begins)
    (checks : (client size).checked .writer pc m = (holds, m')) :
    m'.writer.Begins ∧ m'.reader = m.reader ∧ m'.writer.role = m.writer.role := by
  unfold Client.checked at checks
  split at checks
  · simp only [client, check] at checks
    split at checks
    · rename_i at_
      cases checks
      rw [at_] at begins
      exact ⟨begins, rfl, by rw [at_]; rfl⟩
    · cases checks
      exact ⟨begins, rfl, rfl⟩
  · cases checks
    exact ⟨begins, rfl, rfl⟩

/-- A return from the waiter leads the writer out of the call. -/
theorem writer_back (result : Bool) (begins : m.writer.Begins) :
    (back .writer result m).writer.Begins ∧ (back .writer result m).reader = m.reader := by
  simp only [back]
  split
  · refine ⟨?_, rfl⟩
    split
    · exact trivial
    · exact trivial
  · refine ⟨?_, rfl⟩
    cases result <;> exact trivial
  · refine ⟨?_, rfl⟩
    cases result <;> exact trivial
  · exact ⟨begins, rfl⟩

/-- The writer has gone on, to the beginning of a call at most. -/
theorem Placed.writer_goes (placed : Placed s) (lot : Lot WaiterId Party)
    (place : Option (WaiterId × WaiterPc Party)) (begins : m.writer.Begins)
    (same : m.reader = s.memory.reader)
    (inside : ∀ n pc, place = some (n, pc) → n = stalled ∧ m.writer.role ≠ none) :
    Placed ⟨lot, update s.role .writer place, m⟩ := by
  refine ⟨?_, by rw [same]; exact placed.reader, begins⟩
  intro p n pc there
  change update s.role .writer place p = _ at there
  cases p with
  | writer =>
    rw [update_self] at there
    exact inside n pc there
  | reader =>
    rw [update_of_ne (by decide)] at there
    obtain ⟨known, called⟩ := placed.inside .reader n pc there
    refine ⟨known, ?_⟩
    change m.reader.role ≠ none
    rwa [same]

/-- A call of the waiter by the reader is one of its statements that are inside. -/
theorem reader_calls {c : WaiterCall} (acts : act size .reader m = .calls n c) :
    n = stalled ∧ m.reader.role ≠ none := by
  cases at_ : m.reader with
  | park r w pc loadedClosed =>
    simp only [act, at_, Act.calls.injEq] at acts
    exact ⟨acts.1.symm, by simp [ReadPc.role]⟩
  | drain v pc | closeDrain pc =>
    cases pc with
    | unpark pc =>
      simp only [act, at_, Act.drains, Act.calls.injEq] at acts
      exact ⟨acts.1.symm, by simp [ReadPc.role, DrainPc.inside]⟩
    | test | again => simp [act, at_, Act.drains] at acts
  | idle => simp [act, at_] at acts
  | _ =>
    simp only [act, at_] at acts
    exact absurd acts (Act.of_ne_calls _ _ _)

/-- So is one by the writer. -/
theorem writer_calls {c : WaiterCall} (acts : act size .writer m = .calls n c) :
    n = stalled ∧ m.writer.role ≠ none := by
  cases at_ : m.writer with
  | park v w r pc loadedClosed =>
    simp only [act, at_, Act.calls.injEq] at acts
    exact ⟨acts.1.symm, by simp [WritePc.role]⟩
  | drain v pc | closeDrain pc =>
    cases pc with
    | unpark pc =>
      simp only [act, at_, Act.drains, Act.calls.injEq] at acts
      exact ⟨acts.1.symm, by simp [WritePc.role, DrainPc.inside]⟩
    | test | again => simp [act, at_, Act.drains] at acts
  | idle => simp [act, at_] at acts
  | _ =>
    simp only [act, at_] at acts
    exact absurd acts (Act.of_ne_calls _ _ _)

/-- The reader stays inside the waiter exactly during its calls. -/
theorem Placed.reads (placed : Placed s) (does : Client.Does (client size) .reader s s') :
    Placed s' := by
  have stays : s.role .reader = none → update s.role .reader none = s.role :=
    fun out => update_eq_self_iff.mpr out.symm
  -- A statement of the code outside the waiter.
  have leads : ∀ {lot : Lot WaiterId Party} {m : Ring α}, s.role .reader = none →
      (act size .reader s.memory).Leads m → Placed ⟨lot, s.role, m⟩ := by
    intro lot m out leads
    obtain ⟨begins, same⟩ := reader_leads leads
    rw [← stays out]
    exact placed.reader_goes lot none begins same fun _ _ goes => by cases goes
  cases does with
  | @inside n pc holds kept outcome lot there checks ok =>
    obtain ⟨known, called⟩ := placed.inside .reader n pc there
    obtain ⟨begins, same, role⟩ := reader_checks placed.reader checks
    cases outcome with
    | goto pc' =>
      refine placed.reader_goes lot _ begins same ?_
      intro m pc goes
      cases goes
      exact ⟨known, by rw [Client.returned, role]; exact called⟩
    | return_ result =>
      obtain ⟨begins', same'⟩ := reader_back result begins
      exact placed.reader_goes lot _ begins' (same'.trans same) fun _ _ goes => by cases goes
  | moves out acts => exact leads out (by rw [show act size .reader s.memory = _ from acts]; rfl)
  | yields out acts => exact leads out (by rw [show act size .reader s.memory = _ from acts]; rfl)
  | tests out acts =>
    refine leads out ?_
    rw [show act size .reader s.memory = _ from acts]
    exact ⟨_, rfl⟩
  | @calls n c out acts =>
    obtain ⟨known, called⟩ := reader_calls acts
    refine placed.reader_goes s.lot _ placed.reader rfl ?_
    intro m pc goes
    cases goes
    exact ⟨known, called⟩

/-- The writer stays inside the waiter exactly during its calls. -/
theorem Placed.writes (placed : Placed s) (does : Client.Does (client size) .writer s s') :
    Placed s' := by
  have stays : s.role .writer = none → update s.role .writer none = s.role :=
    fun out => update_eq_self_iff.mpr out.symm
  -- A statement of the code outside the waiter.
  have leads : ∀ {lot : Lot WaiterId Party} {m : Ring α}, s.role .writer = none →
      (act size .writer s.memory).Leads m → Placed ⟨lot, s.role, m⟩ := by
    intro lot m out leads
    obtain ⟨begins, same⟩ := writer_leads leads
    rw [← stays out]
    exact placed.writer_goes lot none begins same fun _ _ goes => by cases goes
  cases does with
  | @inside n pc holds kept outcome lot there checks ok =>
    obtain ⟨known, called⟩ := placed.inside .writer n pc there
    obtain ⟨begins, same, role⟩ := writer_checks placed.writer checks
    cases outcome with
    | goto pc' =>
      refine placed.writer_goes lot _ begins same ?_
      intro m pc goes
      cases goes
      exact ⟨known, by rw [Client.returned, role]; exact called⟩
    | return_ result =>
      obtain ⟨begins', same'⟩ := writer_back result begins
      exact placed.writer_goes lot _ begins' (same'.trans same) fun _ _ goes => by cases goes
  | moves out acts => exact leads out (by rw [show act size .writer s.memory = _ from acts]; rfl)
  | yields out acts => exact leads out (by rw [show act size .writer s.memory = _ from acts]; rfl)
  | tests out acts =>
    refine leads out ?_
    rw [show act size .writer s.memory = _ from acts]
    exact ⟨_, rfl⟩
  | @calls n c out acts =>
    obtain ⟨known, called⟩ := writer_calls acts
    refine placed.writer_goes s.lot _ placed.writer rfl ?_
    intro m pc goes
    cases goes
    exact ⟨known, called⟩

/-- So do their steps. -/
theorem Placed.step {l : Client.Label Party (RingCall α)} (placed : Placed s)
    (steps : Client.Steps (client size) s l s') : Placed s' := by
  cases steps with
  | @runs p s' running does =>
    cases p with
    | reader => exact placed.reads does
    | writer => exact placed.writes does
  | preempt | dispatch => exact ⟨placed.inside, placed.reader, placed.writer⟩
  | @call p c memory running out called =>
    have stays : update s.role p none = s.role := update_eq_self_iff.mpr out.symm
    simp only [client, begins] at called
    split at called
    case h_5 => cases called
    all_goals
      cases called
      rw [← stays]
    · exact placed.reader_goes s.lot none trivial rfl fun _ _ goes => by cases goes
    · exact placed.reader_goes s.lot none trivial rfl fun _ _ goes => by cases goes
    · exact placed.writer_goes s.lot none trivial rfl fun _ _ goes => by cases goes
    · exact placed.writer_goes s.lot none trivial rfl fun _ _ goes => by cases goes

/-- Tasks that run as the code says run as those of the whole. -/
theorem whole_of_run (formed : (whole s).Formed size) (placed : Placed s)
    (reached : Run.Reaches (client size).step (fun _ _ => True) s s') :
    Run.Reaches (step size) (fun _ _ => True) (whole s) (whole s') ∧ (whole s').Formed size ∧
      Placed s' := by
  induction reached with
  | refl => exact ⟨.refl, formed, placed⟩
  | tail _ _ ok ih =>
    obtain ⟨run, formed, placed⟩ := ih
    have steps := Client.steps_of_ok ok
    have more := whole_step formed placed steps
    refine ⟨run.trans more, ?_, placed.step steps⟩
    refine more.invariant (P := fun t => t.Formed size) formed ?_
    intro t l t' formed _ ok
    exact formed.step (steps_of_ok ok)

/-- Nothing is loaded yet from a new buffer. -/
theorem formed_startAt (c : BitVec 64) : (startAt c : Ring α).Formed size := by
  have new : (start : Ring α).Formed size := formed_start
  have bounded : (startAt c : Ring α).Bounded size c.toNat := bounded_startAt c
  exact ⟨new.waiter, trivial, trivial, bounded.loaded⟩

/-- The tasks of a new buffer, run as its code says, are those of the whole. -/
theorem whole_of_reaches {c : BitVec 64} (reached : (client size).Reaches (startAt c) s) :
    Run.Reaches (step size) (fun _ _ => True) (startAt c : Ring α) (whole s) ∧
      (whole s).Formed size ∧ Placed s := by
  have placed : Placed (Client.start (startAt c) : Client.State WaiterId Party (Ring α)) := by
    refine ⟨?_, trivial, trivial⟩
    intro p n pc there
    cases there
  exact whole_of_run (formed_startAt c) placed reached

/-- No task takes one that has just claimed the slot. -/
theorem Placed.orderly (placed : Placed s) (formed : (whole s).Formed size) : s.Orderly := by
  refine Client.State.orderly_of_inv formed.waiter ?_
  intro p n pc there
  obtain ⟨known, called⟩ := placed.inside p n pc there
  refine ⟨known, ?_⟩
  cases p with
  | reader =>
    change (s.memory.reader.inner (s.role .reader)).role = some pc
    change s.memory.reader.role ≠ none at called
    rw [there]
    cases at_ : s.memory.reader with
    | park => rfl
    | drain v pc | closeDrain pc =>
      rw [at_] at called
      cases pc with
      | unpark => rfl
      | test | again => exact absurd rfl called
    | _ =>
      rw [at_] at called
      exact absurd rfl called
  | writer =>
    change (s.memory.writer.inner (s.role .writer)).role = some pc
    change s.memory.writer.role ≠ none at called
    rw [there]
    cases at_ : s.memory.writer with
    | park => rfl
    | drain v pc | closeDrain pc =>
      rw [at_] at called
      cases pc with
      | unpark => rfl
      | test | again => exact absurd rfl called
    | _ =>
      rw [at_] at called
      exact absurd rfl called

/-- So none does in a run from a new buffer. -/
theorem orderly_of_reaches {c : BitVec 64} (s : Client.State WaiterId Party (Ring α))
    (reached : (client size).Reaches (startAt c) s) : s.Orderly := by
  obtain ⟨-, formed, placed⟩ := whole_of_reaches reached
  exact placed.orderly formed

section Thread

variable {names : Naming Party} {host : Addr} {t t' t'' : Client.Thread (Ring α)} {c : BitVec 64}
  {k₀ : Kernel} {tick : Int} {maxSize : Nat}

/-- What a buffer promises to the two tasks of a kernel thread. -/
structure Delivers (size : RingSize) (m : Ring α) : Prop where
  occupancy : (m.w - m.r).toNat ≤ size.value.toNat
  -- A value is put into raw storage, and taken from where the oldest unread one was put.
  vacant : ∀ v w, m.writer = .put v w → w = m.w ∧ m.buffer (m.w &&& size.mask) = none
  unread : ∀ r, m.reader = .take r → r = m.r ∧ ∃ v, m.buffer (m.r &&& size.mask) = some v ∧
    m.pushed[m.taken]? = some v
  order : m.delivered <+: m.accepted ++ m.writer.held
  stored : m.pushed = m.accepted ++ m.writer.held
  refused : ∀ v, m.writer = .ret v false → m.pushed = m.accepted
  sound : ∀ p fault, act size p m ≠ .fails fault

/-- A buffer that is a bounded queue with its waiter is one without. -/
theorem delivers_of_fifo (fifo : (whole s).Fifo size) : Delivers size s.memory := by
  have held : (whole s).writer.held = s.memory.writer.held := by
    change (s.memory.writer.inner (s.role .writer)).held = _
    cases s.memory.writer with
    | park => cases s.role .writer <;> rfl
    | _ => rfl
  have taken : (whole s).taken = s.memory.taken := by
    change s.memory.delivered.length + (s.memory.reader.inner (s.role .reader)).held.length = _
    cases at_ : s.memory.reader with
    | park => cases s.role .reader <;> simp [Ring.taken, at_, ReadPc.inner, ReadPc.held]
    | ret result => cases result <;> simp [Ring.taken, at_, ReadPc.inner, ReadPc.held]
    | _ => simp [Ring.taken, at_, ReadPc.inner, ReadPc.held]
  refine ⟨fifo.occupancy, ?_, ?_, ?_, ?_, ?_, ?_⟩
  · intro v w at_
    exact fifo.vacant v w (by simp only [whole, at_, WritePc.inner])
  · intro r at_
    rw [← taken]
    exact fifo.unread r (by simp only [whole, at_, ReadPc.inner])
  · rw [← held]
    exact fifo.order
  · rw [← held]
    exact fifo.stored
  · intro v at_
    exact fifo.refused v (by simp only [whole, at_, WritePc.inner])
  · intro p fault fails
    cases p with
    | reader =>
      cases at_ : s.memory.reader with
      | take r =>
        obtain ⟨own, v, found, -⟩ := fifo.unread r (by simp only [whole, at_, ReadPc.inner])
        have found : s.memory.buffer (r &&& size.mask) = some v := by
          rw [own]
          exact found
        simp [act, at_, runReader, found, Act.of] at fails
      | drain v pc | closeDrain pc => cases pc <;> simp [act, at_, Act.drains] at fails
      | _ => simp [act, at_, runReader, Act.of] at fails
    | writer =>
      cases at_ : s.memory.writer with
      | drain v pc | closeDrain pc => cases pc <;> simp [act, at_, Act.drains] at fails
      | _ => simp [act, at_, runWriter, Act.of] at fails

/-- In confined runs of the kernel thread a ring buffer delivers what was written, in order. -/
theorem delivers_of_confined
    (booted : Run.Reaches Kernel.step Kernel.Undisturbed (Kernel.boot host tick maxSize) k₀)
    (gathered : k₀.Gathered names.place host)
    (reached : Run.Reaches (Client.Thread.step (client size) names) (Client.Thread.Confined names)
      ⟨k₀, startAt c⟩ t) : Delivers size t.memory ∧
      ∃ s, Run.Reaches (step size) (fun _ _ => True) (startAt c : Ring α) (whole s) ∧
        Client.Shows names host t s := by
  obtain ⟨s, follows, shows⟩ := Client.shows_of_confined orderly_of_reaches booted gathered reached
  obtain ⟨run, formed, placed⟩ := whole_of_reaches follows
  have delivers := delivers_of_fifo (bounded_of_reaches (shared_of_reaches run)).fifo
  rw [shows.memory] at delivers
  exact ⟨delivers, s, run, shows⟩

/-- How far a task has got in `close` does not depend on where it is in the waiter. -/
theorem whole_phase (p : Party) : (whole s).gate.phase p = s.memory.gate.phase p := by
  cases p with
  | reader =>
    change (s.memory.reader.inner (s.role .reader)).phase = s.memory.reader.phase
    cases s.memory.reader with
    | park => cases s.role .reader <;> rfl
    | _ => rfl
  | writer =>
    change (s.memory.writer.inner (s.role .writer)).phase = s.memory.writer.phase
    cases s.memory.writer with
    | park => cases s.role .writer <;> rfl
    | _ => rfl

/-- In confined runs of it neither task is suspended once `close` has returned to one of them. -/
theorem unstranded_of_confined {p : Party}
    (booted : Run.Reaches Kernel.step Kernel.Undisturbed (Kernel.boot host tick maxSize) k₀)
    (gathered : k₀.Gathered names.place host)
    (reached : Run.Reaches (Client.Thread.step (client size) names) (Client.Thread.Confined names)
      ⟨k₀, startAt c⟩ t)
    (inside : t.memory.gate.phase p ≠ .outside)
    (returns : Run.Reaches (Client.Thread.step (client size) names)
      (Client.Thread.Confined names) t t')
    (out : t'.memory.gate.phase p = .outside)
    (later : Run.Reaches (Client.Thread.step (client size) names)
      (Client.Thread.Confined names) t' t'') (q : Party) :
    (t''.kernel.tasks (names.place q)).runState ≠ .waiting ∧
      t''.kernel.Runnable (names.place q) := by
  -- The abstract tasks follow the three parts of the run.
  obtain ⟨s, first, shows⟩ := Client.shows_of_confined orderly_of_reaches booted gathered reached
  obtain ⟨s', second, shows'⟩ := shows.run orderly_of_reaches first returns
  obtain ⟨s'', third, shows''⟩ := shows'.run orderly_of_reaches (first.trans second) later
  obtain ⟨run, formed, placed⟩ := whole_of_reaches first
  obtain ⟨run', formed', placed'⟩ := whole_of_run formed placed second
  obtain ⟨run'', -, -⟩ := whole_of_run formed' placed' third
  rw [← shows.memory, ← whole_phase] at inside
  rw [← shows'.memory, ← whole_phase] at out
  have keeps : ∀ (t : Ring α) l t', t.Formed size → step size t l = .ok t' → t'.Formed size :=
    fun _ _ _ formed ok => formed.step (steps_of_ok ok)
  have simulates : ∀ (t : Ring α) l t', t.Formed size → step size t l = .ok t' →
      t.gate.Steps t'.gate :=
    fun _ _ _ formed ok => formed.gate_steps (steps_of_ok ok)
  have inv : (whole s).gate.Inv := by
    have began : (startAt c : Ring α).Formed size ∧ (startAt c : Ring α).gate.Inv :=
      ⟨formed_startAt c, gate_start⟩
    refine (run.invariant (P := fun t => t.Formed size ∧ t.gate.Inv) began ?_).2
    rintro t l t' ⟨formed, inv⟩ - ok
    exact ⟨keeps t l t' formed ok, inv.step (simulates t l t' formed ok)⟩
  have settled := Gate.settled_of_return keeps simulates formed inv inside run' out
  obtain ⟨awake, runs⟩ := (Gate.settled_of_run keeps simulates formed' settled run'').ready q
  have views := shows''.shows.views
  refine ⟨?_, ?_⟩
  · rw [← views.state q]
    exact awake
  · rcases runs with running | queued
    · exact .inl ((views.running q).mp running).symm
    · exact .inr ((views.queued q).mp queued)

end Thread

/-- A read that finds the buffer empty, up to where the reader has given up the processor. -/
def parksRead : List (Client.ThreadLabel (RingCall Nat)) :=
  List.flatten [
    [.sched (.trap (Sys.clockAt 60000)), .sched (.run Sys.stillClock 0), .call .read],
    List.replicate 7 (.run (Sys.clockAt 60000)), [.sched (.run Sys.stillClock 0)]]

/-- Then a write, which wakes the reader, and the rest of the read. -/
def readThenWrite : List (Client.ThreadLabel (RingCall Nat)) :=
  List.flatten [parksRead, [.call (.write 7)], List.replicate 12 (.run (Sys.clockAt 60000)),
    [.sched (.trap (Sys.clockAt 100000)), .sched (.run Sys.stillClock 0)],
    List.replicate 6 (.run (Sys.clockAt 100000))]

/-- A reader that was parked has got the value that was written, and the counters have wrapped. -/
theorem delivers_of_confined_read : ∃ t : Client.Thread (Ring Nat), Delivers four t.memory ∧
    (∃ s, Run.Reaches (step four) (fun _ _ => True) (startAt (-1)) (whole s) ∧
      Client.Shows partyNames 0 t s) ∧
    t.memory.r = 0 ∧ t.memory.delivered = [7] ∧ t.memory.accepted = [7] := by
  have run : ∃ k₀, Run.Reaches Kernel.step (fun k l => k.Undisturbed l ∧ k.Unshared l)
      (Kernel.boot 0 0 4) k₀ ∧ k₀.Ready partyNames.place ∧
      (Run.exec (Client.Thread.step (client four) partyNames) (Client.Thread.Confined partyNames)
        ⟨k₀, startAt (-1)⟩ readThenWrite).any (fun t => decide (t.memory.r = 0 ∧
          t.memory.delivered = [7] ∧ t.memory.accepted = [7])) = true :=
    Run.Reaches.of_check Kernel.gatherLabels (by decide +kernel)
  obtain ⟨k₀, booted, ready, passes⟩ := run
  obtain ⟨t, reached, ends⟩ := Run.Reaches.of_check readThenWrite passes
  obtain ⟨delivers, follows⟩ := delivers_of_confined (booted.mono fun _ _ => And.left)
    (Kernel.gathered_of_unshared booted ready) reached
  exact ⟨t, delivers, follows, ends⟩

/-- The writer closes the buffer up to the end of the store to `_closed`. -/
def closesParked : List (Client.ThreadLabel (RingCall Nat)) :=
  List.flatten [parksRead, [.call .close, .run (Sys.clockAt 60000)]]

/-- The rest of `close`. -/
def closesAll : List (Client.ThreadLabel (RingCall Nat)) :=
  List.replicate 6 (.run (Sys.clockAt 60000))

/-- A reader that was parked is in the run queue once the writer's `close` has returned. -/
theorem unstranded_of_confined_close : ∃ t t' : Client.Thread (Ring Nat),
    (t.kernel.tasks 1).runState = .waiting ∧ t.memory.gate.phase .writer = .draining ∧
    t'.memory.gate.phase .writer = .outside ∧
    ∀ q, (t'.kernel.tasks (partyNames.place q)).runState ≠ .waiting ∧
      t'.kernel.Runnable (partyNames.place q) := by
  have run : ∃ k₀, Run.Reaches Kernel.step (fun k l => k.Undisturbed l ∧ k.Unshared l)
      (Kernel.boot 0 0 4) k₀ ∧ k₀.Ready partyNames.place ∧
      (Run.exec (Client.Thread.step (client four) partyNames) (Client.Thread.Confined partyNames)
        ⟨k₀, startAt 0⟩ closesParked).any (fun t => decide
          ((t.kernel.tasks 1).runState = .waiting ∧ t.memory.gate.phase .writer = .draining ∧
          (Run.exec (Client.Thread.step (client four) partyNames)
            (Client.Thread.Confined partyNames) t closesAll).any (fun t => decide
              (t.memory.gate.phase .writer = .outside)) = true)) = true :=
    Run.Reaches.of_check Kernel.gatherLabels (by decide +kernel)
  obtain ⟨k₀, booted, ready, passes⟩ := run
  obtain ⟨t, reached, waiting, draining, passes⟩ := Run.Reaches.of_check closesParked passes
  obtain ⟨t', returns, out⟩ := Run.Reaches.of_check closesAll passes
  have inside : t.memory.gate.phase .writer ≠ .outside := by
    rw [draining]
    decide
  exact ⟨t, t', waiting, draining, out, unstranded_of_confined
    (booted.mono fun _ _ => And.left) (Kernel.gathered_of_unshared booted ready) reached inside
    returns out .refl⟩

end Ring

end Gthread

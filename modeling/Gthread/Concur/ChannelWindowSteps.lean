import Gthread.Concur.ChannelWindow
import Gthread.Concur.WaiterLaws

/-! What each statement of a window does, and the waiter's code that its tasks are in. -/

namespace Gthread

open Function (update update_of_ne update_self)

variable {α : Type}

/-- The statement of the waiter that `close` is at. -/
def ClosePc.role : ClosePc → Option (WaiterPc Party)
  | .drain pc => pc.inside
  | _ => none

/-- The waiter's code that `close` is in. -/
def ClosePc.Formed : ClosePc → Prop
  | .drain pc => ∀ inner, pc.inside = some inner → inner.member = .unpark
  | _ => True

namespace WindowReadPc

/-- The statement of the waiter that the reading task is at. -/
def role : WindowReadPc → Option (WaiterPc Party)
  | .park pc | .swap pc => some pc
  | .drain pc => pc.inside
  | .close pc => pc.role
  | _ => none

/-- The task is in the member function that it has called. -/
def Formed : WindowReadPc → Prop
  | .park pc => pc.member = .parkIf
  | .swap pc => pc.member = .swap
  | .drain pc => ∀ inner, pc.inside = some inner → inner.member = .unpark
  | .close pc => pc.Formed
  | _ => True

end WindowReadPc

namespace WindowWritePc

/-- The statement of the waiter that the writing task is at. -/
def role : WindowWritePc α → Option (WaiterPc Party)
  | .park _ pc | .swap _ pc => some pc
  | .drain _ pc => pc.inside
  | .close pc => pc.role
  | _ => none

/-- The task is in the member function that it has called. -/
def Formed : WindowWritePc α → Prop
  | .park _ pc => pc.member = .parkIf
  | .swap _ pc => pc.member = .swap
  | .drain _ pc => ∀ inner, pc.inside = some inner → inner.member = .unpark
  | .close pc => pc.Formed
  | _ => True

end WindowWritePc

namespace Window

variable {s s' : Window α} {l : ChannelLabel α} {p : Party}

/-- The statements of the waiter that the tasks are at. -/
def role (s : Window α) : Party → Option (WaiterPc Party)
  | .reader => s.reader.role
  | .writer => s.writer.role

/-- What a statement of `close` does. -/
inductive Closes (s : Window α) (p : Party) : ClosePc → Option ClosePc → Window α → Prop
  | store : Closes s p .store (some .clear) { s with closed := true }
  | clear : Closes s p .clear (some (.drain .test)) { s with target := none }
  | drains {pc pc' : DrainPc Party} {waiter : Waiter Party}
      (ok : s.waiter.drain p pc = .ok (some pc', waiter)) :
      Closes s p (.drain pc) (some (.drain pc')) { s with waiter }
  | drained {pc : DrainPc Party} {waiter : Waiter Party}
      (ok : s.waiter.drain p pc = .ok (none, waiter)) :
      Closes s p (.drain pc) none { s with waiter }

/-- A statement of `close` does one of these things. -/
theorem closes_of_ok {pc : ClosePc} {next : Option ClosePc}
    (ok : s.runClose p pc = .ok (next, s')) : Closes s p pc next s' := by
  cases pc with
  | store =>
    simp only [runClose, Except.ok.injEq, Prod.mk.injEq] at ok
    obtain ⟨rfl, rfl⟩ := ok
    exact .store
  | clear =>
    simp only [runClose, Except.ok.injEq, Prod.mk.injEq] at ok
    obtain ⟨rfl, rfl⟩ := ok
    exact .clear
  | drain pc =>
    cases done : s.waiter.drain p pc with
    | error fault => simp [runClose, done, Bind.bind, Except.bind] at ok
    | ok result =>
      obtain ⟨next', waiter⟩ := result
      simp only [runClose, done, Bind.bind, Except.bind, pure, Except.pure, Except.ok.injEq,
        Prod.mk.injEq] at ok
      obtain ⟨rfl, rfl⟩ := ok
      cases next' with
      | none => exact .drained done
      | some pc' => exact .drains done

/-- What a statement of the reading task does. -/
inductive Reads (s : Window α) : Window α → Prop
  | assertEntry (at_ : s.reader = .assertEntry) (null : s.target = none) :
      Reads s { s with reader := .setReader }
  | setReader (at_ : s.reader = .setReader) :
      Reads s { s with target := some s.reads, reader := .checkClosed }
  | closed (at_ : s.reader = .checkClosed) (closed : s.closed = true) :
      Reads s { s with reader := .ret }
  | opened (at_ : s.reader = .checkClosed) (open_ : s.closed = false) :
      Reads s { s with reader := .park .claim }
  | parks {pc pc' : WaiterPc Party} {waiter : Waiter Party} (at_ : s.reader = .park pc)
      (ok : s.waiter.step .reader s.closed pc = .ok (.goto pc', waiter)) :
      Reads s { s with waiter, reader := .park pc' }
  | parked {pc : WaiterPc Party} {waiter : Waiter Party} (at_ : s.reader = .park pc)
      (ok : s.waiter.step .reader s.closed pc = .ok (.return_ true, waiter)) :
      Reads s { s with waiter, reader := .assertServed }
  | unparked {pc : WaiterPc Party} {waiter : Waiter Party} (at_ : s.reader = .park pc)
      (ok : s.waiter.step .reader s.closed pc = .ok (.return_ false, waiter)) :
      Reads s { s with waiter, reader := .swap .swapLoad }
  | assertServed (at_ : s.reader = .assertServed) (null : s.target = none) :
      Reads s { s with reader := .drain .test }
  | drains {pc pc' : DrainPc Party} {waiter : Waiter Party} (at_ : s.reader = .drain pc)
      (ok : s.waiter.drain .reader pc = .ok (some pc', waiter)) :
      Reads s { s with waiter, reader := .drain pc' }
  | drained {pc : DrainPc Party} {waiter : Waiter Party} (at_ : s.reader = .drain pc)
      (ok : s.waiter.drain .reader pc = .ok (none, waiter)) :
      Reads s { s with waiter, reader := .ret }
  | swaps {pc pc' : WaiterPc Party} {waiter : Waiter Party} (at_ : s.reader = .swap pc)
      (ok : s.waiter.step .reader s.closed pc = .ok (.goto pc', waiter)) :
      Reads s { s with waiter, reader := .swap pc' }
  | swapped {pc : WaiterPc Party} {waiter : Waiter Party} (at_ : s.reader = .swap pc)
      (ok : s.waiter.step .reader s.closed pc = .ok (.return_ true, waiter)) :
      Reads s { s with waiter, reader := .ret }
  | unswapped {pc : WaiterPc Party} {waiter : Waiter Party} (at_ : s.reader = .swap pc)
      (ok : s.waiter.step .reader s.closed pc = .ok (.return_ false, waiter)) :
      Reads s { s with waiter, reader := .yield }
  | yield (at_ : s.reader = .yield) :
      Reads s { s with waiter := s.waiter.yield .reader, reader := .checkClosed }
  | ret (at_ : s.reader = .ret) :
      Reads s { s with delivered := s.delivered ++ s.ret.toList, reader := .idle }
  | closes {s' : Window α} {pc pc' : ClosePc} (at_ : s.reader = .close pc)
      (closes : Closes s .reader pc (some pc') s') : Reads s { s' with reader := .close pc' }
  | closeReturns {s' : Window α} {pc : ClosePc} (at_ : s.reader = .close pc)
      (closes : Closes s .reader pc none s') : Reads s { s' with reader := .idle }

/-- A statement of the reading task does one of these things. -/
theorem reads_of_ok (ok : s.runReader = .ok s') : Reads s s' := by
  cases at_ : s.reader with
  | idle => simp [runReader, at_] at ok
  | assertEntry =>
    simp only [runReader, at_] at ok
    split at ok
    · cases ok
    · rename_i null
      simp only [Except.ok.injEq] at ok
      exact ok ▸ .assertEntry at_ (by simpa using null)
  | setReader =>
    simp only [runReader, at_, Except.ok.injEq] at ok
    exact ok ▸ .setReader at_
  | checkClosed =>
    simp only [runReader, at_, Except.ok.injEq] at ok
    by_cases closed : s.closed = true
    · rw [if_pos closed] at ok
      exact ok ▸ .closed at_ closed
    · rw [if_neg closed] at ok
      exact ok ▸ .opened at_ (by simpa using closed)
  | park pc =>
    cases done : s.waiter.step .reader s.closed pc with
    | error fault => simp [runReader, at_, done, Bind.bind, Except.bind] at ok
    | ok result =>
      obtain ⟨outcome, waiter⟩ := result
      simp only [runReader, at_, done, Bind.bind, Except.bind, pure, Except.pure] at ok
      rcases outcome with pc' | (_ | _)
      all_goals simp only [Except.ok.injEq] at ok
      · exact ok ▸ .parks at_ done
      · exact ok ▸ .unparked at_ done
      · exact ok ▸ .parked at_ done
  | assertServed =>
    simp only [runReader, at_] at ok
    split at ok
    · cases ok
    · rename_i null
      simp only [Except.ok.injEq] at ok
      exact ok ▸ .assertServed at_ (by simpa using null)
  | drain pc =>
    cases done : s.waiter.drain .reader pc with
    | error fault => simp [runReader, at_, done, Bind.bind, Except.bind] at ok
    | ok result =>
      obtain ⟨next, waiter⟩ := result
      simp only [runReader, at_, done, Bind.bind, Except.bind, pure, Except.pure] at ok
      rcases next with _ | pc'
      all_goals simp only [Except.ok.injEq] at ok
      · exact ok ▸ .drained at_ done
      · exact ok ▸ .drains at_ done
  | swap pc =>
    cases done : s.waiter.step .reader s.closed pc with
    | error fault => simp [runReader, at_, done, Bind.bind, Except.bind] at ok
    | ok result =>
      obtain ⟨outcome, waiter⟩ := result
      simp only [runReader, at_, done, Bind.bind, Except.bind, pure, Except.pure] at ok
      rcases outcome with pc' | (_ | _)
      all_goals simp only [Except.ok.injEq] at ok
      · exact ok ▸ .swaps at_ done
      · exact ok ▸ .unswapped at_ done
      · exact ok ▸ .swapped at_ done
  | yield =>
    simp only [runReader, at_, Except.ok.injEq] at ok
    exact ok ▸ .yield at_
  | ret =>
    simp only [runReader, at_, Except.ok.injEq] at ok
    exact ok ▸ .ret at_
  | close pc =>
    cases done : s.runClose .reader pc with
    | error fault => simp [runReader, at_, done, Bind.bind, Except.bind] at ok
    | ok result =>
      obtain ⟨next, s₁⟩ := result
      have closes := closes_of_ok done
      simp only [runReader, at_, done, Bind.bind, Except.bind, pure, Except.pure] at ok
      rcases next with _ | pc'
      all_goals simp only [Except.ok.injEq] at ok
      · exact ok ▸ .closeReturns at_ closes
      · exact ok ▸ .closes at_ closes

/-- What a statement of the writing task does. -/
inductive Writes (s : Window α) : Window α → Prop
  | refused {t : α} (at_ : s.writer = .checkClosed t) (closed : s.closed = true) :
      Writes s { s with writer := .ret t false }
  | opened {t : α} (at_ : s.writer = .checkClosed t) (open_ : s.closed = false) :
      Writes s { s with writer := .park t .claim }
  | parks {t : α} {pc pc' : WaiterPc Party} {waiter : Waiter Party} (at_ : s.writer = .park t pc)
      (ok : s.waiter.step .writer s.closed pc = .ok (.goto pc', waiter)) :
      Writes s { s with waiter, writer := .park t pc' }
  | parked {t : α} {pc : WaiterPc Party} {waiter : Waiter Party} (at_ : s.writer = .park t pc)
      (ok : s.waiter.step .writer s.closed pc = .ok (.return_ true, waiter)) :
      Writes s { s with waiter, writer := .checkAgain t }
  | unparked {t : α} {pc : WaiterPc Party} {waiter : Waiter Party} (at_ : s.writer = .park t pc)
      (ok : s.waiter.step .writer s.closed pc = .ok (.return_ false, waiter)) :
      Writes s { s with waiter, writer := .testWaiter t }
  | closedSince {t : α} (at_ : s.writer = .checkAgain t) (closed : s.closed = true) :
      Writes s { s with writer := .clearClosed t }
  | stillOpen {t : α} (at_ : s.writer = .checkAgain t) (open_ : s.closed = false) :
      Writes s { s with writer := .assertReader t }
  | clearClosed {t : α} (at_ : s.writer = .clearClosed t) :
      Writes s { s with target := none, writer := .ret t false }
  | assertReader {t : α} (at_ : s.writer = .assertReader t) (set : s.target ≠ none) :
      Writes s { s with writer := .emplace true t }
  | emplace {parked : Bool} {t : α} (at_ : s.writer = .emplace parked t)
      (target : s.target = some s.reads) (calling : s.reader.calling = true) :
      Writes s { s with ret := some t, origin := s.writes, writer := .clear parked t }
  | clearParked {t : α} (at_ : s.writer = .clear true t) :
      Writes s { s with target := none, writer := .swap t .swapLoad }
  | clear {t : α} (at_ : s.writer = .clear false t) :
      Writes s { s with target := none, writer := .drain t .test }
  | swaps {t : α} {pc pc' : WaiterPc Party} {waiter : Waiter Party} (at_ : s.writer = .swap t pc)
      (ok : s.waiter.step .writer s.closed pc = .ok (.goto pc', waiter)) :
      Writes s { s with waiter, writer := .swap t pc' }
  | swapped {t : α} {pc : WaiterPc Party} {waiter : Waiter Party} (at_ : s.writer = .swap t pc)
      (ok : s.waiter.step .writer s.closed pc = .ok (.return_ true, waiter)) :
      Writes s { s with waiter, writer := .ret t true }
  | unswapped {t : α} {pc : WaiterPc Party} {waiter : Waiter Party} (at_ : s.writer = .swap t pc)
      (ok : s.waiter.step .writer s.closed pc = .ok (.return_ false, waiter)) :
      Writes s { s with waiter, writer := .swapAgain t }
  | swapAgain {t : α} (at_ : s.writer = .swapAgain t) :
      Writes s { s with waiter := s.waiter.yield .writer, writer := .swap t .swapLoad }
  | nobody {t : α} (at_ : s.writer = .testWaiter t) (empty : s.waiter.slot = none) :
      Writes s { s with writer := .yield t }
  | somebody {t : α} (at_ : s.writer = .testWaiter t) (stands : s.waiter.slot ≠ none) :
      Writes s { s with writer := .testReader t }
  | noReader {t : α} (at_ : s.writer = .testReader t) (null : s.target = none) :
      Writes s { s with writer := .yield t }
  | reader {t : α} (at_ : s.writer = .testReader t) (set : s.target ≠ none) :
      Writes s { s with writer := .emplace false t }
  | drains {t : α} {pc pc' : DrainPc Party} {waiter : Waiter Party} (at_ : s.writer = .drain t pc)
      (ok : s.waiter.drain .writer pc = .ok (some pc', waiter)) :
      Writes s { s with waiter, writer := .drain t pc' }
  | drained {t : α} {pc : DrainPc Party} {waiter : Waiter Party} (at_ : s.writer = .drain t pc)
      (ok : s.waiter.drain .writer pc = .ok (none, waiter)) :
      Writes s { s with waiter, writer := .ret t true }
  | yield {t : α} (at_ : s.writer = .yield t) :
      Writes s { s with waiter := s.waiter.yield .writer, writer := .checkClosed t }
  | ret {t : α} {accepted : Bool} (at_ : s.writer = .ret t accepted) :
      Writes s { s with
        accepted := if accepted then s.accepted ++ [t] else s.accepted
        writer := .idle }
  | closes {s' : Window α} {pc pc' : ClosePc} (at_ : s.writer = .close pc)
      (closes : Closes s .writer pc (some pc') s') : Writes s { s' with writer := .close pc' }
  | closeReturns {s' : Window α} {pc : ClosePc} (at_ : s.writer = .close pc)
      (closes : Closes s .writer pc none s') : Writes s { s' with writer := .idle }

/-- A statement of the writing task does one of these things. -/
theorem writes_of_ok (ok : s.runWriter = .ok s') : Writes s s' := by
  cases at_ : s.writer with
  | idle => simp [runWriter, at_] at ok
  | checkClosed t =>
    simp only [runWriter, at_, Except.ok.injEq] at ok
    by_cases closed : s.closed = true
    · rw [if_pos closed] at ok
      exact ok ▸ .refused at_ closed
    · rw [if_neg closed] at ok
      exact ok ▸ .opened at_ (by simpa using closed)
  | park t pc =>
    cases done : s.waiter.step .writer s.closed pc with
    | error fault => simp [runWriter, at_, done, Bind.bind, Except.bind] at ok
    | ok result =>
      obtain ⟨outcome, waiter⟩ := result
      simp only [runWriter, at_, done, Bind.bind, Except.bind, pure, Except.pure] at ok
      rcases outcome with pc' | (_ | _)
      all_goals simp only [Except.ok.injEq] at ok
      · exact ok ▸ .parks at_ done
      · exact ok ▸ .unparked at_ done
      · exact ok ▸ .parked at_ done
  | checkAgain t =>
    simp only [runWriter, at_, Except.ok.injEq] at ok
    by_cases closed : s.closed = true
    · rw [if_pos closed] at ok
      exact ok ▸ .closedSince at_ closed
    · rw [if_neg closed] at ok
      exact ok ▸ .stillOpen at_ (by simpa using closed)
  | clearClosed t =>
    simp only [runWriter, at_, Except.ok.injEq] at ok
    exact ok ▸ .clearClosed at_
  | assertReader t =>
    simp only [runWriter, at_] at ok
    split at ok
    · cases ok
    · rename_i set
      simp only [Except.ok.injEq] at ok
      exact ok ▸ .assertReader at_ set
  | emplace parked t =>
    simp only [runWriter, at_, Window.emplace] at ok
    split at ok
    · rename_i valid
      simp only [Bind.bind, Except.bind, pure, Except.pure, Except.ok.injEq] at ok
      exact ok ▸ .emplace at_ valid.1 valid.2
    · simp [Bind.bind, Except.bind] at ok
  | clear parked t =>
    simp only [runWriter, at_, Except.ok.injEq] at ok
    cases parked with
    | true => exact ok ▸ .clearParked at_
    | false => exact ok ▸ .clear at_
  | swap t pc =>
    cases done : s.waiter.step .writer s.closed pc with
    | error fault => simp [runWriter, at_, done, Bind.bind, Except.bind] at ok
    | ok result =>
      obtain ⟨outcome, waiter⟩ := result
      simp only [runWriter, at_, done, Bind.bind, Except.bind, pure, Except.pure] at ok
      rcases outcome with pc' | (_ | _)
      all_goals simp only [Except.ok.injEq] at ok
      · exact ok ▸ .swaps at_ done
      · exact ok ▸ .unswapped at_ done
      · exact ok ▸ .swapped at_ done
  | swapAgain t =>
    simp only [runWriter, at_, Except.ok.injEq] at ok
    exact ok ▸ .swapAgain at_
  | testWaiter t =>
    simp only [runWriter, at_, Except.ok.injEq] at ok
    by_cases empty : s.waiter.slot = none
    · rw [if_pos empty] at ok
      exact ok ▸ .nobody at_ empty
    · rw [if_neg empty] at ok
      exact ok ▸ .somebody at_ empty
  | testReader t =>
    simp only [runWriter, at_, Except.ok.injEq] at ok
    by_cases null : s.target = none
    · rw [if_pos null] at ok
      exact ok ▸ .noReader at_ null
    · rw [if_neg null] at ok
      exact ok ▸ .reader at_ null
  | drain t pc =>
    cases done : s.waiter.drain .writer pc with
    | error fault => simp [runWriter, at_, done, Bind.bind, Except.bind] at ok
    | ok result =>
      obtain ⟨next, waiter⟩ := result
      simp only [runWriter, at_, done, Bind.bind, Except.bind, pure, Except.pure] at ok
      rcases next with _ | pc'
      all_goals simp only [Except.ok.injEq] at ok
      · exact ok ▸ .drained at_ done
      · exact ok ▸ .drains at_ done
  | yield t =>
    simp only [runWriter, at_, Except.ok.injEq] at ok
    exact ok ▸ .yield at_
  | ret t accepted =>
    simp only [runWriter, at_, Except.ok.injEq] at ok
    exact ok ▸ .ret at_
  | close pc =>
    cases done : s.runClose .writer pc with
    | error fault => simp [runWriter, at_, done, Bind.bind, Except.bind] at ok
    | ok result =>
      obtain ⟨next, s₁⟩ := result
      have closes := closes_of_ok done
      simp only [runWriter, at_, done, Bind.bind, Except.bind, pure, Except.pure] at ok
      rcases next with _ | pc'
      all_goals simp only [Except.ok.injEq] at ok
      · exact ok ▸ .closeReturns at_ closes
      · exact ok ▸ .closes at_ closes

/-- What a step does. -/
inductive Steps (s : Window α) : ChannelLabel α → Window α → Prop
  | reads {s' : Window α} (running : s.waiter.cpu.running = some .reader) (reads : Reads s s') :
      Steps s .run s'
  | writes {s' : Window α} (running : s.waiter.cpu.running = some .writer)
      (writes : Writes s s') : Steps s .run s'
  | preempt {p : Party} (running : s.waiter.cpu.running = some p) :
      Steps s .preempt { s with waiter := s.waiter.yield p }
  | dispatch {p : Party} (idle : s.waiter.cpu.running = none)
      (queued : s.waiter.cpu.queued p = true) :
      Steps s (.dispatch p) { s with waiter := { s.waiter with cpu := s.waiter.cpu.enter p } }
  | read (running : s.waiter.cpu.running = some .reader) (at_ : s.reader = .idle) :
      Steps s .read { s with ret := none, reads := s.reads + 1, reader := .assertEntry }
  | write {t : α} (running : s.waiter.cpu.running = some .writer) (at_ : s.writer = .idle) :
      Steps s (.write t) { s with writes := s.writes + 1, writer := .checkClosed t }
  | readerCloses (running : s.waiter.cpu.running = some .reader) (at_ : s.reader = .idle) :
      Steps s (.close .reader) { s with reader := .close .store }
  | writerCloses (running : s.waiter.cpu.running = some .writer) (at_ : s.writer = .idle) :
      Steps s (.close .writer) { s with writer := .close .store }

/-- A step does one of these things. -/
theorem steps_of_ok (ok : s.step l = .ok s') : Steps s l s' := by
  cases l with
  | run =>
    simp only [step] at ok
    split at ok
    · cases ok
    · rename_i running
      exact .reads running (reads_of_ok ok)
    · rename_i running
      exact .writes running (writes_of_ok ok)
  | preempt =>
    simp only [step] at ok
    split at ok
    · cases ok
    · rename_i p running
      simp only [Except.ok.injEq] at ok
      exact ok ▸ .preempt running
  | dispatch p =>
    simp only [step] at ok
    split at ok
    · rename_i ready
      simp only [Except.ok.injEq] at ok
      exact ok ▸ .dispatch ready.1 ready.2
    · cases ok
  | read =>
    simp only [step] at ok
    split at ok
    · rename_i running at_
      simp only [Except.ok.injEq] at ok
      exact ok ▸ .read running at_
    · cases ok
  | write t =>
    simp only [step] at ok
    split at ok
    · rename_i running at_
      simp only [Except.ok.injEq] at ok
      exact ok ▸ .write running at_
    · cases ok
  | close p =>
    cases p with
    | reader =>
      simp only [step] at ok
      split at ok
      · rename_i running at_
        simp only [Except.ok.injEq] at ok
        exact ok ▸ .readerCloses running at_
      · cases ok
    | writer =>
      simp only [step] at ok
      split at ok
      · rename_i running at_
        simp only [Except.ok.injEq] at ok
        exact ok ▸ .writerCloses running at_
      · cases ok

/-- The waiter is in order, and each task is in the member function it has called. -/
structure Formed (s : Window α) : Prop where
  waiter : s.waiter.Inv s.role
  reader : s.reader.Formed
  writer : s.writer.Formed

/-- The roles once the reader has moved. -/
theorem role_reader (s : Window α) (pc : WindowReadPc) :
    { s with reader := pc }.role = update s.role .reader pc.role := by
  funext p
  cases p <;> rfl

/-- The roles once the writer has moved. -/
theorem role_writer (s : Window α) (pc : WindowWritePc α) :
    { s with writer := pc }.role = update s.role .writer pc.role := by
  funext p
  cases p <;> rfl

/-- A statement of `close` moves the task that calls it. -/
theorem Closes.moves {closed : Bool} {pc : ClosePc} {next : Option ClosePc} (formed : pc.Formed)
    (closes : Closes s p pc next s') :
    Waiter.Moves p closed s.waiter pc.role (next.bind ClosePc.role) s'.waiter := by
  cases closes with
  | store => exact .enter rfl rfl rfl
  | clear => exact .enter rfl rfl rfl
  | drains ok => exact Waiter.moves_of_drain formed ok
  | drained ok => exact Waiter.moves_of_drain formed ok

/-- A statement of `close` stays in `unpark`. -/
theorem Closes.formed {pc pc' : ClosePc} (formed : pc.Formed)
    (closes : Closes s p pc (some pc') s') : pc'.Formed := by
  cases closes with
  | store => trivial
  | clear => simp [ClosePc.Formed, DrainPc.inside]
  | @drains pc pc' waiter ok =>
    have inside := (Waiter.drain_slot formed ok).2 pc'
    exact fun inner => inside inner rfl

/-- What `close` leaves alone. -/
theorem Closes.same {pc : ClosePc} {next : Option ClosePc} (closes : Closes s p pc next s') :
    s'.reader = s.reader ∧ s'.writer = s.writer := by
  cases closes <;> exact ⟨rfl, rfl⟩

/-- A statement of the reader stays in the member function it has called. -/
theorem Reads.formed (formed : s.Formed) (reads : Reads s s') :
    s'.reader.Formed ∧ s'.writer = s.writer := by
  have inside := formed.reader
  cases reads with
  | assertEntry at_ null => exact ⟨trivial, rfl⟩
  | setReader at_ => exact ⟨trivial, rfl⟩
  | closed at_ closed => exact ⟨trivial, rfl⟩
  | opened at_ open_ => exact ⟨rfl, rfl⟩
  | parks at_ ok =>
    rw [at_] at inside
    exact ⟨(Waiter.step_member ok).trans inside, rfl⟩
  | parked at_ ok => exact ⟨trivial, rfl⟩
  | unparked at_ ok => exact ⟨rfl, rfl⟩
  | assertServed at_ null => exact ⟨by simp [WindowReadPc.Formed, DrainPc.inside], rfl⟩
  | @drains pc pc' waiter at_ ok =>
    rw [at_] at inside
    have stays := (Waiter.drain_slot inside ok).2 pc'
    exact ⟨fun inner => stays inner rfl, rfl⟩
  | drained at_ ok => exact ⟨trivial, rfl⟩
  | swaps at_ ok =>
    rw [at_] at inside
    exact ⟨(Waiter.step_member ok).trans inside, rfl⟩
  | swapped at_ ok => exact ⟨trivial, rfl⟩
  | unswapped at_ ok => exact ⟨trivial, rfl⟩
  | yield at_ => exact ⟨trivial, rfl⟩
  | ret at_ => exact ⟨trivial, rfl⟩
  | closes at_ closes =>
    rw [at_] at inside
    exact ⟨closes.formed inside, closes.same.2⟩
  | closeReturns at_ closes => exact ⟨trivial, closes.same.2⟩

/-- A statement of the writer stays in the member function it has called. -/
theorem Writes.formed (formed : s.Formed) (writes : Writes s s') :
    s'.writer.Formed ∧ s'.reader = s.reader := by
  have inside := formed.writer
  cases writes with
  | refused at_ closed => exact ⟨trivial, rfl⟩
  | opened at_ open_ => exact ⟨rfl, rfl⟩
  | parks at_ ok =>
    rw [at_] at inside
    exact ⟨(Waiter.step_member ok).trans inside, rfl⟩
  | parked at_ ok => exact ⟨trivial, rfl⟩
  | unparked at_ ok => exact ⟨trivial, rfl⟩
  | closedSince at_ closed => exact ⟨trivial, rfl⟩
  | stillOpen at_ open_ => exact ⟨trivial, rfl⟩
  | clearClosed at_ => exact ⟨trivial, rfl⟩
  | assertReader at_ set => exact ⟨trivial, rfl⟩
  | emplace at_ target calling => exact ⟨trivial, rfl⟩
  | clearParked at_ => exact ⟨rfl, rfl⟩
  | clear at_ => exact ⟨by simp [WindowWritePc.Formed, DrainPc.inside], rfl⟩
  | swaps at_ ok =>
    rw [at_] at inside
    exact ⟨(Waiter.step_member ok).trans inside, rfl⟩
  | swapped at_ ok => exact ⟨trivial, rfl⟩
  | unswapped at_ ok => exact ⟨trivial, rfl⟩
  | swapAgain at_ => exact ⟨rfl, rfl⟩
  | nobody at_ empty => exact ⟨trivial, rfl⟩
  | somebody at_ stands => exact ⟨trivial, rfl⟩
  | noReader at_ null => exact ⟨trivial, rfl⟩
  | reader at_ set => exact ⟨trivial, rfl⟩
  | @drains t pc pc' waiter at_ ok =>
    rw [at_] at inside
    have stays := (Waiter.drain_slot inside ok).2 pc'
    exact ⟨fun inner => stays inner rfl, rfl⟩
  | drained at_ ok => exact ⟨trivial, rfl⟩
  | yield at_ => exact ⟨trivial, rfl⟩
  | ret at_ => exact ⟨trivial, rfl⟩
  | closes at_ closes =>
    rw [at_] at inside
    exact ⟨closes.formed inside, closes.same.1⟩
  | closeReturns at_ closes => exact ⟨trivial, closes.same.1⟩

/-- A statement of the reader moves it through the waiter's code. -/
theorem Reads.moves (formed : s.Formed) (reads : Reads s s') :
    Waiter.Moves .reader s.closed s.waiter s.reader.role s'.reader.role s'.waiter := by
  have inside := formed.reader
  cases reads with
  | assertEntry at_ null => exact .enter (by rw [at_]; rfl) rfl rfl
  | setReader at_ => exact .enter (by rw [at_]; rfl) rfl rfl
  | closed at_ closed => exact .enter (by rw [at_]; rfl) rfl rfl
  | opened at_ open_ => exact .enter (by rw [at_]; rfl) rfl rfl
  | parks at_ ok => exact .step (by rw [at_]; rfl) ok
  | parked at_ ok => exact .step (by rw [at_]; rfl) ok
  | unparked at_ ok => exact .next (by rw [at_]; rfl) ok rfl rfl
  | assertServed at_ null => exact .enter (by rw [at_]; rfl) rfl rfl
  | drains at_ ok =>
    rw [at_] at inside ⊢
    exact Waiter.moves_of_drain inside ok
  | drained at_ ok =>
    rw [at_] at inside ⊢
    exact Waiter.moves_of_drain inside ok
  | swaps at_ ok => exact .step (by rw [at_]; rfl) ok
  | swapped at_ ok => exact .step (by rw [at_]; rfl) ok
  | unswapped at_ ok => exact .step (by rw [at_]; rfl) ok
  | yield at_ => exact .yield (by rw [at_]; rfl) rfl rfl
  | ret at_ => exact .enter (by rw [at_]; rfl) rfl rfl
  | closes at_ closes =>
    rw [at_] at inside ⊢
    exact closes.moves inside
  | closeReturns at_ closes =>
    rw [at_] at inside ⊢
    exact closes.moves inside

/-- A statement of the writer moves it through the waiter's code. -/
theorem Writes.moves (formed : s.Formed) (writes : Writes s s') :
    Waiter.Moves .writer s.closed s.waiter s.writer.role s'.writer.role s'.waiter := by
  have inside := formed.writer
  cases writes with
  | refused at_ closed => exact .enter (by rw [at_]; rfl) rfl rfl
  | opened at_ open_ => exact .enter (by rw [at_]; rfl) rfl rfl
  | parks at_ ok => exact .step (by rw [at_]; rfl) ok
  | parked at_ ok => exact .step (by rw [at_]; rfl) ok
  | unparked at_ ok => exact .step (by rw [at_]; rfl) ok
  | closedSince at_ closed => exact .enter (by rw [at_]; rfl) rfl rfl
  | stillOpen at_ open_ => exact .enter (by rw [at_]; rfl) rfl rfl
  | clearClosed at_ => exact .enter (by rw [at_]; rfl) rfl rfl
  | assertReader at_ set => exact .enter (by rw [at_]; rfl) rfl rfl
  | emplace at_ target calling => exact .enter (by rw [at_]; rfl) rfl rfl
  | clearParked at_ => exact .enter (by rw [at_]; rfl) rfl rfl
  | clear at_ => exact .enter (by rw [at_]; rfl) rfl rfl
  | swaps at_ ok => exact .step (by rw [at_]; rfl) ok
  | swapped at_ ok => exact .step (by rw [at_]; rfl) ok
  | unswapped at_ ok => exact .step (by rw [at_]; rfl) ok
  | swapAgain at_ => exact .yield (by rw [at_]; rfl) rfl rfl
  | nobody at_ empty => exact .enter (by rw [at_]; rfl) rfl rfl
  | somebody at_ stands => exact .enter (by rw [at_]; rfl) rfl rfl
  | noReader at_ null => exact .enter (by rw [at_]; rfl) rfl rfl
  | reader at_ set => exact .enter (by rw [at_]; rfl) rfl rfl
  | drains at_ ok =>
    rw [at_] at inside ⊢
    exact Waiter.moves_of_drain inside ok
  | drained at_ ok =>
    rw [at_] at inside ⊢
    exact Waiter.moves_of_drain inside ok
  | yield at_ => exact .yield (by rw [at_]; rfl) rfl rfl
  | ret at_ => exact .enter (by rw [at_]; rfl) rfl rfl
  | closes at_ closes =>
    rw [at_] at inside ⊢
    exact closes.moves inside
  | closeReturns at_ closes =>
    rw [at_] at inside ⊢
    exact closes.moves inside

/-- A statement of the reader changes its own role only. -/
theorem Reads.role (formed : s.Formed) (reads : Reads s s') :
    s'.role = update s.role .reader s'.reader.role := by
  have same := (reads.formed formed).2
  funext p
  cases p with
  | reader => rfl
  | writer => exact congrArg WindowWritePc.role same

/-- A statement of the writer changes its own role only. -/
theorem Writes.role (formed : s.Formed) (writes : Writes s s') :
    s'.role = update s.role .writer s'.writer.role := by
  have same := (writes.formed formed).2
  funext p
  cases p with
  | reader => exact congrArg WindowReadPc.role same
  | writer => rfl

/-- A reader that may wait is in `park_if` or in `swap`. -/
theorem Formed.reader_at (formed : s.Formed) {pc : WaiterPc Party}
    (role : s.role .reader = some pc) (away : pc.member ≠ .unpark) :
    s.reader = .park pc ∨ s.reader = .swap pc := by
  have inside := formed.reader
  simp only [Window.role] at role
  cases at_ : s.reader with
  | park pc' =>
    rw [at_] at role
    exact .inl (congrArg _ (Option.some.inj role))
  | swap pc' =>
    rw [at_] at role
    exact .inr (congrArg _ (Option.some.inj role))
  | drain pc' =>
    rw [at_] at role inside
    exact absurd (inside pc role) away
  | close pc' =>
    rw [at_] at role inside
    cases pc' with
    | drain pc' => exact absurd (inside pc role) away
    | store | clear => cases role
  | idle | assertEntry | setReader | checkClosed | assertServed | yield | ret =>
    rw [at_] at role
    cases role

/-- A writer that may wait is in `park_if` or in `swap`. -/
theorem Formed.writer_at (formed : s.Formed) {pc : WaiterPc Party}
    (role : s.role .writer = some pc) (away : pc.member ≠ .unpark) :
    ∃ t, s.writer = .park t pc ∨ s.writer = .swap t pc := by
  have inside := formed.writer
  simp only [Window.role] at role
  cases at_ : s.writer with
  | park t pc' =>
    rw [at_] at role
    exact ⟨t, .inl (congrArg _ (Option.some.inj role))⟩
  | swap t pc' =>
    rw [at_] at role
    exact ⟨t, .inr (congrArg _ (Option.some.inj role))⟩
  | drain t pc' =>
    rw [at_] at role inside
    exact absurd (inside pc role) away
  | close pc' =>
    rw [at_] at role inside
    cases pc' with
    | drain pc' => exact absurd (inside pc role) away
    | store | clear => cases role
  | idle | checkClosed | checkAgain | clearClosed | assertReader | emplace | clear | swapAgain
  | testWaiter | testReader | yield | ret =>
    rw [at_] at role
    cases role

/-- Every step keeps the waiter in order and the tasks in its code. -/
theorem Formed.step (formed : s.Formed) (steps : Steps s l s') : s'.Formed := by
  cases steps with
  | reads running reads =>
    obtain ⟨reader, same⟩ := reads.formed formed
    refine ⟨?_, reader, same ▸ formed.writer⟩
    rw [reads.role formed]
    exact formed.waiter.moves running rfl (reads.moves formed)
  | writes running writes =>
    obtain ⟨writer, same⟩ := writes.formed formed
    refine ⟨?_, same ▸ formed.reader, writer⟩
    rw [writes.role formed]
    exact formed.waiter.moves running rfl (writes.moves formed)
  | preempt running => exact { formed with waiter := formed.waiter.preempt running }
  | dispatch idle queued => exact { formed with waiter := formed.waiter.dispatch idle queued }
  | read running at_ =>
    have out : s.role .reader = none := by simp only [role, at_]; rfl
    have inv : s.waiter.Inv (update s.role .reader none) := formed.waiter.enter running out rfl rfl
    exact ⟨role_reader s .assertEntry ▸ inv, trivial, formed.writer⟩
  | @write t running at_ =>
    have out : s.role .writer = none := by simp only [role, at_]; rfl
    have inv : s.waiter.Inv (update s.role .writer none) := formed.waiter.enter running out rfl rfl
    exact ⟨role_writer s (.checkClosed t) ▸ inv, formed.reader, trivial⟩
  | readerCloses running at_ =>
    have out : s.role .reader = none := by simp only [role, at_]; rfl
    have inv : s.waiter.Inv (update s.role .reader none) := formed.waiter.enter running out rfl rfl
    exact ⟨role_reader s (.close .store) ▸ inv, trivial, formed.writer⟩
  | writerCloses running at_ =>
    have out : s.role .writer = none := by simp only [role, at_]; rfl
    have inv : s.waiter.Inv (update s.role .writer none) := formed.waiter.enter running out rfl rfl
    exact ⟨role_writer s (.close .store) ▸ inv, formed.reader, trivial⟩

/-- A new window is in order. -/
theorem formed_start : (start : Window α).Formed := by
  refine ⟨?_, trivial, trivial⟩
  have out : (start : Window α).role = fun _ => none := by
    funext p
    cases p <;> rfl
  rw [out]
  exact Waiter.inv_start

end Window

end Gthread

import Gthread.Concur.RingBuffer
import Gthread.Concur.WaiterLaws

/-! What each statement of a ring buffer does, and what its tasks know at it. -/

namespace Gthread

open Function (update update_of_ne update_self)

variable {α : Type} {size : RingSize}

namespace ReadPc

/-- The statement of the waiter that the reading task is at. -/
def role : ReadPc α → Option (WaiterPc Party)
  | .park _ _ pc _ => some pc
  | .drain _ pc | .closeDrain pc => pc.inside
  | _ => none

/-- The reader's own counter, once it is loaded and until it is stored. -/
def counter : ReadPc α → Option (BitVec 64)
  | .loadW r | .park r _ _ _ | .take r | .storeR r _ => some r
  | _ => none

/-- Between the store to `_r` and the end of the loop that follows it. -/
def waking : ReadPc α → Bool
  | .drain _ _ => true
  | _ => false

/-- In the loop that waits for a value. -/
def spins : ReadPc α → Bool
  | .loadW _ | .park _ _ _ _ => true
  | _ => false

/-- The value that is read and not yet returned, once `_r` is stored. -/
def held : ReadPc α → List α
  | .drain v _ | .ret (some v) => [v]
  | _ => []

/-- Whether the element at the reader's counter was moved out already. -/
def emptied : ReadPc α → Bool
  | .storeR _ _ => true
  | _ => false

/-- Whether the task is inside `close`. -/
def closes : ReadPc α → Bool
  | .close | .closeDrain _ => true
  | _ => false

/-- Whether the call is bound to return an empty optional. -/
def ends : ReadPc α → Bool
  | .park _ _ _ loadedClosed => loadedClosed
  | .ret none => true
  | _ => false

/-- The loop parks when it has found the buffer empty, and the waiter's code stays in bounds. -/
def Formed : ReadPc α → Prop
  | .park r w pc _ => pc.member = .parkIf ∧ w = r
  | .drain _ pc | .closeDrain pc => ∀ inner, pc.inside = some inner → inner.member = .unpark
  | _ => True

end ReadPc

namespace WritePc

/-- The statement of the waiter that the writing task is at. -/
def role : WritePc α → Option (WaiterPc Party)
  | .park _ _ _ pc _ => some pc
  | .drain _ pc | .closeDrain pc => pc.inside
  | _ => none

/-- The writer's own counter, once it is loaded and until it is stored. -/
def counter : WritePc α → Option (BitVec 64)
  | .loadR _ w | .park _ w _ _ _ | .put _ w | .storeW _ w => some w
  | _ => none

/-- Between the store to `_w` and the end of the loop that follows it. -/
def waking : WritePc α → Bool
  | .drain _ _ => true
  | _ => false

/-- In the loop that waits for room. -/
def spins : WritePc α → Bool
  | .loadR _ _ | .park _ _ _ _ _ => true
  | _ => false

/-- The value that is written and whose acceptance is not yet returned. -/
def held : WritePc α → List α
  | .drain v _ | .ret v true => [v]
  | _ => []

/-- Statements that do not lead to a store unless the buffer is open. -/
def stops : WritePc α → Bool
  | .idle | .checkClosed _ | .ret _ _ | .close | .closeDrain _ => true
  | _ => false

/-- The loop parks when it has found the buffer full, and the waiter's code stays in bounds. -/
def Formed (size : RingSize) : WritePc α → Prop
  | .park _ w r pc _ => pc.member = .parkIf ∧ w - r = size.value
  | .drain _ pc | .closeDrain pc => ∀ inner, pc.inside = some inner → inner.member = .unpark
  | _ => True

end WritePc

namespace Ring

variable {s s' : Ring α} {l : ChannelLabel α}

/-- The statements of the waiter that the tasks are at. -/
def role (s : Ring α) : Party → Option (WaiterPc Party)
  | .reader => s.reader.role
  | .writer => s.writer.role

/-- What a statement of the reading task does. -/
inductive Reads (size : RingSize) (s : Ring α) : Ring α → Prop
  | loadR (at_ : s.reader = .loadR) : Reads size s { s with reader := .loadW s.r }
  | empty {r : BitVec 64} (at_ : s.reader = .loadW r) (none_ : s.w - r = 0) :
      Reads size s { s with reader := .park r s.w .claim false }
  | ready {r : BitVec 64} (at_ : s.reader = .loadW r) (some_ : s.w - r ≠ 0) :
      Reads size s { s with reader := .take r }
  | parks {r w : BitVec 64} {pc pc' : WaiterPc Party} {loadedClosed : Bool} {waiter : Waiter Party}
      (at_ : s.reader = .park r w pc loadedClosed)
      (ok : s.waiter.step .reader s.closed pc = .ok (.goto pc', waiter)) :
      Reads size s { s with
        waiter
        reader := .park r w pc' (if pc = .check then s.closed else loadedClosed) }
  | parked {r w : BitVec 64} {pc : WaiterPc Party} {loadedClosed result : Bool}
      {waiter : Waiter Party}
      (at_ : s.reader = .park r w pc loadedClosed)
      (ok : s.waiter.step .reader s.closed pc = .ok (.return_ result, waiter)) :
      Reads size s { s with waiter, reader := if loadedClosed then .ret none else .loadW r }
  | take {r : BitVec 64} {v : α} (at_ : s.reader = .take r)
      (found : s.buffer (r &&& size.mask) = some v) :
      Reads size s { s with
        buffer := update s.buffer (r &&& size.mask) none
        reader := .storeR r v }
  | storeR {r : BitVec 64} {v : α} (at_ : s.reader = .storeR r v) :
      Reads size s { s with r := r + 1, reader := .drain v .test }
  | drains {v : α} {pc pc' : DrainPc Party} {waiter : Waiter Party} (at_ : s.reader = .drain v pc)
      (ok : s.waiter.drain .reader pc = .ok (some pc', waiter)) :
      Reads size s { s with waiter, reader := .drain v pc' }
  | drained {v : α} {pc : DrainPc Party} {waiter : Waiter Party} (at_ : s.reader = .drain v pc)
      (ok : s.waiter.drain .reader pc = .ok (none, waiter)) :
      Reads size s { s with waiter, reader := .ret (some v) }
  | ret {result : Option α} (at_ : s.reader = .ret result) :
      Reads size s { s with delivered := s.delivered ++ result.toList, reader := .idle }
  | close (at_ : s.reader = .close) :
      Reads size s { s with closed := true, reader := .closeDrain .test }
  | closeDrains {pc pc' : DrainPc Party} {waiter : Waiter Party} (at_ : s.reader = .closeDrain pc)
      (ok : s.waiter.drain .reader pc = .ok (some pc', waiter)) :
      Reads size s { s with waiter, reader := .closeDrain pc' }
  | closeDrained {pc : DrainPc Party} {waiter : Waiter Party} (at_ : s.reader = .closeDrain pc)
      (ok : s.waiter.drain .reader pc = .ok (none, waiter)) :
      Reads size s { s with waiter, reader := .idle }

/-- A statement of the reading task does one of these things. -/
theorem reads_of_ok (ok : s.runReader size = .ok s') : Reads size s s' := by
  cases at_ : s.reader with
  | idle => simp [runReader, at_] at ok
  | loadR =>
    simp only [runReader, at_, Except.ok.injEq] at ok
    exact ok ▸ .loadR at_
  | loadW r =>
    simp only [runReader, at_, Except.ok.injEq] at ok
    by_cases none_ : s.w - r = 0
    · rw [if_pos none_] at ok
      exact ok ▸ .empty at_ none_
    · rw [if_neg none_] at ok
      exact ok ▸ .ready at_ none_
  | park r w pc loadedClosed =>
    cases done : s.waiter.step .reader s.closed pc with
    | error fault => simp [runReader, at_, done, Bind.bind, Except.bind] at ok
    | ok result =>
      obtain ⟨outcome, waiter⟩ := result
      simp only [runReader, at_, done, Bind.bind, Except.bind, pure, Except.pure] at ok
      cases outcome with
      | goto pc' =>
        simp only [Except.ok.injEq] at ok
        exact ok ▸ .parks at_ done
      | return_ result =>
        -- The check itself never returns.
        have other : pc ≠ .check := by
          rintro rfl
          simp [Waiter.step] at done
        simp only [Except.ok.injEq, if_neg other] at ok
        exact ok ▸ .parked at_ done
  | take r =>
    cases found : s.buffer (r &&& size.mask) with
    | none => simp [runReader, at_, found] at ok
    | some v =>
      simp only [runReader, at_, found, Except.ok.injEq] at ok
      exact ok ▸ .take at_ found
  | storeR r v =>
    simp only [runReader, at_, Except.ok.injEq] at ok
    exact ok ▸ .storeR at_
  | drain v pc =>
    cases done : s.waiter.drain .reader pc with
    | error fault => simp [runReader, at_, done, Bind.bind, Except.bind] at ok
    | ok result =>
      obtain ⟨next, waiter⟩ := result
      simp only [runReader, at_, done, Bind.bind, Except.bind, pure, Except.pure] at ok
      cases next with
      | none =>
        simp only [Except.ok.injEq] at ok
        exact ok ▸ .drained at_ done
      | some pc' =>
        simp only [Except.ok.injEq] at ok
        exact ok ▸ .drains at_ done
  | ret result =>
    simp only [runReader, at_, Except.ok.injEq] at ok
    exact ok ▸ .ret at_
  | close =>
    simp only [runReader, at_, Except.ok.injEq] at ok
    exact ok ▸ .close at_
  | closeDrain pc =>
    cases done : s.waiter.drain .reader pc with
    | error fault => simp [runReader, at_, done, Bind.bind, Except.bind] at ok
    | ok result =>
      obtain ⟨next, waiter⟩ := result
      simp only [runReader, at_, done, Bind.bind, Except.bind, pure, Except.pure] at ok
      cases next with
      | none =>
        simp only [Except.ok.injEq] at ok
        exact ok ▸ .closeDrained at_ done
      | some pc' =>
        simp only [Except.ok.injEq] at ok
        exact ok ▸ .closeDrains at_ done

/-- What a statement of the writing task does. -/
inductive Writes (size : RingSize) (s : Ring α) : Ring α → Prop
  | refused {v : α} (at_ : s.writer = .checkClosed v) (closed : s.closed = true) :
      Writes size s { s with writer := .ret v false }
  | opened {v : α} (at_ : s.writer = .checkClosed v) (open_ : s.closed = false) :
      Writes size s { s with writer := .loadW v }
  | loadW {v : α} (at_ : s.writer = .loadW v) : Writes size s { s with writer := .loadR v s.w }
  | full {v : α} {w : BitVec 64} (at_ : s.writer = .loadR v w) (full_ : w - s.r = size.value) :
      Writes size s { s with writer := .park v w s.r .claim false }
  | room {v : α} {w : BitVec 64} (at_ : s.writer = .loadR v w) (room_ : w - s.r ≠ size.value) :
      Writes size s { s with writer := .put v w }
  | parks {v : α} {w r : BitVec 64} {pc pc' : WaiterPc Party} {loadedClosed : Bool}
      {waiter : Waiter Party}
      (at_ : s.writer = .park v w r pc loadedClosed)
      (ok : s.waiter.step .writer s.closed pc = .ok (.goto pc', waiter)) :
      Writes size s { s with
        waiter
        writer := .park v w r pc' (if pc = .check then s.closed else loadedClosed) }
  | parked {v : α} {w r : BitVec 64} {pc : WaiterPc Party} {loadedClosed result : Bool}
      {waiter : Waiter Party} (at_ : s.writer = .park v w r pc loadedClosed)
      (ok : s.waiter.step .writer s.closed pc = .ok (.return_ result, waiter)) :
      Writes size s { s with waiter, writer := if loadedClosed then .ret v false else .loadR v w }
  | put {v : α} {w : BitVec 64} (at_ : s.writer = .put v w) :
      Writes size s { s with
        buffer := update s.buffer (w &&& size.mask) (some v)
        writer := .storeW v w }
  | storeW {v : α} {w : BitVec 64} (at_ : s.writer = .storeW v w) :
      Writes size s { s with w := w + 1, pushed := s.pushed ++ [v], writer := .drain v .test }
  | drains {v : α} {pc pc' : DrainPc Party} {waiter : Waiter Party} (at_ : s.writer = .drain v pc)
      (ok : s.waiter.drain .writer pc = .ok (some pc', waiter)) :
      Writes size s { s with waiter, writer := .drain v pc' }
  | drained {v : α} {pc : DrainPc Party} {waiter : Waiter Party} (at_ : s.writer = .drain v pc)
      (ok : s.waiter.drain .writer pc = .ok (none, waiter)) :
      Writes size s { s with waiter, writer := .ret v true }
  | ret {v : α} {accepted : Bool} (at_ : s.writer = .ret v accepted) :
      Writes size s { s with
        accepted := if accepted then s.accepted ++ [v] else s.accepted
        writer := .idle }
  | close (at_ : s.writer = .close) :
      Writes size s { s with closed := true, writer := .closeDrain .test }
  | closeDrains {pc pc' : DrainPc Party} {waiter : Waiter Party} (at_ : s.writer = .closeDrain pc)
      (ok : s.waiter.drain .writer pc = .ok (some pc', waiter)) :
      Writes size s { s with waiter, writer := .closeDrain pc' }
  | closeDrained {pc : DrainPc Party} {waiter : Waiter Party} (at_ : s.writer = .closeDrain pc)
      (ok : s.waiter.drain .writer pc = .ok (none, waiter)) :
      Writes size s { s with waiter, writer := .idle }

/-- A statement of the writing task does one of these things. -/
theorem writes_of_ok (ok : s.runWriter size = .ok s') : Writes size s s' := by
  cases at_ : s.writer with
  | idle => simp [runWriter, at_] at ok
  | checkClosed v =>
    simp only [runWriter, at_, Except.ok.injEq] at ok
    by_cases closed : s.closed = true
    · rw [if_pos closed] at ok
      exact ok ▸ .refused at_ closed
    · rw [if_neg closed] at ok
      exact ok ▸ .opened at_ (by simpa using closed)
  | loadW v =>
    simp only [runWriter, at_, Except.ok.injEq] at ok
    exact ok ▸ .loadW at_
  | loadR v w =>
    simp only [runWriter, at_, Except.ok.injEq] at ok
    by_cases full : w - s.r = size.value
    · rw [if_pos full] at ok
      exact ok ▸ .full at_ full
    · rw [if_neg full] at ok
      exact ok ▸ .room at_ full
  | park v w r pc loadedClosed =>
    cases done : s.waiter.step .writer s.closed pc with
    | error fault => simp [runWriter, at_, done, Bind.bind, Except.bind] at ok
    | ok result =>
      obtain ⟨outcome, waiter⟩ := result
      simp only [runWriter, at_, done, Bind.bind, Except.bind, pure, Except.pure] at ok
      cases outcome with
      | goto pc' =>
        simp only [Except.ok.injEq] at ok
        exact ok ▸ .parks at_ done
      | return_ result =>
        have other : pc ≠ .check := by
          rintro rfl
          simp [Waiter.step] at done
        simp only [Except.ok.injEq, if_neg other] at ok
        exact ok ▸ .parked at_ done
  | put v w =>
    simp only [runWriter, at_, Except.ok.injEq] at ok
    exact ok ▸ .put at_
  | storeW v w =>
    simp only [runWriter, at_, Except.ok.injEq] at ok
    exact ok ▸ .storeW at_
  | drain v pc =>
    cases done : s.waiter.drain .writer pc with
    | error fault => simp [runWriter, at_, done, Bind.bind, Except.bind] at ok
    | ok result =>
      obtain ⟨next, waiter⟩ := result
      simp only [runWriter, at_, done, Bind.bind, Except.bind, pure, Except.pure] at ok
      cases next with
      | none =>
        simp only [Except.ok.injEq] at ok
        exact ok ▸ .drained at_ done
      | some pc' =>
        simp only [Except.ok.injEq] at ok
        exact ok ▸ .drains at_ done
  | ret v accepted =>
    simp only [runWriter, at_, Except.ok.injEq] at ok
    exact ok ▸ .ret at_
  | close =>
    simp only [runWriter, at_, Except.ok.injEq] at ok
    exact ok ▸ .close at_
  | closeDrain pc =>
    cases done : s.waiter.drain .writer pc with
    | error fault => simp [runWriter, at_, done, Bind.bind, Except.bind] at ok
    | ok result =>
      obtain ⟨next, waiter⟩ := result
      simp only [runWriter, at_, done, Bind.bind, Except.bind, pure, Except.pure] at ok
      cases next with
      | none =>
        simp only [Except.ok.injEq] at ok
        exact ok ▸ .closeDrained at_ done
      | some pc' =>
        simp only [Except.ok.injEq] at ok
        exact ok ▸ .closeDrains at_ done

/-- What a step does. -/
inductive Steps (size : RingSize) (s : Ring α) : ChannelLabel α → Ring α → Prop
  | reads {s' : Ring α} (running : s.waiter.cpu.running = some .reader) (reads : Reads size s s') :
      Steps size s .run s'
  | writes {s' : Ring α} (running : s.waiter.cpu.running = some .writer)
      (writes : Writes size s s') : Steps size s .run s'
  | preempt {p : Party} (running : s.waiter.cpu.running = some p) :
      Steps size s .preempt { s with waiter := s.waiter.yield p }
  | dispatch {p : Party} (idle : s.waiter.cpu.running = none)
      (queued : s.waiter.cpu.queued p = true) :
      Steps size s (.dispatch p) { s with waiter := { s.waiter with cpu := s.waiter.cpu.enter p } }
  | read (running : s.waiter.cpu.running = some .reader) (at_ : s.reader = .idle) :
      Steps size s .read { s with reader := .loadR }
  | write {v : α} (running : s.waiter.cpu.running = some .writer) (at_ : s.writer = .idle) :
      Steps size s (.write v) { s with writer := .checkClosed v }
  | readerCloses (running : s.waiter.cpu.running = some .reader) (at_ : s.reader = .idle) :
      Steps size s (.close .reader) { s with reader := .close }
  | writerCloses (running : s.waiter.cpu.running = some .writer) (at_ : s.writer = .idle) :
      Steps size s (.close .writer) { s with writer := .close }

/-- A step does one of these things. -/
theorem steps_of_ok (ok : s.step size l = .ok s') : Steps size s l s' := by
  cases l with
  | run =>
    simp only [step] at ok
    split at ok
    · cases ok
    · rename_i running
      exact .reads running (reads_of_ok ok)
    · rename_i running
      exact .writes running (writes_of_ok ok)
  | preempt =>
    simp only [step] at ok
    split at ok
    · cases ok
    · rename_i p running
      simp only [Except.ok.injEq] at ok
      exact ok ▸ .preempt running
  | dispatch p =>
    simp only [step] at ok
    split at ok
    · rename_i ready
      simp only [Except.ok.injEq] at ok
      exact ok ▸ .dispatch ready.1 ready.2
    · cases ok
  | read =>
    simp only [step] at ok
    split at ok
    · rename_i running at_
      simp only [Except.ok.injEq] at ok
      exact ok ▸ .read running at_
    · cases ok
  | write v =>
    simp only [step] at ok
    split at ok
    · rename_i running at_
      simp only [Except.ok.injEq] at ok
      exact ok ▸ .write running at_
    · cases ok
  | close p =>
    cases p with
    | reader =>
      simp only [step] at ok
      split at ok
      · rename_i running at_
        simp only [Except.ok.injEq] at ok
        exact ok ▸ .readerCloses running at_
      · cases ok
    | writer =>
      simp only [step] at ok
      split at ok
      · rename_i running at_
        simp only [Except.ok.injEq] at ok
        exact ok ▸ .writerCloses running at_
      · cases ok

/-- What a task has loaded of its own counter is still there, as nobody else stores to it. -/
structure Loaded (s : Ring α) : Prop where
  readerCounter : ∀ r, s.reader.counter = some r → r = s.r
  writerCounter : ∀ w, s.writer.counter = some w → w = s.w

/-- A statement of the reader keeps the counters as loaded. -/
theorem Loaded.reads (loaded : s.Loaded) (reads : Reads size s s') : s'.Loaded := by
  obtain ⟨readerCounter, writerCounter⟩ := loaded
  cases reads with
  -- These statements go on with the counter that they have loaded.
  | empty at_ none_ | ready at_ some_ | parks at_ ok | take at_ found =>
    obtain rfl := readerCounter _ (by rw [at_]; rfl)
    exact ⟨by simp [ReadPc.counter], writerCounter⟩
  | @parked r w pc loadedClosed result waiter at_ ok =>
    obtain rfl := readerCounter r (by rw [at_]; rfl)
    refine ⟨?_, writerCounter⟩
    cases loadedClosed <;> simp [ReadPc.counter]
  | _ => exact ⟨by simp [ReadPc.counter], writerCounter⟩

/-- A statement of the writer keeps the counters as loaded. -/
theorem Loaded.writes (loaded : s.Loaded) (writes : Writes size s s') : s'.Loaded := by
  obtain ⟨readerCounter, writerCounter⟩ := loaded
  cases writes with
  | full at_ full_ | room at_ room_ | parks at_ ok | put at_ =>
    obtain rfl := writerCounter _ (by rw [at_]; rfl)
    exact ⟨readerCounter, by simp [WritePc.counter]⟩
  | @parked v w r pc loadedClosed result waiter at_ ok =>
    obtain rfl := writerCounter w (by rw [at_]; rfl)
    refine ⟨readerCounter, ?_⟩
    cases loadedClosed <;> simp [WritePc.counter]
  | _ => exact ⟨readerCounter, by simp [WritePc.counter]⟩

/-- Every step keeps the counters as loaded. -/
theorem Loaded.step (loaded : s.Loaded) (steps : Steps size s l s') : s'.Loaded := by
  cases steps with
  | reads running reads => exact loaded.reads reads
  | writes running writes => exact loaded.writes writes
  | preempt running => exact { loaded with }
  | dispatch idle queued => exact { loaded with }
  | read running at_ | readerCloses running at_ =>
    exact ⟨by simp [ReadPc.counter], loaded.writerCounter⟩
  | write running at_ | writerCloses running at_ =>
    exact ⟨loaded.readerCounter, by simp [WritePc.counter]⟩

/-- The waiter is in order, and each task's locals are what it loaded. -/
structure Formed (size : RingSize) (s : Ring α) : Prop where
  waiter : s.waiter.Inv s.role
  reader : s.reader.Formed
  writer : s.writer.Formed size
  loaded : s.Loaded

/-- The roles once the reader has moved. -/
theorem role_reader (s : Ring α) (pc : ReadPc α) :
    { s with reader := pc }.role = update s.role .reader pc.role := by
  funext p
  cases p <;> rfl

/-- The roles once the writer has moved. -/
theorem role_writer (s : Ring α) (pc : WritePc α) :
    { s with writer := pc }.role = update s.role .writer pc.role := by
  funext p
  cases p <;> rfl

/-- A statement of the reader moves it through the waiter's code. -/
theorem Reads.moves (formed : s.Formed size) (reads : Reads size s s') :
    Waiter.Moves .reader s.closed s.waiter s.reader.role s'.reader.role s'.waiter := by
  have inside := formed.reader
  cases reads with
  | loadR at_ => exact .enter (by rw [at_]; rfl) rfl rfl
  | empty at_ none_ => exact .enter (by rw [at_]; rfl) rfl rfl
  | ready at_ some_ => exact .enter (by rw [at_]; rfl) rfl rfl
  | parks at_ ok => exact .step (by rw [at_]; rfl) ok
  | @parked r w pc loadedClosed result waiter at_ ok =>
    -- Whichever way the loop goes on, the task has left the waiter's code.
    have out : (if loadedClosed then .ret none else .loadW r : ReadPc α).role = none := by
      cases loadedClosed <;> rfl
    exact .next (by rw [at_]; rfl) ok (by rw [out]; rfl) (by rw [out]; rfl)
  | take at_ found => exact .enter (by rw [at_]; rfl) rfl rfl
  | storeR at_ => exact .enter (by rw [at_]; rfl) rfl rfl
  | drains at_ ok =>
    rw [at_] at inside ⊢
    exact Waiter.moves_of_drain inside ok
  | drained at_ ok =>
    rw [at_] at inside ⊢
    exact Waiter.moves_of_drain inside ok
  | ret at_ => exact .enter (by rw [at_]; rfl) rfl rfl
  | close at_ => exact .enter (by rw [at_]; rfl) rfl rfl
  | closeDrains at_ ok =>
    rw [at_] at inside ⊢
    exact Waiter.moves_of_drain inside ok
  | closeDrained at_ ok =>
    rw [at_] at inside ⊢
    exact Waiter.moves_of_drain inside ok

/-- A statement of the writer moves it through the waiter's code. -/
theorem Writes.moves (formed : s.Formed size) (writes : Writes size s s') :
    Waiter.Moves .writer s.closed s.waiter s.writer.role s'.writer.role s'.waiter := by
  have inside := formed.writer
  cases writes with
  | refused at_ closed => exact .enter (by rw [at_]; rfl) rfl rfl
  | opened at_ open_ => exact .enter (by rw [at_]; rfl) rfl rfl
  | loadW at_ => exact .enter (by rw [at_]; rfl) rfl rfl
  | full at_ full_ => exact .enter (by rw [at_]; rfl) rfl rfl
  | room at_ room_ => exact .enter (by rw [at_]; rfl) rfl rfl
  | parks at_ ok => exact .step (by rw [at_]; rfl) ok
  | @parked v w r pc loadedClosed result waiter at_ ok =>
    have out : (if loadedClosed then .ret v false else .loadR v w : WritePc α).role = none := by
      cases loadedClosed <;> rfl
    exact .next (by rw [at_]; rfl) ok (by rw [out]; rfl) (by rw [out]; rfl)
  | put at_ => exact .enter (by rw [at_]; rfl) rfl rfl
  | storeW at_ => exact .enter (by rw [at_]; rfl) rfl rfl
  | drains at_ ok =>
    rw [at_] at inside ⊢
    exact Waiter.moves_of_drain inside ok
  | drained at_ ok =>
    rw [at_] at inside ⊢
    exact Waiter.moves_of_drain inside ok
  | ret at_ => exact .enter (by rw [at_]; rfl) rfl rfl
  | close at_ => exact .enter (by rw [at_]; rfl) rfl rfl
  | closeDrains at_ ok =>
    rw [at_] at inside ⊢
    exact Waiter.moves_of_drain inside ok
  | closeDrained at_ ok =>
    rw [at_] at inside ⊢
    exact Waiter.moves_of_drain inside ok

/-- A statement of the reader changes its own role only. -/
theorem Reads.role (reads : Reads size s s') :
    s'.role = update s.role .reader s'.reader.role := by
  cases reads <;> exact role_reader s _

/-- A statement of the writer changes its own role only. -/
theorem Writes.role (writes : Writes size s s') :
    s'.role = update s.role .writer s'.writer.role := by
  cases writes <;> exact role_writer s _

/-- A statement of the reader keeps the locals as loaded. -/
theorem Formed.reads (formed : s.Formed size) (running : s.waiter.cpu.running = some .reader)
    (reads : Reads size s s') : s'.Formed size := by
  have waiter : s'.waiter.Inv s'.role :=
    reads.role ▸ formed.waiter.moves running rfl (reads.moves formed)
  have loaded := formed.loaded.reads reads
  obtain ⟨-, reader, writer, ⟨readerCounter, -⟩⟩ := formed
  cases reads with
  | loadR at_ => exact ⟨waiter, trivial, writer, loaded⟩
  | @empty r at_ none_ =>
    obtain rfl := readerCounter r (by rw [at_]; rfl)
    have same : s.w = s.r := by bv_omega
    exact ⟨waiter, ⟨rfl, same⟩, writer, loaded⟩
  | ready at_ some_ => exact ⟨waiter, trivial, writer, loaded⟩
  | @parks r w pc pc' loadedClosed waiter' at_ ok =>
    rw [at_] at reader
    exact ⟨waiter, ⟨(Waiter.step_member ok).trans reader.1, reader.2⟩, writer, loaded⟩
  | @parked r w pc loadedClosed result waiter' at_ ok =>
    refine ⟨waiter, ?_, writer, loaded⟩
    cases loadedClosed <;> trivial
  | take at_ found => exact ⟨waiter, trivial, writer, loaded⟩
  | storeR at_ => exact ⟨waiter, by simp [ReadPc.Formed, DrainPc.inside], writer, loaded⟩
  | @drains v pc pc' waiter' at_ ok =>
    rw [at_] at reader
    have inside := (Waiter.drain_slot reader ok).2 pc'
    exact ⟨waiter, fun inner => inside inner rfl, writer, loaded⟩
  | drained at_ ok => exact ⟨waiter, trivial, writer, loaded⟩
  | ret at_ => exact ⟨waiter, trivial, writer, loaded⟩
  | close at_ => exact ⟨waiter, by simp [ReadPc.Formed, DrainPc.inside], writer, loaded⟩
  | @closeDrains pc pc' waiter' at_ ok =>
    rw [at_] at reader
    have inside := (Waiter.drain_slot reader ok).2 pc'
    exact ⟨waiter, fun inner => inside inner rfl, writer, loaded⟩
  | closeDrained at_ ok => exact ⟨waiter, trivial, writer, loaded⟩

/-- A statement of the writer keeps the locals as loaded. -/
theorem Formed.writes (formed : s.Formed size) (running : s.waiter.cpu.running = some .writer)
    (writes : Writes size s s') : s'.Formed size := by
  have waiter : s'.waiter.Inv s'.role :=
    writes.role ▸ formed.waiter.moves running rfl (writes.moves formed)
  have loaded := formed.loaded.writes writes
  obtain ⟨-, reader, writer, ⟨-, writerCounter⟩⟩ := formed
  cases writes with
  | refused at_ closed => exact ⟨waiter, reader, trivial, loaded⟩
  | opened at_ open_ => exact ⟨waiter, reader, trivial, loaded⟩
  | loadW at_ => exact ⟨waiter, reader, trivial, loaded⟩
  | @full v w at_ full_ =>
    obtain rfl := writerCounter w (by rw [at_]; rfl)
    exact ⟨waiter, reader, ⟨rfl, full_⟩, loaded⟩
  | room at_ room_ => exact ⟨waiter, reader, trivial, loaded⟩
  | @parks v w r pc pc' loadedClosed waiter' at_ ok =>
    rw [at_] at writer
    exact ⟨waiter, reader, ⟨(Waiter.step_member ok).trans writer.1, writer.2⟩, loaded⟩
  | @parked v w r pc loadedClosed result waiter' at_ ok =>
    refine ⟨waiter, reader, ?_, loaded⟩
    cases loadedClosed <;> trivial
  | put at_ => exact ⟨waiter, reader, trivial, loaded⟩
  | storeW at_ => exact ⟨waiter, reader, by simp [WritePc.Formed, DrainPc.inside], loaded⟩
  | @drains v pc pc' waiter' at_ ok =>
    rw [at_] at writer
    have inside := (Waiter.drain_slot writer ok).2 pc'
    exact ⟨waiter, reader, fun inner => inside inner rfl, loaded⟩
  | drained at_ ok => exact ⟨waiter, reader, trivial, loaded⟩
  | ret at_ => exact ⟨waiter, reader, trivial, loaded⟩
  | close at_ => exact ⟨waiter, reader, by simp [WritePc.Formed, DrainPc.inside], loaded⟩
  | @closeDrains pc pc' waiter' at_ ok =>
    rw [at_] at writer
    have inside := (Waiter.drain_slot writer ok).2 pc'
    exact ⟨waiter, reader, fun inner => inside inner rfl, loaded⟩
  | closeDrained at_ ok => exact ⟨waiter, reader, trivial, loaded⟩

/-- Every step keeps the waiter in order and the locals as loaded. -/
theorem Formed.step (formed : s.Formed size) (steps : Steps size s l s') : s'.Formed size := by
  have loaded := formed.loaded.step steps
  cases steps with
  | reads running reads => exact formed.reads running reads
  | writes running writes => exact formed.writes running writes
  | preempt running => exact { formed with waiter := formed.waiter.preempt running, loaded }
  | dispatch idle queued =>
    exact { formed with waiter := formed.waiter.dispatch idle queued, loaded }
  | read running at_ =>
    have out : s.role .reader = none := by simp only [role, at_]; rfl
    have inv : s.waiter.Inv (update s.role .reader none) := formed.waiter.enter running out rfl rfl
    exact ⟨role_reader s .loadR ▸ inv, trivial, formed.writer, loaded⟩
  | @write v running at_ =>
    have out : s.role .writer = none := by simp only [role, at_]; rfl
    have inv : s.waiter.Inv (update s.role .writer none) := formed.waiter.enter running out rfl rfl
    exact ⟨role_writer s (.checkClosed v) ▸ inv, formed.reader, trivial, loaded⟩
  | readerCloses running at_ =>
    have out : s.role .reader = none := by simp only [role, at_]; rfl
    have inv : s.waiter.Inv (update s.role .reader none) := formed.waiter.enter running out rfl rfl
    exact ⟨role_reader s .close ▸ inv, trivial, formed.writer, loaded⟩
  | writerCloses running at_ =>
    have out : s.role .writer = none := by simp only [role, at_]; rfl
    have inv : s.waiter.Inv (update s.role .writer none) := formed.waiter.enter running out rfl rfl
    exact ⟨role_writer s .close ▸ inv, formed.reader, trivial, loaded⟩

/-- A new buffer is in order. -/
theorem formed_start : (start : Ring α).Formed size := by
  refine ⟨?_, trivial, trivial, ⟨by simp [start, ReadPc.counter], by simp [start, WritePc.counter]⟩⟩
  have out : (start : Ring α).role = fun _ => none := by
    funext p
    cases p <;> rfl
  rw [out]
  exact Waiter.inv_start

end Ring

end Gthread

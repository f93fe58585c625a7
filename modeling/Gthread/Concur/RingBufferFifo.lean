import Gthread.Concur.RingBufferOrder

/-! A ring buffer is a bounded queue, wherever its counters start. -/

namespace Gthread

open Function (update update_of_ne update_self)

variable {α : Type} {size : RingSize}

namespace Ring

variable {s s' : Ring α} {l : ChannelLabel α} {base : Nat}

/-- An empty buffer whose counters have come to some value. -/
def startAt (c : BitVec 64) : Ring α := { start with r := c, w := c }

/-- The elements that hold a value: those not yet taken, and the one that is being pushed. -/
def Holds (size : RingSize) (base : Nat) (s : Ring α) (x : BitVec 64) : Prop :=
  (∃ i, s.taken ≤ i ∧ i < s.pushed.length ∧ (i = s.taken → s.reader.emptied = false) ∧
    x = BitVec.ofNat 64 (base + i) &&& size.mask) ∨
  ∃ v w, s.writer = .storeW v w ∧ x = w &&& size.mask

/-- All other elements are raw storage. -/
def Vacant (size : RingSize) (base : Nat) (s : Ring α) : Prop :=
  ∀ x, s.buffer x ≠ none → s.Holds size base x

/-- A reader that neither moves a value nor stores its counter leaves the elements as they are. -/
theorem Vacant.reader_moves (vacant : s.Vacant size base) {pc : ReadPc α} {waiter : Waiter Party}
    {delivered : List α} {closed : Bool}
    (same : delivered ++ pc.held = s.delivered ++ s.reader.held)
    (kept : pc.emptied = false) :
    { s with waiter, delivered, closed, reader := pc }.Vacant size base := by
  have count : { s with waiter, delivered, closed, reader := pc }.taken = s.taken := by
    have lengths := congrArg List.length same
    simpa [taken] using lengths
  intro x full
  rcases vacant x full with ⟨i, low, high, -, rfl⟩ | stored
  · exact .inl ⟨i, by rw [count]; exact low, high, fun _ => kept, rfl⟩
  · exact .inr stored

/-- A statement of the reader leaves raw storage behind where it takes a value out. -/
theorem Vacant.reads (vacant : s.Vacant size base) (ordered : s.Ordered size base)
    (loaded : s.Loaded) (reads : Reads size s s') : s'.Vacant size base := by
  cases reads with
  | loadR at_ => exact vacant.reader_moves (by rw [at_]; rfl) rfl
  | empty at_ none_ => exact vacant.reader_moves (by rw [at_]; rfl) rfl
  | ready at_ some_ => exact vacant.reader_moves (by rw [at_]; rfl) rfl
  | parks at_ ok => exact vacant.reader_moves (by rw [at_]; rfl) rfl
  | @parked r w pc loadedClosed result waiter at_ ok =>
    refine vacant.reader_moves ?_ ?_
    · cases loadedClosed <;> rw [at_] <;> rfl
    · cases loadedClosed <;> rfl
  | drains at_ ok => exact vacant.reader_moves (by rw [at_]; rfl) rfl
  | drained at_ ok => exact vacant.reader_moves (by rw [at_]; rfl) rfl
  | @ret result at_ =>
    refine vacant.reader_moves ?_ rfl
    cases result <;> simp [at_, ReadPc.held]
  | close at_ => exact vacant.reader_moves (by rw [at_]; rfl) rfl
  | closeDrains at_ ok => exact vacant.reader_moves (by rw [at_]; rfl) rfl
  | closeDrained at_ ok => exact vacant.reader_moves (by rw [at_]; rfl) rfl
  | @take r v at_ found =>
    obtain rfl := loaded.readerCounter r (by rw [at_]; rfl)
    have count : { s with
        buffer := update s.buffer (s.r &&& size.mask) none, reader := .storeR s.r v }.taken =
        s.taken := by
      simp [taken, at_, ReadPc.held]
    intro x full
    have other : x ≠ s.r &&& size.mask := by
      rintro rfl
      exact full (update_self ..)
    rcases vacant x (by simpa [other] using full) with ⟨i, low, high, -, rfl⟩ | stored
    · refine .inl ⟨i, by rw [count]; exact low, high, fun first => ?_, rfl⟩
      -- The oldest element is the one that was emptied.
      rw [count] at first
      rw [first, ← ordered.r] at other
      exact absurd rfl other
    · exact .inr stored
  | @storeR r v at_ =>
    have count : { s with r := r + 1, reader := .drain v .test }.taken = s.taken + 1 := by
      simp [taken, at_, ReadPc.held]
    intro x full
    rcases vacant x full with ⟨i, low, high, filled, rfl⟩ | stored
    · have later : i ≠ s.taken := fun first => by simp [at_, ReadPc.emptied, first] at filled
      exact .inl ⟨i, by rw [count]; omega, high, fun _ => rfl, rfl⟩
    · exact .inr stored

/-- A writer that neither moves a value nor stores its counter leaves the elements as they are. -/
theorem Vacant.writer_moves (vacant : s.Vacant size base) {pc : WritePc α} {waiter : Waiter Party}
    {accepted : List α} {closed : Bool} (away : ∀ v w, s.writer ≠ .storeW v w) :
    { s with waiter, accepted, closed, writer := pc }.Vacant size base := by
  intro x full
  rcases vacant x full with unread | ⟨v, w, at_, -⟩
  · exact .inl unread
  · exact absurd at_ (away v w)

/-- A statement of the writer fills the element that it pushes next. -/
theorem Vacant.writes (vacant : s.Vacant size base) (ordered : s.Ordered size base)
    (loaded : s.Loaded) (writes : Writes size s s') : s'.Vacant size base := by
  cases writes with
  | refused at_ closed => exact vacant.writer_moves (by simp [at_])
  | opened at_ open_ => exact vacant.writer_moves (by simp [at_])
  | loadW at_ => exact vacant.writer_moves (by simp [at_])
  | full at_ full_ => exact vacant.writer_moves (by simp [at_])
  | room at_ room_ => exact vacant.writer_moves (by simp [at_])
  | parks at_ ok => exact vacant.writer_moves (by simp [at_])
  | parked at_ ok => exact vacant.writer_moves (by simp [at_])
  | drains at_ ok => exact vacant.writer_moves (by simp [at_])
  | drained at_ ok => exact vacant.writer_moves (by simp [at_])
  | ret at_ => exact vacant.writer_moves (by simp [at_])
  | close at_ => exact vacant.writer_moves (by simp [at_])
  | closeDrains at_ ok => exact vacant.writer_moves (by simp [at_])
  | closeDrained at_ ok => exact vacant.writer_moves (by simp [at_])
  | @put v w at_ =>
    intro x full
    by_cases here : x = w &&& size.mask
    · exact .inr ⟨v, w, rfl, here⟩
    · rcases vacant x (by simpa [here] using full) with unread | ⟨v', w', stores, -⟩
      · exact .inl unread
      · rw [at_] at stores
        cases stores
  | @storeW v w at_ =>
    obtain rfl := loaded.writerCounter w (by rw [at_]; rfl)
    intro x full
    rcases vacant x full with ⟨i, low, high, filled, rfl⟩ | ⟨v', w', stores, rfl⟩
    · exact .inl ⟨i, low, high.trans_le (by simp), filled, rfl⟩
    · -- The element that was being pushed is the newest one now.
      obtain ⟨rfl, rfl⟩ : v = v' ∧ s.w = w' := by simpa [at_] using stores
      refine .inl ⟨s.pushed.length, ordered.behind, by simp, fun first => ?_, by rw [ordered.w]⟩
      have all : s.pushed.length = s.taken := first
      -- A reader in the middle of taking a value has one to take.
      cases here : s.reader with
      | storeR r v' =>
        have some_ := ordered.read r v' here
        rw [← all] at some_
        simp at some_
      | _ => rfl

/-- Every step leaves raw storage outside the elements in use. -/
theorem Vacant.step (vacant : s.Vacant size base) (ordered : s.Ordered size base)
    (loaded : s.Loaded) (steps : Steps size s l s') : s'.Vacant size base := by
  cases steps with
  | reads running reads => exact vacant.reads ordered loaded reads
  | writes running writes => exact vacant.writes ordered loaded writes
  | preempt running => exact vacant
  | dispatch idle queued => exact vacant
  | read running at_ => exact vacant.reader_moves (by rw [at_]; rfl) rfl
  | write running at_ => exact vacant.writer_moves (by simp [at_])
  | readerCloses running at_ => exact vacant.reader_moves (by rw [at_]; rfl) rfl
  | writerCloses running at_ => exact vacant.writer_moves (by simp [at_])

/-- The values pushed are never taken back. -/
theorem pushed_step (steps : Steps size s l s') : s.pushed <+: s'.pushed := by
  cases steps with
  | reads running reads => cases reads <;> exact List.prefix_rfl
  | writes running writes =>
    cases writes with
    | storeW at_ => exact List.prefix_append ..
    | _ => exact List.prefix_rfl
  | _ => exact List.prefix_rfl

/-- A step of the two tasks and their scheduler, or of tasks that do not read or write. -/
inductive SharedLabel (α : Type) where
  | own (l : ChannelLabel α)
  -- Others may close the channel, and their loop there may do anything to the waiter.
  | others (closes : Bool) (waiter : Waiter Party)

/-- One step of a buffer that any task may close. -/
def stepShared (size : RingSize) (s : Ring α) : SharedLabel α → Except Fault (Ring α)
  | .own l => s.step size l
  | .others closes waiter => .ok { s with closed := s.closed || closes, waiter }

/-- A bounded queue: a call of `write` past its store to `_w` counts as accepted. -/
structure Fifo (size : RingSize) (s : Ring α) : Prop where
  occupancy : (s.w - s.r).toNat ≤ size.value.toNat
  -- A value is put into raw storage, and taken from where the oldest unread one was put.
  vacant : ∀ v w, s.writer = .put v w → w = s.w ∧ s.buffer (s.w &&& size.mask) = none
  unread : ∀ r, s.reader = .take r → r = s.r ∧ ∃ v, s.buffer (s.r &&& size.mask) = some v ∧
    s.pushed[s.taken]? = some v
  order : s.delivered <+: s.accepted ++ s.writer.held
  -- What counts as accepted stays so, and is what was stored.
  grows : ∀ l s', s.stepShared size l = .ok s' →
    s.accepted ++ s.writer.held <+: s'.accepted ++ s'.writer.held
  stored : s.pushed = s.accepted ++ s.writer.held
  contents : ∀ x v, s.buffer x = some v → (∃ i, s.taken ≤ i ∧ s.pushed[i]? = some v) ∨
    ∃ w, s.writer = .storeW v w ∧ x = w &&& size.mask
  refused : ∀ v, s.writer = .ret v false → s.pushed = s.accepted

/-- What every step keeps, whoever takes it: nothing of it is about the waiter. -/
structure Bounded (size : RingSize) (base : Nat) (s : Ring α) : Prop where
  loaded : s.Loaded
  ordered : s.Ordered size base
  vacant : s.Vacant size base

/-- A new buffer is a bounded one, wherever its counters start. -/
theorem bounded_startAt (c : BitVec 64) : (startAt c : Ring α).Bounded size c.toNat := by
  refine ⟨⟨?_, ?_⟩, ?_, ?_⟩
  · intro r loaded
    cases loaded
  · intro w loaded
    cases loaded
  · constructor <;> simp [startAt, start, taken, ReadPc.held, WritePc.held]
  · intro x full
    exact absurd rfl full

/-- Every step of the two tasks keeps it so. -/
theorem Bounded.own (bounded : s.Bounded size base) (steps : Steps size s l s') :
    s'.Bounded size base := by
  obtain ⟨loaded, ordered, vacant⟩ := bounded
  exact ⟨loaded.step steps, ordered.step loaded steps, vacant.step ordered loaded steps⟩

/-- So does every step of the others. -/
theorem Bounded.step {l : SharedLabel α} (bounded : s.Bounded size base)
    (ok : s.stepShared size l = .ok s') : s'.Bounded size base := by
  cases l with
  | own l => exact bounded.own (steps_of_ok ok)
  | others closes waiter =>
    -- Neither `_closed` nor the waiter occurs in what is kept.
    rw [← Except.ok.inj ok]
    exact ⟨{ bounded.loaded with }, { bounded.ordered with }, bounded.vacant⟩

/-- What is accepted stays so. -/
theorem Bounded.grows {l : SharedLabel α} (bounded : s.Bounded size base)
    (ok : s.stepShared size l = .ok s') :
    s.accepted ++ s.writer.held <+: s'.accepted ++ s'.writer.held := by
  rw [← bounded.ordered.accepted, ← (bounded.step ok).ordered.accepted]
  cases l with
  | own l => exact pushed_step (steps_of_ok ok)
  | others closes waiter =>
    obtain rfl := Except.ok.inj ok
    exact List.prefix_rfl

/-- A bounded buffer is a bounded queue. -/
theorem Bounded.fifo (bounded : s.Bounded size base) : s.Fifo size := by
  obtain ⟨loaded, ordered, vacant⟩ := bounded
  have ahead := ordered.ahead
  have behind := ordered.behind
  refine ⟨?_, ?_, ?_, ?_, fun l s' ok => ?_, ordered.accepted, ?_, ?_⟩
  · have apart := (ordered.sub_eq_iff (s.w - s.r)).mp rfl
    omega
  · intro v w at_
    have own := loaded.writerCounter w (by rw [at_]; rfl)
    refine ⟨own, ?_⟩
    by_contra full
    rcases vacant _ full with ⟨i, low, high, -, same⟩ | ⟨v', w', stores, -⟩
    · have room := ordered.room v w (.inl at_)
      rw [ordered.w] at same
      exact slot_ne (by omega) (by omega) same
    · rw [at_] at stores
      cases stores
  · intro r at_
    have own := loaded.readerCounter r (by rw [at_]; rfl)
    have more := ordered.value r at_
    have first := ordered.buffer s.taken le_rfl more fun _ => by rw [at_]; rfl
    rw [← ordered.r] at first
    have some_ : s.pushed[s.taken]? = some s.pushed[s.taken] := List.getElem?_eq_getElem more
    exact ⟨own, _, first.trans some_, some_⟩
  · have oldest : s.delivered <+: s.pushed.take s.taken := ⟨s.reader.held, ordered.order⟩
    rw [← ordered.accepted]
    exact oldest.trans (List.take_prefix ..)
  · exact Bounded.grows ⟨loaded, ordered, vacant⟩ ok
  · intro x v found
    rcases vacant x (by simp [found]) with ⟨i, low, high, filled, rfl⟩ | ⟨v', w, stores, rfl⟩
    · exact .inl ⟨i, low, (ordered.buffer i low high filled).symm.trans found⟩
    · have put := ordered.written v' w stores
      rw [found, Option.some.injEq] at put
      exact .inr ⟨w, put ▸ stores, rfl⟩
  · intro v at_
    rw [ordered.accepted, at_]
    exact List.append_nil _

/-- Every run keeps it so. -/
theorem bounded_of_reaches {c : BitVec 64}
    (reached : Run.Reaches (stepShared size) (fun _ _ => True) (startAt c : Ring α) s) :
    s.Bounded size c.toNat :=
  reached.invariant (bounded_startAt c) fun _ _ _ bounded _ ok => bounded.step ok

/-- A run of the two tasks alone is such a run. -/
theorem shared_of_reaches {start : Ring α}
    (reached : Run.Reaches (step size) (fun _ _ => True) start s) :
    Run.Reaches (stepShared size) (fun _ _ => True) start s := by
  induction reached with
  | refl => exact .refl
  | @tail _ _ l _ _ ok ih => exact ih.tail (a := .own l) trivial ok

/-- From any equal counters and in every run, whoever closes, the buffer is a bounded queue. -/
theorem fifo_of_reaches (c : BitVec 64)
    (reached : Run.Reaches (stepShared size) (fun _ _ => True) (startAt c : Ring α) s) :
    s.Fifo size :=
  (bounded_of_reaches reached).fifo

/-- Two writes and a read, with counters that start just before they wrap; another task closes. -/
def wrappedWrites : List (SharedLabel Nat) :=
  (List.flatten [[.dispatch .writer, .write 7], List.replicate 7 .run, [.write 8],
    List.replicate 7 .run, [.preempt, .dispatch .reader, .read], List.replicate 6 .run]).map .own ++
  [.others true (start : Ring Nat).waiter]

/-- The first of two values is read, once `_w` has wrapped. -/
theorem fifo_of_reaches_wrap : ∃ s : Ring Nat, s.w = 1 ∧ s.delivered = [7] ∧ s.accepted = [7, 8] ∧
    s.closed = true ∧ s.Fifo four := by
  have run : ∃ s : Ring Nat, Run.Reaches (stepShared four) (fun _ _ => True) (startAt (-1)) s ∧
      s.w = 1 ∧ s.delivered = [7] ∧ s.accepted = [7, 8] ∧ s.closed = true :=
    Run.Reaches.of_check wrappedWrites (by decide +kernel)
  obtain ⟨s, reached, w, delivered, accepted, closed⟩ := run
  exact ⟨s, w, delivered, accepted, closed, fifo_of_reaches (-1) reached⟩

/-- A write that is preempted once it has stored its counter, and a read of its value. -/
def readBeforeReturn : List (SharedLabel Nat) :=
  (List.flatten [[.dispatch .writer, .write 7], List.replicate 5 .run,
    [.preempt, .dispatch .reader, .read], List.replicate 6 .run]).map .own

/-- A value may be read before the write that stored it has returned. -/
theorem delivered_before_accepted : ∃ s : Ring Nat,
    Run.Reaches (stepShared four) (fun _ _ => True) (startAt 0) s ∧
      s.delivered = [7] ∧ s.accepted = [] ∧ ¬ s.delivered <+: s.accepted := by
  have run : ∃ s : Ring Nat, Run.Reaches (stepShared four) (fun _ _ => True) (startAt 0) s ∧
      s.delivered = [7] ∧ s.accepted = [] :=
    Run.Reaches.of_check readBeforeReturn (by decide +kernel)
  obtain ⟨s, reached, delivered, accepted⟩ := run
  refine ⟨s, reached, delivered, accepted, ?_⟩
  rw [delivered, accepted]
  decide

end Ring

end Gthread

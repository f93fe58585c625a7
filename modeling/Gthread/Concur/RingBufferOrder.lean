import Gthread.Concur.RingBufferWakes
import Gthread.Lib.RingCounter

/-! A ring buffer keeps its values in order, and the end of the stream comes after the last. -/

namespace Gthread

open Function (update update_of_ne update_self)

variable {α : Type} {size : RingSize}

namespace Ring

variable {s s' : Ring α} {l : ChannelLabel α} {base : Nat}

/-- How many values the reader has taken out, counted by its stores to `_r`. -/
def taken (s : Ring α) : Nat := s.delivered.length + s.reader.held.length

/-- The buffer holds, in order, what was pushed and not taken since the counters were at `base`. -/
structure Ordered (size : RingSize) (base : Nat) (s : Ring α) : Prop where
  w : s.w = BitVec.ofNat 64 (base + s.pushed.length)
  r : s.r = BitVec.ofNat 64 (base + s.taken)
  order : s.delivered ++ s.reader.held = s.pushed.take s.taken
  accepted : s.pushed = s.accepted ++ s.writer.held
  behind : s.taken ≤ s.pushed.length
  ahead : s.pushed.length ≤ s.taken + size.value.toNat
  buffer : ∀ i, s.taken ≤ i → i < s.pushed.length → (i = s.taken → s.reader.emptied = false) →
    s.buffer (BitVec.ofNat 64 (base + i) &&& size.mask) = s.pushed[i]?
  -- The reader goes on only if there is a value, the writer only if there is room.
  value : ∀ r, s.reader = .take r → s.taken < s.pushed.length
  read : ∀ r v, s.reader = .storeR r v → s.pushed[s.taken]? = some v
  room : ∀ v w, s.writer = .put v w ∨ s.writer = .storeW v w →
    s.pushed.length < s.taken + size.value.toNat
  written : ∀ v w, s.writer = .storeW v w → s.buffer (w &&& size.mask) = some v

/-- The two counters compare as the numbers they stand for. -/
theorem Ordered.sub_eq_iff (ordered : s.Ordered size base) (c : BitVec 64) :
    s.w - s.r = c ↔ s.pushed.length - s.taken = c.toNat := by
  have behind := ordered.behind
  have ahead := ordered.ahead
  have bound := size.value.isLt
  rw [ordered.w, ordered.r, RingCounter.sub_eq_iff (by omega) (by omega)]
  omega

/-- Different counters within the size select different elements. -/
theorem slot_ne {a b : Nat} (lt : b < a) (near : a - b < size.value.toNat) :
    BitVec.ofNat 64 a &&& size.mask ≠ BitVec.ofNat 64 b &&& size.mask := by
  intro same
  have equal := RingCounter.slot_inj size.nonzero size.power lt.le near same
  omega

/-- A reader that neither moves a value nor stores its counter keeps the order of values. -/
theorem Ordered.reader_moves (ordered : s.Ordered size base) {pc : ReadPc α} {waiter : Waiter Party}
    {delivered : List α} {closed : Bool}
    (same : delivered ++ pc.held = s.delivered ++ s.reader.held)
    (filled : s.reader.emptied = false) (kept : pc.emptied = false)
    (value : ∀ r, pc = .take r → s.taken < s.pushed.length) :
    { s with waiter, delivered, closed, reader := pc }.Ordered size base := by
  have count : { s with waiter, delivered, closed, reader := pc }.taken = s.taken := by
    have lengths := congrArg List.length same
    simpa [taken] using lengths
  refine ⟨ordered.w, ?_, ?_, ordered.accepted, ?_, ?_, ?_, ?_, ?_, ?_, ordered.written⟩
  all_goals rw [count]
  · exact ordered.r
  · exact same.trans ordered.order
  · exact ordered.behind
  · exact ordered.ahead
  · intro i low high _
    exact ordered.buffer i low high fun _ => filled
  · exact value
  · intro r v here
    rw [show pc = .storeR r v from here] at kept
    cases kept
  · exact ordered.room

/-- A statement of the reader keeps the order of values. -/
theorem Ordered.reads (ordered : s.Ordered size base) (loaded : s.Loaded)
    (reads : Reads size s s') : s'.Ordered size base := by
  cases reads with
  | loadR at_ => exact ordered.reader_moves (by rw [at_]; rfl) (by rw [at_]; rfl) rfl (by simp)
  | empty at_ none_ =>
    exact ordered.reader_moves (by rw [at_]; rfl) (by rw [at_]; rfl) rfl (by simp)
  | @ready r at_ some_ =>
    obtain rfl := loaded.readerCounter r (by rw [at_]; rfl)
    have more : s.taken < s.pushed.length := by
      have differ : s.pushed.length - s.taken ≠ 0 := by
        simpa using mt (ordered.sub_eq_iff 0).mpr some_
      omega
    exact ordered.reader_moves (by rw [at_]; rfl) (by rw [at_]; rfl) rfl fun _ _ => more
  | parks at_ ok => exact ordered.reader_moves (by rw [at_]; rfl) (by rw [at_]; rfl) rfl (by simp)
  | @parked r w pc loadedClosed result waiter at_ ok =>
    refine ordered.reader_moves ?_ (by rw [at_]; rfl) ?_ ?_
    · cases loadedClosed <;> rw [at_] <;> rfl
    · cases loadedClosed <;> rfl
    · cases loadedClosed <;> simp
  | drains at_ ok => exact ordered.reader_moves (by rw [at_]; rfl) (by rw [at_]; rfl) rfl (by simp)
  | drained at_ ok =>
    exact ordered.reader_moves (by rw [at_]; rfl) (by rw [at_]; rfl) rfl (by simp)
  | @ret result at_ =>
    refine ordered.reader_moves ?_ (by rw [at_]; rfl) rfl (by simp)
    cases result <;> simp [at_, ReadPc.held]
  | close at_ => exact ordered.reader_moves (by rw [at_]; rfl) (by rw [at_]; rfl) rfl (by simp)
  | closeDrains at_ ok =>
    exact ordered.reader_moves (by rw [at_]; rfl) (by rw [at_]; rfl) rfl (by simp)
  | closeDrained at_ ok =>
    exact ordered.reader_moves (by rw [at_]; rfl) (by rw [at_]; rfl) rfl (by simp)
  | @take r v at_ found =>
    obtain ⟨w, r_, order, accepted, behind, ahead, buffer, value, read, room, written⟩ := ordered
    obtain rfl := loaded.readerCounter r (by rw [at_]; rfl)
    have more := value _ at_
    have none_ : s.reader.held = [] := by rw [at_]; rfl
    have same : { s with
        buffer := update s.buffer (s.r &&& size.mask) none, reader := .storeR s.r v }.taken =
        s.taken := by
      rw [taken, taken, none_]
      rfl
    refine ⟨w, ?_, ?_, accepted, ?_, ?_, ?_, by simp, ?_, ?_, ?_⟩
    · rw [same]
      exact r_
    · rw [same, ← order, none_]
      rfl
    · rw [same]
      exact behind
    · rw [same]
      exact ahead
    · intro i low high filled
      rw [same] at low filled
      have later : s.taken < i := by
        rcases Nat.lt_or_eq_of_le low with lt | eq
        · exact lt
        · exact absurd (filled eq.symm) (by simp [ReadPc.emptied])
      refine (update_of_ne ?_ ..).trans (buffer i low high fun here => absurd here (by omega))
      have high' : i < s.pushed.length := high
      rw [r_]
      exact slot_ne (by omega) (by omega)
    · intro r' v' here
      obtain ⟨-, rfl⟩ : s.r = r' ∧ v = v' := by simpa using here
      rw [same, ← found, r_]
      exact (buffer s.taken le_rfl more fun _ => by rw [at_]; rfl).symm
    · rw [same]
      exact room
    · intro v' w' here
      refine (update_of_ne ?_ ..).trans (written v' w' here)
      rw [loaded.writerCounter w' (by rw [here]; rfl), w, r_]
      have space := room v' w' (.inr here)
      exact slot_ne (by omega) (by omega)
  | @storeR r v at_ =>
    obtain ⟨w, r_, order, accepted, behind, ahead, buffer, value, read, room, written⟩ := ordered
    obtain rfl := loaded.readerCounter r (by rw [at_]; rfl)
    have none_ : s.reader.held = [] := by rw [at_]; rfl
    have first := read _ _ at_
    have more : s.taken < s.pushed.length := (List.getElem?_eq_some_iff.mp first).1
    have next : { s with r := s.r + 1, reader := .drain v .test }.taken = s.taken + 1 := by
      rw [taken, taken, none_]
      rfl
    refine ⟨w, ?_, ?_, accepted, ?_, ?_, ?_, by simp, by simp, ?_, written⟩
    all_goals rw [next]
    · rw [← Nat.add_assoc, BitVec.ofNat_add, ← r_]
      rfl
    · rw [List.take_add_one, first, ← order, none_]
      simp [ReadPc.held]
    · exact more
    · exact ahead.trans (by omega)
    · intro i low high _
      exact buffer i (by omega) high fun here => absurd here (by omega)
    · intro v' w' here
      have space := room v' w' here
      exact space.trans (by omega)

/-- A writer that neither moves a value nor stores its counter keeps the order of values. -/
theorem Ordered.writer_moves (ordered : s.Ordered size base) {pc : WritePc α}
    {waiter : Waiter Party}
    {accepted : List α} {closed : Bool} (same : accepted ++ pc.held = s.accepted ++ s.writer.held)
    (room : ∀ v w, pc = .put v w → s.pushed.length < s.taken + size.value.toNat)
    (away : ∀ v w, pc ≠ .storeW v w) :
    { s with waiter, accepted, closed, writer := pc }.Ordered size base where
  w := ordered.w
  r := ordered.r
  order := ordered.order
  accepted := ordered.accepted.trans same.symm
  behind := ordered.behind
  ahead := ordered.ahead
  buffer := ordered.buffer
  value := ordered.value
  read := ordered.read
  room v w here := here.elim (room v w) fun stores => absurd stores (away v w)
  written v w here := absurd here (away v w)

/-- A statement of the writer keeps the order of values. -/
theorem Ordered.writes (ordered : s.Ordered size base) (loaded : s.Loaded)
    (writes : Writes size s s') : s'.Ordered size base := by
  cases writes with
  | refused at_ closed => exact ordered.writer_moves (by rw [at_]; rfl) (by simp) (by simp)
  | opened at_ open_ => exact ordered.writer_moves (by rw [at_]; rfl) (by simp) (by simp)
  | loadW at_ => exact ordered.writer_moves (by rw [at_]; rfl) (by simp) (by simp)
  | full at_ full_ => exact ordered.writer_moves (by rw [at_]; rfl) (by simp) (by simp)
  | @room v w at_ room_ =>
    obtain rfl := loaded.writerCounter w (by rw [at_]; rfl)
    have space : s.pushed.length < s.taken + size.value.toNat := by
      have differ := mt (ordered.sub_eq_iff size.value).mpr room_
      have ahead := ordered.ahead
      have behind := ordered.behind
      omega
    exact ordered.writer_moves (by rw [at_]; rfl) (fun _ _ _ => space) (by simp)
  | parks at_ ok => exact ordered.writer_moves (by rw [at_]; rfl) (by simp) (by simp)
  | @parked v w r pc loadedClosed result waiter at_ ok =>
    refine ordered.writer_moves ?_ ?_ ?_
    · cases loadedClosed <;> rw [at_] <;> rfl
    · cases loadedClosed <;> simp
    · cases loadedClosed <;> simp
  | @put v w at_ =>
    obtain rfl := loaded.writerCounter w (by rw [at_]; rfl)
    have space := ordered.room v s.w (.inl at_)
    refine { ordered with accepted := ?_, buffer := ?_, room := ?_, written := ?_ }
    · rw [ordered.accepted, at_]
      rfl
    · intro i low high filled
      have apart : BitVec.ofNat 64 (base + i) &&& size.mask ≠ s.w &&& size.mask := by
        have low' : s.taken ≤ i := low
        have high' : i < s.pushed.length := high
        rw [ordered.w]
        exact (slot_ne (by omega) (by omega)).symm
      exact (update_of_ne apart ..).trans (ordered.buffer i low high filled)
    · exact fun _ _ _ => space
    · intro v' w' here
      obtain ⟨rfl, rfl⟩ : v = v' ∧ s.w = w' := by simpa using here
      exact update_self ..
  | @storeW v w at_ =>
    obtain rfl := loaded.writerCounter w (by rw [at_]; rfl)
    have space := ordered.room v s.w (.inr at_)
    have behind := ordered.behind
    have none_ : s.writer.held = [] := by rw [at_]; rfl
    constructor
    · show s.w + 1 = _
      rw [List.length_append, List.length_singleton, ← Nat.add_assoc, BitVec.ofNat_add,
        ← ordered.w]
      rfl
    · exact ordered.r
    · exact (List.take_append_of_le_length behind).symm ▸ ordered.order
    · rw [ordered.accepted, none_, List.append_nil]
      rfl
    · exact behind.trans (by simp)
    · show (s.pushed ++ [v]).length ≤ s.taken + _
      rw [List.length_append, List.length_singleton]
      omega
    · intro i low high filled
      -- The new element is the one that was put there, the others are further back.
      have high' : i < s.pushed.length + 1 := by simpa using high
      rcases Nat.lt_succ_iff_lt_or_eq.mp high' with older | rfl
      · exact (ordered.buffer i low older filled).trans (List.getElem?_append_left older).symm
      · have put := ordered.written v s.w at_
        rw [ordered.w] at put
        exact put.trans List.getElem?_concat_length.symm
    · exact fun r here => (ordered.value r here).trans_le (by simp)
    · intro r v' here
      have first := ordered.read r v' here
      exact (List.getElem?_append_left (List.getElem?_eq_some_iff.mp first).1).trans first
    · simp
    · simp
  | drains at_ ok => exact ordered.writer_moves (by rw [at_]; rfl) (by simp) (by simp)
  | drained at_ ok => exact ordered.writer_moves (by rw [at_]; rfl) (by simp) (by simp)
  | @ret v accepted at_ =>
    refine ordered.writer_moves ?_ (by simp) (by simp)
    cases accepted <;> simp [at_, WritePc.held]
  | close at_ => exact ordered.writer_moves (by rw [at_]; rfl) (by simp) (by simp)
  | closeDrains at_ ok => exact ordered.writer_moves (by rw [at_]; rfl) (by simp) (by simp)
  | closeDrained at_ ok => exact ordered.writer_moves (by rw [at_]; rfl) (by simp) (by simp)

/-- Every step keeps the order of values. -/
theorem Ordered.step (ordered : s.Ordered size base) (loaded : s.Loaded)
    (steps : Steps size s l s') : s'.Ordered size base := by
  cases steps with
  | reads running reads => exact ordered.reads loaded reads
  | writes running writes => exact ordered.writes loaded writes
  | preempt running => exact { ordered with }
  | dispatch idle queued => exact { ordered with }
  | read running at_ =>
      exact ordered.reader_moves (by rw [at_]; rfl) (by rw [at_]; rfl) rfl (by simp)
  | write running at_ => exact ordered.writer_moves (by rw [at_]; rfl) (by simp) (by simp)
  | readerCloses running at_ =>
    exact ordered.reader_moves (by rw [at_]; rfl) (by rw [at_]; rfl) rfl (by simp)
  | writerCloses running at_ => exact ordered.writer_moves (by rw [at_]; rfl) (by simp) (by simp)

/-- A new buffer is in order. -/
theorem ordered_start : (start : Ring α).Ordered size 0 := by
  constructor <;> simp [start, taken, ReadPc.held, WritePc.held]

/-- A closed buffer gets no more values, and a reader bound to end has seen them all. -/
structure Ended (s : Ring α) : Prop where
  -- Only the writer closes.
  own : s.reader.closes = false
  writer : s.closed = true → s.writer.stops = true
  reader : s.reader.ends = true → s.closed = true ∧ s.w = s.r

/-- Whether the reader that is about to find the buffer closed knows the last value of `_w`. -/
def current (s : Ring α) : ChannelLabel α → Bool
  | .run =>
    match s.waiter.cpu.running, s.reader with
    | some .reader, .park _ w .check _ => !s.closed || s.w = w
    | _, _ => true
  | _ => true

/-- A statement of the reader that loads `_closed` on fresh news ends on a drained buffer. -/
theorem Ended.reads (ended : s.Ended) (formed : s.Formed size)
    (running : s.waiter.cpu.running = some .reader) (current : s.current .run = true)
    (reads : Reads size s s') : s'.Ended := by
  obtain ⟨own, writer, reader⟩ := ended
  have inside := formed.reader
  cases reads with
  | loadR at_ => exact ⟨rfl, writer, by simp [ReadPc.ends]⟩
  | empty at_ none_ => exact ⟨rfl, writer, by simp [ReadPc.ends]⟩
  | ready at_ some_ => exact ⟨rfl, writer, by simp [ReadPc.ends]⟩
  | @parks r w pc pc' loadedClosed waiter at_ ok =>
    refine ⟨rfl, writer, fun ends => ?_⟩
    by_cases check : pc = .check
    · -- Here `_closed` is loaded, and the counter last loaded from `_w` is still there.
      have closed : s.closed = true := by simpa [ReadPc.ends, check] using ends
      have fresh : s.w = w := by simpa [Ring.current, running, at_, check, closed] using current
      rw [at_] at inside
      have own := formed.loaded.readerCounter r (by rw [at_]; rfl)
      exact ⟨closed, fresh.trans (inside.2.trans own)⟩
    · have before : loadedClosed = true := by simpa [ReadPc.ends, check] using ends
      exact reader (by rw [at_]; exact before)
  | @parked r w pc loadedClosed result waiter at_ ok =>
    refine ⟨by cases loadedClosed <;> rfl, writer, fun ends => reader ?_⟩
    rw [at_]
    cases loadedClosed with
    | false => simp [ReadPc.ends] at ends
    | true => rfl
  | take at_ found => exact ⟨rfl, writer, by simp [ReadPc.ends]⟩
  | storeR at_ => exact ⟨rfl, writer, by simp [ReadPc.ends]⟩
  | drains at_ ok => exact ⟨rfl, writer, by simp [ReadPc.ends]⟩
  | drained at_ ok => exact ⟨rfl, writer, by simp [ReadPc.ends]⟩
  | ret at_ => exact ⟨rfl, writer, by simp [ReadPc.ends]⟩
  | close at_ => simp [at_, ReadPc.closes] at own
  | closeDrains at_ ok => simp [at_, ReadPc.closes] at own
  | closeDrained at_ ok => simp [at_, ReadPc.closes] at own

/-- A statement of the writer keeps a closed buffer as it is. -/
theorem Ended.writes (ended : s.Ended) (writes : Writes size s s') : s'.Ended := by
  obtain ⟨own, writer, reader⟩ := ended
  -- In the middle of a write that was let in, the buffer is open.
  have opens : ∀ {pc : WritePc α}, s.writer = pc → pc.stops = false → s.closed ≠ true := by
    rintro pc rfl going closed
    rw [writer closed] at going
    cases going
  cases writes with
  | refused at_ closed => exact ⟨own, fun _ => rfl, reader⟩
  | opened at_ open_ => exact ⟨own, fun closed => by simp [open_] at closed, reader⟩
  | loadW at_ => exact ⟨own, fun closed => absurd closed (opens at_ rfl), reader⟩
  | full at_ full_ => exact ⟨own, fun closed => absurd closed (opens at_ rfl), reader⟩
  | room at_ room_ => exact ⟨own, fun closed => absurd closed (opens at_ rfl), reader⟩
  | parks at_ ok => exact ⟨own, fun closed => absurd closed (opens at_ rfl), reader⟩
  | parked at_ ok => exact ⟨own, fun closed => absurd closed (opens at_ rfl), reader⟩
  | put at_ => exact ⟨own, fun closed => absurd closed (opens at_ rfl), reader⟩
  | storeW at_ =>
    -- The only store to `_w` is out of reach once the buffer is closed.
    have open_ := opens at_ rfl
    exact ⟨own, fun closed => absurd closed open_, fun ends => absurd (reader ends).1 open_⟩
  | drains at_ ok => exact ⟨own, fun closed => absurd closed (opens at_ rfl), reader⟩
  | drained at_ ok => exact ⟨own, fun _ => rfl, reader⟩
  | ret at_ => exact ⟨own, fun _ => rfl, reader⟩
  | close at_ => exact ⟨own, fun _ => rfl, fun ends => ⟨rfl, (reader ends).2⟩⟩
  | closeDrains at_ ok => exact ⟨own, fun _ => rfl, reader⟩
  | closeDrained at_ ok => exact ⟨own, fun _ => rfl, reader⟩

/-- Every step on fresh news keeps the end of the stream at the last value. -/
theorem Ended.step (ended : s.Ended) (formed : s.Formed size) (open_ : l ≠ .close .reader)
    (current : s.current l = true) (steps : Steps size s l s') : s'.Ended := by
  obtain ⟨own, writer, reader⟩ := ended
  cases steps with
  | reads running reads => exact Ended.reads ⟨own, writer, reader⟩ formed running current reads
  | writes running writes => exact Ended.writes ⟨own, writer, reader⟩ writes
  | preempt running => exact ⟨own, writer, reader⟩
  | dispatch idle queued => exact ⟨own, writer, reader⟩
  | read running at_ => exact ⟨rfl, writer, by simp [ReadPc.ends]⟩
  | write running at_ => exact ⟨own, fun _ => rfl, reader⟩
  | readerCloses running at_ => exact absurd rfl open_
  | writerCloses running at_ => exact ⟨own, fun _ => rfl, reader⟩

/-- In every run whose closed reads know the last `_w`, the end of the stream means drained. -/
theorem drained_of_current
    (reached : Run.Reaches (step size) (fun s l => l ≠ .close .reader ∧ s.current l = true)
      (start : Ring α) s) :
    s.reader = .ret none → s.accepted <+: s.delivered := by
  obtain ⟨-, ordered, ended⟩ : s.Formed size ∧ s.Ordered size 0 ∧ s.Ended := by
    refine reached.invariant (P := fun s => s.Formed size ∧ s.Ordered size 0 ∧ s.Ended) ?_ ?_
    · exact ⟨formed_start, ordered_start, rfl, by simp [start], by simp [start, ReadPc.ends]⟩
    · rintro s l s' ⟨formed, ordered, ended⟩ ⟨open_, current⟩ ok
      have steps := steps_of_ok ok
      exact ⟨formed.step steps, ordered.step formed.loaded steps,
        ended.step formed open_ current steps⟩
  intro at_
  have same : s.w = s.r := (ended.reader (by rw [at_]; rfl)).2
  have all : s.pushed.length - s.taken = 0 :=
    (ordered.sub_eq_iff 0).mp (by rw [same]; exact BitVec.sub_self _)
  have order := ordered.order
  rw [at_, List.take_of_length_le (by omega), ordered.accepted] at order
  exact ⟨s.writer.held, order.symm.trans (List.append_nil _)⟩

/-- A write and a close, and reads of the value and of the end. -/
def drainedClose : List (ChannelLabel Nat) :=
  List.flatten [[.dispatch .writer, .write 7], List.replicate 7 .run, [.close .writer],
    List.replicate 2 .run, [.preempt, .dispatch .reader, .read], List.replicate 6 .run, [.read],
    List.replicate 5 .run]

/-- The reader takes the only value out, and then finds the buffer closed. -/
theorem drained_of_current_close : ∃ s, Run.Reaches (step four)
    (fun s l => l ≠ .close .reader ∧ s.current l = true) (start : Ring Nat) s ∧
      s.reader = .ret none ∧ s.accepted = [7] ∧ s.delivered = [7] ∧
      s.accepted <+: s.delivered := by
  suffices run : ∃ s, Run.Reaches (step four)
      (fun s l => l ≠ .close .reader ∧ s.current l = true) (start : Ring Nat) s ∧
      s.reader = .ret none ∧ s.accepted = [7] ∧ s.delivered = [7] by
    obtain ⟨s, reached, ends, accepted, delivered⟩ := run
    exact ⟨s, reached, ends, accepted, delivered, drained_of_current reached ends⟩
  exact Run.Reaches.of_check drainedClose (by decide +kernel)

/-- A write and a close during the stale read, which then checks `_closed`. -/
def staleClose : List (ChannelLabel Nat) :=
  List.flatten [staleRead, [.dispatch .writer, .write 7], List.replicate 7 .run, [.close .writer],
    List.replicate 2 .run, [.preempt, .dispatch .reader, .run, .run, .run]]

/-- A write and a close between the reader's load of `_w` and its check end the stream early. -/
theorem stale_close_ends_early : ∃ s, Run.Reaches (step four) (fun _ l => l ≠ .close .reader)
    (start : Ring Nat) s ∧ s.reader = .ret none ∧ s.accepted = [7] ∧ s.delivered = [] ∧
      ¬ s.accepted <+: s.delivered := by
  suffices run : ∃ s, Run.Reaches (step four) (fun _ l => l ≠ .close .reader) (start : Ring Nat) s ∧
      s.reader = .ret none ∧ s.accepted = [7] ∧ s.delivered = [] by
    obtain ⟨s, reached, ends, accepted, delivered⟩ := run
    refine ⟨s, reached, ends, accepted, delivered, ?_⟩
    rw [accepted, delivered]
    decide
  exact Run.Reaches.of_check staleClose (by decide +kernel)

end Ring

end Gthread

import Gthread.Concur.ChannelWindowSteps

/-! Each value handed over in a window is taken by one read, in order. -/

namespace Gthread

open Function (update update_of_ne update_self)

variable {α : Type}

/-- Past the store to `_closed`. -/
def ClosePc.stored : ClosePc → Bool
  | .store => false
  | _ => true

namespace WindowReadPc

/-- In the loop that waits for a value. -/
def loops : WindowReadPc → Bool
  | .checkClosed | .park _ | .swap _ | .yield => true
  | _ => false

/-- Where the reader goes on when it is woken. -/
def wakes : WindowReadPc → Bool
  | .park .yield | .park .parked | .swap .swapped => true
  | _ => false

/-- Out of the loop and about to return. -/
def finishes : WindowReadPc → Bool
  | .assertServed | .drain _ | .ret => true
  | _ => false

/-- Before the store to `_reader`. -/
def begins : WindowReadPc → Bool
  | .assertEntry | .setReader => true
  | _ => false

/-- Where a reader can be that has closed the window, or found it closed, during a write. -/
def outside : WindowReadPc → Bool
  | .idle | .assertEntry | .setReader | .checkClosed | .ret | .close _ => true
  | _ => false

/-- Past the store of `close`. -/
def closed : WindowReadPc → Bool
  | .close pc => pc.stored
  | _ => false

end WindowReadPc

namespace WindowWritePc

/-- Past the first check of `_closed`, and not yet about to return or to repeat it. -/
def active : WindowWritePc α → Bool
  | .park _ _ | .checkAgain _ | .assertReader _ | .emplace _ _ | .clear _ _ | .swap _ _
  | .swapAgain _ | .testWaiter _ | .testReader _ | .drain _ _ => true
  | _ => false

/-- The value is handed over and the reader is not yet woken. -/
def serves : WindowWritePc α → Bool
  | .swap _ pc => pc ≠ .swapped
  | .swapAgain _ | .drain _ _ => true
  | _ => false

/-- The writer has seen a reader in the loop, which cannot leave it. -/
def engaged : WindowWritePc α → Bool
  | .testReader _ | .emplace _ _ | .clear _ _ => true
  | pc => pc.serves

/-- The value is handed over and `_reader` not yet reset. -/
def clears : WindowWritePc α → Bool
  | .clear _ _ => true
  | _ => false

/-- The value that is handed over and whose acceptance is not yet returned. -/
def held : WindowWritePc α → List α
  | .clear _ t | .swap t _ | .swapAgain t | .drain t _ | .ret t true => [t]
  | _ => []

/-- In a call that has handed nothing over. -/
def keeps : WindowWritePc α → Bool
  | .checkClosed _ | .park _ _ | .checkAgain _ | .clearClosed _ | .assertReader _ | .emplace _ _
  | .testWaiter _ | .testReader _ | .yield _ | .ret _ false => true
  | _ => false

/-- Past the store of `close`. -/
def closed : WindowWritePc α → Bool
  | .close pc => pc.stored
  | _ => false

end WindowWritePc

namespace Window

variable {s s' : Window α} {l : ChannelLabel α}

/-- The value in `ret` that the call under way has not yet returned. -/
def pending (s : Window α) : List α := if s.reader.calling then s.ret.toList else []

/-- The reader was woken in the waiter's code and has yet to go on. -/
def Woken (s : Window α) : Prop := s.reader.wakes = true ∧ s.waiter.cpu.state .reader ≠ .waiting

/-- The reader is in the loop, and only the writer can take it out. -/
def Loops (s : Window α) : Prop := s.reader.loops = true ∧ ¬ s.Woken

/-- Where the tasks are tells what `_reader` and `ret` hold. -/
structure Paired (s : Window α) : Prop where
  order : s.accepted ++ s.writer.held = s.delivered ++ s.pending
  begins : s.reader.begins = true → s.ret = none
  closed : s.reader.closed = true ∨ s.writer.closed = true → s.closed = true
  -- After a close during a write, the reader keeps out of the loop.
  outside : s.closed = true → s.writer.active = true → s.reader.outside = true
  -- While the window is open, `_reader` is null or points to the call that waits.
  points : ∀ call, s.target = some call → s.closed = false →
    call = s.reads ∧ s.Loops ∧ (s.ret = none ∨ s.writer.clears = true)
  engaged : s.writer.engaged = true → s.closed = false ∧ s.Loops
  emplaces : ∀ parked t, s.writer = .emplace parked t → s.target ≠ none
  clears : s.writer.clears = true → s.ret ≠ none
  serves : s.writer.serves = true → s.ret ≠ none ∧ s.target = none
  asserts : ∀ t, s.writer = .assertReader t → s.closed = true → s.target = none
  answered : s.Woken ∨ s.reader.finishes = true → s.ret ≠ none ∨ s.closed = true
  origin : s.origin ≤ s.writes ∧ (s.writer.keeps = true → s.origin < s.writes)

/-- A statement of the reader that leaves `_reader` alone keeps the pairing. -/
theorem Paired.reader_moves (paired : s.Paired) {pc : WindowReadPc} {waiter : Waiter Party}
    (calls : pc.calling = s.reader.calling)
    (begins : pc.begins = true → s.ret = none)
    (closed : pc.closed = true → s.closed = true)
    (outside : s.closed = true → s.writer.active = true → pc.outside = true)
    (loops : s.closed = false → s.Loops → { s with waiter, reader := pc }.Loops)
    (answered : { s with waiter, reader := pc }.Woken ∨ pc.finishes = true →
      s.ret ≠ none ∨ s.closed = true) : { s with waiter, reader := pc }.Paired where
  order := by
    have same : { s with waiter, reader := pc }.pending = s.pending := by simp [pending, calls]
    exact paired.order.trans (congrArg _ same.symm)
  begins := begins
  closed := fun stored => stored.elim closed fun writer => paired.closed (.inr writer)
  outside := outside
  points := fun call set open_ =>
    have ⟨same, stays, unset⟩ := paired.points call set open_
    ⟨same, loops open_ stays, unset⟩
  engaged := fun engaged =>
    have ⟨open_, stays⟩ := paired.engaged engaged
    ⟨open_, loops open_ stays⟩
  emplaces := paired.emplaces
  clears := paired.clears
  serves := paired.serves
  asserts := paired.asserts
  answered := answered
  origin := paired.origin

/-- A reader that waits and gives up the processor goes on waiting. -/
theorem waiting_of_yield {w : Waiter Party} (waiting : w.cpu.state .reader = .waiting) :
    (w.yield .reader).cpu.state .reader = .waiting := by
  simp [Waiter.yield, waiting]

/-- In `park_if`, a reader that was not woken stays in the loop. -/
theorem Formed.loops_parks (formed : s.Formed)
    {pc pc' : WaiterPc Party} {waiter : Waiter Party} (at_ : s.reader = .park pc)
    (ok : s.waiter.step .reader s.closed pc = .ok (.goto pc', waiter)) (loops : s.Loops) :
    { s with waiter, reader := .park pc' }.Loops := by
  have inside := formed.reader
  rw [at_] at inside
  refine ⟨rfl, fun woken => ?_⟩
  cases pc with
  | claim =>
    simp only [Waiter.step] at ok
    split at ok
    · simp only [Except.ok.injEq, Prod.mk.injEq, Outcome.goto.injEq] at ok
      obtain ⟨rfl, rfl⟩ := ok
      simp [Woken, WindowReadPc.wakes] at woken
    · simp at ok
  | check =>
    simp only [Waiter.step, Except.ok.injEq, Prod.mk.injEq, Outcome.goto.injEq] at ok
    obtain ⟨rfl, rfl⟩ := ok
    cases closed : s.closed <;> simp [Woken, WindowReadPc.wakes, closed] at woken
  | release => simp [Waiter.step] at ok
  | mark =>
    simp only [Waiter.step, Except.ok.injEq, Prod.mk.injEq, Outcome.goto.injEq] at ok
    obtain ⟨rfl, rfl⟩ := ok
    exact woken.2 (by simp [Waiter.setState])
  | yield =>
    simp only [Waiter.step, Except.ok.injEq, Prod.mk.injEq, Outcome.goto.injEq] at ok
    obtain ⟨rfl, rfl⟩ := ok
    have waiting : s.waiter.cpu.state .reader = .waiting := by
      by_contra awake
      exact loops.2 ⟨by rw [at_]; rfl, awake⟩
    exact woken.2 (waiting_of_yield waiting)
  | parked => simp [Waiter.step] at ok
  | load | state | cas | wake | swapLoad | swapState | swapCas | switch | swapped => cases inside

/-- In `swap`, a reader that was not woken stays in the loop. -/
theorem Formed.loops_swaps (formed : s.Formed) {pc pc' : WaiterPc Party} {waiter : Waiter Party}
    (at_ : s.reader = .swap pc)
    (ok : s.waiter.step .reader s.closed pc = .ok (.goto pc', waiter)) :
    { s with waiter, reader := .swap pc' }.Loops := by
  have inside := formed.reader
  rw [at_] at inside
  refine ⟨rfl, fun woken => ?_⟩
  cases pc with
  | switch q =>
    simp only [Waiter.step] at ok
    split at ok
    · cases ok
    · rename_i other
      simp only [Except.ok.injEq, Prod.mk.injEq, Outcome.goto.injEq] at ok
      obtain ⟨rfl, rfl⟩ := ok
      exact woken.2 (by simp [Ne.symm other])
  | swapLoad | swapState | swapCas =>
    simp only [Waiter.step] at ok
    split at ok
    all_goals
      simp only [Except.ok.injEq, Prod.mk.injEq, Outcome.goto.injEq, reduceCtorEq, false_and] at ok
    all_goals
      obtain ⟨rfl, rfl⟩ := ok
      simp [Woken, WindowReadPc.wakes] at woken
  | swapped => simp [Waiter.step] at ok
  | claim | check | release | mark | yield | parked | load | state | cas | wake => cases inside

/-- A reader that runs where a woken one goes on was woken. -/
theorem Formed.woken (formed : s.Formed) (running : s.waiter.cpu.running = some .reader)
    (wakes : s.reader.wakes = true) (going : s.reader ≠ .park .yield) : s.Woken := by
  have role : s.role .reader ≠ some .yield := by
    intro same
    cases at_ : s.reader <;> simp_all [Window.role, WindowReadPc.role, WindowReadPc.wakes]
  refine ⟨wakes, fun waiting => ?_⟩
  rcases (formed.waiter.awake running role).state with ⟨-, state, -⟩ | ⟨elsewhere, -⟩
  · rw [state] at waiting
    cases waiting
  · exact elsewhere running

/-- A writer that hands over or has handed over is engaged. -/
theorem engaged_of_clears {pc : WindowWritePc α} (clears : pc.clears = true) :
    pc.engaged = true := by
  cases pc <;> simp_all [WindowWritePc.clears, WindowWritePc.engaged]

theorem engaged_of_serves {pc : WindowWritePc α} (serves : pc.serves = true) :
    pc.engaged = true := by
  cases pc <;> simp_all [WindowWritePc.serves, WindowWritePc.engaged]

/-- Outside `read` nobody waits for a value. -/
theorem not_loops_of_rests (rests : s.reader.calling = false) : ¬ s.Loops := by
  intro loops
  have looping := loops.1
  cases at_ : s.reader <;> simp_all [WindowReadPc.calling, WindowReadPc.loops]

/-- Closing by the reader, which is outside the loop before and after, keeps the pairing. -/
theorem Paired.reader_closes (paired : s.Paired) (rests : s.reader.calling = false)
    {reader : WindowReadPc} {waiter : Waiter Party} {target : Option Nat} {closed : Bool}
    (goes : (∃ pc', reader = .close pc') ∨ reader = .idle) (later : s.closed = true → closed = true)
    (cleared : target = s.target ∨ target = none)
    (stored : reader.closed = true → closed = true) :
    { s with waiter, target, closed, reader }.Paired := by
  have out := not_loops_of_rests rests
  -- Nothing waits for the writer, so `_reader` is null unless the window was closed before.
  have null : s.closed = false → target = none := by
    intro open_
    rcases cleared with same | null
    · rw [same]
      by_contra set
      obtain ⟨call, set⟩ := Option.ne_none_iff_exists'.mp set
      exact out (paired.points call set open_).2.1
    · exact null
  have idle : s.writer.engaged = false := by
    by_contra engaged
    exact out (paired.engaged (by simpa using engaged)).2
  have unset : ∀ {goal : Prop}, s.writer.engaged = true → goal := by
    intro goal engaged
    rw [idle] at engaged
    cases engaged
  have none_ : s.pending = [] := by simp [pending, rests]
  have order := paired.order
  rw [none_] at order
  have flags : reader.calling = false ∧ reader.begins = false ∧ reader.outside = true ∧
      reader.finishes = false ∧ reader.wakes = false := by
    rcases goes with ⟨pc', rfl⟩ | rfl <;> exact ⟨rfl, rfl, rfl, rfl, rfl⟩
  obtain ⟨calling, begins, outside, finishes, wakes⟩ := flags
  constructor
  · simpa [pending, calling] using order
  · simp [begins]
  · rintro (own | writer)
    · exact stored own
    · exact later (paired.closed (.inr writer))
  · exact fun _ _ => outside
  · intro call set open_
    have before : s.closed = false := by
      by_contra closed_
      rw [later (by simpa using closed_)] at open_
      cases open_
    rw [show target = some call from set] at null
    cases null before
  · exact fun engaged => unset engaged
  · exact fun parked t here => unset (by rw [show s.writer = _ from here]; rfl)
  · intro clears
    exact paired.clears clears
  · intro serves
    exact ⟨(paired.serves serves).1, by
      rcases cleared with same | null
      · exact same.trans (paired.serves serves).2
      · exact null⟩
  · intro t here _
    rcases cleared with same | null_
    · by_cases before : s.closed = true
      · exact same.trans (paired.asserts t here before)
      · exact null (by simpa using before)
    · exact null_
  · rintro (woken | done)
    · rw [show reader.wakes = true from woken.1] at wakes
      cases wakes
    · rw [show reader.finishes = true from done] at finishes
      cases finishes
  · exact paired.origin

/-- Every statement of the reader keeps the pairing, if it does not wait on a closed window. -/
theorem Paired.reads (paired : s.Paired) (formed : s.Formed)
    (running : s.waiter.cpu.running = some .reader)
    (current : s.reader = .setReader → s.closed = true → ∀ t, s.writer ≠ .assertReader t)
    (reads : Reads s s') : s'.Paired := by
  have inside := formed.reader
  -- Outside the loop there is nothing to keep of it.
  have skip : ∀ {goal : Prop}, s.reader.loops = false → s.closed = false → s.Loops → goal := by
    intro goal out _ loops
    rw [loops.1] at out
    cases out
  have enclosed : ∀ {goal : Prop}, s.reader.outside = false → s.closed = true →
      s.writer.active = true → goal := by
    intro goal within closed active
    rw [paired.outside closed active] at within
    cases within
  cases reads with
  | assertEntry at_ null =>
    refine paired.reader_moves (by rw [at_]; rfl) (fun _ => paired.begins (by rw [at_]; rfl))
      nofun (fun _ _ => rfl) (skip (by rw [at_]; rfl)) ?_
    simp [Woken, WindowReadPc.wakes, WindowReadPc.finishes]
  | setReader at_ =>
    have fresh := paired.begins (by rw [at_]; rfl)
    have out : ¬ s.Loops := by
      intro loops
      simp [Loops, at_, WindowReadPc.loops] at loops
    have pending : s.pending = [] := by simp [pending, fresh]
    have order := paired.order
    rw [pending] at order
    have away : s.writer.engaged ≠ true := fun engaged => out (paired.engaged engaged).2
    constructor
    · simpa [Window.pending, fresh] using order
    · nofun
    · rintro (own | writer)
      · cases own
      · exact paired.closed (.inr writer)
    · exact fun _ _ => rfl
    · intro call set open_
      refine ⟨by simpa using set.symm, ⟨rfl, ?_⟩, .inl fresh⟩
      simp [Woken, WindowReadPc.wakes]
    · exact fun engaged => absurd engaged away
    · simp
    · exact paired.clears
    · exact fun serves => absurd (engaged_of_serves serves) away
    · exact fun t here closed => absurd here (current at_ closed t)
    · simp [Woken, WindowReadPc.wakes, WindowReadPc.finishes]
    · exact paired.origin
  | closed at_ closed =>
    refine paired.reader_moves (by rw [at_]; rfl) nofun nofun (fun _ _ => rfl) ?_
      fun _ => .inr closed
    intro open_
    rw [closed] at open_
    cases open_
  | opened at_ open_ =>
    refine paired.reader_moves (by rw [at_]; rfl) nofun nofun ?_ ?_ ?_
    · intro closed
      rw [open_] at closed
      cases closed
    · exact fun _ _ => ⟨rfl, by simp [Woken, WindowReadPc.wakes]⟩
    · simp [Woken, WindowReadPc.wakes, WindowReadPc.finishes]
  | @parks pc pc' waiter at_ ok =>
    have loops := formed.loops_parks at_ ok
    refine paired.reader_moves (by rw [at_]; rfl) nofun nofun (enclosed (by rw [at_]; rfl))
      (fun _ => loops) ?_
    rintro (woken | done)
    · -- A task does not wake itself.
      by_cases before : s.Woken
      · exact paired.answered (.inl before)
      · exact absurd woken (loops ⟨by rw [at_]; rfl, before⟩).2
    · cases done
  | parked at_ ok =>
    rw [at_] at inside
    obtain ⟨rfl, rfl⟩ := Waiter.park_true inside ok
    have woken := formed.woken running (by rw [at_]; rfl) (by simp [at_])
    exact paired.reader_moves (by rw [at_]; rfl) nofun nofun (enclosed (by rw [at_]; rfl))
      (fun _ loops => absurd woken loops.2) fun _ => paired.answered (.inl woken)
  | unparked at_ ok =>
    refine paired.reader_moves (by rw [at_]; rfl) nofun nofun (enclosed (by rw [at_]; rfl)) ?_ ?_
    · exact fun _ _ => ⟨rfl, by simp [Woken, WindowReadPc.wakes]⟩
    · simp [Woken, WindowReadPc.wakes, WindowReadPc.finishes]
  | assertServed at_ null =>
    exact paired.reader_moves (by rw [at_]; rfl) nofun nofun (enclosed (by rw [at_]; rfl))
      (skip (by rw [at_]; rfl)) fun _ => paired.answered (.inr (by rw [at_]; rfl))
  | drains at_ ok =>
    exact paired.reader_moves (by rw [at_]; rfl) nofun nofun (enclosed (by rw [at_]; rfl))
      (skip (by rw [at_]; rfl)) fun _ => paired.answered (.inr (by rw [at_]; rfl))
  | drained at_ ok =>
    exact paired.reader_moves (by rw [at_]; rfl) nofun nofun (fun _ _ => rfl)
      (skip (by rw [at_]; rfl)) fun _ => paired.answered (.inr (by rw [at_]; rfl))
  | swaps at_ ok =>
    have loops := formed.loops_swaps at_ ok
    refine paired.reader_moves (by rw [at_]; rfl) nofun nofun (enclosed (by rw [at_]; rfl))
      (fun _ _ => loops) ?_
    rintro (woken | done)
    · exact absurd woken loops.2
    · cases done
  | swapped at_ ok =>
    rw [at_] at inside
    obtain ⟨rfl, rfl⟩ := Waiter.swap_true inside ok
    have woken := formed.woken running (by rw [at_]; rfl) (by simp [at_])
    exact paired.reader_moves (by rw [at_]; rfl) nofun nofun (fun _ _ => rfl)
      (fun _ loops => absurd woken loops.2) fun _ => paired.answered (.inl woken)
  | unswapped at_ ok =>
    refine paired.reader_moves (by rw [at_]; rfl) nofun nofun (enclosed (by rw [at_]; rfl)) ?_ ?_
    · exact fun _ _ => ⟨rfl, by simp [Woken, WindowReadPc.wakes]⟩
    · simp [Woken, WindowReadPc.wakes, WindowReadPc.finishes]
  | yield at_ =>
    refine paired.reader_moves (by rw [at_]; rfl) nofun nofun (fun _ _ => rfl) ?_ ?_
    · exact fun _ _ => ⟨rfl, by simp [Woken, WindowReadPc.wakes]⟩
    · simp [Woken, WindowReadPc.wakes, WindowReadPc.finishes]
  | ret at_ =>
    -- The value goes from the local to the caller.
    have pending : s.pending = s.ret.toList := by simp [pending, at_, WindowReadPc.calling]
    have order := paired.order
    rw [pending] at order
    have out : ¬ s.Loops := by
      intro loops
      simp [Loops, at_, WindowReadPc.loops] at loops
    constructor
    · simpa [Window.pending, WindowReadPc.calling] using order
    · nofun
    · rintro (own | writer)
      · cases own
      · exact paired.closed (.inr writer)
    · exact fun _ _ => rfl
    · exact fun call set open_ => absurd (paired.points call set open_).2.1 out
    · exact fun engaged => absurd (paired.engaged engaged).2 out
    · exact paired.emplaces
    · exact paired.clears
    · exact paired.serves
    · exact paired.asserts
    · simp [Woken, WindowReadPc.wakes, WindowReadPc.finishes]
    · exact paired.origin
  | closes at_ closes =>
    have stored : s.reader.closed = true → s.closed = true := fun own => paired.closed (.inl own)
    have rests : s.reader.calling = false := by rw [at_]; rfl
    rw [at_] at stored
    cases closes with
    | store =>
      exact paired.reader_closes rests (.inl ⟨_, rfl⟩) (fun _ => rfl) (.inl rfl) fun _ => rfl
    | clear => exact paired.reader_closes rests (.inl ⟨_, rfl⟩) id (.inr rfl) fun _ => stored rfl
    | drains ok =>
      exact paired.reader_closes rests (.inl ⟨_, rfl⟩) id (.inl rfl) fun _ => stored rfl
  | closeReturns at_ closes =>
    cases closes with
    | drained ok =>
      exact paired.reader_closes (by rw [at_]; rfl) (.inr rfl) id (.inl rfl) nofun

/-- A statement of the writer that leaves `ret` alone keeps the pairing. -/
theorem Paired.writer_moves (paired : s.Paired) {pc : WindowWritePc α} {waiter : Waiter Party}
    {accepted : List α} {target : Option Nat}
    (held : accepted ++ pc.held = s.accepted ++ s.writer.held)
    (cleared : target = s.target ∨ target = none)
    (stored : pc.closed = true → s.closed = true)
    (active : pc.active = true → s.writer.active = true ∨ s.closed = false)
    (wakes : { s with waiter, writer := pc }.Woken →
      s.Woken ∨ s.closed = true ∨ (s.ret ≠ none ∧ target = none))
    (engaged : pc.engaged = true → s.closed = false ∧ { s with waiter, writer := pc }.Loops)
    (kept : target ≠ none → s.writer.clears = true → pc.clears = true)
    (emplaces : ∀ parked t, pc = .emplace parked t → target ≠ none)
    (clears : pc.clears = true → s.ret ≠ none)
    (serves : pc.serves = true → s.ret ≠ none ∧ target = none)
    (asserts : ∀ t, pc = .assertReader t → s.closed = true → target = none)
    (keeps : pc.keeps = true → s.origin < s.writes) :
    { s with waiter, accepted, target, writer := pc }.Paired where
  order := held.trans paired.order
  begins := paired.begins
  closed := fun either => either.elim (fun reader => paired.closed (.inl reader)) stored
  outside := fun closed goes => by
    rcases active goes with before | open_
    · exact paired.outside closed before
    · rw [show s.closed = true from closed] at open_
      cases open_
  points := fun call set open_ => by
    have set' : target = some call := set
    have before : s.target = some call := by
      rcases cleared with same | null
      · rw [← same, set']
      · rw [null] at set'
        cases set'
    obtain ⟨same, loops, unset⟩ := paired.points call before open_
    refine ⟨same, ⟨loops.1, fun woken => ?_⟩, unset.imp id (kept (by simp [set']))⟩
    rcases wakes woken with woken | closed | ⟨-, null⟩
    · exact loops.2 woken
    · rw [show s.closed = false from open_] at closed
      cases closed
    · rw [null] at set'
      cases set'
  engaged := engaged
  emplaces := emplaces
  clears := clears
  serves := serves
  asserts := asserts
  answered := fun either => by
    rcases either with woken | done
    · rcases wakes woken with woken | closed | ⟨some_, -⟩
      · exact paired.answered (.inl woken)
      · exact .inr closed
      · exact .inl some_
    · exact paired.answered (.inr done)
  origin := ⟨paired.origin.1, keeps⟩

/-- A reader whose run state is left alone is as awake as before. -/
theorem woken_of_state {pc : WindowWritePc α} {waiter : Waiter Party}
    (same : waiter.cpu.state .reader = s.waiter.cpu.state .reader)
    (woken : { s with waiter, writer := pc }.Woken) : s.Woken := ⟨woken.1, same ▸ woken.2⟩

/-- A reader in the slot is in the loop. -/
theorem Formed.loops_of_slot (formed : s.Formed) (stands : s.waiter.slot = some .reader) :
    s.Loops ∧ s.reader.outside = false := by
  obtain ⟨pc, role, away, how⟩ := formed.waiter.stands stands
  have unwoken : ¬ s.Woken := by
    rintro ⟨wakes, awake⟩
    rcases how with claimed | ⟨-, waiting⟩
    · rcases formed.reader_at role away with at_ | at_ <;> rw [at_] at wakes <;>
        cases pc <;> simp_all [WindowReadPc.wakes, Waiter.claims]
    · exact awake waiting
  rcases formed.reader_at role away with at_ | at_
  · exact ⟨⟨by rw [at_]; rfl, unwoken⟩, by rw [at_]; rfl⟩
  · exact ⟨⟨by rw [at_]; rfl, unwoken⟩, by rw [at_]; rfl⟩

/-- A writer outside the waiter's code is not in the slot, so it finds the reader there. -/
theorem Formed.found (formed : s.Formed) (running : s.waiter.cpu.running = some .writer)
    (out : s.writer.role = none) (stands : s.waiter.slot ≠ none) :
    s.waiter.slot = some .reader := by
  have role : s.role .writer = none := out
  obtain ⟨q, slot⟩ := Option.ne_none_iff_exists'.mp stands
  cases q with
  | reader => exact slot
  | writer =>
    have claimed := (formed.waiter.awake running (by simp [role])).slot.mp slot
    simp [role, Waiter.claims] at claimed

/-- Closing by the writer, which has nothing under way, keeps the pairing. -/
theorem Paired.writer_closes (paired : s.Paired)
    (rests : (∃ pc, s.writer = .close pc) ∨ s.writer = .idle) {writer : WindowWritePc α}
    {waiter : Waiter Party} {target : Option Nat} {closed : Bool}
    (goes : (∃ pc', writer = .close pc') ∨ writer = .idle)
    (later : s.closed = true → closed = true) (cleared : target = s.target ∨ target = none)
    (stored : writer.closed = true → closed = true)
    (wakes : { s with waiter, writer }.Woken → s.Woken ∨ closed = true) :
    { s with waiter, target, closed, writer }.Paired := by
  have flags : writer.held = [] ∧ writer.active = false ∧ writer.engaged = false ∧
      writer.clears = false ∧ writer.serves = false ∧ writer.keeps = false ∧
      (∀ t, writer ≠ .assertReader t) ∧ ∀ parked t, writer ≠ .emplace parked t := by
    rcases goes with ⟨pc', rfl⟩ | rfl <;> exact ⟨rfl, rfl, rfl, rfl, rfl, rfl, nofun, nofun⟩
  obtain ⟨held, active, engaged, clears, serves, keeps, asserts, emplaces⟩ := flags
  have order := paired.order
  have none_ : s.writer.held = [] ∧ s.writer.clears = false := by
    rcases rests with ⟨pc, at_⟩ | at_ <;> rw [at_] <;> exact ⟨rfl, rfl⟩
  rw [none_.1] at order
  have open_of : closed = false → s.closed = false := by
    intro open_
    by_contra closed_
    rw [later (by simpa using closed_)] at open_
    cases open_
  constructor
  · rw [held]
    exact order
  · exact paired.begins
  · rintro (own | own)
    · exact later (paired.closed (.inl own))
    · exact stored own
  · simp [active]
  · intro call set open_
    have before : s.target = some call := by
      rcases cleared with same | null
      · rw [← same]
        exact set
      · rw [show target = some call from set] at null
        cases null
    obtain ⟨same, loops, unset⟩ := paired.points call before (open_of open_)
    refine ⟨same, ⟨loops.1, fun woken => ?_⟩, .inl (unset.resolve_right ?_)⟩
    · rcases wakes woken with woken | closed_
      · exact loops.2 woken
      · rw [show closed = false from open_] at closed_
        cases closed_
    · simp [none_.2]
  · simp [engaged]
  · exact fun parked t here => absurd here (emplaces parked t)
  · simp [clears]
  · simp [serves]
  · exact fun t here => absurd here (asserts t)
  · rintro (woken | done)
    · rcases wakes woken with woken | closed_
      · exact (paired.answered (.inl woken)).imp id later
      · exact .inr closed_
    · exact (paired.answered (.inr done)).imp id later
  · exact ⟨paired.origin.1, by simp [keeps]⟩

/-- A statement that leads the writer out of a hand-over, or to none, keeps the pairing. -/
theorem Paired.writer_passes (paired : s.Paired) {pc : WindowWritePc α} {waiter : Waiter Party}
    {accepted : List α} {target : Option Nat}
    (apart : pc.engaged = false) (elsewhere : pc.closed = false) (before : s.writer.clears = false)
    (held : accepted ++ pc.held = s.accepted ++ s.writer.held)
    (cleared : target = s.target ∨ target = none)
    (active : pc.active = true → s.writer.active = true ∨ s.closed = false)
    (wakes : { s with waiter, writer := pc }.Woken →
      s.Woken ∨ s.closed = true ∨ (s.ret ≠ none ∧ target = none))
    (asserts : ∀ t, pc = .assertReader t → s.closed = true → target = none)
    (keeps : pc.keeps = true → s.origin < s.writes) :
    { s with waiter, accepted, target, writer := pc }.Paired := by
  have unclear : pc.clears ≠ true := by
    intro clears
    simp [engaged_of_clears clears] at apart
  have unserved : pc.serves ≠ true := by
    intro serves
    simp [engaged_of_serves serves] at apart
  refine paired.writer_moves held cleared (by simp [elsewhere]) active wakes (by simp [apart])
    (by simp [before]) ?_ (absurd · unclear) (absurd · unserved) asserts keeps
  rintro parked t rfl
  cases apart

/-- A statement of the writer that leads past the reset of `_reader` keeps the pairing. -/
theorem Paired.writer_serves (paired : s.Paired) {pc : WindowWritePc α} {waiter : Waiter Party}
    {target : Option Nat} (handed : pc.held ≠ []) (past : pc.clears = false)
    (held : pc.held = s.writer.held) (active : s.writer.active = true)
    (served : s.ret ≠ none ∧ target = none)
    (wakes : { s with waiter, writer := pc }.Woken →
      s.Woken ∨ s.closed = true ∨ (s.ret ≠ none ∧ target = none))
    (engaged : pc.engaged = true → s.closed = false ∧ { s with waiter, writer := pc }.Loops) :
    { s with waiter, target, writer := pc }.Paired := by
  refine paired.writer_moves (by rw [held]) (.inr served.2) ?_ (fun _ => .inl active) wakes engaged
    (fun set => absurd served.2 set) ?_ (by simp [past]) (fun _ => served) ?_ ?_
  · cases pc <;> simp_all [WindowWritePc.held, WindowWritePc.closed]
  · rintro parked t rfl
    exact absurd rfl handed
  · rintro t rfl
    exact absurd rfl handed
  · intro keeps
    cases pc with
    | ret t accepted => cases accepted <;> simp_all [WindowWritePc.held, WindowWritePc.keeps]
    | _ => simp_all [WindowWritePc.held, WindowWritePc.keeps]

/-- Every statement of the writer keeps the pairing. -/
theorem Paired.writes (paired : s.Paired) (formed : s.Formed)
    (running : s.waiter.cpu.running = some .writer) (writes : Writes s s') : s'.Paired := by
  have inside := formed.writer
  -- Most statements leave the reader's run state alone.
  have quiet : ∀ {pc : WindowWritePc α} {waiter : Waiter Party} {goal : Prop},
      waiter.cpu.state .reader = s.waiter.cpu.state .reader →
      { s with waiter, writer := pc }.Woken → s.Woken ∨ goal :=
    fun same woken => .inl (woken_of_state same woken)
  have stays : ∀ {pc : WindowWritePc α} {waiter : Waiter Party},
      waiter.cpu.state .reader = s.waiter.cpu.state .reader → s.writer.engaged = true →
      s.closed = false ∧ { s with waiter, writer := pc }.Loops := by
    intro pc waiter same engaged
    obtain ⟨open_, loops⟩ := paired.engaged engaged
    exact ⟨open_, loops.1, fun woken => loops.2 (woken_of_state same woken)⟩
  have keeps : s.writer.keeps = true → s.origin < s.writes := paired.origin.2
  cases writes with
  | refused at_ closed =>
    exact paired.writer_passes rfl rfl (by rw [at_]; rfl) (by rw [at_]; rfl) (.inl rfl)
      (by rintro ⟨⟩) (quiet rfl) (by rintro _ ⟨⟩) fun _ => keeps (by rw [at_]; rfl)
  | opened at_ open_ =>
    exact paired.writer_passes rfl rfl (by rw [at_]; rfl) (by rw [at_]; rfl) (.inl rfl)
      (fun _ => .inr open_) (quiet rfl) (by rintro _ ⟨⟩) fun _ => keeps (by rw [at_]; rfl)
  | @parks t pc pc' waiter at_ ok =>
    rw [at_] at inside
    have same : waiter.cpu.state .reader = s.waiter.cpu.state .reader := by
      rcases Waiter.step_state (q := .reader) (by decide) ok with same | rfl | rfl
      · exact same
      · cases inside
      · cases inside
    exact paired.writer_passes rfl rfl (by rw [at_]; rfl) (by rw [at_]; rfl) (.inl rfl)
      (fun _ => .inl (by rw [at_]; rfl)) (quiet same) (by rintro _ ⟨⟩)
      fun _ => keeps (by rw [at_]; rfl)
  | parked at_ ok =>
    rw [at_] at inside
    obtain ⟨rfl, rfl⟩ := Waiter.park_true inside ok
    exact paired.writer_passes rfl rfl (by rw [at_]; rfl) (by rw [at_]; rfl) (.inl rfl)
      (fun _ => .inl (by rw [at_]; rfl)) (quiet rfl) (by rintro _ ⟨⟩)
      fun _ => keeps (by rw [at_]; rfl)
  | @unparked t pc waiter at_ ok =>
    rw [at_] at inside
    have same : waiter.cpu.state .reader = s.waiter.cpu.state .reader := by
      rcases (Waiter.step_return ok).2 with ⟨member, -⟩ | same
      · rw [inside] at member
        cases member
      · rw [same]
    exact paired.writer_passes rfl rfl (by rw [at_]; rfl) (by rw [at_]; rfl) (.inl rfl)
      (fun _ => .inl (by rw [at_]; rfl)) (quiet same) (by rintro _ ⟨⟩)
      fun _ => keeps (by rw [at_]; rfl)
  | closedSince at_ closed =>
    exact paired.writer_passes rfl rfl (by rw [at_]; rfl) (by rw [at_]; rfl) (.inl rfl)
      (by rintro ⟨⟩) (quiet rfl) (by rintro _ ⟨⟩) fun _ => keeps (by rw [at_]; rfl)
  | stillOpen at_ open_ =>
    refine paired.writer_passes rfl rfl (by rw [at_]; rfl) (by rw [at_]; rfl) (.inl rfl)
      (fun _ => .inr open_) (quiet rfl) ?_ fun _ => keeps (by rw [at_]; rfl)
    intro t _ closed
    rw [open_] at closed
    cases closed
  | clearClosed at_ =>
    exact paired.writer_passes rfl rfl (by rw [at_]; rfl) (by rw [at_]; rfl) (.inr rfl)
      (by rintro ⟨⟩) (quiet rfl) (by rintro _ ⟨⟩) fun _ => keeps (by rw [at_]; rfl)
  | assertReader at_ set =>
    -- The assertion holds only on an open window, where `_reader` points to a call that waits.
    have open_ : s.closed = false := by
      by_contra closed
      exact set (paired.asserts _ at_ (by simpa using closed))
    obtain ⟨call, points⟩ := Option.ne_none_iff_exists'.mp set
    have loops := (paired.points call points open_).2.1
    exact paired.writer_moves (by rw [at_]; rfl) (.inl rfl) (by rintro ⟨⟩) (fun _ => .inr open_)
      (quiet rfl) (fun _ => ⟨open_, loops⟩) (by simp [at_, WindowWritePc.clears])
      (fun _ _ _ => set) (by rintro ⟨⟩) (by rintro ⟨⟩) (by rintro _ ⟨⟩)
      fun _ => keeps (by rw [at_]; rfl)
  | @emplace parked t at_ target calling =>
    obtain ⟨open_, loops⟩ := paired.engaged (by rw [at_]; rfl)
    have unset : s.ret = none := by
      refine (paired.points _ target open_).2.2.resolve_right ?_
      rw [at_]
      rintro ⟨⟩
    have order := paired.order
    rw [show s.writer.held = [] by rw [at_]; rfl,
      show s.pending = [] by simp [pending, unset], List.append_nil, List.append_nil] at order
    constructor
    · rw [order]
      simp [Window.pending, WindowWritePc.held, calling]
    · intro begins
      have looping := loops.1
      cases here : s.reader <;> simp_all [WindowReadPc.begins, WindowReadPc.loops]
    · rintro (own | own)
      · exact paired.closed (.inl own)
      · cases own
    · intro closed
      rw [show s.closed = true from closed] at open_
      cases open_
    · intro call set _
      obtain ⟨same, stays, -⟩ := paired.points call set open_
      exact ⟨same, stays, .inr rfl⟩
    · exact fun _ => ⟨open_, loops⟩
    · rintro _ _ ⟨⟩
    · simp
    · rintro ⟨⟩
    · rintro _ ⟨⟩
    · exact fun _ => .inl (by simp)
    · exact ⟨le_rfl, (by rintro ⟨⟩)⟩
  | clearParked at_ =>
    have ret := paired.clears (by rw [at_]; rfl)
    exact paired.writer_serves (by simp [WindowWritePc.held]) rfl (by rw [at_]; rfl)
      (by rw [at_]; rfl) ⟨ret, rfl⟩ (quiet rfl) fun _ => stays rfl (by rw [at_]; rfl)
  | clear at_ =>
    have ret := paired.clears (by rw [at_]; rfl)
    exact paired.writer_serves (by simp [WindowWritePc.held]) rfl (by rw [at_]; rfl)
      (by rw [at_]; rfl) ⟨ret, rfl⟩ (quiet rfl) fun _ => stays rfl (by rw [at_]; rfl)
  | @swaps t pc pc' waiter at_ ok =>
    rw [at_] at inside
    have going : pc ≠ .swapped := by
      rintro rfl
      simp [Waiter.step] at ok
    have serves : s.writer.serves = true := by simp [at_, WindowWritePc.serves, going]
    have served := paired.serves serves
    refine paired.writer_serves (by simp [WindowWritePc.held]) rfl (by rw [at_]; rfl)
      (by rw [at_]; rfl) served (fun _ => .inr (.inr served)) ?_
    intro engaged
    rcases Waiter.step_state (q := .reader) (by decide) ok with same | rfl | rfl
    · exact stays same (engaged_of_serves serves)
    · cases inside
    · -- The switch to the reader ends the hand-over.
      simp only [Waiter.step, reduceCtorEq, if_false, Except.ok.injEq, Prod.mk.injEq,
        Outcome.goto.injEq] at ok
      rw [← ok.1] at engaged
      cases engaged
  | swapped at_ ok =>
    rw [at_] at inside
    obtain ⟨rfl, rfl⟩ := Waiter.swap_true inside ok
    exact paired.writer_passes rfl rfl (by rw [at_]; rfl) (by rw [at_]; rfl) (.inl rfl)
      (by rintro ⟨⟩) (quiet rfl) (by rintro _ ⟨⟩) (by rintro ⟨⟩)
  | @unswapped t pc waiter at_ ok =>
    rw [at_] at inside
    have going : pc ≠ .swapped := by
      rintro rfl
      simp [Waiter.step] at ok
    have same : waiter.cpu.state .reader = s.waiter.cpu.state .reader := by
      rcases (Waiter.step_return ok).2 with ⟨member, -⟩ | same
      · rw [inside] at member
        cases member
      · rw [same]
    have serves : s.writer.serves = true := by simp [at_, WindowWritePc.serves, going]
    exact paired.writer_serves (by simp [WindowWritePc.held]) rfl (by rw [at_]; rfl)
      (by rw [at_]; rfl) (paired.serves serves) (quiet same)
      fun _ => stays same (engaged_of_serves serves)
  | swapAgain at_ =>
    have served := paired.serves (by rw [at_]; rfl)
    exact paired.writer_serves (by simp [WindowWritePc.held]) rfl (by rw [at_]; rfl)
      (by rw [at_]; rfl) served (quiet (by simp [Waiter.yield]))
      fun _ => stays (by simp [Waiter.yield]) (by rw [at_]; rfl)
  | nobody at_ empty =>
    exact paired.writer_passes rfl rfl (by rw [at_]; rfl) (by rw [at_]; rfl) (.inl rfl)
      (by rintro ⟨⟩) (quiet rfl) (by rintro _ ⟨⟩) fun _ => keeps (by rw [at_]; rfl)
  | somebody at_ stands =>
    have found := formed.found running (by rw [at_]; rfl) stands
    obtain ⟨loops, within⟩ := formed.loops_of_slot found
    have open_ : s.closed = false := by
      by_contra closed
      rw [paired.outside (by simpa using closed) (by rw [at_]; rfl)] at within
      cases within
    exact paired.writer_moves (by rw [at_]; rfl) (.inl rfl) (by rintro ⟨⟩) (fun _ => .inr open_)
      (quiet rfl) (fun _ => ⟨open_, loops⟩) (by simp [at_, WindowWritePc.clears])
      (by rintro _ _ ⟨⟩) (by rintro ⟨⟩) (by rintro ⟨⟩) (by rintro _ ⟨⟩)
      fun _ => keeps (by rw [at_]; rfl)
  | noReader at_ null =>
    exact paired.writer_passes rfl rfl (by rw [at_]; rfl) (by rw [at_]; rfl) (.inl rfl)
      (by rintro ⟨⟩) (quiet rfl) (by rintro _ ⟨⟩) fun _ => keeps (by rw [at_]; rfl)
  | reader at_ set =>
    exact paired.writer_moves (by rw [at_]; rfl) (.inl rfl) (by rintro ⟨⟩)
      (fun _ => .inl (by rw [at_]; rfl)) (quiet rfl) (fun _ => stays rfl (by rw [at_]; rfl))
      (by simp [at_, WindowWritePc.clears]) (fun _ _ _ => set) (by rintro ⟨⟩) (by rintro ⟨⟩)
      (by rintro _ ⟨⟩) fun _ => keeps (by rw [at_]; rfl)
  | @drains t pc pc' waiter at_ ok =>
    rw [at_] at inside
    have served := paired.serves (by rw [at_]; rfl)
    have same : waiter.cpu.state .reader = s.waiter.cpu.state .reader :=
      (Waiter.drain_state (by decide) inside ok).resolve_right fun woke => by cases woke.2
    exact paired.writer_serves (by simp [WindowWritePc.held]) rfl (by rw [at_]; rfl)
      (by rw [at_]; rfl) served (quiet same) fun _ => stays same (by rw [at_]; rfl)
  | drained at_ ok =>
    have served := paired.serves (by rw [at_]; rfl)
    exact paired.writer_passes rfl rfl (by rw [at_]; rfl) (by rw [at_]; rfl) (.inl rfl)
      (by rintro ⟨⟩) (fun _ => .inr (.inr served)) (by rintro _ ⟨⟩) (by rintro ⟨⟩)
  | yield at_ =>
    exact paired.writer_passes rfl rfl (by rw [at_]; rfl) (by rw [at_]; rfl) (.inl rfl)
      (by rintro ⟨⟩) (quiet (by simp [Waiter.yield])) (by rintro _ ⟨⟩)
      fun _ => keeps (by rw [at_]; rfl)
  | @ret t accepted at_ =>
    refine paired.writer_passes rfl rfl (by rw [at_]; rfl) ?_ (.inl rfl) (by rintro ⟨⟩)
      (quiet rfl) (by rintro _ ⟨⟩) (by rintro ⟨⟩)
    rw [at_]
    cases accepted <;> simp [WindowWritePc.held]
  | closes at_ closes =>
    have stored : s.writer.closed = true → s.closed = true := fun own => paired.closed (.inr own)
    rw [at_] at stored
    cases closes with
    | store =>
      exact paired.writer_closes (.inl ⟨_, at_⟩) (.inl ⟨_, rfl⟩) (fun _ => rfl) (.inl rfl)
        (fun _ => rfl) (quiet rfl)
    | clear =>
      exact paired.writer_closes (.inl ⟨_, at_⟩) (.inl ⟨_, rfl⟩) id (.inr rfl) (fun _ => stored rfl)
        (quiet rfl)
    | drains ok =>
      exact paired.writer_closes (.inl ⟨_, at_⟩) (.inl ⟨_, rfl⟩) id (.inl rfl) (fun _ => stored rfl)
        fun _ => .inr (stored rfl)
  | closeReturns at_ closes =>
    have stored : s.writer.closed = true → s.closed = true := fun own => paired.closed (.inr own)
    rw [at_] at stored
    cases closes with
    | drained ok =>
      exact paired.writer_closes (.inl ⟨_, at_⟩) (.inr rfl) id (.inl rfl) (by rintro ⟨⟩)
        fun _ => .inr (stored rfl)

/-- A scheduling decision keeps the pairing. -/
theorem Paired.sched (paired : s.Paired) {waiter : Waiter Party}
    (same : waiter.cpu.state .reader = .waiting ↔ s.waiter.cpu.state .reader = .waiting) :
    { s with waiter }.Paired := by
  have woken : { s with waiter }.Woken ↔ s.Woken := and_congr_right fun _ => not_congr same
  have loops : { s with waiter }.Loops ↔ s.Loops := and_congr_right fun _ => not_congr woken
  refine { paired with points := ?_, engaged := ?_, answered := ?_ }
  · intro call set open_
    rw [loops]
    exact paired.points call set open_
  · rw [loops]
    exact paired.engaged
  · rw [woken]
    exact paired.answered

/-- Whether `read` does not offer its slot on a closed window to a write that goes on. -/
def current (s : Window α) : ChannelLabel α → Bool
  | .run =>
    match s.waiter.cpu.running, s.reader, s.writer with
    | some .reader, .setReader, .assertReader _ => !s.closed
    | _, _, _ => true
  | _ => true

/-- Every such step keeps the pairing. -/
theorem Paired.step (paired : s.Paired) (formed : s.Formed) (current : s.current l = true)
    (steps : Steps s l s') : s'.Paired := by
  cases steps with
  | reads running reads =>
    refine paired.reads formed running ?_ reads
    intro at_ closed t here
    simp [Window.current, running, at_, here, closed] at current
  | writes running writes => exact paired.writes formed running writes
  | @preempt p running =>
    refine paired.sched ?_
    cases p <;> cases state : s.waiter.cpu.state .reader <;> simp [Waiter.yield, state]
  | @dispatch p idle queued =>
    refine paired.sched ?_
    -- Only a task that is not waiting is queued.
    have awake : s.waiter.cpu.state p ≠ .waiting := by
      intro waiting
      rw [(formed.waiter.asleep waiting).queued] at queued
      cases queued
    cases p with
    | reader => simpa using awake
    | writer => simp
  | read running at_ =>
    have out : ¬ s.Loops := not_loops_of_rests (by rw [at_]; rfl)
    have away : s.writer.engaged ≠ true := fun engaged => out (paired.engaged engaged).2
    have order := paired.order
    rw [show s.pending = [] by simp [pending, at_, WindowReadPc.calling]] at order
    constructor
    · simpa [pending] using order
    · exact fun _ => rfl
    · rintro (own | writer)
      · cases own
      · exact paired.closed (.inr writer)
    · exact fun _ _ => rfl
    · exact fun call set open_ => absurd (paired.points call set open_).2.1 out
    · exact fun engaged => absurd engaged away
    · exact paired.emplaces
    · exact fun clears => absurd (engaged_of_clears clears) away
    · exact fun serves => absurd (engaged_of_serves serves) away
    · exact paired.asserts
    · simp [Woken, WindowReadPc.wakes, WindowReadPc.finishes]
    · exact paired.origin
  | write running at_ =>
    have order := paired.order
    rw [show s.writer.held = [] by rw [at_]; rfl] at order
    constructor
    · exact order
    · exact paired.begins
    · rintro (own | own)
      · exact paired.closed (.inl own)
      · cases own
    · rintro _ ⟨⟩
    · intro call set open_
      obtain ⟨same, loops, unset⟩ := paired.points call set open_
      refine ⟨same, loops, .inl (unset.resolve_right ?_)⟩
      rw [at_]
      rintro ⟨⟩
    · rintro ⟨⟩
    · rintro _ _ ⟨⟩
    · rintro ⟨⟩
    · rintro ⟨⟩
    · rintro _ ⟨⟩
    · exact paired.answered
    · have earlier := paired.origin.1
      exact ⟨earlier.trans (Nat.le_succ _), fun _ => Nat.lt_succ_of_le earlier⟩
  | readerCloses running at_ =>
    exact paired.reader_closes (by rw [at_]; rfl) (.inl ⟨_, rfl⟩) id (.inl rfl) (by rintro ⟨⟩)
  | writerCloses running at_ =>
    exact paired.writer_closes (.inr at_) (.inl ⟨_, rfl⟩) id (.inl rfl) (by rintro ⟨⟩) .inl

/-- A new window is paired. -/
theorem paired_start : (start : Window α).Paired := by
  constructor <;> simp [start, pending, Woken, WindowReadPc.calling, WindowReadPc.begins,
    WindowReadPc.wakes, WindowReadPc.finishes, WindowReadPc.closed, WindowWritePc.held,
    WindowWritePc.closed, WindowWritePc.active, WindowWritePc.engaged, WindowWritePc.clears,
    WindowWritePc.serves, WindowWritePc.keeps]

/-- The window is open, and nobody is closing it. -/
structure Opened (s : Window α) : Prop where
  closed : s.closed = false
  reader : ∀ pc, s.reader ≠ .close pc
  writer : ∀ pc, s.writer ≠ .close pc

/-- A window stays open that nobody closes. -/
theorem Opened.step (opened : s.Opened) (open_ : l.opens = true) (steps : Steps s l s') :
    s'.Opened := by
  obtain ⟨closed, reader, writer⟩ := opened
  cases steps with
  | reads running reads =>
    cases reads with
    | closes at_ closes => exact absurd at_ (reader _)
    | closeReturns at_ closes => exact absurd at_ (reader _)
    | _ => exact ⟨closed, nofun, writer⟩
  | writes running writes =>
    cases writes with
    | closes at_ closes => exact absurd at_ (writer _)
    | closeReturns at_ closes => exact absurd at_ (writer _)
    | _ => exact ⟨closed, reader, nofun⟩
  | preempt running => exact ⟨closed, reader, writer⟩
  | dispatch idle queued => exact ⟨closed, reader, writer⟩
  | read running at_ => exact ⟨closed, nofun, writer⟩
  | write running at_ => exact ⟨closed, reader, nofun⟩
  | readerCloses running at_ => cases open_
  | writerCloses running at_ => cases open_

/-- A new window is open. -/
theorem opened_start : (start : Window α).Opened := ⟨rfl, nofun, nofun⟩

/-- On an open window every read may offer its slot. -/
theorem Opened.current (opened : s.Opened) : s.current l = true := by
  unfold Window.current
  split
  · split
    · simp [opened.closed]
    · rfl
  · rfl

/-- What a window promises about the values that go through it. -/
structure Delivers (s : Window α) : Prop where
  ordered : s.accepted <+: s.delivered ∨ s.delivered <+: s.accepted
  near : s.accepted.length ≤ s.delivered.length + 1 ∧ s.delivered.length ≤ s.accepted.length + 1
  -- A write that returns its argument is not the one that wrote last to a reader's slot.
  refused : ∀ t, s.writer = .ret t false → s.origin < s.writes
  ended : s.reader = .ret → s.ret = none → s.closed = true
  -- A value is emplaced into the empty slot of a call that is under way.
  emplaces : ∀ parked t, s.writer = .emplace parked t →
    s.target = some s.reads ∧ s.reader.calling = true ∧ s.ret = none

/-- Lists that agree once each has got at most one element more are prefixes of each other. -/
theorem prefix_of_append {a b x y : List α} (same : a ++ x = b ++ y) (one : x.length ≤ 1)
    (one' : y.length ≤ 1) :
    (a <+: b ∨ b <+: a) ∧ a.length ≤ b.length + 1 ∧ b.length ≤ a.length + 1 := by
  have lengths := congrArg List.length same
  rw [List.length_append, List.length_append] at lengths
  refine ⟨?_, by omega, by omega⟩
  exact List.prefix_or_prefix_of_prefix ⟨x, same⟩ ⟨y, rfl⟩

/-- A window whose tasks are paired keeps its promises. -/
theorem Paired.delivers (paired : s.Paired) : s.Delivers := by
  have held : s.writer.held.length ≤ 1 := by
    cases at_ : s.writer with
    | ret t accepted => cases accepted <;> simp [WindowWritePc.held]
    | _ => simp [WindowWritePc.held]
  have pending : s.pending.length ≤ 1 := by
    unfold Window.pending
    split
    · cases s.ret <;> simp
    · simp
  obtain ⟨ordered, near⟩ := prefix_of_append paired.order held pending
  refine ⟨ordered, near, ?_, ?_, ?_⟩
  · exact fun t at_ => paired.origin.2 (by rw [at_]; rfl)
  · intro at_ empty
    exact (paired.answered (.inr (by rw [at_]; rfl))).resolve_left (by simp [empty])
  · intro parked t at_
    obtain ⟨open_, loops⟩ := paired.engaged (by rw [at_]; rfl)
    obtain ⟨call, set⟩ := Option.ne_none_iff_exists'.mp (paired.emplaces parked t at_)
    obtain ⟨rfl, -, unset⟩ := paired.points call set open_
    refine ⟨set, ?_, unset.resolve_right (by rw [at_]; nofun)⟩
    by_contra rests
    exact not_loops_of_rests (by simpa using rests) loops

/-- In every run in which no read offers its slot past a close, a window keeps its promises. -/
theorem delivers_of_current
    (reached : Run.Reaches step (fun s l => s.current l = true) (start : Window α) s) :
    s.Delivers := by
  obtain ⟨-, paired⟩ : s.Formed ∧ s.Paired := by
    refine reached.invariant (P := fun s => s.Formed ∧ s.Paired) ⟨formed_start, paired_start⟩ ?_
    rintro s l s' ⟨formed, paired⟩ current ok
    have steps := steps_of_ok ok
    exact ⟨formed.step steps, paired.step formed current steps⟩
  exact paired.delivers

/-- The labels of a read that parks, and of a write that hands it a value and unparks it. -/
def handOver : List (ChannelLabel Nat) :=
  List.flatten [[.dispatch .reader, .read], List.replicate 7 .run, [.dispatch .writer, .write 7],
    List.replicate 12 .run]

/-- A hand-over, a close, and a read that finds the window closed. -/
def handOverClose : List (ChannelLabel Nat) :=
  List.flatten [handOver, [.close .writer], List.replicate 3 .run, [.preempt, .dispatch .reader],
    List.replicate 4 .run, [.read], List.replicate 3 .run]

/-- A value is handed over, and the next read finds the window closed. -/
theorem delivers_of_current_close : ∃ s, Run.Reaches step (fun s l => s.current l = true)
    (start : Window Nat) s ∧ s.reader = .ret ∧ s.ret = none ∧ s.accepted = [7] ∧
      s.delivered = [7] ∧ s.Delivers := by
  suffices run : ∃ s, Run.Reaches step (fun s l => s.current l = true) (start : Window Nat) s ∧
      s.reader = .ret ∧ s.ret = none ∧ s.accepted = [7] ∧ s.delivered = [7] by
    obtain ⟨s, reached, rest⟩ := run
    exact ⟨s, reached, rest.1, rest.2.1, rest.2.2.1, rest.2.2.2, delivers_of_current reached⟩
  exact Run.Reaches.of_check handOverClose (by decide +kernel)

/-- The labels that follow until the reader's loop has woken the writer of the next value. -/
def wrongWake : List (ChannelLabel Nat) :=
  List.flatten [handOver, [.write 8], List.replicate 5 .run, [.dispatch .reader],
    List.replicate 8 .run, [.preempt, .dispatch .writer, .run, .run]]

/-- A close and a read by the reader while the woken writer is before its assertion. -/
def closedRead : List (ChannelLabel Nat) :=
  List.flatten [wrongWake, [.preempt, .dispatch .reader, .close .reader], List.replicate 3 .run,
    [.read], List.replicate 4 .run, [.preempt, .dispatch .writer, .run]]

/-- A read past the reader's own close leaves `_reader` to a write that passes its assertion. -/
theorem closed_read_leaves_slot : ∃ s, Run.Reaches step (fun _ l => l ≠ .close .writer)
    (start : Window Nat) s ∧ s.writer = .emplace true 8 ∧ s.reader = .idle ∧ ¬ s.Delivers := by
  suffices run : ∃ s, Run.Reaches step (fun _ l => l ≠ .close .writer) (start : Window Nat) s ∧
      s.writer = .emplace true 8 ∧ s.reader = .idle by
    obtain ⟨s, reached, at_, idle⟩ := run
    refine ⟨s, reached, at_, idle, fun delivers => ?_⟩
    have calling := (delivers.emplaces true 8 at_).2.1
    rw [idle] at calling
    cases calling
  exact Run.Reaches.of_check closedRead (by decide +kernel)

end Window

end Gthread

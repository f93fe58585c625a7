import Gthread.Concur.ChannelWindowPairs

/-! The assertions of an open window hold, unless a wake-up is meant for an earlier hand-over. -/

namespace Gthread

open Function (update update_of_ne update_self)

variable {α : Type}

/-- Past a `park_if` that has returned true, and before the hand-over. -/
def WindowWritePc.resumes : WindowWritePc α → Bool
  | .checkAgain _ | .assertReader _ => true
  | _ => false

/-- Where a parked writer goes on when it is woken. -/
def WindowWritePc.parks : WindowWritePc α → Bool
  | .park _ .yield | .park _ .parked => true
  | _ => false

namespace Window

variable {s s' : Window α} {l : ChannelLabel α}

/-- The writer was woken from `park_if` and has yet to look for the reader. -/
def Summoned (s : Window α) : Prop :=
  s.writer.resumes = true ∨ (s.writer.parks = true ∧ s.waiter.cpu.state .writer ≠ .waiting)

/-- The writer is at a task it will wake: it stands in the slot, or was just taken out of it. -/
def Holds (s : Window α) : Prop :=
  s.waiter.slot = some .reader ∨ Waiter.takes s.writer.role = some .reader

/-- Each task that goes on finds the other one where it expects it. -/
structure Meets (s : Window α) : Prop where
  unclosed : ∀ t, s.writer ≠ .clearClosed t
  release : s.reader ≠ .park .release
  waits : s.Loops → s.target ≠ none ∨ s.writer.serves = true
  holds : s.writer.engaged = true → s.Holds
  summoned : s.Summoned → s.waiter.slot = some .reader ∧ s.target ≠ none
  -- The loop after a hand-over wakes only a writer that has completed one.
  wakes : ∀ q, s.reader = .drain (.unpark (.wake q)) → ∃ t, s.writer = .swap t .swapped

/-- A running reader is not being woken. -/
theorem Formed.slot_of_holds (formed : s.Formed) (running : s.waiter.cpu.running = some .reader)
    (holds : s.Holds) : s.waiter.slot = some .reader := by
  rcases holds with stands | taken
  · exact stands
  · exact absurd running (formed.waiter.taken (p := .writer) taken).2.2

/-- A statement of the reader keeps what each task expects of the other. -/
theorem Meets.reader_moves (meets : s.Meets) (formed : s.Formed)
    (running : s.waiter.cpu.running = some .reader) {pc : WindowReadPc} {waiter : Waiter Party}
    {target : Option Nat} {delivered : List α} (release : pc ≠ .park .release)
    (loops : { s with waiter, reader := pc }.Loops → target ≠ none ∨ s.Loops)
    (slot : s.waiter.slot = some .reader → waiter.slot = some .reader)
    (set : target = s.target ∨ target ≠ none)
    (summoned : { s with waiter, reader := pc }.Summoned →
      s.Summoned ∨ (waiter.slot = some .reader ∧ s.target ≠ none))
    (wakes : ∀ q, pc = .drain (.unpark (.wake q)) → ∃ t, s.writer = .swap t .swapped) :
    { s with waiter, target, delivered, reader := pc }.Meets := by
  have kept : s.target ≠ none → target ≠ none := by
    intro before
    rcases set with same | set
    · rw [same]
      exact before
    · exact set
  refine ⟨meets.unclosed, release, ?_, ?_, ?_, wakes⟩
  · intro looping
    rcases loops looping with set | before
    · exact .inl set
    · exact (meets.waits before).imp kept id
  · exact fun engaged => .inl (slot (formed.slot_of_holds running (meets.holds engaged)))
  · intro goes
    rcases summoned goes with before | ⟨stands, set⟩
    · exact ⟨slot (meets.summoned before).1, kept (meets.summoned before).2⟩
    · exact ⟨stands, kept set⟩

/-- A writer whose run state is left alone is as awake as before. -/
theorem summoned_of_state {pc : WindowReadPc} {waiter : Waiter Party}
    (same : waiter.cpu.state .writer = s.waiter.cpu.state .writer)
    (summoned : { s with waiter, reader := pc }.Summoned) : s.Summoned :=
  summoned.imp id fun parks => ⟨parks.1, same ▸ parks.2⟩

/-- Whether the loop after a hand-over leaves a writer alone that is parked for the next one. -/
def orderly (s : Window α) : ChannelLabel α → Bool
  | .run =>
    match s.waiter.cpu.running, s.reader, s.writer with
    | some .reader, .drain (.unpark (.cas _)), .park _ _ => false
    | _, _, _ => true
  | _ => true

/-- The writer that an orderly loop takes has completed its hand-over. -/
theorem Formed.completed (formed : s.Formed) (running : s.waiter.cpu.running = some .reader)
    {q : Party} (at_ : s.reader = .drain (.unpark (.cas q))) (orderly : s.orderly .run = true) :
    ∃ t, s.writer = .swap t .swapped := by
  have role : s.role .reader = some (.cas q) := by simp only [Window.role, at_]; rfl
  obtain rfl : q = .writer := formed.waiter.names .reader q (by rw [role]; rfl)
  obtain ⟨-, waiting, -⟩ := formed.waiter.aims .reader .writer (by rw [role]; rfl)
  have sleeps := (formed.waiter.asleep waiting).at_
  cases here : s.role .writer with
  | none => simp [here, Waiter.waits] at sleeps
  | some pc =>
    rw [here] at sleeps
    have inside := formed.writer
    obtain ⟨t, parks | swaps⟩ := formed.writer_at here (Waiter.member_of_stands (.inr sleeps))
    · simp [Window.orderly, running, at_, parks] at orderly
    · rw [swaps] at inside
      refine ⟨t, ?_⟩
      cases pc <;> simp [WindowWritePc.Formed, WaiterPc.member, Waiter.waits] at inside sleeps
      exact swaps

/-- Every orderly statement of the reader keeps what the tasks expect of each other. -/
theorem Meets.reads (meets : s.Meets) (formed : s.Formed) (opened : s.Opened)
    (running : s.waiter.cpu.running = some .reader) (orderly : s.orderly .run = true)
    (reads : Reads s s') : s'.Meets := by
  have inside := formed.reader
  have open_ := opened.closed
  -- Outside `park_if` and `swap` the reader is not in the slot.
  have away : ∀ {goal : Prop}, s.reader.role = none → s.waiter.slot = some .reader → goal := by
    intro goal out stands
    obtain ⟨pc, role, -⟩ := formed.waiter.stands stands
    rw [show s.role .reader = none from out] at role
    cases role
  have unparks : ∀ {pc : DrainPc Party} {goal : Prop}, s.reader = .drain pc →
      s.waiter.slot = some .reader → goal := by
    intro pc goal at_ stands
    obtain ⟨pc', role, parks, -⟩ := formed.waiter.stands stands
    rw [at_] at inside
    simp only [Window.role, at_] at role
    exact absurd (inside pc' role) parks
  have quiet : ∀ {pc : WindowReadPc} {goal : Prop}, { s with reader := pc }.Summoned →
      s.Summoned ∨ goal := fun summoned => .inl (summoned_of_state rfl summoned)
  cases reads with
  | assertEntry at_ null =>
    exact meets.reader_moves formed running (by rintro ⟨⟩) (by rintro ⟨⟨⟩, _⟩)
      (away (by rw [at_]; rfl)) (.inl rfl) quiet (by rintro _ ⟨⟩)
  | setReader at_ =>
    exact meets.reader_moves formed running (by rintro ⟨⟩) (fun _ => .inl (by rintro ⟨⟩))
      (away (by rw [at_]; rfl)) (.inr (by rintro ⟨⟩)) quiet (by rintro _ ⟨⟩)
  | closed at_ closed =>
    rw [open_] at closed
    cases closed
  | opened at_ open_ =>
    refine meets.reader_moves formed running (by rintro ⟨⟩) (fun _ => .inr ⟨by rw [at_]; rfl, ?_⟩)
      (away (by rw [at_]; rfl)) (.inl rfl) quiet (by rintro _ ⟨⟩)
    simp [Woken, at_, WindowReadPc.wakes]
  | @parks pc pc' waiter at_ ok =>
    rw [at_] at inside
    have role : s.role .reader = some pc := by simp only [Window.role, at_]; rfl
    refine meets.reader_moves formed running ?_ ?_ ?_ (.inl rfl) ?_ (by rintro _ ⟨⟩)
    · intro releases
      rw [show pc' = .release by simpa using releases] at ok
      rw [Waiter.goto_release ok] at open_
      cases open_
    · -- A woken reader that gives up the processor once more is still woken.
      rintro ⟨-, unwoken⟩
      refine .inr ⟨by rw [at_]; rfl, fun woken => unwoken ?_⟩
      have awake := woken.2
      have wakes := woken.1
      rw [at_] at wakes
      cases pc <;> simp [Waiter.step, WindowReadPc.wakes] at ok wakes
      obtain ⟨rfl, rfl⟩ := ok
      exact ⟨rfl, by cases state : s.waiter.cpu.state .reader <;> simp_all [Waiter.yield]⟩
    · intro stands
      exact (formed.waiter.stays running role stands (by
        rintro rfl
        exact meets.release at_) ok).1
    · intro summoned
      refine .inl (summoned_of_state ?_ summoned)
      rcases Waiter.step_state (q := .writer) (by decide) ok with same | rfl | rfl
      · exact same
      · cases inside
      · cases inside
  | @parked pc waiter at_ ok =>
    rw [at_] at inside
    have role : s.role .reader = some pc := by simp only [Window.role, at_]; rfl
    refine meets.reader_moves formed running (by rintro ⟨⟩) (by rintro ⟨⟨⟩, _⟩) ?_ (.inl rfl) ?_
      (by rintro _ ⟨⟩)
    · intro stands
      exact absurd rfl (formed.waiter.stays running role stands (by
        rintro rfl
        exact meets.release at_) ok).2
    · obtain ⟨rfl, rfl⟩ := Waiter.park_true inside ok
      exact quiet
  | @unparked pc waiter at_ ok =>
    rw [at_] at inside
    have role : s.role .reader = some pc := by simp only [Window.role, at_]; rfl
    refine meets.reader_moves formed running (by rintro ⟨⟩) ?_ ?_ (.inl rfl) ?_ (by rintro _ ⟨⟩)
    · refine fun _ => .inr ⟨by rw [at_]; rfl, fun woken => ?_⟩
      have wakes := woken.1
      rw [at_] at wakes
      cases pc <;> simp [Waiter.step, WindowReadPc.wakes] at ok wakes
    · intro stands
      exact absurd rfl (formed.waiter.stays running role stands (by
        rintro rfl
        exact meets.release at_) ok).2
    · intro summoned
      refine .inl (summoned_of_state ?_ summoned)
      rcases (Waiter.step_return ok).2 with ⟨member, -⟩ | same
      · rw [inside] at member
        cases member
      · rw [same]
  | assertServed at_ null =>
    exact meets.reader_moves formed running (by rintro ⟨⟩) (by rintro ⟨⟨⟩, _⟩)
      (away (by rw [at_]; rfl)) (.inl rfl) quiet (by rintro _ ⟨⟩)
  | @drains pc pc' waiter at_ ok =>
    rw [at_] at inside
    refine meets.reader_moves formed running (by rintro ⟨⟩) (by rintro ⟨⟨⟩, _⟩) ?_ (.inl rfl) ?_ ?_
    · exact unparks at_
    · intro summoned
      exact .inl (summoned_of_state ((Waiter.drain_state (by decide) inside ok).resolve_right
        fun woke => by cases woke.2) summoned)
    · intro q here
      obtain rfl : pc' = .unpark (.wake q) := by simpa using here
      obtain rfl : pc = .unpark (.cas q) := by
        rcases Waiter.drain_cases ok with ⟨-, -, goes⟩ | ⟨inner, outcome, rfl, done, goes⟩ |
          ⟨-, -, goes⟩
        · split at goes <;> cases goes
        · rcases outcome with pc'' | (_ | _)
          · obtain rfl : pc'' = .wake q := by simpa using goes.symm
            rw [Waiter.goto_wake done]
          · cases goes
          · cases goes
        · cases goes
      exact formed.completed running at_ orderly
  | @drained pc waiter at_ ok =>
    rw [at_] at inside
    refine meets.reader_moves formed running (by rintro ⟨⟩) (by rintro ⟨⟨⟩, _⟩) (unparks at_)
      (.inl rfl) ?_ (by rintro _ ⟨⟩)
    intro summoned
    rcases Waiter.drain_state (q := .writer) (by decide) inside ok with same | ⟨rfl, -⟩
    · exact .inl (summoned_of_state same summoned)
    · -- The writer that is woken has completed its hand-over.
      obtain ⟨t, completed⟩ := meets.wakes _ at_
      simp [Summoned, completed, WindowWritePc.resumes, WindowWritePc.parks] at summoned
  | @swaps pc pc' waiter at_ ok =>
    rw [at_] at inside
    have role : s.role .reader = some pc := by simp only [Window.role, at_]; rfl
    have loops : s.Loops := by
      refine ⟨by rw [at_]; rfl, fun woken => ?_⟩
      have wakes := woken.1
      rw [at_] at wakes
      cases pc <;> simp [Waiter.step, WindowReadPc.wakes] at ok wakes
    have slot : s.waiter.slot = some .reader → waiter.slot = some .reader := by
      intro stands
      exact (formed.waiter.stays running role stands (by rintro rfl; cases inside) ok).1
    refine meets.reader_moves formed running (by rintro ⟨⟩) (fun _ => .inr loops) slot (.inl rfl) ?_
      (by rintro _ ⟨⟩)
    intro summoned
    rcases Waiter.step_state (q := .writer) (by decide) ok with same | rfl | rfl
    · exact .inl (summoned_of_state same summoned)
    · cases inside
    · -- The switch resumes a writer that is parked, and `_reader` points to this call.
      have stands : s.waiter.slot = some .reader :=
        (formed.waiter.awake running (by simp [role])).slot.mpr (by simp [role, Waiter.claims])
      refine .inr ⟨slot stands, (meets.waits loops).resolve_right fun serves => ?_⟩
      rcases summoned with resumes | ⟨parks, -⟩
      · cases here : s.writer <;>
          simp_all [WindowWritePc.resumes, WindowWritePc.serves]
      · cases here : s.writer <;>
          simp_all [WindowWritePc.parks, WindowWritePc.serves]
  | @swapped pc waiter at_ ok =>
    rw [at_] at inside
    have role : s.role .reader = some pc := by simp only [Window.role, at_]; rfl
    refine meets.reader_moves formed running (by rintro ⟨⟩) (by rintro ⟨⟨⟩, _⟩) ?_ (.inl rfl) ?_
      (by rintro _ ⟨⟩)
    · intro stands
      exact absurd rfl (formed.waiter.stays running role stands (by rintro rfl; cases inside) ok).2
    · obtain ⟨rfl, rfl⟩ := Waiter.swap_true inside ok
      exact quiet
  | @unswapped pc waiter at_ ok =>
    rw [at_] at inside
    have role : s.role .reader = some pc := by simp only [Window.role, at_]; rfl
    refine meets.reader_moves formed running (by rintro ⟨⟩) ?_ ?_ (.inl rfl) ?_ (by rintro _ ⟨⟩)
    · refine fun _ => .inr ⟨by rw [at_]; rfl, fun woken => ?_⟩
      have wakes := woken.1
      rw [at_] at wakes
      cases pc <;> simp [Waiter.step, WindowReadPc.wakes] at ok wakes
    · intro stands
      exact absurd rfl (formed.waiter.stays running role stands (by rintro rfl; cases inside) ok).2
    · intro summoned
      refine .inl (summoned_of_state ?_ summoned)
      rcases (Waiter.step_return ok).2 with ⟨member, -⟩ | same
      · rw [inside] at member
        cases member
      · rw [same]
  | yield at_ =>
    refine meets.reader_moves formed running (by rintro ⟨⟩) ?_ (away (by rw [at_]; rfl))
      (.inl rfl) ?_ (by rintro _ ⟨⟩)
    · exact fun _ => .inr ⟨by rw [at_]; rfl, by simp [Woken, at_, WindowReadPc.wakes]⟩
    · exact fun summoned => .inl (summoned_of_state (by simp [Waiter.yield]) summoned)
  | ret at_ =>
    exact meets.reader_moves formed running (by rintro ⟨⟩) (by rintro ⟨⟨⟩, _⟩)
      (away (by rw [at_]; rfl)) (.inl rfl) quiet (by rintro _ ⟨⟩)
  | closes at_ closes => exact absurd at_ (opened.reader _)
  | closeReturns at_ closes => exact absurd at_ (opened.reader _)

/-- A reader that the writer has taken goes on once it is woken. -/
theorem Formed.wakes_of_taken (formed : s.Formed)
    (taken : Waiter.takes (s.role .writer) = some .reader) : s.reader.wakes = true := by
  have sleeps := (formed.waiter.taken (p := .writer) taken).1.at_
  have inside := formed.reader
  cases role : s.role Party.reader with
  | none => simp [Party.other, role, Waiter.waits] at sleeps
  | some pc =>
    rw [show Party.writer.other = .reader from rfl, role] at sleeps
    rcases formed.reader_at role (Waiter.member_of_stands (.inr sleeps)) with at_ | at_
    all_goals
      rw [at_] at inside ⊢
      cases pc <;> simp_all [WindowReadPc.Formed, WaiterPc.member, Waiter.waits, WindowReadPc.wakes]

/-- A statement of the writer keeps what each task expects of the other. -/
theorem Meets.writer_moves (meets : s.Meets) (formed : s.Formed)
    (running : s.waiter.cpu.running = some .writer) {pc : WindowWritePc α} {waiter : Waiter Party}
    {target : Option Nat} {ret : Option α} {origin : Nat} {accepted : List α}
    (unclosed : ∀ t, pc ≠ .clearClosed t)
    (waits : { s with waiter, writer := pc }.Loops → target ≠ none ∨ pc.serves = true)
    (holds : pc.engaged = true → { s with waiter, writer := pc }.Holds)
    (summoned : { s with waiter, writer := pc }.Summoned →
      waiter.slot = some .reader ∧ target ≠ none) :
    { s with waiter, target, ret, origin, accepted, writer := pc }.Meets := by
  refine ⟨unclosed, meets.release, waits, holds, summoned, ?_⟩
  -- The writer runs, so the reader is not about to wake it.
  intro q at_
  have role : s.role .reader = some (.wake q) := by simp only [Window.role]; rw [at_]; rfl
  obtain rfl : q = .writer := formed.waiter.names .reader q (by rw [role]; rfl)
  exact absurd running (formed.waiter.taken (p := .reader) (by rw [role]; rfl)).2.2

/-- Every statement of the writer keeps what the tasks expect of each other. -/
theorem Meets.writes (meets : s.Meets) (formed : s.Formed) (opened : s.Opened)
    (running : s.waiter.cpu.running = some .writer) (writes : Writes s s') : s'.Meets := by
  have inside := formed.writer
  -- A reader that still waits has its slot offered, while nothing is handed over.
  have offered : ∀ {pc : WindowWritePc α} {waiter : Waiter Party} {goal : Prop},
      s.writer.serves = false → waiter.cpu.state .reader = s.waiter.cpu.state .reader →
      { s with waiter, writer := pc }.Loops → s.target ≠ none ∨ goal := by
    intro pc waiter goal idle same loops
    have waits := meets.waits ⟨loops.1, fun woken => loops.2 ⟨woken.1, same ▸ woken.2⟩⟩
    refine .inl (waits.resolve_right ?_)
    simp [idle]
  -- At a statement outside the waiter's code, the reader is in the slot.
  have stands : s.writer.engaged = true → s.writer.role = none →
      s.waiter.slot = some .reader := by
    intro engaged out
    refine (meets.holds engaged).resolve_right ?_
    simp [out, Waiter.takes]
  have closed : ∀ {goal : Prop}, s.closed = true → goal := by
    intro goal closed
    rw [opened.closed] at closed
    cases closed
  cases writes with
  | refused at_ shut => exact closed shut
  | opened at_ open_ =>
    exact meets.writer_moves formed running (by rintro _ ⟨⟩) (offered (by rw [at_]; rfl) rfl)
      (by rintro ⟨⟩) (by simp [Summoned, WindowWritePc.resumes, WindowWritePc.parks])
  | @parks t pc pc' waiter at_ ok =>
    rw [at_] at inside
    have same : waiter.cpu.state .reader = s.waiter.cpu.state .reader := by
      rcases Waiter.step_state (q := .reader) (by decide) ok with same | rfl | rfl
      · exact same
      · cases inside
      · cases inside
    refine meets.writer_moves formed running (by rintro _ ⟨⟩) (offered (by rw [at_]; rfl) same)
      (by rintro ⟨⟩) ?_
    rintro (resumes | ⟨parks, awake⟩)
    · cases resumes
    · -- Only a writer that was woken before is awake where it waits.
      cases pc with
      | mark =>
        simp only [Waiter.step, Except.ok.injEq, Prod.mk.injEq, Outcome.goto.injEq] at ok
        obtain ⟨rfl, rfl⟩ := ok
        exact absurd (by simp [Waiter.setState]) awake
      | yield =>
        simp only [Waiter.step, Except.ok.injEq, Prod.mk.injEq, Outcome.goto.injEq] at ok
        obtain ⟨rfl, rfl⟩ := ok
        refine meets.summoned (.inr ⟨by rw [at_]; rfl, fun waiting => awake ?_⟩)
        simp [Waiter.yield, waiting]
      | claim =>
        simp only [Waiter.step] at ok
        split at ok
        all_goals
          simp only [Except.ok.injEq, Prod.mk.injEq, Outcome.goto.injEq, reduceCtorEq,
            false_and] at ok
        obtain ⟨rfl, rfl⟩ := ok
        cases parks
      | check =>
        simp only [Waiter.step, Except.ok.injEq, Prod.mk.injEq, Outcome.goto.injEq] at ok
        obtain ⟨rfl, rfl⟩ := ok
        split at parks
        all_goals cases parks
      | release | parked => simp [Waiter.step] at ok
      | load | state | cas | wake | swapLoad | swapState | swapCas | switch | swapped =>
        cases inside
  | @parked t pc waiter at_ ok =>
    rw [at_] at inside
    obtain ⟨rfl, rfl⟩ := Waiter.park_true inside ok
    have role : s.role .writer = some .parked := by simp only [Window.role, at_]; rfl
    have awake : s.waiter.cpu.state .writer ≠ .waiting := by
      intro waiting
      simpa [role] using (formed.waiter.asleep waiting).running running
    exact meets.writer_moves formed running (by rintro _ ⟨⟩) (offered (by rw [at_]; rfl) rfl)
      (by rintro ⟨⟩) fun _ => meets.summoned (.inr ⟨by rw [at_]; rfl, awake⟩)
  | @unparked t pc waiter at_ ok =>
    rw [at_] at inside
    have same : waiter.cpu = s.waiter.cpu := by
      rcases (Waiter.step_return ok).2 with ⟨member, -⟩ | same
      · rw [inside] at member
        cases member
      · exact same
    exact meets.writer_moves formed running (by rintro _ ⟨⟩)
      (offered (by rw [at_]; rfl) (by rw [same]))
      (by rintro ⟨⟩) (by simp [Summoned, WindowWritePc.resumes, WindowWritePc.parks])
  | closedSince at_ shut => exact closed shut
  | stillOpen at_ open_ =>
    exact meets.writer_moves formed running (by rintro _ ⟨⟩) (offered (by rw [at_]; rfl) rfl)
      (by rintro ⟨⟩) fun _ => meets.summoned (.inl (by rw [at_]; rfl))
  | clearClosed at_ => exact absurd at_ (meets.unclosed _)
  | assertReader at_ set =>
    obtain ⟨found, -⟩ := meets.summoned (.inl (by rw [at_]; rfl))
    exact meets.writer_moves formed running (by rintro _ ⟨⟩) (offered (by rw [at_]; rfl) rfl)
      (fun _ => .inl found) (by simp [Summoned, WindowWritePc.resumes, WindowWritePc.parks])
  | emplace at_ target calling =>
    exact meets.writer_moves formed running (by rintro _ ⟨⟩) (offered (by rw [at_]; rfl) rfl)
      (fun _ => .inl (stands (by rw [at_]; rfl) (by rw [at_]; rfl)))
      (by simp [Summoned, WindowWritePc.resumes, WindowWritePc.parks])
  | clearParked at_ =>
    exact meets.writer_moves formed running (by rintro _ ⟨⟩) (fun _ => .inr rfl)
      (fun _ => .inl (stands (by rw [at_]; rfl) (by rw [at_]; rfl)))
      (by simp [Summoned, WindowWritePc.resumes, WindowWritePc.parks])
  | clear at_ =>
    exact meets.writer_moves formed running (by rintro _ ⟨⟩) (fun _ => .inr rfl)
      (fun _ => .inl (stands (by rw [at_]; rfl) (by rw [at_]; rfl)))
      (by simp [Summoned, WindowWritePc.resumes, WindowWritePc.parks])
  | @swaps t pc pc' waiter at_ ok =>
    rw [at_] at inside
    have member : pc.member = .swap := inside
    have role : s.role .writer = some pc := by simp only [Window.role, at_]; rfl
    have going : pc ≠ .swapped := by
      rintro rfl
      simp [Waiter.step] at ok
    have holds := meets.holds (by
      rw [at_]
      simpa [WindowWritePc.engaged, WindowWritePc.serves] using going)
    simp only [Holds, at_] at holds
    by_cases switches : pc = .switch .reader
    · -- The reader goes on, so it is no longer in the loop.
      subst switches
      have wakes := formed.wakes_of_taken (by rw [role]; rfl)
      simp only [Waiter.step, reduceCtorEq, if_false, Except.ok.injEq, Prod.mk.injEq,
        Outcome.goto.injEq] at ok
      obtain ⟨rfl, rfl⟩ := ok
      refine meets.writer_moves formed running (by rintro _ ⟨⟩) ?_ (by rintro ⟨⟩)
        (by simp [Summoned, WindowWritePc.resumes, WindowWritePc.parks])
      exact fun loops => absurd ⟨wakes, by simp⟩ loops.2
    · have held : { s with waiter, writer := .swap t pc' }.Holds := by
        rcases formed.waiter.holds role (by simp [member]) holds ok with found | taken | rfl |
          same | same
        · exact .inl found
        · exact .inr taken
        · cases inside
        · exact absurd same switches
        · exact absurd same going
      have serves : (WindowWritePc.swap t pc').serves = true := by
        simp only [WindowWritePc.serves, ne_eq, decide_not, Bool.not_eq_true',
          decide_eq_false_iff_not]
        rintro rfl
        obtain ⟨q, rfl⟩ := Waiter.goto_swapped ok
        exact switches (by rw [formed.waiter.names .writer q (by rw [role]; rfl)]; rfl)
      exact meets.writer_moves formed running (by rintro _ ⟨⟩) (fun _ => .inr serves)
        (fun _ => held) (by simp [Summoned, WindowWritePc.resumes, WindowWritePc.parks])
  | @swapped t pc waiter at_ ok =>
    rw [at_] at inside
    obtain ⟨rfl, rfl⟩ := Waiter.swap_true inside ok
    exact meets.writer_moves formed running (by rintro _ ⟨⟩) (offered (by rw [at_]; rfl) rfl)
      (by rintro ⟨⟩) (by simp [Summoned, WindowWritePc.resumes, WindowWritePc.parks])
  | @unswapped t pc waiter at_ ok =>
    rw [at_] at inside
    have member : pc.member = .swap := inside
    have role : s.role .writer = some pc := by simp only [Window.role, at_]; rfl
    have going : pc ≠ .swapped := by
      rintro rfl
      simp [Waiter.step] at ok
    have holds := meets.holds (by
      rw [at_]
      simpa [WindowWritePc.engaged, WindowWritePc.serves] using going)
    simp only [Holds, at_] at holds
    refine meets.writer_moves formed running (by rintro _ ⟨⟩) (fun _ => .inr rfl) (fun _ => .inl ?_)
      (by simp [Summoned, WindowWritePc.resumes, WindowWritePc.parks])
    rcases formed.waiter.holds role (by simp [member]) holds ok with found | taken | rfl | rfl |
      same
    · exact found
    · cases taken
    · cases inside
    · simp [Waiter.step, Party.other] at ok
    · exact absurd same going
  | swapAgain at_ =>
    exact meets.writer_moves formed running (by rintro _ ⟨⟩) (fun _ => .inr rfl)
      (fun _ => .inl (stands (by rw [at_]; rfl) (by rw [at_]; rfl)))
      (by simp [Summoned, WindowWritePc.resumes, WindowWritePc.parks])
  | nobody at_ empty =>
    exact meets.writer_moves formed running (by rintro _ ⟨⟩) (offered (by rw [at_]; rfl) rfl)
      (by rintro ⟨⟩) (by simp [Summoned, WindowWritePc.resumes, WindowWritePc.parks])
  | somebody at_ stands =>
    have found := formed.found running (by rw [at_]; rfl) stands
    exact meets.writer_moves formed running (by rintro _ ⟨⟩) (offered (by rw [at_]; rfl) rfl)
      (fun _ => .inl found) (by simp [Summoned, WindowWritePc.resumes, WindowWritePc.parks])
  | noReader at_ null =>
    exact meets.writer_moves formed running (by rintro _ ⟨⟩) (offered (by rw [at_]; rfl) rfl)
      (by rintro ⟨⟩) (by simp [Summoned, WindowWritePc.resumes, WindowWritePc.parks])
  | reader at_ set =>
    exact meets.writer_moves formed running (by rintro _ ⟨⟩) (offered (by rw [at_]; rfl) rfl)
      (fun _ => .inl (stands (by rw [at_]; rfl) (by rw [at_]; rfl)))
      (by simp [Summoned, WindowWritePc.resumes, WindowWritePc.parks])
  | @drains t pc pc' waiter at_ ok =>
    rw [at_] at inside
    have role : s.role .writer = pc.inside := by simp only [Window.role, at_]; rfl
    have holds := meets.holds (by rw [at_]; rfl)
    simp only [Holds, at_] at holds
    refine meets.writer_moves formed running (by rintro _ ⟨⟩) (fun _ => .inr rfl) (fun _ => ?_)
      (by simp [Summoned, WindowWritePc.resumes, WindowWritePc.parks])
    rcases formed.waiter.drain_holds role inside holds ok with ⟨held, -⟩ | rfl
    · exact held
    · exact absurd (Waiter.drain_wakes ok).1 (by simp)
  | @drained t pc waiter at_ ok =>
    rw [at_] at inside
    have role : s.role .writer = pc.inside := by simp only [Window.role, at_]; rfl
    have holds := meets.holds (by rw [at_]; rfl)
    simp only [Holds, at_] at holds
    refine meets.writer_moves formed running (by rintro _ ⟨⟩) ?_ (by rintro ⟨⟩)
      (by simp [Summoned, WindowWritePc.resumes, WindowWritePc.parks])
    rcases formed.waiter.drain_holds role inside holds ok with ⟨-, goes⟩ | rfl
    · exact absurd rfl goes
    · have wakes := formed.wakes_of_taken (by rw [role]; rfl)
      have awake := (Waiter.drain_wakes ok).2
      exact fun loops => absurd ⟨wakes, by rw [show waiter.cpu.state .reader = _ from awake]; simp⟩
        loops.2
  | yield at_ =>
    exact meets.writer_moves formed running (by rintro _ ⟨⟩)
      (offered (by rw [at_]; rfl) (by simp [Waiter.yield])) (by rintro ⟨⟩)
      (by simp [Summoned, WindowWritePc.resumes, WindowWritePc.parks])
  | ret at_ =>
    exact meets.writer_moves formed running (by rintro _ ⟨⟩) (offered (by rw [at_]; rfl) rfl)
      (by rintro ⟨⟩) (by simp [Summoned, WindowWritePc.resumes, WindowWritePc.parks])
  | closes at_ closes => exact absurd at_ (opened.writer _)
  | closeReturns at_ closes => exact absurd at_ (opened.writer _)

/-- A scheduling decision keeps what the tasks expect of each other. -/
theorem Meets.sched (meets : s.Meets) {waiter : Waiter Party} (slot : waiter.slot = s.waiter.slot)
    (same : ∀ p, waiter.cpu.state p = .waiting ↔ s.waiter.cpu.state p = .waiting) :
    { s with waiter }.Meets := by
  have loops : { s with waiter }.Loops ↔ s.Loops :=
    and_congr_right fun _ => not_congr (and_congr_right fun _ => not_congr (same .reader))
  have summoned : { s with waiter }.Summoned ↔ s.Summoned :=
    or_congr_right (and_congr_right fun _ => not_congr (same .writer))
  refine { meets with waits := ?_, holds := ?_, summoned := ?_ }
  · rw [loops]
    exact meets.waits
  · intro engaged
    exact (meets.holds engaged).imp (fun stands => slot.trans stands) id
  · rw [summoned, slot]
    exact meets.summoned

/-- Every orderly step on an open window keeps what the tasks expect of each other. -/
theorem Meets.step (meets : s.Meets) (formed : s.Formed) (opened : s.Opened)
    (open_ : l.opens = true)
    (orderly : s.orderly l = true) (steps : Steps s l s') : s'.Meets := by
  cases steps with
  | reads running reads => exact meets.reads formed opened running orderly reads
  | writes running writes => exact meets.writes formed opened running writes
  | @preempt p running =>
    refine meets.sched rfl fun q => ?_
    by_cases own : q = p
    · subst own
      cases state : s.waiter.cpu.state q <;> simp [Waiter.yield, state]
    · simp [Waiter.yield, own]
  | @dispatch p idle queued =>
    refine meets.sched rfl fun q => ?_
    by_cases own : q = p
    · subst own
      have awake : s.waiter.cpu.state q ≠ .waiting := by
        intro waiting
        rw [(formed.waiter.asleep waiting).queued] at queued
        cases queued
      simpa using awake
    · simp [own]
  | read running at_ =>
    exact ⟨meets.unclosed, (by rintro ⟨⟩), (by rintro ⟨⟨⟩, _⟩), meets.holds,
      meets.summoned, (by rintro _ ⟨⟩)⟩
  | write running at_ =>
    refine ⟨(by rintro _ ⟨⟩), meets.release, ?_, (by rintro ⟨⟩), ?_, ?_⟩
    · intro loops
      exact .inl ((meets.waits loops).resolve_right (by rw [at_]; exact Bool.false_ne_true))
    · simp [Summoned, WindowWritePc.resumes, WindowWritePc.parks]
    · intro q here
      obtain ⟨t, swaps⟩ := meets.wakes q here
      rw [at_] at swaps
      cases swaps
  | readerCloses running at_ => cases open_
  | writerCloses running at_ => cases open_

/-- In a new window nobody expects anything. -/
theorem meets_start : (start : Window α).Meets := by
  refine ⟨nofun, nofun, nofun, nofun, ?_, nofun⟩
  simp [start, Summoned, WindowWritePc.resumes, WindowWritePc.parks]

/-- The assertions of `read` and `write` hold, and `write` dereferences no null pointer. -/
structure Asserts (s : Window α) : Prop where
  entry : s.reader = .assertEntry → s.target = none
  served : s.reader = .assertServed → s.target = none
  reader : ∀ t, s.writer = .assertReader t → s.target ≠ none
  emplaces : ∀ parked t, s.writer = .emplace parked t → s.target ≠ none

/-- In every orderly run of an open window its assertions hold. -/
theorem asserts_of_orderly
    (reached : Run.Reaches step (fun s l => l.opens = true ∧ s.orderly l = true)
      (start : Window α) s) : s.Asserts := by
  obtain ⟨-, opened, paired, meets⟩ : s.Formed ∧ s.Opened ∧ s.Paired ∧ s.Meets := by
    refine reached.invariant (P := fun s => s.Formed ∧ s.Opened ∧ s.Paired ∧ s.Meets)
      ⟨formed_start, opened_start, paired_start, meets_start⟩ ?_
    rintro s l s' ⟨formed, opened, paired, meets⟩ ⟨open_, orderly⟩ ok
    have steps := steps_of_ok ok
    exact ⟨formed.step steps, opened.step open_ steps, paired.step formed opened.current steps,
      meets.step formed opened open_ orderly steps⟩
  -- On an open window `_reader` is set only while the reader is in its loop.
  have null : s.reader.loops = false → s.target = none := by
    intro out
    by_contra set
    obtain ⟨call, set⟩ := Option.ne_none_iff_exists'.mp set
    rw [(paired.points call set opened.closed).2.1.1] at out
    cases out
  constructor
  · exact fun at_ => null (by rw [at_]; rfl)
  · exact fun at_ => null (by rw [at_]; rfl)
  · exact fun t at_ => (meets.summoned (.inl (by rw [at_]; rfl))).2
  · exact paired.emplaces

/-- A write that parks, and a read that switches to it. -/
def switchOver : List (ChannelLabel Nat) :=
  List.flatten [[.dispatch .writer, .write 7], List.replicate 5 .run, [.dispatch .reader, .read],
    List.replicate 10 .run]

/-- The writer parks first, and the reader that switches to it finds its slot filled. -/
theorem asserts_of_orderly_swap : ∃ s, Run.Reaches step
    (fun s l => l.opens = true ∧ s.orderly l = true) (start : Window Nat) s ∧
      s.writer = .assertReader 7 ∧ s.target = some 1 ∧ s.Asserts := by
  suffices run : ∃ s, Run.Reaches step (fun s l => l.opens = true ∧ s.orderly l = true)
      (start : Window Nat) s ∧ s.writer = .assertReader 7 ∧ s.target = some 1 by
    obtain ⟨s, reached, at_, set⟩ := run
    exact ⟨s, reached, at_, set, asserts_of_orderly reached⟩
  exact Run.Reaches.of_check switchOver (by decide +kernel)

/-- The reader's loop wakes the writer of the next value, whose assertion then fails. -/
theorem wrong_wake_fails :
    ∃ s, Run.Reaches step (fun _ l => l.opens = true) (start : Window Nat) s ∧
    s.step .run = .error (.assertion "_reader != nullptr") ∧ ¬ s.Asserts := by
  suffices run : ∃ s, Run.Reaches step (fun _ l => l.opens = true) (start : Window Nat) s ∧
      s.waiter.cpu.running = some .writer ∧ s.writer = .assertReader 8 ∧ s.target = none by
    obtain ⟨s, reached, running, at_, null⟩ := run
    refine ⟨s, reached, ?_, fun asserts => asserts.reader 8 at_ null⟩
    simp [step, running, runWriter, at_, null]
  exact Run.Reaches.of_check wrongWake (by decide +kernel)

end Window

end Gthread

import Gthread.Concur.ChannelWindowPairs

/-! The write that has delivered a value is released, unless the read has switched to it. -/

namespace Gthread

open Function (update update_of_ne update_self)

variable {α : Type}

/-- On the branch of `read` that unparks the writer before it returns. -/
def WindowReadPc.releases : WindowReadPc → Bool
  | .park .yield | .park .parked | .assertServed | .drain _ => true
  | _ => false

/-- In the critical section of `swap`, or past it. -/
def WindowReadPc.switches : WindowReadPc → Bool
  | .swap (.switch _) | .swap .swapped => true
  | _ => false

namespace Window

variable {s s' : Window α} {l : ChannelLabel α}

/-- Who waits for whom once a value is handed over. -/
structure Releases (s : Window α) : Prop where
  unswitched : s.reader.switches = false
  -- A writer that waits after its hand-over waits for a reader that will unpark it.
  served : ∀ t, s.writer = .swap t .swapped → s.waiter.cpu.state .writer = .waiting →
    s.reader.releases = true
  released : s.reader = .ret → s.origin = s.writes → s.waiter.cpu.state .writer ≠ .waiting

/-- Whether `swap` in `read` leaves a parked writer alone. -/
def spares (s : Window α) : ChannelLabel α → Bool
  | .run =>
    match s.waiter.cpu.running, s.reader, s.writer with
    | some .reader, .swap (.swapCas _), .park _ _ => false
    | _, _, _ => true
  | _ => true

/-- A writer that waits is parked, or waits after a hand-over. -/
theorem Formed.writer_waits (formed : s.Formed) (waiting : s.waiter.cpu.state .writer = .waiting) :
    ∃ t, (∃ pc, s.writer = .park t pc) ∨ s.writer = .swap t .swapped := by
  have sleeps := (formed.waiter.asleep waiting).at_
  have inside := formed.writer
  cases role : s.role .writer with
  | none => simp [role, Waiter.waits] at sleeps
  | some pc =>
    rw [role] at sleeps
    obtain ⟨t, parks | swaps⟩ := formed.writer_at role (Waiter.member_of_stands (.inr sleeps))
    · exact ⟨t, .inl ⟨pc, parks⟩⟩
    · rw [swaps] at inside
      refine ⟨t, .inr ?_⟩
      cases pc <;> simp [WindowWritePc.Formed, WaiterPc.member, Waiter.waits] at inside sleeps
      exact swaps

/-- A statement of the reader that stays on its branch leaves the writer to it. -/
theorem Releases.reader_moves (releases : s.Releases) {pc : WindowReadPc} {waiter : Waiter Party}
    {target : Option Nat} {delivered : List α} (unswitched : pc.switches = false)
    (state : waiter.cpu.state .writer = .waiting → s.waiter.cpu.state .writer = .waiting)
    (stays : s.reader.releases = true → pc.releases = true ∨ waiter.cpu.state .writer ≠ .waiting)
    (returns : pc = .ret → waiter.cpu.state .writer ≠ .waiting) :
    { s with waiter, target, delivered, reader := pc }.Releases := by
  refine ⟨unswitched, ?_, fun at_ _ => returns at_⟩
  intro t swapped waiting
  have before := releases.served t swapped (state waiting)
  exact (stays before).resolve_right fun awake => awake waiting

/-- Every statement of the reader that spares a parked writer releases the other one. -/
theorem Releases.reads (releases : s.Releases) (formed : s.Formed) (opened : s.Opened)
    (running : s.waiter.cpu.running = some .reader) (spares : s.spares .run = true)
    (reads : Reads s s') : s'.Releases := by
  have inside := formed.reader
  have unswitched := releases.unswitched
  -- Away from the branch that unparks the writer, none waits after a hand-over.
  have away : ∀ {goal : Prop}, s.reader.releases = false → s.reader.releases = true → goal := by
    intro goal out on
    rw [out] at on
    cases on
  have after := (formed.step (.reads running reads)).waiter
  cases reads with
  | assertEntry at_ null =>
    exact releases.reader_moves rfl id (away (by rw [at_]; rfl)) (by rintro ⟨⟩)
  | setReader at_ => exact releases.reader_moves rfl id (away (by rw [at_]; rfl)) (by rintro ⟨⟩)
  | closed at_ closed =>
    rw [opened.closed] at closed
    cases closed
  | opened at_ open_ => exact releases.reader_moves rfl id (away (by rw [at_]; rfl)) (by rintro ⟨⟩)
  | @parks pc pc' waiter at_ ok =>
    rw [at_] at inside
    refine releases.reader_moves rfl ?_ ?_ (by rintro ⟨⟩)
    · intro waiting
      rcases Waiter.step_state (q := .writer) (by decide) ok with same | rfl | rfl
      · exact same ▸ waiting
      · cases inside
      · cases inside
    · intro on
      rw [at_] at on
      refine .inl ?_
      cases pc <;> simp [WindowReadPc.releases, Waiter.step] at on ok
      rw [← ok.1]
      rfl
  | parked at_ ok =>
    rw [at_] at inside
    obtain ⟨rfl, rfl⟩ := Waiter.park_true inside ok
    exact releases.reader_moves rfl id (fun _ => .inl rfl) (by rintro ⟨⟩)
  | @unparked pc waiter at_ ok =>
    rw [at_] at inside
    refine releases.reader_moves rfl ?_ ?_ (by rintro ⟨⟩)
    · intro waiting
      rcases (Waiter.step_return ok).2 with ⟨member, -⟩ | same
      · rw [inside] at member
        cases member
      · exact same ▸ waiting
    · intro on
      rw [at_] at on
      cases pc <;> simp [WindowReadPc.releases, Waiter.step] at on ok
  | assertServed at_ null => exact releases.reader_moves rfl id (fun _ => .inl rfl) (by rintro ⟨⟩)
  | @drains pc pc' waiter at_ ok =>
    rw [at_] at inside
    have same : waiter.cpu.state .writer = s.waiter.cpu.state .writer :=
      (Waiter.drain_state (by decide) inside ok).resolve_right fun woke => by cases woke.2
    exact releases.reader_moves rfl (fun waiting => same ▸ waiting) (fun _ => .inl rfl)
      (by rintro ⟨⟩)
  | @drained pc waiter at_ ok =>
    rw [at_] at inside
    -- The loop has ended, so the writer neither stands in the slot nor waits.
    have awake : waiter.cpu.state .writer ≠ .waiting := by
      intro waiting
      have role : s.role .reader = pc.inside := by simp only [Window.role, at_]; rfl
      have gone := formed.waiter.drained role inside ok
      rcases (after.asleep waiting).slot with ⟨stands, -⟩ | ⟨-, taken, -⟩
      · exact gone stands
      · simp [Party.other, Window.role, WindowReadPc.role, Waiter.takes] at taken
    exact releases.reader_moves rfl (fun waiting => absurd waiting awake) (fun _ => .inr awake)
      fun _ => awake
  | @swaps pc pc' waiter at_ ok =>
    rw [at_] at inside unswitched
    have kept : (WindowReadPc.swap pc').switches = false := by
      cases pc' with
      | switch q =>
        obtain rfl := Waiter.goto_switch ok
        have role : s.role .reader = some (.swapCas q) := by simp only [Window.role, at_]; rfl
        obtain rfl : q = .writer := formed.waiter.names .reader q (by rw [role]; rfl)
        obtain ⟨-, waiting, -⟩ := formed.waiter.aims .reader .writer (by rw [role]; rfl)
        -- The writer that would be taken is spared, or is none that waits for this read.
        obtain ⟨t, ⟨pc, parks⟩ | swaps⟩ := formed.writer_waits waiting
        · simp [Window.spares, running, at_, parks] at spares
        · exact away (by rw [at_]; rfl) (releases.served t swaps waiting)
      | swapped =>
        obtain ⟨q, rfl⟩ := Waiter.goto_swapped ok
        cases unswitched
      | _ => rfl
    refine releases.reader_moves kept (fun waiting => ?_) (away (by rw [at_]; rfl)) (by rintro ⟨⟩)
    rcases Waiter.step_state (q := .writer) (by decide) ok with same | rfl | rfl
    · exact same ▸ waiting
    · cases inside
    · cases unswitched
  | swapped at_ ok =>
    rw [at_] at inside unswitched
    obtain ⟨rfl, rfl⟩ := Waiter.swap_true inside ok
    cases unswitched
  | @unswapped pc waiter at_ ok =>
    rw [at_] at inside
    refine releases.reader_moves rfl (fun waiting => ?_) (away (by rw [at_]; rfl)) (by rintro ⟨⟩)
    rcases (Waiter.step_return ok).2 with ⟨member, -⟩ | same
    · rw [inside] at member
      cases member
    · exact same ▸ waiting
  | yield at_ =>
    refine releases.reader_moves rfl (fun waiting => ?_) (away (by rw [at_]; rfl)) (by rintro ⟨⟩)
    simpa [Waiter.yield] using waiting
  | ret at_ => exact releases.reader_moves rfl id (away (by rw [at_]; rfl)) (by rintro ⟨⟩)
  | closes at_ closes => exact absurd at_ (opened.reader _)
  | closeReturns at_ closes => exact absurd at_ (opened.reader _)

/-- A reader that the writer has taken from `park_if` unparks the writer before it returns. -/
theorem Releases.releases_of_taken (releases : s.Releases) (formed : s.Formed)
    (taken : Waiter.takes (s.role .writer) = some .reader) : s.reader.releases = true := by
  have sleeps := (formed.waiter.taken (p := .writer) taken).1.at_
  have inside := formed.reader
  have unswitched := releases.unswitched
  cases role : s.role Party.reader with
  | none => simp [Party.other, role, Waiter.waits] at sleeps
  | some pc =>
    rw [show Party.writer.other = .reader from rfl, role] at sleeps
    rcases formed.reader_at role (Waiter.member_of_stands (.inr sleeps)) with at_ | at_
    all_goals
      rw [at_] at inside unswitched ⊢
      cases pc <;> simp_all [WindowReadPc.Formed, WaiterPc.member, Waiter.waits,
        WindowReadPc.releases, WindowReadPc.switches]

/-- A statement of the writer after which it does not wait keeps it released. -/
theorem Releases.writer_moves (releases : s.Releases) {pc : WindowWritePc α} {waiter : Waiter Party}
    {target : Option Nat} {ret : Option α} {origin : Nat} {accepted : List α}
    (awake : waiter.cpu.state .writer ≠ .waiting) :
    { s with waiter, target, ret, origin, accepted, writer := pc }.Releases :=
  ⟨releases.unswitched, fun _ _ waiting => absurd waiting awake, fun _ _ => awake⟩

/-- Every statement of the writer keeps it released. -/
theorem Releases.writes (releases : s.Releases) (formed : s.Formed) (opened : s.Opened)
    (paired : s.Paired) (running : s.waiter.cpu.running = some .writer) (writes : Writes s s') :
    s'.Releases := by
  have inside := formed.writer
  -- A running writer waits only where it is about to yield in `park_if`.
  have awake : s.writer.role ≠ some .yield → s.waiter.cpu.state .writer ≠ .waiting := by
    intro going waiting
    exact going ((formed.waiter.asleep waiting).running running)
  have yields : s.writer.role ≠ some .yield →
      (s.waiter.yield .writer).cpu.state .writer ≠ .waiting := by
    intro going
    cases state : s.waiter.cpu.state .writer <;> simp_all [Waiter.yield]
  cases writes with
  | refused at_ closed => exact releases.writer_moves (awake (by rw [at_]; rintro ⟨⟩))
  | opened at_ open_ => exact releases.writer_moves (awake (by rw [at_]; rintro ⟨⟩))
  | parks at_ ok =>
    -- A write that parks has delivered nothing yet.
    refine ⟨releases.unswitched, (by rintro _ ⟨⟩), fun _ last => ?_⟩
    have earlier := paired.origin.2 (by rw [at_]; rfl)
    exact absurd last earlier.ne
  | parked at_ ok =>
    rw [at_] at inside
    obtain ⟨rfl, rfl⟩ := Waiter.park_true inside ok
    exact releases.writer_moves (awake (by rw [at_]; rintro ⟨⟩))
  | @unparked t pc waiter at_ ok =>
    rw [at_] at inside
    have same : waiter.cpu = s.waiter.cpu := by
      rcases (Waiter.step_return ok).2 with ⟨member, -⟩ | same
      · rw [inside] at member
        cases member
      · exact same
    refine releases.writer_moves (same ▸ awake ?_)
    rw [at_]
    intro yields
    obtain rfl : pc = .yield := by simpa [WindowWritePc.role] using yields
    simp [Waiter.step] at ok
  | closedSince at_ closed => exact releases.writer_moves (awake (by rw [at_]; rintro ⟨⟩))
  | stillOpen at_ open_ => exact releases.writer_moves (awake (by rw [at_]; rintro ⟨⟩))
  | clearClosed at_ => exact releases.writer_moves (awake (by rw [at_]; rintro ⟨⟩))
  | assertReader at_ set => exact releases.writer_moves (awake (by rw [at_]; rintro ⟨⟩))
  | emplace at_ target calling => exact releases.writer_moves (awake (by rw [at_]; rintro ⟨⟩))
  | clearParked at_ => exact releases.writer_moves (awake (by rw [at_]; rintro ⟨⟩))
  | clear at_ => exact releases.writer_moves (awake (by rw [at_]; rintro ⟨⟩))
  | @swaps t pc pc' waiter at_ ok =>
    rw [at_] at inside
    have role : s.role .writer = some pc := by simp only [Window.role, at_]; rfl
    have going : s.writer.role ≠ some .yield := by
      rw [show s.writer.role = some pc from role]
      rintro ⟨rfl⟩
      cases inside
    rcases Waiter.step_awake (awake going) ok with still | rfl | ⟨q, rfl⟩
    · exact releases.writer_moves still
    · cases inside
    · -- The reader that the writer switches to has parked, so it will unpark the writer.
      obtain rfl : q = .reader := formed.waiter.names .writer q (by rw [role]; rfl)
      have on := releases.releases_of_taken formed (by rw [role]; rfl)
      refine ⟨releases.unswitched, fun _ _ _ => on, fun at_ _ => ?_⟩
      rw [show s.reader = .ret from at_] at on
      cases on
  | swapped at_ ok =>
    rw [at_] at inside
    obtain ⟨rfl, rfl⟩ := Waiter.swap_true inside ok
    exact releases.writer_moves (awake (by rw [at_]; rintro ⟨⟩))
  | @unswapped t pc waiter at_ ok =>
    rw [at_] at inside
    have same : waiter.cpu = s.waiter.cpu := by
      rcases (Waiter.step_return ok).2 with ⟨member, -⟩ | same
      · rw [inside] at member
        cases member
      · exact same
    refine releases.writer_moves (same ▸ awake ?_)
    rw [at_]
    rintro ⟨rfl⟩
    cases inside
  | swapAgain at_ => exact releases.writer_moves (yields (by rw [at_]; rintro ⟨⟩))
  | nobody at_ empty => exact releases.writer_moves (awake (by rw [at_]; rintro ⟨⟩))
  | somebody at_ stands => exact releases.writer_moves (awake (by rw [at_]; rintro ⟨⟩))
  | noReader at_ null => exact releases.writer_moves (awake (by rw [at_]; rintro ⟨⟩))
  | reader at_ set => exact releases.writer_moves (awake (by rw [at_]; rintro ⟨⟩))
  | @drains t pc pc' waiter at_ ok =>
    rw [at_] at inside
    refine releases.writer_moves (Waiter.drain_awake inside (awake ?_) ok)
    rw [at_]
    intro yields
    cases inside _ yields
  | @drained t pc waiter at_ ok =>
    rw [at_] at inside
    refine releases.writer_moves (Waiter.drain_awake inside (awake ?_) ok)
    rw [at_]
    intro yields
    cases inside _ yields
  | yield at_ => exact releases.writer_moves (yields (by rw [at_]; rintro ⟨⟩))
  | ret at_ => exact releases.writer_moves (awake (by rw [at_]; rintro ⟨⟩))
  | closes at_ closes => exact absurd at_ (opened.writer _)
  | closeReturns at_ closes => exact absurd at_ (opened.writer _)

/-- Every step that spares a parked writer keeps the other one released. -/
theorem Releases.step (releases : s.Releases) (formed : s.Formed) (opened : s.Opened)
    (paired : s.Paired) (open_ : l.opens = true) (spares : s.spares l = true)
    (steps : Steps s l s') : s'.Releases := by
  -- Who waits is not changed by a scheduling decision.
  have sched : ∀ {waiter : Waiter Party},
      (waiter.cpu.state .writer = .waiting → s.waiter.cpu.state .writer = .waiting) →
      { s with waiter }.Releases := fun same =>
    ⟨releases.unswitched, fun t at_ waiting => releases.served t at_ (same waiting),
      fun at_ last waiting => releases.released at_ last (same waiting)⟩
  cases steps with
  | reads running reads => exact releases.reads formed opened running spares reads
  | writes running writes => exact releases.writes formed opened paired running writes
  | @preempt p running =>
    refine sched fun waiting => ?_
    cases p <;> cases state : s.waiter.cpu.state .writer <;> simp_all [Waiter.yield]
  | @dispatch p idle queued =>
    refine sched fun waiting => ?_
    cases p <;> simp_all
  | read running at_ =>
    refine ⟨rfl, fun t swapped waiting => ?_, (by rintro ⟨⟩)⟩
    have on := releases.served t swapped waiting
    rw [at_] at on
    cases on
  | write running at_ =>
    exact ⟨releases.unswitched, (by rintro _ ⟨⟩),
      fun _ last => absurd last (Nat.lt_succ_of_le paired.origin.1).ne⟩
  | readerCloses running at_ => cases open_
  | writerCloses running at_ => cases open_

/-- The write that delivered the value of a returning read has returned, or its task is runnable. -/
def Released (s : Window α) : Prop :=
  ∀ v, s.reader = .ret → s.ret = some v →
    s.origin < s.writes ∨ s.writer = .idle ∨ s.waiter.cpu.running = some .writer ∨
      s.waiter.cpu.queued .writer = true

/-- While no read takes a parked writer of an open window, delivered writes are released. -/
theorem released_of_spares
    (reached : Run.Reaches step (fun s l => l.opens = true ∧ s.spares l = true)
      (start : Window α) s) : s.Released := by
  obtain ⟨formed, -, paired, releases⟩ : s.Formed ∧ s.Opened ∧ s.Paired ∧ s.Releases := by
    refine reached.invariant (P := fun s => s.Formed ∧ s.Opened ∧ s.Paired ∧ s.Releases)
      ⟨formed_start, opened_start, paired_start, rfl, nofun, nofun⟩ ?_
    rintro s l s' ⟨formed, opened, paired, releases⟩ ⟨open_, spares⟩ ok
    have steps := steps_of_ok ok
    exact ⟨formed.step steps, opened.step open_ steps, paired.step formed opened.current steps,
      releases.step formed opened paired open_ spares steps⟩
  intro v at_ _
  rcases Nat.lt_or_eq_of_le paired.origin.1 with earlier | last
  · exact .inl earlier
  · have awake := releases.released at_ last
    rcases formed.waiter.party .writer with ⟨⟨runs, -⟩ | ⟨-, -, queued⟩, -⟩ | asleep
    · exact .inr (.inr (.inl runs))
    · exact .inr (.inr (.inr queued))
    · exact absurd asleep.state awake

/-- A read that parks and is unparked by a write that is then preempted. -/
def unparkedRead : List (ChannelLabel Nat) :=
  List.flatten [[.dispatch .reader, .read], List.replicate 7 .run, [.dispatch .writer, .write 7],
    List.replicate 11 .run, [.preempt, .dispatch .reader], List.replicate 3 .run]

/-- The reader parks first, and the write that unparks it is still under way when it returns. -/
theorem released_of_spares_unpark : ∃ s, Run.Reaches step
    (fun s l => l.opens = true ∧ s.spares l = true) (start : Window Nat) s ∧
      s.reader = .ret ∧ s.ret = some 7 ∧ s.origin = s.writes ∧ s.writer ≠ .idle ∧ s.Released := by
  suffices run : ∃ s, Run.Reaches step (fun s l => l.opens = true ∧ s.spares l = true)
      (start : Window Nat) s ∧ s.reader = .ret ∧ s.ret = some 7 ∧ s.origin = s.writes ∧
      s.writer ≠ .idle by
    obtain ⟨s, reached, at_, value, last, busy⟩ := run
    exact ⟨s, reached, at_, value, last, busy, released_of_spares reached⟩
  exact Run.Reaches.of_check unparkedRead (by decide +kernel)

/-- A write that parks, a read that switches to it, and the switch back. -/
def switchBack : List (ChannelLabel Nat) :=
  List.flatten [[.dispatch .writer, .write 7], List.replicate 5 .run, [.dispatch .reader, .read],
    List.replicate 18 .run]

/-- The writer parks first, and the read that has switched to it leaves it parked. -/
theorem swapped_write_stays_parked : ∃ s, Run.Reaches step (fun _ l => l.opens = true)
    (start : Window Nat) s ∧ s.reader = .ret ∧ s.ret = some 7 ∧ s.waiter.slot = some .writer ∧
      ¬ s.Released := by
  suffices run : ∃ s, Run.Reaches step (fun _ l => l.opens = true) (start : Window Nat) s ∧
      s.reader = .ret ∧ s.ret = some 7 ∧ s.waiter.slot = some .writer ∧ s.origin = 1 ∧
      s.writes = 1 ∧ s.writer = .swap 7 .swapped ∧ s.waiter.cpu.running = some .reader ∧
      s.waiter.cpu.queued .writer = false by
    obtain ⟨s, reached, at_, value, parked, origin, writes, swapped, running, off⟩ := run
    refine ⟨s, reached, at_, value, parked, fun released => ?_⟩
    rcases released 7 at_ value with earlier | idle | runs | queued
    · rw [origin, writes] at earlier
      exact absurd earlier (by decide)
    · rw [swapped] at idle
      cases idle
    · rw [running] at runs
      cases runs
    · rw [off] at queued
      cases queued
  exact Run.Reaches.of_check switchBack (by decide +kernel)

end Window

end Gthread

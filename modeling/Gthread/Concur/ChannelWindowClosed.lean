import Gthread.Concur.ChannelWindowSteps

/-! Calls on a window that has been closed. -/

namespace Gthread

open Function (update update_of_ne update_self)

variable {α : Type}

/-- A call on a window, with the argument of `write`. -/
inductive WindowCall (α : Type) where
  | read
  | write (t : α)
  deriving DecidableEq, Repr

/-- The call that a label begins. -/
def ChannelLabel.call : ChannelLabel α → Option (WindowCall α)
  | .read => some .read
  | .write t => some (.write t)
  | _ => none

namespace Window

variable {s s' : Window α} {l : ChannelLabel α}

/-- A window that was closed while no operation was pending. -/
structure Shut (s : Window α) : Prop where
  closed : s.closed = true
  cleared : s.target = none
  reader : s.reader = .idle
  writer : s.writer = .idle
  -- Both tasks can go on: nobody is parked, and whoever does not run is queued.
  awake : ∀ p, s.waiter.cpu.state p ≠ .waiting
  going : ∀ p, s.waiter.cpu.running = some p → s.waiter.cpu.state p = .running
  queued : ∀ p, s.waiter.cpu.running ≠ some p → s.waiter.cpu.queued p = true

/-- The next statements of the reading task. -/
def readOn : Nat → Window α → Except Fault (Window α)
  | 0, s => .ok s
  | n + 1, s => s.runReader >>= readOn n

/-- The next statements of the writing task. -/
def writeOn : Nat → Window α → Except Fault (Window α)
  | 0, s => .ok s
  | n + 1, s => s.runWriter >>= writeOn n

/-- What is promised of every state in which calls on a closed window are served. -/
structure Served (s : Window α) : Prop where
  -- A call that is about to return gives back nothing, or the argument.
  reading : s.reader = .ret → s.ret = none
  writing : ∀ t accepted, s.writer = .ret t accepted → accepted = false
  -- Nobody is inside the waiter or parked.
  outside : ∀ p, s.role p = none
  awake : ∀ p, s.waiter.cpu.state p ≠ .waiting
  -- Every pending call returns.
  readReturns : ∃ n s', s.readOn n = .ok s' ∧ s'.reader = .idle
  writeReturns : ∃ n s', s.writeOn n = .ok s' ∧ s'.writer = .idle
  -- No assertion fails and no pointer is followed that leads nowhere.
  faultless : ∀ l fault, s.step l = .error fault → fault = .disabled
  -- Between calls `_reader` is null.
  cleared : s.reader = .idle → s.writer = .idle → s.target = none

/-- Any run of the two tasks that makes these calls in this order is served. -/
def Serves (s : Window α) (calls : List (WindowCall α)) : Prop :=
  ∀ labels s', (∀ l ∈ labels, l.opens = true) → labels.filterMap ChannelLabel.call <+: calls →
    Run.exec step (fun _ _ => True) s labels = some s' → s'.Served

/-- A closed window on which nothing but writes are called. -/
structure OnlyWrites (s : Window α) : Prop where
  closed : s.closed = true
  cleared : s.target = none
  reader : s.reader = .idle
  writer : s.writer = .idle ∨ (∃ t, s.writer = .checkClosed t) ∨ ∃ t, s.writer = .ret t false
  awake : ∀ p, s.waiter.cpu.state p ≠ .waiting

/-- A task that leaves the processor is not parked by that. -/
theorem awake_leave {c : Cpu Party} (awake : ∀ p, c.state p ≠ .waiting) (q : Party) :
    ∀ p, (c.leave q).state p ≠ .waiting := by
  intro p
  rw [Cpu.leave_state]
  by_cases same : p = q
  · subst same
    rw [update_self]
    split
    · simp
    · exact awake p
  · rw [update_of_ne same]
    exact awake p

/-- A task that is switched to is not parked. -/
theorem awake_enter {c : Cpu Party} (awake : ∀ p, c.state p ≠ .waiting) (q : Party) :
    ∀ p, (c.enter q).state p ≠ .waiting := by
  intro p
  rw [Cpu.enter_state]
  by_cases same : p = q
  · subst same
    simp
  · rw [update_of_ne same]
    exact awake p

/-- A write on a closed window reads `_closed`, and returns its argument. -/
theorem OnlyWrites.runWriter (only : s.OnlyWrites) (busy : s.writer ≠ .idle) :
    ∃ s', s.runWriter = .ok s' ∧ s'.OnlyWrites := by
  rcases only.writer with idle | ⟨t, at_⟩ | ⟨t, at_⟩
  · exact absurd idle busy
  · refine ⟨{ s with writer := .ret t false }, ?_,
      ⟨only.closed, only.cleared, only.reader, .inr (.inr ⟨t, rfl⟩), only.awake⟩⟩
    simp only [Window.runWriter, at_, only.closed, ↓reduceIte]
  · refine ⟨{ s with writer := .idle }, ?_,
      ⟨only.closed, only.cleared, only.reader, .inl rfl, only.awake⟩⟩
    simp [Window.runWriter, at_]

/-- Steps other than reads and closes keep a window one on which only writes are called. -/
theorem OnlyWrites.step (only : s.OnlyWrites) (opens : l.opens = true) (other : l ≠ .read)
    (ok : s.step l = .ok s') : s'.OnlyWrites := by
  cases l with
  | run =>
    simp only [Window.step] at ok
    split at ok
    · simp at ok
    · simp [runReader, only.reader] at ok
    · by_cases idle : s.writer = .idle
      · simp [Window.runWriter, idle] at ok
      · obtain ⟨next, stepped, kept⟩ := only.runWriter idle
        rw [stepped, Except.ok.injEq] at ok
        exact ok ▸ kept
  | preempt =>
    simp only [Window.step] at ok
    split at ok
    · simp at ok
    · simp only [Except.ok.injEq] at ok
      subst ok
      exact ⟨only.closed, only.cleared, only.reader, only.writer, awake_leave only.awake _⟩
  | dispatch p =>
    simp only [Window.step] at ok
    split at ok
    · simp only [Except.ok.injEq] at ok
      subst ok
      exact ⟨only.closed, only.cleared, only.reader, only.writer, awake_enter only.awake _⟩
    · simp at ok
  | read => exact absurd rfl other
  | write t =>
    simp only [Window.step] at ok
    split at ok
    · simp only [Except.ok.injEq] at ok
      subst ok
      exact ⟨only.closed, only.cleared, only.reader, .inr (.inl ⟨t, rfl⟩), only.awake⟩
    · simp at ok
  | close p => simp [ChannelLabel.opens] at opens

/-- Nothing goes wrong while only writes are called. -/
theorem OnlyWrites.served (only : s.OnlyWrites) : s.Served where
  reading ret := by simp [only.reader] at ret
  writing t accepted at_ := by
    rcases only.writer with idle | ⟨t', other⟩ | ⟨t', other⟩
    · simp [idle] at at_
    · simp [other] at at_
    · rw [other] at at_
      cases at_
      rfl
  outside p := by
    cases p with
    | reader => simp [role, only.reader, WindowReadPc.role]
    | writer =>
      rcases only.writer with at_ | ⟨t, at_⟩ | ⟨t, at_⟩ <;> simp [role, at_, WindowWritePc.role]
  awake := only.awake
  readReturns := ⟨0, s, rfl, only.reader⟩
  writeReturns := by
    rcases only.writer with idle | ⟨t, at_⟩ | ⟨t, at_⟩
    · exact ⟨0, s, rfl, idle⟩
    · refine ⟨2, { s with writer := .idle }, ?_, rfl⟩
      simp [writeOn, Window.runWriter, at_, only.closed, Bind.bind, Except.bind]
    · refine ⟨1, { s with writer := .idle }, ?_, rfl⟩
      simp [writeOn, Window.runWriter, at_, Bind.bind, Except.bind]
  faultless l fault failed := by
    cases l with
    | run =>
      simp only [Window.step] at failed
      split at failed
      · simpa using failed.symm
      · simpa [runReader, only.reader] using failed.symm
      · by_cases idle : s.writer = .idle
        · simpa [Window.runWriter, idle] using failed.symm
        · obtain ⟨next, stepped, -⟩ := only.runWriter idle
          rw [stepped] at failed
          cases failed
    | preempt =>
      simp only [Window.step] at failed
      split at failed
      · simpa using failed.symm
      · simp at failed
    | dispatch | read | write =>
      simp only [Window.step] at failed
      split at failed
      · simp at failed
      · simpa using failed.symm
    | close p =>
      cases p <;>
      · simp only [Window.step] at failed
        split at failed
        · simp at failed
        · simpa using failed.symm
  cleared _ _ := only.cleared

/-! ### Making the calls -/

/-- Some run of the two tasks makes these calls and ends in a state. -/
def Performs (s : Window α) (calls : List (WindowCall α)) (s' : Window α) : Prop :=
  ∃ labels : List (ChannelLabel α), (∀ l ∈ labels, l.opens = true) ∧
    labels.filterMap ChannelLabel.call = calls ∧
    Run.exec step (fun _ _ => True) s labels = some s'

/-- Runs follow one another. -/
theorem Performs.trans {s'' : Window α} {first second : List (WindowCall α)}
    (one : s.Performs first s') (two : s'.Performs second s'') :
    s.Performs (first ++ second) s'' := by
  obtain ⟨labels, opens, rfl, run⟩ := one
  obtain ⟨labels', opens', rfl, run'⟩ := two
  refine ⟨labels ++ labels', fun l member => ?_, List.filterMap_append, ?_⟩
  · rcases List.mem_append.mp member with early | late
    · exact opens l early
    · exact opens' l late
  · rw [Run.exec_append, run]
    exact run'

/-- The labels of a run, executed. -/
theorem Performs.of_exec (labels : List (ChannelLabel α)) (opens : ∀ l ∈ labels, l.opens = true)
    (run : Run.exec step (fun _ _ => True) s labels = some s') :
    s.Performs (labels.filterMap ChannelLabel.call) s' := ⟨labels, opens, rfl, run⟩

/-- What is served after some calls is what is left of the sequence. -/
theorem Serves.after {first rest : List (WindowCall α)} (serves : s.Serves (first ++ rest))
    (performs : s.Performs first s') : s'.Serves rest := by
  obtain ⟨labels, opens, rfl, run⟩ := performs
  intro labels' s'' opens' calls run'
  refine serves (labels ++ labels') s'' (fun l member => ?_) ?_ ?_
  · rcases List.mem_append.mp member with early | late
    · exact opens l early
    · exact opens' l late
  · rw [List.filterMap_append]
    exact (List.prefix_append_right_inj _).mpr calls
  · rw [Run.exec_append, run]
    exact run'

/-- The scheduler can run either task of a closed window next. -/
theorem Shut.enters (shut : s.Shut) (p : Party) :
    ∃ s', s.Performs [] s' ∧ s'.Shut ∧ s'.waiter.cpu.running = some p := by
  -- A task can be dispatched once the processor is free.
  have dispatches : ∀ s : Window α, s.Shut → s.waiter.cpu.running = none →
      ∃ s', s.Performs [] s' ∧ s'.Shut ∧ s'.waiter.cpu.running = some p := by
    intro s shut free
    have ready : s.waiter.cpu.queued p = true := shut.queued p (by simp [free])
    refine ⟨{ s with waiter := { s.waiter with cpu := s.waiter.cpu.enter p } },
      .of_exec [.dispatch p] (by simp [ChannelLabel.opens]) (by simp [Run.exec, step, free, ready]),
      ⟨shut.closed, shut.cleared, shut.reader, shut.writer, awake_enter shut.awake p,
        fun q here => ?_, fun q there => ?_⟩, rfl⟩
    · obtain rfl : p = q := by simpa using here
      simp
    · have other : q ≠ p := by rintro rfl; exact there rfl
      rw [Cpu.enter_queued, update_of_ne other]
      exact shut.queued q (by simp [free])
  cases runs : s.waiter.cpu.running with
  | none => exact dispatches s shut runs
  | some q =>
    by_cases same : q = p
    · exact ⟨s, .of_exec [] (by simp) rfl, shut, same ▸ runs⟩
    · -- The timer takes the processor from the other task first.
      have left : Shut { s with waiter := s.waiter.yield q } := by
        refine ⟨shut.closed, shut.cleared, shut.reader, shut.writer, awake_leave shut.awake q,
          fun r here => by simp [Waiter.yield] at here, fun r _ => ?_⟩
        simp only [Waiter.yield, Cpu.leave_queued]
        by_cases own : r = q
        · subst own
          simp [shut.going r runs]
        · rw [update_of_ne own]
          refine shut.queued r ?_
          rw [runs]
          simpa using Ne.symm own
      obtain ⟨s', performs, shut', here⟩ := dispatches _ left rfl
      have gone : s.Performs [] { s with waiter := s.waiter.yield q } :=
        .of_exec [.preempt] (by simp [ChannelLabel.opens]) (by simp [Run.exec, step, runs])
      exact ⟨s', gone.trans performs, shut', here⟩

/-- A write on a closed window leaves it as it was. -/
theorem Shut.writes (shut : s.Shut) (t : α) : ∃ s', s.Performs [.write t] s' ∧ s'.Shut := by
  obtain ⟨s₁, performs, shut₁, runs⟩ := shut.enters .writer
  refine ⟨{ s₁ with writes := s₁.writes + 1 }, performs.trans (.of_exec [.write t, .run, .run]
    (by simp [ChannelLabel.opens]) ?_), ⟨shut₁.closed, shut₁.cleared, shut₁.reader, shut₁.writer,
    shut₁.awake, shut₁.going, shut₁.queued⟩⟩
  simp [Run.exec, step, runs, shut₁.writer, runWriter, shut₁.closed]

/-- A read on a closed window leaves `_reader` pointing to its local. -/
theorem Shut.reads (shut : s.Shut) :
    ∃ s', s.Performs [.read] s' ∧ s'.reader = .idle ∧ s'.writer = .idle ∧ s'.target ≠ none := by
  obtain ⟨s₁, performs, shut₁, runs⟩ := shut.enters .reader
  refine ⟨{ s₁ with ret := none, reads := s₁.reads + 1, target := some (s₁.reads + 1) },
    performs.trans (.of_exec [.read, .run, .run, .run, .run] (by simp [ChannelLabel.opens]) ?_),
    shut₁.reader, shut₁.writer, by simp⟩
  simp [Run.exec, step, runs, shut₁.reader, runReader, shut₁.cleared, shut₁.closed]

/-- A sequence with a read in it is not served. -/
theorem Shut.not_serves {calls : List (WindowCall α)} (shut : s.Shut)
    (reads : WindowCall.read ∈ calls) : ¬ s.Serves calls := by
  -- The writes before the first read leave the window closed and idle.
  induction calls generalizing s with
  | nil => cases reads
  | cons call rest ih =>
    intro serves
    cases call with
    | read =>
      obtain ⟨s', performs, reader, writer, dangling⟩ := shut.reads
      have left : s'.Serves rest := @Serves.after _ _ _ [.read] _ serves performs
      exact dangling ((left [] s' (by simp) (by simp) rfl).cleared reader writer)
    | write t =>
      obtain ⟨s', performs, shut'⟩ := shut.writes t
      have later : WindowCall.read ∈ rest := by simpa using reads
      exact ih shut' later (Serves.after serves performs)

/-- A sequence without a read is served. -/
theorem Shut.serves {calls : List (WindowCall α)} (shut : s.Shut)
    (writes : WindowCall.read ∉ calls) : s.Serves calls := by
  intro labels s' opens begun run
  have only : s.OnlyWrites :=
    ⟨shut.closed, shut.cleared, shut.reader, .inl shut.writer, shut.awake⟩
  have noRead : ∀ l ∈ labels, l ≠ .read := by
    rintro l member rfl
    exact writes (begun.subset (List.mem_filterMap.mpr ⟨_, member, rfl⟩))
  clear shut begun writes
  induction labels generalizing s with
  | nil =>
    obtain rfl : s = s' := by simpa [Run.exec] using run
    exact only.served
  | cons l rest ih =>
    simp only [Run.exec, ↓reduceIte] at run
    split at run
    · rename_i next stepped
      exact ih (fun l member => opens l (List.mem_cons_of_mem _ member)) run
        (only.step (opens l List.mem_cons_self) (noRead l List.mem_cons_self) stepped)
        fun l member => noRead l (List.mem_cons_of_mem _ member)
    · cases run

/-- A closed window serves exactly the sequences of calls that read nothing. -/
theorem shut_serves_iff (shut : s.Shut) (calls : List (WindowCall α)) :
    s.Serves calls ↔ WindowCall.read ∉ calls :=
  ⟨fun serves reads => shut.not_serves reads serves, shut.serves⟩

/-- The reading task of a new window closes it while nothing is pending. -/
def closedUnused : List (ChannelLabel Nat) := [.dispatch .reader, .close .reader, .run, .run, .run]

/-- The window that is left then. -/
theorem closedUnused_shut : ∃ s : Window Nat, Run.Reaches step (fun _ _ => True) start s ∧
    s.Shut ∧ s.waiter.cpu.running = some .reader := by
  have run : ∃ s : Window Nat, Run.Reaches step (fun _ _ => True) start s ∧
      (s.closed = true ∧ s.target = none ∧ s.reader = .idle ∧ s.writer = .idle) ∧
      s.waiter.cpu.running = some .reader ∧ s.waiter.cpu.state .reader = .running ∧
      s.waiter.cpu.state .writer = .suspended ∧ s.waiter.cpu.queued .writer = true :=
    Run.Reaches.of_check closedUnused (by decide +kernel)
  obtain ⟨s, reached, ⟨closed, cleared, reader, writer⟩, runs, going, other, queued⟩ := run
  refine ⟨s, reached, ⟨closed, cleared, reader, writer, fun p => ?_, fun p here => ?_,
    fun p there => ?_⟩, runs⟩
  · cases p <;> simp [going, other]
  · cases p with
    | reader => exact going
    | writer => simp [runs] at here
  · cases p with
    | reader => exact absurd runs there
    | writer => exact queued

/-- Two writes on a closed window are served. -/
theorem shut_serves_iff_writes : ∃ s : Window Nat, Run.Reaches step (fun _ _ => True) start s ∧
    s.Shut ∧ s.Serves [.write 1, .write 2] := by
  obtain ⟨s, reached, shut, -⟩ := closedUnused_shut
  exact ⟨s, reached, shut, (shut_serves_iff shut _).mpr (by decide)⟩

/-- The second of two reads on a closed window fails its assertion. -/
theorem second_read_fails : ∃ s s' : Window Nat, Run.Reaches step (fun _ _ => True) start s ∧
    s.Shut ∧ s.Performs [.read, .read] s' ∧
    s'.step .run = .error (.assertion "_reader == nullptr") ∧ ¬ s.Serves [.read, .read] := by
  obtain ⟨s, reached, shut, runs⟩ := closedUnused_shut
  let again : Window Nat := { s with
    ret := none, reads := s.reads + 1 + 1, target := some (s.reads + 1), reader := .assertEntry }
  have performs : s.Performs [.read, .read] again := by
    refine .of_exec [.read, .run, .run, .run, .run, .read] (by simp [ChannelLabel.opens]) ?_
    simp [Run.exec, step, runs, shut.reader, runReader, shut.cleared, shut.closed, again]
  have fails : again.step .run = .error (.assertion "_reader == nullptr") := by
    simp [step, runs, runReader, again]
  refine ⟨s, _, reached, shut, performs, fails, fun serves => ?_⟩
  obtain ⟨labels, opens, calls, run⟩ := performs
  have := (serves labels _ opens (calls ▸ List.prefix_refl _) run).faultless _ _ fails
  cases this

end Window

end Gthread

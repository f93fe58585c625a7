import Gthread.Concur.MutexLaws

/-! A mutex excludes, keeps its list of waiters true, and loses no wake-up. -/

namespace Gthread

open Waiter (claims waits takes aimsAt)
open Lot (takesAt)

variable {ι : Type}

namespace Mutex

section

variable {s : Mutex ι} {p : ι}

/-- A woken task runs or is queued. -/
theorem Inv.runnable (inv : s.Inv) (woken : s.Woken p) :
    s.lot.cpu.running = some p ∨ s.lot.cpu.queued p = true := by
  have awake : s.lot.cpu.state p ≠ .waiting := by
    intro waiting
    obtain ⟨n, pc, parks, -⟩ := inv.parks_of_waiting waiting
    simp [Woken, parks, waiting] at woken
  rcases inv.lot.awake p awake with ⟨running, -⟩ | ⟨-, -, queued⟩
  · exact .inl running
  · exact .inr queued

/-- A free mutex with a list of waiters has one that was woken. -/
theorem Inv.woken_of_free (inv : s.Inv) (unlocked : s.locked = false) (free : s.owner = none)
    (contended : s.queue ≠ []) : ∃ p, s.Woken p := by
  -- Whoever tests or sets `_owner` holds the spin lock.
  have outside : ∀ p, (s.pc p).critical ≠ true := by
    intro p critical
    rw [inv.locked p critical] at unlocked
    cases unlocked
  rcases inv.progress free with empty | ⟨p, woken | tests | sets⟩
  · exact absurd empty contended
  · exact ⟨p, woken⟩
  · exact absurd (by rw [tests]; rfl) (outside p)
  · exact absurd (by rw [sets]; rfl) (outside p)

/-- While nobody has the spin lock, each node of the list is the node of one task. -/
theorem Inv.served_once (inv : s.Inv) (unlocked : s.locked = false) (n : Nat)
    (member : n ∈ s.queue) : ∃! p, s.Enqueued p n := by
  rcases inv.served n member with ⟨p, enqueued⟩ | ⟨u, pops, -⟩
  · refine ⟨p, enqueued, ?_⟩
    intro q enqueued'
    exact inv.own q p n (node_of_enqueued enqueued') (node_of_enqueued enqueued)
  · have locked := inv.locked u (by rw [pops]; rfl)
    rw [unlocked] at locked
    cases locked

end

variable [DecidableEq ι] {s : Mutex ι} {p : ι} {n : Nat}

/-- A statement of a node's waiter neither faults nor touches a node that is gone. -/
theorem Inv.stepNode (inv : s.Inv) {pc : WaiterPc ι}
    (at_ : s.pc p = .park n pc ∨ s.pc p = .unpark n pc) :
    ∃ result, s.stepNode p n pc = .ok result := by
  have knows := inv.knows p
  have there : touches pc = true → n ∈ s.queue := by
    intro touches_
    rcases at_ with parks | unparks
    · simp only [Knows, parks] at knows
      refine inv.member p n (.inr ⟨pc, parks, .inr ?_⟩)
      cases pc <;> simp_all [touches, waits, WaiterPc.member]
    · simp only [Knows, unparks] at knows
      exact List.mem_of_mem_head? knows.2.1
  have role : s.role p = some (n, pc) := by
    rcases at_ with parks | unparks
    · rw [Mutex.role, parks]
      rfl
    · rw [Mutex.role, unparks]
      rfl
  -- The only assertion is about a task that was taken, which waits.
  have wakes : ∀ q, pc = .wake q → s.lot.cpu.state q = .waiting := by
    rintro q rfl
    exact (inv.lot.taken p n q (by rw [role]; rfl)).1
  have member : pc.member ≠ .swap := by
    rcases at_ with parks | unparks
    · simp only [Knows, parks] at knows
      simp [knows.1]
    · simp only [Knows, unparks] at knows
      simp [knows.2.2.1]
  have touched : ¬ (touches pc = true ∧ n ∉ s.queue) := fun gone => gone.2 (there gone.1)
  unfold Mutex.stepNode Lot.step
  rw [if_neg touched]
  cases done : Waiter.step p false pc ⟨s.lot.cpu, s.lot.slot n⟩ with
  | ok result => exact ⟨_, rfl⟩
  | error fault =>
    exfalso
    cases pc with
    | wake q => simp [Waiter.step, wakes q rfl] at done
    | swapLoad | swapState | swapCas | switch | swapped => exact member rfl
    | claim | check | release | mark | yield | parked | load | state | cas =>
      simp only [Waiter.step] at done
      first | split at done | skip
      all_goals cases done

/-- No statement faults. -/
theorem Inv.runTask (inv : s.Inv) (busy : s.pc p ≠ .idle) : ∃ s', s.runTask p = .ok s' := by
  have knows := inv.knows p
  unfold Mutex.runTask
  cases at_ : s.pc p with
  | idle => exact absurd at_ busy
  | park n pc =>
    obtain ⟨⟨outcome, lot⟩, done⟩ := inv.stepNode (.inl at_)
    cases outcome <;> simp [done, Bind.bind, Except.bind, pure, Except.pure]
  | unpark n pc =>
    obtain ⟨⟨outcome, lot⟩, done⟩ := inv.stepNode (.inr at_)
    rcases outcome with pc' | (_ | _) <;> simp [done, Bind.bind, Except.bind, pure, Except.pure]
  | assertParked succ =>
    simp only [Knows, at_] at knows
    simp [knows]
  | boostOwner =>
    simp only [Knows, at_] at knows
    cases owner : s.owner with
    | none => exact absurd owner knows
    | some o => simp
  | testEmpty => cases s.queue <;> simp
  | _ => simp

/-- A step that cannot be taken is one that is not enabled. -/
theorem Inv.faults (inv : s.Inv) {l : MutexLabel ι} {fault : Fault}
    (fails : s.step l = .error fault) : fault = .disabled := by
  cases l with
  | run =>
    simp only [Mutex.step] at fails
    split at fails
    · exact (Except.error.inj fails).symm
    · rename_i p running
      by_cases idle : s.pc p = .idle
      · simp only [Mutex.runTask, idle] at fails
        exact (Except.error.inj fails).symm
      · obtain ⟨s', ok⟩ := inv.runTask idle
        rw [ok] at fails
        cases fails
  | preempt =>
    simp only [Mutex.step] at fails
    split at fails
    · exact (Except.error.inj fails).symm
    · cases fails
  | dispatch p =>
    simp only [Mutex.step] at fails
    split at fails
    · cases fails
    · exact (Except.error.inj fails).symm
  | lock | unlock =>
    simp only [Mutex.step, Mutex.call] at fails
    split at fails
    · exact (Except.error.inj fails).symm
    · split at fails
      · cases fails
      · exact (Except.error.inj fails).symm

/-- One task at a time holds the mutex, and the list is that of the tasks still to be woken. -/
structure Excludes (s : Mutex ι) : Prop where
  owner : ∀ p, s.held p = true → s.owner = some p
  alone : ∀ p q, s.held p = true → s.held q = true → p = q
  -- While the spin lock is free, nodes of the list and tasks in it correspond.
  nodup : s.locked = false → s.queue.Nodup
  member : s.locked = false → ∀ p n, s.Enqueued p n → n ∈ s.queue
  served : s.locked = false → ∀ n ∈ s.queue, ∃! p, s.Enqueued p n
  single : ∀ p n m, s.Enqueued p n → s.Enqueued p m → n = m
  -- `park` finds its node in the list and the waiter empty, and no assertion fails.
  parks : ∀ p n, s.pc p = .park n .claim → n ∈ s.queue ∧ s.lot.slot n = none
  faults : ∀ l fault, s.step l = .error fault → fault = .disabled
  -- `unlock` notes what it finds under the spin lock, and throws if that is another owner.
  notes : ∀ p s', s.lot.cpu.running = some p → s.pc p = .acquire .unlock → s.locked = false →
    s.step .run = .ok s' → s'.pc p = .checkOwner ∧ s'.found = (s.owner, s.queue, s.boost)
  throws : ∀ p s', s.lot.cpu.running = some p → s.pc p = .checkOwner → s.owner ≠ some p →
    s.step .run = .ok s' → s'.pc p = .unwind
  -- Until it is through with that, nobody changes what it has found.
  keeps : ∀ p l s', s.pc p = .checkOwner ∨ s.pc p = .unwind → s.step l = .ok s' →
    s'.owner = s.owner ∧ s'.queue = s.queue ∧ s'.boost = s.boost ∧ s'.found = s.found
  -- It then gives back the spin lock, and everything is as it was found.
  restores : ∀ p s', s.lot.cpu.running = some p → s.pc p = .unwind → s.step .run = .ok s' →
    s'.pc p = .idle ∧ s'.locked = false ∧ (s'.owner, s'.queue, s'.boost) = s.found

/-- While an `unlock` looks at the owner, or throws, no step changes what it has found. -/
theorem Inv.keeps (inv : s.Inv) {s' : Mutex ι} {l : MutexLabel ι}
    (at_ : s.pc p = .checkOwner ∨ s.pc p = .unwind) (steps : Steps s l s') :
    s'.owner = s.owner ∧ s'.queue = s.queue ∧ s'.boost = s.boost ∧ s'.found = s.found := by
  have critical : (s.pc p).critical = true := by
    rcases at_ with at_ | at_
    · rw [at_]
      rfl
    · rw [at_]
      rfl
  cases steps with
  | @runs b s' running runs =>
    by_cases here : p = b
    · subst here
      cases runs with
      | owned => exact ⟨rfl, rfl, rfl, rfl⟩
      | refused => exact ⟨rfl, rfl, rfl, rfl⟩
      | unwind => exact ⟨rfl, rfl, rfl, rfl⟩
      | _ at' => simp [at'] at at_
    · obtain ⟨owner, queue, boost, found, -⟩ := inv.guarded runs here critical
      exact ⟨owner, queue, boost, found⟩
  | preempt => exact ⟨rfl, rfl, rfl, rfl⟩
  | dispatch => exact ⟨rfl, rfl, rfl, rfl⟩
  | call => exact ⟨rfl, rfl, rfl, rfl⟩

/-- The invariant holds in every state reached. -/
theorem inv_of_reaches (reached : Run.Reaches step (fun _ _ => True) (start : Mutex ι) s) :
    s.Inv := by
  refine reached.invariant (P := fun s => s.Inv) inv_start ?_
  intro s l s' inv _ ok
  exact inv.step (steps_of_ok ok)

/-- In every run, the mutex excludes. -/
theorem excludes_of_reaches (reached : Run.Reaches step (fun _ _ => True) (start : Mutex ι) s) :
    s.Excludes := by
  have inv := inv_of_reaches reached
  refine ⟨inv.held, ?_, fun _ => inv.nodup, fun _ => inv.member, inv.served_once, ?_, ?_,
    fun l fault => inv.faults, ?_, ?_, fun p l s' at_ ok => inv.keeps at_ (steps_of_ok ok), ?_⟩
  · intro p q held held'
    have same := (inv.held p held).symm.trans (inv.held q held')
    exact Option.some.inj same
  · intro p n m enqueued enqueued'
    have same := (node_of_enqueued enqueued).symm.trans (node_of_enqueued enqueued')
    exact Option.some.inj same
  · intro p n at_
    exact ⟨inv.member p n (.inr ⟨.claim, at_, .inr rfl⟩), inv.slot_own at_⟩
  · intro p s' running at_ free ok
    simp only [step, running, Mutex.runTask, at_, free, Except.ok.injEq] at ok
    subst ok
    exact ⟨by simp [acquired, goto], rfl⟩
  · intro p s' running at_ foreign ok
    simp only [step, running, Mutex.runTask, at_, if_neg foreign, Except.ok.injEq] at ok
    subst ok
    simp [goto]
  · intro p s' running at_ ok
    have knows := inv.knows p
    simp only [Knows, at_] at knows
    simp only [step, running, Mutex.runTask, at_, Except.ok.injEq] at ok
    subst ok
    exact ⟨by simp [goto], rfl, knows.1.symm⟩

/-- In every run, a free mutex with tasks in its list has a woken one that can run. -/
theorem woken_of_reaches (reached : Run.Reaches step (fun _ _ => True) (start : Mutex ι) s) :
    s.locked = false → s.owner = none → s.queue ≠ [] →
      ∃ p, s.Woken p ∧ (s.lot.cpu.running = some p ∨ s.lot.cpu.queued p = true) := by
  intro unlocked free contended
  have inv := inv_of_reaches reached
  obtain ⟨p, woken⟩ := inv.woken_of_free unlocked free contended
  exact ⟨p, woken, inv.runnable woken⟩

/-- One task locks the mutex, and two others wait for it. -/
def contend : List (MutexLabel (Fin 3)) :=
  List.flatten [[.dispatch 0, .lock], List.replicate 5 .run, [.preempt, .dispatch 1, .lock],
    List.replicate 10 .run, [.dispatch 2, .lock], List.replicate 10 .run]

/-- Two tasks are parked while the third one holds the mutex. -/
theorem excludes_of_reaches_contended : ∃ s : Mutex (Fin 3), s.held 0 = true ∧ s.queue = [0, 1] ∧
    s.pc 1 = .park 0 .parked ∧ s.pc 2 = .park 1 .parked ∧ s.Excludes := by
  have run : ∃ s : Mutex (Fin 3), Run.Reaches step (fun _ _ => True) start s ∧ s.held 0 = true ∧
      s.queue = [0, 1] ∧ s.pc 1 = .park 0 .parked ∧ s.pc 2 = .park 1 .parked :=
    Run.Reaches.of_check contend (by decide +kernel)
  obtain ⟨s, reached, held, queue, first, second⟩ := run
  exact ⟨s, held, queue, first, second, excludes_of_reaches reached⟩

/-- The owner unlocks the mutex, up to the release of the spin lock. -/
def handOver : List (MutexLabel (Fin 3)) :=
  List.flatten [contend, [.dispatch 0, .unlock], List.replicate 11 .run]

/-- The mutex is free and a task waits in its list, but another one is on its way. -/
theorem woken_of_reaches_unlock : ∃ s : Mutex (Fin 3), s.locked = false ∧ s.owner = none ∧
    s.queue = [1] ∧ ∃ p, s.Woken p ∧ (s.lot.cpu.running = some p ∨ s.lot.cpu.queued p = true) := by
  have run : ∃ s : Mutex (Fin 3), Run.Reaches step (fun _ _ => True) start s ∧
      s.locked = false ∧ s.owner = none ∧ s.queue = [1] :=
    Run.Reaches.of_check handOver (by decide +kernel)
  obtain ⟨s, reached, unlocked, free, queue⟩ := run
  exact ⟨s, unlocked, free, queue, woken_of_reaches reached unlocked free (by simp [queue])⟩

end Mutex

end Gthread

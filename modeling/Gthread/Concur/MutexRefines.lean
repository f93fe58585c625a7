import Gthread.Concur.MutexExclusion
import Gthread.Concur.Parking

/-! A mutex uses its waiters in order: each of its runs is an orderly run of parking tasks. -/

namespace Gthread

open Function (update update_of_ne update_self)

variable {ι : Type} [DecidableEq ι]

namespace Mutex

variable {s s' : Mutex ι} {l : MutexLabel ι} {t : Parking Nat ι} {p q : ι} {n : Nat}

omit [DecidableEq ι] in
/-- The parking tasks are at the same statements of the same waiters. -/
structure Shows (s : Mutex ι) (t : Parking Nat ι) : Prop where
  lot : t.lot = s.lot
  role : t.role = s.role

/-- A task that comes to a waiter's code comes to the beginning of `park` or of `unpark`. -/
theorem Runs.comes (runs : Runs p s s') (out : (s.pc p).role = none) :
    (s'.pc p).role = none ∨ ∃ n, (s'.pc p).role = some (n, .claim) ∨
      (s'.pc p).role = some (n, .load) := by
  cases runs with
  | @acquired site at_ free => cases site <;> simp [Mutex.acquired, goto, MutexPc.role]
  | parks at_ | parked at_ | unparks at_ | unparked at_ | unready at_ =>
    rw [at_] at out
    cases out
  | _ at_ => simp [goto, MutexPc.role]

/-- A task outside the waiters' code that comes to it has called `park` or `unpark`. -/
theorem Shows.comes (shows : s.Shows t) (running : s.lot.cpu.running = some p)
    (runs : Runs p s s') (out : (s.pc p).role = none) :
    ∃ t', t.OrderlyRun t' ∧ t'.lot = s.lot ∧ t'.role = s'.role := by
  have running : t.lot.cpu.running = some p := shows.lot ▸ running
  have free : t.role p = none := by
    rw [shows.role]
    exact out
  have moved : s'.role = update t.role p (s'.pc p).role := shows.role ▸ runs.role
  rcases runs.comes out with none_ | ⟨n, claims | loads⟩
  · refine ⟨t, .refl, shows.lot, ?_⟩
    rw [moved, none_, ← free, Function.update_eq_self]
  · rw [claims] at moved
    have called : t.step (.parkIf n) = _ := Parking.call_run running free
    exact ⟨_, .one rfl called, shows.lot, moved.symm⟩
  · rw [loads] at moved
    have called : t.step (.unpark n) = _ := Parking.call_run running free
    exact ⟨_, .one rfl called, shows.lot, moved.symm⟩

/-- A statement of a mutex is at most a call and a step of the parking tasks. -/
theorem Shows.runs (shows : s.Shows t) (inv : s.Inv) (running : s.lot.cpu.running = some p)
    (runs : Runs p s s') : ∃ t', t.OrderlyRun t' ∧ s'.Shows t' := by
  rcases runs.lot_cases
    with ⟨out, -, -, same | yields | ⟨-, same⟩⟩ | ⟨n, pc, outcome, at_, ok, goes⟩
  · obtain ⟨t', follows, lot, role⟩ := shows.comes running runs out
    exact ⟨t', follows, lot.trans same.symm, role⟩
  · obtain ⟨t', follows, lot, role⟩ := shows.comes running runs out
    refine ⟨{ t' with lot := t'.lot.yield p }, follows.tail (a := .preempt) rfl ?_, ?_, role⟩
    · simp [Parking.step, lot, running]
    · rw [yields, lot]
  · -- The waiter of a new node was empty anyway.
    obtain ⟨t', follows, lot, role⟩ := shows.comes running runs out
    refine ⟨t', follows, lot.trans ?_, role⟩
    rw [same, ← inv.slot_fresh, Function.update_eq_self]
  · have here : t.role p = some (n, pc) := by
      rw [shows.role]
      exact at_
    have running : t.lot.cpu.running = some p := shows.lot ▸ running
    have orderly : t.orderly (.run true) = true := by
      refine Parking.orderly_run true running here fun q aims _ => ?_
      rw [shows.role]
      exact inv.settled at_ aims
    have stepped : t.step (.run true) = _ := Parking.step_run running here (shows.lot ▸ ok)
    refine ⟨_, .one orderly stepped, rfl, ?_⟩
    rw [runs.role, goes, ← shows.role]

/-- Every step of a mutex is followed by orderly steps of the parking tasks. -/
theorem Shows.step (shows : s.Shows t) (inv : s.Inv) (steps : Steps s l s') :
    ∃ t', t.OrderlyRun t' ∧ s'.Shows t' := by
  cases steps with
  | runs running runs => exact shows.runs inv running runs
  | @preempt p running =>
    refine ⟨{ t with lot := t.lot.yield p }, .one (a := .preempt) rfl ?_, ?_, shows.role⟩
    · simp [Parking.step, shows.lot, running]
    · rw [shows.lot]
  | @dispatch p idle queued =>
    refine ⟨{ t with lot := t.lot.enter p }, .one (a := .dispatch p) rfl ?_, ?_, shows.role⟩
    · simp [Parking.step, shows.lot, idle, queued]
    · rw [shows.lot]
  | @call p site l running idle begins =>
    -- The spin lock comes before the waiters.
    refine ⟨t, .refl, shows.lot, shows.role.trans (funext fun q => ?_)⟩
    by_cases here : q = p
    · simp [Mutex.role, goto, here, idle, MutexPc.role]
    · simp [Mutex.role, goto, here]

/-- In every run of a mutex its tasks park in order: each sleep is ended once, by an `unlock`. -/
theorem parking_of_reaches (reached : Run.Reaches step (fun _ _ => True) (start : Mutex ι) s) :
    ∃ t : Parking Nat ι, Parking.start.OrderlyRun t ∧ s.Shows t ∧ t.Balanced := by
  obtain ⟨t, run, -, shows⟩ : ∃ t : Parking Nat ι, Parking.start.OrderlyRun t ∧
      s.Inv ∧ s.Shows t := by
    have begins : (start : Mutex ι).Shows Parking.start := ⟨rfl, rfl⟩
    refine reached.simulate (R := fun s t => s.Inv ∧ s.Shows t) ⟨inv_start, begins⟩ ?_
    rintro s l s' t ⟨inv, shows⟩ - ok
    obtain ⟨t', follows, shows'⟩ := shows.step inv (steps_of_ok ok)
    exact ⟨t', follows, inv.step (steps_of_ok ok), shows'⟩
  exact ⟨t, run, shows, (run.keeps Parking.order_start).2⟩

/-- A contender that has parked in the mutex has one more sleep to be ended. -/
theorem parking_of_reaches_contended : ∃ (s : Mutex (Fin 3)) (t : Parking Nat (Fin 3)),
    s.held 0 = true ∧ s.pc 1 = .park 0 .parked ∧ Parking.start.OrderlyRun t ∧ s.Shows t ∧
      t.slept 1 = t.ended 1 + 1 := by
  have run : ∃ s : Mutex (Fin 3), Run.Reaches step (fun _ _ => True) start s ∧
      s.held 0 = true ∧ s.pc 1 = .park 0 .parked ∧ s.lot.cpu.state 1 = .waiting ∧
      s.lot.slot 0 = some 1 :=
    Run.Reaches.of_check contend (by decide +kernel)
  obtain ⟨s, reached, held, parked, waiting, stands⟩ := run
  obtain ⟨t, follows, shows, balanced⟩ := parking_of_reaches reached
  refine ⟨s, t, held, parked, follows, shows, balanced.parked 1 ?_⟩
  rw [shows.lot]
  exact ⟨waiting, 0, stands⟩

end Mutex

end Gthread

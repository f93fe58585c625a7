import Gthread.Concur.Client

/-! Code that uses waiters on the kernel thread, which runs it as the abstract processor does. -/

namespace Gthread

open Function (update update_of_ne update_self)

/-- Which blocks the tasks of some code have. -/
structure Naming (ι : Type) where
  place : ι → Addr
  name : Addr → Option ι
  agree : ∀ b p, name b = some p ↔ b = place p

/-- Tasks have different blocks. -/
theorem Naming.injective {ι : Type} (names : Naming ι) : Function.Injective names.place := by
  intro p q same
  have named := (names.agree (names.place p) p).mpr rfl
  rw [same, (names.agree (names.place q) q).mpr rfl, Option.some.injEq] at named
  exact named.symm

/-- What a member function returns after its last statement. -/
def WaiterPc.result {ι : Type} : WaiterPc ι → Bool
  | .parked | .wake _ | .swapped => true
  | _ => false

/-- The other statements return nothing, or that nobody was taken. -/
theorem Waiter.result_of_step {ι : Type} [DecidableEq ι] {p : ι} {closed result : Bool}
    {pc : WaiterPc ι} {w w' : Waiter ι} (ok : w.step p closed pc = .ok (.return_ result, w')) :
    result = pc.result := by
  cases pc with
  | check | mark | yield => cases ok
  | release | parked | swapped =>
    cases ok
    rfl
  | claim | load | state | cas | wake | swapLoad | swapState | swapCas | switch =>
    simp only [Waiter.step] at ok
    split at ok
    all_goals
      cases ok
      try rfl

namespace Client

/-- A kernel thread some of whose tasks run the code. -/
structure Thread (γ : Type) where
  kernel : Kernel
  memory : γ

/-- What happens next on the kernel thread. -/
inductive ThreadLabel (κ : Type) where
  -- A trap, a call of the scheduler's interface, or a statement of it.
  | sched (l : Gthread.Label)
  -- The next statement of the code.
  | run (clock : Clock)
  | call (c : κ)

variable {ι κ γ : Type} [DecidableEq ι] (C : Client WaiterId ι κ γ) (names : Naming ι)

/-- The next statement of a task that runs. -/
def Thread.statement (p : ι) (clock : Clock) (t : Thread γ) : Except Fault (Thread γ) :=
  match t.kernel.inside t.kernel.cur with
  | some (_, pc) => do
    let (holds, memory) := C.checked p pc t.memory
    let kernel ← t.kernel.step (.wait clock holds)
    let left := kernel.inside t.kernel.cur = none
    return { kernel, memory := if left then C.back p pc.result memory else memory }
  | none =>
    if t.kernel.pc ≠ .user then .error .disabled
    else match C.act p t.memory with
    | .rests => .error .disabled
    | .fails fault => .error fault
    | .moves memory => .ok { t with memory }
    | .yields memory => do
      let kernel ← t.kernel.step (.sched (.call .yield clock))
      return { kernel, memory }
    | .tests w next => .ok { t with memory := next (t.kernel.waiter w).isSome }
    | .calls w c => do
      let kernel ← t.kernel.step (.enter w c)
      return { t with kernel }

/-- One step of the kernel thread. -/
def Thread.step (t : Thread γ) : ThreadLabel κ → Except Fault (Thread γ)
  | .sched l =>
    -- In the middle of the code its tasks make no other call.
    if l.isCall ∧ (names.name t.kernel.cur).any (fun p => !(C.act p t.memory).resting) then
      .error .disabled
    else do
      let kernel ← t.kernel.step (.sched l)
      return { t with kernel }
  | .run clock =>
    match names.name t.kernel.cur with
    | none => .error .disabled
    | some p => t.statement C p clock
  | .call c =>
    match names.name t.kernel.cur with
    | none => .error .disabled
    | some p =>
      if t.kernel.pc = .user ∧ t.kernel.inside t.kernel.cur = none then
        match C.call p c t.memory with
        | none => .error .disabled
        | some memory => .ok { t with memory }
      else .error .disabled

/--
Handles are used linearly, and traps spare the starts of tasks.

Outside the code its tasks make no call but `yield`, and nobody else enters a waiter.
-/
def Thread.Confined (t : Thread γ) : ThreadLabel κ → Prop
  | .sched l => t.kernel.Undisturbed (.sched l) ∧ t.kernel.Confined names.place (.sched l)
  | .run _ | .call _ => True

instance [Fintype ι] (t : Thread γ) : (l : ThreadLabel κ) → Decidable (t.Confined names l)
  | .sched l => inferInstanceAs
      (Decidable (t.kernel.Undisturbed (.sched l) ∧ t.kernel.Confined names.place (.sched l)))
  | .run _ | .call _ => .isTrue trivial

variable {C} {names} {t t' : Thread γ} {s : State WaiterId ι γ} {p : ι} {clock : Clock}
  {host : Addr} {memory : γ} {l : ThreadLabel κ} {tick : Int} {maxSize : Nat}

/-- The abstract tasks are those of the kernel thread. -/
structure Shows (names : Naming ι) (host : Addr) (t : Thread γ) (s : State WaiterId ι γ) :
    Prop where
  parks : t.kernel.Parks host
  shows : t.kernel.Shows names.place host s.lot s.role
  order : s.lot.Inv s.role
  memory : s.memory = t.memory

omit [DecidableEq ι] in
/-- An orderly exchange is not stale. -/
theorem Shows.fresh (shows : Shows names host t s) (orderly : s.Orderly) :
    t.kernel.stale = false := by
  cases at_ : t.kernel.inside t.kernel.cur with
  | none => simp [Kernel.stale, at_]
  | some place =>
    obtain ⟨w, pc⟩ := place
    obtain ⟨p, pc, here, running, there, rfl⟩ := shows.shows.at_statement at_
    -- Whoever stands in a slot has claimed it, or waits.
    have waits : ∀ q, Waiter.aimsAt (some pc) = some q → t.kernel.waiter w = some (names.place q) →
        (t.kernel.tasks (names.place q)).runState = .waiting := by
      intro q aims stands
      have stood : s.lot.slot w = some q := by
        rw [shows.shows.slot w, Option.map_eq_some_iff] at stands
        obtain ⟨q', stood, same⟩ := stands
        rw [stood, names.injective same]
      rcases shows.order.home w q stood with claimed | ⟨-, waiting⟩
      · rw [orderly p w pc q running there aims stood] at claimed
        cases claimed
      · rw [← shows.shows.views.state q]
        exact waiting
    cases pc with
    | cas q | swapCas q =>
      simp only [Kernel.stale, at_, WaiterPc.map, decide_eq_false_iff_not, not_and, not_not]
      exact waits q rfl
    | _ => simp [Kernel.stale, at_, WaiterPc.map]

omit [DecidableEq ι] in
/-- The check of a statement does not depend on how tasks are named. -/
theorem checked_map (place : ι → Addr) [DecidableEq ι] (pc : WaiterPc ι) (memory : γ) :
    C.checked p (pc.map place) memory = C.checked p pc memory := by
  cases pc with
  | check => rfl
  | _ => simp [checked, WaiterPc.map]

/-- While the processor passes on, the waiters stay in order. -/
theorem inv_of_passes {ν : Type} {lot lot' : Lot ν ι} {role : ι → Option (ν × WaiterPc ι)}
    (inv : lot.Inv role) (passes : lot.Passes lot') : lot'.Inv role := by
  induction passes with
  | refl => exact inv
  | tail _ pass ih =>
    cases pass with
    | leave running => exact ih.preempt running
    | enter idle queued => exact ih.dispatch idle queued

/-- The abstract tasks take a step, and then follow the processor. -/
theorem Shows.onward {k : Kernel} {s₁ : State WaiterId ι γ} {cpu : Cpu ι}
    (shows : Shows names host t s) (orderly : s.Orderly) (running : s.lot.cpu.running = some p)
    (stepped : C.statement p s = .ok s₁) (passes : s₁.lot.Passes { s₁.lot with cpu })
    (parks : k.Parks host) (shows' : k.Shows names.place host { s₁.lot with cpu } s₁.role) :
    ∃ s', Run.Reaches C.step (fun _ _ => True) s s' ∧
      Shows names host { kernel := k, memory := s₁.memory } s' := by
  have step : C.step s .run = .ok s₁ := by
    rw [Client.step, running]
    exact stepped
  have order := inv_step shows.order orderly (steps_of_ok step)
  have run := (Run.Reaches.one trivial step).trans (follows passes)
  refine ⟨{ s₁ with lot := { s₁.lot with cpu } }, run, parks, shows', ?_, rfl⟩
  exact inv_of_passes order passes

/-- A statement of a waiter is the same one in the abstract. -/
theorem Shows.inside {w : WaiterId} {pc : WaiterPc Addr} {holds : Bool} {kept : γ} {k : Kernel}
    (shows : Shows names host t s) (orderly : s.Orderly) (here : t.kernel.cur = names.place p)
    (at_ : t.kernel.inside t.kernel.cur = some (w, pc))
    (checks : C.checked p pc t.memory = (holds, kept))
    (ok : t.kernel.step (.wait clock holds) = .ok k) :
    ∃ s', Run.Reaches C.step (fun _ _ => True) s s' ∧ Shows names host ⟨k,
      if k.inside t.kernel.cur = none then C.back p pc.result kept else kept⟩ s' := by
  have shown := shows.shows
  have parks' := shows.parks.step (l := .wait clock holds) (shows.fresh orderly) ok
  obtain ⟨q, pc, at', running, there, rfl⟩ := shown.at_statement at_
  obtain rfl : p = q := names.injective (here.symm.trans at')
  have user : t.kernel.pc = .user := by
    by_contra outside
    simp [Kernel.step, outside] at ok
  have waits : t.kernel.wait w (pc.map names.place) clock holds = .ok k := by
    simpa only [Kernel.step, user, at_, if_true] using ok
  obtain ⟨outcome, lot, cpu, stepped, passes, shown'⟩ :=
    shown.wait shows.parks parks' names.injective user here there waits
  rw [checked_map, ← shows.memory] at checks
  have statement : C.statement p s = .ok {
      lot
      role := update s.role p (outcome.pc.map (w, ·))
      memory := C.returned p outcome kept } := by
    simp only [Client.statement, there, checks, stepped, Bind.bind, Except.bind, pure, Except.pure]
  -- The task is outside the waiter exactly if the statement has returned.
  have same_ : (if k.inside t.kernel.cur = none then C.back p (pc.map names.place).result kept
      else kept) = C.returned p outcome kept := by
    rw [here, shown'.inside p, update_self]
    obtain ⟨v, done, -⟩ := Lot.step_ok stepped
    cases outcome with
    | goto pc' => simp [Kernel.standing, Outcome.pc, returned]
    | return_ result =>
      rw [Waiter.result_of_step done]
      have same : (pc.map names.place).result = pc.result := by cases pc <;> rfl
      simp [Kernel.standing, Outcome.pc, returned, same]
  rw [same_]
  exact shows.onward orderly running statement passes parks' shown'

/-- A statement of the code is the same one in the abstract. -/
theorem Shows.statement (shows : Shows names host t s) (orderly : s.Orderly)
    (here : t.kernel.cur = names.place p) (ok : t.statement C p clock = .ok t') :
    ∃ s', Run.Reaches C.step (fun _ _ => True) s s' ∧ Shows names host t' s' := by
  have shown := shows.shows
  have running : s.lot.cpu.running = some p := (shown.views.running p).mpr here
  unfold Thread.statement at ok
  cases at_ : t.kernel.inside t.kernel.cur with
  | some place =>
    obtain ⟨w, pc⟩ := place
    simp only [at_] at ok
    cases done : t.kernel.step (.wait clock (C.checked p pc t.memory).1) with
    | error fault => simp [done, Bind.bind, Except.bind] at ok
    | ok k =>
      simp only [done, Bind.bind, Except.bind, pure, Except.pure, Except.ok.injEq] at ok
      rw [← ok]
      exact shows.inside orderly here at_ rfl done
  | none =>
    have out : s.role p = none := shown.out here at_
    have same : C.act p s.memory = C.act p t.memory := by rw [shows.memory]
    simp only [at_] at ok
    split at ok
    · cases ok
    rename_i user
    rw [not_not] at user
    -- A statement of the code itself, after which nobody else is dispatched.
    have quiet : ∀ {memory : γ}, C.statement p s = .ok { s with memory } →
        ∃ s', Run.Reaches C.step (fun _ _ => True) s s' ∧
          Shows names host { t with memory } s' :=
      fun stepped => shows.onward orderly running stepped .refl shows.parks shown
    cases act : C.act p t.memory with
    | rests | fails =>
      rw [act] at ok
      cases ok
    | moves memory =>
      simp only [act] at ok
      rw [← Except.ok.inj ok]
      exact quiet (by simp only [Client.statement, out, same, act])
    | tests w next =>
      simp only [act] at ok
      rw [← Except.ok.inj ok, shown.slot w, Option.isSome_map]
      exact quiet (by simp only [Client.statement, out, same, act])
    | yields memory =>
      simp only [act] at ok
      cases done : t.kernel.step (.sched (.call .yield clock)) with
      | error fault => simp [done, Bind.bind, Except.bind] at ok
      | ok k =>
        simp only [done, Bind.bind, Except.bind, pure, Except.pure, Except.ok.injEq] at ok
        rw [← ok]
        have parks' := shows.parks.step (l := .sched (.call .yield clock)) ⟨trivial, trivial⟩ done
        have scheduled := Kernel.sched_ok done
        have yields : t.kernel.toSys.yieldLocked clock .user = .ok k.toSys := by
          have stepped := scheduled.step
          rwa [Sys.step, if_pos user] at stepped
        obtain ⟨cpu, passes, views⟩ := shown.yields shows.parks names.injective yields
        have left : s.lot.cpu.vacate = s.lot.cpu.leave p := by simp [Cpu.vacate, running]
        rw [left] at passes
        have stepped : C.statement p s = .ok { s with lot := s.lot.yield p, memory } := by
          simp only [Client.statement, out, same, act]
        refine shows.onward orderly running stepped passes parks' ?_
        refine shown.stays views scheduled.waiter (shows.parks.inside_of_sched scheduled) ?_
        exact fun q => (shows.parks.ordered.spared_call parks'.ordered user (shown.free q)
          yields).free
    | calls w c =>
      simp only [act] at ok
      cases done : t.kernel.step (.enter w c) with
      | error fault => simp [done, Bind.bind, Except.bind] at ok
      | ok k =>
        simp only [done, Bind.bind, Except.bind, pure, Except.pure, Except.ok.injEq] at ok
        rw [← ok]
        have parks' := shows.parks.step (l := .enter w c) trivial done
        simp only [Kernel.step, user, at_, and_self, if_true, Except.ok.injEq] at done
        rw [← done] at parks' ⊢
        have stepped : C.statement p s =
            .ok { s with role := update s.role p (some (w, Kernel.beginning c)) } := by
          simp only [Client.statement, out, same, act]
        have run := shows.onward (k := t.kernel.advance w c.pc) orderly running stepped .refl parks'
          (shown.enter c names.injective here)
        rw [shows.memory] at run
        exact run

/-- Every step of the kernel thread is one of the abstract tasks, with those of the processor. -/
theorem Shows.step (shows : Shows names host t s) (orderly : s.Orderly)
    (confined : t.Confined names l) (ok : t.step C names l = .ok t') :
    ∃ s', Run.Reaches C.step (fun _ _ => True) s s' ∧ Shows names host t' s' := by
  cases l with
  | sched l =>
    obtain ⟨undisturbed, confined⟩ := confined
    simp only [Thread.step] at ok
    split at ok
    · cases ok
    cases done : t.kernel.step (.sched l) with
    | error fault => simp [done, Bind.bind, Except.bind] at ok
    | ok k =>
      simp only [done, Bind.bind, Except.bind, pure, Except.pure, Except.ok.injEq] at ok
      rw [← ok]
      have parks' := shows.parks.step undisturbed done
      obtain ⟨cpu, passes, shown'⟩ := shows.shows.sched shows.parks parks' names.injective confined
        undisturbed.1 (Kernel.sched_ok done)
      exact ⟨{ s with lot := { s.lot with cpu } }, follows passes, parks', shown',
        inv_of_passes shows.order passes, shows.memory⟩
  | run clock =>
    simp only [Thread.step] at ok
    split at ok
    · cases ok
    · rename_i p named
      exact shows.statement orderly ((names.agree _ p).mp named) ok
  | call c =>
    simp only [Thread.step] at ok
    split at ok
    · cases ok
    rename_i p named
    have here := (names.agree _ p).mp named
    split at ok
    · rename_i outside
      split at ok
      · cases ok
      rename_i memory called
      rw [← Except.ok.inj ok]
      have called : C.call p c s.memory = some memory := by
        rw [shows.memory]
        exact called
      refine ⟨{ s with memory }, .one (a := .call c) trivial ?_, shows.parks, shows.shows,
        shows.order, rfl⟩
      simp only [Client.step, (shows.shows.views.running p).mpr here,
        shows.shows.out here outside.2, called]
    · cases ok

/-- The abstract tasks can follow every run of the kernel thread. -/
theorem Shows.run (orderly : ∀ s, C.Reaches memory s → s.Orderly) (before : C.Reaches memory s)
    (shows : Shows names host t s)
    (reached : Run.Reaches (Thread.step C names) (Thread.Confined names) t t') :
    ∃ s', Run.Reaches C.step (fun _ _ => True) s s' ∧ Shows names host t' s' := by
  obtain ⟨s', run, -, shows'⟩ : ∃ s', Run.Reaches C.step (fun _ _ => True) s s' ∧
      C.Reaches memory s' ∧ Shows names host t' s' := by
    refine reached.simulate (R := fun t s => C.Reaches memory s ∧ Shows names host t s)
      ⟨before, shows⟩ ?_
    rintro t l t' s ⟨before, shows⟩ confined ok
    obtain ⟨s', steps, shows'⟩ := shows.step (orderly s before) confined ok
    exact ⟨s', steps, before.trans steps, shows'⟩
  exact ⟨s', run, shows'⟩

/-- The kernel thread runs orderly code as the abstract processor does. -/
theorem shows_of_confined {k₀ : Kernel} (orderly : ∀ s, C.Reaches memory s → s.Orderly)
    (booted : Run.Reaches Kernel.step Kernel.Undisturbed (Kernel.boot host tick maxSize) k₀)
    (gathered : k₀.Gathered names.place host)
    (reached : Run.Reaches (Thread.step C names) (Thread.Confined names) ⟨k₀, memory⟩ t) :
    ∃ s, C.Reaches memory s ∧ Shows names host t s := by
  have parks : k₀.Parks host := booted.invariant (Kernel.parks_boot host tick maxSize)
    fun k l k' parks undisturbed ok => parks.step undisturbed ok
  have shows : Shows names host ⟨k₀, memory⟩ (start memory) :=
    ⟨parks, gathered.shows parks, Lot.inv_start, rfl⟩
  exact shows.run orderly .refl reached

end Client

end Gthread

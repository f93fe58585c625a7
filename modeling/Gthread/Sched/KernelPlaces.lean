import Gthread.Sched.KernelFlags
import Gthread.Sched.SchedPlaces

/-! No task of the kernel thread is lost: each one runs, is queued, joins or sleeps in a waiter. -/

namespace Gthread

open Function (update update_of_ne update_self)

namespace Kernel

open Lot (claimsAt waitsAt takesAt)

variable {strict : Prop} {k k' : Kernel} {l : KernelLabel} {clock : Clock} {w : WaiterId}
  {pc : WaiterPc Addr} {b q host : Addr} {tick : Int} {maxSize : Nat}

/-- Slots keep whoever claimed them, and whoever sleeps in a waiter stands in one or was taken. -/
structure Held (k : Kernel) : Prop where
  claimed : ∀ w q, claimsAt (k.inside q) = some w → k.waiter w = some q
  found : ∀ q, k.inside q ≠ none → (k.tasks q).runState = .waiting →
    (∃ w, k.waiter w = some q) ∨ ∃ b w, takesAt (k.inside b) = some (w, q)

/-- A statement of the running task, which had taken nobody, on one slot. -/
theorem Held.local (held : k.Held) (new : Option (WaiterId × WaiterPc Addr))
    (inside : k'.inside = update k.inside k.cur new)
    (state : ∀ q, q ≠ k.cur → (k'.tasks q).runState = (k.tasks q).runState)
    (nobody : takesAt (k.inside k.cur) = none)
    (slot : ∀ w q, q ≠ k.cur → k.waiter w = some q →
      k'.waiter w = some q ∨ (takesAt new = some (w, q) ∧ claimsAt (k.inside q) = none))
    (claims : ∀ w, claimsAt new = some w → k'.waiter w = some k.cur)
    (found : new ≠ none → (k'.tasks k.cur).runState = .waiting → ∃ w, k'.waiter w = some k.cur) :
    k'.Held := by
  have others : ∀ {q}, q ≠ k.cur → k'.inside q = k.inside q := by
    intro q other
    rw [inside, update_of_ne other]
  have own : k'.inside k.cur = new := by rw [inside, update_self]
  refine ⟨fun w q claimed => ?_, fun q within waiting => ?_⟩
  · by_cases here : q = k.cur
    · subst here
      exact claims w (own ▸ claimed)
    · rw [others here] at claimed
      -- Whoever is taken has not claimed the slot.
      rcases slot w q here (held.claimed w q claimed) with stays | ⟨-, unclaimed⟩
      · exact stays
      · rw [unclaimed] at claimed
        cases claimed
  · by_cases here : q = k.cur
    · subst here
      exact .inl (found (own ▸ within) waiting)
    · rw [others here] at within
      rcases held.found q within ((state q here).symm.trans waiting) with ⟨w, stands⟩ | ⟨b, w, took⟩
      · rcases slot w q here stands with stays | ⟨takes, -⟩
        · exact .inl ⟨w, stays⟩
        · exact .inr ⟨k.cur, w, own ▸ takes⟩
      · have elsewhere : b ≠ k.cur := by
          rintro rfl
          rw [nobody] at took
          cases took
        exact .inr ⟨b, w, (others elsewhere).symm ▸ took⟩

/-- A step that moves nobody inside the waiters, and puts nobody there to sleep. -/
theorem Held.beside {s' : Sys} (held : k.Held)
    (waits : ∀ q, k.inside q ≠ none → (s'.tasks q).runState = .waiting →
      (k.tasks q).runState = .waiting) : Kernel.Held { k with toSys := s' } where
  claimed := held.claimed
  found q inside waiting := held.found q inside (waits q inside waiting)

/-- After its yield a task sleeps where it did before. -/
theorem Held.parked {a : Addr} (held : k.Held) (at_ : k.inside a = some (w, .yield)) :
    Kernel.Held { k with inside := update k.inside a (some (w, .parked)) } := by
  refine ⟨fun m q claimed => ?_, fun q inside waiting => ?_⟩
  · have claimed : claimsAt (update k.inside a (some (w, .parked)) q) = some m := claimed
    by_cases here : q = a
    · rw [here, update_self] at claimed
      cases claimed
    · rw [update_of_ne here] at claimed
      exact held.claimed m q claimed
  · have inside : update k.inside a (some (w, .parked)) q ≠ none := inside
    have before : k.inside q ≠ none := by
      by_cases here : q = a
      · simp [here, at_]
      · rwa [update_of_ne here] at inside
    refine (held.found q before waiting).imp_right ?_
    rintro ⟨b, m, took⟩
    have elsewhere : b ≠ a := by
      rintro rfl
      rw [at_] at took
      cases took
    refine ⟨b, m, ?_⟩
    show takesAt (update k.inside a (some (w, .parked)) b) = some (m, q)
    rw [update_of_ne elsewhere]
    exact took

/-- The running task lets go of whom it took, who does not sleep any longer. -/
theorem Held.released {s' : Sys} (held : k.Held) (new : Option (WaiterId × WaiterPc Addr))
    (took : takesAt (k.inside k.cur) = some (w, q)) (awake : (s'.tasks q).runState ≠ .waiting)
    (unclaimed : claimsAt new = none)
    (waits : ∀ b, b ≠ k.cur → (s'.tasks b).runState = .waiting → (k.tasks b).runState = .waiting)
    (found : new ≠ none → ∃ w, k.waiter w = some k.cur) :
    Kernel.Held { k with toSys := s', inside := update k.inside k.cur new } := by
  refine ⟨fun m b claimed => ?_, fun b inside waiting => ?_⟩
  · have claimed : claimsAt (update k.inside k.cur new b) = some m := claimed
    by_cases here : b = k.cur
    · rw [here, update_self, unclaimed] at claimed
      cases claimed
    · rw [update_of_ne here] at claimed
      exact held.claimed m b claimed
  · have inside : update k.inside k.cur new b ≠ none := inside
    by_cases here : b = k.cur
    · rw [here, update_self] at inside
      exact .inl (here ▸ found inside)
    · rw [update_of_ne here] at inside
      refine (held.found b inside (waits b here waiting)).imp_right ?_
      rintro ⟨c, m, took'⟩
      have elsewhere : c ≠ k.cur := by
        rintro rfl
        rw [took, Option.some.injEq, Prod.mk.injEq] at took'
        exact awake (took'.2 ▸ waiting)
      refine ⟨c, m, ?_⟩
      show takesAt (update k.inside k.cur new c) = some (m, b)
      rw [update_of_ne elsewhere]
      exact took'

/-- Such a statement that leaves the slots alone. -/
theorem Held.onward {new : Option (WaiterId × WaiterPc Addr)} (held : k.Held)
    (parks : k.Parks host) (here : k.inside k.cur = some (w, pc)) (other : pc ≠ .yield)
    (nobody : Waiter.takes (some pc) = none)
    (claims : ∀ m, claimsAt new = some m → claimsAt (k.inside k.cur) = some m) :
    Kernel.Held { k with inside := update k.inside k.cur new } := by
  refine held.local new rfl (fun _ _ => rfl) (by rw [here]; simp [takesAt, nobody])
    (fun m q _ stands => .inl stands) (fun m claimed => ?_) (fun _ waiting => ?_)
  · exact held.claimed m k.cur (claims m claimed)
  · exact absurd waiting (parks.going here other)

/-- An exchange takes a task out of its slot. -/
theorem Held.takes {new : WaiterPc Addr} {t : TaskPtr} (held : k.Held) (parks : k.Parks host)
    (here : k.inside k.cur = some (w, pc)) (other : pc ≠ .yield)
    (nobody : Waiter.takes (some pc) = none) (stood : k.waiter w = some q)
    (waiting : (k.tasks q).runState = .waiting) (takes : Waiter.takes (some new) = some q)
    (claims : Waiter.claims (some new) = true → t = some k.cur) :
    ((k.store w t).advance w new).Held := by
  obtain ⟨pc', inside⟩ := parks.inside_of_slot stood
  obtain ⟨⟨m', sleeps⟩, -⟩ := parks.asleep q (by simp [inside]) waiting
  refine held.local (some (w, new)) rfl (fun _ _ => rfl) (by rw [here]; simp [takesAt, nobody])
    (fun m b notCur stands => ?_) (fun m claimed => ?_) (fun _ waits => ?_)
  · by_cases same : m = w
    · -- The task in the slot is the one that is taken.
      subst same
      obtain rfl : b = q := Option.some.inj (stands.symm.trans stood)
      exact .inr ⟨by simp [takesAt, takes], (Lot.waitsAt_excludes sleeps).1⟩
    · refine .inl ?_
      show update k.waiter w t m = some b
      rw [update_of_ne same]
      exact stands
  · simp only [claimsAt] at claimed
    split at claimed
    · rename_i stays
      obtain rfl := Option.some.inj claimed
      show update k.waiter w t w = some k.cur
      rw [update_self]
      exact claims stays
    · cases claimed
  · exact absurd waits (parks.going here other)

/-- A statement of a waiter keeps the slots, unless its exchange is stale. -/
theorem Held.wait {holds : Bool} (held : k.Held) (parks : k.Parks host) (at_ : k.pc = .user)
    (here : k.inside k.cur = some (w, pc)) (fresh : k.stale = false)
    (ok : k.wait w pc clock holds = .ok k') : k'.Held := by
  cases pc with
  | claim =>
    simp only [Kernel.wait] at ok
    split at ok
    · rename_i empty
      rw [← Except.ok.inj ok]
      refine held.local (some (w, .check)) rfl (fun _ _ => rfl) (by rw [here]; rfl)
        (fun m q other stands => .inl ?_) (fun m claimed => ?_) (fun _ waiting => ?_)
      · show update k.waiter w (some k.cur) m = some q
        by_cases same : m = w
        · rw [same, empty] at stands
          cases stands
        · rw [update_of_ne same]
          exact stands
      · obtain rfl : w = m := Option.some.inj claimed
        exact update_self ..
      · exact absurd waiting (parks.going here (by simp))
    · rw [← Except.ok.inj ok]
      exact held.onward parks here (by simp) rfl fun m claimed => by cases claimed
  | check =>
    rw [← Except.ok.inj ok]
    refine held.onward parks here (by simp) rfl fun m claimed => ?_
    rw [here, ← claimed]
    cases holds
    · rfl
    · rfl
  | release =>
    rw [← Except.ok.inj ok]
    have own : k.waiter w = some k.cur := held.claimed w k.cur (by rw [here]; rfl)
    refine held.local none rfl (fun _ _ => rfl) (by rw [here]; rfl)
      (fun m q other stands => .inl ?_) (fun m claimed => by cases claimed)
      (fun inside => absurd rfl inside)
    show update k.waiter w none m = some q
    by_cases same : m = w
    · rw [same, own] at stands
      exact absurd (Option.some.inj stands).symm other
    · rw [update_of_ne same]
      exact stands
  | mark =>
    rw [← Except.ok.inj ok]
    have own : k.waiter w = some k.cur := held.claimed w k.cur (by rw [here]; rfl)
    refine held.local (some (w, .yield)) rfl (fun q other => ?_) (by rw [here]; rfl)
      (fun m q _ stands => .inl stands) (fun m claimed => by cases claimed)
      (fun _ _ => ⟨w, own⟩)
    have fields := Sys.write_tasks k.cur (Task.setState .waiting) k.toSys q
    exact congrArg Task.runState (fields.trans (if_neg other))
  | yield =>
    obtain ⟨-, s, yields, rfl⟩ := throughNode_ok ok
    have yields : k.toSys.yieldLocked clock .user = .ok s := yields
    have stepped : k.toSys.step (.call .yield clock) = .ok s := by
      rw [Sys.step, if_pos at_]
      exact yields
    have ordered := parks.ordered.step (l := .call .yield clock) trivial trivial stepped
    refine (held.beside fun q inside => ?_).parked here
    exact (parks.ordered.spared_call ordered at_ (parks.free q inside) yields).waits
  | cas q =>
    simp only [Kernel.wait] at ok
    split at ok
    · rename_i stood
      rw [← Except.ok.inj ok]
      have waiting : (k.tasks q).runState = .waiting := by
        simpa [stale, here, stood] using fresh
      exact held.takes parks here (by simp) rfl stood waiting rfl (by simp [Waiter.claims])
    · rw [← Except.ok.inj ok]
      exact held.onward parks here (by simp) rfl fun m claimed => by cases claimed
  | swapCas q =>
    simp only [Kernel.wait] at ok
    split at ok
    · rename_i stood
      rw [← Except.ok.inj ok]
      have waiting : (k.tasks q).runState = .waiting := by
        simpa [stale, here, stood] using fresh
      exact held.takes parks here (by simp) rfl stood waiting rfl fun _ => rfl
    · rw [← Except.ok.inj ok]
      exact held.onward parks here (by simp) rfl fun m claimed => by cases claimed
  | wake q =>
    simp only [Kernel.wait] at ok
    split at ok
    · cases ok
    obtain ⟨-, s, wakes, rfl⟩ := throughNode_ok ok
    have roused := Sys.wake_roused (s := k.toSys) wakes
    have took : takesAt (k.inside k.cur) = some (w, q) := by
      rw [here]
      rfl
    refine held.released none took ?_ rfl (fun b _ waiting => ?_)
      (fun inside => absurd rfl inside)
    · rw [roused.state, if_pos rfl]
      simp
    · rw [roused.state] at waiting
      split_ifs at waiting
      exact waiting
  | switch q =>
    obtain ⟨-, s, swaps, rfl⟩ := throughNode_ok ok
    obtain ⟨swapped, -⟩ := Sys.swapTo_swapped (s := k.toSys) swaps
    have took : takesAt (k.inside k.cur) = some (w, q) := by
      rw [here]
      rfl
    have runs := swapped.runs parks.ordered.balanced (parks.ready took).1
    refine held.released (some (w, .swapped)) took ?_ rfl (fun b other waiting => ?_)
      (fun _ => ⟨w, held.claimed w k.cur (by rw [here]; rfl)⟩)
    · rw [runs]
      simp
    · by_cases target : b = q
      · rw [target, runs] at waiting
        cases waiting
      · exact (swapped.state b other target).symm.trans waiting
  | _ =>
    -- The loads and tests only decide where the task goes on.
    simp only [Kernel.wait] at ok
    try split at ok
    all_goals
      rw [← Except.ok.inj ok]
      exact held.onward parks here (by simp) rfl fun m claimed => by cases claimed

/-- A task that sleeps inside a waiter. -/
def Sleeps (k : Kernel) (b : Addr) : Prop := k.inside b ≠ none ∧ (k.tasks b).runState = .waiting

/--
Who runs can be found later or sleeps inside a waiter.

With `strict` so can every task that is known.
-/
structure Complete (strict : Prop) (host : Addr) (k : Kernel) : Prop where
  parks : k.Parks host
  held : k.Held
  returns : k.toSys.Returns ∨ k.Sleeps k.cur
  placed : strict → ∀ b, k.toSys.Known host b → k.toSys.Placed b ∨ k.Sleeps b

/-- A trap in a prologue would lose its task. -/
def Begun (k : Kernel) : KernelLabel → Prop
  | .sched l => k.toSys.Begun l
  | .enter _ _ | .wait _ _ => True

instance (k : Kernel) : (l : KernelLabel) → Decidable (k.Begun l)
  | .sched l => inferInstanceAs (Decidable (k.toSys.Begun l))
  | .enter _ _ | .wait _ _ => .isTrue trivial

/-- A step of the scheduler that lets whoever is inside the waiters sleep on. -/
theorem Complete.beside {l : Label} {s' : Sys} (complete : k.Complete strict host)
    (linear : k.toSys.Linear l) (begun : strict → k.toSys.Begun l) (ok : k.toSys.step l = .ok s')
    (spared : ∀ b, k.inside b ≠ none → k.toSys.Spared host s' b) :
    (s'.Returns ∨ Kernel.Sleeps { k with toSys := s' } s'.cur) ∧
      (strict → ∀ b, s'.Known host b →
        s'.Placed b ∨ Kernel.Sleeps { k with toSys := s' } b) := by
  obtain ⟨parks, -, returns, placed⟩ := complete
  obtain ⟨phase, inv⟩ := parks.ordered.order
  have sleeps : ∀ {b}, k.Sleeps b → Kernel.Sleeps { k with toSys := s' } b := by
    rintro b ⟨within, waiting⟩
    have off := (parks.asleep b within waiting).2.1
    exact ⟨within, ((spared b within).sleeps waiting off).1⟩
  refine ⟨?_, fun on b known => ?_⟩
  · refine (parks.ordered.returns linear returns ok).imp_right ?_
    rintro ⟨within, cur, waits⟩
    rw [cur]
    exact ⟨within, waits⟩
  · rcases parks.ordered.known_of_step linear ok known with before | published
    · by_cases own : b = k.cur
      · subst own
        rcases returns with goes | asleep
        · exact .inl (goes.placed inv linear (begun on) ok known.going)
        · exact .inr (sleeps asleep)
      · exact (placed on b before).imp (fun there => there.step inv linear ok own) sleeps
    · exact .inl (.inl published.runnable)

/-- A step of the scheduler's interface loses nobody. -/
theorem Complete.sched {l : Label} (complete : k.Complete strict host) (linear : k.toSys.Linear l)
    (undisturbed : k.toSys.Undisturbed l) (begun : strict → k.toSys.Begun l)
    (scheduled : k.Scheduled l k') : k'.Complete strict host := by
  have parks := complete.parks
  have held := complete.held
  have parks' := parks.sched linear undisturbed scheduled
  have inside := parks.inside_of_sched scheduled
  have spared : ∀ b, k.inside b ≠ none → k.toSys.Spared host k'.toSys b := by
    intro b within
    refine parks.ordered.spared parks'.ordered linear ?_ (parks.free b within) scheduled.step
    rintro rfl c clock rfl
    exact within (scheduled.outside rfl)
  obtain ⟨returns, placed⟩ := complete.beside linear begun scheduled.step spared
  refine ⟨parks', ⟨?_, ?_⟩, ?_, ?_⟩
  · rw [inside, scheduled.waiter]
    exact held.claimed
  · rw [inside, scheduled.waiter]
    exact fun q within waiting => held.found q within ((spared q within).waits waiting)
  · rw [Sleeps, inside]
    exact returns
  · simp only [Sleeps, inside]
    exact placed

/-- A step that leaves everybody in the queue, and the others asleep but for whom it wakes. -/
theorem Complete.local (complete : k.Complete strict host) (parks' : k'.Parks host)
    (held' : k'.Held)
    (scheduled : ∀ b, (k'.tasks b).scheduled = true → b = host ∨ (k.tasks b).scheduled = true)
    (stopped : ∀ b, (k'.tasks b).runState = .stopped ↔ (k.tasks b).runState = .stopped)
    (joiner : ∀ b, (k'.tasks b).joiner = (k.tasks b).joiner)
    (queued : ∀ b, some b ∈ k.rq.runqueue → some b ∈ k'.rq.runqueue)
    (cur : k'.Runnable k.cur ∨ k'.Sleeps k.cur)
    (sleeps : ∀ b, b ≠ k.cur → k.Sleeps b → k'.Runnable b ∨ k'.Sleeps b)
    (returns : k'.toSys.Returns ∨ k'.Sleeps k'.cur) : k'.Complete strict host := by
  refine ⟨parks', held', returns, fun on b now => ?_⟩
  by_cases own : b = k.cur
  · exact own ▸ cur.imp_left .inl
  have before : k.toSys.Known host b :=
    ⟨now.known.elim .inl (scheduled b), fun ended => now.going ((stopped b).mpr ended)⟩
  rcases complete.placed on b before with ((same | member) | ⟨t, going, joins⟩) | asleep
  · exact absurd same own
  · exact .inl (.inl (.inr (queued b member)))
  · exact .inl (.inr ⟨t, fun ended => going ((stopped t).mp ended), (joiner t).trans joins⟩)
  · exact (sleeps b own asleep).imp_left .inl

/-- A statement that only moves the running task, which does not wait. -/
theorem Complete.quiet (complete : k.Complete strict host) (parks' : k'.Parks host)
    (held' : k'.Held) (same : k'.toSys = k.toSys)
    (inside : ∀ b, b ≠ k.cur → k'.inside b = k.inside b) (awake : ¬ k.Sleeps k.cur) :
    k'.Complete strict host := by
  have sleeps : ∀ b, b ≠ k.cur → k.Sleeps b → k'.Sleeps b := by
    intro b other asleep
    rw [Sleeps, same, inside b other]
    exact asleep
  have returns := complete.returns.resolve_right awake
  refine complete.local parks' held' ?_ ?_ ?_ ?_ (.inl ?_)
    (fun b other asleep => .inr (sleeps b other asleep)) (.inl ?_)
  all_goals rw [same]
  · exact fun b => .inr
  · exact fun b => Iff.rfl
  · exact fun b => rfl
  · exact fun b => id
  · exact .inl rfl
  · exact returns

/-- A statement of a waiter loses nobody, unless its exchange is stale. -/
theorem Complete.wait {holds : Bool} (complete : k.Complete strict host) (at_ : k.pc = .user)
    (here : k.inside k.cur = some (w, pc)) (fresh : k.stale = false)
    (ok : k.wait w pc clock holds = .ok k') : k'.Complete strict host := by
  have parks := complete.parks
  have parks' := parks.wait at_ here fresh ok
  have held' := complete.held.wait parks at_ here fresh ok
  have awake : pc ≠ .yield → ¬ k.Sleeps k.cur := fun other asleep =>
    parks.going here other asleep.2
  -- Only the running task moves inside the waiters.
  have elsewhere : ∀ {new : Option (WaiterId × WaiterPc Addr)} {b}, b ≠ k.cur →
      update k.inside k.cur new b = k.inside b := fun other => update_of_ne other ..
  obtain ⟨phase, inv⟩ := parks.ordered.order
  cases pc with
  | mark =>
    obtain rfl := Except.ok.inj ok
    have fields : ∀ b, (k.write k.cur (Task.setState .waiting)).tasks b =
        if b = k.cur then (k.tasks k.cur).setState .waiting else k.tasks b :=
      fun b => Sys.write_tasks k.cur (Task.setState .waiting) k.toSys b
    have sleeps : Kernel.Sleeps ({ k with
        toSys := k.write k.cur (Task.setState .waiting) }.advance w .yield) k.cur := by
      refine ⟨?_, ?_⟩
      · show update k.inside k.cur (some (w, .yield)) k.cur ≠ none
        simp
      · show ((k.write k.cur (Task.setState .waiting)).tasks k.cur).runState = .waiting
        rw [fields, if_pos rfl]
        rfl
    refine complete.local parks' held' (fun b => .inr ∘ Eq.trans ?_) (fun b => ?_) (fun b => ?_)
      (fun b => id) (.inr sleeps) (fun b other asleep => .inr ⟨?_, ?_⟩) (.inr sleeps)
    · exact (Sys.write_field Task.scheduled k.cur (Task.setState .waiting) (fun _ => rfl)
        k.toSys b).symm
    · show ((k.write k.cur (Task.setState .waiting)).tasks b).runState = .stopped ↔ _
      rw [fields]
      split_ifs with own
      · rw [own]
        exact ⟨fun ended => (by cases ended), fun ended => absurd ended inv.going⟩
      · exact Iff.rfl
    · exact Sys.write_field Task.joiner k.cur (Task.setState .waiting) (fun _ => rfl) k.toSys b
    · exact (elsewhere other).trans_ne asleep.1
    · show ((k.write k.cur (Task.setState .waiting)).tasks b).runState = .waiting
      rw [fields, if_neg other]
      exact asleep.2
  | yield =>
    obtain ⟨-, s, yields, rfl⟩ := throughNode_ok ok
    have yields : k.toSys.yieldLocked clock .user = .ok s := yields
    have stepped : k.toSys.step (.call .yield clock) = .ok s := by
      rw [Sys.step, if_pos at_]
      exact yields
    have ordered := parks.ordered.step (l := .call .yield clock) trivial trivial stepped
    obtain ⟨returns, placed⟩ := complete.beside (l := .call .yield clock) trivial (fun _ => trivial)
      stepped fun b inside => parks.ordered.spared_call ordered at_ (parks.free b inside) yields
    -- The caller is inside the waiter before and after.
    have sleeps : ∀ {b}, Kernel.Sleeps { k with toSys := s } b →
        Kernel.Sleeps { k.advance w .parked with toSys := s } b := by
      rintro b ⟨within, waiting⟩
      refine ⟨?_, waiting⟩
      show update k.inside k.cur (some (w, .parked)) b ≠ none
      by_cases own : b = k.cur
      · simp [own]
      · exact (elsewhere own).trans_ne within
    exact ⟨parks', held', returns.imp_right sleeps,
      fun on b known => (placed on b known).imp_right sleeps⟩
  | wake q =>
    simp only [Kernel.wait] at ok
    split at ok
    · cases ok
    obtain ⟨-, s, wakes, rfl⟩ := throughNode_ok ok
    obtain ⟨-, rfl⟩ := Sys.wake_ok (s := k.toSys) wakes
    have fields : ∀ b, ((k.modify q (Task.setState .suspended)).schedule q).tasks b = if b = q
        then ((k.tasks q).setState .suspended).enqueue k.rq.minVruntime else k.tasks b := by
      intro b
      by_cases here : b = q
      · simp [Node.schedule, here]
      · simp [Node.schedule, here]
    have perm := (Node.schedule_rq (k.modify q (Task.setState .suspended)) q).1
    have took : takesAt (k.inside k.cur) = some (w, q) := by
      rw [here]
      rfl
    obtain ⟨-, waiting, other, -⟩ := parks.taken k.cur w q took
    have free := (parks.ready took).1
    let n := (k.modify q (Task.setState .suspended)).schedule q
    have scheduled : ∀ b, (n.tasks b).scheduled = true →
        b = host ∨ (k.tasks b).scheduled = true := by
      intro b known
      by_cases target : b = q
      · exact target ▸ free.known
      · rw [fields, if_neg target] at known
        exact .inr known
    have stopped : ∀ b, (n.tasks b).runState = .stopped ↔ (k.tasks b).runState = .stopped := by
      intro b
      rw [fields]
      split_ifs with target
      · rw [target, waiting]
        simp
      · exact Iff.rfl
    have joiner : ∀ b, (n.tasks b).joiner = (k.tasks b).joiner := by
      intro b
      rw [fields]
      split_ifs with target
      · rw [target]
        rfl
      · rfl
    refine complete.local parks' held' scheduled stopped joiner
      (fun b member => perm.mem_iff.mpr (List.mem_cons_of_mem _ member)) (.inl (.inl rfl))
      (fun b own asleep => ?_) (.inl ?_)
    · -- The task that is woken is queued now.
      by_cases target : b = q
      · rw [target]
        exact .inl (.inr (perm.mem_iff.mpr List.mem_cons_self))
      · refine .inr ⟨(elsewhere own).trans_ne asleep.1, ?_⟩
        show (n.tasks b).runState = .waiting
        rw [fields, if_neg target]
        exact asleep.2
    · refine (complete.returns.resolve_right (awake (by simp))).imp ?_ (Or.imp_right ?_)
      · intro running
        show (n.tasks k.cur).runState = .running
        rw [fields, if_neg (Ne.symm other)]
        exact running
      · rintro ⟨t, going, joins⟩
        exact ⟨t, fun ended => going ((stopped t).mp ended), (joiner t).trans joins⟩
  | switch q =>
    obtain ⟨-, s, swaps, rfl⟩ := throughNode_ok ok
    obtain ⟨swapped, -⟩ := Sys.swapTo_swapped (s := k.toSys) swaps
    have took : takesAt (k.inside k.cur) = some (w, q) := by
      rw [here]
      rfl
    obtain ⟨-, waiting, other, -⟩ := parks.taken k.cur w q took
    have runs := swapped.runs parks.ordered.balanced (parks.ready took).1
    have sleeps : Kernel.Sleeps { k.advance w .swapped with toSys := s } k.cur := by
      refine ⟨?_, swapped.left⟩
      show update k.inside k.cur (some (w, .swapped)) k.cur ≠ none
      simp
    refine complete.local parks' held' (fun b => .inr ∘ (swapped.kept b).2.2.2.2.symm.trans)
      (fun b => ?_) (fun b => (swapped.kept b).2.1) (fun b member => ?_) (.inr sleeps)
      (fun b own asleep => ?_) (.inl (.inl ?_))
    · by_cases own : b = k.cur
      · have left := swapped.left
        rw [own]
        exact ⟨fun ended => absurd (left.symm.trans ended) (by simp),
          fun ended => absurd ended inv.going⟩
      · by_cases target : b = q
        · rw [target, waiting]
          exact ⟨fun ended => absurd (runs.symm.trans ended) (by simp), fun ended => by cases ended⟩
        · have state := swapped.state b own target
          exact ⟨state.symm.trans, state.trans⟩
    · exact swapped.rq ▸ member
    · by_cases target : b = q
      · exact .inl (.inl (target.trans swapped.cur.symm))
      · exact .inr ⟨(elsewhere own).trans_ne asleep.1,
          (swapped.state b own target).trans asleep.2⟩
    · rw [show Node.cur _ = q from swapped.cur]
      exact runs
  | _ =>
    -- The other statements leave the system alone.
    have same : k'.toSys = k.toSys ∧ ∃ new, k'.inside = update k.inside k.cur new := by
      simp only [Kernel.wait] at ok
      try split at ok
      all_goals
        rw [← Except.ok.inj ok]
        exact ⟨rfl, _, rfl⟩
    obtain ⟨same, new, inside⟩ := same
    refine complete.quiet parks' held' same (fun b other => ?_) (awake (by simp))
    rw [inside, elsewhere other]

/-- No step loses a task, while prologues are not interrupted and no exchange is stale. -/
theorem Complete.step (complete : k.Complete strict host) (undisturbed : k.Undisturbed l)
    (begun : strict → k.Begun l) (ok : k.step l = .ok k') : k'.Complete strict host := by
  have parks' := complete.parks.step undisturbed ok
  cases l with
  | sched l => exact complete.sched undisturbed.1 undisturbed.2 begun (sched_ok ok)
  | enter w c =>
    simp only [Kernel.step] at ok
    split at ok
    · rename_i out
      rw [← Except.ok.inj ok] at parks' ⊢
      have awake : ¬ k.Sleeps k.cur := fun asleep => asleep.1 out.2
      have held' : Kernel.Held (k.advance w c.pc) := by
        refine complete.held.local (some (w, c.pc)) rfl (fun _ _ => rfl) (by rw [out.2]; rfl)
          (fun m q _ stands => .inl stands) (fun m claimed => ?_) (fun _ waiting => ?_)
        · cases c <;> cases claimed
        · -- Outside the waiters nobody waits in code of the program.
          rcases complete.parks.awake waiting with pauses | inside
          · rw [out.1] at pauses
            cases pauses
          · exact absurd out.2 inside
      exact complete.quiet parks' held' rfl (fun b other => update_of_ne other ..) awake
    · cases ok
  | wait clock holds =>
    simp only [Kernel.step] at ok
    split at ok
    · rename_i at_
      split at ok
      · cases ok
      · rename_i w pc here
        exact complete.wait at_ here undisturbed ok
    · cases ok

/-- Only the host is known right after `start_async`, and it runs. -/
theorem complete_boot (strict : Prop) (host : Addr) (tick : Int) (maxSize : Nat) :
    (boot host tick maxSize).Complete strict host where
  parks := parks_boot host tick maxSize
  held := ⟨fun w q claimed => (by cases claimed), fun q inside => absurd rfl inside⟩
  returns := by
    refine .inl (.inl ?_)
    simp [boot, Sys.start, Node.startAsync, Task.wrapCurrent]
  placed _ b known := by
    refine .inl (.inl (.inl ?_))
    rcases known.known with same | scheduled
    · exact same
    · by_contra other
      have other : b ≠ host := other
      simp [boot, Sys.start, Node.startAsync, other, Task.construct] at scheduled

/-- Where a task can be that the scheduler knows and that has not ended. -/
inductive Spot where
  | running
  | queued
  -- Descheduled by `join` until the task it waits for exits.
  | joining
  -- Asleep in the slot of a waiter, or taken out of it by a task that is about to wake it.
  | parked
  | taken
  deriving DecidableEq, Repr

/-- A task is in a spot. -/
def At (k : Kernel) (b : Addr) : Spot → Prop
  | .running => b = k.cur
  | .queued => k.rq.runqueue.count (some b) = 1
  | .joining => b ≠ k.cur ∧ (k.tasks b).runState = .waiting ∧ k.toSys.Joined b
  | .parked => b ≠ k.cur ∧ (k.tasks b).runState = .waiting ∧ ∃! w, k.waiter w = some b
  | .taken => b ≠ k.cur ∧ (k.tasks b).runState = .waiting ∧
      ∃! c, ∃ w, takesAt (k.inside c) = some (w, b)

/-- Every task is in one spot, and the run queue holds tasks that can run. -/
structure Conserves (host : Addr) (k : Kernel) : Prop where
  spots : ∀ b, k.toSys.Known host b → ∃! spot, k.At b spot
  nodup : k.rq.runqueue.Nodup
  nonNull : none ∉ k.rq.runqueue
  going : ∀ b, some b ∈ k.rq.runqueue → (k.tasks b).runState ≠ .stopped

/-- A task in a join is not inside a waiter. -/
theorem Parks.unjoined (parks : k.Parks host) (inside : k.inside b ≠ none) :
    ¬ k.toSys.Joined b := by
  rintro ⟨t, going, joins⟩
  obtain ⟨phase, inv⟩ := parks.ordered.order
  obtain ⟨-, -, -, h, wanted, joining, -⟩ := Sys.joining_of_joiner inv going joins
  have here : k.toSys.at_ b = .user := (parks.free b inside).at_
  rcases joining with yielding | ⟨taking, -⟩
  · exact absurd (yielding.symm.trans here) (by simp)
  · exact absurd (taking.symm.trans here) (by simp)

/-- A task that stands in a slot is inside its waiter. -/
theorem Parks.inside_ne (parks : k.Parks host) (stands : k.waiter w = some b) :
    k.inside b ≠ none := by
  obtain ⟨pc, at_⟩ := parks.inside_of_slot stands
  simp [at_]

/-- Whoever can be found, or sleeps in a waiter, is in one spot. -/
theorem Complete.conserves (complete : k.Complete True host) : k.Conserves host := by
  have parks := complete.parks
  obtain ⟨phase, inv⟩ := parks.ordered.order
  obtain ⟨idle, nodup⟩ := List.nodup_cons.mp inv.queues.nodup
  have idle : some k.cur ∉ k.rq.runqueue := idle
  refine ⟨fun b known => ?_, nodup, inv.queues.nonNull,
    fun b member => (inv.queues.live b member).2⟩
  have queued : k.At b .queued → some b ∈ k.rq.runqueue := fun once =>
    List.count_pos_iff.mp (Nat.lt_of_lt_of_eq Nat.one_pos once.symm)
  by_cases here : b = k.cur
  · refine ⟨.running, here, ?_⟩
    rintro (_ | _ | _ | _ | _) there
    · rfl
    · exact absurd (here ▸ queued there) idle
    · exact absurd here there.1
    · exact absurd here there.1
    · exact absurd here there.1
  by_cases member : some b ∈ k.rq.runqueue
  · -- Whoever waits is off the queue.
    have awake : k.inside b ≠ none → (k.tasks b).runState ≠ .waiting := fun inside waiting =>
      (parks.asleep b inside waiting).2.1 member
    refine ⟨.queued, List.count_eq_one_of_mem nodup member, ?_⟩
    rintro (_ | _ | _ | _ | _) there
    · exact absurd there here
    · rfl
    · obtain ⟨-, -, t, going, joins⟩ := there
      exact absurd member (Sys.joining_of_joiner inv going joins).2.2.1
    · obtain ⟨-, waiting, w, stands, -⟩ := there
      exact absurd waiting (awake (parks.inside_ne stands))
    · obtain ⟨-, waiting, c, ⟨w, took⟩, -⟩ := there
      exact absurd waiting (awake (parks.taken c w b took).1)
  by_cases joined : k.toSys.Joined b
  · have waiting : (k.tasks b).runState = .waiting := by
      obtain ⟨t, going, joins⟩ := joined
      exact (Sys.joining_of_joiner inv going joins).1
    refine ⟨.joining, ⟨here, waiting, joined⟩, ?_⟩
    rintro (_ | _ | _ | _ | _) there
    · exact absurd there here
    · exact absurd (queued there) member
    · rfl
    · obtain ⟨-, -, w, stands, -⟩ := there
      exact absurd joined (parks.unjoined (parks.inside_ne stands))
    · obtain ⟨-, -, c, ⟨w, took⟩, -⟩ := there
      exact absurd joined (parks.unjoined (parks.taken c w b took).1)
  obtain ⟨inside, waiting⟩ : k.Sleeps b := by
    refine (complete.placed trivial b known).resolve_left ?_
    rintro ((same | inQueue) | waits)
    · exact here same
    · exact member inQueue
    · exact joined waits
  rcases complete.held.found b inside waiting with ⟨w, stands⟩ | ⟨c, w, took⟩
  · refine ⟨.parked, ⟨here, waiting, w, stands, fun m there => parks.one_slot stands there⟩, ?_⟩
    rintro (_ | _ | _ | _ | _) there
    · exact absurd there here
    · exact absurd (queued there) member
    · exact absurd there.2.2 joined
    · rfl
    · obtain ⟨-, -, c, ⟨m, took⟩, -⟩ := there
      exact absurd stands ((parks.taken c m b took).2.2.2 w)
  · have alone : ∃! c, ∃ w, takesAt (k.inside c) = some (w, b) := by
      refine ⟨c, ⟨w, took⟩, ?_⟩
      rintro c' ⟨w', took'⟩
      exact parks.unique c' c w' w b took' took
    refine ⟨.taken, ⟨here, waiting, alone⟩, ?_⟩
    rintro (_ | _ | _ | _ | _) there
    · exact absurd there here
    · exact absurd (queued there) member
    · exact absurd there.2.2 joined
    · obtain ⟨-, -, m, stands, -⟩ := there
      exact absurd stands ((parks.taken c w b took).2.2.2 m)
    · rfl

end Kernel

end Gthread

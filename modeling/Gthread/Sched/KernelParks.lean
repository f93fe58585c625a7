import Gthread.Concur.Lot
import Gthread.Sched.SchedSpared

/-! Tasks inside waiters on the kernel thread: who stands in a slot, sleeps, or is taken. -/

namespace Gthread

open Function (update update_of_ne update_self)

namespace Kernel

open Lot (claimsAt waitsAt takesAt)

variable {k k' : Kernel} {l : KernelLabel} {clock : Clock} {w : WaiterId} {pc : WaiterPc Addr}
  {b q host : Addr} {tick : Int} {maxSize : Nat}

/-- Tasks inside waiters are in code of the program, and whoever was taken sleeps. -/
structure Parks (host : Addr) (k : Kernel) : Prop where
  ordered : k.toSys.Disciplined host
  free : ∀ b, k.inside b ≠ none → k.toSys.Free host b
  home : ∀ w q, k.waiter w = some q → claimsAt (k.inside q) = some w ∨
    (waitsAt (k.inside q) = some w ∧ (k.tasks q).runState = .waiting)
  asleep : ∀ q, k.inside q ≠ none → (k.tasks q).runState = .waiting →
    (∃ w, waitsAt (k.inside q) = some w) ∧ some q ∉ k.rq.runqueue ∧
      (q = k.cur → ∃ w, k.inside q = some (w, .yield))
  awake : (k.tasks k.cur).runState = .waiting → k.pc.base.pauses = true ∨ k.inside k.cur ≠ none
  -- Whoever was taken is out of every slot, and one task alone has taken it.
  taken : ∀ b w q, takesAt (k.inside b) = some (w, q) → k.inside q ≠ none ∧
    (k.tasks q).runState = .waiting ∧ q ≠ k.cur ∧ ∀ m, k.waiter m ≠ some q
  unique : ∀ b b' w w' q, takesAt (k.inside b) = some (w, q) →
    takesAt (k.inside b') = some (w', q) → b = b'

/-- A task that was taken out of a slot can be woken, or switched to. -/
theorem Parks.ready (parks : k.Parks host) (took : takesAt (k.inside b) = some (w, q)) :
    k.toSys.Free host q ∧ ¬ k.Runnable q := by
  obtain ⟨inside, waiting, other, -⟩ := parks.taken b w q took
  refine ⟨parks.free q inside, ?_⟩
  rintro (same | queued)
  · exact other same
  · exact (parks.asleep q inside waiting).2.1 queued

/-- A running task that is not about to yield does not wait. -/
theorem Parks.going (parks : k.Parks host) (at_ : k.inside k.cur = some (w, pc))
    (other : pc ≠ .yield) : (k.tasks k.cur).runState ≠ .waiting := by
  intro waiting
  obtain ⟨-, -, yields⟩ := parks.asleep k.cur (by simp [at_]) waiting
  obtain ⟨m, there⟩ := yields rfl
  rw [at_] at there
  exact other (Prod.mk.inj (Option.some.inj there)).2

/-- A step of the system that leaves the tasks inside waiters alone. -/
theorem Parks.beside {s' : Sys} (parks : k.Parks host) (ordered : s'.Disciplined host)
    (awake : (s'.tasks s'.cur).runState = .waiting →
      s'.pc.base.pauses = true ∨ k.inside s'.cur ≠ none)
    (spared : ∀ b, k.inside b ≠ none → k.toSys.Spared host s' b) :
    Kernel.Parks host { k with toSys := s' } where
  ordered := ordered
  free b inside := (spared b inside).free
  home w q stands := by
    rcases parks.home w q stands with claims | ⟨sleeps, waiting⟩
    · exact .inl claims
    · have inside : k.inside q ≠ none := by
        intro out
        rw [out] at sleeps
        cases sleeps
      have off := (parks.asleep q inside waiting).2.1
      exact .inr ⟨sleeps, ((spared q inside).sleeps waiting off).1⟩
  asleep q inside waiting := by
    have before := (spared q inside).waits waiting
    obtain ⟨sleeps, off, yields⟩ := parks.asleep q inside before
    obtain ⟨-, off', same⟩ := (spared q inside).sleeps before off
    exact ⟨sleeps, off', fun here => yields (same here)⟩
  awake := awake
  taken b w q took := by
    obtain ⟨inside, waiting, other, out⟩ := parks.taken b w q took
    obtain ⟨waiting', -, same⟩ :=
      (spared q inside).sleeps waiting (parks.asleep q inside waiting).2.1
    exact ⟨inside, waiting', fun here => other (same here), out⟩
  unique := parks.unique

/-- A task that is inside a waiter and runs is in code of the program. -/
theorem Parks.base (parks : k.Parks host) (inside : k.inside k.cur ≠ none) :
    k.pc.base = .user :=
  (Sys.at_cur k.toSys).symm.trans (parks.free k.cur inside).at_

/-- A step of the scheduler's interface leaves everybody inside the waiters where they are. -/
theorem Parks.inside_of_sched {l : Label} (parks : k.Parks host) (scheduled : k.Scheduled l k') :
    k'.inside = k.inside := by
  rw [scheduled.inside]
  split_ifs with begins
  · -- A task that begins is inside no waiter yet.
    have out : k.inside k.cur = none := by
      by_contra inside
      have user := parks.base inside
      rw [begins.2] at user
      cases user
    rw [← out, Function.update_eq_self]
  · rfl

/-- A task in a slot is inside that waiter. -/
theorem Parks.inside_of_slot (parks : k.Parks host) (stands : k.waiter w = some q) :
    ∃ pc, k.inside q = some (w, pc) := by
  rcases parks.home w q stands with claims | ⟨waits, -⟩
  · obtain ⟨pc, at_, -⟩ := Lot.claimsAt_eq_some claims
    exact ⟨pc, at_⟩
  · obtain ⟨pc, at_, -⟩ := Lot.waitsAt_eq_some waits
    exact ⟨pc, at_⟩

/-- So it is in no other slot. -/
theorem Parks.one_slot {m : WaiterId} (parks : k.Parks host) (stands : k.waiter w = some q)
    (stands' : k.waiter m = some q) : m = w := by
  obtain ⟨pc, at_⟩ := parks.inside_of_slot stands
  obtain ⟨pc', at'⟩ := parks.inside_of_slot stands'
  rw [at_] at at'
  exact (Prod.mk.inj (Option.some.inj at')).1.symm

/-- A statement that lets the system be, but for the run state of the task that takes it. -/
theorem Parks.local (parks : k.Parks host) (new : Option (WaiterId × WaiterPc Addr))
    (ordered : k'.toSys.Disciplined host) (cur : k'.cur = k.cur) (queue : k'.rq = k.rq)
    (state : ∀ q, q ≠ k.cur → (k'.tasks q).runState = (k.tasks q).runState)
    (free : ∀ b, k.toSys.Free host b → k'.toSys.Free host b) (base : k.pc.base = .user)
    (inside : k'.inside = update k.inside k.cur new)
    (slot : ∀ m q, q ≠ k.cur → k'.waiter m = some q → k.waiter m = some q)
    (home : ∀ m, k'.waiter m = some k.cur → claimsAt new = some m ∨
      (waitsAt new = some m ∧ (k'.tasks k.cur).runState = .waiting))
    (asleep : (k'.tasks k.cur).runState = .waiting → ∃ m, new = some (m, .yield))
    (takes : ∀ m q, takesAt new = some (m, q) → k.waiter m = some q ∧
      (k.tasks q).runState = .waiting ∧ q ≠ k.cur ∧ k'.waiter m ≠ some q) : k'.Parks host := by
  obtain ⟨phase, inv⟩ := parks.ordered.order
  have others : ∀ {q}, q ≠ k.cur → k'.inside q = k.inside q := by
    intro q other
    rw [inside, update_of_ne other]
  have own : k'.inside k.cur = new := by rw [inside, update_self]
  constructor
  case ordered => exact ordered
  case free =>
    intro b within
    by_cases here : b = k.cur
    · subst here
      exact free _ (parks.ordered.free_cur base)
    · exact free b (parks.free b (others here ▸ within))
  case home =>
    intro m q stands
    by_cases here : q = k.cur
    · subst here
      rw [own]
      exact home m stands
    · rw [others here, state q here]
      exact parks.home m q (slot m q here stands)
  case asleep =>
    intro q within waiting
    by_cases here : q = k.cur
    · subst here
      rw [own] at within ⊢
      obtain ⟨m, yields⟩ := asleep waiting
      rw [yields, queue]
      exact ⟨⟨m, rfl⟩, (List.nodup_cons.mp inv.queues.nodup).1, fun _ => ⟨m, rfl⟩⟩
    · rw [others here] at within ⊢
      rw [queue]
      obtain ⟨sleeps, off, -⟩ := parks.asleep q within ((state q here).symm.trans waiting)
      exact ⟨sleeps, off, fun same => absurd (same.trans cur) here⟩
  case awake =>
    intro waiting
    rw [cur] at waiting
    obtain ⟨m, yields⟩ := asleep waiting
    right
    rw [cur, own, yields]
    simp
  case taken =>
    intro b m q took
    by_cases here : b = k.cur
    · subst here
      rw [own] at took
      obtain ⟨stood, waiting, other, gone⟩ := takes m q took
      obtain ⟨pc, at_⟩ := parks.inside_of_slot stood
      refine ⟨by simp [others other, at_], (state q other).trans waiting,
        fun same => other (same.trans cur), fun m' stands => ?_⟩
      obtain rfl := parks.one_slot stood (slot m' q other stands)
      exact gone stands
    · rw [others here] at took
      obtain ⟨within, waiting, other, out⟩ := parks.taken b m q took
      exact ⟨by rwa [others other], (state q other).trans waiting,
        fun same => other (same.trans cur), fun m' stands => out m' (slot m' q other stands)⟩
  case unique =>
    -- Whom the running task takes stands in a slot, so nobody has taken it before.
    have fresh : ∀ {b m m' q}, b ≠ k.cur → takesAt (k.inside b) = some (m, q) →
        takesAt new ≠ some (m', q) := by
      intro b m m' q other took took'
      exact (parks.taken b m q took).2.2.2 m' (takes m' q took').1
    intro b b' m m' q took took'
    by_cases here : b = k.cur
    · by_cases here' : b' = k.cur
      · exact here.trans here'.symm
      · rw [others here'] at took'
        rw [here, own] at took
        exact absurd took (fresh here' took')
    · rw [others here] at took
      by_cases here' : b' = k.cur
      · rw [here', own] at took'
        exact absurd took' (fresh here took)
      · rw [others here'] at took'
        exact parks.unique b b' m m' q took took'

/-- The task that yields in `park_if` has given up the processor if it waits. -/
theorem Parks.parked {a : Addr} (parks : k.Parks host) (at_ : k.inside a = some (w, .yield))
    (away : (k.tasks a).runState = .waiting → k.cur ≠ a) :
    Kernel.Parks host { k with inside := update k.inside a (some (w, .parked)) } := by
  -- Both statements stand and take alike.
  have claims : ∀ q,
      claimsAt (update k.inside a (some (w, .parked)) q) = claimsAt (k.inside q) := by
    intro q
    by_cases here : q = a
    · subst here
      simp [at_, claimsAt, Waiter.claims]
    · rw [update_of_ne here]
  have waits : ∀ q, waitsAt (update k.inside a (some (w, .parked)) q) = waitsAt (k.inside q) := by
    intro q
    by_cases here : q = a
    · subst here
      simp [at_, waitsAt, Waiter.waits]
    · rw [update_of_ne here]
  have takes : ∀ q, takesAt (update k.inside a (some (w, .parked)) q) = takesAt (k.inside q) := by
    intro q
    by_cases here : q = a
    · subst here
      simp [at_, takesAt, Waiter.takes]
    · rw [update_of_ne here]
  have within : ∀ q, update k.inside a (some (w, .parked)) q ≠ none ↔ k.inside q ≠ none := by
    intro q
    by_cases here : q = a
    · subst here
      simp [at_]
    · rw [update_of_ne here]
  constructor
  case ordered => exact parks.ordered
  case free => exact fun b inside => parks.free b ((within b).mp inside)
  case home =>
    intro m q stands
    simp only [claims, waits]
    exact parks.home m q stands
  case asleep =>
    intro q inside waiting
    obtain ⟨sleeps, off, yields⟩ := parks.asleep q ((within q).mp inside) waiting
    simp only [waits]
    refine ⟨sleeps, off, fun here => ?_⟩
    by_cases same : q = a
    · subst same
      exact absurd here.symm (away waiting)
    · rw [update_of_ne same]
      exact yields here
  case awake => exact fun waiting => (parks.awake waiting).imp_right (within _).mpr
  case taken =>
    intro b m q took
    simp only [takes] at took
    obtain ⟨inside, rest⟩ := parks.taken b m q took
    exact ⟨(within q).mpr inside, rest⟩
  case unique =>
    intro b b' m m' q took took'
    simp only [takes] at took took'
    exact parks.unique b b' m m' q took took'

/-- When the running task lets go of whom it took, the others keep theirs. -/
theorem Parks.still_taken {m : WaiterId} {t : Addr} (parks : k.Parks host)
    (new : Option (WaiterId × WaiterPc Addr)) (took : takesAt (k.inside k.cur) = some (w, q))
    (nobody : takesAt new = none) (still : takesAt (update k.inside k.cur new b) = some (m, t)) :
    takesAt (k.inside b) = some (m, t) ∧ t ≠ q ∧ t ≠ k.cur ∧
      update k.inside k.cur new t ≠ none ∧ (k.tasks t).runState = .waiting ∧
      ∀ n, k.waiter n ≠ some t := by
  have elsewhere : b ≠ k.cur := by
    rintro rfl
    rw [update_self, nobody] at still
    cases still
  rw [update_of_ne elsewhere] at still
  obtain ⟨inside, waiting, other, out⟩ := parks.taken b m t still
  have apart : t ≠ q := by
    rintro rfl
    exact elsewhere (parks.unique b k.cur m w t still took)
  exact ⟨still, apart, other, by rwa [update_of_ne other], waiting, out⟩

/-- The task that was taken is woken, and the one that took it returns. -/
theorem Parks.wake {s' : Sys} (parks : k.Parks host) (at_ : k.pc = .user)
    (here : k.inside k.cur = some (w, .wake q)) (ok : k.toSys.wake q = .ok s') :
    Kernel.Parks host { k.leave with toSys := s' } := by
  have took : takesAt (k.inside k.cur) = some (w, q) := by
    rw [here]
    rfl
  obtain ⟨free, off⟩ := parks.ready took
  obtain ⟨-, -, other, out⟩ := parks.taken k.cur w q took
  have roused := Sys.wake_roused ok
  have others : ∀ {b}, b ≠ k.cur → update k.inside k.cur none b = k.inside b := fun other =>
    update_of_ne other ..
  have state : ∀ {b}, b ≠ q → (s'.tasks b).runState = (k.tasks b).runState := by
    intro b apart
    rw [roused.state, if_neg apart]
  -- The task that returns is inside no waiter any more.
  have left : ∀ {b}, update k.inside k.cur none b ≠ none → b ≠ k.cur := by
    rintro b inside rfl
    exact inside (update_self ..)
  constructor
  case ordered => exact parks.ordered.wake at_ free off ok
  case free => exact fun b inside => (parks.free b (others (left inside) ▸ inside)).rouse roused
  case home =>
    intro m b stands
    have stood : k.waiter m = some b := stands
    have apart : b ≠ q := by
      rintro rfl
      exact out m stood
    have elsewhere : b ≠ k.cur := by
      rintro rfl
      rcases parks.home m k.cur stood with claims | ⟨waits, -⟩ <;>
        simp [here, claimsAt, Waiter.claims, waitsAt, Waiter.waits] at *
    have home := parks.home m b stood
    rw [← others elsewhere, ← state apart] at home
    exact home
  case asleep =>
    intro b inside waiting
    have elsewhere := left inside
    have apart : b ≠ q := by
      rintro rfl
      have suspended := roused.state b
      rw [if_pos rfl] at suspended
      exact absurd (suspended.symm.trans waiting) (by simp)
    have before : k.inside b ≠ none := others elsewhere ▸ inside
    obtain ⟨sleeps, rest, -⟩ := parks.asleep b before ((state apart).symm.trans waiting)
    refine ⟨?_, fun queued => ?_, fun same => absurd (same.trans roused.cur) elsewhere⟩
    · rw [← others elsewhere] at sleeps
      exact sleeps
    · exact (roused.queued b queued).elim apart rest
  case awake =>
    intro waiting
    have waiting : (s'.tasks s'.cur).runState = .waiting := waiting
    rw [roused.cur, state other.symm] at waiting
    exact absurd waiting (parks.going here (by simp))
  case taken =>
    intro b m t still
    obtain ⟨-, apart, notCur, inside, waiting, gone⟩ :=
      parks.still_taken none took rfl still
    exact ⟨inside, (state apart).trans waiting, fun same => notCur (same.trans roused.cur), gone⟩
  case unique =>
    intro b b' m m' t first second
    have member := (parks.still_taken none took rfl first).1
    have member' := (parks.still_taken none took rfl second).1
    exact parks.unique b b' m m' t member member'

/-- The task that was taken takes over from the one that took it. -/
theorem Parks.swap {s' : Sys} (parks : k.Parks host) (at_ : k.pc = .user)
    (here : k.inside k.cur = some (w, .switch q)) (ok : k.toSys.swapTo q clock = .ok s') :
    Kernel.Parks host { k.advance w .swapped with toSys := s' } := by
  have took : takesAt (k.inside k.cur) = some (w, q) := by
    rw [here]
    rfl
  obtain ⟨phase, inv⟩ := parks.ordered.order
  obtain ⟨free, off⟩ := parks.ready took
  obtain ⟨-, -, other, out⟩ := parks.taken k.cur w q took
  obtain ⟨swapped, -⟩ := Sys.swapTo_swapped ok
  have base : k.pc.base = .user := by
    rw [at_]
    rfl
  have ordered := parks.ordered.swap at_ free off ok
  have others : ∀ {b}, b ≠ k.cur →
      update k.inside k.cur (some (w, .swapped)) b = k.inside b :=
        fun other => update_of_ne other ..
  have own : update k.inside k.cur (some (w, .swapped)) k.cur = some (w, .swapped) := update_self ..
  have runs := swapped.runs parks.ordered.balanced free
  constructor
  case ordered => exact ordered
  case free =>
    intro b inside
    have before : k.toSys.Free host b := by
      by_cases same : b = k.cur
      · exact same ▸ parks.ordered.free_cur base
      · exact parks.free b (others same ▸ inside)
    exact before.swap swapped base runs
  case home =>
    intro m b stands
    have stood : k.waiter m = some b := stands
    have apart : b ≠ q := by
      rintro rfl
      exact out m stood
    by_cases same : b = k.cur
    · obtain ⟨pc, inside⟩ := parks.inside_of_slot stood
      rw [same, here] at inside
      obtain rfl : w = m := (Prod.mk.inj (Option.some.inj inside)).1
      refine .inr ⟨?_, same ▸ swapped.left⟩
      show waitsAt (update k.inside k.cur (some (w, .swapped)) b) = some w
      rw [same, own]
      rfl
    · have home := parks.home m b stood
      rw [← others same, ← swapped.state b same apart] at home
      exact home
  case asleep =>
    intro b inside waiting
    have apart : b ≠ q := by
      rintro rfl
      rw [runs] at waiting
      cases waiting
    have elsewhere : b ≠ s'.cur := swapped.cur ▸ apart
    show (∃ m, waitsAt (update k.inside k.cur (some (w, .swapped)) b) = some m) ∧
      some b ∉ s'.rq.runqueue ∧ _
    rw [swapped.rq]
    by_cases same : b = k.cur
    · rw [same, own]
      exact ⟨⟨w, rfl⟩, (List.nodup_cons.mp inv.queues.nodup).1,
        fun now => absurd now (same ▸ elsewhere)⟩
    · have before : k.inside b ≠ none := others same ▸ inside
      have slept := (swapped.state b same apart).symm.trans waiting
      obtain ⟨sleeps, rest, -⟩ := parks.asleep b before slept
      rw [others same]
      exact ⟨sleeps, rest, fun now => absurd now elsewhere⟩
  case awake =>
    intro waiting
    have waiting : (s'.tasks s'.cur).runState = .waiting := waiting
    rw [swapped.cur, runs] at waiting
    cases waiting
  case taken =>
    intro b m t still
    obtain ⟨-, apart, notCur, inside, waiting, gone⟩ :=
      parks.still_taken (some (w, .swapped)) took rfl still
    exact ⟨inside, (swapped.state t notCur apart).trans waiting,
      fun now => apart (now.trans swapped.cur), gone⟩
  case unique =>
    intro b b' m m' t first second
    have member := (parks.still_taken (some (w, .swapped)) took rfl first).1
    have member' := (parks.still_taken (some (w, .swapped)) took rfl second).1
    exact parks.unique b b' m m' t member member'

/-- A running task outside the statements that claim a slot is in none. -/
theorem Parks.off_slots (parks : k.Parks host) (here : k.inside k.cur = some (w, pc))
    (unclaimed : Waiter.claims (some pc) = false) (other : pc ≠ .yield) (m : WaiterId) :
    k.waiter m ≠ some k.cur := by
  intro stands
  rcases parks.home m k.cur stands with claims | ⟨-, waiting⟩
  · obtain ⟨pc', at_, claims'⟩ := Lot.claimsAt_eq_some claims
    rw [here] at at_
    obtain rfl := (Prod.mk.inj (Option.some.inj at_)).2
    rw [unclaimed] at claims'
    cases claims'
  · exact parks.going here other waiting

/-- Such a task returns, or goes on to a statement that takes nobody. -/
theorem Parks.onward {new : Option (WaiterId × WaiterPc Addr)} (parks : k.Parks host)
    (at_ : k.pc = .user) (here : k.inside k.cur = some (w, pc))
    (unclaimed : Waiter.claims (some pc) = false) (other : pc ≠ .yield)
    (nobody : takesAt new = none) :
    Kernel.Parks host { k with inside := update k.inside k.cur new } := by
  refine parks.local new parks.ordered rfl rfl (fun _ _ => rfl) (fun _ => id)
    (by rw [at_]; rfl) rfl (fun _ _ _ => id) (fun m stands => ?_) (fun waiting => ?_)
    (fun m q took => ?_)
  · exact absurd stands (parks.off_slots here unclaimed other m)
  · exact absurd waiting (parks.going here other)
  · rw [nobody] at took
    cases took

/-- The exchange about to be made would succeed, on a task that no longer waits. -/
def stale (k : Kernel) : Bool :=
  match k.inside k.cur with
  | some (w, .cas q) | some (w, .swapCas q) =>
    k.waiter w = some q ∧ (k.tasks q).runState ≠ .waiting
  | _ => false

/-- An exchange that takes a task takes it off the processor, and out of its slot. -/
theorem Parks.takes {new : WaiterPc Addr} {t : TaskPtr} (parks : k.Parks host) (at_ : k.pc = .user)
    (here : k.inside k.cur = some (w, pc)) (unclaimed : Waiter.claims (some pc) = false)
    (awake : Waiter.waits (some pc) = false) (stood : k.waiter w = some q)
    (waiting : (k.tasks q).runState = .waiting) (takes : Waiter.takes (some new) = some q)
    (claims : t = none ∨ (t = some k.cur ∧ Waiter.claims (some new) = true)) :
    ((k.store w t).advance w new).Parks host := by
  have other : pc ≠ .yield := by
    rintro rfl
    cases awake
  have elsewhere : q ≠ k.cur := by
    rintro rfl
    exact parks.going here other waiting
  refine parks.local (some (w, new)) parks.ordered rfl rfl (fun _ _ => rfl) (fun _ => id)
    (by rw [at_]; rfl) rfl (fun m b notCur stands => ?_) (fun m stands => ?_)
    (fun waits => absurd waits (parks.going here other)) (fun m b took => ?_)
  · have stands : update k.waiter w t m = some b := stands
    by_cases same : m = w
    · rw [same, update_self] at stands
      rcases claims with rfl | ⟨rfl, -⟩
      · cases stands
      · exact absurd (Option.some.inj stands).symm notCur
    · rwa [update_of_ne same] at stands
  · have stands : update k.waiter w t m = some k.cur := stands
    by_cases same : m = w
    · rw [same, update_self] at stands
      rcases claims with rfl | ⟨-, stays⟩
      · cases stands
      · exact .inl (by simp [claimsAt, stays, same])
    · rw [update_of_ne same] at stands
      exact absurd stands (parks.off_slots here unclaimed other m)
  · obtain ⟨rfl, rfl⟩ : m = w ∧ b = q := by
      simp only [takesAt, takes, Option.map_some, Option.some.injEq, Prod.mk.injEq] at took
      exact ⟨took.1.symm, took.2.symm⟩
    refine ⟨stood, waiting, elsewhere, fun stands => ?_⟩
    have stands : update k.waiter m t m = some b := stands
    rw [update_self] at stands
    rcases claims with rfl | ⟨rfl, -⟩
    · cases stands
    · exact elsewhere (Option.some.inj stands).symm

/-- A statement of a waiter keeps the invariant, unless its exchange is stale. -/
theorem Parks.wait {holds : Bool} (parks : k.Parks host) (at_ : k.pc = .user)
    (here : k.inside k.cur = some (w, pc)) (fresh : k.stale = false)
    (ok : k.wait w pc clock holds = .ok k') : k'.Parks host := by
  have base : k.pc.base = .user := by
    rw [at_]
    rfl
  -- A statement that stands in the slot before and after, and takes nobody.
  have stands : ∀ {pc' : WaiterPc Addr}, Waiter.claims (some pc) = true → pc ≠ .yield →
      Waiter.claims (some pc') = true → Waiter.takes (some pc') = none →
      (k.advance w pc').Parks host := by
    intro pc' claims other claims' nobody
    refine parks.local (some (w, pc')) parks.ordered rfl rfl (fun _ _ => rfl) (fun _ => id)
      base rfl (fun _ _ _ => id) (fun m stood => ?_) (fun waiting => ?_) (fun m q took => ?_)
    · obtain ⟨pc₁, inside⟩ := parks.inside_of_slot stood
      rw [here] at inside
      exact .inl (by simp [claimsAt, claims', (Prod.mk.inj (Option.some.inj inside)).1])
    · exact absurd waiting (parks.going here other)
    · simp [takesAt, nobody] at took
  cases pc with
  | claim =>
    simp only [Kernel.wait] at ok
    split at ok
    · rename_i empty
      rw [← Except.ok.inj ok]
      refine parks.local (some (w, .check)) parks.ordered rfl rfl (fun _ _ => rfl)
        (fun _ => id) base rfl (fun m q other stood => ?_) (fun m stood => ?_)
        (fun waiting => absurd waiting (parks.going here (by simp)))
        (fun m q took => by cases took)
      · have stood : update k.waiter w (some k.cur) m = some q := stood
        by_cases same : m = w
        · rw [same, update_self] at stood
          exact absurd (Option.some.inj stood).symm other
        · rwa [update_of_ne same] at stood
      · have stood : update k.waiter w (some k.cur) m = some k.cur := stood
        by_cases same : m = w
        · exact .inl (same ▸ rfl)
        · rw [update_of_ne same] at stood
          exact absurd stood (parks.off_slots here rfl (by simp) m)
    · rw [← Except.ok.inj ok]
      exact parks.onward at_ here rfl (by simp) rfl
  | check =>
    rw [← Except.ok.inj ok]
    cases holds with
    | false => exact stands rfl (by simp) rfl rfl
    | true => exact stands rfl (by simp) rfl rfl
  | release =>
    rw [← Except.ok.inj ok]
    refine parks.local none parks.ordered rfl rfl (fun _ _ => rfl) (fun _ => id) base rfl
      (fun m q other stood => ?_) (fun m stood => ?_)
      (fun waiting => absurd waiting (parks.going here (by simp)))
      (fun m q took => by cases took)
    · have stood : update k.waiter w none m = some q := stood
      by_cases same : m = w
      · rw [same, update_self] at stood
        cases stood
      · rwa [update_of_ne same] at stood
    · have stood : update k.waiter w none m = some k.cur := stood
      by_cases same : m = w
      · rw [same, update_self] at stood
        cases stood
      · rw [update_of_ne same] at stood
        obtain ⟨pc', inside⟩ := parks.inside_of_slot stood
        rw [here] at inside
        exact absurd (Prod.mk.inj (Option.some.inj inside)).1.symm same
  | mark =>
    rw [← Except.ok.inj ok]
    have fields : ∀ b, (k.write k.cur (Task.setState .waiting)).tasks b =
        if b = k.cur then (k.tasks k.cur).setState .waiting else k.tasks b :=
      fun b => Sys.write_tasks k.cur (Task.setState .waiting) k.toSys b
    have waits : ((k.write k.cur (Task.setState .waiting)).tasks k.cur).runState = .waiting := by
      rw [fields, if_pos rfl]
      rfl
    refine parks.local (some (w, .yield)) (parks.ordered.mark at_) rfl rfl
      (fun q other => ?_) (fun b free => free.mark) base rfl (fun _ _ _ => id) (fun m stood => ?_)
      (fun _ => ⟨w, rfl⟩) (fun m q took => by cases took)
    · exact congrArg Task.runState ((fields q).trans (if_neg other))
    · obtain ⟨pc', inside⟩ := parks.inside_of_slot stood
      rw [here] at inside
      rw [← (Prod.mk.inj (Option.some.inj inside)).1]
      exact .inr ⟨rfl, waits⟩
  | yield =>
    obtain ⟨-, s, yields, rfl⟩ := throughNode_ok ok
    have yields : k.toSys.yieldLocked clock .user = .ok s := yields
    have stepped : k.toSys.step (.call .yield clock) = .ok s := by
      rw [Sys.step, if_pos at_]
      exact yields
    have ordered := parks.ordered.step (l := .call .yield clock) trivial trivial stepped
    obtain ⟨own, away⟩ := parks.ordered.spared_yield base rfl yields
    have awake : (s.tasks s.cur).runState = .waiting → s.pc.base.pauses = true ∨
        k.inside s.cur ≠ none := by
      intro waiting
      by_cases same : s.cur = k.cur
      · exact absurd same (away (own.waits (same ▸ waiting)))
      · obtain ⟨phase, inv⟩ := parks.ordered.order
        have foreign := Sys.foreign_of_yieldLocked inv yields same
        rcases parks.ordered.entered inv same foreign with running | prologue
        · rw [waiting] at running
          cases running
        · rw [prologue]
          exact .inl rfl
    have beside := parks.beside ordered awake fun b inside =>
      parks.ordered.spared_call ordered at_ (parks.free b inside) yields
    exact beside.parked here fun waiting => away (own.waits waiting)
  | parked =>
    rw [← Except.ok.inj ok]
    exact parks.onward at_ here rfl (by simp) rfl
  | wake q =>
    simp only [Kernel.wait] at ok
    split at ok
    · cases ok
    · obtain ⟨-, s, wakes, rfl⟩ := throughNode_ok ok
      exact parks.wake at_ here wakes
  | cas q =>
    simp only [Kernel.wait] at ok
    split at ok
    · rename_i stood
      rw [← Except.ok.inj ok]
      have waiting : (k.tasks q).runState = .waiting := by
        simpa [stale, here, stood] using fresh
      exact parks.takes at_ here rfl rfl stood waiting rfl (.inl rfl)
    · rw [← Except.ok.inj ok]
      exact parks.onward at_ here rfl (by simp) rfl
  | swapCas q =>
    simp only [Kernel.wait] at ok
    split at ok
    · rename_i stood
      rw [← Except.ok.inj ok]
      have waiting : (k.tasks q).runState = .waiting := by
        simpa [stale, here, stood] using fresh
      exact parks.takes at_ here rfl rfl stood waiting rfl (.inr ⟨rfl, rfl⟩)
    · rw [← Except.ok.inj ok]
      exact parks.onward at_ here rfl (by simp) rfl
  | switch q =>
    obtain ⟨-, s, swaps, rfl⟩ := throughNode_ok ok
    exact parks.swap at_ here swaps
  | _ =>
    -- The loads and tests only decide where the task goes on.
    simp only [Kernel.wait] at ok
    try split at ok
    all_goals
      rw [← Except.ok.inj ok]
      exact parks.onward at_ here rfl (by simp) rfl

end Kernel

end Gthread

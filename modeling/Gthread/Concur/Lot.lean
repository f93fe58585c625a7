import Gthread.Concur.WaiterSteps

/-! Any number of waiters on one kernel thread, and any number of tasks that park on them. -/

namespace Gthread

open Function (update update_of_ne update_self)

/-- The kernel thread and the waiters of its tasks. -/
structure Lot (ν ι : Type) where
  cpu : Cpu ι
  -- `_waiter` of each waiter.
  slot : ν → Option ι

namespace Lot

open Waiter (claims waits takes aimsAt)

variable {ν ι : Type}

variable {lot lot' : Lot ν ι} {role : ι → Option (ν × WaiterPc ι)} {p q : ι} {n : ν}

/-- The waiter whose slot a task stands in although it runs. -/
def claimsAt : Option (ν × WaiterPc ι) → Option ν
  | some (n, pc) => if claims (some pc) then some n else none
  | none => none

/-- The waiter that a task may be waiting on. -/
def waitsAt : Option (ν × WaiterPc ι) → Option ν
  | some (n, pc) => if waits (some pc) then some n else none
  | none => none

/-- The task that is about to be woken or switched to, and the waiter it was taken from. -/
def takesAt : Option (ν × WaiterPc ι) → Option (ν × ι)
  | some (n, pc) => (takes (some pc)).map (n, ·)
  | none => none

/-- A task that stands in a slot is at such a statement of its waiter. -/
theorem claimsAt_eq_some {at_ : Option (ν × WaiterPc ι)} (claimed : claimsAt at_ = some n) :
    ∃ pc, at_ = some (n, pc) ∧ claims (some pc) = true := by
  rcases at_ with _ | ⟨m, pc⟩
  · cases claimed
  · simp only [claimsAt] at claimed
    split at claimed
    · rename_i claims_
      exact ⟨pc, by rw [Option.some.inj claimed], claims_⟩
    · cases claimed

/-- A task that may be waiting is at such a statement of its waiter. -/
theorem waitsAt_eq_some {at_ : Option (ν × WaiterPc ι)} (sleeps : waitsAt at_ = some n) :
    ∃ pc, at_ = some (n, pc) ∧ waits (some pc) = true := by
  rcases at_ with _ | ⟨m, pc⟩
  · cases sleeps
  · simp only [waitsAt] at sleeps
    split at sleeps
    · rename_i waits_
      exact ⟨pc, by rw [Option.some.inj sleeps], waits_⟩
    · cases sleeps

/-- Where a task stands depends on its statement. -/
theorem claimsAt_map (n : ν) (pc : Option (WaiterPc ι)) :
    claimsAt (pc.map (n, ·)) = if claims pc then some n else none := by
  cases pc <;> rfl

/-- Whom a task takes depends on its statement. -/
theorem takesAt_map (n : ν) (pc : Option (WaiterPc ι)) :
    takesAt (pc.map (n, ·)) = (takes pc).map (n, ·) := by
  cases pc <;> rfl

/-- A task that may be waiting neither stands in a slot while it runs nor takes another one. -/
theorem waitsAt_excludes {at_ : Option (ν × WaiterPc ι)} (sleeps : waitsAt at_ = some n) :
    claimsAt at_ = none ∧ takesAt at_ = none := by
  rcases at_ with _ | ⟨m, pc⟩
  · exact ⟨rfl, rfl⟩
  · cases pc <;> simp_all [waitsAt, waits, claimsAt, claims, takesAt, takes]

/-- A task that does not wait runs or is queued; one that waits is in a slot or was taken out. -/
structure Inv (lot : Lot ν ι) (role : ι → Option (ν × WaiterPc ι)) : Prop where
  home : ∀ n p, lot.slot n = some p →
    claimsAt (role p) = some n ∨ (waitsAt (role p) = some n ∧ lot.cpu.state p = .waiting)
  claimed : ∀ n p, claimsAt (role p) = some n → lot.slot n = some p
  awake : ∀ p, lot.cpu.state p ≠ .waiting →
    (lot.cpu.running = some p ∧ lot.cpu.state p = .running ∧ lot.cpu.queued p = false) ∨
    (lot.cpu.running ≠ some p ∧ lot.cpu.state p = .suspended ∧ lot.cpu.queued p = true)
  asleep : ∀ p, lot.cpu.state p = .waiting → lot.cpu.queued p = false ∧
    ∃ n, waitsAt (role p) = some n ∧ (lot.cpu.running = some p → role p = some (n, .yield)) ∧
      (lot.slot n = some p ∨ ∃ b, takesAt (role b) = some (n, p))
  -- Whoever was taken is out of every slot, and one task alone has taken it.
  taken : ∀ b n p, takesAt (role b) = some (n, p) →
    lot.cpu.state p = .waiting ∧ lot.cpu.running ≠ some p ∧ ∀ m, lot.slot m ≠ some p
  unique : ∀ b b' n n' p, takesAt (role b) = some (n, p) → takesAt (role b') = some (n', p) → b = b'

/-- The running task is awake, except where it is about to yield to wait. -/
theorem Inv.runs (inv : lot.Inv role) (running : lot.cpu.running = some p)
    (going : ∀ n, role p ≠ some (n, .yield)) :
    lot.cpu.state p = .running ∧ lot.cpu.queued p = false := by
  have awake : lot.cpu.state p ≠ .waiting := by
    intro waiting
    obtain ⟨-, n, -, yields, -⟩ := inv.asleep p waiting
    exact going n (yields running)
  rcases inv.awake p awake with ⟨-, rest⟩ | ⟨elsewhere, -⟩
  · exact rest
  · exact absurd running elsewhere

/-- A running task stands in the slot that it has claimed, and in no other. -/
theorem Inv.stands_iff (inv : lot.Inv role) (running : lot.cpu.running = some p)
    (going : ∀ n, role p ≠ some (n, .yield)) (m : ν) :
    lot.slot m = some p ↔ claimsAt (role p) = some m := by
  constructor
  · intro stands
    rcases inv.home m p stands with claims_ | ⟨-, waiting⟩
    · exact claims_
    · rw [(inv.runs running going).1] at waiting
      cases waiting
  · exact inv.claimed m p

/-- Tasks that are all queued, outside the waiters' code. -/
theorem inv_start :
    (⟨⟨none, fun _ => .suspended, fun _ => true⟩, fun _ => none⟩ : Lot ν ι).Inv fun _ => none := by
  constructor <;> simp [claimsAt, takesAt]

variable [DecidableEq ι]

/-- The running task calls `sched::yield`. -/
def yield (p : ι) (lot : Lot ν ι) : Lot ν ι := { lot with cpu := lot.cpu.leave p }

/-- The scheduler switches to a task. -/
def enter (p : ι) (lot : Lot ν ι) : Lot ν ι := { lot with cpu := lot.cpu.enter p }

/-- A statement that changes nothing of the other tasks keeps the invariant, if its own task is. -/
theorem Inv.local (inv : lot.Inv role) (running : lot.cpu.running = some p)
    {new : Option (ν × WaiterPc ι)} (runs : ∀ q, q ≠ p → lot'.cpu.running ≠ some q)
    (state : ∀ q, q ≠ p → lot'.cpu.state q = lot.cpu.state q)
    (queued : ∀ q, q ≠ p → lot'.cpu.queued q = lot.cpu.queued q)
    (slot : ∀ m q, q ≠ p → (lot'.slot m = some q ↔ lot.slot m = some q))
    (same : takesAt new = takesAt (role p))
    (home : ∀ m, lot'.slot m = some p →
      claimsAt new = some m ∨ (waitsAt new = some m ∧ lot'.cpu.state p = .waiting))
    (claimed : ∀ m, claimsAt new = some m → lot'.slot m = some p)
    (awake : lot'.cpu.state p ≠ .waiting →
      (lot'.cpu.running = some p ∧ lot'.cpu.state p = .running ∧ lot'.cpu.queued p = false) ∨
      (lot'.cpu.running ≠ some p ∧ lot'.cpu.state p = .suspended ∧ lot'.cpu.queued p = true))
    (asleep : lot'.cpu.state p = .waiting → lot'.cpu.queued p = false ∧
      ∃ n, waitsAt new = some n ∧ (lot'.cpu.running = some p → new = some (n, .yield)) ∧
        lot'.slot n = some p) :
    lot'.Inv (update role p new) := by
  have away : ∀ q, q ≠ p → lot.cpu.running ≠ some q := by
    intro q other here
    rw [running, Option.some.injEq] at here
    exact other here.symm
  -- The takers are those of before, and nobody has taken the task that runs.
  have takers : ∀ b, takesAt (update role p new b) = takesAt (role b) := by
    intro b
    by_cases here : b = p
    · rw [here, update_self, same]
    · rw [update_of_ne here]
  have target : ∀ b m q, takesAt (role b) = some (m, q) → q ≠ p := by
    rintro b m q takes_ rfl
    exact (inv.taken b m q takes_).2.1 running
  constructor
  · intro m q stands
    by_cases here : q = p
    · rw [here, update_self]
      exact home m (here ▸ stands)
    · rw [update_of_ne here, state q here]
      exact inv.home m q ((slot m q here).mp stands)
  · intro m q claims_
    by_cases here : q = p
    · rw [here, update_self] at claims_
      exact here ▸ claimed m claims_
    · rw [update_of_ne here] at claims_
      exact (slot m q here).mpr (inv.claimed m q claims_)
  · intro q
    by_cases here : q = p
    · exact here ▸ awake
    · intro going
      rw [state q here] at going
      rcases inv.awake q going with ⟨runs', -⟩ | ⟨-, rest⟩
      · exact absurd runs' (away q here)
      · exact .inr ⟨runs q here, by rw [state q here, queued q here]; exact rest⟩
  · intro q
    by_cases here : q = p
    · rw [here, update_self]
      intro waiting
      obtain ⟨off, m, sleeps, yields, stands⟩ := asleep waiting
      exact ⟨off, m, sleeps, yields, .inl stands⟩
    · intro waiting
      rw [state q here] at waiting
      obtain ⟨off, m, sleeps, -, stands⟩ := inv.asleep q waiting
      refine ⟨by rw [queued q here]; exact off, m, by rw [update_of_ne here]; exact sleeps,
        fun runs' => absurd runs' (runs q here), ?_⟩
      rcases stands with stands | ⟨b, takes_⟩
      · exact .inl ((slot m q here).mpr stands)
      · exact .inr ⟨b, by rw [takers]; exact takes_⟩
  · intro b m q takes_
    rw [takers] at takes_
    have other := target b m q takes_
    obtain ⟨waiting, -, out⟩ := inv.taken b m q takes_
    exact ⟨by rw [state q other]; exact waiting, runs q other,
      fun k stands => out k ((slot k q other).mp stands)⟩
  · intro b b' m m' q takes_ takes'
    rw [takers] at takes_ takes'
    exact inv.unique b b' m m' q takes_ takes'

/-- A statement of a task that stays awake, and that takes nobody. -/
theorem Inv.quiet (inv : lot.Inv role) (running : lot.cpu.running = some p)
    (going : ∀ n, role p ≠ some (n, .yield)) {new : Option (ν × WaiterPc ι)} {slot : ν → Option ι}
    (others : ∀ m q, q ≠ p → (slot m = some q ↔ lot.slot m = some q))
    (same : takesAt new = takesAt (role p))
    (own : ∀ m, slot m = some p ↔ claimsAt new = some m) :
    { lot with slot := slot }.Inv (update role p new) := by
  obtain ⟨state, off⟩ := inv.runs running going
  refine inv.local running ?_ (fun _ _ => rfl) (fun _ _ => rfl) others same
    (fun m stands => .inl ((own m).mp stands)) (fun m claims_ => (own m).mpr claims_) ?_ ?_
  · intro q other here
    rw [running, Option.some.injEq] at here
    exact other here.symm
  · exact fun _ => .inl ⟨running, state, off⟩
  · intro waiting
    rw [state] at waiting
    cases waiting

/-- A statement that leaves the slots alone, of a task that goes on standing where it did. -/
theorem Inv.idles (inv : lot.Inv role) (running : lot.cpu.running = some p)
    (going : ∀ n, role p ≠ some (n, .yield)) {new : Option (ν × WaiterPc ι)}
    (stands : claimsAt new = claimsAt (role p)) (same : takesAt new = takesAt (role p)) :
    lot.Inv (update role p new) := by
  refine inv.quiet running going (fun _ _ _ => Iff.rfl) same ?_
  intro m
  rw [stands]
  exact inv.stands_iff running going m

/-- The running task begins a member function. -/
theorem Inv.begin (inv : lot.Inv role) (running : lot.cpu.running = some p) (out : role p = none)
    {new : Option (ν × WaiterPc ι)} (stands : claimsAt new = none) (nobody : takesAt new = none) :
    lot.Inv (update role p new) := by
  refine inv.idles running (by simp [out]) ?_ ?_
  · rw [stands, out]
    rfl
  · rw [nobody, out]
    rfl

/-- A task marks itself as waiting, in the slot that it has claimed. -/
theorem Inv.mark (inv : lot.Inv role) (running : lot.cpu.running = some p)
    (at_ : role p = some (n, .mark)) :
    { lot with cpu := lot.cpu.setState p .waiting }.Inv (update role p (some (n, .yield))) := by
  have claims_ : claimsAt (role p) = some n := by rw [at_]; rfl
  obtain ⟨-, off⟩ := inv.runs running (by simp [at_])
  refine inv.local running ?_ ?_ (fun _ _ => rfl) (fun _ _ _ => Iff.rfl) (by rw [at_]; rfl)
    ?_ (by simp [claimsAt, claims]) (by simp) ?_
  · intro q other here
    rw [show lot.cpu.running = some q from here, Option.some.injEq] at running
    exact other running
  · intro q other
    simp [other]
  · intro m stands
    have home := (inv.stands_iff running (by simp [at_]) m).mp stands
    rw [claims_, Option.some.injEq] at home
    exact .inr ⟨by rw [← home]; rfl, by simp⟩
  · exact fun _ => ⟨off, n, rfl, fun _ => rfl, inv.claimed n p claims_⟩

/-- The running task gives up the processor, at any statement or at the call of `sched::yield`. -/
theorem Inv.leave (inv : lot.Inv role) (running : lot.cpu.running = some p)
    {new : Option (ν × WaiterPc ι)}
    (at_ : new = role p ∨ ∃ n, role p = some (n, .yield) ∧ new = some (n, .parked)) :
    (lot.yield p).Inv (update role p new) := by
  have claims_ : claimsAt new = claimsAt (role p) := by
    rcases at_ with rfl | ⟨n, at_, rfl⟩
    · rfl
    · rw [at_]
      rfl
  have waits_ : waitsAt new = waitsAt (role p) := by
    rcases at_ with rfl | ⟨n, at_, rfl⟩
    · rfl
    · rw [at_]
      rfl
  have takes_ : takesAt new = takesAt (role p) := by
    rcases at_ with rfl | ⟨n, at_, rfl⟩
    · rfl
    · rw [at_]
      rfl
  have others : ∀ q, q ≠ p → (lot.yield p).cpu.state q = lot.cpu.state q ∧
      (lot.yield p).cpu.queued q = lot.cpu.queued q := by
    intro q other
    simp [Lot.yield, other]
  have waiting : (lot.yield p).cpu.state p = .waiting ↔ lot.cpu.state p = .waiting := by
    cases state : lot.cpu.state p <;> simp [Lot.yield, state]
  refine inv.local running ?_ (fun q other => (others q other).1)
    (fun q other => (others q other).2)
    (fun _ _ _ => Iff.rfl) takes_ ?_ ?_ ?_ ?_
  · simp [Lot.yield]
  · intro m stands
    rw [claims_, waits_, waiting]
    exact inv.home m p stands
  · intro m claimed
    exact inv.claimed m p (claims_ ▸ claimed)
  · intro awake
    have going : lot.cpu.state p = .running := by
      rcases inv.awake p (fun before => awake (waiting.mpr before)) with ⟨-, state, -⟩ | ⟨away, -⟩
      · exact state
      · exact absurd running away
    exact .inr ⟨by simp [Lot.yield], by simp [Lot.yield, going], by simp [Lot.yield, going]⟩
  · intro sleeping
    have before := waiting.mp sleeping
    obtain ⟨-, n, sleeps, -, stands⟩ := inv.asleep p before
    refine ⟨by simp [Lot.yield, before], n, by rw [waits_]; exact sleeps, by simp [Lot.yield], ?_⟩
    rcases stands with stands | ⟨b, taken⟩
    · exact stands
    · exact absurd running (inv.taken b n p taken).2.1

/-- The timer takes the processor from the running task. -/
theorem Inv.preempt (inv : lot.Inv role) (running : lot.cpu.running = some p) :
    (lot.yield p).Inv role := by
  have left := inv.leave running (.inl rfl)
  rwa [Function.update_eq_self] at left

/-- The scheduler switches to a queued task. -/
theorem Inv.dispatch (inv : lot.Inv role) (idle : lot.cpu.running = none)
    (queued : lot.cpu.queued p = true) : (lot.enter p).Inv role := by
  have awake : lot.cpu.state p ≠ .waiting := by
    intro waiting
    rw [(inv.asleep p waiting).1] at queued
    cases queued
  have others : ∀ q, q ≠ p → (lot.enter p).cpu.state q = lot.cpu.state q ∧
      (lot.enter p).cpu.queued q = lot.cpu.queued q := by
    intro q other
    simp [Lot.enter, other]
  have sleeping : ∀ q, (lot.enter p).cpu.state q = .waiting ↔ lot.cpu.state q = .waiting := by
    intro q
    by_cases here : q = p
    · simp [Lot.enter, here, awake]
    · rw [(others q here).1]
  have runs : ∀ q, lot.cpu.state q = .waiting → (lot.enter p).cpu.running ≠ some q := by
    rintro q waiting here
    obtain rfl : p = q := by simpa [Lot.enter] using here
    exact awake waiting
  constructor
  · intro n q stands
    rw [sleeping]
    exact inv.home n q stands
  · exact inv.claimed
  · intro q going
    by_cases here : q = p
    · simp [Lot.enter, here]
    · rw [(others q here).1] at going
      rcases inv.awake q going with ⟨running, -⟩ | ⟨-, rest⟩
      · rw [idle] at running
        cases running
      · exact .inr ⟨by simpa [Lot.enter] using fun same => here same.symm,
          by rw [(others q here).1, (others q here).2]; exact rest⟩
  · intro q waiting
    have before := (sleeping q).mp waiting
    obtain ⟨off, n, sleeps, -, stands⟩ := inv.asleep q before
    have here : q ≠ p := fun same => awake (same ▸ before)
    exact ⟨by rw [(others q here).2]; exact off, n, sleeps,
      fun running => absurd running (runs q before), stands⟩
  · intro b n q takes_
    obtain ⟨waiting, -, out⟩ := inv.taken b n q takes_
    exact ⟨(sleeping q).mpr waiting, runs q waiting, out⟩
  · exact inv.unique

/-- The critical section of `unpark`. -/
theorem Inv.wake (inv : lot.Inv role) (running : lot.cpu.running = some p)
    (at_ : role p = some (n, .wake q)) :
    { lot with cpu := (lot.cpu.setState q .suspended).schedule q }.Inv (update role p none) := by
  have takes_ : takesAt (role p) = some (n, q) := by rw [at_]; rfl
  obtain ⟨waiting, away, out⟩ := inv.taken p n q takes_
  have state := (inv.runs running (by simp [at_])).1
  have others : ∀ b, b ≠ q →
      ((lot.cpu.setState q .suspended).schedule q).state b = lot.cpu.state b ∧
      ((lot.cpu.setState q .suspended).schedule q).queued b = lot.cpu.queued b := by
    intro b other
    simp [other]
  -- What the other tasks take is what they took, and never this one.
  have takers : ∀ b m x, takesAt (update role p none b) = some (m, x) →
      takesAt (role b) = some (m, x) ∧ x ≠ q := by
    intro b m x takes'
    have here : b ≠ p := by
      rintro rfl
      rw [update_self] at takes'
      cases takes'
    rw [update_of_ne here] at takes'
    refine ⟨takes', ?_⟩
    rintro rfl
    exact here (inv.unique b p m n x takes' takes_)
  constructor
  all_goals try dsimp only
  · intro m b stands
    have other : b ≠ q := by
      rintro rfl
      exact out m stands
    have here : b ≠ p := by
      rintro rfl
      rcases inv.home m b stands with claimed | ⟨-, sleeping⟩
      · simp [at_, claimsAt, claims] at claimed
      · rw [state] at sleeping
        cases sleeping
    rw [update_of_ne here, (others b other).1]
    exact inv.home m b stands
  · intro m b claimed
    have here : b ≠ p := by
      rintro rfl
      rw [update_self] at claimed
      cases claimed
    rw [update_of_ne here] at claimed
    exact inv.claimed m b claimed
  · intro b awake
    by_cases same : b = q
    · exact .inr ⟨same ▸ away, by simp [same], by simp [same]⟩
    · rw [(others b same).1] at awake ⊢
      rw [(others b same).2]
      exact inv.awake b awake
  · intro b sleeping
    have other : b ≠ q := by
      rintro rfl
      simp at sleeping
    rw [(others b other).1] at sleeping
    obtain ⟨off, m, sleeps, yields, stands⟩ := inv.asleep b sleeping
    have here : b ≠ p := by
      rintro rfl
      rw [state] at sleeping
      cases sleeping
    rw [(others b other).2, update_of_ne here]
    refine ⟨off, m, sleeps, yields, ?_⟩
    rcases stands with stands | ⟨c, takes'⟩
    · exact .inl stands
    · have apart : c ≠ p := by
        rintro rfl
        rw [takes_, Option.some.injEq, Prod.mk.injEq] at takes'
        exact other takes'.2.symm
      exact .inr ⟨c, by rw [update_of_ne apart]; exact takes'⟩
  · intro b m x takes'
    obtain ⟨before, other⟩ := takers b m x takes'
    rw [(others x other).1]
    exact inv.taken b m x before
  · intro b b' m m' x takes' takes''
    exact inv.unique b b' m m' x (takers b m x takes').1 (takers b' m' x takes'').1

/-- The critical section of `swap`. -/
theorem Inv.switch (inv : lot.Inv role) (running : lot.cpu.running = some p)
    (at_ : role p = some (n, .switch q)) :
    { lot with cpu := (lot.cpu.setState p .waiting).switchTo p q }.Inv
      (update role p (some (n, .swapped))) := by
  have takes_ : takesAt (role p) = some (n, q) := by rw [at_]; rfl
  have claims_ : claimsAt (role p) = some n := by rw [at_]; rfl
  obtain ⟨waiting, away, out⟩ := inv.taken p n q takes_
  obtain ⟨-, unqueued⟩ := inv.runs running (by simp [at_])
  have apart : q ≠ p := by
    rintro rfl
    exact away running
  have others : ∀ b, b ≠ p → b ≠ q →
      ((lot.cpu.setState p .waiting).switchTo p q).state b = lot.cpu.state b := by
    intro b here other
    simp [here, other]
  have caller : ((lot.cpu.setState p .waiting).switchTo p q).state p = .waiting := by
    simp [apart.symm]
  have runs : ∀ b, ((lot.cpu.setState p .waiting).switchTo p q).running = some b ↔ q = b := by
    simp
  have takers : ∀ b m x, takesAt (update role p (some (n, .swapped)) b) = some (m, x) →
      takesAt (role b) = some (m, x) ∧ x ≠ q := by
    intro b m x takes'
    have here : b ≠ p := by
      rintro rfl
      rw [update_self] at takes'
      cases takes'
    rw [update_of_ne here] at takes'
    refine ⟨takes', ?_⟩
    rintro rfl
    exact here (inv.unique b p m n x takes' takes_)
  constructor
  all_goals try dsimp only
  · intro m b stands
    have other : b ≠ q := by
      rintro rfl
      exact out m stands
    by_cases here : b = p
    · -- The caller waits in the slot it has claimed.
      rcases inv.home m b stands with claimed | ⟨sleeps, -⟩
      · rw [here, claims_, Option.some.injEq] at claimed
        exact .inr ⟨by rw [here, update_self, ← claimed]; rfl, here ▸ caller⟩
      · rw [here, at_] at sleeps
        cases sleeps
    · rw [update_of_ne here, others b here other]
      exact inv.home m b stands
  · intro m b claimed
    have here : b ≠ p := by
      rintro rfl
      rw [update_self] at claimed
      cases claimed
    rw [update_of_ne here] at claimed
    exact inv.claimed m b claimed
  · intro b awake
    by_cases here : b = p
    · exact absurd (here ▸ caller) awake
    · by_cases other : b = q
      · refine .inl ⟨by simp [other], by simp [other], ?_⟩
        rw [other]
        exact (inv.asleep q waiting).1
      · rw [others b here other] at awake ⊢
        rcases inv.awake b awake with ⟨running', -⟩ | ⟨-, rest⟩
        · rw [running, Option.some.injEq] at running'
          exact absurd running'.symm here
        · exact .inr ⟨fun same => other ((runs b).mp same).symm, rest⟩
  · intro b sleeping
    by_cases here : b = p
    · rw [here, update_self]
      exact ⟨unqueued, n, rfl, fun same => absurd ((runs p).mp same) apart,
        .inl (inv.claimed n p claims_)⟩
    · have other : b ≠ q := by
        rintro rfl
        simp at sleeping
      rw [others b here other] at sleeping
      obtain ⟨off, m, sleeps, -, stands⟩ := inv.asleep b sleeping
      rw [update_of_ne here]
      refine ⟨off, m, sleeps, fun same => absurd ((runs b).mp same).symm other, ?_⟩
      rcases stands with stands | ⟨c, takes'⟩
      · exact .inl stands
      · have away' : c ≠ p := by
          rintro rfl
          rw [takes_, Option.some.injEq, Prod.mk.injEq] at takes'
          exact other takes'.2.symm
        exact .inr ⟨c, by rw [update_of_ne away']; exact takes'⟩
  · intro b m x takes'
    obtain ⟨before, other⟩ := takers b m x takes'
    obtain ⟨sleeping, away', out'⟩ := inv.taken b m x before
    have here : x ≠ p := by
      rintro rfl
      exact away' running
    exact ⟨by rw [others x here other]; exact sleeping, fun same => other ((runs x).mp same).symm,
      out'⟩
  · intro b b' m m' x takes' takes''
    exact inv.unique b b' m m' x (takers b m x takes').1 (takers b' m' x takes'').1

variable [DecidableEq ν] {closed : Bool} {pc : WaiterPc ι} {outcome : Outcome ι}

/-- A task takes one that waits in the slot out of it, and may claim the slot itself. -/
theorem Inv.take (inv : lot.Inv role) (running : lot.cpu.running = some p)
    (going : ∀ n, role p ≠ some (n, .yield)) (claims_ : claimsAt (role p) = none)
    (takes_ : takesAt (role p) = none) (stands : lot.slot n = some q)
    (sleeps : waitsAt (role q) = some n) (waiting : lot.cpu.state q = .waiting)
    {new : Option (ν × WaiterPc ι)} {slot : Option ι} (taken : takesAt new = some (n, q))
    (own : slot = none ∧ claimsAt new = none ∨ slot = some p ∧ claimsAt new = some n) :
    { lot with slot := update lot.slot n slot }.Inv (update role p new) := by
  have state := (inv.runs running going).1
  have other : q ≠ p := by
    rintro rfl
    rw [state] at waiting
    cases waiting
  have off : ∀ m, lot.slot m ≠ some p := by
    intro m here
    rcases inv.home m p here with claimed | ⟨-, sleeping⟩
    · rw [claims_] at claimed
      cases claimed
    · rw [state] at sleeping
      cases sleeping
  -- The task stands in no other slot, and nobody else has taken it.
  have home : ∀ m, lot.slot m = some q → m = n := by
    intro m here
    rcases inv.home m q here with claimed | ⟨sleeps', -⟩
    · rw [(waitsAt_excludes sleeps).1] at claimed
      cases claimed
    · rw [sleeps, Option.some.injEq] at sleeps'
      exact sleeps'.symm
  have takers : ∀ b, b ≠ p → takesAt (update role p new b) = takesAt (role b) := by
    intro b here
    rw [update_of_ne here]
  have alone : ∀ b m, takesAt (role b) ≠ some (m, q) := by
    intro b m takes'
    exact (inv.taken b m q takes').2.2 n stands
  constructor
  all_goals try dsimp only
  · intro m b here
    by_cases same : m = n
    · subst same
      rw [update_self] at here
      rcases own with ⟨none_, -⟩ | ⟨self, claimed⟩
      · rw [none_] at here
        cases here
      · rw [self, Option.some.injEq] at here
        exact .inl (by rw [← here, update_self]; exact claimed)
    · rw [update_of_ne same] at here
      have away : b ≠ p := by
        rintro rfl
        exact off m here
      rw [update_of_ne away]
      exact inv.home m b here
  · intro m b claimed
    by_cases here : b = p
    · rw [here, update_self] at claimed
      rcases own with ⟨-, none_⟩ | ⟨self, claimed'⟩
      · rw [none_] at claimed
        cases claimed
      · rw [claimed', Option.some.injEq] at claimed
        rw [← claimed, update_self, self, here]
    · rw [update_of_ne here] at claimed
      have old := inv.claimed m b claimed
      have apart : m ≠ n := by
        rintro rfl
        rw [stands, Option.some.injEq] at old
        rw [← old, (waitsAt_excludes sleeps).1] at claimed
        cases claimed
      rw [update_of_ne apart]
      exact old
  · exact inv.awake
  · intro b sleeping
    have away : b ≠ p := by
      rintro rfl
      rw [state] at sleeping
      cases sleeping
    obtain ⟨unqueued, m, sleeps', yields, stands'⟩ := inv.asleep b sleeping
    rw [update_of_ne away]
    refine ⟨unqueued, m, sleeps', yields, ?_⟩
    rcases stands' with stands' | ⟨c, takes'⟩
    · by_cases same : m = n
      · -- It is the task that was taken.
        subst same
        rw [stands, Option.some.injEq] at stands'
        exact .inr ⟨p, by rw [update_self, ← stands']; exact taken⟩
      · exact .inl (by rw [update_of_ne same]; exact stands')
    · have away' : c ≠ p := by
        rintro rfl
        rw [takes_] at takes'
        cases takes'
      exact .inr ⟨c, by rw [takers c away']; exact takes'⟩
  · intro b m x takes'
    by_cases here : b = p
    · rw [here, update_self, taken, Option.some.injEq, Prod.mk.injEq] at takes'
      obtain ⟨rfl, rfl⟩ := takes'
      refine ⟨waiting, ?_, ?_⟩
      · rw [running, ne_eq, Option.some.injEq]
        exact fun same => other same.symm
      · intro k
        by_cases same : k = n
        · rw [same, update_self]
          rcases own with ⟨none_, -⟩ | ⟨self, -⟩
          · simp [none_]
          · simpa [self] using fun same => other same.symm
        · rw [update_of_ne same]
          exact fun here => same (home k here)
    · rw [takers b here] at takes'
      obtain ⟨sleeping, away, out⟩ := inv.taken b m x takes'
      refine ⟨sleeping, away, ?_⟩
      intro k
      by_cases same : k = n
      · rw [same, update_self]
        rcases own with ⟨none_, -⟩ | ⟨self, -⟩
        · simp [none_]
        · rw [self, ← running]
          exact away
      · rw [update_of_ne same]
        exact out k
  · intro b b' m m' x takes' takes''
    by_cases here : b = p
    · by_cases here' : b' = p
      · rw [here, here']
      · rw [here, update_self, taken, Option.some.injEq, Prod.mk.injEq] at takes'
        rw [takers b' here', ← takes'.2] at takes''
        exact absurd takes'' (alone b' m')
    · rw [takers b here] at takes'
      by_cases here' : b' = p
      · rw [here', update_self, taken, Option.some.injEq, Prod.mk.injEq] at takes''
        rw [← takes''.2] at takes'
        exact absurd takes' (alone b m)
      · rw [takers b' here'] at takes''
        exact inv.unique b b' m m' x takes' takes''

/-- A statement of task `p` inside a member function of waiter `n`. -/
def step (p : ι) (closed : Bool) (n : ν) (pc : WaiterPc ι) (lot : Lot ν ι) :
    Except Fault (Outcome ι × Lot ν ι) := do
  let (outcome, w) ← Waiter.step p closed pc ⟨lot.cpu, lot.slot n⟩
  return (outcome, ⟨w.cpu, update lot.slot n w.slot⟩)

/-- A statement is one of the waiter it belongs to. -/
theorem step_ok (ok : lot.step p closed n pc = .ok (outcome, lot')) :
    ∃ w, Waiter.step p closed pc ⟨lot.cpu, lot.slot n⟩ = .ok (outcome, w) ∧
      lot' = ⟨w.cpu, update lot.slot n w.slot⟩ := by
  unfold step at ok
  cases done : Waiter.step p closed pc ⟨lot.cpu, lot.slot n⟩ with
  | error fault => simp [done, Bind.bind, Except.bind] at ok
  | ok result =>
    simp only [done, Bind.bind, Except.bind, pure, Except.pure, Except.ok.injEq,
      Prod.mk.injEq] at ok
    exact ⟨result.2, by rw [← ok.1], ok.2.symm⟩

/-- The exchange of `park_if` finds an empty slot. -/
theorem Inv.claim (inv : lot.Inv role) (running : lot.cpu.running = some p)
    (at_ : role p = some (n, .claim)) (empty : lot.slot n = none) :
    { lot with slot := update lot.slot n (some p) }.Inv (update role p (some (n, .check))) := by
  refine inv.quiet running (by simp [at_]) ?_ (by rw [at_]; rfl) ?_
  · intro m q other
    by_cases here : m = n
    · simp [here, empty, other.symm]
    · simp [here]
  · intro m
    by_cases here : m = n
    · simp [here, claimsAt, claims]
    · have off := inv.stands_iff running (by simp [at_]) m
      simp [here, off, at_, claimsAt, claims, Ne.symm here]

/-- `park_if` gives up the slot that it has claimed. -/
theorem Inv.release (inv : lot.Inv role) (running : lot.cpu.running = some p)
    (at_ : role p = some (n, .release)) :
    { lot with slot := update lot.slot n none }.Inv (update role p none) := by
  have stands : lot.slot n = some p := inv.claimed n p (by rw [at_]; rfl)
  refine inv.quiet running (by simp [at_]) ?_ (by rw [at_]; rfl) ?_
  · intro m q other
    by_cases here : m = n
    · simp [here, stands, other.symm]
    · simp [here]
  · intro m
    by_cases here : m = n
    · simp [here, claimsAt]
    · have off := inv.stands_iff running (by simp [at_]) m
      simp [here, off, at_, claimsAt, claims, Ne.symm here]

/-- An exchange finds the task it aims at, which has not just claimed the slot. -/
theorem Inv.exchange (inv : lot.Inv role) (running : lot.cpu.running = some p)
    (at_ : role p = some (n, pc)) (aims : aimsAt (some pc) = some q) (stands : lot.slot n = some q)
    (settled : claimsAt (role q) = none) {new : WaiterPc ι} {slot : Option ι}
    (taken : takes (some new) = some q)
    (own : slot = none ∧ claims (some new) = false ∨ slot = some p ∧ claims (some new) = true) :
    { lot with slot := update lot.slot n slot }.Inv (update role p (some (n, new))) := by
  have sleeps : waitsAt (role q) = some n ∧ lot.cpu.state q = .waiting := by
    rcases inv.home n q stands with claimed | sleeps
    · rw [settled] at claimed
      cases claimed
    · exact sleeps
  refine inv.take running ?_ ?_ ?_ stands sleeps.1 sleeps.2 ?_ ?_
  · rw [at_]
    cases pc <;> simp_all [aimsAt]
  · rw [at_]
    cases pc <;> simp_all [claimsAt, claims, aimsAt]
  · rw [at_]
    cases pc <;> simp_all [takesAt, takes, aimsAt]
  · simp [takesAt, taken]
  · simpa [claimsAt] using own

/-- A statement keeps the invariant, unless it takes a task that does not wait yet. -/
theorem Inv.step (inv : lot.Inv role) (running : lot.cpu.running = some p)
    (at_ : role p = some (n, pc))
    (settled : ∀ q, aimsAt (some pc) = some q → lot.slot n = some q → claimsAt (role q) = none)
    (ok : lot.step p closed n pc = .ok (outcome, lot')) :
    lot'.Inv (update role p (outcome.pc.map (n, ·))) := by
  obtain ⟨w, done, rfl⟩ := step_ok ok
  have same : (⟨lot.cpu, update lot.slot n (lot.slot n)⟩ : Lot ν ι) = lot := by
    rw [Function.update_eq_self]
  -- A statement that changes nothing but the program counter.
  have idles : ∀ {new : Option (WaiterPc ι)}, pc ≠ .yield → claims new = claims (some pc) →
      takes new = takes (some pc) →
      (⟨lot.cpu, update lot.slot n (lot.slot n)⟩ : Lot ν ι).Inv
        (update role p (new.map (n, ·))) := by
    intro new going claims_ takes_
    rw [same]
    refine inv.idles running ?_ ?_ ?_
    · simp [at_, going]
    · rw [at_, claimsAt_map, claims_]
      rfl
    · rw [at_, takesAt_map, takes_]
      rfl
  cases pc with
  | claim =>
    simp only [Waiter.step] at done
    split at done
    · rename_i empty
      simp only [Except.ok.injEq, Prod.mk.injEq] at done
      obtain ⟨rfl, rfl⟩ := done
      exact inv.claim running at_ empty
    · simp only [Except.ok.injEq, Prod.mk.injEq] at done
      obtain ⟨rfl, rfl⟩ := done
      exact idles (by simp) rfl rfl
  | check =>
    simp only [Waiter.step, Except.ok.injEq, Prod.mk.injEq] at done
    obtain ⟨rfl, rfl⟩ := done
    cases closed
    · exact idles (by simp) rfl rfl
    · exact idles (by simp) rfl rfl
  | release =>
    simp only [Waiter.step, Except.ok.injEq, Prod.mk.injEq] at done
    obtain ⟨rfl, rfl⟩ := done
    exact inv.release running at_
  | mark =>
    simp only [Waiter.step, Except.ok.injEq, Prod.mk.injEq] at done
    obtain ⟨rfl, rfl⟩ := done
    simpa [Waiter.setState, Outcome.pc] using inv.mark running at_
  | yield =>
    simp only [Waiter.step, Except.ok.injEq, Prod.mk.injEq] at done
    obtain ⟨rfl, rfl⟩ := done
    have left := inv.leave running (.inr ⟨n, at_, rfl⟩)
    simpa [Waiter.yield, Lot.yield, Outcome.pc] using left
  | parked | swapped =>
    simp only [Waiter.step, Except.ok.injEq, Prod.mk.injEq] at done
    obtain ⟨rfl, rfl⟩ := done
    exact idles (by simp) rfl rfl
  | load | swapLoad =>
    simp only [Waiter.step] at done
    split at done
    all_goals
      simp only [Except.ok.injEq, Prod.mk.injEq] at done
      obtain ⟨rfl, rfl⟩ := done
      exact idles (by simp) rfl rfl
  | state q | swapState q =>
    simp only [Waiter.step] at done
    split at done
    all_goals
      simp only [Except.ok.injEq, Prod.mk.injEq] at done
      obtain ⟨rfl, rfl⟩ := done
      exact idles (by simp) rfl rfl
  | cas q =>
    simp only [Waiter.step] at done
    split at done
    · rename_i stands
      simp only [Except.ok.injEq, Prod.mk.injEq] at done
      obtain ⟨rfl, rfl⟩ := done
      exact inv.exchange running at_ rfl stands (settled q rfl stands) rfl (.inl ⟨rfl, rfl⟩)
    · simp only [Except.ok.injEq, Prod.mk.injEq] at done
      obtain ⟨rfl, rfl⟩ := done
      exact idles (by simp) rfl rfl
  | swapCas q =>
    simp only [Waiter.step] at done
    split at done
    · rename_i stands
      simp only [Except.ok.injEq, Prod.mk.injEq] at done
      obtain ⟨rfl, rfl⟩ := done
      exact inv.exchange running at_ rfl stands (settled q rfl stands) rfl (.inr ⟨rfl, rfl⟩)
    · simp only [Except.ok.injEq, Prod.mk.injEq] at done
      obtain ⟨rfl, rfl⟩ := done
      exact idles (by simp) rfl rfl
  | wake q =>
    simp only [Waiter.step] at done
    split at done
    · cases done
    · simp only [Except.ok.injEq, Prod.mk.injEq] at done
      obtain ⟨rfl, rfl⟩ := done
      simpa [Outcome.pc] using inv.wake running at_
  | switch q =>
    simp only [Waiter.step] at done
    split at done
    · cases done
    · simp only [Except.ok.injEq, Prod.mk.injEq] at done
      obtain ⟨rfl, rfl⟩ := done
      simpa [Outcome.pc] using inv.switch running at_

end Lot

end Gthread

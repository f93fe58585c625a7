import Mathlib.Data.Fintype.Basic
import Mathlib.Logic.Relation
import Gthread.Concur.Parking
import Gthread.Sched.KernelFlags

/-! The kernel thread refines the tasks and waiters that the concurrency library is proved with. -/

namespace Gthread

open Function (update update_eq_self update_of_ne update_self)

/-- A statement of a waiter, whose tasks are named differently. -/
def WaiterPc.map {ι κ : Type} (f : ι → κ) : WaiterPc ι → WaiterPc κ
  | .claim => .claim
  | .check => .check
  | .release => .release
  | .mark => .mark
  | .yield => .yield
  | .parked => .parked
  | .load => .load
  | .state q => .state (f q)
  | .cas q => .cas (f q)
  | .wake q => .wake (f q)
  | .swapLoad => .swapLoad
  | .swapState q => .swapState (f q)
  | .swapCas q => .swapCas (f q)
  | .switch q => .switch (f q)
  | .swapped => .swapped

/-- A statement that leaves the processor alone. -/
def WaiterPc.quiet {ι : Type} : WaiterPc ι → Bool
  | .mark | .yield | .wake _ | .switch _ => false
  | _ => true

namespace Lot

variable {ν ι : Type} [DecidableEq ι]

/-- The processor passes from one task to another. -/
inductive Pass (lot : Lot ν ι) : Lot ν ι → Prop
  | leave {p : ι} (running : lot.cpu.running = some p) : Pass lot (lot.yield p)
  | enter {p : ι} (idle : lot.cpu.running = none) (queued : lot.cpu.queued p = true) :
      Pass lot (lot.enter p)

/-- It does so any number of times. -/
abbrev Passes : Lot ν ι → Lot ν ι → Prop := Relation.ReflTransGen Pass

/-- The running task, if it is named, can give up the processor. -/
theorem leaves (lot : Lot ν ι) : lot.Passes { lot with cpu := lot.cpu.vacate } := by
  cases running : lot.cpu.running with
  | none =>
    have same : lot.cpu.vacate = lot.cpu := by simp [Cpu.vacate, running]
    rw [same]
  | some p =>
    have same : lot.cpu.vacate = lot.cpu.leave p := by simp [Cpu.vacate, running]
    rw [same]
    exact .single (.leave running)

/-- Then any task that is queued can be switched to. -/
theorem enters {κ : Type} {place : ι → Addr} {n : Node κ} {lot : Lot ν ι}
    (idle : lot.cpu.running = none) (went : Cpu.Views place n lot.cpu ∨
      ∃ q, lot.cpu.queued q = true ∧ Cpu.Views place n (lot.cpu.enter q)) :
    ∃ cpu, lot.Passes { lot with cpu } ∧ Cpu.Views place n cpu := by
  rcases went with views | ⟨q, queued, views⟩
  · exact ⟨lot.cpu, .refl, views⟩
  · exact ⟨lot.cpu.enter q, .single (.enter idle queued), views⟩

end Lot

/-- Parking tasks can follow the processor. -/
theorem Parking.follows {ν ι : Type} [DecidableEq ν] [DecidableEq ι] {s : Parking ν ι}
    {lot : Lot ν ι} (passes : s.lot.Passes lot) : s.OrderlyRun { s with lot } := by
  -- The induction is on the passes, each of which is one step.
  induction passes with
  | refl => exact .refl
  | tail _ pass ih =>
    cases pass with
    | leave running =>
      refine ih.tail (a := .preempt) rfl ?_
      simp [Parking.step, running]
    | @enter p idle queued =>
      refine ih.tail (a := .dispatch p) rfl ?_
      simp [Parking.step, idle, queued]

/-- A task in code of the program that only calls `yield` stays, yields, or ends a trap. -/
theorem Sys.step_of_user {s s' : Sys} {l : Label} (base : s.pc.base = .user)
    (calls : ∀ c clock, l = .call c clock → c = .yield) (ok : s.step l = .ok s') :
    s' = s ∨ (∃ clock p, s.yieldLocked clock p = .ok s') ∨
      ∃ p, s' = Sys.goto p { s with toNode := s.setFlag false } := by
  -- Other statements are not in code of the program.
  have inside : ∀ {q : Pc}, s.pc = q → q.base = .user := fun at_ => at_ ▸ base
  cases stepped_of_ok ok with
  | nothing => exact .inl rfl
  | yields leaves ok => exact .inr (.inl ⟨_, _, ok⟩)
  | unlocks at_ held => exact .inr (.inr ⟨_, rfl⟩)
  | sleeps | exits | spawns | waits | detaches | assigns => cases calls _ _ rfl
  | consumes at_ points clear stopped asks =>
    obtain rfl := calls _ _ rfl
    rcases asks with joins | ⟨detaches, -⟩
    · cases joins
    · cases detaches
  | begins at_ | finds at_ | misses at_ | resets at_ | creates at_ | launches at_ | lands at_
  | suspends at_ | publishes at_ | gives at_ | takes at_ | returns at_ | pools at_ | overflows at_
  | destroys at_ | clears at_ => cases inside at_

namespace Kernel

variable {ι : Type} [DecidableEq ι] {place : ι → Addr} {host : Addr} {k k' k₀ : Kernel}
  {l : KernelLabel} {lot lot' : Lot WaiterId ι} {role : ι → Option (WaiterId × WaiterPc ι)}
  {clock : Clock} {tick : Int} {maxSize : Nat}

/-- The named tasks make no call but `yield`, and nobody else uses a waiter. -/
def Confined (place : ι → Addr) (k : Kernel) : KernelLabel → Prop
  | .sched (.call c _) => c = .yield ∨ ∀ p, k.cur ≠ place p
  | .enter _ _ => ∃ p, k.cur = place p
  | _ => True

instance [Fintype ι] (place : ι → Addr) (k : Kernel) :
    (l : KernelLabel) → Decidable (k.Confined place l)
  | .sched (.call c _) => inferInstanceAs (Decidable (c = .yield ∨ ∀ p, k.cur ≠ place p))
  | .enter _ _ => inferInstanceAs (Decidable (∃ p, k.cur = place p))
  | .sched (.trap _) | .sched (.run _ _) | .wait _ _ => .isTrue trivial

/-- Where a task is inside the waiters, with the other tasks named by their addresses. -/
def standing (place : ι → Addr) (role : Option (WaiterId × WaiterPc ι)) :
    Option (WaiterId × WaiterPc Addr) :=
  role.map fun at_ => (at_.1, at_.2.map place)

/-- The abstract tasks and waiters are those of the kernel thread. -/
structure Shows (place : ι → Addr) (host : Addr) (k : Kernel) (lot : Lot WaiterId ι)
    (role : ι → Option (WaiterId × WaiterPc ι)) : Prop where
  views : Cpu.Views place k.toNode lot.cpu
  slot : ∀ w, k.waiter w = (lot.slot w).map place
  inside : ∀ p, k.inside (place p) = standing place (role p)
  named : ∀ b, k.inside b ≠ none → ∃ p, b = place p
  free : ∀ p, k.toSys.Free host (place p)

/-- The abstract task moves on, and shows where the concrete one is. -/
theorem Shows.moves {p : ι} {new : Option (WaiterId × WaiterPc ι)}
    (shows : k.Shows place host lot role) (injective : Function.Injective place)
    (views : Cpu.Views place k'.toNode lot'.cpu)
    (slot : ∀ w, k'.waiter w = (lot'.slot w).map place)
    (inside : k'.inside = update k.inside (place p) (standing place new))
    (free : ∀ p, k'.toSys.Free host (place p)) :
    k'.Shows place host lot' (update role p new) where
  views := views
  slot := slot
  inside q := by
    rw [inside]
    by_cases here : q = p
    · rw [here, update_self, update_self]
    · rw [update_of_ne (injective.ne here), update_of_ne here, shows.inside q]
  named b within := by
    by_cases here : b = place p
    · exact ⟨p, here⟩
    · rw [inside, update_of_ne here] at within
      exact shows.named b within
  free := free

omit [DecidableEq ι] in
/-- Where nobody moves inside the waiters, only the processor has to be seen. -/
theorem Shows.stays {cpu : Cpu ι} (shows : k.Shows place host lot role)
    (views : Cpu.Views place k'.toNode cpu) (waiter : k'.waiter = k.waiter)
    (inside : k'.inside = k.inside) (free : ∀ p, k'.toSys.Free host (place p)) :
    k'.Shows place host { lot with cpu } role where
  views := views
  slot w := by rw [waiter, shows.slot w]
  inside p := by rw [inside, shows.inside p]
  named b within := shows.named b (inside ▸ within)
  free := free

omit [DecidableEq ι] in
/-- Setting a preempt flag is not seen. -/
theorem views_setFlag {κ : Type} {n : Node κ} {c : Cpu ι} (flag : Bool)
    (views : Cpu.Views place n c) : Cpu.Views place (n.setFlag flag) c where
  running := views.running
  state p := by
    rw [views.state p]
    by_cases here : place p = n.cur
    · simp [Node.setFlag, here]
    · simp [Node.setFlag, here]
  queued := views.queued

omit [DecidableEq ι] in
/-- The named tasks that are queued were switched away from. -/
theorem Shows.settled (shows : k.Shows place host lot role) (parks : k.Parks host) :
    Cpu.Settled place (k.setFlag true) := by
  obtain ⟨phase, inv⟩ := parks.ordered.order
  refine ⟨inv.queues.awake, inv.queues.nonNull, inv.queues.nodup, fun p queued => ?_⟩
  have other : place p ≠ k.cur := by
    intro same
    have queued : some (place p) ∈ k.rq.runqueue := queued
    rw [same] at queued
    exact (List.nodup_cons.mp inv.queues.nodup).1 queued
  obtain ⟨q, resume⟩ := (shows.free p).resume parks.ordered.balanced other
  have ctx := (Sys.setFlag_fields true k.toSys (place p)).1
  exact ⟨.unlock q, (congrArg Ctx.resume ctx).trans resume⟩

/-- A step of a task without a name is one of a scheduler that dispatches, or nothing. -/
theorem Shows.elsewhere {l : Label} (shows : k.Shows place host lot role) (parks : k.Parks host)
    (parks' : k'.Parks host) (injective : Function.Injective place)
    (unnamed : ∀ p, k.cur ≠ place p) (linear : k.toSys.Linear l)
    (ok : k.toSys.step l = .ok k'.toSys) :
    lot.cpu.running = none ∧ (Cpu.Views place k'.toNode lot.cpu ∨
      ∃ q, lot.cpu.queued q = true ∧ Cpu.Views place k'.toNode (lot.cpu.enter q)) := by
  obtain ⟨phase, inv⟩ := parks.ordered.order
  obtain ⟨phase', inv'⟩ := parks'.ordered.order
  have idle : lot.cpu.running = none := by
    cases running : lot.cpu.running with
    | none => rfl
    | some p => exact absurd ((shows.views.running p).mp running) (unnamed p)
  have other : ∀ p, place p ≠ k.cur := fun p same => unnamed p same.symm
  have foreign : ∀ p, Sys.Foreign phase k.toSys k'.toSys (place p) := by
    intro p
    obtain ⟨⟨⟨holder, active⟩, -⟩, -⟩ := (shows.free p).apart parks.ordered.named inv
    have used : phase (place p) = .active holder := active
    exact Sys.foreign_of_step inv linear ok (other p) (by simp [used]) (by simp [used])
  refine ⟨idle, Cpu.Views.pass injective idle (fun p => ?_) (fun p => ?_) inv'.queues.nodup⟩
  · by_cases entered : place p = k'.cur
    · -- It was switched away from, so that it comes back running.
      obtain ⟨q, resume⟩ := (shows.free p).resume parks.ordered.balanced (other p)
      rw [if_pos entered, (foreign p).woken entered, resume]
      rfl
    · rw [if_neg entered, (foreign p).state entered, shows.views.state]
  · rw [shows.views.queued p]
    constructor
    · intro queued
      exact Sys.runnable_of_queued inv linear ok queued
    · intro can
      rcases (foreign p).runnable can with (same | queued) | joins
      · exact absurd same (other p)
      · exact queued
      · -- A task that has joined another one is inside that call.
        obtain ⟨-, -, -, h, wanted, joining, -⟩ := Sys.joining_of_joiner inv inv.going joins
        have here : k.toSys.at_ (place p) = .user := (shows.free p).at_
        rcases joining with yielding | ⟨taking, -⟩
        · exact absurd (yielding.symm.trans here) (by simp)
        · exact absurd (taking.symm.trans here) (by simp)

/-- A yield of the running task, named or not, is one of the abstract processor. -/
theorem Shows.yields {p : Pc} {s' : Sys} (shows : k.Shows place host lot role)
    (parks : k.Parks host) (injective : Function.Injective place)
    (ok : k.toSys.yieldLocked clock p = .ok s') :
    ∃ cpu, Lot.Passes { lot with cpu := lot.cpu.vacate } { lot with cpu } ∧
      Cpu.Views place s'.toNode cpu := by
  obtain ⟨phase, inv⟩ := parks.ordered.order
  obtain ⟨-, n, rfl, -, yielded⟩ := Sys.yieldLocked_ok inv.queues.running ok
  have views := views_setFlag (n := k.toNode) true shows.views
  -- Nobody with a name runs in between.
  have idle : ({ lot with cpu := lot.cpu.vacate } : Lot WaiterId ι).cpu.running = none :=
    lot.cpu.vacate_running
  exact Lot.enters idle (views.yield (shows.settled parks) injective yielded)

/-- A step of the scheduler's interface is followed by leaving and entering the processor. -/
theorem Shows.sched {l : Label} (shows : k.Shows place host lot role) (parks : k.Parks host)
    (parks' : k'.Parks host) (injective : Function.Injective place)
    (confined : k.Confined place (.sched l)) (linear : k.toSys.Linear l)
    (scheduled : k.Scheduled l k') :
    ∃ cpu, lot.Passes { lot with cpu } ∧ k'.Shows place host { lot with cpu } role := by
  have calls : ∀ p c clock, k.cur = place p → l = .call c clock → c = .yield := by
    rintro p c clock here rfl
    exact confined.resolve_right fun unnamed => unnamed p here
  have free : ∀ p, k'.toSys.Free host (place p) := by
    intro p
    by_cases yields : ∃ clock, l = .call .yield clock
    · obtain ⟨clock, rfl⟩ := yields
      have stepped := scheduled.step
      rw [Sys.step] at stepped
      split at stepped
      · rename_i at_
        exact (parks.ordered.spared_call parks'.ordered at_ (shows.free p) stepped).free
      · cases stepped
    · refine (parks.ordered.spared parks'.ordered linear ?_ (shows.free p) scheduled.step).free
      rintro here c clock rfl
      exact yields ⟨clock, by rw [calls p c clock here.symm rfl]⟩
  suffices follows : ∃ cpu, lot.Passes { lot with cpu } ∧ Cpu.Views place k'.toNode cpu by
    obtain ⟨cpu, passes, views⟩ := follows
    exact ⟨cpu, passes, shows.stays views scheduled.waiter (parks.inside_of_sched scheduled) free⟩
  by_cases named : ∃ p, k.cur = place p
  · obtain ⟨p, here⟩ := named
    have base : k.pc.base = .user :=
      (Sys.at_cur k.toSys).symm.trans (here ▸ (shows.free p).at_)
    rcases Sys.step_of_user base (fun c clock => calls p c clock here) scheduled.step
      with same | ⟨clock, q, yields⟩ | ⟨q, ends⟩
    · exact ⟨lot.cpu, .refl, by rw [same]; exact shows.views⟩
    · obtain ⟨cpu, passes, views⟩ := shows.yields parks injective yields
      exact ⟨cpu, (Lot.leaves lot).trans passes, views⟩
    · have views := views_setFlag false shows.views
      refine ⟨lot.cpu, .refl, ?_⟩
      rw [ends]
      exact ⟨views.running, views.state, views.queued⟩
  · obtain ⟨idle, went⟩ := shows.elsewhere parks parks' injective
      (fun p here => named ⟨p, here⟩) linear scheduled.step
    exact Lot.enters idle went

omit [DecidableEq ι] in
/-- Whoever is at a statement of a waiter is a named task, and at that statement in the abstract. -/
theorem Shows.at_statement {w : WaiterId} {pc : WaiterPc Addr}
    (shows : k.Shows place host lot role) (at_ : k.inside k.cur = some (w, pc)) :
    ∃ p pc', k.cur = place p ∧ lot.cpu.running = some p ∧ role p = some (w, pc') ∧
      pc = pc'.map place := by
  obtain ⟨p, here⟩ := shows.named k.cur (by simp [at_])
  rw [here, shows.inside p] at at_
  simp only [standing, Option.map_eq_some_iff, Prod.mk.injEq] at at_
  obtain ⟨⟨m, pc'⟩, there, rfl, rfl⟩ := at_
  exact ⟨p, pc', here, (shows.views.running p).mpr here, there, rfl⟩

/-- The loads, tests and exchanges of a waiter do to its slot what they do in the abstract. -/
theorem Shows.quiet {p : ι} {w : WaiterId} {pc : WaiterPc ι} {holds : Bool}
    (shows : k.Shows place host lot role) (injective : Function.Injective place)
    (here : k.cur = place p)
    (quiet : pc.quiet = true) (ok : k.wait w (pc.map place) clock holds = .ok k') :
    ∃ outcome slot,
      Waiter.step p (!holds) pc ⟨lot.cpu, lot.slot w⟩ = .ok (outcome, ⟨lot.cpu, slot⟩) ∧
      k' = { k with
        waiter := update k.waiter w (slot.map place)
        inside := update k.inside k.cur (standing place (outcome.pc.map (w, ·))) } := by
  have slot := shows.slot w
  have same : update k.waiter w ((lot.slot w).map place) = k.waiter := by
    rw [← slot, update_eq_self]
  have stands : ∀ q, k.waiter w = some (place q) ↔ lot.slot w = some q := by
    intro q
    rw [slot, Option.map_eq_some_iff]
    constructor
    · rintro ⟨b, there, equal⟩
      exact injective equal ▸ there
    · exact fun there => ⟨q, there, rfl⟩
  have empty : k.waiter w = none ↔ lot.slot w = none := by
    rw [slot, Option.map_eq_none_iff]
  have state : ∀ q, lot.cpu.state q = (k.tasks (place q)).runState := shows.views.state
  cases pc with
  | mark | yield | wake | switch => cases quiet
  | claim =>
    simp only [WaiterPc.map, Kernel.wait, empty] at ok
    simp only [Waiter.step]
    split at ok
    · rename_i free
      rw [← Except.ok.inj ok, if_pos free]
      exact ⟨_, some p, rfl, by simp only [Option.map_some, ← here]; rfl⟩
    · rename_i held
      rw [← Except.ok.inj ok, if_neg held]
      exact ⟨_, _, rfl, by rw [same]; rfl⟩
  | check =>
    rw [← Except.ok.inj ok]
    refine ⟨_, _, rfl, ?_⟩
    rw [same]
    cases holds
    · rfl
    · rfl
  | release =>
    rw [← Except.ok.inj ok]
    exact ⟨_, _, rfl, rfl⟩
  | parked | swapped =>
    rw [← Except.ok.inj ok]
    exact ⟨_, _, rfl, by rw [same]; rfl⟩
  | load | swapLoad =>
    simp only [WaiterPc.map, Kernel.wait, slot] at ok
    simp only [Waiter.step]
    cases stood : lot.slot w with
    | none =>
      rw [stood] at ok
      rw [← Except.ok.inj ok]
      exact ⟨_, _, rfl, by rw [← stood, same]; rfl⟩
    | some q =>
      rw [stood] at ok
      rw [← Except.ok.inj ok]
      exact ⟨_, _, rfl, by rw [← stood, same]; rfl⟩
  | state q | swapState q =>
    simp only [WaiterPc.map, Kernel.wait, ← state] at ok
    simp only [Waiter.step]
    split at ok
    · rename_i waiting
      rw [← Except.ok.inj ok, if_pos waiting]
      exact ⟨_, _, rfl, by rw [same]; rfl⟩
    · rename_i awake
      rw [← Except.ok.inj ok, if_neg awake]
      exact ⟨_, _, rfl, by rw [same]; rfl⟩
  | cas q =>
    simp only [WaiterPc.map, Kernel.wait, stands] at ok
    simp only [Waiter.step]
    split at ok
    · rename_i there
      rw [← Except.ok.inj ok, if_pos there]
      exact ⟨_, none, rfl, rfl⟩
    · rename_i gone
      rw [← Except.ok.inj ok, if_neg gone]
      exact ⟨_, _, rfl, by rw [same]; rfl⟩
  | swapCas q =>
    simp only [WaiterPc.map, Kernel.wait, stands] at ok
    simp only [Waiter.step]
    split at ok
    · rename_i there
      rw [← Except.ok.inj ok, if_pos there]
      exact ⟨_, some p, rfl, by simp only [Option.map_some, ← here]; rfl⟩
    · rename_i gone
      rw [← Except.ok.inj ok, if_neg gone]
      exact ⟨_, _, rfl, by rw [same]; rfl⟩

omit [DecidableEq ι] in
/-- An exchange that is not stale takes a task that waits, and that claims no slot. -/
theorem Shows.settled_of_fresh {p q : ι} {w : WaiterId} {pc : WaiterPc ι}
    (shows : k.Shows place host lot role) (inv : lot.Inv role) (fresh : k.stale = false)
    (here : k.cur = place p) (there : role p = some (w, pc))
    (aims : Waiter.aimsAt (some pc) = some q) (stands : lot.slot w = some q) :
    Lot.claimsAt (role q) = none := by
  have at_ : k.inside k.cur = some (w, pc.map place) := by
    rw [here, shows.inside p, there]
    rfl
  have stood : k.waiter w = some (place q) := by rw [shows.slot w, stands, Option.map_some]
  have waiting : lot.cpu.state q = .waiting := by
    rw [shows.views.state q]
    cases pc <;> simp_all [Waiter.aimsAt, stale, WaiterPc.map]
  obtain ⟨-, m, sleeps, -⟩ := inv.asleep q waiting
  exact (Lot.waitsAt_excludes sleeps).1

/-- A statement of a waiter is the same one in the abstract, and after `yield` a dispatch. -/
theorem Shows.wait {p : ι} {w : WaiterId} {pc : WaiterPc ι} {holds : Bool}
    (shows : k.Shows place host lot role) (parks : k.Parks host) (parks' : k'.Parks host)
    (injective : Function.Injective place) (user : k.pc = .user) (here : k.cur = place p)
    (there : role p = some (w, pc)) (ok : k.wait w (pc.map place) clock holds = .ok k') :
    ∃ outcome lot₁ cpu, lot.step p (!holds) w pc = .ok (outcome, lot₁) ∧
      lot₁.Passes { lot₁ with cpu } ∧
      k'.Shows place host { lot₁ with cpu } (update role p (outcome.pc.map (w, ·))) := by
  have running : lot.cpu.running = some p := (shows.views.running p).mpr here
  -- The statement of the abstract waiter, and the statements after which nobody is dispatched.
  have steps : ∀ {outcome : Outcome ι} {v : Waiter ι},
      Waiter.step p (!holds) pc ⟨lot.cpu, lot.slot w⟩ = .ok (outcome, v) →
      lot.step p (!holds) w pc = .ok (outcome, ⟨v.cpu, update lot.slot w v.slot⟩) := by
    intro outcome v done
    simp [Lot.step, done, Bind.bind, Except.bind, pure, Except.pure]
  have stays : ∀ {outcome : Outcome ι} {v : Waiter ι},
      Waiter.step p (!holds) pc ⟨lot.cpu, lot.slot w⟩ = .ok (outcome, v) →
      k'.Shows place host ⟨v.cpu, update lot.slot w v.slot⟩
        (update role p (outcome.pc.map (w, ·))) →
      ∃ outcome lot₁ cpu, lot.step p (!holds) w pc = .ok (outcome, lot₁) ∧
        lot₁.Passes { lot₁ with cpu } ∧
        k'.Shows place host { lot₁ with cpu } (update role p (outcome.pc.map (w, ·))) :=
    fun done shows' => ⟨_, _, _, steps done, .refl, shows'⟩
  -- Most statements leave the slots alone.
  have slot : ∀ m, k.waiter m = (update lot.slot w (lot.slot w) m).map place := by
    rw [update_eq_self]
    exact shows.slot
  by_cases quiet : pc.quiet = true
  · obtain ⟨outcome, slot, done, rfl⟩ := shows.quiet injective here quiet ok
    refine stays done (shows.moves injective shows.views (fun m => ?_) (by rw [here]) shows.free)
    by_cases this : m = w
    · simp [this]
    · simp [this, shows.slot m]
  cases pc with
  | mark =>
    obtain rfl := Except.ok.inj ok
    refine stays rfl (shows.moves injective ?_ slot (by rw [← here]; rfl)
      fun q => (shows.free q).mark)
    have views := shows.views.setState injective p .waiting
    rw [← here] at views
    exact views
  | yield =>
    obtain ⟨-, s', yields, rfl⟩ := throughNode_ok ok
    obtain ⟨cpu, passes, views⟩ := shows.yields parks injective yields
    have left : lot.cpu.vacate = lot.cpu.leave p := by simp [Cpu.vacate, running]
    rw [left] at passes
    refine ⟨_, _, cpu, steps rfl, ?_, shows.moves injective views slot (by rw [← here]; rfl)
      fun q => (parks.ordered.spared_call parks'.ordered user (shows.free q) yields).free⟩
    simp only [Waiter.yield, update_eq_self]
    exact passes
  | wake q =>
    simp only [WaiterPc.map, Kernel.wait] at ok
    split at ok
    · cases ok
    rename_i waits
    rw [not_not] at waits
    obtain ⟨-, s', wakes, rfl⟩ := throughNode_ok ok
    have done : Waiter.step p (!holds) (.wake q) ⟨lot.cpu, lot.slot w⟩ =
        .ok (.return_ true, ⟨(lot.cpu.setState q .suspended).schedule q, lot.slot w⟩) := by
      simp [Waiter.step, shows.views.state q, waits]
    refine stays done (shows.moves injective ?_ slot (by rw [← here]; rfl)
      fun b => (shows.free b).rouse (Sys.wake_roused (s := k.toSys) wakes))
    obtain ⟨-, rfl⟩ := Sys.wake_ok (s := k.toSys) wakes
    exact (shows.views.setState injective q .suspended).schedule injective q
  | switch q =>
    obtain ⟨-, s', swaps, rfl⟩ := throughNode_ok ok
    have swaps : k.toSys.swapTo (place q) clock = .ok s' := swaps
    obtain ⟨swapped, -⟩ := Sys.swapTo_swapped swaps
    have apart : q ≠ p := by
      rintro rfl
      exact swapped.other here.symm
    have done : Waiter.step p (!holds) (.switch q) ⟨lot.cpu, lot.slot w⟩ =
        .ok (.goto .swapped, ⟨(lot.cpu.setState p .waiting).switchTo p q, lot.slot w⟩) := by
      simp [Waiter.step, apart]
    have base : k.pc.base = .user := by
      rw [user]
      rfl
    have entered := swapped.runs parks.ordered.balanced (shows.free q)
    refine stays done (shows.moves injective ?_ slot (by rw [← here]; rfl)
      fun b => (shows.free b).swap swapped base entered)
    obtain ⟨-, n, rfl, switches, -⟩ := Sys.swapTo_ok swaps
    have views := (views_setFlag true shows.views).setState injective p .waiting
    rw [← here] at views
    obtain ⟨r, resume⟩ := (shows.free q).resume parks.ordered.balanced swapped.other
    refine views.switchTo injective running ⟨.unlock r, ?_⟩ switches
    have other : place q ≠ k.cur := swapped.other
    simpa [Node.setFlag, other] using resume
  | _ => exact absurd rfl quiet

/-- The first statement of a member function, whatever its tasks are named. -/
def beginning : WaiterCall → WaiterPc ι
  | .parkIf => .claim
  | .unpark => .load
  | .swap => .swapLoad

/-- A call of a member function is seen as it is. -/
theorem Shows.enter {w : WaiterId} (c : WaiterCall) {p : ι} (shows : k.Shows place host lot role)
    (injective : Function.Injective place) (here : k.cur = place p) :
    (k.advance w c.pc).Shows place host lot (update role p (some (w, beginning c))) := by
  refine shows.moves injective shows.views shows.slot ?_ shows.free
  rw [← here]
  cases c <;> rfl

omit [DecidableEq ι] in
/-- Nobody who is seen inside a waiter is outside it. -/
theorem Shows.out {p : ι} (shows : k.Shows place host lot role) (here : k.cur = place p)
    (out : k.inside k.cur = none) : role p = none := by
  rw [here, shows.inside p] at out
  simpa [standing] using out

/-- A call of a member function is followed by the same one. -/
theorem Shows.call_follows {s : Parking WaiterId ι} {w : WaiterId} (c : WaiterCall) {p : ι}
    (shows : k.Shows place host s.lot s.role) (injective : Function.Injective place)
    (here : k.cur = place p) (out : k.inside k.cur = none) :
    ∃ t, s.OrderlyRun t ∧ (k.advance w c.pc).Shows place host t.lot t.role := by
  have running : s.lot.cpu.running = some p := (shows.views.running p).mpr here
  have called : s.call w (beginning c) = _ :=
    Parking.call_run running (shows.out here out)
  refine ⟨{ s with role := update s.role p (some (w, beginning c)) }, ?_,
    shows.enter c injective here⟩
  cases c with
  | parkIf => exact .one (a := .parkIf w) rfl called
  | unpark => exact .one (a := .unpark w) rfl called
  | swap => exact .one (a := .swap w) rfl called

/-- Every step of the kernel thread is followed by orderly steps of the abstract tasks. -/
theorem Shows.step {s : Parking WaiterId ι} (shows : k.Shows place host s.lot s.role)
    (parks : k.Parks host) (inv : s.lot.Inv s.role) (injective : Function.Injective place)
    (undisturbed : k.Undisturbed l) (confined : k.Confined place l) (ok : k.step l = .ok k') :
    ∃ t, s.OrderlyRun t ∧ k'.Shows place host t.lot t.role := by
  have parks' := parks.step undisturbed ok
  cases l with
  | sched l =>
    obtain ⟨cpu, passes, shows'⟩ :=
      shows.sched parks parks' injective confined undisturbed.1 (sched_ok ok)
    exact ⟨_, Parking.follows passes, shows'⟩
  | enter w c =>
    obtain ⟨p, here⟩ := confined
    simp only [Kernel.step] at ok
    split at ok
    · rename_i out
      rw [← Except.ok.inj ok]
      exact shows.call_follows c injective here out.2
    · cases ok
  | wait clock holds =>
    simp only [Kernel.step] at ok
    split at ok
    · rename_i user
      split at ok
      · cases ok
      · rename_i w pc at_
        obtain ⟨p, pc, here, running, there, rfl⟩ := shows.at_statement at_
        obtain ⟨outcome, lot₁, cpu, stepped, passes, shows'⟩ :=
          shows.wait parks parks' injective user here there ok
        have orderly : s.orderly (.run holds) = true :=
          Parking.orderly_run holds running there fun q aims stands =>
            shows.settled_of_fresh inv undisturbed here there aims stands
        have run : s.OrderlyRun _ := .one orderly (Parking.step_run running there stepped)
        exact ⟨_, run.trans (Parking.follows passes), shows'⟩
    · cases ok

/-- The named tasks are all queued in code of the program, and the waiters are empty. -/
structure Gathered (place : ι → Addr) (host : Addr) (k : Kernel) : Prop where
  free : ∀ p, k.toSys.Free host (place p)
  suspended : ∀ p, (k.tasks (place p)).runState = .suspended
  queued : ∀ p, some (place p) ∈ k.rq.runqueue
  inside : ∀ b, k.inside b = none
  waiter : ∀ w, k.waiter w = none

omit [DecidableEq ι] in
/-- The abstract tasks can start there. -/
theorem Gathered.shows (gathered : k₀.Gathered place host) (parks : k₀.Parks host) :
    k₀.Shows place host (Parking.start : Parking WaiterId ι).lot Parking.start.role := by
  obtain ⟨phase, inv⟩ := parks.ordered.order
  have other : ∀ p, k₀.cur ≠ place p := by
    intro p same
    have queued := gathered.queued p
    rw [← same] at queued
    exact (List.nodup_cons.mp inv.queues.nodup).1 queued
  refine ⟨⟨fun p => ?_, fun p => ?_, fun p => ?_⟩, fun w => ?_, fun p => ?_, fun b within => ?_,
    gathered.free⟩
  · simp [Parking.start, other p]
  · exact (gathered.suspended p).symm
  · simp [Parking.start, gathered.queued p]
  · rw [gathered.waiter w]
    rfl
  · rw [gathered.inside]
    rfl
  · exact absurd (gathered.inside b) within

/-- In the kernel thread, tasks that only yield and park run as orderly abstract tasks do. -/
theorem parking_of_confined (injective : Function.Injective place)
    (booted : Run.Reaches step Undisturbed (boot host tick maxSize) k₀)
    (gathered : k₀.Gathered place host)
    (reached : Run.Reaches step (fun k l => k.Undisturbed l ∧ k.Confined place l) k₀ k) :
    ∃ s : Parking WaiterId ι,
      Parking.start.OrderlyRun s ∧ k.Shows place host s.lot s.role ∧ s.Balanced := by
  have parks : k₀.Parks host := booted.invariant (parks_boot host tick maxSize)
    fun k l k' parks undisturbed ok => parks.step undisturbed ok
  obtain ⟨s, run, -, order, shows⟩ : ∃ s : Parking WaiterId ι, Parking.start.OrderlyRun s ∧
      (k.Parks host ∧ (s.lot.Inv s.role ∧ s.Balanced) ∧ k.Shows place host s.lot s.role) := by
    refine reached.simulate (R := fun k (s : Parking WaiterId ι) => k.Parks host ∧
      (s.lot.Inv s.role ∧ s.Balanced) ∧ k.Shows place host s.lot s.role)
      ⟨parks, Parking.order_start, gathered.shows parks⟩ ?_
    rintro k l k' s ⟨parks, order, shows⟩ ⟨undisturbed, confined⟩ ok
    obtain ⟨t, run, shows'⟩ := shows.step parks order.1 injective undisturbed confined ok
    exact ⟨t, run, parks.step undisturbed ok, run.keeps order, shows'⟩
  exact ⟨s, run, shows, order.2⟩

/-- While no waiter is used, nobody is inside one and all are empty. -/
theorem empty_of_unshared
    (reached : Run.Reaches step (fun k l => k.Undisturbed l ∧ k.Unshared l)
      (boot host tick maxSize) k) : (∀ b, k.inside b = none) ∧ ∀ w, k.waiter w = none := by
  refine reached.invariant (P := fun k => (∀ b, k.inside b = none) ∧ ∀ w, k.waiter w = none)
    ⟨fun _ => rfl, fun _ => rfl⟩ ?_
  rintro k l k' ⟨outside, empty⟩ ⟨-, unshared⟩ ok
  cases l with
  | enter | wait => exact unshared.elim
  | sched l =>
    have scheduled := sched_ok ok
    refine ⟨fun b => ?_, fun w => by rw [scheduled.waiter, empty w]⟩
    rw [scheduled.inside]
    split_ifs
    · by_cases here : b = k.cur
      · simp [here]
      · simp [here, outside b]
    · exact outside b

/-- The named tasks are queued, and were preempted in code of the program. -/
def Ready (place : ι → Addr) (k : Kernel) : Prop :=
  ∀ p, (k.tasks (place p)).runState = .suspended ∧ (k.tasks (place p)).scheduled = true ∧
    k.toSys.at_ (place p) = .user ∧ some (place p) ∈ k.rq.runqueue

instance [Fintype ι] (place : ι → Addr) (k : Kernel) : Decidable (k.Ready place) :=
  inferInstanceAs (Decidable (∀ p, (k.tasks (place p)).runState = .suspended ∧
    (k.tasks (place p)).scheduled = true ∧ k.toSys.at_ (place p) = .user ∧
    some (place p) ∈ k.rq.runqueue))

omit [DecidableEq ι] in
/-- Tasks that have come into code of the program are gathered while no waiter is used. -/
theorem gathered_of_unshared (booted : Run.Reaches step (fun k l => k.Undisturbed l ∧ k.Unshared l)
      (boot host tick maxSize) k)
    (ready : k.Ready place) : k.Gathered place host := by
  obtain ⟨outside, empty⟩ := empty_of_unshared booted
  have free : ∀ p, k.toSys.Free host (place p) := by
    intro p
    obtain ⟨suspended, scheduled, user, -⟩ := ready p
    refine ⟨?_, .inr scheduled, user⟩
    simp [suspended]
  exact ⟨free, fun p => (ready p).1, fun p => (ready p).2.2.2, outside, empty⟩

/-- A trap that charges the running task up to a time, and the end of the one before. -/
def trapAt (now : Int) : List KernelLabel :=
  [.sched (.trap (Sys.clockAt now)), .sched (.run Sys.stillClock 0)]

/-- The host spawns two tasks, which come into code of the program and are preempted there. -/
def gatherLabels : List KernelLabel :=
  List.flatten [(Sys.spawnInto kLightAttr 0 1 ++ Sys.spawnInto kLightAttr 1 2).map .sched,
    trapAt 5000, trapAt 20000, trapAt 40000]

/-- The first task parks, and the second one unparks it. -/
def wakeLabels : List KernelLabel :=
  List.flatten [trapAt 60000, [.enter 0 .parkIf],
    List.replicate 4 (.wait (Sys.clockAt 60000) true),
    [.sched (.run Sys.stillClock 0), .enter 0 .unpark],
    List.replicate 4 (.wait (Sys.clockAt 60000) true)]

/-- The blocks of the two tasks. -/
def twoTasks (p : Fin 2) : Addr := p.val + 1

/-- The two abstract tasks have done so too: the first one has slept, and was woken. -/
theorem parking_of_confined_wake : ∃ (k : Kernel) (s : Parking WaiterId (Fin 2)),
    Parking.start.OrderlyRun s ∧ k.Shows twoTasks 0 s.lot s.role ∧ k.cur = 2 ∧ k.waiter 0 = none ∧
      some 1 ∈ k.rq.runqueue ∧ s.slept 0 = s.ended 0 := by
  have run : ∃ k₀, Run.Reaches step (fun k l => k.Undisturbed l ∧ k.Unshared l) (boot 0 0 4) k₀ ∧
      k₀.Ready twoTasks ∧
      (Run.exec step (fun k l => k.Undisturbed l ∧ k.Confined twoTasks l) k₀ wakeLabels).any
        (fun k => decide (k.cur = 2 ∧ k.waiter 0 = none ∧ some 1 ∈ k.rq.runqueue ∧
          (k.tasks 1).runState = .suspended)) = true :=
    Run.Reaches.of_check gatherLabels (by decide +kernel)
  obtain ⟨k₀, booted, ready, passes⟩ := run
  have injective : Function.Injective twoTasks := by decide
  obtain ⟨k, reached, here, released, queued, suspended⟩ := Run.Reaches.of_check wakeLabels passes
  obtain ⟨s, follows, shows, balanced⟩ := parking_of_confined injective
    (booted.mono fun _ _ => And.left) (gathered_of_unshared booted ready) reached
  refine ⟨k, s, follows, shows, here, released, queued, balanced.free 0 ?_⟩
  rintro ⟨waiting, -⟩
  rw [shows.views.state 0, show twoTasks 0 = 1 from rfl, suspended] at waiting
  cases waiting

end Kernel

end Gthread

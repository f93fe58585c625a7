import Gthread.Lib.Run
import Gthread.Sched.Rq
import Mathlib.Algebra.Order.Group.Multiset

/-! When the sleep queue wakes its sleepers, and when popping the run queue conserves tasks. -/

namespace Gthread

namespace TimeOrderedQueue

variable {T : Type}

/-- A call on a time-ordered queue, with the clock reading a pop makes. -/
inductive Op (T : Type) where
  | push (ripe : Int) (u : T)
  | pop (now : Int) (ripe : Option Int)

/-- The value pushed is not the one a pop returns when nothing is ripe. -/
def Op.NonNull [Inhabited T] : Op T → Prop
  | .push _ u => u ≠ default
  | .pop _ _ => True

/-- The queue one call leaves behind. -/
def step [Inhabited T] (q : TimeOrderedQueue T) : Op T → Except Fault (TimeOrderedQueue T)
  | .push ripe u => .ok (q.push ripe u)
  | .pop now ripe => (q.pop now ripe).map fun out => out.2.2

/-- What the pops of a run return and write, with the queue left where the run ends. -/
def run [Inhabited T] :
    TimeOrderedQueue T → List (Op T) → List (T × Option Int) × TimeOrderedQueue T
  | q, [] => ([], q)
  | q, .push ripe u :: ops => run (q.push ripe u) ops
  | q, .pop now ripe :: ops =>
    match q.pop now ripe with
    | .ok (t, written, rest) => ((t, written) :: (run rest ops).1, (run rest ops).2)
    -- Popping an empty queue is outside the contract and ends the run.
    | .error _ => ([], q)

/--
The same calls on a log of arrivals, as the queue's documentation has them.

A pop takes the earliest entry exactly when the clock has reached its ripe time.
-/
def ripeRun [Inhabited T] : List (Int × T) → List (Op T) → List (T × Option Int) × List (Int × T)
  | log, [] => ([], log)
  | log, .push ripe u :: ops => ripeRun (log ++ [(ripe, u)]) ops
  | log, .pop now ripe :: ops =>
    match StableQueue.earliest log with
    | none => ([], log)
    | some (least, others) =>
      let written := ripe.map fun _ => least.1
      if least.1 ≤ now then
        ((least.2, written) :: (ripeRun others ops).1, (ripeRun others ops).2)
      else ((default, written) :: (ripeRun log ops).1, (ripeRun log ops).2)

/-- A run from the empty queue returns and keeps exactly what the documented queue does. -/
def Law [Inhabited T] (ops : List (Op T)) : Prop :=
  run [] ops = ((ripeRun [] ops).1, StableQueue.arrange (ripeRun [] ops).2)

/-- A pop reads the clock at the very moment the first entry becomes ripe. -/
def OnTime (q : TimeOrderedQueue T) : Op T → Prop
  | .push _ _ => True
  | .pop now _ => ∀ first ∈ q.head?, first.1 = now

/-- The documented run and the code agree from any log exactly when every pop is on time. -/
private theorem run_eq_ripeRun_iff [Inhabited T] (ops : List (Op T)) (log : List (Int × T))
    (kept : ∀ entry ∈ log, entry.2 ≠ default) (pushed : ∀ op ∈ ops, op.NonNull) :
    run (StableQueue.arrange log) ops =
        ((ripeRun log ops).1, StableQueue.arrange (ripeRun log ops).2) ↔
      Run.Along step OnTime (StableQueue.arrange log) ops := by
  -- The induction is on the calls, with the queue always the arranged log.
  induction ops generalizing log with
  | nil => simp [run, ripeRun, Run.Along]
  | cons op ops ih =>
    have later : ∀ op ∈ ops, op.NonNull :=
      fun op member => pushed op (List.mem_cons_of_mem _ member)
    cases op with
    | push ripe u =>
      have fresh : u ≠ default := pushed (.push ripe u) List.mem_cons_self
      have grown := ih (log ++ [(ripe, u)]) (by
        intro entry member
        rcases List.mem_append.mp member with member | member
        · exact kept entry member
        · simp only [List.mem_singleton] at member
          simpa [member] using fresh) later
      rw [StableQueue.arrange_concat] at grown
      simpa only [run, ripeRun, push, Run.Along, OnTime, step, true_and] using grown
    | pop now ripe =>
      by_cases empty : log = []
      · simp [empty, run, ripeRun, StableQueue.arrange, StableQueue.earliest, pop, Run.Along,
          OnTime, step, Except.map]
      · obtain ⟨least, before, after, cut, found, -, -⟩ := StableQueue.earliest_split empty
        have arranged := StableQueue.arrange_earliest found
        have present : least.2 ≠ default := kept least (by simp [cut])
        have rest : ∀ entry ∈ before ++ after, entry.2 ≠ default := by
          intro entry member
          refine kept entry ?_
          rw [cut]
          rcases List.mem_append.mp member with member | member <;> simp [member]
        rcases lt_trichotomy least.1 now with early | same | late
        · -- Past its ripe time the entry is due, but the code leaves it on the queue.
          simp [run, ripeRun, found, arranged, pop, Run.Along, OnTime, early.le,
            not_le.mpr early, present.symm, early.ne]
        · have due := ih (before ++ after) rest later
          simp only [run, ripeRun, found, arranged, pop, Run.Along, OnTime, step, Except.map]
          simp only [same, le_refl, ↓reduceIte, List.head?_cons, Option.mem_def,
            Option.some.injEq, forall_eq', true_and]
          rw [← due]
          simp only [Prod.mk.injEq, List.cons.injEq, true_and]
          -- The pop itself agrees, so equal runs are equal remainders, part by part.
          constructor
          · rintro ⟨returned, kept⟩
            exact Prod.ext returned kept
          · intro whole
            exact ⟨by rw [whole], by rw [whole]⟩
        · -- Before its ripe time nothing is due, but the code already returns the entry.
          simp [run, ripeRun, found, arranged, pop, Run.Along, OnTime, late.le, not_le.mpr late,
            present, late.ne']

end TimeOrderedQueue

namespace Rq

/-- The queues of a node that has not scheduled anything yet. -/
def init : Rq := ⟨[], [], 0⟩

/-- Neither queue holds a null pointer. -/
def NonNull (q : Rq) : Prop :=
  none ∉ q.runqueue ∧ ∀ entry ∈ q.sleepqueue, entry.2 ≠ none

/-- All tasks held, over both queues. -/
def contents (q : Rq) : Multiset TaskPtr :=
  (q.runqueue : Multiset TaskPtr) + (q.sleepqueue.map Prod.snd : List TaskPtr)

/-- A pop returns a task it held, keeps all the others, and neither loses nor invents one. -/
def PopConserves (vruntime : Addr → Int) (now : Int) (idle : Int → Int) (q : Rq) : Prop :=
  ∃ t q', q.pop vruntime now idle = .ok (t, q') ∧ some t ∈ q.contents ∧
    some t ::ₘ q'.contents = q.contents ∧ q'.NonNull

variable {vruntime : Addr → Int} {now : Int} {idle : Int → Int} {q q' : Rq}

/-- Emplacing adds the task and keeps the others. -/
theorem emplace_perm (vruntime : Addr → Int) (t : TaskPtr) (runqueue : List TaskPtr) :
    (emplace vruntime t runqueue).Perm (t :: runqueue) :=
  List.perm_orderedInsert _ _ _

/-- With no sleepers and something to run, waking does nothing. -/
theorem wakeSleeper_awake (asleep : q.sleepqueue = []) (ready : q.runqueue ≠ []) :
    q.wakeSleeper vruntime now idle = .ok q := by
  simp [wakeSleeper, asleep, TimeOrderedQueue.empty, ready, pure, Except.pure]

/-- A first sleeper whose ripe time is not yet past is moved to the run queue. -/
theorem wakeSleeper_moves (vruntime : Addr → Int) (idle : Int → Int) {ripe : Int} {sleeper : Addr}
    {rest : TimeOrderedQueue TaskPtr}
    (first : q.sleepqueue = (ripe, some sleeper) :: rest) (ahead : now ≤ ripe) :
    q.wakeSleeper vruntime now idle =
      .ok { q with
        runqueue := emplace vruntime (some sleeper) q.runqueue, sleepqueue := rest } := by
  simp [wakeSleeper, first, TimeOrderedQueue.empty, TimeOrderedQueue.pop, ahead, pure, Except.pure,
    Bind.bind, Except.bind]

/-- A first sleeper whose ripe time is past stays asleep while something else can run. -/
theorem wakeSleeper_stays {ripe : Int} {sleeper : TaskPtr} {rest : TimeOrderedQueue TaskPtr}
    (first : q.sleepqueue = (ripe, sleeper) :: rest) (past : ripe < now)
    (ready : q.runqueue ≠ []) : q.wakeSleeper vruntime now idle = .ok q := by
  cases q
  subst first
  simp_all [wakeSleeper, Option.default_eq_none, TimeOrderedQueue.empty, TimeOrderedQueue.pop,
    not_le.mpr past, pure,
    Except.pure, Bind.bind, Except.bind]

/-- With nothing to run and the first sleeper past its ripe time, a null is emplaced. -/
theorem wakeSleeper_null (vruntime : Addr → Int) {ripe : Int} {sleeper : TaskPtr}
    {rest : TimeOrderedQueue TaskPtr}
    (first : q.sleepqueue = (ripe, sleeper) :: rest) (past : ripe < now)
    (idled : ripe ≤ idle ripe) (empty : q.runqueue = []) :
    q.wakeSleeper vruntime now idle = .ok { q with runqueue := [none] } := by
  cases q
  subst first empty
  simp [wakeSleeper, Option.default_eq_none, TimeOrderedQueue.empty, TimeOrderedQueue.pop,
    not_le.mpr past, idled, emplace, pure, Except.pure, Bind.bind, Except.bind]

/-- What taking the first task does to the queues. -/
theorem takeFirst_ok {t : Addr} (taken : q.takeFirst vruntime = .ok (t, q')) :
    q.runqueue = some t :: q'.runqueue ∧ q'.sleepqueue = q.sleepqueue ∧
      q'.minVruntime = if q.minVruntime < vruntime t then vruntime t else q.minVruntime := by
  simp only [takeFirst] at taken
  split at taken
  · simp at taken
  · simp at taken
  · rename_i first rest runnable
    simp only [Except.ok.injEq, Prod.mk.injEq] at taken
    obtain ⟨rfl, rfl⟩ := taken
    exact ⟨runnable, rfl, rfl⟩

/-- Everything a successful pop can have done to queues without nulls. -/
theorem pop_cases {t : Addr} (nonNull : q.NonNull)
    (popped : q.pop vruntime now idle = .ok (t, q')) :
    (q.runqueue = some t :: q'.runqueue ∧ q'.sleepqueue = q.sleepqueue ∧
      ∀ first ∈ q.sleepqueue.head?, first.1 < now) ∨
    (∃ ripe sleeper, q.sleepqueue = (ripe, some sleeper) :: q'.sleepqueue ∧ now ≤ ripe ∧
      emplace vruntime (some sleeper) q.runqueue = some t :: q'.runqueue) := by
  cases woke : q.wakeSleeper vruntime now idle with
  | error fault => simp [pop, woke, Bind.bind, Except.bind] at popped
  | ok woken =>
    have taken : woken.takeFirst vruntime = .ok (t, q') := by
      simpa [pop, woke, Bind.bind, Except.bind] using popped
    obtain ⟨front, asleep, -⟩ := takeFirst_ok taken
    cases sleepers : q.sleepqueue with
    | nil =>
      have ready : q.runqueue ≠ [] := by
        intro empty
        simp [wakeSleeper, sleepers, empty, TimeOrderedQueue.empty] at woke
      rw [wakeSleeper_awake sleepers ready, Except.ok.injEq] at woke
      subst woke
      exact .inl ⟨front, by rw [asleep, sleepers], by simp⟩
    | cons first rest =>
      obtain ⟨ripe, sleeper⟩ := first
      rcases le_or_gt now ripe with ahead | past
      · cases sleeper with
        | none => exact absurd rfl (nonNull.2 (ripe, none) (by simp [sleepers]))
        | some sleeper =>
          rw [wakeSleeper_moves vruntime idle sleepers ahead, Except.ok.injEq] at woke
          subst woke
          exact .inr ⟨ripe, sleeper, by rw [asleep], ahead, front⟩
      · by_cases ready : q.runqueue = []
        · -- The idle branch leaves a null at the front, or fails its assertion.
          by_cases idled : ripe ≤ idle ripe
          · rw [wakeSleeper_null vruntime sleepers past idled ready, Except.ok.injEq] at woke
            subst woke
            simp at front
          · cases q
            subst sleepers ready
            simp [wakeSleeper, TimeOrderedQueue.empty, TimeOrderedQueue.pop, Option.default_eq_none,
              not_le.mpr past, idled, Bind.bind, Except.bind] at woke
        · rw [wakeSleeper_stays sleepers past ready, Except.ok.injEq] at woke
          subst woke
          exact .inl ⟨front, by rw [asleep, sleepers], by simpa using past⟩

/-- A successful pop leaves no null behind. -/
theorem pop_nonNull {t : Addr} (nonNull : q.NonNull)
    (popped : q.pop vruntime now idle = .ok (t, q')) : q'.NonNull := by
  obtain ⟨runnable, asleep⟩ := nonNull
  rcases pop_cases ⟨runnable, asleep⟩ popped
    with ⟨front, same, -⟩ | ⟨ripe, sleeper, first, -, front⟩
  · refine ⟨?_, same ▸ asleep⟩
    rw [front] at runnable
    exact fun member => runnable (List.mem_cons_of_mem _ member)
  · refine ⟨?_, fun entry member => asleep entry (by simp [first, member])⟩
    have valid : none ∉ emplace vruntime (some sleeper) q.runqueue := by
      simpa [(emplace_perm vruntime (some sleeper) q.runqueue).mem_iff] using runnable
    rw [front] at valid
    exact fun member => valid (List.mem_cons_of_mem _ member)

/-- A successful pop moves one task from the queues into the result. -/
theorem pop_contents {t : Addr} (nonNull : q.NonNull)
    (popped : q.pop vruntime now idle = .ok (t, q')) : some t ::ₘ q'.contents = q.contents := by
  rcases pop_cases nonNull popped with ⟨front, same, -⟩ | ⟨ripe, sleeper, first, -, front⟩
  · simp [contents, front, same]
  · have moved : ((some t :: q'.runqueue : List TaskPtr) : Multiset TaskPtr) =
        (some sleeper :: q.runqueue : List TaskPtr) := by
      rw [← front]
      exact Multiset.coe_eq_coe.mpr (emplace_perm _ _ _)
    simp only [contents, first, List.map_cons, ← Multiset.cons_coe, ← Multiset.cons_add,
      Multiset.add_cons] at moved ⊢
    rw [moved]

/-- A runnable task is popped or stays runnable. -/
theorem pop_runnable {t next : Addr} (nonNull : q.NonNull) (runnable : some t ∈ q.runqueue)
    (popped : q.pop vruntime now idle = .ok (next, q')) : next = t ∨ some t ∈ q'.runqueue := by
  rcases pop_cases nonNull popped with ⟨front, -, -⟩ | ⟨ripe, sleeper, -, -, front⟩
  · rw [front] at runnable
    simpa [eq_comm] using runnable
  · have member : some t ∈ emplace vruntime (some sleeper) q.runqueue := by
      rw [(emplace_perm _ _ _).mem_iff]
      exact List.mem_cons_of_mem _ runnable
    rw [front] at member
    simpa [eq_comm] using member

/-- An element not yet in a list is inserted in front exactly when it goes before the first one. -/
theorem orderedInsert_front {α : Type} {r : α → α → Prop} [DecidableRel r] {a : α} {l rest : List α}
    (fresh : a ∉ l) : l.orderedInsert r a = a :: rest ↔ (∀ b ∈ l.head?, r a b) ∧ rest = l := by
  cases l with
  | nil => simp [eq_comm]
  | cons b l =>
    have apart : b ≠ a := fun same => fresh (same ▸ List.mem_cons_self)
    by_cases before : r a b
    · simp [List.orderedInsert, before, eq_comm]
    · simp [List.orderedInsert, before, apart]

/-- Putting a task to sleep adds no null. -/
theorem sleepPush_nonNull (start duration : Int) (cur : Addr) (nonNull : q.NonNull) :
    (q.sleepPush start duration cur).NonNull := by
  refine ⟨nonNull.1, fun entry member => ?_⟩
  have either : entry = (start + duration, some cur) ∨ entry ∈ q.sleepqueue := by
    simpa [sleepPush, TimeOrderedQueue.push, (StableQueue.insert_perm _ _).mem_iff] using member
  rcases either with rfl | old
  · simp
  · exact nonNull.2 entry old

/-- A task that just went to sleep is popped exactly when it is soonest, due and foremost. -/
theorem pop_self_iff {start duration : Int} {cur : Addr} (nonNull : q.NonNull)
    (absent : some cur ∉ q.contents) :
    (∃ q', (q.sleepPush start duration cur).pop vruntime now idle = .ok (cur, q')) ↔
      (∀ first ∈ q.sleepqueue.head?, start + duration < first.1) ∧ now ≤ start + duration ∧
      ∀ first ∈ q.runqueue.head?, timeOrderedCompare vruntime (some cur) first := by
  have awake : some cur ∉ q.runqueue := fun member => absent (by simp [contents, member])
  have entry : ∀ ripe, (ripe, some cur) ∉ q.sleepqueue := by
    intro ripe member
    apply absent
    simp only [contents, Multiset.mem_add, Multiset.mem_coe, List.mem_map]
    exact .inr ⟨_, member, rfl⟩
  have inserted : ∀ rest, (q.sleepPush start duration cur).sleepqueue =
      (start + duration, some cur) :: rest ↔
      (∀ first ∈ q.sleepqueue.head?, start + duration < first.1) ∧ rest = q.sleepqueue :=
    fun rest => orderedInsert_front (entry _)
  have emplaced : ∀ rest, emplace vruntime (some cur) q.runqueue = some cur :: rest ↔
      (∀ first ∈ q.runqueue.head?, timeOrderedCompare vruntime (some cur) first) ∧
      rest = q.runqueue :=
    fun rest => orderedInsert_front awake
  constructor
  · rintro ⟨q', popped⟩
    have slept := sleepPush_nonNull start duration cur nonNull
    rcases pop_cases slept popped with ⟨front, -, -⟩ | ⟨ripe, sleeper, first, ahead, front⟩
    · -- The caller set its state before the call, so it is not on the run queue.
      exact absurd (front ▸ List.mem_cons_self : some cur ∈ q.runqueue) awake
    · have woken : sleeper = cur := by
        have member : some cur ∈ emplace vruntime (some sleeper) q.runqueue := by
          exact front ▸ List.mem_cons_self
        rw [(emplace_perm _ _ _).mem_iff] at member
        simpa [awake, eq_comm] using member
      subst woken
      have own : ripe = start + duration := by
        have member : (ripe, some sleeper) ∈ (q.sleepPush start duration sleeper).sleepqueue :=
          first ▸ List.mem_cons_self
        simpa [sleepPush, TimeOrderedQueue.push, (StableQueue.insert_perm _ _).mem_iff,
          entry ripe] using member
      subst own
      exact ⟨((inserted _).mp first).1, ahead, ((emplaced _).mp front).1⟩
  · rintro ⟨soonest, due, foremost⟩
    have first := (inserted _).mpr ⟨soonest, rfl⟩
    have woke := wakeSleeper_moves vruntime idle first due
    rw [show (q.sleepPush start duration cur).runqueue = q.runqueue from rfl,
      (emplaced _).mpr ⟨foremost, rfl⟩] at woke
    exact ⟨_, by rw [pop, woke]; rfl⟩

/-- Taking the first of a run queue without nulls conserves what both queues hold. -/
theorem takeFirst_conserves (vruntime : Addr → Int) (ready : q.runqueue ≠ [])
    (nonNull : q.NonNull) :
    ∃ t q', q.takeFirst vruntime = .ok (t, q') ∧ q.runqueue = some t :: q'.runqueue ∧
      q'.sleepqueue = q.sleepqueue := by
  obtain ⟨valid, _⟩ := nonNull
  cases runnable : q.runqueue with
  | nil => exact absurd runnable ready
  | cons first rest =>
    cases first with
    | none => simp [runnable] at valid
    | some t =>
      refine ⟨t, { q with
        runqueue := rest
        minVruntime := if q.minVruntime < vruntime t then vruntime t else q.minVruntime },
        ?_, rfl, rfl⟩
      simp only [takeFirst, runnable]

/-- Once a sleeper was moved, or none had to be, the pop conserves. -/
private theorem pop_conserves_of_wake {woken : Rq}
    (woke : q.wakeSleeper vruntime now idle = .ok woken) (ready : woken.runqueue ≠ [])
    (nonNull : woken.NonNull) (same : woken.contents = q.contents) :
    PopConserves vruntime now idle q := by
  obtain ⟨t, q', taken, front, asleep⟩ := takeFirst_conserves vruntime ready nonNull
  have whole : some t ::ₘ q'.contents = q.contents := by
    rw [← same, contents, contents, front, asleep]
    exact (Multiset.cons_add _ _ _).symm
  refine ⟨t, q', by simp [pop, woke, taken, Bind.bind, Except.bind], ?_, whole, ?_⟩
  · rw [← whole]
    exact Multiset.mem_cons_self _ _
  · refine ⟨?_, ?_⟩
    · have valid := nonNull.1
      rw [front] at valid
      exact fun member => valid (List.mem_cons_of_mem _ member)
    · rw [asleep]
      exact nonNull.2

/-- Moving the first sleeper to the run queue keeps what both queues hold. -/
private theorem contents_moved {ripe : Int} {sleeper : TaskPtr} {rest : TimeOrderedQueue TaskPtr}
    (first : q.sleepqueue = (ripe, sleeper) :: rest) :
    contents { q with runqueue := emplace vruntime sleeper q.runqueue, sleepqueue := rest } =
      q.contents := by
  have grown : (emplace vruntime sleeper q.runqueue : Multiset TaskPtr) =
      sleeper ::ₘ (q.runqueue : Multiset TaskPtr) :=
    Multiset.coe_eq_coe.mpr (emplace_perm vruntime sleeper q.runqueue)
  simp only [contents, first, grown, List.map_cons, ← Multiset.cons_coe, Multiset.cons_add,
    Multiset.add_cons]

/-- A pop conserves tasks exactly when it need not wait for a sleeper already past its time. -/
theorem pop_conserves_iff (vruntime : Addr → Int) (now : Int) (idle : Int → Int) (q : Rq)
    (held : q.runqueue ≠ [] ∨ q.sleepqueue ≠ []) (nonNull : q.NonNull)
    (idles : ∀ wake, wake ≤ idle wake) :
    PopConserves vruntime now idle q ↔
      (q.runqueue ≠ [] ∨ ∃ first ∈ q.sleepqueue.head?, now ≤ first.1) := by
  cases asleep : q.sleepqueue with
  | nil =>
    have ready : q.runqueue ≠ [] := held.resolve_right (by simp [asleep])
    simp only [ready, ne_eq, not_false_eq_true, true_or, iff_true]
    exact pop_conserves_of_wake (wakeSleeper_awake asleep ready) ready nonNull rfl
  | cons first rest =>
    obtain ⟨ripe, sleeper⟩ := first
    simp only [List.head?_cons, Option.mem_def, Option.some.injEq, exists_eq_left']
    cases sleeper with
    | none => exact absurd rfl (nonNull.2 (ripe, none) (by simp [asleep]))
    | some sleeper =>
      by_cases ahead : now ≤ ripe
      · -- The sleeper joins the run queue, which is then not empty whatever it held.
        simp only [ahead, or_true, iff_true]
        have grown := emplace_perm vruntime (some sleeper) q.runqueue
        refine pop_conserves_of_wake (wakeSleeper_moves vruntime idle asleep ahead) ?_ ⟨?_, ?_⟩
          (contents_moved asleep)
        · intro empty
          have vanished : emplace vruntime (some sleeper) q.runqueue = [] := empty
          simp [vanished] at grown
        · simpa [grown.mem_iff] using nonNull.1
        · exact fun entry member => nonNull.2 entry (by simp [asleep, member])
      · by_cases ready : q.runqueue = []
        · -- The idle branch emplaces the null, and reading its runtime is undefined.
          have woke := wakeSleeper_null vruntime asleep (not_le.mp ahead)
            (idles ripe) ready
          simp [PopConserves, pop, woke, takeFirst, Bind.bind, Except.bind, ahead, ready]
        · simp only [ready, ne_eq, not_false_eq_true, true_or, iff_true]
          exact pop_conserves_of_wake (wakeSleeper_stays asleep (not_le.mp ahead) ready) ready
            nonNull rfl

/-- A sleeper still ahead of its time is returned, which conserves tasks. -/
theorem pop_conserves_sleeper :
    PopConserves (fun _ => 0) 5 id ⟨[], [(10, some 1)], 0⟩ :=
  (pop_conserves_iff (fun _ => 0) 5 id ⟨[], [(10, some 1)], 0⟩ (by decide)
    ⟨by decide, by decide⟩ (fun _ => le_refl _)).mpr (Or.inr ⟨(10, some 1), rfl, by decide⟩)

/-- When everything sleeps and the first sleeper is due, the pop reads through a null. -/
theorem pop_overdue_undefined :
    (⟨[], [(5, some 1)], 0⟩ : Rq).pop (fun _ => 0) 6 id = .error .undefined ∧
      ¬ PopConserves (fun _ => 0) 6 id ⟨[], [(5, some 1)], 0⟩ := by
  have fault : (⟨[], [(5, some 1)], 0⟩ : Rq).pop (fun _ => 0) 6 id = .error .undefined := rfl
  exact ⟨fault, by simp [PopConserves, fault]⟩

/-- A call on the queues, with the runtimes and clock readings it sees. -/
inductive Op where
  | push (vruntime : Addr → Int) (t : TaskPtr)
  | sleepPush (now duration : Int) (cur : Addr)
  | pop (vruntime : Addr → Int) (now : Int) (idle : Int → Int)

/-- Only tasks are pushed, never a null. -/
def Op.NonNull : Op → Prop
  | .push _ t => t ≠ none
  | _ => True

/-- The queues one call leaves behind. -/
def step (q : Rq) : Op → Except Fault Rq
  | .push vruntime t => .ok (q.push vruntime t)
  | .sleepPush now duration cur => .ok (q.sleepPush now duration cur)
  | .pop vruntime now idle => (q.pop vruntime now idle).map Prod.snd

/-- A pop moves the first sleeper to the run queue, from which it may be the task returned. -/
def Moves (vruntime : Addr → Int) (now : Int) (idle : Int → Int) (q : Rq) (sleeper : TaskPtr) :
    Prop :=
  ∃ t q', q.pop vruntime now idle = .ok (t, q') ∧ q'.sleepqueue = q.sleepqueue.tail ∧
    (some t :: q'.runqueue).Perm (sleeper :: q.runqueue)

/--
A sleeper at the head of the sleep queue is moved exactly when its ripe time has come.

An entry's ripe time is the clock at `sleep_push` plus the duration asked for.
-/
def SleepLaw (q : Rq) : Op → Prop
  | .pop vruntime now idle =>
    ∀ first ∈ q.sleepqueue.head?, Moves vruntime now idle q first.2 ↔ first.1 ≤ now
  | _ => True

/-- A pop reads the clock at the very moment the first sleeper becomes ripe. -/
def OnTime (q : Rq) : Op → Prop
  | .pop _ now _ => ∀ first ∈ q.sleepqueue.head?, first.1 = now
  | _ => True

/-- Calls that push only tasks keep nulls out of both queues. -/
theorem step_nonNull (q : Rq) (op : Op) (q' : Rq) (pushed : op.NonNull) (nonNull : q.NonNull)
    (stepped : q.step op = .ok q') : q'.NonNull := by
  cases op with
  | push vruntime t =>
    simp only [step, Except.ok.injEq] at stepped
    subst stepped
    refine ⟨?_, nonNull.2⟩
    simpa [push, (emplace_perm vruntime t q.runqueue).mem_iff, nonNull.1] using pushed.symm
  | sleepPush now duration cur =>
    simp only [step, Except.ok.injEq] at stepped
    subst stepped
    exact sleepPush_nonNull now duration cur nonNull
  | pop vruntime now idle =>
    cases popped : q.pop vruntime now idle with
    | error fault => simp [step, popped, Except.map] at stepped
    | ok out =>
      simp only [step, popped, Except.map, Except.ok.injEq] at stepped
      subst stepped
      exact pop_nonNull nonNull popped

/-- The code moves the first sleeper exactly when its ripe time is not yet past. -/
theorem moves_iff {ripe : Int} {sleeper : Addr} {rest : TimeOrderedQueue TaskPtr}
    (nonNull : q.NonNull) (first : q.sleepqueue = (ripe, some sleeper) :: rest) :
    Moves vruntime now idle q (some sleeper) ↔ now ≤ ripe := by
  have grown := emplace_perm vruntime (some sleeper) q.runqueue
  constructor
  · rintro ⟨t, q', popped, shorter, -⟩
    rcases pop_cases nonNull popped with ⟨-, same, -⟩ | ⟨at_, moved, front, ahead, -⟩
    · -- Keeping the sleeper contradicts a shorter sleep queue.
      simp [same, first] at shorter
    · simp only [first, List.cons.injEq, Prod.mk.injEq] at front
      exact front.1.1 ▸ ahead
  · intro ahead
    have woke := wakeSleeper_moves vruntime idle first ahead
    have ready : emplace vruntime (some sleeper) q.runqueue ≠ [] := by
      intro empty
      simp [empty] at grown
    have valid : none ∉ emplace vruntime (some sleeper) q.runqueue := by
      simpa [grown.mem_iff] using nonNull.1
    obtain ⟨t, q', taken, front, asleep⟩ := takeFirst_conserves vruntime
      (q := { q with runqueue := emplace vruntime (some sleeper) q.runqueue, sleepqueue := rest })
      ready ⟨valid, fun entry member => nonNull.2 entry (by simp [first, member])⟩
    refine ⟨t, q', by simp [pop, woke, taken, Bind.bind, Except.bind], by rw [asleep, first]; rfl,
      ?_⟩
    rw [← front]
    exact grown

/-- One call keeps the sleep law exactly when it is on time. -/
theorem sleepLaw_iff_onTime (q : Rq) (op : Op) (nonNull : q.NonNull) :
    q.SleepLaw op ↔ q.OnTime op := by
  cases op with
  | push vruntime t => exact Iff.rfl
  | sleepPush now duration cur => exact Iff.rfl
  | pop vruntime now idle =>
    cases asleep : q.sleepqueue with
    | nil => simp [SleepLaw, OnTime, asleep]
    | cons first rest =>
      obtain ⟨ripe, sleeper⟩ := first
      cases sleeper with
      | none => exact absurd rfl (nonNull.2 (ripe, none) (by simp [asleep]))
      | some sleeper =>
        -- Moving on `now ≤ ripe` and being due on `ripe ≤ now` agree only at equality.
        simp only [SleepLaw, OnTime, asleep, List.head?_cons, Option.mem_def, Option.some.injEq,
          forall_eq', moves_iff nonNull asleep]
        omega

end Rq

/--
The sleep queue law holds along a run exactly when every pop is on time.

The first part is about the container alone, the second about the sleepers of a run queue.
-/
theorem sleep_queue_law_iff {T : Type} [Inhabited T] (ops : List (TimeOrderedQueue.Op T))
    (calls : List Rq.Op) (pushed : ∀ op ∈ ops, op.NonNull) (queued : ∀ op ∈ calls, op.NonNull) :
    (TimeOrderedQueue.Law ops ↔
      Run.Along TimeOrderedQueue.step TimeOrderedQueue.OnTime [] ops) ∧
    (Run.Along Rq.step Rq.SleepLaw Rq.init calls ↔ Run.Along Rq.step Rq.OnTime Rq.init calls) := by
  constructor
  · exact TimeOrderedQueue.run_eq_ripeRun_iff ops [] (by simp) pushed
  · exact Run.Along.congr Rq.step_nonNull (fun q op _ nonNull => q.sleepLaw_iff_onTime op nonNull)
      calls queued ⟨by simp [Rq.init], by simp [Rq.init]⟩

/-- A pop at the ripe time itself keeps the law, in the container and for a sleeper. -/
theorem sleep_queue_law_on_time :
    TimeOrderedQueue.Law [.push 10 (some 1 : TaskPtr), .pop 10 (some 0)] ∧
      Run.Along Rq.step Rq.SleepLaw Rq.init [.sleepPush 0 10 1, .pop (fun _ => 0) 10 id] := by
  have laws := sleep_queue_law_iff [.push 10 (some 1 : TaskPtr), .pop 10 (some 0)]
    [.sleepPush 0 10 1, .pop (fun _ => 0) 10 id]
    (by simp [TimeOrderedQueue.Op.NonNull, Option.default_eq_none]) (by simp [Rq.Op.NonNull])
  refine ⟨laws.1.mpr ?_, laws.2.mpr ?_⟩
  · simp [Run.Along, TimeOrderedQueue.step, TimeOrderedQueue.OnTime, TimeOrderedQueue.push,
      StableQueue.insert, TimeOrderedQueue.pop, Except.map]
  · simp [Run.Along, Rq.step, Rq.OnTime, Rq.sleepPush, Rq.init, TimeOrderedQueue.push,
      StableQueue.insert, Rq.pop, Rq.wakeSleeper, TimeOrderedQueue.empty, TimeOrderedQueue.pop,
      Rq.emplace, Rq.takeFirst, Except.map, Bind.bind, Except.bind, pure, Except.pure]

/-- A task that sleeps for ten is woken at once, and an entry past its time stays queued. -/
theorem sleep_queue_law_fails :
    ¬ TimeOrderedQueue.Law [.push 10 (some 1 : TaskPtr), .pop 5 (some 0)] ∧
      ¬ TimeOrderedQueue.Law [.push 10 (some 1 : TaskPtr), .pop 15 (some 0)] ∧
      ¬ Run.Along Rq.step Rq.SleepLaw Rq.init [.sleepPush 0 10 1, .pop (fun _ => 0) 0 id] := by
  refine ⟨?_, ?_, ?_⟩
  · simp [TimeOrderedQueue.Law, TimeOrderedQueue.run, TimeOrderedQueue.ripeRun,
      TimeOrderedQueue.push, StableQueue.insert, TimeOrderedQueue.pop, StableQueue.earliest]
  · simp [TimeOrderedQueue.Law, TimeOrderedQueue.run, TimeOrderedQueue.ripeRun,
      TimeOrderedQueue.push, StableQueue.insert, TimeOrderedQueue.pop, StableQueue.earliest,
      Option.default_eq_none]
  · rw [Run.Along.congr Rq.step_nonNull (fun q op _ nonNull => q.sleepLaw_iff_onTime op nonNull)
      _ (by simp [Rq.Op.NonNull]) ⟨by simp [Rq.init], by simp [Rq.init]⟩]
    simp [Run.Along, Rq.step, Rq.OnTime, Rq.sleepPush, Rq.init, TimeOrderedQueue.push,
      StableQueue.insert]

end Gthread

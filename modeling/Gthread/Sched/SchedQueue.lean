import Gthread.Sched.SchedNames

/-! The order of the run queue: which tasks are picked, and that queued runtimes stand still. -/

namespace Gthread

open Function (update update_of_ne update_self)

namespace Rq

/-- The order of the run queue: by virtual runtime, then by address. -/
def Precedes (vruntime : Addr → Int) (a b : TaskPtr) : Prop :=
  ∃ x y, a = some x ∧ b = some y ∧ (vruntime x < vruntime y ∨ (vruntime x = vruntime y ∧ x < y))

variable {vruntime : Addr → Int}

theorem Precedes.trans {a b c : TaskPtr} (first : Precedes vruntime a b)
    (second : Precedes vruntime b c) : Precedes vruntime a c := by
  obtain ⟨x, y, rfl, rfl, below⟩ := first
  obtain ⟨y', z, same, rfl, above⟩ := second
  cases same
  refine ⟨x, z, rfl, rfl, ?_⟩
  rcases below with below | ⟨equal, below⟩
  · rcases above with above | ⟨equal', -⟩
    · exact .inl (below.trans above)
    · exact .inl (equal' ▸ below)
  · rcases above with above | ⟨equal', above⟩
    · exact .inl (equal ▸ above)
    · exact .inr ⟨equal.trans equal', below.trans above⟩

/-- The comparison of the code decides this order. -/
theorem timeOrderedCompare_iff (x y : Addr) :
    timeOrderedCompare vruntime (some x) (some y) = true ↔ Precedes vruntime (some x) (some y) := by
  have order : Precedes vruntime (some x) (some y) ↔
      (vruntime x < vruntime y ∨ (vruntime x = vruntime y ∧ x < y)) := by
    constructor
    · rintro ⟨x', y', same, same', below⟩
      cases same
      cases same'
      exact below
    · exact fun below => ⟨x, y, rfl, rfl, below⟩
  rw [order, timeOrderedCompare]
  split
  · rename_i apart
    rw [decide_eq_true_iff]
    constructor
    · exact .inl
    · rintro (below | ⟨same, -⟩)
      · exact below
      · exact absurd same apart
  · rename_i equal
    rw [not_not] at equal
    simp [equal]

/-- Of two different tasks one precedes the other. -/
theorem Precedes.total {x y : Addr} (other : x ≠ y)
    (behind : ¬ Precedes vruntime (some x) (some y)) : Precedes vruntime (some y) (some x) := by
  refine ⟨y, x, rfl, rfl, ?_⟩
  rcases lt_trichotomy (vruntime x) (vruntime y) with below | equal | above
  · exact absurd ⟨x, y, rfl, rfl, .inl below⟩ behind
  · rcases lt_or_gt_of_ne other with lower | higher
    · exact absurd ⟨x, y, rfl, rfl, .inr ⟨equal, lower⟩⟩ behind
    · exact .inr ⟨equal.symm, higher⟩
  · exact .inl above

/-- Emplacing a task that was not queued keeps the queue strictly sorted. -/
theorem emplace_sorted {t : Addr} {queue : List TaskPtr} (nonNull : none ∉ queue)
    (absent : some t ∉ queue) (sorted : queue.Pairwise (Precedes vruntime)) :
    (emplace vruntime (some t) queue).Pairwise (Precedes vruntime) := by
  induction queue with
  | nil => exact List.pairwise_singleton _ _
  | cons first rest ih =>
    rw [List.mem_cons, not_or] at nonNull absent
    rw [List.pairwise_cons] at sorted
    obtain ⟨x, rfl⟩ := Option.ne_none_iff_exists'.mp (Ne.symm nonNull.1)
    rw [emplace, List.orderedInsert_cons]
    split
    · -- The new task goes in front of the first one, and so of all others.
      rename_i before
      have below := (timeOrderedCompare_iff t x).mp before
      refine List.pairwise_cons.mpr ⟨fun b member => ?_, List.pairwise_cons.mpr sorted⟩
      rcases List.mem_cons.mp member with rfl | later
      · exact below
      · exact below.trans (sorted.1 b later)
    · rename_i behind
      have above : Precedes vruntime (some x) (some t) := by
        refine Precedes.total (fun same => absent.1 (by rw [same])) ?_
        exact fun below => behind ((timeOrderedCompare_iff t x).mpr below)
      refine List.pairwise_cons.mpr ⟨fun b member => ?_, ih nonNull.2 absent.2 sorted.2⟩
      rcases List.mem_cons.mp ((emplace_perm vruntime (some t) rest).mem_iff.mp member) with
        rfl | later
      · exact above
      · exact sorted.1 b later

/-- What a pop does when nobody sleeps. -/
theorem pop_awake {q q' : Rq} {t : Addr} {now : Int} {idle : Int → Int}
    (asleep : q.sleepqueue = []) (popped : q.pop vruntime now idle = .ok (t, q')) :
    q.runqueue = some t :: q'.runqueue ∧ q'.minVruntime = max q.minVruntime (vruntime t) := by
  have ready : q.runqueue ≠ [] := by
    intro empty
    simp [pop, wakeSleeper, asleep, empty, TimeOrderedQueue.empty, Bind.bind, Except.bind] at popped
  have taken : q.takeFirst vruntime = .ok (t, q') := by
    simpa [pop, wakeSleeper_awake asleep ready, Bind.bind, Except.bind] using popped
  obtain ⟨front, -, least⟩ := takeFirst_ok taken
  refine ⟨front, ?_⟩
  rw [least]
  split
  · omega
  · omega

end Rq

namespace Node

variable {κ : Type} {n n' : Node κ} {k : κ} {clock : Clock} {t : Addr}

/-- The multiset is strictly sorted by the runtimes as they stand now. -/
def Sorted (n : Node κ) : Prop := n.rq.runqueue.Pairwise (Rq.Precedes n.vruntime)

/-- The runtimes of the queued tasks are all that the order depends on. -/
theorem Sorted.congr (sorted : n.Sorted) (queue : n'.rq.runqueue = n.rq.runqueue)
    (same : ∀ b, some b ∈ n.rq.runqueue → n'.vruntime b = n.vruntime b) : n'.Sorted := by
  rw [Sorted, queue]
  refine List.Pairwise.imp_of_mem (fun {a b} inA inB precedes => ?_) sorted
  obtain ⟨x, y, rfl, rfl, below⟩ := precedes
  exact ⟨x, y, rfl, rfl, by rwa [same x inA, same y inB]⟩

/-- Switching to another task changes no runtime. -/
theorem switchTask_vruntime (switched : n.switchTask t k = .ok n') : n'.vruntime = n.vruntime := by
  simp only [switchTask] at switched
  split at switched
  · cases switched
  · rename_i other
    simp only [Except.ok.injEq] at switched
    subst switched
    funext b
    simp only [vruntime, gthreadSwitchTo, load, modify, Function.update_apply]
    split_ifs <;> simp_all

/-- A yield changes the runtime of the task that it charges, and no other. -/
theorem yield_vruntime (running : n.running = true) (ok : n.yield clock k = .ok n') :
    n'.vruntime = (n.charge clock.charged).vruntime := by
  obtain ⟨flushed, ready, next, flush, picked, went⟩ := yield_cases running ok
  obtain ⟨⟨pool, mapped, returned, rfl⟩, -, -⟩ := flushDeferred_ok flush
  have same : ready.vruntime = (n.charge clock.charged).vruntime := by
    obtain ⟨rq, -, rfl⟩ := getNextTask_ok picked
    funext b
    show ((Node.requeue _).tasks b).vruntime = _
    rw [requeue_tasks]
    rfl
  rcases went with ⟨-, rfl⟩ | went
  · exact same
  · exact (switchTask_vruntime went).trans same

/-- Charging leaves the runtimes of all other tasks. -/
theorem charge_vruntime (now : Int) {b : Addr} (other : b ≠ n.cur) :
    (n.charge now).vruntime b = n.vruntime b := by
  simp [charge, vruntime, other]

/-- What a task that charges itself, queues itself or not, and pops leaves of the order. -/
structure Ordered (n n' : Node κ) : Prop where
  sorted : n'.Sorted
  -- No queued task's runtime has changed, not even that of the task popped.
  fixed : ∀ b, some b ∈ n.rq.runqueue → n'.vruntime b = n.vruntime b
  least : ∀ b, some b ∈ n'.rq.runqueue → n'.vruntime n'.cur ≤ n'.vruntime b
  floor : n'.rq.minVruntime = max n.rq.minVruntime (n'.vruntime n'.cur)

/-- A yield takes the task with the least runtime off a queue that stays sorted. -/
theorem yield_ordered (running : n.running = true) (awake : n.rq.sleepqueue = [])
    (nonNull : none ∉ n.rq.runqueue) (off : some n.cur ∉ n.rq.runqueue) (sorted : n.Sorted)
    (ok : n.yield clock k = .ok n') : n.Ordered n' := by
  have runtimes := yield_vruntime running ok
  have yielded := yield_yielded running ok
  have others : ∀ b, some b ∈ n.rq.runqueue →
      (n.charge clock.charged).vruntime b = n.vruntime b := by
    intro b queued
    refine charge_vruntime _ ?_
    rintro rfl
    exact off queued
  -- The queue that is popped from: the caller is emplaced with its new runtime.
  have charged : (n.charge clock.charged).Sorted := sorted.congr rfl others
  have offered : (n.offered clock).runqueue.Pairwise
      (Rq.Precedes (n.charge clock.charged).vruntime) ∧ (n.offered clock).sleepqueue = [] ∧
      (n.offered clock).minVruntime = n.rq.minVruntime := by
    unfold Node.offered
    split
    · exact ⟨Rq.emplace_sorted nonNull off charged, awake, rfl⟩
    · exact ⟨charged, awake, rfl⟩
  obtain ⟨front, least⟩ := Rq.pop_awake offered.2.1 yielded.popped
  have order := offered.1
  rw [front, List.pairwise_cons] at order
  refine ⟨?_, fun b queued => ?_, fun b queued => ?_, ?_⟩
  · rw [Sorted, runtimes]
    exact order.2
  · rw [runtimes]
    exact others b queued
  · obtain ⟨x, y, first, second, below⟩ := order.1 (some b) queued
    cases first
    cases second
    rw [runtimes]
    rcases below with below | ⟨equal, -⟩
    · exact below.le
    · exact equal.le
  · rw [least, offered.2.2, runtimes]

/-- A task that is scheduled was not queued, so no queued runtime changes. -/
theorem schedule_ordered (nonNull : none ∉ n.rq.runqueue) (off : some t ∉ n.rq.runqueue)
    (sorted : n.Sorted) : (n.schedule t).Sorted ∧
      ∀ b, some b ∈ n.rq.runqueue → (n.schedule t).vruntime b = n.vruntime b := by
  have others : ∀ b, some b ∈ n.rq.runqueue → (n.schedule t).vruntime b = n.vruntime b := by
    intro b queued
    have other : b ≠ t := by
      rintro rfl
      exact off queued
    simp [schedule, vruntime, other]
  refine ⟨?_, others⟩
  have before : (n.modify t (Task.enqueue n.rq.minVruntime)).Sorted := sorted.congr rfl others
  exact Rq.emplace_sorted nonNull off before

end Node

namespace Sys

variable {strict : Prop} {s s' : Sys} {phase : Addr → Phase} {l : Label} {clock : Clock} {p : Pc}
  {t host : Addr} {tick : Int} {maxSize : Nat}

/-- The steps that take a task off the run queue. -/
def pops (s : Sys) : Label → Bool
  | .trap _ => !s.flag
  | .call .yield _ | .call (.exit _) _ => true
  | .call _ _ => false
  | .run _ _ =>
    match s.pc with
    | .joinYield _ _ => true
    | _ => false

/-- What a step keeps of the order of the run queue. -/
structure KeepsOrder (s : Sys) (l : Label) (s' : Sys) : Prop where
  fixed : ∀ b, some b ∈ s.rq.runqueue → (s'.tasks b).vruntime = (s.tasks b).vruntime
  least : s.pops l = true → ∀ b, some b ∈ s'.rq.runqueue →
    (s'.tasks s'.cur).vruntime ≤ (s'.tasks b).vruntime
  grows : s.rq.minVruntime ≤ s'.rq.minVruntime
  reached : s.pops l = true → (s'.tasks s'.cur).vruntime ≤ s'.rq.minVruntime

/-- A block that holds no task is not queued. -/
theorem off_queue (inv : (s.life phase).Inv strict) (idle : ∀ holder, phase t ≠ .active holder) :
    some t ∉ s.rq.runqueue := by
  intro queued
  obtain ⟨⟨holder, active⟩, -⟩ := inv.queues.live t queued
  exact idle holder active

/-- The running task is not queued. -/
theorem cur_off_queue (inv : (s.life phase).Inv strict) : some s.cur ∉ s.rq.runqueue :=
  (List.nodup_cons.mp inv.queues.nodup).1

/-- Setting the preempt flag changes no runtime. -/
theorem setFlag_vruntime (flag : Bool) (n : Node Pc) : (n.setFlag flag).vruntime = n.vruntime := by
  funext b
  by_cases here : b = n.cur
  · simp [Node.setFlag, Node.vruntime, here]
  · simp [Node.setFlag, Node.vruntime, here]

/-- A yield under the preempt flag picks the task with the least runtime. -/
theorem yieldLocked_ordered (inv : (s.life phase).Inv strict) (sorted : s.Sorted)
    (ok : s.yieldLocked clock p = .ok s') : s.Ordered s'.toNode := by
  obtain ⟨-, n, rfl, yields, -⟩ := yieldLocked_ok inv.queues.running ok
  have flagged : (s.setFlag true).Sorted :=
    sorted.congr rfl fun b _ => congrFun (setFlag_vruntime true s.toNode) b
  have order := Node.yield_ordered (n := s.setFlag true) inv.queues.running inv.queues.awake
    inv.queues.nonNull (cur_off_queue inv) flagged yields
  refine ⟨order.sorted, fun b queued => (order.fixed b queued).trans ?_, order.least, order.floor⟩
  exact congrFun (setFlag_vruntime true s.toNode) b

/-- A task that makes a call is not the one that waits for it to end. -/
theorem joiner_ne_cur {j : Addr} (inv : (s.life phase).Inv strict) (at_ : s.pc = .user)
    (joins : (s.tasks s.cur).joiner = some j) : j ≠ s.cur ∧ some j ∉ s.rq.runqueue := by
  obtain ⟨-, -, off, h, wanted, inside, -⟩ := inv.joins s.cur j ⟨inv.active, inv.going⟩ joins
  refine ⟨?_, off⟩
  rintro rfl
  have here : (s.life phase).at_ s.cur = .user := by rw [life_at_cur, at_]; rfl
  rw [here] at inside
  simp at inside

/-- Stopping the running task changes no runtime and no queue. -/
theorem stop_vruntime (value : Nat) (s : Sys) :
    ((s.setFlag true).modify s.cur fun b =>
      { b with returnValue := value, runState := .stopped }).vruntime = s.vruntime := by
  rw [← setFlag_vruntime true s.toNode]
  funext b
  by_cases here : b = s.cur
  · simp [Node.vruntime, here]
  · simp [Node.vruntime, here]

/-- The task that an exit wakes was not queued, so it can be queued with any runtime. -/
theorem finish_ordered (value : Nat) (inv : (s.life phase).Inv strict) (at_ : s.pc = .user)
    (sorted : s.Sorted) : ((s.setFlag true).finish value).Sorted ∧
      (∀ b, some b ∈ s.rq.runqueue → some b ∈ ((s.setFlag true).finish value).rq.runqueue ∧
        ((s.setFlag true).finish value).vruntime b = s.vruntime b) ∧
      some s.cur ∉ ((s.setFlag true).finish value).rq.runqueue ∧
      ((s.setFlag true).finish value).rq.minVruntime = s.rq.minVruntime := by
  let m : Node Pc := (s.setFlag true).modify s.cur fun b =>
    { b with returnValue := value, runState := .stopped }
  have runtimes : m.vruntime = s.vruntime := stop_vruntime value s
  have stopped : m.Sorted := sorted.congr rfl fun b _ => congrFun runtimes b
  have joiner : ((s.setFlag true).tasks s.cur).joiner = (s.tasks s.cur).joiner := by
    simp [Node.setFlag]
  cases joins : (s.tasks s.cur).joiner with
  | none =>
    have shape : (s.setFlag true).finish value = m := Node.finish_alone (joiner.trans joins)
    rw [shape]
    exact ⟨stopped, fun b queued => ⟨queued, congrFun runtimes b⟩, cur_off_queue inv, rfl⟩
  | some j =>
    have shape : (s.setFlag true).finish value = m.schedule j :=
      Node.finish_joined (joiner.trans joins)
    rw [shape]
    obtain ⟨other, off⟩ := joiner_ne_cur inv at_ joins
    obtain ⟨order, fixed⟩ := Node.schedule_ordered (n := m) (t := j) inv.queues.nonNull off stopped
    have members : ∀ b, some b ∈ (m.schedule j).rq.runqueue ↔ b = j ∨ some b ∈ s.rq.runqueue := by
      intro b
      rw [(Node.schedule_rq m j).1.mem_iff]
      simp [m, Node.setFlag]
    refine ⟨order, fun b queued => ⟨(members b).mpr (.inr queued), ?_⟩, fun queued => ?_, rfl⟩
    · exact (fixed b queued).trans (congrFun runtimes b)
    · rcases (members s.cur).mp queued with same | queued
      · exact other same.symm
      · exact cur_off_queue inv queued

/-- A task that exits wakes its joiner and picks the task with the least runtime. -/
theorem exit_ordered {value : Nat} (inv : (s.life phase).Inv strict) (at_ : s.pc = .user)
    (sorted : s.Sorted) (ok : s.exit value clock = .ok s') : s.Ordered s'.toNode := by
  obtain ⟨-, -, n, rfl, yields, -⟩ := exit_ok inv.queues.running ok
  obtain ⟨stopped, fixed, off, least⟩ := finish_ordered value inv at_ sorted
  obtain ⟨⟨awake, nonNull⟩, -⟩ := finish_queues value inv at_
  have finished := Node.finish_finished value (s.setFlag true)
  have order := Node.yield_ordered (n := (s.setFlag true).finish value)
    (finished.running.trans inv.queues.running) awake nonNull (finished.cur ▸ off) stopped yields
  refine ⟨order.sorted, fun b queued => ?_, order.least, least ▸ order.floor⟩
  obtain ⟨still, same⟩ := fixed b queued
  exact (order.fixed b still).trans same

/-- A step that pops is a yield of the running task, or its exit. -/
theorem ordered_of_pops (inv : (s.life phase).Inv strict) (sorted : s.Sorted)
    (ok : s.step l = .ok s') (popping : s.pops l = true) : s.Ordered s'.toNode := by
  cases l with
  | trap clock =>
    have clear : s.flag = false := by simpa [pops] using popping
    simp only [step, trap, clear, Bool.false_eq_true, if_false] at ok
    exact yieldLocked_ordered inv sorted ok
  | call c clock =>
    simp only [step] at ok
    split at ok
    · rename_i at_
      cases c with
      | yield => exact yieldLocked_ordered inv sorted ok
      | exit value => exact exit_ordered inv at_ sorted ok
      | _ => cases popping
    · cases ok
  | run clock fresh =>
    simp only [pops] at popping
    split at popping
    · rename_i at_
      simp only [step, run, at_] at ok
      exact yieldLocked_ordered inv sorted ok
    · cases popping

/-- What a step that may leave the queue alone keeps of the order. -/
structure Steady (s s' : Sys) : Prop where
  sorted : s'.Sorted
  fixed : ∀ b, some b ∈ s.rq.runqueue → (s'.tasks b).vruntime = (s.tasks b).vruntime
  grows : s.rq.minVruntime ≤ s'.rq.minVruntime

/-- A step that changes neither the queue nor a runtime on it. -/
theorem Steady.of_still (sorted : s.Sorted) (queue : s'.rq = s.rq)
    (same : ∀ b, some b ∈ s.rq.runqueue → (s'.tasks b).vruntime = (s.tasks b).vruntime) :
    s.Steady s' where
  sorted := sorted.congr (congrArg Rq.runqueue queue) same
  fixed := same
  grows := by rw [queue]

/-- A step that writes one block which is not queued. -/
theorem Steady.of_off (sorted : s.Sorted) (queue : s'.rq = s.rq) (off : some t ∉ s.rq.runqueue)
    (same : ∀ b, b ≠ t → (s'.tasks b).vruntime = (s.tasks b).vruntime) : s.Steady s' := by
  refine .of_still sorted queue fun b queued => same b ?_
  rintro rfl
  exact off queued

/-- A yield keeps the order. -/
theorem Steady.of_ordered (order : s.Ordered s'.toNode) : s.Steady s' where
  sorted := order.sorted
  fixed := order.fixed
  grows := by
    rw [order.floor]
    exact le_max_left _ _

/-- Every step keeps the queue sorted and the runtimes on it as they are. -/
theorem steady_step (inv : (s.life phase).Inv strict) (sorted : s.Sorted) (linear : s.Linear l)
    (ok : s.step l = .ok s') : s.Steady s' := by
  cases stepped_of_ok ok with
  | yields leaves ok => exact .of_ordered (yieldLocked_ordered inv sorted ok)
  | exits at_ ok => exact .of_ordered (exit_ordered inv at_ sorted ok)
  | sleeps => exact linear.elim
  | unlocks at_ held =>
    exact .of_still sorted rfl fun b _ => congrFun (setFlag_vruntime false s.toNode) b
  | waits at_ points clear unjoined going =>
    refine .of_still sorted rfl fun b _ => ?_
    simp only [goto, reserve, write_tasks]
    split_ifs <;> simp_all
  | detaches at_ points clear going =>
    refine .of_still sorted rfl fun b _ => ?_
    simp only [settle, write_tasks]
    split_ifs <;> simp_all
  | begins at_ =>
    refine .of_still sorted rfl fun b _ => ?_
    simp only [goto, write_tasks]
    split_ifs <;> simp_all
  | @finds a entry arg h t rest clock fresh at_ found =>
    refine .of_still sorted rfl fun b _ => ?_
    simp only [goto, number_tasks]
    split_ifs <;> simp_all
  | @resets t entry arg h clock fresh at_ =>
    -- A reset clears the runtime, but of a block that is only being made.
    have building : phase t = .building s.cur := (ok_at inv at_).2
    refine .of_off (t := t) sorted rfl (off_queue inv (by simp [building])) fun b other => ?_
    simp [goto, write_tasks, other]
  | @creates a entry arg h clock fresh at_ unmapped =>
    have absent : phase fresh = .unmapped := (inv.places.absent fresh).mp unmapped
    refine .of_off (t := fresh) sorted rfl (off_queue inv (by simp [absent])) fun b other => ?_
    simp [goto, number_tasks, write_tasks, other]
  | @launches t entry arg h clock fresh at_ stopped other =>
    refine .of_still sorted rfl fun b _ => ?_
    simp only [goto, write_tasks]
    split_ifs <;> simp_all
  | @lands t h clock fresh at_ =>
    have building : phase t = .building s.cur := (ok_at inv at_).2.1
    have other : t ≠ s.cur := by
      rintro rfl
      obtain ⟨holder, active⟩ := inv.active
      exact absurd (building.symm.trans active) (by simp)
    refine .of_still sorted rfl fun b _ => ?_
    rw [switchBack_tasks other]
    split_ifs <;> simp_all
  | @suspends t h clock fresh at_ =>
    refine .of_still sorted rfl fun b _ => ?_
    simp only [goto, write_tasks]
    split_ifs <;> simp_all
  | @publishes t h clock fresh at_ clear =>
    have building : phase t = .building s.cur := (ok_at inv at_).2.1
    obtain ⟨order, fixed⟩ := Node.schedule_ordered (n := s.toNode) (t := t) inv.queues.nonNull
      (off_queue inv (by simp [building])) sorted
    exact ⟨order, fixed, le_rfl⟩
  | _ => exact .of_still sorted rfl fun _ _ => rfl

/-- Every state reached has a sorted queue. -/
theorem sorted_reaches (reached : Run.Reaches step Linear (start host tick maxSize) s) :
    s.Sorted ∧ s.InOrder False := by
  refine Run.Reaches.invariant (P := fun s : Sys => s.Sorted ∧ s.InOrder False) ?_ ?_ reached
  · exact ⟨List.Pairwise.nil, inOrder_start False host tick maxSize⟩
  · rintro s l s' ⟨sorted, order⟩ linear ok
    have ordered := inOrder_step order linear False.elim ok
    obtain ⟨phase, inv⟩ := order
    exact ⟨(steady_step inv sorted linear ok).sorted, ordered⟩

/-- The queue is always in order: its runtimes stand still, and its first task is taken. -/
theorem runqueue_in_order (reached : Run.Reaches step Linear (start host tick maxSize) s) :
    s.Sorted ∧ ∀ l s', s.Linear l → s.step l = .ok s' → s.KeepsOrder l s' := by
  obtain ⟨sorted, phase, inv⟩ := sorted_reaches reached
  refine ⟨sorted, fun l s' linear ok => ?_⟩
  have steady := steady_step inv sorted linear ok
  refine ⟨steady.fixed, fun popping => ?_, steady.grows, fun popping => ?_⟩
  · exact (ordered_of_pops inv sorted ok popping).least
  · rw [(ordered_of_pops inv sorted ok popping).floor]
    exact le_max_right _ _

/-- Two tasks are spawned, and a trap charges the host and switches to the lower address. -/
def preemptedLabels : List Label :=
  List.flatten [spawnInto kLightAttr 0 1, spawnInto kLightAttr 1 2, [.trap (clockAt 5000)]]

/-- Two tasks of one runtime wait behind the task that was preempted. -/
theorem runqueue_in_order_after_trap : ∃ s,
    Run.Reaches step Linear (start 0 0 4) s ∧ s.cur = 1 ∧ s.rq.runqueue = [some 2, some 0] ∧
      s.Sorted ∧ ∀ l s', s.Linear l → s.step l = .ok s' → s.KeepsOrder l s' := by
  have run : ∃ s, Run.Reaches step Linear (start 0 0 4) s ∧ s.cur = 1 ∧
      s.rq.runqueue = [some 2, some 0] :=
    Run.Reaches.of_check preemptedLabels (by decide +kernel)
  obtain ⟨s, reached, cur, queue⟩ := run
  exact ⟨s, reached, cur, queue, runqueue_in_order reached⟩

end Sys

end Gthread

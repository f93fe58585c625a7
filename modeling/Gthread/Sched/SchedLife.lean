import Gthread.Sched.LifeYield
import Gthread.Sched.NodeLaws

/-! The life cycle of a system's blocks, and how its statements act on it. -/

namespace Gthread

open Function (update update_of_ne update_self)

/-- The context was saved inside `task::switch_to_internal`. -/
def Resume.isSwitched {κ : Type} : Resume κ → Bool
  | .plain _ => false
  | .switched _ => true

/-- Inserting into the free list adds one block. -/
theorem Node.insertTask_perm {κ : Type} (tasks : Addr → Task κ) (t : Addr) (pool : List Addr) :
    (Node.insertTask tasks t pool).Perm (t :: pool) := by
  induction pool with
  | nil => exact .refl _
  | cons i rest ih =>
    rw [insertTask]
    split
    · exact .refl _
    · exact (ih.cons i).trans (.swap _ _ _)

/-- Finding a task in the free list takes out that one block. -/
theorem Node.findTask_perm {κ : Type} {tasks : Addr → Task κ} {a : Attr} {t : Addr}
    {pool rest : List Addr} (found : Node.findTask tasks a pool = some (t, rest)) :
    pool.Perm (t :: rest) := by
  induction pool generalizing rest with
  | nil => simp [findTask] at found
  | cons i pool ih =>
    rw [findTask] at found
    split at found
    · simp only [Option.some.injEq, Prod.mk.injEq] at found
      obtain ⟨rfl, rfl⟩ := found
      exact .refl _
    · simp only [Option.map_eq_some_iff, Prod.mk.injEq] at found
      obtain ⟨⟨u, rest'⟩, later, rfl, rfl⟩ := found
      exact ((ih later).cons i).trans (.swap _ _ _)

namespace Sys

/-- The life cycle of a system's blocks, for phases that say what each is in use for. -/
@[simps] def life (phase : Addr → Phase) (s : Sys) : Life where
  phase := phase
  cur := s.cur
  running := s.running
  rq := s.rq
  at_ b := if b = s.cur then s.pc.base else (s.tasks b).ctx.resume.pc.base
  stackOf b := if b = s.cur then s.stack else (s.tasks b).ctx.stack
  saved := ((s.tasks s.cur).ctx.resume.pc.base, (s.tasks s.cur).ctx.stack)
  switched b := (s.tasks b).ctx.resume.isSwitched
  state b := (s.tasks b).runState
  joiner b := (s.tasks b).joiner
  detached b := (s.tasks b).detached
  spawn b := (s.tasks b).spawn
  scheduled b := (s.tasks b).scheduled
  pool := s.pool
  deferred := s.deferred
  mapped := s.mapped
  returned := s.returned
  overwrote := s.overwrote
  handles := s.handles
  busy := s.busy
  owner := s.owner
  next := s.next
  settled := s.settled

variable {s : Sys} {phase : Addr → Phase} {p : Pc} {h : HandleId} {t : Addr}

theorem life_goto (p : Pc) (phase : Addr → Phase) (s : Sys) :
    (s.goto p).life phase = (s.life phase).goto p.base := by
  apply Life.ext
  case at_ =>
    funext b
    by_cases here : b = s.cur
    · simp [goto, life, here]
    · simp [goto, life, here]
  all_goals rfl

theorem life_reserve (h : HandleId) (phase : Addr → Phase) (s : Sys) :
    (s.reserve h).life phase = (s.life phase).reserve h := rfl

theorem life_settle (h : HandleId) (phase : Addr → Phase) (s : Sys) :
    (s.settle h).life phase = (s.life phase).settle h := rfl

/-- Writing to a block other than its context changes the fields of that block. -/
theorem life_write (t : Addr) (f : Task Pc → Task Pc) (phase : Addr → Phase) (s : Sys)
    (ctx : (f (s.tasks t)).ctx = (s.tasks t).ctx) :
    (s.write t f).life phase =
      { s.life phase with
        state := update (s.life phase).state t (f (s.tasks t)).runState
        joiner := update (s.life phase).joiner t (f (s.tasks t)).joiner
        detached := update (s.life phase).detached t (f (s.tasks t)).detached
        spawn := update (s.life phase).spawn t (f (s.tasks t)).spawn
        scheduled := update (s.life phase).scheduled t (f (s.tasks t)).scheduled } := by
  have same : ∀ b, ((s.write t f).tasks b).ctx = (s.tasks b).ctx := by
    intro b
    by_cases here : b = t
    · subst here
      simpa [write] using ctx
    · simp [write, here]
  apply Life.ext
  case saved => simp only [life_saved, same]; rfl
  case at_ => funext b; simp only [life_at_, same]; rfl
  case stackOf => funext b; simp only [life_stackOf, same]; rfl
  case switched => funext b; simp only [life_switched, same]
  all_goals try rfl
  all_goals
    funext b
    by_cases here : b = t
    · subst here
      simp [write]
    · simp [write, here]

/-- Setting a run state. -/
theorem life_setState (t : Addr) (state : RunState) (phase : Addr → Phase) (s : Sys) :
    (s.write t (Task.setState state)).life phase = (s.life phase).setState t state := by
  rw [life_write _ _ _ _ rfl]
  apply Life.ext
  all_goals first | rfl | exact Function.update_eq_self t _

theorem life_reset (t : Addr) (phase : Addr → Phase) (s : Sys) :
    (s.write t Task.reset).life phase = (s.life phase).blank t := by
  rw [life_write _ _ _ _ rfl]
  apply Life.ext
  all_goals first | rfl | exact Function.update_eq_self t _

theorem life_entry (t : Addr) (entry : Option Nat) (arg : Nat) (phase : Addr → Phase) (s : Sys) :
    (s.write t fun b => { b with entry := entry, arg := arg }).life phase = s.life phase := by
  rw [life_write _ _ _ _ rfl]
  apply Life.ext
  all_goals first | rfl | exact Function.update_eq_self t _

theorem life_writeJoiner (t : Addr) (j : TaskPtr) (phase : Addr → Phase) (s : Sys) :
    (s.write t fun b => { b with joiner := j }).life phase =
      { s.life phase with joiner := update (s.life phase).joiner t j } := by
  rw [life_write _ _ _ _ rfl]
  apply Life.ext
  all_goals first | rfl | exact Function.update_eq_self t _

theorem life_writeDetached (t : Addr) (phase : Addr → Phase) (s : Sys) :
    (s.write t fun b => { b with detached := true }).life phase =
      { s.life phase with detached := update (s.life phase).detached t true } := by
  rw [life_write _ _ _ _ rfl]
  apply Life.ext
  all_goals first | rfl | exact Function.update_eq_self t _

theorem life_number (t : Addr) (phase : Addr → Phase) (s : Sys) :
    (s.number t).life (update phase t (.building s.cur)) = (s.life phase).number t := by
  have written := life_write t (fun b => { b with spawn := s.next, scheduled := false })
    (update phase t (.building s.cur)) s rfl
  have same : (s.number t).life (update phase t (.building s.cur)) =
    { (s.write t fun b => { b with spawn := s.next, scheduled := false }).life
      (update phase t (.building s.cur)) with next := s.next + 1 } := rfl
  rw [same, written]
  apply Life.ext
  all_goals first | rfl | exact Function.update_eq_self t _

/-- A new block, other than the running one. -/
theorem life_construct (total : Nat) (tls : Bool) (phase : Addr → Phase) (s : Sys)
    (other : t ≠ s.cur) :
    { s.write t fun _ => Task.construct .zero total tls with
      mapped := update s.mapped t true }.life phase =
    { ((s.life phase).construct t).blank t with
      spawn := update (s.life phase).spawn t 0
      scheduled := update (s.life phase).scheduled t false } := by
  have away : s.cur ≠ t := other.symm
  apply Life.ext
  case saved => simp [write, away]
  all_goals try rfl
  all_goals
    funext b
    by_cases here : b = t
    · subst here
      simp [write, other, Task.construct, Resume.pc, Pc.base, Resume.isSwitched]
    · simp [write, here]

/-- The spawner is saved and moves onto the new block's stack. -/
theorem life_launch (t : Addr) (h : HandleId) (phase : Addr → Phase) (s : Sys) :
    { s.write s.cur (Task.save ⟨.plain (.startBack t h), s.stack⟩) with stack := t }.life phase =
      (s.life phase).launch t h := by
  apply Life.ext
  case saved => simp [write, Resume.pc, Pc.base]
  all_goals try rfl
  all_goals
    funext b
    by_cases here : b = s.cur
    · subst here
      simp [write, Resume.isSwitched]
    · simp [write, here]

/-- The new block is saved, and the spawner's own context is loaded. -/
theorem life_land (phase : Addr → Phase) (s : Sys) (other : t ≠ s.cur) (onNew : s.stack = t) :
    (s.switchBack t).life phase = (s.life phase).land t := by
  have away : s.cur ≠ t := other.symm
  apply Life.ext
  case saved => simp [switchBack, Node.gthreadSwitchTo, Node.load, away]
  all_goals try rfl
  all_goals
    funext b
    by_cases here : b = s.cur
    · subst here
      simp [switchBack, Node.gthreadSwitchTo, Node.load, away]
      try (cases (s.tasks s.cur).ctx.resume <;> rfl)
    · by_cases there : b = t
      · subst there
        simp [switchBack, Node.gthreadSwitchTo, Node.load, here, Resume.pc, Pc.base,
          Resume.isSwitched, onNew]
      · simp [switchBack, Node.gthreadSwitchTo, Node.load, here, there]

/-- Scheduling a block queues it. -/
theorem life_schedule (t : Addr) (phase : Addr → Phase) (s : Sys) :
    { s with toNode := s.schedule t }.life phase =
      { s.life phase with
        rq := (s.schedule t).rq
        scheduled := update (s.life phase).scheduled t true } := by
  apply Life.ext
  case saved =>
    by_cases here : s.cur = t
    · simp [Node.schedule, here]
    · simp [Node.schedule, here]
  all_goals try rfl
  all_goals
    funext b
    by_cases here : b = t
    · subst here
      simp [Node.schedule]
    · simp [Node.schedule, here]

/-- The phases after a yield, from those after its flush. -/
def leave (s : Sys) (phase : Addr → Phase) : Addr → Phase :=
  if (s.tasks s.cur).runState = .stopped ∧ (s.tasks s.cur).detached
  then update phase s.cur .deferred else phase

/-- After its flush, a yield switches or stays. -/
theorem switch_of_yielded {clock : Clock} {n : Node Pc}
    (yielded : Node.Yielded clock (.unlock p) s.toNode n) (nonNull : none ∉ s.rq.runqueue)
    (awake : s.rq.sleepqueue = []) (phase : Addr → Phase) :
    Life.Switch p.base
      { s.life phase with
        deferred := none, pool := n.pool, mapped := n.mapped, returned := n.returned }
      ({ s with toNode := n }.life (s.leave phase)) := by
  obtain ⟨perm, asleep⟩ := Node.popped_perm yielded nonNull awake
  have kept := yielded.kept
  constructor
  case running => exact yielded.running
  case awake => exact asleep.trans awake.symm
  case popped => exact perm
  case phase => rfl
  case deferred => exact yielded.deferred
  case kept =>
    exact ⟨funext fun b => (kept b).joiner, funext fun b => (kept b).detached,
      funext fun b => (kept b).spawn, funext fun b => (kept b).scheduled⟩
  case places => exact ⟨rfl, rfl, yielded.overwrote⟩
  case program => exact ⟨rfl, rfl, rfl⟩
  case history => exact ⟨rfl, rfl, rfl⟩
  case at_ =>
    funext b
    rcases yielded.went with ⟨stayed, pc⟩ | moved
    · by_cases here : b = s.cur
      · simp [here, stayed.cur, pc, Pc.base]
      · simp [here, stayed.cur, (stayed.unchanged b).2]
    · by_cases here : b = s.cur
      · simp [here, moved.other.symm, moved.saved, Resume.pc, Pc.base]
      · by_cases there : b = n.cur
        · simp [there, moved.other, moved.pc]
        · simp [here, there, (moved.others b here).1]
  case stackOf =>
    funext b
    rcases yielded.went with ⟨stayed, pc⟩ | moved
    · by_cases here : b = s.cur
      · simp [here, stayed.cur, stayed.stack]
      · simp [here, stayed.cur, (stayed.unchanged b).2]
    · by_cases here : b = s.cur
      · simp [here, moved.other.symm, moved.saved]
      · by_cases there : b = n.cur
        · simp [there, moved.other, moved.stack]
        · simp [here, there, (moved.others b here).1]
  case saved =>
    rcases yielded.went with ⟨stayed, pc⟩ | moved
    · simp [stayed.cur, (stayed.unchanged s.cur).2]
    · simp [moved.other, (moved.others _ moved.other).1]
  case switched =>
    funext b
    rcases yielded.went with ⟨stayed, pc⟩ | moved
    · simp [stayed.cur, (stayed.unchanged b).2]
    · by_cases here : b = s.cur
      · simp [here, moved.other, moved.saved, Resume.isSwitched]
      · simp [here, moved.other, (moved.others b here).1]
  case stayed =>
    intro same
    rcases yielded.went with ⟨stayed, pc⟩ | moved
    · exact funext fun b => (stayed.unchanged b).1
    · exact absurd same moved.other
  case left =>
    intro other
    rcases yielded.went with ⟨stayed, pc⟩ | moved
    · exact absurd stayed.cur other
    · exact moved.left
  case entered =>
    intro other
    rcases yielded.went with ⟨stayed, pc⟩ | moved
    · exact absurd stayed.cur other
    · refine moved.entered.trans ?_
      cases resume : (s.tasks n.cur).ctx.resume with
      | plain at_ => simp [resume, Resume.runState, Resume.isSwitched]
      | switched at_ => simp [resume, Resume.runState, Resume.isSwitched]
  case others =>
    intro b caller next
    rcases yielded.went with ⟨stayed, pc⟩ | moved
    · exact (stayed.unchanged b).1
    · exact (moved.others b caller).2 next

/-- A yield flushes, and then switches or stays. -/
theorem life_yielded {clock : Clock} {n : Node Pc}
    (yielded : Node.Yielded clock (.unlock p) s.toNode n) (nonNull : none ∉ s.rq.runqueue)
    (awake : s.rq.sleepqueue = []) (phase : Addr → Phase) :
    ∃ a phase', (s.life phase).Flush a ∧ a.deferred = none ∧
      Life.Switch p.base a ({ s with toNode := n }.life phase') := by
  have switch := fun phase' => switch_of_yielded yielded nonNull awake phase'
  rcases yielded.flushed with ⟨none_, back⟩ | ⟨d, held, handed⟩
  · have same : { s.life phase with
        deferred := none, pool := n.pool, mapped := n.mapped, returned := n.returned } =
        s.life phase := by
      apply Life.ext
      case deferred => exact none_.symm
      case pool => exact back.pool
      case mapped => exact back.mapped
      case returned => exact back.returned
      all_goals rfl
    refine ⟨_, _, ?_, rfl, switch phase⟩
    rw [same]
    exact .nothing none_
  · have recorded : n.returned = ((s.life phase).record d).returned := by
      simp [handed.returned]
    rcases handed.went with ⟨pool, mapped⟩ | ⟨pool, mapped⟩
    · have flush := Life.Flush.pooled (a := s.life phase) held
        (pool ▸ Node.insertTask_perm s.tasks d s.pool : n.pool.Perm (d :: s.pool))
      refine ⟨_, s.leave (update phase d .pooled), flush, rfl, ?_⟩
      convert switch (update phase d .pooled) using 1
      apply Life.ext
      case mapped => exact mapped.symm
      case returned => exact recorded.symm
      all_goals rfl
    · have flush := Life.Flush.unmapped (a := s.life phase) held
      refine ⟨_, s.leave (update phase d .unmapped), flush, rfl, ?_⟩
      convert switch (update phase d .unmapped) using 1
      apply Life.ext
      case pool => exact pool.symm
      case mapped => exact mapped.symm
      case returned => exact recorded.symm
      all_goals rfl

end Sys

end Gthread

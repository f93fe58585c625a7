import Gthread.Sched.SchedQueue

/-! Fairness: while tasks only run, start and end, their runtimes stay within one slice. -/

namespace Gthread

open Function (update update_of_ne update_self)

namespace Node

variable {κ : Type} {n n' : Node κ} {k : κ} {clock : Clock} {t b : Addr} {q : Nat}

/-- A task that runs or is queued. -/
def Runnable (n : Node κ) (b : Addr) : Prop := b = n.cur ∨ some b ∈ n.rq.runqueue

/-- The queue in order, with every runtime at most one slice above that of the running task. -/
structure Paced (q : Nat) (n : Node κ) : Prop where
  running : n.running = true
  awake : n.rq.sleepqueue = []
  nonNull : none ∉ n.rq.runqueue
  nodup : (some n.cur :: n.rq.runqueue).Nodup
  sorted : n.Sorted
  -- The least runtime handed out is the one the running task was popped with.
  current : n.vruntime n.cur = n.rq.minVruntime
  bounded : ∀ b, some b ∈ n.rq.runqueue →
    n.rq.minVruntime ≤ n.vruntime b ∧ n.vruntime b ≤ n.rq.minVruntime + q

/-- A task that can run is not behind the least runtime, and at most one slice ahead of it. -/
theorem Paced.within (paced : n.Paced q) (runnable : n.Runnable b) :
    n.rq.minVruntime ≤ n.vruntime b ∧ n.vruntime b ≤ n.rq.minVruntime + q := by
  rcases runnable with rfl | queued
  · rw [paced.current]
    omega
  · exact paced.bounded b queued

/-- The runtimes of two tasks that can run are at most one slice apart. -/
theorem Paced.apart {a : Addr} (paced : n.Paced q) (first : n.Runnable a) (second : n.Runnable b) :
    (n.vruntime a - n.vruntime b).natAbs ≤ q := by
  have low := paced.within first
  have high := paced.within second
  omega

/-- The running task is not queued. -/
theorem Paced.cur_off (paced : n.Paced q) : some n.cur ∉ n.rq.runqueue :=
  (List.nodup_cons.mp paced.nodup).1

/-- Only the queue, the running task and the runtimes of those who can run matter. -/
theorem Paced.congr (paced : n.Paced q) (running : n'.running = n.running) (cur : n'.cur = n.cur)
    (rq : n'.rq = n.rq) (same : ∀ b, n.Runnable b → n'.vruntime b = n.vruntime b) :
    n'.Paced q where
  running := running.trans paced.running
  awake := rq ▸ paced.awake
  nonNull := rq ▸ paced.nonNull
  nodup := by
    rw [cur, rq]
    exact paced.nodup
  sorted := paced.sorted.congr (congrArg Rq.runqueue rq) fun b queued => same b (.inr queued)
  current := by
    rw [cur, rq, same n.cur (.inl rfl)]
    exact paced.current
  bounded b queued := by
    rw [rq] at queued ⊢
    rw [same b (.inr queued)]
    exact paced.bounded b queued

/-- A new task enters the queue at the runtime of the running task. -/
theorem Paced.schedule (paced : n.Paced q) (off : ¬ n.Runnable t) (new : n.vruntime t = 0) :
    (n.schedule t).Paced q := by
  rw [Runnable, not_or] at off
  obtain ⟨order, fixed⟩ := schedule_ordered paced.nonNull off.2 paced.sorted
  have perm := (schedule_rq n t).1
  have entered : (n.schedule t).vruntime t = n.rq.minVruntime := by
    have zero : (n.tasks t).vruntime = 0 := new
    simp [Node.schedule, vruntime, zero]
  have cur : (n.schedule t).vruntime n.cur = n.vruntime n.cur := by
    have other : n.cur ≠ t := Ne.symm off.1
    simp [Node.schedule, vruntime, other]
  refine ⟨paced.running, paced.awake, ?_, ?_, order, cur.trans paced.current, fun b queued => ?_⟩
  · rw [perm.mem_iff]
    simpa using paced.nonNull
  · have fresh : (some n.cur :: some t :: n.rq.runqueue).Nodup := by
      rw [List.nodup_cons, List.nodup_cons, List.mem_cons, not_or]
      have outside := List.nodup_cons.mp paced.nodup
      exact ⟨⟨fun same => off.1 (Option.some.inj same).symm, outside.1⟩, off.2, outside.2⟩
    exact ((perm.cons _).nodup_iff).mpr fresh
  · show n.rq.minVruntime ≤ _ ∧ _ ≤ n.rq.minVruntime + q
    rcases List.mem_cons.mp (perm.mem_iff.mp queued) with same | before
    · cases same
      rw [entered]
      omega
    · rw [fixed b before]
      exact paced.bounded b before

/-- A yield that charges at most one slice keeps the pace: the runtimes move with their least. -/
theorem Paced.yield (paced : n.Paced q)
    (slice : 0 ≤ Task.microseconds (clock.charged - n.lastTick) ∧
      Task.microseconds (clock.charged - n.lastTick) ≤ q)
    (ok : n.yield clock k = .ok n') : n'.Paced q := by
  have yielded := yield_yielded paced.running ok
  have order := yield_ordered paced.running paced.awake paced.nonNull paced.cur_off paced.sorted ok
  obtain ⟨perm, awake⟩ := popped_perm yielded paced.nonNull paced.awake
  -- Before the pop every runtime is within a slice of the old least one.
  have charged : n'.vruntime n.cur =
      n.rq.minVruntime + Task.microseconds (clock.charged - n.lastTick) := by
    rw [yield_vruntime paced.running ok, ← paced.current]
    simp [charge, vruntime]
  have before : ∀ b, n'.Runnable b →
      n.rq.minVruntime ≤ n'.vruntime b ∧ n'.vruntime b ≤ n.rq.minVruntime + q := by
    intro b runnable
    rcases yielded.runnable_cases paced.nonNull paced.awake runnable with ⟨rfl, -⟩ | queued
    · rw [charged]
      omega
    · rw [order.fixed b queued]
      exact paced.bounded b queued
  have popped := before n'.cur (.inl rfl)
  have floor : n'.rq.minVruntime = n'.vruntime n'.cur := by
    rw [order.floor]
    omega
  have members : none ∉ n'.rq.runqueue ∧ (some n'.cur :: n'.rq.runqueue).Nodup := by
    constructor
    · intro null
      have member := perm.mem_iff.mp (List.mem_cons_of_mem _ null)
      split at member
      · simp [paced.nonNull] at member
      · exact paced.nonNull member
    · rw [perm.nodup_iff]
      split
      · exact paced.nodup
      · exact (List.nodup_cons.mp paced.nodup).2
  refine ⟨yielded.running.trans paced.running, awake, members.1, members.2, order.sorted,
    floor.symm, fun b queued => ?_⟩
  have least := order.least b queued
  have within := before b (.inr queued)
  omega

end Node

/-- The block a call of `spawn` is making, from the statement it is at. -/
def Pc.builds : Pc → Option Addr
  | .made t _ _ _ | .startOnNew t _ | .startBack t _ | .started t _ => some t
  | _ => none

/-- The block a call of `spawn` has started, and not scheduled yet. -/
def Pc.begun : Pc → Option Addr
  | .startBack t _ | .started t _ => some t
  | _ => none

/-- The statements of programs that only spawn, yield and exit, while no block is used again. -/
def Pc.plain : Pc → Bool
  | .user | .prologue | .makeLocked _ _ _ _ | .makeCreate _ _ _ _ | .made _ _ _ _
  | .startOnNew _ _ | .startBack _ _ | .started _ _ | .spawned _ _ | .exited => true
  | _ => false

/-- A started block is one that is being made. -/
theorem Pc.builds_of_begun {p : Pc} {t : Addr} (begun : p.begun = some t) : p.builds = some t := by
  cases p with
  | startBack u h => exact begun
  | started u h => exact begun
  | _ => cases begun

namespace Sys

variable {s s' : Sys} {l : Label} {clock : Clock} {p : Pc} {t host : Addr} {tick : Int}
  {maxSize q : Nat}

/-- The running task goes on at its next statement. -/
theorem at_cur (s : Sys) : s.at_ s.cur = s.pc.base := if_pos rfl

/-- A block that nobody runs yet: it has memory and no runtime. -/
structure New (s : Sys) (t : Addr) : Prop where
  off : ¬ s.Runnable t
  mapped : s.mapped t = true
  vruntime : (s.tasks t).vruntime = 0

/-- A program that only spawned, yielded and exited: no block was returned, joined or detached. -/
structure Fresh (s : Sys) : Prop where
  pool : s.pool = []
  deferred : s.deferred = none
  unjoined : ∀ b, (s.tasks b).joiner = none ∧ (s.tasks b).detached = false
  mapped : ∀ o, s.Runnable o → s.mapped o = true
  plain : ∀ o, s.Runnable o → (s.at_ o).plain = true
  builds : ∀ o t, s.Runnable o → (s.at_ o).builds = some t → s.New t
  begun : ∀ o t, s.Runnable o → (s.at_ o).begun = some t →
    (s.tasks t).ctx.resume.pc.base = .prologue
  distinct : ∀ o o' t, s.Runnable o → s.Runnable o' → (s.at_ o).builds = some t →
    (s.at_ o').builds = some t → o = o'
  -- A spawner on the new stack comes back to `start`, or to where a trap hit it there.
  saved : ∀ t h, s.pc.base = .startOnNew t h →
    (s.tasks s.cur).ctx.resume.pc.base = .startBack t h ∨
      (s.tasks s.cur).ctx.resume.pc.base = .startOnNew t h

/-- A step of the running task that leaves the queue, and what others make, alone. -/
theorem Fresh.keep (fresh : s.Fresh) (cur : s'.cur = s.cur) (rq : s'.rq = s.rq)
    (pool : s'.pool = s.pool) (deferred : s'.deferred = s.deferred)
    (unjoined : ∀ b, (s'.tasks b).joiner = none ∧ (s'.tasks b).detached = false)
    (mapped : ∀ b, s.mapped b = true → s'.mapped b = true)
    (others : ∀ b, b ≠ s.cur → s.pc.base.builds ≠ some b → s.mapped b = true →
      (s'.tasks b).ctx = (s.tasks b).ctx ∧ (s'.tasks b).vruntime = (s.tasks b).vruntime)
    (plain : s'.pc.base.plain = true)
    (builds : ∀ t, s'.pc.base.builds = some t → (s.pc.base.builds = some t ∨ s.mapped t = false) ∧
      s'.mapped t = true ∧ (s'.tasks t).vruntime = 0)
    (begun : ∀ t, s'.pc.base.begun = some t → (s'.tasks t).ctx.resume.pc.base = .prologue)
    (saved : ∀ t h, s'.pc.base = .startOnNew t h →
      (s'.tasks s'.cur).ctx.resume.pc.base = .startBack t h ∨
        (s'.tasks s'.cur).ctx.resume.pc.base = .startOnNew t h) : s'.Fresh := by
  have runnable : ∀ o, s'.Runnable o ↔ s.Runnable o := by
    intro o
    rw [Node.Runnable, Node.Runnable, cur, rq]
  have atCur : s.Runnable s.cur := .inl rfl
  have here : s'.at_ s.cur = s'.pc.base := if_pos cur.symm
  -- The other tasks that can run are not being made, so they stay where they are.
  have elsewhere : ∀ o, s.Runnable o → o ≠ s.cur → s'.at_ o = s.at_ o := by
    intro o can other
    have made : s.pc.base.builds ≠ some o := by
      intro builds
      exact (fresh.builds s.cur o atCur (by rwa [at_cur])).off can
    rw [Sys.at_, Sys.at_, cur, if_neg other, if_neg other,
      (others o other made (fresh.mapped o can)).1]
  -- What another task makes is neither the running task nor what that one makes.
  have untouched : ∀ o t, s.Runnable o → o ≠ s.cur → (s.at_ o).builds = some t →
      s.New t ∧ t ≠ s.cur ∧ s.pc.base.builds ≠ some t := by
    intro o t can other makes
    have new := fresh.builds o t can makes
    refine ⟨new, ?_, fun same => ?_⟩
    · rintro rfl
      exact new.off atCur
    · exact other (fresh.distinct o s.cur t can atCur makes (by rwa [at_cur]))
  have news : ∀ t, (s.pc.base.builds = some t ∨ s.mapped t = false) → ¬ s.Runnable t := by
    rintro t (makes | unmapped) can
    · exact (fresh.builds s.cur t atCur (by rwa [at_cur])).off can
    · exact absurd (fresh.mapped t can) (by simp [unmapped])
  refine ⟨pool.trans fresh.pool, deferred.trans fresh.deferred, unjoined, ?_, ?_, ?_, ?_, ?_, saved⟩
  · intro o can
    exact mapped o (fresh.mapped o ((runnable o).mp can))
  · intro o can
    by_cases own : o = s.cur
    · rw [own, here]
      exact plain
    · rw [elsewhere o ((runnable o).mp can) own]
      exact fresh.plain o ((runnable o).mp can)
  · intro o t can makes
    by_cases own : o = s.cur
    · rw [own, here] at makes
      obtain ⟨origin, memory, zero⟩ := builds t makes
      exact ⟨fun can => news t origin ((runnable t).mp can), memory, zero⟩
    · have can := (runnable o).mp can
      rw [elsewhere o can own] at makes
      obtain ⟨new, other, apart⟩ := untouched o t can own makes
      refine ⟨fun can => new.off ((runnable t).mp can), mapped t new.mapped, ?_⟩
      exact (others t other apart new.mapped).2.trans new.vruntime
  · intro o t can starts
    by_cases own : o = s.cur
    · rw [own, here] at starts
      exact begun t starts
    · have can := (runnable o).mp can
      rw [elsewhere o can own] at starts
      obtain ⟨new, other, apart⟩ := untouched o t can own (Pc.builds_of_begun starts)
      rw [(others t other apart new.mapped).1]
      exact fresh.begun o t can starts
  · intro o o' t can can' makes makes'
    have can := (runnable o).mp can
    have can' := (runnable o').mp can'
    -- Nobody else makes what the running task has just created or already makes.
    have alone : ∀ o, s.Runnable o → o ≠ s.cur → (s.at_ o).builds = some t →
        s'.pc.base.builds ≠ some t := by
      intro o can other makes new
      obtain ⟨old, -, apart⟩ := untouched o t can other makes
      rcases (builds t new).1 with same | unmapped
      · exact apart same
      · exact absurd old.mapped (by simp [unmapped])
    by_cases own : o = s.cur
    · by_cases own' : o' = s.cur
      · rw [own, own']
      · rw [own, here] at makes
        rw [elsewhere o' can' own'] at makes'
        exact absurd makes (alone o' can' own' makes')
    · rw [elsewhere o can own] at makes
      by_cases own' : o' = s.cur
      · rw [own', here] at makes'
        exact absurd makes' (alone o can own makes)
      · rw [elsewhere o' can' own'] at makes'
        exact fresh.distinct o o' t can can' makes makes'

/-- A step that writes nothing of interest to any block. -/
theorem Fresh.onward (fresh : s.Fresh) (cur : s'.cur = s.cur) (rq : s'.rq = s.rq)
    (pool : s'.pool = s.pool) (deferred : s'.deferred = s.deferred) (mapped : s'.mapped = s.mapped)
    (same : ∀ b, (s'.tasks b).ctx = (s.tasks b).ctx ∧
      (s'.tasks b).vruntime = (s.tasks b).vruntime ∧ (s'.tasks b).joiner = (s.tasks b).joiner ∧
      (s'.tasks b).detached = (s.tasks b).detached)
    (plain : s'.pc.base.plain = true)
    (builds : ∀ t, s'.pc.base.builds = some t → s.pc.base.builds = some t)
    (begun : ∀ t, s'.pc.base.begun = some t → s.pc.base.begun = some t)
    (saved : ∀ t h, s'.pc.base = .startOnNew t h → s.pc.base = .startOnNew t h) : s'.Fresh := by
  have atCur : s.Runnable s.cur := .inl rfl
  refine fresh.keep cur rq pool deferred ?_ ?_ ?_ plain ?_ ?_ ?_
  · intro b
    rw [(same b).2.2.1, (same b).2.2.2]
    exact fresh.unjoined b
  · intro b memory
    rwa [mapped]
  · intro b _ _ _
    exact ⟨(same b).1, (same b).2.1⟩
  · intro t makes
    have new := fresh.builds s.cur t atCur (by rw [at_cur]; exact builds t makes)
    refine ⟨.inl (builds t makes), ?_, (same t).2.1.trans new.vruntime⟩
    rw [mapped]
    exact new.mapped
  · intro t starts
    rw [(same t).1]
    exact fresh.begun s.cur t atCur (by rw [at_cur]; exact begun t starts)
  · intro t h at_
    rw [cur, (same s.cur).1]
    exact fresh.saved t h (saved t h at_)

/-- A task that is scheduled begins at the prologue and makes nothing. -/
theorem Fresh.publish {h : HandleId} (fresh : s.Fresh) (at_ : s.pc = .started t h) :
    Fresh ({ s with toNode := s.schedule t }.goto (.spawned t h)) := by
  have atCur : s.Runnable s.cur := .inl rfl
  have makes : (s.at_ s.cur).builds = some t := by rw [at_cur, at_]; rfl
  have starts : (s.at_ s.cur).begun = some t := by rw [at_cur, at_]; rfl
  have new := fresh.builds s.cur t atCur makes
  have ready := fresh.begun s.cur t atCur starts
  let s' : Sys := { s with toNode := s.schedule t }.goto (.spawned t h)
  have other : t ≠ s.cur := fun same => new.off (.inl same)
  have runnable : ∀ o, s'.Runnable o → s.Runnable o ∨ o = t := by
    rintro o (same | queued)
    · exact .inl (.inl same)
    · rcases List.mem_cons.mp ((Node.schedule_rq s.toNode t).1.mem_iff.mp queued) with same | before
      · exact .inr (Option.some.inj same)
      · exact .inl (.inr before)
  have blocks : ∀ b, (s'.tasks b).ctx = (s.tasks b).ctx ∧ (s'.tasks b).joiner = (s.tasks b).joiner ∧
      (s'.tasks b).detached = (s.tasks b).detached ∧
      (b ≠ t → (s'.tasks b).vruntime = (s.tasks b).vruntime) := by
    intro b
    have task : s'.tasks b = if b = t then (s.tasks t).enqueue s.rq.minVruntime else s.tasks b :=
      schedule_tasks t s b
    rw [task]
    split_ifs with here
    · subst here
      simp
    · simp
  -- The spawner makes nothing any more, the new task does not begin by making one.
  have own : s'.at_ s.cur = .spawned t h := at_cur s'
  have first : s'.at_ t = .prologue := by
    have away : s'.at_ t = (s'.tasks t).ctx.resume.pc.base := if_neg other
    rw [away, (blocks t).1]
    exact ready
  have elsewhere : ∀ o, o ≠ s.cur → s'.at_ o = s.at_ o := by
    intro o apart
    have away : s'.at_ o = (s'.tasks o).ctx.resume.pc.base := if_neg apart
    rw [away, (blocks o).1, Sys.at_, if_neg apart]
  have makers : ∀ o u, s'.Runnable o → (s'.at_ o).builds = some u →
      o ≠ s.cur ∧ s.Runnable o ∧ (s.at_ o).builds = some u := by
    intro o u can makes
    have apart : o ≠ s.cur := by
      rintro rfl
      rw [own] at makes
      cases makes
    have before : o ≠ t := by
      rintro rfl
      rw [first] at makes
      cases makes
    rw [elsewhere o apart] at makes
    exact ⟨apart, (runnable o can).resolve_right before, makes⟩
  refine
    { pool := fresh.pool, deferred := fresh.deferred, unjoined := ?_, mapped := ?_, plain := ?_,
      builds := ?_, begun := ?_, distinct := ?_, saved := ?_ }
  · intro b
    rw [(blocks b).2.1, (blocks b).2.2.1]
    exact fresh.unjoined b
  · intro o can
    rcases runnable o can with before | rfl
    · exact fresh.mapped o before
    · exact new.mapped
  · intro o can
    by_cases here : o = s.cur
    · subst here
      rw [own]
      rfl
    · rcases runnable o can with before | rfl
      · rw [elsewhere o here]
        exact fresh.plain o before
      · rw [first]
        rfl
  · intro o u can makes
    obtain ⟨apart, before, made⟩ := makers o u can makes
    have old := fresh.builds o u before made
    have fresh_ : u ≠ t := by
      rintro rfl
      exact apart (fresh.distinct o s.cur u before atCur made (by rwa [at_cur] at *))
    refine ⟨fun can => ?_, old.mapped, ((blocks u).2.2.2 fresh_).trans old.vruntime⟩
    exact (runnable u can).elim old.off fresh_
  · intro o u can starts
    obtain ⟨apart, before, -⟩ := makers o u can (Pc.builds_of_begun starts)
    rw [(blocks u).1]
    rw [elsewhere o apart] at starts
    exact fresh.begun o u before starts
  · intro o o' u can can' makes makes'
    obtain ⟨-, before, made⟩ := makers o u can makes
    obtain ⟨-, before', made'⟩ := makers o' u can' makes'
    exact fresh.distinct o o' u before before' made made'
  · intro u h at_
    cases at_

/-- Whoever can run after a yield could run before, and stays where it was. -/
theorem at_yielded (paced : s.Paced q)
    (yielded : Node.Yielded clock (.unlock p) s.toNode s'.toNode)
    (goes : (s.tasks s.cur).runState = .running → p.base = s.pc.base) {o : Addr}
    (can : s'.Runnable o) : s.Runnable o ∧ s'.at_ o = s.at_ o := by
  have before := yielded.runnable_cases paced.nonNull paced.awake can
  have caller : o = s.cur → p.base = s.pc.base := by
    rintro rfl
    rcases before with ⟨-, running⟩ | queued
    · exact goes running
    · exact absurd queued paced.cur_off
  refine ⟨before.imp And.left id, ?_⟩
  rcases yielded.went with ⟨stayed, pc⟩ | moved
  · by_cases own : o = s.cur
    · rw [Sys.at_, Sys.at_, if_pos (own.trans stayed.cur.symm), if_pos own, pc]
      exact caller own
    · rw [Sys.at_, Sys.at_, if_neg (fun same => own (same.trans stayed.cur)), if_neg own,
        (stayed.unchanged o).2]
  · by_cases own : o = s.cur
    · rw [Sys.at_, Sys.at_, if_pos own, if_neg (fun same => moved.other (same.symm.trans own)), own,
        moved.saved]
      exact caller own
    · by_cases next : o = s'.cur
      · rw [Sys.at_, Sys.at_, if_pos next, if_neg own, moved.pc, next]
      · rw [Sys.at_, Sys.at_, if_neg next, if_neg own, (moved.others o own).1]

/-- A yield makes no task runnable, and touches no block that is being made. -/
theorem Fresh.yield (fresh : s.Fresh) (paced : s.Paced q)
    (yielded : Node.Yielded clock (.unlock p) s.toNode s'.toNode)
    (runtimes : ∀ b, b ≠ s.cur → (s'.tasks b).vruntime = (s.tasks b).vruntime)
    (goes : (s.tasks s.cur).runState = .running → p.base = s.pc.base) : s'.Fresh := by
  have places : ∀ o, s'.Runnable o → s.Runnable o ∧ s'.at_ o = s.at_ o :=
    fun o can => at_yielded paced yielded goes can
  obtain ⟨pool, mapped⟩ : s'.pool = s.pool ∧ s'.mapped = s.mapped := by
    rcases yielded.flushed with ⟨-, back⟩ | ⟨d, held, -⟩
    · exact ⟨back.pool, back.mapped⟩
    · exact absurd held (by simp [fresh.deferred])
  have contexts : ∀ b, b ≠ s.cur → (s'.tasks b).ctx = (s.tasks b).ctx := by
    intro b other
    rcases yielded.went with ⟨stayed, -⟩ | moved
    · exact (stayed.unchanged b).2
    · exact (moved.others b other).1
  have apart : ∀ t, s.New t → t ≠ s.cur := by
    rintro t new rfl
    exact new.off (.inl rfl)
  refine
    { pool := pool.trans fresh.pool, deferred := ?_, unjoined := ?_, mapped := ?_, plain := ?_,
      builds := ?_, begun := ?_, distinct := ?_, saved := ?_ }
  · rw [yielded.deferred, if_neg]
    simp [(fresh.unjoined s.cur).2]
  · intro b
    rw [(yielded.kept b).joiner, (yielded.kept b).detached]
    exact fresh.unjoined b
  · intro o can
    rw [mapped]
    exact fresh.mapped o (places o can).1
  · intro o can
    rw [(places o can).2]
    exact fresh.plain o (places o can).1
  · intro o t can makes
    rw [(places o can).2] at makes
    have new := fresh.builds o t (places o can).1 makes
    refine ⟨fun can => new.off (places t can).1, ?_, (runtimes t (apart t new)).trans new.vruntime⟩
    rw [mapped]
    exact new.mapped
  · intro o t can starts
    rw [(places o can).2] at starts
    have new := fresh.builds o t (places o can).1 (Pc.builds_of_begun starts)
    rw [contexts t (apart t new)]
    exact fresh.begun o t (places o can).1 starts
  · intro o o' t can can' makes makes'
    rw [(places o can).2] at makes
    rw [(places o' can').2] at makes'
    exact fresh.distinct o o' t (places o can).1 (places o' can').1 makes makes'
  · intro t h at_
    have stays := (places s'.cur (.inl rfl)).2
    rw [at_cur, at_] at stays
    rcases yielded.went with ⟨stayed, -⟩ | moved
    · rw [stayed.cur, at_cur] at stays
      rw [stayed.cur, (stayed.unchanged s.cur).2]
      exact fresh.saved t h stays.symm
    · -- Its own context is where a trap has saved it on the new stack.
      rw [Sys.at_, if_neg moved.other] at stays
      rw [contexts s'.cur moved.other]
      exact .inr stays.symm

/-- The time the running task would be charged with lies between nothing and `q` microseconds. -/
def Slice (q : Nat) (s : Sys) (clock : Clock) : Prop :=
  0 ≤ Task.microseconds (clock.charged - s.lastTick) ∧
    Task.microseconds (clock.charged - s.lastTick) ≤ q

instance (q : Nat) (s : Sys) (clock : Clock) : Decidable (s.Slice q clock) :=
  inferInstanceAs (Decidable (_ ∧ _))

/--
Tasks are only spawned, yield or are preempted, and exit, in slices of at most `q` microseconds.

What the program does with the handles it is given is left open.
-/
def Sliced (q : Nat) (s : Sys) : Label → Prop
  | .trap clock => s.flag = false → s.Slice q clock
  | .call (.spawn _ _ _ _) _ | .call (.assign _ _) _ => True
  | .call .yield clock | .call (.exit _) clock => s.Slice q clock
  | .call _ _ => False
  | .run _ _ => True

instance (q : Nat) (s : Sys) : (l : Label) → Decidable (s.Sliced q l)
  | .trap clock => inferInstanceAs (Decidable (s.flag = false → s.Slice q clock))
  | .call (.spawn _ _ _ _) _ | .call (.assign _ _) _ | .run _ _ => .isTrue trivial
  | .call .yield clock | .call (.exit _) clock => inferInstanceAs (Decidable (s.Slice q clock))
  | .call (.sleepFor _ _) _ | .call (.join _ _) _ | .call (.detach _) _ => .isFalse id

/-- The pace is kept by a program that uses every block once. -/
structure Fair (q : Nat) (s : Sys) : Prop where
  paced : s.Paced q
  fresh : s.Fresh

/-- A yield of the running task within its slice is fair. -/
theorem Fair.yield (fair : s.Fair q) (slice : s.Slice q clock)
    (goes : (s.tasks s.cur).runState = .running → p.base = s.pc.base)
    (ok : s.toNode.yield clock (.unlock p) = .ok s'.toNode) : s'.Fair q := by
  have runtimes : ∀ b, b ≠ s.cur → (s'.tasks b).vruntime = (s.tasks b).vruntime := by
    intro b other
    have charged := congrFun (Node.yield_vruntime fair.paced.running ok) b
    exact charged.trans (Node.charge_vruntime _ other)
  have yielded := Node.yield_yielded fair.paced.running ok
  exact ⟨fair.paced.yield slice ok, fair.fresh.yield fair.paced yielded runtimes goes⟩

/-- A write to the running task that is of no interest to the scheduler. -/
theorem Fair.write (fair : s.Fair q) (f : Task Pc → Task Pc)
    (same : (f (s.tasks s.cur)).ctx = (s.tasks s.cur).ctx ∧
      (f (s.tasks s.cur)).vruntime = (s.tasks s.cur).vruntime ∧
      (f (s.tasks s.cur)).joiner = (s.tasks s.cur).joiner ∧
      (f (s.tasks s.cur)).detached = (s.tasks s.cur).detached) : (s.write s.cur f).Fair q := by
  have blocks : ∀ b, ((s.write s.cur f).tasks b).ctx = (s.tasks b).ctx ∧
      ((s.write s.cur f).tasks b).vruntime = (s.tasks b).vruntime ∧
      ((s.write s.cur f).tasks b).joiner = (s.tasks b).joiner ∧
      ((s.write s.cur f).tasks b).detached = (s.tasks b).detached := by
    intro b
    rw [write_tasks]
    split_ifs with here
    · subst here
      exact same
    · simp
  have plain := fair.fresh.plain s.cur (.inl rfl)
  rw [at_cur] at plain
  refine ⟨fair.paced.congr rfl rfl rfl fun b _ => (blocks b).2.1, ?_⟩
  exact fair.fresh.onward rfl rfl rfl rfl rfl blocks plain (fun _ => id) (fun _ => id)
    (fun _ _ => id)

/-- Setting the preempt flag is fair. -/
theorem Fair.setFlag (fair : s.Fair q) (flag : Bool) : Fair q { s with toNode := s.setFlag flag } :=
  fair.write (fun t => { t with noPreemptFlag := flag }) ⟨rfl, rfl, rfl, rfl⟩

/-- A yield under the preempt flag is fair. -/
theorem Fair.yieldLocked (fair : s.Fair q) (slice : s.Slice q clock) (goes : p.base = s.pc.base)
    (ok : s.yieldLocked clock p = .ok s') : s'.Fair q := by
  obtain ⟨-, n, rfl, yields, -⟩ := yieldLocked_ok fair.paced.running ok
  exact (fair.setFlag true).yield slice (fun _ => goes) yields

/-- An exit is fair, since nobody waits for it. -/
theorem Fair.exit {value : Nat} (fair : s.Fair q) (slice : s.Slice q clock)
    (ok : s.exit value clock = .ok s') : s'.Fair q := by
  obtain ⟨-, -, n, rfl, yields, -⟩ := exit_ok fair.paced.running ok
  let flagged : Sys := { s with toNode := s.setFlag true }
  let stopped : Sys :=
    flagged.write s.cur fun b => { b with returnValue := value, runState := .stopped }
  have fair' : stopped.Fair q := (fair.setFlag true).write _ ⟨rfl, rfl, rfl, rfl⟩
  have alone : ((s.setFlag true).tasks s.cur).joiner = none :=
    ((fair.setFlag true).fresh.unjoined s.cur).1
  have shape : (s.setFlag true).finish value = stopped.toNode := Node.finish_alone alone
  rw [shape] at yields
  refine fair'.yield slice (fun running => ?_) yields
  have state : (stopped.tasks s.cur).runState = .stopped := by simp [stopped, Sys.write]
  exact absurd (running.symm.trans state) (by simp)

/-- A step that changes neither the queue nor a runtime is fair if the spawn at work allows it. -/
theorem Fair.onward (fair : s.Fair q) (running : s'.running = s.running) (cur : s'.cur = s.cur)
    (rq : s'.rq = s.rq) (pool : s'.pool = s.pool) (deferred : s'.deferred = s.deferred)
    (mapped : s'.mapped = s.mapped)
    (same : ∀ b, (s'.tasks b).ctx = (s.tasks b).ctx ∧
      (s'.tasks b).vruntime = (s.tasks b).vruntime ∧ (s'.tasks b).joiner = (s.tasks b).joiner ∧
      (s'.tasks b).detached = (s.tasks b).detached)
    (plain : s'.pc.base.plain = true)
    (builds : ∀ t, s'.pc.base.builds = some t → s.pc.base.builds = some t)
    (begun : ∀ t, s'.pc.base.begun = some t → s.pc.base.begun = some t)
    (saved : ∀ t h, s'.pc.base = .startOnNew t h → s.pc.base = .startOnNew t h) : s'.Fair q :=
  ⟨fair.paced.congr running cur rq fun b _ => (same b).2.1,
    fair.fresh.onward cur rq pool deferred mapped same plain builds begun saved⟩

/-- A program like this gets to no statement of a join, a detach or a second use of a block. -/
theorem Fair.plain_at (fair : s.Fair q) (at_ : s.pc = p) : p.base.plain = true := by
  have plain := fair.fresh.plain s.cur (.inl rfl)
  rwa [at_cur, at_] at plain

/-- What the running task is making, from the statement it is at. -/
theorem Fair.makes (fair : s.Fair q) (at_ : s.pc = p) (makes : p.base.builds = some t) :
    s.New t ∧ t ≠ s.cur := by
  have new := fair.fresh.builds s.cur t (.inl rfl) (by rwa [at_cur, at_])
  exact ⟨new, fun same => new.off (.inl same)⟩

/-- A new block has its first context, and no runtime. -/
theorem Fair.create {a : Attr} {entry arg : Nat} {h : HandleId} {fresh : Addr} (fair : s.Fair q)
    (unmapped : s.mapped fresh = false) :
    Fair q ({ s.write fresh fun _ => Task.construct .zero (totalStackSize a) a.allocTls with
      mapped := update s.mapped fresh true }.number fresh |>.goto (.made fresh entry arg h)) := by
  let s' : Sys := { s.write fresh fun _ => Task.construct .zero (totalStackSize a) a.allocTls with
    mapped := update s.mapped fresh true }.number fresh |>.goto (.made fresh entry arg h)
  have other : ∀ b, s.mapped b = true → b ≠ fresh := by
    rintro b memory rfl
    exact absurd memory (by simp [unmapped])
  have away : ∀ b, b ≠ fresh → s'.tasks b = s.tasks b := by
    intro b apart
    simp [s', goto, number_tasks, write_tasks, apart]
  have here : (s'.tasks fresh).vruntime = 0 ∧ (s'.tasks fresh).joiner = none ∧
      (s'.tasks fresh).detached = false := by
    simp [s', goto, number_tasks, write_tasks, Task.construct]
  refine ⟨fair.paced.congr rfl rfl rfl fun b can => ?_,
    fair.fresh.keep rfl rfl rfl rfl ?_ ?_ ?_ rfl ?_ ?_ ?_⟩
  · exact congrArg Task.vruntime (away b (other b (fair.fresh.mapped b can)))
  · intro b
    by_cases new : b = fresh
    · subst new
      exact here.2
    · rw [away b new]
      exact fair.fresh.unjoined b
  · intro b memory
    show update s.mapped fresh true b = true
    rw [update_of_ne (other b memory)]
    exact memory
  · intro b _ _ memory
    have same := away b (other b memory)
    exact ⟨congrArg Task.ctx same, congrArg Task.vruntime same⟩
  · intro t makes
    cases makes
    refine ⟨.inr unmapped, ?_, here.1⟩
    show update s.mapped fresh true fresh = true
    exact update_self fresh true s.mapped
  · intro t starts
    cases starts
  · intro t h at_
    cases at_

/-- The jump onto the new stack saves where the spawner comes back. -/
theorem Fair.launch {entry arg : Nat} {h : HandleId} (fair : s.Fair q)
    (at_ : s.pc = .made t entry arg h) :
    Fair q ({ (s.write t fun b => { b with entry := some entry, arg := arg }).write s.cur
      (Task.save ⟨.plain (.startBack t h), s.stack⟩) with stack := t }.goto (.startOnNew t h)) := by
  obtain ⟨new, other⟩ := fair.makes at_ rfl
  let s' : Sys := { (s.write t fun b => { b with entry := some entry, arg := arg }).write s.cur
    (Task.save ⟨.plain (.startBack t h), s.stack⟩) with stack := t }.goto (.startOnNew t h)
  have blocks : ∀ b, (s'.tasks b).vruntime = (s.tasks b).vruntime ∧
      (s'.tasks b).joiner = (s.tasks b).joiner ∧ (s'.tasks b).detached = (s.tasks b).detached ∧
      (b ≠ s.cur → (s'.tasks b).ctx = (s.tasks b).ctx) := by
    intro b
    simp only [s', goto, write_tasks]
    split_ifs <;> simp_all
  have back : (s'.tasks s.cur).ctx.resume.pc.base = .startBack t h := by
    simp [s', goto, write_tasks, Resume.pc, Pc.base]
  refine ⟨fair.paced.congr rfl rfl rfl fun b _ => (blocks b).1,
    fair.fresh.keep rfl rfl rfl rfl ?_ (fun _ => id) ?_ rfl ?_ ?_ ?_⟩
  · intro b
    rw [(blocks b).2.1, (blocks b).2.2.1]
    exact fair.fresh.unjoined b
  · intro b apart _ _
    exact ⟨(blocks b).2.2.2 apart, (blocks b).1⟩
  · intro u makes
    cases makes
    refine ⟨.inl ?_, new.mapped, (blocks t).1.trans new.vruntime⟩
    rw [at_]
    rfl
  · intro u starts
    cases starts
  · intro u h' here
    cases here
    exact .inl back

/-- The switch back saves the new task's first context, and goes where the spawner's leads. -/
theorem Fair.land {h : HandleId} (fair : s.Fair q) (at_ : s.pc = .startOnNew t h) :
    Fair q (s.switchBack t) := by
  obtain ⟨new, other⟩ := fair.makes at_ rfl
  have saved := fair.fresh.saved t h (by rw [at_]; rfl)
  have pc : (s.switchBack t).pc = (s.tasks s.cur).ctx.resume.pc := by
    simp [switchBack, Node.gthreadSwitchTo, Node.load, other.symm]
  have blocks : ∀ b, ((s.switchBack t).tasks b).vruntime = (s.tasks b).vruntime ∧
      ((s.switchBack t).tasks b).joiner = (s.tasks b).joiner ∧
      ((s.switchBack t).tasks b).detached = (s.tasks b).detached ∧
      (b ≠ t → ((s.switchBack t).tasks b).ctx = (s.tasks b).ctx) := by
    intro b
    rw [switchBack_tasks other]
    split_ifs <;> simp_all
  have first : ((s.switchBack t).tasks t).ctx.resume.pc.base = .prologue := by
    rw [switchBack_tasks other, if_neg other, if_pos rfl]
    rfl
  -- Whether the spawner goes on in `start` or in a trap, it still makes the same block.
  have makes : ∀ u, (s.switchBack t).pc.base.builds = some u → u = t := by
    intro u makes
    rw [pc] at makes
    rcases saved with back | stale
    · rw [back] at makes
      exact (Option.some.inj makes).symm
    · rw [stale] at makes
      exact (Option.some.inj makes).symm
  refine ⟨fair.paced.congr rfl rfl rfl fun b _ => (blocks b).1,
    fair.fresh.keep rfl rfl rfl rfl ?_ (fun _ => id) ?_ ?_ ?_ ?_ ?_⟩
  · intro b
    rw [(blocks b).2.1, (blocks b).2.2.1]
    exact fair.fresh.unjoined b
  · intro b _ apart _
    refine ⟨(blocks b).2.2.2 ?_, (blocks b).1⟩
    rintro rfl
    exact apart (by rw [at_]; rfl)
  · rw [pc]
    rcases saved with back | stale
    · rw [back]
      rfl
    · rw [stale]
      rfl
  · intro u built
    rw [makes u built]
    refine ⟨.inl ?_, new.mapped, (blocks t).1.trans new.vruntime⟩
    rw [at_]
    rfl
  · intro u starts
    rw [makes u (Pc.builds_of_begun starts)]
    exact first
  · intro u h' here
    -- A spawner that is still on the new stack has the trap's context, and no other.
    have same : (s.tasks s.cur).ctx.resume.pc.base = .startOnNew u h' := pc ▸ here
    have kept : ((s.switchBack t).tasks (s.switchBack t).cur).ctx = (s.tasks s.cur).ctx :=
      (blocks s.cur).2.2.2 other.symm
    rw [kept]
    exact .inr same

/-- Going on in the library is fair if the spawn at work allows it. -/
theorem Fair.goto (fair : s.Fair q) (plain : p.base.plain = true)
    (builds : ∀ t, p.base.builds = some t → s.pc.base.builds = some t)
    (begun : ∀ t, p.base.begun = some t → s.pc.base.begun = some t)
    (saved : ∀ t h, p.base = .startOnNew t h → s.pc.base = .startOnNew t h) : (s.goto p).Fair q :=
  fair.onward rfl rfl rfl rfl rfl rfl (fun _ => ⟨rfl, rfl, rfl, rfl⟩) plain builds begun saved

/-- Every step is fair. -/
theorem Fair.step (fair : s.Fair q) (sliced : s.Sliced q l) (ok : s.step l = .ok s') :
    s'.Fair q := by
  cases stepped_of_ok ok with
  | nothing => exact fair
  | @yields _ clock p _ leaves ok =>
    cases leaves with
    | trap =>
      have clear := (yieldLocked_ok fair.paced.running ok).1
      exact fair.yieldLocked (sliced clear) rfl ok
    | call at_ => exact fair.yieldLocked sliced (by rw [at_]) ok
    | join at_ => exact absurd (fair.plain_at at_) (by simp [Pc.base, Pc.plain])
  | exits at_ ok => exact fair.exit sliced ok
  | sleeps => exact sliced.elim
  | waits => exact sliced.elim
  | detaches => exact sliced.elim
  | consumes at_ points clear stopped asks =>
    rcases asks with rfl | ⟨rfl, -⟩
    · exact sliced.elim
    · exact sliced.elim
  | spawns at_ unlocked =>
    exact fair.onward rfl rfl rfl rfl rfl rfl (fun b => ⟨rfl, rfl, rfl, rfl⟩) rfl
      (by simp [Sys.goto, Pc.base, Pc.builds])
      (by simp [Sys.goto, Pc.base, Pc.begun]) (by simp [Sys.goto, Pc.base])
  | assigns at_ =>
    refine fair.onward rfl rfl rfl rfl rfl rfl (fun b => ⟨rfl, rfl, rfl, rfl⟩) ?_ (fun _ => id)
      (fun _ => id) (fun _ _ => id)
    exact fair.plain_at rfl
  | @unlocks p clock fresh at_ held =>
    have base : s.pc.base = p.base := by rw [at_]; rfl
    exact (fair.setFlag false).goto (base ▸ fair.plain_at rfl)
      (fun _ built => (congrArg Pc.builds base).trans built)
      (fun _ started => (congrArg Pc.begun base).trans started) (fun _ _ here => base.trans here)
  | begins at_ =>
    exact (fair.write (Task.setState .running) ⟨rfl, rfl, rfl, rfl⟩).goto rfl
      (by simp [Pc.base, Pc.builds]) (by simp [Pc.base, Pc.begun]) (by simp [Pc.base])
  | misses at_ =>
    exact fair.onward rfl rfl rfl rfl rfl rfl (fun b => ⟨rfl, rfl, rfl, rfl⟩) rfl
      (by simp [Sys.goto, Pc.base, Pc.builds]) (by simp [Sys.goto, Pc.base, Pc.begun])
      (by simp [Sys.goto, Pc.base])
  | creates at_ unmapped own => exact fair.create unmapped
  | launches at_ stopped other => exact fair.launch at_
  | lands at_ => exact fair.land at_
  | @suspends t h clock fresh at_ =>
    refine fair.onward rfl rfl rfl rfl rfl rfl (fun b => ?_) rfl ?_ ?_ ?_
    · simp only [Sys.goto, write_tasks]
      split_ifs <;> simp_all
    · rw [at_]
      exact fun _ => id
    · rw [at_]
      exact fun _ => id
    · simp [Sys.goto, Pc.base]
  | publishes at_ clear =>
    obtain ⟨new, -⟩ := fair.makes at_ rfl
    refine ⟨?_, fair.fresh.publish at_⟩
    exact (fair.paced.schedule new.off new.vruntime).congr rfl rfl rfl fun _ _ => rfl
  | gives at_ =>
    exact fair.onward rfl rfl rfl rfl rfl rfl (fun b => ⟨rfl, rfl, rfl, rfl⟩) rfl
      (by simp [giveHandle, Sys.goto, Pc.base, Pc.builds])
      (by simp [giveHandle, Sys.goto, Pc.base, Pc.begun]) (by simp [giveHandle, Sys.goto, Pc.base])
  | finds at_ found =>
    rw [fair.fresh.pool] at found
    cases found
  | resets at_ => exact absurd (fair.plain_at at_) (by simp [Pc.base, Pc.plain])
  | takes at_ => exact absurd (fair.plain_at at_) (by simp [Pc.base, Pc.plain])
  | returns at_ => exact absurd (fair.plain_at at_) (by simp [Pc.base, Pc.plain])
  | pools at_ => exact absurd (fair.plain_at at_) (by simp [Pc.base, Pc.plain])
  | overflows at_ => exact absurd (fair.plain_at at_) (by simp [Pc.base, Pc.plain])
  | destroys at_ => exact absurd (fair.plain_at at_) (by simp [Pc.base, Pc.plain])
  | clears at_ => exact absurd (fair.plain_at at_) (by simp [Pc.base, Pc.plain])

/-- A node that was just started is fair. -/
theorem fair_start (q : Nat) (host : Addr) (tick : Int) (maxSize : Nat) :
    (start host tick maxSize).Fair q := by
  have only : ∀ o, (start host tick maxSize).Runnable o → o = host := by
    rintro o (same | queued)
    · exact same
    · cases queued
  have task : ∀ b, ((start host tick maxSize).tasks b).joiner = none ∧
      ((start host tick maxSize).tasks b).detached = false ∧
      ((start host tick maxSize).tasks b).vruntime = 0 := by
    intro b
    simp only [start, Node.startAsync, Function.update_apply]
    split_ifs <;> simp [Task.wrapCurrent, Task.construct]
  have user : (start host tick maxSize).at_ host = .user := if_pos rfl
  refine ⟨⟨rfl, rfl, by simp [start, Node.startAsync], by simp [start, Node.startAsync],
    List.Pairwise.nil, (task host).2.2, fun b queued => by cases queued⟩, ?_⟩
  refine
    { pool := rfl, deferred := rfl, unjoined := fun b => ⟨(task b).1, (task b).2.1⟩, mapped := ?_,
      plain := ?_, builds := ?_, begun := ?_, distinct := ?_, saved := ?_ }
  · intro o can
    rw [only o can]
    simp [start, Node.startAsync]
  · intro o can
    rw [only o can, user]
    rfl
  · intro o t can makes
    rw [only o can, user] at makes
    cases makes
  · intro o t can starts
    rw [only o can, user] at starts
    cases starts
  · intro o o' t can can' _ _
    rw [only o can, only o' can']
  · intro t h at_
    cases at_

/-- Every state reached is fair. -/
theorem fair_reaches (reached : Run.Reaches step (Sliced q) (start host tick maxSize) s) :
    s.Fair q :=
  Run.Reaches.invariant (fair_start q host tick maxSize)
    (fun _ _ _ fair sliced ok => fair.step sliced ok) reached

/-- The runtimes of any two tasks that can run differ by one slice at the most. -/
theorem runtimes_within_slice (q : Nat)
    (reached : Run.Reaches step (Sliced q) (start host tick maxSize) s) {a b : Addr}
    (first : s.Runnable a) (second : s.Runnable b) :
    ((s.tasks a).vruntime - (s.tasks b).vruntime).natAbs ≤ q :=
  (fair_reaches reached).paced.apart first second

/-- A task is spawned, the spawner is preempted, and the task spawns another one in its slice. -/
def fairLabels : List Label :=
  List.flatten [spawnInto kLightAttr 0 1, [.trap (clockAt 5000), .run stillClock 0],
    spawnInto kLightAttr 1 2, [.trap (clockAt 8000)]]

/-- Three tasks within one slice of each other, a newcomer included. -/
theorem runtimes_within_slice_of_three : ∃ s,
    Run.Reaches step (Sliced 5) (start 0 0 4) s ∧ s.cur = 2 ∧
      s.rq.runqueue = [some 1, some 0] ∧ (s.tasks 0).vruntime = 5 ∧
      ((s.tasks 0).vruntime - (s.tasks 2).vruntime).natAbs ≤ 5 := by
  have run : ∃ s, Run.Reaches step (Sliced 5) (start 0 0 4) s ∧ s.cur = 2 ∧
      s.rq.runqueue = [some 1, some 0] ∧ (s.tasks 0).vruntime = 5 :=
    Run.Reaches.of_check fairLabels (by decide +kernel)
  obtain ⟨s, reached, cur, queue, slice⟩ := run
  refine ⟨s, reached, cur, queue, slice, runtimes_within_slice 5 reached ?_ (.inl cur.symm)⟩
  exact .inr (by rw [queue]; decide)

end Sys

end Gthread

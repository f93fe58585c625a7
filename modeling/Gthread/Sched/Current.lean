import Gthread.Lib.Run
import Gthread.Sched.NodeLaws

/-! The current task as the thread pointer gives it, for tasks with and without TLS. -/

namespace Gthread

open Function (update update_of_ne update_self)

/-- Where a saved context continues. -/
inductive SavedAt where
  -- In `gthread_task_entry`, after the switch back to the starter.
  | entry
  -- At the end of `switch_to_internal`, with its local `prev_task`.
  | switching (prev : Addr)
  -- In `task::start` of a task, after the new stack has been prepared.
  | starting (this : Addr)
  deriving DecidableEq, Repr

/-- A `gthread_saved_ctx_t`: whose stack it is on, and where it continues. -/
structure SavedCtx where
  owner : Addr
  at_ : SavedAt
  deriving DecidableEq, Repr

/--
The kernel thread and the tasks that run on it, with the data `σ` of the program.

A TLS block is named by the task that owns it.
-/
structure Threads (σ : Type) where
  -- The register `fs`: whose block is installed.
  fs : Addr
  -- The pointer `thread` in the control block of each TLS block.
  thread : Addr → Addr
  -- `_tls != nullptr`.
  hasTls : Addr → Bool
  runState : Addr → RunState
  ctx : Addr → SavedCtx
  -- The task whose context is executing, which no code can read.
  executing : Addr
  -- The tasks that were started, the wrapped host included.
  started : Addr → Bool
  data : σ

/-- What the executing task does next. -/
inductive ThreadsLabel (σ : Type) where
  -- Create a task, with or without TLS, and start it.
  | start (t : Addr) (allocTls : Bool)
  -- `t->switch_to()`, or with a thunk that may read the current task.
  | switchTo (t : Addr) (thunk : Option (Addr → σ → σ))
  -- The task sets its own run state.
  | setRunState (state : RunState)
  -- Anything else.
  | compute (change : σ → σ)

namespace Threads

variable {σ : Type}

/-- `tls::current_thread()`, which `task::current()` returns. -/
def current (s : Threads σ) : Addr := s.thread s.fs

/-- Set a task's run state. -/
def setState (t : Addr) (state : RunState) (s : Threads σ) : Threads σ :=
  { s with runState := update s.runState t state }

/-- The constructor of `task`: a new TLS block names its owner. -/
def create (t : Addr) (allocTls : Bool) (s : Threads σ) : Threads σ :=
  { s with
    hasTls := update s.hasTls t allocTls
    thread := if allocTls then update s.thread t t else s.thread
    runState := update s.runState t .stopped }

/-- The end of `gthread_switch_to`: load a context and finish the function it was saved in. -/
def load (c : SavedCtx) (s : Threads σ) : Except Fault (Threads σ) :=
  let s := { s with executing := c.owner }
  match c.at_ with
  | .entry => .ok (s.setState s.current .running)
  | .switching prev =>
    if prev = s.current then .ok (s.setState prev .running)
    else .error (.assertion "switched back to not myself")
  | .starting this => .ok (s.setState this .suspended)

/-- `gthread_switch_to` by the executing context. -/
def gthreadSwitchTo (from_ to_ : Addr) (at_ : SavedAt) (s : Threads σ) :
    Except Fault (Threads σ) :=
  let s := { s with ctx := update s.ctx from_ ⟨s.executing, at_⟩ }
  s.load (s.ctx to_)

/-- `task::start`. -/
def start (this : Addr) (s : Threads σ) : Except Fault (Threads σ) :=
  let cur := s.current
  if s.runState this ≠ .stopped then .error (.assertion "run_state == STOPPED")
  else if this = cur then .error (.assertion "this != cur")
  else
    -- `gthread_switch_to_and_spawn` continues on the new stack, in `gthread_task_entry`.
    let s := { s with
      ctx := update s.ctx cur ⟨s.executing, .starting this⟩, executing := this
      started := update s.started this true }
    s.gthreadSwitchTo this cur .entry

/-- `task::switch_to_internal`, in one step that no timer trap interrupts. -/
def switchToInternal (this : Addr) (thunk : Option (Addr → σ → σ)) (s : Threads σ) :
    Except Fault (Threads σ) :=
  let prev := s.current
  if this = prev then .error (.assertion "switching to current task is a logic error")
  else
    let s := if s.runState prev = .running then s.setState prev .suspended else s
    let s :=
      if s.hasTls this then { s with thread := update s.thread this this, fs := this }
      -- Without a block of its own the task takes over the installed one.
      else { s with thread := update s.thread s.fs this }
    let s :=
      match thunk with
      | none => s
      | some thunk => { s with data := thunk s.current s.data }
    s.gthreadSwitchTo prev this (.switching prev)

/-- One step: new tasks are unused blocks, and only started tasks other than oneself are entered. -/
def step (s : Threads σ) : ThreadsLabel σ → Except Fault (Threads σ)
  | .start t allocTls =>
    if s.started t then .error .disabled else (s.create t allocTls).start t
  | .switchTo t thunk =>
    if s.started t ∧ t ≠ s.executing then s.switchToInternal t thunk else .error .disabled
  | .setRunState state => .ok (s.setState s.executing state)
  | .compute change => .ok { s with data := change s.data }

/-- The host after `wrap_current`, with no other task. -/
def wrapCurrent (host : Addr) (data : σ) : Threads σ where
  fs := host
  thread := fun _ => host
  hasTls t := t = host
  runState _ := .running
  ctx _ := ⟨host, .entry⟩
  executing := host
  started t := t = host
  data := data

/-- Between the steps of the executing task. -/
structure Identified (s : Threads σ) : Prop where
  current : s.current = s.executing
  executing : s.started s.executing = true
  -- The installed block is one that a task owns and that is still there.
  installed : s.hasTls s.fs = true ∧ s.started s.fs = true
  -- Every other task left in its own `switch_to_internal`, or has not run yet.
  saved : ∀ t, s.started t = true → t ≠ s.executing →
    s.ctx t = ⟨t, .entry⟩ ∨ s.ctx t = ⟨t, .switching t⟩

variable {s s' : Threads σ}

/-- What a switch does: the target executes under its own name, and the task left is suspended. -/
structure Entered (s s' : Threads σ) (t : Addr) : Prop where
  executing : s'.executing = t
  current : s'.current = t
  resumed : s'.runState t = .running
  left : s'.runState s.executing =
    if s.runState s.executing = .running then .suspended else s.runState s.executing
  others : ∀ b, b ≠ t → b ≠ s.executing → s'.runState b = s.runState b

/-- Loading the context of the task that the thread pointer names resumes that task. -/
theorem load_own {c : SavedCtx}
    (saved : c = ⟨s.current, .entry⟩ ∨ c = ⟨s.current, .switching s.current⟩) :
    s.load c = .ok ({ s with executing := s.current }.setState s.current .running) := by
  rcases saved with rfl | rfl
  · rfl
  · simp [load, current]

/-- The thread-pointer part of a switch: the target's own block, or the installed one. -/
def install (this : Addr) (s : Threads σ) : Threads σ :=
  if s.hasTls this then { s with thread := update s.thread this this, fs := this }
  else { s with thread := update s.thread s.fs this }

/-- Either way the thread pointer names the target, and nothing else changes. -/
theorem install_spec (this : Addr) (s : Threads σ) :
    (s.install this).current = this ∧ (s.install this).hasTls = s.hasTls ∧
      (s.install this).runState = s.runState ∧ (s.install this).ctx = s.ctx ∧
      (s.install this).executing = s.executing ∧ (s.install this).started = s.started := by
  rw [install]
  split
  · exact ⟨by simp [current], rfl, rfl, rfl, rfl, rfl⟩
  · exact ⟨by simp [current], rfl, rfl, rfl, rfl, rfl⟩

/-- The installed block has an owner that is still there. -/
theorem install_installed {this : Addr} (installed : s.hasTls s.fs = true ∧ s.started s.fs = true)
    (started : s.started this = true) :
    (s.install this).hasTls (s.install this).fs = true ∧
      (s.install this).started (s.install this).fs = true := by
  rw [install]
  split
  · rename_i owns
    exact ⟨owns, started⟩
  · exact installed

/-- The current task leaves: unless it set a state of its own, it is suspended. -/
def leave (s : Threads σ) : Threads σ :=
  s.setState s.current
    (if s.runState s.current = .running then .suspended else s.runState s.current)

/-- The thunk runs with the thread pointer of the target. -/
def runThunk (thunk : Option (Addr → σ → σ)) (s : Threads σ) : Threads σ :=
  match thunk with
  | none => s
  | some thunk => { s with data := thunk s.current s.data }

/-- A thunk changes the data of the program only. -/
theorem runThunk_eq (thunk : Option (Addr → σ → σ)) (s : Threads σ) :
    ∃ data, s.runThunk thunk = { s with data } := by
  cases thunk with
  | none => exact ⟨s.data, rfl⟩
  | some thunk => exact ⟨thunk s.current s.data, rfl⟩

/-- A switch to another task leaves, installs the thread pointer, and changes contexts. -/
theorem switchToInternal_eq {this : Addr} (thunk : Option (Addr → σ → σ))
    (other : this ≠ s.current) :
    s.switchToInternal this thunk =
      ((s.leave.install this).runThunk thunk).gthreadSwitchTo s.current this
        (.switching s.current) := by
  have left : (if s.runState s.current = .running then s.setState s.current .suspended else s) =
      s.leave := by
    rw [leave]
    split
    · rfl
    · rw [setState, Function.update_eq_self]
  rw [switchToInternal, if_neg other]
  simp only [left]
  rfl

/-- A switch to a started task succeeds: both assertions hold, and the target executes. -/
theorem Identified.switchTo (ids : s.Identified) {t : Addr} (started : s.started t = true)
    (other : t ≠ s.executing) (thunk : Option (Addr → σ → σ)) :
    ∃ s', s.switchToInternal t thunk = .ok s' ∧ Entered s s' t ∧ s'.Identified := by
  have here := ids.current
  rw [switchToInternal_eq thunk (here ▸ other)]
  obtain ⟨data, ran⟩ := runThunk_eq thunk (s.leave.install t)
  obtain ⟨named, owners, states, ctxs, same, tasks⟩ := install_spec t s.leave
  rw [ran, gthreadSwitchTo, here, load_own]
  · refine ⟨_, rfl, ⟨named, named, ?_, ?_, ?_⟩, ⟨rfl, ?_, ?_, ?_⟩⟩
    · show update (s.leave.install t).runState (s.leave.install t).current .running t = _
      rw [named, update_self]
    · show update (s.leave.install t).runState (s.leave.install t).current .running _ = _
      rw [named, update_of_ne (Ne.symm other), states, leave, setState, here]
      exact update_self _ _ _
    · intro b apart elsewhere
      show update (s.leave.install t).runState (s.leave.install t).current .running b = _
      rw [named, update_of_ne apart, states, leave, setState, here]
      exact update_of_ne elsewhere _ _
    · show (s.leave.install t).started (s.leave.install t).current = true
      rw [named, tasks]
      exact started
    · exact install_installed ids.installed started
    · -- Only the context of the task that left was written.
      intro b present apart
      have present : s.started b = true := by
        have : (s.leave.install t).started b = true := present
        rwa [tasks] at this
      show update (s.leave.install t).ctx s.executing ⟨(s.leave.install t).executing, _⟩ b = _ ∨
        update (s.leave.install t).ctx s.executing ⟨(s.leave.install t).executing, _⟩ b = _
      by_cases left : b = s.executing
      · subst left
        rw [update_self, same]
        exact .inr rfl
      · rw [update_of_ne left, ctxs]
        exact ids.saved b present left
  · -- The target's context is as it was saved.
    show update (s.leave.install t).ctx s.executing _ t = ⟨(s.leave.install t).current, _⟩ ∨
      update (s.leave.install t).ctx s.executing _ t =
        ⟨(s.leave.install t).current, .switching (s.leave.install t).current⟩
    rw [update_of_ne other, ctxs, named]
    exact ids.saved t started other

/-- A task that is created and started waits for its first switch; nobody else notices. -/
theorem Identified.start (ids : s.Identified) {t : Addr} (unused : s.started t = false)
    (allocTls : Bool) : ∃ s', (s.create t allocTls).start t = .ok s' ∧ s'.Identified := by
  have apart : t ≠ s.executing := by
    rintro rfl
    rw [ids.executing] at unused
    cases unused
  have away : s.fs ≠ t := by
    rintro rfl
    rw [ids.installed.2] at unused
    cases unused
  -- The new block is not the installed one, so the thread pointer stays.
  have kept : (s.create t allocTls).current = s.executing := by
    rw [← ids.current]
    show (if allocTls then update s.thread t t else s.thread) s.fs = s.thread s.fs
    split
    · exact update_of_ne away _ _
    · rfl
  have stopped : (s.create t allocTls).runState t = .stopped := update_self _ _ _
  rw [Threads.start, kept, if_neg (not_not.mpr stopped), if_neg apart]
  simp only [gthreadSwitchTo, load, update_of_ne (Ne.symm apart), update_self]
  refine ⟨_, rfl, ⟨kept, ?_, ?_, ?_⟩⟩
  · show update s.started t true s.executing = true
    rw [update_of_ne (Ne.symm apart)]
    exact ids.executing
  · constructor
    · show update s.hasTls t allocTls s.fs = true
      rw [update_of_ne away]
      exact ids.installed.1
    · show update s.started t true s.fs = true
      rw [update_of_ne away]
      exact ids.installed.2
  · intro b present elsewhere
    have elsewhere : b ≠ s.executing := elsewhere
    show update (update s.ctx s.executing _) t ⟨t, .entry⟩ b = _ ∨
      update (update s.ctx s.executing _) t ⟨t, .entry⟩ b = _
    by_cases new : b = t
    · subst new
      rw [update_self]
      exact .inl rfl
    · have present : s.started b = true := by
        have : update s.started t true b = true := present
        rwa [update_of_ne new] at this
      rw [update_of_ne new, update_of_ne elsewhere]
      exact ids.saved b present elsewhere

/-- Every step of the executing task keeps the thread pointer right. -/
theorem Identified.step (ids : s.Identified) {l : ThreadsLabel σ} (ok : s.step l = .ok s') :
    s'.Identified := by
  cases l with
  | start t allocTls =>
    simp only [Threads.step] at ok
    split at ok
    · cases ok
    · rename_i unused
      obtain ⟨next, started, kept⟩ := ids.start (by simpa using unused) allocTls
      rw [started] at ok
      cases ok
      exact kept
  | switchTo t thunk =>
    simp only [Threads.step] at ok
    split at ok
    · rename_i target
      obtain ⟨next, switched, -, kept⟩ := ids.switchTo target.1 target.2 thunk
      rw [switched] at ok
      cases ok
      exact kept
    · cases ok
  | setRunState state =>
    cases ok
    exact ⟨ids.current, ids.executing, ids.installed, ids.saved⟩
  | compute change =>
    cases ok
    exact ⟨ids.current, ids.executing, ids.installed, ids.saved⟩

/-- The wrapped host is the current task. -/
theorem identified_wrapCurrent (host : Addr) (data : σ) : (wrapCurrent host data).Identified where
  current := rfl
  executing := by simp [wrapCurrent]
  installed := by simp [wrapCurrent]
  saved t started other := by
    have : t = host := by simpa [wrapCurrent] using started
    exact absurd this other

/-- After any run, a switch to any other started task enters it under its own name. -/
theorem switch_enters {host : Addr} {data : σ} {t : Addr} (thunk : Option (Addr → σ → σ))
    (reached : Run.Reaches step (fun _ _ => True) (wrapCurrent host data) s)
    (started : s.started t = true) (other : t ≠ s.executing) :
    s.current = s.executing ∧
      ∃ s', s.step (.switchTo t thunk) = .ok s' ∧ Entered s s' t := by
  have ids : s.Identified :=
    reached.invariant (identified_wrapCurrent host data) fun _ _ _ ids _ ok => ids.step ok
  obtain ⟨s', switched, entered, -⟩ := ids.switchTo started other thunk
  refine ⟨ids.current, s', ?_, entered⟩
  rw [step, if_pos ⟨started, other⟩]
  exact switched

/-- The host starts a task with TLS and one without, and the second takes over its block. -/
def mixedRun : List (ThreadsLabel Nat) :=
  [.start 1 true, .start 2 false, .switchTo 2 none, .switchTo 1 (some fun t _ => t),
    .switchTo 2 none]

/-- The second task then runs on the block of the first, and switches back to it. -/
theorem switch_enters_mixed : ∃ s : Threads Nat,
    Run.Reaches step (fun _ _ => True) (wrapCurrent 0 7) s ∧ s.fs = 1 ∧ s.thread 1 = 2 ∧
      s.current = s.executing ∧ ∃ s', s.step (.switchTo 1 none) = .ok s' ∧ Entered s s' 1 := by
  have run : ∃ s : Threads Nat, Run.Reaches step (fun _ _ => True) (wrapCurrent 0 7) s ∧
      (s.fs = 1 ∧ s.thread 1 = 2) ∧ s.started 1 = true ∧ 1 ≠ s.executing :=
    Run.Reaches.of_check mixedRun (by decide +kernel)
  obtain ⟨s, reached, ⟨block, named⟩, started, other⟩ := run
  obtain ⟨here, s', switched, entered⟩ := switch_enters none reached started other
  exact ⟨s, reached, block, named, here, s', switched, entered⟩

/-! ### The node's own record of the current task -/

/-- A node keeps as fields what the thread pointer gives. -/
structure Records {κ : Type} (n : Node κ) (s : Threads σ) : Prop where
  cur : n.cur = s.current
  tls : n.tls = s.fs
  hasTls : ∀ b, (n.tasks b).tls = s.hasTls b

/-- The node's switch changes that record as the switch of the code changes the thread pointer. -/
theorem Records.switchTask {κ : Type} {n n' : Node κ} {t : Addr} {k : κ} (records : Records n s)
    (ids : s.Identified) (started : s.started t = true)
    (thunk : Option (Addr → σ → σ)) (ok : n.switchTask t k = .ok n') :
    ∃ s', s.switchToInternal t thunk = .ok s' ∧ Records n' s' := by
  have switched := Node.switchTask_switched ok
  have other : t ≠ s.executing := by
    rw [← ids.current, ← records.cur]
    exact switched.other
  obtain ⟨s', entered, named, -⟩ := ids.switchTo started other thunk
  refine ⟨s', entered, ?_⟩
  rw [switchToInternal_eq thunk (ids.current ▸ other)] at entered
  obtain ⟨data, ran⟩ := runThunk_eq thunk (s.leave.install t)
  have kept : s'.fs = (s.leave.install t).fs ∧ s'.hasTls = (s.leave.install t).hasTls := by
    rw [ran, gthreadSwitchTo, load] at entered
    split at entered
    · cases entered
      exact ⟨rfl, rfl⟩
    · split at entered
      · cases entered
        exact ⟨rfl, rfl⟩
      · cases entered
    · cases entered
      exact ⟨rfl, rfl⟩
  refine ⟨switched.cur.trans named.current.symm, ?_, fun b => ?_⟩
  · have installs : n'.tls = if (n.tasks t).tls then t else n.tls := by
      simp only [Node.switchTask, if_neg switched.other, Except.ok.injEq] at ok
      subst ok
      simp [Node.gthreadSwitchTo, Node.load, switched.other]
    rw [kept.1, install, installs, records.hasTls t, records.tls]
    show (if s.hasTls t then t else s.fs) = Threads.fs (if s.hasTls t then _ else _)
    split
    · rfl
    · rfl
  · rw [(switched.kept b).tls, records.hasTls b, kept.2, (install_spec t s.leave).2.1]
    rfl

end Threads

end Gthread

import Gthread.Sched.SchedLaws

/-! What each step of the system does, one case for each statement. -/

namespace Gthread

open Function (update update_of_ne update_self)

namespace Sys

/-- Where a step that gives up the processor comes from, and where the caller goes on later. -/
inductive Leaves (s : Sys) : Label → Clock → Pc → Prop
  | trap {clock : Clock} : Leaves s (.trap clock) clock s.pc
  | call {clock : Clock} (at_ : s.pc = .user) : Leaves s (.call .yield clock) clock .user
  | join {clock : Clock} {fresh : Addr} {h : HandleId} {wanted : Bool}
      (at_ : s.pc = .joinYield h wanted) : Leaves s (.run clock fresh) clock (.take h wanted)

/-- What a step does. -/
inductive Stepped (s : Sys) : Label → Sys → Prop
  -- A trap in a critical section, or a call that throws.
  | nothing {l : Label} : Stepped s l s
  | yields {l : Label} {clock : Clock} {p : Pc} {s' : Sys} (leaves : Leaves s l clock p)
      (ok : s.yieldLocked clock p = .ok s') : Stepped s l s'
  | sleeps {start duration : Int} {clock : Clock} {s' : Sys} (at_ : s.pc = .user)
      (ok : s.sleepFor start duration clock = .ok s') :
      Stepped s (.call (.sleepFor start duration) clock) s'
  | exits {value : Nat} {clock : Clock} {s' : Sys} (at_ : s.pc = .user)
      (ok : s.exit value clock = .ok s') : Stepped s (.call (.exit value) clock) s'
  -- The other calls.
  | spawns {a : Attr} {entry arg : Nat} {h : HandleId} {clock : Clock} (at_ : s.pc = .user)
      (unlocked : s.mu = none) : Stepped s (.call (.spawn a (some entry) arg h) clock)
        ({ s with mu := some s.cur }.reserve h |>.goto (.makeLocked a entry arg h))
  | waits {h : HandleId} {wanted : Bool} {t : Addr} {clock : Clock} (at_ : s.pc = .user)
      (points : s.handles h = some t) (clear : s.flag = false)
      (unjoined : (s.tasks t).joiner = none) (going : (s.tasks t).runState ≠ .stopped) :
      Stepped s (.call (.join h wanted) clock)
        (((s.write t fun b => { b with joiner := some s.cur }).write s.cur
          (Task.setState .waiting)).reserve h |>.goto (.joinYield h wanted))
  | consumes {c : Call} {clock : Clock} {h : HandleId} {wanted : Bool} {t : Addr}
      (at_ : s.pc = .user) (points : s.handles h = some t) (clear : s.flag = false)
      (stopped : (s.tasks t).runState = .stopped)
      (asks : c = .join h wanted ∨ (c = .detach h ∧ wanted = false)) :
      Stepped s (.call c clock) (s.reserve h |>.goto (.take h wanted))
  | detaches {h : HandleId} {t : Addr} {clock : Clock} (at_ : s.pc = .user)
      (points : s.handles h = some t) (clear : s.flag = false)
      (going : (s.tasks t).runState ≠ .stopped) : Stepped s (.call (.detach h) clock)
        ((s.write t fun b => { b with detached := true }).settle h)
  | assigns {dst src : HandleId} {clock : Clock} (at_ : s.pc = .user) :
      Stepped s (.call (.assign dst src) clock)
        { s with
          handles := update s.handles dst (s.handles src)
          owner := update s.owner dst (s.owner src) }
  -- The statements of the library.
  | unlocks {p : Pc} {clock : Clock} {fresh : Addr} (at_ : s.pc = .unlock p)
      (held : s.flag = true) :
      Stepped s (.run clock fresh) ({ s with toNode := s.setFlag false }.goto p)
  | begins {clock : Clock} {fresh : Addr} (at_ : s.pc = .prologue) :
      Stepped s (.run clock fresh) (s.write s.cur (Task.setState .running) |>.goto .user)
  | finds {a : Attr} {entry arg : Nat} {h : HandleId} {t : Addr} {rest : List Addr}
      {clock : Clock} {fresh : Addr} (at_ : s.pc = .makeLocked a entry arg h)
      (found : Node.findTask s.tasks a s.pool = some (t, rest)) : Stepped s (.run clock fresh)
        ({ s with pool := rest, mu := none }.number t |>.goto (.makeFound t entry arg h))
  | misses {a : Attr} {entry arg : Nat} {h : HandleId} {clock : Clock} {fresh : Addr}
      (at_ : s.pc = .makeLocked a entry arg h) :
      Stepped s (.run clock fresh) ({ s with mu := none }.goto (.makeCreate a entry arg h))
  | resets {t : Addr} {entry arg : Nat} {h : HandleId} {clock : Clock} {fresh : Addr}
      (at_ : s.pc = .makeFound t entry arg h) :
      Stepped s (.run clock fresh) (s.write t Task.reset |>.goto (.made t entry arg h))
  | creates {a : Attr} {entry arg : Nat} {h : HandleId} {clock : Clock} {fresh : Addr}
      (at_ : s.pc = .makeCreate a entry arg h) (unmapped : s.mapped fresh = false)
      (own : a.stack.addr = none) :
      Stepped s (.run clock fresh)
        ({ s.write fresh fun _ => Task.construct .zero (totalStackSize a) a.allocTls with
          mapped := update s.mapped fresh true }.number fresh |>.goto (.made fresh entry arg h))
  | launches {t : Addr} {entry arg : Nat} {h : HandleId} {clock : Clock} {fresh : Addr}
      (at_ : s.pc = .made t entry arg h) (stopped : (s.tasks t).runState = .stopped)
      (other : t ≠ s.cur) : Stepped s (.run clock fresh)
        ({ (s.write t fun b => { b with entry := some entry, arg := arg }).write s.cur
          (Task.save ⟨.plain (.startBack t h), s.stack⟩) with stack := t }.goto (.startOnNew t h))
  | lands {t : Addr} {h : HandleId} {clock : Clock} {fresh : Addr}
      (at_ : s.pc = .startOnNew t h) : Stepped s (.run clock fresh) (s.switchBack t)
  | suspends {t : Addr} {h : HandleId} {clock : Clock} {fresh : Addr}
      (at_ : s.pc = .startBack t h) :
      Stepped s (.run clock fresh) (s.write t (Task.setState .suspended) |>.goto (.started t h))
  | publishes {t : Addr} {h : HandleId} {clock : Clock} {fresh : Addr}
      (at_ : s.pc = .started t h) (clear : s.flag = false) :
      Stepped s (.run clock fresh) ({ s with toNode := s.schedule t }.goto (.spawned t h))
  | gives {t : Addr} {h : HandleId} {clock : Clock} {fresh : Addr} (at_ : s.pc = .spawned t h) :
      Stepped s (.run clock fresh) (s.giveHandle t h)
  | takes {h : HandleId} {wanted : Bool} {t : Addr} {clock : Clock} {fresh : Addr}
      (at_ : s.pc = .take h wanted) (points : s.handles h = some t)
      (stopped : (s.tasks t).runState = .stopped) : Stepped s (.run clock fresh)
        ({ s with joined :=
          (if wanted then [(s.owner h, (s.tasks t).returnValue)] else []) ++ s.joined }.goto
            (.returning h))
  | returns {h : HandleId} {t : Addr} {clock : Clock} {fresh : Addr} (at_ : s.pc = .returning h)
      (points : s.handles h = some t) (unlocked : s.mu = none) : Stepped s (.run clock fresh)
        ({ s with toNode := { s.recordReturn t with mu := some s.cur } }.goto (.returnLocked t h))
  | pools {t : Addr} {h : HandleId} {clock : Clock} {fresh : Addr}
      (at_ : s.pc = .returnLocked t h) : Stepped s (.run clock fresh)
        ({ s with pool := Node.insertTask s.tasks t s.pool, mu := none }.goto (.clearHandle h))
  | overflows {t : Addr} {h : HandleId} {clock : Clock} {fresh : Addr}
      (at_ : s.pc = .returnLocked t h) :
      Stepped s (.run clock fresh) ({ s with mu := none }.goto (.returnDestroy t h))
  | destroys {t : Addr} {h : HandleId} {clock : Clock} {fresh : Addr}
      (at_ : s.pc = .returnDestroy t h) :
      Stepped s (.run clock fresh) ({ s with toNode := s.destroy t }.goto (.clearHandle h))
  | clears {h : HandleId} {clock : Clock} {fresh : Addr} (at_ : s.pc = .clearHandle h) :
      Stepped s (.run clock fresh) (s.settle h |>.goto .user)

variable {s s' : Sys} {l : Label} {clock : Clock} {p : Pc}

/-- What a call does. -/
theorem stepped_of_call {c : Call} (at_ : s.pc = .user) (ok : s.call c clock = .ok s') :
    Stepped s (.call c clock) s' := by
  cases c with
  | spawn a entry arg h =>
    simp only [call, spawn] at ok
    split at ok
    · simp only [Except.ok.injEq] at ok
      exact ok ▸ .nothing
    · split at ok
      · cases ok
      · rename_i unlocked
        simp only [Except.ok.injEq] at ok
        exact ok ▸ .spawns at_ (by simpa using unlocked)
  | yield => exact .yields (.call at_) ok
  | sleepFor start duration => exact .sleeps at_ ok
  | join h wanted =>
    simp only [call, join] at ok
    split at ok
    · simp only [Except.ok.injEq] at ok
      exact ok ▸ .nothing
    · rename_i t points
      split at ok
      · cases ok
      rename_i clear
      split at ok
      · simp only [Except.ok.injEq] at ok
        exact ok ▸ .nothing
      rename_i unjoined
      split at ok
      · rename_i going
        simp only [Except.ok.injEq] at ok
        exact ok ▸ .waits at_ points (by simpa using clear) (by simpa using unjoined) going
      · rename_i stopped
        simp only [Except.ok.injEq] at ok
        exact ok ▸ .consumes at_ points (by simpa using clear) (by simpa using stopped) (.inl rfl)
  | detach h =>
    simp only [call, detach] at ok
    split at ok
    · simp only [Except.ok.injEq] at ok
      exact ok ▸ .nothing
    · rename_i t points
      split at ok
      · cases ok
      rename_i clear
      split at ok
      · rename_i going
        simp only [Except.ok.injEq] at ok
        exact ok ▸ .detaches at_ points (by simpa using clear) going
      · rename_i stopped
        simp only [Except.ok.injEq] at ok
        exact ok ▸ .consumes at_ points (by simpa using clear) (by simpa using stopped)
          (.inr ⟨rfl, rfl⟩)
  | exit value => exact .exits at_ ok
  | assign dst src =>
    simp only [call, Except.ok.injEq] at ok
    exact ok ▸ .assigns at_

/-- What the statement at hand does. -/
theorem stepped_of_run {fresh : Addr} (ok : s.run clock fresh = .ok s') :
    Stepped s (.run clock fresh) s' := by
  cases at_ : s.pc with
  | zero => simp [run, at_] at ok
  | user => simp [run, at_] at ok
  | exited => simp [run, at_] at ok
  | unlock p =>
    simp only [run, at_, Node.unlock, Bind.bind, Except.bind] at ok
    split at ok
    · cases ok
    · rename_i n unlocked
      split at unlocked
      · rename_i held
        simp only [Except.ok.injEq] at unlocked
        subst unlocked
        simp only [pure, Except.pure, Except.ok.injEq] at ok
        exact ok ▸ .unlocks at_ held
      · cases unlocked
  | makeLocked a entry arg h =>
    simp only [run, at_, Except.ok.injEq, makeLocked] at ok
    split at ok
    · rename_i t rest found
      exact ok ▸ .finds at_ found
    · exact ok ▸ .misses at_
  | makeCreate a entry arg h =>
    simp only [run, at_, create] at ok
    split at ok
    · cases ok
    · rename_i allocates
      obtain ⟨own, unmapped⟩ := not_or.mp allocates
      simp only [Except.ok.injEq] at ok
      exact ok ▸ .creates at_ (by simpa using unmapped) (by simpa using own)
  | made t entry arg h =>
    simp only [run, at_, startTask] at ok
    split at ok
    · cases ok
    rename_i stopped
    split at ok
    · cases ok
    rename_i other
    have stopped : (s.tasks t).runState = .stopped := by simpa [write] using stopped
    simp only [Except.ok.injEq] at ok
    exact ok ▸ .launches at_ stopped other
  | started t h =>
    simp only [run, at_, scheduleNew] at ok
    split at ok
    · cases ok
    · rename_i clear
      simp only [Except.ok.injEq] at ok
      exact ok ▸ .publishes at_ (by simpa using clear)
  | joinYield h wanted =>
    simp only [run, at_] at ok
    exact .yields (.join at_) ok
  | take h wanted =>
    simp only [run, at_, takeResult] at ok
    split at ok
    · cases ok
    rename_i t points
    split at ok
    · cases ok
    rename_i stopped
    simp only [Except.ok.injEq] at ok
    exact ok ▸ .takes at_ points (by simpa using stopped)
  | returning h =>
    simp only [run, at_, callReturn] at ok
    split at ok
    · cases ok
    rename_i t points
    split at ok
    · cases ok
    rename_i unlocked
    simp only [Except.ok.injEq] at ok
    exact ok ▸ .returns at_ points (by simpa using unlocked)
  | returnLocked t h =>
    simp only [run, at_, Except.ok.injEq, returnLocked] at ok
    split at ok
    · exact ok ▸ .pools at_
    · exact ok ▸ .overflows at_
  | prologue =>
    simp only [run, at_, Except.ok.injEq] at ok
    exact ok ▸ .begins at_
  | makeFound t entry arg h =>
    simp only [run, at_, Except.ok.injEq] at ok
    exact ok ▸ .resets at_
  | startOnNew t h =>
    simp only [run, at_, Except.ok.injEq] at ok
    exact ok ▸ .lands at_
  | startBack t h =>
    simp only [run, at_, Except.ok.injEq] at ok
    exact ok ▸ .suspends at_
  | spawned t h =>
    simp only [run, at_, Except.ok.injEq] at ok
    exact ok ▸ .gives at_
  | returnDestroy t h =>
    simp only [run, at_, Except.ok.injEq] at ok
    exact ok ▸ .destroys at_
  | clearHandle h =>
    simp only [run, at_, Except.ok.injEq] at ok
    exact ok ▸ .clears at_

/-- Every step does one of these things. -/
theorem stepped_of_ok (ok : s.step l = .ok s') : Stepped s l s' := by
  cases l with
  | trap clock =>
    simp only [step, trap] at ok
    split at ok
    · simp only [Except.ok.injEq] at ok
      exact ok ▸ .nothing
    · exact .yields .trap ok
  | call c clock =>
    simp only [step] at ok
    split at ok
    · rename_i at_
      exact stepped_of_call at_ ok
    · cases ok
  | run clock fresh => exact stepped_of_run ok

/-- The call of `yield` under `preempt_mutex`, taken apart. -/
theorem yieldLocked_ok (running : s.running = true) (ok : s.yieldLocked clock p = .ok s') :
    s.flag = false ∧ ∃ n, s' = { s with toNode := n } ∧
      (s.setFlag true).yield clock (.unlock p) = .ok n ∧
      Node.Yielded clock (.unlock p) (s.setFlag true) n := by
  cases locked : s.lock with
  | error fault => simp [yieldLocked, locked, Bind.bind, Except.bind] at ok
  | ok n =>
    obtain ⟨clear, rfl⟩ := lock_ok locked
    cases done : (s.setFlag true).yield clock (.unlock p) with
    | error fault => simp [yieldLocked, locked, done, Bind.bind, Except.bind] at ok
    | ok n =>
      simp only [yieldLocked, locked, done, Bind.bind, Except.bind, pure, Except.pure,
        Except.ok.injEq] at ok
      exact ⟨clear, n, ok.symm, rfl, Node.yield_yielded running done⟩

/-- A call of `sleep_for`, taken apart. -/
theorem sleepFor_ok {start duration : Int} (running : s.running = true)
    (ok : s.sleepFor start duration clock = .ok s') :
    s.flag = false ∧ ∃ n, s' = { s with toNode := n } ∧
      Node.Yielded clock (.unlock .user)
        { (s.setFlag true).modify s.cur (Task.setState .waiting) with
          rq := s.rq.sleepPush start duration s.cur } n := by
  cases locked : s.lock with
  | error fault => simp [sleepFor, locked, Bind.bind, Except.bind] at ok
  | ok n =>
    obtain ⟨clear, rfl⟩ := lock_ok locked
    cases done : (s.setFlag true).yieldFor start duration clock (.unlock .user) with
    | error fault => simp [sleepFor, locked, done, Bind.bind, Except.bind] at ok
    | ok n =>
      simp only [sleepFor, locked, done, Bind.bind, Except.bind, pure, Except.pure,
        Except.ok.injEq] at ok
      exact ⟨clear, n, ok.symm, Node.yieldFor_yielded running done⟩

/-- A call of `exit`, taken apart. -/
theorem exit_ok {value : Nat} (running : s.running = true) (ok : s.exit value clock = .ok s') :
    (s.tasks s.cur).entry ≠ none ∧ s.flag = false ∧ ∃ n,
      s' = { s with toNode := n, exits := ((s.tasks s.cur).spawn, value) :: s.exits } ∧
      ((s.setFlag true).finish value).yield clock (.unlock .exited) = .ok n ∧
      Node.Yielded clock (.unlock .exited) ((s.setFlag true).finish value) n := by
  unfold exit at ok
  split at ok
  · cases ok
  rename_i entered
  cases locked : s.lock with
  | error fault => simp [locked, Bind.bind, Except.bind] at ok
  | ok n =>
    obtain ⟨clear, rfl⟩ := lock_ok locked
    cases done : ((s.setFlag true).finish value).yield clock (.unlock .exited) with
    | error fault => simp [locked, done, Bind.bind, Except.bind] at ok
    | ok n =>
      simp only [locked, done, Bind.bind, Except.bind, pure, Except.pure, Except.ok.injEq] at ok
      have started : ((s.setFlag true).finish value).running = true := by
        unfold Node.finish
        dsimp only
        split
        · exact running
        · exact running
      exact ⟨entered, clear, n, ok.symm, rfl, Node.yield_yielded started done⟩

end Sys

end Gthread

import Gthread.Sched.SchedNames

/-! Starting a task: the excursion onto its stack, and the one way back into `start`. -/

namespace Gthread

open Function (update update_of_ne update_self)

/-- The statements of `gthread_task_entry` before its first switch. -/
def Pc.onNew : Pc → Bool
  | .startOnNew _ _ => true
  | _ => false

namespace Sys

variable {s s' : Sys} {t b : Addr} {l : Label} {p : Pc} {clock : Clock} {host : Addr} {tick : Int}
  {maxSize : Nat}

/-- Whether a timer trap would leave the running task where it is. -/
def stays (clock : Clock) (s : Sys) : Bool :=
  match s.trap clock with
  | .ok s' => s'.cur = s.cur
  | .error _ => true

/-- A trap that hits a spawner on the new task's stack does not switch to another task. -/
def Undisturbed (s : Sys) : Label → Prop
  | .trap clock => s.pc.base.onNew = true → s.stays clock = true
  | _ => True

instance (s : Sys) : (l : Label) → Decidable (s.Undisturbed l)
  | .trap _ => inferInstanceAs (Decidable (_ → _))
  | .call _ _ | .run _ _ => .isTrue trivial

/-- The way back from an excursion: it is in the spawner's context, and nowhere else. -/
structure Starting (s : Sys) : Prop where
  running : s.running = true
  own : ∀ t h, s.pc.base = .startOnNew t h →
    (s.tasks s.cur).ctx.resume = .plain (.startBack t h) ∧ s.stack = t ∧ t ≠ s.cur
  away : ∀ b, b ≠ s.cur → ∀ t h, (s.tasks b).ctx.resume.pc.base ≠ .startOnNew t h
  back : ∀ b, b ≠ s.cur → ∀ t h, (s.tasks b).ctx.resume ≠ .plain (.startBack t h)
  -- A context saved by a switch goes on at the end of a critical section.
  switched : ∀ b k, (s.tasks b).ctx.resume = .switched k → ∃ p, k = .unlock p

/-- What a spawn asks of the excursion onto the new task's stack. -/
structure StartsOnce (s : Sys) : Prop where
  -- It ends in `start`, in the spawner, and the new task will go on after its first switch.
  comesBack : ∀ t h, s.pc = .startOnNew t h → ∀ clock fresh, ∃ s',
    s.step (.run clock fresh) = .ok s' ∧ s'.cur = s.cur ∧ s'.pc = .startBack t h ∧
      (s'.tasks t).ctx = ⟨.plain .prologue, t⟩
  -- That point of `start` is reached in this way only, or again after a trap that hit it there.
  once : ∀ l s', s.step l = .ok s' → ∀ t h, s'.pc = .startBack t h →
    s.pc = .startOnNew t h ∨ s.pc = .unlock (.startBack t h) ∨ s' = s

/-- A statement that leaves the running task and all contexts alone. -/
theorem Starting.keep (starting : s.Starting) (running : s'.running = s.running)
    (cur : s'.cur = s.cur) (ctx : ∀ b, (s'.tasks b).ctx = (s.tasks b).ctx)
    (stack : s'.stack = s.stack)
    (at_ : ∀ t h, s'.pc.base = .startOnNew t h → s.pc.base = .startOnNew t h) : s'.Starting where
  running := running.trans starting.running
  own := by
    intro t h here
    rw [cur, ctx, stack]
    exact starting.own t h (at_ t h here)
  away := by
    intro b other
    rw [ctx]
    exact starting.away b (cur ▸ other)
  back := by
    intro b other
    rw [ctx]
    exact starting.back b (cur ▸ other)
  switched := by
    intro b
    rw [ctx]
    exact starting.switched b

/-- Another task goes on, and the context that was left is on no excursion. -/
theorem Starting.move (starting : s.Starting) (running : s'.running = true) (other : s'.cur ≠ s.cur)
    (pc : s'.pc = (s.tasks s'.cur).ctx.resume.pc)
    (saved : (s'.tasks s.cur).ctx.resume = .switched (.unlock p))
    (rest : ∀ b, b ≠ s.cur → (s'.tasks b).ctx = (s.tasks b).ctx)
    (home : ∀ t h, p.base ≠ .startOnNew t h) : s'.Starting := by
  refine ⟨running, ?_, ?_, ?_, ?_⟩
  · intro t h here
    rw [pc] at here
    exact absurd here (starting.away s'.cur other t h)
  · intro b _ t h here
    by_cases left : b = s.cur
    · rw [left, saved] at here
      exact home t h here
    · rw [rest b left] at here
      exact starting.away b left t h here
  · intro b _ t h here
    by_cases left : b = s.cur
    · rw [left, saved] at here
      cases here
    · rw [rest b left] at here
      exact starting.back b left t h here
  · intro b k here
    by_cases left : b = s.cur
    · rw [left, saved, Resume.switched.injEq] at here
      exact ⟨p, here.symm⟩
    · rw [rest b left] at here
      exact starting.switched b k here

/-- Giving up the processor, which the spawner does not do for another task on the way. -/
theorem Starting.leave {m : Node Pc} (starting : s.Starting) (running : m.running = s.running)
    (cur : m.cur = s.cur) (ctx : ∀ b, (m.tasks b).ctx = (s.tasks b).ctx) (stack : m.stack = s.stack)
    (yielded : Node.Yielded clock (.unlock p) m s'.toNode)
    (same : ∀ t h, p.base = .startOnNew t h → s.pc.base = .startOnNew t h ∧ s'.cur = s.cur) :
    s'.Starting := by
  have going : s'.running = true := yielded.running.trans (running.trans starting.running)
  rcases yielded.went with ⟨stayed, pc⟩ | moved
  · refine starting.keep (going.trans starting.running.symm) (stayed.cur.trans cur) ?_
      (stayed.stack.trans stack) ?_
    · intro b
      rw [(stayed.unchanged b).2, ctx]
    · intro t h here
      rw [pc] at here
      exact (same t h here).1
  · have other : s'.cur ≠ s.cur := cur ▸ moved.other
    have saved : (s'.tasks s.cur).ctx.resume = .switched (.unlock p) := by
      rw [← cur, moved.saved]
    refine starting.move going other ?_ saved ?_ fun t h here => other (same t h here).2
    · rw [moved.pc, ctx]
    · intro b away
      rw [(moved.others b (cur ▸ away)).1, ctx]

/-- The statement at which a yield goes on is not that point of `start`. -/
theorem Starting.leave_pc {m : Node Pc} (starting : s.Starting) (cur : m.cur = s.cur)
    (ctx : ∀ b, (m.tasks b).ctx = (s.tasks b).ctx)
    (yielded : Node.Yielded clock (.unlock p) m s'.toNode) (t : Addr) (h : HandleId) :
    s'.pc ≠ .startBack t h := by
  rcases yielded.went with ⟨-, pc⟩ | moved
  · simp [pc]
  · rw [moved.pc, ctx]
    cases resume : (s.tasks s'.cur).ctx.resume with
    | plain k =>
      rintro rfl
      exact starting.back s'.cur (cur ▸ moved.other) t h resume
    | switched k =>
      obtain ⟨p, rfl⟩ := starting.switched s'.cur k resume
      simp [Resume.pc]

/-- A write that leaves a field of its block alone leaves it alone in every block. -/
theorem write_field {β : Type} (field : Task Pc → β) (t : Addr) (f : Task Pc → Task Pc)
    (same : ∀ u, field (f u) = field u) (s : Sys) (b : Addr) :
    field ((s.write t f).tasks b) = field (s.tasks b) := by
  rw [write_tasks]
  split
  · rename_i here
    rw [same, here]
  · rfl

/-- Contexts after a write that saves none. -/
theorem write_ctx (t : Addr) (f : Task Pc → Task Pc) (same : ∀ u, (f u).ctx = u.ctx) (s : Sys)
    (b : Addr) : ((s.write t f).tasks b).ctx = (s.tasks b).ctx := write_field Task.ctx t f same s b

/-- Every step keeps the way back, if no trap takes the spawner away from it. -/
theorem Starting.step (starting : s.Starting) (undisturbed : s.Undisturbed l)
    (ok : s.step l = .ok s') : s'.Starting := by
  have running := starting.running
  have flagged : ∀ b, ((s.setFlag true).tasks b).ctx = (s.tasks b).ctx :=
    write_ctx s.cur (fun t => { t with noPreemptFlag := true }) (fun _ => rfl) s
  have trapped := ok
  cases stepped_of_ok ok with
  | nothing => exact starting
  | @yields _ clock p _ leaves ok =>
    obtain ⟨clear, n, rfl, -, yielded⟩ := yieldLocked_ok running ok
    refine starting.leave (m := s.setFlag true) rfl rfl flagged rfl yielded ?_
    intro t h here
    cases leaves with
    | trap =>
      have stays : s.stays clock = true := undisturbed (by simp [here, Pc.onNew])
      have done : s.trap clock = .ok { s with toNode := n } := trapped
      rw [Sys.stays, done] at stays
      exact ⟨here, by simpa using stays⟩
    | call => simp [Pc.base] at here
    | join => simp [Pc.base] at here
  | sleeps at_ ok =>
    obtain ⟨-, n, rfl, yielded⟩ := sleepFor_ok running ok
    refine starting.leave ?_ ?_ ?_ ?_ yielded ?_
    · rfl
    · rfl
    · intro b
      have waiting := write_ctx s.cur (Task.setState .waiting) (fun _ => rfl)
        { s with toNode := s.setFlag true } b
      exact waiting.trans (flagged b)
    · rfl
    · simp [Pc.base]
  | @exits value clock _ at_ ok =>
    obtain ⟨-, -, n, rfl, -, yielded⟩ := exit_ok running ok
    have finished := Node.finish_finished value (s.setFlag true)
    refine starting.leave finished.running finished.cur ?_ finished.stack yielded ?_
    · intro b
      rw [(finished.kept b).1, flagged]
    · simp [Pc.base]
  | waits at_ points clear unjoined going =>
    refine starting.keep rfl rfl ?_ rfl (by simp [goto, Pc.base])
    intro b
    refine (write_ctx _ _ ?_ (s.write _ _) b).trans (write_ctx _ _ ?_ s b)
    · exact fun _ => rfl
    · exact fun _ => rfl
  | @detaches h t clock at_ points clear going =>
    refine starting.keep rfl rfl ?_ rfl (by simp [settle, Sys.write, at_, Pc.base])
    exact write_ctx t (fun b => { b with detached := true }) (fun _ => rfl) s
  | unlocks at_ held =>
    refine starting.keep rfl rfl ?_ rfl (by simp [goto, at_, Pc.base])
    exact write_ctx s.cur (fun t => { t with noPreemptFlag := false }) (fun _ => rfl) s
  | begins at_ =>
    refine starting.keep rfl rfl ?_ rfl (by simp [goto, Pc.base])
    refine write_ctx _ _ ?_ s
    exact fun _ => rfl
  | @finds a entry arg h t rest clock fresh at_ found =>
    refine starting.keep rfl rfl ?_ rfl (by simp [goto, Pc.base])
    exact write_ctx t (fun b => { b with spawn := s.next, scheduled := false }) (fun _ => rfl)
      { s with pool := rest, mu := none }
  | resets at_ =>
    refine starting.keep rfl rfl ?_ rfl (by simp [goto, Pc.base])
    refine write_ctx _ _ ?_ s
    exact fun _ => rfl
  | @creates a entry arg h clock fresh at_ unmapped =>
    have ctx : ∀ b, ((({ s.write fresh fun _ => Task.construct .zero (totalStackSize a) a.allocTls
        with mapped := update s.mapped fresh true } : Sys).number fresh).tasks b).ctx =
        if b = fresh then ⟨.plain .zero, 0⟩ else (s.tasks b).ctx := by
      intro b
      simp only [number_tasks, write_tasks]
      split_ifs <;> rfl
    refine ⟨running, by simp [goto, Pc.base], ?_, ?_, ?_⟩
    · intro b other t h
      simp only [goto, ctx]
      split_ifs
      · simp [Resume.pc, Pc.base]
      · exact starting.away b other t h
    · intro b other t h
      simp only [goto, ctx]
      split_ifs
      · simp
      · exact starting.back b other t h
    · intro b k
      simp only [goto, ctx]
      split_ifs
      · simp
      · exact starting.switched b k
  | @launches t entry arg h clock fresh at_ stopped other =>
    have rest : ∀ b, b ≠ s.cur → (((s.write t fun b => { b with entry := some entry, arg := arg
        }).write s.cur (Task.save ⟨.plain (.startBack t h), s.stack⟩)).tasks b).ctx =
        (s.tasks b).ctx := by
      intro b away
      simp only [write_tasks, if_neg away]
      split_ifs with here
      · rw [here]
      · rfl
    refine ⟨running, ?_, ?_, ?_, ?_⟩
    · intro u g here
      simp only [goto, Pc.base, Pc.startOnNew.injEq] at here
      obtain ⟨rfl, rfl⟩ := here
      exact ⟨by simp [goto, Sys.write], rfl, other⟩
    · intro b away
      simp only [goto]
      rw [rest b away]
      exact starting.away b away
    · intro b away
      simp only [goto]
      rw [rest b away]
      exact starting.back b away
    · intro b k here
      by_cases left : b = s.cur
      · simp [goto, Sys.write, left] at here
      · simp only [goto] at here
        rw [rest b left] at here
        exact starting.switched b k here
  | @lands t h clock fresh at_ =>
    obtain ⟨saved, -, other⟩ := starting.own t h (by simp [at_, Pc.base])
    have pc : (s.switchBack t).pc = .startBack t h := by
      simp [switchBack, Node.gthreadSwitchTo, Node.load, other.symm, saved, Resume.pc]
    have rest : ∀ b, b ≠ s.cur → ((s.switchBack t).tasks b).ctx =
        if b = t then ⟨.plain .prologue, s.stack⟩ else (s.tasks b).ctx := by
      intro b away
      rw [switchBack_tasks other, if_neg away]
      split_ifs <;> rfl
    refine ⟨running, by simp [pc, Pc.base], ?_, ?_, ?_⟩
    · intro b away u g
      rw [rest b away]
      split_ifs
      · simp [Resume.pc, Pc.base]
      · exact starting.away b away u g
    · intro b away u g
      rw [rest b away]
      split_ifs
      · simp
      · exact starting.back b away u g
    · intro b k here
      by_cases own : b = s.cur
      · rw [switchBack_tasks other, if_pos own, Task.resumed_ctx, saved] at here
        cases here
      · rw [rest b own] at here
        split at here
        · cases here
        · exact starting.switched b k here
  | suspends at_ =>
    refine starting.keep rfl rfl ?_ rfl (by simp [goto, Pc.base])
    refine write_ctx _ _ ?_ s
    exact fun _ => rfl
  | @publishes t h clock fresh at_ clear =>
    refine starting.keep rfl rfl ?_ rfl (by simp [goto, Pc.base])
    intro b
    simp only [goto, schedule_tasks]
    split_ifs with here
    · simp [here]
    · rfl
  | spawns at_ unlocked =>
    exact starting.keep rfl rfl (fun _ => rfl) rfl (by simp [goto, Pc.base])
  | consumes at_ points clear stopped asks =>
    exact starting.keep rfl rfl (fun _ => rfl) rfl (by simp [goto, Pc.base])
  | assigns at_ => exact starting.keep rfl rfl (fun _ => rfl) rfl (by simp)
  | _ => exact starting.keep rfl rfl (fun _ => rfl) rfl (by simp [goto, giveHandle, Pc.base])

/-- Nobody is on an excursion right after `start_async`. -/
theorem starting_start (host : Addr) (tick : Int) (maxSize : Nat) :
    (start host tick maxSize).Starting := by
  have ctx : ∀ b, ((start host tick maxSize).tasks b).ctx.resume = .plain .zero := by
    intro b
    by_cases here : b = host
    · simp [start, Node.startAsync, here, Task.wrapCurrent]
    · simp [start, Node.startAsync, here, Task.construct]
  refine ⟨rfl, by simp [start, Node.startAsync, Pc.base], ?_, ?_, ?_⟩
  · intro b _ t h
    simp [ctx, Resume.pc, Pc.base]
  · intro b _ t h
    simp [ctx]
  · intro b k
    simp [ctx]

/-- In every run in which no trap takes a spawner off the new stack, every start comes back once. -/
theorem startsOnce_of_undisturbed
    (reached : Run.Reaches step Undisturbed (start host tick maxSize) s) : s.StartsOnce := by
  have starting : s.Starting :=
    reached.invariant (starting_start host tick maxSize) fun _ _ _ starting undisturbed ok =>
      starting.step undisturbed ok
  have flagged : ∀ b, ((s.setFlag true).tasks b).ctx = (s.tasks b).ctx :=
    write_ctx s.cur (fun t => { t with noPreemptFlag := true }) (fun _ => rfl) s
  refine ⟨?_, ?_⟩
  · intro t h at_ clock fresh
    obtain ⟨saved, onNew, other⟩ := starting.own t h (by simp [at_, Pc.base])
    refine ⟨s.switchBack t, by simp [step, run, at_], rfl, ?_, ?_⟩
    · simp [switchBack, Node.gthreadSwitchTo, Node.load, other.symm, saved, Resume.pc]
    · rw [switchBack_tasks other, if_neg other, if_pos rfl]
      simp [onNew]
  · intro l s' ok t h there
    cases stepped_of_ok ok with
    | nothing => exact .inr (.inr rfl)
    | @yields _ clock p _ leaves ok =>
      obtain ⟨-, n, rfl, -, yielded⟩ := yieldLocked_ok starting.running ok
      exact absurd there (starting.leave_pc (m := s.setFlag true) rfl flagged yielded t h)
    | sleeps at_ ok =>
      obtain ⟨-, n, rfl, yielded⟩ := sleepFor_ok starting.running ok
      refine absurd there (starting.leave_pc ?_ ?_ yielded t h)
      · rfl
      · intro b
        have waiting := write_ctx s.cur (Task.setState .waiting) (fun _ => rfl)
          { s with toNode := s.setFlag true } b
        exact waiting.trans (flagged b)
    | @exits value clock _ at_ ok =>
      obtain ⟨-, -, n, rfl, -, yielded⟩ := exit_ok starting.running ok
      have finished := Node.finish_finished value (s.setFlag true)
      refine absurd there (starting.leave_pc finished.cur ?_ yielded t h)
      intro b
      rw [(finished.kept b).1, flagged]
    | unlocks at_ held =>
      simp only [goto] at there
      exact .inr (.inl (there ▸ at_))
    | @lands u g clock fresh at_ =>
      obtain ⟨saved, -, other⟩ := starting.own u g (by simp [at_, Pc.base])
      have pc : (s.switchBack u).pc = .startBack u g := by
        simp [switchBack, Node.gthreadSwitchTo, Node.load, other.symm, saved, Resume.pc]
      rw [pc, Pc.startBack.injEq] at there
      exact .inl (there.1 ▸ there.2 ▸ at_)
    | detaches at_ => simp [settle, Sys.write, at_] at there
    | assigns at_ => simp [at_] at there
    | _ => simp [goto, giveHandle] at there

/-- A clock on which a spawner keeps the processor, or loses it to the task it started before. -/
def startLabels (now : Int) : List Label :=
  List.flatten [spawnInto kLightAttr 0 1, [.call (.spawn kLightAttr (some 7) 0 1) stillClock],
    List.replicate 3 (.run stillClock 2), [.trap (clockAt now)]]

/-- A trap that hits a spawner on the new stack, and leaves it there, does no harm. -/
theorem startsOnce_of_undisturbed_trap : ∃ s,
    Run.Reaches step Undisturbed (start 0 0 4) s ∧ s.pc = .startOnNew 2 1 ∧
      s.rq.runqueue = [some 1] ∧ s.StartsOnce := by
  have run : ∃ s, Run.Reaches step Undisturbed (start 0 0 4) s ∧ s.pc = .startOnNew 2 1 ∧
      s.rq.runqueue = [some 1] :=
    Run.Reaches.of_check (startLabels 0 ++ [.run stillClock 0]) (by decide +kernel)
  obtain ⟨s, reached, at_, queue⟩ := run
  exact ⟨s, reached, at_, queue, startsOnce_of_undisturbed reached⟩

/-- The spawner is preempted on the new stack, and comes back to it later. -/
def preemptedStartLabels : List Label :=
  List.flatten [startLabels 5000, [.run stillClock 0, .call .yield (clockAt 20000),
    .run stillClock 0]]

/-- A spawner that was preempted on the new stack does not come back to `start`. -/
theorem preempted_start_returns_to_trap : ∃ s,
    Run.Reaches step (fun _ _ => True) (start 0 0 4) s ∧ ¬ s.StartsOnce := by
  have run : ∃ s, Run.Reaches step (fun _ _ => True) (start 0 0 4) s ∧
      s.pc = .startOnNew 2 1 ∧ (s.switchBack 2).pc = .unlock (.startOnNew 2 1) :=
    Run.Reaches.of_check preemptedStartLabels (by decide +kernel)
  obtain ⟨s, reached, at_, stale⟩ := run
  refine ⟨s, reached, fun starts => ?_⟩
  obtain ⟨s', ok, -, back, -⟩ := starts.comesBack 2 1 at_ stillClock 0
  simp only [step, run, at_, Except.ok.injEq] at ok
  rw [← ok, stale] at back
  cases back

end Sys

end Gthread

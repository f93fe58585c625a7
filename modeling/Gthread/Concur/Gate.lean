import Gthread.Lib.Run
import Gthread.Concur.WaiterLaws

/-! What `close` does to a channel's waiter, whichever monitor the channel is built from. -/

namespace Gthread

open Function (update update_of_ne update_self)

/-- How far a task has got in `close`. -/
inductive ClosePhase where
  | outside
  -- The store to `_closed` is still to come.
  | storing
  -- The loop that unparks whoever is parked.
  | draining
  deriving DecidableEq, Repr

/-- A channel as `close` sees it. -/
structure Gate where
  waiter : Waiter Party
  closed : Bool
  -- The statements of the waiter that the tasks are at.
  role : Party → Option (WaiterPc Party)
  phase : Party → ClosePhase

namespace Waiter

open Party (other_other other_ne eq_or_other)

variable {w w' : Waiter Party} {role : Party → Option (WaiterPc Party)} {p q : Party}

/-- A task that waits, or that will wait before it looks at `_closed` again. -/
def Retires (w : Waiter Party) (role : Party → Option (WaiterPc Party)) (q : Party) : Prop :=
  w.cpu.state q = .waiting ∨ role q = some .mark ∨ ∃ r, role q = some (.switch r)

/-- A task that retires is not in `unpark`. -/
theorem Inv.member_of_retires (inv : w.Inv role) (retires : w.Retires role q) :
    ∃ pc, role q = some pc ∧ pc.member ≠ .unpark := by
  rcases retires with waiting | marks | ⟨r, switches⟩
  · have sleeps := (inv.asleep waiting).at_
    cases at_ : role q with
    | none => simp [at_, waits] at sleeps
    | some pc => exact ⟨pc, rfl, member_of_stands (.inr (at_ ▸ sleeps))⟩
  · exact ⟨.mark, marks, by simp [WaiterPc.member]⟩
  · exact ⟨.switch r, switches, by simp [WaiterPc.member]⟩

/-- A task that retires is in the slot or was taken out of it by the other one. -/
theorem Inv.slot_of_retires (inv : w.Inv role) (retires : w.Retires role q) :
    w.slot = some q ∨ takes (role q.other) = some q := by
  -- A task about to wait still runs on, so that it stands in the slot it has claimed.
  have standing : claims (role q) = true → w.slot = some q := by
    intro stands
    rcases inv.party q with awake | asleep
    · exact awake.slot.mpr stands
    · rw [claims_of_waits asleep.at_] at stands
      cases stands
  rcases retires with waiting | marks | ⟨r, switches⟩
  · rcases (inv.asleep waiting).slot with ⟨stands, -⟩ | ⟨-, taken, -⟩
    · exact .inl stands
    · exact .inr taken
  · exact .inl (standing (by rw [marks]; rfl))
  · exact .inl (standing (by rw [switches]; rfl))

/-- A task that does not retire runs or is queued. -/
theorem Inv.awake_of_stays (inv : w.Inv role) (stays : ¬ w.Retires role q) : w.Awake role q :=
  (inv.party q).resolve_right fun asleep => stays (.inl asleep.state)

/-- A task begins to retire while the channel is open, or where it switches to one that waits. -/
theorem Inv.retires_of_step {closed : Bool} {pc : WaiterPc Party} {outcome : Outcome Party}
    {new : Option (WaiterPc Party)} (inv : w.Inv role) (at_ : role p = some pc)
    (ok : w.step p closed pc = .ok (outcome, w'))
    (goes : new = some .mark ∨ (∃ r, new = some (.switch r)) → new = outcome.pc)
    (retires : w'.Retires (update role p new) p) :
    w.Retires role p ∨ closed = false ∨
      (pc.member ≠ .unpark ∧ w.cpu.state p.other = .waiting) := by
  rcases retires with waiting | marks | ⟨r, switches⟩
  · -- The run state is set where the task is marked, or where it switches to another one.
    by_cases before : w.cpu.state p = .waiting
    · exact .inl (.inl before)
    · rcases step_awake before ok with awake | rfl | ⟨q, rfl⟩
      · exact absurd waiting awake
      · exact .inl (.inr (.inl at_))
      · exact .inl (.inr (.inr ⟨q, at_⟩))
  · rw [update_self] at marks
    have reached := goes (.inl marks)
    rw [marks] at reached
    cases outcome with
    | return_ result => cases reached
    | goto pc' =>
      obtain rfl : pc' = .mark := by simpa [Outcome.pc] using reached.symm
      exact .inr (.inl (goto_mark ok))
  · rw [update_self] at switches
    have reached := goes (.inr ⟨r, switches⟩)
    rw [switches] at reached
    cases outcome with
    | return_ result => cases reached
    | goto pc' =>
      obtain rfl : pc' = .switch r := by simpa [Outcome.pc] using reached.symm
      obtain rfl := goto_switch ok
      have target := inv.names p r (by rw [at_]; rfl)
      have aimed := inv.aims p r (by rw [at_]; rfl)
      exact .inr (.inr ⟨by simp [WaiterPc.member], target ▸ aimed.2.1⟩)

/-- However a task moves, it begins to retire in these two ways only. -/
theorem Inv.retires_of_moves {closed : Bool} {new : Option (WaiterPc Party)} (inv : w.Inv role)
    (moves : Moves p closed w (role p) new w') (retires : w'.Retires (update role p new) p) :
    w.Retires role p ∨ closed = false ∨
      (∃ pc, role p = some pc ∧ pc.member ≠ .unpark ∧ w.cpu.state p.other = .waiting) := by
  cases moves with
  | enter out stands nobody =>
    rcases retires with waiting | marks | ⟨r, switches⟩
    · exact .inl (.inl waiting)
    · rw [update_self] at marks
      rw [marks] at stands
      cases stands
    · rw [update_self] at switches
      rw [switches] at stands
      cases stands
  | yield out stands nobody =>
    rcases retires with waiting | marks | ⟨r, switches⟩
    · -- Giving up the processor never makes a task wait.
      have before : w.cpu.state p = .waiting := by
        by_contra awake
        cases state : w.cpu.state p <;> simp_all [Waiter.yield]
      exact .inl (.inl before)
    · rw [update_self] at marks
      rw [marks] at stands
      cases stands
    · rw [update_self] at switches
      rw [switches] at stands
      cases stands
  | @step pc outcome w' at_ ok =>
    rcases inv.retires_of_step at_ ok (fun _ => rfl) retires with before | open_ | ⟨away, waiting⟩
    · exact .inl before
    · exact .inr (.inl open_)
    · exact .inr (.inr ⟨pc, at_, away, waiting⟩)
  | @next pc result new w' at_ ok stands nobody =>
    have goes : new = some .mark ∨ (∃ r, new = some (.switch r)) → new = none := by
      rintro (rfl | ⟨r, rfl⟩)
      · cases stands
      · cases stands
    rcases inv.retires_of_step at_ ok goes retires with before | open_ | ⟨away, waiting⟩
    · exact .inl before
    · exact .inr (.inl open_)
    · exact .inr (.inr ⟨pc, at_, away, waiting⟩)

/-- A task retires only by a move of its own. -/
theorem retires_of_other {closed : Bool} {new : Option (WaiterPc Party)}
    (moves : Moves p closed w (role p) new w')
    (retires : w'.Retires (update role p new) p.other) : w.Retires role p.other := by
  have apart := other_ne p
  rcases retires with waiting | marks | ⟨r, switches⟩
  · refine .inl ?_
    cases moves with
    | enter => exact waiting
    | yield => simpa [Waiter.yield, apart] using waiting
    | step at_ ok => exact step_waiting apart ok waiting
    | next at_ ok => exact step_waiting apart ok waiting
  · exact .inr (.inl (by rwa [update_of_ne apart] at marks))
  · exact .inr (.inr ⟨r, by rwa [update_of_ne apart] at switches⟩)

end Waiter

namespace Gate

open Party (other_other other_ne eq_or_other)

variable {g g' : Gate} {p q : Party}

/-- How far a task gets in `close` with one statement. -/
inductive Advances (p : Party) (g g' : Gate) : Prop
  | stays (phase : g'.phase p = g.phase p) (closed : g'.closed = g.closed)
  | begins (at_ : g.phase p = .outside) (phase : g'.phase p = .storing)
      (closed : g'.closed = g.closed)
  | stores (phase : g'.phase p = .draining) (closed : g'.closed = true)
  -- The loop ends where the other task is not in the slot.
  | ends (at_ : g.phase p = .draining) (phase : g'.phase p = .outside)
      (closed : g'.closed = g.closed) (out : g'.role p = none)
      (off : g'.waiter.slot ≠ some p.other)

/-- What a step does to a channel. -/
inductive Steps (g : Gate) : Gate → Prop
  | moves {p : Party} {g' : Gate} (running : g.waiter.cpu.running = some p)
      (moves : Waiter.Moves p g.closed g.waiter (g.role p) (g'.role p) g'.waiter)
      (role : g'.role = update g.role p (g'.role p))
      (other : g'.phase p.other = g.phase p.other)
      -- `close` calls no member function but `unpark`.
      (inside : g'.phase p ≠ .outside → ∀ pc, g'.role p = some pc → pc.member = .unpark)
      (advances : Advances p g g') : Steps g g'
  | preempt {p : Party} (running : g.waiter.cpu.running = some p) :
      Steps g { g with waiter := g.waiter.yield p }
  | dispatch {p : Party} (idle : g.waiter.cpu.running = none)
      (queued : g.waiter.cpu.queued p = true) :
      Steps g { g with waiter := { g.waiter with cpu := g.waiter.cpu.enter p } }

/-- Once the channel is closed, a task retires only while the other one is about to unpark it. -/
structure Inv (g : Gate) : Prop where
  waiter : g.waiter.Inv g.role
  inside : ∀ p, g.phase p ≠ .outside → ∀ pc, g.role p = some pc → pc.member = .unpark
  stored : ∀ p, g.phase p = .draining → g.closed = true
  covers : g.closed = true → ∀ q, g.waiter.Retires g.role q → g.phase q.other = .draining

/-- The channel is closed and nobody retires. -/
structure Settled (g : Gate) : Prop where
  waiter : g.waiter.Inv g.role
  closed : g.closed = true
  stays : ∀ q, ¬ g.waiter.Retires g.role q

/-- A task that begins to retire in a closed channel does so under the cover of the other one. -/
theorem Inv.begins (inv : g.Inv) (closed : g.closed = true)
    (moves : Waiter.Moves p g.closed g.waiter (g.role p) (g'.role p) g'.waiter)
    (role : g'.role = update g.role p (g'.role p)) (retires : g'.waiter.Retires g'.role p) :
    g.waiter.Retires g.role p := by
  rw [role] at retires
  rcases inv.waiter.retires_of_moves moves retires with before | open_ | ⟨pc, at_, away, waiting⟩
  · exact before
  · rw [closed] at open_
    cases open_
  · -- A task that waits is covered by this one, which then is in `unpark` and not in `swap`.
    have covered := inv.covers closed p.other (.inl waiting)
    rw [other_other] at covered
    exact absurd (inv.inside p (by rw [covered]; nofun) pc at_) away

/-- A task that another one has left alone retired before. -/
theorem retires_of_moves
    (moves : Waiter.Moves p g.closed g.waiter (g.role p) (g'.role p) g'.waiter)
    (role : g'.role = update g.role p (g'.role p))
    (retires : g'.waiter.Retires g'.role p.other) : g.waiter.Retires g.role p.other := by
  rw [role] at retires
  exact Waiter.retires_of_other moves retires

/-- Giving up the processor makes nobody retire. -/
theorem retires_of_preempt (retires : (g.waiter.yield p).Retires g.role q) :
    g.waiter.Retires g.role q := by
  refine retires.imp_left fun waiting => ?_
  by_cases same : q = p
  · subst same
    by_contra awake
    cases state : g.waiter.cpu.state q <;> simp_all [Waiter.yield]
  · simpa [Waiter.yield, same] using waiting

/-- A task that is switched to does not wait. -/
theorem retires_of_dispatch
    (retires : Waiter.Retires { g.waiter with cpu := g.waiter.cpu.enter p } g.role q) :
    g.waiter.Retires g.role q := by
  refine retires.imp_left fun waiting => ?_
  by_cases same : q = p
  · simp [same] at waiting
  · simpa [same] using waiting

/-- Every step keeps the invariant. -/
theorem Inv.step (inv : g.Inv) (steps : g.Steps g') : g'.Inv := by
  cases steps with
  | preempt running =>
    exact ⟨inv.waiter.preempt running, inv.inside, inv.stored,
      fun closed q retires => inv.covers closed q (retires_of_preempt retires)⟩
  | dispatch idle queued =>
    exact ⟨inv.waiter.dispatch idle queued, inv.inside, inv.stored,
      fun closed q retires => inv.covers closed q (retires_of_dispatch retires)⟩
  | @moves p g' running moves role other inside advances =>
    have waiter : g'.waiter.Inv g'.role := role ▸ inv.waiter.moves running rfl moves
    have inside' : ∀ b, g'.phase b ≠ .outside → ∀ pc, g'.role b = some pc →
        pc.member = .unpark := by
      intro b
      rcases eq_or_other p b with rfl | rfl
      · exact inside
      · rw [other, role, update_of_ne (other_ne p)]
        exact inv.inside p.other
    -- The store is the only statement that closes the channel, and it is followed by the loop.
    have opened : g'.closed = g.closed ∨ g'.phase p = .draining := by
      cases advances with
      | stays phase closed => exact .inl closed
      | begins at_ phase closed => exact .inl closed
      | stores phase closed => exact .inr phase
      | ends at_ phase closed out off => exact .inl closed
    refine ⟨waiter, inside', ?_, ?_⟩
    · intro b draining
      rcases eq_or_other p b with rfl | rfl
      · cases advances with
        | stays phase closed => exact closed.trans (inv.stored b (phase ▸ draining))
        | begins at_ phase closed =>
          rw [phase] at draining
          cases draining
        | stores phase closed => exact closed
        | ends at_ phase closed out off =>
          rw [phase] at draining
          cases draining
      · have before := inv.stored p.other (other ▸ draining)
        cases advances with
        | stays phase closed => exact closed.trans before
        | begins at_ phase closed => exact closed.trans before
        | stores phase closed => exact closed
        | ends at_ phase closed out off => exact closed.trans before
    · intro closed q retires
      rcases eq_or_other p q with rfl | rfl
      · -- The task that moves is outside `close`, so that the channel was closed before.
        have out : g'.phase q = .outside := by
          by_contra within
          obtain ⟨pc, at_, away⟩ := waiter.member_of_retires retires
          exact away (inside within pc at_)
        have closed : g.closed = true := by
          rcases opened with same | draining
          · exact same ▸ closed
          · rw [out] at draining
            cases draining
        rw [other]
        exact inv.covers closed q (inv.begins closed moves role retires)
      · rw [other_other]
        have before := retires_of_moves moves role retires
        rcases opened with same | draining
        · have covered := inv.covers (same ▸ closed) p.other before
          rw [other_other] at covered
          cases advances with
          | stays phase closed => exact phase.trans covered
          | begins at_ phase closed =>
            rw [covered] at at_
            cases at_
          | stores phase closed => exact phase
          | ends at_ phase closed out off =>
            -- The loop has ended: the other task is neither in the slot nor taken.
            rcases waiter.slot_of_retires retires with stands | taken
            · exact absurd stands off
            · rw [other_other, out] at taken
              cases taken
        · exact draining

/-- When `close` returns, nobody retires. -/
theorem Inv.returns (inv : g.Inv) (steps : g.Steps g') (inside : g.phase p ≠ .outside)
    (out : g'.phase p = .outside) : g'.Settled := by
  have inv' := inv.step steps
  cases steps with
  | preempt => exact absurd out inside
  | dispatch => exact absurd out inside
  | @moves b g' running moves role other member advances =>
    rcases eq_or_other b p with rfl | rfl
    · cases advances with
      | stays phase closed => exact absurd (phase ▸ out) inside
      | begins at_ phase closed => exact absurd at_ inside
      | stores phase closed =>
        rw [out] at phase
        cases phase
      | ends at_ phase closed left off =>
        have shut : g'.closed = true := closed.trans (inv.stored p at_)
        refine ⟨inv'.waiter, shut, ?_⟩
        intro q retires
        rcases eq_or_other p q with rfl | rfl
        · obtain ⟨pc, here, -⟩ := inv'.waiter.member_of_retires retires
          rw [left] at here
          cases here
        · have covered := inv'.covers shut p.other retires
          rw [other_other, out] at covered
          cases covered
    · exact absurd (other ▸ out) inside

/-- A closed channel in which nobody retires stays so. -/
theorem Settled.step (settled : g.Settled) (steps : g.Steps g') : g'.Settled := by
  obtain ⟨waiter, closed, stays⟩ := settled
  cases steps with
  | preempt running =>
    exact ⟨waiter.preempt running, closed, fun q retires => stays q (retires_of_preempt retires)⟩
  | dispatch idle queued =>
    exact ⟨waiter.dispatch idle queued, closed,
      fun q retires => stays q (retires_of_dispatch retires)⟩
  | @moves p g' running moves role other inside advances =>
    have shut : g'.closed = true := by
      cases advances with
      | stays phase same => exact same.trans closed
      | begins at_ phase same => exact same.trans closed
      | stores phase shut => exact shut
      | ends at_ phase same out off => exact same.trans closed
    refine ⟨role ▸ waiter.moves running rfl moves, shut, ?_⟩
    intro q retires
    rcases eq_or_other p q with rfl | rfl
    · rw [role] at retires
      rcases waiter.retires_of_moves moves retires with before | open_ | ⟨pc, -, -, waiting⟩
      · exact stays q before
      · rw [closed] at open_
        cases open_
      · exact stays q.other (.inl waiting)
    · exact stays p.other (retires_of_moves moves role retires)

/-- Neither task of the channel is suspended. -/
def Ready (g : Gate) : Prop :=
  ∀ q, g.waiter.cpu.state q ≠ .waiting ∧
    (g.waiter.cpu.running = some q ∨ g.waiter.cpu.queued q = true)

/-- Nobody is suspended where nobody retires. -/
theorem Settled.ready (settled : g.Settled) : g.Ready := by
  intro q
  refine ⟨fun waiting => settled.stays q (.inl waiting), ?_⟩
  rcases (settled.waiter.awake_of_stays (settled.stays q)).state with ⟨here, -⟩ | ⟨-, -, queued⟩
  · exact .inl here
  · exact .inr queued

section Runs

variable {σ α : Type} {step : σ → ChannelLabel α → Except Fault σ} {start : σ} {gate : σ → Gate}
  {F : σ → Prop}

/-- In every state after a call of `close` has returned, neither task is suspended. -/
def Unstranded (step : σ → ChannelLabel α → Except Fault σ) (start : σ) (gate : σ → Gate) : Prop :=
  ∀ p l s s' s'', Run.Reaches step (fun _ _ => True) start s → (gate s).phase p ≠ .outside →
    step s l = .ok s' → (gate s').phase p = .outside →
    Run.Reaches step (fun _ _ => True) s' s'' → (gate s'').Ready

/-- A channel whose steps are those of its gate strands nobody. -/
theorem unstranded_of_steps (formed : F start) (inv : (gate start).Inv)
    (keeps : ∀ s l s', F s → step s l = .ok s' → F s')
    (simulates : ∀ s l s', F s → step s l = .ok s' → (gate s).Steps (gate s')) :
    Unstranded step start gate := by
  intro p l s s' s'' reached inside ok out later
  have before : F s ∧ (gate s).Inv := by
    refine reached.invariant (P := fun s => F s ∧ (gate s).Inv) ⟨formed, inv⟩ ?_
    intro s l s' holds _ stepped
    exact ⟨keeps s l s' holds.1 stepped, holds.2.step (simulates s l s' holds.1 stepped)⟩
  have returned : F s' ∧ (gate s').Settled :=
    ⟨keeps s l s' before.1 ok, before.2.returns (simulates s l s' before.1 ok) inside out⟩
  -- From there on the channel stays settled, whatever the tasks call.
  have settled : F s'' ∧ (gate s'').Settled := by
    refine later.invariant (P := fun s => F s ∧ (gate s).Settled) returned ?_
    intro s l s' holds _ stepped
    exact ⟨keeps s l s' holds.1 stepped, holds.2.step (simulates s l s' holds.1 stepped)⟩
  exact settled.2.ready

/-- What a task has been inside of, it has returned from with nobody left to suspend. -/
theorem settled_of_return {s s' : σ} {p : Party}
    (keeps : ∀ s l s', F s → step s l = .ok s' → F s')
    (simulates : ∀ s l s', F s → step s l = .ok s' → (gate s).Steps (gate s')) (formed : F s)
    (inv : (gate s).Inv) (inside : (gate s).phase p ≠ .outside)
    (reached : Run.Reaches step (fun _ _ => True) s s') (out : (gate s').phase p = .outside) :
    (gate s').Settled := by
  obtain ⟨-, -, settled⟩ : F s' ∧ (gate s').Inv ∧
      ((gate s').phase p = .outside → (gate s').Settled) := by
    refine reached.invariant (P := fun s => F s ∧ (gate s).Inv ∧
      ((gate s).phase p = .outside → (gate s).Settled)) ?_ ?_
    · exact ⟨formed, inv, fun out => absurd out inside⟩
    rintro s l s' ⟨formed, inv, settled⟩ - ok
    have steps := simulates s l s' formed ok
    refine ⟨keeps s l s' formed ok, inv.step steps, fun out => ?_⟩
    by_cases before : (gate s).phase p = .outside
    · exact (settled before).step steps
    · exact inv.returns steps before out
  exact settled out

/-- Nobody is suspended later on. -/
theorem settled_of_run {s s' : σ} (keeps : ∀ s l s', F s → step s l = .ok s' → F s')
    (simulates : ∀ s l s', F s → step s l = .ok s' → (gate s).Steps (gate s')) (formed : F s)
    (settled : (gate s).Settled) (reached : Run.Reaches step (fun _ _ => True) s s') :
    (gate s').Settled := by
  refine (reached.invariant (P := fun s => F s ∧ (gate s).Settled) ⟨formed, settled⟩ ?_).2
  rintro s l s' ⟨formed, settled⟩ - ok
  exact ⟨keeps s l s' formed ok, settled.step (simulates s l s' formed ok)⟩

end Runs

end Gate

end Gthread

import Gthread.G

/-! Unique ownership by `g` objects, for programs that copy none that owns a task. -/

namespace Gthread

open Function (update update_of_ne update_self)

namespace Sys

variable {s s' : Sys} {l : Label} {h : HandleId}

/-- No two handles were given the same spawn and still refer to a task. -/
def Owners (s : Sys) : Prop :=
  ∀ h g, s.handles h ≠ none → s.handles g ≠ none → s.owner h = s.owner g → h = g

/-- What a step does to the handles: it clears some, or it is the end of a spawn. -/
inductive Handed (s s' : Sys) : Prop
  | kept (fewer : ∀ h, s'.handles h ≠ none → s'.handles h = s.handles h ∧ s'.owner h = s.owner h)
  | gave (t : Addr) (h : HandleId) (at_ : s.pc = .spawned t h)
      (handles : s'.handles = update s.handles h (some t))
      (owner : s'.owner = update s.owner h (s.tasks t).spawn)

/-- A step that leaves the handles alone. -/
theorem Handed.same (handles : s'.handles = s.handles) (owner : s'.owner = s.owner) :
    Handed s s' :=
  .kept fun h _ => ⟨congrFun handles h, congrFun owner h⟩

/-- A step that clears a handle. -/
theorem Handed.cleared (handles : s'.handles = update s.handles h none)
    (owner : s'.owner = s.owner) : Handed s s' := by
  refine .kept fun g points => ?_
  have other : g ≠ h := by
    rintro rfl
    exact points (by rw [handles, update_self])
  exact ⟨by rw [handles, update_of_ne other], congrFun owner g⟩

/-- Giving up the processor leaves the handles alone. -/
theorem handed_yieldLocked {clock : Clock} {p : Pc} (ok : s.yieldLocked clock p = .ok s') :
    Handed s s' := by
  unfold yieldLocked at ok
  simp only [Bind.bind, Except.bind] at ok
  split at ok
  · cases ok
  split at ok
  · cases ok
  simp only [pure, Except.pure, Except.ok.injEq] at ok
  exact ok ▸ .same rfl rfl

/-- What the statement at hand does to the handles. -/
theorem handed_run {clock : Clock} {fresh : Addr} (ok : s.run clock fresh = .ok s') :
    Handed s s' := by
  cases at_ : s.pc with
  | unlock p =>
    simp only [run, at_, Bind.bind, Except.bind] at ok
    split at ok
    · cases ok
    simp only [pure, Except.pure, Except.ok.injEq] at ok
    exact ok ▸ .same rfl rfl
  | spawned t h =>
    simp only [run, at_, Except.ok.injEq] at ok
    exact ok ▸ .gave t h at_ rfl rfl
  | clearHandle h =>
    simp only [run, at_, Except.ok.injEq] at ok
    exact ok ▸ .cleared rfl rfl
  | joinYield h wanted =>
    simp only [run, at_] at ok
    exact handed_yieldLocked ok
  | makeLocked a entry arg h =>
    simp only [run, at_, Except.ok.injEq, makeLocked] at ok
    split at ok
    · exact ok ▸ .same rfl rfl
    · exact ok ▸ .same rfl rfl
  | returnLocked t h =>
    simp only [run, at_, Except.ok.injEq, returnLocked] at ok
    split at ok
    · exact ok ▸ .same rfl rfl
    · exact ok ▸ .same rfl rfl
  | take h wanted =>
    simp only [run, at_, takeResult] at ok
    split at ok
    · cases ok
    split at ok
    · cases ok
    simp only [Except.ok.injEq] at ok
    exact ok ▸ .same rfl rfl
  | returning h =>
    simp only [run, at_, callReturn] at ok
    split at ok
    · cases ok
    split at ok
    · cases ok
    simp only [Except.ok.injEq] at ok
    exact ok ▸ .same rfl rfl
  | makeCreate a entry arg h =>
    simp only [run, at_, create] at ok
    split at ok
    · cases ok
    simp only [Except.ok.injEq] at ok
    exact ok ▸ .same rfl rfl
  | made t entry arg h =>
    simp only [run, at_, startTask] at ok
    split at ok
    · cases ok
    split at ok
    · cases ok
    simp only [Except.ok.injEq] at ok
    exact ok ▸ .same rfl rfl
  | started t h =>
    simp only [run, at_, scheduleNew] at ok
    split at ok
    · cases ok
    simp only [Except.ok.injEq] at ok
    exact ok ▸ .same rfl rfl
  | zero => simp [run, at_] at ok
  | user => simp [run, at_] at ok
  | exited => simp [run, at_] at ok
  | _ =>
    simp only [run, at_, Except.ok.injEq] at ok
    exact ok ▸ .same rfl rfl

/-- What a call does to the handles, if no handle that refers to a task is copied. -/
theorem handed_call {c : Call} {clock : Clock} (linear : s.Linear (.call c clock))
    (ok : s.call c clock = .ok s') : Handed s s' := by
  cases c with
  | spawn a entry arg h =>
    simp only [call, spawn] at ok
    split at ok
    · simp only [Except.ok.injEq] at ok
      exact ok ▸ .same rfl rfl
    · split at ok
      · cases ok
      · simp only [Except.ok.injEq] at ok
        exact ok ▸ .same rfl rfl
  | yield => exact handed_yieldLocked ok
  | sleepFor start duration => exact linear.elim
  | join h wanted =>
    simp only [call, join] at ok
    split at ok
    · simp only [Except.ok.injEq] at ok
      exact ok ▸ .same rfl rfl
    · split at ok
      · cases ok
      split at ok
      · simp only [Except.ok.injEq] at ok
        exact ok ▸ .same rfl rfl
      split at ok
      · simp only [Except.ok.injEq] at ok
        exact ok ▸ .same rfl rfl
      · simp only [Except.ok.injEq] at ok
        exact ok ▸ .same rfl rfl
  | detach h =>
    simp only [call, detach] at ok
    split at ok
    · simp only [Except.ok.injEq] at ok
      exact ok ▸ .same rfl rfl
    · split at ok
      · cases ok
      split at ok
      · simp only [Except.ok.injEq] at ok
        exact ok ▸ .cleared rfl rfl
      · simp only [Except.ok.injEq] at ok
        exact ok ▸ .same rfl rfl
  | exit value =>
    simp only [call, exit, Bind.bind, Except.bind] at ok
    split at ok
    · cases ok
    split at ok
    · cases ok
    split at ok
    · cases ok
    simp only [pure, Except.pure, Except.ok.injEq] at ok
    exact ok ▸ .same rfl rfl
  | assign dst src =>
    simp only [call, Except.ok.injEq] at ok
    rcases linear with rfl | ⟨-, empty⟩
    · refine ok ▸ .same ?_ ?_
      · exact Function.update_eq_self dst _
      · exact Function.update_eq_self dst _
    · refine ok ▸ .kept fun g points => ?_
      have other : g ≠ dst := by
        rintro rfl
        exact points ((update_self ..).trans empty)
      exact ⟨update_of_ne other .., update_of_ne other ..⟩

/-- What a step does to the handles. -/
theorem handed_step (linear : s.Linear l) (ok : s.step l = .ok s') : Handed s s' := by
  cases l with
  | trap clock =>
    simp only [step, trap] at ok
    split at ok
    · simp only [Except.ok.injEq] at ok
      exact ok ▸ .same rfl rfl
    · exact handed_yieldLocked ok
  | call c clock =>
    simp only [step] at ok
    split at ok
    · exact handed_call linear ok
    · cases ok
  | run clock fresh => exact handed_run ok

/-- A handle refers to a task of its own, or its task was returned by the call on it. -/
theorem refers_or_returned {strict : Prop} {phase : Addr → Phase} {t : Addr}
    (inv : (s.life phase).Inv strict) (points : s.handles h = some t) :
    (s.life phase).Refers h t ∨ (s.life phase).Returned (s.owner h) := by
  cases work : s.busy h with
  | none => exact .inl (inv.free h t work points)
  | some o =>
    obtain ⟨going, handle⟩ := inv.busy h o work
    have own := inv.calls o going
    generalize (s.life phase).at_ o = p at handle own
    have same : ∀ t', (s.life phase).Refers h t' → (s.life phase).Refers h t := by
      intro t' refers
      obtain rfl : t = t' := by simpa [points] using refers.1
      exact refers
    -- The call fills the handle, is about to return its task, or has returned it.
    cases p
    case joinYield g wanted =>
      obtain rfl : g = h := by simpa [Pc.handle] using handle
      exact .inl (same _ own.2.choose_spec)
    case take g wanted =>
      obtain rfl : g = h := by simpa [Pc.handle] using handle
      exact .inl (same _ own.2.choose_spec)
    case returning g =>
      obtain rfl : g = h := by simpa [Pc.handle] using handle
      exact .inl (same _ own.2.choose_spec.1)
    case returnLocked u g =>
      obtain rfl : g = h := by simpa [Pc.handle] using handle
      exact .inr own.2.2
    case returnDestroy u g =>
      obtain rfl : g = h := by simpa [Pc.handle] using handle
      exact .inr own.2.2
    case clearHandle g =>
      obtain rfl : g = h := by simpa [Pc.handle] using handle
      exact .inr own.2
    all_goals
      rcases fills_or_consumes own handle with ⟨-, old⟩ | consumes
      · exact .inl (old t points)
      · cases consumes

/-- Every step keeps one handle for each spawn. -/
theorem owners_step {strict : Prop} (order : s.InOrder strict) (owners : s.Owners)
    (handed : Handed s s') : s'.Owners := by
  cases handed with
  | kept fewer =>
    intro h g points points' same
    obtain ⟨handles, owner⟩ := fewer h points
    obtain ⟨handles', owner'⟩ := fewer g points'
    rw [handles] at points
    rw [handles'] at points'
    exact owners h g points points' (owner.symm.trans (same.trans owner'))
  | gave t h at_ handles owner =>
    obtain ⟨phase, inv⟩ := order
    have here : (s.life phase).at_ s.cur = .spawned t h := by rw [life_at_cur, at_]; rfl
    obtain ⟨-, held⟩ : (s.life phase).Ok s.cur (.spawned t h) := here ▸ inv.ok_cur
    have held : phase t = .active (some (.spawner s.cur)) := held
    have pending : (phase t).kind ≠ .gone := by simp [held, Phase.kind]
    -- No handle was given this spawn before.
    have fresh : ∀ g, s.handles g ≠ none → s.owner g ≠ (s.tasks t).spawn := by
      intro g points same
      obtain ⟨u, points⟩ := Option.ne_none_iff_exists'.mp points
      rcases refers_or_returned inv points with ⟨-, own, number⟩ | ⟨back, -⟩
      · have own : phase u = .active (some (.handle g)) := own
        have same : u = t := inv.records.distinct u t (by simp [own, Phase.kind]) pending
          (number.trans same)
        rw [same, held] at own
        cases own
      · rw [same] at back
        exact (inv.records.pending t pending).2 back
    intro x y points points' same
    rw [handles] at points points'
    rw [owner] at same
    by_cases left : x = h
    · by_cases right : y = h
      · rw [left, right]
      · rw [left, update_self, update_of_ne right] at same
        rw [update_of_ne right] at points'
        exact absurd same.symm (fresh y points')
    · rw [update_of_ne left] at points same
      by_cases right : y = h
      · rw [right, update_self] at same
        exact absurd same (fresh x points)
      · rw [update_of_ne right] at points' same
        exact owners x y points points' same

/-- A system in order in which each spawn has one handle. -/
structure Owned (s : Sys) : Prop where
  order : s.InOrder False
  owners : s.Owners

/-- Such systems stay so as long as handles are used for one join or detach. -/
theorem Owned.step (owned : s.Owned) (linear : s.Linear l) (ok : s.step l = .ok s') : s'.Owned where
  order := inOrder_step owned.order linear False.elim ok
  owners := owners_step owned.order owned.owners (handed_step linear ok)

/-- The same for a call of the program. -/
theorem Owned.call {c : Call} (clock : Clock) (owned : s.Owned) (at_ : s.pc = .user)
    (linear : s.Linear (.call c clock)) (ok : s.call c clock = .ok s') : s'.Owned := by
  refine owned.step linear ?_
  simp only [Sys.step, if_pos at_]
  exact ok

/-- Clearing a handle on which no call is at work. -/
theorem Owned.clear (owned : s.Owned) (at_ : s.pc = .user) (free : s.busy h = none) :
    Owned { s with handles := update s.handles h none } := by
  refine ⟨?_, owners_step owned.order owned.owners (.cleared rfl rfl)⟩
  obtain ⟨phase, inv⟩ := owned.order
  have here : (s.life phase).at_ s.cur = .user := by rw [life_at_cur, at_]; rfl
  have cleared := inv.overwrite here free (s.owner h)
  have same : update s.owner h (s.owner h) = s.owner := Function.update_eq_self h _
  refine ⟨phase, ?_⟩
  convert cleared using 1
  apply Life.ext
  case owner => exact same.symm
  all_goals rfl

end Sys

namespace Program

variable {p p' : Program} {l : Label} {host : Addr} {tick : Int} {maxSize : Nat}

/--
No object that owns a task is copied, and the operations on one object do not overlap.

A second join of a task that is being joined throws, and does no harm.
-/
def Careful (p : Program) : Label → Prop
  | .op (.copy _ y) _ => p.sys.handles y = none
  | .op (.assign x y) _ => x = y ∨ (p.sys.busy x = none ∧ p.sys.handles y = none)
  | .op (.join x) _ =>
    p.sys.busy x = none ∨ (p.sys.handles x).any (fun t => (p.sys.tasks t).joiner.isSome) = true
  | .op (.detach x) _ | .op (.destroy x) _ => p.sys.busy x = none
  | _ => True

instance (p : Program) : (l : Label) → Decidable (p.Careful l)
  | .op (.copy _ y) _ => inferInstanceAs (Decidable (p.sys.handles y = none))
  | .op (.assign _ _) _ | .op (.join _) _ => inferInstanceAs (Decidable (_ ∨ _))
  | .op (.detach x) _ | .op (.destroy x) _ => inferInstanceAs (Decidable (p.sys.busy x = none))
  | .op (.create _) _ | .op (.construct _ _ _) _ | .op .yield _ | .op (.exit _) _ | .trap _
  | .run _ _ => .isTrue trivial

/-- The spawn an object owns. -/
def owns (p : Program) (x : HandleId) : Option Nat :=
  if p.live x ∧ p.sys.handles x ≠ none then some (p.sys.owner x) else none

/-- A spawn that was not joined or detached has one owner, and every block is returned once. -/
structure Unique (p : Program) : Prop where
  owner : ∀ m, m ∉ p.sys.settled → ∀ x y, p.owns x = some m → p.owns y = some m → x = y
  once : (p.sys.returned.map Return.spawn).Nodup

/-- A lifted result comes from a state of the system. -/
theorem lift_ok {result : Except Fault Sys} (ok : p.lift result = .ok p') :
    result = .ok p'.sys ∧ p'.live = p.live := by
  cases result with
  | error fault => cases ok
  | ok s =>
    simp only [lift, Bind.bind, Except.bind, pure, Except.pure, Except.ok.injEq] at ok
    exact ok ▸ ⟨rfl, rfl⟩

/-- The storage of a new object is cleared. -/
theorem begin_ok {x : HandleId} (ok : p.begin_ x = .ok p') :
    p.sys.busy x = none ∧ p'.sys = { p.sys with handles := update p.sys.handles x none } := by
  unfold begin_ at ok
  split at ok
  · cases ok
  · rename_i vacant
    simp only [Except.ok.injEq] at ok
    refine ⟨?_, by rw [← ok]⟩
    by_contra occupied
    exact vacant (.inr occupied)

/-- Joining through an object. -/
theorem join_owned {x : HandleId} {clock : Clock} (owned : p.sys.Owned) (at_ : p.sys.pc = .user)
    (careful : p.Careful (.op (.join x) clock)) (ok : p.join x = .ok p') : p'.sys.Owned := by
  unfold join at ok
  split at ok
  · simp only [Except.ok.injEq] at ok
    exact ok ▸ owned
  · exact owned.call (c := .join x false) clock at_ careful (lift_ok ok).1

/-- Detaching through an object. -/
theorem detach_owned {x : HandleId} (owned : p.sys.Owned) (at_ : p.sys.pc = .user)
    (free : p.sys.busy x = none) (ok : p.detach x = .ok p') : p'.sys.Owned := by
  unfold detach at ok
  split at ok
  · simp only [Except.ok.injEq] at ok
    exact ok ▸ owned
  · exact owned.call (c := .detach x) Sys.stillClock at_ free (lift_ok ok).1

/-- An operation keeps one owner for each spawn. -/
theorem op_owned {o : Op} {clock : Clock} (owned : p.sys.Owned) (at_ : p.sys.pc = .user)
    (careful : p.Careful (.op o clock)) (ok : p.op o clock = .ok p') : p'.sys.Owned := by
  cases o with
  | create x =>
    obtain ⟨free, same⟩ := begin_ok ok
    exact same ▸ owned.clear at_ free
  | construct entry arg x =>
    cases began : p.begin_ x with
    | error fault => simp [op, began, Bind.bind, Except.bind] at ok
    | ok q =>
      simp only [op, began, Bind.bind, Except.bind] at ok
      obtain ⟨free, same⟩ := begin_ok began
      have owned : q.sys.Owned := same ▸ owned.clear at_ free
      have at_ : q.sys.pc = .user := same ▸ at_
      have free : q.sys.busy x = none := same ▸ free
      exact owned.call (c := .spawn kLightAttr (some entry) arg x) clock at_ free (lift_ok ok).1
  | copy x y =>
    simp only [op] at ok
    split at ok
    · cases began : p.begin_ x with
      | error fault => simp [began, Bind.bind, Except.bind] at ok
      | ok q =>
        simp only [began, Bind.bind, Except.bind] at ok
        obtain ⟨free, same⟩ := begin_ok began
        have cleared : q.sys.Owned := same ▸ owned.clear at_ free
        have at_ : q.sys.pc = .user := same ▸ at_
        have free : q.sys.busy x = none := same ▸ free
        have empty : q.sys.handles y = none := by
          rw [same]
          by_cases here : y = x
          · rw [here]
            exact update_self ..
          · exact (update_of_ne here ..).trans careful
        exact cleared.call (c := .assign x y) clock at_ (.inr ⟨free, empty⟩) (lift_ok ok).1
    · cases ok
  | assign x y =>
    simp only [op] at ok
    split at ok
    · exact owned.call (c := .assign x y) clock at_ careful (lift_ok ok).1
    · cases ok
  | join x =>
    simp only [op] at ok
    split at ok
    · exact join_owned owned at_ careful ok
    · cases ok
  | detach x =>
    simp only [op] at ok
    split at ok
    · exact detach_owned owned at_ careful ok
    · cases ok
  | destroy x =>
    simp only [op] at ok
    split at ok
    · exact detach_owned (p := { p with live := update p.live x false }) owned at_ careful ok
    · cases ok
  | yield => exact owned.call (c := .yield) clock at_ trivial (lift_ok ok).1
  | exit value => exact owned.call (c := .exit value) clock at_ trivial (lift_ok ok).1

/-- A step of a program keeps one owner for each spawn. -/
theorem step_owned (owned : p.sys.Owned) (careful : p.Careful l) (ok : p.step l = .ok p') :
    p'.sys.Owned := by
  cases l with
  | trap clock => exact owned.step (l := .trap clock) trivial (lift_ok ok).1
  | run clock fresh => exact owned.step (l := .run clock fresh) trivial (lift_ok ok).1
  | op o clock =>
    simp only [step] at ok
    split at ok
    · rename_i at_
      exact op_owned owned at_ careful ok
    · cases ok

/-- In every run that copies no owner, spawns have one owner and blocks are returned once. -/
theorem unique_of_careful (reached : Run.Reaches step Careful (start host tick maxSize) p) :
    p.Unique := by
  have initially : (start host tick maxSize).sys.Owned :=
    ⟨Sys.inOrder_start False host tick maxSize, fun _ _ points => absurd rfl points⟩
  have owned : p.sys.Owned := reached.invariant (P := fun p => p.sys.Owned) initially
    fun _ _ _ owned careful ok => step_owned owned careful ok
  refine ⟨?_, ?_⟩
  · intro m _ x y left right
    have real : ∀ {z}, p.owns z = some m → p.sys.handles z ≠ none ∧ p.sys.owner z = m := by
      intro z owns
      unfold Program.owns at owns
      split at owns
      · rename_i points
        exact ⟨points.2, by simpa using owns⟩
      · cases owns
    exact owned.owners x y (real left).1 (real right).1 ((real left).2.trans (real right).2.symm)
  · obtain ⟨phase, inv⟩ := owned.order
    exact inv.records.once

/-- The labels of `g x(function)`, whose block gets the address `t`. -/
def constructLabels (t : Addr) (x : HandleId) : List Label :=
  .op (.construct 7 0 x) Sys.stillClock :: List.replicate 7 (.run Sys.stillClock t)

/-- An object is constructed and joined, and the block is returned once. -/
theorem unique_of_careful_join : ∃ p, Run.Reaches step Careful (start 0 0 4) p ∧
    p.sys.returned.map Return.spawn = [1] ∧ p.Unique := by
  let labels := constructLabels 1 0 ++ [.op (.join 0) Sys.stillClock, .run Sys.stillClock 0,
    .run Sys.stillClock 0, .op (.exit 0) Sys.stillClock] ++ List.replicate 5 (.run Sys.stillClock 0)
  suffices run : ∃ p, Run.Reaches step Careful (start 0 0 4) p ∧
      p.sys.returned.map Return.spawn = [1] by
    obtain ⟨p, reached, returned⟩ := run
    exact ⟨p, reached, returned, unique_of_careful reached⟩
  exact Run.Reaches.of_check labels (by decide +kernel)

/-- The labels of `y = g(function)`: the temporary `x` is copied, and then detaches the task. -/
def assignLabels (x y : HandleId) : List Label :=
  [.op (.create y) Sys.stillClock] ++ constructLabels 1 x ++
    [.op (.assign y x) Sys.stillClock, .op (.destroy x) Sys.stillClock]

/--
After `y = g(function)` two objects own the task until the temporary is destroyed.

The task is detached then, and joining it through `y` returns its block a second time.
-/
theorem assigned_temporary_not_unique :
    (∃ p, Run.Reaches step (fun _ _ => True) (start 0 0 4) p ∧ p.owns 0 = some 1 ∧
      p.owns 1 = some 1 ∧ 1 ∉ p.sys.settled ∧ ¬ p.Unique) ∧
    ∃ p, Run.Reaches step (fun _ _ => True) (start 0 0 4) p ∧
      p.sys.returned.map Return.spawn = [1, 1] ∧ ¬ p.Unique := by
  let before := (assignLabels 0 1).dropLast
  let after := assignLabels 0 1 ++ [.op (.join 1) Sys.stillClock, .run Sys.stillClock 0,
    .run Sys.stillClock 0, .op (.exit 0) Sys.stillClock] ++
    List.replicate 5 (.run Sys.stillClock 0) ++ [.op .yield Sys.stillClock]
  constructor
  · suffices run : ∃ p, Run.Reaches step (fun _ _ => True) (start 0 0 4) p ∧ p.owns 0 = some 1 ∧
        p.owns 1 = some 1 ∧ p.sys.settled = [] by
      obtain ⟨p, reached, left, right, settled⟩ := run
      have unsettled : 1 ∉ p.sys.settled := by simp [settled]
      refine ⟨p, reached, left, right, unsettled, fun unique => ?_⟩
      exact absurd (unique.owner 1 unsettled 0 1 left right) (by decide)
    exact Run.Reaches.of_check before (by decide +kernel)
  · suffices run : ∃ p, Run.Reaches step (fun _ _ => True) (start 0 0 4) p ∧
        p.sys.returned.map Return.spawn = [1, 1] by
      obtain ⟨p, reached, returned⟩ := run
      refine ⟨p, reached, returned, fun unique => ?_⟩
      have once := unique.once
      rw [returned] at once
      exact absurd once (by decide)
    exact Run.Reaches.of_check after (by decide +kernel)

end Program

end Gthread

import Gthread.Concur.ClientThread
import Gthread.Concur.MutexExclusion

/-! The mutex on the kernel thread: its code runs there as on the abstract processor, and serves. -/

namespace Gthread

open Waiter (waits)
open Function (update update_eq_self update_eq_self_iff update_of_ne update_self)

/-- What a program calls. -/
inductive MutexCall where
  | lock
  | unlock
  deriving DecidableEq, Repr

/-- The statement that a call begins with. -/
def MutexCall.site : MutexCall → LockSite
  | .lock => .entry
  | .unlock => .unlock

/-- The same statement, where the waiter's code is at the one it says. -/
def MutexPc.inner {ι : Type} : MutexPc ι → Option (Nat × WaiterPc ι) → MutexPc ι
  | .park n _, some (_, pc) => .park n pc
  | .unpark n _, some (_, pc) => .unpark n pc
  | pc, _ => pc

/-- A call of a waiter is at its beginning. -/
def MutexPc.Begins {ι : Type} : MutexPc ι → Prop
  | .park _ pc => pc = .claim
  | .unpark _ pc => pc = .load
  | _ => True

namespace Mutex

variable {ι : Type} [DecidableEq ι]

/-- What a task does next: the statements of the mutex, which call the waiters and `yield`. -/
def act (p : ι) (m : Mutex ι) : Act Nat (Mutex ι) :=
  match m.pc p with
  | .idle => .rests
  | .spin site => .yields (m.goto p (.acquire site))
  | .again n => .yields (m.goto p (.unpark n .load))
  | .yield => .yields (m.goto p .idle)
  | .park n _ => .calls n .parkIf
  | .unpark n _ => .calls n .unpark
  -- The others use neither.
  | _ =>
    match m.runTask p with
    | .ok m => .moves m
    | .error fault => .fails fault

/-- The code of a mutex; `lot` and the statements inside the waiters are not its own. -/
def client : Client Nat ι MutexCall (Mutex ι) where
  act := act
  -- `park` is `park_if` with a check that holds.
  check _ m := (true, m)
  back p result m :=
    match m.pc p with
    | .park _ _ => m.goto p (.assertParked result)
    | .unpark n _ => m.goto p (if result then .pop else .again n)
    | _ => m
  call p c m := if m.pc p = .idle then some (m.goto p (.acquire c.site)) else none

/-- The mutex with its waiters and its processor. -/
def whole (s : Client.State Nat ι (Mutex ι)) : Mutex ι :=
  { s.memory with
    lot := s.lot
    pc := fun p => (s.memory.pc p).inner (s.role p) }

/-- Tasks are inside the waiters exactly during the calls of the mutex. -/
structure Placed (s : Client.State Nat ι (Mutex ι)) : Prop where
  inside : ∀ p n pc, s.role p = some (n, pc) →
    s.memory.pc p = .park n .claim ∨ s.memory.pc p = .unpark n .load
  begins : ∀ p, (s.memory.pc p).Begins

variable {s s' : Client.State Nat ι (Mutex ι)} {p q : ι} {m m' : Mutex ι} {n : Nat}

omit [DecidableEq ι] in
/-- A task outside the waiters is at its own statement. -/
theorem whole_pc (out : s.role p = none) : (whole s).pc p = s.memory.pc p := by
  show (s.memory.pc p).inner (s.role p) = _
  rw [out]
  cases s.memory.pc p <;> rfl

omit [DecidableEq ι] in
/-- A task inside a waiter is at the statement of that waiter. -/
theorem Placed.role (placed : Placed s) {pc : WaiterPc ι} (there : s.role p = some (n, pc)) :
    (s.memory.pc p = .park n .claim ∧ (whole s).pc p = .park n pc) ∨
      (s.memory.pc p = .unpark n .load ∧ (whole s).pc p = .unpark n pc) := by
  have here : (whole s).pc p = (s.memory.pc p).inner (s.role p) := rfl
  rcases placed.inside p n pc there with parks | unparks
  · exact .inl ⟨parks, by rw [here, parks, there]; rfl⟩
  · exact .inr ⟨unparks, by rw [here, unparks, there]; rfl⟩

omit [DecidableEq ι] in
/-- No task takes one that has just claimed its slot. -/
theorem Placed.orderly (placed : Placed s) (inv : (whole s).Inv) : s.Orderly := by
  intro p n pc q running there aims stands
  have whole_role : ∀ {b place}, s.role b = some place → (whole s).role b = some place := by
    rintro b ⟨m, pc⟩ there
    rcases placed.role there with ⟨-, here⟩ | ⟨-, here⟩
    · rw [Mutex.role, here]
      rfl
    · rw [Mutex.role, here]
      rfl
  have settled := inv.settled (whole_role there) aims
  cases at_ : s.role q with
  | none => rfl
  | some place => rwa [whole_role at_] at settled

/-- Only the statement of one task changes. -/
theorem inner_update (pcs : ι → MutexPc ι) (role : ι → Option (Nat × WaiterPc ι))
    (place : Option (Nat × WaiterPc ι)) (pc : MutexPc ι) :
    (fun q => (update pcs p pc q).inner (update role p place q)) =
      update (fun q => (pcs q).inner (role q)) p (pc.inner place) := by
  funext q
  by_cases here : q = p
  · simp [here]
  · simp [here]

/-- Where a task goes on inside a waiter, or comes out of one, it does so in the whole. -/
theorem whole_inside (lot : Lot Nat ι) (m : Mutex ι) (place : Option (Nat × WaiterPc ι))
    (pc : MutexPc ι) : whole ⟨lot, update s.role p place, m.goto p pc⟩ =
      (whole ⟨lot, s.role, m⟩).goto p (pc.inner place) := by
  simp only [whole, goto, inner_update]

/-- Where a task outside the waiters goes on, it does so in the whole. -/
theorem whole_goto (out : s.role p = none) (lot : Lot Nat ι) (m : Mutex ι) (pc : MutexPc ι) :
    whole ⟨lot, s.role, m.goto p pc⟩ = (whole ⟨lot, s.role, m⟩).goto p pc := by
  have same : pc.inner none = pc := by cases pc <;> rfl
  have stays : update s.role p none = s.role := update_eq_self_iff.mpr out.symm
  rw [← stays, whole_inside, same, stays]

/-- Only a statement that uses no waiter and does not yield is an access to the memory. -/
theorem act_moves (acts : act p m = .moves m') : m.runTask p = .ok m' := by
  unfold act at acts
  split at acts
  all_goals try cases acts
  split at acts
  · rename_i ok
    cases acts
    exact ok
  · cases acts

/-- An access to the memory is the same one in the whole. -/
theorem whole_moves (inv : (whole s).Inv) (out : s.role p = none)
    (acts : act p s.memory = .moves m') :
    (whole s).runTask p = .ok (whole { s with memory := m' }) := by
  have here := whole_pc out
  cases runs_of_ok (act_moves acts) with
  | spin at_ | again at_ | yield at_ => simp [act, at_] at acts
  | parks at_ | parked at_ | unparks at_ | unparked at_ | unready at_ => simp [act, at_] at acts
  | @busy site at_ locked =>
    rw [at_] at here
    have locked_ : (whole s).locked = true := locked
    simp only [runTask, here, locked_, if_true, whole_goto out]
  | @acquired site at_ free =>
    rw [at_] at here
    have locked_ : (whole s).locked = false := free
    cases site
    all_goals
      simp only [runTask, here, locked_, Mutex.acquired, whole_goto out, Bool.false_eq_true,
        if_false]
      rfl
  | free at_ unowned | contended at_ unowned =>
    rw [at_] at here
    have unowned_ : (whole s).owner = none ↔ s.memory.owner = none := Iff.rfl
    simp only [runTask, here, unowned_, unowned, if_true, if_false, whole_goto out]
  | boostOwner at_ owned =>
    rw [at_] at here
    simp only [runTask, here]
    split
    · rename_i unowned
      exact absurd (owned.symm.trans unowned) (by simp)
    · rename_i o owned_
      cases owned.symm.trans owned_
      rw [whole_goto out]
      rfl
  | emplace at_ =>
    rw [at_] at here
    -- The waiter of the new node is empty already.
    have empty : update (whole s).lot.slot (whole s).nodes none = (whole s).lot.slot :=
      update_eq_self_iff.mpr inv.slot_fresh.symm
    simp only [runTask, here, empty, whole_goto out]
    rfl
  | owned at_ own | refused at_ own =>
    rw [at_] at here
    have own_ : (whole s).owner = some p ↔ s.memory.owner = some p := Iff.rfl
    simp only [runTask, here, own_, own, if_true, if_false, whole_goto out]
  | empty at_ none_ =>
    rw [at_] at here
    have none_ : (whole s).queue = [] := none_
    simp only [runTask, here, none_, whole_goto out]
  | nonempty at_ head =>
    obtain ⟨rest, queue⟩ := List.head?_eq_some_iff.mp head
    rw [at_] at here
    have queue_ : (whole s).queue = _ := queue
    simp only [runTask, here, queue_, whole_goto out]
  | assertParked at_ =>
    rw [at_] at here
    simp only [runTask, here, if_true, whole_goto out]
  | unboost at_ | setOwner at_ | setBoost at_ | leave at_ | unwind at_
  | clearFast at_ | releaseFast at_ | pop at_ | clear at_ | zeroBoost at_ | releaseSlow at_
  | boost at_ | release at_ =>
    rw [at_] at here
    simp only [runTask, here, whole_goto out]
    rfl

/-- A statement inside a waiter is the same one in the whole. -/
theorem whole_waits (inv : (whole s).Inv) (placed : Placed s) {pc : WaiterPc ι}
    {outcome : Outcome ι} {lot : Lot Nat ι} (there : s.role p = some (n, pc))
    (ok : s.lot.step p false n pc = .ok (outcome, lot)) :
    (whole s).runTask p = .ok (whole ⟨lot, update s.role p (outcome.pc.map (n, ·)),
      client.returned p outcome s.memory⟩) := by
  -- The node is still in the list.
  have node : ((whole s).pc p = .park n pc ∨ (whole s).pc p = .unpark n pc) →
      (whole s).stepNode p n pc = .ok (outcome, lot) := by
    intro at_
    obtain ⟨result, done⟩ := inv.stepNode at_
    have same : s.lot.step p false n pc = .ok result := stepNode_ok done
    rw [ok, Except.ok.injEq] at same
    rw [same]
    exact done
  have stays : s.memory.goto p (s.memory.pc p) = s.memory := by
    rw [goto, update_eq_self]
  rcases placed.role there with ⟨at_, here⟩ | ⟨at_, here⟩
  · have done := node (.inl here)
    cases outcome with
    | goto pc' =>
      rw [Client.returned, ← stays, whole_inside, at_]
      simp only [runTask, here, done]
      rfl
    | return_ succ =>
      have back : client.returned p (.return_ succ) s.memory =
          s.memory.goto p (.assertParked succ) := by
        simp only [Client.returned, client, at_]
      rw [back, whole_inside]
      simp only [runTask, here, done]
      rfl
  · have done := node (.inr here)
    cases outcome with
    | goto pc' =>
      rw [Client.returned, ← stays, whole_inside, at_]
      simp only [runTask, here, done]
      rfl
    | return_ succ =>
      have back : client.returned p (.return_ succ) s.memory =
          s.memory.goto p (if succ then .pop else .again n) := by
        simp only [Client.returned, client, at_]
      rw [back, whole_inside]
      simp only [runTask, here, done]
      cases succ <;> rfl

/-- Only three statements yield. -/
theorem act_yields (acts : act p m = .yields m') :
    (∃ site, m.pc p = .spin site ∧ m' = m.goto p (.acquire site)) ∨
      (∃ n, m.pc p = .again n ∧ m' = m.goto p (.unpark n .load)) ∨
      m.pc p = .yield ∧ m' = m.goto p .idle := by
  unfold act at acts
  split at acts
  all_goals try cases acts
  · exact .inl ⟨_, by assumption, rfl⟩
  · exact .inr (.inl ⟨_, by assumption, rfl⟩)
  · exact .inr (.inr ⟨by assumption, rfl⟩)
  · split at acts
    · cases acts
    · cases acts

/-- Two statements call a waiter. -/
theorem act_calls {c : WaiterCall} (acts : act p m = .calls n c) :
    (∃ pc, m.pc p = .park n pc ∧ c = .parkIf) ∨ ∃ pc, m.pc p = .unpark n pc ∧ c = .unpark := by
  unfold act at acts
  split at acts
  all_goals try cases acts
  · exact .inl ⟨_, by assumption, rfl⟩
  · exact .inr ⟨_, by assumption, rfl⟩
  · split at acts
    · cases acts
    · cases acts

/-- None tests whether somebody is in a waiter. -/
theorem act_tests (next : Bool → Mutex ι) : act p m ≠ .tests n next := by
  intro acts
  unfold act at acts
  split at acts
  all_goals try cases acts
  split at acts
  · cases acts
  · cases acts

/-- A call of `yield` is the same one in the whole. -/
theorem whole_yields (out : s.role p = none) (acts : act p s.memory = .yields m') :
    (whole s).runTask p = .ok (whole { s with lot := s.lot.yield p, memory := m' }) := by
  have here := whole_pc out
  rcases act_yields acts with ⟨site, at_, rfl⟩ | ⟨n, at_, rfl⟩ | ⟨at_, rfl⟩
  all_goals
    rw [at_] at here
    rw [whole_goto out]
    simp only [runTask, here]
    rfl

/-- The whole is inside a waiter as soon as its call is reached. -/
theorem whole_calls {c : WaiterCall} (placed : Placed s) (out : s.role p = none)
    (acts : act p s.memory = .calls n c) :
    whole { s with role := update s.role p (some (n, Kernel.beginning c)) } = whole s := by
  have stays : s.memory.goto p (s.memory.pc p) = s.memory := by
    rw [goto, update_eq_self]
  have begins := placed.begins p
  have inner : (s.memory.pc p).inner (some (n, Kernel.beginning c)) = (whole s).pc p := by
    rw [whole_pc out]
    rcases act_calls acts with ⟨pc, at_, rfl⟩ | ⟨pc, at_, rfl⟩
    · rw [at_] at begins ⊢
      exact congrArg (MutexPc.park n) begins.symm
    · rw [at_] at begins ⊢
      exact congrArg (MutexPc.unpark n) begins.symm
  have same := whole_inside (s := s) (p := p) s.lot s.memory (some (n, Kernel.beginning c))
    (s.memory.pc p)
  rw [stays, inner] at same
  rw [same, goto, update_eq_self]

/-- A statement of a task is the same one in the whole, or a call that it has already made. -/
theorem whole_does (inv : (whole s).Inv) (placed : Placed s) (does : Client.Does client p s s') :
    (whole s).runTask p = .ok (whole s') ∨ whole s' = whole s := by
  cases does with
  | @inside n pc holds memory outcome lot there checks ok =>
    have same : Client.checked client p pc s.memory = (true, s.memory) := by
      simp only [Client.checked, client, ite_self]
    rw [same] at checks
    cases checks
    exact .inl (whole_waits inv placed there ok)
  | moves out acts => exact .inl (whole_moves inv out acts)
  | tests out acts => exact absurd acts (act_tests _)
  | yields out acts => exact .inl (whole_yields out acts)
  | calls out acts => exact .inr (whole_calls placed out acts)

/-- Every step of the tasks is one of the whole, or none. -/
theorem whole_step {l : Client.Label ι MutexCall} (inv : (whole s).Inv) (placed : Placed s)
    (steps : Client.Steps client s l s') :
    Run.Reaches Mutex.step (fun _ _ => True) (whole s) (whole s') := by
  cases steps with
  | runs running does =>
    rcases whole_does inv placed does with ran | same
    · refine .one (a := .run) trivial ?_
      have running_ : (whole s).lot.cpu.running = some _ := running
      simp only [Mutex.step, running_, ran]
    · rw [same]
      exact .refl
  | preempt running =>
    refine .one (a := .preempt) trivial ?_
    have running_ : (whole s).lot.cpu.running = some _ := running
    simp only [Mutex.step, running_]
    rfl
  | @dispatch p idle queued =>
    refine .one (a := .dispatch p) trivial ?_
    have ready : (whole s).lot.cpu.running = none ∧ (whole s).lot.cpu.queued p = true :=
      ⟨idle, queued⟩
    simp only [Mutex.step, if_pos ready]
    rfl
  | @call p c memory running out called =>
    have running_ : (whole s).lot.cpu.running = some p := running
    have here := whole_pc out
    simp only [client] at called
    split at called
    · rename_i idle
      cases called
      rw [idle] at here
      rw [whole_goto out]
      cases c with
      | lock =>
        refine .one (a := .lock) trivial ?_
        simp only [Mutex.step, Mutex.call, running_, here, if_true]
        rfl
      | unlock =>
        refine .one (a := .unlock) trivial ?_
        simp only [Mutex.step, Mutex.call, running_, here, if_true]
        rfl
    · cases called

/-- An access to the memory leads one task to the beginning of a call at most. -/
theorem begins_of_moves (acts : act p m = .moves m') :
    m'.pc = update m.pc p (m'.pc p) ∧ (m'.pc p).Begins := by
  have runs := runs_of_ok (act_moves acts)
  refine ⟨runs.pc, ?_⟩
  cases runs with
  | @acquired site at_ free => cases site <;> simp [Mutex.acquired, goto, MutexPc.Begins]
  | parks at_ | parked at_ | unparks at_ | unparked at_ | unready at_ => simp [act, at_] at acts
  | _ => simp [goto, MutexPc.Begins]

/-- One task has gone on, to the beginning of a call at most. -/
theorem Placed.goes (placed : Placed s) (lot : Lot Nat ι) (place : Option (Nat × WaiterPc ι))
    (moved : m.pc = update s.memory.pc p (m.pc p))
    (begins : (m.pc p).Begins) (inside : ∀ n pc, place = some (n, pc) →
      m.pc p = .park n .claim ∨ m.pc p = .unpark n .load) :
    Placed ⟨lot, update s.role p place, m⟩ := by
  have others : ∀ q, q ≠ p → m.pc q = s.memory.pc q := by
    intro q other
    rw [moved, update_of_ne other]
  constructor
  · intro q n pc there
    change update s.role p place q = _ at there
    change m.pc q = _ ∨ m.pc q = _
    by_cases here : q = p
    · rw [here, update_self] at there
      rw [here]
      exact inside n pc there
    · rw [update_of_ne here] at there
      rw [others q here]
      exact placed.inside q n pc there
  · intro q
    change (m.pc q).Begins
    by_cases here : q = p
    · rwa [here]
    · rw [others q here]
      exact placed.begins q

/-- Tasks stay inside the waiters exactly during the calls of the mutex. -/
theorem Placed.does (placed : Placed s) (does : Client.Does client p s s') : Placed s' := by
  cases does with
  | @inside n pc holds memory outcome lot there checks ok =>
    have same : Client.checked client p pc s.memory = (true, s.memory) := by
      simp only [Client.checked, client, ite_self]
    rw [same] at checks
    cases checks
    cases outcome with
    | goto pc' =>
      refine placed.goes _ _ (by rw [Client.returned, update_eq_self]) (placed.begins p) ?_
      intro m pc goes
      cases goes
      exact placed.inside p n pc there
    | return_ succ =>
      rcases placed.inside p n pc there with at_ | at_
      · refine placed.goes _ _ ?_ ?_ fun _ _ goes => by cases goes
        · simp [Client.returned, client, at_, goto]
        · simp [Client.returned, client, at_, goto, MutexPc.Begins]
      · refine placed.goes _ _ ?_ ?_ fun _ _ goes => by cases goes
        · simp [Client.returned, client, at_, goto]
        · cases succ <;> simp [Client.returned, client, at_, goto, MutexPc.Begins]
  | @moves m out acts =>
    obtain ⟨moved, begins⟩ := begins_of_moves acts
    have goes := placed.goes s.lot none moved begins fun _ _ goes => by cases goes
    rwa [update_eq_self_iff.mpr out.symm] at goes
  | tests out acts => exact absurd acts (act_tests _)
  | @yields m out acts =>
    have moved : m.pc = update s.memory.pc p (m.pc p) ∧ (m.pc p).Begins := by
      rcases act_yields acts with ⟨site, at_, rfl⟩ | ⟨n, at_, rfl⟩ | ⟨at_, rfl⟩
      all_goals simp [goto, MutexPc.Begins]
    have goes := placed.goes (s.lot.yield p) none moved.1 moved.2 fun _ _ goes => by cases goes
    rwa [update_eq_self_iff.mpr out.symm] at goes
  | @calls n c out acts =>
    have begins := placed.begins p
    refine placed.goes _ _ (by rw [update_eq_self]) begins ?_
    intro m pc goes
    cases goes
    rcases act_calls acts with ⟨pc, at_, rfl⟩ | ⟨pc, at_, rfl⟩
    · rw [at_] at begins ⊢
      exact .inl (congrArg (MutexPc.park n) begins)
    · rw [at_] at begins ⊢
      exact .inr (congrArg (MutexPc.unpark n) begins)

/-- So do their steps. -/
theorem Placed.step {l : Client.Label ι MutexCall} (placed : Placed s)
    (steps : Client.Steps client s l s') : Placed s' := by
  cases steps with
  | runs running does => exact placed.does does
  | preempt | dispatch => exact ⟨placed.inside, placed.begins⟩
  | @call p c memory running out called =>
    simp only [client] at called
    split at called
    · cases called
      have goes := placed.goes (m := s.memory.goto p (.acquire c.site)) s.lot none (p := p)
        (by simp [goto]) (by simp [goto, MutexPc.Begins]) fun _ _ goes => by cases goes
      rwa [update_eq_self_iff.mpr out.symm] at goes
    · cases called

/-- The tasks of a new mutex, run as its code says, are those of the whole. -/
theorem whole_of_reaches (reached : client.Reaches start s) :
    Run.Reaches Mutex.step (fun _ _ => True) (start : Mutex ι) (whole s) ∧ Placed s := by
  induction reached with
  | refl =>
    refine ⟨.refl, ?_, fun _ => trivial⟩
    intro p n pc there
    cases there
  | tail _ _ ok ih =>
    have steps := Client.steps_of_ok ok
    exact ⟨ih.1.trans (whole_step (inv_of_reaches ih.1) ih.2 steps), ih.2.step steps⟩

section Thread

variable {names : Naming ι} {host : Addr} {t : Client.Thread (Mutex ι)}

omit [DecidableEq ι] in
/-- Whether a statement touches the node does not depend on how tasks are named. -/
theorem touches_map {κ : Type} (f : ι → κ) (pc : WaiterPc ι) : touches (pc.map f) = touches pc := by
  cases pc <;> rfl

/-- A statement of the mutex faults for one of two reasons. -/
theorem act_fails {fault : Fault} (acts : act p m = .fails fault) :
    (m.pc p = .boostOwner ∧ m.owner = none) ∨ m.pc p = .assertParked false := by
  cases at_ : m.pc p with
  | boostOwner =>
    cases owner : m.owner with
    | none => exact .inl ⟨rfl, rfl⟩
    | some o => simp [act, runTask, at_, owner] at acts
  | assertParked succ =>
    cases succ with
    | false => exact .inr rfl
    | true => simp [act, runTask, at_] at acts
  | testEmpty =>
    cases queue : m.queue <;> simp [act, runTask, at_, queue] at acts
  | _ => simp [act, runTask, at_] at acts

/-- A task of the kernel thread was unparked and has not tested `_owner` since. -/
def Unparked (names : Naming ι) (t : Client.Thread (Mutex ι)) (p : ι) : Prop :=
  match t.memory.pc p with
  | .park n _ => ∃ pc, t.kernel.inside (names.place p) = some (n, pc) ∧ waits (some pc) = true ∧
      (t.kernel.tasks (names.place p)).runState ≠ .waiting
  | .assertParked _ | .acquire .again | .spin .again | .unboost => True
  | _ => False

/-- What a mutex promises to the tasks of a kernel thread. -/
structure Serves (names : Naming ι) (t : Client.Thread (Mutex ι)) : Prop where
  owner : ∀ p, t.memory.held p = true → t.memory.owner = some p
  alone : ∀ p q, t.memory.held p = true → t.memory.held q = true → p = q
  -- No assertion fails, and nothing but a node of the list is dereferenced.
  sound : ∀ p fault, act p t.memory ≠ .fails fault
  there : ∀ p n pc, t.kernel.inside (names.place p) = some (n, pc) → touches pc = true →
    n ∈ t.memory.queue
  -- Whoever waits is in the list, and in its node unless it is being woken.
  listed : ∀ p, (t.kernel.tasks (names.place p)).runState = .waiting → ∃ n ∈ t.memory.queue,
    t.memory.pc p = .park n .claim ∧ (t.kernel.waiter n = some (names.place p) ∨
      ∃ q, t.kernel.inside (names.place q) = some (n, .wake (names.place p)))
  -- If the mutex is free, a task of its list is on its way.
  woken : t.memory.locked = false → t.memory.owner = none → t.memory.queue ≠ [] →
    ∃ p, Unparked names t p ∧ t.kernel.Runnable (names.place p)

omit [DecidableEq ι] in
/-- A task that was unparked is one on the kernel thread. -/
theorem unparked_of_woken (shows : Client.Shows names host t s) (placed : Placed s)
    (woken : (whole s).Woken p) : Unparked names t p := by
  unfold Unparked
  rw [← shows.memory]
  cases at_ : s.role p with
  | none =>
    rw [Woken, whole_pc at_] at woken
    split at woken
    · rename_i n pc here
      have begins := placed.begins p
      rw [here] at begins
      cases begins.symm ▸ woken.1
    all_goals simp_all
  | some place =>
    obtain ⟨n, pc⟩ := place
    rcases placed.role at_ with ⟨here, parks⟩ | ⟨here, unparks⟩
    · rw [Woken, parks] at woken
      rw [here]
      refine ⟨pc.map names.place, ?_, ?_, ?_⟩
      · rw [shows.shows.inside p, at_]
        rfl
      · rw [← woken.1]
        cases pc <;> rfl
      · rw [← shows.shows.views.state p]
        exact woken.2
    · rw [Woken, unparks] at woken
      exact woken.elim

omit [DecidableEq ι] in
/-- Whoever waits is in the list. -/
theorem listed_of_shows (shows : Client.Shows names host t s) (placed : Placed s)
    (inv : (whole s).Inv) (waiting : (t.kernel.tasks (names.place p)).runState = .waiting) :
    ∃ n ∈ t.memory.queue, t.memory.pc p = .park n .claim ∧
      (t.kernel.waiter n = some (names.place p) ∨
        ∃ q, t.kernel.inside (names.place q) = some (n, .wake (names.place p))) := by
  rw [← shows.shows.views.state p] at waiting
  rw [← shows.memory]
  obtain ⟨-, n, sleeps, -, home⟩ := shows.order.asleep p waiting
  obtain ⟨pc, at_, waits_⟩ := Lot.waitsAt_eq_some sleeps
  rcases placed.role at_ with ⟨here, parks⟩ | ⟨-, unparks⟩
  · refine ⟨n, inv.member p n (.inr ⟨pc, parks, .inl waiting⟩), here, ?_⟩
    rcases home with stands | ⟨q, takes_⟩
    · refine .inl ?_
      rw [shows.shows.slot n, stands]
      rfl
    · refine .inr ⟨q, ?_⟩
      cases there : s.role q with
      | none =>
        rw [there] at takes_
        cases takes_
      | some place =>
        obtain ⟨m, pc'⟩ := place
        rw [there] at takes_
        have knows := inv.knows q
        cases pc' with
        | wake q' =>
          cases takes_
          rw [shows.shows.inside q, there]
          rfl
        | switch q' =>
          -- The mutex exchanges no tasks.
          rcases placed.role there with ⟨-, here'⟩ | ⟨-, here'⟩
          · simp [Knows, here', WaiterPc.member] at knows
          · simp [Knows, here', WaiterPc.member] at knows
        | _ => cases takes_
  · have knows := inv.knows p
    simp only [Knows, unparks] at knows
    have member := knows.2.2.1
    cases pc <;> simp_all [waits, WaiterPc.member]

/-- On the kernel thread the mutex does what the whole does. -/
theorem serves_of_shows (shows : Client.Shows names host t s) (placed : Placed s)
    (inv : (whole s).Inv) : Serves names t := by
  have memory := shows.memory
  have owner : ∀ p, t.memory.held p = true → t.memory.owner = some p := by
    intro p holds
    rw [← memory] at holds ⊢
    exact inv.held p holds
  refine ⟨owner, ?_, ?_, ?_, fun p => listed_of_shows shows placed inv, ?_⟩
  · intro p q first second
    have same := (owner p first).symm.trans (owner q second)
    exact Option.some.inj same
  · intro p fault fails
    rw [← memory] at fails
    -- A task inside a waiter is at no statement that could fault.
    have out : s.role p = none := by
      cases there : s.role p with
      | none => rfl
      | some place =>
        rcases placed.inside p _ _ there with at_ | at_
        · simp [act, at_] at fails
        · simp [act, at_] at fails
    have knows := inv.knows p
    rcases act_fails fails with ⟨at_, unowned⟩ | at_
    · rw [Knows, whole_pc out, at_] at knows
      exact knows unowned
    · rw [Knows, whole_pc out, at_] at knows
      cases knows
  · intro p n pc inside touched
    rw [shows.shows.inside p] at inside
    cases there : s.role p with
    | none =>
      rw [there] at inside
      cases inside
    | some place =>
      obtain ⟨m, pc'⟩ := place
      rw [there] at inside
      cases inside
      rw [touches_map] at touched
      rw [← memory]
      have at_ : (whole s).pc p = .park m pc' ∨ (whole s).pc p = .unpark m pc' := by
        rcases placed.role there with ⟨-, here⟩ | ⟨-, here⟩
        · exact .inl here
        · exact .inr here
      obtain ⟨result, done⟩ := inv.stepNode at_
      by_contra gone
      rw [Mutex.stepNode, if_pos ⟨touched, gone⟩] at done
      cases done
  · intro unlocked free contended
    rw [← memory] at unlocked free contended
    obtain ⟨p, woken⟩ := inv.woken_of_free unlocked free contended
    refine ⟨p, unparked_of_woken shows placed woken, ?_⟩
    rcases inv.runnable woken with running | queued
    · exact .inl ((shows.shows.views.running p).mp running).symm
    · exact .inr ((shows.shows.views.queued p).mp queued)

/-- In confined runs of the kernel thread a mutex serves its tasks, which do as in the whole. -/
theorem serves_of_confined {k₀ : Kernel} {tick : Int} {maxSize : Nat}
    (booted : Run.Reaches Kernel.step Kernel.Undisturbed (Kernel.boot host tick maxSize) k₀)
    (gathered : k₀.Gathered names.place host)
    (reached : Run.Reaches (Client.Thread.step client names) (Client.Thread.Confined names)
      ⟨k₀, start⟩ t) :
    Serves names t ∧ ∃ s, Run.Reaches Mutex.step (fun _ _ => True) (start : Mutex ι) (whole s) ∧
      Client.Shows names host t s := by
  have orderly : ∀ s : Client.State Nat ι (Mutex ι), client.Reaches start s → s.Orderly := by
    intro s reached
    obtain ⟨run, placed⟩ := whole_of_reaches reached
    exact placed.orderly (inv_of_reaches run)
  obtain ⟨s, follows, shows⟩ := Client.shows_of_confined orderly booted gathered reached
  obtain ⟨run, placed⟩ := whole_of_reaches follows
  exact ⟨serves_of_shows shows placed (inv_of_reaches run), s, run, shows⟩

end Thread

/-- The names of the two tasks of `Kernel.twoTasks`. -/
def twoNames : Naming (Fin 2) where
  place := Kernel.twoTasks
  name b := if b = 1 then some ⟨0, by decide⟩ else if b = 2 then some ⟨1, by decide⟩ else none
  agree b p := by
    obtain ⟨n, lt⟩ := p
    by_cases first : b = 1
    · rcases n with _ | _ | n
      · simp [first, Kernel.twoTasks]
      · simp [first, Kernel.twoTasks]
      · omega
    · rcases n with _ | _ | n
      · simp [first, Kernel.twoTasks]
      · simp [first, Kernel.twoTasks]
      · omega

/-- The first task takes the mutex and is preempted; the second one parks. -/
def contendLabels : List (Client.ThreadLabel MutexCall) :=
  List.flatten [
    [.sched (.trap (Sys.clockAt 60000)), .sched (.run Sys.stillClock 0), .call .lock],
    List.replicate 5 (.run (Sys.clockAt 60000)),
    [.sched (.trap (Sys.clockAt 80000)), .sched (.run Sys.stillClock 0), .call .lock],
    List.replicate 11 (.run (Sys.clockAt 80000)), [.sched (.run Sys.stillClock 0)]]

/-- A mutex serves two tasks, one of which holds it while the other one is parked. -/
theorem serves_of_confined_contended : ∃ t : Client.Thread (Mutex (Fin 2)), Serves twoNames t ∧
    (∃ s, Run.Reaches Mutex.step (fun _ _ => True) start (whole s) ∧ Client.Shows twoNames 0 t s) ∧
    t.memory.held 0 = true ∧ t.memory.queue = [0] ∧ t.kernel.waiter 0 = some 2 ∧
    t.kernel.cur = 0 := by
  have run : ∃ k₀, Run.Reaches Kernel.step (fun k l => k.Undisturbed l ∧ k.Unshared l)
      (Kernel.boot 0 0 4) k₀ ∧ k₀.Ready twoNames.place ∧
      (Run.exec (Client.Thread.step client twoNames) (Client.Thread.Confined twoNames)
        ⟨k₀, start⟩ contendLabels).any (fun t => decide (t.memory.held 0 = true ∧
          t.memory.queue = [0] ∧ t.kernel.waiter 0 = some 2 ∧ t.kernel.cur = 0)) = true :=
    Run.Reaches.of_check Kernel.gatherLabels (by decide +kernel)
  obtain ⟨k₀, booted, ready, passes⟩ := run
  obtain ⟨t, reached, ends⟩ := Run.Reaches.of_check contendLabels passes
  obtain ⟨serves, follows⟩ := serves_of_confined (booted.mono fun _ _ => And.left)
    (Kernel.gathered_of_unshared booted ready) reached
  exact ⟨t, serves, follows, ends⟩

end Mutex

end Gthread

import Gthread.Sched.LifeFrame

/-! The steps of the life cycle of a block, each of which keeps the invariant. -/

namespace Gthread.Life

open Function (update update_of_ne update_self)

variable {strict : Prop} {a : Life}

/-- Changing one phase changes one kind. -/
theorem kind_update (phase : Addr → Phase) (t : Addr) (new : Phase) :
    (fun b => (update phase t new b).kind) = update (fun b => (phase b).kind) t new.kind := by
  funext b
  by_cases here : b = t
  · subst here
    simp
  · simp [here]

/-- Changing a phase within its kind changes no kind. -/
theorem kind_update_same (phase : Addr → Phase) (t : Addr) (new : Phase)
    (same : new.kind = (phase t).kind) :
    (fun b => (update phase t new b).kind) = fun b => (phase b).kind := by
  rw [kind_update, same]
  exact Function.update_eq_self t fun b => (phase b).kind

namespace Records

variable {kind : Addr → Phase.Kind} {spawn : Addr → Nat} {detached : Addr → Bool}
  {returned settled : List Nat} {next : Nat} {t : Addr}

/-- A spawn takes a block that was returned or never used, and gives it the next number. -/
theorem take (records : Records kind spawn detached returned settled next) {detached' : Addr → Bool}
    (same : ∀ b, b ≠ t → detached' b = detached b) :
    Records (update kind t .building) (update spawn t next) detached' returned settled
      (next + 1) := by
  obtain ⟨positive, pending, distinct, once, bound, used, spawned, settles, building, active⟩ :=
    records
  constructor
  all_goals grind [Function.update_apply]

/-- A built block becomes a task. -/
theorem activate (records : Records kind spawn detached returned settled next)
    (built : kind t = .building) (held : Bool) :
    Records (update kind t (.active held)) spawn detached returned settled next := by
  obtain ⟨positive, pending, distinct, once, bound, used, spawned, settles, building, active⟩ :=
    records
  constructor
  all_goals grind [Function.update_apply]

/-- A block is passed to `return_task` for the first time since it was taken. -/
theorem give (records : Records kind spawn detached returned settled next)
    (numbered : kind t ≠ .gone) :
    Records (update kind t .gone) spawn detached (spawn t :: returned) settled next := by
  obtain ⟨positive, pending, distinct, once, bound, used, spawned, settles, building, active⟩ :=
    records
  constructor
  all_goals grind [Function.update_apply]

/-- A finished detached task waits to be returned. -/
theorem defer (records : Records kind spawn detached returned settled next) {held : Bool}
    (task : kind t = .active held) :
    Records (update kind t .deferred) spawn detached returned settled next := by
  obtain ⟨positive, pending, distinct, once, bound, used, spawned, settles, building, active⟩ :=
    records
  constructor
  all_goals grind [Function.update_apply]

/-- A task is detached while it runs, which settles its spawn. -/
theorem detach (records : Records kind spawn detached returned settled next)
    (task : kind t = .active true) :
    Records (update kind t (.active false)) spawn (update detached t true) returned
      (spawn t :: settled) next := by
  obtain ⟨positive, pending, distinct, once, bound, used, spawned, settles, building, active⟩ :=
    records
  constructor
  all_goals grind [Function.update_apply]

/-- A returned spawn is settled. -/
theorem settle (records : Records kind spawn detached returned settled next) {m : Nat}
    (back : m ∈ returned) (real : m ≠ 0) :
    Records kind spawn detached returned (m :: settled) next := by
  obtain ⟨positive, pending, distinct, once, bound, used, spawned, settles, building, active⟩ :=
    records
  constructor
  all_goals grind [Function.update_apply]

/-- Resetting a block that is being built changes no task's flag. -/
theorem reset (records : Records kind spawn detached returned settled next)
    (built : kind t = .building) :
    Records kind spawn (update detached t false) returned settled next := by
  obtain ⟨positive, pending, distinct, once, bound, used, spawned, settles, building, active⟩ :=
    records
  constructor
  all_goals grind [Function.update_apply]

end Records

variable {h : HandleId} {t : Addr} {p : Pc}

/-- The running task goes on at another statement. -/
@[simps] def goto (p : Pc) (a : Life) : Life := { a with at_ := update a.at_ a.cur p }

/-- The running task's call has a handle to itself. -/
@[simps] def reserve (h : HandleId) (a : Life) : Life :=
  { a with busy := update a.busy h (some a.cur) }

/-- A block changes its use. -/
@[simps] def rephase (t : Addr) (phase : Phase) (a : Life) : Life :=
  { a with phase := update a.phase t phase }

/-- A block is taken by the running task and gets the next spawn number. -/
@[simps] def number (t : Addr) (a : Life) : Life :=
  { a with
    phase := update a.phase t (.building a.cur)
    spawn := update a.spawn t a.next
    scheduled := update a.scheduled t false
    next := a.next + 1 }

/-- A block becomes stopped, unjoined and attached. -/
@[simps] def blank (t : Addr) (a : Life) : Life :=
  { a with
    state := update a.state t .stopped
    joiner := update a.joiner t none
    detached := update a.detached t false }

/-- A new block is mapped, with a context of zeros. -/
@[simps] def construct (t : Addr) (a : Life) : Life :=
  { a with
    mapped := update a.mapped t true
    at_ := update a.at_ t .zero
    stackOf := update a.stackOf t 0
    switched := update a.switched t false }

/-- The running task moves onto the stack of the block it starts. -/
@[simps] def launch (t : Addr) (h : HandleId) (a : Life) : Life :=
  { a with
    saved := (.startBack t h, a.stackOf a.cur)
    switched := update a.switched a.cur false
    stackOf := update a.stackOf a.cur t }

/-- The started block's context is saved, and the running task's own is loaded. -/
@[simps] def land (t : Addr) (a : Life) : Life :=
  { a with
    at_ := update (update a.at_ t .prologue) a.cur a.saved.1
    stackOf := update (update a.stackOf t t) a.cur a.saved.2
    switched := update a.switched t false
    state := update a.state a.cur (if a.switched a.cur then .running else a.state a.cur) }

/-- Set a block's run state. -/
@[simps] def setState (t : Addr) (state : RunState) (a : Life) : Life :=
  { a with state := update a.state t state }

/-- A handle is cleared when the call on it is over. -/
@[simps] def settle (h : HandleId) (a : Life) : Life :=
  { a with
    handles := update a.handles h none
    busy := update a.busy h none
    settled := a.owner h :: a.settled }

/-- A handle is given the task of a spawn. -/
@[simps] def give (t : Addr) (h : HandleId) (a : Life) : Life :=
  { a with
    handles := update a.handles h (some t)
    owner := update a.owner h (a.spawn t)
    busy := update a.busy h none }

/-- A call of `return_task` is recorded. -/
@[simps] def record (t : Addr) (a : Life) : Life :=
  { a with returned := ⟨t, a.spawn t, a.stackOf a.cur⟩ :: a.returned }

/-- A call begins on a handle that no call is at work on. -/
theorem Inv.reserve (inv : a.Inv strict) (at_ : a.at_ a.cur = .user) (free : a.busy h = none)
    (stays : ∀ t h, p ≠ .startOnNew t h) (works : p.handle = some h)
    (own : ((a.reserve h).goto p).Ok a.cur p) : ((a.reserve h).goto p).Inv strict := by
  have stack : a.stackOf a.cur = a.cur := inv.stack_cur at_
  have touches : Touches (· = h) (fun _ => False) a ((a.reserve h).goto p) := by
    unfold Life.goto Life.reserve
    constructor
    all_goals try dsimp only
    all_goals grind [Function.update_apply, Returned]
  exact inv.touch
    { touches with
      elsewhere := by simp [at_]
      rq := rfl
      joiner := fun _ none_ => none_.elim
      active := inv.active
      state := .inr ⟨rfl, by simp [at_]⟩
      own := by simpa using own
      called := inv.called_begin (by simp [at_, Pc.handle]) rfl (by simpa using works)
      stack := by simpa [stack_own stays] using stack
      saved := by simp [stays]
      others := fun _ _ none_ => none_.elim
      given := by rintro g t rfl; simp
      places := inv.places
      records := inv.records
      offStack := inv.offStack
      idle := inv.idle
      finishes := inv.finishes }

/-- The running task's call goes on at its next statement. -/
theorem Inv.goto (inv : a.Inv strict) (begun : a.at_ a.cur ≠ .prologue)
    (elsewhere : ∀ h wanted, a.at_ a.cur ≠ .joinYield h wanted)
    (leaves : ∀ t h, a.at_ a.cur ≠ .startOnNew t h) (stays : ∀ t h, p ≠ .startOnNew t h)
    (works : p.handle = (a.at_ a.cur).handle) (own : (a.goto p).Ok a.cur p) :
    (a.goto p).Inv strict := by
  have touches : Touches (fun _ => False) (fun _ => False) a (a.goto p) := by
    unfold Life.goto
    constructor
    all_goals try dsimp only
    all_goals grind [Function.update_apply, Returned]
  exact inv.touch
    { touches with
      elsewhere
      rq := rfl
      joiner := fun _ none_ => none_.elim
      active := inv.active
      state := .inr ⟨rfl, begun⟩
      own := by simpa using own
      called := inv.called_on rfl (by simpa using works)
      stack := by simpa [stack_own leaves, stack_own stays] using inv.stack_cur rfl
      saved := by simp [stays]
      others := fun _ _ none_ => none_.elim
      given := fun _ _ none_ => none_.elim
      places := inv.places
      records := inv.records
      offStack := inv.offStack
      idle := inv.idle
      finishes := inv.finishes }

/-- The prologue of a task sets its run state. -/
theorem Inv.begin (inv : a.Inv strict) (at_ : a.at_ a.cur = .prologue) :
    ((a.setState a.cur .running).goto .user).Inv strict := by
  have touches : Touches (fun _ => False) (fun _ => False) a
      ((a.setState a.cur .running).goto .user) := by
    unfold Life.goto Life.setState
    constructor
    all_goals try dsimp only
    all_goals grind [Function.update_apply, Returned]
  have idle : Idle (fun b => (a.phase b).kind) (update a.state a.cur .running) a.joiner
      a.scheduled := by
    obtain ⟨gone, building⟩ := inv.idle
    obtain ⟨holder, active⟩ := inv.active
    constructor
    all_goals grind [Function.update_apply, Phase.kind]
  exact inv.touch
    { touches with
      elsewhere := by simp [at_]
      rq := rfl
      joiner := fun _ none_ => none_.elim
      active := inv.active
      state := .inl (by simp)
      own := by simp [Ok]
      called := inv.called_on rfl (by simp [at_, Pc.handle])
      stack := by simpa [Pc.stack] using inv.stack_cur at_
      saved := by simp
      others := fun _ _ none_ => none_.elim
      given := fun _ _ none_ => none_.elim
      places := inv.places
      records := inv.records
      offStack := inv.offStack
      idle
      finishes := by have := inv.finishes; simp; grind [Function.update_apply] }

/-- A spawn takes a block out of the pool. -/
theorem Inv.takePooled (inv : a.Inv strict) {rest : List Addr} {entry arg : Nat} {b : Attr}
    (at_ : a.at_ a.cur = .makeLocked b entry arg h) (found : a.pool.Perm (t :: rest)) :
    (({ a with pool := rest }.number t).goto (.makeFound t entry arg h)).Inv strict := by
  have fills : a.Fills a.cur h := by simpa [Ok, at_] using inv.ok_cur
  have pooled : a.phase t = .pooled := by
    rw [← inv.places.pooled, found.mem_iff]
    exact List.mem_cons_self
  obtain ⟨holder, active⟩ := inv.active
  have touches : Touches (fun _ => False) (· = t) a
      (({ a with pool := rest }.number t).goto (.makeFound t entry arg h)) := by
    unfold Life.goto Life.number
    constructor
    all_goals try dsimp only
    all_goals grind [Function.update_apply, Owned, Returned, Live]
  have places :
      Places (update a.phase t (.building a.cur)) rest a.deferred a.mapped a.overwrote := by
    have nodup := found.nodup_iff.mp inv.places.nodup
    have member : ∀ b, b ∈ a.pool ↔ b ∈ t :: rest := fun b => found.mem_iff
    obtain ⟨-, pooled, held, absent, kept⟩ := inv.places
    constructor
    all_goals grind [Function.update_apply]
  have idle : Idle (update (fun b => (a.phase b).kind) t .building) a.state a.joiner
      (update a.scheduled t false) := by
    obtain ⟨gone, building⟩ := inv.idle
    have stopped : a.state t = .stopped := gone t (.inl (by simp [pooled, Phase.kind]))
    constructor
    all_goals grind [Function.update_apply]
  have apart : a.cur ≠ t := by grind
  exact inv.touch
    { touches with
      elsewhere := by simp [at_]
      rq := rfl
      joiner := fun _ _ _ => rfl
      active := ⟨holder, by simp [apart, active]⟩
      state := .inr ⟨rfl, by simp [at_]⟩
      own := by
        simp only [goto_at_, number_cur, update_self]
        refine ⟨fills.keep ⟨rfl, rfl, rfl⟩ fun u held => ?_, update_self ..⟩
        have other : u ≠ t := by rintro rfl; simp [pooled] at held
        exact ⟨update_of_ne other .., update_of_ne other ..⟩
      called := inv.called_on rfl (by simp [at_, Pc.handle])
      stack := by simpa [Pc.stack] using inv.stack_cur at_
      saved := by simp
      others := by rintro b h rfl; simp [pooled]
      given := fun _ _ none_ => none_.elim
      places
      records := by
        simp only [goto_phase, number_phase, kind_update]
        exact inv.records.take fun _ _ => rfl
      offStack := inv.offStack
      idle := by
        simp only [goto_phase, number_phase, kind_update]
        exact idle
      finishes := by have := inv.finishes; simp; grind [Function.update_apply] }

/-- A spawn maps a new block. -/
theorem Inv.create (inv : a.Inv strict) {entry arg : Nat} {b : Attr}
    (at_ : a.at_ a.cur = .makeCreate b entry arg h) (fresh : a.mapped t = false) :
    ((((a.construct t).blank t).number t).goto (.made t entry arg h)).Inv strict := by
  have fills : a.Fills a.cur h := by simpa [Ok, at_] using inv.ok_cur
  have unmapped : a.phase t = .unmapped := (inv.places.absent t).mp fresh
  obtain ⟨holder, active⟩ := inv.active
  have apart : a.cur ≠ t := by grind
  have touches : Touches (fun _ => False) (· = t) a
      ((((a.construct t).blank t).number t).goto (.made t entry arg h)) := by
    unfold Life.goto Life.number Life.blank Life.construct
    constructor
    all_goals try dsimp only
    all_goals grind [Function.update_apply, Owned, Returned, Live]
  have places : Places (update a.phase t (.building a.cur)) a.pool a.deferred
      (update a.mapped t true) a.overwrote := by
    obtain ⟨nodup, pooled, held, absent, kept⟩ := inv.places
    constructor
    all_goals grind [Function.update_apply]
  have idle : Idle (update (fun b => (a.phase b).kind) t .building) (update a.state t .stopped)
      (update a.joiner t none) (update a.scheduled t false) := by
    obtain ⟨gone, building⟩ := inv.idle
    constructor
    all_goals grind [Function.update_apply]
  exact inv.touch
    { touches with
      elsewhere := by simp [at_]
      rq := rfl
      joiner := by rintro b rfl live; simp [Live, unmapped] at live
      active := ⟨holder, by simp [apart, active]⟩
      state := .inr ⟨by simp [apart], by simp [at_]⟩
      own := by
        simp only [goto_at_, number_cur, blank_cur, construct_cur, update_self]
        refine ⟨fills.keep ⟨rfl, rfl, rfl⟩ fun u held => ?_, update_self .., update_self ..,
          update_self ..⟩
        have other : u ≠ t := by rintro rfl; simp [unmapped] at held
        exact ⟨update_of_ne other .., update_of_ne other ..⟩
      called := inv.called_on rfl (by simp [at_, Pc.handle])
      stack := by simpa [apart, Pc.stack] using inv.stack_cur at_
      saved := by simp
      others := by rintro b h rfl; simp [unmapped]
      given := fun _ _ none_ => none_.elim
      places
      records := by
        simp only [goto_phase, number_phase, blank_phase, construct_phase, kind_update]
        exact inv.records.take fun b other => update_of_ne other _ _
      offStack := inv.offStack
      idle := by
        simp only [goto_phase, number_phase, blank_phase, construct_phase, kind_update]
        exact idle
      finishes := by
        intro b holder task detached
        by_cases here : b = t
        · simp [here] at detached
        · simpa [here] using inv.finishes b holder (by simpa [here] using task)
            (by simpa [here] using detached) }

/-- A spawn resets the block it took. -/
theorem Inv.reset (inv : a.Inv strict) {entry arg : Nat}
    (at_ : a.at_ a.cur = .makeFound t entry arg h) :
    ((a.blank t).goto (.made t entry arg h)).Inv strict := by
  obtain ⟨fills, built⟩ : a.Fills a.cur h ∧ a.phase t = .building a.cur := by
    simpa [Ok, at_] using inv.ok_cur
  obtain ⟨holder, active⟩ := inv.active
  have apart : a.cur ≠ t := by grind
  have touches : Touches (fun _ => False) (· = t) a
      ((a.blank t).goto (.made t entry arg h)) := by
    unfold Life.goto Life.blank
    constructor
    all_goals try dsimp only
    all_goals grind [Function.update_apply, Owned, Returned, Live]
  have idle : Idle (fun b => (a.phase b).kind) (update a.state t .stopped)
      (update a.joiner t none) a.scheduled := by
    obtain ⟨gone, building⟩ := inv.idle
    constructor
    all_goals grind [Function.update_apply]
  exact inv.touch
    { touches with
      elsewhere := by simp [at_]
      rq := rfl
      joiner := by rintro b rfl live; simp [Live, built] at live
      active := ⟨holder, active⟩
      state := .inr ⟨by simp [apart], by simp [at_]⟩
      own := by
        simp only [goto_at_, blank_cur, update_self]
        exact ⟨fills.keep ⟨rfl, rfl, rfl⟩ fun _ _ => ⟨rfl, rfl⟩, built, update_self ..,
          update_self ..⟩
      called := inv.called_on rfl (by simp [at_, Pc.handle])
      stack := by simpa [Pc.stack] using inv.stack_cur at_
      saved := by simp
      others := by rintro b h rfl; simp [built]
      given := fun _ _ none_ => none_.elim
      places := inv.places
      records := inv.records.reset (by simp [built, Phase.kind])
      offStack := inv.offStack
      idle
      finishes := by
        intro b holder task detached
        by_cases here : b = t
        · simp [here] at detached
        · simpa [here] using inv.finishes b holder (by simpa [here] using task)
            (by simpa [here] using detached) }

/-- The running task jumps onto the stack of the block it starts. -/
theorem Inv.launch (inv : a.Inv strict) {entry arg : Nat}
    (at_ : a.at_ a.cur = .made t entry arg h) :
    ((a.launch t h).goto (.startOnNew t h)).Inv strict := by
  obtain ⟨fills, built, unused⟩ :
      a.Fills a.cur h ∧ a.phase t = .building a.cur ∧ a.Unused t := by
    simpa [Ok, at_] using inv.ok_cur
  have stack : a.stackOf a.cur = a.cur := inv.stack_cur at_
  have touches : Touches (fun _ => False) (fun _ => False) a
      ((a.launch t h).goto (.startOnNew t h)) := by
    unfold Life.goto Life.launch
    constructor
    all_goals try dsimp only
    all_goals grind [Function.update_apply, Returned]
  exact inv.touch
    { touches with
      elsewhere := by simp [at_]
      rq := rfl
      joiner := fun _ none_ => none_.elim
      active := inv.active
      state := .inr ⟨rfl, by simp [at_]⟩
      own := by
        simp only [goto_at_, launch_cur, update_self]
        exact ⟨fills.keep ⟨rfl, rfl, rfl⟩ fun _ _ => ⟨rfl, rfl⟩, built, unused⟩
      called := inv.called_on rfl (by simp [at_, Pc.handle])
      stack := by simp [Pc.stack]
      saved := by simp [stack]
      others := fun _ _ none_ => none_.elim
      given := fun _ _ none_ => none_.elim
      places := inv.places
      records := inv.records
      offStack := inv.offStack
      idle := inv.idle
      finishes := inv.finishes }

/-- The started block gets its context, and the running task continues where it was last saved. -/
theorem Inv.land (inv : a.Inv strict) (at_ : a.at_ a.cur = .startOnNew t h) :
    (a.land t).Inv strict := by
  obtain ⟨fills, built, unused⟩ :
      a.Fills a.cur h ∧ a.phase t = .building a.cur ∧ a.Unused t := by
    simpa [Ok, at_] using inv.ok_cur
  obtain ⟨holder, active⟩ := inv.active
  have apart : a.cur ≠ t := by grind
  have touches : Touches (fun _ => False) (· = t) a (a.land t) := by
    unfold Life.land
    constructor
    all_goals try dsimp only
    all_goals grind [Function.update_apply, Owned, Returned, Live]
  have idle : Idle (fun b => (a.phase b).kind) (a.land t).state a.joiner a.scheduled := by
    obtain ⟨gone, building⟩ := inv.idle
    have going := inv.going
    unfold Life.land
    constructor
    all_goals try dsimp only
    all_goals grind [Function.update_apply, Phase.kind]
  have saved := inv.saved t h at_
  exact inv.touch
    { touches with
      elsewhere := by simp [at_]
      rq := rfl
      joiner := fun _ _ _ => rfl
      active := ⟨holder, active⟩
      state := by
        simp only [land_state, update_self]
        by_cases stale : a.switched a.cur = true
        · exact .inl (if_pos stale)
        · exact .inr ⟨if_neg stale, by simp [at_]⟩
      own := by
        -- The stale context of a spawner that was preempted leads back to the same statement.
        have kept : (a.land t).Fills a.cur h := fills.keep ⟨rfl, rfl, rfl⟩ fun _ _ => ⟨rfl, rfl⟩
        rcases saved with back | stale
        · simpa [Ok, back, kept, built, Unused, apart.symm] using unused
        · simpa [Ok, stale, kept, built, Unused] using unused
      called := inv.called_on rfl (by rcases saved with back | stale <;> simp [*, Pc.handle])
      stack := by
        rcases saved with back | stale
        · simp [back, Pc.stack]
        · simp [stale, Pc.stack]
      saved := by
        rcases saved with back | stale
        · simp [back]
        · simp [stale]
      others := by rintro b h rfl; simp [built]
      given := fun _ _ none_ => none_.elim
      places := inv.places
      records := inv.records
      offStack := inv.offStack
      idle
      finishes := by
        intro b holder task detached
        obtain ⟨unheld, going⟩ := inv.finishes b holder task detached
        refine ⟨unheld, ?_⟩
        by_cases other : b = a.cur
        · exact .inr other
        · exact .inl (by simpa [other] using going) }

/-- A block whose phase shows in the free list, the node or the memory map. -/
def placed : Phase → Bool
  | .pooled | .deferred | .unmapped => true
  | _ => false

/-- Changing a phase that does not show to another one of them changes no place. -/
theorem Places.rephase {phase : Addr → Phase} {pool : List Addr} {deferred : TaskPtr}
    {mapped : Addr → Bool} {overwrote : Bool} {new : Phase}
    (places : Places phase pool deferred mapped overwrote) (old : placed (phase t) = false)
    (hidden : placed new = false) : Places (update phase t new) pool deferred mapped overwrote := by
  obtain ⟨nodup, pooled, held, absent, kept⟩ := places
  constructor
  all_goals grind [Function.update_apply, placed]

/-- A block that was nowhere is put in the pool. -/
theorem Places.insert {phase : Addr → Phase} {pool pool' : List Addr} {deferred : TaskPtr}
    {mapped : Addr → Bool} {overwrote : Bool}
    (places : Places phase pool deferred mapped overwrote) (hidden : placed (phase t) = false)
    (inserted : pool'.Perm (t :: pool)) :
    Places (update phase t .pooled) pool' deferred mapped overwrote := by
  have member : ∀ b, b ∈ pool' ↔ b ∈ t :: pool := fun b => inserted.mem_iff
  have distinct := inserted.nodup_iff
  obtain ⟨nodup, pooled, held, absent, kept⟩ := places
  constructor
  all_goals grind [Function.update_apply, placed]

/-- A block that was nowhere is unmapped. -/
theorem Places.unmap {phase : Addr → Phase} {pool : List Addr} {deferred : TaskPtr}
    {mapped : Addr → Bool} {overwrote : Bool}
    (places : Places phase pool deferred mapped overwrote) (hidden : placed (phase t) = false) :
    Places (update phase t .unmapped) pool deferred (update mapped t false) overwrote := by
  obtain ⟨nodup, pooled, held, absent, kept⟩ := places
  constructor
  all_goals grind [Function.update_apply, placed]

/-- `start` marks the started block as suspended. -/
theorem Inv.suspend (inv : a.Inv strict) (at_ : a.at_ a.cur = .startBack t h) :
    ((a.setState t .suspended).goto (.started t h)).Inv strict := by
  have own : a.Ok a.cur (.startBack t h) := at_ ▸ inv.ok_cur
  have built := own.2.1
  obtain ⟨holder, active⟩ := inv.active
  have apart : a.cur ≠ t := by grind
  have touches : Touches (fun _ => False) (· = t) a
      ((a.setState t .suspended).goto (.started t h)) := by
    unfold Life.goto Life.setState
    constructor
    all_goals try dsimp only
    all_goals grind [Function.update_apply, Owned, Returned, Live]
  have idle : Idle (fun b => (a.phase b).kind) (update a.state t .suspended) a.joiner
      a.scheduled := by
    obtain ⟨gone, building⟩ := inv.idle
    have unjoined : a.joiner t = none := own.2.2.1.1
    constructor
    all_goals grind [Function.update_apply, Phase.kind]
  exact inv.touch
    { touches with
      elsewhere := by simp [at_]
      rq := rfl
      joiner := fun _ _ _ => rfl
      active := ⟨holder, active⟩
      state := .inr ⟨by simp [apart], by simp [at_]⟩
      own := by
        simp only [goto_at_, setState_cur, update_self]
        obtain ⟨fills, -, unused, first, stack⟩ := own
        exact ⟨fills.keep ⟨rfl, rfl, rfl⟩ fun _ _ => ⟨rfl, rfl⟩, built, unused,
          (update_of_ne apart.symm ..).trans first, stack, update_self ..⟩
      called := inv.called_on rfl (by simp [at_, Pc.handle])
      stack := by simpa [Pc.stack] using inv.stack_cur at_
      saved := by simp
      others := by rintro b h rfl; simp [built]
      given := fun _ _ none_ => none_.elim
      places := inv.places
      records := inv.records
      offStack := inv.offStack
      idle
      finishes := by
        intro b holder task detached
        by_cases here : b = t
        · simp [here, built] at task
        · simpa [here] using inv.finishes b holder task detached }

/-- The end of `spawn`: the task passes from the call to a handle. -/
theorem Inv.give (inv : a.Inv strict) (at_ : a.at_ a.cur = .spawned t h) :
    (((a.give t h).rephase t (.active (some (.handle h)))).goto .user).Inv strict := by
  obtain ⟨⟨busy, -⟩, held⟩ : a.Fills a.cur h ∧ a.phase t = .active (some (.spawner a.cur)) := by
    simpa [Ok, at_] using inv.ok_cur
  have touches : Touches (· = h) (· = t) a
      (((a.give t h).rephase t (.active (some (.handle h)))).goto .user) := by
    unfold Life.goto Life.give Life.rephase
    constructor
    all_goals try dsimp only
    all_goals grind [Function.update_apply, Owned, Returned, Live]
  have kinds := kind_update_same a.phase t (.active (some (.handle h))) (by simp [held, Phase.kind])
  have active : ∃ holder, update a.phase t (.active (some (.handle h))) a.cur = .active holder := by
    by_cases here : a.cur = t
    · exact ⟨_, by rw [here, update_self]⟩
    · rw [update_of_ne here]
      exact inv.active
  exact inv.touch
    { touches with
      elsewhere := by simp [at_]
      rq := rfl
      joiner := fun _ _ _ => rfl
      active
      state := .inr ⟨rfl, by simp [at_]⟩
      own := by simp [Ok]
      called := inv.called_end (.inl (by simp [at_, Pc.handle])) rfl
      stack := by simpa [Pc.stack] using inv.stack_cur at_
      saved := by simp
      others := by rintro b g rfl; simp [held]
      given := by
        rintro g u rfl unused points
        obtain rfl : t = u := by simpa using points
        exact ⟨by simp, by simp, by simp⟩
      places := inv.places.rephase (by simp [held, placed]) rfl
      records := kinds.symm ▸ inv.records
      offStack := inv.offStack
      idle := kinds.symm ▸ inv.idle
      finishes := by
        intro b holder task detached
        by_cases here : b = t
        · exact absurd (inv.finishes b _ (here ▸ held) detached).1 (by simp)
        · exact inv.finishes b holder (by simpa [here] using task) detached }

/-- A finished task is passed to `return_task` through the handle that refers to it. -/
theorem Inv.callReturn (inv : a.Inv strict) (at_ : a.at_ a.cur = .returning h)
    (points : a.handles h = some t) :
    (((a.record t).rephase t (.returning a.cur)).goto (.returnLocked t h)).Inv strict := by
  have own : a.Ok a.cur (.returning h) := at_ ▸ inv.ok_cur
  obtain ⟨busy, t', ⟨points', held, number⟩, stopped⟩ := own
  obtain rfl : t = t' := by simpa [points] using points'
  have apart : a.cur ≠ t := by
    rintro rfl
    exact inv.going stopped
  have stack : a.stackOf a.cur = a.cur := inv.stack_cur at_
  have touches : Touches (fun _ => False) (· = t) a
      (((a.record t).rephase t (.returning a.cur)).goto (.returnLocked t h)) := by
    unfold Life.goto Life.record Life.rephase
    constructor
    all_goals try dsimp only
    all_goals grind [Function.update_apply, Owned, Returned, Live]
  have kind : (a.phase t).kind = .active true := by simp [held, Phase.kind]
  have idle : Idle (update (fun b => (a.phase b).kind) t .gone) a.state a.joiner a.scheduled := by
    obtain ⟨gone, building⟩ := inv.idle
    constructor
    all_goals grind [Function.update_apply]
  have records : Records (update (fun b => (a.phase b).kind) t .gone) a.spawn a.detached
      (a.spawn t :: a.returned.map Return.spawn) a.settled a.next :=
        inv.records.give (by simp [kind])
  have kinds := kind_update a.phase t (.returning a.cur)
  exact inv.touch
    { touches with
      elsewhere := by simp [at_]
      rq := rfl
      joiner := fun _ _ _ => rfl
      active := by simpa [apart] using inv.active
      state := .inr ⟨rfl, by simp [at_]⟩
      own := by
        have real := inv.records.spawned t (.inr kind)
        simp [Ok, busy, Returned, ← number, real]
      called := inv.called_on rfl (by simp [at_, Pc.handle])
      stack := by simpa [Pc.stack] using stack
      saved := by simp
      others := by
        rintro b g rfl - free same
        obtain rfl : h = g := by simpa [held] using same
        simp [busy] at free
      given := fun _ _ none_ => none_.elim
      places := inv.places.rephase (by simp [held, placed]) rfl
      records := kinds ▸ records
      offStack := by
        intro r member
        rcases List.mem_cons.mp member with rfl | old
        · rw [stack]
          exact apart.symm
        · exact inv.offStack r old
      idle := kinds ▸ idle
      finishes := by
        intro b holder task detached
        by_cases here : b = t
        · simp [here] at task
        · exact inv.finishes b holder (by simpa [here] using task) detached }

/-- A block that a call has passed to `return_task` goes to the pool or out of the memory map. -/
theorem Inv.putAway (inv : a.Inv strict) {pool : List Addr} {mapped : Addr → Bool} {new : Phase}
    (at_ : a.at_ a.cur = .returnLocked t h ∨ a.at_ a.cur = .returnDestroy t h)
    (gone : new.kind = .gone)
    (places : Places (update a.phase t new) pool a.deferred mapped a.overwrote) :
    (({ a with pool := pool, mapped := mapped }.rephase t new).goto
      (.clearHandle h)).Inv strict := by
  obtain ⟨busy, returning, back⟩ :
      a.busy h = some a.cur ∧ a.phase t = .returning a.cur ∧ a.Returned (a.owner h) := by
    rcases at_ with at_ | at_ <;> simpa [Ok, at_] using inv.ok_cur
  have elsewhere : ∀ h wanted, a.at_ a.cur ≠ .joinYield h wanted := by
    rcases at_ with at_ | at_ <;> simp [at_]
  have begun : a.at_ a.cur ≠ .prologue := by rcases at_ with at_ | at_ <;> simp [at_]
  have leaves : ∀ t h, a.at_ a.cur ≠ .startOnNew t h := by rcases at_ with at_ | at_ <;> simp [at_]
  obtain ⟨holder, active⟩ := inv.active
  have apart : a.cur ≠ t := by grind
  have inactive : ∀ holder, new ≠ .active holder := by
    rintro holder rfl
    simp [Phase.kind] at gone
  have touches : Touches (fun _ => False) (· = t) a
      (({ a with pool := pool, mapped := mapped }.rephase t new).goto (.clearHandle h)) := by
    unfold Life.goto Life.rephase
    constructor
    all_goals try dsimp only
    all_goals grind [Function.update_apply, Owned, Returned, Live]
  have kinds := kind_update_same a.phase t new (by rw [gone, returning]; rfl)
  exact inv.touch
    { touches with
      elsewhere
      rq := rfl
      joiner := fun _ _ _ => rfl
      active := ⟨holder, by simp [apart, active]⟩
      state := .inr ⟨rfl, begun⟩
      own := by simpa [Ok, busy, Returned] using back
      called := inv.called_on rfl (by rcases at_ with at_ | at_ <;> simp [at_, Pc.handle])
      stack := by simpa [stack_own leaves, Pc.stack] using inv.stack_cur rfl
      saved := by simp
      others := by rintro b g rfl; simp [returning]
      given := fun _ _ none_ => none_.elim
      places
      records := kinds.symm ▸ inv.records
      offStack := inv.offStack
      idle := kinds.symm ▸ inv.idle
      finishes := by
        intro b holder task detached
        by_cases here : b = t
        · exact absurd (by simpa [here] using task) (inactive holder)
        · exact inv.finishes b holder (by simpa [here] using task) detached }

/-- The end of a `join` or `detach` that returned the task: the handle is cleared. -/
theorem Inv.clear (inv : a.Inv strict) (at_ : a.at_ a.cur = .clearHandle h) :
    ((a.settle h).goto .user).Inv strict := by
  obtain ⟨busy, back, real⟩ : a.busy h = some a.cur ∧ a.Returned (a.owner h) := by
    simpa [Ok, at_] using inv.ok_cur
  have touches : Touches (· = h) (fun _ => False) a ((a.settle h).goto .user) := by
    unfold Life.goto Life.settle
    constructor
    all_goals try dsimp only
    all_goals grind [Function.update_apply, Returned]
  exact inv.touch
    { touches with
      elsewhere := by simp [at_]
      rq := rfl
      joiner := fun _ none_ => none_.elim
      active := inv.active
      state := .inr ⟨rfl, by simp [at_]⟩
      own := by simp [Ok]
      called := inv.called_end (.inl (by simp [at_, Pc.handle])) rfl
      stack := by simpa [Pc.stack] using inv.stack_cur at_
      saved := by simp
      others := fun _ _ none_ => none_.elim
      given := by rintro g t rfl; simp
      places := inv.places
      records := inv.records.settle back real
      offStack := inv.offStack
      idle := inv.idle
      finishes := inv.finishes }

/-- A program overwrites a handle with an empty one. -/
theorem Inv.overwrite (inv : a.Inv strict) (at_ : a.at_ a.cur = .user) (free : a.busy h = none)
    (number : Nat) :
    { a with handles := update a.handles h none, owner := update a.owner h number : Life }.Inv
      strict := by
  have touches : Touches (· = h) (fun _ => False) a
      { a with handles := update a.handles h none, owner := update a.owner h number } := by
    constructor
    all_goals try dsimp only
    all_goals grind [Function.update_apply, Returned]
  exact inv.touch
    { touches with
      elsewhere := by simp [at_]
      rq := rfl
      joiner := fun _ none_ => none_.elim
      active := inv.active
      state := .inr ⟨rfl, by simp [at_]⟩
      own := by simp [Ok, at_]
      called := inv.called_on rfl rfl
      stack := inv.stack_cur rfl
      saved := by simp [at_]
      others := fun _ _ none_ => none_.elim
      given := by rintro g t rfl; simp
      places := inv.places
      records := inv.records
      offStack := inv.offStack
      idle := inv.idle
      finishes := inv.finishes }

/-- A running task is detached, and nothing refers to it any more. -/
theorem Inv.detach (inv : a.Inv strict) (at_ : a.at_ a.cur = .user) (free : a.busy h = none)
    (points : a.handles h = some t) (going : a.state t ≠ .stopped) :
    (({ a with detached := update a.detached t true }.settle h).rephase t (.active none)).Inv
      strict := by
  obtain ⟨-, held, number⟩ := inv.free h t free points
  have touches : Touches (· = h) (· = t) a
      (({ a with detached := update a.detached t true }.settle h).rephase t (.active none)) := by
    unfold Life.settle Life.rephase
    constructor
    all_goals try dsimp only
    all_goals grind [Function.update_apply, Owned, Returned, Live]
  have kind : (a.phase t).kind = .active true := by simp [held, Phase.kind]
  have kinds := kind_update a.phase t (.active none)
  have records : Records (update (fun b => (a.phase b).kind) t (.active false)) a.spawn
      (update a.detached t true) (a.returned.map Return.spawn) (a.owner h :: a.settled) a.next :=
    number ▸ inv.records.detach kind
  have idle : Idle (update (fun b => (a.phase b).kind) t (.active false)) a.state a.joiner
      a.scheduled := by
    obtain ⟨gone, building⟩ := inv.idle
    constructor
    all_goals grind [Function.update_apply]
  have active : ∃ holder, update a.phase t (.active none) a.cur = .active holder := by
    by_cases here : a.cur = t
    · exact ⟨_, by rw [here, update_self]⟩
    · rw [update_of_ne here]
      exact inv.active
  exact inv.touch
    { touches with
      elsewhere := by simp [at_]
      rq := rfl
      joiner := fun _ _ _ => rfl
      active
      state := .inr ⟨rfl, by simp [at_]⟩
      own := by simp [Ok, at_]
      called := inv.called_end (.inr (by simp [at_, Pc.handle])) rfl
      stack := inv.stack_cur rfl
      saved := by simp [at_]
      others := by
        rintro b g rfl other free same
        exact other (by simpa [held] using same.symm)
      given := by rintro g u rfl; simp
      places := inv.places.rephase (by simp [held, placed]) rfl
      records := kinds ▸ records
      offStack := inv.offStack
      idle := kinds ▸ idle
      finishes := by
        intro b holder task detached
        by_cases here : b = t
        · exact ⟨by simpa [here, eq_comm] using task, .inl (here ▸ going)⟩
        · exact inv.finishes b holder (by simpa [here] using task)
            (by simpa [here] using detached) }

/-- `join` on a task that has not stopped: the running task becomes its joiner. -/
theorem Inv.wait (inv : a.Inv strict) (wanted : Bool) (at_ : a.at_ a.cur = .user)
    (free : a.busy h = none) (points : a.handles h = some t) (going : a.state t ≠ .stopped)
    (unjoined : a.joiner t = none) :
    ((({ a with joiner := update a.joiner t (some a.cur) }.setState a.cur .waiting).reserve h).goto
      (.joinYield h wanted)).Inv strict := by
  have refers := inv.free h t free points
  have touches : Touches (· = h) (· = t) a
      ((({ a with joiner := update a.joiner t (some a.cur) }.setState a.cur .waiting).reserve
        h).goto (.joinYield h wanted)) := by
    have held := refers.2.1
    unfold Life.goto Life.reserve Life.setState
    constructor
    all_goals try dsimp only
    all_goals grind [Function.update_apply, Owned, Returned, Live]
  have frame := touches.frame inv.live_cur
  have off : some a.cur ∉ a.rq.runqueue := (List.nodup_cons.mp inv.queues.nodup).1
  have live : ∀ b, a.Live b → update a.state a.cur .waiting b ≠ .stopped := by
    intro b live
    by_cases here : b = a.cur
    · simp [here]
    · simpa [here] using live.2
  have idle : Idle (fun b => (a.phase b).kind) (update a.state a.cur .waiting)
      (update a.joiner t (some a.cur)) a.scheduled := by
    obtain ⟨gone, building⟩ := inv.idle
    obtain ⟨holder, active⟩ := inv.active
    have held := refers.2.1
    constructor
    all_goals grind [Function.update_apply, Phase.kind]
  refine inv.step
    { frame with
      elsewhere := by simp [at_]
      queues := frame.queues inv.queues rfl
      off := fun _ _ member => member
      active := inv.active
      going := by simp
      own := by simpa [Ok, Refers] using ⟨t, refers⟩
      called := inv.called_begin (by simp [at_, Pc.handle]) rfl (by simp [Pc.handle])
      stack := by simpa [Pc.stack] using inv.stack_cur at_
      saved := by simp
      state := fun _ => .inr (.inr ⟨t, ⟨⟨_, refers.2.1⟩, live t ⟨⟨_, refers.2.1⟩, going⟩⟩, by simp⟩)
      places := inv.places
      free := ?_
      joined := ?_
      joins := ?_
      records := inv.records
      offStack := inv.offStack
      idle
      finishes := ?_ }
  · intro g u unused held
    by_cases here : g = h
    · simp [here] at unused
    · exact inv.free g u (by simpa [here] using unused) held
  · intro b j alive joined
    by_cases here : b = t
    · subst here
      obtain rfl : a.cur = j := by simpa using joined
      exact .inr ⟨by simp, inv.active, off, h, wanted, .inl (by simp), points, by simp⟩
    · refine .inl ⟨⟨alive.1, ?_⟩, by simpa [here] using joined⟩
      by_cases own : b = a.cur
      · exact own ▸ inv.going
      · simpa [own] using alive.2
  · intro b j _ joined
    have other : b ≠ t := by
      rintro rfl
      simp [unjoined] at joined
    simpa [other] using joined
  · intro b holder task detached
    obtain ⟨unheld, going⟩ := inv.finishes b holder task detached
    refine ⟨unheld, ?_⟩
    by_cases here : b = a.cur
    · exact .inr here
    · exact .inl (by simpa [here] using going)

/-- `spawn` schedules the task it has started. -/
theorem Inv.publish (inv : a.Inv strict) {rq : Rq} (at_ : a.at_ a.cur = .started t h)
    (pushed : rq.runqueue.Perm (some t :: a.rq.runqueue))
    (asleep : rq.sleepqueue = a.rq.sleepqueue) :
    ((({ a with rq := rq, scheduled := update a.scheduled t true }.rephase t
      (.active (some (.spawner a.cur)))).goto (.spawned t h))).Inv strict := by
  have own : a.Ok a.cur (.started t h) := at_ ▸ inv.ok_cur
  obtain ⟨fills, built, ⟨unjoined, attached⟩, first, stack, suspended⟩ := own
  obtain ⟨holder, active⟩ := inv.active
  have apart : a.cur ≠ t := by grind
  have member : ∀ b, some b ∈ rq.runqueue ↔ b = t ∨ some b ∈ a.rq.runqueue := by
    intro b
    simp [pushed.mem_iff]
  have touches : Touches (fun _ => False) (· = t) a
      ((({ a with rq := rq, scheduled := update a.scheduled t true }.rephase t
        (.active (some (.spawner a.cur)))).goto (.spawned t h))) := by
    unfold Life.goto Life.rephase
    constructor
    all_goals try dsimp only
    all_goals grind [Function.update_apply, Owned, Returned, Live]
  have frame := touches.frame inv.live_cur
  have kinds := kind_update a.phase t (.active (some (.spawner a.cur)))
  have kind : (a.phase t).kind = .building := by simp [built, Phase.kind]
  have records : Records (update (fun b => (a.phase b).kind) t (.active true)) a.spawn a.detached
      (a.returned.map Return.spawn) a.settled a.next := inv.records.activate kind true
  have idle : Idle (update (fun b => (a.phase b).kind) t (.active true)) a.state a.joiner
      (update a.scheduled t true) := by
    obtain ⟨gone, building⟩ := inv.idle
    constructor
    all_goals grind [Function.update_apply]
  have absent : some t ∉ a.rq.runqueue := by
    intro queued
    obtain ⟨⟨holder, task⟩, -⟩ := inv.queues.live t queued
    simp [built] at task
  refine inv.step
    { frame with
      elsewhere := by simp [at_]
      queues := ?_
      off := ?_
      active := ⟨holder, by simp [apart, active]⟩
      going := inv.going
      own := by
        simp only [goto_at_, rephase_cur, update_self]
        refine ⟨fills.keep ⟨rfl, rfl, rfl⟩ fun u held => ?_, update_self ..⟩
        have other : u ≠ t := by rintro rfl; simp [built] at held
        exact ⟨update_of_ne other .., rfl⟩
      called := inv.called_on rfl (by simp [at_, Pc.handle])
      stack := by simpa [Pc.stack] using inv.stack_cur at_
      saved := by simp
      state := fun kept => .inl (inv.state_running kept (by simp [at_]) (by simp [at_]))
      places := inv.places.rephase (by simp [built, placed]) rfl
      free := ?_
      joined := ?_
      joins := fun _ _ _ joined => joined
      records := kinds ▸ records
      offStack := inv.offStack
      idle := kinds ▸ idle
      finishes := ?_ }
  · obtain ⟨running, awake, nonNull, nodup, live⟩ := inv.queues
    refine ⟨running, asleep.trans awake, ?_, ?_, ?_⟩
    · simpa [pushed.mem_iff] using nonNull
    · have perm : (some a.cur :: rq.runqueue).Perm (some t :: some a.cur :: a.rq.runqueue) :=
        (pushed.cons _).trans (.swap _ _ _)
      refine perm.nodup_iff.mpr (List.nodup_cons.mpr ⟨?_, nodup⟩)
      simpa [apart.symm] using absent
    · intro b queued
      rcases (member b).mp queued with rfl | old
      · exact ⟨⟨_, by simp; rfl⟩, by simp [suspended]⟩
      · have other : b ≠ t := by
          rintro rfl
          exact absent old
        obtain ⟨task, going⟩ := live b old
        exact ⟨by simpa [other] using task, going⟩
  · intro j live queued
    rcases (member j).mp queued with rfl | old
    · obtain ⟨⟨holder, task⟩, -⟩ := live
      simp [built] at task
    · exact old
  · intro g u unused points
    obtain ⟨points, phase, number⟩ := inv.free g u unused points
    have other : u ≠ t := by
      rintro rfl
      simp [built] at phase
    exact ⟨points, by simpa [other] using phase, number⟩
  · intro b j live joined
    have other : b ≠ t := by
      rintro rfl
      simp [unjoined] at joined
    exact .inl ⟨⟨by simpa [other] using live.1, live.2⟩, joined⟩
  · intro b holder task detached
    by_cases here : b = t
    · simp [here, attached] at detached
    · exact inv.finishes b holder (by simpa [here] using task) detached

end Gthread.Life

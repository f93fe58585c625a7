import Gthread.Concur.RingBufferFifo
import Gthread.Lib.ObjectLifetime

/-! The objects in the slots of a buffered channel, from first write to the end of the buffer. -/

namespace Gthread

open Function (update update_of_ne update_self)
open ObjectLifetime (Event replay Lawful Balanced)

/-- The party that calls a function of the channel. -/
def ChannelLabel.caller {α : Type} : ChannelLabel α → Option Party
  | .read => some .reader
  | .write _ => some .writer
  | .close p => some p
  | _ => none

namespace Ring

variable {α : Type}

/-- Whether a party is outside the functions of the buffer. -/
def idle (s : Ring α) : Party → Bool
  | .reader => match s.reader with
    | .idle => true
    | _ => false
  | .writer => match s.writer with
    | .idle => true
    | _ => false

/-- What the next statement of the running party does to the objects in the slots. -/
def objectEvents (size : RingSize) (s : Ring α) : List (Event (BitVec 64)) :=
  match s.waiter.cpu.running with
  | none => []
  | some .reader => match s.reader with
    -- The value is moved out, and then its destructor is called.
    | .take r => [.read (r &&& size.mask), .destroy (r &&& size.mask)]
    | _ => []
  | some .writer => match s.writer with
    -- The placement `new`.
    | .put _ w => [.construct (w &&& size.mask)]
    | _ => []

/-- What a step does to the objects in the slots. -/
def eventsOf (size : RingSize) (s : Ring α) : ChannelLabel α → List (Event (BitVec 64))
  | .run => s.objectEvents size
  | _ => []

/-- The destructor of `ring_buffer`: it is the implicit one, for which `_buffer` is mere bytes. -/
def destructor (_ : Ring α) : List (Event (BitVec 64)) := []

end Ring

/-- What has become of a lambda of the channel, each of which holds a `close_wrapper`. -/
inductive Endpoint where
  | held
  -- In the destructor of the wrapper, which calls `close` first.
  | closing
  | released
  deriving DecidableEq, Repr

/-- What happens next to the two parties of a buffered channel. -/
inductive BufferedLabel (α : Type) where
  | ring (l : ChannelLabel α)
  -- A party destroys its lambda; `close` returns, and the `shared_ptr` goes.
  | release (p : Party)
  | drop (p : Party)
  deriving Repr

/-- A channel of `make_buffered_channel`, with the history of the objects in its slots. -/
structure Buffered (α : Type) where
  ring : Ring α
  endpoint : Party → Endpoint
  destroyed : Bool
  events : List (Event (BitVec 64))

namespace Buffered

variable {α : Type}

/-- Only a party that holds its lambda calls it. -/
def permits (s : Buffered α) (l : ChannelLabel α) : Prop :=
  ∀ p ∈ l.caller, s.endpoint p = .held

instance (s : Buffered α) (l : ChannelLabel α) : Decidable (s.permits l) :=
  inferInstanceAs (Decidable (∀ p ∈ l.caller, s.endpoint p = .held))

/-- One step of the two parties and their scheduler. -/
def step (size : RingSize) (s : Buffered α) : BufferedLabel α → Except Fault (Buffered α)
  | .ring l =>
    if s.destroyed = false ∧ s.permits l then do
      let ring ← s.ring.step size l
      return { s with ring, events := s.events ++ s.ring.eventsOf size l }
    else .error .disabled
  | .release p =>
    if s.endpoint p = .held then do
      let ring ← s.ring.step size (.close p)
      return { s with ring, endpoint := update s.endpoint p .closing }
    else .error .disabled
  | .drop p =>
    if s.endpoint p = .closing ∧ s.ring.waiter.cpu.running = some p ∧ s.ring.idle p = true then
      let endpoint := update s.endpoint p .released
      -- The last owner destroys the buffer.
      if s.endpoint p.other = .released then
        .ok { s with endpoint, destroyed := true, events := s.events ++ s.ring.destructor }
      else .ok { s with endpoint }
    else .error .disabled

/-- A new channel. -/
def start : Buffered α := ⟨Ring.start, fun _ => .held, false, []⟩

end Buffered

namespace Waiter

variable {ι : Type} [DecidableEq ι] {w : Waiter ι} {p : ι}

/-- A statement of a waiter has defined behaviour. -/
theorem step_ne_undefined {closed : Bool} {pc : WaiterPc ι} :
    w.step p closed pc ≠ .error .undefined := by
  cases pc <;> simp only [step, ne_eq] <;> try split
  all_goals simp

/-- So has a statement of the loop that unparks. -/
theorem drain_ne_undefined {pc : DrainPc ι} : w.drain p pc ≠ .error .undefined := by
  cases pc with
  | unpark pc =>
    cases done : w.step p false pc with
    | error fault =>
      intro fails
      simp only [drain, done, Bind.bind, Except.bind, Except.error.injEq] at fails
      exact step_ne_undefined (fails ▸ done)
    | ok result =>
      obtain ⟨_ | _ | _, waiter⟩ := result <;>
        simp [drain, done, Bind.bind, Except.bind, pure, Except.pure]
  | _ => simp [drain]

end Waiter

namespace Ring

variable {α : Type} {size : RingSize} {s s' : Ring α} {l : ChannelLabel α} {base : Nat}

/-- Where an object lives in the buffer. -/
def live (s : Ring α) (x : BitVec 64) : Bool := (s.buffer x).isSome

/-- A statement of the reader destroys the object that it reads, and no other one. -/
theorem Reads.objectEvents (running : s.waiter.cpu.running = some .reader)
    (reads : Reads size s s') : replay s.live (s.objectEvents size) = some s'.live := by
  cases reads with
  | @take r v at_ found =>
    have there : s.live (r &&& size.mask) = true := by rw [live, found]; rfl
    have after : update s.live (r &&& size.mask) false =
        live { s with
          buffer := update s.buffer (r &&& size.mask) none, reader := .storeR r v } := by
      funext x
      by_cases here : x = r &&& size.mask
      · simp [live, here]
      · simp [live, here]
    simp [Ring.objectEvents, running, at_, replay, ObjectLifetime.apply, there, after]
  | _ at_ => simp [Ring.objectEvents, running, at_, replay]; rfl

/-- A statement of the writer constructs an object in raw storage, if at all. -/
theorem Writes.objectEvents (running : s.waiter.cpu.running = some .writer)
    (vacant : ∀ v w, s.writer = .put v w → s.buffer (w &&& size.mask) = none)
    (writes : Writes size s s') : replay s.live (s.objectEvents size) = some s'.live := by
  cases writes with
  | @put v w at_ =>
    have raw : s.live (w &&& size.mask) = false := by rw [live, vacant v w at_]; rfl
    have after : update s.live (w &&& size.mask) true =
        live { s with
          buffer := update s.buffer (w &&& size.mask) (some v), writer := .storeW v w } := by
      funext x
      by_cases here : x = w &&& size.mask
      · simp [live, here]
      · simp [live, here]
    simp [Ring.objectEvents, running, at_, replay, ObjectLifetime.apply, raw, after]
  | _ at_ => simp [Ring.objectEvents, running, at_, replay]; rfl

/-- The history of the slots follows what they hold. -/
theorem Steps.eventsOf (fifo : s.Fifo size) (steps : Steps size s l s') :
    replay s.live (s.eventsOf size l) = some s'.live := by
  have vacant : ∀ v w, s.writer = .put v w → s.buffer (w &&& size.mask) = none := by
    intro v w at_
    obtain ⟨rfl, raw⟩ := fifo.vacant v w at_
    exact raw
  cases steps with
  | reads running reads => exact reads.objectEvents running
  | writes running writes => exact writes.objectEvents running vacant
  | _ => rfl

/-- A party outside the buffer stays there until it calls a function. -/
theorem Steps.idle (steps : Steps size s l s') {p : Party} (away : l.caller ≠ some p)
    (out : s.idle p = true) : s'.idle p = true := by
  cases steps with
  | reads running reads =>
    cases p with
    | reader => cases reads <;> simp_all [Ring.idle]
    | writer => cases reads <;> exact out
  | writes running writes =>
    cases p with
    | reader => cases writes <;> exact out
    | writer => cases writes <;> simp_all [Ring.idle]
  | preempt => exact out
  | dispatch => exact out
  | read | readerCloses =>
    cases p with
    | reader => exact absurd rfl away
    | writer => exact out
  | write | writerCloses =>
    cases p with
    | reader => exact out
    | writer => exact absurd rfl away

/-- Only the move out of raw storage would be undefined. -/
theorem takes_of_undefined (fails : s.step size l = .error .undefined) :
    ∃ r, s.reader = .take r ∧ s.buffer (r &&& size.mask) = none := by
  -- Errors of the waiter are failed assertions.
  have waits : ∀ p closed pc, s.waiter.step p closed pc ≠ .error .undefined :=
    fun p closed pc => Waiter.step_ne_undefined
  have drains : ∀ p pc, s.waiter.drain p pc ≠ .error .undefined :=
    fun p pc => Waiter.drain_ne_undefined
  cases l with
  | run =>
    simp only [Ring.step] at fails
    split at fails
    · cases fails
    · unfold runReader at fails
      cases at_ : s.reader with
      | take r =>
        simp only [at_] at fails
        split at fails
        · exact ⟨r, rfl, by assumption⟩
        · cases fails
      | park r w pc loadedClosed =>
        cases done : s.waiter.step .reader s.closed pc with
        | error fault =>
          simp only [at_, done, Bind.bind, Except.bind, Except.error.injEq] at fails
          exact absurd (fails ▸ done) (waits _ _ _)
        | ok result =>
          obtain ⟨_ | _, waiter⟩ := result <;>
            simp [at_, done, Bind.bind, Except.bind, pure, Except.pure] at fails
      | drain v pc | closeDrain pc =>
        cases done : s.waiter.drain .reader pc with
        | error fault =>
          simp only [at_, done, Bind.bind, Except.bind, Except.error.injEq] at fails
          exact absurd (fails ▸ done) (drains _ _)
        | ok result =>
          obtain ⟨_ | _, waiter⟩ := result <;>
            simp [at_, done, Bind.bind, Except.bind, pure, Except.pure] at fails
      | _ => simp [at_] at fails
    · unfold runWriter at fails
      cases at_ : s.writer with
      | park v w r pc loadedClosed =>
        cases done : s.waiter.step .writer s.closed pc with
        | error fault =>
          simp only [at_, done, Bind.bind, Except.bind, Except.error.injEq] at fails
          exact absurd (fails ▸ done) (waits _ _ _)
        | ok result =>
          obtain ⟨_ | _, waiter⟩ := result <;>
            simp [at_, done, Bind.bind, Except.bind, pure, Except.pure] at fails
      | drain v pc | closeDrain pc =>
        cases done : s.waiter.drain .writer pc with
        | error fault =>
          simp only [at_, done, Bind.bind, Except.bind, Except.error.injEq] at fails
          exact absurd (fails ▸ done) (drains _ _)
        | ok result =>
          obtain ⟨_ | _, waiter⟩ := result <;>
            simp [at_, done, Bind.bind, Except.bind, pure, Except.pure] at fails
      | _ => simp [at_] at fails
  | close p =>
    cases p <;> simp only [Ring.step] at fails <;> split at fails <;> cases fails
  | _ =>
    simp only [Ring.step] at fails
    split at fails <;> cases fails

/-- With both parties outside, objects live in the slots of the values that were not read. -/
theorem dead_iff (ordered : s.Ordered size base) (vacant : s.Vacant size base)
    (out : ∀ p, s.idle p = true) : (∀ x, s.live x = false) ↔ s.r = s.w := by
  have reader : s.reader = .idle := by
    have outside := out .reader
    cases at_ : s.reader <;> simp_all [Ring.idle]
  have writer : s.writer = .idle := by
    have outside := out .writer
    cases at_ : s.writer <;> simp_all [Ring.idle]
  have empty : s.r = s.w ↔ s.pushed.length = s.taken := by
    have counters := ordered.sub_eq_iff 0
    have behind := ordered.behind
    have zero : (0 : BitVec 64).toNat = 0 := rfl
    constructor
    · intro same
      have := counters.mp (by rw [same]; exact BitVec.sub_self _)
      omega
    · intro same
      have := counters.mpr (by omega)
      bv_omega
  rw [empty]
  constructor
  · intro dead
    by_contra unread
    have behind := ordered.behind
    -- The oldest unread value is in the buffer.
    have held := ordered.buffer s.taken le_rfl (by omega) fun _ => by rw [reader]; rfl
    have gone := dead (BitVec.ofNat 64 (base + s.taken) &&& size.mask)
    rw [live, held, List.getElem?_eq_getElem (by omega)] at gone
    cases gone
  · intro all x
    by_contra alive
    have full : s.buffer x ≠ none := by
      intro raw
      exact alive (by rw [live, raw]; rfl)
    rcases vacant x full with ⟨i, low, high, -⟩ | ⟨v, w, stores, -⟩
    · omega
    · rw [writer] at stores
      cases stores

end Ring

namespace Buffered

variable {α : Type} {size : RingSize} {s s' : Buffered α} {l : BufferedLabel α}

/-- The buffer is in order, its slots are as their history says, and it outlives its parties. -/
structure Inv (size : RingSize) (s : Buffered α) : Prop where
  bounded : s.ring.Bounded size 0
  replayed : replay (fun _ => false) s.events = some s.ring.live
  out : ∀ p, s.endpoint p = .released → s.ring.idle p = true
  ended : s.destroyed = true → ∀ p, s.endpoint p = .released

theorem inv_start : (start : Buffered α).Inv size where
  bounded := Ring.bounded_startAt 0
  replayed := rfl
  out _ released := nomatch released
  ended destroyed := nomatch destroyed

/-- A step of the buffer keeps the invariant, and the history follows it. -/
theorem Inv.ring (inv : s.Inv size) {l : ChannelLabel α} {ring : Ring α}
    (steps : Ring.Steps size s.ring l ring) {endpoint : Party → Endpoint}
    (away : ∀ p, endpoint p = .released → s.endpoint p = .released ∧ l.caller ≠ some p)
    (open_ : s.destroyed = false) :
    { s with ring, endpoint, events := s.events ++ s.ring.eventsOf size l }.Inv size := by
  obtain ⟨bounded, replayed, out, -⟩ := inv
  have fifo := bounded.fifo
  refine ⟨bounded.own steps, ?_, fun p released => ?_, fun destroyed => ?_⟩
  · show replay _ (_ ++ _) = _
    rw [ObjectLifetime.replay_append, replayed]
    exact steps.eventsOf fifo
  · obtain ⟨before, other⟩ := away p released
    exact steps.idle other (out p before)
  · exact absurd (open_.symm.trans destroyed) (by decide)

/-- Every step keeps the invariant. -/
theorem Inv.step (inv : s.Inv size) (ok : s.step size l = .ok s') : s'.Inv size := by
  cases l with
  | ring l =>
    simp only [Buffered.step] at ok
    split at ok
    · rename_i allowed
      cases done : s.ring.step size l with
      | error fault => simp [done, Bind.bind, Except.bind] at ok
      | ok ring =>
        simp only [done, Bind.bind, Except.bind, pure, Except.pure, Except.ok.injEq] at ok
        subst ok
        refine inv.ring (Ring.steps_of_ok done) (fun p released => ⟨released, fun calls => ?_⟩)
          allowed.1
        rw [allowed.2 p calls] at released
        cases released
    · cases ok
  | release p =>
    simp only [Buffered.step] at ok
    split at ok
    · rename_i held
      cases done : s.ring.step size (.close p) with
      | error fault => simp [done, Bind.bind, Except.bind] at ok
      | ok ring =>
        simp only [done, Bind.bind, Except.bind, pure, Except.pure, Except.ok.injEq] at ok
        subst ok
        have open_ : s.destroyed = false := by
          by_contra gone
          have := inv.ended (by simpa using gone) p
          rw [held] at this
          cases this
        -- The call itself constructs and destroys nothing.
        have same : s.events ++ s.ring.eventsOf size (.close p) = s.events := List.append_nil _
        have away : ∀ q, update s.endpoint p .closing q = .released →
            s.endpoint q = .released ∧ (ChannelLabel.close p : ChannelLabel α).caller ≠ some q := by
          intro q released
          by_cases here : q = p
          · simp [here] at released
          · exact ⟨by simpa [here] using released, fun calls => here (Option.some.inj calls).symm⟩
        have kept := inv.ring (Ring.steps_of_ok done) away open_
        rwa [same] at kept
    · cases ok
  | drop p =>
    simp only [Buffered.step] at ok
    split at ok
    · rename_i ready
      have out : ∀ q, update s.endpoint p .released q = .released → s.ring.idle q = true := by
        intro q released
        by_cases here : q = p
        · exact here ▸ ready.2.2
        · exact inv.out q (by simpa [here] using released)
      split at ok
      · rename_i other
        cases ok
        refine ⟨inv.bounded, ?_, out, fun _ q => ?_⟩
        · rw [Ring.destructor, List.append_nil]
          exact inv.replayed
        · rcases Party.eq_or_other p q with rfl | rfl
          · exact update_self ..
          · exact (update_of_ne (Party.other_ne p) ..).trans other
      · rename_i other
        cases ok
        refine ⟨inv.bounded, inv.replayed, out, fun gone => ?_⟩
        exact absurd (inv.ended gone p.other) other
    · cases ok

/-- The invariant holds in every state reached. -/
theorem inv_of_reaches
    (reached : Run.Reaches (step size) (fun _ _ => True) (start : Buffered α) s) : s.Inv size :=
  reached.invariant (P := fun s => s.Inv size) inv_start fun _ _ _ inv _ ok => inv.step ok

/-- No step reads or destroys where no object lives. -/
theorem Inv.defined (inv : s.Inv size) (l : BufferedLabel α) :
    s.step size l ≠ .error .undefined := by
  have fifo := inv.bounded.fifo
  have ring : ∀ l, s.ring.step size l ≠ .error .undefined := by
    intro l fails
    obtain ⟨r, at_, raw⟩ := Ring.takes_of_undefined fails
    obtain ⟨rfl, v, found, -⟩ := fifo.unread r at_
    rw [raw] at found
    cases found
  intro fails
  cases l with
  | ring l =>
    simp only [Buffered.step] at fails
    split at fails
    · cases done : s.ring.step size l with
      | error fault =>
        simp only [done, Bind.bind, Except.bind, Except.error.injEq] at fails
        exact ring l (fails ▸ done)
      | ok ring => simp [done, Bind.bind, Except.bind, pure, Except.pure] at fails
    · cases fails
  | release p =>
    simp only [Buffered.step] at fails
    split at fails
    · cases done : s.ring.step size (.close p) with
      | error fault =>
        simp only [done, Bind.bind, Except.bind, Except.error.injEq] at fails
        exact ring _ (fails ▸ done)
      | ok ring => simp [done, Bind.bind, Except.bind, pure, Except.pure] at fails
    · cases fails
  | drop p =>
    simp only [Buffered.step] at fails
    split at fails
    · split at fails <;> cases fails
    · cases fails

/-- Slots are handled lawfully, and at the end of the buffer each object that was constructed in
one has been destroyed exactly when no value is left unread. -/
theorem balanced_iff_of_reaches
    (reached : Run.Reaches (step size) (fun _ _ => True) (start : Buffered α) s) :
    Lawful s.events ∧ (∀ l, s.step size l ≠ .error .undefined) ∧
      (s.destroyed = true → (Balanced s.events ↔ s.ring.r = s.ring.w)) := by
  have inv := inv_of_reaches reached
  refine ⟨?_, inv.defined, fun destroyed => ?_⟩
  · rw [Lawful, inv.replayed]
    rfl
  · rw [ObjectLifetime.balanced_iff inv.replayed]
    exact Ring.dead_iff inv.bounded.ordered inv.bounded.vacant fun p =>
      inv.out p (inv.ended destroyed p)

/-- Writing one value. -/
def writeOne : List (BufferedLabel Nat) :=
  [.ring (.dispatch .writer), .ring (.write 7)] ++ List.replicate 7 (.ring .run)

/-- The running party releases its end, while nobody is parked. -/
def releaseBy (p : Party) : List (BufferedLabel Nat) :=
  [.release p, .ring .run, .ring .run, .drop p]

/-- The value is read before both ends are released. -/
def readAll : List (BufferedLabel Nat) :=
  List.flatten [writeOne, releaseBy .writer,
    [.ring .preempt, .ring (.dispatch .reader), .ring .read],
    List.replicate 6 (.ring .run), releaseBy .reader]

/-- A value that was read is accounted for. -/
theorem balanced_iff_of_reaches_read : ∃ s : Buffered Nat, s.destroyed = true ∧
    s.events = [.construct 0, .read 0, .destroy 0] ∧ Lawful s.events ∧ Balanced s.events := by
  have run : ∃ s : Buffered Nat, Run.Reaches (step Ring.four) (fun _ _ => True) start s ∧
      s.destroyed = true ∧ s.events = [.construct 0, .read 0, .destroy 0] ∧ s.ring.r = s.ring.w :=
    Run.Reaches.of_check readAll (by decide +kernel)
  obtain ⟨s, reached, destroyed, events, read⟩ := run
  obtain ⟨lawful, -, balanced⟩ := balanced_iff_of_reaches reached
  exact ⟨s, destroyed, events, lawful, (balanced destroyed).mpr read⟩

/-- Both ends are released with the value still queued. -/
def readNothing : List (BufferedLabel Nat) :=
  List.flatten [writeOne, releaseBy .writer, [.ring .preempt, .ring (.dispatch .reader)],
    releaseBy .reader]

/-- A value that was not read is never destroyed. -/
theorem queued_value_leaks : ∃ s : Buffered Nat,
    Run.Reaches (step Ring.four) (fun _ _ => True) start s ∧ s.destroyed = true ∧
      s.events = [.construct 0] ∧ ¬ Balanced s.events := by
  have run : ∃ s : Buffered Nat, Run.Reaches (step Ring.four) (fun _ _ => True) start s ∧
      s.destroyed = true ∧ s.events = [.construct 0] :=
    Run.Reaches.of_check readNothing (by decide +kernel)
  obtain ⟨s, reached, destroyed, events⟩ := run
  refine ⟨s, reached, destroyed, events, fun balanced => ?_⟩
  have once := balanced 0
  rw [events] at once
  exact absurd once (by decide)

end Buffered

end Gthread

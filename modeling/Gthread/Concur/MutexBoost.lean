import Mathlib.Data.Set.Card
import Mathlib.Order.Interval.Finset.Nat
import Gthread.Concur.MutexExclusion

/-! The two copies of the priority boost: that of a mutex, and that of the task that owns it. -/

namespace Gthread

open Function (update update_of_ne update_self)

variable {ι : Type}

namespace MutexPc

/-- Whether a task in `lock` has counted itself as a contender, and not uncounted itself since. -/
def counted : MutexPc ι → Bool
  | .boostOwner | .emplace | .release _ | .park _ _ | .assertParked _ | .acquire .again
  | .spin .again | .unboost => true
  | _ => false

/-- Whether the next statement brings the two copies of the boost together again. -/
def between : MutexPc ι → Bool
  | .boostOwner | .setBoost | .zeroBoost => true
  | _ => false

/-- The copies are apart under the spin lock only. -/
theorem critical_of_between {pc : MutexPc ι} (apart : pc.between = true) : pc.critical = true := by
  cases pc <;> first | rfl | cases apart

end MutexPc

namespace Mutex

/-- The tasks that have counted themselves. -/
def contenders (s : Mutex ι) : Set ι := {p | (s.pc p).counted = true}

/-- The mutex counts its contenders, its owner has the same boost, and nobody else has any. -/
structure Accounted (s : Mutex ι) : Prop where
  count : s.boost.toNat = s.contenders.ncard
  owner : ∀ o, s.owner = some o → s.taskBoost o = s.boost
  others : ∀ p, s.owner ≠ some p → s.taskBoost p = 0

/-- No statement changes one copy of the boost alone: a contender does not uncount itself while the
mutex is owned again, and the fast path of `unlock` is not taken while somebody is counted. -/
def Mirrors (s : Mutex ι) : MutexLabel ι → Prop
  | .run => ∀ p ∈ s.lot.cpu.running,
    (s.pc p = .unboost → s.owner = none) ∧ (s.pc p = .clearFast → s.boost = 0)
  | _ => True

variable [DecidableEq ι] {s s' : Mutex ι} {l : MutexLabel ι} {p q : ι}

instance (s : Mutex ι) (l : MutexLabel ι) : Decidable (Mirrors s l) := by
  cases l
  case run =>
    exact inferInstanceAs (Decidable (∀ p ∈ s.lot.cpu.running,
      (s.pc p = .unboost → s.owner = none) ∧ (s.pc p = .clearFast → s.boost = 0)))
  all_goals exact inferInstanceAs (Decidable True)

/-! ### The count of the mutex -/

/-- The count of the mutex changes where a task counts or uncounts itself. -/
theorem Runs.counted_cases (runs : Runs p s s') :
    ((s'.pc p).counted = (s.pc p).counted ∧ s'.boost = s.boost) ∨
    ((s.pc p).counted = false ∧ (s'.pc p).counted = true ∧ s'.boost = s.boost + 1) ∨
    ((s.pc p).counted = true ∧ (s'.pc p).counted = false ∧ s'.boost = s.boost - 1) := by
  cases runs with
  | @busy site at_ locked => cases site <;> simp [goto, at_, MutexPc.counted]
  | @acquired site at_ free => cases site <;> simp [Mutex.acquired, goto, at_, MutexPc.counted]
  | @spin site at_ => cases site <;> simp [goto, at_, MutexPc.counted]
  | _ at_ => simp [goto, at_, MutexPc.counted]

/-- The mutex counts its contenders, as many as there are. -/
structure Counts (s : Mutex ι) : Prop where
  finite : s.contenders.Finite
  boost : s.boost = BitVec.ofNat 64 s.contenders.ncard

omit [DecidableEq ι] in
/-- Moving tasks between statements of the same kind keeps the contenders. -/
theorem contenders_congr (pc : ∀ q, (s'.pc q).counted = (s.pc q).counted) :
    s'.contenders = s.contenders := by
  ext q
  exact Eq.congr_left (pc q)

/-- A statement keeps the count. -/
theorem Counts.runs (counts : s.Counts) (runs : Runs p s s') : s'.Counts := by
  have others : ∀ q, q ≠ p → (s'.pc q).counted = (s.pc q).counted :=
    fun q other => by rw [runs.pc_other other]
  rcases runs.counted_cases with ⟨same, boost⟩ | ⟨out, inside, boost⟩ | ⟨inside, out, boost⟩
  · have kept : s'.contenders = s.contenders := by
      refine contenders_congr fun q => ?_
      by_cases here : q = p
      · rw [here, same]
      · exact others q here
    exact ⟨kept ▸ counts.finite, by rw [boost, kept, counts.boost]⟩
  · -- The task joins the contenders.
    have joined : s'.contenders = insert p s.contenders := by
      ext q
      by_cases here : q = p
      · simp [contenders, here, inside]
      · simp [contenders, here, others q here]
    have new : p ∉ s.contenders := by simp [contenders, out]
    refine ⟨joined ▸ counts.finite.insert p, ?_⟩
    rw [boost, joined, Set.ncard_insert_of_notMem new counts.finite, counts.boost,
      BitVec.ofNat_add]
    rfl
  · -- The task leaves the contenders, among which it was.
    have left : s'.contenders = s.contenders \ {p} := by
      ext q
      by_cases here : q = p
      · simp [contenders, here, out]
      · simp [contenders, here, others q here]
    have there : p ∈ s.contenders := inside
    refine ⟨left ▸ counts.finite.sdiff, ?_⟩
    have one := Set.ncard_sdiff_singleton_add_one there counts.finite
    rw [boost, left, counts.boost, ← one, BitVec.ofNat_add]
    exact BitVec.add_sub_cancel _ _

/-- Every step keeps the count. -/
theorem Counts.step (counts : s.Counts) (steps : Steps s l s') : s'.Counts := by
  cases steps with
  | runs running runs => exact counts.runs runs
  | preempt => exact ⟨counts.finite, counts.boost⟩
  | dispatch => exact ⟨counts.finite, counts.boost⟩
  | @call p site l running idle begins =>
    have kept : (s.goto p (.acquire site)).contenders = s.contenders := by
      refine contenders_congr fun q => ?_
      by_cases here : q = p
      · cases site <;> simp_all [goto, MutexPc.counted]
      · simp [goto, here]
    exact ⟨kept ▸ counts.finite, by rw [kept]; exact counts.boost⟩

omit [DecidableEq ι] in
/-- Nobody is counted at first. -/
theorem counts_start : (start : Mutex ι).Counts := by
  have nobody : (start : Mutex ι).contenders = ∅ := by
    ext q
    simp [contenders, start, MutexPc.counted]
  exact ⟨nobody ▸ Set.finite_empty, by rw [nobody, Set.ncard_empty]; rfl⟩

omit [DecidableEq ι] in
/-- As tasks have addresses of their own, the count does not wrap. -/
theorem Counts.toNat (counts : s.Counts) (address : ι ↪ Set.Ioo 0 (2 ^ 64)) :
    s.boost.toNat = s.contenders.ncard := by
  have : Finite ι := Finite.of_injective address address.injective
  have few : s.contenders.ncard < 2 ^ 64 :=
    calc s.contenders.ncard
      _ ≤ Nat.card ι := Set.ncard_le_card _
      _ ≤ Nat.card (Set.Ioo 0 (2 ^ 64)) := Nat.card_le_card_of_injective address address.injective
      _ < 2 ^ 64 := by simp
  rw [counts.boost, BitVec.toNat_ofNat, Nat.mod_eq_of_lt few]

/-! ### The copy of the owner -/

/-- The boosts of the tasks, up to the statement that is about to bring them in line. -/
structure Books (s : Mutex ι) : Prop where
  owner : ∀ o, s.owner = some o → s.pc o ≠ .setBoost → (∀ p, s.pc p ≠ .boostOwner) →
    s.taskBoost o = s.boost
  boosting : ∀ p o, s.pc p = .boostOwner → s.owner = some o → s.taskBoost o + 1 = s.boost
  others : ∀ q, s.owner ≠ some q → s.pc q ≠ .zeroBoost → s.taskBoost q = 0
  cleared : ∀ p, s.pc p = .zeroBoost → s.owner = none

omit [DecidableEq ι] in
/-- A step that leaves owner and boosts alone keeps them in line. -/
theorem Books.keep (books : s.Books) (owner : s'.owner = s.owner) (boost : s'.boost = s.boost)
    (taskBoost : s'.taskBoost = s.taskBoost)
    (pc : ∀ q, s'.pc q = s.pc q ∨ (s.pc q).between = false ∧ (s'.pc q).between = false) :
    s'.Books := by
  -- A task at one of the three statements was there before, and the other way round.
  have forth : ∀ q pc', pc'.between = true → (s'.pc q = pc' ↔ s.pc q = pc') := by
    intro q pc' apart
    rcases pc q with same | ⟨before, after⟩
    · rw [same]
    · constructor
      · rintro rfl
        rw [apart] at after
        cases after
      · rintro rfl
        rw [apart] at before
        cases before
  refine ⟨fun o own set boosts => ?_, fun p o at_ own => ?_, fun q out zero => ?_, fun p at_ => ?_⟩
  · rw [taskBoost, boost]
    exact books.owner o (owner ▸ own) (fun at_ => set ((forth o _ rfl).mpr at_))
      fun p at_ => boosts p ((forth p _ rfl).mpr at_)
  · rw [taskBoost, boost]
    exact books.boosting p o ((forth p _ rfl).mp at_) (owner ▸ own)
  · rw [taskBoost]
    exact books.others q (owner ▸ out) fun at_ => zero ((forth q _ rfl).mpr at_)
  · rw [owner]
    exact books.cleared p ((forth p _ rfl).mp at_)

omit [DecidableEq ι] in
/-- Where nobody is between two copies, they agree. -/
theorem Books.settled (books : s.Books) (calm : ∀ q, (s.pc q).between = false) :
    (∀ o, s.owner = some o → s.taskBoost o = s.boost) ∧
      ∀ q, s.owner ≠ some q → s.taskBoost q = 0 := by
  have not : ∀ q pc, pc.between = true → s.pc q ≠ pc := by
    rintro q pc apart rfl
    rw [calm q] at apart
    cases apart
  exact ⟨fun o own => books.owner o own (not o _ rfl) fun p => not p _ rfl,
    fun q out => books.others q out (not q _ rfl)⟩

omit [DecidableEq ι] in
/-- Copies that agree while nobody is between them are in line. -/
theorem Books.of_settled (calm : ∀ q, (s.pc q).between = false)
    (owner : ∀ o, s.owner = some o → s.taskBoost o = s.boost)
    (others : ∀ q, s.owner ≠ some q → s.taskBoost q = 0) : s.Books := by
  have not : ∀ q pc, pc.between = true → s.pc q ≠ pc := by
    rintro q pc apart rfl
    rw [calm q] at apart
    cases apart
  exact ⟨fun o own _ _ => owner o own, fun p o at_ => absurd at_ (not p _ rfl),
    fun q out _ => others q out, fun p at_ => absurd at_ (not p _ rfl)⟩

omit [DecidableEq ι] in
/-- Beside the task under the spin lock nobody is between two copies. -/
theorem Inv.between_other (inv : s.Inv) (critical : (s.pc p).critical = true) (other : q ≠ p) :
    (s.pc q).between = false := by
  by_contra apart
  rw [Bool.not_eq_false] at apart
  exact other (inv.exclusive q p (MutexPc.critical_of_between apart) critical)

omit [DecidableEq ι] in
/-- Whether anybody is between two copies is for the task under the spin lock to say. -/
theorem Inv.calm (inv : s.Inv) (critical : (s.pc p).critical = true)
    (own : (s.pc p).between = false) (q : ι) : (s.pc q).between = false := by
  by_cases here : q = p
  · exact here ▸ own
  · exact inv.between_other critical here

/-- So it is after a statement of that task. -/
theorem Inv.calm_after (inv : s.Inv) (runs : Runs p s s') (critical : (s.pc p).critical = true)
    (own : (s'.pc p).between = false) (q : ι) : (s'.pc q).between = false := by
  by_cases here : q = p
  · exact here ▸ own
  · rw [runs.pc_other here]
    exact inv.between_other critical here

/-- A mirrored statement keeps the boosts in line. -/
theorem Books.runs (books : s.Books) (inv : s.Inv)
    (mirrors : (s.pc p = .unboost → s.owner = none) ∧ (s.pc p = .clearFast → s.boost = 0))
    (runs : Runs p s s') : s'.Books := by
  have knows := inv.knows p
  have before := inv.calm (p := p)
  have after := inv.calm_after runs
  have kept : s'.owner = s.owner → s'.boost = s.boost → s'.taskBoost = s.taskBoost →
      (s.pc p).between = false → (s'.pc p).between = false → s'.Books := by
    intro owner boost taskBoost before after
    refine books.keep owner boost taskBoost fun q => ?_
    by_cases here : q = p
    · exact .inr (here ▸ ⟨before, after⟩)
    · exact .inl (runs.pc_other here)
  cases runs with
  | @acquired site at_ free =>
    cases site <;> exact kept rfl rfl rfl (by rw [at_]; rfl) (by simp [Mutex.acquired, goto]; rfl)
  | boost at_ =>
    -- The owner's copy is one behind until the next statement.
    have calm := before (by rw [at_]; rfl) (by rw [at_]; rfl)
    obtain ⟨owner, others⟩ := books.settled calm
    refine ⟨fun o own _ boosts => absurd (by simp [goto]) (boosts p), fun q o _ own => ?_,
      fun q out _ => others q out, fun q zero => ?_⟩
    · exact congrArg (· + 1) (owner o own)
    · by_cases here : q = p
      · simp [goto, here] at zero
      · have apart := calm q
        simp only [goto, update_of_ne here] at zero
        rw [zero] at apart
        cases apart
  | @boostOwner o at_ owned =>
    have critical : (s.pc p).critical = true := by rw [at_]; rfl
    refine .of_settled (after critical (by simp [goto]; rfl)) (fun o' own => ?_) fun q out => ?_
    · obtain rfl : o = o' := Option.some.inj (owned.symm.trans own)
      exact (update_self ..).trans (books.boosting p o at_ owned)
    · have other : q ≠ o := by rintro rfl; exact out owned
      refine (update_of_ne other ..).trans (books.others q out fun zero => ?_)
      exact absurd (books.cleared q zero) (by simp [owned])
  | unboost at_ =>
    -- The mutex is not owned, so there is no second copy.
    have critical : (s.pc p).critical = true := by rw [at_]; rfl
    obtain ⟨-, others⟩ := books.settled (before critical (by rw [at_]; rfl))
    have free := mirrors.1 at_
    refine .of_settled (after critical (by simp [goto]; rfl)) (fun o own => ?_) others
    exact absurd (free.symm.trans own) (by simp)
  | setOwner at_ =>
    have calm := before (by rw [at_]; rfl) (by rw [at_]; rfl)
    obtain ⟨-, others⟩ := books.settled calm
    simp only [Knows, at_] at knows
    have not : ∀ q pc, pc.between = true → pc ≠ .setBoost →
        ({ s with owner := some p }.goto p .setBoost).pc q ≠ pc := by
      rintro q pc apart different rfl
      by_cases here : q = p
      · simp [goto, here] at different
      · have := calm q
        simp only [goto, update_of_ne here] at apart
        rw [apart] at this
        cases this
    refine ⟨fun o own set => absurd ?_ set,
      fun q o boosts => absurd boosts (not q _ rfl (by simp)),
      fun q _ _ => others q (by simp [knows]), fun q zero => absurd zero (not q _ rfl (by simp))⟩
    obtain rfl : p = o := Option.some.inj own
    simp [goto]
  | setBoost at_ =>
    have critical : (s.pc p).critical = true := by rw [at_]; rfl
    simp only [Knows, at_] at knows
    refine .of_settled (after critical (by simp [goto]; rfl)) (fun o own => ?_) fun q out => ?_
    · obtain rfl : p = o := Option.some.inj (knows.symm.trans own)
      exact update_self ..
    · have other : q ≠ p := by rintro rfl; exact out knows
      refine (update_of_ne other ..).trans (books.others q out fun zero => ?_)
      exact absurd (books.cleared q zero) (by simp [knows])
  | clearFast at_ =>
    -- Nobody is counted, so the copy that stays behind is zero.
    have critical : (s.pc p).critical = true := by rw [at_]; rfl
    obtain ⟨owner, others⟩ := books.settled (before critical (by rw [at_]; rfl))
    simp only [Knows, at_] at knows
    refine .of_settled (after critical (by simp [goto]; rfl)) (by simp [goto])
      fun q _ => ?_
    by_cases here : q = p
    · exact here ▸ (owner p knows.1).trans (mirrors.2 at_)
    · exact others q fun own => here (Option.some.inj (own.symm.trans knows.1))
  | clear at_ =>
    obtain ⟨-, others⟩ := books.settled (before (by rw [at_]; rfl) (by rw [at_]; rfl))
    simp only [Knows, at_] at knows
    refine ⟨by simp [goto], by simp [goto], fun q _ zero => ?_, fun _ _ => rfl⟩
    have other : q ≠ p := by
      rintro rfl
      simp [goto] at zero
    exact others q fun own => other (Option.some.inj (own.symm.trans knows.1))
  | zeroBoost at_ =>
    have critical : (s.pc p).critical = true := by rw [at_]; rfl
    have free := books.cleared p at_
    refine .of_settled (after critical (by simp [goto]; rfl)) (fun o own => ?_) fun q _ => ?_
    · exact absurd (free.symm.trans own) (by simp)
    · by_cases here : q = p
      · rw [here]
        exact update_self ..
      · refine (update_of_ne here ..).trans (books.others q (by simp [free]) fun zero => ?_)
        have apart := inv.between_other critical here
        rw [zero] at apart
        cases apart
  | _ at_ => exact kept rfl rfl rfl (by rw [at_]; rfl) (by simp [goto]; rfl)

/-- Of the statements only those that are not mirrored bring the boosts out of line. -/
theorem Books.runs_iff (books : s.Books) (inv : s.Inv) (runs : Runs p s s') :
    s'.Books ↔ (s.pc p = .unboost → s.owner = none) ∧ (s.pc p = .clearFast → s.boost = 0) := by
  refine ⟨fun books' => ⟨fun at_ => ?_, fun at_ => ?_⟩, fun mirrors => books.runs inv mirrors runs⟩
  · by_contra owned
    obtain ⟨o, own⟩ := Option.ne_none_iff_exists'.mp owned
    have critical : (s.pc p).critical = true := by rw [at_]; rfl
    have same := (books.settled (inv.calm critical (by rw [at_]; rfl))).1 o own
    cases runs with
    | unboost =>
      have calm := inv.calm_after (.unboost at_) critical (by simp [goto]; rfl)
      -- The mutex has one contender less, and its owner the boost of before.
      have less : s.taskBoost o = s.boost - 1 := (books'.settled calm).1 o own
      rw [same] at less
      exact absurd less (by bv_omega)
    | _ at_' => simp [at_] at at_'
  · have critical : (s.pc p).critical = true := by rw [at_]; rfl
    have knows := inv.knows p
    simp only [Knows, at_] at knows
    have same := (books.settled (inv.calm critical (by rw [at_]; rfl))).1 p knows.1
    cases runs with
    | clearFast =>
      have calm := inv.calm_after (.clearFast at_) critical (by simp [goto]; rfl)
      have zero : s.taskBoost p = 0 := (books'.settled calm).2 p (by simp [goto])
      exact same.symm.trans zero
    | _ at_' => simp [at_] at at_'

/-- A mirrored step keeps the boosts in line. -/
theorem Books.step (books : s.Books) (inv : s.Inv) (mirrors : s.Mirrors l) (steps : Steps s l s') :
    s'.Books := by
  cases steps with
  | runs running runs => exact books.runs inv (mirrors _ running) runs
  | preempt => exact books.keep rfl rfl rfl fun q => .inl rfl
  | dispatch => exact books.keep rfl rfl rfl fun q => .inl rfl
  | @call p site l running idle begins =>
    refine books.keep rfl rfl rfl fun q => ?_
    by_cases here : q = p
    · exact .inr (by simp [goto, here, idle, MutexPc.between])
    · exact .inl (by simp [goto, here])

omit [DecidableEq ι] in
/-- A new mutex gives nobody a boost. -/
theorem books_start : (start : Mutex ι).Books :=
  .of_settled (fun _ => rfl) (fun _ own => nomatch own) fun _ _ => rfl

/-- In every run the mutex counts its contenders. -/
theorem counts_of_reaches (reached : Run.Reaches step (fun _ _ => True) (start : Mutex ι) s) :
    s.Counts := by
  refine reached.invariant (P := fun s => s.Counts) counts_start ?_
  intro s l s' counts _ ok
  exact counts.step (steps_of_ok ok)

/-- In every mirrored run the boosts are accounted for whenever the spin lock is free. -/
theorem accounted_of_reaches (address : ι ↪ Set.Ioo 0 (2 ^ 64))
    (reached : Run.Reaches step Mirrors (start : Mutex ι) s) :
    (s.locked = false → s.Accounted) ∧ ∀ p, s.pc p = .unboost → s.boost ≠ 0 := by
  have counts := counts_of_reaches (reached.mono fun _ _ _ => trivial)
  have whole := counts.toNat address
  constructor
  · intro unlocked
    have both : s.Inv ∧ s.Books := by
      refine reached.invariant (P := fun s => s.Inv ∧ s.Books) ⟨inv_start, books_start⟩ ?_
      rintro s l s' ⟨inv, books⟩ mirrors ok
      exact ⟨inv.step (steps_of_ok ok), books.step inv mirrors (steps_of_ok ok)⟩
    obtain ⟨inv, books⟩ := both
    -- Whoever is between two copies holds the spin lock.
    have calm : ∀ q, (s.pc q).between = false := by
      intro q
      by_contra apart
      rw [Bool.not_eq_false] at apart
      rw [inv.locked q (MutexPc.critical_of_between apart)] at unlocked
      cases unlocked
    obtain ⟨owner, others⟩ := books.settled calm
    exact ⟨whole, owner, others⟩
  · intro p at_ zero
    have there : p ∈ s.contenders := by
      show (s.pc p).counted = true
      rw [at_]
      rfl
    have some_ := (Set.ncard_pos counts.finite).mpr ⟨p, there⟩
    rw [zero] at whole
    exact absurd whole some_.ne

/-- The address of each of two tasks. -/
def twoAddresses : Fin 2 ↪ Set.Ioo 0 (2 ^ 64) where
  toFun p := ⟨p.val + 1, by have := p.isLt; constructor <;> omega⟩
  inj' p q same := by
    have := congrArg Subtype.val same
    exact Fin.ext (by simpa using this)

/-- One task locks the mutex, and another one waits for it. -/
def contendOnce : List (MutexLabel (Fin 2)) :=
  List.flatten [[.dispatch 0, .lock], List.replicate 5 .run, [.preempt, .dispatch 1, .lock],
    List.replicate 10 .run]

/-- The owner of a contended mutex has its boost. -/
theorem accounted_of_reaches_contended : ∃ s : Mutex (Fin 2), s.owner = some 0 ∧ s.boost = 1 ∧
    s.Accounted := by
  have run : ∃ s : Mutex (Fin 2), Run.Reaches step Mirrors start s ∧ s.locked = false ∧
      s.owner = some 0 ∧ s.boost = 1 :=
    Run.Reaches.of_check contendOnce (by decide +kernel)
  obtain ⟨s, reached, unlocked, owner, boost⟩ := run
  exact ⟨s, owner, boost, (accounted_of_reaches twoAddresses reached).1 unlocked⟩

/-- The owner unlocks the mutex, locks it again before the woken task runs, and unlocks it. -/
def barge : List (MutexLabel (Fin 2)) :=
  List.flatten [contendOnce, [.dispatch 0, .unlock], List.replicate 12 .run, [.dispatch 0, .lock],
    List.replicate 5 .run, [.unlock], List.replicate 5 .run]

/-- A task that overtakes a woken one keeps a boost for a mutex that it has unlocked. -/
theorem barging_keeps_boost : ∃ s : Mutex (Fin 2),
    Run.Reaches step (fun _ _ => True) start s ∧ s.locked = false ∧ s.owner = none ∧
      s.taskBoost 0 = 1 ∧ ¬ s.Accounted := by
  have run : ∃ s : Mutex (Fin 2), Run.Reaches step (fun _ _ => True) start s ∧
      s.locked = false ∧ s.owner = none ∧ s.taskBoost 0 = 1 :=
    Run.Reaches.of_check barge (by decide +kernel)
  obtain ⟨s, reached, unlocked, free, boost⟩ := run
  refine ⟨s, reached, unlocked, free, boost, fun accounted => ?_⟩
  exact absurd (boost.symm.trans (accounted.others 0 (by simp [free]))) (by decide)

end Mutex

end Gthread

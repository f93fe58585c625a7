import Gthread.Lib.Run
import Gthread.Sched.SchedLife

/-! The free list of task blocks, and which attributes its blocks are handed out for. -/

namespace Gthread

open Function (update update_of_ne update_self)

/-- The guard `allocate_stack` protects for these attributes. -/
def Attr.guardSize (a : Attr) : Nat :=
  if a.stack.guardsize ≠ sizeMax then a.stack.guardsize else kStackMin

/-- The library maps the stack, whose size and guard fit into the address space. -/
def Attr.Allocatable (a : Attr) : Prop :=
  a.stack.addr = none ∧ a.stack.size + a.guardSize < 2 ^ 64

instance (a : Attr) : Decidable a.Allocatable :=
  inferInstanceAs (Decidable (a.stack.addr = none ∧ a.stack.size + a.guardSize < 2 ^ 64))

/-- The attributes ask for the same stack size, guard size and thread-local storage. -/
def Attr.SameShape (a b : Attr) : Prop :=
  a.stack.size = b.stack.size ∧ a.stack.guardsize = b.stack.guardsize ∧ a.allocTls = b.allocTls

instance (a b : Attr) : Decidable (a.SameShape b) :=
  inferInstanceAs (Decidable (_ ∧ _ ∧ _))

/-- A `task_freelist` and the memory of its blocks. -/
structure FreeList (κ : Type) where
  tasks : Addr → Task κ
  mapped : Addr → Bool
  -- The protected bytes at the low end of each block's stack.
  guard : Addr → Nat
  pool : List Addr
  maxSize : Nat
  -- History: the attributes each block was created from.
  made : Addr → Attr

/-- A call on the free list; `fresh` is where `mmap` puts a new stack. -/
inductive FreeListCall where
  | makeTask (a : Attr) (fresh : Addr)
  | returnTask (t : Addr)
  deriving DecidableEq, Repr

namespace FreeList

variable {κ : Type} (zero : κ)

/-- `task::create` with `allocate_stack`. -/
def create (a : Attr) (fresh : Addr) (s : FreeList κ) : FreeList κ :=
  { s with
    tasks := update s.tasks fresh (Task.construct zero (totalStackSize a) a.allocTls)
    mapped := update s.mapped fresh true
    guard := update s.guard fresh a.guardSize
    made := update s.made fresh a }

/-- `task_freelist::make_task`: the block it returns, and the list that is left. -/
def makeTask (a : Attr) (fresh : Addr) (s : FreeList κ) : Addr × FreeList κ :=
  match if s.pool.length > 0 then Node.findTask s.tasks a s.pool else none with
  | some (t, rest) => (t, { s with pool := rest, tasks := update s.tasks t (s.tasks t).reset })
  | none => (fresh, s.create zero a fresh)

/-- `task_freelist::return_task`. -/
def returnTask (t : Addr) (s : FreeList κ) : FreeList κ :=
  if s.pool.length < s.maxSize then { s with pool := Node.insertTask s.tasks t s.pool }
  else { s with mapped := update s.mapped t false }

/-- One call: new stacks are mapped at unused addresses, and only blocks in use are returned. -/
def step (s : FreeList κ) : FreeListCall → Except Fault (FreeList κ)
  | .makeTask a fresh =>
    if s.mapped fresh = true then .error .disabled else .ok (s.makeTask zero a fresh).2
  | .returnTask t =>
    if s.mapped t = true ∧ t ∉ s.pool then .ok (s.returnTask t) else .error .disabled

/-- A new free list. -/
def start (maxSize : Nat) : FreeList κ where
  tasks _ := Task.construct zero 0 false
  mapped _ := false
  guard _ := 0
  pool := []
  maxSize := maxSize
  made _ := kDefaultAttr

/-- What is promised of a call: the block fits its attributes, and a like one is not left unused. -/
def Matches (s : FreeList κ) : FreeListCall → Prop
  | .returnTask _ => True
  | .makeTask a fresh => s.mapped fresh = false →
    ((s.makeTask zero a fresh).2.tasks (s.makeTask zero a fresh).1).totalStackSize -
        (s.makeTask zero a fresh).2.guard (s.makeTask zero a fresh).1 = a.stack.size ∧
      (s.makeTask zero a fresh).2.guard (s.makeTask zero a fresh).1 = a.guardSize ∧
      ((s.makeTask zero a fresh).2.tasks (s.makeTask zero a fresh).1).tls = a.allocTls ∧
      ((∃ p ∈ s.pool, (s.made p).SameShape a) → (s.makeTask zero a fresh).1 ∈ s.pool)

/-- A pooled block has the requested size in all, and thread-local storage if requested. -/
def totals (s : FreeList κ) (a : Attr) (t : Addr) : Bool :=
  a.stack.size = (s.tasks t).totalStackSize ∧ a.allocTls = (s.tasks t).tls

/-- The condition on a call in the state before it. -/
def Fits (s : FreeList κ) : FreeListCall → Prop
  | .returnTask _ => True
  | .makeTask a fresh => s.mapped fresh = false →
    if a.guardSize = 0 then ∀ t, s.pool.find? (s.totals a) = some t → s.guard t = 0
    else ∀ t ∈ s.pool, s.totals a t = false ∧ ¬ (s.made t).SameShape a

/-- The sizes of every mapped block are those of the attributes it was created from. -/
structure Recorded (s : FreeList κ) : Prop where
  total : ∀ t, s.mapped t = true → (s.tasks t).totalStackSize = totalStackSize (s.made t)
  tls : ∀ t, s.mapped t = true → (s.tasks t).tls = (s.made t).allocTls
  guard : ∀ t, s.mapped t = true → s.guard t = (s.made t).guardSize
  allocatable : ∀ t, s.mapped t = true → (s.made t).Allocatable
  pooled : ∀ t ∈ s.pool, s.mapped t = true

variable {zero} {s s' : FreeList κ} {a : Attr} {fresh : Addr}

/-- The search takes the first pooled block of the requested total size. -/
theorem findTask_fst (s : FreeList κ) (a : Attr) (pool : List Addr) :
    (Node.findTask s.tasks a pool).map Prod.fst = pool.find? (s.totals a) := by
  induction pool with
  | nil => rfl
  | cons t rest ih =>
    rw [Node.findTask]
    by_cases fits : a.stack.size = (s.tasks t).totalStackSize ∧ a.allocTls = (s.tasks t).tls
    · rw [if_pos fits, List.find?_cons_of_pos (by simpa [totals] using fits)]
      rfl
    · rw [if_neg fits, List.find?_cons_of_neg (by simpa [totals] using fits), ← ih,
        Option.map_map]
      rfl

/-- A call of `make_task` either takes such a block from the pool or creates one. -/
theorem makeTask_cases (s : FreeList κ) (a : Attr) (fresh : Addr) :
    (∃ t rest, s.pool.find? (s.totals a) = some t ∧ s.pool.Perm (t :: rest) ∧
      s.makeTask zero a fresh =
        (t, { s with pool := rest, tasks := update s.tasks t (s.tasks t).reset })) ∨
    (s.pool.find? (s.totals a) = none ∧
      s.makeTask zero a fresh = (fresh, s.create zero a fresh)) := by
  have first := findTask_fst s a s.pool
  -- The test for an empty pool changes nothing, since nothing is found in one.
  have tested : (if s.pool.length > 0 then Node.findTask s.tasks a s.pool else none) =
      Node.findTask s.tasks a s.pool := by
    split
    · rfl
    · rename_i empty
      have none : s.pool = [] := List.eq_nil_of_length_eq_zero (by omega)
      rw [none]
      rfl
  rw [makeTask, tested]
  cases found : Node.findTask s.tasks a s.pool with
  | none => exact .inr ⟨by rw [← first, found]; rfl, rfl⟩
  | some out =>
    exact .inl ⟨out.1, out.2, by rw [← first, found]; rfl, Node.findTask_perm found, rfl⟩

/-- A block that has just been created fits its attributes. -/
theorem totalStackSize_sub_guard (allocatable : a.Allocatable) :
    totalStackSize a = a.stack.size + a.guardSize :=
  Nat.mod_eq_of_lt allocatable.2

/-- A pooled block of the requested total size has its guard inside that size. -/
theorem Recorded.totals_iff (recorded : s.Recorded) {t : Addr} (pooled : t ∈ s.pool) :
    s.totals a t = true ↔
      a.stack.size = (s.made t).stack.size + (s.made t).guardSize ∧
        a.allocTls = (s.made t).allocTls := by
  have mapped := recorded.pooled t pooled
  rw [totals, decide_eq_true_iff, recorded.total t mapped, recorded.tls t mapped,
    totalStackSize_sub_guard (recorded.allocatable t mapped)]

/-- A new block is recorded with its own attributes. -/
theorem Recorded.create (recorded : s.Recorded) (own : a.Allocatable) :
    (s.create zero a fresh).Recorded := by
  -- Every other block is mapped exactly if it was before.
  have older : ∀ {b}, b ≠ fresh → (s.create zero a fresh).mapped b = true → s.mapped b = true := by
    intro b other mapped
    simpa [FreeList.create, other] using mapped
  refine ⟨fun b mapped => ?_, fun b mapped => ?_, fun b mapped => ?_, fun b mapped => ?_,
    fun b pooled => ?_⟩
  · by_cases new : b = fresh
    · simp [FreeList.create, new, Task.construct]
    · simpa [FreeList.create, new] using recorded.total b (older new mapped)
  · by_cases new : b = fresh
    · simp [FreeList.create, new, Task.construct]
    · simpa [FreeList.create, new] using recorded.tls b (older new mapped)
  · by_cases new : b = fresh
    · simp [FreeList.create, new]
    · simpa [FreeList.create, new] using recorded.guard b (older new mapped)
  · by_cases new : b = fresh
    · simpa [FreeList.create, new] using own
    · simpa [FreeList.create, new] using recorded.allocatable b (older new mapped)
  · by_cases new : b = fresh
    · simp [FreeList.create, new]
    · simpa [FreeList.create, new] using recorded.pooled b pooled

/-- Calls keep the record. -/
theorem Recorded.step {l : FreeListCall} (recorded : s.Recorded)
    (valid : ∀ a fresh, l = .makeTask a fresh → a.Allocatable)
    (ok : s.step zero l = .ok s') : s'.Recorded := by
  cases l with
  | makeTask a fresh =>
    simp only [FreeList.step] at ok
    split at ok
    · cases ok
    · rename_i unused
      cases ok
      rcases makeTask_cases s a fresh with ⟨t, rest, -, perm, made⟩ | ⟨-, made⟩
      · -- A recycled block keeps its sizes.
        rw [made]
        have same : ∀ b, (update s.tasks t (s.tasks t).reset b).totalStackSize =
            (s.tasks b).totalStackSize ∧
            (update s.tasks t (s.tasks t).reset b).tls = (s.tasks b).tls := by
          intro b
          by_cases own : b = t
          · subst own
            rw [update_self]
            exact ⟨rfl, rfl⟩
          · rw [update_of_ne own]
            exact ⟨rfl, rfl⟩
        refine ⟨fun b mapped => (same b).1.trans (recorded.total b mapped),
          fun b mapped => (same b).2.trans (recorded.tls b mapped), recorded.guard,
          recorded.allocatable, fun b pooled => recorded.pooled b ?_⟩
        exact perm.mem_iff.mpr (List.mem_cons_of_mem _ pooled)
      · -- A new block is recorded with its own attributes.
        rw [made]
        exact recorded.create (valid a fresh rfl)
  | returnTask t =>
    simp only [FreeList.step] at ok
    split at ok
    · rename_i inUse
      cases ok
      rw [returnTask]
      split
      · refine ⟨recorded.total, recorded.tls, recorded.guard, recorded.allocatable,
          fun b pooled => ?_⟩
        rcases List.mem_cons.mp ((Node.insertTask_perm _ _ _).mem_iff.mp pooled) with rfl | older
        · exact inUse.1
        · exact recorded.pooled b older
      · -- A destroyed block is no longer mapped, and it was not pooled.
        have still : ∀ b, update s.mapped t false b = true → s.mapped b = true := by
          intro b mapped
          by_cases own : b = t
          · subst own
            simp at mapped
          · simpa [own] using mapped
        refine ⟨fun b mapped => recorded.total b (still b mapped),
          fun b mapped => recorded.tls b (still b mapped),
          fun b mapped => recorded.guard b (still b mapped),
          fun b mapped => recorded.allocatable b (still b mapped), fun b pooled => ?_⟩
        have other : b ≠ t := by
          rintro rfl
          exact inUse.2 pooled
        show update s.mapped t false b = true
        rw [update_of_ne other]
        exact recorded.pooled b pooled
    · cases ok

/-- A call keeps its promise exactly when the pool does not mislead the search. -/
theorem Recorded.matches_iff_fits (recorded : s.Recorded) {l : FreeListCall}
    (valid : ∀ a fresh, l = .makeTask a fresh → a.Allocatable) :
    s.Matches zero l ↔ s.Fits l := by
  cases l with
  | returnTask t => exact Iff.rfl
  | makeTask a fresh =>
    simp only [Matches, Fits]
    refine imp_congr_right fun unused => ?_
    have away : fresh ∉ s.pool := by
      intro pooled
      rw [recorded.pooled fresh pooled] at unused
      cases unused
    rcases makeTask_cases s a fresh with ⟨t, rest, found, perm, made⟩ | ⟨none, made⟩
    · -- A pooled block is taken, which fits if neither it nor the request has a guard.
      have pooled : t ∈ s.pool := perm.mem_iff.mpr List.mem_cons_self
      have fits : s.totals a t = true := List.find?_some found
      have shape := (recorded.totals_iff pooled).mp fits
      have guard := recorded.guard t (recorded.pooled t pooled)
      have total : (s.tasks t).totalStackSize = a.stack.size := by
        rw [totals, decide_eq_true_iff] at fits
        exact fits.1.symm
      rw [made]
      simp only [update_self, Task.reset, pooled, implies_true, and_true, found,
        Option.some.injEq, forall_eq']
      split
      · rename_i none
        constructor
        · rintro ⟨-, same, -⟩
          omega
        · intro bare
          refine ⟨by omega, by omega, ?_⟩
          rw [recorded.tls t (recorded.pooled t pooled), shape.2]
      · rename_i some_
        constructor
        · -- The requested guard would have to lie inside the requested size.
          rintro ⟨usable, same, -⟩
          omega
        · intro absent
          exact absurd fits (by simp [(absent t pooled).1])
    · -- A block is created, which is right unless a like one lies in the pool.
      have missed : ∀ t ∈ s.pool, s.totals a t = false := by
        simpa using List.find?_eq_none.mp none
      have total := totalStackSize_sub_guard (valid a fresh rfl)
      rw [made]
      simp only [FreeList.create, update_self, Task.construct, total, Nat.add_sub_cancel, true_and,
        away, imp_false, not_exists, not_and, none, reduceCtorEq]
      split
      · rename_i bare
        refine ⟨fun _ t found => found.elim, fun _ t pooled same => ?_⟩
        -- Without a guard the search would have found a like block.
        have like : s.totals a t = true := by
          refine (recorded.totals_iff pooled).mpr ⟨?_, same.2.2.symm⟩
          have : (s.made t).guardSize = a.guardSize := by
            rw [Attr.guardSize, Attr.guardSize, same.2.1]
          rw [same.1]
          omega
        rw [missed t pooled] at like
        cases like
      · exact ⟨fun apart t pooled => ⟨missed t pooled, apart t pooled⟩,
          fun apart t pooled => (apart t pooled).2⟩

/-- Nothing is mapped in a new free list. -/
theorem recorded_start (zero : κ) (maxSize : Nat) : (start zero maxSize).Recorded where
  total t mapped := by cases mapped
  tls t mapped := by cases mapped
  guard t mapped := by cases mapped
  allocatable t mapped := by cases mapped
  pooled t pooled := by cases pooled

/-- In every sequence of calls, all keep their promises exactly when all meet the condition. -/
theorem matches_along_iff_fits (zero : κ) (maxSize : Nat) (calls : List FreeListCall)
    (valid : ∀ l ∈ calls, ∀ a fresh, l = .makeTask a fresh → a.Allocatable) :
    Run.Along (step zero) (Matches zero) (start zero maxSize) calls ↔
      Run.Along (step zero) Fits (start zero maxSize) calls :=
  Run.Along.congr (fun _ _ _ valid recorded ok => recorded.step valid ok)
    (fun _ _ valid recorded => recorded.matches_iff_fits valid) calls valid
    (recorded_start zero maxSize)

/-- A stack of 16 KiB without a guard. -/
def bareAttr : Attr := ⟨⟨none, 0x4000, 0⟩, false⟩

/-- A stack of 8 KiB below a guard of the same size. -/
def guardedAttr : Attr := ⟨⟨none, 0x2000, 0x2000⟩, false⟩

/-- Blocks without a guard are recycled as they should be. -/
theorem matches_along_iff_fits_bare :
    Run.Along (step ()) (Matches ()) (start () 4)
      [.makeTask bareAttr 1, .returnTask 1, .makeTask bareAttr 2] := by
  refine (matches_along_iff_fits () 4 _ ?_).mpr ?_
  · rintro l member a fresh rfl
    obtain rfl : a = bareAttr := by
      have : a = bareAttr ∧ fresh = 1 ∨ a = bareAttr ∧ fresh = 2 := by simpa using member
      rcases this with ⟨here, -⟩ | ⟨here, -⟩ <;> exact here
    decide
  · refine ⟨fun _ => ?_, ?_⟩
    · intro t found
      cases found
    · refine ⟨trivial, fun _ => ?_, trivial⟩
      intro t found
      obtain rfl : t = 1 := by
        have : t ∈ [1] := List.mem_of_find?_eq_some found
        simpa using this
      decide

/-- A returned block is not found again for its own attributes, but for twice its usable size. -/
theorem guarded_block_misfiled :
    (∀ l ∈ [FreeListCall.makeTask guardedAttr 1, .returnTask 1, .makeTask guardedAttr 2],
      ∀ a fresh, l = .makeTask a fresh → a.Allocatable) ∧
    ¬ Run.Along (step ()) (Matches ()) (start () 4)
      [.makeTask guardedAttr 1, .returnTask 1, .makeTask guardedAttr 2] ∧
    ¬ Run.Along (step ()) (Matches ()) (start () 4)
      [.makeTask guardedAttr 1, .returnTask 1, .makeTask bareAttr 2] := by
  refine ⟨?_, fun along => ?_, fun along => ?_⟩
  · rintro l member a fresh rfl
    obtain rfl : a = guardedAttr := by
      have : a = guardedAttr ∧ fresh = 1 ∨ a = guardedAttr ∧ fresh = 2 := by simpa using member
      rcases this with ⟨here, -⟩ | ⟨here, -⟩ <;> exact here
    decide
  · -- The pool holds block 1, made from these very attributes, and block 2 is created.
    obtain ⟨-, -, again, -⟩ := along
    have taken := (again rfl).2.2.2 ⟨1, by decide, by decide⟩
    exact absurd taken (by decide)
  · -- Block 1 is handed out for 16 KiB and has 8 KiB above its guard.
    obtain ⟨-, -, larger, -⟩ := along
    have usable := (larger rfl).1
    exact absurd usable (by decide)

end FreeList

end Gthread

import Gthread.Sched.Task

/-! Stacks mapped for a task, handed over by the caller, and released with the task. -/

namespace Gthread.Platform

/-- `attr::stack_t` as the machine holds it, with address 0 for the null pointer. -/
structure StackWords where
  addr : UInt64
  size : UInt64
  guardsize : UInt64
  deriving DecidableEq, Repr

/-- The attributes these words stand for. -/
def StackWords.attr (w : StackWords) (allocTls : Bool) : Attr :=
  ⟨⟨if w.addr = 0 then none else some w.addr.toNat, w.size.toNat, w.guardsize.toNat⟩, allocTls⟩

/-- `MAP_FAILED`. -/
def mapFailed : UInt64 := 0xffffffffffffffff

/-- The answers of the kernel to the memory calls of one thread. -/
structure MemoryCalls where
  -- The address of a new mapping of a length, or `mapFailed`.
  mmap : UInt64 → UInt64
  -- Whether taking away the access to a range succeeds.
  mprotect : UInt64 → UInt64 → Bool
  -- A mapping without a requested address lies neither at null nor against the last address.
  nonnull : ∀ length, mmap length ≠ 0
  fits : ∀ length, mmap length ≠ mapFailed → (mmap length).toNat + length.toNat < 2 ^ 64

/-- A range of addresses that is mapped or unmapped by one call. -/
structure Region where
  base : UInt64
  length : UInt64
  deriving DecidableEq, Repr

/-- What `allocate_stack` returns, writes through its pointers and leaves mapped. -/
structure Allocation where
  ret : Int
  stack : Option UInt64
  totalStackSize : Option UInt64
  mapped : List Region
  deriving DecidableEq, Repr

/-- The guard size with the default for the value -1. -/
def StackWords.guard (w : StackWords) : UInt64 :=
  if w.guardsize ≠ UInt64.ofNat sizeMax then w.guardsize else UInt64.ofNat kStackMin

/-- The sum of the two sizes as a `size_t`. -/
def StackWords.total (w : StackWords) : UInt64 := w.size + w.guard

/-- `allocate_stack`, called with two pointers that are not null. -/
def allocateStack (calls : MemoryCalls) (pageSize : UInt64) (w : StackWords) : Allocation :=
  if w.addr ≠ 0 then
    if w.addr % pageSize ≠ 0 then ⟨-1, none, none, []⟩
    -- The size of a stack that the caller provides is not reported.
    else ⟨0, some w.addr, none, []⟩
  else
    let stackaddr := calls.mmap w.total
    let mapped := if stackaddr = mapFailed then [] else [⟨stackaddr, w.total⟩]
    if stackaddr = 0 then ⟨-1, none, some w.total, mapped⟩
    else if w.guard ≠ 0 ∧ calls.mprotect stackaddr w.guard = false then
      ⟨-1, none, some w.total, mapped⟩
    else ⟨0, some (stackaddr + w.total), some w.total, mapped⟩

/-- `free_stack`: the ranges the kernel is asked to unmap. -/
def freeStack (stackBase totalStackSize : UInt64) : List Region := [⟨stackBase, totalStackSize⟩]

/-- What the constructor of `task` is given, and the address it runs at. -/
structure TaskPlace where
  place : UInt64
  stack : UInt64
  stackBegin : UInt64
  totalStackSize : UInt64
  allocTls : Bool
  deriving DecidableEq, Repr

/-- The two uninitialised locals of `task::create`. -/
structure Indeterminate where
  stack : UInt64
  totalStackSize : UInt64

/-- A `task::create` that ran: its call of `allocate_stack` and the task it constructed. -/
structure Creation where
  allocation : Allocation
  task : TaskPlace

/-- `task::create`, which does not look at what `allocate_stack` returns. -/
def create (calls : MemoryCalls) (pageSize sizeofTask : UInt64) (locals : Indeterminate)
    (w : StackWords) (allocTls : Bool) : Creation :=
  let allocation := allocateStack calls pageSize w
  let stack := allocation.stack.getD locals.stack
  let taskPlace := stack - sizeofTask
  ⟨allocation, taskPlace, stack, taskPlace,
    allocation.totalStackSize.getD locals.totalStackSize, allocTls⟩

/-- `task::destroy`: the ranges it asks the kernel to unmap. -/
def TaskPlace.destroy (t : TaskPlace) : List Region :=
  -- A null stack is that of a wrapped task.
  if t.stack ≠ 0 then freeStack (t.stack - t.totalStackSize) t.totalStackSize else []

/-- Allocation and release match for these attributes and these answers of the kernel. -/
structure StackMatched (calls : MemoryCalls) (pageSize sizeofTask : UInt64) (w : StackWords)
    (allocTls : Bool) : Prop where
  -- A success is reported with both results.
  written : (allocateStack calls pageSize w).ret = 0 →
    (allocateStack calls pageSize w).stack.isSome ∧
      (allocateStack calls pageSize w).totalStackSize.isSome
  -- A stack that the caller did not provide is exactly the mapping, and large enough.
  region : (allocateStack calls pageSize w).ret = 0 → w.addr = 0 →
    ∃ stack total, (allocateStack calls pageSize w).stack = some stack ∧
      (allocateStack calls pageSize w).totalStackSize = some total ∧
      (allocateStack calls pageSize w).mapped = [⟨stack - total, total⟩] ∧
      w.size.toNat + w.guard.toNat ≤ total.toNat
  -- A failed allocation leaves nothing mapped.
  failed : (allocateStack calls pageSize w).ret ≠ 0 → (allocateStack calls pageSize w).mapped = []
  -- A task is constructed after a success only.
  constructed : ∀ locals,
    (create calls pageSize sizeofTask locals w allocTls).allocation.ret = 0
  -- The end of the task unmaps what its creation mapped, and no stack of the caller.
  released : ∀ locals, (create calls pageSize sizeofTask locals w allocTls).task.destroy =
    (create calls pageSize sizeofTask locals w allocTls).allocation.mapped
  kept : w.addr ≠ 0 → ∀ locals,
    (create calls pageSize sizeofTask locals w allocTls).task.destroy = []

/-- The caller provides no stack, the sizes add up and no memory call fails. -/
structure StackWords.Mappable (calls : MemoryCalls) (w : StackWords) : Prop where
  addr : w.addr = 0
  sizes : w.size.toNat + w.guard.toNat < 2 ^ 64
  mmap : calls.mmap w.total ≠ mapFailed
  mprotect : w.guard = 0 ∨ calls.mprotect (calls.mmap w.total) w.guard = true

variable {calls : MemoryCalls} {pageSize sizeofTask : UInt64} {w : StackWords} {allocTls : Bool}

/-- The total is the one the task records, computed modulo the word size. -/
theorem StackWords.total_toNat : w.total.toNat = totalStackSize (w.attr allocTls) := by
  have guard : w.guard.toNat =
      if w.guardsize.toNat ≠ sizeMax then w.guardsize.toNat else kStackMin := by
    rw [StackWords.guard]
    have same : w.guardsize = UInt64.ofNat sizeMax ↔ w.guardsize.toNat = sizeMax := by
      rw [← UInt64.toNat_inj]
      rfl
    by_cases default : w.guardsize = UInt64.ofNat sizeMax
    · rw [if_neg (by simpa using default), if_neg (by simpa using same.mp default)]
      rfl
    · rw [if_pos default, if_pos fun equal => default (same.mpr equal)]
  rw [StackWords.total, UInt64.toNat_add, guard]
  rfl

/-! ### The paths of `allocate_stack` -/

/-- A stack of the caller is checked for its alignment only. -/
theorem allocateStack_provided (provided : w.addr ≠ 0) :
    allocateStack calls pageSize w =
      if w.addr % pageSize ≠ 0 then ⟨-1, none, none, []⟩ else ⟨0, some w.addr, none, []⟩ := by
  rw [allocateStack, if_pos provided]

/-- When the guard is refused the new mapping stays. -/
theorem allocateStack_refused (none : w.addr = 0)
    (refused : ¬ (w.guard = 0 ∨ calls.mprotect (calls.mmap w.total) w.guard = true)) :
    allocateStack calls pageSize w = ⟨-1, .none, some w.total,
      if calls.mmap w.total = mapFailed then [] else [⟨calls.mmap w.total, w.total⟩]⟩ := by
  rw [not_or, Bool.not_eq_true] at refused
  rw [allocateStack, if_neg (not_not.mpr none)]
  simp only [calls.nonnull, ↓reduceIte, if_pos refused]

/-- Otherwise the stack is reported above whatever address `mmap` returned. -/
theorem allocateStack_guarded (none : w.addr = 0)
    (guarded : w.guard = 0 ∨ calls.mprotect (calls.mmap w.total) w.guard = true) :
    allocateStack calls pageSize w = ⟨0, some (calls.mmap w.total + w.total), some w.total,
      if calls.mmap w.total = mapFailed then [] else [⟨calls.mmap w.total, w.total⟩]⟩ := by
  have passed : ¬ (w.guard ≠ 0 ∧ calls.mprotect (calls.mmap w.total) w.guard = false) := by
    rintro ⟨guard, refused⟩
    exact guarded.elim guard fun allowed => absurd (allowed.symm.trans refused) (by decide)
  rw [allocateStack, if_neg (not_not.mpr none)]
  simp only [calls.nonnull, ↓reduceIte, if_neg passed]

/-- A mapping does not end at the null address. -/
theorem MemoryCalls.mmap_add_ne_zero (calls : MemoryCalls) {length : UInt64}
    (mapped : calls.mmap length ≠ mapFailed) : calls.mmap length + length ≠ 0 := by
  intro zero
  have sum := congrArg UInt64.toNat zero
  have fits := calls.fits length mapped
  have positive : (calls.mmap length).toNat ≠ 0 :=
    fun null => calls.nonnull length (UInt64.toNat_inj.mp null)
  rw [UInt64.toNat_add, Nat.mod_eq_of_lt fits] at sum
  have : (0 : UInt64).toNat = 0 := rfl
  omega

/-! ### Matching -/

/-- A stack of the caller is mishandled on both of its paths. -/
theorem StackMatched.addr_eq_zero (matched : StackMatched calls pageSize sizeofTask w allocTls) :
    w.addr = 0 := by
  by_contra provided
  have path := @allocateStack_provided calls pageSize w provided
  by_cases aligned : w.addr % pageSize ≠ 0
  · -- The refused stack is used by `task::create` all the same.
    rw [if_pos aligned] at path
    have := matched.constructed ⟨0, 0⟩
    simp only [create, path] at this
    exact absurd this (by decide)
  · -- The accepted one is reported without its size.
    rw [if_neg aligned] at path
    have := (matched.written (by rw [path])).2
    rw [path] at this
    exact Bool.false_ne_true this

/-- Allocation and release match exactly when everything can be mapped. -/
theorem stackMatched_iff (calls : MemoryCalls) (pageSize sizeofTask : UInt64) (w : StackWords)
    (allocTls : Bool) :
    StackMatched calls pageSize sizeofTask w allocTls ↔ w.Mappable calls := by
  constructor
  · intro matched
    have none := matched.addr_eq_zero
    have guarded : w.guard = 0 ∨ calls.mprotect (calls.mmap w.total) w.guard = true := by
      by_contra refused
      have := matched.constructed ⟨0, 0⟩
      simp only [create, allocateStack_refused none refused] at this
      exact absurd this (by decide)
    have path := @allocateStack_guarded calls pageSize w none guarded
    obtain ⟨stack, total, -, reported, mapped, enough⟩ := matched.region (by rw [path]) none
    rw [path] at reported mapped
    obtain rfl : w.total = total := Option.some.inj reported
    refine ⟨none, ?_, ?_, guarded⟩
    · have := w.total.toNat_lt
      omega
    · intro unmapped
      simp only [unmapped, ↓reduceIte] at mapped
      cases mapped
  · rintro ⟨none, sizes, mapped, guarded⟩
    have path := @allocateStack_guarded calls pageSize w none guarded
    rw [if_neg mapped] at path
    have base : calls.mmap w.total + w.total - w.total = calls.mmap w.total := by simp
    refine ⟨fun _ => by rw [path]; exact ⟨rfl, rfl⟩, fun _ _ => ?_, fun failed => ?_,
      fun locals => ?_, fun locals => ?_, fun provided => absurd none provided⟩
    · refine ⟨_, _, by rw [path], by rw [path], by rw [path, base], ?_⟩
      have whole : w.total.toNat = w.size.toNat + w.guard.toNat := by
        rw [StackWords.total, UInt64.toNat_add, Nat.mod_eq_of_lt sizes]
      exact Nat.le_of_eq whole.symm
    · rw [path] at failed
      exact absurd rfl failed
    · simp only [create, path]
    · simp only [create, path, Option.getD_some]
      rw [TaskPlace.destroy, if_pos (calls.mmap_add_ne_zero mapped), freeStack, base]

/-- A kernel that maps every request at one address and protects every guard. -/
def oneMapping : MemoryCalls where
  mmap length := if length.toNat < 2 ^ 32 then 65536 else mapFailed
  mprotect _ _ := true
  nonnull length := by split <;> decide
  fits length mapped := by
    split at mapped
    · rename_i small
      rw [if_pos small]
      have : (65536 : UInt64).toNat = 65536 := rfl
      omega
    · exact absurd rfl mapped

/-- The words of `k_default_attr`. -/
def defaultWords : StackWords := ⟨0, 4 * 1024 * 1024, UInt64.ofNat sizeMax⟩

/-- A task of the default attributes unmaps what its creation mapped. -/
theorem stackMatched_default : defaultWords.attr true = kDefaultAttr ∧
    StackMatched oneMapping 4096 512 defaultWords true := by
  have mappable : defaultWords.Mappable oneMapping := ⟨rfl, by decide, by decide, .inr rfl⟩
  exact ⟨by decide, (stackMatched_iff oneMapping 4096 512 defaultWords true).mpr mappable⟩

/-- A page-aligned stack of the caller is accepted without its size, which is unmapped later. -/
theorem provided_stack_unmapped :
    (allocateStack oneMapping 4096 ⟨0x700000, 0x4000, 0⟩).ret = 0 ∧
      (allocateStack oneMapping 4096 ⟨0x700000, 0x4000, 0⟩).totalStackSize = none ∧
      (create oneMapping 4096 512 ⟨0, 0x2000⟩ ⟨0x700000, 0x4000, 0⟩ false).task.destroy =
        [⟨0x6fe000, 0x2000⟩] ∧
      ¬ StackMatched oneMapping 4096 512 ⟨0x700000, 0x4000, 0⟩ false := by
  refine ⟨by decide, by decide, by decide, fun matched => ?_⟩
  exact absurd matched.addr_eq_zero (by decide)

end Gthread.Platform

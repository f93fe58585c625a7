import Mathlib.Algebra.Order.Ring.Int
import Mathlib.Data.List.Nodup
import Mathlib.Logic.Function.Basic

/-! Byte-addressed memory of 64-bit machines, with little-endian values of several bytes. -/

namespace ByteMemory

/-- A 64-bit address. -/
abbrev Address := BitVec 64

/-- The byte at each address. -/
abbrev Memory := Address → BitVec 8

/-- Read a value of so many bytes, the lowest one first. -/
def load (mem : Memory) (a : Address) : (n : Nat) → BitVec (8 * n)
  | 0 => 0
  | n + 1 => (mem (a + BitVec.ofNat 64 n) ++ load mem a n).cast (by omega)

/-- Write a value of so many bytes, the lowest one first. -/
def store (mem : Memory) (a : Address) {n : Nat} (v : BitVec (8 * n)) : Memory := fun x =>
  if (x - a).toNat < n then v.extractLsb' (8 * (x - a).toNat) 8 else mem x

/-- Two ranges of bytes have no address in common. -/
def Apart (a : Address) (n : Nat) (b : Address) (m : Nat) : Prop :=
  ∀ i, i < n → ∀ j, j < m → a + BitVec.ofNat 64 i ≠ b + BitVec.ofNat 64 j

instance (a : Address) (n : Nat) (b : Address) (m : Nat) : Decidable (Apart a n b m) :=
  inferInstanceAs (Decidable (∀ i, i < n → ∀ j, j < m →
    a + BitVec.ofNat 64 i ≠ b + BitVec.ofNat 64 j))

variable {mem : Memory} {a b : Address} {m n : Nat}

theorem Apart.symm (apart : Apart a n b m) : Apart b m a n :=
  fun i inside j within same => apart j within i inside same.symm

/-- Parts of disjoint ranges are disjoint. -/
theorem Apart.mono {i j k l : Nat} (apart : Apart a n b m) (first : i + k ≤ n)
    (second : j + l ≤ m) : Apart (a + BitVec.ofNat 64 i) k (b + BitVec.ofNat 64 j) l := by
  intro x inside y within same
  apply apart (i + x) (by omega) (j + y) (by omega)
  rwa [BitVec.ofNat_add, BitVec.ofNat_add, ← BitVec.add_assoc, ← BitVec.add_assoc]

/-- Disjoint parts of one range are disjoint. -/
theorem apart_offsets {i j : Nat} (order : i + n ≤ j) (short : j + m ≤ 2 ^ 64) :
    Apart (a + BitVec.ofNat 64 i) n (a + BitVec.ofNat 64 j) m := by
  intro x inside y within same
  rw [BitVec.add_assoc, BitVec.add_assoc, BitVec.add_right_inj, ← BitVec.ofNat_add,
    ← BitVec.ofNat_add] at same
  have values := congrArg BitVec.toNat same
  rw [BitVec.toNat_ofNat, BitVec.toNat_ofNat, Nat.mod_eq_of_lt (by omega),
    Nat.mod_eq_of_lt (by omega)] at values
  omega

/-- The bits of a value are those of its bytes. -/
theorem getLsbD_load (mem : Memory) (a : Address) (n i : Nat) :
    (load mem a n).getLsbD i =
      (decide (i < 8 * n) && (mem (a + BitVec.ofNat 64 (i / 8))).getLsbD (i % 8)) := by
  induction n with
  | zero => simp [load]
  | succ n ih =>
    rw [load, BitVec.getLsbD_cast, BitVec.getLsbD_append, ih]
    by_cases lower : i < 8 * n
    · have below : i < 8 * (n + 1) := by omega
      simp [lower, below]
    · rw [if_neg lower]
      by_cases last : i < 8 * (n + 1)
      · have byte : i / 8 = n := by omega
        have bit : i - 8 * n = i % 8 := by omega
        rw [byte, bit]
        simp [last]
      · rw [BitVec.getLsbD_of_ge _ _ (by omega)]
        simp [last]

/-- Values are equal if their bytes are. -/
theorem load_congr {mem' : Memory} (same : ∀ i, i < n →
    mem' (b + BitVec.ofNat 64 i) = mem (a + BitVec.ofNat 64 i)) : load mem' b n = load mem a n := by
  induction n with
  | zero => rfl
  | succ n ih =>
    rw [load, load, same n (by omega), ih fun i inside => same i (by omega)]

/-- A range of bytes is read as it was written. -/
theorem load_store_same (mem : Memory) (a : Address) (v : BitVec (8 * n)) (short : n ≤ 2 ^ 64) :
    load (store mem a v) a n = v := by
  apply BitVec.eq_of_getLsbD_eq
  intro i inside
  have byte : i / 8 < n := by omega
  have offset : (a + BitVec.ofNat 64 (i / 8) - a).toNat = i / 8 := by
    rw [BitVec.add_comm, BitVec.add_sub_cancel, BitVec.toNat_ofNat, Nat.mod_eq_of_lt (by omega)]
  have bit : i % 8 < 8 := Nat.mod_lt i (by omega)
  have place : 8 * (i / 8) + i % 8 = i := Nat.div_add_mod i 8
  rw [getLsbD_load, store, offset, if_pos byte, BitVec.getLsbD_extractLsb', place]
  simp [inside, bit]

/-- A byte outside the written range keeps its value. -/
theorem store_apart {v : BitVec (8 * n)} (apart : Apart a n b m) {j : Nat} (inside : j < m) :
    store mem a v (b + BitVec.ofNat 64 j) = mem (b + BitVec.ofNat 64 j) := by
  rw [store, if_neg]
  intro within
  refine apart _ within j inside ?_
  rw [BitVec.ofNat_toNat, BitVec.setWidth_eq, BitVec.add_comm, BitVec.sub_add_cancel]

end ByteMemory

import Mathlib.Data.Nat.ModEq
import Mathlib.Tactic.Common

/-! Counters that wrap around at a machine width, and the ring slots they select. -/

namespace RingCounter

variable {width : Nat}

/-- The difference of two wrapped counters is the wrapped difference. -/
theorem ofNat_sub {a b : Nat} (le : b ≤ a) :
    BitVec.ofNat width a - BitVec.ofNat width b = BitVec.ofNat width (a - b) := by
  have sum : BitVec.ofNat width (a - b) + BitVec.ofNat width b = BitVec.ofNat width a := by
    rw [← BitVec.ofNat_add, Nat.sub_add_cancel le]
  rw [← sum, BitVec.add_sub_cancel]

/-- Two counters that are less than a full turn apart can be compared by their difference. -/
theorem sub_eq_iff {a b : Nat} {c : BitVec width} (le : b ≤ a) (near : a - b < 2 ^ width) :
    BitVec.ofNat width a - BitVec.ofNat width b = c ↔ a - b = c.toNat := by
  rw [ofNat_sub le, ← BitVec.toNat_inj, BitVec.toNat_ofNat, Nat.mod_eq_of_lt near]

/-- One less than a nonzero size does not wrap. -/
theorem toNat_sub_one {size : BitVec width} (nonzero : size ≠ 0) :
    (size - 1).toNat = size.toNat - 1 := by
  have positive : size.toNat ≠ 0 := by
    intro zero
    exact nonzero (BitVec.eq_of_toNat_eq (by simpa using zero))
  have bound := size.isLt
  have one : (1 : BitVec width).toNat = 1 := by
    have small : 1 % 2 ^ width = 1 := Nat.mod_eq_of_lt (by omega)
    exact (BitVec.toNat_ofNat ..).trans small
  have le : (1 : BitVec width) ≤ size := by
    rw [BitVec.le_def, one]
    omega
  exact (BitVec.toNat_sub_of_le le).trans (by rw [one])

/-- A size that passes the usual test for powers of two is one. -/
theorem size_eq_two_pow {size : BitVec width} (nonzero : size ≠ 0)
    (power : size &&& (size - 1) = 0) : ∃ k, k < width ∧ size.toNat = 2 ^ k := by
  have positive : size.toNat ≠ 0 := by
    intro zero
    exact nonzero (BitVec.eq_of_toNat_eq (by simpa using zero))
  have test : size.toNat &&& (size.toNat - 1) = 0 := by
    have bits := congrArg BitVec.toNat power
    rw [BitVec.toNat_and, toNat_sub_one nonzero] at bits
    simpa using bits
  obtain ⟨k, size_eq⟩ := (Nat.and_sub_one_eq_zero_iff_isPowerOfTwo positive).mp test
  refine ⟨k, ?_, size_eq⟩
  have bound := size.isLt
  rw [size_eq] at bound
  exact (Nat.pow_lt_pow_iff_right (by decide)).mp bound

/-- The slot of a counter is its remainder by the size. -/
theorem slot_toNat {size : BitVec width} (nonzero : size ≠ 0) (power : size &&& (size - 1) = 0)
    (a : Nat) : (BitVec.ofNat width a &&& (size - 1)).toNat = a % size.toNat := by
  obtain ⟨k, small, size_eq⟩ := size_eq_two_pow nonzero power
  rw [BitVec.toNat_and, toNat_sub_one nonzero, size_eq, BitVec.toNat_ofNat,
    Nat.and_two_pow_sub_one_eq_mod]
  exact Nat.mod_mod_of_dvd a (Nat.pow_dvd_pow 2 small.le)

/-- Counters less than the size apart that select the same slot are equal. -/
theorem slot_inj {size : BitVec width} (nonzero : size ≠ 0) (power : size &&& (size - 1) = 0)
    {a b : Nat} (le : b ≤ a) (near : a - b < size.toNat)
    (same : BitVec.ofNat width a &&& (size - 1) = BitVec.ofNat width b &&& (size - 1)) : a = b := by
  have slots := congrArg BitVec.toNat same
  rw [slot_toNat nonzero power, slot_toNat nonzero power] at slots
  -- The size divides the distance, which is smaller.
  have divides : size.toNat ∣ a - b := (Nat.modEq_iff_dvd' le).mp slots.symm
  have nothing : a - b = 0 := Nat.eq_zero_of_dvd_of_lt divides near
  omega

end RingCounter

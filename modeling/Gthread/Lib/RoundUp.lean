import Mathlib.Data.Nat.Init
import Mathlib.Algebra.Order.Group.Nat

/-! Rounding a size up to an alignment. -/

namespace RoundUp

/-- The least multiple of the alignment that is not below the size. -/
def roundUp (size align : Nat) : Nat := (size + align - 1) / align * align

/-- The bytes that complete a size to the next multiple of the alignment. -/
def padding (size align : Nat) : Nat := (align - size % align) % align

/-- A rounded size is a multiple of its alignment. -/
theorem dvd_roundUp (size align : Nat) : align ∣ roundUp size align :=
  Nat.dvd_mul_left align _

/-- Padding a size rounds it up. -/
theorem padding_add {align : Nat} (pos : 0 < align) (size : Nat) :
    padding size align + size = roundUp size align := by
  -- Only the remainder decides: either there is none, or one more unit is started.
  have split : align * (size / align) + size % align = size := Nat.div_add_mod size align
  have below : size % align < align := Nat.mod_lt size pos
  rcases Nat.eq_zero_or_pos (size % align) with exact_ | rest
  · have last : size + align - 1 = align - 1 + align * (size / align) := by omega
    have quotient : (align - 1 + align * (size / align)) / align = size / align := by
      rw [Nat.add_mul_div_left _ _ pos, Nat.div_eq_of_lt (by omega), Nat.zero_add]
    rw [padding, roundUp, last, quotient, exact_, Nat.sub_zero, Nat.mod_self, Nat.mul_comm]
    omega
  · have last : size + align - 1 = size % align - 1 + align * (size / align + 1) := by
      rw [Nat.mul_add]
      omega
    have quotient : (size % align - 1 + align * (size / align + 1)) / align =
        size / align + 1 := by
      rw [Nat.add_mul_div_left _ _ pos, Nat.div_eq_of_lt (by omega), Nat.zero_add]
    rw [padding, roundUp, last, quotient, Nat.mod_eq_of_lt (by omega), Nat.add_mul,
      Nat.mul_comm (size / align)]
    omega

/-- Rounding up never loses bytes. -/
theorem le_roundUp {align : Nat} (pos : 0 < align) (size : Nat) : size ≤ roundUp size align := by
  have := padding_add pos size
  omega

/-- Only an empty size rounds up to nothing. -/
theorem roundUp_eq_zero {align : Nat} (pos : 0 < align) {size : Nat} :
    roundUp size align = 0 ↔ size = 0 := by
  constructor
  · intro none
    have := le_roundUp pos size
    omega
  · rintro rfl
    rw [roundUp, Nat.zero_add, Nat.div_eq_of_lt (by omega), Nat.zero_mul]

/-- Rounding after an offset and before it agree exactly at multiples of the alignment. -/
theorem roundUp_add_eq_iff {align : Nat} (pos : 0 < align) (offset size : Nat) :
    roundUp (offset + size) align = offset + roundUp size align ↔ align ∣ offset := by
  constructor
  · intro same
    -- Both rounded sizes are multiples, so their difference is one.
    have whole : align ∣ offset + roundUp size align := same ▸ dvd_roundUp _ _
    exact (Nat.dvd_add_left (dvd_roundUp size align)).mp whole
  · rintro ⟨units, rfl⟩
    have shifted : align * units + size + align - 1 = size + align - 1 + align * units := by
      omega
    rw [roundUp, roundUp, shifted, Nat.add_mul_div_left _ _ pos, Nat.add_mul, Nat.mul_comm units,
      Nat.add_comm]

/-- Masking a negated machine word with a power of two gives the padding. -/
theorem neg_and_eq_padding {width log size : Nat} (fits : log ≤ width) (bound : size < 2 ^ width) :
    (2 ^ width - size) % 2 ^ width &&& (2 ^ log - 1) = padding size (2 ^ log) := by
  have pos : 0 < 2 ^ log := Nat.two_pow_pos log
  obtain ⟨units, split⟩ : 2 ^ log ∣ 2 ^ width := Nat.pow_dvd_pow 2 fits
  rw [Nat.and_two_pow_sub_one_eq_mod, Nat.mod_mod_of_dvd _ ⟨units, split⟩, padding]
  have parts : 2 ^ log * (size / 2 ^ log) + size % 2 ^ log = size := Nat.div_add_mod size _
  have below : size % 2 ^ log < 2 ^ log := Nat.mod_lt size pos
  -- The word's size is a whole number of units, of which the negation takes all complete ones.
  have room : size / 2 ^ log + 1 ≤ units := by
    by_contra short
    have : 2 ^ log * units ≤ 2 ^ log * (size / 2 ^ log) := Nat.mul_le_mul_left _ (by omega)
    omega
  obtain ⟨left, total⟩ := Nat.exists_eq_add_of_le room
  have rest : 2 ^ width - size = 2 ^ log - size % 2 ^ log + 2 ^ log * left := by
    rw [split, total, Nat.mul_add, Nat.mul_add]
    omega
  rw [rest, Nat.add_mul_mod_self_left]

end RoundUp

import Gthread.Platform.TlsLayout

/-! What a reset leaves in the storage, against what the constructor puts there. -/

namespace Gthread.Platform

open RoundUp

/-! ### Blocks written one below the other -/

/-- A module's base counted from the first block is that counted from the block below it. -/
theorem blockBase_cons (base : Nat) (m : Module) (rest : List Module) (k : Nat) :
    blockBase base (m :: rest) (k + 1) = blockBase (base - m.rounded) rest k := by
  rw [blockBase, blockBase, List.take_succ_cons, reserved_cons]
  omega

/-- Write the block of each module below the one before it. -/
def layBlocks (write : Module → Nat → Mem → Mem) : List Module → Nat → Mem → Mem
  | [], _, bytes => bytes
  | m :: rest, base, bytes =>
    layBlocks write rest (base - m.rounded) (write m (base - m.rounded) bytes)

/-- A writer that stays inside the block and fills each byte on its own. -/
structure Fills (write : Module → Nat → Mem → Mem) (fill : Module → Nat → UInt8 → UInt8) :
    Prop where
  inside : ∀ m base bytes q, q < m.rounded →
    write m base bytes (base + q) = fill m q (bytes (base + q))
  outside : ∀ m base bytes p, p < base ∨ base + m.rounded ≤ p → write m base bytes p = bytes p

variable {write : Module → Nat → Mem → Mem} {fill : Module → Nat → UInt8 → UInt8}

/-- Bytes above the blocks keep their values. -/
theorem layBlocks_above (fills : Fills write fill) {rest : List Module} {base p : Nat} {bytes : Mem}
    (room : reserved rest ≤ base) (above : base ≤ p) :
    layBlocks write rest base bytes p = bytes p := by
  induction rest generalizing base bytes with
  | nil => rfl
  | cons m rest ih =>
    rw [reserved_cons] at room
    rw [layBlocks, ih (by omega) (by omega)]
    exact fills.outside _ _ _ _ (.inr (by omega))

/-- Each byte of each block is filled once. -/
theorem layBlocks_block (fills : Fills write fill) {modules : List Module} {base k q : Nat}
    {bytes : Mem} (room : reserved modules ≤ base) (inside : k < modules.length)
    (within : q < modules[k].rounded) :
    layBlocks write modules base bytes (blockBase base modules (k + 1) + q) =
      fill modules[k] q (bytes (blockBase base modules (k + 1) + q)) := by
  induction modules generalizing base bytes k with
  | nil => cases inside
  | cons m rest ih =>
    rw [reserved_cons] at room
    rw [layBlocks]
    cases k with
    | zero =>
      -- The first block lies above all later ones, which leave it alone.
      have start : blockBase base (m :: rest) (0 + 1) = base - m.rounded := by simp [blockBase]
      rw [start, layBlocks_above fills (by omega) (by omega)]
      exact fills.inside _ _ _ _ within
    | succ k =>
      rw [blockBase_cons, ih (by omega) (by simpa using inside) within]
      congr 1
      refine fills.outside _ _ _ _ (.inl ?_)
      -- The later block ends below the first one.
      have inside : k < rest.length := by simpa using inside
      have ends := @blockBase_succ_add (base - m.rounded) rest k inside (by omega)
      have highest := @blockBase_anti (base - m.rounded) rest 0 k (by omega)
      have top : blockBase (base - m.rounded) rest 0 = base - m.rounded := by simp [blockBase]
      have within : q < rest[k].rounded := within
      omega

/-- Blocks of no size write nothing. -/
theorem layBlocks_empty (fills : Fills write fill) {rest : List Module} {base : Nat} {bytes : Mem}
    (none : reserved rest = 0) : layBlocks write rest base bytes = bytes := by
  induction rest generalizing base bytes with
  | nil => rfl
  | cons m rest ih =>
    rw [reserved_cons] at none
    have unchanged : write m (base - m.rounded) bytes = bytes := by
      funext p
      exact fills.outside _ _ _ _ (by omega)
    rw [layBlocks, unchanged]
    exact ih (by omega)

/-- Every byte between the last base and the control block belongs to one block. -/
theorem exists_block {modules : List Module} {base p : Nat} (room : reserved modules ≤ base)
    (low : base - reserved modules ≤ p) (high : p < base) :
    ∃ k, ∃ inside : k < modules.length, ∃ q, q < modules[k].rounded ∧
      p = blockBase base modules (k + 1) + q := by
  induction modules generalizing base with
  | nil => simp only [reserved_nil] at low; omega
  | cons m rest ih =>
    rw [reserved_cons] at room low
    by_cases first : base - m.rounded ≤ p
    · refine ⟨0, by simp, p - (base - m.rounded), ?_, ?_⟩
      · show p - (base - m.rounded) < m.rounded
        omega
      · simp only [blockBase, List.take_succ_cons, List.take_zero, reserved_cons, reserved_nil]
        omega
    · obtain ⟨k, inside, q, within, here⟩ := @ih (base - m.rounded) (by omega) (by omega) (by omega)
      refine ⟨k + 1, by simpa using inside, q, within, ?_⟩
      rw [here, blockBase_cons]

/-! ### The two copies -/

/-- The copy of the constructor: source and destination both start after the padding. -/
def constructCopy (mem : Mem) (m : Module) (base : Nat) (bytes : Mem) : Mem :=
  memcpy bytes (base + m.image.memOffset) mem (m.image.data + m.image.memOffset) m.image.imageSize

/-- The copy of the reset: the image goes to the start of the block. -/
def resetCopy (mem : Mem) (m : Module) (base : Nat) (bytes : Mem) : Mem :=
  memcpy bytes base mem m.image.data m.image.imageSize

/-- The image fits behind the padding. -/
theorem Module.memOffset_add_le (m : Module) : m.image.memOffset + m.phdr.filesz ≤ m.rounded := by
  have total : m.image.memOffset + m.phdr.memsz = m.rounded := m.image_reserve
  have := m.filled
  omega

/-- A copied byte is the source's. -/
theorem memcpy_inside {bytes source : Mem} {dest src count q : Nat} (within : q < count) :
    memcpy bytes dest source src count (dest + q) = source (src + q) := by
  rw [memcpy, if_pos (by omega), Nat.add_sub_cancel_left]

/-- A byte outside the destination keeps its value. -/
theorem memcpy_outside {bytes source : Mem} {dest src count p : Nat}
    (elsewhere : p < dest ∨ dest + count ≤ p) : memcpy bytes dest source src count p = bytes p := by
  rw [memcpy, if_neg (by omega)]

/-- The constructor copies what lies behind the padding, in the image as in the block. -/
theorem fills_constructCopy (mem : Mem) :
    Fills (constructCopy mem) fun m q old =>
      if m.image.memOffset ≤ q ∧ q < m.image.memOffset + m.phdr.filesz then
        mem (m.image.data + q) else old where
  inside m base bytes q within := by
    split
    · rename_i copied
      obtain ⟨r, rfl⟩ := Nat.exists_eq_add_of_le copied.1
      rw [constructCopy, ← Nat.add_assoc, memcpy_inside (by rw [m.image_size]; omega),
        Nat.add_assoc]
    · rename_i kept
      exact memcpy_outside (by rw [m.image_size]; omega)
  outside m base bytes p elsewhere := by
    have := m.memOffset_add_le
    exact memcpy_outside (by rw [m.image_size]; omega)

/-- The reset copies the image to the start of the block. -/
theorem fills_resetCopy (mem : Mem) :
    Fills (resetCopy mem) fun m q old =>
      if q < m.phdr.filesz then mem (m.image.data + q) else old where
  inside m base bytes q within := by
    split
    · exact memcpy_inside (by rwa [m.image_size])
    · exact memcpy_outside (by rw [m.image_size]; omega)
  outside m base bytes p elsewhere := by
    have := m.memOffset_add_le
    exact memcpy_outside (by rw [m.image_size]; omega)

/-! ### The two loops -/

/-- The bytes the loop of the constructor leaves. -/
theorem construct_bytes {images : Images} {mem : Mem} {rest : List Module} :
    ∀ {j len : Nat} {l : Layout}, HoldsFrom images j rest → rest.length ≤ len →
      ((List.range' j len).foldl (constructSlot images mem) l).bytes =
        layBlocks (constructCopy mem) rest l.imageBase l.bytes := by
  induction rest with
  | nil =>
    intro j len l holds few
    rw [construct_skips holds]
    rfl
  | cons m rest ih =>
    intro j len l holds few
    obtain ⟨len, rfl⟩ : ∃ less, len = less + 1 :=
      ⟨len - 1, by simp only [List.length_cons] at few; omega⟩
    rw [List.range'_succ, List.foldl_cons, constructSlot_head holds.head,
      ih holds.tail (by simpa using few)]
    rfl

/-- The layout after a module took its slot in the loop of the reset. -/
def replaced (mem : Mem) (m : Module) (l : Layout) : Layout :=
  { imageBase := l.imageBase - m.rounded, module := l.module + 1
    bytes := resetCopy mem m (l.imageBase - m.rounded) l.bytes
    dtv := Function.update l.dtv (l.module + 2) ⟨l.imageBase - m.rounded, true⟩ }

/-- A slot with a module replaces its block, once the base is known to be consistent. -/
theorem resetImages_head {images : Images} {mem : Mem} {l : Layout} {j oldBase : Nat} {m : Module}
    {slots : List Nat} (holds : images j = m.image) (more : oldBase < l.imageBase)
    (room : oldBase ≤ l.imageBase - m.rounded) :
    resetImages images mem oldBase (j :: slots) l =
      resetImages images mem oldBase slots (replaced mem m l) := by
  rw [resetImages, holds, if_pos more, if_neg m.image_data, m.image_reserve]
  simp only [Nat.not_lt.mpr room, ↓reduceIte]
  rfl

/-- The loop of the reset skips the slots after the last module. -/
theorem resetImages_skips {images : Images} {mem : Mem} {j len oldBase : Nat} {l : Layout}
    (holds : HoldsFrom images j []) :
    resetImages images mem oldBase (List.range' j len) l = .ok l := by
  induction len generalizing j with
  | zero => rfl
  | succ len ih =>
    have empty : (images j).data = 0 := by rw [show images j = noImage from holds 0]; rfl
    rw [List.range'_succ, resetImages, if_pos empty]
    split
    · refine ih fun i => ?_
      rw [Nat.add_right_comm]
      exact holds (i + 1)
    · rfl

/-- The loop of the reset never finds the images inconsistent; it stops at the last byte. -/
theorem resetImages_ok {images : Images} {mem : Mem} {rest : List Module} :
    ∀ {j len oldBase : Nat} {l : Layout}, HoldsFrom images j rest → rest.length ≤ len →
      oldBase + reserved rest = l.imageBase →
      ∃ l', resetImages images mem oldBase (List.range' j len) l = .ok l' ∧
        l'.bytes = layBlocks (resetCopy mem) rest l.imageBase l.bytes ∧
        (∀ k, k < rest.length → oldBase < blockBase l.imageBase rest k →
          l'.dtv (l.module + 2 + k) = ⟨blockBase l.imageBase rest (k + 1), true⟩) ∧
        ∀ i, (∀ k, k < rest.length → oldBase < blockBase l.imageBase rest k →
          i ≠ l.module + 2 + k) → l'.dtv i = l.dtv i := by
  induction rest with
  | nil =>
    intro j len oldBase l holds few total
    exact ⟨l, resetImages_skips holds, rfl, fun k inside => absurd inside (by simp),
      fun i kept => rfl⟩
  | cons m rest ih =>
    intro j len oldBase l holds few total
    obtain ⟨len, rfl⟩ : ∃ less, len = less + 1 :=
      ⟨len - 1, by simp only [List.length_cons] at few; omega⟩
    rw [List.range'_succ]
    rw [reserved_cons] at total
    by_cases more : oldBase < l.imageBase
    · obtain ⟨l', ok, bytes, written, kept⟩ := @ih (j + 1) len oldBase (replaced mem m l)
        holds.tail (by simpa using few) (by show _ = l.imageBase - m.rounded; omega)
      have top : oldBase < blockBase l.imageBase (m :: rest) 0 := by simpa [blockBase] using more
      refine ⟨l', ?_, bytes, fun k inside above => ?_, fun i avoids => ?_⟩
      · rw [resetImages_head holds.head more (by omega)]
        exact ok
      · cases k with
        | zero =>
          -- The later modules write the slots above this one.
          rw [kept _ fun k _ _ => by simp only [replaced]; omega, blockBase_cons]
          simp [replaced, blockBase]
        | succ k =>
          rw [blockBase_cons] at above ⊢
          have := written k (by simpa using inside) above
          rwa [show (replaced mem m l).module + 2 + k = l.module + 2 + (k + 1) by
            simp only [replaced]; omega] at this
      · have own : i ≠ l.module + 2 := avoids 0 (by simp) top
        rw [kept]
        · exact Function.update_of_ne own _ _
        · intro k inside above
          have := avoids (k + 1) (by simpa using inside) (by rwa [blockBase_cons])
          simp only [replaced]
          omega
    · -- Nothing is left above the old base, so the remaining blocks are empty.
      refine ⟨l, ?_, ?_, fun k inside above => ?_, fun i avoids => rfl⟩
      · rw [resetImages, if_neg more]
      · exact (layBlocks_empty (fills_resetCopy mem) (by rw [reserved_cons]; omega)).symm
      · have : blockBase l.imageBase (m :: rest) k ≤ l.imageBase := Nat.sub_le _ _
        omega

/-! ### Construction and reset compared -/

/-- A byte of a module's block as the ABI wants it: the initialisation image, then zeros. -/
def Module.initial (mem : Mem) (m : Module) (q : Nat) : UInt8 :=
  if q < m.phdr.filesz then mem (m.addr + m.phdr.vaddr + q) else 0

/-- The bytes that the constructor drops before the padding and copies behind the image are 0. -/
def Module.ZeroAround (mem : Mem) (m : Module) : Prop :=
  (∀ q, q < padding m.phdr.memsz m.phdr.align → q < m.phdr.filesz →
    mem (m.addr + m.phdr.vaddr + q) = 0) ∧
  ∀ q, m.phdr.filesz ≤ q → padding m.phdr.memsz m.phdr.align ≤ q →
    q < padding m.phdr.memsz m.phdr.align + m.phdr.filesz → mem (m.addr + m.phdr.vaddr + q) = 0

/-- What a task may have done to a storage: its bytes and dynamic slots are anything. -/
structure Used (modules : List Module) (fresh t : Tls) : Prop where
  after : t.after = fresh.after
  base : t.base = fresh.base
  static : ∀ i, i = 1 ∨ i ≤ modules.length → t.dtv i = fresh.dtv i

/-- A storage is as the constructor left the fresh one, and both hold the initial images. -/
structure Restored (mem : Mem) (modules : List Module) (fresh t : Tls) : Prop where
  bytes : ∀ p, fresh.base ≤ p → p < fresh.after → t.bytes p = fresh.bytes p
  dtv : ∀ i, 1 ≤ i → i ≤ kNumSlots + 1 → t.dtv i = fresh.dtv i
  images : ∀ k, (inside : k < modules.length) → ∀ q, q < modules[k].rounded →
    fresh.bytes ((fresh.dtv (k + 1)).v + q) = modules[k].initial mem q ∧
      t.bytes ((fresh.dtv (k + 1)).v + q) = modules[k].initial mem q

/-- The modules for which a reset is like a construction. -/
def ResetsAlike (mem : Mem) : List Module → Prop
  | [] => True
  | [m] => m.phdr.memsz = 0
  | [m, last] => 0 < m.phdr.memsz ∧ last.phdr.memsz = 0 ∧ m.ZeroAround mem
  | _ => False

/-- The constructor's copy is the initial image exactly when zeros surround it. -/
theorem Module.zeroAround_iff (mem : Mem) (m : Module) :
    m.ZeroAround mem ↔ ∀ q, q < m.rounded →
      (if m.image.memOffset ≤ q ∧ q < m.image.memOffset + m.phdr.filesz then
        mem (m.image.data + q) else 0) = m.initial mem q := by
  have fits := m.memOffset_add_le
  have filled := m.filled
  rw [ZeroAround, ← m.image_memOffset]
  show _ ↔ ∀ q, q < m.rounded →
    (if m.image.memOffset ≤ q ∧ q < m.image.memOffset + m.phdr.filesz then
      mem (m.addr + m.phdr.vaddr + q) else 0) = m.initial mem q
  constructor
  · rintro ⟨before, behind⟩ q within
    rw [initial]
    by_cases copied : m.image.memOffset ≤ q ∧ q < m.image.memOffset + m.phdr.filesz
    · rw [if_pos copied]
      split
      · rfl
      · exact behind q (by omega) copied.1 copied.2
    · rw [if_neg copied]
      split
      · exact (before q (by omega) (by omega)).symm
      · rfl
  · intro agree
    constructor
    · intro q early inImage
      have := agree q (by omega)
      rw [initial, if_neg (by omega), if_pos inImage] at this
      exact this.symm
    · intro q late padded copied
      have := agree q (by omega)
      rwa [initial, if_pos ⟨padded, copied⟩, if_neg (by omega)] at this

/-- A reset of a storage with a consistent base succeeds and restores every initial image. -/
theorem reset_ok {modules : List Module} (few : modules.length ≤ kNumSlots) (mem : Mem) {t : Tls}
    (total : t.base + reserved modules = t.after) :
    ∃ t', t.reset (table modules) mem = .ok t' ∧
      (∀ k, (inside : k < modules.length) → ∀ q, q < modules[k].rounded →
        t'.bytes (blockBase t.after modules (k + 1) + q) = modules[k].initial mem q) ∧
      (∀ k, k < modules.length → t.base < blockBase t.after modules k →
        t'.dtv (k + 2) = ⟨blockBase t.after modules (k + 1), true⟩) ∧
      ∀ i, (∀ k, k < modules.length → t.base < blockBase t.after modules k → i ≠ k + 2) →
        t'.dtv i = clearDynamic t.dtv i := by
  obtain ⟨l, ok, bytes, written, kept⟩ := @resetImages_ok (table modules) mem modules 0 kNumSlots
    t.base ⟨t.after, 0, clearDynamic t.dtv, zeroOut t.bytes t.base (t.after - t.base)⟩
    (holdsFrom_table modules) few total
  let t' : Tls := { t with
    dtv := l.dtv, bytes := l.bytes, freed := t.freed ++ dynamicBlocks t.dtv, didCtypeInit := false }
  refine ⟨t', ?_, fun k inside q within => ?_, fun k inside above => ?_, fun i avoids => ?_⟩
  · rw [Tls.reset, List.range_eq_range', ok]
    rfl
  · show l.bytes _ = _
    rw [bytes, layBlocks_block (fills_resetCopy mem) (by show _ ≤ t.after; omega) inside within]
    -- What the copy leaves alone was zeroed before, since it lies in the static area.
    have ends := @blockBase_succ_add t.after modules k inside (by omega)
    have low := @blockBase_anti t.after modules (k + 1) modules.length inside
    have high := @blockBase_anti t.after modules 0 k (by omega)
    simp only [blockBase, List.take_length, List.take_zero, reserved_nil] at ends low high
    have zeroed : zeroOut t.bytes t.base (t.after - t.base)
        (blockBase t.after modules (k + 1) + q) = 0 := by
      rw [zeroOut, if_pos]
      simp only [blockBase]
      omega
    exact if_congr Iff.rfl rfl zeroed
  · have := written k inside above
    rwa [show (0 : Nat) + 2 + k = k + 2 by omega] at this
  · refine kept i fun k inside above => ?_
    have := avoids k inside above
    show i ≠ 0 + 2 + k
    omega

/-- The blocks of a storage constructed on zeros hold what the constructor's copy brings. -/
theorem construct_block {modules : List Module} (few : modules.length ≤ kNumSlots) (mem : Mem)
    (magic : MagicPointers) {after : Nat} {storage : Mem} (thread : Nat)
    (room : reserved modules ≤ after)
    (zeroed : ∀ p, after - reserved modules ≤ p → p < after → storage p = 0)
    {k : Nat} (inside : k < modules.length) {q : Nat} (within : q < modules[k].rounded) :
    (construct (table modules) mem magic after storage thread).bytes
        (blockBase after modules (k + 1) + q) =
      if modules[k].image.memOffset ≤ q ∧
          q < modules[k].image.memOffset + modules[k].phdr.filesz then
        mem (modules[k].image.data + q) else 0 := by
  have bytes := @construct_bytes (table modules) mem modules 0 kNumSlots
    ⟨after, 0, fun i => if i = 1 then ⟨after, false⟩ else ⟨unallocated, false⟩, storage⟩
    (holdsFrom_table modules) few
  rw [construct, List.range_eq_range']
  show Layout.bytes _ _ = _
  rw [bytes, layBlocks_block (fills_constructCopy mem) room inside within]
  have ends := blockBase_succ_add inside room
  have low := @blockBase_anti after modules (k + 1) modules.length inside
  have high := @blockBase_anti after modules 0 k (by omega)
  simp only [blockBase, List.take_length, List.take_zero, reserved_nil] at ends low high
  have zero := zeroed (blockBase after modules (k + 1) + q) (by simp only [blockBase]; omega)
    (by simp only [blockBase]; omega)
  exact if_congr Iff.rfl rfl zero

/-- The vector is restored for no modules, for one that is empty, and for an empty second. -/
theorem dtv_restored_iff {modules : List Module} (few : modules.length ≤ kNumSlots)
    {mem : Mem} {magic : MagicPointers} {after : Nat} {storage : Mem} {thread : Nat} {t t' : Tls}
    (used : Used modules (construct (table modules) mem magic after storage thread) t)
    (room : reserved modules ≤ after)
    (written : ∀ k, k < modules.length → t.base < blockBase after modules k →
      t'.dtv (k + 2) = ⟨blockBase after modules (k + 1), true⟩)
    (kept : ∀ i, (∀ k, k < modules.length → t.base < blockBase after modules k → i ≠ k + 2) →
      t'.dtv i = clearDynamic t.dtv i) :
    (∀ i, 1 ≤ i → i ≤ kNumSlots + 1 →
      t'.dtv i = (construct (table modules) mem magic after storage thread).dtv i) ↔
      modules.length = 0 ∨ (modules.length = 1 ∧ reserved modules = 0) ∨
        (modules.length = 2 ∧ 0 < reserved modules ∧
          reserved (modules.take 1) = reserved modules) := by
  have base : t.base = after - reserved modules := by
    rw [used.base, construct, prefixBytes_table few]
  have cleared : ∀ i, 2 ≤ i → i ≤ kNumSlots + 1 →
      clearDynamic t.dtv i = ⟨unallocated, false⟩ := by
    intro i low high
    rw [clearDynamic, if_pos ⟨low, by omega⟩]
  have first : clearDynamic t.dtv 1 =
      (construct (table modules) mem magic after storage thread).dtv 1 := by
    rw [clearDynamic, if_neg (by omega)]
    exact used.static 1 (.inl rfl)
  have lowest : blockBase after modules modules.length = t.base := by
    rw [base, blockBase, List.take_length]
  have highest : blockBase after modules 0 = after := by simp [blockBase]
  constructor
  · intro agree
    -- A module's slot is the one after its own, so each base must be that of the next module.
    have shifted : ∀ k, k + 2 ≤ modules.length →
        t.base < blockBase after modules k ∧
          blockBase after modules (k + 1) = blockBase after modules (k + 2) := by
      intro k inside
      have same := agree (k + 2) (by omega) (by omega)
      rw [construct_table_dtv few, if_pos (by omega)] at same
      by_cases above : t.base < blockBase after modules k
      · rw [written k (by omega) above] at same
        exact ⟨above, congrArg DtvSlot.v same⟩
      · rw [kept _ fun k' _ higher other => by
          obtain rfl : k' = k := by omega
          exact above higher, cleared _ (by omega) (by omega)] at same
        exact absurd (congrArg DtvSlot.isStatic same) (by simp)
    have flat : ∀ k, k + 1 ≤ modules.length →
        blockBase after modules (k + 1) = blockBase after modules 1 := by
      intro k
      induction k with
      | zero => intro _; rfl
      | succ k ih =>
        intro inside
        rw [← (shifted k inside).2]
        exact ih (by omega)
    rcases Nat.lt_or_ge modules.length 2 with small | large
    · rcases Nat.lt_or_ge modules.length 1 with none | one
      · exact .inl (by omega)
      · refine .inr (.inl ⟨by omega, ?_⟩)
        by_contra some_
        have same := agree 2 (by omega) (by simp [kNumSlots])
        rw [written 0 (by omega) (by omega), construct_table_dtv few, if_neg (by omega)] at same
        exact absurd (congrArg DtvSlot.isStatic same) (by simp)
    · have start := shifted 0 (by omega)
      rcases Nat.lt_or_ge modules.length 3 with two | more
      · have two : modules.length = 2 := by omega
        refine .inr (.inr ⟨two, by omega, ?_⟩)
        have fits := reserved_take_le modules 1
        have equal : after - reserved (modules.take 1) = after - reserved (modules.take 2) :=
          start.2
        rw [List.take_of_length_le (show modules.length ≤ 2 by omega)] at equal
        omega
      · -- The last slot is written only above the base, where all blocks from the first one end.
        obtain ⟨k, count⟩ : ∃ k, modules.length = k + 3 := ⟨modules.length - 3, by omega⟩
        have above := (shifted (k + 1) (by omega)).1
        rw [flat k (by omega), ← flat (k + 2) (by omega), show k + 2 + 1 = modules.length by omega,
          lowest] at above
        omega
  · intro shape i low high
    rcases shape with none | ⟨one, empty⟩ | ⟨two, some_, second⟩
    · rw [kept i fun k inside => by omega]
      rcases Nat.eq_or_lt_of_le low with rfl | later
      · exact first
      · rw [cleared i later high, construct_table_dtv few, if_neg (by omega), if_neg (by omega)]
    · have unwritten : ∀ k, ¬ t.base < blockBase after modules k := by
        intro k
        have := @blockBase_anti after modules 0 k (by omega)
        omega
      rw [kept i fun k _ above => absurd above (unwritten k)]
      rcases Nat.eq_or_lt_of_le low with rfl | later
      · exact first
      · rw [cleared i later high, construct_table_dtv few, if_neg (by omega), if_neg (by omega)]
    · have bottom : blockBase after modules 1 = t.base := by rw [blockBase, second, base]
      by_cases own : i = 2
      · subst own
        rw [written 0 (by omega) (by omega), construct_table_dtv few, if_pos (by omega), ← two,
          lowest]
        exact congrArg (DtvSlot.mk · true) bottom
      · rw [kept i fun k inside above other => by
          obtain rfl : k = 1 := by omega
          omega]
        rcases Nat.eq_or_lt_of_le low with rfl | later
        · exact first
        · rw [cleared i later high, construct_table_dtv few, if_neg (by omega), if_neg (by omega)]

/-- The bytes are restored exactly when each module with a block has zeros around its image. -/
theorem bytes_restored_iff {modules : List Module} (few : modules.length ≤ kNumSlots)
    {mem : Mem} {magic : MagicPointers} {after : Nat} {storage : Mem} {thread : Nat} {t' : Tls}
    (room : reserved modules ≤ after)
    (zeroed : ∀ p, after - reserved modules ≤ p → p < after → storage p = 0)
    (blocks : ∀ k, (inside : k < modules.length) → ∀ q, q < modules[k].rounded →
      t'.bytes (blockBase after modules (k + 1) + q) = modules[k].initial mem q) :
    ((∀ p, after - reserved modules ≤ p → p < after →
        t'.bytes p = (construct (table modules) mem magic after storage thread).bytes p) ∧
      ∀ k, (inside : k < modules.length) → ∀ q, q < modules[k].rounded →
        (construct (table modules) mem magic after storage thread).bytes
            (blockBase after modules (k + 1) + q) = modules[k].initial mem q ∧
          t'.bytes (blockBase after modules (k + 1) + q) = modules[k].initial mem q) ↔
      ∀ m ∈ modules, m.ZeroAround mem := by
  constructor
  · rintro ⟨-, images⟩ m member
    obtain ⟨k, inside, rfl⟩ := List.getElem_of_mem member
    rw [Module.zeroAround_iff]
    intro q within
    rw [← construct_block few mem magic thread room zeroed inside within]
    exact (images k inside q within).1
  · intro around
    have fresh : ∀ k, (inside : k < modules.length) → ∀ q, q < modules[k].rounded →
        (construct (table modules) mem magic after storage thread).bytes
          (blockBase after modules (k + 1) + q) = modules[k].initial mem q := by
      intro k inside q within
      rw [construct_block few mem magic thread room zeroed inside within]
      exact (Module.zeroAround_iff mem _).mp (around _ (List.getElem_mem inside)) q within
    refine ⟨fun p low high => ?_, fun k inside q within =>
      ⟨fresh k inside q within, blocks k inside q within⟩⟩
    obtain ⟨k, inside, q, within, rfl⟩ := exists_block room low high
    rw [fresh k inside q within, blocks k inside q within]

/-- A module without bytes has nothing around its image. -/
theorem Module.zeroAround_of_empty {m : Module} (mem : Mem) (empty : m.phdr.memsz = 0) :
    m.ZeroAround mem := by
  have := m.filled
  exact ⟨fun q _ inImage => by omega, fun q late _ copied => by omega⟩

/-- A block takes no room exactly when its module has no bytes. -/
theorem Module.rounded_eq_zero {m : Module} : m.rounded = 0 ↔ m.phdr.memsz = 0 :=
  roundUp_eq_zero m.align_pos

/-- The shapes of the vector and the zeros around the images together, as conditions on sizes. -/
theorem resetsAlike_iff (mem : Mem) (modules : List Module) :
    ResetsAlike mem modules ↔
      (modules.length = 0 ∨ (modules.length = 1 ∧ reserved modules = 0) ∨
        (modules.length = 2 ∧ 0 < reserved modules ∧
          reserved (modules.take 1) = reserved modules)) ∧
      ∀ m ∈ modules, m.ZeroAround mem := by
  match modules with
  | [] => simp [ResetsAlike]
  | [m] =>
    simp only [ResetsAlike, List.length_cons, List.length_nil, reserved_cons, reserved_nil,
      Nat.add_zero, Module.rounded_eq_zero, List.mem_singleton, forall_eq]
    constructor
    · intro empty
      exact ⟨.inr (.inl ⟨trivial, empty⟩), Module.zeroAround_of_empty mem empty⟩
    · rintro ⟨none | ⟨-, empty⟩ | ⟨two, -⟩, -⟩
      · omega
      · exact empty
      · omega
  | [m, last] =>
    simp only [ResetsAlike, List.length_cons, List.length_nil, reserved_cons, reserved_nil,
      Nat.add_zero, List.take_succ_cons, List.take_zero, List.mem_cons, List.not_mem_nil, or_false,
      forall_eq_or_imp, forall_eq]
    have full := @Module.rounded_eq_zero m
    have empty := @Module.rounded_eq_zero last
    constructor
    · rintro ⟨some_, none, around⟩
      exact ⟨.inr (.inr ⟨trivial, by omega, by omega⟩), around, Module.zeroAround_of_empty mem none⟩
    · rintro ⟨none | ⟨one, -⟩ | ⟨-, some_, second⟩, around, -⟩
      · omega
      · omega
      · exact ⟨by omega, by omega, around⟩
  | _ :: _ :: _ :: rest =>
    simp only [ResetsAlike, List.length_cons, false_iff, not_and]
    intro shape
    omega

/-- A reset succeeds, and restores the constructed storage exactly for these modules. -/
theorem reset_restored_iff {objects : List DlPhdrInfo} {modules : List Module} {images : Images}
    (loads : Loads objects modules) (few : modules.length ≤ kNumSlots)
    (found : findTlsImages objects = some images) (mem : Mem) (magic : MagicPointers) {after : Nat}
    (room : prefixBytes images ≤ after) {storage : Mem}
    (zeroed : ∀ p, after - prefixBytes images ≤ p → p < after → storage p = 0) (thread : Nat)
    {t : Tls} (used : Used modules (construct images mem magic after storage thread) t) :
    ∃ t', t.reset images mem = .ok t' ∧
      (Restored mem modules (construct images mem magic after storage thread) t' ↔
        ResetsAlike mem modules) := by
  rw [findTlsImages_eq_table loads] at found
  cases found
  rw [prefixBytes_table few] at room zeroed
  have here : t.after = after := used.after
  have base : t.base = after - reserved modules := by
    rw [used.base, construct, prefixBytes_table few]
  obtain ⟨t', ok, blocks, written, kept⟩ := reset_ok few mem (t := t) (by omega)
  rw [here] at blocks written kept
  refine ⟨t', ok, ?_⟩
  rw [resetsAlike_iff, ← dtv_restored_iff few used room written kept,
    ← @bytes_restored_iff modules few mem magic after storage thread t' room zeroed blocks]
  have fresh : (construct (table modules) mem magic after storage thread).base =
      after - reserved modules := by rw [construct, prefixBytes_table few]
  have start : ∀ k, k < modules.length →
      ((construct (table modules) mem magic after storage thread).dtv (k + 1)).v =
        blockBase after modules (k + 1) := by
    intro k inside
    rw [construct_table_dtv few, if_pos (by omega)]
  constructor
  · intro restored
    refine ⟨restored.dtv, fun p low high => restored.bytes p (by omega) high,
      fun k inside q within => ?_⟩
    rw [← start k inside]
    exact restored.images k inside q within
  · rintro ⟨dtv, bytes, images⟩
    refine ⟨fun p low high => bytes p (by omega) high, dtv, fun k inside q within => ?_⟩
    rw [start k inside]
    exact images k inside q within

/-- A module without thread-local bytes. -/
def emptyModule : Module :=
  ⟨8192, ⟨.tls, 64, 0, 0, 8⟩, rfl, by decide, 3, by decide, by decide, by decide⟩

/-- A storage for a module with bytes and an empty one. -/
def pairedFresh : Tls :=
  construct (table [narrowModule, emptyModule]) (fun p => UInt8.ofNat p) ⟨0, 0, 0, 0⟩ 65536
    (fun _ => 0) 0

/-- The same storage after a task wrote all of its bytes and the runtime loaded a module. -/
def pairedUsed : Tls :=
  { pairedFresh with
    bytes := fun _ => 9, dtv := Function.update pairedFresh.dtv 5 ⟨77, false⟩ }

/-- An empty second module hides both differences. -/
theorem reset_restored_iff_paired :
    ∃ t', pairedUsed.reset (table [narrowModule, emptyModule]) (fun p => UInt8.ofNat p) = .ok t' ∧
      Restored (fun p => UInt8.ofNat p) [narrowModule, emptyModule] pairedFresh t' := by
  have loads : Loads (objectsOf [narrowModule, emptyModule]) [narrowModule, emptyModule] :=
    List.Perm.of_eq (by decide)
  have used : Used [narrowModule, emptyModule] pairedFresh pairedUsed := by
    refine ⟨rfl, rfl, fun i static => Function.update_of_ne ?_ _ _⟩
    simp only [List.length_cons, List.length_nil] at static
    omega
  obtain ⟨t', ok, restored⟩ := reset_restored_iff loads (by decide) (findTlsImages_eq_table loads)
    (fun p => UInt8.ofNat p) ⟨0, 0, 0, 0⟩ (show _ ≤ 65536 by decide +kernel)
    (fun _ _ _ => rfl) 0 used
  refine ⟨t', ok, restored.mpr ⟨by decide, by decide, ?_⟩⟩
  -- The first module needs no padding, so its copy starts at the block's start.
  have none : padding narrowModule.phdr.memsz narrowModule.phdr.align = 0 := by decide
  refine ⟨fun q early => ?_, fun q late _ copied => ?_⟩
  · rw [none] at early
    omega
  · rw [none] at copied
    omega

/-- A reset records the block of the only module in the slot of a second one. -/
theorem reset_shifts_slot :
    Loads (objectsOf [narrowModule]) [narrowModule] ∧
      ∃ images t t', findTlsImages (objectsOf [narrowModule]) = some images ∧
        t = construct images (fun p => UInt8.ofNat p) ⟨0, 0, 0, 0⟩ 65536 (fun _ => 0) 0 ∧
        t.reset images (fun p => UInt8.ofNat p) = .ok t' ∧
        t.dtv 2 = ⟨unallocated, false⟩ ∧ t'.dtv 2 = ⟨65528, true⟩ ∧
        ¬ Restored (fun p => UInt8.ofNat p) [narrowModule] t t' := by
  have loads : Loads (objectsOf [narrowModule]) [narrowModule] := List.Perm.of_eq (by decide)
  obtain ⟨t', ok, -, written, -⟩ := @reset_ok [narrowModule] (by decide) (fun p => UInt8.ofNat p)
    (construct (table [narrowModule]) (fun p => UInt8.ofNat p) ⟨0, 0, 0, 0⟩ 65536 (fun _ => 0) 0)
    (by decide +kernel)
  have slot : t'.dtv 2 = ⟨65528, true⟩ := written 0 (by decide) (by decide +kernel)
  have fresh : (construct (table [narrowModule]) (fun p => UInt8.ofNat p) ⟨0, 0, 0, 0⟩ 65536
      (fun _ => 0) 0).dtv 2 = ⟨unallocated, false⟩ := by decide +kernel
  refine ⟨loads, _, _, t', findTlsImages_eq_table loads, rfl, ok, fresh, slot, fun restored => ?_⟩
  have same := restored.dtv 2 (by decide) (by decide)
  rw [slot, fresh] at same
  exact absurd same (by decide)

end Gthread.Platform

import Mathlib.Data.List.Nodup
import Mathlib.Order.CompletePartialOrder
import Mathlib.Order.Interval.Set.Disjoint
import Gthread.Platform.Tls

/-! Where the blocks of a constructed storage lie, against the offsets of the ELF TLS ABI. -/

namespace Gthread.Platform

open RoundUp

namespace Module

variable (m : Module)

/-- The size of a block rounded up to its alignment. -/
def rounded : Nat := roundUp m.phdr.memsz m.phdr.align

theorem align_pos : 0 < m.phdr.align := by
  rw [m.power]
  exact Nat.two_pow_pos m.log

/-- The mask of the code computes the padding of the block. -/
theorem image_memOffset : m.image.memOffset = padding m.phdr.memsz m.phdr.align := by
  have positive := m.align_pos
  have room := m.fits
  have log : m.log ≤ 64 := by
    by_contra large
    have : 2 ^ 64 < 2 ^ m.log := Nat.pow_lt_pow_right (by omega) (by omega)
    have := m.power
    omega
  have bound : m.phdr.memsz < 2 ^ 64 := by omega
  show (2 ^ 64 - m.phdr.memsz) % 2 ^ 64 &&& (m.phdr.align - 1) = _
  rw [m.power]
  exact neg_and_eq_padding log bound

/-- The reserved bytes are the rounded size. -/
theorem image_reserve : m.image.reserve = m.rounded := by
  show m.image.memOffset + m.phdr.memsz = _
  rw [image_memOffset]
  exact padding_add m.align_pos _

theorem image_data : m.image.data ≠ 0 := Nat.pos_iff_ne_zero.mp m.mapped

theorem image_size : m.image.imageSize = m.phdr.filesz := rfl

end Module

/-- The array of images that holds one module after another. -/
def table (modules : List Module) : Images := fun i => (modules[i]?.map Module.image).getD noImage

@[simp] theorem table_nil (i : Nat) : table [] i = noImage := rfl

@[simp] theorem table_cons_zero (m : Module) (rest : List Module) :
    table (m :: rest) 0 = m.image := rfl

@[simp] theorem table_cons_succ (m : Module) (rest : List Module) (i : Nat) :
    table (m :: rest) (i + 1) = table rest i := rfl

/-- A slot holds an image exactly when it belongs to a module. -/
theorem table_data (modules : List Module) (i : Nat) :
    (table modules i).data ≠ 0 ↔ i < modules.length := by
  constructor
  · intro present
    by_contra outside
    exact present (by simp [table, List.getElem?_eq_none (not_lt.mp outside), noImage])
  · intro inside
    simpa [table, List.getElem?_eq_getElem inside] using Module.image_data _

/-! ### Discovery -/

/-- The array after a callback found one header. -/
def storeEntry (images : Images) (e : (Nat × Phdr) × Nat) : Images :=
  Function.update images (e.2 - 1) (tlsImage e.1.1 e.1.2)

/-- Objects without a TLS header leave the array alone, the others each store one entry. -/
theorem foldlM_init_eq {objects : List DlPhdrInfo} (images : Images)
    (numbered : ∀ e ∈ objects.filterMap DlPhdrInfo.entry, 0 < e.2) :
    objects.foldlM dlIteratePhdrInitCb images =
      some ((objects.filterMap DlPhdrInfo.entry).foldl storeEntry images) := by
  induction objects generalizing images with
  | nil => rfl
  | cons info rest ih =>
    rw [List.foldlM_cons]
    cases found : info.tlsPhdr with
    | none =>
      have skipped : info.entry = none := by simp [DlPhdrInfo.entry, found]
      rw [List.filterMap_cons_none skipped] at numbered ⊢
      simp only [dlIteratePhdrInitCb, found, Option.bind_eq_bind, Option.bind_some]
      exact ih images numbered
    | some phdr =>
      have stored : info.entry = some ((info.addr, phdr), info.tlsModid) := by
        simp [DlPhdrInfo.entry, found]
      rw [List.filterMap_cons_some stored] at numbered ⊢
      have positive : 0 < info.tlsModid := numbered _ List.mem_cons_self
      simp only [dlIteratePhdrInitCb, found, positive, ↓reduceIte, Option.bind_eq_bind,
        Option.bind_some, List.foldl_cons]
      exact ih _ fun e member => numbered e (List.mem_cons_of_mem _ member)

/-- A slot that no entry is about keeps its image. -/
theorem foldl_storeEntry_absent {entries : List ((Nat × Phdr) × Nat)} {images : Images} {i : Nat}
    (absent : ∀ e ∈ entries, e.2 - 1 ≠ i) : entries.foldl storeEntry images i = images i := by
  induction entries generalizing images with
  | nil => rfl
  | cons e rest ih =>
    rw [List.foldl_cons, ih fun e member => absent e (List.mem_cons_of_mem _ member)]
    exact Function.update_of_ne (absent e List.mem_cons_self).symm _ _

/-- With distinct slots the order of the entries does not matter. -/
theorem foldl_storeEntry_present {entries : List ((Nat × Phdr) × Nat)} {images : Images}
    (distinct : (entries.map fun e => e.2 - 1).Nodup) {e : (Nat × Phdr) × Nat}
    (present : e ∈ entries) :
    entries.foldl storeEntry images (e.2 - 1) = tlsImage e.1.1 e.1.2 := by
  induction entries generalizing images with
  | nil => cases present
  | cons first rest ih =>
    rw [List.map_cons, List.nodup_cons] at distinct
    rw [List.foldl_cons]
    rcases List.mem_cons.mp present with rfl | later
    · -- No later entry is about this slot, so it keeps what was just stored.
      rw [foldl_storeEntry_absent]
      · exact Function.update_self _ _ _
      · intro other member same
        exact distinct.1 (List.mem_map.mpr ⟨other, member, same⟩)
    · exact ih distinct.2 later

/-- Whatever the order of the objects, the array holds the modules by their ids. -/
theorem findTlsImages_eq_table {objects : List DlPhdrInfo} {modules : List Module}
    (loads : Loads objects modules) : findTlsImages objects = some (table modules) := by
  have positive : ∀ e ∈ objects.filterMap DlPhdrInfo.entry, 0 < e.2 := by
    intro e member
    have := List.le_snd_of_mem_zipIdx (loads.mem_iff.mp member)
    omega
  rw [findTlsImages, foldlM_init_eq _ positive]
  congr 1
  funext i
  have slots : ((objects.filterMap DlPhdrInfo.entry).map fun e => e.2 - 1).Perm
      (List.range modules.length) := by
    refine (loads.map _).trans (List.Perm.of_eq ?_)
    apply List.ext_getElem <;> simp
  rcases Nat.lt_or_ge i modules.length with inside | outside
  · -- The entry of module `i + 1` is among those the objects stored.
    have member : ((modules[i].addr, modules[i].phdr), i + 1) ∈
        objects.filterMap DlPhdrInfo.entry := by
      refine loads.mem_iff.mpr (List.mk_mem_zipIdx_iff_le_and_getElem?_sub.mpr ⟨by omega, ?_⟩)
      simp [inside]
    have stored := @foldl_storeEntry_present _ (fun _ => noImage)
      (slots.nodup_iff.mpr List.nodup_range) _ member
    simpa [table, inside, Module.image] using stored
  · rw [foldl_storeEntry_absent]
    · simp [table, List.getElem?_eq_none outside]
    · intro e member same
      have := List.mem_range.mp (slots.mem_iff.mp (List.mem_map.mpr ⟨e, member, same⟩))
      omega

/-! ### Placement -/

/-- The bytes the images of a list of modules reserve. -/
def reserved (modules : List Module) : Nat := (modules.map Module.rounded).sum

@[simp] theorem reserved_nil : reserved [] = 0 := rfl

@[simp] theorem reserved_cons (m : Module) (rest : List Module) :
    reserved (m :: rest) = m.rounded + reserved rest := by
  simp [reserved]

/-- A shorter list of modules reserves no more. -/
theorem reserved_take_le (modules : List Module) (k : Nat) :
    reserved (modules.take k) ≤ reserved modules := by
  induction modules generalizing k with
  | nil => simp
  | cons m rest ih =>
    cases k with
    | zero => simp
    | succ k =>
      rw [List.take_succ_cons, reserved_cons, reserved_cons]
      exact Nat.add_le_add_left (ih k) _

/-- One more module reserves its own rounded size more. -/
theorem reserved_take_succ {modules : List Module} {k : Nat} (inside : k < modules.length) :
    reserved (modules.take (k + 1)) = reserved (modules.take k) + modules[k].rounded := by
  rw [List.take_succ_eq_append_getElem inside, reserved, List.map_append, List.sum_append]
  simp [reserved]

/-- The base of the block of the module in a slot, counted from the control block down. -/
def blockBase (after : Nat) (modules : List Module) (k : Nat) : Nat :=
  after - reserved (modules.take k)

/-- The slots with an image come first, so the prefix covers all of them. -/
theorem prefixBytes_table {modules : List Module} (few : modules.length ≤ kNumSlots) :
    prefixBytes (table modules) = reserved modules := by
  have slots : (List.range kNumSlots).takeWhile (fun i => (table modules i).data ≠ 0) =
      List.range modules.length := by
    have present : (fun i => decide ((table modules i).data ≠ 0)) =
        fun i => decide (i < modules.length) := by
      funext i
      exact decide_eq_decide.mpr (table_data modules i)
    rw [present]
    obtain ⟨extra, total⟩ := Nat.exists_eq_add_of_le few
    rw [total, List.range_add, List.takeWhile_append_of_pos (by simp)]
    -- The first slot after the modules ends the loop.
    cases extra <;> simp [List.range_succ_eq_map]
  rw [prefixBytes, slots, reserved]
  congr 1
  apply List.ext_getElem
  · simp
  · intro i inside _
    have : i < modules.length := by simpa using inside
    simp [table, this, Module.image_reserve]

/-- The slots from `j` on hold the given modules and nothing after them. -/
def HoldsFrom (images : Images) (j : Nat) (rest : List Module) : Prop :=
  ∀ i, images (j + i) = table rest i

/-- The slots after the first hold the remaining modules. -/
theorem HoldsFrom.tail {images : Images} {j : Nat} {m : Module} {rest : List Module}
    (holds : HoldsFrom images j (m :: rest)) : HoldsFrom images (j + 1) rest := by
  intro i
  rw [Nat.add_right_comm]
  exact holds (i + 1)

theorem HoldsFrom.head {images : Images} {j : Nat} {m : Module} {rest : List Module}
    (holds : HoldsFrom images j (m :: rest)) : images j = m.image := holds 0

theorem holdsFrom_table (modules : List Module) : HoldsFrom (table modules) 0 modules := by
  intro i
  rw [Nat.zero_add]

/-- The layout after a module took its slot in the loop of the constructor. -/
def placed (mem : Mem) (m : Module) (l : Layout) (i : Nat) : Layout :=
  { l with
    imageBase := l.imageBase - m.rounded
    bytes := memcpy l.bytes (l.imageBase - m.rounded + m.image.memOffset) mem
      (m.image.data + m.image.memOffset) m.image.imageSize
    dtv := Function.update l.dtv (i + 1) ⟨l.imageBase - m.rounded, true⟩ }

/-- A slot with a module places it. -/
theorem constructSlot_head {images : Images} {mem : Mem} {l : Layout} {j : Nat} {m : Module}
    (holds : images j = m.image) : constructSlot images mem l j = placed mem m l j := by
  rw [constructSlot, holds, if_neg m.image_data, m.image_reserve]
  rfl

/-- The loop of the constructor skips the slots after the last module. -/
theorem construct_skips {images : Images} {mem : Mem} {j len : Nat} {l : Layout}
    (holds : HoldsFrom images j []) :
    (List.range' j len).foldl (constructSlot images mem) l = l := by
  induction len generalizing j with
  | zero => rfl
  | succ len ih =>
    have empty : constructSlot images mem l j = l := by
      rw [constructSlot, show images j = noImage from holds 0]
      rfl
    rw [List.range'_succ, List.foldl_cons, empty]
    refine ih fun i => ?_
    rw [Nat.add_right_comm]
    exact holds (i + 1)

/-- The loop of the constructor gives each module the next lower block. -/
theorem construct_dtv {images : Images} {mem : Mem} {rest : List Module} :
    ∀ {j len : Nat} {l : Layout}, HoldsFrom images j rest → rest.length ≤ len → ∀ i,
      ((List.range' j len).foldl (constructSlot images mem) l).dtv i =
        if j < i ∧ i ≤ j + rest.length then
          ⟨blockBase l.imageBase rest (i - j), true⟩ else l.dtv i := by
  induction rest with
  | nil =>
    intro j len l holds few i
    rw [construct_skips holds, if_neg (by simp)]
  | cons m rest ih =>
    intro j len l holds few i
    obtain ⟨len, rfl⟩ : ∃ less, len = less + 1 :=
      ⟨len - 1, by simp only [List.length_cons] at few; omega⟩
    rw [List.range'_succ, List.foldl_cons, constructSlot_head holds.head,
      ih holds.tail (by simpa using few)]
    -- The slot just written is below all that the later modules write.
    simp only [List.length_cons]
    by_cases later : j + 1 < i ∧ i ≤ j + 1 + rest.length
    · obtain ⟨k, rfl⟩ : ∃ k, i = j + 1 + (k + 1) := ⟨i - j - 2, by omega⟩
      rw [if_pos later, if_pos (by omega), show j + 1 + (k + 1) - (j + 1) = k + 1 by omega,
        show j + 1 + (k + 1) - j = k + 2 by omega, blockBase, blockBase, List.take_succ_cons,
        reserved_cons]
      simp only [placed]
      congr 1
      omega
    · rw [if_neg later]
      by_cases own : i = j + 1
      · subst own
        rw [if_pos (by omega), Nat.add_sub_cancel_left]
        simp [placed, blockBase]
      · rw [if_neg (by omega)]
        exact Function.update_of_ne own _ _

/-- The vector of a freshly constructed storage. -/
theorem construct_table_dtv {modules : List Module} (few : modules.length ≤ kNumSlots)
    (mem : Mem) (magic : MagicPointers) (after : Nat) (storage : Mem) (thread i : Nat) :
    (construct (table modules) mem magic after storage thread).dtv i =
      if 0 < i ∧ i ≤ modules.length then ⟨blockBase after modules i, true⟩
      else if i = 1 then ⟨after, false⟩ else ⟨unallocated, false⟩ := by
  have loop := @construct_dtv (table modules) mem modules 0 kNumSlots
    ⟨after, 0, fun i => if i = 1 then ⟨after, false⟩ else ⟨unallocated, false⟩, storage⟩
    (holdsFrom_table modules) few i
  rw [Nat.zero_add, Nat.sub_zero] at loop
  rw [construct, List.range_eq_range']
  exact loop

/-! ### The offsets of the ABI -/

/-- `off(m)` of the ABI: the loader rounds the running sum up to each module's alignment. -/
def abiOffset (modules : List Module) (id : Nat) : Nat :=
  (modules.take id).foldl (fun off m => roundUp (off + m.phdr.memsz) m.phdr.align) 0

/-- The largest alignment of the modules. -/
def largestAlign (modules : List Module) : Nat := (modules.map fun m => m.phdr.align).foldr max 1

/-- The blocks of a storage lie where the ABI puts them, apart from each other and aligned. -/
structure AbiPlaced (modules : List Module) (t : Tls) : Prop where
  placed : ∀ k, k < modules.length → (t.dtv (k + 1)).v = t.after - abiOffset modules (k + 1)
  disjoint : ∀ i j, (below : i < modules.length) → (inside : j < modules.length) → i ≠ j →
    Disjoint (Set.Ico (t.dtv (i + 1)).v ((t.dtv (i + 1)).v + modules[i].phdr.memsz))
      (Set.Ico (t.dtv (j + 1)).v ((t.dtv (j + 1)).v + modules[j].phdr.memsz))
  aligned : largestAlign modules ∣ t.after → ∀ k, (inside : k < modules.length) →
    modules[k].phdr.align ∣ (t.dtv (k + 1)).v

/-- Each module starts at a multiple of its alignment when the rounded sizes are summed. -/
def SumsAligned (modules : List Module) : Prop :=
  ∀ k, (inside : k < modules.length) →
    modules[k].phdr.align ∣ ((modules.take k).map Module.rounded).sum

instance (modules : List Module) : Decidable (SumsAligned modules) :=
  inferInstanceAs (Decidable (∀ k, (inside : k < modules.length) →
    modules[k].phdr.align ∣ ((modules.take k).map Module.rounded).sum))

/-- The loader adds a module to the running sum before it rounds. -/
theorem abiOffset_succ {modules : List Module} {k : Nat} (inside : k < modules.length) :
    abiOffset modules (k + 1) =
      roundUp (abiOffset modules k + modules[k].phdr.memsz) modules[k].phdr.align := by
  rw [abiOffset, List.take_succ_eq_append_getElem inside, List.foldl_append]
  rfl

/-- The two sums agree everywhere exactly when every partial sum is aligned. -/
theorem abiOffset_eq_reserved_iff {modules : List Module} :
    (∀ k, k < modules.length → abiOffset modules (k + 1) = reserved (modules.take (k + 1))) ↔
      SumsAligned modules := by
  constructor
  · intro agree k inside
    have here : abiOffset modules k = reserved (modules.take k) := by
      cases k with
      | zero => rfl
      | succ k => exact agree k (by omega)
    have next := agree k inside
    rw [abiOffset_succ inside, reserved_take_succ inside, here] at next
    exact (roundUp_add_eq_iff modules[k].align_pos _ _).mp next
  · intro aligned
    -- The induction is on the module id: equal sums before a module stay equal after it.
    have agree : ∀ k, k ≤ modules.length → abiOffset modules k = reserved (modules.take k) := by
      intro k
      induction k with
      | zero => intro _; rfl
      | succ k ih =>
        intro inside
        rw [abiOffset_succ inside, reserved_take_succ inside, ih (by omega)]
        exact (roundUp_add_eq_iff modules[k].align_pos _ _).mpr (aligned k inside)
    intro k inside
    exact agree (k + 1) inside

/-- Among powers of two the largest is a multiple of each. -/
theorem align_dvd_largest {modules : List Module} {m : Module} (member : m ∈ modules) :
    m.phdr.align ∣ largestAlign modules := by
  obtain ⟨top, largest, above⟩ : ∃ top, largestAlign modules = 2 ^ top ∧
      ∀ m ∈ modules, m.log ≤ top := by
    clear member
    induction modules with
    | nil => exact ⟨0, rfl, by simp⟩
    | cons first rest ih =>
      obtain ⟨top, largest, above⟩ := ih
      refine ⟨max first.log top, ?_, ?_⟩
      · show max first.phdr.align (largestAlign rest) = _
        rw [largest, first.power]
        rcases le_total first.log top with below | below
        · rw [max_eq_right below, max_eq_right (Nat.pow_le_pow_right (by omega) below)]
        · rw [max_eq_left below, max_eq_left (Nat.pow_le_pow_right (by omega) below)]
      · intro m member
        rcases List.mem_cons.mp member with rfl | later
        · exact le_max_left _ _
        · exact (above m later).trans (le_max_right _ _)
  rw [largest, m.power]
  exact Nat.pow_dvd_pow 2 (above m member)

/-- Each block ends below the base of the block before it. -/
theorem blockBase_succ_add {after : Nat} {modules : List Module} {k : Nat}
    (inside : k < modules.length) (room : reserved modules ≤ after) :
    blockBase after modules (k + 1) + modules[k].rounded = blockBase after modules k := by
  have fits := (reserved_take_le modules (k + 1)).trans room
  rw [blockBase, blockBase, reserved_take_succ inside] at *
  omega

/-- The bases go down with the module ids. -/
theorem blockBase_anti {after : Nat} {modules : List Module} {j k : Nat} (order : j ≤ k) :
    blockBase after modules k ≤ blockBase after modules j := by
  have fewer : modules.take j = (modules.take k).take j := by
    rw [List.take_take, min_eq_left order]
  have := reserved_take_le (modules.take k) j
  rw [← fewer] at this
  exact Nat.sub_le_sub_left this after

/-- A later module's block lies entirely below that of an earlier one. -/
theorem block_below {after : Nat} {modules : List Module} {i j : Nat} (order : i < j)
    (inside : j < modules.length) (room : reserved modules ≤ after) :
    blockBase after modules (j + 1) + modules[j].phdr.memsz ≤ blockBase after modules (i + 1) :=
  calc blockBase after modules (j + 1) + modules[j].phdr.memsz
    _ ≤ blockBase after modules (j + 1) + modules[j].rounded :=
        Nat.add_le_add_left (le_roundUp modules[j].align_pos _) _
    _ = blockBase after modules j := blockBase_succ_add inside room
    _ ≤ blockBase after modules (i + 1) := blockBase_anti order

/-- The constructor follows the ABI exactly when each partial sum of sizes is aligned. -/
theorem constructed_abiPlaced_iff {objects : List DlPhdrInfo} {modules : List Module}
    {images : Images} (loads : Loads objects modules) (few : modules.length ≤ kNumSlots)
    (found : findTlsImages objects = some images) (mem : Mem) (magic : MagicPointers) {after : Nat}
    (room : prefixBytes images < after) (storage : Mem) (thread : Nat) :
    AbiPlaced modules (construct images mem magic after storage thread) ↔ SumsAligned modules := by
  rw [findTlsImages_eq_table loads] at found
  cases found
  rw [prefixBytes_table few] at room
  have base : ∀ k, k < modules.length →
      ((construct (table modules) mem magic after storage thread).dtv (k + 1)).v =
        blockBase after modules (k + 1) := by
    intro k inside
    rw [construct_table_dtv few, if_pos (by omega)]
  rw [← abiOffset_eq_reserved_iff]
  constructor
  · intro abi k inside
    have placed := abi.placed k inside
    rw [base k inside] at placed
    -- No block lies at address zero, so the two differences determine their offsets.
    have fits := reserved_take_le modules (k + 1)
    rw [blockBase] at placed
    have here : (construct (table modules) mem magic after storage thread).after = after := rfl
    omega
  · intro agree
    refine ⟨fun k inside => ?_, fun i j below inside other => ?_, fun whole k inside => ?_⟩
    · rw [base k inside, agree k inside]
      rfl
    · rw [base i below, base j inside, Set.Ico_disjoint_Ico]
      rcases Nat.lt_or_gt_of_ne other with order | order
      · have := block_below order inside room.le
        omega
      · have := block_below order below room.le
        omega
    · rw [base k inside, blockBase, ← agree k inside]
      refine Nat.dvd_sub (Nat.dvd_trans (align_dvd_largest (List.getElem_mem inside)) whole) ?_
      rw [abiOffset_succ inside]
      exact dvd_roundUp _ _

/-- A module of 8 bytes aligned to 8. -/
def narrowModule : Module :=
  ⟨4096, ⟨.tls, 64, 8, 8, 8⟩, rfl, by decide, 3, by decide, by decide, by decide⟩

/-- A module of 16 bytes aligned to 16. -/
def wideModule : Module :=
  ⟨8192, ⟨.tls, 64, 16, 16, 16⟩, rfl, by decide, 4, by decide, by decide, by decide⟩

/-- The objects that load the given modules one after another. -/
def objectsOf (modules : List Module) : List DlPhdrInfo :=
  modules.zipIdx.map fun m => ⟨m.1.addr, [m.1.phdr], m.2 + 1⟩

/-- Two wide modules are laid out as the ABI says. -/
theorem constructed_abiPlaced_iff_wide :
    prefixBytes (table [wideModule, wideModule]) < 65536 ∧
      AbiPlaced [wideModule, wideModule]
        (construct (table [wideModule, wideModule]) (fun _ => 0) ⟨0, 0, 0, 0⟩ 65536 (fun _ => 0)
          0) := by
  have room : prefixBytes (table [wideModule, wideModule]) < 65536 := by decide +kernel
  have loads : Loads (objectsOf [wideModule, wideModule]) [wideModule, wideModule] :=
    List.Perm.of_eq (by decide)
  refine ⟨room, (constructed_abiPlaced_iff loads (by decide) (findTlsImages_eq_table loads)
    _ _ room _ _).mpr ?_⟩
  decide +kernel

/-- A narrow module before a wide one puts the wide block eight bytes above its ABI place. -/
theorem narrow_before_wide_misplaced :
    Loads (objectsOf [narrowModule, wideModule]) [narrowModule, wideModule] ∧
      ∃ images, findTlsImages (objectsOf [narrowModule, wideModule]) = some images ∧
        prefixBytes images < 65536 ∧
        ((construct images (fun _ => 0) ⟨0, 0, 0, 0⟩ 65536 (fun _ => 0) 0).dtv 2).v = 65512 ∧
        65536 - abiOffset [narrowModule, wideModule] 2 = 65504 ∧
        ¬ AbiPlaced [narrowModule, wideModule]
          (construct images (fun _ => 0) ⟨0, 0, 0, 0⟩ 65536 (fun _ => 0) 0) := by
  have loads : Loads (objectsOf [narrowModule, wideModule]) [narrowModule, wideModule] :=
    List.Perm.of_eq (by decide)
  have here : ((construct (table [narrowModule, wideModule]) (fun _ => 0) ⟨0, 0, 0, 0⟩ 65536
      (fun _ => 0) 0).dtv 2).v = 65512 := by decide +kernel
  have there : 65536 - abiOffset [narrowModule, wideModule] 2 = 65504 := by decide +kernel
  refine ⟨loads, _, findTlsImages_eq_table loads, by decide +kernel, here, there, fun abi => ?_⟩
  have placed := abi.placed 1 (by decide)
  rw [here] at placed
  exact absurd (placed.trans there) (by decide)

end Gthread.Platform

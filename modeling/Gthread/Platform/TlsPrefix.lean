import Gthread.Platform.TlsReset

/-! The prefix reserved for the images of a sparse table, against what is written below. -/

namespace Gthread.Platform

open RoundUp

/-! ### Sparse tables -/

/-- The loaded objects hold exactly these modules, under distinct ids that have a slot. -/
structure LoadsSparse (objects : List DlPhdrInfo) (modules : List (Module × Nat)) : Prop where
  entries : (objects.filterMap DlPhdrInfo.entry).Perm
    (modules.map fun m => ((m.1.addr, m.1.phdr), m.2))
  distinct : (modules.map Prod.snd).Nodup
  ids : ∀ m ∈ modules, 1 ≤ m.2 ∧ m.2 ≤ kNumSlots

/-- The array of images holds the modules by their ids and is empty elsewhere. -/
structure HoldsSparse (images : Images) (modules : List (Module × Nat)) : Prop where
  present : ∀ m ∈ modules, images (m.2 - 1) = m.1.image
  absent : ∀ i, (∀ m ∈ modules, m.2 ≠ i + 1) → images i = noImage

/-- Modules with distinct ids lie in distinct slots. -/
theorem LoadsSparse.slots_nodup {objects : List DlPhdrInfo} {modules : List (Module × Nat)}
    (loads : LoadsSparse objects modules) : (modules.map fun m => m.2 - 1).Nodup := by
  have apart : ((modules.map Prod.snd).map fun id => id - 1).Nodup := by
    refine List.Nodup.map_on ?_ loads.distinct
    intro id member id' member' same
    obtain ⟨m, among, rfl⟩ := List.mem_map.mp member
    obtain ⟨m', among', rfl⟩ := List.mem_map.mp member'
    have := loads.ids m among
    have := loads.ids m' among'
    omega
  rwa [List.map_map] at apart

/-- Modules with distinct ids are all found, in whatever order the objects are visited. -/
theorem LoadsSparse.findTlsImages {objects : List DlPhdrInfo} {modules : List (Module × Nat)}
    (loads : LoadsSparse objects modules) :
    ∃ images, Platform.findTlsImages objects = some images ∧ HoldsSparse images modules := by
  -- Every entry is the header of one of the modules, so it has a positive id.
  have origin : ∀ e ∈ objects.filterMap DlPhdrInfo.entry,
      ∃ m ∈ modules, ((m.1.addr, m.1.phdr), m.2) = e :=
    fun e member => List.mem_map.mp (loads.entries.mem_iff.mp member)
  have positive : ∀ e ∈ objects.filterMap DlPhdrInfo.entry, 0 < e.2 := by
    intro e member
    obtain ⟨m, among, rfl⟩ := origin e member
    exact (loads.ids m among).1
  refine ⟨_, foldlM_init_eq _ positive, ?_, ?_⟩
  · intro m among
    have slots : ((objects.filterMap DlPhdrInfo.entry).map fun e => e.2 - 1).Nodup := by
      rw [(loads.entries.map _).nodup_iff, List.map_map]
      exact loads.slots_nodup
    exact foldl_storeEntry_present slots
      (loads.entries.mem_iff.mpr (List.mem_map.mpr ⟨m, among, rfl⟩))
  · intro i unused
    refine foldl_storeEntry_absent fun e member same => ?_
    obtain ⟨m, among, rfl⟩ := origin e member
    have := (loads.ids m among).1
    exact unused m among (by simp only at same; omega)

/-! ### The loop that sums the prefix -/

/-- Whether a slot holds an image. -/
def filled (images : Images) (i : Nat) : Bool := (images i).data ≠ 0

variable {images : Images} {slots : List Nat} {i : Nat}

end Gthread.Platform

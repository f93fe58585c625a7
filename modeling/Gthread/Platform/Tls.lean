import Gthread.Lib.RoundUp
import Gthread.Sched.Task

/-! The static thread-local storage block: image discovery, construction and reset. -/

namespace Gthread.Platform

/-- The bytes of memory. -/
abbrev Mem := Nat → UInt8

/-- `k_num_slots`. -/
def kNumSlots : Nat := 32

/-- `TLS_DTV_UNALLOCATED`. -/
def unallocated : Nat := 2 ^ 64 - 1

/-- The types of program header that the search tells apart. -/
inductive PType where
  | tls
  | other
  deriving DecidableEq, Repr

/-- The fields of an `ElfW(Phdr)` that the search reads. -/
structure Phdr where
  type : PType
  vaddr : Nat
  filesz : Nat
  memsz : Nat
  align : Nat
  deriving DecidableEq, Repr

/-- The fields of a `dl_phdr_info`, one for each loaded object. -/
structure DlPhdrInfo where
  addr : Nat
  phdr : List Phdr
  tlsModid : Nat
  deriving DecidableEq, Repr

/-- `tls_image`, with address 0 for the null pointer. -/
structure TlsImage where
  data : Nat
  imageSize : Nat
  memOffset : Nat
  reserve : Nat
  deriving DecidableEq, Repr

/-- The static array of `find_tls_images`. -/
abbrev Images := Nat → TlsImage

/-- `images[i].data = nullptr`; the other fields of a static array start as zero. -/
def noImage : TlsImage := ⟨0, 0, 0, 0⟩

/-- What `dl_iterate_phdr_init_cb` stores for a header of an object loaded at an address. -/
def tlsImage (addr : Nat) (phdr : Phdr) : TlsImage :=
  -- The negation is that of a `size_t`.
  let memOffset := (2 ^ 64 - phdr.memsz) % 2 ^ 64 &&& (phdr.align - 1)
  { data := addr + phdr.vaddr, imageSize := phdr.filesz, memOffset,
    reserve := memOffset + phdr.memsz }

/-- The header the search stops at: the last one of the TLS type. -/
def DlPhdrInfo.tlsPhdr (info : DlPhdrInfo) : Option Phdr :=
  info.phdr.reverse.find? fun phdr => phdr.type = .tls

/-- `dl_iterate_phdr_init_cb`, with `none` for its result -1. -/
def dlIteratePhdrInitCb (images : Images) (info : DlPhdrInfo) : Option Images :=
  match info.tlsPhdr with
  | none => some images
  | some phdr =>
    if 0 < info.tlsModid then
      some (Function.update images (info.tlsModid - 1) (tlsImage info.addr phdr))
    else none

/-- `find_tls_images` at its first call; every later call returns the same array. -/
def findTlsImages (objects : List DlPhdrInfo) : Option Images :=
  objects.foldlM dlIteratePhdrInitCb fun _ => noImage

/-- One element of the vector after its head: `dtv::pointer`. -/
structure DtvSlot where
  v : Nat
  isStatic : Bool
  deriving DecidableEq, Repr

/-- The pointers glibc keeps in the thread control block. -/
structure MagicPointers where
  sysinfo : Nat
  stackGuard : Nat
  pointerGuard : Nat
  glibcStackSize : Nat
  deriving DecidableEq, Repr

/-- A `tls` object: its control block at `after`, its vector and the memory it lies in. -/
structure Tls where
  after : Nat
  self : Nat
  thread : Nat
  didCtypeInit : Bool
  magic : MagicPointers
  numModules : Nat
  base : Nat
  dtv : Nat → DtvSlot
  bytes : Mem
  -- The pointers handed to `free` so far.
  freed : List Nat

/-- `memcpy` from one memory into another. -/
def memcpy (bytes : Mem) (dest : Nat) (source : Mem) (src count : Nat) : Mem := fun p =>
  if dest ≤ p ∧ p < dest + count then source (src + (p - dest)) else bytes p

/-- `memset` with zeros. -/
def zeroOut (bytes : Mem) (dest count : Nat) : Mem := fun p =>
  if dest ≤ p ∧ p < dest + count then 0 else bytes p

/-- `tls::prefix_bytes`, whose loop ends at the first slot without an image. -/
def prefixBytes (images : Images) : Nat :=
  (((List.range kNumSlots).takeWhile fun i => (images i).data ≠ 0).map
    fun i => (images i).reserve).sum

/-- What the two loops over the images carry from one slot to the next. -/
structure Layout where
  imageBase : Nat
  module : Nat
  dtv : Nat → DtvSlot
  bytes : Mem

/-- The body of the loop of `tls::tls`. -/
def constructSlot (images : Images) (mem : Mem) (l : Layout) (i : Nat) : Layout :=
  if (images i).data = 0 then l
  else
    let imageBase := l.imageBase - (images i).reserve
    { l with
      imageBase
      bytes := memcpy l.bytes (imageBase + (images i).memOffset) mem
        ((images i).data + (images i).memOffset) (images i).imageSize
      dtv := Function.update l.dtv (i + 1) ⟨imageBase, true⟩ }

/-- `tls::tls` on storage whose control block lies at `after`. -/
def construct (images : Images) (mem : Mem) (magic : MagicPointers) (after : Nat) (storage : Mem)
    (thread : Nat) : Tls :=
  -- The first slot holds the control block itself until an image takes it.
  let dtv : Nat → DtvSlot := fun i => if i = 1 then ⟨after, false⟩ else ⟨unallocated, false⟩
  let l := (List.range kNumSlots).foldl (constructSlot images mem) ⟨after, 0, dtv, storage⟩
  { after, self := after, thread, didCtypeInit := false, magic
    numModules := kNumSlots, base := after - prefixBytes images
    dtv := l.dtv, bytes := l.bytes, freed := [] }

/-- The loop of `tls::reset` over the remaining slots. -/
def resetImages (images : Images) (mem : Mem) (oldBase : Nat) :
    List Nat → Layout → Except Fault Layout
  | [], l => .ok l
  | i :: rest, l =>
    if oldBase < l.imageBase then
      if (images i).data = 0 then resetImages images mem oldBase rest l
      else
        let module := l.module + 1
        let imageBase := l.imageBase - (images i).reserve
        if imageBase < oldBase then .error (.fatal "tls images inconsistent")
        else
          resetImages images mem oldBase rest
            { imageBase, module
              bytes := memcpy l.bytes imageBase mem (images i).data (images i).imageSize
              dtv := Function.update l.dtv (module + 1) ⟨imageBase, true⟩ }
    else .ok l

/-- The pointers the first loop of `tls::reset` frees. -/
def dynamicBlocks (dtv : Nat → DtvSlot) : List Nat :=
  (List.range kNumSlots).filterMap fun i =>
    if (dtv (i + 2)).v ≠ unallocated ∧ (dtv (i + 2)).isStatic = false then some (dtv (i + 2)).v
    else none

/-- The vector after the first loop of `tls::reset`. -/
def clearDynamic (dtv : Nat → DtvSlot) : Nat → DtvSlot := fun i =>
  if 2 ≤ i ∧ i < kNumSlots + 2 then ⟨unallocated, false⟩ else dtv i

/-- `tls::reset`. -/
def Tls.reset (images : Images) (mem : Mem) (t : Tls) : Except Fault Tls := do
  let freed := t.freed ++ dynamicBlocks t.dtv
  let bytes := zeroOut t.bytes t.base (t.after - t.base)
  let l ← resetImages images mem t.base (List.range kNumSlots)
    ⟨t.after, 0, clearDynamic t.dtv, bytes⟩
  pure { t with dtv := l.dtv, bytes := l.bytes, freed, didCtypeInit := false }

/-- A loaded module with thread-local data, as the loader accepts it. -/
structure Module where
  addr : Nat
  phdr : Phdr
  type : phdr.type = .tls
  -- The initialised part is no larger than the block.
  filled : phdr.filesz ≤ phdr.memsz
  log : Nat
  power : phdr.align = 2 ^ log
  -- The padded block fits into the address space.
  fits : phdr.memsz + phdr.align ≤ 2 ^ 64
  mapped : 0 < addr + phdr.vaddr

/-- The image the code keeps for a module. -/
def Module.image (m : Module) : TlsImage := tlsImage m.addr m.phdr

/-- The TLS header of an object together with its module id, if it has one. -/
def DlPhdrInfo.entry (info : DlPhdrInfo) : Option ((Nat × Phdr) × Nat) :=
  info.tlsPhdr.map fun phdr => ((info.addr, phdr), info.tlsModid)

/-- The loaded objects hold exactly these modules, whose ids are contiguous from 1. -/
def Loads (objects : List DlPhdrInfo) (modules : List Module) : Prop :=
  (objects.filterMap DlPhdrInfo.entry).Perm
    ((modules.map fun m => (m.addr, m.phdr)).zipIdx 1)

end Gthread.Platform

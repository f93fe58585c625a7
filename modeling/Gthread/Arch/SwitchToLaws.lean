import Gthread.Arch.SwitchTo

/-! Each context is resumed as it left, over every sequence of switches and spawns. -/

namespace Gthread.Arch

open ByteMemory
open Function (update update_of_ne update_self)

/-- The fields of `gthread_saved_ctx_t` and their offsets. -/
def fields : List (Reg × Nat) :=
  [(.rbx, 0x00), (.rsp, 0x08), (.rbp, 0x10), (.r12, 0x18), (.r13, 0x20), (.r14, 0x28), (.r15, 0x30)]

/-- Store the registers of some fields into the area at a base. -/
def saveFields (reg : Reg → Word) (base : Word) (fs : List (Reg × Nat)) (mem : Memory) : Memory :=
  fs.foldl (fun mem f => store mem (base + BitVec.ofNat 64 f.2) (n := 8) (reg f.1)) mem

/-- Load the registers of some fields from the area at a base. -/
def loadFields (mem : Memory) (base : Word) (fs : List (Reg × Nat)) (reg : Reg → Word) :
    Reg → Word :=
  fs.foldl (fun reg f => update reg f.1 (load mem (base + BitVec.ofNat 64 f.2) 8)) reg

/-- The memory once the running context is saved, unless it leaves with null. -/
def savedMem (m : Machine) : Memory :=
  if m.reg .rdi = 0 then m.mem else saveFields m.reg (m.reg .rdi) fields m.mem

/-! ### What the two functions compute -/

/-- A row of stores saves its fields. -/
theorem run_saves {code : List Instr} {fs : List (Reg × Nat)} {i fuel : Nat} {m : Machine}
    (row : ∀ k, (h : k < fs.length) → code[i + k]? = some (.store fs[k].1 fs[k].2 .rdi)) :
    run code (fuel + fs.length) i m =
      run code fuel (i + fs.length) { m with mem := saveFields m.reg (m.reg .rdi) fs m.mem } := by
  induction fs generalizing i m with
  | nil => rfl
  | cons f rest ih =>
    have first : code[i]? = some (.store f.1 f.2 .rdi) := row 0 (by simp)
    rw [List.length_cons, ← Nat.add_assoc, run, first]
    simp only [Instr.exec]
    rw [ih fun k inside => ?_]
    · rw [Nat.add_right_comm, Nat.add_assoc]
      rfl
    · rw [Nat.add_right_comm]
      exact row (k + 1) (by simpa using inside)

/-- A row of loads restores its fields, if none of them is the base. -/
theorem run_loads {code : List Instr} {fs : List (Reg × Nat)} {i fuel : Nat} {m : Machine}
    (row : ∀ k, (h : k < fs.length) → code[i + k]? = some (.load fs[k].2 .rsi fs[k].1))
    (base : ∀ f ∈ fs, f.1 ≠ .rsi) :
    run code (fuel + fs.length) i m =
      run code fuel (i + fs.length)
        { m with reg := loadFields m.mem (m.reg .rsi) fs m.reg } := by
  induction fs generalizing i m with
  | nil => rfl
  | cons f rest ih =>
    have first : code[i]? = some (.load f.2 .rsi f.1) := row 0 (by simp)
    have kept : update m.reg f.1 (load m.mem (m.address f.2 .rsi) 8) .rsi = m.reg .rsi :=
      update_of_ne (base f List.mem_cons_self).symm _ _
    rw [List.length_cons, ← Nat.add_assoc, run, first]
    simp only [Instr.exec, Machine.set]
    rw [ih (fun k inside => ?_) fun g member => base g (List.mem_cons_of_mem _ member)]
    · show run code fuel (i + 1 + rest.length) { m with
        reg := loadFields m.mem (update m.reg f.1 (load m.mem (m.address f.2 .rsi) 8) .rsi) rest
          (update m.reg f.1 (load m.mem (m.address f.2 .rsi) 8)) } = _
      rw [kept, Nat.add_right_comm, Nat.add_assoc]
      rfl
    · rw [Nat.add_right_comm]
      exact row (k + 1) (by simpa using inside)

/-- The common beginning of both functions: the context is saved unless the area is null. -/
theorem run_prologue {code : List Instr} {fuel : Nat} (m : Machine)
    (test : code[0]? = some (.test .rdi .rdi)) (skip : code[1]? = some (.jz 9))
    (row : ∀ k, (h : k < fields.length) →
      code[2 + k]? = some (.store fields[k].1 fields[k].2 .rdi)) :
    ∃ spare, fuel ≤ spare ∧ run code (fuel + 9) 0 m =
      run code spare 9 { m with zf := m.reg .rdi = 0, mem := savedMem m } := by
  rw [run, test]
  simp only [Instr.exec, BitVec.and_self]
  rw [run, skip]
  simp only [Instr.exec]
  by_cases null : m.reg .rdi = 0
  · refine ⟨fuel + 7, by omega, ?_⟩
    simp [savedMem, null]
  · refine ⟨fuel, by omega, ?_⟩
    have saves := @run_saves code fields 2 fuel { m with zf := m.reg .rdi = 0 } row
    simp only [null, decide_false, Bool.false_eq_true, ↓reduceIte] at saves ⊢
    rw [savedMem, if_neg null]
    exact saves

/-- The registers once `gthread_switch_to` has loaded them. -/
def loaded (m : Machine) : Reg → Word := loadFields (savedMem m) (m.reg .rsi) fields m.reg

/-- `gthread_switch_to` saves and loads the fields, and returns. -/
theorem run_gthreadSwitchTo (m : Machine) :
    run gthreadSwitchTo 17 0 m =
      some { reg := update (loaded m) .rsp (loaded m .rsp + 8), zf := m.reg .rdi = 0
             mem := savedMem m, rip := load (savedMem m) (loaded m .rsp) 8 } := by
  obtain ⟨spare, enough, prologue⟩ := @run_prologue gthreadSwitchTo 8 m rfl rfl (by decide)
  obtain ⟨rest, rfl⟩ : ∃ rest, spare = rest + 1 + fields.length :=
    ⟨spare - 8, by simp [fields]; omega⟩
  rw [prologue, run_loads (by decide) (by decide)]
  rfl

/-- `gthread_switch_to_and_spawn` saves the fields, and starts the entry on the new stack. -/
theorem run_gthreadSwitchToAndSpawn (m : Machine) :
    ∃ m', run gthreadSwitchToAndSpawn 17 0 m = some m' ∧
      m'.mem = store (savedMem m) (m.reg .rsi - 8) (n := 8) 0 ∧ m'.rip = m.reg .rdx ∧
      m'.reg .rsp = m.reg .rsi - 8 ∧ m'.reg .rdi = m.reg .rcx := by
  obtain ⟨spare, enough, prologue⟩ :=
    @run_prologue gthreadSwitchToAndSpawn 8 m rfl rfl (by decide)
  obtain ⟨rest, rfl⟩ : ∃ rest, spare = rest + 5 := ⟨spare - 5, by omega⟩
  rw [prologue, BitVec.sub_eq_add_neg]
  simp only [run, gthreadSwitchToAndSpawn, List.getElem?_cons_succ, List.getElem?_cons_zero,
    Instr.exec, Machine.set]
  exact ⟨_, rfl, by simp, by simp, by simp, by simp⟩

/-! ### Fields of a save area -/

/-- A range of bytes that overlaps no field is untouched by saving. -/
theorem saveFields_apart {reg : Reg → Word} {base b : Word} {n : Nat} {fs : List (Reg × Nat)}
    {mem : Memory} (apart : ∀ f ∈ fs, Apart (base + BitVec.ofNat 64 f.2) 8 b n) {j : Nat}
    (within : j < n) :
    saveFields reg base fs mem (b + BitVec.ofNat 64 j) = mem (b + BitVec.ofNat 64 j) := by
  induction fs generalizing mem with
  | nil => rfl
  | cons f rest ih =>
    rw [saveFields, List.foldl_cons]
    refine (ih fun g member => apart g (List.mem_cons_of_mem _ member)).trans ?_
    exact store_apart (apart f List.mem_cons_self) within

/-- Fields at distances of eight bytes are read as they were saved. -/
theorem load_saveFields {reg : Reg → Word} {base : Word} {fs : List (Reg × Nat)} {mem : Memory}
    (ordered : fs.Pairwise fun f g => f.2 + 8 ≤ g.2) (inside : ∀ f ∈ fs, f.2 + 8 ≤ 56)
    {f : Reg × Nat} (member : f ∈ fs) :
    load (saveFields reg base fs mem) (base + BitVec.ofNat 64 f.2) 8 = reg f.1 := by
  induction fs generalizing mem with
  | nil => cases member
  | cons first rest ih =>
    rw [List.pairwise_cons] at ordered
    have later : ∀ g ∈ rest, g.2 + 8 ≤ 56 :=
      fun g member => inside g (List.mem_cons_of_mem _ member)
    rcases List.mem_cons.mp member with rfl | after
    · -- The later fields lie above this one, which keeps the value just stored.
      have above : ∀ g ∈ rest,
          Apart (base + BitVec.ofNat 64 g.2) 8 (base + BitVec.ofNat 64 f.2) 8 := by
        intro g member
        have := later g member
        exact (apart_offsets (ordered.1 g member) (by omega)).symm
      refine (load_congr fun i within => saveFields_apart above within).trans ?_
      exact load_store_same _ _ _ (by omega)
    · exact ih ordered.2 later after

/-- The fields are ordered and lie in the 56 bytes of the area. -/
theorem fields_ordered : fields.Pairwise fun f g => f.2 + 8 ≤ g.2 := by decide

theorem fields_inside : ∀ f ∈ fields, f.2 + 8 ≤ 56 := by decide

/-- Loading gives each field's register the value in the area. -/
theorem loadFields_mem {mem : Memory} {base : Word} {fs : List (Reg × Nat)} {reg : Reg → Word}
    (distinct : (fs.map Prod.fst).Nodup) {f : Reg × Nat} (member : f ∈ fs) :
    loadFields mem base fs reg f.1 = load mem (base + BitVec.ofNat 64 f.2) 8 := by
  have untouched : ∀ (fs : List (Reg × Nat)) (reg : Reg → Word) (r : Reg),
      r ∉ fs.map Prod.fst → loadFields mem base fs reg r = reg r := by
    intro fs
    induction fs with
    | nil => intro reg r _; rfl
    | cons g rest ih =>
      intro reg r absent
      rw [List.map_cons, List.mem_cons, not_or] at absent
      rw [loadFields, List.foldl_cons]
      exact (ih _ r absent.2).trans (update_of_ne absent.1 _ _)
  induction fs generalizing reg with
  | nil => cases member
  | cons first rest ih =>
    rw [List.map_cons, List.nodup_cons] at distinct
    rw [loadFields, List.foldl_cons]
    rcases List.mem_cons.mp member with rfl | later
    · exact (untouched rest _ _ distinct.1).trans (update_self _ _ _)
    · exact ih distinct.2 later

/-! ### The invariant -/

/-- The registers as the code sees them inside the call, below the return address. -/
def Snapshot.inside (snap : Snapshot) (r : Reg) : Word :=
  if r = .rsp then snap.reg .rsp - 8 else snap.reg r

/-- A save area and a stack hold what is needed to resume a context. -/
structure Held (mem : Memory) (base : Word) (snap : Snapshot) : Prop where
  fields : ∀ f ∈ fields, load mem (base + BitVec.ofNat 64 f.2) 8 = snap.inside f.1
  ret : load mem (snap.reg .rsp - 8) 8 = snap.ret

/-- Only the bytes of the area and of the return address matter. -/
theorem Held.congr {mem mem' : Memory} {base : Word} {snap : Snapshot} (held : Held mem base snap)
    (area : ∀ i, i < 56 → mem' (base + BitVec.ofNat 64 i) = mem (base + BitVec.ofNat 64 i))
    (slot : ∀ i, i < 8 → mem' (snap.reg .rsp - 8 + BitVec.ofNat 64 i) =
      mem (snap.reg .rsp - 8 + BitVec.ofNat 64 i)) : Held mem' base snap where
  fields f member := by
    rw [← held.fields f member]
    refine load_congr fun i within => ?_
    have := fields_inside f member
    rw [BitVec.add_assoc, ← BitVec.ofNat_add]
    exact area (f.2 + i) (by omega)
  ret := by
    rw [← held.ret]
    exact load_congr slot

namespace World

variable {ι : Type} [DecidableEq ι] {area : ι → Word} {w w' : World ι}

/-- Every saved context can be resumed, and the running one is not saved. -/
structure Inv (area : ι → Word) (w : World ι) : Prop where
  idle : w.saved w.running = none
  held : ∀ k snap, w.saved k = some snap → Held w.machine.mem (area k) snap
  clear : ∀ k snap, w.saved k = some snap → ∀ i, Apart (snap.reg .rsp - 8) 8 (area i) 56

/-- The machine of the running context with the arguments of a call in place. -/
structure Calls (area : ι → Word) (w : World ι) (null : Bool) (m : Machine) : Prop where
  mem : m.mem = w.machine.mem
  rdi : m.reg .rdi = w.fromArea area null
  kept : ∀ f ∈ fields, m.reg f.1 = w.machine.reg f.1

/-- The machine at the first instruction of the function. -/
def pushed (m : Machine) (ret : Word) : Machine :=
  { m.set .rsp (m.reg .rsp - 8) with mem := store m.mem (m.reg .rsp - 8) (n := 8) ret }

/-- The snapshots once the running context is saved, unless it leaves with null. -/
def savedBy (w : World ι) (null : Bool) (ret : Word) : ι → Option Snapshot :=
  update w.saved w.running (if null then none else some ⟨w.machine.reg, ret⟩)

/-- Saving keeps the other contexts and makes the running one resumable. -/
theorem Inv.savedBy_held (inv : w.Inv area) (areas : Areas area) {null : Bool} {m : Machine}
    (calls : Calls area w null m) (clear : w.Clear area (w.machine.reg .rsp - 8)) {ret : Word}
    {k : ι} {snap : Snapshot} (saved : w.savedBy null ret k = some snap) :
    Held (savedMem (pushed m ret)) (area k) snap ∧
      ∀ i, Apart (snap.reg .rsp - 8) 8 (area i) 56 := by
  have rsp : m.reg .rsp = w.machine.reg .rsp := calls.kept (.rsp, 8) (by decide)
  have rdi : (pushed m ret).reg .rdi = w.fromArea area null := calls.rdi
  have mem : (pushed m ret).mem = store w.machine.mem (w.machine.reg .rsp - 8) (n := 8) ret := by
    rw [← calls.mem, ← rsp]
    rfl
  -- Bytes outside the running context's area are those after the push.
  have outside : ∀ {b : Word} {n j : Nat}, Apart (area w.running) 56 b n → j < n →
      savedMem (pushed m ret) (b + BitVec.ofNat 64 j) =
        (pushed m ret).mem (b + BitVec.ofNat 64 j) := by
    intro b n j apart within
    rw [savedMem]
    split
    · rfl
    · rename_i present
      refine saveFields_apart (fun f member => ?_) within
      have own : w.fromArea area null = area w.running := by
        rw [fromArea]
        split
        · rename_i isNull
          rw [rdi, fromArea, if_pos isNull] at present
          exact absurd rfl present
        · rfl
      rw [rdi, own]
      have field := @Apart.mono _ _ _ _ f.2 0 8 n apart (fields_inside f member) (by omega)
      simpa using field
  by_cases own : k = w.running
  · subst own
    rw [savedBy, update_self] at saved
    cases null with
    | true => cases saved
    | false =>
      cases saved
      have present : (pushed m ret).reg .rdi ≠ 0 := by
        rw [rdi]
        exact areas.nonnull w.running
      refine ⟨⟨fun f member => ?_, ?_⟩, clear.areas⟩
      · -- The fields hold the registers at the entry of the function.
        rw [savedMem, if_neg present, rdi]
        refine (load_saveFields fields_ordered fields_inside member).trans ?_
        rw [Snapshot.inside]
        split
        · rename_i stack
          rw [stack]
          show update m.reg .rsp (m.reg .rsp - 8) .rsp = _
          rw [update_self, rsp]
        · rename_i other
          show update m.reg .rsp (m.reg .rsp - 8) f.1 = _
          rw [update_of_ne other]
          exact calls.kept f member
      · refine (load_congr fun i within =>
          outside (clear.areas w.running).symm within).trans ?_
        rw [mem]
        exact load_store_same _ _ _ (by omega)
  · rw [savedBy, update_of_ne own] at saved
    refine ⟨(inv.held k snap saved).congr (fun i within => ?_) (fun i within => ?_),
      inv.clear k snap saved⟩
    · rw [outside (areas.apart _ _ (Ne.symm own)) within, mem]
      exact store_apart (clear.areas k) within
    · rw [outside (inv.clear k snap saved w.running).symm within, mem]
      exact store_apart (clear.frames k snap saved) within

/-- The code resumes the context whose area it is given. -/
theorem Inv.resumes (inv : w.Inv area) (areas : Areas area) {null : Bool} {m : Machine}
    (calls : Calls area w null m) (clear : w.Clear area (w.machine.reg .rsp - 8)) {ret : Word}
    {j : ι} (target : m.reg .rsi = area j) {snap : Snapshot}
    (saved : w.savedBy null ret j = some snap) :
    ∃ m', m.call gthreadSwitchTo ret = some m' ∧ m'.Resumes snap ∧
      m'.mem = savedMem (pushed m ret) := by
  have held := (inv.savedBy_held areas calls clear saved).1
  -- Each loaded register is the field of the target's area.
  have value : ∀ f ∈ fields, loaded (pushed m ret) f.1 = snap.inside f.1 := by
    intro f member
    have rsi : (pushed m ret).reg .rsi = area j := target
    rw [loaded, loadFields_mem (by decide) member, rsi]
    exact held.fields f member
  have rsp : loaded (pushed m ret) .rsp = snap.reg .rsp - 8 := value (.rsp, 8) (by decide)
  refine ⟨_, run_gthreadSwitchTo (pushed m ret), ⟨fun r preserved => ?_, ?_, ?_⟩, rfl⟩
  · obtain ⟨f, member, rfl, other⟩ : ∃ f ∈ fields, f.1 = r ∧ r ≠ .rsp := by
      revert r
      decide
    show update (loaded (pushed m ret)) .rsp _ f.1 = _
    rw [update_of_ne other, value f member, Snapshot.inside, if_neg other]
  · have restored : loaded (pushed m ret) .rsp + 8 = snap.reg .rsp := by
      rw [rsp, BitVec.sub_add_cancel]
    show update (loaded (pushed m ret)) Reg.rsp (loaded (pushed m ret) .rsp + 8) Reg.rsp = _
    rw [update_self]
    exact restored
  · show load (savedMem (pushed m ret)) (loaded (pushed m ret) .rsp) 8 = _
    rw [rsp]
    exact held.ret

/-- Nothing is saved for the target, and for the others what there was by then. -/
theorem savedBy_of_left {null : Bool} {j k : ι} {ret : Word} {snap : Snapshot}
    (here : w.left null j ret k = some snap) : w.savedBy null ret k = some snap := by
  by_cases own : k = j
  · subst own
    simp [left] at here
  · simpa [left, savedBy, own] using here

omit [DecidableEq ι] in
/-- The arguments of `gthread_switch_to` disturb no preserved register. -/
theorem calls_switchTo (w : World ι) (null : Bool) (j : ι) :
    Calls area w null ((w.machine.set .rdi (w.fromArea area null)).set .rsi (area j)) where
  mem := rfl
  rdi := rfl
  kept f member := by
    have other : f.1 ≠ .rsi ∧ f.1 ≠ .rdi := by
      revert f
      decide
    simp [Machine.set, other.1, other.2]

omit [DecidableEq ι] in
/-- Neither do those of `gthread_switch_to_and_spawn`. -/
theorem calls_spawn (w : World ι) (null : Bool) (stack entry arg : Word) :
    Calls area w null ((((w.machine.set .rdi (w.fromArea area null)).set .rsi stack).set .rdx
      entry).set .rcx arg) where
  mem := rfl
  rdi := rfl
  kept f member := by
    have other : f.1 ≠ .rcx ∧ f.1 ≠ .rdx ∧ f.1 ≠ .rsi ∧ f.1 ≠ .rdi := by
      revert f
      decide
    simp [Machine.set, other.1, other.2.1, other.2.2.1, other.2.2.2]

/-- A switch to a context that is saved by then resumes it, and keeps the invariant. -/
theorem Inv.switchTo (inv : w.Inv area) (areas : Areas area) {null : Bool} {j : ι} {ret : Word}
    (clear : w.Clear area (w.machine.reg .rsp - 8)) {snap : Snapshot}
    (saved : w.savedBy null ret j = some snap) :
    ∃ w', w.step area (.switchTo null j ret) = .ok w' ∧ w'.running = j ∧
      w'.saved = w.left null j ret ∧ w'.machine.Resumes snap ∧ w'.Inv area := by
  have calls : Calls area w null _ := calls_switchTo w null j
  obtain ⟨m', called, resumes, mem⟩ := inv.resumes areas calls clear rfl saved
  refine ⟨⟨m', j, w.left null j ret⟩, ?_, rfl, rfl, resumes, ⟨update_self _ _ _, ?_, ?_⟩⟩
  · simp only [step, called]
  · intro k other here
    show Held m'.mem _ _
    rw [mem]
    exact (inv.savedBy_held areas calls clear (savedBy_of_left here)).1
  · intro k other here
    exact (inv.savedBy_held areas calls clear (savedBy_of_left here)).2

/-- A spawn starts the entry on the new stack, and keeps the invariant. -/
theorem Inv.spawn (inv : w.Inv area) (areas : Areas area) {null : Bool} {j : ι}
    {stack entry arg ret : Word} (admitted : w.Admits area (.spawn null j stack entry arg ret)) :
    ∃ w', w.step area (.spawn null j stack entry arg ret) = .ok w' ∧ w'.running = j ∧
      w'.saved = w.left null j ret ∧ w'.machine.rip = entry ∧ w'.machine.reg .rdi = arg ∧
      w'.machine.reg .rsp = stack - 8 ∧ w'.Inv area := by
  obtain ⟨new, -, clear, place, apart⟩ := admitted
  have calls : Calls area w null _ := calls_spawn w null stack entry arg
  obtain ⟨m', called, mem, rip, rsp, rdi⟩ := run_gthreadSwitchToAndSpawn
    (pushed ((((w.machine.set .rdi (w.fromArea area null)).set .rsi stack).set .rdx entry).set
      .rcx arg) ret)
  have called : Machine.call _ gthreadSwitchToAndSpawn ret = some m' := called
  refine ⟨⟨m', j, w.left null j ret⟩, ?_, rfl, rfl, rip, rdi, rsp, ⟨update_self _ _ _, ?_, ?_⟩⟩
  · simp only [step, called]
  · intro k snap here
    have saved := inv.savedBy_held areas calls clear (savedBy_of_left here)
    show Held m'.mem _ _
    rw [mem]
    -- The word below the new stack overlaps no area and no return address.
    refine saved.1.congr (fun i within => store_apart (place.areas k) within) fun i within =>
      store_apart ?_ within
    have here := savedBy_of_left here
    by_cases left : k = w.running
    · subst left
      rw [savedBy, update_self] at here
      cases null with
      | true => cases here
      | false =>
        cases here
        exact apart rfl
    · rw [savedBy, update_of_ne left] at here
      exact place.frames k snap here
  · intro k snap here
    exact (inv.savedBy_held areas calls clear (savedBy_of_left here)).2

/-- What a switch leaves saved for its target. -/
theorem savedBy_target {null : Bool} {j : ι} (ret : Word) (inv : w.Inv area)
    (target : (w.saved j).isSome ∨ (j = w.running ∧ null = false)) :
    ∃ snap, w.savedBy null ret j = some snap ∧
      (∀ before, w.saved j = some before → snap = before) ∧
      (j = w.running → snap = ⟨w.machine.reg, ret⟩) := by
  rcases target with saved | ⟨rfl, rfl⟩
  · obtain ⟨snap, here⟩ := Option.isSome_iff_exists.mp saved
    have other : j ≠ w.running := by
      rintro rfl
      rw [inv.idle] at here
      cases here
    refine ⟨snap, by rw [savedBy, update_of_ne other, here], fun before there => ?_,
      fun same => absurd same other⟩
    rw [here] at there
    exact Option.some.inj there
  · refine ⟨⟨w.machine.reg, ret⟩, update_self _ _ _, fun before there => ?_, fun _ => rfl⟩
    rw [inv.idle] at there
    cases there

/-- Admitted steps keep every saved context resumable. -/
theorem Inv.step (inv : w.Inv area) (areas : Areas area) {l : WorldLabel ι}
    (admitted : w.Admits area l) (ok : w.step area l = .ok w') : w'.Inv area := by
  cases l with
  | compute m =>
    cases ok
    refine ⟨inv.idle, fun k snap here => ?_, inv.clear⟩
    obtain ⟨bytes, slot⟩ := admitted k snap here
    exact (inv.held k snap here).congr bytes slot
  | switchTo null j ret =>
    obtain ⟨snap, saved, -, -⟩ := savedBy_target ret inv admitted.1
    obtain ⟨next, stepped, -, -, -, kept⟩ := inv.switchTo areas admitted.2 saved
    rw [stepped] at ok
    cases ok
    exact kept
  | spawn null j stack entry arg ret =>
    obtain ⟨next, stepped, -, -, -, -, -, kept⟩ := inv.spawn areas admitted
    rw [stepped] at ok
    cases ok
    exact kept

/-- One running context and nothing saved. -/
def single (m : Machine) (i : ι) : World ι := ⟨m, i, fun _ => none⟩

omit [DecidableEq ι] in
theorem inv_single (m : Machine) (i : ι) : (single m i).Inv area where
  idle := rfl
  held k snap here := by cases here
  clear k snap here := by cases here

/-- A word below an aligned address is half-way to the next alignment. -/
theorem sub_eight_mod {stack : Word} (aligned : stack.toNat % 16 = 0) :
    (stack - 8).toNat % 16 = 8 := by
  rw [BitVec.toNat_sub]
  have := stack.isLt
  have eight : (8 : Word).toNat = 8 := rfl
  omega

/-- In every run each context is resumed as it last left, and each entry starts as it should. -/
theorem contexts_preserved {area : ι → Word} (areas : Areas area) {m : Machine} {i : ι}
    {w : World ι} (reached : Run.Reaches (step area) (Admits area) (single m i) w) :
    (∀ null j ret snap, w.saved j = some snap → w.Admits area (.switchTo null j ret) →
      ∃ w', w.step area (.switchTo null j ret) = .ok w' ∧ w'.running = j ∧
        w'.machine.Resumes snap) ∧
    (∀ ret, w.Admits area (.switchTo false w.running ret) →
      ∃ w', w.step area (.switchTo false w.running ret) = .ok w' ∧ w'.running = w.running ∧
        w'.machine.Resumes ⟨w.machine.reg, ret⟩) ∧
    ∀ null j stack entry arg ret, w.Admits area (.spawn null j stack entry arg ret) →
      ∃ w', w.step area (.spawn null j stack entry arg ret) = .ok w' ∧ w'.running = j ∧
        w'.machine.rip = entry ∧ w'.machine.reg .rdi = arg ∧
        w'.machine.reg .rsp = stack - 8 ∧
        (stack.toNat % 16 = 0 → (w'.machine.reg .rsp).toNat % 16 = 8) := by
  have inv : w.Inv area :=
    reached.invariant (inv_single m i) fun _ _ _ inv admitted ok => inv.step areas admitted ok
  refine ⟨fun null j ret snap here admitted => ?_, fun ret admitted => ?_,
    fun null j stack entry arg ret admitted => ?_⟩
  · obtain ⟨target, saved, same, -⟩ := savedBy_target ret inv admitted.1
    obtain rfl := same snap here
    obtain ⟨w', stepped, running, -, resumes, -⟩ := inv.switchTo areas admitted.2 saved
    exact ⟨w', stepped, running, resumes⟩
  · obtain ⟨target, saved, -, own⟩ := savedBy_target ret inv admitted.1
    obtain rfl := own rfl
    obtain ⟨w', stepped, running, -, resumes, -⟩ := inv.switchTo areas admitted.2 saved
    exact ⟨w', stepped, running, resumes⟩
  · obtain ⟨w', stepped, running, -, rip, rdi, rsp, -⟩ := inv.spawn areas admitted
    refine ⟨w', stepped, running, rip, rdi, rsp, fun aligned => ?_⟩
    rw [rsp]
    exact sub_eight_mod aligned

/-- The save areas of a main context and of one that it spawns. -/
def pairAreas : Bool → Word
  | false => 0x1000
  | true => 0x2000

/-- The main context before it spawns the other one. -/
def mainMachine : Machine where
  reg
    | .rsp => 0x8000
    | .rbx => 11
    | .r12 => 12
    | _ => 0
  rip := 0x400
  zf := false
  mem _ := 0

/-- A context that is spawned and switches back resumes the main context. -/
theorem contexts_preserved_pair : ∃ w snap,
    Run.Reaches (step pairAreas) (Admits pairAreas) (single mainMachine false) w ∧
      w.running = true ∧ w.saved false = some snap ∧
      ∃ w', w.step pairAreas (.switchTo false false 0x500) = .ok w' ∧ w'.running = false ∧
        w'.machine.Resumes snap := by
  have areas : Areas pairAreas := by
    refine ⟨fun i => by cases i <;> decide, fun i j other => ?_⟩
    cases i <;> cases j <;> first | exact absurd rfl other | decide +kernel
  have admitted : (single mainMachine false).Admits pairAreas
      (.spawn false true 0x9000 0x4000 5 0x404) := by
    refine ⟨by decide, rfl, ⟨fun k => ?_, fun k snap here => by cases here⟩,
      ⟨fun k => ?_, fun k snap here => by cases here⟩, fun _ => ?_⟩
    · cases k <;> decide +kernel
    · cases k <;> decide +kernel
    · decide +kernel
  obtain ⟨w, spawned, running, saved, -, -, rsp, -⟩ :=
    (inv_single mainMachine false).spawn areas admitted
  have reached := Run.Reaches.refl.tail admitted spawned
  have main : w.saved false = some ⟨mainMachine.reg, 0x404⟩ := by
    rw [saved]
    rfl
  have gone : w.saved true = none := by
    rw [saved]
    rfl
  have back : w.Admits pairAreas (.switchTo false false 0x500) := by
    refine ⟨.inl (by rw [main]; rfl), ⟨fun k => ?_, fun k snap here => ?_⟩⟩
    · rw [rsp]
      cases k <;> decide +kernel
    · cases k with
      | true =>
        rw [gone] at here
        cases here
      | false =>
        rw [main] at here
        cases here
        rw [rsp]
        decide +kernel
  exact ⟨w, _, reached, running, main,
    (contexts_preserved areas reached).1 false false 0x500 _ main back⟩

end World

end Gthread.Arch

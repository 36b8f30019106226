/-
`memory/paging.rs`: the 4-level page tables under CR3, read and written through the HHDM window,
from `table_indices` to `map_mmio_range`. Each function is one run on the memory: a panic, as of a
sum that overflows in `map_range`, has no result, an error is the `Err` of the source. `invlpg` does
nothing here; `Steps` has the same functions access by access with it, and `Tlb` what it is for.
-/
import Octagram.Memory.FrameAllocator
import Octagram.Lib.Loop

namespace Octagram.Memory

/-- `PAGE_SIZE`, in bytes. -/
def PAGE_SIZE : Nat := 4096

/-- `ADDR_MASK`: the address bits of an entry. -/
def ADDR_MASK : BitVec 64 := 0x000FFFFFFFFFF000#64

namespace flags

/-- `flags::PRESENT` -/
def PRESENT : BitVec 64 := 1#64 <<< 0

/-- `flags::WRITABLE` -/
def WRITABLE : BitVec 64 := 1#64 <<< 1

/-- `flags::USER` -/
def USER : BitVec 64 := 1#64 <<< 2

/-- `flags::NO_CACHE` -/
def NO_CACHE : BitVec 64 := 1#64 <<< 4

/-- `flags::HUGE_PAGE` -/
def HUGE_PAGE : BitVec 64 := 1#64 <<< 7

/-- `flags::NO_EXECUTE` -/
def NO_EXECUTE : BitVec 64 := 1#64 <<< 63

end flags

/-- `PagingError`: why a call changed no leaf entry. -/
inductive PagingError
  | hugePageInPath | alreadyMapped | notMapped | outOfFrames | hhdmUnavailable
  deriving DecidableEq, Repr

/-- A paging function: what it did to memory stays done when it returns `Err`. -/
abbrev PageM := ExceptT PagingError MemM

/-- Run a paging function: the panic message, or its `Result` and the memory it leaves. -/
def PageM.exec {α : Type} (x : PageM α) (s : Mem) : Except String (Except PagingError α × Mem) := x.run.run s

/-- The 9 bits of `virt` from bit `shift` on. -/
def tableIndex (virt : BitVec 64) (shift : Nat) : Fin 512 :=
  ⟨((virt >>> shift) &&& 0x1FF#64).toNat, by
    rw [BitVec.toNat_and]; exact Nat.lt_of_le_of_lt Nat.and_le_right (by decide)⟩

/-- `table_indices`. -/
def tableIndices (virt : BitVec 64) : Fin 512 × Fin 512 × Fin 512 × Fin 512 :=
  (tableIndex virt 39, tableIndex virt 30, tableIndex virt 21, tableIndex virt 12)

/-- `virt & !(PAGE_SIZE - 1)`. -/
def pageBase (addr : BitVec 64) : BitVec 64 := addr &&& ~~~BitVec.ofNat 64 (PAGE_SIZE - 1)

/-- `virt & (PAGE_SIZE - 1)`. -/
def pageOffset (addr : BitVec 64) : BitVec 64 := addr &&& BitVec.ofNat 64 (PAGE_SIZE - 1)

/-- `table.add(idx)`, with entries of 8 bytes. -/
def entryPtr (table : Nat) (idx : Fin 512) : Nat := table + 8 * idx

/-- `physical_to_virtual(..).ok_or(HhdmUnavailable)`. -/
def tableVirt (phys : BitVec 64) : PageM Nat := do
  match (← get).physicalToVirtual phys.toNat with
  | some virt => pure virt
  | none => throw .hhdmUnavailable

/-- `pml4_virt`. -/
def pml4Virt : PageM Nat := do
  tableVirt ((← get).cr3 &&& ADDR_MASK)

/-- The middle of `next_table_or_create`: put a fresh frame, zeroed by the allocator, into the
entry if it is not present. -/
def createTable (entry : Nat) : PageM Unit := do
  if (← get).readWord entry &&& flags.PRESENT = 0 then
    match ← (allocateFrame : MemM (Option Nat)) with
    | none => throw .outOfFrames
    | some frame => modify fun s => s.writeWord entry (BitVec.ofNat 64 frame ||| flags.PRESENT ||| flags.WRITABLE)
  else
    pure ()

/-- `next_table_or_create`, with `entry` the address of the entry. -/
def nextTableOrCreate (entry : Nat) : PageM Nat := do
  if (← get).readWord entry &&& flags.HUGE_PAGE ≠ 0 then
    throw .hugePageInPath
  else
    createTable entry
    tableVirt ((← get).readWord entry &&& ADDR_MASK)

/-- `next_table_existing`, with `entry` the entry itself. -/
def nextTableExisting (entry : BitVec 64) : PageM Nat :=
  if entry &&& flags.PRESENT = 0 then
    throw .notMapped
  else if entry &&& flags.HUGE_PAGE ≠ 0 then
    throw .hugePageInPath
  else
    tableVirt (entry &&& ADDR_MASK)

/-- `map_page`. -/
def mapPage (virtAddr physAddr extraFlags : BitVec 64) : PageM Unit := do
  let virt := pageBase virtAddr
  let phys := pageBase physAddr
  let (pml4Idx, pdptIdx, pdIdx, ptIdx) := tableIndices virt
  let pml4 ← pml4Virt
  let pdpt ← nextTableOrCreate (entryPtr pml4 pml4Idx)
  let pd ← nextTableOrCreate (entryPtr pdpt pdptIdx)
  let pt ← nextTableOrCreate (entryPtr pd pdIdx)
  let pte := entryPtr pt ptIdx
  if (← get).readWord pte &&& flags.PRESENT ≠ 0 then
    throw .alreadyMapped
  else
    modify fun s => s.writeWord pte (phys ||| flags.PRESENT ||| extraFlags)

/-- `a + b` on `u64`: a sum that does not fit is a panic. -/
def addU64 (a b : BitVec 64) : MemM (BitVec 64) :=
  if a.toNat + b.toNat < 2 ^ 64 then pure (a + b) else throw "attempt to add with overflow"

/-- Round `i` of the loop of `map_range`. -/
def mapRound (virtStart physStart extraFlags : BitVec 64) (i : Nat) : PageM Unit := do
  let offset := BitVec.ofNat 64 (i * PAGE_SIZE)
  let virt ← addU64 virtStart offset
  let phys ← addU64 physStart offset
  mapPage virt phys extraFlags

/-- The first `n` rounds of the loop of `map_range`. -/
def mapPages (virtStart physStart extraFlags : BitVec 64) (n : Nat) : PageM Unit :=
  forM (List.range n) (mapRound virtStart physStart extraFlags)

/-- `size.div_ceil(PAGE_SIZE)`. -/
def pageCount (size : BitVec 64) : Nat := (size.toNat + (PAGE_SIZE - 1)) / PAGE_SIZE

/-- `map_range`. -/
def mapRange (virtStart physStart size extraFlags : BitVec 64) : PageM Unit :=
  mapPages virtStart physStart extraFlags (pageCount size)

/-- `unmap_page`. -/
def unmapPage (virtAddr : BitVec 64) : PageM (BitVec 64) := do
  let virt := pageBase virtAddr
  let (pml4Idx, pdptIdx, pdIdx, ptIdx) := tableIndices virt
  let pml4 ← pml4Virt
  let pdpt ← nextTableExisting ((← get).readWord (entryPtr pml4 pml4Idx))
  let pd ← nextTableExisting ((← get).readWord (entryPtr pdpt pdptIdx))
  let pt ← nextTableExisting ((← get).readWord (entryPtr pd pdIdx))
  let pte := entryPtr pt ptIdx
  if (← get).readWord pte &&& flags.PRESENT = 0 then
    throw .notMapped
  else
    let phys := (← get).readWord pte &&& ADDR_MASK
    modify fun s => s.writeWord pte 0
    pure phys

/-- `translate`. -/
def translate (virtAddr : BitVec 64) : PageM (BitVec 64) := do
  let virt := pageBase virtAddr
  let offset := pageOffset virtAddr
  let (pml4Idx, pdptIdx, pdIdx, ptIdx) := tableIndices virt
  let pml4 ← pml4Virt
  let pdpt ← nextTableExisting ((← get).readWord (entryPtr pml4 pml4Idx))
  let pd ← nextTableExisting ((← get).readWord (entryPtr pdpt pdptIdx))
  let pt ← nextTableExisting ((← get).readWord (entryPtr pd pdIdx))
  let pte := (← get).readWord (entryPtr pt ptIdx)
  if pte &&& flags.PRESENT = 0 then
    throw .notMapped
  else
    pure ((pte &&& ADDR_MASK) + offset)

/-- The `{:?}` of a `PagingError`. -/
def PagingError.debug : PagingError → String
  | hugePageInPath => "HugePageInPath"
  | alreadyMapped => "AlreadyMapped"
  | notMapped => "NotMapped"
  | outOfFrames => "OutOfFrames"
  | hhdmUnavailable => "HhdmUnavailable"

/-- The `{:#x}` of an address. -/
def hexAddr (addr : BitVec 64) : String := "0x" ++ String.ofList (Nat.toDigits 16 addr.toNat)

/-- `physical_to_virtual(phys_aligned).expect(..) as u64`. -/
def mmioVirt (physAligned : BitVec 64) : MemM (BitVec 64) := do
  match (← get).physicalToVirtual physAligned.toNat with
  | some virt => pure (BitVec.ofNat 64 virt)
  | none => throw "HHDM belum tersedia"

/-- The body of `map_mmio_page` and `map_mmio_range`: `mapIt` maps the window of `phys_addr`'s page on; that
a page is mapped already is no error. -/
def mapMmio (message : String) (physAddr : BitVec 64) (mapIt : BitVec 64 → BitVec 64 → PageM Unit) :
    MemM (BitVec 64) := do
  let physAligned := pageBase physAddr
  let virt ← mmioVirt physAligned
  match ← (mapIt virt physAligned).run with
  | .ok () => pure virt
  | .error .alreadyMapped => pure virt
  | .error e => throw (message ++ " " ++ hexAddr physAddr ++ ": " ++ e.debug)

/-- `map_mmio_page`. -/
def mapMmioPage (physAddr : BitVec 64) : MemM (BitVec 64) :=
  mapMmio "gagal memetakan MMIO" physAddr fun virt phys => mapPage virt phys (flags.WRITABLE ||| flags.NO_CACHE)

/-- `map_mmio_range`. -/
def mapMmioRange (physAddr size : BitVec 64) : MemM (BitVec 64) :=
  mapMmio "gagal memetakan MMIO range" physAddr fun virt phys =>
    mapRange virt phys size (flags.WRITABLE ||| flags.NO_CACHE)

/-! ## Running paging functions -/

namespace PageM

variable {α β : Type}

@[simp] theorem exec_pure (a : α) (s : Mem) : exec (pure a : PageM α) s = .ok (.ok a, s) := rfl

@[simp] theorem exec_throw (e : PagingError) (s : Mem) : exec (throw e : PageM α) s = .ok (.error e, s) := rfl

/-- After a call that succeeds, the rest runs on its result. -/
theorem exec_bind_ok {x : PageM α} {s s' : Mem} {a : α} (h : x.exec s = .ok (.ok a, s')) (f : α → PageM β) :
    (x >>= f).exec s = (f a).exec s' := by
  show StateT.run (x.run >>= ExceptT.bindCont f) s = _
  rw [run_bind_ok h]
  rfl

/-- The `?` operator: an error ends the function. -/
theorem exec_bind_error {x : PageM α} {s s' : Mem} {e : PagingError} (h : x.exec s = .ok (.error e, s'))
    (f : α → PageM β) : (x >>= f).exec s = .ok (.error e, s') := by
  show StateT.run (x.run >>= ExceptT.bindCont f) s = _
  rw [run_bind_ok h]
  rfl

@[simp] theorem exec_get (f : Mem → PageM β) (s : Mem) : (get >>= f).exec s = (f s).exec s := rfl

@[simp] theorem exec_modify (g : Mem → Mem) (s : Mem) : (modify g : PageM PUnit).exec s = .ok (.ok (), g s) := rfl

/-- A call of a function that cannot return `Err`. -/
theorem exec_lift {x : MemM α} {s s' : Mem} {a : α} (h : x.run s = .ok (a, s')) :
    (liftM x : PageM α).exec s = .ok (.ok a, s') := by
  show StateT.run (x >>= fun a => pure (Except.ok a)) s = _
  rw [run_bind_ok h]
  rfl

end PageM

end Octagram.Memory

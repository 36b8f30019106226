/-
The paging functions access by access, with the `invlpg` that `Paging` leaves out: each read and
write of an entry, each call of the frame allocator and each `invlpg` is one operation, between
which the processor can take copies of entries. Run alone they are the functions of `Paging`
(`alone_mapPage` and its like, function by function), so what is proved there holds of these.
-/
import Octagram.Lib.Shadow
import Octagram.Memory.Paging

namespace Octagram.Memory

open Octagram.Lib

/-- What the paging functions do. -/
inductive PageOp
  | readCr3
  | hhdm
  | read (a : Nat)
  | write (a : Nat) (w : BitVec 64)
  | allocateFrame
  | invlpg (v : BitVec 64)
  | panic (message : String)

/-- What an access answers. -/
abbrev PageRet : PageOp → Type
  | .readCr3 => BitVec 64
  | .hhdm => Option Nat
  | .read _ => BitVec 64
  | .allocateFrame => Option Nat
  | _ => Unit

/-- What one of them does to memory. -/
def PageOp.run : (o : PageOp) → MemM (PageRet o)
  | .readCr3 => do return (← get).cr3
  | .hhdm => do return (← get).hhdm
  | .read a => do return (← get).readWord a
  | .write a w => modify fun s => s.writeWord a w
  | .allocateFrame => Memory.allocateFrame
  | .invlpg _ => pure ()
  | .panic message => throw message

/-- Programs over the accesses. -/
abbrev PageProg : Type → Type := Prog PageOp PageRet

/-- A function with the `?` operator. -/
abbrev StepM : Type → Type := ExceptT PagingError PageProg

/-- One operation. -/
def step (o : PageOp) : StepM (PageRet o) := ExceptT.lift (Prog.call o)

namespace Steps

/-- The HHDM response is read. -/
def hhdm : PageProg (Option Nat) := Prog.call PageOp.hhdm

/-- `physical_to_virtual` -/
def physicalToVirtual (phys : Nat) : PageProg (Option Nat) := do
  match ← hhdm with
  | some offset => pure (some (phys + offset))
  | none => pure none

/-- `physical_to_virtual(..).ok_or(HhdmUnavailable)`. -/
def tableVirt (phys : BitVec 64) : StepM Nat := do
  match ← (physicalToVirtual phys.toNat : PageProg (Option Nat)) with
  | some virt => pure virt
  | none => throw .hhdmUnavailable

/-- `pml4_virt` -/
def pml4Virt : StepM Nat := do
  let cr3 ← step .readCr3
  tableVirt (cr3 &&& ADDR_MASK)

/-- The new table of `next_table_or_create`: a frame that is zeroed, then the entry that names it. -/
def createTable (entry : Nat) : StepM Unit := do
  let e ← step (.read entry)
  if e &&& flags.PRESENT = 0 then
    match ← step .allocateFrame with
    | none => throw .outOfFrames
    | some frame => step (.write entry (BitVec.ofNat 64 frame ||| flags.PRESENT ||| flags.WRITABLE))
  else
    pure ()

/-- `next_table_or_create` -/
def nextTableOrCreate (entry : Nat) : StepM Nat := do
  let e ← step (.read entry)
  if e &&& flags.HUGE_PAGE ≠ 0 then
    throw .hugePageInPath
  else
    createTable entry
    let e ← step (.read entry)
    tableVirt (e &&& ADDR_MASK)

/-- `next_table_existing` -/
def nextTableExisting (entry : BitVec 64) : StepM Nat :=
  if entry &&& flags.PRESENT = 0 then
    throw .notMapped
  else if entry &&& flags.HUGE_PAGE ≠ 0 then
    throw .hugePageInPath
  else
    tableVirt (entry &&& ADDR_MASK)

/-- `map_page` -/
def mapPage (virtAddr physAddr extraFlags : BitVec 64) : StepM Unit := do
  let virt := pageBase virtAddr
  let phys := pageBase physAddr
  let (pml4Idx, pdptIdx, pdIdx, ptIdx) := tableIndices virt
  let pml4 ← pml4Virt
  let pdpt ← nextTableOrCreate (entryPtr pml4 pml4Idx)
  let pd ← nextTableOrCreate (entryPtr pdpt pdptIdx)
  let pt ← nextTableOrCreate (entryPtr pd pdIdx)
  let pte := entryPtr pt ptIdx
  let e ← step (.read pte)
  if e &&& flags.PRESENT ≠ 0 then
    throw .alreadyMapped
  else
    step (.write pte (phys ||| flags.PRESENT ||| extraFlags))
    step (.invlpg virt)

/-- `a + b` on `u64`. -/
def addU64 (a b : BitVec 64) : StepM (BitVec 64) := do
  if a.toNat + b.toNat < 2 ^ 64 then
    pure (a + b)
  else
    step (.panic "attempt to add with overflow")
    pure 0

/-- A round of the loop of `map_range`. -/
def mapRound (virtStart physStart extraFlags : BitVec 64) (i : Nat) : StepM Unit := do
  let offset := BitVec.ofNat 64 (i * PAGE_SIZE)
  let virt ← addU64 virtStart offset
  let phys ← addU64 physStart offset
  mapPage virt phys extraFlags

/-- `map_range` -/
def mapRange (virtStart physStart size extraFlags : BitVec 64) : StepM Unit :=
  forM (List.range (pageCount size)) (mapRound virtStart physStart extraFlags)

/-- `unmap_page`: the entry is cleared, then its copies dropped by `invlpg`. -/
def unmapPage (virtAddr : BitVec 64) : StepM (BitVec 64) := do
  let virt := pageBase virtAddr
  let (pml4Idx, pdptIdx, pdIdx, ptIdx) := tableIndices virt
  let pml4 ← pml4Virt
  let pdpt ← nextTableExisting (← step (.read (entryPtr pml4 pml4Idx)))
  let pd ← nextTableExisting (← step (.read (entryPtr pdpt pdptIdx)))
  let pt ← nextTableExisting (← step (.read (entryPtr pd pdIdx)))
  let pte := entryPtr pt ptIdx
  let e ← step (.read pte)
  if e &&& flags.PRESENT = 0 then
    throw .notMapped
  else
    let e ← step (.read pte)
    let phys := e &&& ADDR_MASK
    step (.write pte 0)
    step (.invlpg virt)
    pure phys

/-- `translate` -/
def translate (virtAddr : BitVec 64) : StepM (BitVec 64) := do
  let virt := pageBase virtAddr
  let offset := pageOffset virtAddr
  let (pml4Idx, pdptIdx, pdIdx, ptIdx) := tableIndices virt
  let pml4 ← pml4Virt
  let pdpt ← nextTableExisting (← step (.read (entryPtr pml4 pml4Idx)))
  let pd ← nextTableExisting (← step (.read (entryPtr pdpt pdptIdx)))
  let pt ← nextTableExisting (← step (.read (entryPtr pd pdIdx)))
  let pte ← step (.read (entryPtr pt ptIdx))
  if pte &&& flags.PRESENT = 0 then
    throw .notMapped
  else
    pure ((pte &&& ADDR_MASK) + offset)

/-- `panic!`, after which nothing comes. -/
def panic (message : String) : PageProg (BitVec 64) := do
  Prog.call (PageOp.panic message)
  pure 0

/-- The address of a page of registers in the window. -/
def mmioVirt (physAligned : BitVec 64) : PageProg (BitVec 64) := do
  match ← physicalToVirtual physAligned.toNat with
  | some virt => pure (BitVec.ofNat 64 virt)
  | none => panic "HHDM belum tersedia"

/-- The body of `map_mmio_page` and `map_mmio_range`. -/
def mapMmio (message : String) (physAddr : BitVec 64) (mapIt : BitVec 64 → BitVec 64 → StepM Unit) :
    PageProg (BitVec 64) := do
  let physAligned := pageBase physAddr
  let virt ← mmioVirt physAligned
  match ← (mapIt virt physAligned).run with
  | .ok () => pure virt
  | .error .alreadyMapped => pure virt
  | .error e => panic (message ++ " " ++ hexAddr physAddr ++ ": " ++ e.debug)

/-- `map_mmio_page` -/
def mapMmioPage (physAddr : BitVec 64) : PageProg (BitVec 64) :=
  mapMmio "gagal memetakan MMIO" physAddr fun virt phys => mapPage virt phys (flags.WRITABLE ||| flags.NO_CACHE)

/-- `map_mmio_range` -/
def mapMmioRange (physAddr size : BitVec 64) : PageProg (BitVec 64) :=
  mapMmio "gagal memetakan MMIO range" physAddr fun virt phys =>
    mapRange virt phys size (flags.WRITABLE ||| flags.NO_CACHE)

end Steps

/-! ## Run alone -/

/-- The program as a function on memory. -/
def PageProg.run {α : Type} : PageProg α → MemM α
  | .ret a => pure a
  | .op o k => do PageProg.run (k (← o.run))

theorem PageProg.run_bind {α β : Type} (p : PageProg α) (f : α → PageProg β) :
    PageProg.run (p >>= f) = PageProg.run p >>= fun a => PageProg.run (f a) := by
  induction p with
  | ret a => exact (pure_bind a fun a => PageProg.run (f a)).symm
  | op o k ih =>
    rw [Prog.op_bind, PageProg.run, PageProg.run, bind_assoc]
    exact congrArg _ (funext ih)

/-- A function with the `?` operator as one on memory. -/
def alone {α : Type} (x : StepM α) : PageM α := ExceptT.mk (PageProg.run x.run)

section Alone

variable {α β : Type}

@[simp] theorem alone_pure (a : α) : alone (pure a) = pure a := rfl

@[simp] theorem alone_throw (e : PagingError) : alone (throw e : StepM α) = throw e := rfl

theorem alone_bind (x : StepM α) (f : α → StepM β) : alone (x >>= f) = alone x >>= fun a => alone (f a) := by
  unfold alone
  rw [ExceptT.run_bind, PageProg.run_bind]
  refine congrArg ExceptT.mk (congrArg _ (funext fun r => ?_))
  cases r <;> rfl

@[simp] theorem alone_step (o : PageOp) : alone (step o) = liftM o.run := rfl

theorem alone_ite (c : Prop) [Decidable c] (x y : StepM α) :
    alone (if c then x else y) = if c then alone x else alone y :=
  apply_ite alone c x y

end Alone

/-- An access that reads. -/
theorem alone_read {β : Type} (a : Nat) (f : BitVec 64 → StepM β) :
    alone (step (.read a) >>= f) = (do let s ← get; alone (f (s.readWord a))) := alone_bind _ _

theorem alone_tableVirt (phys : BitVec 64) : alone (Steps.tableVirt phys) = tableVirt phys := by
  funext s
  obtain ⟨ram, hhdm, map, frames, cr3⟩ := s
  cases hhdm <;> rfl

theorem alone_pml4Virt : alone Steps.pml4Virt = pml4Virt := by
  unfold Steps.pml4Virt pml4Virt
  rw [alone_bind]
  simp only [alone_tableVirt]
  rfl

theorem alone_createTable (entry : Nat) : alone (Steps.createTable entry) = createTable entry := by
  unfold Steps.createTable createTable
  rw [alone_read]
  refine congrArg _ (funext fun s => ?_)
  rw [alone_ite, alone_bind]
  refine if_congr Iff.rfl (congrArg _ (funext fun r => ?_)) rfl
  cases r <;> rfl

theorem alone_nextTableOrCreate (entry : Nat) : alone (Steps.nextTableOrCreate entry) = nextTableOrCreate entry := by
  unfold Steps.nextTableOrCreate nextTableOrCreate
  rw [alone_read]
  refine congrArg _ (funext fun s => ?_)
  rw [alone_ite, alone_bind, alone_createTable]
  refine if_congr Iff.rfl rfl (congrArg _ (funext fun _ => ?_))
  rw [alone_read]
  simp only [alone_tableVirt]

theorem alone_nextTableExisting (entry : BitVec 64) :
    alone (Steps.nextTableExisting entry) = nextTableExisting entry := by
  unfold Steps.nextTableExisting nextTableExisting
  rw [alone_ite, alone_ite, alone_tableVirt]
  rfl

theorem alone_mapPage (v p fl : BitVec 64) : alone (Steps.mapPage v p fl) = mapPage v p fl := by
  unfold Steps.mapPage mapPage
  simp only [alone_bind, alone_pml4Virt, alone_nextTableOrCreate, alone_ite, alone_throw]
  rfl

theorem alone_addU64 (a b : BitVec 64) : alone (Steps.addU64 a b) = liftM (addU64 a b) := by
  unfold Steps.addU64 addU64
  rw [alone_ite]
  split <;> rfl

theorem alone_mapRound (v p fl : BitVec 64) (i : Nat) : alone (Steps.mapRound v p fl i) = mapRound v p fl i := by
  unfold Steps.mapRound mapRound
  simp only [alone_bind, alone_addU64, alone_mapPage]

theorem alone_mapRange (v p size fl : BitVec 64) : alone (Steps.mapRange v p size fl) = mapRange v p size fl := by
  have hloop : ∀ l : List Nat, alone (forM l (Steps.mapRound v p fl)) = forM l (mapRound v p fl) := by
    intro l
    induction l with
    | nil => rfl
    | cons i l ih => rw [List.forM_cons, List.forM_cons, alone_bind, alone_mapRound, ih]
  exact hloop _

theorem alone_unmapPage (v : BitVec 64) : alone (Steps.unmapPage v) = unmapPage v := by
  unfold Steps.unmapPage unmapPage
  simp only [alone_bind, alone_pml4Virt, alone_nextTableExisting, alone_ite, alone_throw]
  rfl

theorem alone_translate (v : BitVec 64) : alone (Steps.translate v) = translate v := by
  unfold Steps.translate translate
  simp only [alone_bind, alone_pml4Virt, alone_nextTableExisting, alone_ite, alone_throw]
  rfl

theorem run_mmioVirt (phys : BitVec 64) : PageProg.run (Steps.mmioVirt phys) = mmioVirt phys := by
  funext s
  obtain ⟨ram, hhdm, map, frames, cr3⟩ := s
  cases hhdm <;> rfl

theorem run_mapMmio {message : String} {phys : BitVec 64} {f : BitVec 64 → BitVec 64 → StepM Unit}
    {g : BitVec 64 → BitVec 64 → PageM Unit} (h : ∀ v p, alone (f v p) = g v p) :
    PageProg.run (Steps.mapMmio message phys f) = mapMmio message phys g := by
  unfold Steps.mapMmio mapMmio
  dsimp only
  rw [PageProg.run_bind, run_mmioVirt]
  refine congrArg _ (funext fun virt => ?_)
  rw [PageProg.run_bind, ← h]
  refine congrArg _ (funext fun r => ?_)
  rcases r with e | _
  · cases e <;> rfl
  · rfl

end Octagram.Memory

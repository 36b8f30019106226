/-
The structures that the driver boxes for the controller: their sizes and alignments, by the rules of
`repr(C, align(64))`, and where the heap can put them. All of them are aligned to 64 bytes and
larger than that, so no alignment keeps them off the boundaries of pages or of 64 KiB: one crosses
exactly if it starts behind the last place where it fits (`dma_boundary_iff`), and every heap of
`init_heap` has such a place (`heap_has_crossing`).
-/
import Octagram.Lib.Layout
import Octagram.Memory.HeapAllocator

namespace Octagram.Usb

open Octagram.Lib

/-! ## The structures -/

/-- `u32`, aligned to its size. -/
def u32 : Layout := .int 4 (by decide)

/-- `u64`, aligned to its size. -/
def u64 : Layout := .int 8 (by decide)

/-- `Trb`. -/
def trbLayout : Layout := .struct 1 (by decide) [u64, u32, u32]

/-- `SlotContext`, `EndpointContext` and `InputControlContext`. -/
def slotContext : Layout := .struct 1 (by decide) [u32, u32, u32, u32, u32.array 4]

/-- `EndpointContext` -/
def endpointContext : Layout := .struct 1 (by decide) [u32, u32, u32, u32, u32, u32.array 3]

/-- `InputControlContext` -/
def inputControlContext : Layout := .struct 1 (by decide) [u32, u32, u32.array 6]

/-- What the driver boxes: `init_xhci` a `Dcbaa` and a `CommandRing`, `setup_event_ring` an `EventRingSegment`,
`address_device` a `TransferRing`, a `DeviceContext` and an `InputContext`, `configure_endpoint` a `TransferRing` and
an `InputContextFull`. -/
inductive DmaType
  | dcbaa | deviceContext | inputContext | inputContextFull | commandRing | transferRing | eventRingSegment
  deriving DecidableEq, Repr

namespace DmaType

/-- `repr(C, align(64))`, each with its fields. -/
def layout : DmaType → Layout
  | dcbaa => .struct 64 (by decide) [u64.array 256]
  | deviceContext => .struct 64 (by decide) [slotContext, endpointContext.array 31]
  | inputContext => .struct 64 (by decide) [inputControlContext, slotContext, endpointContext]
  | inputContextFull => .struct 64 (by decide) [inputControlContext, slotContext, endpointContext.array 31]
  | commandRing => .struct 64 (by decide) [trbLayout.array 32]
  | transferRing => .struct 64 (by decide) [trbLayout.array 16]
  | eventRingSegment => .struct 64 (by decide) [trbLayout.array 32]

/-- The boundary that the controller wants it off: of a page, or of 64 KiB for a ring. -/
def boundary : DmaType → Nat
  | dcbaa | deviceContext | inputContext | inputContextFull => 4096
  | commandRing | transferRing | eventRingSegment => 65536

/-- The last place before a boundary where it still fits. -/
def lastFit : DmaType → Nat
  | dcbaa => 2048
  | deviceContext => 3072
  | inputContext => 3968
  | inputContextFull => 3008
  | commandRing | eventRingSegment => 65024
  | transferRing => 65280

/-- Sizes: 2048, 1024, 128, 1088, 512, 256 and 512 bytes. -/
theorem layout_eq (t : DmaType) :
    t.layout.align = 64 ∧ t.layout.size + t.lastFit = t.boundary ∧ 64 < t.layout.size := by
  cases t <;> decide

end DmaType

/-- A place in the heap (its start and size) that the allocator may return for the structure. -/
structure Placement (heap : Nat × Nat) (t : DmaType) where
  virt : Nat
  aligned : t.layout.align ∣ virt
  low : heap.1 ≤ virt
  high : virt + t.layout.size ≤ heap.1 + heap.2

/-- At the physical address that `virtual_to_physical` gives, it does not cross its boundary. -/
def Placement.Respects {heap : Nat × Nat} {t : DmaType} (p : Placement heap t) (s : Memory.Mem) : Prop :=
  ∀ phys, s.virtualToPhysical p.virt = some phys → ¬ Crosses t.boundary phys t.layout.size

/-! ## Boundaries -/

section Boundaries

variable {t : DmaType}

theorem boundary_facts (t : DmaType) : 0 < t.boundary ∧ t.layout.align ∣ t.boundary ∧ t.boundary ≤ 65536 ∧
    t.layout.size ≤ 2048 := by
  cases t <;> decide

/-- Its alignment does not keep a structure off the boundary. -/
theorem alignment_too_small (t : DmaType) : ∃ x, t.layout.align ∣ x ∧ Crosses t.boundary x t.layout.size := by
  obtain ⟨halign, -, hsize⟩ := t.layout_eq
  obtain ⟨hpos, hdvd, -, -⟩ := boundary_facts t
  by_contra hno
  have hall : ∀ x, t.layout.align ∣ x → ¬ Crosses t.boundary x t.layout.size := fun x hx hc => hno ⟨x, hx, hc⟩
  have hle := (aligned_iff hpos (by omega) t.layout.pos hdvd).1 hall
  omega

/-- Every heap of `init_heap` has such a place: its start is a frame. -/
theorem heap_has_crossing {s : Memory.Mem} {offset start : Nat} (t : DmaType) (hh : s.hhdm = some offset)
    (ho : 64 ∣ offset) (hs : Memory.FRAME_SIZE ∣ start) :
    ∃ p : Placement (start + offset, Memory.HEAP_SIZE) t, ¬ p.Respects s := by
  obtain ⟨halign, -, hlarge⟩ := t.layout_eq
  obtain ⟨hpos, hdvd, hb, hsize⟩ := boundary_facts t
  rw [halign] at hdvd
  have hheap : Memory.HEAP_SIZE = 1048576 := rfl
  have hframe : (64 : Nat) ∣ start := Nat.dvd_trans (by decide) hs
  -- the line before the next boundary
  have hnext : (64 : Nat) ∣ t.boundary * (start / t.boundary + 1) := Nat.dvd_mul_right_of_dvd hdvd _
  have hgt : start < t.boundary * (start / t.boundary + 1) := Nat.lt_mul_div_succ start hpos
  have hle : t.boundary * (start / t.boundary + 1) ≤ start + t.boundary := by
    rw [Nat.mul_add, Nat.mul_one]
    exact Nat.add_le_add_right (Nat.mul_div_le start t.boundary) _
  generalize hn : t.boundary * (start / t.boundary + 1) = next at hnext hgt hle
  have hline : start + 64 ≤ next := by omega
  have hmod : (next - 64) % t.boundary = t.boundary - 64 := by
    have hbig : 64 ≤ t.boundary := Nat.le_of_dvd hpos hdvd
    have heq : next - 64 = t.boundary * (start / t.boundary) + (t.boundary - 64) := by
      rw [Nat.mul_add, Nat.mul_one] at hn
      omega
    rw [heq, Nat.mul_add_mod, Nat.mod_eq_of_lt (by omega)]
  refine ⟨⟨next - 64 + offset, ?_, ?_, ?_⟩, fun h => h (next - 64) ?_ ?_⟩
  · rw [halign]
    exact Nat.dvd_add (Nat.dvd_sub hnext (Nat.dvd_refl 64)) ho
  · show start + offset ≤ _
    omega
  · show _ ≤ start + offset + Memory.HEAP_SIZE
    omega
  · show s.virtualToPhysical (next - 64 + offset) = _
    unfold Memory.Mem.virtualToPhysical
    rw [hh]
    exact congrArg some (Nat.add_sub_cancel _ _)
  · rw [crosses_iff hpos (by omega), hmod]
    omega

/-- Where the allocator puts a structure, it stays off its boundary exactly if it starts early enough before it. -/
theorem dma_boundary_iff {s : Memory.Mem} {heap : Nat × Nat} {offset : Nat} (hh : s.hhdm = some offset)
    (p : Placement heap t) : p.Respects s ↔ (p.virt - offset) % t.boundary ≤ t.lastFit := by
  obtain ⟨-, hfit, hlarge⟩ := t.layout_eq
  have hphys : s.virtualToPhysical p.virt = some (p.virt - offset) := by
    unfold Memory.Mem.virtualToPhysical
    rw [hh]
  have hcross := crosses_iff (x := p.virt - offset) (boundary_facts t).1 (show 0 < t.layout.size by omega)
  constructor
  · intro h
    have hno := h _ hphys
    rw [hcross] at hno
    omega
  · intro h phys hp
    rw [hphys] at hp
    cases hp
    rw [hcross]
    omega

end Boundaries

/-- The heap of 1 MiB from `0x100000` on. -/
def exampleHeap : Nat × Nat := (0xffff800000100000, Memory.HEAP_SIZE)

/-- A DCBAA at the start of this heap. -/
def firstDcbaa : Placement exampleHeap .dcbaa := ⟨0xffff800000100000, by decide, by decide, by decide⟩

/-- One in the last line of its first page. -/
def lateDcbaa : Placement exampleHeap .dcbaa := ⟨0xffff800000100fc0, by decide, by decide, by decide⟩

/-- `dma_boundary_iff` for the first of them. -/
theorem dma_boundary_iff_firstDcbaa : firstDcbaa.Respects Memory.smallMachine :=
  (dma_boundary_iff rfl firstDcbaa).2 (by decide)

/-- The second one crosses a page. -/
theorem lateDcbaa_crosses : ¬ lateDcbaa.Respects Memory.smallMachine := by
  intro h
  refine h 0x100fc0 rfl ?_
  show 0x100fc0 / 4096 ≠ (0x100fc0 + 2048 - 1) / 4096
  decide

end Octagram.Usb

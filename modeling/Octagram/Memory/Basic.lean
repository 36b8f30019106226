/-
The state behind `memory/mod.rs`: physical memory seen through the HHDM window, the Limine
responses, the global frame allocator and CR3. `usize` and `u64` addresses are `Nat`; that a sum
of addresses stays below `2^64` is an assumption where it matters.
-/
import Octagram.Lib.Ram
import Octagram.Lib.Stateful

namespace Octagram.Memory

open Octagram.Lib

/-- Limine's memory map entry types (`memory_map::EntryType`). -/
inductive EntryType
  | usable | reserved | acpiReclaimable | acpiNvs | badMemory | bootloaderReclaimable
  | executableAndModules | framebuffer | unknown
  deriving DecidableEq, Repr

/-- One entry of the Limine memory map. -/
structure MemoryMapEntry where
  base : Nat
  length : Nat
  entryType : EntryType
  deriving DecidableEq, Repr

/-- `FrameAllocator`: the head of the free list (a physical address), and whether `init` has run. -/
structure FrameAllocator where
  head : Option Nat
  initialized : Bool

/-- `FrameAllocator::new`. -/
def FrameAllocator.new : FrameAllocator := ⟨none, false⟩

/-- What the memory functions read and write. -/
structure Mem where
  ram : Ram
  /-- `HHDM_REQUEST.get_response()`: the offset of the HHDM window. -/
  hhdm : Option Nat
  /-- `MEMORY_MAP_REQUEST.get_response()`. -/
  memoryMap : Option (List MemoryMapEntry)
  /-- `FRAME_ALLOCATOR`. -/
  frameAllocator : FrameAllocator
  cr3 : BitVec 64

/-- A kernel function on the memory state; the error is the message of a panic. -/
abbrev MemM := StateT Mem (Except String)

/-- A function that continues after a call runs on with the call's result. -/
theorem run_bind_ok {α β : Type} {x : MemM α} {s s' : Mem} {a : α} (h : x.run s = .ok (a, s')) (f : α → MemM β) :
    (x >>= f).run s = (f a).run s' := stateT_bind_ok h f

/-- Where two calls one after the other return, both do. -/
theorem run_bind_eq_ok {α β : Type} {x : MemM α} {f : α → MemM β} {s s'' : Mem} {b : β}
    (h : (x >>= f).run s = .ok (b, s'')) : ∃ a s', x.run s = .ok (a, s') ∧ (f a).run s' = .ok (b, s'') :=
  stateT_bind_eq_ok h

namespace Mem

/-- `physical_to_virtual`. -/
def physicalToVirtual (s : Mem) (physAddr : Nat) : Option Nat :=
  match s.hhdm with
  | some offset => some (physAddr + offset)
  | none => none

/-- `virtual_to_physical`. -/
def virtualToPhysical (s : Mem) (virtAddr : Nat) : Option Nat :=
  match s.hhdm with
  | some offset => some (virtAddr - offset)
  | none => none

/-! ## Accesses through the HHDM window, which shows physical memory one to one -/

/-- The physical byte behind a virtual address of the window. -/
def behind (s : Mem) (virt : Nat) : Nat := virt - s.hhdm.getD 0

/-- `ptr::read` of a `u64`. -/
def readWord (s : Mem) (virt : Nat) : BitVec 64 := s.ram.word (s.behind virt)

/-- `ptr::write` of a `u64`. -/
def writeWord (s : Mem) (virt : Nat) (w : BitVec 64) : Mem := { s with ram := s.ram.setWord (s.behind virt) w }

/-- `ptr::write_bytes(virt, 0, n)`. -/
def zeroBytes (s : Mem) (virt n : Nat) : Mem := { s with ram := s.ram.fill (s.behind virt) n 0 }

/-- The allocator with another head. -/
def setHead (s : Mem) (h : Option Nat) : Mem := { s with frameAllocator := { s.frameAllocator with head := h } }

/-- The allocator once `init` has run. -/
def setInitialized (s : Mem) : Mem := { s with frameAllocator := { s.frameAllocator with initialized := true } }

/-- The boot-time constants are the same: the window, the memory map and CR3. -/
structure SameBoot (s s' : Mem) : Prop where
  hhdm : s'.hhdm = s.hhdm
  memoryMap : s'.memoryMap = s.memoryMap
  cr3 : s'.cr3 = s.cr3

theorem SameBoot.refl (s : Mem) : SameBoot s s := ⟨rfl, rfl, rfl⟩

theorem SameBoot.trans {s s' s'' : Mem} (h : SameBoot s s') (h' : SameBoot s' s'') : SameBoot s s'' :=
  ⟨h'.hhdm.trans h.hhdm, h'.memoryMap.trans h.memoryMap, h'.cr3.trans h.cr3⟩

theorem physicalToVirtual_some {s : Mem} {offset : Nat} (h : s.hhdm = some offset) (p : Nat) :
    s.physicalToVirtual p = some (p + offset) := by
  unfold physicalToVirtual; rw [h]

/-- The window shows physical memory one to one. -/
theorem behind_window {s : Mem} {offset : Nat} (h : s.hhdm = some offset) (p : Nat) : s.behind (p + offset) = p := by
  unfold behind; rw [h]; exact Nat.add_sub_cancel ..

end Mem

end Octagram.Memory

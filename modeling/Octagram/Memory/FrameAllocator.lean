/-
`memory/frame_allocator.rs`: the intrusive free list of physical frames and its lazy construction
from the Limine memory map. A function that panics, or that follows a null HHDM response, has no
result: so has the loop of `init` where its sum `addr + FRAME_SIZE` overflows. What the list is as a
list of frames is in `FrameList`, who owns the frames in `Ownership`.
-/
import Octagram.Memory.Basic

namespace Octagram.Memory

open Octagram.Lib

/-- `FRAME_SIZE`, in bytes. -/
def FRAME_SIZE : Nat := 4096

/-- `NULL_MARK`: the `next` pointer of the last free frame. -/
def NULL_MARK : Nat := 2 ^ 64 - 1

/-- `align_up`, with the mask taken on 64-bit words. -/
def alignUp (addr align : Nat) : Nat :=
  (BitVec.ofNat 64 (addr + align - 1) &&& ~~~ BitVec.ofNat 64 (align - 1)).toNat

namespace FrameAllocator

/-- `push_free`: store the old head in the frame and make the frame the new head. -/
def pushFree (frame : Nat) : MemM Unit := do
  let s ← get
  match s.physicalToVirtual frame with
  | none => throw "HHDM belum tersedia saat push_free"
  | some virt =>
    set ((s.writeWord virt (BitVec.ofNat 64 (s.frameAllocator.head.getD NULL_MARK))).setHead (some frame))

/-- The `while addr + FRAME_SIZE <= end` loop of `init`; the sum is of `usize` values, and panics where it overflows. -/
def pushRegion (addr stop : Nat) : MemM Unit :=
  if addr + FRAME_SIZE < 2 ^ 64 then
    if addr + FRAME_SIZE ≤ stop then do
      pushFree addr
      pushRegion (addr + FRAME_SIZE) stop
    else
      pure ()
  else
    throw "attempt to add with overflow"
termination_by stop - addr
decreasing_by simp only [FRAME_SIZE] at *; omega

/-- `init`: put every whole frame of every USABLE entry on the free list. -/
def init : MemM Unit := do
  match (← get).memoryMap with
  | some entries =>
    forM entries fun entry =>
      if entry.entryType = EntryType.usable then
        pushRegion (alignUp entry.base FRAME_SIZE) (entry.base + entry.length)
      else
        pure ()
  | none => pure ()
  modify Mem.setInitialized

/-- The first lines of `allocate`: run `init` once. -/
def ensureInit : MemM Unit := do
  if !(← get).frameAllocator.initialized then init

/-- `allocate`: take the head frame off the list, zero it, and return its physical address. -/
def allocate : MemM (Option Nat) := do
  ensureInit
  let s ← get
  match s.frameAllocator.head with
  | none => pure none
  | some frame =>
    match s.physicalToVirtual frame with
    | none => pure none
    | some virt =>
      let next := (s.readWord virt).toNat
      set ((s.setHead (if next = NULL_MARK then none else some next)).zeroBytes virt FRAME_SIZE)
      pure (some frame)

/-- `free`: zero the frame and put it back on the list. -/
def free (frame : Nat) : MemM Unit := do
  let s ← get
  match s.physicalToVirtual frame with
  | some virt => set (s.zeroBytes virt FRAME_SIZE)
  | none => pure ()
  pushFree frame

end FrameAllocator

/-- `allocate_frame`. -/
def allocateFrame : MemM (Option Nat) := FrameAllocator.allocate

/-- `free_frame`. -/
def freeFrame (frame : Nat) : MemM Unit := FrameAllocator.free frame

end Octagram.Memory

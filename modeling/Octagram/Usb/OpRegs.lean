/-
`init_xhci` access by access: the registers of one controller where `virt_base` maps them, and the
memory it reads. The controller halts, resets and starts in its own time, and while it resets its
registers can be anything. Each write that comes when xHCI forbids it is recorded (`Forbids`), and
so is the memory on which the controller was started. `Controllers` has the same function on what
the registers mean; what it does here is in `Started`.
-/
import Octagram.Lib.Prog
import Octagram.Lib.Cells

namespace Octagram.Usb.OpRegs

open Octagram.Lib

/-! ## The registers -/

/-- The capability registers that the driver reads. -/
structure XhciCapRegs where
  capLength : BitVec 8
  hcsparams1 : BitVec 32
  rtsoff : BitVec 32

namespace XhciCapRegs

/-- MaxSlots (bits 0-7 of HCSPARAMS1). -/
def maxSlots (c : XhciCapRegs) : BitVec 8 := (c.hcsparams1 &&& 0xFF#32).setWidth 8

/-- Where interrupter 0 is. -/
def interrupter0 (c : XhciCapRegs) : Nat := (c.rtsoff &&& ~~~0x1F#32).toNat + 0x20

/-- The register sets do not overlap. -/
structure Apart (c : XhciCapRegs) : Prop where
  capability : 0x20 ≤ c.capLength.toNat
  operational : c.capLength.toNat + 0x3C ≤ c.interrupter0

end XhciCapRegs

/-- The operational registers, and those of interrupter 0. -/
inductive Register
  | usbcmd | usbsts | crcr | dcbaap | config | iman | imod | erstsz | erstba | erdp
  deriving DecidableEq

/-- Where a register is. -/
def Register.offset (c : XhciCapRegs) : Register → Nat
  | usbcmd => c.capLength.toNat
  | usbsts => c.capLength.toNat + 0x04
  | crcr => c.capLength.toNat + 0x18
  | dcbaap => c.capLength.toNat + 0x30
  | config => c.capLength.toNat + 0x38
  | iman => c.interrupter0
  | imod => c.interrupter0 + 0x04
  | erstsz => c.interrupter0 + 0x08
  | erstba => c.interrupter0 + 0x10
  | erdp => c.interrupter0 + 0x18

/-- All of them. -/
def registers : List Register := [.usbcmd, .usbsts, .crcr, .dcbaap, .config, .iman, .imod, .erstsz, .erstba, .erdp]

/-- The register at an offset. -/
def XhciCapRegs.decode (c : XhciCapRegs) (off : Nat) : Option Register := registers.find? fun r => r.offset c = off

/-- What software sets up while the controller is halted. -/
structure Setup where
  config : BitVec 32
  dcbaap : BitVec 64
  crcr : BitVec 64
  iman : BitVec 32
  imod : BitVec 32
  erstsz : BitVec 32
  erstba : BitVec 64
  erdp : BitVec 64

/-- After a reset. -/
def Setup.zero : Setup := ⟨0, 0, 0, 0, 0, 0, 0, 0⟩

/-- The controller: its capability registers, USBCMD, USBSTS and the set-up, and whether its reset is not over. -/
structure Hc where
  caps : XhciCapRegs
  usbcmd : BitVec 32
  usbsts : BitVec 32
  setup : Setup

namespace Hc

/-- HCHalted is set. -/
def Halted (c : Hc) : Prop := c.usbsts.getLsbD 0 = true

/-- CNR, or the reset is not over. -/
def NotReady (c : Hc) : Prop := c.usbsts.getLsbD 11 = true ∨ c.usbcmd.getLsbD 1 = true

instance (c : Hc) : Decidable c.Halted := inferInstanceAs (Decidable (_ = _))

instance (c : Hc) : Decidable c.NotReady := inferInstanceAs (Decidable (_ ∨ _))

/-- What there must be before the controller is started. -/
def Prepared (c : Hc) : Prop := c.setup.dcbaap ≠ 0#64 ∧ c.setup.crcr ≠ 0#64 ∧ c.setup.erstba ≠ 0#64

instance (c : Hc) : Decidable c.Prepared := inferInstanceAs (Decidable (_ ∧ _ ∧ _))

/-- The writes that xHCI forbids: while the controller is not ready all but those of USBSTS; a reset, a start or
a change of the set-up unless it is halted; the segment table before its size and the dequeue pointer; a start
that is not prepared. -/
def Forbids (c : Hc) (v : BitVec 64) : Register → Prop
  | .usbsts => False
  | .usbcmd => c.NotReady ∨ (v.getLsbD 1 = true ∧ ¬ c.Halted) ∨
      (v.getLsbD 0 = true ∧ c.usbcmd.getLsbD 0 = false ∧ (¬ c.Halted ∨ ¬ c.Prepared))
  | .iman | .imod | .erdp => c.NotReady
  | .erstba => c.NotReady ∨ ¬ c.Halted ∨ c.setup.erstsz = 0#32 ∨ c.setup.erdp = 0#64
  | .crcr | .dcbaap | .config | .erstsz => c.NotReady ∨ ¬ c.Halted

instance (c : Hc) (v : BitVec 64) (r : Register) : Decidable (c.Forbids v r) := by
  cases r <;> unfold Forbids <;> infer_instance

/-- A write; 1 clears the change bits of USBSTS and the pending bit of IMAN. -/
def write (c : Hc) (v : BitVec 64) : Register → Hc
  | .usbcmd => { c with usbcmd := v.setWidth 32 }
  | .usbsts => { c with usbsts := c.usbsts &&& ~~~(v.setWidth 32 &&& 0x41C#32) }
  | .crcr => { c with setup := { c.setup with crcr := v } }
  | .dcbaap => { c with setup := { c.setup with dcbaap := v } }
  | .config => { c with setup := { c.setup with config := v.setWidth 32 } }
  | .iman => { c with setup := { c.setup with
      iman := (v.setWidth 32 &&& 2#32) ||| (c.setup.iman &&& ~~~v.setWidth 32 &&& 1#32) } }
  | .imod => { c with setup := { c.setup with imod := v.setWidth 32 } }
  | .erstsz => { c with setup := { c.setup with erstsz := v.setWidth 32 } }
  | .erstba => { c with setup := { c.setup with erstba := v } }
  | .erdp => { c with setup := { c.setup with erdp := v } }

/-- The low half of what is read. -/
def read (c : Hc) : Register → BitVec 32
  | .usbcmd => c.usbcmd
  | .usbsts => c.usbsts
  | .crcr => 0
  | .dcbaap => c.setup.dcbaap.setWidth 32
  | .config => c.setup.config
  | .iman => c.setup.iman
  | .imod => c.setup.imod
  | .erstsz => c.setup.erstsz
  | .erstba => c.setup.erstba.setWidth 32
  | .erdp => c.setup.erdp.setWidth 32

/-- 32 bits at an offset. -/
def read32 (c : Hc) (off : Nat) : BitVec 32 :=
  if off = 0x04 then c.caps.hcsparams1
  else if off = 0x18 then c.caps.rtsoff
  else
    match c.caps.decode off with
    | some r => c.read r
    | none => 0

end Hc

/-! ## The machine -/

/-- The controller behind `base`, the memory by physical address, and what the allocator will return.
`forbidden` are the writes so far that are forbidden, and `startedOn` is the memory when Run/Stop was set. -/
structure Node where
  base : Nat
  hc : Hc
  hhdm : Option Nat
  ram : Ram
  boxes : Nat → Nat
  boxCount : Nat
  forbidden : List Register
  startedOn : Option Ram

namespace Node

/-- The physical address behind a virtual one of the window. -/
def phys (s : Node) (virt : Nat) : Nat := virt - s.hhdm.getD 0

/-- The segment that the segment table names. -/
def segment (s : Node) : Nat := (s.ram.word s.hc.setup.erstba.toNat).toNat

/-- Its size in bytes. -/
def segmentSize (s : Node) : Nat := 16 * ((s.ram.word (s.hc.setup.erstba.toNat + 8)).toNat % 2 ^ 16)

/-- A store to the registers. -/
def store (s : Node) (a : Nat) (v : BitVec 64) : Node :=
  match s.hc.caps.decode (a - s.base) with
  | some r => { s with
      hc := s.hc.write v r
      forbidden := if s.hc.Forbids v r then s.forbidden ++ [r] else s.forbidden
      startedOn := if r = .usbcmd ∧ v.getLsbD 0 = true ∧ s.hc.usbcmd.getLsbD 0 = false then some s.ram
        else s.startedOn }
  | none => s

end Node

/-- `await` is a loop on a register without a bound: until one of the bits is set, or all are clear. -/
inductive HcOp
  | read8 (a : Nat)
  | read32 (a : Nat)
  | write32 (a : Nat) (v : BitVec 32)
  | write64 (a : Nat) (v : BitVec 64)
  | await (a : Nat) (mask : BitVec 32) (set : Bool)
  | boxNew (l : List (BitVec 64))
  | hhdm
  | panic (message : String)

/-- What they answer. -/
abbrev HcRet : HcOp → Type
  | .read8 _ => BitVec 8
  | .read32 _ => BitVec 32
  | .boxNew _ => Nat
  | .hhdm => Option Nat
  | .panic _ => Empty
  | _ => Unit

/-- What an operation does. -/
def Node.exec : (o : HcOp) → Node → Option (HcRet o × Node)
  | .read8 a, s => some (if a = s.base then s.hc.caps.capLength else 0, s)
  | .read32 a, s => some (s.hc.read32 (a - s.base), s)
  | .write32 a v, s => some ((), s.store a (v.setWidth 64))
  | .write64 a v, s => some ((), s.store a v)
  | .await a mask set, s => if (s.hc.read32 (a - s.base) &&& mask != 0) = set then some ((), s) else none
  | .boxNew l, s =>
    some (s.boxes s.boxCount,
      { s with ram := Cell.word.store s.ram (s.phys (s.boxes s.boxCount)) l, boxCount := s.boxCount + 1 })
  | .hhdm, s => some (s.hhdm, s)
  | .panic _, _ => none

/-- What the controller does. While it resets its registers can be anything; once it runs it writes events to
the segment that it was given. -/
inductive HcStep : Node → Node → Prop
  | halt {s : Node} (h : s.hc.usbcmd.getLsbD 0 = false) :
      HcStep s { s with hc := { s.hc with usbsts := s.hc.usbsts ||| 1#32 } }
  | start {s : Node} (h : s.hc.usbcmd.getLsbD 0 = true) (hn : ¬ s.hc.NotReady) :
      HcStep s { s with hc := { s.hc with usbsts := s.hc.usbsts &&& ~~~1#32 } }
  | resetting {s : Node} (usbsts : BitVec 32) (setup : Setup) (h : s.hc.usbcmd.getLsbD 1 = true) :
      HcStep s { s with hc := { s.hc with usbsts := usbsts, setup := setup } }
  | reset {s : Node} (usbsts : BitVec 32) (h : s.hc.usbcmd.getLsbD 1 = true) (hh : usbsts.getLsbD 0 = true) :
      HcStep s { s with hc := { s.hc with usbcmd := 0, usbsts := usbsts, setup := .zero } }
  | ready {s : Node} (h : s.hc.usbcmd.getLsbD 1 = false) :
      HcStep s { s with hc := { s.hc with usbsts := s.hc.usbsts &&& ~~~0x800#32 } }
  | status {s : Node} (v : BitVec 32) :
      HcStep s { s with hc := { s.hc with usbsts := (s.hc.usbsts &&& 0x801#32) ||| (v &&& ~~~0x801#32) } }
  | event {s : Node} (a : Nat) (b : UInt8) (hr : s.hc.usbcmd.getLsbD 0 = true) (hh : ¬ s.hc.Halted)
      (hn : ¬ s.hc.NotReady)
      (ha : s.segment ≤ a) (hlt : a < s.segment + s.segmentSize) :
      HcStep s { s with
        hc := { s.hc with setup := { s.hc.setup with iman := s.hc.setup.iman ||| 1#32 } }
        ram := s.ram.setByte a b }

/-- The machine of `init_xhci`: its operations, with steps of the controller in between. -/
def hcMachine : Machine HcOp HcRet Node where
  exec := Node.exec
  env := HcStep
  allowed _ _ := True

/-! ## The functions of `xhci.rs` -/

/-- Programs over the operations. -/
abbrev HcProg (α : Type) : Type := Prog HcOp HcRet α

/-- A volatile read of a `u8`. -/
def read8 (a : Nat) : HcProg (BitVec 8) := Prog.call (HcOp.read8 a)

/-- A volatile read of a `u32`. -/
def read32 (a : Nat) : HcProg (BitVec 32) := Prog.call (HcOp.read32 a)

/-- A volatile write of a `u32`. -/
def write32 (a : Nat) (v : BitVec 32) : HcProg Unit := Prog.call (HcOp.write32 a v)

/-- A volatile write of a `u64`. -/
def write64 (a : Nat) (v : BitVec 64) : HcProg Unit := Prog.call (HcOp.write64 a v)

/-- A loop until one of the bits is set, or until all are clear. -/
def await (a : Nat) (mask : BitVec 32) (set : Bool) : HcProg Unit := Prog.call (HcOp.await a mask set)

/-- `Box::new` of these words. -/
def boxNew (l : List (BitVec 64)) : HcProg Nat := Prog.call (HcOp.boxNew l)

/-- `memory::virtual_to_physical(virt).unwrap()` -/
def virtualToPhysical (virt : Nat) : HcProg Nat := do
  match ← Prog.call HcOp.hhdm with
  | some offset => pure (virt - offset)
  | none =>
    let never ← Prog.call (HcOp.panic "called `Option::unwrap()` on a `None` value")
    never.elim

/-- `XHCI`: the fields that `init_xhci` reads and writes. -/
structure XHCI where
  virtBase : Nat
  eventRingVirt : Nat
  eventRingPhys : Nat
  dequeueIndex : Nat
  cycleState : Bool
  cmdRingVirt : Nat
  cmdRingPhys : Nat
  cmdEnqueueIndex : Nat
  cmdCycleState : Bool
  dcbaaVirt : Nat

/-- `op_regs` -/
def opRegs (x : XHCI) : HcProg Nat := do
  let capLength ← read8 x.virtBase
  pure (x.virtBase + capLength.toNat)

/-- `interrupter0`: the address of the first register set of the interrupters. -/
def interrupter0 (x : XHCI) : HcProg Nat := do
  let rtsoff ← read32 (x.virtBase + 0x18)
  pure (x.virtBase + (rtsoff &&& ~~~0x1F#32).toNat + 0x20)

/-- Run/Stop. -/
def USBCMD_RUN_OR_STOP : BitVec 32 := 1#32 <<< 0

/-- Host Controller Reset. -/
def USBCMD_HCRST : BitVec 32 := 1#32 <<< 1

/-- Interrupter Enable. -/
def USBCMD_INTE : BitVec 32 := 1#32 <<< 2

/-- HCHalted. -/
def USBSTS_HCH : BitVec 32 := 1#32 <<< 0

/-- Controller Not Ready. -/
def USBSTS_CNR : BitVec 32 := 1#32 <<< 11

/-- `EVENT_RING_SIZE`, in TRBs. -/
def EVENT_RING_SIZE : Nat := 32

/-- `COMMAND_RING_SIZE`, in TRBs. -/
def COMMAND_RING_SIZE : Nat := 32

/-- `setup_event_ring` -/
def setupEventRing (x : XHCI) : HcProg XHCI := do
  let segmentVirt ← boxNew (List.replicate (2 * EVENT_RING_SIZE) 0)
  let segmentPhys ← virtualToPhysical segmentVirt
  let erstVirt ← boxNew [BitVec.ofNat 64 segmentPhys, BitVec.ofNat 64 EVENT_RING_SIZE]
  let erstPhys ← virtualToPhysical erstVirt
  let ir0 ← interrupter0 x
  write32 (ir0 + 0x08) 1#32
  write64 (ir0 + 0x18) (BitVec.ofNat 64 segmentPhys)
  write64 (ir0 + 0x10) (BitVec.ofNat 64 erstPhys)
  let iman ← read32 ir0
  let iman := iman ||| 1#32 <<< 1
  write32 ir0 iman
  pure { x with eventRingVirt := segmentVirt, eventRingPhys := segmentPhys, dequeueIndex := 0, cycleState := true }

/-- The loop of `start_controller`: at most `n` reads of USBSTS. -/
def awaitRunning (op : Nat) : Nat → HcProg Unit
  | 0 => pure ()
  | n + 1 => do
    let status ← read32 (op + 0x04)
    if status &&& USBSTS_HCH ≠ 0 then
      awaitRunning op n
    else
      pure ()

/-- `start_controller`, with the number of reads after which it gives up. -/
def startController (x : XHCI) (timeout : Nat) : HcProg Unit := do
  let op ← opRegs x
  let cmd ← read32 op
  let cmd := cmd ||| USBCMD_INTE
  let cmd := cmd ||| USBCMD_RUN_OR_STOP
  write32 op cmd
  awaitRunning op timeout

/-- `init_xhci`: the reset. -/
def resetController (x : XHCI) : HcProg Nat := do
  let op ← opRegs x
  let cmd ← read32 op
  let cmd := cmd &&& ~~~USBCMD_RUN_OR_STOP
  write32 op cmd
  await (op + 0x04) USBSTS_HCH true
  let cmd ← read32 op
  let cmd := cmd ||| USBCMD_HCRST
  write32 op cmd
  await op USBCMD_HCRST false
  await (op + 0x04) USBSTS_CNR false
  pure op

/-- `init_xhci`: CONFIG, the context array and the command ring. -/
def setUpRings (x : XHCI) (op : Nat) : HcProg XHCI := do
  let hcsparams1 ← read32 (x.virtBase + 0x04)
  let maxSlots : BitVec 8 := (hcsparams1 &&& 0xFF#32).setWidth 8
  write32 (op + 0x38) (maxSlots.setWidth 32)
  let dcbaaVirt ← boxNew (List.replicate 256 0)
  let dcbaaPhys ← virtualToPhysical dcbaaVirt
  write64 (op + 0x30) (BitVec.ofNat 64 dcbaaPhys)
  let cmdRingVirt ← boxNew (List.replicate (2 * COMMAND_RING_SIZE) 0)
  let cmdRingPhys ← virtualToPhysical cmdRingVirt
  write64 (op + 0x18) ((BitVec.ofNat 64 cmdRingPhys &&& ~~~0x3F#64) ||| 1#64)
  pure { x with
    cmdRingVirt := cmdRingVirt, cmdRingPhys := cmdRingPhys, cmdEnqueueIndex := 0, cmdCycleState :=
      true, dcbaaVirt := dcbaaVirt }

/-- `init_xhci`, where `timeout` is 1000000. -/
def initXhci (x : XHCI) (timeout : Nat) : HcProg XHCI := do
  let op ← resetController x
  let x ← setUpRings x op
  let x ← setupEventRing x
  startController x timeout
  pure x

end Octagram.Usb.OpRegs

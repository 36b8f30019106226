/-
`apic.rs`: the two 8259s, the local APIC and the I/O APIC, and the lines of `kmain` that set them
up. The registers of the last two are behind the page tables, so a store goes to the chip whose page
its physical address is on, or to memory. A device can raise its line at any time: a step of the
board is a request at an 8259, or an interrupt for a line of the I/O APIC that is not masked, which
`sent` records with the entry it was sent for.
-/
import Octagram.Lib.Prog
import Octagram.Memory.Mmio

namespace Octagram.Interrupt

open Octagram.Lib

/-! ## The 8259 -/

/-- The command word of the initialization that is next. -/
inductive Expects
  | nothing
  | icw2 (single icw4 : Bool)
  | icw3 (icw4 : Bool)
  | icw4
  deriving DecidableEq

/-- What the processor has set up in an 8259. -/
structure PicSetup where
  mask : BitVec 8
  vectors : BitVec 8
  cascade : BitVec 8
  mode : BitVec 8
  expects : Expects
  deriving DecidableEq

/-- A write to the command port: only an ICW1 changes the set-up. -/
def PicSetup.command (v : BitVec 8) (p : PicSetup) : PicSetup :=
  if v.getLsbD 4 then
    { p with mask := 0, mode := if v.getLsbD 0 then p.mode else 0, expects := .icw2 (v.getLsbD 1) (v.getLsbD 0) }
  else p

/-- A write to the data port: the command word that is expected, else the mask. -/
def PicSetup.data (v : BitVec 8) (p : PicSetup) : PicSetup :=
  match p.expects with
  | .nothing => { p with mask := v }
  | .icw2 single icw4 =>
    { p with vectors := v &&& 0xF8#8, expects := if single then (if icw4 then .icw4 else .nothing) else .icw3 icw4 }
  | .icw3 icw4 => { p with cascade := v, expects := if icw4 then .icw4 else .nothing }
  | .icw4 => { p with mode := v, expects := .nothing }

/-- An 8259, with the requests it has not passed on. -/
structure Pic where
  setup : PicSetup
  requests : BitVec 8

/-- It can only interrupt for a request that is not masked. -/
def Pic.Interrupts (p : Pic) : Prop := p.requests &&& ~~~p.setup.mask ≠ 0#8

/-! ## The I/O APIC -/

/-- An entry of the redirection table. -/
structure Redirect where
  vector : BitVec 8
  delivery : BitVec 3
  logical : Bool
  activeLow : Bool
  level : Bool
  masked : Bool
  destination : BitVec 8
  deriving DecidableEq

/-- The fields of an entry, from the two registers of its halves. -/
def Redirect.ofWords (low high : BitVec 32) : Redirect where
  vector := low.extractLsb' 0 8
  delivery := low.extractLsb' 8 3
  logical := low.getLsbD 11
  activeLow := low.getLsbD 13
  level := low.getLsbD 15
  masked := low.getLsbD 16
  destination := high.extractLsb' 24 8

/-- The registers behind the window of `IOREGSEL` and `IOWIN`: those of the chip, and two for each line. -/
structure IoApicChip where
  lines : Nat
  select : BitVec 8
  registers : BitVec 8 → BitVec 32

/-- The bits of a register that a write sets. -/
def IoApicChip.writable (c : IoApicChip) (r : BitVec 8) : BitVec 32 :=
  if r.toNat < 0x10 then (if r = 0#8 then 0x0F000000#32 else 0#32)
  else if r.toNat < 0x10 + 2 * c.lines then (if r.getLsbD 0 then 0xFF000000#32 else 0x0001AFFF#32)
  else 0#32

/-- A store to `IOWIN`. -/
def IoApicChip.write (c : IoApicChip) (v : BitVec 32) : IoApicChip :=
  let new := (v &&& c.writable c.select) ||| (c.registers c.select &&& ~~~c.writable c.select)
  { c with registers := Function.update c.registers c.select new }

/-- The register of the low half of a line's entry, or of the high half. -/
def redirectRegister (line half : Nat) : BitVec 8 := BitVec.ofNat 8 (0x10 + 2 * line + half)

/-- The entry of a line, from its two registers. -/
def IoApicChip.entry (c : IoApicChip) (line : Nat) : Redirect :=
  .ofWords (c.registers (redirectRegister line 0)) (c.registers (redirectRegister line 1))

/-! ## The board -/

/-- What the interrupts go through, and the memory that holds the page tables; `sent` are the interrupts that the
I/O APIC has sent, each with its line and the entry it was sent for. -/
structure Board where
  master : Pic
  slave : Pic
  msrs : BitVec 32 → BitVec 64
  lapic : BitVec 12 → BitVec 32
  ioapic : IoApicChip
  sent : List (Nat × Redirect)
  mem : Memory.Mem

/-- `IA32_APIC_BASE_MSR`: the register that says where the local APIC is. -/
def IA32_APIC_BASE_MSR : BitVec 32 := 0x1B#32

/-- The page of the local APIC, where it answers as memory: enabled, and not as x2APIC. -/
def apicPage (msr : BitVec 64) : Option (BitVec 64) :=
  if msr.getLsbD 11 ∧ ¬ msr.getLsbD 10 then some (msr &&& 0x000FFFFFFFFFF000#64) else none

/-- The page of the I/O APIC. -/
def ioapicPage : BitVec 64 := 0xFEC00000#64

/-- A store of 32 bits to a physical address. -/
def Board.storePhys (s : Board) (p : BitVec 64) (v : BitVec 32) : Board :=
  if apicPage (s.msrs IA32_APIC_BASE_MSR) = some (Memory.pageBase p) then
    { s with lapic := Function.update s.lapic (p.setWidth 12) v }
  else if p = ioapicPage then { s with ioapic := { s.ioapic with select := v.setWidth 8 } }
  else if p = ioapicPage + 0x10#64 then { s with ioapic := s.ioapic.write v }
  else
    let bytes := [0, 8, 16, 24].map fun i => UInt8.ofBitVec (v.extractLsb' i 8)
    { s with mem := { s.mem with ram := s.mem.ram.setBytes p.toNat bytes } }

/-- The command port of the first 8259. -/
def PIC1_CMD : BitVec 16 := 0x20#16

/-- Its data port. -/
def PIC1_DATA : BitVec 16 := 0x21#16

/-- The command port of the second one. -/
def PIC2_CMD : BitVec 16 := 0xA0#16

/-- Its data port. -/
def PIC2_DATA : BitVec 16 := 0xA1#16

/-- `outb`, to any port. -/
def Board.out (s : Board) (port : BitVec 16) (v : BitVec 8) : Board :=
  if port = PIC1_CMD then { s with master := { s.master with setup := s.master.setup.command v } }
  else if port = PIC1_DATA then { s with master := { s.master with setup := s.master.setup.data v } }
  else if port = PIC2_CMD then { s with slave := { s.slave with setup := s.slave.setup.command v } }
  else if port = PIC2_DATA then { s with slave := { s.slave with setup := s.slave.setup.data v } }
  else s

/-- The instructions of `apic.rs`; `map_mmio_page` is one call here. -/
inductive BoardOp
  | outb (port : BitVec 16) (value : BitVec 8)
  | rdmsr (msr : BitVec 32)
  | wrmsr (msr low high : BitVec 32)
  | mapMmioPage (phys : BitVec 64)
  | store (address : BitVec 64) (value : BitVec 32)

/-- `rdmsr` answers with `eax` and `edx`. -/
abbrev BoardRet : BoardOp → Type
  | .rdmsr _ => BitVec 32 × BitVec 32
  | .mapMmioPage _ => BitVec 64
  | _ => Unit

/-- Nothing comes after a panic or a page fault. -/
def Board.exec : (o : BoardOp) → Board → Option (BoardRet o × Board)
  | .outb port v, s => some ((), s.out port v)
  | .rdmsr msr, s => some (((s.msrs msr).extractLsb' 0 32, (s.msrs msr).extractLsb' 32 32), s)
  | .wrmsr msr low high, s => some ((), { s with msrs := Function.update s.msrs msr (high ++ low) })
  | .mapMmioPage phys, s =>
    match (Memory.mapMmioPage phys).run s.mem with
    | .ok (v, mem) => some (v, { s with mem := mem })
    | .error _ => none
  | .store a v, s =>
    match (Memory.translate a).exec s.mem with
    | .ok (.ok p, _) => some ((), s.storePhys p v)
    | _ => none

/-- What the devices do: requests at the 8259s, and interrupts for lines that are not masked. -/
inductive BoardStep : Board → Board → Prop
  | request {s : Board} (master slave : BitVec 8) :
      BoardStep s { s with master := { s.master with requests := master }, slave := { s.slave with requests := slave } }
  | line {s : Board} {i : Nat} (hi : i < s.ioapic.lines) (h : (s.ioapic.entry i).masked = false) :
      BoardStep s { s with sent := s.sent ++ [(i, s.ioapic.entry i)] }

/-- The board as a machine: the program, with steps of the devices in between. -/
def board : Machine BoardOp BoardRet Board where
  exec := Board.exec
  env := BoardStep
  allowed _ _ := True

/-! ## The functions of `apic.rs` -/

/-- Programs over the instructions. -/
abbrev BProg (α : Type) : Type := Prog BoardOp BoardRet α

namespace BProg

/-- `outb`: a byte to an I/O port. -/
def outb (port : BitVec 16) (v : BitVec 8) : BProg Unit := Prog.call (BoardOp.outb port v)

/-- `rdmsr`, with `eax` and `edx`. -/
def rdmsr (msr : BitVec 32) : BProg (BitVec 32 × BitVec 32) := Prog.call (BoardOp.rdmsr msr)

/-- `wrmsr`, with `eax` and `edx`. -/
def wrmsr (msr low high : BitVec 32) : BProg Unit := Prog.call (BoardOp.wrmsr msr low high)

/-- `write_volatile` of a `u32`. -/
def store (a : BitVec 64) (v : BitVec 32) : BProg Unit := Prog.call (BoardOp.store a v)

/-- `map_mmio_page` -/
def mapMmioPage (phys : BitVec 64) : BProg (BitVec 64) := Prog.call (BoardOp.mapMmioPage phys)

end BProg

open BProg

/-- `disable_pic`: four command words to each 8259, then its mask. -/
def disablePic : BProg Unit := do
  outb PIC1_CMD 0x11#8
  outb PIC2_CMD 0x11#8
  outb PIC1_DATA 0x20#8
  outb PIC2_DATA 0x28#8
  outb PIC1_DATA 0x04#8
  outb PIC2_DATA 0x02#8
  outb PIC1_DATA 0x01#8
  outb PIC2_DATA 0x01#8
  outb PIC1_DATA 0xFF#8
  outb PIC2_DATA 0xFF#8

/-- `read_msr` -/
def readMsr (msr : BitVec 32) : BProg (BitVec 64) := do
  let (low, high) ← rdmsr msr
  pure ((high.setWidth 64 <<< 32) ||| low.setWidth 64)

/-- `write_msr` -/
def writeMsr (msr : BitVec 32) (value : BitVec 64) : BProg Unit :=
  wrmsr msr (value.setWidth 32) ((value >>> 32).setWidth 32)

/-- `enable_apic`: the enable bit is set, and the address of the page returned. -/
def enableApic : BProg (BitVec 64) := do
  let base ← readMsr IA32_APIC_BASE_MSR
  let base := base ||| 1#64 <<< 11
  writeMsr IA32_APIC_BASE_MSR base
  pure (base &&& 0xFFFFF000#64)

/-- `LocalApic`: the address of its page of registers. -/
structure LocalApic where
  base : BitVec 64

/-- `LocalApic::write` -/
def LocalApic.write (l : LocalApic) (offset value : BitVec 32) : BProg Unit := store (l.base + offset.setWidth 64) value

/-- `LocalApic::send_eoi` -/
def LocalApic.sendEoi (l : LocalApic) : BProg Unit := l.write 0xB0#32 0#32

/-- The offset of the spurious-interrupt vector register. -/
def APIC_SPURIOUS_VECTOR_REG : BitVec 32 := 0xF0#32

/-- `init_lapic`: the page is mapped, and the APIC enabled by software. -/
def initLapic : BProg LocalApic := do
  let physBase ← enableApic
  let virtBase ← mapMmioPage physBase
  let lapic : LocalApic := ⟨virtBase⟩
  lapic.write APIC_SPURIOUS_VECTOR_REG 0x1FF#32
  pure lapic

/-- `IoApic`: the address of its page of registers. -/
structure IoApic where
  base : BitVec 64

/-- `IoApic::write`: the number of the register, then its value. -/
def IoApic.write (a : IoApic) (reg value : BitVec 32) : BProg Unit := do
  store a.base reg
  store (a.base + 0x10#64) value

/-- `IoApic::set_redirect`: the high half of the entry, then the low half. -/
def IoApic.setRedirect (a : IoApic) (irq vector apicId : BitVec 8) : BProg Unit := do
  let lowIndex := 0x10#32 + irq.setWidth 32 * 2#32
  let highIndex := lowIndex + 1#32
  let high := apicId.setWidth 32 <<< 24
  let low := vector.setWidth 32
  a.write highIndex high
  a.write lowIndex low

/-- `init_ioapic` -/
def initIoapic : BProg IoApic := do
  let virtBase ← mapMmioPage 0xFEC00000#64
  let ioapic : IoApic := ⟨virtBase⟩
  ioapic.setRedirect 1#8 33#8 0#8
  pure ioapic

/-- The lines of `kmain` between `test_rsdp` and `sti`. -/
def setupInterrupts : BProg (LocalApic × IoApic) := do
  disablePic
  let lapic ← initLapic
  let ioapic ← initIoapic
  pure (lapic, ioapic)

end Octagram.Interrupt

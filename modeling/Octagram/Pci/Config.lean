/-
`pci.rs`: configuration mechanism 1, behind the ports `0xCF8` and `0xCFC`, and the accessors of 32,
16 and 8 bits. A register says which of its bits a write sets and what a read does to it, so a bus
is any assignment of registers to places. Each accessor is run once (`configReadU16_run` and its
like): what it returns and which one register it leaves changed; sums of `u8` offsets panic where
they overflow.
-/
import Mathlib.Data.BitVec
import Mathlib.Logic.Function.Basic
import Mathlib.Tactic.Common
import Mathlib.Tactic.IntervalCases
import Octagram.Lib.Stateful

namespace Octagram.Pci

open Octagram.Lib

/-- `CONFIG_ADDRESS`: the port that selects a dword. -/
def CONFIG_ADDRESS : BitVec 16 := 0xCF8#16

/-- `CONFIG_DATA`: the port of the selected dword. -/
def CONFIG_DATA : BitVec 16 := 0xCFC#16

/-- A dword of the configuration space of a function. -/
structure Location where
  bus : BitVec 8
  device : BitVec 5
  function : BitVec 3
  dword : BitVec 6
  deriving DecidableEq

/-- A register: which of its bits a write sets, and which a write of 1 clears. -/
structure Register where
  value : BitVec 32
  writable : BitVec 32
  clearable : BitVec 32
  deriving DecidableEq

/-- A write of a dword. -/
def Register.write (r : Register) (v : BitVec 32) : Register :=
  { r with value := (v &&& r.writable) ||| (r.value &&& ~~~r.writable &&& ~~~(v &&& r.clearable)) }

/-- The address register, all configuration registers, and the accesses to them so far, with the value of a
write. -/
structure Bus where
  configAddress : BitVec 32
  registers : Location → Register
  log : List (Location × Option (BitVec 32))

/-- A function of `pci.rs`; the error is the message of a panic. -/
abbrev PciM := StateT Bus (Except String)

/-- The fields of `PciDevice` that say where its configuration space is. -/
structure PciDevice where
  bus : BitVec 8
  device : BitVec 8
  function : BitVec 8

/-- The dword that the address register selects, if its bit 31 is set. -/
def Location.ofAddress (a : BitVec 32) : Option Location :=
  if a.getLsbD 31 then some ⟨a.extractLsb' 16 8, a.extractLsb' 11 5, a.extractLsb' 8 3, a.extractLsb' 2 6⟩ else none

/-- The dword that an access to a port goes to. -/
def Bus.selected (s : Bus) (port : BitVec 16) : Option Location :=
  if port = CONFIG_DATA then Location.ofAddress s.configAddress else none

/-- `io::outl` -/
def outl (port : BitVec 16) (value : BitVec 32) : PciM Unit :=
  modify fun s =>
    if port = CONFIG_ADDRESS then
      { s with configAddress := value }
    else
      match s.selected port with
      | some l => { s with
          registers := Function.update s.registers l ((s.registers l).write value)
          log := s.log ++ [(l, some value)] }
      | none => s

/-- `io::inl`; what no device answers reads as ones. -/
def inl (port : BitVec 16) : PciM (BitVec 32) := do
  let s ← get
  match s.selected port with
  | some l =>
    set { s with log := s.log ++ [(l, none)] }
    pure (s.registers l).value
  | none => pure 0xFFFFFFFF#32

/-- `u8` addition, which panics on overflow. -/
def addU8 (a b : BitVec 8) : PciM (BitVec 8) :=
  if a.toNat + b.toNat < 2 ^ 8 then pure (a + b) else throw "attempt to add with overflow"

/-- `config_address`: the enable bit, the function, and the offset without its two low bits. -/
def configAddress (bus device function offset : BitVec 8) : BitVec 32 :=
  let bus := bus.setWidth 32
  let device := (device &&& 0x1F#8).setWidth 32
  let function := (function &&& 0x07#8).setWidth 32
  let offset := (offset &&& 0xFC#8).setWidth 32
  (1#32 <<< 31) ||| (bus <<< 16) ||| (device <<< 11) ||| (function <<< 8) ||| offset

section Accessors

variable (bus device function offset : BitVec 8)

/-- `config_read_u32` -/
def configReadU32 : PciM (BitVec 32) := do
  let addr := configAddress bus device function offset
  outl CONFIG_ADDRESS addr
  inl CONFIG_DATA

/-- `config_read_u16`: half of the dword that the offset lies in. -/
def configReadU16 : PciM (BitVec 16) := do
  let value ← configReadU32 bus device function (offset &&& 0xFC#8)
  let shift := (offset &&& 2#8) * 8#8
  pure (((value >>> shift.toNat) &&& 0xFFFF#32).setWidth 16)

/-- `config_read_u8`: a byte of this dword. -/
def configReadU8 : PciM (BitVec 8) := do
  let value ← configReadU32 bus device function (offset &&& 0xFC#8)
  let shift := (offset &&& 3#8) * 8#8
  pure (((value >>> shift.toNat) &&& 0xFF#32).setWidth 8)

/-- `config_write_u32` -/
def configWriteU32 (value : BitVec 32) : PciM Unit := do
  let addr := configAddress bus device function offset
  outl CONFIG_ADDRESS addr
  outl CONFIG_DATA value

/-- `config_write_u16`: the dword is read, and written back with the half replaced. -/
def configWriteU16 (value : BitVec 16) : PciM Unit := do
  let old ← configReadU32 bus device function (offset &&& 0xFC#8)
  let shift := (offset &&& 2#8) * 8#8
  let mask := ~~~(0xFFFF#32 <<< shift.toNat)
  let new := (old &&& mask) ||| (value.setWidth 32 <<< shift.toNat)
  configWriteU32 bus device function (offset &&& 0xFC#8) new

/-- `config_write_u8`: the same with a byte. -/
def configWriteU8 (value : BitVec 8) : PciM Unit := do
  let old ← configReadU32 bus device function (offset &&& 0xFC#8)
  let shift := (offset &&& 3#8) * 8#8
  let mask := ~~~(0xFF#32 <<< shift.toNat)
  let new := (old &&& mask) ||| (value.setWidth 32 <<< shift.toNat)
  configWriteU32 bus device function (offset &&& 0xFC#8) new

end Accessors

/-! ## What the accessors do -/

/-- The dword of a device that an offset lies in. -/
def PciDevice.place (dev : PciDevice) (offset : BitVec 8) : Location :=
  ⟨dev.bus, dev.device.setWidth 5, dev.function.setWidth 3, offset.extractLsb' 2 6⟩

/-- What is written to `CONFIG_ADDRESS` for an access to a device. -/
def PciDevice.address (dev : PciDevice) (offset : BitVec 8) : BitVec 32 :=
  configAddress dev.bus dev.device dev.function offset

namespace Bus

variable (s : Bus) (dev : PciDevice) (offset : BitVec 8)

/-- The dword that an offset lies in. -/
def dword : BitVec 32 := (s.registers (dev.place offset)).value

/-- Two bytes of a dword. -/
def word : BitVec 16 := (((s.dword dev offset) >>> ((offset &&& 2#8) * 8#8).toNat) &&& 0xFFFF#32).setWidth 16

/-- The byte at an offset. -/
def byte : BitVec 8 := (((s.dword dev offset) >>> ((offset &&& 3#8) * 8#8).toNat) &&& 0xFF#32).setWidth 8

/-- A dword with two bytes of it replaced. -/
def withWord (value : BitVec 16) : BitVec 32 :=
  (s.dword dev offset &&& ~~~(0xFFFF#32 <<< ((offset &&& 2#8) * 8#8).toNat)) |||
    (value.setWidth 32 <<< ((offset &&& 2#8) * 8#8).toNat)

/-- A dword with one byte of it replaced. -/
def withByte (value : BitVec 8) : BitVec 32 :=
  (s.dword dev offset &&& ~~~(0xFF#32 <<< ((offset &&& 3#8) * 8#8).toNat)) |||
    (value.setWidth 32 <<< ((offset &&& 3#8) * 8#8).toNat)

/-- After a read. -/
def afterRead : Bus := { s with configAddress := dev.address offset, log := s.log ++ [(dev.place offset, none)] }

/-- After a write. -/
def afterWrite (value : BitVec 32) : Bus where
  configAddress := dev.address offset
  registers := Function.update s.registers (dev.place offset) ((s.registers (dev.place offset)).write value)
  log := s.log ++ [(dev.place offset, some value)]

@[simp] theorem afterWrite_dword (value : BitVec 32) :
    (s.afterWrite dev offset value).dword dev offset = ((s.registers (dev.place offset)).write value).value :=
  congrArg Register.value (Function.update_self ..)

@[simp] theorem afterWrite_registers (value : BitVec 32) : (s.afterWrite dev offset value).registers =
    Function.update s.registers (dev.place offset) ((s.registers (dev.place offset)).write value) := rfl

@[simp] theorem afterRead_registers : (s.afterRead dev offset).registers = s.registers := rfl

@[simp] theorem afterRead_dword (o : BitVec 8) : (s.afterRead dev offset).dword dev o = s.dword dev o := rfl

end Bus

section Runs

variable {s : Bus} {dev : PciDevice} {offset : BitVec 8}

/-- The bus decodes the address that `config_address` puts together. -/
theorem ofAddress_address (dev : PciDevice) (offset : BitVec 8) :
    Location.ofAddress (dev.address offset) = some (dev.place offset) := by
  unfold PciDevice.address configAddress Location.ofAddress PciDevice.place
  rw [if_pos (by simp)]
  congr 2 <;> ext i hi <;> interval_cases i <;> simp

theorem and_fc_fc (offset : BitVec 8) : offset &&& 0xFC#8 &&& 0xFC#8 = offset &&& 0xFC#8 := by
  rw [BitVec.and_assoc]
  rfl

/-- The two low bits of an offset do not matter to where the access goes. -/
theorem address_and (dev : PciDevice) (offset : BitVec 8) : dev.address (offset &&& 0xFC#8) = dev.address offset := by
  unfold PciDevice.address configAddress
  rw [and_fc_fc]

theorem place_and (dev : PciDevice) (offset : BitVec 8) : dev.place (offset &&& 0xFC#8) = dev.place offset := by
  have h := ofAddress_address dev (offset &&& 0xFC#8)
  rw [address_and, ofAddress_address] at h
  exact (Option.some.inj h).symm

theorem afterRead_and : s.afterRead dev (offset &&& 0xFC#8) = s.afterRead dev offset := by
  unfold Bus.afterRead
  rw [address_and, place_and]

theorem dword_and : s.dword dev (offset &&& 0xFC#8) = s.dword dev offset := by
  unfold Bus.dword
  rw [place_and]

theorem outl_address (s : Bus) (a : BitVec 32) :
    (outl CONFIG_ADDRESS a).run s = .ok ((), { s with configAddress := a }) := rfl

theorem selected_data {l : Location} (h : Location.ofAddress s.configAddress = some l) :
    s.selected CONFIG_DATA = some l := by
  unfold Bus.selected
  rw [if_pos rfl, h]

theorem outl_data {l : Location} (h : Location.ofAddress s.configAddress = some l) (v : BitVec 32) :
    (outl CONFIG_DATA v).run s = .ok ((), { s with
      registers := Function.update s.registers l ((s.registers l).write v), log := s.log ++ [(l, some v)] }) := by
  have hne : CONFIG_DATA ≠ CONFIG_ADDRESS := by decide
  refine congrArg (fun s' => Except.ok ((), s')) ?_
  simp only [if_neg hne, selected_data h]

theorem inl_data {l : Location} (h : Location.ofAddress s.configAddress = some l) :
    (inl CONFIG_DATA).run s = .ok ((s.registers l).value, { s with log := s.log ++ [(l, none)] }) := by
  unfold inl
  rw [StateT.run_bind, StateT.run_get]
  simp only [pure_bind, selected_data h]
  rfl

theorem configReadU32_run (s : Bus) (dev : PciDevice) (offset : BitVec 8) :
    (configReadU32 dev.bus dev.device dev.function offset).run s =
      .ok (s.dword dev offset, s.afterRead dev offset) := by
  unfold configReadU32
  rw [stateT_bind_ok (outl_address s _)]
  exact inl_data (s := { s with configAddress := dev.address offset }) (ofAddress_address dev offset)

theorem configReadU16_run (s : Bus) (dev : PciDevice) (offset : BitVec 8) :
    (configReadU16 dev.bus dev.device dev.function offset).run s = .ok (s.word dev offset, s.afterRead dev offset) := by
  unfold configReadU16
  rw [stateT_bind_ok (configReadU32_run s dev _), dword_and, afterRead_and]
  rfl

theorem configReadU8_run (s : Bus) (dev : PciDevice) (offset : BitVec 8) :
    (configReadU8 dev.bus dev.device dev.function offset).run s = .ok (s.byte dev offset, s.afterRead dev offset) := by
  unfold configReadU8
  rw [stateT_bind_ok (configReadU32_run s dev _), dword_and, afterRead_and]
  rfl

theorem configWriteU32_run (s : Bus) (dev : PciDevice) (offset : BitVec 8) (v : BitVec 32) :
    (configWriteU32 dev.bus dev.device dev.function offset v).run s = .ok ((), s.afterWrite dev offset v) := by
  unfold configWriteU32
  rw [stateT_bind_ok (outl_address s _)]
  exact outl_data (s := { s with configAddress := dev.address offset }) (ofAddress_address dev offset) v

/-- The last step of the two writes below a dword. -/
theorem configWriteU32_and (s : Bus) (dev : PciDevice) (offset : BitVec 8) (v : BitVec 32) :
    (configWriteU32 dev.bus dev.device dev.function (offset &&& 0xFC#8) v).run s =
      .ok ((), s.afterWrite dev offset v) := by
  rw [configWriteU32_run]
  unfold Bus.afterWrite
  rw [address_and, place_and]

theorem configWriteU16_run (s : Bus) (dev : PciDevice) (offset : BitVec 8) (v : BitVec 16) :
    (configWriteU16 dev.bus dev.device dev.function offset v).run s =
      .ok ((), (s.afterRead dev offset).afterWrite dev offset (s.withWord dev offset v)) := by
  unfold configWriteU16
  rw [stateT_bind_ok (configReadU32_run s dev _), dword_and, afterRead_and]
  exact configWriteU32_and (s.afterRead dev offset) dev offset (s.withWord dev offset v)

theorem configWriteU8_run (s : Bus) (dev : PciDevice) (offset : BitVec 8) (v : BitVec 8) :
    (configWriteU8 dev.bus dev.device dev.function offset v).run s =
      .ok ((), (s.afterRead dev offset).afterWrite dev offset (s.withByte dev offset v)) := by
  unfold configWriteU8
  rw [stateT_bind_ok (configReadU32_run s dev _), dword_and, afterRead_and]
  exact configWriteU32_and (s.afterRead dev offset) dev offset (s.withByte dev offset v)

theorem addU8_ok {a b : BitVec 8} (h : a.toNat + b.toNat < 2 ^ 8) (s : Bus) : (addU8 a b).run s = .ok (a + b, s) := by
  unfold addU8
  rw [if_pos h]
  rfl

end Runs

end Octagram.Pci

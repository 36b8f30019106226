/-
`enable_device`: the bits of the Command register that it sets, and what its write of a dword does
to the Status register in the upper half. It sets bit 0, which is I/O space, for memory space, and
writes back what it read of Status, where a 1 clears a bit; `enableDevice_iff` says on which dwords
the outcome is nevertheless what the function is for. One lemma a bit leads there (`command_after`,
`status_after`).
-/
import Octagram.Pci.Lens

namespace Octagram.Pci

open Octagram.Lib

/-- `PCI_COMMAND`: the lower half of the dword that has the Status register above it. -/
def PCI_COMMAND : BitVec 8 := 0x04#8

/-- `CMD_MEMORY_SPACE`, as the source has it: PCI has I/O Space Enable at this bit. -/
def CMD_MEMORY_SPACE : BitVec 16 := 1#16 <<< 0

/-- `CMD_BUS_MASTER`: the bit of Bus Master Enable. -/
def CMD_BUS_MASTER : BitVec 16 := 1#16 <<< 2

/-- `enable_device`: Command is read and written back with the two bits set. -/
def enableDevice (dev : PciDevice) : PciM Unit := do
  let command ← configReadU16 dev.bus dev.device dev.function PCI_COMMAND
  let command := command ||| CMD_MEMORY_SPACE
  let command := command ||| CMD_BUS_MASTER
  configWriteU16 dev.bus dev.device dev.function PCI_COMMAND command
  -- read back for the message alone
  let _verify ← configReadU16 dev.bus dev.device dev.function PCI_COMMAND
  pure ()

/-- The layout of the dword: Memory Space Enable is bit 1 and Bus Master Enable is bit 2 of the Command register,
and the Status register above has read-only bits and bits that a write of 1 clears. -/
structure CommandRegister (r : Register) : Prop where
  memorySpace : r.writable.getLsbD 1 = true
  busMaster : r.writable.getLsbD 2 = true
  status : ∀ i, 16 ≤ i → r.writable.getLsbD i = false
  command : ∀ i < 16, r.clearable.getLsbD i = false

/-- Memory Space Enable and Bus Master Enable are set, and nothing else has changed. -/
structure EnablesOnly (s s' : Bus) (dev : PciDevice) : Prop where
  memorySpace : (s'.dword dev PCI_COMMAND).getLsbD 1 = true
  busMaster : (s'.dword dev PCI_COMMAND).getLsbD 2 = true
  command : ∀ i < 16, i ≠ 1 → i ≠ 2 → (s'.dword dev PCI_COMMAND).getLsbD i = (s.dword dev PCI_COMMAND).getLsbD i
  status : ∀ i, 16 ≤ i → (s'.dword dev PCI_COMMAND).getLsbD i = (s.dword dev PCI_COMMAND).getLsbD i
  others : ∀ l, l ≠ dev.place PCI_COMMAND → s'.registers l = s.registers l

/-! ## The dword that it writes -/

section Bits

variable {s : Bus} {dev : PciDevice}

/-- The value that `enable_device` writes to the dword. -/
def Bus.enabled (s : Bus) (dev : PciDevice) : BitVec 32 :=
  s.withWord dev PCI_COMMAND (s.word dev PCI_COMMAND ||| CMD_MEMORY_SPACE ||| CMD_BUS_MASTER)

theorem enableDevice_run (s : Bus) (dev : PciDevice) : ∃ s', (enableDevice dev).run s = .ok ((), s') ∧
    s'.registers = Function.update s.registers (dev.place PCI_COMMAND)
      ((s.registers (dev.place PCI_COMMAND)).write (s.enabled dev)) := by
  unfold enableDevice
  rw [stateT_bind_ok (configReadU16_run s dev _), stateT_bind_ok (configWriteU16_run (s.afterRead dev _) dev _ _),
    stateT_bind_ok (configReadU16_run _ dev _)]
  exact ⟨_, rfl, rfl⟩

theorem command_bit (w : BitVec 16) {i : Nat} (hi : i < 16) :
    (w ||| CMD_MEMORY_SPACE ||| CMD_BUS_MASTER).getLsbD i = (w.getLsbD i || decide (i = 0 ∨ i = 2)) := by
  rw [BitVec.getLsbD_or, BitVec.getLsbD_or, Bool.or_assoc]
  congr 1
  interval_cases i <;> rfl

/-- Two bits of the lower half are set, and neither of them is bit 1. -/
theorem enabled_bit (s : Bus) (dev : PciDevice) (i : Nat) : (s.enabled dev).getLsbD i =
    ((s.dword dev PCI_COMMAND).getLsbD i || decide (i = 0 ∨ i = 2)) := by
  unfold Bus.enabled
  rw [withWord_eq]
  show (Lens.withField 0 _ (s.dword dev PCI_COMMAND)).getLsbD i = _
  rw [Lens.getLsbD_withField (by decide)]
  by_cases hi : i < 16
  · have hw : (s.word dev PCI_COMMAND).getLsbD i = (s.dword dev PCI_COMMAND).getLsbD i := by
      rw [word_eq]
      show ((s.dword dev PCI_COMMAND).extractLsb' 0 16).getLsbD i = _
      simp [hi]
    rw [if_pos ⟨Nat.zero_le i, by omega⟩, Nat.sub_zero, command_bit _ hi, hw]
  · have h0 : ¬ (i = 0 ∨ i = 2) := by omega
    simp [hi, h0]

/-- A writable bit takes the value written; any other keeps its own, unless a 1 clears it. -/
theorem write_bit (r : Register) (v : BitVec 32) (i : Nat) : (r.write v).value.getLsbD i =
    if r.writable.getLsbD i then v.getLsbD i else r.value.getLsbD i && !(v.getLsbD i && r.clearable.getLsbD i) := by
  by_cases hi : i < 32
  · unfold Register.write
    simp only [BitVec.getLsbD_or, BitVec.getLsbD_and, BitVec.getLsbD_not, hi, decide_true, Bool.true_and]
    cases r.writable.getLsbD i <;> simp
  · have hge : 32 ≤ i := Nat.le_of_not_lt hi
    simp [BitVec.getLsbD_of_ge _ i hge]

variable {s' : Bus}

/-- A bit of the Command register afterwards. -/
theorem command_after (h : CommandRegister (s.registers (dev.place PCI_COMMAND)))
    (hd : s'.dword dev PCI_COMMAND = ((s.registers (dev.place PCI_COMMAND)).write (s.enabled dev)).value) {i : Nat}
    (hi : i < 16) : (s'.dword dev PCI_COMMAND).getLsbD i = ((s.dword dev PCI_COMMAND).getLsbD i ||
      ((s.registers (dev.place PCI_COMMAND)).writable.getLsbD i && decide (i = 0 ∨ i = 2))) := by
  rw [hd, write_bit, enabled_bit, h.command i hi, Bool.and_false, Bool.not_false, Bool.and_true]
  cases (s.registers (dev.place PCI_COMMAND)).writable.getLsbD i
  · simp [Bus.dword]
  · simp

/-- A bit of the Status register afterwards: what was read as 1 is written as 1. -/
theorem status_after (h : CommandRegister (s.registers (dev.place PCI_COMMAND)))
    (hd : s'.dword dev PCI_COMMAND = ((s.registers (dev.place PCI_COMMAND)).write (s.enabled dev)).value) {i : Nat}
    (hi : 16 ≤ i) : (s'.dword dev PCI_COMMAND).getLsbD i =
      ((s.dword dev PCI_COMMAND).getLsbD i && !(s.registers (dev.place PCI_COMMAND)).clearable.getLsbD i) := by
  have h02 : ¬ (i = 0 ∨ i = 2) := by omega
  rw [hd, write_bit, enabled_bit, h.status i hi, if_neg Bool.false_ne_true, decide_eq_false h02, Bool.or_false]
  show ((s.dword dev PCI_COMMAND).getLsbD i && _) = _
  cases (s.dword dev PCI_COMMAND).getLsbD i <;> rfl

end Bits

/-- `enable_device` does what it says exactly where Memory Space Enable was set before, I/O Space Enable was too or
is not a bit that can be set, and no bit of Status was set that a write of 1 clears. -/
theorem enableDevice_iff {s : Bus} {dev : PciDevice} (h : CommandRegister (s.registers (dev.place PCI_COMMAND))) :
    ∃ s', (enableDevice dev).run s = .ok ((), s') ∧ (EnablesOnly s s' dev ↔
      (s.dword dev PCI_COMMAND).getLsbD 1 = true ∧
      ((s.registers (dev.place PCI_COMMAND)).writable.getLsbD 0 = true → (s.dword dev PCI_COMMAND).getLsbD 0 = true) ∧
      s.dword dev PCI_COMMAND &&& (s.registers (dev.place PCI_COMMAND)).clearable = 0#32) := by
  obtain ⟨s', hrun, hreg⟩ := enableDevice_run s dev
  have hd : s'.dword dev PCI_COMMAND = ((s.registers (dev.place PCI_COMMAND)).write (s.enabled dev)).value := by
    unfold Bus.dword
    rw [hreg, Function.update_self]
  -- the register after the one write decides both ways, bit by bit
  refine ⟨s', hrun, ?_, ?_⟩
  · intro he
    refine ⟨?_, ?_, ?_⟩
    · have h1 := he.memorySpace
      rw [command_after h hd (by decide)] at h1
      simpa using h1
    · intro hw
      have h0 := he.command 0 (by decide) (by decide) (by decide)
      rw [command_after h hd (by decide), hw] at h0
      simpa using h0
    · apply BitVec.eq_of_getLsbD_eq
      intro i hi
      rw [BitVec.getLsbD_and, BitVec.getLsbD_zero]
      rcases Nat.lt_or_ge i 16 with hlow | hhigh
      · rw [h.command i hlow, Bool.and_false]
      · have hs := he.status i hhigh
        rw [status_after h hd hhigh] at hs
        simpa using hs
  · rintro ⟨h1, h0, hc⟩
    refine ⟨?_, ?_, ?_, ?_, ?_⟩
    · rw [command_after h hd (by decide), h1, Bool.true_or]
    · rw [command_after h hd (by decide), h.busMaster]
      simp
    · intro i hi hi1 hi2
      rw [command_after h hd hi]
      by_cases hi0 : i = 0
      · subst hi0
        cases hw : (s.registers (dev.place PCI_COMMAND)).writable.getLsbD 0
        · simp
        · simp [h0 hw]
      · simp [hi0, hi2]
    · intro i hi
      have hbit := congrArg (fun x => x.getLsbD i) hc
      simp only [BitVec.getLsbD_and, BitVec.getLsbD_zero] at hbit
      rw [status_after h hd hi]
      cases hdi : (s.dword dev PCI_COMMAND).getLsbD i
      · rfl
      · rw [hdi, Bool.true_and] at hbit
        rw [hbit]
        rfl
    · intro l hl
      rw [hreg, Function.update_of_ne hl]

/-- The dword of a device: ten bits of Command can be written, and 1s clear six bits of Status. -/
def commandBus (value : BitVec 32) : Bus := ⟨0#32, fun _ => ⟨value, 0x0547#32, 0xF9000000#32⟩, []⟩

theorem commandBus_layout (value : BitVec 32) (l : Location) : CommandRegister ((commandBus value).registers l) where
  memorySpace := by
    show (0x0547#32).getLsbD 1 = true
    decide
  busMaster := by
    show (0x0547#32).getLsbD 2 = true
    decide
  status i hi := by
    show (0x0547#32).getLsbD i = false
    have hlt : 0x0547 < 2 ^ i := Nat.lt_of_lt_of_le (by decide) (Nat.pow_le_pow_right (by decide) hi)
    exact Nat.testBit_lt_two_pow hlt
  command i hi := by
    show (0xF9000000#32).getLsbD i = false
    interval_cases i <;> rfl

/-- A device with I/O and memory space enabled, and no error noted. -/
theorem enableDevice_iff_enabled : ∃ s', (enableDevice ⟨0#8, 4#8, 0#8⟩).run (commandBus 0x00100003#32) = .ok ((), s') ∧
    EnablesOnly (commandBus 0x00100003#32) s' ⟨0#8, 4#8, 0#8⟩ := by
  obtain ⟨s', hrun, hiff⟩ :=
    enableDevice_iff (commandBus_layout 0x00100003#32 (PciDevice.place ⟨0#8, 4#8, 0#8⟩ PCI_COMMAND))
  exact ⟨s', hrun, hiff.2 ⟨rfl, fun _ => rfl, rfl⟩⟩

/-- On a device whose spaces are not enabled, I/O space is. -/
theorem enableDevice_ioSpace : ¬ ∀ (s : Bus) (dev : PciDevice), CommandRegister (s.registers (dev.place PCI_COMMAND)) →
    ∃ s', (enableDevice dev).run s = .ok ((), s') ∧ EnablesOnly s s' dev := by
  intro h
  obtain ⟨s', hrun, he⟩ := h (commandBus 0#32) ⟨0#8, 4#8, 0#8⟩ (commandBus_layout _ _)
  obtain ⟨t, hrun', hreg⟩ := enableDevice_run (commandBus 0#32) ⟨0#8, 4#8, 0#8⟩
  rw [hrun] at hrun'
  cases hrun'
  have hm := he.memorySpace
  unfold Bus.dword at hm
  rw [hreg, Function.update_self, write_bit, enabled_bit] at hm
  revert hm
  decide

end Octagram.Pci

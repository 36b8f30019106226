/-
`enable_msi`: the registers of the MSI capability are where a device of 32-bit message addresses has
them. So the device sends the vector exactly if its message address has 32 bits; behind one of 64
bits the vector goes over the upper half of the address, and the data stays what it was
(`enableMsi_iff`). The three writes are followed through the dwords of the capability, which are
different ones, also around the end of configuration space (`MsiWritten`).
-/
import Octagram.Pci.Lens
import Octagram.Pci.Msix

namespace Octagram.Pci

open Octagram.Lib

/-- `CAP_ID_MSI`: the id of the capability. -/
def CAP_ID_MSI : BitVec 8 := 0x05#8

/-- `enable_msi`, with what it prints. -/
def enableMsi (dev : PciDevice) (vector apicId : BitVec 8) : PciM String := do
  match ← findCapability dev 0x05#8 with
  | some msiPtr =>
    let msgAddr := 0xFEE00000#32 ||| (apicId.setWidth 32 <<< 12)
    let msgData := vector.setWidth 32
    configWriteU32 dev.bus dev.device dev.function (← addU8 msiPtr 4#8) msgAddr
    configWriteU16 dev.bus dev.device dev.function (← addU8 msiPtr 8#8) (msgData.setWidth 16)
    let ctrl ← configReadU16 dev.bus dev.device dev.function (← addU8 msiPtr 2#8)
    let ctrl := ctrl ||| 1#16
    configWriteU16 dev.bus dev.device dev.function (← addU8 msiPtr 2#8) ctrl
    pure ("MSI enabled: vector=" ++ toString vector.toNat ++ " apic_id=" ++ toString apicId.toNat)
  | none => pure "WARNING: device tidak support MSI!"

/-! ## The device -/

/-- `ptr` is the first MSI capability that `find_capability` can come to. -/
def MsiAt (s : Bus) (dev : PciDevice) (ptr : BitVec 8) : Prop :=
  s.HasCapabilities dev ∧ ∃ n < 48, s.FirstWithId dev CAP_ID_MSI n ptr

/-- The message address has 64 bits (bit 7 of Message Control). -/
def Bus.msi64 (s : Bus) (dev : PciDevice) (ptr : BitVec 8) : Bool := (s.word dev (ptr + 2#8)).getLsbD 7

/-- What the device sends. -/
structure MsiMessage where
  enabled : Bool
  address : BitVec 64
  data : BitVec 16

/-- Where the device has its message: behind a 64-bit address the data is one dword on. -/
def Bus.msiMessage (s : Bus) (dev : PciDevice) (ptr : BitVec 8) : MsiMessage where
  enabled := (s.word dev (ptr + 2#8)).getLsbD 0
  address := if s.msi64 dev ptr then s.dword dev (ptr + 8#8) ++ s.dword dev (ptr + 4#8)
    else (s.dword dev (ptr + 4#8)).setWidth 64
  data := if s.msi64 dev ptr then s.word dev (ptr + 0xC#8) else s.word dev (ptr + 8#8)

/-- The vector at the local APIC. -/
def MsiMessage.to (vector apicId : BitVec 8) : MsiMessage :=
  ⟨true, (0xFEE00000#32 ||| (apicId.setWidth 32 <<< 12)).setWidth 64, vector.setWidth 16⟩

/-- All bits can be written. -/
def Register.Plain (r : Register) : Prop := r.writable = BitVec.allOnes 32 ∧ r.clearable = 0#32

/-- What of the capability can be written. -/
structure MsiRegisters (s : Bus) (dev : PciDevice) (ptr : BitVec 8) : Prop where
  fits : ptr.toNat + 12 ≤ 256
  enable : (s.registers (dev.place ptr)).writable.getLsbD 16 = true
  kept : (s.registers (dev.place ptr)).clearable = 0#32
  address : (s.registers (dev.place (ptr + 4#8))).Plain
  data : (s.registers (dev.place (ptr + 8#8))).Plain

section Msi

variable {s t : Bus} {dev : PciDevice} {ptr offset offset' vector apicId : BitVec 8}

/-- The dwords of a capability are different ones, also around the end of configuration space. -/
theorem place_ne (halign : 4 ∣ ptr.toNat) {j k : BitVec 8} (hne : j.toNat / 4 ≠ k.toNat / 4) :
    dev.place (ptr + j) ≠ dev.place (ptr + k) := by
  intro h
  have hd := congrArg (fun l : Location => l.dword.toNat) h
  simp only [place_dword, BitVec.toNat_add] at hd
  have hj := j.isLt
  have hk := k.isLt
  omega

theorem afterWrite_of_ne (s : Bus) (v : BitVec 32) {l : Location} (h : l ≠ dev.place offset) :
    (s.afterWrite dev offset v).registers l = s.registers l :=
  Function.update_of_ne h ..

/-- The bits of Message Control. -/
theorem control_bit (s : Bus) (dev : PciDevice) (halign : 4 ∣ ptr.toNat) {i : Nat} (hi : i < 16) :
    (s.word dev (ptr + 2#8)).getLsbD i = (s.dword dev ptr).getLsbD (16 + i) := by
  unfold Bus.word
  rw [shift_high halign, dword_high s dev halign]
  interval_cases i <;> simp

theorem shift_low (halign : 4 ∣ offset.toNat) : (offset &&& 2#8) * 8#8 = 0#8 := by
  have hmask := aligned_mask halign
  clear halign
  revert offset
  decide

/-- The low half of a dword that was written. -/
theorem withWord_low (s : Bus) (dev : PciDevice) (halign : 4 ∣ offset.toNat) (v : BitVec 16) {i : Nat} (hi : i < 32) :
    (s.withWord dev offset v).getLsbD i = if i < 16 then v.getLsbD i else (s.dword dev offset).getLsbD i := by
  unfold Bus.withWord
  rw [shift_low halign]
  interval_cases i <;> simp

/-- The high half of a dword that was written: Message Control. -/
theorem withWord_high (s : Bus) (dev : PciDevice) (halign : 4 ∣ ptr.toNat) (v : BitVec 16) {i : Nat} (hi : i < 16) :
    (s.withWord dev (ptr + 2#8) v).getLsbD (16 + i) = v.getLsbD i := by
  unfold Bus.withWord
  rw [shift_high halign]
  interval_cases i <;> simp

theorem write_kept_bit {r : Register} (h : r.clearable = 0#32) (v : BitVec 32) {i : Nat} (hi : i < 32) :
    (r.write v).value.getLsbD i = if r.writable.getLsbD i then v.getLsbD i else r.value.getLsbD i := by
  unfold Register.write
  rw [h]
  simp only [BitVec.getLsbD_or, BitVec.getLsbD_and, BitVec.getLsbD_not, BitVec.and_zero, BitVec.getLsbD_zero, hi,
    decide_true, Bool.true_and, Bool.not_false, Bool.and_true]
  cases r.writable.getLsbD i <;> simp

/-- What is left behind: the address, the vector in the low half of the next dword, and the enable bit. -/
structure MsiWritten (s t : Bus) (dev : PciDevice) (ptr vector apicId : BitVec 8) : Prop where
  address : t.dword dev (ptr + 4#8) = 0xFEE00000#32 ||| (apicId.setWidth 32 <<< 12)
  data : ∀ i, i < 32 → (t.dword dev (ptr + 8#8)).getLsbD i =
    if i < 16 then (vector.setWidth 16).getLsbD i else (s.dword dev (ptr + 8#8)).getLsbD i
  enabled : (t.word dev (ptr + 2#8)).getLsbD 0 = true
  control : ∀ i, 0 < i → i < 16 → (t.word dev (ptr + 2#8)).getLsbD i = (s.word dev (ptr + 2#8)).getLsbD i
  rest : ∀ l, l ≠ dev.place ptr → l ≠ dev.place (ptr + 4#8) → l ≠ dev.place (ptr + 8#8) → t.registers l = s.registers l

/-- A dword that is read as before is also written as before. -/
theorem withWord_congr (h : t.registers (dev.place offset) = s.registers (dev.place offset)) :
    t.word dev offset = s.word dev offset ∧ ∀ v, t.withWord dev offset v = s.withWord dev offset v := by
  have hdword : t.dword dev offset = s.dword dev offset := congrArg Register.value h
  unfold Bus.word Bus.withWord
  rw [hdword]
  exact ⟨rfl, fun v => rfl⟩

theorem msiWritten_of_writes (hr : MsiRegisters s dev ptr) (halign : 4 ∣ ptr.toNat) {vector apicId : BitVec 8}
    (haddress : t.registers (dev.place (ptr + 4#8)) =
      (s.registers (dev.place (ptr + 4#8))).write (0xFEE00000#32 ||| (apicId.setWidth 32 <<< 12)))
    (hdata : t.registers (dev.place (ptr + 8#8)) =
      (s.registers (dev.place (ptr + 8#8))).write (s.withWord dev (ptr + 8#8) (vector.setWidth 16)))
    (hcontrol : t.registers (dev.place ptr) =
      (s.registers (dev.place ptr)).write (s.withWord dev (ptr + 2#8) (s.word dev (ptr + 2#8) ||| 1#16)))
    (hrest : ∀ l, l ≠ dev.place ptr → l ≠ dev.place (ptr + 4#8) → l ≠ dev.place (ptr + 8#8) →
      t.registers l = s.registers l) : MsiWritten s t dev ptr vector apicId := by
  have halign8 : 4 ∣ (ptr + 8#8).toNat := by
    rw [BitVec.toNat_add]
    have : (8#8).toNat = 8 := rfl
    omega
  have hbit : ∀ i, i < 16 → (t.word dev (ptr + 2#8)).getLsbD i =
      if (s.registers (dev.place ptr)).writable.getLsbD (16 + i) then (s.word dev (ptr + 2#8) ||| 1#16).getLsbD i
      else (s.word dev (ptr + 2#8)).getLsbD i := by
    intro i hi
    have hdword : t.dword dev ptr = _ := congrArg Register.value hcontrol
    rw [control_bit t dev halign hi, hdword, write_kept_bit hr.kept _ (by omega), withWord_high s dev halign _ hi,
      control_bit s dev halign hi]
    rfl
  refine ⟨?_, fun i hi => ?_, ?_, fun i h0 hi => ?_, hrest⟩
  · have hdword : t.dword dev (ptr + 4#8) = _ := congrArg Register.value haddress
    rw [hdword, write_of_plain hr.address.1]
  · have hdword : t.dword dev (ptr + 8#8) = _ := congrArg Register.value hdata
    rw [hdword, write_of_plain hr.data.1, withWord_low s dev halign8 _ hi]
  · rw [hbit 0 (by omega), if_pos hr.enable]
    simp
  · rw [hbit i hi]
    have hone : (1#16).getLsbD i = false := by
      interval_cases i <;> rfl
    split
    · rw [BitVec.getLsbD_or, hone, Bool.or_false]
    · rfl

theorem enableMsi_run (h : MsiAt s dev ptr) (hr : MsiRegisters s dev ptr) (vector apicId : BitVec 8) :
    ∃ line t, (enableMsi dev vector apicId).run s = .ok (line, t) ∧ MsiWritten s t dev ptr vector apicId := by
  obtain ⟨r, s₁, hrun, hreads, hfound⟩ := findCapability_run s dev CAP_ID_MSI
  have hregs : s₁.registers = s.registers := hreads.registers
  obtain ⟨hcaps, n, hn, hfirst⟩ := h
  have halign : 4 ∣ ptr.toNat := by
    rw [← hfirst.eq]
    exact node_aligned s dev n
  have hsome : r = some ptr := by
    rcases hfound with ⟨hc, -⟩ | ⟨-, hr⟩
    · exact absurd hcaps hc
    · rw [hr]
      refine search_eq_some_iff.2 ⟨n, hn, ?_⟩
      simp only [beq_iff_eq]
      exact hfirst
  subst hsome
  -- the registers lie inside of the 256 bytes, so no offset overflows, and are three distinct dwords
  have hfit := hr.fits
  have hadd : ∀ k : BitVec 8, k.toNat < 12 → ptr.toNat + k.toNat < 2 ^ 8 := fun k hk => by omega
  have hplace : dev.place (ptr + 2#8) = dev.place ptr := place_add dev halign (by decide)
  have h04 : dev.place ptr ≠ dev.place (ptr + 4#8) := by
    have hne : dev.place (ptr + 0#8) ≠ dev.place (ptr + 4#8) := place_ne halign (by decide)
    rwa [BitVec.add_zero] at hne
  have h08 : dev.place ptr ≠ dev.place (ptr + 8#8) := by
    have hne : dev.place (ptr + 0#8) ≠ dev.place (ptr + 8#8) := place_ne halign (by decide)
    rwa [BitVec.add_zero] at hne
  have h48 : dev.place (ptr + 4#8) ≠ dev.place (ptr + 8#8) :=
    place_ne halign (by decide)
  have hrun' : (findCapability dev 0x05#8).run s = .ok (some ptr, s₁) := hrun
  unfold enableMsi
  rw [stateT_bind_ok hrun']
  dsimp only
  rw [stateT_bind_ok (addU8_ok (hadd 4#8 (by decide)) _), stateT_bind_ok (configWriteU32_run _ dev _ _),
    stateT_bind_ok (addU8_ok (hadd 8#8 (by decide)) _), stateT_bind_ok (configWriteU16_run _ dev _ _),
    stateT_bind_ok (addU8_ok (hadd 2#8 (by decide)) _), stateT_bind_ok (configReadU16_run _ dev _),
    stateT_bind_ok (addU8_ok (hadd 2#8 (by decide)) _), stateT_bind_ok (configWriteU16_run _ dev _ _)]
  refine ⟨_, _, rfl, msiWritten_of_writes hr halign ?_ ?_ ?_ ?_⟩
  · rw [Bus.afterWrite_registers, hplace, Function.update_of_ne h04.symm]
    simp only [Bus.afterWrite_registers, Bus.afterRead_registers]
    rw [Function.update_of_ne h48, Function.update_self, hregs]
  · rw [Bus.afterWrite_registers, hplace, Function.update_of_ne h08.symm]
    have hkept : (s₁.afterWrite dev (ptr + 4#8) (0xFEE00000#32 ||| (apicId.setWidth 32 <<< 12))).registers
      (dev.place (ptr + 8#8)) =
        s.registers (dev.place (ptr + 8#8)) := by
      rw [afterWrite_of_ne _ _ h48.symm, hregs]
    have hold := (withWord_congr hkept).2 (vector.setWidth 16)
    simp only [Bus.afterWrite_registers, Bus.afterRead_registers]
    rw [Function.update_self, Function.update_of_ne h48.symm, hregs, ← hold]
    simp
  · have hkept : (((s₁.afterWrite dev (ptr + 4#8) (0xFEE00000#32 ||| (apicId.setWidth 32 <<< 12))).afterRead dev
        (ptr + 8#8)).afterWrite dev (ptr + 8#8)
          ((s₁.afterWrite dev (ptr + 4#8) (0xFEE00000#32 ||| (apicId.setWidth 32 <<< 12))).withWord dev (ptr + 8#8)
            ((vector.setWidth 32).setWidth 16))).registers (dev.place (ptr + 2#8)) =
        s.registers (dev.place (ptr + 2#8)) := by
      rw [hplace, afterWrite_of_ne _ _ h08, Bus.afterRead_registers, afterWrite_of_ne _ _ h04, hregs]
    obtain ⟨hword, hold⟩ := withWord_congr hkept
    rw [Bus.afterWrite_registers, hplace, Function.update_self, hword]
    rw [hplace] at hkept
    have hwith := hold (s.word dev (ptr + 2#8) ||| 1#16)
    rw [← hwith]
    exact congrArg (Register.write · _) hkept
  · intro l h0 h4 h8
    rw [Bus.afterWrite_registers, hplace, Function.update_of_ne h0]
    simp only [Bus.afterWrite_registers, Bus.afterRead_registers]
    rw [Function.update_of_ne h8, Function.update_of_ne h4, hregs]

/-- The low half of a dword that is read. -/
theorem word_low (s : Bus) (dev : PciDevice) (halign : 4 ∣ offset.toNat) {i : Nat} (hi : i < 16) :
    (s.word dev offset).getLsbD i = (s.dword dev offset).getLsbD i := by
  unfold Bus.word
  rw [shift_low halign]
  interval_cases i <;> simp

/-- Behind a 64-bit address the vector is in the upper half of the address, and the data is what it was. -/
theorem msiMessage_long (hw : MsiWritten s t dev ptr vector apicId) (halign : 4 ∣ ptr.toNat)
    (h64 : s.msi64 dev ptr = true) : (t.msiMessage dev ptr).address.extractLsb' 32 16 = vector.setWidth 16 ∧
      (t.msiMessage dev ptr).data = (s.msiMessage dev ptr).data := by
  have h64' : t.msi64 dev ptr = true := (hw.control 7 (by omega) (by omega)).trans h64
  have haddress : (t.msiMessage dev ptr).address = t.dword dev (ptr + 8#8) ++ t.dword dev (ptr + 4#8) := if_pos h64'
  have hdata : (t.msiMessage dev ptr).data = t.word dev (ptr + 0xC#8) := if_pos h64'
  have hdata' : (s.msiMessage dev ptr).data = s.word dev (ptr + 0xC#8) := if_pos h64
  constructor
  · rw [haddress]
    apply BitVec.eq_of_getLsbD_eq
    intro i hi
    simp only [BitVec.getLsbD_extractLsb', hi, decide_true, Bool.true_and, BitVec.getLsbD_append,
      Nat.not_lt.2 (Nat.le_add_right 32 i), if_false, Nat.add_sub_cancel_left]
    rw [hw.data i (by omega), if_pos hi]
  · rw [hdata, hdata']
    refine (withWord_congr (hw.rest _ ?_ (place_ne halign (by decide)) (place_ne halign (by decide)))).1
    have hne : dev.place (ptr + 0xC#8) ≠ dev.place (ptr + 0#8) := place_ne halign (by decide)
    rwa [BitVec.add_zero] at hne

/-- The device sends the vector to the local APIC if and only if its message address has 32 bits: behind a
64-bit address `enable_msi` writes the vector into the upper half of the address, and leaves the data as it was.
-/
theorem enableMsi_iff (h : MsiAt s dev ptr) (hr : MsiRegisters s dev ptr) {vector : BitVec 8} (hv : vector ≠ 0#8)
    (apicId : BitVec 8) :
    ∃ line t, (enableMsi dev vector apicId).run s = .ok (line, t) ∧
      (t.msiMessage dev ptr = .to vector apicId ↔ s.msi64 dev ptr = false) ∧
      (s.msi64 dev ptr = true → (t.msiMessage dev ptr).address.extractLsb' 32 16 = vector.setWidth 16 ∧
        (t.msiMessage dev ptr).data = (s.msiMessage dev ptr).data) ∧
      ∀ l, l ≠ dev.place ptr → l ≠ dev.place (ptr + 4#8) → l ≠ dev.place (ptr + 8#8) →
        t.registers l = s.registers l := by
  obtain ⟨line, t, hrun, hw⟩ := enableMsi_run h hr vector apicId
  have hptr : 4 ∣ ptr.toNat := by
    obtain ⟨-, n, -, hn⟩ := h
    rw [← hn.eq]
    exact node_aligned s dev n
  have halign : 4 ∣ (ptr + 8#8).toNat := by
    rw [BitVec.toNat_add]
    have : (8#8).toNat = 8 := rfl
    omega
  have h64 : t.msi64 dev ptr = s.msi64 dev ptr := hw.control 7 (by omega) (by omega)
  refine ⟨line, t, hrun, ⟨fun hmsg => ?_, fun h32 => ?_⟩, msiMessage_long hw hptr, hw.rest⟩
  · -- the upper half of the message address is zero, and would be the vector
    by_contra hlong
    have hupper := (msiMessage_long hw hptr (by simpa using hlong)).1
    have hzero : (MsiMessage.to vector apicId).address.extractLsb' 32 16 = 0#16 := by
      apply BitVec.eq_of_getLsbD_eq
      intro i hi
      unfold MsiMessage.to
      rw [BitVec.getLsbD_extractLsb', BitVec.getLsbD_setWidth, BitVec.getLsbD_of_ge _ _ (Nat.le_add_right 32 i)]
      simp
    rw [hmsg, hzero] at hupper
    apply hv
    apply BitVec.eq_of_getLsbD_eq
    intro i hi
    have hbit := congrArg (BitVec.getLsbD · i) hupper
    have h16 : i < 16 := by omega
    simpa [h16] using hbit.symm
  · have hdata : t.word dev (ptr + 8#8) = vector.setWidth 16 := by
      apply BitVec.eq_of_getLsbD_eq
      intro i hi
      rw [word_low t dev halign hi, hw.data i (by omega), if_pos hi]
    unfold Bus.msiMessage MsiMessage.to
    rw [h64, h32, hw.enabled, hw.address, hdata]
    rfl

/-- An MSI capability with addresses of 32 bits. -/
def msiBus : Bus := plainBus fun d =>
  if d = 1#6 then 0x00100000#32 else if d = 13#6 then 0x50#32 else if d = 20#6 then 0x00000005#32 else 0#32

/-- `enableMsi_iff` at that capability: the vector is sent to the local APIC. -/
theorem enableMsi_iff_short : ∃ line t, (enableMsi ⟨0#8, 3#8, 0#8⟩ 44#8 1#8).run msiBus = .ok (line, t) ∧
    t.msiMessage ⟨0#8, 3#8, 0#8⟩ 0x50#8 = .to 44#8 1#8 := by
  have hat : MsiAt msiBus ⟨0#8, 3#8, 0#8⟩ 0x50#8 :=
    ⟨by unfold Bus.HasCapabilities; decide, 0, by decide, firstAt_zero.2 ⟨by decide, by decide, by decide⟩⟩
  have hv : 44#8 ≠ 0#8 := by decide
  obtain ⟨line, t, hrun, hiff, -⟩ := enableMsi_iff hat ⟨by decide, by decide, rfl, ⟨rfl, rfl⟩, ⟨rfl, rfl⟩⟩ hv 1#8
  exact ⟨line, t, hrun, hiff.2 (by decide)⟩

end Msi

end Octagram.Pci

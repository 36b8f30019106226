/-
`find_usb_controllers`: the scan of all functions of all buses. It returns the USB controllers that
answer, each once and in the order of the scan, and changes no register (`findUsbControllers_run`,
`usbControllers_nodup`). Each of the three loops collects what its rounds collect (`Collects`), so
the scan is the list of functions that is built in the same nesting.
-/
import Octagram.Pci.Capability
import Mathlib.Data.List.Flatten
import Mathlib.Data.List.Nodup

namespace Octagram.Pci

open Octagram.Lib

deriving instance DecidableEq for PciDevice

/-- `PciDevice`, with the fields that `probe_function` reads. -/
structure PciFunction extends PciDevice where
  vendorId : BitVec 16
  deviceId : BitVec 16
  classCode : BitVec 8
  subclass : BitVec 8
  progIf : BitVec 8
  headerType : BitVec 8
  deriving DecidableEq

/-- `probe_function`: `None` where no function answers. -/
def probeFunction (bus device function : BitVec 8) : PciM (Option PciFunction) := do
  let vendorId ← configReadU16 bus device function 0x00#8
  if vendorId = 0xFFFF#16 then
    pure none
  else
    let deviceId ← configReadU16 bus device function 0x02#8
    let classCode ← configReadU8 bus device function 0x0B#8
    let subclass ← configReadU8 bus device function 0x0A#8
    let progIf ← configReadU8 bus device function 0x09#8
    let headerType ← configReadU8 bus device function 0x0E#8
    pure (some ⟨⟨bus, device, function⟩, vendorId, deviceId, classCode, subclass, progIf, headerType⟩)

/-- `found.push(dev)`, for a USB controller. -/
def pushUsb (found : List PciFunction) (dev : PciFunction) : List PciFunction :=
  if dev.classCode = 0x0C#8 ∧ dev.subclass = 0x03#8 then found ++ [dev] else found

/-- The round of the innermost loop for one function. -/
def scanFunction (bus device : BitVec 8) (found : List PciFunction) (function : Nat) : PciM (List PciFunction) := do
  match ← probeFunction bus device (BitVec.ofNat 8 function) with
  | some dev => pure (pushUsb found dev)
  | none => pure found

/-- The round of the loop over the devices of a bus. -/
def scanDevice (bus : BitVec 8) (found : List PciFunction) (device : Nat) : PciM (List PciFunction) := do
  match ← probeFunction bus (BitVec.ofNat 8 device) 0#8 with
  | some dev =>
    let found := pushUsb found dev
    if dev.headerType &&& 0x80#8 ≠ 0#8 then
      (List.range' 1 7).foldlM (scanFunction bus (BitVec.ofNat 8 device)) found
    else
      pure found
  | none => pure found

/-- `find_usb_controllers` -/
def findUsbControllers : PciM (List PciFunction) :=
  (List.range 256).foldlM (fun found bus => (List.range 32).foldlM (scanDevice (BitVec.ofNat 8 bus)) found) []

/-! ## What the scan finds -/

namespace Bus

variable (s : Bus)

/-- What `probe_function` returns. -/
def functionAt (dev : PciDevice) : Option PciFunction :=
  if s.word dev 0x00#8 = 0xFFFF#16 then
    none
  else
    some ⟨dev, s.word dev 0x00#8, s.word dev 0x02#8, s.byte dev 0x0B#8, s.byte dev 0x0A#8, s.byte dev 0x09#8,
      s.byte dev 0x0E#8⟩

/-- The function, if it is a USB controller. -/
def usbAt (dev : PciDevice) : List PciFunction :=
  match s.functionAt dev with
  | some f => pushUsb [] f
  | none => []

/-- The USB controllers among the functions of a device. -/
def usbOn (bus device : BitVec 8) : List PciFunction :=
  match s.functionAt ⟨bus, device, 0#8⟩ with
  | some f => pushUsb [] f ++
      if f.headerType &&& 0x80#8 ≠ 0#8 then
        (List.range' 1 7).flatMap fun function => s.usbAt ⟨bus, device, BitVec.ofNat 8 function⟩
      else
        []
  | none => []

/-- The USB controllers of the bus, in the order of the scan. -/
def usbControllers : List PciFunction :=
  (List.range 256).flatMap fun bus => (List.range 32).flatMap fun device =>
    s.usbOn (BitVec.ofNat 8 bus) (BitVec.ofNat 8 device)

end Bus

section Scan

variable {s : Bus}

theorem functionAt_of_registers {t : Bus} (h : t.registers = s.registers) (dev : PciDevice) :
    t.functionAt dev = s.functionAt dev := by
  unfold Bus.functionAt
  simp only [word_of_registers h, byte_of_registers h]

theorem probeFunction_run (s : Bus) (dev : PciDevice) : ∃ t, (probeFunction dev.bus dev.device dev.function).run s =
    .ok (s.functionAt dev, t) ∧ t.registers = s.registers := by
  unfold probeFunction Bus.functionAt
  rw [stateT_bind_ok (configReadU16_run s dev _)]
  split
  · exact ⟨_, rfl, rfl⟩
  · rw [stateT_bind_ok (configReadU16_run _ dev _), stateT_bind_ok (configReadU8_run _ dev _),
      stateT_bind_ok (configReadU8_run _ dev _), stateT_bind_ok (configReadU8_run _ dev _),
      stateT_bind_ok (configReadU8_run _ dev _)]
    exact ⟨_, rfl, rfl⟩

theorem pushUsb_append (found : List PciFunction) (dev : PciFunction) :
    pushUsb found dev = found ++ pushUsb [] dev := by
  unfold pushUsb
  split
  · rfl
  · exact (List.append_nil _).symm

/-- A part of the scan adds these functions to those found before, and changes no register. -/
def Collects (s : Bus) (x : List PciFunction → PciM (List PciFunction)) (l : List PciFunction) : Prop :=
  ∀ t found, t.registers = s.registers → ∃ t', (x found).run t = .ok (found ++ l, t') ∧ t'.registers = s.registers

theorem collects_foldlM {f : List PciFunction → Nat → PciM (List PciFunction)} {g : Nat → List PciFunction}
    {l : List Nat} (h : ∀ a ∈ l, Collects s (fun found => f found a) (g a)) :
    Collects s (fun found => l.foldlM f found) (l.flatMap g) := by
  induction l with
  | nil =>
    rintro t found ht
    refine ⟨t, ?_, ht⟩
    rw [List.flatMap_nil, List.append_nil]
    rfl
  | cons a l ih =>
    rintro t found ht
    obtain ⟨t₁, hrun₁, ht₁⟩ := h a List.mem_cons_self t found ht
    obtain ⟨t₂, hrun₂, ht₂⟩ := ih (fun b hb => h b (List.mem_cons_of_mem a hb)) t₁ (found ++ g a) ht₁
    refine ⟨t₂, ?_, ht₂⟩
    simp only [List.foldlM_cons]
    rw [stateT_bind_ok hrun₁, hrun₂, List.flatMap_cons, List.append_assoc]

theorem collects_scanFunction (bus device : BitVec 8) (function : Nat) :
    Collects s (fun found => scanFunction bus device found function)
      (s.usbAt ⟨bus, device, BitVec.ofNat 8 function⟩) := by
  rintro t found ht
  obtain ⟨t₁, hrun, ht₁⟩ := probeFunction_run t ⟨bus, device, BitVec.ofNat 8 function⟩
  rw [functionAt_of_registers ht] at hrun
  refine ⟨t₁, ?_, ht₁.trans ht⟩
  unfold scanFunction Bus.usbAt
  rw [stateT_bind_ok hrun]
  cases s.functionAt ⟨bus, device, BitVec.ofNat 8 function⟩ with
  | some f => exact congrArg (fun l => Except.ok (l, t₁)) (pushUsb_append found f)
  | none => exact congrArg (fun l => Except.ok (l, t₁)) (List.append_nil found).symm

theorem collects_scanDevice (bus : BitVec 8) (device : Nat) :
    Collects s (fun found => scanDevice bus found device) (s.usbOn bus (BitVec.ofNat 8 device)) := by
  rintro t found ht
  obtain ⟨t₁, hrun, ht₁⟩ := probeFunction_run t ⟨bus, BitVec.ofNat 8 device, 0#8⟩
  rw [functionAt_of_registers ht] at hrun
  unfold scanDevice Bus.usbOn
  rw [stateT_bind_ok hrun]
  cases s.functionAt ⟨bus, BitVec.ofNat 8 device, 0#8⟩ with
  | none =>
    refine ⟨t₁, ?_, ht₁.trans ht⟩
    exact congrArg (fun l => Except.ok (l, t₁)) (List.append_nil found).symm
  | some f =>
    dsimp only
    split
    · have hfunctions := collects_foldlM (s := s) (l := List.range' 1 7) fun function _ =>
        collects_scanFunction bus (BitVec.ofNat 8 device) function
      obtain ⟨t₂, hrun₂, ht₂⟩ := hfunctions t₁ (pushUsb found f) (ht₁.trans ht)
      refine ⟨t₂, ?_, ht₂⟩
      rw [hrun₂, pushUsb_append found f, List.append_assoc]
    · refine ⟨t₁, ?_, ht₁.trans ht⟩
      rw [List.append_nil, ← pushUsb_append]
      rfl

/-- The scan of the first buses and devices. -/
theorem collects_scan (buses devices : Nat) : Collects s
    (fun found => (List.range buses).foldlM
      (fun found bus => (List.range devices).foldlM (scanDevice (BitVec.ofNat 8 bus)) found) found)
    ((List.range buses).flatMap fun bus => (List.range devices).flatMap fun device =>
      s.usbOn (BitVec.ofNat 8 bus) (BitVec.ofNat 8 device)) :=
  collects_foldlM fun bus _ => collects_foldlM fun device _ => collects_scanDevice (BitVec.ofNat 8 bus) device

/-- The scan returns the USB controllers that answer, and changes no register. -/
theorem findUsbControllers_run (s : Bus) : ∃ t, findUsbControllers.run s = .ok (s.usbControllers, t) ∧
    t.registers = s.registers := by
  obtain ⟨t, hrun, ht⟩ := collects_scan 256 32 s [] rfl
  rw [List.nil_append] at hrun
  exact ⟨t, hrun, ht⟩

end Scan

/-! ## No function is found twice -/

/-- Lists that differ in a key have no element in common. -/
theorem nodup_flatMap_key {α : Type} {k : α → Nat} {g : Nat → List α} {l : List Nat} (hl : l.Nodup)
    (hg : ∀ i ∈ l, (g i).Nodup) (hkey : ∀ i ∈ l, ∀ x ∈ g i, k x = i) : (l.flatMap g).Nodup := by
  refine List.nodup_flatMap.2 ⟨hg, hl.imp_of_mem fun hi hj hne => ?_⟩
  rintro x hx hy
  exact hne ((hkey _ hi x hx).symm.trans (hkey _ hj x hy))

section Nodup

variable (s : Bus)

theorem pushUsb_place {f : PciFunction} {dev : PciDevice} (h : s.functionAt dev = some f) :
    (pushUsb [] f).map (·.toPciDevice) <+: [dev] := by
  have hdev : f.toPciDevice = dev := by
    unfold Bus.functionAt at h
    split at h
    · cases h
    · cases h
      rfl
  unfold pushUsb
  split
  · exact ⟨[], by rw [← hdev]; rfl⟩
  · exact List.nil_prefix

theorem usbAt_place (dev : PciDevice) : (s.usbAt dev).map (·.toPciDevice) <+: [dev] := by
  unfold Bus.usbAt
  cases h : s.functionAt dev with
  | none => exact List.nil_prefix
  | some f => exact pushUsb_place s h

/-- The functions of a device are found on it, each once. -/
theorem usbOn_places (bus device : BitVec 8) : ((s.usbOn bus device).map (·.toPciDevice)).Nodup ∧
    ∀ dev ∈ (s.usbOn bus device).map (·.toPciDevice), dev.bus = bus ∧ dev.device = device := by
  unfold Bus.usbOn
  cases h : s.functionAt ⟨bus, device, 0#8⟩ with
  | none => exact ⟨List.nodup_nil, fun dev hdev => absurd hdev List.not_mem_nil⟩
  | some f =>
    have hfirst := pushUsb_place s h
    have hone : ∀ {l : List PciDevice} {dev : PciDevice}, l <+: [dev] → l.Nodup ∧ ∀ x ∈ l, x = dev := by
      rintro l dev hl
      exact ⟨(List.nodup_singleton dev).sublist hl.sublist, fun x hx => List.mem_singleton.1 (hl.subset hx)⟩
    have hrest : ∀ i ∈ List.range' 1 7, ∀ x ∈ (s.usbAt ⟨bus, device, BitVec.ofNat 8 i⟩).map (·.toPciDevice),
        x = ⟨bus, device, BitVec.ofNat 8 i⟩ := fun i _ => (hone (usbAt_place s _)).2
    have hkey : ∀ i ∈ List.range' 1 7, ∀ x ∈ (s.usbAt ⟨bus, device, BitVec.ofNat 8 i⟩).map (·.toPciDevice),
        x.function.toNat = i := by
      rintro i hi x hx
      have hlt : i < 8 := by
        have := List.mem_range'_1.1 hi
        omega
      rw [hrest i hi x hx, BitVec.toNat_ofNat]
      omega
    dsimp only
    split
    · rw [List.map_append, List.map_flatMap]
      constructor
      · have hothers := nodup_flatMap_key List.nodup_range' (fun i _ => (hone (usbAt_place s _)).1) hkey
        refine List.nodup_append.2 ⟨(hone hfirst).1, hothers, ?_⟩
        -- function 0 is not among the others
        rintro x hx y hy rfl
        obtain ⟨i, hi, hy⟩ := List.mem_flatMap.1 hy
        have hi' := hkey i hi x hy
        rw [(hone hfirst).2 x hx] at hi'
        have := List.mem_range'_1.1 hi
        have hzero : (0#8).toNat = i := hi'
        rw [BitVec.toNat_ofNat] at hzero
        omega
      · rintro dev hdev
        rcases List.mem_append.1 hdev with hdev | hdev
        · rw [(hone hfirst).2 dev hdev]
          exact ⟨rfl, rfl⟩
        · obtain ⟨i, hi, hdev⟩ := List.mem_flatMap.1 hdev
          rw [hrest i hi dev hdev]
          exact ⟨rfl, rfl⟩
    · rw [List.append_nil]
      refine ⟨(hone hfirst).1, fun dev hdev => ?_⟩
      rw [(hone hfirst).2 dev hdev]
      exact ⟨rfl, rfl⟩

/-- No two functions of the list are at one place. -/
theorem usbControllers_nodup : (s.usbControllers.map (·.toPciDevice)).Nodup := by
  unfold Bus.usbControllers
  simp only [List.map_flatMap]
  have hplace : ∀ (bus device : Nat),
    ∀ dev ∈ (s.usbOn (BitVec.ofNat 8 bus) (BitVec.ofNat 8 device)).map (·.toPciDevice),
      dev.bus.toNat = bus % 256 ∧ dev.device.toNat = device % 256 := by
    rintro bus device dev hdev
    obtain ⟨hb, hd⟩ := (usbOn_places s _ _).2 dev hdev
    rw [hb, hd]
    exact ⟨BitVec.toNat_ofNat bus 8, BitVec.toNat_ofNat device 8⟩
  refine nodup_flatMap_key (k := fun dev => dev.bus.toNat) List.nodup_range (fun bus _ => ?_) ?_
  · refine nodup_flatMap_key (k := fun dev => dev.device.toNat) List.nodup_range
      (fun device _ => (usbOn_places s _ _).1) ?_
    rintro device hd dev hdev
    have hlt := List.mem_range.1 hd
    show dev.device.toNat = device
    rw [(hplace bus device dev hdev).2]
    omega
  · rintro bus hb dev hdev
    obtain ⟨device, -, hdev⟩ := List.mem_flatMap.1 hdev
    have hlt := List.mem_range.1 hb
    show dev.bus.toNat = bus
    rw [(hplace bus device dev hdev).1]
    omega

end Nodup

end Octagram.Pci

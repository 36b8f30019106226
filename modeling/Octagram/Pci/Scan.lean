/-
`scan_pci_bus`: one line for every function that answers (`scanPciBus_reports`), bus by bus and
device by device. `find_usb_controllers` goes the same way: both are one walk over `functions`
(`usbControllers_eq`), which asks for the other functions of a device only if function 0 says that
there are any. No line is printed twice, as the line of a function can be read back
(`deviceLine_inj`).
-/
import Octagram.Pci.Probe
import Octagram.Lib.Stateful

namespace Octagram.Pci

open Octagram.Lib

/-! ## The lines -/

/-- `{:0w$x}`, for a number of at most `w` digits. -/
def hex : Nat → Nat → List Char
  | 0, _ => []
  | w + 1, n => hex w (n / 16) ++ [Nat.digitChar (n % 16)]

/-- The line of `print_device`, piece by piece. -/
def devicePieces (dev : PciFunction) : List (List Char) :=
  ["PCI ".toList, hex 2 dev.bus.toNat, ":".toList, hex 2 dev.device.toNat,
    ".".toList, Nat.toDigits 10 dev.function.toNat,
    " vendor=0x".toList, hex 4 dev.vendorId.toNat, " device=0x".toList, hex 4 dev.deviceId.toNat,
    " class=0x".toList, hex 2 dev.classCode.toNat, " subclass=0x".toList, hex 2 dev.subclass.toNat,
    " prog_if=0x".toList, hex 2 dev.progIf.toNat]

/-- The whole line. -/
def deviceLine (dev : PciFunction) : List Char := (devicePieces dev).flatten

/-- `print_device`, which puts its line behind those printed before. -/
def printDevice (printed : List (List Char)) (dev : PciFunction) : List (List Char) := printed ++ [deviceLine dev]

/-- The round of the innermost loop. -/
def printFunction (bus device : BitVec 8) (printed : List (List Char)) (function : Nat) : PciM (List (List Char)) := do
  match ← probeFunction bus device (BitVec.ofNat 8 function) with
  | some dev => pure (printDevice printed dev)
  | none => pure printed

/-- The round of the loop over the devices of a bus. -/
def printFunctions (bus : BitVec 8) (printed : List (List Char)) (device : Nat) : PciM (List (List Char)) := do
  match ← probeFunction bus (BitVec.ofNat 8 device) 0#8 with
  | some dev =>
    let printed := printDevice printed dev
    if dev.headerType &&& 0x80#8 ≠ 0#8 then
      (List.range' 1 7).foldlM (printFunction bus (BitVec.ofNat 8 device)) printed
    else
      pure printed
  | none => pure printed

/-- What `scan_pci_bus` prints. -/
def scanPciBus : PciM (List (List Char)) := do
  let printed := ["=== PCI SCAN START ===".toList]
  let printed ← (List.range 256).foldlM (fun printed bus =>
    (List.range 32).foldlM (printFunctions (BitVec.ofNat 8 bus)) printed) printed
  pure (printed ++ ["=== PCI SCAN END ===".toList])

/-! ## The functions -/

namespace Bus

variable (s : Bus)

/-- The functions of a device: function 0, and the others if it says that there are any. -/
def functionsOn (bus device : BitVec 8) : List PciFunction :=
  match s.functionAt ⟨bus, device, 0#8⟩ with
  | some f => f ::
      if f.headerType &&& 0x80#8 ≠ 0#8 then
        (List.range' 1 7).flatMap fun function => (s.functionAt ⟨bus, device, BitVec.ofNat 8 function⟩).toList
      else
        []
  | none => []

/-- The functions that the scan finds, in its order. -/
def functions : List PciFunction :=
  (List.range 256).flatMap fun bus => (List.range 32).flatMap fun device =>
    s.functionsOn (BitVec.ofNat 8 bus) (BitVec.ofNat 8 device)

end Bus

section Scan

variable {s : Bus}

theorem appends_printFunction (bus device : BitVec 8) (function : Nat) :
    Appends (fun t : Bus => t.registers = s.registers) (fun printed => printFunction bus device printed function)
      ((s.functionAt ⟨bus, device, BitVec.ofNat 8 function⟩).toList.map deviceLine) := by
  intro t printed ht
  obtain ⟨t₁, hrun, ht₁⟩ := probeFunction_run t ⟨bus, device, BitVec.ofNat 8 function⟩
  rw [functionAt_of_registers ht] at hrun
  refine ⟨t₁, ?_, ht₁.trans ht⟩
  unfold printFunction
  rw [stateT_bind_ok hrun]
  cases s.functionAt ⟨bus, device, BitVec.ofNat 8 function⟩ with
  | some f => rfl
  | none =>
    rw [Option.toList_none, List.map_nil, List.append_nil]
    rfl

theorem appends_printFunctions (bus : BitVec 8) (device : Nat) :
    Appends (fun t : Bus => t.registers = s.registers) (fun printed => printFunctions bus printed device)
      ((s.functionsOn bus (BitVec.ofNat 8 device)).map deviceLine) := by
  intro t printed ht
  obtain ⟨t₁, hrun, ht₁⟩ := probeFunction_run t ⟨bus, BitVec.ofNat 8 device, 0#8⟩
  rw [functionAt_of_registers ht] at hrun
  unfold printFunctions Bus.functionsOn
  rw [stateT_bind_ok hrun]
  cases s.functionAt ⟨bus, BitVec.ofNat 8 device, 0#8⟩ with
  | none =>
    refine ⟨t₁, ?_, ht₁.trans ht⟩
    rw [List.map_nil, List.append_nil]
    rfl
  | some f =>
    dsimp only
    split
    · have hothers := appends_foldlM (l := List.range' 1 7) fun function _ =>
        appends_printFunction (s := s) bus (BitVec.ofNat 8 device) function
      obtain ⟨t₂, hrun₂, ht₂⟩ := hothers t₁ (printDevice printed f) (ht₁.trans ht)
      refine ⟨t₂, ?_, ht₂⟩
      rw [hrun₂, List.map_cons, List.map_flatMap]
      unfold printDevice
      rw [List.append_assoc, List.singleton_append]
    · exact ⟨t₁, rfl, ht₁.trans ht⟩

end Scan

/-! ## Which functions, in which order -/

/-- The other functions of a device are only there if function 0 says so. -/
def Bus.Reachable (s : Bus) (dev : PciDevice) : Prop :=
  dev.device.toNat < 32 ∧ (dev.function = 0#8 ∨ dev.function.toNat < 8 ∧
    ∃ f, s.functionAt ⟨dev.bus, dev.device, 0#8⟩ = some f ∧ f.headerType &&& 0x80#8 ≠ 0#8)

/-- Bus by bus, device by device. -/
def PciDevice.order (dev : PciDevice) : Nat := dev.bus.toNat * 256 + dev.device.toNat * 8 + dev.function.toNat

/-- The class of USB controllers. -/
def PciFunction.isUsb (f : PciFunction) : Bool := f.classCode = 0x0C#8 ∧ f.subclass = 0x03#8

section Order

variable {s : Bus} {bus device : BitVec 8} {f : PciFunction}

theorem functionAt_place {dev : PciDevice} (h : s.functionAt dev = some f) : f.toPciDevice = dev := by
  unfold Bus.functionAt at h
  split at h
  · cases h
  · cases h
    rfl

theorem mem_functionsOn :
    f ∈ s.functionsOn bus device ↔ s.functionAt f.toPciDevice = some f ∧ f.bus = bus ∧ f.device = device ∧
    (f.function = 0#8 ∨ f.function.toNat < 8 ∧ ∃ g, s.functionAt ⟨bus, device, 0#8⟩ = some g ∧
      g.headerType &&& 0x80#8 ≠ 0#8) := by
  unfold Bus.functionsOn
  constructor
  · intro h
    cases h0 : s.functionAt ⟨bus, device, 0#8⟩ with
    | none =>
      rw [h0] at h
      cases h
    | some g =>
      rw [h0] at h
      rcases List.mem_cons.1 h with rfl | h
      · have hplace := functionAt_place h0
        rw [hplace]
        exact ⟨h0, rfl, rfl, .inl rfl⟩
      · split at h
        · next hmulti =>
          obtain ⟨i, hi, hf⟩ := List.mem_flatMap.1 h
          have hf' := Option.mem_toList.1 hf
          have hplace := functionAt_place hf'
          have hlt := List.mem_range'_1.1 hi
          rw [hplace]
          refine ⟨hf', rfl, rfl, .inr ⟨?_, g, rfl, hmulti⟩⟩
          rw [BitVec.toNat_ofNat]
          omega
        · cases h
  · -- function 0 is the head of the list, the others come after it if the device has more than one
    rintro ⟨hf, rfl, rfl, hfun⟩
    by_cases hz : f.function = 0#8
    · have hdev : f.toPciDevice = ⟨f.bus, f.device, 0#8⟩ := by rw [← hz]
      rw [hdev] at hf
      rw [hf]
      exact List.mem_cons_self
    · obtain ⟨hlt, g, hg, hmulti⟩ := hfun.resolve_left hz
      have hpos : f.function.toNat ≠ 0 := fun h => hz (BitVec.eq_of_toNat_eq h)
      rw [hg]
      dsimp only
      rw [if_pos hmulti]
      refine List.mem_cons_of_mem _ (List.mem_flatMap.2 ⟨f.function.toNat, List.mem_range'_1.2 (by omega), ?_⟩)
      rw [BitVec.ofNat_toNat, BitVec.setWidth_eq]
      exact Option.mem_toList.2 hf

theorem mem_functions : f ∈ s.functions ↔ s.functionAt f.toPciDevice = some f ∧ s.Reachable f.toPciDevice := by
  unfold Bus.functions Bus.Reachable
  simp only [List.mem_flatMap, List.mem_range, mem_functionsOn]
  constructor
  · rintro ⟨bus, hbus, device, hdevice, hf, hb, hd, hfun⟩
    rw [← hb, ← hd] at hfun
    refine ⟨hf, ?_, hfun⟩
    rw [hd, BitVec.toNat_ofNat]
    omega
  · rintro ⟨hf, hdevice, hfun⟩
    refine ⟨f.bus.toNat, f.bus.isLt, f.device.toNat, hdevice, hf, ?_, ?_, ?_⟩
    · simp
    · simp
    · simpa using hfun

theorem functionsOn_ordered : (s.functionsOn bus device).Pairwise fun f g => f.order < g.order := by
  have hplace : ∀ {i : Nat} {f : PciFunction}, i < 8 → f ∈ (s.functionAt ⟨bus, device, BitVec.ofNat 8 i⟩).toList →
      f.order = bus.toNat * 256 + device.toNat * 8 + i := by
    intro i f hi hf
    unfold PciDevice.order
    rw [functionAt_place (Option.mem_toList.1 hf), BitVec.toNat_ofNat, Nat.mod_eq_of_lt (by omega)]
  unfold Bus.functionsOn
  cases h0 : s.functionAt ⟨bus, device, 0#8⟩ with
  | none => exact .nil
  | some f₀ =>
    have horder₀ : f₀.order = bus.toNat * 256 + device.toNat * 8 + 0 :=
      hplace (i := 0) (by omega) (Option.mem_toList.2 h0)
    dsimp only
    split
    · refine List.pairwise_cons.2 ⟨fun f hf => ?_, List.pairwise_flatMap.2 ⟨fun i _ => ?_, ?_⟩⟩
      · obtain ⟨i, hi, hf⟩ := List.mem_flatMap.1 hf
        have hlt := List.mem_range'_1.1 hi
        rw [horder₀, hplace (by omega) hf]
        omega
      · cases s.functionAt ⟨bus, device, BitVec.ofNat 8 i⟩ with
        | none => exact .nil
        | some f => exact List.pairwise_singleton _ f
      · have hrange : (List.range' 1 7).Pairwise (· < ·) := List.pairwise_lt_range'
        refine hrange.imp_of_mem fun hi hj hlt => ?_
        intro f hf g hg
        have hi' := List.mem_range'_1.1 hi
        have hj' := List.mem_range'_1.1 hj
        rw [hplace (by omega) hf, hplace (by omega) hg]
        omega
    · exact List.pairwise_singleton _ f₀

/-- A device is before the next one, and a bus before the next one. -/
theorem functions_ordered : s.functions.Pairwise fun f g => f.order < g.order := by
  -- all functions of a device lie in its eight places
  have hon : ∀ {bus device : Nat} {f : PciFunction}, bus < 256 → device < 32 →
      f ∈ s.functionsOn (BitVec.ofNat 8 bus) (BitVec.ofNat 8 device) →
      bus * 256 + device * 8 ≤ f.order ∧ f.order < bus * 256 + device * 8 + 8 := by
    intro bus device f hb hd hf
    obtain ⟨-, hbus, hdevice, hfun⟩ := mem_functionsOn.1 hf
    have hlt : f.function.toNat < 8 := by
      rcases hfun with h | h
      · rw [h]
        decide
      · exact h.1
    unfold PciDevice.order
    rw [hbus, hdevice, BitVec.toNat_ofNat, BitVec.toNat_ofNat]
    omega
  unfold Bus.functions
  refine List.pairwise_flatMap.2 ⟨fun bus hb => List.pairwise_flatMap.2 ⟨fun device _ => functionsOn_ordered, ?_⟩, ?_⟩
  · refine List.pairwise_lt_range.imp_of_mem fun hd hd' hlt => ?_
    intro f hf g hg
    have h1 := hon (List.mem_range.1 hb) (List.mem_range.1 hd) hf
    have h2 := hon (List.mem_range.1 hb) (List.mem_range.1 hd') hg
    omega
  · refine List.pairwise_lt_range.imp_of_mem fun hb hb' hlt => ?_
    intro f hf g hg
    obtain ⟨d, hd, hf⟩ := List.mem_flatMap.1 hf
    obtain ⟨d', hd', hg⟩ := List.mem_flatMap.1 hg
    have h1 := hon (List.mem_range.1 hb) (List.mem_range.1 hd) hf
    have h2 := hon (List.mem_range.1 hb') (List.mem_range.1 hd') hg
    have := List.mem_range.1 hd
    have := List.mem_range.1 hd'
    omega

/-- `find_usb_controllers` goes over the same functions. -/
theorem usbControllers_eq (s : Bus) : s.usbControllers = s.functions.filter PciFunction.isUsb := by
  -- the search keeps a function as the filter does, so both go through the same places
  have hpush : ∀ f, pushUsb [] f = [f].filter PciFunction.isUsb := by
    intro f
    unfold pushUsb PciFunction.isUsb
    by_cases h : f.classCode = 0x0C#8 ∧ f.subclass = 0x03#8 <;> simp [h]
  have hat : ∀ dev, s.usbAt dev = (s.functionAt dev).toList.filter PciFunction.isUsb := by
    intro dev
    unfold Bus.usbAt
    cases s.functionAt dev with
    | none => rfl
    | some f => exact hpush f
  unfold Bus.usbControllers Bus.functions
  simp only [List.filter_flatMap]
  congr 1
  funext bus
  congr 1
  funext device
  unfold Bus.usbOn Bus.functionsOn
  cases s.functionAt ⟨BitVec.ofNat 8 bus, BitVec.ofNat 8 device, 0#8⟩ with
  | none => rfl
  | some f =>
    have hcons : ∀ l, (f :: l).filter PciFunction.isUsb = [f].filter PciFunction.isUsb ++ l.filter PciFunction.isUsb :=
      List.filter_append [f]
    dsimp only
    rw [hpush]
    split
    · refine Eq.trans ?_ (hcons _).symm
      rw [List.filter_flatMap]
      simp only [hat]
    · exact List.append_nil _

end Order

/-! ## What the lines say -/

section Lines

theorem hex_length (w n : Nat) : (hex w n).length = w := by
  induction w generalizing n with
  | zero => rfl
  | succ w ih =>
    unfold hex
    rw [List.length_append, ih, List.length_singleton]

/-- A number of at most `w` digits can be read back. -/
theorem hex_inj {w n m : Nat} (hn : n < 16 ^ w) (hm : m < 16 ^ w) (h : hex w n = hex w m) : n = m := by
  have hdigit : ∀ a, a < 16 → ∀ b, b < 16 → Nat.digitChar a = Nat.digitChar b → a = b := by decide
  induction w generalizing n m with
  | zero =>
    rw [Nat.pow_zero] at hn hm
    omega
  | succ w ih =>
    rw [Nat.pow_succ] at hn hm
    obtain ⟨hfront, hlast⟩ := List.append_inj h (by rw [hex_length, hex_length])
    have hdiv := ih (by omega) (by omega) hfront
    have hmod := hdigit _ (Nat.mod_lt n (by omega)) _ (Nat.mod_lt m (by omega)) (List.singleton_inj.1 hlast)
    omega

theorem hex_bitVec {w : Nat} {a b : BitVec w} {k : Nat} (hk : 2 ^ w = 16 ^ k) (h : hex k a.toNat = hex k b.toNat) :
    a = b :=
  BitVec.eq_of_toNat_eq (hex_inj (hk ▸ a.isLt) (hk ▸ b.isLt) h)

/-- The line says all that was read of a function but its header type. -/
theorem deviceLine_inj {f g : PciFunction} (hf : f.function.toNat < 8) (hg : g.function.toNat < 8)
    (h : deviceLine f = deviceLine g) : f = { g with headerType := f.headerType } := by
  have hdigits : ∀ n, n < 8 → Nat.toDigits 10 n = hex 1 n := by decide
  -- the pieces have fixed lengths, so equal lines are equal piece by piece
  have hpieces : devicePieces f = devicePieces g := by
    refine List.eq_iff_flatten_eq.2 ⟨h, ?_⟩
    unfold devicePieces
    rw [hdigits _ hf, hdigits _ hg]
    simp only [List.map_cons, hex_length]
  unfold devicePieces at hpieces
  rw [hdigits _ hf, hdigits _ hg] at hpieces
  simp only [List.cons.injEq, true_and, and_true] at hpieces
  obtain ⟨hbus, hdevice, hfunction, hvendor, hid, hclass, hsubclass, hprog⟩ := hpieces
  have hfun : f.function = g.function := BitVec.eq_of_toNat_eq (hex_inj (by omega) (by omega) hfunction)
  obtain ⟨⟨_, _, _⟩, _, _, _, _, _, _⟩ := f
  obtain ⟨⟨_, _, _⟩, _, _, _, _, _, _⟩ := g
  cases hex_bitVec rfl hbus
  cases hex_bitVec rfl hdevice
  cases hfun
  cases hex_bitVec rfl hvendor
  cases hex_bitVec rfl hid
  cases hex_bitVec rfl hclass
  cases hex_bitVec rfl hsubclass
  cases hex_bitVec rfl hprog
  rfl

end Lines

/-! ## The scan -/

section Report

variable (s : Bus)

theorem scanPciBus_run : ∃ t, t.registers = s.registers ∧ scanPciBus.run s =
    .ok (["=== PCI SCAN START ===".toList] ++ s.functions.map deviceLine ++ ["=== PCI SCAN END ===".toList], t) := by
  have hscan : Appends (fun t : Bus => t.registers = s.registers)
      (fun printed => (List.range 256).foldlM (fun printed bus =>
        (List.range 32).foldlM (printFunctions (BitVec.ofNat 8 bus)) printed) printed)
          (s.functions.map deviceLine) := by
    unfold Bus.functions
    simp only [List.map_flatMap]
    exact appends_foldlM fun bus _ => appends_foldlM fun device _ => appends_printFunctions (BitVec.ofNat 8 bus) device
  obtain ⟨t, hrun, ht⟩ := hscan s ["=== PCI SCAN START ===".toList] rfl
  refine ⟨t, ht, ?_⟩
  unfold scanPciBus
  rw [stateT_bind_ok hrun]
  rfl

/-- No line is printed twice. -/
theorem lines_nodup : (s.functions.map deviceLine).Nodup := by
  have hlt : ∀ f ∈ s.functions, f.function.toNat < 8 := by
    intro f hf
    rcases (mem_functions.1 hf).2.2 with h | h
    · rw [h]
      decide
    · exact h.1
  refine List.pairwise_map.2 (functions_ordered.imp_of_mem fun hf hg hlt' h => ?_)
  have heq := deviceLine_inj (hlt _ hf) (hlt _ hg) h
  rw [heq] at hlt'
  exact Nat.lt_irrefl _ hlt'

/-- `scan_pci_bus` prints one line for every function that there is, those of a device that has none but
function 0 left out, bus by bus and device by device. It changes no register, and `find_usb_controllers` then
finds the USB controllers among the functions that were printed. -/
theorem scanPciBus_reports : ∃ t u, t.registers = s.registers ∧ scanPciBus.run s =
      .ok (["=== PCI SCAN START ===".toList] ++ s.functions.map deviceLine ++ ["=== PCI SCAN END ===".toList], t) ∧
    findUsbControllers.run t = .ok (s.functions.filter PciFunction.isUsb, u) ∧
    (∀ f, f ∈ s.functions ↔ s.functionAt f.toPciDevice = some f ∧ s.Reachable f.toPciDevice) ∧
    s.functions.Pairwise (fun f g => f.order < g.order) ∧ (s.functions.map deviceLine).Nodup := by
  obtain ⟨t, ht, hrun⟩ := scanPciBus_run s
  obtain ⟨u, hfind, -⟩ := findUsbControllers_run t
  have hsame : t.usbControllers = s.usbControllers := by
    unfold Bus.usbControllers Bus.usbOn Bus.usbAt
    simp only [functionAt_of_registers ht]
  rw [hsame, usbControllers_eq] at hfind
  exact ⟨t, u, ht, hrun, hfind, fun f => mem_functions, functions_ordered, lines_nodup s⟩

end Report

end Octagram.Pci

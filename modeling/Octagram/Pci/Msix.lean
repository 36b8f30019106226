/-
`get_msix_info` and `set_msix_enable`: the MSI-X capability of a device, whose registers are at
constants added to a pointer that the device gives. The sum is of `u8` values, so it panics for a
capability in the last bytes, and everything is safe exactly if the capability ends inside of the
configuration space (`msix_safe_iff`). The accesses are those of the search, by
`findCapability_run`, and the three dwords of the capability (`InfoAccess`).
-/
import Octagram.Pci.Capability

namespace Octagram.Pci

open Octagram.Lib

/-- `CAP_ID_MSIX`: the id of the capability. -/
def CAP_ID_MSIX : BitVec 8 := 0x11#8

/-- `MsixInfo`: where the capability says that the table is. -/
structure MsixInfo where
  capOffset : BitVec 8
  tableBar : BitVec 8
  tableOffset : BitVec 32
  pbaBar : BitVec 8
  pbaOffset : BitVec 32
  tableSize : BitVec 16

/-- `get_msix_info`: the offsets of its registers are sums of `u8` values. -/
def getMsixInfo (dev : PciDevice) : PciM (Option MsixInfo) := do
  match ← findCapability dev CAP_ID_MSIX with
  | none => pure none
  | some capOffset =>
    let msgCtrl ← configReadU16 dev.bus dev.device dev.function (← addU8 capOffset 2#8)
    let tableSize := (msgCtrl &&& 0x7FF#16) + 1#16
    let tableReg ← configReadU32 dev.bus dev.device dev.function (← addU8 capOffset 4#8)
    let tableBar := (tableReg &&& 0x7#32).setWidth 8
    let tableOffset := tableReg &&& ~~~0x7#32
    let pbaReg ← configReadU32 dev.bus dev.device dev.function (← addU8 capOffset 8#8)
    let pbaBar := (pbaReg &&& 0x7#32).setWidth 8
    let pbaOffset := pbaReg &&& ~~~0x7#32
    pure (some ⟨capOffset, tableBar, tableOffset, pbaBar, pbaOffset, tableSize⟩)

/-- Message Control with MSI-X enabled and not masked, or not enabled. -/
def msixControl (ctrl : BitVec 16) (enable : Bool) : BitVec 16 :=
  if enable then (ctrl ||| (1#16 <<< 15)) &&& ~~~(1#16 <<< 14) else ctrl &&& ~~~(1#16 <<< 15)

/-- `set_msix_enable` -/
def setMsixEnable (dev : PciDevice) (capOffset : BitVec 8) (enable : Bool) : PciM Unit := do
  let ctrl ← configReadU16 dev.bus dev.device dev.function (← addU8 capOffset 2#8)
  configWriteU16 dev.bus dev.device dev.function (← addU8 capOffset 2#8) (msixControl ctrl enable)

/-- What `get_msix_info` reads of the capability at an offset. -/
def Bus.msixInfo (s : Bus) (dev : PciDevice) (capOffset : BitVec 8) : MsixInfo where
  capOffset := capOffset
  tableBar := (s.dword dev (capOffset + 4#8) &&& 0x7#32).setWidth 8
  tableOffset := s.dword dev (capOffset + 4#8) &&& ~~~0x7#32
  pbaBar := (s.dword dev (capOffset + 8#8) &&& 0x7#32).setWidth 8
  pbaOffset := s.dword dev (capOffset + 8#8) &&& ~~~0x7#32
  tableSize := (s.word dev (capOffset + 2#8) &&& 0x7FF#16) + 1#16

/-- The dword that `set_msix_enable` writes. -/
def Bus.msixDword (s : Bus) (dev : PciDevice) (capOffset : BitVec 8) (enable : Bool) : BitVec 32 :=
  s.withWord dev (capOffset + 2#8) (msixControl (s.word dev (capOffset + 2#8)) enable)

/-! ## The accesses -/

/-- A dword lies inside of `length` bytes of the device's configuration space. -/
structure Location.Inside (l : Location) (dev : PciDevice) (start length : Nat) : Prop where
  function : l = dev.place (BitVec.ofNat 8 (4 * l.dword.toNat))
  low : start ≤ 4 * l.dword.toNat
  high : 4 * l.dword.toNat + 4 ≤ start + length

/-- `ptr` is the first MSI-X capability that `find_capability` can come to. -/
def MsixAt (s : Bus) (dev : PciDevice) (ptr : BitVec 8) : Prop :=
  s.HasCapabilities dev ∧ ∃ n < 48, s.FirstWithId dev CAP_ID_MSIX n ptr

section Msix

variable {s : Bus} {dev : PciDevice} {ptr : BitVec 8}

theorem msixInfo_of_registers {s' : Bus} (h : s'.registers = s.registers) (capOffset : BitVec 8) :
    s'.msixInfo dev capOffset = s.msixInfo dev capOffset := by
  unfold Bus.msixInfo
  rw [dword_of_registers h, dword_of_registers h, word_of_registers h]

theorem msixDword_of_registers {s' : Bus} (h : s'.registers = s.registers) (capOffset : BitVec 8) (enable : Bool) :
    s'.msixDword dev capOffset enable = s.msixDword dev capOffset enable := by
  unfold Bus.msixDword Bus.withWord
  rw [dword_of_registers h, word_of_registers h]

/-- The first capability of the list is an MSI-X capability. -/
theorem msixAt_of_first (hcaps : s.HasCapabilities dev) (hfirst : s.firstCapability dev = ptr) (hptr : ptr ≠ 0#8)
    (hid : s.byte dev ptr = CAP_ID_MSIX) : MsixAt s dev ptr :=
  ⟨hcaps, 0, by decide, firstAt_zero.2 ⟨hfirst, hptr, hid⟩⟩

theorem MsixAt.of_registers {s' : Bus} (hptr : MsixAt s dev ptr) (h : s'.registers = s.registers) :
    MsixAt s' dev ptr := by
  obtain ⟨hc, n, hn, hfirst⟩ := hptr
  unfold MsixAt Bus.HasCapabilities Bus.FirstWithId Bus.firstCapability
  rw [word_of_registers h, byte_of_registers h, nextCapability_of_registers h]
  refine ⟨hc, n, hn, ?_⟩
  simp only [byte_of_registers h]
  exact hfirst

/-- `find_capability` finds it, or there is none. -/
theorem findMsix_run (s : Bus) (dev : PciDevice) : ∃ r s', (findCapability dev CAP_ID_MSIX).run s = .ok (r, s') ∧
    Reads s s' (SearchAccess s dev) ∧ ∀ ptr, r = some ptr ↔ MsixAt s dev ptr := by
  obtain ⟨r, s', hrun, hreads, hr⟩ := findCapability_run s dev CAP_ID_MSIX
  refine ⟨r, s', hrun, hreads, fun ptr => ?_⟩
  unfold MsixAt Bus.FirstWithId
  rcases hr with ⟨hc, rfl⟩ | ⟨hc, rfl⟩
  · constructor
    · intro h
      cases h
    · exact fun h => absurd h.1 hc
  · rw [search_eq_some_iff, and_iff_right hc]
    simp only [beq_iff_eq]

theorem MsixAt.aligned (h : MsixAt s dev ptr) : 4 ∣ ptr.toNat := by
  obtain ⟨-, n, -, hn⟩ := h
  rw [← hn.eq]
  exact node_aligned s dev n

theorem place_dword (dev : PciDevice) (offset : BitVec 8) : (dev.place offset).dword.toNat = offset.toNat / 4 := by
  have hlt := offset.isLt
  unfold PciDevice.place
  rw [BitVec.extractLsb'_toNat, Nat.shiftRight_eq_div_pow]
  omega

theorem inside_place (dev : PciDevice) {offset : BitVec 8} {start length : Nat} (hlow : start ≤ offset.toNat / 4 * 4)
    (hhigh : offset.toNat / 4 * 4 + 4 ≤ start + length) : (dev.place offset).Inside dev start length := by
  have hdword := place_dword dev offset
  refine ⟨?_, by omega, by omega⟩
  rw [hdword, Nat.mul_comm, ← and_fc_toNat, BitVec.ofNat_toNat, BitVec.setWidth_eq, place_and]

/-- A field of the capability whose bytes all exist. -/
theorem inside_field (dev : PciDevice) (halign : 4 ∣ ptr.toNat) (hfit : ptr.toNat + 12 ≤ 256) {k : BitVec 8}
    (hk : k.toNat < 12) : (dev.place (ptr + k)).Inside dev ptr.toNat 12 := by
  have hsum : (ptr + k).toNat = ptr.toNat + k.toNat := by
    rw [BitVec.toNat_add, Nat.mod_eq_of_lt (by omega)]
  exact inside_place dev (by omega) (by omega)

theorem addU8_overflow {a b : BitVec 8} (h : 2 ^ 8 ≤ a.toNat + b.toNat) (s : Bus) :
    (addU8 a b).run s = .error "attempt to add with overflow" := by
  unfold addU8
  rw [if_neg (Nat.not_lt.2 h)]
  rfl

theorem getMsixInfo_none (h : ∀ ptr, ¬ MsixAt s dev ptr) :
    ∃ s', (getMsixInfo dev).run s = .ok (none, s') ∧ Reads s s' (SearchAccess s dev) := by
  obtain ⟨r, s', hrun, hreads, hr⟩ := findMsix_run s dev
  cases r with
  | some ptr => exact absurd ((hr ptr).1 rfl) (h ptr)
  | none =>
    unfold getMsixInfo
    rw [stateT_bind_ok hrun]
    exact ⟨s', rfl, hreads⟩

theorem findMsix_some (h : MsixAt s dev ptr) :
    ∃ s', (findCapability dev CAP_ID_MSIX).run s = .ok (some ptr, s') ∧ Reads s s' (SearchAccess s dev) := by
  obtain ⟨r, s', hrun, hreads, hr⟩ := findMsix_run s dev
  rw [(hr ptr).2 h] at hrun
  exact ⟨s', hrun, hreads⟩

/-- The accesses of `get_msix_info`: those of the search, and the capability's own. -/
def InfoAccess (s : Bus) (dev : PciDevice) (ptr : BitVec 8) (l : Location) : Prop :=
  SearchAccess s dev l ∨ l.Inside dev ptr.toNat 12

theorem getMsixInfo_some (h : MsixAt s dev ptr) (hfit : ptr.toNat + 12 ≤ 256) :
    ∃ s', (getMsixInfo dev).run s = .ok (some (s.msixInfo dev ptr), s') ∧ Reads s s' (InfoAccess s dev ptr) := by
  obtain ⟨s₁, hrun, hreads⟩ := findMsix_some h
  have hfield : ∀ k : BitVec 8, k.toNat < 12 → InfoAccess s dev ptr (dev.place (ptr + k)) := fun k hk =>
    .inr (inside_field dev h.aligned hfit hk)
  have hreads₁ : Reads s s₁ (InfoAccess s dev ptr) := hreads.mono fun l hl => .inl hl
  have hreads₂ := hreads₁.trans (reads_afterRead s₁ dev _ (hfield 2#8 (by decide)))
  have hreads₃ := hreads₂.trans (reads_afterRead _ dev _ (hfield 4#8 (by decide)))
  have hreads₄ := hreads₃.trans (reads_afterRead _ dev _ (hfield 8#8 (by decide)))
  have hadd : ∀ k : BitVec 8, k.toNat < 12 → ptr.toNat + k.toNat < 2 ^ 8 := fun k hk => by omega
  refine ⟨_, ?_, hreads₄⟩
  unfold getMsixInfo
  rw [stateT_bind_ok hrun]
  dsimp only
  rw [stateT_bind_ok (addU8_ok (hadd 2#8 (by decide)) _), stateT_bind_ok (configReadU16_run _ dev _),
    stateT_bind_ok (addU8_ok (hadd 4#8 (by decide)) _), stateT_bind_ok (configReadU32_run _ dev _),
    stateT_bind_ok (addU8_ok (hadd 8#8 (by decide)) _), stateT_bind_ok (configReadU32_run _ dev _),
    word_of_registers hreads₁.registers, dword_of_registers hreads₂.registers, dword_of_registers hreads₃.registers]
  rfl

/-- Where the last bytes of the capability do not exist, the offset of its last register overflows. -/
theorem getMsixInfo_overflow (h : MsixAt s dev ptr) (hfit : 256 < ptr.toNat + 12) :
    (getMsixInfo dev).run s = .error "attempt to add with overflow" := by
  obtain ⟨s₁, hrun, -⟩ := findMsix_some h
  have halign := h.aligned
  have hlt := ptr.isLt
  have hadd : ptr.toNat + (2#8).toNat < 2 ^ 8 := by
    show ptr.toNat + 2 < 256
    omega
  unfold getMsixInfo
  rw [stateT_bind_ok hrun]
  dsimp only
  rw [stateT_bind_ok (addU8_ok hadd _), stateT_bind_ok (configReadU16_run _ dev _)]
  rcases Nat.lt_or_ge (ptr.toNat + 4) 256 with h4 | h4
  · rw [stateT_bind_ok (addU8_ok h4 _), stateT_bind_ok (configReadU32_run _ dev _), StateT.run_bind,
      addU8_overflow (by show 256 ≤ ptr.toNat + 8; omega)]
    rfl
  · rw [StateT.run_bind, addU8_overflow h4]
    rfl

/-- `set_msix_enable` reads and writes the dword of Message Control. -/
theorem setMsixEnable_run (t : Bus) (dev : PciDevice) (halign : 4 ∣ ptr.toNat) (enable : Bool) : ∃ t',
    (setMsixEnable dev ptr enable).run t = .ok ((), t') ∧
      t'.registers = Function.update t.registers (dev.place ptr)
        ((t.registers (dev.place ptr)).write (t.msixDword dev ptr enable)) ∧
      t'.log = t.log ++ [(dev.place ptr, none), (dev.place ptr, none),
        (dev.place ptr, some (t.msixDword dev ptr enable))] := by
  have hlt := ptr.isLt
  have hadd : ptr.toNat + (2#8).toNat < 2 ^ 8 := by
    show ptr.toNat + 2 < 256
    omega
  have hplace : dev.place (ptr + 2#8) = dev.place ptr := place_add dev halign (by decide)
  unfold setMsixEnable
  rw [stateT_bind_ok (addU8_ok hadd _), stateT_bind_ok (configReadU16_run _ dev _), stateT_bind_ok (addU8_ok hadd _),
    configWriteU16_run]
  refine ⟨_, rfl, ?_, ?_⟩
  · rw [Bus.afterWrite_registers, hplace]
    rfl
  · unfold Bus.afterWrite Bus.afterRead
    simp only [hplace, List.append_assoc, List.cons_append, List.nil_append]
    rfl

/-- The high half of an aligned dword is shifted by 16 bits, and is read with the dword. -/
theorem shift_high (halign : 4 ∣ ptr.toNat) : ((ptr + 2#8) &&& 2#8) * 8#8 = 16#8 := by
  have hmask := aligned_mask halign
  clear halign
  revert ptr
  decide

theorem dword_high (s : Bus) (dev : PciDevice) (halign : 4 ∣ ptr.toNat) :
    s.dword dev (ptr + 2#8) = s.dword dev ptr := by
  unfold Bus.dword
  rw [place_add dev halign (by decide)]

/-- The dword that enables MSI-X: bit 15 of Message Control is set, bit 14 clear, and the others are as they were. -/
theorem msixDword_bit (s : Bus) (dev : PciDevice) (halign : 4 ∣ ptr.toNat) {i : Nat} (hi : i < 32) :
    (s.msixDword dev ptr true).getLsbD i = if i = 31 then true else if i = 30 then false
      else (s.dword dev ptr).getLsbD i := by
  unfold Bus.msixDword Bus.withWord Bus.word msixControl
  rw [shift_high halign, dword_high s dev halign]
  interval_cases i <;> simp

end Msix

/-! ## Safety -/

/-- The accesses from one state to the other are where `P` holds. -/
def Touches (s s' : Bus) (P : Location → Prop) : Prop := ∃ new, s'.log = s.log ++ new ∧ ∀ e ∈ new, P e.1

theorem Reads.touches {s s' : Bus} {P : Location → Prop} (h : Reads s s' P) : Touches s s' P := by
  obtain ⟨new, hlog, hnew⟩ := h.log
  exact ⟨new, hlog, fun e he => (hnew e he).2⟩

/-- None of the functions panics, and each access is to the status, the pointer to the list, a node of the
list, or one of the twelve bytes of the MSI-X capability, which all exist. -/
structure MsixSafe (s : Bus) (dev : PciDevice) : Prop where
  find : ∀ capId, ∃ r s', (findCapability dev capId).run s = .ok (r, s') ∧ Touches s s' (SearchAccess s dev)
  none : ∀ s', (getMsixInfo dev).run s = .ok (none, s') → Touches s s' (SearchAccess s dev)
  info : ∃ r s', (getMsixInfo dev).run s = .ok (r, s') ∧ ∀ info ∈ r, info.capOffset.toNat + 12 ≤ 256 ∧
    Touches s s' (fun l => SearchAccess s dev l ∨ l.Inside dev info.capOffset.toNat 12) ∧
    ∀ enable, ∃ s'', (setMsixEnable dev info.capOffset enable).run s' = .ok ((), s'') ∧
      Touches s' s'' (fun l => l.Inside dev info.capOffset.toNat 12)

section Safe

variable {s : Bus} {dev : PciDevice} {ptr : BitVec 8}

theorem msixSafe_of_fits (h : ∀ ptr, MsixAt s dev ptr → ptr.toNat ≤ 0xF4) : MsixSafe s dev := by
  have hfind : ∀ capId, ∃ r s', (findCapability dev capId).run s = .ok (r, s') ∧ Touches s s' (SearchAccess s dev) := by
    intro capId
    obtain ⟨r, s', hrun, hreads, -⟩ := findCapability_run s dev capId
    exact ⟨r, s', hrun, hreads.touches⟩
  -- with a capability its twelve bytes fit; without one nothing is touched
  by_cases hex : ∃ ptr, MsixAt s dev ptr
  · obtain ⟨ptr, hptr⟩ := hex
    have hfit : ptr.toNat + 12 ≤ 256 := by
      have := h ptr hptr
      omega
    obtain ⟨s', hrun, hreads⟩ := getMsixInfo_some hptr hfit
    refine ⟨hfind, fun t ht => ?_, _, s', hrun, ?_⟩
    · rw [hrun] at ht
      cases ht
    rintro info hinfo
    cases hinfo
    refine ⟨hfit, hreads.touches, fun enable => ?_⟩
    obtain ⟨t, hset, -, hlog⟩ := setMsixEnable_run s' dev hptr.aligned enable
    have hown : (dev.place ptr).Inside dev ptr.toNat 12 := by
      have halign := hptr.aligned
      exact inside_place dev (by omega) (by omega)
    refine ⟨t, hset, _, hlog, ?_⟩
    simp only [List.forall_mem_cons, List.not_mem_nil, false_implies, implies_true, and_true]
    exact ⟨hown, hown, hown⟩
  · obtain ⟨s', hrun, hreads⟩ := getMsixInfo_none fun ptr hptr => hex ⟨ptr, hptr⟩
    refine ⟨hfind, fun t ht => ?_, _, s', hrun, fun info hinfo => ?_⟩
    · rw [hrun] at ht
      cases ht
      exact hreads.touches
    · cases hinfo

end Safe

/-- The set-up is safe exactly if the first MSI-X capability of the list ends inside of the configuration
space. -/
theorem msix_safe_iff {s : Bus} {dev : PciDevice} : MsixSafe s dev ↔ ∀ ptr, MsixAt s dev ptr → ptr.toNat ≤ 0xF4 := by
  refine ⟨fun h ptr hptr => ?_, msixSafe_of_fits⟩
  by_contra hlate
  obtain ⟨r, s', hrun, -⟩ := h.info
  have hpanic := getMsixInfo_overflow hptr (by omega)
  rw [hrun] at hpanic
  cases hpanic

/-- An MSI-X capability in the last two dwords. -/
def lateBus : Bus := plainBus fun d =>
  if d = 1#6 then 0x00100000#32 else if d = 13#6 then 0xF8#32 else if d = 62#6 then 0x11#32 else 0#32

/-- The offset of its third dword overflows. -/
theorem lateBus_panics : ¬ ∀ (s : Bus) (dev : PciDevice), MsixSafe s dev := by
  intro h
  have hat : MsixAt lateBus ⟨0#8, 4#8, 0#8⟩ 0xF8#8 := by
    refine ⟨by unfold Bus.HasCapabilities; decide, 0, by decide, firstAt_zero.2 ⟨by decide, by decide, by decide⟩⟩
  obtain ⟨r, s', hrun, -⟩ := (h lateBus ⟨0#8, 4#8, 0#8⟩).info
  have hpanic := getMsixInfo_overflow hat (by decide)
  rw [hrun] at hpanic
  cases hpanic

end Octagram.Pci

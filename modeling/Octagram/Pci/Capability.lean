/-
The list of capabilities: `find_capability` and the accesses it makes. On a list whose pointers stay
behind the header it returns the first capability of the kind, or `None` where there is none
(`findCapability_complete`): there are 48 dwords behind the header, so the chain has no more nodes
than that before it ends or comes back, and the loop makes 48 steps. That so many steps are enough
is the counting of `search_complete`.
-/
import Octagram.Lib.Bits
import Octagram.Lib.Search
import Octagram.Pci.Config

namespace Octagram.Pci

open Octagram.Lib

/-- `PCI_STATUS`, whose bit 4 says that there is a capability list. -/
def PCI_STATUS : BitVec 8 := 0x06#8

/-- `PCI_CAPABILITIES_PTR`: where the first capability is. -/
def PCI_CAPABILITIES_PTR : BitVec 8 := 0x34#8

/-- The loop of `find_capability`, with the number of steps that `safety_counter` leaves. -/
def findCapabilityLoop (dev : PciDevice) (capId : BitVec 8) : Nat → BitVec 8 → PciM (Option (BitVec 8))
  | 0, _ => pure none
  | steps + 1, ptr =>
    if ptr = 0#8 then
      pure none
    else do
      let id ← configReadU8 dev.bus dev.device dev.function ptr
      if id = capId then
        pure (some ptr)
      else
        let next ← addU8 ptr 1#8
        let ptr ← configReadU8 dev.bus dev.device dev.function next
        findCapabilityLoop dev capId steps (ptr &&& 0xFC#8)

/-- `find_capability`: `None` at once without the Capabilities List bit of Status. -/
def findCapability (dev : PciDevice) (capId : BitVec 8) : PciM (Option (BitVec 8)) := do
  let status ← configReadU16 dev.bus dev.device dev.function PCI_STATUS
  if status &&& (1#16 <<< 4) = 0#16 then
    pure none
  else
    let ptr ← configReadU8 dev.bus dev.device dev.function PCI_CAPABILITIES_PTR
    findCapabilityLoop dev capId 48 (ptr &&& 0xFC#8)

/-! ## The list -/

namespace Bus

variable (s : Bus) (dev : PciDevice)

/-- Status bit 4: the device has capabilities. -/
def HasCapabilities : Prop := s.word dev PCI_STATUS &&& (1#16 <<< 4) ≠ 0#16

/-- The pointer to the first node, without its two reserved bits. -/
def firstCapability : BitVec 8 := s.byte dev PCI_CAPABILITIES_PTR &&& 0xFC#8

/-- The pointer from a node to the next one. -/
def nextCapability (ptr : BitVec 8) : BitVec 8 := s.byte dev (ptr + 1#8) &&& 0xFC#8

/-- Node `n` of the list, which the pointer 0 ends. -/
def node (n : Nat) : BitVec 8 := (s.nextCapability dev)^[n] (s.firstCapability dev)

/-- Node `n` is before the end of the list. -/
def Listed (n : Nat) : Prop := OnChain (s.nextCapability dev) 0#8 (s.firstCapability dev) n

/-- Node `n` of the list, `ptr`, is the first one with the id. -/
def FirstWithId (capId : BitVec 8) (n : Nat) (ptr : BitVec 8) : Prop :=
  FirstAt (s.nextCapability dev) 0#8 (fun p => s.byte dev p = capId) (s.firstCapability dev) n ptr

end Bus

/-! ## Reads -/

/-- The accesses from one state to the other only read, and `P` holds of where. -/
structure Reads (s s' : Bus) (P : Location → Prop) : Prop where
  registers : s'.registers = s.registers
  log : ∃ new, s'.log = s.log ++ new ∧ ∀ e ∈ new, e.2 = none ∧ P e.1

section Reads

variable {s s' s'' : Bus} {P Q : Location → Prop} {dev : PciDevice}

theorem Reads.refl (s : Bus) (P : Location → Prop) : Reads s s P := ⟨rfl, [], by simp⟩

theorem Reads.trans (h : Reads s s' P) (h' : Reads s' s'' P) : Reads s s'' P := by
  obtain ⟨new, hlog, hnew⟩ := h.log
  obtain ⟨new', hlog', hnew'⟩ := h'.log
  refine ⟨h'.registers.trans h.registers, new ++ new', by rw [hlog', hlog, List.append_assoc], ?_⟩
  simp only [List.mem_append]
  rintro e (he | he)
  · exact hnew e he
  · exact hnew' e he

theorem Reads.mono (h : Reads s s' P) (hpq : ∀ l, P l → Q l) : Reads s s' Q := by
  obtain ⟨new, hlog, hnew⟩ := h.log
  exact ⟨h.registers, new, hlog, fun e he => ⟨(hnew e he).1, hpq _ (hnew e he).2⟩⟩

theorem reads_afterRead (s : Bus) (dev : PciDevice) (offset : BitVec 8) (h : P (dev.place offset)) :
    Reads s (s.afterRead dev offset) P :=
  ⟨rfl, [(dev.place offset, none)], rfl, by simp [h]⟩

/-- What is read does not depend on the accesses before. -/
theorem dword_of_registers (h : s'.registers = s.registers) (offset : BitVec 8) :
    s'.dword dev offset = s.dword dev offset := by
  unfold Bus.dword
  rw [h]

theorem byte_of_registers (h : s'.registers = s.registers) (offset : BitVec 8) :
    s'.byte dev offset = s.byte dev offset := by
  unfold Bus.byte
  rw [dword_of_registers h]

theorem word_of_registers (h : s'.registers = s.registers) (offset : BitVec 8) :
    s'.word dev offset = s.word dev offset := by
  unfold Bus.word
  rw [dword_of_registers h]

theorem nextCapability_of_registers (h : s'.registers = s.registers) :
    s'.nextCapability dev = s.nextCapability dev := by
  funext ptr
  unfold Bus.nextCapability
  rw [byte_of_registers h]

end Reads

/-! ## The search -/

section Search

variable {s : Bus} {dev : PciDevice}

theorem and_fc_toNat (p : BitVec 8) : (p &&& 0xFC#8).toNat = p.toNat / 4 * 4 := and_not_lowMask_toNat p 2

/-- The pointers of the list have their low bits clear. -/
theorem node_aligned (s : Bus) (dev : PciDevice) (n : Nat) : 4 ∣ (s.node dev n).toNat := by
  unfold Bus.node
  cases n with
  | zero =>
    rw [Function.iterate_zero_apply, Bus.firstCapability, and_fc_toNat]
    exact Nat.dvd_mul_left _ _
  | succ n =>
    rw [Function.iterate_succ_apply', Bus.nextCapability, and_fc_toNat]
    exact Nat.dvd_mul_left _ _

/-- The first bytes of a node are in one dword. -/
theorem place_add (dev : PciDevice) {ptr k : BitVec 8} (h : 4 ∣ ptr.toNat) (hk : k.toNat < 4) :
    dev.place (ptr + k) = dev.place ptr := by
  unfold PciDevice.place
  congr 1
  apply BitVec.eq_of_toNat_eq
  have hlt := ptr.isLt
  rw [BitVec.extractLsb'_toNat, BitVec.extractLsb'_toNat, BitVec.toNat_add, Nat.shiftRight_eq_div_pow,
    Nat.shiftRight_eq_div_pow]
  omega

theorem aligned_mask {ptr : BitVec 8} (h : 4 ∣ ptr.toNat) : ptr &&& 3#8 = 0#8 := by
  apply BitVec.eq_of_toNat_eq
  exact (and_lowMask_toNat ptr (show 2 ≤ 8 by decide)).trans (Nat.mod_eq_zero_of_dvd h)

/-- The accesses of the loop: to the nodes of the list, in as many steps. -/
def Walked (s : Bus) (dev : PciDevice) (steps : Nat) (l : Location) : Prop :=
  ∃ m < steps, s.Listed dev m ∧ l = dev.place (s.node dev m)

/-- The loop is the search along the list. -/
theorem findCapabilityLoop_run (s : Bus) (dev : PciDevice) {t : Bus} (ht : t.registers = s.registers)
    (capId : BitVec 8) (steps : Nat) {n : Nat} (hn : ∀ m < n, s.node dev m ≠ 0#8) :
    ∃ t', (findCapabilityLoop dev capId steps (s.node dev n)).run t =
        .ok (search (s.nextCapability dev) 0#8 (fun p => s.byte dev p == capId) steps (s.node dev n), t') ∧
      Reads t t' (Walked s dev (n + steps)) := by
  induction steps generalizing n t with
  | zero => exact ⟨t, rfl, Reads.refl t _⟩
  | succ steps ih =>
    unfold findCapabilityLoop
    rw [search]
    by_cases hz : s.node dev n = 0#8
    · rw [if_pos hz, if_pos hz]
      exact ⟨t, rfl, Reads.refl t _⟩
    have hlisted : s.Listed dev n := fun m hm => by
      rcases Nat.lt_or_eq_of_le hm with hm | rfl
      · exact hn m hm
      · exact hz
    have hwalked : Walked s dev (n + (steps + 1)) (dev.place (s.node dev n)) := ⟨n, by omega, hlisted, rfl⟩
    have halign := node_aligned s dev n
    have hread := reads_afterRead t dev _ hwalked
    rw [if_neg hz, if_neg hz, stateT_bind_ok (configReadU8_run t dev _), byte_of_registers ht]
    by_cases hid : s.byte dev (s.node dev n) = capId
    · rw [if_pos hid, if_pos (beq_iff_eq.2 hid)]
      exact ⟨_, rfl, hread⟩
    · -- the pointer of the node, which is in the dword of its id
      have hlt := (s.node dev n).isLt
      rw [if_neg hid, if_neg (by simpa using hid), stateT_bind_ok (addU8_ok (by show _ + 1 < _; omega) _),
        stateT_bind_ok (configReadU8_run _ dev _), byte_of_registers (hread.registers.trans ht)]
      have hplace : dev.place (s.node dev n + 1#8) = dev.place (s.node dev n) := place_add dev halign (by decide)
      have hread₂ := hread.trans (reads_afterRead (t.afterRead dev (s.node dev n)) dev _ (hplace.symm ▸ hwalked))
      have hnext : s.nextCapability dev (s.node dev n) = s.node dev (n + 1) := (Function.iterate_succ_apply' ..).symm
      rw [hnext]
      obtain ⟨t', hrun, hr⟩ := ih (hread₂.registers.trans ht) (n := n + 1) fun m hm => hlisted m (by omega)
      refine ⟨t', ?_, hread₂.trans (hr.mono fun l hl => ?_)⟩
      · rw [← hrun, ← hnext]
        rfl
      · obtain ⟨m, hm, hl⟩ := hl
        exact ⟨m, by omega, hl⟩

/-- The accesses of `find_capability`: the status, the pointer to the list, and its nodes. -/
def SearchAccess (s : Bus) (dev : PciDevice) (l : Location) : Prop :=
  l = dev.place PCI_STATUS ∨ l = dev.place PCI_CAPABILITIES_PTR ∨ Walked s dev 48 l

/-- `find_capability` is the search along the list, if the device has one. -/
theorem findCapability_run (s : Bus) (dev : PciDevice) (capId : BitVec 8) : ∃ r s',
    (findCapability dev capId).run s = .ok (r, s') ∧ Reads s s' (SearchAccess s dev) ∧
      ((¬ s.HasCapabilities dev ∧ r = none) ∨ (s.HasCapabilities dev ∧
        r = search (s.nextCapability dev) 0#8 (fun p => s.byte dev p == capId) 48 (s.firstCapability dev))) := by
  have hread := reads_afterRead (P := SearchAccess s dev) s dev PCI_STATUS (.inl rfl)
  unfold findCapability
  rw [stateT_bind_ok (configReadU16_run s dev _)]
  by_cases hc : s.word dev PCI_STATUS &&& (1#16 <<< 4) = 0#16
  · rw [if_pos hc]
    exact ⟨none, _, rfl, hread, .inl ⟨fun h => h hc, rfl⟩⟩
  · rw [if_neg hc, stateT_bind_ok (configReadU8_run _ dev _)]
    have hread₂ := hread.trans (reads_afterRead (s.afterRead dev PCI_STATUS) dev PCI_CAPABILITIES_PTR (.inr (.inl rfl)))
    obtain ⟨s', hrun, hr⟩ := findCapabilityLoop_run s dev hread₂.registers capId 48 (n := 0)
      fun m hm => absurd hm (Nat.not_lt_zero m)
    rw [Nat.zero_add] at hr
    exact ⟨_, s', hrun, hread₂.trans (hr.mono fun l hl => .inr (.inr hl)), .inr ⟨hc, rfl⟩⟩

/-! ## Completeness -/

/-- The pointers of the list are to the device-specific part, from 0x40 on. -/
def WellLinked (s : Bus) (dev : PciDevice) : Prop := ∀ n, s.Listed dev n → 0x40 ≤ (s.node dev n).toNat

/-- The places of a node from 0x40 on. -/
def nodePlaces : Finset (BitVec 8) := (Finset.range 48).image fun i => BitVec.ofNat 8 (0x40 + 4 * i)

theorem nodePlaces_card : nodePlaces.card ≤ 48 := Finset.card_image_le

theorem WellLinked.mem_places (h : WellLinked s dev) (n : Nat) (hn : s.Listed dev n) : s.node dev n ∈ nodePlaces := by
  have hlow := h n hn
  have halign := node_aligned s dev n
  have hlt := (s.node dev n).isLt
  refine Finset.mem_image.2 ⟨((s.node dev n).toNat - 0x40) / 4, Finset.mem_range.2 (by omega), ?_⟩
  apply BitVec.eq_of_toNat_eq
  rw [BitVec.toNat_ofNat]
  omega

end Search

/-- Where the pointers of the list are 0 or at least 0x40, `find_capability` finds the first node with the
id, if there is one: no list is too long for 48 steps. -/
theorem findCapability_complete {s : Bus} {dev : PciDevice} (h : WellLinked s dev) (capId : BitVec 8) : ∃ r s',
    (findCapability dev capId).run s = .ok (r, s') ∧ (¬ s.HasCapabilities dev → r = none) ∧
      (s.HasCapabilities dev → ∀ ptr, r = some ptr ↔ ∃ n, s.FirstWithId dev capId n ptr) ∧
      ∀ n, s.Listed dev n → ∃ m < 48, s.Listed dev m ∧ s.node dev m = s.node dev n := by
  obtain ⟨r, s', hrun, -, hr⟩ := findCapability_run s dev capId
  refine ⟨r, s', hrun, fun hc => ?_, fun hc ptr => ?_, fun n hn => ?_⟩
  · rcases hr with ⟨-, hr⟩ | ⟨hc', -⟩
    · exact hr
    · exact absurd hc' hc
  · rcases hr with ⟨hc', -⟩ | ⟨-, rfl⟩
    · exact absurd hc hc'
    · rw [search_complete h.mem_places nodePlaces_card]
      unfold Bus.FirstWithId
      simp only [beq_iff_eq]
  · obtain ⟨m, hm, hl, he⟩ := OnChain.early h.mem_places hn
    exact ⟨m, Nat.lt_of_lt_of_le hm nodePlaces_card, hl, he⟩

/-- A configuration space of plain registers, the same for every function. -/
def plainBus (value : BitVec 6 → BitVec 32) : Bus := ⟨0#32, fun l => ⟨value l.dword, 0xFFFFFFFF#32, 0#32⟩, []⟩

theorem plainBus_byte (value : BitVec 6 → BitVec 32) (dev : PciDevice) (offset : BitVec 8) :
    (plainBus value).byte dev offset =
    (((value (offset.extractLsb' 2 6)) >>> ((offset &&& 3#8) * 8#8).toNat) &&& 0xFF#32).setWidth 8 := rfl

/-- Two nodes in a ring, MSI at 0x40 and MSI-X at 0x48. -/
def ringBus : Bus := plainBus fun d =>
  if d = 1#6 then 0x00100000#32 else if d = 13#6 then 0x40#32 else if d = 16#6 then 0x4805#32
  else if d = 18#6 then 0x4011#32 else 0#32

theorem ringBus_linked (dev : PciDevice) : WellLinked ringBus dev := by
  have hfirst : ringBus.firstCapability dev = 0x40#8 := by
    unfold Bus.firstCapability ringBus
    rw [plainBus_byte]
    decide
  have hnext : ringBus.nextCapability dev 0x40#8 = 0x48#8 ∧ ringBus.nextCapability dev 0x48#8 = 0x40#8 := by
    unfold Bus.nextCapability ringBus
    rw [plainBus_byte, plainBus_byte]
    decide
  -- two nodes that point to each other: the list goes round for ever, and is well linked
  have hnodes : ∀ n, ringBus.node dev n = 0x40#8 ∨ ringBus.node dev n = 0x48#8 := by
    intro n
    unfold Bus.node
    induction n with
    | zero => exact .inl hfirst
    | succ n ih =>
      rw [Function.iterate_succ_apply']
      rcases ih with ih | ih
      · rw [ih]
        exact .inr hnext.1
      · rw [ih]
        exact .inl hnext.2
  intro n _
  rcases hnodes n with h | h
  · rw [h]
    decide
  · rw [h]
    decide

/-- `findCapability_complete` for the ring, which has no capability of id 0x10. -/
theorem findCapability_complete_ring : ∃ r s',
    (findCapability ⟨0#8, 4#8, 0#8⟩ 0x10#8).run ringBus = .ok (r, s') ∧
      (¬ ringBus.HasCapabilities ⟨0#8, 4#8, 0#8⟩ → r = none) ∧
      (ringBus.HasCapabilities ⟨0#8, 4#8, 0#8⟩ →
        ∀ ptr, r = some ptr ↔ ∃ n, ringBus.FirstWithId ⟨0#8, 4#8, 0#8⟩ 0x10#8 n ptr) ∧
      ∀ n, ringBus.Listed ⟨0#8, 4#8, 0#8⟩ n →
        ∃ m < 48, ringBus.Listed ⟨0#8, 4#8, 0#8⟩ m ∧ ringBus.node ⟨0#8, 4#8, 0#8⟩ m = ringBus.node ⟨0#8, 4#8, 0#8⟩ n :=
  findCapability_complete (ringBus_linked _) 0x10#8

end Octagram.Pci

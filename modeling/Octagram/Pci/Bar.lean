/-
`get_bar0` and `get_bar0_size`: where BAR 0 is, and how large, found out by a probe that writes ones
and puts every register back (`bar0_sized`). The size is read off the bits that stay 0 under the
probe: `low_readback` and `high_readback` say what comes back of a BAR of `2 ^ k` bytes, and
`highMask_address` that the complement plus one is the size, over one dword or two.
-/
import Octagram.Lib.Bits
import Octagram.Pci.Config

namespace Octagram.Pci

open Octagram.Lib

/-- `PCI_BAR0`: the offset of the first of the six BARs. -/
def PCI_BAR0 : BitVec 8 := 0x10#8

/-- `BarInfo`: what `get_bar0` makes of the register. -/
structure BarInfo where
  address : BitVec 64
  is64bit : Bool
  isPrefetchable : Bool

/-- `get_bar0` -/
def getBar0 (dev : PciDevice) : PciM BarInfo := do
  let bar0 ← configReadU32 dev.bus dev.device dev.function PCI_BAR0
  if bar0 &&& 0x1#32 = 0#32 then
    let barType := (bar0 >>> 1) &&& 0x3#32
    let isPrefetchable := (bar0 >>> 3) &&& 0x1#32 == 1#32
    let is64bit := barType == 0x2#32
    let baseLow := (bar0 &&& 0xFFFFFFF0#32).setWidth 64
    if is64bit then
      let bar1 ← configReadU32 dev.bus dev.device dev.function (PCI_BAR0 + 4#8)
      pure ⟨bar1.setWidth 64 <<< 32 ||| baseLow, is64bit, isPrefetchable⟩
    else
      pure ⟨baseLow, is64bit, isPrefetchable⟩
  else
    throw "BAR0 bukan memory-mapped BAR (ini I/O BAR)"

/-- Write ones to a register, read it back, and put the old value back. -/
def probe (dev : PciDevice) (offset : BitVec 8) (original : BitVec 32) : PciM (BitVec 32) := do
  configWriteU32 dev.bus dev.device dev.function offset 0xFFFFFFFF#32
  let readback ← configReadU32 dev.bus dev.device dev.function offset
  configWriteU32 dev.bus dev.device dev.function offset original
  pure readback

/-- `get_bar0_size`: for a 64-bit BAR both dwords are probed. -/
def getBar0Size (dev : PciDevice) : PciM (BitVec 64) := do
  let original ← configReadU32 dev.bus dev.device dev.function PCI_BAR0
  let readback ← probe dev PCI_BAR0 original
  let is64bit := (original >>> 1) &&& 0x3#32 == 0x2#32
  let mask := readback &&& 0xFFFFFFF0#32
  if is64bit then
    let originalHi ← configReadU32 dev.bus dev.device dev.function (PCI_BAR0 + 4#8)
    let readbackHi ← probe dev (PCI_BAR0 + 4#8) originalHi
    let fullMask := readbackHi.setWidth 64 <<< 32 ||| mask.setWidth 64
    pure (~~~fullMask + 1#64)
  else
    pure (((~~~mask.setWidth 64).setWidth 32 + 1#32).setWidth 64)

/-! ## Memory BARs -/

/-- The base of memory BAR `n`, which of 64 bits takes two registers. -/
def Bus.barBase (s : Bus) (dev : PciDevice) (n : BitVec 8) : BitVec 64 :=
  let low := s.dword dev (PCI_BAR0 + 4#8 * n)
  if (low >>> 1) &&& 0x3#32 = 0x2#32 then
    (s.dword dev (PCI_BAR0 + 4#8 * n + 4#8)).setWidth 64 <<< 32 ||| (low &&& 0xFFFFFFF0#32).setWidth 64
  else
    (low &&& 0xFFFFFFF0#32).setWidth 64

theorem barBase_of_registers {s s' : Bus} {dev : PciDevice} (h : s'.registers = s.registers) (n : BitVec 8) :
    s'.barBase dev n = s.barBase dev n := by
  unfold Bus.barBase Bus.dword
  rw [h]

/-- `get_bar0` returns the base of BAR 0. -/
theorem getBar0_address {s s' : Bus} {dev : PciDevice} {bar : BarInfo} (h : (getBar0 dev).run s = .ok (bar, s')) :
    bar.address = s.barBase dev 0#8 ∧ s'.registers = s.registers := by
  have hbar0 : PCI_BAR0 + 4#8 * 0#8 = PCI_BAR0 := rfl
  unfold Bus.barBase
  rw [hbar0]
  unfold getBar0 at h
  rw [stateT_bind_ok (configReadU32_run s dev _)] at h
  by_cases hio : s.dword dev PCI_BAR0 &&& 0x1#32 = 0#32
  · rw [if_pos hio] at h
    by_cases ht : (s.dword dev PCI_BAR0 >>> 1) &&& 0x3#32 = 0x2#32
    · simp only [ht, BEq.rfl, if_true] at h ⊢
      rw [stateT_bind_ok (configReadU32_run _ dev _)] at h
      cases h
      exact ⟨rfl, rfl⟩
    · simp only [beq_eq_false_iff_ne.2 ht, Bool.false_eq_true, if_false, ht] at h ⊢
      cases h
      exact ⟨rfl, rfl⟩
  · rw [if_neg hio] at h
    cases h

/-- The read-only bits 1 to 3 of a memory BAR. -/
def barFlags (barType : BitVec 2) (prefetchable : Bool) : BitVec 32 :=
  barType.setWidth 32 <<< 1 ||| (BitVec.ofBool prefetchable).setWidth 32 <<< 3

/-- BAR 0 is a memory BAR of size `2 ^ k` at `base`: of its bits a write sets those of the address from `k`
on, the others are the flags and 0. Type 2 is a BAR of 64 bits, whose upper half is in the next register. -/
structure MemoryBar (s : Bus) (dev : PciDevice) (k : Nat) (base : BitVec 64) (barType : BitVec 2)
    (prefetchable : Bool) : Prop where
  small : 4 ≤ k
  large : k ≤ if barType = 2#2 then 63 else 31
  aligned : 2 ^ k ∣ base.toNat
  fits : barType ≠ 2#2 → base.toNat < 2 ^ 32
  low : s.registers (dev.place PCI_BAR0) =
    ⟨base.setWidth 32 ||| barFlags barType prefetchable, (highMask 64 k).setWidth 32, 0#32⟩
  high : barType = 2#2 → s.registers (dev.place (PCI_BAR0 + 4#8)) =
    ⟨(base >>> 32).setWidth 32, (highMask 64 k >>> 32).setWidth 32, 0#32⟩

section Bar

variable {s : Bus} {dev : PciDevice} {k : Nat} {base : BitVec 64} {barType : BitVec 2} {prefetchable : Bool}

/-- Without bits that a write clears, a register takes its old value back. -/
theorem write_back {r : Register} (h : r.clearable = 0#32) (v : BitVec 32) : (r.write v).write r.value = r := by
  obtain ⟨value, writable, clearable⟩ := r
  cases h
  unfold Register.write
  congr 1
  ext i hi
  simp only [BitVec.getElem_or, BitVec.getElem_and, BitVec.getElem_not]
  cases writable[i] <;> simp

/-- A probe reads what the register makes of ones, and leaves all registers as they were. -/
theorem probe_run (s : Bus) (dev : PciDevice) (offset : BitVec 8)
    (h : (s.registers (dev.place offset)).clearable = 0#32) :
    ∃ s', (probe dev offset (s.dword dev offset)).run s =
      .ok (((s.registers (dev.place offset)).write 0xFFFFFFFF#32).value, s') ∧
      s'.registers = s.registers := by
  refine ⟨((s.afterWrite dev offset 0xFFFFFFFF#32).afterRead dev offset).afterWrite dev offset (s.dword dev offset),
    ?_, ?_⟩
  · unfold probe
    rw [stateT_bind_ok (configWriteU32_run s dev offset _), stateT_bind_ok (configReadU32_run _ dev offset),
      stateT_bind_ok (configWriteU32_run _ dev offset _)]
    rw [Bus.afterWrite_dword]
    rfl
  · simp only [Bus.afterWrite_registers, Bus.afterRead_registers, Function.update_self, Function.update_idem]
    unfold Bus.dword
    rw [write_back h, Function.update_eq_self]

/-! ## The fields of a BAR -/

theorem barFlags_fields :
    ∀ (t : BitVec 2) (p : Bool), barFlags t p &&& 0xF#32 = barFlags t p ∧ barFlags t p &&& 0x1#32 = 0#32 ∧
    (barFlags t p >>> 1) &&& 0x3#32 = t.setWidth 32 ∧ (barFlags t p >>> 3) &&& 0x1#32 = (BitVec.ofBool p).setWidth 32 ∧
    barFlags t p &&& 0xFFFFFFF0#32 = 0#32 := by
  decide

theorem type_eq_iff : ∀ t : BitVec 2, (t.setWidth 32 == 0x2#32) = decide (t = 2#2) := by
  decide

theorem prefetch_eq (p : Bool) : ((BitVec.ofBool p).setWidth 32 == 1#32) = p := by
  cases p <;> rfl

/-- The flags are the low four bits of a BAR, the base is the others. -/
theorem bar_fields {b : BitVec 32} (hb : b &&& 0xF#32 = 0#32) (t : BitVec 2) (p : Bool) :
    (b ||| barFlags t p) &&& 0x1#32 = 0#32 ∧ ((b ||| barFlags t p) >>> 1) &&& 0x3#32 = t.setWidth 32 ∧
      ((b ||| barFlags t p) >>> 3) &&& 0x1#32 = (BitVec.ofBool p).setWidth 32 ∧
        (b ||| barFlags t p) &&& 0xFFFFFFF0#32 = b := by
  obtain ⟨hf, h1, h2, h3, h4⟩ := barFlags_fields t p
  have hlow : (b ||| barFlags t p) &&& 0xF#32 = barFlags t p := by
    rw [BitVec.and_comm, BitVec.and_or_distrib_left, BitVec.and_comm, hb, BitVec.and_comm, hf, BitVec.zero_or]
  have hshift : ∀ (v : BitVec 32) (n : Nat), (v >>> n) &&& (0xF#32 >>> n) = (v &&& 0xF#32) >>> n := fun v n =>
    (BitVec.ushiftRight_and_distrib v 0xF#32 n).symm
  refine ⟨?_, ?_, ?_, ?_⟩
  · rw [show (0x1#32 : BitVec 32) = 0xF#32 &&& 0x1#32 from rfl, ← BitVec.and_assoc, hlow, h1]
  · rw [show (0x3#32 : BitVec 32) = (0xF#32 >>> 1) &&& 0x3#32 from rfl, ← BitVec.and_assoc, hshift, hlow, h2]
  · rw [show (0x1#32 : BitVec 32) = (0xF#32 >>> 3) &&& 0x1#32 from rfl, ← BitVec.and_assoc, hshift, hlow, h3]
  · have hbase : b &&& 0xFFFFFFF0#32 = b := by
      calc b &&& 0xFFFFFFF0#32 = (b &&& 0xF#32) ||| (b &&& 0xFFFFFFF0#32) := by rw [hb, BitVec.zero_or]
        _ = b &&& BitVec.allOnes 32 := by rw [← BitVec.and_or_distrib_left]; rfl
        _ = b := BitVec.and_allOnes
    rw [BitVec.and_comm, BitVec.and_or_distrib_left, BitVec.and_comm, hbase, BitVec.and_comm, h4, BitVec.or_zero]

/-- A write of ones reads back as the bits that it sets, beside what the others are. -/
theorem readback {v w : BitVec 32} : (Register.write ⟨v, w, 0#32⟩ 0xFFFFFFFF#32).value = w ||| (v &&& ~~~w) := by
  unfold Register.write
  rw [BitVec.and_zero, BitVec.not_zero, BitVec.and_allOnes, show (0xFFFFFFFF#32 : BitVec 32) =
    BitVec.allOnes 32 from rfl, BitVec.allOnes_and]

section Halves

/-- The lower half of an aligned address has no bits among those that a write leaves. -/
theorem low_half (h : 2 ^ k ∣ base.toNat) : base.setWidth 32 &&& ~~~(highMask 64 k).setWidth 32 = 0#32 := by
  apply BitVec.eq_of_getLsbD_eq
  intro i hi
  have hbit : ¬ k ≤ i → base.getLsbD i = false := fun hk => getLsbD_of_dvd h (Nat.lt_of_not_le hk)
  by_cases hk : k ≤ i
  · simp [hi, hk, show i < 64 by omega]
  · simp [hbit hk]

/-- Nor has the upper one. -/
theorem high_half (h : 2 ^ k ∣ base.toNat) :
    (base >>> 32).setWidth 32 &&& ~~~(highMask 64 k >>> 32).setWidth 32 = 0#32 := by
  apply BitVec.eq_of_getLsbD_eq
  intro i hi
  have hbit : ¬ k ≤ 32 + i → base.getLsbD (32 + i) = false := fun hk => getLsbD_of_dvd h (Nat.lt_of_not_le hk)
  by_cases hk : k ≤ 32 + i
  · simp [hi, hk, show 32 + i < 64 by omega]
  · simp [hbit hk]

/-- A word is put together from its halves. -/
theorem halves (x : BitVec 64) : ((x >>> 32).setWidth 32).setWidth 64 <<< 32 ||| (x.setWidth 32).setWidth 64 = x := by
  apply BitVec.eq_of_getLsbD_eq
  intro i hi
  by_cases h : i < 32
  · simp [h, hi]
  · simp [h, hi, show i - 32 < 32 by omega, show 32 + (i - 32) = i by omega]

/-- The bits of an address are above the flags. -/
theorem highMask_address (h : 4 ≤ k) : (highMask 64 k).setWidth 32 &&& 0xFFFFFFF0#32 = (highMask 64 k).setWidth 32 := by
  have hmask : (0xFFFFFFF0#32 : BitVec 32) = highMask 32 4 := rfl
  rw [hmask]
  apply BitVec.eq_of_getLsbD_eq
  intro i hi
  by_cases hk : k ≤ i
  · simp [hi, hk, show 4 ≤ i by omega]
  · simp [hk]

theorem aligned_low (h : MemoryBar s dev k base barType prefetchable) : base.setWidth 32 &&& 0xF#32 = 0#32 := by
  have hdvd : 2 ^ 4 ∣ base.toNat := Nat.dvd_trans (Nat.pow_dvd_pow 2 h.small) h.aligned
  exact low_half hdvd

end Halves

/-! ## Reading and sizing -/

variable (h : MemoryBar s dev k base barType prefetchable)

include h

/-- `get_bar0` finds the base and the flags. -/
theorem getBar0_run : ∃ s', (getBar0 dev).run s = .ok (⟨base, decide (barType = 2#2), prefetchable⟩, s') ∧
    s'.registers = s.registers := by
  obtain ⟨h1, h2, h3, h4⟩ := bar_fields (aligned_low h) barType prefetchable
  have hlow : s.dword dev PCI_BAR0 = base.setWidth 32 ||| barFlags barType prefetchable := congrArg Register.value h.low
  unfold getBar0
  rw [stateT_bind_ok (configReadU32_run s dev _), hlow, if_pos h1]
  simp only [h2, h3, h4, type_eq_iff, prefetch_eq]
  by_cases ht : barType = 2#2
  · have hhigh : s.dword dev (PCI_BAR0 + 4#8) = (base >>> 32).setWidth 32 := congrArg Register.value (h.high ht)
    rw [if_pos (decide_eq_true ht), stateT_bind_ok (configReadU32_run _ dev _), Bus.afterRead_dword, hhigh, halves]
    exact ⟨_, rfl, rfl⟩
  · have hbase : (base.setWidth 32).setWidth 64 = base := by
      apply BitVec.eq_of_toNat_eq
      have := h.fits ht
      rw [BitVec.toNat_setWidth, BitVec.toNat_setWidth, Nat.mod_eq_of_lt this, Nat.mod_eq_of_lt (by omega)]
    rw [if_neg (by simpa using ht), hbase]
    exact ⟨_, rfl, rfl⟩

/-- What the lower probe reads, without the flags. -/
theorem low_readback : ((s.registers (dev.place PCI_BAR0)).write 0xFFFFFFFF#32).value &&& 0xFFFFFFF0#32 =
    (highMask 64 k).setWidth 32 := by
  obtain ⟨-, -, -, -, h4⟩ := barFlags_fields barType prefetchable
  rw [h.low, readback, BitVec.and_comm (_ ||| _) (~~~_), BitVec.and_or_distrib_left,
    BitVec.and_comm (~~~_) (base.setWidth 32),
    low_half h.aligned, BitVec.zero_or, BitVec.and_comm _ 0xFFFFFFF0#32, BitVec.and_or_distrib_left,
    BitVec.and_comm 0xFFFFFFF0#32, highMask_address h.small, BitVec.and_comm 0xFFFFFFF0#32, BitVec.and_assoc, h4,
    BitVec.and_zero, BitVec.or_zero]

theorem high_readback (ht : barType = 2#2) :
    ((s.registers (dev.place (PCI_BAR0 + 4#8))).write 0xFFFFFFFF#32).value = (highMask 64 k >>> 32).setWidth 32 := by
  rw [h.high ht, readback, high_half h.aligned, BitVec.or_zero]

theorem getBar0Size_run :
    ∃ s', (getBar0Size dev).run s = .ok (BitVec.ofNat 64 (2 ^ k), s') ∧ s'.registers = s.registers := by
  obtain ⟨-, h2, -, -⟩ := bar_fields (aligned_low h) barType prefetchable
  have hlow : s.dword dev PCI_BAR0 = base.setWidth 32 ||| barFlags barType prefetchable := congrArg Register.value h.low
  obtain ⟨s₁, hs₁, hr₁⟩ := probe_run (s.afterRead dev PCI_BAR0) dev PCI_BAR0 (by rw [Bus.afterRead_registers, h.low])
  rw [Bus.afterRead_dword, Bus.afterRead_registers, hlow] at hs₁
  have hlarge := h.large
  unfold getBar0Size
  rw [stateT_bind_ok (configReadU32_run s dev _), hlow, stateT_bind_ok hs₁]
  simp only [h2, type_eq_iff, low_readback h]
  -- a 64-bit BAR has its upper half in the next register, and is sized by two probes
  by_cases ht : barType = 2#2
  · rw [if_pos (decide_eq_true ht), stateT_bind_ok (configReadU32_run _ dev _)]
    have hregs : (s₁.afterRead dev (PCI_BAR0 + 4#8)).registers = s.registers := hr₁
    obtain ⟨s₂, hs₂, hr₂⟩ :=
      probe_run (s₁.afterRead dev (PCI_BAR0 + 4#8)) dev (PCI_BAR0 + 4#8) (by rw [hregs, h.high ht])
    rw [Bus.afterRead_dword, hregs] at hs₂
    rw [stateT_bind_ok hs₂, high_readback h ht, halves, not_highMask_add_one]
    exact ⟨s₂, rfl, hr₂.trans hregs⟩
  · rw [if_neg (by simpa using ht)]
    rw [if_neg ht] at hlarge
    have hnot : (~~~((highMask 64 k).setWidth 32).setWidth 64).setWidth 32 = ~~~highMask 32 k := by
      apply BitVec.eq_of_getLsbD_eq
      intro i hi
      simp only [BitVec.getLsbD_setWidth, BitVec.getLsbD_not, getLsbD_highMask]
      simp [hi, show i < 64 by omega]
    rw [hnot, not_highMask_add_one]
    have hpow : 2 ^ k < 2 ^ 32 := Nat.pow_lt_pow_right (by decide) (by omega)
    have hsize : (BitVec.ofNat 32 (2 ^ k)).setWidth 64 = BitVec.ofNat 64 (2 ^ k) := by
      apply BitVec.eq_of_toNat_eq
      rw [BitVec.toNat_setWidth, BitVec.toNat_ofNat, BitVec.toNat_ofNat, Nat.mod_eq_of_lt hpow]
    rw [hsize]
    exact ⟨s₁, rfl, hr₁.trans (Bus.afterRead_registers ..)⟩

omit h in
theorem MemoryBar.of_registers {s' : Bus} (h : MemoryBar s dev k base barType prefetchable)
    (hr : s'.registers = s.registers) : MemoryBar s' dev k base barType prefetchable :=
  ⟨h.small, h.large, h.aligned, h.fits, by rw [hr]; exact h.low, by rw [hr]; exact h.high⟩

end Bar

/-- `get_bar0_size` returns the size and leaves every register as it was, and `get_bar0` returns the base
before and after. -/
theorem bar0_sized {s : Bus} {dev : PciDevice} {k : Nat} {base : BitVec 64} {barType : BitVec 2} {prefetchable : Bool}
    (h : MemoryBar s dev k base barType prefetchable) :
    ∃ s₁ s₂ s₃ info, (getBar0 dev).run s = .ok (info, s₁) ∧ info.address = base ∧
      (getBar0Size dev).run s₁ = .ok (BitVec.ofNat 64 (2 ^ k), s₂) ∧ (∀ l, s₂.registers l = s₁.registers l) ∧
      (∀ l, s₁.registers l = s.registers l) ∧ (getBar0 dev).run s₂ = .ok (info, s₃) := by
  obtain ⟨s₁, h₁, hr₁⟩ := getBar0_run h
  have hbar₁ := h.of_registers hr₁
  obtain ⟨s₂, h₂, hr₂⟩ := getBar0Size_run hbar₁
  obtain ⟨s₃, h₃, -⟩ := getBar0_run (hbar₁.of_registers hr₂)
  exact ⟨s₁, s₂, s₃, _, h₁, rfl, h₂, fun l => congrFun hr₂ l, fun l => congrFun hr₁ l, h₃⟩

/-- `bar0_sized` for a prefetchable BAR of 64 bits and 8 GiB at 16 GiB. -/
theorem bar0_sized_64bit : ∃ (s s₁ s₂ s₃ : Bus) (info : BarInfo),
    (getBar0 ⟨0#8, 4#8, 0#8⟩).run s = .ok (info, s₁) ∧ info.address = 0x400000000#64 ∧
      (getBar0Size ⟨0#8, 4#8, 0#8⟩).run s₁ = .ok (BitVec.ofNat 64 (2 ^ 33), s₂) ∧
      (∀ l, s₂.registers l = s₁.registers l) ∧
      (∀ l, s₁.registers l = s.registers l) ∧ (getBar0 ⟨0#8, 4#8, 0#8⟩).run s₂ = .ok (info, s₃) := by
  let low : Register := ⟨0xC#32, 0#32, 0#32⟩
  let high : Register := ⟨0x4#32, 0xFFFFFFFE#32, 0#32⟩
  let s : Bus := ⟨0#32, fun l => if l.dword = 4#6 then low else high, []⟩
  have h : MemoryBar s ⟨0#8, 4#8, 0#8⟩ 33 0x400000000#64 2#2 true :=
    ⟨by decide, by decide, by decide, fun h => absurd rfl h, by decide, fun _ => by decide⟩
  exact ⟨s, bar0_sized h⟩

end Octagram.Pci

/-
`XHCI::setup_msix`: entry 0 of the MSI-X table, written at `virt_base` plus the table's offset,
whatever BAR the table is in. Where it returned true, the entry of the table was written exactly if
the table's BAR starts where the pages of BAR 0 do that `XHCI::new` mapped, and the entry is in
these pages (`setupMsix_writes_iff`). What the run did is `SetUp`, read off its stores; where the
stores end is a matter of the page tables, which `newController_pages` takes from `Registers`.
-/
import Octagram.Pci.Bar
import Octagram.Pci.Msix
import Octagram.Usb.Registers

namespace Octagram.Usb

open Octagram.Lib Octagram.Memory Octagram.Pci

/-- A store to device registers: the address it was made at, and the physical one. -/
structure MmioStore where
  virt : BitVec 64
  phys : BitVec 64
  value : BitVec 32

/-- The memory state, the configuration registers, and the stores to device registers so far. -/
structure Platform where
  mem : Mem
  bus : Bus
  stores : List MmioStore

/-- Functions that work on the platform; the error is the message of a panic. -/
abbrev PlatformM := StateT Platform (Except String)

/-- A function of the memory. -/
def onMem {α : Type} (x : MemM α) : PlatformM α := fun p => (x.run p.mem).map fun r => (r.1, { p with mem := r.2 })

/-- A function of `pci.rs`. -/
def onBus {α : Type} (x : PciM α) : PlatformM α := fun p => (x.run p.bus).map fun r => (r.1, { p with bus := r.2 })

/-- `XHCI::new`, with `virt_base` for its result. -/
def newController (bar : BarInfo) (dev : PciDevice) : PlatformM (BitVec 64) := do
  let barSize ← onBus (getBar0Size dev)
  onMem (xhciNew bar.address barSize)

section Setup

variable (walk : Mem → BitVec 64 → Option (BitVec 64))

/-- `write_volatile` of a `u32`, to where the processor's walk through the page tables ends. -/
def writeVolatile (virt : BitVec 64) (value : BitVec 32) : PlatformM Unit := fun p =>
  match walk p.mem virt with
  | some phys => .ok ((), { p with stores := p.stores ++ [⟨virt, phys, value⟩] })
  | none => .error "page fault"

/-- `setup_msix` -/
def setupMsix (virtBase : BitVec 64) (dev : PciDevice) (vector apicId : BitVec 8) : PlatformM Bool := do
  match ← onBus (getMsixInfo dev) with
  | none => pure false
  | some info =>
    let tableAddr ← onMem (addU64 virtBase (info.tableOffset.setWidth 64))
    let msgAddr := 0xFEE00000#32 ||| (apicId.setWidth 32 <<< 12)
    let msgData := vector.setWidth 32
    writeVolatile walk tableAddr msgAddr
    writeVolatile walk (← onMem (addU64 tableAddr 4#64)) 0#32
    writeVolatile walk (← onMem (addU64 tableAddr 8#64)) msgData
    writeVolatile walk (← onMem (addU64 tableAddr 12#64)) 0#32
    onBus (setMsixEnable dev info.capOffset true)
    pure true

end Setup

/-! ## What was written -/

/-- The words of an entry: the address, its upper half, the data and the vector control. -/
def msixEntry (vector apicId : BitVec 8) : List (BitVec 32) :=
  [0xFEE00000#32 ||| (apicId.setWidth 32 <<< 12), 0#32, vector.setWidth 32, 0#32]

/-- Entry 0 of the table, by the rule of PCI. -/
def tableEntry (s : Bus) (dev : PciDevice) (info : MsixInfo) : BitVec 64 :=
  s.barBase dev info.tableBar + info.tableOffset.setWidth 64

/-- The words of the entry were stored to the entry, through the pages that `XHCI::new` mapped, no other
register was written, and MSI-X is enabled and not masked. -/
structure EntryWritten (p p' : Platform) (dev : PciDevice) (info : MsixInfo) (virtBase : BitVec 64) (pages : Nat)
    (vector apicId : BitVec 8) : Prop where
  entry : ∃ new, p'.stores = p.stores ++ new ∧
    new.map (fun w => (w.phys, w.value)) = ((msixEntry vector apicId).mapIdx fun i value =>
      (tableEntry p.bus dev info + BitVec.ofNat 64 (4 * i), value)) ∧
    ∀ w ∈ new, virtBase.toNat ≤ w.virt.toNat ∧ w.virt.toNat + 4 ≤ virtBase.toNat + pages * 4096
  registers : ∀ l, l ≠ dev.place info.capOffset → p'.bus.registers l = p.bus.registers l
  writes : ∃ new, p'.bus.log = p.bus.log ++ new ∧ ∀ e ∈ new, e.2 ≠ none → e.1 = dev.place info.capOffset
  control : ∀ i < 32, (p'.bus.dword dev info.capOffset).getLsbD i =
    if i = 31 then true else if i = 30 then false else (p.bus.dword dev info.capOffset).getLsbD i

/-- The dword of Message Control, whose bits for the enable and the mask can be written, and of which a write
clears none. -/
structure ControlWritable (r : Register) : Prop where
  enable : r.writable.getLsbD 31 = true
  mask : r.writable.getLsbD 30 = true
  kept : r.clearable = 0#32

section Runs

variable {walk : Mem → BitVec 64 → Option (BitVec 64)} {p p' : Platform} {dev : PciDevice} {α : Type}

theorem onMem_ok {x : MemM α} {a : α} {m : Mem} (h : x.run p.mem = .ok (a, m)) :
    (onMem x).run p = .ok (a, { p with mem := m }) := by
  show Except.map _ (x.run p.mem) = _
  rw [h]
  rfl

theorem onBus_ok {x : PciM α} {a : α} {b : Bus} (h : x.run p.bus = .ok (a, b)) :
    (onBus x).run p = .ok (a, { p with bus := b }) := by
  show Except.map _ (x.run p.bus) = _
  rw [h]
  rfl

theorem onMem_eq_ok {x : MemM α} {a : α} (h : (onMem x).run p = .ok (a, p')) :
    ∃ m, x.run p.mem = .ok (a, m) ∧ p' = { p with mem := m } := by
  change Except.map _ (x.run p.mem) = _ at h
  cases hx : x.run p.mem with
  | error e =>
    rw [hx] at h
    cases h
  | ok r =>
    rw [hx] at h
    cases h
    exact ⟨r.2, rfl, rfl⟩

theorem onBus_eq_ok {x : PciM α} {a : α} (h : (onBus x).run p = .ok (a, p')) :
    ∃ b, x.run p.bus = .ok (a, b) ∧ p' = { p with bus := b } := by
  change Except.map _ (x.run p.bus) = _ at h
  cases hx : x.run p.bus with
  | error e =>
    rw [hx] at h
    cases h
  | ok r =>
    rw [hx] at h
    cases h
    exact ⟨r.2, rfl, rfl⟩

/-- An addition that returned did not overflow. -/
theorem addU64_eq_ok {a b c : BitVec 64} {m m' : Mem} (h : (addU64 a b).run m = .ok (c, m')) :
    a.toNat + b.toNat < 2 ^ 64 ∧ c = a + b ∧ m' = m := by
  unfold addU64 at h
  split at h
  · rename_i hlt
    cases h
    exact ⟨hlt, rfl, rfl⟩
  · cases h

theorem writeVolatile_ok {virt phys : BitVec 64} (h : walk p.mem virt = some phys) (value : BitVec 32) :
    (writeVolatile walk virt value).run p = .ok ((), { p with stores := p.stores ++ [⟨virt, phys, value⟩] }) := by
  show writeVolatile walk virt value p = _
  unfold writeVolatile
  rw [h]

theorem writeVolatile_eq_ok {virt : BitVec 64} {value : BitVec 32}
    (h : (writeVolatile walk virt value).run p = .ok ((), p')) :
    ∃ phys, walk p.mem virt = some phys ∧ p' = { p with stores := p.stores ++ [⟨virt, phys, value⟩] } := by
  change writeVolatile walk virt value p = _ at h
  unfold writeVolatile at h
  cases hw : walk p.mem virt with
  | none =>
    rw [hw] at h
    cases h
  | some phys =>
    rw [hw] at h
    cases h
    exact ⟨phys, rfl, rfl⟩

section Store

variable {a k : BitVec 64} {value : BitVec 32} {f : BitVec 64 → PlatformM α} {r : α}

/-- A store at a sum that returned. -/
theorem store_eq_ok (h : (do let x ← onMem (addU64 a k); writeVolatile walk x value; f x).run p = .ok (r, p')) :
    a.toNat + k.toNat < 2 ^ 64 ∧ ∃ phys, walk p.mem (a + k) = some phys ∧
      (f (a + k)).run { p with stores := p.stores ++ [⟨a + k, phys, value⟩] } = .ok (r, p') := by
  obtain ⟨x, p₁, hx, h⟩ := stateT_bind_eq_ok h
  obtain ⟨m, hm, rfl⟩ := onMem_eq_ok hx
  obtain ⟨hfit, rfl, rfl⟩ := addU64_eq_ok hm
  obtain ⟨u, p₁, hw, h⟩ := stateT_bind_eq_ok h
  obtain ⟨phys, hphys, rfl⟩ := writeVolatile_eq_ok hw
  exact ⟨hfit, phys, hphys, h⟩

theorem store_ok {m : Mem} {b : Bus} {stores : List MmioStore} {phys : BitVec 64} (hfit : a.toNat + k.toNat < 2 ^ 64)
    (h : walk m (a + k) = some phys) :
    (do let x ← onMem (addU64 a k); writeVolatile walk x value; f x).run ⟨m, b, stores⟩ =
      (f (a + k)).run ⟨m, b, stores ++ [⟨a + k, phys, value⟩]⟩ := by
  rw [stateT_bind_ok (onMem_ok (addU64_ok hfit m)), stateT_bind_ok (writeVolatile_ok h value)]

end Store

/-- What `setup_msix` has done where it returned true: which words it stored from `virt` on, and where. -/
structure SetUp (walk : Mem → BitVec 64 → Option (BitVec 64)) (p p' : Platform) (dev : PciDevice) (info : MsixInfo)
    (virt : BitVec 64) (vector apicId : BitVec 8) : Prop where
  read : ∃ b, (getMsixInfo dev).run p.bus = .ok (some info, b) ∧
    (setMsixEnable dev info.capOffset true).run b = .ok ((), p'.bus)
  fits : virt.toNat + 12 < 2 ^ 64
  stores : ∃ phys : Nat → BitVec 64, (∀ i < 4, walk p.mem (virt + BitVec.ofNat 64 (4 * i)) = some (phys i)) ∧
    p'.stores = p.stores ++ (msixEntry vector apicId).mapIdx fun i value =>
      ⟨virt + BitVec.ofNat 64 (4 * i), phys i, value⟩

theorem setupMsix_eq_ok {virtBase : BitVec 64} {vector apicId : BitVec 8}
    (h : (setupMsix walk virtBase dev vector apicId).run p = .ok (true, p')) :
    ∃ info, virtBase.toNat + info.tableOffset.toNat < 2 ^ 64 ∧
      SetUp walk p p' dev info (virtBase + info.tableOffset.setWidth 64) vector apicId := by
  unfold setupMsix at h
  obtain ⟨r, p₁, hinfo, h⟩ := stateT_bind_eq_ok h
  obtain ⟨b, hb, rfl⟩ := onBus_eq_ok hinfo
  cases r with
  | none => cases h
  | some info =>
    -- four stores, each with the addition that gives its address
    obtain ⟨hbase, q₀, hq₀, h⟩ := store_eq_ok h
    obtain ⟨-, q₁, hq₁, h⟩ := store_eq_ok h
    obtain ⟨-, q₂, hq₂, h⟩ := store_eq_ok h
    obtain ⟨hfit, q₃, hq₃, h⟩ := store_eq_ok h
    obtain ⟨u, p₁, hset, h⟩ := stateT_bind_eq_ok h
    obtain ⟨b', hb', rfl⟩ := onBus_eq_ok hset
    cases h
    have hoffset : info.tableOffset.toNat < 2 ^ 32 := info.tableOffset.isLt
    rw [BitVec.toNat_setWidth, Nat.mod_eq_of_lt (by omega)] at hbase
    refine ⟨info, hbase, ⟨b, hb, hb'⟩, hfit, fun i => [q₀, q₁, q₂, q₃].getD i 0#64, ?_, ?_⟩
    · intro i hi
      interval_cases i
      · rw [BitVec.add_zero]
        exact hq₀
      · exact hq₁
      · exact hq₂
      · exact hq₃
    · simp [msixEntry, List.append_assoc]

end Runs

section Written

variable {walk : Mem → BitVec 64 → Option (BitVec 64)} {p p' : Platform} {dev : PciDevice} {ptr : BitVec 8}
  {info : MsixInfo} {virt : BitVec 64} {vector apicId : BitVec 8}

/-- What a register takes of a value that differs from the old one in bits that can be written. -/
theorem ControlWritable.write {r : Register} (h : ControlWritable r) {v : BitVec 32}
    (hv : ∀ i < 32, v.getLsbD i = if i = 31 then true else if i = 30 then false else r.value.getLsbD i) (i : Nat)
    (hi : i < 32) :
    (r.write v).value.getLsbD i = if i = 31 then true else if i = 30 then false else r.value.getLsbD i := by
  unfold Register.write
  rw [h.kept, BitVec.and_zero, BitVec.not_zero, BitVec.and_allOnes]
  simp only [BitVec.getLsbD_or, BitVec.getLsbD_and, BitVec.getLsbD_not, hi, decide_true, Bool.true_and, hv i hi]
  by_cases h31 : i = 31
  · rw [if_pos h31, h31, h.enable]
    rfl
  by_cases h30 : i = 30
  · rw [if_neg h31, if_pos h30, h30, h.mask]
    simp
  · rw [if_neg h31, if_neg h30]
    cases r.writable.getLsbD i <;> simp

/-- The capability that was found, and what was written to it. -/
theorem SetUp.config (h : SetUp walk p p' dev info virt vector apicId) (hmsix : MsixAt p.bus dev ptr)
    (hctrl : ControlWritable (p.bus.registers (dev.place ptr))) : info = p.bus.msixInfo dev ptr ∧
      (∀ l, l ≠ dev.place ptr → p'.bus.registers l = p.bus.registers l) ∧
      (∃ new, p'.bus.log = p.bus.log ++ new ∧ ∀ e ∈ new, e.2 ≠ none → e.1 = dev.place ptr) ∧
      ∀ i < 32, (p'.bus.dword dev ptr).getLsbD i =
        if i = 31 then true else if i = 30 then false else (p.bus.dword dev ptr).getLsbD i := by
  obtain ⟨b, hinfo, hset⟩ := h.read
  have hfit : ptr.toNat + 12 ≤ 256 := by
    by_contra hlate
    rw [getMsixInfo_overflow hmsix (by omega)] at hinfo
    cases hinfo
  obtain ⟨b', hinfo', hreads⟩ := getMsixInfo_some hmsix hfit
  rw [hinfo'] at hinfo
  cases hinfo
  obtain ⟨t, hset', hregs, hlog⟩ := setMsixEnable_run b dev hmsix.aligned true
  have hset : (setMsixEnable dev ptr true).run b = .ok ((), p'.bus) := hset
  rw [hset'] at hset
  cases hset
  obtain ⟨new, hnew, hread⟩ := hreads.log
  refine ⟨rfl, fun l hl => ?_, ⟨new ++ _, by rw [hlog, hnew, List.append_assoc], ?_⟩, fun i hi => ?_⟩
  · rw [hregs, Function.update_of_ne hl, hreads.registers]
  · simp only [List.mem_append, List.mem_cons, List.not_mem_nil, or_false]
    rintro e (he | rfl | rfl | rfl) hw
    · exact absurd (hread e he).1 hw
    · rfl
    · rfl
    · rfl
  · have hdword : p'.bus.dword dev ptr = ((b.registers (dev.place ptr)).write (b.msixDword dev ptr true)).value := by
      unfold Bus.dword
      rw [hregs, Function.update_self]
    rw [hdword, hreads.registers]
    refine hctrl.write (fun j hj => ?_) i hi
    rw [msixDword_bit b dev hmsix.aligned hj, dword_of_registers hreads.registers]
    rfl

end Written

/-! ## The mapped pages and the table -/

section Table

variable {walk : Mem → BitVec 64 → Option (BitVec 64)} {p₁ p₂ p₃ : Platform} {b : Bus} {off : Nat} {bar : BarInfo}
  {barSize virtBase : BitVec 64} {dev : PciDevice} {ptr vector apicId : BitVec 8} {info : MsixInfo}

/-- Where `XHCI::new` has mapped the pages of BAR 0. -/
theorem newController_pages (hs : MmioState p₁.mem off) (hoff : 4096 ∣ off) (hhigh : 2 ^ 64 ≤ off + 2 ^ 48)
    (hsize : (getBar0Size dev).run p₁.bus = .ok (barSize, b))
    (hfit : off + (pageBase bar.address).toNat + pageCount barSize * 4096 ≤ 2 ^ 64)
    (hnew : (newController bar dev).run p₁ = .ok (virtBase, p₂)) : virtBase = hhdmAddr off (pageBase bar.address) ∧
      0 < pageCount barSize ∧ BarPages p₂.mem off bar.address (pageCount barSize) (pageCount barSize) := by
  unfold newController at hnew
  obtain ⟨size, p, hread, hmap⟩ := stateT_bind_eq_ok hnew
  obtain ⟨b', hb', rfl⟩ := onBus_eq_ok hread
  rw [hsize] at hb'
  cases hb'
  obtain ⟨m, hm, rfl⟩ := onMem_eq_ok hmap
  obtain ⟨hpos, hvirt, hpages⟩ := xhciNew_pages hs hoff (by omega) hfit hm
  have hcount := size_le_pages barSize
  exact ⟨hvirt, by omega, hpages⟩

/-- A word at an offset in the mapped pages is stored at the same offset from the start of BAR 0's page. -/
theorem word_phys (hwalk : ∀ m v q, (Memory.translate v).exec m = .ok (.ok q, m) → walk m v = some q)
    (hoff : 4096 ∣ off) (hfit : off + (pageBase bar.address).toNat + pageCount barSize * 4096 ≤ 2 ^ 64)
    (hpages : BarPages p₂.mem off bar.address (pageCount barSize) (pageCount barSize))
    {o i : Nat} (ho : o + 4 * i < pageCount barSize * 4096) :
    walk p₂.mem (hhdmAddr off (pageBase bar.address) + BitVec.ofNat 64 o + BitVec.ofNat 64 (4 * i)) =
      some (pageBase bar.address + BitVec.ofNat 64 o + BitVec.ofNat 64 (4 * i)) := by
  rw [BitVec.add_assoc, BitVec.add_assoc, ← BitVec.ofNat_add]
  exact hwalk _ _ _ (hpages.translate hoff (by omega) ho)

/-- With the entry in the mapped pages, its words go to the offset of the table from there. -/
theorem entry_phys (hwalk : ∀ m v q, (Memory.translate v).exec m = .ok (.ok q, m) → walk m v = some q)
    (hoff : 4096 ∣ off) (hfit : off + (pageBase bar.address).toNat + pageCount barSize * 4096 ≤ 2 ^ 64)
    (hpages : BarPages p₂.mem off bar.address (pageCount barSize) (pageCount barSize)) {table : BitVec 32}
    (hin : table.toNat + 16 ≤ pageCount barSize * 4096) {phys : Nat → BitVec 64}
    (hphys : ∀ i < 4, walk p₂.mem (hhdmAddr off (pageBase bar.address) + table.setWidth 64 + BitVec.ofNat 64 (4 * i))
      = some (phys i))
    (i : Nat) (hi : i < 4) : phys i = pageBase bar.address + table.setWidth 64 + BitVec.ofNat 64 (4 * i) := by
  have hwalked := hphys i hi
  rw [← BitVec.ofNat_toNat, word_phys hwalk hoff hfit hpages (by omega)] at hwalked
  rw [← Option.some.inj hwalked, BitVec.ofNat_toNat]

/-- The address of a word of the entry. -/
theorem word_toNat {table : BitVec 32} (hbase : virtBase.toNat + table.toNat < 2 ^ 64)
    (hfit : (virtBase + table.setWidth 64).toNat + 12 < 2 ^ 64) {i : Nat} (hi : i < 4) :
    (virtBase + table.setWidth 64 + BitVec.ofNat 64 (4 * i)).toNat = virtBase.toNat + table.toNat + 4 * i := by
  have htable : table.toNat < 2 ^ 32 := table.isLt
  have hsum : (virtBase + table.setWidth 64).toNat = virtBase.toNat + table.toNat := by
    rw [BitVec.toNat_add, BitVec.toNat_setWidth, Nat.mod_eq_of_lt (a := table.toNat) (by omega), Nat.mod_eq_of_lt hbase]
  rw [hsum] at hfit
  rw [BitVec.toNat_add, hsum, BitVec.toNat_ofNat, Nat.mod_eq_of_lt (a := 4 * i) (by omega), Nat.mod_eq_of_lt (by omega)]

/-- The words are in the mapped pages exactly if the entry is. -/
theorem words_inside_iff {table : BitVec 32} {pages : Nat} (hbase : virtBase.toNat + table.toNat < 2 ^ 64)
    (hfit : (virtBase + table.setWidth 64).toNat + 12 < 2 ^ 64) (phys : Nat → BitVec 64) :
    (∀ w ∈ (msixEntry vector apicId).mapIdx fun i value =>
        (⟨virtBase + table.setWidth 64 + BitVec.ofNat 64 (4 * i), phys i, value⟩ : MmioStore),
      virtBase.toNat ≤ w.virt.toNat ∧ w.virt.toNat + 4 ≤ virtBase.toNat + pages * 4096) ↔
        table.toNat + 16 ≤ pages * 4096 := by
  simp only [List.mem_mapIdx, forall_exists_index]
  constructor
  · intro h
    have hlast := (h _ 3 (Nat.lt_succ_self 3) rfl).2
    rw [word_toNat hbase hfit (by decide)] at hlast
    omega
  · rintro hin w i hi rfl
    have hi : i < 4 := hi
    rw [word_toNat hbase hfit hi]
    omega

/-- With the pages of BAR 0 mapped, the words go to the entry exactly if the table is in these pages. -/
theorem entryWritten_iff (hwalk : ∀ m v q, (Memory.translate v).exec m = .ok (.ok q, m) → walk m v = some q)
    (hoff : 4096 ∣ off) (hfit : off + (pageBase bar.address).toNat + pageCount barSize * 4096 ≤ 2 ^ 64)
    (hpages : BarPages p₂.mem off bar.address (pageCount barSize) (pageCount barSize)) (hmsix : MsixAt p₂.bus dev ptr)
    (hctrl : ControlWritable (p₂.bus.registers (dev.place ptr)))
    (hset : (setupMsix walk (hhdmAddr off (pageBase bar.address)) dev vector apicId).run p₂ = .ok (true, p₃)) :
    EntryWritten p₂ p₃ dev (p₂.bus.msixInfo dev ptr) (hhdmAddr off (pageBase bar.address))
      (pageCount barSize) vector apicId ↔
      p₂.bus.barBase dev (p₂.bus.msixInfo dev ptr).tableBar = pageBase bar.address ∧
        (p₂.bus.msixInfo dev ptr).tableOffset.toNat + 16 ≤ pageCount barSize * 4096 := by
  obtain ⟨info, hbase, hsetup⟩ := setupMsix_eq_ok hset
  obtain ⟨hinfo, hregs, hlog, hcontrol⟩ := hsetup.config hmsix hctrl
  rw [← hinfo]
  obtain ⟨phys, hphys, hstores⟩ := hsetup.stores
  have hinside := @words_inside_iff _ vector apicId _ (pageCount barSize) hbase hsetup.fits phys
  have hword := fun hin => entry_phys hwalk hoff hfit hpages hin hphys
  constructor
  · intro h
    obtain ⟨new, hnew, hentry, hregion⟩ := h.entry
    rw [hstores] at hnew
    obtain rfl := List.append_cancel_left hnew
    have hin := hinside.1 hregion
    refine ⟨?_, hin⟩
    -- the first word is at the start of the entry
    have hfirst : phys 0 = tableEntry p₂.bus dev info + BitVec.ofNat 64 (4 * 0) := by
      simp only [msixEntry, List.mapIdx_cons, List.map_cons, List.cons.injEq, Prod.mk.injEq] at hentry
      exact hentry.1.1
    rw [hword hin 0 (by decide)] at hfirst
    unfold tableEntry at hfirst
    rw [BitVec.add_left_inj, BitVec.add_left_inj] at hfirst
    exact hfirst.symm
  · rintro ⟨hbar, hin⟩
    have hinfoOffset : info.capOffset = ptr := by rw [hinfo]; rfl
    constructor
    · refine ⟨_, hstores, ?_, hinside.2 hin⟩
      unfold tableEntry
      rw [hbar]
      apply List.ext_getElem
      · simp only [List.length_map, List.length_mapIdx]
      · intro i hi _
        rw [List.length_map, List.length_mapIdx] at hi
        simp only [List.getElem_map, List.getElem_mapIdx]
        rw [hword hin i hi]
    · rw [hinfoOffset]
      exact hregs
    · rw [hinfoOffset]
      exact hlog
    · rw [hinfoOffset]
      exact hcontrol

/-- If `setup_msix` returned true, it wrote entry 0 of the table exactly if the table's BAR starts where the
mapped pages do, and the entry is in them. -/
theorem setupMsix_writes_iff (hwalk : ∀ m v q, (Memory.translate v).exec m = .ok (.ok q, m) → walk m v = some q)
    (hs : MmioState p₁.mem off) (hoff : 4096 ∣ off) (hhigh : 2 ^ 64 ≤ off + 2 ^ 48)
    (hsize : (getBar0Size dev).run p₁.bus = .ok (barSize, b))
    (hfit : off + (pageBase bar.address).toNat + pageCount barSize * 4096 ≤ 2 ^ 64)
    (hnew : (newController bar dev).run p₁ = .ok (virtBase, p₂)) (hmsix : MsixAt p₂.bus dev ptr)
    (hctrl : ControlWritable (p₂.bus.registers (dev.place ptr)))
    (hset : (setupMsix walk virtBase dev vector apicId).run p₂ = .ok (true, p₃)) :
    EntryWritten p₂ p₃ dev (p₂.bus.msixInfo dev ptr) virtBase (pageCount barSize) vector apicId ↔
      p₂.bus.barBase dev (p₂.bus.msixInfo dev ptr).tableBar = pageBase bar.address ∧
        (p₂.bus.msixInfo dev ptr).tableOffset.toNat + 16 ≤ pageCount barSize * 4096 := by
  obtain ⟨rfl, -, hpages⟩ := newController_pages hs hoff hhigh hsize hfit hnew
  exact entryWritten_iff hwalk hoff hfit hpages hmsix hctrl hset

/-- BAR 0 of `get_bar0` starts where the mapped pages do exactly if it starts a page. -/
theorem barBase_zero_iff {s s' : Bus} (hbar : (getBar0 dev).run s = .ok (bar, s'))
    (hregs : p₂.bus.registers = s.registers) :
    p₂.bus.barBase dev 0#8 = pageBase bar.address ↔ 4096 ∣ bar.address.toNat := by
  rw [barBase_of_registers hregs, ← (getBar0_address hbar).1, eq_comm, pageBase_eq_iff]

/-- With an MSI-X capability and the table's entry in mapped pages, `setup_msix` enables MSI-X and returns true. -/
theorem setupMsix_run {p : Platform} (hmsix : MsixAt p.bus dev ptr) (hcap : ptr.toNat + 12 ≤ 256)
    (hfit : virtBase.toNat + (p.bus.msixInfo dev ptr).tableOffset.toNat + 12 < 2 ^ 64)
    (hwords : ∀ i < 4, ∃ phys,
      walk p.mem (virtBase + (p.bus.msixInfo dev ptr).tableOffset.setWidth 64 + BitVec.ofNat 64 (4 * i)) =
      some phys) : ∃ p', (setupMsix walk virtBase dev vector apicId).run p = .ok (true, p') ∧ p'.mem = p.mem ∧
        p'.bus.registers = Function.update p.bus.registers (dev.place ptr)
          ((p.bus.registers (dev.place ptr)).write (p.bus.msixDword dev ptr true)) := by
  obtain ⟨s, hinfo, hreads⟩ := getMsixInfo_some hmsix hcap
  obtain ⟨t, hset, hregs, -⟩ := setMsixEnable_run s dev hmsix.aligned true
  rw [hreads.registers, msixDword_of_registers hreads.registers] at hregs
  have htable : (p.bus.msixInfo dev ptr).tableOffset.toNat < 2 ^ 32 := (p.bus.msixInfo dev ptr).tableOffset.isLt
  have hoffset : ((p.bus.msixInfo dev ptr).tableOffset.setWidth 64).toNat =
    (p.bus.msixInfo dev ptr).tableOffset.toNat := by
    rw [BitVec.toNat_setWidth, Nat.mod_eq_of_lt (by omega)]
  have hsum : ∀ k : BitVec 64, k.toNat ≤ 12 →
      (virtBase + (p.bus.msixInfo dev ptr).tableOffset.setWidth 64).toNat + k.toNat < 2 ^ 64 := by
    intro k hk
    rw [BitVec.toNat_add, hoffset, Nat.mod_eq_of_lt (by omega)]
    omega
  obtain ⟨q₀, h₀⟩ := hwords 0 (by decide)
  obtain ⟨q₁, h₁⟩ := hwords 1 (by decide)
  obtain ⟨q₂, h₂⟩ := hwords 2 (by decide)
  obtain ⟨q₃, h₃⟩ := hwords 3 (by decide)
  rw [BitVec.add_zero] at h₀
  unfold setupMsix
  rw [stateT_bind_ok (onBus_ok hinfo)]
  dsimp only
  rw [store_ok (by omega) h₀, store_ok (hsum 4#64 (by decide)) h₁, store_ok (hsum 8#64 (by decide)) h₂,
    store_ok (hsum 12#64 (by decide)) h₃, stateT_bind_ok (onBus_ok hset)]
  exact ⟨_, rfl, rfl, hregs⟩

end Table

/-! ## A controller with BARs of one page -/

/-- The walk of the kernel's own `translate`. -/
def kernelWalk (m : Mem) (v : BitVec 64) : Option (BitVec 64) :=
  match (Memory.translate v).exec m with
  | .ok (.ok phys, _) => some phys
  | _ => none

theorem kernelWalk_translate (m : Mem) (v q : BitVec 64) (h : (Memory.translate v).exec m = .ok (.ok q, m)) :
    kernelWalk m v = some q := by
  unfold kernelWalk
  rw [h]

/-- BAR 0 at `0xfebf0000`, BAR 2 at `0xfea00000`, and an MSI-X capability at `0x40` with a given table register. -/
def controllerBus (table : BitVec 32) : Bus :=
  ⟨0#32, fun l =>
    if l.dword = 4#6 then ⟨0xfebf0000#32, 0xFFFFF000#32, 0#32⟩
    else if l.dword = 6#6 then ⟨0xfea00000#32, 0xFFFFF000#32, 0#32⟩
    else if l.dword = 1#6 then ⟨0x00100000#32, 0#32, 0xF9000000#32⟩
    else if l.dword = 13#6 then ⟨0x40#32, 0#32, 0#32⟩
    else if l.dword = 16#6 then ⟨0x000F0011#32, 0xC0000000#32, 0#32⟩
    else if l.dword = 17#6 then ⟨table, 0#32, 0#32⟩
    else ⟨0#32, 0#32, 0#32⟩, []⟩

/-- The controller is device 4 of bus 0. -/
def controllerDevice : PciDevice := ⟨0#8, 4#8, 0#8⟩

/-- Its BAR 0, of 32 bits. -/
def controllerBar : BarInfo := ⟨0xfebf0000#64, false, false⟩

/-- The address of the page of BAR 0. -/
def controllerVirt : BitVec 64 := hhdmAddr 0xffff800000000000 (pageBase controllerBar.address)

section Controller

variable (table : BitVec 32)

theorem controllerBus_bar : MemoryBar (controllerBus table) controllerDevice 12 0xfebf0000#64 0#2 false where
  small := by decide
  large := by decide
  aligned := by decide
  fits _ := by decide
  low := rfl
  high h := by cases h

theorem controllerBus_msix : MsixAt (controllerBus table) controllerDevice 0x40#8 := by
  have hstatus : (controllerBus table).dword controllerDevice PCI_STATUS = 0x00100000#32 := rfl
  have hlist : (controllerBus table).dword controllerDevice PCI_CAPABILITIES_PTR = 0x40#32 := rfl
  have hcap : (controllerBus table).dword controllerDevice 0x40#8 = 0x000F0011#32 := rfl
  apply msixAt_of_first
  · unfold Bus.HasCapabilities Bus.word
    rw [hstatus]
    decide
  · unfold Bus.firstCapability Bus.byte
    rw [hlist]
    rfl
  · decide
  · unfold Bus.byte
    rw [hcap]
    rfl

theorem controllerBus_control : ControlWritable ((controllerBus table).registers (controllerDevice.place 0x40#8)) := by
  have hreg : (controllerBus table).registers (controllerDevice.place 0x40#8) =
    ⟨0x000F0011#32, 0xC0000000#32, 0#32⟩ := rfl
  rw [hreg]
  constructor
  · decide
  · decide
  · rfl

/-- `XHCI::new` and then `setup_msix` return for each table with an entry in the page of BAR 0. -/
theorem controllerBus_runs (hin : (table &&& ~~~0x7#32).toNat + 16 ≤ 4096) (vector apicId : BitVec 8) :
    ∃ (p₂ p₃ : Platform) (b : Bus), (getBar0Size controllerDevice).run (controllerBus table) = .ok (0x1000#64, b) ∧
      (newController controllerBar controllerDevice).run ⟨emptyTables, controllerBus table, []⟩ =
        .ok (controllerVirt, p₂) ∧
      p₂.bus.registers = (controllerBus table).registers ∧
      (setupMsix kernelWalk controllerVirt controllerDevice vector apicId).run p₂ = .ok (true, p₃) := by
  obtain ⟨b, hsize, hregs⟩ := getBar0Size_run (controllerBus_bar table)
  have hpower : BitVec.ofNat 64 (2 ^ 12) = 0x1000#64 := rfl
  rw [hpower] at hsize
  obtain ⟨m, hmap⟩ := @emptyTables_xhciNew controllerBar.address (by decide)
  have hnew : (newController controllerBar controllerDevice).run ⟨emptyTables, controllerBus table, []⟩ =
      .ok (controllerVirt, ⟨m, b, []⟩) := by
    unfold newController
    rw [stateT_bind_ok (onBus_ok hsize)]
    exact onMem_ok hmap
  have hpages := (@newController_pages ⟨emptyTables, controllerBus table,
    []⟩ _ _ _ _ _ _ _ emptyTables_mmioState (by decide)
    (by decide) hsize (by decide) hnew).2.2
  have hoffset : (b.msixInfo controllerDevice 0x40#8).tableOffset = table &&& ~~~0x7#32 := by
    rw [msixInfo_of_registers hregs]
    rfl
  have hcount : pageCount 0x1000#64 = 1 := by decide
  have hvirt : controllerVirt.toNat + 0x1000 + 12 < 2 ^ 64 := by decide
  have hfit : controllerVirt.toNat + (b.msixInfo controllerDevice 0x40#8).tableOffset.toNat + 12 < 2 ^ 64 := by
    rw [hoffset]
    omega
  -- the entry is in the one page of BAR 0, which is mapped
  have hwords : ∀ i < 4, ∃ phys,
    kernelWalk m (controllerVirt + (b.msixInfo controllerDevice 0x40#8).tableOffset.setWidth 64 +
      BitVec.ofNat 64 (4 * i)) = some phys := by
    intro i hi
    rw [hoffset, ← BitVec.ofNat_toNat]
    exact ⟨_, word_phys kernelWalk_translate (by decide) (by decide) hpages (by rw [hcount]; omega)⟩
  have hmsix := (controllerBus_msix table).of_registers hregs
  obtain ⟨p₃, hset, -⟩ := setupMsix_run (p := ⟨m, b, []⟩) hmsix (by decide) hfit hwords
  exact ⟨_, p₃, b, hsize, hnew, hregs, hset⟩

end Controller

/-- `setupMsix_writes_iff` for a table at offset `0x800` of BAR 0. -/
theorem setupMsix_writes_bar0 : ∃ p₂ p₃ : Platform,
    (newController controllerBar controllerDevice).run ⟨emptyTables, controllerBus 0x800#32, []⟩ =
      .ok (controllerVirt, p₂) ∧
      (setupMsix kernelWalk controllerVirt controllerDevice 44#8 0#8).run p₂ = .ok (true, p₃) ∧
      EntryWritten p₂ p₃ controllerDevice (p₂.bus.msixInfo controllerDevice 0x40#8) controllerVirt 1 44#8 0#8 := by
  obtain ⟨p₂, p₃, b, hsize, hnew, hregs, hset⟩ := controllerBus_runs 0x800#32 (by decide) 44#8 0#8
  have hmsix := (controllerBus_msix 0x800#32).of_registers hregs
  have hctrl := controllerBus_control 0x800#32
  rw [← hregs] at hctrl
  have hcount : pageCount 0x1000#64 = 1 := by decide
  refine ⟨p₂, p₃, hnew, hset, ?_⟩
  rw [← hcount]
  refine (setupMsix_writes_iff kernelWalk_translate emptyTables_mmioState (by decide) (by decide) hsize
    (by decide) hnew hmsix
    hctrl hset).2 ⟨?_, ?_⟩
  · rw [barBase_of_registers hregs, msixInfo_of_registers hregs]
    decide
  · rw [msixInfo_of_registers hregs]
    decide

/-- The entry is not always written: with the table in BAR 2, the words go to the page of BAR 0. -/
theorem setupMsix_otherBar :
    ¬ ∀ (walk : Mem → BitVec 64 → Option (BitVec 64)) (p₁ p₂ p₃ : Platform) (b : Bus) (off : Nat)
      (bar : BarInfo) (barSize virtBase : BitVec 64) (dev : PciDevice) (ptr vector apicId : BitVec 8),
      (∀ m v q, (Memory.translate v).exec m = .ok (.ok q, m) → walk m v = some q) → MmioState p₁.mem off → 4096 ∣ off →
      2 ^ 64 ≤ off + 2 ^ 48 → (getBar0Size dev).run p₁.bus = .ok (barSize, b) →
      off + (pageBase bar.address).toNat + pageCount barSize * 4096 ≤ 2 ^ 64 →
      (newController bar dev).run p₁ = .ok (virtBase, p₂) → MsixAt p₂.bus dev ptr →
      ControlWritable (p₂.bus.registers (dev.place ptr)) →
      (setupMsix walk virtBase dev vector apicId).run p₂ = .ok (true, p₃) →
        EntryWritten p₂ p₃ dev (p₂.bus.msixInfo dev ptr) virtBase (pageCount barSize) vector apicId := by
  intro hall
  obtain ⟨p₂, p₃, b, hsize, hnew, hregs, hset⟩ := controllerBus_runs 0x802#32 (by decide) 44#8 0#8
  have hmsix := (controllerBus_msix 0x802#32).of_registers hregs
  have hctrl := controllerBus_control 0x802#32
  rw [← hregs] at hctrl
  have hwritten := hall _ _ _ _ _ _ _ _ _ _ _ _ _ kernelWalk_translate emptyTables_mmioState (by decide)
    (by decide) hsize
    (by decide) hnew hmsix hctrl hset
  have hpages := (newController_pages emptyTables_mmioState (by decide) (by decide) hsize (by decide) hnew).2.2
  have hbar := ((entryWritten_iff kernelWalk_translate (by decide) (by decide) hpages hmsix hctrl hset).1 hwritten).1
  rw [barBase_of_registers hregs, msixInfo_of_registers hregs] at hbar
  exact absurd hbar (by decide)

end Octagram.Usb

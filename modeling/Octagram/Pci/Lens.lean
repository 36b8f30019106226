/-
The accessors below a dword as lenses: on registers that hold what is written to them, the accessors
of 16 and of 8 bits read and replace two bytes and one byte of the configuration space
(`subDword_lens`). A byte is a lens within the dword of its place, a half two of them, and the
accessors are runs of these (`Accesses`); the laws then come from `Lib.Lens`, by the composition of
lenses (`Accesses.lawful`). That bytes of different functions and offsets are apart is
`byteAddress_inj`.
-/
import Octagram.Lib.Lens
import Octagram.Pci.Config

namespace Octagram.Pci

open Octagram.Lib

/-- What the configuration space holds: a dword at every location. -/
abbrev Contents := Location → BitVec 32

/-- A byte of the configuration space: the dword it lies in, and which of the four it is. -/
abbrev ByteAddress := Location × BitVec 2

/-- The values of the registers. -/
def Bus.contents (s : Bus) : Contents := fun l => (s.registers l).value

/-- Every register holds what is written to it. -/
def Bus.Plain (s : Bus) : Prop := ∀ l, (s.registers l).writable = BitVec.allOnes 32 ∧ (s.registers l).clearable = 0#32

/-- The byte of a device at an offset. -/
def PciDevice.byteAddress (dev : PciDevice) (offset : BitVec 8) : ByteAddress := (dev.place offset, offset.setWidth 2)

/-- One byte. -/
def byteLens (a : ByteAddress) : Lens Contents (BitVec 8) :=
  (Lens.entry a.1).comp (Lens.field (8 * a.2.toNat) (by have := a.2.isLt; omega))

/-- The half of a dword that is below 16 bits, or the one above. -/
def halfLens (l : Location) (half : BitVec 1) : Lens Contents (BitVec 16) :=
  (Lens.entry l).comp (Lens.field (16 * half.toNat) (by have := half.isLt; omega))

/-- A byte of the contents. -/
def Bus.byteAt (s : Bus) (a : ByteAddress) : BitVec 8 := (byteLens a).get s.contents

/-- A pair of accessors reads and replaces one part of the contents. -/
structure Accesses {α : Type} (read : PciM α) (write : α → PciM Unit) (part : Lens Contents α) : Prop where
  read : ∀ s, ∃ s', read.run s = .ok (part.get s.contents, s') ∧ s'.registers = s.registers
  write : ∀ s : Bus, s.Plain → ∀ v, ∃ s',
    (write v).run s = .ok ((), s') ∧ s'.Plain ∧ s'.contents = part.put v s.contents

/-- The laws of reads and writes at one place, said of runs from `s`: a read after a write returns the value, writing
what was read changes no register, the second of two writes counts, and the bytes elsewhere are as they were. -/
structure Bus.Lawful {α : Type} (s : Bus) (read : PciM α) (write : α → PciM Unit) (bytes : Set ByteAddress) : Prop where
  read_write : ∀ v, (do write v; read).run' s = .ok v
  write_read : ∃ s', (do write (← read)).run s = .ok ((), s') ∧ s'.registers = s.registers
  write_write : ∀ v w, ∃ s₁ s₂, (do write v; write w).run s = .ok ((), s₁) ∧ (write w).run s = .ok ((), s₂) ∧
    s₁.registers = s₂.registers
  frame : ∀ v, ∃ s', (write v).run s = .ok ((), s') ∧ ∀ a, a ∉ bytes → s'.byteAt a = s.byteAt a

/-! ## Lawful access -/

section Laws

variable {s s' : Bus}

theorem Bus.Plain.of_registers (hs : s.Plain) (h : s'.registers = s.registers) : s'.Plain := by
  intro l
  rw [h]
  exact hs l

theorem contents_of_registers (h : s'.registers = s.registers) : s'.contents = s.contents := by
  unfold Bus.contents
  rw [h]

/-- Plain registers are no more than what they hold. -/
theorem registers_of_contents (hs : s.Plain) (hs' : s'.Plain) (h : s'.contents = s.contents) :
    s'.registers = s.registers := by
  funext l
  have hv := congrFun h l
  have hl := hs l
  have hl' := hs' l
  unfold Bus.contents at hv
  cases hr : s.registers l
  cases hr' : s'.registers l
  simp_all

variable {α : Type} {read : PciM α} {write : α → PciM Unit} {part : Lens Contents α}

theorem run'_of_run {x : PciM α} {a : α} (h : x.run s = .ok (a, s')) : x.run' s = .ok a := by
  show Functor.map Prod.fst (x.run s) = _
  rw [h]
  rfl

/-- What the laws of a lens say of accessors. -/
theorem Accesses.lawful (h : Accesses read write part) (hs : s.Plain) {bytes : Set ByteAddress}
    (hbytes : ∀ a, a ∉ bytes → part.Apart (byteLens a)) : s.Lawful read write bytes where
  read_write v := by
    obtain ⟨s₁, hw, -, hc⟩ := h.write s hs v
    obtain ⟨s₂, hr, -⟩ := h.read s₁
    rw [hc, Lens.get_put] at hr
    exact run'_of_run ((stateT_bind_ok hw _).trans hr)
  write_read := by
    -- a read leaves the registers, so writing its value back writes the old contents
    obtain ⟨s₁, hr, hsame⟩ := h.read s
    have hp := hs.of_registers hsame
    obtain ⟨s₂, hw, hp', hc⟩ := h.write s₁ hp (part.get s.contents)
    refine ⟨s₂, (stateT_bind_ok hr _).trans hw, ?_⟩
    rw [contents_of_registers hsame, Lens.put_get] at hc
    exact registers_of_contents hs hp' hc
  write_write v w := by
    obtain ⟨s₁, hw, hp, hc⟩ := h.write s hs v
    obtain ⟨s₂, hw', hp', hc'⟩ := h.write s₁ hp w
    obtain ⟨s₃, hw'', hp'', hc''⟩ := h.write s hs w
    refine ⟨s₂, s₃, (stateT_bind_ok hw _).trans hw', hw'', registers_of_contents hp'' hp' ?_⟩
    rw [hc', hc, Lens.put_put, hc'']
  frame v := by
    obtain ⟨s', hw, -, hc⟩ := h.write s hs v
    refine ⟨s', hw, fun a ha => ?_⟩
    unfold Bus.byteAt
    rw [hc, hbytes a ha]

end Laws

/-! ## The accessors are lenses -/

section Parts

variable {s : Bus} {dev : PciDevice} {offset : BitVec 8}

theorem byte_shift (offset : BitVec 8) : ((offset &&& 3#8) * 8#8).toNat = 8 * (offset.setWidth 2).toNat := by
  revert offset
  decide

theorem half_shift (offset : BitVec 8) : ((offset &&& 2#8) * 8#8).toNat = 16 * (offset.extractLsb' 1 1).toNat := by
  revert offset
  decide

/-- A masked shift is a field. -/
theorem masked_shift {k : Nat} (hk : k ≤ 32) (x : BitVec 32) (j : Nat) :
    ((x >>> j) &&& (BitVec.allOnes k).setWidth 32).setWidth k = x.extractLsb' j k := by
  ext i hi
  have h32 : i < 32 := Nat.lt_of_lt_of_le hi hk
  simp [hi, h32]

theorem byte_eq (s : Bus) (dev : PciDevice) (offset : BitVec 8) :
    s.byte dev offset = (byteLens (dev.byteAddress offset)).get s.contents := by
  have h := masked_shift (k := 8) (by omega) (s.dword dev offset) (8 * (offset.setWidth 2).toNat)
  unfold Bus.byte
  rw [byte_shift]
  exact h

theorem word_eq (s : Bus) (dev : PciDevice) (offset : BitVec 8) :
    s.word dev offset = (halfLens (dev.place offset) (offset.extractLsb' 1 1)).get s.contents := by
  have h := masked_shift (k := 16) (by omega) (s.dword dev offset) (16 * (offset.extractLsb' 1 1).toNat)
  unfold Bus.word
  rw [half_shift]
  exact h

theorem withByte_eq (s : Bus) (dev : PciDevice) (offset v : BitVec 8) :
    s.withByte dev offset v = Lens.withField (8 * (offset.setWidth 2).toNat) v (s.contents (dev.place offset)) := by
  unfold Bus.withByte
  rw [byte_shift]
  rfl

theorem withWord_eq (s : Bus) (dev : PciDevice) (offset : BitVec 8) (v : BitVec 16) :
    s.withWord dev offset v =
      Lens.withField (16 * (offset.extractLsb' 1 1).toNat) v (s.contents (dev.place offset)) := by
  unfold Bus.withWord
  rw [half_shift]
  rfl

/-- A plain register takes the value. -/
theorem write_of_plain {r : Register} (h : r.writable = BitVec.allOnes 32) (v : BitVec 32) : (r.write v).value = v := by
  unfold Register.write
  rw [h, BitVec.and_allOnes, BitVec.not_allOnes, BitVec.and_zero, BitVec.zero_and, BitVec.or_zero]

theorem afterWrite_plain (hs : s.Plain) (v : BitVec 32) : (s.afterWrite dev offset v).Plain := by
  intro l
  rw [Bus.afterWrite_registers]
  by_cases hl : l = dev.place offset
  · subst hl
    rw [Function.update_self]
    exact hs _
  · rw [Function.update_of_ne hl]
    exact hs l

theorem afterWrite_contents (hs : s.Plain) (v : BitVec 32) :
    (s.afterWrite dev offset v).contents = Function.update s.contents (dev.place offset) v := by
  funext l
  show ((s.afterWrite dev offset v).registers l).value = _
  rw [Bus.afterWrite_registers]
  by_cases hl : l = dev.place offset
  · subst hl
    rw [Function.update_self, Function.update_self, write_of_plain (hs _).1]
  · rw [Function.update_of_ne hl, Function.update_of_ne hl]
    rfl

end Parts

section Accessors

variable (dev : PciDevice) (offset : BitVec 8)

theorem byte_accesses : Accesses (configReadU8 dev.bus dev.device dev.function offset)
    (configWriteU8 dev.bus dev.device dev.function offset) (byteLens (dev.byteAddress offset)) where
  read s := by
    refine ⟨s.afterRead dev offset, ?_, rfl⟩
    rw [configReadU8_run, byte_eq]
  write s hs v := by
    have hp : (s.afterRead dev offset).Plain := hs
    refine ⟨_, configWriteU8_run s dev offset v, afterWrite_plain hp _, ?_⟩
    rw [afterWrite_contents hp, withByte_eq]
    rfl

theorem half_accesses : Accesses (configReadU16 dev.bus dev.device dev.function offset)
    (configWriteU16 dev.bus dev.device dev.function offset) (halfLens (dev.place offset) (offset.extractLsb' 1 1)) where
  read s := by
    refine ⟨s.afterRead dev offset, ?_, rfl⟩
    rw [configReadU16_run, word_eq]
  write s hs v := by
    have hp : (s.afterRead dev offset).Plain := hs
    refine ⟨_, configWriteU16_run s dev offset v, afterWrite_plain hp _, ?_⟩
    rw [afterWrite_contents hp, withWord_eq]
    rfl

end Accessors

/-! ## Which bytes -/

section Bytes

variable {a b : ByteAddress}

theorem byteLens_apart (h : b ≠ a) : (byteLens a).Apart (byteLens b) := by
  by_cases hl : a.1 = b.1
  · have hi : a.2.toNat ≠ b.2.toNat := fun hi => h (Prod.ext hl.symm (BitVec.eq_of_toNat_eq hi.symm))
    unfold byteLens
    rw [hl]
    exact (Lens.field_apart (by omega)).within _
  · exact (Lens.entry_apart hl).parts _ _

/-- The two bytes of a half. -/
theorem halfLens_apart {l : Location} {half : BitVec 1}
    (h : b.1 = l → b.2.toNat ≠ 2 * half.toNat ∧ b.2.toNat ≠ 2 * half.toNat + 1) :
    (halfLens l half).Apart (byteLens b) := by
  by_cases hl : l = b.1
  · obtain ⟨h0, h1⟩ := h hl.symm
    unfold halfLens byteLens
    rw [hl]
    exact (Lens.field_apart (by omega)).within _
  · exact (Lens.entry_apart hl).parts _ _

/-- An offset is its dword and the byte in it. -/
theorem offset_toNat (offset : BitVec 8) :
    offset.toNat = 4 * (offset.extractLsb' 2 6).toNat + (offset.setWidth 2).toNat := by
  have h := offset.isLt
  rw [BitVec.extractLsb'_toNat, BitVec.toNat_setWidth, Nat.shiftRight_eq_div_pow]
  omega

/-- Two accesses of one byte are to the same function and offset. -/
theorem byteAddress_inj (dev dev' : PciDevice) (offset offset' : BitVec 8) :
    dev.byteAddress offset = dev'.byteAddress offset' ↔ dev.bus = dev'.bus ∧
      dev.device.setWidth 5 = dev'.device.setWidth 5 ∧ dev.function.setWidth 3 = dev'.function.setWidth 3 ∧
        offset = offset' := by
  unfold PciDevice.byteAddress PciDevice.place
  rw [Prod.mk.injEq, Location.mk.injEq]
  constructor
  · rintro ⟨⟨hb, hd, hf, ho⟩, hi⟩
    refine ⟨hb, hd, hf, BitVec.eq_of_toNat_eq ?_⟩
    rw [offset_toNat, ho, hi, ← offset_toNat]
  · rintro ⟨hb, hd, hf, rfl⟩
    exact ⟨⟨hb, hd, hf, rfl⟩, rfl⟩

theorem dword_offset (offset : BitVec 8) (i : BitVec 2) :
    ((offset &&& 0xFC#8) + i.setWidth 8).extractLsb' 2 6 = offset.extractLsb' 2 6 ∧
      ((offset &&& 0xFC#8) + i.setWidth 8).setWidth 2 = i := by
  revert offset i
  decide

/-- The four bytes of the dword that an offset lies in. -/
theorem byteAddress_dword (dev : PciDevice) (offset : BitVec 8) (i : BitVec 2) :
    dev.byteAddress ((offset &&& 0xFC#8) + i.setWidth 8) = (dev.place offset, i) := by
  obtain ⟨hd, hi⟩ := dword_offset offset i
  unfold PciDevice.byteAddress PciDevice.place
  rw [hd, hi]

theorem even_offset {offset : BitVec 8} (h : 2 ∣ offset.toNat) :
    (offset + 1#8).extractLsb' 2 6 = offset.extractLsb' 2 6 ∧
    (offset.setWidth 2).toNat = 2 * (offset.extractLsb' 1 1).toNat ∧
    ((offset + 1#8).setWidth 2).toNat = 2 * (offset.extractLsb' 1 1).toNat + 1 := by
  revert offset
  decide

theorem place_of_dword (dev : PciDevice) {offset offset' : BitVec 8}
    (h : offset.extractLsb' 2 6 = offset'.extractLsb' 2 6) : dev.place offset = dev.place offset' := by
  unfold PciDevice.place
  rw [h]

/-- The two bytes of the half at an even offset. -/
theorem half_bytes {dev : PciDevice} {offset : BitVec 8} (h : 2 ∣ offset.toNat)
    (hb : b ∉ ({dev.byteAddress offset, dev.byteAddress (offset + 1#8)} : Set ByteAddress)) :
    (halfLens (dev.place offset) (offset.extractLsb' 1 1)).Apart (byteLens b) := by
  obtain ⟨hp, h0, h1⟩ := even_offset h
  have hplace : dev.place (offset + 1#8) = dev.place offset := place_of_dword dev hp
  apply halfLens_apart
  intro hl
  refine ⟨fun hi => hb ?_, fun hi => hb ?_⟩
  · exact .inl (Prod.ext hl (BitVec.eq_of_toNat_eq (hi.trans h0.symm)))
  · exact .inr (Prod.ext (hl.trans hplace.symm) (BitVec.eq_of_toNat_eq (hi.trans h1.symm)))

end Bytes

/-! ## Little-endian order -/

/-- The lowest byte of a field comes last. -/
theorem field_eq_bytes (x : BitVec 32) (j n : Nat) :
    x.extractLsb' j (n + 8) = x.extractLsb' (j + 8) n ++ x.extractLsb' j 8 :=
  (BitVec.extractLsb'_append_extractLsb'_eq_extractLsb' rfl).symm

theorem dword_eq_bytes (x : BitVec 32) :
    x = x.extractLsb' 24 8 ++ x.extractLsb' 16 8 ++ x.extractLsb' 8 8 ++ x.extractLsb' 0 8 :=
  calc x = x.extractLsb' 0 32 := BitVec.extractLsb'_eq_self.symm
    _ = x.extractLsb' 8 24 ++ x.extractLsb' 0 8 := field_eq_bytes x 0 24
    _ = x.extractLsb' 16 16 ++ x.extractLsb' 8 8 ++ x.extractLsb' 0 8 := by rw [field_eq_bytes x 8 16]
    _ = x.extractLsb' 24 8 ++ x.extractLsb' 16 8 ++ x.extractLsb' 8 8 ++ x.extractLsb' 0 8 := by
      rw [field_eq_bytes x 16 8]

theorem dword_bytes (s : Bus) (dev : PciDevice) (offset : BitVec 8) :
    s.dword dev offset = s.byteAt (dev.place offset, 3#2) ++ s.byteAt (dev.place offset, 2#2) ++
      s.byteAt (dev.place offset, 1#2) ++ s.byteAt (dev.place offset, 0#2) :=
  dword_eq_bytes (s.contents (dev.place offset))

/-- The byte at the higher offset is the upper one. -/
theorem word_bytes (s : Bus) (dev : PciDevice) {offset : BitVec 8} (h : 2 ∣ offset.toNat) :
    s.word dev offset = s.byteAt (dev.byteAddress (offset + 1#8)) ++ s.byteAt (dev.byteAddress offset) := by
  obtain ⟨hp, h0, h1⟩ := even_offset h
  have hsplit := field_eq_bytes (s.contents (dev.place offset)) (16 * (offset.extractLsb' 1 1).toNat) 8
  have hhigh : 16 * (offset.extractLsb' 1 1).toNat + 8 = 8 * ((offset + 1#8).setWidth 2).toNat := by omega
  have hlow : 16 * (offset.extractLsb' 1 1).toNat = 8 * (offset.setWidth 2).toNat := by omega
  have hnext : dev.byteAddress (offset + 1#8) = (dev.place offset, (offset + 1#8).setWidth 2) :=
    Prod.ext (place_of_dword dev hp) rfl
  rw [hhigh, hlow] at hsplit
  rw [word_eq, hnext]
  show (s.contents (dev.place offset)).extractLsb' _ 16 = _
  rw [hlow]
  exact hsplit

/-- The 8-bit and 16-bit accessors are lenses, and the reads of all three widths are of the same bytes. -/
theorem subDword_lens {s : Bus} (hs : s.Plain) (dev : PciDevice) :
    (∀ offset, s.Lawful (configReadU8 dev.bus dev.device dev.function offset)
      (configWriteU8 dev.bus dev.device dev.function offset) {dev.byteAddress offset}) ∧
    (∀ offset, 2 ∣ offset.toNat → s.Lawful (configReadU16 dev.bus dev.device dev.function offset)
      (configWriteU16 dev.bus dev.device dev.function offset)
      {dev.byteAddress offset, dev.byteAddress (offset + 1#8)}) ∧
    (∀ offset, (configReadU8 dev.bus dev.device dev.function offset).run' s = .ok (s.byteAt (dev.byteAddress offset))) ∧
    (∀ offset, 2 ∣ offset.toNat → (configReadU16 dev.bus dev.device dev.function offset).run' s =
      .ok (s.byteAt (dev.byteAddress (offset + 1#8)) ++ s.byteAt (dev.byteAddress offset))) ∧
    (∀ offset, (configReadU32 dev.bus dev.device dev.function offset).run' s =
      .ok (s.byteAt (dev.byteAddress ((offset &&& 0xFC#8) + 3#8)) ++
        s.byteAt (dev.byteAddress ((offset &&& 0xFC#8) + 2#8)) ++
        s.byteAt (dev.byteAddress ((offset &&& 0xFC#8) + 1#8)) ++
        s.byteAt (dev.byteAddress ((offset &&& 0xFC#8) + 0#8)))) ∧
    ∀ (dev' : PciDevice) (offset offset' : BitVec 8), dev.byteAddress offset = dev'.byteAddress offset' ↔
      dev.bus = dev'.bus ∧ dev.device.setWidth 5 = dev'.device.setWidth 5 ∧
        dev.function.setWidth 3 = dev'.function.setWidth 3 ∧ offset = offset' := by
  refine ⟨fun offset => ?_, fun offset heven => ?_, fun offset => ?_, fun offset heven => ?_, fun offset => ?_,
    fun dev' => ?_⟩
  · exact (byte_accesses dev offset).lawful hs fun a ha => byteLens_apart ha
  · exact (half_accesses dev offset).lawful hs fun a ha => half_bytes heven ha
  · exact run'_of_run (by rw [configReadU8_run, byte_eq]; rfl)
  · exact run'_of_run (by rw [configReadU16_run, word_bytes s dev heven])
  · have h := byteAddress_dword dev offset
    have hrun := configReadU32_run s dev offset
    rw [dword_bytes, ← h 3#2, ← h 2#2, ← h 1#2, ← h 0#2] at hrun
    exact run'_of_run hrun
  · exact byteAddress_inj dev dev'

/-- A register with `0x89ABCDEF`: its second byte and its upper word are lenses, and are read as parts of the dword. -/
theorem subDword_lens_register : let s : Bus := ⟨0#32, fun p =>
      ⟨if p = PciDevice.place ⟨0#8, 3#8, 1#8⟩ 0x3C#8 then 0x89ABCDEF#32 else 0#32, BitVec.allOnes 32, 0#32⟩, []⟩
    s.Plain ∧
    s.Lawful (configReadU8 0#8 3#8 1#8 0x3D#8) (configWriteU8 0#8 3#8 1#8 0x3D#8)
      {PciDevice.byteAddress ⟨0#8, 3#8, 1#8⟩ 0x3D#8} ∧
    s.Lawful (configReadU16 0#8 3#8 1#8 0x3E#8) (configWriteU16 0#8 3#8 1#8 0x3E#8)
      {PciDevice.byteAddress ⟨0#8, 3#8, 1#8⟩ 0x3E#8, PciDevice.byteAddress ⟨0#8, 3#8, 1#8⟩ 0x3F#8} ∧
    (configReadU8 0#8 3#8 1#8 0x3D#8).run' s = .ok 0xCD#8 ∧ (configReadU16 0#8 3#8 1#8 0x3E#8).run' s = .ok 0x89AB#16 ∧
    (configReadU32 0#8 3#8 1#8 0x3E#8).run' s = .ok 0x89ABCDEF#32 := by
  intro s
  have hs : s.Plain := fun _ => ⟨rfl, rfl⟩
  obtain ⟨hbyte, hword, hread8, hread16, hread32, -⟩ := subDword_lens hs ⟨0#8, 3#8, 1#8⟩
  refine ⟨hs, hbyte 0x3D#8, hword 0x3E#8 (by decide), (hread8 0x3D#8).trans ?_, (hread16 0x3E#8 (by decide)).trans ?_,
    (hread32 0x3E#8).trans ?_⟩ <;> decide

end Octagram.Pci

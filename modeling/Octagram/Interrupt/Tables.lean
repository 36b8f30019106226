/-
`gdt.rs` and `idt.rs`: the bytes of the segment descriptors and of the gates, and what the processor
reads in them (`gdtEntry_decode`, `gate_fields`). `load_gdt` is run instruction by instruction:
wherever the GDT lies and whatever segments it finds, it comes to its end without a fault on the
code and data segments of the new table (`loadGdt_loads`), as its push and its return leave the
table alone (`gdtAt_push`).
-/
import Octagram.Interrupt.Stubs
import Octagram.Lib.Bits

namespace Octagram.Interrupt

open Octagram.Lib

/-! ## Descriptors -/

/-- `GdtEntry` of `gdt.rs`. -/
structure GdtEntry where
  limitLow : BitVec 16
  baseLow : BitVec 16
  baseMiddle : BitVec 8
  access : BitVec 8
  limitHighFlags : BitVec 8
  baseHigh : BitVec 8

/-- `GdtEntry::new` -/
def GdtEntry.new (base limit : BitVec 32) (access flags : BitVec 8) : GdtEntry where
  limitLow := (limit &&& 0xFFFF#32).setWidth 16
  baseLow := (base &&& 0xFFFF#32).setWidth 16
  baseMiddle := ((base >>> 16) &&& 0xFF#32).setWidth 8
  access := access
  limitHighFlags := ((limit >>> 16) &&& 0x0F#32).setWidth 8 ||| ((flags &&& 0x0F#8) <<< 4)
  baseHigh := ((base >>> 24) &&& 0xFF#32).setWidth 8

/-- The eight bytes of an entry as the processor reads them: `repr(C, packed)`, the first field lowest. -/
def GdtEntry.word (e : GdtEntry) : BitVec 64 :=
  e.baseHigh ++ e.limitHighFlags ++ e.access ++ e.baseMiddle ++ e.baseLow ++ e.limitLow

/-- `GDT`. -/
def gdt : List GdtEntry :=
  [GdtEntry.new 0 0 0 0, GdtEntry.new 0 0xFFFFF 0x9B 0b1010, GdtEntry.new 0 0xFFFFF 0x93 0b0000]

/-- `IdtEntry` of `idt.rs`. -/
structure IdtEntry where
  offsetLow : BitVec 16
  selector : BitVec 16
  ist : BitVec 8
  typeAttr : BitVec 8
  offsetMid : BitVec 16
  offsetHigh : BitVec 32
  zero : BitVec 32

/-- `IdtEntry::missing` -/
def IdtEntry.missing : IdtEntry := ⟨0, 0, 0, 0, 0, 0, 0⟩

/-- `IdtEntry::new`: an interrupt gate of privilege level 0. -/
def IdtEntry.new (handler : BitVec 64) (selector : BitVec 16) : IdtEntry where
  offsetLow := handler.setWidth 16
  selector := selector
  ist := 0
  typeAttr := 0x8E
  offsetMid := (handler >>> 16).setWidth 16
  offsetHigh := (handler >>> 32).setWidth 32
  zero := 0

/-- The first eight bytes of an entry, and the last. -/
def IdtEntry.low (e : IdtEntry) : BitVec 64 := e.offsetMid ++ e.typeAttr ++ e.ist ++ e.selector ++ e.offsetLow

/-- The last eight bytes. -/
def IdtEntry.high (e : IdtEntry) : BitVec 64 := e.zero ++ e.offsetHigh

/-! ## What the processor reads in them -/

/-- A segment descriptor; `ordinary` is S, of code and data segments. -/
structure SegmentDescriptor where
  base : BitVec 32
  limit : BitVec 20
  type : BitVec 4
  ordinary : Bool
  dpl : BitVec 2
  present : Bool
  available : Bool
  long : Bool
  big : Bool
  granular : Bool
  deriving DecidableEq

/-- The fields of a descriptor, where the processor looks for them. -/
def SegmentDescriptor.ofWord (w : BitVec 64) : SegmentDescriptor where
  base := w.extractLsb' 56 8 ++ w.extractLsb' 32 8 ++ w.extractLsb' 16 16
  limit := w.extractLsb' 48 4 ++ w.extractLsb' 0 16
  type := w.extractLsb' 40 4
  ordinary := w.getLsbD 44
  dpl := w.extractLsb' 45 2
  present := w.getLsbD 47
  available := w.getLsbD 52
  long := w.getLsbD 53
  big := w.getLsbD 54
  granular := w.getLsbD 55

/-- A gate of the interrupt table; `type` with the S bit. -/
structure Gate where
  offset : BitVec 64
  selector : BitVec 16
  ist : BitVec 3
  type : BitVec 5
  dpl : BitVec 2
  present : Bool
  deriving DecidableEq

/-- The fields of a gate, where the processor looks for them. -/
def Gate.ofWords (low high : BitVec 64) : Gate where
  offset := high.extractLsb' 0 32 ++ low.extractLsb' 48 16 ++ low.extractLsb' 0 16
  selector := low.extractLsb' 16 16
  ist := low.extractLsb' 32 3
  type := low.extractLsb' 40 5
  dpl := low.extractLsb' 45 2
  present := low.getLsbD 47

/-! ## The fields, where the processor looks for them -/

section Fields

variable (a b c d : BitVec 8) (e f : BitVec 16)

theorem segment_bits (i : Nat) : (a ++ b ++ c ++ d ++ e ++ f).getLsbD i =
    if i < 16 then f.getLsbD i else if i - 16 < 16 then e.getLsbD (i - 16) else
    if i - 16 - 16 < 8 then d.getLsbD (i - 16 - 16) else if i - 16 - 16 - 8 < 8 then c.getLsbD (i - 16 - 16 - 8) else
    if i - 16 - 16 - 8 - 8 < 8 then b.getLsbD (i - 16 - 16 - 8 - 8) else a.getLsbD (i - 16 - 16 - 8 - 8 - 8) := by
  simp only [BitVec.getLsbD_append, -Nat.reduceAdd]

theorem segment_fields : SegmentDescriptor.ofWord (a ++ b ++ c ++ d ++ e ++ f) =
    { base := a ++ d ++ e
      limit := b.extractLsb' 0 4 ++ f
      type := c.extractLsb' 0 4
      ordinary := c.getLsbD 4
      dpl := c.extractLsb' 5 2
      present := c.getLsbD 7
      available := b.getLsbD 4
      long := b.getLsbD 5
      big := b.getLsbD 6
      granular := b.getLsbD 7 } := by
  have hbase : (a ++ b ++ c ++ d ++ e ++ f).extractLsb' 56 8 = a ∧ (a ++ b ++ c ++ d ++ e ++ f).extractLsb' 32 8 = d ∧
      (a ++ b ++ c ++ d ++ e ++ f).extractLsb' 16 16 = e := by
    simp (disch := decide) only [BitVec.extractLsb'_append_eq_of_le, BitVec.extractLsb'_append_eq_of_add_le,
      -Nat.reduceAdd]
    simp
  have hrest : (a ++ b ++ c ++ d ++ e ++ f).extractLsb' 48 4 = b.extractLsb' 0 4 ∧
    (a ++ b ++ c ++ d ++ e ++ f).extractLsb' 0 16 = f ∧
      (a ++ b ++ c ++ d ++ e ++ f).extractLsb' 40 4 = c.extractLsb' 0 4 ∧
      (a ++ b ++ c ++ d ++ e ++ f).extractLsb' 45 2 = c.extractLsb' 5 2 := by
    simp (disch := decide) only [BitVec.extractLsb'_append_eq_of_le, BitVec.extractLsb'_append_eq_of_add_le,
      -Nat.reduceAdd]
    simp
  have hbits := segment_bits a b c d e f
  rw [SegmentDescriptor.mk.injEq]
  refine ⟨congrArg₂ (· ++ ·) (congrArg₂ (· ++ ·) hbase.1 hbase.2.1) hbase.2.2, congrArg₂ (· ++ ·) hrest.1 hrest.2.1,
    hrest.2.2.1, hbits 44, hrest.2.2.2, hbits 47, hbits 52, hbits 53, hbits 54, hbits 55⟩

variable (mid low sel : BitVec 16) (attr ist : BitVec 8) (zero high : BitVec 32)

theorem gate_fields : Gate.ofWords (mid ++ attr ++ ist ++ sel ++ low) (zero ++ high) =
    { offset := high ++ mid ++ low
      selector := sel
      ist := ist.extractLsb' 0 3
      type := attr.extractLsb' 0 5
      dpl := attr.extractLsb' 5 2
      present := attr.getLsbD 7 } := by
  have hoffset : (zero ++ high).extractLsb' 0 32 = high ∧ (mid ++ attr ++ ist ++ sel ++ low).extractLsb' 48 16 = mid ∧
      (mid ++ attr ++ ist ++ sel ++ low).extractLsb' 0 16 = low := by
    simp (disch := decide) only [BitVec.extractLsb'_append_eq_of_le, BitVec.extractLsb'_append_eq_of_add_le,
      -Nat.reduceAdd]
    simp
  have hrest : (mid ++ attr ++ ist ++ sel ++ low).extractLsb' 16 16 = sel ∧
      (mid ++ attr ++ ist ++ sel ++ low).extractLsb' 32 3 = ist.extractLsb' 0 3 ∧
      (mid ++ attr ++ ist ++ sel ++ low).extractLsb' 40 5 = attr.extractLsb' 0 5 ∧
      (mid ++ attr ++ ist ++ sel ++ low).extractLsb' 45 2 = attr.extractLsb' 5 2 := by
    simp (disch := decide) only [BitVec.extractLsb'_append_eq_of_le, BitVec.extractLsb'_append_eq_of_add_le,
      -Nat.reduceAdd]
    simp
  have hpresent : (mid ++ attr ++ ist ++ sel ++ low).getLsbD 47 = attr.getLsbD 7 := by
    simp only [BitVec.getLsbD_append, -Nat.reduceAdd]
    rfl
  rw [Gate.mk.injEq]
  exact ⟨congrArg₂ (· ++ ·) (congrArg₂ (· ++ ·) hoffset.1 hoffset.2.1) hoffset.2.2, hrest.1, hrest.2.1, hrest.2.2.1,
    hrest.2.2.2, hpresent⟩

end Fields

/-- A part of a word, shifted down and cut to its width. -/
theorem shifted_part {w : Nat} (x : BitVec w) (i k : Nat) : (x >>> i).setWidth k = x.extractLsb' i k := by
  ext j hj
  simp

/-- A part of a word that is masked and cut to its width. -/
theorem masked_part {w : Nat} (x : BitVec w) (k : Nat) (h : k ≤ w) :
    (x &&& BitVec.ofNat w (2 ^ k - 1)).setWidth k = x.setWidth k := by
  apply BitVec.eq_of_toNat_eq
  rw [BitVec.toNat_setWidth, BitVec.toNat_setWidth, and_lowMask_toNat x h, Nat.mod_mod]

/-- The processor reads in an entry what `GdtEntry::new` was given: 20 bits of the limit, and four flags. -/
theorem gdtEntry_decode (base limit : BitVec 32) (access flags : BitVec 8) :
    SegmentDescriptor.ofWord (GdtEntry.new base limit access flags).word =
      { base := base
        limit := limit.setWidth 20
        type := access.extractLsb' 0 4
        ordinary := access.getLsbD 4
        dpl := access.extractLsb' 5 2
        present := access.getLsbD 7
        available := flags.getLsbD 0
        long := flags.getLsbD 1
        big := flags.getLsbD 2
        granular := flags.getLsbD 3 } := by
  -- the three parts of the base and the two of the limit come together again
  have hbase : (GdtEntry.new base limit access flags).baseHigh ++ (GdtEntry.new base limit access flags).baseMiddle ++
      (GdtEntry.new base limit access flags).baseLow = base := by
    have hhigh : ((base >>> 24) &&& 0xFF#32).setWidth 8 = base.extractLsb' 24 8 :=
      (masked_part _ 8 (by decide)).trans (shifted_part _ _ _)
    have hmiddle : ((base >>> 16) &&& 0xFF#32).setWidth 8 = base.extractLsb' 16 8 :=
      (masked_part _ 8 (by decide)).trans (shifted_part _ _ _)
    have hlow : (base &&& 0xFFFF#32).setWidth 16 = base.extractLsb' 0 16 :=
      (masked_part _ 16 (by decide)).trans (shifted_part base 0 16)
    refine (congrArg₂ (· ++ ·) (congrArg₂ (· ++ ·) hhigh hmiddle) hlow).trans ?_
    rw [BitVec.extractLsb'_append_extractLsb'_eq_extractLsb' (by decide),
      BitVec.extractLsb'_append_extractLsb'_eq_extractLsb' (by decide)]
    exact BitVec.extractLsb'_eq_self
  have hlimit : (GdtEntry.new base limit access flags).limitHighFlags.extractLsb' 0 4 ++
    (GdtEntry.new base limit access flags).limitLow =
      limit.setWidth 20 := by
    have hhigh : (((limit >>> 16) &&& 0x0F#32).setWidth 8 ||| ((flags &&& 0x0F#8) <<< 4)).extractLsb' 0 4 =
      limit.extractLsb' 16 4 := by
      ext i hi
      have hmask : ∀ j : Fin 4, (0x0F#8).getLsbD j.val = true := by decide
      simp [hi, Nat.lt_trans hi (by decide : 4 < 8)]
      exact fun _ => hmask ⟨i, hi⟩
    have hlow : (limit &&& 0xFFFF#32).setWidth 16 = limit.extractLsb' 0 16 :=
      (masked_part _ 16 (by decide)).trans (shifted_part limit 0 16)
    refine (congrArg₂ (· ++ ·) hhigh hlow).trans ?_
    rw [BitVec.extractLsb'_append_extractLsb'_eq_extractLsb' (by decide)]
    exact (shifted_part limit 0 20).symm
  refine (segment_fields _ _ _ _ _ _).trans ?_
  rw [SegmentDescriptor.mk.injEq]
  refine ⟨hbase, hlimit, rfl, rfl, rfl, rfl, ?_, ?_, ?_, ?_⟩
  all_goals simp [GdtEntry.new]

theorem idtEntry_decode (handler : BitVec 64) (selector : BitVec 16) :
    Gate.ofWords (IdtEntry.new handler selector).low (IdtEntry.new handler selector).high =
      ⟨handler, selector, 0, 0xE, 0, true⟩ := by
  have hoffset : (IdtEntry.new handler selector).offsetHigh ++ (IdtEntry.new handler selector).offsetMid ++
      (IdtEntry.new handler selector).offsetLow = handler := by
    have hlow : handler.setWidth 16 = handler.extractLsb' 0 16 := shifted_part handler 0 16
    refine (congrArg₂ (· ++ ·) (congrArg₂ (· ++ ·) (shifted_part handler 32 32) (shifted_part handler 16 16))
      hlow).trans ?_
    rw [BitVec.extractLsb'_append_extractLsb'_eq_extractLsb' (by decide),
      BitVec.extractLsb'_append_extractLsb'_eq_extractLsb' (by decide)]
    exact BitVec.extractLsb'_eq_self
  refine (gate_fields _ _ _ _ _ _ _).trans ?_
  rw [Gate.mk.injEq]
  have hattr : (0x8E#8).extractLsb' 0 5 = 0xE#5 ∧ (0x8E#8).extractLsb' 5 2 = 0#2 ∧ (0x8E#8).getLsbD 7 = true := by
    decide
  exact ⟨hoffset, rfl, rfl, hattr.1, hattr.2.1, hattr.2.2⟩

/-! ## The processor -/

/-- GDTR or IDTR. -/
structure TableRegister where
  limit : BitVec 16
  base : Nat
  deriving DecidableEq

/-- A segment register with what the processor keeps of the descriptor. -/
structure Segment where
  selector : BitVec 16
  descriptor : SegmentDescriptor
  deriving DecidableEq

/-- The segment registers that `load_gdt` loads. -/
inductive SegmentReg
  | ds | es | ss
  deriving DecidableEq

/-- The processor in 64-bit mode, on privilege level 0. -/
structure Processor where
  cpu : Cpu
  rip : BitVec 64
  cs : Segment
  data : SegmentReg → Segment
  gdtr : TableRegister
  idtr : TableRegister

/-- Bits 47 to 63 are equal. -/
def Canonical (a : BitVec 64) : Prop := a.extractLsb' 47 17 = 0 ∨ a.extractLsb' 47 17 = BitVec.allOnes 17

instance (a : BitVec 64) : Decidable (Canonical a) := inferInstanceAs (Decidable (_ ∨ _))

namespace Processor

variable (p : Processor)

/-- The descriptor that a selector names in the GDT: TI is clear, and the descriptor within the limit. -/
def descriptor (selector : BitVec 16) : Option SegmentDescriptor :=
  if selector.getLsbD 2 = false ∧ selector.toNat / 8 * 8 + 7 ≤ p.gdtr.limit.toNat then
    some (.ofWord (p.cpu.mem.word (p.gdtr.base + selector.toNat / 8 * 8)))
  else
    none

/-- The segment that `mov` loads; `none`: the selector is null, or the load faults. -/
def dataSegment (r : SegmentReg) (selector : BitVec 16) : Option Segment :=
  if selector.toNat / 4 = 0 then none else
  (p.descriptor selector).bind fun d =>
    let writable := d.type.getLsbD 3 = false ∧ d.type.getLsbD 1 = true
    let readable := d.type.getLsbD 3 = false ∨ d.type.getLsbD 1 = true
    if d.ordinary = true ∧ d.present = true ∧ (if r = .ss then writable ∧ selector.toNat % 4 = 0 ∧ d.dpl = 0 else
        readable ∧ selector.toNat % 4 ≤ d.dpl.toNat) then
      some ⟨selector, d⟩
    else
      none

/-- The segment that a far return to the same privilege level loads, and goes on in 64-bit mode. -/
def codeSegment (selector : BitVec 16) : Option Segment :=
  if selector.toNat / 4 = 0 then none else
  (p.descriptor selector).bind fun d =>
    if d.ordinary = true ∧ d.present = true ∧ d.type.getLsbD 3 = true ∧ selector.toNat % 4 = 0 ∧ d.dpl = 0 ∧
        d.long = true ∧ d.big = false then
      some ⟨selector, d⟩
    else
      none

end Processor

/-! ## `load_gdt` -/

/-- The instructions of `load_gdt`. -/
inductive GdtInstr
  | lgdt (descriptor : TableRegister)
  | movAx (imm : BitVec 16)
  | movSegAx (r : SegmentReg)
  | pushImm (imm : BitVec 32)
  | leaRax
  | pushRax
  | retfq

/-- What an instruction does; `label` is the address of the label after `retfq`. -/
def GdtInstr.exec (label : BitVec 64) : GdtInstr → Processor → Option Processor
  | .lgdt descriptor, p => some { p with gdtr := descriptor }
  | .movAx imm, p => some { p with cpu := p.cpu.set .rax ((p.cpu.regs .rax).extractLsb' 16 48 ++ imm) }
  | .movSegAx r, p => (p.dataSegment r ((p.cpu.regs .rax).setWidth 16)).map fun s =>
    { p with data := Function.update p.data r s }
  | .pushImm imm, p => some { p with cpu := p.cpu.push (imm.signExtend 64) }
  | .leaRax, p => some { p with cpu := p.cpu.set .rax label }
  | .pushRax, p => some { p with cpu := p.cpu.push (p.cpu.regs .rax) }
  | .retfq, p =>
    let target := p.cpu.mem.word (p.cpu.regs .rsp).toNat
    let selector := (p.cpu.mem.word (p.cpu.regs .rsp + 8#64).toNat).setWidth 16
    if Canonical target then
      (p.codeSegment selector).map fun s =>
        { p with rip := target, cs := s, cpu := p.cpu.set .rsp (p.cpu.regs .rsp + 16#64) }
    else
      none

/-- The assembly of `load_gdt`, with `GDTR` once its base is set. -/
def loadGdt (gdtAddr : Nat) : List GdtInstr :=
  [.lgdt ⟨BitVec.ofNat 16 (8 * gdt.length - 1), gdtAddr⟩, .movAx 0x10, .movSegAx .ds, .movSegAx .es, .movSegAx .ss,
    .pushImm 0x08, .leaRax, .pushRax, .retfq]

/-- The run of a sequence; `none`: an instruction faults. -/
def runGdt (label : BitVec 64) (code : List GdtInstr) (p : Processor) : Option Processor :=
  code.foldlM (fun p i => i.exec label p) p

/-- `GDT` lies at an address. -/
def GdtAt (m : Ram) (gdtAddr : Nat) : Prop := ∀ i (h : i < gdt.length), m.word (gdtAddr + 8 * i) = gdt[i].word

/-- The code segment of the new table. -/
def kernelCode : Segment := ⟨0x08, .ofWord (GdtEntry.new 0 0xFFFFF 0x9B 0b1010).word⟩

/-- Its data segment. -/
def kernelData : Segment := ⟨0x10, .ofWord (GdtEntry.new 0 0xFFFFF 0x93 0b0000).word⟩

section LoadGdt

variable {p : Processor} {gdtAddr : Nat}

theorem descriptor_of_gdt (h : GdtAt p.cpu.mem gdtAddr) (hr : p.gdtr = ⟨23, gdtAddr⟩) :
    p.descriptor 0x08#16 = some kernelCode.descriptor ∧ p.descriptor 0x10#16 = some kernelData.descriptor := by
  have h1 := h 1 (by decide)
  have h2 := h 2 (by decide)
  unfold Processor.descriptor
  rw [hr]
  have hlimit : (0x08#16).toNat / 8 * 8 + 7 ≤ (23#16).toNat ∧ (0x10#16).toNat / 8 * 8 + 7 ≤ (23#16).toNat := by decide
  constructor
  · refine (if_pos ⟨by decide, hlimit.1⟩).trans (congrArg some ?_)
    exact congrArg SegmentDescriptor.ofWord h1
  · refine (if_pos ⟨by decide, hlimit.2⟩).trans (congrArg some ?_)
    exact congrArg SegmentDescriptor.ofWord h2

theorem segments_of_gdt (h : GdtAt p.cpu.mem gdtAddr) (hr : p.gdtr = ⟨23, gdtAddr⟩) :
    p.codeSegment 0x08#16 = some kernelCode ∧ ∀ r, p.dataSegment r 0x10#16 = some kernelData := by
  obtain ⟨hcode, hdata⟩ := descriptor_of_gdt h hr
  have hc := gdtEntry_decode 0 0xFFFFF 0x9B 0b1010
  have hd := gdtEntry_decode 0 0xFFFFF 0x93 0b0000
  constructor
  · unfold Processor.codeSegment
    rw [hcode, Option.bind_some, if_neg (by decide)]
    refine (if_pos ?_).trans rfl
    rw [kernelCode, hc]
    decide
  · intro r
    unfold Processor.dataSegment
    rw [hdata, Option.bind_some, if_neg (by decide)]
    refine (if_pos ?_).trans rfl
    rw [kernelData, hd]
    cases r <;> decide

theorem runGdt_cons {label : BitVec 64} {i : GdtInstr} {rest : List GdtInstr} {q : Processor}
    (h : i.exec label p = some q) : runGdt label (i :: rest) p = runGdt label rest q := by
  unfold runGdt
  rw [List.foldlM_cons, h]
  rfl

theorem movSegAx_exec (label : BitVec 64) (h : GdtAt p.cpu.mem gdtAddr) (hr : p.gdtr = ⟨23, gdtAddr⟩)
    (hax : (p.cpu.regs .rax).setWidth 16 = 0x10#16) (r : SegmentReg) :
    (GdtInstr.movSegAx r).exec label p = some { p with data := Function.update p.data r kernelData } := by
  show (p.dataSegment r ((p.cpu.regs .rax).setWidth 16)).map _ = _
  rw [hax, (segments_of_gdt h hr).2 r]
  rfl

/-- A push onto a stack that does not reach the GDT. -/
theorem gdtAt_push {c : Cpu} (h : GdtAt c.mem gdtAddr) (hsp : 8 ≤ (c.regs .rsp).toNat)
    (hgdt : gdtAddr + 24 ≤ (c.regs .rsp).toNat - 8 ∨ (c.regs .rsp).toNat ≤ gdtAddr) (v : BitVec 64) :
    GdtAt (c.push v).mem gdtAddr ∧ ((c.push v).regs .rsp).toNat = (c.regs .rsp).toNat - 8 := by
  have hlt := (c.regs .rsp).isLt
  have htop : (c.regs .rsp - 8#64).toNat = (c.regs .rsp).toNat - 8 := by
    rw [BitVec.toNat_sub, BitVec.toNat_ofNat]
    omega
  refine ⟨fun i hi => ?_, by rw [push_rsp, htop]⟩
  have hlen : gdt.length = 3 := rfl
  show (c.mem.setWord (c.regs .rsp - 8#64).toNat v).word _ = _
  rw [Ram.word_setWord_of_disjoint _ _ (by omega)]
  exact h i hi

/-- The return loads the code segment from the GDT and goes on behind the label. -/
theorem retfq_exec {label base : BitVec 64} {vs : List (BitVec 64)} (h : GdtAt p.cpu.mem gdtAddr)
    (hr : p.gdtr = ⟨23, gdtAddr⟩) (hs : p.cpu.Stack base (label :: 0x08#64 :: vs)) (hlabel : Canonical label) :
    GdtInstr.retfq.exec label p =
      some { p with rip := label, cs := kernelCode, cpu := p.cpu.set .rsp (p.cpu.regs .rsp + 16#64) } := by
  have htarget : p.cpu.mem.word (p.cpu.regs .rsp).toNat = label := hs.head
  have hselector : (p.cpu.mem.word (p.cpu.regs .rsp + 8#64).toNat).setWidth 16 = 0x08#16 := by
    rw [hs.pop.head]
    decide
  unfold GdtInstr.exec
  simp only [htarget, hselector, if_pos hlabel, (segments_of_gdt h hr).1, Option.map_some]

/-- What `load_gdt` leaves behind, whatever segments it found. -/
structure GdtLoaded (gdtAddr : Nat) (label : BitVec 64) (p p' : Processor) : Prop where
  rip : p'.rip = label
  cs : p'.cs = kernelCode
  data : ∀ r, p'.data r = kernelData
  gdtr : p'.gdtr = ⟨23, gdtAddr⟩
  idtr : p'.idtr = p.idtr
  regs : ∀ r, r ≠ .rax → p'.cpu.regs r = p.cpu.regs r
  mem : ∀ a, a < (p.cpu.regs .rsp).toNat - 16 ∨ (p.cpu.regs .rsp).toNat ≤ a → p'.cpu.mem a = p.cpu.mem a
  gdt : GdtAt p'.cpu.mem gdtAddr

/-- `load_gdt` comes to its end without a fault, on code and data segments of its own. -/
theorem loadGdt_loads (p : Processor) {label : BitVec 64} (h : GdtAt p.cpu.mem gdtAddr) (hlabel : Canonical label)
    (haligned : 8 ∣ (p.cpu.regs .rsp).toNat) (hroom : 16 ≤ (p.cpu.regs .rsp).toNat)
    (hgdt : gdtAddr + 24 ≤ (p.cpu.regs .rsp).toNat - 16 ∨ (p.cpu.regs .rsp).toNat ≤ gdtAddr) :
    ∃ p', runGdt label (loadGdt gdtAddr) p = some p' ∧ GdtLoaded gdtAddr label p p' := by
  have hsp : Reg.rsp ≠ .rax := by decide
  -- up to the pushes neither memory nor the stack pointer changes
  let ax := (p.cpu.regs .rax).extractLsb' 16 48 ++ 0x10#16
  let q : Processor := { p with gdtr := ⟨23, gdtAddr⟩, cpu := p.cpu.set .rax ax }
  have hax : (q.cpu.regs .rax).setWidth 16 = 0x10#16 := by
    show ((p.cpu.set .rax ax).regs .rax).setWidth 16 = _
    rw [set_regs_self]
    exact BitVec.setWidth_append_eq_right
  have hmov : ∀ data r, (GdtInstr.movSegAx r).exec label { q with data := data } =
      some { q with data := Function.update data r kernelData } :=
        fun data r => movSegAx_exec (p := { q with data := data }) label h rfl hax r
  let data := Function.update (Function.update (Function.update p.data .ds kernelData) .es kernelData) .ss kernelData
  have hdata : ∀ r, data r = kernelData := by
    intro r
    cases r <;> rfl
  -- the two words that the return pops
  have hrsp : q.cpu.regs .rsp = p.cpu.regs .rsp := set_regs_of_ne p.cpu hsp ax
  have hs0 : q.cpu.Stack (p.cpu.regs .rsp) [] := by
    unfold Cpu.Stack
    rw [hrsp]
    exact Ram.Stack.empty _ haligned
  have hs1 := push_stack hs0 (by decide) ((0x08#32).signExtend 64)
  let c1 := (q.cpu.push ((0x08#32).signExtend 64)).set .rax label
  have hs2 : (c1.push label).Stack (p.cpu.regs .rsp) [label, 0x08#64] := by
    refine push_stack ?_ (by decide) label
    unfold Cpu.Stack
    rw [set_regs_of_ne _ hsp]
    exact hs1
  obtain ⟨hg1, ht1⟩ := gdtAt_push (c := q.cpu) h (by rw [hrsp]; omega) (by rw [hrsp]; omega) ((0x08#32).signExtend 64)
  rw [hrsp] at ht1
  have hc1 : (c1.regs .rsp).toNat = (p.cpu.regs .rsp).toNat - 8 := by rw [set_regs_of_ne _ hsp, ht1]
  obtain ⟨hg2, ht2⟩ := gdtAt_push (c := c1) hg1 (by rw [hc1]; omega) (by rw [hc1]; omega) label
  rw [hc1] at ht2
  refine ⟨{ q with
    data := data
    rip := label
    cs := kernelCode
    cpu := (c1.push label).set .rsp ((c1.push label).regs .rsp + 16#64) }, ?_, ?_⟩
  · refine (runGdt_cons (q := { p with gdtr := ⟨23, gdtAddr⟩ }) rfl).trans ((runGdt_cons (q := q) rfl).trans ?_)
    refine (runGdt_cons (hmov _ _)).trans ((runGdt_cons (hmov _ _)).trans ((runGdt_cons (hmov _ _)).trans ?_))
    refine (runGdt_cons (q := { q with data := data, cpu := q.cpu.push ((0x08#32).signExtend 64) }) rfl).trans ?_
    refine (runGdt_cons (q := { q with data := data, cpu := c1 }) rfl).trans ?_
    refine (runGdt_cons (q := { q with data := data, cpu := c1.push label }) ?_).trans ?_
    · show some _ = _
      rw [show c1.regs .rax = label from set_regs_self _ _ _]
    · exact (runGdt_cons (retfq_exec (p := { q with data := data, cpu := c1.push label }) hg2 rfl hs2 hlabel)).trans rfl
  · refine ⟨rfl, rfl, hdata, rfl, rfl, fun r hr => ?_, fun a ha => ?_, hg2⟩
    · by_cases hrs : r = .rsp
      · rw [hrs, set_regs_self]
        apply BitVec.eq_of_toNat_eq
        rw [BitVec.toNat_add, ht2]
        have hlt := (p.cpu.regs .rsp).isLt
        simp
        omega
      · rw [set_regs_of_ne _ hrs, push_regs_of_ne _ _ hrs, set_regs_of_ne _ hr, push_regs_of_ne _ _ hrs]
        exact set_regs_of_ne p.cpu hr ax
    · have hb1 : (q.cpu.regs .rsp - 8#64).toNat = (p.cpu.regs .rsp).toNat - 8 := by rw [← push_rsp, ht1]
      have hb2 : (c1.regs .rsp - 8#64).toNat = (p.cpu.regs .rsp).toNat - 8 - 8 := by rw [← push_rsp, ht2]
      refine (Ram.setWord_outside _ label ?_).trans (Ram.setWord_outside p.cpu.mem ((0x08#32).signExtend 64) ?_)
      · rw [hb2]
        omega
      · rw [hb1]
        omega

end LoadGdt

end Octagram.Interrupt

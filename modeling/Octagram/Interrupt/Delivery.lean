/-
`load_idt`, and what comes of an interrupt once both tables are loaded: whatever its vector is, the
processor comes to a stub, and the stub to `common_interrupt_handler` with the frame that says what
happened (`interrupts_reported`). An entry of the table is that of the last assignment to it
(`assign_at`). A vector without a stub leads to another exception, which may make a double fault of
two (`deliver`); the vector and the error code that come of it are `Event.reported`. From the stub
on it is the run of `stubs_transparent`.
-/
import Octagram.Interrupt.Tables

namespace Octagram.Interrupt

open Octagram.Lib

/-! ## `load_idt` -/

/-- The functions of `interrupt.rs` that gates point to. -/
inductive EntryPoint
  | divideErrorStub | debugStub | nmiStub | breakpointStub
  | doubleFaultStub | generalProtectionFaultStub | pageFaultStub
  | irq (n : Nat) | xhciIrqStub
  deriving DecidableEq

/-- Its code. -/
def EntryPoint.stub : EntryPoint → Stub
  | divideErrorStub => Interrupt.divideErrorStub
  | debugStub => Interrupt.debugStub
  | nmiStub => Interrupt.nmiStub
  | breakpointStub => Interrupt.breakpointStub
  | doubleFaultStub => Interrupt.doubleFaultStub
  | generalProtectionFaultStub => Interrupt.generalProtectionFaultStub
  | pageFaultStub => Interrupt.pageFaultStub
  | irq n => Interrupt.irq n
  | xhciIrqStub => Interrupt.xhciIrqStub

/-- The assignments to `IDT`, one after the other. -/
def idtAssignments : List (Nat × EntryPoint) :=
  [(0, .divideErrorStub), (1, .debugStub), (2, .nmiStub), (3, .breakpointStub), (8, .doubleFaultStub),
    (13, .generalProtectionFaultStub), (14, .pageFaultStub)] ++
    (List.range' 33 222).map (fun n => (n, .irq n)) ++ [(44, .xhciIrqStub)]

/-- `IDT[v] = e`, where `IDT` lies at `idtAddr`. -/
def IdtEntry.store (e : IdtEntry) (idtAddr v : Nat) (m : Ram) : Ram :=
  (m.setWord (idtAddr + 16 * v) e.low).setWord (idtAddr + 16 * v + 8) e.high

/-- `load_idt`; `address` are those of the stubs. -/
def loadIdt (address : EntryPoint → BitVec 64) (idtAddr : Nat) (p : Processor) : Processor :=
  { p with
    cpu := { p.cpu with
      mem := idtAssignments.foldl (fun m x => (IdtEntry.new (address x.2) 0x08).store idtAddr x.1 m) p.cpu.mem }
    idtr := ⟨BitVec.ofNat 16 (16 * 256 - 1), idtAddr⟩ }

/-- The bytes of `IDT[v]` are those of an entry. -/
def IdtEntry.At (e : IdtEntry) (idtAddr v : Nat) (m : Ram) : Prop :=
  m.word (idtAddr + 16 * v) = e.low ∧ m.word (idtAddr + 16 * v + 8) = e.high

section Store

variable {m : Ram} {idtAddr v w : Nat} {e e' : IdtEntry}

theorem store_at (e : IdtEntry) (idtAddr v : Nat) (m : Ram) : e.At idtAddr v (e.store idtAddr v m) := by
  unfold IdtEntry.At IdtEntry.store
  constructor
  · rw [Ram.word_setWord_of_disjoint _ _ (by omega), Ram.word_setWord]
  · rw [Ram.word_setWord]

theorem IdtEntry.At.store (h : e.At idtAddr v m) (hne : v ≠ w) (e' : IdtEntry) :
    e.At idtAddr v (e'.store idtAddr w m) := by
  unfold IdtEntry.At IdtEntry.store
  rw [Ram.word_setWord_of_disjoint _ _ (by omega), Ram.word_setWord_of_disjoint _ _ (by omega),
    Ram.word_setWord_of_disjoint _ _ (by omega), Ram.word_setWord_of_disjoint _ _ (by omega)]
  exact h

/-- Assignments to other entries. -/
theorem IdtEntry.At.assign {g : EntryPoint → IdtEntry} (h : e.At idtAddr v m) (l : List (Nat × EntryPoint))
    (hl : ∀ x ∈ l, x.1 ≠ v) : e.At idtAddr v (l.foldl (fun m x => (g x.2).store idtAddr x.1 m) m) := by
  induction l generalizing m with
  | nil => exact h
  | cons x l ih =>
    rw [List.forall_mem_cons] at hl
    exact ih (h.store (Ne.symm hl.1) _) hl.2

/-- After a list of assignments an entry is that of the last one to it. -/
theorem assign_at {g : EntryPoint → IdtEntry} {x : Nat × EntryPoint} (m : Ram) (before after : List (Nat × EntryPoint))
    (h : ∀ y ∈ after, y.1 ≠ x.1) :
    (g x.2).At idtAddr x.1 ((before ++ x :: after).foldl (fun m x => (g x.2).store idtAddr x.1 m) m) := by
  rw [List.foldl_append, List.foldl_cons]
  exact (store_at _ _ _ _).assign after h

end Store

/-- The stub that the entry of a vector points to: that of the last assignment to it. -/
def installed (v : Nat) : Option EntryPoint := (idtAssignments.reverse.find? fun x => x.1 = v).map (·.2)

/-- The entry of a vector, where `IDT` was as the program starts with it. -/
def idtEntry (address : EntryPoint → BitVec 64) (v : Nat) : IdtEntry :=
  match installed v with
  | some e => .new (address e) 0x08
  | none => .missing

theorem installed_mem {v : Nat} {e : EntryPoint} (h : installed v = some e) : (v, e) ∈ idtAssignments := by
  obtain ⟨x, hx, rfl⟩ := Option.map_eq_some_iff.1 h
  have hv : x.1 = v := by simpa using List.find?_some hx
  rw [← hv]
  exact List.mem_reverse.1 (List.mem_of_find?_eq_some hx)

/-- Every assignment is of a stub that reports the vector it is for. -/
theorem assignment_stub {x : Nat × EntryPoint} (h : x ∈ idtAssignments) :
    x.1 < 255 ∧ x.2.stub ∈ stubs ∧ x.2.stub.vector = BitVec.ofNat 32 x.1 := by
  unfold idtAssignments at h
  rw [List.mem_append, List.mem_append, List.mem_map] at h
  rcases h with (h | ⟨n, hn, rfl⟩) | h
  · have hmem : ∀ stub : Stub,
      stub ∈ [Interrupt.divideErrorStub, Interrupt.debugStub, Interrupt.nmiStub, Interrupt.breakpointStub,
        Interrupt.doubleFaultStub, Interrupt.generalProtectionFaultStub, Interrupt.pageFaultStub] → stub ∈ stubs :=
      fun stub h => List.mem_append_left _ (List.mem_append_left _ h)
    simp only [List.mem_cons, List.not_mem_nil, or_false] at h
    rcases h with rfl | rfl | rfl | rfl | rfl | rfl | rfl
    all_goals exact ⟨by decide, hmem _ (by simp [EntryPoint.stub]), rfl⟩
  · rw [List.mem_range'_1] at hn
    refine ⟨by omega, List.mem_append_left _ (List.mem_append_right _ (List.mem_map.2 ⟨n, ?_, rfl⟩)), rfl⟩
    rw [List.mem_range'_1]
    exact hn
  · rw [List.mem_singleton] at h
    subst h
    exact ⟨by decide, List.mem_append_right _ (List.mem_singleton.2 rfl), rfl⟩

/-- After `load_idt` every entry is that of its vector. -/
theorem loadIdt_entry (address : EntryPoint → BitVec 64) {idtAddr : Nat} {p : Processor}
    (hzero : ∀ v < 256, IdtEntry.missing.At idtAddr v p.cpu.mem) {v : Nat} (hv : v < 256) :
    (idtEntry address v).At idtAddr v (loadIdt address idtAddr p).cpu.mem := by
  unfold idtEntry installed
  cases hf : idtAssignments.reverse.find? fun x => x.1 = v with
  | none =>
    have hnone : ∀ x ∈ idtAssignments, x.1 ≠ v :=
      fun x hx => by simpa using List.find?_eq_none.1 hf x (List.mem_reverse.2 hx)
    exact (hzero v hv).assign (g := fun e => .new (address e) 0x08) idtAssignments hnone
  | some x =>
    obtain ⟨hx, before, after, heq, hbefore⟩ := List.find?_eq_some_iff_append.1 hf
    have hxv : x.1 = v := by simpa using hx
    have hsplit : idtAssignments = after.reverse ++ x :: before.reverse := by
      rw [← List.reverse_reverse idtAssignments, heq]
      simp
    have hlast : ∀ y ∈ before.reverse, y.1 ≠ x.1 := by
      intro y hy
      rw [hxv]
      simpa using hbefore y (List.mem_reverse.1 hy)
    have h := @assign_at idtAddr (fun e => .new (address e) 0x08) x p.cpu.mem after.reverse before.reverse hlast
    rw [← hsplit, hxv] at h
    exact h

/-! ## What the processor does with an interrupt -/

/-- An exception, with the error code it has if it has one, or an interrupt from outside. -/
inductive Event
  | exception (vector : Nat) (code : BitVec 64)
  | external (vector : Nat)

namespace Event

/-- The vector of an event. -/
def vector : Event → Nat
  | exception v _ => v
  | external v => v

/-- The error code that the processor pushes with it. -/
def code : Event → Option (BitVec 64)
  | exception v code => hardwareError (BitVec.ofNat 32 v) code
  | external _ => none

/-- The first 32 vectors are for exceptions, the first 16 for them only. -/
def Valid : Event → Prop
  | exception v _ => v < 32
  | external v => 16 ≤ v ∧ v < 256

end Event

/-- The exceptions that make a second one on the way to their handler a double fault. -/
def contributory (v : Nat) : Bool := v ∈ [0, 10, 11, 12, 13, 21]

/-- The exceptions of the page-fault class. -/
def pageFaultClass (v : Nat) : Bool := v ∈ [14, 20]

/-- The exception `v'` on the way to the handler of `v` is a double fault. -/
def doubles (v v' : Nat) : Bool :=
  contributory v && contributory v' || pageFaultClass v && (contributory v' || pageFaultClass v')

namespace Processor

variable (p : Processor)

/-- The gate of a vector as the processor reads it. -/
def gate (v : Nat) : Gate :=
  .ofWords (p.cpu.mem.word (p.idtr.base + 16 * v)) (p.cpu.mem.word (p.idtr.base + 16 * v + 8))

/-- The way through the gate of a vector, or the exception on it with its error code: bit 1 says that it
is about the IDT, bit 0 that no instruction asked for the interrupt. -/
def enter (v : Nat) : Except (Nat × BitVec 64) Gate :=
  let g := p.gate v
  let idtError := BitVec.ofNat 64 (8 * v + 3)
  let segmentError := BitVec.ofNat 64 (g.selector.toNat / 4 * 4 + 1)
  if p.idtr.limit.toNat < 16 * v + 15 then .error (13, idtError)
  else if g.type ≠ 0xE ∧ g.type ≠ 0xF then .error (13, idtError)
  else if g.present = false then .error (11, idtError)
  else if g.selector.toNat / 4 = 0 then .error (13, 1)
  else match p.descriptor g.selector with
    | none => .error (13, segmentError)
    | some d =>
      if d.ordinary = false ∨ d.type.getLsbD 3 = false ∨ d.dpl ≠ 0 then .error (13, segmentError)
      else if d.present = false then .error (11, segmentError)
      else if d.long = false ∨ d.big = true then .error (13, segmentError)
      else if ¬ Canonical g.offset then .error (13, 1)
      else .ok g

/-- The gate that is gone through in the end, for which vector and with which error code; `none`: shutdown. -/
def deliver (event : Event) : Option (Gate × Nat × Option (BitVec 64)) :=
  let doubleFault := match p.enter 8 with
    | .ok g => some (g, 8, some 0)
    | .error _ => none
  match p.enter event.vector with
  | .ok g => some (g, event.vector, event.code)
  | .error (v, code) =>
    match event with
    | .exception 8 _ => none
    | .exception w _ =>
      if doubles w v then doubleFault
      else match p.enter v with
        | .ok g => some (g, v, some code)
        | .error _ => doubleFault
    | .external _ =>
      match p.enter v with
      | .ok g => some (g, v, some code)
      | .error _ => doubleFault

end Processor

/-- The vector and the error code that `common_interrupt_handler` gets. -/
def Event.reported (event : Event) : Nat × BitVec 64 :=
  if (installed event.vector).isSome then (event.vector, event.code.getD 0)
  else match event with
    | .exception v _ => if contributory v || pageFaultClass v then (8, 0) else (13, BitVec.ofNat 64 (8 * v + 3))
    | .external v => (13, BitVec.ofNat 64 (8 * v + 3))

/-- The tables are as `load_gdt` and `load_idt` left them. -/
structure TablesLoaded (address : EntryPoint → BitVec 64) (gdtAddr idtAddr : Nat) (p : Processor) : Prop where
  gdtr : p.gdtr = ⟨23, gdtAddr⟩
  idtr : p.idtr = ⟨4095, idtAddr⟩
  gdt : GdtAt p.cpu.mem gdtAddr
  idt : ∀ v < 256, (idtEntry address v).At idtAddr v p.cpu.mem

section Delivery

variable {address : EntryPoint → BitVec 64} {gdtAddr idtAddr : Nat} {p : Processor} {v : Nat} {e : EntryPoint}

/-- The gate of a stub. -/
def stubGate (address : EntryPoint → BitVec 64) (e : EntryPoint) : Gate := ⟨address e, 0x08, 0, 0xE, 0, true⟩

theorem gate_installed (h : TablesLoaded address gdtAddr idtAddr p) (hv : v < 256) (he : installed v = some e) :
    p.gate v = stubGate address e := by
  have hentry := h.idt v hv
  unfold idtEntry at hentry
  rw [he] at hentry
  unfold Processor.gate
  rw [h.idtr, hentry.1, hentry.2]
  exact idtEntry_decode _ _

theorem gate_missing (h : TablesLoaded address gdtAddr idtAddr p) (hv : v < 256) (hn : installed v = none) :
    (p.gate v).type = 0 := by
  have hentry := h.idt v hv
  unfold idtEntry at hentry
  rw [hn] at hentry
  unfold Processor.gate
  rw [h.idtr, hentry.1, hentry.2]
  show (Gate.ofWords IdtEntry.missing.low IdtEntry.missing.high).type = 0
  decide

/-- A vector with a stub is entered there. -/
theorem enter_installed (h : TablesLoaded address gdtAddr idtAddr p) (haddress : ∀ e, Canonical (address e))
    (hv : v < 256) (he : installed v = some e) : p.enter v = .ok (stubGate address e) := by
  have hcode : p.descriptor (stubGate address e).selector = some kernelCode.descriptor :=
    (descriptor_of_gdt h.gdt h.gdtr).1
  obtain ⟨hordinary, htype, hdpl, hpresent, hlong, hbig⟩ :
    kernelCode.descriptor.ordinary = true ∧ kernelCode.descriptor.type.getLsbD 3 = true ∧
      kernelCode.descriptor.dpl = 0 ∧ kernelCode.descriptor.present = true ∧ kernelCode.descriptor.long = true ∧
      kernelCode.descriptor.big = false := by
    rw [kernelCode, gdtEntry_decode]
    decide
  have hlimit : ¬ (4095#16).toNat < 16 * v + 15 := by
    show ¬ 4095 < 16 * v + 15
    omega
  unfold Processor.enter
  rw [gate_installed h hv he, h.idtr]
  dsimp only
  rw [hcode]
  refine (if_neg hlimit).trans ((if_neg ?_).trans ((if_neg ?_).trans ((if_neg ?_).trans ?_)))
  · simp [stubGate]
  · simp [stubGate]
  · simp [stubGate]
  · simp [hordinary, htype, hdpl, hpresent, hlong, hbig, stubGate, haddress e]

/-- A vector without one is not. -/
theorem enter_missing (h : TablesLoaded address gdtAddr idtAddr p) (hv : v < 256) (hn : installed v = none) :
    p.enter v = .error (13, BitVec.ofNat 64 (8 * v + 3)) := by
  unfold Processor.enter
  dsimp only
  rw [gate_missing h hv hn]
  split
  · rfl
  · exact if_pos (by decide)

theorem installed_faults : installed 8 = some .doubleFaultStub ∧ installed 13 = some .generalProtectionFaultStub := by
  decide +kernel

/-- No interrupt from outside is for an exception that has an error code. -/
theorem installed_external (hv : 16 ≤ v) (he : installed v = some e) : pushesErrorCode (BitVec.ofNat 32 v) = false := by
  have hmem := installed_mem he
  have hlt := (assignment_stub hmem).1
  unfold idtAssignments at hmem
  simp only [List.mem_append, List.mem_cons, List.mem_map, List.mem_range'_1, Prod.mk.injEq, List.not_mem_nil,
    or_false] at hmem
  have hge : 33 ≤ v := by omega
  unfold pushesErrorCode
  simp only [BitVec.toNat_ofNat, List.mem_cons, List.not_mem_nil, or_false, decide_eq_false_iff_not, not_or]
  omega

/-- Every interrupt ends in one of the stubs, with the vector of that stub and the error code of its kind. -/
theorem deliver_stub (h : TablesLoaded address gdtAddr idtAddr p) (haddress : ∀ e, Canonical (address e))
    {event : Event} (hevent : event.Valid) :
    ∃ e code x, p.deliver event = some (stubGate address e, event.reported.1, code) ∧
      code.getD 0 = event.reported.2 ∧ installed event.reported.1 = some e ∧
      code = hardwareError (BitVec.ofNat 32 event.reported.1) x := by
  have hdouble := enter_installed h haddress (by decide) installed_faults.1
  have hprotection := enter_installed h haddress (by decide) installed_faults.2
  unfold Processor.deliver Event.reported
  cases event with
  | exception v code =>
    have hv : v < 32 := hevent
    cases he : installed v with
    | some e =>
      simp only [Event.vector, he, enter_installed h haddress (by omega) he]
      exact ⟨e, _, code, rfl, rfl, he, rfl⟩
    -- no present entry: the processor raises a fault of its own, which the two together decide
    | none =>
      have h8 : v ≠ 8 := by
        rintro rfl
        rw [installed_faults.1] at he
        cases he
      have hdoubles : doubles v 13 = (contributory v || pageFaultClass v) := by
        unfold doubles
        rw [show contributory 13 = true from rfl, Bool.true_or, Bool.and_true, Bool.and_true]
      simp only [Event.vector, he, enter_missing h (by omega) he, hdouble, hprotection]
      rw [hdoubles]
      cases contributory v || pageFaultClass v with
      | true => exact ⟨_, some 0, 0, rfl, rfl, installed_faults.1, rfl⟩
      | false => exact ⟨_, _, BitVec.ofNat 64 (8 * v + 3), rfl, rfl, installed_faults.2, rfl⟩
  | external v =>
    obtain ⟨hge, hlt⟩ : 16 ≤ v ∧ v < 256 := hevent
    cases he : installed v with
    | some e =>
      simp only [Event.vector, he, enter_installed h haddress hlt he]
      refine ⟨e, none, 0, rfl, rfl, he, ?_⟩
      unfold hardwareError
      simp [installed_external hge he]
    | none =>
      simp only [Event.vector, he, enter_missing h hlt he, hprotection]
      exact ⟨_, _, BitVec.ofNat 64 (8 * v + 3), rfl, rfl, installed_faults.2, rfl⟩

/-- The same tables, and other memory. -/
theorem TablesLoaded.congr (h : TablesLoaded address gdtAddr idtAddr p) {q : Processor} (hgdtr : q.gdtr = p.gdtr)
    (hidtr : q.idtr = p.idtr)
    (hmem : ∀ a, gdtAddr ≤ a ∧ a < gdtAddr + 24 ∨ idtAddr ≤ a ∧ a < idtAddr + 4096 → q.cpu.mem a = p.cpu.mem a) :
    TablesLoaded address gdtAddr idtAddr q where
  gdtr := hgdtr.trans h.gdtr
  idtr := hidtr.trans h.idtr
  gdt i hi := by
    have hlen : Interrupt.gdt.length = 3 := rfl
    exact (Ram.word_congr fun x h1 h2 => hmem x (.inl ⟨by omega, by omega⟩)).trans (h.gdt i hi)
  idt v hv := by
    obtain ⟨hlow, hhigh⟩ := h.idt v hv
    refine ⟨(Ram.word_congr fun x h1 h2 => hmem x ?_).trans hlow, (Ram.word_congr fun x h1 h2 => hmem x ?_).trans hhigh⟩
    · exact .inr ⟨by omega, by omega⟩
    · exact .inr ⟨by omega, by omega⟩

/-- What is not in the table `load_idt` leaves alone. -/
theorem loadIdt_outside (address : EntryPoint → BitVec 64) (idtAddr : Nat) (p : Processor) {a : Nat}
    (ha : a < idtAddr ∨ idtAddr + 4096 ≤ a) : (loadIdt address idtAddr p).cpu.mem a = p.cpu.mem a := by
  have hkeep : ∀ (l : List (Nat × EntryPoint)) (m : Ram), (∀ x ∈ l, x.1 < 255) →
      (l.foldl (fun m x => (IdtEntry.new (address x.2) 0x08).store idtAddr x.1 m) m) a = m a := by
    intro l
    induction l with
    | nil => exact fun _ _ => rfl
    | cons x l ih =>
      intro m hl
      rw [List.forall_mem_cons] at hl
      rw [List.foldl_cons, ih _ hl.2]
      have hx := hl.1
      exact (Ram.setWord_outside _ _ (by omega)).trans (Ram.setWord_outside _ _ (by omega))
  exact hkeep _ _ fun x hx => (assignment_stub hx).1

end Delivery

/-! ## From boot on -/

/-- What the processor pushes: where it was, with its flags and its stack. -/
def Processor.frame (p : Processor) (flags : BitVec 64) : InterruptStackFrame where
  instructionPointer := p.rip
  codeSegment := p.cs.selector.setWidth 64
  cpuFlags := flags
  stackPointer := p.cpu.regs .rsp
  stackSegment := (p.data .ss).selector.setWidth 64

/-- Where the program is loaded, and the state in which it comes to `load_gdt`. -/
structure Booting (address : EntryPoint → BitVec 64) (label : BitVec 64) (gdtAddr idtAddr : Nat)
    (p : Processor) : Prop where
  code : Canonical label ∧ ∀ e, Canonical (address e)
  gdt : GdtAt p.cpu.mem gdtAddr
  idt : ∀ v < 256, IdtEntry.missing.At idtAddr v p.cpu.mem
  tables : gdtAddr + 24 ≤ idtAddr ∨ idtAddr + 4096 ≤ gdtAddr
  aligned : 8 ∣ (p.cpu.regs .rsp).toNat
  room : 16 ≤ (p.cpu.regs .rsp).toNat
  stack : (gdtAddr + 24 ≤ (p.cpu.regs .rsp).toNat - 16 ∨ (p.cpu.regs .rsp).toNat ≤ gdtAddr) ∧
    (idtAddr + 4096 ≤ (p.cpu.regs .rsp).toNat - 16 ∨ (p.cpu.regs .rsp).toNat ≤ idtAddr)

variable {address : EntryPoint → BitVec 64} {label : BitVec 64} {gdtAddr idtAddr : Nat} {p : Processor}

/-- `load_gdt` and `load_idt` come to their end, and the tables are as they should be. -/
theorem tables_loaded (h : Booting address label gdtAddr idtAddr p) : ∃ p', runGdt label (loadGdt gdtAddr) p = some p' ∧
    GdtLoaded gdtAddr label p p' ∧ TablesLoaded address gdtAddr idtAddr (loadIdt address idtAddr p') := by
  obtain ⟨p', hrun, hloaded⟩ := loadGdt_loads p h.gdt h.code.1 h.aligned h.room h.stack.1
  refine ⟨p', hrun, hloaded, hloaded.gdtr, rfl, fun i hi => ?_, fun v hv => ?_⟩
  · have hlen : gdt.length = 3 := rfl
    have htables := h.tables
    exact (Ram.word_congr fun x h1 h2 => loadIdt_outside address idtAddr p' (by omega)).trans (hloaded.gdt i hi)
  · apply loadIdt_entry address _ hv
    intro w hw
    have hstack := h.stack.2
    obtain ⟨hlow, hhigh⟩ := h.idt w hw
    exact ⟨(Ram.word_congr fun x h1 h2 => hloaded.mem x (by omega)).trans hlow,
      (Ram.word_congr fun x h1 h2 => hloaded.mem x (by omega)).trans hhigh⟩

/-- `load_gdt` and `load_idt` come to their end on segments of the new table; from then on, while the tables are
left alone, every interrupt comes to `common_interrupt_handler` with its frame. -/
theorem interrupts_reported (h : Booting address label gdtAddr idtAddr p) :
    ∃ p', (runGdt label (loadGdt gdtAddr) p).map (loadIdt address idtAddr) = some p' ∧
      (p'.rip = label ∧ p'.cs = kernelCode ∧ (∀ r, p'.data r = kernelData) ∧ p'.cpu.regs .rsp = p.cpu.regs .rsp) ∧
      ∀ q : Processor, q.gdtr = p'.gdtr → q.idtr = p'.idtr →
        (∀ a, gdtAddr ≤ a ∧ a < gdtAddr + 24 ∨ idtAddr ≤ a ∧ a < idtAddr + 4096 → q.cpu.mem a = p'.cpu.mem a) →
        ∀ (event : Event) (flags : BitVec 64), event.Valid →
          ∃ e code, q.deliver event = some (stubGate address e, event.reported.1, code) ∧
            ∀ (handler : Handler) (ret : BitVec 64), ∃ d,
              Leads handler ret (e.stub.code, q.cpu.interrupted (q.cpu.regs .rsp &&& ~~~0xF#64) (q.frame flags) code)
                (.call :: afterCall, d) ∧
              AtCall q.cpu (BitVec.ofNat 64 event.reported.1) event.reported.2 (q.frame flags) d := by
  obtain ⟨p', hrun, hsegments, hloaded⟩ := tables_loaded h
  refine ⟨loadIdt address idtAddr p', by rw [hrun]; rfl,
    ⟨hsegments.rip, hsegments.cs, hsegments.data, hsegments.regs .rsp (by decide)⟩,
      fun q hgdtr hidtr hmem event flags hevent => ?_⟩
  obtain ⟨e, code, x, hdeliver, hcode, he, rfl⟩ := deliver_stub (hloaded.congr hgdtr hidtr hmem) h.code.2 hevent
  refine ⟨e, _, hdeliver, fun handler ret => ?_⟩
  obtain ⟨hlt, hstub, hvector⟩ := assignment_stub (installed_mem he)
  have hbase : 16 ∣ (q.cpu.regs .rsp &&& ~~~0xF#64).toNat := by
    rw [show (0xF#64) = BitVec.ofNat 64 (2 ^ 4 - 1) from rfl, and_not_lowMask_toNat]
    exact Nat.dvd_mul_left _ _
  obtain ⟨d, hleads, -, -, hat⟩ := @stub_calls handler ret _ hstub q.cpu _ hbase (q.frame flags) x
  have hword : e.stub.vector.setWidth 64 = BitVec.ofNat 64 event.reported.1 := by
    rw [hvector]
    apply BitVec.eq_of_toNat_eq
    simp only [BitVec.toNat_setWidth, BitVec.toNat_ofNat]
    omega
  rw [hword] at hat
  rw [hvector] at hleads hat
  exact ⟨d, hleads, hcode ▸ hat⟩

/-- A processor with the GDT at `0x1000`, the IDT at `0x2000` and its stack below `0x8000`. -/
def booting : Processor where
  cpu :=
    { regs := fun r => if r = .rsp then 0x8000#64 else 0#64
      mem := Ram.setWord (Ram.setWord (fun _ => 0) 0x1008 (GdtEntry.new 0 0xFFFFF 0x9B 0b1010).word) 0x1010
        (GdtEntry.new 0 0xFFFFF 0x93 0b0000).word }
  rip := 0xFFFFFFFF80000000#64
  cs := kernelCode
  data := fun _ => kernelData
  gdtr := ⟨0, 0⟩
  idtr := ⟨0, 0⟩

/-- On it a spurious interrupt, whose entry is missing, is reported as a general protection fault. -/
theorem interrupts_reported_spurious : ∃ p', (runGdt 0xFFFFFFFF80000100#64 (loadGdt 0x1000) booting).map
    (loadIdt (fun _ => 0xFFFFFFFF80001000#64) 0x2000) = some p' ∧
      ∃ e code, p'.deliver (.external 255) = some (e, 13, code) := by
  have hcanonical : Canonical 0xFFFFFFFF80000100#64 ∧ Canonical 0xFFFFFFFF80001000#64 := by decide
  have hzero : ∀ a, 0x1018 ≤ a → booting.cpu.mem.word a = 0 := by
    intro a ha
    refine (Ram.word_setWord_of_disjoint _ _ (by omega)).trans ((Ram.word_setWord_of_disjoint _ _ (by omega)).trans ?_)
    exact Ram.word_zero fun _ _ _ => rfl
  have hwords : booting.cpu.mem.word 0x1000 = (GdtEntry.new 0 0 0 0).word ∧
      booting.cpu.mem.word 0x1008 = (GdtEntry.new 0 0xFFFFF 0x9B 0b1010).word ∧
      booting.cpu.mem.word 0x1010 = (GdtEntry.new 0 0xFFFFF 0x93 0b0000).word := by decide +kernel
  have hgdt : GdtAt booting.cpu.mem 0x1000 := by
    intro i hi
    have hlen : gdt.length = 3 := rfl
    obtain rfl | rfl | rfl : i = 0 ∨ i = 1 ∨ i = 2 := by omega
    · exact hwords.1
    · exact hwords.2.1
    · exact hwords.2.2
  obtain ⟨p', hrun, -, h⟩ :=
    @interrupts_reported (fun _ => 0xFFFFFFFF80001000#64) 0xFFFFFFFF80000100#64 0x1000 0x2000 booting
    ⟨⟨hcanonical.1, fun _ => hcanonical.2⟩, hgdt, fun v _ => ⟨hzero _ (by omega), hzero _ (by omega)⟩, by decide, by
      decide, by decide, by decide⟩
  obtain ⟨e, code, hdeliver, -⟩ := h p' rfl rfl (fun _ _ => rfl) (.external 255) 0 ⟨by decide, by decide⟩
  have hreported : (Event.external 255).reported.1 = 13 := by decide +kernel
  rw [hreported] at hdeliver
  exact ⟨p', hrun, _, code, hdeliver⟩

end Octagram.Interrupt

/-
`interrupt.rs`: the entry points of the interrupts as a stack machine, from what the processor
pushes to `iretq`. The handler is any code that leaves the stack pointer and the saved frame as they
were. Every stub comes to its call with a frame that says what was interrupted, and from every
return to `iretq` with the registers as they were (`stubs_transparent`). The stack is followed
through `Lib.Stack`: what the pushes of a stub put on it is `saved` over the frame of the processor,
and the pops take off the same.
-/
import Mathlib.Logic.Function.Basic
import Mathlib.Logic.Relation
import Octagram.Lib.Stack

namespace Octagram.Interrupt

open Octagram.Lib

/-- `InterruptStackFrame`: what the processor pushes. -/
structure InterruptStackFrame where
  instructionPointer : BitVec 64
  codeSegment : BitVec 64
  cpuFlags : BitVec 64
  stackPointer : BitVec 64
  stackSegment : BitVec 64

/-- `InterruptFrame`: the registers that `stub_common` saves, the vector and the error code, and the frame of the
processor. -/
structure InterruptFrame where
  r15 : BitVec 64
  r14 : BitVec 64
  r13 : BitVec 64
  r12 : BitVec 64
  r11 : BitVec 64
  r10 : BitVec 64
  r9 : BitVec 64
  r8 : BitVec 64
  rbp : BitVec 64
  rdi : BitVec 64
  rsi : BitVec 64
  rdx : BitVec 64
  rcx : BitVec 64
  rbx : BitVec 64
  rax : BitVec 64
  vector : BitVec 64
  errorCode : BitVec 64
  stackFrame : InterruptStackFrame

/-- The structure at an address: with `repr(C)` its fields are words one after the other. -/
def InterruptStackFrame.load (m : Ram) (a : BitVec 64) : InterruptStackFrame :=
  let field := fun i => m.word (Ram.wordAddr a i).toNat
  ⟨field 0, field 1, field 2, field 3, field 4⟩

/-- The structure at an address, field by field. -/
def InterruptFrame.load (m : Ram) (a : BitVec 64) : InterruptFrame :=
  let field := fun i => m.word (Ram.wordAddr a i).toNat
  { r15 := field 0, r14 := field 1, r13 := field 2, r12 := field 3, r11 := field 4, r10 := field 5, r9 := field 6,
    r8 := field 7, rbp := field 8, rdi := field 9, rsi := field 10, rdx := field 11, rcx := field 12, rbx := field 13,
    rax := field 14, vector := field 15, errorCode := field 16,
    stackFrame := InterruptStackFrame.load m (Ram.wordAddr a 17) }

/-! ## The machine -/

/-- The general registers. -/
inductive Reg
  | rax | rbx | rcx | rdx | rsi | rdi | rbp | rsp | r8 | r9 | r10 | r11 | r12 | r13 | r14 | r15
  deriving DecidableEq

/-- The registers and the memory that the stack is in. -/
structure Cpu where
  regs : Reg → BitVec 64
  mem : Ram

/-- The label that a stub jumps to. -/
inductive Label
  | common

/-- The instructions of the stubs; `call` is that of `common_interrupt_handler`. -/
inductive Instr
  | pushImm (imm : BitVec 32)
  | push (r : Reg)
  | pop (r : Reg)
  | mov (dst src : Reg)
  | add (r : Reg) (imm : BitVec 32)
  | call
  | jmp (target : Label)
  | iretq

/-- `push` of a value. -/
def Cpu.push (c : Cpu) (v : BitVec 64) : Cpu where
  regs := Function.update c.regs .rsp (c.regs .rsp - 8#64)
  mem := c.mem.setWord (c.regs .rsp - 8#64).toNat v

/-- `pop` into a register. -/
def Cpu.pop (c : Cpu) (r : Reg) : Cpu where
  regs := Function.update (Function.update c.regs .rsp (c.regs .rsp + 8#64)) r (c.mem.word (c.regs .rsp).toNat)
  mem := c.mem

/-- A register is written. -/
def Cpu.set (c : Cpu) (r : Reg) (v : BitVec 64) : Cpu := { c with regs := Function.update c.regs r v }

/-- What an instruction does that goes on to the next one. -/
def Instr.exec : Instr → Cpu → Option Cpu
  | .pushImm imm, c => some (c.push (imm.signExtend 64))
  | .push r, c => some (c.push (c.regs r))
  | .pop r, c => some (c.pop r)
  | .mov dst src, c => some (c.set dst (c.regs src))
  | .add r imm, c => some (c.set r (c.regs r + imm.signExtend 64))
  | .call, _ => none
  | .jmp _, _ => none
  | .iretq, _ => none

/-! ## The stubs -/

/-- The two forms of `interrupt_stub!`. -/
inductive StubKind
  | noErrorCode
  | hasErrorCode
  deriving DecidableEq

/-- A stub: its vector and its form. -/
structure Stub where
  vector : BitVec 32
  kind : StubKind

/-- `interrupt_stub!` -/
def Stub.code (stub : Stub) : List Instr :=
  match stub.kind with
  | .noErrorCode => [.pushImm 0#32, .pushImm stub.vector, .jmp .common]
  | .hasErrorCode => [.pushImm stub.vector, .jmp .common]

/-- `stub_common` -/
def stubCommon : List Instr :=
  [.push .rax, .push .rbx, .push .rcx, .push .rdx, .push .rsi, .push .rdi, .push .rbp, .push .r8, .push .r9, .push .r10,
    .push .r11, .push .r12, .push .r13, .push .r14, .push .r15,
    .mov .rdi .rsp, .call,
    .pop .r15, .pop .r14, .pop .r13, .pop .r12, .pop .r11, .pop .r10, .pop .r9, .pop .r8,
    .pop .rbp, .pop .rdi, .pop .rsi, .pop .rdx, .pop .rcx, .pop .rbx, .pop .rax,
    .add .rsp 16#32, .iretq]

/-- The code at a place. -/
def Label.code : Label → List Instr
  | .common => stubCommon

/-- `divide_error_stub` -/
def divideErrorStub : Stub := ⟨0#32, .noErrorCode⟩

/-- `debug_stub` -/
def debugStub : Stub := ⟨1#32, .noErrorCode⟩

/-- `nmi_stub` -/
def nmiStub : Stub := ⟨2#32, .noErrorCode⟩

/-- `breakpoint_stub` -/
def breakpointStub : Stub := ⟨3#32, .noErrorCode⟩

/-- `double_fault_stub` -/
def doubleFaultStub : Stub := ⟨8#32, .hasErrorCode⟩

/-- `general_protection_fault_stub` -/
def generalProtectionFaultStub : Stub := ⟨13#32, .hasErrorCode⟩

/-- `page_fault_stub` -/
def pageFaultStub : Stub := ⟨14#32, .hasErrorCode⟩

/-- The stub of a vector without an exception. -/
def irq (n : Nat) : Stub := ⟨BitVec.ofNat 32 n, .noErrorCode⟩

/-- `xhci_irq_stub` -/
def xhciIrqStub : Stub := ⟨44#32, .noErrorCode⟩

/-- Every stub that the macro generates: `irq` is for `33..255`. -/
def stubs : List Stub :=
  [divideErrorStub, debugStub, nmiStub, breakpointStub, doubleFaultStub, generalProtectionFaultStub, pageFaultStub] ++
    (List.range' 33 222).map irq ++ [xhciIrqStub]

/-- The exceptions with which the processor pushes an error code. -/
def pushesErrorCode (vector : BitVec 32) : Bool :=
  vector.toNat ∈ [8, 10, 11, 12, 13, 14, 17, 21, 29, 30]

/-- The error code of an interrupt, where it has one. -/
def hardwareError (vector : BitVec 32) (e : BitVec 64) : Option (BitVec 64) :=
  if pushesErrorCode vector then some e else none

/-- What the processor does before the first instruction of a stub: from the base of the stack on it pushes
the frame and the error code. -/
def Cpu.interrupted (c : Cpu) (base : BitVec 64) (f : InterruptStackFrame) (error : Option (BitVec 64)) : Cpu :=
  let c := c.set .rsp base
  let c := c.push f.stackSegment
  let c := c.push f.stackPointer
  let c := c.push f.cpuFlags
  let c := c.push f.codeSegment
  let c := c.push f.instructionPointer
  match error with
  | some e => c.push e
  | none => c

/-! ## Runs -/

/-- The rest of the code, and the registers and memory. -/
abbrev Config := List Instr × Cpu

/-- What the handler does from its entry, with the return address pushed, until after its return. -/
abbrev Handler := Cpu → Cpu → Prop

/-- The handler returns to its caller, and leaves the 22 words of the frame that it was passed as they were. -/
structure Handler.Returns (handler : Handler) : Prop where
  rsp : ∀ c c', handler c c' → c'.regs .rsp = c.regs .rsp + 8#64
  frame : ∀ c c', handler c c' → ∀ i < 22,
    c'.mem.word (Ram.wordAddr (c.regs .rdi) i).toNat = c.mem.word (Ram.wordAddr (c.regs .rdi) i).toNat

section Machine

variable (handler : Handler) (ret : BitVec 64)

/-- One instruction, or a call of the handler with its return. -/
inductive Step : Config → Config → Prop
  | exec {i : Instr} {rest : List Instr} {c c' : Cpu} (h : i.exec c = some c') : Step (i :: rest, c) (rest, c')
  | call {rest : List Instr} {c c' : Cpu} (h : handler (c.push ret) c') : Step (.call :: rest, c) (rest, c')
  | jmp {target : Label} {rest : List Instr} {c : Cpu} : Step (.jmp target :: rest, c) (target.code, c)

/-- Any number of steps. -/
def Runs : Config → Config → Prop := Relation.ReflTransGen (Step handler ret)

/-- The machine comes from one configuration to another, and on every way to a call or to `iretq`. -/
structure Leads (x y : Config) : Prop where
  runs : Runs handler ret x y
  through : ∀ i rest c, i = Instr.call ∨ i = Instr.iretq → Runs handler ret x (i :: rest, c) →
    Runs handler ret y (i :: rest, c)

end Machine

section Rules

variable {handler : Handler} {ret : BitVec 64} {x y z : Config} {i : Instr} {rest : List Instr} {c c' : Cpu}

theorem Leads.refl (x : Config) : Leads handler ret x x := ⟨.refl, fun _ _ _ _ h => h⟩

theorem Leads.trans (h : Leads handler ret x y) (h' : Leads handler ret y z) : Leads handler ret x z :=
  ⟨h.runs.trans h'.runs, fun i rest c hi hr => h'.through i rest c hi (h.through i rest c hi hr)⟩

theorem leads_exec (h : i.exec c = some c') : Leads handler ret (i :: rest, c) (rest, c') := by
  refine ⟨.single (.exec h), fun j rest' d hj hr => ?_⟩
  rcases hr.cases_head with he | ⟨w, hs, hrest⟩
  · cases he
    rcases hj with rfl | rfl <;> cases h
  · cases hs with
    | exec h' =>
      rw [h] at h'
      cases h'
      exact hrest
    | call _ => cases h
    | jmp => cases h

theorem leads_jmp {target : Label} : Leads handler ret (.jmp target :: rest, c) (target.code, c) := by
  refine ⟨.single .jmp, fun j rest' d hj hr => ?_⟩
  rcases hr.cases_head with he | ⟨w, hs, hrest⟩
  · cases he
    rcases hj with h | h <;> cases h
  · cases hs with
    | exec h => cases h
    | jmp => exact hrest

/-- `iretq` ends the stub. -/
theorem runs_iretq (hr : Runs handler ret (.iretq :: rest, c) x) : x = (.iretq :: rest, c) := by
  rcases hr.cases_head with he | ⟨w, hs, -⟩
  · exact he.symm
  · cases hs with
    | exec h => cases h

/-- A run from a call is still before it, or goes on after a return of the handler. -/
theorem runs_call (hr : Runs handler ret (.call :: rest, c) x) :
    x = (.call :: rest, c) ∨ ∃ c', handler (c.push ret) c' ∧ Runs handler ret (rest, c') x := by
  rcases hr.cases_head with he | ⟨w, hs, hrest⟩
  · exact .inl he.symm
  · cases hs with
    | exec h => cases h
    | call h => exact .inr ⟨_, h, hrest⟩

end Rules

/-! ## The stack -/

/-- What lies between `rsp` and the base. -/
abbrev Cpu.Stack (c : Cpu) (base : BitVec 64) (vs : List (BitVec 64)) : Prop := Ram.Stack c.mem base (c.regs .rsp) vs

section Stack

variable {handler : Handler} {ret : BitVec 64} {rest : List Instr} {c : Cpu} {base : BitVec 64} {vs : List (BitVec 64)}

theorem set_regs_self (c : Cpu) (r : Reg) (v : BitVec 64) : (c.set r v).regs r = v := by
  unfold Cpu.set
  exact Function.update_self ..

theorem set_regs_of_ne (c : Cpu) {r r' : Reg} (h : r' ≠ r) (v : BitVec 64) : (c.set r v).regs r' = c.regs r' := by
  unfold Cpu.set
  exact Function.update_of_ne h ..

theorem push_regs (c : Cpu) (v : BitVec 64) : (c.push v).regs = Function.update c.regs .rsp (c.regs .rsp - 8#64) := rfl

theorem push_regs_of_ne (c : Cpu) (v : BitVec 64) {r : Reg} (h : r ≠ .rsp) : (c.push v).regs r = c.regs r := by
  rw [push_regs, Function.update_of_ne h]

theorem push_rsp (c : Cpu) (v : BitVec 64) : (c.push v).regs .rsp = c.regs .rsp - 8#64 := by
  rw [push_regs, Function.update_self]

theorem pop_regs (c : Cpu) (r : Reg) : (c.pop r).regs =
    Function.update (Function.update c.regs .rsp (c.regs .rsp + 8#64)) r (c.mem.word (c.regs .rsp).toNat) := rfl

theorem push_stack (h : c.Stack base vs) (hlen : 8 * (vs.length + 1) < 2 ^ 64) (v : BitVec 64) :
    (c.push v).Stack base (v :: vs) := by
  unfold Cpu.Stack
  rw [push_rsp]
  exact Ram.Stack.push h hlen v

/-- Pushes, the last register on top. -/
theorem pushes (rs : List Reg) (hrs : .rsp ∉ rs) (h : c.Stack base vs) (hlen : 8 * (vs.length + rs.length) < 2 ^ 64) :
    ∃ c', Leads handler ret (rs.map .push ++ rest, c) (rest, c') ∧ c'.Stack base (rs.reverse.map c.regs ++ vs) ∧
      ∀ r, r ≠ .rsp → c'.regs r = c.regs r := by
  induction rs generalizing c vs with
  | nil => exact ⟨c, .refl _, h, fun _ _ => rfl⟩
  | cons r rs ih =>
    rw [List.mem_cons, not_or] at hrs
    rw [List.length_cons] at hlen
    obtain ⟨c', hl, hs, hregs⟩ := ih hrs.2 (push_stack h (by omega) (c.regs r)) (by rw [List.length_cons]; omega)
    have hsame : ∀ r', r' ≠ .rsp → (c.push (c.regs r)).regs r' = c.regs r' := fun r' => push_regs_of_ne c _
    refine ⟨c', (leads_exec rfl).trans hl, ?_, fun r' hr' => (hregs r' hr').trans (hsame r' hr')⟩
    have hmap : rs.reverse.map (c.push (c.regs r)).regs = rs.reverse.map c.regs := by
      refine List.map_congr_left fun r' hr' => hsame r' fun he => hrs.2 ?_
      rw [← he]
      exact List.mem_reverse.1 hr'
    rw [hmap] at hs
    simpa using hs

theorem pop_stack {v : BitVec 64} (h : c.Stack base (v :: vs)) {r : Reg} (hr : r ≠ .rsp) : (c.pop r).Stack base vs ∧
    (c.pop r).regs r = v ∧ ∀ r', r' ≠ .rsp → r' ≠ r → (c.pop r).regs r' = c.regs r' := by
  refine ⟨?_, ?_, fun r' hr' hne => ?_⟩
  · have hsp : (c.pop r).regs .rsp = c.regs .rsp + 8#64 := by
      rw [pop_regs, Function.update_of_ne hr.symm, Function.update_self]
    unfold Cpu.Stack
    rw [hsp]
    exact Ram.Stack.pop h
  · rw [pop_regs, Function.update_self]
    exact Ram.Stack.head h
  · rw [pop_regs, Function.update_of_ne hne, Function.update_of_ne hr']

/-- Pops, the first register from the top. -/
theorem pops {saved : Reg → BitVec 64} (rs : List Reg) (hrs : .rsp ∉ rs) (hnodup : rs.Nodup)
    (h : c.Stack base (rs.map saved ++ vs)) :
    ∃ c', Leads handler ret (rs.map .pop ++ rest, c) (rest, c') ∧ c'.Stack base vs ∧ (∀ r ∈ rs, c'.regs r = saved r) ∧
      ∀ r, r ≠ .rsp → r ∉ rs → c'.regs r = c.regs r := by
  induction rs generalizing c with
  | nil => exact ⟨c, .refl _, h, by simp, fun _ _ _ => rfl⟩
  | cons r rs ih =>
    rw [List.mem_cons, not_or] at hrs
    rw [List.nodup_cons] at hnodup
    obtain ⟨hs, hr, hother⟩ := pop_stack h (Ne.symm hrs.1)
    obtain ⟨c', hl, hs', hregs, hothers⟩ := ih hrs.2 hnodup.2 hs
    refine ⟨c', (leads_exec rfl).trans hl, hs', ?_, ?_⟩
    · intro r' hr'
      rcases List.mem_cons.1 hr' with rfl | hr'
      · rw [hothers r' (Ne.symm hrs.1) hnodup.1, hr]
      · exact hregs r' hr'
    · intro r' hsp hr'
      rw [List.mem_cons, not_or] at hr'
      rw [hothers r' hsp hr'.2, hother r' hsp hr'.1]

end Stack

/-! ## From the interrupt to the return -/

/-- The words that the processor pushes, from the top. -/
def InterruptStackFrame.words (f : InterruptStackFrame) : List (BitVec 64) :=
  [f.instructionPointer, f.codeSegment, f.cpuFlags, f.stackPointer, f.stackSegment]

theorem InterruptStackFrame.load_of_holds {m : Ram} {a : BitVec 64} {f : InterruptStackFrame} (h : m.Holds a f.words) :
    InterruptStackFrame.load m a = f := by
  have hw : ∀ i (hi : i < 5), m.word (Ram.wordAddr a i).toNat = f.words.get ⟨i, hi⟩ := Ram.holds_iff.1 h
  unfold InterruptStackFrame.load
  simp only [hw 0 (by decide), hw 1 (by decide), hw 2 (by decide), hw 3 (by decide), hw 4 (by decide)]
  rfl

/-- The registers that `stub_common` saves, in the order of its pushes. -/
def saved : List Reg := [.rax, .rbx, .rcx, .rdx, .rsi, .rdi, .rbp, .r8, .r9, .r10, .r11, .r12, .r13, .r14, .r15]

theorem mem_saved {r : Reg} : r ∈ saved ↔ r ≠ .rsp := by
  cases r <;> decide

/-- The frame of registers, a vector and an error code over that of the processor. -/
def frameOf (regs : Reg → BitVec 64) (vector errorCode : BitVec 64) (f : InterruptStackFrame) : InterruptFrame where
  r15 := regs .r15
  r14 := regs .r14
  r13 := regs .r13
  r12 := regs .r12
  r11 := regs .r11
  r10 := regs .r10
  r9 := regs .r9
  r8 := regs .r8
  rbp := regs .rbp
  rdi := regs .rdi
  rsi := regs .rsi
  rdx := regs .rdx
  rcx := regs .rcx
  rbx := regs .rbx
  rax := regs .rax
  vector := vector
  errorCode := errorCode
  stackFrame := f

/-- The words of the frame lie in the order of its fields. -/
theorem load_frame {m : Ram} {a : BitVec 64} {regs : Reg → BitVec 64} {vector errorCode : BitVec 64}
    {f : InterruptStackFrame} (h : m.Holds a (saved.reverse.map regs ++ vector :: errorCode :: f.words)) :
    InterruptFrame.load m a = frameOf regs vector errorCode f := by
  have hw : ∀ i (hi : i < 22), m.word (Ram.wordAddr a i).toNat =
    (saved.reverse.map regs ++ vector :: errorCode :: f.words).get ⟨i, hi⟩ := Ram.holds_iff.1 h
  have hstack : m.Holds (Ram.wordAddr a 17) f.words :=
    @Ram.Holds.above m a f.words (saved.reverse.map regs ++ [vector, errorCode]) h
  unfold InterruptFrame.load
  rw [InterruptStackFrame.load_of_holds hstack]
  simp only [hw 0 (by decide), hw 1 (by decide), hw 2 (by decide), hw 3 (by decide), hw 4 (by decide), hw 5 (by decide),
    hw 6 (by decide), hw 7 (by decide), hw 8 (by decide), hw 9 (by decide), hw 10 (by decide), hw 11 (by decide),
    hw 12 (by decide), hw 13 (by decide), hw 14 (by decide), hw 15 (by decide), hw 16 (by decide)]
  rfl

/-- The kind of every stub is that of its vector. -/
theorem stubs_kind : ∀ stub ∈ stubs, stub.vector.toNat < 2 ^ 31 ∧
    (stub.kind = .hasErrorCode ↔ pushesErrorCode stub.vector = true) := by
  intro stub hstub
  unfold stubs at hstub
  rw [List.mem_append, List.mem_append, List.mem_map] at hstub
  rcases hstub with (h | ⟨n, hn, rfl⟩) | h
  · revert stub
    decide
  · rw [List.mem_range'_1] at hn
    have hvec : (irq n).vector.toNat = n := by
      show (BitVec.ofNat 32 n).toNat = n
      rw [BitVec.toNat_ofNat]
      omega
    have hcode : pushesErrorCode (irq n).vector = false := by
      unfold pushesErrorCode
      rw [decide_eq_false_iff_not, hvec]
      simp only [List.mem_cons, List.not_mem_nil, or_false, not_or]
      omega
    rw [hvec, hcode]
    refine ⟨by omega, fun h => ?_, fun h => ?_⟩ <;> cases h
  · rw [List.mem_singleton] at h
    subst h
    decide

section Transparent

variable {handler : Handler} {ret : BitVec 64} {rest : List Instr} {c : Cpu} {base : BitVec 64}
  {f : InterruptStackFrame}
  {vs : List (BitVec 64)}

theorem interrupted_stack (c : Cpu) (hbase : 16 ∣ base.toNat) (f : InterruptStackFrame) (error : Option (BitVec 64)) :
    (c.interrupted base f error).Stack base (error.toList ++ f.words) ∧
      ∀ r, r ≠ .rsp → (c.interrupted base f error).regs r = c.regs r := by
  have h0 : (c.set .rsp base).Stack base [] := by
    unfold Cpu.Stack
    rw [set_regs_self]
    exact Ram.Stack.empty _ (Nat.dvd_trans (by decide) hbase)
  have h1 := push_stack h0 (by simp) f.stackSegment
  have h2 := push_stack h1 (by simp) f.stackPointer
  have h3 := push_stack h2 (by simp) f.cpuFlags
  have h4 := push_stack h3 (by simp) f.codeSegment
  have h5 := push_stack h4 (by simp) f.instructionPointer
  unfold Cpu.interrupted
  cases error with
  | none =>
    refine ⟨h5, fun r hr => ?_⟩
    simp only [push_regs_of_ne _ _ hr, set_regs_of_ne _ hr]
  | some e =>
    refine ⟨push_stack h5 (by simp) e, fun r hr => ?_⟩
    simp only [push_regs_of_ne _ _ hr, set_regs_of_ne _ hr]

/-- Both kinds of stub make up the same frame. -/
theorem entry_leads {stub : Stub} (hstub : stub ∈ stubs) {error : BitVec 64}
    (h : c.Stack base ((hardwareError stub.vector error).toList ++ f.words)) :
    ∃ c', Leads handler ret (stub.code, c) (stubCommon, c') ∧
      c'.Stack base (stub.vector.setWidth 64 :: (hardwareError stub.vector error).getD 0#64 :: f.words) ∧
      ∀ r, r ≠ .rsp → c'.regs r = c.regs r := by
  obtain ⟨hlt, hkind⟩ := stubs_kind stub hstub
  have hvector : ∀ c, (Instr.pushImm stub.vector).exec c = some (c.push (stub.vector.setWidth 64)) := by
    intro c
    rw [← BitVec.signExtend_eq_setWidth_of_msb_false (BitVec.msb_eq_false_iff_two_mul_lt.2 (by omega))]
    rfl
  unfold hardwareError at h ⊢
  unfold Stub.code
  -- a stub without an error code of the processor pushes a zero in its place
  cases hk : stub.kind with
  | noErrorCode =>
    have hno : pushesErrorCode stub.vector = false := by
      rw [← Bool.not_eq_true, ← hkind, hk]
      simp
    rw [hno] at h ⊢
    have h1 := push_stack h (by simp [InterruptStackFrame.words]) 0#64
    have h2 := push_stack h1 (by simp [InterruptStackFrame.words]) (stub.vector.setWidth 64)
    refine ⟨_, (leads_exec rfl).trans ((leads_exec (hvector _)).trans leads_jmp), h2, fun r hr => ?_⟩
    rw [push_regs_of_ne _ _ hr, push_regs_of_ne _ _ hr]
  | hasErrorCode =>
    rw [hkind.1 hk] at h ⊢
    have h1 := push_stack h (by simp [InterruptStackFrame.words]) (stub.vector.setWidth 64)
    refine ⟨_, (leads_exec (hvector _)).trans leads_jmp, h1, fun r hr => ?_⟩
    rw [push_regs_of_ne _ _ hr]

/-- What follows on the call. -/
def afterCall : List Instr := saved.reverse.map .pop ++ [.add .rsp 16#32, .iretq]

theorem stubCommon_eq : stubCommon = saved.map .push ++ .mov .rdi .rsp :: .call :: afterCall := rfl

/-- To the call: the registers are on the stack, and `rdi` points to them. -/
theorem common_leads (h : c.Stack base vs) (hlen : 8 * (vs.length + 15) < 2 ^ 64) :
    ∃ c', Leads handler ret (stubCommon, c) (.call :: afterCall, c') ∧
      c'.Stack base (saved.reverse.map c.regs ++ vs) ∧ c'.regs .rdi = c'.regs .rsp := by
  rw [stubCommon_eq]
  obtain ⟨d, hl, hs, -⟩ := @pushes handler ret (.mov .rdi .rsp :: .call :: afterCall) c base vs saved (by decide) h hlen
  have hne : Reg.rsp ≠ .rdi := by decide
  refine ⟨d.set .rdi (d.regs .rsp), hl.trans (leads_exec rfl), ?_, ?_⟩
  · unfold Cpu.Stack
    rw [set_regs_of_ne d hne]
    exact hs
  · rw [set_regs_self, set_regs_of_ne d hne]

/-- A handler that returns leaves the stack as it was. -/
theorem handler_stack (hh : handler.Returns) {c' : Cpu} (h : c.Stack base vs) (hlen : vs.length = 22)
    (hrdi : c.regs .rdi = c.regs .rsp) (hc : handler (c.push ret) c') : c'.Stack base vs := by
  have hne : Reg.rdi ≠ .rsp := by decide
  have hsp : c'.regs .rsp = c.regs .rsp := by
    rw [hh.rsp _ _ hc, push_rsp, BitVec.sub_add_cancel]
  have hframe := hh.frame _ _ hc
  rw [push_regs_of_ne _ _ hne, hrdi] at hframe
  have hbelow := Ram.Stack.setWord_below h ret
  unfold Cpu.Stack
  rw [hsp]
  exact hbelow.congr fun i hi => hframe i (by omega)

/-- To `iretq`: the registers are as saved, and the vector and the error code are gone. -/
theorem after_leads {regs : Reg → BitVec 64} {v e : BitVec 64}
    (h : c.Stack base (saved.reverse.map regs ++ v :: e :: vs)) :
    ∃ c', Leads handler ret (afterCall, c) ([.iretq], c') ∧ c'.Stack base vs ∧ ∀ r, r ≠ .rsp → c'.regs r = regs r := by
  obtain ⟨d, hl, hs, hregs, -⟩ := @pops handler ret [.add .rsp 16#32, .iretq] c base (v :: e :: vs) regs saved.reverse
    (by decide) (by decide) h
  refine ⟨d.set .rsp (d.regs .rsp + 16#64), hl.trans (leads_exec rfl), ?_, fun r hr => ?_⟩
  · have hsum : d.regs .rsp + 16#64 = d.regs .rsp + 8#64 + 8#64 := by
      rw [BitVec.add_assoc]
      rfl
    unfold Cpu.Stack
    rw [set_regs_self, hsum]
    exact Ram.Stack.pop (Ram.Stack.pop hs)
  · rw [set_regs_of_ne d hr]
    exact hregs r (List.mem_reverse.2 (mem_saved.2 hr))

end Transparent

/-- At the call: the stack is aligned, and the frame that is passed says what was interrupted. -/
structure AtCall (c : Cpu) (vector errorCode : BitVec 64) (f : InterruptStackFrame) (d : Cpu) : Prop where
  aligned : 16 ∣ (d.regs .rsp).toNat
  frame : InterruptFrame.load d.mem (d.regs .rdi) = frameOf c.regs vector errorCode f

/-- At `iretq`: all registers but `rsp` are as they were, and that is at the frame that the processor pushed. -/
structure AtReturn (c : Cpu) (base : BitVec 64) (f : InterruptStackFrame) (d : Cpu) : Prop where
  regs : ∀ r, r ≠ .rsp → d.regs r = c.regs r
  rsp : d.regs .rsp = base - 40#64
  frame : InterruptStackFrame.load d.mem (d.regs .rsp) = f

/-- From the interrupt to the call of the handler: all that was pushed is on the stack. -/
theorem stub_calls {handler : Handler} {ret : BitVec 64} {stub : Stub} (hstub : stub ∈ stubs) (c : Cpu)
    {base : BitVec 64} (hbase : 16 ∣ base.toNat) (f : InterruptStackFrame) (x : BitVec 64) :
    ∃ d, Leads handler ret (stub.code, c.interrupted base f (hardwareError stub.vector x)) (.call :: afterCall, d) ∧
      d.Stack base (saved.reverse.map c.regs ++
        stub.vector.setWidth 64 :: (hardwareError stub.vector x).getD 0#64 :: f.words) ∧
      d.regs .rdi = d.regs .rsp ∧
      AtCall c (stub.vector.setWidth 64) ((hardwareError stub.vector x).getD 0#64) f d := by
  obtain ⟨hs0, hr0⟩ := interrupted_stack c hbase f (hardwareError stub.vector x)
  obtain ⟨c1, hl1, hs1, hr1⟩ := @entry_leads handler ret _ base f stub hstub x hs0
  obtain ⟨c2, hl2, hs2, hrdi⟩ := @common_leads handler ret c1 base _ hs1 (by simp [InterruptStackFrame.words])
  have hmap : saved.reverse.map c1.regs = saved.reverse.map c.regs := by
    refine List.map_congr_left fun r hr => ?_
    have hsp := mem_saved.1 (List.mem_reverse.1 hr)
    rw [hr1 r hsp, hr0 r hsp]
  rw [hmap] at hs2
  refine ⟨c2, hl1.trans hl2, hs2, hrdi, ?_, ?_⟩
  · have hlen : (saved.reverse.map c.regs ++
        stub.vector.setWidth 64 :: (hardwareError stub.vector x).getD 0#64 :: f.words).length = 22 := rfl
    rw [hs2.sp_toNat, hlen]
    omega
  · rw [hrdi]
    exact load_frame hs2.holds

/-- Every stub comes to the call, and from every return of the handler to `iretq`. -/
theorem stubs_transparent {handler : Handler} (hh : handler.Returns) (ret : BitVec 64) {stub : Stub}
    (hstub : stub ∈ stubs) (c : Cpu) {base : BitVec 64} (hbase : 16 ∣ base.toNat) (f : InterruptStackFrame)
    (e : BitVec 64) :
    let error := hardwareError stub.vector e
    let start := (stub.code, c.interrupted base f error)
    (∃ rest d, Runs handler ret start (.call :: rest, d)) ∧
    (∀ rest d, Runs handler ret start (.call :: rest, d) →
      AtCall c (stub.vector.setWidth 64) (error.getD 0#64) f d ∧
      ∀ d', handler (d.push ret) d' → ∃ d'', Runs handler ret (rest, d') ([.iretq], d'')) ∧
    ∀ rest d, Runs handler ret start (.iretq :: rest, d) → AtReturn c base f d := by
  intro error start
  obtain ⟨c2, hl, hs2, hrdi, hcall⟩ := @stub_calls handler ret stub hstub c base hbase f e
  have hreturn : ∀ d', handler (c2.push ret) d' →
      ∃ d'', Leads handler ret (afterCall, d') ([.iretq], d'') ∧ AtReturn c base f d'' := by
    intro d' hd
    obtain ⟨d'', hl', hs', hregs⟩ := @after_leads handler ret d' base _ c.regs _ _ (handler_stack hh hs2 rfl hrdi hd)
    have htop := hs'.top
    refine ⟨d'', hl', hregs, htop, InterruptStackFrame.load_of_holds hs'.holds⟩
  refine ⟨⟨_, _, hl.runs⟩, fun rest d hr => ?_, fun rest d hr => ?_⟩
  · rcases runs_call (hl.through _ _ _ (.inl rfl) hr) with he | ⟨d', hd, hrest⟩
    · cases he
      refine ⟨hcall, fun d' hd => ?_⟩
      obtain ⟨d'', hl', -⟩ := hreturn d' hd
      exact ⟨d'', hl'.runs⟩
    · obtain ⟨d'', hl', -⟩ := hreturn d' hd
      -- the stub ends without a second call
      have hend := runs_iretq (hl'.through _ _ _ (.inl rfl) hrest)
      cases hend
  · rcases runs_call (hl.through _ _ _ (.inr rfl) hr) with he | ⟨d', hd, hrest⟩
    · cases he
    · obtain ⟨d'', hl', hat⟩ := hreturn d' hd
      have hend := runs_iretq (hl'.through _ _ _ (.inr rfl) hrest)
      cases hend
      exact hat

/-- A page fault whose handler zeroes every register that is not the stack pointer. -/
theorem stubs_transparent_pageFault :
    let handler : Handler := fun c c' => c' = ⟨fun r => if r = .rsp then c.regs .rsp + 8#64 else 0#64, c.mem⟩
    let c : Cpu := ⟨fun r => if r = .rsp then 0x7FF8#64 else 7#64, fun _ => 0⟩
    handler.Returns ∧ pageFaultStub ∈ stubs ∧ 16 ∣ (0x7FF0#64).toNat ∧
      ∃ rest d, Runs handler 0x1000#64
        (pageFaultStub.code, c.interrupted 0x7FF0#64 ⟨0x2000#64, 8#64, 0x202#64, 0x7FF8#64, 0x10#64⟩ (some 2#64))
        (.call :: rest, d) := by
  intro handler c
  have hh : handler.Returns := by
    refine ⟨?_, ?_⟩
    · rintro c c' rfl
      rfl
    · rintro c c' rfl i hi
      rfl
  have hmem : pageFaultStub ∈ stubs := by simp [stubs]
  refine ⟨hh, hmem, by decide, ?_⟩
  exact (stubs_transparent hh 0x1000#64 hmem c (by decide) ⟨0x2000#64, 8#64, 0x202#64, 0x7FF8#64, 0x10#64⟩ 2#64).1

end Octagram.Interrupt

/-
What the controller is when `init_xhci` starts it, however long it takes to halt, to reset and to
start (`initXhci_starts`); and that nothing is written before it may be, exactly if the controller
was ready to begin with (`initXhci_obeys_iff`). Each phase has an assertion that the controller's
steps keep: `Halting`, `Resetting`, `Reset`, `Idle` while the set-up is written, and `Going` once it
runs. `Idle` knows the state but for a few bits of USBSTS, so the set-up is a computation from box
to box (`Node.withRings`). What is asked of the driver's fields and of the allocator is `Installed`
and `Boxes`.
-/
import Mathlib.Tactic.IntervalCases
import Octagram.Lib.Bits
import Octagram.Usb.OpRegs

namespace Octagram.Usb.OpRegs

open Octagram.Lib

/-! ## Where the registers are -/

theorem offset_injective {c : XhciCapRegs} (h : c.Apart) {r r' : Register} (he : r.offset c = r'.offset c) :
    r = r' := by
  have := h.operational
  cases r <;> cases r' <;> first | rfl | (simp only [Register.offset] at he; omega)

theorem decode_offset {c : XhciCapRegs} (h : c.Apart) (r : Register) : c.decode (r.offset c) = some r := by
  have hfound : (c.decode (r.offset c)).isSome = true := by
    refine List.find?_isSome.2 ⟨r, ?_, by simp⟩
    cases r <;> simp [registers]
  obtain ⟨r', hr'⟩ := Option.isSome_iff_exists.1 hfound
  have he : r'.offset c = r.offset c := by simpa using List.find?_some hr'
  rw [hr', offset_injective h he]

/-- They are above the capability registers. -/
theorem offset_above {c : XhciCapRegs} (h : c.Apart) (r : Register) : 0x20 ≤ r.offset c := by
  have := h.capability
  have := h.operational
  cases r <;> simp only [Register.offset] <;> omega

theorem read32_offset {c : Hc} (h : c.caps.Apart) (r : Register) : c.read32 (r.offset c.caps) = c.read r := by
  have := offset_above h r
  unfold Hc.read32
  rw [if_neg (by omega), if_neg (by omega), decode_offset h]

/-! ## What the controller does by itself -/

/-- But for the registers that it sets itself, and the memory it writes to. -/
def Node.stir (s : Node) (usbsts iman : BitVec 32) (ram : Ram) : Node :=
  { s with hc := { s.hc with usbsts := usbsts, setup := { s.hc.setup with iman := iman } }, ram := ram }

/-- A step without a reset: a ready controller stays ready, and one that is not to run stays halted and writes
nothing. -/
structure Stirred (s s' : Node) (usbsts iman : BitVec 32) (ram : Ram) : Prop where
  state : s' = s.stir usbsts iman ram
  ready : s.hc.usbsts.getLsbD 11 = false → usbsts.getLsbD 11 = false
  enabled : iman.getLsbD 1 = s.hc.setup.iman.getLsbD 1
  halted : s.hc.usbcmd.getLsbD 0 = false → s.hc.usbsts.getLsbD 0 = true → usbsts.getLsbD 0 = true
  still : s.hc.usbcmd.getLsbD 0 = false → iman = s.hc.setup.iman ∧ ram = s.ram
  confined : ∀ a, a < s.segment ∨ s.segment + s.segmentSize ≤ a → ram a = s.ram a

theorem hcStep_cases {s s' : Node} (h : HcStep s s') (hr : s.hc.usbcmd.getLsbD 1 = false) :
    ∃ usbsts iman ram, Stirred s s' usbsts iman ram := by
  cases h with
  | halt h => exact ⟨_, _, _, rfl,
      fun h => by simpa using h, rfl, fun _ h => by simp, fun _ => ⟨rfl, rfl⟩, fun _ _ => rfl⟩
  | start h hn =>
    refine ⟨_, _, _, rfl, fun h => by simpa using h, rfl, fun h' => ?_, fun _ => ⟨rfl, rfl⟩, fun _ _ => rfl⟩
    rw [h] at h'
    cases h'
  | resetting usbsts setup h =>
    rw [hr] at h
    cases h
  | reset usbsts h hh =>
    rw [hr] at h
    cases h
  | ready h => exact ⟨_, _, _, rfl,
      fun h => by simp, rfl, fun _ h => by simpa using h, fun _ => ⟨rfl, rfl⟩, fun _ _ => rfl⟩
  | status v => exact ⟨_, _, _, rfl,
      fun h => by simpa using h, rfl, fun _ h => by simpa using h, fun _ => ⟨rfl, rfl⟩, fun _ _ => rfl⟩
  | event a b hrun hh hn ha hlt =>
    refine ⟨_, _, _, rfl,
      fun h => h, by simp, fun h' => ?_, fun h' => ?_, fun y hy => Ram.setByte_outside _ _ (by omega)⟩
    · rw [hrun] at h'
      cases h'
    · rw [hrun] at h'
      cases h'

/-! ## Before the set-up -/

/-- What the controller cannot change, and the driver does not write before the reset. -/
structure Same (k s : Node) : Prop where
  base : s.base = k.base
  caps : s.hc.caps = k.hc.caps
  hhdm : s.hhdm = k.hhdm
  boxes : s.boxes = k.boxes
  boxCount : s.boxCount = k.boxCount
  forbidden : s.forbidden = k.forbidden

theorem Same.refl (k : Node) : Same k k := ⟨rfl, rfl, rfl, rfl, rfl, rfl⟩

theorem same_step {k s s' : Node} (h : Same k s) (he : HcStep s s') : Same k s' := by
  cases he <;> exact ⟨h.base, h.caps, h.hhdm, h.boxes, h.boxCount, h.forbidden⟩

/-- USBCMD is `cmd`, and the controller is ready. -/
structure Calm (k : Node) (cmd : BitVec 32) (s : Node) : Prop where
  same : Same k s
  usbcmd : s.hc.usbcmd = cmd
  ready : s.hc.usbsts.getLsbD 11 = false

/-- It is also halted. -/
structure Halting (k : Node) (cmd : BitVec 32) (s : Node) : Prop extends Calm k cmd s where
  halted : s.hc.Halted

/-- The controller resets, or has done so. -/
structure Resetting (k : Node) (cmd : BitVec 32) (s : Node) : Prop where
  same : Same k s
  reset : s.hc.usbcmd = cmd ∨ s.hc.usbcmd = 0#32 ∧ s.hc.Halted ∧ s.hc.setup = .zero

/-- The reset is over, but perhaps the controller is not ready. -/
structure Reset (k s : Node) : Prop where
  same : Same k s
  usbcmd : s.hc.usbcmd = 0#32
  halted : s.hc.Halted
  setup : s.hc.setup = .zero

section Stable

variable {k : Node} {cmd : BitVec 32}

theorem calm_stable (hc : cmd.getLsbD 1 = false) : hcMachine.Stable (Calm k cmd) := by
  intro s s' h he
  have hsame := same_step h.same he
  obtain ⟨_, _, _, rfl, hready, -⟩ := hcStep_cases he (by rw [h.usbcmd, hc])
  exact ⟨hsame, h.usbcmd, hready h.ready⟩

theorem halting_stable (h0 : cmd.getLsbD 0 = false) (hc : cmd.getLsbD 1 = false) :
    hcMachine.Stable (Halting k cmd) := by
  intro s s' h he
  have hcalm := calm_stable hc s s' h.toCalm he
  obtain ⟨_, _, _, rfl, -, -, hhalted, -⟩ := hcStep_cases he (by rw [h.usbcmd, hc])
  exact ⟨hcalm, hhalted (by rw [h.usbcmd, h0]) h.halted⟩

theorem reset_stable : hcMachine.Stable (Reset k) := by
  intro s s' h he
  have hsame := same_step h.same he
  have hcmd : s.hc.usbcmd.getLsbD 0 = false ∧ s.hc.usbcmd.getLsbD 1 = false := by
    rw [h.usbcmd]
    decide
  obtain ⟨_, _, _, rfl, -, -, hhalted, hstill⟩ := hcStep_cases he hcmd.2
  obtain ⟨rfl, -⟩ := hstill hcmd.1
  exact ⟨hsame, h.usbcmd, hhalted hcmd.1 h.halted, h.setup⟩

theorem resetting_stable : hcMachine.Stable (Resetting k cmd) := by
  intro s s' h he
  have hsame := same_step h.same he
  obtain hcmd | ⟨hcmd, hh, hs⟩ := h.reset
  · refine ⟨hsame, ?_⟩
    cases he with
    | reset usbsts hr hh => exact .inr ⟨rfl, hh, rfl⟩
    | _ => exact .inl hcmd
  · have hr := reset_stable s s' ⟨h.same, hcmd, hh, hs⟩ he
    exact ⟨hsame, .inr ⟨hr.usbcmd, hr.halted, hr.setup⟩⟩

end Stable

/-! ## The set-up -/

/-- The controller is halted after a reset; its state and memory are known but for the other bits of USBSTS. -/
def Idle (k s : Node) : Prop :=
  ∃ v, s = { k with hc := { k.hc with usbsts := v } } ∧ v.getLsbD 0 = true ∧ v.getLsbD 11 = false

/-- It runs, or is about to; what it does not write itself is known. -/
structure Going (k s : Node) (usbsts iman : BitVec 32) (ram : Ram) : Prop where
  state : s = k.stir usbsts iman ram
  enabled : iman.getLsbD 1 = k.hc.setup.iman.getLsbD 1
  confined : ∀ a, a < k.segment ∨ k.segment + k.segmentSize ≤ a → ram a = k.ram a

/-- The segment table is not in the segment. -/
def Node.TableSafe (k : Node) : Prop :=
  k.hc.setup.erstba.toNat + 16 ≤ k.segment ∨ k.segment + k.segmentSize ≤ k.hc.setup.erstba.toNat

section Idle

variable {k s : Node} {α : Type} {P S : Node → Prop} {Q : α → Node → Prop} {bad : List Register}

/-- No write more than those of `bad` was forbidden. -/
def Obeys (bad : List Register) (s : Node) : Prop := s.forbidden = bad

theorem idle_stable (hk : k.hc.usbcmd = 0#32) : hcMachine.Stable (Idle k) := by
  rintro _ s' ⟨v, rfl, h0, h11⟩ he
  have hcmd : k.hc.usbcmd.getLsbD 0 = false ∧ k.hc.usbcmd.getLsbD 1 = false := by
    rw [hk]
    decide
  obtain ⟨usbsts, _, _, rfl, hready, -, hhalted, hstill, -⟩ := hcStep_cases he hcmd.2
  obtain ⟨rfl, rfl⟩ := hstill hcmd.1
  exact ⟨usbsts, rfl, hhalted hcmd.1 h0, hready h11⟩

/-- A running controller finds its table where it was, and so writes to the same segment. -/
theorem going_stable (hk : k.hc.usbcmd.getLsbD 1 = false) (ht : k.TableSafe) :
    hcMachine.Stable fun s => ∃ usbsts iman ram, Going k s usbsts iman ram := by
  rintro _ s' ⟨v, i, ram, rfl, hi, hram⟩ he
  obtain ⟨usbsts, iman, ram', rfl, -, henabled, -, -, hconfined⟩ := hcStep_cases he hk
  have hword : ∀ d, d + 8 ≤ 16 → ram.word (k.hc.setup.erstba.toNat + d) = k.ram.word (k.hc.setup.erstba.toNat + d) :=
    fun d hd =>
    Ram.word_congr fun y _ _ => hram y (by
      unfold Node.TableSafe at ht
      omega)
  have hseg : (k.stir v i ram).segment = k.segment := congrArg BitVec.toNat (hword 0 (by omega))
  have hsize : (k.stir v i ram).segmentSize = k.segmentSize := by
    unfold Node.segmentSize
    exact congrArg (fun w : BitVec 64 => 16 * (w.toNat % 2 ^ 16)) (hword 8 (by omega))
  rw [hseg, hsize] at hconfined
  exact ⟨usbsts, iman, ram', rfl, henabled.trans hi, fun a ha => (hconfined a ha).trans (hram a ha)⟩

theorem idle_obeys (hb : k.forbidden = bad) (h : Idle k s) : Obeys bad s := by
  obtain ⟨v, rfl, -⟩ := h
  exact hb

/-- An operation whose answer is known. -/
theorem known_op {o : HcOp} {g : HcRet o → HcProg α} (r : HcRet o) (hs : hcMachine.Stable P)
    (hP : ∀ s, P s → Obeys bad s) (h : ∀ s r' s', P s → Node.exec o s = some (r', s') → r' = r ∧ S s')
    (hf : hcMachine.Spec S (g r) Q (Obeys bad)) :
    hcMachine.Spec P (Prog.call o >>= g) Q (Obeys bad) := by
  refine Machine.spec_op hs hP (fun r' s => r' = r ∧ S s) (fun s r' s' hp _ he => h s r' s' hp he) fun r' =>
    Machine.spec_pure ?_
  rintro rfl
  exact hf

theorem known_opRegs {x : XHCI} {g : Nat → HcProg α} (hx : x.virtBase = k.base) (hs : hcMachine.Stable P)
    (hP : ∀ s, P s → Obeys bad s) (hsame : ∀ s, P s → s.base = k.base ∧ s.hc.caps = k.hc.caps)
    (hf : hcMachine.Spec P (g (k.base + k.hc.caps.capLength.toNat)) Q (Obeys bad)) :
    hcMachine.Spec P (opRegs x >>= g) Q (Obeys bad) := by
  unfold opRegs
  rw [hx, Prog.bind_bind]
  refine known_op (o := .read8 k.base) k.hc.caps.capLength hs hP (fun s r' s' hp he => ?_) hf
  obtain ⟨hbase, hcaps⟩ := hsame s hp
  cases he
  rw [if_pos hbase.symm, hcaps]
  exact ⟨rfl, hp⟩

variable {k' : Node} {f : Unit → HcProg α}

theorem idle_op {o : HcOp} {g : HcRet o → HcProg α} (r : HcRet o) (hk : k.hc.usbcmd = 0#32) (hb : k.forbidden = bad)
    (h : ∀ s, Idle k s → ∃ s', Node.exec o s = some (r, s') ∧ Idle k' s')
    (hf : hcMachine.Spec (Idle k') (g r) Q (Obeys bad)) :
    hcMachine.Spec (Idle k) (Prog.call o >>= g) Q (Obeys bad) := by
  refine known_op r (idle_stable hk) (fun s => idle_obeys hb) (fun s r' s' hs he => ?_) hf
  obtain ⟨s₁, hx, hs₁⟩ := h s hs
  cases hx.symm.trans he
  exact ⟨rfl, hs₁⟩

/-- A read that does not depend on USBSTS. -/
theorem idle_read32 {a : Nat} {g : BitVec 32 → HcProg α} {x : BitVec 32} (hk : k.hc.usbcmd = 0#32)
    (hb : k.forbidden = bad) (hx : ∀ v, ({ k.hc with usbsts := v } : Hc).read32 (a - k.base) = x)
    (hf : hcMachine.Spec (Idle k) (g x) Q (Obeys bad)) : hcMachine.Spec (Idle k) (read32 a >>= g) Q (Obeys bad) := by
  refine idle_op (o := .read32 a) x hk hb ?_ hf
  rintro _ ⟨v, rfl, h⟩
  exact ⟨_, congrArg (fun y => some (y, _)) (hx v), v, rfl, h⟩

theorem write_status (c : Hc) (v : BitVec 64) {r : Register} (hr : r ≠ .usbsts) (x : BitVec 32) :
    ({ c with usbsts := x } : Hc).write v r = { c.write v r with usbsts := x } := by
  cases r <;> first | rfl | exact absurd rfl hr

/-- A write of the set-up. -/
def Node.setUp (k : Node) (v : BitVec 64) (r : Register) : Node := { k with hc := k.hc.write v r }

/-- The allocator's next box. -/
def Node.boxed (k : Node) (l : List (BitVec 64)) : Node :=
  { k with ram := Cell.word.store k.ram (k.phys (k.boxes k.boxCount)) l, boxCount := k.boxCount + 1 }

/-- The physical address of a box to come. -/
def Node.boxPhys (k : Node) (i : Nat) : Nat := k.phys (k.boxes (k.boxCount + i))

section Known

variable (k : Node) (v : BitVec 64) (r : Register) (l : List (BitVec 64)) (i : Nat)

@[simp] theorem setUp_hc : (k.setUp v r).hc = k.hc.write v r := rfl

@[simp] theorem setUp_ram : (k.setUp v r).ram = k.ram := rfl

@[simp] theorem setUp_base : (k.setUp v r).base = k.base := rfl

@[simp] theorem setUp_hhdm : (k.setUp v r).hhdm = k.hhdm := rfl

@[simp] theorem setUp_forbidden : (k.setUp v r).forbidden = k.forbidden := rfl

@[simp] theorem setUp_box : (k.setUp v r).boxes = k.boxes ∧ (k.setUp v r).boxCount = k.boxCount := ⟨rfl, rfl⟩

@[simp] theorem setUp_boxPhys : (k.setUp v r).boxPhys i = k.boxPhys i := rfl

@[simp] theorem boxed_hc : (k.boxed l).hc = k.hc := rfl

@[simp] theorem boxed_base : (k.boxed l).base = k.base := rfl

@[simp] theorem boxed_hhdm : (k.boxed l).hhdm = k.hhdm := rfl

@[simp] theorem boxed_forbidden : (k.boxed l).forbidden = k.forbidden := rfl

@[simp] theorem boxed_boxPhys : (k.boxed l).boxPhys i = k.boxPhys (i + 1) := by
  unfold Node.boxPhys
  rw [Nat.add_comm i 1, ← Nat.add_assoc]
  rfl

@[simp] theorem boxed_box : (k.boxed l).boxes = k.boxes ∧ (k.boxed l).boxCount = k.boxCount + 1 := ⟨rfl, rfl⟩

theorem boxed_ram : (k.boxed l).ram = Cell.word.store k.ram (k.boxPhys 0) l := rfl

end Known

theorem idle_store {o : HcOp} {g : HcRet o → HcProg α} {a : Nat} {v : BitVec 64} (r : Register) (u : HcRet o)
    (hk : k.hc.usbcmd = 0#32) (hb : k.forbidden = bad) (ho : ∀ s, Node.exec o s = some (u, s.store a v))
    (hapart : k.hc.caps.Apart) (ha : a = k.base + r.offset k.hc.caps) (hr : r ≠ .usbcmd ∧ r ≠ .usbsts)
    (hallowed : r = .erstba → k.hc.setup.erstsz ≠ 0#32 ∧ k.hc.setup.erdp ≠ 0#64)
    (hf : hcMachine.Spec (Idle (k.setUp v r)) (g u) Q (Obeys bad)) :
    hcMachine.Spec (Idle k) (Prog.call o >>= g) Q (Obeys bad) := by
  refine idle_op u hk hb (fun s hs => ⟨_, ho s, ?_⟩) hf
  obtain ⟨x, rfl, h0, h11⟩ := hs
  have hdecode : k.hc.caps.decode (a - k.base) = some r := by
    rw [ha, Nat.add_sub_cancel_left]
    exact decode_offset hapart r
  -- a controller that is ready and halted takes every write of the set-up, the segment table's address last
  have hforbids : ¬ ({ k.hc with usbsts := x } : Hc).Forbids v r := by
    have hready : ¬ ({ k.hc with usbsts := x } : Hc).NotReady := by
      unfold Hc.NotReady
      rw [h11, hk]
      decide
    have hhalted : ({ k.hc with usbsts := x } : Hc).Halted := h0
    cases r with
    | usbcmd => exact absurd rfl hr.1
    | usbsts => exact absurd rfl hr.2
    | erstba =>
      obtain ⟨h1, h2⟩ := hallowed rfl
      simp only [Hc.Forbids, hready, hhalted, not_true, false_or, not_or]
      exact ⟨h1, h2⟩
    | _ => simp [Hc.Forbids, hready, hhalted]
  refine ⟨x, ?_, h0, h11⟩
  unfold Node.store
  dsimp only
  rw [hdecode]
  dsimp only
  rw [if_neg hforbids, if_neg fun h => hr.1 h.1, write_status _ _ hr.2]
  rfl

theorem idle_box {l : List (BitVec 64)} {g : Nat → HcProg α} (hk : k.hc.usbcmd = 0#32) (hb : k.forbidden = bad)
    (hf : hcMachine.Spec (Idle (k.boxed l)) (g (k.boxes k.boxCount)) Q (Obeys bad)) :
    hcMachine.Spec (Idle k) (boxNew l >>= g) Q (Obeys bad) := by
  refine idle_op (o := .boxNew l) (k.boxes k.boxCount) hk hb ?_ hf
  rintro _ ⟨v, rfl, h⟩
  exact ⟨_, rfl, v, rfl, h⟩

theorem idle_phys {virt off : Nat} {g : Nat → HcProg α} (hk : k.hc.usbcmd = 0#32) (hb : k.forbidden = bad)
    (ho : k.hhdm = some off) (hf : hcMachine.Spec (Idle k) (g (k.phys virt)) Q (Obeys bad)) :
    hcMachine.Spec (Idle k) (virtualToPhysical virt >>= g) Q (Obeys bad) := by
  unfold virtualToPhysical
  rw [Prog.bind_bind]
  have hstep : ∀ s, Idle k s → ∃ s', Node.exec .hhdm s = some (some off, s') ∧ Idle k s' := by
    rintro _ ⟨v, rfl, h⟩
    exact ⟨_, congrArg (fun y => some (y, _)) ho, v, rfl, h⟩
  refine idle_op (some off) hk hb hstep ?_
  have hphys : k.phys virt = virt - off := by
    unfold Node.phys
    rw [ho]
    rfl
  rw [hphys] at hf
  exact hf

theorem idle_rtsoff {g : BitVec 32 → HcProg α} (hk : k.hc.usbcmd = 0#32) (hb : k.forbidden = bad)
    (hf : hcMachine.Spec (Idle k) (g k.hc.caps.rtsoff) Q (Obeys bad)) :
    hcMachine.Spec (Idle k) (read32 (k.base + 0x18) >>= g) Q (Obeys bad) := by
  refine idle_read32 hk hb (fun v => ?_) hf
  rw [Nat.add_sub_cancel_left]
  rfl

theorem idle_hcsparams1 {g : BitVec 32 → HcProg α} (hk : k.hc.usbcmd = 0#32) (hb : k.forbidden = bad)
    (hf : hcMachine.Spec (Idle k) (g k.hc.caps.hcsparams1) Q (Obeys bad)) :
    hcMachine.Spec (Idle k) (read32 (k.base + 0x04) >>= g) Q (Obeys bad) := by
  refine idle_read32 hk hb (fun v => ?_) hf
  rw [Nat.add_sub_cancel_left]
  rfl

theorem read_status (c : Hc) {r : Register} (hr : r ≠ .usbsts) (x : BitVec 32) :
    ({ c with usbsts := x } : Hc).read r = c.read r := by
  cases r <;> first | rfl | exact absurd rfl hr

theorem idle_read {a : Nat} {g : BitVec 32 → HcProg α} (r : Register) (hk : k.hc.usbcmd = 0#32) (hb : k.forbidden = bad)
    (hapart : k.hc.caps.Apart) (ha : a = k.base + r.offset k.hc.caps) (hr : r ≠ .usbsts)
    (hf : hcMachine.Spec (Idle k) (g (k.hc.read r)) Q (Obeys bad)) :
    hcMachine.Spec (Idle k) (read32 a >>= g) Q (Obeys bad) := by
  refine idle_read32 hk hb (fun v => ?_) hf
  rw [ha, Nat.add_sub_cancel_left]
  exact (read32_offset (c := { k.hc with usbsts := v }) hapart r).trans (read_status _ hr v)

/-! ### The functions -/

/-- After `setup_event_ring`. -/
def Node.withEventRing (k : Node) : Node :=
  ((((k.boxed (List.replicate (2 * EVENT_RING_SIZE) 0)).boxed
    [BitVec.ofNat 64 (k.boxPhys 0), BitVec.ofNat 64 EVENT_RING_SIZE]).setUp 1#64 .erstsz).setUp
      (BitVec.ofNat 64 (k.boxPhys 0)) .erdp).setUp
    (BitVec.ofNat 64 (k.boxPhys 1)) .erstba |>.setUp ((k.hc.setup.iman ||| 1#32 <<< 1).setWidth 64) .iman

theorem idle_setupEventRing {x : XHCI} {off : Nat} {g : XHCI → HcProg α} (hk : k.hc.usbcmd = 0#32)
    (hb : k.forbidden = bad) (ho : k.hhdm = some off) (hx : x.virtBase = k.base) (hapart : k.hc.caps.Apart)
    (hseg : BitVec.ofNat 64 (k.boxPhys 0) ≠ 0#64)
    (hf : hcMachine.Spec (Idle k.withEventRing)
      (g { x with
        eventRingVirt := k.boxes k.boxCount
        eventRingPhys := k.boxPhys 0
        dequeueIndex := 0
        cycleState := true }) Q (Obeys bad)) :
    hcMachine.Spec (Idle k) (setupEventRing x >>= g) Q (Obeys bad) := by
  unfold setupEventRing interrupter0
  simp only [Prog.bind_bind, hx]
  refine idle_box hk hb (idle_phys hk hb ho (idle_box hk hb (idle_phys hk hb ho ?_)))
  refine idle_rtsoff hk hb ?_
  have hsum : ∀ n d : Nat, k.base + n + 0x20 + d = k.base + (n + 0x20 + d) := by omega
  refine idle_store (o := .write32 _ _) .erstsz () hk hb (fun _ => rfl) hapart (hsum _ _) (by simp) nofun ?_
  refine idle_store (o := .write64 _ _) .erdp () hk hb (fun _ => rfl) hapart (hsum _ _) (by simp) nofun ?_
  have hsize : ((1#32).setWidth 64).setWidth 32 ≠ 0#32 := by decide
  refine idle_store (o := .write64 _ _) .erstba () hk hb (fun _ => rfl) hapart (hsum _ _) (by simp)
    (fun _ => ⟨hsize, hseg⟩) ?_
  refine idle_read .iman hk hb hapart (hsum _ 0) (by simp) ?_
  refine idle_store (o := .write32 _ _) .iman () hk hb (fun _ => rfl) hapart (hsum _ 0) (by simp) nofun ?_
  rw [← hx]
  exact hf

/-- After the set-up of `init_xhci`. -/
def Node.withRings (k : Node) : Node :=
  ((((k.setUp ((k.hc.caps.maxSlots.setWidth 32).setWidth 64) .config).boxed (List.replicate 256 0)).setUp
    (BitVec.ofNat 64 (k.boxPhys 0)) .dcbaap).boxed (List.replicate (2 * COMMAND_RING_SIZE) 0)).setUp
    ((BitVec.ofNat 64 (k.boxPhys 1) &&& ~~~0x3F#64) ||| 1#64) .crcr

/-- Where `start_controller` leaves it. -/
def Node.started (k : Node) : Node := { k with hc := { k.hc with usbcmd := 0x5#32 }, startedOn := some k.ram }

theorem started_segment (k : Node) : k.started.segment = k.segment := rfl

theorem started_segmentSize (k : Node) : k.started.segmentSize = k.segmentSize := rfl

theorem Node.TableSafe.started {k : Node} (h : k.TableSafe) : k.started.TableSafe := h

theorem started_runs (k : Node) : k.started.hc.usbcmd.getLsbD 1 = false := show (0x5#32).getLsbD 1 = false by decide

theorem idle_setUpRings {x : XHCI} {off : Nat} {g : XHCI → HcProg α} (hk : k.hc.usbcmd = 0#32) (hb : k.forbidden = bad)
    (ho : k.hhdm = some off) (hx : x.virtBase = k.base) (hapart : k.hc.caps.Apart)
    (hf : hcMachine.Spec (Idle k.withRings)
      (g { x with
        cmdRingVirt := k.boxes (k.boxCount + 1), cmdRingPhys := k.boxPhys 1, cmdEnqueueIndex := 0, cmdCycleState := true
        dcbaaVirt := k.boxes k.boxCount }) Q (Obeys bad)) :
    hcMachine.Spec (Idle k) (setUpRings x (k.base + k.hc.caps.capLength.toNat) >>= g) Q (Obeys bad) := by
  unfold setUpRings
  simp only [Prog.bind_bind, hx]
  refine idle_hcsparams1 hk hb ?_
  have hsum : ∀ n d : Nat, k.base + n + d = k.base + (n + d) := by omega
  refine idle_store (o := .write32 _ _) .config () hk hb (fun _ => rfl) hapart (hsum _ _) (by simp) nofun ?_
  refine idle_box hk hb (idle_phys hk hb ho ?_)
  refine idle_store (o := .write64 _ _) .dcbaap () hk hb (fun _ => rfl) hapart (hsum _ _) (by simp) nofun ?_
  refine idle_box hk hb (idle_phys hk hb ho ?_)
  refine idle_store (o := .write64 _ _) .crcr () hk hb (fun _ => rfl) hapart (hsum _ _) (by simp) nofun ?_
  rw [← hx]
  exact hf

theorem running_awaitRunning (hk : k.hc.usbcmd.getLsbD 1 = false) (hb : k.forbidden = bad) (ht : k.TableSafe)
    (op n : Nat) : hcMachine.Spec (fun s => ∃ usbsts iman ram, Going k s usbsts iman ram) (awaitRunning op n)
      (fun _ s => ∃ usbsts iman ram, Going k s usbsts iman ram) (Obeys bad) := by
  have hobeys : ∀ s, (∃ usbsts iman ram, Going k s usbsts iman ram) → Obeys bad s := by
    rintro _ ⟨_, _, _, rfl, -⟩
    exact hb
  have hstable := going_stable hk ht
  induction n with
  | zero => exact Machine.spec_ret hstable hobeys fun _ h => h
  | succ n ih =>
    refine Machine.spec_op hstable hobeys (fun _ s => ∃ usbsts iman ram, Going k s usbsts iman ram)
      (fun s r s' hs _ he => ?_) fun r => ?_
    · cases he
      exact hs
    · change hcMachine.Spec _ (if r &&& USBSTS_HCH ≠ 0 then _ else _) _ _
      split
      · exact ih
      · exact Machine.spec_ret hstable hobeys fun _ h => h

theorem idle_startController {x : XHCI} (n : Nat) (hk : k.hc.usbcmd = 0#32) (hb : k.forbidden = bad)
    (hx : x.virtBase = k.base) (hapart : k.hc.caps.Apart) (hprepared : k.hc.Prepared) (ht : k.TableSafe) :
    hcMachine.Spec (Idle k) (startController x n) (fun _ s => ∃ usbsts iman ram, Going k.started s usbsts iman ram)
      (Obeys bad) := by
  unfold startController
  have hsame : ∀ s, Idle k s → s.base = k.base ∧ s.hc.caps = k.hc.caps := by
    rintro _ ⟨v, rfl, -⟩
    exact ⟨rfl, rfl⟩
  refine known_opRegs hx (idle_stable hk) (fun s => idle_obeys hb) hsame ?_
  refine idle_read .usbcmd hk hb hapart rfl (by simp) ?_
  have hval : k.hc.read .usbcmd ||| USBCMD_INTE ||| USBCMD_RUN_OR_STOP = 0x5#32 := by
    rw [show k.hc.read .usbcmd = 0#32 from hk]
    decide
  dsimp only
  rw [hval]
  refine known_op (o := .write32 _ _) () (idle_stable hk) (fun s => idle_obeys hb) (fun s r' s' hs he => ⟨rfl, ?_⟩)
    (running_awaitRunning (started_runs k) hb ht.started _ n)
  obtain ⟨v, rfl, h0, h11⟩ := hs
  have hdecode : k.hc.caps.decode (k.base + k.hc.caps.capLength.toNat - k.base) = some .usbcmd := by
    rw [Nat.add_sub_cancel_left]
    exact decode_offset hapart .usbcmd
  have hforbids : ¬ ({ k.hc with usbsts := v } : Hc).Forbids (BitVec.setWidth 64 0x5#32) .usbcmd := by
    have hready : ¬ ({ k.hc with usbsts := v } : Hc).NotReady := by
      unfold Hc.NotReady
      rw [h11, hk]
      decide
    have hhalted : ({ k.hc with usbsts := v } : Hc).Halted := h0
    have hprep : ({ k.hc with usbsts := v } : Hc).Prepared := hprepared
    simp [Hc.Forbids, hready, hhalted, hprep]
  cases he
  refine ⟨v, k.hc.setup.iman, k.ram, ?_, rfl, fun _ _ => rfl⟩
  unfold Node.store
  dsimp only
  rw [hdecode]
  dsimp only
  rw [if_neg hforbids, if_pos ⟨rfl, by decide, by rw [hk]; decide⟩]
  rfl

/-! ### The reset -/

variable {cmd : BitVec 32}

theorem same_obeys (hb : k.forbidden = bad) (h : Same k s) : Obeys bad s := h.forbidden.trans hb

theorem same_place (h : Same k s) : s.base = k.base ∧ s.hc.caps = k.hc.caps := ⟨h.base, h.caps⟩

/-- A read of an operational register. -/
theorem same_read (h : Same k s) (hapart : k.hc.caps.Apart) (r : Register) :
    s.hc.read32 (k.base + r.offset k.hc.caps - s.base) = s.hc.read r := by
  rw [h.base, Nat.add_sub_cancel_left, ← h.caps]
  exact read32_offset (by rw [h.caps]; exact hapart) r

/-- USBCMD reads as it is. -/
theorem same_readUsbcmd {g : BitVec 32 → HcProg α} (hs : hcMachine.Stable P) (hb : k.forbidden = bad)
    (hapart : k.hc.caps.Apart) (hP : ∀ s, P s → Same k s ∧ s.hc.usbcmd = cmd)
    (hf : hcMachine.Spec P (g cmd) Q (Obeys bad)) :
    hcMachine.Spec P (read32 (k.base + k.hc.caps.capLength.toNat) >>= g) Q (Obeys bad) := by
  refine known_op (o := .read32 _) cmd hs (fun s h => same_obeys hb (hP s h).1) (fun s r' s' hp he => ?_) hf
  obtain ⟨hsame, hcmd⟩ := hP s hp
  cases he
  exact ⟨(same_read hsame hapart .usbcmd).trans hcmd, hp⟩

/-- A write to USBCMD that does not start it is allowed, and is all that changes. -/
theorem same_writeUsbcmd (hs : hcMachine.Stable P) (hb : k.forbidden = bad) (hapart : k.hc.caps.Apart)
    (h0 : cmd.getLsbD 0 = false) (hP : ∀ s, P s → Same k s ∧ ¬ s.hc.NotReady ∧ (cmd.getLsbD 1 = true → s.hc.Halted))
    (hP' : ∀ s, P s → S { s with hc := { s.hc with usbcmd := cmd } }) (hf : hcMachine.Spec S (f ()) Q (Obeys bad)) :
    hcMachine.Spec P (write32 (k.base + k.hc.caps.capLength.toNat) cmd >>= f) Q (Obeys bad) := by
  refine known_op (o := .write32 _ _) () hs (fun s h => same_obeys hb (hP s h).1) (fun s r' s' hp he => ⟨rfl, ?_⟩) hf
  obtain ⟨hsame, hready, hhalted⟩ := hP s hp
  have hdecode : s.hc.caps.decode (k.base + k.hc.caps.capLength.toNat - s.base) = some .usbcmd := by
    rw [hsame.base, Nat.add_sub_cancel_left, hsame.caps]
    exact decode_offset hapart .usbcmd
  have h0' : (cmd.setWidth 64).getLsbD 0 = false := by simpa using h0
  have h1' : (cmd.setWidth 64).getLsbD 1 = true → s.hc.Halted := fun h => hhalted (by simpa using h)
  have hforbids : ¬ s.hc.Forbids (cmd.setWidth 64) .usbcmd := by
    rintro (h | ⟨h, h'⟩ | ⟨h, -⟩)
    · exact hready h
    · exact h' (h1' h)
    · rw [h0'] at h
      cases h
  cases he
  have hstore : s.store (k.base + k.hc.caps.capLength.toNat) (cmd.setWidth 64) =
    { s with hc := { s.hc with usbcmd := cmd } } := by
    unfold Node.store
    rw [hdecode]
    dsimp only
    rw [if_neg hforbids, if_neg fun h => by rw [h0'] at h; exact absurd h.2.1 (by decide)]
    simp [Hc.write]
  rw [hstore]
  exact hP' s hp

/-- After a wait on a register. -/
theorem same_await {r : Register} {mask : BitVec 32} {set : Bool} {a : Nat} (hs : hcMachine.Stable P)
    (hb : k.forbidden = bad) (hapart : k.hc.caps.Apart) (ha : a = k.base + r.offset k.hc.caps)
    (hP : ∀ s, P s → Same k s) (hP' : ∀ s, P s → (s.hc.read r &&& mask != 0) = set → S s)
    (hf : hcMachine.Spec S (f ()) Q (Obeys bad)) :
    hcMachine.Spec P (await a mask set >>= f) Q (Obeys bad) := by
  refine known_op (o := .await _ _ _) () hs (fun s h => same_obeys hb (hP s h)) (fun s r' s' hp he => ⟨rfl, ?_⟩) hf
  have he' : (if (s.hc.read32 (a - s.base) &&& mask != 0) = set then some ((), s) else none) = some (r', s') := he
  rw [ha, same_read (hP s hp) hapart r] at he'
  split at he'
  · next h =>
    cases he'
    exact hP' s hp h
  · cases he'

theorem same_usbcmd (h : Same k s) (cmd : BitVec 32) : Same k { s with hc := { s.hc with usbcmd := cmd } } :=
  ⟨h.base, h.caps, h.hhdm, h.boxes, h.boxCount, h.forbidden⟩

/-- A single bit. -/
theorem mask_bit (v : BitVec 32) {i : Nat} (hi : i < 32) : (v &&& 1#32 <<< i != 0#32) = v.getLsbD i := by
  have hpow : 1#32 <<< i = BitVec.twoPow 32 i := rfl
  rw [hpow, BitVec.and_twoPow]
  split
  · next h =>
    have hne : BitVec.twoPow 32 i ≠ 0#32 := by
      intro h0
      have hbit := congrArg (BitVec.getLsbD · i) h0
      simp [hi] at hbit
    simp [h, hne]
  · next h => simp [h]

/-- A controller that is ready halts and resets; then it is as after power-on. -/
theorem ready_resetController {x : XHCI} {g : Nat → HcProg α} (hx : x.virtBase = k.base) (hapart : k.hc.caps.Apart)
    (hr : ¬ k.hc.NotReady) (hb : k.forbidden = bad)
    (hrest : ∀ k', Same k k' → k'.hc.usbcmd = 0#32 → k'.hc.setup = .zero →
      hcMachine.Spec (Idle k') (g (k.base + k.hc.caps.capLength.toNat)) Q (Obeys bad)) :
    hcMachine.Spec (Calm k k.hc.usbcmd) (resetController x >>= g) Q (Obeys bad) := by
  obtain ⟨h11, h1⟩ := not_or.1 hr
  have hcmd : k.hc.usbcmd.getLsbD 1 = false := by simpa using h1
  have hstop : (k.hc.usbcmd &&& ~~~USBCMD_RUN_OR_STOP).getLsbD 0 = false := by simp [USBCMD_RUN_OR_STOP]
  have hstop1 : (k.hc.usbcmd &&& ~~~USBCMD_RUN_OR_STOP).getLsbD 1 = false := by
    simp only [BitVec.getLsbD_and, hcmd, Bool.false_and]
  have hstart : (k.hc.usbcmd &&& ~~~USBCMD_RUN_OR_STOP ||| USBCMD_HCRST).getLsbD 0 = false := by
    simp only [BitVec.getLsbD_or, hstop, Bool.false_or]
    decide
  have hreset : (k.hc.usbcmd &&& ~~~USBCMD_RUN_OR_STOP ||| USBCMD_HCRST).getLsbD 1 = true := by
    simp only [BitVec.getLsbD_or, hstop1, Bool.false_or]
    decide
  have hready : ∀ {cmd : BitVec 32} {s : Node}, cmd.getLsbD 1 = false → Calm k cmd s → ¬ s.hc.NotReady := by
    intro cmd s hc h
    unfold Hc.NotReady
    rw [h.ready, h.usbcmd, hc]
    decide
  unfold resetController
  simp only [Prog.bind_bind]
  have hcalm := calm_stable (k := k) hcmd
  refine known_opRegs hx hcalm (fun s h => same_obeys hb h.same) (fun s h => same_place h.same) ?_
  -- stop, and wait until it has halted
  refine same_readUsbcmd hcalm hb hapart (fun s h => ⟨h.same, h.usbcmd⟩) ?_
  refine same_writeUsbcmd (S := Calm k (k.hc.usbcmd &&& ~~~USBCMD_RUN_OR_STOP)) hcalm hb hapart hstop
    (fun s h => ⟨h.same, hready hcmd h, fun h => ?_⟩) (fun s h => ⟨same_usbcmd h.same _, rfl, h.ready⟩) ?_
  · rw [hstop1] at h
    cases h
  have hstopping := calm_stable (k := k) hstop1
  refine same_await (r := .usbsts) (S := Halting k (k.hc.usbcmd &&& ~~~USBCMD_RUN_OR_STOP)) hstopping hb hapart
    (Nat.add_assoc _ _ _) (fun s h => h.same) (fun s h hm => ⟨h, (mask_bit _ (by decide)).symm.trans hm⟩) ?_
  have hhalting := halting_stable (k := k) hstop hstop1
  -- reset, and wait until that is over and the controller ready
  refine same_readUsbcmd hhalting hb hapart (fun s h => ⟨h.same, h.usbcmd⟩) ?_
  refine same_writeUsbcmd (S := Resetting k (k.hc.usbcmd &&& ~~~USBCMD_RUN_OR_STOP ||| USBCMD_HCRST)) hhalting
    hb hapart hstart
    (fun s h => ⟨h.same, hready hstop1 h.toCalm, fun _ => h.halted⟩) (fun s h => ⟨same_usbcmd h.same _, .inl rfl⟩) ?_
  refine same_await (r := .usbcmd) (S := Reset k) resetting_stable hb hapart rfl (fun s h => h.same)
    (fun s h hm => ?_) ?_
  · obtain hc | ⟨hc, hh, hs⟩ := h.reset
    · have hclear : s.hc.usbcmd.getLsbD 1 = false := (mask_bit _ (by decide)).symm.trans hm
      rw [hc, hreset] at hclear
      cases hclear
    · exact ⟨h.same, hc, hh, hs⟩
  refine same_await (r := .usbsts) (S := fun s => ∃ k',
    (Same k k' ∧ k'.hc.usbcmd = 0#32 ∧ k'.hc.setup = .zero) ∧ Idle k' s)
    reset_stable hb hapart (Nat.add_assoc _ _ _) (fun s h => h.same) (fun s h hm => ?_) ?_
  · exact ⟨s, ⟨h.same, h.usbcmd, h.setup⟩, s.hc.usbsts, rfl, h.halted, (mask_bit _ (by decide)).symm.trans hm⟩
  exact Machine.spec_exists fun k' => Machine.spec_pure fun h => hrest k' h.1 h.2.1 h.2.2

end Idle

/-! ## `init_xhci` -/

/-- The sizes of the boxes: the context array, the command ring, the event segment and the segment table. -/
def boxSize : Nat → Nat
  | 0 => 2048
  | 3 => 16
  | _ => 512

/-- What the allocator returns: boxes on 64 bytes that do not overlap. -/
structure Boxes (s : Node) : Prop where
  present : ∀ i, i < 4 → 0 < s.boxPhys i ∧ s.boxPhys i + boxSize i ≤ 2 ^ 64
  aligned : ∀ i, i < 4 → s.boxPhys i % 64 = 0
  apart : ∀ i j, i < 4 → j < i → s.boxPhys i + boxSize i ≤ s.boxPhys j ∨ s.boxPhys j + boxSize j ≤ s.boxPhys i

/-- The driver has the registers of the controller. -/
structure Installed (x : XHCI) (s : Node) : Prop where
  base : x.virtBase = s.base
  apart : s.hc.caps.Apart
  hhdm : ∃ off, s.hhdm = some off
  boxes : Boxes s

theorem same_boxPhys {k s : Node} (h : Same k s) (i : Nat) : s.boxPhys i = k.boxPhys i := by
  unfold Node.boxPhys Node.phys
  rw [h.hhdm, h.boxes, h.boxCount]

theorem Boxes.same {k s : Node} (h : Same k s) (hb : Boxes k) : Boxes s := by
  refine ⟨fun i hi => ?_, fun i hi => ?_, fun i j hi hj => ?_⟩
  · rw [same_boxPhys h]
    exact hb.present i hi
  · rw [same_boxPhys h]
    exact hb.aligned i hi
  · rw [same_boxPhys h, same_boxPhys h]
    exact hb.apart i j hi hj

theorem Boxes.toNat {s : Node} (h : Boxes s) {i : Nat} (hi : i < 4) :
    (BitVec.ofNat 64 (s.boxPhys i)).toNat = s.boxPhys i := by
  have hsize : 0 < boxSize i := by
    unfold boxSize
    split <;> omega
  rw [BitVec.toNat_ofNat, Nat.mod_eq_of_lt]
  have := (h.present i hi).2
  omega

theorem Boxes.ne_zero {s : Node} (h : Boxes s) {i : Nat} (hi : i < 4) : BitVec.ofNat 64 (s.boxPhys i) ≠ 0#64 := by
  intro h0
  have hz := congrArg BitVec.toNat h0
  rw [h.toNat hi] at hz
  exact Nat.ne_of_gt (h.present i hi).1 hz

/-- The low bits of the ring's address are clear. -/
theorem Boxes.mask {s : Node} (h : Boxes s) {i : Nat} (hi : i < 4) :
    BitVec.ofNat 64 (s.boxPhys i) &&& ~~~0x3F#64 = BitVec.ofNat 64 (s.boxPhys i) := by
  apply BitVec.eq_of_toNat_eq
  have hmask := and_not_lowMask_toNat (BitVec.ofNat 64 (s.boxPhys i)) 6
  have ha := h.aligned i hi
  rw [h.toNat hi] at hmask
  exact hmask.trans ((by omega : s.boxPhys i / 2 ^ 6 * 2 ^ 6 = s.boxPhys i).trans (h.toNat hi).symm)

/-- So many words from an address on are zero. -/
abbrev Zeroed (ram : Ram) (a words : Nat) : Prop := Cell.word.Holds ram a (List.replicate words 0#64)

section Memory

variable {k : Node}

/-- The node when the controller is started. -/
def Node.prepared (k : Node) : Node := k.withRings.withEventRing

theorem withRings_keeps (k : Node) :
    k.withRings.base = k.base ∧ k.withRings.hhdm = k.hhdm ∧ k.withRings.forbidden = k.forbidden ∧
    k.withRings.hc.caps = k.hc.caps ∧ k.withRings.hc.usbcmd = k.hc.usbcmd := by
  unfold Node.withRings
  simp only [setUp_base, setUp_hhdm, setUp_forbidden, setUp_hc, boxed_base, boxed_hhdm, boxed_forbidden, boxed_hc,
    Hc.write, and_self]

theorem prepared_keeps (k : Node) :
    k.prepared.base = k.base ∧ k.prepared.hhdm = k.hhdm ∧ k.prepared.forbidden = k.forbidden ∧
    k.prepared.hc.caps = k.hc.caps ∧ k.prepared.hc.usbcmd = k.hc.usbcmd := by
  unfold Node.prepared Node.withEventRing Node.withRings
  simp only [setUp_base, setUp_hhdm, setUp_forbidden, setUp_hc, boxed_base, boxed_hhdm, boxed_forbidden, boxed_hc,
    Hc.write, and_self]

theorem prepared_ram :
    k.prepared.ram = Cell.word.store (Cell.word.store (Cell.word.store (Cell.word.store k.ram (k.boxPhys 0)
    (List.replicate 256 0)) (k.boxPhys 1) (List.replicate 64 0)) (k.boxPhys 2) (List.replicate 64 0)) (k.boxPhys 3)
    [BitVec.ofNat 64 (k.boxPhys 2), BitVec.ofNat 64 EVENT_RING_SIZE] := by
  unfold Node.prepared Node.withEventRing Node.withRings
  simp only [setUp_ram, setUp_boxPhys, boxed_ram, boxed_boxPhys, COMMAND_RING_SIZE, EVENT_RING_SIZE, Nat.reduceMul,
    Nat.reduceAdd]

theorem prepared_hc : k.prepared.hc = { k.hc with
    setup := {
      config := ((k.hc.caps.maxSlots.setWidth 32).setWidth 64).setWidth 32
      dcbaap := BitVec.ofNat 64 (k.boxPhys 0)
      crcr := (BitVec.ofNat 64 (k.boxPhys 1) &&& ~~~0x3F#64) ||| 1#64
      iman := (((k.hc.setup.iman ||| 1#32 <<< 1).setWidth 64).setWidth 32 &&& 2#32) |||
        (k.hc.setup.iman &&& ~~~((k.hc.setup.iman ||| 1#32 <<< 1).setWidth 64).setWidth 32 &&& 1#32)
      imod := k.hc.setup.imod
      erstsz := (1#64).setWidth 32
      erstba := BitVec.ofNat 64 (k.boxPhys 3)
      erdp := BitVec.ofNat 64 (k.boxPhys 2) } } := by
  unfold Node.prepared Node.withEventRing Node.withRings
  simp only [setUp_hc, boxed_hc, setUp_boxPhys, boxed_boxPhys, Hc.write, Nat.reduceAdd]

/-- The rings and the context array are zero. -/
theorem prepared_zeroed (h : Boxes k) :
    Zeroed k.prepared.ram (k.boxPhys 0) 256 ∧ Zeroed k.prepared.ram (k.boxPhys 1) 64 ∧
      Zeroed k.prepared.ram (k.boxPhys 2) 64 := by
  have hapart := h.apart
  have h10 := hapart 1 0 (by omega) (by omega)
  have h20 := hapart 2 0 (by omega) (by omega)
  have h21 := hapart 2 1 (by omega) (by omega)
  have h30 := hapart 3 0 (by omega) (by omega)
  have h31 := hapart 3 1 (by omega) (by omega)
  have h32 := hapart 3 2 (by omega) (by omega)
  simp only [boxSize] at h10 h20 h21 h30 h31 h32
  have hsize : Cell.word.size = 8 := rfl
  rw [prepared_ram]
  refine ⟨?_, ?_, ?_⟩
  · refine ((Cell.holds_store.store ?_).store ?_).store ?_ <;>
      simp only [List.length_replicate, List.length_cons, List.length_nil, hsize] <;> omega
  · refine (Cell.holds_store.store ?_).store ?_ <;>
      simp only [List.length_replicate, List.length_cons, List.length_nil, hsize] <;> omega
  · refine Cell.holds_store.store ?_
    simp only [List.length_replicate, List.length_cons, List.length_nil, hsize]
    omega

/-- The one entry of the segment table. -/
theorem prepared_entry : k.prepared.ram.word (k.boxPhys 3) = BitVec.ofNat 64 (k.boxPhys 2) ∧
    k.prepared.ram.word (k.boxPhys 3 + 8) = BitVec.ofNat 64 EVENT_RING_SIZE := by
  rw [prepared_ram]
  obtain ⟨h0, hrest⟩ := Cell.holds_cons.1 (Cell.holds_store (c := Cell.word))
  exact ⟨h0, (Cell.holds_cons.1 hrest).1⟩

theorem prepared_segment (h : Boxes k) : k.prepared.segment = k.boxPhys 2 ∧ k.prepared.segmentSize = 512 := by
  have herst : k.prepared.hc.setup.erstba.toNat = k.boxPhys 3 := by
    rw [prepared_hc]
    exact h.toNat (by omega)
  obtain ⟨h0, h8⟩ := prepared_entry (k := k)
  unfold Node.segment Node.segmentSize
  rw [herst, h0, h8]
  exact ⟨h.toNat (by omega), by decide⟩

theorem prepared_tableSafe (h : Boxes k) : k.prepared.TableSafe := by
  have herst : k.prepared.hc.setup.erstba.toNat = k.boxPhys 3 := by
    rw [prepared_hc]
    exact h.toNat (by omega)
  obtain ⟨hseg, hsize⟩ := prepared_segment h
  have hapart := h.apart 3 2 (by omega) (by omega)
  simp only [boxSize] at hapart
  unfold Node.TableSafe
  rw [herst, hseg, hsize]
  exact hapart

theorem prepared_prepared (h : Boxes k) : k.prepared.hc.Prepared := by
  rw [prepared_hc]
  refine ⟨h.ne_zero (i := 0) (by omega), fun hc => ?_, h.ne_zero (i := 3) (by omega)⟩
  have hbit := congrArg (BitVec.getLsbD · 0) hc
  simp at hbit

end Memory

/-- What the driver and the controller must agree on when the controller is started on a memory. -/
structure Configured (x : XHCI) (s : Node) (ram : Ram) : Prop where
  usbcmd : s.hc.usbcmd = 0x5#32
  config : s.hc.setup.config = s.hc.caps.maxSlots.setWidth 32
  dcbaap : s.hc.setup.dcbaap.toNat = s.phys x.dcbaaVirt
  dcbaa : Zeroed ram s.hc.setup.dcbaap.toNat 256
  crcr : s.hc.setup.crcr = BitVec.ofNat 64 x.cmdRingPhys ||| 1#64
  cmdRing : x.cmdRingPhys = s.phys x.cmdRingVirt ∧ x.cmdRingPhys % 64 = 0 ∧
    Zeroed ram x.cmdRingPhys (2 * COMMAND_RING_SIZE)
  enqueue : x.cmdEnqueueIndex = 0 ∧ x.cmdCycleState = true
  iman : s.hc.setup.iman.getLsbD 1 = true
  erstsz : s.hc.setup.erstsz = 1#32
  entry : (ram.word s.hc.setup.erstba.toNat).toNat = x.eventRingPhys ∧
    ram.word (s.hc.setup.erstba.toNat + 8) = BitVec.ofNat 64 EVENT_RING_SIZE
  erdp : s.hc.setup.erdp.toNat = x.eventRingPhys
  eventRing : x.eventRingPhys = s.phys x.eventRingVirt ∧ Zeroed ram x.eventRingPhys (2 * EVENT_RING_SIZE)
  dequeue : x.dequeueIndex = 0 ∧ x.cycleState = true
  events : ∀ a, a < x.eventRingPhys ∨ x.eventRingPhys + 16 * EVENT_RING_SIZE ≤ a → s.ram a = ram a

section Init

variable {x : XHCI} {s k : Node}

theorem withRings_box (k : Node) :
    k.withRings.boxes k.withRings.boxCount = k.boxes (k.boxCount + 2) ∧ k.withRings.boxPhys 0 = k.boxPhys 2 := by
  unfold Node.withRings
  simp only [setUp_box, boxed_box, setUp_boxPhys, boxed_boxPhys, Nat.reduceAdd, Nat.add_assoc, and_self]

/-- The driver's fields when `init_xhci` returns. -/
def XHCI.initialized (x : XHCI) (k : Node) : XHCI :=
  { x with
    cmdRingVirt := k.boxes (k.boxCount + 1), cmdRingPhys := k.boxPhys 1, cmdEnqueueIndex := 0, cmdCycleState := true
    dcbaaVirt := k.boxes k.boxCount, eventRingVirt := k.boxes (k.boxCount + 2), eventRingPhys :=
      k.boxPhys 2, dequeueIndex := 0
    cycleState := true }

theorem going_configured (h : Boxes k) (hsetup : k.hc.setup = .zero) {usbsts iman : BitVec 32} {ram : Ram}
    (hg : Going k.prepared.started s usbsts iman ram) :
    ∃ ram, s.startedOn = some ram ∧ Configured (x.initialized k) s ram := by
  obtain ⟨rfl, himan, hconfined⟩ := hg
  obtain ⟨hbase, hhhdm, -, hcaps, -⟩ := prepared_keeps k
  obtain ⟨hz0, hz1, hz2⟩ := prepared_zeroed h
  obtain ⟨hseg, hsize⟩ := prepared_segment h
  obtain ⟨he0, he8⟩ := prepared_entry (k := k)
  -- the addresses of the boxes, as the driver and as the controller have them
  have hphys : ∀ i, (k.prepared.started.stir usbsts iman ram).phys (k.boxes (k.boxCount + i)) = k.boxPhys i :=
    fun i => by
    unfold Node.phys Node.boxPhys Node.phys
    exact congrArg (fun o : Option Nat => k.boxes (k.boxCount + i) - o.getD 0) hhhdm
  have hregs : k.prepared.started.hc.setup = k.prepared.hc.setup := rfl
  have hdcbaap : k.prepared.hc.setup.dcbaap.toNat = k.boxPhys 0 := by
    rw [prepared_hc]
    exact h.toNat (by omega)
  have herst : k.prepared.hc.setup.erstba.toNat = k.boxPhys 3 := by
    rw [prepared_hc]
    exact h.toNat (by omega)
  refine ⟨k.prepared.ram, rfl, ?_⟩
  constructor
  case usbcmd => rfl
  case config =>
    change k.prepared.hc.setup.config = k.prepared.hc.caps.maxSlots.setWidth 32
    rw [prepared_hc]
    simp
  case dcbaap => exact hdcbaap.trans (hphys 0).symm
  case dcbaa =>
    change Zeroed k.prepared.ram k.prepared.hc.setup.dcbaap.toNat 256
    rw [hdcbaap]
    exact hz0
  case crcr =>
    change k.prepared.hc.setup.crcr = _
    rw [prepared_hc]
    exact congrArg (· ||| 1#64) (h.mask (by omega))
  case cmdRing => exact ⟨(hphys 1).symm, h.aligned 1 (by omega), hz1⟩
  case enqueue => exact ⟨rfl, rfl⟩
  case iman =>
    refine himan.trans ?_
    rw [hregs, prepared_hc, hsetup]
    dsimp only
    decide
  case erstsz =>
    change k.prepared.hc.setup.erstsz = 1#32
    rw [prepared_hc]
    dsimp only
    decide
  case entry =>
    change (k.prepared.ram.word k.prepared.hc.setup.erstba.toNat).toNat = k.boxPhys 2 ∧
      k.prepared.ram.word (k.prepared.hc.setup.erstba.toNat + 8) = _
    rw [herst, he0, he8]
    exact ⟨h.toNat (by omega), rfl⟩
  case erdp =>
    change k.prepared.hc.setup.erdp.toNat = k.boxPhys 2
    rw [prepared_hc]
    exact h.toNat (by omega)
  case eventRing => exact ⟨(hphys 2).symm, hz2⟩
  case dequeue => exact ⟨rfl, rfl⟩
  case events =>
    intro a ha
    refine hconfined a ?_
    rw [started_segment, started_segmentSize, hseg, hsize]
    exact ha

theorem initXhci_spec (n : Nat) (h : Installed x s) (hr : ¬ s.hc.NotReady) :
    hcMachine.Spec (Calm s s.hc.usbcmd) (initXhci x n) (fun x' s' => ∃ ram, s'.startedOn = some ram ∧
      Configured x' s' ram)
      (Obeys s.forbidden) := by
  unfold initXhci
  refine ready_resetController h.base h.apart hr rfl fun k hsame hk hsetup => ?_
  obtain ⟨off, hoff⟩ := h.hhdm
  have ho : k.hhdm = some off := hsame.hhdm.trans hoff
  have hb : k.forbidden = s.forbidden := hsame.forbidden
  have hx : x.virtBase = k.base := h.base.trans hsame.base.symm
  have hapart : k.hc.caps.Apart := by
    rw [hsame.caps]
    exact h.apart
  have hboxes := h.boxes.same hsame
  rw [← hsame.base, ← hsame.caps]
  refine idle_setUpRings hk hb ho hx hapart ?_
  have hseg : BitVec.ofNat 64 (k.withRings.boxPhys 0) ≠ 0#64 := by
    rw [(withRings_box k).2]
    exact hboxes.ne_zero (by omega)
  obtain ⟨hbase', hhhdm', hforb', hcaps', husbcmd'⟩ := withRings_keeps k
  obtain ⟨hbase'', -, hforb'', hcaps'', husbcmd''⟩ := prepared_keeps k
  rw [← hcaps'] at hapart
  refine idle_setupEventRing (husbcmd'.trans hk) (hforb'.trans hb) (hhhdm'.trans ho) (hx.trans hbase'.symm) hapart
    hseg ?_
  rw [hcaps', ← hcaps''] at hapart
  rw [(withRings_box k).1, (withRings_box k).2]
  have hsafe := prepared_tableSafe hboxes
  refine Machine.spec_bind (R := fun _ s' => ∃ usbsts iman ram, Going k.prepared.started s' usbsts iman ram)
    ?_ fun _ => ?_
  · exact idle_startController n (husbcmd''.trans hk) (hforb''.trans hb) (hx.trans hbase''.symm) hapart
      (prepared_prepared hboxes) hsafe
  · refine Machine.spec_ret (going_stable (started_runs _) hsafe.started) ?_ ?_
    · rintro _ ⟨_, _, _, rfl, -⟩
      exact hforb''.trans hb
    · rintro s' ⟨_, _, _, hg⟩
      exact going_configured hboxes hsetup hg

theorem calm_self (hr : ¬ s.hc.NotReady) : Calm s s.hc.usbcmd s :=
  ⟨Same.refl s, rfl, by simpa using (not_or.1 hr).1⟩

/-- The first write. -/
theorem runs_firstWrite (h : Installed x s) (timeout : Nat) : ∃ p v,
    hcMachine.Runs (initXhci x timeout, s) (p, s.store (s.base + Register.usbcmd.offset s.hc.caps) v) := by
  have hread : Node.exec (.read8 x.virtBase) s = some (s.hc.caps.capLength, s) :=
    congrArg (fun b => some (b, s)) (if_pos h.base)
  rw [← h.base]
  exact ⟨_, _, .head (.op trivial hread) (.head (.op trivial rfl) (.head (.op trivial rfl) .refl))⟩

end Init

/-- A controller that the firmware left halted, and the boxes that it gets. -/
def haltedNode : Node where
  base := 0x1000
  hc := ⟨⟨0x20#8, 0x08000840#32, 0x600#32⟩, 0#32, 1#32, .zero⟩
  hhdm := some 0
  ram := fun _ => 0
  boxes i := 0x10000 * (i + 1)
  boxCount := 0
  forbidden := []
  startedOn := none

/-- The driver's fields before `init_xhci`. -/
def haltedDriver : XHCI := ⟨0x1000, 0, 0, 0, false, 0, 0, 0, false, 0⟩

theorem haltedNode_installed : Installed haltedDriver haltedNode := by
  refine ⟨rfl, ⟨by decide, by decide⟩, ⟨0, rfl⟩, ⟨fun i hi => ?_, fun i hi => ?_, fun i j hi hj => ?_⟩⟩
  · interval_cases i <;> decide
  · interval_cases i <;> decide
  · interval_cases i <;> interval_cases j <;> decide

/-- It resets at once. -/
theorem haltedNode_runs : ∃ x' s', hcMachine.Runs (initXhci haltedDriver 1, haltedNode) (.ret x', s') :=
  ⟨_, _,
    -- up to the write of HCRST
    .head (.op trivial rfl) <| .head (.op trivial rfl) <| .head (.op trivial rfl) <| .head (.op trivial rfl) <|
    .head (.op trivial rfl) <| .head (.op trivial rfl) <|
    .head (.env (.reset 1#32 rfl rfl)) <|
    -- the waits, the rings and the start
    .head (.op trivial rfl) <| .head (.op trivial rfl) <| .head (.op trivial rfl) <| .head (.op trivial rfl) <|
    .head (.op trivial rfl) <| .head (.op trivial rfl) <| .head (.op trivial rfl) <| .head (.op trivial rfl) <|
    .head (.op trivial rfl) <| .head (.op trivial rfl) <| .head (.op trivial rfl) <| .head (.op trivial rfl) <|
    .head (.op trivial rfl) <| .head (.op trivial rfl) <| .head (.op trivial rfl) <| .head (.op trivial rfl) <|
    .head (.op trivial rfl) <| .head (.op trivial rfl) <| .head (.op trivial rfl) <| .head (.op trivial rfl) <|
    .head (.op trivial rfl) <| .head (.op trivial rfl) <| .head (.op trivial rfl) <| .head (.op trivial rfl) <|
    .refl⟩

section Init

variable {x : XHCI} {s : Node}

/-- `init_xhci` writes to a register before it may if and only if the controller was not ready when it was
called: it waits for the controller to be ready after the reset but not before, and the first of its writes is
to USBCMD. -/
theorem initXhci_obeys_iff (h : Installed x s) (timeout : Nat) :
    (∀ c, hcMachine.Runs (initXhci x timeout, s) c → c.2.forbidden = s.forbidden) ↔ ¬ s.hc.NotReady := by
  refine ⟨fun hall hbad => ?_, fun hr c hc => (initXhci_spec timeout h hr).throughout s (calm_self hr) c hc⟩
  obtain ⟨p, v, hr⟩ := runs_firstWrite h timeout
  have hkept := hall _ hr
  have hdecode : s.hc.caps.decode (s.base + Register.usbcmd.offset s.hc.caps - s.base) = some .usbcmd := by
    rw [Nat.add_sub_cancel_left]
    exact decode_offset h.apart _
  have hforbids : s.hc.Forbids v .usbcmd := .inl hbad
  unfold Node.store at hkept
  rw [hdecode] at hkept
  simp [hforbids] at hkept

theorem initXhci_obeys_iff_halted :
    ¬ haltedNode.hc.NotReady ∧ ∀ c, hcMachine.Runs (initXhci haltedDriver 1000000, haltedNode) c →
      c.2.forbidden = [] := by
  have hr : ¬ haltedNode.hc.NotReady := by decide
  exact ⟨hr, (initXhci_obeys_iff haltedNode_installed _).2 hr⟩

/-- When it returns, the controller was started on a memory in which it has what it needs, its registers name
that, and the driver's indices and cycle states are those of empty rings; it has written nowhere but to the
segment of the event ring. -/
theorem initXhci_starts {x' : XHCI} {s' : Node} {timeout : Nat} (h : Installed x s) (hr : ¬ s.hc.NotReady)
    (hrun : hcMachine.Runs (initXhci x timeout, s) (.ret x', s')) :
    ∃ ram, s'.startedOn = some ram ∧ Configured x' s' ram :=
  (initXhci_spec timeout h hr).triple s (calm_self hr) x' s' hrun

theorem initXhci_starts_halted : ∃ x' s' ram, s'.startedOn = some ram ∧ Configured x' s' ram := by
  obtain ⟨x', s', hr⟩ := haltedNode_runs
  obtain ⟨ram, h⟩ := initXhci_starts haltedNode_installed (by decide) hr
  exact ⟨x', s', ram, h⟩

end Init

end Octagram.Usb.OpRegs

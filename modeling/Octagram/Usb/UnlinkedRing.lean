/-
The EP0 ring and the command ring: both wrap one slot before their end and have no Link TRB there,
so a controller that goes by the cycle bits stops at the last slot for good. It consumes all that
was put on the ring exactly if that is no more than the ring has cells before the last one
(`ep0_ring_delivers`, `command_ring_delivers`). The two are one argument about a `Channel`, whose
invariant `RingUse.Inv` has the controller in its first lap, at most one request behind.
-/
import Octagram.Usb.Calls

namespace Octagram.Usb

open Octagram.Lib

/-! ## Definitions -/

/-- The rings without a Link TRB. -/
inductive Channel
  | ep0 | command
  deriving DecidableEq, Repr

namespace Channel

/-- `CONTROL_RING_SIZE` or `COMMAND_RING_SIZE`. -/
def size : Channel → Nat
  | ep0 => CONTROL_RING_SIZE
  | command => COMMAND_RING_SIZE

/-- The ring in memory with the driver's index and cycle state. -/
def ring (s : Kernel) (x : XHCI) : Channel → TransferRing
  | ep0 => ⟨s.ringAt x.ep0RingVirt, x.ep0EnqueueIndex, x.ep0CycleState⟩
  | command => ⟨s.ringAt x.cmdRingVirt, x.cmdEnqueueIndex, x.cmdCycleState⟩

/-- The TRB that an operation puts on the ring. -/
def trb (x : XHCI) : Channel → Op → Option Trb
  | ep0, .ep0EnqueueTrb parameter status control => some (Kernel.ep0Trb x parameter status control)
  | command, .sendCommand parameter trbType slotId => some (Kernel.commandTrb x parameter trbType slotId)
  | _, _ => none

end Channel

/-- The operations of `stagesIn`. -/
def inStages (setup : BitVec 64) (bufPhys wLength : Nat) : List Op :=
  [.ep0EnqueueTrb setup 8 (setupControl 3),
    .ep0EnqueueTrb (BitVec.ofNat 64 bufPhys) (BitVec.ofNat 32 wLength &&& 0x1FFFF#32) dataControl,
    .ep0EnqueueTrb 0 0 (statusControl 0)]

/-- The operations of `control_transfer_no_data` on the ring. -/
def noDataStages (setup : BitVec 64) : List Op :=
  [.ep0EnqueueTrb setup 8 (setupControl 0), .ep0EnqueueTrb 0 0 (statusControl 1)]

/-- Operations one after the other. -/
def runAll : List Op → KProg Unit
  | [] => pure ()
  | o :: rest => do
    let _ ← act o
    runAll rest

theorem stagesIn_eq (setup : BitVec 64) (bufPhys wLength : Nat) :
    stagesIn setup bufPhys wLength = runAll (inStages setup bufPhys wLength) := rfl

/-- What a call puts on the ring: a control transfer with or without data, or a command. -/
inductive Channel.Request : Channel → List Op → Prop
  | transferIn (setup : BitVec 64) (bufPhys wLength : Nat) : Request .ep0 (inStages setup bufPhys wLength)
  | transferNoData (setup : BitVec 64) : Request .ep0 (noDataStages setup)
  | command (parameter slotId : Nat) {trbType : Nat} (h : trbType ∈ [TRB_TYPE_ENABLE_SLOT, TRB_TYPE_DISABLE_SLOT,
      TRB_TYPE_ADDRESS_DEVICE, TRB_TYPE_CONFIGURE_ENDPOINT]) : Request .command [.sendCommand parameter trbType slotId]

/-- The kernel, what the current call has still to put on the ring, the controller's dequeue pointer
and consumer cycle state, and the histories of the TRBs enqueued and consumed. -/
structure RingUse where
  kernel : Kernel
  todo : List Op
  dequeue : Nat
  ccs : Bool
  enqueued : List Trb
  consumed : List Trb

namespace RingUse

/-- The ring and the controller, as for a transfer ring. -/
def system (c : Channel) (s : RingUse) (x : XHCI) : RingSystem :=
  ⟨c.ring s.kernel x, false, s.dequeue, s.ccs, s.enqueued, s.consumed⟩

/-- A call begins, once all that was put on the ring is consumed. -/
def request (s : RingUse) (ops : List Op) : Option RingUse :=
  if s.todo.isEmpty = true ∧ s.consumed = s.enqueued then some { s with todo := ops } else none

/-- The call puts its next TRB on the ring. -/
def put (c : Channel) (s : RingUse) : Option RingUse :=
  match s.todo, s.kernel.xhci with
  | o :: rest, some x =>
    match c.trb x o, s.kernel.exec o with
    | some t, some (_, k) => some { s with kernel := k, todo := rest, enqueued := s.enqueued ++ [t] }
    | _, _ => none
  | _, _ => none

/-- A step of the controller, as on a transfer ring. -/
def consume (c : Channel) (ringPhys : BitVec 64) (s : RingUse) : RingUse :=
  match s.kernel.xhci with
  | none => s
  | some x => { s with
      dequeue := ((s.system c x).consume ringPhys).dequeue
      ccs := ((s.system c x).consume ringPhys).ccs
      consumed := ((s.system c x).consume ringPhys).consumed }

end RingUse

/-- The ring and the driver's fields about it are the same. -/
def Channel.SameRing (c : Channel) (k k' : Kernel) : Prop :=
  ∀ x, k.xhci = some x → ∃ x', k'.xhci = some x' ∧ (c.ring k' x').enqueueIndex = (c.ring k x).enqueueIndex ∧
    (c.ring k' x').cycleState = (c.ring k x).cycleState ∧ ∀ i, i < c.size → (c.ring k' x').trbs i = (c.ring k x).trbs i

/-- One step: of a call, of the controller, or of code that leaves the ring alone. -/
inductive RingUse.Step (c : Channel) (ringPhys : BitVec 64) : RingUse → RingUse → Prop
  | request {s s' : RingUse} {ops : List Op} (hq : c.Request ops) (h : s.request ops = some s') : Step c ringPhys s s'
  | put {s s' : RingUse} (h : s.put c = some s') : Step c ringPhys s s'
  | consume {s : RingUse} : Step c ringPhys s (s.consume c ringPhys)
  | other {s : RingUse} (k : Kernel) (h : c.SameRing s.kernel k) : Step c ringPhys s { s with kernel := k }

/-- The ring is empty, and the controller was given its base with cycle state 1. -/
structure RingUse.Fresh (c : Channel) (ringPhys : BitVec 64) (s : RingUse) : Prop where
  todo : s.todo = []
  dequeue : s.dequeue = ringPhys.toNat
  ccs : s.ccs = true
  enqueued : s.enqueued = []
  consumed : s.consumed = []
  ring : ∃ x, s.kernel.xhci = some x ∧ (c.ring s.kernel x).enqueueIndex = 0 ∧ (c.ring s.kernel x).cycleState = true ∧
    ∀ i, i < c.size → (c.ring s.kernel x).trbs i = Trb.empty

/-- The controller, stepping on, consumes what was put on the ring in its order, and all of it. -/
def RingUse.Delivers (c : Channel) (ringPhys : BitVec 64) (s : RingUse) : Prop :=
  (∀ k, ((RingUse.consume c ringPhys)^[k] s).consumed <+: s.enqueued) ∧
  ∃ k, ((RingUse.consume c ringPhys)^[k] s).consumed = s.enqueued

/-! ## The TRBs -/

theorem ep0Trb_bits (x : XHCI) (parameter : BitVec 64) (status : BitVec 32) {control : BitVec 32}
    (hbit : ∀ b, (control ||| bitOf b).getLsbD 0 = b ∧
      (((control ||| bitOf b) >>> 10) &&& 0x3F#32).toNat ≠ TRB_TYPE_LINK.toNat) :
    ∃ t, Channel.ep0.trb x (.ep0EnqueueTrb parameter status control) = some t ∧ t.cycleBit = x.ep0CycleState ∧
      t.trbType ≠ TRB_TYPE_LINK.toNat :=
  ⟨Kernel.ep0Trb x parameter status control, rfl, hbit x.ep0CycleState⟩

/-- Every stage of a control transfer has the cycle state of the ring, and none is a Link TRB. -/
theorem stage_bits {o : Op} {ops : List Op} (hq : Channel.ep0.Request ops) (ho : o ∈ ops) (x : XHCI) :
    ∃ t, Channel.ep0.trb x o = some t ∧ t.cycleBit = x.ep0CycleState ∧ t.trbType ≠ TRB_TYPE_LINK.toNat := by
  cases hq with
  | transferIn setup bufPhys wLength =>
    simp only [inStages, List.mem_cons, List.not_mem_nil, or_false] at ho
    rcases ho with rfl | rfl | rfl
    · exact ep0Trb_bits x _ _ (by decide)
    · exact ep0Trb_bits x _ _ (by decide)
    · exact ep0Trb_bits x _ _ (by decide)
  | transferNoData setup =>
    simp only [noDataStages, List.mem_cons, List.not_mem_nil, or_false] at ho
    rcases ho with rfl | rfl
    · exact ep0Trb_bits x _ _ (by decide)
    · exact ep0Trb_bits x _ _ (by decide)

/-- Bit 3 tells a command's type from a Link TRB's. -/
theorem commandTrb_bits (x : XHCI) (parameter slotId : Nat) {trbType : Nat}
    (ht : (BitVec.ofNat 32 trbType).getLsbD 3 = true) :
    (Kernel.commandTrb x parameter trbType slotId).cycleBit = x.cmdCycleState ∧
    (Kernel.commandTrb x parameter trbType slotId).trbType ≠ TRB_TYPE_LINK.toNat := by
  constructor
  · have hb : ∀ b : Bool, (bitOf b).getLsbD 0 = b := by decide
    simp only [Kernel.commandTrb, Trb.cycleBit, BitVec.getLsbD_or, BitVec.getLsbD_shiftLeft, hb]
    simp
  · intro h
    have hb : ∀ b : Bool, (bitOf b).getLsbD 13 = false := by decide
    have h3 : (((Kernel.commandTrb x parameter trbType slotId).control >>> 10) &&& 0x3F#32).getLsbD 3 = true := by
      simp only [Kernel.commandTrb, BitVec.getLsbD_and, BitVec.getLsbD_ushiftRight, BitVec.getLsbD_or,
        BitVec.getLsbD_shiftLeft, hb]
      simp [ht]
    have h6 : ((Kernel.commandTrb x parameter trbType slotId).control >>> 10) &&& 0x3F#32 = TRB_TYPE_LINK :=
      BitVec.eq_of_toNat_eq h
    rw [h6] at h3
    revert h3
    decide

theorem request_bits {c : Channel} {o : Op} {ops : List Op} (hq : c.Request ops) (ho : o ∈ ops) (k : Kernel)
    (x : XHCI) :
    ∃ t, c.trb x o = some t ∧ t.cycleBit = (c.ring k x).cycleState ∧ t.trbType ≠ TRB_TYPE_LINK.toNat := by
  cases c with
  | ep0 => exact stage_bits hq ho x
  | command =>
    cases hq with
    | @command parameter slotId trbType h =>
      rw [List.mem_singleton.1 ho]
      refine ⟨_, rfl, commandTrb_bits x parameter slotId ?_⟩
      simp only [List.mem_cons, List.not_mem_nil, or_false] at h
      rcases h with rfl | rfl | rfl | rfl
      · decide
      · decide
      · decide
      · decide

/-- A request is at most three TRBs. -/
theorem request_length {c : Channel} {ops : List Op} (hq : c.Request ops) : ops.length ≤ 3 := by
  cases hq <;> simp [inStages, noDataStages]

/-! ## The invariant -/

/-- The cells before the last hold the TRBs enqueued since the last wrap, the last one is blank, and the
controller, in its first lap for good, has consumed a prefix that is at most three TRBs behind. -/
structure RingUse.Inv (c : Channel) (base : Nat) (s : RingUse) (x : XHCI) : Prop where
  xhci : s.kernel.xhci = some x
  laps : Laps Trb.cycleBit (c.size - 1) (c.ring s.kernel x).trbs s.enqueued
  last : ((c.ring s.kernel x).trbs (c.size - 1)).cycleBit = false
  notLink : ∀ t ∈ s.enqueued, t.trbType ≠ TRB_TYPE_LINK.toNat
  producer : At (c.size - 1) s.enqueued.length (c.ring s.kernel x).enqueueIndex (c.ring s.kernel x).cycleState
  dequeue : s.dequeue = base + 16 * s.consumed.length
  ccs : s.ccs = true
  pref : s.consumed <+: s.enqueued
  stop : s.consumed.length ≤ c.size - 1
  ahead : s.enqueued.length + s.todo.length ≤ s.consumed.length + 3
  todo : ∃ ops, c.Request ops ∧ ∀ o ∈ s.todo, o ∈ ops

theorem Channel.size_gt (c : Channel) : 15 < c.size := by cases c <;> decide

section Steps

variable {c : Channel} {ringPhys : BitVec 64} {s s' : RingUse} {x : XHCI}

theorem RingUse.inv_fresh (h : s.Fresh c ringPhys) : ∃ x, s.Inv c ringPhys.toNat x := by
  obtain ⟨x, hx, hi, hc, hcell⟩ := h.ring
  have hsize := c.size_gt
  refine ⟨x, ⟨hx, ?_, ?_, ?_, ?_, ?_, h.ccs, ?_, ?_, ?_, ?_⟩⟩
  · rw [h.enqueued]
    apply Laps.empty
    intro i hin
    rw [hcell i (by omega)]
    rfl
  · rw [hcell _ (by omega)]
    rfl
  · simp [h.enqueued]
  · rw [h.enqueued, hi, hc]
    exact At.start
  · simp [h.dequeue, h.consumed]
  · rw [h.consumed]
    exact List.nil_prefix
  · simp [h.consumed]
  · simp [h.enqueued, h.todo, h.consumed]
  · cases c with
    | ep0 => exact ⟨_, .transferNoData 0, by simp [h.todo]⟩
    | command => exact ⟨_, .command 0 0 (List.mem_cons_self ..), by simp [h.todo]⟩

theorem RingUse.inv_request {ops : List Op} (h : s.Inv c ringPhys.toNat x) (hq : c.Request ops)
    (hs : s.request ops = some s') : s'.Inv c ringPhys.toNat x := by
  unfold RingUse.request at hs
  split at hs
  · rename_i hidle
    cases hs
    refine { h with ahead := ?_, todo := ⟨ops, hq, fun _ ho => ho⟩ }
    have hlen := request_length hq
    show s.enqueued.length + ops.length ≤ s.consumed.length + 3
    rw [hidle.2]
    omega
  · cases hs

/-- What `ep0_enqueue_trb` and `send_command` do to their ring: the TRB is written at the index, which
goes back to 0, with the other cycle bit, when it reaches the last cell. -/
theorem ring_put {o : Op} {t : Trb} {k k' : Kernel} {r : Ret o} (hx : k.xhci = some x) (ht : c.trb x o = some t)
    (he : k.exec o = some (r, k')) : ∃ x', k'.xhci = some x' ∧
      (c.ring k' x').trbs = Function.update (c.ring k x).trbs (c.ring k x).enqueueIndex t ∧
      if (c.ring k x).enqueueIndex + 1 ≥ c.size - 1 then
        (c.ring k' x').enqueueIndex = 0 ∧ (c.ring k' x').cycleState = !(c.ring k x).cycleState
      else
        (c.ring k' x').enqueueIndex = (c.ring k x).enqueueIndex + 1 ∧
          (c.ring k' x').cycleState = (c.ring k x).cycleState := by
  have hcell : ∀ virt index i, Function.update k.trb (virt + 16 * index) t (virt + 16 * i) =
      Function.update (k.ringAt virt) index t i := fun virt index i => by
    by_cases hi : i = index
    · rw [hi, Function.update_self, Function.update_self]
    · rw [Function.update_of_ne (by omega), Function.update_of_ne hi]
      rfl
  cases c with
  | ep0 =>
    cases o with
    | ep0EnqueueTrb parameter status control =>
      cases ht
      simp only [Kernel.exec, hx, Option.map_some, Option.some.injEq, Prod.mk.injEq, true_and] at he
      subst he
      refine ⟨Kernel.stepEp0 x, rfl, ?_, ?_⟩
      · funext i
        refine Eq.trans ?_ (hcell x.ep0RingVirt x.ep0EnqueueIndex i)
        unfold Kernel.stepEp0
        split <;> rfl
      · show if x.ep0EnqueueIndex + 1 ≥ CONTROL_RING_SIZE - 1 then _ else _
        unfold Channel.ring Kernel.stepEp0
        split
        · exact ⟨rfl, rfl⟩
        · exact ⟨rfl, rfl⟩
    | _ => cases ht
  | command =>
    cases o with
    | sendCommand parameter trbType slotId =>
      cases ht
      simp only [Kernel.exec, hx, Option.map_some, Option.some.injEq, Prod.mk.injEq, true_and] at he
      subst he
      refine ⟨Kernel.stepCmd x, rfl, ?_, ?_⟩
      · funext i
        refine Eq.trans ?_ (hcell x.cmdRingVirt x.cmdEnqueueIndex i)
        unfold Kernel.stepCmd
        split <;> rfl
      · show if x.cmdEnqueueIndex + 1 ≥ COMMAND_RING_SIZE - 1 then _ else _
        unfold Channel.ring Kernel.stepCmd
        split
        · exact ⟨rfl, rfl⟩
        · exact ⟨rfl, rfl⟩
    | _ => cases ht

theorem RingUse.inv_put (h : s.Inv c ringPhys.toNat x) (hs : s.put c = some s') : ∃ x', s'.Inv c ringPhys.toNat x' := by
  have hsize := c.size_gt
  unfold RingUse.put at hs
  split at hs
  · rename_i o rest y htodo hy
    obtain rfl : y = x := Option.some.inj (hy.symm.trans h.xhci)
    split at hs
    · rename_i t r k' ht he
      cases hs
      obtain ⟨ops, hq, hops⟩ := h.todo
      rw [htodo] at hops
      obtain ⟨t', ht', hbit, hlink⟩ := request_bits hq (hops o (List.mem_cons_self ..)) s.kernel y
      obtain rfl : t = t' := Option.some.inj (ht.symm.trans ht')
      obtain ⟨x', hx', hcells, hstep⟩ := ring_put hy ht he
      have hlt := h.producer.lt (by omega)
      have hahead := h.ahead
      rw [htodo, List.length_cons] at hahead
      -- the TRB carries the bit of its lap, is no Link TRB, and is not written to the last cell
      refine ⟨x', ⟨hx', ?_, ?_, ?_, ?_, h.dequeue, h.ccs, ?_, h.stop, ?_, ⟨ops, hq, ?_⟩⟩⟩
      · show Laps _ _ (c.ring k' x').trbs (s.enqueued ++ [t])
        rw [hcells, h.producer.index]
        apply h.laps.write
        rw [hbit, h.producer.cycle]
      · show ((c.ring k' x').trbs (c.size - 1)).cycleBit = false
        rw [hcells, Function.update_of_ne (by omega)]
        exact h.last
      · intro t' ht'
        rcases List.mem_append.1 ht' with ht' | ht'
        · exact h.notLink t' ht'
        · rw [List.mem_singleton.1 ht']
          exact hlink
      · show At _ (s.enqueued ++ [t]).length (c.ring k' x').enqueueIndex (c.ring k' x').cycleState
        rw [List.length_append, List.length_singleton]
        split at hstep
        · rename_i hw
          rw [hstep.1, hstep.2]
          exact h.producer.wrap (by omega) hw
        · rw [hstep.1, hstep.2]
          exact h.producer.next (by omega) (by omega)
      · exact h.pref.trans (List.prefix_append _ _)
      · show (s.enqueued ++ [t]).length + rest.length ≤ s.consumed.length + 3
        rw [List.length_append, List.length_singleton]
        omega
      · intro o' ho'
        exact hops o' (List.mem_cons_of_mem _ ho')
    · cases hs
  · cases hs

/-- At a cell before the last the controller takes the next TRB enqueued, if there is one; at the last
cell it waits for a TRB that never comes. -/
theorem RingUse.consume_cases (h : s.Inv c ringPhys.toNat x) :
    ((s.enqueued.length ≤ s.consumed.length ∨ s.consumed.length = c.size - 1) ∧ s.consume c ringPhys = s) ∨
    ∃ hlt : s.consumed.length < s.enqueued.length, s.consumed.length < c.size - 1 ∧ s.consume c ringPhys =
      { s with dequeue := s.dequeue + 16, consumed := s.consumed ++ [s.enqueued[s.consumed.length]] } := by
  have hsize := c.size_gt
  have hahead := h.ahead
  have hcur : (s.system c x).current ringPhys = (c.ring s.kernel x).trbs s.consumed.length := by
    show (c.ring s.kernel x).trbs ((s.dequeue - ringPhys.toNat) / 16) = _
    rw [h.dequeue]
    congr 1
    omega
  have hccs : (s.system c x).ccs = true := h.ccs
  have hwait (hb : ((s.system c x).current ringPhys).cycleBit ≠ true) : s.consume c ringPhys = s := by
    have : (s.system c x).consume ringPhys = s.system c x := by
      unfold RingSystem.consume
      rw [if_neg (by rw [hccs]; exact hb)]
    unfold RingUse.consume
    rw [h.xhci]
    show { s with dequeue := _, ccs := _, consumed := _ } = s
    rw [this]
    rfl
  -- at a cell before the last, the bit tells a fresh TRB; the last cell is blank for good
  rcases Nat.lt_or_eq_of_le h.stop with hn | hn
  · have hf := h.laps.fresh (by omega) h.pref.length_le (by omega)
    rw [Nat.mod_eq_of_lt hn, Nat.div_eq_of_lt hn, lapBit_zero, ← hcur] at hf
    by_cases hb : ((s.system c x).current ringPhys).cycleBit = true
    · -- a fresh TRB, which is not a Link TRB
      have hlt := hf.1 hb
      have htrb : (s.system c x).current ringPhys = s.enqueued[s.consumed.length] := by
        rw [hcur]
        have := h.laps.written _ hlt (by omega)
        rwa [Nat.mod_eq_of_lt hn] at this
      refine .inr ⟨hlt, hn, ?_⟩
      have : (s.system c x).consume ringPhys = { s.system c x with
          dequeue := s.dequeue + 16, consumed := s.consumed ++ [s.enqueued[s.consumed.length]] } := by
        unfold RingSystem.consume
        rw [if_pos (hb.trans hccs.symm), if_neg (by rw [htrb]; exact h.notLink _ (List.getElem_mem hlt)), htrb]
        rfl
      unfold RingUse.consume
      rw [h.xhci]
      show { s with dequeue := _, ccs := _, consumed := _ } = _
      rw [this]
      rfl
    · exact .inl ⟨.inl (Nat.not_lt.1 fun hlt => hb (hf.2 hlt)), hwait hb⟩
  · refine .inl ⟨.inr hn, hwait ?_⟩
    rw [hcur, hn, h.last]
    exact Bool.false_ne_true

theorem RingUse.inv_consume (h : s.Inv c ringPhys.toNat x) : (s.consume c ringPhys).Inv c ringPhys.toNat x := by
  rcases RingUse.consume_cases h with ⟨-, he⟩ | ⟨hlt, hn, he⟩
  · rw [he]
    exact h
  · rw [he]
    have hahead := h.ahead
    refine { h with dequeue := ?_, pref := prefix_next h.pref hlt, stop := ?_, ahead := ?_ }
    · show s.dequeue + 16 = _
      rw [List.length_append, List.length_singleton, h.dequeue]
      omega
    · rw [List.length_append, List.length_singleton]
      exact hn
    · rw [List.length_append, List.length_singleton]
      show s.enqueued.length + s.todo.length ≤ _
      omega

theorem RingUse.inv_other (h : s.Inv c ringPhys.toNat x) {k : Kernel} (hk : c.SameRing s.kernel k) :
    ∃ x', RingUse.Inv c ringPhys.toNat { s with kernel := k } x' := by
  obtain ⟨x', hx', hi, hc, hcell⟩ := hk x h.xhci
  have hsize := c.size_gt
  refine ⟨x', { h with xhci := hx', laps := ?_, last := ?_, producer := ?_ }⟩
  · exact h.laps.congr (by omega) fun i hin => hcell i (by omega)
  · show ((c.ring k x').trbs (c.size - 1)).cycleBit = false
    rw [hcell _ (by omega)]
    exact h.last
  · show At _ s.enqueued.length (c.ring k x').enqueueIndex (c.ring k x').cycleState
    rw [hi, hc]
    exact h.producer

theorem RingUse.inv_step (h : s.Inv c ringPhys.toNat x) (hs : RingUse.Step c ringPhys s s') :
    ∃ x', s'.Inv c ringPhys.toNat x' := by
  cases hs with
  | request hq hr => exact ⟨x, RingUse.inv_request h hq hr⟩
  | put hp => exact RingUse.inv_put h hp
  | consume => exact ⟨x, RingUse.inv_consume h⟩
  | other k hk => exact RingUse.inv_other h hk

theorem RingUse.inv_run {s₀ : RingUse} (h : s₀.Fresh c ringPhys)
    (hr : Relation.ReflTransGen (RingUse.Step c ringPhys) s₀ s) : ∃ x, s.Inv c ringPhys.toNat x := by
  induction hr with
  | refl => exact RingUse.inv_fresh h
  | tail _ hs ih =>
    obtain ⟨x, hx⟩ := ih
    exact RingUse.inv_step hx hs

/-! ## What the controller gets to -/

theorem RingUse.inv_iterate (h : s.Inv c ringPhys.toNat x) (k : Nat) :
    ((RingUse.consume c ringPhys)^[k] s).Inv c ringPhys.toNat x := by
  induction k with
  | zero => exact h
  | succ k ih =>
    rw [Function.iterate_succ_apply']
    exact RingUse.inv_consume ih

theorem RingUse.consume_enqueued : (s.consume c ringPhys).enqueued = s.enqueued := by
  unfold RingUse.consume
  split <;> rfl

theorem RingUse.iterate_enqueued (k : Nat) : ((RingUse.consume c ringPhys)^[k] s).enqueued = s.enqueued := by
  induction k with
  | zero => rfl
  | succ k ih => rw [Function.iterate_succ_apply', RingUse.consume_enqueued, ih]

/-- Before the last cell the controller catches up, one TRB a step. -/
theorem RingUse.consume_rest (m : Nat) :
    ∀ {s : RingUse}, s.Inv c ringPhys.toNat x → s.enqueued.length ≤ c.size - 1 →
      s.enqueued.length = s.consumed.length + m →
      ((RingUse.consume c ringPhys)^[m] s).consumed = s.enqueued := by
  induction m with
  | zero =>
    intro s h _ hm
    exact h.pref.eq_of_length (by omega)
  | succ m ih =>
    intro s h hn hm
    rcases RingUse.consume_cases h with ⟨hstop, -⟩ | ⟨hlt, -, he⟩
    · omega
    · rw [Function.iterate_succ_apply, ← RingUse.consume_enqueued (s := s)]
      apply ih (RingUse.inv_consume h)
      · rw [RingUse.consume_enqueued]
        exact hn
      · rw [RingUse.consume_enqueued, he, List.length_append, List.length_singleton]
        omega

theorem RingUse.delivers_iff {s₀ : RingUse} (h₀ : s₀.Fresh c ringPhys)
    (hr : Relation.ReflTransGen (RingUse.Step c ringPhys) s₀ s) :
    s.Delivers c ringPhys ↔ s.enqueued.length ≤ c.size - 1 := by
  obtain ⟨x, h⟩ := RingUse.inv_run h₀ hr
  constructor
  · rintro ⟨-, k, hk⟩
    rw [← hk]
    exact (RingUse.inv_iterate h k).stop
  · intro hn
    refine ⟨fun k => ?_, s.enqueued.length - s.consumed.length, ?_⟩
    · rw [← RingUse.iterate_enqueued k]
      exact (RingUse.inv_iterate h k).pref
    · apply RingUse.consume_rest _ h hn
      have := h.pref.length_le
      omega

end Steps

/-! ## Where the rings come from -/

/-- The ring that `address_device` allocates, once `ep0_ring_virt` and the fields beside it are set. -/
theorem fresh_setEp0Ring {k k' : Kernel} {virt phys : Nat} {r : Unit} (hp : phys < 2 ^ 64)
    (hring : ∀ i, i < CONTROL_RING_SIZE → k.ringAt virt i = Trb.empty)
    (h : k.exec (.setEp0Ring virt phys) = some (r, k')) :
    RingUse.Fresh .ep0 (BitVec.ofNat 64 phys) ⟨k', [], phys, true, [], []⟩ := by
  obtain ⟨x, -, hx⟩ := Option.map_eq_some_iff.1 h
  cases hx
  refine ⟨rfl, ?_, rfl, rfl, rfl, _, rfl, rfl, rfl, hring⟩
  exact (Nat.mod_eq_of_lt hp).symm

theorem boxNew_ring (k : Kernel) {i : Nat} (hi : i < CONTROL_RING_SIZE) :
    (k.boxNew .transferRing).2.ringAt (k.boxNew .transferRing).1 i = Trb.empty := by
  have hcell : ∀ addr, k.storeRing addr (fun _ => Trb.empty) (addr + 16 * i) = Trb.empty := by
    intro addr
    apply if_pos
    omega
  exact hcell _

/-! ## Runs by data -/

/-- One step of a run that is given by data. -/
inductive RingUse.Move
  | request (ops : List Op) | put | consume

/-- Take the steps, if each is possible. -/
def RingUse.play (c : Channel) (ringPhys : BitVec 64) : List Move → RingUse → Option RingUse
  | [], s => some s
  | .request ops :: ms, s => (s.request ops).bind (play c ringPhys ms)
  | .put :: ms, s => (s.put c).bind (play c ringPhys ms)
  | .consume :: ms, s => play c ringPhys ms (s.consume c ringPhys)

theorem RingUse.play_sound {c : Channel} {ringPhys : BitVec 64} {ms : List Move}
    (hq : ∀ ops, Move.request ops ∈ ms → c.Request ops) :
    ∀ {s s' : RingUse}, play c ringPhys ms s = some s' → Relation.ReflTransGen (Step c ringPhys) s s' := by
  induction ms with
  | nil =>
    intro s s' h
    cases h
    exact .refl
  | cons m ms ih =>
    intro s s' h
    have ih' := @ih fun ops ho => hq ops (List.mem_cons_of_mem _ ho)
    cases m with
    | request ops =>
      obtain ⟨s₁, h₁, h₂⟩ := Option.bind_eq_some_iff.1 h
      exact .head (.request (hq ops (List.mem_cons_self ..)) h₁) (ih' h₂)
    | put =>
      obtain ⟨s₁, h₁, h₂⟩ := Option.bind_eq_some_iff.1 h
      exact .head (.put h₁) (ih' h₂)
    | consume => exact .head .consume (ih' h)

/-- Requests that are served, one after the other: each TRB is put on the ring, then consumed if the
controller gets to it. -/
def RingUse.serve (requests : List (List Op)) : List Move :=
  requests.flatMap fun ops => .request ops :: ops.flatMap fun _ => [.put, .consume]

theorem RingUse.request_mem_serve {requests : List (List Op)} {ops : List Op} (h : Move.request ops ∈ serve requests) :
    ops ∈ requests := by
  obtain ⟨ops', hmem, h'⟩ := List.mem_flatMap.1 h
  rcases List.mem_cons.1 h' with he | h'
  · cases he
    exact hmem
  · simp at h'

/-- A ring right after it was set up. -/
def RingUse.start : RingUse := ⟨Kernel.start 0 fun _ => ⟨false, false, 0, 0⟩, [], 0x2000, true, [], []⟩

theorem RingUse.fresh_start (c : Channel) : RingUse.start.Fresh c 0x2000#64 := by
  refine ⟨rfl, rfl, rfl, rfl, rfl, _, rfl, ?_⟩
  cases c with
  | ep0 => exact ⟨rfl, rfl, fun _ _ => rfl⟩
  | command => exact ⟨rfl, rfl, fun _ _ => rfl⟩

theorem RingUse.serve_run (c : Channel) (requests : List (List Op)) {n : Nat} (hq : ∀ ops ∈ requests, c.Request ops)
    (h : (play c 0x2000#64 (serve requests) start).map (·.enqueued.length) = some n) :
    ∃ s, Relation.ReflTransGen (Step c 0x2000#64) start s ∧ s.enqueued.length = n := by
  obtain ⟨s, hs, hlen⟩ := Option.map_eq_some_iff.1 h
  exact ⟨s, play_sound (fun ops ho => hq ops (request_mem_serve ho)) hs, hlen⟩

/-! ## How far the rings reach -/

/-- Whatever control transfers a device has seen since its `address_device`, the controller consumes
their TRBs, all and in order, exactly if there were at most 15 of them. -/
theorem ep0_ring_delivers {ringPhys : BitVec 64} {s₀ s : RingUse} (h₀ : s₀.Fresh .ep0 ringPhys)
    (hr : Relation.ReflTransGen (RingUse.Step .ep0 ringPhys) s₀ s) :
    s.Delivers .ep0 ringPhys ↔ s.enqueued.length ≤ CONTROL_RING_SIZE - 1 :=
  RingUse.delivers_iff h₀ hr

/-- `ep0_ring_delivers` after the first transfer. -/
theorem ep0_ring_delivers_first : ∃ s, Relation.ReflTransGen (RingUse.Step .ep0 0x2000#64) RingUse.start s ∧
    s.enqueued.length = 2 ∧ s.Delivers .ep0 0x2000#64 := by
  obtain ⟨s, hr, hlen⟩ := RingUse.serve_run .ep0 [noDataStages 0] (n := 2)
    (fun _ ho => List.mem_singleton.1 ho ▸ .transferNoData 0) (by decide +kernel)
  refine ⟨s, hr, hlen, (ep0_ring_delivers (RingUse.fresh_start .ep0) hr).2 ?_⟩
  rw [hlen]
  decide

/-- Six transfers of three TRBs are more than the controller gets to. -/
theorem ep0_ring_stuck : ¬ ∀ (ringPhys : BitVec 64) (s₀ s : RingUse), s₀.Fresh .ep0 ringPhys →
    Relation.ReflTransGen (RingUse.Step .ep0 ringPhys) s₀ s → s.Delivers .ep0 ringPhys := by
  intro h
  obtain ⟨s, hr, hlen⟩ := RingUse.serve_run .ep0 (List.replicate 6 (inStages 0 0 18)) (n := 18)
    (fun _ ho => List.eq_of_mem_replicate ho ▸ .transferIn 0 0 18) (by decide +kernel)
  have hn := (RingUse.delivers_iff (RingUse.fresh_start .ep0) hr).1 (h _ _ s (RingUse.fresh_start .ep0) hr)
  rw [hlen] at hn
  revert hn
  decide

/-- Whatever commands the controller was sent since `init_xhci`, it executes them, all and in order,
exactly if there were at most 31 of them. -/
theorem command_ring_delivers {ringPhys : BitVec 64} {s₀ s : RingUse} (h₀ : s₀.Fresh .command ringPhys)
    (hr : Relation.ReflTransGen (RingUse.Step .command ringPhys) s₀ s) :
    s.Delivers .command ringPhys ↔ s.enqueued.length ≤ COMMAND_RING_SIZE - 1 :=
  RingUse.delivers_iff h₀ hr

/-- `command_ring_delivers` after the first Enable Slot. -/
theorem command_ring_delivers_first : ∃ s, Relation.ReflTransGen (RingUse.Step .command 0x2000#64) RingUse.start s ∧
    s.enqueued.length = 1 ∧ s.Delivers .command 0x2000#64 := by
  obtain ⟨s, hr, hlen⟩ := RingUse.serve_run .command [[.sendCommand 0 TRB_TYPE_ENABLE_SLOT 0]] (n := 1)
    (fun _ ho => List.mem_singleton.1 ho ▸ .command 0 0 (List.mem_cons_self ..)) (by decide +kernel)
  refine ⟨s, hr, hlen, (command_ring_delivers (RingUse.fresh_start .command) hr).2 ?_⟩
  rw [hlen]
  decide

/-- The 32nd command is one more than the controller gets to. -/
theorem command_ring_stuck : ¬ ∀ (ringPhys : BitVec 64) (s₀ s : RingUse), s₀.Fresh .command ringPhys →
    Relation.ReflTransGen (RingUse.Step .command ringPhys) s₀ s → s.Delivers .command ringPhys := by
  intro h
  obtain ⟨s, hr, hlen⟩ := RingUse.serve_run .command
    (List.replicate 32 [.sendCommand 0 TRB_TYPE_ENABLE_SLOT 0]) (n := 32)
      (fun _ ho => List.eq_of_mem_replicate ho ▸ .command 0 0 (List.mem_cons_self ..)) (by decide +kernel)
  have hn := (RingUse.delivers_iff (RingUse.fresh_start .command) hr).1 (h _ _ s (RingUse.fresh_start .command) hr)
  rw [hlen] at hn
  revert hn
  decide

end Octagram.Usb

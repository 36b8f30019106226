/-
The transfer ring of an interrupt endpoint: `enqueue_normal_trb_and_ring` with the Link TRB in the
last slot, against a controller that follows the cycle bits. The controller consumes what was
enqueued, all of it and in order, over any number of wraps (`transfer_ring_in_order`). The data
slots are a `Laps` ring with one slot less than the ring; the Link TRB carries the bit of the last
lap that was closed (`RingInv`), which is why it lets the controller on whenever there is more to
read (`link_handed_over`).
-/
import Octagram.Usb.Trb
import Octagram.Lib.CycleRing
import Octagram.Lib.Bits
import Mathlib.Logic.Relation
import Mathlib.Logic.Function.Iterate

namespace Octagram.Usb

open Octagram.Lib

/-- `TRB_TYPE_NORMAL`: a report to be received. -/
def TRB_TYPE_NORMAL : BitVec 32 := 1

/-- `TRB_TYPE_LINK`: the last TRB of a ring, which leads back to the first. -/
def TRB_TYPE_LINK : BitVec 32 := 6

/-- `cycle as u32`. -/
def bitOf (cycle : Bool) : BitVec 32 := if cycle then 1 else 0

/-- The TRB that `write_link_trb` writes: a Link TRB with Toggle Cycle. -/
def linkTrb (ringPhys : BitVec 64) (cycle : Bool) : Trb where
  parameter := ringPhys
  status := 0
  control := (TRB_TYPE_LINK <<< 10) ||| (1#32 <<< 1) ||| bitOf cycle

/-- The TRB that `enqueue_normal_trb_and_ring` writes. -/
def normalTrb (bufPhys : BitVec 64) (len : BitVec 32) (cycle : Bool) : Trb where
  parameter := bufPhys
  status := len &&& 0x1FFFF#32
  control := (TRB_TYPE_NORMAL <<< 10) ||| (1#32 <<< 5) ||| bitOf cycle

/-- A ring in memory with the driver's `enqueue_index` and `cycle_state`. -/
structure TransferRing where
  trbs : Nat → Trb
  enqueueIndex : Nat
  cycleState : Bool

namespace TransferRing

/-- `write_link_trb`. -/
def writeLinkTrb (r : TransferRing) (ringPhys : BitVec 64) (ringSize : Nat) (cycle : Bool) : TransferRing :=
  { r with trbs := Function.update r.trbs (ringSize - 1) (linkTrb ringPhys cycle) }

/-- The first half of `enqueue_normal_trb_and_ring`: write the TRB and step the index. -/
def putTrb (r : TransferRing) (bufPhys : BitVec 64) (len : BitVec 32) : TransferRing :=
  { r with
    trbs := Function.update r.trbs r.enqueueIndex (normalTrb bufPhys len r.cycleState)
    enqueueIndex := r.enqueueIndex + 1 }

/-- The second half: at the end of the ring, hand the Link TRB over and start the next lap. -/
def closeLap (r : TransferRing) (ringPhys : BitVec 64) (ringSize : Nat) : TransferRing :=
  if r.enqueueIndex ≥ ringSize - 1 then
    { r.writeLinkTrb ringPhys ringSize r.cycleState with enqueueIndex := 0, cycleState := !r.cycleState }
  else
    r

/-- `enqueue_normal_trb_and_ring`, up to the doorbell. -/
def enqueueNormalTrb (r : TransferRing) (ringPhys : BitVec 64) (ringSize : Nat) (bufPhys : BitVec 64)
    (len : BitVec 32) : TransferRing :=
  (r.putTrb bufPhys len).closeLap ringPhys ringSize

/-- The ring that `configure_endpoint` prepares, with the driver's state after `init_keyboard`. -/
def prepared (ringPhys : BitVec 64) (ringSize : Nat) : TransferRing :=
  (TransferRing.mk (fun _ => Trb.empty) 0 true).writeLinkTrb ringPhys ringSize true

end TransferRing

/-- The ring, whether a call is between its two halves, the controller's dequeue pointer and
consumer cycle state, and the histories of the TRBs enqueued and consumed. -/
structure RingSystem where
  ring : TransferRing
  inCall : Bool
  dequeue : Nat
  ccs : Bool
  enqueued : List Trb
  consumed : List Trb

namespace RingSystem

/-- Nothing was enqueued yet. -/
def boot (ringPhys : BitVec 64) (ringSize : Nat) : RingSystem :=
  ⟨TransferRing.prepared ringPhys ringSize, false, ringPhys.toNat, true, [], []⟩

/-- The TRB at the controller's dequeue pointer. -/
def current (ringPhys : BitVec 64) (s : RingSystem) : Trb := s.ring.trbs ((s.dequeue - ringPhys.toNat) / 16)

/-- One step of the controller: a TRB with its cycle bit is consumed, a Link TRB is followed, with
its Toggle Cycle bit. -/
def consume (ringPhys : BitVec 64) (s : RingSystem) : RingSystem :=
  if (s.current ringPhys).cycleBit = s.ccs then
    if (s.current ringPhys).trbType = TRB_TYPE_LINK.toNat then
      { s with
        dequeue := ((s.current ringPhys).parameter &&& ~~~0xF#64).toNat
        ccs := if (s.current ringPhys).control.getLsbD 1 then !s.ccs else s.ccs }
    else
      { s with dequeue := s.dequeue + 16, consumed := s.consumed ++ [s.current ringPhys] }
  else
    s

end RingSystem

/-- One step: a call of `enqueue_normal_trb_and_ring` writes its TRB (when at most `ringSize - 3`
are unconsumed), a call ends, or the controller takes a step. -/
inductive RingStep (ringPhys : BitVec 64) (ringSize : Nat) : RingSystem → RingSystem → Prop
  | put {s : RingSystem} (bufPhys : BitVec 64) (len : BitVec 32) (hc : s.inCall = false)
      (hroom : s.enqueued.length + 3 ≤ s.consumed.length + ringSize) :
      RingStep ringPhys ringSize s { s with
        ring := s.ring.putTrb bufPhys len
        inCall := true
        enqueued := s.enqueued ++ [normalTrb bufPhys len s.ring.cycleState] }
  | close {s : RingSystem} (hc : s.inCall = true) :
      RingStep ringPhys ringSize s { s with ring := s.ring.closeLap ringPhys ringSize, inCall := false }
  | consume {s : RingSystem} : RingStep ringPhys ringSize s (s.consume ringPhys)

/-! ## The bits of the TRBs -/

@[simp] theorem normalTrb_cycleBit (bufPhys : BitVec 64) (len : BitVec 32) (cycle : Bool) :
    (normalTrb bufPhys len cycle).cycleBit = cycle := by
  show ((TRB_TYPE_NORMAL <<< 10) ||| (1#32 <<< 5) ||| bitOf cycle).getLsbD 0 = cycle
  revert cycle; decide

@[simp] theorem normalTrb_type (bufPhys : BitVec 64) (len : BitVec 32) (cycle : Bool) :
    (normalTrb bufPhys len cycle).trbType = 1 := by
  show ((((TRB_TYPE_NORMAL <<< 10) ||| (1#32 <<< 5) ||| bitOf cycle) >>> 10) &&& 0x3F#32).toNat = 1
  revert cycle; decide

@[simp] theorem linkTrb_cycleBit (ringPhys : BitVec 64) (cycle : Bool) : (linkTrb ringPhys cycle).cycleBit = cycle := by
  show ((TRB_TYPE_LINK <<< 10) ||| (1#32 <<< 1) ||| bitOf cycle).getLsbD 0 = cycle
  revert cycle; decide

@[simp] theorem linkTrb_type (ringPhys : BitVec 64) (cycle : Bool) :
    (linkTrb ringPhys cycle).trbType = TRB_TYPE_LINK.toNat := by
  show ((((TRB_TYPE_LINK <<< 10) ||| (1#32 <<< 1) ||| bitOf cycle) >>> 10) &&& 0x3F#32).toNat = _
  revert cycle; decide

@[simp] theorem linkTrb_toggle (ringPhys : BitVec 64) (cycle : Bool) :
    (linkTrb ringPhys cycle).control.getLsbD 1 = true := by
  show ((TRB_TYPE_LINK <<< 10) ||| (1#32 <<< 1) ||| bitOf cycle).getLsbD 1 = true
  revert cycle; decide

/-! ## The invariant -/

/-- The cycle bit of the Link TRB after `w` wraps: the one of the lap it closed last. -/
def linkBit (w : Nat) : Bool := lapBit (w - 1)

/-- The ring invariant, after `w` wraps of the driver and `f` Link TRBs followed by the controller:
the data slots hold the last TRBs with their lap's bit and the Link TRB is in its slot. -/
structure RingInv (ringPhys : BitVec 64) (n : Nat) (s : RingSystem) (w f : Nat) : Prop where
  laps : Laps Trb.cycleBit n s.ring.trbs s.enqueued
  link : s.ring.trbs n = linkTrb ringPhys (linkBit w)
  normal : ∀ t ∈ s.enqueued, t.trbType = 1
  producer : s.enqueued.length = w * n + s.ring.enqueueIndex
  index_le : s.ring.enqueueIndex ≤ n
  cycle : s.ring.cycleState = lapBit w
  idle : s.inCall = false → s.ring.enqueueIndex < n
  consumer : f * n ≤ s.consumed.length
  consumer_le : s.consumed.length ≤ f * n + n
  dequeue : s.dequeue = ringPhys.toNat + 16 * (s.consumed.length - f * n)
  ccs : s.ccs = lapBit f
  pref : s.consumed <+: s.enqueued
  room : s.enqueued.length < s.consumed.length + n

section Steps

variable {ringPhys : BitVec 64} {n w f : Nat} {s s' : RingSystem}

theorem ringInv_boot (hn : 2 ≤ n) : RingInv ringPhys n (RingSystem.boot ringPhys (n + 1)) 0 0 := by
  have hcell : ∀ i, i < n → (RingSystem.boot ringPhys (n + 1)).ring.trbs i = Trb.empty := fun i hi =>
    Function.update_of_ne (by rw [Nat.add_sub_cancel]; exact Nat.ne_of_lt hi) _ _
  refine ⟨Laps.empty fun i hi => ?_,
    Function.update_self _ _ _, by simp [RingSystem.boot], rfl.trans (by simp; rfl), ?_, rfl, ?_,
    ?_, ?_, ?_, rfl, List.nil_prefix, ?_⟩
  · rw [hcell i hi]; rfl
  · exact Nat.zero_le n
  · exact fun _ => by show 0 < n; omega
  · simp
  · simp [RingSystem.boot]
  · simp [RingSystem.boot]
  · show 0 < 0 + n; omega

/-- The position of the driver in its lap. -/
theorem RingInv.position (h : RingInv ringPhys n s w f) (hi : s.ring.enqueueIndex < n) :
    s.enqueued.length % n = s.ring.enqueueIndex ∧ s.enqueued.length / n = w := by
  have hd := (Nat.div_mod_unique (a := s.enqueued.length) (b := n) (c := s.ring.enqueueIndex) (d := w) (by omega)).2
    ⟨by rw [h.producer, Nat.mul_comm n w]; omega, hi⟩
  exact ⟨hd.2, hd.1⟩

theorem ringInv_put (h : RingInv ringPhys n s w f) (hc : s.inCall = false) (bufPhys : BitVec 64) (len : BitVec 32)
    (hroom : s.enqueued.length + 3 ≤ s.consumed.length + (n + 1)) :
    RingInv ringPhys n { s with
      ring := s.ring.putTrb bufPhys len
      inCall := true
      enqueued := s.enqueued ++ [normalTrb bufPhys len s.ring.cycleState] } w f := by
  have hi := h.idle hc
  obtain ⟨hmod, hdiv⟩ := h.position hi
  refine ⟨?_, ?_, ?_, ?_, hi, h.cycle, by simp, h.consumer, h.consumer_le, h.dequeue, h.ccs,
    h.pref.trans (List.prefix_append _ _), ?_⟩
  · show Laps _ n (Function.update s.ring.trbs s.ring.enqueueIndex _) _
    rw [← hmod]
    exact h.laps.write (by rw [normalTrb_cycleBit, h.cycle, hdiv])
  · exact (Function.update_of_ne (Nat.ne_of_gt hi) _ _).trans h.link
  · intro t ht
    rcases List.mem_append.1 ht with ht | ht
    · exact h.normal t ht
    · rw [List.mem_singleton.1 ht, normalTrb_type]
  · show (s.enqueued ++ [_]).length = w * n + (s.ring.enqueueIndex + 1)
    rw [List.length_append, List.length_singleton, h.producer]
    omega
  · show (s.enqueued ++ [_]).length < s.consumed.length + n
    rw [List.length_append, List.length_singleton]
    omega

/-- Closing a lap writes only the Link TRB, with the bit of the lap it closes. -/
theorem ringInv_close (h : RingInv ringPhys n s w f) (hn : 2 ≤ n) :
    ∃ w', RingInv ringPhys n { s with ring := s.ring.closeLap ringPhys (n + 1), inCall := false } w' f := by
  unfold TransferRing.closeLap
  rw [Nat.add_sub_cancel]
  by_cases hi : s.ring.enqueueIndex ≥ n
  · rw [if_pos hi]
    have hle := h.index_le
    refine ⟨w + 1, ⟨?_, ?_, h.normal, ?_, Nat.zero_le n, ?_, fun _ => ?_, h.consumer, h.consumer_le, h.dequeue, h.ccs,
      h.pref, h.room⟩⟩
    · exact h.laps.congr (by omega) fun i hin => Function.update_of_ne (by rw [Nat.add_sub_cancel]; omega) _ _
    · show Function.update s.ring.trbs (n + 1 - 1) _ n = _
      rw [Nat.add_sub_cancel, Function.update_self, h.cycle]
      rfl
    · show s.enqueued.length = (w + 1) * n + 0
      rw [h.producer, Nat.succ_mul]
      omega
    · show (!s.ring.cycleState) = _
      rw [h.cycle, lapBit_succ]
    · show 0 < n
      omega
  · rw [if_neg hi]
    exact ⟨w, ⟨h.laps, h.link, h.normal, h.producer, h.index_le, h.cycle,
      fun _ => by show s.ring.enqueueIndex < n; omega, h.consumer, h.consumer_le, h.dequeue, h.ccs, h.pref, h.room⟩⟩

/-! ## The controller -/

theorem current_slot (h : RingInv ringPhys n s w f) : s.current ringPhys = s.ring.trbs (s.consumed.length - f * n) := by
  unfold RingSystem.current
  rw [h.dequeue]
  congr 1
  omega

/-- At a data slot the controller consumes the next TRB enqueued, if there is one. -/
theorem consume_data (h : RingInv ringPhys n s w f) (hs : s.consumed.length < f * n + n) :
    (s.enqueued.length ≤ s.consumed.length ∧ s.consume ringPhys = s) ∨
    ∃ ht : s.consumed.length < s.enqueued.length, s.consume ringPhys =
      { s with dequeue := s.dequeue + 16, consumed := s.consumed ++ [s.enqueued[s.consumed.length]] } := by
  have hpos := h.consumer
  obtain ⟨hdiv, hmod⟩ := (Nat.div_mod_unique (a := s.consumed.length) (b := n) (c := s.consumed.length - f * n) (d := f)
    (by omega)).2 ⟨by rw [Nat.mul_comm n f]; omega, by omega⟩
  have hle := h.pref.length_le
  have hf := h.laps.fresh (by omega) hle (Nat.le_of_lt h.room)
  rw [hmod, hdiv, ← current_slot h, ← h.ccs] at hf
  unfold RingSystem.consume
  by_cases hb : (s.current ringPhys).cycleBit = s.ccs
  · have hlt := hf.1 hb
    have hcur : s.current ringPhys = s.enqueued[s.consumed.length] := by
      rw [current_slot h, ← hmod]
      exact h.laps.written _ hlt (Nat.le_of_lt h.room)
    have hty : (s.current ringPhys).trbType ≠ TRB_TYPE_LINK.toNat := by
      rw [hcur, h.normal _ (List.getElem_mem hlt)]
      decide
    rw [if_pos hb, if_neg hty]
    exact .inr ⟨hlt, by rw [hcur]⟩
  · rw [if_neg hb]
    exact .inl ⟨Nat.not_lt.1 fun hlt => hb (hf.2 hlt), rfl⟩

/-- At the Link slot the controller waits, or follows the Link TRB into its next lap. -/
theorem consume_link (h : RingInv ringPhys n s w f) (ha : 16 ∣ ringPhys.toNat) (hs : s.consumed.length = f * n + n) :
    s.consume ringPhys =
      if linkBit w = lapBit f then { s with dequeue := ringPhys.toNat, ccs := !s.ccs } else s := by
  have hcur : s.current ringPhys = linkTrb ringPhys (linkBit w) := by
    rw [current_slot h, hs, Nat.add_sub_cancel_left, h.link]
  have hp : ((linkTrb ringPhys (linkBit w)).parameter &&& ~~~0xF#64).toNat = ringPhys.toNat := by
    refine (and_not_lowMask_toNat ringPhys 4).trans ?_
    exact Nat.div_mul_cancel ha
  unfold RingSystem.consume
  rw [hcur, linkTrb_cycleBit, h.ccs, linkTrb_type, if_pos rfl, hp, linkTrb_toggle, if_pos rfl]

/-- Following the Link TRB starts the next lap. -/
theorem ringInv_follow (h : RingInv ringPhys n s w f) (hs : s.consumed.length = f * n + n) :
    RingInv ringPhys n { s with dequeue := ringPhys.toNat, ccs := !s.ccs } w (f + 1) := by
  have hmul : (f + 1) * n = f * n + n := Nat.succ_mul f n
  refine ⟨h.laps, h.link, h.normal, h.producer, h.index_le, h.cycle, h.idle, ?_, ?_, ?_, ?_, h.pref, h.room⟩
  · rw [hmul]
    exact Nat.le_of_eq hs.symm
  · rw [hmul]
    exact Nat.le_trans (Nat.le_of_eq hs) (Nat.le_add_right _ _)
  · show ringPhys.toNat = ringPhys.toNat + 16 * (s.consumed.length - (f + 1) * n)
    rw [hmul, hs, Nat.sub_self]
    rfl
  · show (!s.ccs) = _
    rw [h.ccs, lapBit_succ]

theorem ringInv_consume (h : RingInv ringPhys n s w f) (ha : 16 ∣ ringPhys.toNat) :
    ∃ f', RingInv ringPhys n (s.consume ringPhys) w f' := by
  -- the controller is at a data slot, or at the Link TRB
  rcases Nat.lt_or_eq_of_le h.consumer_le with hs | hs
  · rcases consume_data h hs with ⟨-, he⟩ | ⟨hlt, he⟩
    · rw [he]
      exact ⟨f, h⟩
    · rw [he]
      have hpos := h.consumer
      refine ⟨f, ⟨h.laps, h.link, h.normal, h.producer, h.index_le, h.cycle, h.idle, ?_, ?_, ?_, h.ccs,
        prefix_next h.pref hlt, ?_⟩⟩
      · show f * n ≤ (s.consumed ++ [_]).length
        rw [List.length_append, List.length_singleton]
        omega
      · show (s.consumed ++ [_]).length ≤ f * n + n
        rw [List.length_append, List.length_singleton]
        omega
      · show s.dequeue + 16 = ringPhys.toNat + 16 * ((s.consumed ++ [_]).length - f * n)
        rw [List.length_append, List.length_singleton, h.dequeue]
        omega
      · show s.enqueued.length < (s.consumed ++ [_]).length + n
        have := h.room
        rw [List.length_append, List.length_singleton]
        omega
  · rw [consume_link h ha hs]
    split
    · exact ⟨f + 1, ringInv_follow h hs⟩
    · exact ⟨f, h⟩

theorem ringInv_step (hn : 2 ≤ n) (ha : 16 ∣ ringPhys.toNat) (h : RingInv ringPhys n s w f)
    (hs : RingStep ringPhys (n + 1) s s') : ∃ w' f', RingInv ringPhys n s' w' f' := by
  cases hs with
  | put bufPhys len hc hroom => exact ⟨w, f, ringInv_put h hc bufPhys len hroom⟩
  | close hc =>
    obtain ⟨w', h'⟩ := ringInv_close h hn
    exact ⟨w', f, h'⟩
  | consume =>
    obtain ⟨f', h'⟩ := ringInv_consume h ha
    exact ⟨w, f', h'⟩

theorem ringInv_run (hn : 2 ≤ n) (ha : 16 ∣ ringPhys.toNat)
    (hr : Relation.ReflTransGen (RingStep ringPhys (n + 1)) (RingSystem.boot ringPhys (n + 1)) s) :
    ∃ w f, RingInv ringPhys n s w f := by
  induction hr with
  | refl => exact ⟨0, 0, ringInv_boot hn⟩
  | tail _ hs ih =>
    obtain ⟨w, f, h⟩ := ih
    exact ringInv_step hn ha h hs

/-! ## Progress of the controller -/

theorem consume_enqueued (ringPhys : BitVec 64) (s : RingSystem) :
    (s.consume ringPhys).enqueued = s.enqueued ∧ (s.consume ringPhys).inCall = s.inCall := by
  unfold RingSystem.consume
  split
  · split <;> exact ⟨rfl, rfl⟩
  · exact ⟨rfl, rfl⟩

/-- Between calls the Link TRB lets the controller on whenever it has more to read. -/
theorem link_handed_over (h : RingInv ringPhys n s w f) (hc : s.inCall = false)
    (hlt : s.consumed.length < s.enqueued.length) (hs : s.consumed.length = f * n + n) : linkBit w = lapBit f := by
  have hi := h.idle hc
  have hroom := h.room
  rw [h.producer] at hlt hroom
  have h1 : f + 1 < w + 1 := Nat.lt_of_mul_lt_mul_right (a := n) (by rw [Nat.succ_mul, Nat.succ_mul]; omega)
  have h2 : w < f + 2 := Nat.lt_of_mul_lt_mul_right (a := n) (by rw [Nat.add_mul]; omega)
  have hw : w = f + 1 := by omega
  rw [hw]
  rfl

/-- Between calls the controller, with more to read, consumes one more TRB in at most two steps. -/
theorem consume_one (ha : 16 ∣ ringPhys.toNat) (hn : 2 ≤ n) (h : RingInv ringPhys n s w f) (hc : s.inCall = false)
    (hlt : s.consumed.length < s.enqueued.length) :
    ∃ k, ((RingSystem.consume ringPhys)^[k] s).consumed.length = s.consumed.length + 1 := by
  rcases Nat.lt_or_eq_of_le h.consumer_le with hs | hs
  · rcases consume_data h hs with ⟨hge, -⟩ | ⟨ht, he⟩
    · exact absurd hlt (Nat.not_lt.2 hge)
    · refine ⟨1, ?_⟩
      rw [Function.iterate_one, he]
      exact List.length_append
  · -- at the Link TRB: one step to follow it, one to consume
    have hstep := consume_link h ha hs
    rw [if_pos (link_handed_over h hc hlt hs)] at hstep
    rcases consume_data (ringInv_follow h hs) (by show s.consumed.length < (f + 1) * n + n; rw [Nat.succ_mul]; omega)
      with ⟨hge, -⟩ | ⟨ht, he⟩
    · exact absurd hlt (Nat.not_lt.2 hge)
    · refine ⟨2, ?_⟩
      show ((s.consume ringPhys).consume ringPhys).consumed.length = _
      rw [hstep, he]
      exact List.length_append

theorem iterate_inv (ha : 16 ∣ ringPhys.toNat) (h : RingInv ringPhys n s w f) (k : Nat) :
    ∃ f', RingInv ringPhys n ((RingSystem.consume ringPhys)^[k] s) w f' ∧
      ((RingSystem.consume ringPhys)^[k] s).enqueued = s.enqueued ∧
      ((RingSystem.consume ringPhys)^[k] s).inCall = s.inCall := by
  induction k with
  | zero => exact ⟨f, h, rfl, rfl⟩
  | succ k ih =>
    obtain ⟨f', h', he, hc⟩ := ih
    obtain ⟨f'', h''⟩ := ringInv_consume h' ha
    rw [Function.iterate_succ_apply']
    exact ⟨f'', h'', ((consume_enqueued _ _).1).trans he, ((consume_enqueued _ _).2).trans hc⟩

/-- Between calls the controller, stepping on, consumes everything enqueued. -/
theorem consume_all (ha : 16 ∣ ringPhys.toNat) (hn : 2 ≤ n) :
    ∀ (d : Nat) {s : RingSystem} {f : Nat}, RingInv ringPhys n s w f → s.inCall = false →
      s.enqueued.length = s.consumed.length + d → ∃ k, ((RingSystem.consume ringPhys)^[k] s).consumed = s.enqueued
  | 0, s, f, h, _, hd => ⟨0, h.pref.eq_of_length (by omega)⟩
  | d + 1, s, f, h, hc, hd => by
    obtain ⟨k, hk⟩ := consume_one ha hn h hc (by omega)
    obtain ⟨f', h', he, hc'⟩ := iterate_inv ha h k
    obtain ⟨k', hk'⟩ := consume_all ha hn d h' (hc'.trans hc) (by rw [he, hk]; omega)
    refine ⟨k' + k, ?_⟩
    rw [Function.iterate_add_apply, hk', he]

end Steps

/-- The transfer ring with its Link TRB, of any size from 3 on: in every reachable state the TRBs
the controller consumed are a prefix of those enqueued, the last slot holds a Link TRB to the ring,
and between calls the controller, stepping on, reaches the end of everything enqueued. -/
theorem transfer_ring_in_order {ringPhys : BitVec 64} {ringSize : Nat} {s : RingSystem} (hn : 3 ≤ ringSize)
    (ha : 64 ∣ ringPhys.toNat)
    (hr : Relation.ReflTransGen (RingStep ringPhys ringSize) (RingSystem.boot ringPhys ringSize) s) :
    s.consumed <+: s.enqueued ∧
    (∃ cycle, s.ring.trbs (ringSize - 1) = linkTrb ringPhys cycle) ∧
    (s.inCall = false → ∃ k, ((RingSystem.consume ringPhys)^[k] s).consumed = s.enqueued) := by
  obtain ⟨n, rfl⟩ : ∃ n, ringSize = n + 1 := ⟨ringSize - 1, by omega⟩
  have ha' : 16 ∣ ringPhys.toNat := Nat.dvd_trans (by decide) ha
  obtain ⟨w, f, h⟩ := ringInv_run (by omega) ha' hr
  refine ⟨h.pref, ⟨linkBit w, h.link⟩, fun hc => ?_⟩
  have hle := h.pref.length_le
  exact consume_all ha' (by omega) (s.enqueued.length - s.consumed.length) h hc (by omega)

theorem consume_run {ringPhys : BitVec 64} {ringSize : Nat} (s : RingSystem) (k : Nat) :
    Relation.ReflTransGen (RingStep ringPhys ringSize) s ((RingSystem.consume ringPhys)^[k] s) := by
  induction k with
  | zero => exact .refl
  | succ k ih =>
    rw [Function.iterate_succ_apply']
    exact ih.tail .consume

/-- The ring takes any number of TRBs, one after the other. -/
theorem reports_run {ringPhys : BitVec 64} {n : Nat} (hn : 2 ≤ n) (ha : 16 ∣ ringPhys.toNat) (bufPhys : BitVec 64)
    (len : BitVec 32) (m : Nat) :
    ∃ s, Relation.ReflTransGen (RingStep ringPhys (n + 1)) (RingSystem.boot ringPhys (n + 1)) s ∧ s.inCall = false ∧
      s.enqueued.length = m ∧ s.consumed = s.enqueued := by
  induction m with
  | zero => exact ⟨_, .refl, rfl, rfl, rfl⟩
  | succ m ih =>
    obtain ⟨s, hr, hc, hm, hall⟩ := ih
    have hput : RingStep ringPhys (n + 1) s _ := .put bufPhys len hc (by rw [hall]; omega)
    have hr' := (hr.tail hput).tail (.close rfl)
    obtain ⟨w, f, h⟩ := ringInv_run hn ha hr'
    have hlength : (s.enqueued ++ [normalTrb bufPhys len s.ring.cycleState]).length = m + 1 := by
      rw [List.length_append, hm]
      rfl
    obtain ⟨k, hk⟩ := consume_all ha hn 1 h rfl
      (by show (s.enqueued ++ [_]).length = s.consumed.length + 1; rw [hlength, hall, hm])
    obtain ⟨-, -, he, hc'⟩ := iterate_inv ha h k
    exact ⟨_, hr'.trans (consume_run _ k), hc', (congrArg List.length he).trans hlength, hk.trans he.symm⟩

/-- `transfer_ring_in_order` on a keyboard's ring of 16 TRBs: the sixteenth report is the first behind the Link TRB,
and the controller gets to it. -/
theorem transfer_ring_in_order_keyboard :
    ∃ s k, Relation.ReflTransGen (RingStep 0x200000#64 16) (RingSystem.boot 0x200000#64 16) s ∧
      s.consumed.length = 15 ∧ s.enqueued.length = 16 ∧
        ((RingSystem.consume 0x200000#64)^[k] s).consumed = s.enqueued := by
  obtain ⟨s, hr, hc, hm, hall⟩ := @reports_run 0x200000#64 15 (by decide) (by decide) 0x300000#64 8#32 15
  have hput : RingStep 0x200000#64 16 s _ := .put 0x300000#64 8#32 hc (by rw [hall, hm]; decide)
  have hr' := (hr.tail hput).tail (.close rfl)
  obtain ⟨-, -, hk⟩ := transfer_ring_in_order (by decide) (by decide) hr'
  obtain ⟨k, hk⟩ := hk rfl
  refine ⟨_, k, hr', (congrArg List.length hall).trans hm, ?_, hk⟩
  show (s.enqueued ++ [_]).length = 16
  rw [List.length_append, hm]
  rfl

end Octagram.Usb

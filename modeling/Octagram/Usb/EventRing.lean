/-
The event ring: `poll_event_ring` against a controller that writes events into the 32 slots of the
segment. Every run consumes the produced events in order, each once (`event_ring_exactly_once`), so
the ring is a queue (`polled_refines_queue`), as which `Kernel` has it. The invariant is `EventInv`:
the segment is a `Laps` ring with both sides at their positions, and ERDP names the next slot to be
read, before which the controller stops.
-/
import Octagram.Usb.Trb
import Octagram.Lib.CycleRing
import Octagram.Lib.Bits
import Mathlib.Logic.Relation

namespace Octagram.Usb

open Octagram.Lib

/-- `EVENT_RING_SIZE`, in TRBs; the ring has no Link TRB. -/
def EVENT_RING_SIZE : Nat := 32

/-- The fields of `XHCI` that `poll_event_ring` reads and writes. -/
structure EventCursor where
  eventRingPhys : BitVec 64
  dequeueIndex : Nat
  cycleState : Bool

/-- The event ring: the segment's TRBs, the ERDP register, the driver's cursor and the atomics. -/
structure EventRing where
  segment : Nat → Trb
  erdp : BitVec 64
  cursor : EventCursor
  globals : Globals

namespace EventRing

/-- `setup_event_ring`, for a segment whose physical address is `segmentPhys`. -/
def setup (segmentPhys : BitVec 64) (g : Globals) : EventRing where
  segment := fun _ => Trb.empty
  erdp := segmentPhys
  cursor := ⟨segmentPhys, 0, true⟩
  globals := g

/-- The cursor after one event. -/
def advance (c : EventCursor) : EventCursor :=
  if c.dequeueIndex + 1 ≥ EVENT_RING_SIZE then
    { c with dequeueIndex := 0, cycleState := !c.cycleState }
  else
    { c with dequeueIndex := c.dequeueIndex + 1 }

/-- `new_erdp | (1 << 3)`. -/
def erdpOf (c : EventCursor) : BitVec 64 := (c.eventRingPhys + BitVec.ofNat 64 (c.dequeueIndex * 16)) ||| 1#64 <<< 3

/-- `poll_event_ring` from the `match` on: act on the event, step the cursor and write ERDP. -/
def accept (r : EventRing) (trb : Trb) : EventRing where
  segment := r.segment
  globals := r.globals.dispatch trb
  cursor := advance r.cursor
  erdp := erdpOf (advance r.cursor)

/-- `poll_event_ring`: the ring it leaves, and the event it acted on. -/
def poll (r : EventRing) : EventRing × Option Trb :=
  if (r.segment r.cursor.dequeueIndex).cycleBit ≠ r.cursor.cycleState then
    (r, none)
  else
    (r.accept (r.segment r.cursor.dequeueIndex), some (r.segment r.cursor.dequeueIndex))

/-- The slot named by the ERDP register: its address bits relative to the segment. -/
def erdpSlot (r : EventRing) : Nat := ((r.erdp &&& ~~~0xF#64) - r.cursor.eventRingPhys).toNat / 16

end EventRing

/-- The event ring with the controller's side: how many events it has produced, and the histories
of the events produced and of those `poll_event_ring` acted on. -/
structure EventSystem where
  ring : EventRing
  enqueueIndex : Nat
  producerCycle : Bool
  produced : List Trb
  consumed : List Trb

/-- The system after a call of `poll_event_ring`. -/
def EventSystem.polled (s : EventSystem) : EventSystem :=
  { s with ring := s.ring.poll.1, consumed := s.consumed ++ s.ring.poll.2.toList }

/-- One step: the controller writes an event with its cycle bit, unless the slot after it is the
one ERDP names; or the driver polls. -/
inductive EventStep : EventSystem → EventSystem → Prop
  | produce {s : EventSystem} (event : Trb) (hc : event.cycleBit = s.producerCycle)
      (hfree : (s.enqueueIndex + 1) % EVENT_RING_SIZE ≠ s.ring.erdpSlot) :
      EventStep s { s with
        ring := { s.ring with segment := Function.update s.ring.segment s.enqueueIndex event }
        enqueueIndex := (s.enqueueIndex + 1) % EVENT_RING_SIZE
        producerCycle := if s.enqueueIndex + 1 = EVENT_RING_SIZE then !s.producerCycle else s.producerCycle
        produced := s.produced ++ [event] }
  | poll {s : EventSystem} : EventStep s s.polled

/-- The state `setup_event_ring` leaves. -/
def EventSystem.boot (segmentPhys : BitVec 64) (g : Globals) : EventSystem :=
  ⟨EventRing.setup segmentPhys g, 0, true, [], []⟩

/-- The ring invariant after `produced` and `consumed` events: the cells hold the last events with
their lap's bit, both sides stand at their positions, and ERDP names the next unread slot. -/
structure EventInv (segmentPhys : BitVec 64) (s : EventSystem) : Prop where
  laps : Laps Trb.cycleBit EVENT_RING_SIZE s.ring.segment s.produced
  producer : At EVENT_RING_SIZE s.produced.length s.enqueueIndex s.producerCycle
  consumer : At EVENT_RING_SIZE s.consumed.length s.ring.cursor.dequeueIndex s.ring.cursor.cycleState
  pref : s.consumed <+: s.produced
  room : s.produced.length < s.consumed.length + EVENT_RING_SIZE
  phys : s.ring.cursor.eventRingPhys = segmentPhys
  erdp : s.ring.erdp &&& ~~~0xF#64 = segmentPhys + BitVec.ofNat 64 (s.ring.cursor.dequeueIndex * 16)

/-! ## ERDP -/

/-- Setting EHB leaves the address of a slot. -/
theorem erdp_address {phys : BitVec 64} (ha : 64 ∣ phys.toNat) (i : Nat) :
    ((phys + BitVec.ofNat 64 (i * 16)) ||| 1#64 <<< 3) &&& ~~~0xF#64 = phys + BitVec.ofNat 64 (i * 16) := by
  have hx : (phys + BitVec.ofNat 64 (i * 16)) &&& ~~~0xF#64 = phys + BitVec.ofNat 64 (i * 16) := by
    apply BitVec.eq_of_toNat_eq
    have h := and_not_lowMask_toNat (phys + BitVec.ofNat 64 (i * 16)) 4
    rw [BitVec.toNat_add, BitVec.toNat_ofNat] at h ⊢
    refine h.trans ?_
    omega
  rw [BitVec.and_or_distrib_right, hx]
  have : 1#64 <<< 3 &&& ~~~0xF#64 = 0#64 := by decide
  rw [this, BitVec.or_zero]

theorem erdpSlot_eq {r : EventRing} {phys : BitVec 64} {i : Nat} (hp : r.cursor.eventRingPhys = phys)
    (he : r.erdp &&& ~~~0xF#64 = phys + BitVec.ofNat 64 (i * 16)) (hi : i < EVENT_RING_SIZE) : r.erdpSlot = i := by
  unfold EVENT_RING_SIZE at hi
  unfold EventRing.erdpSlot
  rw [he, hp, BitVec.add_comm, BitVec.add_sub_cancel, BitVec.toNat_ofNat]
  omega

/-! ## One step -/

theorem ring_pos : 0 < EVENT_RING_SIZE := by decide

theorem advance_at {c : EventCursor} {k : Nat} (h : At EVENT_RING_SIZE k c.dequeueIndex c.cycleState) :
    At EVENT_RING_SIZE (k + 1) (EventRing.advance c).dequeueIndex (EventRing.advance c).cycleState := by
  unfold EventRing.advance
  split
  · rename_i hw
    exact h.wrap ring_pos hw
  · rename_i hw
    exact h.next ring_pos (Nat.not_le.1 hw)

theorem advance_phys (c : EventCursor) : (EventRing.advance c).eventRingPhys = c.eventRingPhys := by
  unfold EventRing.advance; split <;> rfl

theorem empty_cycleBit : Trb.empty.cycleBit = false := by decide

theorem eventInv_boot {phys : BitVec 64} (ha : 64 ∣ phys.toNat) (g : Globals) :
    EventInv phys (EventSystem.boot phys g) := by
  refine ⟨Laps.empty fun _ _ => empty_cycleBit, At.start, At.start, List.nil_prefix, ring_pos, rfl, ?_⟩
  have := erdp_address ha 0
  rw [BitVec.and_or_distrib_right] at this
  have h0 : 1#64 <<< 3 &&& ~~~0xF#64 = 0#64 := by decide
  rw [h0, BitVec.or_zero, Nat.zero_mul, BitVec.add_zero] at this
  rw [show (EventSystem.boot phys g).ring.cursor.dequeueIndex = 0 from rfl, Nat.zero_mul, BitVec.add_zero]
  exact this

section Step

variable {phys : BitVec 64} {s s' : EventSystem}

/-- What a poll finds: the oldest event not yet acted on, if there is one. -/
theorem poll_event (h : EventInv phys s) : s.ring.poll.2 = s.produced[s.consumed.length]? := by
  have hle := h.pref.length_le
  have hf := h.laps.fresh ring_pos hle (Nat.le_of_lt h.room)
  rw [← h.consumer.index, ← h.consumer.cycle] at hf
  unfold EventRing.poll
  by_cases hc : (s.ring.segment s.ring.cursor.dequeueIndex).cycleBit = s.ring.cursor.cycleState
  · have hlt := hf.1 hc
    rw [if_neg (not_not.2 hc), List.getElem?_eq_getElem hlt, h.consumer.index,
      h.laps.written _ hlt (Nat.le_of_lt h.room)]
  · have hge : s.produced.length ≤ s.consumed.length := Nat.not_lt.1 fun hlt => hc (hf.2 hlt)
    rw [if_pos hc, List.getElem?_eq_none hge]

theorem poll_none (h : s.ring.poll.2 = none) : s.ring.poll.1 = s.ring := by
  unfold EventRing.poll at *
  split at h
  · rename_i hc
    rw [if_pos hc]
  · cases h

theorem poll_some {e : Trb} (h : s.ring.poll.2 = some e) : s.ring.poll.1 = s.ring.accept e := by
  unfold EventRing.poll at *
  split at h
  · cases h
  · rename_i hc
    rw [if_neg hc, Option.some.inj h]

theorem eventInv_poll (ha : 64 ∣ phys.toNat) (h : EventInv phys s) :
    EventInv phys s.polled := by
  unfold EventSystem.polled
  cases hp : s.ring.poll.2 with
  | none =>
    rw [poll_none hp, Option.toList_none, List.append_nil]
    exact h
  | some e =>
    have hget := poll_event h
    rw [hp] at hget
    obtain ⟨hlt, he⟩ := List.getElem?_eq_some_iff.1 hget.symm
    rw [poll_some hp, Option.toList_some]
    -- only the consumer's position, the history and ERDP move on
    refine ⟨h.laps, h.producer, ?_, ?_, ?_, ?_, ?_⟩
    · rw [List.length_append, List.length_singleton]
      exact advance_at h.consumer
    · rw [← he]
      exact prefix_next h.pref hlt
    · show s.produced.length < (s.consumed ++ [e]).length + EVENT_RING_SIZE
      have := h.room
      rw [List.length_append, List.length_singleton]
      omega
    · exact (advance_phys _).trans h.phys
    · show (EventRing.erdpOf _) &&& _ = _
      unfold EventRing.erdpOf
      rw [advance_phys, h.phys]
      exact erdp_address ha _

theorem eventInv_step (ha : 64 ∣ phys.toNat) (h : EventInv phys s) (hs : EventStep s s') : EventInv phys s' := by
  cases hs with
  | poll => exact eventInv_poll ha h
  | produce event hc hfree =>
    rw [erdpSlot_eq h.phys h.erdp (h.consumer.lt ring_pos), h.consumer.index] at hfree
    have hle := h.pref.length_le
    have hroom := h.room
    have hlt := h.producer.lt ring_pos
    rw [h.producer.index] at hfree
    refine ⟨?_, ?_, h.consumer, h.pref.trans (List.prefix_append _ _), ?_, h.phys, h.erdp⟩
    · rw [h.producer.index]
      exact h.laps.write (by rw [hc, h.producer.cycle])
    · rw [List.length_append, List.length_singleton]
      by_cases hw : s.enqueueIndex + 1 = EVENT_RING_SIZE
      · rw [if_pos hw, hw, Nat.mod_self]
        exact h.producer.wrap ring_pos (Nat.le_of_eq hw.symm)
      · rw [if_neg hw, Nat.mod_eq_of_lt (by omega)]
        exact h.producer.next ring_pos (by omega)
    · show (s.produced ++ [event]).length < s.consumed.length + EVENT_RING_SIZE
      rw [List.length_append, List.length_singleton]
      unfold EVENT_RING_SIZE at *
      omega

theorem eventInv_run (ha : 64 ∣ phys.toNat) {g : Globals}
    (hr : Relation.ReflTransGen EventStep (EventSystem.boot phys g) s) : EventInv phys s := by
  induction hr with
  | refl => exact eventInv_boot ha g
  | tail _ hs ih => exact eventInv_step ha ih hs

end Step

/-! ## The ring as a queue -/

/-- `poll_event_ring` on a queue of events, oldest first: act on the first, if there is one. -/
def pollQueue {ε : Type} (trb : ε → Trb) (events : List ε) (g : Globals) : List ε × Globals :=
  match events with
  | [] => ([], g)
  | e :: rest => (rest, g.dispatch (trb e))

namespace EventSystem

/-- The events produced and not yet acted on. -/
def unread (s : EventSystem) : List Trb := s.produced.drop s.consumed.length

/-- Polling the ring is polling the queue of unread events. -/
theorem polled_refines_queue {phys : BitVec 64} {s : EventSystem} (h : EventInv phys s) :
    (s.polled.unread, s.polled.ring.globals) = pollQueue id s.unread s.ring.globals := by
  have he := poll_event h
  unfold polled unread
  cases hp : s.ring.poll.2 with
  | none =>
    rw [hp, eq_comm, List.getElem?_eq_none_iff] at he
    rw [poll_none hp, Option.toList_none, List.append_nil, List.drop_eq_nil_of_le he]
    rfl
  | some e =>
    rw [hp] at he
    obtain ⟨hlt, hget⟩ := List.getElem?_eq_some_iff.1 he.symm
    rw [poll_some hp, Option.toList_some, List.length_append, List.length_singleton,
      List.drop_eq_getElem_cons hlt, hget]
    rfl

end EventSystem

/-- Event consumption is exactly-once and in order: in every reachable state the events acted on are
a prefix of the events produced; the next poll acts on the next one of them, or finds none and
changes nothing; the index stays in the segment, and after an event ERDP, written with EHB set,
names the next unread slot. -/
theorem event_ring_exactly_once {phys : BitVec 64} (ha : 64 ∣ phys.toNat) {g : Globals} {s : EventSystem}
    (hr : Relation.ReflTransGen EventStep (EventSystem.boot phys g) s) :
    s.consumed <+: s.produced ∧
    s.ring.poll.2 = s.produced[s.consumed.length]? ∧
    (s.ring.poll.2 = none → s.ring.poll.1 = s.ring) ∧
    s.ring.cursor.dequeueIndex < EVENT_RING_SIZE ∧
    (∀ e, s.ring.poll.2 = some e →
      s.ring.poll.1.globals = s.ring.globals.dispatch e ∧
      s.ring.poll.1.erdp = (phys + BitVec.ofNat 64 ((s.consumed.length + 1) % EVENT_RING_SIZE * 16)) ||| 1#64 <<< 3 ∧
      s.ring.poll.1.erdp &&& ~~~0xF#64 = phys + BitVec.ofNat 64 ((s.consumed.length + 1) % EVENT_RING_SIZE * 16)) := by
  have h := eventInv_run ha hr
  refine ⟨h.pref, poll_event h, poll_none, h.consumer.lt ring_pos, fun e he => ?_⟩
  have hindex := (advance_at h.consumer).index
  have herdp : s.ring.poll.1.erdp =
      (phys + BitVec.ofNat 64 ((s.consumed.length + 1) % EVENT_RING_SIZE * 16)) ||| 1#64 <<< 3 := by
    rw [poll_some he, ← hindex, ← h.phys, ← advance_phys]
    rfl
  refine ⟨congrArg EventRing.globals (poll_some he), herdp, ?_⟩
  rw [herdp]
  exact erdp_address ha _

/-- A Port Status Change Event for port 1, with its cycle bit. -/
def portChangeEvent (cycle : Bool) : Trb := ⟨0x1000000, 0, if cycle then 0x8801 else 0x8800⟩

theorem portChangeEvent_cycleBit (cycle : Bool) : (portChangeEvent cycle).cycleBit = cycle := by
  cases cycle <;> decide

theorem portChangeEvent_pending (cycle : Bool) (g : Globals) :
    (g.dispatch (portChangeEvent cycle)).flag .portChangePending = true := by
  have htype : (portChangeEvent cycle).trbType = 34 := by cases cycle <;> decide
  unfold Globals.dispatch
  rw [htype]
  rfl

/-- When everything was acted on, the controller may write the next event. -/
theorem free_of_drained {phys : BitVec 64} {s : EventSystem} (h : EventInv phys s) (hall : s.consumed = s.produced) :
    (s.enqueueIndex + 1) % EVENT_RING_SIZE ≠ s.ring.erdpSlot := by
  rw [erdpSlot_eq h.phys h.erdp (h.consumer.lt ring_pos), h.consumer.index, hall, ← h.producer.index]
  have hlt := h.producer.lt ring_pos
  unfold EVENT_RING_SIZE at *
  omega

/-- Any number of port changes can be reported, each polled at once. -/
theorem portChanges_run {phys : BitVec 64} (ha : 64 ∣ phys.toNat) (g : Globals) (n : Nat) :
    ∃ s, Relation.ReflTransGen EventStep (EventSystem.boot phys g) s ∧ s.produced.length = n ∧
      s.consumed = s.produced := by
  induction n with
  | zero => exact ⟨_, .refl, rfl, rfl⟩
  | succ n ih =>
    obtain ⟨s, hr, hn, hall⟩ := ih
    have h := eventInv_run ha hr
    have hstep := EventStep.produce (portChangeEvent s.producerCycle) (portChangeEvent_cycleBit _)
      (free_of_drained h hall)
    have hr' := hr.tail hstep
    have hlength : (s.produced ++ [portChangeEvent s.producerCycle]).length = n + 1 := by
      rw [List.length_append, hn]
      rfl
    refine ⟨_, hr'.tail .poll, hlength, ?_⟩
    have hpoll := poll_event (eventInv_run ha hr')
    show s.consumed ++ (EventRing.poll _).2.toList = s.produced ++ [_]
    rw [hpoll, hall, List.getElem?_concat_length]
    rfl

/-- `event_ring_exactly_once` after 32 events: the next one is written over the first, with the other cycle bit, and
the next poll acts on it. -/
theorem event_ring_exactly_once_wrapped :
    ∃ s, Relation.ReflTransGen EventStep (EventSystem.boot 0x100000#64 Globals.new) s ∧ s.consumed.length = 32 ∧
      s.ring.poll.2 = some (portChangeEvent false) ∧ s.ring.poll.1.globals.flag .portChangePending = true ∧
      s.ring.poll.1.erdp = 0x100018#64 := by
  obtain ⟨s, hr, hn, hall⟩ := @portChanges_run 0x100000#64 (by decide) Globals.new 32
  have h := eventInv_run (by decide) hr
  have hcycle : s.producerCycle = false := by
    rw [h.producer.cycle, hn]
    decide
  have hstep := EventStep.produce (portChangeEvent false) ((portChangeEvent_cycleBit _).trans hcycle.symm)
    (free_of_drained h hall)
  obtain ⟨-, hp, -, -, he⟩ := event_ring_exactly_once (by decide) (hr.tail hstep)
  have hconsumed : s.consumed.length = 32 := (congrArg List.length hall).trans hn
  have hp' := hp.trans (show (s.produced ++ [portChangeEvent false])[s.consumed.length]? =
    some (portChangeEvent false) by
    rw [hall, List.getElem?_concat_length])
  obtain ⟨hglobals, herdp, -⟩ := he _ hp'
  refine ⟨_, hr.tail hstep, hconsumed, hp', ?_, ?_⟩
  · rw [hglobals]
    exact portChangeEvent_pending _ _
  · refine herdp.trans ?_
    show (0x100000#64 + BitVec.ofNat 64 ((s.consumed.length + 1) % EVENT_RING_SIZE * 16)) ||| 1#64 <<< 3 = _
    rw [hconsumed]
    decide

end Octagram.Usb

/-
The report TRBs a driver has with the controller: queued and not completed, or completed with the
Transfer Event unread. What the controller, the handler and the main context do to their number: it
is one from the first TRB on (`Tallied`), where the driver's ring is the only one of its endpoint
that has a transfer left (`SoleRing`). There is one lemma for each kind of step, which `Routing`
puts together.
-/
import Octagram.Usb.Reports

namespace Octagram.Usb

open Octagram.Lib

/-! ## Definitions -/

/-- The Transfer Events of the driver's endpoint. -/
def DriverState.reported (st : DriverState) (e : Event) : Bool :=
  e.trb.trbType = 32 ∧ e.trb.slotId = st.slotId ∧ e.trb.endpointId = st.dci

namespace Controller

/-- The transfers that a step drops: those on the rings of a slot it disables. -/
def drops (hw hw' : Controller) : List Nat :=
  hw.incomplete.filter fun id => (hw.transfers[id]?).any fun ring =>
    hw.enabled (hw.endpoint ring).1 && !hw'.enabled (hw.endpoint ring).1

/-- The Normal TRBs of the driver that are with the controller, and its unread Transfer Events. -/
def outstanding (hw : Controller) (dropped : List Nat) (st : DriverState) : Nat :=
  hw.incomplete.countP (fun id => hw.transfers[id]? = some st.ringPhys ∧ id ∉ dropped) + hw.events.countP st.reported

/-- `poll_event_ring` moved past the next event. -/
def read (hw : Controller) : Controller :=
  { hw with events := hw.events.tail, consumed := hw.consumed ++ hw.events.take 1 }

end Controller

/-- The transfers that are not completed and the dropped ones are transfers that were queued, once each. -/
structure Numbered (hw : Controller) (dropped : List Nat) : Prop where
  nodup : hw.incomplete.Nodup
  queued : ∀ id ∈ hw.incomplete, id < hw.transfers.length
  dropped : ∀ id ∈ dropped, id < hw.transfers.length

/-- The driver's ring belongs to its endpoint, and no other ring of the endpoint has a transfer left. -/
structure SoleRing (hw : Controller) (dropped : List Nat) (st : DriverState) : Prop where
  own : hw.endpoint st.ringPhys = (st.slotId, st.dci)
  sole : ∀ id ∈ hw.incomplete, id ∉ dropped → ∀ ring, hw.transfers[id]? = some ring →
    hw.endpoint ring = (st.slotId, st.dci) →
    ring = st.ringPhys

/-- Besides, one TRB is outstanding, if any was ever put on the ring. -/
structure Tallied (hw : Controller) (dropped : List Nat) (st : DriverState) : Prop extends SoleRing hw dropped st where
  count : hw.outstanding dropped st = if st.ringPhys ∈ hw.transfers then 1 else 0

section Steps

variable {hw : Controller} {dropped : List Nat} {st : DriverState} {e : Event} {t : Trb} {id ring : Nat}

theorem reported_iff :
    st.reported e = true ↔ e.trb.trbType = 32 ∧ e.trb.slotId = st.slotId ∧ e.trb.endpointId = st.dci :=
  decide_eq_true_iff

theorem Tallied.armed (h : Tallied hw dropped st) (hr : st.ringPhys ∈ hw.transfers) : hw.outstanding dropped st = 1 :=
  h.count.trans (if_pos hr)

/-- An unread Transfer Event is one of a ring that was used. -/
theorem Tallied.of_reported (h : Tallied hw dropped st) (he : e ∈ hw.events) (hr : st.reported e = true) :
    st.ringPhys ∈ hw.transfers := by
  by_contra hn
  have hpos : 0 < hw.events.countP st.reported := List.countP_pos_iff.2 ⟨e, he, hr⟩
  have hzero := h.count.trans (if_neg hn)
  unfold Controller.outstanding at hzero
  omega

/-! ## Events -/

/-- Events of other endpoints are posted, of which the driver takes none for its reports. -/
theorem outstanding_post (events : List Event) (h : ∀ e ∈ events, st.reported e = false) :
    Controller.outstanding { hw with events := hw.events ++ events } dropped st = hw.outstanding dropped st := by
  have hzero : events.countP st.reported = 0 := List.countP_eq_zero.2 fun e he => by rw [h e he]; nofun
  unfold Controller.outstanding
  rw [List.countP_append, hzero]
  rfl

theorem reported_other (h : e.trb.trbType ≠ 32) : st.reported e = false := by
  rw [← Bool.not_eq_true, reported_iff]
  exact fun hr => h hr.1

theorem outstanding_read (hw : Controller) (dropped : List Nat) (st : DriverState) :
    hw.read.outstanding dropped st + (if hw.events.head?.any st.reported then 1 else 0) =
      hw.outstanding dropped st := by
  unfold Controller.outstanding Controller.read
  cases hw.events with
  | nil => rfl
  | cons e rest =>
    rw [List.countP_cons]
    exact Nat.add_assoc _ _ _

theorem Numbered.read (h : Numbered hw dropped) : Numbered hw.read dropped := ⟨h.nodup, h.queued, h.dropped⟩

theorem SoleRing.read (h : SoleRing hw dropped st) : SoleRing hw.read dropped st := ⟨h.own, h.sole⟩

/-- The next event, if there is one, is not a report of the driver. -/
theorem Tallied.read (h : Tallied hw dropped st) (hne : hw.events.head?.any st.reported = false) :
    Tallied hw.read dropped st := by
  refine ⟨h.toSoleRing.read, Eq.trans ?_ h.count⟩
  have hread := outstanding_read hw dropped st
  rw [hne] at hread
  exact hread

/-! ## The TRB that is queued -/

theorem pollEventRing_hw (s : Kernel) : s.pollEventRing.hw = s.hw.read := by
  unfold Kernel.pollEventRing Controller.read pollQueue
  cases s.hw.events <;> rfl

theorem reportTrb_ioc (cycle : Bool) (bufPhys : Nat) : (Kernel.reportTrb cycle bufPhys).control.getLsbD 5 = true := by
  show ((TRB_TYPE_NORMAL <<< 10) ||| (1#32 <<< 5) ||| bitOf cycle).getLsbD 5 = true
  cases cycle <;> decide

theorem enqueueReport_hw {s : Kernel} (h : s.driver k = some st) :
    (s.enqueueReport k).hw = Kernel.queued s.hw st.ringPhys (Kernel.reportTrb st.cycleState st.reportBufPhys) := by
  obtain ⟨_, _, -, he⟩ := enqueueReport_eq h
  rw [he]

theorem queued_endpoint (hw : Controller) (ring : Nat) (t : Trb) :
    (Kernel.queued hw ring t).endpoint = hw.endpoint := by
  obtain ⟨ts, is, h⟩ := queued_frame hw ring t
  rw [h]

theorem queued_ioc (h : t.control.getLsbD 5 = true) : Kernel.queued hw ring t =
    { hw with transfers := hw.transfers ++ [ring], incomplete := hw.incomplete ++ [hw.transfers.length] } :=
  if_pos h

theorem mem_queued {ring' : Nat} (h : ring' ≠ ring) (t : Trb) :
    ring' ∈ (Kernel.queued hw ring t).transfers ↔ ring' ∈ hw.transfers := by
  unfold Kernel.queued
  split
  · rw [List.mem_append, List.mem_singleton]
    exact ⟨fun hm => hm.resolve_right h, .inl⟩
  · exact Iff.rfl

theorem Numbered.queue (h : Numbered hw dropped) (ring : Nat) (t : Trb) :
    Numbered (Kernel.queued hw ring t) dropped := by
  unfold Kernel.queued
  split
  · refine ⟨?_, fun id hid => ?_, fun id hid => ?_⟩
    · rw [List.nodup_append]
      refine ⟨h.nodup, List.nodup_singleton _, fun a ha b hb => ?_⟩
      rw [List.mem_singleton.1 hb]
      exact Nat.ne_of_lt (h.queued a ha)
    · show id < (hw.transfers ++ [ring]).length
      rw [List.length_append]
      rcases List.mem_append.1 hid with hid | hid
      · exact Nat.lt_of_lt_of_le (h.queued id hid) (Nat.le_add_right _ _)
      · rw [List.mem_singleton.1 hid]
        exact Nat.lt_succ_self _
    · show id < (hw.transfers ++ [ring]).length
      rw [List.length_append]
      exact Nat.lt_of_lt_of_le (h.dropped id hid) (Nat.le_add_right _ _)
  · exact h

theorem outstanding_queue (h : Numbered hw dropped) (hioc : t.control.getLsbD 5 = true) :
    (Kernel.queued hw ring t).outstanding dropped st = hw.outstanding dropped st + if ring = st.ringPhys then
      1 else 0 := by
  have hold : hw.incomplete.countP (fun id => (hw.transfers ++ [ring])[id]? = some st.ringPhys ∧ id ∉ dropped) =
      hw.incomplete.countP (fun id => hw.transfers[id]? = some st.ringPhys ∧ id ∉ dropped) := by
    refine List.countP_congr fun id hid => ?_
    rw [List.getElem?_append_left (h.queued id hid)]
  have hnew : [hw.transfers.length].countP (fun id => (hw.transfers ++ [ring])[id]? = some st.ringPhys ∧ id ∉ dropped) =
      if ring = st.ringPhys then 1 else 0 := by
    have hnot : hw.transfers.length ∉ dropped := fun hd => Nat.lt_irrefl _ (h.dropped _ hd)
    rw [List.countP_singleton, List.getElem?_concat_length]
    simp only [Option.some.injEq, hnot, not_false_eq_true, and_true, decide_eq_true_eq]
  rw [queued_ioc hioc]
  unfold Controller.outstanding
  dsimp only
  rw [List.countP_append, hold, hnew]
  omega

/-- A TRB was put on a ring of another endpoint, or on the driver's own. -/
theorem SoleRing.queue (h : SoleRing hw dropped st) (hn : Numbered hw dropped) (t : Trb)
    (hr : hw.endpoint ring ≠ (st.slotId, st.dci) ∨ ring = st.ringPhys) :
    SoleRing (Kernel.queued hw ring t) dropped st := by
  unfold Kernel.queued
  split
  · refine ⟨h.own, fun id hid hd ring' hring' hep => ?_⟩
    rcases List.mem_append.1 hid with hid | hid
    · refine h.sole id hid hd ring' ?_ hep
      rw [← hring']
      exact (List.getElem?_append_left (hn.queued id hid)).symm
    · rw [List.mem_singleton.1 hid] at hring'
      obtain rfl : ring = ring' := Option.some.inj ((List.getElem?_concat_length ..).symm.trans hring')
      exact hr.resolve_left fun hne => hne hep
  · exact h

theorem Tallied.queue (h : Tallied hw dropped st) (hn : Numbered hw dropped) (t : Trb)
    (hr : hw.endpoint ring ≠ (st.slotId, st.dci)) : Tallied (Kernel.queued hw ring t) dropped st := by
  have hne : ring ≠ st.ringPhys := by
    rintro rfl
    exact hr h.own
  refine ⟨h.toSoleRing.queue hn t (.inl hr), ?_⟩
  by_cases hioc : t.control.getLsbD 5 = true
  · rw [outstanding_queue hn hioc, if_neg hne, h.count]
    exact if_congr (mem_queued hne.symm t).symm rfl rfl
  · rw [show Kernel.queued hw ring t = hw from if_neg hioc]
    exact h.count

/-- The driver's next TRB, once there is none. -/
theorem SoleRing.arm (h : SoleRing hw dropped st) (hn : Numbered hw dropped) (hioc : t.control.getLsbD 5 = true)
    (hzero : hw.outstanding dropped st = 0) : Tallied (Kernel.queued hw st.ringPhys t) dropped st := by
  refine ⟨h.queue hn t (.inr rfl), ?_⟩
  rw [outstanding_queue hn hioc, hzero, queued_ioc hioc, if_pos rfl,
    if_pos (List.mem_append_right _ (List.mem_singleton.2 rfl))]

/-- The handler takes a report of the driver and puts the next TRB on its ring. -/
theorem Tallied.rearm (h : Tallied hw dropped st) (hn : Numbered hw dropped) (hioc : t.control.getLsbD 5 = true)
    (he : e ∈ hw.events.head?) (hr : st.reported e = true) :
    Tallied (Kernel.queued hw.read st.ringPhys t) dropped st := by
  have hone : hw.outstanding dropped st = 1 := h.armed (h.of_reported (List.mem_of_mem_head? he) hr)
  refine h.toSoleRing.read.arm hn.read hioc ?_
  rw [← outstanding_read hw dropped st, he, Option.any_some, hr] at hone
  exact Nat.succ.inj hone

/-! ## The controller -/

theorem countP_filter_ne {l : List Nat} (hl : l.Nodup) (hid : id ∈ l) (p : Nat → Bool) :
    (l.filter (· ≠ id)).countP p + (if p id then 1 else 0) = l.countP p := by
  have he : l.filter (· ≠ id) = l.erase id := by
    rw [hl.erase_eq_filter]
    exact List.filter_congr fun a _ => by simp only [ne_eq, decide_not, bne, beq_eq_decide]
  rw [he, (List.perm_cons_erase hid).countP_eq p, List.countP_cons]

theorem Numbered.complete (h : Numbered hw dropped) (id : Nat) (t : Trb) : Numbered (hw.complete id t) dropped :=
  ⟨h.nodup.filter _, fun _ ha => h.queued _ (List.mem_filter.1 ha).1, h.dropped⟩

/-- The controller completes a transfer: the TRB gives way to its Transfer Event. -/
theorem Tallied.complete (h : Tallied hw dropped st) (hn : Numbered hw dropped) (ht : t.trbType = 32)
    (hid : id ∈ hw.incomplete) (hd : id ∉ dropped) (hring : hw.transfers[id]? = some ring)
    (hep : (t.slotId, t.endpointId) = hw.endpoint ring) : Tallied (hw.complete id t) dropped st := by
  refine ⟨⟨h.own, fun a ha => h.sole a (List.mem_filter.1 ha).1⟩, Eq.trans ?_ h.count⟩
  have hreported : st.reported ⟨t, .transfer id⟩ = true ↔ ring = st.ringPhys := by
    rw [reported_iff]
    constructor
    · rintro ⟨-, hs, hc⟩
      exact h.sole id hid hd ring hring (hep.symm.trans (Prod.ext hs hc))
    · rintro rfl
      obtain ⟨hs, hc⟩ := Prod.mk.inj (hep.trans h.own)
      exact ⟨ht, hs, hc⟩
  have hcount := countP_filter_ne hn.nodup hid fun id => hw.transfers[id]? = some st.ringPhys ∧ id ∉ dropped
  simp only [hring, hd, Option.some.injEq, not_false_eq_true, and_true, decide_eq_true_eq] at hcount
  unfold Controller.outstanding Controller.complete
  dsimp only
  rw [List.countP_append, List.countP_singleton, if_congr hreported rfl rfl]
  omega

/-- Events of ports and commands. -/
theorem Tallied.post (h : Tallied hw dropped st) (events : List Event) (hne : ∀ e ∈ events, e.trb.trbType ≠ 32) :
    Tallied { hw with events := hw.events ++ events } dropped st :=
  ⟨⟨h.own, h.sole⟩, (outstanding_post events fun e he => reported_other (hne e he)).trans h.count⟩

theorem drops_enabled {hw hw' : Controller} (h : hw'.enabled = hw.enabled) : hw.drops hw' = [] := by
  unfold Controller.drops
  rw [h]
  refine List.filter_eq_nil_iff.2 fun id _ => ?_
  simp only [Bool.and_not_self, Option.any_false, Bool.false_eq_true, not_false_eq_true]

theorem Numbered.drop (h : Numbered hw dropped) (hw' : Controller) : Numbered hw (hw.drops hw' ++ dropped) := by
  refine ⟨h.nodup, h.queued, fun id hid => ?_⟩
  rcases List.mem_append.1 hid with hid | hid
  · exact h.queued id (List.mem_filter.1 hid).1
  · exact h.dropped id hid

/-- Another slot is disabled. -/
theorem Tallied.drop (h : Tallied hw dropped st) {hw' : Controller}
    (hs : (hw.enabled st.slotId && !hw'.enabled st.slotId) = false) : Tallied hw (hw.drops hw' ++ dropped) st := by
  refine ⟨⟨h.own, fun id hid hd => h.sole id hid fun hm => hd (List.mem_append_right _ hm)⟩, Eq.trans ?_ h.count⟩
  refine congrArg (· + _) (List.countP_congr fun id _ => ?_)
  have hkeep : hw.transfers[id]? = some st.ringPhys → id ∉ hw.drops hw' := by
    intro hring hm
    have hany := (List.mem_filter.1 hm).2
    rw [hring, Option.any_some, h.own, hs] at hany
    cases hany
  simp only [decide_eq_true_eq, List.mem_append, not_or]
  exact ⟨fun hm => ⟨hm.1, hm.2.2⟩, fun hm => ⟨hm.1, hkeep hm.1, hm.2⟩⟩

/-- What the TRBs are accounted by, and no ring comes to belong to the endpoint. -/
theorem Tallied.congr {hw' : Controller} (h : Tallied hw dropped st) (hi : hw'.incomplete = hw.incomplete)
    (ht : hw'.transfers = hw.transfers) (he : hw'.events = hw.events)
    (hown : hw'.endpoint st.ringPhys = (st.slotId, st.dci))
    (hep : ∀ ring, hw'.endpoint ring = (st.slotId, st.dci) → hw.endpoint ring = (st.slotId, st.dci)) :
    Tallied hw' dropped st := by
  refine ⟨⟨hown, fun id hid hd ring hring hr => ?_⟩, ?_⟩
  · rw [hi] at hid
    rw [ht] at hring
    exact h.sole id hid hd ring hring (hep ring hr)
  · unfold Controller.outstanding
    rw [hi, ht, he]
    exact h.count

theorem Numbered.congr {hw' : Controller} (h : Numbered hw dropped) (hi : hw'.incomplete = hw.incomplete)
    (ht : hw'.transfers = hw.transfers) : Numbered hw' dropped := by
  constructor
  · rw [hi]
    exact h.nodup
  · rw [hi, ht]
    exact h.queued
  · rw [ht]
    exact h.dropped

end Steps

end Octagram.Usb

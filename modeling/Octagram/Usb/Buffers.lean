/-
The report buffers on the heap and the TRBs that point to them: a buffer is only given back when no TRB
of it is left to the controller (`buffers_outlive_trbs`), if `shutdown_*` runs after the slot was disabled
or after the reports of the driver were answered. The invariant is `Backed`: the buffers of the drivers and
of the outstanding TRBs are allocated, and the TRBs that point to a driver's buffer are those it queued since
its slot was last disabled and whose Transfer Events are unread (`Recorded`). So nothing is outstanding at
such a `shutdown_*`, and at any other one something is (`quiesced_iff`).
-/
import Octagram.Usb.Outstanding
import Octagram.Usb.Schedule

namespace Octagram.Usb

open Octagram.Lib

/-! ## Definitions -/

/-- A Normal TRB of a report: the number of its transfer, the slot and the buffer. -/
structure ReportTrb where
  id : Nat
  slot : Nat
  buffer : Nat
  deriving DecidableEq

/-- What the state does not hold: the blocks that are allocated; the slots that were disabled since they
were last enabled; the reports queued for the state of a driver since its slot was last disabled; and the report
TRBs queued for other slots whose Transfer Event was not consumed. -/
structure Dma where
  allocated : List Nat
  disabled : Nat → Bool
  armed : DeviceKind → List Nat
  outstanding : List ReportTrb

/-- The Transfer Event of this transfer. -/
def Event.completes (e : Event) (id : Nat) : Bool := e.trb.trbType = 32 ∧ e.origin = .transfer id

/-- `poll_event_ring` has taken the Transfer Event of this transfer. -/
def Kernel.Consumed (s : Kernel) (id : Nat) : Prop := ∃ e ∈ s.hw.consumed, e.completes id = true

namespace Dma

/-- Nothing was allocated, disabled or queued. -/
def new : Dma := ⟨[], fun _ => false, fun _ => [], []⟩

/-- What an operation changes. -/
def note (o : Op) (s : Kernel) (g : Dma) : Dma :=
  match o with
  | .boxNew _ => { g with allocated := s.boxes s.boxCount :: g.allocated }
  | .boxFree addr => { g with allocated := g.allocated.filter (· ≠ addr) }
  | .newDriver k _ => { g with armed := Function.update g.armed k [] }
  | .enqueueReport k =>
    match s.driver k with
    | none => g
    | some st =>
      if g.disabled st.slotId then g
      else { g with
        armed := Function.update g.armed k (g.armed k ++ [s.hw.transfers.length])
        outstanding := g.outstanding ++ [⟨s.hw.transfers.length, st.slotId, st.reportBufVirt⟩] }
  | .pollEventRing => { g with outstanding := g.outstanding.filter fun t => !s.hw.events.head?.any (·.completes t.id) }
  | _ => g

/-- What a step of the controller changes. -/
def device (s s' : Kernel) (g : Dma) : Dma :=
  { g with
    disabled := fun slot => !s'.hw.enabled slot && (s.hw.enabled slot || g.disabled slot)
    armed := fun k => if (s.driver k).any fun st => s.hw.enabled st.slotId && !s'.hw.enabled st.slotId then []
      else g.armed k
    outstanding := g.outstanding.filter fun t => !(s.hw.enabled t.slot && !s'.hw.enabled t.slot) }

end Dma

/-- Run a program with nothing in between, and note its operations. -/
def runNoted {α : Type} : KProg α → Kernel × Dma → Option (α × (Kernel × Dma))
  | .ret a, c => some (a, c)
  | .op o k, c => (c.1.exec o).bind fun r => runNoted (k r.1) (r.2, Dma.note o c.1 c.2)

/-- A step of the controller, or the handler. -/
inductive DmaEnv : Kernel × Dma → Kernel × Dma → Prop
  | device {c : Kernel × Dma} {s' : Kernel} (h : DeviceStep c.1 s') : DmaEnv c (s', c.2.device c.1 s')
  | interrupt {c c' : Kernel × Dma} (hi : c.1.ints = true) (h : runNoted interruptHandler c = some ((), c')) :
      DmaEnv c c'

/-- The allocator returns no block that is still allocated. -/
def FreshBox : Op → Kernel × Dma → Prop
  | .boxNew _, c => c.1.boxes c.1.boxCount ∉ c.2.allocated
  | _, _ => True

/-- `shutdown_*` takes a state whose slot the controller disabled since it was last enabled, or all of whose
reports were answered, their Transfer Events consumed. -/
def Quiesced : Op → Kernel × Dma → Prop
  | .dropDriver k, c => ∀ st ∈ c.1.driver k, c.2.disabled st.slotId = true ∨ ∀ id ∈ c.2.armed k, c.1.Consumed id
  | _, _ => True

/-- The machine of the main context with this record. -/
def dmaMachine (quiesced : Prop) : Machine Op Ret (Kernel × Dma) where
  exec o c := (c.1.exec o).map fun r => (r.1, (r.2, Dma.note o c.1 c.2))
  env := DmaEnv
  allowed o c := FreshBox o c ∧ (quiesced → Quiesced o c)

/-- What the main context does, from the start. -/
abbrev DmaSession (quiesced : Prop) :=
  (dmaMachine quiesced).Session MainCall.prog fun c => PowerOn c.1 ∧ c.2 = Dma.new

/-- The buffer of every outstanding TRB is allocated. -/
def Outlive (c : Kernel × Dma) : Prop := ∀ t ∈ c.2.outstanding, t.buffer ∈ c.2.allocated

/-! ## Steps -/

/-- No driver has this buffer. -/
def Unowned (b : Nat) (c : Kernel × Dma) : Prop := ∀ k st, c.1.fixed k = some st → st.reportBufVirt ≠ b

/-- A buffer that neither a driver nor the controller uses. -/
def Unused (b : Nat) (c : Kernel × Dma) : Prop := Unowned b c ∧ ∀ t ∈ c.2.outstanding, t.buffer ≠ b

/-- An allocated buffer that nobody uses. -/
def Spare (b : Nat) (c : Kernel × Dma) : Prop := b ∈ c.2.allocated ∧ Unused b c

/-- The outstanding TRBs are on slots that were not disabled, and their events are unread; those that point to a
driver's buffer are among the reports queued for its state, and each of these is outstanding or answered. -/
structure Recorded (c : Kernel × Dma) : Prop where
  enabled : ∀ t ∈ c.2.outstanding, c.2.disabled t.slot = false
  unread : ∀ t ∈ c.2.outstanding, ¬ c.1.Consumed t.id
  own : ∀ k st, c.1.fixed k = some st → ∀ t ∈ c.2.outstanding, t.buffer = st.reportBufVirt →
    t.slot = st.slotId ∧ t.id ∈ c.2.armed k
  armed : ∀ k st, c.1.fixed k = some st → ∀ id ∈ c.2.armed k,
    ⟨id, st.slotId, st.reportBufVirt⟩ ∈ c.2.outstanding ∨ c.1.Consumed id
  numbered : ∀ e ∈ c.1.hw.consumed ++ c.1.hw.events, ∀ id, e.completes id = true → id < c.1.hw.transfers.length

/-- Besides, the buffers of the drivers and of the outstanding TRBs are allocated, and the drivers have different
ones. -/
structure Backed (c : Kernel × Dma) : Prop extends Recorded c where
  driver : ∀ k st, c.1.fixed k = some st → st.reportBufVirt ∈ c.2.allocated
  apart : ∀ k st st', c.1.fixed k = some st → c.1.fixed k.other = some st' → st'.reportBufVirt ≠ st.reportBufVirt
  trb : Outlive c

/-- The operations that keep the drivers and free nothing. -/
def Op.lasting : Op → Bool
  | .newDriver _ _ | .dropDriver _ | .boxFree _ => false
  | _ => true

section Steps

variable {s s' : Kernel} {g g' : Dma} {b : Nat} {k : DeviceKind} {st : DriverState}

theorem lasting_of_minor {o : Op} (h : o.minor = true) : o.lasting = true := by
  cases o <;> first | rfl | cases h

theorem lasting_of_beside {o : Op} (h : o.beside = true) : o.lasting = true := by
  cases o <;> first | rfl | cases h

theorem lasting_of_handler {o : Op} (h : o.handler = true) : o.lasting = true := by
  cases o <;> first | rfl | cases h

theorem exec_lasting {o : Op} {r : Ret o} (ho : o.lasting = true) (he : s.exec o = some (r, s')) (k : DeviceKind) :
    s'.fixed k = s.fixed k := by
  refine exec_fixed ?_ ?_ he k
  · rintro k st rfl
    cases ho
  · rintro k rfl
    cases ho

/-! ### What an operation notes -/

theorem note_enqueue (hd : s.driver k = some st) (hs : g.disabled st.slotId = false) : Dma.note (.enqueueReport k) s g =
    { g with
      armed := Function.update g.armed k (g.armed k ++ [s.hw.transfers.length])
      outstanding := g.outstanding ++ [⟨s.hw.transfers.length, st.slotId, st.reportBufVirt⟩] } := by
  show (match s.driver k with | none => g | some st => _) = _
  rw [hd]
  exact if_neg (by rw [hs]; exact Bool.false_ne_true)

/-- A report for a slot that was disabled, or for no driver, is not noted. -/
theorem note_enqueue_none (h : ∀ st ∈ s.driver k, g.disabled st.slotId = true) :
    Dma.note (.enqueueReport k) s g = g := by
  cases hd : s.driver k with
  | none =>
    show (match s.driver k with | none => g | some st => _) = _
    rw [hd]
  | some st =>
    show (match s.driver k with | none => g | some st => _) = _
    rw [hd]
    exact if_pos (h st hd)

/-- The other operations that last note blocks only. -/
theorem note_other {o : Op} (ho : o.lasting = true) (hp : o ≠ .pollEventRing) (hk : ∀ k, o ≠ .enqueueReport k) :
    (Dma.note o s g).disabled = g.disabled ∧ (Dma.note o s g).armed = g.armed ∧
      (Dma.note o s g).outstanding = g.outstanding := by
  cases o
  case pollEventRing => exact absurd rfl hp
  case enqueueReport k => exact absurd rfl (hk k)
  case newDriver | dropDriver | boxFree => cases ho
  all_goals exact ⟨rfl, rfl, rfl⟩

theorem note_allocated {o : Op} (ho : o.lasting = true) (h : b ∈ g.allocated) : b ∈ (Dma.note o s g).allocated := by
  unfold Dma.note
  split
  · exact List.mem_cons_of_mem _ h
  · cases ho
  · cases ho
  · split
    · exact h
    · split <;> exact h
  · exact h
  · exact h

/-- A TRB that is outstanding after an operation was so before, or is a driver's. -/
theorem note_outstanding {o : Op} {t : ReportTrb} (h : t ∈ (Dma.note o s g).outstanding) :
    t ∈ g.outstanding ∨ ∃ k st, s.fixed k = some st ∧ st.reportBufVirt = t.buffer := by
  unfold Dma.note at h
  split at h
  · exact .inl h
  · exact .inl h
  · exact .inl h
  · rename_i k
    split at h
    · exact .inl h
    · rename_i st hst
      split at h
      · exact .inl h
      · rcases List.mem_append.1 h with h | h
        · exact .inl h
        · rw [List.mem_singleton.1 h]
          refine .inr ⟨k, st.fixed, ?_, rfl⟩
          unfold Kernel.fixed
          rw [hst]
          rfl
  · exact .inl (List.mem_filter.1 h).1
  · exact .inl h

theorem note_unowned {o : Op} {r : Ret o} (ho : o.lasting = true) (he : s.exec o = some (r, s'))
    (h : Unowned b (s, g)) :
    Unowned b (s', Dma.note o s g) := fun k st hst => h k st ((exec_lasting ho he k).symm.trans hst)

theorem note_unused {o : Op} {r : Ret o} (ho : o.lasting = true) (he : s.exec o = some (r, s')) (h : Unused b (s, g)) :
    Unused b (s', Dma.note o s g) := by
  refine ⟨note_unowned ho he h.1, fun t ht => ?_⟩
  rcases note_outstanding ht with ht | ⟨k, st, hst, hb⟩
  · exact h.2 t ht
  · rw [← hb]
    exact h.1 k st hst

theorem note_spare {o : Op} {r : Ret o} (ho : o.lasting = true) (he : s.exec o = some (r, s')) (h : Spare b (s, g)) :
    Spare b (s', Dma.note o s g) := ⟨note_allocated ho h.1, note_unused ho he h.2⟩

/-! ### The record -/

/-- A step that keeps the log and the record, and at most drops drivers. -/
theorem Recorded.congr (h : Recorded (s, g)) (hf : ∀ k st, s'.fixed k = some st → s.fixed k = some st)
    (hc : s'.hw.consumed = s.hw.consumed) (he : s'.hw.events = s.hw.events)
    (ht : s.hw.transfers.length ≤ s'.hw.transfers.length) (hd : g'.disabled = g.disabled) (ha : g'.armed = g.armed)
    (ho : g'.outstanding = g.outstanding) : Recorded (s', g') := by
  have hcons : ∀ id, s'.Consumed id ↔ s.Consumed id := fun id => by
    unfold Kernel.Consumed
    rw [hc]
  constructor
  · exact fun t hm => (congrFun hd t.slot).trans (h.enabled t (ho ▸ hm))
  · exact fun t hm hr => h.unread t (ho ▸ hm) ((hcons _).1 hr)
  · intro k st hst t hm hb
    obtain ⟨hs, hid⟩ := h.own k st (hf k st hst) t (ho ▸ hm) hb
    exact ⟨hs, (congrFun ha k).symm ▸ hid⟩
  · intro k st hst id hid
    have hid' : id ∈ g.armed k := (congrFun ha k) ▸ hid
    refine (h.armed k st (hf k st hst) id hid').imp (fun hm => ?_) (hcons id).2
    show _ ∈ g'.outstanding
    rw [ho]
    exact hm
  · intro e hm id hid
    refine Nat.lt_of_lt_of_le (h.numbered e ?_ id hid) ht
    show e ∈ s.hw.consumed ++ s.hw.events
    rw [← hc, ← he]
    exact hm

/-- A report is queued on an enabled slot: it is outstanding, and no event of it was consumed. -/
theorem Recorded.enqueue (h : Recorded (s, g))
    (hap : ∀ k st st', s.fixed k = some st → s.fixed k.other = some st' → st'.reportBufVirt ≠ st.reportBufVirt)
    (hd : s.driver k = some st) (hs : g.disabled st.slotId = false) :
    Recorded (s.enqueueReport k, Dma.note (.enqueueReport k) s g) := by
  have hown : s.fixed k = some st.fixed := fixed_driver hd
  have hhw := enqueueReport_hw hd
  rw [queued_ioc (reportTrb_ioc _ _)] at hhw
  have hcons : ∀ id, (s.enqueueReport k).Consumed id ↔ s.Consumed id := fun id => by
    unfold Kernel.Consumed
    rw [hhw]
  -- the number of the new transfer is in no event
  have hnew : ¬ s.Consumed s.hw.transfers.length := fun ⟨e, hm, he⟩ =>
    Nat.lt_irrefl _ (h.numbered e (List.mem_append_left _ hm) _ he)
  have hother : ∀ k' st', k' ≠ k → s.fixed k' = some st' → st'.reportBufVirt ≠ st.reportBufVirt :=
    fun k' st' hk hst => by
    have ho : k' = k.other := by cases k <;> cases k' <;> first | rfl | exact absurd rfl hk
    exact hap k st.fixed st' hown (ho ▸ hst)
  rw [note_enqueue hd hs]
  constructor
  · intro t hm
    rcases List.mem_append.1 hm with hm | hm
    · exact h.enabled t hm
    · rw [List.mem_singleton.1 hm]
      exact hs
  · intro t hm hr
    rcases List.mem_append.1 hm with hm | hm
    · exact h.unread t hm ((hcons _).1 hr)
    · rw [List.mem_singleton.1 hm] at hr
      exact hnew ((hcons _).1 hr)
  · intro k' st' hst t hm hb
    rw [enqueueReport_fixed] at hst
    show _ ∧ t.id ∈ Function.update g.armed k _ k'
    by_cases hk : k' = k
    · subst hk
      rw [Function.update_self]
      rcases List.mem_append.1 hm with hm | hm
      · obtain ⟨h1, h2⟩ := h.own k' st' hst t hm hb
        exact ⟨h1, List.mem_append_left _ h2⟩
      · cases hown.symm.trans hst
        rw [List.mem_singleton.1 hm]
        exact ⟨rfl, List.mem_append_right _ (List.mem_singleton.2 rfl)⟩
    · rw [Function.update_of_ne hk]
      rcases List.mem_append.1 hm with hm | hm
      · exact h.own k' st' hst t hm hb
      · rw [List.mem_singleton.1 hm] at hb
        exact absurd hb.symm (hother k' st' hk hst)
  · intro k' st' hst id hid
    rw [enqueueReport_fixed] at hst
    replace hid : id ∈ Function.update g.armed k _ k' := hid
    by_cases hk : k' = k
    · subst hk
      rw [Function.update_self] at hid
      cases hown.symm.trans hst
      rcases List.mem_append.1 hid with hid | hid
      · exact (h.armed k' _ hst id hid).imp (List.mem_append_left _) (hcons id).2
      · rw [List.mem_singleton.1 hid]
        exact .inl (List.mem_append_right _ (List.mem_singleton.2 rfl))
    · rw [Function.update_of_ne hk] at hid
      exact (h.armed k' st' hst id hid).imp (List.mem_append_left _) (hcons id).2
  · intro e hm id hid
    rw [hhw] at hm ⊢
    show id < (s.hw.transfers ++ [st.ringPhys]).length
    rw [List.length_append]
    exact Nat.lt_of_lt_of_le (h.numbered e hm id hid) (Nat.le_add_right _ _)

/-- The next event is consumed: the TRB it is of is not outstanding any more. -/
theorem Recorded.poll (h : Recorded (s, g)) : Recorded (s.pollEventRing, Dma.note .pollEventRing s g) := by
  have hhw := pollEventRing_hw s
  -- one event is consumed, and the TRB that it is of is struck from the outstanding ones
  have hcons : ∀ id, s.pollEventRing.Consumed id ↔ s.Consumed id ∨ s.hw.events.head?.any (·.completes id) = true :=
    fun id => by
    unfold Kernel.Consumed
    rw [hhw]
    show (∃ e ∈ s.hw.consumed ++ s.hw.events.take 1, _) ↔ _
    cases s.hw.events with
    | nil => simp
    | cons e rest =>
      simp only [List.take_succ_cons, List.take_zero, List.mem_append, List.mem_singleton, List.head?_cons,
        Option.any_some]
      constructor
      · rintro ⟨x, hx | rfl, hxc⟩
        · exact .inl ⟨x, hx, hxc⟩
        · exact .inr hxc
      · rintro (⟨x, hx, hxc⟩ | hxc)
        · exact ⟨x, .inl hx, hxc⟩
        · exact ⟨e, .inr rfl, hxc⟩
  have hleft : ∀ t, t ∈ (Dma.note .pollEventRing s g).outstanding ↔
      t ∈ g.outstanding ∧ s.hw.events.head?.any (·.completes t.id) = false := fun t => by
    show t ∈ g.outstanding.filter _ ↔ _
    rw [List.mem_filter, Bool.not_eq_true']
  constructor
  · exact fun t hm => h.enabled t ((hleft t).1 hm).1
  · intro t hm hr
    obtain ⟨hm, hne⟩ := (hleft t).1 hm
    rcases (hcons _).1 hr with hr | hr
    · exact h.unread t hm hr
    · rw [hne] at hr
      cases hr
  · exact fun k st hst t hm => h.own k st hst t ((hleft t).1 hm).1
  · intro k st hst id hid
    rw [hleft, hcons]
    rcases h.armed k st hst id hid with hm | hr
    · by_cases hne : s.hw.events.head?.any (·.completes id) = true
      · exact .inr (.inr hne)
      · exact .inl ⟨hm, Bool.eq_false_of_not_eq_true hne⟩
    · exact .inr (.inl hr)
  · intro e hm id hid
    rw [hhw] at hm ⊢
    refine h.numbered e ?_ id hid
    show e ∈ s.hw.consumed ++ s.hw.events
    rcases List.mem_append.1 hm with hm | hm
    · rcases List.mem_append.1 hm with hm | hm
      · exact List.mem_append_left _ hm
      · exact List.mem_append_right _ (List.mem_of_mem_take hm)
    · exact List.mem_append_right _ (List.mem_of_mem_tail hm)

/-- The controller posts events of transfers that were queued, and leaves what was read. -/
theorem device_log (h : DeviceStep s s') : s'.hw.consumed = s.hw.consumed ∧ s'.hw.transfers = s.hw.transfers ∧
    ∀ e ∈ s'.hw.events, e ∈ s.hw.events ∨ ∀ id, e.completes id = true → id < s.hw.transfers.length := by
  obtain ⟨-, h⟩ := h
  have hport : ∀ (p : Nat) (port : Port) (t : Trb), t.trbType = 34 → ∀ e ∈ (s.hw.portChange p port t).events,
      e ∈ s.hw.events ∨ ∀ id, e.completes id = true → id < s.hw.transfers.length := by
    intro p port t ht e hm
    replace hm : e ∈ if (s.hw.port p).csc then s.hw.events else s.hw.events ++ [⟨t, .port p⟩] := hm
    split at hm
    · exact .inl hm
    · refine (List.mem_append.1 hm).imp_right fun hm id hid => ?_
      rw [List.mem_singleton.1 hm, Event.completes, decide_eq_true_iff] at hid
      cases hid.2
  -- the step is one of `Env` with the interrupt flag clear, so it is not the handler
  generalize hs : ({ s with ints := false } : Kernel) = a at h
  generalize hs' : ({ s' with ints := false } : Kernel) = a' at h
  have hw : s.hw = a.hw := by rw [← hs]
  have hw' : s'.hw = a'.hw := by rw [← hs']
  have hoff : a.ints = false := by rw [← hs]
  rw [hw, hw']
  rw [hw] at hport
  cases h with
  | interrupt hi _ =>
    rw [hoff] at hi
    cases hi
  | answer t ht _ _ _ _ =>
    refine ⟨rfl, rfl, fun e hm => (List.mem_append.1 hm).imp_right fun hm id hid => ?_⟩
    rw [List.mem_singleton.1 hm, Event.completes, decide_eq_true_iff] at hid
    cases hid.2
  | complete t ht _ hring _ =>
    refine ⟨rfl, rfl, fun e hm => (List.mem_append.1 hm).imp_right fun hm id hid => ?_⟩
    rw [List.mem_singleton.1 hm, Event.completes, decide_eq_true_iff] at hid
    cases hid.2
    exact (List.getElem?_eq_some_iff.1 hring).1
  | connect _ t ht _ _ _ => exact ⟨rfl, rfl, hport _ _ t ht⟩
  | disconnect t ht _ _ _ => exact ⟨rfl, rfl, hport _ _ t ht⟩
  | dma => exact ⟨rfl, rfl, fun _ => .inl⟩

theorem device_fixed (h : DeviceStep s s') (k : DeviceKind) : s'.fixed k = s.fixed k := env_fixed h.2 k

/-- A slot that is disabled takes its TRBs with it, and with them the reports of the driver on it. -/
theorem Recorded.device (h : Recorded (s, g)) (hd : DeviceStep s s') : Recorded (s', g.device s s') := by
  obtain ⟨hc, ht, he⟩ := device_log hd
  have hf := device_fixed hd
  have hcons : ∀ id, s'.Consumed id ↔ s.Consumed id := fun id => by
    unfold Kernel.Consumed
    rw [hc]
  -- the TRBs of a slot are dropped with it, and the reports of the driver on it forgotten
  have hleft : ∀ t, t ∈ (g.device s s').outstanding ↔
      t ∈ g.outstanding ∧ (s.hw.enabled t.slot && !s'.hw.enabled t.slot) = false := fun t => by
    show t ∈ g.outstanding.filter _ ↔ _
    rw [List.mem_filter, Bool.not_eq_true']
  have harmed : ∀ k st, s.fixed k = some st → (g.device s s').armed k =
      if s.hw.enabled st.slotId && !s'.hw.enabled st.slotId then [] else g.armed k := fun k st hst => by
    obtain ⟨d, hdr, rfl⟩ := driver_fixed hst
    show (if (s.driver k).any _ then [] else g.armed k) = _
    rw [hdr]
    rfl
  constructor
  · intro t hm
    obtain ⟨hm, hkeep⟩ := (hleft t).1 hm
    have hg : g.disabled t.slot = false := h.enabled t hm
    show (!s'.hw.enabled t.slot && (s.hw.enabled t.slot || g.disabled t.slot)) = false
    rw [hg, Bool.or_false, Bool.and_comm]
    exact hkeep
  · exact fun t hm hr => h.unread t ((hleft t).1 hm).1 ((hcons _).1 hr)
  · intro k st hst t hm hb
    rw [hf] at hst
    obtain ⟨hm, hkeep⟩ := (hleft t).1 hm
    obtain ⟨hs, hid⟩ := h.own k st hst t hm hb
    rw [harmed k st hst, ← hs, hkeep]
    exact ⟨rfl, hid⟩
  · intro k st hst id hid
    rw [hf] at hst
    rw [harmed k st hst] at hid
    cases hcut : s.hw.enabled st.slotId && !s'.hw.enabled st.slotId with
    | true =>
      rw [hcut] at hid
      cases hid
    | false =>
      rw [hcut] at hid
      exact (h.armed k st hst id hid).imp (fun hm => (hleft _).2 ⟨hm, hcut⟩) (hcons id).2
  · intro e hm id hid
    rw [ht]
    rcases List.mem_append.1 hm with hm | hm
    · exact h.numbered e (List.mem_append_left _ (hc ▸ hm)) id hid
    · rcases he e hm with hm | hpost
      · exact h.numbered e (List.mem_append_right _ hm) id hid
      · exact hpost id hid

theorem transfers_grow {o : Op} {r : Ret o} (he : s.exec o = some (r, s')) :
    s.hw.transfers.length ≤ s'.hw.transfers.length := by
  have hq : ∀ ring t, s.hw.transfers.length ≤ (Kernel.queued s.hw ring t).transfers.length := fun ring t => by
    unfold Kernel.queued
    split
    · show _ ≤ (s.hw.transfers ++ [ring]).length
      rw [List.length_append]
      exact Nat.le_add_right _ _
    · exact Nat.le_refl _
  -- only a TRB on the EP0 ring or on a driver's ring can add a transfer
  by_cases hep : ∃ p st c, o = .ep0EnqueueTrb p st c
  · obtain ⟨p, st, c, rfl⟩ := hep
    obtain ⟨x, -, hx⟩ := Option.map_eq_some_iff.1 he
    cases hx
    exact hq _ _
  · by_cases hk : ∃ k, o = .enqueueReport k
    · obtain ⟨k, rfl⟩ := hk
      cases he
      cases hd : s.driver k with
      | none =>
        unfold Kernel.enqueueReport
        rw [hd]
      | some st =>
        rw [enqueueReport_hw hd]
        exact hq _ _
    · rw [((exec_keeps he).transfers (fun p st c ho => hep ⟨p, st, c, ho⟩) fun k ho => hk ⟨k, ho⟩).1]

theorem note_recorded {o : Op} {r : Ret o} (ho : o.lasting = true) (he : s.exec o = some (r, s')) (h : Backed (s, g)) :
    Recorded (s', Dma.note o s g) := by
  have hf : ∀ k st, s'.fixed k = some st → s.fixed k = some st := fun k st hst => (exec_lasting ho he k).symm.trans hst
  by_cases hp : o = .pollEventRing
  · subst hp
    cases he
    exact h.toRecorded.poll
  obtain ⟨hev, hcon⟩ := (exec_keeps he).events hp
  by_cases hk : ∃ k, o = .enqueueReport k
  · obtain ⟨k, rfl⟩ := hk
    by_cases hd : ∀ st ∈ s.driver k, g.disabled st.slotId = true
    · rw [note_enqueue_none hd]
      exact h.toRecorded.congr hf hcon hev (transfers_grow he) rfl rfl rfl
    · push Not at hd
      obtain ⟨st, hst, hs⟩ := hd
      cases he
      exact h.toRecorded.enqueue h.apart hst (Bool.eq_false_of_not_eq_true hs)
  · obtain ⟨h1, h2, h3⟩ := note_other (s := s) (g := g) ho hp fun k hk' => hk ⟨k, hk'⟩
    exact h.toRecorded.congr hf hcon hev (transfers_grow he) h1 h2 h3

theorem note_backed {o : Op} {r : Ret o} (ho : o.lasting = true) (he : s.exec o = some (r, s')) (h : Backed (s, g)) :
    Backed (s', Dma.note o s g) := by
  have hf := exec_lasting ho he
  refine ⟨note_recorded ho he h, fun k st hst => ?_, fun k st st' hst hst' => ?_, fun t ht => note_allocated ho ?_⟩
  · exact note_allocated ho (h.driver k st ((hf k).symm.trans hst))
  · exact h.apart k st st' ((hf k).symm.trans hst) ((hf _).symm.trans hst')
  · rcases note_outstanding ht with ht | ⟨k, st, hst, hb⟩
    · exact h.trb t ht
    · rw [← hb]
      exact h.driver k st hst

/-- What every operation of a program keeps, the program keeps. -/
theorem runNoted_frame {α : Type} {φ : Op → Prop} {P : Kernel × Dma → Prop} {p : KProg α} {c c' : Kernel × Dma} {a : α}
    (hp : p.All φ) (hf : ∀ o s g r s', φ o → s.exec o = some (r, s') → P (s, g) → P (s', Dma.note o s g))
    (h : runNoted p c = some (a, c')) (hc : P c) : P c' := by
  induction p generalizing c with
  | ret b =>
    cases h
    exact hc
  | op o k ih =>
    obtain ⟨r, he, h⟩ := Option.bind_eq_some_iff.1 h
    exact ih r.1 (hp.2 r.1) h (hf o c.1 c.2 r.1 r.2 hp.1 he hc)

/-- An assertion that lasting operations and the controller keep. -/
theorem framed_lasting {quiesced : Prop} {P : Kernel × Dma → Prop}
    (hnote : ∀ o s g r s', o.lasting = true → s.exec o = some (r, s') → P (s, g) → P (s', Dma.note o s g))
    (hdevice : ∀ s g s', DeviceStep s s' → P (s, g) → P (s', g.device s s')) :
    (dmaMachine quiesced).Framed (fun o => o.lasting = true) P where
  stable c c' h he := by
    cases he with
    | device hd => exact hdevice _ _ _ hd h
    | interrupt _ hr =>
      exact runNoted_frame (interruptHandler_ops.mono fun _ => lasting_of_handler) hnote hr h
  frame o c r c' ho _ he h := by
    obtain ⟨⟨r', t⟩, hx, hr⟩ := Option.map_eq_some_iff.1 he
    cases hr
    exact hnote o c.1 c.2 _ _ ho hx h

end Steps

/-! ## Between the stages of `init_*` and `shutdown_*` -/

section Frames

variable {quiesced : Prop} {b : Nat} {P : Kernel × Dma → Prop}

theorem device_outstanding {s s' : Kernel} {g : Dma} {t : ReportTrb} (h : t ∈ (g.device s s').outstanding) :
    t ∈ g.outstanding :=
  (List.mem_filter.1 h).1

theorem framed_fixed (k : DeviceKind) (d : Option DriverState) :
    (dmaMachine quiesced).Framed (fun o => o.lasting = true) fun c => c.1.fixed k = d :=
  framed_lasting (fun _ _ _ _ _ ho he h => (exec_lasting ho he k).trans h) fun _ _ _ hd h => (device_fixed hd k).trans h

theorem framed_backed : (dmaMachine quiesced).Framed (fun o => o.lasting = true) Backed := by
  refine framed_lasting (fun _ _ _ _ _ => note_backed) fun s g s' hd h => ?_
  have hf := device_fixed hd
  refine ⟨h.toRecorded.device hd, ?_, ?_, ?_⟩
  · exact fun k st hst => h.driver k st ((hf k).symm.trans hst)
  · exact fun k st st' hst hst' => h.apart k st st' ((hf k).symm.trans hst) ((hf _).symm.trans hst')
  · exact fun t ht => h.trb t (device_outstanding ht)

theorem framed_spare : (dmaMachine quiesced).Framed (fun o => o.lasting = true) (Spare b) :=
  framed_lasting (fun _ _ _ _ _ => note_spare) fun _ _ _ hd h =>
    ⟨h.1, fun k st hst => h.2.1 k st ((device_fixed hd k).symm.trans hst), fun t ht => h.2.2 t (device_outstanding ht)⟩

theorem framed_unused : (dmaMachine quiesced).Framed (fun o => o.lasting = true) (Unused b) :=
  framed_lasting (fun _ _ _ _ _ => note_unused) fun _ _ _ hd h =>
    ⟨fun k st hst => h.1 k st ((device_fixed hd k).symm.trans hst), fun t ht => h.2 t (device_outstanding ht)⟩

theorem steady_backed (h : (dmaMachine quiesced).Framed (fun o => o.lasting = true) P) :
    Steady (dmaMachine quiesced) Outlive fun c => Backed c ∧ P c where
  framed := (framed_backed.and h).mono fun _ => lasting_of_minor
  safe _ hc := hc.1.trb

theorem steady_backed_alone : Steady (dmaMachine quiesced) Outlive Backed where
  framed := framed_backed.mono fun _ => lasting_of_minor
  safe _ hc := hc.trb

theorem exec_dma {o : Op} {r : Ret o} {c c' : Kernel × Dma} (he : (dmaMachine quiesced).exec o c = some (r, c')) :
    c.1.exec o = some (r, c'.1) ∧ c'.2 = Dma.note o c.1 c.2 := by
  obtain ⟨⟨r', t⟩, hx, hr⟩ := Option.map_eq_some_iff.1 he
  cases hr
  exact ⟨hx, rfl⟩

/-- The block that `Box::new` returns has no owner yet, and no TRB points to it. -/
theorem boxNew_spare {c c' : Kernel × Dma} {content : BoxContent} {virt : Nat} (h : Backed c)
    (ha : FreshBox (.boxNew content) c) (he : (dmaMachine quiesced).exec (.boxNew content) c = some (virt, c')) :
    Backed c' ∧ Spare virt c' := by
  have hfix : ∀ k, c'.1.fixed k = c.1.fixed k := exec_lasting rfl (exec_dma he).1
  obtain ⟨hx, hg⟩ := exec_dma he
  have hvirt : c.1.boxes c.1.boxCount = virt := (Prod.mk.inj (Option.some.inj hx)).1
  have hfresh : virt ∉ c.2.allocated := hvirt ▸ ha
  refine ⟨framed_backed.frame (.boxNew content) c virt c' rfl ⟨ha, fun _ => trivial⟩ he h, ?_, fun k st hst hb => ?_,
    fun t ht hb => ?_⟩
  · rw [hg, ← hvirt]
    exact List.mem_cons_self ..
  · rw [hfix] at hst
    exact hfresh (hb ▸ h.driver k st hst)
  · rw [hg] at ht
    exact hfresh (hb ▸ h.trb t ht)

/-- The state of `init_*` owns the new buffer, and has queued no report. -/
theorem newDriver_backed {c c' : Kernel × Dma} {k : DeviceKind} {st : DriverState} {r : Unit}
    (h : Backed c ∧ Spare st.reportBufVirt c) (he : (dmaMachine quiesced).exec (.newDriver k st) c = some (r, c')) :
    Backed c' := by
  obtain ⟨hx, hg⟩ := exec_dma he
  have hnew : c'.1 = c.1.newDriver st k := (Prod.mk.inj (Option.some.inj hx)).2.symm
  have hfix : ∀ k', c'.1.fixed k' = if k' = k then some st.fixed else c.1.fixed k' := fun k' => by
    rw [hnew, newDriver_fixed]
  have hhw : c'.1.hw = c.1.hw := by rw [hnew]; cases k <;> rfl
  have hcons : ∀ id, c'.1.Consumed id ↔ c.1.Consumed id := fun id => by
    unfold Kernel.Consumed
    rw [hhw]
  have harmed : c'.2.armed = Function.update c.2.armed k [] := by rw [hg]; rfl
  have hout : c'.2.outstanding = c.2.outstanding := by rw [hg]; rfl
  have hdis : c'.2.disabled = c.2.disabled := by rw [hg]; rfl
  obtain ⟨hbacked, hspare, hunowned, hfree⟩ := h
  -- no TRB points to the buffer of the new state, and it has queued none; the other driver keeps what it had
  refine ⟨⟨?_, ?_, ?_, ?_, ?_⟩, ?_, ?_, ?_⟩
  · rw [hout, hdis]
    exact hbacked.enabled
  · rw [hout]
    exact fun t ht hr => hbacked.unread t ht ((hcons _).1 hr)
  · intro k' st' hst t ht hb
    rw [hfix] at hst
    rw [hout] at ht
    rw [harmed]
    split at hst
    · cases hst
      exact absurd hb (hfree t ht)
    · rename_i hk
      rw [Function.update_of_ne hk]
      exact hbacked.own k' st' hst t ht hb
  · intro k' st' hst id hid
    rw [hfix] at hst
    rw [harmed] at hid
    rw [hout, hcons]
    split at hst
    · rename_i hk
      rw [hk, Function.update_self] at hid
      cases hid
    · rename_i hk
      rw [Function.update_of_ne hk] at hid
      exact hbacked.armed k' st' hst id hid
  · rw [hhw]
    exact hbacked.numbered
  · intro k' st' hst
    rw [hg]
    rw [hfix] at hst
    split at hst
    · cases hst
      exact hspare
    · exact hbacked.driver k' st' hst
  · intro k' st₁ st₂ h₁ h₂
    rw [hfix] at h₁ h₂
    split at h₁
    · rename_i hk
      subst hk
      rw [if_neg (other_ne k')] at h₂
      cases h₁
      exact hunowned _ st₂ h₂
    · split at h₂
      · cases h₂
        exact (hunowned _ st₁ h₁).symm
      · exact hbacked.apart k' st₁ st₂ h₁ h₂
  · intro t ht
    rw [hg] at ht ⊢
    exact hbacked.trb t ht

/-- A driver's slot was disabled or its reports were answered exactly if no outstanding TRB points to its buffer. -/
theorem quiesced_iff {c : Kernel × Dma} (h : Backed c) {k : DeviceKind} {st : DriverState}
    (hst : c.1.fixed k = some st) :
    (c.2.disabled st.slotId = true ∨ ∀ id ∈ c.2.armed k, c.1.Consumed id) ↔
      ∀ t ∈ c.2.outstanding, t.buffer ≠ st.reportBufVirt := by
  constructor
  · rintro hq t ht hb
    obtain ⟨hs, hid⟩ := h.own k st hst t ht hb
    rcases hq with hd | hr
    · rw [← hs, h.enabled t ht] at hd
      cases hd
    · exact h.unread t ht (hr t.id hid)
  · intro hnone
    exact .inr fun id hid => (h.armed k st hst id hid).resolve_left fun hm => hnone _ hm rfl

/-- A driver's state that is dropped leaves a buffer nobody uses, if its slot was disabled or its reports answered. -/
theorem dropDriver_backed {c c' : Kernel × Dma} {k : DeviceKind} {st : DriverState} {r : Unit}
    (h : Backed c ∧ c.1.fixed k = some st.fixed) (hd : Quiesced (.dropDriver k) c)
    (he : (dmaMachine quiesced).exec (.dropDriver k) c = some (r, c')) : Backed c' ∧ Unused st.reportBufVirt c' := by
  obtain ⟨hx, hg⟩ := exec_dma he
  have hdrop : c'.1 = c.1.dropDriver k := (Prod.mk.inj (Option.some.inj hx)).2.symm
  have hfix : ∀ k', c'.1.fixed k' = if k' = k then none else c.1.fixed k' := fun k' => by
    rw [hdrop, dropDriver_fixed]
  have hfix' : ∀ k' st', c'.1.fixed k' = some st' → c.1.fixed k' = some st' ∧ k' ≠ k := fun k' st' hst => by
    rw [hfix] at hst
    split at hst
    · cases hst
    · rename_i hk
      exact ⟨hst, hk⟩
  have hhw : c'.1.hw = c.1.hw := by rw [hdrop]; cases k <;> rfl
  have hsame : c'.2 = c.2 := by rw [hg]; rfl
  obtain ⟨hbacked, hown⟩ := h
  -- the slot in the condition is that of the state that is dropped
  obtain ⟨d, hdriver, hfixed⟩ := driver_fixed hown
  have hslot : d.slotId = st.slotId := congrArg (·.slotId) hfixed
  have hq := hd d hdriver
  rw [hslot] at hq
  refine ⟨⟨?_, fun k' st' hst => ?_, fun k' st₁ st₂ h₁ h₂ => ?_, ?_⟩, fun k' st' hst => ?_, ?_⟩
  · refine hbacked.toRecorded.congr (fun k' st' hst => (hfix' k' st' hst).1) (by rw [hhw]) (by rw [hhw]) (by rw [hhw])
      (by rw [hsame]) (by rw [hsame]) (by rw [hsame])
  · rw [hsame]
    exact hbacked.driver k' st' (hfix' k' st' hst).1
  · exact hbacked.apart k' st₁ st₂ (hfix' k' st₁ h₁).1 (hfix' _ st₂ h₂).1
  · intro t ht
    rw [hsame] at ht ⊢
    exact hbacked.trb t ht
  · obtain ⟨hst, hk⟩ := hfix' k' st' hst
    have ho : k' = k.other := by cases k <;> cases k' <;> first | rfl | exact absurd rfl hk
    exact hbacked.apart k st.fixed st' hown (ho ▸ hst)
  · rw [hsame]
    exact (quiesced_iff hbacked hown).1 hq

/-- Any other state that is dropped and its buffer freed at once leaves a TRB that points to a free block. -/
theorem dropDriver_early {c c₁ c₂ : Kernel × Dma} {k : DeviceKind} {st : DriverState} {r₁ r₂ : Unit} (h : Backed c)
    (hst : c.1.fixed k = some st.fixed) (hd : ¬ Quiesced (.dropDriver k) c)
    (h₁ : (dmaMachine quiesced).exec (.dropDriver k) c = some (r₁, c₁))
    (h₂ : (dmaMachine quiesced).exec (.boxFree st.reportBufVirt) c₁ = some (r₂, c₂)) : ¬ Outlive c₂ := by
  obtain ⟨d, hdriver, hfixed⟩ := driver_fixed hst
  have hslot : d.slotId = st.slotId := congrArg (·.slotId) hfixed
  have hq : ¬ ∀ t ∈ c.2.outstanding, t.buffer ≠ st.reportBufVirt := fun hnone => hd fun d' hd' => by
    rw [hdriver] at hd'
    cases hd'
    rw [hslot]
    exact (quiesced_iff h hst).2 hnone
  push Not at hq
  obtain ⟨t, ht, hb⟩ := hq
  intro hall
  have hg₁ : c₁.2 = c.2 := (exec_dma h₁).2
  have hg₂ := (exec_dma h₂).2
  rw [hg₁] at hg₂
  have hm := hall t (by rw [hg₂]; exact ht)
  rw [hg₂] at hm
  exact of_decide_eq_true (List.mem_filter.1 hm).2 hb

/-- A buffer that nobody uses is given back. -/
theorem boxFree_backed {c c' : Kernel × Dma} {r : Unit} (h : Backed c ∧ Unused b c)
    (he : (dmaMachine quiesced).exec (.boxFree b) c = some (r, c')) : Backed c' := by
  obtain ⟨hx, hg⟩ := exec_dma he
  have hsame : c'.1 = c.1 := (Prod.mk.inj (Option.some.inj hx)).2.symm
  have hkeep : ∀ a, a ∈ c.2.allocated → a ≠ b → a ∈ c'.2.allocated := fun a ha hne => by
    rw [hg]
    exact List.mem_filter.2 ⟨ha, decide_eq_true hne⟩
  obtain ⟨hbacked, hunowned, htrb⟩ := h
  refine ⟨?_, ?_, ?_, ?_⟩
  · exact hbacked.toRecorded.congr (fun k st hst => by rwa [hsame] at hst) (by rw [hsame]) (by rw [hsame])
      (by rw [hsame])
      (by rw [hg]; rfl) (by rw [hg]; rfl) (by rw [hg]; rfl)
  · rw [hsame]
    exact fun k st hst => hkeep _ (hbacked.driver k st hst) (hunowned k st hst)
  · rw [hsame]
    exact hbacked.apart
  · intro t ht
    rw [hg] at ht
    exact hkeep _ (hbacked.trb t ht) (htrb t ht)

end Frames

/-! ## Calls -/

theorem initDriver_backed (k : DeviceKind) (message : String) (slotId : Nat) (ep : EndpointHandle)
    (interfaceNumber : Nat) :
    (dmaMachine True).Spec Backed (initDriver k message slotId ep interfaceNumber) (fun _ => Backed) Outlive := by
  have hs : Steady (dmaMachine True) Outlive Backed := steady_backed_alone
  have hspare : ∀ virt, Steady (dmaMachine True) Outlive fun c => Backed c ∧ Spare virt c := fun virt =>
    steady_backed (framed_spare (b := virt))
  refine initDriver_spec hs hspare hspare hspare hs ?_ ?_ ?_ ?_ ?_
  · exact fun c virt c' h ha he => boxNew_spare h ha.1 he
  · exact fun virt c r c' h ha he =>
      (framed_backed.and framed_spare).frame (.storeReg k.dciReg ep.dci) c r c' rfl ha he h
  · exact fun virt c r c' h ha he =>
      (framed_backed.and framed_spare).frame (.storeReg k.slotReg slotId) c r c' rfl ha he h
  · exact fun virt phys c r c' h _ he => newDriver_backed h he
  · refine armNextReport_spec hs hs (fun c c' h he => ?_) fun c r c' h ha he =>
      framed_backed.frame (.enqueueReport k) c r c' rfl ha he h
    exact framed_backed.frame (.getDriver k) c none c' rfl ⟨trivial, fun _ => trivial⟩ he h

theorem shutdownDriver_backed (k : DeviceKind) (slotId : Nat) :
    (dmaMachine True).Spec Backed (shutdownDriver k slotId) (fun _ => Backed) Outlive := by
  have hs : Steady (dmaMachine True) Outlive Backed := steady_backed_alone
  have hget : ∀ c d c', Backed c → (dmaMachine True).exec (.getDriver k) c = some (d, c') → Backed c' :=
    fun c d c' h he =>
    framed_backed.frame (.getDriver k) c d c' rfl ⟨trivial, fun _ => trivial⟩ he h
  refine shutdownDriver_spec hs (fun st => steady_backed (framed_fixed k (some st.fixed)))
    (fun st => steady_backed (framed_unused (b := st.reportBufVirt))) (fun _ => hs) hs hs hs ?_ ?_ ?_ ?_ ?_ ?_ ?_ ?_
  · exact fun c c' h he => hget c none c' h he
  · exact fun st c c' h he _ => hget c (some st) c' h he
  · intro st c c' h he _
    refine ⟨hget c (some st) c' h he, ?_⟩
    obtain ⟨hx, -⟩ := exec_dma he
    obtain ⟨hd, hc⟩ := Prod.mk.inj (Option.some.inj hx)
    unfold Kernel.fixed
    rw [← hc, hd]
    rfl
  · exact fun st c r c' h ha he => dropDriver_backed h (ha.2 trivial) he
  · exact fun st c r c' h _ he => boxFree_backed h he
  · exact fun st c r c' h ha he => framed_backed.frame (.storeReg k.dciReg 0) c r c' rfl ha he h
  · exact fun c r c' h ha he => framed_backed.frame (.storeReg k.slotReg 0) c r c' rfl ha he h
  · exact fun c r c' h ha he => framed_backed.frame (.storeFlag k.pending false) c r c' rfl ha he h

theorem composed_backed : Composed fun p => (dmaMachine True).Spec Backed p (fun _ => Backed) Outlive where
  beside hp := framed_backed.spec (hp.mono fun _ => lasting_of_beside) fun _ hc => hc.trb
  bind hp hf := Machine.spec_bind hp hf
  init := initDriver_backed
  shutdown := shutdownDriver_backed

theorem powerOn_backed {c : Kernel × Dma} (h : PowerOn c.1 ∧ c.2 = Dma.new) : Backed c := by
  have hnone : ∀ k, c.1.fixed k = none := by
    intro k
    unfold Kernel.fixed Kernel.driver
    cases k with
    | keyboard =>
      rw [h.1.kbd]
      rfl
    | mouse =>
      rw [h.1.mouse]
      rfl
  have hno : ∀ k st, c.1.fixed k ≠ some st := fun k st hst => by
    rw [hnone] at hst
    cases hst
  have hout : ∀ t, t ∉ c.2.outstanding := fun t ht => by
    rw [h.2] at ht
    cases ht
  refine ⟨⟨fun t ht => absurd ht (hout t), fun t ht => absurd ht (hout t), fun k st hst => absurd hst (hno k st),
    fun k st hst => absurd hst (hno k st), fun e he id hid => ?_⟩, fun k st hst => absurd hst (hno k st),
    fun k st _ hst => absurd hst (hno k st), fun t ht => absurd ht (hout t)⟩
  -- nothing was consumed yet, and the events at boot are of ports
  rw [h.1.consumed, List.nil_append] at he
  rw [Event.completes, decide_eq_true_iff, h.1.events e he] at hid
  cases hid.1

/-- If `shutdown_*` only takes a state whose slot was disabled or whose reports were answered, and the allocator
returns no block that is allocated, then in every state reached, between the calls of the main context and
within them, the buffer of every outstanding report TRB is allocated. -/
theorem buffers_outlive_trbs {hist : List (Machine.Return (Kernel × Dma) MainCall.Result)} {c c' : Kernel × Dma}
    {i : MainCall} {p : KProg i.Result} (h : DmaSession True hist c)
    (hr : (dmaMachine True).Runs (i.prog, c) (p, c')) : Outlive c' := by
  have hc : Backed c :=
    h.invariant (fun _ => powerOn_backed) framed_backed.stable fun i => (composed_backed.prog i).triple
  exact (composed_backed.prog i).throughout c hc _ hr

/-! ## Schedules -/

section Play

variable (quiesced : Prop) [Decidable quiesced] {α : Type}

/-- The operation is a `Box::new`. -/
def Op.allocates : Op → Bool
  | .boxNew _ => true
  | _ => false

/-- The driver whose state an operation takes. -/
def Op.taken : Op → Option DeviceKind
  | .dropDriver k => some k
  | _ => none

theorem freshBox_iff {o : Op} {c : Kernel × Dma} :
    (o.allocates = true → c.1.boxes c.1.boxCount ∉ c.2.allocated) ↔ FreshBox o c := by
  cases o <;> simp [Op.allocates, FreshBox]

theorem quiesced_iff_taken {o : Op} {c : Kernel × Dma} :
    (∀ k ∈ o.taken, ∀ st ∈ c.1.driver k, c.2.disabled st.slotId = true ∨ ∀ id ∈ c.2.armed k, c.1.Consumed id) ↔
      Quiesced o c := by
  cases o <;> simp [Op.taken, Quiesced]

instance (s : Kernel) (id : Nat) : Decidable (s.Consumed id) :=
  inferInstanceAs (Decidable (∃ e ∈ s.hw.consumed, e.completes id = true))

instance (o : Op) (c : Kernel × Dma) : Decidable (FreshBox o c) := decidable_of_iff _ freshBox_iff

instance (o : Op) (c : Kernel × Dma) : Decidable (Quiesced o c) := decidable_of_iff _ quiesced_iff_taken

/-- Take a step. -/
def Move.dmaStep (m : Move) (c : KProg α × (Kernel × Dma)) : Option (KProg α × (Kernel × Dma)) :=
  match m, c with
  | .op, (.op o k, c) =>
    if FreshBox o c ∧ (quiesced → Quiesced o c) then
      (c.1.exec o).map fun r => (k r.1, (r.2, Dma.note o c.1 c.2))
    else none
  | .interrupt, (p, c) => if c.1.ints = true then (runNoted interruptHandler c).map fun r => (p, r.2) else none
  | m, (p, c) => (m.env Rules.any c.1).map fun s' => (p, (s', c.2.device c.1 s'))

/-- Take the steps, if each is possible. -/
def playDma : List Move → KProg α × (Kernel × Dma) → Option (KProg α × (Kernel × Dma))
  | [], c => some c
  | m :: ms, c => (m.dmaStep quiesced c).bind (playDma ms)

variable {quiesced}

/-- A step of the controller does not depend on the interrupt flag. -/
theorem env_deviceStep {m : Move} {s s' : Kernel} (hm : m ≠ .interrupt) (h : m.env Rules.any s = some s') :
    DeviceStep s s' := by
  -- nothing but the interrupt asks for the flag
  have hoff : m.env Rules.any { s with ints := false } = (m.env Rules.any s).map fun s' =>
    { s' with ints := false } := by
    cases m with
    | interrupt => exact absurd rfl hm
    | op | dma => rfl
    | answer id t =>
      cases hc : s.hw.commands[id]? with
      | none => simp only [Move.env, hc, Option.map_none]
      | some c =>
        simp only [Move.env, hc, apply_ite (Option.map _)]
        rfl
    | complete id t =>
      cases hring : s.hw.transfers[id]? with
      | none => simp only [Move.env, hring, Option.map_none]
      | some ring =>
        simp only [Move.env, hring, apply_ite (Option.map _)]
        rfl
    | connect | disconnect =>
      simp only [Move.env, apply_ite (Option.map _)]
      rfl
  refine ⟨(env_unmoved (env_sound h)).ints, env_sound (m := m) ?_⟩
  rw [hoff, h]
  rfl

theorem dmaStep_sound {m : Move} {c c' : KProg α × (Kernel × Dma)} (h : m.dmaStep quiesced c = some c') :
    (dmaMachine quiesced).Step c c' := by
  unfold Move.dmaStep at h
  split at h
  · split at h
    · rename_i ha
      obtain ⟨r, he, rfl⟩ := Option.map_eq_some_iff.1 h
      refine .op ha ?_
      exact congrArg (Option.map _) he
    · cases h
  · split at h
    · rename_i hi
      obtain ⟨⟨⟨⟩, c₁⟩, hr, rfl⟩ := Option.map_eq_some_iff.1 h
      exact .env (.interrupt hi hr)
    · cases h
  · rename_i hne
    obtain ⟨s', he, rfl⟩ := Option.map_eq_some_iff.1 h
    exact .env (.device (env_deviceStep hne he))

theorem playDma_sound {ms : List Move} {c c' : KProg α × (Kernel × Dma)} (h : playDma quiesced ms c = some c') :
    (dmaMachine quiesced).Runs c c' := by
  induction ms generalizing c with
  | nil =>
    cases h
    exact .refl
  | cons m ms ih =>
    obtain ⟨c₁, h₁, h₂⟩ := Option.bind_eq_some_iff.1 h
    exact .head (dmaStep_sound h₁) (ih h₂)

/-- Where a schedule takes a call. -/
def dmaAfter (quiesced : Prop) [Decidable quiesced] (i : MainCall) (ms : List Move) (c : Kernel × Dma) : Kernel × Dma :=
  ((playDma quiesced ms (i.prog, c)).map (·.2)).getD c

theorem session_dmaAfter {hist : List (Machine.Return (Kernel × Dma) MainCall.Result)} {c : Kernel × Dma}
    (h : DmaSession quiesced hist c) (i : MainCall) (ms : List Move)
    (ht : (playDma quiesced ms (i.prog, c)).map (fun r => returned r.1) = some true) :
    ∃ hist', DmaSession quiesced hist' (dmaAfter quiesced i ms c) := by
  obtain ⟨⟨p, c'⟩, hp, ht⟩ := Option.map_eq_some_iff.1 ht
  unfold dmaAfter
  rw [hp]
  cases p with
  | ret a => exact ⟨_, h.call i (playDma_sound hp)⟩
  | op o k => cases ht

end Play

/-! ## A keyboard -/

/-- One port, with a device on it. -/
def dmaStart : Kernel × Dma := (Kernel.start 1 fun _ => ⟨true, false, 1, 0⟩, Dma.new)

/-- The keyboard on the port is set up. -/
def keyboardPlugged (quiesced : Prop) [Decidable quiesced] : Kernel × Dma :=
  dmaAfter quiesced .discoverAndInitHidDevices (plugIn 14 0 0 1 0x14000 (hidInterface 0 1 0x81) ++ ops 19) dmaStart

/-- Its slot was disabled. -/
def keyboardDisabled : Kernel × Dma :=
  dmaAfter True (.disableSlot 1) (ops 6 ++ [.answer 3 (completionTrb 1 1), .interrupt] ++ ops 6) (keyboardPlugged True)

theorem dmaSession_start (quiesced : Prop) : DmaSession quiesced [] dmaStart :=
  .boot ⟨powerOn_start (by decide) _ fun _ => rfl, rfl⟩

/-- `buffers_outlive_trbs` when the slot of a keyboard is disabled before `shutdown_keyboard`: the buffer is freed. -/
theorem buffers_outlive_trbs_disabled : ∃ hist p c, DmaSession True hist keyboardDisabled ∧
    (dmaMachine True).Runs ((MainCall.shutdownKeyboard 1).prog, keyboardDisabled) (p, c) ∧
    94208 ∈ keyboardDisabled.2.allocated ∧ 94208 ∉ c.2.allocated ∧ Outlive c := by
  obtain ⟨_, hplugged⟩ := session_dmaAfter (dmaSession_start True) .discoverAndInitHidDevices
    (plugIn 14 0 0 1 0x14000 (hidInterface 0 1 0x81) ++ ops 19) (by decide +kernel)
  obtain ⟨_, hdisabled⟩ := session_dmaAfter hplugged (.disableSlot 1)
    (ops 6 ++ [.answer 3 (completionTrb 1 1), .interrupt] ++ ops 6) (by decide +kernel)
  have hfree : (playDma True (ops 8) ((MainCall.shutdownKeyboard 1).prog, keyboardDisabled)).map
      (fun r => decide (94208 ∈ keyboardDisabled.2.allocated ∧ 94208 ∉ r.2.2.allocated)) = some true := by
        decide +kernel
  obtain ⟨⟨p, c⟩, hp, ht⟩ := Option.map_eq_some_iff.1 hfree
  obtain ⟨h1, h2⟩ := of_decide_eq_true ht
  exact ⟨_, p, c, hdisabled, playDma_sound hp, h1, h2, buffers_outlive_trbs hdisabled (playDma_sound hp)⟩

/-- A keyboard is unplugged: `shutdown_device` calls `shutdown_keyboard`, which frees the buffer, before
`disable_slot`, while the controller still holds the TRB. -/
theorem freed_under_dma : ¬ ∀ (hist : List (Machine.Return (Kernel × Dma) MainCall.Result)) (c : Kernel × Dma),
    DmaSession False hist c → ∀ (i : MainCall) (p : KProg i.Result) (c' : Kernel × Dma),
      (dmaMachine False).Runs (i.prog, c) (p, c') → Outlive c' := by
  obtain ⟨_, hplugged⟩ := session_dmaAfter (dmaSession_start False) .discoverAndInitHidDevices
    (plugIn 14 0 0 1 0x14000 (hidInterface 0 1 0x81) ++ ops 19) (by decide +kernel)
  have hrun : (playDma False ([.disconnect 0 portTrb, .interrupt] ++ ops 13)
      (MainCall.discoverAndInitHidDevices.prog, keyboardPlugged False)).map
      (fun r => decide (⟨4, 1, 94208⟩ ∈ r.2.2.outstanding ∧ 94208 ∉ r.2.2.allocated)) = some true := by decide +kernel
  obtain ⟨⟨p, c⟩, hp, ht⟩ := Option.map_eq_some_iff.1 hrun
  obtain ⟨hout, hfreed⟩ := of_decide_eq_true ht
  exact fun hall => hfreed (hall _ _ hplugged .discoverAndInitHidDevices p c (playDma_sound hp) _ hout)

end Octagram.Usb

/-
The reports of the current drivers, in every run: the handler takes each for the driver whose
endpoint it is, and each armed endpoint has one TRB outstanding (`reports_delivered`), if the
atomics are only changed while their driver has no state, and `init_*` is given an endpoint that was
just configured. The invariant is `Routed`: no report waits, the atomics name the drivers'
endpoints, and their TRBs are tallied; each kind of step keeps it with the drivers (`RoutedStep`).
While `init_*` and `shutdown_*` run, a driver may also be without a state or not armed yet
(`Resting` between the calls, `UnarmedAt` before the first TRB). A second keyboard breaks the
condition, and a report is lost (`report_lost`).
-/
import Octagram.Lib.Record
import Octagram.Usb.Outstanding
import Octagram.Usb.Schedule

namespace Octagram.Usb

open Octagram.Lib

/-! ## Definitions -/

/-- A command that leaves the driver's ring, its endpoint and its slot alone. -/
def Command.Spares (c : Command) (st : DriverState) : Prop :=
  ((c.trbType = TRB_TYPE_ADDRESS_DEVICE ∨ c.trbType = TRB_TYPE_CONFIGURE_ENDPOINT) →
    c.input.ring ≠ st.ringPhys ∧ ¬ (c.slot = st.slotId ∧ c.input.dci = st.dci)) ∧
  (c.trbType = TRB_TYPE_DISABLE_SLOT → c.slot ≠ st.slotId)

/-- No command succeeds that reconfigures the endpoint of a current driver or disables its slot. -/
def sparingRules : Rules where
  answer s c t := t.completionCode = 1 → ∀ k, ∀ st ∈ s.driver k, c.Spares st
  change _ _ := True
  allowed _ _ := True

/-- The controller drops the transfers of a slot that is disabled. -/
def dropNotes : Notes Op Kernel (List Nat) :=
  ⟨fun _ _ dropped => dropped, fun s s' dropped => s.hw.drops s'.hw ++ dropped⟩

/-- The controller completes no transfer that it dropped. -/
def KeepsDropped (c c' : Kernel × List Nat) : Prop := ∀ id ∈ c.2, id ∈ c.1.hw.incomplete → id ∈ c'.1.hw.incomplete

/-- An atomic of a driver is changed while the driver has no state, and does not come to name the other's endpoint. -/
def Kernel.Unrouted (s : Kernel) (r : Reg) (n : Nat) : Prop :=
  ∀ k : DeviceKind, r = k.dciReg ∨ r = k.slotReg →
    s.driver k = none ∧ ∀ st ∈ s.driver k.other, ¬ (s.globals.storeReg r n).Route k st.slotId st.dci

/-- The endpoint was configured and not used since: its ring is empty, nothing is left of it, it is not that
of the EP0 ring, and the other driver's atomics do not name it. -/
structure Kernel.Configured (s : Kernel) (dropped : List Nat) (k : DeviceKind) (st : DriverState) : Prop where
  dci : st.dci ≠ 0
  other : ¬ s.globals.Route k.other st.slotId st.dci
  own : s.hw.endpoint st.ringPhys = (st.slotId, st.dci)
  fresh : st.ringPhys ∉ s.hw.transfers
  events : ∀ e ∈ s.hw.events, st.reported e = false
  sole : ∀ id ∈ s.hw.incomplete, id ∉ dropped → ∀ ring ∈ s.hw.transfers[id]?, s.hw.endpoint ring ≠ (st.slotId, st.dci)
  ep0 : ∀ ring ∈ s.xhci.map (·.ep0RingPhys), s.hw.endpoint ring ≠ (st.slotId, st.dci)

/-- What the operations that concern the drivers require. -/
def Orderly : Op → Kernel × List Nat → Prop
  | .storeReg r n, c => c.1.Unrouted r n
  | .newDriver k st, c => c.1.Configured c.2 k st
  | .setEp0Ring _ phys, c => ∀ k, ∀ st ∈ c.1.driver k, c.1.hw.endpoint phys ≠ (st.slotId, st.dci)
  | _, _ => True

/-- The machine of the main context with the transfers that were dropped. -/
def routingMachine (R : Rules) (A : Op → Kernel × List Nat → Prop) : Machine Op Ret (Kernel × List Nat) :=
  ((machine R).recorded dropNotes).restrict A KeepsDropped

/-- What the main context does, from the start. -/
abbrev RoutingSession (R : Rules) (A : Op → Kernel × List Nat → Prop) :=
  (routingMachine R A).Session MainCall.prog fun c => PowerOn c.1 ∧ c.2 = []

/-- Each report of a current driver's endpoint that is the next event is taken by that driver's `poll_*` and by
nothing else, which completes unless it finds a lock taken or the mouse leaves the range of its position; and
one TRB is outstanding of each driver whose ring was armed. -/
structure Delivering (c : Kernel × List Nat) : Prop where
  handled : ∀ k st e rest, c.1.driver k = some st → c.1.hw.events = e :: rest → st.reported e = true →
    (∀ s', runToEnd interruptHandler c.1 = some ((), s') → HandledBy k st c.1 s') ∧
    (c.1.held .xhci = false → c.1.held k.lock = false → c.1.InRange k →
      ∃ s', runToEnd interruptHandler c.1 = some ((), s'))
  outstanding : ∀ k st, c.1.driver k = some st → st.ringPhys ∈ c.1.hw.transfers → c.1.hw.outstanding c.2 st = 1

/-! ## The invariant -/

/-- The atomics of the driver name this endpoint, and those of the other do not. -/
def Globals.Names (g : Globals) (k : DeviceKind) (st : DriverState) : Prop :=
  g.Route k st.slotId st.dci ∧ ¬ g.Route k.other st.slotId st.dci

/-- No report waits, the atomics name the endpoints of the drivers, and their TRBs are accounted for. -/
structure Routed (c : Kernel × List Nat) : Prop where
  started : c.1.xhci.isSome = true
  quiet : ∀ k : DeviceKind, c.1.globals.flag k.pending = false
  names : ∀ k st, c.1.fixed k = some st → c.1.globals.Names k st
  numbered : Numbered c.1.hw c.2
  accounted : ∀ k st, c.1.fixed k = some st → Tallied c.1.hw c.2 st
  ep0 : ∀ k st, c.1.fixed k = some st → ∀ ring ∈ c.1.xhci.map (·.ep0RingPhys),
    c.1.hw.endpoint ring ≠ (st.slotId, st.dci)

/-- The driver's first TRB was put on its ring, if there is a driver. -/
def ArmedAt (k : DeviceKind) (c : Kernel × List Nat) : Prop :=
  ∀ st, c.1.fixed k = some st → st.ringPhys ∈ c.1.hw.transfers

/-- There is a driver, and its ring is still empty. -/
def UnarmedAt (k : DeviceKind) (c : Kernel × List Nat) : Prop :=
  ∃ st, c.1.fixed k = some st ∧ st.ringPhys ∉ c.1.hw.transfers

/-- A step that keeps the invariant, the drivers, their atomics and which of their rings were armed. -/
structure RoutedStep (c c' : Kernel × List Nat) : Prop where
  routed : Routed c'
  fixed : ∀ k, c'.1.fixed k = c.1.fixed k
  reg : ∀ r : Reg, r.routing = true → c'.1.globals.reg r = c.1.globals.reg r
  armed : ∀ k st, c.1.fixed k = some st → (st.ringPhys ∈ c'.1.hw.transfers ↔ st.ringPhys ∈ c.1.hw.transfers)

section Steps

variable {R : Rules} {A : Op → Kernel × List Nat → Prop} {c c' : Kernel × List Nat} {k k' : DeviceKind}
  {st st' : DriverState}

theorem other_of_ne (h : k' ≠ k) : k' = k.other := by cases k <;> cases k' <;> first | rfl | exact absurd rfl h

/-- The atomics name one endpoint. -/
theorem Globals.Route.pair {g : Globals} {slot dci slot' dci' : Nat} (h : g.Route k slot dci)
    (h' : g.Route k slot' dci') : slot = slot' ∧ dci = dci' := by
  cases k <;> exact ⟨h.2.1.trans h'.2.1.symm, h.2.2.trans h'.2.2.symm⟩

theorem route_congr {g g' : Globals} (h : ∀ r : Reg, r.routing = true → g'.reg r = g.reg r) (k : DeviceKind)
    (slot dci : Nat) : g'.Route k slot dci ↔ g.Route k slot dci := by
  cases k <;> unfold Globals.Route
  · unfold Globals.KbdRoute
    rw [h .kbdDci rfl, h .kbdSlotId rfl]
  · unfold Globals.MouseRoute
    rw [h .mouseDci rfl, h .mouseSlotId rfl]

theorem names_congr {g g' : Globals} (h : ∀ r : Reg, r.routing = true → g'.reg r = g.reg r) :
    g'.Names k st ↔ g.Names k st :=
  and_congr (route_congr h k _ _) (not_congr (route_congr h k.other _ _))

/-- Two drivers have different endpoints. -/
theorem Routed.apart (h : Routed c) (hst : c.1.fixed k = some st) (hst' : c.1.fixed k.other = some st') :
    (st.slotId, st.dci) ≠ (st'.slotId, st'.dci) := by
  intro he
  obtain ⟨hs, hc⟩ := Prod.mk.inj he
  have hroute := (h.names k.other st' hst').1
  rw [← hs, ← hc] at hroute
  exact (h.names k st hst).2 hroute

/-- A report of a driver is an event for that driver. -/
theorem Routed.target (h : Routed c) (hst : c.1.fixed k = some st) (hr : c.1.hw.events.head?.any st.reported = true) :
    c.1.target = some k := by
  obtain ⟨e, he, hre⟩ := Option.any_eq_true _ _ |>.1 hr
  obtain ⟨ht, hs, hc⟩ := reported_iff.1 hre
  obtain ⟨hroute, hother⟩ := h.names k st hst
  rw [← hs, ← hc] at hroute hother
  unfold Kernel.target
  rw [he]
  exact target_of_route ht hroute hother

/-- The event of a driver is a report of it. -/
theorem Routed.reported (h : Routed c) (hst : c.1.fixed k = some st) (ht : c.1.target = some k) :
    ∃ e ∈ c.1.hw.events.head?, st.reported e = true := by
  obtain ⟨e, he, htarget⟩ := Option.bind_eq_some_iff.1 ht
  have hroute : e.trb.trbType = 32 ∧ c.1.globals.Route k e.trb.slotId e.trb.endpointId := by
    unfold Globals.target at htarget
    split at htarget
    · rename_i h32
      refine ⟨h32, ?_⟩
      split at htarget
      · rename_i hroute
        cases htarget
        exact hroute
      · split at htarget
        · rename_i hroute
          cases htarget
          exact hroute
        · cases htarget
    · cases htarget
  exact ⟨e, he, reported_iff.2 ⟨hroute.1, hroute.2.pair (h.names k st hst).1⟩⟩

/-- A step that keeps what the routing rests on. -/
theorem Routed.keep (h : Routed c) (hx : c'.1.xhci.isSome = c.1.xhci.isSome)
    (hq : ∀ k : DeviceKind, c'.1.globals.flag k.pending = false) (hf : ∀ k, c'.1.fixed k = c.1.fixed k)
    (hr : ∀ r : Reg, r.routing = true → c'.1.globals.reg r = c.1.globals.reg r) (hn : Numbered c'.1.hw c'.2)
    (ha : ∀ k st, c.1.fixed k = some st → Tallied c'.1.hw c'.2 st)
    (he : ∀ k st, c.1.fixed k = some st → ∀ ring ∈ c'.1.xhci.map (·.ep0RingPhys),
      c'.1.hw.endpoint ring ≠ (st.slotId, st.dci)) : Routed c' where
  started := hx.trans h.started
  quiet := hq
  names k st hst := (names_congr hr).2 (h.names k st ((hf k).symm.trans hst))
  numbered := hn
  accounted k st hst := ha k st ((hf k).symm.trans hst)
  ep0 k st hst := he k st ((hf k).symm.trans hst)

/-! ## The handler and the controller -/

/-- What the handler makes of the transfers. -/
theorem handler_accounted {s' : Kernel} (h : Routed c) (hrun : runToEnd interruptHandler c.1 = some ((), s')) :
    s'.hw.endpoint = c.1.hw.endpoint ∧ s'.hw.enabled = c.1.hw.enabled ∧ Numbered s'.hw c.2 ∧
    ∀ k st, c.1.fixed k = some st →
      Tallied s'.hw c.2 st ∧ (st.ringPhys ∈ s'.hw.transfers ↔ st.ringPhys ∈ c.1.hw.transfers) := by
  -- a driver whose report the next event is not
  have hpass : ∀ k st, c.1.fixed k = some st → c.1.target ≠ some k → Tallied c.1.hw.read c.2 st :=
    fun k st hst hne => by
    refine (h.accounted k st hst).read ?_
    rw [← Bool.not_eq_true]
    exact fun hr => hne (h.target hst hr)
  rcases handler_cases h.started h.quiet hrun with ⟨ht, rfl⟩ | ⟨k, ht, ⟨hd, rfl⟩ | ⟨st, hd, t, hreport, rfl⟩⟩
  · rw [pollEventRing_hw]
    refine ⟨rfl, rfl, h.numbered.read, fun k' st' hst' => ⟨hpass k' st' hst' ?_, Iff.rfl⟩⟩
    rw [ht]
    nofun
  · rw [show (c.1.taken k).hw = c.1.hw.read from pollEventRing_hw c.1]
    refine ⟨rfl, rfl, h.numbered.read, fun k' st' hst' => ⟨hpass k' st' hst' ?_, Iff.rfl⟩⟩
    rw [ht]
    rintro ⟨⟩
    obtain ⟨d, hd', -⟩ := driver_fixed hst'
    rw [hd] at hd'
    cases hd'
  · obtain ⟨-, -, -, hhw, -, hdriver⟩ := handleReport_frame hreport
    have hd' : t.driver k = some st := by
      rw [hdriver]
      cases k <;> exact hd
    have hw : (t.enqueueReport k).hw =
      Kernel.queued c.1.hw.read st.ringPhys (Kernel.reportTrb st.cycleState st.reportBufPhys) := by
      rw [enqueueReport_hw hd', hhw, ← pollEventRing_hw]
      rfl
    have hst := fixed_driver hd
    obtain ⟨e, he, hr⟩ := h.reported hst ht
    rw [hw]
    refine ⟨queued_endpoint _ _ _, ?_, h.numbered.read.queue _ _, fun k' st' hst' => ?_⟩
    · obtain ⟨ts, is, hq⟩ := queued_frame c.1.hw.read st.ringPhys (Kernel.reportTrb st.cycleState st.reportBufPhys)
      rw [hq]
      rfl
    · by_cases hk : k' = k
      · subst hk
        obtain rfl : st.fixed = st' := Option.some.inj (hst.symm.trans hst')
        refine ⟨(h.accounted k' _ hst').rearm h.numbered (reportTrb_ioc _ _) he hr, ?_⟩
        have hmem := (h.accounted k' _ hst').of_reported (List.mem_of_mem_head? he) hr
        rw [queued_ioc (reportTrb_ioc _ _)]
        exact ⟨fun _ => hmem, fun _ => List.mem_append_left _ hmem⟩
      · have hne : c.1.hw.endpoint st.ringPhys ≠ (st'.slotId, st'.dci) := by
          obtain rfl := other_of_ne hk
          rw [show c.1.hw.endpoint st.ringPhys = (st.slotId, st.dci) from (h.accounted k _ hst).own]
          have hne := h.apart hst hst'
          exact hne
        have hring : st'.ringPhys ≠ st.ringPhys := by
          intro he
          rw [← he] at hne
          exact hne (h.accounted k' st' hst').own
        refine ⟨(hpass k' st' hst' ?_).queue h.numbered.read _ hne, mem_queued hring _⟩
        rw [ht]
        rintro ⟨⟩
        exact hk rfl

/-- What a command that succeeds leaves to the driver. -/
theorem assigns_spares {cmd : Command} {t : Trb} {endpoint : Nat → Nat × Nat} (h : t.completionCode = 1 → cmd.Spares st)
    (hown : endpoint st.ringPhys = (st.slotId, st.dci)) :
    cmd.assigns t endpoint st.ringPhys = (st.slotId, st.dci) ∧
    ∀ ring, cmd.assigns t endpoint ring = (st.slotId, st.dci) → endpoint ring = (st.slotId, st.dci) := by
  unfold Command.assigns
  split
  · rename_i hsets
    obtain ⟨hring, hpair⟩ := (h hsets.1).1 hsets.2
    refine ⟨?_, fun ring he => ?_⟩
    · rw [Function.update_of_ne hring.symm]
      exact hown
    · by_cases hk : ring = cmd.input.ring
      · subst hk
        rw [Function.update_self] at he
        exact absurd (Prod.mk.inj he) hpair
      · rwa [Function.update_of_ne hk] at he
  · exact ⟨hown, fun _ he => he⟩

theorem enables_spares {cmd : Command} {t : Trb} {enabled : Nat → Bool} (h : t.completionCode = 1 → cmd.Spares st) :
    (enabled st.slotId && !cmd.enables t enabled st.slotId) = false := by
  have hself : (enabled st.slotId && !enabled st.slotId) = false := Bool.and_not_self _
  unfold Command.enables
  split
  · by_cases hk : st.slotId = t.slotId
    · rw [hk, Function.update_self, Bool.not_true, Bool.and_false]
    · rwa [Function.update_of_ne hk]
  · split
    · rename_i hdis
      rwa [Function.update_of_ne ((h hdis.1).2 hdis.2).symm]
    · exact hself

theorem answer_accounted {hw : Controller} {dropped : List Nat} {id : Nat} {cmd : Command} {t : Trb}
    (ht : t.trbType = 33) (hs : t.completionCode = 1 → cmd.Spares st) (h : Tallied hw dropped st) :
    Tallied (hw.answer id cmd t) (hw.drops (hw.answer id cmd t) ++ dropped) st := by
  have hdrop : Tallied hw (hw.drops (hw.answer id cmd t) ++ dropped) st := h.drop (enables_spares hs)
  have hpost := hdrop.post [⟨t, .command id⟩] fun e he => by
    rw [List.mem_singleton.1 he]
    show t.trbType ≠ 32
    rw [ht]
    decide
  obtain ⟨hown, hep⟩ := assigns_spares hs h.own
  exact hpost.congr rfl rfl rfl hown hep

theorem portChange_accounted {hw : Controller} {dropped : List Nat} {p : Nat} {port : Port} {t : Trb}
    (ht : t.trbType = 34) (h : Tallied hw dropped st) : Tallied (hw.portChange p port t) dropped st := by
  unfold Controller.portChange
  split
  · exact h.congr rfl rfl rfl h.own fun _ he => he
  · have hpost := h.post [⟨t, .port p⟩] fun e he => by
      rw [List.mem_singleton.1 he]
      show t.trbType ≠ 32
      rw [ht]
      decide
    exact hpost.congr rfl rfl rfl h.own fun _ he => he

/-- What the surroundings make of the transfers. -/
theorem env_accounted (h : Routed c) (he : (routingMachine sparingRules A).env c c') : Numbered c'.1.hw c'.2 ∧
    ∀ k st, c.1.fixed k = some st → Tallied c'.1.hw c'.2 st ∧
      (st.ringPhys ∈ c'.1.hw.transfers ↔ st.ringPhys ∈ c.1.hw.transfers) ∧
      ∀ ring, c'.1.hw.endpoint ring = (st.slotId, st.dci) → c.1.hw.endpoint ring = (st.slotId, st.dci) := by
  obtain ⟨s', dropped'⟩ := c'
  obtain ⟨⟨hs, hdropped⟩, hkept⟩ := he
  change dropped' = c.1.hw.drops s'.hw ++ c.2 at hdropped
  subst hdropped
  -- no slot is disabled
  have hsame : s'.hw.enabled = c.1.hw.enabled → c.1.hw.drops s'.hw ++ c.2 = c.2 :=
    fun he => by rw [drops_enabled he]; rfl
  cases hs with
  | interrupt _ hrun =>
    obtain ⟨hendpoint, henabled, hn, ha⟩ := handler_accounted h hrun
    rw [hsame henabled]
    refine ⟨hn, fun k st hst => ⟨(ha k st hst).1, (ha k st hst).2, fun ring hr => ?_⟩⟩
    rw [← hendpoint]
    exact hr
  | @answer id cmd t ht _ _ _ hr =>
    refine ⟨(h.numbered.drop _).congr rfl rfl, fun k st hst => ?_⟩
    obtain ⟨d, hd, rfl⟩ := driver_fixed hst
    have hspares : t.completionCode = 1 → cmd.Spares d.fixed := fun hcode => hr hcode k d hd
    exact ⟨answer_accounted ht hspares (h.accounted k _ hst), Iff.rfl,
      (assigns_spares hspares (h.accounted k _ hst).own).2⟩
  | @complete id ring t ht hid hring hep =>
    rw [hsame rfl]
    have hlive : id ∉ c.2 := fun hd => by
      have hm := (List.mem_filter.1 (hkept id hd hid)).2
      exact of_decide_eq_true hm rfl
    exact ⟨h.numbered.complete id t, fun k st hst =>
      ⟨(h.accounted k st hst).complete h.numbered ht hid hlive hring hep, Iff.rfl, fun _ hr => hr⟩⟩
  | connect _ _ ht | disconnect _ ht =>
    rw [hsame rfl]
    exact ⟨h.numbered.congr rfl rfl,
      fun k st hst => ⟨portChange_accounted ht (h.accounted k st hst), Iff.rfl, fun _ hr => hr⟩⟩
  | dma =>
    rw [hsame rfl]
    exact ⟨h.numbered, fun k st hst => ⟨h.accounted k st hst, Iff.rfl, fun _ hr => hr⟩⟩

theorem env_routed (h : Routed c) (he : (routingMachine sparingRules A).env c c') : RoutedStep c c' := by
  obtain ⟨hn, ha⟩ := env_accounted h he
  have hs : Env sparingRules c.1 c'.1 := he.1.1
  have hx := (env_unmoved hs).xhci
  refine ⟨h.keep (congrArg _ hx) (env_quiet hs h.quiet) (env_fixed hs) (fun _ => env_routing hs) hn
    (fun k st hst => (ha k st hst).1) fun k st hst ring hring hown => ?_, env_fixed hs, fun _ => env_routing hs,
    fun k st hst => (ha k st hst).2.1⟩
  rw [hx] at hring
  exact h.ep0 k st hst ring hring ((ha k st hst).2.2 ring hown)

/-! ## The main context -/

/-- The operations that leave the drivers, their atomics and their rings alone. -/
def Op.routine : Op → Bool
  | .newDriver _ _ | .dropDriver _ | .pollEventRing | .enqueueReport _ => false
  | .storeReg r _ => !r.routing
  | .storeFlag f _ | .swapFlag f _ => f ≠ .kbdReportPending ∧ f ≠ .mouseReportPending
  | _ => true

theorem routine_of_minor {o : Op} (h : o.minor = true) : o.routine = true := by
  cases o
  case storeFlag f b => cases f <;> first | rfl | cases h
  case swapFlag f b => cases f <;> first | rfl | cases h
  case storeReg r n => cases h
  all_goals first | rfl | cases h

theorem routine_of_beside {o : Op} (h : o.beside = true) : o.routine = true := by
  cases o
  case storeFlag f b => cases f <;> first | rfl | cases h
  case swapFlag f b => cases f <;> first | rfl | cases h
  case storeReg r n => cases h
  all_goals first | rfl | cases h

theorem routing_exec {o : Op} {r : Ret o} (he : (routingMachine R A).exec o c = some (r, c')) :
    c.1.exec o = some (r, c'.1) ∧ c'.2 = c.2 := Machine.recorded_exec (M := machine R) (N := dropNotes) he

/-- What a routine operation makes of the transfers. -/
theorem exec_accounted {o : Op} {r : Ret o} {s' : Kernel} (h : Routed c) (ho : o.routine = true)
    (he : c.1.exec o = some (r, s')) : Numbered s'.hw c.2 ∧ ∀ k st, c.1.fixed k = some st →
      Tallied s'.hw c.2 st ∧ (st.ringPhys ∈ s'.hw.transfers ↔ st.ringPhys ∈ c.1.hw.transfers) := by
  have hk := exec_keeps he
  -- a TRB on the EP0 ring is the only transfer that a routine operation queues
  by_cases hep0 : ∃ p status control, o = .ep0EnqueueTrb p status control
  · obtain ⟨p, status, control, rfl⟩ := hep0
    obtain ⟨x, hx, he⟩ := Option.map_eq_some_iff.1 he
    cases he
    refine ⟨h.numbered.queue _ _, fun k st hst => ?_⟩
    have hne : c.1.hw.endpoint x.ep0RingPhys ≠ (st.slotId, st.dci) := by
      refine h.ep0 k st hst x.ep0RingPhys ?_
      rw [hx]
      rfl
    refine ⟨(h.accounted k st hst).queue h.numbered _ hne, mem_queued ?_ _⟩
    intro heq
    rw [← heq] at hne
    exact hne (h.accounted k st hst).own
  · have hreport : ∀ k, o ≠ .enqueueReport k := by
      rintro k rfl
      cases ho
    have hpoll : o ≠ .pollEventRing := by
      rintro rfl
      cases ho
    obtain ⟨htransfers, hincomplete⟩ := hk.transfers (fun p st c he => hep0 ⟨p, st, c, he⟩) hreport
    refine ⟨h.numbered.congr hincomplete htransfers, fun k st hst => ⟨?_, by rw [htransfers]⟩⟩
    have ha := h.accounted k st hst
    refine ha.congr hincomplete htransfers (hk.events hpoll).1 ?_ fun ring hr => ?_
    · rw [hk.endpoint]
      exact ha.own
    · rw [← hk.endpoint]
      exact hr

theorem exec_routed {o : Op} {r : Ret o} (h : Routed c) (ho : o.routine = true) (ha : Orderly o c)
    (he : (routingMachine R A).exec o c = some (r, c')) : RoutedStep c c' := by
  obtain ⟨s', dropped'⟩ := c'
  obtain ⟨hx, hd⟩ := routing_exec he
  change c.1.exec o = some (r, s') at hx
  change dropped' = c.2 at hd
  subst hd
  have hk := exec_keeps hx
  have hne : ∀ o', o'.routine = false → o ≠ o' := fun o' h' h => by rw [h, h'] at ho; cases ho
  have hf := exec_fixed (fun _ _ => hne _ rfl) (fun _ => hne _ rfl) hx
  have hreg : ∀ r : Reg, r.routing = true → s'.globals.reg r = c.1.globals.reg r := by
    intro r' hr'
    refine hk.reg r' (fun n => hne _ ?_) (hne _ rfl)
    show (!r'.routing) = false
    rw [hr']
    rfl
  obtain ⟨hn, hacc⟩ := exec_accounted h ho hx
  -- the flags and the atomics by `exec_keeps`; of the EP0 ring only `address_device` changes which one it is
  refine ⟨h.keep hk.xhci (fun k => ?_) hf hreg hn (fun k st hst => (hacc k st hst).1) fun k st hst ring hring => ?_,
    hf, hreg, fun k st hst => (hacc k st hst).2⟩
  · refine (hk.flag k.pending (fun b => hne _ ?_) (fun b => hne _ ?_) (hne _ rfl)).trans (h.quiet k)
    · cases k <;> rfl
    · cases k <;> rfl
  · show s'.hw.endpoint ring ≠ _
    rw [hk.endpoint]
    by_cases hset : ∃ v p, o = .setEp0Ring v p
    · obtain ⟨v, p, rfl⟩ := hset
      obtain ⟨x, -, he⟩ := Option.map_eq_some_iff.1 hx
      cases he
      cases hring
      obtain ⟨d, hd, rfl⟩ := driver_fixed hst
      exact ha k d hd
    · rw [show s'.xhci.map (·.ep0RingPhys) = _ from hk.ep0 fun v p he => hset ⟨v, p, he⟩] at hring
      exact h.ep0 k st hst ring hring

/-- An assertion that such steps keep, besides the invariant. -/
theorem framed_routed {P : Kernel × List Nat → Prop} (hP : ∀ c c', RoutedStep c c' → P c → P c') :
    (routingMachine sparingRules Orderly).Framed (fun o => o.routine = true) fun c => Routed c ∧ P c where
  stable c c' h he := ⟨(env_routed h.1 he).routed, hP c c' (env_routed h.1 he) h.2⟩
  frame _ c _ c' ho ha he h := ⟨(exec_routed h.1 ho ha.2 he).routed, hP c c' (exec_routed h.1 ho ha.2 he) h.2⟩

theorem RoutedStep.armedAt (h : RoutedStep c c') (ha : ArmedAt k c) : ArmedAt k c' := fun st hst => by
  rw [h.fixed] at hst
  exact (h.armed k st hst).2 (ha st hst)

theorem RoutedStep.unarmedAt (h : RoutedStep c c') (ha : UnarmedAt k c) : UnarmedAt k c' := by
  obtain ⟨st, hst, hn⟩ := ha
  exact ⟨st, (h.fixed k).trans hst, fun hm => hn ((h.armed k st hst).1 hm)⟩

end Steps

/-! ## Delivery -/

/-- What the invariant says of a state. -/
theorem Routed.delivering {c : Kernel × List Nat} (h : Routed c) : Delivering c := by
  constructor
  · intro k st e rest hd hevents hr
    have ht : c.1.target = some k := h.target (fixed_driver hd) (by rw [hevents]; exact hr)
    constructor
    · intro s' hrun
      -- the event is for this driver, so the first two cases of what the handler did are out
      rcases handler_cases h.started h.quiet hrun with ⟨ht', -⟩ | ⟨k', ht', hcase⟩
      · rw [ht] at ht'
        cases ht'
      · rw [ht] at ht'
        cases ht'
        rcases hcase with ⟨hnone, -⟩ | ⟨st', hd', hhandled⟩
        · rw [hd] at hnone
          cases hnone
        · rw [hd] at hd'
          cases hd'
          exact hhandled
    · intro hx hl hrange
      have hd' : (c.1.taken k).driver k = some st := by cases k <;> exact hd
      have hrange' : (c.1.taken k).InRange k := by cases k <;> exact hrange
      -- conversely: with its locks free and the mouse in range, no step of the handler is blocked
      obtain ⟨t, hreport⟩ := handleReport_some hd' hrange'
      refine ⟨t.enqueueReport k, ?_⟩
      rw [handler_target h.started h.quiet hx ht, if_neg (by rw [hl]; nofun), hd]
      exact congrArg (Option.map _) hreport
  · exact fun k st hd hm => (h.accounted k _ (fixed_driver hd)).armed hm

/-! ## `init_*` and `shutdown_*` -/

/-- Between the calls: every driver is armed. -/
def Resting (c : Kernel × List Nat) : Prop := Routed c ∧ ∀ k, ArmedAt k c

section Stages

variable {s : Kernel} {dropped : List Nat} {k : DeviceKind} {st : DriverState} {r : Reg} {n : Nat}

theorem driverReg_ne {k k' : DeviceKind} (hk : k' ≠ k) (hr : r = k.dciReg ∨ r = k.slotReg) :
    k'.slotReg ≠ r ∧ k'.dciReg ≠ r := by
  rcases hr with rfl | rfl <;> cases k <;> cases k' <;> first | exact absurd rfl hk | exact ⟨nofun, nofun⟩

theorem route_iff (g : Globals) (k : DeviceKind) (slot dci : Nat) :
    g.Route k slot dci ↔ g.reg k.dciReg ≠ 0 ∧ slot = g.reg k.slotReg ∧ dci = g.reg k.dciReg := by
  cases k <;> exact Iff.rfl

/-- A store to an atomic of a driver that has no state. -/
theorem Resting.storeReg (h : Resting (s, dropped)) (hr : r = k.dciReg ∨ r = k.slotReg) (ha : s.Unrouted r n) :
    Resting ({ s with globals := s.globals.storeReg r n }, dropped) := by
  obtain ⟨hnone, hother⟩ := ha k hr
  refine ⟨⟨h.1.started, h.1.quiet, fun k' st hst => ?_, h.1.numbered, h.1.accounted, h.1.ep0⟩, h.2⟩
  obtain ⟨d, hd, rfl⟩ := driver_fixed hst
  change s.driver k' = some d at hd
  have hk : k' ≠ k := by
    rintro rfl
    rw [hnone] at hd
    cases hd
  obtain ⟨hslot, hdci⟩ := driverReg_ne hk hr
  obtain rfl := other_of_ne hk
  refine ⟨?_, ?_⟩
  · have hroute := (h.1.names _ _ hst).1
    rw [route_iff] at hroute ⊢
    rw [show (s.globals.storeReg r n).reg k.other.dciReg = _ from storeReg_other hdci,
      show (s.globals.storeReg r n).reg k.other.slotReg = _ from storeReg_other hslot]
    exact hroute
  · rw [show k.other.other = k by cases k <;> rfl]
    exact hother d hd

/-- The state of an endpoint that was just configured: no TRB of it is outstanding. -/
theorem Kernel.Configured.accounted (h : s.Configured dropped k st) : Tallied s.hw dropped st.fixed := by
  refine ⟨⟨h.own, fun id hid hd ring hring hep => ?_⟩, ?_⟩
  · exact absurd hep (h.sole id hid hd ring hring)
  · have hqueued : s.hw.incomplete.countP (fun id => s.hw.transfers[id]? = some st.ringPhys ∧ id ∉ dropped) = 0 := by
      refine List.countP_eq_zero.2 fun id hid hlive => ?_
      obtain ⟨hring, hd⟩ := of_decide_eq_true hlive
      exact h.sole id hid hd _ hring h.own
    have hevents : s.hw.events.countP st.reported = 0 := List.countP_eq_zero.2 fun e he => by rw [h.events e he]; nofun
    show _ + _ = if st.ringPhys ∈ s.hw.transfers then 1 else 0
    rw [if_neg h.fresh]
    exact congrArg₂ _ hqueued hevents

theorem newDriver_frame (s : Kernel) (st : DriverState) (k : DeviceKind) : (s.newDriver st k).hw = s.hw ∧
    (s.newDriver st k).xhci = s.xhci := by
  cases k <;> exact ⟨rfl, rfl⟩

theorem dropDriver_frame (s : Kernel) (k : DeviceKind) :
    (s.dropDriver k).hw = s.hw ∧ (s.dropDriver k).xhci = s.xhci := by
  cases k <;> exact ⟨rfl, rfl⟩

/-- `init_*` stores its state once the atomics name the endpoint. -/
theorem Resting.newDriver (h : Resting (s, dropped)) (hc : s.Configured dropped k st)
    (hreg : s.globals.reg k.dciReg = st.dci ∧ s.globals.reg k.slotReg = st.slotId) :
    Routed (s.newDriver st k, dropped) ∧ UnarmedAt k (s.newDriver st k, dropped) ∧
      ArmedAt k.other (s.newDriver st k, dropped) := by
  obtain ⟨hhw, hx⟩ := newDriver_frame s st k
  have hg := newDriver_globals s st k
  -- what holds of the new state and of the drivers there were
  have hall : ∀ {P : DeviceKind → DriverState → Prop}, P k st.fixed → (∀ k' st', s.fixed k' = some st' → P k' st') →
      ∀ k' st', (s.newDriver st k).fixed k' = some st' → P k' st' := by
    intro P hnew hold k' st' hst
    rw [newDriver_fixed] at hst
    split at hst
    · rename_i hk
      cases hst
      rw [hk]
      exact hnew
    · exact hold k' st' hst
  refine ⟨⟨?_, fun k' => ?_, hall ?_ ?_, ?_, hall ?_ ?_, hall ?_ ?_⟩, ⟨st.fixed, ?_, ?_⟩, fun st' hst => ?_⟩
  · show (s.newDriver st k).xhci.isSome = true
    rw [hx]
    exact h.1.started
  · show (s.newDriver st k).globals.flag k'.pending = false
    rw [hg]
    exact h.1.quiet k'
  · show (s.newDriver st k).globals.Names k st.fixed
    rw [hg]
    refine ⟨(route_iff _ _ _ _).2 ⟨?_, hreg.2.symm, hreg.1.symm⟩, hc.other⟩
    rw [hreg.1]
    exact hc.dci
  · intro k' st' hst
    show (s.newDriver st k).globals.Names k' st'
    rw [hg]
    exact h.1.names k' st' hst
  · show Numbered (s.newDriver st k).hw dropped
    rw [hhw]
    exact h.1.numbered
  · show Tallied (s.newDriver st k).hw dropped st.fixed
    rw [hhw]
    exact hc.accounted
  · intro k' st' hst
    show Tallied (s.newDriver st k).hw dropped st'
    rw [hhw]
    exact h.1.accounted k' st' hst
  · show ∀ ring ∈ (s.newDriver st k).xhci.map _, (s.newDriver st k).hw.endpoint ring ≠ (st.slotId, st.dci)
    rw [hhw, hx]
    exact hc.ep0
  · intro k' st' hst
    show ∀ ring ∈ (s.newDriver st k).xhci.map _, (s.newDriver st k).hw.endpoint ring ≠ (st'.slotId, st'.dci)
    rw [hhw, hx]
    exact h.1.ep0 k' st' hst
  · exact (newDriver_fixed s st k k).trans (if_pos rfl)
  · show st.ringPhys ∉ (s.newDriver st k).hw.transfers
    rw [hhw]
    exact hc.fresh
  · show st'.ringPhys ∈ (s.newDriver st k).hw.transfers
    rw [hhw]
    refine h.2 k.other st' ?_
    rw [show (s.newDriver st k).fixed k.other = _ from newDriver_fixed s st k k.other, if_neg (other_ne k)] at hst
    exact hst

theorem Resting.dropDriver (h : Resting (s, dropped)) (k : DeviceKind) : Resting (s.dropDriver k, dropped) := by
  obtain ⟨hhw, hx⟩ := dropDriver_frame s k
  have hg := dropDriver_globals s k
  -- a driver that is there afterwards was there before; nothing else is looked at
  have hold : ∀ k' st', (s.dropDriver k).fixed k' = some st' → s.fixed k' = some st' := by
    intro k' st' hst
    rw [dropDriver_fixed] at hst
    split at hst
    · cases hst
    · exact hst
  refine ⟨⟨?_, fun k' => ?_, fun k' st hst => ?_, ?_, fun k' st hst => ?_, fun k' st hst => ?_⟩, fun k' st hst => ?_⟩
  · show (s.dropDriver k).xhci.isSome = true
    rw [hx]
    exact h.1.started
  · show (s.dropDriver k).globals.flag k'.pending = false
    rw [hg]
    exact h.1.quiet k'
  · show (s.dropDriver k).globals.Names k' st
    rw [hg]
    exact h.1.names k' st (hold k' st hst)
  · show Numbered (s.dropDriver k).hw dropped
    rw [hhw]
    exact h.1.numbered
  · show Tallied (s.dropDriver k).hw dropped st
    rw [hhw]
    exact h.1.accounted k' st (hold k' st hst)
  · show ∀ ring ∈ (s.dropDriver k).xhci.map _, (s.dropDriver k).hw.endpoint ring ≠ _
    rw [hhw, hx]
    exact h.1.ep0 k' st (hold k' st hst)
  · show st.ringPhys ∈ (s.dropDriver k).hw.transfers
    rw [hhw]
    exact h.2 k' st (hold k' st hst)

/-- `arm_next_report` puts the first TRB on the ring. -/
theorem Routed.arm (h : Routed (s, dropped)) (hu : UnarmedAt k (s, dropped)) (ho : ArmedAt k.other (s, dropped)) :
    Resting (s.enqueueReport k, dropped) := by
  obtain ⟨_, hst, hfresh⟩ := hu
  obtain ⟨d, hd, rfl⟩ := driver_fixed hst
  change s.driver k = some d at hd
  have hk := keeps_enqueueReport (s := s) k
  have hhw := enqueueReport_hw hd
  have hown := h.accounted k _ hst
  have hzero : s.hw.outstanding dropped d.fixed = 0 := hown.count.trans (if_neg hfresh)
  -- the TRB is not one of the other driver's
  have hother : ∀ st', s.fixed k.other = some st' → s.hw.endpoint d.ringPhys ≠ (st'.slotId, st'.dci) := by
    intro st' hst'
    have hne := h.apart hst hst'
    rw [show s.hw.endpoint d.ringPhys = (d.slotId, d.dci) from hown.own]
    exact hne
  refine ⟨h.keep hk.xhci (fun k' => ?_) (enqueueReport_fixed k) (fun r _ => hk.reg r nofun nofun) ?_
    (fun k' st' hst' => ?_)
    fun k' st' hst' ring hring => ?_, fun k' st' hst' => ?_⟩
  · exact (hk.flag k'.pending nofun nofun nofun).trans (h.quiet k')
  · show Numbered (s.enqueueReport k).hw dropped
    rw [hhw]
    exact h.numbered.queue _ _
  · show Tallied (s.enqueueReport k).hw dropped st'
    rw [hhw]
    by_cases he : k' = k
    · subst he
      obtain rfl : d.fixed = st' := Option.some.inj (hst.symm.trans hst')
      exact hown.toSoleRing.arm h.numbered (reportTrb_ioc _ _) hzero
    · obtain rfl := other_of_ne he
      exact (h.accounted _ st' hst').queue h.numbered _ (hother st' hst')
  · show (s.enqueueReport k).hw.endpoint ring ≠ _
    rw [hk.endpoint]
    rw [show (s.enqueueReport k).xhci.map (·.ep0RingPhys) = _ from hk.ep0 nofun] at hring
    exact h.ep0 k' st' hst' ring hring
  · rw [show (s.enqueueReport k).fixed k' = _ from enqueueReport_fixed k k'] at hst'
    show st'.ringPhys ∈ (s.enqueueReport k).hw.transfers
    rw [hhw, queued_ioc (reportTrb_ioc _ _)]
    by_cases he : k' = k
    · subst he
      obtain rfl : d.fixed = st' := Option.some.inj (hst.symm.trans hst')
      exact List.mem_append_right _ (List.mem_singleton.2 rfl)
    · obtain rfl := other_of_ne he
      exact List.mem_append_left _ (ho st' hst')

/-- `shutdown_*` clears its pending flag. -/
theorem Resting.storeFlag (h : Resting (s, dropped)) (f : Flag) :
    Resting ({ s with globals := s.globals.storeFlag f false }, dropped) := by
  refine ⟨⟨h.1.started, fun k => ?_, h.1.names, h.1.numbered, h.1.accounted, h.1.ep0⟩, h.2⟩
  by_cases hf : k.pending = f
  · subst hf
    exact Function.update_self _ _ _
  · exact (storeFlag_other hf).trans (h.1.quiet k)

end Stages

section Calls

theorem steady_routed {P : Kernel × List Nat → Prop} (hP : ∀ c c', RoutedStep c c' → P c → P c') :
    Steady (routingMachine sparingRules Orderly) Delivering fun c => Routed c ∧ P c where
  framed := (framed_routed hP).mono fun _ => routine_of_minor
  safe _ h := h.1.delivering

theorem framed_resting : (routingMachine sparingRules Orderly).Framed (fun o => o.routine = true) Resting :=
  framed_routed fun _ _ hs h k => hs.armedAt (h k)

theorem steady_resting : Steady (routingMachine sparingRules Orderly) Delivering Resting :=
  steady_routed fun _ _ hs h k => hs.armedAt (h k)

/-- Where an operation that is not blocked leads. -/
theorem routing_exec_eq {R : Rules} {A : Op → Kernel × List Nat → Prop} {o : Op} {r r' : Ret o}
    {c c' : Kernel × List Nat} {t : Kernel} (he : (routingMachine R A).exec o c = some (r, c'))
    (hx : c.1.exec o = some (r', t)) : c' = (t, c.2) := by
  obtain ⟨hx', hd⟩ := routing_exec he
  exact Prod.ext (Prod.mk.inj (Option.some.inj (hx'.symm.trans hx))).2 hd

theorem initDriver_resting (k : DeviceKind) (message : String) (slotId : Nat) (ep : EndpointHandle)
    (interfaceNumber : Nat) :
    (routingMachine sparingRules Orderly).Spec Resting (initDriver k message slotId ep interfaceNumber)
      (fun _ => Resting) Delivering := by
  -- what is known between two stages is about the atomics and the armed rings, which no step in between changes
  have hdciReg : ∀ r : Reg, r.routing = true → ∀ n : Nat, ∀ c c' : Kernel × List Nat, RoutedStep c c' →
      ((∀ k, ArmedAt k c) ∧ c.1.globals.reg r = n) → (∀ k, ArmedAt k c') ∧ c'.1.globals.reg r = n :=
    fun r hr n c c' hs h => ⟨fun k => hs.armedAt (h.1 k), (hs.reg r hr).trans h.2⟩
  have hrest := steady_resting
  have hdci := steady_routed (hdciReg k.dciReg (dciReg_routing k) ep.dci)
  have hboth := steady_routed (P := fun c => (∀ k, ArmedAt k c) ∧ c.1.globals.reg k.dciReg = ep.dci ∧
    c.1.globals.reg k.slotReg = slotId) fun c c' hs h => ⟨fun k => hs.armedAt (h.1 k),
      (hs.reg _ (dciReg_routing k)).trans h.2.1, (hs.reg _ (slotReg_routing k)).trans h.2.2⟩
  have hnew := steady_routed (P := fun c => UnarmedAt k c ∧ ArmedAt k.other c) fun c c' hs h =>
    ⟨hs.unarmedAt h.1, hs.armedAt h.2⟩
  refine initDriver_spec hrest (fun _ => hrest) (fun _ => hdci) (fun _ => hboth) hnew ?_ ?_ ?_ ?_ ?_
  · exact fun c virt c' h ha he => framed_resting.frame (.boxNew (.bytes 8)) c virt c' rfl ha he h
  · intro _ c r c' h ha he
    obtain rfl := routing_exec_eq he rfl
    obtain ⟨hrouted, harmed⟩ := Resting.storeReg h (.inl rfl) ha.2
    exact ⟨hrouted, harmed, Function.update_self _ _ _⟩
  · intro _ c r c' h ha he
    obtain rfl := routing_exec_eq he rfl
    obtain ⟨hrouted, harmed⟩ := Resting.storeReg ⟨h.1, h.2.1⟩ (.inr rfl) ha.2
    refine ⟨hrouted, harmed, (storeReg_other ?_).trans h.2.2, Function.update_self _ _ _⟩
    cases k <;> nofun
  · intro _ _ c r c' h ha he
    obtain rfl := routing_exec_eq he rfl
    exact Resting.newDriver ⟨h.1, h.2.1⟩ ha.2 h.2.2
  · -- the state was stored by the stage before, so there is a driver whose ring gets its first TRB
    refine armNextReport_spec hnew hrest (fun c c' h he => ?_) fun c r c' h _ he => ?_
    · obtain ⟨hx, -⟩ := routing_exec he
      obtain ⟨st, hst, -⟩ := h.2.1
      obtain ⟨d, hd, -⟩ := driver_fixed hst
      rw [show c.1.driver k = none from (Prod.mk.inj (Option.some.inj hx)).1] at hd
      cases hd
    · obtain rfl := routing_exec_eq he rfl
      exact Routed.arm h.1 h.2.1 h.2.2

theorem shutdownDriver_resting (k : DeviceKind) (slotId : Nat) :
    (routingMachine sparingRules Orderly).Spec Resting (shutdownDriver k slotId) (fun _ => Resting) Delivering := by
  have hs := steady_resting
  have hget : ∀ c d c', Resting c → (routingMachine sparingRules Orderly).exec (.getDriver k) c =
    some (d, c') → Resting c' :=
    fun c d c' h he => framed_resting.frame (.getDriver k) c d c' rfl ⟨trivial, trivial⟩ he h
  refine shutdownDriver_spec hs (fun _ => hs) (fun _ => hs) (fun _ => hs) hs hs hs ?_ ?_ ?_ ?_ ?_ ?_ ?_ ?_
  · exact fun c c' h he => hget c none c' h he
  · exact fun st c c' h he _ => hget c (some st) c' h he
  · exact fun st c c' h he _ => hget c (some st) c' h he
  · intro _ c r c' h _ he
    obtain rfl := routing_exec_eq he rfl
    exact Resting.dropDriver h k
  · exact fun st c r c' h ha he => framed_resting.frame (.boxFree st.reportBufVirt) c r c' rfl ha he h
  · intro _ c r c' h ha he
    obtain rfl := routing_exec_eq he rfl
    exact Resting.storeReg h (.inl rfl) ha.2
  · intro c r c' h ha he
    obtain rfl := routing_exec_eq he rfl
    exact Resting.storeReg h (.inr rfl) ha.2
  · intro c r c' h _ he
    obtain rfl := routing_exec_eq he rfl
    exact Resting.storeFlag h k.pending

theorem composed_resting :
    Composed fun p => (routingMachine sparingRules Orderly).Spec Resting p (fun _ => Resting) Delivering where
  beside hp := framed_resting.spec (hp.mono fun _ => routine_of_beside) fun _ h => h.1.delivering
  bind hp hf := Machine.spec_bind hp hf
  init := initDriver_resting
  shutdown := shutdownDriver_resting

theorem powerOn_resting {c : Kernel × List Nat} (h : PowerOn c.1 ∧ c.2 = []) : Resting c := by
  obtain ⟨s, dropped⟩ := c
  obtain ⟨hp, hdropped⟩ := h
  change dropped = [] at hdropped
  subst hdropped
  -- there is no driver yet, so all but the flags and the numbers of the transfers is vacuous
  have hnone : ∀ k st, s.fixed k ≠ some st := by
    intro k st hst
    obtain ⟨d, hd, -⟩ := driver_fixed hst
    cases k with
    | keyboard =>
      rw [Kernel.driver, hp.kbd] at hd
      cases hd
    | mouse =>
      rw [Kernel.driver, hp.mouse] at hd
      cases hd
  refine ⟨⟨hp.xhci, fun k => ?_, fun k st hst => absurd hst (hnone k st), ⟨?_, fun id hid => ?_, fun id hid => ?_⟩,
    fun k st hst => absurd hst (hnone k st), fun k st hst => absurd hst (hnone k st)⟩,
      fun k st hst => absurd hst (hnone k st)⟩
  · show s.globals.flag k.pending = false
    rw [hp.globals]
    rfl
  · show s.hw.incomplete.Nodup
    rw [hp.transfers.2]
    exact List.nodup_nil
  · rw [show s.hw.incomplete = [] from hp.transfers.2] at hid
    cases hid
  · cases hid

end Calls

/-- If the atomics of a driver are only stored while it has no state, and do not come to name the other driver's
endpoint, if `init_*` stores the state of an endpoint that was configured and not used since, and if no
command reconfigures the endpoint of a current driver or disables its slot, then in every state
reached, between the calls of the main context and within them, the handler delivers the reports; and
between the calls each driver has one TRB outstanding. -/
theorem reports_delivered {hist : List (Machine.Return (Kernel × List Nat) MainCall.Result)}
    {c c' : Kernel × List Nat} {i : MainCall} {p : KProg i.Result} (h : RoutingSession sparingRules Orderly hist c)
    (hr : (routingMachine sparingRules Orderly).Runs (i.prog, c) (p, c')) :
    Delivering c' ∧ ∀ k st, c.1.driver k = some st → c.1.hw.outstanding c.2 st = 1 := by
  have hc : Resting c :=
    h.invariant (fun _ => powerOn_resting) framed_resting.stable fun i => (composed_resting.prog i).triple
  refine ⟨(composed_resting.prog i).throughout c hc _ hr, fun k st hd => ?_⟩
  have hst := fixed_driver hd
  exact (hc.1.accounted k _ hst).armed (hc.2 k _ hst)

/-! ## Schedules -/

instance {p : DeviceKind → Prop} [DecidablePred p] : Decidable (∀ k, p k) :=
  decidable_of_iff (p .keyboard ∧ p .mouse) ⟨fun h k => k.casesOn h.1 h.2, fun h => ⟨h _, h _⟩⟩

instance (g : Globals) (k : DeviceKind) (slot dci : Nat) : Decidable (g.Route k slot dci) :=
  match k with
  | .keyboard => inferInstanceAs (Decidable (g.KbdRoute slot dci))
  | .mouse => inferInstanceAs (Decidable (g.MouseRoute slot dci))

instance (c : Command) (st : DriverState) : Decidable (c.Spares st) := inferInstanceAs (Decidable (_ ∧ _))

instance : sparingRules.Decide :=
  ⟨fun s c t => inferInstanceAs (Decidable (t.completionCode = 1 → ∀ k, ∀ st ∈ s.driver k, c.Spares st)),
    fun _ _ => isTrue trivial, fun _ _ => isTrue trivial⟩

instance : DecidableRel KeepsDropped := fun c c' =>
  inferInstanceAs (Decidable (∀ id ∈ c.2, id ∈ c.1.hw.incomplete → id ∈ c'.1.hw.incomplete))

instance (s : Kernel) (r : Reg) (n : Nat) : Decidable (s.Unrouted r n) :=
  inferInstanceAs (Decidable (∀ k : DeviceKind, r = k.dciReg ∨ r = k.slotReg →
    s.driver k = none ∧ ∀ st ∈ s.driver k.other, ¬ (s.globals.storeReg r n).Route k st.slotId st.dci))

instance (s : Kernel) (dropped : List Nat) (k : DeviceKind) (st : DriverState) :
    Decidable (s.Configured dropped k st) :=
  decidable_of_iff (st.dci ≠ 0 ∧ ¬ s.globals.Route k.other st.slotId st.dci ∧
    s.hw.endpoint st.ringPhys = (st.slotId, st.dci) ∧
      st.ringPhys ∉ s.hw.transfers ∧ (∀ e ∈ s.hw.events, st.reported e = false) ∧
      (∀ id ∈ s.hw.incomplete, id ∉ dropped → ∀ ring ∈ s.hw.transfers[id]?, s.hw.endpoint ring ≠ (st.slotId, st.dci)) ∧
      ∀ ring ∈ s.xhci.map (·.ep0RingPhys), s.hw.endpoint ring ≠ (st.slotId, st.dci))
    ⟨fun ⟨h1, h2, h3, h4, h5, h6, h7⟩ => ⟨h1, h2, h3, h4, h5, h6, h7⟩, fun h => ⟨h.1, h.2, h.3, h.4, h.5, h.6, h.7⟩⟩

/-- The atomic that an operation writes. -/
def Op.written : Op → Option (Reg × Nat)
  | .storeReg r n => some (r, n)
  | _ => none

/-- The ring that becomes the EP0 ring. -/
def Op.ep0Given : Op → Option Nat
  | .setEp0Ring _ phys => some phys
  | _ => none

theorem orderly_iff {o : Op} {c : Kernel × List Nat} :
    ((∀ p ∈ o.written, c.1.Unrouted p.1 p.2) ∧ (∀ p ∈ o.stored, c.1.Configured c.2 p.1 p.2) ∧
      ∀ phys ∈ o.ep0Given, ∀ k, ∀ st ∈ c.1.driver k, c.1.hw.endpoint phys ≠ (st.slotId, st.dci)) ↔ Orderly o c := by
  cases o <;> simp [Op.written, Op.stored, Op.ep0Given, Orderly]

instance (o : Op) (c : Kernel × List Nat) : Decidable (Orderly o c) := decidable_of_iff _ orderly_iff

/-- `reports_delivered` with a keyboard on the only port, after boot. -/
theorem reports_delivered_keyboard : ∃ hist c, RoutingSession sparingRules Orderly hist c ∧
    (∃ st, c.1.driver .keyboard = some st ∧ st.slotId = 1 ∧ c.1.hw.outstanding c.2 st = 1) ∧ Delivering c := by
  have hplay : (playRestricted sparingRules dropNotes Orderly KeepsDropped
      (plugIn 14 0 0 1 0x14000 (hidInterface 0 1 0x81) ++ ops 19)
      (discoverAndInitHidDevices, (Kernel.start 1 fun _ => ⟨true, false, 1, 0⟩, []))).map
      (fun r => returned r.1 && decide ((r.2.1.driver .keyboard).map (·.slotId) = some 1)) = some true := by
        decide +kernel
  obtain ⟨⟨p, c⟩, hp, ht⟩ := Option.map_eq_some_iff.1 hplay
  cases p with
  | op o k => cases ht
  | ret a =>
    obtain ⟨st, hd, hslot⟩ := Option.map_eq_some_iff.1 (of_decide_eq_true ht)
    have hs : RoutingSession sparingRules Orderly _ c := Machine.Session.call
      (.boot ⟨powerOn_start (by decide) _ fun _ => rfl, rfl⟩) MainCall.discoverAndInitHidDevices
        (playRestricted_sound hp)
    obtain ⟨hdelivering, hone⟩ := reports_delivered hs (i := .discoverAndInitHidDevices) .refl
    exact ⟨_, c, hs, ⟨st, hd, hslot, hone .keyboard st hd⟩, hdelivering⟩

/-- The handler that takes a report puts a TRB on a ring. -/
theorem HandledBy.transfers {k : DeviceKind} {st : DriverState} {s s' : Kernel} (hd : s.driver k = some st)
    (h : HandledBy k st s s') : s'.hw.transfers.length = s.hw.transfers.length + 1 := by
  obtain ⟨t, hreport, rfl⟩ := h
  obtain ⟨-, -, -, hhw, -, hdriver⟩ := handleReport_frame hreport
  have hd' : t.driver k = some st := by
    rw [hdriver]
    cases k <;> exact hd
  rw [enqueueReport_hw hd', queued_ioc (reportTrb_ioc _ _), hhw, show (s.taken k).hw =
    s.hw.read from pollEventRing_hw s]
  exact List.length_append

/-- A keyboard on each of two ports: while `init_keyboard` of the second is between its stores and its state, a
report of the first is an event for nobody, and its ring is not armed again. -/
theorem report_lost : ¬ ∀ (hist : List (Machine.Return (Kernel × List Nat) MainCall.Result)) (c : Kernel × List Nat),
    RoutingSession Rules.any (fun _ _ => True) hist c → ∀ (i : MainCall) (p : KProg i.Result) (c' : Kernel × List Nat),
      (routingMachine Rules.any fun _ _ => True).Runs (i.prog, c) (p, c') → Delivering c' := by
  have hplay : (playRestricted Rules.any dropNotes (fun _ _ => True) KeepsDropped
      (plugIn 15 0 0 1 81920 (hidInterface 0 1 0x81) ++ plugIn 25 3 5 2 114688 (hidInterface 0 1 0x81) ++ ops 6 ++
        [.complete 4 (transferTrb 1 1 3)])
      (MainCall.discoverAndInitHidDevices.prog, (Kernel.start 2 fun _ => ⟨true, false, 1, 0⟩, []))).map
      (fun r => r.2.1.hw.events.head?.any (fun e => (r.2.1.driver .keyboard).any (·.reported e)) &&
        (runToEnd interruptHandler r.2.1).any fun h => h.2.hw.transfers.length = r.2.1.hw.transfers.length) =
          some true := by
    decide +kernel
  obtain ⟨⟨p, c⟩, hp, ht⟩ := Option.map_eq_some_iff.1 hplay
  obtain ⟨hreport, hrun⟩ := (Bool.and_eq_true _ _).mp ht
  obtain ⟨e, he, hreport⟩ := (Option.any_eq_true _ _).1 hreport
  obtain ⟨st, hd, hreport⟩ := (Option.any_eq_true _ _).1 hreport
  obtain ⟨⟨⟨⟩, s'⟩, hrun, hlength⟩ := (Option.any_eq_true _ _).1 hrun
  obtain ⟨rest, hevents⟩ := List.head?_eq_some_iff.1 he
  intro hall
  have hdelivering := hall [] _ (.boot ⟨powerOn_start (by decide) _ fun _ => rfl, rfl⟩) .discoverAndInitHidDevices p c
    (playRestricted_sound hp)
  have hmore := HandledBy.transfers hd ((hdelivering.handled .keyboard st e rest hd hevents hreport).1 s' hrun)
  rw [of_decide_eq_true hlength] at hmore
  omega

end Octagram.Usb

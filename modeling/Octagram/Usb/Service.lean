/-
Registered devices and the reports the handler takes: with one device of each class, every
registered device is served (`registered_devices_served`); a second device of a class silences the
first (`second_keyboard_silences`). The invariant is `Claimed`: at most one entry of each class,
with a driver on its slot, and different endpoints. It is carried through the loops over the ports
by `Carried` of `Drivers`; that the handler takes the report where driver, atomics and locks are
right is `Attended.serves`.
-/
import Octagram.Usb.Locks
import Octagram.Usb.Reports

namespace Octagram.Usb

open Octagram.Lib

/-! ## Definitions -/

/-- The state with these events unread. -/
def Kernel.withEvents (s : Kernel) (events : List Event) : Kernel := { s with hw := { s.hw with events := events } }

/-- The next Transfer Event of the slot is a report for the driver: the handler takes it. -/
def Kernel.Served (s : Kernel) (slotId : Nat) (k : DeviceKind) : Prop :=
  ∃ st, s.driver k = some st ∧ st.slotId = slotId ∧ ∀ e rest, e.trb.trbType = 32 → e.trb.slotId = st.slotId →
    e.trb.endpointId = st.dci → ∃ s', runToEnd interruptHandler (s.withEvents (e :: rest)) = some ((), s') ∧
      HandledBy k st (s.withEvents (e :: rest)) s'

/-- No registered device has the class, and the other driver has another endpoint. -/
def Kernel.FirstOfClass (s : Kernel) (k : DeviceKind) (st : DriverState) : Prop :=
  (∀ e ∈ s.activePorts, e.has k = false) ∧ ∀ st' ∈ s.driver k.other, ¬ (st'.slotId = st.slotId ∧ st'.dci = st.dci)

instance (s : Kernel) (k : DeviceKind) (st : DriverState) : Decidable (s.FirstOfClass k st) :=
  inferInstanceAs (Decidable (_ ∧ _))

/-- `init_*` only stores the state of the first device of a class. -/
def serviceRules : Rules where
  answer _ _ _ := True
  change _ _ := True
  allowed
    | .newDriver k st, s => s.FirstOfClass k st
    | _, _ => True

theorem serviceRules_allowed {o : Op} {s : Kernel} :
    (∀ p ∈ o.stored, s.FirstOfClass p.1 p.2) ↔ serviceRules.allowed o s := by
  cases o <;> simp [Op.stored, serviceRules]

instance : serviceRules.Decide where
  answer _ _ _ := isTrue trivial
  change _ _ := isTrue trivial
  allowed _ _ := decidable_of_iff _ serviceRules_allowed

/-! ## Entries and drivers -/

/-- The entries `l` of each class, at most one, have a driver on their slot, and the drivers have different
endpoints. -/
structure Claimed (active : List ActivePort) (l : DeviceKind → List ActivePort) (s : Kernel) : Prop where
  registry : s.activePorts = active
  started : s.xhci.isSome = true
  served : ∀ k, ∀ e ∈ l k, e.has k = true → ∃ st, s.fixed k = some st ∧ st.slotId = e.slotId
  apart : ∀ k st st', s.fixed k = some st → s.fixed k.other = some st' → ¬ (st'.slotId = st.slotId ∧ st'.dci = st.dci)
  single : ∀ k, (l k).countP (·.has k) ≤ 1

section Claims

variable {active : List ActivePort} {l : DeviceKind → List ActivePort} {s s' : Kernel} {k : DeviceKind}

theorem Claimed.congr (h : Claimed active l s) (hr : s'.activePorts = s.activePorts)
    (hx : s'.xhci.isSome = s.xhci.isSome) (hf : ∀ k, s'.fixed k = s.fixed k) : Claimed active l s' := by
  refine ⟨hr.trans h.registry, hx.trans h.started, fun k e hm hk => ?_, fun k st st' => ?_, h.single⟩
  · rw [hf]
    exact h.served k e hm hk
  · rw [hf, hf]
    exact h.apart k st st'

theorem framed_claimed (R : Rules) (active : List ActivePort) (l : DeviceKind → List ActivePort) :
    Framed R Op.bystander (Claimed active l) where
  stable _ _ h he := h.congr (env_unmoved he).activePorts (congrArg _ (env_unmoved he).xhci) (env_fixed he)
  frame _ _ _ _ ho he h := by
    obtain ⟨hf, -, -, ha⟩ := exec_bystander ho he
    exact h.congr ha (exec_keeps he).xhci hf

theorem has_serve (e : ActivePort) (k k' : DeviceKind) : (e.serve (some k)).has k' = (k' == k || e.has k') := by
  cases k <;> cases k' <;> rfl

theorem serve_slotId (e : ActivePort) (k : Option DeviceKind) : (e.serve k).slotId = e.slotId := by
  cases k with
  | none => rfl
  | some k => cases k <;> rfl

/-- The first device of a class gets its driver. -/
theorem Claimed.newDriver {e : ActivePort} {st : DriverState} (h : Claimed active (fun _ => active ++ [e]) s)
    (hfirst : s.FirstOfClass k st) (hslot : st.slotId = e.slotId) :
    Claimed active (fun _ => active ++ [e.serve (some k)]) (s.newDriver st k) := by
  obtain ⟨hnone, hpair⟩ := hfirst
  rw [h.registry] at hnone
  refine ⟨?_, ?_, ?_, ?_, ?_⟩
  · rw [newDriver_activePorts]
    exact h.registry
  · rw [show (s.newDriver st k).xhci = s.xhci by cases k <;> rfl]
    exact h.started
  · -- the new entry is on the slot of the new state, and no older one is of the class
    intro k' e' hm hk'
    rw [newDriver_fixed]
    by_cases hk : k' = k
    · subst hk
      rw [if_pos rfl]
      refine ⟨_, rfl, ?_⟩
      rcases List.mem_append.1 hm with hm | hm
      · rw [hnone e' hm] at hk'
        cases hk'
      · rw [List.mem_singleton.1 hm, serve_slotId]
        exact hslot
    · rw [if_neg hk]
      rcases List.mem_append.1 hm with hm | hm
      · exact h.served k' e' (List.mem_append_left _ hm) hk'
      · obtain rfl := List.mem_singleton.1 hm
        rw [has_serve, beq_false_of_ne hk] at hk'
        rw [serve_slotId]
        exact h.served k' e (List.mem_append_right _ (List.mem_singleton.2 rfl)) hk'
  · -- the endpoints differ, as the condition says of the new state
    intro k' st₁ st₂ h₁ h₂
    rw [newDriver_fixed] at h₁ h₂
    by_cases hk : k' = k
    · subst hk
      rw [if_pos rfl] at h₁
      rw [if_neg (other_ne k')] at h₂
      obtain ⟨st', hst', rfl⟩ := driver_fixed h₂
      cases h₁
      exact hpair st' hst'
    · rw [if_neg hk] at h₁
      have hk' : k'.other = k := by cases k <;> cases k' <;> first | rfl | exact absurd rfl hk
      rw [if_pos hk'] at h₂
      cases h₂
      obtain ⟨st', hst', rfl⟩ := driver_fixed h₁
      have ho : k.other = k' := by rw [← hk']; cases k' <;> rfl
      rw [← ho] at hst'
      exact fun hp => hpair st' hst' ⟨hp.1.symm, hp.2.symm⟩
  · intro k'
    have hs := h.single k'
    rw [List.countP_append, List.countP_singleton] at hs ⊢
    rw [has_serve]
    by_cases hk : k' = k
    · subst hk
      rw [List.countP_eq_zero.2 fun e' hm => by rw [hnone e' hm]; nofun]
      split <;> omega
    · rwa [beq_false_of_ne hk, Bool.false_or]

theorem initDriver_claimed (active : List ActivePort) (e : ActivePort) (k : DeviceKind) (message : String)
    (ep : EndpointHandle) (interfaceNumber : Nat) :
    (machine serviceRules).Triple (Claimed active fun _ => active ++ [e])
      (initDriver k message e.slotId ep interfaceNumber)
      fun _ => Claimed active fun _ => active ++ [e.serve (some k)] := by
  have hs := framed_claimed serviceRules active fun _ => active ++ [e]
  have hs' := framed_claimed serviceRules active fun _ => active ++ [e.serve (some k)]
  refine (initDriver_spec hs.steady (fun _ => hs.steady) (fun _ => hs.steady) (fun _ => hs.steady) hs'.steady ?_ ?_
    ?_ ?_ ?_).triple
  · exact fun s virt s' h _ he => hs.frame (.boxNew (.bytes 8)) s virt s' rfl he h
  · intro virt s r s' h _ he
    cases he
    exact h.congr rfl rfl fun _ => rfl
  · intro virt s r s' h _ he
    cases he
    exact h.congr rfl rfl fun _ => rfl
  · intro virt phys s r s' h ha he
    cases he
    exact h.newDriver ha rfl
  · exact armNextReport_spec hs'.steady hs'.steady (fun s s' h he => hs'.frame (.getDriver k) s none s' rfl he h)
      fun s r s' h _ he => hs'.frame (.enqueueReport k) s r s' rfl he h

/-- Fewer entries. -/
theorem Claimed.remove {kept rest : List ActivePort} {entry : ActivePort} (hl : l k = kept ++ entry :: rest)
    (h : Claimed active l s) : Claimed active (Function.update l k (kept ++ rest)) s := by
  have hsub : (kept ++ rest).Sublist (l k) := by
    rw [hl]
    exact (List.Sublist.refl kept).append (List.sublist_cons_self entry rest)
  refine ⟨h.registry, h.started, fun k' e hm hk' => ?_, h.apart, fun k' => ?_⟩
  · by_cases hk : k' = k
    · subst hk
      rw [Function.update_self] at hm
      exact h.served k' e (hsub.mem hm) hk'
    · rw [Function.update_of_ne hk] at hm
      exact h.served k' e hm hk'
  · by_cases hk : k' = k
    · subst hk
      rw [Function.update_self]
      exact hsub.countP_le.trans (h.single k')
    · rw [Function.update_of_ne hk]
      exact h.single k'

/-- Without the only entry of its class, no entry needs the driver. -/
theorem Claimed.last {kept rest : List ActivePort} {entry : ActivePort} (hl : l k = kept ++ entry :: rest)
    (hk : entry.has k = true) (h : Claimed active l s) :
    ∀ e ∈ Function.update l k (kept ++ rest) k, e.has k = false := by
  have hs := h.single k
  rw [hl, List.countP_append, List.countP_cons, if_pos hk] at hs
  have hzero : (kept ++ rest).countP (·.has k) = 0 := by
    rw [List.countP_append]
    omega
  rw [Function.update_self]
  exact fun e hm => (Bool.not_eq_true _).mp (List.countP_eq_zero.1 hzero e hm)

theorem Claimed.dropDriver (h : Claimed active l s) (hnone : ∀ e ∈ l k, e.has k = false) :
    Claimed active l (s.dropDriver k) := by
  refine ⟨?_, ?_, fun k' e hm hk' => ?_, fun k' st st' h₁ h₂ => ?_, h.single⟩
  · rw [dropDriver_activePorts]
    exact h.registry
  · rw [show (s.dropDriver k).xhci = s.xhci by cases k <;> rfl]
    exact h.started
  · rw [dropDriver_fixed]
    by_cases hk : k' = k
    · subst hk
      rw [hnone e hm] at hk'
      cases hk'
    · rw [if_neg hk]
      exact h.served k' e hm hk'
  · rw [dropDriver_fixed] at h₁ h₂
    split at h₁
    · cases h₁
    · split at h₂
      · cases h₂
      · exact h.apart k' st st' h₁ h₂

theorem shutdownDriver_claimed {R : Rules} {slotId : Nat} (hnone : ∀ e ∈ l k, e.has k = false) :
    (machine R).Triple (Claimed active l) (shutdownDriver k slotId) fun _ => Claimed active l := by
  have hs := framed_claimed R active l
  refine (shutdownDriver_spec hs.steady (fun _ => hs.steady) (fun _ => hs.steady)
    (fun _ => hs.steady) hs.steady hs.steady
    hs.steady ?_ ?_ ?_ ?_ ?_ ?_ ?_ ?_).triple
  · exact fun s s' h he => hs.frame (.getDriver k) s none s' rfl he h
  · exact fun st s s' h he _ => hs.frame (.getDriver k) s (some st) s' rfl he h
  · exact fun st s s' h he _ => hs.frame (.getDriver k) s (some st) s' rfl he h
  · intro st s r s' h _ he
    cases he
    exact h.dropDriver hnone
  · exact fun st s r s' h _ he => hs.frame (.boxFree st.reportBufVirt) s r s' rfl he h
  · intro st s r s' h _ he
    cases he
    exact h.congr rfl rfl fun _ => rfl
  · intro s r s' h _ he
    cases he
    exact h.congr rfl rfl fun _ => rfl
  · intro s r s' h _ he
    cases he
    exact h.congr rfl rfl fun _ => rfl

theorem onlyIf_claimed {R : Rules} {kept rest : List ActivePort} {entry : ActivePort}
    (hl : l k = kept ++ entry :: rest) :
    (machine R).Triple (Claimed active l) (onlyIf (entry.has k) (shutdownDriver k entry.slotId))
      fun _ => Claimed active (Function.update l k (kept ++ rest)) := by
  cases hk : entry.has k with
  | false => exact Machine.triple_ret (framed_claimed R active l).stable fun s h => h.remove hl
  | true =>
    intro s h
    exact shutdownDriver_claimed (h.last hl hk) s (h.remove hl)

end Claims

/-! ## Outside of `discover_and_init_hid_devices` -/

/-- The registry, the drivers, the atomics and the entries agree. -/
def Attended (active : List ActivePort) (l : DeviceKind → List ActivePort) (s : Kernel) : Prop :=
  Settled active l s ∧ Claimed active l s

theorem carried_attended : Carried serviceRules Attended where
  framed active l :=
    ⟨(framed_settled active l).stable.and (framed_claimed _ active l).stable, fun o s r s' ho he h =>
      ⟨(framed_settled (R := serviceRules) active l).frame o s r s' ho he h.1,
        (framed_claimed serviceRules active l).frame o s r s' ho he h.2⟩⟩
  registry h := h.1.active
  setActive active' h :=
    ⟨carried_settled.setActive (R := serviceRules) active' h.1, rfl, h.2.started, h.2.served, h.2.apart, h.2.single⟩
  enter {active s} rootPort slotId h := by
    refine ⟨carried_settled.enter (R := serviceRules) rootPort slotId h.1, h.2.registry, h.2.started,
      fun k e hm hk => ?_, h.2.apart, fun k => ?_⟩
    · rcases List.mem_append.1 hm with hm | hm
      · exact h.2.served k e hm hk
      · rw [List.mem_singleton.1 hm] at hk
        cases k <;> cases hk
    · have hs := h.2.single k
      rw [List.countP_append, List.countP_singleton, if_neg (by cases k <;> nofun)]
      exact hs
  init active e k message ep interfaceNumber hdci :=
    (carried_settled.init active e k message ep interfaceNumber hdci).and
      (initDriver_claimed active e k message ep interfaceNumber)
  shutdown active l kept entry rest k hl :=
    (carried_settled.shutdown active l kept entry rest k hl).and (onlyIf_claimed hl)

/-- Interrupts are on, the locks of the handler are free, and the drivers serve the registry. -/
def Attending (s : Kernel) : Prop := (∃ l, Attended l (fun _ => l) s) ∧ s.control.Clear

theorem idleCall_disciplined (i : IdleCall) : Disciplined False i.prog := by
  cases i with
  | discoverAndInitHidDevices => exact discoverAndInitHidDevices_disciplined
  | swapPortChangePending => exact disciplined_act rfl fun _ => disciplined_ret _
  | xhciIsSome => exact disciplined_act rfl fun _ => disciplined_ret _

theorem session_attending {hist : List (Machine.Return Kernel fun _ : IdleCall => Unit)} {s : Kernel}
    (h : DriverSession serviceRules hist s) : Attending s := by
  refine h.invariant (fun s hb => ⟨⟨[], ?_, ?_⟩, powerOn_clear hb⟩) ?_ fun i =>
    (carried_attended.idleCall i).and (triple_clear (idleCall_disciplined i))
  · obtain ⟨l, hl⟩ := powerOn_agreeing hb
    rw [show l = [] from hl.active.symm.trans hb.activePorts] at hl
    exact hl
  · refine ⟨hb.activePorts, hb.xhci, fun _ e hm => absurd hm List.not_mem_nil, fun k st st' hst => ?_,
      fun _ => Nat.zero_le _⟩
    obtain ⟨d, hd, -⟩ := driver_fixed hst
    cases k with
    | keyboard =>
      rw [Kernel.driver, hb.kbd] at hd
      cases hd
    | mouse =>
      rw [Kernel.driver, hb.mouse] at hd
      cases hd
  · exact carried_attended.stable.and (clear_stable serviceRules)

/-- No event of a driver's endpoint is taken for one of the other's. -/
theorem Attended.route {active : List ActivePort} {l : DeviceKind → List ActivePort} {s : Kernel} {k : DeviceKind}
    {st : DriverState} (h : Attended active l s) (hd : s.driver k = some st) :
    s.globals.Route k st.slotId st.dci ∧ ¬ s.globals.Route k.other st.slotId st.dci := by
  obtain ⟨hsettled, hclaimed⟩ := h
  obtain ⟨hs, hc, hne, -⟩ := (hsettled.attached k).some st hd
  constructor
  · rw [← hc] at hne
    cases k <;> exact ⟨hne, hs.symm, hc.symm⟩
  · rintro hroute
    cases ho : s.driver k.other with
    | none =>
      have hz := (hsettled.attached k.other).none ho
      cases k <;> exact hroute.1 hz
    | some st' =>
      obtain ⟨hs', hc', -, -⟩ := (hsettled.attached k.other).some st' ho
      refine hclaimed.apart k _ _ (fixed_driver hd) (fixed_driver ho) ?_
      cases k <;> exact ⟨hs'.symm.trans hroute.2.1.symm, hc'.symm.trans hroute.2.2.symm⟩

/-- With its driver attached and its locks free, the handler takes the report. -/
theorem Attended.serves {active : List ActivePort} {l : DeviceKind → List ActivePort} {s : Kernel} {k : DeviceKind}
    {st : DriverState} (h : Attended active l s) (hfree : s.control.Free) (hd : s.driver k = some st) (hr : s.InRange k)
    {e : Event} {rest : List Event} (ht : e.trb.trbType = 32) (hslot : e.trb.slotId = st.slotId)
    (hdci : e.trb.endpointId = st.dci) :
    ∃ s', runToEnd interruptHandler (s.withEvents (e :: rest)) = some ((), s') ∧
      HandledBy k st (s.withEvents (e :: rest)) s' := by
  obtain ⟨hroute, hother⟩ := h.route hd
  rw [← hslot, ← hdci] at hroute hother
  have htarget : (s.withEvents (e :: rest)).target = some k := target_of_route ht hroute hother
  have hrun := handler_target (s := s.withEvents (e :: rest)) h.2.started h.1.quiet (hfree .xhci nofun) htarget
  rw [if_neg (by rw [show (s.withEvents (e :: rest)).held k.lock = false from hfree _ (lock_ne k)]; nofun),
    show (s.withEvents (e :: rest)).driver k = some st by cases k <;> exact hd] at hrun
  have hd' : ((s.withEvents (e :: rest)).taken k).driver k = some st := by cases k <;> exact hd
  have hr' : ((s.withEvents (e :: rest)).taken k).InRange k := by cases k <;> exact hr
  obtain ⟨t, hreport⟩ := handleReport_some hd' hr'
  refine ⟨t.enqueueReport k, hrun.trans ?_, t, hreport, rfl⟩
  exact congrArg (Option.map _) hreport

/-- If `init_*` only stores the state of the first device of a class, then outside of
`discover_and_init_hid_devices` every registered device of the class is served: its driver has a state for its
slot, and the handler hands the next Transfer Event of that endpoint to the driver, which reads the report and
re-arms the endpoint (for a mouse that stays in range). -/
theorem registered_devices_served {hist : List (Machine.Return Kernel fun _ : IdleCall => Unit)} {s : Kernel}
    (h : DriverSession serviceRules hist s) {e : ActivePort} (he : e ∈ s.activePorts) {k : DeviceKind}
    (hk : e.has k = true) (hr : s.InRange k) : s.Served e.slotId k := by
  obtain ⟨⟨l, hl⟩, hclear⟩ := session_attending h
  rw [hl.1.active] at he
  obtain ⟨d, hd, hslot⟩ := hl.2.served k e he hk
  obtain ⟨st, hst, rfl⟩ := driver_fixed hd
  exact ⟨st, hst, hslot, fun _ _ ht hs hc => hl.serves hclear.free hst hr ht hs hc⟩

/-- `registered_devices_served` after boot with a keyboard on the only port. -/
theorem registered_devices_served_keyboard :
    ∃ hist s, DriverSession serviceRules hist s ∧ s.activePorts = [⟨1, 1, true, false⟩] ∧ s.Served 1 .keyboard := by
  obtain ⟨⟨⟩, s, hr, ht⟩ := exists_run (R := serviceRules) (plugIn 14 0 0 1 0x14000 (hidInterface 0 1 0x81) ++ ops 19)
    discoverAndInitHidDevices (Kernel.start 1 fun _ => ⟨true, false, 1, 0⟩)
    (fun _ s => s.activePorts = [⟨1, 1, true, false⟩]) (by decide +kernel)
  have hs : DriverSession serviceRules _ s := Machine.Session.call (.boot (powerOn_start (by decide) _ fun _ => rfl))
    IdleCall.discoverAndInitHidDevices hr
  have hactive := of_decide_eq_true ht
  have he : (⟨1, 1, true, false⟩ : ActivePort) ∈ s.activePorts := by
    rw [hactive]
    exact List.mem_singleton.2 rfl
  exact ⟨_, s, hs, hactive, registered_devices_served hs he (k := .keyboard) rfl trivial⟩

/-- A keyboard on each of two ports: `init_keyboard` of the second replaces the state of the first, whose
reports no one takes from then on. -/
theorem second_keyboard_silences : ¬ ∀ (hist : List (Machine.Return Kernel fun _ : IdleCall => Unit)) (s : Kernel),
    DriverSession Rules.any hist s → ∀ e ∈ s.activePorts, ∀ k, e.has k = true → s.Served e.slotId k := by
  obtain ⟨⟨⟩, s, hr, ht⟩ := exists_run (R := Rules.any)
    (plugIn 15 0 0 1 81920 (hidInterface 0 1 0x81) ++ plugIn 25 3 5 2 114688 (hidInterface 0 1 0x81) ++ ops 19)
    discoverAndInitHidDevices (Kernel.start 2 fun _ => ⟨true, false, 1, 0⟩)
    (fun _ s => s.activePorts = [⟨1, 1, true, false⟩, ⟨2, 2, true, false⟩] ∧
      (s.driver .keyboard).map (·.slotId) = some 2)
    (by decide +kernel)
  obtain ⟨hactive, hslot⟩ := of_decide_eq_true ht
  have hs : DriverSession Rules.any _ s := Machine.Session.call (.boot (powerOn_start (by decide) _ fun _ => rfl))
    IdleCall.discoverAndInitHidDevices hr
  intro hall
  have he : (⟨1, 1, true, false⟩ : ActivePort) ∈ s.activePorts := by
    rw [hactive]
    exact List.mem_cons_self ..
  obtain ⟨st, hst, h1, -⟩ := hall _ s hs _ he .keyboard rfl
  rw [hst] at hslot
  have h2 : st.slotId = 2 := Option.some.inj hslot
  rw [show st.slotId = 1 from h1] at h2
  cases h2

end Octagram.Usb

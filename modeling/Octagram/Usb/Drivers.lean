/-
The states of the two drivers, the atomics that route reports to them and the registry: outside of
`discover_and_init_hid_devices` and the handler they agree, and no report waits
(`driver_never_dangles`). Between two stages of `init_*` or `shutdown_*` the driver's own atomics
may disagree with its state (`Attaching`); once it is over they agree again (`Settled`). What of
that an assertion about the registry needs to be carried through the loops over the ports is
`Carried`, which `Service` uses for another one.
-/
import Octagram.Usb.Lifecycle
import Octagram.Usb.Schedule

namespace Octagram.Usb

open Octagram.Lib

/-! ## Definitions -/

/-- The steps of the idle loop, one by one, so that the main context is outside of
`discover_and_init_hid_devices` between any two of them. -/
inductive IdleCall
  | swapPortChangePending | xhciIsSome | discoverAndInitHidDevices

/-- The body of a step. -/
def IdleCall.prog : IdleCall → KProg Unit
  | swapPortChangePending => do
    let _ ← swapFlag .portChangePending false
    pure ()
  | xhciIsSome => do
    let _ ← Usb.xhciIsSome
    pure ()
  | discoverAndInitHidDevices => Usb.discoverAndInitHidDevices

/-- Boot and the idle loop, step by step. -/
abbrev DriverSession (R : Rules) := (machine R).Session IdleCall.prog PowerOn

/-- `has_keyboard` or `has_mouse`. -/
def ActivePort.has (e : ActivePort) : DeviceKind → Bool
  | .keyboard => e.hasKeyboard
  | .mouse => e.hasMouse

/-- `poll_event_ring` takes an event of this endpoint for a report of the driver. -/
def Globals.Route (g : Globals) : DeviceKind → Nat → Nat → Prop
  | .keyboard => g.KbdRoute
  | .mouse => g.MouseRoute

/-- The fields that `init_*` sets and a report leaves alone. -/
def DriverState.fixed (st : DriverState) : DriverState := { st with enqueueIndex := 0, cycleState := true }

/-- These fields of a driver's state, if there is one. -/
def Kernel.fixed (s : Kernel) (k : DeviceKind) : Option DriverState := (s.driver k).map DriverState.fixed

/-- The driver, the atomics that route to it and the entries `l` agree. -/
structure Attached (l : List ActivePort) (k : DeviceKind) (s : Kernel) : Prop where
  some : ∀ st, s.driver k = some st → s.globals.reg k.slotReg = st.slotId ∧ s.globals.reg k.dciReg = st.dci ∧
    st.dci ≠ 0 ∧ ∃ e ∈ l, e.slotId = st.slotId ∧ e.has k = true
  none : s.driver k = none → s.globals.reg k.dciReg = 0

/-- The registry is `active`, no report waits, and each driver agrees with its entries `l`. -/
structure Settled (active : List ActivePort) (l : DeviceKind → List ActivePort) (s : Kernel) : Prop where
  active : s.activePorts = active
  quiet : ∀ k : DeviceKind, s.globals.flag k.pending = false
  attached : ∀ k, Attached (l k) k s

/-! ## Steps -/

section Steps

variable {R : Rules} {s s' : Kernel}

theorem enqueueReport_fixed (k k' : DeviceKind) : (s.enqueueReport k).fixed k' = s.fixed k' := by
  cases h : s.driver k with
  | none =>
    unfold Kernel.enqueueReport
    rw [h]
  | some st =>
    unfold Kernel.enqueueReport
    rw [h]
    show ((s.modifyDriver _ k).driver k').map DriverState.fixed = (s.driver k').map DriverState.fixed
    rw [driver_modify]
    split
    · rename_i hk
      subst hk
      rw [h]
      rfl
    · rfl

/-- Only `init_*` and `shutdown_*` change what a report leaves alone. -/
theorem exec_fixed {o : Op} {r : Ret o} (hnew : ∀ k st, o ≠ .newDriver k st) (hdrop : ∀ k, o ≠ .dropDriver k)
    (he : s.exec o = some (r, s')) (k : DeviceKind) : s'.fixed k = s.fixed k := by
  cases o
  all_goals simp only [Kernel.exec] at he
  case newDriver => exact absurd rfl (hnew _ _)
  case dropDriver => exact absurd rfl (hdrop _)
  case panic => cases he
  case lock l site =>
    split at he
    · cases he
    · cases he
      rfl
  case getXhci | setEp0Ring | sendCommand | ep0EnqueueTrb =>
    obtain ⟨x, hx, he⟩ := Option.map_eq_some_iff.1 he
    cases he
    rfl
  -- what is left always has an answer; only the reports write to a driver's state, and not to these fields
  all_goals cases he
  case boxNew b => cases b <;> rfl
  case enqueueReport k' => exact enqueueReport_fixed k' k
  case setLastKeycodes l =>
    cases k <;> unfold Kernel.fixed Kernel.driver
    · cases s.kbd <;> rfl
    · rfl
  case setMousePos x y b =>
    cases k <;> unfold Kernel.fixed Kernel.driver
    · rfl
    · cases s.mouse <;> rfl
  all_goals rfl

/-- The operations of the handler. -/
def Op.handler : Op → Bool
  | .xhciIsSome | .pollEventRing => true
  | o => o.driver

theorem handler_of_driver {o : Op} (h : o.driver = true) : o.handler = true := by
  cases o <;> first | rfl | exact h

theorem interruptHandler_ops : interruptHandler.All fun o => o.handler = true := by
  have hd : (pollKeyboard >>= fun _ => pollMouse).All fun o => o.handler = true :=
    ((pollDriver_driver .keyboard handleKeyboardReport_report).bind fun _ =>
      pollDriver_driver .mouse handleMouseReport_report).mono fun _ => handler_of_driver
  rw [interruptHandler_eq]
  refine ⟨rfl, fun b => ?_⟩
  cases b with
  | true => exact ⟨rfl, fun _ => ⟨rfl, fun _ => ⟨rfl, fun _ => hd⟩⟩⟩
  | false => exact hd

theorem env_fixed (h : Env R s s') (k : DeviceKind) : s'.fixed k = s.fixed k := by
  cases h with
  | interrupt _ hrun =>
    refine runToEnd_frame (P := fun t => t.fixed k = s.fixed k) interruptHandler_ops
      (fun o t r t' ho he ht => ?_) hrun rfl
    refine (exec_fixed ?_ ?_ he k).trans ht
    · rintro k st rfl
      cases ho
    · rintro k rfl
      cases ho
  | answer | complete | connect | disconnect | dma => rfl

theorem env_routing (h : Env R s s') {r : Reg} (hr : r.routing = true) : s'.globals.reg r = s.globals.reg r := by
  cases h with
  | interrupt _ hrun =>
    rw [(handler_driven hrun).reg]
    split
    · show (pollQueue Event.trb s.hw.events s.globals).2.reg r = _
      cases s.hw.events with
      | nil => rfl
      | cons e rest => exact dispatch_routing _ _ hr
    · rfl
  | answer | complete | connect | disconnect | dma => rfl

/-- The operations of a driver in the handler set no flag. -/
def Op.Clears (o : Op) : Prop := o.report = true ∨ ∃ f, o = .swapFlag f false

theorem exec_clears {o : Op} {r : Ret o} (ho : o.Clears) (he : s.exec o = some (r, s')) {f : Flag}
    (h : s.globals.flag f = false) : s'.globals.flag f = false := by
  rcases ho with ho | ⟨f', rfl⟩
  · refine ((exec_keeps he).flag f ?_ ?_ ?_).trans h
    · rintro b rfl
      cases ho
    · rintro b rfl
      cases ho
    · rintro rfl
      cases ho
  · cases he
    by_cases hf : f = f'
    · subst hf
      exact Function.update_self _ _ _
    · exact (Function.update_of_ne hf _ _).trans h

/-- `poll_keyboard` and `poll_mouse` leave their flag clear, and others that were clear. -/
theorem pollDriver_clears {k : DeviceKind} {handleReport : List UInt8 → KProg Unit}
    (hr : ∀ report, (handleReport report).All fun o => o.report = true)
    (h : runToEnd (pollDriver k handleReport) s = some ((), s')) :
    s'.globals.flag k.pending = false ∧ ∀ f, s.globals.flag f = false → s'.globals.flag f = false := by
  have hops : (pollDriver k handleReport).All Op.Clears := pollDriver_all k hr (.inr ⟨_, rfl⟩) fun _ => .inl
  constructor
  · unfold pollDriver at h hops
    rw [Prog.call_bind, runToEnd_op] at h
    exact runToEnd_frame (P := fun t => t.globals.flag k.pending = false) (hops.2 _)
      (fun o t r t' ho he ht => exec_clears ho he ht) h (Function.update_self _ _ _)
  · intro f hf
    exact runToEnd_frame (P := fun t => t.globals.flag f = false) hops
      (fun o t r t' ho he ht => exec_clears ho he ht) h hf

/-- The handler leaves no report waiting. -/
theorem handler_quiet (h : runToEnd interruptHandler s = some ((), s')) (k : DeviceKind) :
    s'.globals.flag k.pending = false := by
  have hdrivers : ∀ t, runToEnd (pollKeyboard >>= fun _ => pollMouse) t = some ((), s') →
    s'.globals.flag k.pending = false := by
    intro t h
    rw [runToEnd_bind, Option.bind_eq_some_iff] at h
    obtain ⟨⟨⟨⟩, t'⟩, hk, hm⟩ := h
    have hkbd := pollDriver_clears handleKeyboardReport_report hk
    have hmouse := pollDriver_clears handleMouseReport_report hm
    cases k with
    | keyboard => exact hmouse.2 _ hkbd.1
    | mouse => exact hmouse.1
  rw [interruptHandler_eq, runToEnd_op] at h
  change runToEnd (if s.xhci.isSome = true then _ else _) s = _ at h
  split at h
  · rw [runToEnd_op, Option.bind_eq_some_iff] at h
    obtain ⟨⟨⟨⟩, t⟩, -, h⟩ := h
    exact hdrivers _ h
  · exact hdrivers _ h

theorem Attached.congr {l : List ActivePort} {k : DeviceKind} (h : Attached l k s) (hf : s'.fixed k = s.fixed k)
    (hslot : s'.globals.reg k.slotReg = s.globals.reg k.slotReg)
    (hdci : s'.globals.reg k.dciReg = s.globals.reg k.dciReg) : Attached l k s' := by
  constructor
  · intro st' hst'
    have hsome : s.fixed k = Option.some st'.fixed := by
      rw [← hf, Kernel.fixed, hst']
      rfl
    obtain ⟨st, hst, he⟩ := Option.map_eq_some_iff.1 hsome
    have hs : st.fixed.slotId = st'.fixed.slotId := by rw [he]
    have hd : st.fixed.dci = st'.fixed.dci := by rw [he]
    change st.slotId = st'.slotId at hs
    change st.dci = st'.dci at hd
    rw [hslot, hdci, ← hs, ← hd]
    exact h.some st hst
  · intro hn
    have hnone : s.fixed k = Option.none := by
      rw [← hf, Kernel.fixed, hn]
      rfl
    rw [hdci]
    exact h.none (Option.map_eq_none_iff.1 hnone)

theorem slotReg_routing (k : DeviceKind) : k.slotReg.routing = true := by cases k <;> rfl

theorem dciReg_routing (k : DeviceKind) : k.dciReg.routing = true := by cases k <;> rfl

theorem Attached.mono {l l' : List ActivePort} {k : DeviceKind} (h : Attached l k s)
    (hl : ∀ e ∈ l, e.has k = true → ∃ e' ∈ l', e'.slotId = e.slotId ∧ e'.has k = true) : Attached l' k s := by
  refine ⟨fun st hst => ?_, h.none⟩
  obtain ⟨h1, h2, h3, e, hm, hs, hk⟩ := h.some st hst
  obtain ⟨e', hm', hs', hk'⟩ := hl e hm hk
  exact ⟨h1, h2, h3, e', hm', hs'.trans hs, hk'⟩

/-- The operations of the main context that leave the drivers, their atomics and the registry alone. -/
def Op.bystander : Op → Bool
  | .newDriver _ _ | .dropDriver _ | .setActive _ | .pollEventRing => false
  | .storeReg r _ => !r.routing
  | .storeFlag f _ | .swapFlag f _ => f ≠ .kbdReportPending ∧ f ≠ .mouseReportPending
  | _ => true

theorem bystander_of_transfer {o : Op} (h : o.transfer = true) : o.bystander = true := by
  cases o
  case storeFlag f b => cases f <;> first | rfl | cases h
  all_goals first | rfl | cases h

theorem bystander_of_slotting {o : Op} (h : o.slotting = true) : o.bystander = true := by
  cases o
  case storeFlag f b => cases f <;> first | rfl | cases h
  all_goals first | rfl | cases h

theorem bystander_of_command {o : Op} (h : o.command = true) : o.bystander = true :=
  bystander_of_slotting (slotting_of_command h)

theorem bystander_of_minor {o : Op} (h : o.minor = true) : o.bystander = true := by
  cases o
  case storeFlag f b => cases f <;> first | rfl | cases h
  case swapFlag f b => cases f <;> first | rfl | cases h
  case storeReg r n => cases h
  all_goals first | rfl | cases h

/-- What bystanders leave alone. -/
theorem exec_bystander {o : Op} {r : Ret o} (ho : o.bystander = true) (he : s.exec o = some (r, s')) :
    (∀ k, s'.fixed k = s.fixed k) ∧ (∀ r : Reg, r.routing = true → s'.globals.reg r = s.globals.reg r) ∧
    (∀ k : DeviceKind, s'.globals.flag k.pending = s.globals.flag k.pending) ∧ s'.activePorts = s.activePorts := by
  have hk := exec_keeps he
  -- for each part, the operations that write it are not bystanders
  refine ⟨?_, ?_, ?_, ?_⟩
  · apply exec_fixed _ _ he
    · rintro k st rfl
      cases ho
    · rintro k rfl
      cases ho
  · intro r' hr'
    apply hk.reg
    · rintro n rfl
      rw [show Op.bystander (.storeReg r' n) = !r'.routing from rfl, hr'] at ho
      cases ho
    · rintro rfl
      cases ho
  · intro k
    apply hk.flag
    · rintro b rfl
      cases k <;> cases ho
    · rintro b rfl
      cases k <;> cases ho
    · rintro rfl
      cases ho
  · apply hk.activePorts
    rintro l rfl
    cases ho

/-- An assertion about nothing else than the drivers, their atomics and the registry. -/
theorem framed_bystander {P : Kernel → Prop} (hs : (machine R).Stable P)
    (h : ∀ s s', P s → (∀ k, s'.fixed k = s.fixed k) →
      (∀ r : Reg, r.routing = true → s'.globals.reg r = s.globals.reg r) →
      (∀ k : DeviceKind, s'.globals.flag k.pending = s.globals.flag k.pending) → s'.activePorts = s.activePorts →
        P s') : Framed R Op.bystander P where
  stable := hs
  frame _ s _ s' ho he hp := by
    obtain ⟨h1, h2, h3, h4⟩ := exec_bystander ho he
    exact h s s' hp h1 h2 h3 h4

theorem env_quiet (h : Env R s s') (hq : ∀ k : DeviceKind, s.globals.flag k.pending = false) (k : DeviceKind) :
    s'.globals.flag k.pending = false := by
  cases h with
  | interrupt _ hrun => exact handler_quiet hrun k
  | answer | complete | connect | disconnect | dma => exact hq k

/-- Such an assertion between the stages of `init_*` and `shutdown_*`. -/
theorem Framed.steady {P : Kernel → Prop} (h : Framed R Op.bystander P) : Steady (machine R) (fun _ => True) P where
  framed := ⟨h.stable, fun o s r s' ho _ he => h.frame o s r s' (bystander_of_minor ho) he⟩
  safe _ _ := trivial

theorem framed_settled (active : List ActivePort) (l : DeviceKind → List ActivePort) :
    Framed R Op.bystander (Settled active l) := by
  apply framed_bystander
  · intro s s' h he
    exact ⟨(env_unmoved he).activePorts.trans h.active, env_quiet he h.quiet,
      fun k => (h.attached k).congr (env_fixed he k) (env_routing he (slotReg_routing k))
        (env_routing he (dciReg_routing k))⟩
  · intro s s' h hf hr hq ha
    exact ⟨ha.trans h.active, fun k => (hq k).trans (h.quiet k),
      fun k => (h.attached k).congr (hf k) (hr _ (slotReg_routing k)) (hr _ (dciReg_routing k))⟩

end Steps

/-! ## `init_keyboard` and `init_mouse` -/

section Init

variable {R : Rules} {active : List ActivePort} {l : DeviceKind → List ActivePort} {k : DeviceKind}

theorem armNextReport_settled :
    (machine R).Spec (Settled active l) (armNextReport k) (fun _ => Settled active l) fun _ => True :=
  have hs := (framed_settled (R := R) active l).steady
  armNextReport_spec hs hs (fun s s' h he => (framed_settled (R := R) active l).frame (.getDriver k) s none s' rfl he h)
    fun s r s' h _ he => (framed_settled (R := R) active l).frame (.enqueueReport k) s r s' rfl he h

/-- While `init_*` or `shutdown_*` runs, its own driver and the atomics may disagree. -/
structure Attaching (active : List ActivePort) (l : DeviceKind → List ActivePort) (k : DeviceKind) (P : Kernel → Prop)
    (s : Kernel) : Prop where
  active : s.activePorts = active
  quiet : ∀ k : DeviceKind, s.globals.flag k.pending = false
  other : ∀ k', k' ≠ k → Attached (l k') k' s
  own : P s

/-- An assertion that only looks at the drivers and their atomics. -/
def AboutDrivers (P : Kernel → Prop) : Prop :=
  ∀ s s' : Kernel, (∀ k, s'.fixed k = s.fixed k) → (∀ r : Reg, r.routing = true → s'.globals.reg r = s.globals.reg r) →
    P s → P s'

theorem framed_attaching (active : List ActivePort) (l : DeviceKind → List ActivePort) (k : DeviceKind)
    {P : Kernel → Prop} (hP : AboutDrivers P) : Framed R Op.bystander (Attaching active l k P) := by
  apply framed_bystander
  · intro s s' h he
    exact ⟨(env_unmoved he).activePorts.trans h.active, env_quiet he h.quiet,
      fun k' hk => (h.other k' hk).congr (env_fixed he k') (env_routing he (slotReg_routing k'))
        (env_routing he (dciReg_routing k')),
      hP s s' (env_fixed he) (fun _ => env_routing he) h.own⟩
  · intro s s' h hf hr hq ha
    exact ⟨ha.trans h.active, fun k => (hq k).trans (h.quiet k),
      fun k' hk => (h.other k' hk).congr (hf k') (hr _ (slotReg_routing k')) (hr _ (dciReg_routing k')),
        hP s s' hf hr h.own⟩

theorem Settled.attaching {s : Kernel} (h : Settled active l s) {P : Kernel → Prop} (hP : P s) :
    Attaching active l k P s :=
  ⟨h.active, h.quiet, fun k' _ => h.attached k', hP⟩

/-- A store to one of the driver's own atomics. -/
theorem Attaching.storeReg {P Q : Kernel → Prop} {s : Kernel} {r : Reg} {n : Nat} (hr : r = k.dciReg ∨ r = k.slotReg)
    (h : Attaching active l k P s) (hQ : P s → Q { s with globals := s.globals.storeReg r n }) :
    Attaching active l k Q { s with globals := s.globals.storeReg r n } := by
  have hne : ∀ k', k' ≠ k → k'.slotReg ≠ r ∧ k'.dciReg ≠ r := by
    intro k' hk
    rcases hr with rfl | rfl <;> cases k <;> cases k' <;> first | exact absurd rfl hk | exact ⟨nofun, nofun⟩
  exact ⟨h.active, h.quiet, fun k' hk => (h.other k' hk).congr rfl (storeReg_other (hne k' hk).1)
    (storeReg_other (hne k' hk).2), hQ h.own⟩

theorem newDriver_driver (s : Kernel) (st : DriverState) (k k' : DeviceKind) :
    (s.newDriver st k).driver k' = if k' = k then some st else s.driver k' := by
  cases k <;> cases k' <;> rfl

theorem dropDriver_driver (s : Kernel) (k k' : DeviceKind) :
    (s.dropDriver k).driver k' = if k' = k then none else s.driver k' := by
  cases k <;> cases k' <;> rfl

theorem newDriver_fixed (s : Kernel) (st : DriverState) (k k' : DeviceKind) :
    (s.newDriver st k).fixed k' = if k' = k then some st.fixed else s.fixed k' := by
  unfold Kernel.fixed
  rw [newDriver_driver]
  split <;> rfl

theorem dropDriver_fixed (s : Kernel) (k k' : DeviceKind) :
    (s.dropDriver k).fixed k' = if k' = k then none else s.fixed k' := by
  unfold Kernel.fixed
  rw [dropDriver_driver]
  split <;> rfl

/-- A driver's state is one for its fixed part. -/
theorem fixed_driver {s : Kernel} {st : DriverState} (h : s.driver k = some st) : s.fixed k = some st.fixed := by
  unfold Kernel.fixed
  rw [h]
  rfl

theorem driver_fixed {s : Kernel} {d : DriverState} (h : s.fixed k = some d) :
    ∃ st, s.driver k = some st ∧ st.fixed = d :=
  Option.map_eq_some_iff.1 h

theorem newDriver_globals (s : Kernel) (st : DriverState) (k : DeviceKind) :
    (s.newDriver st k).globals = s.globals := by
  cases k <;> rfl

theorem newDriver_activePorts (s : Kernel) (st : DriverState) (k : DeviceKind) :
    (s.newDriver st k).activePorts = s.activePorts := by
  cases k <;> rfl

theorem dropDriver_globals (s : Kernel) (k : DeviceKind) : (s.dropDriver k).globals = s.globals := by cases k <;> rfl

theorem dropDriver_activePorts (s : Kernel) (k : DeviceKind) : (s.dropDriver k).activePorts = s.activePorts := by
  cases k <;> rfl

/-- The new state agrees with the atomics. -/
theorem Attaching.newDriver {s : Kernel} {st : DriverState} (hdci : st.dci ≠ 0)
    (hl : ∃ e ∈ l k, e.slotId = st.slotId ∧ e.has k = true)
    (h : Attaching active l k (fun s => s.globals.reg k.dciReg = st.dci ∧ s.globals.reg k.slotReg = st.slotId) s) :
    Settled active l (s.newDriver st k) := by
  constructor
  · rw [newDriver_activePorts]
    exact h.active
  · rw [newDriver_globals]
    exact h.quiet
  · intro k'
    -- the other driver agreed all the time; this one by the stores to its atomics
    by_cases hk : k' = k
    · subst hk
      constructor
      · intro st' hst
        rw [newDriver_driver, if_pos rfl] at hst
        cases hst
        rw [newDriver_globals]
        exact ⟨h.own.2, h.own.1, hdci, hl⟩
      · intro hn
        rw [newDriver_driver, if_pos rfl] at hn
        cases hn
    · apply (h.other k' hk).congr
      · unfold Kernel.fixed
        rw [newDriver_driver, if_neg hk]
      · rw [newDriver_globals]
      · rw [newDriver_globals]

/-- `init_*` for an endpoint of a slot whose entry says so. -/
theorem initDriver_settled (message : String) {slotId : Nat} {ep : EndpointHandle} (interfaceNumber : Nat)
    (hdci : ep.dci ≠ 0) (hl : ∃ e ∈ l k, e.slotId = slotId ∧ e.has k = true) :
    (machine R).Triple (Settled active l) (initDriver k message slotId ep interfaceNumber) fun _ =>
      Settled active l := by
  have hs := (framed_settled (R := R) active l).steady
  have hd : AboutDrivers fun s => s.globals.reg k.dciReg = ep.dci := fun s s' _ hr h =>
    (hr _ (dciReg_routing k)).trans h
  have hds : AboutDrivers fun s => s.globals.reg k.dciReg = ep.dci ∧ s.globals.reg k.slotReg = slotId :=
    fun s s' _ hr h =>
    ⟨(hr _ (dciReg_routing k)).trans h.1, (hr _ (slotReg_routing k)).trans h.2⟩
  have hdci' := (framed_attaching (R := R) active l k hd).steady
  have hboth := (framed_attaching (R := R) active l k hds).steady
  refine (initDriver_spec hs (fun _ => hs) (fun _ => hdci') (fun _ => hboth) hs ?_ ?_ ?_ ?_
    armNextReport_settled).triple
  · intro s virt s' h _ he
    exact (framed_settled (R := R) active l).frame (.boxNew (.bytes 8)) s virt s' rfl he h
  · intro virt s r s' h _ he
    cases he
    exact (h.attaching (P := fun _ => True) trivial).storeReg (.inl rfl) fun _ => Function.update_self _ _ _
  · intro virt s r s' h _ he
    cases he
    refine h.storeReg (.inr rfl) fun hd => ⟨?_, Function.update_self _ _ _⟩
    exact (storeReg_other (by cases k <;> decide)).trans hd
  · intro virt phys s r s' h _ he
    cases he
    exact h.newDriver hdci hl

/-! ## `shutdown_keyboard` and `shutdown_mouse` -/

theorem Settled.update {s : Kernel} (h : Settled active l s) {l' : List ActivePort} (ha : Attached l' k s) :
    Settled active (Function.update l k l') s := by
  refine ⟨h.active, h.quiet, fun k' => ?_⟩
  by_cases hk : k' = k
  · subst hk
    rw [Function.update_self]
    exact ha
  · rw [Function.update_of_ne hk]
    exact h.attached k'

theorem Attaching.settled {P : Kernel → Prop} {s : Kernel} (h : Attaching active l k P s) {l' : List ActivePort}
    (ha : Attached l' k s) : Settled active (Function.update l k l') s := by
  refine ⟨h.active, h.quiet, fun k' => ?_⟩
  by_cases hk : k' = k
  · subst hk
    rw [Function.update_self]
    exact ha
  · rw [Function.update_of_ne hk]
    exact h.other k' hk

theorem aboutDrivers_none : AboutDrivers fun s => s.fixed k = none := fun _ _ hf _ h => (hf k).trans h

theorem aboutDrivers_detached : AboutDrivers fun s => s.fixed k = none ∧ s.globals.reg k.dciReg = 0 :=
  fun _ _ hf hr h =>
  ⟨(hf k).trans h.1, (hr _ (dciReg_routing k)).trans h.2⟩

/-- Without a state, the driver's other atomics and flags may change. -/
theorem Attaching.dropDriver {s : Kernel} {P : Kernel → Prop} (h : Attaching active l k P s) :
    Attaching active l k (fun s => s.fixed k = none) (s.dropDriver k) := by
  constructor
  · rw [dropDriver_activePorts]
    exact h.active
  · rw [dropDriver_globals]
    exact h.quiet
  · intro k' hk
    apply (h.other k' hk).congr
    · unfold Kernel.fixed
      rw [dropDriver_driver, if_neg hk]
    · rw [dropDriver_globals]
    · rw [dropDriver_globals]
  · unfold Kernel.fixed
    rw [dropDriver_driver, if_pos rfl]
    rfl

/-- After `shutdown_*` for a slot the driver is not on that slot. -/
theorem shutdownDriver_settled {slotId : Nat} {l' : List ActivePort}
    (hl : ∀ e ∈ l k, e.has k = true → e.slotId = slotId ∨ e ∈ l') :
    (machine R).Triple (Settled active l) (shutdownDriver k slotId) fun _ =>
      Settled active (Function.update l k l') := by
  have hs := framed_settled (R := R) active l
  have hnone := (framed_attaching (R := R) active l k (aboutDrivers_none (k := k))).steady
  have hdetached := (framed_attaching (R := R) active l k (aboutDrivers_detached (k := k))).steady
  -- from the stage that drops the state on, the driver has none, and its atomics may say anything
  refine (shutdownDriver_spec hs.steady (fun _ => hs.steady) (fun _ => hnone) (fun _ => hnone) hdetached hdetached
    (framed_settled active _).steady ?_ ?_ ?_ ?_ ?_ ?_ ?_ ?_).triple
  · intro s s' h he
    obtain ⟨hd, rfl⟩ := Prod.mk.inj (Option.some.inj he)
    refine h.update ⟨fun st hst => ?_, (h.attached k).none⟩
    rw [hst] at hd
    cases hd
  · intro st s s' h he hne
    obtain ⟨hd, rfl⟩ := Prod.mk.inj (Option.some.inj he)
    refine h.update ⟨fun st' hst => ?_, (h.attached k).none⟩
    obtain ⟨h1, h2, h3, e, hm, hslot, hk⟩ := (h.attached k).some st' hst
    rw [hst] at hd
    cases hd
    exact ⟨h1, h2, h3, e, (hl e hm hk).resolve_left fun he => hne (hslot.symm.trans he), hslot, hk⟩
  · intro st s s' h he _
    obtain ⟨-, rfl⟩ := Prod.mk.inj (Option.some.inj he)
    exact h
  · intro st s r s' h _ he
    cases he
    exact (h.attaching (P := fun _ => True) trivial).dropDriver
  · intro st s r s' h _ he
    cases he
    exact h
  · intro st s r s' h _ he
    cases he
    exact h.storeReg (.inl rfl) fun hn => ⟨hn, Function.update_self _ _ _⟩
  · intro s r s' h _ he
    cases he
    refine h.storeReg (.inr rfl) fun hn => ⟨hn.1, ?_⟩
    exact (storeReg_other (by cases k <;> decide)).trans hn.2
  · intro s r s' h _ he
    cases he
    have hquiet : Attaching active l k (fun s => s.fixed k = none ∧ s.globals.reg k.dciReg = 0)
        { s with globals := s.globals.storeFlag k.pending false } := by
      refine ⟨h.active, fun k' => ?_, fun k' hk => (h.other k' hk).congr rfl rfl rfl, h.own⟩
      by_cases hk : k'.pending = k.pending
      · exact (congrArg _ hk).trans (Function.update_self _ _ _)
      · exact (storeFlag_other hk).trans (h.quiet k')
    refine hquiet.settled ⟨fun st' hst => ?_, fun _ => h.own.2⟩
    have hn : s.driver k = none := Option.map_eq_none_iff.1 h.own.1
    rw [show s.driver k = some st' from hst] at hn
    cases hn

end Init

/-! ## Devices -/

section Devices

variable {R : Rules} {active base : List ActivePort}

/-- The entry once an endpoint was dispatched to a driver. -/
def ActivePort.serve (e : ActivePort) : Option DeviceKind → ActivePort
  | some .keyboard => { e with hasKeyboard := true }
  | some .mouse => { e with hasMouse := true }
  | none => e

theorem Settled.mono {l l' : DeviceKind → List ActivePort} {s : Kernel} (h : Settled active l s)
    (hl : ∀ k, ∀ e ∈ l k, e.has k = true → ∃ e' ∈ l' k, e'.slotId = e.slotId ∧ e'.has k = true) : Settled active l' s :=
  ⟨h.active, h.quiet, fun k => (h.attached k).mono (hl k)⟩

/-- The drivers agree with these entries. -/
abbrev Drivers (active l : List ActivePort) : Kernel → Prop := Settled active fun _ => l

theorem Settled.serve {e : ActivePort} {kind : Option DeviceKind} {s : Kernel} (h : Drivers active (base ++ [e]) s) :
    Drivers active (base ++ [e.serve kind]) s := by
  refine h.mono fun k e' hm hk => ?_
  rcases List.mem_append.1 hm with hm | hm
  · exact ⟨e', List.mem_append_left _ hm, rfl, hk⟩
  · obtain rfl : e' = e := List.mem_singleton.1 hm
    refine ⟨_, List.mem_append_right _ (List.mem_singleton.2 rfl), ?_, ?_⟩
    · cases kind with
      | none => rfl
      | some kind => cases kind <;> rfl
    · cases kind with
      | none => exact hk
      | some kind => cases kind <;> cases k <;> first | rfl | exact hk

/-- `configure_endpoint` returns no endpoint with DCI 0. -/
theorem configureEndpoint_returns (slotId rootPort : Nat) (ep : EndpointInfo) :
    (configureEndpoint slotId rootPort ep).Returns fun r => ∀ handle, r = .ok handle → handle.dci ≠ 0 := by
  intro virt phys
  cases phys with
  | none => exact nofun
  | some phys =>
    intro _
    -- with DCI 0 it panics before it returns
    refine (?_ : Prog.Returns _ (if ep.dci = 0 then panic _ else _))
    split
    · exact nofun
    · rename_i hdci
      intro virt phys
      cases phys with
      | none => exact nofun
      | some phys =>
        refine Prog.Returns.bind (submit _ _ _ _ _) fun b => ?_
        cases b with
        | false => exact nofun
        | true =>
          intro code
          refine (?_ : ∀ handle, (if code = 1 then _ else _ : Except String EndpointHandle) = .ok handle →
            handle.dci ≠ 0)
          intro handle
          split
          · rintro ⟨⟩
            exact hdci
          · exact nofun

/-- What lets an assertion about the registry and the entries of each driver be carried through
`discover_and_init_hid_devices`. -/
structure Carried (R : Rules) (P : List ActivePort → (DeviceKind → List ActivePort) → Kernel → Prop) : Prop where
  framed : ∀ active l, Framed R Op.bystander (P active l)
  registry : ∀ {active l s}, P active l s → s.activePorts = active
  setActive : ∀ {active l s} (active' : List ActivePort), P active l s → P active' l { s with activePorts := active' }
  enter : ∀ {active s} (rootPort slotId : Nat), P active (fun _ => active) s →
    P active (fun _ => active ++ [⟨rootPort, slotId, false, false⟩]) s
  init : ∀ active (e : ActivePort) k message (ep : EndpointHandle) interfaceNumber, ep.dci ≠ 0 →
    (machine R).Triple (P active fun _ => active ++ [e]) (initDriver k message e.slotId ep interfaceNumber)
      fun _ => P active fun _ => active ++ [e.serve (some k)]
  shutdown : ∀ active l kept (entry : ActivePort) rest k, l k = kept ++ entry :: rest →
    (machine R).Triple (P active l) (onlyIf (entry.has k) (shutdownDriver k entry.slotId))
      fun _ => P active (Function.update l k (kept ++ rest))

namespace Carried

variable {P : List ActivePort → (DeviceKind → List ActivePort) → Kernel → Prop} (h : Carried R P)
include h

theorem dispatchEndpoint (active : List ActivePort) (slotId rootPort : Nat) (hasKeyboard hasMouse : Bool)
    (ep : EndpointInfo) :
    (machine R).Triple (P active fun _ => active ++ [⟨rootPort, slotId, hasKeyboard, hasMouse⟩])
      (dispatchEndpoint slotId rootPort ep)
      fun kind => P active fun _ => active ++ [ActivePort.serve ⟨rootPort, slotId, hasKeyboard, hasMouse⟩ kind] := by
  have hs (e : ActivePort) := h.framed active fun _ => active ++ [e]
  have hinit := h.init active ⟨rootPort, slotId, hasKeyboard, hasMouse⟩
  unfold Usb.dispatchEndpoint
  split
  · exact Machine.triple_ret (hs _).stable fun _ h => h
  · refine Machine.triple_bind (Machine.Triple.returns (configureEndpoint_returns slotId rootPort ep) ((hs _).triple
      ((configureEndpoint_ops slotId rootPort ep).mono fun _ => bystander_of_command))) fun r => ?_
    rintro s ⟨hr, hP⟩
    refine (?_ : (machine R).Triple (P active fun _ => active ++ [⟨rootPort, slotId, hasKeyboard, hasMouse⟩]) _ _) s hP
    cases r with
    | error e => exact Machine.triple_ret (hs _).stable fun _ h => h
    | ok handle =>
      have hdci := hr handle rfl
      dsimp only
      split
      · exact Machine.triple_bind (hinit .keyboard _ _ _ hdci) fun _ => Machine.triple_ret (hs _).stable fun _ h => h
      · exact Machine.triple_bind (hinit .mouse _ _ _ hdci) fun _ => Machine.triple_ret (hs _).stable fun _ h => h
      · exact Machine.triple_ret (hs _).stable fun _ h => h

theorem dispatchAll (active : List ActivePort) (slotId rootPort : Nat) (hasKeyboard hasMouse : Bool)
    (eps : List EndpointInfo) :
    (machine R).Triple (P active fun _ => active ++ [⟨rootPort, slotId, hasKeyboard, hasMouse⟩])
      (dispatchAll slotId rootPort hasKeyboard hasMouse eps) fun e => P active fun _ => active ++ [e] := by
  induction eps generalizing hasKeyboard hasMouse with
  | nil => exact Machine.triple_ret (h.framed _ _).stable fun _ h => h
  | cons ep rest ih =>
    refine Machine.triple_bind (h.dispatchEndpoint active slotId rootPort hasKeyboard hasMouse ep) fun kind => ?_
    cases kind with
    | none => exact ih _ _
    | some kind => cases kind <;> exact ih _ _

theorem setupDevice (active : List ActivePort) (slotId rootPort : Nat) :
    (machine R).Triple (P active fun _ => active) (setupDevice slotId rootPort) fun e => P active fun _ =>
      active ++ [e] := by
  have hs := h.framed active fun _ => active
  have henter : ∀ s, P active (fun _ => active) s →
    P active (fun _ => active ++ [⟨rootPort, slotId, false, false⟩]) s :=
    fun s => h.enter rootPort slotId
  refine Machine.triple_bind
    (hs.triple ((getDeviceDescriptor_ops slotId).mono fun _ => bystander_of_transfer)) fun r => ?_
  cases r with
  | error => exact Machine.triple_ret hs.stable henter
  | ok =>
    refine Machine.triple_bind
      (hs.triple ((getInterruptEndpoints_ops slotId).mono fun _ => bystander_of_transfer)) fun r => ?_
    cases r with
    | error => exact Machine.triple_ret hs.stable henter
    | ok endpoints =>
      refine Machine.triple_bind
        (hs.triple ((controlTransferNoData_ops _ _ _ _ _).mono fun _ => bystander_of_transfer)) fun r => ?_
      cases r with
      | error => exact Machine.triple_ret hs.stable henter
      | ok => exact (h.dispatchAll active _ _ _ _ _).conseq henter fun _ _ h => h

theorem initOneDevice (active : List ActivePort) (rootPort speed : Nat) :
    (machine R).Triple (P active fun _ => active) (initOneDevice rootPort speed)
      fun r => P active fun _ => active ++ r.toList := by
  have hs := h.framed active fun _ => active
  have hnone : ∀ s, P active (fun _ => active) s →
    P active (fun _ => active ++ (none : Option ActivePort).toList) s := by
    intro s h
    rw [Option.toList_none, List.append_nil]
    exact h
  refine Machine.triple_bind (hs.triple (enableSlot_ops.mono fun _ => bystander_of_command)) fun r => ?_
  cases r with
  | error => exact Machine.triple_ret hs.stable hnone
  | ok slotId =>
    refine Machine.triple_bind (hs.triple ((addressDevice_ops _ _ _).mono fun _ => bystander_of_slotting)) fun r => ?_
    cases r with
    | error => exact Machine.triple_ret hs.stable hnone
    | ok =>
      exact Machine.triple_bind (h.setupDevice active slotId rootPort) fun e =>
        Machine.triple_ret (h.framed _ _).stable fun _ h => h

/-- `shutdown_device` for an entry that is no longer in the registry. -/
theorem shutdownDevice (kept rest : List ActivePort) (entry : ActivePort) :
    (machine R).Triple (P (kept ++ rest) fun _ => kept ++ entry :: rest) (shutdownDevice entry)
      fun _ => P (kept ++ rest) fun _ => kept ++ rest := by
  refine Machine.triple_bind (h.shutdown _ _ kept entry rest .keyboard rfl) fun _ => ?_
  refine Machine.triple_bind (h.shutdown _ _ kept entry rest .mouse rfl) fun _ => ?_
  have hall : Function.update (Function.update (fun _ => kept ++ entry :: rest) DeviceKind.keyboard (kept ++ rest))
      DeviceKind.mouse (kept ++ rest) = fun _ => kept ++ rest := by
    funext k
    cases k <;> rfl
  rw [hall]
  have hs := h.framed (kept ++ rest) fun _ => kept ++ rest
  exact Machine.triple_bind (hs.triple ((disableSlot_ops _).mono fun _ => bystander_of_slotting)) fun _ =>
    Machine.triple_ret hs.stable fun _ h => h

/-- A change of the registry. -/
theorem actSetActive {α : Type} {active : List ActivePort} {l : DeviceKind → List ActivePort}
    (active' : List ActivePort) {f : Unit → KProg α} {Q : α → Kernel → Prop}
    (hf : (machine R).Triple (P active' l) (f ()) Q) :
    (machine R).Triple (P active l) (act (.setActive active') >>= f) Q := by
  refine Machine.triple_call (h.framed _ _).stable (fun _ => P active' l) (fun s r s' hP _ he => ?_) fun _ => hf
  cases he
  exact h.setActive active' hP

theorem actGetActive {α : Type} {active : List ActivePort} {l : DeviceKind → List ActivePort}
    {f : List ActivePort → KProg α} {Q : α → Kernel → Prop} (hf : (machine R).Triple (P active l) (f active) Q) :
    (machine R).Triple (P active l) (getActive >>= f) Q := by
  refine Machine.triple_call (h.framed _ _).stable (fun a s => a = active ∧ P active l s) (fun s a s' hP _ he => ?_) ?_
  · cases he
    exact ⟨h.registry hP, hP⟩
  · rintro a s ⟨rfl, hP⟩
    exact hf s hP

theorem disconnectLoop (states : List (Nat × Nat)) (kept rest : List ActivePort) :
    (machine R).Triple (P (kept ++ rest) fun _ => kept ++ rest) (disconnectLoop states kept rest)
      fun _ s => ∃ l, P l (fun _ => l) s := by
  induction rest generalizing kept with
  | nil => exact Machine.triple_ret (h.framed _ _).stable fun s h => ⟨_, h⟩
  | cons entry rest ih =>
    unfold Usb.disconnectLoop
    split
    · rw [List.append_cons kept entry rest]
      exact ih (kept ++ [entry])
    · refine h.actSetActive (kept ++ rest) ?_
      exact Machine.triple_bind (h.shutdownDevice kept rest entry) fun _ => ih kept

theorem connectLoop (todo : List (Nat × Nat)) (l : List ActivePort) :
    (machine R).Triple (P l fun _ => l) (connectLoop todo) fun _ s => ∃ l, P l (fun _ => l) s := by
  induction todo generalizing l with
  | nil => exact Machine.triple_ret (h.framed _ _).stable fun s h => ⟨_, h⟩
  | cons st rest ih =>
    refine h.actGetActive ?_
    split
    · exact ih l
    · refine Machine.triple_bind (h.initOneDevice l _ _) fun r => ?_
      cases r with
      | none =>
        rw [Option.toList_none, List.append_nil]
        exact (h.framed _ _).act rfl fun _ => ih l
      | some entry => exact h.actGetActive (h.actSetActive (l ++ [entry]) (ih _))

/-- From the registry before to some registry after. -/
theorem discover : (machine R).Triple (fun s => ∃ l, P l (fun _ => l) s) discoverAndInitHidDevices
    fun _ s => ∃ l, P l (fun _ => l) s := by
  refine Machine.triple_exists fun l => ?_
  have hs := h.framed l fun _ => l
  refine Machine.triple_bind (hs.triple (portStates_all rfl rfl rfl (fun _ => rfl) rfl)) fun states => ?_
  refine hs.act rfl fun _ => h.actGetActive ?_
  refine Machine.triple_bind (h.disconnectLoop states [] l) fun _ => Machine.triple_exists fun l' => ?_
  refine Machine.triple_bind (h.connectLoop states l') fun _ => Machine.triple_exists fun l'' => ?_
  have hs'' := h.framed l'' fun _ => l''
  exact hs''.act rfl fun _ => Machine.triple_ret hs''.stable fun s h => ⟨_, h⟩

theorem stable : (machine R).Stable fun s => ∃ l, P l (fun _ => l) s :=
  Machine.Stable.exists fun l => (h.framed l fun _ => l).stable

/-- A step of the idle loop. -/
theorem idleCall (i : IdleCall) :
    (machine R).Triple (fun s => ∃ l, P l (fun _ => l) s) i.prog fun _ s => ∃ l, P l (fun _ => l) s := by
  have hret : ∀ l, (machine R).Triple (P l fun _ => l) (.ret ()) fun _ s => ∃ l, P l (fun _ => l) s := fun l =>
    Machine.triple_ret (h.framed l fun _ => l).stable fun s h => ⟨l, h⟩
  cases i with
  | discoverAndInitHidDevices => exact h.discover
  | swapPortChangePending => exact Machine.triple_exists fun l => (h.framed l fun _ => l).act rfl fun _ => hret l
  | xhciIsSome => exact Machine.triple_exists fun l => (h.framed l fun _ => l).act rfl fun _ => hret l

end Carried

theorem onlyIf_shutdown {l : DeviceKind → List ActivePort} (l' : List ActivePort) (entry : ActivePort) (k : DeviceKind)
    (hl : ∀ e ∈ l k, e = entry ∨ e ∈ l') :
    (machine R).Triple (Settled active l) (onlyIf (entry.has k) (shutdownDriver k entry.slotId))
      fun _ => Settled active (Function.update l k l') := by
  cases hk : entry.has k with
  | true => exact shutdownDriver_settled fun e hm _ => (hl e hm).imp (congrArg ActivePort.slotId) id
  | false =>
    refine Machine.triple_ret (framed_settled _ _).stable fun s h => h.update ((h.attached k).mono fun e hm hke => ?_)
    refine ⟨e, (hl e hm).resolve_left fun he => ?_, rfl, hke⟩
    rw [he, hk] at hke
    cases hke

theorem carried_settled : Carried R Settled where
  framed := framed_settled
  registry h := h.active
  setActive active' h := ⟨rfl, h.quiet, fun k => (h.attached k).congr rfl rfl rfl⟩
  enter rootPort slotId h := h.mono fun k e' hm hk => ⟨e', List.mem_append_left _ hm, rfl, hk⟩
  init active e k message ep interfaceNumber hdci := by
    refine Machine.Triple.conseq (initDriver_settled message _ hdci ?_) (fun s h => Settled.serve h) fun _ _ h => h
    refine ⟨_, List.mem_append_right _ (List.mem_singleton.2 rfl), ?_, ?_⟩ <;> cases k <;> rfl
  shutdown active l kept entry rest k hl := by
    refine onlyIf_shutdown _ entry k fun e hm => ?_
    rw [hl, List.mem_append, List.mem_cons] at hm
    rw [List.mem_append]
    rcases hm with hm | rfl | hm
    · exact .inr (.inl hm)
    · exact .inl rfl
    · exact .inr (.inr hm)

/-- Outside of `discover_and_init_hid_devices`: both drivers agree with the registry. -/
def Agreeing (s : Kernel) : Prop := ∃ l, Drivers l l s

end Devices

/-! ## The drivers and the registry -/

variable {R : Rules}

theorem powerOn_agreeing {s : Kernel} (h : PowerOn s) : Agreeing s := by
  refine ⟨[], h.activePorts, fun k => ?_, fun k => ⟨fun st hst => ?_, fun _ => ?_⟩⟩
  · rw [h.globals]
    rfl
  · cases k with
    | keyboard =>
      rw [Kernel.driver, h.kbd] at hst
      cases hst
    | mouse =>
      rw [Kernel.driver, h.mouse] at hst
      cases hst
  · rw [h.globals]
    rfl

/-- Only a Transfer Event of the endpoint that the atomics name reaches a driver. -/
theorem dispatch_pending (g : Globals) (t : Trb) (k : DeviceKind) :
    (g.dispatch t).flag k.pending = g.flag k.pending ∨ g.reg k.dciReg ≠ 0 := by
  have hne : ∀ f : Flag, f ≠ .kbdReportPending → f ≠ .mouseReportPending → k.pending ≠ f := by
    rintro f h1 h2 rfl
    cases k with
    | keyboard => exact h1 rfl
    | mouse => exact h2 rfl
  unfold Globals.dispatch
  split
  · exact .inl (storeFlag_other (hne _ nofun nofun))
  · exact .inl (storeFlag_other (hne _ nofun nofun))
  · split
    · rename_i hkbd
      cases k with
      | keyboard => exact .inr hkbd.1
      | mouse => exact .inl (storeFlag_other nofun)
    · split
      · rename_i hmouse
        cases k with
        | keyboard => exact .inl (storeFlag_other nofun)
        | mouse => exact .inr hmouse.1
      · exact .inl (storeFlag_other (hne _ nofun nofun))
  · exact .inl rfl

/-- The operations that spare the state of a driver. -/
def Op.spares (k : DeviceKind) : Op → Bool
  | .newDriver k' _ | .dropDriver k' => k' ≠ k
  | _ => true

theorem framed_spares (k : DeviceKind) (d : Option DriverState) : Framed R (Op.spares k) fun s => s.fixed k = d where
  stable _ _ h he := (env_fixed he k).trans h
  frame o s r s' ho he h := by
    refine Eq.trans ?_ h
    by_cases hnew : ∃ k' st, o = .newDriver k' st
    · obtain ⟨k', st, rfl⟩ := hnew
      cases he
      unfold Kernel.fixed
      rw [newDriver_driver, if_neg fun hk => of_decide_eq_true ho hk.symm]
    · by_cases hdrop : ∃ k', o = .dropDriver k'
      · obtain ⟨k', rfl⟩ := hdrop
        cases he
        unfold Kernel.fixed
        rw [dropDriver_driver, if_neg fun hk => of_decide_eq_true ho hk.symm]
      · exact exec_fixed (fun k' st ho' => hnew ⟨k', st, ho'⟩) (fun k' ho' => hdrop ⟨k', ho'⟩) he k

/-- `shutdown_*` for another slot. -/
theorem shutdownDriver_spares {k : DeviceKind} {st : DriverState} (k' : DeviceKind) {slotId : Nat}
    (hne : st.slotId ≠ slotId) :
    (machine R).Triple (fun s => s.fixed k = some st) (shutdownDriver k' slotId) fun _ s => s.fixed k = some st := by
  have hs := framed_spares (R := R) k (some st)
  have hret : (machine R).Triple (fun s => s.fixed k = some st) (unlock k'.lock) fun _ s => s.fixed k = some st :=
    hs.act rfl fun _ => Machine.triple_ret hs.stable fun _ h => h
  refine hs.act rfl fun _ => ?_
  refine Machine.triple_call hs.stable (fun d s => s.driver k' = d ∧ s.fixed k = some st)
    (fun s d s' h _ he => ?_) fun d => ?_
  · cases he
    exact ⟨rfl, h⟩
  rintro s ⟨hd, h⟩
  cases d with
  | none => exact hret s h
  | some st' =>
    refine (?_ : (machine R).Triple (fun s => s.fixed k = some st) (if st'.slotId ≠ slotId then unlock k'.lock else _)
      fun _ s => s.fixed k = some st) s h
    split
    · exact hret
    · rename_i hslot
      -- the state on the slot is not the one of `k`, which is on another slot
      have hk : k' ≠ k := by
        rintro rfl
        rw [Kernel.fixed, hd] at h
        cases h
        exact hslot hne
      exact hs.act (decide_eq_true hk) fun _ => hs.act rfl fun _ => hs.act rfl fun _ => hs.act rfl fun _ =>
        hs.act rfl fun _ => hret

/-- Unplugging a device never clears the state of a driver on another slot. -/
theorem shutdownDevice_spares {k : DeviceKind} {st : DriverState} {entry : ActivePort}
    (hne : st.slotId ≠ entry.slotId) :
    (machine R).Triple (fun s => s.fixed k = some st) (shutdownDevice entry) fun _ s => s.fixed k = some st := by
  have hs := framed_spares (R := R) k (some st)
  have honly : ∀ b k', (machine R).Triple (fun s => s.fixed k = some st) (onlyIf b (shutdownDriver k' entry.slotId))
      fun _ s => s.fixed k = some st := fun b k' => by
    cases b with
    | true => exact shutdownDriver_spares k' hne
    | false => exact Machine.triple_ret hs.stable fun _ h => h
  refine Machine.triple_bind (honly _ .keyboard) fun _ => Machine.triple_bind (honly _ .mouse) fun _ => ?_
  have hops : (disableSlot entry.slotId).All fun o => o.spares k = true :=
    (disableSlot_ops entry.slotId).mono fun o ho => by
    cases o <;> first | rfl | cases ho
  exact Machine.triple_bind (hs.triple hops) fun _ => Machine.triple_ret hs.stable fun _ h => h

/-- The calls of `poll_hotplug` are among these sessions, step by step. -/
theorem syncSession_idle {hist : List (Machine.Return Kernel fun _ : SyncCall => Unit)} {s : Kernel}
    (h : SyncSession R hist s) : ∃ hist', DriverSession R hist' s := by
  have hstable : (machine R).Stable fun s => ∃ hist', DriverSession R hist' s :=
    fun _ _ ⟨hist', hs⟩ he => ⟨hist', hs.env he⟩
  induction h with
  | boot h => exact ⟨[], .boot h⟩
  | env _ he ih => exact hstable _ _ ih he
  | call _ i hr ih =>
    obtain ⟨hist', hs⟩ := ih
    cases i with
    | discoverAndInitHidDevices => exact ⟨_, hs.call .discoverAndInitHidDevices hr⟩
    | pollHotplug =>
      obtain ⟨b, s₁, h₁, hr⟩ := Machine.runs_bind (p := swapFlag .portChangePending false) hr
      have hs₁ := hs.call .swapPortChangePending (Machine.runs_seq h₁ .refl)
      cases b with
      | false => exact (hstable.runs_ret hr ⟨_, hs₁⟩).2
      | true =>
        obtain ⟨b, s₂, h₂, hr⟩ := Machine.runs_bind (p := xhciIsSome) hr
        have hs₂ := hs₁.call .xhciIsSome (Machine.runs_seq h₂ .refl)
        cases b with
        | false => exact (hstable.runs_ret hr ⟨_, hs₂⟩).2
        | true => exact ⟨_, hs₂.call .discoverAndInitHidDevices hr⟩

/-- Outside of `discover_and_init_hid_devices` and the handler a driver that has a state is routed the
events of its own endpoint, and its slot has an entry; a driver without one is routed nothing; and no
report waits. `shutdown_device` leaves the state of a driver on another slot alone. -/
theorem driver_never_dangles {hist : List (Machine.Return Kernel fun _ : IdleCall => Unit)} {s : Kernel}
    (h : DriverSession R hist s) (k : DeviceKind) :
    (∀ st, s.driver k = some st → s.globals.reg k.slotReg = st.slotId ∧ s.globals.reg k.dciReg = st.dci ∧ st.dci ≠ 0 ∧
      ∃ e ∈ s.activePorts, e.slotId = st.slotId ∧ e.has k = true) ∧
    (s.driver k = none → s.globals.reg k.dciReg = 0 ∧ ∀ t, (s.globals.dispatch t).flag k.pending = false) ∧
    s.globals.flag k.pending = false ∧
    ∀ entry t st t', t.fixed k = some st → st.slotId ≠ entry.slotId →
      (machine R).Runs (shutdownDevice entry, t) (.ret (), t') → t'.fixed k = some st := by
  obtain ⟨l, hl⟩ : Agreeing s := h.invariant (fun _ => powerOn_agreeing) carried_settled.stable carried_settled.idleCall
  refine ⟨?_, ?_, hl.quiet k, ?_⟩
  · intro st hst
    rw [hl.active]
    exact (hl.attached k).some st hst
  · intro hn
    have hdci := (hl.attached k).none hn
    refine ⟨hdci, fun t => ?_⟩
    rcases dispatch_pending s.globals t k with hp | hp
    · exact hp.trans (hl.quiet k)
    · exact absurd hdci hp
  · intro entry t st t' ht hne hr
    exact shutdownDevice_spares hne t ht () t' hr

/-- `driver_never_dangles` after boot with a keyboard on the only port. -/
theorem driver_never_dangles_keyboard :
    ∃ hist s st, DriverSession Rules.any hist s ∧ s.driver .keyboard = some st ∧ s.globals.reg .kbdSlotId = st.slotId ∧
      s.globals.reg .kbdDci = st.dci ∧ ∃ e ∈ s.activePorts, e.slotId = st.slotId ∧ e.hasKeyboard = true := by
  obtain ⟨⟨⟩, s, hr, ht⟩ := exists_run (R := Rules.any) (plugIn 14 0 0 1 0x14000 (hidInterface 0 1 0x81) ++ ops 19)
    discoverAndInitHidDevices (Kernel.start 1 fun _ => ⟨true, false, 1, 0⟩)
    (fun _ s => (s.driver .keyboard).isSome) (by decide +kernel)
  obtain ⟨st, hst⟩ := Option.isSome_iff_exists.1 ht
  have hs : DriverSession Rules.any _ s := Machine.Session.call (.boot (powerOn_start (by decide) _ fun _ => rfl))
    IdleCall.discoverAndInitHidDevices hr
  obtain ⟨h1, h2, -, h4⟩ := (driver_never_dangles hs .keyboard).1 st hst
  exact ⟨_, s, st, hs, hst, h1, h2, h4⟩

end Octagram.Usb

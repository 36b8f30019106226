/-
The registry against the ports: what `ACTIVE_PORTS` says once every port change was worked off, and
why that rests on CSC, which nothing in the kernel clears. If each change comes while CSC is clear
or another change is on record, the registry names the ports with a device, and its entries the
devices that are there (`hotplug_registry`). The invariant is `Synced` between the calls and `Under`
while the registry is locked: its entries are fresh, and what the snapshot of the ports says holds,
unless a port change is on record. `missed_connect` is a run in which nobody hears of a device.
-/
import Octagram.Usb.Schedule
import Octagram.Usb.Setup

namespace Octagram.Usb

open Octagram.Lib

/-! ## Definitions -/

/-- A port change is on record: the flag is set, or a Port Status Change Event is unread. -/
def Kernel.PortDirty (s : Kernel) : Prop :=
  s.globals.flag .portChangePending = true ∨ ∃ e ∈ s.hw.events, e.trb.trbType = 34

/-- The root port has an entry in the registry. -/
def Kernel.Registered (s : Kernel) (rootPort : Nat) : Prop := ∃ e ∈ s.activePorts, e.rootPort = rootPort

instance (s : Kernel) : Decidable s.PortDirty :=
  inferInstanceAs (Decidable (_ ∨ _))

instance (s : Kernel) (rootPort : Nat) : Decidable (s.Registered rootPort) :=
  inferInstanceAs (Decidable (∃ e ∈ _, _))

/-- The mark of an `init_one_device` that returned `None`. -/
def Op.isInitFailed : Op → Bool
  | .initFailed => true
  | _ => false

/-- Every `init_one_device` returns `Some`. -/
def initRules : Rules := { Rules.any with allowed := fun o _ => o.isInitFailed = false }

instance : initRules.Decide :=
  ⟨fun _ _ _ => isTrue trivial, fun _ _ => isTrue trivial,
    fun o _ => inferInstanceAs (Decidable (o.isInitFailed = false))⟩

/-- Besides, a port whose CSC is set changes only while a port change is on record, and gets a device
again only when its old one is no longer registered and the registry is not being worked on. -/
def hotplugRules : Rules where
  answer _ _ _ := True
  change s p := (s.hw.port p).csc = false ∨
    (s.PortDirty ∧ ((s.hw.port p).ccs = true ∨ (s.held .activePorts = false ∧ ¬ s.Registered (p + 1))))
  allowed o _ := o.isInitFailed = false

instance : hotplugRules.Decide :=
  ⟨fun _ _ _ => isTrue trivial, fun _ _ => inferInstanceAs (Decidable (_ ∨ _)),
    fun o _ => inferInstanceAs (Decidable (o.isInitFailed = false))⟩

/-- After boot: `discover_and_init_hid_devices` ran to its end. -/
def Booted (R : Rules) (s : Kernel) : Prop :=
  ∃ s₀, PowerOn s₀ ∧ (machine R).Runs (discoverAndInitHidDevices, s₀) (.ret (), s)

/-- The idle loop of the kernel after boot. -/
abbrev IdleSession (R : Rules) := (machine R).Session (fun _ : Unit => pollHotplug) (Booted R)

/-- The entry stands for the device on its port: the port exists, and the slot was addressed on it
after a device was last connected there. -/
def Kernel.StandsFor (s : Kernel) (e : ActivePort) (p : Nat) : Prop :=
  p < s.hw.maxPorts ∧ e.rootPort = p + 1 ∧ s.SentAddress 0 (s.hw.port p).connectedAt e.slotId (p + 1)

/-- The registry names the ports with a device, and each entry stands for the device that is there. -/
def Kernel.RegistryFollows (s : Kernel) : Prop :=
  (∀ r, s.Registered r ↔ ∃ p, p < s.hw.maxPorts ∧ r = p + 1 ∧ (s.hw.port p).ccs = true) ∧
  ∀ e ∈ s.activePorts, ∃ p, s.StandsFor e p

/-- A device is on the port, or its connection changed since the reset. -/
def Kernel.Seen (s : Kernel) (p : Nat) : Prop := (s.hw.port p).ccs = true ∨ (s.hw.port p).csc = true

/-! ## Steps -/

/-- The operations that leave the registry, its lock and the port changes on record alone. -/
def Op.aside : Op → Bool
  | .setActive _ | .initFailed | .pollEventRing => false
  | .lock l _ | .unlock l => l ≠ .activePorts
  | .storeFlag f _ | .swapFlag f _ => f ≠ .portChangePending
  | _ => true

theorem aside_of_setup {o : Op} (h : o.setup = true) : o.aside = true := by
  cases o
  case lock l site => cases l <;> first | rfl | cases h
  case unlock l => cases l <;> first | rfl | cases h
  case storeFlag f b => cases f <;> first | rfl | cases h
  case swapFlag | setActive | initFailed | pollEventRing => cases h
  all_goals rfl

/-- What holds of a step of the surroundings, and of an operation of the main context that leaves
the registry alone. -/
structure AsideStep (s s' : Kernel) : Prop where
  held : s'.held .activePorts = s.held .activePorts
  active : s'.activePorts = s.activePorts
  xhci : s'.xhci.isSome = s.xhci.isSome
  hhdm : s'.hhdm = s.hhdm
  boxes : s'.boxes = s.boxes
  maxPorts : s'.hw.maxPorts = s.hw.maxPorts
  commands : s.hw.commands <+: s'.hw.commands
  clock : s.hw.clock ≤ s'.hw.clock
  dirty : s.PortDirty → s'.PortDirty
  attached : ∀ p, (s'.hw.port p).ccs = (s.hw.port p).ccs ∨ s'.PortDirty
  seen : ∀ p, s.Seen p → s'.Seen p
  connected : ∀ p, (s'.hw.port p).connectedAt = (s.hw.port p).connectedAt ∨ ((s'.hw.port p).connectedAt ≤ s'.hw.clock ∧
    (s.Seen p → s.held .activePorts = false ∧ ¬ s.Registered (p + 1)))

section Steps

variable {s s' : Kernel}

/-- A port change goes on record, or one is on record already. -/
theorem portChange_dirty {p : Nat} {port : Port} {t : Trb} (ht : t.trbType = 34)
    (h : (s.hw.port p).csc = false ∨ s.PortDirty) : Kernel.PortDirty { s with hw := s.hw.portChange p port t } := by
  unfold Controller.portChange
  rcases h with h | h | ⟨e, he, h34⟩
  · refine .inr ⟨⟨t, .port p⟩, ?_, ht⟩
    rw [h]
    exact List.mem_append_right _ (List.mem_singleton.2 rfl)
  · exact .inl h
  · refine .inr ⟨e, ?_, h34⟩
    dsimp only
    split
    · exact he
    · exact List.mem_append_left _ he

theorem portChange_self (hw : Controller) (p : Nat) (port : Port) (t : Trb) : (hw.portChange p port t).port p = port :=
  Function.update_self _ _ _

theorem portChange_other (hw : Controller) {p q : Nat} (port : Port) (t : Trb) (h : q ≠ p) :
    (hw.portChange p port t).port q = hw.port q :=
  Function.update_of_ne h _ _

/-- The change of one port, once it is on record. -/
theorem asideStep_portChange {p : Nat} {port : Port} {t : Trb} (ht : t.trbType = 34)
    (hd : (s.hw.port p).csc = false ∨ s.PortDirty) (hcsc : port.csc = true)
    (hat : port.connectedAt = (s.hw.port p).connectedAt ∨ (port.connectedAt ≤ s.hw.clock + 1 ∧
      (s.Seen p → s.held .activePorts = false ∧ ¬ s.Registered (p + 1)))) :
    AsideStep s { s with hw := s.hw.portChange p port t } where
  held := rfl
  active := rfl
  xhci := rfl
  hhdm := rfl
  boxes := rfl
  maxPorts := rfl
  commands := List.prefix_rfl
  clock := Nat.le_succ _
  dirty h := portChange_dirty ht (.inr h)
  attached _ := .inr (portChange_dirty ht hd)
  seen q h := by
    by_cases hq : q = p
    · subst hq
      exact .inr ((congrArg Port.csc (portChange_self s.hw q port t)).trans hcsc)
    · have hp := portChange_other s.hw port t hq
      exact h.imp (congrArg Port.ccs hp).trans (congrArg Port.csc hp).trans
  connected q := by
    by_cases hq : q = p
    · subst hq
      have hp := congrArg Port.connectedAt (portChange_self s.hw q port t)
      exact hat.imp hp.trans fun h => ⟨Nat.le_trans (Nat.le_of_eq hp) h.1, h.2⟩
    · exact .inl (congrArg Port.connectedAt (portChange_other s.hw port t hq))

theorem poll_dirty (h : s.PortDirty) : s.pollEventRing.PortDirty := by
  unfold Kernel.PortDirty Kernel.pollEventRing pollQueue
  cases he : s.hw.events with
  | nil =>
    rcases h with h | ⟨e, hm, -⟩
    · exact .inl h
    · rw [he] at hm; cases hm
  | cons e rest =>
    -- the flag is set already; or its event is consumed now and sets it; or it is still unread
    rcases h with h | ⟨e', hm, h34⟩
    · refine .inl ?_
      show (s.globals.dispatch e.trb).flag .portChangePending = true
      unfold Globals.dispatch
      split
      · rfl
      · exact h
      · split
        · exact h
        · split <;> exact h
      · exact h
    · rw [he] at hm
      rcases List.mem_cons.1 hm with rfl | hm
      · refine .inl ?_
        show (s.globals.dispatch e'.trb).flag .portChangePending = true
        unfold Globals.dispatch
        rw [h34]
        rfl
      · exact .inr ⟨e', hm, h34⟩

theorem AsideStep.refl (s : Kernel) : AsideStep s s where
  held := rfl
  active := rfl
  xhci := rfl
  hhdm := rfl
  boxes := rfl
  maxPorts := rfl
  commands := List.prefix_rfl
  clock := Nat.le_refl _
  dirty h := h
  attached _ := .inl rfl
  seen _ h := h
  connected _ := .inl rfl

theorem asideStep_driven (h : Driven s s') : AsideStep s s' := by
  obtain ⟨ts, is, hw⟩ := h.hw
  refine ⟨h.registry, h.activePorts, by rw [h.xhci], h.hhdm, h.boxes, by rw [hw], by rw [hw], by rw [hw], fun hd => ?_,
    fun p => by rw [hw]; exact .inl rfl, fun p hp => ?_, fun p => by rw [hw]; exact .inl rfl⟩
  · unfold Kernel.PortDirty
    rw [hw, h.flag .portChangePending nofun nofun]
    exact hd
  · unfold Kernel.Seen
    rw [hw]
    exact hp

theorem AsideStep.trans {s₁ s₂ s₃ : Kernel} (h : AsideStep s₁ s₂) (h' : AsideStep s₂ s₃)
    (hp : s₂.hw.port = s₁.hw.port) : AsideStep s₁ s₃ where
  held := h'.held.trans h.held
  active := h'.active.trans h.active
  xhci := h'.xhci.trans h.xhci
  hhdm := h'.hhdm.trans h.hhdm
  boxes := h'.boxes.trans h.boxes
  maxPorts := h'.maxPorts.trans h.maxPorts
  commands := h.commands.trans h'.commands
  clock := Nat.le_trans h.clock h'.clock
  dirty hd := h'.dirty (h.dirty hd)
  attached p := by rw [← hp]; exact h'.attached p
  seen p hs := h'.seen p (h.seen p hs)
  connected p := by
    have hc := h'.connected p
    unfold Kernel.Seen Kernel.Registered at hc ⊢
    rw [hp, h.held, h.active] at hc
    exact hc

theorem env_asideStep (h : Env hotplugRules s s') : AsideStep s s' := by
  cases h with
  | interrupt hi h =>
    have hd := handler_driven h
    split at hd
    · have hpoll : AsideStep s s.pollEventRing :=
        { AsideStep.refl s with dirty := poll_dirty, attached := fun _ => .inl rfl }
      exact hpoll.trans (asideStep_driven hd) rfl
    · exact asideStep_driven hd
  | connect speed t ht hp hccs hr =>
    refine asideStep_portChange ht (hr.imp_right And.left) rfl (.inr ⟨Nat.le_refl _, fun hs => ?_⟩)
    rcases hr with hr | ⟨-, hr | hr⟩
    · exact (hs.elim (fun h => by rw [hccs] at h; cases h) fun h => by rw [hr] at h; cases h)
    · rw [hccs] at hr; cases hr
    · exact hr
  | disconnect t ht hp hccs hr => exact asideStep_portChange ht (hr.imp_right And.left) rfl (.inl rfl)
  | answer | complete =>
    exact { AsideStep.refl s with
      dirty := fun h => h.imp_right fun ⟨e, he, h34⟩ => ⟨e, List.mem_append_left _ he, h34⟩
      attached := fun _ => .inl rfl }
  | dma => exact { AsideStep.refl s with }

theorem exec_asideStep {o : Op} {r : Ret o} (ho : o.aside = true) (he : s.exec o = some (r, s')) : AsideStep s s' := by
  have hk := exec_keeps he
  have hne : ∀ o', o'.aside = false → o ≠ o' := fun o' h' h => by rw [h, h'] at ho; cases ho
  obtain ⟨hev, -⟩ := hk.events (hne _ rfl)
  have hf := hk.flag .portChangePending (fun _ => hne _ rfl) (fun _ => hne _ rfl) (hne _ rfl)
  refine ⟨hk.held .activePorts (fun _ => hne _ rfl) (hne _ rfl), hk.activePorts fun _ => hne _ rfl, hk.xhci, hk.hhdm,
    hk.boxes, hk.maxPorts, hk.commands, Nat.le_of_eq hk.clock.symm, fun h => ?_, fun p => .inl (by rw [hk.port]),
      fun p h => ?_,
    fun p => .inl (by rw [hk.port])⟩
  · unfold Kernel.PortDirty
    rw [hf, hev]
    exact h
  · unfold Kernel.Seen
    rw [hk.port]
    exact h

end Steps

/-! ## The registry while it is worked on -/

/-- What never changes its truth: the controller is there, the heap is mapped, and no device was
connected later than now. -/
structure Grounded (s : Kernel) : Prop where
  xhci : s.xhci.isSome = true
  mapped : ∃ off, s.hhdm = some off ∧ ∀ n, off < s.boxes n
  maxPorts : s.hw.maxPorts < 256
  clock : ∀ p, (s.hw.port p).connectedAt ≤ s.hw.clock

/-- The entry stands for what its port had last, and the port is one whose change would be noticed. -/
def Kernel.Fresh (s : Kernel) (e : ActivePort) : Prop := ∃ p, s.Seen p ∧ s.StandsFor e p

/-- Among the ports in `range` these are the ones that have a device, unless a change is on record. -/
def Kernel.Scanned (s : Kernel) (range ports : Nat → Prop) : Prop :=
  s.PortDirty ∨ ∀ p, range p → ((s.hw.port p).ccs = true ↔ ports p)

/-- Between the calls, and in a call before the registry is locked. -/
structure Unlocked (s : Kernel) : Prop where
  grounded : Grounded s
  fresh : ∀ e ∈ s.activePorts, s.Fresh e

/-- With the registry `l` locked, for the port states `states`. -/
structure Under (states : List (Nat × Nat)) (l : List ActivePort) (s : Kernel) : Prop where
  grounded : Grounded s
  held : s.held .activePorts = true
  active : s.activePorts = l
  fresh : ∀ e ∈ l, s.Fresh e
  scanned : s.Scanned (· < s.hw.maxPorts) fun p => p ∈ states.map Prod.fst
  seen : ∀ st ∈ states, st.1 < s.hw.maxPorts ∧ s.Seen st.1

section Aside

variable {s s' : Kernel}

theorem AsideStep.grounded (h : AsideStep s s') (hg : Grounded s) : Grounded s' where
  xhci := h.xhci.trans hg.xhci
  mapped := by rw [h.hhdm, h.boxes]; exact hg.mapped
  maxPorts := by rw [h.maxPorts]; exact hg.maxPorts
  clock p := by
    rcases h.connected p with he | ⟨hle, -⟩
    · rw [he]; exact Nat.le_trans (hg.clock p) h.clock
    · exact hle

theorem AsideStep.scanned {range ports : Nat → Prop} (h : AsideStep s s') (hs : s.Scanned range ports) :
    s'.Scanned range ports := by
  rcases hs with hd | hs
  · exact .inl (h.dirty hd)
  · by_cases hd : s'.PortDirty
    · exact .inl hd
    · refine .inr fun p hp => ?_
      rw [(h.attached p).resolve_right hd]
      exact hs p hp

/-- The device on a port that was seen is not replaced while the registry is locked or has an entry
for the port. -/
theorem AsideStep.connectedAt (h : AsideStep s s') {p : Nat} (hs : s.Seen p)
    (hb : s.held .activePorts = true ∨ s.Registered (p + 1)) :
    (s'.hw.port p).connectedAt = (s.hw.port p).connectedAt := by
  rcases h.connected p with he | ⟨-, hn⟩
  · exact he
  · obtain ⟨hfree, hreg⟩ := hn hs
    exact absurd hb (fun hb => hb.elim (fun hh => by rw [hfree] at hh; cases hh) hreg)

theorem AsideStep.fresh {e : ActivePort} (h : AsideStep s s') (hf : s.Fresh e)
    (hb : s.held .activePorts = true ∨ e ∈ s.activePorts) : s'.Fresh e := by
  obtain ⟨p, hs, hp, he, ha⟩ := hf
  have hc := h.connectedAt hs (hb.imp_right fun hm => ⟨e, hm, he⟩)
  exact ⟨p, h.seen p hs, by rw [h.maxPorts]; exact hp, he, hc ▸ sentAddress_mono h.commands ha⟩

theorem AsideStep.unlocked (h : AsideStep s s') (hu : Unlocked s) : Unlocked s' where
  grounded := h.grounded hu.grounded
  fresh e he := by
    rw [h.active] at he
    exact h.fresh (hu.fresh e he) (.inr he)

theorem AsideStep.under {states : List (Nat × Nat)} {l : List ActivePort} (h : AsideStep s s') (hu : Under states l s) :
    Under states l s' where
  grounded := h.grounded hu.grounded
  held := h.held.trans hu.held
  active := h.active.trans hu.active
  fresh e he := h.fresh (hu.fresh e he) (.inl hu.held)
  scanned := by rw [h.maxPorts]; exact h.scanned hu.scanned
  seen st hm := ⟨by rw [h.maxPorts]; exact (hu.seen st hm).1, h.seen _ (hu.seen st hm).2⟩

end Aside

/-- An assertion that such steps keep. -/
theorem framed_aside {P : Kernel → Prop} (h : ∀ s s', AsideStep s s' → P s → P s') :
    Framed hotplugRules Op.aside P where
  stable s s' hp he := h s s' (env_asideStep he) hp
  frame _ s _ s' ho he hp := h s s' (exec_asideStep ho he) hp

section Discover

variable {states : List (Nat × Nat)} {l : List ActivePort}

theorem framed_under (states : List (Nat × Nat)) (l : List ActivePort) :
    Framed hotplugRules Op.aside (Under states l) :=
  framed_aside fun _ _ h hu => h.under hu

theorem aside_all {α : Type} {p : KProg α} (h : p.All fun o => o.setup = true) : p.All fun o => o.aside = true :=
  h.mono fun _ => aside_of_setup

/-- The registry is replaced by entries that are as fresh. -/
theorem exec_setActive {l l' : List ActivePort} {s s' : Kernel} {r : Unit} (h : Under states l s)
    (hl : ∀ e ∈ l', s.Fresh e) (he : s.exec (.setActive l') = some (r, s')) : Under states l' s' := by
  cases he
  exact ⟨⟨h.grounded.xhci, h.grounded.mapped, h.grounded.maxPorts, h.grounded.clock⟩, h.held, rfl, hl,
    h.scanned, h.seen⟩

/-! ### `init_one_device` -/

/-- Under the lock, and `t` is not before the last connection of port `p`. -/
def UnderSince (states : List (Nat × Nat)) (l : List ActivePort) (p t : Nat) (s : Kernel) : Prop :=
  Under states l s ∧ s.Seen p ∧ p < s.hw.maxPorts ∧ (s.hw.port p).connectedAt ≤ t

theorem framed_underSince (states : List (Nat × Nat)) (l : List ActivePort) (p t : Nat) :
    Framed hotplugRules Op.aside (UnderSince states l p t) :=
  framed_aside fun s s' h ⟨hu, hs, hp, hc⟩ =>
    ⟨h.under hu, h.seen p hs, by rw [h.maxPorts]; exact hp, by rw [h.connectedAt hs (.inl hu.held)]; exact hc⟩

/-- `address_device` for a device on `p` makes an entry with that slot fresh. -/
theorem addressDevice_fresh {p : Nat} (hp : ∃ st ∈ states, st.1 = p) (slotId speed : Nat) :
    (machine hotplugRules).Triple (Under states l) (addressDevice slotId (p + 1) speed) fun _ s =>
      Under states l s ∧ ∀ k m, s.Fresh ⟨p + 1, slotId, k, m⟩ := by
  intro s hu r s' hr
  obtain ⟨st, hst, rfl⟩ := hp
  obtain ⟨hlt, hseen⟩ := hu.seen st hst
  obtain ⟨off, hoff, hbox⟩ := hu.grounded.mapped
  have hroot : st.1 + 1 < 256 := Nat.lt_of_le_of_lt hlt hu.grounded.maxPorts
  obtain ⟨v, -, -, hsent⟩ := addressDevice_sends (n := 0) (t := s.hw.clock) (d := s.dcbaa) slotId speed s
    ⟨hoff, hbox, Nat.zero_le _, Nat.le_refl _, rfl⟩ r s' hr
  rw [Nat.mod_eq_of_lt hroot] at hsent
  obtain ⟨hu', hseen', hlt', hc⟩ := (framed_underSince states l st.1 s.hw.clock).triple
    (aside_all ((addressDevice_ops slotId (st.1 + 1) speed).mono fun _ => setup_of_slotting)) s
    ⟨hu, hseen, hlt, hu.grounded.clock _⟩ r s' hr
  obtain ⟨i, c, h0, hi, h1, h2, h3, ht⟩ := hsent
  exact ⟨hu', fun _ _ => ⟨st.1, hseen', hlt', rfl, i, c, h0, hi, h1, h2, h3, Nat.le_trans hc ht⟩⟩

theorem initOneDevice_fresh {p : Nat} (hp : ∃ st ∈ states, st.1 = p) (speed : Nat) :
    (machine hotplugRules).Triple (Under states l) (initOneDevice (p + 1) speed) fun r s =>
      Under states l s ∧ ∀ e, r = some e → e.rootPort = p + 1 ∧ s.Fresh e := by
  have hu := framed_under states l
  refine Machine.triple_bind (hu.triple (aside_all (enableSlot_ops.mono fun _ => setup_of_command))) fun r => ?_
  split
  · exact Machine.triple_ret hu.stable fun _ h => ⟨h, nofun⟩
  · rename_i slotId
    have hf : Framed hotplugRules Op.aside fun s => Under states l s ∧ ∀ k m, s.Fresh ⟨p + 1, slotId, k, m⟩ :=
      framed_aside fun s s' h ⟨hu, hf⟩ => ⟨h.under hu, fun k m => h.fresh (hf k m) (.inl hu.held)⟩
    refine Machine.triple_bind (addressDevice_fresh hp slotId speed) fun r => ?_
    split
    · exact Machine.triple_ret hf.stable fun _ h => ⟨h.1, nofun⟩
    · refine Machine.triple_bind ((hf.triple (aside_all (setupDevice_ops slotId (p + 1)))).returns
        (setupDevice_returns slotId (p + 1))) fun e => ?_
      refine Machine.triple_ret (fun s s' h he => ⟨h.1, hf.stable s s' h.2 he⟩) fun s h => ⟨h.2.1, fun e' he => ?_⟩
      obtain ⟨⟨hroot, hslot⟩, -, hfr⟩ := h
      cases he
      exact ⟨hroot, by rw [← hroot, ← hslot] at hfr; exact hfr e.hasKeyboard e.hasMouse⟩

/-! ### The loops -/

theorem disconnectLoop_keeps (kept rest : List ActivePort) :
    (machine hotplugRules).Triple (Under states (kept ++ rest)) (disconnectLoop states kept rest) fun _ s =>
      ∃ l, Under states l s ∧ ∀ e ∈ l, e ∈ kept ∨ ∃ st ∈ states, e.rootPort = st.1 + 1 := by
  -- by induction on the entries from the index on; `kept` are those before it, whose ports are connected
  induction rest generalizing kept with
  | nil =>
    rw [List.append_nil]
    exact Machine.triple_ret (framed_under states kept).stable fun _ h => ⟨kept, h, fun _ => .inl⟩
  | cons entry rest ih =>
    unfold disconnectLoop
    split
    · rename_i hany
      have hmem : ∃ st ∈ states, entry.rootPort = st.1 + 1 := by
        obtain ⟨st, hst, heq⟩ := List.any_eq_true.1 hany
        exact ⟨st, hst, (eq_of_beq heq).symm⟩
      have hih := ih (kept ++ [entry])
      rw [List.append_assoc, List.singleton_append] at hih
      refine hih.conseq (fun _ h => h) fun _ s hs => ?_
      obtain ⟨l, hl, hk⟩ := hs
      refine ⟨l, hl, fun e he => ?_⟩
      rcases hk e he with hm | hm
      · rcases List.mem_append.1 hm with hm | hm
        · exact .inl hm
        · rw [List.mem_singleton.1 hm]; exact .inr hmem
      · exact .inr hm
    · refine Machine.triple_call (framed_under states _).stable (fun _ => Under states (kept ++ rest))
        (fun s r s' h _ he => exec_setActive h (fun e hm => h.fresh e ?_) he) fun _ => ?_
      · exact (List.mem_append.1 hm).elim (List.mem_append_left _) fun hm =>
          List.mem_append_right _ (List.mem_cons_of_mem _ hm)
      · exact Machine.triple_bind ((framed_under states _).triple (aside_all (shutdownDevice_ops entry))) fun _ =>
          ih kept

theorem connectLoop_registers (todo : List (Nat × Nat)) (hsub : ∀ st ∈ todo, st ∈ states) (l : List ActivePort) :
    (machine hotplugRules).Triple (Under states l) (connectLoop todo) fun _ s =>
      ∃ l', Under states l' s ∧ (∀ e ∈ l, e ∈ l') ∧ (∀ e ∈ l', e ∈ l ∨ ∃ st ∈ states, e.rootPort = st.1 + 1) ∧
        ∀ st ∈ todo, ∃ e ∈ l', e.rootPort = st.1 + 1 := by
  induction todo generalizing l with
  | nil =>
    exact Machine.triple_ret (framed_under states l).stable fun _ h =>
      ⟨l, h, fun _ => id, fun _ => .inl, fun _ hm => absurd hm List.not_mem_nil⟩
  | cons st rest ih =>
    obtain ⟨port, speed⟩ := st
    have hin : (port, speed) ∈ states := hsub _ List.mem_cons_self
    have ih := fun l => ih (fun st hm => hsub st (List.mem_cons_of_mem _ hm)) l
    refine Machine.triple_call (framed_under states l).stable (fun r s => r = l ∧ Under states l s)
      (fun s r s' h _ he => by cases he; exact ⟨h.active, h⟩) fun r s ⟨hr, hs⟩ => ?_
    subst hr
    refine (?_ : (machine hotplugRules).Triple (Under states r) (if r.any (fun e => e.rootPort == port + 1) then _
      else _) _) s hs
    split
    · rename_i hany
      obtain ⟨e, he, hroot⟩ := List.any_eq_true.1 hany
      refine (ih r).conseq (fun _ h => h) fun _ s ⟨l', hu, hl, hl', hr⟩ => ⟨l', hu, hl, hl', fun st hm => ?_⟩
      rcases List.mem_cons.1 hm with rfl | hm
      · exact ⟨e, hl e he, eq_of_beq hroot⟩
      · exact hr st hm
    · refine Machine.triple_bind (initOneDevice_fresh ⟨_, hin, rfl⟩ speed) fun o => ?_
      cases o with
      | none =>
        -- excluded: `init_one_device` returned `None`
        exact Machine.triple_call (P := fun s => Under states r s ∧ _) (fun s s' h he =>
          ⟨(framed_under states r).stable s s' h.1 he, nofun⟩) (fun _ _ => False) (fun _ _ _ _ ha _ => by cases ha)
          fun _ _ h => h.elim
      | some e =>
        have hf : Framed hotplugRules Op.aside fun s => Under states r s ∧ e.rootPort = port + 1 ∧ s.Fresh e :=
          framed_aside fun s s' h ⟨hu, he, hf⟩ => ⟨h.under hu, he, h.fresh hf (.inl hu.held)⟩
        refine Machine.Triple.conseq (P := fun s => Under states r s ∧ e.rootPort = port + 1 ∧ s.Fresh e) ?_
          (fun s h => ⟨h.1, h.2 e rfl⟩) fun _ _ h => h
        refine Machine.triple_call hf.stable (fun a s => a = r ∧ Under states r s ∧ e.rootPort = port + 1 ∧ s.Fresh e)
          (fun s a s' h _ he => by cases he; exact ⟨h.1.active, h⟩) fun a s ⟨ha, hs⟩ => ?_
        subst ha
        refine (?_ : (machine hotplugRules).Triple (fun s => Under states a s ∧ e.rootPort = port + 1 ∧
          s.Fresh e) _ _) s hs
        refine Machine.triple_call hf.stable (fun _ s => Under states (a ++ [e]) s ∧ e.rootPort = port + 1)
          (fun s _ s' h _ he => ⟨exec_setActive h.1 (fun e' hm => ?_) he, h.2.1⟩) fun _ => ?_
        · rcases List.mem_append.1 hm with hm | hm
          · exact h.1.fresh e' hm
          · rw [List.mem_singleton.1 hm]; exact h.2.2
        · intro s ⟨hs, hroot⟩ b s' hrun
          obtain ⟨l', hu, hl, hl', hr⟩ := ih (a ++ [e]) s hs b s' hrun
          refine ⟨l', hu, fun e' hm => hl e' (List.mem_append_left _ hm), fun e' hm => ?_, fun st hm => ?_⟩
          · rcases hl' e' hm with hm | hm
            · rcases List.mem_append.1 hm with hm | hm
              · exact .inl hm
              · rw [List.mem_singleton.1 hm]; exact .inr ⟨_, hin, hroot⟩
            · exact .inr hm
          · rcases List.mem_cons.1 hm with rfl | hm
            · exact ⟨e, hl e (List.mem_append_right _ (List.mem_singleton.2 rfl)), hroot⟩
            · exact hr st hm

/-! ### The ports -/

theorem portsc_connected (p : Port) : p.portsc &&& 1 ≠ 0 ↔ p.ccs = true := by
  obtain ⟨ccs, csc, speed, at_⟩ := p
  have h : ∀ (ccs csc : Bool) (speed : BitVec 4),
      (((if ccs then 1 else 0) ||| (speed.zeroExtend 32 <<< 10) ||| (if csc then 1#32 <<< 17 else 0)) &&& 1 ≠ 0) ↔
        ccs = true := by decide
  exact h ccs csc speed

/-- What the scan of the ports from `port` on found. -/
def ScanResult (port n : Nat) (states : List (Nat × Nat)) (s : Kernel) : Prop :=
  s.Scanned (fun p => port ≤ p ∧ p < port + n) (fun p => p ∈ states.map Prod.fst) ∧
  ∀ st ∈ states, (port ≤ st.1 ∧ st.1 < port + n) ∧ s.Seen st.1

theorem framed_scanResult (port n : Nat) (states : List (Nat × Nat)) :
    Framed hotplugRules Op.aside (ScanResult port n states) :=
  framed_aside fun _ _ h ⟨hs, hr⟩ => ⟨h.scanned hs, fun st hm => ⟨(hr st hm).1, h.seen _ (hr st hm).2⟩⟩

theorem scanPorts_ops (port n : Nat) : (scanPorts port n).All fun o => o.aside = true :=
  scanPorts_all (fun _ => rfl) port n

theorem scanPorts_result (port n : Nat) :
    (machine hotplugRules).Triple (fun _ => True) (scanPorts port n) (ScanResult port n) := by
  -- by induction on the ports that are left; what was read of a port stays true, or a change is on record
  induction n generalizing port with
  | zero =>
    exact Machine.triple_ret (fun _ _ _ _ => trivial) fun _ _ =>
      ⟨.inr fun p hp => by omega, fun _ hm => absurd hm List.not_mem_nil⟩
  | succ n ih =>
    have hone : ∀ portsc : BitVec 32, Framed hotplugRules Op.aside fun s =>
        s.Scanned (· = port) (fun _ => portsc &&& 1 ≠ 0) ∧ (portsc &&& 1 ≠ 0 → s.Seen port) := fun portsc =>
      framed_aside fun s s' h ⟨hs, hr⟩ => ⟨h.scanned hs, fun hp => h.seen port (hr hp)⟩
    refine Machine.triple_call (fun _ _ _ _ => trivial)
      (fun portsc s => s.Scanned (· = port) (fun _ => portsc &&& 1 ≠ 0) ∧ (portsc &&& 1 ≠ 0 → s.Seen port))
      (fun s portsc s' _ _ he => ?_) fun portsc => ?_
    · cases he
      refine ⟨.inr fun p hp => ?_, fun hp => .inl ((portsc_connected _).1 hp)⟩
      rw [hp]
      exact (portsc_connected _).symm
    · refine Machine.triple_bind (((hone portsc).triple (scanPorts_ops (port + 1) n)).and (ih (port + 1)) |>.conseq
        (fun _ h => ⟨h, trivial⟩) fun _ _ h => h) fun rest => ?_
      refine Machine.triple_ret ((hone portsc).stable.and (framed_scanResult (port + 1) n rest).stable) fun s h => ?_
      obtain ⟨⟨hs, hseen⟩, hrest, hr⟩ := h
      refine ⟨?_, fun st hm => ?_⟩
      · rcases hs with hd | hs
        · exact .inl hd
        rcases hrest with hd | hrest
        · exact .inl hd
        refine .inr fun p hp => ?_
        by_cases heq : p = port
        · subst heq
          rw [hs p rfl]
          have hnot : p ∉ rest.map Prod.fst := fun hm => by
            obtain ⟨st, hst, he⟩ := List.mem_map.1 hm
            have := (hr st hst).1.1
            omega
          split
          · rename_i hc
            exact ⟨fun _ => List.mem_cons_self, fun _ => hc⟩
          · rename_i hc
            exact ⟨fun h => absurd h hc, fun hm => absurd hm hnot⟩
        · rw [hrest p ⟨by omega, by omega⟩]
          split
          · exact ⟨List.mem_cons_of_mem _, fun hm => (List.mem_cons.1 hm).resolve_left heq⟩
          · exact Iff.rfl
      · have hmem : st ∈ rest ∨ (st.1 = port ∧ portsc &&& 1 ≠ 0) := by
          split at hm
          · rename_i hc
            rcases List.mem_cons.1 hm with rfl | hm
            · exact .inr ⟨rfl, hc⟩
            · exact .inl hm
          · exact .inl hm
        rcases hmem with hm | ⟨heq, hc⟩
        · exact ⟨by have := (hr st hm).1; omega, (hr st hm).2⟩
        · rw [heq]
          exact ⟨⟨Nat.le_refl _, by omega⟩, hseen hc⟩

theorem framed_unlocked : Framed hotplugRules Op.aside Unlocked := framed_aside fun _ _ h hu => h.unlocked hu

/-- What the snapshot of the ports says. -/
def Snapshot (states : List (Nat × Nat)) (s : Kernel) : Prop :=
  s.Scanned (· < s.hw.maxPorts) (fun p => p ∈ states.map Prod.fst) ∧ ∀ st ∈ states, st.1 < s.hw.maxPorts ∧ s.Seen st.1

theorem framed_snapshot (states : List (Nat × Nat)) : Framed hotplugRules Op.aside (Snapshot states) :=
  framed_aside fun s s' h ⟨hs, hr⟩ => by
    unfold Snapshot
    rw [h.maxPorts]
    exact ⟨h.scanned hs, fun st hm => ⟨(hr st hm).1, h.seen _ (hr st hm).2⟩⟩

theorem portStates_snapshot :
    (machine hotplugRules).Triple Unlocked portStates fun states s => Unlocked s ∧ Snapshot states s := by
  have hu := framed_unlocked
  refine hu.act rfl fun _ => hu.act rfl fun _ => ?_
  have hm : ∀ m, Framed hotplugRules Op.aside fun s => Unlocked s ∧ s.hw.maxPorts = m := fun m =>
    framed_aside fun s s' h ⟨hu, hm⟩ => ⟨h.unlocked hu, h.maxPorts.trans hm⟩
  refine Machine.triple_call hu.stable (fun m s => Unlocked s ∧ s.hw.maxPorts = m)
    (fun s m s' h _ he => by cases he; exact ⟨h, rfl⟩) fun m => ?_
  have hscan : (machine hotplugRules).Triple (fun s => Unlocked s ∧ s.hw.maxPorts = m) (scanPorts 0 m) fun states s =>
      Unlocked s ∧ Snapshot states s := by
    refine (((hm m).triple (scanPorts_ops 0 m)).and (scanPorts_result 0 m)).conseq (fun _ h => ⟨h, trivial⟩) ?_
    rintro states s ⟨⟨hu, hmax⟩, hs, hr⟩
    rw [Nat.zero_add] at hs hr
    refine ⟨hu, hs.imp_right fun h p hp => h p ⟨Nat.zero_le _, hmax ▸ hp⟩, ?_⟩
    intro st hst
    rw [hmax]
    exact ⟨(hr st hst).1.2, (hr st hst).2⟩
  refine Machine.triple_bind hscan fun states => ?_
  have hs : Framed hotplugRules Op.aside fun s => Unlocked s ∧ Snapshot states s :=
    ⟨hu.stable.and (framed_snapshot states).stable, fun o s r s' ho he h =>
      ⟨hu.frame o s r s' ho he h.1, (framed_snapshot states).frame o s r s' ho he h.2⟩⟩
  exact hs.act rfl fun _ => Machine.triple_ret hs.stable fun _ h => h

end Discover

/-! ## The calls -/

/-- The registry names the ports that have a device, unless a port change is on record. -/
structure Synced (s : Kernel) : Prop where
  unlocked : Unlocked s
  scanned : s.Scanned (· < s.hw.maxPorts) fun p => s.Registered (p + 1)

theorem stable_synced : (machine hotplugRules).Stable Synced := by
  intro s s' hs he
  have h := env_asideStep he
  refine ⟨h.unlocked hs.unlocked, ?_⟩
  have hr : (fun p => s'.Registered (p + 1)) = fun p => s.Registered (p + 1) := by
    unfold Kernel.Registered
    rw [h.active]
  rw [hr, h.maxPorts]
  exact h.scanned hs.scanned

/-- After the loops the registry has the ports of the snapshot. -/
theorem Under.synced {states : List (Nat × Nat)} {l : List ActivePort} {s s' : Kernel} {r : Unit} (h : Under states l s)
    (hsub : ∀ e ∈ l, ∃ st ∈ states, e.rootPort = st.1 + 1) (hsup : ∀ st ∈ states, ∃ e ∈ l, e.rootPort = st.1 + 1)
    (he : s.exec (.unlock .activePorts) = some (r, s')) : Synced s' := by
  cases he
  refine ⟨⟨⟨h.grounded.xhci, h.grounded.mapped, h.grounded.maxPorts, h.grounded.clock⟩, fun e hm => ?_⟩, ?_⟩
  · exact h.fresh e (h.active ▸ hm)
  · refine h.scanned.imp_right fun hs p hp => (hs p hp).trans ⟨fun hm => ?_, fun ⟨e, hm, hroot⟩ => ?_⟩
    · obtain ⟨st, hst, rfl⟩ := List.mem_map.1 hm
      obtain ⟨e, he, hroot⟩ := hsup st hst
      exact ⟨e, h.active.symm ▸ he, hroot⟩
    · obtain ⟨st, hst, hst'⟩ := hsub e (h.active ▸ hm)
      exact List.mem_map.2 ⟨st, hst, by omega⟩

theorem discover_synced : (machine hotplugRules).Triple Unlocked discoverAndInitHidDevices fun _ => Synced := by
  refine Machine.triple_bind portStates_snapshot fun states => ?_
  refine Machine.triple_call (framed_unlocked.stable.and (framed_snapshot states).stable)
    (fun _ s => ∃ l, Under states l s) (fun s r s' h _ he => ?_) fun _ => Machine.triple_exists fun l => ?_
  · -- the lock of the registry is taken, and from here on the assertion is `Under`
    obtain ⟨hu, hs, hr⟩ := h
    change (if s.held .activePorts = true then none else some _) = _ at he
    split at he
    · cases he
    · cases he
      exact ⟨s.activePorts, ⟨hu.grounded.xhci, hu.grounded.mapped, hu.grounded.maxPorts, hu.grounded.clock⟩,
        Function.update_self Lock.activePorts true s.held, rfl, hu.fresh, hs, hr⟩
  · refine Machine.triple_call (framed_under states l).stable (fun r s => r = l ∧ Under states l s)
      (fun s r s' h _ he => by cases he; exact ⟨h.active, h⟩) fun r s ⟨hr, hs⟩ => ?_
    subst hr
    refine (?_ : (machine hotplugRules).Triple (Under states r) _ _) s hs
    refine Machine.triple_bind (disconnectLoop_keeps [] r) fun _ => Machine.triple_exists fun l => ?_
    intro s ⟨hu, hk⟩ b s' hrun
    refine (?_ : (machine hotplugRules).Triple (Under states l) (connectLoop states >>= fun _ => unlock .activePorts)
      fun _ => Synced) s hu b s' hrun
    refine Machine.triple_bind (connectLoop_registers states (fun _ h => h) l) fun _ =>
      Machine.triple_exists fun l' => ?_
    refine Machine.triple_call (P := fun s => Under states l' s ∧ _)
      (fun s s' h he => ⟨(framed_under states l').stable s s' h.1 he, h.2⟩) (fun _ => Synced)
      (fun s r s' h _ he => ?_) fun _ => Machine.triple_ret stable_synced fun _ h => h
    -- the lock is given back: the registry has the ports of the snapshot
    obtain ⟨hu, -, hl', hreg⟩ := h
    refine hu.synced (fun e hm => ?_) hreg he
    rcases hl' e hm with hm | hm
    · exact (hk e hm).resolve_left List.not_mem_nil
    · exact hm

theorem pollHotplug_synced : (machine hotplugRules).Triple Synced pollHotplug fun _ => Synced := by
  refine Machine.triple_call stable_synced (fun b s => if b = true then Unlocked s else Synced s)
    (fun s b s' h _ he => ?_) fun b => ?_
  · cases he
    have hu : Unlocked { s with globals := s.globals.storeFlag .portChangePending false } :=
      ⟨⟨h.unlocked.grounded.xhci, h.unlocked.grounded.mapped, h.unlocked.grounded.maxPorts, h.unlocked.grounded.clock⟩,
        h.unlocked.fresh⟩
    split
    · exact hu
    · rename_i hf
      refine ⟨hu, ?_⟩
      rcases h.scanned with (hd | hd) | hs
      · exact absurd hd hf
      · exact .inl (.inr hd)
      · exact .inr hs
  · cases b with
    | false => exact Machine.triple_ret stable_synced fun _ h => h
    | true =>
      refine Machine.triple_call framed_unlocked.stable (fun b s => b = true ∧ Unlocked s)
        (fun s b s' h _ he => by cases he; exact ⟨h.grounded.xhci, h⟩) fun b s ⟨hb, hu⟩ => ?_
      subst hb
      exact discover_synced s hu

/-- If every port change either comes when CSC is clear or while another is on record, and no device
is replaced while its port has an entry or the registry is worked on: whenever everything that was
on record is worked off and the kernel is idle, the registry follows the ports. -/
theorem hotplug_registry {hist : List (Machine.Return Kernel fun _ : Unit => Unit)} {s : Kernel}
    (h : IdleSession hotplugRules hist s) (he : s.hw.events = []) (hf : s.globals.flag .portChangePending = false) :
    s.RegistryFollows := by
  have hs : Synced s := by
    refine h.invariant (fun s ⟨s₀, hp, hr⟩ => ?_) stable_synced fun _ => pollHotplug_synced
    obtain ⟨off, hoff, hbox⟩ := hp.hhdm
    exact discover_synced s₀ ⟨⟨hp.xhci, ⟨off, hoff, hbox⟩, hp.maxPorts, hp.clock⟩, fun e hm => by
      rw [hp.activePorts] at hm; cases hm⟩ () s hr
  have hd : ¬ s.PortDirty := by
    rintro (h | ⟨e, hm, -⟩)
    · rw [hf] at h; cases h
    · rw [he] at hm; cases hm
  have hscan := hs.scanned.resolve_left hd
  refine ⟨fun r => ⟨fun ⟨e, hm, hroot⟩ => ?_, fun ⟨p, hp, hr, hccs⟩ => ?_⟩,
    fun e hm => (hs.unlocked.fresh e hm).imp fun _ => And.right⟩
  · obtain ⟨p, -, hp, hroot', -⟩ := hs.unlocked.fresh e hm
    have hr : r = p + 1 := hroot.symm.trans hroot'
    exact ⟨p, hp, hr, (hscan p hp).2 ⟨e, hm, hroot'⟩⟩
  · rw [hr]
    exact (hscan p hp).1 hccs

/-- After boot with a device on the first of two ports, whose descriptor cannot be read. -/
def bootedDevice : Kernel :=
  stateAfter hotplugRules (ops 15 ++ [.answer 0 (completionTrb 1 1), .interrupt] ++ ops 20 ++
    [.answer 1 (completionTrb 1 1), .interrupt] ++ ops 13 ++ [.complete 0 (transferTrb 4 1 1), .interrupt] ++ ops 5)
    discoverAndInitHidDevices (Kernel.start 2 fun p => if p = 0 then ⟨true, false, 1, 0⟩ else ⟨false, false, 0, 0⟩)

/-- The device is pulled out and another one plugged into the second port; then `poll_hotplug` looks. -/
theorem hotplug_registry_moved :
    ∃ (hist : List (Machine.Return Kernel fun _ : Unit => Unit)) (s : Kernel), IdleSession hotplugRules hist s ∧
      bootedDevice.activePorts = [⟨1, 1, false, false⟩] ∧ s.activePorts = [⟨2, 2, false, false⟩] ∧
      s.RegistryFollows := by
  obtain ⟨⟨⟩, hb, -⟩ : ∃ a, (machine hotplugRules).Runs (discoverAndInitHidDevices,
      Kernel.start 2 fun p => if p = 0 then ⟨true, false, 1, 0⟩ else ⟨false, false, 0, 0⟩) (.ret a, bootedDevice) ∧ _ :=
    runs_stateAfter _ _ _ (fun _ => true) (by decide +kernel)
  obtain ⟨⟨⟩, s, hr, ht⟩ := exists_run (R := hotplugRules)
    ([.disconnect 0 portTrb, .interrupt, .connect 1 1 portTrb, .interrupt] ++
      ops 22 ++ [.answer 2 (completionTrb 1 1), .interrupt] ++ ops 20 ++ [.answer 3 (completionTrb 1 2), .interrupt] ++
      ops 20 ++ [.answer 4 (completionTrb 1 2), .interrupt] ++ ops 13 ++ [.complete 1 (transferTrb 4 2 1),
        .interrupt] ++ ops 5)
    pollHotplug bootedDevice
    (fun _ s => decide (s.activePorts = [⟨2, 2, false, false⟩] ∧ s.hw.events.length = 0 ∧
      s.globals.flag .portChangePending = false)) (by decide +kernel)
  obtain ⟨ha, he, hf⟩ := of_decide_eq_true ht
  have hpower : PowerOn (Kernel.start 2 fun p => if p = 0 then ⟨true, false, 1, 0⟩ else ⟨false, false, 0, 0⟩) :=
    powerOn_start (by decide) _ fun p => by split <;> rfl
  have hboot : IdleSession hotplugRules [] bootedDevice := .boot ⟨_, hpower, hb⟩
  have hs := hboot.call () hr
  exact ⟨_, s, hs, by decide +kernel, ha, hotplug_registry hs (List.length_eq_zero_iff.1 he) hf⟩

/-- After boot with an empty port. -/
def bootedEmpty : Kernel :=
  stateAfter initRules (ops 8) discoverAndInitHidDevices (Kernel.start 1 fun _ => ⟨false, false, 0, 0⟩)

/-- A device comes and goes before `poll_hotplug` looks, and comes back after: CSC is still set, so
nobody hears of it. -/
theorem missed_connect :
    ∃ (hist : List (Machine.Return Kernel fun _ : Unit => Unit)) (s : Kernel), IdleSession initRules hist s ∧
      s.hw.events = [] ∧ s.globals.flag .portChangePending = false ∧ ¬ s.RegistryFollows := by
  obtain ⟨⟨⟩, hb, -⟩ :
    ∃ a, (machine initRules).Runs (discoverAndInitHidDevices, Kernel.start 1 fun _ => ⟨false, false, 0, 0⟩)
      (.ret a, bootedEmpty) ∧ _ := runs_stateAfter _ _ _ (fun _ => true) (by decide +kernel)
  obtain ⟨⟨⟩, s, hr, ht⟩ := exists_run (R := initRules)
    ([.connect 0 1 portTrb, .interrupt, .disconnect 0 portTrb] ++ ops 10 ++ [.connect 0 1 portTrb])
      pollHotplug bootedEmpty
    (fun _ s => decide (s.activePorts = [] ∧ s.hw.events.length = 0 ∧ s.globals.flag .portChangePending = false ∧
      s.hw.maxPorts = 1 ∧ (s.hw.port 0).ccs = true)) (by decide +kernel)
  obtain ⟨ha, he, hf, hm, hccs⟩ := of_decide_eq_true ht
  have hs : IdleSession initRules [] bootedEmpty := .boot ⟨_, powerOn_start (by decide) _ fun _ => rfl, hb⟩
  refine ⟨_, s, hs.call () hr, List.length_eq_zero_iff.1 he, hf, fun ⟨hreg, _⟩ => ?_⟩
  obtain ⟨e, hmem, -⟩ := (hreg 1).2 ⟨0, by omega, rfl, hccs⟩
  rw [ha] at hmem
  cases hmem

end Octagram.Usb

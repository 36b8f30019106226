/-
What `init_usb_controllers` does with several xHCI controllers: `XHCI_INSTANCE` is of the first one,
and so is every use of it. All that were started are driven exactly if there is at most one
(`allOperated_iff`). By induction on the list, every xHCI controller of it was started
(`running_of_runs`), and once an instance is published, it stays (`framed_published`); so two
controllers are never both its own (`length_le_of_operated`).
-/
import Octagram.Usb.NoDevices
import Octagram.Usb.Present

namespace Octagram.Usb

open Octagram.Lib Octagram.Pci

/-! ## The loop -/

section Loop

variable {walk : Memory.Mem → BitVec 64 → Option (BitVec 64)} {s₀ s : Host} {dev : PciDevice}

/-- The loop passes over the controllers that are not xHCI. -/
theorem initAll_filter (list : List PciFunction) : initAll list = initAll (list.filter isXhci) := by
  induction list with
  | nil => rfl
  | cons ctrl rest ih =>
    by_cases h : isXhci ctrl = true
    · rw [List.filter_cons_of_pos h, initAll, initAll, if_pos h, if_pos h, ih]
    · rw [List.filter_cons_of_neg h, initAll, if_neg h, ih]

theorem initAll_cons {ctrl : PciFunction} (h : isXhci ctrl = true) (rest : List PciFunction) :
    initAll (ctrl :: rest) = bringUp ctrl.toPciDevice >>= fun r => publishOrPoll r.1 r.2 >>= fun _ => initAll rest := by
  rw [initAll, if_pos h, initXhciController_eq, Prog.bind_bind]

/-- The branch on `msix_ok` starts nothing and stops nothing. -/
theorem publishOrPoll_running (l : List PciDevice) (msixOk : Bool) (x : Instance) :
    (hostMachine walk).Triple (Running l) (publishOrPoll msixOk x) fun _ => Running l := by
  have hrunning : (hostMachine walk).Framed (fun o => o.quiet = true) (Running l) :=
    framed_sameRings fun s s' h => h.running
  unfold publishOrPoll
  cases msixOk with
  | true =>
    refine Machine.triple_call hrunning.stable (fun _ => Running l) ?_ fun _ => hrunning.triple (onInstance_quiet _)
    rintro s u s' h - he
    cases he
    unfold Host.publish
    split
    · exact h
    · exact h
  | false => exact hrunning.act rfl fun never => never.elim

/-- After a run of the loop, each xHCI controller of the list was started. -/
theorem initAll_running {list : List PciFunction} (hxhci : ∀ f ∈ list, isXhci f = true)
    (hnodup : (list.map (·.toPciDevice)).Nodup) {l : List PciDevice} (hl : ∀ f ∈ list, f.toPciDevice ∉ l) :
    (hostMachine walk).Triple (Running l) (initAll list) fun _ s => Running l s ∧
      Running (list.map (·.toPciDevice)) s := by
  -- by induction on the list; `l` are the controllers started before, which are none of those to come
  induction list generalizing l with
  | nil =>
    refine Machine.triple_ret (framed_sameRings fun s s' h => h.running).stable ?_
    rintro s h
    exact ⟨h, fun d hd => absurd hd List.not_mem_nil⟩
  | cons ctrl rest ih =>
    obtain ⟨hfirst, hnodup⟩ := List.nodup_cons.1 hnodup
    rw [initAll_cons (hxhci ctrl List.mem_cons_self)]
    refine Machine.triple_bind
      (bringUp_broughtUp ctrl.toPciDevice (framed_running (hl ctrl List.mem_cons_self))) fun r => ?_
    refine Machine.triple_bind ((publishOrPoll_running (ctrl.toPciDevice :: l) r.1 r.2).conseq ?_ fun _ _ h =>
      h) fun _ => ?_
    · rintro s ⟨h, hready⟩ d hd
      rcases List.mem_cons.1 hd with rfl | hd
      · exact hready.run
      · exact h d hd
    · refine (ih (fun f hf => hxhci f (List.mem_cons_of_mem _ hf)) hnodup ?_).conseq (fun _ h => h) ?_
      · rintro f hf hmem
        rcases List.mem_cons.1 hmem with heq | hmem
        · exact hfirst (List.mem_map.2 ⟨f, hf, heq⟩)
        · exact hl f (List.mem_cons_of_mem _ hf) hmem
      · rintro _ s ⟨h, hrest⟩
        refine ⟨fun d hd => h d (List.mem_cons_of_mem _ hd), fun d hd => ?_⟩
        rcases List.mem_cons.1 hd with rfl | hd
        · exact h _ List.mem_cons_self
        · exact hrest d hd

/-- The scan of the bus, then the loop over what it found. -/
theorem runs_initAll {list : List PciFunction} {b : Bus} (hb : BeforeUsb s₀)
    (hlist : findUsbControllers.run s₀.platform.bus = .ok (list, b))
    (hr : (hostMachine walk).Runs (initUsbControllers, s₀) (.ret (), s)) :
    ∃ s₁, (hostMachine walk).Runs (initUsbControllers, s₀) (initAll list, s₁) ∧ BeforeUsb s₁ ∧
      (hostMachine walk).Runs (initAll list, s₁) (.ret (), s) := by
  have hplatform : (hostMachine walk).Stable fun t => t.platform = s₀.platform := by
    rintro t t' ht he
    cases he <;> exact ht
  have hframed : (hostMachine walk).Framed (HostOp.Initialises s₀.owner) BeforeUsb := framed_beforeUsb s₀.owner
  obtain ⟨t, r, t', hw, -, he, hrest⟩ := (Machine.stable_waits s₀).runs_op hr .refl
  have hrun : (onBus findUsbControllers).run t.platform = .ok (list, { t.platform with bus := b }) := by
    rw [hplatform.waits hw rfl]
    exact onBus_ok hlist
  have hexec : Host.exec walk .findUsbControllers t =
    some (list, { t with platform := { t.platform with bus := b } }) := by
    show t.onPlatform _ = _
    unfold Host.onPlatform
    rw [hrun]
  obtain ⟨rfl, rfl⟩ : list = r ∧ _ = t' := by
    have := Option.some.inj (hexec.symm.trans he)
    exact ⟨congrArg Prod.fst this, congrArg Prod.snd this⟩
  refine ⟨_, (hw.runs _).tail (.op trivial hexec), ?_, hrest⟩
  exact hframed.frame .findUsbControllers t list _ ⟨rfl, trivial⟩ trivial hexec (hframed.stable.waits hw hb)

end Loop

/-! ## One controller, and several -/

section Operated

variable {walk : Memory.Mem → BitVec 64 → Option (BitVec 64)} {s₀ s : Host} {list : List PciFunction} {b : Bus}

/-- An instance that is published stays. -/
theorem framed_published (dev : PciDevice) : (hostMachine walk).Framed (fun _ => True) fun s =>
    s.kernel.xhci.isSome = true ∧ s.owner = dev := by
  have hrings : ∀ s s' : Host, SameRings s s' → s.kernel.xhci.isSome = true ∧ s.owner = dev →
      s'.kernel.xhci.isSome = true ∧ s'.owner = dev :=
    fun s s' h hs => ⟨h.isSome.trans hs.1, h.owner.trans hs.2⟩
  constructor
  · exact fun s s' hs he => hrings s s' (env_sameRings he).1 hs
  · rintro o s r s' - - he hs
    by_cases hq : o.quiet = true
    · exact hrings s s' (exec_sameRings hq he).1 hs
    · cases o with
      | writeRun | writeCrcr | writeErst =>
        cases he
        exact hs
      | publish x =>
        cases he
        unfold Host.publish
        rw [if_pos hs.1]
        exact hs
      | _ => exact absurd rfl hq

/-- Before the loop comes to its second controller, `discover_and_init_hid_devices` ran on the first. -/
theorem runs_first {ctrl : PciFunction} {rest : List PciFunction} (hxhci : isXhci ctrl = true) (hb : BeforeUsb s₀)
    (hr : (hostMachine walk).Runs (initAll (ctrl :: rest), s₀) (.ret (), s)) : ∃ t t',
    (hostMachine walk).Runs (initAll (ctrl :: rest), s₀) (onInstance discoverAndInitHidDevices >>= fun _ =>
      initAll rest, t) ∧
      (hostMachine walk).Runs (onInstance discoverAndInitHidDevices, t) (.ret (), t') ∧
      (hostMachine walk).Runs (initAll rest, t') (.ret (), s) ∧
      Reached t ctrl.toPciDevice ∧ t.kernel.activePorts = [] ∧ (t.controllers ctrl.toPciDevice).hw.maxPorts < 256 := by
  rw [initAll_cons hxhci] at hr ⊢
  obtain ⟨⟨msixOk, x⟩, s₂, hup, hr₂⟩ := Machine.runs_bind hr
  obtain ⟨u, s₃, hpub, hend⟩ := Machine.runs_bind hr₂
  have hready : (hostMachine walk).Stable fun t => BeforeUsb t ∧ BroughtUp ctrl.toPciDevice x t :=
    (framed_beforeUsb ctrl.toPciDevice).stable.and (framed_sameRings fun s s' h => h.broughtUp).stable
  have hready₂ := bringUp_broughtUp ctrl.toPciDevice (framed_beforeUsb ctrl.toPciDevice) s₀ hb _ s₂ hup
  cases msixOk with
  | false =>
    -- the fallback does not return
    obtain ⟨t, r, t', -, -, he, -⟩ := (Machine.stable_waits s₂).runs_op (o := HostOp.pollForever x) hpub .refl
    cases he
  | true =>
    obtain ⟨t₀, r, t, hw, -, he, hdiscover⟩ := (Machine.stable_waits s₂).runs_op (o := HostOp.publish x) hpub .refl
    obtain rfl : t₀.publish x = t := congrArg Prod.snd (Option.some.inj he)
    obtain ⟨hb₀, hready₀⟩ := hready.waits hw hready₂
    obtain ⟨hreached, hempty, hsame⟩ := publish_reached hb₀ hready₀
    refine ⟨_, s₃, Machine.runs_seq hup ((hw.runs _).tail (.op trivial he)), hdiscover, hend, hreached, hempty, ?_⟩
    rw [hsame]
    exact hb₀.maxPorts _

/-- The same, from the call of `init_usb_controllers` on. -/
theorem runs_to_first {first : PciFunction} {rest : List PciFunction} (hb : BeforeUsb s₀)
    (hlist : findUsbControllers.run s₀.platform.bus = .ok (list, b)) (hfirst : list.filter isXhci = first :: rest)
    (hr : (hostMachine walk).Runs (initUsbControllers, s₀) (.ret (), s)) : ∃ t t',
    (hostMachine walk).Runs (initUsbControllers, s₀) (onInstance discoverAndInitHidDevices >>= fun _ =>
      initAll rest, t) ∧
      (hostMachine walk).Runs (onInstance discoverAndInitHidDevices, t) (.ret (), t') ∧
      (hostMachine walk).Runs (initAll rest, t') (.ret (), s) ∧
      Reached t first.toPciDevice ∧ t.kernel.activePorts = [] ∧
        (t.controllers first.toPciDevice).hw.maxPorts < 256 := by
  obtain ⟨s₁, hbefore, hb₁, hr₁⟩ := runs_initAll hb hlist hr
  have hxhci : isXhci first = true := (List.mem_filter.1 (hfirst ▸ List.mem_cons_self : first ∈ list.filter isXhci)).2
  rw [initAll_filter, hfirst] at hbefore hr₁
  obtain ⟨t, t', hrun, hrest⟩ := runs_first hxhci hb₁ hr₁
  exact ⟨t, t', hbefore.trans hrun, hrest⟩

/-- The only xHCI controller is driven. -/
theorem operated_of_one {ctrl : PciFunction} (hb : BeforeUsb s₀)
    (hlist : findUsbControllers.run s₀.platform.bus = .ok (list, b)) (hone : list.filter isXhci = [ctrl])
    (hr : (hostMachine walk).Runs (initUsbControllers, s₀) (.ret (), s)) : Operated walk s₀ s ctrl.toPciDevice := by
  obtain ⟨t, t', hfirst, hdiscover, hend, hreached, hempty, hports⟩ := runs_to_first hb hlist hone hr
  have hkept : (hostMachine walk).Framed (fun o => o.quiet = true) fun u => Reached u ctrl.toPciDevice ∧
      (u.controllers ctrl.toPciDevice).hw.maxPorts = (t.controllers ctrl.toPciDevice).hw.maxPorts :=
    framed_sameRings fun s s' h hs => ⟨h.reached hs.1, (h.maxPorts _).trans hs.2⟩
  have hreached' := hkept.triple (onInstance_quiet _) t ⟨hreached, rfl⟩ () t' hdiscover
  have hwait : (hostMachine walk).Waits t' s := (Machine.runs_ret_inv hend).2
  obtain ⟨hreached, hmax⟩ := hkept.stable.waits hwait hreached'
  -- the USB code ran as on the only controller
  obtain ⟨tr, htr⟩ := syncRun_of_runs ((component ctrl.toPciDevice).runs hdiscover ‹Reached t _›.owner).2
  obtain ⟨-, hview⟩ := Machine.waits_of_env part_env hwait hreached'.1.owner
  refine ⟨hreached, fun _ => initAll [], t, t', tr, ?_⟩
  exact {
    before := hfirst
    during := hdiscover
    after := hend
    reached := ‹Reached t _›
    calls := htr
    enumerated := fun p hp hccs hat => htr.inits hview hports hempty (hmax ▸ hp) hccs hat }

/-- The instance is of the first xHCI controller, however many there are. -/
theorem owner_of_runs {first : PciFunction} {rest : List PciFunction} (hb : BeforeUsb s₀)
    (hlist : findUsbControllers.run s₀.platform.bus = .ok (list, b)) (hfirst : list.filter isXhci = first :: rest)
    (hr : (hostMachine walk).Runs (initUsbControllers, s₀) (.ret (), s)) : s.owner = first.toPciDevice := by
  obtain ⟨t, t', -, hdiscover, hend, hreached, -⟩ := runs_to_first hb hlist hfirst hr
  obtain ⟨x, hx, -⟩ := hreached.commandRing
  have hpublished : (hostMachine walk).Framed (fun _ => True) fun s =>
      s.kernel.xhci.isSome = true ∧ s.owner = first.toPciDevice := framed_published first.toPciDevice
  have ht' := hpublished.triple (Machine.all_true _) t ⟨by rw [hx]; rfl, hreached.owner⟩ () t' hdiscover
  exact (hpublished.triple (Machine.all_true _) t' ht' () s hend).2

/-- All the xHCI controllers of the list were started. -/
theorem running_of_runs (hb : BeforeUsb s₀) (hlist : findUsbControllers.run s₀.platform.bus = .ok (list, b))
    (hr : (hostMachine walk).Runs (initUsbControllers, s₀) (.ret (), s)) :
    ((list.filter isXhci).map (·.toPciDevice)).Nodup ∧ Running ((list.filter isXhci).map (·.toPciDevice)) s := by
  have hnodup : (list.map (·.toPciDevice)).Nodup := by
    obtain ⟨t, hscan, -⟩ := findUsbControllers_run s₀.platform.bus
    obtain rfl : s₀.platform.bus.usbControllers = list := congrArg Prod.fst (Except.ok.inj (hscan.symm.trans hlist))
    exact usbControllers_nodup s₀.platform.bus
  have hsub : List.Sublist (list.filter isXhci) list := List.filter_sublist
  have hxhci := hnodup.sublist (hsub.map (·.toPciDevice))
  obtain ⟨s₁, -, -, hr₁⟩ := runs_initAll hb hlist hr
  rw [initAll_filter] at hr₁
  refine ⟨hxhci, ?_⟩
  exact (initAll_running (fun f hf => (List.mem_filter.1 hf).2) hxhci (l := []) (fun _ _ => List.not_mem_nil) s₁
    (fun d hd => absurd hd List.not_mem_nil) () s hr₁).2

/-- Two controllers of the list are not both the one of the instance. -/
theorem length_le_of_operated (hb : BeforeUsb s₀) (hlist : findUsbControllers.run s₀.platform.bus = .ok (list, b))
    (hr : (hostMachine walk).Runs (initUsbControllers, s₀) (.ret (), s)) (h : AllOperated walk s₀ s list) :
    (list.filter isXhci).length ≤ 1 := by
  obtain ⟨hnodup, hrun⟩ := running_of_runs hb hlist hr
  have howner : ∀ c ∈ list.filter isXhci, s.owner = c.toPciDevice := by
    intro c hc
    obtain ⟨hmem, hxhci⟩ := List.mem_filter.1 hc
    exact (h.operated c hmem hxhci (hrun _ (List.mem_map.2 ⟨c, hc, rfl⟩))).reached.owner
  cases hl : list.filter isXhci with
  | nil => exact Nat.zero_le 1
  | cons f rest =>
    cases rest with
    | nil => exact Nat.le_refl 1
    | cons g rest =>
      rw [hl] at hnodup howner
      have heq : f.toPciDevice = g.toPciDevice :=
        (howner f List.mem_cons_self).symm.trans (howner g (List.mem_cons_of_mem _ List.mem_cons_self))
      refine absurd ?_ (List.nodup_cons.1 hnodup).1
      exact List.mem_cons.2 (.inl heq)

/-- Every xHCI controller that was started is driven, and the registry keeps their ports apart, exactly if there is
at most one. -/
theorem allOperated_iff (hb : BeforeUsb s₀) (hlist : findUsbControllers.run s₀.platform.bus = .ok (list, b))
    (hr : (hostMachine walk).Runs (initUsbControllers, s₀) (.ret (), s)) :
    AllOperated walk s₀ s list ↔ (list.filter isXhci).length ≤ 1 := by
  constructor
  · exact length_le_of_operated hb hlist hr
  · intro h
    have hone : ∀ f ∈ list, isXhci f = true → list.filter isXhci = [f] := by
      rintro f hf hxhci
      have hmem := List.mem_filter.2 ⟨hf, hxhci⟩
      cases hl : list.filter isXhci with
      | nil =>
        rw [hl] at hmem
        cases hmem
      | cons c rest =>
        rw [hl] at h hmem
        obtain rfl : rest = [] := List.length_eq_zero_iff.1 (by simpa using h)
        rw [List.mem_singleton.1 hmem]
    constructor
    · rintro f hf hxhci -
      exact operated_of_one hb hlist (hone f hf hxhci) hr
    · rintro f hf g hg hfx hgx - - hne
      have heq := (hone f hf hfx).symm.trans (hone g hg hgx)
      exact absurd (congrArg (·.toPciDevice) (List.cons.inj heq).1) hne

end Operated

/-! ## A bus with such controllers -/

/-- The registers of a controller that the firmware has enabled, with a BAR 0 of one page, and MSI-X at `0x40`. -/
def xhciRegister (bar : BitVec 32) (dword : BitVec 6) : Register :=
  if dword = 0#6 then ⟨0x000d1b36#32, 0#32, 0#32⟩
  else if dword = 1#6 then ⟨0x00100006#32, 0x6#32, 0xF9000000#32⟩
  else if dword = 2#6 then ⟨0x0c033001#32, 0#32, 0#32⟩
  else if dword = 4#6 then ⟨bar, 0xFFFFF000#32, 0#32⟩
  else if dword = 13#6 then ⟨0x40#32, 0#32, 0#32⟩
  else if dword = 16#6 then ⟨0x800F0011#32, 0xC0000000#32, 0#32⟩
  else if dword = 17#6 then ⟨0x800#32, 0#32, 0#32⟩
  else ⟨0#32, 0#32, 0#32⟩

/-- Devices of bus 0, by the value of BAR 0. -/
def xhciBus (bars : BitVec 5 → Option (BitVec 32)) : Bus :=
  ⟨0#32, fun l =>
    if l.bus = 0#8 ∧ l.function = 0#3 then
      match bars l.device with
      | some bar => xhciRegister bar l.dword
      | none => ⟨0xFFFFFFFF#32, 0#32, 0#32⟩
    else
      ⟨0xFFFFFFFF#32, 0#32, 0#32⟩, []⟩

/-- A device of bus 0. -/
abbrev bus0 (device : BitVec 8) : PciDevice := ⟨0#8, device, 0#8⟩

/-- The controller at this device of bus 0 has these registers. -/
def HasXhci (s : Bus) (device : BitVec 8) (bar : BitVec 32) : Prop :=
  ∀ o, s.registers ((bus0 device).place o) = xhciRegister bar ((bus0 device).place o).dword

section Sample

variable {s t : Bus} {device : BitVec 8} {bar : BitVec 32}

theorem HasXhci.of_registers (h : HasXhci s device bar) (ht : t.registers = s.registers) : HasXhci t device bar := by
  intro o
  rw [ht]
  exact h o

/-- `enable_device` finds it enabled. -/
theorem HasXhci.enable (h : HasXhci s device bar) : ∃ t, (Pci.enableDevice (bus0 device)).run s = .ok ((), t) ∧
    t.registers = s.registers := by
  obtain ⟨t, hrun, hregs⟩ := enableDevice_run s (bus0 device)
  have hreg : s.registers ((bus0 device).place PCI_COMMAND) = ⟨0x00100006#32, 0x6#32, 0xF9000000#32⟩ := h PCI_COMMAND
  have hwrite : (s.registers ((bus0 device).place PCI_COMMAND)).write (s.enabled (bus0 device)) =
      s.registers ((bus0 device).place PCI_COMMAND) := by
    unfold Bus.enabled Bus.withWord Bus.word Bus.dword
    rw [hreg]
    decide
  rw [hwrite, Function.update_eq_self] at hregs
  exact ⟨t, hrun, hregs⟩

theorem HasXhci.memoryBar (h : HasXhci s device bar) (hpage : 4096 ∣ bar.toNat) :
    MemoryBar s (bus0 device) 12 (bar.setWidth 64) 0#2 false := by
  have hlt := bar.isLt
  have htoNat : (bar.setWidth 64).toNat = bar.toNat := by
    rw [BitVec.toNat_setWidth, Nat.mod_eq_of_lt (by omega)]
  constructor
  · decide
  · decide
  · rw [htoNat]
    exact hpage
  · intro _
    rw [htoNat]
    exact hlt
  · have hreg : s.registers ((bus0 device).place PCI_BAR0) = ⟨bar, 0xFFFFF000#32, 0#32⟩ := h PCI_BAR0
    have hvalue : (bar.setWidth 64).setWidth 32 ||| barFlags 0#2 false = bar := by
      have hflags : barFlags 0#2 false = 0#32 := by decide
      rw [hflags, BitVec.or_zero, BitVec.setWidth_setWidth_of_le bar (by decide), BitVec.setWidth_eq]
    have hmask : (highMask 64 12).setWidth 32 = 0xFFFFF000#32 := by decide
    rw [hreg, hvalue, hmask]
  · intro h
    cases h

theorem HasXhci.msix (h : HasXhci s device bar) : MsixAt s (bus0 device) 0x40#8 ∧
    (s.msixInfo (bus0 device) 0x40#8).tableOffset = 0x800#32 ∧
    (s.registers ((bus0 device).place 0x40#8)).write (s.msixDword (bus0 device) 0x40#8 true) =
      s.registers ((bus0 device).place 0x40#8) := by
  have hdword : ∀ o, s.dword (bus0 device) o = (xhciRegister bar ((bus0 device).place o).dword).value :=
    fun o => congrArg Register.value (h o)
  have hstatus : s.dword (bus0 device) PCI_STATUS = 0x00100006#32 := hdword PCI_STATUS
  have hlist : s.dword (bus0 device) PCI_CAPABILITIES_PTR = 0x40#32 := hdword PCI_CAPABILITIES_PTR
  have hcap : s.dword (bus0 device) 0x40#8 = 0x800F0011#32 := hdword 0x40#8
  have hctrl : s.dword (bus0 device) (0x40#8 + 2#8) = 0x800F0011#32 := hdword (0x40#8 + 2#8)
  have htable : s.dword (bus0 device) (0x40#8 + 4#8) = 0x800#32 := hdword (0x40#8 + 4#8)
  have hreg : s.registers ((bus0 device).place 0x40#8) = ⟨0x800F0011#32, 0xC0000000#32, 0#32⟩ := h 0x40#8
  refine ⟨?_, ?_, ?_⟩
  · apply msixAt_of_first
    · unfold Bus.HasCapabilities Bus.word
      rw [hstatus]
      decide
    · unfold Bus.firstCapability Bus.byte
      rw [hlist]
      rfl
    · decide
    · unfold Bus.byte
      rw [hcap]
      rfl
  · exact congrArg (· &&& ~~~0x7#32) htable
  · unfold Bus.msixDword Bus.withWord Bus.word
    rw [hctrl, hreg]
    decide

/-- With its page mapped by `XHCI::new`, the controller is set up, and the registers of the bus are as before. -/
theorem HasXhci.setUp {p : Platform} {m : Memory.Mem} {off : Nat} (h : HasXhci p.bus device bar)
    (hpage : 4096 ∣ bar.toNat) (hs : Memory.MmioState p.mem off) (hoff : 4096 ∣ off)
    (hhigh : 2 ^ 64 ≤ off + 2 ^ 48) (hlow : off + 2 ^ 33 ≤ 2 ^ 64)
    (hmap : (Memory.mapMmioPage (bar.setWidth 64)).run p.mem =
      .ok (Memory.hhdmAddr off (Memory.pageBase (bar.setWidth 64)), m)) :
    ∃ p', SetUpBy kernelWalk (bus0 device) p p' ∧ p'.mem = m ∧ p'.bus.registers = p.bus.registers := by
  have hlt := bar.isLt
  have hle := Memory.pageBase_le (bar.setWidth 64)
  have htoNat : (bar.setWidth 64).toNat = bar.toNat := by
    rw [BitVec.toNat_setWidth, Nat.mod_eq_of_lt (by omega)]
  have hcount : Memory.pageCount 0x1000#64 = 1 := by decide
  have htableNat : (0x800#32).toNat = 0x800 := rfl
  obtain ⟨b₁, henable, hregs₁⟩ := h.enable
  obtain ⟨b₂, hbar, hregs₂⟩ := getBar0_run ((h.of_registers hregs₁).memoryBar hpage)
  have hregs₂ := hregs₂.trans hregs₁
  obtain ⟨b₃, hsize, hregs₃⟩ := getBar0Size_run ((h.of_registers hregs₂).memoryBar hpage)
  have hregs₃ := hregs₃.trans hregs₂
  have hpower : BitVec.ofNat 64 (2 ^ 12) = 0x1000#64 := rfl
  rw [hpower] at hsize
  have hnew : (newController ⟨bar.setWidth 64, decide (0#2 = 2#2), false⟩ (bus0 device)).run ⟨p.mem, b₂, p.stores⟩ =
      .ok (Memory.hhdmAddr off (Memory.pageBase (bar.setWidth 64)), ⟨m, b₃, p.stores⟩) := by
    unfold newController
    rw [stateT_bind_ok (onBus_ok hsize)]
    exact onMem_ok (xhciNew_onePage hmap)
  have hfit : off + (Memory.pageBase (bar.setWidth 64)).toNat + Memory.pageCount 0x1000#64 * 4096 ≤ 2 ^ 64 := by
    rw [hcount]
    omega
  obtain ⟨-, -, hpages⟩ := @newController_pages ⟨p.mem, b₂, p.stores⟩ _ _ _ ⟨bar.setWidth 64, decide (0#2 = 2#2), false⟩
    _ _ _ hs hoff hhigh hsize hfit hnew
  obtain ⟨hmsix, htable, hwrite⟩ := (h.of_registers hregs₃).msix
  have hvirt : (Memory.hhdmAddr off (Memory.pageBase (bar.setWidth 64))).toNat +
      (b₃.msixInfo (bus0 device) 0x40#8).tableOffset.toNat + 12 < 2 ^ 64 := by
    rw [htable, htableNat, Memory.hhdmAddr_toNat (by omega)]
    omega
  -- the four words are on the one page that `XHCI::new` has mapped
  have hwords : ∀ i < 4, ∃ phys, kernelWalk m (Memory.hhdmAddr off (Memory.pageBase (bar.setWidth 64)) +
      (b₃.msixInfo (bus0 device) 0x40#8).tableOffset.setWidth 64 + BitVec.ofNat 64 (4 * i)) = some phys := by
    intro i hi
    have hin : (0x800#32).toNat + 4 * i < Memory.pageCount 0x1000#64 * 4096 := by
      rw [hcount, htableNat]
      omega
    rw [htable, ← BitVec.ofNat_toNat 64 0x800#32]
    exact ⟨_, @word_phys _ _ _ ⟨bar.setWidth 64, decide (0#2 = 2#2), false⟩ _ kernelWalk_translate hoff hfit hpages
      _ _ hin⟩
  obtain ⟨p', hset, hmem, hregs⟩ := setupMsix_run (p := ⟨m, b₃, p.stores⟩) hmsix (by decide) hvirt hwords
  refine ⟨p', ⟨_, _, _, _, _, onBus_ok henable, onBus_ok hbar, hnew, hset⟩, hmem, ?_⟩
  dsimp only at hregs
  rw [hregs, hwrite, Function.update_eq_self, hregs₃]

/-- What `probe_function` finds at the device. -/
def xhciFunction (device : BitVec 8) : PciFunction :=
  ⟨bus0 device, 0x1b36#16, 0x000d#16, 0x0C#8, 0x03#8, 0x30#8, 0x00#8⟩

/-- The scan finds nothing on the other buses. -/
theorem xhciBus_controllers (bars : BitVec 5 → Option (BitVec 32)) : (xhciBus bars).usbControllers =
    (List.range 32).flatMap fun device => (xhciBus bars).usbOn 0#8 (BitVec.ofNat 8 device) := by
  have hother : ∀ bus ∈ List.range' 1 255, ((List.range 32).flatMap fun device =>
      (xhciBus bars).usbOn (BitVec.ofNat 8 bus) (BitVec.ofNat 8 device)) = [] := by
    intro bus hbus
    have hne : BitVec.ofNat 8 bus ≠ 0#8 := by
      have := List.mem_range'_1.1 hbus
      rw [Ne, ← BitVec.toNat_inj, BitVec.toNat_ofNat, BitVec.toNat_ofNat]
      omega
    refine List.flatMap_eq_nil_iff.2 fun device _ => ?_
    have hword : (xhciBus bars).word ⟨BitVec.ofNat 8 bus, BitVec.ofNat 8 device, 0#8⟩ 0x00#8 = 0xFFFF#16 := by
      have habsent : (xhciBus bars).registers
        (PciDevice.place ⟨BitVec.ofNat 8 bus, BitVec.ofNat 8 device, 0#8⟩ 0x00#8) =
          ⟨0xFFFFFFFF#32, 0#32, 0#32⟩ := if_neg fun h => hne h.1
      unfold Bus.word Bus.dword
      rw [habsent]
      decide
    unfold Bus.usbOn Bus.functionAt
    rw [if_pos hword]
  have hrange : List.range 256 = 0 :: List.range' 1 255 := List.range_eq_range'.trans List.range'_succ
  unfold Bus.usbControllers
  rw [hrange, List.flatMap_cons, List.flatMap_eq_nil_iff.2 hother, List.append_nil]

end Sample

/-- A machine with such a bus, and no device on the ports. -/
def hostStart (bars : BitVec 5 → Option (BitVec 32)) : Host where
  platform := ⟨Memory.emptyTables, xhciBus bars, []⟩
  kernel := { Kernel.start 4 fun _ => ⟨false, false, 0, 0⟩ with xhci := none }
  owner := ⟨0#8, 0#8, 0#8⟩
  eventRingVirt := 0
  controllers _ := ⟨(Kernel.start 4 fun _ => ⟨false, false, 0, 0⟩).hw, fun _ => 0, false, true, true, 0, 0⟩

theorem hostStart_beforeUsb (bars : BitVec 5 → Option (BitVec 32)) : BeforeUsb (hostStart bars) where
  xhci := rfl
  activePorts := rfl
  maxPorts _ := by simp [hostStart, Kernel.start]

theorem hostStart_noDevices (bars : BitVec 5 → Option (BitVec 32)) :
    NoDevices (hostStart bars).platform (hostStart bars) where
  platform := rfl
  held _ := rfl
  hhdm := rfl
  activePorts := rfl
  ports _ _ := rfl

/-- Device 4 alone, and devices 4 and 5. -/
def oneBar : BitVec 5 → Option (BitVec 32) := fun device => if device = 4#5 then some 0xfebf0000#32 else none

/-- Devices 4 and 5. -/
def twoBars : BitVec 5 → Option (BitVec 32) := fun device =>
  if device = 4#5 then some 0xfebf0000#32 else if device = 5#5 then some 0xfebe0000#32 else none

theorem oneBar_controllers : (xhciBus oneBar).usbControllers = [xhciFunction 4#8] := by
  rw [xhciBus_controllers]
  decide +kernel

theorem twoBars_controllers : (xhciBus twoBars).usbControllers = [xhciFunction 4#8, xhciFunction 5#8] := by
  rw [xhciBus_controllers]
  decide +kernel

/-- The controller at device 4 is set up, and leaves the page of the other one alone. -/
theorem setUp_first {s : Bus} (h : HasXhci s 4#8 0xfebf0000#32) : ∃ p,
    SetUpBy kernelWalk (bus0 4#8) ⟨Memory.emptyTables, s, []⟩ p ∧ p.bus.registers = s.registers ∧
      Memory.MmioState p.mem 0xffff800000000000 ∧
        p.mem.abs (Memory.hhdmAddr 0xffff800000000000 0xfebf0000#64) ≠ none ∧
        p.mem.abs (Memory.hhdmAddr 0xffff800000000000 0xfebe0000#64) = none := by
  obtain ⟨m, hmap, hspec⟩ := @Memory.emptyTables_mapMmioPage 0xfebf0000#64 (by decide)
  have hbase : Memory.pageBase 0xfebf0000#64 = 0xfebf0000#64 := by decide
  have hmmio := Memory.mmioState_step (by decide) (by decide) Memory.emptyTables_mmioState
    (.mmio (by decide) (by decide) hmap)
  obtain ⟨p, hp, rfl, hregs⟩ := h.setUp (p := ⟨Memory.emptyTables, s, []⟩) (by decide) Memory.emptyTables_mmioState
    (by decide) (by decide) (by decide) hmap
  rw [hbase] at hspec
  refine ⟨p, hp, hregs, hmmio, ?_, ?_⟩
  · rw [hspec.mapped fun x hx => by rw [(Memory.emptyTables_unmapped _).1] at hx; cases hx]
    exact Option.some_ne_none _
  · rw [hspec.others _ (by decide)]
    exact (Memory.emptyTables_unmapped _).1

/-- Then the one at device 5. -/
theorem setUp_second {p : Platform} (h : HasXhci p.bus 5#8 0xfebe0000#32)
    (hs : Memory.MmioState p.mem 0xffff800000000000)
    (hfirst : p.mem.abs (Memory.hhdmAddr 0xffff800000000000 0xfebf0000#64) ≠ none)
    (hfree : p.mem.abs (Memory.hhdmAddr 0xffff800000000000 0xfebe0000#64) = none) :
    ∃ p', SetUpBy kernelWalk (bus0 5#8) p p' := by
  obtain ⟨free, ht⟩ := hs.tables
  obtain ⟨m, hx⟩ := @Memory.mapPage_beside _ _ (Memory.hhdmAddr 0xffff800000000000 0xfebe0000#64) _ 0xfebe0000#64
    (Memory.flags.WRITABLE ||| Memory.flags.NO_CACHE) ht hfirst (by decide) hfree (by decide) (by decide)
  have hbase : Memory.pageBase 0xfebe0000#64 = 0xfebe0000#64 := by decide
  have hmap : (Memory.mapMmioPage 0xfebe0000#64).run p.mem =
      .ok (Memory.hhdmAddr 0xffff800000000000 (Memory.pageBase 0xfebe0000#64), m) :=
    (Memory.mapMmio_returns_iff hs.hhdm).2 ⟨rfl, _, by rw [hbase]; exact hx, .inl rfl⟩
  obtain ⟨p', hp, -⟩ := h.setUp (by decide) hs (by decide) (by decide) (by decide) hmap
  exact ⟨p', hp⟩

/-- A run on a machine with such a bus, if all its controllers can be set up. -/
theorem hostStart_runs {bars : BitVec 5 → Option (BitVec 32)} {list : List PciFunction}
    (hlist : (xhciBus bars).usbControllers = list)
    (h : ∀ b : Bus, b.registers = (xhciBus bars).registers →
      ∃ p, AllSetUp kernelWalk list ⟨Memory.emptyTables, b, []⟩ p) :
    ∃ (s : Host) (b : Bus), findUsbControllers.run (hostStart bars).platform.bus = .ok (list, b) ∧
      (hostMachine kernelWalk).Runs (initUsbControllers, hostStart bars) (.ret (), s) := by
  obtain ⟨b, hscan, hregs⟩ := findUsbControllers_run (xhciBus bars)
  rw [hlist] at hscan
  obtain ⟨p, hp⟩ := h b hregs
  have hreturns := initUsbControllers_canEnd (p := (hostStart bars).platform) hscan hp
  obtain ⟨⟨⟩, s, hrun, -⟩ := hreturns _ (hostStart_noDevices bars)
  exact ⟨s, b, hscan, hrun⟩

/-- `allOperated_iff` with one controller. -/
theorem allOperated_iff_one : ∃ (s : Host) (b : Bus),
    findUsbControllers.run (hostStart oneBar).platform.bus = .ok ([xhciFunction 4#8], b) ∧
    (hostMachine kernelWalk).Runs (initUsbControllers, hostStart oneBar) (.ret (), s) ∧
      AllOperated kernelWalk (hostStart oneBar) s [xhciFunction 4#8] := by
  obtain ⟨s, b, hlist, hr⟩ := hostStart_runs oneBar_controllers fun b hb => by
    have hfirst : HasXhci (xhciBus oneBar) 4#8 0xfebf0000#32 := fun _ => rfl
    obtain ⟨p, hp, -⟩ := setUp_first (hfirst.of_registers hb)
    exact ⟨p, .xhci rfl hp .nil⟩
  exact ⟨s, b, hlist, hr, (allOperated_iff (hostStart_beforeUsb oneBar) hlist hr).2 (Nat.le_refl 1)⟩

/-- Not every controller is driven: with two of them, the second one is not. -/
theorem second_not_operated : ¬ ∀ (walk : Memory.Mem → BitVec 64 → Option (BitVec 64)) (s₀ s : Host)
    (list : List PciFunction) (b : Bus), BeforeUsb s₀ → findUsbControllers.run s₀.platform.bus = .ok (list, b) →
      (hostMachine walk).Runs (initUsbControllers, s₀) (.ret (), s) → AllOperated walk s₀ s list := by
  intro hall
  obtain ⟨s, b, hlist, hr⟩ := hostStart_runs twoBars_controllers fun b hb => by
    have hfirst : HasXhci (xhciBus twoBars) 4#8 0xfebf0000#32 := fun _ => rfl
    have hsecond : HasXhci (xhciBus twoBars) 5#8 0xfebe0000#32 := fun _ => rfl
    obtain ⟨p, hp, hregs, hs, hmapped, hfree⟩ := setUp_first (hfirst.of_registers hb)
    obtain ⟨p', hp'⟩ := setUp_second (hsecond.of_registers (hregs.trans hb)) hs hmapped hfree
    exact ⟨p', .xhci rfl hp (.xhci rfl hp' .nil)⟩
  have hb := hostStart_beforeUsb twoBars
  have hone := length_le_of_operated hb hlist hr (hall _ _ _ _ _ hb hlist hr)
  exact absurd hone (by decide)

end Octagram.Usb

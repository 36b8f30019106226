/-
Setting up a device and shutting it down: which operations the functions of the enumeration use, and
what `address_device` does to the DCBAA and sends to the controller. The operations are sorted into
classes, from those of a control transfer to those of the whole synchronisation, and each function
is shown to use those of its class only (`addressDevice_all` and its like); what such operations
leave alone then holds of the function (`Framed`). That the command names the ring and the context
that were boxed is followed through the addresses (`Mapped`).
-/
import Octagram.Usb.Calls
import Octagram.Usb.Handler

namespace Octagram.Usb

open Octagram.Lib

/-! ## Operations -/

/-- The operations of control transfers. -/
def Op.transfer : Op → Bool
  | .cli | .sti | .lock .xhci _ | .unlock .xhci => true
  | .loadReg r => r ≠ .completionSlot
  | .storeFlag .transferCompletionPending _ | .loadFlag _ | .expire .transfer => true
  | .ep0EnqueueTrb _ _ _ | .ringDoorbell _ _ => true
  | .boxNew (.bytes _) | .virtToPhys _ | .readBytes _ _ | .panic _ => true
  | _ => false

/-- The operations of commands. -/
def Op.command : Op → Bool
  | .cli | .sti | .lock .xhci _ | .unlock .xhci | .getXhci => true
  | .storeFlag .completionPending _ | .loadFlag _ | .loadReg _ | .expire .command => true
  | .sendCommand _ _ _ | .setEp0Ring _ _ | .writeLinkTrb _ _ _ => true
  | .boxNew _ | .virtToPhys _ | .panic _ => true
  | _ => false

/-- Those of them that send nothing and learn of no slot. -/
def Op.wait : Op → Bool
  | .sendCommand _ _ _ | .setEp0Ring _ _ | .loadReg .completionSlot => false
  | o => o.command

/-- The operations of the commands that also change the DCBAA. -/
def Op.slotting : Op → Bool
  | .writeDcbaa _ _ => true
  | o => o.command

/-- The operations by which a driver gets a device and loses it. -/
def Op.attach : Op → Bool
  | .lock l _ | .unlock l => l ≠ .activePorts
  | .getXhci | .getDriver _ | .newDriver _ _ | .dropDriver _ | .enqueueReport _ => true
  | .storeReg r _ => r.routing
  | .storeFlag f _ => f = .kbdReportPending ∨ f = .mouseReportPending
  | .boxNew (.bytes _) | .boxFree _ | .virtToPhys _ | .panic _ => true
  | _ => false

/-- The operations of `init_one_device` and `shutdown_device`. -/
def Op.setup (o : Op) : Bool := o.transfer || o.slotting || o.attach

/-- The operations of `discover_and_init_hid_devices`. -/
def Op.sync : Op → Bool
  | .setActive _ | .getActive | .initFailed | .maxPorts | .readPortsc _ => true
  | .lock .activePorts _ | .unlock .activePorts => true
  | o => o.setup

theorem setup_of_transfer {o : Op} (h : o.transfer = true) : o.setup = true := by
  unfold Op.setup; rw [h]; rfl

theorem slotting_of_command {o : Op} (h : o.command = true) : o.slotting = true := by
  cases o <;> first | exact h | rfl

theorem setup_of_slotting {o : Op} (h : o.slotting = true) : o.setup = true := by
  unfold Op.setup; rw [h, Bool.or_true]; rfl

theorem setup_of_command {o : Op} (h : o.command = true) : o.setup = true := setup_of_slotting (slotting_of_command h)

theorem setup_of_attach {o : Op} (h : o.attach = true) : o.setup = true := by
  unfold Op.setup; rw [h, Bool.or_true]

theorem sync_of_setup {o : Op} (h : o.setup = true) : o.sync = true := by
  cases o
  case lock l site => cases l <;> rfl
  case unlock l => cases l <;> rfl
  all_goals first | rfl | exact h

section Operations

variable {α : Type} {φ : Op → Prop}

theorem all_act {o : Op} {f : Ret o → KProg α} (ho : φ o) (hf : ∀ r, (f r).All φ) : (act o >>= f).All φ := ⟨ho, hf⟩

theorem waitFor_all (φ : Op → Prop) {f : Flag} {w : Wait} (hl : φ (.loadFlag f)) (he : φ (.expire w)) (n : Nat) :
    (waitFor f w n).All φ := by
  induction n with
  | zero => exact ⟨he, fun _ => trivial⟩
  | succ n ih =>
    refine ⟨hl, fun b => ?_⟩
    cases b with
    | false => exact ih
    | true => trivial

theorem withXhci_all {site : Site} {body : KProg Unit} (hb : body.All φ) (hc : φ .cli) (hl : φ (.lock .xhci site))
    (hu : φ (.unlock .xhci)) (hs : φ .sti) : (withXhci site body).All φ :=
  ⟨hc, fun _ => ⟨hl, fun _ => hb.bind fun _ => ⟨hu, fun _ => ⟨hs, fun _ => trivial⟩⟩⟩⟩

theorem transfer_ops (site : Site) (slotId : Nat) {stages : KProg Unit} (hs : stages.All fun o => o.transfer = true) :
    (transfer site slotId stages).All fun o => o.transfer = true := by
  have hb : (stages >>= fun _ => ringDoorbell (slotId % 256) 1).All fun o => o.transfer = true :=
    hs.bind fun _ => all_act rfl fun _ => trivial
  exact all_act rfl fun _ => (withXhci_all hb rfl rfl rfl rfl).bind fun _ =>
    waitFor_all (fun o => o.transfer = true) rfl rfl _

theorem stagesIn_ops (setup : BitVec 64) (bufPhys wLength : Nat) :
    (stagesIn setup bufPhys wLength).All fun o => o.transfer = true :=
  ⟨rfl, fun _ => ⟨rfl, fun _ => ⟨rfl, fun _ => trivial⟩⟩⟩

theorem getDeviceDescriptor_ops (slotId : Nat) : (getDeviceDescriptor slotId).All fun o => o.transfer = true := by
  refine ⟨rfl, fun virt => ⟨rfl, fun phys => ?_⟩⟩
  cases phys with
  | none => trivial
  | some phys =>
    refine (transfer_ops _ slotId (stagesIn_ops _ _ _)).bind fun b => ?_
    split
    · refine all_act rfl fun code => ?_
      split
      · trivial
      · exact ⟨rfl, fun _ => trivial⟩
    · trivial

theorem controlTransferIn_ops (slotId bmRequestType bRequest wValue wIndex bufPhys wLength : Nat) :
    (controlTransferIn slotId bmRequestType bRequest wValue wIndex bufPhys wLength).All fun o => o.transfer = true := by
  refine (transfer_ops _ slotId (stagesIn_ops _ _ _)).bind fun b => ?_
  split
  · exact ⟨rfl, fun _ => ⟨rfl, fun _ => trivial⟩⟩
  · trivial

theorem controlTransferNoData_ops (slotId bmRequestType bRequest wValue wIndex : Nat) :
    (controlTransferNoData slotId bmRequestType bRequest wValue wIndex).All fun o => o.transfer = true := by
  have hs : (ep0EnqueueTrb (setupParameter bmRequestType bRequest wValue wIndex 0) 8 (setupControl 0) >>= fun _ =>
      ep0EnqueueTrb 0 0 (statusControl 1)).All fun o => o.transfer = true := ⟨rfl, fun _ => ⟨rfl, fun _ => trivial⟩⟩
  refine (transfer_ops _ slotId hs).bind fun b => ?_
  split
  · exact ⟨rfl, fun _ => trivial⟩
  · trivial

theorem getInterruptEndpoints_ops (slotId : Nat) : (getInterruptEndpoints slotId).All fun o => o.transfer = true := by
  refine ⟨rfl, fun virt => ⟨rfl, fun phys => ?_⟩⟩
  cases phys with
  | none => trivial
  | some phys =>
    refine (controlTransferIn_ops _ _ _ _ _ _ _).bind fun r => ?_
    split
    · trivial
    · refine all_act rfl fun buf => ?_
      split
      · exact ⟨rfl, nofun⟩
      · trivial

theorem command_of_wait {o : Op} (h : o.wait = true) : o.command = true := by
  cases o
  case loadReg => rfl
  all_goals first | exact h | cases h

/-- A command sends one TRB; the rest of it is preparation and waiting. -/
theorem submit_all (site : Site) (prepare : KProg Unit) (hp : prepare.All φ) {parameter trbType slotId : Nat}
    (hs : φ (.sendCommand parameter trbType slotId)) (hw : ∀ o, o.wait = true → φ o) :
    (submit site prepare parameter trbType slotId).All φ := by
  have hb : (prepare >>= fun _ => sendCommand parameter trbType slotId).All φ :=
    hp.bind fun _ => all_act hs fun _ => trivial
  exact all_act (hw _ rfl) fun _ => (withXhci_all hb (hw _ rfl) (hw _ rfl) (hw _ rfl) (hw _ rfl)).bind fun _ =>
    waitFor_all φ (hw _ rfl) (hw _ rfl) _

theorem enableSlot_all (hs : φ (.sendCommand 0 TRB_TYPE_ENABLE_SLOT 0)) (hr : φ (.loadReg .completionSlot))
    (hw : ∀ o, o.wait = true → φ o) : enableSlot.All φ := by
  refine (submit_all _ (.ret ()) trivial hs hw).bind fun b => ?_
  split
  · exact ⟨hw _ rfl, fun _ => ⟨hr, fun _ => trivial⟩⟩
  · trivial

theorem disableSlot_all (slotId : Nat) (hs : φ (.sendCommand 0 TRB_TYPE_DISABLE_SLOT slotId))
    (hd : φ (.writeDcbaa slotId 0)) (hw : ∀ o, o.wait = true → φ o) : (disableSlot slotId).All φ := by
  refine (submit_all _ (.ret ()) trivial hs hw).bind fun b => ?_
  split
  · refine all_act (hw _ rfl) fun code => ?_
    split
    · trivial
    · exact ⟨hw _ rfl, fun _ => ⟨hw _ rfl, fun _ => ⟨hw _ rfl, fun _ => ⟨hd, fun _ => trivial⟩⟩⟩⟩
  · trivial

theorem configureEndpoint_all (slotId rootPort : Nat) (ep : EndpointInfo)
    (hs : ∀ parameter, φ (.sendCommand parameter TRB_TYPE_CONFIGURE_ENDPOINT slotId)) (hw : ∀ o, o.wait = true → φ o) :
    (configureEndpoint slotId rootPort ep).All φ := by
  refine ⟨hw _ rfl, fun virt => ⟨hw _ rfl, fun phys => ?_⟩⟩
  cases phys with
  | none => trivial
  | some phys =>
    refine all_act (hw _ rfl) fun _ => ?_
    split
    · exact ⟨hw _ rfl, nofun⟩
    · refine ⟨hw _ rfl, fun virt => ⟨hw _ rfl, fun phys => ?_⟩⟩
      cases phys with
      | none => trivial
      | some phys =>
        refine (submit_all _ (.ret ()) trivial (hs phys) hw).bind fun b => ?_
        split
        · exact ⟨hw _ rfl, fun _ => trivial⟩
        · trivial

theorem addressDevice_all (slotId rootPort speed : Nat)
    (hs : ∀ parameter, φ (.sendCommand parameter TRB_TYPE_ADDRESS_DEVICE slotId))
    (hr : ∀ virt phys, φ (.setEp0Ring virt phys)) (hd : ∀ phys, φ (.writeDcbaa slotId phys))
    (hw : ∀ o, o.wait = true → φ o) : (addressDevice slotId rootPort speed).All φ := by
  refine ⟨hw _ rfl, fun virt => ⟨hw _ rfl, fun phys => ?_⟩⟩
  cases phys with
  | none => trivial
  | some phys =>
    refine ⟨hw _ rfl, fun virt => ⟨hw _ rfl, fun phys => ?_⟩⟩
    cases phys with
    | none => trivial
    | some phys =>
      refine ⟨hw _ rfl, fun _ => ⟨hw _ rfl, fun _ => ⟨hw _ rfl, fun _ => ⟨hd phys, fun _ => ⟨hw _ rfl, fun virt =>
        ⟨hw _ rfl, fun phys => ?_⟩⟩⟩⟩⟩⟩
      cases phys with
      | none => trivial
      | some phys =>
        have hring : ∀ virt phys, (act (.setEp0Ring virt phys)).All φ :=
          fun virt phys => all_act (hr virt phys) fun _ => trivial
        refine (submit_all _ _ (hring _ _) (hs phys) hw).bind fun b => ?_
        split
        · exact ⟨hw _ rfl, fun _ => trivial⟩
        · trivial

theorem enableSlot_ops : enableSlot.All fun o => o.command = true := enableSlot_all rfl rfl fun _ => command_of_wait

theorem disableSlot_ops (slotId : Nat) : (disableSlot slotId).All fun o => o.slotting = true :=
  disableSlot_all slotId rfl rfl fun _ h => slotting_of_command (command_of_wait h)

theorem configureEndpoint_ops (slotId rootPort : Nat) (ep : EndpointInfo) :
    (configureEndpoint slotId rootPort ep).All fun o => o.command = true :=
  configureEndpoint_all slotId rootPort ep (fun _ => rfl) fun _ => command_of_wait

theorem addressDevice_ops (slotId rootPort speed : Nat) :
    (addressDevice slotId rootPort speed).All fun o => o.slotting = true :=
  addressDevice_all slotId rootPort speed (fun _ => rfl) (fun _ _ => rfl) (fun _ => rfl) fun _ h =>
    slotting_of_command (command_of_wait h)

theorem attach_lock (k : DeviceKind) : (k.lock ≠ .activePorts : Bool) = true := by cases k <;> rfl

theorem armNextReport_ops (k : DeviceKind) : (armNextReport k).All fun o => o.attach = true := by
  refine ⟨attach_lock k, fun _ => ⟨rfl, fun st => ?_⟩⟩
  cases st with
  | none => exact ⟨attach_lock k, fun _ => trivial⟩
  | some st =>
    exact ⟨rfl, fun _ => ⟨rfl, fun _ => ⟨rfl, fun _ => ⟨rfl, fun _ => ⟨attach_lock k, fun _ => trivial⟩⟩⟩⟩⟩

theorem shutdownDriver_ops (k : DeviceKind) (slotId : Nat) :
    (shutdownDriver k slotId).All fun o => o.attach = true := by
  refine ⟨attach_lock k, fun _ => ⟨rfl, fun st => ?_⟩⟩
  cases st with
  | none => exact ⟨attach_lock k, fun _ => trivial⟩
  | some st =>
    refine (?_ : Prog.All _ (if st.slotId ≠ slotId then unlock k.lock else _))
    split
    · exact ⟨attach_lock k, fun _ => trivial⟩
    · refine ⟨rfl, fun _ =>
        ⟨rfl, fun _ => ⟨?_, fun _ => ⟨?_, fun _ => ⟨?_, fun _ => ⟨attach_lock k, fun _ => trivial⟩⟩⟩⟩⟩⟩ <;>
        cases k <;> rfl

theorem initDriver_ops (k : DeviceKind) (message : String) (slotId : Nat) (ep : EndpointHandle)
    (interfaceNumber : Nat) :
    (initDriver k message slotId ep interfaceNumber).All fun o => o.transfer = true ∨ o.attach = true := by
  refine ((controlTransferNoData_ops _ _ _ _ _).mono fun _ => .inl).bind fun _ =>
    ⟨.inl rfl, fun virt => ⟨.inl rfl, fun phys => ?_⟩⟩
  cases phys with
  | none => exact ⟨.inl rfl, nofun⟩
  | some phys =>
    refine ⟨.inr ?_, fun _ => ⟨.inr ?_, fun _ => ⟨.inr (attach_lock k), fun _ => ⟨.inr rfl, fun _ =>
      ⟨.inr (attach_lock k), fun _ => (armNextReport_ops k).mono fun _ => .inr⟩⟩⟩⟩⟩ <;> cases k <;> rfl

section Dispatch

variable {slotId : Nat} (hs : ∀ parameter, φ (.sendCommand parameter TRB_TYPE_CONFIGURE_ENDPOINT slotId))
  (hw : ∀ o, o.wait = true → φ o) (ht : ∀ o, o.transfer = true → φ o) (ha : ∀ o, o.attach = true → φ o)

include hs hw ht ha

theorem dispatchEndpoint_all (rootPort : Nat) (ep : EndpointInfo) : (dispatchEndpoint slotId rootPort ep).All φ := by
  unfold dispatchEndpoint
  split
  · trivial
  · refine (configureEndpoint_all slotId rootPort ep hs hw).bind fun r => ?_
    split
    · trivial
    · have hi : ∀ k message handle, (initDriver k message slotId handle ep.interfaceNumber).All φ :=
        fun k message handle => (initDriver_ops k message slotId handle _).mono fun o h => h.elim (ht o) (ha o)
      split
      · exact (hi .keyboard _ _).bind fun _ => trivial
      · exact (hi .mouse _ _).bind fun _ => trivial
      · trivial

theorem dispatchAll_all (rootPort : Nat) (hasKeyboard hasMouse : Bool) (eps : List EndpointInfo) :
    (dispatchAll slotId rootPort hasKeyboard hasMouse eps).All φ := by
  induction eps generalizing hasKeyboard hasMouse with
  | nil => trivial
  | cons ep rest ih =>
    refine (dispatchEndpoint_all hs hw ht ha rootPort ep).bind fun kind => ?_
    split <;> exact ih _ _

/-- A device that was addressed is set up with control transfers, Configure Endpoint and what gives a driver its
device. -/
theorem setupDevice_all (rootPort : Nat) : (setupDevice slotId rootPort).All φ := by
  refine ((getDeviceDescriptor_ops slotId).mono ht).bind fun r => ?_
  split
  · trivial
  · refine ((getInterruptEndpoints_ops slotId).mono ht).bind fun r => ?_
    split
    · trivial
    · refine ((controlTransferNoData_ops _ _ _ _ _).mono ht).bind fun r => ?_
      split
      · trivial
      · exact dispatchAll_all hs hw ht ha _ _ _ _

end Dispatch

theorem setupDevice_ops (slotId rootPort : Nat) : (setupDevice slotId rootPort).All fun o => o.setup = true :=
  setupDevice_all (fun _ => rfl) (fun _ h => setup_of_command (command_of_wait h)) (fun _ => setup_of_transfer)
    (fun _ => setup_of_attach) rootPort

theorem onlyIf_all (b : Bool) {p : KProg Unit} (hp : p.All φ) : (onlyIf b p).All φ := by
  cases b with
  | true => exact hp
  | false => trivial

theorem shutdownDevice_ops (entry : ActivePort) : (shutdownDevice entry).All fun o => o.setup = true :=
  (onlyIf_all _ ((shutdownDriver_ops .keyboard _).mono fun _ => setup_of_attach)).bind fun _ =>
    (onlyIf_all _ ((shutdownDriver_ops .mouse _).mono fun _ => setup_of_attach)).bind fun _ =>
      ((disableSlot_ops _).mono fun _ => setup_of_slotting).bind fun _ => trivial

theorem initOneDevice_ops (rootPort speed : Nat) : (initOneDevice rootPort speed).All fun o => o.setup = true := by
  refine (enableSlot_ops.mono fun _ => setup_of_command).bind fun r => ?_
  split
  · trivial
  · refine ((addressDevice_ops _ rootPort speed).mono fun _ => setup_of_slotting).bind fun r => ?_
    split
    · trivial
    · exact (setupDevice_ops _ rootPort).bind fun _ => trivial

theorem scanPorts_all (hr : ∀ port, φ (.readPortsc port)) (port n : Nat) : (scanPorts port n).All φ := by
  induction n generalizing port with
  | zero => trivial
  | succ n ih => exact all_act (hr port) fun _ => (ih (port + 1)).bind fun _ => trivial

theorem portStates_all (hl : φ (.lock .xhci .discoverPorts)) (hx : φ .getXhci) (hm : φ .maxPorts)
    (hr : ∀ port, φ (.readPortsc port)) (hu : φ (.unlock .xhci)) : portStates.All φ :=
  all_act hl fun _ => all_act hx fun _ => all_act hm fun n => (scanPorts_all hr 0 n).bind fun _ =>
    ⟨hu, fun _ => trivial⟩

theorem disconnectLoop_ops (states : List (Nat × Nat)) (kept rest : List ActivePort) :
    (disconnectLoop states kept rest).All fun o => o.sync = true := by
  induction rest generalizing kept with
  | nil => trivial
  | cons entry rest ih =>
    unfold disconnectLoop
    split
    · exact ih _
    · exact all_act rfl fun _ => ((shutdownDevice_ops entry).mono fun _ => sync_of_setup).bind fun _ => ih _

theorem connectLoop_ops (todo : List (Nat × Nat)) : (connectLoop todo).All fun o => o.sync = true := by
  induction todo with
  | nil => trivial
  | cons st rest ih =>
    refine all_act rfl fun active => ?_
    split
    · exact ih
    · refine ((initOneDevice_ops _ _).mono fun _ => sync_of_setup).bind fun r => ?_
      cases r with
      | none => exact ⟨rfl, fun _ => ih⟩
      | some entry => exact ⟨rfl, fun _ => ⟨rfl, fun _ => ih⟩⟩

theorem discoverAndInitHidDevices_ops : discoverAndInitHidDevices.All fun o => o.sync = true := by
  have hstates : portStates.All fun o => o.sync = true := portStates_all rfl rfl rfl (fun _ => rfl) rfl
  refine hstates.bind fun states => all_act rfl fun _ => all_act rfl fun active => ?_
  exact (disconnectLoop_ops states [] active).bind fun _ => (connectLoop_ops states).bind fun _ =>
    ⟨rfl, fun _ => trivial⟩

theorem dispatchAll_returns (slotId rootPort : Nat) (hasKeyboard hasMouse : Bool) (eps : List EndpointInfo) :
    (dispatchAll slotId rootPort hasKeyboard hasMouse eps).Returns fun e => e.rootPort = rootPort ∧
      e.slotId = slotId := by
  induction eps generalizing hasKeyboard hasMouse with
  | nil => exact ⟨rfl, rfl⟩
  | cons ep rest ih =>
    refine .bind _ fun kind => ?_
    split <;> exact ih _ _

/-- The entry of a device names its root port and its slot. -/
theorem setupDevice_returns (slotId rootPort : Nat) :
    (setupDevice slotId rootPort).Returns fun e => e.rootPort = rootPort ∧ e.slotId = slotId := by
  refine .bind _ fun r => ?_
  split
  · exact ⟨rfl, rfl⟩
  · refine .bind _ fun r => ?_
    split
    · exact ⟨rfl, rfl⟩
    · refine .bind _ fun r => ?_
      split
      · exact ⟨rfl, rfl⟩
      · exact dispatchAll_returns _ _ _ _ _

end Operations

/-! ## What the surroundings leave alone -/

/-- What the surroundings leave as it is. -/
structure Unmoved (s s' : Kernel) : Prop where
  ints : s'.ints = s.ints
  registry : s'.held .activePorts = s.held .activePorts
  xhci : s'.xhci = s.xhci
  ring : ∀ k, s'.ring k = s.ring k
  activePorts : s'.activePorts = s.activePorts
  hhdm : s'.hhdm = s.hhdm
  dcbaa : s'.dcbaa = s.dcbaa
  inputContext : s'.inputContext = s.inputContext
  boxes : s'.boxes = s.boxes
  commands : s'.hw.commands = s.hw.commands
  maxPorts : s'.hw.maxPorts = s.hw.maxPorts
  clock : s.hw.clock ≤ s'.hw.clock

section Frame

variable {R : Rules} {s s' : Kernel}

theorem Unmoved.refl (s : Kernel) : Unmoved s s :=
  ⟨rfl, rfl, rfl, fun _ => rfl, rfl, rfl, rfl, rfl, rfl, rfl, rfl, Nat.le_refl _⟩

theorem driven_unmoved (h : Driven s s') : Unmoved s s' := by
  obtain ⟨ts, is, hw⟩ := h.hw
  exact ⟨h.ints, h.registry, h.xhci, h.ring, h.activePorts, h.hhdm, h.dcbaa, h.inputContext, h.boxes,
    by rw [hw], by rw [hw], by rw [hw]⟩

theorem env_unmoved (h : Env R s s') : Unmoved s s' := by
  cases h with
  | interrupt hi h =>
    have hd := driven_unmoved (handler_driven h)
    split at hd
    · exact { hd with }
    · exact hd
  | connect | disconnect => exact { Unmoved.refl s with clock := Nat.le_succ _ }
  | answer | complete | dma => exact { Unmoved.refl s with }

/-- An assertion that the surroundings keep, and the operations of a class. -/
structure Framed (R : Rules) (φ : Op → Bool) (P : Kernel → Prop) : Prop where
  stable : (machine R).Stable P
  frame : ∀ o s r s', φ o = true → s.exec o = some (r, s') → P s → P s'

variable {α : Type} {φ ψ : Op → Bool} {P : Kernel → Prop} {Q : α → Kernel → Prop}

theorem Framed.triple {p : KProg α} (h : Framed R φ P) (hp : p.All fun o => φ o = true) :
    (machine R).Triple P p fun _ => P :=
  Machine.triple_frame h.stable hp fun o s r s' ho hs _ he => h.frame o s r s' ho he hs

theorem Framed.act {o : Op} {f : Ret o → KProg α} (h : Framed R φ P) (ho : φ o = true)
    (hf : ∀ r, (machine R).Triple P (f r) Q) : (machine R).Triple P (act o >>= f) Q :=
  Machine.triple_keep h.stable (fun s r s' hs he => h.frame o s r s' ho he hs) hf

end Frame

/-! ## `address_device` -/

/-- An Address Device command for this slot and root port is among the commands from number `n` on,
sent at time `t` or later. -/
def Kernel.SentAddress (s : Kernel) (n t slotId rootPort : Nat) : Prop :=
  ∃ i c, n ≤ i ∧ s.hw.commands[i]? = some c ∧ c.trbType = TRB_TYPE_ADDRESS_DEVICE ∧ c.slot = slotId ∧
    c.input.rootPort = rootPort ∧ t ≤ c.sentAt

section Address

variable {R : Rules}

/-- The heap lies above the HHDM offset `off`, `n` commands were sent by time `t`, and the DCBAA is `d`. -/
structure Mapped (off n t : Nat) (d : Nat → Nat) (s : Kernel) : Prop where
  hhdm : s.hhdm = some off
  boxes : ∀ n, off < s.boxes n
  sent : n ≤ s.hw.commands.length
  clock : t ≤ s.hw.clock
  dcbaa : s.dcbaa = d

/-- The operations other than a write to the DCBAA and a new input context. -/
def Op.mapping : Op → Bool
  | .writeDcbaa _ _ | .boxNew (.inputContext _) => false
  | _ => true

theorem exec_mapped {o : Op} {s s' : Kernel} {r : Ret o} {off n t : Nat} {d : Nat → Nat}
    (ho : ∀ a b, o ≠ .writeDcbaa a b) (he : s.exec o = some (r, s')) (h : Mapped off n t d s) :
    Mapped off n t d s' := by
  have hk := exec_keeps he
  exact ⟨hk.hhdm.trans h.hhdm, by rw [hk.boxes]; exact h.boxes, Nat.le_trans h.sent hk.commands.length_le,
    by rw [hk.clock]; exact h.clock, (hk.dcbaa ho).trans h.dcbaa⟩

theorem unmoved_mapped {s s' : Kernel} {off n t : Nat} {d : Nat → Nat} (hu : Unmoved s s') (h : Mapped off n t d s) :
    Mapped off n t d s' :=
  ⟨hu.hhdm.trans h.hhdm, by rw [hu.boxes]; exact h.boxes, by rw [hu.commands]; exact h.sent,
    Nat.le_trans h.clock hu.clock, hu.dcbaa.trans h.dcbaa⟩

/-- `Mapped`, and the memory at physical address `phys` holds the input context `c`. -/
def MappedInput (off n t : Nat) (d : Nat → Nat) (phys : Nat) (c : InputContext) (s : Kernel) : Prop :=
  Mapped off n t d s ∧ s.inputContext phys = c

theorem framed_mapped (off n t : Nat) (d : Nat → Nat) : Framed R Op.mapping (Mapped off n t d) where
  stable _ _ h he := unmoved_mapped (env_unmoved he) h
  frame o s r s' ho he h := exec_mapped (fun a b heq => by rw [heq] at ho; cases ho) he h

theorem framed_mappedInput (off n t : Nat) (d : Nat → Nat) (phys : Nat) (c : InputContext) :
    Framed R Op.mapping (MappedInput off n t d phys c) where
  stable _ _ h he := ⟨unmoved_mapped (env_unmoved he) h.1, by rw [(env_unmoved he).inputContext]; exact h.2⟩
  frame o s r s' ho he h := by
    refine ⟨exec_mapped (fun a b heq => by rw [heq] at ho; cases ho) he h.1, ?_⟩
    rw [(exec_keeps he).inputContext fun c heq => by rw [heq] at ho; cases ho]
    exact h.2

theorem sentAddress_mono {s s' : Kernel} {n t slotId rootPort : Nat} (hp : s.hw.commands <+: s'.hw.commands)
    (h : s.SentAddress n t slotId rootPort) : s'.SentAddress n t slotId rootPort := by
  obtain ⟨i, c, hle, hc, hrest⟩ := h
  obtain ⟨hlt, hi⟩ := List.getElem?_eq_some_iff.1 hc
  exact ⟨i, c, hle, by rw [List.prefix_iff_getElem?.1 hp i hlt, hi], hrest⟩

/-- What `address_device` leaves: the command is sent, and the DCBAA entry points to a device context. -/
def AddressSent (off n t : Nat) (d : Nat → Nat) (slotId rootPort : Nat) (s : Kernel) : Prop :=
  Mapped off n t d s ∧ s.SentAddress n t slotId rootPort

theorem framed_addressSent (off n t : Nat) (d : Nat → Nat) (slotId rootPort : Nat) :
    Framed R Op.mapping (AddressSent off n t d slotId rootPort) where
  stable _ _ h he := ⟨unmoved_mapped (env_unmoved he) h.1,
    sentAddress_mono (by rw [(env_unmoved he).commands]) h.2⟩
  frame o s r s' ho he h := ⟨exec_mapped (fun a b heq => by rw [heq] at ho; cases ho) he h.1,
    sentAddress_mono (exec_keeps he).commands h.2⟩

theorem addressInput_rootPort (rootPort speed ring : Nat) :
    (addressInput rootPort speed ring).rootPort = rootPort % 256 := by
  unfold InputContext.rootPort addressInput
  simp only [BitVec.toNat_shiftLeft, BitVec.toNat_ofNat, Nat.shiftLeft_eq]
  omega

/-- An aligned ring is found again in the dequeue pointer made from it. -/
theorem dequeuePointer_ring {ringPhys : Nat} (ha : 16 ∣ ringPhys) (hlt : ringPhys < 2 ^ 64) :
    (dequeuePointer ringPhys).2.toNat * 2 ^ 32 + ((dequeuePointer ringPhys).1 &&& ~~~0xF#32).toNat = ringPhys := by
  have hlo : (dequeuePointer ringPhys).1 &&& ~~~0xF#32 =
    BitVec.ofNat 32 ringPhys &&& ~~~BitVec.ofNat 32 (2 ^ 4 - 1) := by
    have hdcs : (1 : BitVec 32) &&& ~~~0xF#32 = 0 := by decide
    unfold dequeuePointer
    rw [BitVec.and_or_distrib_right, hdcs, BitVec.and_assoc, BitVec.and_self]
    exact BitVec.or_zero
  rw [hlo, and_not_lowMask_toNat, BitVec.toNat_ofNat]
  show (BitVec.ofNat 32 (ringPhys / 2 ^ 32)).toNat * 2 ^ 32 + _ = _
  rw [BitVec.toNat_ofNat]
  omega

variable {off n t rootPort : Nat} {d : Nat → Nat}

/-- The heap gives an address above the offset, whose physical address is the difference. -/
theorem triple_box {α : Type} {b : BoxContent} {f : Nat → KProg α} {Q : α → Kernel → Prop} {P : Kernel → Prop}
    (hP : Framed R Op.mapping P) (hb : Op.mapping (.boxNew b) = true) (hm : ∀ s, P s → Mapped off n t d s)
    (hf : ∀ virt, off < virt → (machine R).Triple P (f virt) Q) : (machine R).Triple P (boxNew b >>= f) Q := by
  refine Machine.triple_op hP.stable (fun virt s => off < virt ∧ P s) (fun s virt s' hp _ he => ?_) fun virt s h => ?_
  · refine ⟨?_, hP.frame _ s virt s' hb he hp⟩
    have hv : s.boxNew b = (virt, s') := Option.some.inj he
    rw [← show (s.boxNew b).1 = virt from congrArg Prod.fst hv]
    exact (hm s hp).boxes _
  · exact hf virt h.1 s h.2

theorem triple_phys {α : Type} {virt : Nat} {f : Option Nat → KProg α} {Q : α → Kernel → Prop} {P : Kernel → Prop}
    (hP : Framed R Op.mapping P) (hm : ∀ s, P s → Mapped off n t d s)
    (hf : (machine R).Triple P (f (some (virt - off))) Q) : (machine R).Triple P (virtToPhys virt >>= f) Q := by
  refine Machine.triple_op hP.stable (fun phys s => phys = some (virt - off) ∧ P s) (fun s phys s' hp _ he => ?_)
    fun phys s h => ?_
  · cases he
    exact ⟨by rw [(hm s hp).hhdm]; rfl, hp⟩
  · obtain ⟨rfl, hp⟩ := h
    exact hf s hp

/-- `address_device` writes the DCBAA entry of the slot and sends an Address Device command for it. -/
theorem addressDevice_sends (slotId speed : Nat) :
    (machine R).Triple (Mapped off n t d) (addressDevice slotId rootPort speed) fun _ s =>
      ∃ v, v ≠ 0 ∧ AddressSent off n t (Function.update d slotId v) slotId (rootPort % 256) s := by
  have hm := framed_mapped (R := R) off n t d
  refine triple_box hm rfl (fun _ h => h) fun ringVirt _ => triple_phys hm (fun _ h => h) ?_
  refine triple_box hm rfl (fun _ h => h) fun ctxVirt hctx => triple_phys hm (fun _ h => h) ?_
  refine hm.act rfl fun _ => hm.act rfl fun _ => hm.act rfl fun _ => ?_
  have hm' := framed_mapped (R := R) off n t (Function.update d slotId (ctxVirt - off))
  -- the DCBAA entry of the slot: the physical address of the device context
  refine Machine.triple_op hm.stable (fun _ => Mapped off n t (Function.update d slotId (ctxVirt - off)))
    (fun s r s' h _ he => by cases he; exact ⟨h.hhdm, h.boxes, h.sent, h.clock, by rw [← h.dcbaa]⟩) fun _ => ?_
  refine Machine.triple_op hm'.stable (fun virt s => MappedInput off n t (Function.update d slotId (ctxVirt - off))
      (virt - off) (addressInput rootPort speed (ringVirt - off)) s) (fun s virt s' h _ he => ?_) fun inputVirt => ?_
  · refine ⟨exec_mapped (o := .boxNew (.inputContext _)) nofun he h, ?_⟩
    cases he
    show Function.update s.inputContext (s.boxes s.boxCount - s.hhdm.getD 0) _ (s.boxes s.boxCount - off) = _
    rw [h.hhdm]
    exact Function.update_self _ _ _
  have hi := framed_mappedInput (R := R) off n t (Function.update d slotId (ctxVirt - off)) (inputVirt - off)
    (addressInput rootPort speed (ringVirt - off))
  refine triple_phys hi (fun _ h => h.1) ?_
  have ha := framed_addressSent (R := R) off n t (Function.update d slotId (ctxVirt - off)) slotId (rootPort % 256)
  have hsub : (machine R).Triple (MappedInput off n t (Function.update d slotId (ctxVirt - off)) (inputVirt - off)
        (addressInput rootPort speed (ringVirt - off)))
      (submit .addressDevice (act (.setEp0Ring ringVirt (ringVirt - off)))
        (inputVirt - off) TRB_TYPE_ADDRESS_DEVICE slotId)
      fun _ => AddressSent off n t (Function.update d slotId (ctxVirt - off)) slotId (rootPort % 256) := by
    refine hi.act rfl fun _ => Machine.triple_bind (triple_withXhci hi.stable ha.stable
      (fun o s r s' hb he h => hi.frame o s r s' (by cases o <;> first | rfl | cases hb) he h)
      (fun o s r s' hb he h => ha.frame o s r s' (by cases o <;> first | rfl | cases hb) he h) ?_)
      fun _ => ha.triple (waitFor_all (fun o => o.mapping = true) rfl rfl _)
    refine hi.act rfl fun _ => ?_
    refine Machine.triple_op hi.stable
      (fun _ => AddressSent off n t (Function.update d slotId (ctxVirt - off)) slotId (rootPort % 256))
      (fun s r s' h _ he => ?_) fun _ => Machine.triple_ret ha.stable fun _ h => h
    refine ⟨exec_mapped (o := .sendCommand _ _ _) nofun he h.1, s.hw.commands.length,
      ⟨TRB_TYPE_ADDRESS_DEVICE, slotId, s.inputContext (inputVirt - off), s.hw.clock⟩, h.1.sent, ?_, rfl, rfl,
        ?_, h.1.clock⟩
    · obtain ⟨x, -, he⟩ := Option.map_eq_some_iff.1 he
      cases he
      exact List.getElem?_concat_length
    · show (s.inputContext (inputVirt - off)).rootPort = rootPort % 256
      rw [h.2]
      exact addressInput_rootPort _ _ _
  refine Machine.triple_bind hsub fun b => ?_
  have hne : ctxVirt - off ≠ 0 := by omega
  have hall : ∀ b : Bool, (if b = true then do
        let code ← loadReg .completionCode
        pure (if code = 1 then .ok () else .error "Address Device gagal, completion code bukan Success")
      else pure (.error "Timeout menunggu Address Device completion") : KProg (Except String Unit)).All
      fun o => o.mapping = true := fun b => by
    cases b with
    | true => exact all_act rfl fun _ => trivial
    | false => trivial
  exact (ha.triple (hall b)).conseq (fun _ h => h) fun _ s h => ⟨_, hne, h⟩

end Address

end Octagram.Usb

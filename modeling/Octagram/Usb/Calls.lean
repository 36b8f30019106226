/-
The calls of the main context, and the state they start from: the functions of the USB code that
`kmain` and the drivers call, in any order and any number (`UsbSession`), and the calls that `kmain`
makes, boot and then the idle loop (`SyncSession`). `PowerOn` is the state right after
`XHCI_INSTANCE` is set.
-/
import Octagram.Usb.Enumerate
import Octagram.Usb.Machine

namespace Octagram.Usb

open Octagram.Lib

/-- The functions that the main context calls; `discoverAndInitHidDevices` is also the end of
`init_xhci_controller`. -/
inductive MainCall
  | enableSlot | disableSlot (slotId : Nat) | addressDevice (slotId rootPort speed : Nat)
  | configureEndpoint (slotId rootPort : Nat) (ep : EndpointInfo)
  | getDeviceDescriptor (slotId : Nat)
  | controlTransferIn (slotId bmRequestType bRequest wValue wIndex bufPhys wLength : Nat)
  | controlTransferNoData (slotId bmRequestType bRequest wValue wIndex : Nat)
  | getInterruptEndpoints (slotId : Nat)
  | initKeyboard (slotId : Nat) (ep : EndpointHandle) (interfaceNumber : Nat)
  | initMouse (slotId : Nat) (ep : EndpointHandle) (interfaceNumber : Nat)
  | shutdownKeyboard (slotId : Nat) | shutdownMouse (slotId : Nat)
  | initOneDevice (rootPort speed : Nat) | shutdownDevice (entry : ActivePort)
  | discoverAndInitHidDevices | pollHotplug

namespace MainCall

/-- The type of what a call returns. -/
@[reducible] def Result : MainCall → Type
  | enableSlot => Except String Nat
  | disableSlot _ | addressDevice _ _ _ | controlTransferNoData _ _ _ _ _ => Except String Unit
  | configureEndpoint _ _ _ => Except String EndpointHandle
  | getDeviceDescriptor _ => Except String (List UInt8)
  | controlTransferIn _ _ _ _ _ _ _ => Except String Nat
  | getInterruptEndpoints _ => Except String (List EndpointInfo)
  | initOneDevice _ _ => Option ActivePort
  | _ => Unit

/-- The body of a call. -/
def prog : (i : MainCall) → KProg i.Result
  | enableSlot => Usb.enableSlot
  | disableSlot slotId => Usb.disableSlot slotId
  | addressDevice slotId rootPort speed => Usb.addressDevice slotId rootPort speed
  | configureEndpoint slotId rootPort ep => Usb.configureEndpoint slotId rootPort ep
  | getDeviceDescriptor slotId => Usb.getDeviceDescriptor slotId
  | controlTransferIn slotId bmRequestType bRequest wValue wIndex bufPhys wLength =>
    Usb.controlTransferIn slotId bmRequestType bRequest wValue wIndex bufPhys wLength
  | controlTransferNoData slotId bmRequestType bRequest wValue wIndex =>
    Usb.controlTransferNoData slotId bmRequestType bRequest wValue wIndex
  | getInterruptEndpoints slotId => Usb.getInterruptEndpoints slotId
  | initKeyboard slotId ep interfaceNumber => Usb.initKeyboard slotId ep interfaceNumber
  | initMouse slotId ep interfaceNumber => Usb.initMouse slotId ep interfaceNumber
  | shutdownKeyboard slotId => Usb.shutdownKeyboard slotId
  | shutdownMouse slotId => Usb.shutdownMouse slotId
  | initOneDevice rootPort speed => Usb.initOneDevice rootPort speed
  | shutdownDevice entry => Usb.shutdownDevice entry
  | discoverAndInitHidDevices => Usb.discoverAndInitHidDevices
  | pollHotplug => Usb.pollHotplug

end MainCall

/-- The state right after `XHCI_INSTANCE.call_once`: the controller was reset and was sent nothing,
no device is set up. Ports may have changed since the reset. `max_ports` is a `u8`. -/
structure PowerOn (s : Kernel) : Prop where
  ints : s.ints = true
  held : ∀ l, s.held l = false
  globals : s.globals = Globals.new
  xhci : s.xhci.isSome = true
  kbd : s.kbd = none
  mouse : s.mouse = none
  activePorts : s.activePorts = []
  hhdm : ∃ offset, s.hhdm = some offset ∧ ∀ n, offset < s.boxes n
  dcbaa : ∀ slot, s.dcbaa slot = 0
  commands : s.hw.commands = [] ∧ s.hw.unanswered = []
  transfers : s.hw.transfers = [] ∧ s.hw.incomplete = []
  events : ∀ e ∈ s.hw.events, e.trb.trbType = 34
  maxPorts : s.hw.maxPorts < 256
  consumed : s.hw.consumed = []
  enabled : ∀ slot, s.hw.enabled slot = false
  clock : ∀ p, (s.hw.port p).connectedAt ≤ s.hw.clock

/-- What the main context does with this USB code, under the assumptions `R`. -/
abbrev UsbSession (R : Rules) := (machine R).Session MainCall.prog PowerOn

/-- The calls that keep the registry. -/
inductive SyncCall
  | discoverAndInitHidDevices | pollHotplug

/-- The body of one of them. -/
def SyncCall.prog : SyncCall → KProg Unit
  | discoverAndInitHidDevices => Usb.discoverAndInitHidDevices
  | pollHotplug => Usb.pollHotplug

/-- Boot and the idle loop: the main context makes only these calls. -/
abbrev SyncSession (R : Rules) := (machine R).Session SyncCall.prog PowerOn

/-- A machine with the given root ports and HHDM offset 0. -/
def Kernel.start (maxPorts : Nat) (port : Nat → Port) : Kernel where
  ints := true
  held := fun _ => false
  globals := Globals.new
  xhci := some ⟨0x1000, 0x2000, 0, true, 0, 0, 0, true⟩
  kbd := none
  mouse := none
  activePorts := []
  hhdm := some 0
  trb := fun _ => Trb.empty
  dcbaa := fun _ => 0
  inputContext := fun _ => ⟨0, 0, 0, 0, ⟨0, 0, 0, 0, 0⟩⟩
  ram := fun _ => 0
  boxes := fun n => 0x10000 + 0x1000 * n
  boxCount := 0
  console := []
  hw := ⟨maxPorts, port, 0, [], [], [], [], [], [], fun _ => false, fun _ => (0, 0)⟩

theorem powerOn_start {maxPorts : Nat} (hm : maxPorts < 256) (port : Nat → Port)
    (h : ∀ p, (port p).connectedAt = 0) :
    PowerOn (Kernel.start maxPorts port) where
  ints := rfl
  held := fun _ => rfl
  globals := rfl
  xhci := rfl
  kbd := rfl
  mouse := rfl
  activePorts := rfl
  hhdm := ⟨0, rfl, fun n => by show 0 < 0x10000 + 0x1000 * n; omega⟩
  dcbaa := fun _ => rfl
  commands := ⟨rfl, rfl⟩
  transfers := ⟨rfl, rfl⟩
  events := fun _ h => absurd h List.not_mem_nil
  maxPorts := hm
  consumed := rfl
  enabled := fun _ => rfl
  clock := fun p => Nat.le_of_eq (h p)

end Octagram.Usb

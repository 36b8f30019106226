/-
`init_usb_controllers` on a machine with any number of xHCI controllers: the loop over what the scan
of the PCI bus found, around the one `XHCI_INSTANCE`. The USB code sees its part of the machine
(`Host.part`), that of the controller whose instance was set first, as `call_once` keeps it. At the
end is what it means that all controllers are driven (`AllOperated`); `SingleInstance` says when
they are.
-/
import Octagram.Lib.Component
import Octagram.Lib.Lens
import Octagram.Pci.Enable
import Octagram.Pci.Probe
import Octagram.Usb.Interrupter
import Octagram.Usb.MsixTable
import Octagram.Usb.Sync

namespace Octagram.Usb

open Octagram.Lib Octagram.Pci

/-! ## Data -/

/-- A controller: what `Controller` has, its DCBAA by slot, Run/Stop, HCHalted, whether its reset is over, and
CRCR and the segment of the event ring, as they were written last. -/
structure HostController where
  hw : Controller
  dcbaa : Nat → Nat
  run : Bool
  halted : Bool
  ready : Bool
  crcr : Nat
  eventRing : Nat

/-- The value of `XHCI`: the function whose registers `virt_base` leads to, `event_ring_virt`, and what `XHCI` has. -/
structure Instance where
  dev : PciDevice
  eventRingVirt : Nat
  xhci : XHCI

/-- The machine. The USB code sees its state with the one controller that its instance is of: `owner` and
`eventRingVirt` are the fields of `XHCI_INSTANCE` that `Kernel` does not have. -/
structure Host where
  platform : Platform
  kernel : Kernel
  owner : PciDevice
  eventRingVirt : Nat
  controllers : PciDevice → HostController

namespace Host

/-- The state as the USB code sees it through an instance of this controller. -/
def part (dev : PciDevice) : Lens Host Kernel where
  get s := { s.kernel with hw := (s.controllers dev).hw, dcbaa := (s.controllers dev).dcbaa }
  put k s := { s with
    kernel := { k with hw := s.kernel.hw, dcbaa := s.kernel.dcbaa }
    controllers := Function.update s.controllers dev { s.controllers dev with hw := k.hw, dcbaa := k.dcbaa } }
  get_put k s := by simp
  put_get s := by simp
  put_put k k' s := by simp

/-- A write to one controller. -/
def modify (dev : PciDevice) (f : HostController → HostController) (s : Host) : Host :=
  { s with controllers := Function.update s.controllers dev (f (s.controllers dev)) }

end Host

/-- After a reset nothing is under way. The ports keep their connections. -/
def Controller.reset (hw : Controller) : Controller :=
  { hw with
    commands := [], unanswered := [], transfers := [], incomplete := [], events := [], consumed := []
    enabled := fun _ => false, endpoint := fun _ => (0, 0) }

/-- What `init_xhci` writes to CRCR. -/
def crcrValue (cmdRingPhys : Nat) : Nat := cmdRingPhys / 64 * 64 + 1

/-! ## The machine -/

/-- The operations of `init_usb_controllers`: calls of `pci.rs` and of `XHCI`, accesses to the registers of one
controller, `XHCI_INSTANCE.call_once`, and what the USB code does. -/
inductive HostOp
  | findUsbControllers
  | enableDevice (dev : PciDevice)
  | getBar0 (dev : PciDevice)
  | newController (bar : BarInfo) (dev : PciDevice)
  | setupMsix (virtBase : BitVec 64) (dev : PciDevice) (vector apicId : BitVec 8)
  | writeRun (dev : PciDevice) (b : Bool) | readHalted (dev : PciDevice) | awaitHalted (dev : PciDevice)
  | reset (dev : PciDevice) | awaitReady (dev : PciDevice)
  | writeDcbaap (dev : PciDevice) (phys : Nat)
  | writeCrcr (dev : PciDevice) (value : Nat)
  | writeErst (dev : PciDevice) (segmentPhys : Nat)
  | through (dev : PciDevice) (o : Op)
  | publish (x : Instance)
  | pollForever (x : Instance)
  | usb (o : Op)

/-- What an operation answers. -/
@[reducible] def HostRet : HostOp → Type
  | .findUsbControllers => List PciFunction
  | .getBar0 _ => BarInfo
  | .newController _ _ => BitVec 64
  | .setupMsix _ _ _ _ => Bool
  | .readHalted _ => Bool
  | .through _ o => Ret o
  | .pollForever _ => Empty
  | .usb o => Ret o
  | _ => Unit

/-- Programs over the operations. -/
abbrev HostProg := Prog HostOp HostRet

/-- The program of one operation. -/
abbrev host (o : HostOp) : HostProg (HostRet o) := Prog.call o

namespace Host

/-- A call that works on the platform; `none` where it panics. -/
def onPlatform {α : Type} (x : PlatformM α) (s : Host) : Option (α × Host) :=
  match x.run s.platform with
  | .ok r => some (r.1, { s with platform := r.2 })
  | .error _ => none

/-- An operation of the USB code, through an instance of this controller. -/
def onPart (dev : PciDevice) (o : Op) (s : Host) : Option (Ret o × Host) :=
  (((part dev).get s).exec o).map fun r => (r.1, (part dev).put r.2 s)

/-- `call_once`: an instance that is set stays. -/
def publish (x : Instance) (s : Host) : Host :=
  if s.kernel.xhci.isSome then
    s
  else
    { s with kernel := { s.kernel with xhci := some x.xhci }, owner := x.dev, eventRingVirt := x.eventRingVirt }

variable (walk : Memory.Mem → BitVec 64 → Option (BitVec 64))

/-- What an operation does. A wait loop blocks until what it waits for; the loop of the fallback never ends. -/
def exec : (o : HostOp) → Host → Option (HostRet o × Host)
  | .findUsbControllers, s => s.onPlatform (onBus Pci.findUsbControllers)
  | .enableDevice dev, s => s.onPlatform (onBus (Pci.enableDevice dev))
  | .getBar0 dev, s => s.onPlatform (onBus (Pci.getBar0 dev))
  | .newController bar dev, s => s.onPlatform (Usb.newController bar dev)
  | .setupMsix virtBase dev vector apicId, s => s.onPlatform (Usb.setupMsix walk virtBase dev vector apicId)
  | .writeRun dev b, s => some ((), s.modify dev fun c => { c with run := b })
  | .readHalted dev, s => some ((s.controllers dev).halted, s)
  | .awaitHalted dev, s => if (s.controllers dev).halted then some ((), s) else none
  | .reset dev, s => some ((), s.modify dev fun c => { c with hw := c.hw.reset, ready := false })
  | .awaitReady dev, s => if (s.controllers dev).ready then some ((), s) else none
  | .writeDcbaap dev _, s => some ((), s.modify dev fun c => { c with dcbaa := fun _ => 0 })
  | .writeCrcr dev value, s => some ((), s.modify dev fun c => { c with crcr := value })
  | .writeErst dev segmentPhys, s => some ((), s.modify dev fun c => { c with eventRing := segmentPhys })
  | .through dev o, s => s.onPart dev o
  | .publish x, s => some ((), s.publish x)
  | .pollForever _, _ => none
  | .usb o, s => s.onPart s.owner o

end Host

/-- A step of the surroundings: the vector-44 handler, which any controller can raise; a step of a controller or of
a device on it; a change of the status of a controller. -/
inductive HostEnv : Host → Host → Prop
  | interrupt {s : Host} {k : Kernel} (hi : s.kernel.ints = true)
      (h : runToEnd interruptHandler ((Host.part s.owner).get s) = some ((), k)) :
      HostEnv s ((Host.part s.owner).put k s)
  | device {s : Host} {k : Kernel} (dev : PciDevice) (h : DeviceStep ((Host.part dev).get s) k) :
      HostEnv s ((Host.part dev).put k s)
  | status {s : Host} (dev : PciDevice) (halted ready : Bool) :
      HostEnv s (s.modify dev fun c => { c with halted := halted, ready := ready })

/-- The machine of the boot, where `walk` is the way of the processor through the page tables. -/
def hostMachine (walk : Memory.Mem → BitVec 64 → Option (BitVec 64)) : Machine HostOp HostRet Host where
  exec := Host.exec walk
  env := HostEnv
  allowed _ _ := True

/-! ## Programs -/

/-- A program of the USB code on `XHCI_INSTANCE`. -/
def onInstance {α : Type} (p : KProg α) : HostProg α := p.expand fun o => host (.usb o)

/-- A program of the USB code on the registers of one controller. -/
def onRegisters {α : Type} (dev : PciDevice) (p : KProg α) : HostProg α := p.expand fun o => host (.through dev o)

/-- `Box::new` of that many bytes, and its physical address. -/
def newBox (size : Nat) : HostProg (Nat × Nat) := do
  let virt ← host (.usb (.boxNew (.bytes size)))
  match ← host (.usb (.virtToPhys virt)) with
  | some phys => pure (virt, phys)
  | none => onInstance (panic "called `Option::unwrap()` on a `None` value")

/-- The wait loop of `start_controller`. -/
def awaitRunning (dev : PciDevice) : Nat → HostProg Unit
  | 0 => pure ()
  | n + 1 => do
    if ← host (.readHalted dev) then
      awaitRunning dev n
    else
      pure ()

/-- `setup_event_ring`. -/
def setupEventRing (x : Instance) : HostProg Instance := do
  let (segmentVirt, segmentPhys) ← newBox 512
  let (_, _) ← newBox 16
  host (.writeErst x.dev segmentPhys)
  pure { x with eventRingVirt := segmentVirt }

/-- `init_xhci`. -/
def initXhci (x : Instance) : HostProg Instance := do
  host (.writeRun x.dev false)
  host (.awaitHalted x.dev)
  host (.reset x.dev)
  host (.awaitReady x.dev)
  let (dcbaaVirt, dcbaaPhys) ← newBox 2048
  host (.writeDcbaap x.dev dcbaaPhys)
  let (cmdRingVirt, cmdRingPhys) ← newBox 512
  host (.writeCrcr x.dev (crcrValue cmdRingPhys))
  let x ← setupEventRing { x with xhci := { x.xhci with
    cmdRingVirt := cmdRingVirt, cmdEnqueueIndex := 0, cmdCycleState := true, dcbaaVirt := dcbaaVirt } }
  -- start_controller
  host (.writeRun x.dev true)
  awaitRunning x.dev START_TIMEOUT
  pure x

/-- The fields of `XHCI` before `init_xhci`. -/
def Instance.new (dev : PciDevice) : Instance := ⟨dev, 0, ⟨0, 0, 0, true, 0, 0, 0, true⟩⟩

/-- `init_xhci_controller`, all of it. -/
def Host.initXhciController (ctrl : PciDevice) : HostProg Unit := do
  host (.enableDevice ctrl)
  let bar ← host (.getBar0 ctrl)
  let virtBase ← host (.newController bar ctrl)
  let msixOk ← host (.setupMsix virtBase ctrl 44#8 0#8)
  let xhciDev ← initXhci (Instance.new ctrl)
  onRegisters ctrl printPorts
  if msixOk then
    host (.publish xhciDev)
    onInstance discoverAndInitHidDevices
  else
    let never ← host (.pollForever xhciDev)
    never.elim

/-- `prog_if` 0x30. -/
def isXhci (f : PciFunction) : Bool := f.progIf == 0x30#8

/-- The loop of `init_usb_controllers`. -/
def initAll : List PciFunction → HostProg Unit
  | [] => pure ()
  | ctrl :: rest => do
    if isXhci ctrl then
      Host.initXhciController ctrl.toPciDevice
      initAll rest
    else
      initAll rest

/-- `init_usb_controllers` -/
def initUsbControllers : HostProg Unit := do
  let usbControllers ← host .findUsbControllers
  initAll usbControllers

/-! ## Controllers that are driven -/

variable (walk : Memory.Mem → BitVec 64 → Option (BitVec 64))

/-- The controller posts its events to the segment at this address. -/
def Host.PostsTo (s : Host) (dev : PciDevice) (virt : Nat) : Prop :=
  s.kernel.hhdm.map (virt - ·) = some (s.controllers dev).eventRing

/-- The controller takes its commands from the ring at this address. -/
def Host.TakesFrom (s : Host) (dev : PciDevice) (virt : Nat) : Prop :=
  s.kernel.hhdm.map (fun off => crcrValue (virt - off)) = some (s.controllers dev).crcr

/-- `XHCI_INSTANCE` is of this controller: the vector-44 handler polls the segment that the controller posts its
events to, and commands are put on the ring that it takes them from. -/
structure Reached (s : Host) (dev : PciDevice) : Prop where
  owner : s.owner = dev
  eventRing : s.PostsTo dev s.eventRingVirt
  commandRing : ∃ x, s.kernel.xhci = some x ∧ s.TakesFrom dev x.cmdRingVirt

/-- In a run of `init_usb_controllers` from `s₀` to `s`, `discover_and_init_hid_devices` ran from `t` to `t'` on the
registers and the rings of this controller, with the calls `tr`, and called `init_one_device` for each port with a
device that was there at `t` and still is. -/
structure Discovered (s₀ s : Host) (dev : PciDevice) (rest : Unit → HostProg Unit) (t t' : Host)
    (tr : SyncTrace) : Prop where
  before : (hostMachine walk).Runs (initUsbControllers, s₀) (onInstance discoverAndInitHidDevices >>= rest, t)
  during : (hostMachine walk).Runs (onInstance discoverAndInitHidDevices, t) (.ret (), t')
  after : (hostMachine walk).Runs (rest (), t') (.ret (), s)
  reached : Reached t dev
  calls : SyncRun Rules.any ((Host.part dev).get t) tr ((Host.part dev).get t')
  enumerated : ∀ p < (s.controllers dev).hw.maxPorts, ((s.controllers dev).hw.port p).ccs = true →
    ((s.controllers dev).hw.port p).connectedAt ≤ (t.controllers dev).hw.clock →
      .init (p + 1) ((s.controllers dev).hw.port p).speed.toNat ∈ deviceCalls tr

/-- The controller is driven after a run from `s₀` to `s`. -/
structure Operated (s₀ s : Host) (dev : PciDevice) : Prop where
  reached : Reached s dev
  discovered : ∃ rest t t' tr, Discovered walk s₀ s dev rest t t' tr

/-- The entry has the number of a port of the controller. -/
def Host.Matches (s : Host) (e : ActivePort) (dev : PciDevice) : Prop :=
  0 < e.rootPort ∧ e.rootPort ≤ (s.controllers dev).hw.maxPorts

/-- Every controller that was started is driven, and no entry of the registry can be taken for a port of two of them. -/
structure AllOperated (s₀ s : Host) (list : List PciFunction) : Prop where
  operated : ∀ f ∈ list, isXhci f = true → (s.controllers f.toPciDevice).run = true → Operated walk s₀ s f.toPciDevice
  apart : ∀ f ∈ list, ∀ g ∈ list, isXhci f = true → isXhci g = true → (s.controllers f.toPciDevice).run = true →
    (s.controllers g.toPciDevice).run = true → f.toPciDevice ≠ g.toPciDevice →
      ∀ e ∈ s.kernel.activePorts, ¬ (s.Matches e f.toPciDevice ∧ s.Matches e g.toPciDevice)

/-- Before `init_usb_controllers`: no instance is published, and no device is registered. `max_ports` is a `u8`. -/
structure BeforeUsb (s : Host) : Prop where
  xhci : s.kernel.xhci = none
  activePorts : s.kernel.activePorts = []
  maxPorts : ∀ dev, (s.controllers dev).hw.maxPorts < 256

end Octagram.Usb

/-
The state the USB code works on and its primitive steps: the interrupt flag and the spin locks, the
atomics, `XHCI_INSTANCE`, the driver states, the registry, the memory shared with the controller,
and the controller itself. A step between two preemption points of the source is one operation; the
event ring is the queue that `EventRing` shows it to be. Besides what is outstanding, the controller
has a log of all that it was sent, and of the events that were consumed.
-/
import Octagram.Lib.Prog
import Octagram.Lib.Ram
import Octagram.Usb.EventRing
import Octagram.Usb.TransferRing

namespace Octagram.Usb

open Octagram.Lib

/-! ## Data -/

/-- The spin locks (`spin::Mutex`). -/
inductive Lock
  | xhci | kbd | mouse | activePorts
  deriving DecidableEq, Repr

/-- `DeviceKind`: the classes that have a driver. -/
inductive DeviceKind
  | keyboard | mouse
  deriving DecidableEq, Repr

/-- Where in the source a lock is taken; `keyboard_usb` and `mouse_usb` take theirs at the same places. -/
inductive Site
  | enableSlot | disableSlot | disableSlotDcbaa | addressDevice | addressDeviceDcbaa | configureEndpoint
  | getDeviceDescriptor | controlTransferIn | controlTransferNoData
  | discoverPorts | discoverRegistry
  | initDriver (k : DeviceKind) | armNextReport (k : DeviceKind) | armNextReportXhci (k : DeviceKind)
  | shutdownDriver (k : DeviceKind) | pollDriver (k : DeviceKind) | handleReport (k : DeviceKind)
  | interruptHandler
  deriving DecidableEq, Repr

/-- `XHCI`: the command ring, the DCBAA and the EP0 ring (the event ring's fields are in `EventRing`). -/
structure XHCI where
  dcbaaVirt : Nat
  cmdRingVirt : Nat
  cmdEnqueueIndex : Nat
  cmdCycleState : Bool
  ep0RingVirt : Nat
  ep0RingPhys : Nat
  ep0EnqueueIndex : Nat
  ep0CycleState : Bool

/-- `EndpointContext`: the fields that `configure_endpoint` writes. -/
structure EndpointContext where
  dword0 : BitVec 32
  dword1 : BitVec 32
  trDequeueLo : BitVec 32
  trDequeueHi : BitVec 32
  dword4 : BitVec 32

/-- `InputContext` and `InputContextFull`: the add flags, the slot context and the one endpoint
context that is filled in, with its DCI. -/
structure InputContext where
  addFlags : BitVec 32
  slotDword0 : BitVec 32
  slotDword1 : BitVec 32
  dci : Nat
  endpoint : EndpointContext

/-- The ring an input context hands to the controller (TR Dequeue Pointer). -/
def InputContext.ring (c : InputContext) : Nat :=
  c.endpoint.trDequeueHi.toNat * 2 ^ 32 + (c.endpoint.trDequeueLo &&& ~~~0xF#32).toNat

/-- The root hub port of an input context (bits 16-23 of dword 1 of the slot context). -/
def InputContext.rootPort (c : InputContext) : Nat := c.slotDword1.toNat / 2 ^ 16 % 256

/-- What the USB code puts on the heap. -/
inductive BoxContent
  | transferRing | deviceContext | inputContext (c : InputContext) | bytes (n : Nat)

/-- The fields that `KeyboardState` and `MouseState` share. -/
structure DriverState where
  slotId : Nat
  ringVirt : Nat
  ringPhys : Nat
  enqueueIndex : Nat
  cycleState : Bool
  dci : Nat
  reportBufVirt : Nat
  reportBufPhys : Nat

/-- `KeyboardState`: what the drivers share, and the keys of the last report. -/
structure KeyboardState extends DriverState where
  lastKeycodes : List UInt8

/-- `MouseState`: what the drivers share, the buttons of the last report and the position. -/
structure MouseState extends DriverState where
  lastButtons : UInt8
  posX : Int
  posY : Int

/-- `ActivePort`: an entry of the registry. -/
structure ActivePort where
  rootPort : Nat
  slotId : Nat
  hasKeyboard : Bool
  hasMouse : Bool
  deriving DecidableEq, Repr

/-! ## The controller -/

/-- A root port: Current Connect Status, Connect Status Change, the speed of the device, and when
(on the controller's clock) a device was last connected. -/
structure Port where
  ccs : Bool
  csc : Bool
  speed : BitVec 4
  connectedAt : Nat

/-- PORTSC as `read_portsc` sees it. -/
def Port.portsc (p : Port) : BitVec 32 :=
  (if p.ccs then 1 else 0) ||| (p.speed.zeroExtend 32 <<< 10) ||| (if p.csc then 1#32 <<< 17 else 0)

/-- A command the controller was sent, with the input context it names. -/
structure Command where
  trbType : Nat
  slot : Nat
  input : InputContext
  sentAt : Nat

/-- What an event reports: a port change, a command or a transfer (by their number). -/
inductive Origin
  | port (p : Nat) | command (id : Nat) | transfer (id : Nat)
  deriving DecidableEq, Repr

/-- An event: its TRB, and what it reports. -/
structure Event where
  trb : Trb
  origin : Origin

/-- The controller: its ports; all commands sent and all transfers queued (the transfer by the ring
its TRB with IOC was put on), and those of them not yet answered; the event queue and the events
`poll_event_ring` acted on; the enabled slots, and the slot and DCI each transfer ring belongs to. -/
structure Controller where
  maxPorts : Nat
  port : Nat → Port
  clock : Nat
  commands : List Command
  unanswered : List Nat
  transfers : List Nat
  incomplete : List Nat
  events : List Event
  consumed : List Event
  enabled : Nat → Bool
  endpoint : Nat → Nat × Nat

/-- The state of the kernel, as far as the USB code goes. -/
structure Kernel where
  /-- The interrupt flag. -/
  ints : Bool
  held : Lock → Bool
  globals : Globals
  /-- `XHCI_INSTANCE`. -/
  xhci : Option XHCI
  /-- `KBD_STATE`. -/
  kbd : Option KeyboardState
  /-- `MOUSE_STATE`. -/
  mouse : Option MouseState
  /-- `ACTIVE_PORTS`. -/
  activePorts : List ActivePort
  hhdm : Option Nat
  /-- The TRBs in memory, by address. -/
  trb : Nat → Trb
  /-- The DCBAA, by slot. -/
  dcbaa : Nat → Nat
  /-- The input contexts in memory, by physical address. -/
  inputContext : Nat → InputContext
  ram : Ram
  /-- The addresses `Box::new` will return, one after the other. -/
  boxes : Nat → Nat
  boxCount : Nat
  console : List Char
  hw : Controller

/-! ## Operations -/

/-- The waits that end by time-out. -/
inductive Wait
  | command | transfer
  deriving DecidableEq, Repr

/-- The primitive operations. The last three note what no variable of the program holds: a wait
that gave up, an `init_one_device` that returned `None`, and a panic. -/
inductive Op
  | cli | sti
  | lock (l : Lock) (site : Site)
  | unlock (l : Lock)
  | loadFlag (f : Flag) | storeFlag (f : Flag) (b : Bool) | swapFlag (f : Flag) (b : Bool)
  | loadReg (r : Reg) | storeReg (r : Reg) (n : Nat)
  | xhciIsSome | getXhci
  | setEp0Ring (virt phys : Nat)
  | sendCommand (parameter : Nat) (trbType slotId : Nat)
  | ep0EnqueueTrb (parameter : BitVec 64) (status control : BitVec 32)
  | ringDoorbell (slot value : Nat)
  | writeLinkTrb (ringVirt ringPhys ringSize : Nat)
  | pollEventRing
  | boxNew (b : BoxContent) | boxFree (addr : Nat) | virtToPhys (virt : Nat)
  | writeDcbaa (slot value : Nat)
  | maxPorts | readPortsc (port : Nat)
  | readBytes (addr len : Nat)
  | getDriver (k : DeviceKind) | newDriver (k : DeviceKind) (st : DriverState) | dropDriver (k : DeviceKind)
  | enqueueReport (k : DeviceKind)
  | getKbd | setLastKeycodes (l : List UInt8)
  | getMouse | setMousePos (x y : Int) (buttons : UInt8)
  | getActive | setActive (l : List ActivePort)
  | print (c : Char)
  | expire (w : Wait) | initFailed | panic (message : String)

/-- What an operation answers. -/
@[reducible] def Ret : Op → Type
  | .loadFlag _ => Bool
  | .swapFlag _ _ => Bool
  | .loadReg _ => Nat
  | .xhciIsSome => Bool
  | .getXhci => XHCI
  | .boxNew _ => Nat
  | .virtToPhys _ => Option Nat
  | .maxPorts => Nat
  | .readPortsc _ => BitVec 32
  | .readBytes _ _ => List UInt8
  | .getDriver _ => Option DriverState
  | .getKbd => Option KeyboardState
  | .getMouse => Option MouseState
  | .getActive => List ActivePort
  | .panic _ => Empty
  | _ => Unit

/-- Programs over the primitive operations. -/
abbrev KProg := Prog Op Ret

/-- The program of one operation. -/
abbrev act (o : Op) : KProg (Ret o) := Prog.call o

/-- `COMMAND_RING_SIZE`, in TRBs, the Link TRB included. -/
def COMMAND_RING_SIZE : Nat := 32

/-- `CONTROL_RING_SIZE`, in TRBs: the ring of EP0, and those that `configure_endpoint` links. -/
def CONTROL_RING_SIZE : Nat := 16

/-- `TRB_TYPE_ENABLE_SLOT` -/
def TRB_TYPE_ENABLE_SLOT : Nat := 9

/-- `TRB_TYPE_DISABLE_SLOT` -/
def TRB_TYPE_DISABLE_SLOT : Nat := 10

/-- `TRB_TYPE_ADDRESS_DEVICE` -/
def TRB_TYPE_ADDRESS_DEVICE : Nat := 11

/-- `TRB_TYPE_CONFIGURE_ENDPOINT` -/
def TRB_TYPE_CONFIGURE_ENDPOINT : Nat := 12

namespace Kernel

/-- Write the TRB number `i` of the ring at `virt`. -/
def writeTrb (s : Kernel) (virt i : Nat) (t : Trb) : Kernel :=
  { s with trb := Function.update s.trb (virt + 16 * i) t }

/-- The step of the command ring in `send_command`; the ring has no Link TRB. -/
def stepCmd (x : XHCI) : XHCI :=
  if x.cmdEnqueueIndex + 1 ≥ COMMAND_RING_SIZE - 1 then
    { x with cmdEnqueueIndex := 0, cmdCycleState := !x.cmdCycleState }
  else
    { x with cmdEnqueueIndex := x.cmdEnqueueIndex + 1 }

/-- The TRB that `send_command` writes. -/
def commandTrb (x : XHCI) (parameter trbType slotId : Nat) : Trb :=
  ⟨BitVec.ofNat 64 parameter, 0,
    (BitVec.ofNat 32 trbType <<< 10) ||| bitOf x.cmdCycleState ||| (BitVec.ofNat 32 slotId <<< 24)⟩

/-- `XHCI::send_command`: write the TRB, step the ring, ring doorbell 0. -/
def sendCommand (s : Kernel) (x : XHCI) (parameter trbType slotId : Nat) : Kernel :=
  { s.writeTrb x.cmdRingVirt x.cmdEnqueueIndex (commandTrb x parameter trbType slotId) with
    xhci := some (stepCmd x)
    hw := { s.hw with
      commands := s.hw.commands ++ [⟨trbType, slotId, s.inputContext parameter, s.hw.clock⟩]
      unanswered := s.hw.unanswered ++ [s.hw.commands.length] } }

/-- A TRB was put on a transfer ring: if it has IOC, the controller owes an event for it. -/
def queued (hw : Controller) (ringPhys : Nat) (t : Trb) : Controller :=
  if t.control.getLsbD 5 then
    { hw with transfers := hw.transfers ++ [ringPhys], incomplete := hw.incomplete ++ [hw.transfers.length] }
  else
    hw

/-- The step of the EP0 ring in `ep0_enqueue_trb`; the ring has no Link TRB. -/
def stepEp0 (x : XHCI) : XHCI :=
  if x.ep0EnqueueIndex + 1 ≥ CONTROL_RING_SIZE - 1 then
    { x with ep0EnqueueIndex := 0, ep0CycleState := !x.ep0CycleState }
  else
    { x with ep0EnqueueIndex := x.ep0EnqueueIndex + 1 }

/-- The TRB that `ep0_enqueue_trb` writes. -/
def ep0Trb (x : XHCI) (parameter : BitVec 64) (status control : BitVec 32) : Trb :=
  ⟨parameter, status, control ||| bitOf x.ep0CycleState⟩

/-- `XHCI::ep0_enqueue_trb`. -/
def ep0EnqueueTrb (s : Kernel) (x : XHCI) (parameter : BitVec 64) (status control : BitVec 32) : Kernel :=
  { s.writeTrb x.ep0RingVirt x.ep0EnqueueIndex (ep0Trb x parameter status control) with
    xhci := some (stepEp0 x)
    hw := queued s.hw x.ep0RingPhys (ep0Trb x parameter status control) }

/-- The ring of 16 TRBs at `virt`. -/
def ringAt (s : Kernel) (virt : Nat) : Nat → Trb := fun i => s.trb (virt + 16 * i)

/-- The memory after the ring of 16 TRBs at `virt` was written. -/
def storeRing (s : Kernel) (virt : Nat) (ring : Nat → Trb) : Nat → Trb := fun a =>
  if virt ≤ a ∧ a < virt + 16 * CONTROL_RING_SIZE ∧ (a - virt) % 16 = 0 then ring ((a - virt) / 16) else s.trb a

/-- The ring at `virt` after `enqueue_normal_trb_and_ring` for a report of 8 bytes. -/
def reportRing (s : Kernel) (virt phys index : Nat) (cycle : Bool) (bufPhys : Nat) : TransferRing :=
  TransferRing.enqueueNormalTrb ⟨s.ringAt virt, index, cycle⟩ (BitVec.ofNat 64 phys) CONTROL_RING_SIZE
    (BitVec.ofNat 64 bufPhys) 8

/-- The TRB it puts on the ring. -/
def reportTrb (cycle : Bool) (bufPhys : Nat) : Trb := normalTrb (BitVec.ofNat 64 bufPhys) 8 cycle

/-- `KBD_STATE` or `MOUSE_STATE`, the fields that both have. -/
def driver (s : Kernel) : DeviceKind → Option DriverState
  | .keyboard => s.kbd.map (·.toDriverState)
  | .mouse => s.mouse.map (·.toDriverState)

/-- Change these fields, if there is a driver. -/
def modifyDriver (s : Kernel) (f : DriverState → DriverState) : DeviceKind → Kernel
  | .keyboard => { s with kbd := s.kbd.map fun st => { st with toDriverState := f st.toDriverState } }
  | .mouse => { s with mouse := s.mouse.map fun st => { st with toDriverState := f st.toDriverState } }

/-- The state `init_keyboard` or `init_mouse` stores. -/
def newDriver (s : Kernel) (st : DriverState) : DeviceKind → Kernel
  | .keyboard => { s with kbd := some { st with lastKeycodes := List.replicate 6 0 } }
  | .mouse => { s with mouse := some { st with lastButtons := 0, posX := 0, posY := 0 } }

/-- `KBD_STATE` or `MOUSE_STATE` is taken. -/
def dropDriver (s : Kernel) : DeviceKind → Kernel
  | .keyboard => { s with kbd := none }
  | .mouse => { s with mouse := none }

/-- `arm_next_report` under both locks. -/
def enqueueReport (s : Kernel) (k : DeviceKind) : Kernel :=
  match s.driver k with
  | none => s
  | some st =>
    { s.modifyDriver (fun _ => { st with
        enqueueIndex :=
          (s.reportRing st.ringVirt st.ringPhys st.enqueueIndex st.cycleState st.reportBufPhys).enqueueIndex
        cycleState :=
          (s.reportRing st.ringVirt st.ringPhys st.enqueueIndex st.cycleState st.reportBufPhys).cycleState }) k with
      trb := s.storeRing st.ringVirt
        (s.reportRing st.ringVirt st.ringPhys st.enqueueIndex st.cycleState st.reportBufPhys).trbs
      hw := queued s.hw st.ringPhys (reportTrb st.cycleState st.reportBufPhys) }

/-- `XHCI::poll_event_ring`: act on the oldest unread event, if there is one. -/
def pollEventRing (s : Kernel) : Kernel :=
  { s with
    globals := (pollQueue Event.trb s.hw.events s.globals).2
    hw := { s.hw with
      events := (pollQueue Event.trb s.hw.events s.globals).1
      consumed := s.hw.consumed ++ s.hw.events.take 1 } }

/-- `Box::new`: the content is written to the next address of the allocator. -/
def boxNew (s : Kernel) (b : BoxContent) : Nat × Kernel :=
  let addr := s.boxes s.boxCount
  let s' := { s with boxCount := s.boxCount + 1 }
  (addr, match b with
    | .transferRing => { s' with trb := s.storeRing addr fun _ => Trb.empty }
    | .deviceContext => s'
    | .inputContext c => { s' with inputContext := Function.update s.inputContext (addr - s.hhdm.getD 0) c }
    | .bytes n => { s' with ram := s.ram.fill addr n 0 })

/-- What an operation does; `none` where it never ends: a lock that is held, a panic. -/
def exec : (o : Op) → Kernel → Option (Ret o × Kernel)
  | .cli, s => some ((), { s with ints := false })
  | .sti, s => some ((), { s with ints := true })
  | .lock l _, s => if s.held l then none else some ((), { s with held := Function.update s.held l true })
  | .unlock l, s => some ((), { s with held := Function.update s.held l false })
  | .loadFlag f, s => some (s.globals.flag f, s)
  | .storeFlag f b, s => some ((), { s with globals := s.globals.storeFlag f b })
  | .swapFlag f b, s => some (s.globals.flag f, { s with globals := s.globals.storeFlag f b })
  | .loadReg r, s => some (s.globals.reg r, s)
  | .storeReg r n, s => some ((), { s with globals := s.globals.storeReg r n })
  | .xhciIsSome, s => some (s.xhci.isSome, s)
  | .getXhci, s => s.xhci.map fun x => (x, s)
  | .setEp0Ring virt phys, s => s.xhci.map fun x => ((), { s with
      xhci := some { x with ep0RingVirt := virt, ep0RingPhys := phys, ep0EnqueueIndex := 0, ep0CycleState := true } })
  | .sendCommand parameter trbType slotId, s => s.xhci.map fun x => ((), s.sendCommand x parameter trbType slotId)
  | .ep0EnqueueTrb parameter status control, s =>
    s.xhci.map fun x => ((), s.ep0EnqueueTrb x parameter status control)
  | .ringDoorbell _ _, s => some ((), s)
  | .writeLinkTrb virt phys size, s => some ((), s.writeTrb virt (size - 1) (linkTrb (BitVec.ofNat 64 phys) true))
  | .pollEventRing, s => some ((), s.pollEventRing)
  | .boxNew b, s => some (s.boxNew b)
  | .boxFree _, s => some ((), s)
  | .virtToPhys virt, s => some (s.hhdm.map (virt - ·), s)
  | .writeDcbaa slot value, s => some ((), { s with dcbaa := Function.update s.dcbaa slot value })
  | .maxPorts, s => some (s.hw.maxPorts, s)
  | .readPortsc port, s => some ((s.hw.port port).portsc, s)
  | .readBytes addr len, s => some ((List.range len).map fun i => s.ram (addr + i), s)
  | .getDriver k, s => some (s.driver k, s)
  | .newDriver k st, s => some ((), s.newDriver st k)
  | .dropDriver k, s => some ((), s.dropDriver k)
  | .enqueueReport k, s => some ((), s.enqueueReport k)
  | .getKbd, s => some (s.kbd, s)
  | .setLastKeycodes l, s => some ((), { s with kbd := s.kbd.map fun st => { st with lastKeycodes := l } })
  | .getMouse, s => some (s.mouse, s)
  | .setMousePos x y buttons, s =>
    some ((), { s with mouse := s.mouse.map fun st => { st with posX := x, posY := y, lastButtons := buttons } })
  | .getActive, s => some (s.activePorts, s)
  | .setActive l, s => some ((), { s with activePorts := l })
  | .print c, s => some ((), { s with console := s.console ++ [c] })
  | .expire _, s => some ((), s)
  | .initFailed, s => some ((), s)
  | .panic _, _ => none

end Kernel

end Octagram.Usb

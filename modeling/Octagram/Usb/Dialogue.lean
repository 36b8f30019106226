/-
The protocol between the main context and the controller: which request may be made when, and what a control
transfer looks like on the EP0 ring. Its state (`Dialogue`) knows no more than the driver was told: a slot is
enabled when the completion that grants it was read, addressed and configured when the driver read success, and
given up as soon as Disable Slot is sent. `Dialogue.May` says what may be done there, `Dialogue.next` where it
leads; Disable Slot is sent for a slot no more often than Enable Slot granted it. That the code keeps to it is
proved in `Conformance`.
-/
import Octagram.Lib.Protocol
import Octagram.Usb.ShortPacket

namespace Octagram.Usb

open Octagram.Lib

/-! ## Control transfers -/

/-- The setup packet of a USB request. -/
structure SetupPacket where
  bmRequestType : BitVec 8
  bRequest : BitVec 8
  wValue : BitVec 16
  wIndex : BitVec 16
  wLength : BitVec 16
  deriving DecidableEq

namespace SetupPacket

/-- The packet in the parameter of a Setup Stage TRB. -/
def ofParameter (w : BitVec 64) : SetupPacket :=
  ⟨w.extractLsb' 0 8, w.extractLsb' 8 8, w.extractLsb' 16 16, w.extractLsb' 32 16, w.extractLsb' 48 16⟩

variable (p : SetupPacket)

/-- Data goes from the device to the host. -/
def fromDevice : Bool := p.bmRequestType.getLsbD 7

/-- The Transfer Type of the Setup Stage TRB: no data stage, or one in this direction. -/
def transferType : BitVec 2 := if p.wLength = 0#16 then 0#2 else if p.fromDevice then 3#2 else 2#2

/-- The Direction of the Status Stage TRB, against that of the data. -/
def statusIn : Bool := p.wLength = 0#16 || !p.fromDevice

/-- `GET_DESCRIPTOR` of the device. -/
def IsGetDescriptor : Prop := p.bmRequestType = 0x80#8 ∧ p.bRequest = 0x06#8

/-- `SET_CONFIGURATION`, of a configuration and not of none. -/
def IsSetConfiguration : Prop := p.bmRequestType = 0x00#8 ∧ p.bRequest = 0x09#8 ∧ p.wValue ≠ 0#16 ∧ p.wLength = 0#16

/-- `SET_PROTOCOL` with the boot protocol. -/
def IsSetProtocol : Prop := p.bmRequestType = 0x21#8 ∧ p.bRequest = 0x0B#8 ∧ p.wValue = 0#16 ∧ p.wLength = 0#16

instance : Decidable p.IsGetDescriptor := inferInstanceAs (Decidable (_ ∧ _))
instance : Decidable p.IsSetConfiguration := inferInstanceAs (Decidable (_ ∧ _ ∧ _ ∧ _))
instance : Decidable p.IsSetProtocol := inferInstanceAs (Decidable (_ ∧ _ ∧ _ ∧ _))

end SetupPacket

namespace Trb

/-- Immediate Data. -/
def idt (t : Trb) : Bool := t.control.getLsbD 6

/-- The Direction of a stage. -/
def dirIn (t : Trb) : Bool := t.control.getLsbD 16

/-- A Setup Stage TRB carries its packet itself and tells which stages follow. -/
structure IsSetup (t : Trb) : Prop where
  trbType : t.trbType = 2
  idt : t.idt = true
  ioc : t.ioc = false
  length : t.transferLength = 8
  transferType : t.control.extractLsb' 16 2 = (SetupPacket.ofParameter t.parameter).transferType

/-- A Data Stage TRB for the packet. -/
structure IsData (p : SetupPacket) (t : Trb) : Prop where
  trbType : t.trbType = 3
  idt : t.idt = false
  ioc : t.ioc = false
  length : t.transferLength = p.wLength.toNat
  dir : t.dirIn = p.fromDevice

/-- A Status Stage TRB for the packet; its completion is reported. -/
structure IsStatus (p : SetupPacket) (t : Trb) : Prop where
  trbType : t.trbType = 4
  ioc : t.ioc = true
  dir : t.dirIn = p.statusIn

end Trb

/-- The last stage that was put on the EP0 ring of a transfer that is not rung yet. -/
inductive Stage
  | idle | setup (p : SetupPacket) | data (p : SetupPacket) | status (p : SetupPacket)

/-- The stage that a TRB adds. -/
def Stage.next (t : Trb) : Stage → Stage
  | idle => setup (.ofParameter t.parameter)
  | setup p => if p.wLength = 0#16 then status p else data p
  | data p | status p => status p

/-! ## The state -/

/-- A request and the flag that tells that its result is there. -/
inductive Mailbox (α : Type)
  | idle | cleared | sent (a : α) | done (a : α)

/-- The flag was seen set. -/
def Mailbox.seen {α : Type} : Mailbox α → Mailbox α
  | sent a => done a
  | m => m

/-- An endpoint: its DCI and the dequeue pointer that the controller was given for it. -/
abbrev Endpoint : Type := Nat × (BitVec 32 × BitVec 32)

/-- The endpoint of an input context. -/
def InputContext.named (c : InputContext) : Endpoint := (c.dci, c.endpoint.trDequeueLo, c.endpoint.trDequeueHi)

/-- A slot, as far as the driver was told: a USB device is in Address or Configured state. -/
inductive SlotState
  | disabled | enabled | addressed | configured (endpoints : List Endpoint)

/-- The requests that a device takes in this state. -/
def SlotState.Permits (p : SetupPacket) : SlotState → Prop
  | disabled | enabled => False
  | addressed => p.IsGetDescriptor ∨ p.IsSetConfiguration
  | configured _ => p.IsGetDescriptor ∨ p.IsSetConfiguration ∨ p.IsSetProtocol

/-- The slot was granted, and its device was not addressed yet. -/
def SlotState.isEnabled : SlotState → Bool
  | enabled => true
  | _ => false

/-- A command: its type, its slot and the endpoint that it names. -/
structure Sent where
  trbType : Nat
  slot : Nat
  endpoint : Option Endpoint

/-- A slot after its command succeeded. -/
def SlotState.after (st : SlotState) (c : Sent) : SlotState :=
  if c.trbType = TRB_TYPE_ADDRESS_DEVICE then .addressed
  else if c.trbType = TRB_TYPE_CONFIGURE_ENDPOINT then
    match st with
    | .configured endpoints => .configured (c.endpoint.toList ++ endpoints)
    | st => st
  else st

/-- What the driver did and was told: interrupts are off, the lock of the controller is held; the boxes and their
physical addresses, and the rings with a Link TRB; the input context made last; the slots, and which of them
have a device context; the ring of the `ep0_*` fields and the slot that was given it; what is on that ring; the
two mailboxes, and that Enable Slot succeeded; how often each slot was granted without Disable Slot having been
sent for it since; the drivers' devices; the registry. -/
structure Dialogue where
  off : Bool
  held : Bool
  boxes : List (Nat × BoxContent)
  translated : List (Nat × Nat)
  linked : List (Nat × Nat)
  input : Option InputContext
  slot : Nat → SlotState
  context : Nat → Bool
  ep0Ring : Nat
  ep0 : Option Nat
  stage : Stage
  command : Mailbox Sent
  transfer : Mailbox (Nat × SetupPacket)
  granted : Bool
  grants : Nat → Nat
  driver : DeviceKind → Option DriverState
  active : List ActivePort

namespace Dialogue

/-- After boot. -/
def new : Dialogue where
  off := false
  held := false
  boxes := []
  translated := []
  linked := []
  input := none
  slot := fun _ => .disabled
  context := fun _ => false
  ep0Ring := 0
  ep0 := none
  stage := .idle
  command := .idle
  transfer := .idle
  granted := false
  grants := fun _ => 0
  driver := fun _ => none
  active := []

variable (b : Dialogue)

/-- The interrupt handler cannot come in between. -/
def Exclusive : Prop := b.off = true ∧ b.held = true

/-- A box with this content is at these addresses. -/
def Has (virt phys : Nat) (c : BoxContent) : Prop := (virt, c) ∈ b.boxes ∧ (virt, phys) ∈ b.translated

/-- A ring of an endpoint, with its Link TRB. -/
def HasRing (virt phys : Nat) : Prop := b.Has virt phys .transferRing ∧ (virt, phys) ∈ b.linked

/-- The endpoint of a driver's device is configured, on the driver's ring. -/
def Configured (st : DriverState) : Prop :=
  ∃ endpoints, b.slot st.slotId = .configured endpoints ∧ (st.dci, dequeuePointer st.ringPhys) ∈ endpoints

/-! ## What may be done -/

/-- A command of this type may be sent. -/
inductive Sends (parameter slotId : Nat) : Nat → Prop
  | enableSlot : Sends parameter slotId TRB_TYPE_ENABLE_SLOT
  | disableSlot (hgrants : 0 < b.grants slotId) : Sends parameter slotId TRB_TYPE_DISABLE_SLOT
  | addressDevice {c : InputContext} {virt : Nat} (hslot : b.slot slotId = .enabled)
      (hcontext : b.context slotId = true)
      (hc : b.input = some c) (hat : b.Has virt parameter (.inputContext c)) (hflags : c.addFlags = 3#32)
      (hep0 : b.ep0 = none) (hring : c.named = (1, dequeuePointer b.ep0Ring)) :
      Sends parameter slotId TRB_TYPE_ADDRESS_DEVICE
  | configureEndpoint {c : InputContext} {virt ringVirt ring : Nat} {endpoints : List Endpoint}
      (hslot : b.slot slotId = .configured endpoints) (hc : b.input = some c)
      (hat : b.Has virt parameter (.inputContext c))
      (hflags : c.addFlags = 1#32 ||| (1#32 <<< c.dci)) (hring : b.HasRing ringVirt ring)
      (hnamed : c.named = (c.dci, dequeuePointer ring)) : Sends parameter slotId TRB_TYPE_CONFIGURE_ENDPOINT

/-- A TRB may be put on the EP0 ring; a data stage names a buffer of its length. -/
def MayQueue (t : Trb) : Stage → Prop
  | .idle => t.IsSetup
  | .setup p =>
    if p.wLength = 0#16 then t.IsStatus p
    else t.IsData p ∧ ∃ virt phys n, t.parameter = BitVec.ofNat 64 phys ∧ b.Has virt phys (.bytes n) ∧
      p.wLength.toNat ≤ n
  | .data p => t.IsStatus p
  | .status _ => False

/-- A driver may take this state: its endpoint is configured, with its ring, and its buffer is a box. -/
structure Takes (st : DriverState) : Prop where
  endpoint : b.Configured st
  ring : b.HasRing st.ringVirt st.ringPhys
  index : st.enqueueIndex = 0
  cycle : st.cycleState = true
  buffer : b.Has st.reportBufVirt st.reportBufPhys (.bytes 8)

/-- What may be done. Commands and stages are queued, and EP0 is rung, only where no handler can come in between; a
result is read only after its flag was seen; what concerns a slot needs that slot in the state that allows it. The
operations that are not named here concern neither the controller nor a device. -/
def May : Op → Prop
  -- no transfer is left half done when the handler may run again
  | .sti | .unlock .xhci => b.stage = .idle
  | .writeLinkTrb virt phys size => b.Has virt phys .transferRing ∧ size = CONTROL_RING_SIZE
  -- a device context for a slot that was granted, or none for one that was given up
  | .writeDcbaa slotId value =>
    (b.slot slotId = .enabled ∧ ∃ virt, b.Has virt value .deviceContext) ∨ (b.slot slotId = .disabled ∧ value = 0)
  | .setEp0Ring virt phys => b.Exclusive ∧ b.Has virt phys .transferRing
  | .sendCommand parameter trbType slotId =>
    b.Exclusive ∧ b.command = .cleared ∧ b.stage = .idle ∧ b.Sends parameter slotId trbType
  | .ep0EnqueueTrb parameter status control =>
    b.Exclusive ∧ b.transfer = .cleared ∧ b.MayQueue ⟨parameter, status, control⟩ b.stage
  | .ringDoorbell slot value =>
    b.Exclusive ∧ value = 1 ∧ b.transfer = .cleared ∧ b.ep0 = some slot ∧ ∃ p, b.stage = .status p ∧
      (b.slot slot).Permits p
  | .loadReg .completionCode => ∃ c, b.command = .done c
  | .loadReg .transferCompletionCode => ∃ c, b.transfer = .done c
  | .storeReg r _ => r.routing = true
  | .newDriver _ st => b.Takes st
  | .enqueueReport k => ∃ st, b.driver k = some st ∧ b.Configured st
  | _ => True

/-! ## What it leads to -/

/-- An address from the allocator. -/
def box (c : BoxContent) (virt : Nat) : Dialogue :=
  { b with
    boxes := (virt, c) :: b.boxes
    input := match c with
      | .inputContext i => some i
      | _ => b.input }

/-- A command is sent. Nothing is asked of a slot any more once it is to be disabled. -/
def send (trbType slotId : Nat) : Dialogue :=
  { b with
    command := .sent ⟨trbType, slotId, b.input.map InputContext.named⟩
    slot := if trbType = TRB_TYPE_DISABLE_SLOT then Function.update b.slot slotId .disabled else b.slot
    grants := if trbType = TRB_TYPE_DISABLE_SLOT then
      Function.update b.grants slotId (b.grants slotId - 1) else b.grants
    ep0 := if trbType = TRB_TYPE_ADDRESS_DEVICE then some slotId else b.ep0 }

/-- The completion code of a command is read. -/
def commandResult (code : Nat) : Dialogue :=
  match b.command with
  | .done c =>
    { b with
      command := .idle
      granted := code = 1 ∧ c.trbType = TRB_TYPE_ENABLE_SLOT
      slot := if code = 1 then Function.update b.slot c.slot ((b.slot c.slot).after c) else b.slot }
  | _ => b

/-- The slot of a command's completion is read. -/
def grant (slotId : Nat) : Dialogue :=
  if b.granted then
    { b with
      granted := false
      grants := Function.update b.grants slotId (b.grants slotId + 1)
      slot := Function.update b.slot slotId .enabled
      context := Function.update b.context slotId false }
  else b

/-- The completion code of a transfer is read. -/
def transferResult (code : Nat) : Dialogue :=
  match b.transfer with
  | .done (slotId, p) =>
    { b with
      transfer := .idle
      slot := if code = 1 ∧ p.IsSetConfiguration then Function.update b.slot slotId (.configured []) else b.slot }
  | _ => b

/-- The doorbell of EP0 is rung for what is on its ring. -/
def ring (slot : Nat) : Dialogue :=
  match b.stage with
  | .status p => { b with stage := .idle, transfer := .sent (slot, p) }
  | _ => b

/-- Where an operation leads, with its answer. A flag that was seen set turns a request that was sent into one that is
done; reading its result, or giving up the wait, ends it. -/
def next : (o : Op) → Ret o → Dialogue
  | .cli, _ => { b with off := true }
  | .sti, _ => { b with off := false }
  | .lock .xhci _, _ => { b with held := true }
  | .unlock .xhci, _ => { b with held := false }
  | .boxNew c, virt => b.box c virt
  | .boxFree virt, _ => { b with boxes := b.boxes.filter (·.1 ≠ virt) }
  | .virtToPhys virt, some phys => { b with translated := (virt, phys) :: b.translated }
  | .writeLinkTrb virt phys _, _ => { b with linked := (virt, phys) :: b.linked }
  | .writeDcbaa slotId _, _ => { b with context := Function.update b.context slotId (b.slot slotId).isEnabled }
  | .setEp0Ring _ phys, _ => { b with ep0Ring := phys, ep0 := none }
  | .storeFlag .completionPending false, _ => { b with command := .cleared }
  | .storeFlag .transferCompletionPending false, _ => { b with transfer := .cleared }
  | .sendCommand _ trbType slotId, _ => b.send trbType slotId
  | .ep0EnqueueTrb parameter status control, _ => { b with stage := b.stage.next ⟨parameter, status, control⟩ }
  | .ringDoorbell slot _, _ => b.ring slot
  | .loadFlag .completionPending, true => { b with command := b.command.seen }
  | .loadFlag .transferCompletionPending, true => { b with transfer := b.transfer.seen }
  | .expire .command, _ => { b with command := .idle }
  | .expire .transfer, _ => { b with transfer := .idle }
  | .loadReg .completionCode, code => b.commandResult code
  | .loadReg .completionSlot, slotId => b.grant slotId
  | .loadReg .transferCompletionCode, code => b.transferResult code
  | .newDriver k st, _ => { b with driver := Function.update b.driver k (some st) }
  | .dropDriver k, _ => { b with driver := Function.update b.driver k none }
  | .setActive active, _ => { b with active := active }
  | _, _ => b

end Dialogue

/-- The protocol of the main context. -/
def dialogue : Protocol Op Ret Dialogue := ⟨fun o b => b.May o, fun o r b => b.next o r⟩

/-- What is known of the answers: a slot number in an event has 8 bits, and the registry is what was stored last. -/
def Plausible (b : Dialogue) : (o : Op) → Ret o → Prop
  | .loadReg .completionSlot, slotId => slotId < 256
  | .getActive, active => active = b.active
  | _, _ => True

/-- Boot and the idle loop, as one program: the calls one after the other. -/
def syncCalls : List SyncCall → KProg Unit
  | [] => pure ()
  | i :: rest => do
    i.prog
    syncCalls rest

end Octagram.Usb

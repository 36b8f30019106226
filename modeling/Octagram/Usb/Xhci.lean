/-
`usb/xhci.rs` from `enable_slot` on: the commands and the control transfers of the main context,
each a submission under the lock with interrupts off and a wait for the handler to fill in the
atomics.
-/
import Octagram.Usb.Kernel

namespace Octagram.Usb

open Octagram.Lib

/-! ## The operations as program steps -/

abbrev cli : KProg Unit := act .cli
abbrev sti : KProg Unit := act .sti
abbrev lock (l : Lock) (site : Site) : KProg Unit := act (.lock l site)
abbrev unlock (l : Lock) : KProg Unit := act (.unlock l)
abbrev loadFlag (f : Flag) : KProg Bool := act (.loadFlag f)
abbrev storeFlag (f : Flag) (b : Bool) : KProg Unit := act (.storeFlag f b)
abbrev swapFlag (f : Flag) (b : Bool) : KProg Bool := act (.swapFlag f b)
abbrev loadReg (r : Reg) : KProg Nat := act (.loadReg r)
abbrev storeReg (r : Reg) (n : Nat) : KProg Unit := act (.storeReg r n)
abbrev xhciIsSome : KProg Bool := act .xhciIsSome
abbrev getXhci : KProg XHCI := act .getXhci
abbrev sendCommand (parameter trbType slotId : Nat) : KProg Unit := act (.sendCommand parameter trbType slotId)
abbrev ep0EnqueueTrb (parameter : BitVec 64) (status control : BitVec 32) : KProg Unit :=
  act (.ep0EnqueueTrb parameter status control)
abbrev ringDoorbell (slot value : Nat) : KProg Unit := act (.ringDoorbell slot value)
abbrev boxNew (b : BoxContent) : KProg Nat := act (.boxNew b)
abbrev virtToPhys (virt : Nat) : KProg (Option Nat) := act (.virtToPhys virt)
abbrev readBytes (addr len : Nat) : KProg (List UInt8) := act (.readBytes addr len)

/-- A panic: the program does not go on. -/
def panic {α : Type} (message : String) : KProg α := .op (.panic message) Empty.elim

/-- `cli`, the lock of `XHCI_INSTANCE` for the body only, `sti`. -/
def withXhci (site : Site) (body : KProg Unit) : KProg Unit := do
  cli
  lock .xhci site
  body
  unlock .xhci
  sti

/-- The number of polls of a wait loop. -/
@[irreducible] def TIMEOUT : Nat := 10000000

/-- The wait loop: poll the flag until it is set, or give up after that many polls. -/
def waitFor (f : Flag) (w : Wait) : Nat → KProg Bool
  | 0 => do
    act (.expire w)
    pure false
  | n + 1 => do
    if ← loadFlag f then
      pure true
    else
      waitFor f w n

/-! ## Commands -/

/-- Clear `COMPLETION_PENDING`, send a command under the lock, wait for a completion. -/
def submit (site : Site) (prepare : KProg Unit) (parameter trbType slotId : Nat) : KProg Bool := do
  storeFlag .completionPending false
  withXhci site do
    prepare
    sendCommand parameter trbType slotId
  waitFor .completionPending .command TIMEOUT

/-- `enable_slot`. -/
def enableSlot : KProg (Except String Nat) := do
  if ← submit .enableSlot (pure ()) 0 TRB_TYPE_ENABLE_SLOT 0 then
    let code ← loadReg .completionCode
    let slot ← loadReg .completionSlot
    pure (if code = 1 then .ok slot else .error "Command completion code bukan Success")
  else
    pure (.error "Timeout")

/-- `disable_slot`. -/
def disableSlot (slotId : Nat) : KProg (Except String Unit) := do
  if ← submit .disableSlot (pure ()) 0 TRB_TYPE_DISABLE_SLOT slotId then
    let code ← loadReg .completionCode
    if code ≠ 1 then
      pure (.error "Disable Slot gagal, completion code bukan Success")
    else
      lock .xhci .disableSlotDcbaa
      let _ ← getXhci
      unlock .xhci
      act (.writeDcbaa slotId 0)
      pure (.ok ())
  else
    pure (.error "Timeout menunggu Disable Slot completion")

/-- The `match speed` of `address_device`. -/
def maxPacketSize (speed : Nat) : Nat :=
  match speed with
  | 4 => 512
  | 3 => 64
  | 2 => 8
  | _ => 8

/-- `tr_dequeue_lo` and `tr_dequeue_hi`, with DCS 1. -/
def dequeuePointer (ringPhys : Nat) : BitVec 32 × BitVec 32 :=
  ((BitVec.ofNat 32 ringPhys &&& ~~~0xF#32) ||| 1, BitVec.ofNat 32 (ringPhys / 2 ^ 32))

/-- The input context of `address_device`. -/
def addressInput (rootPort speed ep0RingPhys : Nat) : InputContext where
  addFlags := 3
  slotDword0 := (1#32 <<< 27) ||| (BitVec.ofNat 32 speed <<< 20)
  slotDword1 := BitVec.ofNat 32 rootPort <<< 16
  dci := 1
  endpoint :=
    { dword0 := 0
      dword1 := (4#32 <<< 3) ||| (3#32 <<< 1) ||| (BitVec.ofNat 32 (maxPacketSize speed) <<< 16)
      trDequeueLo := (dequeuePointer ep0RingPhys).1
      trDequeueHi := (dequeuePointer ep0RingPhys).2
      dword4 := 8 }

/-- `address_device`. -/
def addressDevice (slotId rootPort speed : Nat) : KProg (Except String Unit) := do
  let ep0RingVirt ← boxNew .transferRing
  match ← virtToPhys ep0RingVirt with
  | none => pure (.error "gagal translate ep0 ring")
  | some ep0RingPhys =>
    let devCtxVirt ← boxNew .deviceContext
    match ← virtToPhys devCtxVirt with
    | none => pure (.error "gagal translate device context")
    | some devCtxPhys =>
      lock .xhci .addressDeviceDcbaa
      let _ ← getXhci
      unlock .xhci
      act (.writeDcbaa slotId devCtxPhys)
      let inputCtxVirt ← boxNew (.inputContext (addressInput rootPort speed ep0RingPhys))
      match ← virtToPhys inputCtxVirt with
      | none => pure (.error "gagal translate input context")
      | some inputCtxPhys =>
        if ← submit .addressDevice (act (.setEp0Ring ep0RingVirt ep0RingPhys)) inputCtxPhys
            TRB_TYPE_ADDRESS_DEVICE slotId then
          let code ← loadReg .completionCode
          pure (if code = 1 then .ok () else .error "Address Device gagal, completion code bukan Success")
        else
          pure (.error "Timeout menunggu Address Device completion")

/-- `EndpointInfo`: the fields of an endpoint descriptor, and of the interface that it belongs to. -/
structure EndpointInfo where
  address : Nat
  attributes : Nat
  maxPacketSize : Nat
  interval : Nat
  interfaceNumber : Nat
  interfaceClass : Nat
  interfaceProtocol : Nat
  deriving DecidableEq, Repr

/-- `EndpointHandle`: what `configure_endpoint` returns of an endpoint. -/
structure EndpointHandle where
  ringVirt : Nat
  ringPhys : Nat
  dci : Nat

/-- The DCI that `configure_endpoint` computes. -/
def EndpointInfo.dci (ep : EndpointInfo) : Nat := ep.address % 16 * 2 + if ep.address / 128 % 2 = 1 then 1 else 0

/-- The input context of `configure_endpoint`. -/
def configureInput (rootPort : Nat) (ep : EndpointInfo) (epRingPhys : Nat) : InputContext where
  addFlags := 1 ||| (1#32 <<< ep.dci)
  slotDword0 := (BitVec.ofNat 32 ep.dci <<< 27) ||| (3#32 <<< 20)
  slotDword1 := BitVec.ofNat 32 rootPort <<< 16
  dci := ep.dci
  endpoint :=
    { dword0 := BitVec.ofNat 32 (ep.interval - 1) <<< 16
      dword1 := (7#32 <<< 3) ||| (3#32 <<< 1) ||| (BitVec.ofNat 32 ep.maxPacketSize <<< 16)
      trDequeueLo := (dequeuePointer epRingPhys).1
      trDequeueHi := (dequeuePointer epRingPhys).2
      dword4 := BitVec.ofNat 32 ep.maxPacketSize }

/-- `configure_endpoint`. With DCI 0 the index `dci - 1` of the endpoint contexts underflows. -/
def configureEndpoint (slotId rootPort : Nat) (ep : EndpointInfo) : KProg (Except String EndpointHandle) := do
  let epRingVirt ← boxNew .transferRing
  match ← virtToPhys epRingVirt with
  | none => pure (.error "gagal translate interrupt ep ring")
  | some epRingPhys =>
    act (.writeLinkTrb epRingVirt epRingPhys CONTROL_RING_SIZE)
    if ep.dci = 0 then
      panic "attempt to subtract with overflow"
    else
      let inputCtxVirt ← boxNew (.inputContext (configureInput rootPort ep epRingPhys))
      match ← virtToPhys inputCtxVirt with
      | none => pure (.error "gagal translate input context configure endpoint")
      | some inputCtxPhys =>
        if ← submit .configureEndpoint (pure ()) inputCtxPhys TRB_TYPE_CONFIGURE_ENDPOINT slotId then
          let code ← loadReg .completionCode
          pure (if code = 1 then .ok ⟨epRingVirt, epRingPhys, ep.dci⟩
            else .error "Configure Endpoint gagal, completion code bukan Succes")
        else
          pure (.error "Timeout menunggu Configure Endpoint completion")

/-! ## Control transfers -/

/-- The setup packet: bmRequestType, bRequest, wValue, wIndex and wLength in one word. -/
def setupParameter (bmRequestType bRequest wValue wIndex wLength : Nat) : BitVec 64 :=
  BitVec.ofNat 64 bmRequestType ||| (BitVec.ofNat 64 bRequest <<< 8) ||| (BitVec.ofNat 64 wValue <<< 16) |||
    (BitVec.ofNat 64 wIndex <<< 32) ||| (BitVec.ofNat 64 wLength <<< 48)

/-- The control words of the stages; only the Status Stage has IOC (bit 5). -/
def setupControl (trt : BitVec 32) : BitVec 32 := (2#32 <<< 10) ||| (1#32 <<< 6) ||| (trt <<< 16)

/-- The Data Stage, with the direction IN. -/
def dataControl : BitVec 32 := (3#32 <<< 10) ||| (1#32 <<< 16)

/-- The Status Stage. -/
def statusControl (dir : BitVec 32) : BitVec 32 := (4#32 <<< 10) ||| (1#32 <<< 5) ||| (dir <<< 16)

/-- Clear `TRANSFER_COMPLETION_PENDING`, queue the stages under the lock, wait for a completion. -/
def transfer (site : Site) (slotId : Nat) (stages : KProg Unit) : KProg Bool := do
  storeFlag .transferCompletionPending false
  withXhci site do
    stages
    ringDoorbell (slotId % 256) 1
  waitFor .transferCompletionPending .transfer TIMEOUT

/-- The three stages of a control transfer with an IN data stage. -/
def stagesIn (setup : BitVec 64) (bufPhys wLength : Nat) : KProg Unit := do
  ep0EnqueueTrb setup 8 (setupControl 3)
  ep0EnqueueTrb (BitVec.ofNat 64 bufPhys) (BitVec.ofNat 32 wLength &&& 0x1FFFF#32) dataControl
  ep0EnqueueTrb 0 0 (statusControl 0)

/-- `get_device_descriptor`: the 18 bytes of the descriptor. -/
def getDeviceDescriptor (slotId : Nat) : KProg (Except String (List UInt8)) := do
  let bufVirt ← boxNew (.bytes 18)
  match ← virtToPhys bufVirt with
  | none => pure (.error "gagal translate buffer descriptor")
  | some bufPhys =>
    if ← transfer .getDeviceDescriptor slotId (stagesIn (setupParameter 0x80 0x06 0x100 0 18) bufPhys 18) then
      let code ← loadReg .transferCompletionCode
      if code ≠ 1 ∧ code ≠ 13 then
        pure (.error "Get Device Descriptor gagal, completion code bukan Success")
      else
        let descriptor ← readBytes bufVirt 18
        pure (.ok descriptor)
    else
      pure (.error "Timeout menunggu Get Device Descriptor completion")

/-- `control_transfer_in`: the number of bytes received. -/
def controlTransferIn (slotId bmRequestType bRequest wValue wIndex bufPhys wLength : Nat) :
    KProg (Except String Nat) := do
  if ← transfer .controlTransferIn slotId
      (stagesIn (setupParameter bmRequestType bRequest wValue wIndex wLength) bufPhys wLength) then
    let code ← loadReg .transferCompletionCode
    let residual ← loadReg .transferCompletionLength
    pure (if code ≠ 1 ∧ code ≠ 13 then .error "Control transfer gagal, completion code bukan Success"
      else .ok (wLength - residual))
  else
    pure (.error "timeout menunggu control transfer completion")

/-- `control_transfer_no_data`. -/
def controlTransferNoData (slotId bmRequestType bRequest wValue wIndex : Nat) : KProg (Except String Unit) := do
  if ← transfer .controlTransferNoData slotId (do
      ep0EnqueueTrb (setupParameter bmRequestType bRequest wValue wIndex 0) 8 (setupControl 0)
      ep0EnqueueTrb 0 0 (statusControl 1)) then
    let code ← loadReg .transferCompletionCode
    pure (if code = 1 then .ok () else .error "Control Transfer (no data gagal, completion code bukan Success")
  else
    pure (.error "Timeout control transfer no data")

/-- The interface whose descriptor was read last: number, class and protocol. -/
structure CurrentInterface where
  number : Nat
  cls : Nat
  protocol : Nat

/-- The `while` loop over the configuration descriptor, from offset `i` on; `none` is a panic on an
index outside the buffer. -/
def parseDescriptors (buf : List UInt8) (i : Nat) (current : CurrentInterface) (found : List EndpointInfo) :
    Option (List EndpointInfo) :=
  if h : i + 2 ≤ buf.length then
    let byte (k : Nat) : Option Nat := buf[i + k]?.map UInt8.toNat
    let bLength := (buf.get ⟨i, by omega⟩).toNat
    let bDescriptorType := (buf.get ⟨i + 1, by omega⟩).toNat
    if hb : bLength = 0 ∨ i + bLength > buf.length then
      some found
    else if bDescriptorType = 4 then do
      let number ← byte 2
      let cls ← byte 5
      let protocol ← byte 7
      parseDescriptors buf (i + bLength) ⟨number, cls, protocol⟩ found
    else if bDescriptorType = 5 then do
      let address ← byte 2
      let attributes ← byte 3
      let lo ← byte 4
      let hi ← byte 5
      let interval ← byte 6
      let info : EndpointInfo :=
        ⟨address, attributes, lo + 256 * hi, interval, current.number, current.cls, current.protocol⟩
      parseDescriptors buf (i + bLength) current
        (if address / 128 % 2 = 1 ∧ attributes % 4 = 3 then found ++ [info] else found)
    else
      parseDescriptors buf (i + bLength) current found
  else
    some found
termination_by buf.length - i
decreasing_by
  all_goals
    have hb' : ¬ (buf[i].toNat = 0 ∨ i + buf[i].toNat > buf.length) := hb
    omega

/-- `get_configuration_descriptor_and_find_interrupt_endpoints`. -/
def getInterruptEndpoints (slotId : Nat) : KProg (Except String (List EndpointInfo)) := do
  let bufVirt ← boxNew (.bytes 256)
  match ← virtToPhys bufVirt with
  | none => pure (.error "gagal translate buffer config descriptor")
  | some bufPhys =>
    match ← controlTransferIn slotId 0x80 0x06 0x200 0 bufPhys 256 with
    | .error e => pure (.error e)
    | .ok actualLen =>
      let buf ← readBytes bufVirt actualLen
      match parseDescriptors buf 0 ⟨0, 0, 0⟩ [] with
      | none => panic "index out of bounds"
      | some found =>
        pure (if found.isEmpty then .error "Tidak ketemu Interrupt IN endpoint di Configuration Descriptor"
          else .ok found)

end Octagram.Usb

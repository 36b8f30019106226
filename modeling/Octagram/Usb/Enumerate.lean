/-
`usb/mod.rs`: enumeration of one device, the dispatch of its endpoints to the drivers, and the diff
of the registry against the ports. An index loop over the registry is a recursion with the entries
before the index and those from it on. An `init_one_device` that gives up leaves a mark, which no
variable of the program holds.
-/
import Octagram.Usb.Hid

namespace Octagram.Usb

open Octagram.Lib

/-! ## The operations of this file -/

abbrev getActive : KProg (List ActivePort) := act .getActive
abbrev maxPorts : KProg Nat := act .maxPorts
abbrev readPortsc (port : Nat) : KProg (BitVec 32) := act (.readPortsc port)

/-- `dispatch_endpoint`. -/
def dispatchEndpoint (slotId rootPort : Nat) (ep : EndpointInfo) : KProg (Option DeviceKind) := do
  if ep.interfaceClass ≠ 3 then
    pure none
  else
    match ← configureEndpoint slotId rootPort ep with
    | .error _ => pure none
    | .ok handle =>
      match ep.interfaceProtocol with
      | 1 =>
        initKeyboard slotId handle ep.interfaceNumber
        pure (some .keyboard)
      | 2 =>
        initMouse slotId handle ep.interfaceNumber
        pure (some .mouse)
      | _ => pure none

/-- The `for ep_info in endpoints` loop of `init_one_device`. -/
def dispatchAll (slotId rootPort : Nat) (hasKeyboard hasMouse : Bool) : List EndpointInfo → KProg ActivePort
  | [] => pure ⟨rootPort, slotId, hasKeyboard, hasMouse⟩
  | ep :: rest => do
    match ← dispatchEndpoint slotId rootPort ep with
    | some .keyboard => dispatchAll slotId rootPort true hasMouse rest
    | some .mouse => dispatchAll slotId rootPort hasKeyboard true rest
    | none => dispatchAll slotId rootPort hasKeyboard hasMouse rest

/-- `init_one_device` from `get_device_descriptor` on: the device is registered in any case. -/
def setupDevice (slotId rootPort : Nat) : KProg ActivePort := do
  match ← getDeviceDescriptor slotId with
  | .error _ => pure ⟨rootPort, slotId, false, false⟩
  | .ok _ =>
    match ← getInterruptEndpoints slotId with
    | .error _ => pure ⟨rootPort, slotId, false, false⟩
    | .ok endpoints =>
      -- SET_CONFIGURATION 1
      match ← controlTransferNoData slotId 0x00 0x09 1 0 with
      | .error _ => pure ⟨rootPort, slotId, false, false⟩
      | .ok _ => dispatchAll slotId rootPort false false endpoints

/-- `init_one_device`. -/
def initOneDevice (rootPort speed : Nat) : KProg (Option ActivePort) := do
  match ← enableSlot with
  | .error _ => pure none
  | .ok slotId =>
    match ← addressDevice slotId rootPort speed with
    | .error _ => pure none
    | .ok _ =>
      let entry ← setupDevice slotId rootPort
      pure (some entry)

/-- An `if` without an `else`. -/
def onlyIf (b : Bool) (p : KProg Unit) : KProg Unit := if b then p else pure ()

/-- `shutdown_device`. -/
def shutdownDevice (entry : ActivePort) : KProg Unit := do
  onlyIf entry.hasKeyboard (shutdownKeyboard entry.slotId)
  onlyIf entry.hasMouse (shutdownMouse entry.slotId)
  let _ ← disableSlot entry.slotId
  pure ()

/-- The scan of `discover_and_init_hid_devices` from port `port` on: the connected ports with their
speeds. -/
def scanPorts (port : Nat) : Nat → KProg (List (Nat × Nat))
  | 0 => pure []
  | n + 1 => do
    let portsc ← readPortsc port
    let rest ← scanPorts (port + 1) n
    pure (if portsc &&& 1 ≠ 0 then (port, ((portsc >>> 10) &&& 0xF#32).toNat) :: rest else rest)

/-- The port states that `discover_and_init_hid_devices` works on, read under the lock. -/
def portStates : KProg (List (Nat × Nat)) := do
  lock .xhci .discoverPorts
  let _ ← getXhci
  let maxPorts ← maxPorts
  let states ← scanPorts 0 maxPorts
  unlock .xhci
  pure states

/-- The DISCONNECT loop: `kept` are the entries before the index, the list those from it on. -/
def disconnectLoop (states : List (Nat × Nat)) (kept : List ActivePort) : List ActivePort → KProg Unit
  | [] => pure ()
  | entry :: rest =>
    if states.any fun st => st.1 + 1 == entry.rootPort then
      disconnectLoop states (kept ++ [entry]) rest
    else do
      act (.setActive (kept ++ rest))
      shutdownDevice entry
      disconnectLoop states kept rest

/-- The CONNECT loop. -/
def connectLoop : List (Nat × Nat) → KProg Unit
  | [] => pure ()
  | (port, speed) :: rest => do
    let active ← getActive
    if active.any fun e => e.rootPort == port + 1 then
      connectLoop rest
    else
      match ← initOneDevice (port + 1) speed with
      | some entry =>
        let active ← getActive
        act (.setActive (active ++ [entry]))
        connectLoop rest
      | none =>
        act .initFailed
        connectLoop rest

/-- `discover_and_init_hid_devices`. -/
def discoverAndInitHidDevices : KProg Unit := do
  let states ← portStates
  lock .activePorts .discoverRegistry
  let active ← getActive
  disconnectLoop states [] active
  connectLoop states
  unlock .activePorts

/-- `poll_hotplug`. -/
def pollHotplug : KProg Unit := do
  if ← swapFlag .portChangePending false then
    if ← xhciIsSome then
      discoverAndInitHidDevices
    else
      pure ()
  else
    pure ()

end Octagram.Usb

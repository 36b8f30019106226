/-
The machine the USB code runs on: the vector-44 handler may run to its end between any two steps of
the main context while interrupts are on, the controller answers what it was sent in any order and
at any time, and devices come and go.
-/
import Octagram.Usb.Hid

namespace Octagram.Usb

open Octagram.Lib

/-- The branch for vector 44 of `common_interrupt_handler`. -/
def interruptHandler : KProg Unit := do
  if ← xhciIsSome then
    lock .xhci .interruptHandler
    act .pollEventRing
    unlock .xhci
    pollKeyboard
    pollMouse
  else
    pollKeyboard
    pollMouse

/-- Run a program with nothing in between; `none` where it never ends. -/
def runToEnd {α : Type} : KProg α → Kernel → Option (α × Kernel)
  | .ret a, s => some (a, s)
  | .op o k, s =>
    match s.exec o with
    | none => none
    | some (r, s') => runToEnd (k r) s'

/-- What is assumed of the surroundings: the answers the controller gives to commands, the
ports whose connection changes, and the operations that runs take. -/
structure Rules where
  answer : Kernel → Command → Trb → Prop
  change : Kernel → Nat → Prop
  allowed : Op → Kernel → Prop

/-- No assumption. -/
def Rules.any : Rules := ⟨fun _ _ _ => True, fun _ _ => True, fun _ _ => True⟩

/-- The enabled slots once a command was answered. -/
def Command.enables (c : Command) (t : Trb) (enabled : Nat → Bool) : Nat → Bool :=
  if t.completionCode = 1 ∧ c.trbType = TRB_TYPE_ENABLE_SLOT then Function.update enabled t.slotId true
  else if t.completionCode = 1 ∧ c.trbType = TRB_TYPE_DISABLE_SLOT then Function.update enabled c.slot false
  else enabled

/-- The owners of the transfer rings once a command was answered. -/
def Command.assigns (c : Command) (t : Trb) (endpoint : Nat → Nat × Nat) : Nat → Nat × Nat :=
  if t.completionCode = 1 ∧ (c.trbType = TRB_TYPE_ADDRESS_DEVICE ∨ c.trbType = TRB_TYPE_CONFIGURE_ENDPOINT) then
    Function.update endpoint c.input.ring (c.slot, c.input.dci)
  else
    endpoint

namespace Controller

/-- The controller processed a command and posts its completion. -/
def answer (hw : Controller) (id : Nat) (c : Command) (t : Trb) : Controller :=
  { hw with
    unanswered := hw.unanswered.filter (· ≠ id)
    events := hw.events ++ [⟨t, .command id⟩]
    enabled := c.enables t hw.enabled
    endpoint := c.assigns t hw.endpoint }

/-- The controller completed a transfer and posts its event. -/
def complete (hw : Controller) (id : Nat) (t : Trb) : Controller :=
  { hw with
    incomplete := hw.incomplete.filter (· ≠ id)
    events := hw.events ++ [⟨t, .transfer id⟩] }

/-- The connection of a port changed: CSC is set, and a Port Status Change Event is posted if it
was clear. -/
def portChange (hw : Controller) (p : Nat) (port : Port) (t : Trb) : Controller :=
  { hw with
    clock := hw.clock + 1
    port := Function.update hw.port p port
    events := if (hw.port p).csc then hw.events else hw.events ++ [⟨t, .port p⟩] }

end Controller

/-- A step of the surroundings of the main context. -/
inductive Env (R : Rules) : Kernel → Kernel → Prop
  | interrupt {s s' : Kernel} (hi : s.ints = true) (h : runToEnd interruptHandler s = some ((), s')) : Env R s s'
  | answer {s : Kernel} {id : Nat} {c : Command} (t : Trb) (ht : t.trbType = 33) (hid : id ∈ s.hw.unanswered)
      (hc : s.hw.commands[id]? = some c)
      (hslot : c.trbType = TRB_TYPE_ENABLE_SLOT → t.completionCode = 1 → t.slotId ≠ 0 ∧ s.hw.enabled t.slotId = false)
      (hr : R.answer s c t) : Env R s { s with hw := s.hw.answer id c t }
  | complete {s : Kernel} {id ring : Nat} (t : Trb) (ht : t.trbType = 32) (hid : id ∈ s.hw.incomplete)
      (hring : s.hw.transfers[id]? = some ring) (hep : (t.slotId, t.endpointId) = s.hw.endpoint ring) :
      Env R s { s with hw := s.hw.complete id t }
  | connect {s : Kernel} {p : Nat} (speed : BitVec 4) (t : Trb) (ht : t.trbType = 34) (hp : p < s.hw.maxPorts)
      (hccs : (s.hw.port p).ccs = false) (hr : R.change s p) :
      Env R s { s with hw := s.hw.portChange p ⟨true, true, speed, s.hw.clock + 1⟩ t }
  | disconnect {s : Kernel} {p : Nat} (t : Trb) (ht : t.trbType = 34) (hp : p < s.hw.maxPorts)
      (hccs : (s.hw.port p).ccs = true) (hr : R.change s p) :
      Env R s { s with hw := s.hw.portChange p { s.hw.port p with ccs := false, csc := true } t }
  | dma {s : Kernel} (ram : Ram) : Env R s { s with ram := ram }

/-- A step of the controller or of a device: one that `Env` has with interrupts off, too. -/
def DeviceStep (s s' : Kernel) : Prop :=
  s'.ints = s.ints ∧ Env Rules.any { s with ints := false } { s' with ints := false }

/-- The machine of the main context. -/
def machine (R : Rules) : Machine Op Ret Kernel where
  exec o s := s.exec o
  env := Env R
  allowed := R.allowed

end Octagram.Usb

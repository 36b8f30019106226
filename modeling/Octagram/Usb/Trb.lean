/-
Transfer Request Blocks, the atomics `poll_event_ring` fills in, and what it does with one event: a
Transfer Event goes to the driver whose endpoint it is of, the keyboard's first, or else fills the
triple of the control transfers (`dispatch`).
-/
import Mathlib.Data.BitVec
import Mathlib.Logic.Function.Basic
import Mathlib.Tactic.Common

namespace Octagram.Usb

/-- `Trb`: four dwords, the first two of them one parameter. -/
structure Trb where
  parameter : BitVec 64
  status : BitVec 32
  control : BitVec 32
  deriving DecidableEq, Repr

namespace Trb

/-- The zeroed TRB. -/
def empty : Trb := ⟨0, 0, 0⟩

/-- `(trb.control & 0x1) != 0`. -/
def cycleBit (t : Trb) : Bool := t.control.getLsbD 0

/-- `(trb.control >> 10) & 0x3F`. -/
def trbType (t : Trb) : Nat := ((t.control >>> 10) &&& 0x3F#32).toNat

/-- `(trb.control >> 24) & 0xFF`. -/
def slotId (t : Trb) : Nat := ((t.control >>> 24) &&& 0xFF#32).toNat

/-- `(trb.control >> 16) & 0x1F`. -/
def endpointId (t : Trb) : Nat := ((t.control >>> 16) &&& 0x1F#32).toNat

/-- `(trb.status >> 24) & 0xFF`. -/
def completionCode (t : Trb) : Nat := ((t.status >>> 24) &&& 0xFF#32).toNat

/-- `trb.status & 0xFF_FFFF`. -/
def residualLength (t : Trb) : Nat := (t.status &&& 0xFFFFFF#32).toNat

end Trb

/-- The `AtomicBool` statics. -/
inductive Flag
  | completionPending | transferCompletionPending | portChangePending | kbdReportPending | mouseReportPending
  deriving DecidableEq, Repr

/-- The `AtomicU32` statics. -/
inductive Reg
  | completionCode | completionSlot | transferCompletionCode | transferCompletionLength
  | kbdDci | kbdSlotId | kbdReportLen | mouseDci | mouseSlotId | mouseReportLen
  deriving DecidableEq, Repr

/-- The values of the atomics. -/
structure Globals where
  flag : Flag → Bool
  reg : Reg → Nat

namespace Globals

/-- All `false` and 0, as the statics are declared. -/
def new : Globals := ⟨fun _ => false, fun _ => 0⟩

/-- A store to a flag. -/
def storeFlag (g : Globals) (f : Flag) (b : Bool) : Globals := { g with flag := Function.update g.flag f b }

/-- A store to a number. -/
def storeReg (g : Globals) (r : Reg) (n : Nat) : Globals := { g with reg := Function.update g.reg r n }

/-- The endpoint is the keyboard's current pair of slot and DCI. -/
def KbdRoute (g : Globals) (slot dci : Nat) : Prop :=
  g.reg .kbdDci ≠ 0 ∧ slot = g.reg .kbdSlotId ∧ dci = g.reg .kbdDci

/-- The endpoint is the mouse's current pair of slot and DCI. -/
def MouseRoute (g : Globals) (slot dci : Nat) : Prop :=
  g.reg .mouseDci ≠ 0 ∧ slot = g.reg .mouseSlotId ∧ dci = g.reg .mouseDci

instance (g : Globals) (slot dci : Nat) : Decidable (g.KbdRoute slot dci) := inferInstanceAs (Decidable (_ ∧ _ ∧ _))

instance (g : Globals) (slot dci : Nat) : Decidable (g.MouseRoute slot dci) := inferInstanceAs (Decidable (_ ∧ _ ∧ _))

/-- The `match trb_type` of `poll_event_ring`: what one event does to the atomics. -/
def dispatch (g : Globals) (trb : Trb) : Globals :=
  match trb.trbType with
  | 34 => g.storeFlag .portChangePending true
  | 33 =>
    ((g.storeReg .completionCode trb.completionCode).storeReg .completionSlot trb.slotId).storeFlag
      .completionPending true
  | 32 =>
    if g.KbdRoute trb.slotId trb.endpointId then
      (g.storeReg .kbdReportLen trb.residualLength).storeFlag .kbdReportPending true
    else if g.MouseRoute trb.slotId trb.endpointId then
      (g.storeReg .mouseReportLen trb.residualLength).storeFlag .mouseReportPending true
    else
      ((g.storeReg .transferCompletionCode trb.completionCode).storeReg .transferCompletionLength
        trb.residualLength).storeFlag .transferCompletionPending true
  | _ => g

end Globals

end Octagram.Usb

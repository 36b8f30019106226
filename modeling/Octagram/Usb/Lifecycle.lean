/-
`init_*` and `shutdown_*` stage by stage, for any machine that runs these operations, and the calls
of the main context as compositions of the two with operations that do not touch a driver. An
assertion that is steady between the stages is carried from each to the next (`initDriver_spec`,
`shutdownDriver_spec`); a property that sequencing keeps then holds of every call (`Composed.prog`).
`Buffers`, `Routing` and `Atomic` use it for theirs.
-/
import Octagram.Usb.Setup

namespace Octagram.Usb

open Octagram.Lib

/-! ## Stages -/

/-- The operations of `init_*` and `shutdown_*` between their stages. -/
def Op.minor : Op → Bool
  | .lock l _ | .unlock l => l ≠ .activePorts
  | .getXhci | .getDriver _ => true
  | o => o.transfer

theorem minor_of_transfer {o : Op} (h : o.transfer = true) : o.minor = true := by
  cases o
  case lock l site => cases l <;> first | rfl | cases h
  case unlock l => cases l <;> first | rfl | cases h
  all_goals first | rfl | exact h

theorem minor_lock (k : DeviceKind) (site : Site) : (Op.lock k.lock site).minor = true := by cases k <;> rfl

theorem minor_unlock (k : DeviceKind) : (Op.unlock k.lock).minor = true := by cases k <;> rfl

section Stages

variable {σ : Type} {M : Machine Op Ret σ} {J : σ → Prop}

/-- An assertion for the time between two stages; `J` is to hold at every step. -/
structure Steady (M : Machine Op Ret σ) (J P : σ → Prop) : Prop where
  framed : M.Framed (fun o => o.minor = true) P
  safe : ∀ s, P s → J s

variable {α : Type} {P : σ → Prop} {Q : α → σ → Prop}

/-- An operation that is a stage. -/
theorem Steady.stage (h : Steady M J P) {o : Op} {f : Ret o → KProg α} (R : Ret o → σ → Prop)
    (hr : ∀ s r s', P s → M.allowed o s → M.exec o s = some (r, s') → R r s') (hf : ∀ r, M.Spec (R r) (f r) Q J) :
    M.Spec P (act o >>= f) Q J :=
  Machine.spec_op h.framed.stable h.safe R hr hf

theorem Steady.act (h : Steady M J P) {o : Op} {f : Ret o → KProg α} (ho : o.minor = true)
    (hf : ∀ r, M.Spec P (f r) Q J) : M.Spec P (act o >>= f) Q J :=
  h.stage (fun _ => P) (fun s r s' hs ha he => h.framed.frame o s r s' ho ha he hs) hf

theorem Steady.ret (h : Steady M J P) (a : α) : M.Spec P (.ret a) (fun _ => P) J :=
  Machine.spec_ret h.framed.stable h.safe fun _ hs => hs

theorem Steady.last (h : Steady M J P) {o : Op} (ho : o.minor = true) : M.Spec P (Prog.call o) (fun _ => P) J :=
  h.act ho fun r => h.ret r

end Stages

section Drivers

variable {σ : Type} {M : Machine Op Ret σ} {J : σ → Prop} {k : DeviceKind}

/-- `arm_next_report`: before and after the TRB is put on the ring. -/
theorem armNextReport_spec {P Q : σ → Prop} (hP : Steady M J P) (hQ : Steady M J Q)
    (hnone : ∀ s s', P s → M.exec (.getDriver k) s = some (none, s') → Q s')
    (henqueue : ∀ s r s', P s → M.allowed (.enqueueReport k) s → M.exec (.enqueueReport k) s = some (r, s') → Q s') :
    M.Spec P (armNextReport k) (fun _ => Q) J := by
  refine hP.act (minor_lock k _) fun _ => ?_
  refine hP.stage (fun d => match d with | none => Q | some _ => P) (fun s d s' hs ha he => ?_) fun d => ?_
  · cases d with
    | none => exact hnone s s' hs he
    | some st => exact hP.framed.frame _ s _ s' rfl ha he hs
  · cases d with
    | none => exact hQ.last (minor_unlock k)
    | some st =>
      refine hP.act rfl fun _ => hP.act rfl fun _ => hP.stage (fun _ => Q) henqueue fun _ => ?_
      exact hQ.act rfl fun _ => hQ.last (minor_unlock k)

/-- `init_keyboard` and `init_mouse`: before the buffer is allocated, before `*_DCI` is set, before
`*_SLOT_ID` is set, before and after the state is stored. -/
theorem initDriver_spec {message : String} {slotId interfaceNumber : Nat} {ep : EndpointHandle} {P N : σ → Prop}
    {A B C : Nat → σ → Prop} {Q : Unit → σ → Prop}
    (hP : Steady M J P) (hA : ∀ virt, Steady M J (A virt)) (hB : ∀ virt, Steady M J (B virt))
    (hC : ∀ virt, Steady M J (C virt)) (hN : Steady M J N)
    (hbox : ∀ s virt s', P s → M.allowed (.boxNew (.bytes 8)) s → M.exec (.boxNew (.bytes 8)) s = some (virt, s') →
      A virt s') (hdci : ∀ virt s r s', A virt s → M.allowed (.storeReg k.dciReg ep.dci) s →
      M.exec (.storeReg k.dciReg ep.dci) s = some (r, s') → B virt s')
    (hslot : ∀ virt s r s', B virt s → M.allowed (.storeReg k.slotReg slotId) s →
      M.exec (.storeReg k.slotReg slotId) s = some (r, s') → C virt s')
    (hnew : ∀ virt phys s r s', C virt s →
      M.allowed (.newDriver k ⟨slotId, ep.ringVirt, ep.ringPhys, 0, true, ep.dci, virt, phys⟩) s →
      M.exec (.newDriver k ⟨slotId, ep.ringVirt, ep.ringPhys, 0, true, ep.dci, virt, phys⟩) s = some (r, s') → N s')
    (harm : M.Spec N (armNextReport k) Q J) : M.Spec P (initDriver k message slotId ep interfaceNumber) Q J := by
  refine Machine.spec_bind
    (hP.framed.spec ((controlTransferNoData_ops _ _ _ _ _).mono fun _ => minor_of_transfer) hP.safe)
    fun _ => ?_
  refine hP.stage A hbox fun virt => (hA virt).act rfl fun phys => ?_
  cases phys with
  | none =>
    refine Machine.spec_op (hA virt).framed.stable (hA virt).safe (fun _ _ => False) (fun s r => r.elim) fun r => ?_
    exact r.elim
  | some phys =>
    refine (hA virt).stage (fun _ => B virt) (hdci virt) fun _ =>
      (hB virt).stage (fun _ => C virt) (hslot virt) fun _ => ?_
    refine (hC virt).act (minor_lock k _) fun _ => (hC virt).stage (fun _ => N) (hnew virt phys) fun _ => ?_
    exact hN.act (minor_unlock k) fun _ => harm

/-- `shutdown_keyboard` and `shutdown_mouse`: once the state is known to be on the slot, once it is dropped,
once the buffer is freed, once `*_DCI` and `*_SLOT_ID` are 0. -/
theorem shutdownDriver_spec {slotId : Nat} {P D S Q : σ → Prop} {O A B : DriverState → σ → Prop}
    (hP : Steady M J P) (hO : ∀ st, Steady M J (O st)) (hA : ∀ st, Steady M J (A st)) (hB : ∀ st, Steady M J (B st))
    (hD : Steady M J D) (hS : Steady M J S) (hQ : Steady M J Q)
    (hnone : ∀ s s', P s → M.exec (.getDriver k) s = some (none, s') → Q s')
    (hother : ∀ st s s', P s → M.exec (.getDriver k) s = some (some st, s') → st.slotId ≠ slotId → Q s')
    (hown : ∀ st s s', P s → M.exec (.getDriver k) s = some (some st, s') → st.slotId = slotId → O st s')
    (hdrop : ∀ st s r s', O st s → M.allowed (.dropDriver k) s → M.exec (.dropDriver k) s = some (r, s') → A st s')
    (hfree : ∀ st s r s', A st s → M.allowed (.boxFree st.reportBufVirt) s →
      M.exec (.boxFree st.reportBufVirt) s = some (r, s') → B st s')
    (hdci : ∀ st s r s', B st s → M.allowed (.storeReg k.dciReg 0) s →
      M.exec (.storeReg k.dciReg 0) s = some (r, s') → D s')
    (hslot : ∀ s r s', D s → M.allowed (.storeReg k.slotReg 0) s → M.exec (.storeReg k.slotReg 0) s = some (r, s') →
      S s') (hflag : ∀ s r s', S s → M.allowed (.storeFlag k.pending false) s →
      M.exec (.storeFlag k.pending false) s = some (r, s') → Q s') :
    M.Spec P (shutdownDriver k slotId) (fun _ => Q) J := by
  refine hP.act (minor_lock k _) fun _ => ?_
  -- the function ends at once without a state, or with one on another slot
  refine hP.stage (fun d => match d with
    | none => Q
    | some st => if st.slotId ≠ slotId then Q else O st) (fun s d s' hs _ he => ?_) fun d => ?_
  · cases d with
    | none => exact hnone s s' hs he
    | some st =>
      show (if st.slotId ≠ slotId then Q else O st) s'
      split
      · rename_i hne
        exact hother st s s' hs he hne
      · rename_i heq
        exact hown st s s' hs he (not_not.1 heq)
  · cases d with
    | none => exact hQ.last (minor_unlock k)
    | some st =>
      refine (?_ : M.Spec (if st.slotId ≠ slotId then Q else O st) (if st.slotId ≠ slotId then
        unlock k.lock else _) _ J)
      split
      · exact hQ.last (minor_unlock k)
      · refine (hO st).stage (fun _ => A st) (hdrop st) fun _ => (hA st).stage (fun _ => B st) (hfree st) fun _ => ?_
        refine (hB st).stage (fun _ => D) (hdci st) fun _ => hD.stage (fun _ => S) hslot fun _ => ?_
        exact hS.stage (fun _ => Q) hflag fun _ => hQ.last (minor_unlock k)

end Drivers

/-! ## Composition -/

/-- The operations of the main context outside of `init_*` and `shutdown_*`. -/
def Op.beside : Op → Bool
  | .setActive _ | .getActive | .initFailed | .maxPorts | .readPortsc _ | .xhciIsSome => true
  | .lock .activePorts _ | .unlock .activePorts | .swapFlag .portChangePending _ => true
  | o => o.transfer || o.slotting

theorem beside_of_transfer {o : Op} (h : o.transfer = true) : o.beside = true := by
  cases o
  case lock l site => cases l <;> first | rfl | exact Bool.or_inl h
  case unlock l => cases l <;> first | rfl | exact Bool.or_inl h
  case swapFlag f b => cases h
  all_goals first | rfl | exact Bool.or_inl h

theorem beside_of_slotting {o : Op} (h : o.slotting = true) : o.beside = true := by
  cases o
  case lock l site => cases l <;> first | rfl | cases h
  case unlock l => cases l <;> first | rfl | cases h
  case swapFlag f b => cases h
  case boxNew b => cases b <;> rfl
  case expire w => cases w <;> rfl
  case loadReg => exact Bool.or_true _
  all_goals first | rfl | cases h | exact Bool.or_inr h

theorem beside_of_command {o : Op} (h : o.command = true) : o.beside = true :=
  beside_of_slotting (slotting_of_command h)

/-- A property of programs that `init_*`, `shutdown_*` and what runs beside them have, and that sequencing keeps. -/
structure Composed (G : {α : Type} → KProg α → Prop) : Prop where
  beside : ∀ {α : Type} {p : KProg α}, (p.All fun o => o.beside = true) → G p
  bind : ∀ {α β : Type} {p : KProg α} {f : α → KProg β}, G p → (∀ a, G (f a)) → G (p >>= f)
  init : ∀ k message slotId ep interfaceNumber, G (initDriver k message slotId ep interfaceNumber)
  shutdown : ∀ k slotId, G (shutdownDriver k slotId)

namespace Composed

variable {G : {α : Type} → KProg α → Prop} (h : Composed G)
include h

theorem ret {α : Type} (a : α) : G (.ret a : KProg α) := h.beside trivial

theorem dispatchEndpoint (slotId rootPort : Nat) (ep : EndpointInfo) : G (dispatchEndpoint slotId rootPort ep) := by
  unfold Usb.dispatchEndpoint
  split
  · exact h.ret _
  · refine h.bind (h.beside ((configureEndpoint_ops slotId rootPort ep).mono fun _ => beside_of_command)) fun r => ?_
    split
    · exact h.ret _
    · split
      · exact h.bind (h.init .keyboard _ _ _ _) fun _ => h.ret _
      · exact h.bind (h.init .mouse _ _ _ _) fun _ => h.ret _
      · exact h.ret _

theorem dispatchAll (slotId rootPort : Nat) (hasKeyboard hasMouse : Bool) (eps : List EndpointInfo) :
    G (dispatchAll slotId rootPort hasKeyboard hasMouse eps) := by
  induction eps generalizing hasKeyboard hasMouse with
  | nil => exact h.ret _
  | cons ep rest ih =>
    refine h.bind (h.dispatchEndpoint slotId rootPort ep) fun kind => ?_
    split <;> exact ih _ _

theorem setupDevice (slotId rootPort : Nat) : G (setupDevice slotId rootPort) := by
  refine h.bind (h.beside ((getDeviceDescriptor_ops slotId).mono fun _ => beside_of_transfer)) fun r => ?_
  split
  · exact h.ret _
  · refine h.bind (h.beside ((getInterruptEndpoints_ops slotId).mono fun _ => beside_of_transfer)) fun r => ?_
    split
    · exact h.ret _
    · refine h.bind (h.beside ((controlTransferNoData_ops _ _ _ _ _).mono fun _ => beside_of_transfer)) fun r => ?_
      split
      · exact h.ret _
      · exact h.dispatchAll _ _ _ _ _

theorem initOneDevice (rootPort speed : Nat) : G (initOneDevice rootPort speed) := by
  refine h.bind (h.beside (enableSlot_ops.mono fun _ => beside_of_command)) fun r => ?_
  split
  · exact h.ret _
  · refine h.bind (h.beside ((addressDevice_ops _ rootPort speed).mono fun _ => beside_of_slotting)) fun r => ?_
    split
    · exact h.ret _
    · exact h.bind (h.setupDevice _ rootPort) fun _ => h.ret _

theorem onlyIf (b : Bool) {p : KProg Unit} (hp : G p) : G (onlyIf b p) := by
  cases b with
  | true => exact hp
  | false => exact h.ret ()

theorem shutdownDevice (entry : ActivePort) : G (shutdownDevice entry) :=
  h.bind (h.onlyIf _ (h.shutdown .keyboard _)) fun _ => h.bind (h.onlyIf _ (h.shutdown .mouse _)) fun _ =>
    h.bind (h.beside ((disableSlot_ops _).mono fun _ => beside_of_slotting)) fun _ => h.ret ()

/-- An operation that runs beside the drivers. -/
theorem act {α : Type} {o : Op} {f : Ret o → KProg α} (ho : o.beside = true) (hf : ∀ r, G (f r)) : G (act o >>= f) :=
  h.bind (h.beside (all_act ho fun _ => trivial)) hf

theorem disconnectLoop (states : List (Nat × Nat)) (kept rest : List ActivePort) :
    G (disconnectLoop states kept rest) := by
  induction rest generalizing kept with
  | nil => exact h.ret ()
  | cons entry rest ih =>
    unfold Usb.disconnectLoop
    split
    · exact ih _
    · exact h.act rfl fun _ => h.bind (h.shutdownDevice entry) fun _ => ih _

theorem connectLoop (todo : List (Nat × Nat)) : G (connectLoop todo) := by
  induction todo with
  | nil => exact h.ret ()
  | cons st rest ih =>
    refine h.act rfl fun active => ?_
    split
    · exact ih
    · refine h.bind (h.initOneDevice _ _) fun r => ?_
      cases r with
      | none => exact h.act rfl fun _ => ih
      | some entry => exact h.act rfl fun _ => h.act rfl fun _ => ih

theorem discoverAndInitHidDevices : G discoverAndInitHidDevices := by
  have hstates : portStates.All fun o => o.beside = true := portStates_all rfl rfl rfl (fun _ => rfl) rfl
  exact h.bind (h.beside hstates) fun states => h.act rfl fun _ => h.act rfl fun active =>
    h.bind (h.disconnectLoop states [] active) fun _ => h.bind (h.connectLoop states) fun _ =>
      h.act rfl fun _ => h.ret ()

theorem pollHotplug : G pollHotplug := by
  refine h.act rfl fun b => ?_
  split
  · refine h.act rfl fun b => ?_
    split
    · exact h.discoverAndInitHidDevices
    · exact h.ret ()
  · exact h.ret ()

/-- Every call of the main context. -/
theorem prog (i : MainCall) : G i.prog := by
  cases i with
  | enableSlot => exact h.beside (enableSlot_ops.mono fun _ => beside_of_command)
  | disableSlot slotId => exact h.beside ((disableSlot_ops slotId).mono fun _ => beside_of_slotting)
  | addressDevice slotId rootPort speed =>
    exact h.beside ((addressDevice_ops slotId rootPort speed).mono fun _ => beside_of_slotting)
  | configureEndpoint slotId rootPort ep =>
    exact h.beside ((configureEndpoint_ops slotId rootPort ep).mono fun _ => beside_of_command)
  | getDeviceDescriptor slotId => exact h.beside ((getDeviceDescriptor_ops slotId).mono fun _ => beside_of_transfer)
  | controlTransferIn => exact h.beside ((controlTransferIn_ops _ _ _ _ _ _ _).mono fun _ => beside_of_transfer)
  | controlTransferNoData => exact h.beside ((controlTransferNoData_ops _ _ _ _ _).mono fun _ => beside_of_transfer)
  | getInterruptEndpoints slotId => exact h.beside ((getInterruptEndpoints_ops slotId).mono fun _ => beside_of_transfer)
  | initKeyboard slotId ep interfaceNumber => exact h.init .keyboard _ slotId ep interfaceNumber
  | initMouse slotId ep interfaceNumber => exact h.init .mouse _ slotId ep interfaceNumber
  | shutdownKeyboard slotId => exact h.shutdown .keyboard slotId
  | shutdownMouse slotId => exact h.shutdown .mouse slotId
  | initOneDevice rootPort speed => exact h.initOneDevice rootPort speed
  | shutdownDevice entry => exact h.shutdownDevice entry
  | discoverAndInitHidDevices => exact h.discoverAndInitHidDevices
  | pollHotplug => exact h.pollHotplug

end Composed

end Octagram.Usb

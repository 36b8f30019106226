/-
The handler of vector 44 as one step: the machine on which the controller and the devices also act
while it runs comes to the same states, whenever it does not run, as the one on which it runs at
once (`piecewise_during_iff`). It is a reduction (`Lib.Reduction`): what the handler does up to the
event it takes can be done after what the controller does meanwhile, and what it does with a report
can be done before it (`Early`, `Late`). Only one driver has a report to handle, as the handler
takes one event and leaves no report waiting (`Still`).
-/
import Octagram.Lib.Reduction
import Octagram.Usb.BringUp
import Octagram.Usb.Routing
import Octagram.Usb.Reports

namespace Octagram.Usb

open Octagram.Lib

/-- The machine of the main context with the handler operation by operation. -/
def piecewise : Machine Op Ret (Machine.Pieces Op Ret Kernel) :=
  Machine.pieces (fun o s => s.exec o) DeviceStep interruptHandler fun s => s.ints = true

theorem eval_eq_runToEnd {α : Type} (p : KProg α) (s : Kernel) : p.eval (fun o s => s.exec o) s = runToEnd p s := by
  induction p generalizing s with
  | ret a => rfl
  | op o k ih =>
    rw [Prog.eval, runToEnd_op]
    cases s.exec o with
    | none => rfl
    | some r => exact ih r.1 r.2

/-- The machine on which it runs at once is the one of the sessions. -/
theorem whole_eq : Machine.whole (fun o s => s.exec o) DeviceStep interruptHandler (fun s => s.ints = true) =
    machine Rules.any := by
  have henv : ∀ s s', (DeviceStep s s' ∨ s.ints = true ∧
    interruptHandler.eval (fun o s => s.exec o) s = some ((), s')) ↔
      Env Rules.any s s' := by
    intro s s'
    rw [eval_eq_runToEnd]
    constructor
    · rintro (h | ⟨hi, h⟩)
      · exact (deviceStep_env h).1
      · exact .interrupt hi h
    · intro h
      cases h with
      | interrupt hi h => exact .inr ⟨hi, h⟩
      | answer t ht hid hc hslot hr => exact .inl ⟨rfl, .answer t ht hid hc hslot hr⟩
      | complete t ht hid hring hep => exact .inl ⟨rfl, .complete t ht hid hring hep⟩
      | connect speed t ht hp hccs hr => exact .inl ⟨rfl, .connect speed t ht hp hccs hr⟩
      | disconnect t ht hp hccs hr => exact .inl ⟨rfl, .disconnect t ht hp hccs hr⟩
      | dma ram => exact .inl ⟨rfl, .dma ram⟩
  unfold Machine.whole machine
  simp only [henv]
  rfl

/-! ## What the controller and the devices see -/

section Steps

variable {s s' t t' : Kernel} {o : Op} {r : Ret o}

/-- A state with another controller and other memory. -/
def Kernel.onDevice (s : Kernel) (hw : Controller) (ram : Ram) : Kernel := { s with hw := hw, ram := ram }

/-- What the controller and the devices can do, whatever the rest of the state is. -/
def Acts (hw : Controller) (ram : Ram) (hw' : Controller) (ram' : Ram) : Prop :=
  ∀ u : Kernel, DeviceStep (u.onDevice hw ram) (u.onDevice hw' ram')

theorem acts_step {hw hw' : Controller} {ram ram' : Ram} (h : DeviceStep (s.onDevice hw ram) (s.onDevice hw' ram')) :
    Acts hw ram hw' ram' := by
  obtain ⟨-, h⟩ := h
  intro u
  refine ⟨rfl, ?_⟩
  simp only [Kernel.onDevice] at h ⊢
  cases h with
  | interrupt hi h => cases hi
  | answer t ht hid hc hslot hr => exact .answer t ht hid hc hslot trivial
  | complete t ht hid hring hep => exact .complete t ht hid hring hep
  | connect speed t ht hp hccs hr => exact .connect speed t ht hp hccs trivial
  | disconnect t ht hp hccs hr => exact .disconnect t ht hp hccs trivial
  | dma => exact .dma ram'

theorem deviceStep_acts (h : DeviceStep s t) : t = s.onDevice t.hw t.ram ∧ Acts s.hw s.ram t.hw t.ram := by
  have ht : t = s.onDevice t.hw t.ram := (deviceStep_env h).2
  refine ⟨ht, acts_step (s := s) ?_⟩
  rw [← ht]
  exact h

/-! ## What can be done before or after such a step -/

/-- The operations of the handler that neither the controller nor a device sees. -/
def Op.solitary : Op → Bool
  | .lock _ _ | .unlock _ | .swapFlag _ _ | .xhciIsSome | .getXhci | .getDriver _ | .getKbd | .getMouse => true
  | .setLastKeycodes _ | .setMousePos _ _ _ | .print _ | .panic _ => true
  | _ => false

theorem exec_aside (ho : o.solitary = true) (h : s.exec o = some (r, s')) :
    s'.hw = s.hw ∧ s'.ram = s.ram ∧ ∀ hw ram, (s.onDevice hw ram).exec o = some (r, s'.onDevice hw ram) := by
  cases o
  all_goals cases ho
  case panic => cases h
  case lock l site =>
    simp only [Kernel.exec] at h
    split at h
    · cases h
    · rename_i hl
      cases h
      exact ⟨rfl, rfl, fun hw ram => if_neg hl⟩
  case getXhci =>
    obtain ⟨_, hx, he⟩ := Option.map_eq_some_iff.1 h
    cases he
    exact ⟨rfl, rfl, fun hw ram => Option.map_eq_some_iff.2 ⟨_, hx, rfl⟩⟩
  case getDriver k =>
    cases h
    refine ⟨rfl, rfl, fun hw ram => ?_⟩
    cases k <;> rfl
  all_goals
    cases h
    exact ⟨rfl, rfl, fun hw ram => rfl⟩

theorem aside_late (ho : o.solitary = true) (h : DeviceStep s t) (he : t.exec o = some (r, t')) :
    ∃ s', s.exec o = some (r, s') ∧ DeviceStep s' t' := by
  obtain ⟨ht, ha⟩ := deviceStep_acts h
  obtain ⟨hhw, hram, hex⟩ := exec_aside ho he
  have hs : s = t.onDevice s.hw s.ram := by
    rw [ht]
    rfl
  have ht' : t' = t'.onDevice t.hw t.ram := by
    rw [← hhw, ← hram]
    rfl
  have hstep := ha t'
  rw [← ht'] at hstep
  exact ⟨t'.onDevice s.hw s.ram, (congrArg (fun u : Kernel => u.exec o) hs).trans (hex _ _), hstep⟩

theorem aside_early (ho : o.solitary = true) (he : s.exec o = some (r, s')) (h : DeviceStep s' t') :
    ∃ t, DeviceStep s t ∧ t.exec o = some (r, t') := by
  obtain ⟨ht, ha⟩ := deviceStep_acts h
  obtain ⟨hhw, hram, hex⟩ := exec_aside ho he
  rw [hhw, hram] at ha
  have hex' := hex t'.hw t'.ram
  rw [← ht] at hex'
  exact ⟨_, ha s, hex'⟩

/-- A TRB is put on a ring: what the controller did before it can do after it. -/
theorem acts_queued {hw hw' : Controller} {ram ram' : Ram} (h : Acts hw ram hw' ram') (u : Kernel) (ringPhys : Nat)
    (x : Trb) : Acts (Kernel.queued hw ringPhys x) ram (Kernel.queued hw' ringPhys x) ram' := by
  unfold Kernel.queued
  split
  · obtain ⟨-, h⟩ := h u
    apply acts_step (s := u)
    refine ⟨rfl, ?_⟩
    simp only [Kernel.onDevice] at h ⊢
    cases h with
    | interrupt hi h => cases hi
    | answer t ht hid hc hslot hr => exact .answer t ht hid hc hslot trivial
    -- an older transfer is completed, whose number the new one does not change
    | @complete id ring t ht hid hring hep =>
      have hlt : id < hw.transfers.length := (List.getElem?_eq_some_iff.1 hring).1
      have hpost : Controller.complete { hw with
          transfers := hw.transfers ++ [ringPhys], incomplete := hw.incomplete ++ [hw.transfers.length] } id t =
          { hw.complete id t with
            transfers := (hw.complete id t).transfers ++ [ringPhys]
            incomplete := (hw.complete id t).incomplete ++ [(hw.complete id t).transfers.length] } := by
        have hne : hw.transfers.length ≠ id := fun he => absurd hlt (by omega)
        simp [Controller.complete, hne]
      rw [← hpost]
      exact .complete t ht (List.mem_append_left _ hid) ((List.getElem?_append_left hlt).trans hring) hep
    | connect speed t ht hp hccs hr => exact .connect speed t ht hp hccs trivial
    | disconnect t ht hp hccs hr => exact .disconnect t ht hp hccs trivial
    | dma => exact .dma ram'
  · exact h

/-- New events come behind those that a nonempty queue holds. -/
theorem portChange_read {hw : Controller} (hne : hw.events ≠ []) (p : Nat) (port : Port) (t : Trb) :
    (hw.portChange p port t).read = hw.read.portChange p port t ∧
      (hw.portChange p port t).events.head? = hw.events.head? := by
  obtain ⟨e, rest, he⟩ := List.exists_cons_of_ne_nil hne
  unfold Controller.portChange Controller.read
  by_cases hcsc : (hw.port p).csc = true
  · simp [hcsc]
  · simp [hcsc, he]

/-- An event is taken off a queue that holds one: what the controller did after it can do before it. -/
theorem acts_read {hw hw' : Controller} {ram ram' : Ram} (h : Acts hw.read ram hw' ram') (u : Kernel)
    (hne : hw.events ≠ []) : ∃ hw₀, Acts hw ram hw₀ ram' ∧ hw₀.read = hw' ∧ hw₀.events.head? = hw.events.head? := by
  obtain ⟨e, rest, he⟩ := List.exists_cons_of_ne_nil hne
  obtain ⟨-, h⟩ := h u
  simp only [Kernel.onDevice] at h
  -- what the controller posts comes behind the event that was read, so it could have been posted before
  have hstep : ∀ hw₀, Env Rules.any { u.onDevice hw ram with ints := false }
    { u.onDevice hw₀ ram' with ints := false } →
      Acts hw ram hw₀ ram' := fun hw₀ h => acts_step (s := u) ⟨rfl, h⟩
  cases h with
  | interrupt hi h => cases hi
  | @answer id c t ht hid hc hslot hr =>
    refine ⟨hw.answer id c t, hstep _ (.answer t ht hid hc hslot trivial), ?_, ?_⟩
    · simp [Controller.read, Controller.answer, he]
    · simp [Controller.answer, he]
  | @complete id ring t ht hid hring hep =>
    refine ⟨hw.complete id t, hstep _ (.complete t ht hid hring hep), ?_, ?_⟩
    · simp [Controller.read, Controller.complete, he]
    · simp [Controller.complete, he]
  | @connect p speed t ht hp hccs hr =>
    obtain ⟨hread, hhead⟩ := portChange_read hne p ⟨true, true, speed, hw.clock + 1⟩ t
    exact ⟨_, hstep _ (.connect speed t ht hp hccs trivial), hread, hhead⟩
  | @disconnect p t ht hp hccs hr =>
    obtain ⟨hread, hhead⟩ := portChange_read hne p { hw.port p with ccs := false, csc := true } t
    exact ⟨_, hstep _ (.disconnect t ht hp hccs trivial), hread, hhead⟩
  | dma => exact ⟨hw, hstep _ (.dma ram'), rfl, rfl⟩

theorem pollEventRing_eq (s : Kernel) : s.pollEventRing =
    { s with globals := (s.hw.events.head?.map fun e => s.globals.dispatch e.trb).getD s.globals, hw := s.hw.read } := by
  unfold Kernel.pollEventRing Controller.read pollQueue
  cases s.hw.events with
  | nil => rfl
  | cons e rest => rfl

theorem poll_early (hne : s.hw.events ≠ []) (he : s.exec .pollEventRing = some ((), s')) (h : DeviceStep s' t') :
    ∃ t, DeviceStep s t ∧ t.exec .pollEventRing = some ((), t') := by
  have hs' : s.pollEventRing = s' := by
    cases he
    rfl
  obtain ⟨ht, ha⟩ := deviceStep_acts h
  rw [← hs', pollEventRing_eq] at ha
  obtain ⟨hw₀, hacts, hread, hhead⟩ := acts_read ha s hne
  refine ⟨s.onDevice hw₀ t'.ram, hacts s, ?_⟩
  have hpoll : (s.onDevice hw₀ t'.ram).pollEventRing = t' := by
    rw [ht, ← hs', pollEventRing_eq, pollEventRing_eq, ← hread]
    simp only [Kernel.onDevice, hhead]
  exact congrArg (fun u => some ((), u)) hpoll

/-- The controller once a driver's ring got its next TRB. -/
def Kernel.armed (s : Kernel) (k : DeviceKind) (hw : Controller) : Controller :=
  match s.driver k with
  | none => hw
  | some st => Kernel.queued hw st.ringPhys (Kernel.reportTrb st.cycleState st.reportBufPhys)

theorem enqueueReport_onDevice (s : Kernel) (k : DeviceKind) (hw : Controller) (ram : Ram) :
    (s.onDevice hw ram).enqueueReport k = (s.enqueueReport k).onDevice (s.armed k hw) ram := by
  have hd : (s.onDevice hw ram).driver k = s.driver k := by cases k <;> rfl
  unfold Kernel.enqueueReport Kernel.armed
  rw [hd]
  cases s.driver k with
  | none => rfl
  | some st => cases k <;> rfl

theorem enqueueReport_late {k : DeviceKind} (h : DeviceStep s t) (he : t.exec (.enqueueReport k) = some ((), t')) :
    ∃ s', s.exec (.enqueueReport k) = some ((), s') ∧ DeviceStep s' t' := by
  obtain ⟨ht, ha⟩ := deviceStep_acts h
  have ht' : t.enqueueReport k = t' := by
    cases he
    rfl
  have hs : s.enqueueReport k = (s.enqueueReport k).onDevice (s.armed k s.hw) s.ram :=
    enqueueReport_onDevice s k s.hw s.ram
  refine ⟨s.enqueueReport k, rfl, ?_⟩
  rw [← ht', ht, enqueueReport_onDevice, hs]
  have hq : Acts (s.armed k s.hw) s.ram (s.armed k t.hw) t.ram := by
    unfold Kernel.armed
    cases s.driver k with
    | none => exact ha
    | some st => exact acts_queued ha s _ _
  exact hq _

end Steps

/-! ## The handler -/

/-- What the handler does with a report that it read can wait. -/
def Op.postponed (o : Op) : Prop := o.solitary = true ∧ (∀ f b, o ≠ .swapFlag f b) ∨ ∃ k, o = .enqueueReport k

theorem postponed_late {o : Op} {s t t' : Kernel} {r : Ret o} (ho : o.postponed) (h : DeviceStep s t)
    (he : t.exec o = some (r, t')) : ∃ s', s.exec o = some (r, s') ∧ DeviceStep s' t' := by
  rcases ho with ⟨ho, -⟩ | ⟨k, rfl⟩
  · exact aside_late ho h he
  · exact enqueueReport_late h he

/-- It touches no flag. -/
theorem postponed_flags {o : Op} {s s' : Kernel} {r : Ret o} (ho : o.postponed) (he : s.exec o = some (r, s'))
    (f : Flag) : s'.globals.flag f = s.globals.flag f := by
  apply (exec_keeps he).flag
  · rintro b rfl
    rcases ho with ⟨ho, -⟩ | ⟨k, hk⟩
    · cases ho
    · cases hk
  · rintro b rfl
    rcases ho with ⟨-, hf⟩ | ⟨k, hk⟩
    · exact hf f b rfl
    · cases hk
  · rintro rfl
    rcases ho with ⟨ho, -⟩ | ⟨k, hk⟩
    · cases ho
    · cases hk

theorem postponed_aside {o : Op} (ho : o.solitary = true) (hf : ∀ f b, o ≠ .swapFlag f b) : o.postponed := .inl ⟨ho, hf⟩

theorem armNextReport_postponed (k : DeviceKind) : (armNextReport k).All Op.postponed := by
  have h : ∀ o : Op, o.solitary = true → (∀ f b, o ≠ .swapFlag f b) → o.postponed := fun _ => postponed_aside
  refine ⟨h _ rfl nofun, fun _ => ⟨h _ rfl nofun, fun st => ?_⟩⟩
  cases st with
  | none => exact ⟨h _ rfl nofun, fun _ => trivial⟩
  | some st =>
    refine ⟨h _ rfl nofun, fun _ => ⟨h _ rfl nofun, fun _ => ⟨.inr ⟨k, rfl⟩, fun _ => ?_⟩⟩⟩
    exact ⟨h _ rfl nofun, fun _ => ⟨h _ rfl nofun, fun _ => trivial⟩⟩

theorem printKeys_postponed (last : List UInt8) (modifier : UInt8) (codes : List UInt8) :
    (printKeys last modifier codes).All Op.postponed := by
  induction codes with
  | nil => trivial
  | cons kc rest ih =>
    unfold printKeys
    split
    · exact ih
    · split
      · exact ⟨postponed_aside rfl nofun, fun _ => ih⟩
      · exact ih

theorem handleKeyboardReport_postponed (report : List UInt8) : (handleKeyboardReport report).All Op.postponed := by
  refine ⟨postponed_aside rfl nofun, fun _ => ⟨postponed_aside rfl nofun, fun st => ?_⟩⟩
  cases st with
  | none => exact ⟨postponed_aside rfl nofun, fun _ => trivial⟩
  | some st =>
    refine (printKeys_postponed _ _ _).bind fun _ => ⟨postponed_aside rfl nofun, fun _ => ?_⟩
    exact ⟨postponed_aside rfl nofun, fun _ => trivial⟩

theorem handleMouseReport_postponed (report : List UInt8) : (handleMouseReport report).All Op.postponed := by
  refine ⟨postponed_aside rfl nofun, fun _ => ⟨postponed_aside rfl nofun, fun st => ?_⟩⟩
  cases st with
  | none => exact ⟨postponed_aside rfl nofun, fun _ => trivial⟩
  | some st =>
    dsimp only [Prog.bind]
    split
    · refine (printText_all (fun _ => postponed_aside rfl nofun) _).bind fun _ =>
        ⟨postponed_aside rfl nofun, fun _ => ?_⟩
      exact ⟨postponed_aside rfl nofun, fun _ => trivial⟩
    · exact ⟨postponed_aside rfl nofun, nofun⟩

section Handler

variable {α : Type} {s : Kernel}

/-- The background of the handler's operations. -/
abbrev HandlerLate (p : KProg α) (s : Kernel) : Prop := Lib.Late (fun o s => s.exec o) DeviceStep p s

/-- What the controller does after the first operations of such a program can be done before them. -/
abbrev HandlerEarly (p : KProg α) (s : Kernel) : Prop := Lib.Early (fun o s => s.exec o) DeviceStep p s

theorem deviceStep_globals {s t : Kernel} (h : DeviceStep s t) : t.globals = s.globals := by
  rw [(deviceStep_acts h).1]
  rfl

theorem deviceStep_flags {P : (Flag → Bool) → Prop} (s t : Kernel) (hs : P s.globals.flag) (h : DeviceStep s t) :
    P t.globals.flag := by
  rw [deviceStep_globals h]
  exact hs

/-- An operation aside that touches no flag, where `P` is known of the flags. -/
theorem aside_op {o : Op} {k : Ret o → KProg α} {P : (Flag → Bool) → Prop} (ho : o.solitary = true)
    (hf : ∀ f b, o ≠ .swapFlag f b) (hk : ∀ r s', P s'.globals.flag → HandlerEarly (k r) s')
    (hs : P s.globals.flag) : HandlerEarly (.op o k) s := by
  apply early_op (P := fun s => P s.globals.flag) (N := fun _ => True) deviceStep_flags
  · exact fun _ _ _ _ => trivial
  · exact fun _ _ _ _ _ _ he h => aside_early ho he h
  · intro s r s' hs _ he
    apply hk
    rw [funext (postponed_flags (postponed_aside ho hf) he)]
    exact hs
  · exact fun _ _ _ _ hn => absurd trivial hn
  · exact hs

/-- The part of a driver: once its report is read, the rest can wait. -/
theorem pollDriver_early {k : DeviceKind} {handleReport : List UInt8 → KProg Unit} {f : Unit → KProg α}
    {P : (Flag → Bool) → Prop} (hrep : ∀ report, (handleReport report).All Op.postponed)
    (hswap : ∀ g, P g → P (Function.update g k.pending false)) (hearly : ∀ s, HandlerEarly (f ()) s)
    (hlate : ∀ s, P s.globals.flag → HandlerLate (f ()) s)
    (hs : s.globals.flag k.pending = true → P s.globals.flag) : HandlerEarly (pollDriver k handleReport >>= f) s := by
  have hswapped : ∀ s t : Kernel, (s.globals.flag k.pending = true → P s.globals.flag) → DeviceStep s t →
      t.globals.flag k.pending = true → P t.globals.flag := by
    intro s t hs h
    rw [deviceStep_globals h]
    exact hs
  refine early_op (N := fun _ => True) hswapped (fun _ _ _ _ => trivial) (fun _ _ _ _ _ _ he h => aside_early rfl he h)
    (fun s b s' hs _ he => ?_) (fun _ _ _ _ hn => absurd trivial hn) hs
  cases he
  by_cases hb : s.globals.flag k.pending = true
  · have hp : P (Function.update s.globals.flag k.pending false) := hswap _ (hs hb)
    rw [hb]
    refine aside_op rfl nofun
      (fun _ s hs => aside_op rfl nofun (fun st s hs => aside_op rfl nofun (fun _ s hs => ?_) hs) hs) hp
    cases st with
    | none => exact hearly s
    | some st =>
      -- what the driver does with the bytes it reads here no longer depends on the controller
      apply early_op (P := fun s => P s.globals.flag) (N := fun _ => False) deviceStep_flags
      · exact fun _ _ h _ => h
      · exact fun _ _ _ _ _ h => h.elim
      · exact fun _ _ _ _ h => h.elim
      · intro s report s' hs _ he
        have hs' : s = s' := by
          cases he
          rfl
        have hops := (hrep report).bind fun _ => armNextReport_postponed k
        refine late_bind hops deviceStep_flags (fun _ _ _ _ _ ho h he => postponed_late ho h he) ?_
          (fun _ s hs => hlate s hs) (hs' ▸ hs)
        intro o s r s' ho he hs
        rw [funext (postponed_flags ho he)]
        exact hs
      · exact hs
  · rw [Bool.eq_false_of_not_eq_true hb]
    exact hearly _

/-- With no report waiting, the part of a driver is over at once. -/
theorem pollDriver_late {k : DeviceKind} {handleReport : List UInt8 → KProg Unit} {f : Unit → KProg α}
    {P : (Flag → Bool) → Prop} (hq : ∀ g, P g → g k.pending = false)
    (hlate : ∀ s, P s.globals.flag → HandlerLate (f ()) s) (hs : P s.globals.flag) :
    HandlerLate (pollDriver k handleReport >>= f) s := by
  refine late_op (P := fun s => P s.globals.flag) deviceStep_flags (fun _ _ _ _ _ h he => aside_late rfl h he)
    (fun s b s' hs he => ?_) hs
  cases he
  have hsame : Function.update s.globals.flag k.pending false = s.globals.flag := by
    rw [← hq _ hs]
    exact Function.update_eq_self _ _
  rw [hq _ hs]
  refine hlate _ ?_
  show P (Function.update s.globals.flag k.pending false)
  rw [hsame]
  exact hs

/-- No report waits for a driver. -/
def Still (g : Flag → Bool) : Prop := ∀ k : DeviceKind, g k.pending = false

theorem pollMouse_late (hs : s.globals.flag DeviceKind.mouse.pending = false) : HandlerLate pollMouse s := by
  have hp : pollMouse = (pollMouse >>= fun _ => .ret ()) := (Prog.bind_ret pollMouse).symm
  rw [hp]
  exact pollDriver_late (P := fun g => g DeviceKind.mouse.pending = false) (fun _ h => h) (fun _ _ => trivial) hs

theorem drivers_late (hs : Still s.globals.flag) : HandlerLate (pollKeyboard >>= fun _ => pollMouse) s :=
  pollDriver_late (fun _ h => h .keyboard) (fun _ h => pollMouse_late (h .mouse)) hs

theorem pollMouse_early (s : Kernel) : HandlerEarly pollMouse s := by
  have hp : pollMouse = (pollMouse >>= fun _ => .ret ()) := (Prog.bind_ret pollMouse).symm
  rw [hp]
  exact pollDriver_early (P := fun _ => True) handleMouseReport_postponed (fun _ _ => trivial) (fun _ => trivial)
    (fun _ _ => trivial) fun _ => trivial

/-- The parts of the drivers, where at most one of them has a report. -/
theorem drivers_early
    (hs : s.globals.flag DeviceKind.keyboard.pending = true → s.globals.flag DeviceKind.mouse.pending = false) :
    HandlerEarly (pollKeyboard >>= fun _ => pollMouse) s :=
  pollDriver_early (P := fun g => g DeviceKind.mouse.pending = false) handleKeyboardReport_postponed
    (fun g hg => (Function.update_of_ne (by decide) _ _).trans hg) pollMouse_early (fun _ => pollMouse_late) hs

/-- The event is taken off the queue first, if there is one, and is for one driver at most. -/
theorem interruptHandler_early (hs : Still s.globals.flag) : HandlerEarly interruptHandler s := by
  rw [interruptHandler_eq]
  refine aside_op rfl nofun (fun b s hs => ?_) hs
  split
  · refine aside_op rfl nofun (fun _ s hs => ?_) hs
    refine early_op (P := fun s => Still s.globals.flag) (N := fun s => s.hw.events ≠ []) deviceStep_flags
      ?_ ?_ ?_ ?_ hs
    · -- with an event unread, what the controller posts meanwhile can be posted before the poll
      intro s t hne h hnil
      exact hne (List.prefix_nil.1 (hnil ▸ device_events h))
    · exact fun s _ s' t' _ hne he h => poll_early hne he h
    · intro s _ s' hs hne he
      have hone : s'.globals.flag DeviceKind.keyboard.pending = true →
        s'.globals.flag DeviceKind.mouse.pending = false := by
        cases he
        intro hk
        rw [← Bool.not_eq_true, poll_pending hs, (poll_pending hs _).1 hk]
        nofun
      exact aside_op (P := fun g => g DeviceKind.keyboard.pending = true → g DeviceKind.mouse.pending = false) rfl nofun
        (fun _ s hs => drivers_early hs) hone
    · -- without one the poll does nothing, and no report waits for the drivers
      intro s _ s' hs hnil he
      have hs' : Still s'.globals.flag := by
        cases he
        rw [pollEventRing_eq, not_not.1 hnil]
        exact hs
      refine late_op (P := fun s => Still s.globals.flag) deviceStep_flags
        (fun _ _ _ _ _ h he => aside_late rfl h he) ?_ hs'
      intro s _ s' hs he
      cases he
      exact drivers_late hs
  · exact drivers_early fun _ => hs .mouse

end Handler

/-! ## Sessions -/

/-- The operations after which no report waits, if none waited before. -/
def Op.Silent (o : Op) : Prop :=
  ∀ (s : Kernel) (r : Ret o) (s' : Kernel), s.exec o = some (r, s') → Still s.globals.flag → Still s'.globals.flag

theorem silent_of_bystander {o : Op} (h : o.bystander = true) : o.Silent :=
  fun _ _ _ he hs k => ((exec_bystander h he).2.2.1 k).trans (hs k)

theorem silent_of_beside {o : Op} (h : o.beside = true) : o.Silent := by
  cases o
  case setActive l =>
    intro s r s' he hs
    cases he
    exact hs
  case storeFlag f b => cases f <;> first | exact silent_of_bystander rfl | cases h
  case swapFlag f b => cases f <;> first | exact silent_of_bystander rfl | cases h
  case storeReg r n => cases h
  all_goals first | exact silent_of_bystander rfl | cases h

theorem silent_of_postponed {o : Op} (h : o.postponed) : o.Silent :=
  fun _ _ _ he hs k => (postponed_flags h he k.pending).trans (hs k)

/-- The operations by which a driver gets a device and loses it. -/
theorem silent_attach (k : DeviceKind) : (∀ st, Op.Silent (.newDriver k st)) ∧ Op.Silent (.dropDriver k) ∧
    (∀ r n, Op.Silent (.storeReg r n)) ∧ Op.Silent (.storeFlag k.pending false) := by
  refine ⟨fun st s r s' he hs => ?_, fun s r s' he hs => ?_, fun r n s _ s' he hs => ?_, fun s r s' he hs k' => ?_⟩
  · cases he
    cases k <;> exact hs
  · cases he
    cases k <;> exact hs
  · cases he
    exact hs
  · cases he
    by_cases hk : k'.pending = k.pending
    · show Function.update s.globals.flag _ false _ = _
      rw [hk]
      exact Function.update_self _ _ _
    · exact (Function.update_of_ne hk _ _).trans (hs k')

theorem initDriver_silent (k : DeviceKind) (message : String) (slotId : Nat) (ep : EndpointHandle)
    (interfaceNumber : Nat) : (initDriver k message slotId ep interfaceNumber).All Op.Silent := by
  have hq : ∀ o : Op, o.bystander = true → o.Silent := fun _ => silent_of_bystander
  obtain ⟨hnew, -, hreg, -⟩ := silent_attach k
  refine ((controlTransferNoData_ops _ _ _ _ _).mono fun o h => hq o (bystander_of_transfer h)).bind fun _ =>
    ⟨hq _ rfl, fun virt => ⟨hq _ rfl, fun phys => ?_⟩⟩
  cases phys with
  | none => exact ⟨hq _ rfl, nofun⟩
  | some phys =>
    refine ⟨hreg _ _, fun _ => ⟨hreg _ _, fun _ => ⟨hq _ rfl, fun _ => ⟨hnew _, fun _ => ⟨hq _ rfl, fun _ => ?_⟩⟩⟩⟩⟩
    exact (armNextReport_postponed k).mono fun _ => silent_of_postponed

theorem shutdownDriver_silent (k : DeviceKind) (slotId : Nat) : (shutdownDriver k slotId).All Op.Silent := by
  have hq : ∀ o : Op, o.bystander = true → o.Silent := fun _ => silent_of_bystander
  obtain ⟨-, hdrop, hreg, hflag⟩ := silent_attach k
  refine ⟨hq _ rfl, fun _ => ⟨hq _ rfl, fun st => ?_⟩⟩
  cases st with
  | none => exact ⟨hq _ rfl, fun _ => trivial⟩
  | some st =>
    refine (?_ : Prog.All _ (if st.slotId ≠ slotId then unlock k.lock else _))
    split
    · exact ⟨hq _ rfl, fun _ => trivial⟩
    · refine ⟨hdrop, fun _ => ⟨hq _ rfl, fun _ => ⟨hreg _ _, fun _ => ⟨hreg _ _, fun _ => ⟨hflag, fun _ => ?_⟩⟩⟩⟩⟩
      exact ⟨hq _ rfl, fun _ => trivial⟩

theorem composed_silent : Composed fun p => p.All Op.Silent where
  beside hp := hp.mono fun _ => silent_of_beside
  bind := Prog.All.bind
  init := initDriver_silent
  shutdown := shutdownDriver_silent

/-- No report waits while the handler does not run. -/
theorem framed_still : (machine Rules.any).Framed Op.Silent fun s => Still s.globals.flag where
  stable _ _ hs he := env_quiet he hs
  frame _ s r s' ho _ he hs := ho s r s' he hs

theorem session_still {hist : List (Machine.Return Kernel MainCall.Result)} {s : Kernel}
    (h : UsbSession Rules.any hist s) : Still s.globals.flag :=
  h.invariant (I := fun s => Still s.globals.flag) (fun s hs k => by rw [hs.globals]; rfl) framed_still.stable fun i =>
    framed_still.triple (composed_silent.prog i)

theorem during_still {i : MainCall} {p : KProg i.Result} {s : Kernel}
    (h : (machine Rules.any).During MainCall.prog PowerOn i p s) : Still s.globals.flag := by
  obtain ⟨hist, s₀, hs₀, hr⟩ := h
  exact framed_still.throughout (composed_silent.prog i) (fun _ h => h) s₀ (session_still hs₀) _ hr

/-- Wherever the handler does not run, the machine comes to the same states as the one that runs it at once. -/
theorem piecewise_during_iff {i : MainCall} {p : KProg i.Result} {s : Kernel} :
    piecewise.During MainCall.prog (Machine.AtRest PowerOn) i p (s, none) ↔
      (machine Rules.any).During MainCall.prog PowerOn i p s := by
  rw [← whole_eq]
  refine Machine.during_pieces_iff (I := fun s => Still s.globals.flag) ?_ ?_ ?_ ?_
  · intro s t hi h
    rw [(deviceStep_acts h).1]
    exact hi
  · exact fun s hs _ => interruptHandler_early hs
  · rw [whole_eq]
    exact fun i p s h => during_still h
  · rw [whole_eq]
    exact fun hist s h => session_still h

end Octagram.Usb

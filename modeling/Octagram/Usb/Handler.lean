/-
What each operation leaves as it is (`Keeps`), and what the vector-44 handler does as a whole
(`handler_driven`): it acts on the oldest event, and apart from that changes nothing but the state
of the two drivers, their rings and the console. The handler is `poll_event_ring` and then the two
drivers' parts (`interruptHandler_eq`); a part swaps its flag first, so what follows on it are the
operations of a report (`Op.report`).
-/
import Octagram.Usb.Machine

namespace Octagram.Usb

open Octagram.Lib

/-! ## Operations -/

/-- The atomics by which `poll_event_ring` finds the drivers' endpoints. -/
def Reg.routing : Reg → Bool
  | .kbdDci | .kbdSlotId | .mouseDci | .mouseSlotId => true
  | _ => false

/-- The ring of a driver, if there is one. -/
def Kernel.ring (s : Kernel) (k : DeviceKind) : Option Nat := (s.driver k).map (·.ringPhys)

/-- What an operation leaves as it is. -/
structure Keeps (o : Op) (s s' : Kernel) : Prop where
  ints : o ≠ .cli → o ≠ .sti → s'.ints = s.ints
  held : ∀ l, (∀ site, o ≠ .lock l site) → o ≠ .unlock l → s'.held l = s.held l
  flag : ∀ f, (∀ b, o ≠ .storeFlag f b) → (∀ b, o ≠ .swapFlag f b) → o ≠ .pollEventRing →
    s'.globals.flag f = s.globals.flag f
  reg : ∀ r, (∀ n, o ≠ .storeReg r n) → o ≠ .pollEventRing → s'.globals.reg r = s.globals.reg r
  xhci : s'.xhci.isSome = s.xhci.isSome
  ep0 : (∀ v p, o ≠ .setEp0Ring v p) → s'.xhci.map (·.ep0RingPhys) = s.xhci.map (·.ep0RingPhys)
  ring : ∀ k, (∀ st, o ≠ .newDriver k st) → o ≠ .dropDriver k → s'.ring k = s.ring k
  activePorts : (∀ l, o ≠ .setActive l) → s'.activePorts = s.activePorts
  hhdm : s'.hhdm = s.hhdm
  dcbaa : (∀ a b, o ≠ .writeDcbaa a b) → s'.dcbaa = s.dcbaa
  inputContext : (∀ c, o ≠ .boxNew (.inputContext c)) → s'.inputContext = s.inputContext
  boxes : s'.boxes = s.boxes
  port : s'.hw.port = s.hw.port
  maxPorts : s'.hw.maxPorts = s.hw.maxPorts
  clock : s'.hw.clock = s.hw.clock
  enabled : s'.hw.enabled = s.hw.enabled
  endpoint : s'.hw.endpoint = s.hw.endpoint
  commands : s.hw.commands <+: s'.hw.commands
  sent : (∀ p t i, o ≠ .sendCommand p t i) →
    s'.hw.commands = s.hw.commands ∧ s'.hw.unanswered = s.hw.unanswered
  events : o ≠ .pollEventRing → s'.hw.events = s.hw.events ∧ s'.hw.consumed = s.hw.consumed
  transfers : (∀ p st c, o ≠ .ep0EnqueueTrb p st c) → (∀ k, o ≠ .enqueueReport k) →
    s'.hw.transfers = s.hw.transfers ∧ s'.hw.incomplete = s.hw.incomplete

theorem queued_frame (hw : Controller) (ringPhys : Nat) (t : Trb) :
    ∃ ts is, Kernel.queued hw ringPhys t = { hw with transfers := ts, incomplete := is } := by
  unfold Kernel.queued
  split
  · exact ⟨_, _, rfl⟩
  · exact ⟨_, _, rfl⟩

theorem Keeps.refl (o : Op) (s : Kernel) : Keeps o s s := by
  constructor <;> intros <;> first | rfl | exact ⟨rfl, rfl⟩

variable {o : Op} {s s' : Kernel}

theorem storeFlag_other {g : Globals} {f f' : Flag} {b : Bool} (h : f' ≠ f) : (g.storeFlag f b).flag f' = g.flag f' :=
  Function.update_of_ne h _ _

theorem storeReg_other {g : Globals} {r r' : Reg} {n : Nat} (h : r' ≠ r) : (g.storeReg r n).reg r' = g.reg r' :=
  Function.update_of_ne h _ _

/-- No event moves the routing of the reports. -/
theorem dispatch_routing (g : Globals) (t : Trb) {r : Reg} (h : r.routing = true) : (g.dispatch t).reg r = g.reg r := by
  have hne : ∀ r' : Reg, r'.routing = false → r ≠ r' := fun r' h' he => by rw [he, h'] at h; cases h
  unfold Globals.dispatch
  split
  · rfl
  · exact (storeReg_other (hne _ rfl)).trans (storeReg_other (hne _ rfl))
  · split
    · exact storeReg_other (hne _ rfl)
    · split
      · exact storeReg_other (hne _ rfl)
      · exact (storeReg_other (hne _ rfl)).trans (storeReg_other (hne _ rfl))
  · rfl

theorem stepEp0_phys (x : XHCI) : (Kernel.stepEp0 x).ep0RingPhys = x.ep0RingPhys := by
  unfold Kernel.stepEp0; split <;> rfl

theorem stepCmd_phys (x : XHCI) : (Kernel.stepCmd x).ep0RingPhys = x.ep0RingPhys := by
  unfold Kernel.stepCmd; split <;> rfl

theorem keeps_ep0EnqueueTrb {x : XHCI} (hx : s.xhci = some x) (parameter : BitVec 64) (status control : BitVec 32) :
    Keeps (.ep0EnqueueTrb parameter status control) s (s.ep0EnqueueTrb x parameter status control) := by
  obtain ⟨ts, is, hq⟩ := queued_frame s.hw x.ep0RingPhys (Kernel.ep0Trb x parameter status control)
  unfold Kernel.ep0EnqueueTrb
  rw [hq]
  exact { Keeps.refl _ s with
    xhci := by rw [hx]; rfl
    ep0 := fun _ => by rw [hx]; exact congrArg some (stepEp0_phys x)
    transfers := fun h => absurd rfl (h _ _ _) }

theorem keeps_sendCommand {x : XHCI} (hx : s.xhci = some x) (parameter trbType slotId : Nat) :
    Keeps (.sendCommand parameter trbType slotId) s (s.sendCommand x parameter trbType slotId) :=
  { Keeps.refl _ s with
    xhci := by rw [hx]; rfl
    ep0 := fun _ => by rw [hx]; exact congrArg some (stepCmd_phys x)
    commands := List.prefix_append _ _
    sent := fun h => absurd rfl (h _ _ _) }

theorem keeps_pollEventRing : Keeps .pollEventRing s s.pollEventRing :=
  { Keeps.refl _ s with
    flag := fun _ _ _ h => absurd rfl h
    reg := fun _ _ h => absurd rfl h
    events := fun h => absurd rfl h }

theorem keeps_boxNew (b : BoxContent) : Keeps (.boxNew b) s (s.boxNew b).2 := by
  cases b with
  | inputContext c => exact { Keeps.refl _ s with inputContext := fun h => absurd rfl (h c) }
  | transferRing => exact { Keeps.refl _ s with }
  | deviceContext => exact { Keeps.refl _ s with }
  | bytes n => exact { Keeps.refl _ s with }

theorem driver_modify (f : DriverState → DriverState) (k k' : DeviceKind) :
    (s.modifyDriver f k).driver k' = if k' = k then (s.driver k').map f else s.driver k' := by
  cases k <;> cases k' <;> simp [Kernel.modifyDriver, Kernel.driver, Option.map_map, Function.comp_def]

/-- Changes of a driver's fields other than its ring's address. -/
theorem ring_modify {f : DriverState → DriverState} {k : DeviceKind}
    (hf : ∀ st, s.driver k = some st → (f st).ringPhys = st.ringPhys) (k' : DeviceKind) :
    (s.modifyDriver f k).ring k' = s.ring k' := by
  unfold Kernel.ring
  rw [driver_modify]
  split
  · rename_i he
    subst he
    cases hd : s.driver k' with
    | none => rfl
    | some st => exact congrArg some (hf st hd)
  · rfl

theorem ring_setLastKeycodes (l : List UInt8) (k : DeviceKind) :
    Kernel.ring { s with kbd := s.kbd.map fun st => { st with lastKeycodes := l } } k = s.ring k := by
  cases k with
  | keyboard => simp only [Kernel.ring, Kernel.driver, Option.map_map, Function.comp_def]
  | mouse => rfl

theorem ring_setMousePos (x y : Int) (b : UInt8) (k : DeviceKind) :
    Kernel.ring { s with mouse := s.mouse.map fun st => { st with posX := x, posY := y, lastButtons := b } } k =
      s.ring k := by
  cases k with
  | keyboard => rfl
  | mouse => simp only [Kernel.ring, Kernel.driver, Option.map_map, Function.comp_def]

/-- `arm_next_report` changes a driver's position in its ring, the ring and the transfers. -/
theorem enqueueReport_eq {k : DeviceKind} {st : DriverState} (h : s.driver k = some st) :
    ∃ f trb, (∀ k', (s.modifyDriver f k).ring k' = s.ring k') ∧ s.enqueueReport k = { s.modifyDriver f k with
      trb := trb, hw := Kernel.queued s.hw st.ringPhys (Kernel.reportTrb st.cycleState st.reportBufPhys) } := by
  unfold Kernel.enqueueReport
  rw [h]
  exact ⟨_, _, ring_modify fun st' h' => by rw [h] at h'; cases h'; rfl, rfl⟩

theorem keeps_enqueueReport (k : DeviceKind) : Keeps (.enqueueReport k) s (s.enqueueReport k) := by
  cases h : s.driver k with
  | none =>
    unfold Kernel.enqueueReport
    rw [h]
    exact Keeps.refl _ s
  | some st =>
    obtain ⟨f, trb, hr, he⟩ := enqueueReport_eq h
    obtain ⟨ts, is, hq⟩ := queued_frame s.hw st.ringPhys (Kernel.reportTrb st.cycleState st.reportBufPhys)
    rw [he, hq]
    cases k <;> exact { Keeps.refl _ s with ring := fun k' _ _ => hr k', transfers := fun _ h => absurd rfl (h _) }

theorem keeps_newDriver (k : DeviceKind) (st : DriverState) : Keeps (.newDriver k st) s (s.newDriver st k) := by
  have hr : ∀ k', (∀ st', Op.newDriver k st ≠ .newDriver k' st') → (s.newDriver st k).ring k' = s.ring k' := by
    intro k' h
    cases k <;> cases k' <;> first | rfl | exact absurd rfl (h st)
  cases k <;> exact { Keeps.refl _ s with ring := fun k' h _ => hr k' h }

theorem keeps_dropDriver (k : DeviceKind) : Keeps (.dropDriver k) s (s.dropDriver k) := by
  have hr : ∀ k', Op.dropDriver k ≠ .dropDriver k' → (s.dropDriver k).ring k' = s.ring k' := by
    intro k' h
    cases k <;> cases k' <;> first | rfl | exact absurd rfl h
  cases k <;> exact { Keeps.refl _ s with ring := fun k' _ h => hr k' h }

theorem exec_keeps {r : Ret o} (h : s.exec o = some (r, s')) : Keeps o s s' := by
  cases o
  all_goals simp only [Kernel.exec] at h
  case panic => cases h
  case lock l site =>
    split at h
    · cases h
    · cases h
      exact { Keeps.refl _ s with
        held := fun l' h _ => Function.update_of_ne (fun he : l' = l => h site (by rw [he])) _ _ }
  case getXhci | setEp0Ring | sendCommand | ep0EnqueueTrb =>
    obtain ⟨x, hx, he⟩ := Option.map_eq_some_iff.1 h
    cases he
    first
      | exact Keeps.refl _ s
      | exact keeps_sendCommand hx _ _ _
      | exact keeps_ep0EnqueueTrb hx _ _ _
      | exact { Keeps.refl _ s with xhci := by rw [hx]; rfl, ep0 := fun h => absurd rfl (h _ _) }
  -- what is left is never blocked; each operation writes at most one part of the state
  all_goals cases h
  case cli | sti => exact { Keeps.refl _ s with ints := by intros; contradiction }
  case unlock l =>
    exact { Keeps.refl _ s with held := fun l' _ h => Function.update_of_ne (fun he => h (by rw [he])) _ _ }
  case storeFlag f b =>
    exact { Keeps.refl _ s with flag := fun f' h _ _ => storeFlag_other fun he => h b (by rw [he]) }
  case swapFlag f b =>
    exact { Keeps.refl _ s with flag := fun f' _ h _ => storeFlag_other fun he => h b (by rw [he]) }
  case storeReg r n => exact { Keeps.refl _ s with reg := fun r' h _ => storeReg_other fun he => h n (by rw [he]) }
  case pollEventRing => exact keeps_pollEventRing
  case boxNew b => exact keeps_boxNew b
  case writeDcbaa a b => exact { Keeps.refl _ s with dcbaa := fun h => absurd rfl (h a b) }
  case newDriver k st => exact keeps_newDriver k st
  case dropDriver k => exact keeps_dropDriver k
  case setActive l => exact { Keeps.refl _ s with activePorts := fun h => absurd rfl (h l) }
  case enqueueReport k => exact keeps_enqueueReport k
  case setLastKeycodes l => exact { Keeps.refl _ s with ring := fun k _ _ => ring_setLastKeycodes l k }
  case setMousePos x y b => exact { Keeps.refl _ s with ring := fun k _ _ => ring_setMousePos x y b k }
  all_goals exact { Keeps.refl _ s with }

/-! ## The drivers in the handler -/

/-- What the rings of the drivers gained: transfers on those rings only. -/
structure Armed (s s' : Kernel) : Prop where
  pref : s.hw.transfers <+: s'.hw.transfers
  ring : ∀ id ring, s.hw.transfers.length ≤ id → s'.hw.transfers[id]? = some ring →
    ∃ k, s.ring k = some ring
  incomplete : ∀ id ∈ s'.hw.incomplete,
    id ∈ s.hw.incomplete ∨ (s.hw.transfers.length ≤ id ∧ id < s'.hw.transfers.length)

/-- The operations of `poll_keyboard` and `poll_mouse`. -/
def Op.driver : Op → Bool
  | .lock l _ | .unlock l => l ≠ .activePorts
  | .swapFlag f _ => f = .kbdReportPending ∨ f = .mouseReportPending
  | .getXhci | .getDriver _ | .getKbd | .getMouse | .readBytes _ _ | .print _ | .panic _ => true
  | .setLastKeycodes _ | .setMousePos _ _ _ | .enqueueReport _ => true
  | _ => false

/-- Those after the swap of the pending flag. -/
def Op.report : Op → Bool
  | .swapFlag _ _ => false
  | o => o.driver

theorem driver_of_report {o : Op} (h : o.report = true) : o.driver = true := by
  cases o <;> first | exact h | cases h

/-- What `poll_keyboard` and `poll_mouse` leave as it is. -/
structure Driven (s s' : Kernel) : Prop where
  ints : s'.ints = s.ints
  registry : s'.held .activePorts = s.held .activePorts
  flag : ∀ f, f ≠ .kbdReportPending → f ≠ .mouseReportPending → s'.globals.flag f = s.globals.flag f
  reg : s'.globals.reg = s.globals.reg
  xhci : s'.xhci = s.xhci
  ring : ∀ k, s'.ring k = s.ring k
  activePorts : s'.activePorts = s.activePorts
  hhdm : s'.hhdm = s.hhdm
  dcbaa : s'.dcbaa = s.dcbaa
  inputContext : s'.inputContext = s.inputContext
  boxes : s'.boxes = s.boxes
  hw : ∃ ts is, s'.hw = { s.hw with transfers := ts, incomplete := is }
  armed : Armed s s'

theorem Armed.refl (s : Kernel) : Armed s s where
  pref := List.prefix_rfl
  ring := fun _ _ hle h => absurd (List.getElem?_eq_some_iff.1 h).1 (Nat.not_lt.2 hle)
  incomplete := fun _ h => .inl h

theorem Armed.trans {s₁ s₂ s₃ : Kernel} (h : Armed s₁ s₂) (h' : Armed s₂ s₃)
    (hr : ∀ k, s₂.ring k = s₁.ring k) : Armed s₁ s₃ where
  pref := h.pref.trans h'.pref
  ring := fun id ring hle hg => by
    by_cases hlt : id < s₂.hw.transfers.length
    · rw [List.prefix_iff_getElem?.1 h'.pref id hlt, ← List.getElem?_eq_getElem hlt] at hg
      exact h.ring id ring hle hg
    · obtain ⟨k, hk⟩ := h'.ring id ring (Nat.not_lt.1 hlt) hg
      exact ⟨k, (hr k).symm.trans hk⟩
  incomplete := fun id hi => by
    have h1 := h.pref.length_le
    have h2 := h'.pref.length_le
    rcases h'.incomplete id hi with hi | ⟨hle, hlt⟩
    · rcases h.incomplete id hi with hi | ⟨hle, hlt⟩
      · exact .inl hi
      · exact .inr ⟨hle, Nat.lt_of_lt_of_le hlt h2⟩
    · exact .inr ⟨Nat.le_trans h1 hle, hlt⟩

/-- A TRB with IOC on one of the drivers' rings. -/
theorem armed_queued (s s' : Kernel) {ring : Nat} (t : Trb) (hw : s'.hw = Kernel.queued s.hw ring t)
    (hr : ∃ k, s.ring k = some ring) : Armed s s' := by
  unfold Kernel.queued at hw
  split at hw
  · have ht : s'.hw.transfers = s.hw.transfers ++ [ring] := by rw [hw]
    have hi : s'.hw.incomplete = s.hw.incomplete ++ [s.hw.transfers.length] := by rw [hw]
    refine ⟨by rw [ht]; exact List.prefix_append _ _, fun id ring' hle hg => ?_, fun id hm => ?_⟩
    · rw [ht, List.getElem?_append_right hle, List.getElem?_singleton] at hg
      split at hg
      · rwa [← Option.some.inj hg]
      · cases hg
    · rw [ht, List.length_append, List.length_singleton]
      rw [hi, List.mem_append, List.mem_singleton] at hm
      exact hm.imp_right fun he => ⟨Nat.le_of_eq he.symm, by omega⟩
  · exact ⟨by rw [hw], fun id ring' => by rw [hw]; exact (Armed.refl s).ring id ring', fun id hm => .inl (hw ▸ hm)⟩

theorem Driven.refl (s : Kernel) : Driven s s where
  ints := rfl
  registry := rfl
  flag := fun _ _ _ => rfl
  reg := rfl
  xhci := rfl
  ring := fun _ => rfl
  activePorts := rfl
  hhdm := rfl
  dcbaa := rfl
  inputContext := rfl
  boxes := rfl
  hw := ⟨_, _, rfl⟩
  armed := Armed.refl s

theorem Driven.trans {s₁ s₂ s₃ : Kernel} (h : Driven s₁ s₂) (h' : Driven s₂ s₃) : Driven s₁ s₃ where
  ints := h'.ints.trans h.ints
  registry := h'.registry.trans h.registry
  flag := fun f hk hm => (h'.flag f hk hm).trans (h.flag f hk hm)
  reg := h'.reg.trans h.reg
  xhci := h'.xhci.trans h.xhci
  ring := fun k => (h'.ring k).trans (h.ring k)
  activePorts := h'.activePorts.trans h.activePorts
  hhdm := h'.hhdm.trans h.hhdm
  dcbaa := h'.dcbaa.trans h.dcbaa
  inputContext := h'.inputContext.trans h.inputContext
  boxes := h'.boxes.trans h.boxes
  hw := by
    obtain ⟨ts, is, he⟩ := h.hw
    obtain ⟨ts', is', he'⟩ := h'.hw
    exact ⟨ts', is', by rw [he', he]⟩
  armed := h.armed.trans h'.armed h.ring

theorem driven_enqueueReport (k : DeviceKind) (s : Kernel) : Driven s (s.enqueueReport k) := by
  cases h : s.driver k with
  | none =>
    unfold Kernel.enqueueReport
    rw [h]
    exact Driven.refl s
  | some st =>
    obtain ⟨f, trb, hr, he⟩ := enqueueReport_eq h
    have ha := armed_queued s (s.enqueueReport k) (Kernel.reportTrb st.cycleState st.reportBufPhys)
      (by rw [he]) ⟨k, congrArg _ h⟩
    have hw := queued_frame s.hw st.ringPhys (Kernel.reportTrb st.cycleState st.reportBufPhys)
    rw [he] at ha ⊢
    cases k <;> exact { Driven.refl s with ring := hr, hw := hw, armed := ha }

theorem exec_driven {r : Ret o} (hd : o.driver = true) (h : s.exec o = some (r, s')) : Driven s s' := by
  cases o
  all_goals first | cases hd | simp only [Kernel.exec] at h
  case panic => cases h
  case lock l site =>
    have hl : Lock.activePorts ≠ l := fun he => by rw [← he] at hd; cases hd
    split at h
    · cases h
    · cases h; exact { Driven.refl s with registry := Function.update_of_ne hl _ _, armed := { Armed.refl s with } }
  case getXhci =>
    obtain ⟨x, hx, he⟩ := Option.map_eq_some_iff.1 h
    cases he
    exact Driven.refl s
  -- of the other operations of the drivers only the flags, the rings and the drivers' own fields are written
  all_goals cases h
  case unlock l =>
    have hl : Lock.activePorts ≠ l := fun he => by rw [← he] at hd; cases hd
    exact { Driven.refl s with registry := Function.update_of_ne hl _ _, armed := { Armed.refl s with } }
  case swapFlag f b =>
    exact { Driven.refl s with
      flag := fun f' hk hm => storeFlag_other fun he =>
        (of_decide_eq_true hd).elim (hk <| he.trans ·) (hm <| he.trans ·)
      armed := { Armed.refl s with } }
  case enqueueReport k => exact driven_enqueueReport k s
  case setLastKeycodes l =>
    exact { Driven.refl s with ring := ring_setLastKeycodes l, armed := { Armed.refl s with } }
  case setMousePos x y b =>
    exact { Driven.refl s with ring := ring_setMousePos x y b, armed := { Armed.refl s with } }
  all_goals exact { Driven.refl s with armed := { Armed.refl s with } }

/-! ## The handler -/

variable {α : Type}

theorem runToEnd_op (o : Op) (k : Ret o → KProg α) (s : Kernel) :
    runToEnd (.op o k) s = (s.exec o).bind fun r => runToEnd (k r.1) r.2 := by
  rw [runToEnd]
  cases s.exec o <;> rfl

theorem runToEnd_driven {p : KProg α} {s s' : Kernel} {a : α} (hp : p.All fun o => o.driver = true)
    (h : runToEnd p s = some (a, s')) : Driven s s' := by
  induction p generalizing s with
  | ret b =>
    cases h
    exact Driven.refl _
  | op o k ih =>
    rw [runToEnd_op, Option.bind_eq_some_iff] at h
    obtain ⟨r, he, h⟩ := h
    exact (exec_driven hp.1 he).trans (ih r.1 (hp.2 r.1) h)

/-- What every operation of a program keeps, the program keeps. -/
theorem runToEnd_frame {φ : Op → Prop} {P : Kernel → Prop} {p : KProg α} {s s' : Kernel} {a : α}
    (hp : p.All φ) (hf : ∀ o s r s', φ o → s.exec o = some (r, s') → P s → P s')
    (h : runToEnd p s = some (a, s')) (hs : P s) : P s' := by
  induction p generalizing s with
  | ret b =>
    cases h
    exact hs
  | op o k ih =>
    rw [runToEnd_op, Option.bind_eq_some_iff] at h
    obtain ⟨r, he, h⟩ := h
    exact ih r.1 (hp.2 r.1) h (hf o s r.1 r.2 hp.1 he hs)

theorem runToEnd_bind {β : Type} (p : KProg α) (f : α → KProg β) (s : Kernel) :
    runToEnd (p >>= f) s = (runToEnd p s).bind fun r => runToEnd (f r.1) r.2 := by
  induction p generalizing s with
  | ret a => rfl
  | op o k ih =>
    rw [Prog.op_bind, runToEnd_op, runToEnd_op]
    cases s.exec o with
    | none => rfl
    | some r => exact ih r.1 r.2

theorem printKeys_report (last : List UInt8) (modifier : UInt8) (codes : List UInt8) :
    (printKeys last modifier codes).All fun o => o.report = true := by
  induction codes with
  | nil => trivial
  | cons kc rest ih =>
    unfold printKeys
    split
    · exact ih
    · split
      · exact ⟨rfl, fun _ => ih⟩
      · exact ih

theorem printText_all {φ : Op → Prop} (h : ∀ c, φ (.print c)) (text : List Char) : (printText text).All φ := by
  induction text with
  | nil => trivial
  | cons c rest ih => exact ⟨h c, fun _ => ih⟩

theorem armNextReport_report (k : DeviceKind) : (armNextReport k).All fun o => o.report = true := by
  have hl : (k.lock ≠ .activePorts : Bool) = true := by cases k <;> rfl
  refine ⟨hl, fun _ => ⟨rfl, fun st => ?_⟩⟩
  cases st with
  | none => exact ⟨hl, fun _ => trivial⟩
  | some st => exact ⟨rfl, fun _ => ⟨rfl, fun _ => ⟨rfl, fun _ => ⟨rfl, fun _ => ⟨hl, fun _ => trivial⟩⟩⟩⟩⟩

theorem handleKeyboardReport_report (report : List UInt8) :
    (handleKeyboardReport report).All fun o => o.report = true := by
  refine ⟨rfl, fun _ => ⟨rfl, fun st => ?_⟩⟩
  cases st with
  | none => exact ⟨rfl, fun _ => trivial⟩
  | some st => exact (printKeys_report _ _ _).bind fun _ => ⟨rfl, fun _ => ⟨rfl, fun _ => trivial⟩⟩

theorem handleMouseReport_report (report : List UInt8) :
    (handleMouseReport report).All fun o => o.report = true := by
  refine ⟨rfl, fun _ => ⟨rfl, fun st => ?_⟩⟩
  cases st with
  | none => exact ⟨rfl, fun _ => trivial⟩
  | some st =>
    dsimp only [Prog.bind]
    split
    · exact (printText_all (fun _ => rfl) _).bind fun _ => ⟨rfl, fun _ => ⟨rfl, fun _ => trivial⟩⟩
    · exact ⟨rfl, nofun⟩

/-- The driver's part of the handler: the swap of its pending flag, then the operations of a report. -/
theorem pollDriver_all {φ : Op → Prop} (k : DeviceKind) {handleReport : List UInt8 → KProg Unit}
    (h : ∀ report, (handleReport report).All fun o => o.report = true) (hs : φ (.swapFlag k.pending false))
    (hφ : ∀ o, o.report = true → φ o) : (pollDriver k handleReport).All φ := by
  have hl : (k.lock ≠ .activePorts : Bool) = true := by cases k <;> rfl
  refine ⟨hs, fun b => ?_⟩
  cases b with
  | false => trivial
  | true =>
    refine ⟨hφ _ hl, fun _ => ⟨hφ _ rfl, fun st => ⟨hφ _ hl, fun _ => ?_⟩⟩⟩
    cases st with
    | none => trivial
    | some st => exact ⟨hφ _ rfl, fun report => ((h report).bind fun _ => armNextReport_report k).mono hφ⟩

theorem pollDriver_driver (k : DeviceKind) {handleReport : List UInt8 → KProg Unit}
    (h : ∀ report, (handleReport report).All fun o => o.report = true) :
    (pollDriver k handleReport).All fun o => o.driver = true :=
  pollDriver_all k h (by cases k <;> rfl) fun _ => driver_of_report

/-- The handler as its operations up to the drivers. -/
theorem interruptHandler_eq :
    interruptHandler = .op .xhciIsSome fun b => if b = true then
        .op (.lock .xhci .interruptHandler) fun _ => .op .pollEventRing fun _ => .op (.unlock .xhci) fun _ =>
          pollKeyboard >>= fun _ => pollMouse
      else pollKeyboard >>= fun _ => pollMouse := rfl

/-- The handler acts on the oldest unread event once `XHCI_INSTANCE` is set, then runs the drivers. -/
theorem handler_driven {s s' : Kernel} (h : runToEnd interruptHandler s = some ((), s')) :
    Driven (if s.xhci.isSome then s.pollEventRing else s) s' := by
  have hd : (pollKeyboard >>= fun _ => pollMouse).All fun o => o.driver = true :=
    (pollDriver_driver .keyboard handleKeyboardReport_report).bind fun _ =>
      pollDriver_driver .mouse handleMouseReport_report
  rw [interruptHandler_eq, runToEnd_op] at h
  change runToEnd (if s.xhci.isSome = true then _ else _) s = _ at h
  split at h
  · rename_i hx
    rw [if_pos hx, runToEnd_op, Option.bind_eq_some_iff] at *
    obtain ⟨⟨⟨⟩, s₁⟩, hl, h⟩ := h
    rw [Kernel.exec] at hl
    split at hl
    · cases hl
    · cases hl
      refine Driven.trans ?_ (runToEnd_driven hd h)
      exact { Driven.refl s.pollEventRing with registry := rfl, armed := { Armed.refl s.pollEventRing with } }
  · rename_i hx
    rw [if_neg hx]
    exact runToEnd_driven hd h

/-! ## Submission under the lock -/

/-- The operations that `withXhci` puts around its body. -/
def Op.bracket : Op → Bool
  | .cli | .sti | .lock _ _ | .unlock _ => true
  | _ => false

/-- `withXhci` does what its body does, for assertions that the bracket keeps. -/
theorem triple_withXhci {R : Rules} {P P' : Kernel → Prop} {site : Site} {body : KProg Unit}
    (hs : (machine R).Stable P) (hs' : (machine R).Stable P')
    (hf : ∀ o s r s', o.bracket = true → s.exec o = some (r, s') → P s → P s')
    (hf' : ∀ o s r s', o.bracket = true → s.exec o = some (r, s') → P' s → P' s')
    (hb : (machine R).Triple P body fun _ => P') : (machine R).Triple P (withXhci site body) fun _ => P' := by
  refine Machine.triple_keep hs (fun s r s' h he => hf .cli s r s' rfl he h) fun _ =>
    Machine.triple_keep hs (fun s r s' h he => hf (.lock .xhci site) s r s' rfl he h) fun _ => ?_
  show (machine R).Triple P (body >>= fun _ => unlock .xhci >>= fun _ => sti) _
  refine Machine.triple_bind hb fun _ => ?_
  refine Machine.triple_keep hs' (fun s r s' h he => hf' (.unlock .xhci) s r s' rfl he h) fun _ =>
    Machine.triple_keep hs' (fun s r s' h he => hf' .sti s r s' rfl he h) fun _ => ?_
  exact Machine.triple_ret hs' fun _ h => h

end Octagram.Usb

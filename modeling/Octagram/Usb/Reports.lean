/-
What the handler does with one report, as a whole: the event is taken off the queue, `handle_report`
of one driver reads that driver's buffer, and that driver's ring gets its next TRB (`HandledBy`).
The driver is the one whose endpoint the atomics name (`Globals.target`), so what the handler did is
known from the next event alone (`handler_cases`): it is for no driver, for one without a state, or
a report that is handled.
-/
import Octagram.Usb.Drivers

namespace Octagram.Usb

open Octagram.Lib

/-! ## One report -/

/-- The bytes in the driver's report buffer. -/
def Kernel.report (s : Kernel) (st : DriverState) : List UInt8 :=
  (List.range 8).map fun i => s.ram (st.reportBufVirt + i)

/-- The characters of the keys that were not held before. -/
def typed (lastKeycodes : List UInt8) (modifier : UInt8) (keycodes : List UInt8) : List Char :=
  keycodes.filterMap fun kc => if kc = 0 ∨ kc ∈ lastKeycodes then none else hidKeycodeToAscii kc modifier

/-- What `handle_report` makes of a report; `none` where it panics, and where there is no driver. -/
def Kernel.handleReport (s : Kernel) (report : List UInt8) : DeviceKind → Option Kernel
  | .keyboard => s.kbd.map fun st => { s with
      console := s.console ++ typed st.lastKeycodes (report.headD 0) (report.drop 2)
      kbd := some { st with lastKeycodes := report.drop 2 } }
  | .mouse => s.mouse.bind fun st =>
      match addI32 st.posX (asI8 (report.getD 1 0)), addI32 st.posY (asI8 (report.getD 2 0)) with
      | some x, some y => some { s with
          console := s.console ++ mouseText st.posX st.posY st.lastButtons report
          mouse := some { st with posX := x, posY := y, lastButtons := report.getD 0 0 } }
      | _, _ => none

/-- The report in its buffer does not take the mouse out of the range of `i32`. -/
def Kernel.InRange (s : Kernel) : DeviceKind → Prop
  | .keyboard => True
  | .mouse => ∀ st, s.mouse = some st →
      (addI32 st.posX (asI8 ((s.report st.toDriverState).getD 1 0))).isSome = true ∧
      (addI32 st.posY (asI8 ((s.report st.toDriverState).getD 2 0))).isSome = true

/-- `poll_*` took its pending flag back. -/
def Kernel.clearing (s : Kernel) (k : DeviceKind) : Kernel := { s with globals := s.globals.storeFlag k.pending false }

/-- `poll_event_ring` acted on the next event, a report, and `poll_*` took its pending flag back. -/
def Kernel.taken (s : Kernel) (k : DeviceKind) : Kernel := s.pollEventRing.clearing k

/-- The handler took one report of this driver, and did nothing else. -/
def HandledBy (k : DeviceKind) (st : DriverState) (s s' : Kernel) : Prop :=
  ∃ t, (s.taken k).handleReport (s.report st) k = some t ∧ s' = t.enqueueReport k

/-- `handle_report`. -/
def handleReportOf : DeviceKind → List UInt8 → KProg Unit
  | .keyboard => handleKeyboardReport
  | .mouse => handleMouseReport

/-- `poll_keyboard` or `poll_mouse`. -/
def pollOf (k : DeviceKind) : KProg Unit := pollDriver k (handleReportOf k)

/-! ## Locks in the handler -/

section Locking

variable {α : Type} {s : Kernel} {l : Lock} {site : Site}

/-- A lock is taken. -/
def Kernel.locking (s : Kernel) (l : Lock) : Kernel := { s with held := Function.update s.held l true }

/-- It is given back. -/
def Kernel.unlocking (s : Kernel) (l : Lock) : Kernel := { s with held := Function.update s.held l false }

theorem update_free (h : s.held l = false) : Function.update (Function.update s.held l true) l false = s.held := by
  rw [Function.update_idem, ← h, Function.update_eq_self]

theorem unlocking_locking (h : s.held l = false) : (s.locking l).unlocking l = s :=
  congrArg (fun held => { s with held := held }) (update_free h)

theorem locking_held {l' : Lock} (h : l' ≠ l) : (s.locking l).held l' = s.held l' := Function.update_of_ne h _ _

theorem runToEnd_lock (k : Ret (.lock l site) → KProg α) :
    runToEnd (.op (.lock l site) k) s = if s.held l then none else runToEnd (k ()) (s.locking l) := by
  rw [runToEnd_op, Kernel.exec]
  cases s.held l <;> rfl

theorem runToEnd_unlock (k : Ret (.unlock l) → KProg α) :
    runToEnd (.op (.unlock l) k) s = runToEnd (k ()) (s.unlocking l) := by
  rw [runToEnd_op]
  rfl

theorem lock_xhci_ne (k : DeviceKind) : Lock.xhci ≠ k.lock := by cases k <;> nofun

end Locking

/-! ## `handle_report` and `arm_next_report` -/

section Report

variable {s : Kernel} {k : DeviceKind} {st : DriverState}

theorem printKeys_runs (last : List UInt8) (modifier : UInt8) (codes : List UInt8) (s : Kernel) :
    runToEnd (printKeys last modifier codes) s =
      some ((), { s with console := s.console ++ typed last modifier codes }) := by
  induction codes generalizing s with
  | nil =>
    rw [typed, List.filterMap_nil, List.append_nil]
    rfl
  | cons kc rest ih =>
    unfold printKeys
    by_cases hc : kc = 0 ∨ kc ∈ last
    · have ht : typed last modifier (kc :: rest) = typed last modifier rest := by
        unfold typed
        rw [List.filterMap_cons, if_pos hc]
      rw [if_pos hc, ht]
      exact ih s
    · rw [if_neg hc]
      cases ha : hidKeycodeToAscii kc modifier with
      | none =>
        have ht : typed last modifier (kc :: rest) = typed last modifier rest := by
          unfold typed
          rw [List.filterMap_cons, if_neg hc, ha]
        rw [ht]
        exact ih s
      | some ch =>
        have ht : typed last modifier (kc :: rest) = ch :: typed last modifier rest := by
          unfold typed
          rw [List.filterMap_cons, if_neg hc, ha]
        rw [ht]
        refine (ih { s with console := s.console ++ [ch] }).trans ?_
        exact congrArg (fun c => some ((), { s with console := c })) (List.append_cons _ _ _).symm

theorem printText_runs (text : List Char) (s : Kernel) :
    runToEnd (printText text) s = some ((), { s with console := s.console ++ text }) := by
  induction text generalizing s with
  | nil =>
    show some ((), s) = some ((), { s with console := s.console ++ [] })
    rw [List.append_nil]
  | cons c rest ih =>
    refine (runToEnd_op _ _ _).trans ?_
    refine (ih { s with console := s.console ++ [c] }).trans ?_
    exact congrArg (fun c => some ((), { s with console := c })) (List.append_cons _ _ _).symm

/-- `handle_report` gives its lock back, and otherwise is what `Kernel.handleReport` says. -/
theorem handleReport_runs (hl : s.held k.lock = false) (hd : (s.driver k).isSome = true) (report : List UInt8) :
    runToEnd (handleReportOf k report) s = (s.handleReport report k).map fun t => ((), t) := by
  cases k with
  | keyboard =>
    obtain ⟨kbd, hk⟩ := Option.isSome_iff_exists.1 ((Option.isSome_map ..).symm.trans hd)
    refine (runToEnd_lock _).trans ?_
    rw [if_neg (by rw [show s.held .kbd = false from hl]; nofun)]
    refine (runToEnd_op _ _ _).trans ?_
    dsimp only [Kernel.exec, Option.bind, Prog.bind]
    rw [Kernel.handleReport, show (s.locking .kbd).kbd = some kbd from hk, hk]
    refine (runToEnd_bind _ _ _).trans ?_
    rw [printKeys_runs]
    refine (runToEnd_op _ _ _).trans ?_
    refine (runToEnd_unlock _).trans ?_
    show some ((), ({ s with
      held := Function.update (Function.update s.held .kbd true) .kbd false
      console := s.console ++ typed kbd.lastKeycodes (report.headD 0) (report.drop 2)
      kbd := s.kbd.map fun st => { st with lastKeycodes := report.drop 2 } } : Kernel)) = _
    rw [update_free (l := .kbd) hl, hk]
    rfl
  | mouse =>
    obtain ⟨mouse, hm⟩ := Option.isSome_iff_exists.1 ((Option.isSome_map ..).symm.trans hd)
    refine (runToEnd_lock _).trans ?_
    rw [if_neg (by rw [show s.held .mouse = false from hl]; nofun)]
    refine (runToEnd_op _ _ _).trans ?_
    dsimp only [Kernel.exec, Option.bind, Prog.bind]
    rw [Kernel.handleReport, show (s.locking .mouse).mouse = some mouse from hm, hm]
    dsimp only [Option.bind]
    -- the two additions are checked, and nothing was written before them
    cases addI32 mouse.posX (asI8 (report.getD 1 0)) with
    | none => rfl
    | some x =>
      cases addI32 mouse.posY (asI8 (report.getD 2 0)) with
      | none => rfl
      | some y =>
        refine (runToEnd_bind _ _ _).trans ?_
        rw [printText_runs]
        refine (runToEnd_op _ _ _).trans ?_
        refine (runToEnd_unlock _).trans ?_
        show some ((), ({ s with
          held := Function.update (Function.update s.held .mouse true) .mouse false
          console := s.console ++ mouseText mouse.posX mouse.posY mouse.lastButtons report
          mouse := s.mouse.map fun st => { st with posX := x, posY := y, lastButtons := report.getD 0 0 } }
            : Kernel)) = _
        rw [update_free (l := .mouse) hl, hm]
        rfl

/-- It ends only where its lock was free. -/
theorem handleReport_free {s' : Kernel} {report : List UInt8}
    (h : runToEnd (handleReportOf k report) s = some ((), s')) : s.held k.lock = false := by
  by_contra hl
  have hl : s.held k.lock = true := (Bool.not_eq_false _).mp hl
  cases k with
  | keyboard =>
    rw [show handleReportOf .keyboard report = handleKeyboardReport report from rfl, handleKeyboardReport] at h
    change runToEnd (.op (.lock .kbd (.handleReport .keyboard)) _) s = _ at h
    rw [runToEnd_lock, show s.held .kbd = true from hl] at h
    cases h
  | mouse =>
    rw [show handleReportOf .mouse report = handleMouseReport report from rfl, handleMouseReport] at h
    change runToEnd (.op (.lock .mouse (.handleReport .mouse)) _) s = _ at h
    rw [runToEnd_lock, show s.held .mouse = true from hl] at h
    cases h

theorem enqueueReport_held (s : Kernel) (held : Lock → Bool) (k : DeviceKind) :
    Kernel.enqueueReport { s with held := held } k = { s.enqueueReport k with held := held } := by
  unfold Kernel.enqueueReport
  rw [show Kernel.driver { s with held := held } k = s.driver k by cases k <;> rfl]
  cases s.driver k with
  | none => rfl
  | some st => cases k <;> rfl

/-- `arm_next_report` gives its locks back, and otherwise is one step. -/
theorem armNextReport_runs (hl : s.held k.lock = false) (hx : s.held .xhci = false) (hd : (s.driver k).isSome = true)
    (hi : s.xhci.isSome = true) : runToEnd (armNextReport k) s = some ((), s.enqueueReport k) := by
  obtain ⟨st, hst⟩ := Option.isSome_iff_exists.1 hd
  obtain ⟨x, hxhci⟩ := Option.isSome_iff_exists.1 hi
  have hx' : (s.locking k.lock).held .xhci = false := (locking_held (lock_xhci_ne k)).trans hx
  have hst' : (s.locking k.lock).driver k = some st := by cases k <;> exact hst
  refine (runToEnd_lock _).trans ?_
  rw [if_neg (by rw [hl]; nofun)]
  refine (runToEnd_op _ _ _).trans ?_
  dsimp only [Kernel.exec, Option.bind, Prog.bind]
  rw [hst']
  refine (runToEnd_lock _).trans ?_
  rw [if_neg (by rw [hx']; nofun)]
  refine (runToEnd_op _ _ _).trans ?_
  show Option.bind (Option.map _ s.xhci) _ = _
  rw [hxhci]
  refine (runToEnd_op _ _ _).trans ?_
  refine (runToEnd_unlock _).trans ?_
  -- the two locks are given back as they were taken, around one step
  show some ((), (((s.locking k.lock).locking .xhci).enqueueReport k |>.unlocking .xhci).unlocking k.lock) = _
  rw [show ((s.locking k.lock).locking .xhci).enqueueReport k = _ from enqueueReport_held s _ k]
  show some ((), ({ s.enqueueReport k with
    held := Function.update (Function.update ((s.locking k.lock).locking .xhci).held .xhci false) k.lock false }
      : Kernel)) = _
  rw [show Function.update ((s.locking k.lock).locking .xhci).held .xhci false = _ from update_free hx',
    show Function.update (s.locking k.lock).held k.lock false = _ from update_free hl, ← enqueueReport_held]

/-- `handle_report` changes what it keeps between two reports, and the console. -/
theorem handleReport_frame {t : Kernel} {report : List UInt8} (h : s.handleReport report k = some t) :
    t.held = s.held ∧ t.xhci = s.xhci ∧ t.globals = s.globals ∧ t.hw = s.hw ∧ t.activePorts = s.activePorts ∧
    ∀ k', t.driver k' = s.driver k' := by
  cases k with
  | keyboard =>
    obtain ⟨st, hst, rfl⟩ := Option.map_eq_some_iff.1 h
    refine ⟨rfl, rfl, rfl, rfl, rfl, fun k' => ?_⟩
    cases k' with
    | keyboard =>
      unfold Kernel.driver
      rw [hst]
      rfl
    | mouse => rfl
  | mouse =>
    obtain ⟨st, hst, h⟩ := Option.bind_eq_some_iff.1 h
    split at h
    · cases h
      refine ⟨rfl, rfl, rfl, rfl, rfl, fun k' => ?_⟩
      cases k' with
      | keyboard => rfl
      | mouse =>
        unfold Kernel.driver
        rw [hst]
        rfl
    · cases h

/-- `handle_report` does not panic. -/
theorem handleReport_some (hd : s.driver k = some st) (hr : s.InRange k) :
    ∃ t, s.handleReport (s.report st) k = some t := by
  cases k with
  | keyboard =>
    obtain ⟨kbd, hk, -⟩ := Option.map_eq_some_iff.1 hd
    unfold Kernel.handleReport
    rw [hk]
    exact ⟨_, rfl⟩
  | mouse =>
    obtain ⟨mouse, hm, rfl⟩ := Option.map_eq_some_iff.1 hd
    obtain ⟨hx, hy⟩ := hr mouse hm
    obtain ⟨x, hx⟩ := Option.isSome_iff_exists.1 hx
    obtain ⟨y, hy⟩ := Option.isSome_iff_exists.1 hy
    unfold Kernel.handleReport
    rw [hm]
    show ∃ t, (match addI32 mouse.posX _, addI32 mouse.posY _ with | some x, some y => _ | _, _ => _) = some t
    rw [hx, hy]
    exact ⟨_, rfl⟩

/-! ## `poll_keyboard` and `poll_mouse` -/

theorem clearing_idle (h : s.globals.flag k.pending = false) : s.clearing k = s := by
  have hf : Function.update s.globals.flag k.pending false = s.globals.flag := by
    rw [← h, Function.update_eq_self]
  exact congrArg (fun f => { s with globals := ⟨f, s.globals.reg⟩ }) hf

/-- The rest of `poll_*`, once the state was read. -/
def servePending (k : DeviceKind) : Option DriverState → KProg Unit
  | none => pure ()
  | some st => readBytes st.reportBufVirt 8 >>= fun report => handleReportOf k report >>= fun _ => armNextReport k

theorem pollOf_eq : pollOf k = .op (.swapFlag k.pending false) fun pending => if pending = true then
    .op (.lock k.lock (.pollDriver k)) fun _ => .op (.getDriver k) fun st => .op (.unlock k.lock) fun _ =>
      servePending k st
  else .ret () := by
  refine congrArg (Prog.op _) (funext fun pending => ?_)
  refine congrArg (fun p => if pending = true then p else _) ?_
  refine congrArg (Prog.op _)
    (funext fun _ => congrArg (Prog.op _) (funext fun st => congrArg (Prog.op _) (funext fun _ => ?_)))
  cases st <;> rfl

theorem pollOf_idle (h : s.globals.flag k.pending = false) : runToEnd (pollOf k) s = some ((), s) := by
  rw [pollOf_eq, runToEnd_op]
  show runToEnd (if s.globals.flag k.pending = true then _ else _) (s.clearing k) = _
  rw [if_neg (by rw [h]; nofun), clearing_idle h]
  rfl

/-- Once the lock of the driver was taken and given back. -/
theorem pollOf_pending (h : s.globals.flag k.pending = true) : runToEnd (pollOf k) s =
    if s.held k.lock then none else runToEnd (servePending k (s.driver k)) (s.clearing k) := by
  have hd : ((s.clearing k).locking k.lock).driver k = s.driver k := by cases k <;> rfl
  rw [pollOf_eq, runToEnd_op]
  show runToEnd (if s.globals.flag k.pending = true then _ else _) (s.clearing k) = _
  rw [if_pos h, runToEnd_lock]
  show (if s.held k.lock then _ else _) = _
  by_cases hl : s.held k.lock = true
  · rw [if_pos hl, if_pos hl]
  · rw [if_neg hl, if_neg hl, runToEnd_op]
    show runToEnd (.op (.unlock k.lock) fun _ => servePending k (((s.clearing k).locking k.lock).driver k)) _ = _
    rw [runToEnd_unlock, hd, unlocking_locking (s := s.clearing k) ((Bool.not_eq_true _).mp hl)]

theorem pollOf_none (h : s.globals.flag k.pending = true) (hd : s.driver k = none) : runToEnd (pollOf k) s =
    if s.held k.lock then none else some ((), s.clearing k) := by
  rw [pollOf_pending h, hd]
  rfl

theorem pollOf_report (h : s.globals.flag k.pending = true) (hd : s.driver k = some st) (hi : s.xhci.isSome = true)
    (hx : s.held .xhci = false) : runToEnd (pollOf k) s =
      if s.held k.lock then none
      else ((s.clearing k).handleReport (s.report st) k).map fun t => ((), t.enqueueReport k) := by
  rw [pollOf_pending h, hd]
  by_cases hl : s.held k.lock = true
  · rw [if_pos hl, if_pos hl]
  · rw [if_neg hl, if_neg hl]
    have hd' : (s.clearing k).driver k = some st := by cases k <;> exact hd
    refine (runToEnd_op _ _ _).trans ?_
    show runToEnd (handleReportOf k (s.report st) >>= fun _ => armNextReport k) (s.clearing k) = _
    have hr := handleReport_runs (s := s.clearing k) ((Bool.not_eq_true _).mp hl) (by rw [hd']; rfl) (s.report st)
    rw [runToEnd_bind, hr]
    cases ht : (s.clearing k).handleReport (s.report st) k with
    | none => rfl
    | some t =>
      -- the report leaves the locks and the driver as they were, so the next one can be armed
      obtain ⟨hheld, hxhci, -, -, -, hdriver⟩ := handleReport_frame ht
      refine armNextReport_runs ?_ ?_ ?_ ?_
      · rw [hheld]
        exact (Bool.not_eq_true _).mp hl
      · rw [hheld]
        exact hx
      · rw [hdriver, hd']
        rfl
      · rw [hxhci]
        exact hi

end Report

/-! ## The handler -/

/-- The driver whose report `poll_event_ring` takes an event for. -/
def Globals.target (g : Globals) (t : Trb) : Option DeviceKind :=
  if t.trbType = 32 then
    if g.KbdRoute t.slotId t.endpointId then some .keyboard
    else if g.MouseRoute t.slotId t.endpointId then some .mouse
    else none
  else none

/-- The other class. -/
def DeviceKind.other : DeviceKind → DeviceKind
  | .keyboard => .mouse
  | .mouse => .keyboard

theorem other_ne (k : DeviceKind) : k.other ≠ k := by cases k <;> nofun

/-- A Transfer Event of an endpoint that one driver's atomics name. -/
theorem target_of_route {g : Globals} {t : Trb} {k : DeviceKind} (ht : t.trbType = 32)
    (hr : g.Route k t.slotId t.endpointId) (ho : ¬ g.Route k.other t.slotId t.endpointId) : g.target t = some k := by
  unfold Globals.target
  rw [if_pos ht]
  cases k with
  | keyboard => exact if_pos hr
  | mouse => exact (if_neg ho).trans (if_pos hr)

/-- The driver for the next event. -/
def Kernel.target (s : Kernel) : Option DeviceKind := s.hw.events.head?.bind fun e => s.globals.target e.trb

theorem storeFlag_pending (g : Globals) (k k' : DeviceKind) :
    (g.storeFlag k'.pending true).flag k.pending = true ↔ some k' = some k ∨ g.flag k.pending = true := by
  by_cases hk : k' = k
  · subst hk
    exact ⟨fun _ => .inl rfl, fun _ => Function.update_self _ _ _⟩
  · rw [storeFlag_other (show k.pending ≠ k'.pending by cases k <;> cases k' <;> first | exact absurd rfl hk | nofun)]
    exact ⟨.inr, fun h => h.resolve_left fun he => hk (Option.some.inj he)⟩

theorem storeFlag_elsewhere (g : Globals) {f : Flag} (b : Bool) (h : ∀ k : DeviceKind, k.pending ≠ f) (k : DeviceKind) :
    (g.storeFlag f b).flag k.pending = true ↔ none = some k ∨ g.flag k.pending = true := by
  rw [storeFlag_other (h k)]
  exact ⟨.inr, fun h => h.resolve_left nofun⟩

theorem dispatch_pending_iff (g : Globals) (t : Trb) (k : DeviceKind) :
    (g.dispatch t).flag k.pending = true ↔ g.target t = some k ∨ g.flag k.pending = true := by
  unfold Globals.dispatch Globals.target
  split
  · rename_i ht
    rw [if_neg (by rw [ht]; decide)]
    exact storeFlag_elsewhere g true (fun k => by cases k <;> nofun) k
  · rename_i ht
    rw [if_neg (by rw [ht]; decide)]
    exact storeFlag_elsewhere (Globals.storeReg _ _ _) true (fun k => by cases k <;> nofun) k
  · rename_i ht
    rw [if_pos ht]
    split
    · exact storeFlag_pending (g.storeReg .kbdReportLen t.residualLength) k .keyboard
    · split
      · exact storeFlag_pending (g.storeReg .mouseReportLen t.residualLength) k .mouse
      · exact storeFlag_elsewhere (Globals.storeReg _ _ _) true (fun k => by cases k <;> nofun) k
  · rename_i ht
    rw [if_neg ht]
    exact ⟨.inr, fun h => h.resolve_left nofun⟩

section Handler

variable {s s' : Kernel} {k : DeviceKind} {st : DriverState}

/-- With no report waiting, the flag that `poll_event_ring` leaves is that of the event's driver. -/
theorem poll_pending (hq : ∀ k : DeviceKind, s.globals.flag k.pending = false) (k : DeviceKind) :
    s.pollEventRing.globals.flag k.pending = true ↔ s.target = some k := by
  have hk : ¬ s.globals.flag k.pending = true := by
    rw [hq k]
    nofun
  show (pollQueue Event.trb s.hw.events s.globals).2.flag k.pending = true ↔ _
  unfold Kernel.target
  cases s.hw.events with
  | nil => exact ⟨fun h => absurd h hk, nofun⟩
  | cons e rest => exact (dispatch_pending_iff s.globals e.trb k).trans ⟨fun h => h.resolve_right hk, .inl⟩

/-- When at most one driver has a report, the two `poll_*` are that driver's. -/
theorem drivers_run (hq : ∀ k', k' ≠ k → s.globals.flag k'.pending = false) :
    runToEnd (pollKeyboard >>= fun _ => pollMouse) s = runToEnd (pollOf k) s := by
  rw [runToEnd_bind]
  cases k with
  | keyboard =>
    cases hr : runToEnd pollKeyboard s with
    | none => exact hr.symm
    | some r =>
      have hm := (pollDriver_clears handleKeyboardReport_report hr).2 DeviceKind.mouse.pending (hq .mouse nofun)
      exact (pollOf_idle (k := .mouse) hm).trans hr.symm
  | mouse =>
    rw [show runToEnd pollKeyboard s = some ((), s) from pollOf_idle (hq .keyboard nofun)]
    rfl

theorem handler_runs (hi : s.xhci.isSome = true) (hx : s.held .xhci = false) :
    runToEnd interruptHandler s = runToEnd (pollKeyboard >>= fun _ => pollMouse) s.pollEventRing := by
  rw [interruptHandler_eq, runToEnd_op]
  show runToEnd (if s.xhci.isSome = true then _ else _) s = _
  rw [if_pos hi, runToEnd_lock, hx]
  refine (runToEnd_op _ _ _).trans ?_
  show runToEnd (.op (.unlock .xhci) fun _ => pollKeyboard >>= fun _ => pollMouse) (s.locking .xhci).pollEventRing = _
  rw [runToEnd_unlock]
  exact congrArg _ (unlocking_locking (s := s.pollEventRing) hx)

theorem handler_xhci_free (hi : s.xhci.isSome = true) (h : runToEnd interruptHandler s = some ((), s')) :
    s.held .xhci = false := by
  rw [interruptHandler_eq, runToEnd_op] at h
  change runToEnd (if s.xhci.isSome = true then _ else _) s = _ at h
  rw [if_pos hi, runToEnd_lock] at h
  split at h
  · cases h
  · rename_i hx
    exact (Bool.not_eq_true _).mp hx

/-- The next event is for no driver. -/
theorem handler_other (hi : s.xhci.isSome = true) (hq : ∀ k : DeviceKind, s.globals.flag k.pending = false)
    (hx : s.held .xhci = false) (ht : s.target = none) : runToEnd interruptHandler s = some ((), s.pollEventRing) := by
  have hp : ∀ k : DeviceKind, s.pollEventRing.globals.flag k.pending = false := fun k => by
    rw [← Bool.not_eq_true, poll_pending hq k, ht]
    nofun
  rw [handler_runs hi hx, drivers_run (k := .keyboard) fun k' _ => hp k', pollOf_idle (hp .keyboard)]

/-- The next event is for a driver. -/
theorem handler_target (hi : s.xhci.isSome = true) (hq : ∀ k : DeviceKind, s.globals.flag k.pending = false)
    (hx : s.held .xhci = false) (ht : s.target = some k) : runToEnd interruptHandler s =
      if s.held k.lock then none
      else match s.driver k with
        | none => some ((), s.taken k)
        | some st => ((s.taken k).handleReport (s.report st) k).map fun t => ((), t.enqueueReport k) := by
  have hp : s.pollEventRing.globals.flag k.pending = true := (poll_pending hq k).2 ht
  have hother : ∀ k', k' ≠ k → s.pollEventRing.globals.flag k'.pending = false := fun k' hk => by
    rw [← Bool.not_eq_true, poll_pending hq k', ht]
    rintro ⟨⟩
    exact hk rfl
  have hdriver : s.pollEventRing.driver k = s.driver k := by cases k <;> rfl
  rw [handler_runs hi hx, drivers_run hother]
  cases hd : s.driver k with
  | none => exact pollOf_none hp (hdriver.trans hd)
  | some st => exact pollOf_report hp (hdriver.trans hd) hi hx

/-- What the handler did, by the driver of the next event. -/
theorem handler_cases (hi : s.xhci.isSome = true) (hq : ∀ k : DeviceKind, s.globals.flag k.pending = false)
    (h : runToEnd interruptHandler s = some ((), s')) :
    (s.target = none ∧ s' = s.pollEventRing) ∨
    ∃ k, s.target = some k ∧
      ((s.driver k = none ∧ s' = s.taken k) ∨ ∃ st, s.driver k = some st ∧ HandledBy k st s s') := by
  have hx := handler_xhci_free hi h
  cases ht : s.target with
  | none =>
    rw [handler_other hi hq hx ht] at h
    cases h
    exact .inl ⟨rfl, rfl⟩
  | some k =>
    refine .inr ⟨k, rfl, ?_⟩
    rw [handler_target hi hq hx ht] at h
    split at h
    · cases h
    · cases hd : s.driver k with
      | none =>
        rw [hd] at h
        cases h
        exact .inl ⟨rfl, rfl⟩
      | some st =>
        rw [hd] at h
        obtain ⟨t, hr, he⟩ := Option.map_eq_some_iff.1 h
        cases he
        exact .inr ⟨st, rfl, t, hr, rfl⟩

end Handler

/-- Boot with a device on the only port, by data. -/
theorem session_booted {ms : List Move} (h : (playToEnd Rules.any ms discoverAndInitHidDevices
    (Kernel.start 1 fun _ => ⟨true, false, 1, 0⟩)).map (fun _ => true) = some true) :
    ∃ hist, UsbSession Rules.any hist
      (stateAfter Rules.any ms discoverAndInitHidDevices (Kernel.start 1 fun _ => ⟨true, false, 1, 0⟩)) := by
  obtain ⟨a, hr, -⟩ := runs_stateAfter _ _ _ (fun _ => true) h
  exact ⟨_, .call (.boot (powerOn_start (by decide) _ fun _ => rfl)) MainCall.discoverAndInitHidDevices hr⟩

end Octagram.Usb

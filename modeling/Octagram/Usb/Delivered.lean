/-
What of a report reaches the user: `poll_event_ring` hands a driver the bare fact that its endpoint
had an event, so `handle_report` reads the whole buffer, whatever the event says of it. Only
delivered bytes count exactly if all that the driver reads were delivered and the transfer
succeeded, or the buffer repeats what the driver has (`input_only_delivered`). What a report does is
a function of the bytes and of what the driver keeps (`Input.next`, by `Receiving.outcome`), in
which every byte that is read has a value that makes a difference (`hidden_key`, `hidden_step`).
-/
import Octagram.Usb.Reports
import Octagram.Usb.Schedule

namespace Octagram.Usb

open Octagram.Lib

/-! ## Definitions -/

/-- What a driver keeps between two reports: the keys listed last, or the position and the buttons. -/
inductive Input
  | keyboard (lastKeycodes : List UInt8)
  | mouse (posX posY : Int) (lastButtons : UInt8)
  deriving DecidableEq

/-- What a driver keeps in a state. -/
def Kernel.input (s : Kernel) : DeviceKind → Option Input
  | .keyboard => s.kbd.map fun st => .keyboard st.lastKeycodes
  | .mouse => s.mouse.map fun st => .mouse st.posX st.posY st.lastButtons

/-- What is printed for a report, and what the driver then keeps; `none` where an addition overflows. -/
def Input.next : Input → List UInt8 → Option (List Char × Input)
  | keyboard lastKeycodes, report =>
    some (typed lastKeycodes (report.headD 0) (report.drop 2), keyboard (report.drop 2))
  | mouse posX posY lastButtons, report =>
    match addI32 posX (asI8 (report.getD 1 0)), addI32 posY (asI8 (report.getD 2 0)) with
    | some x, some y => some (mouseText posX posY lastButtons report, mouse x y (report.getD 0 0))
    | _, _ => none

/-- The handler is about to take the event `e` for this driver, and no report waits. -/
structure Receiving (k : DeviceKind) (st : DriverState) (e : Event) (s : Kernel) : Prop where
  xhci : s.xhci.isSome = true
  quiet : ∀ k : DeviceKind, s.globals.flag k.pending = false
  event : s.hw.events.head? = some e
  target : s.globals.target e.trb = some k
  driver : s.driver k = some st

/-- What was printed between `s` and `s'`. -/
def Kernel.printed (s s' : Kernel) : List Char := s'.console.drop s.console.length

/-- What was printed for a report, and what the driver then keeps. -/
def Kernel.outcome (s s' : Kernel) (k : DeviceKind) : List Char × Option Input := (s.printed s', s'.input k)

/-- Input comes only from delivered data: the outcome is the same for every content of the buffer that agrees on the
bytes delivered, and nothing happens where the transfer failed. -/
structure OnlyDelivered (k : DeviceKind) (st : DriverState) (e : Event) (s s' : Kernel) : Prop where
  visible : ∀ e₂ s₂ s₂', Receiving k st e₂ s₂ → e₂.trb.completionCode = e.trb.completionCode →
    e₂.trb.residualLength = e.trb.residualLength → s₂.input k = s.input k →
    (s₂.report st).take (8 - e.trb.residualLength) = (s.report st).take (8 - e.trb.residualLength) →
    runToEnd interruptHandler s₂ = some ((), s₂') → s₂.outcome s₂' k = s.outcome s' k
  failed : e.trb.completionCode ≠ 1 → e.trb.completionCode ≠ 13 → s.outcome s' k = ([], s.input k)

/-- How many bytes at the end of the buffer `handle_report` does not read. -/
def DeviceKind.unused : DeviceKind → Nat
  | .keyboard => 0
  | .mouse => 5

/-- The report says what the driver already has. -/
def Input.Repeats : Input → List UInt8 → Prop
  | keyboard lastKeycodes, report => report.drop 2 = lastKeycodes
  | mouse _ _ lastButtons, report => report.getD 0 0 = lastButtons ∧ report.getD 1 0 = 0 ∧ report.getD 2 0 = 0

/-! ## One report -/

section Report

variable {s s' t : Kernel} {k : DeviceKind} {st : DriverState} {e : Event} {i : Input} {report : List UInt8}

theorem enqueueReport_shown (s : Kernel) (k k' : DeviceKind) :
    (s.enqueueReport k).console = s.console ∧ (s.enqueueReport k).input k' = s.input k' := by
  unfold Kernel.enqueueReport
  cases hd : s.driver k with
  | none => exact ⟨rfl, rfl⟩
  | some st =>
    cases k <;> cases k' <;>
      simp [Kernel.modifyDriver, Kernel.input, Option.map_map, Function.comp_def]

/-- `handle_report` is `Input.next` on what the driver keeps. -/
theorem handleReport_next (hi : s.input k = some i) (h : s.handleReport report k = some t) :
    ∃ p i', i.next report = some (p, i') ∧ t.input k = some i' ∧ t.console = s.console ++ p := by
  cases k with
  | keyboard =>
    obtain ⟨kbd, hk, rfl⟩ := Option.map_eq_some_iff.1 h
    rw [Kernel.input, hk] at hi
    cases hi
    exact ⟨_, _, rfl, rfl, rfl⟩
  | mouse =>
    obtain ⟨m, hm, h⟩ := Option.bind_eq_some_iff.1 h
    rw [Kernel.input, hm] at hi
    cases hi
    split at h
    · rename_i x y hx hy
      cases h
      refine ⟨mouseText m.posX m.posY m.lastButtons report, _, ?_, rfl, rfl⟩
      simp only [Input.next, hx, hy]
    · cases h

/-- It panics only where an addition overflows. -/
theorem handleReport_isSome (hi : s.input k = some i) : (s.handleReport report k).isSome = (i.next report).isSome := by
  cases k with
  | keyboard =>
    obtain ⟨kbd, hk, rfl⟩ := Option.map_eq_some_iff.1 hi
    simp [Kernel.handleReport, hk, Input.next]
  | mouse =>
    obtain ⟨m, hm, rfl⟩ := Option.map_eq_some_iff.1 hi
    simp only [Kernel.handleReport, hm, Input.next, Option.bind_some]
    cases addI32 m.posX (asI8 (report.getD 1 0)) <;> cases addI32 m.posY (asI8 (report.getD 2 0)) <;> rfl

theorem Receiving.target_eq (h : Receiving k st e s) : s.target = some k := by
  rw [Kernel.target, h.event]
  exact h.target

/-- The locks that the handler takes. -/
def Kernel.Unlocked (s : Kernel) (k : DeviceKind) : Prop := s.held .xhci = false ∧ s.held k.lock = false

theorem Receiving.unlocked (h : Receiving k st e s) (hrun : runToEnd interruptHandler s = some ((), s')) :
    s.Unlocked k := by
  have hx := handler_xhci_free h.xhci hrun
  rw [handler_target h.xhci h.quiet hx h.target_eq] at hrun
  split at hrun
  · cases hrun
  · rename_i hl
    exact ⟨hx, (Bool.not_eq_true _).mp hl⟩

theorem Receiving.runs (h : Receiving k st e s) (hl : s.Unlocked k) : runToEnd interruptHandler s =
    ((s.taken k).handleReport (s.report st) k).map fun t => ((), t.enqueueReport k) := by
  rw [handler_target h.xhci h.quiet hl.1 h.target_eq, hl.2, h.driver]
  rfl

theorem Receiving.input (h : Receiving k st e s) : ∃ i, s.input k = some i := by
  have hd := h.driver
  cases k with
  | keyboard =>
    obtain ⟨kbd, hk, -⟩ := Option.map_eq_some_iff.1 hd
    exact ⟨_, by rw [Kernel.input, hk]; rfl⟩
  | mouse =>
    obtain ⟨m, hm, -⟩ := Option.map_eq_some_iff.1 hd
    exact ⟨_, by rw [Kernel.input, hm]; rfl⟩

theorem taken_shown (s : Kernel) (k k' : DeviceKind) :
    (s.taken k).console = s.console ∧ (s.taken k).input k' = s.input k' := by
  cases k' <;> exact ⟨rfl, rfl⟩

/-- The outcome of a report is what `Input.next` makes of the whole buffer. -/
theorem Receiving.outcome (h : Receiving k st e s) (hi : s.input k = some i)
    (hrun : runToEnd interruptHandler s = some ((), s')) :
    ∃ p i', i.next (s.report st) = some (p, i') ∧ s.outcome s' k = (p, some i') := by
  rw [h.runs (h.unlocked hrun)] at hrun
  obtain ⟨t, ht, he⟩ := Option.map_eq_some_iff.1 hrun
  cases he
  obtain ⟨p, i', hn, ht', hc⟩ := handleReport_next ((taken_shown s k k).2.trans hi) ht
  refine ⟨p, i', hn, Prod.ext ?_ ((enqueueReport_shown t k k).2.trans ht')⟩
  have hcon : (t.enqueueReport k).console = s.console ++ p := (enqueueReport_shown t k k).1.trans hc
  show (t.enqueueReport k).console.drop s.console.length = p
  rw [hcon, List.drop_left]

theorem Receiving.runs_next (h : Receiving k st e s) (hl : s.Unlocked k) (hi : s.input k = some i)
    (hn : (i.next (s.report st)).isSome = true) : ∃ s', runToEnd interruptHandler s = some ((), s') := by
  have hr : ((s.taken k).handleReport (s.report st) k).isSome = true :=
    (handleReport_isSome ((taken_shown s k k).2.trans hi)).trans hn
  obtain ⟨t, ht⟩ := Option.isSome_iff_exists.1 hr
  exact ⟨t.enqueueReport k, by rw [h.runs hl, ht]; rfl⟩

/-! ## Bytes that were not delivered -/

theorem report_length (s : Kernel) (st : DriverState) : (s.report st).length = 8 := by simp [Kernel.report]

/-- Another byte in the report buffer. -/
def Kernel.withByte (s : Kernel) (st : DriverState) (j : Nat) (b : UInt8) : Kernel :=
  { s with ram := s.ram.setByte (st.reportBufVirt + j) b }

theorem report_withByte (s : Kernel) (st : DriverState) {j : Nat} (b : UInt8) :
    (s.withByte st j b).report st = (s.report st).set j b := by
  refine List.ext_getElem (by simp [Kernel.report]) fun n h1 h2 => ?_
  rw [List.getElem_set]
  simp only [Kernel.report, Kernel.withByte, Ram.setByte, List.getElem_map, List.getElem_range]
  by_cases hn : j = n
  · rw [if_pos (by omega), if_pos hn]
  · rw [if_neg (by omega), if_neg hn]

theorem Receiving.withByte (h : Receiving k st e s) (j : Nat) (b : UInt8) :
    Receiving k st e (s.withByte st j b) ∧ (s.withByte st j b).input k = s.input k := by
  have hd := h.driver
  refine ⟨⟨h.xhci, h.quiet, h.event, h.target, ?_⟩, ?_⟩
  · cases k <;> exact hd
  · cases k <;> rfl

/-- If only delivered bytes count, a change of another one changes nothing. -/
theorem OnlyDelivered.set {j : Nat} {b : UInt8} (hd : OnlyDelivered k st e s s') (h : Receiving k st e s)
    (hi : s.input k = some i) (hrun : runToEnd interruptHandler s = some ((), s')) (hj : 8 - e.trb.residualLength ≤ j)
    (hn : (i.next ((s.report st).set j b)).isSome = true) : i.next ((s.report st).set j b) = i.next (s.report st) := by
  obtain ⟨h₂, hin⟩ := h.withByte j b
  have hi₂ := hin.trans hi
  rw [← report_withByte] at hn ⊢
  obtain ⟨s₂', hrun₂⟩ := h₂.runs_next (h.unlocked hrun) hi₂ hn
  have htake : ((s.withByte st j b).report st).take (8 - e.trb.residualLength) =
    (s.report st).take (8 - e.trb.residualLength) := by
    rw [report_withByte, List.take_set_of_le hj]
  have heq := hd.visible e _ s₂' h₂ rfl rfl hin htake hrun₂
  obtain ⟨p, i', hp, ho⟩ := h.outcome hi hrun
  obtain ⟨p₂, i₂', hp₂, ho₂⟩ := h₂.outcome hi₂ hrun₂
  rw [ho, ho₂] at heq
  cases heq
  rw [hp, hp₂]

/-- The position is an `i32`. -/
def Input.InI32 : Input → Prop
  | keyboard _ => True
  | mouse posX posY _ => (-2 ^ 31 ≤ posX ∧ posX < 2 ^ 31) ∧ -2 ^ 31 ≤ posY ∧ posY < 2 ^ 31

theorem addI32_some {a b x : Int} (h : addI32 a b = some x) : x = a + b ∧ -2 ^ 31 ≤ x ∧ x < 2 ^ 31 := by
  unfold addI32 at h
  split at h
  · cases h
    exact ⟨rfl, ‹_›⟩
  · cases h

@[simp] theorem asI8_zero : asI8 0 = 0 := rfl

theorem asI8_inj {a b : UInt8} (h : asI8 a = asI8 b) : a = b := by
  have ha := a.toNat_lt
  have hb := b.toNat_lt
  refine UInt8.toNat_inj.1 ?_
  unfold asI8 at h
  split at h <;> split at h <;> omega

/-- From any position some other step in y stays within `i32`. -/
theorem exists_other_step {posY : Int} (h : -2 ^ 31 ≤ posY ∧ posY < 2 ^ 31) (b : UInt8) :
    ∃ b', b' ≠ b ∧ (addI32 posY (asI8 b')).isSome = true := by
  have h1 : asI8 1 = 1 := rfl
  have hm : asI8 255 = -1 := rfl
  by_cases hb : b = 0
  · subst hb
    by_cases hy : posY = 2 ^ 31 - 1
    · refine ⟨255, by decide, ?_⟩
      rw [hm, addI32, if_pos (by omega)]
      rfl
    · refine ⟨1, by decide, ?_⟩
      rw [h1, addI32, if_pos (by omega)]
      rfl
  · refine ⟨0, fun h => hb h.symm, ?_⟩
    rw [asI8_zero, addI32, if_pos (by omega)]
    rfl

theorem next_mouse {posX posY x y : Int} {buttons : UInt8} (hx : addI32 posX (asI8 (report.getD 1 0)) = some x)
    (hy : addI32 posY (asI8 (report.getD 2 0)) = some y) : (Input.mouse posX posY buttons).next report =
      some (mouseText posX posY buttons report, .mouse x y (report.getD 0 0)) := by
  simp only [Input.next, hx, hy]

theorem next_mouse_inv {posX posY : Int} {buttons : UInt8} {r : List Char × Input}
    (h : (Input.mouse posX posY buttons).next report = some r) : ∃ x y, addI32 posX (asI8 (report.getD 1 0)) = some x ∧
      addI32 posY (asI8 (report.getD 2 0)) = some y ∧
        r = (mouseText posX posY buttons report, .mouse x y (report.getD 0 0)) := by
  simp only [Input.next] at h
  split at h
  · rename_i x y hx hy
    exact ⟨x, y, hx, hy, (Option.some.inj h).symm⟩
  · cases h

/-- The last byte of the buffer is a key. -/
theorem hidden_key (last : List UInt8) (hl : report.length = 8) :
    ∃ b, (Input.keyboard last).next (report.set 7 b) ≠ (Input.keyboard last).next report := by
  refine ⟨report[7] + 1, fun he => ?_⟩
  have hd : (report.set 7 (report[7] + 1)).drop 2 = report.drop 2 := by
    injection he with he
    injection he with _ he
    injection he
  have h7 := congrArg (fun l => l[5]?) hd
  simp [hl] at h7

/-- The third byte of the buffer is a step of the mouse. -/
theorem hidden_step {posX posY : Int} {buttons : UInt8} (hl : report.length = 8)
    (hr : (Input.mouse posX posY buttons).InI32) (hn : ((Input.mouse posX posY buttons).next report).isSome = true) :
    ∃ b, ((Input.mouse posX posY buttons).next (report.set 2 b)).isSome = true ∧
      (Input.mouse posX posY buttons).next (report.set 2 b) ≠ (Input.mouse posX posY buttons).next report := by
  obtain ⟨r, hr'⟩ := Option.isSome_iff_exists.1 hn
  obtain ⟨x, y, hx, hy, rfl⟩ := next_mouse_inv hr'
  obtain ⟨b, hb, hsome⟩ := exists_other_step hr.2 (report.getD 2 0)
  obtain ⟨y', hy'⟩ := Option.isSome_iff_exists.1 hsome
  have h1 : (report.set 2 b).getD 1 0 = report.getD 1 0 := by simp [List.getD_eq_getElem?_getD]
  have h2 : (report.set 2 b).getD 2 0 = b := by simp [List.getD_eq_getElem?_getD, hl]
  have hnext : (Input.mouse posX posY buttons).next (report.set 2 b) =
      some (mouseText posX posY buttons (report.set 2 b), .mouse x y' ((report.set 2 b).getD 0 0)) :=
    next_mouse (by rw [h1]; exact hx) (by rw [h2]; exact hy')
  refine ⟨b, by rw [hnext]; rfl, fun he => hb (asI8_inj ?_)⟩
  rw [hnext, hr'] at he
  injection he with he
  injection he with _ he
  injection he with _ he _
  have h3 := (addI32_some hy).1
  have h4 := (addI32_some hy').1
  omega

/-- Bytes that `handle_report` does not read do not matter. -/
theorem next_congr {report' : List UInt8} (hl : report.length = 8) (hl' : report'.length = 8) {n : Nat}
    (hn : n ≤ k.unused) (hi : s.input k = some i) (h : report.take (8 - n) = report'.take (8 - n)) :
    i.next report = i.next report' := by
  cases k with
  | keyboard =>
    have h0 : n = 0 := Nat.le_zero.1 hn
    subst h0
    rw [List.take_of_length_le (Nat.le_of_eq hl), List.take_of_length_le (Nat.le_of_eq hl')] at h
    rw [h]
  | mouse =>
    obtain ⟨m, -, rfl⟩ := Option.map_eq_some_iff.1 hi
    have hget : ∀ j, j < 3 → report.getD j 0 = report'.getD j 0 := by
      intro j hj
      have hn : n ≤ 5 := hn
      have he := congrArg (fun l => l[j]?) h
      simp only [List.getElem?_take] at he
      rw [if_pos (by omega), if_pos (by omega)] at he
      rw [List.getD_eq_getElem?_getD, List.getD_eq_getElem?_getD, he]
    simp only [Input.next, mouseText, mouseLines, hget 0 (by omega), hget 1 (by omega), hget 2 (by omega)]

theorem typed_held (modifier : UInt8) (keycodes : List UInt8) : typed keycodes modifier keycodes = [] := by
  refine List.filterMap_eq_nil_iff.2 fun kc hk => ?_
  rw [if_pos (.inr hk)]

/-- A report changes and prints nothing exactly if it repeats what the driver has. -/
theorem next_repeats (hn : (i.next report).isSome = true) : i.next report = some ([], i) ↔ i.Repeats report := by
  cases i with
  | keyboard last =>
    constructor
    · intro h
      injection h with h
      injection h with _ h
      injection h
    · intro h
      unfold Input.Repeats at h
      rw [Input.next, h, typed_held]
  | mouse posX posY buttons =>
    obtain ⟨r, hr⟩ := Option.isSome_iff_exists.1 hn
    obtain ⟨x, y, hx, hy, rfl⟩ := next_mouse_inv hr
    have h3 := (addI32_some hx).1
    have h4 := (addI32_some hy).1
    rw [hr]
    constructor
    · intro h
      injection h with h
      injection h with _ h
      injection h with h5 h6 h7
      exact ⟨h7, asI8_inj (by rw [asI8_zero]; omega), asI8_inj (by rw [asI8_zero]; omega)⟩
    · rintro ⟨h5, h6, h7⟩
      rw [h6, asI8_zero] at h3
      rw [h7, asI8_zero] at h4
      have hlines : mouseLines posX posY buttons report = [] := by
        simp only [mouseLines, h5, h6, h7, asI8_zero, UInt8.xor_self, ne_eq, not_true_eq_false, if_false, or_self,
          List.append_nil]
      rw [mouseText, hlines, h3, h4, h5, Int.add_zero, Int.add_zero]
      rfl

/-- A report reaches the user only as far as it was delivered exactly if the bytes the driver reads all were, and the
transfer succeeded or the buffer repeats what the driver has. -/
theorem input_only_delivered (h : Receiving k st e s) (hi : s.input k = some i) (hr : i.InI32)
    (hrun : runToEnd interruptHandler s = some ((), s')) : OnlyDelivered k st e s s' ↔
      e.trb.residualLength ≤ k.unused ∧
        (e.trb.completionCode = 1 ∨ e.trb.completionCode = 13 ∨ i.Repeats (s.report st)) := by
  have hlen : (s.report st).length = 8 := report_length s st
  obtain ⟨p, i', hnext, hout⟩ := h.outcome hi hrun
  have hsome : (i.next (s.report st)).isSome = true := by rw [hnext]; rfl
  constructor
  · intro hd
    constructor
    · -- else a hidden byte is among those read
      by_contra hres
      cases k with
      | keyboard =>
        obtain ⟨kbd, -, rfl⟩ := Option.map_eq_some_iff.1 hi
        have hres : ¬ e.trb.residualLength ≤ 0 := hres
        obtain ⟨b, hb⟩ := hidden_key kbd.lastKeycodes hlen
        exact hb (hd.set h hi hrun (by omega) rfl)
      | mouse =>
        obtain ⟨m, -, rfl⟩ := Option.map_eq_some_iff.1 hi
        have hres : ¬ e.trb.residualLength ≤ 5 := hres
        obtain ⟨b, hb, hne⟩ := hidden_step hlen hr hsome
        exact hne (hd.set h hi hrun (by omega) hb)
    · -- a failed transfer changes and prints nothing, so the buffer repeats what the driver has
      by_contra hc
      rw [not_or, not_or] at hc
      have hfail := hd.failed hc.1 hc.2.1
      rw [hout, hi] at hfail
      cases hfail
      exact hc.2.2 ((next_repeats hsome).1 hnext)
  · -- conversely, two buffers that agree on the delivered bytes agree on all that is read
    rintro ⟨hres, hc⟩
    refine ⟨fun e₂ s₂ s₂' h₂ hcode hres₂ hin htake hrun₂ => ?_, fun h1 h13 => ?_⟩
    · obtain ⟨p₂, i₂', hnext₂, hout₂⟩ := h₂.outcome (hin.trans hi) hrun₂
      rw [next_congr (report_length s₂ st) hlen hres hi htake, hnext] at hnext₂
      cases hnext₂
      rw [hout₂, hout]
    · have hrep := (hc.resolve_left h1).resolve_left h13
      rw [(next_repeats hsome).2 hrep] at hnext
      cases hnext
      rw [hout, hi]

end Report

/-- Boot with a keyboard on the only port; then `a` is in the report buffer, and the Transfer Event comes. -/
def reportMoves (code : BitVec 32) : List Move :=
  plugIn 14 0 0 1 0x14000 (hidInterface 0 1 0x81) ++ ops 19 ++
    [.dma 0x17000 [0, 0, 4, 0, 0, 0, 0, 0], .complete 4 (transferTrb code 1 3)]

/-- The state after these moves, for a completion code. -/
def reporting (code : BitVec 32) : Kernel :=
  stateAfter Rules.any (reportMoves code) discoverAndInitHidDevices (Kernel.start 1 fun _ => ⟨true, false, 1, 0⟩)

/-- What is to be checked of such a state. -/
theorem receiving_of {s : Kernel} {t : Trb} (h : s.xhci.isSome = true ∧ (∀ k ∈ [DeviceKind.keyboard, .mouse],
    s.globals.flag k.pending = false) ∧ (s.held .xhci = false ∧ s.held .kbd = false) ∧
    s.hw.events.head?.map (·.trb) = some t ∧ s.globals.target t = some .keyboard ∧ s.kbd.isSome = true) :
    ∃ st e kbd, Receiving .keyboard st e s ∧ s.Unlocked .keyboard ∧ e.trb = t ∧ s.kbd = some kbd ∧
      kbd.toDriverState = st := by
  obtain ⟨hx, hq, hl, he, ht, hk⟩ := h
  obtain ⟨e, hev, rfl⟩ := Option.map_eq_some_iff.1 he
  obtain ⟨kbd, hk⟩ := Option.isSome_iff_exists.1 hk
  refine ⟨kbd.toDriverState, e, kbd, ⟨hx, fun k => ?_, hev, ht, ?_⟩, hl, rfl, hk, rfl⟩
  · cases k
    · exact hq _ (by simp)
    · exact hq _ (by simp)
  · rw [Kernel.driver, hk]
    rfl

/-- `input_only_delivered` for the report of a successful transfer. -/
theorem input_only_delivered_success : ∃ hist st e s', UsbSession Rules.any hist (reporting 1) ∧
    Receiving .keyboard st e (reporting 1) ∧ OnlyDelivered .keyboard st e (reporting 1) s' := by
  obtain ⟨hist, hs⟩ := @session_booted (reportMoves 1) (by decide +kernel)
  obtain ⟨st, e, kbd, h, hl, he, hk, -⟩ := @receiving_of (reporting 1) (transferTrb 1 1 3) (by decide +kernel)
  have hi : (reporting 1).input .keyboard = some (.keyboard kbd.lastKeycodes) := by rw [Kernel.input, hk]; rfl
  obtain ⟨s', hrun⟩ := h.runs_next hl hi rfl
  refine ⟨hist, st, e, s', hs, h, (input_only_delivered h hi trivial hrun).2 ⟨?_, .inl ?_⟩⟩
  · rw [he]
    decide
  · rw [he]
    decide

/-- The transfer failed with a USB Transaction Error, and the `a` in the buffer is printed. -/
theorem failed_transfer_types : ∃ hist s st e s', UsbSession Rules.any hist s ∧ Receiving .keyboard st e s ∧
    runToEnd interruptHandler s = some ((), s') ∧ ¬ OnlyDelivered .keyboard st e s s' := by
  obtain ⟨hist, hs⟩ := @session_booted (reportMoves 4) (by decide +kernel)
  obtain ⟨st, e, kbd, h, hl, he, hk, hst⟩ := @receiving_of (reporting 4) (transferTrb 4 1 3) (by decide +kernel)
  have hi : (reporting 4).input .keyboard = some (.keyboard kbd.lastKeycodes) := by rw [Kernel.input, hk]; rfl
  obtain ⟨s', hrun⟩ := h.runs_next hl hi rfl
  refine ⟨hist, reporting 4, st, e, s', hs, h, hrun, fun hd => ?_⟩
  obtain ⟨p, i', hnext, hout⟩ := h.outcome hi hrun
  have hp : p = [] := by
    have := hd.failed (by rw [he]; decide) (by rw [he]; decide)
    rw [hout] at this
    exact congrArg Prod.fst this
  have htyped : (reporting 4).kbd.map
    (fun kbd => typed kbd.lastKeycodes (((reporting 4).report kbd.toDriverState).headD 0)
      (((reporting 4).report kbd.toDriverState).drop 2)) = some ['a'] := by decide +kernel
  rw [hk] at htyped
  subst hst
  cases hnext
  rw [Option.map_some, hp] at htyped
  cases htyped

end Octagram.Usb

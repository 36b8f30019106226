/-
Keys and characters: presses, releases and the boot-protocol reports a keyboard sends for them, with
`handle_report` on each report. It knows a held key only by the previous report, so a press gives
one character in every run in which no key is listed again right after a roll-over report
(`one_character_per_press`), and otherwise a second one (`rollOver_prints_again`). The invariant is
`Remembered`: each held key that was listed is still listed in the last report, or that was a
roll-over, and was counted as its press says.
-/
import Octagram.Usb.Calls
import Octagram.Usb.Reports
import Octagram.Usb.Schedule

namespace Octagram.Usb

open Octagram.Lib

/-! ## Definitions -/

/-- A report of `ErrorRollOver` in all slots. -/
def rollOver : List UInt8 := List.replicate 6 1

/-- The slots of a report: the held keys, each once, in any order, padded with 0; roll-over for more than six. -/
def HidReport (held slots : List UInt8) : Prop :=
  if held.length ≤ 6 then slots.Perm (held ++ List.replicate (6 - held.length) 0) else slots = rollOver

instance (held slots : List UInt8) : Decidable (HidReport held slots) :=
  inferInstanceAs (Decidable (if held.length ≤ 6 then slots.Perm (held ++ List.replicate (6 - held.length) 0)
    else slots = rollOver))

/-- What became of a key since it was pressed: it was listed in a report, the first of these followed a report (or a
start) without it, and how many characters were printed for it. -/
structure Press where
  shown : Bool
  fresh : Bool
  printed : Nat
  deriving DecidableEq, Repr

/-- The keyboard and the driver: the keys held, and for each of them its press. -/
structure Typing where
  kernel : Kernel
  held : List UInt8
  press : UInt8 → Press

/-- `hid_keycode_to_ascii` maps the key. -/
def KeyMapped (key : UInt8) : Prop := ∀ modifier, (hidKeycodeToAscii key modifier).isSome = true

/-- A report that lists the key after `lastKeycodes`. -/
def Press.listed (p : Press) (lastKeycodes : List UInt8) (modifier key : UInt8) (slots : List UInt8) : Press where
  shown := true
  fresh := if p.shown then p.fresh else decide (key ∉ lastKeycodes)
  printed := p.printed + (typed lastKeycodes modifier (slots.filter (· = key))).length

namespace Typing

/-- The keyboard goes down on a key that was up. -/
def pressKey (t : Typing) (key : UInt8) : Typing :=
  { t with held := key :: t.held, press := Function.update t.press key ⟨false, false, 0⟩ }

/-- A held key is let go. -/
def releaseKey (t : Typing) (key : UInt8) : Typing := { t with held := t.held.erase key }

/-- `handle_report` on a report. -/
def report (t : Typing) (modifier reserved : UInt8) (slots : List UInt8) : Option Typing :=
  match t.kernel.kbd, runToEnd (handleReportOf .keyboard (modifier :: reserved :: slots)) t.kernel with
  | some kbd, some ((), s') => some { t with
      kernel := s'
      press := fun key => if key ∈ slots then (t.press key).listed kbd.lastKeycodes modifier key slots
        else t.press key }
  | _, _ => none

/-- Keys go down and up, reports that `C` allows are handled, and the kernel does other things in between. -/
inductive Step (C : Typing → List UInt8 → Prop) : Typing → Typing → Prop
  | press {t : Typing} {key : UInt8} (hk : 4 ≤ key.toNat) (h : key ∉ t.held) : Step C t (t.pressKey key)
  | release {t : Typing} {key : UInt8} (h : key ∈ t.held) : Step C t (t.releaseKey key)
  | report {t t' : Typing} {modifier reserved : UInt8} {slots : List UInt8} (hr : HidReport t.held slots)
      (hc : C t slots)
      (h : t.report modifier reserved slots = some t') : Step C t t'
  | other {t : Typing} {s' : Kernel} (h : s'.kbd.map (·.lastKeycodes) = t.kernel.kbd.map (·.lastKeycodes)) :
      Step C t { t with kernel := s' }

/-- The driver is set up, and no key is held yet. -/
def Start (t : Typing) : Prop := t.kernel.kbd.isSome = true ∧ t.held = []

/-- One character for each press: never two, and one where the key was seen to go down. -/
def OncePerPress (t : Typing) : Prop := ∀ key ∈ t.held, (t.press key).printed ≤ 1 ∧
  ((t.press key).shown = true → (t.press key).fresh = true → KeyMapped key → (t.press key).printed = 1)

/-- Right after a roll-over report, the report lists no mapped key that a report of the same press listed before. -/
def Remembers (t : Typing) (slots : List UInt8) : Prop :=
  t.kernel.kbd.map (·.lastKeycodes) = some rollOver → ∀ key ∈ slots, key ∈ t.held → (t.press key).shown = true →
    ¬ KeyMapped key

end Typing

/-! ## Keycodes -/

/-- Shift changes which character a key gives, not whether it gives one. -/
theorem hidKeycodeToAscii_isSome (key modifier modifier' : UInt8) :
    (hidKeycodeToAscii key modifier).isSome = (hidKeycodeToAscii key modifier').isSome := by
  unfold hidKeycodeToAscii
  dsimp only
  split
  · rfl
  · split
    · rename_i h
      have hlt : key.toNat - 0x1E < 10 := by omega
      have hs : ∀ l : String, l.toList.length = 10 → (l.toList[key.toNat - 0x1E]?).isSome = true := by
        intro l hl
        rw [List.getElem?_eq_getElem (by omega)]
        rfl
      refine (hs _ ?_).trans (hs _ ?_).symm
      · split <;> rfl
      · split <;> rfl
    · rfl

theorem not_mapped {key : UInt8} (h : ¬ KeyMapped key) (modifier : UInt8) : hidKeycodeToAscii key modifier = none := by
  by_contra hn
  refine h fun modifier' => ?_
  rw [hidKeycodeToAscii_isSome key modifier' modifier]
  exact Option.isSome_iff_ne_none.2 hn

/-- A key listed once: it is printed if it was not listed before. -/
theorem typed_one (last : List UInt8) (modifier : UInt8) {key : UInt8} (h0 : key ≠ 0) :
    (typed last modifier [key]).length = if key ∉ last ∧ (hidKeycodeToAscii key modifier).isSome = true then
      1 else 0 := by
  unfold typed
  by_cases hk : key ∈ last
  · simp [hk]
  · cases ha : hidKeycodeToAscii key modifier with
    | none => simp [hk, h0, ha]
    | some c => simp [hk, h0, ha]

/-! ## Reports -/

section Reports

variable {held slots : List UInt8} {key : UInt8}

theorem perm_mem {n : Nat} (hp : slots.Perm (held ++ List.replicate n 0)) (h0 : key ≠ 0) :
    key ∈ slots ↔ key ∈ held := by
  rw [hp.mem_iff, List.mem_append]
  constructor
  · rintro (h | h)
    · exact h
    · exact absurd (List.eq_of_mem_replicate h) h0
  · exact .inl

/-- A held key is listed once. -/
theorem perm_filter {n : Nat} (hp : slots.Perm (held ++ List.replicate n 0)) (hn : held.Nodup) (h0 : key ≠ 0)
    (hk : key ∈ held) : slots.filter (· = key) = [key] := by
  have hz : (List.replicate n (0 : UInt8)).filter (· = key) = [] := by
    refine List.filter_eq_nil_iff.2 fun a ha => ?_
    rw [List.eq_of_mem_replicate ha]
    simpa using Ne.symm h0
  have hh : held.filter (· = key) = [key] := by
    rw [List.filter_eq, List.count_eq_one_of_mem hn hk]
    rfl
  have hf := hp.filter (· = key)
  rw [List.filter_append, hz, List.append_nil, hh] at hf
  exact List.perm_singleton.1 hf

theorem HidReport.cases (h : HidReport held slots) :
    slots = rollOver ∨ ∃ n, slots.Perm (held ++ List.replicate n 0) := by
  unfold HidReport at h
  split at h
  · exact .inr ⟨_, h⟩
  · exact .inl h

/-- What `handle_report` does to the driver, and to the presses of the keys that are listed. -/
theorem Typing.report_eq {t t' : Typing} {modifier reserved : UInt8} (h : t.report modifier reserved slots = some t') :
    ∃ last, t.kernel.kbd.map (·.lastKeycodes) = some last ∧ t'.kernel.kbd.map (·.lastKeycodes) = some slots ∧
      t'.kernel.console = t.kernel.console ++ typed last modifier slots ∧ t'.held = t.held ∧
      ∀ key, t'.press key = if key ∈ slots then (t.press key).listed last modifier key slots else t.press key := by
  unfold Typing.report at h
  split at h
  · rename_i kbd s' hk hrun
    cases h
    have hd : (t.kernel.driver .keyboard).isSome = true := by rw [Kernel.driver, hk]; rfl
    rw [handleReport_runs (handleReport_free hrun) hd, Kernel.handleReport, hk] at hrun
    cases hrun
    exact ⟨kbd.lastKeycodes, by rw [hk]; rfl, rfl, rfl, rfl, fun _ => rfl⟩
  · cases h

end Reports

/-! ## Runs -/

namespace Typing

/-- How a held key was counted so far, after a report `last`. -/
structure Counted (last : List UInt8) (key : UInt8) (p : Press) : Prop where
  hidden : p.shown = false → p.printed = 0
  known : p.shown = true → key ∈ last ∨ last = rollOver
  mapped : p.shown = true → KeyMapped key → p.printed = if p.fresh = true then 1 else 0
  unmapped : ¬ KeyMapped key → p.printed = 0

/-- Every held key is one, and was counted so. -/
structure Remembered (t : Typing) : Prop where
  nodup : t.held.Nodup
  keys : ∀ key ∈ t.held, 4 ≤ key.toNat
  counted : ∃ last, t.kernel.kbd.map (·.lastKeycodes) = some last ∧ ∀ key ∈ t.held, Counted last key (t.press key)

variable {t t' : Typing} {key : UInt8}

/-- A report that lists the key counts it, if it is the first of the press. -/
theorem Counted.listed {last slots : List UInt8} {p : Press} (modifier : UInt8) (h : Counted last key p) (h0 : key ≠ 0)
    (hs : slots.filter (· = key) = [key]) (hmem : key ∈ slots)
    (hr : last = rollOver → p.shown = true → ¬ KeyMapped key) :
    Counted slots key (p.listed last modifier key slots) := by
  have hcount : (p.listed last modifier key slots).printed =
      p.printed + if key ∉ last ∧ (hidKeycodeToAscii key modifier).isSome = true then 1 else 0 := by
    show p.printed + (typed last modifier (slots.filter (· = key))).length = _
    rw [hs, typed_one last modifier h0]
  refine ⟨nofun, fun _ => .inl hmem, fun _ hm => ?_, fun hm => ?_⟩
  · rw [hcount]
    cases hshown : p.shown with
    | false =>
      have hfresh : (p.listed last modifier key slots).fresh = decide (key ∉ last) := by simp [Press.listed, hshown]
      rw [h.hidden hshown, hfresh, hm modifier]
      simp
    | true =>
      have hfresh : (p.listed last modifier key slots).fresh = p.fresh := by simp [Press.listed, hshown]
      -- the driver still knows the key
      have hknown : key ∈ last := (h.known hshown).resolve_right fun hl => hr hl hshown hm
      rw [hfresh, if_neg fun hc => hc.1 hknown]
      exact h.mapped hshown hm
  · rw [hcount, h.unmapped hm, not_mapped hm]
    simp

theorem Remembered.step (h : Remembered t) (hs : Step Remembers t t') : Remembered t' := by
  obtain ⟨last, hlast, hcount⟩ := h.counted
  cases hs with
  | @press key hk hnew =>
    refine ⟨List.nodup_cons.2 ⟨hnew, h.nodup⟩, fun k hm => ?_, last, hlast, fun k hm => ?_⟩
    · rcases List.mem_cons.1 hm with rfl | hm
      · exact hk
      · exact h.keys k hm
    · show Counted last k (Function.update t.press key ⟨false, false, 0⟩ k)
      by_cases he : k = key
      · subst he
        rw [Function.update_self]
        exact ⟨fun _ => rfl, nofun, nofun, fun _ => rfl⟩
      · rw [Function.update_of_ne he]
        exact hcount k ((List.mem_cons.1 hm).resolve_left he)
  | @release key hk =>
    have hsub : ∀ k, k ∈ t.held.erase key → k ∈ t.held := fun k => List.mem_of_mem_erase
    exact ⟨h.nodup.erase key, fun k hm => h.keys k (hsub k hm), last, hlast, fun k hm => hcount k (hsub k hm)⟩
  | @report _ modifier reserved slots hr hc hrep =>
    obtain ⟨last', hlast', hslots, -, hheld, hpress⟩ := report_eq hrep
    rw [hlast] at hlast'
    cases hlast'
    refine ⟨hheld ▸ h.nodup, fun k hm => h.keys k (hheld ▸ hm), slots, hslots, fun k hm => ?_⟩
    rw [hheld] at hm
    have hk4 := h.keys k hm
    have h0 : k ≠ 0 := by rintro rfl; exact absurd hk4 (by decide)
    rw [hpress k]
    rcases hr.cases with hroll | ⟨n, hp⟩
    · -- a roll-over report lists no key
      have hnot : k ∉ slots := by
        rw [hroll]
        intro hk
        rw [List.eq_of_mem_replicate hk] at hk4
        exact absurd hk4 (by decide)
      rw [if_neg hnot]
      have hck := hcount k hm
      exact ⟨hck.hidden, fun _ => .inr hroll, hck.mapped, hck.unmapped⟩
    · -- any other report lists every held key, once
      have hmem : k ∈ slots := (perm_mem hp h0).2 hm
      rw [if_pos hmem]
      refine (hcount k hm).listed modifier h0 (perm_filter hp h.nodup h0 hm) hmem fun hl hshown => ?_
      exact hc (by rw [hlast, hl]) k hmem hm hshown
  | other hk =>
    exact ⟨h.nodup, h.keys, last, hk.trans hlast, hcount⟩

/-- A report that lists such a key right after a roll-over report prints it again. -/
theorem Remembered.relisted {modifier reserved : UInt8} {slots : List UInt8} (h : Remembered t)
    (hlast : t.kernel.kbd.map (·.lastKeycodes) = some rollOver) (hr : HidReport t.held slots) (hk : key ∈ slots)
    (hm : key ∈ t.held) (hs : (t.press key).shown = true) (hf : (t.press key).fresh = true) (hmap : KeyMapped key)
    (hrep : t.report modifier reserved slots = some t') : ¬ t'.OncePerPress := by
  obtain ⟨last, hl, hcount⟩ := h.counted
  obtain ⟨last', hl', -, -, hheld, hpress⟩ := report_eq hrep
  rw [hlast] at hl hl'
  cases hl
  cases hl'
  have hk4 := h.keys key hm
  have h0 : key ≠ 0 := by rintro rfl; exact absurd hk4 (by decide)
  have hnot : key ∉ rollOver := by
    intro hk
    rw [List.eq_of_mem_replicate hk] at hk4
    exact absurd hk4 (by decide)
  rcases hr.cases with hroll | ⟨n, hp⟩
  · exact absurd (hroll ▸ hk) hnot
  · have hprinted : (t'.press key).printed = 2 := by
      rw [hpress key, if_pos hk]
      show (t.press key).printed + (typed rollOver modifier (slots.filter (· = key))).length = 2
      rw [perm_filter hp h.nodup h0 hm, typed_one _ modifier h0, if_pos ⟨hnot, hmap modifier⟩,
        (hcount key hm).mapped hs hmap, if_pos hf]
    intro honce
    have h1 := (honce key (hheld.symm ▸ hm)).1
    omega

end Typing

/-- What happens at the keyboard next, as data. -/
inductive KeyMove
  | press (key : UInt8) | release (key : UInt8) | report (slots : List UInt8)

/-- Let it happen; `none` where `Typing.Step` has no such step. -/
def KeyMove.apply (t : Typing) : KeyMove → Option Typing
  | press key => if 4 ≤ key.toNat ∧ key ∉ t.held then some (t.pressKey key) else none
  | release key => if key ∈ t.held then some (t.releaseKey key) else none
  | report slots => if HidReport t.held slots then t.report 0 0 slots else none

/-- After boot with a keyboard on the only port; no key is held. -/
def keyboardBooted : Kernel :=
  stateAfter Rules.any (plugIn 14 0 0 1 0x14000 (hidInterface 0 1 0x81) ++ ops 19) discoverAndInitHidDevices
    (Kernel.start 1 fun _ => ⟨true, false, 1, 0⟩)

/-- The start of the runs below. -/
def Typing.booted : Typing := ⟨keyboardBooted, [], fun _ => ⟨false, false, 0⟩⟩

theorem booted_start : Typing.booted.Start := ⟨by decide +kernel, rfl⟩

end Octagram.Usb

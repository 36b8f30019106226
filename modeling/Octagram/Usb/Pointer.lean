/-
The position of the mouse: `handle_report` adds the two deltas of each report to `i32` values, from
`init_mouse` on and with no bound on the number of reports. A run gets through exactly if every
partial sum of the deltas is an `i32` (`mouse_position_in_range`): by induction on the run, the
position is a checked accumulator of `Lib.Accumulator`. Each delta is a byte, so short runs are
always safe (`short_run_in_range`).
-/
import Octagram.Lib.Accumulator
import Octagram.Usb.Calls
import Octagram.Usb.Reports
import Octagram.Usb.Schedule
import Mathlib.Algebra.Group.Int.Defs
import Mathlib.Algebra.Group.Prod
import Mathlib.Algebra.Order.BigOperators.Group.List
import Mathlib.Tactic.NormNum

namespace Octagram.Usb

open Octagram.Lib

/-! ## Definitions -/

/-- `pos_x` and `pos_y`. -/
def Kernel.position (s : Kernel) : Option (Int × Int) := s.mouse.map fun st => (st.posX, st.posY)

/-- The movement that a report tells. -/
def delta (report : List UInt8) : Int × Int := (asI8 (report.getD 1 0), asI8 (report.getD 2 0))

/-- Both are `i32` values. -/
def InI32 (p : Int × Int) : Prop := (-2 ^ 31 ≤ p.1 ∧ p.1 < 2 ^ 31) ∧ -2 ^ 31 ≤ p.2 ∧ p.2 < 2 ^ 31

instance : DecidablePred InI32 := fun p =>
  inferInstanceAs (Decidable ((-2 ^ 31 ≤ p.1 ∧ p.1 < 2 ^ 31) ∧ -2 ^ 31 ≤ p.2 ∧ p.2 < 2 ^ 31))

/-- Reports are handled one after the other, and the kernel does other things in between; `none` is the panic of an
addition that overflows. -/
inductive MouseRun : Kernel → List (List UInt8) → Option Kernel → Prop
  | done {s : Kernel} : MouseRun s [] (some s)
  | other {s s' : Kernel} {reports : List (List UInt8)} {o : Option Kernel} (h : s'.position = s.position)
      (hr : MouseRun s' reports o) : MouseRun s reports o
  | report {s s' : Kernel} {report : List UInt8} {reports : List (List UInt8)} {o : Option Kernel}
      (h : runToEnd (handleReportOf .mouse report) s = some ((), s')) (hr : MouseRun s' reports o) :
      MouseRun s (report :: reports) o
  | panic {s : Kernel} {report : List UInt8} {reports : List (List UInt8)} (hl : s.held .mouse = false)
      (h : runToEnd (handleReportOf .mouse report) s = none) : MouseRun s (report :: reports) none

/-! ## Runs -/

section Runs

variable {s s' : Kernel} {p : Int × Int} {report : List UInt8} {reports : List (List UInt8)} {o : Option Kernel}

/-- The two checked additions of a report are one of pairs. -/
theorem addI32_delta (p : Int × Int) (report : List UInt8) : addChecked InI32 p (delta report) =
    (addI32 p.1 (asI8 (report.getD 1 0))).bind fun x => (addI32 p.2 (asI8 (report.getD 2 0))).map fun y => (x, y) := by
  have hsum : p + delta report = (p.1 + asI8 (report.getD 1 0), p.2 + asI8 (report.getD 2 0)) := rfl
  unfold addChecked
  rw [hsum]
  unfold addI32
  by_cases hx : -2 ^ 31 ≤ p.1 + asI8 (report.getD 1 0) ∧ p.1 + asI8 (report.getD 1 0) < 2 ^ 31
  · by_cases hy : -2 ^ 31 ≤ p.2 + asI8 (report.getD 2 0) ∧ p.2 + asI8 (report.getD 2 0) < 2 ^ 31
    · rw [if_pos hx, if_pos hy, if_pos (show InI32 _ from ⟨hx, hy⟩)]
      rfl
    · rw [if_pos hx, if_neg hy, if_neg fun h : InI32 _ => hy h.2]
      rfl
  · rw [if_neg hx, if_neg fun h : InI32 _ => hx h.1]
    rfl

/-- `handle_report` of the mouse, as far as the position goes. -/
theorem handleReport_position (report : List UInt8) (hl : s.held .mouse = false) (hp : s.position = some p) :
    (runToEnd (handleReportOf .mouse report) s).map (·.2.position) = (addChecked InI32 p (delta report)).map some := by
  obtain ⟨st, hst, rfl⟩ := Option.map_eq_some_iff.1 hp
  have hd : (s.driver .mouse).isSome = true := by rw [Kernel.driver, hst]; rfl
  rw [handleReport_runs hl hd, addI32_delta, Kernel.handleReport, hst]
  dsimp only [Option.bind_some]
  cases addI32 st.posX (asI8 (report.getD 1 0)) with
  | none => rfl
  | some x =>
    cases addI32 st.posY (asI8 (report.getD 2 0)) with
    | none => rfl
    | some y => rfl

/-- The position of a run is a checked accumulator. -/
theorem mouseRun_accumulate (h : MouseRun s reports o) (hp : s.position = some p) :
    o.map (·.position) = (accumulate InI32 p (reports.map delta)).map some := by
  induction h generalizing p with
  | done => exact congrArg some hp
  | other hs hr ih => exact ih (hs.trans hp)
  | @report s s' report reports o hrun hr ih =>
    have hstep := handleReport_position report (handleReport_free hrun) hp
    rw [hrun, Option.map_some] at hstep
    obtain ⟨p', hadd, hp'⟩ := Option.map_eq_some_iff.1 hstep.symm
    rw [List.map_cons, accumulate, hadd]
    exact ih hp'.symm
  | @panic s report reports hl hrun =>
    have hstep := handleReport_position report hl hp
    rw [hrun, Option.map_none] at hstep
    rw [List.map_cons, accumulate, Option.map_eq_none_iff.1 hstep.symm]
    rfl

/-- A run gets through exactly if every partial sum is in range. -/
theorem mouseRun_isSome (h : MouseRun s reports o) (hp : s.position = some p) :
    o.isSome = true ↔ PartialSums InI32 p (reports.map delta) := by
  rw [← accumulate_isSome, ← Option.isSome_map, mouseRun_accumulate h hp, Option.isSome_map]

/-- Any reports make a run. -/
theorem exists_mouseRun (hl : s.held .mouse = false) (hd : (s.driver .mouse).isSome = true)
    (reports : List (List UInt8)) : ∃ o, MouseRun s reports o := by
  induction reports generalizing s with
  | nil => exact ⟨some s, .done⟩
  | cons report reports ih =>
    have hrun := handleReport_runs hl hd report
    cases hr : s.handleReport report .mouse with
    | none =>
      rw [hr] at hrun
      exact ⟨none, .panic hl hrun⟩
    | some s' =>
      rw [hr] at hrun
      obtain ⟨hheld, -, -, -, -, hdriver⟩ := handleReport_frame hr
      obtain ⟨o, ho⟩ := ih (s := s') (by rw [hheld]; exact hl) (by rw [hdriver]; exact hd)
      exact ⟨o, .report hrun ho⟩

end Runs

/-! ## From `init_mouse` on -/

theorem asI8_bounds (b : UInt8) : -128 ≤ asI8 b ∧ asI8 b ≤ 127 := by
  have hb := b.toNat_lt
  unfold asI8
  split <;> omega

/-- The sum of the deltas grows by at most 128 in each direction with each report. -/
theorem sum_bounds (f : List UInt8 → Int) (hf : ∀ r, -128 ≤ f r ∧ f r ≤ 127) (reports : List (List UInt8)) :
    -128 * (reports.length : Int) ≤ (reports.map f).sum ∧ (reports.map f).sum ≤ 127 * (reports.length : Int) := by
  induction reports with
  | nil => simp
  | cons r rs ih =>
    have hr := hf r
    simp only [List.map_cons, List.sum_cons, List.length_cons, Nat.cast_add, Nat.cast_one]
    omega

theorem sum_delta (reports : List (List UInt8)) :
    ((reports.map delta).sum).1 = (reports.map fun r => asI8 (r.getD 1 0)).sum ∧
      ((reports.map delta).sum).2 = (reports.map fun r => asI8 (r.getD 2 0)).sum := by
  induction reports with
  | nil => exact ⟨rfl, rfl⟩
  | cons r rs ih =>
    simp only [List.map_cons, List.sum_cons, Prod.fst_add, Prod.snd_add, ih]
    exact ⟨rfl, rfl⟩

theorem partialSums_reports {reports : List (List UInt8)} : PartialSums InI32 0 (reports.map delta) ↔
    ∀ n, n ≤ reports.length → InI32 ((reports.take n).map delta).sum := by
  constructor
  · intro hp n hn
    cases n with
    | zero => exact show InI32 0 by decide
    | succ n =>
      have hn := hp n (by rw [List.length_map]; exact hn)
      rwa [zero_add, ← List.map_take] at hn
  · intro hs n hn
    rw [List.length_map] at hn
    rw [zero_add, ← List.map_take]
    exact hs (n + 1) hn

/-- `init_mouse` starts at the origin. -/
theorem newDriver_position (s : Kernel) (st : DriverState) : (s.newDriver st .mouse).position = some 0 := rfl

/-- So many reports are always safe. -/
theorem reports_in_range {reports : List (List UInt8)} (h : reports.length ≤ 2 ^ 24) :
    InI32 (reports.map delta).sum := by
  have hx := sum_bounds (fun r => asI8 (r.getD 1 0)) (fun r => asI8_bounds _) reports
  have hy := sum_bounds (fun r => asI8 (r.getD 2 0)) (fun r => asI8_bounds _) reports
  obtain ⟨h1, h2⟩ := sum_delta reports
  unfold InI32
  rw [h1, h2]
  omega

theorem short_run_in_range {s : Kernel} {st : DriverState} {reports : List (List UInt8)} {o : Option Kernel}
    (h : MouseRun (s.newDriver st .mouse) reports o) (hn : reports.length ≤ 2 ^ 24) : o.isSome = true := by
  refine (mouseRun_isSome h (newDriver_position s st)).2 (partialSums_reports.2 fun n _ => reports_in_range ?_)
  exact Nat.le_trans (List.length_take_le' ..) hn

/-- From the origin, the additions of a run stay within `i32` exactly if every partial sum of the deltas does. -/
theorem mouse_position_in_range {s : Kernel} {reports : List (List UInt8)} {o : Option Kernel}
    (hp : s.position = some 0) (h : MouseRun s reports o) :
    o.isSome = true ↔ ∀ n, n ≤ reports.length → InI32 ((reports.take n).map delta).sum := by
  rw [mouseRun_isSome h hp]
  exact partialSums_reports

/-- After boot with a mouse on the only port. -/
def mouseBooted : Kernel :=
  stateAfter Rules.any (plugIn 14 0 0 1 0x14000 (hidInterface 0 2 0x81) ++ ops 19) discoverAndInitHidDevices
    (Kernel.start 1 fun _ => ⟨true, false, 1, 0⟩)

theorem session_mouseBooted : ∃ hist, UsbSession Rules.any hist mouseBooted := session_booted (by decide +kernel)

theorem mouseBooted_start : mouseBooted.position = some 0 ∧ mouseBooted.held .mouse = false ∧
    (mouseBooted.driver .mouse).isSome = true := by decide +kernel

/-- `mouse_position_in_range` for a report that moves the mouse by (5, -5). -/
theorem mouse_position_in_range_step : ∃ o, MouseRun mouseBooted [[0, 5, 251]] o ∧ o.isSome = true := by
  obtain ⟨hp, hl, hd⟩ := mouseBooted_start
  obtain ⟨o, ho⟩ := exists_mouseRun hl hd [[0, 5, 251]]
  refine ⟨o, ho, (mouse_position_in_range hp ho).2 fun n hn => reports_in_range ?_⟩
  exact Nat.le_trans (List.length_take_le' ..) (by decide)

/-- 16777217 reports of 128 to the left: the last addition overflows. -/
theorem leftward_overflows : ∃ hist s o, UsbSession Rules.any hist s ∧ s.position = some 0 ∧
    MouseRun s (List.replicate (2 ^ 24 + 1) [0, 128, 0]) o ∧ o = none := by
  obtain ⟨hist, hs⟩ := session_mouseBooted
  obtain ⟨hp, hl, hd⟩ := mouseBooted_start
  obtain ⟨o, ho⟩ := exists_mouseRun hl hd (List.replicate (2 ^ 24 + 1) [0, 128, 0])
  refine ⟨hist, mouseBooted, o, hs, hp, ho, ?_⟩
  rw [← Option.not_isSome_iff_eq_none, mouseRun_isSome ho hp, partialSums_reports]
  intro h
  have hsum := (h (2 ^ 24 + 1) (by rw [List.length_replicate])).1.1
  rw [List.take_of_length_le (by rw [List.length_replicate]), (sum_delta _).1, List.map_replicate, List.sum_replicate,
    show asI8 (([0, 128, 0] : List UInt8).getD 1 0) = -128 from rfl, nsmul_eq_mul] at hsum
  norm_num at hsum

end Octagram.Usb

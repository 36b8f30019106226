/-
The interrupts around the USB code: the local APIC, the interrupt flag, and
`common_interrupt_handler` from the interrupt to `iretq`. The machine of the sessions is what the
main context sees of them (`served_during_iff`): the handler leaves the interrupt flag alone
(`handler_aloof`), so `Lib.Vectored` makes it one that the main context waits for, and `Atomic` one
that runs at once. Interrupts do not nest, and are ended before the main context goes on
(`served_sound`).
-/
import Octagram.Lib.Vectored
import Octagram.Usb.Atomic

namespace Octagram.Usb

open Octagram.Lib

/-- The interrupt flag. -/
def Kernel.interruptFlag : Lens Kernel Bool where
  get s := s.ints
  put b s := { s with ints := b }
  get_put _ _ := rfl
  put_get _ := rfl
  put_put _ _ _ := rfl

/-- `common_interrupt_handler` up to `send_eoi`: for any vector but 44 it prints the frame, and then loops. -/
def commonInterruptHandler (vector : Nat) : Option (KProg Unit) := if vector = 44 then some interruptHandler else none

/-- The machine on which devices request interrupts and the processor accepts them. -/
def served : Machine Op Ret (Vectored Op Ret Kernel) :=
  vectored (fun o s => s.exec o) DeviceStep Kernel.interruptFlag commonInterruptHandler

/-- The handler neither reads nor writes the interrupt flag. -/
theorem handler_aloof {o : Op} (h : o.handler = true) : Aloof (fun o s => s.exec o) Kernel.interruptFlag o := by
  intro s r s' he
  cases o
  all_goals try cases h
  case lock l site =>
    simp only [Kernel.exec] at he
    split at he
    · cases he
    · rename_i hl
      cases he
      exact ⟨rfl, fun b => if_neg hl⟩
  case getXhci =>
    obtain ⟨_, hx, heq⟩ := Option.map_eq_some_iff.1 he
    cases heq
    exact ⟨rfl, fun b => Option.map_eq_some_iff.2 ⟨_, hx, rfl⟩⟩
  case panic => cases he
  case getDriver k =>
    cases he
    refine ⟨rfl, fun b => ?_⟩
    cases k <;> rfl
  -- the driver and its ring are the same with another flag
  case enqueueReport k =>
    cases he
    have hd : ∀ b, ({ s with ints := b } : Kernel).driver k = s.driver k := by
      intro b
      cases k <;> rfl
    refine ⟨?_, fun b => ?_⟩
    · exact (exec_keeps (o := .enqueueReport k) (r := ()) rfl).ints (fun h => by cases h) fun h => by cases h
    · show some ((), Kernel.enqueueReport { s with ints := b } k) = some ((), { s.enqueueReport k with ints := b })
      unfold Kernel.enqueueReport
      rw [hd]
      cases s.driver k with
      | none => rfl
      | some st => cases k <;> rfl
  all_goals
    cases he
    exact ⟨rfl, fun b => rfl⟩

theorem oneHandler :
    OneHandler (fun o s => s.exec o) DeviceStep Kernel.interruptFlag commonInterruptHandler 44 interruptHandler where
  found := if_pos rfl
  others _ hv := if_neg hv
  background _ _ h := ⟨h.1, fun _ => ⟨rfl, h.2⟩⟩
  aloof := interruptHandler_ops.mono fun _ => handler_aloof

/-- The main context comes to the same states between interrupts that are requested, accepted, handled operation by
operation and ended, as on the machine where the handler of vector 44 runs at once. -/
theorem served_during_iff {i : MainCall} {p : KProg i.Result} {s : Kernel} :
    (∃ c, served.During MainCall.prog (Unserved PowerOn) i p (s, c, [])) ↔
      (machine Rules.any).During MainCall.prog PowerOn i p s :=
  (vectored_during_iff oneHandler).trans piecewise_during_iff

/-- Interrupts do not nest, each is ended before the main context goes on, and then any of them can be accepted;
one of a vector other than 44 stops the main context for good. -/
theorem served_sound {i : MainCall} {p : KProg i.Result} {s : Kernel} {c : Vectors} {ws : List (Bool × Work Op Ret)}
    (hd : served.During MainCall.prog (Unserved PowerOn) i p (s, c, ws)) :
    ws = [] ∧ (∀ v, c.inService v = false) ∧
        (∀ v, c.requested v = true → (∀ w, c.requested w = true → w ≤ v) → c.Offers v) ∨
      s.ints = false ∧ ((∃ rest, ws = [(true, .handler rest)] ∧ ∀ v, c.inService v = decide (v = 44)) ∨
        (ws = [(true, .return)] ∧ ∀ v, c.inService v = false) ∨
        (ws = [(true, .stuck)] ∧ (∃ v, v ≠ 44 ∧ ∀ w, c.inService w = decide (w = v)) ∧
          ∀ (p' : KProg i.Result) x, served.Runs (p, s, c, ws) (p', x) →
            p' = p ∧ x.1.ints = false ∧ x.2.1.inService = c.inService ∧ x.2.2 = ws)) := by
  obtain ⟨y, -, hm⟩ := vectored_mirrors oneHandler hd
  cases hm with
  | idle hc => exact .inl ⟨rfl, hc, fun v hr hmax => ⟨hr, hmax, fun w hw => by rw [hc w] at hw; cases hw⟩⟩
  | @handling s c rest hi hc _ => exact .inr ⟨hi, .inl ⟨rest, rfl, hc⟩⟩
  | returning hi hc => exact .inr ⟨hi, .inr (.inl ⟨rfl, hc⟩)⟩
  | @stuck s c v hi hv hc y =>
    exact .inr ⟨hi, .inr (.inr ⟨rfl, ⟨v, hv, hc⟩, fun p' x hr => stuck_runs oneHandler hi hr⟩)⟩

/-- A key on the legacy keyboard, that is vector 33, comes before the first call is over. -/
theorem served_sound_legacyKeyboard : ∃ (s : Kernel) (c : Vectors),
    served.During MainCall.prog (Unserved PowerOn) .pollHotplug pollHotplug (s, c, [(true, .stuck)]) ∧
      s.ints = false := by
  let s₀ := Kernel.start 1 fun _ => ⟨false, false, 0, 0⟩
  let c₀ : Vectors := ⟨fun _ => false, fun _ => false⟩
  have hreq : Function.update c₀.requested 33 true 33 = true := Function.update_self _ _ _
  have hoffers : (c₀.request 33).Offers 33 := by
    refine ⟨hreq, fun w hw => ?_, nofun⟩
    by_cases hne : w = 33
    · omega
    · have hw' : Function.update c₀.requested 33 true w = true := hw
      rw [Function.update_of_ne hne] at hw'
      cases hw'
  have hboot : Unserved PowerOn (s₀, c₀, ([] : List (Bool × Work Op Ret))) :=
    ⟨powerOn_start (by decide) _ fun _ => rfl, fun _ => rfl, rfl⟩
  have hrun : served.Runs (MainCall.pollHotplug.prog, s₀, c₀, []) (pollHotplug, _, _, [(true, .stuck)]) :=
    .tail (.single (.env (.request 33))) (.env (.accept (v := 33) rfl hoffers))
  have hd : served.During MainCall.prog (Unserved PowerOn) .pollHotplug pollHotplug (_, _, [(true, .stuck)]) :=
    ⟨[], _, .boot hboot, hrun⟩
  refine ⟨_, _, hd, ?_⟩
  rcases served_sound hd with ⟨h, -⟩ | ⟨hi, -⟩
  · cases h
  · exact hi

end Octagram.Usb

/-
Schedules: which step comes next, as data. Playing a schedule computes a run of the machine
(`play_sound`), also with a record beside it and under rules that can be decided, so that runs on
given inputs are found by evaluation. A wait loop that gives up is too long to play;
`waitFor_expires` is the run of it in which nothing comes.
-/
import Octagram.Lib.Record
import Octagram.Usb.Machine

namespace Octagram.Usb

open Octagram.Lib

/-- The next step: of the main context, or one of `Env`. -/
inductive Move
  | op | interrupt
  | answer (id : Nat) (t : Trb) | complete (id : Nat) (t : Trb)
  | connect (p : Nat) (speed : BitVec 4) (t : Trb) | disconnect (p : Nat) (t : Trb)
  | dma (addr : Nat) (bytes : List UInt8)

/-- Rules that can be checked along a schedule. -/
class Rules.Decide (R : Rules) where
  answer : ∀ s c t, Decidable (R.answer s c t)
  change : ∀ s p, Decidable (R.change s p)
  allowed : ∀ o s, Decidable (R.allowed o s)

instance (R : Rules) [R.Decide] (s : Kernel) (c : Command) (t : Trb) : Decidable (R.answer s c t) :=
  Rules.Decide.answer s c t

instance (R : Rules) [R.Decide] (s : Kernel) (p : Nat) : Decidable (R.change s p) := Rules.Decide.change s p

instance (R : Rules) [R.Decide] (o : Op) (s : Kernel) : Decidable (R.allowed o s) := Rules.Decide.allowed o s

instance : Rules.any.Decide := ⟨fun _ _ _ => isTrue trivial, fun _ _ => isTrue trivial, fun _ _ => isTrue trivial⟩

/-- The driver state that an operation stores. -/
def Op.stored : Op → Option (DeviceKind × DriverState)
  | .newDriver k st => some (k, st)
  | _ => none

/-- A Command Completion Event. -/
def completionTrb (code slot : BitVec 32) : Trb := ⟨0, code <<< 24, (33#32 <<< 10) ||| (slot <<< 24)⟩

/-- A Transfer Event. -/
def transferTrb (code slot dci : BitVec 32) : Trb := ⟨0, code <<< 24, (32#32 <<< 10) ||| (slot <<< 24) ||| (dci <<< 16)⟩

/-- A Port Status Change Event. -/
def portTrb : Trb := ⟨0, 0, 34#32 <<< 10⟩

/-- That many steps of the main context. -/
def ops (n : Nat) : List Move := List.replicate n .op

variable (R : Rules) [R.Decide] {α : Type}

/-- Take a step of the surroundings; `none` where `Env` has no such step. -/
def Move.env : Move → Kernel → Option Kernel
  | .op, _ => none
  | .interrupt, s => if s.ints = true then (runToEnd interruptHandler s).map (·.2) else none
  | .answer id t, s =>
    match s.hw.commands[id]? with
    | none => none
    | some c =>
      if t.trbType = 33 ∧ id ∈ s.hw.unanswered ∧ R.answer s c t ∧
          (c.trbType = TRB_TYPE_ENABLE_SLOT → t.completionCode = 1 → t.slotId ≠ 0 ∧ s.hw.enabled t.slotId = false) then
        some { s with hw := s.hw.answer id c t }
      else
        none
  | .complete id t, s =>
    match s.hw.transfers[id]? with
    | none => none
    | some ring =>
      if t.trbType = 32 ∧ id ∈ s.hw.incomplete ∧ (t.slotId, t.endpointId) = s.hw.endpoint ring then
        some { s with hw := s.hw.complete id t }
      else
        none
  | .connect p speed t, s =>
    if t.trbType = 34 ∧ p < s.hw.maxPorts ∧ (s.hw.port p).ccs = false ∧ R.change s p then
      some { s with hw := s.hw.portChange p ⟨true, true, speed, s.hw.clock + 1⟩ t }
    else
      none
  | .disconnect p t, s =>
    if t.trbType = 34 ∧ p < s.hw.maxPorts ∧ (s.hw.port p).ccs = true ∧ R.change s p then
      some { s with hw := s.hw.portChange p { s.hw.port p with ccs := false, csc := true } t }
    else
      none
  | .dma addr bytes, s => some { s with ram := s.ram.setBytes addr bytes }

/-- Take a step. -/
def Move.apply (m : Move) (c : KProg α × Kernel) : Option (KProg α × Kernel) :=
  match m, c with
  | .op, (.op o k, s) => if R.allowed o s then (s.exec o).map fun r => (k r.1, r.2) else none
  | m, (p, s) => (m.env R s).map fun s' => (p, s')

/-- Play a schedule. -/
def play : List Move → KProg α × Kernel → Option (KProg α × Kernel)
  | [], c => some c
  | m :: ms, c => (m.apply R c).bind (play ms)

/-- Play a schedule to the end of the program. -/
def playToEnd (ms : List Move) (p : KProg α) (s : Kernel) : Option (α × Kernel) :=
  match play R ms (p, s) with
  | some (.ret a, s') => some (a, s')
  | _ => none

variable {R}

theorem env_sound {m : Move} {s s' : Kernel} (h : m.env R s = some s') : Env R s s' := by
  -- each move asks for the conditions of its step of `Env`, and has no result where one of them fails
  cases m with
  | op => cases h
  | interrupt =>
    rw [Move.env] at h
    split at h
    · rename_i hi
      obtain ⟨⟨⟨⟩, s₁⟩, hr, rfl⟩ := Option.map_eq_some_iff.1 h
      exact .interrupt hi hr
    · cases h
  | answer id t =>
    rw [Move.env] at h
    split at h
    · cases h
    · rename_i c hc
      split at h
      · rename_i hg
        cases h
        exact .answer t hg.1 hg.2.1 hc hg.2.2.2 hg.2.2.1
      · cases h
  | complete id t =>
    rw [Move.env] at h
    split at h
    · cases h
    · rename_i ring hring
      split at h
      · rename_i hg
        cases h
        exact .complete t hg.1 hg.2.1 hring hg.2.2
      · cases h
  | connect p speed t =>
    rw [Move.env] at h
    split at h
    · rename_i hg
      cases h
      exact .connect speed t hg.1 hg.2.1 hg.2.2.1 hg.2.2.2
    · cases h
  | disconnect p t =>
    rw [Move.env] at h
    split at h
    · rename_i hg
      cases h
      exact .disconnect t hg.1 hg.2.1 hg.2.2.1 hg.2.2.2
    · cases h
  | dma addr bytes =>
    cases h
    exact .dma _

theorem apply_sound {m : Move} {c c' : KProg α × Kernel} (h : m.apply R c = some c') : (machine R).Step c c' := by
  unfold Move.apply at h
  split at h
  · split at h
    · rename_i ha
      obtain ⟨r, he, rfl⟩ := Option.map_eq_some_iff.1 h
      exact .op ha he
    · cases h
  · obtain ⟨s', he, rfl⟩ := Option.map_eq_some_iff.1 h
    exact .env (env_sound he)

/-- What a schedule computes is a run. -/
theorem play_sound {ms : List Move} {c c' : KProg α × Kernel} (h : play R ms c = some c') : (machine R).Runs c c' := by
  induction ms generalizing c with
  | nil => cases h; exact .refl
  | cons m ms ih =>
    obtain ⟨c₁, h₁, h₂⟩ := Option.bind_eq_some_iff.1 h
    exact .head (apply_sound h₁) (ih h₂)

theorem playToEnd_sound {ms : List Move} {p : KProg α} {s s' : Kernel} {a : α}
    (h : playToEnd R ms p s = some (a, s')) : (machine R).Runs (p, s) (.ret a, s') := by
  unfold playToEnd at h
  split at h
  · rename_i hp
    cases h
    exact play_sound hp
  · cases h

/-- The state a schedule leaves. -/
def stateAfter (R : Rules) [R.Decide] (ms : List Move) (p : KProg α) (s : Kernel) : Kernel :=
  ((playToEnd R ms p s).map (·.2)).getD s

theorem runs_stateAfter (ms : List Move) (p : KProg α) (s : Kernel) (test : α → Bool)
    (h : (playToEnd R ms p s).map (fun r => test r.1) = some true) :
    ∃ a, (machine R).Runs (p, s) (.ret a, stateAfter R ms p s) ∧ test a = true := by
  obtain ⟨⟨a, s'⟩, hp, ht⟩ := Option.map_eq_some_iff.1 h
  unfold stateAfter
  rw [hp]
  exact ⟨a, playToEnd_sound hp, ht⟩

/-- A wait loop that gives up: no step of the surroundings sets its flag. -/
theorem waitFor_expires {f : Flag} {w : Wait} {s : Kernel} (hf : s.globals.flag f = false) (n : Nat) :
    (machine Rules.any).Runs (waitFor f w n, s) (.ret false, s) := by
  induction n with
  | zero => exact .single (.op (o := Op.expire w) trivial rfl)
  | succ n ih =>
    have he : s.exec (.loadFlag f) = some (false, s) := by rw [Kernel.exec, hf]
    exact .head (.op (o := Op.loadFlag f) trivial he) ih

/-- A run to the end whose result passes a test. -/
theorem exists_run (ms : List Move) (p : KProg α) (s : Kernel) (test : α → Kernel → Bool)
    (h : (playToEnd R ms p s).map (fun r => test r.1 r.2) = some true) :
    ∃ a s', (machine R).Runs (p, s) (.ret a, s') ∧ test a s' = true := by
  obtain ⟨⟨a, s'⟩, hp, ht⟩ := Option.map_eq_some_iff.1 h
  exact ⟨a, s', playToEnd_sound hp, ht⟩

/-- The program has come to its end. -/
def returned {α : Type} : KProg α → Bool
  | .ret _ => true
  | .op _ _ => false

/-! ## With a record -/

section Noted

variable {γ : Type} (R : Rules) [R.Decide] (N : Notes Op Kernel γ)

/-- Take a step of the machine with a record. -/
def Move.noted (m : Move) (c : KProg α × (Kernel × γ)) : Option (KProg α × (Kernel × γ)) :=
  match m, c with
  | .op, (.op o k, s) => if R.allowed o s.1 then (s.1.exec o).map fun r => (k r.1, (r.2, N.op o s.1 s.2)) else none
  | m, (p, s) => (m.env R s.1).map fun s' => (p, (s', N.env s.1 s' s.2))

/-- Play a schedule with a record. -/
def playNoted : List Move → KProg α × (Kernel × γ) → Option (KProg α × (Kernel × γ))
  | [], c => some c
  | m :: ms, c => (m.noted R N c).bind (playNoted ms)

variable {R N}

end Noted

/-! ## With a record and restrictions -/

section Restricted

variable {γ : Type} (R : Rules) [R.Decide] (N : Notes Op Kernel γ)
  (A : Op → Kernel × γ → Prop) [∀ o c, Decidable (A o c)]
  (E : Kernel × γ → Kernel × γ → Prop) [DecidableRel E]

/-- Take a step of the restricted machine with a record. -/
def Move.restricted (m : Move) (c : KProg α × (Kernel × γ)) : Option (KProg α × (Kernel × γ)) :=
  match m, c with
  | .op, (.op o k, s) =>
    if R.allowed o s.1 ∧ A o s then (s.1.exec o).map fun r => (k r.1, (r.2, N.op o s.1 s.2)) else none
  | m, (p, s) => (m.env R s.1).bind fun s' =>
    if E s (s', N.env s.1 s' s.2) then some (p, (s', N.env s.1 s' s.2)) else none

/-- Play a schedule of the restricted machine. -/
def playRestricted : List Move → KProg α × (Kernel × γ) → Option (KProg α × (Kernel × γ))
  | [], c => some c
  | m :: ms, c => (m.restricted R N A E c).bind (playRestricted ms)

variable {R N A E}

theorem restricted_sound {m : Move} {c c' : KProg α × (Kernel × γ)} (h : m.restricted R N A E c = some c') :
    (((machine R).recorded N).restrict A E).Step c c' := by
  unfold Move.restricted at h
  split at h
  · split at h
    · rename_i ha
      obtain ⟨r, he, rfl⟩ := Option.map_eq_some_iff.1 h
      exact .op ha (Machine.exec_recorded (M := machine R) he _)
    · cases h
  · obtain ⟨s', he, h⟩ := Option.bind_eq_some_iff.1 h
    split at h
    · rename_i hE
      cases h
      exact .env ⟨⟨env_sound he, rfl⟩, hE⟩
    · cases h

theorem playRestricted_sound {ms : List Move} {c c' : KProg α × (Kernel × γ)}
    (h : playRestricted R N A E ms c = some c') : (((machine R).recorded N).restrict A E).Runs c c' := by
  induction ms generalizing c with
  | nil =>
    cases h
    exact .refl
  | cons m ms ih =>
    obtain ⟨c₁, h₁, h₂⟩ := Option.bind_eq_some_iff.1 h
    exact .head (restricted_sound h₁) (ih h₂)

end Restricted

/-! ## A device that is plugged in -/

/-- The descriptors of an interface (class HID) with one interrupt endpoint. -/
def hidInterface (number protocol address : UInt8) : List UInt8 :=
  [9, 4, number, 0, 1, 3, 1, protocol, 0, 7, 5, address, 3, 8, 0, 10]

/-- The rest of `init_one_device` for a device with one boot-protocol endpoint, up to the answer to its
last transfer, when everything succeeds: `first` steps to Enable Slot, which is command number `command`;
the transfers are numbered from `transfer` on, and `buffer` is where the configuration descriptor goes. -/
def plugIn (first command transfer : Nat) (slot : BitVec 32) (buffer : Nat) (descriptors : List UInt8) : List Move :=
  ops first ++ [.answer command (completionTrb 1 slot), .interrupt] ++
  ops 20 ++ [.answer (command + 1) (completionTrb 1 slot), .interrupt] ++
  ops 13 ++ [.complete transfer (transferTrb 1 slot 1), .interrupt] ++
  ops 14 ++ [.complete (transfer + 1) (transferTrb 1 slot 1), .interrupt] ++ ops 3 ++ [.dma buffer descriptors] ++
  ops 9 ++ [.complete (transfer + 2) (transferTrb 1 slot 1), .interrupt] ++
  ops 13 ++ [.answer (command + 2) (completionTrb 1 slot), .interrupt] ++
  ops 10 ++ [.complete (transfer + 3) (transferTrb 1 slot 1), .interrupt]

end Octagram.Usb

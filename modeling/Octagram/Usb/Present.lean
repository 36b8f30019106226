/-
The devices that stay: `discover_and_init_hid_devices` finds each device that is there from its call
to its return (`SyncRun.noted`), and sets it up if it had no entry (`SyncRun.inits`). By induction
on the ports that are left to scan: a device that was there before its port was read and is there at
the end was there when it was read, since one that comes later is connected later (`env_port`).
-/
import Octagram.Lib.Component
import Octagram.Usb.Hotplug
import Octagram.Usb.Sync

namespace Octagram.Usb

open Octagram.Lib

section Present

variable {R : Rules} {s s' : Kernel} {T lo hi : Nat} {P : List (Nat × Nat)}

/-- A port stays as it is, or what is on it afterwards came later. -/
theorem env_port (h : Env R s s') (p : Nat) :
    s'.hw.port p = s.hw.port p ∨ ((s'.hw.port p).ccs = true → s.hw.clock < (s'.hw.port p).connectedAt) := by
  cases h with
  | interrupt hi h =>
    obtain ⟨ts, is, hw⟩ := (handler_driven h).hw
    left
    rw [hw]
    split <;> rfl
  | answer | complete | dma => exact .inl rfl
  | @connect q speed t =>
    by_cases hq : p = q
    · right
      intro _
      show s.hw.clock < ((s.hw.portChange q ⟨true, true, speed, s.hw.clock + 1⟩ t).port p).connectedAt
      rw [hq, portChange_self]
      exact Nat.lt_succ_self _
    · exact .inl (portChange_other s.hw _ t hq)
  | @disconnect q t =>
    by_cases hq : p = q
    · right
      intro hccs
      change ((s.hw.portChange q { s.hw.port q with ccs := false, csc := true } t).port p).ccs = true at hccs
      rw [hq, portChange_self] at hccs
      cases hccs
    · exact .inl (portChange_other s.hw _ t hq)

/-- Each port in the range with a device that is there since `T` is in the list, with the device's speed. -/
structure Noted (T lo hi : Nat) (P : List (Nat × Nat)) (s : Kernel) : Prop where
  clock : T ≤ s.hw.clock
  ports : ∀ p, lo ≤ p → p < hi → (s.hw.port p).ccs = true → (s.hw.port p).connectedAt ≤ T →
    (p, (s.hw.port p).speed.toNat) ∈ P

theorem framed_noted (T lo hi : Nat) (P : List (Nat × Nat)) : (machine R).Framed (fun _ => True) (Noted T lo hi P) where
  stable s s' h he := by
    refine ⟨h.clock.trans (env_unmoved he).clock, fun p hlo hhi hccs hat => ?_⟩
    rcases env_port he p with hp | hp
    · rw [hp] at hccs hat ⊢
      exact h.ports p hlo hhi hccs hat
    · have hlate := hp hccs
      have := h.clock
      omega
  frame o s r s' _ _ he h := by
    have hkeeps := exec_keeps he
    refine ⟨by rw [hkeeps.clock]; exact h.clock, ?_⟩
    rw [hkeeps.port]
    exact h.ports

theorem Noted.append {mid : Nat} {Q : List (Nat × Nat)} (h : Noted T lo mid P s) (h' : Noted T mid hi Q s) :
    Noted T lo hi (P ++ Q) s := by
  refine ⟨h.clock, fun p hlo hhi hccs hat => List.mem_append.2 ?_⟩
  by_cases hp : p < mid
  · exact .inl (h.ports p hlo hp hccs hat)
  · exact .inr (h'.ports p (Nat.le_of_not_lt hp) hhi hccs hat)

/-- Nothing is noted yet. -/
theorem noted_nil (h : T ≤ s.hw.clock) (lo : Nat) : Noted T lo lo [] s :=
  ⟨h, fun p hlo hhi => by omega⟩

theorem portsc_speed (p : Port) : ((p.portsc >>> 10) &&& 0xF#32).toNat = p.speed.toNat := by
  obtain ⟨ccs, csc, speed, at_⟩ := p
  have h : ∀ (ccs csc : Bool) (speed : BitVec 4),
      ((((if ccs then 1 else 0) ||| (speed.zeroExtend 32 <<< 10) ||| (if csc then 1#32 <<< 17 else 0)) >>> 10)
        &&& 0xF#32).toNat =
        speed.toNat := by decide
  exact h ccs csc speed

/-- What is noted of one port. -/
def note (port : Nat) (portsc : BitVec 32) : List (Nat × Nat) :=
  if portsc &&& 1 ≠ 0 then [(port, ((portsc >>> 10) &&& 0xF#32).toNat)] else []

theorem note_noted (h : T ≤ s.hw.clock) (port : Nat) :
    Noted T port (port + 1) (note port (s.hw.port port).portsc) s := by
  refine ⟨h, fun p hlo hhi hccs _ => ?_⟩
  obtain rfl : p = port := by omega
  unfold note
  rw [if_pos ((portsc_connected _).2 hccs), portsc_speed]
  exact List.mem_singleton.2 rfl

/-- A scan notes what was there before it and stays. -/
theorem scanPorts_noted (port n : Nat) : (machine R).Triple (fun s => T ≤ s.hw.clock) (scanPorts port n)
    fun P s => Noted T port (port + n) P s := by
  have hclock : (machine R).Framed (fun _ => True) fun s => T ≤ s.hw.clock :=
    ⟨fun s s' h he => h.trans (env_unmoved he).clock, fun o s r s' _ _ he h => by rw [(exec_keeps he).clock]; exact h⟩
  -- by induction on the ports that are left; what was noted of a port stays so while the others are read
  induction n generalizing port with
  | zero => exact Machine.triple_ret hclock.stable fun s h => noted_nil h port
  | succ n ih =>
    refine Machine.triple_call hclock.stable (fun portsc s => Noted T port (port + 1) (note port portsc) s) ?_
      fun portsc => ?_
    · rintro s portsc s' h - he
      cases he
      exact note_noted h port
    · have hport := framed_noted (R := R) T port (port + 1) (note port portsc)
      refine Machine.triple_bind
        (((hport.triple (Machine.all_true _)).and (ih (port + 1))).conseq (fun s h => ⟨h, h.clock⟩)
        fun _ _ h => h) fun rest => ?_
      refine Machine.triple_ret (hport.and (framed_noted T (port + 1) (port + 1 + n) rest)).stable ?_
      rintro s ⟨h, hrest⟩
      have hall := h.append hrest
      rw [Nat.add_right_comm, Nat.add_assoc] at hall
      unfold note at hall
      split
      · rename_i hc
        rwa [if_pos hc] at hall
      · rename_i hc
        rwa [if_neg hc] at hall

theorem portStates_noted (m : Nat) : (machine R).Triple (fun s => T ≤ s.hw.clock ∧ s.hw.maxPorts = m) portStates
    fun P s => Noted T 0 m P s := by
  have hsince : (machine R).Framed (fun _ => True) fun s => T ≤ s.hw.clock ∧ s.hw.maxPorts = m :=
    ⟨fun s s' h he => ⟨h.1.trans (env_unmoved he).clock, (env_unmoved he).maxPorts.trans h.2⟩, fun o s r s' _ _ he h =>
      ⟨by rw [(exec_keeps he).clock]; exact h.1, (exec_keeps he).maxPorts.trans h.2⟩⟩
  refine hsince.act trivial fun _ => hsince.act trivial fun _ => ?_
  refine Machine.triple_call hsince.stable (fun n s => n = m ∧ T ≤ s.hw.clock) ?_ fun n => ?_
  · rintro s n s' h - he
    cases he
    exact ⟨h.2, h.1⟩
  · refine Machine.triple_bind (R := fun P s => Noted T 0 m P s) ?_ fun P => ?_
    · rintro s ⟨rfl, h⟩ P s' hr
      have hnoted := scanPorts_noted 0 n s h P s' hr
      rwa [Nat.zero_add] at hnoted
    · have hP := framed_noted (R := R) T 0 m P
      exact hP.act trivial fun _ => Machine.triple_ret hP.stable fun _ h => h

/-- Every device that is there when `discover_and_init_hid_devices` is called and still when it returns is among the
port states that it works on. -/
theorem SyncRun.noted {tr : SyncTrace} (h : SyncRun R s tr s') :
    Noted s.hw.clock 0 s.hw.maxPorts (snapshot tr) s' := by
  obtain ⟨s₁, hex, hend⟩ := h
  obtain ⟨P, s₂, tr', rfl, hstates, hrest⟩ := hex.call_inv
  have hnoted := portStates_noted s.hw.maxPorts s ⟨Nat.le_refl _, rfl⟩ P s₂ hstates
  have hP := framed_noted (R := R) s.hw.clock 0 s.hw.maxPorts P
  exact (hP.stable.runs_ret hend (hP.exec hrest hnoted)).2

/-- Without an entry before the call, each of these devices is set up, if it stays. -/
theorem SyncRun.inits {s'' : Kernel} {tr : SyncTrace} (h : SyncRun R s tr s') (hw : (machine R).Waits s' s'')
    (hports : s.hw.maxPorts < 256) (hempty : s.activePorts = []) {p : Nat} (hp : p < s.hw.maxPorts)
    (hccs : (s''.hw.port p).ccs = true) (hat : (s''.hw.port p).connectedAt ≤ s.hw.clock) :
    .init (p + 1) (s''.hw.port p).speed.toNat ∈ deviceCalls tr := by
  have hnoted := (framed_noted (R := R) _ _ _ _).stable.waits hw h.noted
  have hmem := hnoted.ports p (Nat.zero_le p) hp hccs hat
  rw [(h.exactDiff hports).calls, hempty]
  refine List.mem_append_right _ (List.mem_map.2 ⟨_, List.mem_filter.2 ⟨hmem, ?_⟩, rfl⟩)
  simp [HasEntry]

end Present

end Octagram.Usb

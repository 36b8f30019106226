/-
The hand-off of port changes from the handler to the main context: whenever `PORT_CHANGE_PENDING` is
clear, the ports were last read after every Port Status Change Event that was consumed
(`snapshot_after_port_changes`). The record beside the state is how many events had been consumed at
the last snapshot. An event of a port sets the flag when it is consumed (`dispatch_portChange`), and
the only operation that clears it comes before a snapshot.
-/
import Octagram.Lib.Record
import Octagram.Usb.Schedule
import Octagram.Usb.Setup

namespace Octagram.Usb

open Octagram.Lib

/-! ## Definitions -/

/-- The record: how many events were consumed when `discover_and_init_hid_devices` last took the lock
under which it reads the ports. -/
def noteSnapshot : Op → Kernel → Nat → Nat
  | .lock _ .discoverPorts, s, _ => s.hw.consumed.length
  | _, _, n => n

/-- The machine of the main context with this record. -/
abbrev snapshotMachine (R : Rules) : Machine Op Ret (Kernel × Nat) := (machine R).recorded (.ofOps noteSnapshot)

/-- The main context from boot on; there was no snapshot before. -/
abbrev SnapshotSession (R : Rules) :=
  (snapshotMachine R).Session SyncCall.prog fun s => PowerOn s.1 ∧ s.2 = 0

/-- No Port Status Change Event was consumed since the last snapshot was begun. -/
def UpToDate (s : Kernel × Nat) : Prop := ∀ e ∈ s.1.hw.consumed.drop s.2, e.trb.trbType ≠ 34

/-- What holds outside of `poll_hotplug` and `discover_and_init_hid_devices`. -/
def HandedOff (s : Kernel × Nat) : Prop := s.1.globals.flag .portChangePending = false → UpToDate s

/-! ## The flag -/

/-- The operations of the main context that leave the flag alone. -/
def Op.offPort : Op → Bool
  | .pollEventRing => false
  | .storeFlag f _ | .swapFlag f _ => f ≠ .portChangePending
  | _ => true

theorem offPort_of_sync {o : Op} (h : o.sync = true) : o.offPort = true := by
  cases o
  case storeFlag f b => cases f <;> first | rfl | cases h
  case swapFlag | pollEventRing => cases h
  all_goals rfl

/-- A Port Status Change Event sets the flag, and no event clears it. -/
theorem dispatch_portChange (g : Globals) (t : Trb) :
    (g.dispatch t).flag .portChangePending = false → g.flag .portChangePending = false ∧ t.trbType ≠ 34 := by
  unfold Globals.dispatch
  split
  · intro h
    cases h
  · rename_i ht
    exact fun h => ⟨h, by rw [ht]; decide⟩
  · rename_i ht
    intro h
    refine ⟨?_, by rw [ht]; decide⟩
    split at h
    · exact h
    · split at h <;> exact h
  · rename_i h34 _ _
    exact fun h => ⟨h, h34⟩

theorem poll_handedOff {s : Kernel} {n : Nat} (h : HandedOff (s, n)) : HandedOff (s.pollEventRing, n) := by
  intro hf e he
  change e ∈ (s.hw.consumed ++ s.hw.events.take 1).drop n at he
  change (pollQueue Event.trb s.hw.events s.globals).2.flag .portChangePending = false at hf
  cases hev : s.hw.events with
  | nil =>
    rw [hev] at he hf
    rw [List.take_nil, List.append_nil] at he
    exact h hf e he
  | cons e' rest =>
    rw [hev] at he hf
    obtain ⟨hf', h34⟩ := dispatch_portChange _ _ hf
    rw [List.drop_append] at he
    rcases List.mem_append.1 he with he | he
    · exact h hf' e he
    · rw [List.mem_singleton.1 (List.mem_of_mem_drop he)]
      exact h34

/-! ## Steps -/

/-- The flag and the events consumed are all that matters. -/
theorem HandedOff.congr {s s' : Kernel} {n : Nat} (h : HandedOff (s, n))
    (hf : s'.globals.flag .portChangePending = s.globals.flag .portChangePending)
    (hc : s'.hw.consumed = s.hw.consumed) : HandedOff (s', n) := by
  unfold HandedOff UpToDate at *
  dsimp only at *
  rw [hf, hc]
  exact h

section Steps

variable {R : Rules}

theorem stable_handedOff : (snapshotMachine R).Stable HandedOff := by
  rintro ⟨s, n⟩ ⟨s', n'⟩ h ⟨he, hn⟩
  obtain rfl : n' = n := hn
  change Env R s s' at he
  cases he with
  | interrupt _ hrun =>
    have hd := handler_driven hrun
    obtain ⟨ts, is, hw⟩ := hd.hw
    refine HandedOff.congr (s := if s.xhci.isSome = true then s.pollEventRing else s) ?_
      (hd.flag _ nofun nofun) (by rw [hw])
    split
    · exact poll_handedOff h
    · exact h
  | answer | complete | connect | disconnect | dma => exact h.congr rfl rfl

/-- Outside of the two functions, once `XHCI_INSTANCE` is set. -/
def AtRest (s : Kernel × Nat) : Prop := HandedOff s ∧ s.1.xhci.isSome = true

theorem stable_started : (snapshotMachine R).Stable fun s => s.1.xhci.isSome = true :=
  Machine.Stable.recorded (P := fun s : Kernel => s.xhci.isSome = true) fun _ _ h he =>
    (congrArg Option.isSome (env_unmoved he).xhci).trans h

theorem stable_atRest : (snapshotMachine R).Stable AtRest := stable_handedOff.and stable_started

/-- An operation begins a snapshot or leaves the record as it is. -/
theorem noteSnapshot_cases (o : Op) (s : Kernel) (n : Nat) :
    noteSnapshot o s n = n ∨ noteSnapshot o s n = s.hw.consumed.length := by
  unfold noteSnapshot
  split
  · exact .inr rfl
  · exact .inl rfl

theorem exec_handedOff {o : Op} {s s' : Kernel × Nat} {r : Ret o} (ho : o.offPort = true)
    (he : (snapshotMachine R).exec o s = some (r, s')) (h : HandedOff s) : HandedOff s' := by
  obtain ⟨hx, hn⟩ := Machine.recorded_exec he
  have hk := exec_keeps hx
  have hf : s'.1.globals.flag .portChangePending = s.1.globals.flag .portChangePending := by
    apply hk.flag
    · rintro b rfl
      cases ho
    · rintro b rfl
      cases ho
    · rintro rfl
      cases ho
  have hc : s'.1.hw.consumed = s.1.hw.consumed := by
    refine (hk.events ?_).2
    rintro rfl
    cases ho
  rcases noteSnapshot_cases o s.1 s.2 with hnote | hnote
  · obtain ⟨k, n⟩ := s'
    obtain rfl : n = s.2 := hn.trans hnote
    exact HandedOff.congr h hf hc
  · -- a new snapshot is begun: nothing was consumed since
    intro _ e he
    rw [hn] at he
    change e ∈ s'.1.hw.consumed.drop (noteSnapshot o s.1 s.2) at he
    rw [hnote, ← hc, List.drop_length] at he
    cases he

/-- From the lock on under which the ports are read, `discover_and_init_hid_devices` keeps up with the
port changes, whatever was missed before. -/
theorem discover_handedOff :
    (snapshotMachine R).Triple (fun s => s.1.xhci.isSome = true) discoverAndInitHidDevices fun _ => AtRest := by
  have hops := discoverAndInitHidDevices_ops.mono fun _ => offPort_of_sync
  refine Machine.triple_op stable_started (fun _ => AtRest) (fun s r s' h _ he => ?_) fun r => ?_
  · obtain ⟨hx, hn⟩ := Machine.recorded_exec he
    have hk := exec_keeps (o := .lock .xhci .discoverPorts) hx
    refine ⟨?_, hk.xhci.trans h⟩
    intro _ e he
    rw [hn, (hk.events nofun).2] at he
    change e ∈ s.1.hw.consumed.drop s.1.hw.consumed.length at he
    rw [List.drop_length] at he
    cases he
  · refine Machine.triple_frame stable_atRest (hops.2 r) fun o s r s' ho h _ he => ?_
    exact ⟨exec_handedOff ho he h.1, (exec_keeps (Machine.recorded_exec he).1).xhci.trans h.2⟩

theorem pollHotplug_handedOff : (snapshotMachine R).Triple AtRest pollHotplug fun _ => AtRest := by
  refine Machine.triple_call stable_atRest (fun b s => s.1.xhci.isSome = true ∧ (b = false → HandedOff s))
    (fun s b s' h _ he => ?_) fun b => ?_
  · obtain ⟨hx, hn⟩ := Machine.recorded_exec he
    have hk := exec_keeps (o := .swapFlag .portChangePending false) hx
    refine ⟨hk.xhci.trans h.2, fun hb => ?_⟩
    obtain ⟨k, n⟩ := s'
    cases hx
    obtain rfl : n = s.2 := hn
    exact HandedOff.congr h.1 (Eq.symm hb) rfl
  · cases b with
    | false =>
      refine (Machine.triple_ret stable_atRest fun _ h => h).conseq (fun s h => ?_) fun _ _ h => h
      exact ⟨h.2 rfl, h.1⟩
    -- the flag was set, so `discover_and_init_hid_devices` takes a new snapshot
    | true =>
      refine Machine.Triple.conseq ?_ (fun s h => h.1) fun _ _ h => h
      refine Machine.triple_call stable_started (fun b s => b = true ∧ s.1.xhci.isSome = true)
        (fun s b s' h _ he => ?_) fun b => ?_
      · obtain ⟨hx, -⟩ := Machine.recorded_exec he
        have hk := exec_keeps (o := .xhciIsSome) hx
        exact ⟨(congrArg Prod.fst (Option.some.inj hx)).symm.trans h, hk.xhci.trans h⟩
      · rintro s ⟨rfl, h⟩
        exact discover_handedOff s h

end Steps

/-! ## The hand-off -/

/-- Whenever the main context is outside of `poll_hotplug` and `discover_and_init_hid_devices` and
`PORT_CHANGE_PENDING` is clear, the last snapshot of the ports was begun after the last Port Status
Change Event was consumed. -/
theorem snapshot_after_port_changes {R : Rules} {hist : List (Machine.Return (Kernel × Nat) fun _ : SyncCall => Unit)}
    {s : Kernel × Nat} (h : SnapshotSession R hist s) (hf : s.1.globals.flag .portChangePending = false) :
    ∀ e ∈ s.1.hw.consumed.drop s.2, e.trb.trbType ≠ 34 := by
  have hi : AtRest s := by
    refine h.invariant (fun s hs => ?_) stable_atRest fun i => ?_
    · obtain ⟨hp, hn⟩ := hs
      refine ⟨fun _ e he => ?_, hp.xhci⟩
      rw [hp.consumed, List.drop_nil] at he
      cases he
    · cases i with
      | discoverAndInitHidDevices => exact discover_handedOff.conseq (fun _ h => h.2) fun _ _ h => h
      | pollHotplug => exact pollHotplug_handedOff
  exact hi.1 hf

/-- A device comes, is announced and goes before `poll_hotplug` reads the port. -/
theorem snapshot_after_port_changes_short :
    ∃ hist s, SnapshotSession Rules.any hist s ∧ s.1.hw.consumed.length = 1 ∧ s.1.hw.consumed.drop s.2 = [] := by
  have hb : SnapshotSession Rules.any [] (Kernel.start 1 fun _ => ⟨false, false, 0, 0⟩, 0) :=
    .boot ⟨powerOn_start (by decide) _ fun _ => rfl, rfl⟩
  obtain ⟨⟨⟩, s, hr, ht⟩ := exists_run (R := Rules.any)
    ([.connect 0 1 portTrb, .interrupt, .disconnect 0 portTrb] ++ ops 10) pollHotplug
    (Kernel.start 1 fun _ => ⟨false, false, 0, 0⟩) (fun _ s => decide (s.hw.consumed.length = 1 ∧
      (s.hw.consumed.map fun e => e.trb.trbType) = [34] ∧ s.globals.flag .portChangePending = false))
        (by decide +kernel)
  obtain ⟨hlen, h34, hf⟩ := of_decide_eq_true ht
  obtain ⟨n, hr⟩ := Machine.runs_recorded (N := .ofOps noteSnapshot) hr 0
  have hs := hb.call .pollHotplug hr
  refine ⟨_, _, hs, hlen, ?_⟩
  have hnone := snapshot_after_port_changes hs hf
  rw [List.eq_nil_iff_forall_not_mem]
  intro e he
  have hm := List.mem_map_of_mem (f := fun e : Event => e.trb.trbType) (List.mem_of_mem_drop he)
  rw [h34] at hm
  exact hnone e he (List.mem_singleton.1 hm)

end Octagram.Usb

/-
The input contexts of `configure_endpoint`, as the controller reads them: the slot context against
the endpoints of the device and what `address_device` submitted for its slot
(`configureEndpoint_slotContext_iff`), and the endpoint context against the endpoint descriptor
(`configureEndpoint_encodes_iff`). The device on a slot is what the calls so far made of it
(`deviceOn`); by induction on the session, every submission is built from that device, the arguments
and a new ring (`submitted_built`). Then both theorems are about the fields that `configureInput`
computes.
-/
import Octagram.Lib.Bits
import Octagram.Usb.Ep0Ring
import Octagram.Usb.Submission
import Mathlib.Order.Bounds.Defs

namespace Octagram.Usb

open Octagram.Lib

/-! ## Fields -/

/-- Context Entries (bits 27-31 of dword 0 of the slot context). -/
def InputContext.contextEntries (c : InputContext) : Nat := c.slotDword0.toNat / 2 ^ 27 % 2 ^ 5

/-- The speed (bits 20-23). -/
def InputContext.speed (c : InputContext) : Nat := c.slotDword0.toNat / 2 ^ 20 % 2 ^ 4

namespace EndpointContext

/-- The interval (bits 16-23 of dword 0). -/
def interval (e : EndpointContext) : Nat := e.dword0.toNat / 2 ^ 16 % 2 ^ 8

/-- The EP Type (bits 3-5 of dword 1). -/
def epType (e : EndpointContext) : Nat := e.dword1.toNat / 2 ^ 3 % 2 ^ 3

/-- The Max Packet Size (bits 16-31). -/
def packetSize (e : EndpointContext) : Nat := e.dword1.toNat / 2 ^ 16 % 2 ^ 16

/-- The Dequeue Cycle State. -/
def dcs (e : EndpointContext) : Bool := e.trDequeueLo.getLsbD 0

end EndpointContext

section Fields

variable {rootPort speed ring : Nat} {ep : EndpointInfo}

theorem dci_le (ep : EndpointInfo) : ep.dci ≤ 31 := by
  unfold EndpointInfo.dci
  split <;> omega

theorem addressInput_speed : (addressInput rootPort speed ring).speed = speed % 16 := by
  have hentries : (1#32 <<< 27).toNat / 2 ^ 20 % 2 ^ 4 = 0 := rfl
  unfold InputContext.speed addressInput
  rw [or_field, hentries, Nat.zero_or, shiftLeft_field _ (by decide), BitVec.toNat_ofNat]
  omega

theorem configureInput_speed : (configureInput rootPort ep ring).speed = 3 := by
  unfold InputContext.speed configureInput
  rw [or_field, shiftLeft_field_below _ (by decide), Nat.zero_or]
  rfl

theorem configureInput_contextEntries : (configureInput rootPort ep ring).contextEntries = ep.dci := by
  have hspeed : (3#32 <<< 20).toNat / 2 ^ 27 % 2 ^ 5 = 0 := rfl
  have hle := dci_le ep
  unfold InputContext.contextEntries configureInput
  rw [or_field, hspeed, Nat.or_zero, shiftLeft_field _ (by decide), BitVec.toNat_ofNat]
  omega

theorem configureInput_rootPort : (configureInput rootPort ep ring).rootPort = rootPort % 256 := by
  unfold InputContext.rootPort configureInput
  simp only [BitVec.toNat_shiftLeft, BitVec.toNat_ofNat, Nat.shiftLeft_eq]
  omega

theorem configureInput_added : (configureInput rootPort ep ring).addFlags.getLsbD ep.dci = true := by
  have hle := dci_le ep
  have hlt : ep.dci < 32 := by omega
  unfold configureInput
  rw [BitVec.getLsbD_or, BitVec.getLsbD_shiftLeft]
  simp [hlt]

/-- The EP Type is 7, whatever the endpoint is. -/
theorem configureInput_epType : (configureInput rootPort ep ring).endpoint.epType = 7 := by
  have hconst : (7#32 <<< 3 ||| 3#32 <<< 1).toNat / 2 ^ 3 % 2 ^ 3 = 7 := rfl
  unfold EndpointContext.epType configureInput
  rw [or_field, hconst, shiftLeft_field_below _ (by decide), Nat.or_zero]

theorem configureInput_packetSize :
    (configureInput rootPort ep ring).endpoint.packetSize = ep.maxPacketSize % 2 ^ 16 := by
  have hconst : (7#32 <<< 3 ||| 3#32 <<< 1).toNat / 2 ^ 16 % 2 ^ 16 = 0 := rfl
  unfold EndpointContext.packetSize configureInput
  rw [or_field, hconst, Nat.zero_or, shiftLeft_field _ (by decide), BitVec.toNat_ofNat]
  omega

/-- The interval is one less than that of the descriptor, whatever the speed is. -/
theorem configureInput_interval : (configureInput rootPort ep ring).endpoint.interval = (ep.interval - 1) % 2 ^ 8 := by
  unfold EndpointContext.interval configureInput
  rw [shiftLeft_field _ (by decide), BitVec.toNat_ofNat]
  omega

theorem dequeuePointer_dcs (ring : Nat) : (dequeuePointer ring).1.getLsbD 0 = true := by
  unfold dequeuePointer
  rw [BitVec.getLsbD_or]
  simp

end Fields

/-! ## The device on a slot -/

/-- A call that returned, with the states around it. -/
abbrev DeviceReturn := Machine.Return Kernel SlotCall.Result

/-- Sessions of calls for slots. -/
abbrev DeviceSession (R : Rules) := (machine R).Session SlotCall.prog PowerOn

/-- A device: the root port and the speed that `address_device` was given for its slot, the input
context that this submitted, and the DCIs of the endpoints configured since. -/
structure Device where
  rootPort : Nat
  speed : Nat
  slotContext : InputContext
  configured : List Nat

/-- What a call that returned did to the device on the slot: it is a new one, it is gone, or one more
of its endpoints is configured. -/
def DeviceReturn.device (slotId : Nat) (d : Option Device) : DeviceReturn → Option Device
  | ⟨.enableSlot, _, .ok slot, _⟩ => if slot = slotId then none else d
  | ⟨.disableSlot slot, _, .ok _, _⟩ => if slot = slotId then none else d
  | ⟨.addressDevice slot rootPort speed, s, .ok _, s'⟩ =>
    if slot = slotId then (s.sentSince s').head?.map fun c => ⟨rootPort, speed, c.input, []⟩ else d
  | ⟨.configureEndpoint slot _ ep, _, .ok _, _⟩ =>
    if slot = slotId then d.map fun d => { d with configured := d.configured ++ [ep.dci] } else d
  | _ => d

/-- The device on a slot after these calls. -/
def deviceOn (slotId : Nat) (hist : List DeviceReturn) : Option Device :=
  hist.foldl (DeviceReturn.device slotId) none

/-- What a call of `configure_endpoint` submitted: for the device on the slot, given this root port and
endpoint, with the ring it allocated. -/
structure Submission where
  device : Device
  rootPort : Nat
  ep : EndpointInfo
  ring : Nat
  input : InputContext

/-- The submissions of a call from `s` to `s'`, made after the calls `hist`. -/
def submissions (hist : List DeviceReturn) : SlotCall → Kernel → Kernel → List Submission
  | .configureEndpoint slotId rootPort ep, s, s' =>
    match deviceOn slotId hist with
    | none => []
    | some d => (s.sentSince s').map fun c => ⟨d, rootPort, ep, s.nextBox, c.input⟩
  | _, _, _ => []

/-- A submission of a whole run: of a call that returned, or of the one that runs from `s` to `s'`. -/
inductive Submitted (hist : List DeviceReturn) (i : SlotCall) (s s' : Kernel) (b : Submission) : Prop
  | returned {before after : List DeviceReturn} {r : DeviceReturn} (h : hist = before ++ r :: after)
      (hb : b ∈ submissions before r.call r.start r.final)
  | running (hb : b ∈ submissions hist i s s')

/-- What a submission is made of. -/
structure Submission.Built (G : Nat → Prop) (b : Submission) : Prop where
  slotContext : ∃ ring, b.device.slotContext = addressInput b.device.rootPort b.device.speed ring
  input : b.input = configureInput b.rootPort b.ep b.ring
  dci : b.ep.dci ≠ 0
  ring : G b.ring

section Sessions

variable {R : Rules} {G : Nat → Prop} {hist : List DeviceReturn} {s : Kernel} {slotId : Nat}

theorem deviceOn_append (hist : List DeviceReturn) (r : DeviceReturn) :
    deviceOn slotId (hist ++ [r]) = r.device slotId (deviceOn slotId hist) := List.foldl_append ..

/-- After `address_device` the device is the one that was addressed. -/
theorem device_addressed {rootPort speed : Nat} {s' : Kernel} {u : Unit} (d : Option Device)
    (hr : (machine R).Runs ((SlotCall.addressDevice slotId rootPort speed).prog, s) (.ret (.ok u), s')) :
    ∃ ring, DeviceReturn.device slotId d ⟨.addressDevice slotId rootPort speed, s, .ok u, s'⟩ =
      some ⟨rootPort, speed, addressInput rootPort speed ring, []⟩ := by
  obtain ⟨ring, h⟩ := addressDevice_sentOne slotId rootPort speed s ⟨rfl, rfl⟩ _ _ hr rfl
  obtain ⟨t, ht⟩ := h.sentSince
  refine ⟨ring, ?_⟩
  show (if slotId = slotId then _ else _) = _
  rw [if_pos rfl, ht]
  rfl

/-- The device's slot context is the one that `address_device` makes from its root port and speed. -/
theorem session_device (h : DeviceSession R hist s) {d : Device} (hd : deviceOn slotId hist = some d) :
    ∃ ring, d.slotContext = addressInput d.rootPort d.speed ring := by
  induction h generalizing d with
  | boot => cases hd
  | env _ _ ih => exact ih hd
  | @call hist s s' hprev i a hr ih =>
    rw [deviceOn_append] at hd
    cases i with
    | enableSlot =>
      cases a with
      | error => exact ih hd
      | ok slot =>
        change (if slot = slotId then none else _) = some d at hd
        split at hd
        · cases hd
        · exact ih hd
    | disableSlot slot =>
      cases a with
      | error => exact ih hd
      | ok u =>
        change (if slot = slotId then none else _) = some d at hd
        split at hd
        · cases hd
        · exact ih hd
    | addressDevice slot rootPort speed =>
      cases a with
      | error => exact ih hd
      | ok u =>
        -- the call that makes the slot context
        by_cases he : slot = slotId
        · subst he
          obtain ⟨ring, hnew⟩ := device_addressed (deviceOn slot hist) hr
          rw [hnew] at hd
          cases hd
          exact ⟨ring, rfl⟩
        · change (if slot = slotId then _ else _) = some d at hd
          rw [if_neg he] at hd
          exact ih hd
    | configureEndpoint slot rootPort ep =>
      cases a with
      | error => exact ih hd
      | ok handle =>
        -- one more endpoint, on the device that was addressed
        change (if slot = slotId then _ else _) = some d at hd
        split at hd
        · obtain ⟨d₀, hd₀, rfl⟩ := Option.map_eq_some_iff.1 hd
          obtain ⟨ring, hring⟩ := ih hd₀
          exact ⟨ring, hring⟩
        · exact ih hd
    | _ => exact ih hd

theorem submissions_built (hG : ∀ s, R.allowed (.boxNew .transferRing) s → G s.nextBox) (h : DeviceSession R hist s)
    {i : SlotCall} {c : KProg i.Result × Kernel} (hr : (machine R).Runs (i.prog, s) c) {b : Submission}
    (hb : b ∈ submissions hist i s c.2) : b.Built G := by
  cases i with
  | configureEndpoint slotId rootPort ep =>
    change b ∈ (match deviceOn slotId hist with | none => [] | some d => _) at hb
    split at hb
    · cases hb
    · rename_i d hd
      obtain ⟨cmd, hcmd, rfl⟩ := List.mem_map.1 hb
      rcases (configureEndpoint_sends hG slotId rootPort ep).throughout s ⟨⟨rfl, rfl⟩, rfl⟩ c hr with
        hnone | ⟨⟨hdci, hg⟩, hone⟩
      · rw [hnone] at hcmd
        cases hcmd
      · obtain ⟨t, ht⟩ := hone.sentSince
        rw [ht, List.mem_singleton] at hcmd
        subst hcmd
        exact ⟨session_device h hd, rfl, hdci, hg⟩
  | _ => cases hb

/-- Every submission of every run. -/
theorem submitted_built (hG : ∀ s, R.allowed (.boxNew .transferRing) s → G s.nextBox) (h : DeviceSession R hist s)
    {i : SlotCall} {c : KProg i.Result × Kernel} (hr : (machine R).Runs (i.prog, s) c) {b : Submission}
    (hb : Submitted hist i s c.2 b) : b.Built G := by
  cases hb with
  | returned he hb =>
    obtain ⟨hs, hruns⟩ := h.split he
    exact submissions_built hG hs hruns hb
  | running hb => exact submissions_built hG h hr hb

end Sessions

/-! ## Runs by data -/

section Runs

/-- The schedule of `configure_endpoint`, its command being number `command`. -/
def configureMoves (command : Nat) : List Move :=
  ops 11 ++ [.answer command (completionTrb 1 1), .interrupt] ++ ops 2

/-- An interrupt endpoint of a boot-protocol keyboard. -/
def hidEndpoint (address interval : Nat) : EndpointInfo := ⟨address, 3, 8, interval, 0, 3, 1⟩

/-- The result is `Ok`. -/
def isOk {α : Type} : Except String α → Bool
  | .ok _ => true
  | .error _ => false

/-- The states after boot, after Enable Slot, and after the device on root port 1 was addressed. -/
def deviceStart : Kernel := Kernel.start 2 fun _ => ⟨true, false, 3, 0⟩

/-- After Enable Slot. -/
def deviceEnabled : Kernel := stateAfter boxRules (enableMoves 0 1) enableSlot deviceStart

/-- After the device was addressed. -/
def deviceAddressed (speed : Nat) : Kernel :=
  stateAfter boxRules (addressMoves 1 1) (addressDevice 1 1 speed) deviceEnabled

/-- A session in which the device is on slot 1. -/
def WithDevice (d : Device) (hist : List DeviceReturn) (s : Kernel) : Prop :=
  DeviceSession boxRules hist s ∧ deviceOn 1 hist = some d

/-- A device is addressed. -/
theorem session_deviceAddressed (speed : Nat)
    (hp : (playToEnd boxRules (addressMoves 1 1) (addressDevice 1 1 speed) deviceEnabled).map (fun r => isOk r.1) =
      some true) :
    ∃ ring hist, WithDevice ⟨1, speed, addressInput 1 speed ring, []⟩ hist (deviceAddressed speed) := by
  have hboot : DeviceSession boxRules [] deviceStart := .boot (powerOn_start (by decide) _ fun _ => rfl)
  obtain ⟨a, hrun, -⟩ :=
    runs_stateAfter (R := boxRules) (enableMoves 0 1) enableSlot deviceStart isOk (by decide +kernel)
  have henabled := hboot.call .enableSlot hrun
  obtain ⟨b, hrun, hok⟩ :=
    runs_stateAfter (R := boxRules) (addressMoves 1 1) (addressDevice 1 1 speed) deviceEnabled isOk hp
  cases b with
  | error => cases hok
  | ok u =>
    obtain ⟨ring, hd⟩ := device_addressed (deviceOn 1 ([] ++ [⟨.enableSlot, deviceStart, a, deviceEnabled⟩])) hrun
    refine ⟨ring, _, henabled.call (.addressDevice 1 1 speed) hrun, ?_⟩
    rw [deviceOn_append]
    exact hd

/-- One more endpoint is configured. -/
theorem WithDevice.configured {d : Device} {hist : List DeviceReturn} {s : Kernel} (h : WithDevice d hist s)
    (ms : List Move) (ep : EndpointInfo)
    (hp : (playToEnd boxRules ms (configureEndpoint 1 1 ep) s).map (fun r => isOk r.1) =
      some true) :
    ∃ hist, WithDevice { d with configured := d.configured ++ [ep.dci] } hist
      (stateAfter boxRules ms (configureEndpoint 1 1 ep) s) := by
  obtain ⟨a, hrun, hok⟩ := runs_stateAfter (R := boxRules) ms (configureEndpoint 1 1 ep) s isOk hp
  cases a with
  | error => cases hok
  | ok handle =>
    refine ⟨_, h.1.call (.configureEndpoint 1 1 ep) hrun, ?_⟩
    rw [deviceOn_append, h.2]
    rfl

/-- A schedule in which `configure_endpoint` gets to its command. -/
theorem WithDevice.submits {d : Device} {hist : List DeviceReturn} {s : Kernel} (h : WithDevice d hist s)
    (ep : EndpointInfo) (hp : (play boxRules (ops 11) (configureEndpoint 1 1 ep, s)).map
      (fun c => decide (s.hw.commands.length < c.2.hw.commands.length)) = some true) :
    ∃ c, (machine boxRules).Runs ((SlotCall.configureEndpoint 1 1 ep).prog, s) c ∧
      ∃ ring input, Submitted hist (.configureEndpoint 1 1 ep) s c.2 ⟨d, 1, ep, ring, input⟩ := by
  obtain ⟨c, hplay, hlt⟩ := Option.map_eq_some_iff.1 hp
  refine ⟨c, play_sound hplay, s.nextBox, ?_⟩
  cases hsent : s.sentSince c.2 with
  | nil => exact absurd (List.drop_eq_nil_iff.1 hsent) (Nat.not_le.2 (of_decide_eq_true hlt))
  | cons cmd rest =>
    refine ⟨cmd.input, .running ?_⟩
    show _ ∈ (match deviceOn 1 hist with | none => [] | some d => _)
    rw [h.2, hsent]
    exact List.mem_cons_self ..

end Runs

/-! ## The slot context -/

/-- Context Entries is the greatest DCI of EP0, the new endpoint and those configured so far, and the
speed and the root port are those that `address_device` submitted. -/
structure Submission.KeepsSlot (b : Submission) : Prop where
  entries : IsGreatest {dci | dci ∈ 1 :: b.ep.dci :: b.device.configured} b.input.contextEntries
  speed : b.input.speed = b.device.slotContext.speed
  rootPort : b.input.rootPort = b.device.slotContext.rootPort

/-- The device is a high-speed device on this root port, and none of the endpoints configured so far has a
greater DCI than the new one. -/
structure Submission.InOrder (b : Submission) : Prop where
  speed : b.device.speed % 16 = 3
  rootPort : b.rootPort % 256 = b.device.rootPort % 256
  order : ∀ dci ∈ b.device.configured, dci ≤ b.ep.dci

section Slot

variable {R : Rules} {hist : List DeviceReturn} {s : Kernel} {b : Submission}

theorem Submission.Built.keepsSlot_iff {G : Nat → Prop} (h : b.Built G) : b.KeepsSlot ↔ b.InOrder := by
  obtain ⟨ring, hslot⟩ := h.slotContext
  have hspeed : b.input.speed = b.device.slotContext.speed ↔ b.device.speed % 16 = 3 := by
    rw [h.input, hslot, configureInput_speed, addressInput_speed]
    exact eq_comm
  have hport : b.input.rootPort = b.device.slotContext.rootPort ↔ b.rootPort % 256 = b.device.rootPort % 256 := by
    rw [h.input, hslot, configureInput_rootPort, addressInput_rootPort]
  have hentries : b.input.contextEntries = b.ep.dci := by
    rw [h.input, configureInput_contextEntries]
  constructor
  · rintro ⟨hg, hs, hp⟩
    rw [hentries] at hg
    exact ⟨hspeed.1 hs, hport.1 hp, fun dci hm => hg.2 (List.mem_cons_of_mem _ (List.mem_cons_of_mem _ hm))⟩
  · rintro ⟨hs, hp, ho⟩
    refine ⟨?_, hspeed.2 hs, hport.2 hp⟩
    rw [hentries]
    refine ⟨List.mem_cons_of_mem _ (List.mem_cons_self ..), fun dci hm => ?_⟩
    rcases List.mem_cons.1 hm with rfl | hm
    · exact Nat.one_le_iff_ne_zero.2 h.dci
    · rcases List.mem_cons.1 hm with rfl | hm
      · exact Nat.le_refl _
      · exact ho dci hm

/-- In every run, each `configure_endpoint` submits a right slot context exactly if the device is a
high-speed one and its endpoints come in the order of their DCIs. -/
theorem configureEndpoint_slotContext_iff (h : DeviceSession R hist s) {i : SlotCall} {c : KProg i.Result × Kernel}
    (hr : (machine R).Runs (i.prog, s) c) (b : Submission) (hb : Submitted hist i s c.2 b) : b.KeepsSlot ↔ b.InOrder :=
  (submitted_built (G := fun _ => True) (fun _ _ => trivial) h hr hb).keepsSlot_iff

/-- `configureEndpoint_slotContext_iff` for the second of two endpoints in order. -/
theorem configureEndpoint_slotContext_second : ∃ hist s i c b, DeviceSession boxRules hist s ∧
    (machine boxRules).Runs (SlotCall.prog i, s) c ∧ Submitted hist i s c.2 b ∧ b.device.configured.length = 1 ∧
      b.KeepsSlot := by
  obtain ⟨ring, hist, h⟩ := session_deviceAddressed 3 (by decide +kernel)
  obtain ⟨hist, h⟩ := h.configured (configureMoves 2) (hidEndpoint 0x81 10) (by decide +kernel)
  obtain ⟨c, hr, ring, input, hb⟩ := h.submits (hidEndpoint 0x82 10) (by decide +kernel)
  have hle : (hidEndpoint 0x81 10).dci ≤ (hidEndpoint 0x82 10).dci := by decide
  refine ⟨_, _, _, c, _, h.1, hr, hb, rfl,
    (configureEndpoint_slotContext_iff h.1 hr _ hb).2 ⟨rfl, rfl, fun dci hm => ?_⟩⟩
  rw [List.mem_singleton.1 hm]
  exact hle

/-- A device that lists endpoint 2 before endpoint 1: the second call says that DCI 3 is the last one. -/
theorem configureEndpoint_slotContext_shrinks : ¬ ∀ hist s, DeviceSession boxRules hist s → ∀ i c,
    (machine boxRules).Runs (SlotCall.prog i, s) c → ∀ b, Submitted hist i s c.2 b → b.rootPort = b.device.rootPort →
      b.KeepsSlot := by
  intro hall
  obtain ⟨ring, hist, h⟩ := session_deviceAddressed 3 (by decide +kernel)
  obtain ⟨hist, h⟩ := h.configured (configureMoves 2) (hidEndpoint 0x82 10) (by decide +kernel)
  obtain ⟨c, hr, ring, input, hb⟩ := h.submits (hidEndpoint 0x81 10) (by decide +kernel)
  have hbuilt : Submission.Built (fun _ => True) _ := submitted_built (fun _ _ => trivial) h.1 hr hb
  have horder := (hbuilt.keepsSlot_iff.1 (hall _ _ h.1 _ c hr _ hb rfl)).order _ (List.mem_singleton.2 rfl)
  have hlt : ¬(hidEndpoint 0x82 10).dci ≤ (hidEndpoint 0x81 10).dci := by decide
  exact hlt horder

end Slot

/-! ## The endpoint context -/

/-- The endpoint is an IN endpoint. -/
def EndpointInfo.isIn (ep : EndpointInfo) : Prop := ep.address / 128 % 2 = 1

instance (ep : EndpointInfo) : Decidable ep.isIn := inferInstanceAs (Decidable (_ = _))

/-- The fields fit their types. -/
structure EndpointInfo.Typed (ep : EndpointInfo) : Prop where
  address : ep.address < 2 ^ 8
  attributes : ep.attributes < 2 ^ 8
  maxPacketSize : ep.maxPacketSize < 2 ^ 16
  interval : ep.interval < 2 ^ 8

/-- The period of an Interval, in units of 62.5 us: 125 us times a power of two. -/
def servicePeriod (interval : Nat) : Nat := 2 * 2 ^ interval

/-- The period that `bInterval` asks for at a speed, in units of 62.5 us: milliseconds at full (1) and low
speed (2), 125 us times 2^(bInterval - 1) at high (3) and super speed (4). -/
def askedPeriod (speed bInterval : Nat) : Option Nat :=
  match speed with
  | 1 | 2 => some (16 * bInterval)
  | 3 | 4 => some (2 ^ bInterval)
  | _ => none

/-- The period of the Interval is at most the one asked for, and more than half of it. -/
def Polls (speed bInterval interval : Nat) : Prop :=
  ∀ asked, askedPeriod speed bInterval = some asked → servicePeriod interval ≤ asked ∧ asked <
    2 * servicePeriod interval

/-- The endpoint context encodes the endpoint. -/
structure Submission.Encodes (b : Submission) : Prop where
  dci : b.input.dci = 2 * (b.ep.address % 16) + if b.ep.isIn then 1 else 0
  inArray : 1 ≤ b.input.dci ∧ b.input.dci ≤ 31
  added : b.input.addFlags.getLsbD b.input.dci = true
  epType : b.input.endpoint.epType = b.ep.attributes % 4 + if b.ep.isIn then 4 else 0
  packetSize : b.input.endpoint.packetSize = b.ep.maxPacketSize
  ring : b.input.ring = b.ring
  dcs : b.input.endpoint.dcs = true
  interval : b.ep.attributes % 4 = 3 → Polls b.device.speed b.ep.interval b.input.endpoint.interval

/-- The endpoint is an interrupt IN endpoint, and its interval is one that the code encodes right at the
speed of the device. -/
structure Submission.Polled (b : Submission) : Prop where
  interrupt : b.ep.attributes % 4 = 3
  isIn : b.ep.isIn
  slow : b.device.speed = 1 ∨ b.device.speed = 2 → b.ep.interval = 6
  fast : b.device.speed = 3 ∨ b.device.speed = 4 → b.ep.interval ≠ 0

section Endpoint

/-- `bInterval` milliseconds are polled right with `bInterval - 1` only for 6. -/
theorem polls_slow {b : Nat} : 2 * 2 ^ (b - 1) ≤ 16 * b ∧ 16 * b < 2 * (2 * 2 ^ (b - 1)) ↔ b = 6 := by
  -- from 7 on the period is longer than what is asked for
  have hbig : ∀ n, 16 * (n + 7) < 2 * 2 ^ (n + 6) := fun n => by
    induction n with
    | zero => decide
    | succ n ih =>
      rw [show n + 1 + 6 = n + 6 + 1 by omega, Nat.pow_succ]
      omega
  have hsmall : ∀ n < 7, (2 * 2 ^ (n - 1) ≤ 16 * n ∧ 16 * n < 2 * (2 * 2 ^ (n - 1)) ↔ n = 6) := by decide
  rcases Nat.lt_or_ge b 7 with hb | hb
  · exact hsmall b hb
  · obtain ⟨n, rfl⟩ := Nat.exists_eq_add_of_le' hb
    constructor
    · intro h
      exact absurd h.1 (Nat.not_le.2 (hbig n))
    · intro h
      omega

theorem polls_fast {b : Nat} : 2 * 2 ^ (b - 1) ≤ 2 ^ b ∧ 2 ^ b < 2 * (2 * 2 ^ (b - 1)) ↔ b ≠ 0 := by
  cases b with
  | zero => decide
  | succ b =>
    have hpos : 0 < 2 ^ b := Nat.two_pow_pos b
    rw [Nat.add_sub_cancel, Nat.pow_succ]
    omega

theorem polls_some {speed b p : Nat} (h : askedPeriod speed b = some p) :
    Polls speed b (b - 1) ↔ 2 * 2 ^ (b - 1) ≤ p ∧ p < 2 * (2 * 2 ^ (b - 1)) := by
  unfold Polls
  rw [h]
  constructor
  · intro hp
    exact hp p rfl
  · rintro hp asked he
    cases he
    exact hp

theorem polls_iff {speed b : Nat} :
    Polls speed b (b - 1) ↔ (speed = 1 ∨ speed = 2 → b = 6) ∧ (speed = 3 ∨ speed = 4 → b ≠ 0) := by
  by_cases hslow : speed = 1 ∨ speed = 2
  · have hasked : askedPeriod speed b = some (16 * b) := by rcases hslow with rfl | rfl <;> rfl
    have hfast : ¬(speed = 3 ∨ speed = 4) := by omega
    rw [polls_some hasked, polls_slow]
    simp [hslow, hfast]
  · by_cases hfast : speed = 3 ∨ speed = 4
    · have hasked : askedPeriod speed b = some (2 ^ b) := by rcases hfast with rfl | rfl <;> rfl
      rw [polls_some hasked, polls_fast]
      simp [hslow, hfast]
    · -- the speed is none of those that have a period
      have hasked : askedPeriod speed b = none := by
        unfold askedPeriod
        split <;> first | rfl | omega
      unfold Polls
      rw [hasked]
      simp [hslow, hfast]

/-- What `configure_endpoint` submits encodes the endpoint exactly if the endpoint is an interrupt IN endpoint
with an interval that the code gets right. -/
theorem Submission.Built.encodes_iff {b : Submission} (h : b.Built fun ring => 16 ∣ ring ∧ ring < 2 ^ 64)
    (ht : b.ep.Typed) : b.Encodes ↔ b.Polled := by
  have hdci : b.input.dci = b.ep.dci := by
    rw [h.input]
    rfl
  have hval : b.ep.dci = 2 * (b.ep.address % 16) + if b.ep.isIn then 1 else 0 := by
    unfold EndpointInfo.dci
    rw [Nat.mul_comm]
    rfl
  have hinterval : b.input.endpoint.interval = b.ep.interval - 1 := by
    have := ht.interval
    rw [h.input, configureInput_interval]
    omega
  have htype : b.input.endpoint.epType = 7 := by
    rw [h.input, configureInput_epType]
  constructor
  · intro he
    -- type 7, which the code always writes, is right for interrupt IN only
    have hboth : b.ep.attributes % 4 = 3 ∧ b.ep.isIn := by
      have h7 := he.epType
      rw [htype] at h7
      split at h7
      · rename_i hin
        exact ⟨by omega, hin⟩
      · omega
    have hpolls := he.interval hboth.1
    rw [hinterval] at hpolls
    obtain ⟨hslow, hfast⟩ := polls_iff.1 hpolls
    exact ⟨hboth.1, hboth.2, hslow, hfast⟩
  · rintro ⟨hattr, hin, hslow, hfast⟩
    refine ⟨hdci.trans hval, ?_, ?_, ?_, ?_, ?_, ?_, fun _ => ?_⟩
    · rw [hdci]
      exact ⟨Nat.one_le_iff_ne_zero.2 h.dci, dci_le b.ep⟩
    · rw [hdci, h.input]
      exact configureInput_added
    · rw [htype, hattr, if_pos hin]
    · rw [h.input, configureInput_packetSize, Nat.mod_eq_of_lt ht.maxPacketSize]
    · rw [h.input]
      exact dequeuePointer_ring h.ring.1 h.ring.2
    · rw [h.input]
      exact dequeuePointer_dcs b.ring
    · rw [hinterval]
      exact polls_iff.2 ⟨hslow, hfast⟩

/-- In every run, each `configure_endpoint` submits an endpoint context that encodes its endpoint exactly if
this is an interrupt IN endpoint with an interval that the code gets right. -/
theorem configureEndpoint_encodes_iff {hist : List DeviceReturn} {s : Kernel} (h : DeviceSession boxRules hist s)
    {i : SlotCall} {c : KProg i.Result × Kernel} (hr : (machine boxRules).Runs (i.prog, s) c) (b : Submission)
    (hb : Submitted hist i s c.2 b) (ht : b.ep.Typed) : b.Encodes ↔ b.Polled := by
  have hbuilt : b.Built fun ring => 16 ∣ ring ∧ ring < 2 ^ 64 :=
    submitted_built (R := boxRules) (fun _ ha => ha rfl) h hr hb
  exact hbuilt.encodes_iff ht

theorem hidEndpoint_typed {address interval : Nat} (ha : address < 2 ^ 8) (hi : interval < 2 ^ 8) :
    (hidEndpoint address interval).Typed where
  address := ha
  attributes := by show 3 < 2 ^ 8; decide
  maxPacketSize := by show 8 < 2 ^ 16; decide
  interval := hi

/-- `configureEndpoint_encodes_iff` for a high-speed keyboard. -/
theorem configureEndpoint_encodes_highSpeed : ∃ hist s i c b, DeviceSession boxRules hist s ∧
    (machine boxRules).Runs (SlotCall.prog i, s) c ∧ Submitted hist i s c.2 b ∧ b.ep = hidEndpoint 0x81 10 ∧
      b.Encodes := by
  obtain ⟨ring, hist, h⟩ := session_deviceAddressed 3 (by decide +kernel)
  obtain ⟨c, hr, ring, input, hb⟩ := h.submits (hidEndpoint 0x81 10) (by decide +kernel)
  have hin : (hidEndpoint 0x81 10).isIn := by decide
  refine ⟨_, _, _, c, _, h.1, hr, hb, rfl,
    (configureEndpoint_encodes_iff h.1 hr _ hb (hidEndpoint_typed (by decide) (by decide))).2
    ⟨rfl, hin, ?_, ?_⟩⟩
  · exact fun h => h.elim nofun nofun
  · exact fun _ => nofun

/-- A full-speed keyboard that asks for 10 ms: the interval is 64 ms. -/
theorem configureEndpoint_encodes_fullSpeed : ¬ ∀ hist s, DeviceSession boxRules hist s → ∀ i c,
    (machine boxRules).Runs (SlotCall.prog i, s) c → ∀ b, Submitted hist i s c.2 b → b.ep.Typed →
      b.ep.address % 16 ≠ 0 → b.ep.attributes % 4 ≠ 0 → b.Encodes := by
  intro hall
  obtain ⟨ring, hist, h⟩ := session_deviceAddressed 1 (by decide +kernel)
  obtain ⟨c, hr, ring, input, hb⟩ := h.submits (hidEndpoint 0x81 10) (by decide +kernel)
  have ht : (hidEndpoint 0x81 10).Typed := hidEndpoint_typed (by decide) (by decide)
  have hn : (hidEndpoint 0x81 10).address % 16 ≠ 0 := by decide
  have hc : (hidEndpoint 0x81 10).attributes % 4 ≠ 0 := by decide
  have hbuilt : Submission.Built (fun ring => 16 ∣ ring ∧ ring < 2 ^ 64) _ :=
    submitted_built (R := boxRules) (fun _ ha => ha rfl) h.1 hr hb
  have hslow : 10 = 6 := ((hbuilt.encodes_iff ht).1 (hall _ _ h.1 _ c hr _ hb ht hn hc)).slow (.inl rfl)
  exact absurd hslow (by decide)

end Endpoint

end Octagram.Usb

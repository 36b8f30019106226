/-
The input contexts in memory: `repr(C)` structures of 32-byte contexts on the driver's side; the
controller goes from context to context in steps of 32 or of 64 bytes, as HCCPARAMS1 says. What it
reads is what was meant if and only if its contexts are those of 32 bytes (`inputContext_read_iff`).
In steps of 64 bytes it finds the first endpoint context where it looks for the slot context, and
the one never is the other (`InputContext.Told`). Which contexts are submitted is known from
`Submission`.
-/
import Octagram.Lib.Cells
import Octagram.Usb.Contexts

namespace Octagram.Usb

open Octagram.Lib

/-! ## The structures -/

/-- `EndpointContext`, with its reserved dwords. -/
def EndpointContext.dwords (e : EndpointContext) : List (BitVec 32) :=
  [e.dword0, e.dword1, e.trDequeueLo, e.trDequeueHi, e.dword4, 0, 0, 0]

namespace InputContext

/-- `InputControlContext` -/
def control (c : InputContext) : List (BitVec 32) := [0, c.addFlags, 0, 0, 0, 0, 0, 0]

/-- `SlotContext` -/
def slot (c : InputContext) : List (BitVec 32) := [c.slotDword0, c.slotDword1, 0, 0, 0, 0, 0, 0]

/-- The endpoint context of an index; all but one are zero. -/
def endpointAt (c : InputContext) (idx : Nat) : List (BitVec 32) :=
  if idx + 1 = c.dci then c.endpoint.dwords else List.replicate 8 0

/-- `InputContext`, where `n` is 1, and `InputContextFull`, where it is 31. -/
def image (c : InputContext) (n : Nat) : List (BitVec 32) := c.control ++ c.slot ++ (List.range n).flatMap c.endpointAt

end InputContext

/-- How many endpoint contexts the input context of a call has. -/
def SlotCall.endpointContexts : SlotCall → Nat
  | .addressDevice _ _ _ => 1
  | .configureEndpoint _ _ _ => 31
  | _ => 0

/-! ## The controller -/

/-- `context_size_64`, which nothing calls -/
def contextSize64 (hccparams1 : BitVec 32) : Bool := (hccparams1 >>> 2) &&& 0x1#32 == 1#32

/-- The size of a context, as HCCPARAMS1 says. -/
def contextBytes (hccparams1 : BitVec 32) : Nat := if contextSize64 hccparams1 then 64 else 32

/-- The eight dwords of a context. -/
def contextAt (hccparams1 : BitVec 32) (m : Ram) (p i : Nat) : List (BitVec 32) :=
  (List.range 8).map fun j => Cell.dword.get m (p + contextBytes hccparams1 * i + 4 * j)

/-- The controller reads the contexts that were meant. -/
structure InputContext.Read (c : InputContext) (hccparams1 : BitVec 32) (m : Ram) (p : Nat) : Prop where
  control : contextAt hccparams1 m p 0 = c.control
  slot : contextAt hccparams1 m p 1 = c.slot
  endpoint : contextAt hccparams1 m p (c.dci + 1) = c.endpoint.dwords

section Layout

variable {c : InputContext} {hccparams1 : BitVec 32} {m : Ram} {p n : Nat}

theorem endpointAt_length (c : InputContext) (idx : Nat) : (c.endpointAt idx).length = 8 := by
  unfold InputContext.endpointAt
  split <;> rfl

/-- Where the contexts are. -/
theorem image_contexts (h : Cell.dword.Holds m p (c.image n)) : Cell.dword.Holds m p c.control ∧
    Cell.dword.Holds m (p + 32) c.slot ∧ ∀ i, i < n → Cell.dword.Holds m (p + 64 + 32 * i) (c.endpointAt i) := by
  unfold InputContext.image at h
  rw [Cell.holds_append, Cell.holds_append, Cell.holds_flatMap (endpointAt_length c)] at h
  exact ⟨h.1.1, h.1.2, h.2⟩

theorem contextAt_eq {i : Nat} {l : List (BitVec 32)} (hl : l.length = 8)
    (h : Cell.dword.Holds m (p + contextBytes hccparams1 * i) l) : contextAt hccparams1 m p i = l := by
  have hread := h.read
  rw [hl] at hread
  exact hread

/-- The slot context cannot be taken for the first endpoint context. -/
structure InputContext.Told (c : InputContext) : Prop where
  dci : 0 < c.dci
  entries : c.slotDword0 ≠ 0#32
  slot : c.slotDword1.getLsbD 1 = false
  errors : c.endpoint.dword1.getLsbD 1 = true

theorem image_read_iff (ht : c.Told) (hn : c.dci ≤ n) (h : Cell.dword.Holds m p (c.image n)) :
    c.Read hccparams1 m p ↔ contextSize64 hccparams1 = false := by
  obtain ⟨hcontrol, hslot, hendpoints⟩ := image_contexts h
  have hdci := ht.dci
  constructor
  · intro hread
    by_contra h64
    have hsize : contextBytes hccparams1 = 64 := if_pos (by simpa using h64)
    -- 64 bytes on is the first endpoint context
    have hfirst : contextAt hccparams1 m p 1 = c.endpointAt 0 := by
      refine contextAt_eq (endpointAt_length c 0) ?_
      rw [hsize]
      exact hendpoints 0 (by omega)
    have heq : c.endpointAt 0 = c.slot := hfirst.symm.trans hread.slot
    unfold InputContext.endpointAt at heq
    split at heq
    · have hdword : c.endpoint.dword1 = c.slotDword1 := congrArg (List.getD · 1 0) heq
      have hbit := ht.errors
      rw [hdword, ht.slot] at hbit
      cases hbit
    · have hdword : 0#32 = c.slotDword0 := congrArg (List.getD · 0 0) heq
      exact ht.entries hdword.symm
  · intro h32
    have hsize : contextBytes hccparams1 = 32 := if_neg (by simp [h32])
    refine ⟨contextAt_eq rfl ?_, contextAt_eq rfl ?_, contextAt_eq rfl ?_⟩
    · exact hcontrol
    · rw [hsize]
      exact hslot
    · have hend := hendpoints (c.dci - 1) (by omega)
      unfold InputContext.endpointAt at hend
      rw [if_pos (by omega)] at hend
      rw [hsize]
      have hplace : p + 32 * (c.dci + 1) = p + 64 + 32 * (c.dci - 1) := by omega
      rw [hplace]
      exact hend

end Layout

/-! ## The calls -/

section Calls

variable {rootPort speed ring : Nat} {ep : EndpointInfo}

theorem addressInput_told : (addressInput rootPort speed ring).Told := by
  refine ⟨Nat.one_pos, fun h => ?_, ?_, ?_⟩
  · have hbit := congrArg (BitVec.getLsbD · 27) h
    simp [addressInput] at hbit
  · simp [addressInput]
  · simp [addressInput]

theorem configureInput_told (hd : ep.dci ≠ 0) : (configureInput rootPort ep ring).Told := by
  refine ⟨Nat.pos_of_ne_zero hd, fun h => ?_, ?_, ?_⟩
  · have hbit := congrArg (BitVec.getLsbD · 20) h
    simp [configureInput] at hbit
  · simp [configureInput]
  · simp [configureInput]

variable {R : Rules} {s : Kernel}

/-- What a call of `address_device` from `s` on sends. -/
def SentAddress (s : Kernel) (slotId rootPort speed : Nat) (s' : Kernel) : Prop :=
  ∃ ring, SentOne s TRB_TYPE_ADDRESS_DEVICE slotId (addressInput rootPort speed ring) s'

/-- `address_device` sends one command at most, with the context made from its arguments and a ring. -/
theorem addressDevice_submits (slotId rootPort speed : Nat) :
    (machine R).Throughout (Unsent s) (addressDevice slotId rootPort speed)
      (AtMostOne s (SentAddress s slotId rootPort speed)) := by
  have hu := (framed_unsent (R := R) s).mono fun o => mute_send (o := o)
  have hJ : ∀ s', Unsent s s' → AtMostOne s (SentAddress s slotId rootPort speed) s' := fun _ h => .inl h.sentSince
  have herr : ∀ {P : Kernel → Prop} {r : Except String Unit}, (machine R).Stable P →
      (∀ s', P s' → AtMostOne s (SentAddress s slotId rootPort speed) s') →
      (machine R).Spec P (.ret r : KProg (Except String Unit)) (fun _ _ => True)
        (AtMostOne s (SentAddress s slotId rootPort speed)) :=
    fun hs hJ => Machine.spec_ret hs hJ fun _ _ => trivial
  refine (?_ : (machine R).Spec (Unsent s) _ (fun _ _ => True) _).throughout
  -- the ring and the device context
  refine hu.actSpec hJ rfl fun ringVirt => hu.actSpec hJ rfl fun ringPhys => ?_
  cases ringPhys with
  | none => exact herr hu.stable hJ
  | some ringPhys =>
    refine hu.actSpec hJ rfl fun ctxVirt => hu.actSpec hJ rfl fun ctxPhys => ?_
    cases ctxPhys with
    | none => exact herr hu.stable hJ
    | some ctxPhys =>
      refine hu.actSpec hJ rfl fun _ => hu.actSpec hJ rfl fun _ => hu.actSpec hJ rfl fun _ =>
        hu.actSpec hJ rfl fun _ => ?_
      -- the input context
      refine spec_input hJ fun inputVirt => ?_
      have hr := framed_ready (R := R) s (inputVirt - s.hhdm.getD 0) (addressInput rootPort speed ringPhys)
      have hs := framed_sentOne (R := R) s TRB_TYPE_ADDRESS_DEVICE slotId (addressInput rootPort speed ringPhys)
      have hready : ∀ s', Ready s (inputVirt - s.hhdm.getD 0) (addressInput rootPort speed ringPhys) s' →
          AtMostOne s (SentAddress s slotId rootPort speed) s' := fun s' h => hJ s' h.1
      have hsent : ∀ s', SentOne s TRB_TYPE_ADDRESS_DEVICE slotId (addressInput rootPort speed ringPhys) s' →
          AtMostOne s (SentAddress s slotId rootPort speed) s' := fun s' h => .inr ⟨ringPhys, h⟩
      refine spec_phys hr hready (fun _ h => h.1.hhdm) (herr hr.stable hready) ?_
      refine Machine.spec_bind ((submit_sends (act (.setEp0Ring _ _)) ⟨rfl, fun _ => trivial⟩).weaken fun _ h =>
        h.imp id fun h =>
        ⟨ringPhys, h⟩) fun b => ?_
      cases b with
      | true => exact hs.actSpec hsent rfl fun _ => herr hs.stable hsent
      | false => exact herr hs.stable hsent

variable {i : SlotCall} {c : KProg i.Result × Kernel} {cmd : Command}

/-- The command of a call: its input context is the one of the structure that the call boxes. -/
theorem command_told (hr : (machine R).Runs (i.prog, s) c) (hcmd : cmd ∈ s.sentSince c.2)
    (hi : 0 < i.endpointContexts) : cmd.input.Told ∧ cmd.input.dci ≤ i.endpointContexts := by
  cases i with
  | addressDevice slotId rootPort speed =>
    rcases addressDevice_submits slotId rootPort speed s ⟨rfl, rfl⟩ c hr with hnone | ⟨ring, hone⟩
    · rw [hnone] at hcmd
      cases hcmd
    · obtain ⟨t, ht⟩ := hone.sentSince
      rw [ht, List.mem_singleton] at hcmd
      subst hcmd
      exact ⟨addressInput_told, Nat.le_refl 1⟩
  | configureEndpoint slotId rootPort ep =>
    have hsends := configureEndpoint_sends (R := R) (s := s) (G := fun _ => True)
      (fun _ _ => trivial) slotId rootPort ep
    rcases hsends.throughout s ⟨⟨rfl, rfl⟩, rfl⟩ c hr with hnone | ⟨⟨hdci, -⟩, hone⟩
    · rw [hnone] at hcmd
      cases hcmd
    · obtain ⟨t, ht⟩ := hone.sentSince
      rw [ht, List.mem_singleton] at hcmd
      subst hcmd
      exact ⟨configureInput_told hdci, dci_le ep⟩
  | _ => exact absurd hi (Nat.lt_irrefl 0)

/-- A controller reads the contexts that `address_device` and `configure_endpoint` mean if and only if its
contexts are those of 32 bytes, for which the driver does not ask. -/
theorem inputContext_read_iff (hr : (machine R).Runs (i.prog, s) c) (hcmd : cmd ∈ s.sentSince c.2)
    (hi : 0 < i.endpointContexts) {m : Ram} {p : Nat}
    (h : Cell.dword.Holds m p (cmd.input.image i.endpointContexts)) (hccparams1 : BitVec 32) :
    cmd.input.Read hccparams1 m p ↔ contextSize64 hccparams1 = false := by
  obtain ⟨ht, hn⟩ := command_told hr hcmd hi
  exact image_read_iff ht hn h

/-- `inputContext_read_iff` for the input context of a device that was addressed. -/
theorem inputContext_read_iff_addressed :
    ∃ (cmd : Command) (m : Ram), cmd ∈ deviceEnabled.sentSince (deviceAddressed 3) ∧
      cmd.input.Read 0x20#32 m 0x1000 := by
  obtain ⟨b, hrun, -⟩ :=
    runs_stateAfter (R := boxRules) (addressMoves 1 1) (addressDevice 1 1 3) deviceEnabled isOk (by decide +kernel)
  have hsent : 0 < (deviceEnabled.sentSince (deviceAddressed 3)).length := by decide +kernel
  have hcmd := List.getElem_mem hsent
  have hrun' : (machine boxRules).Runs ((SlotCall.addressDevice 1 1 3).prog, deviceEnabled) (.ret b,
    deviceAddressed 3) := hrun
  have hread := (inputContext_read_iff hrun' hcmd Nat.one_pos (Cell.holds_store (m := fun _ => 0) (a := 0x1000))
    0x20#32).2 (by decide)
  exact ⟨_, _, hcmd, hread⟩

end Calls

end Octagram.Usb

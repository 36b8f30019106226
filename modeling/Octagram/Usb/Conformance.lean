/-
The main context keeps to the protocol of `Dialogue`: function by function, from the waits over the commands, the
control transfers and the drivers to the loops over the ports, each started where its callers start it; and from
these, for all it does between boot and any later moment (`usb_conforms`). Between two functions EP0 is idle; that
Disable Slot is sent only for a slot that was granted is carried by `Dialogue.Covered`: the registry has at most
one entry for each grant.
-/
import Octagram.Usb.Command
import Octagram.Usb.Descriptors
import Octagram.Usb.Dialogue
import Octagram.Usb.Drivers

namespace Octagram.Usb

open Octagram.Lib

/-- A program of the main context keeps to the protocol from `b` on. -/
abbrev Speaks {α : Type} (p : KProg α) (b : Dialogue) (Q : α → Dialogue → Prop) : Prop :=
  p.Conforms dialogue Plausible b Q

section Waits

variable {b : Dialogue} {Q : Bool → Dialogue → Prop}

theorem waitFor_speaks {f : Flag} {w : Wait} (hunset : b.next (.loadFlag f) false = b)
    (hset : Q true (b.next (.loadFlag f) true)) (hexpire : Q false (b.next (.expire w) ())) (n : Nat) :
    Speaks (waitFor f w n) b Q := by
  induction n with
  | zero => exact ⟨trivial, fun _ _ => hexpire⟩
  | succ n ih =>
    refine ⟨trivial, fun r _ => ?_⟩
    cases r with
    | false =>
      -- a flag that is not set tells nothing: the next poll starts from the same state
      show Speaks (waitFor f w n) (b.next (.loadFlag f) false) Q
      rw [hunset]
      exact ih
    | true => exact hset

/-- A critical section that leaves nothing half done on the EP0 ring. -/
theorem withXhci_speaks {site : Site} {body : KProg Unit} {Q : Unit → Dialogue → Prop}
    (h : Speaks body { b with off := true, held := true } fun _ c => c.stage = .idle ∧
      Q () { c with off := false, held := false }) : Speaks (withXhci site body) b Q :=
  ⟨trivial, fun _ _ => ⟨trivial, fun _ _ => h.bind fun _ _ hc => ⟨hc.1, fun _ _ => ⟨hc.1, fun _ _ => hc.2⟩⟩⟩⟩

/-- In the critical section of a command. -/
def Dialogue.submitting (b : Dialogue) : Dialogue := { b with command := .cleared, off := true, held := true }

/-- A command was sent, and the wait for it ended with this. -/
def Dialogue.submitted (b : Dialogue) (trbType slotId : Nat) (m : Sent → Mailbox Sent) : Dialogue :=
  { b.send trbType slotId with
    off := false
    held := false
    command := m ⟨trbType, slotId, b.input.map InputContext.named⟩ }

theorem submit_speaks {site : Site} {prepare : KProg Unit} {parameter trbType slotId : Nat} {c : Dialogue}
    (hp : Speaks prepare b.submitting fun _ d => d = c) (hexclusive : c.Exclusive) (hcleared : c.command = .cleared)
    (hidle : c.stage = .idle) (hs : c.Sends parameter slotId trbType)
    (hdone : Q true (c.submitted trbType slotId .done))
    (hexpired : Q false (c.submitted trbType slotId fun _ => .idle)) :
    Speaks (submit site prepare parameter trbType slotId) b Q := by
  refine ⟨trivial, fun _ _ => ?_⟩
  have hbody : Speaks (prepare >>= fun _ => sendCommand parameter trbType slotId) b.submitting fun _ d =>
    d = c.send trbType slotId := by
    refine hp.bind fun _ d hd => ?_
    subst hd
    exact ⟨⟨hexclusive, hcleared, hidle, hs⟩, fun _ _ => rfl⟩
  have hsection : Speaks (withXhci site (prepare >>= fun _ => sendCommand parameter trbType slotId))
      { b with command := .cleared } fun _ d => d = c.submitted trbType slotId .sent := by
    refine withXhci_speaks (hbody.mono fun _ d hd => ?_)
    subst hd
    exact ⟨hidle, rfl⟩
  refine hsection.bind fun _ d hd => ?_
  subst hd
  exact waitFor_speaks rfl hdone hexpired _

end Waits

/-! ## Commands -/

section Results

variable {b : Dialogue} {c : Sent}

@[simp] theorem commandResult_stage (b : Dialogue) (code : Nat) : (b.commandResult code).stage = b.stage := by
  unfold Dialogue.commandResult
  split <;> rfl

@[simp] theorem commandResult_ep0 (b : Dialogue) (code : Nat) : (b.commandResult code).ep0 = b.ep0 := by
  unfold Dialogue.commandResult
  split <;> rfl

theorem hasRing_commandResult {virt phys : Nat} (h : b.HasRing virt phys) (code : Nat) :
    (b.commandResult code).HasRing virt phys := by
  unfold Dialogue.commandResult
  split <;> exact h

theorem commandResult_slot (h : b.command = .done c) (code : Nat) : (b.commandResult code).slot =
    if code = 1 then Function.update b.slot c.slot ((b.slot c.slot).after c) else b.slot := by
  unfold Dialogue.commandResult
  rw [h]

theorem commandResult_granted (h : b.command = .done c) (code : Nat) :
    (b.commandResult code).granted = decide (code = 1 ∧ c.trbType = TRB_TYPE_ENABLE_SLOT) := by
  unfold Dialogue.commandResult
  rw [h]

@[simp] theorem grant_stage (b : Dialogue) (slotId : Nat) : (b.grant slotId).stage = b.stage := by
  unfold Dialogue.grant
  split <;> rfl

theorem grant_slot (h : b.granted = true) (slotId : Nat) : (b.grant slotId).slot slotId = .enabled := by
  unfold Dialogue.grant
  rw [if_pos h]
  exact Function.update_self ..

theorem grant_grants (h : b.granted = true) (slotId : Nat) :
    (b.grant slotId).grants = Function.update b.grants slotId (b.grants slotId + 1) := by
  unfold Dialogue.grant
  rw [if_pos h]

end Results

/-! ## Slots and the registry -/

section Ledger

/-- The grants that were not given back, and the registry. -/
def Dialogue.ledger (b : Dialogue) : (Nat → Nat) × List ActivePort := (b.grants, b.active)

/-- The operations that neither take nor give back a slot and do not store the registry. -/
def Op.unbooked : Op → Bool
  | .setActive _ | .loadReg .completionSlot => false
  | .sendCommand _ trbType _ => trbType ≠ TRB_TYPE_DISABLE_SLOT
  | _ => true

theorem next_ledger (o : Op) (r : Ret o) (b : Dialogue) (ho : o.unbooked = true) : (b.next o r).ledger = b.ledger := by
  cases o
  case lock l _ => cases l <;> rfl
  case unlock l => cases l <;> rfl
  case storeFlag f v => cases f <;> cases v <;> rfl
  case loadFlag f => cases f <;> cases r <;> rfl
  case virtToPhys => cases r <;> rfl
  case expire w => cases w <;> rfl
  case setActive => cases ho
  case sendCommand parameter trbType slotId =>
    have hne : trbType ≠ TRB_TYPE_DISABLE_SLOT := of_decide_eq_true ho
    show (if trbType = TRB_TYPE_DISABLE_SLOT then _ else b.grants, b.active) = _
    rw [if_neg hne]
    rfl
  case ringDoorbell slot value =>
    show (b.ring slot).ledger = _
    unfold Dialogue.ring
    split <;> rfl
  case loadReg reg =>
    cases reg
    case completionCode =>
      show (b.commandResult r).ledger = _
      unfold Dialogue.commandResult
      split <;> rfl
    case transferCompletionCode =>
      show (b.transferResult r).ledger = _
      unfold Dialogue.transferResult
      split <;> rfl
    case completionSlot => cases ho
    all_goals rfl
  all_goals rfl

theorem next_active {o : Op} {r : Ret o} {b : Dialogue} (ho : ∀ l, o ≠ .setActive l) :
    (b.next o r).active = b.active := by
  by_cases hu : o.unbooked = true
  · exact congrArg Prod.snd (next_ledger o r b hu)
  -- granting a slot and giving one back concern the grants only
  · cases o
    case setActive l => exact absurd rfl (ho l)
    case sendCommand => rfl
    case loadReg reg =>
      cases reg
      case completionSlot =>
        show (b.grant r).active = _
        unfold Dialogue.grant
        split <;> rfl
      all_goals exact absurd rfl hu
    all_goals exact absurd rfl hu

theorem Speaks.keeps {α : Type} {p : KProg α} {b : Dialogue} {Q : α → Dialogue → Prop} (h : Speaks p b Q)
    (hp : p.All fun o => o.unbooked = true) : Speaks p b fun a c => Q a c ∧ c.ledger = b.ledger :=
  h.frame hp next_ledger

theorem unbooked_of_wait {o : Op} (h : o.wait = true) : o.unbooked = true := by
  cases o
  case loadReg r => cases r <;> first | rfl | cases h
  case sendCommand => cases h
  case setActive => cases h
  all_goals rfl

theorem unbooked_of_transfer {o : Op} (h : o.transfer = true) : o.unbooked = true := by
  cases o
  case loadReg r => cases r <;> first | rfl | cases h
  case sendCommand => cases h
  case setActive => cases h
  all_goals rfl

theorem unbooked_of_attach {o : Op} (h : o.attach = true) : o.unbooked = true := by
  cases o
  case loadReg => cases h
  case sendCommand => cases h
  case setActive => cases h
  all_goals rfl

theorem addressDevice_unbooked (slotId rootPort speed : Nat) :
    (addressDevice slotId rootPort speed).All fun o => o.unbooked = true :=
  addressDevice_all slotId rootPort speed (fun _ => rfl) (fun _ _ => rfl) (fun _ => rfl) fun _ => unbooked_of_wait

theorem setupDevice_unbooked (slotId rootPort : Nat) : (setupDevice slotId rootPort).All fun o => o.unbooked = true :=
  setupDevice_all (fun _ => rfl) (fun _ => unbooked_of_wait) (fun _ => unbooked_of_transfer)
    (fun _ => unbooked_of_attach) rootPort

theorem shutdownDriver_unbooked (k : DeviceKind) (slotId : Nat) :
    (shutdownDriver k slotId).All fun o => o.unbooked = true :=
  (shutdownDriver_ops k slotId).mono fun _ => unbooked_of_attach

/-- How many entries of the registry have this slot. -/
def entriesOf (active : List ActivePort) (slotId : Nat) : Nat := (active.map (·.slotId)).count slotId

/-- For each entry of the registry Enable Slot granted its slot once more than it was given back. -/
def Dialogue.Covered (b : Dialogue) : Prop := ∀ slotId, entriesOf b.active slotId ≤ b.grants slotId

theorem entriesOf_append (l l' : List ActivePort) (slotId : Nat) :
    entriesOf (l ++ l') slotId = entriesOf l slotId + entriesOf l' slotId := by
  unfold entriesOf
  rw [List.map_append, List.count_append]

theorem entriesOf_cons (e : ActivePort) (l : List ActivePort) (slotId : Nat) :
    entriesOf (e :: l) slotId = entriesOf l slotId + if e.slotId = slotId then 1 else 0 := by
  unfold entriesOf
  rw [List.map_cons, List.count_cons]
  simp only [beq_iff_eq]

variable {b c : Dialogue}

theorem Dialogue.Covered.same (h : b.Covered) (he : c.ledger = b.ledger) : c.Covered := by
  obtain ⟨hg, ha⟩ := Prod.mk.inj he
  intro slotId
  rw [hg, ha]
  exact h slotId

/-- A slot was granted that may be registered. -/
theorem Dialogue.Covered.granted {slotId : Nat} (h : b.Covered)
    (he : c.ledger = (Function.update b.grants slotId (b.grants slotId + 1), b.active)) :
    c.Covered ∧ ∀ entry : ActivePort, entry.slotId = slotId →
      Dialogue.Covered { c with active := c.active ++ [entry] } := by
  obtain ⟨hg, ha⟩ := Prod.mk.inj he
  have hgrants : ∀ n, c.grants n = b.grants n + if slotId = n then 1 else 0 := by
    intro n
    rw [hg]
    by_cases hn : slotId = n
    · subst hn
      rw [Function.update_self, if_pos rfl]
    · rw [Function.update_of_ne (Ne.symm hn), if_neg hn]
      rfl
  refine ⟨fun n => ?_, fun entry hentry n => ?_⟩
  · rw [ha, hgrants]
    exact Nat.le_trans (h n) (Nat.le_add_right _ _)
  · show entriesOf (c.active ++ [entry]) n ≤ c.grants n
    rw [entriesOf_append, entriesOf_cons, ha, hgrants, hentry]
    exact Nat.add_le_add (h n) (Nat.le_of_eq (Nat.zero_add _))

/-- The slot of an entry that was taken from the registry may be given back. -/
theorem Dialogue.Covered.unregister {kept rest : List ActivePort} {entry : ActivePort} (h : b.Covered)
    (ha : b.active = kept ++ entry :: rest) :
    0 < b.grants entry.slotId ∧ ∀ c : Dialogue,
      c.ledger = (Function.update b.grants entry.slotId (b.grants entry.slotId - 1), kept ++ rest) → c.Covered := by
  have hcount : ∀ n, entriesOf (kept ++ rest) n + (if entry.slotId = n then 1 else 0) ≤ b.grants n := by
    intro n
    have hn := h n
    rw [ha, entriesOf_append, entriesOf_cons] at hn
    rw [entriesOf_append]
    omega
  refine ⟨?_, fun c hc n => ?_⟩
  · have hself := hcount entry.slotId
    rw [if_pos rfl] at hself
    omega
  · obtain ⟨hg, hactive⟩ := Prod.mk.inj hc
    have hn := hcount n
    rw [hg, hactive]
    by_cases he : entry.slotId = n
    · subst he
      rw [if_pos rfl] at hn
      rw [Function.update_self]
      omega
    · rw [Function.update_of_ne (Ne.symm he)]
      omega

/-- Between two calls: nothing is half done on EP0, and the registry is covered by the grants. -/
structure Dialogue.Settled (b : Dialogue) : Prop where
  stage : b.stage = .idle
  covered : b.Covered

end Ledger

section Commands

variable {b : Dialogue}

theorem enableSlot_speaks (h : b.stage = .idle) : Speaks enableSlot b fun r c => c.stage = .idle ∧
    (∀ slotId, r = .ok slotId → slotId < 256 ∧ c.slot slotId = .enabled ∧
      c.ledger = (Function.update b.grants slotId (b.grants slotId + 1), b.active)) ∧
    ∀ e, r = .error e → c.ledger = b.ledger := by
  have hsubmit : Speaks (submit .enableSlot (pure ()) 0 TRB_TYPE_ENABLE_SLOT 0) b fun r c => c.stage = .idle ∧
      c.ledger = b.ledger ∧ (r = true → ∃ s, c.command = .done ⟨TRB_TYPE_ENABLE_SLOT, 0, s⟩) :=
    submit_speaks (c := b.submitting) rfl ⟨rfl, rfl⟩ rfl h .enableSlot ⟨h, rfl, fun _ => ⟨_, rfl⟩⟩
      ⟨h, rfl, fun h => absurd h Bool.false_ne_true⟩
  refine hsubmit.bind fun r c hc => ?_
  obtain ⟨hidle, hledger, hdone⟩ := hc
  cases r with
  | false => exact ⟨hidle, fun _ h => (by cases h), fun _ _ => hledger⟩
  | true =>
    obtain ⟨s, hs⟩ := hdone rfl
    refine ⟨⟨_, hs⟩, fun code _ => ⟨trivial, fun slotId hslot => ⟨?_, fun n hn => ?_, fun e he => ?_⟩⟩⟩
    · exact (grant_stage _ _).trans ((commandResult_stage _ _).trans hidle)
    · split at hn
      · rename_i hcode
        cases hn
        have hgranted : (c.commandResult code).granted = true := by
          refine (commandResult_granted hs code).trans ?_
          simp [hcode]
        obtain ⟨hgrants, hactive⟩ := Prod.mk.inj ((next_ledger (.loadReg .completionCode) code c rfl).trans hledger)
        refine ⟨hslot, grant_slot hgranted _, Prod.ext ?_ ?_⟩
        · refine (grant_grants hgranted slotId).trans ?_
          rw [show (c.commandResult code).grants = b.grants from hgrants]
        · exact (next_active (o := .loadReg .completionSlot) nofun).trans hactive
      · cases hn
    · split at he
      · cases he
      · rename_i hcode
        -- a slot that was not granted is not counted
        have hrefused : (c.commandResult code).granted = false := by
          refine (commandResult_granted hs code).trans ?_
          simp [hcode]
        have hsame : (c.commandResult code).grant slotId = c.commandResult code := by
          unfold Dialogue.grant
          rw [hrefused]
          rfl
        refine (congrArg Dialogue.ledger hsame).trans ?_
        exact (next_ledger (.loadReg .completionCode) code c rfl).trans hledger

theorem disableSlot_speaks (slotId : Nat) (h : b.stage = .idle) (hgrants : 0 < b.grants slotId) :
    Speaks (disableSlot slotId) b fun _ c => c.stage = .idle ∧
      c.ledger = (Function.update b.grants slotId (b.grants slotId - 1), b.active) := by
  have hsubmit : Speaks (submit .disableSlot (pure ()) 0 TRB_TYPE_DISABLE_SLOT slotId) b fun r c => c.stage = .idle ∧
      c.slot slotId = .disabled ∧ c.ledger = (Function.update b.grants slotId (b.grants slotId - 1), b.active) ∧
      (r = true → ∃ s, c.command = .done ⟨TRB_TYPE_DISABLE_SLOT, slotId, s⟩) :=
    submit_speaks (c := b.submitting) rfl ⟨rfl, rfl⟩ rfl h (.disableSlot hgrants)
      ⟨h, Function.update_self .., rfl, fun _ => ⟨_, rfl⟩⟩ ⟨h, Function.update_self .., rfl,
        fun h => absurd h Bool.false_ne_true⟩
  refine hsubmit.bind fun r c hc => ?_
  obtain ⟨hidle, hdisabled, hledger, hdone⟩ := hc
  cases r with
  | false => exact ⟨hidle, hledger⟩
  | true =>
    obtain ⟨s, hs⟩ := hdone rfl
    refine ⟨⟨_, hs⟩, fun code _ => ?_⟩
    have hstage : (c.commandResult code).stage = .idle := (commandResult_stage _ _).trans hidle
    have hgiven := (next_ledger (.loadReg .completionCode) code c rfl).trans hledger
    -- the slot was given up when the command was sent, so its result changes nothing
    have hslot : (c.commandResult code).slot slotId = .disabled := by
      rw [commandResult_slot hs]
      split
      · rw [Function.update_self, hdisabled]
        rfl
      · exact hdisabled
    refine (?_ : Speaks (if code ≠ 1 then _ else _) _ _)
    split
    · exact ⟨hstage, hgiven⟩
    · exact ⟨trivial, fun _ _ =>
        ⟨trivial, fun _ _ => ⟨hstage, fun _ _ => ⟨.inr ⟨hslot, rfl⟩, fun _ _ => ⟨hstage, hgiven⟩⟩⟩⟩⟩

/-- The device in a slot takes requests at its own EP0 ring. -/
structure Dialogue.Attends (b : Dialogue) (slotId : Nat) (st : SlotState) : Prop where
  stage : b.stage = .idle
  ep0 : b.ep0 = some slotId
  slot : b.slot slotId = st

theorem addressDevice_speaks {slotId : Nat} (rootPort speed : Nat) (h : b.stage = .idle)
    (hslot : b.slot slotId = .enabled) :
    Speaks (addressDevice slotId rootPort speed) b fun r c => c.stage = .idle ∧
      (r = .ok () → c.Attends slotId .addressed) := by
  refine ⟨trivial, fun ringVirt _ => ⟨trivial, fun ringPhys _ => ?_⟩⟩
  cases ringPhys with
  | none => exact ⟨h, fun h => by cases h⟩
  | some ringPhys =>
    refine ⟨trivial, fun ctxVirt _ => ⟨trivial, fun ctxPhys _ => ?_⟩⟩
    cases ctxPhys with
    | none => exact ⟨h, fun h => by cases h⟩
    | some ctxPhys =>
      refine ⟨trivial, fun _ _ =>
        ⟨trivial, fun _ _ => ⟨h, fun _ _ => ⟨.inl ⟨hslot, ctxVirt, .head _, .head _⟩, fun _ _ => ?_⟩⟩⟩⟩
      refine ⟨trivial, fun inputVirt _ => ⟨trivial, fun inputPhys _ => ?_⟩⟩
      cases inputPhys with
      | none => exact ⟨h, fun h => by cases h⟩
      | some inputPhys =>
        -- the slot owns EP0 from the command on; it takes requests only if the command succeeds
        refine Prog.Conforms.bind (Q := fun r c => c.stage = .idle ∧ c.ep0 = some slotId ∧
          (r = true → ∃ s, c.command = .done ⟨TRB_TYPE_ADDRESS_DEVICE, slotId, s⟩)) ?_ fun r c hc => ?_
        · refine submit_speaks ⟨⟨⟨rfl, rfl⟩, .tail _ (.tail _ (.head _)), .tail _ (.tail _ (.head _))⟩,
            fun _ _ => rfl⟩ ⟨rfl, rfl⟩ rfl h
            ?_ ⟨h, rfl, fun _ => ⟨_, rfl⟩⟩ ⟨h, rfl, fun h => absurd h Bool.false_ne_true⟩
          refine .addressDevice hslot ?_ rfl ⟨.head _, .head _⟩ rfl rfl rfl
          show Function.update b.context slotId (b.slot slotId).isEnabled slotId = true
          rw [Function.update_self, hslot]
          rfl
        · obtain ⟨hidle, hep0, hdone⟩ := hc
          cases r with
          | false => exact ⟨hidle, fun h => by cases h⟩
          | true =>
            obtain ⟨s, hs⟩ := hdone rfl
            refine ⟨⟨_, hs⟩, fun code _ => ⟨(commandResult_stage _ _).trans hidle, fun hr => ?_⟩⟩
            split at hr
            · rename_i hcode
              refine ⟨(commandResult_stage _ _).trans hidle, (commandResult_ep0 _ _).trans hep0, ?_⟩
              refine (congrFun (commandResult_slot hs code) slotId).trans ?_
              rw [if_pos hcode, Function.update_self]
              rfl
            · cases hr

/-- A configured device, with its requests at its own EP0 ring. -/
def Dialogue.Serves (b : Dialogue) (slotId : Nat) : Prop := ∃ endpoints, b.Attends slotId (.configured endpoints)

/-- The endpoint of a handle is configured, with its ring. -/
structure Dialogue.Owns (b : Dialogue) (slotId : Nat) (ep : EndpointHandle) : Prop where
  endpoint : ∃ endpoints, b.slot slotId = .configured endpoints ∧ (ep.dci, dequeuePointer ep.ringPhys) ∈ endpoints
  ring : b.HasRing ep.ringVirt ep.ringPhys

theorem configureEndpoint_speaks {slotId : Nat} (rootPort : Nat) (ep : EndpointInfo) (h : b.Serves slotId) :
    Speaks (configureEndpoint slotId rootPort ep) b fun r c => c.Serves slotId ∧ ∀ handle, r = .ok handle →
      c.Owns slotId handle := by
  obtain ⟨endpoints, hstage, hep0, hslot⟩ := h
  refine ⟨trivial, fun ringVirt _ => ⟨trivial, fun ringPhys _ => ?_⟩⟩
  cases ringPhys with
  | none => exact ⟨⟨endpoints, hstage, hep0, hslot⟩, fun _ h => by cases h⟩
  | some ringPhys =>
    refine ⟨⟨⟨.head _, .head _⟩, rfl⟩, fun _ _ => ?_⟩
    refine (?_ : Speaks (if ep.dci = 0 then _ else _) _ _)
    split
    · -- DCI 0 panics before anything is sent
      exact ⟨trivial, fun r => r.elim⟩
    · refine ⟨trivial, fun inputVirt _ => ⟨trivial, fun inputPhys _ => ?_⟩⟩
      cases inputPhys with
      | none => exact ⟨⟨endpoints, hstage, hep0, hslot⟩, fun _ h => by cases h⟩
      | some inputPhys =>
        refine Prog.Conforms.bind (Q := fun r c => c.stage = .idle ∧ c.ep0 = some slotId ∧
          c.slot slotId = .configured endpoints ∧
          (r = true → c.HasRing ringVirt ringPhys ∧
            c.command = .done ⟨TRB_TYPE_CONFIGURE_ENDPOINT, slotId, some (ep.dci, dequeuePointer ringPhys)⟩))
          ?_ fun r c hc => ?_
        · -- the new ring is boxed, translated and linked, which the submission leaves so
          have hring : ∀ d : Dialogue,
              d.boxes = (inputVirt, .inputContext (configureInput rootPort ep ringPhys)) ::
                (ringVirt, .transferRing) :: b.boxes →
              d.translated = (inputVirt, inputPhys) :: (ringVirt, ringPhys) :: b.translated →
              d.linked = (ringVirt, ringPhys) :: b.linked → d.HasRing ringVirt ringPhys := by
            intro d hb ht hl
            refine ⟨⟨?_, ?_⟩, ?_⟩
            · simp [hb]
            · simp [ht]
            · simp [hl]
          refine submit_speaks rfl ⟨rfl, rfl⟩ rfl hstage ?_ ⟨hstage, hep0, hslot, fun _ => ⟨hring _ rfl rfl rfl, rfl⟩⟩
            ⟨hstage, hep0, hslot, fun h => absurd h Bool.false_ne_true⟩
          exact .configureEndpoint hslot rfl ⟨.head _, .head _⟩ rfl (hring _ rfl rfl rfl) rfl
        · obtain ⟨hidle, hep0, hslot, hdone⟩ := hc
          cases r with
          | false => exact ⟨⟨endpoints, hidle, hep0, hslot⟩, fun _ h => by cases h⟩
          | true =>
            obtain ⟨hring, hs⟩ := hdone rfl
            refine ⟨⟨_, hs⟩, fun code _ => ?_⟩
            -- with code 1 the slot has one endpoint more, with any other code the same ones
            have hafter : (c.commandResult code).slot slotId =
                if code = 1 then .configured ((ep.dci, dequeuePointer ringPhys) :: endpoints)
                  else .configured endpoints := by
              rw [commandResult_slot hs]
              split
              · rw [Function.update_self, hslot]
                rfl
              · exact hslot
            have hattends : ∀ st, (c.commandResult code).slot slotId = st → (c.commandResult code).Attends slotId st :=
              fun st hst => ⟨(commandResult_stage _ _).trans hidle, (commandResult_ep0 _ _).trans hep0, hst⟩
            refine (?_ : _ ∧ ∀ handle, (if code = 1 then _ else _ : Except String EndpointHandle) = .ok handle → _)
            split
            · rename_i hcode
              rw [if_pos hcode] at hafter
              refine ⟨⟨_, hattends _ hafter⟩, fun handle hr => ?_⟩
              cases hr
              exact ⟨⟨_, hafter, .head _⟩, hasRing_commandResult hring code⟩
            · rename_i hcode
              rw [if_neg hcode] at hafter
              exact ⟨⟨_, hattends _ hafter⟩, fun _ h => by cases h⟩

end Commands

/-! ## Control transfers -/

section Transfers

variable {b : Dialogue} {p : SetupPacket} {slotId : Nat}

/-- In the critical section of a transfer, with this on the EP0 ring. -/
def Dialogue.queueing (b : Dialogue) (st : Stage) : Dialogue :=
  { b with
    transfer := .cleared
    off := true
    held := true
    stage := st }

/-- A transfer was rung, and the wait for it ended with this. -/
def Dialogue.transferred (b : Dialogue) (m : Mailbox (Nat × SetupPacket)) : Dialogue :=
  { b with
    off := false
    held := false
    stage := .idle
    transfer := m }

theorem transfer_speaks {site : Site} {stages : KProg Unit} {Q : Bool → Dialogue → Prop} (hlt : slotId < 256)
    (hstage : b.stage = .idle) (hep0 : b.ep0 = some slotId) (hp : (b.slot slotId).Permits p)
    (hs : Speaks stages (b.queueing .idle) fun _ d => d = b.queueing (.status p))
    (hdone : Q true (b.transferred (.done (slotId, p)))) (hexpired : Q false (b.transferred .idle)) :
    Speaks (transfer site slotId stages) b Q := by
  refine ⟨trivial, fun _ _ => ?_⟩
  -- the doorbell is rung with the slot number cut to 8 bits
  rw [Nat.mod_eq_of_lt hlt]
  have hbody : Speaks (stages >>= fun _ => ringDoorbell slotId 1) (b.queueing .idle)
      fun _ d => d = { b.queueing .idle with transfer := .sent (slotId, p) } := by
    refine hs.bind fun _ d hd => ?_
    subst hd
    exact ⟨⟨⟨rfl, rfl⟩, rfl, rfl, hep0, p, rfl, hp⟩, fun _ _ => rfl⟩
  have hsection : Speaks (withXhci site (stages >>= fun _ => ringDoorbell slotId 1)) { b with transfer := .cleared }
      fun _ d => d = b.transferred (.sent (slotId, p)) := by
    refine withXhci_speaks ?_
    rw [show ({ b with transfer := .cleared, off := true, held := true } : Dialogue) = b.queueing .idle by
      unfold Dialogue.queueing
      rw [← hstage]]
    refine hbody.mono fun _ d hd => ?_
    subst hd
    exact ⟨rfl, rfl⟩
  refine hsection.bind fun _ d hd => ?_
  subst hd
  exact waitFor_speaks rfl hdone hexpired _

/-- A TRB that belongs on the ring now. -/
theorem enqueue_speaks (t : Trb) (st : Stage) (h : b.MayQueue t st) {Q : Unit → Dialogue → Prop}
    (hq : Q () (b.queueing (st.next t))) : Speaks (ep0EnqueueTrb t.parameter t.status t.control) (b.queueing st) Q :=
  ⟨⟨⟨rfl, rfl⟩, rfl, h⟩, fun _ _ => hq⟩

theorem isSetup_of {w : BitVec 64} {control : BitVec 32} {n : BitVec 2}
    (h : (SetupPacket.ofParameter w).transferType = n)
    (hc : ((control >>> 10) &&& 0x3F#32).toNat = 2 ∧ control.getLsbD 6 = true ∧ control.getLsbD 5 = false ∧
      control.extractLsb' 16 2 = n) :
    Trb.IsSetup ⟨w, 8, control⟩ :=
  ⟨hc.1, hc.2.1, hc.2.2.1, (by decide : (8#32 &&& 0x1FFFF#32).toNat = 8), hc.2.2.2.trans h.symm⟩

/-- The stages of a request with data from the device. -/
theorem stagesIn_speaks {w : BitVec 64} {bufVirt bufPhys wLength n : Nat} (hp : SetupPacket.ofParameter w = p)
    (hin : p.fromDevice = true) (h0 : p.wLength ≠ 0#16) (hlength : p.wLength.toNat ≤ n)
    (hdata : (BitVec.ofNat 32 wLength &&& 0x1FFFF#32 &&& 0x1FFFF#32).toNat = p.wLength.toNat)
    (hbuf : b.Has bufVirt bufPhys (.bytes n)) :
    Speaks (stagesIn w bufPhys wLength) (b.queueing .idle) fun _ d => d = b.queueing (.status p) := by
  have htype : p.transferType = 3#2 := by
    unfold SetupPacket.transferType
    simp [h0, hin]
  have hstatus : p.statusIn = false := by
    unfold SetupPacket.statusIn
    simp [h0, hin]
  subst hp
  -- the three TRBs of the transfer
  let data : Trb := ⟨BitVec.ofNat 64 bufPhys, BitVec.ofNat 32 wLength &&& 0x1FFFF#32, dataControl⟩
  have hnext : (Stage.setup (.ofParameter w)).next data = .data (.ofParameter w) := if_neg h0
  have hdir : dataControl.getLsbD 16 = true := by decide
  have hisData : data.IsData (.ofParameter w) := by
    refine ⟨?_, ?_, ?_, hdata, hdir.trans hin.symm⟩
    · show ((dataControl >>> 10) &&& 0x3F#32).toNat = 3
      decide
    · show dataControl.getLsbD 6 = false
      decide
    · show dataControl.getLsbD 5 = false
      decide
  have hisStatus : Trb.IsStatus (.ofParameter w) ⟨0, 0, statusControl 0⟩ := by
    have hdir0 : (statusControl 0).getLsbD 16 = false := by decide
    exact ⟨by decide, by decide, hdir0.trans hstatus.symm⟩
  refine Prog.Conforms.bind (enqueue_speaks ⟨w, 8, setupControl 3⟩ .idle (isSetup_of htype (by decide))
    (Q := fun _ d => d = b.queueing (.setup (.ofParameter w))) rfl) fun _ d hd => ?_
  subst hd
  refine Prog.Conforms.bind (enqueue_speaks data (.setup (.ofParameter w))
    (Q := fun _ d => d = b.queueing (.data (.ofParameter w))) ?_ (congrArg b.queueing hnext)) fun _ d hd => ?_
  · show if (SetupPacket.ofParameter w).wLength = 0#16 then _ else _
    rw [if_neg h0]
    exact ⟨hisData, bufVirt, bufPhys, n, rfl, hbuf, hlength⟩
  subst hd
  exact enqueue_speaks ⟨0, 0, statusControl 0⟩ (.data (.ofParameter w)) hisStatus rfl

/-- The stages of a request without data. -/
theorem stagesNone_speaks {w : BitVec 64} (hp : SetupPacket.ofParameter w = p) (h0 : p.wLength = 0#16) :
    Speaks (ep0EnqueueTrb w 8 (setupControl 0) >>= fun _ => ep0EnqueueTrb 0 0 (statusControl 1)) (b.queueing .idle)
      fun _ d => d = b.queueing (.status p) := by
  have htype : p.transferType = 0#2 := by
    unfold SetupPacket.transferType
    simp [h0]
  have hstatus : p.statusIn = true := by
    unfold SetupPacket.statusIn
    simp [h0]
  subst hp
  have hisStatus : Trb.IsStatus (.ofParameter w) ⟨0, 0, statusControl 1⟩ := by
    have hdir : (statusControl 1).getLsbD 16 = true := by decide
    exact ⟨by decide, by decide, hdir.trans hstatus.symm⟩
  have hnext : (Stage.setup (.ofParameter w)).next ⟨0, 0, statusControl 1⟩ = .status (.ofParameter w) := if_pos h0
  refine Prog.Conforms.bind (enqueue_speaks ⟨w, 8, setupControl 0⟩ .idle (isSetup_of htype (by decide))
    (Q := fun _ d => d = b.queueing (.setup (.ofParameter w))) rfl) fun _ d hd => ?_
  subst hd
  refine enqueue_speaks ⟨0, 0, statusControl 1⟩ (.setup (.ofParameter w)) ?_ (congrArg b.queueing hnext)
  show if (SetupPacket.ofParameter w).wLength = 0#16 then _ else _
  rw [if_pos h0]
  exact hisStatus

@[simp] theorem transferResult_stage (b : Dialogue) (code : Nat) : (b.transferResult code).stage = b.stage := by
  unfold Dialogue.transferResult
  split <;> rfl

@[simp] theorem transferResult_ep0 (b : Dialogue) (code : Nat) : (b.transferResult code).ep0 = b.ep0 := by
  unfold Dialogue.transferResult
  split <;> rfl

theorem transferResult_slot (h : b.transfer = .done (slotId, p)) (code : Nat) : (b.transferResult code).slot =
    if code = 1 ∧ p.IsSetConfiguration then Function.update b.slot slotId (.configured []) else b.slot := by
  unfold Dialogue.transferResult
  rw [h]

/-- The result of a request that leaves the device in its state. -/
theorem transferResult_attends {st : SlotState} (h : b.Attends slotId st) (hdone : b.transfer = .done (slotId, p))
    (hp : ¬ p.IsSetConfiguration) (code : Nat) : (b.transferResult code).Attends slotId st := by
  refine ⟨(transferResult_stage _ _).trans h.stage, (transferResult_ep0 _ _).trans h.ep0, ?_⟩
  rw [transferResult_slot hdone, if_neg fun hc => hp hc.2]
  exact h.slot

/-- A descriptor is requested into a box of its length. -/
theorem getDescriptor_speaks {site : Site} {w : BitVec 64} {bufVirt bufPhys wLength n : Nat} (hlt : slotId < 256)
    (h : b.Attends slotId .addressed) (hp : SetupPacket.ofParameter w = p) (hget : p.IsGetDescriptor)
    (h0 : p.wLength ≠ 0#16) (hlength : p.wLength.toNat ≤ n)
    (hdata : (BitVec.ofNat 32 wLength &&& 0x1FFFF#32 &&& 0x1FFFF#32).toNat = p.wLength.toNat)
    (hbuf : b.Has bufVirt bufPhys (.bytes n)) :
    Speaks (transfer site slotId (stagesIn w bufPhys wLength)) b fun r c =>
      c.Attends slotId .addressed ∧ (r = true → c.transfer = .done (slotId, p)) := by
  have hpermits : (b.slot slotId).Permits p := by
    rw [h.slot]
    exact .inl hget
  have hin : p.fromDevice = true := by
    unfold SetupPacket.fromDevice
    rw [hget.1]
    decide
  exact transfer_speaks hlt h.stage h.ep0 hpermits (stagesIn_speaks hp hin h0 hlength hdata hbuf)
    ⟨⟨rfl, h.ep0, h.slot⟩, fun _ => rfl⟩ ⟨⟨rfl, h.ep0, h.slot⟩, fun h => absurd h Bool.false_ne_true⟩

theorem not_setConfiguration (h : p.IsGetDescriptor) : ¬ p.IsSetConfiguration := by
  rintro ⟨h0, -⟩
  rw [h.1] at h0
  exact absurd h0 (by decide)

theorem getDeviceDescriptor_speaks (hlt : slotId < 256) (h : b.Attends slotId .addressed) :
    Speaks (getDeviceDescriptor slotId) b fun _ c => c.Attends slotId .addressed := by
  refine ⟨trivial, fun bufVirt _ => ⟨trivial, fun bufPhys _ => ?_⟩⟩
  cases bufPhys with
  | none => exact ⟨h.stage, h.ep0, h.slot⟩
  | some bufPhys =>
    let p : SetupPacket := ⟨0x80#8, 0x06#8, 0x100#16, 0#16, 18#16⟩
    have hp : SetupPacket.ofParameter (setupParameter 0x80 0x06 0x100 0 18) = p := by decide
    refine Prog.Conforms.bind (Q := fun r c => c.Attends slotId .addressed ∧
      (r = true → c.transfer = .done (slotId, p))) ?_
      fun r c hc => ?_
    · exact getDescriptor_speaks hlt ⟨h.stage, h.ep0, h.slot⟩ hp ⟨rfl, rfl⟩ (by decide) (n := 18)
        (by decide) (by decide)
        ⟨.head _, .head _⟩
    obtain ⟨hattends, hdone⟩ := hc
    cases r with
    | false => exact hattends
    | true =>
      refine ⟨⟨_, hdone rfl⟩, fun code _ => ?_⟩
      have hafter := transferResult_attends hattends (hdone rfl) (not_setConfiguration ⟨rfl, rfl⟩) code
      refine (?_ : Speaks (if code ≠ 1 ∧ code ≠ 13 then _ else _) _ _)
      split
      · exact hafter
      · exact ⟨trivial, fun _ _ => hafter⟩

theorem controlTransferIn_speaks {bufVirt bufPhys : Nat} (hlt : slotId < 256) (h : b.Attends slotId .addressed)
    (hbuf : b.Has bufVirt bufPhys (.bytes 256)) :
    Speaks (controlTransferIn slotId 0x80 0x06 0x200 0 bufPhys 256) b fun _ c => c.Attends slotId .addressed := by
  let p : SetupPacket := ⟨0x80#8, 0x06#8, 0x200#16, 0#16, 256#16⟩
  have hp : SetupPacket.ofParameter (setupParameter 0x80 0x06 0x200 0 256) = p := by decide
  refine Prog.Conforms.bind (getDescriptor_speaks hlt h hp ⟨rfl, rfl⟩ (by decide) (by decide) (by decide) hbuf)
    fun r c hc => ?_
  obtain ⟨hattends, hdone⟩ := hc
  cases r with
  | false => exact hattends
  | true =>
    exact ⟨⟨_, hdone rfl⟩, fun code _ => ⟨trivial, fun _ _ =>
      transferResult_attends hattends (hdone rfl) (not_setConfiguration ⟨rfl, rfl⟩) code⟩⟩

/-- A request without data, in a state that permits it. -/
theorem noData_speaks {st : SlotState} {bmRequestType bRequest wValue wIndex : Nat} (hlt : slotId < 256)
    (h : b.Attends slotId st)
    (hp : SetupPacket.ofParameter (setupParameter bmRequestType bRequest wValue wIndex 0) = p) (hpermits : st.Permits p)
    (h0 : p.wLength = 0#16) {Q : Except String Unit → Dialogue → Prop}
    (hdone : ∀ code, Q (if code = 1 then .ok ()
      else .error "Control Transfer (no data gagal, completion code bukan Success")
      ((b.transferred (.done (slotId, p))).transferResult code))
    (hexpired : Q (.error "Timeout control transfer no data") (b.transferred .idle)) :
    Speaks (controlTransferNoData slotId bmRequestType bRequest wValue wIndex) b Q := by
  refine Prog.Conforms.bind (transfer_speaks (Q := fun r d =>
    d = b.transferred (if r then .done (slotId, p) else .idle)) hlt h.stage h.ep0 (by rw [h.slot]; exact hpermits)
    (stagesNone_speaks hp h0) rfl rfl) fun r c hc => ?_
  subst hc
  cases r with
  | false => exact hexpired
  | true => exact ⟨⟨_, rfl⟩, fun code _ => hdone code⟩

theorem setConfiguration_speaks (hlt : slotId < 256) (h : b.Attends slotId .addressed) :
    Speaks (controlTransferNoData slotId 0x00 0x09 1 0) b fun r c => c.stage = .idle ∧
      (r = .ok () → c.Serves slotId) := by
  have hp : SetupPacket.ofParameter (setupParameter 0x00 0x09 1 0 0) = ⟨0x00#8, 0x09#8, 1#16, 0#16, 0#16⟩ := by decide
  refine noData_speaks hlt h hp (.inr ⟨rfl, rfl, by decide, rfl⟩) rfl
    (fun code => ⟨transferResult_stage _ _, fun hr => ?_⟩)
    ⟨rfl, fun h => by cases h⟩
  split at hr
  · rename_i hcode
    refine ⟨[], transferResult_stage _ _, (transferResult_ep0 _ _).trans h.ep0, ?_⟩
    rw [transferResult_slot (b := b.transferred _) rfl, if_pos ⟨hcode, rfl, rfl, by decide, rfl⟩]
    exact Function.update_self ..
  · cases hr

/-- The packet of `SET_PROTOCOL`. -/
theorem setProtocol_packet : ∀ n : Fin 256, SetupPacket.ofParameter (setupParameter 0x21 0x0B 0 n 0) =
    ⟨0x21#8, 0x0B#8, 0#16, BitVec.ofNat 16 n, 0#16⟩ := by decide +kernel

theorem hasRing_transferResult {virt phys : Nat} (h : b.HasRing virt phys) (code : Nat) :
    (b.transferResult code).HasRing virt phys := by
  unfold Dialogue.transferResult
  split <;> exact h

/-- `SET_PROTOCOL` leaves the device configured. -/
theorem setProtocol_speaks {n : Nat} {endpoints : List Endpoint} {virt phys : Nat} (hlt : slotId < 256) (hn : n < 256)
    (h : b.Attends slotId (.configured endpoints)) (hring : b.HasRing virt phys) :
    Speaks (controlTransferNoData slotId 0x21 0x0B 0 n) b fun _ c =>
      c.Attends slotId (.configured endpoints) ∧ c.HasRing virt phys := by
  have hset : SetupPacket.IsSetProtocol ⟨0x21#8, 0x0B#8, 0#16, BitVec.ofNat 16 n, 0#16⟩ := ⟨rfl, rfl, rfl, rfl⟩
  refine noData_speaks hlt h (setProtocol_packet ⟨n, hn⟩) (.inr (.inr hset)) rfl (fun code => ⟨?_, ?_⟩)
    ⟨⟨rfl, h.ep0, h.slot⟩, hring⟩
  · refine transferResult_attends (b := b.transferred _) ⟨rfl, h.ep0, h.slot⟩ rfl (fun hc => ?_) code
    exact absurd hc.1 (by decide : (0x21#8 : BitVec 8) ≠ 0x00#8)
  · exact hasRing_transferResult (b := b.transferred _) hring code

end Transfers

/-! ## The drivers -/

section Drivers

variable {b : Dialogue} {slotId : Nat}

theorem armNextReport_speaks {k : DeviceKind} {st : DriverState} (hd : b.driver k = some st) (hst : b.Configured st)
    (h : b.Serves slotId) : Speaks (armNextReport k) b fun _ c => c.Serves slotId := by
  obtain ⟨endpoints, hstage, hep0, hslot⟩ := h
  cases k
  all_goals
    refine ⟨trivial, fun _ _ => ⟨trivial, fun st _ => ?_⟩⟩
    cases st with
    | none => exact ⟨trivial, fun _ _ => ⟨endpoints, hstage, hep0, hslot⟩⟩
    | some _ => exact ⟨trivial,
        fun _ _ => ⟨trivial, fun _ _ => ⟨⟨st, hd, hst⟩, fun _ _ => ⟨hstage, fun _ _ => ⟨trivial, fun _ _ =>
        ⟨endpoints, hstage, hep0, hslot⟩⟩⟩⟩⟩⟩

/-- The state that `init_*` makes is one that a driver may take, and its first report is armed. -/
theorem initDriver_speaks (k : DeviceKind) (message : String) {handle : EndpointHandle} {n : Nat}
    (hlt : slotId < 256) (hn : n < 256) (h : b.Serves slotId) (ho : b.Owns slotId handle) :
    Speaks (initDriver k message slotId handle n) b fun _ c => c.Serves slotId := by
  obtain ⟨endpoints, hattends⟩ := h
  obtain ⟨⟨endpoints', hslot, hmem⟩, hring⟩ := ho
  have he : endpoints' = endpoints := by
    rw [hattends.slot] at hslot
    exact (SlotState.configured.inj hslot).symm
  subst he
  -- SET_PROTOCOL may fail, and is ignored then; the endpoint and its ring stay in any case
  refine Prog.Conforms.bind (setProtocol_speaks hlt hn hattends hring) fun _ c hc => ?_
  obtain ⟨hc, hcring⟩ := hc
  refine ⟨trivial, fun virt _ => ⟨trivial, fun phys _ => ?_⟩⟩
  cases phys with
  | none => exact ⟨trivial, fun r => r.elim⟩
  | some phys =>
    refine ⟨dciReg_routing k, fun _ _ => ⟨slotReg_routing k, fun _ _ => ?_⟩⟩
    have htakes : ∀ d : Dialogue, d.slot = c.slot → d.boxes = (virt, .bytes 8) :: c.boxes →
        d.translated = (virt, phys) :: c.translated → d.linked = c.linked →
        d.Takes ⟨slotId, handle.ringVirt, handle.ringPhys, 0, true, handle.dci, virt, phys⟩ := by
      intro d hs hb ht hl
      refine ⟨⟨endpoints', (congrFun hs slotId).trans hc.slot, hmem⟩, ⟨⟨?_, ?_⟩, ?_⟩, rfl, rfl, ?_, ?_⟩
      · exact hb ▸ .tail _ hcring.1.1
      · exact ht ▸ .tail _ hcring.1.2
      · exact hl ▸ hcring.2
      · exact hb ▸ .head _
      · exact ht ▸ .head _
    have hdriver : ∀ st : DriverState, Function.update c.driver k (some st) k = some st :=
      fun st => Function.update_self ..
    cases k <;>
    exact ⟨trivial, fun _ _ => ⟨htakes _ rfl rfl rfl rfl, fun _ _ => ⟨trivial, fun _ _ =>
      armNextReport_speaks (hdriver _) ⟨endpoints', hc.slot, hmem⟩ ⟨endpoints', hc.stage, hc.ep0, hc.slot⟩⟩⟩⟩

theorem shutdownDriver_speaks (k : DeviceKind) (slotId : Nat) (h : b.stage = .idle) :
    Speaks (shutdownDriver k slotId) b fun _ c => c.stage = .idle := by
  cases k
  all_goals
    refine ⟨trivial, fun _ _ => ⟨trivial, fun st _ => ?_⟩⟩
    cases st with
    | none => exact ⟨trivial, fun _ _ => h⟩
    | some st =>
      refine (?_ : Speaks (if st.slotId ≠ slotId then _ else _) _ _)
      split
      · exact ⟨trivial, fun _ _ => h⟩
      · exact ⟨trivial, fun _ _ =>
          ⟨trivial, fun _ _ => ⟨rfl, fun _ _ => ⟨rfl, fun _ _ => ⟨trivial, fun _ _ => ⟨trivial, fun _ _ => h⟩⟩⟩⟩⟩⟩

end Drivers

/-! ## Enumeration -/

section Enumeration

variable {b : Dialogue} {slotId : Nat}

/-- The interface numbers are bytes. -/
theorem parseStep_number {st st' : CurrentInterface × List EndpointInfo} {t : List UInt8}
    (hs : parseStep st t = some st') (hnumber : st.1.number < 256) (hall : ∀ ep ∈ st.2, ep.interfaceNumber < 256) :
    st'.1.number < 256 ∧ ∀ ep ∈ st'.2, ep.interfaceNumber < 256 := by
  unfold parseStep at hs
  simp only [Option.bind_eq_bind, Option.pure_def] at hs
  split at hs
  -- an interface descriptor, an endpoint descriptor, any other
  · obtain ⟨number, hn, hs⟩ := Option.bind_eq_some_iff.1 hs
    obtain ⟨cls, -, hs⟩ := Option.bind_eq_some_iff.1 hs
    obtain ⟨protocol, -, hs⟩ := Option.bind_eq_some_iff.1 hs
    obtain ⟨byte, -, rfl⟩ := Option.map_eq_some_iff.1 hn
    cases hs
    exact ⟨byte.toNat_lt, hall⟩
  · split at hs
    · obtain ⟨address, -, hs⟩ := Option.bind_eq_some_iff.1 hs
      obtain ⟨attributes, -, hs⟩ := Option.bind_eq_some_iff.1 hs
      obtain ⟨lo, -, hs⟩ := Option.bind_eq_some_iff.1 hs
      obtain ⟨hi, -, hs⟩ := Option.bind_eq_some_iff.1 hs
      obtain ⟨interval, -, hs⟩ := Option.bind_eq_some_iff.1 hs
      cases hs
      refine ⟨hnumber, fun ep hep => ?_⟩
      dsimp only at hep
      split at hep
      · rcases List.mem_append.1 hep with hep | hep
        · exact hall ep hep
        · rw [List.mem_singleton.1 hep]
          exact hnumber
      · exact hall ep hep
    · cases hs
      exact ⟨hnumber, hall⟩

theorem foldlM_number (ts : List (List UInt8)) {st st' : CurrentInterface × List EndpointInfo}
    (hs : ts.foldlM parseStep st = some st') (hnumber : st.1.number < 256)
    (hall : ∀ ep ∈ st.2, ep.interfaceNumber < 256) :
    ∀ ep ∈ st'.2, ep.interfaceNumber < 256 := by
  induction ts generalizing st with
  | nil =>
    cases hs
    exact hall
  | cons t ts ih =>
    rw [List.foldlM_cons] at hs
    obtain ⟨st₁, h₁, hs⟩ := Option.bind_eq_some_iff.1 hs
    obtain ⟨hnumber₁, hall₁⟩ := parseStep_number h₁ hnumber hall
    exact ih hs hnumber₁ hall₁

theorem parseDescriptors_number {buf : List UInt8} {found : List EndpointInfo}
    (h : parseDescriptors buf 0 ⟨0, 0, 0⟩ [] = some found) : ∀ ep ∈ found, ep.interfaceNumber < 256 := by
  have he := parseDescriptors_eq buf 0 (⟨0, 0, 0⟩, [])
  rw [h] at he
  obtain ⟨st, hs, rfl⟩ := Option.map_eq_some_iff.1 he.symm
  exact foldlM_number _ hs (by decide : 0 < 256) (by simp)

/-- The descriptor is read with requests that the device takes, and what is found in it has interface numbers of
a byte. -/
theorem getInterruptEndpoints_speaks (hlt : slotId < 256) (h : b.Attends slotId .addressed) :
    Speaks (getInterruptEndpoints slotId) b fun r c =>
      c.Attends slotId .addressed ∧ ∀ eps, r = .ok eps → ∀ ep ∈ eps, ep.interfaceNumber < 256 := by
  refine ⟨trivial, fun bufVirt _ => ⟨trivial, fun bufPhys _ => ?_⟩⟩
  cases bufPhys with
  | none => exact ⟨⟨h.stage, h.ep0, h.slot⟩, fun _ h => by cases h⟩
  | some bufPhys =>
    refine Prog.Conforms.bind (Q := fun (_ : Except String Nat) c => c.Attends slotId .addressed) ?_ fun r c hc => ?_
    · exact controlTransferIn_speaks hlt ⟨h.stage, h.ep0, h.slot⟩ ⟨.head _, .head _⟩
    cases r with
    | error e => exact ⟨hc, fun _ h => by cases h⟩
    | ok actualLen =>
      refine ⟨trivial, fun buf _ => ?_⟩
      dsimp only [Prog.bind]
      cases hfound : parseDescriptors buf 0 ⟨0, 0, 0⟩ [] with
      | none => exact ⟨trivial, fun r => r.elim⟩
      | some found =>
        refine ⟨hc, fun eps he => ?_⟩
        split at he
        · cases he
        · cases he
          exact parseDescriptors_number hfound

theorem dispatchEndpoint_speaks (rootPort : Nat) {ep : EndpointInfo} (hlt : slotId < 256)
    (hn : ep.interfaceNumber < 256) (h : b.Serves slotId) :
    Speaks (dispatchEndpoint slotId rootPort ep) b fun _ c => c.Serves slotId := by
  unfold dispatchEndpoint
  split
  · exact h
  · refine Prog.Conforms.bind (configureEndpoint_speaks rootPort ep h) fun r c hc => ?_
    obtain ⟨hserves, howns⟩ := hc
    cases r with
    | error e => exact hserves
    | ok handle =>
      have hinit : ∀ k message, Speaks (initDriver k message slotId handle ep.interfaceNumber) c fun _ c =>
        c.Serves slotId :=
        fun k message => initDriver_speaks k message hlt hn hserves (howns handle rfl)
      dsimp only
      split
      · exact (hinit .keyboard _).bind fun _ _ hc => hc
      · exact (hinit .mouse _).bind fun _ _ hc => hc
      · exact hserves

theorem dispatchAll_speaks (rootPort : Nat) (hlt : slotId < 256) {eps : List EndpointInfo}
    (hn : ∀ ep ∈ eps, ep.interfaceNumber < 256) (hasKeyboard hasMouse : Bool) (h : b.Serves slotId) :
    Speaks (dispatchAll slotId rootPort hasKeyboard hasMouse eps) b fun _ c => c.Serves slotId := by
  induction eps generalizing b hasKeyboard hasMouse with
  | nil => exact h
  | cons ep rest ih =>
    refine Prog.Conforms.bind (dispatchEndpoint_speaks rootPort hlt (hn ep (.head _)) h) fun r c hc => ?_
    have hrest : ∀ ep ∈ rest, ep.interfaceNumber < 256 := fun e he => hn e (.tail _ he)
    cases r with
    | none => exact ih hrest hasKeyboard hasMouse hc
    | some k =>
      cases k with
      | keyboard => exact ih hrest true hasMouse hc
      | mouse => exact ih hrest hasKeyboard true hc

/-- A device that was just addressed. -/
theorem setupDevice_speaks (rootPort : Nat) (hlt : slotId < 256) (h : b.Attends slotId .addressed) :
    Speaks (setupDevice slotId rootPort) b fun _ c => c.stage = .idle := by
  refine Prog.Conforms.bind (getDeviceDescriptor_speaks hlt h) fun r c hc => ?_
  cases r with
  | error e => exact hc.stage
  | ok descriptor =>
    refine Prog.Conforms.bind (getInterruptEndpoints_speaks hlt hc) fun r c hc => ?_
    obtain ⟨hattends, hnumber⟩ := hc
    cases r with
    | error e => exact hattends.stage
    | ok eps =>
      refine Prog.Conforms.bind (setConfiguration_speaks hlt hattends) fun r c hc => ?_
      cases r with
      | error e => exact hc.1
      | ok u =>
        refine (dispatchAll_speaks rootPort hlt (hnumber eps rfl) false false (hc.2 rfl)).mono ?_
        rintro _ c ⟨_, hc⟩
        exact hc.stage

theorem initOneDevice_speaks (rootPort speed : Nat) (h : b.Settled) : Speaks (initOneDevice rootPort speed) b fun r c =>
    c.Settled ∧ ∀ entry, r = some entry → Dialogue.Covered { c with active := c.active ++ [entry] } := by
  refine Prog.Conforms.bind (enableSlot_speaks h.stage) fun r c hc => ?_
  obtain ⟨hidle, hok, herror⟩ := hc
  cases r with
  | error e => exact ⟨⟨hidle, h.covered.same (herror e rfl)⟩, fun _ h => by cases h⟩
  | ok slotId =>
    obtain ⟨hlt, henabled, hledger⟩ := hok slotId rfl
    refine Prog.Conforms.bind
      (Speaks.keeps (addressDevice_speaks rootPort speed hidle henabled) (addressDevice_unbooked ..))
      fun r c' hc' => ?_
    obtain ⟨⟨hidle, hattends⟩, hkept⟩ := hc'
    cases r with
    | error e => exact ⟨⟨hidle, (h.covered.granted (hkept.trans hledger)).1⟩, fun _ h => by cases h⟩
    | ok u =>
      -- the entry that is returned names the slot that was granted
      refine Prog.Conforms.bind
        ((Speaks.keeps (setupDevice_speaks rootPort hlt (hattends rfl)) (setupDevice_unbooked ..)).returns
        (setupDevice_returns slotId rootPort)) fun entry d hd => ?_
      obtain ⟨⟨hidle, hsetup⟩, -, hslot⟩ := hd
      obtain ⟨hcovered, hregister⟩ := h.covered.granted (hsetup.trans (hkept.trans hledger))
      refine ⟨⟨hidle, hcovered⟩, fun entry' he => ?_⟩
      cases he
      exact hregister entry hslot

theorem onlyIf_speaks {p : KProg Unit} (cond : Bool)
    (hp : ∀ c : Dialogue, c.stage = .idle → Speaks p c fun _ c => c.stage = .idle)
    (hops : p.All fun o => o.unbooked = true) (h : b.stage = .idle) :
    Speaks (onlyIf cond p) b fun _ c => c.stage = .idle ∧ c.ledger = b.ledger := by
  cases cond with
  | false => exact ⟨h, rfl⟩
  | true => exact Speaks.keeps (hp b h) hops

theorem shutdownDevice_speaks (entry : ActivePort) (h : b.stage = .idle) (hgrants : 0 < b.grants entry.slotId) :
    Speaks (shutdownDevice entry) b fun _ c => c.stage = .idle ∧
      c.ledger = (Function.update b.grants entry.slotId (b.grants entry.slotId - 1), b.active) := by
  refine Prog.Conforms.bind
    (onlyIf_speaks _ (fun _ => shutdownDriver_speaks .keyboard _) (shutdownDriver_unbooked ..) h) fun _ c hc => ?_
  refine Prog.Conforms.bind
    (onlyIf_speaks _ (fun _ => shutdownDriver_speaks .mouse _) (shutdownDriver_unbooked ..) hc.1) fun _ d hd => ?_
  obtain ⟨hg, ha⟩ := Prod.mk.inj (hd.2.trans hc.2)
  refine (disableSlot_speaks _ hd.1 (by rw [hg]; exact hgrants)).bind fun _ e he => ⟨he.1, he.2.trans ?_⟩
  rw [hg, ha]

/-! ## The loops over the ports -/

/-- At each entry the registry is the entries kept so far and those still to come. -/
theorem disconnectLoop_speaks (states : List (Nat × Nat)) (kept rest : List ActivePort) (h : b.Settled)
    (ha : b.active = kept ++ rest) : Speaks (disconnectLoop states kept rest) b fun _ c => c.Settled := by
  induction rest generalizing b kept with
  | nil => exact h
  | cons entry rest ih =>
    unfold disconnectLoop
    split
    · exact ih _ h (by rw [ha, List.append_assoc]; rfl)
    · obtain ⟨hgrants, hcovered⟩ := h.covered.unregister ha
      have hdown : Speaks (shutdownDevice entry >>= fun _ => disconnectLoop states kept rest)
        { b with active := kept ++ rest }
          fun _ c => c.Settled :=
        (shutdownDevice_speaks (b := { b with active := kept ++ rest }) entry h.stage hgrants).bind fun _ c hc =>
          ih _ ⟨hc.1, hcovered c hc.2⟩ (congrArg Prod.snd hc.2)
      exact ⟨trivial, fun _ _ => hdown⟩

theorem connectLoop_speaks (todo : List (Nat × Nat)) (h : b.Settled) :
    Speaks (connectLoop todo) b fun _ c => c.Settled := by
  induction todo generalizing b with
  | nil => exact h
  | cons st todo ih =>
    obtain ⟨port, speed⟩ := st
    refine ⟨trivial, fun active _ => ?_⟩
    refine (?_ : Speaks (if (active.any fun e => e.rootPort == port + 1) = true then _ else _) _ _)
    split
    · exact ih h
    · refine Prog.Conforms.bind (initOneDevice_speaks _ _ h) fun r c hc => ?_
      cases r with
      | none => exact ⟨trivial, fun _ _ => ih hc.1⟩
      | some entry =>
        refine ⟨trivial, fun active hactive => ⟨trivial, fun _ _ => ih ⟨hc.1.stage, ?_⟩⟩⟩
        have hregistry : active = c.active := hactive
        subst hregistry
        exact hc.2 entry rfl

theorem scanPorts_speaks (port n : Nat) (h : b.stage = .idle) :
    Speaks (scanPorts port n) b fun _ c => c.stage = .idle := by
  induction n generalizing port b with
  | zero => exact h
  | succ n ih => exact ⟨trivial, fun _ _ => (ih (port + 1) h).bind fun _ _ hc => hc⟩

theorem portStates_speaks (h : b.stage = .idle) : Speaks portStates b fun _ c => c.stage = .idle := by
  refine ⟨trivial, fun _ _ => ⟨trivial, fun _ _ => ⟨trivial, fun n _ => ?_⟩⟩⟩
  show Speaks (scanPorts 0 n >>= fun states => unlock .xhci >>= fun _ => pure states) _ _
  refine Prog.Conforms.bind (scanPorts_speaks 0 n h) fun states c hc => ?_
  exact ⟨hc, fun _ _ => hc⟩

theorem discoverAndInitHidDevices_speaks (h : b.Settled) : Speaks discoverAndInitHidDevices b fun _ c => c.Settled := by
  have hstates := Speaks.keeps (portStates_speaks h.stage) (portStates_all rfl rfl rfl (fun _ => rfl) rfl)
  refine Prog.Conforms.bind hstates fun states c hc => ⟨trivial, fun _ _ => ⟨trivial, fun active hactive => ?_⟩⟩
  show Speaks (disconnectLoop states [] active >>= fun _ => connectLoop states >>= fun _ => unlock .activePorts) _ _
  refine Prog.Conforms.bind (disconnectLoop_speaks states [] active ⟨hc.1, h.covered.same hc.2⟩ ?_) fun _ c hc => ?_
  · exact Eq.symm hactive
  · exact (connectLoop_speaks states hc).bind fun _ _ hc => ⟨trivial, fun _ _ => hc⟩

theorem pollHotplug_speaks (h : b.Settled) : Speaks pollHotplug b fun _ c => c.Settled := by
  refine ⟨trivial, fun changed _ => ?_⟩
  cases changed with
  | false => exact h
  | true =>
    refine ⟨trivial, fun some _ => ?_⟩
    cases some with
    | false => exact h
    | true => exact discoverAndInitHidDevices_speaks h

theorem syncCalls_speaks (calls : List SyncCall) (h : b.Settled) : Speaks (syncCalls calls) b fun _ c => c.Settled := by
  induction calls generalizing b with
  | nil => exact h
  | cons i rest ih =>
    cases i with
    | discoverAndInitHidDevices => exact (discoverAndInitHidDevices_speaks h).bind fun _ _ hc => ih hc
    | pollHotplug => exact (pollHotplug_speaks h).bind fun _ _ hc => ih hc

end Enumeration

/-! ## Runs -/

section Runs

variable {R : Rules} {s s' : Kernel}

/-- What `COMPLETION_SLOT` holds comes from an event. -/
theorem exec_completionSlot {o : Op} {r : Ret o} (ho : ∀ n, o ≠ .storeReg .completionSlot n)
    (he : s.exec o = some (r, s')) (h : s.globals.reg .completionSlot < 256) :
    s'.globals.reg .completionSlot < 256 := by
  by_cases hp : o = .pollEventRing
  · subst hp
    cases he
    show (pollQueue Event.trb s.hw.events s.globals).2.reg .completionSlot < 256
    cases s.hw.events with
    | nil => exact h
    | cons e rest =>
      show (s.globals.dispatch e.trb).reg .completionSlot < 256
      by_cases ht : e.trb.trbType = 33
      · rw [(dispatch_completion _ ht).2.2]
        have hslot : ((e.trb.control >>> 24) &&& 0xFF#32).toNat < 256 := by
          rw [BitVec.toNat_and]
          exact Nat.lt_of_le_of_lt Nat.and_le_right (by decide)
        exact hslot
      · rw [(dispatch_mail _ ht).2.2]
        exact h
  · rw [(exec_keeps he).reg _ ho hp]
    exact h

/-- What the main context is told is borne out by the kernel's state. -/
def Dialogue.Borne (b : Dialogue) (s : Kernel) : Prop := s.globals.reg .completionSlot < 256 ∧ s.activePorts = b.active

/-- The slot number that the main context reads is one of 8 bits, and the registry is what it stored last, whatever
happens in between. -/
theorem machine_answers (R : Rules) : (machine R).Answers dialogue Dialogue.Borne Plausible where
  stable b s s' hs he := by
    refine ⟨?_, (env_unmoved he).activePorts.trans hs.2⟩
    cases he with
    | interrupt _ hrun =>
      refine runToEnd_frame (P := fun s => s.globals.reg .completionSlot < 256) interruptHandler_ops
        (fun o t r t' ho he ht => ?_) hrun hs.1
      refine exec_completionSlot ?_ he ht
      rintro n rfl
      cases ho
    | answer | complete | connect | disconnect | dma => exact hs.1
  exec o s r s' b hm hs he := by
    -- the main context may store the drivers' registers only
    have hne : ∀ n, o ≠ .storeReg .completionSlot n := by
      rintro n rfl
      cases hm
    refine ⟨?_, exec_completionSlot hne he hs.1, ?_⟩
    · cases o <;> try trivial
      case loadReg reg =>
        cases reg <;> try trivial
        case completionSlot =>
          cases he
          exact hs.1
      case getActive =>
        cases he
        exact hs.2
    · by_cases hset : ∃ l, o = .setActive l
      · obtain ⟨l, rfl⟩ := hset
        cases he
        rfl
      · have hother : ∀ l, o ≠ .setActive l := fun l hl => hset ⟨l, hl⟩
        exact ((exec_keeps he).activePorts hother).trans (hs.2.trans (next_active hother).symm)

/-- From boot on and whatever the controller, the devices and the handler do in between, all that the main context
does keeps to the protocol. -/
theorem usb_conforms (h : PowerOn s) {calls : List SyncCall} {ds : List (Performed Op Ret)} {c : KProg Unit × Kernel}
    (hd : (machine R).Does (syncCalls calls, s) ds c) : dialogue.Accepts .new ds := by
  refine (machine_answers R).accepts hd (syncCalls_speaks calls ⟨rfl, fun _ => Nat.le_refl _⟩) ⟨?_, h.activePorts⟩
  show s.globals.reg .completionSlot < 256
  rw [h.globals]
  decide

/-- A keyboard at the only port, and a look at the ports that have not changed. -/
theorem usb_conforms_keyboard : ∃ ds s', (machine Rules.any).Does (syncCalls [.discoverAndInitHidDevices, .pollHotplug],
    Kernel.start 1 fun _ => ⟨true, false, 1, 0⟩) ds (.ret (), s') ∧ s'.kbd.isSome = true ∧
      dialogue.Accepts .new ds := by
  obtain ⟨a, s', hr, hkbd⟩ := exists_run (R := Rules.any) (plugIn 14 0 0 1 0x14000 (hidInterface 0 1 0x81) ++ ops 20)
    (syncCalls [.discoverAndInitHidDevices, .pollHotplug]) (Kernel.start 1 fun _ => ⟨true, false, 1, 0⟩)
    (fun _ s => s.kbd.isSome) (by decide +kernel)
  obtain ⟨ds, hd⟩ := hr.does
  exact ⟨ds, s', hd, hkbd, usb_conforms (powerOn_start (by decide) _ fun _ => rfl) hd⟩

end Runs

end Octagram.Usb

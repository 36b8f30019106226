/-
What `address_device` and `configure_endpoint` submit: one command each, with the input context that
is made from the arguments and, for `configure_endpoint`, from the ring that the call allocates. Up
to the submission no command was sent, and from the write of the input context on the memory holds
it (`Untouched`, `Ready`); the operations of the wait send nothing (`Op.mute`). `Contexts` and
`ContextLayout` are about what was submitted.
-/
import Octagram.Usb.Setup

namespace Octagram.Usb

open Octagram.Lib

/-! ## One command -/

/-- The commands that were sent from `s` on. -/
def Kernel.sentSince (s s' : Kernel) : List Command := s'.hw.commands.drop s.hw.commands.length

/-- The physical address of the next `Box::new`. -/
def Kernel.nextBox (s : Kernel) : Nat := s.boxes s.boxCount - s.hhdm.getD 0

/-- Since `s` no command was sent. -/
structure Unsent (s s' : Kernel) : Prop where
  hhdm : s'.hhdm = s.hhdm
  commands : s'.hw.commands = s.hw.commands

/-- Since `s` no command was sent and nothing was put on the heap. -/
def Untouched (s s' : Kernel) : Prop := Unsent s s' ∧ s'.nextBox = s.nextBox

/-- Since `s` no command was sent, and the memory at `phys` holds the input context `c`. -/
def Ready (s : Kernel) (phys : Nat) (c : InputContext) (s' : Kernel) : Prop := Unsent s s' ∧ s'.inputContext phys = c

/-- Since `s` one command was sent: for the slot, with the input context `c`. -/
def SentOne (s : Kernel) (trbType slotId : Nat) (c : InputContext) (s' : Kernel) : Prop :=
  ∃ t, s'.hw.commands = s.hw.commands ++ [⟨trbType, slotId, c, t⟩]

/-- The operations that send no command and write no input context. -/
def Op.mute : Op → Bool
  | .sendCommand _ _ _ | .boxNew (.inputContext _) => false
  | _ => true

section Steps

variable {R : Rules} {s s₁ s₂ : Kernel}

theorem SentOne.sentSince {trbType slotId : Nat} {c : InputContext} (h : SentOne s trbType slotId c s₁) :
    ∃ t, s.sentSince s₁ = [⟨trbType, slotId, c, t⟩] := by
  obtain ⟨t, ht⟩ := h
  refine ⟨t, ?_⟩
  unfold Kernel.sentSince
  rw [ht, List.drop_left]

theorem Unsent.sentSince (h : Unsent s s₁) : s.sentSince s₁ = [] := by
  unfold Kernel.sentSince
  rw [h.commands, List.drop_length]

theorem exec_boxCount {o : Op} {r : Ret o} (ho : ∀ b, o ≠ .boxNew b) (he : s₁.exec o = some (r, s₂)) :
    s₂.boxCount = s₁.boxCount := by
  cases o
  case boxNew b => exact absurd rfl (ho b)
  case panic => cases he
  case lock l site =>
    simp only [Kernel.exec] at he
    split at he
    · cases he
    · cases he
      rfl
  case getXhci | setEp0Ring | sendCommand | ep0EnqueueTrb =>
    obtain ⟨x, -, he⟩ := Option.map_eq_some_iff.1 he
    cases he
    rfl
  case newDriver k st | dropDriver k =>
    cases he
    cases k <;> rfl
  case enqueueReport k =>
    cases he
    show (s₁.enqueueReport k).boxCount = _
    unfold Kernel.enqueueReport
    split
    · rfl
    · cases k <;> rfl
  all_goals
    cases he
    rfl

theorem handler_boxCount (h : runToEnd interruptHandler s₁ = some ((), s₂)) : s₂.boxCount = s₁.boxCount := by
  have hne : ∀ o : Op, o.driver = true → ∀ b, o ≠ .boxNew b := fun o ho b he => by
    rw [he] at ho
    cases ho
  have hd : (pollKeyboard >>= fun _ => pollMouse).All fun o => ∀ b, o ≠ .boxNew b :=
    ((pollDriver_driver .keyboard handleKeyboardReport_report).mono hne).bind fun _ =>
      (pollDriver_driver .mouse handleMouseReport_report).mono hne
  have hall : interruptHandler.All fun o => ∀ b, o ≠ .boxNew b := by
    rw [interruptHandler_eq]
    refine ⟨nofun, fun b => ?_⟩
    cases b with
    | true => exact ⟨nofun, fun _ => ⟨nofun, fun _ => ⟨nofun, fun _ => hd⟩⟩⟩
    | false => exact hd
  exact runToEnd_frame (P := fun s => s.boxCount = s₁.boxCount) hall
    (fun o s r s' ho he hs => (exec_boxCount ho he).trans hs) h rfl

/-- The surroundings put nothing on the heap. -/
theorem env_nextBox (h : Env R s₁ s₂) : s₂.nextBox = s₁.nextBox := by
  have hu := env_unmoved h
  have hc : s₂.boxCount = s₁.boxCount := by
    cases h with
    | interrupt _ h => exact handler_boxCount h
    | answer | complete | connect | disconnect | dma => rfl
  unfold Kernel.nextBox
  rw [hu.boxes, hu.hhdm, hc]

theorem framed_unsent (s : Kernel) : (machine R).Framed (fun o => ∀ p t i, o ≠ .sendCommand p t i) (Unsent s) where
  stable _ _ h he := ⟨(env_unmoved he).hhdm.trans h.hhdm, (env_unmoved he).commands.trans h.commands⟩
  frame _ _ _ _ ho _ he h := ⟨(exec_keeps he).hhdm.trans h.hhdm, ((exec_keeps he).sent ho).1.trans h.commands⟩

theorem mute_send {o : Op} (h : o.mute = true) : ∀ p t i, o ≠ .sendCommand p t i := fun p t i he => by
  rw [he] at h
  cases h

theorem mute_input {o : Op} (h : o.mute = true) : ∀ c, o ≠ .boxNew (.inputContext c) := fun c he => by
  rw [he] at h
  cases h

theorem framed_ready (s : Kernel) (phys : Nat) (c : InputContext) :
    (machine R).Framed (fun o => o.mute = true) (Ready s phys c) where
  stable s₁ s₂ h he := ⟨(framed_unsent s).stable s₁ s₂ h.1 he, by rw [(env_unmoved he).inputContext]; exact h.2⟩
  frame o s₁ r s₂ ho ha he h := by
    refine ⟨(framed_unsent s).frame o s₁ r s₂ (mute_send ho) ha he h.1, ?_⟩
    rw [(exec_keeps he).inputContext (mute_input ho)]
    exact h.2

theorem framed_sentOne (s : Kernel) (trbType slotId : Nat) (c : InputContext) :
    (machine R).Framed (fun o => o.mute = true) (SentOne s trbType slotId c) where
  stable _ _ h he := by
    obtain ⟨t, ht⟩ := h
    exact ⟨t, (env_unmoved he).commands.trans ht⟩
  frame _ _ _ _ ho _ he h := by
    obtain ⟨t, ht⟩ := h
    exact ⟨t, ((exec_keeps he).sent (mute_send ho)).1.trans ht⟩

end Steps

section Calls

variable {R : Rules} {s : Kernel} {trbType slotId : Nat} {c : InputContext}

/-- At most one command was sent since `s`, and if one was, then with `X`. -/
def AtMostOne (s : Kernel) (X : Kernel → Prop) (s' : Kernel) : Prop := s.sentSince s' = [] ∨ X s'

/-- `submit` sends one command, with the input context that lies at its parameter. -/
theorem submit_sends {site : Site} (prepare : KProg Unit) (hp : prepare.All fun o => o.mute = true) {phys : Nat} :
    (machine R).Spec (Ready s phys c) (submit site prepare phys trbType slotId) (fun _ => SentOne s trbType slotId c)
      (AtMostOne s (SentOne s trbType slotId c)) := by
  have hr := framed_ready (R := R) s phys c
  have hs := framed_sentOne (R := R) s trbType slotId c
  have hready : ∀ s', Ready s phys c s' → AtMostOne s (SentOne s trbType slotId c) s' := fun _ h => .inl h.1.sentSince
  have hsent : ∀ s', SentOne s trbType slotId c s' → AtMostOne s (SentOne s trbType slotId c) s' := fun _ => .inr
  have hbody : (machine R).Spec (Ready s phys c) (prepare >>= fun _ => sendCommand phys trbType slotId)
      (fun _ => SentOne s trbType slotId c) (AtMostOne s (SentOne s trbType slotId c)) := by
    refine Machine.spec_bind (hr.spec hp hready) fun _ => ?_
    refine Machine.spec_op hr.stable hready (fun _ => SentOne s trbType slotId c) (fun s₁ r s₂ h _ he => ?_) fun _ =>
      Machine.spec_ret hs.stable hsent fun _ h => h
    obtain ⟨x, -, he⟩ := Option.map_eq_some_iff.1 he
    cases he
    refine ⟨s₁.hw.clock, ?_⟩
    show s₁.hw.commands ++ [⟨trbType, slotId, s₁.inputContext phys, s₁.hw.clock⟩] = _
    rw [h.1.commands, h.2]
  have hwait : (waitFor .completionPending .command TIMEOUT).All fun o => o.mute = true :=
    waitFor_all (fun o => o.mute = true) rfl rfl _
  refine hr.actSpec hready rfl fun _ => ?_
  -- `cli`, the lock, the command, the unlock, `sti`
  have hlocked : (machine R).Spec (Ready s phys c)
    (withXhci site (prepare >>= fun _ => sendCommand phys trbType slotId))
      (fun _ => SentOne s trbType slotId c) (AtMostOne s (SentOne s trbType slotId c)) := by
    refine hr.actSpec hready rfl fun _ => hr.actSpec hready rfl fun _ => ?_
    refine Machine.spec_bind hbody fun _ => ?_
    exact hs.actSpec hsent rfl fun _ => hs.actSpec hsent rfl fun _ => Machine.spec_ret hs.stable hsent fun _ h => h
  exact Machine.spec_bind hlocked fun _ => hs.spec hwait hsent

/-- `virt_to_phys` gives the difference to the HHDM offset, if there is one. -/
theorem spec_phys {α : Type} {P J : Kernel → Prop} {Q : α → Kernel → Prop} {virt : Nat} {f : Option Nat → KProg α}
    (hP : (machine R).Framed (fun o => o.mute = true) P) (hJ : ∀ s', P s' → J s') (hh : ∀ s', P s' → s'.hhdm = s.hhdm)
    (hnone : (machine R).Spec P (f none) Q J) (hsome : (machine R).Spec P (f (some (virt - s.hhdm.getD 0))) Q J) :
    (machine R).Spec P (virtToPhys virt >>= f) Q J := by
  refine Machine.spec_op hP.stable hJ (fun phys s' => (phys = none ∨ phys = some (virt - s.hhdm.getD 0)) ∧ P s')
    (fun s₁ phys s₂ h ha he => ⟨?_, hP.frame (.virtToPhys virt) s₁ phys s₂ rfl ha he h⟩) fun phys =>
      Machine.spec_pure ?_
  · have hphys : s₁.hhdm.map (virt - ·) = phys := congrArg Prod.fst (Option.some.inj he)
    rw [← hphys, hh s₁ h]
    cases s.hhdm with
    | none => exact .inl rfl
    | some offset => exact .inr rfl
  · rintro (rfl | rfl)
    · exact hnone
    · exact hsome

/-- The input context is written where it is then found. -/
theorem spec_input {α : Type} {J : Kernel → Prop} {Q : α → Kernel → Prop} {f : Nat → KProg α}
    (hJ : ∀ s', Unsent s s' → J s') (hf : ∀ virt, (machine R).Spec (Ready s (virt - s.hhdm.getD 0) c) (f virt) Q J) :
    (machine R).Spec (Unsent s) (boxNew (.inputContext c) >>= f) Q J := by
  refine Machine.spec_op (framed_unsent s).stable hJ (fun virt s' => Ready s (virt - s.hhdm.getD 0) c s')
    (fun s₁ virt s₂ h ha he => ⟨(framed_unsent s).frame (.boxNew (.inputContext c)) s₁ virt s₂ nofun ha he h, ?_⟩) hf
  cases he
  show Function.update s₁.inputContext (s₁.boxes s₁.boxCount - s₁.hhdm.getD 0) c
    (s₁.boxes s₁.boxCount - s.hhdm.getD 0) = c
  rw [h.hhdm]
  exact Function.update_self _ _ _

/-- What a call of `configure_endpoint` from `s` on sends. -/
def SentConfigure (G : Nat → Prop) (s : Kernel) (slotId rootPort : Nat) (ep : EndpointInfo) (s' : Kernel) : Prop :=
  (ep.dci ≠ 0 ∧ G s.nextBox) ∧ SentOne s TRB_TYPE_CONFIGURE_ENDPOINT slotId (configureInput rootPort ep s.nextBox) s'

/-- `configure_endpoint` sends one command at most, with the context made from its arguments and a new ring. -/
theorem configureEndpoint_sends {G : Nat → Prop}
    (hG : ∀ s, R.allowed (.boxNew .transferRing) s → G s.nextBox) (slotId rootPort : Nat) (ep : EndpointInfo) :
    (machine R).Spec (Untouched s) (configureEndpoint slotId rootPort ep)
      (fun r s' => ∀ handle, r = .ok handle → SentConfigure G s slotId rootPort ep s')
      (AtMostOne s (SentConfigure G s slotId rootPort ep)) := by
  have hu := (framed_unsent (R := R) s).mono fun o => mute_send (o := o)
  have hunsent : ∀ s', Unsent s s' → AtMostOne s (SentConfigure G s slotId rootPort ep) s' :=
    fun _ h => .inl h.sentSince
  have herr : ∀ {P : Kernel → Prop} {message : String}, (machine R).Stable P →
      (∀ s', P s' → AtMostOne s (SentConfigure G s slotId rootPort ep) s') →
      (machine R).Spec P (.ret (.error message) : KProg (Except String EndpointHandle))
        (fun r s' => ∀ handle, r = .ok handle → SentConfigure G s slotId rootPort ep s')
        (AtMostOne s (SentConfigure G s slotId rootPort ep)) := fun hs hJ => Machine.spec_ret hs hJ fun _ _ _ => nofun
  -- the ring
  have hfirst : (machine R).Stable (Untouched s) := fun s₁ s₂ h he =>
    ⟨(framed_unsent s).stable s₁ s₂ h.1 he, (env_nextBox he).trans h.2⟩
  refine Machine.spec_op hfirst (fun s' h => hunsent s' h.1)
    (fun virt s' => (virt - s.hhdm.getD 0 = s.nextBox ∧ G s.nextBox) ∧ Unsent s s')
    (fun s₁ virt s₂ h ha he => ⟨⟨?_, h.2 ▸ hG s₁ ha⟩, hu.frame (.boxNew .transferRing) s₁ virt s₂ rfl ha he h.1⟩)
    fun virt => Machine.spec_pure ?_
  · cases he
    rw [← h.2, ← h.1.hhdm]
    rfl
  rintro ⟨hring, hg⟩
  refine spec_phys hu hunsent (fun _ h => h.hhdm) (herr hu.stable hunsent) ?_
  rw [hring]
  refine hu.actSpec hunsent rfl fun _ => ?_
  by_cases hd : ep.dci = 0
  · rw [if_pos hd]
    exact Machine.spec_op hu.stable hunsent (fun r _ => r.elim) (fun _ r => r.elim) fun r => r.elim
  · rw [if_neg hd]
    -- the input context
    refine spec_input hunsent fun inputVirt => ?_
    have hr := framed_ready (R := R) s (inputVirt - s.hhdm.getD 0) (configureInput rootPort ep s.nextBox)
    have hs := framed_sentOne (R := R) s TRB_TYPE_CONFIGURE_ENDPOINT slotId (configureInput rootPort ep s.nextBox)
    have hready : ∀ s', Ready s (inputVirt - s.hhdm.getD 0) (configureInput rootPort ep s.nextBox) s' →
        AtMostOne s (SentConfigure G s slotId rootPort ep) s' := fun s' h => hunsent s' h.1
    have hsent : ∀ s', SentOne s TRB_TYPE_CONFIGURE_ENDPOINT slotId (configureInput rootPort ep s.nextBox) s' →
        AtMostOne s (SentConfigure G s slotId rootPort ep) s' := fun _ h => .inr ⟨⟨hd, hg⟩, h⟩
    refine spec_phys hr hready (fun _ h => h.1.hhdm) (herr hr.stable hready) ?_
    refine Machine.spec_bind ((submit_sends (.ret ()) trivial).weaken fun _ h => h.imp id fun h =>
      ⟨⟨hd, hg⟩, h⟩) fun b => ?_
    cases b with
    | true => exact hs.actSpec hsent rfl fun _ => Machine.spec_ret hs.stable hsent fun _ h _ _ => ⟨⟨hd, hg⟩, h⟩
    | false => exact herr hs.stable hsent

/-- `address_device` that succeeds sent one command, with the context made from its arguments. -/
theorem addressDevice_sentOne (slotId rootPort speed : Nat) :
    (machine R).Triple (Unsent s) (addressDevice slotId rootPort speed) fun r s' => r = .ok () →
      ∃ ring, SentOne s TRB_TYPE_ADDRESS_DEVICE slotId (addressInput rootPort speed ring) s' := by
  have hu := (framed_unsent (R := R) s).mono fun o => mute_send (o := o)
  have hJ : ∀ (P : Kernel → Prop) s', P s' → True := fun _ _ _ => trivial
  have herr : ∀ {P : Kernel → Prop} {message : String}, (machine R).Stable P →
      (machine R).Spec P (.ret (.error message) : KProg (Except String Unit)) (fun r s' => r = .ok () →
        ∃ ring, SentOne s TRB_TYPE_ADDRESS_DEVICE slotId (addressInput rootPort speed ring) s') fun _ => True :=
    fun hs => Machine.spec_ret hs (hJ _) fun _ _ => nofun
  refine (?_ : (machine R).Spec (Unsent s) _ _ fun _ => True).triple
  -- the ring and the device context
  refine hu.actSpec (hJ _) rfl fun ringVirt => hu.actSpec (hJ _) rfl fun ringPhys => ?_
  cases ringPhys with
  | none => exact herr hu.stable
  | some ringPhys =>
    refine hu.actSpec (hJ _) rfl fun ctxVirt => hu.actSpec (hJ _) rfl fun ctxPhys => ?_
    cases ctxPhys with
    | none => exact herr hu.stable
    | some ctxPhys =>
      refine hu.actSpec (hJ _) rfl fun _ => hu.actSpec (hJ _) rfl fun _ => hu.actSpec (hJ _) rfl fun _ =>
        hu.actSpec (hJ _) rfl fun _ => ?_
      -- the input context
      refine spec_input (hJ _) fun inputVirt => ?_
      have hr := framed_ready (R := R) s (inputVirt - s.hhdm.getD 0) (addressInput rootPort speed ringPhys)
      have hs := framed_sentOne (R := R) s TRB_TYPE_ADDRESS_DEVICE slotId (addressInput rootPort speed ringPhys)
      refine spec_phys hr (hJ _) (fun _ h => h.1.hhdm) (herr hr.stable) ?_
      refine Machine.spec_bind
        ((submit_sends (act (.setEp0Ring _ _)) ⟨rfl, fun _ => trivial⟩).weaken (hJ _)) fun b => ?_
      cases b with
      | true => exact hs.actSpec (hJ _) rfl fun _ => Machine.spec_ret hs.stable (hJ _) fun _ h _ => ⟨ringPhys, h⟩
      | false => exact herr hs.stable

end Calls

end Octagram.Usb

/-
What a control transfer learns about the length of the answer: the rule by which the controller
posts Transfer Events, applied to the three TRBs of `control_transfer_in`. Only the Status Stage
posts one, whose residual is 0 (`transferPosts_in`), so the call returns the length that was asked
for, whatever was received (`control_transfer_in_received`). That its result is made of events of
the call is the invariant `Fed` of the wait loop: once the flag is set, the triple comes from one of
them.
-/
import Octagram.Usb.Control
import Octagram.Usb.UnlinkedRing

namespace Octagram.Usb

open Octagram.Lib

/-! ## The rule -/

namespace Trb

/-- Interrupt On Completion. -/
def ioc (t : Trb) : Bool := t.control.getLsbD 5

/-- Interrupt on Short Packet. -/
def isp (t : Trb) : Bool := t.control.getLsbD 2

/-- TRB Transfer Length. -/
def transferLength (t : Trb) : Nat := (t.status &&& 0x1FFFF#32).toNat

/-- The bytes moved for a TRB when the device answers the data stage (type 3) with `n` bytes. -/
def moved (n : Nat) (t : Trb) : Nat := if t.trbType = 3 then min n t.transferLength else t.transferLength

end Trb

/-- What a Transfer Event says: completion code and residual. -/
structure Completion where
  code : Nat
  residual : Nat
  deriving DecidableEq, Repr

/-- What the TRB of an event says. -/
def Event.completion (e : Event) : Completion := ⟨e.trb.completionCode, e.trb.residualLength⟩

/-- An event is posted for a TRB with IOC, or with ISP on a short packet; its residual is that of this TRB. -/
def Trb.posts (n : Nat) (t : Trb) : Option Completion :=
  if t.ioc = true ∨ (t.isp = true ∧ t.moved n < t.transferLength) then
    some ⟨if t.moved n < t.transferLength then 13 else 1, t.transferLength - t.moved n⟩
  else
    none

/-- The TRBs that operations put on the EP0 ring. -/
def stageTrbs (x : XHCI) : List Op → List Trb
  | [] => []
  | o :: rest => (Channel.ep0.trb x o).toList ++ stageTrbs (Kernel.stepEp0 x) rest

/-- The events of a control transfer that the device completes, with `n` bytes in its data stage. -/
def transferPosts (x : XHCI) (ops : List Op) (n : Nat) : List Completion := (stageTrbs x ops).filterMap (Trb.posts n)

/-- The events read since `s₀`. -/
def readSince (s₀ s : Kernel) : List Event := s.hw.consumed.drop s₀.hw.consumed.length

/-- The device answers the transfer of a call from `s` to `s'` with `n` bytes: the Transfer Events read in the
call that no driver takes are those of this transfer. -/
def AnsweredWith (s s' : Kernel) (ops : List Op) (n : Nat) : Prop :=
  ∀ e ∈ readSince s s', s.owners.stray e = true → ∃ x, s.xhci = some x ∧ e.completion ∈ transferPosts x ops n

/-! ## The TRBs of `control_transfer_in` -/

section Stages

variable {x : XHCI} {parameter : BitVec 64} {status control : BitVec 32} {n : Nat}

/-- Without IOC and ISP a TRB posts nothing, whatever the device answers. -/
theorem posts_silent (h : ∀ b, (control ||| bitOf b).getLsbD 5 = false ∧ (control ||| bitOf b).getLsbD 2 = false) :
    (Kernel.ep0Trb x parameter status control).posts n = none := by
  obtain ⟨hioc, hisp⟩ := h x.ep0CycleState
  refine if_neg ?_
  rintro (h5 | ⟨h2, -⟩)
  · exact absurd (hioc.symm.trans h5) Bool.false_ne_true
  · exact absurd (hisp.symm.trans h2) Bool.false_ne_true

/-- A TRB with IOC that moves no data posts Success with residual 0. -/
theorem posts_status (h : ∀ b, (control ||| bitOf b).getLsbD 5 = true) :
    (Kernel.ep0Trb x parameter 0 control).posts n = some ⟨1, 0⟩ := by
  have hlen : (Kernel.ep0Trb x parameter 0 control).transferLength = 0 := by simp [Kernel.ep0Trb, Trb.transferLength]
  refine (if_pos (.inl (h x.ep0CycleState))).trans ?_
  rw [hlen]
  simp

end Stages

/-- Only the Status Stage posts an event, and it moves no data. -/
theorem transferPosts_in (x : XHCI) (setup : BitVec 64) (bufPhys wLength n : Nat) :
    transferPosts x (inStages setup bufPhys wLength) n = [⟨1, 0⟩] := by
  have hsetup : ∀ b, (setupControl 3 ||| bitOf b).getLsbD 5 = false ∧
    (setupControl 3 ||| bitOf b).getLsbD 2 = false := by
    decide
  have hdata : ∀ b, (dataControl ||| bitOf b).getLsbD 5 = false ∧ (dataControl ||| bitOf b).getLsbD 2 = false := by
    decide
  have hstatus : ∀ b, (statusControl 0 ||| bitOf b).getLsbD 5 = true := by decide
  refine (List.filterMap_cons_none (posts_silent hsetup)).trans ?_
  refine (List.filterMap_cons_none (posts_silent hdata)).trans ?_
  exact List.filterMap_cons_some (posts_status hstatus)

/-! ## What the call reads -/

theorem env_log {R : Rules} {s s' : Kernel} (h : Env R s s') : s.hw.consumed <+: s'.hw.consumed := by
  cases h with
  | interrupt hi hrun =>
    have hd := handler_driven hrun
    obtain ⟨ts, is, hw⟩ := hd.hw
    rw [hw]
    split
    · exact List.prefix_append _ _
    · exact List.prefix_rfl
  | answer | complete | connect | disconnect | dma => exact List.prefix_rfl

/-- The triple holds what an event says that was read since `s₀` and that no driver takes. -/
def Sourced (s₀ s : Kernel) : Prop :=
  ∃ e ∈ readSince s₀ s, s₀.owners.stray e = true ∧ s.globals.reg .transferCompletionCode = e.trb.completionCode ∧
    s.globals.reg .transferCompletionLength = e.trb.residualLength

/-- Once the flag is set, or was seen set (`seen`), the triple comes from an event of the call. -/
structure Fed (seen : Bool) (s₀ s : Kernel) : Prop where
  calm : Calm s₀ s
  log : s₀.hw.consumed <+: s.hw.consumed
  source : (seen = true ∨ s.globals.flag .transferCompletionPending = true) → Sourced s₀ s

section Fed

variable {R : Rules} {seen : Bool} {s₀ s s' : Kernel}

theorem mem_readSince_mono {e : Event} (h : e ∈ readSince s₀ s) (hl : s₀.hw.consumed <+: s.hw.consumed)
    (hs : s.hw.consumed <+: s'.hw.consumed) : e ∈ readSince s₀ s' := by
  obtain ⟨l, hl⟩ := hl
  obtain ⟨l', hs⟩ := hs
  unfold readSince at h ⊢
  rw [← hl, List.drop_left] at h
  rw [← hs, ← hl, List.append_assoc, List.drop_left]
  exact List.mem_append_left _ h

/-- A step that leaves the triple alone. -/
theorem Fed.keep (h : Fed seen s₀ s) (hc : Calm s₀ s') (hl : s.hw.consumed <+: s'.hw.consumed)
    (hf : s'.globals.flag .transferCompletionPending = s.globals.flag .transferCompletionPending)
    (hcode : s'.globals.reg .transferCompletionCode = s.globals.reg .transferCompletionCode)
    (hlen : s'.globals.reg .transferCompletionLength = s.globals.reg .transferCompletionLength) : Fed seen s₀ s' := by
  refine ⟨hc, h.log.trans hl, fun hs => ?_⟩
  rw [hf] at hs
  obtain ⟨e, hm, hstray, h1, h2⟩ := h.source hs
  exact ⟨e, mem_readSince_mono hm h.log hl, hstray, hcode.trans h1, hlen.trans h2⟩

theorem fed_driven (h : Fed seen s₀ s) (hd : Driven s s') : Fed seen s₀ s' := by
  obtain ⟨ts, is, hw⟩ := hd.hw
  refine h.keep (calm_driven h.calm hd) ?_ (hd.flag _ nofun nofun) (by rw [hd.reg]) (by rw [hd.reg])
  rw [hw]

/-- Reading an event: one that no driver takes becomes the source of the triple. -/
theorem fed_poll (h : Fed seen s₀ s) : Fed seen s₀ s.pollEventRing := by
  have hl : s.hw.consumed <+: s.pollEventRing.hw.consumed := List.prefix_append _ _
  have hc : Calm s₀ s.pollEventRing := calm_poll h.calm
  cases he : s.hw.events with
  | nil =>
    have hg : s.pollEventRing.globals = s.globals := by simp only [Kernel.pollEventRing, pollQueue, he]
    exact h.keep hc hl (by rw [hg]) (by rw [hg]) (by rw [hg])
  | cons e rest =>
    have hg : s.pollEventRing.globals = s.globals.dispatch e.trb := by simp only [Kernel.pollEventRing, pollQueue, he]
    cases hs : s₀.owners.stray e with
    | false =>
      obtain ⟨h1, h2, h3⟩ := dispatch_kept h.calm hs
      exact h.keep hc hl (by rw [hg, h1]) (by rw [hg, h2]) (by rw [hg, h3])
    | true =>
      obtain ⟨-, h2, h3⟩ := dispatch_stray h.calm hs
      refine ⟨hc, h.log.trans hl, fun _ => ⟨e, ?_, hs, by rw [hg, h2], by rw [hg, h3]⟩⟩
      obtain ⟨l, hlog⟩ := h.log
      have hread : s.pollEventRing.hw.consumed = s₀.hw.consumed ++ (l ++ [e]) := by
        simp only [Kernel.pollEventRing, he, List.take_succ_cons, List.take_zero, ← hlog, List.append_assoc]
      unfold readSince
      rw [hread, List.drop_left]
      exact List.mem_append_right _ (List.mem_singleton.2 rfl)

theorem fed_env (h : Fed seen s₀ s) (he : Env R s s') : Fed seen s₀ s' := by
  cases he with
  | interrupt hi hrun =>
    have hd := handler_driven hrun
    split at hd
    · exact fed_driven (fed_poll h) hd
    · exact fed_driven h hd
  | answer t ht hid hc => exact h.keep (calm_answer h.calm t hid hc) List.prefix_rfl rfl rfl rfl
  | complete | connect | disconnect | dma => exact h.keep { h.calm with } List.prefix_rfl rfl rfl rfl

theorem stable_fed : (machine R).Stable (Fed seen s₀) := fun _ _ => fed_env

theorem stable_read (e : Event) : (machine R).Stable fun s => Fed seen s₀ s ∧ e ∈ readSince s₀ s :=
  fun _ _ h he => ⟨fed_env h.1 he, mem_readSince_mono h.2 h.1.log (env_log he)⟩

theorem fed_wireless {o : Op} {r : Ret o} (ho : o.wireless = true) (he : s.exec o = some (r, s')) (h : Fed seen s₀ s) :
    Fed seen s₀ s' := by
  obtain ⟨hw, hc⟩ := @exec_wireless s₀ s s' o r ho he
  have hw : s'.wire s₀.owners = s.wire s₀.owners := hw _
  have hl : s'.hw.consumed = s.hw.consumed := congrArg Wire.consumed hw
  exact h.keep (hc h.calm) (hl ▸ List.prefix_rfl) (congrArg Wire.pending hw) (congrArg Wire.code hw)
    (congrArg Wire.length hw)

theorem fed_stage {parameter : BitVec 64} {status control : BitVec 32} {r : Unit}
    (he : s.exec (.ep0EnqueueTrb parameter status control) = some (r, s')) (h : Fed seen s₀ s) : Fed seen s₀ s' := by
  have hk := exec_keeps he
  obtain ⟨x, hx, -⟩ := Option.map_eq_some_iff.1 he
  have hring : s₀.xhci.map (·.ep0RingPhys) = some x.ep0RingPhys := by rw [← h.calm.ep0, hx]; rfl
  obtain ⟨hc, -⟩ := exec_stage h.calm hring s₀.owners he
  exact h.keep hc ((hk.events nofun).2 ▸ List.prefix_rfl) (hk.flag _ nofun nofun nofun) (hk.reg _ nofun nofun)
    (hk.reg _ nofun nofun)

end Fed

/-! ## The result -/

section Result

variable {R : Rules} {α : Type} {Q : α → Kernel → Prop} {s₀ : Kernel}

theorem triple_fed {seen : Bool} {o : Op} {f : Ret o → KProg α} (ho : o.wireless = true)
    (hf : ∀ r, (machine R).Triple (Fed seen s₀) (f r) Q) : (machine R).Triple (Fed seen s₀) (act o >>= f) Q :=
  Machine.triple_keep stable_fed (fun _ _ _ h he => fed_wireless ho he h) hf

theorem triple_fedStage {seen : Bool} {parameter : BitVec 64} {status control : BitVec 32} {f : Unit → KProg α}
    (hf : (machine R).Triple (Fed seen s₀) (f ()) Q) :
    (machine R).Triple (Fed seen s₀) (ep0EnqueueTrb parameter status control >>= f) Q :=
  Machine.triple_keep stable_fed (fun _ _ _ h he => fed_stage he h) fun _ => hf

theorem stagesIn_fed (setup : BitVec 64) (bufPhys wLength : Nat) :
    (machine R).Triple (Fed false s₀) (stagesIn setup bufPhys wLength) fun _ => Fed false s₀ :=
  triple_fedStage (triple_fedStage (Machine.triple_keep stable_fed (fun _ _ _ h he => fed_stage he h) fun _ =>
    Machine.triple_ret stable_fed fun _ h => h))

theorem waitFor_fed (n : Nat) :
    (machine R).Triple (Fed false s₀) (waitFor .transferCompletionPending .transfer n) fun b s => b = true →
      Fed true s₀ s := by
  induction n with
  | zero => exact triple_fed rfl fun _ => Machine.triple_ret stable_fed fun _ _ h => absurd h Bool.false_ne_true
  | succ n ih =>
    -- the flag seen set is an event that was read
    have hload : ∀ s b s', Fed false s₀ s → (machine R).allowed (.loadFlag .transferCompletionPending) s →
        s.exec (.loadFlag .transferCompletionPending) = some (b, s') → Fed b s₀ s' := by
      intro s b s' h _ he
      cases he
      exact ⟨h.calm, h.log, fun hs => h.source (.inr (hs.elim id id))⟩
    refine Machine.triple_op stable_fed (fun b => Fed b s₀) hload fun b => ?_
    cases b with
    | true => exact Machine.triple_ret stable_fed fun _ h _ => h
    | false => exact ih

theorem stable_callStarted : (machine R).Stable fun s => Calm s₀ s ∧ s₀.hw.consumed <+: s.hw.consumed :=
  fun _ _ h he => ⟨env_calm h.1 he, h.2.trans (env_log he)⟩

theorem transfer_fed {site : Site} {slotId : Nat} {stages : KProg Unit}
    (hst : (machine R).Triple (Fed false s₀) stages fun _ => Fed false s₀) :
    (machine R).Triple (fun s => Calm s₀ s ∧ s₀.hw.consumed <+: s.hw.consumed) (transfer site slotId stages) fun b s =>
      b = true → Fed true s₀ s := by
  have hclear : ∀ s (r : Unit) s', (Calm s₀ s ∧ s₀.hw.consumed <+: s.hw.consumed) →
      (machine R).allowed (.storeFlag .transferCompletionPending false) s →
      s.exec (.storeFlag .transferCompletionPending false) = some (r, s') → Fed false s₀ s' := by
    intro s r s' h _ he
    cases he
    refine ⟨{ h.1 with }, h.2, ?_⟩
    rintro (h | h)
    · cases h
    · cases h
  refine Machine.triple_op stable_callStarted (fun _ => Fed false s₀) hclear fun _ => ?_
  show (machine R).Triple _ (withXhci site (stages >>= fun _ => ringDoorbell (slotId % 256) 1) >>= fun _ =>
    waitFor .transferCompletionPending .transfer TIMEOUT) _
  have hbracket : ∀ o s r s', o.bracket = true → s.exec o = some (r, s') → Fed false s₀ s → Fed false s₀ s' :=
    fun _ _ _ _ ho he => fed_wireless (bracket_wireless ho) he
  refine Machine.triple_bind (R := fun _ => Fed false s₀) ?_ fun _ => waitFor_fed TIMEOUT
  refine triple_withXhci stable_fed stable_fed hbracket hbracket (Machine.triple_bind hst fun _ => ?_)
  exact triple_fed rfl fun _ => Machine.triple_ret stable_fed fun _ h => h

/-- The result of `control_transfer_in` for a completion code and a residual. -/
def inResult (wLength code residual : Nat) : Except String Nat :=
  if code ≠ 1 ∧ code ≠ 13 then .error "Control transfer gagal, completion code bukan Success"
    else .ok (wLength - residual)

/-- Unless it times out, the result is made of the completion code and the residual of events read in the call that
no driver takes; an event that comes between the two loads may give the one without the other. -/
theorem controlTransferIn_sourced (slotId bmRequestType bRequest wValue wIndex bufPhys wLength : Nat) :
    (machine R).Triple (fun s => Calm s₀ s ∧ s₀.hw.consumed <+: s.hw.consumed)
      (controlTransferIn slotId bmRequestType bRequest wValue wIndex bufPhys wLength) fun r s =>
      r = .error "timeout menunggu control transfer completion" ∨
        ∃ e ∈ readSince s₀ s, ∃ e' ∈ readSince s₀ s, s₀.owners.stray e = true ∧ s₀.owners.stray e' = true ∧
          r = inResult wLength e.trb.completionCode e'.trb.residualLength := by
  refine Machine.triple_bind (transfer_fed (stagesIn_fed _ _ _)) fun b => ?_
  cases b with
  | false =>
    intro s _ r s' hrun
    have htimeout : (machine R).Triple (fun _ => True) (pure (.error "timeout menunggu control transfer completion"))
        fun (r : Except String Nat) _ => r = .error "timeout menunggu control transfer completion" :=
      Machine.triple_ret (fun _ _ _ _ => trivial) fun _ _ => rfl
    exact .inl (htimeout s trivial r s' hrun)
  | true =>
    refine Machine.Triple.conseq ?_ (fun s h => h rfl) fun _ _ h => .inr h
    -- the code comes from one event of the call
    refine Machine.triple_op stable_fed (fun code s => ∃ e, (Fed true s₀ s ∧ e ∈ readSince s₀ s) ∧
        s₀.owners.stray e = true ∧ code = e.trb.completionCode) (fun s code s' h _ he => ?_) fun code => ?_
    · cases he
      obtain ⟨e, hm, hs, hcode, -⟩ := h.source (.inl rfl)
      exact ⟨e, ⟨h, hm⟩, hs, hcode⟩
    · refine Machine.triple_exists fun e => ?_
      -- and the residual from one, maybe a later one
      have hload : (machine R).Triple (fun s => Fed true s₀ s ∧ e ∈ readSince s₀ s)
          (loadReg .transferCompletionLength >>= fun residual => pure (if code ≠ 1 ∧ code ≠ 13 then
            .error "Control transfer gagal, completion code bukan Success" else .ok (wLength - residual)))
          fun r s => e ∈ readSince s₀ s ∧ ∃ e' ∈ readSince s₀ s, s₀.owners.stray e' = true ∧
            r = inResult wLength code e'.trb.residualLength := by
        refine Machine.triple_op (stable_read e) (fun n s => (Fed true s₀ s ∧ e ∈ readSince s₀ s) ∧ ∃ e',
          (Fed true s₀ s ∧ e' ∈ readSince s₀ s) ∧ s₀.owners.stray e' = true ∧ n = e'.trb.residualLength)
          (fun s n s' h _ he => ?_) fun n => ?_
        · cases he
          obtain ⟨e', hm, hs, -, hlen⟩ := h.1.source (.inl rfl)
          exact ⟨h, e', ⟨h.1, hm⟩, hs, hlen⟩
        · refine Machine.triple_ret ((stable_read e).and (Machine.Stable.exists fun e' => (stable_read e').and
            fun _ _ h _ => h)) fun s h => ?_
          obtain ⟨⟨-, hm⟩, e', ⟨-, hm'⟩, hs, rfl⟩ := h
          exact ⟨hm, e', hm', hs, rfl⟩
      intro s h r s' hrun
      obtain ⟨h, hs, rfl⟩ := h
      obtain ⟨hm, e', hm', hs', hr⟩ := hload s h r s' hrun
      exact ⟨e, hm, e', hm', hs, hs', hr⟩

end Result

/-- The completions the call takes are those of its transfer, of which the device answered `n` bytes: in time, it
returns `Ok(n)` exactly if `n` is all that was asked for. -/
theorem control_transfer_in_received {R : Rules} {slotId bmRequestType bRequest wValue wIndex bufPhys wLength n : Nat}
    {s s' : Kernel} {r : Except String Nat}
    (hrun : (machine R).Runs (controlTransferIn slotId bmRequestType bRequest wValue wIndex bufPhys wLength, s)
      (.ret r, s'))
    (ha : AnsweredWith s s' (inStages (setupParameter bmRequestType bRequest wValue wIndex wLength) bufPhys wLength) n)
    (ht : r ≠ .error "timeout menunggu control transfer completion") : r = .ok n ↔ n = wLength := by
  have hposted : ∀ e ∈ readSince s s', s.owners.stray e = true → e.completion = ⟨1, 0⟩ := by
    intro e hm hs
    obtain ⟨x, -, hp⟩ := ha e hm hs
    rw [transferPosts_in] at hp
    exact List.mem_singleton.1 hp
  have hsource := controlTransferIn_sourced slotId bmRequestType bRequest wValue wIndex bufPhys wLength s
    ⟨Calm.refl s, List.prefix_rfl⟩ r s' hrun
  obtain ⟨e, hm, e', hm', hs, hs', hr⟩ := hsource.resolve_left ht
  have hcode : e.trb.completionCode = 1 := congrArg Completion.code (hposted e hm hs)
  have hres : e'.trb.residualLength = 0 := congrArg Completion.residual (hposted e' hm' hs')
  have hr : r = .ok wLength := by rw [hr, hcode, hres]; rfl
  rw [hr]
  constructor
  · intro h
    exact (Except.ok.inj h).symm
  · intro h
    rw [h]

/-- After a GET_DESCRIPTOR with room for 256 bytes whose transfer completed. -/
theorem descriptor_run :
    ∃ a s', (machine Rules.any).Runs (controlTransferIn 1 0x80 6 0x200 0 0x20000 256, addressed) (.ret a, s') ∧
    a = .ok 256 ∧ ∀ n, AnsweredWith addressed s' (inStages (setupParameter 0x80 6 0x200 0 256) 0x20000 256) n := by
  obtain ⟨a, s', hr, ha⟩ := exists_run (R := Rules.any)
    (ops 9 ++ [.complete 0 (transferTrb 1 1 1), .interrupt] ++ ops 3)
      (controlTransferIn 1 0x80 6 0x200 0 0x20000 256) addressed
    (fun a s => decide (a.toOption = some 256 ∧ (readSince addressed s).map (·.completion) = [⟨1, 0⟩]))
      (by decide +kernel)
  obtain ⟨ha, hl⟩ := of_decide_eq_true ha
  refine ⟨a, s', hr, ?_, fun n e hm _ => ?_⟩
  · cases a with
    | error e => cases ha
    | ok u => exact congrArg Except.ok (Option.some.inj ha)
  · obtain ⟨x, hx⟩ : ∃ x, addressed.xhci = some x := Option.isSome_iff_exists.1 (by decide +kernel)
    have he := List.mem_map_of_mem (f := (·.completion)) hm
    rw [hl] at he
    exact ⟨x, hx, by rw [transferPosts_in]; exact he⟩

/-- `control_transfer_in_received` for an answer of all 256 bytes. -/
theorem control_transfer_in_received_full : ∃ a s',
    (machine Rules.any).Runs (controlTransferIn 1 0x80 6 0x200 0 0x20000 256, addressed) (.ret a, s') ∧
      (a = .ok 256 ↔ 256 = 256) := by
  obtain ⟨a, s', hr, ha, hans⟩ := descriptor_run
  exact ⟨a, s', hr, control_transfer_in_received hr (hans 256) (by rw [ha]; simp)⟩

/-- A device answers a request for 256 bytes with 25, and the call returns `Ok(256)`. -/
theorem short_answer : ∃ (hist : List (Machine.Return Kernel MainCall.Result)) (s s' : Kernel) (a : Except String Nat),
    UsbSession Rules.any hist s ∧
    (machine Rules.any).Runs (controlTransferIn 1 0x80 6 0x200 0 0x20000 256, s) (.ret a, s') ∧
    AnsweredWith s s' (inStages (setupParameter 0x80 6 0x200 0 256) 0x20000 256) 25 ∧
    a ≠ .error "timeout menunggu control transfer completion" ∧ a ≠ .ok 25 := by
  obtain ⟨hist, h⟩ := session_addressed
  obtain ⟨a, s', hr, ha, hans⟩ := descriptor_run
  exact ⟨hist, addressed, s', a, h, hr, hans 25, by rw [ha]; simp, by rw [ha]; simp⟩

end Octagram.Usb

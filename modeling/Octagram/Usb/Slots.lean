/-
Slot accounting: the controller's enabled slots, the DCBAA and the registry, which every path of the
enumeration has to keep in agreement. They agree between the calls if every command is answered in
time and Address Device and Disable Slot succeed (`slots_agree`). The invariant is `Slots`; between
Enable Slot and the entry in the registry it holds with one entry more (`Pending`). Each command is
an `Exchange`, so what it does to the slots is known from its completion.
-/
import Octagram.Usb.Command
import Octagram.Usb.Setup

namespace Octagram.Usb

open Octagram.Lib

/-! ## Definitions -/

/-- The wait for a command that gave up. -/
def Op.isCommandExpiry : Op → Bool
  | .expire .command => true
  | _ => false

/-- Every command is answered within its wait loop. -/
def answeredRules : Rules := { Rules.any with allowed := fun o _ => o.isCommandExpiry = false }

instance : answeredRules.Decide :=
  ⟨fun _ _ _ => isTrue trivial, fun _ _ => isTrue trivial,
    fun o _ => inferInstanceAs (Decidable (o.isCommandExpiry = false))⟩

/-- Besides, Address Device and Disable Slot succeed. -/
def slotRules : Rules where
  answer _ c t := c.trbType = TRB_TYPE_ADDRESS_DEVICE ∨ c.trbType = TRB_TYPE_DISABLE_SLOT → t.completionCode = 1
  change _ _ := True
  allowed o _ := o.isCommandExpiry = false

instance : slotRules.Decide :=
  ⟨fun _ _ _ => inferInstanceAs (Decidable (_ → _)), fun _ _ => isTrue trivial,
    fun o _ => inferInstanceAs (Decidable (o.isCommandExpiry = false))⟩

/-- These are the slots: of the registry, each once, of the controller and of the DCBAA. -/
structure Agree (ids : List Nat) (enabled : Nat → Bool) (dcbaa : Nat → Nat) : Prop where
  nodup : ids.Nodup
  enabled : ∀ slot, enabled slot = true ↔ slot ∈ ids
  dcbaa : ∀ slot, dcbaa slot ≠ 0 ↔ slot ∈ ids

/-- The registry, the controller and the DCBAA agree on the slots. -/
def Kernel.SlotsAgree (s : Kernel) : Prop := Agree (s.activePorts.map (·.slotId)) s.hw.enabled s.dcbaa

section Agree

variable {ids : List Nat} {enabled : Nat → Bool} {dcbaa : Nat → Nat} {slot v : Nat}

/-- A new slot, in all three. -/
theorem Agree.add (h : Agree ids enabled dcbaa) (hs : enabled slot = false) (hv : v ≠ 0) :
    Agree (ids ++ [slot]) (Function.update enabled slot true) (Function.update dcbaa slot v) := by
  have hnot : slot ∉ ids := fun hm => by rw [(h.enabled slot).2 hm] at hs; cases hs
  refine ⟨?_, fun x => ?_, fun x => ?_⟩
  · exact h.nodup.append (List.nodup_singleton _) (List.disjoint_singleton.2 hnot)
  · rw [List.mem_append, List.mem_singleton, Function.update_apply]
    by_cases hx : x = slot
    · simp only [hx, if_true, or_true]
    · simp only [hx, if_false, or_false, h.enabled]
  · rw [List.mem_append, List.mem_singleton, Function.update_apply]
    by_cases hx : x = slot
    · simp only [hx, if_true, or_true, ne_eq, hv, not_false_eq_true]
    · simp only [hx, if_false, or_false, h.dcbaa]

/-- A slot taken out of all three. -/
theorem Agree.remove {pre post : List Nat} (h : Agree (pre ++ slot :: post) enabled dcbaa) :
    Agree (pre ++ post) (Function.update enabled slot false) (Function.update dcbaa slot 0) := by
  obtain ⟨hnd, henabled, hdcbaa⟩ := h
  rw [List.nodup_middle, List.nodup_cons] at hnd
  have hmem : ∀ x, x ≠ slot → (x ∈ pre ++ slot :: post ↔ x ∈ pre ++ post) := fun x hx => by
    simp only [List.mem_append, List.mem_cons, hx, false_or]
  refine ⟨hnd.2, fun x => ?_, fun x => ?_⟩
  · rw [Function.update_apply]
    split
    · rename_i hx
      exact ⟨nofun, fun hm => absurd (hx ▸ hm) hnd.1⟩
    · rename_i hx
      rw [henabled, hmem x hx]
  · rw [Function.update_apply]
    split
    · rename_i hx
      exact ⟨fun h => absurd rfl h, fun hm => absurd (hx ▸ hm) hnd.1⟩
    · rename_i hx
      rw [hdcbaa, hmem x hx]

end Agree

/-! ## One call after the other -/

/-- No command is outstanding; the registry, the enabled slots and the DCBAA are these. -/
structure Slots (l : List ActivePort) (enabled : Nat → Bool) (dcbaa : Nat → Nat) (s : Kernel) : Prop where
  quiet : s.mail.Quiet
  active : s.activePorts = l
  enabled : s.hw.enabled = enabled
  dcbaa : s.dcbaa = dcbaa
  mapped : ∃ off, s.hhdm = some off ∧ ∀ n, off < s.boxes n

/-- The operations that send no command and change neither the registry nor the DCBAA. -/
def Op.slotless : Op → Bool
  | .setActive _ | .writeDcbaa _ _ => false
  | o => o.mailless

theorem slotless_of_transfer {o : Op} (h : o.transfer = true) : o.slotless = true := by
  cases o
  case storeFlag f b => cases f <;> first | rfl | cases h
  case swapFlag | setActive | pollEventRing | storeReg | writeDcbaa | sendCommand => cases h
  all_goals rfl

theorem slotless_of_attach {o : Op} (h : o.attach = true) : o.slotless = true := by
  cases o
  case storeFlag f b => cases f <;> first | rfl | cases h
  case storeReg r n => cases r <;> first | rfl | cases h
  case swapFlag | setActive | pollEventRing | writeDcbaa | sendCommand => cases h
  all_goals rfl

section Slots

variable {R : Rules} {l : List ActivePort} {enabled : Nat → Bool} {dcbaa : Nat → Nat}

theorem framed_slots (R : Rules) (l : List ActivePort) (enabled : Nat → Bool) (dcbaa : Nat → Nat) :
    Framed R Op.slotless (Slots l enabled dcbaa) where
  stable s s' h he := by
    have hu := env_unmoved he
    have hm : s'.mail = s.mail := quiet_step h.quiet (env_mail he)
    exact ⟨by rw [hm]; exact h.quiet, hu.activePorts.trans h.active, (congrArg Mail.enabled hm).trans h.enabled,
      hu.dcbaa.trans h.dcbaa, by rw [hu.hhdm, hu.boxes]; exact h.mapped⟩
  frame o s r s' ho he h := by
    have hk := exec_keeps he
    have hm : s'.mail = s.mail := exec_mailless (by cases o <;> first | exact ho | cases ho) he
    exact ⟨by rw [hm]; exact h.quiet, (hk.activePorts fun _ heq => by rw [heq] at ho; cases ho).trans h.active,
      hk.enabled.trans h.enabled, (hk.dcbaa fun _ _ heq => by rw [heq] at ho; cases ho).trans h.dcbaa,
      by rw [hk.hhdm, hk.boxes]; exact h.mapped⟩

/-- What the commands do not change of this. -/
structure Around (l : List ActivePort) (dcbaa : Nat → Nat) (s : Kernel) : Prop where
  active : s.activePorts = l
  dcbaa : s.dcbaa = dcbaa
  mapped : ∃ off, s.hhdm = some off ∧ ∀ n, off < s.boxes n

theorem Slots.around {s : Kernel} (h : Slots l enabled dcbaa s) : Around l dcbaa s := ⟨h.active, h.dcbaa, h.mapped⟩

theorem Around.slots {s : Kernel} (h : Around l dcbaa s) (hm : s.mail.Quiet) (he : s.mail.enabled = enabled) :
    Slots l enabled dcbaa s := ⟨hm, h.active, he, h.dcbaa, h.mapped⟩

theorem framed_around (R : Rules) (l : List ActivePort) (dcbaa : Nat → Nat) : Framed R Op.command (Around l dcbaa) where
  stable s s' h he := by
    have hu := env_unmoved he
    exact ⟨hu.activePorts.trans h.active, hu.dcbaa.trans h.dcbaa, by rw [hu.hhdm, hu.boxes]; exact h.mapped⟩
  frame o s r s' ho he h := by
    have hk := exec_keeps he
    exact ⟨(hk.activePorts fun _ heq => by rw [heq] at ho; cases ho).trans h.active,
      (hk.dcbaa fun _ _ heq => by rw [heq] at ho; cases ho).trans h.dcbaa, by rw [hk.hhdm, hk.boxes]; exact h.mapped⟩

/-- What an exchange leaves of the mail. -/
theorem Exchange.quiet {m m' : Mail} {trbType slotId : Nat} {t : Trb} (hm : m.Quiet)
    (h : Exchange R m trbType slotId t m') : m'.Quiet := by
  obtain ⟨c, -, -, -, rfl⟩ := h
  exact Mail.got_quiet hm c t

/-- A command other than Enable Slot and Disable Slot leaves the slots enabled that were. -/
theorem Exchange.keeps_enabled {m m' : Mail} {trbType slotId : Nat} {t : Trb} (h : Exchange R m trbType slotId t m')
    (he : trbType ≠ TRB_TYPE_ENABLE_SLOT) (hd : trbType ≠ TRB_TYPE_DISABLE_SLOT) : m'.enabled = m.enabled := by
  obtain ⟨c, rfl, -, -, rfl⟩ := h
  show c.enables t m.enabled = m.enabled
  unfold Command.enables
  rw [if_neg fun h => he h.2, if_neg fun h => hd h.2]

theorem not_timesOut : ¬ slotRules.TimesOut := fun ⟨_, h⟩ => by cases h

theorem enableSlot_slots :
    (machine slotRules).Triple (Slots l enabled dcbaa) enableSlot fun r s =>
      (∀ e, r = .error e → Slots l enabled dcbaa s) ∧
      ∀ slot, r = .ok slot → enabled slot = false ∧ Slots l (Function.update enabled slot true) dcbaa s := by
  intro s h r s' hr
  have ha := (framed_around slotRules l dcbaa).triple enableSlot_ops s h.around r s' hr
  obtain ⟨hc, hslot⟩ := enableSlot_spec h.quiet s rfl r s' hr
  obtain ⟨t, hx, hag⟩ := hc.resolve_right fun h => not_timesOut h.2
  have hq := hx.quiet h.quiet
  have hcode := hx.code
  obtain ⟨c, htype, -, hans, hm⟩ := hx
  have hen : s'.mail.enabled = c.enables t enabled := by
    rw [hm]
    exact congrArg (c.enables t) h.enabled
  unfold Command.enables at hen
  -- the slots that are enabled afterwards are known from the code of the completion
  refine ⟨fun e he => ?_, fun slot he => ?_⟩
  · have hne : t.completionCode ≠ 1 := fun h1 => by
      obtain ⟨a, ha⟩ := hag.2 h1
      rw [he] at ha
      cases ha
    rw [if_neg fun h => hne h.1, if_neg fun h => hne h.1] at hen
    exact ha.slots hq hen
  · have h1 : t.completionCode = 1 := hag.1 ⟨slot, he⟩
    have hs : slot = t.slotId := (hslot slot he).trans hcode.2
    rw [if_pos ⟨h1, htype⟩] at hen
    refine ⟨?_, ha.slots hq (by rw [hs]; exact hen)⟩
    rw [hs, ← h.enabled]
    exact (hans.slot htype h1).2

theorem configureEndpoint_slots (slotId rootPort : Nat) (ep : EndpointInfo) :
    (machine slotRules).Triple (Slots l enabled dcbaa) (configureEndpoint slotId rootPort ep) fun _ =>
      Slots l enabled dcbaa := by
  intro s h r s' hr
  have ha := (framed_around slotRules l dcbaa).triple (configureEndpoint_ops slotId rootPort ep) s h.around r s' hr
  rcases configureEndpoint_spec h.quiet slotId rootPort ep s rfl r s' hr with ⟨t, hx, -⟩ | ⟨-, hm | hto⟩
  · exact ha.slots (hx.quiet h.quiet) ((hx.keeps_enabled (by decide) (by decide)).trans h.enabled)
  · exact ha.slots (hm ▸ h.quiet) ((congrArg Mail.enabled hm).trans h.enabled)
  · exact absurd hto not_timesOut

/-- `disable_slot` clears the DCBAA entry where it returns `Ok`. -/
theorem disableSlot_dcbaa (slotId : Nat) :
    (machine slotRules).Triple (Around l dcbaa) (disableSlot slotId) fun r s =>
      ∀ u, r = .ok u → Around l (Function.update dcbaa slotId 0) s := by
  have ha := framed_around slotRules l dcbaa
  have ha' := framed_around slotRules l (Function.update dcbaa slotId 0)
  refine Machine.triple_bind
    (ha.triple (submit_all .disableSlot (.ret ()) trivial rfl fun _ => command_of_wait)) fun b => ?_
  split
  · refine ha.act rfl fun code => ?_
    split
    · exact Machine.triple_ret ha.stable fun _ _ => nofun
    · refine ha.act rfl fun _ => ha.act rfl fun _ => ha.act rfl fun _ => ?_
      refine Machine.triple_call ha.stable (fun _ => Around l (Function.update dcbaa slotId 0))
        (fun s r s' h _ he => ?_)
        fun _ => Machine.triple_ret ha'.stable fun _ h _ _ => h
      cases he
      exact ⟨h.active, by rw [← h.dcbaa], h.mapped⟩
  · exact Machine.triple_ret ha.stable fun _ _ => nofun

theorem disableSlot_slots (slotId : Nat) :
    (machine slotRules).Triple (Slots l enabled dcbaa) (disableSlot slotId) fun _ =>
      Slots l (Function.update enabled slotId false) (Function.update dcbaa slotId 0) := by
  intro s h r s' hr
  obtain ⟨t, hx, hag⟩ := (disableSlot_spec h.quiet slotId s rfl r s' hr).resolve_right fun h => not_timesOut h.2
  have hq := hx.quiet h.quiet
  obtain ⟨c, htype, hslot, hans, hm⟩ := hx
  obtain ⟨s₁, hrule⟩ := hans.rule
  have h1 : t.completionCode = 1 := hrule (.inr htype)
  obtain ⟨u, hok⟩ := hag.2 h1
  refine (disableSlot_dcbaa slotId s h.around r s' hr u hok).slots hq ?_
  rw [hm]
  show c.enables t s.hw.enabled = _
  unfold Command.enables
  rw [htype, if_neg (fun h => absurd h.2 (by decide)), if_pos ⟨h1, rfl⟩, hslot, h.enabled]

theorem addressDevice_slots (slotId rootPort speed : Nat) :
    (machine slotRules).Triple (Slots l enabled dcbaa) (addressDevice slotId rootPort speed) fun r s =>
      (∃ u, r = .ok u) ∧ ∃ v, v ≠ 0 ∧ Slots l enabled (Function.update dcbaa slotId v) s := by
  intro s h r s' hr
  obtain ⟨off, hoff, hbox⟩ := h.mapped
  obtain ⟨v, hv, hmap, i, c, hle, hi, -⟩ := addressDevice_sends (n := s.hw.commands.length) (t := s.hw.clock)
    slotId speed s ⟨hoff, hbox, Nat.le_refl _, Nat.le_refl _, h.dcbaa⟩ r s' hr
  have hactive : Framed slotRules Op.slotting fun s => s.activePorts = l :=
    ⟨fun _ _ h he => (env_unmoved he).activePorts.trans h, fun o _ _ _ ho he h =>
      ((exec_keeps he).activePorts fun _ heq => by rw [heq] at ho; cases ho).trans h⟩
  have hl := hactive.triple (addressDevice_ops slotId rootPort speed) s h.active r s' hr
  have ha : Around l (Function.update dcbaa slotId v) s' := ⟨hl, hmap.dcbaa, off, hmap.hhdm, hmap.boxes⟩
  rcases addressDevice_spec h.quiet slotId rootPort speed s rfl r s' hr with ⟨t, hx, hag⟩ | ⟨-, hm | hto⟩
  · have hq := hx.quiet h.quiet
    have hen := (hx.keeps_enabled (by decide) (by decide)).trans h.enabled
    obtain ⟨c, htype, -, hans, -⟩ := hx
    obtain ⟨s₁, hrule⟩ := hans.rule
    exact ⟨hag.2 (hrule (.inl htype)), v, hv, ha.slots hq hen⟩
  · have hc : s'.hw.commands = s.hw.commands := congrArg Mail.commands hm
    rw [hc] at hi
    exact absurd (List.getElem?_eq_some_iff.1 hi).1 (Nat.not_lt.2 hle)
  · exact absurd hto not_timesOut

/-! ## A device -/

theorem initDriver_slots (k : DeviceKind) (message : String) (slotId : Nat) (ep : EndpointHandle)
    (interfaceNumber : Nat) :
    (machine slotRules).Triple (Slots l enabled dcbaa) (initDriver k message slotId ep interfaceNumber) fun _ =>
      Slots l enabled dcbaa :=
  (framed_slots _ l enabled dcbaa).triple ((initDriver_ops k message slotId ep interfaceNumber).mono fun _ h =>
    h.elim slotless_of_transfer slotless_of_attach)

theorem dispatchAll_slots (slotId rootPort : Nat) (hasKeyboard hasMouse : Bool) (eps : List EndpointInfo) :
    (machine slotRules).Triple (Slots l enabled dcbaa) (dispatchAll slotId rootPort hasKeyboard hasMouse eps) fun _ =>
      Slots l enabled dcbaa := by
  have hs := framed_slots slotRules l enabled dcbaa
  have hret : ∀ {α : Type} (a : α), (machine slotRules).Triple (Slots l enabled dcbaa) (.ret a) fun _ =>
      Slots l enabled dcbaa := fun a => Machine.triple_ret hs.stable fun _ h => h
  induction eps generalizing hasKeyboard hasMouse with
  | nil => exact hret _
  | cons ep rest ih =>
    have hone : (machine slotRules).Triple (Slots l enabled dcbaa) (dispatchEndpoint slotId rootPort ep) fun _ =>
        Slots l enabled dcbaa := by
      unfold dispatchEndpoint
      split
      · exact hret _
      · refine Machine.triple_bind (configureEndpoint_slots slotId rootPort ep) fun r => ?_
        split
        · exact hret _
        · split
          · exact Machine.triple_bind (initDriver_slots .keyboard _ _ _ _) fun _ => hret _
          · exact Machine.triple_bind (initDriver_slots .mouse _ _ _ _) fun _ => hret _
          · exact hret _
    refine Machine.triple_bind hone fun kind => ?_
    split <;> exact ih _ _

theorem setupDevice_slots (slotId rootPort : Nat) :
    (machine slotRules).Triple (Slots l enabled dcbaa) (setupDevice slotId rootPort) fun _ =>
      Slots l enabled dcbaa := by
  have hs := framed_slots slotRules l enabled dcbaa
  have hret : ∀ {α : Type} (a : α), (machine slotRules).Triple (Slots l enabled dcbaa) (.ret a) fun _ =>
      Slots l enabled dcbaa := fun a => Machine.triple_ret hs.stable fun _ h => h
  refine Machine.triple_bind
    (hs.triple ((getDeviceDescriptor_ops slotId).mono fun _ => slotless_of_transfer)) fun r => ?_
  split
  · exact hret _
  · refine Machine.triple_bind
      (hs.triple ((getInterruptEndpoints_ops slotId).mono fun _ => slotless_of_transfer)) fun r => ?_
    split
    · exact hret _
    · refine Machine.triple_bind (hs.triple ((controlTransferNoData_ops _ _ _ _ _).mono fun _ => slotless_of_transfer))
        fun r => ?_
      split
      · exact hret _
      · exact dispatchAll_slots _ _ _ _ _

theorem shutdownDevice_slots (entry : ActivePort) :
    (machine slotRules).Triple (Slots l enabled dcbaa) (shutdownDevice entry) fun _ =>
      Slots l (Function.update enabled entry.slotId false) (Function.update dcbaa entry.slotId 0) := by
  have hs := framed_slots slotRules l enabled dcbaa
  have hdown : ∀ k b, (machine slotRules).Triple (Slots l enabled dcbaa)
    (onlyIf b (shutdownDriver k entry.slotId)) fun _ =>
      Slots l enabled dcbaa := fun k b =>
    hs.triple (onlyIf_all b ((shutdownDriver_ops k _).mono fun _ => slotless_of_attach))
  refine Machine.triple_bind (hdown .keyboard _) fun _ => Machine.triple_bind (hdown .mouse _) fun _ => ?_
  refine Machine.triple_bind (disableSlot_slots entry.slotId) fun _ => ?_
  exact Machine.triple_ret (framed_slots slotRules l _ _).stable fun _ h => h

end Slots

/-! ## The registry -/

/-- No command is outstanding, and the slots agree with the registry `l`. -/
def Accounted (l : List ActivePort) (s : Kernel) : Prop :=
  ∃ enabled dcbaa, Agree (l.map (·.slotId)) enabled dcbaa ∧ Slots l enabled dcbaa s

section Registry

variable {l : List ActivePort}

theorem framed_accounted (l : List ActivePort) : Framed slotRules Op.slotless (Accounted l) where
  stable s s' := fun ⟨enabled, dcbaa, ha, hs⟩ he =>
    ⟨enabled, dcbaa, ha, (framed_slots _ l enabled dcbaa).stable s s' hs he⟩
  frame o s r s' ho he := fun ⟨enabled, dcbaa, ha, hs⟩ =>
    ⟨enabled, dcbaa, ha, (framed_slots slotRules l enabled dcbaa).frame o s r s' ho he hs⟩

theorem exec_setActive_slots {enabled : Nat → Bool} {dcbaa : Nat → Nat} {l' : List ActivePort} {s s' : Kernel}
    {r : Unit} (h : Slots l enabled dcbaa s) (he : s.exec (.setActive l') = some (r, s')) :
    Slots l' enabled dcbaa s' := by
  cases he
  exact ⟨h.quiet, rfl, h.enabled, h.dcbaa, h.mapped⟩

theorem getActive_accounted {Q : Unit → Kernel → Prop} {f : List ActivePort → KProg Unit}
    (hf : (machine slotRules).Triple (Accounted l) (f l) Q) :
    (machine slotRules).Triple (Accounted l) (getActive >>= f) Q := by
  refine Machine.triple_call (framed_accounted l).stable (fun r s => r = l ∧ Accounted l s) (fun s r s' h _ he => ?_)
    fun r s ⟨hr, hs⟩ => hr ▸ hf s hs
  cases he
  obtain ⟨enabled, dcbaa, ha, hs⟩ := h
  exact ⟨hs.active, enabled, dcbaa, ha, hs⟩

theorem disconnectLoop_accounted (states : List (Nat × Nat)) (kept rest : List ActivePort) :
    (machine slotRules).Triple (Accounted (kept ++ rest)) (disconnectLoop states kept rest) fun _ s =>
      ∃ l, Accounted l s := by
  induction rest generalizing kept with
  | nil =>
    exact Machine.triple_ret (framed_accounted _).stable fun _ h => ⟨_, h⟩
  | cons entry rest ih =>
    unfold disconnectLoop
    split
    · have hih := ih (kept ++ [entry])
      rwa [List.append_assoc, List.singleton_append] at hih
    · refine Machine.triple_exists fun enabled => Machine.triple_exists fun dcbaa => ?_
      rintro s ⟨ha, hs⟩
      rw [List.map_append, List.map_cons] at ha
      have hrem := ha.remove
      rw [← List.map_append] at hrem
      refine (?_ : (machine slotRules).Triple (Slots (kept ++ entry :: rest) enabled dcbaa) _ _) s hs
      refine Machine.triple_call (framed_slots slotRules _ enabled dcbaa).stable
        (fun _ => Slots (kept ++ rest) enabled dcbaa) (fun s r s' h _ he => exec_setActive_slots h he) fun _ => ?_
      refine Machine.triple_bind (shutdownDevice_slots entry) fun _ => ?_
      exact (ih kept).conseq (fun _ h => ⟨_, _, hrem, h⟩) fun _ _ h => h

/-- The slots agree with the registry `l` and one more entry, that is not in it yet. -/
def Pending (l : List ActivePort) (e : ActivePort) (s : Kernel) : Prop :=
  ∃ enabled dcbaa, Agree ((l ++ [e]).map (·.slotId)) enabled dcbaa ∧ Slots l enabled dcbaa s

theorem stable_pending (l : List ActivePort) (e : ActivePort) : (machine slotRules).Stable (Pending l e) :=
  fun s s' ⟨enabled, dcbaa, ha, hs⟩ he => ⟨enabled, dcbaa, ha, (framed_slots _ l enabled dcbaa).stable s s' hs he⟩

/-- A device that is set up takes one slot; one that is not takes none. -/
theorem initOneDevice_accounted (rootPort speed : Nat) :
    (machine slotRules).Triple (Accounted l) (initOneDevice rootPort speed) fun r s =>
      match r with
      | none => Accounted l s
      | some e => Pending l e s := by
  refine Machine.triple_exists fun enabled => Machine.triple_exists fun dcbaa => ?_
  rintro s ⟨ha, hs⟩
  refine (?_ : (machine slotRules).Triple (Slots l enabled dcbaa) _ _) s hs
  refine Machine.triple_bind enableSlot_slots fun r => ?_
  cases r with
  | error e =>
    have hf := framed_slots slotRules l enabled dcbaa
    refine Machine.Triple.conseq (P := Slots l enabled dcbaa) ?_ (fun s h => h.1 e rfl) fun _ _ h => h
    exact Machine.triple_ret hf.stable fun _ h => ⟨enabled, dcbaa, ha, h⟩
  | ok slotId =>
    rintro s ⟨-, h⟩
    obtain ⟨hfree, hs⟩ := h slotId rfl
    refine (?_ : (machine slotRules).Triple (Slots l (Function.update enabled slotId true) dcbaa) _ _) s hs
    refine Machine.triple_bind (addressDevice_slots slotId rootPort speed) fun r => ?_
    cases r with
    | error e =>
      rintro s ⟨⟨_, he⟩, -⟩
      cases he
    | ok u =>
      rintro s ⟨-, v, hv, hs⟩
      have hadd := ha.add hfree hv
      refine (?_ : (machine slotRules).Triple
        (Slots l (Function.update enabled slotId true) (Function.update dcbaa slotId v)) _ _) s hs
      refine Machine.triple_bind ((setupDevice_slots slotId rootPort).returns (setupDevice_returns slotId rootPort))
        fun e => ?_
      rintro s ⟨⟨-, hslot⟩, hs⟩
      refine (?_ : (machine slotRules).Triple (Pending l e) (pure (some e)) _) s ⟨_, _, ?_, hs⟩
      · exact Machine.triple_ret (stable_pending l e) fun _ h => h
      rw [List.map_append, List.map_singleton, hslot]
      exact hadd

theorem connectLoop_accounted (states : List (Nat × Nat)) (l : List ActivePort) :
    (machine slotRules).Triple (Accounted l) (connectLoop states) fun _ s => ∃ l, Accounted l s := by
  induction states generalizing l with
  | nil => exact Machine.triple_ret (framed_accounted l).stable fun _ h => ⟨l, h⟩
  | cons st rest ih =>
    obtain ⟨port, speed⟩ := st
    refine getActive_accounted ?_
    split
    · exact ih l
    · refine Machine.triple_bind (initOneDevice_accounted _ _) fun r => ?_
      cases r with
      | none => exact Machine.triple_keep (framed_accounted l).stable (fun s r s' h he =>
          (framed_accounted l).frame .initFailed s r s' rfl he h) fun _ => ih l
      | some e =>
        refine Machine.triple_call (stable_pending l e) (fun r s => r = l ∧ Pending l e s) (fun s r s' h _ he => ?_)
          fun r s ⟨hr, hs⟩ => ?_
        · cases he
          obtain ⟨enabled, dcbaa, ha, hs⟩ := h
          exact ⟨hs.active, enabled, dcbaa, ha, hs⟩
        · subst hr
          refine (?_ : (machine slotRules).Triple (Pending r e)
            (act (.setActive (r ++ [e])) >>= fun _ => connectLoop rest) _)
            s hs
          refine Machine.triple_call (stable_pending r e) (fun _ => Accounted (r ++ [e])) (fun s _ s' h _ he => ?_)
            fun _ => ih _
          obtain ⟨enabled, dcbaa, ha, hs⟩ := h
          exact ⟨enabled, dcbaa, ha, exec_setActive_slots hs he⟩

theorem portStates_slotless : portStates.All fun o => o.slotless = true := by
  have hscan : ∀ n port, (scanPorts port n).All fun o => o.slotless = true := by
    intro n
    induction n with
    | zero => exact fun _ => trivial
    | succ n ih => exact fun port => all_act rfl fun _ => (ih (port + 1)).bind fun _ => trivial
  exact all_act rfl fun _ => all_act rfl fun _ => all_act rfl fun n => (hscan n 0).bind fun _ =>
    all_act rfl fun _ => trivial

theorem stable_accounted : (machine slotRules).Stable fun s => ∃ l, Accounted l s :=
  Machine.Stable.exists fun l => (framed_accounted l).stable

theorem discover_accounted :
    (machine slotRules).Triple (fun s => ∃ l, Accounted l s) discoverAndInitHidDevices fun _ s =>
      ∃ l, Accounted l s := by
  refine Machine.triple_exists fun l => ?_
  have hl := framed_accounted l
  refine Machine.triple_bind (hl.triple portStates_slotless) fun states => hl.act rfl fun _ => getActive_accounted ?_
  refine Machine.triple_bind (disconnectLoop_accounted states [] l) fun _ => Machine.triple_exists fun l => ?_
  refine Machine.triple_bind (connectLoop_accounted states l) fun _ => Machine.triple_exists fun l => ?_
  exact (framed_accounted l).act rfl fun _ => Machine.triple_ret (framed_accounted l).stable fun _ h => ⟨l, h⟩

theorem pollHotplug_accounted :
    (machine slotRules).Triple (fun s => ∃ l, Accounted l s) pollHotplug fun _ s => ∃ l, Accounted l s := by
  refine Machine.triple_exists fun l => ?_
  have hl := framed_accounted l
  have hret : (machine slotRules).Triple (Accounted l) (pure () : KProg Unit) fun _ s => ∃ l, Accounted l s :=
    Machine.triple_ret hl.stable fun _ h => ⟨l, h⟩
  refine hl.act rfl fun b => ?_
  split
  · refine hl.act rfl fun b => ?_
    split
    · exact discover_accounted.conseq (fun _ h => ⟨l, h⟩) fun _ _ h => h
    · exact hret
  · exact hret

end Registry

/-- If every command is answered in time and Address Device and Disable Slot succeed, then between
the calls the enabled slots are the slots of the registry, each of them once, and theirs are the
DCBAA entries that are set. -/
theorem slots_agree {hist : List (Machine.Return Kernel fun _ : SyncCall => Unit)} {s : Kernel}
    (h : SyncSession slotRules hist s) : s.SlotsAgree := by
  have hboot : ∀ s, PowerOn s → ∃ l, Accounted l s := by
    intro s hp
    refine ⟨[], s.hw.enabled, s.dcbaa, ⟨List.nodup_nil, fun slot => ?_, fun slot => ?_⟩,
      ⟨hp.commands.2, List.filter_eq_nil_iff.2 fun e he => ?_⟩, hp.activePorts, rfl, rfl, hp.hhdm⟩
    · rw [hp.enabled]
      exact ⟨nofun, fun hm => absurd hm List.not_mem_nil⟩
    · exact ⟨fun hn => absurd (hp.dcbaa slot) hn, fun hm => absurd hm List.not_mem_nil⟩
    · unfold Event.isCompletion
      rw [hp.events e he]
      decide
  have hcall : ∀ i, (machine slotRules).Triple (fun s => ∃ l, Accounted l s) (SyncCall.prog i) fun _ s =>
      ∃ l, Accounted l s := fun i => by
    cases i with
    | discoverAndInitHidDevices => exact discover_accounted
    | pollHotplug => exact pollHotplug_accounted
  have hi := h.invariant hboot stable_accounted hcall
  obtain ⟨l, enabled, dcbaa, ha, hs⟩ := hi
  unfold Kernel.SlotsAgree
  rw [hs.active, hs.enabled, hs.dcbaa]
  exact ha

/-- Boot with a device on the only port: its slot is 1. -/
theorem slots_agree_boot :
    ∃ hist s, SyncSession slotRules hist s ∧ s.activePorts = [⟨1, 1, false, false⟩] ∧ s.SlotsAgree := by
  obtain ⟨⟨⟩, s, hr, ht⟩ := exists_run (R := slotRules)
    (ops 14 ++ [.answer 0 (completionTrb 1 1), .interrupt] ++ ops 20 ++ [.answer 1 (completionTrb 1 1), .interrupt] ++
      ops 13 ++ [.complete 0 (transferTrb 4 1 1), .interrupt] ++ ops 5)
    SyncCall.discoverAndInitHidDevices.prog (Kernel.start 1 fun _ => ⟨true, false, 1, 0⟩)
    (fun _ s => decide (s.activePorts = [⟨1, 1, false, false⟩])) (by decide +kernel)
  have hs := Machine.Session.call (.boot (powerOn_start (by decide) _ fun _ => rfl))
    SyncCall.discoverAndInitHidDevices hr
  exact ⟨_, s, hs, of_decide_eq_true ht, slots_agree hs⟩

/-- Enable Slot succeeds and Address Device fails: `init_one_device` gives up without Disable Slot,
and the slot is lost. -/
theorem leaked_slot :
    ∃ (hist : List (Machine.Return Kernel fun _ : SyncCall => Unit)) (s : Kernel),
      SyncSession answeredRules hist s ∧ ¬ s.SlotsAgree := by
  obtain ⟨⟨⟩, s, hr, ht⟩ := exists_run (R := answeredRules)
    (ops 14 ++ [.answer 0 (completionTrb 1 1), .interrupt] ++ ops 20 ++ [.answer 1 (completionTrb 4 1),
      .interrupt] ++ ops 4)
    SyncCall.discoverAndInitHidDevices.prog (Kernel.start 1 fun _ => ⟨true, false, 1, 0⟩)
    (fun _ s => decide (s.activePorts = [] ∧ s.hw.enabled 1 = true)) (by decide +kernel)
  obtain ⟨ha, he⟩ := of_decide_eq_true ht
  have hs := Machine.Session.call (.boot (powerOn_start (by decide) _ fun _ => rfl))
    SyncCall.discoverAndInitHidDevices hr
  refine ⟨_, s, hs, fun hag => ?_⟩
  have hm := (hag.enabled 1).1 he
  rw [ha] at hm
  cases hm

end Octagram.Usb

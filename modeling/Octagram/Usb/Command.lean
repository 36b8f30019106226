/-
Commands and their completions: the driver and the controller as two parties that exchange messages
(`Mail`), and the one flag by which a call recognises the answer to its command. A call that starts
with no command outstanding and no completion unread returns `Ok` only for its own
(`command_agreement`). From quiet mail the only answer that can come is the one to the command sent
(`waiting_step`), which is carried through the wait loop, and so from the submission to the loads of
the result. A time-out leaves the mail unquiet, and the next call takes the late answer for its own
(`late_answer`).
-/
import Octagram.Usb.Calls
import Octagram.Usb.Handler
import Octagram.Usb.Schedule

namespace Octagram.Usb

open Octagram.Lib

/-- What a step can change about commands: those sent and those without answer, the completions not
yet read and those read, what `poll_event_ring` copied, and the slots of the controller. -/
structure Mail where
  commands : List Command
  unanswered : List Nat
  unread : List Event
  received : List Event
  pending : Bool
  code : Nat
  slot : Nat
  enabled : Nat → Bool

/-- An event that reports a command. -/
def Event.isCompletion (e : Event) : Bool := e.trb.trbType = 33

/-- The mail of a state. -/
def Kernel.mail (s : Kernel) : Mail where
  commands := s.hw.commands
  unanswered := s.hw.unanswered
  unread := s.hw.events.filter (·.isCompletion)
  received := s.hw.consumed.filter (·.isCompletion)
  pending := s.globals.flag .completionPending
  code := s.globals.reg .completionCode
  slot := s.globals.reg .completionSlot
  enabled := s.hw.enabled

/-- No command is outstanding, and no completion is unread. -/
structure Mail.Quiet (m : Mail) : Prop where
  unanswered : m.unanswered = []
  unread : m.unread = []

/-- The controller may answer a command so. -/
structure Answers (R : Rules) (enabled : Nat → Bool) (c : Command) (t : Trb) : Prop where
  trbType : t.trbType = 33
  slot : c.trbType = TRB_TYPE_ENABLE_SLOT → t.completionCode = 1 → t.slotId ≠ 0 ∧ enabled t.slotId = false
  rule : ∃ s, R.answer s c t

/-- What the surroundings do to the mail: the handler reads a completion, or the controller answers. -/
inductive MailStep (R : Rules) : Mail → Mail → Prop
  | same (m : Mail) : MailStep R m m
  | read {m : Mail} {e : Event} {rest : List Event} (h : m.unread = e :: rest) :
      MailStep R m { m with
        unread := rest, received := m.received ++ [e], pending := true
        code := e.trb.completionCode, slot := e.trb.slotId }
  | answer {m : Mail} {id : Nat} {c : Command} {t : Trb} (hid : id ∈ m.unanswered) (hc : m.commands[id]? = some c)
      (ht : Answers R m.enabled c t) :
      MailStep R m { m with
        unanswered := m.unanswered.filter (· ≠ id)
        unread := m.unread ++ [⟨t, .command id⟩]
        enabled := c.enables t m.enabled }

/-! ## Steps -/

section Steps

variable {R : Rules} {s s' : Kernel}

theorem dispatch_mail (g : Globals) {t : Trb} (h : t.trbType ≠ 33) :
    (g.dispatch t).flag .completionPending = g.flag .completionPending ∧
    (g.dispatch t).reg .completionCode = g.reg .completionCode ∧
    (g.dispatch t).reg .completionSlot = g.reg .completionSlot := by
  unfold Globals.dispatch
  split
  · exact ⟨rfl, rfl, rfl⟩
  · exact absurd ‹_› h
  · split
    · exact ⟨rfl, rfl, rfl⟩
    · split <;> exact ⟨rfl, rfl, rfl⟩
  · exact ⟨rfl, rfl, rfl⟩

theorem dispatch_completion (g : Globals) {t : Trb} (h : t.trbType = 33) :
    (g.dispatch t).flag .completionPending = true ∧
    (g.dispatch t).reg .completionCode = t.completionCode ∧
    (g.dispatch t).reg .completionSlot = t.slotId := by
  unfold Globals.dispatch
  rw [h]
  exact ⟨rfl, rfl, rfl⟩

theorem poll_mail : MailStep R s.mail s.pollEventRing.mail := by
  cases he : s.hw.events with
  | nil =>
    have : s.pollEventRing.mail = s.mail := by
      unfold Kernel.mail Kernel.pollEventRing pollQueue
      simp only [he, List.take_nil, List.append_nil]
    rw [this]
    exact .same _
  | cons e rest =>
    -- an event of a port or a transfer is no mail; a completion is read
    cases hc : e.isCompletion with
    | false =>
      obtain ⟨h1, h2, h3⟩ := dispatch_mail s.globals (t := e.trb) (of_decide_eq_false hc)
      have : s.pollEventRing.mail = s.mail := by
        unfold Kernel.mail Kernel.pollEventRing pollQueue
        simp only [he, h1, h2, h3, List.take_succ_cons, List.take_zero, List.filter_append, List.filter_cons, hc,
          List.filter_nil, List.append_nil, Bool.false_eq_true, if_false]
      rw [this]
      exact .same _
    | true =>
      obtain ⟨h1, h2, h3⟩ := dispatch_completion s.globals (t := e.trb) (of_decide_eq_true hc)
      have hu : s.mail.unread = e :: rest.filter (·.isCompletion) := by
        unfold Kernel.mail
        simp only [he, List.filter_cons, hc, if_true]
      have : s.pollEventRing.mail = { s.mail with
          unread := rest.filter (·.isCompletion), received := s.mail.received ++ [e], pending := true
          code := e.trb.completionCode, slot := e.trb.slotId } := by
        unfold Kernel.mail Kernel.pollEventRing pollQueue
        simp only [he, h1, h2, h3, List.take_succ_cons, List.take_zero, List.filter_append, List.filter_cons, hc,
          List.filter_nil, if_true]
      rw [this]
      exact .read hu

theorem driven_mail (h : Driven s s') : s'.mail = s.mail := by
  obtain ⟨ts, is, hw⟩ := h.hw
  unfold Kernel.mail
  rw [hw, h.flag .completionPending nofun nofun, h.reg]

theorem filter_snoc_other (l : List Event) {e : Event} (h : e.isCompletion = false) :
    (l ++ [e]).filter (·.isCompletion) = l.filter (·.isCompletion) := by
  rw [List.filter_append, List.filter_cons, h, if_neg Bool.false_ne_true, List.filter_nil, List.append_nil]

theorem portChange_mail {p : Nat} (port : Port) {t : Trb} (ht : t.trbType = 34) :
    Kernel.mail { s with hw := s.hw.portChange p port t } = s.mail := by
  have hcomp : Event.isCompletion ⟨t, .port p⟩ = false := decide_eq_false (by rw [ht]; decide)
  unfold Kernel.mail Controller.portChange
  dsimp only
  split
  · rfl
  · rw [filter_snoc_other _ hcomp]

/-- A step of the surroundings is a step of the mail. -/
theorem env_mail (h : Env R s s') : MailStep R s.mail s'.mail := by
  cases h with
  -- of the handler, only its poll reads mail: what the drivers do is none
  | interrupt hi h =>
    have hd := driven_mail (handler_driven h)
    rw [hd]
    split
    · exact poll_mail
    · exact .same _
  | @answer id c t ht hid hc hslot hr =>
    have hmail : Kernel.mail { s with hw := s.hw.answer id c t } = { s.mail with
        unanswered := s.mail.unanswered.filter (· ≠ id)
        unread := s.mail.unread ++ [⟨t, .command id⟩]
        enabled := c.enables t s.mail.enabled } := by
      have hcomp : Event.isCompletion ⟨t, .command id⟩ = true := decide_eq_true ht
      unfold Kernel.mail Controller.answer
      simp only [List.filter_append, List.filter_cons, hcomp, if_true, List.filter_nil]
    rw [hmail]
    exact .answer hid hc ⟨ht, hslot, s, hr⟩
  | @complete id ring t ht hid hring hep =>
    have hcomp : Event.isCompletion ⟨t, .transfer id⟩ = false := decide_eq_false (by rw [ht]; decide)
    have hmail : Kernel.mail { s with hw := s.hw.complete id t } = s.mail := by
      unfold Kernel.mail Controller.complete
      simp only [filter_snoc_other _ hcomp]
    rw [hmail]
    exact .same _
  | connect speed t ht =>
    rw [portChange_mail _ ht]
    exact .same _
  | disconnect t ht =>
    rw [portChange_mail _ ht]
    exact .same _
  | dma ram => exact .same _

/-- The operations that do not touch the mail. -/
def Op.mailless : Op → Bool
  | .sendCommand _ _ _ | .pollEventRing => false
  | .storeFlag f _ | .swapFlag f _ => f ≠ .completionPending
  | .storeReg r _ => r ≠ .completionCode ∧ r ≠ .completionSlot
  | _ => true

theorem exec_mailless {o : Op} {r : Ret o} (ho : o.mailless = true) (h : s.exec o = some (r, s')) :
    s'.mail = s.mail := by
  have hk := exec_keeps h
  have hp : o ≠ .pollEventRing := fun he => by rw [he] at ho; cases ho
  have hf : s'.globals.flag .completionPending = s.globals.flag .completionPending :=
    hk.flag _ (fun b he => by rw [he] at ho; cases ho) (fun b he => by rw [he] at ho; cases ho) hp
  have hc : s'.globals.reg .completionCode = s.globals.reg .completionCode :=
    hk.reg _ (fun b he => by rw [he] at ho; cases ho) hp
  have hs : s'.globals.reg .completionSlot = s.globals.reg .completionSlot :=
    hk.reg _ (fun b he => by rw [he] at ho; cases ho) hp
  obtain ⟨h1, h2⟩ := hk.sent fun _ _ _ he => by rw [he] at ho; cases ho
  obtain ⟨h3, h4⟩ := hk.events hp
  unfold Kernel.mail
  rw [hf, hc, hs, h1, h2, h3, h4, hk.enabled]

end Steps

/-! ## Waiting for the answer -/

section Waiting

variable {R : Rules} {m : Mail} {c : Command}

/-- The mail after command `c` was sent from `m`. -/
def Mail.sent (m : Mail) (c : Command) : Mail :=
  { m with commands := m.commands ++ [c], unanswered := m.unanswered ++ [m.commands.length] }

/-- The mail after the completion `t` of `c` was read. -/
def Mail.got (m : Mail) (c : Command) (t : Trb) : Mail :=
  { m with
    commands := m.commands ++ [c]
    received := m.received ++ [⟨t, .command m.commands.length⟩]
    pending := true
    code := t.completionCode
    slot := t.slotId
    enabled := c.enables t m.enabled }

/-- Between the submission of `c` and the reading of its completion. -/
inductive Waiting (R : Rules) (m : Mail) (c : Command) : Mail → Prop
  | sent : Waiting R m c (m.sent c)
  | answered {t : Trb} (ht : Answers R m.enabled c t) : Waiting R m c
      { m with
        commands := m.commands ++ [c]
        unread := [⟨t, .command m.commands.length⟩]
        enabled := c.enables t m.enabled }
  | got {t : Trb} (ht : Answers R m.enabled c t) : Waiting R m c (m.got c t)

theorem Mail.got_quiet (hm : m.Quiet) (c : Command) (t : Trb) : (m.got c t).Quiet := ⟨hm.unanswered, hm.unread⟩

/-- Quiet mail stays as it is. -/
theorem quiet_step {m' : Mail} (hm : m.Quiet) (h : MailStep R m m') : m' = m := by
  cases h with
  | same => rfl
  | read h => rw [hm.unread] at h; cases h
  | answer hid => rw [hm.unanswered] at hid; cases hid

/-- An assertion about the mail that the surroundings cannot falsify. -/
structure OnMail (R : Rules) (P : Kernel → Prop) : Prop where
  stable : (machine R).Stable P
  frame : ∀ s s', s'.mail = s.mail → P s → P s'

theorem onMail_quiet (hm : m.Quiet) : OnMail R fun s => s.mail = m where
  stable s s' h he := by
    subst h
    exact quiet_step hm (env_mail he)
  frame _ _ h hs := h.trans hs

theorem OnMail.exists {ι : Type} {P : ι → Kernel → Prop} (h : ∀ i, OnMail R (P i)) : OnMail R fun s => ∃ i, P i s where
  stable := Machine.Stable.exists fun i => (h i).stable
  frame s s' hs := fun ⟨i, hp⟩ => ⟨i, (h i).frame s s' hs hp⟩

theorem OnMail.and {p : Prop} {P : Kernel → Prop} (h : OnMail R P) : OnMail R fun s => p ∧ P s where
  stable s s' hp he := ⟨hp.1, h.stable s s' hp.2 he⟩
  frame s s' hs hp := ⟨hp.1, h.frame s s' hs hp.2⟩

/-- From quiet mail the only answer that can come is the one to `c`. -/
theorem waiting_step {m₁ m₂ : Mail} (hm : m.Quiet) (h : Waiting R m c m₁) (hs : MailStep R m₁ m₂) :
    Waiting R m c m₂ := by
  cases hs with
  | same => exact h
  -- there is something to read only once the answer is there
  | @read e rest hu =>
    cases h with
    | sent => rw [show (m.sent c).unread = m.unread from rfl, hm.unread] at hu; cases hu
    | got => rw [show (m.got c _).unread = m.unread from rfl, hm.unread] at hu; cases hu
    | @answered t ht =>
      cases hu
      have hg := Waiting.got ht
      unfold Mail.got at hg
      rwa [hm.unread] at hg
  -- in quiet mail the only command to answer is the one that was sent
  | @answer id c' t hid hc ht =>
    cases h with
    | sent =>
      have hid' : id = m.commands.length := by
        rw [show (m.sent c).unanswered = m.unanswered ++ [m.commands.length] from rfl, hm.unanswered] at hid
        exact List.mem_singleton.1 hid
      subst hid'
      have hc' : c' = c := by
        rw [show (m.sent c).commands = m.commands ++ [c] from rfl, List.getElem?_append_right (Nat.le_refl _),
          Nat.sub_self] at hc
        exact (Option.some.inj hc).symm
      subst hc'
      have ha := Waiting.answered (m := m) ht
      unfold Mail.sent
      dsimp only
      rw [hm.unanswered, hm.unread]
      rw [hm.unanswered] at ha
      rwa [List.nil_append, List.nil_append, List.filter_cons, if_neg (by simp), List.filter_nil]
    | answered ht' => rw [hm.unanswered] at hid; cases hid
    | got ht' => rw [show (m.got c _).unanswered = m.unanswered from rfl, hm.unanswered] at hid; cases hid

theorem onMail_waiting (hm : m.Quiet) (c : Command) : OnMail R fun s => Waiting R m c s.mail where
  stable _ _ h he := waiting_step hm h (env_mail he)
  frame _ _ h hs := h ▸ hs

theorem onMail_got (hm : m.Quiet) (c : Command) : OnMail R fun s => ∃ t, Answers R m.enabled c t ∧ s.mail = m.got c t :=
  .exists fun t => (onMail_quiet (Mail.got_quiet hm c t)).and

/-- Only a completion that was read sets the flag. -/
theorem waiting_pending {m' : Mail} (h : Waiting R m c m') (hp : m.pending = false) (hp' : m'.pending = true) :
    ∃ t, Answers R m.enabled c t ∧ m' = m.got c t := by
  cases h with
  | sent => rw [show (m.sent c).pending = m.pending from rfl, hp] at hp'; cases hp'
  | answered => rw [hp] at hp'; cases hp'
  | got ht => exact ⟨_, ht, rfl⟩

/-- The wait loop ends with the completion of `c` read, or by time-out. -/
theorem waitFor_spec (hm : m.Quiet) (hp : m.pending = false) (c : Command) (n : Nat) :
    (machine R).Triple (fun s => Waiting R m c s.mail) (waitFor .completionPending .command n) fun b s =>
      (b = true ∧ ∃ t, Answers R m.enabled c t ∧ s.mail = m.got c t) ∨
      (b = false ∧ ∃ s₁, R.allowed (.expire .command) s₁) := by
  induction n with
  | zero =>
    refine Machine.triple_op (onMail_waiting hm c).stable (fun _ _ => ∃ s₁, R.allowed (.expire .command) s₁)
      (fun s _ _ _ ha _ => ⟨s, ha⟩) fun _ => ?_
    exact Machine.triple_ret (fun _ _ h _ => h) fun _ h => .inr ⟨rfl, h⟩
  | succ n ih =>
    refine Machine.triple_op (onMail_waiting hm c).stable
      (fun b s => if b = true then ∃ t, Answers R m.enabled c t ∧ s.mail = m.got c t else Waiting R m c s.mail)
      (fun s b s' h _ he => ?_) fun b => ?_
    · cases he
      split
      · exact waiting_pending h hp ‹_›
      · exact h
    · cases b with
      | true => exact Machine.triple_ret (onMail_got hm c).stable fun _ h => .inl ⟨rfl, h⟩
      | false => exact ih

/-! ## The calls -/

/-- The call sent one command and read its completion. -/
def Exchange (R : Rules) (m : Mail) (trbType slotId : Nat) (t : Trb) (m' : Mail) : Prop :=
  ∃ c : Command, c.trbType = trbType ∧ c.slot = slotId ∧ Answers R m.enabled c t ∧ m' = m.got c t

/-- A wait for a command can give up. -/
def Rules.TimesOut (R : Rules) : Prop := ∃ s, R.allowed (.expire .command) s

variable {α : Type} {Q : α → Kernel → Prop}

/-- Operations that do not touch the mail, before the rest of a program. -/
theorem triple_act {P : Kernel → Prop} {o : Op} {f : Ret o → KProg α} (hs : OnMail R P) (ho : o.mailless = true)
    (hf : ∀ r, (machine R).Triple P (f r) Q) : (machine R).Triple P (act o >>= f) Q :=
  Machine.triple_keep hs.stable (fun _ _ _ h he => hs.frame _ _ (exec_mailless ho he) h) hf

theorem triple_mailless {P : Kernel → Prop} {p : KProg α} (hs : OnMail R P)
    (hp : p.All fun o => o.mailless = true) : (machine R).Triple P p fun _ => P :=
  Machine.triple_frame hs.stable hp fun _ _ _ _ ho h _ he => hs.frame _ _ (exec_mailless ho he) h

theorem send_mail {s s' : Kernel} {parameter trbType slotId : Nat} {r : Unit}
    (h : s.exec (.sendCommand parameter trbType slotId) = some (r, s')) :
    s'.mail = s.mail.sent ⟨trbType, slotId, s.inputContext parameter, s.hw.clock⟩ := by
  obtain ⟨x, -, he⟩ := Option.map_eq_some_iff.1 h
  cases he
  rfl

theorem bracket_mailless {o : Op} (h : o.bracket = true) : o.mailless = true := by
  cases o <;> first | rfl | cases h

/-- Submission under the lock. -/
theorem withXhci_spec (hm : m.Quiet) {site : Site} {prepare : KProg Unit} (hp : prepare.All fun o => o.mailless = true)
    (parameter trbType slotId : Nat) :
    (machine R).Triple (fun s => s.mail = m)
      (withXhci site (prepare >>= fun _ => sendCommand parameter trbType slotId))
      fun _ s => ∃ c : Command, c.trbType = trbType ∧ c.slot = slotId ∧ Waiting R m c s.mail := by
  have hs : OnMail R fun s => s.mail = m := onMail_quiet hm
  have hw : OnMail R fun s => ∃ c : Command, c.trbType = trbType ∧ c.slot = slotId ∧ Waiting R m c s.mail :=
    .exists fun c => ((onMail_waiting hm c).and).and
  refine triple_withXhci hs.stable hw.stable
    (fun _ _ _ _ ho he => hs.frame _ _ (exec_mailless (bracket_mailless ho) he))
    (fun _ _ _ _ ho he => hw.frame _ _ (exec_mailless (bracket_mailless ho) he)) ?_
  refine Machine.triple_bind (triple_mailless hs hp) fun _ => ?_
  refine Machine.triple_op hs.stable _ (fun s r s' h _ he => ?_) fun _ => Machine.triple_ret hw.stable fun _ h => h
  exact ⟨_, rfl, rfl, by rw [send_mail he, h]; exact .sent⟩

theorem submit_spec (hm : m.Quiet) {site : Site} {prepare : KProg Unit} (hp : prepare.All fun o => o.mailless = true)
    (parameter trbType slotId : Nat) :
    (machine R).Triple (fun s => s.mail = m) (submit site prepare parameter trbType slotId) fun b s =>
      (b = true ∧ ∃ t, Exchange R m trbType slotId t s.mail) ∨ (b = false ∧ R.TimesOut) := by
  have hm' : Mail.Quiet { m with pending := false } := ⟨hm.unanswered, hm.unread⟩
  refine Machine.triple_op (onMail_quiet hm).stable (fun _ s => s.mail = { m with pending := false })
    (fun s r s' h _ he => by cases he; rw [← h]; rfl) fun _ => ?_
  show (machine R).Triple _ (withXhci site (prepare >>= fun _ => sendCommand parameter trbType slotId) >>= fun _ =>
    waitFor .completionPending .command TIMEOUT) _
  refine Machine.triple_bind (withXhci_spec hm' hp parameter trbType slotId) fun _ => ?_
  intro s ⟨c, h1, h2, h3⟩ b s' hr
  rcases waitFor_spec hm' rfl c TIMEOUT s h3 b s' hr with ⟨hb, t, ht, he⟩ | h
  · exact .inl ⟨hb, t, c, h1, h2, ht, he⟩
  · exact .inr h

theorem Exchange.code {trbType slotId : Nat} {t : Trb} {m' : Mail} (h : Exchange R m trbType slotId t m') :
    m'.code = t.completionCode ∧ m'.slot = t.slotId := by
  obtain ⟨c, -, -, -, rfl⟩ := h
  exact ⟨rfl, rfl⟩

theorem onMail_exchange (hm : m.Quiet) (trbType slotId : Nat) (t : Trb) :
    OnMail R fun s => Exchange R m trbType slotId t s.mail :=
  .exists fun c => (((onMail_quiet (Mail.got_quiet hm c t)).and).and).and

/-- After the exchange the loads give what the completion says. -/
theorem triple_loadCode (hm : m.Quiet) {trbType slotId : Nat} {t : Trb} {f : Nat → KProg α}
    (hf : (machine R).Triple (fun s => Exchange R m trbType slotId t s.mail) (f t.completionCode) Q) :
    (machine R).Triple (fun s => Exchange R m trbType slotId t s.mail) (loadReg .completionCode >>= f) Q := by
  refine Machine.triple_op (onMail_exchange hm trbType slotId t).stable
    (fun r s => r = t.completionCode ∧ Exchange R m trbType slotId t s.mail)
    (fun s r s' h _ he => by cases he; exact ⟨h.code.1, h⟩) fun r s h => ?_
  obtain ⟨rfl, h⟩ := h
  exact hf s h

theorem triple_loadSlot (hm : m.Quiet) {trbType slotId : Nat} {t : Trb} {f : Nat → KProg α}
    (hf : (machine R).Triple (fun s => Exchange R m trbType slotId t s.mail) (f t.slotId) Q) :
    (machine R).Triple (fun s => Exchange R m trbType slotId t s.mail) (loadReg .completionSlot >>= f) Q := by
  refine Machine.triple_op (onMail_exchange hm trbType slotId t).stable
    (fun r s => r = t.slotId ∧ Exchange R m trbType slotId t s.mail)
    (fun s r s' h _ he => by cases he; exact ⟨h.code.2, h⟩) fun r s h => ?_
  obtain ⟨rfl, h⟩ := h
  exact hf s h

/-- What a call makes of its submission: `answered` if the completion was read, else the error. -/
theorem triple_submit (hm : m.Quiet) {site : Site} (prepare : KProg Unit) (hp : prepare.All fun o => o.mailless = true)
    {parameter trbType slotId : Nat} {answered : KProg (Except String α)} {message : String}
    {Q : Except String α → Kernel → Prop}
    (ha : ∀ t, (machine R).Triple (fun s => Exchange R m trbType slotId t s.mail) answered Q)
    (ht : ∀ s, R.TimesOut → Q (.error message) s) :
    (machine R).Triple (fun s => s.mail = m)
      (submit site prepare parameter trbType slotId >>= fun b =>
        if b = true then answered else pure (.error message)) Q := by
  refine Machine.triple_bind (submit_spec hm hp parameter trbType slotId) fun b => ?_
  cases b with
  | true =>
    refine Machine.Triple.conseq (Machine.triple_exists ha) (fun s h => ?_) fun _ _ h => h
    exact h.elim (·.2) fun h => absurd h.1 nofun
  | false =>
    intro s h r s' hr
    have hto : R.TimesOut := h.elim (fun h => absurd h.1 nofun) (·.2)
    exact (Machine.triple_ret (P := fun _ => True) (fun _ _ _ _ => trivial) fun s _ => ht s hto) s trivial r s' hr

/-- What a call that returns a result without a value says of it. -/
def Agrees (r : Except String α) (t : Trb) : Prop := (∃ a, r = .ok a) ↔ t.completionCode = 1

/-- The call read the completion of the command it sent, or failed: before it sent it, or by time-out. -/
def Answered (R : Rules) (m : Mail) (trbType slotId : Nat) (r : Except String α) (s : Kernel) : Prop :=
  (∃ t, Exchange R m trbType slotId t s.mail ∧ Agrees r t) ∨ ((∃ e, r = .error e) ∧ (s.mail = m ∨ R.TimesOut))

/-- The same for the calls that always send their command. -/
def Concluded (R : Rules) (m : Mail) (trbType slotId : Nat) (r : Except String α) (s : Kernel) : Prop :=
  (∃ t, Exchange R m trbType slotId t s.mail ∧ Agrees r t) ∨ ((∃ e, r = .error e) ∧ R.TimesOut)

theorem Concluded.answered {trbType slotId : Nat} {r : Except String α} {s : Kernel}
    (h : Concluded R m trbType slotId r s) : Answered R m trbType slotId r s := h.imp_right fun h => ⟨h.1, .inr h.2⟩

theorem enableSlot_spec (hm : m.Quiet) :
    (machine R).Triple (fun s => s.mail = m) enableSlot fun r s =>
      Concluded R m TRB_TYPE_ENABLE_SLOT 0 r s ∧ ∀ slot, r = .ok slot → slot = s.mail.slot := by
  refine triple_submit hm (.ret ()) trivial (fun t => triple_loadCode hm (triple_loadSlot hm ?_)) ?_
  · refine Machine.triple_ret (onMail_exchange hm _ _ t).stable fun s h => ?_
    split
    · rename_i hc
      refine ⟨.inl ⟨t, h, fun _ => hc, fun _ => ⟨_, rfl⟩⟩, fun slot he => ?_⟩
      rw [h.code.2]
      exact (Except.ok.inj he).symm
    · rename_i hc
      exact ⟨.inl ⟨t, h, fun ⟨_, he⟩ => (nomatch he), fun he => absurd he hc⟩, nofun⟩
  · exact fun s h => ⟨.inr ⟨⟨_, rfl⟩, h⟩, nofun⟩

theorem disableSlot_spec (hm : m.Quiet) (slotId : Nat) :
    (machine R).Triple (fun s => s.mail = m) (disableSlot slotId) (Concluded R m TRB_TYPE_DISABLE_SLOT slotId) := by
  refine triple_submit hm (.ret ()) trivial (fun t => triple_loadCode hm ?_) ?_
  · have hs := onMail_exchange (R := R) hm TRB_TYPE_DISABLE_SLOT slotId t
    split
    · rename_i hc
      exact Machine.triple_ret hs.stable fun s h => .inl ⟨t, h, fun ⟨_, he⟩ => (nomatch he), fun he => absurd he hc⟩
    · rename_i hc
      refine triple_act hs rfl fun _ => triple_act hs rfl fun _ => triple_act hs rfl fun _ =>
        triple_act hs rfl fun _ => ?_
      exact Machine.triple_ret hs.stable fun s h => .inl ⟨t, h, fun _ => not_not.1 hc, fun _ => ⟨_, rfl⟩⟩
  · exact fun s h => .inr ⟨⟨_, rfl⟩, h⟩

/-- A failure before the command is sent. -/
theorem triple_early (hm : m.Quiet) {trbType slotId : Nat} {message : String} :
    (machine R).Triple (fun s => s.mail = m) (pure (.error message) : KProg (Except String α))
      (Answered R m trbType slotId) :=
  Machine.triple_ret (onMail_quiet hm).stable fun _ h => .inr ⟨⟨_, rfl⟩, .inl h⟩

/-- The result by the completion code. -/
theorem triple_result (hm : m.Quiet) {trbType slotId : Nat} {t : Trb} {a : α} {message : String} :
    (machine R).Triple (fun s => Exchange R m trbType slotId t s.mail)
      (loadReg .completionCode >>= fun code => pure (if code = 1 then .ok a else .error message))
      (Answered R m trbType slotId) := by
  refine triple_loadCode hm (Machine.triple_ret (onMail_exchange hm _ _ t).stable fun s h => ?_)
  split
  · rename_i hc
    exact .inl ⟨t, h, fun _ => hc, fun _ => ⟨_, rfl⟩⟩
  · rename_i hc
    exact .inl ⟨t, h, fun ⟨_, he⟩ => (nomatch he), fun he => absurd he hc⟩

theorem addressDevice_spec (hm : m.Quiet) (slotId rootPort speed : Nat) :
    (machine R).Triple (fun s => s.mail = m) (addressDevice slotId rootPort speed)
      (Answered R m TRB_TYPE_ADDRESS_DEVICE slotId) := by
  have hs : OnMail R fun s => s.mail = m := onMail_quiet hm
  refine triple_act hs rfl fun virt => triple_act hs rfl fun phys => ?_
  split
  · exact triple_early hm
  · refine triple_act hs rfl fun virt => triple_act hs rfl fun phys => ?_
    split
    · exact triple_early hm
    · refine triple_act hs rfl fun _ => triple_act hs rfl fun _ => triple_act hs rfl fun _ => triple_act hs rfl fun _ =>
        triple_act hs rfl fun _ => triple_act hs rfl fun phys => ?_
      split
      · exact triple_early hm
      · exact triple_submit hm (act (.setEp0Ring _ _)) ⟨rfl, fun _ => trivial⟩ (fun t => triple_result hm)
          fun s h => .inr ⟨⟨_, rfl⟩, .inr h⟩

theorem configureEndpoint_spec (hm : m.Quiet) (slotId rootPort : Nat) (ep : EndpointInfo) :
    (machine R).Triple (fun s => s.mail = m) (configureEndpoint slotId rootPort ep)
      (Answered R m TRB_TYPE_CONFIGURE_ENDPOINT slotId) := by
  have hs : OnMail R fun s => s.mail = m := onMail_quiet hm
  refine triple_act hs rfl fun virt => triple_act hs rfl fun phys => ?_
  split
  · exact triple_early hm
  · refine triple_act hs rfl fun _ => ?_
    split
    · exact Machine.triple_op hs.stable (fun _ _ => False) (fun _ r => r.elim) fun r => r.elim
    · refine triple_act hs rfl fun _ => triple_act hs rfl fun phys => ?_
      split
      · exact triple_early hm
      · exact triple_submit hm (.ret ()) trivial (fun t => triple_result hm)
          fun s h => .inr ⟨⟨_, rfl⟩, .inr h⟩

end Waiting

/-! ## Sessions -/

/-- Between `s` and `s'` one command was sent, and its completion `t`, with code 1, was read; no
other completion was. -/
def OwnCompletion (s s' : Kernel) (trbType slotId : Nat) (t : Trb) : Prop :=
  (∃ c : Command, s'.hw.commands = s.hw.commands ++ [c] ∧ c.trbType = trbType ∧ c.slot = slotId) ∧
  s'.mail.received = s.mail.received ++ [⟨t, .command s.hw.commands.length⟩] ∧ t.completionCode = 1

/-- What a call's result says about its command: `Ok` that its own completion was read with code 1,
and the slot of `enable_slot` that this completion carries it. -/
def CommandAgreement (s s' : Kernel) : (i : MainCall) → i.Result → Prop
  | .enableSlot, .ok slot => ∃ t, OwnCompletion s s' TRB_TYPE_ENABLE_SLOT 0 t ∧ slot = t.slotId
  | .disableSlot slotId, .ok _ => ∃ t, OwnCompletion s s' TRB_TYPE_DISABLE_SLOT slotId t
  | .addressDevice slotId _ _, .ok _ => ∃ t, OwnCompletion s s' TRB_TYPE_ADDRESS_DEVICE slotId t
  | .configureEndpoint slotId _ _, .ok _ => ∃ t, OwnCompletion s s' TRB_TYPE_CONFIGURE_ENDPOINT slotId t
  | _, _ => True

theorem Answered.own {α : Type} {R : Rules} {s s' : Kernel} {trbType slotId : Nat} {r : Except String α} {a : α}
    (h : Answered R s.mail trbType slotId r s') (hr : r = .ok a) :
    ∃ t, OwnCompletion s s' trbType slotId t ∧ s'.mail.slot = t.slotId := by
  subst hr
  rcases h with ⟨t, he, ha⟩ | ⟨⟨e, he⟩, -⟩
  · obtain ⟨hc, hs⟩ := he.code
    obtain ⟨c, h1, h2, -, hm⟩ := he
    have hcmd : s'.mail.commands = s.hw.commands ++ [c] := by rw [hm]; rfl
    exact ⟨t, ⟨⟨c, hcmd, h1, h2⟩, by rw [hm]; rfl, ha.1 ⟨a, rfl⟩⟩, hs⟩
  · cases he

/-- Whatever happened before: a command call that starts with no command outstanding and no
completion unread returns `Ok` only for the completion of its own command. -/
theorem command_agreement {hist : List (Machine.Return Kernel MainCall.Result)} {s : Kernel}
    (h : UsbSession Rules.any hist s) {r : Machine.Return Kernel MainCall.Result} (hr : r ∈ hist)
    (hq : r.start.mail.Quiet) : CommandAgreement r.start r.final r.call r.result := by
  obtain ⟨-, hrun⟩ := h.returned r hr
  obtain ⟨i, s₀, a, s₁⟩ := r
  -- each command has its own spec; the other calls promise nothing
  cases i
  case enableSlot =>
    cases a with
    | error e => trivial
    | ok slot =>
      obtain ⟨ha, hs⟩ := enableSlot_spec hq s₀ rfl _ s₁ hrun
      obtain ⟨t, ht, hslot⟩ := ha.answered.own rfl
      exact ⟨t, ht, (hs slot rfl).trans hslot⟩
  case disableSlot slotId =>
    cases a with
    | error e => trivial
    | ok u => exact ((disableSlot_spec hq slotId s₀ rfl _ s₁ hrun).answered.own rfl).imp fun _ => And.left
  case addressDevice slotId rootPort speed =>
    cases a with
    | error e => trivial
    | ok u => exact ((addressDevice_spec hq slotId rootPort speed s₀ rfl _ s₁ hrun).own rfl).imp fun _ => And.left
  case configureEndpoint slotId rootPort ep =>
    cases a with
    | error e => trivial
    | ok u => exact ((configureEndpoint_spec hq slotId rootPort ep s₀ rfl _ s₁ hrun).own rfl).imp fun _ => And.left
  all_goals trivial

/-- `command_agreement` for an `enable_slot` that is answered at once, with slot 5. -/
theorem command_agreement_enableSlot :
    ∃ s', UsbSession Rules.any [⟨.enableSlot, Kernel.start 1 fun _ => ⟨false, false, 0, 0⟩, .ok 5, s'⟩] s' ∧
      CommandAgreement (Kernel.start 1 fun _ => ⟨false, false, 0, 0⟩) s' .enableSlot (.ok 5) := by
  obtain ⟨a, s', hr, ha⟩ := exists_run (R := Rules.any)
    (ops 6 ++ [.answer 0 (completionTrb 1 5), .interrupt] ++ ops 3) MainCall.enableSlot.prog
    (Kernel.start 1 fun _ => ⟨false, false, 0, 0⟩)
    (fun a _ => decide (a.toOption = some 5)) (by decide +kernel)
  have ha : a = .ok 5 := by
    cases a with
    | error e => cases of_decide_eq_true ha
    | ok n => exact congrArg _ (Option.some.inj (of_decide_eq_true ha))
  subst ha
  have hs := Machine.Session.call (.boot (powerOn_start (by decide) _ fun _ => rfl)) MainCall.enableSlot hr
  exact ⟨s', hs, command_agreement hs (List.mem_singleton.2 rfl) ⟨rfl, rfl⟩⟩

/-- `enable_slot` up to its wait loop. -/
def enableSlotSubmit : KProg Unit := do
  storeFlag .completionPending false
  withXhci .enableSlot (do
    pure ()
    sendCommand 0 TRB_TYPE_ENABLE_SLOT 0)

/-- The state after an `enable_slot` that nobody answered. -/
def gaveUp : Kernel :=
  stateAfter Rules.any (ops 6) enableSlotSubmit (Kernel.start 1 fun _ => ⟨false, false, 0, 0⟩)

theorem enableSlot_gaveUp :
    (machine Rules.any).Runs (MainCall.enableSlot.prog, Kernel.start 1 fun _ => ⟨false, false, 0, 0⟩)
      (.ret (.error "Timeout"), gaveUp) := by
  obtain ⟨⟨⟩, hr, -⟩ : ∃ a, (machine Rules.any).Runs (enableSlotSubmit, Kernel.start 1 fun _ => ⟨false, false, 0, 0⟩)
      (.ret a, gaveUp) ∧ _ := runs_stateAfter _ _ _ (fun _ => true) (by decide +kernel)
  have hw := waitFor_expires (f := .completionPending) (w := .command) (s := gaveUp) (by decide +kernel) TIMEOUT
  have hsub : (machine Rules.any).Runs (submit .enableSlot (pure ()) 0 TRB_TYPE_ENABLE_SLOT 0,
      Kernel.start 1 fun _ => ⟨false, false, 0, 0⟩) (.ret false, gaveUp) :=
    Machine.runs_seq (f := fun _ => waitFor .completionPending .command TIMEOUT) hr hw
  exact Machine.runs_seq hsub .refl

/-- An `enable_slot` times out and its answer comes during the next: the second call returns the
slot of the first, and its own command is still without an answer. -/
theorem late_answer :
    ∃ (hist : List (Machine.Return Kernel MainCall.Result)) (s : Kernel),
      UsbSession Rules.any hist s ∧ ∃ r ∈ hist, ¬ CommandAgreement r.start r.final r.call r.result := by
  obtain ⟨a, s', hr, ha⟩ := exists_run (R := Rules.any)
    (ops 6 ++ [.answer 0 (completionTrb 1 5), .interrupt] ++ ops 3) MainCall.enableSlot.prog gaveUp
    (fun a s => decide (a.toOption = some 5 ∧ s.mail.received.map (·.origin) = [.command 0])) (by decide +kernel)
  obtain ⟨ha, ho⟩ := of_decide_eq_true ha
  have hs := Machine.Session.call (.boot (powerOn_start (by decide) _ fun _ => rfl)) MainCall.enableSlot
    enableSlot_gaveUp
  refine ⟨_, s', hs.call MainCall.enableSlot hr, _, List.mem_append_right _ (List.mem_singleton.2 rfl), ?_⟩
  cases a with
  | error e => cases ha
  | ok n =>
    rintro ⟨t, ⟨-, hrec, -⟩, -⟩
    rw [hrec] at ho
    have hn : gaveUp.mail.received.map (·.origin) = [] ∧ gaveUp.hw.commands.length = 1 := by decide +kernel
    rw [List.map_append, hn.1, hn.2] at ho
    cases ho

end Octagram.Usb

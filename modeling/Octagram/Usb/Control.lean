/-
Control transfers and their completions: the events that `poll_event_ring` does not hand to a driver
all fill one global triple, and a waiting call takes whatever it finds there. A call that starts
undisturbed returns `Ok` only for an event of its own transfer (`transfer_agreement`). Up to its
Status Stage nothing can fill the triple (`Idle`), afterwards this transfer alone (`Awaiting`),
which is the invariant of the wait loop; what is outstanding on rings of the drivers' endpoints
stays theirs (`Owners`). After a time-out the event of the last transfer can still come
(`late_event`).
-/
import Octagram.Usb.Calls
import Octagram.Usb.Handler
import Octagram.Usb.Schedule

namespace Octagram.Usb

open Octagram.Lib

/-! ## The transfers as seen from a waiting call -/

/-- What a step can change about transfers: those queued and those without event, the events that no
driver takes (not yet read), all events read, and what `poll_event_ring` copied. -/
structure Wire where
  transfers : List Nat
  incomplete : List Nat
  unread : List Event
  consumed : List Event
  pending : Bool
  code : Nat
  length : Nat

/-- Who owns the rings, as far as that is settled, and which endpoints the drivers take events of. -/
structure Owners where
  settled : Nat → Prop
  endpoint : Nat → Nat × Nat
  routed : Nat × Nat → Bool

/-- The ring belongs to an endpoint that a driver takes events of. -/
def Owners.Foreign (o : Owners) (ring : Nat) : Prop := o.settled ring ∧ o.routed (o.endpoint ring) = true

/-- The transfer was queued on such a ring. -/
def Owners.ForeignId (o : Owners) (w : Wire) (id : Nat) : Prop := ∃ ring, w.transfers[id]? = some ring ∧ o.Foreign ring

/-- A Transfer Event that no driver takes. -/
def Owners.stray (o : Owners) (e : Event) : Bool :=
  e.trb.trbType = 32 ∧ o.routed (e.trb.slotId, e.trb.endpointId) = false

/-- What the surroundings do: the handler reads an event, the drivers queue transfers on their
rings, the controller completes a transfer. -/
inductive WireStep (o : Owners) : Wire → Wire → Prop
  | skip {w : Wire} (l : List Event) : WireStep o w { w with consumed := w.consumed ++ l }
  | read {w : Wire} {e : Event} {rest : List Event} (h : w.unread = e :: rest) :
      WireStep o w { w with
        unread := rest, consumed := w.consumed ++ [e], pending := true
        code := e.trb.completionCode, length := e.trb.residualLength }
  | arm {w : Wire} {ts is : List Nat} (hp : w.transfers <+: ts)
      (hr : ∀ id ring, w.transfers.length ≤ id → ts[id]? = some ring → o.Foreign ring)
      (hi : ∀ id ∈ is, id ∈ w.incomplete ∨ (w.transfers.length ≤ id ∧ id < ts.length)) :
      WireStep o w { w with transfers := ts, incomplete := is }
  | complete {w : Wire} {id ring : Nat} {t : Trb} (ht : t.trbType = 32) (hid : id ∈ w.incomplete)
      (hring : w.transfers[id]? = some ring) (ho : o.settled ring → (t.slotId, t.endpointId) = o.endpoint ring) :
      WireStep o w { w with
        incomplete := w.incomplete.filter (· ≠ id)
        unread := w.unread ++ if o.stray ⟨t, .transfer id⟩ then [⟨t, .transfer id⟩] else [] }

section Wire

variable {o : Owners} {w w' : Wire} {base : List Event} {n ring : Nat}

/-- Nothing that is outstanding or unread can fill the triple. -/
structure Idle (o : Owners) (base : List Event) (w : Wire) : Prop where
  incomplete : ∀ id ∈ w.incomplete, o.ForeignId w id
  unread : w.unread = []
  log : base <+: w.consumed

/-- Transfer `n`, on `ring`, is the only one that can: it is outstanding or lost to a driver, its
event `e` is unread, or it is read and fills the triple. -/
structure Awaiting (o : Owners) (base : List Event) (n ring : Nat) (w : Wire) : Prop where
  own : w.transfers[n]? = some ring
  incomplete : ∀ id ∈ w.incomplete, id ≠ n → o.ForeignId w id
  log : base <+: w.consumed
  phase : (w.pending = false ∧ w.unread = []) ∨
    ∃ e : Event, e.origin = .transfer n ∧ (e.trb.slotId, e.trb.endpointId) = o.endpoint ring ∧ n ∉ w.incomplete ∧
      ((w.pending = false ∧ w.unread = [e]) ∨
        (w.unread = [] ∧ w.code = e.trb.completionCode ∧ w.length = e.trb.residualLength ∧
          ∃ l, w.consumed = base ++ l ∧ e ∈ l))

theorem getElem?_mono {α : Type} {l l' : List α} {i : Nat} {a : α} (hp : l <+: l') (h : l[i]? = some a) :
    l'[i]? = some a := by
  obtain ⟨hlt, he⟩ := List.getElem?_eq_some_iff.1 h
  rw [List.prefix_iff_getElem?.1 hp i hlt, he]

/-- A transfer stays foreign when more are queued. -/
theorem Owners.ForeignId.mono {id : Nat} (hp : w.transfers <+: w'.transfers) (h : o.ForeignId w id) :
    o.ForeignId w' id :=
  h.imp fun _ hg => ⟨getElem?_mono hp hg.1, hg.2⟩

/-- A foreign transfer's event is taken by a driver. -/
theorem Owners.ForeignId.not_stray {id ring : Nat} {t : Trb} (h : o.ForeignId w id)
    (hring : w.transfers[id]? = some ring) (ho : o.settled ring → (t.slotId, t.endpointId) = o.endpoint ring) :
    o.stray ⟨t, .transfer id⟩ = false := by
  obtain ⟨ring', hg, hs, hr⟩ := h
  rw [hring] at hg
  cases hg
  refine decide_eq_false fun h => ?_
  rw [ho hs, hr] at h
  exact absurd h.2 nofun

/-- While nothing can fill the triple, it keeps its values, and the queue and the log only grow. -/
theorem idle_step (h : Idle o base w) (hs : WireStep o w w') :
    Idle o base w' ∧ w'.pending = w.pending ∧ w'.code = w.code ∧ w'.length = w.length ∧
      w.transfers <+: w'.transfers ∧ w.consumed <+: w'.consumed := by
  cases hs with
  | skip l =>
    have hl : w.consumed <+: w.consumed ++ l := List.prefix_append _ _
    exact ⟨⟨h.incomplete, h.unread, h.log.trans hl⟩, rfl, rfl, rfl, List.prefix_rfl, hl⟩
  | read hu => rw [h.unread] at hu; cases hu
  | @arm ts is hp hr hi =>
    refine ⟨⟨fun id hm => ?_, h.unread, h.log⟩, rfl, rfl, rfl, hp, List.prefix_rfl⟩
    rcases hi id hm with hm | ⟨hle, hlt⟩
    · exact (h.incomplete id hm).mono hp
    · exact ⟨ts[id], List.getElem?_eq_getElem hlt, hr id _ hle (List.getElem?_eq_getElem hlt)⟩
  | @complete id ring t ht hid hring ho =>
    refine ⟨⟨fun id' hm => h.incomplete id' (List.mem_of_mem_filter hm), ?_, h.log⟩, rfl, rfl, rfl,
      List.prefix_rfl, List.prefix_rfl⟩
    rw [(h.incomplete id hid).not_stray hring ho]
    exact (List.append_nil _).trans h.unread

theorem awaiting_step (hset : o.settled ring) (h : Awaiting o base n ring w) (hs : WireStep o w w') :
    Awaiting o base n ring w' := by
  cases hs with
  -- an event that is not stray leaves the triple as it is
  | skip l =>
    refine ⟨h.own, h.incomplete, h.log.trans (List.prefix_append _ _), h.phase.imp_right ?_⟩
    rintro ⟨e, h1, h2, h3, h4⟩
    refine ⟨e, h1, h2, h3, h4.imp_right ?_⟩
    rintro ⟨hu, hc, hl, l', he, hm⟩
    exact ⟨hu, hc, hl, l' ++ l, by rw [he, List.append_assoc], List.mem_append_left _ hm⟩
  -- at most one stray event is unread, and that is the one of transfer `n`
  | @read e rest hu =>
    refine ⟨h.own, h.incomplete, h.log.trans (List.prefix_append _ _), ?_⟩
    rcases h.phase with ⟨-, he⟩ | ⟨e', h1, h2, h3, ⟨-, he⟩ | ⟨he, -⟩⟩
    · rw [he] at hu; cases hu
    · rw [he] at hu
      cases hu
      obtain ⟨l, hl⟩ := h.log
      refine .inr ⟨e, h1, h2, h3,
        .inr ⟨rfl, rfl, rfl, l ++ [e], ?_, List.mem_append_right _ (List.mem_singleton.2 rfl)⟩⟩
      rw [← hl, List.append_assoc]
    · rw [he] at hu; cases hu
  | @arm ts is hp hr hi =>
    have hlt : n < w.transfers.length := (List.getElem?_eq_some_iff.1 h.own).1
    refine ⟨getElem?_mono hp h.own, fun id hm hne => ?_, h.log, h.phase.imp_right ?_⟩
    · rcases hi id hm with hm | ⟨hle, hlt⟩
      · exact (h.incomplete id hm hne).mono hp
      · exact ⟨ts[id], List.getElem?_eq_getElem hlt, hr id _ hle (List.getElem?_eq_getElem hlt)⟩
    · rintro ⟨e, h1, h2, h3, h4⟩
      exact ⟨e, h1, h2, fun hm => (hi n hm).elim h3 fun h => absurd hlt (Nat.not_lt.2 h.1), h4⟩
  | @complete id ring' t ht hid hring ho =>
    have hmem : ∀ id', id' ∈ w.incomplete.filter (· ≠ id) → id' ∈ w.incomplete ∧ id' ≠ id := fun id' hm =>
      (List.mem_filter.1 hm).imp_right of_decide_eq_true
    -- the completion of transfer `n` itself, or of a foreign one, whose event is not stray
    by_cases hne : id = n
    · subst hne
      rw [h.own] at hring
      cases hring
      rcases h.phase with ⟨hp, hu⟩ | ⟨e, -, -, h3, -⟩
      · refine ⟨h.own, fun id' hm hne => h.incomplete id' (hmem id' hm).1 hne, h.log, ?_⟩
        cases hst : o.stray ⟨t, .transfer id⟩ with
        | false =>
          refine .inl ⟨hp, ?_⟩
          show w.unread ++ [] = []
          rw [hu, List.append_nil]
        | true =>
          refine .inr ⟨⟨t, .transfer id⟩, rfl, ho hset, fun hm => (hmem _ hm).2 rfl, .inl ⟨hp, ?_⟩⟩
          show w.unread ++ [⟨t, .transfer id⟩] = [⟨t, .transfer id⟩]
          rw [hu, List.nil_append]
      · exact absurd hid h3
    · refine ⟨h.own, fun id' hm hne => h.incomplete id' (hmem id' hm).1 hne, h.log, ?_⟩
      rw [(h.incomplete id hid hne).not_stray hring ho]
      dsimp only
      rw [if_neg Bool.false_ne_true, List.append_nil]
      refine h.phase.imp_right ?_
      rintro ⟨e, h1, h2, h3, h4⟩
      exact ⟨e, h1, h2, fun hm => h3 (hmem _ hm).1, h4⟩

/-- The triple holds what `e` says, the event of a transfer queued on `ring` as number `len` or later. -/
structure Got (o : Owners) (base : List Event) (len ring : Nat) (e : Event) (w : Wire) : Prop where
  idle : Idle o base w
  own : ∃ n, len ≤ n ∧ w.transfers[n]? = some ring ∧ e.origin = .transfer n
  owner : (e.trb.slotId, e.trb.endpointId) = o.endpoint ring
  code : w.code = e.trb.completionCode
  length : w.length = e.trb.residualLength
  log : ∃ l, w.consumed = base ++ l ∧ e ∈ l

theorem got_step {len : Nat} {e : Event} (h : Got o base len ring e w) (hs : WireStep o w w') :
    Got o base len ring e w' := by
  obtain ⟨hi, -, hc, hl, ht, hlog⟩ := idle_step h.idle hs
  obtain ⟨n, hle, hg, ho⟩ := h.own
  obtain ⟨l, he, hm⟩ := h.log
  obtain ⟨l', hl'⟩ := hlog
  exact ⟨hi, ⟨n, hle, getElem?_mono ht hg, ho⟩, h.owner, hc.trans h.code, hl.trans h.length,
    l ++ l', by rw [← hl', he, List.append_assoc], List.mem_append_left _ hm⟩

/-- Only the event of transfer `n` sets the flag. -/
theorem Awaiting.got {len : Nat} (h : Awaiting o base n ring w) (hle : len ≤ n) (hp : w.pending = true) :
    ∃ e, Got o base len ring e w := by
  rcases h.phase with ⟨hf, -⟩ | ⟨e, h1, h2, h3, ⟨hf, -⟩ | ⟨hu, hc, hl, hlog⟩⟩
  · rw [hf] at hp; cases hp
  · rw [hf] at hp; cases hp
  · have hi : Idle o base w := ⟨fun id hm => h.incomplete id hm fun he => h3 (he ▸ hm), hu, h.log⟩
    exact ⟨e, hi, ⟨n, hle, h.own, h1⟩, h2, hc, hl, hlog⟩

end Wire

/-! ## The steps of the surroundings -/

/-- The owners at the start of a call: settled where no outstanding command can change them. -/
def Kernel.owners (s : Kernel) : Owners where
  settled ring := ∀ id ∈ s.hw.unanswered, ∀ c, s.hw.commands[id]? = some c → c.input.ring = ring →
    (c.slot, c.input.dci) = s.hw.endpoint ring
  endpoint := s.hw.endpoint
  routed e := s.globals.KbdRoute e.1 e.2 ∨ s.globals.MouseRoute e.1 e.2

/-- The wire of a state, for these owners of the rings. -/
def Kernel.wire (s : Kernel) (o : Owners) : Wire where
  transfers := s.hw.transfers
  incomplete := s.hw.incomplete
  unread := s.hw.events.filter o.stray
  consumed := s.hw.consumed
  pending := s.globals.flag .transferCompletionPending
  code := s.globals.reg .transferCompletionCode
  length := s.globals.reg .transferCompletionLength

/-- What stays as it was in `s₀` during a control transfer. -/
structure Calm (s₀ s : Kernel) : Prop where
  reg : ∀ r, r.routing = true → s.globals.reg r = s₀.globals.reg r
  ep0 : s.xhci.map (·.ep0RingPhys) = s₀.xhci.map (·.ep0RingPhys)
  ring : ∀ k, s.ring k = s₀.ring k
  commands : s.hw.commands = s₀.hw.commands
  unanswered : ∀ id ∈ s.hw.unanswered, id ∈ s₀.hw.unanswered
  endpoint : ∀ ring, s₀.owners.settled ring → s.hw.endpoint ring = s₀.hw.endpoint ring

section Steps

variable {R : Rules} {s₀ s s' : Kernel}

theorem Calm.refl (s : Kernel) : Calm s s := ⟨fun _ _ => rfl, rfl, fun _ => rfl, rfl, fun _ h => h, fun _ _ => rfl⟩

theorem Calm.routed (h : Calm s₀ s) (slot dci : Nat) :
    s₀.owners.routed (slot, dci) = decide (s.globals.KbdRoute slot dci ∨ s.globals.MouseRoute slot dci) := by
  refine decide_eq_decide.2 ?_
  unfold Globals.KbdRoute Globals.MouseRoute
  rw [h.reg .kbdDci rfl, h.reg .kbdSlotId rfl, h.reg .mouseDci rfl, h.reg .mouseSlotId rfl]

/-- An event that is not stray leaves the triple alone. -/
theorem dispatch_kept (h : Calm s₀ s) {e : Event} (he : s₀.owners.stray e = false) :
    (s.globals.dispatch e.trb).flag .transferCompletionPending = s.globals.flag .transferCompletionPending ∧
    (s.globals.dispatch e.trb).reg .transferCompletionCode = s.globals.reg .transferCompletionCode ∧
    (s.globals.dispatch e.trb).reg .transferCompletionLength = s.globals.reg .transferCompletionLength := by
  unfold Globals.dispatch
  split
  · exact ⟨rfl, rfl, rfl⟩
  · exact ⟨rfl, rfl, rfl⟩
  · rename_i ht
    have hr : s₀.owners.routed (e.trb.slotId, e.trb.endpointId) = true := by
      by_contra hr
      exact absurd ⟨ht, Bool.eq_false_iff.2 hr⟩ (of_decide_eq_false he)
    rw [h.routed] at hr
    split
    · exact ⟨rfl, rfl, rfl⟩
    · rename_i hk
      rw [if_pos ((of_decide_eq_true hr).resolve_left hk)]
      exact ⟨rfl, rfl, rfl⟩
  · exact ⟨rfl, rfl, rfl⟩

/-- A stray event fills the triple. -/
theorem dispatch_stray (h : Calm s₀ s) {e : Event} (he : s₀.owners.stray e = true) :
    (s.globals.dispatch e.trb).flag .transferCompletionPending = true ∧
    (s.globals.dispatch e.trb).reg .transferCompletionCode = e.trb.completionCode ∧
    (s.globals.dispatch e.trb).reg .transferCompletionLength = e.trb.residualLength := by
  obtain ⟨ht, hr⟩ := of_decide_eq_true he
  rw [h.routed] at hr
  have hr := of_decide_eq_false hr
  unfold Globals.dispatch
  rw [ht]
  show (if _ then _ else if _ then _ else _ : Globals).flag _ = _ ∧ _
  rw [if_neg fun hk => hr (.inl hk), if_neg fun hm => hr (.inr hm)]
  exact ⟨rfl, rfl, rfl⟩

theorem calm_poll (h : Calm s₀ s) : Calm s₀ s.pollEventRing := by
  refine { h with reg := fun r hr => ?_ }
  refine Eq.trans ?_ (h.reg r hr)
  show (pollQueue Event.trb s.hw.events s.globals).2.reg r = _
  cases s.hw.events with
  | nil => rfl
  | cons e rest => exact dispatch_routing _ _ hr

theorem poll_wire (h : Calm s₀ s) : WireStep s₀.owners (s.wire s₀.owners) (s.pollEventRing.wire s₀.owners) := by
  cases he : s.hw.events with
  | nil =>
    have : s.pollEventRing.wire s₀.owners =
      { s.wire s₀.owners with consumed := (s.wire s₀.owners).consumed ++ [] } := by
      unfold Kernel.wire Kernel.pollEventRing pollQueue
      simp only [he, List.take_nil]
    rw [this]
    exact .skip []
  | cons e rest =>
    -- an event that a driver takes is skipped, a stray one is read into the triple
    cases hc : s₀.owners.stray e with
    | false =>
      obtain ⟨h1, h2, h3⟩ := dispatch_kept h hc
      have : s.pollEventRing.wire s₀.owners =
        { s.wire s₀.owners with consumed := (s.wire s₀.owners).consumed ++ [e] } := by
        unfold Kernel.wire Kernel.pollEventRing pollQueue
        simp only [he, h1, h2, h3, List.take_succ_cons, List.take_zero, List.filter_cons, hc,
          Bool.false_eq_true, if_false]
      rw [this]
      exact .skip [e]
    | true =>
      obtain ⟨h1, h2, h3⟩ := dispatch_stray h hc
      have hu : (s.wire s₀.owners).unread = e :: rest.filter s₀.owners.stray := by
        unfold Kernel.wire
        simp only [he, List.filter_cons, hc, if_true]
      have : s.pollEventRing.wire s₀.owners = { s.wire s₀.owners with
          unread := rest.filter s₀.owners.stray, consumed := (s.wire s₀.owners).consumed ++ [e], pending := true
          code := e.trb.completionCode, length := e.trb.residualLength } := by
        unfold Kernel.wire Kernel.pollEventRing pollQueue
        simp only [he, h1, h2, h3, List.take_succ_cons, List.take_zero]
      rw [this]
      exact .read hu

theorem calm_driven (h : Calm s₀ s) (hd : Driven s s') : Calm s₀ s' := by
  obtain ⟨ts, is, hw⟩ := hd.hw
  refine ⟨fun r hr => ?_, ?_, fun k => (hd.ring k).trans (h.ring k), ?_, ?_, ?_⟩
  · rw [hd.reg]; exact h.reg r hr
  · rw [hd.xhci]; exact h.ep0
  · rw [hw]; exact h.commands
  · rw [hw]; exact h.unanswered
  · rw [hw]; exact h.endpoint

theorem driven_wire (h : Calm s₀ s) (hr : ∀ k ring, s₀.ring k = some ring → s₀.owners.Foreign ring) (hd : Driven s s') :
    WireStep s₀.owners (s.wire s₀.owners) (s'.wire s₀.owners) := by
  obtain ⟨ts, is, hw⟩ := hd.hw
  have ht : s'.hw.transfers = ts := by rw [hw]
  have hi : s'.hw.incomplete = is := by rw [hw]
  have hwire : s'.wire s₀.owners = { s.wire s₀.owners with transfers := ts, incomplete := is } := by
    unfold Kernel.wire
    rw [hw, hd.flag .transferCompletionPending nofun nofun, hd.reg]
  have ha := hd.armed
  rw [hwire]
  refine .arm (ht ▸ ha.pref) (fun id ring hle hg => ?_) fun id hm => ?_
  · obtain ⟨k, hk⟩ := ha.ring id ring hle (ht ▸ hg)
    exact hr k ring ((h.ring k).symm.trans hk)
  · exact ht ▸ ha.incomplete id (hi ▸ hm)

theorem calm_answer (h : Calm s₀ s) {id : Nat} {c : Command} (t : Trb) (hid : id ∈ s.hw.unanswered)
    (hc : s.hw.commands[id]? = some c) : Calm s₀ { s with hw := s.hw.answer id c t } := by
  refine { h with
    unanswered := fun id' hm => h.unanswered id' (List.mem_of_mem_filter hm)
    endpoint := fun ring hs => Eq.trans ?_ (h.endpoint ring hs) }
  show c.assigns t s.hw.endpoint ring = _
  unfold Command.assigns
  split
  · by_cases he : ring = c.input.ring
    · subst he
      rw [Function.update_self, h.endpoint _ hs]
      exact hs id (h.unanswered id hid) c (h.commands ▸ hc) rfl
    · exact Function.update_of_ne he _ _
  · rfl

theorem env_calm (h : Calm s₀ s) (he : Env R s s') : Calm s₀ s' := by
  cases he with
  | interrupt hi hrun =>
    have hd := handler_driven hrun
    split at hd
    · exact calm_driven (calm_poll h) hd
    · exact calm_driven h hd
  | answer t ht hid hc => exact calm_answer h t hid hc
  | complete | connect | disconnect | dma => exact { h with }

theorem filter_stray_snoc (o : Owners) (l : List Event) {e : Event} (h : o.stray e = false) :
    (l ++ [e]).filter o.stray = l.filter o.stray := by
  rw [List.filter_append, List.filter_cons, h, if_neg Bool.false_ne_true, List.filter_nil, List.append_nil]

theorem not_stray_of_type (o : Owners) {e : Event} (h : e.trb.trbType ≠ 32) : o.stray e = false :=
  decide_eq_false fun hs => h hs.1

theorem wire_answer (o : Owners) {id : Nat} {c : Command} {t : Trb} (ht : t.trbType = 33) :
    Kernel.wire { s with hw := s.hw.answer id c t } o = s.wire o := by
  unfold Kernel.wire Controller.answer
  dsimp only
  rw [filter_stray_snoc o _ (not_stray_of_type o (e := ⟨t, .command id⟩) (by rw [ht]; decide))]

theorem wire_portChange (o : Owners) {p : Nat} {port : Port} {t : Trb} (ht : t.trbType = 34) :
    Kernel.wire { s with hw := s.hw.portChange p port t } o = s.wire o := by
  unfold Kernel.wire Controller.portChange
  dsimp only
  split
  · rfl
  · rw [filter_stray_snoc o _ (not_stray_of_type o (e := ⟨t, .port p⟩) (by rw [ht]; decide))]

theorem wireStep_refl (o : Owners) (w : Wire) : WireStep o w w := by
  have h := WireStep.skip (o := o) (w := w) []
  rwa [List.append_nil] at h

/-- A step of the surroundings is one or two steps of the wire. -/
theorem env_wire (h : Calm s₀ s) (hr : ∀ k ring, s₀.ring k = some ring → s₀.owners.Foreign ring) (he : Env R s s') :
    ∃ w, WireStep s₀.owners (s.wire s₀.owners) w ∧ WireStep s₀.owners w (s'.wire s₀.owners) := by
  have hsame : ∀ {s₁ : Kernel}, s₁.wire s₀.owners = s.wire s₀.owners →
      ∃ w, WireStep s₀.owners (s.wire s₀.owners) w ∧ WireStep s₀.owners w (s₁.wire s₀.owners) :=
    fun hw => ⟨_, wireStep_refl _ _, hw ▸ wireStep_refl _ _⟩
  cases he with
  -- the handler is two steps of the wire: it reads an event, and the drivers arm their next reports
  | interrupt hi hrun =>
    have hd := handler_driven hrun
    split at hd
    · exact ⟨_, poll_wire h, driven_wire (calm_poll h) hr hd⟩
    · exact ⟨_, wireStep_refl _ _, driven_wire h hr hd⟩
  | answer t ht => exact hsame (wire_answer _ ht)
  | @complete id ring t ht hid hring hep =>
    refine ⟨_, wireStep_refl _ _, ?_⟩
    have hs : WireStep s₀.owners (s.wire s₀.owners) _ :=
      .complete ht hid hring fun hset => hep.trans (h.endpoint ring hset)
    have hw : Kernel.wire { s with hw := s.hw.complete id t } s₀.owners = { s.wire s₀.owners with
        incomplete := (s.wire s₀.owners).incomplete.filter (· ≠ id)
        unread := (s.wire s₀.owners).unread ++
          if s₀.owners.stray ⟨t, .transfer id⟩ then [⟨t, .transfer id⟩] else [] } := by
      unfold Kernel.wire Controller.complete
      simp only [List.filter_append, List.filter_cons, List.filter_nil]
    rw [hw]
    exact hs
  | connect speed t ht => exact hsame (wire_portChange _ ht)
  | disconnect t ht => exact hsame (wire_portChange _ ht)
  | dma ram => exact hsame rfl

/-- The atomics that `Calm` or the wire is about. -/
def Reg.wired : Reg → Bool
  | .transferCompletionCode | .transferCompletionLength => true
  | r => r.routing

/-- The operations that touch neither the wire nor what `Calm` is about. -/
def Op.wireless : Op → Bool
  | .sendCommand _ _ _ | .pollEventRing | .setEp0Ring _ _ | .ep0EnqueueTrb _ _ _ => false
  | .newDriver _ _ | .dropDriver _ | .enqueueReport _ => false
  | .storeFlag f _ | .swapFlag f _ => f ≠ .transferCompletionPending
  | .storeReg r _ => !r.wired
  | _ => true

theorem exec_wireless {o : Op} {r : Ret o} (ho : o.wireless = true) (he : s.exec o = some (r, s')) :
    (∀ ow, s'.wire ow = s.wire ow) ∧ (Calm s₀ s → Calm s₀ s') := by
  have hk := exec_keeps he
  have hne : ∀ o', o'.wireless = false → o ≠ o' := fun o' h' h => by rw [h, h'] at ho; cases ho
  have hp : o ≠ .pollEventRing := hne _ rfl
  have hreg : ∀ r, r.wired = true → s'.globals.reg r = s.globals.reg r := fun r h =>
    hk.reg r (fun n => hne _ (congrArg not h)) hp
  have hrouting : ∀ r : Reg, r.routing = true → r.wired = true := fun r => by cases r <;> decide
  obtain ⟨ht, hi⟩ := hk.transfers (fun _ _ _ => hne _ rfl) fun _ => hne _ rfl
  obtain ⟨hev, hco⟩ := hk.events hp
  obtain ⟨hc, hu⟩ := hk.sent fun _ _ _ => hne _ rfl
  refine ⟨fun ow => ?_, fun h => ?_⟩
  · unfold Kernel.wire
    rw [ht, hi, hev, hco, hk.flag .transferCompletionPending (fun _ => hne _ rfl) (fun _ => hne _ rfl) hp,
      hreg _ rfl, hreg _ rfl]
  · exact ⟨fun r hr => (hreg r (hrouting r hr)).trans (h.reg r hr), (hk.ep0 fun _ _ => hne _ rfl).trans h.ep0,
      fun k => (hk.ring k (fun _ => hne _ rfl) (hne _ rfl)).trans (h.ring k), hc.trans h.commands,
      fun id hm => h.unanswered id (hu ▸ hm), fun ring hs => by rw [hk.endpoint]; exact h.endpoint ring hs⟩

theorem ep0Trb_ioc (x : XHCI) (parameter : BitVec 64) (status control : BitVec 32) :
    (Kernel.ep0Trb x parameter status control).control.getLsbD 5 = control.getLsbD 5 := by
  have hb : ∀ b : Bool, (bitOf b).getLsbD 5 = false := by decide
  show (control ||| bitOf x.ep0CycleState).getLsbD 5 = _
  rw [BitVec.getLsbD_or, hb, Bool.or_false]

/-- A TRB on the EP0 ring: with IOC it is one more transfer to wait for. -/
theorem exec_stage {ring : Nat} (h : Calm s₀ s) (hring : s₀.xhci.map (·.ep0RingPhys) = some ring) (o : Owners)
    {parameter : BitVec 64} {status control : BitVec 32} {r : Unit}
    (he : s.exec (.ep0EnqueueTrb parameter status control) = some (r, s')) :
    Calm s₀ s' ∧ s'.wire o = if control.getLsbD 5 then { s.wire o with
        transfers := (s.wire o).transfers ++ [ring]
        incomplete := (s.wire o).incomplete ++ [(s.wire o).transfers.length] }
      else s.wire o := by
  have hk := exec_keeps he
  obtain ⟨hev, hco⟩ := hk.events nofun
  obtain ⟨hc, hu⟩ := hk.sent nofun
  refine ⟨⟨fun r hr => (hk.reg r nofun nofun).trans (h.reg r hr), (hk.ep0 nofun).trans h.ep0,
    fun k => (hk.ring k nofun nofun).trans (h.ring k), hc.trans h.commands, fun id hm => h.unanswered id (hu ▸ hm),
    fun ring hs => by rw [hk.endpoint]; exact h.endpoint ring hs⟩, ?_⟩
  obtain ⟨x, hx, hs⟩ := Option.map_eq_some_iff.1 he
  cases hs
  have hxr : x.ep0RingPhys = ring := by
    have := h.ep0
    rw [hx, hring] at this
    exact Option.some.inj this
  have hq : (s.ep0EnqueueTrb x parameter status control).hw =
    Kernel.queued s.hw ring (Kernel.ep0Trb x parameter status control) := by
    rw [← hxr]
    rfl
  unfold Kernel.queued at hq
  rw [ep0Trb_ioc] at hq
  unfold Kernel.wire
  rw [hq, hk.flag .transferCompletionPending nofun nofun nofun, hk.reg .transferCompletionCode nofun nofun,
    hk.reg .transferCompletionLength nofun nofun]
  split <;> rfl

end Steps

/-! ## Waiting for the event -/

section Waiting

variable {R : Rules} {s₀ : Kernel} {ring : Nat}

/-- A call that starts in `s₀` is disturbed by nothing: every transfer that is outstanding, and every
one the drivers can add, belongs to an endpoint that a driver takes events of; no other Transfer
Event is unread; and the EP0 ring is the call's own. -/
structure Undisturbed (s₀ : Kernel) (slotId : Nat) : Prop where
  rings : ∀ k ring, s₀.ring k = some ring → s₀.owners.Foreign ring
  idle : Idle s₀.owners s₀.hw.consumed (s₀.wire s₀.owners)
  ep0 : ∃ ring, s₀.xhci.map (·.ep0RingPhys) = some ring ∧ s₀.owners.settled ring ∧ s₀.hw.endpoint ring = (slotId, 1)

/-- An assertion about the wire of a call that started in `s₀`. -/
def Holds (s₀ : Kernel) (φ : Wire → Prop) (s : Kernel) : Prop := Calm s₀ s ∧ φ (s.wire s₀.owners)

/-- An assertion about a control transfer that the surroundings and the other operations keep. -/
structure OnWire (R : Rules) (P : Kernel → Prop) : Prop where
  stable : (machine R).Stable P
  frame : ∀ o s r s', o.wireless = true → s.exec o = some (r, s') → P s → P s'

theorem onWire_holds (hr : ∀ k ring, s₀.ring k = some ring → s₀.owners.Foreign ring) {φ : Wire → Prop}
    (hφ : ∀ w w', φ w → WireStep s₀.owners w w' → φ w') : OnWire R (Holds s₀ φ) where
  stable s s' h he := by
    obtain ⟨w, h1, h2⟩ := env_wire h.1 hr he
    exact ⟨env_calm h.1 he, hφ _ _ (hφ _ _ h.2 h1) h2⟩
  frame o s r s' ho he h := by
    have hc : Calm s₀ s' := (exec_wireless ho he).2 h.1
    have hw := (@exec_wireless s₀ s s' o r ho he).1
    exact ⟨hc, by rw [hw]; exact h.2⟩

variable {α : Type} {Q : α → Kernel → Prop}

/-- Operations that do not touch the wire, before the rest of a program. -/
theorem triple_wireless {P : Kernel → Prop} {o : Op} {f : Ret o → KProg α} (hs : OnWire R P) (ho : o.wireless = true)
    (hf : ∀ r, (machine R).Triple P (f r) Q) : (machine R).Triple P (act o >>= f) Q :=
  Machine.triple_keep hs.stable (fun s r s' h he => hs.frame o s r s' ho he h) hf

theorem bracket_wireless {o : Op} (h : o.bracket = true) : o.wireless = true := by
  cases o <;> first | rfl | cases h

/-- Before the Status Stage. -/
def Early (s₀ : Kernel) (w : Wire) : Prop :=
  Idle s₀.owners s₀.hw.consumed w ∧ s₀.hw.transfers.length ≤ w.transfers.length

/-- After the Status Stage, a transfer on `ring`, was queued. -/
def Late (s₀ : Kernel) (ring : Nat) (w : Wire) : Prop :=
  ∃ n, s₀.hw.transfers.length ≤ n ∧ Awaiting s₀.owners s₀.hw.consumed n ring w

/-- Once its event `e` was read. -/
def Done (s₀ : Kernel) (ring : Nat) (e : Event) (w : Wire) : Prop :=
  Got s₀.owners s₀.hw.consumed s₀.hw.transfers.length ring e w

theorem early_step {b : Bool} {w w' : Wire} (h : Early s₀ w ∧ w.pending = b) (hs : WireStep s₀.owners w w') :
    Early s₀ w' ∧ w'.pending = b := by
  obtain ⟨hi, hp, -, -, ht, -⟩ := idle_step h.1.1 hs
  exact ⟨⟨hi, Nat.le_trans h.1.2 ht.length_le⟩, hp.trans h.2⟩

section Call

variable (hr : ∀ k ring, s₀.ring k = some ring → s₀.owners.Foreign ring)
  (hring : s₀.xhci.map (·.ep0RingPhys) = some ring) (hset : s₀.owners.settled ring)
include hr

theorem onWire_early (b : Bool) : OnWire R (Holds s₀ fun w => Early s₀ w ∧ w.pending = b) :=
  onWire_holds hr fun _ _ => early_step

theorem onWire_done (e : Event) : OnWire R (Holds s₀ (Done s₀ ring e)) := onWire_holds hr fun _ _ => got_step

include hset

theorem onWire_late : OnWire R (Holds s₀ (Late s₀ ring)) :=
  onWire_holds hr fun _ _ ⟨n, hle, h⟩ hs => ⟨n, hle, awaiting_step hset h hs⟩

/-- The wait loop ends with the event read, or by time-out. -/
theorem waitFor_transfer (n : Nat) :
    (machine R).Triple (Holds s₀ (Late s₀ ring)) (waitFor .transferCompletionPending .transfer n) fun b s =>
      b = true → ∃ e, Holds s₀ (Done s₀ ring e) s := by
  induction n with
  | zero =>
    refine triple_wireless (onWire_late hr hset) rfl fun _ => ?_
    exact Machine.triple_ret (onWire_late hr hset).stable fun _ _ h => absurd h Bool.false_ne_true
  | succ n ih =>
    refine Machine.triple_op (onWire_late hr hset).stable
      (fun b s => if b = true then ∃ e, Holds s₀ (Done s₀ ring e) s else Holds s₀ (Late s₀ ring) s)
      (fun s b s' h _ he => ?_) fun b => ?_
    · cases he
      split
      · obtain ⟨hc, n, hle, ha⟩ := h
        obtain ⟨e, hg⟩ := ha.got hle ‹_›
        exact ⟨e, hc, hg⟩
      · exact h
    · cases b with
      | true => exact Machine.triple_ret (Machine.Stable.exists fun e => (onWire_done hr e).stable) fun _ h _ => h
      | false => exact ih

include hring

omit hset in
/-- The stages before the last queue no transfer to wait for. -/
theorem triple_stage {parameter : BitVec 64} {status control : BitVec 32} {f : Unit → KProg α}
    (hc : control.getLsbD 5 = false)
    (hf : (machine R).Triple (Holds s₀ fun w => Early s₀ w ∧ w.pending = false) (f ()) Q) :
    (machine R).Triple (Holds s₀ fun w => Early s₀ w ∧ w.pending = false)
      (ep0EnqueueTrb parameter status control >>= f) Q := by
  refine Machine.triple_keep (onWire_early hr false).stable (fun s r s' h he => ?_) fun _ => hf
  obtain ⟨hcalm, hw⟩ := exec_stage h.1 hring s₀.owners he
  rw [hc, if_neg Bool.false_ne_true] at hw
  exact ⟨hcalm, by rw [hw]; exact h.2⟩

/-- The Status Stage queues the transfer the call waits for. -/
theorem triple_status {parameter : BitVec 64} {status control : BitVec 32} (hc : control.getLsbD 5 = true) :
    (machine R).Triple (Holds s₀ fun w => Early s₀ w ∧ w.pending = false) (ep0EnqueueTrb parameter status control)
      fun _ => Holds s₀ (Late s₀ ring) := by
  refine Machine.triple_op (onWire_early hr false).stable (fun _ => Holds s₀ (Late s₀ ring)) (fun s r s' h _ he => ?_)
    fun _ => Machine.triple_ret (onWire_late hr hset).stable fun _ h => h
  obtain ⟨hcalm, hw⟩ := exec_stage h.1 hring s₀.owners he
  rw [hc, if_pos rfl] at hw
  obtain ⟨⟨hi, hle⟩, hp⟩ := h.2
  refine ⟨hcalm, (s.wire s₀.owners).transfers.length, hle, ?_⟩
  rw [hw]
  refine ⟨List.getElem?_concat_length, fun id hm hne => ?_, hi.log, .inl ⟨hp, hi.unread⟩⟩
  rcases List.mem_append.1 hm with hm | hm
  · exact (hi.incomplete id hm).mono (List.prefix_append _ _)
  · exact absurd (List.mem_singleton.1 hm) hne

omit hring in
/-- Submission and wait of a control transfer. -/
theorem transfer_spec {site : Site} {slotId : Nat} {stages : KProg Unit}
    (hst : (machine R).Triple (Holds s₀ fun w => Early s₀ w ∧ w.pending = false) stages fun _ =>
      Holds s₀ (Late s₀ ring)) : (machine R).Triple (Holds s₀ (Early s₀)) (transfer site slotId stages) fun b s =>
      b = true → ∃ e, Holds s₀ (Done s₀ ring e) s := by
  have hs : OnWire R (Holds s₀ (Early s₀)) := onWire_holds hr fun _ _ h hs => (early_step ⟨h, rfl⟩ hs).1
  have he : OnWire R (Holds s₀ fun w => Early s₀ w ∧ w.pending = false) := onWire_early hr false
  have hl : OnWire R (Holds s₀ (Late s₀ ring)) := onWire_late hr hset
  refine Machine.triple_op hs.stable (fun _ => Holds s₀ fun w => Early s₀ w ∧ w.pending = false)
    (fun s r s' h _ hx => ?_) fun _ => ?_
  · cases hx
    exact ⟨{ h.1 with }, ⟨⟨h.2.1.incomplete, h.2.1.unread, h.2.1.log⟩, h.2.2⟩, rfl⟩
  · show (machine R).Triple _ (withXhci site (stages >>= fun _ => ringDoorbell (slotId % 256) 1) >>= fun _ =>
      waitFor .transferCompletionPending .transfer TIMEOUT) _
    refine Machine.triple_bind (R := fun _ => Holds s₀ (Late s₀ ring)) ?_ fun _ => waitFor_transfer hr hset TIMEOUT
    refine triple_withXhci he.stable hl.stable (fun o s r s' ho => he.frame o s r s' (bracket_wireless ho))
      (fun o s r s' ho => hl.frame o s r s' (bracket_wireless ho)) (Machine.triple_bind hst fun _ => ?_)
    exact Machine.triple_keep hl.stable (fun s r s' h hx => hl.frame _ s r s' rfl hx h) fun _ =>
      Machine.triple_ret hl.stable fun _ h => h

/-- The stages with an IN data stage. -/
theorem stagesIn_spec (setup : BitVec 64) (bufPhys wLength : Nat) :
    (machine R).Triple (Holds s₀ fun w => Early s₀ w ∧ w.pending = false) (stagesIn setup bufPhys wLength)
      fun _ => Holds s₀ (Late s₀ ring) :=
  triple_stage hr hring (by decide) (triple_stage hr hring (by decide) (triple_status hr hring hset (by decide)))

end Call

/-- The result `a` of a call goes with the event `e` of its own transfer. -/
def Reported (s₀ : Kernel) (ring : Nat) {α : Type} (value : α → Event → Prop) (r : Except String α)
    (s : Kernel) : Prop :=
  ∀ a, r = .ok a → ∃ e, Holds s₀ (Done s₀ ring e) s ∧ (e.trb.completionCode = 1 ∨ e.trb.completionCode = 13) ∧ value a e

section Results

variable (hr : ∀ k ring, s₀.ring k = some ring → s₀.owners.Foreign ring)
  (hring : s₀.xhci.map (·.ep0RingPhys) = some ring) (hset : s₀.owners.settled ring)
include hr

/-- After the event was read the loads give what it says. -/
theorem triple_loadTransferCode {e : Event} {f : Nat → KProg α}
    (hf : (machine R).Triple (Holds s₀ (Done s₀ ring e)) (f e.trb.completionCode) Q) :
    (machine R).Triple (Holds s₀ (Done s₀ ring e)) (loadReg .transferCompletionCode >>= f) Q := by
  refine Machine.triple_op (onWire_done hr e).stable (fun r s => r = e.trb.completionCode ∧ Holds s₀ (Done s₀ ring e) s)
    (fun s r s' h _ he => by cases he; exact ⟨h.2.code, h⟩) fun r s h => ?_
  obtain ⟨rfl, h⟩ := h
  exact hf s h

theorem triple_loadTransferLength {e : Event} {f : Nat → KProg α}
    (hf : (machine R).Triple (Holds s₀ (Done s₀ ring e)) (f e.trb.residualLength) Q) :
    (machine R).Triple (Holds s₀ (Done s₀ ring e)) (loadReg .transferCompletionLength >>= f) Q := by
  refine Machine.triple_op (onWire_done hr e).stable (fun r s => r = e.trb.residualLength ∧ Holds s₀ (Done s₀ ring e) s)
    (fun s r s' h _ he => by cases he; exact ⟨h.2.length, h⟩) fun r s h => ?_
  obtain ⟨rfl, h⟩ := h
  exact hf s h

include hset

/-- What a call makes of its transfer: `answered` if an event was read, else the error. -/
theorem triple_transfer {site : Site} {slotId : Nat} {stages : KProg Unit} {answered : KProg (Except String α)}
    {message : String} {value : α → Event → Prop}
    (hst : (machine R).Triple (Holds s₀ fun w => Early s₀ w ∧ w.pending = false) stages fun _ =>
      Holds s₀ (Late s₀ ring))
    (ha : ∀ e, (machine R).Triple (Holds s₀ (Done s₀ ring e)) answered (Reported s₀ ring value)) :
    (machine R).Triple (Holds s₀ (Early s₀))
      (transfer site slotId stages >>= fun b => if b = true then answered else pure (.error message))
      (Reported s₀ ring value) := by
  refine Machine.triple_bind (transfer_spec hr hset hst) fun b => ?_
  cases b with
  | true => exact Machine.Triple.conseq (Machine.triple_exists ha) (fun s h => h rfl) fun _ _ h => h
  | false =>
    intro s _ r s' hrun
    exact Machine.triple_ret (P := fun _ => True) (fun _ _ _ _ => trivial) (fun _ _ _ h => nomatch h) s
      trivial r s' hrun

include hring

theorem controlTransferIn_spec (slotId bmRequestType bRequest wValue wIndex bufPhys wLength : Nat) :
    (machine R).Triple (Holds s₀ (Early s₀))
      (controlTransferIn slotId bmRequestType bRequest wValue wIndex bufPhys wLength)
      (Reported s₀ ring fun n e => n = wLength - e.trb.residualLength) := by
  refine triple_transfer hr hset (stagesIn_spec hr hring hset _ _ _) fun e => ?_
  refine triple_loadTransferCode hr (triple_loadTransferLength hr ?_)
  refine Machine.triple_ret (onWire_done hr e).stable fun s h n he => ?_
  split at he
  · cases he
  · cases he
    exact ⟨e, h, by omega, rfl⟩

theorem controlTransferNoData_spec (slotId bmRequestType bRequest wValue wIndex : Nat) :
    (machine R).Triple (Holds s₀ (Early s₀)) (controlTransferNoData slotId bmRequestType bRequest wValue wIndex)
      (Reported s₀ ring fun _ _ => True) := by
  have hst : (machine R).Triple (Holds s₀ fun w => Early s₀ w ∧ w.pending = false)
      (ep0EnqueueTrb (setupParameter bmRequestType bRequest wValue wIndex 0) 8 (setupControl 0) >>= fun _ =>
        ep0EnqueueTrb 0 0 (statusControl 1)) fun _ => Holds s₀ (Late s₀ ring) :=
    triple_stage hr hring (by decide) (triple_status hr hring hset (by decide))
  refine triple_transfer hr hset hst fun e => triple_loadTransferCode hr ?_
  refine Machine.triple_ret (onWire_done hr e).stable fun s h n he => ?_
  split at he
  · exact ⟨e, h, .inl ‹_›, trivial⟩
  · cases he

theorem getDeviceDescriptor_spec (slotId : Nat) :
    (machine R).Triple (Holds s₀ (Early s₀)) (getDeviceDescriptor slotId) (Reported s₀ ring fun _ _ => True) := by
  have hs : OnWire R (Holds s₀ (Early s₀)) := onWire_holds hr fun _ _ h hs => (early_step ⟨h, rfl⟩ hs).1
  refine triple_wireless hs rfl fun virt => triple_wireless hs rfl fun phys => ?_
  split
  · exact Machine.triple_ret hs.stable fun _ _ _ h => nomatch h
  · refine triple_transfer hr hset (stagesIn_spec hr hring hset _ _ _) fun e => triple_loadTransferCode hr ?_
    have hd : OnWire R (Holds s₀ (Done s₀ ring e)) := onWire_done hr e
    split
    · exact Machine.triple_ret hd.stable fun _ _ _ h => nomatch h
    · exact triple_wireless hd rfl fun _ => Machine.triple_ret hd.stable fun s h _ _ => ⟨e, h, by omega, trivial⟩

end Results

end Waiting

/-! ## Sessions -/

/-- Between `s` and `s'` the event `e` was read: of endpoint 1 of the slot, for a transfer queued on
the EP0 ring meanwhile, with code Success or Short Packet. -/
def OwnEvent (s s' : Kernel) (slotId : Nat) (e : Event) : Prop :=
  (∃ l, s'.hw.consumed = s.hw.consumed ++ l ∧ e ∈ l) ∧
  (∃ ring n, s.xhci.map (·.ep0RingPhys) = some ring ∧ s.hw.transfers.length ≤ n ∧
    s'.hw.transfers[n]? = some ring ∧ e.origin = .transfer n) ∧
  e.trb.slotId = slotId ∧ e.trb.endpointId = 1 ∧ (e.trb.completionCode = 1 ∨ e.trb.completionCode = 13)

/-- What a control transfer's `Ok` says about its event; the length is what this event leaves. -/
def TransferAgreement (s s' : Kernel) : (i : MainCall) → i.Result → Prop
  | .getDeviceDescriptor slotId, .ok _ => ∃ e, OwnEvent s s' slotId e
  | .controlTransferIn slotId _ _ _ _ _ wLength, .ok n =>
    ∃ e, OwnEvent s s' slotId e ∧ n = wLength - e.trb.residualLength
  | .controlTransferNoData slotId _ _ _ _, .ok _ => ∃ e, OwnEvent s s' slotId e
  | _, _ => True

/-- The slot of a control transfer. -/
def MainCall.slot? : MainCall → Option Nat
  | getDeviceDescriptor slotId => some slotId
  | controlTransferIn slotId _ _ _ _ _ _ => some slotId
  | controlTransferNoData slotId _ _ _ _ => some slotId
  | _ => none

theorem Reported.own {α : Type} {s s' : Kernel} {slotId ring : Nat} {value : α → Event → Prop} {r : Except String α}
    {a : α} (h : Reported s ring value r s') (hring : s.xhci.map (·.ep0RingPhys) = some ring)
    (hslot : s.hw.endpoint ring = (slotId, 1)) (hr : r = .ok a) : ∃ e, OwnEvent s s' slotId e ∧ value a e := by
  obtain ⟨e, ⟨-, hg⟩, hc, hv⟩ := h a hr
  obtain ⟨n, hle, ht, ho⟩ := hg.own
  have hep := hg.owner.trans hslot
  exact ⟨e, ⟨hg.log, ⟨ring, n, hring, hle, ht, ho⟩, congrArg Prod.fst hep, congrArg Prod.snd hep, hc⟩, hv⟩

/-- Whatever happened before: a control transfer that starts undisturbed returns `Ok` only for an
event of its own transfer, and uses that event's residual. -/
theorem transfer_agreement {hist : List (Machine.Return Kernel MainCall.Result)} {s : Kernel}
    (h : UsbSession Rules.any hist s) {r : Machine.Return Kernel MainCall.Result} (hr : r ∈ hist)
    (hu : ∀ slotId, r.call.slot? = some slotId → Undisturbed r.start slotId) :
    TransferAgreement r.start r.final r.call r.result := by
  obtain ⟨-, hrun⟩ := h.returned r hr
  obtain ⟨i, s₀, a, s₁⟩ := r
  have hstart : Idle s₀.owners s₀.hw.consumed (s₀.wire s₀.owners) → Holds s₀ (Early s₀) s₀ := fun hi =>
    ⟨Calm.refl s₀, hi, Nat.le_refl _⟩
  cases i
  case getDeviceDescriptor slotId =>
    cases a with
    | error e => trivial
    | ok l =>
      obtain ⟨hrings, hidle, ring, hring, hset, hep⟩ := hu slotId rfl
      have hrep := getDeviceDescriptor_spec hrings hring hset slotId s₀ (hstart hidle) _ s₁ hrun
      exact (hrep.own hring hep rfl).imp fun _ => And.left
  case controlTransferIn slotId bmRequestType bRequest wValue wIndex bufPhys wLength =>
    cases a with
    | error e => trivial
    | ok n =>
      obtain ⟨hrings, hidle, ring, hring, hset, hep⟩ := hu slotId rfl
      have hrep := controlTransferIn_spec hrings hring hset slotId bmRequestType bRequest wValue wIndex bufPhys wLength
        s₀ (hstart hidle) _ s₁ hrun
      exact hrep.own hring hep rfl
  case controlTransferNoData slotId bmRequestType bRequest wValue wIndex =>
    cases a with
    | error e => trivial
    | ok u =>
      obtain ⟨hrings, hidle, ring, hring, hset, hep⟩ := hu slotId rfl
      have hrep := controlTransferNoData_spec hrings hring hset slotId bmRequestType bRequest wValue wIndex
        s₀ (hstart hidle) _ s₁ hrun
      exact (hrep.own hring hep rfl).imp fun _ => And.left
  all_goals trivial

/-- After boot and an `enable_slot` that gave slot 1. -/
def enabledOne : Kernel :=
  stateAfter Rules.any (ops 6 ++ [.answer 0 (completionTrb 1 1), .interrupt] ++ ops 3) MainCall.enableSlot.prog
    (Kernel.start 1 fun _ => ⟨true, false, 3, 0⟩)

/-- After `address_device` for it. -/
def addressed : Kernel :=
  stateAfter Rules.any (ops 17 ++ [.answer 1 (completionTrb 1 1), .interrupt] ++ ops 2)
    (MainCall.addressDevice 1 1 3).prog enabledOne

theorem session_addressed : ∃ hist, UsbSession Rules.any hist addressed := by
  obtain ⟨a, hr, -⟩ := runs_stateAfter (R := Rules.any) (ops 6 ++ [.answer 0 (completionTrb 1 1), .interrupt] ++ ops 3)
    MainCall.enableSlot.prog (Kernel.start 1 fun _ => ⟨true, false, 3, 0⟩) (fun _ => true) (by decide +kernel)
  obtain ⟨b, hr', -⟩ :=
    runs_stateAfter (R := Rules.any) (ops 17 ++ [.answer 1 (completionTrb 1 1), .interrupt] ++ ops 2)
    (MainCall.addressDevice 1 1 3).prog enabledOne (fun _ => true) (by decide +kernel)
  have h := Machine.Session.call (.boot (powerOn_start (by decide) _ fun _ => rfl)) MainCall.enableSlot hr
  exact ⟨_, h.call (MainCall.addressDevice 1 1 3) hr'⟩

theorem addressed_undisturbed : Undisturbed addressed 1 where
  rings k ring h := by
    have hn : addressed.ring .keyboard = none ∧ addressed.ring .mouse = none := by decide +kernel
    have hk : addressed.ring k = none := by cases k <;> [exact hn.1; exact hn.2]
    rw [hk] at h
    cases h
  idle :=
    { incomplete := fun id hm => by
        have hn : addressed.hw.incomplete = [] := by decide +kernel
        rw [show (addressed.wire _).incomplete = addressed.hw.incomplete from rfl, hn] at hm
        cases hm
      unread := by
        have hn : addressed.hw.events.length = 0 := by decide +kernel
        show addressed.hw.events.filter _ = []
        rw [List.length_eq_zero_iff.1 hn, List.filter_nil]
      log := List.prefix_rfl }
  ep0 := by
    have hn : addressed.xhci.map (·.ep0RingPhys) = some 0x10000 ∧ addressed.hw.unanswered = [] ∧
        addressed.hw.endpoint 0x10000 = (1, 1) := by decide +kernel
    refine ⟨0x10000, hn.1, fun id hm => ?_, hn.2.2⟩
    rw [hn.2.1] at hm
    cases hm

/-- `transfer_agreement` for a SET_CONFIGURATION that completes at once. -/
theorem transfer_agreement_setConfiguration :
    ∃ hist s', UsbSession Rules.any (hist ++ [⟨.controlTransferNoData 1 0 9 1 0, addressed, .ok (), s'⟩]) s' ∧
      TransferAgreement addressed s' (.controlTransferNoData 1 0 9 1 0) (.ok ()) := by
  obtain ⟨hist, h⟩ := session_addressed
  obtain ⟨a, s', hr, ha⟩ := exists_run (R := Rules.any)
    (ops 8 ++ [.complete 0 (transferTrb 1 1 1), .interrupt] ++ ops 2)
      (MainCall.controlTransferNoData 1 0 9 1 0).prog addressed
    (fun a _ => decide (a.toOption = some ())) (by decide +kernel)
  have ha : a = .ok () := by
    cases a with
    | error e => cases of_decide_eq_true ha
    | ok u => rfl
  subst ha
  have hs := h.call (MainCall.controlTransferNoData 1 0 9 1 0) hr
  refine ⟨hist, s', hs, transfer_agreement hs (List.mem_append_right _ (List.mem_singleton.2 rfl)) fun slotId he => ?_⟩
  cases he
  exact addressed_undisturbed

/-- `control_transfer_no_data` up to its wait loop. -/
def setConfigurationSubmit : KProg Unit := do
  storeFlag .transferCompletionPending false
  withXhci .controlTransferNoData (do
    ep0EnqueueTrb (setupParameter 0 9 1 0 0) 8 (setupControl 0)
    ep0EnqueueTrb 0 0 (statusControl 1)
    ringDoorbell 1 1)

/-- After a SET_CONFIGURATION whose event did not come. -/
def unanswered : Kernel := stateAfter Rules.any (ops 8) setConfigurationSubmit addressed

theorem setConfiguration_unanswered :
    (machine Rules.any).Runs ((MainCall.controlTransferNoData 1 0 9 1 0).prog, addressed)
      (.ret (.error "Timeout control transfer no data"), unanswered) := by
  obtain ⟨⟨⟩, hr, -⟩ : ∃ a, (machine Rules.any).Runs (setConfigurationSubmit, addressed) (.ret a, unanswered) ∧ _ :=
    runs_stateAfter _ _ _ (fun _ => true) (by decide +kernel)
  have hw := waitFor_expires (f := .transferCompletionPending) (w := .transfer) (s := unanswered)
    (by decide +kernel) TIMEOUT
  have hsub : (machine Rules.any).Runs (transfer .controlTransferNoData 1 (do
      ep0EnqueueTrb (setupParameter 0 9 1 0 0) 8 (setupControl 0)
      ep0EnqueueTrb 0 0 (statusControl 1)), addressed) (.ret false, unanswered) :=
    Machine.runs_seq (f := fun _ => waitFor .transferCompletionPending .transfer TIMEOUT) hr hw
  exact Machine.runs_seq hsub .refl

/-- A control transfer times out and its event comes during the next: the second call returns `Ok`
while its own transfer is still outstanding. -/
theorem late_event :
    ∃ (hist : List (Machine.Return Kernel MainCall.Result)) (s : Kernel),
      UsbSession Rules.any hist s ∧ ∃ r ∈ hist, ¬ TransferAgreement r.start r.final r.call r.result := by
  obtain ⟨hist, h⟩ := session_addressed
  obtain ⟨a, s', hr, ha⟩ := exists_run (R := Rules.any)
    (ops 8 ++ [.complete 0 (transferTrb 1 1 1), .interrupt] ++ ops 2)
      (MainCall.controlTransferNoData 1 0 9 1 0).prog unanswered
    (fun a s => decide (a.toOption = some () ∧
      (s.hw.consumed.drop unanswered.hw.consumed.length).map (·.origin) = [.transfer 0]))
    (by decide +kernel)
  obtain ⟨ha, ho⟩ := of_decide_eq_true ha
  have hs := h.call (MainCall.controlTransferNoData 1 0 9 1 0) setConfiguration_unanswered
  refine ⟨_, s', hs.call (MainCall.controlTransferNoData 1 0 9 1 0) hr, _,
    List.mem_append_right _ (List.mem_singleton.2 rfl), ?_⟩
  cases a with
  | error e => cases ha
  | ok u =>
    rintro ⟨e, ⟨l, hl, hm⟩, ⟨ring, n, -, hle, -, horig⟩, -⟩
    rw [hl, List.drop_left] at ho
    have hlen : unanswered.hw.transfers.length = 1 := by decide +kernel
    have hle : unanswered.hw.transfers.length ≤ n := hle
    have hmem := List.mem_map_of_mem (f := (·.origin)) hm
    rw [ho, List.mem_singleton, horig, Origin.transfer.injEq] at hmem
    omega

end Octagram.Usb

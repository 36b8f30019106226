/-
The interrupt flag and the spin locks: where the main context takes a lock that the vector-44
handler also takes, and whether interrupts are off there (`no_self_deadlock_iff`). Every call of
the main context is tracked through the flag and the locks (`prog_disciplined`): between calls
interrupts are on and the handler's locks are free, at a bracketed site the lock is held with
interrupts off only, and every other site is reached with interrupts on. So a run is safe exactly
as long as it takes these locks at bracketed sites.
-/
import Octagram.Lib.Track
import Octagram.Usb.Schedule
import Octagram.Usb.Setup

namespace Octagram.Usb

open Octagram.Lib

/-- The interrupt flag and the locks that are held. -/
structure Control where
  ints : Bool
  held : Lock → Bool

/-- The flag and the locks of a state. -/
def Kernel.control (s : Kernel) : Control := ⟨s.ints, s.held⟩

namespace Control

/-- What an operation does to the interrupt flag and the locks. -/
def next : Op → Control → Control
  | .cli, c => { c with ints := false }
  | .sti, c => { c with ints := true }
  | .lock l _, c => { c with held := Function.update c.held l true }
  | .unlock l, c => { c with held := Function.update c.held l false }
  | _, c => c

/-- None of the locks that the handler takes is held. -/
def Free (c : Control) : Prop := ∀ l, l ≠ .activePorts → c.held l = false

/-- Interrupts are off while a lock is held that the handler takes. -/
def Safe (c : Control) : Prop := ∀ l, l ≠ .activePorts → c.held l = true → c.ints = false

/-- Between calls: interrupts are on, and none of these locks is held. -/
structure Clear (c : Control) : Prop where
  free : c.Free
  on : c.ints = true

theorem Clear.safe {c : Control} (h : c.Clear) : c.Safe := fun l hl hh => by rw [h.free l hl] at hh; cases hh

end Control

/-- The sites that `cli` stands before and `sti` after. -/
def Site.bracketed : Site → Bool
  | .enableSlot | .disableSlot | .addressDevice | .configureEndpoint => true
  | .getDeviceDescriptor | .controlTransferIn | .controlTransferNoData => true
  | _ => false

/-- A lock that the handler takes too is taken at a bracketed site only. -/
def Op.bracketed : Op → Bool
  | .lock .activePorts _ => true
  | .lock _ site => site.bracketed
  | _ => true

/-- The main context: a lock is free when it is taken, and a site that is not bracketed is reached with interrupts
on. Where `guarded` holds only bracketed sites are reached. -/
def mainLocks (guarded : Prop) : Typestate Op Control where
  next := Control.next
  may o c := (∀ l site, o = .lock l site → c.held l = false) ∧ (guarded → o.bracketed = true)
  must o c := o.bracketed = true ∨ c.ints = true

/-- The handler: a lock is free when it is taken. -/
def handlerLocks : Typestate Op Control where
  next := Control.next
  may o c := ∀ l site, o = .lock l site → c.held l = false
  must _ _ := True

/-- The operations that do not touch the interrupt flag and the locks. -/
def Op.plain : Op → Bool
  | .cli | .sti | .lock _ _ | .unlock _ => false
  | _ => true

theorem next_plain {o : Op} (h : o.plain = true) (c : Control) : Control.next o c = c := by
  cases o
  case cli | sti | lock | unlock => cases h
  all_goals rfl

theorem bracketed_plain {o : Op} (h : o.plain = true) : o.bracketed = true := by
  cases o
  case lock => cases h
  all_goals rfl

theorem bracketed_lock {l : Lock} (hl : l ≠ .activePorts) (site : Site) :
    (Op.lock l site).bracketed = site.bracketed := by
  cases l
  case activePorts => exact absurd rfl hl
  all_goals rfl

theorem exec_control {o : Op} {s s' : Kernel} {r : Ret o} (h : s.exec o = some (r, s')) :
    s'.control = Control.next o s.control ∧ ∀ l site, o = .lock l site → s.held l = false := by
  constructor
  · cases o
    all_goals simp only [Kernel.exec] at h
    case panic => cases h
    case lock l site =>
      split at h
      · cases h
      · cases h
        rfl
    case getXhci | setEp0Ring | sendCommand | ep0EnqueueTrb =>
      obtain ⟨x, -, he⟩ := Option.map_eq_some_iff.1 h
      cases he
      rfl
    case enqueueReport k =>
      cases h
      show (Kernel.enqueueReport s k).control = s.control
      unfold Kernel.enqueueReport
      split
      · rfl
      · cases k <;> rfl
    case newDriver k st => cases h; cases k <;> rfl
    case dropDriver k => cases h; cases k <;> rfl
    case boxNew b =>
      cases h
      cases b <;> rfl
    all_goals
      cases h
      rfl
  · rintro l site rfl
    rw [Kernel.exec] at h
    split at h
    · cases h
    · rename_i hl
      exact Bool.not_eq_true _ ▸ hl

/-! ## The handler gives back what it takes -/

section Handler

/-- A program that leaves the interrupt flag and the locks as it found them. -/
def Balanced {α : Type} (p : KProg α) : Prop := ∀ c, p.Tracks handlerLocks (fun _ => True) c (· = c)

variable {α β : Type}

theorem Balanced.bind {p : KProg α} {f : α → KProg β} (hp : Balanced p) (hf : ∀ a, Balanced (f a)) :
    Balanced (p >>= f) := by
  intro c
  refine (hp c).bind fun a c' he => ?_
  subst he
  exact hf a c'

theorem balanced_ret (a : α) : Balanced (.ret a : KProg α) := fun _ => ⟨trivial, rfl⟩

theorem balanced_plain {o : Op} {k : Ret o → KProg α} (ho : o.plain = true) (hk : ∀ r, Balanced (k r)) :
    Balanced (.op o k) :=
  fun c => ⟨trivial, trivial, fun _ r => by rw [show handlerLocks.next o c = c from next_plain ho c]; exact hk r c⟩

theorem balanced_all {p : KProg α} (hp : p.All fun o => o.plain = true) : Balanced p :=
  fun _ => Prog.tracks_of_all hp (fun _ c ho => next_plain ho c) (fun _ _ => trivial) trivial rfl

/-- A lock around a program that ends with its release. -/
theorem balanced_lock {l : Lock} {site : Site} {p : KProg α}
    (hp : ∀ c, p.Tracks handlerLocks (fun _ => True) c fun c' => c' =
      { c with held := Function.update c.held l false }) : Balanced (.op (.lock l site) fun _ => p) := by
  intro c
  refine ⟨trivial, trivial, fun hm _ => (hp _).mono fun c' he => ?_⟩
  have hl : c.held l = false := hm l site rfl
  rw [he]
  show (⟨c.ints, Function.update (Function.update c.held l true) l false⟩ : Control) = c
  rw [Function.update_idem, ← hl, Function.update_eq_self]

/-- Balanced work with the lock, then its release. -/
theorem tracks_unlock {l : Lock} {p : KProg α} (g : α → β) (hp : Balanced p) (c : Control) :
    (p >>= fun a => .op (.unlock l) fun _ => .ret (g a)).Tracks handlerLocks (fun _ => True) c
      fun c' => c' = { c with held := Function.update c.held l false } :=
  (hp c).bind fun _ _ he => ⟨trivial, trivial, fun _ _ => ⟨trivial, by rw [he]; rfl⟩⟩

/-- A lock taken for one operation. -/
theorem balanced_read {l : Lock} {site : Site} {o : Op} {k : Ret o → KProg α} (ho : o.plain = true)
    (hk : ∀ r, Balanced (k r)) :
    Balanced (.op (.lock l site) fun _ => .op o fun r => .op (.unlock l) fun _ => k r) := by
  intro c
  refine ⟨trivial, trivial, fun hm _ => ⟨trivial, trivial, fun _ r => ⟨trivial, trivial, fun _ _ => ?_⟩⟩⟩
  have hl : c.held l = false := hm l site rfl
  have hc : handlerLocks.next (.unlock l) (handlerLocks.next o (handlerLocks.next (.lock l site) c)) = c := by
    rw [show handlerLocks.next o _ = _ from next_plain ho _]
    show (⟨c.ints, Function.update (Function.update c.held l true) l false⟩ : Control) = c
    rw [Function.update_idem, ← hl, Function.update_eq_self]
  rw [hc]
  exact hk r c

/-- `XHCI_INSTANCE` taken for one operation. -/
theorem balanced_xhci {site : Site} {o : Op} (ho : o.plain = true) :
    Balanced (lock .xhci site >>= fun _ => getXhci >>= fun _ => act o >>= fun _ => unlock .xhci) :=
  balanced_lock <| tracks_unlock (p := getXhci >>= fun _ => act o) (fun _ => ()) <|
    balanced_plain rfl fun _ => balanced_plain ho fun _ => balanced_ret _

theorem armNextReport_balanced (k : DeviceKind) : Balanced (armNextReport k) :=
  balanced_lock fun c => ⟨trivial, trivial, fun _ st => by
    cases st with
    | none => exact tracks_unlock id (balanced_ret ()) c
    | some st => exact tracks_unlock id (balanced_xhci (o := .enqueueReport k) rfl) c⟩

theorem printKeys_plain (last : List UInt8) (modifier : UInt8) (codes : List UInt8) :
    (printKeys last modifier codes).All fun o => o.plain = true := by
  induction codes with
  | nil => trivial
  | cons kc rest ih =>
    unfold printKeys
    split
    · exact ih
    · split
      · exact ⟨rfl, fun _ => ih⟩
      · exact ih

theorem handleKeyboardReport_balanced (report : List UInt8) : Balanced (handleKeyboardReport report) :=
  balanced_lock fun c => ⟨trivial, trivial, fun _ st => by
    cases st with
    | none => exact tracks_unlock id (balanced_ret ()) c
    | some st =>
      refine (balanced_all (printKeys_plain _ _ _) c).bind fun _ c' he => ?_
      subst he
      exact tracks_unlock id (balanced_plain (o := .setLastKeycodes _) rfl balanced_ret) c'⟩

theorem handleMouseReport_balanced (report : List UInt8) : Balanced (handleMouseReport report) :=
  balanced_lock fun c => ⟨trivial, trivial, fun _ st => by
    cases st with
    | none => exact tracks_unlock id (balanced_ret ()) c
    | some st =>
      dsimp only [Prog.bind]
      split
      · refine (balanced_all (printText_all (fun _ => rfl) _) c).bind fun _ c' he => ?_
        subst he
        exact tracks_unlock id (balanced_plain (o := .setMousePos _ _ _) rfl balanced_ret) c'
      · exact ⟨trivial, trivial, fun _ => nofun⟩⟩

theorem pollDriver_balanced (k : DeviceKind) {handleReport : List UInt8 → KProg Unit}
    (h : ∀ report, Balanced (handleReport report)) : Balanced (pollDriver k handleReport) :=
  balanced_plain rfl fun b => by
    cases b with
    | false => exact balanced_ret ()
    | true =>
      refine balanced_read (o := .getDriver k) rfl fun st => ?_
      cases st with
      | none => exact balanced_ret ()
      | some st => exact balanced_plain rfl fun report => (h report).bind fun _ => armNextReport_balanced k

theorem interruptHandler_balanced : Balanced interruptHandler := by
  have hd : Balanced (pollKeyboard >>= fun _ => pollMouse) := 
    (pollDriver_balanced .keyboard handleKeyboardReport_balanced).bind fun _ =>
      pollDriver_balanced .mouse handleMouseReport_balanced
  rw [interruptHandler_eq]
  refine balanced_plain rfl fun b => ?_
  split
  · exact balanced_read (o := .pollEventRing) rfl fun _ => hd
  · exact hd

/-- The handler leaves the interrupt flag and the locks as it found them. -/
theorem handler_control {s s' : Kernel} (h : runToEnd interruptHandler s = some ((), s')) : s'.control = s.control := by
  have : ∀ {p : KProg Unit} {s : Kernel} {Q : Control → Prop}, runToEnd p s = some ((), s') →
      p.Tracks handlerLocks (fun _ => True) s.control Q → Q s'.control := by
    intro p
    induction p with
    | ret a => intro s Q h ht; cases h; exact ht.2
    | op o k ih =>
      intro s Q h ht
      rw [runToEnd_op, Option.bind_eq_some_iff] at h
      obtain ⟨r, he, h⟩ := h
      obtain ⟨hc, hl⟩ := exec_control he
      exact ih r.1 h (hc ▸ ht.2.2 hl r.1)
  exact this h (interruptHandler_balanced s.control)

end Handler

/-- The surroundings leave the interrupt flag and the locks alone. -/
theorem env_control {R : Rules} {s s' : Kernel} (h : Env R s s') : s'.control = s.control := by
  cases h with
  | interrupt hi h => exact handler_control h
  | answer | complete | connect | disconnect | dma => rfl

/-! ## The main context -/

section Main

/-- A program of the main context between two states in which interrupts are on and the locks of the handler are
free. Meanwhile, where `guarded` holds, it holds these locks only with interrupts off; and with or without it
comes to the sites that are not bracketed only with interrupts on. -/
def Disciplined (guarded : Prop) {α : Type} (p : KProg α) : Prop :=
  ∀ c, c.Clear → p.Tracks (mainLocks guarded) (fun c => guarded → c.Safe) c Control.Clear

variable {guarded : Prop} {α β : Type}

theorem Disciplined.bind {p : KProg α} {f : α → KProg β} (hp : Disciplined guarded p)
    (hf : ∀ a, Disciplined guarded (f a)) : Disciplined guarded (p >>= f) :=
  fun c hc => (hp c hc).bind fun a => hf a

theorem disciplined_ret (a : α) : Disciplined guarded (.ret a : KProg α) := fun _ hc => ⟨fun _ => hc.safe, hc⟩

theorem disciplined_plain {o : Op} {k : Ret o → KProg α} (ho : o.plain = true) (hk : ∀ r, Disciplined guarded (k r)) :
    Disciplined guarded (.op o k) :=
  fun c hc => ⟨fun _ => hc.safe, .inl (bracketed_plain ho), fun _ r => by
    rw [show (mainLocks guarded).next o c = c from next_plain ho c]; exact hk r c hc⟩

theorem disciplined_act {o : Op} {f : Ret o → KProg α} (ho : o.plain = true) (hf : ∀ r, Disciplined guarded (f r)) :
    Disciplined guarded (act o >>= f) := disciplined_plain ho hf

/-- Operations that touch neither the flag nor the locks stay where they are. -/
theorem tracks_plain {p : KProg α} {c : Control} {Q : Control → Prop} (hp : p.All fun o => o.plain = true)
    (hs : guarded → c.Safe) (hq : Q c) : p.Tracks (mainLocks guarded) (fun c => guarded → c.Safe) c Q :=
  Prog.tracks_of_all hp (fun _ c ho => next_plain ho c) (fun _ ho => .inl (bracketed_plain ho)) hs hq

theorem disciplined_all {p : KProg α} (hp : p.All fun o => o.plain = true) : Disciplined guarded p :=
  fun _ hc => tracks_plain hp (fun _ => hc.safe) hc

theorem safe_of_off {c : Control} (h : c.ints = false) : guarded → c.Safe := fun _ _ _ _ => h

/-- With `l` given back the locks are as free as before it was taken. -/
theorem free_unlock {c : Control} {l : Lock} (h : ∀ l', l' ≠ l → l' ≠ .activePorts → c.held l' = false) :
    Control.Free { c with held := Function.update c.held l false } := by
  intro l' hl'
  by_cases he : l' = l
  · rw [he]; exact Function.update_self _ _ _
  · exact (Function.update_of_ne he _ _).trans (h l' he hl')

/-- `cli`, the lock, operations that touch neither, the release, `sti`. -/
theorem withXhci_disciplined {site : Site} {body : KProg Unit} (hsite : site.bracketed = true)
    (hb : body.All fun o => o.plain = true) : Disciplined guarded (withXhci site body) := by
  intro c hc
  -- between `cli` and `sti` every state is safe, since interrupts are off
  refine ⟨fun _ => hc.safe, .inl rfl, fun _ _ => ⟨safe_of_off rfl, .inl hsite, fun _ _ => ?_⟩⟩
  show Prog.Tracks _ _ (body >>= fun _ => unlock .xhci >>= fun _ => sti) _ _
  refine Prog.Tracks.bind (Q := fun c' => c' = ⟨false, Function.update c.held .xhci true⟩)
    (tracks_plain hb (safe_of_off rfl) rfl) fun _ c' he => ?_
  subst he
  have hf : Control.Free ⟨true, Function.update (Function.update c.held .xhci true) .xhci false⟩ :=
    free_unlock (c := ⟨true, Function.update c.held .xhci true⟩) fun l' h1 h2 =>
      (Function.update_of_ne h1 _ _).trans (hc.free l' h2)
  have hclear : Control.Clear ⟨true, Function.update (Function.update c.held .xhci true) .xhci false⟩ := ⟨hf, rfl⟩
  exact ⟨safe_of_off rfl, .inl rfl, fun _ _ => ⟨safe_of_off rfl, .inl rfl, fun _ _ => ⟨fun _ => hclear.safe, hclear⟩⟩⟩

theorem waitFor_disciplined (f : Flag) (w : Wait) (n : Nat) : Disciplined guarded (waitFor f w n) :=
  disciplined_all (waitFor_all (fun o => o.plain = true) rfl rfl n)

theorem submit_disciplined {site : Site} (hsite : site.bracketed = true) (prepare : KProg Unit)
    (hp : prepare.All fun o => o.plain = true) (parameter trbType slotId : Nat) :
    Disciplined guarded (submit site prepare parameter trbType slotId) := by
  have hb : (prepare >>= fun _ => sendCommand parameter trbType slotId).All fun o => o.plain = true :=
    hp.bind fun _ => (Prog.all_call _ _).2 rfl
  exact disciplined_plain rfl fun _ => (withXhci_disciplined hsite hb).bind fun _ => waitFor_disciplined _ _ _

theorem transfer_disciplined {site : Site} {stages : KProg Unit} (hsite : site.bracketed = true)
    (hp : stages.All fun o => o.plain = true) (slotId : Nat) : Disciplined guarded (transfer site slotId stages) := by
  have hb : (stages >>= fun _ => ringDoorbell (slotId % 256) 1).All fun o => o.plain = true :=
    hp.bind fun _ => (Prog.all_call _ _).2 rfl
  exact disciplined_plain rfl fun _ => (withXhci_disciplined hsite hb).bind fun _ => waitFor_disciplined _ _ _

/-- A site that is not bracketed is none that a guarded run takes. -/
theorem not_guarded {l : Lock} {site : Site} {c : Control} (hs : site.bracketed = false) (hl : l ≠ .activePorts)
    (hm : (mainLocks guarded).may (.lock l site) c) : ¬ guarded := by
  intro hg
  have hb := hm.2 hg
  rw [bracketed_lock hl, hs] at hb
  cases hb

/-- A lock taken with interrupts on for one operation. -/
theorem disciplined_read {l : Lock} {site : Site} {o : Op} {k : Ret o → KProg α} (hs : site.bracketed = false)
    (hl : l ≠ .activePorts) (ho : o.plain = true) (hk : ∀ r, Disciplined guarded (k r)) :
    Disciplined guarded (.op (.lock l site) fun _ => .op o fun r => .op (.unlock l) fun _ => k r) := by
  intro c hc
  refine ⟨fun _ => hc.safe, .inr hc.on, fun hm _ => ?_⟩
  have hng := not_guarded hs hl hm
  refine ⟨fun hg => absurd hg hng, .inl (bracketed_plain ho), fun _ r => ?_⟩
  rw [show (mainLocks guarded).next o _ = _ from next_plain ho _]
  refine ⟨fun hg => absurd hg hng, .inl rfl, fun _ _ => hk r _ ⟨?_, hc.on⟩⟩
  exact free_unlock fun l' h1 h2 => (Function.update_of_ne h1 _ _).trans (hc.free l' h2)

theorem enableSlot_disciplined : Disciplined guarded enableSlot := by
  refine (submit_disciplined rfl (.ret ()) trivial _ _ _).bind fun b => ?_
  split
  · exact disciplined_act rfl fun _ => disciplined_act rfl fun _ => disciplined_ret _
  · exact disciplined_ret _

theorem disableSlot_disciplined (slotId : Nat) : Disciplined guarded (disableSlot slotId) := by
  refine (submit_disciplined rfl (.ret ()) trivial _ _ _).bind fun b => ?_
  split
  · refine disciplined_act rfl fun code => ?_
    split
    · exact disciplined_ret _
    · exact disciplined_read (o := .getXhci) rfl nofun rfl fun _ => disciplined_act rfl fun _ => disciplined_ret _
  · exact disciplined_ret _

theorem addressDevice_disciplined (slotId rootPort speed : Nat) :
    Disciplined guarded (addressDevice slotId rootPort speed) := by
  refine disciplined_act rfl fun virt => disciplined_act rfl fun phys => ?_
  split
  · exact disciplined_ret _
  · refine disciplined_act rfl fun virt => disciplined_act rfl fun phys => ?_
    split
    · exact disciplined_ret _
    · refine disciplined_read (o := .getXhci) rfl nofun rfl fun _ => ?_
      refine disciplined_act rfl fun _ => disciplined_act rfl fun _ => disciplined_act rfl fun phys => ?_
      split
      · exact disciplined_ret _
      · refine (submit_disciplined rfl (act (.setEp0Ring _ _)) ⟨rfl, fun _ => trivial⟩ _ _ _).bind fun b => ?_
        split
        · exact disciplined_act rfl fun _ => disciplined_ret _
        · exact disciplined_ret _

theorem configureEndpoint_disciplined (slotId rootPort : Nat) (ep : EndpointInfo) :
    Disciplined guarded (configureEndpoint slotId rootPort ep) := by
  refine disciplined_act rfl fun virt => disciplined_act rfl fun phys => ?_
  split
  · exact disciplined_ret _
  · refine disciplined_act rfl fun _ => ?_
    split
    · exact disciplined_plain rfl nofun
    · refine disciplined_act rfl fun _ => disciplined_act rfl fun phys => ?_
      split
      · exact disciplined_ret _
      · refine (submit_disciplined rfl (.ret ()) trivial _ _ _).bind fun b => ?_
        split
        · exact disciplined_act rfl fun _ => disciplined_ret _
        · exact disciplined_ret _

theorem stagesIn_plain (setup : BitVec 64) (bufPhys wLength : Nat) :
    (stagesIn setup bufPhys wLength).All fun o => o.plain = true :=
  ⟨rfl, fun _ => ⟨rfl, fun _ => ⟨rfl, fun _ => trivial⟩⟩⟩

theorem getDeviceDescriptor_disciplined (slotId : Nat) : Disciplined guarded (getDeviceDescriptor slotId) := by
  refine disciplined_act rfl fun virt => disciplined_act rfl fun phys => ?_
  split
  · exact disciplined_ret _
  · refine (transfer_disciplined rfl (stagesIn_plain _ _ _) slotId).bind fun b => ?_
    split
    · refine disciplined_act rfl fun code => ?_
      split
      · exact disciplined_ret _
      · exact disciplined_act rfl fun _ => disciplined_ret _
    · exact disciplined_ret _

theorem controlTransferIn_disciplined (slotId bmRequestType bRequest wValue wIndex bufPhys wLength : Nat) :
    Disciplined guarded (controlTransferIn slotId bmRequestType bRequest wValue wIndex bufPhys wLength) := by
  refine (transfer_disciplined rfl (stagesIn_plain _ _ _) slotId).bind fun b => ?_
  split
  · exact disciplined_act rfl fun _ => disciplined_act rfl fun _ => disciplined_ret _
  · exact disciplined_ret _

theorem controlTransferNoData_disciplined (slotId bmRequestType bRequest wValue wIndex : Nat) :
    Disciplined guarded (controlTransferNoData slotId bmRequestType bRequest wValue wIndex) := by
  have hp : (ep0EnqueueTrb (setupParameter bmRequestType bRequest wValue wIndex 0) 8 (setupControl 0) >>= fun _ =>
      ep0EnqueueTrb 0 0 (statusControl 1)).All fun o => o.plain = true := ⟨rfl, fun _ => ⟨rfl, fun _ => trivial⟩⟩
  refine (transfer_disciplined rfl hp slotId).bind fun b => ?_
  split
  · exact disciplined_act rfl fun _ => disciplined_ret _
  · exact disciplined_ret _

theorem getInterruptEndpoints_disciplined (slotId : Nat) : Disciplined guarded (getInterruptEndpoints slotId) := by
  refine disciplined_act rfl fun virt => disciplined_act rfl fun phys => ?_
  split
  · exact disciplined_ret _
  · refine (controlTransferIn_disciplined _ _ _ _ _ _ _).bind fun r => ?_
    split
    · exact disciplined_ret _
    · refine disciplined_act rfl fun buf => ?_
      split
      · exact disciplined_plain rfl nofun
      · exact disciplined_ret _

/-- The operations other than `cli` and `sti`. -/
def Op.keepsFlag : Op → Bool
  | .cli | .sti => false
  | _ => true

/-- With interrupts on a program without `cli` and `sti` takes every lock with interrupts on. -/
theorem tracks_unmasked {p : KProg α} {c : Control} {Q : Control → Prop} (hi : p.All fun o => o.keepsFlag = true)
    (hp : p.Tracks handlerLocks (fun _ => True) c Q) (hon : c.ints = true) (hng : ¬ guarded) :
    p.Tracks (mainLocks guarded) (fun c => guarded → c.Safe) c Q := by
  induction p generalizing c with
  | ret a => exact ⟨fun hg => absurd hg hng, hp.2⟩
  | op o k ih =>
    refine ⟨fun hg => absurd hg hng, .inr hon, fun hm r => ih r (hi.2 r) (hp.2.2 hm.1 r) ?_⟩
    cases o
    case cli | sti => cases hi.1
    all_goals exact hon

/-- A program that begins with a lock at a site that is not bracketed, gives back what it takes and
leaves the interrupt flag alone. -/
theorem disciplined_unmasked {l : Lock} {site : Site} {k : Unit → KProg α} (hs : site.bracketed = false)
    (hl : l ≠ .activePorts) (hp : Balanced (.op (.lock l site) k)) (hi : (k ()).All fun o => o.keepsFlag = true) :
    Disciplined guarded (.op (.lock l site) k) := by
  intro c hc
  refine ⟨fun _ => hc.safe, .inr hc.on, fun hm _ => ?_⟩
  have hrest := tracks_unmasked hi ((hp c).2.2 hm.1 ()) hc.on (not_guarded hs hl hm)
  exact hrest.mono fun c' he => by rw [he]; exact hc

theorem lock_ne (k : DeviceKind) : k.lock ≠ .activePorts := by cases k <;> nofun

theorem armNextReport_disciplined (k : DeviceKind) : Disciplined guarded (armNextReport k) :=
  disciplined_unmasked rfl (lock_ne k) (armNextReport_balanced k) ⟨rfl, fun st => by
    cases st with
    | none => exact ⟨rfl, fun _ => trivial⟩
    | some st => exact ⟨rfl, fun _ => ⟨rfl, fun _ => ⟨rfl, fun _ => ⟨rfl, fun _ => ⟨rfl, fun _ => trivial⟩⟩⟩⟩⟩⟩

theorem initDriver_disciplined (k : DeviceKind) (message : String) (slotId : Nat) (ep : EndpointHandle)
    (interfaceNumber : Nat) : Disciplined guarded (initDriver k message slotId ep interfaceNumber) := by
  refine (controlTransferNoData_disciplined _ _ _ _ _).bind fun _ =>
    disciplined_act rfl fun virt => disciplined_act rfl fun phys => ?_
  split
  · exact disciplined_plain rfl nofun
  · refine disciplined_act rfl fun _ => disciplined_act rfl fun _ => ?_
    exact disciplined_read (o := .newDriver k _) rfl (lock_ne k) rfl fun _ => armNextReport_disciplined k

/-- The release after plain operations. -/
theorem tracks_unlock_plain {l : Lock} {p : KProg α} (hp : p.All fun o => o.plain = true) (c : Control) :
    (p >>= fun a => .op (.unlock l) fun _ => .ret a).Tracks handlerLocks (fun _ => True) c
      fun c' => c' = { c with held := Function.update c.held l false } :=
  tracks_unlock id (balanced_all hp) c

theorem shutdownDriver_disciplined (k : DeviceKind) (slotId : Nat) : Disciplined guarded (shutdownDriver k slotId) := by
  refine disciplined_unmasked rfl (lock_ne k) (balanced_lock fun c => ⟨trivial, trivial, fun _ st => ?_⟩)
    ⟨rfl, fun st => ?_⟩
  · cases st with
    | none => exact tracks_unlock_plain (p := .ret ()) trivial c
    | some st =>
      refine (?_ : Prog.Tracks _ _ (if st.slotId ≠ slotId then unlock k.lock else _) c _)
      split
      · exact tracks_unlock_plain (p := .ret ()) trivial c
      · exact tracks_unlock_plain (p := act (.dropDriver k) >>= fun _ => act (.boxFree st.reportBufVirt) >>= fun _ =>
          storeReg k.dciReg 0 >>= fun _ => storeReg k.slotReg 0 >>= fun _ => storeFlag k.pending false)
          ⟨rfl, fun _ => ⟨rfl, fun _ => ⟨rfl, fun _ => ⟨rfl, fun _ => ⟨rfl, fun _ => trivial⟩⟩⟩⟩⟩ c
  · cases st with
    | none => exact ⟨rfl, fun _ => trivial⟩
    | some st =>
      refine (?_ : Prog.All _ (if st.slotId ≠ slotId then unlock k.lock else _))
      split
      · exact ⟨rfl, fun _ => trivial⟩
      · exact ⟨rfl, fun _ => ⟨rfl, fun _ => ⟨rfl, fun _ => ⟨rfl, fun _ => ⟨rfl, fun _ => ⟨rfl, fun _ => trivial⟩⟩⟩⟩⟩⟩

theorem dispatchEndpoint_disciplined (slotId rootPort : Nat) (ep : EndpointInfo) :
    Disciplined guarded (dispatchEndpoint slotId rootPort ep) := by
  unfold dispatchEndpoint
  split
  · exact disciplined_ret _
  · refine (configureEndpoint_disciplined slotId rootPort ep).bind fun r => ?_
    split
    · exact disciplined_ret _
    · split
      · exact (initDriver_disciplined .keyboard _ _ _ _).bind fun _ => disciplined_ret _
      · exact (initDriver_disciplined .mouse _ _ _ _).bind fun _ => disciplined_ret _
      · exact disciplined_ret _

theorem dispatchAll_disciplined (slotId rootPort : Nat) (hasKeyboard hasMouse : Bool) (eps : List EndpointInfo) :
    Disciplined guarded (dispatchAll slotId rootPort hasKeyboard hasMouse eps) := by
  induction eps generalizing hasKeyboard hasMouse with
  | nil => exact disciplined_ret _
  | cons ep rest ih =>
    refine (dispatchEndpoint_disciplined slotId rootPort ep).bind fun kind => ?_
    split <;> exact ih _ _

theorem setupDevice_disciplined (slotId rootPort : Nat) : Disciplined guarded (setupDevice slotId rootPort) := by
  refine (getDeviceDescriptor_disciplined slotId).bind fun r => ?_
  split
  · exact disciplined_ret _
  · refine (getInterruptEndpoints_disciplined slotId).bind fun r => ?_
    split
    · exact disciplined_ret _
    · refine (controlTransferNoData_disciplined _ _ _ _ _).bind fun r => ?_
      split
      · exact disciplined_ret _
      · exact dispatchAll_disciplined _ _ _ _ _

theorem initOneDevice_disciplined (rootPort speed : Nat) : Disciplined guarded (initOneDevice rootPort speed) := by
  refine enableSlot_disciplined.bind fun r => ?_
  split
  · exact disciplined_ret _
  · refine (addressDevice_disciplined _ rootPort speed).bind fun r => ?_
    split
    · exact disciplined_ret _
    · exact (setupDevice_disciplined _ _).bind fun _ => disciplined_ret _

theorem onlyIf_disciplined (b : Bool) {p : KProg Unit} (hp : Disciplined guarded p) :
    Disciplined guarded (onlyIf b p) := by
  cases b with
  | true => exact hp
  | false => exact disciplined_ret _

theorem shutdownDevice_disciplined (entry : ActivePort) : Disciplined guarded (shutdownDevice entry) :=
  (onlyIf_disciplined _ (shutdownDriver_disciplined .keyboard _)).bind fun _ =>
    (onlyIf_disciplined _ (shutdownDriver_disciplined .mouse _)).bind fun _ =>
      (disableSlot_disciplined _).bind fun _ => disciplined_ret _

theorem portStates_disciplined : Disciplined guarded portStates := by
  refine disciplined_unmasked rfl nofun
    (balanced_lock fun c => ⟨trivial, trivial, fun _ _ => ⟨trivial, trivial, fun _ n => ?_⟩⟩)
    ⟨rfl, fun _ => ⟨rfl, fun n => ?_⟩⟩
  · exact tracks_unlock_plain (scanPorts_all (fun _ => rfl) 0 n) c
  · exact (scanPorts_all (fun _ => rfl) 0 n).bind fun _ => ⟨rfl, fun _ => trivial⟩

theorem disconnectLoop_disciplined (states : List (Nat × Nat)) (kept rest : List ActivePort) :
    Disciplined guarded (disconnectLoop states kept rest) := by
  induction rest generalizing kept with
  | nil => exact disciplined_ret _
  | cons entry rest ih =>
    unfold disconnectLoop
    split
    · exact ih _
    · exact disciplined_act rfl fun _ => (shutdownDevice_disciplined entry).bind fun _ => ih _

theorem connectLoop_disciplined (states : List (Nat × Nat)) : Disciplined guarded (connectLoop states) := by
  induction states with
  | nil => exact disciplined_ret _
  | cons st rest ih =>
    refine disciplined_act rfl fun active => ?_
    split
    · exact ih
    · refine (initOneDevice_disciplined _ _).bind fun r => ?_
      split
      · exact disciplined_act rfl fun _ => disciplined_act rfl fun _ => ih
      · exact disciplined_act rfl fun _ => ih

/-- The lock of the registry is none of the handler's. -/
theorem disciplined_registry (site : Site) {p : KProg α} (hp : Disciplined guarded p) :
    Disciplined guarded (lock .activePorts site >>= fun _ => p) ∧ Disciplined guarded (unlock .activePorts) := by
  have hu : ∀ (c : Control) (b : Bool), c.Clear →
    Control.Clear { c with held := Function.update c.held .activePorts b } :=
    fun c b hc => ⟨fun l hl => (Function.update_of_ne hl _ _).trans (hc.free l hl), hc.on⟩
  refine ⟨fun c hc => ⟨fun _ => hc.safe, .inl rfl, fun _ _ => hp _ (hu c true hc)⟩,
    fun c hc => ⟨fun _ => hc.safe, .inl rfl, fun _ _ => ?_⟩⟩
  exact ⟨fun _ => (hu c false hc).safe, hu c false hc⟩

theorem discoverAndInitHidDevices_disciplined : Disciplined guarded discoverAndInitHidDevices := by
  refine portStates_disciplined.bind fun states => (disciplined_registry _ ?_).1
  refine disciplined_act rfl fun active => (disconnectLoop_disciplined _ _ _).bind fun _ =>
    (connectLoop_disciplined _).bind fun _ => ?_
  exact (disciplined_registry .discoverRegistry (disciplined_ret ())).2

theorem pollHotplug_disciplined : Disciplined guarded pollHotplug := by
  refine disciplined_act rfl fun b => ?_
  split
  · refine disciplined_act rfl fun b => ?_
    split
    · exact discoverAndInitHidDevices_disciplined
    · exact disciplined_ret _
  · exact disciplined_ret _

theorem prog_disciplined (i : MainCall) : Disciplined guarded i.prog := by
  cases i with
  | enableSlot => exact enableSlot_disciplined
  | disableSlot slotId => exact disableSlot_disciplined slotId
  | addressDevice slotId rootPort speed => exact addressDevice_disciplined slotId rootPort speed
  | configureEndpoint slotId rootPort ep => exact configureEndpoint_disciplined slotId rootPort ep
  | getDeviceDescriptor slotId => exact getDeviceDescriptor_disciplined slotId
  | controlTransferIn => exact controlTransferIn_disciplined _ _ _ _ _ _ _
  | controlTransferNoData => exact controlTransferNoData_disciplined _ _ _ _ _
  | getInterruptEndpoints slotId => exact getInterruptEndpoints_disciplined slotId
  | initKeyboard slotId ep interfaceNumber => exact initDriver_disciplined .keyboard _ slotId ep interfaceNumber
  | initMouse slotId ep interfaceNumber => exact initDriver_disciplined .mouse _ slotId ep interfaceNumber
  | shutdownKeyboard slotId => exact shutdownDriver_disciplined .keyboard slotId
  | shutdownMouse slotId => exact shutdownDriver_disciplined .mouse slotId
  | initOneDevice rootPort speed => exact initOneDevice_disciplined rootPort speed
  | shutdownDevice entry => exact shutdownDevice_disciplined entry
  | discoverAndInitHidDevices => exact discoverAndInitHidDevices_disciplined
  | pollHotplug => exact pollHotplug_disciplined

end Main

/-! ## Sessions -/

theorem mainLocks_follows (R : Rules) : (machine R).Follows (mainLocks False) Kernel.control fun _ => True where
  exec _ _ _ _ _ he := ⟨⟨(exec_control he).2, False.elim⟩, (exec_control he).1⟩
  env _ _ := env_control

theorem bracketed_follows (R : Rules) :
    (machine R).Follows (mainLocks True) Kernel.control fun o => o.bracketed = true where
  exec _ _ _ _ ho he := ⟨⟨(exec_control he).2, fun _ => ho⟩, (exec_control he).1⟩
  env _ _ := env_control

/-- A program of the main context gives back the locks of the handler with interrupts on, however they are taken. -/
theorem triple_clear {R : Rules} {α : Type} {p : KProg α} (h : Disciplined False p) :
    (machine R).Triple (fun s => s.control.Clear) p fun _ s => s.control.Clear :=
  fun _ hf _ _ hr => ((mainLocks_follows R).runs (fun _ => trivial) hr (h _ hf)).2

theorem clear_stable (R : Rules) : (machine R).Stable fun s => s.control.Clear := by
  intro s s' hc he
  show s'.control.Clear
  rw [env_control he]
  exact hc

theorem powerOn_clear {s : Kernel} (h : PowerOn s) : s.control.Clear := ⟨fun l _ => h.held l, h.ints⟩

/-- Between the calls of the main context interrupts are on and the locks of the handler are free. -/
theorem session_clear {R : Rules} {hist : List (Machine.Return Kernel MainCall.Result)} {s : Kernel}
    (h : UsbSession R hist s) : s.control.Clear :=
  h.invariant (fun _ => powerOn_clear) (clear_stable R) fun i => triple_clear (prog_disciplined i)

section Run

variable {R : Rules} {s : Kernel} {i : MainCall} {c : KProg i.Result × Kernel} {ds : List (Performed Op Ret)}

/-- A run that takes the locks of the handler at bracketed sites only holds them with interrupts off. -/
theorem bracketed_safe (hc : s.control.Clear) (hd : (machine R).Does (i.prog, s) ds c)
    (hb : ∀ d ∈ ds, d.op.bracketed = true) : c.2.control.Safe :=
  ((bracketed_follows R).does hd hb (prog_disciplined i _ hc)).safe trivial

/-- Interrupts are on where a run comes to a site that is not bracketed. -/
theorem unbracketed_ints (hc : s.control.Clear) {o : Op} {k : Ret o → KProg i.Result} {s' : Kernel}
    (hd : (machine R).Does (i.prog, s) ds (.op o k, s')) (ho : o.bracketed = false) : s'.ints = true := by
  have ht := (mainLocks_follows R).does hd (fun _ _ => trivial) (prog_disciplined i _ hc)
  refine ht.2.1.resolve_left ?_
  rw [ho]
  exact Bool.false_ne_true

/-- Right after it the lock is held, and interrupts are still on. -/
theorem unbracketed_unsafe {o : Op} {s s' : Kernel} {r : Ret o} (he : s.exec o = some (r, s'))
    (ho : o.bracketed = false) (hi : s.ints = true) : ¬ s'.control.Safe := by
  cases o
  case lock l site =>
    have hl : l ≠ .activePorts := by
      rintro rfl
      cases ho
    intro hsafe
    have hc : s'.control = Control.next (.lock l site) s.control := (exec_control he).1
    have hoff := hsafe l hl (by rw [hc]; exact Function.update_self ..)
    rw [hc] at hoff
    exact Bool.false_ne_true (hoff.symm.trans hi)
  all_goals cases ho

end Run

/-- Take any run of a call of the main context, in any session, up to any point. Interrupts are off in all its states
in which a lock is held that the handler takes too if and only if the run took these locks only at the sites that
`cli` stands before: the handler never finds one of them held by the code it interrupted. -/
theorem no_self_deadlock_iff {R : Rules} {hist : List (Machine.Return Kernel MainCall.Result)} {s : Kernel}
    {i : MainCall} {c : KProg i.Result × Kernel} {ds : List (Performed Op Ret)} (h : UsbSession R hist s)
    (hd : (machine R).Does (i.prog, s) ds c) :
    (∀ ds₁ ds₂ c₁, ds = ds₁ ++ ds₂ → (machine R).Does (i.prog, s) ds₁ c₁ → (machine R).Does c₁ ds₂ c →
      ∀ l, l ≠ .activePorts → c₁.2.held l = true → c₁.2.ints = false) ↔ ∀ d ∈ ds, d.op.bracketed = true := by
  have hc := session_clear h
  constructor
  · intro hsafe d hm
    obtain ⟨ds₁, ds₂, rfl⟩ := List.append_of_mem hm
    -- the states right before and right after this operation
    obtain ⟨k, s₁, s₂, h₁, ha, he, h₂⟩ := hd.at_op
    by_contra hnb
    have hb := Bool.eq_false_of_not_eq_true hnb
    refine unbracketed_unsafe he hb (unbracketed_ints hc h₁ hb) ?_
    exact hsafe (ds₁ ++ [d]) ds₂ _ (by simp) (h₁.trans (.op ha he (.refl _))) h₂
  · rintro hb ds₁ ds₂ c₁ rfl h₁ -
    exact bracketed_safe hc h₁ fun d hm => hb d (List.mem_append_left _ hm)

/-- `no_self_deadlock_iff` inside `enable_slot`: the lock is held and interrupts are off. -/
theorem no_self_deadlock_iff_enableSlot :
    ∃ (ds : List (Performed Op Ret)) (c : KProg MainCall.enableSlot.Result × Kernel),
      (machine Rules.any).Does (MainCall.enableSlot.prog, Kernel.start 1 fun _ => ⟨false, false, 0, 0⟩) ds c ∧
      ds.map (·.op.bracketed) = [true, true, true] ∧ c.2.held .xhci = true ∧ c.2.ints = false := by
  have hs : UsbSession Rules.any [] (Kernel.start 1 fun _ => ⟨false, false, 0, 0⟩) :=
    .boot (powerOn_start (by decide) _ fun _ => rfl)
  -- clear `COMPLETION_PENDING`, `cli`, take the lock
  have hd : (machine Rules.any).Does (MainCall.enableSlot.prog, Kernel.start 1 fun _ => ⟨false, false, 0, 0⟩) _ _ :=
    .op trivial rfl (.op trivial rfl (.op trivial rfl (.refl _)))
  refine ⟨_, _, hd, rfl, rfl,
    (no_self_deadlock_iff hs hd).2 ?_ _ [] _ (List.append_nil _).symm hd (.refl _) .xhci nofun rfl⟩
  intro d hm
  simp only [List.mem_cons, List.not_mem_nil, or_false] at hm
  rcases hm with rfl | rfl | rfl <;> rfl

/-- The first step of `discover_and_init_hid_devices` takes `XHCI_INSTANCE` with interrupts on, and
a handler that runs then never gets it. -/
theorem discover_deadlock :
    ∃ (p : KProg Unit) (s' : Kernel), UsbSession Rules.any [] (Kernel.start 1 fun _ => ⟨false, false, 0, 0⟩) ∧
      (machine Rules.any).Runs (MainCall.discoverAndInitHidDevices.prog, Kernel.start 1 fun _ => ⟨false, false, 0, 0⟩)
        (p, s') ∧
      s'.held .xhci = true ∧ s'.ints = true ∧ runToEnd interruptHandler s' = none := by
  have hp : play Rules.any [.op] (MainCall.discoverAndInitHidDevices.prog,
    Kernel.start 1 fun _ => ⟨false, false, 0, 0⟩) =
    some _ := rfl
  exact ⟨_, _, .boot (powerOn_start (by decide) _ fun _ => rfl), play_sound hp, rfl, rfl, rfl⟩

end Octagram.Usb

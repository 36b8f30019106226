/-
Vector 44 and Event Handler Busy, from the write of USBCMD in `start_controller` on: the handler and
the main context run step by step, and the controller raises the interrupt while EHB is 0. EHB is
only left set with nobody to clear it if vector 44 is taken before `XHCI_INSTANCE` is set
(`no_interrupt_swallowed`): otherwise every interrupt that is raised has an event to act on, at
whose end ERDP is written. The invariant is `Serving`, with `Posted` while the handler does not run;
once swallowed, an interrupt stays so (`framed_swallowed`).
-/
import Octagram.Usb.Setup

namespace Octagram.Usb

open Octagram.Lib

/-! ## Definitions -/

/-- The kernel; Host Controller Halted; Event Handler Busy; whether vector 44 is pending at the CPU;
and, while the handler runs, what is left of it. -/
structure Interrupter where
  kernel : Kernel
  hch : Bool
  ehb : Bool
  pending : Bool
  handler : Option (KProg Unit)

/-- The operations of the main context: the last part of the boot has two of its own, a read of
`USBSTS` (HCH) and `XHCI_INSTANCE.call_once`. -/
inductive BootOp
  | readUsbsts | publish (x : XHCI) | usb (o : Op)

/-- What an operation answers. -/
@[reducible] def BootRet : BootOp → Type
  | .readUsbsts => Bool
  | .publish _ => Unit
  | .usb o => Ret o

/-- Programs over the operations. -/
abbrev BootProg := Prog BootOp BootRet

/-- A program of the USB code as part of the boot. -/
def usb {α : Type} : KProg α → BootProg α
  | .ret a => .ret a
  | .op o k => .op (.usb o) fun r => usb (k r)

/-- The number of reads in the wait loop of `start_controller`. -/
@[irreducible] def START_TIMEOUT : Nat := 1000000

/-- `start_controller` after the write of USBCMD. -/
def startController : Nat → BootProg Unit
  | 0 => pure ()
  | n + 1 => do
    if ← Prog.call BootOp.readUsbsts then
      startController n
    else
      pure ()

/-- `scan_ports`, which prints what it finds. -/
def printPorts : KProg Unit := do
  let n ← maxPorts
  let _ ← scanPorts 0 n
  pure ()

/-- `init_xhci_controller` after the write of USBCMD, when MSI-X is enabled. -/
def initXhciController (x : XHCI) : BootProg Unit := do
  startController START_TIMEOUT
  usb printPorts
  Prog.call (BootOp.publish x)
  usb discoverAndInitHidDevices

/-- `hcf`: the idle loop, that many times. -/
def idle : Nat → BootProg Unit
  | 0 => pure ()
  | n + 1 => do
    usb pollHotplug
    idle n

/-- The main context. -/
def mainContext (x : XHCI) (rounds : Nat) : BootProg Unit := do
  initXhciController x
  idle rounds

namespace Interrupter

/-- The main context waits while the handler runs. -/
def exec (o : BootOp) (s : Interrupter) : Option (BootRet o × Interrupter) :=
  match s.handler with
  | some _ => none
  | none =>
    match o with
    | .readUsbsts => some (s.hch, s)
    | .publish x => some ((), { s with kernel := { s.kernel with xhci := some x } })
    | .usb o => (s.kernel.exec o).map fun r => (r.1, { s with kernel := r.2 })

end Interrupter

/-- `poll_event_ring` writes ERDP, with the bit that clears EHB, after it acted on an event; without one
it returns early. -/
def Op.acknowledges (s : Kernel) : Op → Bool
  | .pollEventRing => !s.hw.events.isEmpty
  | _ => false

/-- A step of the controller, or of the handler; `early`: the interrupt is also taken while
`XHCI_INSTANCE` is not set. -/
inductive BootEnv (early : Prop) : Interrupter → Interrupter → Prop
  | run {s : Interrupter} : BootEnv early s { s with hch := false }
  | device {s : Interrupter} (k : Kernel) (h : DeviceStep s.kernel k) : BootEnv early s { s with kernel := k }
  | raise {s : Interrupter} (he : s.kernel.hw.events ≠ []) (hb : s.ehb = false) :
      BootEnv early s { s with ehb := true, pending := true }
  | take {s : Interrupter} (hp : s.pending = true) (hi : s.kernel.ints = true) (hn : s.handler = none)
      (hx : early ∨ s.kernel.xhci.isSome = true) :
      BootEnv early s { s with pending := false, handler := some interruptHandler }
  | handler {s : Interrupter} {o : Op} {k : Ret o → KProg Unit} {r : Ret o} {s' : Kernel}
      (hh : s.handler = some (.op o k)) (he : s.kernel.exec o = some (r, s')) :
      BootEnv early s { s with kernel := s', handler := some (k r), ehb := s.ehb && !o.acknowledges s.kernel }
  | iret {s : Interrupter} (hh : s.handler = some (.ret ())) : BootEnv early s { s with handler := none }

/-- The machine of the boot. -/
def bootMachine (early : Prop) : Machine BootOp BootRet Interrupter where
  exec o s := s.exec o
  env := BootEnv early
  allowed _ _ := True

/-- Right after the write of USBCMD: `XHCI_INSTANCE` is not set, and the reset has cleared EHB. -/
structure Started (s : Interrupter) : Prop where
  xhci : s.kernel.xhci = none
  ints : s.kernel.ints = true
  ehb : s.ehb = false
  pending : s.pending = false
  handler : s.handler = none

/-- EHB is set only while the interrupt is pending or the handler runs. -/
def Interrupter.Answered (s : Interrupter) : Prop := s.ehb = true → s.pending = true ∨ s.handler.isSome = true

/-- EHB is set, and nobody is left to clear it. -/
def Interrupter.Swallowed (s : Interrupter) : Prop := s.ehb = true ∧ s.pending = false ∧ s.handler = none

/-! ## Programs -/

/-- Every operation of the USB code in a program satisfies `φ`. -/
theorem usb_all {α : Type} {φ : Op → Prop} {ψ : BootOp → Prop} {p : KProg α} (hp : p.All φ)
    (h : ∀ o, φ o → ψ (.usb o)) : (usb p).All ψ := by
  induction p with
  | ret a => trivial
  | op o k ih => exact ⟨h o hp.1, fun r => ih r (hp.2 r)⟩

/-- The main context does not poll the event ring. -/
def BootOp.Quiet (o : BootOp) : Prop := o ≠ .usb .pollEventRing

theorem startController_quiet (n : Nat) : (startController n).All BootOp.Quiet := by
  induction n with
  | zero => trivial
  | succ n ih =>
    refine ⟨nofun, fun b => ?_⟩
    cases b with
    | true => exact ih
    | false => trivial

theorem quiet_of_sync {o : Op} (h : o.sync = true) : (BootOp.usb o).Quiet := by
  intro he
  cases he
  cases h

theorem idle_quiet (n : Nat) : (idle n).All BootOp.Quiet := by
  have hdiscover : (usb discoverAndInitHidDevices).All BootOp.Quiet :=
    usb_all discoverAndInitHidDevices_ops fun _ => quiet_of_sync
  have hpoll : (usb pollHotplug).All BootOp.Quiet := by
    refine ⟨nofun, fun b => ?_⟩
    cases b with
    | false => trivial
    | true =>
      refine ⟨nofun, fun b => ?_⟩
      cases b with
      | false => trivial
      | true => exact hdiscover
  induction n with
  | zero => trivial
  | succ n ih => exact hpoll.bind fun _ => ih

theorem mainContext_quiet (x : XHCI) (rounds : Nat) : (mainContext x rounds).All BootOp.Quiet := by
  have hprint : printPorts.All fun o => o.sync = true :=
    all_act rfl fun n => (scanPorts_all (fun _ => rfl) 0 n).bind fun _ => trivial
  have hinit : (initXhciController x).All BootOp.Quiet :=
    (startController_quiet _).bind fun _ => (usb_all hprint fun _ => quiet_of_sync).bind fun _ =>
      ⟨nofun, fun _ => usb_all discoverAndInitHidDevices_ops fun _ => quiet_of_sync⟩
  exact hinit.bind fun _ => idle_quiet rounds

/-! ## The invariant -/

/-- The handler before it comes to write ERDP. -/
inductive Unacknowledged : KProg Unit → Prop
  | entry : Unacknowledged interruptHandler
  | locking : Unacknowledged (.op (.lock .xhci .interruptHandler) fun _ => .op .pollEventRing fun _ =>
      .op (.unlock .xhci) fun _ => pollKeyboard >>= fun _ => pollMouse)
  | polling : Unacknowledged (.op .pollEventRing fun _ => .op (.unlock .xhci) fun _ => pollKeyboard >>=
      fun _ => pollMouse)

/-- EHB is set exactly while the interrupt is pending, for an event that nobody has read. -/
structure Posted (s : Interrupter) : Prop where
  pending : s.pending = s.ehb
  events : s.ehb = true → s.kernel.hw.events ≠ []

/-- The handler does not run; or it runs for the interrupt that set EHB, and there is an event for it to
act on; or it has done that. -/
inductive Serving (s : Interrupter) : Prop
  | idle (hn : s.handler = none) (h : Posted s)
  | before {p : KProg Unit} (hh : s.handler = some p) (hu : Unacknowledged p) (hx : s.kernel.xhci.isSome = true)
      (he : s.kernel.hw.events ≠ []) (hp : s.pending = false) (hb : s.ehb = true)
  | after {p : KProg Unit} (hh : s.handler = some p) (hp : p.All (· ≠ .pollEventRing)) (h : Posted s)

section Steps

variable {s s' : Interrupter}

theorem device_events {k k' : Kernel} (h : DeviceStep k k') : k.hw.events <+: k'.hw.events := by
  obtain ⟨-, h⟩ := h
  generalize hs : { k with ints := false } = t at h
  generalize hs' : { k' with ints := false } = t' at h
  have hk : k.hw.events = t.hw.events := by rw [← hs]
  have hk' : k'.hw.events = t'.hw.events := by rw [← hs']
  rw [hk, hk']
  cases h with
  | interrupt hi =>
    rw [← hs] at hi
    cases hi
  | answer | complete => exact List.prefix_append _ _
  | connect | disconnect =>
    show _ <+: ite _ _ _
    split
    · exact List.prefix_rfl
    · exact List.prefix_append _ _
  | dma => exact List.prefix_rfl

theorem device_xhci {k k' : Kernel} (h : DeviceStep k k') : k'.xhci = k.xhci := (env_unmoved h.2).xhci

theorem Posted.grow (h : Posted s) (hp : s'.pending = s.pending) (hb : s'.ehb = s.ehb)
    (he : s.kernel.hw.events <+: s'.kernel.hw.events) : Posted s' := by
  refine ⟨by rw [hp, hb, h.pending], fun hs hn => ?_⟩
  rw [hn, List.prefix_nil] at he
  exact h.events (hb ▸ hs) he

/-- The drivers' part of the handler does not poll. -/
theorem drivers_quiet : (pollKeyboard >>= fun _ => pollMouse).All (· ≠ .pollEventRing) := by
  have hd : (pollKeyboard >>= fun _ => pollMouse).All fun o => o.driver = true :=
    (pollDriver_driver .keyboard handleKeyboardReport_report).bind fun _ =>
      pollDriver_driver .mouse handleMouseReport_report
  refine hd.mono ?_
  rintro o ho rfl
  cases ho

/-- A step of the handler. -/
theorem serving_handler {o : Op} {k : Ret o → KProg Unit} {r : Ret o} {t : Kernel} (h : Serving s)
    (hh : s.handler = some (.op o k)) (he : s.kernel.exec o = some (r, t)) :
    Serving { s with kernel := t, handler := some (k r), ehb := s.ehb && !o.acknowledges s.kernel } := by
  have hother : o ≠ .pollEventRing → (s.ehb && !o.acknowledges s.kernel) = s.ehb ∧
    t.hw.events = s.kernel.hw.events := by
    intro ho
    refine ⟨?_, ((exec_keeps he).events ho).1⟩
    cases o <;> first | exact absurd rfl ho | exact Bool.and_true _
  cases h with
  | idle hn =>
    rw [hn] at hh
    cases hh
  -- up to the poll the event is still there; the poll acts on it and writes ERDP
  | before hh' hu hx hev hp hb =>
    obtain rfl := Option.some.inj (hh'.symm.trans hh)
    have hx' : t.xhci.isSome = true := (exec_keeps he).xhci.trans hx
    generalize hq : (Prog.op o k : KProg Unit) = q at hu
    cases hu with
    | entry =>
      cases hq
      obtain ⟨hb', hev'⟩ := hother nofun
      have hr : r = s.kernel.xhci.isSome := by cases he; rfl
      rw [hr, hx]
      refine .before rfl .locking hx' ?_ hp (hb'.trans hb)
      rw [hev']
      exact hev
    | locking =>
      cases hq
      obtain ⟨hb', hev'⟩ := hother nofun
      refine .before rfl .polling hx' ?_ hp (hb'.trans hb)
      rw [hev']
      exact hev
    | polling =>
      cases hq
      have hack : (s.ehb && !Op.acknowledges s.kernel .pollEventRing) = false := by
        show (s.ehb && !!s.kernel.hw.events.isEmpty) = false
        rw [Bool.not_not, List.isEmpty_eq_false_iff.2 hev, Bool.and_false]
      refine .after rfl ⟨nofun, fun _ => drivers_quiet⟩ ⟨?_, fun hs => ?_⟩
      · exact hp.trans hack.symm
      · rw [hack] at hs
        cases hs
  | after hh' hp hposted =>
    obtain rfl := Option.some.inj (hh'.symm.trans hh)
    obtain ⟨hb', hev'⟩ := hother hp.1
    exact .after rfl (hp.2 r) (hposted.grow rfl hb' (by rw [hev']))

theorem serving_env (h : Serving s) (he : BootEnv False s s') : Serving s' := by
  cases he with
  | run =>
    cases h with
    | idle hn h => exact .idle hn ⟨h.pending, h.events⟩
    | before hh hu hx hev hp hb => exact .before hh hu hx hev hp hb
    | after hh hp h => exact .after hh hp ⟨h.pending, h.events⟩
  | device k hd =>
    have hev := device_events hd
    cases h with
    | idle hn h => exact .idle hn (h.grow rfl rfl hev)
    | before hh hu hx hev' hp hb =>
      refine .before hh hu ?_ (fun hn => ?_) hp hb
      · rw [device_xhci hd]
        exact hx
      · change k.hw.events = [] at hn
        rw [hn, List.prefix_nil] at hev
        exact hev' hev
    | after hh hp h => exact .after hh hp (h.grow rfl rfl hev)
  -- an interrupt is only raised with EHB clear and an event to act on
  | raise hev hb =>
    cases h with
    | idle hn _ => exact .idle hn ⟨rfl, fun _ => hev⟩
    | before hh hu hx hev' hp hb' =>
      rw [hb] at hb'
      cases hb'
    | after hh hp _ => exact .after hh hp ⟨rfl, fun _ => hev⟩
  -- it is taken with `XHCI_INSTANCE` set, so the handler gets to its poll
  | take hp hi hn hx =>
    have hx' := hx.resolve_left id
    cases h with
    | idle _ h => exact .before rfl .entry hx' (h.events (h.pending ▸ hp)) rfl (h.pending ▸ hp)
    | before hh | after hh =>
      rw [hn] at hh
      cases hh
  | handler hh he => exact serving_handler h hh he
  | iret hh =>
    cases h with
    | idle hn =>
      rw [hn] at hh
      cases hh
    | before hh' hu =>
      obtain rfl := Option.some.inj (hh'.symm.trans hh)
      exact nomatch hu
    | after _ _ h => exact .idle rfl ⟨h.pending, h.events⟩

/-- A step of the main context: the handler does not run, and no event is read. -/
theorem exec_idle {o : BootOp} {r : BootRet o} (ho : o.Quiet) (he : s.exec o = some (r, s')) :
    s.handler = none ∧ s'.handler = none ∧ s'.ehb = s.ehb ∧ s'.pending = s.pending ∧
      s'.kernel.hw.events = s.kernel.hw.events := by
  unfold Interrupter.exec at he
  split at he
  · cases he
  · rename_i hn
    cases o with
    | readUsbsts | publish =>
      cases he
      exact ⟨hn, hn, rfl, rfl, rfl⟩
    | usb o =>
      obtain ⟨⟨r', t⟩, he', heq⟩ := Option.map_eq_some_iff.1 he
      cases heq
      exact ⟨hn, hn, rfl, rfl, ((exec_keeps he').events fun ho' => ho (by rw [ho'])).1⟩

theorem framed_serving : (bootMachine False).Framed BootOp.Quiet Serving where
  stable _ _ h he := serving_env h he
  frame o s r s' ho _ he h := by
    obtain ⟨hn, hn', hb, hp, hev⟩ := exec_idle ho he
    cases h with
    | idle _ h => exact .idle hn' (h.grow hp hb (by rw [hev]))
    | before hh | after hh =>
      rw [hn] at hh
      cases hh

/-! ## Swallowed interrupts -/

/-- A swallowed interrupt stays swallowed: the controller raises no other while EHB is set. -/
theorem framed_swallowed (early : Prop) : (bootMachine early).Framed BootOp.Quiet Interrupter.Swallowed where
  stable s s' h he := by
    obtain ⟨hb, hp, hn⟩ := h
    cases he with
    | run | device => exact ⟨hb, hp, hn⟩
    | raise _ hb' =>
      rw [hb] at hb'
      cases hb'
    | take hp' =>
      rw [hp] at hp'
      cases hp'
    | handler hh | iret hh =>
      rw [hn] at hh
      cases hh
  frame o s r s' ho _ he h := by
    obtain ⟨-, hn, hb, hp, -⟩ := exec_idle ho he
    exact ⟨hb.trans h.1, hp.trans h.2.1, hn⟩

/-- The handler runs with `XHCI_INSTANCE` not set: it will not write ERDP. -/
inductive Deaf (s : Interrupter) : Prop
  | running {p : KProg Unit} (hh : s.handler = some p) (hp : p = interruptHandler ∨ p.All (· ≠ .pollEventRing))
      (hx : s.kernel.xhci = none) (hb : s.ehb = true) (hpend : s.pending = false)
  | done (h : s.Swallowed)

/-- What the handler does when it is taken too early: nothing about the interrupt. -/
theorem framed_deaf (early : Prop) : (bootMachine early).Framed BootOp.Quiet Deaf where
  stable s s' h he := by
    cases h with
    | done h => exact .done ((framed_swallowed early).stable s s' h he)
    | running hh hp hx hb hpend =>
      cases he with
      | run => exact .running hh hp hx hb hpend
      | device k hd => exact .running hh hp ((device_xhci hd).trans hx) hb hpend
      | raise _ hb' =>
        rw [hb] at hb'
        cases hb'
      | take hp' =>
        rw [hpend] at hp'
        cases hp'
      | iret => exact .done ⟨hb, hpend, rfl⟩
      | @handler o k r t hh' he =>
        obtain rfl := Option.some.inj (hh.symm.trans hh')
        have hx' : t.xhci = none := by
          have := (exec_keeps he).xhci
          rw [hx] at this
          exact Option.isNone_iff_eq_none.1 (by rw [← Option.not_isSome, this]; rfl)
        -- without an instance the handler leaves out the poll, so nothing it does clears EHB
        rcases hp with hp | hp
        · cases hp
          have hr : r = s.kernel.xhci.isSome := by cases he; rfl
          rw [hr, hx]
          refine .running rfl (.inr drivers_quiet) hx' ?_ hpend
          rw [hb]
          rfl
        · refine .running rfl (.inr (hp.2 r)) hx' ?_ hpend
          rw [hb]
          have ho := hp.1
          cases o <;> first | exact absurd rfl ho | rfl
  frame o s r s' ho ha he h := by
    cases h with
    | done h => exact .done ((framed_swallowed early).frame o s r s' ho ha he h)
    | running hh =>
      rw [(exec_idle ho he).1] at hh
      cases hh

end Steps

/-! ## The boot -/

variable {x : XHCI} {rounds : Nat} {s₀ : Interrupter} {c : BootProg Unit × Interrupter}

/-- An interrupt that is taken before `XHCI_INSTANCE` is set is swallowed: from then on EHB is set and
no interrupt comes, once the handler has returned. -/
theorem early_interrupt_swallowed {early : Prop} {p : BootProg Unit} (hq : p.All BootOp.Quiet) {s : Interrupter}
    (hh : s.handler = some interruptHandler) (hx : s.kernel.xhci = none) (hb : s.ehb = true) (hp : s.pending = false)
    (hr : (bootMachine early).Runs (p, s) c) : c.2.handler = none → c.2.Swallowed := by
  have hdeaf : Deaf c.2 := (framed_deaf early).throughout hq (fun _ h => h) s (.running hh (.inl rfl) hx hb hp) c hr
  intro hn
  cases hdeaf with
  | done h => exact h
  | running hh' =>
    rw [hn] at hh'
    cases hh'

/-- The handler runs to its end without a poll. -/
theorem runs_handler {early : Prop} (q : BootProg Unit) {p : KProg Unit} (hp : p.All (· ≠ .pollEventRing))
    {k k' : Kernel} (hr : runToEnd p k = some ((), k')) (hch ehb pending : Bool) :
    (bootMachine early).Runs (q, ⟨k, hch, ehb, pending, some p⟩) (q, ⟨k', hch, ehb, pending, none⟩) := by
  induction p generalizing k with
  | ret a =>
    cases hr
    exact .single (.env (.iret rfl))
  | op o f ih =>
    rw [runToEnd_op, Option.bind_eq_some_iff] at hr
    obtain ⟨⟨r, t⟩, he, hr⟩ := hr
    have hstep : BootEnv early ⟨k, hch, ehb, pending, some (.op o f)⟩ ⟨t, hch, ehb && !o.acknowledges k, pending,
      some (f r)⟩ :=
      .handler rfl he
    have hack : (ehb && !o.acknowledges k) = ehb := by
      have ho := hp.1
      cases o <;> first | exact absurd rfl ho | exact Bool.and_true _
    rw [hack] at hstep
    exact .head (.env hstep) (ih r (hp.2 r) hr)

/-- A machine with one free port, right after the write of USBCMD. -/
def bootStart : Interrupter :=
  ⟨{ Kernel.start 1 fun _ => ⟨false, false, 0, 0⟩ with xhci := none }, true, false, false, none⟩

theorem started_bootStart : Started bootStart := ⟨rfl, rfl, rfl, rfl, rfl⟩

/-- A device was plugged in. -/
def bootPlugged : Kernel :=
  { bootStart.kernel with hw := bootStart.kernel.hw.portChange 0 ⟨true, true, 3, 1⟩ ⟨0, 0, 34#32 <<< 10⟩ }

/-- The controller starts, a device is plugged in, and vector 44 is raised for it. -/
theorem runs_raised (early : Prop) (p : BootProg Unit) :
    (bootMachine early).Runs (p, bootStart) (p, ⟨bootPlugged, false, true, true, none⟩) := by
  have hplug : DeviceStep bootStart.kernel bootPlugged := ⟨rfl, .connect 3 _ (by decide) (by decide) rfl trivial⟩
  refine .head (.env .run) (.head (.env (.device bootPlugged hplug)) (.single (.env (.raise ?_ rfl))))
  exact List.cons_ne_nil _ _

/-- While no interrupt is taken before `XHCI_INSTANCE` is set, EHB is never set without an interrupt
that is pending or handled. -/
theorem no_interrupt_swallowed (h₀ : Started s₀) (hr : (bootMachine False).Runs (mainContext x rounds, s₀) c) :
    c.2.Answered := by
  have hserving : Serving s₀ := by
    refine .idle h₀.handler ⟨h₀.pending.trans h₀.ehb.symm, fun hb => ?_⟩
    rw [h₀.ehb] at hb
    cases hb
  refine framed_serving.throughout (mainContext_quiet x rounds) (fun s hs => ?_) s₀ hserving c hr
  intro hb
  cases hs with
  | idle _ h => exact .inl (h.pending.trans hb)
  | before hh | after hh => exact .inr (by rw [hh]; rfl)

/-- `no_interrupt_swallowed` when the first port event is posted. -/
theorem no_interrupt_swallowed_raised :
    ∃ x c, (bootMachine False).Runs (mainContext x 1, bootStart) c ∧ c.2.ehb = true ∧ c.2.Answered :=
  ⟨⟨0, 0, 0, true, 0, 0, 0, true⟩, _, runs_raised False _, rfl,
    no_interrupt_swallowed started_bootStart (runs_raised False _)⟩

/-- The first port event can be posted, and its interrupt handled, before `XHCI_INSTANCE` is set: no
other interrupt comes. -/
theorem first_interrupt_swallowed :
    ¬ ∀ (x : XHCI) (rounds : Nat) (s₀ : Interrupter) (c : BootProg Unit × Interrupter), Started s₀ →
      (bootMachine True).Runs (mainContext x rounds, s₀) c → c.2.Answered := by
  intro hall
  let x : XHCI := ⟨0, 0, 0, true, 0, 0, 0, true⟩
  have htake : (bootMachine True).Runs (mainContext x 0, bootStart)
      (mainContext x 0, ⟨bootPlugged, false, true, false, some interruptHandler⟩) :=
    (runs_raised True _).tail (.env (.take rfl rfl rfl (.inl trivial)))
  -- the handler finds no instance, and the drivers no report
  have hdrivers : (bootMachine True).Runs (mainContext x 0, bootStart)
      (mainContext x 0, ⟨bootPlugged, false, true, false, some (pollKeyboard >>= fun _ => pollMouse)⟩) :=
    htake.tail (.env (.handler (o := .xhciIsSome) (k := fun b => if b = true then _ else _) rfl rfl))
  have hend := hdrivers.trans (runs_handler (mainContext x 0) drivers_quiet rfl false true false)
  rcases hall x 0 bootStart _ started_bootStart hend rfl with h | h
  · cases h
  · cases h

end Octagram.Usb

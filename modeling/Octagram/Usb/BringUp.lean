/-
How `init_xhci_controller` brings one controller up: what its steps leave alone (`SameRings`), and
what holds once the controller has its rings (`BroughtUp`): it posts its events to the segment of
the instance that `init_xhci` returns, takes its commands from the ring of this instance, and is
started. Of the surroundings it only matters that a step around one controller is one of `Env` or
nothing (`part_env`), so that the USB code works on the controller of `XHCI_INSTANCE` as on the only
one (`component`).
-/
import Octagram.Usb.Controllers

namespace Octagram.Usb

open Octagram.Lib Octagram.Pci

/-! ## Parts -/

/-- A step of a controller or of a device is one of `Env`, and changes only the controller and what a device writes. -/
theorem deviceStep_env {s s' : Kernel} (h : DeviceStep s s') :
    Env Rules.any s s' ∧ s' = { s with hw := s'.hw, ram := s'.ram } := by
  obtain ⟨hi, h⟩ := h
  obtain ⟨b, u, u', rfl, rfl, hu, h⟩ :
    ∃ (b : Bool) (u u' : Kernel), s = { u with ints := b } ∧ s' = { u' with ints := b } ∧
      u.ints = false ∧ Env Rules.any u u' := by
    refine ⟨s.ints, { s with ints := false }, { s' with ints := false }, rfl, ?_, rfl, h⟩
    rw [← hi]
  cases h with
  | interrupt hi' =>
    rw [hu] at hi'
    cases hi'
  | answer t ht hid hc hslot hr => exact ⟨.answer t ht hid hc hslot trivial, rfl⟩
  | complete t ht hid hring hep => exact ⟨.complete t ht hid hring hep, rfl⟩
  | connect speed t ht hp hccs hr => exact ⟨.connect speed t ht hp hccs trivial, rfl⟩
  | disconnect t ht hp hccs hr => exact ⟨.disconnect t ht hp hccs trivial, rfl⟩
  | dma ram => exact ⟨.dma ram, rfl⟩

section Parts

variable {walk : Memory.Mem → BitVec 64 → Option (BitVec 64)} {s s' : Host} {dev e : PciDevice}

theorem part_modify (dev e : PciDevice) (f : HostController → HostController) (hhw : ∀ c, (f c).hw = c.hw)
    (hdcbaa : ∀ c, (f c).dcbaa = c.dcbaa) (s : Host) : (Host.part dev).get (s.modify e f) = (Host.part dev).get s := by
  unfold Host.part Host.modify
  by_cases h : dev = e
  · rw [h]
    simp [hhw, hdcbaa]
  · simp [h]

theorem part_other (h : dev ≠ e) (k : Kernel) (s : Host) : (Host.part dev).get ((Host.part e).put k s) =
    { k with hw := (s.controllers dev).hw, dcbaa := (s.controllers dev).dcbaa } := by
  unfold Host.part
  simp [h]

/-- What goes on around the controller of the instance is a step around the USB code, or nothing. -/
theorem part_env (s s' : Host) (howner : s.owner = dev) (h : (hostMachine walk).env s s') :
    s'.owner = dev ∧ (machine Rules.any).Waits ((Host.part dev).get s) ((Host.part dev).get s') := by
  cases h with
  | interrupt hi h =>
    refine ⟨howner, .single ?_⟩
    rw [howner] at h ⊢
    rw [Lens.get_put]
    exact .interrupt hi h
  | device e h =>
    refine ⟨howner, .single ?_⟩
    obtain ⟨henv, heq⟩ := deviceStep_env h
    by_cases he : dev = e
    · rw [he, Lens.get_put]
      exact henv
    · -- of another controller only what it writes to memory is seen
      rw [part_other he, heq]
      exact .dma _
  | status e halted ready =>
    have hget : (Host.part dev).get (s.modify e fun c => { c with halted := halted, ready := ready }) =
        (Host.part dev).get s := by
      apply part_modify
      · exact fun _ => rfl
      · exact fun _ => rfl
    rw [hget]
    exact ⟨howner, .refl⟩

/-- The USB code works on the controller of its instance as on the only one. -/
theorem component (dev : PciDevice) : (hostMachine walk).Component (machine Rules.any) (fun o => host (.usb o))
    (fun s => s.owner = dev) (Host.part dev).get where
  env := part_env
  calls o s r s' hs h := by
    obtain ⟨s₁, s₂, hw, -, he, hw'⟩ := Machine.runs_call_iff.1 h
    obtain ⟨hs₁, hw₁⟩ := Machine.waits_of_env part_env hw hs
    obtain ⟨⟨r', k⟩, hk, heq⟩ := Option.map_eq_some_iff.1 he
    cases heq
    rw [hs₁] at hk
    obtain ⟨hs', hw₂⟩ := Machine.waits_of_env part_env hw' hs₁
    rw [hs₁, Lens.get_put] at hw₂
    exact ⟨hs', Machine.runs_call_iff.2 ⟨_, k, hw₁, trivial, hk, hw₂⟩⟩

end Parts

/-! ## What most steps leave alone -/

/-- The instance and its rings, and what `init_xhci` wrote to the controllers. -/
structure SameRings (s s' : Host) : Prop where
  owner : s'.owner = s.owner
  eventRingVirt : s'.eventRingVirt = s.eventRingVirt
  hhdm : s'.kernel.hhdm = s.kernel.hhdm
  cmdRing : s'.kernel.xhci.map (·.cmdRingVirt) = s.kernel.xhci.map (·.cmdRingVirt)
  maxPorts : ∀ dev, (s'.controllers dev).hw.maxPorts = (s.controllers dev).hw.maxPorts
  run : ∀ dev, (s'.controllers dev).run = (s.controllers dev).run
  crcr : ∀ dev, (s'.controllers dev).crcr = (s.controllers dev).crcr
  eventRing : ∀ dev, (s'.controllers dev).eventRing = (s.controllers dev).eventRing

theorem SameRings.isSome {s s' : Host} (h : SameRings s s') : s'.kernel.xhci.isSome = s.kernel.xhci.isSome := by
  rw [← Option.isSome_map (f := (·.cmdRingVirt)), h.cmdRing, Option.isSome_map]

/-- The operations that are not a write to these. -/
def HostOp.quiet : HostOp → Bool
  | .writeRun _ _ | .writeCrcr _ _ | .writeErst _ _ | .publish _ => false
  | _ => true

/-- The operations that do not write the registry. -/
def HostOp.readsRegistry : HostOp → Bool
  | .through _ o => o.readsRegistry
  | .usb o => o.readsRegistry
  | _ => true

@[simp] theorem stepCmd_cmdRingVirt (x : XHCI) : (Kernel.stepCmd x).cmdRingVirt = x.cmdRingVirt := by
  unfold Kernel.stepCmd
  split <;> rfl

@[simp] theorem stepEp0_cmdRingVirt (x : XHCI) : (Kernel.stepEp0 x).cmdRingVirt = x.cmdRingVirt := by
  unfold Kernel.stepEp0
  split <;> rfl

/-- The command ring stays where it is. -/
theorem exec_cmdRing {o : Op} {s s' : Kernel} {r : Ret o} (h : s.exec o = some (r, s')) :
    s'.xhci.map (·.cmdRingVirt) = s.xhci.map (·.cmdRingVirt) := by
  cases o with
  | lock l site =>
    simp only [Kernel.exec] at h
    split at h
    · cases h
    · cases h
      rfl
  | getXhci =>
    obtain ⟨x, hx, he⟩ := Option.map_eq_some_iff.1 h
    cases he
    rfl
  | setEp0Ring virt phys =>
    obtain ⟨x, hx, he⟩ := Option.map_eq_some_iff.1 h
    cases he
    rw [hx]
    rfl
  | sendCommand | ep0EnqueueTrb =>
    obtain ⟨x, hx, he⟩ := Option.map_eq_some_iff.1 h
    cases he
    rw [hx]
    simp [Kernel.sendCommand, Kernel.ep0EnqueueTrb]
  | boxNew b =>
    cases h
    cases b <;> rfl
  | newDriver k | dropDriver k =>
    cases h
    cases k <;> rfl
  | enqueueReport k =>
    cases h
    show (s.enqueueReport k).xhci.map _ = _
    unfold Kernel.enqueueReport
    split
    · rfl
    · cases k <;> rfl
  | panic => cases h
  | _ =>
    cases h
    rfl

section SameRings

variable {walk : Memory.Mem → BitVec 64 → Option (BitVec 64)} {s s' : Host}

theorem sameRings_put (dev : PciDevice) {k : Kernel} (hhdm : k.hhdm = s.kernel.hhdm)
    (hring : k.xhci.map (·.cmdRingVirt) = s.kernel.xhci.map (·.cmdRingVirt))
    (hports : k.hw.maxPorts = (s.controllers dev).hw.maxPorts) : SameRings s ((Host.part dev).put k s) := by
  refine ⟨rfl, rfl, hhdm, hring, fun e => ?_, fun e => ?_, fun e => ?_, fun e => ?_⟩
  all_goals
    unfold Host.part
    by_cases h : e = dev
    · rw [h]
      simp [hports]
    · simp [h]

theorem sameRings_modify (dev : PciDevice) (f : HostController → HostController)
    (hports : ∀ c, (f c).hw.maxPorts = c.hw.maxPorts) (hrun : ∀ c, (f c).run = c.run)
    (hcrcr : ∀ c, (f c).crcr = c.crcr) (hring : ∀ c, (f c).eventRing = c.eventRing) :
    SameRings s (s.modify dev f) := by
  refine ⟨rfl, rfl, rfl, rfl, fun e => ?_, fun e => ?_, fun e => ?_, fun e => ?_⟩
  all_goals
    unfold Host.modify
    by_cases h : e = dev
    · rw [h]
      simp [hports, hrun, hcrcr, hring]
    · simp [h]

theorem sameRings_onPart {dev : PciDevice} {o : Op} {r : Ret o} (h : s.onPart dev o = some (r, s')) :
    SameRings s s' ∧ (o.readsRegistry = true → s'.kernel.activePorts = s.kernel.activePorts) := by
  obtain ⟨⟨r', k⟩, hk, heq⟩ := Option.map_eq_some_iff.1 h
  cases heq
  have hkeeps := exec_keeps hk
  have hring := exec_cmdRing (s := (Host.part dev).get s) hk
  refine ⟨sameRings_put dev hkeeps.hhdm hring hkeeps.maxPorts, fun ho => hkeeps.activePorts ?_⟩
  rintro l rfl
  cases ho

theorem sameRings_onPlatform {α : Type} {x : PlatformM α} {r : α} (h : s.onPlatform x = some (r, s')) :
    SameRings s s' ∧ s'.kernel = s.kernel := by
  unfold Host.onPlatform at h
  split at h
  · cases h
    exact ⟨⟨rfl, rfl, rfl, rfl, fun _ => rfl, fun _ => rfl, fun _ => rfl, fun _ => rfl⟩, rfl⟩
  · cases h

theorem env_sameRings (h : HostEnv s s') : SameRings s s' ∧ s'.kernel.activePorts = s.kernel.activePorts := by
  have hput : ∀ {dev : PciDevice} {k : Kernel}, Env Rules.any ((Host.part dev).get s) k →
      SameRings s ((Host.part dev).put k s) ∧ ((Host.part dev).put k s).kernel.activePorts = s.kernel.activePorts := by
    rintro dev k hk
    have hsame := env_unmoved hk
    exact ⟨sameRings_put dev hsame.hhdm (congrArg _ hsame.xhci) hsame.maxPorts, hsame.activePorts⟩
  cases h with
  | interrupt hi h => exact hput (.interrupt hi h)
  | device dev h => exact hput (deviceStep_env h).1
  | status dev halted ready =>
    refine ⟨?_, rfl⟩
    apply sameRings_modify <;> exact fun _ => rfl

theorem exec_sameRings {o : HostOp} {r : HostRet o} (ho : o.quiet = true) (h : Host.exec walk o s = some (r, s')) :
    SameRings s s' ∧ (o.readsRegistry = true → s'.kernel.activePorts = s.kernel.activePorts) := by
  cases o with
  | findUsbControllers | enableDevice | getBar0 | newController | setupMsix =>
    obtain ⟨hs, hk⟩ := sameRings_onPlatform h
    exact ⟨hs, fun _ => by rw [hk]⟩
  | writeRun | writeCrcr | writeErst | publish => cases ho
  | readHalted =>
    cases h
    exact ⟨⟨rfl, rfl, rfl, rfl, fun _ => rfl, fun _ => rfl, fun _ => rfl, fun _ => rfl⟩, fun _ => rfl⟩
  | awaitHalted | awaitReady =>
    simp only [Host.exec] at h
    split at h
    · cases h
      exact ⟨⟨rfl, rfl, rfl, rfl, fun _ => rfl, fun _ => rfl, fun _ => rfl, fun _ => rfl⟩, fun _ => rfl⟩
    · cases h
  | reset | writeDcbaap =>
    cases h
    refine ⟨?_, fun _ => rfl⟩
    apply sameRings_modify <;> exact fun _ => rfl
  | through dev o => exact sameRings_onPart h
  | pollForever => cases h
  | usb o => exact sameRings_onPart h

/-- What these steps keep. -/
theorem framed_sameRings {P : Host → Prop} (hP : ∀ s s', SameRings s s' → P s → P s') :
    (hostMachine walk).Framed (fun o => o.quiet = true) P where
  stable s s' h he := hP s s' (env_sameRings he).1 h
  frame _ s _ s' ho _ he h := hP s s' (exec_sameRings ho he).1 h

end SameRings

/-! ## One controller is brought up -/

/-- The operations that bring this controller up. -/
def HostOp.Initialises (dev : PciDevice) (o : HostOp) : Prop :=
  o.readsRegistry = true ∧ match o with
  | .writeRun d _ | .writeCrcr d _ | .writeErst d _ => d = dev
  | .publish _ => False
  | _ => True

/-- `init_xhci_controller` up to the branch on `msix_ok`. -/
def bringUp (ctrl : PciDevice) : HostProg (Bool × Instance) := do
  host (.enableDevice ctrl)
  let bar ← host (.getBar0 ctrl)
  let virtBase ← host (.newController bar ctrl)
  let msixOk ← host (.setupMsix virtBase ctrl 44#8 0#8)
  let xhciDev ← initXhci (Instance.new ctrl)
  onRegisters ctrl printPorts
  pure (msixOk, xhciDev)

/-- This branch. -/
def publishOrPoll (msixOk : Bool) (xhciDev : Instance) : HostProg Unit :=
  if msixOk then do
    host (.publish xhciDev)
    onInstance discoverAndInitHidDevices
  else do
    let never ← host (.pollForever xhciDev)
    never.elim

theorem initXhciController_eq (ctrl : PciDevice) :
    Host.initXhciController ctrl = bringUp ctrl >>= fun r => publishOrPoll r.1 r.2 := by
  unfold Host.initXhciController bringUp publishOrPoll
  simp only [Prog.call_bind, Prog.bind_bind, Prog.op_bind, Prog.pure_eq, Prog.ret_bind]

section BringUp

variable {walk : Memory.Mem → BitVec 64 → Option (BitVec 64)} {s s' : Host} {P : Host → Prop} {dev : PciDevice}

/-- What the host's memory map says of the two addresses. -/
def Host.PhysOf (s : Host) (virt phys : Nat) : Prop := s.kernel.hhdm.map (virt - ·) = some phys

theorem SameRings.postsTo {virt : Nat} (h : SameRings s s') (hp : s.PostsTo dev virt) : s'.PostsTo dev virt := by
  unfold Host.PostsTo
  rw [h.hhdm, h.eventRing]
  exact hp

theorem SameRings.takesFrom {virt : Nat} (h : SameRings s s') (hp : s.TakesFrom dev virt) : s'.TakesFrom dev virt := by
  unfold Host.TakesFrom
  rw [h.hhdm, h.crcr]
  exact hp

theorem SameRings.physOf {virt phys : Nat} (h : SameRings s s') (hp : s.PhysOf virt phys) : s'.PhysOf virt phys := by
  unfold Host.PhysOf
  rw [h.hhdm]
  exact hp

/-- The operations between two writes. -/
def HostOp.Plain (o : HostOp) : Prop := o.quiet = true ∧ o.readsRegistry = true

theorem initialises_of_plain {o : HostOp} (h : o.Plain) : o.Initialises dev := by
  refine ⟨h.2, ?_⟩
  have hq := h.1
  cases o <;> trivial

/-- What the operations between two writes keep, with what they do not touch anyway. -/
theorem framed_plain {Q : Host → Prop} (hP : (hostMachine walk).Framed HostOp.Plain P)
    (hQ : ∀ s s', SameRings s s' → Q s → Q s') : (hostMachine walk).Framed HostOp.Plain fun s => P s ∧ Q s :=
  hP.and ((framed_sameRings hQ).mono fun _ ho => ho.1)

theorem triple_panic {α : Type} (message : String) (Q : α → Host → Prop) :
    (hostMachine walk).Triple P (onInstance (panic message)) Q := by
  intro s _ a s' hr
  obtain ⟨s₁, r, s₂, -, -, he, -⟩ := (Machine.stable_waits s).runs_op (o := HostOp.usb (.panic message)) hr .refl
  cases he

/-- `Box::new` and `virtual_to_physical`. -/
theorem newBox_physOf (hP : (hostMachine walk).Framed HostOp.Plain P) (size : Nat) :
    (hostMachine walk).Triple P (newBox size) fun r s => P s ∧ s.PhysOf r.1 r.2 := by
  refine hP.act ⟨rfl, rfl⟩ fun virt => ?_
  refine Machine.triple_op hP.stable (fun r s => P s ∧ s.kernel.hhdm.map (virt - ·) = r) ?_ fun r => ?_
  · rintro s r s' hs - he
    refine ⟨hP.frame _ s r s' ⟨rfl, rfl⟩ trivial he hs, ?_⟩
    cases he
    rfl
  · cases r with
    | some phys => exact Machine.triple_ret (framed_plain hP fun s s' h => h.physOf).stable fun _ h => h
    | none => exact triple_panic _ _

/-- What holds of a controller once `init_xhci` has returned an instance of it. -/
structure BroughtUp (dev : PciDevice) (x : Instance) (s : Host) : Prop where
  owner : x.dev = dev
  postsTo : s.PostsTo dev x.eventRingVirt
  takesFrom : s.TakesFrom dev x.xhci.cmdRingVirt
  run : (s.controllers dev).run = true

theorem SameRings.broughtUp {x : Instance} (h : SameRings s s') (hr : BroughtUp dev x s) : BroughtUp dev x s' :=
  ⟨hr.owner, h.postsTo hr.postsTo, h.takesFrom hr.takesFrom, (h.run dev).trans hr.run⟩

theorem awaitRunning_plain (dev : PciDevice) (n : Nat) : (awaitRunning dev n).All HostOp.Plain := by
  induction n with
  | zero => trivial
  | succ n ih =>
    refine ⟨⟨rfl, rfl⟩, fun b => ?_⟩
    cases b with
    | true => exact ih
    | false => trivial

@[simp] theorem modify_self (f : HostController → HostController) (s : Host) :
    (s.modify dev f).controllers dev = f (s.controllers dev) :=
  Function.update_self ..

theorem modify_other {d : PciDevice} (h : d ≠ dev) (f : HostController → HostController) (s : Host) :
    (s.modify dev f).controllers d = s.controllers d :=
  Function.update_of_ne h _ _

/-- `setup_event_ring` hands the controller the segment of the instance that it returns. -/
theorem setupEventRing_postsTo (x : Instance) (hP : (hostMachine walk).Framed HostOp.Plain P)
    (hwrite : ∀ s n, P s → P (s.modify x.dev fun c => { c with eventRing := n })) :
    (hostMachine walk).Triple P (setupEventRing x) fun x' s =>
      P s ∧ (x'.dev = x.dev ∧ x'.xhci = x.xhci) ∧ s.PostsTo x.dev x'.eventRingVirt := by
  unfold setupEventRing
  refine Machine.triple_bind (newBox_physOf hP 512) fun r => ?_
  obtain ⟨virt, phys⟩ := r
  refine Machine.triple_bind (newBox_physOf (framed_plain hP fun s s' h => h.physOf) 16) fun r => ?_
  refine Machine.triple_call ?_ (fun _ s => P s ∧ s.PostsTo x.dev virt) ?_ fun _ => ?_
  · rintro s s' ⟨h, hsize⟩ he
    exact ⟨(framed_plain hP fun s s' h => h.physOf).stable s s' h he, (env_sameRings he).1.physOf hsize⟩
  · rintro s u s' ⟨⟨hs, hphys⟩, -⟩ - he
    cases he
    refine ⟨hwrite s phys hs, ?_⟩
    unfold Host.PostsTo
    rw [modify_self]
    exact hphys
  · exact Machine.triple_ret (framed_plain hP fun s s' h => h.postsTo).stable fun s h => ⟨h.1, ⟨rfl, rfl⟩, h.2⟩

/-- A controller that has its rings is started. -/
theorem broughtUp_of_start {x : Instance} (hdev : x.dev = dev) (hposts : s.PostsTo dev x.eventRingVirt)
    (htakes : s.TakesFrom dev x.xhci.cmdRingVirt) : BroughtUp dev x (s.modify dev fun c => { c with run := true }) := by
  refine ⟨hdev, ?_, ?_, by rw [modify_self]⟩
  · unfold Host.PostsTo
    rw [modify_self]
    exact hposts
  · unfold Host.TakesFrom
    rw [modify_self]
    exact htakes

/-- `init_xhci` hands the controller the rings of the instance that it returns, and starts it. -/
theorem initXhci_broughtUp (x : Instance) (hP : (hostMachine walk).Framed (HostOp.Initialises x.dev) P) :
    (hostMachine walk).Triple P (initXhci x) fun x' s => P s ∧ BroughtUp x.dev x' s := by
  have hplain := hP.mono fun o ho => initialises_of_plain (o := o) ho
  unfold initXhci
  refine hP.act ⟨rfl, rfl⟩ fun _ => hplain.act ⟨rfl, rfl⟩ fun _ => ?_
  refine hplain.act ⟨rfl, rfl⟩ fun _ => hplain.act ⟨rfl, rfl⟩ fun _ => ?_
  refine Machine.triple_bind ((newBox_physOf hplain 2048).conseq (fun _ h => h) fun _ _ h => h.1) fun r => ?_
  obtain ⟨dcbaaVirt, dcbaaPhys⟩ := r
  refine hplain.act ⟨rfl, rfl⟩ fun _ => ?_
  refine Machine.triple_bind (newBox_physOf hplain 512) fun r => ?_
  obtain ⟨cmdRingVirt, cmdRingPhys⟩ := r
  -- the write of CRCR: commands are taken from the ring from here on
  refine Machine.triple_call (framed_plain hplain fun s s' h => h.physOf).stable (fun _ s => P s ∧
    s.TakesFrom x.dev cmdRingVirt) ?_
    fun _ => ?_
  · rintro s u s' ⟨hs, hphys⟩ - he
    refine ⟨hP.frame (.writeCrcr x.dev _) s u s' ⟨rfl, rfl⟩ trivial he hs, ?_⟩
    cases he
    unfold Host.TakesFrom
    rw [modify_self]
    exact (Option.map_map crcrValue (cmdRingVirt - ·) s.kernel.hhdm).symm.trans (congrArg (Option.map crcrValue) hphys)
  refine Machine.triple_bind (setupEventRing_postsTo _ (framed_plain hplain fun s s' h => h.takesFrom) ?_) fun x' => ?_
  · rintro s n ⟨hs, htakes⟩
    refine ⟨hP.frame (.writeErst x.dev n) s () _ ⟨rfl, rfl⟩ trivial rfl hs, ?_⟩
    unfold Host.TakesFrom
    rw [modify_self]
    exact htakes
  · have hready := framed_plain (Q := BroughtUp x.dev x') hplain fun s s' h => h.broughtUp
    refine Machine.triple_call ?_ (fun _ s => P s ∧ BroughtUp x.dev x' s) ?_ fun _ => ?_
    · rintro s s' ⟨h, hsame, hposts⟩ he
      exact ⟨(framed_plain hplain fun s s' h => h.takesFrom).stable s s' h he, hsame,
        (env_sameRings he).1.postsTo hposts⟩
    · -- the start, with both rings handed over
      rintro s u s' ⟨⟨hs, htakes⟩, ⟨hdev, hxhci⟩, hposts⟩ - he
      have hrun : Host.exec walk (.writeRun x.dev true) s = some ((), s') := by
        rw [← show x'.dev = x.dev from hdev]
        exact he
      refine ⟨hP.frame (.writeRun x.dev true) s () s' ⟨rfl, rfl⟩ trivial hrun hs, ?_⟩
      cases hrun
      exact broughtUp_of_start hdev hposts (by rw [hxhci]; exact htakes)
    · refine Machine.triple_bind (hready.triple (awaitRunning_plain x'.dev _)) fun _ => ?_
      exact Machine.triple_ret hready.stable fun _ h => h

theorem bringUp_broughtUp (ctrl : PciDevice) (hP : (hostMachine walk).Framed (HostOp.Initialises ctrl) P) :
    (hostMachine walk).Triple P (bringUp ctrl) fun r s => P s ∧ BroughtUp ctrl r.2 s := by
  have hplain := hP.mono fun o ho => initialises_of_plain (o := o) ho
  have hports : (onRegisters ctrl printPorts).All HostOp.Plain := by
    have hread : printPorts.All fun o => o.readsRegistry = true :=
      all_act rfl fun n => (scanPorts_all (fun _ => rfl) 0 n).bind fun _ => trivial
    exact hread.expand fun o ho => ⟨⟨rfl, ho⟩, fun _ => trivial⟩
  unfold bringUp
  refine hplain.act ⟨rfl, rfl⟩ fun _ => hplain.act ⟨rfl, rfl⟩ fun bar => hplain.act ⟨rfl, rfl⟩ fun virtBase =>
    hplain.act ⟨rfl, rfl⟩ fun msixOk => ?_
  refine Machine.triple_bind (initXhci_broughtUp (Instance.new ctrl) hP) fun x => ?_
  have hready := framed_plain (Q := BroughtUp ctrl x) hplain fun s s' h => h.broughtUp
  exact Machine.triple_bind (hready.triple hports) fun _ => Machine.triple_ret hready.stable fun _ h => h

end BringUp

/-! ## The states in between -/

section Frames

variable {walk : Memory.Mem → BitVec 64 → Option (BitVec 64)} {s s' : Host} {dev : PciDevice}

/-- The operations that bring a controller up leave alone what most steps do, or write to this controller. -/
theorem initialises_cases {o : HostOp} {r : HostRet o} (ho : o.Initialises dev)
    (h : Host.exec walk o s = some (r, s')) :
    (SameRings s s' ∨ ∃ f : HostController → HostController, s' = s.modify dev f ∧ ∀ c, (f c).hw = c.hw) ∧
      s'.kernel.activePorts = s.kernel.activePorts ∧ s'.kernel.xhci.isSome = s.kernel.xhci.isSome := by
  by_cases hq : o.quiet = true
  · obtain ⟨hs, hactive⟩ := exec_sameRings hq h
    exact ⟨.inl hs, hactive ho.1, hs.isSome⟩
  · cases o with
    | writeRun d b | writeCrcr d v | writeErst d v =>
      obtain rfl : d = dev := ho.2
      cases h
      exact ⟨.inr ⟨_, rfl, fun _ => rfl⟩, rfl, rfl⟩
    | publish => exact absurd ho.2 id
    | _ => exact absurd rfl hq

theorem framed_beforeUsb (dev : PciDevice) : (hostMachine walk).Framed (HostOp.Initialises dev) BeforeUsb := by
  have hkeep : ∀ {s s' : Host}, (∀ d, (s'.controllers d).hw.maxPorts = (s.controllers d).hw.maxPorts) →
      s'.kernel.activePorts = s.kernel.activePorts → s'.kernel.xhci.isSome = s.kernel.xhci.isSome →
        BeforeUsb s → BeforeUsb s' := by
    rintro s s' hports hactive hxhci h
    refine ⟨?_, hactive.trans h.activePorts, fun d => by rw [hports]; exact h.maxPorts d⟩
    rw [h.xhci] at hxhci
    exact Option.isNone_iff_eq_none.1 (Option.isSome_eq_false_iff.1 hxhci)
  constructor
  · rintro s s' h he
    obtain ⟨hs, hactive⟩ := env_sameRings he
    exact hkeep hs.maxPorts hactive hs.isSome h
  · rintro o s r s' ho - he h
    obtain ⟨hs | ⟨f, rfl, hf⟩, hactive, hxhci⟩ := initialises_cases ho he
    · exact hkeep hs.maxPorts hactive hxhci h
    · refine hkeep (fun d => ?_) hactive hxhci h
      by_cases hd : d = dev
      · rw [hd, modify_self, hf]
      · rw [modify_other hd]

/-- These controllers were started. -/
def Running (l : List PciDevice) (s : Host) : Prop := ∀ d ∈ l, (s.controllers d).run = true

theorem SameRings.running {l : List PciDevice} (h : SameRings s s') (hr : Running l s) : Running l s' := by
  rintro d hd
  rw [h.run]
  exact hr d hd

theorem framed_running {l : List PciDevice} (hdev : dev ∉ l) :
    (hostMachine walk).Framed (HostOp.Initialises dev) (Running l) where
  stable s s' h he := (env_sameRings he).1.running h
  frame o s r s' ho _ he h := by
    obtain ⟨hs | ⟨f, rfl, -⟩, -⟩ := initialises_cases ho he
    · exact hs.running h
    · rintro d hd
      have hne : d ≠ dev := fun heq => hdev (heq ▸ hd)
      rw [modify_other hne]
      exact h d hd

theorem SameRings.reached (h : SameRings s s') (hr : Reached s dev) : Reached s' dev := by
  refine ⟨h.owner.trans hr.owner, ?_, ?_⟩
  · rw [h.eventRingVirt]
    exact h.postsTo hr.eventRing
  · obtain ⟨x, hx, htakes⟩ := hr.commandRing
    have hring := h.cmdRing
    rw [hx] at hring
    obtain ⟨x', hx', heq⟩ := Option.map_eq_some_iff.1 hring
    refine ⟨x', hx', ?_⟩
    rw [heq]
    exact h.takesFrom htakes

/-- Once the first instance is published. -/
theorem publish_reached {x : Instance} (hb : BeforeUsb s) (hr : BroughtUp dev x s) : Reached (s.publish x) dev ∧
    (s.publish x).kernel.activePorts = [] ∧ ∀ d, (s.publish x).controllers d = s.controllers d := by
  unfold Host.publish
  rw [hb.xhci, if_neg nofun]
  exact ⟨⟨hr.owner, hr.postsTo, x.xhci, rfl, hr.takesFrom⟩, hb.activePorts, fun _ => rfl⟩

/-- Nothing of the USB code on `XHCI_INSTANCE` changes which instance that is. -/
theorem onInstance_quiet {α : Type} (p : KProg α) : (onInstance p).All fun o => o.quiet = true :=
  (Machine.all_true p).expand fun _ _ => ⟨rfl, fun _ => trivial⟩

end Frames

end Octagram.Usb

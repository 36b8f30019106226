/-
A machine without devices on its ports: `init_usb_controllers` returns, where the calls of `pci.rs`
do for every xHCI controller, and find MSI-X (`initUsbControllers_canEnd`). That there is a run to
the end is proved with the rules of `Lib.Ends`, function by function: a wait loop ends since the
controller can change its status (`wait_status`), and without ports and entries the loops over them
do nothing (`NoDevices`). `SingleInstance` has its runs from here.
-/
import Octagram.Lib.Ends
import Octagram.Usb.BringUp
import Octagram.Usb.Hotplug
import Octagram.Usb.Reports

namespace Octagram.Usb

open Octagram.Lib Octagram.Pci

/-! ## The USB code -/

section Ports

variable {s : Kernel} (hports : ∀ q, (s.hw.port q).ccs = false)

include hports

theorem scanPorts_none (port n : Nat) : runToEnd (scanPorts port n) s = some ([], s) := by
  induction n generalizing port with
  | zero => rfl
  | succ n ih =>
    have hport : ¬ (s.hw.port port).portsc &&& 1 ≠ 0 := by
      rw [portsc_connected, hports port]
      exact Bool.false_ne_true
    refine (runToEnd_op _ _ _).trans ((runToEnd_bind (scanPorts (port + 1) n) _ s).trans ?_)
    rw [ih]
    exact congrArg (fun l => some (l, s)) (if_neg hport)

theorem printPorts_none : runToEnd printPorts s = some ((), s) := by
  refine (runToEnd_op _ _ _).trans ((runToEnd_bind (scanPorts 0 s.hw.maxPorts) _ s).trans ?_)
  rw [scanPorts_none hports]
  rfl

theorem portStates_none (hheld : s.held .xhci = false) (hx : s.xhci.isSome = true) :
    runToEnd portStates s = some ([], s) := by
  obtain ⟨x, hx⟩ := Option.isSome_iff_exists.1 hx
  have hget : (s.locking .xhci).exec .getXhci = some (x, s.locking .xhci) := by
    show (s.locking .xhci).xhci.map _ = _
    rw [show (s.locking .xhci).xhci = some x from hx]
    rfl
  unfold portStates
  refine (runToEnd_lock _).trans ?_
  rw [hheld]
  refine (runToEnd_op _ _ _).trans ?_
  rw [hget]
  refine (runToEnd_op _ _ _).trans ((runToEnd_bind (scanPorts 0 s.hw.maxPorts) _ (s.locking .xhci)).trans ?_)
  rw [@scanPorts_none (s.locking .xhci) hports]
  show runToEnd (unlock .xhci >>= fun _ => pure []) (s.locking .xhci) = _
  refine (runToEnd_unlock _).trans ?_
  rw [unlocking_locking hheld]
  rfl

/-- Without ports and entries, `discover_and_init_hid_devices` changes nothing. -/
theorem discover_none (hheld : ∀ l, s.held l = false) (hx : s.xhci.isSome = true) (hempty : s.activePorts = []) :
    runToEnd discoverAndInitHidDevices s = some ((), s) := by
  unfold discoverAndInitHidDevices
  refine (runToEnd_bind _ _ _).trans ?_
  rw [portStates_none hports (hheld .xhci) hx]
  refine (runToEnd_lock _).trans ?_
  rw [hheld .activePorts]
  refine (runToEnd_op _ _ _).trans ?_
  show runToEnd (disconnectLoop [] [] s.activePorts >>= _) (s.locking .activePorts) = _
  rw [hempty]
  refine (runToEnd_unlock _).trans ?_
  rw [unlocking_locking (hheld .activePorts)]
  rfl

end Ports

/-! ## One controller -/

/-- No lock is held, no device is registered, and none is connected to a controller. -/
structure NoDevices (p : Platform) (s : Host) : Prop where
  platform : s.platform = p
  held : ∀ l, s.kernel.held l = false
  hhdm : s.kernel.hhdm.isSome = true
  activePorts : s.kernel.activePorts = []
  ports : ∀ dev q, ((s.controllers dev).hw.port q).ccs = false

/-- The operations of `init_xhci` that are never blocked. -/
def HostOp.Unblocked : HostOp → Prop
  | .writeRun _ _ | .reset _ | .writeDcbaap _ _ | .writeCrcr _ _ | .writeErst _ _ => True
  | .usb o => ∃ n, o = .boxNew (.bytes n)
  | _ => False

section NoDevices

variable {walk : Memory.Mem → BitVec 64 → Option (BitVec 64)} {p p' : Platform} {s : Host} {α : Type}

theorem NoDevices.modify (h : NoDevices p s) (dev : PciDevice) {f : HostController → HostController}
    (hf : ∀ c, (f c).hw.port = c.hw.port) : NoDevices p (s.modify dev f) := by
  refine ⟨h.platform, h.held, h.hhdm, h.activePorts, fun d q => ?_⟩
  by_cases hd : d = dev
  · rw [hd, modify_self, hf]
    exact h.ports dev q
  · rw [modify_other hd]
    exact h.ports d q

theorem NoDevices.put (h : NoDevices p s) (dev : PciDevice) {k : Kernel} (hheld : k.held = s.kernel.held)
    (hhdm : k.hhdm = s.kernel.hhdm) (hactive : k.activePorts = s.kernel.activePorts)
    (hport : k.hw.port = (s.controllers dev).hw.port) : NoDevices p ((Host.part dev).put k s) := by
  refine ⟨h.platform, fun l => (congrFun hheld l).trans (h.held l), (congrArg _ hhdm).trans h.hhdm,
    hactive.trans h.activePorts, fun d q => ?_⟩
  unfold Host.part
  by_cases hd : d = dev
  · rw [hd]
    simp [hport, h.ports dev q]
  · simp [hd, h.ports d q]

theorem free_noDevices (p : Platform) : (hostMachine walk).Free HostOp.Unblocked (NoDevices p) := by
  rintro o s ho h
  cases o with
  | writeRun d | reset d | writeDcbaap d | writeCrcr d | writeErst d =>
    exact ⟨trivial, (), _, rfl, h.modify d fun _ => rfl⟩
  | usb o =>
    obtain ⟨n, rfl⟩ := ho
    exact ⟨trivial, _, _, rfl, h.put s.owner rfl rfl rfl rfl⟩
  | _ => exact ho.elim

theorem newBox_canEnd (size : Nat) : (hostMachine walk).CanEnd (NoDevices p) (newBox size) fun _ => NoDevices p := by
  refine (free_noDevices p).act ⟨size, rfl⟩ fun virt => ?_
  refine Machine.canEnd_call (fun r s => r.isSome = true ∧ NoDevices p s) ?_ fun r => ?_
  · rintro s h
    refine ⟨trivial, _, _, rfl, ?_, h.put s.owner rfl rfl rfl rfl⟩
    exact Option.isSome_map.trans h.hhdm
  · cases r with
    | some phys => exact Machine.canEnd_ret fun s h => h.2
    | none => exact fun s h => absurd h.1 Bool.false_ne_true

/-- The controller changes its status. -/
theorem wait_status (dev : PciDevice) (halted ready : Bool) : ∀ s, NoDevices p s →
    ∃ s', (hostMachine walk).Waits s s' ∧ NoDevices p s' ∧ (s'.controllers dev).halted = halted ∧
      (s'.controllers dev).ready = ready := by
  rintro s h
  refine ⟨_, .single (.status dev halted ready), h.modify dev fun _ => rfl, ?_, ?_⟩
  · rw [modify_self]
  · rw [modify_self]

theorem awaitRunning_canEnd (dev : PciDevice) (n : Nat) :
    (hostMachine walk).CanEnd (NoDevices p) (awaitRunning dev n) fun _ => NoDevices p := by
  cases n with
  | zero => exact Machine.canEnd_ret fun s h => h
  | succ n =>
    refine Machine.canEnd_wait (wait_status dev false true) ?_
    exact Machine.canEnd_answer (r := false) (fun s h => ⟨trivial, s, congrArg (fun b => some (b, s)) h.2.1, h.1⟩)
      (Machine.canEnd_ret fun s h => h)

theorem initXhci_canEnd (x : Instance) : (hostMachine walk).CanEnd (NoDevices p) (initXhci x) fun _ => NoDevices p := by
  have hfree : (hostMachine walk).Free HostOp.Unblocked (NoDevices p) := free_noDevices p
  unfold initXhci
  refine hfree.act trivial fun _ => Machine.canEnd_wait (wait_status x.dev true false) ?_
  refine Machine.canEnd_answer (r := ()) (fun s h => ⟨trivial, s, if_pos h.2.1, h.1⟩) ?_
  refine hfree.act trivial fun _ => Machine.canEnd_wait (wait_status x.dev true true) ?_
  refine Machine.canEnd_answer (r := ()) (fun s h => ⟨trivial, s, if_pos h.2.2, h.1⟩) ?_
  refine Machine.canEnd_bind (newBox_canEnd 2048) fun _ => hfree.act trivial fun _ => ?_
  refine Machine.canEnd_bind (newBox_canEnd 512) fun _ => hfree.act trivial fun _ => ?_
  refine Machine.canEnd_bind (R := fun _ => NoDevices p) ?_ fun x => ?_
  · unfold setupEventRing
    refine Machine.canEnd_bind (newBox_canEnd 512) fun _ => Machine.canEnd_bind (newBox_canEnd 16) fun _ => ?_
    exact hfree.act trivial fun _ => Machine.canEnd_ret fun s h => h
  · refine hfree.act trivial fun _ => Machine.canEnd_bind (awaitRunning_canEnd x.dev _) fun _ => ?_
    exact Machine.canEnd_ret fun s h => h

/-- A program of the USB code that ends on its own ends on the part of the machine that it sees. -/
theorem runs_part {dev : PciDevice} {I : Host → Prop} {body : (o : Op) → HostProg (Ret o)}
    (hbody : ∀ o s r s', I s → s.onPart dev o = some (r, s') → I s' ∧ (hostMachine walk).Runs (body o, s) (.ret r, s'))
    {q : KProg α} {a : α} {k : Kernel} (hs : I s) (h : runToEnd q ((Host.part dev).get s) = some (a, k)) :
    (hostMachine walk).Runs (q.expand body, s) (.ret a, (Host.part dev).put k s) := by
  induction q generalizing s with
  | ret b =>
    cases h
    rw [Lens.put_get]
    exact .refl
  | op o q ih =>
    rw [runToEnd_op] at h
    obtain ⟨⟨r, k₁⟩, hexec, hrest⟩ := Option.bind_eq_some_iff.1 h
    obtain ⟨hs₁, hrun⟩ := hbody o s r ((Host.part dev).put k₁ s) hs (by unfold Host.onPart; rw [hexec]; rfl)
    have hrest := ih r hs₁ (by rw [Lens.get_put]; exact hrest)
    rw [Lens.put_put] at hrest
    exact Machine.runs_seq hrun hrest

/-- Without ports, `scan_ports` and `discover_and_init_hid_devices` change nothing. -/
theorem printPorts_canEnd (dev : PciDevice) :
    (hostMachine walk).CanEnd (NoDevices p) (onRegisters dev printPorts) fun _ => NoDevices p := by
  rintro s h
  have hrun := printPorts_none (s := (Host.part dev).get s) (h.ports dev)
  have hlift : (hostMachine walk).Runs (onRegisters dev printPorts, s)
      (.ret (), (Host.part dev).put ((Host.part dev).get s) s) := by
    refine runs_part (I := fun _ => True) ?_ trivial hrun
    rintro o s r s' - he
    exact ⟨trivial, .single (.op trivial he)⟩
  rw [Lens.put_get] at hlift
  exact ⟨(), s, hlift, h⟩

theorem discover_canEnd : (hostMachine walk).CanEnd (fun s => NoDevices p s ∧ s.kernel.xhci.isSome = true)
    (onInstance discoverAndInitHidDevices) fun _ => NoDevices p := by
  rintro s ⟨h, hx⟩
  have hrun := discover_none (s := (Host.part s.owner).get s) (h.ports s.owner) h.held hx h.activePorts
  have hlift : (hostMachine walk).Runs (onInstance discoverAndInitHidDevices, s)
      (.ret (), (Host.part s.owner).put ((Host.part s.owner).get s) s) := by
    refine runs_part (I := fun t => t.owner = s.owner) ?_ rfl hrun
    rintro o t r t' ht he
    have hexec : Host.exec walk (.usb o) t = some (r, t') := by
      show t.onPart t.owner o = _
      rw [ht]
      exact he
    obtain ⟨u, -, heq⟩ := Option.map_eq_some_iff.1 he
    obtain rfl : _ = t' := congrArg Prod.snd heq
    exact ⟨ht, .single (.op trivial hexec)⟩
  rw [Lens.put_get] at hlift
  exact ⟨(), s, hlift, h⟩

end NoDevices

/-! ## All of them -/

section Controllers

variable {walk : Memory.Mem → BitVec 64 → Option (BitVec 64)} {p p' : Platform} {dev : PciDevice}

/-- The calls of `pci.rs` and of `XHCI` for one controller return, and find MSI-X. -/
def SetUpBy (walk : Memory.Mem → BitVec 64 → Option (BitVec 64)) (dev : PciDevice) (p p' : Platform) : Prop :=
  ∃ p₁ p₂ p₃ bar virtBase, (onBus (Pci.enableDevice dev)).run p = .ok ((), p₁) ∧
    (onBus (getBar0 dev)).run p₁ = .ok (bar, p₂) ∧ (newController bar dev).run p₂ = .ok (virtBase, p₃) ∧
      (setupMsix walk virtBase dev 44#8 0#8).run p₃ = .ok (true, p')

/-- The same for each xHCI controller of a list, one after the other. -/
inductive AllSetUp (walk : Memory.Mem → BitVec 64 → Option (BitVec 64)) : List PciFunction → Platform → Platform → Prop
  | nil {p : Platform} : AllSetUp walk [] p p
  | xhci {f : PciFunction} {rest : List PciFunction} {p p₁ p' : Platform} (hf : isXhci f = true)
      (h : SetUpBy walk f.toPciDevice p p₁) (hrest : AllSetUp walk rest p₁ p') : AllSetUp walk (f :: rest) p p'
  | other {f : PciFunction} {rest : List PciFunction} {p p' : Platform} (hf : ¬ isXhci f = true)
      (hrest : AllSetUp walk rest p p') : AllSetUp walk (f :: rest) p p'

/-- A call that works on the platform and returns. -/
theorem NoDevices.onPlatform {α : Type} {x : PlatformM α} {r : α} {s : Host} (h : NoDevices p s)
    (hx : x.run p = .ok (r, p')) : ∃ s', s.onPlatform x = some (r, s') ∧ NoDevices p' s' := by
  refine ⟨{ s with platform := p' }, ?_, rfl, h.held, h.hhdm, h.activePorts, h.ports⟩
  unfold Host.onPlatform
  rw [h.platform, hx]

theorem bringUp_canEnd (h : SetUpBy walk dev p p') : (hostMachine walk).CanEnd (NoDevices p) (bringUp dev) fun r s =>
    r.1 = true ∧ NoDevices p' s := by
  obtain ⟨p₁, p₂, p₃, bar, virtBase, henable, hbar, hnew, hmsix⟩ := h
  unfold bringUp
  refine Machine.canEnd_answer (r := ()) (fun s hs => ⟨trivial, hs.onPlatform henable⟩) ?_
  refine Machine.canEnd_answer (r := bar) (fun s hs => ⟨trivial, hs.onPlatform hbar⟩) ?_
  refine Machine.canEnd_answer (r := virtBase) (fun s hs => ⟨trivial, hs.onPlatform hnew⟩) ?_
  refine Machine.canEnd_answer (r := true) (fun s hs => ⟨trivial, hs.onPlatform hmsix⟩) ?_
  refine Machine.canEnd_bind (initXhci_canEnd (Instance.new dev)) fun x => ?_
  exact Machine.canEnd_bind (printPorts_canEnd dev) fun _ => Machine.canEnd_ret fun s hs => ⟨rfl, hs⟩

/-- An instance is published, the first or an earlier one. -/
theorem publish_isSome (x : Instance) (s : Host) : (s.publish x).kernel.xhci.isSome = true := by
  unfold Host.publish
  split
  · assumption
  · rfl

theorem publishOrPoll_canEnd (x : Instance) :
    (hostMachine walk).CanEnd (NoDevices p) (publishOrPoll true x) fun _ => NoDevices p := by
  refine Machine.canEnd_answer (r := ()) ?_ discover_canEnd
  rintro s h
  refine ⟨trivial, s.publish x, rfl, ?_, publish_isSome x s⟩
  unfold Host.publish
  split
  · exact h
  · exact ⟨h.platform, h.held, h.hhdm, h.activePorts, h.ports⟩

theorem initAll_canEnd {list : List PciFunction} (h : AllSetUp walk list p p') :
    (hostMachine walk).CanEnd (NoDevices p) (initAll list) fun _ => NoDevices p' := by
  induction h with
  | nil => exact Machine.canEnd_ret fun s hs => hs
  | xhci hf h _ ih =>
    rw [initAll, if_pos hf, initXhciController_eq, Prog.bind_bind]
    refine Machine.canEnd_bind (bringUp_canEnd h) fun r => ?_
    obtain ⟨msixOk, x⟩ := r
    cases msixOk with
    | true => exact Machine.canEnd_bind (fun _ hs => publishOrPoll_canEnd x _ hs.2) fun _ => ih
    | false => exact fun _ hs => absurd hs.1 Bool.false_ne_true
  | other hf _ ih =>
    rw [initAll, if_neg hf]
    exact ih

/-- If every xHCI controller can be set up, `init_usb_controllers` can return. -/
theorem initUsbControllers_canEnd {list : List PciFunction} {b : Bus}
    (hscan : findUsbControllers.run p.bus = .ok (list, b)) (h : AllSetUp walk list { p with bus := b } p') :
    (hostMachine walk).CanEnd (NoDevices p) initUsbControllers fun _ => NoDevices p' :=
  Machine.canEnd_answer (fun _ hs => ⟨trivial, hs.onPlatform (onBus_ok hscan)⟩) (initAll_canEnd h)

end Controllers

end Octagram.Usb

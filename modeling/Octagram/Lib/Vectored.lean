/-
Vectored interrupts: a controller with requests and what is in service, a processor with an
interrupt flag and a stack of interrupted work, and a handler that ends with an end-of-interrupt and
a return. Where one vector has a handler, which does not touch the flag (`OneHandler`), it runs as
if the main program waited for it (`vectored_during_iff`): each machine simulates the other
(`vectored_simulation`, `pieces_simulation`), with at most one handler under way (`Mirrors`,
`Paced`). An interrupt whose handler never ends stops the main program (`stuck_runs`).
-/
import Octagram.Lib.Lens
import Octagram.Lib.Reduction

namespace Octagram.Lib

/-! ## The controller -/

/-- The vectors that are requested, and those in service. -/
structure Vectors where
  requested : Nat → Bool
  inService : Nat → Bool

namespace Vectors

/-- The vector is the highest requested, and of a higher class than all in service. -/
def Offers (c : Vectors) (v : Nat) : Prop :=
  c.requested v = true ∧ (∀ w, c.requested w = true → w ≤ v) ∧ ∀ w, c.inService w = true → w / 16 < v / 16

/-- A device requests an interrupt. -/
def request (v : Nat) (c : Vectors) : Vectors := { c with requested := Function.update c.requested v true }

/-- The processor accepts it: the request is in service. -/
def accept (v : Nat) (c : Vectors) : Vectors where
  requested := Function.update c.requested v false
  inService := Function.update c.inService v true

/-- The end of the highest in service. -/
inductive Ends (c : Vectors) : Vectors → Prop
  | highest {v : Nat} (h : c.inService v = true) (hmax : ∀ w, c.inService w = true → w ≤ v) :
    Ends c { c with inService := Function.update c.inService v false }
  | none (h : ∀ v, c.inService v = false) : Ends c c

end Vectors

/-! ## The processor -/

section Machine

variable {Op : Type} {Ret : Op → Type} {σ α : Type}

/-- What is left to do for an interrupt: the handler and the end of the interrupt, or only the return; a vector
without a handler is never done with. -/
inductive Work (Op : Type) (Ret : Op → Type)
  | handler (rest : Prog Op Ret Unit)
  | return
  | stuck

/-- The state, the controller, and the interrupted work with the flag to return to, the latest first. -/
abbrev Vectored (Op : Type) (Ret : Op → Type) (σ : Type) := σ × Vectors × List (Bool × Work Op Ret)

variable (exec : (o : Op) → σ → Option (Ret o × σ)) (B : σ → σ → Prop) (flag : Lens σ Bool)
  (handler : Nat → Option (Prog Op Ret Unit))

/-- The work for a vector. -/
def workFor (handler : Nat → Option (Prog Op Ret Unit)) (v : Nat) : Work Op Ret :=
  match handler v with
  | some p => .handler p
  | none => .stuck

/-- A step of the background, of a device that requests an interrupt, or of the processor for one. -/
inductive VectoredEnv : Vectored Op Ret σ → Vectored Op Ret σ → Prop
  | background {s s' : σ} {c : Vectors} {ws : List (Bool × Work Op Ret)} (h : B s s') :
      VectoredEnv (s, c, ws) (s', c, ws)
  | request {s : σ} {c : Vectors} {ws : List (Bool × Work Op Ret)} (v : Nat) :
      VectoredEnv (s, c, ws) (s, c.request v, ws)
  | accept {s : σ} {c : Vectors} {ws : List (Bool × Work Op Ret)} {v : Nat} (hi : flag.get s = true) (ho : c.Offers v) :
    VectoredEnv (s, c, ws) (flag.put false s, c.accept v, (flag.get s, workFor handler v) :: ws)
  | step {s s' : σ} {c : Vectors} {ws : List (Bool × Work Op Ret)} {b : Bool} {o : Op} {k : Ret o →
      Prog Op Ret Unit} {r : Ret o}
    (h : exec o s = some (r, s')) : VectoredEnv (s, c, (b, .handler (.op o k)) :: ws) (s', c, (b, .handler (k r)) :: ws)
  | eoi {s : σ} {c c' : Vectors} {ws : List (Bool × Work Op Ret)} {b : Bool} (h : c.Ends c') :
    VectoredEnv (s, c, (b, .handler (.ret ())) :: ws) (s, c', (b, .return) :: ws)
  | iret {s : σ} {c : Vectors} {ws : List (Bool × Work Op Ret)} {b : Bool} :
    VectoredEnv (s, c, (b, .return) :: ws) (flag.put b s, c, ws)

/-- The program goes on when no interrupt is left. -/
def vectored : Machine Op Ret (Vectored Op Ret σ) where
  exec o c := if c.2.2.isEmpty then (exec o c.1).map fun r => (r.1, (r.2, c.2.1, c.2.2)) else none
  env := VectoredEnv exec B flag handler
  allowed _ _ := True

end Machine

/-! ## Simulation -/

namespace Machine

variable {Op : Type} {Ret : Op → Type} {σ τ α ι : Type} {Res : ι → Type} {M : Machine Op Ret σ} {N : Machine Op Ret τ}

/-- What `M` does `N` does, from states that are related to states that are. -/
structure Simulation (M : Machine Op Ret σ) (N : Machine Op Ret τ) (R : σ → τ → Prop) : Prop where
  env : ∀ x x' y, R x y → M.env x x' → ∃ y', N.Waits y y' ∧ R x' y'
  op : ∀ o x r x' y, R x y → M.exec o x = some (r, x') → ∃ y', N.allowed o y ∧ N.exec o y = some (r, y') ∧ R x' y'

namespace Simulation

variable {R : σ → τ → Prop} {main : (i : ι) → Prog Op Ret (Res i)} {boot : σ → Prop} {boot' : τ → Prop}
  {p p' : Prog Op Ret α}
  {x x' : σ} {y : τ}

theorem runs (h : Simulation M N R) (hr : M.Runs (p, x) (p', x')) (hxy : R x y) :
    ∃ y', N.Runs (p, y) (p', y') ∧ R x' y' := by
  generalize hc : (p', x') = c at hr
  induction hr generalizing p' x' with
  | refl =>
    cases hc
    exact ⟨y, .refl, hxy⟩
  | tail _ hs ih =>
    subst hc
    cases hs with
    | op ha he =>
      obtain ⟨y₁, hr₁, h₁⟩ := ih rfl
      obtain ⟨y₂, ha₂, he₂, h₂⟩ := h.op _ _ _ _ _ h₁ he
      exact ⟨y₂, hr₁.tail (.op ha₂ he₂), h₂⟩
    | env he =>
      obtain ⟨y₁, hr₁, h₁⟩ := ih rfl
      obtain ⟨y₂, hw, h₂⟩ := h.env _ _ _ h₁ he
      exact ⟨y₂, hr₁.trans (hw.runs _), h₂⟩

theorem session (h : Simulation M N R) (hboot : ∀ x, boot x → ∃ y, boot' y ∧ R x y) {hist : List (Return σ Res)}
    (hs : M.Session main boot hist x) : ∃ hist' y, N.Session main boot' hist' y ∧ R x y := by
  induction hs with
  | boot hb =>
    obtain ⟨y, hy, hR⟩ := hboot _ hb
    exact ⟨[], y, .boot hy, hR⟩
  | env _ he ih =>
    obtain ⟨hist', y, hy, hR⟩ := ih
    obtain ⟨y', hw, hR'⟩ := h.env _ _ _ hR he
    exact ⟨hist', y', hy.waits hw, hR'⟩
  | call _ i hr ih =>
    obtain ⟨hist', y, hy, hR⟩ := ih
    obtain ⟨y', hr', hR'⟩ := h.runs hr hR
    exact ⟨_, y', hy.call i hr', hR'⟩

/-- What the first machine comes to within a call, the second does. -/
theorem during (h : Simulation M N R) (hboot : ∀ x, boot x → ∃ y, boot' y ∧ R x y) {i : ι} {p : Prog Op Ret (Res i)}
    (hd : M.During main boot i p x) : ∃ y, N.During main boot' i p y ∧ R x y := by
  obtain ⟨hist, x₀, hs, hr⟩ := hd
  obtain ⟨hist', y₀, hs', hR⟩ := h.session hboot hs
  obtain ⟨y, hr', hR'⟩ := h.runs hr hR
  exact ⟨y, ⟨hist', y₀, hs', hr'⟩, hR'⟩

end Simulation

end Machine

/-! ## One handler -/

section Handler

variable {Op : Type} {Ret : Op → Type} {σ α : Type} {exec : (o : Op) → σ → Option (Ret o × σ)} {B : σ → σ → Prop}
  {flag : Lens σ Bool}
  {handler : Nat → Option (Prog Op Ret Unit)} {own : Nat} {body : Prog Op Ret Unit}

/-- The operation does not touch the flag, and does the same whatever it is. -/
def Aloof (exec : (o : Op) → σ → Option (Ret o × σ)) (flag : Lens σ Bool) (o : Op) : Prop :=
  ∀ s r s', exec o s = some (r, s') →
  flag.get s' = flag.get s ∧ ∀ b, exec o (flag.put b s) = some (r, flag.put b s')

/-- The vector `own` has a handler that does not touch the flag, nor does the background, and no other vector
has one. -/
structure OneHandler (exec : (o : Op) → σ → Option (Ret o × σ)) (B : σ → σ → Prop) (flag : Lens σ Bool)
    (handler : Nat → Option (Prog Op Ret Unit)) (own : Nat) (body : Prog Op Ret Unit) : Prop where
  found : handler own = some body
  others : ∀ v, v ≠ own → handler v = none
  background : ∀ s t, B s t → flag.get t = flag.get s ∧ ∀ b, B (flag.put b s) (flag.put b t)
  aloof : body.All (Aloof exec flag)

/-- How the interrupt is seen in pieces; once another vector was accepted nothing is promised. -/
inductive Mirrors (exec : (o : Op) → σ → Option (Ret o × σ)) (flag : Lens σ Bool) (own : Nat) :
    Vectored Op Ret σ → Machine.Pieces Op Ret σ → Prop
  | idle {s : σ} {c : Vectors} (hc : ∀ v, c.inService v = false) : Mirrors exec flag own (s, c, []) (s, none)
  | handling {s : σ} {c : Vectors} {rest : Prog Op Ret Unit} (hi : flag.get s = false)
    (hc : ∀ v, c.inService v = decide (v = own)) (hrest : rest.All (Aloof exec flag)) :
    Mirrors exec flag own (s, c, [(true, .handler rest)]) (flag.put true s, some rest)
  | returning {s : σ} {c : Vectors} (hi : flag.get s = false) (hc : ∀ v, c.inService v = false) :
    Mirrors exec flag own (s, c, [(true, .return)]) (flag.put true s, none)
  | stuck {s : σ} {c : Vectors} {v : Nat} (hi : flag.get s = false) (hv : v ≠ own)
    (hc : ∀ w, c.inService w = decide (w = v)) (y : Machine.Pieces Op Ret σ) :
    Mirrors exec flag own (s, c, [(true, .stuck)]) y

theorem mirrors_env (h : OneHandler exec B flag handler own body) {x x' : Vectored Op Ret σ}
    {y : Machine.Pieces Op Ret σ} (hxy : Mirrors exec flag own x y) (he : VectoredEnv exec B flag handler x x') :
    ∃ y', (Machine.pieces exec B body fun s => flag.get s = true).Waits y y' ∧ Mirrors exec flag own x' y' := by
  cases hxy with
  | @idle s c hc =>
    cases he with
    | background hb => exact ⟨_, .single (.background hb), .idle hc⟩
    | request v => exact ⟨_, .refl, .idle hc⟩
    | @accept _ _ _ v hi ho =>
      have hin : ∀ w, (c.accept v).inService w = decide (w = v) := by
        intro w
        show Function.update c.inService v true w = _
        by_cases hw : w = v
        · simp [hw]
        · simp [hw, hc w]
      -- its own vector starts the handler on the other machine too; any other is stuck for good
      by_cases hv : v = own
      · subst hv
        have hs : flag.put true (flag.put false s) = s := by rw [flag.put_put, ← hi, flag.put_get]
        have hm : Mirrors exec flag v (flag.put false s, c.accept v, [(true, .handler body)])
          (flag.put true (flag.put false s), some body) :=
          .handling (flag.get_put false s) hin h.aloof
        refine ⟨(s, some body), .single (.enter hi), ?_⟩
        rw [hs] at hm
        rw [hi, workFor, h.found]
        exact hm
      · refine ⟨_, .refl, ?_⟩
        rw [hi, workFor, h.others v hv]
        exact .stuck (flag.get_put false s) hv hin _
  | @handling s c rest hi hc hrest =>
    cases he with
    | background hb =>
      obtain ⟨hsame, hput⟩ := h.background _ _ hb
      exact ⟨_, .single (.background (hput true)), .handling (hsame.trans hi) hc hrest⟩
    | request v => exact ⟨_, .refl, .handling hi hc hrest⟩
    | accept hi' ho =>
      rw [hi] at hi'
      cases hi'
    | step hx =>
      obtain ⟨hsame, hput⟩ := hrest.1 _ _ _ hx
      exact ⟨_, .single (.step (hput true)), .handling (hsame.trans hi) hc (hrest.2 _)⟩
    -- the handler is over, and only its return is left
    | eoi hend =>
      refine ⟨_, .single .leave, .returning hi ?_⟩
      cases hend with
      | @highest v hv _ =>
        intro w
        obtain rfl : v = own := of_decide_eq_true ((hc v).symm.trans hv)
        show Function.update c.inService v false w = false
        by_cases hw : w = v
        · simp [hw]
        · simp [hw, hc w]
      | none hnone =>
        have := (hc own).symm.trans (hnone own)
        simp at this
  | returning hi hc =>
    cases he with
    | background hb =>
      obtain ⟨hsame, hput⟩ := h.background _ _ hb
      exact ⟨_, .single (.background (hput true)), .returning (hsame.trans hi) hc⟩
    | request v => exact ⟨_, .refl, .returning hi hc⟩
    | accept hi' ho =>
      rw [hi] at hi'
      cases hi'
    | iret => exact ⟨_, .refl, .idle hc⟩
  | stuck hi hv hc y =>
    cases he with
    | background hb => exact ⟨y, .refl, .stuck ((h.background _ _ hb).1.trans hi) hv hc y⟩
    | request v =>
      refine ⟨y, .refl, .stuck hi hv ?_ y⟩
      exact hc
    | accept hi' ho =>
      rw [hi] at hi'
      cases hi'

/-- With the handler in pieces the interrupt does what the controller and the processor let it. -/
theorem vectored_simulation (h : OneHandler exec B flag handler own body) :
    Machine.Simulation (vectored exec B flag handler) (Machine.pieces exec B body fun s => flag.get s =
      true) (Mirrors exec flag own) where
  env _ _ _ hxy he := mirrors_env h hxy he
  op o x r x' y hxy he := by
    cases hxy with
    | @idle s c hc =>
      obtain ⟨⟨r', s'⟩, hs, heq⟩ := Option.map_eq_some_iff.1 (show (exec o s).map _ = _ from he)
      cases heq
      refine ⟨(s', none), trivial, ?_, .idle hc⟩
      show (exec o s).map _ = _
      rw [hs]
      rfl
    | handling | returning | stuck => cases he

/-- The controller when only `own` interrupts, with nothing requested. -/
inductive Paced (exec : (o : Op) → σ → Option (Ret o × σ)) (flag : Lens σ Bool) (own : Nat) :
    Machine.Pieces Op Ret σ → Vectored Op Ret σ → Prop
  | idle {s : σ} : Paced exec flag own (s, none) (s, ⟨fun _ => false, fun _ => false⟩, [])
  | handling {s : σ} {rest : Prog Op Ret Unit} (hi : flag.get s = true) (hrest : rest.All (Aloof exec flag)) :
    Paced exec flag own (s, some rest)
      (flag.put false s, ⟨fun _ => false, Function.update (fun _ => false) own true⟩, [(true, .handler rest)])

theorem pieces_simulation (h : OneHandler exec B flag handler own body) :
    Machine.Simulation (Machine.pieces exec B body fun s => flag.get s = true) (vectored exec B flag handler)
      (Paced exec flag own) where
  env x x' y hxy he := by
    cases hxy with
    | @idle s =>
      cases he with
      | background hb => exact ⟨_, .single (.background hb), .idle⟩
      -- the handler comes at once: its vector is requested and accepted
      | enter hi =>
        let c : Vectors := ⟨fun _ => false, fun _ => false⟩
        have hoffers : (c.request own).Offers own := by
          refine ⟨Function.update_self _ _ _, fun w hw => ?_, nofun⟩
          by_cases hwo : w = own
          · omega
          · have hw' : Function.update c.requested own true w = true := hw
            rw [Function.update_of_ne hwo] at hw'
            cases hw'
        have hidle : (c.request own).accept own = ⟨fun _ => false, Function.update (fun _ => false) own true⟩ := by
          show Vectors.mk (Function.update (Function.update c.requested own true) own false) _ = _
          rw [Function.update_idem]
          exact congrArg (Vectors.mk · _) (Function.update_eq_self own _)
        refine ⟨_, .tail (.single (.request own)) (.accept hi hoffers), ?_⟩
        rw [hidle, hi, workFor, h.found]
        exact .handling hi h.aloof
    | @handling s rest hi hrest =>
      cases he with
      | background hb =>
        obtain ⟨hsame, hput⟩ := h.background _ _ hb
        exact ⟨_, .single (.background (hput false)), .handling (hsame.trans hi) hrest⟩
      | step hx =>
        obtain ⟨hsame, hput⟩ := hrest.1 _ _ _ hx
        exact ⟨_, .single (.step (hput false)), .handling (hsame.trans hi) (hrest.2 _)⟩
      | leave =>
        have hs : flag.put true (flag.put false s) = s := by rw [flag.put_put, ← hi, flag.put_get]
        have hfree : Function.update (Function.update (fun _ => false) own true) own false = fun _ => false := by
          rw [Function.update_idem]
          exact Function.update_eq_self own _
        have hown : Function.update (fun _ => false) own true own = true := Function.update_self _ _ _
        have hends := @Vectors.Ends.highest ⟨fun _ => false, Function.update (fun _ => false) own true⟩ own hown
          fun w hw => by
          by_cases hwo : w = own
          · omega
          · have hw' : Function.update (fun _ => false) own true w = true := hw
            rw [Function.update_of_ne hwo] at hw'
            cases hw'
        rw [hfree] at hends
        have hm : Paced exec flag own (flag.put true (flag.put false s), none)
          (flag.put true (flag.put false s), ⟨fun _ => false, fun _ => false⟩, []) := .idle
        refine ⟨_, .tail (.single (.eoi hends)) .iret, ?_⟩
        rw [hs] at hm ⊢
        exact hm
  op o x r x' y hxy he := by
    cases hxy with
    | @idle s =>
      obtain ⟨⟨r', s'⟩, hs, heq⟩ := Option.map_eq_some_iff.1 (show (exec o s).map _ = _ from he)
      cases heq
      refine ⟨(s', ⟨fun _ => false, fun _ => false⟩, []), trivial, ?_, .idle⟩
      show (exec o s).map _ = _
      rw [hs]
      rfl
    | handling => cases he

variable {ι : Type} {Res : ι → Type} {main : (i : ι) → Prog Op Ret (Res i)} {boot : σ → Prop} {i : ι}
  {p : Prog Op Ret (Res i)} {s : σ}

/-- At boot nothing is in service and nothing interrupted. -/
def Unserved (boot : σ → Prop) (x : Vectored Op Ret σ) : Prop :=
  boot x.1 ∧ (∀ v, x.2.1.inService v = false) ∧ x.2.2 = []

theorem vectored_mirrors (h : OneHandler exec B flag handler own body) {x : Vectored Op Ret σ}
    (hd : (vectored exec B flag handler).During main (Unserved boot) i p x) :
    ∃ y, (Machine.pieces exec B body fun s => flag.get s = true).During main (Machine.AtRest boot) i p y ∧
      Mirrors exec flag own x y := by
  refine (vectored_simulation h).during (fun x hx => ?_) hd
  obtain ⟨s, c, ws⟩ := x
  obtain ⟨hb, hc, rfl⟩ := hx
  exact ⟨(s, none), ⟨hb, rfl⟩, .idle hc⟩

/-- Where no interrupt is at work, the program comes to the same states as with the handler in pieces. -/
theorem vectored_during_iff (h : OneHandler exec B flag handler own body) :
    (∃ c, (vectored exec B flag handler).During main (Unserved boot) i p (s, c, [])) ↔
      (Machine.pieces exec B body fun s => flag.get s = true).During main (Machine.AtRest boot) i p (s, none) := by
  constructor
  · rintro ⟨c, hd⟩
    obtain ⟨y, hd', hm⟩ := vectored_mirrors h hd
    cases hm
    exact hd'
  · intro hd
    have hboot : ∀ x : Machine.Pieces Op Ret σ, Machine.AtRest boot x → ∃ y, Unserved boot y ∧
      Paced exec flag own x y := by
      rintro ⟨s, x⟩ ⟨hb, rfl⟩
      exact ⟨_, ⟨hb, fun _ => rfl, rfl⟩, .idle⟩
    obtain ⟨y, hd', hm⟩ := (pieces_simulation h).during hboot hd
    cases hm
    exact ⟨_, hd'⟩

/-- Work for a vector without a handler stays. -/
theorem stuck_runs (h : OneHandler exec B flag handler own body) {α : Type} {p p' : Prog Op Ret α} {c : Vectors}
    {x : Vectored Op Ret σ} (hi : flag.get s = false)
    (hr : (vectored exec B flag handler).Runs (p, s, c, [(true, .stuck)]) (p', x)) :
    p' = p ∧ flag.get x.1 = false ∧ x.2.1.inService = c.inService ∧ x.2.2 = [(true, .stuck)] := by
  generalize hc : (p', x) = d at hr
  induction hr generalizing p' x with
  | refl =>
    cases hc
    exact ⟨rfl, hi, rfl, rfl⟩
  | tail _ hs ih =>
    subst hc
    cases hs with
    | @op o k s₁ _ r _ he =>
      obtain ⟨-, -, -, hws⟩ := ih rfl
      have hexec : (if s₁.2.2.isEmpty then (exec o s₁.1).map fun r => (r.1, (r.2, s₁.2.1, s₁.2.2)) else none) =
        some (r, x) := he
      rw [hws] at hexec
      cases hexec
    | @env _ s₁ _ he =>
      obtain ⟨rfl, hi₁, hc₁, hws⟩ := ih rfl
      obtain ⟨s₁, c₁, ws₁⟩ := s₁
      cases hws
      cases he with
      | background hb => exact ⟨rfl, (h.background _ _ hb).1.trans hi₁, hc₁, rfl⟩
      | request v => exact ⟨rfl, hi₁, hc₁, rfl⟩
      | accept hi' ho =>
        have := hi₁.symm.trans hi'
        cases this

end Handler

end Octagram.Lib

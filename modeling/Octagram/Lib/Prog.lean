/-
Sequential programs that run one primitive operation at a time while their environment takes steps
in between: pre- and postconditions that are stable under the environment, with the rules for
results, operations, sequencing and framing, and sessions, in which one call follows the other.
-/
import Mathlib.Logic.Relation
import Mathlib.Tactic.Common

namespace Octagram.Lib

/-- A program over the operations `Op`: a result, or an operation and what follows on its answer. -/
inductive Prog (Op : Type) (Ret : Op → Type) (α : Type) : Type
  | ret (a : α)
  | op (o : Op) (k : Ret o → Prog Op Ret α)

namespace Prog

variable {Op : Type} {Ret : Op → Type} {α β γ : Type}

/-- One program after the other. -/
def bind : Prog Op Ret α → (α → Prog Op Ret β) → Prog Op Ret β
  | ret a, f => f a
  | op o k, f => op o fun r => (k r).bind f

instance : Monad (Prog Op Ret) where
  pure := ret
  bind := bind

/-- The program of one operation. -/
def call (o : Op) : Prog Op Ret (Ret o) := op o ret

@[simp] theorem pure_eq (a : α) : (pure a : Prog Op Ret α) = ret a := rfl

@[simp] theorem ret_bind (a : α) (f : α → Prog Op Ret β) : (ret a >>= f) = f a := rfl

@[simp] theorem op_bind (o : Op) (k : Ret o → Prog Op Ret α) (f : α → Prog Op Ret β) :
    (op o k >>= f) = op o fun r => k r >>= f := rfl

@[simp] theorem call_bind (o : Op) (f : Ret o → Prog Op Ret β) : (call o >>= f) = op o f := rfl

@[simp] theorem bind_bind (p : Prog Op Ret α) (f : α → Prog Op Ret β) (g : β → Prog Op Ret γ) :
    ((p >>= f) >>= g) = p >>= fun a => f a >>= g := by
  induction p with
  | ret a => rfl
  | op o k ih => exact congrArg (op o) (funext ih)

/-- Every operation the program can come to satisfies `φ`. -/
def All (φ : Op → Prop) : Prog Op Ret α → Prop
  | ret _ => True
  | op o k => φ o ∧ ∀ r, (k r).All φ

@[simp] theorem all_ret (φ : Op → Prop) (a : α) : (ret a : Prog Op Ret α).All φ := trivial

@[simp] theorem all_op (φ : Op → Prop) (o : Op) (k : Ret o → Prog Op Ret α) :
    (op o k).All φ ↔ φ o ∧ ∀ r, (k r).All φ := Iff.rfl

@[simp] theorem all_call (φ : Op → Prop) (o : Op) : (call o : Prog Op Ret (Ret o)).All φ ↔ φ o :=
  ⟨fun h => h.1, fun h => ⟨h, fun _ => trivial⟩⟩

theorem All.bind {φ : Op → Prop} {p : Prog Op Ret α} {f : α → Prog Op Ret β} (hp : p.All φ) (hf : ∀ a, (f a).All φ) :
    (p >>= f).All φ := by
  induction p with
  | ret a => exact hf a
  | op o k ih => exact ⟨hp.1, fun r => ih r (hp.2 r)⟩

theorem All.mono {φ ψ : Op → Prop} {p : Prog Op Ret α} (hp : p.All φ) (h : ∀ o, φ o → ψ o) : p.All ψ := by
  induction p with
  | ret a => trivial
  | op o k ih => exact ⟨h o hp.1, fun r => ih r (hp.2 r)⟩

/-- Every result the program can come to satisfies `ψ`. -/
def Returns (ψ : α → Prop) : Prog Op Ret α → Prop
  | ret a => ψ a
  | op _ k => ∀ r, (k r).Returns ψ

theorem Returns.bind {ψ : β → Prop} (p : Prog Op Ret α) {f : α → Prog Op Ret β} (hf : ∀ a, (f a).Returns ψ) :
    (p >>= f).Returns ψ := by
  induction p with
  | ret a => exact hf a
  | op o k ih => exact fun r => ih r

theorem Returns.seq {φ : α → Prop} {ψ : β → Prop} {p : Prog Op Ret α} {f : α → Prog Op Ret β} (hp : p.Returns φ)
    (hf : ∀ a, φ a → (f a).Returns ψ) : (p >>= f).Returns ψ := by
  induction p with
  | ret a => exact hf a hp
  | op o k ih => exact fun r => ih r (hp r)

end Prog

/-- A machine for such programs: what an operation does (`none`: it is blocked), what the
environment can do between two operations, and which operations a run may take. -/
structure Machine (Op : Type) (Ret : Op → Type) (σ : Type) where
  exec : (o : Op) → σ → Option (Ret o × σ)
  env : σ → σ → Prop
  allowed : Op → σ → Prop

namespace Machine

variable {Op : Type} {Ret : Op → Type} {σ α β : Type} (M : Machine Op Ret σ)

/-- One step: of the program, or of the environment. -/
inductive Step : Prog Op Ret α × σ → Prog Op Ret α × σ → Prop
  | op {o : Op} {k : Ret o → Prog Op Ret α} {s s' : σ} {r : Ret o} (ha : M.allowed o s)
      (h : M.exec o s = some (r, s')) : Step (.op o k, s) (k r, s')
  | env {p : Prog Op Ret α} {s s' : σ} (h : M.env s s') : Step (p, s) (p, s')

/-- Any number of steps. -/
def Runs (c c' : Prog Op Ret α × σ) : Prop := Relation.ReflTransGen M.Step c c'

/-- An assertion that the environment cannot falsify. -/
def Stable (P : σ → Prop) : Prop := ∀ s s', P s → M.env s s' → P s'

/-- Started where `P` holds, `p` ends only where `Q` of its result holds. -/
def Triple (P : σ → Prop) (p : Prog Op Ret α) (Q : α → σ → Prop) : Prop :=
  ∀ s, P s → ∀ a s', M.Runs (p, s) (.ret a, s') → Q a s'

variable {M} {P P' : σ → Prop} {Q Q' : α → σ → Prop}

theorem Stable.and (h : M.Stable P) (h' : M.Stable P') : M.Stable fun s => P s ∧ P' s :=
  fun s s' hp he => ⟨h s s' hp.1 he, h' s s' hp.2 he⟩

theorem Stable.exists {ι : Type} {R : ι → σ → Prop} (h : ∀ i, M.Stable (R i)) : M.Stable fun s => ∃ i, R i s :=
  fun s s' ⟨i, hp⟩ he => ⟨i, h i s s' hp he⟩

/-- What a stable assertion says holds through steps of the environment. -/
theorem Stable.runs_of_ret (h : M.Stable P) {a : α} {s : σ} {c : Prog Op Ret α × σ} (hr : M.Runs (.ret a, s) c)
    (hp : P s) : c.1 = .ret a ∧ P c.2 := by
  induction hr with
  | refl => exact ⟨rfl, hp⟩
  | tail _ hs ih =>
    cases hs with
    | op _ _ => cases ih.1
    | env he => exact ⟨ih.1, h _ _ ih.2 he⟩

theorem Stable.runs_ret (h : M.Stable P) {a b : α} {s s' : σ} (hr : M.Runs (.ret a, s) (.ret b, s')) (hp : P s) :
    a = b ∧ P s' := by
  obtain ⟨he, hp'⟩ := h.runs_of_ret hr hp
  exact ⟨(Prog.ret.inj he).symm, hp'⟩

/-- A run of a program that starts with an operation: environment steps, the operation, the rest. -/
theorem Stable.runs_op (h : M.Stable P) {o : Op} {k : Ret o → Prog Op Ret α} {a : α} {s s' : σ}
    (hr : M.Runs (.op o k, s) (.ret a, s')) (hp : P s) :
    ∃ s₁ r s₂, P s₁ ∧ M.allowed o s₁ ∧ M.exec o s₁ = some (r, s₂) ∧ M.Runs (k r, s₂) (.ret a, s') := by
  generalize hc : ((.op o k, s) : Prog Op Ret α × σ) = c at hr
  induction hr using Relation.ReflTransGen.head_induction_on generalizing s with
  | refl => cases hc
  | head hs hrest ih =>
    subst hc
    cases hs with
    | op ha he => exact ⟨s, _, _, hp, ha, he, hrest⟩
    | env he => exact ih (h _ _ hp he) rfl

/-! ## The rules -/

theorem triple_ret (hs : M.Stable P) {a : α} (h : ∀ s, P s → Q a s) : M.Triple P (.ret a) Q := by
  intro s hp b s' hr
  obtain ⟨rfl, hp'⟩ := hs.runs_ret hr hp
  exact h s' hp'

theorem triple_op (hs : M.Stable P) {o : Op} {k : Ret o → Prog Op Ret α} (R : Ret o → σ → Prop)
    (h : ∀ s r s', P s → M.allowed o s → M.exec o s = some (r, s') → R r s')
    (hk : ∀ r, M.Triple (R r) (k r) Q) : M.Triple P (.op o k) Q := by
  intro s hp a s' hr
  obtain ⟨s₁, r, s₂, hp₁, ha, he, hrest⟩ := hs.runs_op hr hp
  exact hk r s₂ (h s₁ r s₂ hp₁ ha he) a s' hrest

theorem triple_call (hs : M.Stable P) {o : Op} {f : Ret o → Prog Op Ret α} (R : Ret o → σ → Prop)
    (h : ∀ s r s', P s → M.allowed o s → M.exec o s = some (r, s') → R r s')
    (hf : ∀ r, M.Triple (R r) (f r) Q) : M.Triple P (Prog.call o >>= f) Q := triple_op hs R h hf

/-- A run of `p >>= f` to its end is a run of `p` to its end, then one of `f`. -/
theorem runs_bind {p : Prog Op Ret α} {f : α → Prog Op Ret β} {s s' : σ} {b : β}
    (hr : M.Runs (p >>= f, s) (.ret b, s')) :
    ∃ a s₁, M.Runs (p, s) (.ret a, s₁) ∧ M.Runs (f a, s₁) (.ret b, s') := by
  generalize hc : ((p >>= f, s) : Prog Op Ret β × σ) = c at hr
  induction hr using Relation.ReflTransGen.head_induction_on generalizing p s with
  | refl =>
    cases p with
    | ret a => exact ⟨a, s, .refl, by rw [← Prog.ret_bind a f, hc]; exact .refl⟩
    | op o k => cases hc
  | head hs hrest ih =>
    subst hc
    cases p with
    | ret a => exact ⟨a, s, .refl, .head hs hrest⟩
    | op o k =>
      cases hs with
      | op ha he =>
        obtain ⟨a, s₁, h1, h2⟩ := ih rfl
        exact ⟨a, s₁, .head (.op ha he) h1, h2⟩
      | env he =>
        obtain ⟨a, s₁, h1, h2⟩ := ih rfl
        exact ⟨a, s₁, .head (.env he) h1, h2⟩

/-- Runs of `p` and then of `f` make a run of `p >>= f`. -/
theorem runs_seq {p : Prog Op Ret α} {f : α → Prog Op Ret β} {s s₁ : σ} {a : α} {c : Prog Op Ret β × σ}
    (hp : M.Runs (p, s) (.ret a, s₁)) (hf : M.Runs (f a, s₁) c) : M.Runs (p >>= f, s) c := by
  have hlift : ∀ c c' : Prog Op Ret α × σ, M.Runs c c' → M.Runs (c.1 >>= f, c.2) (c'.1 >>= f, c'.2) := by
    intro c c' hr
    induction hr with
    | refl => exact .refl
    | tail _ hs ih =>
      cases hs with
      | op ha he => exact ih.tail (.op ha he)
      | env he => exact ih.tail (.env he)
  exact (hlift _ _ hp).trans hf

theorem triple_bind {p : Prog Op Ret α} {f : α → Prog Op Ret β} {R : α → σ → Prop} {Q : β → σ → Prop}
    (hp : M.Triple P p R) (hf : ∀ a, M.Triple (R a) (f a) Q) : M.Triple P (p >>= f) Q := by
  intro s h b s' hr
  obtain ⟨a, s₁, h1, h2⟩ := runs_bind hr
  exact hf a s₁ (hp s h a s₁ h1) b s' h2

theorem Triple.conseq {p : Prog Op Ret α} (h : M.Triple P p Q) (hp : ∀ s, P' s → P s)
    (hq : ∀ a s, Q a s → Q' a s) : M.Triple P' p Q' :=
  fun s hs a s' hr => hq a s' (h s (hp s hs) a s' hr)

theorem Triple.and {p : Prog Op Ret α} (h : M.Triple P p Q) (h' : M.Triple P' p Q') :
    M.Triple (fun s => P s ∧ P' s) p fun a s => Q a s ∧ Q' a s :=
  fun s hs a s' hr => ⟨h s hs.1 a s' hr, h' s hs.2 a s' hr⟩

theorem triple_exists {ι : Type} {p : Prog Op Ret α} {R : ι → σ → Prop} (h : ∀ i, M.Triple (R i) p Q) :
    M.Triple (fun s => ∃ i, R i s) p Q :=
  fun s ⟨i, hs⟩ a s' hr => h i s hs a s' hr

/-- An operation that keeps the assertion. -/
theorem triple_keep (hs : M.Stable P) {o : Op} {k : Ret o → Prog Op Ret α}
    (h : ∀ s r s', P s → M.exec o s = some (r, s') → P s') (hk : ∀ r, M.Triple P (k r) Q) : M.Triple P (.op o k) Q :=
  triple_op hs (fun _ => P) (fun s r s' hp _ => h s r s' hp) hk

/-- The frame rule: what the environment and each operation of a program keep, the program keeps. -/
theorem triple_frame {φ : Op → Prop} {p : Prog Op Ret α} (hs : M.Stable P) (hp : p.All φ)
    (h : ∀ o s r s', φ o → P s → M.allowed o s → M.exec o s = some (r, s') → P s') : M.Triple P p fun _ => P := by
  induction p with
  | ret a => exact triple_ret hs fun _ h => h
  | op o k ih => exact triple_op hs (fun _ => P) (fun s r s' => h o s r s' hp.1) fun r => ih r (hp.2 r)

/-- An assertion that the environment keeps, and the operations of a class. -/
structure Framed (M : Machine Op Ret σ) (φ : Op → Prop) (P : σ → Prop) : Prop where
  stable : M.Stable P
  frame : ∀ o s r s', φ o → M.allowed o s → M.exec o s = some (r, s') → P s → P s'

theorem Framed.triple {φ : Op → Prop} {p : Prog Op Ret α} (h : M.Framed φ P) (hp : p.All φ) :
    M.Triple P p fun _ => P :=
  triple_frame h.stable hp fun o s r s' ho hs ha he => h.frame o s r s' ho ha he hs

theorem Framed.act {φ : Op → Prop} {o : Op} {f : Ret o → Prog Op Ret α} (h : M.Framed φ P) (ho : φ o)
    (hf : ∀ r, M.Triple P (f r) Q) : M.Triple P (Prog.call o >>= f) Q :=
  triple_call h.stable (fun _ => P) (fun s r s' hs ha he => h.frame o s r s' ho ha he hs) hf

/-- What a program can only return it returns. -/
theorem Triple.returns {p : Prog Op Ret α} {ψ : α → Prop} (hp : p.Returns ψ) (h : M.Triple P p Q) :
    M.Triple P p fun a s => ψ a ∧ Q a s := by
  intro s hs a s' hr
  refine ⟨?_, h s hs a s' hr⟩
  have : ∀ c c' : Prog Op Ret α × σ, M.Runs c c' → c.1.Returns ψ → c'.1.Returns ψ := by
    intro c c' hr hc
    induction hr with
    | refl => exact hc
    | tail _ hs ih =>
      cases hs with
      | op _ _ => exact ih _
      | env _ => exact ih
  exact this _ _ hr hp

/-! ## At every step -/

/-- Started where `P` holds, a run of `p` is only in states where `J` holds, also if it never ends. -/
def Throughout (M : Machine Op Ret σ) (P : σ → Prop) (p : Prog Op Ret α) (J : σ → Prop) : Prop :=
  ∀ s, P s → ∀ c, M.Runs (p, s) c → J c.2

variable {J : σ → Prop}

/-- A run of a program that starts with an operation is still before it, or has done it. -/
theorem Stable.runs_op_cases (h : M.Stable P) {o : Op} {k : Ret o → Prog Op Ret α} {s : σ} {c : Prog Op Ret α × σ}
    (hr : M.Runs (.op o k, s) c) (hp : P s) :
    P c.2 ∨ ∃ s₁ r s₂, P s₁ ∧ M.allowed o s₁ ∧ M.exec o s₁ = some (r, s₂) ∧ M.Runs (k r, s₂) c := by
  generalize hc : ((.op o k, s) : Prog Op Ret α × σ) = c₀ at hr
  induction hr using Relation.ReflTransGen.head_induction_on generalizing s with
  | refl =>
    subst hc
    exact .inl hp
  | head hs hrest ih =>
    subst hc
    cases hs with
    | op ha he => exact .inr ⟨s, _, _, hp, ha, he, hrest⟩
    | env he => exact ih (h _ _ hp he) rfl

/-- A run of `p >>= f` is still in `p`, or has come to its end. -/
theorem runs_bind_cases {p : Prog Op Ret α} {f : α → Prog Op Ret β} {s : σ} {c : Prog Op Ret β × σ}
    (hr : M.Runs (p >>= f, s) c) :
    (∃ p', M.Runs (p, s) (p', c.2)) ∨ ∃ a s₁, M.Runs (p, s) (.ret a, s₁) ∧ M.Runs (f a, s₁) c := by
  generalize hc : ((p >>= f, s) : Prog Op Ret β × σ) = c₀ at hr
  induction hr using Relation.ReflTransGen.head_induction_on generalizing p s with
  | refl =>
    subst hc
    exact .inl ⟨p, .refl⟩
  | head hs hrest ih =>
    subst hc
    cases p with
    | ret a => exact .inr ⟨a, s, .refl, .head hs hrest⟩
    | op o k =>
      cases hs with
      | op ha he =>
        rcases ih rfl with ⟨p', h⟩ | ⟨a, s₁, h1, h2⟩
        · exact .inl ⟨p', .head (.op ha he) h⟩
        · exact .inr ⟨a, s₁, .head (.op ha he) h1, h2⟩
      | env he =>
        rcases ih rfl with ⟨p', h⟩ | ⟨a, s₁, h1, h2⟩
        · exact .inl ⟨p', .head (.env he) h⟩
        · exact .inr ⟨a, s₁, .head (.env he) h1, h2⟩

theorem throughout_ret (hs : M.Stable P) (hJ : ∀ s, P s → J s) (a : α) : M.Throughout P (.ret a) J :=
  fun _ hp _ hr => hJ _ (hs.runs_of_ret hr hp).2

theorem throughout_op (hs : M.Stable P) (hJ : ∀ s, P s → J s) {o : Op} {k : Ret o → Prog Op Ret α}
    (R : Ret o → σ → Prop) (h : ∀ s r s', P s → M.allowed o s → M.exec o s = some (r, s') → R r s')
    (hk : ∀ r, M.Throughout (R r) (k r) J) : M.Throughout P (.op o k) J := by
  intro s hp c hr
  rcases hs.runs_op_cases hr hp with hc | ⟨s₁, r, s₂, hp₁, ha, he, hrest⟩
  · exact hJ _ hc
  · exact hk r s₂ (h s₁ r s₂ hp₁ ha he) c hrest

theorem throughout_bind {p : Prog Op Ret α} {f : α → Prog Op Ret β} {R : α → σ → Prop} (hp : M.Throughout P p J)
    (ht : M.Triple P p R) (hf : ∀ a, M.Throughout (R a) (f a) J) : M.Throughout P (p >>= f) J := by
  intro s hs c hr
  rcases runs_bind_cases hr with ⟨p', h⟩ | ⟨a, s₁, h1, h2⟩
  · exact hp s hs _ h
  · exact hf a s₁ (ht s hs a s₁ h1) c h2

theorem Throughout.conseq {p : Prog Op Ret α} {J' : σ → Prop} (h : M.Throughout P p J) (hp : ∀ s, P' s → P s)
    (hJ : ∀ s, J s → J' s) : M.Throughout P' p J' :=
  fun s hs c hr => hJ _ (h s (hp s hs) c hr)

/-- The frame rule at every step. -/
theorem Framed.throughout {φ : Op → Prop} {p : Prog Op Ret α} (h : M.Framed φ P) (hp : p.All φ) (hJ : ∀ s, P s → J s) :
    M.Throughout P p J := by
  induction p with
  | ret a => exact throughout_ret h.stable hJ a
  | op o k ih =>
    refine throughout_op h.stable hJ (fun _ => P) ?_ fun r => ih r (hp.2 r)
    exact fun s r s' hs ha he => h.frame o s r s' hp.1 ha he hs

/-- Started where `P` holds, a run of `p` is only in states where `J` holds, and ends only where `Q` of its
result holds. -/
structure Spec (M : Machine Op Ret σ) (P : σ → Prop) (p : Prog Op Ret α) (Q : α → σ → Prop) (J : σ → Prop) : Prop where
  triple : M.Triple P p Q
  throughout : M.Throughout P p J

theorem spec_ret (hs : M.Stable P) (hJ : ∀ s, P s → J s) {a : α} (h : ∀ s, P s → Q a s) : M.Spec P (.ret a) Q J :=
  ⟨triple_ret hs h, throughout_ret hs hJ a⟩

theorem spec_op (hs : M.Stable P) (hJ : ∀ s, P s → J s) {o : Op} {k : Ret o → Prog Op Ret α} (R : Ret o → σ → Prop)
    (h : ∀ s r s', P s → M.allowed o s → M.exec o s = some (r, s') → R r s') (hk : ∀ r, M.Spec (R r) (k r) Q J) :
    M.Spec P (.op o k) Q J :=
  ⟨triple_op hs R h fun r => (hk r).triple, throughout_op hs hJ R h fun r => (hk r).throughout⟩

theorem spec_bind {p : Prog Op Ret α} {f : α → Prog Op Ret β} {R : α → σ → Prop} {Q : β → σ → Prop}
    (hp : M.Spec P p R J) (hf : ∀ a, M.Spec (R a) (f a) Q J) : M.Spec P (p >>= f) Q J :=
  ⟨triple_bind hp.triple fun a => (hf a).triple, throughout_bind hp.throughout hp.triple fun a => (hf a).throughout⟩

theorem Spec.conseq {p : Prog Op Ret α} (h : M.Spec P p Q J) (hp : ∀ s, P' s → P s) (hq : ∀ a s, Q a s → Q' a s) :
    M.Spec P' p Q' J :=
  ⟨h.triple.conseq hp hq, h.throughout.conseq hp fun _ hs => hs⟩

theorem Spec.weaken {p : Prog Op Ret α} {J' : σ → Prop} (h : M.Spec P p Q J) (hJ : ∀ s, J s → J' s) : M.Spec P p Q J' :=
  ⟨h.triple, h.throughout.conseq (fun _ hs => hs) hJ⟩

/-- What does not depend on the state is assumed beside it. -/
theorem spec_pure {φ : Prop} {p : Prog Op Ret α} (h : φ → M.Spec P p Q J) : M.Spec (fun s => φ ∧ P s) p Q J :=
  ⟨fun s hs => (h hs.1).triple s hs.2, fun s hs => (h hs.1).throughout s hs.2⟩

theorem spec_exists {ι : Type} {R : ι → σ → Prop} {p : Prog Op Ret α} (h : ∀ i, M.Spec (R i) p Q J) :
    M.Spec (fun s => ∃ i, R i s) p Q J :=
  ⟨triple_exists fun i => (h i).triple, fun s hs => hs.elim fun i hi => (h i).throughout s hi⟩

theorem Framed.mono {φ ψ : Op → Prop} (h : M.Framed φ P) (hφ : ∀ o, ψ o → φ o) : M.Framed ψ P :=
  ⟨h.stable, fun o s r s' ho => h.frame o s r s' (hφ o ho)⟩

theorem Framed.and {φ : Op → Prop} (h : M.Framed φ P) (h' : M.Framed φ P') : M.Framed φ fun s => P s ∧ P' s :=
  ⟨h.stable.and h'.stable,
    fun o s r s' ho ha he hp => ⟨h.frame o s r s' ho ha he hp.1, h'.frame o s r s' ho ha he hp.2⟩⟩

theorem Framed.spec {φ : Op → Prop} {p : Prog Op Ret α} (h : M.Framed φ P) (hp : p.All φ) (hJ : ∀ s, P s → J s) :
    M.Spec P p (fun _ => P) J :=
  ⟨h.triple hp, h.throughout hp hJ⟩

/-- What the operations of a program keep is kept beside its postcondition. -/
theorem Spec.frame {φ : Op → Prop} {p : Prog Op Ret α} (h : M.Spec P p Q J) (hf : M.Framed φ P') (hp : p.All φ) :
    M.Spec (fun s => P s ∧ P' s) p (fun a s => Q a s ∧ P' s) J :=
  ⟨h.triple.and (hf.triple hp), h.throughout.conseq (fun _ hs => hs.1) fun _ hs => hs⟩

/-- An operation that keeps the assertion. -/
theorem Framed.actSpec {φ : Op → Prop} {o : Op} {f : Ret o → Prog Op Ret α} (h : M.Framed φ P) (hJ : ∀ s, P s → J s)
    (ho : φ o) (hf : ∀ r, M.Spec P (f r) Q J) : M.Spec P (Prog.call o >>= f) Q J :=
  spec_op h.stable hJ (fun _ => P) (fun s r s' hs ha he => h.frame o s r s' ho ha he hs) hf

/-! ## Sessions -/

section Session

variable {ι : Type} {Res : ι → Type}

/-- A call that returned: the states it started and ended in, and its result. -/
structure Return (σ : Type) (Res : ι → Type) where
  call : ι
  start : σ
  result : Res call
  final : σ

/-- The main context makes one call after the other, and the environment takes steps before, during
and after; `hist` are the calls that returned. -/
inductive Session (M : Machine Op Ret σ) (main : (i : ι) → Prog Op Ret (Res i)) (boot : σ → Prop) :
    List (Return σ Res) → σ → Prop
  | boot {s : σ} (h : boot s) : Session M main boot [] s
  | env {hist : List (Return σ Res)} {s s' : σ} (h : Session M main boot hist s) (he : M.env s s') :
      Session M main boot hist s'
  | call {hist : List (Return σ Res)} {s s' : σ} (h : Session M main boot hist s) (i : ι) {a : Res i}
      (hr : M.Runs (main i, s) (.ret a, s')) : Session M main boot (hist ++ [⟨i, s, a, s'⟩]) s'

variable {main : (i : ι) → Prog Op Ret (Res i)} {boot : σ → Prop} {hist : List (Return σ Res)} {s : σ}

/-- What holds after boot and is kept by the environment and by each call holds whenever no call
is running. -/
theorem Session.invariant {I : σ → Prop} (h : Session M main boot hist s) (hb : ∀ s, boot s → I s)
    (hs : M.Stable I) (hc : ∀ i, M.Triple I (main i) fun _ => I) : I s := by
  induction h with
  | boot h => exact hb _ h
  | env _ he ih => exact hs _ _ ih he
  | call _ i hr ih => exact hc i _ ih _ _ hr

/-- Every call in the history ran after the calls before it. -/
theorem Session.split (h : Session M main boot hist s) {before after : List (Return σ Res)} {r : Return σ Res}
    (he : hist = before ++ r :: after) :
    Session M main boot before r.start ∧ M.Runs (main r.call, r.start) (.ret r.result, r.final) := by
  induction h generalizing after with
  | boot => exact absurd he.symm (List.append_ne_nil_of_right_ne_nil _ (List.cons_ne_nil _ _))
  | env _ _ ih => exact ih he
  | call h i hr ih =>
    rcases List.eq_nil_or_concat after with rfl | ⟨after, last, rfl⟩
    · obtain ⟨rfl, hlast⟩ := List.append_inj' he rfl
      cases hlast
      exact ⟨h, hr⟩
    · rw [List.concat_eq_append, ← List.cons_append, ← List.append_assoc] at he
      exact ih (List.append_inj' he rfl).1

/-- Every call in the history ran from a state of the session. -/
theorem Session.returned (h : Session M main boot hist s) :
    ∀ r ∈ hist, (∃ hist', Session M main boot hist' r.start) ∧
      M.Runs (main r.call, r.start) (.ret r.result, r.final) := by
  intro r hr
  obtain ⟨before, after, he⟩ := List.append_of_mem hr
  obtain ⟨hs, hruns⟩ := h.split he
  exact ⟨⟨before, hs⟩, hruns⟩

end Session

end Machine

end Octagram.Lib

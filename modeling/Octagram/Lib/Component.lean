/-
A component of a larger machine: where the whole, seen through `get`, does for each call of the
component what the component's own machine does, a run of a program on the whole is a run of it on
the component (`Component.runs`), and its triples hold there. A step of the environment of the whole
is one of the component's environment, or changes nothing that the component sees.
-/
import Octagram.Lib.Procedures

namespace Octagram.Lib

variable {Op Call : Type} {Ret : Op → Type} {Res : Call → Type} {σ τ α : Type}

/-- The operations of a program are those of the bodies of its calls. -/
theorem Prog.All.expand {φ : Op → Prop} {ψ : Call → Prop} {body : (c : Call) → Prog Op Ret (Res c)}
    {p : Prog Call Res α} (hp : p.All ψ) (hbody : ∀ c, ψ c → (body c).All φ) : (p.expand body).All φ := by
  induction p with
  | ret a => trivial
  | op c k ih => exact (hbody c hp.1).bind fun r => ih r (hp.2 r)

namespace Machine

variable {M : Machine Op Ret σ} {N : Machine Call Res τ} {s s' : σ}

/-- Steps of the environment alone. -/
def Waits (M : Machine Op Ret σ) : σ → σ → Prop := Relation.ReflTransGen M.env

theorem Waits.runs (h : M.Waits s s') (p : Prog Op Ret α) : M.Runs (p, s) (p, s') := by
  induction h with
  | refl => exact .refl
  | tail _ he ih => exact ih.tail (.env he)

theorem stable_waits (s : σ) : M.Stable (M.Waits s) := fun _ _ h he => h.tail he

/-- What the environment cannot falsify. -/
theorem Stable.waits {P : σ → Prop} (hs : M.Stable P) (h : M.Waits s s') (hp : P s) : P s' := by
  induction h with
  | refl => exact hp
  | tail _ he ih => exact hs _ _ ih he

theorem runs_ret_inv {a b : α} (h : M.Runs ((.ret a : Prog Op Ret α), s) (.ret b, s')) : a = b ∧ M.Waits s s' :=
  (stable_waits s).runs_ret h .refl

/-- A run of one operation: the environment takes steps before it and after it. -/
theorem runs_call_iff {o : Op} {r : Ret o} : M.Runs (Prog.call o, s) (.ret r, s') ↔
    ∃ s₁ s₂, M.Waits s s₁ ∧ M.allowed o s₁ ∧ M.exec o s₁ = some (r, s₂) ∧ M.Waits s₂ s' := by
  constructor
  · intro h
    obtain ⟨s₁, r', s₂, hw, ha, he, hrest⟩ := (stable_waits s).runs_op h .refl
    obtain ⟨rfl, hw'⟩ := runs_ret_inv hrest
    exact ⟨s₁, s₂, hw, ha, he, hw'⟩
  · rintro ⟨s₁, s₂, hw, ha, he, hw'⟩
    exact (hw.runs _).trans (.head (.op ha he) (hw'.runs _))

/-- Where each step of the environment is one that the part knows, a wait of the whole is a wait of the part. -/
theorem waits_of_env {I : σ → Prop} {get : σ → τ} (h : ∀ s s', I s → M.env s s' → I s' ∧ N.Waits (get s) (get s'))
    (hw : M.Waits s s') (hI : I s) : I s' ∧ N.Waits (get s) (get s') := by
  induction hw with
  | refl => exact ⟨hI, .refl⟩
  | tail _ he ih =>
    obtain ⟨hI', hw'⟩ := h _ _ ih.1 he
    exact ⟨hI', ih.2.trans hw'⟩

theorem all_true (p : Prog Op Ret α) : p.All fun _ => True := by
  induction p with
  | ret a => trivial
  | op o k ih => exact ⟨trivial, ih⟩

/-- What no step falsifies, a sequence of calls keeps. -/
theorem Framed.exec {P : σ → Prop} {body : (c : Call) → Prog Op Ret (Res c)} {p : Prog Call Res α}
    {tr : List (Σ c, Res c)} {a : α} (h : M.Framed (fun _ => True) P) (hx : p.Exec (M.Calls body) s tr a s')
    (hs : P s) : P s' := by
  induction hx with
  | ret => exact hs
  | call hc _ ih => exact ih (h.triple (all_true _) _ hs _ _ hc)

/-- The part `get` of the whole behaves as the machine `N`, where `I` holds of the whole. -/
structure Component (M : Machine Op Ret σ) (N : Machine Call Res τ) (body : (c : Call) → Prog Op Ret (Res c))
    (I : σ → Prop) (get : σ → τ) : Prop where
  env : ∀ s s', I s → M.env s s' → I s' ∧ N.Waits (get s) (get s')
  calls : ∀ c s r s', I s → M.Runs (body c, s) (.ret r, s') → I s' ∧ N.Runs (Prog.call c, get s) (.ret r, get s')

namespace Component

variable {body : (c : Call) → Prog Op Ret (Res c)} {I : σ → Prop} {get : σ → τ}

/-- A run of a program on the whole is one on the component. -/
theorem runs (h : M.Component N body I get) {p : Prog Call Res α} {a : α}
    (hr : M.Runs (p.expand body, s) (.ret a, s')) (hI : I s) : I s' ∧ N.Runs (p, get s) (.ret a, get s') := by
  obtain ⟨tr, s₁, hex, hend⟩ := exec_of_runs hr
  have hstart : I s₁ ∧ N.Runs (p, get s) (.ret a, get s₁) := by
    clear hr hend
    induction hex with
    | ret => exact ⟨hI, .refl⟩
    | call hc _ ih =>
      obtain ⟨hI₁, hr₁⟩ := h.calls _ _ _ _ hI hc
      obtain ⟨hI₂, hr₂⟩ := ih hI₁
      exact ⟨hI₂, runs_seq hr₁ hr₂⟩
  obtain ⟨hI', hw⟩ := waits_of_env h.env (runs_ret_inv hend).2 hstart.1
  exact ⟨hI', hstart.2.trans (hw.runs _)⟩

end Component

end Machine

end Octagram.Lib

/-
Programs whose operations are calls of procedures. A run of such a program, with the bodies in the
place of the calls, is a run of one call after the other; what is known of each call then says what
the program does and which calls it makes.
-/
import Octagram.Lib.Prog

namespace Octagram.Lib

variable {Op Call : Type} {Ret : Op → Type} {Res : Call → Type} {σ τ α β : Type}

namespace Prog

@[simp] theorem bind_ret (p : Prog Op Ret α) : (p >>= fun a => ret a) = p := by
  induction p with
  | ret a => rfl
  | op o k ih => exact congrArg (op o) (funext ih)

/-- The program with the bodies in the place of the calls. -/
def expand (body : (c : Call) → Prog Op Ret (Res c)) : Prog Call Res α → Prog Op Ret α
  | ret a => ret a
  | op c k => body c >>= fun r => (k r).expand body

section Expand

variable {body : (c : Call) → Prog Op Ret (Res c)}

@[simp] theorem expand_ret (a : α) : (ret a : Prog Call Res α).expand body = ret a := rfl

@[simp] theorem expand_call_bind (c : Call) (f : Res c → Prog Call Res α) :
    (call c >>= f).expand body = body c >>= fun r => (f r).expand body := rfl

@[simp] theorem expand_call (c : Call) : (call c : Prog Call Res (Res c)).expand body = body c := bind_ret (body c)

@[simp] theorem expand_bind (p : Prog Call Res α) (f : α → Prog Call Res β) :
    (p >>= f).expand body = p.expand body >>= fun a => (f a).expand body := by
  induction p with
  | ret a => rfl
  | op c k ih =>
    show (body c >>= fun r => (k r >>= f).expand body) = (body c >>= fun r => (k r).expand body) >>= fun a =>
      (f a).expand body
    rw [bind_bind]
    exact congrArg _ (funext ih)

end Expand

/-- The program makes the calls `tr`, with these results, where `effect` says what each call does. -/
inductive Exec (effect : (c : Call) → τ → Res c → τ → Prop) :
    Prog Call Res α → τ → List (Σ c, Res c) → α → τ → Prop
  | ret (a : α) (t : τ) : Exec effect (ret a) t [] a t
  | call {c : Call} {k : Res c → Prog Call Res α} {r : Res c} {t t₁ t' : τ} {tr : List (Σ c, Res c)} {a : α}
      (h : effect c t r t₁) (hk : Exec effect (k r) t₁ tr a t') : Exec effect (op c k) t (⟨c, r⟩ :: tr) a t'

variable {effect : (c : Call) → τ → Res c → τ → Prop} {t t' : τ} {tr : List (Σ c, Res c)}

theorem Exec.ret_inv {a b : α} (h : Exec effect (.ret a) t tr b t') : tr = [] ∧ b = a ∧ t' = t := by
  cases h
  exact ⟨rfl, rfl, rfl⟩

theorem Exec.call_inv {c : Call} {f : Res c → Prog Call Res α} {a : α} (h : Exec effect (Prog.call c >>= f) t tr a t') :
    ∃ r t₁ tr', tr = ⟨c, r⟩ :: tr' ∧ effect c t r t₁ ∧ Exec effect (f r) t₁ tr' a t' := by
  cases h with
  | call h hk => exact ⟨_, _, _, rfl, h, hk⟩

/-- The calls of `p >>= f` are those of `p` and then those of `f`. -/
theorem Exec.bind_inv {p : Prog Call Res α} {f : α → Prog Call Res β} {b : β} (h : Exec effect (p >>= f) t tr b t') :
    ∃ a t₁ tr₁ tr₂, tr = tr₁ ++ tr₂ ∧ Exec effect p t tr₁ a t₁ ∧ Exec effect (f a) t₁ tr₂ b t' := by
  induction p generalizing t tr with
  | ret a => exact ⟨a, t, [], tr, rfl, .ret a t, h⟩
  | op c k ih =>
    cases h with
    | call h hk =>
      obtain ⟨a, t₁, tr₁, tr₂, rfl, h₁, h₂⟩ := ih _ hk
      exact ⟨a, t₁, _ :: tr₁, tr₂, rfl, .call h h₁, h₂⟩

/-- Where each call is matched by one at another level, the program is. -/
theorem Exec.simulate {effect' : (c : Call) → σ → Res c → σ → Prop} {sim : τ → σ → Prop} {p : Prog Call Res α} {a : α}
    (hsim : ∀ c t s r t₁, sim t s → effect c t r t₁ → ∃ s₁, effect' c s r s₁ ∧ sim t₁ s₁)
    (h : Exec effect p t tr a t') {s : σ} (hs : sim t s) : ∃ s', Exec effect' p s tr a s' ∧ sim t' s' := by
  induction h generalizing s with
  | ret a t => exact ⟨s, .ret a s, hs⟩
  | call h _ ih =>
    obtain ⟨s₁, he, hs₁⟩ := hsim _ _ _ _ _ hs h
    obtain ⟨s', hk, hs'⟩ := ih hs₁
    exact ⟨s', .call he hk, hs'⟩

end Prog

namespace Machine

variable (M : Machine Op Ret σ) (body : (c : Call) → Prog Op Ret (Res c))

/-- What a call does: a run of its body to its end. -/
def Calls (c : Call) (s : σ) (r : Res c) (s' : σ) : Prop := M.Runs (body c, s) (.ret r, s')

variable {M body}

/-- A run of a program with the bodies in the place of the calls makes the calls one after the other. -/
theorem exec_of_runs {p : Prog Call Res α} {s s' : σ} {a : α} (h : M.Runs (p.expand body, s) (.ret a, s')) :
    ∃ tr s₁, p.Exec (M.Calls body) s tr a s₁ ∧ M.Runs ((.ret a : Prog Op Ret α), s₁) (.ret a, s') := by
  induction p generalizing s with
  | ret b =>
    have htrue : M.Stable fun _ => True := fun _ _ _ _ => trivial
    obtain ⟨rfl, -⟩ := htrue.runs_ret h trivial
    exact ⟨[], s, .ret b s, h⟩
  | op c k ih =>
    obtain ⟨r, s₁, h₁, h₂⟩ := runs_bind h
    obtain ⟨tr, s₂, hk, hend⟩ := ih r h₂
    exact ⟨⟨c, r⟩ :: tr, s₂, .call h₁ hk, hend⟩

end Machine

end Octagram.Lib

/-
A state with a shadow: operations compute on the state alone, the environment changes the shadow
alone, and some operations drop a part of it. What the operations of a program do to the state, one
after the other (`Along`), decides what the shadow can be at each of them (`shadowed_runs`); where
the program is known by its evaluation, so are these states (`shadowed_of_eval`).
-/
import Octagram.Lib.Preempt

namespace Octagram.Lib

namespace Prog

variable {Op : Type} {Ret : Op → Type} {σ α β : Type} (exec : (o : Op) → σ → Option (Ret o × σ))

/-- Every operation that the program comes to when it runs alone is of `φ`, which also sees the states around it. -/
def Along (φ : Op → σ → σ → Prop) : Prog Op Ret α → σ → Prop
  | ret _, _ => True
  | op o k, s => ∀ r s', exec o s = some (r, s') → φ o s s' ∧ (k r).Along φ s'

variable {exec} {φ ψ : Op → σ → σ → Prop} {s s' : σ}

theorem Along.bind {p : Prog Op Ret α} {f : α → Prog Op Ret β} (hp : p.Along exec φ s)
    (hf : ∀ a s', p.eval exec s = some (a, s') → (f a).Along exec φ s') : (p >>= f).Along exec φ s := by
  induction p generalizing s with
  | ret a => exact hf a s rfl
  | op o k ih =>
    intro r s' he
    obtain ⟨hφ, hk⟩ := hp r s' he
    exact ⟨hφ, ih r hk fun a s'' ha => hf a s'' ((eval_op he).trans ha)⟩

theorem Along.mono {p : Prog Op Ret α} (hp : p.Along exec φ s) (h : ∀ o s s', φ o s s' → ψ o s s') :
    p.Along exec ψ s := by
  induction p generalizing s with
  | ret a => trivial
  | op o k ih =>
    intro r s' he
    obtain ⟨hφ, hk⟩ := hp r s' he
    exact ⟨h o s s' hφ, ih r hk⟩

end Prog

namespace Machine

variable {Op : Type} {Ret : Op → Type} {σ τ α : Type}

/-- The machine of a state and its shadow. -/
def shadowed (exec : (o : Op) → σ → Option (Ret o × σ)) (drop : Op → τ → τ) (env : σ → τ → τ → Prop) :
    Machine Op Ret (σ × τ) where
  exec o s := (exec o s.1).map fun r => (r.1, (r.2, drop o s.2))
  env s s' := s'.1 = s.1 ∧ env s.1 s.2 s'.2
  allowed _ _ := True

variable {exec : (o : Op) → σ → Option (Ret o × σ)} {drop : Op → τ → τ} {env : σ → τ → τ → Prop} {φ : Op → σ → σ → Prop}
  {I : σ → τ → Prop}

/-- What is kept by the environment, and by the operations that the program comes to when it runs alone, is kept
by every run; and the state is that of the program running alone. -/
theorem shadowed_runs (henv : ∀ s t t', I s t → env s t t' → I s t')
    (hop : ∀ o s s' t, φ o s s' → I s t → I s' (drop o t)) {p p' : Prog Op Ret α} {x x' : σ × τ}
    (hr : (shadowed exec drop env).Runs (p, x) (p', x')) (hp : p.Along exec φ x.1) (hI : I x.1 x.2) :
    I x'.1 x'.2 ∧ p'.Along exec φ x'.1 ∧ p'.eval exec x'.1 = p.eval exec x.1 := by
  generalize hc : (p, x) = c at hr
  generalize hc' : (p', x') = c' at hr
  -- by induction on the run, from its end: an operation goes along the program, the environment leaves it alone
  induction hr generalizing p' x' with
  | refl =>
    rw [← hc] at hc'
    cases hc'
    exact ⟨hI, hp, rfl⟩
  | @tail b _ _ hs ih =>
    obtain ⟨q, y⟩ := b
    obtain ⟨hIy, hq, heval⟩ := ih rfl
    cases hs with
    | @op o k _ z r _ he =>
      cases hc'
      obtain ⟨⟨r', s'⟩, hexec, heq⟩ := Option.map_eq_some_iff.1 he
      cases heq
      obtain ⟨hφ, hk⟩ := hq _ _ hexec
      exact ⟨hop _ _ _ _ hφ hIy, hk, by rw [← heval, Prog.eval_op hexec]⟩
    | env he =>
      cases hc'
      obtain ⟨hs, ht⟩ := he
      rw [hs]
      exact ⟨henv _ _ _ hIy ht, hq, heval⟩

/-- What runs alone runs with any shadow. -/
theorem shadowed_of_eval {p : Prog Op Ret α} {s s' : σ} {a : α} (h : p.eval exec s = some (a, s')) (t : τ) :
    ∃ t', (shadowed exec drop env).Runs (p, (s, t)) (.ret a, (s', t')) := by
  induction p generalizing s t with
  | ret b =>
    cases h
    exact ⟨t, .refl⟩
  | op o k ih =>
    obtain ⟨⟨r, s₁⟩, he, hk⟩ := Option.bind_eq_some_iff.1 h
    obtain ⟨t', hr⟩ := ih r hk (drop o t)
    have hx : (shadowed exec drop env).exec o (s, t) = some (r, (s₁, drop o t)) := Option.map_eq_some_iff.2 ⟨_, he, rfl⟩
    exact ⟨t', .head (.op trivial hx) hr⟩

end Machine

end Octagram.Lib

/-
Programs that can come to their end: from every state of an assertion there is a run that does, with
those steps of the environment that the program waits for (`CanEnd`). An operation that always has
an answer needs none (`canEnd_call`); a wait ends if the environment can bring about what is waited
for (`canEnd_wait`); sequencing puts runs one after the other (`canEnd_bind`).
-/
import Octagram.Lib.Component

namespace Octagram.Lib

variable {Op : Type} {Ret : Op → Type} {σ α β : Type}

namespace Machine

/-- Started where `P` holds, `p` can end where `Q` of its result holds. -/
def CanEnd (M : Machine Op Ret σ) (P : σ → Prop) (p : Prog Op Ret α) (Q : α → σ → Prop) : Prop :=
  ∀ s, P s → ∃ a s', M.Runs (p, s) (.ret a, s') ∧ Q a s'

variable {M : Machine Op Ret σ} {P P' : σ → Prop} {Q : α → σ → Prop}

theorem canEnd_ret {a : α} (h : ∀ s, P s → Q a s) : M.CanEnd P (.ret a) Q :=
  fun s hs => ⟨a, s, .refl, h s hs⟩

/-- An operation that is not blocked. -/
theorem canEnd_call {o : Op} {f : Ret o → Prog Op Ret α} (R : Ret o → σ → Prop)
    (h : ∀ s, P s → M.allowed o s ∧ ∃ r s', M.exec o s = some (r, s') ∧ R r s')
    (hf : ∀ r, M.CanEnd (R r) (f r) Q) : M.CanEnd P (Prog.call o >>= f) Q := by
  intro s hs
  obtain ⟨ha, r, s₁, he, hr⟩ := h s hs
  obtain ⟨a, s', hrun, hq⟩ := hf r s₁ hr
  exact ⟨a, s', .head (.op ha he) hrun, hq⟩

/-- An operation whose answer is known. -/
theorem canEnd_answer {o : Op} {f : Ret o → Prog Op Ret α} {r : Ret o}
    (h : ∀ s, P s → M.allowed o s ∧ ∃ s', M.exec o s = some (r, s') ∧ P' s') (hf : M.CanEnd P' (f r) Q) :
    M.CanEnd P (Prog.call o >>= f) Q := by
  intro s hs
  obtain ⟨ha, s₁, he, hs₁⟩ := h s hs
  obtain ⟨a, s', hrun, hq⟩ := hf s₁ hs₁
  exact ⟨a, s', .head (.op ha he) hrun, hq⟩

/-- What the program waits for comes to hold. -/
theorem canEnd_wait {p : Prog Op Ret α} (h : ∀ s, P s → ∃ s', M.Waits s s' ∧ P' s') (hp : M.CanEnd P' p Q) :
    M.CanEnd P p Q := by
  intro s hs
  obtain ⟨s₁, hw, hs₁⟩ := h s hs
  obtain ⟨a, s', hrun, hq⟩ := hp s₁ hs₁
  exact ⟨a, s', (hw.runs p).trans hrun, hq⟩

theorem canEnd_bind {p : Prog Op Ret α} {f : α → Prog Op Ret β} {R : α → σ → Prop} {Q : β → σ → Prop}
    (hp : M.CanEnd P p R) (hf : ∀ a, M.CanEnd (R a) (f a) Q) : M.CanEnd P (p >>= f) Q := by
  intro s hs
  obtain ⟨a, s₁, hrun, hr⟩ := hp s hs
  obtain ⟨b, s', hrun', hq⟩ := hf a s₁ hr
  exact ⟨b, s', runs_seq hrun hrun', hq⟩

/-- The operations of a class are never blocked where `P` holds, and keep it. -/
def Free (M : Machine Op Ret σ) (φ : Op → Prop) (P : σ → Prop) : Prop :=
  ∀ o s, φ o → P s → M.allowed o s ∧ ∃ r s', M.exec o s = some (r, s') ∧ P s'

theorem Free.act {φ : Op → Prop} {o : Op} {f : Ret o → Prog Op Ret α} (h : M.Free φ P) (ho : φ o)
    (hf : ∀ r, M.CanEnd P (f r) Q) : M.CanEnd P (Prog.call o >>= f) Q :=
  canEnd_call (fun _ => P) (fun s hs => h o s ho hs) hf

end Machine

end Octagram.Lib

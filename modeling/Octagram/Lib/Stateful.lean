/-
Stateful programs that may fail: what follows on a call that returned (`stateT_bind_ok`) and on one
that did not, and loops over a list whose rounds each append something to the state
(`appends_foldlM`), which append all of it one after the other.
-/
import Mathlib.Tactic.Common

namespace Octagram.Lib

variable {σ ε α β : Type} {x : StateT σ (Except ε) α} {f : α → StateT σ (Except ε) β} {s s' : σ}

/-- A program that continues after a call runs on with the call's result. -/
theorem stateT_bind_ok {a : α} (h : x.run s = .ok (a, s')) (f : α → StateT σ (Except ε) β) :
    (x >>= f).run s = (f a).run s' := by
  rw [StateT.run_bind, h]
  rfl

/-- A program whose first call fails fails with the call's error. -/
theorem stateT_bind_error {e : ε} (h : x.run s = .error e) (f : α → StateT σ (Except ε) β) :
    (x >>= f).run s = .error e := by
  rw [StateT.run_bind, h]
  rfl

/-- A loop with a call that fails in every state fails. -/
theorem forM_run_error {γ : Type} {f : γ → StateT σ (Except ε) PUnit} {l : List γ} {a : γ} (ha : a ∈ l)
    (h : ∀ s, ∃ e, (f a).run s = .error e) (s : σ) : ∃ e, (forM l f).run s = .error e := by
  induction l generalizing s with
  | nil => cases ha
  | cons b l ih =>
    rw [List.forM_cons]
    cases hb : (f b).run s with
    | error e => exact ⟨e, stateT_bind_error hb _⟩
    | ok p =>
      rw [stateT_bind_ok hb]
      rcases List.mem_cons.1 ha with rfl | ha
      · obtain ⟨e, he⟩ := h s
        rw [he] at hb
        cases hb
      · exact ih ha p.2

/-- Where two calls one after the other return, both do. -/
theorem stateT_bind_eq_ok {s'' : σ} {b : β} (h : (x >>= f).run s = .ok (b, s'')) :
    ∃ a s', x.run s = .ok (a, s') ∧ (f a).run s' = .ok (b, s'') := by
  rw [StateT.run_bind] at h
  cases hx : x.run s with
  | error e =>
    rw [hx] at h
    cases h
  | ok p =>
    rw [hx] at h
    exact ⟨p.1, p.2, rfl, h⟩

/-! ## Loops that append -/

/-- From every state of `I` the program appends these values to what it is given, and comes to a state of `I`. -/
def Appends {γ : Type} (I : σ → Prop) (x : List γ → StateT σ (Except ε) (List γ)) (l : List γ) : Prop :=
  ∀ s acc, I s → ∃ s', (x acc).run s = .ok (acc ++ l, s') ∧ I s'

theorem appends_foldlM {γ δ : Type} {I : σ → Prop} {f : List γ → δ → StateT σ (Except ε) (List γ)} {g : δ → List γ}
    {l : List δ} (h : ∀ a ∈ l, Appends I (fun acc => f acc a) (g a)) :
    Appends I (fun acc => l.foldlM f acc) (l.flatMap g) := by
  induction l with
  | nil =>
    intro s acc hs
    refine ⟨s, ?_, hs⟩
    rw [List.flatMap_nil, List.append_nil]
    rfl
  | cons a l ih =>
    intro s acc hs
    obtain ⟨s₁, hrun₁, hs₁⟩ := h a List.mem_cons_self s acc hs
    obtain ⟨s₂, hrun₂, hs₂⟩ := ih (fun b hb => h b (List.mem_cons_of_mem a hb)) s₁ (acc ++ g a) hs₁
    refine ⟨s₂, ?_, hs₂⟩
    simp only [List.foldlM_cons]
    rw [stateT_bind_ok hrun₁, hrun₂, List.flatMap_cons, List.append_assoc]

end Octagram.Lib

/-
Programs without interference, and the machine on which whole runs of handlers come between the
operations of a program: what every handler keeps is stable. The machine records where the program
is, so that a rule about the handlers can speak of the places where they come.
-/
import Octagram.Lib.Loop
import Octagram.Lib.Prog

namespace Octagram.Lib

variable {Op : Type} {Ret : Op → Type} {σ ρ α β ι : Type}

namespace Prog

/-- The run of a program by itself; `none`: an operation of it is blocked. -/
def eval (exec : (o : Op) → σ → Option (Ret o × σ)) : Prog Op Ret α → σ → Option (α × σ)
  | ret a, s => some (a, s)
  | op o k, s => (exec o s).bind fun r => (k r.1).eval exec r.2

variable {exec : (o : Op) → σ → Option (Ret o × σ)} {s s' : σ}

@[simp] theorem eval_ret (a : α) (s : σ) : (ret a : Prog Op Ret α).eval exec s = some (a, s) := rfl

theorem eval_op {o : Op} {k : Ret o → Prog Op Ret α} {r : Ret o} (h : exec o s = some (r, s')) :
    (op o k).eval exec s = (k r).eval exec s' := by
  rw [eval, h]
  rfl

theorem eval_call {o : Op} {f : Ret o → Prog Op Ret α} {r : Ret o} (h : exec o s = some (r, s')) :
    (call o >>= f).eval exec s = (f r).eval exec s' := eval_op h

theorem eval_bind (p : Prog Op Ret α) (f : α → Prog Op Ret β) (s : σ) :
    (p >>= f).eval exec s = (p.eval exec s).bind fun r => (f r.1).eval exec r.2 := by
  induction p generalizing s with
  | ret a => rfl
  | op o k ih =>
    rw [op_bind, eval, eval]
    cases exec o s with
    | none => rfl
    | some r => exact ih r.1 r.2

theorem eval_seq {p : Prog Op Ret α} {f : α → Prog Op Ret β} {a : α} (h : p.eval exec s = some (a, s')) :
    (p >>= f).eval exec s = (f a).eval exec s' := by
  rw [eval_bind, h]
  rfl

/-- A loop over a list is a fold. -/
theorem eval_forM (f : ι → Prog Op Ret PUnit) (l : List ι) (s : σ) :
    (forM l f).eval exec s = (l.foldlM (fun s i => ((f i).eval exec s).map Prod.snd) s).map fun s => (⟨⟩, s) := by
  induction l generalizing s with
  | nil => rfl
  | cons i l ih =>
    rw [List.forM_cons, eval_bind, List.foldlM_cons]
    cases (f i).eval exec s with
    | none => rfl
    | some r => exact ih r.2

/-- A loop that counts: each round returns and takes the invariant of its number to the next. -/
theorem eval_range {f : Nat → Prog Op Ret PUnit} {n : Nat} (I : Nat → σ → Prop) (h : I 0 s)
    (hf : ∀ k, k < n → ∀ s, I k s → ∃ s', (f k).eval exec s = some (⟨⟩, s') ∧ I (k + 1) s') :
    ∃ s', (forM (List.range n) f).eval exec s = some (⟨⟩, s') ∧ I n s' := by
  obtain ⟨s', hs, hI⟩ := foldlM_range (f := fun s i => ((f i).eval exec s).map Prod.snd) I h fun k hk s hs => by
    obtain ⟨s₁, h₁, hI⟩ := hf k hk s hs
    exact ⟨s₁, by rw [h₁]; rfl, hI⟩
  refine ⟨s', ?_, hI⟩
  rw [eval_forM, hs]
  rfl

theorem All.forM {φ : Op → Prop} {f : ι → Prog Op Ret PUnit} {l : List ι} (h : ∀ i ∈ l, (f i).All φ) :
    (forM l f : Prog Op Ret PUnit).All φ := by
  induction l with
  | nil => exact trivial
  | cons i l ih =>
    rw [List.forM_cons]
    exact All.bind (h i (List.mem_cons_self ..)) fun _ => ih fun j hj => h j (List.mem_cons_of_mem _ hj)

end Prog

/-- A machine with a record of where the program is, which each operation takes to its next `place`. Between two
operations any of the handlers may run to its end, where `may` lets it; it leaves the record alone. -/
def preemptible (exec : (o : Op) → σ → Option (Ret o × σ)) (place : Op → σ → ρ → ρ) (handler : ι → Prog Op Ret Unit)
    (may : ι → σ × ρ → Prop) : Machine Op Ret (σ × ρ) where
  exec o c := (exec o c.1).map fun r => (r.1, (r.2, place o c.1 c.2))
  env c c' := ∃ i, may i c ∧ (handler i).eval exec c.1 = some ((), c'.1) ∧ c'.2 = c.2
  allowed _ _ := True

namespace Machine

variable {exec : (o : Op) → σ → Option (Ret o × σ)} {place : Op → σ → ρ → ρ} {handler : ι → Prog Op Ret Unit}
  {may : ι → σ × ρ → Prop} {P : σ × ρ → Prop}

/-- What every handler keeps is stable. -/
theorem stable_preemptible
    (h : ∀ i s s' w, P (s, w) → may i (s, w) → (handler i).eval exec s = some ((), s') → P (s', w)) :
    (preemptible exec place handler may).Stable P := by
  rintro ⟨s, w⟩ ⟨s', w'⟩ hp ⟨i, hm, he, hw⟩
  cases hw
  exact h i s s' w hp hm he

/-- The program's next operation. -/
theorem step_preemptible {o : Op} {k : Ret o → Prog Op Ret α} {s s' : σ} {r : Ret o} (h : exec o s = some (r, s'))
    (w : ρ) : (preemptible exec place handler may).Step (.op o k, (s, w)) (k r, (s', place o s w)) :=
  .op trivial (congrArg (Option.map _) h)

/-- A run by itself is one of the runs. -/
theorem runs_of_eval {p : Prog Op Ret α} {s s' : σ} {a : α} (h : p.eval exec s = some (a, s')) (w : ρ) :
    ∃ w', (preemptible exec place handler may).Runs (p, (s, w)) (.ret a, (s', w')) := by
  induction p generalizing s w with
  | ret b =>
    cases h
    exact ⟨w, .refl⟩
  | op o k ih =>
    rw [Prog.eval] at h
    obtain ⟨⟨r, s₁⟩, he, h⟩ := Option.bind_eq_some_iff.1 h
    obtain ⟨w', hr⟩ := ih r h (place o s w)
    exact ⟨w', .head (step_preemptible he w) hr⟩

end Machine

end Octagram.Lib

/-
A machine that keeps a record beside its state: the steps note in it what the state does not hold.
The record changes nothing: runs with it are runs without it (`recorded_runs`), each run without it
has one with it (`runs_recorded`), and what is proved of the machine holds of its state with a
record beside it (`Triple.recorded`).
-/
import Octagram.Lib.Prog

namespace Octagram.Lib

/-- What is noted of an operation, and of a step of the environment from one state to another. -/
structure Notes (Op σ γ : Type) where
  op : Op → σ → γ → γ
  env : σ → σ → γ → γ

/-- Notes of the program's operations alone. -/
abbrev Notes.ofOps {Op σ γ : Type} (note : Op → σ → γ → γ) : Notes Op σ γ := ⟨note, fun _ _ g => g⟩

namespace Machine

variable {Op : Type} {Ret : Op → Type} {σ γ α : Type} (M : Machine Op Ret σ) (N : Notes Op σ γ)

/-- The machine with a record. -/
def recorded : Machine Op Ret (σ × γ) where
  exec o s := (M.exec o s.1).map fun r => (r.1, (r.2, N.op o s.1 s.2))
  env s s' := M.env s.1 s'.1 ∧ s'.2 = N.env s.1 s'.1 s.2
  allowed o s := M.allowed o s.1

/-- The machine that only takes these steps. -/
def restrict (allowed : Op → σ → Prop) (env : σ → σ → Prop) : Machine Op Ret σ where
  exec := M.exec
  env s s' := M.env s s' ∧ env s s'
  allowed o s := M.allowed o s ∧ allowed o s

variable {M N}

theorem recorded_exec {o : Op} {s s' : σ × γ} {r : Ret o} (h : (M.recorded N).exec o s = some (r, s')) :
    M.exec o s.1 = some (r, s'.1) ∧ s'.2 = N.op o s.1 s.2 := by
  obtain ⟨⟨r', t⟩, he, hr⟩ := Option.map_eq_some_iff.1 h
  cases hr
  exact ⟨he, rfl⟩

theorem exec_recorded {o : Op} {s s' : σ} {r : Ret o} (h : M.exec o s = some (r, s')) (g : γ) :
    (M.recorded N).exec o (s, g) = some (r, (s', N.op o s g)) := by
  show (M.exec o s).map _ = _
  rw [h]
  rfl

/-- A run with the record is a run without it. -/
theorem recorded_runs {c c' : Prog Op Ret α × (σ × γ)} (h : (M.recorded N).Runs c c') :
    M.Runs (c.1, c.2.1) (c'.1, c'.2.1) := by
  induction h with
  | refl => exact .refl
  | tail _ hs ih =>
    cases hs with
    | op ha he => exact ih.tail (.op ha (recorded_exec he).1)
    | env he => exact ih.tail (.env he.1)

/-- A run without the record is a run with it. -/
theorem runs_recorded {c c' : Prog Op Ret α × σ} (h : M.Runs c c') (g : γ) :
    ∃ g', (M.recorded N).Runs (c.1, (c.2, g)) (c'.1, (c'.2, g')) := by
  induction h with
  | refl => exact ⟨g, .refl⟩
  | tail _ hs ih =>
    obtain ⟨g', hr⟩ := ih
    cases hs with
    | op ha he => exact ⟨_, hr.tail (.op ha (exec_recorded he g'))⟩
    | @env p s s' he => exact ⟨N.env s s' g', hr.tail (.env ⟨he, rfl⟩)⟩

/-- What holds of the state and does not look at the record. -/
theorem Stable.recorded {P : σ → Prop} (h : M.Stable P) : (M.recorded N).Stable fun s => P s.1 :=
  fun _ _ hp he => h _ _ hp he.1

theorem Triple.recorded {P : σ → Prop} {p : Prog Op Ret α} {Q : α → σ → Prop} (h : M.Triple P p Q) :
    (M.recorded N).Triple (fun s => P s.1) p fun a s => Q a s.1 :=
  fun s hp a s' hr => h s.1 hp a s'.1 (recorded_runs hr)

end Machine

end Octagram.Lib

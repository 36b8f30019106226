/-
Typestate for programs: an abstract state that each operation changes in a way of its own, and
programs that keep it in the safe states at every step and take each operation only where they
must, whatever their operations answer. A run of a machine follows the abstract state as long as
its operations are of a given kind (`Follows`); what a tracked program has come to is tracked
(`Follows.does`, `Follows.runs`).
-/
import Octagram.Lib.Protocol

namespace Octagram.Lib

/-- What an operation does to the abstract state, where a machine takes it, and where a program must take it. -/
structure Typestate (Op C : Type) where
  next : Op → C → C
  may : Op → C → Prop
  must : Op → C → Prop

namespace Prog

variable {Op : Type} {Ret : Op → Type} {C α β : Type} {T : Typestate Op C} {S : C → Prop} {c : C} {Q Q' : C → Prop}

/-- Started in `c` the program stays in safe states and takes its operations where it must, and if it ends, ends in
a state that satisfies `Q`. -/
def Tracks (T : Typestate Op C) (S : C → Prop) : Prog Op Ret α → C → (C → Prop) → Prop
  | ret _, c, Q => S c ∧ Q c
  | op o k, c, Q => S c ∧ T.must o c ∧ (T.may o c → ∀ r, Tracks T S (k r) (T.next o c) Q)

theorem Tracks.safe {p : Prog Op Ret α} (h : p.Tracks T S c Q) : S c := by
  cases p <;> exact h.1

theorem Tracks.mono {p : Prog Op Ret α} (h : p.Tracks T S c Q) (hq : ∀ c, Q c → Q' c) : p.Tracks T S c Q' := by
  induction p generalizing c with
  | ret a => exact ⟨h.1, hq c h.2⟩
  | op o k ih => exact ⟨h.1, h.2.1, fun hm r => ih r (h.2.2 hm r)⟩

theorem Tracks.bind {p : Prog Op Ret α} {f : α → Prog Op Ret β} (hp : p.Tracks T S c Q)
    (hf : ∀ a c, Q c → (f a).Tracks T S c Q') : (p >>= f).Tracks T S c Q' := by
  induction p generalizing c with
  | ret a => exact hf a c hp.2
  | op o k ih => exact ⟨hp.1, hp.2.1, fun hm r => ih r (hp.2.2 hm r)⟩

/-- A program whose operations leave the abstract state as it is, and may be taken in it. -/
theorem tracks_of_all {φ : Op → Prop} {p : Prog Op Ret α} (hp : p.All φ) (hn : ∀ o c, φ o → T.next o c = c)
    (hm : ∀ o, φ o → T.must o c) (hs : S c) (hq : Q c) : p.Tracks T S c Q := by
  induction p with
  | ret a => exact ⟨hs, hq⟩
  | op o k ih => exact ⟨hs, hm o hp.1, fun _ r => by rw [hn o c hp.1]; exact ih r (hp.2 r)⟩

end Prog

namespace Machine

variable {Op : Type} {Ret : Op → Type} {σ C α : Type} {M : Machine Op Ret σ} {T : Typestate Op C}

/-- `view` shows the abstract state of each state of the machine, as long as its operations satisfy `φ`; the
environment leaves it alone. -/
structure Follows (M : Machine Op Ret σ) (T : Typestate Op C) (view : σ → C) (φ : Op → Prop) : Prop where
  exec : ∀ o s r s', φ o → M.exec o s = some (r, s') → T.may o (view s) ∧ view s' = T.next o (view s)
  env : ∀ s s', M.env s s' → view s' = view s

variable {view : σ → C} {φ : Op → Prop} {S Q : C → Prop}

/-- What is left of a tracked program is tracked. -/
theorem Follows.does (hv : M.Follows T view φ) {c c' : Prog Op Ret α × σ} {ds : List (Performed Op Ret)}
    (hd : M.Does c ds c') (hφ : ∀ d ∈ ds, φ d.op) (h : c.1.Tracks T S (view c.2) Q) :
    c'.1.Tracks T S (view c'.2) Q := by
  induction hd with
  | refl => exact h
  | op ha he _ ih =>
    obtain ⟨hm, hn⟩ := hv.exec _ _ _ _ (hφ _ List.mem_cons_self) he
    refine ih (fun d hd => hφ d (List.mem_cons_of_mem _ hd)) ?_
    rw [hn]
    exact h.2.2 hm _
  | env he _ ih =>
    refine ih hφ ?_
    rw [hv.env _ _ he]
    exact h

theorem Follows.runs (hv : M.Follows T view φ) (hφ : ∀ o, φ o) {p p' : Prog Op Ret α} {s s' : σ}
    (hr : M.Runs (p, s) (p', s')) (h : p.Tracks T S (view s) Q) : p'.Tracks T S (view s') Q := by
  obtain ⟨ds, hd⟩ := hr.does
  exact hv.does hd (fun d _ => hφ d.op) h

end Machine

end Octagram.Lib

/-
Protocols over the operations of a program and their answers: which operation may come next, and where an
operation with its answer leads. A program conforms if it keeps to the protocol whatever it is answered, within
what is known of the answers; `bind` and `frame` prove it part by part. Then so does all it does on a machine
(`Answers.accepts`), whatever the environment does in between, as long as an invariant that ties the state of the
machine to the place in the protocol bears out what is known of the answers.
-/
import Octagram.Lib.Prog

namespace Octagram.Lib

/-- An operation that was done, with its answer. -/
structure Performed (Op : Type) (Ret : Op → Type) where
  op : Op
  answer : Ret op

/-- Which operation may come at a place, and which place it leads to with its answer. -/
structure Protocol (Op : Type) (Ret : Op → Type) (C : Type) where
  may : Op → C → Prop
  next : (o : Op) → Ret o → C → C

variable {Op : Type} {Ret : Op → Type} {C σ α β : Type}

/-- Each operation is one that may be done where those before it have led. -/
def Protocol.Accepts (T : Protocol Op Ret C) : C → List (Performed Op Ret) → Prop
  | _, [] => True
  | c, d :: ds => T.may d.op c ∧ T.Accepts (T.next d.op d.answer c) ds

namespace Prog

/-- Started at `c` and answered at each place as `A` says, the program does only what it may do, and if it ends,
ends where `Q` of its result holds. -/
def Conforms (T : Protocol Op Ret C) (A : C → (o : Op) → Ret o → Prop) : Prog Op Ret α → C → (α → C → Prop) → Prop
  | ret a, c, Q => Q a c
  | op o k, c, Q => T.may o c ∧ ∀ r, A c o r → Conforms T A (k r) (T.next o r c) Q

variable {T : Protocol Op Ret C} {A : C → (o : Op) → Ret o → Prop} {c : C} {Q Q' : α → C → Prop}

theorem Conforms.mono {p : Prog Op Ret α} (h : p.Conforms T A c Q) (hq : ∀ a c, Q a c → Q' a c) :
    p.Conforms T A c Q' := by
  induction p generalizing c with
  | ret a => exact hq a c h
  | op o k ih => exact ⟨h.1, fun r hr => ih r (h.2 r hr)⟩

theorem Conforms.bind {p : Prog Op Ret α} {f : α → Prog Op Ret β} {R : β → C → Prop} (h : p.Conforms T A c Q)
    (hf : ∀ a c, Q a c → (f a).Conforms T A c R) : (p >>= f).Conforms T A c R := by
  induction p generalizing c with
  | ret a => exact hf a c h
  | op o k ih => exact ⟨h.1, fun r hr => ih r (h.2 r hr)⟩

/-- What no operation of the program changes is at the end as it was at the start. -/
theorem Conforms.frame {γ : Type} {f : C → γ} {φ : Op → Prop} {p : Prog Op Ret α} (h : p.Conforms T A c Q)
    (hp : p.All φ) (hφ : ∀ o r c, φ o → f (T.next o r c) = f c) :
    p.Conforms T A c fun a c' => Q a c' ∧ f c' = f c := by
  induction p generalizing c with
  | ret a => exact ⟨h, rfl⟩
  | op o k ih =>
    refine ⟨h.1, fun r hr => (ih r (h.2 r hr) (hp.2 r)).mono fun a c' hc => ⟨hc.1, ?_⟩⟩
    exact hc.2.trans (hφ o r c hp.1)

/-- What all results of the program have in common, its result has. -/
theorem Conforms.returns {ψ : α → Prop} {p : Prog Op Ret α} (h : p.Conforms T A c Q) (hp : p.Returns ψ) :
    p.Conforms T A c fun a c' => Q a c' ∧ ψ a := by
  induction p generalizing c with
  | ret a => exact ⟨h, hp⟩
  | op o k ih => exact ⟨h.1, fun r hr => ih r (h.2 r hr) (hp r)⟩

end Prog

namespace Machine

/-- A run, with what the program did in it. -/
inductive Does (M : Machine Op Ret σ) : Prog Op Ret α × σ → List (Performed Op Ret) → Prog Op Ret α × σ → Prop
  | refl (c : Prog Op Ret α × σ) : M.Does c [] c
  | op {o : Op} {k : Ret o → Prog Op Ret α} {s s' : σ} {r : Ret o} {ds : List (Performed Op Ret)}
      {c : Prog Op Ret α × σ}
      (ha : M.allowed o s) (h : M.exec o s = some (r, s')) (hd : M.Does (k r, s') ds c) :
      M.Does (.op o k, s) (⟨o, r⟩ :: ds) c
  | env {p : Prog Op Ret α} {s s' : σ} {ds : List (Performed Op Ret)} {c : Prog Op Ret α × σ} (h : M.env s s')
      (hd : M.Does (p, s') ds c) : M.Does (p, s) ds c

variable {M : Machine Op Ret σ} {T : Protocol Op Ret C} {A : C → (o : Op) → Ret o → Prop}

theorem Does.trans {c c' c'' : Prog Op Ret α × σ} {ds ds' : List (Performed Op Ret)} (h : M.Does c ds c')
    (h' : M.Does c' ds' c'') : M.Does c (ds ++ ds') c'' := by
  induction h with
  | refl => exact h'
  | op ha he _ ih => exact .op ha he (ih h')
  | env he _ ih => exact .env he (ih h')

/-- The states right before and right after an operation of a run. -/
theorem Does.at_op {c c' : Prog Op Ret α × σ} {ds ds' : List (Performed Op Ret)} {d : Performed Op Ret}
    (h : M.Does c (ds ++ d :: ds') c') : ∃ k s s', M.Does c ds (.op d.op k, s) ∧ M.allowed d.op s ∧
      M.exec d.op s = some (d.answer, s') ∧ M.Does (k d.answer, s') ds' c' := by
  generalize hl : ds ++ d :: ds' = l at h
  induction h generalizing ds with
  | refl => exact absurd hl (List.append_ne_nil_of_right_ne_nil _ (List.cons_ne_nil _ _))
  | op ha he hd ih =>
    cases ds with
    | nil =>
      cases hl
      exact ⟨_, _, _, .refl _, ha, he, hd⟩
    | cons d₁ ds =>
      injection hl with h₁ hl
      subst h₁
      obtain ⟨k, s, s', h₁, h₂⟩ := ih hl
      exact ⟨k, s, s', .op ha he h₁, h₂⟩
  | env he _ ih =>
    obtain ⟨k, s, s', h₁, h₂⟩ := ih hl
    exact ⟨k, s, s', .env he h₁, h₂⟩

theorem Runs.does {c c' : Prog Op Ret α × σ} (h : M.Runs c c') : ∃ ds, M.Does c ds c' := by
  induction h using Relation.ReflTransGen.head_induction_on with
  | refl => exact ⟨[], .refl _⟩
  | head hs _ ih =>
    obtain ⟨ds, hd⟩ := ih
    cases hs with
    | op ha he => exact ⟨_, .op ha he hd⟩
    | env he => exact ⟨ds, .env he hd⟩

/-- Where `I` ties the state to the place in the protocol the machine answers as `A` says, and `I` lasts, as long as
the machine is asked only what `T` allows. -/
structure Answers (M : Machine Op Ret σ) (T : Protocol Op Ret C) (I : C → σ → Prop)
    (A : C → (o : Op) → Ret o → Prop) : Prop where
  stable : ∀ c, M.Stable (I c)
  exec : ∀ o s r s' c, T.may o c → I c s → M.exec o s = some (r, s') → A c o r ∧ I (T.next o r c) s'

/-- All that a conforming program does keeps to the protocol. -/
theorem Answers.accepts {I : C → σ → Prop} (hM : M.Answers T I A) {c c' : Prog Op Ret α × σ}
    {ds : List (Performed Op Ret)} (hd : M.Does c ds c') {b : C} {Q : α → C → Prop} (h : c.1.Conforms T A b Q)
    (hs : I b c.2) : T.Accepts b ds := by
  induction hd generalizing b with
  | refl c => trivial
  | op _ he _ ih =>
    obtain ⟨hr, hs'⟩ := hM.exec _ _ _ _ _ h.1 hs he
    exact ⟨h.1, ih (h.2 _ hr) hs'⟩
  | env he _ ih => exact ih h (hM.stable b _ _ hs he)

end Machine

end Octagram.Lib

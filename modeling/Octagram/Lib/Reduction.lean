/-
Reduction: a handler that runs operation by operation, with steps of a background in between, does what a
handler does that runs to its end at once, where background steps after its first operations can be done
before them, and those before its last operations can be done after them.
-/
import Octagram.Lib.Component
import Octagram.Lib.Preempt

namespace Octagram.Lib

variable {Op : Type} {Ret : Op → Type} {σ α : Type}

/-! ## Movers -/

section Movers

variable (exec : (o : Op) → σ → Option (Ret o × σ)) (B : σ → σ → Prop)

/-- Any number of steps of the background. -/
abbrev Idles : σ → σ → Prop := Relation.ReflTransGen B

/-- The background's steps before any operation that is left can be done after it. -/
def Late : Prog Op Ret α → σ → Prop
  | .ret _, _ => True
  | .op o k, s => (∀ t r t', Idles B s t → exec o t = some (r, t') → ∃ s', exec o s = some (r, s') ∧ Idles B s' t') ∧
    ∀ r s', exec o s = some (r, s') → Late (k r) s'

/-- The background's steps after any operation that is left can be done before it, up to an operation after
which the rest is late. -/
def Early : Prog Op Ret α → σ → Prop
  | .ret _, _ => True
  | .op o k, s => ∀ t r t', Idles B s t → exec o t = some (r, t') → Late exec B (k r) t' ∨
    Early (k r) t' ∧ ∀ t'', Idles B t' t'' → ∃ u, Idles B t u ∧ exec o u = some (r, t'')

/-- The handler by itself, with steps of the background between its operations. -/
def beside : Machine Op Ret σ where
  exec := exec
  env := B
  allowed _ _ := True

variable {exec B} {p : Prog Op Ret α} {s s' : σ} {a : α}

theorem Late.eval (h : Late exec B p s) (hr : (beside exec B).Runs (p, s) (.ret a, s')) :
    ∃ v, p.eval exec s = some (a, v) ∧ Idles B v s' := by
  induction p generalizing s with
  | ret b =>
    obtain ⟨rfl, hw⟩ := Machine.runs_ret_inv hr
    exact ⟨s, rfl, hw⟩
  | op o k ih =>
    obtain ⟨t, r, t', hw, -, he, hrest⟩ := (Machine.stable_waits s).runs_op hr .refl
    -- the steps before the operation come after it
    obtain ⟨s₁, hs₁, hw₁⟩ := h.1 t r t' hw he
    have hwait : (beside exec B).Waits s₁ t' := hw₁
    obtain ⟨v, hv, hidle⟩ := ih r (h.2 r s₁ hs₁) ((hwait.runs _).trans hrest)
    exact ⟨v, (Prog.eval_op hs₁).trans hv, hidle⟩

/-- A run with steps of the background in between has the same end as one where they come before and after. -/
theorem Early.eval (h : Early exec B p s) (hr : (beside exec B).Runs (p, s) (.ret a, s')) :
    ∃ u v, Idles B s u ∧ p.eval exec u = some (a, v) ∧ Idles B v s' := by
  induction p generalizing s with
  | ret b =>
    obtain ⟨rfl, hw⟩ := Machine.runs_ret_inv hr
    exact ⟨s, s, .refl, rfl, hw⟩
  | op o k ih =>
    obtain ⟨t, r, t', hw, -, he, hrest⟩ := (Machine.stable_waits s).runs_op hr .refl
    rcases h t r t' hw he with hlate | ⟨hearly, hmove⟩
    · obtain ⟨v, hv, hidle⟩ := hlate.eval hrest
      exact ⟨t, v, hw, (Prog.eval_op he).trans hv, hidle⟩
    · obtain ⟨u, v, hu, hv, hidle⟩ := ih r hearly hrest
      obtain ⟨w, htw, hw'⟩ := hmove u hu
      exact ⟨w, v, hw.trans htw, (Prog.eval_op hw').trans hv, hidle⟩

/-! ### Rules -/

variable {o : Op} {k : Ret o → Prog Op Ret α} {P N : σ → Prop}

theorem idles_keeps (hP : ∀ s t, P s → B s t → P t) (h : Idles B s s') (hs : P s) : P s' := by
  induction h with
  | refl => exact hs
  | tail _ hb ih => exact hP _ _ ih hb

theorem late_op (hP : ∀ s t, P s → B s t → P t)
    (hmove : ∀ s t r t', P s → B s t → exec o t = some (r, t') → ∃ s', exec o s = some (r, s') ∧ B s' t')
    (hk : ∀ s r s', P s → exec o s = some (r, s') → Late exec B (k r) s') (hs : P s) : Late exec B (.op o k) s := by
  refine ⟨fun t r t' hw he => ?_, fun r s' he => hk s r s' hs he⟩
  induction hw using Relation.ReflTransGen.head_induction_on with
  | refl => exact ⟨t', he, .refl⟩
  | head hb _ ih =>
    obtain ⟨u, hu, hw⟩ := ih (hP _ _ hs hb)
    obtain ⟨v, hv, hvu⟩ := hmove _ _ r u hs hb hu
    exact ⟨v, hv, .head hvu hw⟩

/-- A part all of whose operations can wait for the background, before one that is late. -/
theorem late_bind {β : Type} {φ : Op → Prop} {p : Prog Op Ret β} {f : β → Prog Op Ret α} (hp : p.All φ)
    (hP : ∀ s t, P s → B s t → P t)
    (hmove : ∀ o s t r t', φ o → B s t → exec o t = some (r, t') → ∃ s', exec o s = some (r, s') ∧ B s' t')
    (hkeep : ∀ o s r s', φ o → exec o s = some (r, s') → P s → P s') (hf : ∀ b s, P s → Late exec B (f b) s)
    (hs : P s) : Late exec B (p >>= f) s := by
  induction p generalizing s with
  | ret b => exact hf b s hs
  | op o k ih =>
    apply late_op hP
    · exact fun s t r t' _ => hmove o s t r t' hp.1
    · exact fun s r s' hs he => ih r (hp.2 r) (hkeep o s r s' hp.1 he hs)
    · exact hs

/-- `N` tells the states from which the operation is early; from the others the rest is late. -/
theorem early_op (hP : ∀ s t, P s → B s t → P t) (hN : ∀ s t, N s → B s t → N t)
    (hmove : ∀ s r s' t', P s → N s → exec o s = some (r, s') → B s' t' → ∃ t, B s t ∧ exec o t = some (r, t'))
    (hearly : ∀ s r s', P s → N s → exec o s = some (r, s') → Early exec B (k r) s')
    (hlate : ∀ s r s', P s → ¬ N s → exec o s = some (r, s') → Late exec B (k r) s') (hs : P s) :
    Early exec B (.op o k) s := by
  intro t r t' hw he
  have ht := idles_keeps hP hw hs
  by_cases hn : N t
  · refine .inr ⟨hearly t r t' ht hn he, fun t'' hw' => ?_⟩
    clear hearly hlate
    induction hw' using Relation.ReflTransGen.head_induction_on generalizing t with
    | refl => exact ⟨t, .refl, he⟩
    | head hb _ ih =>
      obtain ⟨u, hu, hu'⟩ := hmove t r _ _ ht hn he hb
      obtain ⟨v, hv, hv'⟩ := ih u (hw.tail hu) hu' (hP _ _ ht hu) (hN _ _ hn hu)
      exact ⟨v, .head hu hv, hv'⟩
  · exact .inl (hlate t r t' ht hn he)

end Movers

/-! ## The two machines -/

namespace Machine

variable (exec : (o : Op) → σ → Option (Ret o × σ)) (B : σ → σ → Prop) (handler : Prog Op Ret Unit) (may : σ → Prop)

/-- The handler runs to its end between two operations. -/
def whole : Machine Op Ret σ where
  exec := exec
  env s s' := B s s' ∨ may s ∧ handler.eval exec s = some ((), s')
  allowed _ _ := True

/-- What is left of the handler while it runs. -/
abbrev Pieces (Op : Type) (Ret : Op → Type) (σ : Type) := σ × Option (Prog Op Ret Unit)

/-- A step of the background, or of the handler. -/
inductive PieceEnv : Pieces Op Ret σ → Pieces Op Ret σ → Prop
  | background {s s' : σ} {x : Option (Prog Op Ret Unit)} (h : B s s') : PieceEnv (s, x) (s', x)
  | enter {s : σ} (h : may s) : PieceEnv (s, none) (s, some handler)
  | step {s s' : σ} {o : Op} {k : Ret o → Prog Op Ret Unit} {r : Ret o} (h : exec o s = some (r, s')) :
    PieceEnv (s, some (.op o k)) (s', some (k r))
  | leave {s : σ} : PieceEnv (s, some (.ret ())) (s, none)

/-- The handler runs operation by operation, and the program waits for its end. -/
def pieces : Machine Op Ret (Pieces Op Ret σ) where
  exec o c := if c.2.isSome then none else (exec o c.1).map fun r => (r.1, (r.2, none))
  env := PieceEnv exec B handler may
  allowed _ _ := True

variable {exec B handler may} {p p' : Prog Op Ret α} {s s' : σ} {x : Option (Prog Op Ret Unit)}

/-- The state of the whole machine: that before the handler, while it runs. -/
def Behind (exec : (o : Op) → σ → Option (Ret o × σ)) (B : σ → σ → Prop) (handler : Prog Op Ret Unit) (may : σ → Prop)
    (t : σ) : Pieces Op Ret σ → Prop
  | (s, none) => s = t
  | (s, some h) => may t ∧ (beside exec B).Runs (handler, t) (h, s)

/-- Every step is one of the whole machine, or one of the handler that it has yet to do. -/
theorem Behind.step {t : σ} {c c' : Pieces Op Ret σ} (hmay : ∀ s t, may s → B s t → may t)
    (hearly : ∀ s, may s → (whole exec B handler may).Runs (p, t) (p, s) → Early exec B handler s)
    (h : Behind exec B handler may t c) (he : PieceEnv exec B handler may c c') :
    ∃ t', (whole exec B handler may).Waits t t' ∧ Behind exec B handler may t' c' := by
  cases he with
  | @background s s' x hb =>
    cases x with
    | none =>
      obtain rfl := h
      exact ⟨s', .single (.inl hb), rfl⟩
    | some rest => exact ⟨t, .refl, h.1, h.2.tail (.env hb)⟩
  | enter hm =>
    obtain rfl := h
    exact ⟨_, .refl, hm, .refl⟩
  | step hx => exact ⟨t, .refl, h.1, h.2.tail (.op trivial hx)⟩
  | leave =>
    obtain ⟨u, v, hu, hv, hidle⟩ := (hearly t h.1 .refl).eval h.2
    have hwait : ∀ {s s'}, Idles B s s' → (whole exec B handler may).Waits s s' :=
      fun hw => Relation.ReflTransGen.mono (fun _ _ => Or.inl) _ _ hw
    exact ⟨_, ((hwait hu).tail (.inr ⟨idles_keeps hmay hu h.1, hv⟩)).trans (hwait hidle), rfl⟩

/-- A run in pieces is one of the whole machine. -/
theorem Behind.runs {t : σ} {c c' : Pieces Op Ret σ} (hmay : ∀ s t, may s → B s t → may t)
    (hearly : ∀ (q : Prog Op Ret α) s, may s → (whole exec B handler may).Runs (p, t) (q, s) → Early exec B handler s)
    (h : Behind exec B handler may t c) (hr : (pieces exec B handler may).Runs (p, c) (p', c')) :
    ∃ t', (whole exec B handler may).Runs (p, t) (p', t') ∧ Behind exec B handler may t' c' := by
  generalize hd : (p', c') = d at hr
  induction hr generalizing p' c' with
  | refl =>
    cases hd
    exact ⟨t, .refl, h⟩
  | tail _ hs ih =>
    subst hd
    cases hs with
    | @op o k c₁ _ r _ he =>
      obtain ⟨t₁, hr₁, hb₁⟩ := ih rfl
      obtain ⟨s₁, x₁⟩ := c₁
      cases x₁ with
      | some rest => cases he
      | none =>
        obtain rfl := hb₁
        -- an operation of the program waits for the handler, so the two machines are in the same state
        obtain ⟨⟨r', s₂⟩, he', heq⟩ := Option.map_eq_some_iff.1 (show (exec o s₁).map _ = _ from he)
        cases heq
        exact ⟨s₂, hr₁.tail (.op trivial he'), rfl⟩
    | env he =>
      obtain ⟨t₁, hr₁, hb₁⟩ := ih rfl
      obtain ⟨t₂, hw, hb₂⟩ := hb₁.step hmay (fun s hm hq => hearly _ s hm (hr₁.trans hq)) he
      exact ⟨t₂, hr₁.trans (hw.runs _), hb₂⟩

/-- A handler that runs to its end runs there in pieces. -/
theorem pieces_handler {q : Prog Op Ret Unit} (p : Prog Op Ret α) (h : q.eval exec s = some ((), s')) :
    (pieces exec B handler may).Runs (p, (s, some q)) (p, (s', none)) := by
  induction q generalizing s with
  | ret a =>
    cases h
    exact .single (.env .leave)
  | op o k ih =>
    obtain ⟨⟨r, s₁⟩, he, h⟩ := Option.bind_eq_some_iff.1 (show (exec o s).bind _ = _ from h)
    exact .head (.env (.step he)) (ih r h)

/-- A run of the whole machine is one in pieces. -/
theorem pieces_runs (hr : (whole exec B handler may).Runs (p, s) (p', s')) :
    (pieces exec B handler may).Runs (p, (s, none)) (p', (s', none)) := by
  generalize hc : (p', s') = c at hr
  induction hr generalizing p' s' with
  | refl =>
    cases hc
    exact .refl
  | tail _ hs ih =>
    subst hc
    cases hs with
    | @op o k s _ r _ he =>
      have hstep : (pieces exec B handler may).exec o (s, none) = some (r, (s', none)) := by
        show (exec o s).map _ = _
        rw [show exec o s = _ from he]
        rfl
      exact (ih rfl).tail (.op trivial hstep)
    | env he =>
      rcases he with hb | ⟨hm, he⟩
      · exact (ih rfl).tail (.env (.background hb))
      · exact ((ih rfl).tail (.env (.enter hm))).trans (pieces_handler _ he)

/-! ### Sessions -/

variable {ι : Type} {Res : ι → Type} {main : (i : ι) → Prog Op Ret (Res i)} {boot I : σ → Prop}

/-- At boot the handler does not run. -/
def AtRest (boot : σ → Prop) (c : Pieces Op Ret σ) : Prop := boot c.1 ∧ c.2 = none

/-- A configuration within a call of a session. -/
def During (M : Machine Op Ret σ) (main : (i : ι) → Prog Op Ret (Res i)) (boot : σ → Prop) (i : ι)
    (p : Prog Op Ret (Res i)) (s : σ) : Prop :=
  ∃ hist s₀, M.Session main boot hist s₀ ∧ M.Runs (main i, s₀) (p, s)

theorem Session.waits {M : Machine Op Ret σ} {hist : List (Return σ Res)} (h : M.Session main boot hist s)
    (hw : M.Waits s s') : M.Session main boot hist s' := by
  induction hw with
  | refl => exact h
  | tail _ he ih => exact ih.env he

theorem pieces_session (hmay : ∀ s t, may s → B s t → may t) (hearly : ∀ s, I s → may s → Early exec B handler s)
    (hI : ∀ i p s, (whole exec B handler may).During main boot i p s → I s)
    (hI₀ : ∀ hist s, (whole exec B handler may).Session main boot hist s → I s)
    {hist : List (Return (Pieces Op Ret σ) Res)} {c : Pieces Op Ret σ}
    (h : (pieces exec B handler may).Session main (AtRest boot) hist c) :
    ∃ hist' t, (whole exec B handler may).Session main boot hist' t ∧ Behind exec B handler may t c := by
  induction h with
  | @boot c h =>
    obtain ⟨s, x⟩ := c
    obtain ⟨hb, rfl⟩ := h
    exact ⟨[], s, .boot hb, rfl⟩
  | env _ he ih =>
    obtain ⟨hist', t, ht, hb⟩ := ih
    have hnow : ∀ s, may s → (whole exec B handler may).Runs ((.ret () : Prog Op Ret Unit), t) (.ret (), s) →
        Early exec B handler s := fun s hm hr => hearly s (hI₀ _ _ (ht.waits (runs_ret_inv hr).2)) hm
    obtain ⟨t', hw, hb'⟩ := hb.step hmay hnow he
    exact ⟨hist', t', ht.waits hw, hb'⟩
  | call _ i hr ih =>
    obtain ⟨hist', t, ht, hb⟩ := ih
    obtain ⟨t', hr', hb'⟩ := hb.runs hmay (fun q s hm hq => hearly s (hI i q s ⟨hist', t, ht, hq⟩) hm) hr
    exact ⟨_, t', ht.call i hr', hb'⟩

/-- The two machines come to the same configurations where the handler does not run. -/
theorem during_pieces_iff (hmay : ∀ s t, may s → B s t → may t) (hearly : ∀ s, I s → may s → Early exec B handler s)
    (hI : ∀ i p s, (whole exec B handler may).During main boot i p s → I s)
    (hI₀ : ∀ hist s, (whole exec B handler may).Session main boot hist s → I s) {i : ι} {p : Prog Op Ret (Res i)} :
    (pieces exec B handler may).During main (AtRest boot) i p (s, none) ↔
      (whole exec B handler may).During main boot i p s := by
  constructor
  · rintro ⟨hist, c, hc, hr⟩
    obtain ⟨hist', t, ht, hb⟩ := pieces_session hmay hearly hI hI₀ hc
    obtain ⟨t', hr', hb'⟩ := hb.runs hmay (fun q s hm hq => hearly s (hI i q s ⟨hist', t, ht, hq⟩) hm) hr
    obtain rfl := hb'
    exact ⟨hist', t, ht, hr'⟩
  · rintro ⟨hist, s₀, hs, hr⟩
    have hsession : ∃ hist', (pieces exec B handler may).Session main (AtRest boot) hist' (s₀, none) := by
      clear hr
      induction hs with
      | boot h => exact ⟨[], .boot ⟨h, rfl⟩⟩
      | env _ he ih =>
        obtain ⟨hist', hs⟩ := ih
        have hr := pieces_runs (p := (.ret () : Prog Op Ret Unit)) (.single (.env he))
        exact ⟨hist', hs.waits (runs_ret_inv hr).2⟩
      | call _ i hr ih =>
        obtain ⟨hist', hs⟩ := ih
        exact ⟨_, hs.call i (pieces_runs hr)⟩
    obtain ⟨hist', hs'⟩ := hsession
    exact ⟨hist', _, hs', pieces_runs hr⟩

end Machine

end Octagram.Lib

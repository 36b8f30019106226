/-
Loops that may fail: an invariant for a loop that counts (`forM_range_spec`), a loop over a list
that refines a fold which cannot fail (`foldlM_refines`), and a loop with a state that the first
error stops (`forM_range_error_iff`). The state that such a loop stops in is the one that the rounds
before the error leave.
-/
import Mathlib.Data.List.Basic
import Mathlib.Tactic.Common

namespace Octagram.Lib

variable {σ τ α : Type}

/-- A loop from 0 up to `n`: each round succeeds and takes the invariant of its number to the next. -/
theorem foldlM_range {f : σ → Nat → Option σ} {n : Nat} (I : Nat → σ → Prop) {s : σ} (h : I 0 s)
    (hf : ∀ k, k < n → ∀ s, I k s → ∃ s', f s k = some s' ∧ I (k + 1) s') :
    ∃ s', (List.range n).foldlM f s = some s' ∧ I n s' := by
  induction n with
  | zero => exact ⟨s, rfl, h⟩
  | succ n ih =>
    obtain ⟨s₁, h₁, hI⟩ := ih fun k hk => hf k (Nat.lt_succ_of_lt hk)
    obtain ⟨s₂, h₂, hI'⟩ := hf n (Nat.lt_succ_self n) s₁ hI
    refine ⟨s₂, ?_, hI'⟩
    rw [List.range_succ, List.foldlM_append, h₁]
    show (List.foldlM f s₁ [n]) = _
    rw [List.foldlM_cons, h₂]
    rfl

/-- A loop over a list: each round succeeds and keeps the relation to what the fold computes. -/
theorem foldlM_refines {f : σ → α → Option σ} {g : τ → α → τ} (R : τ → σ → Prop) {l : List α} {t : τ} {s : σ}
    (h : R t s) (hf : ∀ a ∈ l, ∀ t s, R t s → ∃ s', f s a = some s' ∧ R (g t a) s') :
    ∃ s', l.foldlM f s = some s' ∧ R (l.foldl g t) s' := by
  induction l generalizing t s with
  | nil => exact ⟨s, rfl, h⟩
  | cons a l ih =>
    obtain ⟨s₁, h₁, hR⟩ := hf a (List.mem_cons_self ..) t s h
    obtain ⟨s₂, h₂, hR'⟩ := ih hR fun b hb => hf b (List.mem_cons_of_mem _ hb)
    refine ⟨s₂, ?_, hR'⟩
    rw [List.foldlM_cons, h₁]
    exact h₂

/-! ## Loops with a state, stopped by the first error -/

section Stopping

variable {ε π : Type} {f : Nat → ExceptT ε (StateT σ (Except π)) PUnit} {s s' : σ} {e : ε} {n k : Nat}

/-- The last round of a loop comes after the others. -/
theorem forM_range_succ (f : Nat → ExceptT ε (StateT σ (Except π)) PUnit) (n : Nat) :
    forM (List.range (n + 1)) f = (do forM (List.range n) f; f n) := by
  rw [List.range_succ, List.forM_append, List.forM_cons, List.forM_nil, bind_pure_unit]

/-- After rounds that succeed, the loop goes on with the next one. -/
theorem forM_range_next (h : (forM (List.range n) f).run.run s = .ok (.ok (), s')) :
    (forM (List.range (n + 1)) f).run.run s = (f n).run.run s' := by
  rw [forM_range_succ, ExceptT.run_bind, StateT.run_bind, h]
  rfl

/-- An error stays the result. -/
theorem forM_range_stop (h : (forM (List.range n) f).run.run s = .ok (.error e, s')) :
    (forM (List.range (n + 1)) f).run.run s = .ok (.error e, s') := by
  rw [forM_range_succ, ExceptT.run_bind, StateT.run_bind, h]
  rfl

/-- The loop ends with an error exactly if some round fails with it after rounds that succeeded. -/
theorem forM_range_error_iff (hrun : ∀ m ≤ n, ∃ r s₁, (forM (List.range m) f).run.run s = .ok (r, s₁)) :
    (forM (List.range n) f).run.run s = .ok (.error e, s') ↔
      ∃ k < n, ∃ s₁, (forM (List.range k) f).run.run s = .ok (.ok (), s₁) ∧ (f k).run.run s₁ = .ok (.error e, s') := by
  induction n with
  | zero =>
    constructor
    · intro h
      cases h
    · rintro ⟨k, hk, -⟩
      cases hk
  | succ n ih =>
    have ih := ih fun m hm => hrun m (Nat.le_succ_of_le hm)
    obtain ⟨r, s₁, hr⟩ := hrun n (Nat.le_succ n)
    cases r with
    -- the first rounds stop with an error: it is that of the whole loop
    | error e' =>
      rw [forM_range_stop hr, ← hr, ih]
      constructor
      · rintro ⟨k, hk, h⟩
        exact ⟨k, Nat.lt_succ_of_lt hk, h⟩
      · rintro ⟨k, hk, s₂, hs, hf⟩
        rcases Nat.lt_succ_iff_lt_or_eq.1 hk with hk | rfl
        · exact ⟨k, hk, s₂, hs, hf⟩
        · rw [hr] at hs
          cases hs
    | ok u =>
      rw [forM_range_next hr]
      constructor
      · exact fun h => ⟨n, Nat.lt_succ_self n, s₁, hr, h⟩
      · rintro ⟨k, hk, s₂, hs, hf⟩
        rcases Nat.lt_succ_iff_lt_or_eq.1 hk with hk | rfl
        · have := ih.2 ⟨k, hk, s₂, hs, hf⟩
          rw [hr] at this
          cases this
        · rw [hr] at hs
          cases hs
          exact hf

/-- A loop whose rounds take the invariant of their number to the next, or fail and leave `E`: it
succeeds with the invariant, or fails and leaves `E`. -/
theorem forM_range_spec (I : Nat → σ → Prop) (E : σ → Prop) (h : I 0 s)
    (hf : ∀ k < n, ∀ s, I k s → (∃ s', (f k).run.run s = .ok (.ok (), s') ∧ I (k + 1) s') ∨
      ∃ e s', (f k).run.run s = .ok (.error e, s') ∧ E s') :
    (∃ s', (forM (List.range n) f).run.run s = .ok (.ok (), s') ∧ I n s') ∨
      ∃ e s', (forM (List.range n) f).run.run s = .ok (.error e, s') ∧ E s' := by
  induction n with
  | zero => exact .inl ⟨s, rfl, h⟩
  | succ n ih =>
    rcases ih fun k hk => hf k (Nat.lt_succ_of_lt hk) with ⟨s₁, hs, hI⟩ | ⟨e, s', hs, hE⟩
    · rw [forM_range_next hs]
      exact hf n (Nat.lt_succ_self n) s₁ hI
    · exact .inr ⟨e, s', forM_range_stop hs, hE⟩

/-- What a loop that returns has kept: each of its rounds returned and took the invariant of its number to
the next. -/
theorem forM_range_returns {g : Nat → StateT σ (Except π) PUnit} (I : Nat → σ → Prop) (h : I 0 s)
    (hg : ∀ k < n, ∀ s s', I k s → (g k).run s = .ok ((), s') → I (k + 1) s')
    (hrun : (forM (List.range n) g).run s = .ok ((), s')) : I n s' := by
  induction n generalizing s' with
  | zero =>
    cases hrun
    exact h
  | succ n ih =>
    rw [List.range_succ, List.forM_append, List.forM_cons, List.forM_nil, bind_pure_unit, StateT.run_bind] at hrun
    cases hn : (forM (List.range n) g).run s with
    | error m =>
      rw [hn] at hrun
      cases hrun
    | ok x =>
      rw [hn] at hrun
      exact hg n (Nat.lt_succ_self n) _ _ (ih (fun k hk => hg k (Nat.lt_succ_of_lt hk)) hn) hrun

end Stopping

end Octagram.Lib

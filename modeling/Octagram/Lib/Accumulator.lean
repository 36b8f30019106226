/-
Accumulators with a checked addition: a run of additions gets through exactly if every partial sum
is in range (`accumulate_isSome`), and then ends at the whole sum (`accumulate_eq_some`). Both by
induction on the numbers that are left, from any start.
-/
import Mathlib.Algebra.BigOperators.Group.List.Basic
import Mathlib.Tactic.Common

namespace Octagram.Lib

/-- The addition that fails outside the range. -/
def addChecked {α : Type} [Add α] (ok : α → Prop) [DecidablePred ok] (a d : α) : Option α :=
  if ok (a + d) then some (a + d) else none

/-- One addition after the other. -/
def accumulate {α : Type} [Add α] (ok : α → Prop) [DecidablePred ok] (a : α) : List α → Option α
  | [] => some a
  | d :: ds => (addChecked ok a d).bind fun b => accumulate ok b ds

section Accumulate

variable {α : Type} [AddMonoid α] {ok : α → Prop} {a b : α} {ds : List α}

/-- Every partial sum is in range. -/
def PartialSums (ok : α → Prop) (a : α) (ds : List α) : Prop := ∀ n, n < ds.length → ok (a + (ds.take (n + 1)).sum)

theorem partialSums_cons {d : α} : PartialSums ok a (d :: ds) ↔ ok (a + d) ∧ PartialSums ok (a + d) ds := by
  constructor
  · intro h
    constructor
    · have h0 := h 0 (Nat.succ_pos _)
      simpa using h0
    · intro n hn
      have h1 := h (n + 1) (Nat.succ_lt_succ hn)
      rwa [List.take_succ_cons, List.sum_cons, ← add_assoc] at h1
  · rintro ⟨h0, h⟩ n hn
    cases n with
    | zero => simpa using h0
    | succ n =>
      rw [List.take_succ_cons, List.sum_cons, ← add_assoc]
      exact h n (Nat.lt_of_succ_lt_succ hn)

variable [DecidablePred ok]

/-- A run that gets through adds everything up. -/
theorem accumulate_eq_some : accumulate ok a ds = some b ↔ PartialSums ok a ds ∧ b = a + ds.sum := by
  induction ds generalizing a with
  | nil =>
    constructor
    · intro h
      cases h
      exact ⟨fun n hn => absurd hn (Nat.not_lt_zero n), by simp⟩
    · rintro ⟨-, rfl⟩
      simp [accumulate]
  | cons d ds ih =>
    rw [partialSums_cons, List.sum_cons, ← add_assoc, accumulate, addChecked]
    split
    · rename_i hok
      rw [Option.bind_some, ih]
      simp [hok]
    · rename_i hok
      simp [hok]

theorem accumulate_isSome : (accumulate ok a ds).isSome = true ↔ PartialSums ok a ds := by
  constructor
  · intro h
    obtain ⟨b, hb⟩ := Option.isSome_iff_exists.1 h
    exact (accumulate_eq_some.1 hb).1
  · intro h
    rw [accumulate_eq_some.2 ⟨h, rfl⟩]
    rfl

end Accumulate

end Octagram.Lib

/-
Walking down a tree of nodes along a path of indices. In a tree no node is met on two paths;
grafting an empty node onto an empty place adds one path and leaves the others (`Graft.walk`), so
that what was a tree is one again (`Graft.tree`), and changing the children of a node at the last
level changes no walk (`walk_leaf`). Paths grow at their end (`walk_snoc`), as the walks that build
the tree do.
-/
import Mathlib.Data.List.Induction
import Mathlib.Tactic.Common

namespace Octagram.Lib

variable {N I : Type}

/-- The node at the end of the path `p` from `r`, if there is one. -/
def walk (child : N → I → Option N) (r : N) (p : List I) : Option N := p.foldlM child r

@[simp] theorem walk_nil (child : N → I → Option N) (r : N) : walk child r [] = some r := rfl

theorem walk_cons (child : N → I → Option N) (r : N) (i : I) (p : List I) :
    walk child r (i :: p) = (child r i).bind fun c => walk child c p := rfl

theorem walk_append (child : N → I → Option N) (r : N) (p q : List I) :
    walk child r (p ++ q) = (walk child r p).bind fun n => walk child n q := by
  unfold walk; rw [List.foldlM_append]; rfl

theorem walk_snoc (child : N → I → Option N) (r : N) (p : List I) (i : I) :
    walk child r (p ++ [i]) = (walk child r p).bind fun n => child n i := by
  rw [walk_append]
  cases walk child r p with
  | none => rfl
  | some n => simp [walk_cons]

/-- Down to depth `d`, no node is met on two paths from `r`. -/
def Tree (child : N → I → Option N) (r : N) (d : Nat) : Prop :=
  ∀ p q n, p.length ≤ d → q.length ≤ d → walk child r p = some n → walk child r q = some n → p = q

/-- Only the children of the nodes above the last level matter. -/
theorem walk_congr {child child' : N → I → Option N} {r : N} {d : Nat}
    (h : ∀ p n, p.length < d → walk child r p = some n → ∀ i, child' n i = child n i) (p : List I) (hp : p.length ≤ d) :
    walk child' r p = walk child r p := by
  induction p using List.reverseRecOn with
  | nil => rfl
  | append_singleton p i ih =>
    rw [List.length_append, List.length_singleton] at hp
    rw [walk_snoc, walk_snoc, ih (by omega)]
    cases hw : walk child r p with
    | none => rfl
    | some n => exact h p n (by omega) hw i

/-- In a tree, the children of one node at the last level matter to no walk. -/
theorem walk_leaf {child child' : N → I → Option N} {r n : N} {d : Nat} {q : List I} (ht : Tree child r d)
    (hq : walk child r q = some n) (hd : q.length = d)
    (h : ∀ p m, p.length ≤ d → walk child r p = some m → m ≠ n → ∀ i, child' m i = child m i) (p : List I)
    (hp : p.length ≤ d) : walk child' r p = walk child r p := by
  refine walk_congr (fun p' m hp' hm i => h p' m (by omega) hm (fun e => ?_) i) p hp
  subst e
  have := ht p' q m (by omega) (by omega) hm hq
  subst this
  omega

section Graft

variable [DecidableEq I] {child child' : N → I → Option N} {r n new : N} {d : Nat} {q : List I} {i : I}

/-- `child'` is `child` with the node `new`, met nowhere before and without children, put in the
empty place `i` of the node `n` at the end of `q`. -/
structure Graft (child child' : N → I → Option N) (r n new : N) (d : Nat) (q : List I) (i : I) : Prop where
  at_end : walk child r q = some n
  above : q.length < d
  empty : child n i = none
  fresh : ∀ p, p.length ≤ d → walk child r p ≠ some new
  put : child' n i = some new
  leaf : ∀ j, child' new j = none
  same : ∀ p m j, p.length ≤ d → walk child r p = some m → ¬ (m = n ∧ j = i) → child' m j = child m j

theorem Graft.walk (ht : Tree child r d) (g : Graft child child' r n new d q i) (p : List I) (hp : p.length ≤ d) :
    walk child' r p = if p = q ++ [i] then some new else walk child r p := by
  -- by induction on the path from its end, as the last step is the one that may meet the new node
  induction p using List.reverseRecOn with
  | nil => simp
  | append_singleton p j ih =>
    rw [List.length_append, List.length_singleton] at hp
    rw [walk_snoc, walk_snoc, ih (by omega)]
    by_cases hpq : p = q ++ [i]
    · subst hpq
      rw [if_pos rfl, Option.bind_some, g.leaf, if_neg (by simp), walk_snoc, g.at_end, Option.bind_some, g.empty]
      rfl
    · rw [if_neg hpq]
      cases hw : Lib.walk child r p with
      | none =>
        rw [if_neg (fun he => ?_)]
        · rfl
        · obtain ⟨rfl, -⟩ := List.append_inj' he rfl
          rw [g.at_end] at hw
          cases hw
      | some m =>
        simp only [Option.bind_some]
        -- the step from `n` along `i` leads to the new node, and no other path comes to `n`
        by_cases hmn : m = n ∧ j = i
        · obtain ⟨rfl, rfl⟩ := hmn
          have hq := ht p q m (by omega) (Nat.le_of_lt g.above) hw g.at_end
          rw [hq, if_pos rfl, g.put]
        · rw [g.same p m j (by omega) hw hmn, if_neg]
          intro he
          obtain ⟨rfl, hj⟩ := List.append_inj' he rfl
          rw [g.at_end] at hw
          cases hw
          exact hmn ⟨rfl, by simpa using hj⟩

/-- Grafting keeps the tree. -/
theorem Graft.tree (ht : Tree child r d) (g : Graft child child' r n new d q i) : Tree child' r d := by
  intro p₁ p₂ m h1 h2 w1 w2
  rw [g.walk ht _ h1] at w1
  rw [g.walk ht _ h2] at w2
  split at w1 <;> split at w2
  · rename_i e1 e2; rw [e1, e2]
  · cases w1; exact absurd w2 (g.fresh p₂ h2)
  · cases w2; exact absurd w1 (g.fresh p₁ h1)
  · exact ht p₁ p₂ m h1 h2 w1 w2

end Graft

end Octagram.Lib

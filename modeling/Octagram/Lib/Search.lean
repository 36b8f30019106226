/-
Searching a chain: the elements that come one after the other before its end, the first of them with
a property (`FirstAt`), and a search with so many steps, which finds it if the chain has no more
elements than that (`search_complete`). A chain that comes back to an element has no first one later
on (`FirstAt.injOn`), so the steps to it are bounded by the number of elements, by the pigeonhole
principle.
-/
import Mathlib.Data.Finset.Card
import Mathlib.Data.Nat.Find
import Mathlib.Tactic.Common

namespace Octagram.Lib

section Chain

variable {α : Type} (next : α → α) (stop : α)

/-- Element `n` of the chain from `start` comes before its end. -/
def OnChain (start : α) (n : Nat) : Prop := ∀ m ≤ n, next^[m] start ≠ stop

/-- Element `n` is `a` and the first one with the property. -/
structure FirstAt (P : α → Prop) (start : α) (n : Nat) (a : α) : Prop where
  eq : next^[n] start = a
  onChain : OnChain next stop start n
  holds : P a
  first : ∀ m < n, ¬ P (next^[m] start)

/-- The first element with the property, of so many. -/
def search [DecidableEq α] (P : α → Bool) : Nat → α → Option α
  | 0, _ => none
  | fuel + 1, a => if a = stop then none else if P a then some a else search P fuel (next a)

variable {next stop} {P : α → Prop} {start a : α} {n : Nat}

theorem OnChain.mono {m : Nat} (h : OnChain next stop start n) (hm : m ≤ n) : OnChain next stop start m :=
  fun k hk => h k (Nat.le_trans hk hm)

theorem OnChain.start_ne (h : OnChain next stop start n) : start ≠ stop := h 0 (Nat.zero_le n)

theorem onChain_succ : OnChain next stop start (n + 1) ↔ start ≠ stop ∧ OnChain next stop (next start) n := by
  constructor
  · exact fun h => ⟨h.start_ne, fun m hm => h (m + 1) (Nat.succ_le_succ hm)⟩
  · rintro ⟨hs, h⟩ m hm
    cases m with
    | zero => exact hs
    | succ m => exact h m (Nat.le_of_succ_le_succ hm)

theorem firstAt_zero : FirstAt next stop P start 0 a ↔ start = a ∧ a ≠ stop ∧ P a := by
  constructor
  · rintro ⟨rfl, hc, hp, -⟩
    exact ⟨rfl, hc.start_ne, hp⟩
  · rintro ⟨rfl, hne, hp⟩
    refine ⟨rfl, fun m hm => ?_, hp, fun m hm => absurd hm (Nat.not_lt_zero m)⟩
    rw [Nat.le_zero.1 hm]
    exact hne

/-- The first element is the start, or that of what comes after it. -/
theorem firstAt_succ :
    FirstAt next stop P start (n + 1) a ↔ start ≠ stop ∧ ¬ P start ∧ FirstAt next stop P (next start) n a := by
  constructor
  · rintro ⟨he, hc, hp, hf⟩
    obtain ⟨hs, hc⟩ := onChain_succ.1 hc
    exact ⟨hs, hf 0 (Nat.succ_pos n), he, hc, hp, fun m hm => hf (m + 1) (Nat.succ_lt_succ hm)⟩
  · rintro ⟨hs, hn, he, hc, hp, hf⟩
    refine ⟨he, onChain_succ.2 ⟨hs, hc⟩, hp, fun m hm => ?_⟩
    cases m with
    | zero => exact hn
    | succ m => exact hf m (Nat.lt_of_succ_lt_succ hm)

/-- What the search finds is the first element, if it is one of so many. -/
theorem search_eq_some_iff [DecidableEq α] {P : α → Bool} {fuel : Nat} :
    search next stop P fuel start = some a ↔ ∃ n < fuel, FirstAt next stop (fun x => P x = true) start n a := by
  induction fuel generalizing start with
  | zero =>
    constructor
    · intro h
      cases h
    · rintro ⟨n, hn, -⟩
      cases hn
  | succ fuel ih =>
    rw [search]
    -- the end of the chain, an element with the property, or one more step
    by_cases hs : start = stop
    · rw [if_pos hs]
      constructor
      · intro h
        cases h
      · rintro ⟨n, -, h⟩
        exact absurd hs h.onChain.start_ne
    rw [if_neg hs]
    by_cases hp : P start = true
    · rw [if_pos hp]
      constructor
      · intro h
        cases h
        exact ⟨0, Nat.succ_pos fuel, firstAt_zero.2 ⟨rfl, hs, hp⟩⟩
      · rintro ⟨n, -, h⟩
        cases n with
        | zero => rw [h.eq.symm]; rfl
        | succ n => exact absurd hp (firstAt_succ.1 h).2.1
    · rw [if_neg hp, ih]
      constructor
      · rintro ⟨n, hn, h⟩
        exact ⟨n + 1, Nat.succ_lt_succ hn, firstAt_succ.2 ⟨hs, hp, h⟩⟩
      · rintro ⟨n, hn, h⟩
        cases n with
        | zero => exact absurd ((firstAt_zero.1 h).1 ▸ (firstAt_zero.1 h).2.2) hp
        | succ n => exact ⟨n, Nat.lt_of_succ_lt_succ hn, (firstAt_succ.1 h).2.2⟩

/-- Up to the first element with a property no element comes twice: an earlier one would be followed by
the same elements. -/
theorem FirstAt.injOn (h : FirstAt next stop P start n a) :
    Set.InjOn (fun m => next^[m] start) (Finset.range (n + 1)) := by
  have hne : ∀ i j, i < j → j ≤ n → next^[i] start ≠ next^[j] start := by
    intro i j hij hj heq
    have hn : next^[n - j + i] start = a := by
      rw [← h.eq, Function.iterate_add_apply, heq, ← Function.iterate_add_apply, Nat.sub_add_cancel hj]
    exact h.first (n - j + i) (by omega) (hn ▸ h.holds)
  intro i hi j hj heq
  have hi := Finset.mem_range.1 hi
  have hj := Finset.mem_range.1 hj
  rcases Nat.lt_trichotomy i j with hij | hij | hij
  · exact absurd heq (hne i j hij (by omega))
  · exact hij
  · exact absurd heq.symm (hne j i hij (by omega))

variable {s : Finset α} (hs : ∀ m, OnChain next stop start m → next^[m] start ∈ s)

include hs

/-- A first element is one of as many as the chain has. -/
theorem FirstAt.lt_card (h : FirstAt next stop P start n a) : n < s.card := by
  have hcard := Finset.card_le_card_of_injOn (fun m => next^[m] start)
    (fun m hm => hs m (h.onChain.mono (Nat.le_of_lt_succ (Finset.mem_range.1 hm)))) h.injOn
  rw [Finset.card_range] at hcard
  omega

/-- So is each element of the chain. -/
theorem OnChain.early (h : OnChain next stop start n) :
    ∃ m < s.card, OnChain next stop start m ∧ next^[m] start = next^[n] start := by
  classical
  have hex : ∃ m, next^[m] start = next^[n] start := ⟨n, rfl⟩
  have hle : Nat.find hex ≤ n := Nat.find_min' hex rfl
  have hfirst : FirstAt next stop (fun x => x = next^[n] start) start (Nat.find hex) (next^[n] start) :=
    ⟨Nat.find_spec hex, h.mono hle, rfl, fun m hm => Nat.find_min hex hm⟩
  exact ⟨Nat.find hex, hfirst.lt_card hs, hfirst.onChain, hfirst.eq⟩

/-- With as many steps as the chain has elements the search is complete. -/
theorem search_complete [DecidableEq α] {P : α → Bool} {fuel : Nat} (hfuel : s.card ≤ fuel) :
    search next stop P fuel start = some a ↔ ∃ n, FirstAt next stop (fun x => P x = true) start n a := by
  rw [search_eq_some_iff]
  constructor
  · rintro ⟨n, -, h⟩
    exact ⟨n, h⟩
  · rintro ⟨n, h⟩
    exact ⟨n, Nat.lt_of_lt_of_le (h.lt_card hs) hfuel, h⟩

end Chain

end Octagram.Lib

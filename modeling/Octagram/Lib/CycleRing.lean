/-
Rings whose cells carry a cycle bit: a producer fills the cells one after the other and flips the
bit it writes each time round, so a reader that flips the bit it expects in the same way tells a
cell that was written since its last visit from an old one. Positions count all cells ever
written; position `k` is cell `k % n` in lap `k / n`.
-/
import Mathlib.Data.List.Basic
import Mathlib.Logic.Function.Basic
import Mathlib.Tactic.Common

namespace Octagram.Lib

variable {α : Type}

/-- The cycle bit of lap `k`: set in the first lap, then alternating. -/
def lapBit (k : Nat) : Bool := k % 2 == 0

@[simp] theorem lapBit_zero : lapBit 0 = true := rfl

@[simp] theorem lapBit_succ (k : Nat) : lapBit (k + 1) = !lapBit k := by
  unfold lapBit
  rcases Nat.mod_two_eq_zero_or_one k with h | h
  · rw [h, Nat.add_mod, h]; rfl
  · rw [h, Nat.add_mod, h]; rfl

/-- The cells hold the last `n` values written, each with the cycle bit of its lap, and a cell that
was never written does not have its bit set. -/
structure Laps (bit : α → Bool) (n : Nat) (cell : Nat → α) (log : List α) : Prop where
  written : ∀ k, (h : k < log.length) → log.length ≤ k + n → cell (k % n) = log[k]
  bits : ∀ k, (h : k < log.length) → bit log[k] = lapBit (k / n)
  blank : ∀ i, log.length ≤ i → i < n → bit (cell i) = false

section Laps

variable {bit : α → Bool} {n : Nat} {cell : Nat → α} {log : List α} {x : α} {c : Nat}

theorem Laps.empty (h : ∀ i, i < n → bit (cell i) = false) : Laps bit n cell [] :=
  ⟨fun _ h => absurd h (Nat.not_lt_zero _), fun _ h => absurd h (Nat.not_lt_zero _), fun i _ hi => h i hi⟩

/-- Only the first `n` cells matter. -/
theorem Laps.congr {cell' : Nat → α} (h : Laps bit n cell log) (hn : 0 < n) (hc : ∀ i, i < n → cell' i = cell i) :
    Laps bit n cell' log :=
  ⟨fun k hk hl => (hc _ (Nat.mod_lt k hn)).trans (h.written k hk hl), h.bits,
    fun i hl hi => by rw [hc i hi]; exact h.blank i hl hi⟩

/-- A reader that has read all but at most `n` of the values finds the next one exactly when the
bit of its cell is the bit of its lap. -/
theorem Laps.fresh (h : Laps bit n cell log) (hn : 0 < n) (hc : c ≤ log.length) (hl : log.length ≤ c + n) :
    bit (cell (c % n)) = lapBit (c / n) ↔ c < log.length := by
  constructor
  · intro hb
    by_contra hlt
    have hlog : log.length = c := by omega
    by_cases hcn : c < n
    · rw [Nat.mod_eq_of_lt hcn, Nat.div_eq_of_lt hcn, h.blank c (Nat.le_of_eq hlog) hcn] at hb
      cases hb
    · -- the cell still holds the value of the lap before, with the other bit
      obtain ⟨d, rfl⟩ : ∃ d, c = d + n := ⟨c - n, by omega⟩
      have hd : d < log.length := by omega
      rw [Nat.add_mod_right, h.written d hd (by omega), h.bits d hd, Nat.add_div_right d hn, lapBit_succ] at hb
      cases hl' : lapBit (d / n) <;> rw [hl'] at hb <;> cases hb
  · intro hlt
    rw [h.written c hlt hl, h.bits c hlt]

/-- Writing the next value, with the bit of its lap, over a cell the reader is done with. -/
theorem Laps.write (h : Laps bit n cell log) (hx : bit x = lapBit (log.length / n)) :
    Laps bit n (Function.update cell (log.length % n) x) (log ++ [x]) := by
  have hne : ∀ k, k < log.length → log.length < k + n → k % n ≠ log.length % n := fun k h1 h2 he => by
    have h3 := Nat.div_add_mod k n
    have h4 := Nat.div_add_mod log.length n
    have h5 : log.length - k = n * (log.length / n - k / n) := by rw [Nat.mul_sub]; omega
    rcases Nat.eq_zero_or_pos (log.length / n - k / n) with h0 | h0
    · rw [h0] at h5; omega
    · have := Nat.le_mul_of_pos_right n h0
      omega
  refine ⟨fun k hk hl => ?_, fun k hk => ?_, fun i hl hi => ?_⟩
  · rw [List.length_append, List.length_singleton] at hk hl
    rcases Nat.lt_or_eq_of_le (Nat.le_of_lt_succ hk) with hk' | rfl
    · rw [Function.update_of_ne (hne k hk' (by omega)), h.written k hk' (by omega), List.getElem_append_left hk']
    · rw [Function.update_self, List.getElem_concat_length rfl]
  · rw [List.length_append, List.length_singleton] at hk
    rcases Nat.lt_or_eq_of_le (Nat.le_of_lt_succ hk) with hk' | rfl
    · rw [List.getElem_append_left hk', h.bits k hk']
    · rw [List.getElem_concat_length rfl, hx]
  · rw [List.length_append, List.length_singleton] at hl
    rw [Function.update_of_ne, h.blank i (by omega) hi]
    rw [Nat.mod_eq_of_lt (by omega)]
    omega

end Laps

/-- A reader that takes the next value stays on a prefix. -/
theorem prefix_next {l m : List α} (h : l <+: m) (hl : l.length < m.length) : l ++ [m[l.length]] <+: m := by
  have ht : m.take l.length ++ [m[l.length]] = m.take (l.length + 1) := List.take_append_getElem hl
  rw [← List.prefix_iff_eq_take.1 h] at ht
  rw [ht]
  exact List.take_prefix _ _

/-! ## The index and the bit of a position, kept step by step -/

/-- The index and the cycle bit that belong to the position `k`. -/
structure At (n k index : Nat) (cycle : Bool) : Prop where
  index : index = k % n
  cycle : cycle = lapBit (k / n)

section At

variable {n k index : Nat} {cycle : Bool}

theorem At.start : At n 0 0 true := ⟨(Nat.zero_mod n).symm, by rw [Nat.zero_div]; rfl⟩

theorem At.lt (h : At n k index cycle) (hn : 0 < n) : index < n := by
  rw [h.index]; exact Nat.mod_lt k hn

/-- The next position in the same lap. -/
theorem At.next (h : At n k index cycle) (hn : 0 < n) (hw : index + 1 < n) : At n (k + 1) (index + 1) cycle := by
  have := Nat.mod_add_div k n
  obtain ⟨hd, hm⟩ := (Nat.div_mod_unique (a := k + 1) (b := n) (c := index + 1) (d := k / n) hn).2
    ⟨by rw [h.index]; omega, hw⟩
  exact ⟨hm.symm, by rw [hd, h.cycle]⟩

/-- The next position is the first of the next lap. -/
theorem At.wrap (h : At n k index cycle) (hn : 0 < n) (hw : n ≤ index + 1) : At n (k + 1) 0 (!cycle) := by
  have := Nat.mod_add_div k n
  have := Nat.mod_lt k hn
  have hi := h.index
  obtain ⟨hd, hm⟩ := (Nat.div_mod_unique (a := k + 1) (b := n) (c := 0) (d := k / n + 1) hn).2
    ⟨by rw [Nat.mul_add]; omega, hn⟩
  exact ⟨hm.symm, by rw [hd, lapBit_succ, h.cycle]⟩

end At

end Octagram.Lib

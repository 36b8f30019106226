/-
Memory layouts in C order: sizes and alignments of structures and arrays, each field behind the last
one at the next place of its alignment, and when a block crosses a boundary (`crosses_iff`). An
alignment keeps a block off the boundaries only if the block is no larger than the alignment
(`aligned_iff`).
-/
import Mathlib.Algebra.Order.Ring.Nat
import Mathlib.Tactic.Common

namespace Octagram.Lib

/-- The least multiple of `a` that is not below `n`. -/
def roundUp (n a : Nat) : Nat := (n + a - 1) / a * a

/-- A size and an alignment, the size a multiple of the alignment. -/
structure Layout where
  size : Nat
  align : Nat
  pos : 0 < align
  dvd : align ∣ size

namespace Layout

/-- An integer of `n` bytes. -/
def int (n : Nat) (h : 0 < n) : Layout := ⟨n, n, h, Nat.dvd_refl n⟩

/-- An array of `n` elements. -/
def array (l : Layout) (n : Nat) : Layout := ⟨l.size * n, l.align, l.pos, Nat.dvd_mul_right_of_dvd l.dvd n⟩

/-- Where the fields end that are put one after the other from `n` on, each at its alignment. -/
def fieldsEnd (n : Nat) : List Layout → Nat
  | [] => n
  | l :: ls => fieldsEnd (roundUp n l.align + l.size) ls

/-- The largest alignment of the fields, and at least `a`. -/
def fieldsAlign (a : Nat) : List Layout → Nat
  | [] => a
  | l :: ls => max l.align (fieldsAlign a ls)

theorem le_fieldsAlign (a : Nat) (fields : List Layout) : a ≤ fieldsAlign a fields := by
  induction fields with
  | nil => exact Nat.le_refl a
  | cons l ls ih => exact Nat.le_trans ih (Nat.le_max_right _ _)

/-- A `repr(C)` structure of alignment at least `a`, padded to its alignment. -/
def struct (a : Nat) (h : 0 < a) (fields : List Layout) : Layout where
  size := roundUp (fieldsEnd 0 fields) (fieldsAlign a fields)
  align := fieldsAlign a fields
  pos := Nat.lt_of_lt_of_le h (le_fieldsAlign a fields)
  dvd := Nat.dvd_mul_left _ _

end Layout

/-! ## Boundaries -/

/-- The block of `n` bytes at `x` has bytes on both sides of a multiple of `b`. -/
def Crosses (b x n : Nat) : Prop := x / b ≠ (x + n - 1) / b

section Crosses

variable {a b n x : Nat}

theorem crosses_iff (hb : 0 < b) (hn : 0 < n) : Crosses b x n ↔ b < x % b + n := by
  have hx := Nat.div_add_mod x b
  have hdiv : (x + n - 1) / b = x / b + (x % b + n - 1) / b := by
    have heq : x + n - 1 = b * (x / b) + (x % b + n - 1) := by omega
    rw [heq, Nat.mul_add_div hb]
  unfold Crosses
  rw [hdiv]
  constructor
  · intro h
    by_contra hle
    have h0 : (x % b + n - 1) / b = 0 := Nat.div_eq_of_lt (by omega)
    exact h (by rw [h0, Nat.add_zero])
  · intro h heq
    have hpos : 0 < (x % b + n - 1) / b := Nat.div_pos (by omega) hb
    omega

/-- Blocks at multiples of `a` stay off the boundaries exactly if they are no larger than `a`. -/
theorem aligned_iff (hb : 0 < b) (hn : 0 < n) (ha : 0 < a) (hab : a ∣ b) : (∀ x, a ∣ x → ¬ Crosses b x n) ↔ n ≤ a := by
  constructor
  · intro h
    by_contra hle
    -- the last place before a boundary
    have hlt : b - a < b := by omega
    have hx := h (b - a) (Nat.dvd_sub hab (Nat.dvd_refl a))
    rw [crosses_iff hb hn, Nat.mod_eq_of_lt hlt] at hx
    have hle' := Nat.le_of_dvd hb hab
    omega
  · intro h x hx
    rw [crosses_iff hb hn]
    obtain ⟨q, rfl⟩ := hab
    obtain ⟨y, rfl⟩ := hx
    have hq : 0 < q := Nat.pos_of_mul_pos_left hb
    rw [Nat.mul_mod_mul_left]
    have hlt : y % q + 1 ≤ q := Nat.mod_lt y hq
    have hmul := Nat.mul_le_mul_left a hlt
    rw [Nat.mul_add, Nat.mul_one] at hmul
    omega

end Crosses

end Octagram.Lib

/-
Masks on bit vectors as arithmetic: `x & (2^k - 1)` is the remainder by `2^k` and
`x & !(2^k - 1)` the largest multiple of `2^k` that is at most `x`.
-/
import Mathlib.Data.BitVec
import Mathlib.Tactic.Common

namespace Octagram.Lib

theorem and_not_lowMask {w : Nat} (x : BitVec w) (k : Nat) : x &&& ~~~BitVec.ofNat w (2 ^ k - 1) = (x >>> k) <<< k := by
  apply BitVec.eq_of_getLsbD_eq
  intro i hi
  rw [BitVec.getLsbD_and, BitVec.getLsbD_not, BitVec.getLsbD_ofNat, Nat.testBit_two_pow_sub_one,
    BitVec.getLsbD_shiftLeft, BitVec.getLsbD_ushiftRight]
  by_cases h : i < k
  · simp [h, hi]
  · simp [h, hi, Nat.add_sub_cancel' (Nat.le_of_not_lt h)]

theorem and_not_lowMask_toNat {w : Nat} (x : BitVec w) (k : Nat) :
    (x &&& ~~~BitVec.ofNat w (2 ^ k - 1)).toNat = x.toNat / 2 ^ k * 2 ^ k := by
  rw [and_not_lowMask, BitVec.toNat_shiftLeft, BitVec.toNat_ushiftRight, Nat.shiftRight_eq_div_pow, Nat.shiftLeft_eq]
  apply Nat.mod_eq_of_lt
  have := x.isLt
  have := Nat.div_mul_le_self x.toNat (2 ^ k)
  omega

theorem and_lowMask_toNat {w : Nat} (x : BitVec w) {k : Nat} (h : k ≤ w) :
    (x &&& BitVec.ofNat w (2 ^ k - 1)).toNat = x.toNat % 2 ^ k := by
  have h1 : 2 ^ k - 1 < 2 ^ w := by
    have := Nat.pow_le_pow_right (Nat.zero_lt_two) h
    have := Nat.two_pow_pos k
    omega
  rw [BitVec.toNat_and, BitVec.toNat_ofNat, Nat.mod_eq_of_lt h1, Nat.and_two_pow_sub_one_eq_mod]

/-- A field of a word put together with `|` is put together from the fields of the parts. -/
theorem or_field {w : Nat} (x y : BitVec w) (i k : Nat) :
    (x ||| y).toNat / 2 ^ i % 2 ^ k = x.toNat / 2 ^ i % 2 ^ k ||| y.toNat / 2 ^ i % 2 ^ k := by
  rw [BitVec.toNat_or, ← Nat.shiftRight_eq_div_pow, Nat.shiftRight_or_distrib, Nat.or_mod_two_pow,
    Nat.shiftRight_eq_div_pow, Nat.shiftRight_eq_div_pow]

/-- The field that `<<` moves a word to. -/
theorem shiftLeft_field {w : Nat} (x : BitVec w) {j k : Nat} (h : j + k ≤ w) :
    (x <<< j).toNat / 2 ^ j % 2 ^ k = x.toNat % 2 ^ k := by
  apply Nat.eq_of_testBit_eq
  intro i
  rw [Nat.testBit_mod_two_pow, Nat.testBit_mod_two_pow, Nat.testBit_div_two_pow, BitVec.testBit_toNat,
    BitVec.testBit_toNat, BitVec.getLsbD_shiftLeft]
  by_cases hi : i < k
  · have hw : i + j < w := by omega
    simp [hi, hw]
  · simp [hi]

/-- The fields below it are clear. -/
theorem shiftLeft_field_below {w : Nat} (x : BitVec w) {i j k : Nat} (h : i + k ≤ j) :
    (x <<< j).toNat / 2 ^ i % 2 ^ k = 0 := by
  apply Nat.eq_of_testBit_eq
  intro n
  rw [Nat.testBit_mod_two_pow, Nat.testBit_div_two_pow, BitVec.testBit_toNat, BitVec.getLsbD_shiftLeft,
    Nat.zero_testBit]
  by_cases hn : n < k
  · have hj : n + i < j := by omega
    simp [hj]
  · simp [hn]

/-! ## The bits from one on -/

/-- The word whose bits from `k` on are set. -/
def highMask (w k : Nat) : BitVec w := ~~~BitVec.ofNat w (2 ^ k - 1)

@[simp] theorem getLsbD_highMask (w k i : Nat) : (highMask w k).getLsbD i = (decide (i < w) && decide (k ≤ i)) := by
  unfold highMask
  rw [BitVec.getLsbD_not, BitVec.getLsbD_ofNat, Nat.testBit_two_pow_sub_one]
  by_cases h : i < w
  · by_cases hk : i < k
    · simp [h, hk]
    · simp [h, hk, Nat.le_of_not_lt hk]
  · simp [h]

/-- Two's complement of it is the power of two. -/
theorem not_highMask_add_one (w k : Nat) : ~~~highMask w k + 1#w = BitVec.ofNat w (2 ^ k) := by
  unfold highMask
  rw [BitVec.not_not, BitVec.ofNat_add_ofNat, Nat.sub_add_cancel (Nat.two_pow_pos k)]

/-- The low bits of a multiple of a power of two are clear. -/
theorem getLsbD_of_dvd {w k : Nat} {x : BitVec w} (h : 2 ^ k ∣ x.toNat) {i : Nat} (hi : i < k) :
    x.getLsbD i = false := by
  obtain ⟨q, hq⟩ := h
  rw [← BitVec.testBit_toNat, hq, Nat.testBit_two_pow_mul]
  simp [hi]

end Octagram.Lib

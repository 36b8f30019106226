/-
Byte-addressed memory with little-endian 64-bit words: a word reads back after it is written, a
write or a fill elsewhere does not change it, and a filled range reads as zero. Two words that do
not overlap are independent of each other (`word_setWord_of_disjoint`); everything else is about the
bytes that a word consists of (`word_congr`, `setWord_byte`).
-/
import Mathlib.Data.BitVec
import Mathlib.Tactic.Common

namespace Octagram.Lib

/-- A memory: one byte at each address. -/
abbrev Ram := Nat → UInt8

namespace Ram

/-- The little-endian 64-bit word whose first byte is at `a`. -/
def word (m : Ram) (a : Nat) : BitVec 64 :=
  BitVec.ofNat 64 ((m a).toNat + 2 ^ 8 * (m (a + 1)).toNat + 2 ^ 16 * (m (a + 2)).toNat +
    2 ^ 24 * (m (a + 3)).toNat + 2 ^ 32 * (m (a + 4)).toNat + 2 ^ 40 * (m (a + 5)).toNat +
    2 ^ 48 * (m (a + 6)).toNat + 2 ^ 56 * (m (a + 7)).toNat)

/-- Write one byte. -/
def setByte (m : Ram) (a : Nat) (b : UInt8) : Ram := fun x => if x = a then b else m x

/-- Write the eight bytes of `w`, least significant first. -/
def setWord (m : Ram) (a : Nat) (w : BitVec 64) : Ram := fun x =>
  if a ≤ x ∧ x < a + 8 then UInt8.ofNat (w.toNat / 256 ^ (x - a)) else m x

/-- Write `b` to the `n` bytes from `a` on. -/
def fill (m : Ram) (a n : Nat) (b : UInt8) : Ram := fun x => if a ≤ x ∧ x < a + n then b else m x

/-- Write the bytes of a list from `a` on. -/
def setBytes (m : Ram) (a : Nat) (l : List UInt8) : Ram :=
  fun x => if a ≤ x ∧ x < a + l.length then l.getD (x - a) 0 else m x

/-! ## Single bytes -/

theorem setWord_outside (m : Ram) {a x : Nat} (w : BitVec 64) (h : x < a ∨ a + 8 ≤ x) : m.setWord a w x = m x := by
  unfold setWord; rw [if_neg (by omega)]

theorem setByte_same (m : Ram) (a : Nat) (b : UInt8) : m.setByte a b a = b := if_pos rfl

theorem setByte_outside (m : Ram) {a x : Nat} (b : UInt8) (h : x ≠ a) : m.setByte a b x = m x := if_neg h

theorem fill_outside (m : Ram) {a n x : Nat} (b : UInt8) (h : x < a ∨ a + n ≤ x) : m.fill a n b x = m x := by
  unfold fill; rw [if_neg (by omega)]

theorem fill_inside (m : Ram) {a n x : Nat} (b : UInt8) (h1 : a ≤ x) (h2 : x < a + n) : m.fill a n b x = b :=
  if_pos ⟨h1, h2⟩

/-! ## Words -/

/-- A word depends on its eight bytes only. -/
theorem word_congr {m m' : Ram} {a : Nat} (h : ∀ x, a ≤ x → x < a + 8 → m' x = m x) : m'.word a = m.word a := by
  unfold word
  rw [h a (by omega) (by omega), h (a + 1) (by omega) (by omega), h (a + 2) (by omega) (by omega),
    h (a + 3) (by omega) (by omega), h (a + 4) (by omega) (by omega), h (a + 5) (by omega) (by omega),
    h (a + 6) (by omega) (by omega), h (a + 7) (by omega) (by omega)]

theorem setWord_byte (m : Ram) (a i : Nat) (w : BitVec 64) (hi : i < 8) :
    (m.setWord a w (a + i)).toNat = w.toNat / 256 ^ i % 256 := by
  unfold setWord
  rw [if_pos (by omega), Nat.add_sub_cancel_left]
  simp

@[simp] theorem word_setWord (m : Ram) (a : Nat) (w : BitVec 64) : (m.setWord a w).word a = w := by
  unfold word
  have h0 := setWord_byte m a 0 w (by omega)
  rw [Nat.add_zero] at h0
  rw [h0, setWord_byte m a 1 w (by omega), setWord_byte m a 2 w (by omega), setWord_byte m a 3 w (by omega),
    setWord_byte m a 4 w (by omega), setWord_byte m a 5 w (by omega), setWord_byte m a 6 w (by omega),
    setWord_byte m a 7 w (by omega)]
  apply BitVec.eq_of_toNat_eq
  rw [BitVec.toNat_ofNat]
  have := w.isLt
  omega

theorem word_setWord_of_disjoint (m : Ram) {a b : Nat} (w : BitVec 64) (h : a + 8 ≤ b ∨ b + 8 ≤ a) :
    (m.setWord b w).word a = m.word a :=
  word_congr fun x _ _ => setWord_outside m w (by omega)

theorem word_zero {m : Ram} {a : Nat} (h : ∀ x, a ≤ x → x < a + 8 → m x = 0) : m.word a = 0 := by
  have hc : m.word a = Ram.word (fun _ => 0) a := word_congr h
  rw [hc]
  rfl

end Ram

end Octagram.Lib

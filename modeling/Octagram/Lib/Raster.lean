/-
Pictures in memory: rows of `pitch` bytes, four bytes a pixel. What a pixel write, a move of the
rows and a fill do to the bytes they do to the picture: `Shows` relates a memory to a picture, and
is kept by lighting a pixel (`Shows.light`) and by moving all rows up (`Shows.scroll`). A rectangle
of pixels is lit row by row, each row from left to right (`stripe`, `block`).
-/
import Octagram.Lib.Ram

namespace Octagram.Lib

/-! ## Pictures -/

/-- Which pixels are lit, by row and column. -/
abbrev Picture := Nat → Nat → Bool

namespace Picture

/-- No pixel is lit. -/
def blank : Picture := fun _ _ => false

/-- One more pixel is lit. -/
def light (p : Picture) (row col : Nat) : Picture := fun r c => p r c || (r == row && c == col)

/-- All rows move up by `n`, in a picture of `height` rows. -/
def up (p : Picture) (n height : Nat) : Picture := fun r c => decide (r + n < height) && p (r + n) c

/-- The `n` pixels from `col` on in a row that `bit` selects are lit, too. -/
def stripe (p : Picture) (row col n : Nat) (bit : Nat → Bool) : Picture := fun r c =>
  p r c || (r == row && decide (col ≤ c ∧ c < col + n) && bit (c - col))

/-- The pixels of a block of `m` rows and `n` columns that `bit` selects are lit, too. -/
def block (p : Picture) (row col m n : Nat) (bit : Nat → Nat → Bool) : Picture := fun r c =>
  p r c || (decide (row ≤ r ∧ r < row + m) && decide (col ≤ c ∧ c < col + n) && bit (r - row) (c - col))

variable {p : Picture} {row col n m : Nat}

theorem stripe_zero (bit : Nat → Bool) : p.stripe row col 0 bit = p := by
  funext r c
  simp [stripe]

theorem stripe_succ (bit : Nat → Bool) :
    p.stripe row col (n + 1) bit = if bit n = true then (p.stripe row col n bit).light row (col + n)
      else p.stripe row col n bit := by
  funext r c
  by_cases hc : c = col + n
  · subst hc
    by_cases hb : bit n = true <;> simp [stripe, light, hb]
  · have hiff : (col ≤ c ∧ c < col + (n + 1)) ↔ (col ≤ c ∧ c < col + n) := by omega
    by_cases hb : bit n = true <;> simp [stripe, light, hb, hiff, hc]

theorem block_zero (bit : Nat → Nat → Bool) : p.block row col 0 n bit = p := by
  funext r c
  simp [block]

theorem block_succ (bit : Nat → Nat → Bool) :
    p.block row col (m + 1) n bit = (p.block row col m n bit).stripe (row + m) col n (bit m) := by
  funext r c
  by_cases hr : r = row + m
  · subst hr
    simp [block, stripe]
  · have hiff : (row ≤ r ∧ r < row + (m + 1)) ↔ (row ≤ r ∧ r < row + m) := by omega
    simp [block, stripe, hiff, hr]

end Picture

/-! ## Bytes -/

namespace Ram

/-- The `n` bytes from `src` on are copied to `dst`; the ranges may overlap. -/
def copy (m : Ram) (src dst n : Nat) : Ram := fun x => if dst ≤ x ∧ x < dst + n then m (src + (x - dst)) else m x

theorem copy_outside (m : Ram) {src dst n x : Nat} (h : x < dst ∨ dst + n ≤ x) : m.copy src dst n x = m x := by
  unfold copy
  rw [if_neg (by omega)]

theorem setBytes_outside (m : Ram) {a x : Nat} {l : List UInt8} (h : x < a ∨ a + l.length ≤ x) :
    m.setBytes a l x = m x := by
  unfold setBytes
  rw [if_neg (by omega)]

end Ram

/-- The first `pitch * height` bytes show the picture: a lit pixel has the bytes `color`, all others are 0. -/
def Shows (color : List UInt8) (pitch height : Nat) (m : Ram) (p : Picture) : Prop :=
  ∀ a, a < pitch * height → m a = if p (a / pitch) (a % pitch / 4) then color.getD (a % pitch % 4) 0 else 0

section Shows

variable {color : List UInt8} {pitch height row col n : Nat} {m : Ram} {p : Picture}

/-- The bytes of a pixel are those whose row and column are the pixel's. -/
theorem pixel_byte (row : Nat) {a : Nat} (hcol : 4 * col + 4 ≤ pitch) :
    (row * pitch + col * 4 ≤ a ∧ a < row * pitch + col * 4 + 4) ↔ (a / pitch = row ∧ a % pitch / 4 = col) := by
  have hdiv := Nat.div_add_mod a pitch
  constructor
  · rintro ⟨h1, h2⟩
    obtain ⟨j, rfl⟩ : ∃ j, a = col * 4 + j + row * pitch := ⟨a - (row * pitch + col * 4), by omega⟩
    have hlt : col * 4 + j < pitch := by omega
    rw [Nat.add_mul_div_right _ _ (by omega), Nat.div_eq_of_lt hlt, Nat.add_mul_mod_self_right, Nat.mod_eq_of_lt hlt]
    omega
  · rintro ⟨rfl, rfl⟩
    rw [Nat.mul_comm] at hdiv
    omega

theorem pixel_lt (hcol : 4 * col + 4 ≤ pitch) (hrow : row < height) : row * pitch + col * 4 + 4 ≤ pitch * height := by
  have : (row + 1) * pitch ≤ height * pitch := Nat.mul_le_mul_right _ hrow
  rw [Nat.add_mul] at this
  rw [Nat.mul_comm pitch height]
  omega

theorem shows_blank (h : ∀ a, a < pitch * height → m a = 0) : Shows color pitch height m Picture.blank := h

/-- Writing the color to a pixel lights it. -/
theorem Shows.light (h : Shows color pitch height m p) (hlen : color.length = 4) (hcol : 4 * col + 4 ≤ pitch) :
    Shows color pitch height (m.setBytes (row * pitch + col * 4) color) (p.light row col) := by
  intro a ha
  have hbyte := pixel_byte row (a := a) hcol
  unfold Ram.setBytes
  rw [hlen]
  by_cases hin : a / pitch = row ∧ a % pitch / 4 = col
  · rw [if_pos (hbyte.2 hin), if_pos (by simp [Picture.light, hin])]
    obtain ⟨rfl, rfl⟩ := hin
    have h1 := Nat.div_add_mod a pitch
    have h2 := Nat.div_add_mod (a % pitch) 4
    rw [Nat.mul_comm] at h1
    congr 1
    omega
  · rw [if_neg fun hh => hin (hbyte.1 hh), h a ha]
    have hp : p.light row col (a / pitch) (a % pitch / 4) = p (a / pitch) (a % pitch / 4) := by
      simp only [Picture.light, Bool.or_eq_left_iff_imp, Bool.and_eq_true, beq_iff_eq]
      exact fun hh => absurd hh hin
    rw [hp]

/-- Moving all rows up and clearing the last ones. -/
theorem Shows.scroll (h : Shows color pitch height m p) (hn : n ≤ height) (hpitch : 0 < pitch) :
    Shows color pitch height
      ((m.copy (pitch * n) 0 (pitch * height - pitch * n)).fill (pitch * height - pitch * n) (pitch * n) 0)
      (p.up n height) := by
  intro a ha
  have hle : pitch * n ≤ pitch * height := Nat.mul_le_mul_left _ hn
  have hup : a / pitch + n < height ↔ a < pitch * height - pitch * n := by
    rw [← Nat.mul_sub, Nat.mul_comm, ← Nat.div_lt_iff_lt_mul hpitch]
    omega
  by_cases hlt : a < pitch * height - pitch * n
  · have hmem : ((m.copy (pitch * n) 0 (pitch * height - pitch * n)).fill
        (pitch * height - pitch * n) (pitch * n) 0) a = m (pitch * n + a) := by
      rw [Ram.fill_outside _ _ (.inl hlt)]
      unfold Ram.copy
      rw [if_pos (by omega), Nat.sub_zero]
    have hrow : p.up n height (a / pitch) (a % pitch / 4) = p (a / pitch + n) (a % pitch / 4) := by
      unfold Picture.up
      rw [decide_eq_true (hup.2 hlt), Bool.true_and]
    rw [hmem, h _ (by omega), Nat.mul_add_div hpitch, Nat.mul_add_mod, hrow, Nat.add_comm n]
  · rw [Ram.fill_inside _ _ (by omega) (by omega)]
    simp [Picture.up, mt hup.1 hlt]

end Shows

end Octagram.Lib

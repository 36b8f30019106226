/-
Lenses: a part of a state that is read by `get` and replaced by `put`, with the laws between the two
as fields. A lens within a lens is one again (`comp`), as are the entry of a function and a field of
a word. Two lenses are `Apart` if a write through one leaves what the other reads; entries at
different places are (`entry_apart`), fields of different bits (`field_apart`), and all that lies
within parts that are (`Apart.within`).
-/
import Mathlib.Data.BitVec
import Mathlib.Logic.Function.Basic
import Mathlib.Tactic.Common

namespace Octagram.Lib

/-- A part of a state that can be read and replaced on its own. -/
structure Lens (σ α : Type) where
  get : σ → α
  put : α → σ → σ
  get_put : ∀ a s, get (put a s) = a
  put_get : ∀ s, put (get s) s = s
  put_put : ∀ a b s, put b (put a s) = put b s

namespace Lens

attribute [simp] get_put put_get put_put

variable {σ α β γ ι : Type}

/-- A part of a part. -/
def comp (l : Lens σ α) (m : Lens α β) : Lens σ β where
  get s := m.get (l.get s)
  put b s := l.put (m.put b (l.get s)) s
  get_put b s := by simp
  put_get s := by simp
  put_put a b s := by simp

theorem comp_get (l : Lens σ α) (m : Lens α β) (s : σ) : (l.comp m).get s = m.get (l.get s) := rfl

theorem comp_put (l : Lens σ α) (m : Lens α β) (b : β) (s : σ) : (l.comp m).put b s = l.put (m.put b (l.get s)) s := rfl

/-- What is put through one lens does not show through the other. -/
def Apart (l : Lens σ α) (m : Lens σ β) : Prop := ∀ a s, m.get (l.put a s) = m.get s

/-- Parts of parts that are apart are apart. -/
theorem Apart.parts {l : Lens σ α} {m : Lens σ β} (h : l.Apart m) {δ : Type} (l' : Lens α γ) (m' : Lens β δ) :
    (l.comp l').Apart (m.comp m') := by
  intro c s
  rw [comp_get, comp_put, h, comp_get]

/-- Two parts of one part that are apart in it are apart. -/
theorem Apart.within {m : Lens α β} {m' : Lens α γ} (h : m.Apart m') (l : Lens σ α) : (l.comp m).Apart (l.comp m') := by
  intro b s
  rw [comp_get, comp_put, get_put, h, comp_get]

/-- The value of a function at one point. -/
def entry [DecidableEq ι] (i : ι) : Lens (ι → α) α where
  get f := f i
  put a f := Function.update f i a
  get_put a f := Function.update_self i a f
  put_get f := Function.update_eq_self i f
  put_put a b f := Function.update_idem a b f

theorem entry_apart [DecidableEq ι] {i j : ι} (h : i ≠ j) : (entry i : Lens (ι → α) α).Apart (entry j) := by
  intro a f
  exact Function.update_of_ne h.symm a f

/-! ## Fields of words -/

section Field

variable {w k : Nat}

/-- A word with the `k` bits from bit `j` on replaced. -/
def withField (j : Nat) (v : BitVec k) (x : BitVec w) : BitVec w :=
  (x &&& ~~~((BitVec.allOnes k).setWidth w <<< j)) ||| (v.setWidth w <<< j)

theorem getLsbD_withField {j : Nat} (h : j + k ≤ w) (v : BitVec k) (x : BitVec w) (i : Nat) :
    (withField j v x).getLsbD i = if j ≤ i ∧ i < j + k then v.getLsbD (i - j) else x.getLsbD i := by
  unfold withField
  simp only [BitVec.getLsbD_or, BitVec.getLsbD_and, BitVec.getLsbD_not, BitVec.getLsbD_shiftLeft,
    BitVec.getLsbD_setWidth, BitVec.getLsbD_allOnes]
  by_cases hlow : j ≤ i
  · by_cases hhigh : i < j + k
    · have hw : i < w := by omega
      have hk : i - j < k := by omega
      have hsub : i - j < w := by omega
      have hnot : ¬ i < j := Nat.not_lt.2 hlow
      simp [hlow, hhigh, hw, hk, hsub, hnot]
    · have hk : ¬ i - j < k := by omega
      have hv : v.getLsbD (i - j) = false := BitVec.getLsbD_of_ge v _ (Nat.le_of_not_lt hk)
      simp only [hk, hv, hhigh, and_false, if_false, decide_false, Bool.and_false, Bool.not_false, Bool.and_true,
        Bool.or_false]
      by_cases hw : i < w
      · simp [hw]
      · simp [hw, BitVec.getLsbD_of_ge x i (Nat.le_of_not_lt hw)]
  · have hlt : i < j := Nat.lt_of_not_le hlow
    have hw : i < w := by omega
    simp [hlow, hlt, hw]

/-- The `k` bits from bit `j` on. -/
def field (j : Nat) (h : j + k ≤ w) : Lens (BitVec w) (BitVec k) where
  get x := x.extractLsb' j k
  put := withField j
  get_put v x := by
    ext i hi
    rw [BitVec.getElem_extractLsb', getLsbD_withField h, if_pos (by omega), Nat.add_sub_cancel_left,
      BitVec.getLsbD_eq_getElem hi]
  put_get x := by
    apply BitVec.eq_of_getLsbD_eq
    intro i hi
    rw [getLsbD_withField h]
    split
    · rename_i hin
      have hk : i - j < k := by omega
      rw [BitVec.getLsbD_extractLsb', Nat.add_sub_cancel' hin.1]
      simp [hk]
    · rfl
  put_put a b x := by
    apply BitVec.eq_of_getLsbD_eq
    intro i hi
    rw [getLsbD_withField h, getLsbD_withField h, getLsbD_withField h]
    split <;> rfl

@[simp] theorem field_get (j : Nat) (h : j + k ≤ w) (x : BitVec w) : (field j h).get x = x.extractLsb' j k := rfl

@[simp] theorem field_put (j : Nat) (h : j + k ≤ w) (v : BitVec k) (x : BitVec w) :
    (field j h).put v x = withField j v x := rfl

/-- Fields without a common bit. -/
theorem field_apart {j j' k' : Nat} {h : j + k ≤ w} {h' : j' + k' ≤ w} (hd : j + k ≤ j' ∨ j' + k' ≤ j) :
    (field j h : Lens (BitVec w) (BitVec k)).Apart (field j' h' : Lens (BitVec w) (BitVec k')) := by
  intro v x
  rw [field_get, field_put, field_get]
  ext i hi
  rw [BitVec.getElem_extractLsb', BitVec.getElem_extractLsb', getLsbD_withField h, if_neg (by omega)]

end Field

end Lens

end Octagram.Lib

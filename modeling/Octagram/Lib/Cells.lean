/-
Values of a fixed size in byte-addressed memory, one after the other: a list that is stored reads
back, and bytes elsewhere stay. A kind of cell is its size, how a value is read and how it is
written, with the laws between the two as fields; words and dwords are cells. `Holds` says that a
list lies at an address, and splits as lists do (`holds_append`, `holds_flatMap`), so that a
structure is read field by field.
-/
import Octagram.Lib.Ram

namespace Octagram.Lib

/-- A kind of value that takes `size` bytes. -/
structure Cell (α : Type) where
  size : Nat
  get : Ram → Nat → α
  put : Ram → Nat → α → Ram
  get_put : ∀ m a v, get (put m a v) a = v
  get_congr : ∀ {m m' a}, (∀ x, a ≤ x → x < a + size → m' x = m x) → get m' a = get m a
  put_outside : ∀ {m a v x}, x < a ∨ a + size ≤ x → put m a v x = m x

namespace Cell

variable {α : Type} (c : Cell α) {m m' : Ram} {a b x : Nat} {l l' : List α}

/-- The values from `a` on. -/
def store (m : Ram) (a : Nat) : List α → Ram
  | [] => m
  | v :: l => store (c.put m a v) (a + c.size) l

/-- The memory holds these values from `a` on. -/
def Holds (m : Ram) (a : Nat) (l : List α) : Prop := ∀ i (h : i < l.length), c.get m (a + c.size * i) = l[i]

variable {c}

theorem store_outside (h : x < a ∨ a + c.size * l.length ≤ x) : c.store m a l x = m x := by
  induction l generalizing m a with
  | nil => rfl
  | cons v l ih =>
    rw [List.length_cons, Nat.mul_add, Nat.mul_one] at h
    rw [store, ih (by omega), c.put_outside (by omega)]

theorem holds_cons {v : α} : c.Holds m a (v :: l) ↔ c.get m a = v ∧ c.Holds m (a + c.size) l := by
  constructor
  · intro h
    refine ⟨h 0 (Nat.succ_pos _), fun i hi => ?_⟩
    have hsucc := h (i + 1) (Nat.succ_lt_succ hi)
    rw [Nat.mul_add, Nat.mul_one, Nat.add_comm _ c.size, ← Nat.add_assoc] at hsucc
    exact hsucc
  · rintro ⟨h0, h⟩ i hi
    cases i with
    | zero => exact h0
    | succ i =>
      rw [Nat.mul_add, Nat.mul_one, Nat.add_comm _ c.size, ← Nat.add_assoc]
      exact h i (Nat.lt_of_succ_lt_succ hi)

/-- What is held depends on these bytes only. -/
theorem Holds.congr (h : c.Holds m a l) (he : ∀ x, a ≤ x → x < a + c.size * l.length → m' x = m x) :
    c.Holds m' a l := by
  intro i hi
  have hle : c.size * i + c.size ≤ c.size * l.length := by
    have := Nat.mul_le_mul_left c.size hi
    rwa [Nat.mul_succ] at this
  rw [c.get_congr fun x _ _ => he x (by omega) (by omega)]
  exact h i hi

theorem holds_store : c.Holds (c.store m a l) a l := by
  induction l generalizing m a with
  | nil => exact fun i hi => absurd hi (Nat.not_lt_zero i)
  | cons v l ih =>
    have hget : c.get (c.store (c.put m a v) (a + c.size) l) a = c.get (c.put m a v) a :=
      c.get_congr fun x _ _ => store_outside (by omega)
    exact holds_cons.2 ⟨hget.trans (c.get_put m a v), ih⟩

/-- Values that are stored elsewhere. -/
theorem Holds.store (h : c.Holds m a l) (hd : a + c.size * l.length ≤ b ∨ b + c.size * l'.length ≤ a) :
    c.Holds (c.store m b l') a l :=
  h.congr fun x _ _ => store_outside (by omega)

theorem holds_append : c.Holds m a (l ++ l') ↔ c.Holds m a l ∧ c.Holds m (a + c.size * l.length) l' := by
  induction l generalizing a with
  | nil =>
    rw [List.nil_append, List.length_nil, Nat.mul_zero, Nat.add_zero]
    exact ⟨fun h => ⟨fun i hi => absurd hi (Nat.not_lt_zero i), h⟩, And.right⟩
  | cons v l ih =>
    have hplace : a + c.size * (l.length + 1) = a + c.size + c.size * l.length := by
      rw [Nat.mul_succ]
      omega
    rw [List.cons_append, holds_cons, holds_cons, ih, List.length_cons, hplace, and_assoc]

/-- Blocks of `w` values each. -/
theorem holds_flatMap {n w : Nat} {f : Nat → List α} (hf : ∀ i, (f i).length = w) :
    c.Holds m a ((List.range n).flatMap f) ↔ ∀ i, i < n → c.Holds m (a + c.size * w * i) (f i) := by
  induction n with
  | zero => exact ⟨fun _ i hi => absurd hi (Nat.not_lt_zero i), fun _ i hi => absurd hi (Nat.not_lt_zero i)⟩
  | succ n ih =>
    have hlen : ((List.range n).flatMap f).length = w * n := by
      simp [List.length_flatMap, hf, Nat.mul_comm]
    rw [List.range_succ, List.flatMap_append, holds_append, ih, List.flatMap_singleton, hlen, ← Nat.mul_assoc]
    constructor
    · rintro ⟨h, hn⟩ i hi
      rcases Nat.lt_succ_iff_lt_or_eq.1 hi with hlt | rfl
      · exact h i hlt
      · exact hn
    · exact fun h => ⟨fun i hi => h i (Nat.lt_succ_of_lt hi), h n (Nat.lt_succ_self n)⟩

/-- Reading the values back. -/
theorem Holds.read (h : c.Holds m a l) : (List.range l.length).map (fun i => c.get m (a + c.size * i)) = l := by
  refine List.ext_getElem (by simp) fun i h1 h2 => ?_
  simp [h i h2]

/-- 64 bits. -/
def word : Cell (BitVec 64) where
  size := 8
  get := Ram.word
  put := Ram.setWord
  get_put := Ram.word_setWord
  get_congr := Ram.word_congr
  put_outside h := Ram.setWord_outside _ _ h

/-- 32 bits. -/
def dword : Cell (BitVec 32) where
  size := 4
  get m a := BitVec.ofNat 32
    ((m a).toNat + 2 ^ 8 * (m (a + 1)).toNat + 2 ^ 16 * (m (a + 2)).toNat + 2 ^ 24 * (m (a + 3)).toNat)
  put m a v := fun x => if a ≤ x ∧ x < a + 4 then UInt8.ofNat (v.toNat / 256 ^ (x - a)) else m x
  get_put m a v := by
    have hbyte : ∀ i, i < 4 →
      (if a ≤ a + i ∧ a + i < a + 4 then UInt8.ofNat (v.toNat / 256 ^ (a + i - a)) else m (a + i)).toNat =
        v.toNat / 256 ^ i % 256 := by
      intro i hi
      rw [if_pos (by omega), Nat.add_sub_cancel_left]
      simp
    have h0 := hbyte 0 (by omega)
    rw [Nat.add_zero] at h0
    apply BitVec.eq_of_toNat_eq
    rw [h0, hbyte 1 (by omega), hbyte 2 (by omega), hbyte 3 (by omega), BitVec.toNat_ofNat]
    have := v.isLt
    omega
  get_congr {m m' a} h := by
    rw [h a (by omega) (by omega), h (a + 1) (by omega) (by omega), h (a + 2) (by omega) (by omega),
      h (a + 3) (by omega) (by omega)]
  put_outside h := if_neg (by omega)

end Cell

end Octagram.Lib

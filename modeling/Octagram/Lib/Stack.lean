/-
A stack of 64-bit words that grows downwards in byte-addressed memory, around the end of the address
space too: what lies between the stack pointer and the base (`Stack`), and what pushes and pops do
to it. Words are counted from the base, so that a push writes a word that is none of those below it,
as long as the stack is not larger than the address space (`wordAddr_ne_below`).
-/
import Octagram.Lib.Ram

namespace Octagram.Lib.Ram

/-- The words from an address on. -/
def Holds (m : Ram) : BitVec 64 → List (BitVec 64) → Prop
  | _, [] => True
  | a, v :: vs => m.word a.toNat = v ∧ m.Holds (a + 8#64) vs

/-- The address of the word `i` words further up. -/
def wordAddr (a : BitVec 64) (i : Nat) : BitVec 64 := a + BitVec.ofNat 64 (8 * i)

@[simp] theorem wordAddr_zero (a : BitVec 64) : wordAddr a 0 = a := BitVec.add_zero a

theorem wordAddr_succ (a : BitVec 64) (i : Nat) : wordAddr a (i + 1) = wordAddr (a + 8#64) i := by
  unfold wordAddr
  rw [Nat.mul_add, Nat.mul_one, Nat.add_comm, BitVec.ofNat_add, BitVec.add_assoc]

variable {m m' : Ram} {a b : BitVec 64} {v : BitVec 64} {vs : List (BitVec 64)}

theorem holds_iff : m.Holds a vs ↔ ∀ i (h : i < vs.length), m.word (wordAddr a i).toNat = vs[i] := by
  induction vs generalizing a with
  | nil => simp [Holds]
  | cons v vs ih =>
    unfold Holds
    rw [ih]
    constructor
    · rintro ⟨h0, h⟩ i hi
      cases i with
      | zero => simpa using h0
      | succ i =>
        rw [wordAddr_succ]
        exact h i (Nat.lt_of_succ_lt_succ hi)
    · intro h
      refine ⟨by simpa using h 0 (Nat.succ_pos _), fun i hi => ?_⟩
      rw [← wordAddr_succ]
      exact h (i + 1) (Nat.succ_lt_succ hi)

/-- What lies above the first words. -/
theorem Holds.above {us : List (BitVec 64)} (h : m.Holds a (us ++ vs)) : m.Holds (wordAddr a us.length) vs := by
  induction us generalizing a with
  | nil => simpa using h
  | cons u us ih =>
    rw [List.length_cons, wordAddr_succ]
    exact ih h.2

/-- It depends on these words only. -/
theorem Holds.congr (h : m.Holds a vs)
    (hm : ∀ i < vs.length, m'.word (wordAddr a i).toNat = m.word (wordAddr a i).toNat) : m'.Holds a vs := by
  rw [holds_iff] at h ⊢
  exact fun i hi => (hm i hi).trans (h i hi)

/-- Two aligned words are the same word, or apart. -/
theorem word_setWord_of_ne (m : Ram) (ha : 8 ∣ a.toNat) (hb : 8 ∣ b.toNat) (h : a ≠ b) (v : BitVec 64) :
    (m.setWord b.toNat v).word a.toNat = m.word a.toNat := by
  have hne : a.toNat ≠ b.toNat := fun he => h (BitVec.eq_of_toNat_eq he)
  exact word_setWord_of_disjoint m v (by omega)

/-- The words between the stack pointer and the base. -/
structure Stack (m : Ram) (base sp : BitVec 64) (vs : List (BitVec 64)) : Prop where
  aligned : 8 ∣ base.toNat
  length : 8 * vs.length < 2 ^ 64
  top : sp = base - BitVec.ofNat 64 (8 * vs.length)
  holds : m.Holds sp vs

namespace Stack

variable {base sp : BitVec 64}

theorem empty (m : Ram) (h : 8 ∣ base.toNat) : Stack m base base [] := ⟨h, by simp, by simp, trivial⟩

theorem sp_toNat (h : Stack m base sp vs) : sp.toNat = (base.toNat + (2 ^ 64 - 8 * vs.length)) % 2 ^ 64 := by
  have hlen := h.length
  rw [h.top, BitVec.toNat_sub, BitVec.toNat_ofNat, Nat.mod_eq_of_lt hlen, Nat.add_comm]

theorem sp_aligned (h : Stack m base sp vs) : 8 ∣ sp.toNat := by
  have hbase := h.aligned
  rw [h.sp_toNat]
  omega

theorem wordAddr_aligned (h : Stack m base sp vs) (i : Nat) : 8 ∣ (wordAddr sp i).toNat := by
  have hsp := h.sp_aligned
  unfold wordAddr
  rw [BitVec.toNat_add, BitVec.toNat_ofNat]
  omega

theorem below_aligned (h : Stack m base sp vs) : 8 ∣ (sp - 8#64).toNat := by
  have hsp := h.sp_aligned
  rw [BitVec.toNat_sub, BitVec.toNat_ofNat]
  omega

/-- The word below the stack pointer is none of the stack's. -/
theorem wordAddr_ne_below (h : Stack m base sp vs) {i : Nat} (hi : i < vs.length) : wordAddr sp i ≠ sp - 8#64 := by
  intro he
  have hlen := h.length
  have hn := congrArg BitVec.toNat he
  unfold wordAddr at hn
  rw [BitVec.toNat_add, BitVec.toNat_ofNat, BitVec.toNat_sub, BitVec.toNat_ofNat] at hn
  have hlt := sp.isLt
  omega

/-- The stack depends on its words only. -/
theorem congr (h : Stack m base sp vs)
    (hm : ∀ i < vs.length, m'.word (wordAddr sp i).toNat = m.word (wordAddr sp i).toNat) : Stack m' base sp vs :=
  ⟨h.aligned, h.length, h.top, h.holds.congr hm⟩

/-- A write below the stack pointer changes nothing on the stack. -/
theorem setWord_below (h : Stack m base sp vs) (v : BitVec 64) : Stack (m.setWord (sp - 8#64).toNat v) base sp vs :=
  h.congr fun i hi => word_setWord_of_ne m (h.wordAddr_aligned i) h.below_aligned (h.wordAddr_ne_below hi) v

theorem push (h : Stack m base sp vs) (hlen : 8 * (vs.length + 1) < 2 ^ 64) (v : BitVec 64) :
    Stack (m.setWord (sp - 8#64).toNat v) base (sp - 8#64) (v :: vs) := by
  refine ⟨h.aligned, hlen, ?_, word_setWord m _ v, ?_⟩
  · rw [h.top, List.length_cons, Nat.mul_add, Nat.mul_one, BitVec.ofNat_add, BitVec.sub_sub]
  · rw [BitVec.sub_add_cancel]
    exact (h.setWord_below v).holds

theorem head (h : Stack m base sp (v :: vs)) : m.word sp.toNat = v := h.holds.1

theorem pop (h : Stack m base sp (v :: vs)) : Stack m base (sp + 8#64) vs := by
  have hlen := h.length
  rw [List.length_cons] at hlen
  refine ⟨h.aligned, by omega, ?_, h.holds.2⟩
  rw [h.top, List.length_cons, Nat.mul_add, Nat.mul_one, BitVec.ofNat_add, ← BitVec.sub_sub]
  exact BitVec.sub_add_cancel ..

end Stack

end Octagram.Lib.Ram

/-
The page tables in memory as a tree of tables: the invariant `PageTables`, the map `Mem.abs` from
virtual addresses to frames that they stand for, and what writing a leaf entry and putting a new
table into an empty entry do to both (`PageTables.setLeaf`, `PageTables.putTable`). That no table is
reached on two paths is `Tree` of `Lib.Walk`, which makes a write to one entry a change of one path.
-/
import Octagram.Memory.Paging
import Octagram.Memory.FrameList
import Octagram.Lib.Walk

namespace Octagram.Memory

open Octagram.Lib

/-! ## Entries -/

/-- Entry `i` of the table at the physical address `t`. -/
def entryAt (ram : Ram) (t : Nat) (i : Fin 512) : BitVec 64 := ram.word (t + 8 * i)

/-- The PRESENT bit of an entry. -/
def Present (e : BitVec 64) : Prop := e &&& flags.PRESENT ≠ 0

instance (e : BitVec 64) : Decidable (Present e) := inferInstanceAs (Decidable (_ ≠ _))

/-- The HUGE_PAGE bit of an entry. -/
def Huge (e : BitVec 64) : Prop := e &&& flags.HUGE_PAGE ≠ 0

instance (e : BitVec 64) : Decidable (Huge e) := inferInstanceAs (Decidable (_ ≠ _))

/-- The table a present, non-huge entry points to. -/
def tableOf (e : BitVec 64) : Option Nat := if Present e ∧ ¬ Huge e then some (e &&& ADDR_MASK).toNat else none

/-- The frame and the flags of a present leaf entry. -/
def leafOf (e : BitVec 64) : Option (BitVec 64 × BitVec 64) :=
  if Present e then some (e &&& ADDR_MASK, e &&& ~~~ADDR_MASK) else none

theorem tableOf_eq_some {e : BitVec 64} {t : Nat} :
    tableOf e = some t ↔ Present e ∧ ¬ Huge e ∧ (e &&& ADDR_MASK).toNat = t := by
  unfold tableOf
  split
  · rename_i h
    simp [h.1, h.2]
  · rename_i h
    simp only [reduceCtorEq, false_iff]
    exact fun hc => h ⟨hc.1, hc.2.1⟩

theorem not_present_zero : ¬ Present 0#64 := by decide

theorem not_huge_zero : ¬ Huge 0#64 := by decide

@[simp] theorem tableOf_zero : tableOf 0 = none := rfl

@[simp] theorem leafOf_zero : leafOf 0 = none := rfl

/-- Masking with `ADDR_MASK` leaves the address of a 4 KiB frame below `2^52`. -/
theorem and_addrMask_toNat (x : BitVec 64) : (x &&& ADDR_MASK).toNat = x.toNat % 2 ^ 52 / 4096 * 4096 := by
  have hm : ADDR_MASK = BitVec.ofNat 64 (2 ^ 52 - 1) &&& ~~~BitVec.ofNat 64 (2 ^ 12 - 1) := by decide
  rw [hm, ← BitVec.and_assoc, and_not_lowMask_toNat, and_lowMask_toNat x (by decide)]
  rfl

theorem and_addrMask_of_frame {x : BitVec 64} (ha : 4096 ∣ x.toNat) (hb : x.toNat < 2 ^ 52) : x &&& ADDR_MASK = x := by
  apply BitVec.eq_of_toNat_eq
  rw [and_addrMask_toNat]
  omega

theorem and_not_addrMask_of_frame {x : BitVec 64} (ha : 4096 ∣ x.toNat) (hb : x.toNat < 2 ^ 52) :
    x &&& ~~~ADDR_MASK = 0 := by
  rw [← and_addrMask_of_frame ha hb, BitVec.and_assoc, BitVec.and_not_self]
  exact BitVec.and_zero

theorem present_or (x y : BitVec 64) : Present (x ||| flags.PRESENT ||| y) := by
  intro h
  have := congrArg (BitVec.getLsbD · 0) h
  simp [flags.PRESENT] at this

/-- The entry `next_table_or_create` writes points to the frame it allocated. -/
theorem tableOf_frame {f : Nat} (ha : 4096 ∣ f) (hb : f < 2 ^ 52) :
    tableOf (BitVec.ofNat 64 f ||| flags.PRESENT ||| flags.WRITABLE) = some f := by
  have hf : (BitVec.ofNat 64 f).toNat = f := by rw [BitVec.toNat_ofNat, Nat.mod_eq_of_lt (by omega)]
  have hmask : (BitVec.ofNat 64 f ||| flags.PRESENT ||| flags.WRITABLE) &&& ADDR_MASK = BitVec.ofNat 64 f := by
    rw [BitVec.or_assoc, BitVec.and_or_distrib_right,
      and_addrMask_of_frame (by rw [hf]; exact ha) (by rw [hf]; exact hb)]
    have : (flags.PRESENT ||| flags.WRITABLE) &&& ADDR_MASK = 0 := by decide
    rw [this]; exact BitVec.or_zero
  have hhuge : ¬ Huge (BitVec.ofNat 64 f ||| flags.PRESENT ||| flags.WRITABLE) := by
    have h0 : BitVec.ofNat 64 f &&& flags.HUGE_PAGE = 0#64 := by
      rw [← and_addrMask_of_frame (x := BitVec.ofNat 64 f) (by rw [hf]; exact ha) (by rw [hf]; exact hb),
        BitVec.and_assoc]
      have : ADDR_MASK &&& flags.HUGE_PAGE = 0 := by decide
      rw [this]; exact BitVec.and_zero
    unfold Huge
    rw [BitVec.or_assoc, BitVec.and_or_distrib_right, h0, BitVec.zero_or]
    decide
  unfold tableOf
  rw [if_pos ⟨present_or _ _, hhuge⟩, hmask, hf]

/-- The leaf entry `map_page` writes carries the frame and the flags it was given. -/
theorem leafOf_mapped {x fl : BitVec 64} (ha : 4096 ∣ x.toNat) (hb : x.toNat < 2 ^ 52) (hf : fl &&& ADDR_MASK = 0#64) :
    leafOf (x ||| flags.PRESENT ||| fl) = some (x, fl ||| flags.PRESENT) := by
  have hp : flags.PRESENT &&& ADDR_MASK = 0 := by decide
  have hp' : flags.PRESENT &&& ~~~ADDR_MASK = flags.PRESENT := by decide
  have hf' : fl &&& ~~~ADDR_MASK = fl := by
    have := BitVec.and_or_distrib_left (x := fl) (y := ADDR_MASK) (z := ~~~ADDR_MASK)
    rw [hf, BitVec.zero_or, BitVec.or_not_self, BitVec.and_allOnes] at this
    exact this.symm
  unfold leafOf
  rw [if_pos (present_or _ _), BitVec.and_or_distrib_right, BitVec.and_or_distrib_right, BitVec.and_or_distrib_right,
    BitVec.and_or_distrib_right, and_addrMask_of_frame ha hb, and_not_addrMask_of_frame ha hb, hp, hp', hf, hf']
  simp [BitVec.or_comm]

theorem entryAt_setWord (ram : Ram) (t : Nat) (i : Fin 512) (w : BitVec 64) :
    entryAt (ram.setWord (t + 8 * i) w) t i = w :=
  Ram.word_setWord ..

/-- Writing one entry changes no other entry of any table. -/
theorem entryAt_setWord_ne {ram : Ram} {t u : Nat} {i j : Fin 512} (w : BitVec 64) (ht : 4096 ∣ t) (hu : 4096 ∣ u)
    (h : ¬ (u = t ∧ j = i)) : entryAt (ram.setWord (t + 8 * i) w) u j = entryAt ram u j := by
  refine Ram.word_setWord_of_disjoint _ _ ?_
  have hij : u = t → j.val ≠ i.val := fun e hv => h ⟨e, Fin.ext hv⟩
  have := i.isLt
  have := j.isLt
  by_cases hut : u = t
  · have := hij hut; omega
  · omega

theorem entryAt_congr {ram ram' : Ram} {t : Nat} (h : ∀ x, InFrame t x → ram' x = ram x) (i : Fin 512) :
    entryAt ram' t i = entryAt ram t i := by
  have := i.isLt
  exact Ram.word_congr fun x h1 h2 => h x ⟨by omega, by omega⟩

/-- The entries of a zeroed frame. -/
theorem entryAt_zeroed {ram : Ram} {t : Nat} (h : ∀ x, InFrame t x → ram x = 0) (i : Fin 512) :
    entryAt ram t i = 0 := by
  have := i.isLt
  exact Ram.word_zero fun x h1 h2 => h x ⟨by omega, by omega⟩

/-! ## Tables -/

namespace Mem

/-- The physical address of the PML4. -/
def root (s : Mem) : Nat := (s.cr3 &&& ADDR_MASK).toNat

/-- The table reached from the root through the entries `p`. -/
def table (s : Mem) (p : List (Fin 512)) : Option Nat := walk (fun t i => tableOf (entryAt s.ram t i)) s.root p

/-- Entry `i` of the table reached through `p`. -/
def entry (s : Mem) (p : List (Fin 512)) (i : Fin 512) : Option (BitVec 64) :=
  (s.table p).map fun t => entryAt s.ram t i

/-- The indices of the three entries above the leaf entry of `v`. -/
def tablePath (v : BitVec 64) : List (Fin 512) := [tableIndex v 39, tableIndex v 30, tableIndex v 21]

/-- The page number of `v`: its bits 12..47. -/
def pageNumber (v : BitVec 64) : Nat := v.toNat / 4096 % 2 ^ 36

/-- The map the page tables stand for: the frame and the flags of the present leaf entry of `v`. -/
def abs (s : Mem) (v : BitVec 64) : Option (BitVec 64 × BitVec 64) :=
  (s.entry (tablePath v) (tableIndex v 12)).bind leafOf

/-- On the way down from the table at `q` through the entries `p` there is a huge page. -/
def HugeBelow (s : Mem) (q p : List (Fin 512)) : Prop :=
  ∃ p₁ i p₂ e, p = p₁ ++ i :: p₂ ∧ s.entry (q ++ p₁) i = some e ∧ Present e ∧ Huge e

/-- There is a huge page on the path of `v`. -/
def HugeOnPath (s : Mem) (v : BitVec 64) : Prop := s.HugeBelow [] (tablePath v)

/-- How many tables are missing on the way down from the table at `q` through the entries `p`. -/
def missingBelow (s : Mem) : List (Fin 512) → List (Fin 512) → Nat
  | _, [] => 0
  | q, i :: p =>
    match s.table (q ++ [i]) with
    | some _ => s.missingBelow (q ++ [i]) p
    | none => p.length + 1

/-- How many tables are missing on the path of `v`. -/
def missingTables (s : Mem) (v : BitVec 64) : Nat := s.missingBelow [] (tablePath v)

theorem tableIndex_val (v : BitVec 64) (shift : Nat) : (tableIndex v shift).val = v.toNat / 2 ^ shift % 512 := by
  have h := and_lowMask_toNat (v >>> shift) (k := 9) (by decide)
  rw [BitVec.toNat_ushiftRight, Nat.shiftRight_eq_div_pow] at h
  exact h

/-- The page number is what the four table indices say. -/
theorem pageNumber_eq_iff (u v : BitVec 64) :
    pageNumber u = pageNumber v ↔ tablePath u = tablePath v ∧ tableIndex u 12 = tableIndex v 12 := by
  unfold pageNumber tablePath
  simp only [List.cons.injEq, and_true, Fin.ext_iff, tableIndex_val]
  omega

theorem pageBase_toNat (v : BitVec 64) : (pageBase v).toNat = v.toNat / 4096 * 4096 := and_not_lowMask_toNat v 12

/-- Rounding down to the page changes no index. -/
theorem pageNumber_pageBase (v : BitVec 64) : pageNumber (pageBase v) = pageNumber v := by
  unfold pageNumber
  rw [pageBase_toNat]
  omega

@[simp] theorem table_nil (s : Mem) : s.table [] = some s.root := rfl

theorem table_snoc (s : Mem) (p : List (Fin 512)) (i : Fin 512) : s.table (p ++ [i]) = (s.entry p i).bind tableOf := by
  unfold entry
  unfold table
  rw [walk_snoc]
  cases walk (fun t i => tableOf (entryAt s.ram t i)) s.root p <;> rfl

theorem entry_of_table {s : Mem} {p : List (Fin 512)} {t : Nat} (h : s.table p = some t) (i : Fin 512) :
    s.entry p i = some (entryAt s.ram t i) := by
  unfold entry; rw [h]; rfl

/-- Tables are frames. -/
theorem table_aligned {s : Mem} {p : List (Fin 512)} {t : Nat} (h : s.table p = some t) : 4096 ∣ t := by
  have hm : ∀ x : BitVec 64, 4096 ∣ (x &&& ADDR_MASK).toNat := fun x => ⟨_, by rw [and_addrMask_toNat, Nat.mul_comm]⟩
  cases p using List.reverseRecOn with
  | nil => cases h; exact hm _
  | append_singleton p i =>
    rw [table_snoc, Option.bind_eq_some_iff] at h
    obtain ⟨e, -, he⟩ := h
    unfold tableOf at he
    split at he
    · cases he; exact hm e
    · cases he

/-- Write entry `i` of the table at the physical address `t`. -/
def setEntry (s : Mem) (t : Nat) (i : Fin 512) (w : BitVec 64) : Mem :=
  { s with ram := s.ram.setWord (t + 8 * i) w }

theorem setEntry_onlyFrames (s : Mem) (t : Nat) (i : Fin 512) (w : BitVec 64) :
    OnlyFrames [t] s (s.setEntry t i w) := by
  refine ⟨⟨rfl, rfl, rfl⟩, fun x hx => Ram.setWord_outside _ _ ?_⟩
  have := hx t List.mem_cons_self
  have := i.isLt
  unfold InFrame at *
  omega

/-! ## The way down -/

theorem hugeBelow_cons {s : Mem} {q p : List (Fin 512)} {i : Fin 512} :
    s.HugeBelow q (i :: p) ↔ (∃ e, s.entry q i = some e ∧ Present e ∧ Huge e) ∨ s.HugeBelow (q ++ [i]) p := by
  constructor
  · rintro ⟨p₁, j, p₂, e, hp, he, hh⟩
    cases p₁ with
    | nil =>
      obtain ⟨rfl, -⟩ := List.cons.inj hp
      exact .inl ⟨e, by simpa using he, hh⟩
    | cons a p₁ =>
      obtain ⟨rfl, rfl⟩ := List.cons.inj hp
      exact .inr ⟨p₁, j, p₂, e, rfl, by simpa using he, hh⟩
  · rintro (⟨e, he, hh⟩ | ⟨p₁, j, p₂, e, rfl, he, hh⟩)
    · exact ⟨[], i, p, e, rfl, by simpa using he, hh⟩
    · exact ⟨i :: p₁, j, p₂, e, rfl, by simpa using he, hh⟩

/-- `hugeBelow_cons` where the table is known. -/
theorem hugeBelow_of_table {s : Mem} {q p : List (Fin 512)} {i : Fin 512} {t : Nat} (h : s.table q = some t) :
    s.HugeBelow q (i :: p) ↔ (Present (entryAt s.ram t i) ∧ Huge (entryAt s.ram t i)) ∨ s.HugeBelow (q ++ [i]) p := by
  rw [hugeBelow_cons, entry_of_table h]
  simp

theorem not_hugeBelow_nil (s : Mem) (q : List (Fin 512)) : ¬ s.HugeBelow q [] := by
  rintro ⟨p₁, i, p₂, e, hp, -⟩
  exact absurd hp (by simp)

theorem missingBelow_none {s : Mem} {q : List (Fin 512)} {i : Fin 512} (h : s.table (q ++ [i]) = none)
    (p : List (Fin 512)) : s.missingBelow q (i :: p) = p.length + 1 := by
  unfold missingBelow; rw [h]

theorem missingBelow_some {s : Mem} {q : List (Fin 512)} {i : Fin 512} {t : Nat} (h : s.table (q ++ [i]) = some t)
    (p : List (Fin 512)) : s.missingBelow q (i :: p) = s.missingBelow (q ++ [i]) p := by
  rw [missingBelow, h]

/-- Below an absent entry there is no table. -/
theorem table_append_none {s : Mem} {q : List (Fin 512)} (h : s.table q = none) (p : List (Fin 512)) :
    s.table (q ++ p) = none := by
  unfold table at *
  rw [walk_append, h]
  rfl

theorem not_hugeBelow_none {s : Mem} {q : List (Fin 512)} (h : s.table q = none) (p : List (Fin 512)) :
    ¬ s.HugeBelow q p := by
  rintro ⟨p₁, i, p₂, e, -, he, -⟩
  unfold entry at he
  rw [table_append_none h] at he
  cases he

/-- A table that is reached has no huge page above it, and no table above it is missing. -/
theorem below_table {s : Mem} : ∀ {q p : List (Fin 512)} {t : Nat}, s.table (q ++ p) = some t →
    ¬ s.HugeBelow q p ∧ s.missingBelow q p = 0
  | q, [], t, h => ⟨not_hugeBelow_nil s q, rfl⟩
  | q, i :: p, t, h => by
    rw [List.append_cons] at h
    cases hc : s.table (q ++ [i]) with
    | none => rw [table_append_none hc] at h; cases h
    | some c =>
      obtain ⟨h1, h2⟩ := below_table h
      rw [hugeBelow_cons, missingBelow_some hc]
      refine ⟨?_, h2⟩
      rintro (⟨e, he, -, hh⟩ | hb)
      · rw [table_snoc, he, Option.bind_some, tableOf_eq_some] at hc
        exact hc.2.1 hh
      · exact h1 hb

/-- Below an entry that is 0 there is neither a huge page nor a table. -/
theorem below_zero {s : Mem} {q : List (Fin 512)} {i : Fin 512} (h : s.entry q i = some 0) (p : List (Fin 512)) :
    ¬ s.HugeBelow q (i :: p) ∧ s.missingBelow q (i :: p) = p.length + 1 := by
  have hn : s.table (q ++ [i]) = none := by rw [table_snoc, h]; rfl
  refine ⟨?_, missingBelow_none hn p⟩
  rw [hugeBelow_cons]
  rintro (⟨e, he, hp, -⟩ | hb)
  · rw [h] at he
    cases he
    exact not_present_zero hp
  · exact not_hugeBelow_none hn p hb

/-- Below an empty table there is no huge page and every table is missing. -/
theorem below_empty {s : Mem} {q : List (Fin 512)} (h : ∀ i, s.entry q i = some 0) (p : List (Fin 512)) :
    ¬ s.HugeBelow q p ∧ s.missingBelow q p = p.length := by
  cases p with
  | nil => exact ⟨not_hugeBelow_nil s q, rfl⟩
  | cons i p => exact below_zero (h i) p

end Mem

/-! ## The invariant -/

/-- The page tables form a tree: every present non-huge entry above the leaf level points to a
frame of its own, which is not the root. No table is on the free list, every free frame has a
physical address (52 bits), and every absent entry is 0. -/
structure PageTables (s : Mem) (free : List Nat) : Prop where
  alloc : FreeInv s free
  phys : ∀ f ∈ free, f < 2 ^ 52
  tree : Tree (fun t i => tableOf (entryAt s.ram t i)) s.root 3
  offFree : ∀ p t, p.length ≤ 3 → s.table p = some t → t ∉ free
  zero : ∀ p i e, p.length ≤ 3 → s.entry p i = some e → ¬ Present e → e = 0

/-- The two states have the same window and CR3 and stand for the same map. -/
structure SameMap (s s' : Mem) : Prop where
  boot : s.SameBoot s'
  abs : ∀ v, s'.abs v = s.abs v
  huge : ∀ v, s'.HugeOnPath v ↔ s.HugeOnPath v

theorem SameMap.refl (s : Mem) : SameMap s s := ⟨Mem.SameBoot.refl s, fun _ => rfl, fun _ => Iff.rfl⟩

theorem SameMap.trans {s s' s'' : Mem} (h : SameMap s s') (h' : SameMap s' s'') : SameMap s s'' :=
  ⟨h.boot.trans h'.boot, fun v => (h'.abs v).trans (h.abs v), fun v => (h'.huge v).trans (h.huge v)⟩

/-- Whether there is a huge page on a path depends on the entries above the leaves only. -/
theorem hugeOnPath_congr {s s' : Mem} (h : ∀ p i, p.length < 3 →
    ((∃ e, s'.entry p i = some e ∧ Present e ∧ Huge e) ↔ ∃ e, s.entry p i = some e ∧ Present e ∧ Huge e))
    (v : BitVec 64) : s'.HugeOnPath v ↔ s.HugeOnPath v := by
  have hl : ∀ {p₁ p₂ : List (Fin 512)} {i}, Mem.tablePath v = p₁ ++ i :: p₂ → p₁.length < 3 := fun hp => by
    have := congrArg List.length hp
    simp only [Mem.tablePath, List.length_cons, List.length_nil, List.length_append] at this
    omega
  constructor
  · rintro ⟨p₁, i, p₂, e, hp, he⟩
    obtain ⟨e', he'⟩ := (h p₁ i (hl hp)).1 ⟨e, by simpa using he⟩
    exact ⟨p₁, i, p₂, e', hp, by simpa using he'⟩
  · rintro ⟨p₁, i, p₂, e, hp, he⟩
    obtain ⟨e', he'⟩ := (h p₁ i (hl hp)).2 ⟨e, by simpa using he⟩
    exact ⟨p₁, i, p₂, e', hp, by simpa using he'⟩

theorem sameMap_of_entries {s s' : Mem} (hb : s.SameBoot s')
    (h : ∀ p i, p.length ≤ 3 → s'.entry p i = s.entry p i) : SameMap s s' := by
  refine ⟨hb, fun v => ?_, hugeOnPath_congr fun p i hp => by rw [h p i (by omega)]⟩
  unfold Mem.abs
  rw [h (Mem.tablePath v) _ (Nat.le_refl 3)]

/-- An empty table in place of an absent entry stands for nothing. -/
theorem sameMap_putTable {s s' : Mem} {q : List (Fin 512)} {i : Fin 512} {w : BitVec 64} (hb : s.SameBoot s')
    (hl : q.length < 3) (he : s.entry q i = some 0) (hw : ¬ Huge w)
    (h : ∀ p, p.length ≤ 3 → ∀ j,
      s'.entry p j = if p = q ++ [i] then some 0 else if p = q ∧ j = i then some w else s.entry p j) :
    SameMap s s' := by
  -- below the absent entry nothing was mapped, and below the empty table nothing is
  have hnone : ∀ j, s.entry (q ++ [i]) j = none := fun j => by
    unfold Mem.entry
    rw [Mem.table_snoc, he]
    rfl
  refine ⟨hb, fun v => ?_, hugeOnPath_congr fun p j hp => ?_⟩
  · have h3 : (Mem.tablePath v).length = 3 := rfl
    unfold Mem.abs
    rw [h _ (by omega)]
    split
    · rename_i hq
      rw [hq, hnone]
      rfl
    · rw [if_neg fun hc => by rw [hc.1] at h3; omega]
  · rw [h p (by omega)]
    split
    · rename_i hq
      rw [hq, hnone]
      simp [not_present_zero]
    · split
      · rename_i hq
        rw [hq.1, hq.2, he]
        simp [hw, not_present_zero]
      · rfl

section Writes

variable {s s' : Mem} {free free' : List Nat} {q : List (Fin 512)} {n f : Nat} {i : Fin 512} {w : BitVec 64}

/-- Writes to frames that are no tables leave the tables as they are. -/
theorem PageTables.of_frames (h : PageTables s free) {fs : List Nat} (hi : FreeInv s' free')
    (hfree : ∀ f ∈ free', f < 2 ^ 52 ∧ ∀ p, p.length ≤ 3 → s.table p ≠ some f) (ho : OnlyFrames fs s s')
    (hfs : ∀ f ∈ fs, 4096 ∣ f ∧ ∀ p, p.length ≤ 3 → s.table p ≠ some f) :
    PageTables s' free' ∧ ∀ p, p.length ≤ 3 → s'.table p = s.table p ∧ ∀ i, s'.entry p i = s.entry p i := by
  have hroot : s'.root = s.root := by unfold Mem.root; rw [ho.boot.cr3]
  have hent : ∀ p t, p.length ≤ 3 → s.table p = some t → ∀ i, entryAt s'.ram t i = entryAt s.ram t i :=
    fun p t hp ht i =>
    entryAt_congr (fun x hx => ho.ram x fun f hf =>
      inFrame_disjoint (Mem.table_aligned ht) (hfs f hf).1 (fun e => (hfs f hf).2 p hp (e ▸ ht)) hx) i
  have htab : ∀ p, p.length ≤ 3 → s'.table p = s.table p := fun p hp => by
    unfold Mem.table
    rw [hroot]
    exact walk_congr (fun p' t hp' ht i => by rw [hent p' t (by omega) ht]) p hp
  have hentry : ∀ p, p.length ≤ 3 → ∀ i, s'.entry p i = s.entry p i := fun p hp i => by
    unfold Mem.entry
    rw [htab p hp]
    cases ht : s.table p with
    | none => rfl
    | some t => exact congrArg some (hent p t hp ht i)
  refine ⟨⟨hi, fun f hf => (hfree f hf).1, fun p p' t hp hp' ht ht' => ?_, fun p t hp ht hf => ?_,
    fun p i e hp he => ?_⟩, fun p hp => ⟨htab p hp, hentry p hp⟩⟩
  · exact h.tree p p' t hp hp' ((htab p hp).symm.trans ht) ((htab p' hp').symm.trans ht')
  · exact (hfree t hf).2 p hp ((htab p hp).symm.trans ht)
  · exact h.zero p i e hp ((hentry p hp i).symm.trans he)

/-- Writes to free frames leave the tables as they are. -/
theorem PageTables.of_outside (h : PageTables s free) (hi : FreeInv s' free') (hsub : ∀ f ∈ free', f ∈ free)
    (ho : OnlyFrames free s s') :
    PageTables s' free' ∧ ∀ p, p.length ≤ 3 → s'.table p = s.table p ∧ ∀ i, s'.entry p i = s.entry p i := by
  have hoff : ∀ f ∈ free, ∀ p, p.length ≤ 3 → s.table p ≠ some f := fun f hf p hp ht => h.offFree p f hp ht hf
  exact h.of_frames hi (fun f hf => ⟨h.phys f (hsub f hf), hoff f (hsub f hf)⟩) ho
    fun f hf => ⟨h.alloc.aligned f hf, hoff f hf⟩

/-- Writing an entry of a table does not touch the free list. -/
theorem PageTables.setEntry_alloc (h : PageTables s free) (hq : s.table q = some n) (hl : q.length ≤ 3) :
    FreeInv (s.setEntry n i w) free := by
  refine h.alloc.write_outside (s.setEntry_onlyFrames n i w) rfl fun f hf x hx k hk => ?_
  rw [List.mem_singleton.1 hk]
  exact inFrame_disjoint (h.alloc.aligned f hf) (Mem.table_aligned hq) (fun e => h.offFree q n hl hq (e ▸ hf)) hx

/-- The other entries of all tables stay. -/
theorem Mem.entryAt_setEntry (hq : s.table q = some n) {p : List (Fin 512)} {m : Nat} {j : Fin 512}
    (hm : s.table p = some m) (hne : ¬ (m = n ∧ j = i)) :
    entryAt (s.setEntry n i w).ram m j = entryAt s.ram m j :=
  entryAt_setWord_ne w (Mem.table_aligned hq) (Mem.table_aligned hm) hne

/-- In a table that is reached as before, writing an entry changes that entry only. -/
theorem PageTables.entry_setEntry (h : PageTables s free) (hq : s.table q = some n) (hl : q.length ≤ 3)
    {p : List (Fin 512)} (hp : p.length ≤ 3) (ht : (s.setEntry n i w).table p = s.table p) (j : Fin 512) :
    (s.setEntry n i w).entry p j = if p = q ∧ j = i then some w else s.entry p j := by
  unfold Mem.entry
  rw [ht]
  by_cases hpj : p = q ∧ j = i
  · obtain ⟨rfl, rfl⟩ := hpj
    rw [if_pos ⟨rfl, rfl⟩, hq]
    exact congrArg some (entryAt_setWord s.ram n j w)
  · rw [if_neg hpj]
    cases hm : s.table p with
    | none => rfl
    | some m =>
      refine congrArg some (Mem.entryAt_setEntry hq hm ?_)
      rintro ⟨rfl, rfl⟩
      exact hpj ⟨h.tree p q m hp hl hm hq, rfl⟩

/-- Writing a leaf entry changes that entry only. -/
theorem PageTables.setLeaf (h : PageTables s free) (hq : s.table q = some n) (hl : q.length = 3)
    (hw : ¬ Present w → w = 0) :
    PageTables (s.setEntry n i w) free ∧
      ∀ p, p.length ≤ 3 → (s.setEntry n i w).table p = s.table p ∧
        ∀ j, (s.setEntry n i w).entry p j = if p = q ∧ j = i then some w else s.entry p j := by
  have htab : ∀ p, p.length ≤ 3 → (s.setEntry n i w).table p = s.table p := fun p hp =>
    walk_leaf h.tree hq hl (fun p' m _ hm hmn j => by rw [Mem.entryAt_setEntry hq hm fun hc => hmn hc.1]) p hp
  have hentry : ∀ p, p.length ≤ 3 → ∀ j,
      (s.setEntry n i w).entry p j = if p = q ∧ j = i then some w else s.entry p j := fun p hp =>
    h.entry_setEntry hq (by omega) hp (htab p hp)
  refine ⟨⟨h.setEntry_alloc hq (by omega), h.phys, fun p p' t hp hp' ht ht' => ?_, fun p t hp ht => ?_,
    fun p j e hp he hn => ?_⟩, fun p hp => ⟨htab p hp, hentry p hp⟩⟩
  · exact h.tree p p' t hp hp' ((htab p hp).symm.trans ht) ((htab p' hp').symm.trans ht')
  · exact h.offFree p t hp ((htab p hp).symm.trans ht)
  · rw [hentry p hp] at he
    split at he
    · cases he; exact hw hn
    · exact h.zero p j e hp he hn

/-- Putting an empty table `f` into an absent entry adds one table and changes no other entry. -/
theorem PageTables.putTable (h : PageTables s free) (hq : s.table q = some n) (hl : q.length < 3)
    (he : s.entry q i = some 0) (hpr : Present w) (hw : tableOf w = some f)
    (hfresh : ∀ p, p.length ≤ 3 → s.table p ≠ some f) (hf : f ∉ free) (ha : 4096 ∣ f)
    (hz : ∀ j, entryAt s.ram f j = 0) :
    PageTables (s.setEntry n i w) free ∧
      ∀ p, p.length ≤ 3 → (s.setEntry n i w).table p = (if p = q ++ [i] then some f else s.table p) ∧
        ∀ j, (s.setEntry n i w).entry p j =
          if p = q ++ [i] then some 0 else if p = q ∧ j = i then some w else s.entry p j := by
  have hnf : f ≠ n := fun e => hfresh q (by omega) (e ▸ hq)
  have hzero : ∀ j, entryAt (s.setEntry n i w).ram f j = 0 := fun j =>
    (entryAt_setWord_ne w (Mem.table_aligned hq) ha fun hc => hnf hc.1).trans (hz j)
  rw [Mem.entry_of_table hq] at he
  -- the write grafts the empty table onto the tree
  have hg : Graft (fun t i => tableOf (entryAt s.ram t i)) (fun t j => tableOf (entryAt (s.setEntry n i w).ram t j))
      s.root n f 3 q i :=
    { at_end := hq
      above := hl
      empty := by rw [Option.some.inj he]; rfl
      fresh := hfresh
      put := by
        show tableOf (entryAt (s.ram.setWord (n + 8 * i) w) n i) = _
        rw [entryAt_setWord, hw]
      leaf := fun j => by rw [hzero]; rfl
      same := fun p m j _ hm hmn => by rw [Mem.entryAt_setEntry hq hm hmn] }
  have htab : ∀ p, p.length ≤ 3 → (s.setEntry n i w).table p = if p = q ++ [i] then some f else s.table p :=
    fun p hp => hg.walk h.tree p hp
  have hentry : ∀ p, p.length ≤ 3 → ∀ j, (s.setEntry n i w).entry p j =
      if p = q ++ [i] then some 0 else if p = q ∧ j = i then some w else s.entry p j := fun p hp j => by
    by_cases hpq : p = q ++ [i]
    · unfold Mem.entry
      rw [htab p hp, if_pos hpq, if_pos hpq]
      exact congrArg some (hzero j)
    · rw [if_neg hpq, h.entry_setEntry hq (by omega) hp ((htab p hp).trans (if_neg hpq))]
  refine ⟨⟨h.setEntry_alloc hq (by omega), h.phys, hg.tree h.tree, fun p t hp ht => ?_, fun p j e hp he' hn => ?_⟩,
    fun p hp => ⟨htab p hp, hentry p hp⟩⟩
  · rw [htab p hp] at ht
    split at ht
    · cases ht; exact hf
    · exact h.offFree p t hp ht
  · rw [hentry p hp] at he'
    split at he'
    · cases he'; rfl
    · split at he'
      · cases he'; exact absurd hpr hn
      · exact h.zero p j e hp he' hn

end Writes

end Octagram.Memory

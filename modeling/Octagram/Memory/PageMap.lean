/-
`map_page`, `unmap_page` and `translate` refine an abstract map from page numbers to frames and
flags: over every sequence of calls the tables stay a tree and each call does to the map exactly
what its name says (`page_tables_refine`). The functions go down the levels one by one, so each
level has a lemma: a table that is there, one that is created (`createPath`), and one that is
missing (`readPath`). What the tables stand for is `Mem.abs`, and the invariant `PageTables` with
the free list `FreeInv` beside it, as new tables are frames off the list.
-/
import Octagram.Memory.Growth
import Mathlib.Logic.Relation

namespace Octagram.Memory

open Octagram.Lib

/-! ## Addresses of the window -/

theorem readEntry {s : Mem} {off : Nat} (h : s.hhdm = some off) (t : Nat) (i : Fin 512) :
    s.readWord (entryPtr (t + off) i) = entryAt s.ram t i := by
  unfold Mem.readWord entryPtr entryAt
  rw [Nat.add_right_comm, Mem.behind_window h]

theorem writeEntry {s : Mem} {off : Nat} (h : s.hhdm = some off) (t : Nat) (i : Fin 512) (w : BitVec 64) :
    s.writeWord (entryPtr (t + off) i) w = s.setEntry t i w := by
  unfold Mem.writeWord entryPtr Mem.setEntry
  rw [Nat.add_right_comm, Mem.behind_window h]

theorem tableVirt_ok {s : Mem} {off : Nat} (h : s.hhdm = some off) (phys : BitVec 64) :
    (tableVirt phys).exec s = .ok (.ok (phys.toNat + off), s) := by
  unfold tableVirt
  rw [PageM.exec_get, Mem.physicalToVirtual_some h]
  rfl

theorem pml4Virt_ok {s : Mem} {off : Nat} (h : s.hhdm = some off) :
    pml4Virt.exec s = .ok (.ok (s.root + off), s) := by
  unfold pml4Virt
  rw [PageM.exec_get]
  exact tableVirt_ok h _

/-! ## One level down, creating the table -/

section OneLevel

variable {s : Mem} {free rest : List Nat} {off n f : Nat} {q : List (Fin 512)} {i : Fin 512}

theorem nextTableOrCreate_huge (ho : s.hhdm = some off) (hh : Huge (entryAt s.ram n i)) :
    (nextTableOrCreate (entryPtr (n + off) i)).exec s = .ok (.error .hugePageInPath, s) := by
  unfold Huge at hh
  unfold nextTableOrCreate
  rw [PageM.exec_get, readEntry ho, if_pos hh]
  rfl

/-- After `createTable`, `next_table_or_create` follows the entry. -/
theorem nextTableOrCreate_ok {s' : Mem} (ho : s.hhdm = some off) (hh : ¬ Huge (entryAt s.ram n i))
    (hc : (createTable (entryPtr (n + off) i)).exec s = .ok (.ok (), s')) (ho' : s'.hhdm = some off) :
    (nextTableOrCreate (entryPtr (n + off) i)).exec s =
      .ok (.ok ((entryAt s'.ram n i &&& ADDR_MASK).toNat + off), s') := by
  unfold Huge at hh
  unfold nextTableOrCreate
  rw [PageM.exec_get, readEntry ho, if_neg hh, PageM.exec_bind_ok hc, PageM.exec_get, readEntry ho']
  exact tableVirt_ok ho' _

theorem createTable_present (ho : s.hhdm = some off) (hp : Present (entryAt s.ram n i)) :
    (createTable (entryPtr (n + off) i)).exec s = .ok (.ok (), s) := by
  unfold Present at hp
  unfold createTable
  rw [PageM.exec_get, readEntry ho, if_neg hp]
  rfl

/-- Where the allocator has no frame, the call ends with its error. -/
theorem nextTableOrCreate_outOfFrames (ho : s.hhdm = some off) (h0 : entryAt s.ram n i = 0)
    (hr : FrameAllocator.allocate.run s = .ok (none, s')) :
    (nextTableOrCreate (entryPtr (n + off) i)).exec s = .ok (.error .outOfFrames, s') := by
  have hc : (createTable (entryPtr (n + off) i)).exec s = .ok (.error .outOfFrames, s') := by
    unfold createTable
    rw [PageM.exec_get, readEntry ho, h0, if_pos (by decide), allocateFrame, PageM.exec_bind_ok (PageM.exec_lift hr)]
    rfl
  unfold nextTableOrCreate
  rw [PageM.exec_get, readEntry ho, h0, if_neg (by decide), PageM.exec_bind_error hc]

/-- Without a free frame, no table is created. -/
theorem nextTableOrCreate_exhausted (h : PageTables s []) (ho : s.hhdm = some off)
    (h0 : entryAt s.ram n i = 0) :
    ∃ s', (nextTableOrCreate (entryPtr (n + off) i)).exec s = .ok (.error .outOfFrames, s') ∧ PageTables s' [] ∧
      s'.frameAllocator.initialized = true ∧ SameMap s s' ∧
      ∀ p, p.length ≤ 3 → s'.table p = s.table p ∧ ∀ i, s'.entry p i = s.entry p i := by
  obtain ⟨s', hr, hi, hof, hini⟩ := allocate_nil h.alloc
  obtain ⟨ht, hsame⟩ := h.of_outside hi (fun _ hf => hf) hof
  exact ⟨s', nextTableOrCreate_outOfFrames ho h0 hr, ht, hini,
    sameMap_of_entries hof.boot fun p i hp => (hsame p hp).2 i, hsame⟩

/-- With a free frame, an empty table is put into an absent entry; the map stays as it is. -/
theorem nextTableOrCreate_created (h : PageTables s (f :: rest)) (ho : s.hhdm = some off) (hq : s.table q = some n)
    (hl : q.length < 3) (h0 : entryAt s.ram n i = 0) :
    ∃ s', (nextTableOrCreate (entryPtr (n + off) i)).exec s = .ok (.ok (f + off), s') ∧ PageTables s' rest ∧
      SameMap s s' ∧ ∀ p, p.length ≤ 3 → s'.table p = (if p = q ++ [i] then some f else s.table p) ∧
        ∀ j, s'.entry p j =
          if p = q ++ [i] then some 0 else if p = q ∧ j = i then some (tableEntry f) else s.entry p j := by
  obtain ⟨s₁, hr, hi, hof, hz, -⟩ := allocate_cons h.alloc
  obtain ⟨ht₁, hsame⟩ := h.of_outside hi (fun _ hg => List.mem_cons_of_mem _ hg) hof
  have hf := List.nodup_cons.1 h.alloc.nodup
  have ha := h.alloc.aligned f List.mem_cons_self
  have hb := h.phys f List.mem_cons_self
  have ho₁ : s₁.hhdm = some off := hof.boot.hhdm.trans ho
  have he : s₁.entry q i = some 0 := by
    rw [(hsame q (by omega)).2, Mem.entry_of_table hq, h0]
  -- the entry that is written points to the new table
  obtain ⟨w, hw, hpr, htf⟩ : ∃ w, tableEntry f = w ∧ Present w ∧ tableOf w = some f :=
    ⟨_, rfl, present_or _ _, tableOf_frame ha hb⟩
  obtain ⟨ht₂, hput⟩ := ht₁.putTable ((hsame q (by omega)).1.trans hq) hl he hpr htf
    (fun p hp hpf => h.offFree p f hp ((hsame p hp).1.symm.trans hpf) List.mem_cons_self) hf.1 ha (entryAt_zeroed hz)
  have hcreate : (createTable (entryPtr (n + off) i)).exec s = .ok (.ok (), s₁.setEntry n i w) := by
    unfold createTable
    rw [PageM.exec_get, readEntry ho, h0, if_pos (by decide), allocateFrame, PageM.exec_bind_ok (PageM.exec_lift hr)]
    show Except.ok (Except.ok (), s₁.writeWord _ (tableEntry f)) = _
    rw [writeEntry ho₁, hw]
  obtain ⟨-, hh, hmask⟩ := tableOf_eq_some.1 htf
  refine ⟨_, ?_, ht₂, ?_, fun p hp => ⟨?_, fun j => ?_⟩⟩
  · rw [nextTableOrCreate_ok ho (by rw [h0]; exact not_huge_zero) hcreate ho₁]
    have : entryAt (s₁.setEntry n i w).ram n i = w := entryAt_setWord ..
    rw [this, hmask]
  · exact (sameMap_of_entries hof.boot fun p j hp => (hsame p hp).2 j).trans
      (sameMap_putTable ⟨rfl, rfl, rfl⟩ hl he hh fun p hp => (hput p hp).2)
  · rw [(hput p hp).1, (hsame p hp).1]
  · rw [(hput p hp).2, (hsame p hp).2, hw]

end OneLevel

/-! ## All levels down -/

/-- The chain of `next_table_or_create` calls of `map_page`. -/
def createPath : Nat → List (Fin 512) → PageM Nat
  | table, [] => pure table
  | table, i :: p => do createPath (← nextTableOrCreate (entryPtr table i)) p

/-- From the table at `q` down through the entries `p`: a huge page stops the walk with nothing
changed; else the missing tables are created as far as there are frames for them, and the map stays
as it is in any case. -/
theorem createPath_spec {off : Nat} : ∀ (p : List (Fin 512)) {q : List (Fin 512)} {s : Mem} {free : List Nat} {n : Nat},
    PageTables s free → s.hhdm = some off → s.table q = some n → q.length + p.length ≤ 3 →
    (s.HugeBelow q p ∧ (createPath (n + off) p).exec s = .ok (.error .hugePageInPath, s)) ∨
    (¬ s.HugeBelow q p ∧ ∃ s', SameMap s s' ∧ (s.missingBelow q p = 0 → s' = s) ∧
      Grown s s' (q ++ p) ((q ++ p).length - s.missingBelow q p) (free.take (s.missingBelow q p)) ∧
      ((s.missingBelow q p ≤ free.length ∧ PageTables s' (free.drop (s.missingBelow q p)) ∧
          ∃ t, s'.table (q ++ p) = some t ∧ (createPath (n + off) p).exec s = .ok (.ok (t + off), s')) ∨
        (free.length < s.missingBelow q p ∧ PageTables s' [] ∧ s'.frameAllocator.initialized = true ∧
          (createPath (n + off) p).exec s = .ok (.error .outOfFrames, s'))))
  | [], q, s, free, n, h, ho, hq, hl => by
    refine .inr ⟨Mem.not_hugeBelow_nil s q, s, SameMap.refl s, fun _ => rfl, ?_, .inl ⟨Nat.zero_le _, h, n, ?_, rfl⟩⟩
    · exact grown_nil (Nat.sub_le _ _) fun p hp => ⟨rfl, fun i => rfl⟩
    rw [List.append_nil, hq]
  | i :: p, q, s, free, n, h, ho, hq, hl => by
    rw [List.length_cons] at hl
    have hent := Mem.entry_of_table hq i
    rw [Mem.hugeBelow_of_table hq, createPath]
    by_cases hp : Present (entryAt s.ram n i)
    · by_cases hh : Huge (entryAt s.ram n i)
      · -- a huge page at this level
        exact .inl ⟨.inl ⟨hp, hh⟩, PageM.exec_bind_error (nextTableOrCreate_huge ho hh) _⟩
      · -- the table is there: go on from it
        have hc : s.table (q ++ [i]) = some (entryAt s.ram n i &&& ADDR_MASK).toNat := by
          rw [Mem.table_snoc, hent]
          exact tableOf_eq_some.2 ⟨hp, hh, rfl⟩
        rw [PageM.exec_bind_ok (nextTableOrCreate_ok ho hh (createTable_present ho hp) ho), Mem.missingBelow_some hc,
          List.append_cons q i p]
        have ih := createPath_spec p h ho hc (by simp; omega)
        simp only [hh, and_false, false_or]
        exact ih
    · -- the entry is absent: a fresh table, if there is a frame
      have h0 := h.zero q i _ (by omega) hent hp
      obtain ⟨hno, hmiss⟩ := Mem.below_zero (hent.trans (congrArg some h0)) p
      rw [Mem.hugeBelow_of_table hq] at hno
      rw [hmiss]
      cases free with
      | nil =>
        obtain ⟨s', hr, ht, hini, hm, hsame⟩ := nextTableOrCreate_exhausted (i := i) h ho h0
        refine .inr ⟨hno, s', hm, fun hc => absurd hc (Nat.succ_ne_zero _), ?_,
          .inr ⟨Nat.succ_pos _, ht, hini, PageM.exec_bind_error hr _⟩⟩
        rw [List.take_nil]
        exact grown_nil (Nat.sub_le _ _) hsame
      | cons f rest =>
        obtain ⟨s', hr, ht, hm, hput⟩ := nextTableOrCreate_created h ho hq (by omega) h0
        have hq1 : (q ++ [i]).length ≤ 3 := by
          rw [List.length_append, List.length_singleton]
          omega
        have htab : s'.table (q ++ [i]) = some f := by rw [(hput _ hq1).1, if_pos rfl]
        have hz : ∀ j, s'.entry (q ++ [i]) j = some 0 := fun j => by rw [(hput _ hq1).2, if_pos rfl]
        have hnone : s.table (q ++ [i]) = none := by
          rw [Mem.table_snoc, hent, h0]
          rfl
        obtain ⟨hno', hmiss'⟩ := Mem.below_empty hz p
        rw [PageM.exec_bind_ok hr, List.append_cons q i p]
        have ih := createPath_spec p ht (hm.boot.hhdm.trans ho) htab (by simp; omega)
        rw [hmiss'] at ih
        obtain ⟨hb, -⟩ | ⟨-, s'', hm', -, hg, hout⟩ := ih
        · exact absurd hb hno'
        · refine .inr ⟨hno, s'', hm.trans hm', fun hc => absurd hc (Nat.succ_ne_zero _), ?_, ?_⟩
          · have hd : (q ++ [i] ++ p).length - (p.length + 1) = q.length := by simp
            have hd' : (q ++ [i] ++ p).length - p.length = q.length + 1 := by simp; omega
            rw [hd'] at hg
            rw [hd, List.take_succ_cons]
            exact (grown_single (List.prefix_append _ _) hnone hput (by omega)).trans hg (by simp; omega)
          simp only [List.length_cons, List.drop_succ_cons, Nat.add_le_add_iff_right, Nat.add_lt_add_iff_right]
          exact hout

/-! ## All levels down, reading only -/

/-- The chain of `next_table_existing` calls of `unmap_page` and `translate`. -/
def readPath : Nat → List (Fin 512) → PageM Nat
  | table, [] => pure table
  | table, i :: p => do readPath (← nextTableExisting ((← get).readWord (entryPtr table i))) p

theorem nextTableExisting_absent {e : BitVec 64} {s : Mem} (hp : ¬ Present e) :
    (nextTableExisting e).exec s = .ok (.error .notMapped, s) := by
  unfold Present at hp
  unfold nextTableExisting
  rw [if_pos (not_not.1 hp)]
  rfl

theorem nextTableExisting_huge {e : BitVec 64} {s : Mem} (hp : Present e) (hh : Huge e) :
    (nextTableExisting e).exec s = .ok (.error .hugePageInPath, s) := by
  unfold Present at hp
  unfold Huge at hh
  unfold nextTableExisting
  rw [if_neg hp, if_pos hh]
  rfl

theorem nextTableExisting_ok {e : BitVec 64} {s : Mem} {off : Nat} (ho : s.hhdm = some off) (hp : Present e)
    (hh : ¬ Huge e) : (nextTableExisting e).exec s = .ok (.ok ((e &&& ADDR_MASK).toNat + off), s) := by
  unfold Present at hp
  unfold Huge at hh
  unfold nextTableExisting
  rw [if_neg hp, if_neg hh]
  exact tableVirt_ok ho _

theorem readPath_cons {s : Mem} {off n : Nat} (ho : s.hhdm = some off) (i : Fin 512) (p : List (Fin 512)) :
    (readPath (n + off) (i :: p)).exec s =
      (nextTableExisting (entryAt s.ram n i) >>= fun t => readPath t p).exec s := by
  rw [readPath, PageM.exec_get, readEntry ho]

/-- What the way down finds: a huge page, the table, or an absent entry. -/
theorem readPath_spec {s : Mem} {off : Nat} (ho : s.hhdm = some off) : ∀ (p : List (Fin 512)) {q : List (Fin 512)}
    {n : Nat}, s.table q = some n →
    (s.HugeBelow q p ∧ (readPath (n + off) p).exec s = .ok (.error .hugePageInPath, s)) ∨
    (∃ t, s.table (q ++ p) = some t ∧ (readPath (n + off) p).exec s = .ok (.ok (t + off), s)) ∨
    (¬ s.HugeBelow q p ∧ s.table (q ++ p) = none ∧ (readPath (n + off) p).exec s = .ok (.error .notMapped, s))
  | [], q, n, hq => by
    refine .inr (.inl ⟨n, ?_, rfl⟩)
    rw [List.append_nil, hq]
  | i :: p, q, n, hq => by
    have hent := Mem.entry_of_table hq i
    rw [Mem.hugeBelow_of_table hq, readPath_cons ho, List.append_cons q i p]
    by_cases hp : Present (entryAt s.ram n i)
    · by_cases hh : Huge (entryAt s.ram n i)
      · exact .inl ⟨.inl ⟨hp, hh⟩, PageM.exec_bind_error (nextTableExisting_huge hp hh) _⟩
      · have hc : s.table (q ++ [i]) = some (entryAt s.ram n i &&& ADDR_MASK).toNat := by
          rw [Mem.table_snoc, hent]
          exact tableOf_eq_some.2 ⟨hp, hh, rfl⟩
        rw [PageM.exec_bind_ok (nextTableExisting_ok ho hp hh)]
        simp only [hh, and_false, false_or]
        exact readPath_spec ho p hc
    · have hc : s.table (q ++ [i]) = none := by
        rw [Mem.table_snoc, hent, Option.bind_some]
        exact Option.eq_none_iff_forall_ne_some.2 fun t ht => hp (tableOf_eq_some.1 ht).1
      simp only [hp, false_and, false_or]
      exact .inr (.inr ⟨Mem.not_hugeBelow_none hc p, Mem.table_append_none hc p,
        PageM.exec_bind_error (nextTableExisting_absent hp) _⟩)

/-! ## The calls -/

theorem tableIndices_pageBase (v : BitVec 64) :
    tableIndices (pageBase v) = (tableIndex v 39, tableIndex v 30, tableIndex v 21, tableIndex v 12) := by
  obtain ⟨hp, hi⟩ := (Mem.pageNumber_eq_iff (pageBase v) v).1 (Mem.pageNumber_pageBase v)
  unfold Mem.tablePath at hp
  unfold tableIndices
  simp only [List.cons.injEq, and_true] at hp
  rw [hp.1, hp.2.1, hp.2.2, hi]

/-- The end of `map_page`: write the leaf entry unless it is present. -/
def mapLeaf (pte : Nat) (w : BitVec 64) : PageM Unit := do
  if (← get).readWord pte &&& flags.PRESENT ≠ 0 then
    throw .alreadyMapped
  else
    modify fun s => s.writeWord pte w

/-- `map_page` goes down the path of `v` and writes the leaf entry. -/
theorem mapPage_eq (v p fl : BitVec 64) : mapPage v p fl = (do
    let pt ← createPath (← pml4Virt) (Mem.tablePath v)
    mapLeaf (entryPtr pt (tableIndex v 12)) (pageBase p ||| flags.PRESENT ||| fl)) := by
  unfold mapPage Mem.tablePath
  simp only [tableIndices_pageBase, createPath, bind_assoc, pure_bind]
  rfl

theorem unmapPage_eq (v : BitVec 64) : unmapPage v = (do
    let pt ← readPath (← pml4Virt) (Mem.tablePath v)
    if (← get).readWord (entryPtr pt (tableIndex v 12)) &&& flags.PRESENT = 0 then
      throw .notMapped
    else
      let phys := (← get).readWord (entryPtr pt (tableIndex v 12)) &&& ADDR_MASK
      modify fun s => s.writeWord (entryPtr pt (tableIndex v 12)) 0
      pure phys) := by
  unfold unmapPage Mem.tablePath
  simp only [tableIndices_pageBase, readPath, bind_assoc, pure_bind]

theorem translate_eq (v : BitVec 64) : translate v = (do
    let pt ← readPath (← pml4Virt) (Mem.tablePath v)
    let pte := (← get).readWord (entryPtr pt (tableIndex v 12))
    if pte &&& flags.PRESENT = 0 then
      throw .notMapped
    else
      pure ((pte &&& ADDR_MASK) + pageOffset v)) := by
  unfold translate Mem.tablePath
  simp only [tableIndices_pageBase, readPath, bind_assoc, pure_bind]

/-- What `map_page(v, p, fl)` promises: it succeeds exactly when `v` is unmapped, no huge page is in
the way and there are frames for the missing tables; it then maps the page of `v`, and else the map
stays as it is. -/
structure MapSpec (s : Mem) (free : List Nat) (v p fl : BitVec 64) (r : Except PagingError Unit) (s' : Mem) : Prop where
  ok_iff : r = .ok () ↔ s.abs v = none ∧ ¬ s.HugeOnPath v ∧ s.missingTables v ≤ free.length
  mapped : r = .ok () → ∀ u, s'.abs u =
    if Mem.pageNumber u = Mem.pageNumber v then some (pageBase p, fl ||| flags.PRESENT) else s.abs u
  failed : r ≠ .ok () → ∀ u, s'.abs u = s.abs u
  already_iff : r = .error .alreadyMapped ↔ s.abs v ≠ none
  huge_iff : r = .error .hugePageInPath ↔ s.HugeOnPath v
  huge : ∀ u, s'.HugeOnPath u ↔ s.HugeOnPath u

/-- What `unmap_page(v)` promises: it returns the frame of `v` and removes this mapping only, or
fails and changes nothing. -/
structure UnmapSpec (s : Mem) (v : BitVec 64) (r : Except PagingError (BitVec 64)) (s' : Mem) : Prop where
  ok_iff : ∀ q, r = .ok q ↔ (∃ fl, s.abs v = some (q, fl)) ∧ ¬ s.HugeOnPath v
  unmapped : ∀ q, r = .ok q → ∀ u, s'.abs u = if Mem.pageNumber u = Mem.pageNumber v then none else s.abs u
  failed : ∀ e, r = .error e → s' = s
  huge_iff : r = .error .hugePageInPath ↔ s.HugeOnPath v
  huge : ∀ u, s'.HugeOnPath u ↔ s.HugeOnPath u

/-- What `translate(v)` promises: the frame of `v` plus the offset in the page, read only. -/
structure TranslateSpec (s : Mem) (v : BitVec 64) (r : Except PagingError (BitVec 64)) (s' : Mem) : Prop where
  ok_iff : ∀ a, r = .ok a ↔ ∃ q fl, s.abs v = some (q, fl) ∧ a = q + pageOffset v
  huge_iff : r = .error .hugePageInPath ↔ s.HugeOnPath v
  unchanged : s' = s

section Calls

variable {s : Mem} {free : List Nat} {v p fl : BitVec 64}

theorem abs_of_table {t : Nat} (h : s.table (Mem.tablePath v) = some t) :
    s.abs v = leafOf (entryAt s.ram t (tableIndex v 12)) := by
  unfold Mem.abs Mem.entry
  rw [h]
  rfl

theorem not_hugeOnPath_of_table {t : Nat} (h : s.table (Mem.tablePath v) = some t) : ¬ s.HugeOnPath v :=
  (Mem.below_table (q := []) h).1

/-- A mapped address has no huge page on its path, and no table is missing. -/
theorem table_of_abs {x : BitVec 64 × BitVec 64} (h : s.abs v = some x) : ∃ t, s.table (Mem.tablePath v) = some t := by
  unfold Mem.abs Mem.entry at h
  cases ht : s.table (Mem.tablePath v) with
  | none => rw [ht] at h; cases h
  | some t => exact ⟨t, rfl⟩

/-- Writing a leaf entry maps or unmaps one page. -/
theorem setLeaf_abs (h : PageTables s free) {t : Nat} (ht : s.table (Mem.tablePath v) = some t) {w : BitVec 64}
    (hw : ¬ Present w → w = 0) :
    PageTables (s.setEntry t (tableIndex v 12) w) free ∧
      (∀ u, (s.setEntry t (tableIndex v 12) w).abs u =
        if Mem.pageNumber u = Mem.pageNumber v then leafOf w else s.abs u) ∧
      ∀ u, (s.setEntry t (tableIndex v 12) w).HugeOnPath u ↔ s.HugeOnPath u := by
  obtain ⟨h1, h2⟩ := h.setLeaf (i := tableIndex v 12) ht rfl hw
  refine ⟨h1, fun u => ?_, hugeOnPath_congr fun p i hp => ?_⟩
  · unfold Mem.abs
    rw [(h2 (Mem.tablePath u) (Nat.le_refl 3)).2]
    simp only [Mem.pageNumber_eq_iff]
    split <;> rfl
  · rw [(h2 p (by omega)).2, if_neg fun hc => by rw [hc.1] at hp; exact absurd hp (Nat.lt_irrefl 3)]

theorem leafOf_present {e : BitVec 64} (h : Present e) : leafOf e = some (e &&& ADDR_MASK, e &&& ~~~ADDR_MASK) :=
  if_pos h

theorem leafOf_absent {e : BitVec 64} (h : ¬ Present e) : leafOf e = none := if_neg h

/-- A huge page on the path: `map_page` and the read-only walk fail, and nothing is mapped there. -/
theorem abs_of_huge (h : s.HugeOnPath v) : s.abs v = none := by
  cases ha : s.abs v with
  | none => rfl
  | some x =>
    obtain ⟨t, ht⟩ := table_of_abs ha
    exact absurd h (not_hugeOnPath_of_table ht)

/-- The end of `map_page`, from the leaf table on. -/
theorem mapLeaf_run {off t : Nat} {w : BitVec 64} (ho : s.hhdm = some off) (ht : s.table (Mem.tablePath v) = some t) :
    (s.abs v ≠ none ∧ (mapLeaf (entryPtr (t + off) (tableIndex v 12)) w).exec s = .ok (.error .alreadyMapped, s)) ∨
    (s.abs v = none ∧ (mapLeaf (entryPtr (t + off) (tableIndex v 12)) w).exec s =
      .ok (.ok (), s.setEntry t (tableIndex v 12) w)) := by
  unfold mapLeaf
  rw [PageM.exec_get, readEntry ho, abs_of_table ht]
  by_cases hpr : Present (entryAt s.ram t (tableIndex v 12))
  · rw [leafOf_present hpr]
    unfold Present at hpr
    rw [if_pos hpr]
    exact .inl ⟨by simp, rfl⟩
  · rw [leafOf_absent hpr]
    unfold Present at hpr
    rw [if_neg hpr, PageM.exec_modify, writeEntry ho]
    exact .inr ⟨rfl, rfl⟩

/-- The ways in which `map_page` can end, writing the leaf entry `w` of `v`: a huge page in the way and
a page that is mapped leave the state as it is; the other two ways create tables. -/
inductive MapRun (s : Mem) (free : List Nat) (v w : BitVec 64) : Except PagingError Unit → Mem → List Nat → Prop
  | huge (hh : s.HugeOnPath v) : MapRun s free v w (.error .hugePageInPath) s free
  | already (hh : ¬ s.HugeOnPath v) (ha : s.abs v ≠ none) : MapRun s free v w (.error .alreadyMapped) s free
  | exhausted {s' : Mem} (hh : ¬ s.HugeOnPath v) (ha : s.abs v = none) (hlen : free.length < s.missingTables v)
      (hi : s'.frameAllocator.initialized = true) (hm : SameMap s s')
      (hg : Grown s s' (Mem.tablePath v) (3 - s.missingTables v) free) :
      MapRun s free v w (.error .outOfFrames) s' []
  | mapped {s₁ : Mem} {t : Nat} (hh : ¬ s.HugeOnPath v) (ha : s.abs v = none) (hlen : s.missingTables v ≤ free.length)
      (hm : SameMap s s₁) (h₁ : PageTables s₁ (free.drop (s.missingTables v)))
      (hg : Grown s s₁ (Mem.tablePath v) (3 - s.missingTables v) (free.take (s.missingTables v)))
      (ht : s₁.table (Mem.tablePath v) = some t) :
      MapRun s free v w (.ok ()) (s₁.setEntry t (tableIndex v 12) w) (free.drop (s.missingTables v))

theorem mapPage_run (h : PageTables s free) (v p fl : BitVec 64) :
    ∃ r s' free', (mapPage v p fl).exec s = .ok (r, s') ∧ PageTables s' free' ∧
      MapRun s free v (pageBase p ||| flags.PRESENT ||| fl) r s' free' := by
  obtain ⟨off, ho⟩ := Option.isSome_iff_exists.1 h.alloc.hhdm
  rw [mapPage_eq, PageM.exec_bind_ok (pml4Virt_ok ho)]
  obtain ⟨hb, hr⟩ | ⟨hb, s₁, hm, hsame, hg, ⟨hlen, ht₁, t, ht, hr⟩ | ⟨hlen, ht₁, hini, hr⟩⟩ :=
    createPath_spec (Mem.tablePath v) (q := []) h ho (Mem.table_nil s) (Nat.le_refl 3)
  · -- a huge page
    exact ⟨_, s, free, PageM.exec_bind_error hr _, h, .huge hb⟩
  · -- the leaf table is there
    rw [PageM.exec_bind_ok hr]
    obtain ⟨ha, hx⟩ | ⟨ha, hx⟩ :=
      mapLeaf_run (v := v) (w := pageBase p ||| flags.PRESENT ||| fl) (hm.boot.hhdm.trans ho) ht
    · rw [hm.abs] at ha
      obtain ⟨x, hx'⟩ := Option.ne_none_iff_exists'.1 ha
      obtain ⟨t', ht'⟩ := table_of_abs hx'
      have hs : s₁ = s := hsame (Mem.below_table (q := []) ht').2
      rw [hs] at hx ⊢
      exact ⟨_, s, free, hx, h, .already hb ha⟩
    · rw [hm.abs] at ha
      have hw := (setLeaf_abs ht₁ ht (w := pageBase p ||| flags.PRESENT ||| fl) fun hn => absurd (present_or _ _) hn).1
      exact ⟨_, _, _, hx, hw, .mapped hb ha hlen hm ht₁ hg ht⟩
  · -- no frame for a missing table
    have hlen' : free.length < s.missingTables v := hlen
    have ha : s.abs v = none := by
      cases ha : s.abs v with
      | none => rfl
      | some x =>
        obtain ⟨t, ht⟩ := table_of_abs ha
        have : s.missingTables v = 0 := (Mem.below_table (q := []) ht).2
        omega
    have hg' : Grown s s₁ (Mem.tablePath v) (3 - s.missingTables v) free := by
      have htake : free.take (s.missingTables v) = free := List.take_of_length_le (Nat.le_of_lt hlen')
      rw [← htake]
      exact hg
    exact ⟨_, s₁, [], PageM.exec_bind_error hr _, ht₁, .exhausted hb ha hlen' hini hm hg'⟩

theorem MapRun.boot {w : BitVec 64} {r : Except PagingError Unit} {s' : Mem} {free' : List Nat}
    (hr : MapRun s free v w r s' free') : s.SameBoot s' := by
  cases hr with
  | huge => exact Mem.SameBoot.refl s
  | already => exact Mem.SameBoot.refl s
  | exhausted _ _ _ _ hm _ => exact hm.boot
  | mapped _ _ _ hm _ _ _ => exact ⟨hm.boot.hhdm, hm.boot.memoryMap, hm.boot.cr3⟩

theorem MapRun.spec {r : Except PagingError Unit} {s' : Mem} {free' : List Nat}
    (hr : MapRun s free v (pageBase p ||| flags.PRESENT ||| fl) r s' free') (hp : p.toNat < 2 ^ 52)
    (hf : fl &&& ADDR_MASK = 0#64) : MapSpec s free v p fl r s' := by
  cases hr with
  | huge hh =>
    refine ⟨?_, by simp, fun _ _ => rfl, ?_, ?_, fun _ => Iff.rfl⟩
    · simp [hh]
    · simp [abs_of_huge hh]
    · simp [hh]
  | already hh ha =>
    refine ⟨?_, by simp, fun _ _ => rfl, ?_, ?_, fun _ => Iff.rfl⟩
    · simp [ha]
    · simp [ha]
    · simp [hh]
  | exhausted hh ha hlen hi hm hg =>
    have hlen' : ¬ s.missingTables v ≤ free.length := Nat.not_le.2 hlen
    refine ⟨?_, by simp, fun _ => hm.abs, ?_, ?_, hm.huge⟩
    · simp [hlen']
    · simp [ha]
    · simp [hh]
  -- the leaf entry is written with the address and the flags apart, as neither reaches into the other
  | mapped hh ha hlen hm h₁ hg ht =>
    have hbase : leafOf (pageBase p ||| flags.PRESENT ||| fl) = some (pageBase p, fl ||| flags.PRESENT) := by
      have := Mem.pageBase_toNat p
      exact leafOf_mapped ⟨_, by rw [this, Nat.mul_comm]⟩ (by omega) hf
    obtain ⟨-, habs, hhuge⟩ := setLeaf_abs h₁ ht (w := pageBase p ||| flags.PRESENT ||| fl)
      fun hn => absurd (present_or _ _) hn
    rw [hbase] at habs
    simp only [hm.abs] at habs
    refine ⟨?_, fun _ => habs, by simp, ?_, ?_, fun u => (hhuge u).trans (hm.huge u)⟩
    · simp [ha, hh, hlen]
    · simp [ha]
    · simp [hh]

theorem mapPage_spec (h : PageTables s free) (hp : p.toNat < 2 ^ 52) (hf : fl &&& ADDR_MASK = 0#64) :
    ∃ r s' free', (mapPage v p fl).exec s = .ok (r, s') ∧ PageTables s' free' ∧ MapSpec s free v p fl r s' := by
  obtain ⟨r, s', free', hx, h', hr⟩ := mapPage_run h v p fl
  exact ⟨r, s', free', hx, h', hr.spec hp hf⟩

/-- The way down to the leaf table of `v`, reading only. -/
theorem readLeaf_spec {off : Nat} (ho : s.hhdm = some off) :
    (s.HugeOnPath v ∧ (readPath (s.root + off) (Mem.tablePath v)).exec s = .ok (.error .hugePageInPath, s)) ∨
    (¬ s.HugeOnPath v ∧ ∃ t, s.table (Mem.tablePath v) = some t ∧
      (readPath (s.root + off) (Mem.tablePath v)).exec s = .ok (.ok (t + off), s)) ∨
    (¬ s.HugeOnPath v ∧ s.abs v = none ∧
      (readPath (s.root + off) (Mem.tablePath v)).exec s = .ok (.error .notMapped, s)) := by
  obtain ⟨hb, hr⟩ | ⟨t, ht, hr⟩ | ⟨hb, ht, hr⟩ := readPath_spec ho (Mem.tablePath v) (q := []) (Mem.table_nil s)
  · exact .inl ⟨hb, hr⟩
  · exact .inr (.inl ⟨not_hugeOnPath_of_table ht, t, ht, hr⟩)
  · refine .inr (.inr ⟨hb, ?_, hr⟩)
    unfold Mem.abs Mem.entry
    rw [List.nil_append] at ht
    rw [ht]
    rfl

/-- The way down to the entry of `v`, and then `k` on it if it is present. -/
theorem entry_cases {α : Type} {off : Nat} (ho : s.hhdm = some off) (v : BitVec 64) (k : Nat → BitVec 64 → PageM α) :
    let prog : PageM α := do
      let pt ← readPath (s.root + off) (Mem.tablePath v)
      let s ← get
      if s.readWord (entryPtr pt (tableIndex v 12)) &&& flags.PRESENT = 0 then
        throw .notMapped
      else
        k pt (s.readWord (entryPtr pt (tableIndex v 12)))
    (s.HugeOnPath v ∧ prog.exec s = .ok (.error .hugePageInPath, s)) ∨
    (¬ s.HugeOnPath v ∧ ∃ t e, s.table (Mem.tablePath v) = some t ∧ e = entryAt s.ram t (tableIndex v 12) ∧
      s.abs v = some (e &&& ADDR_MASK, e &&& ~~~ADDR_MASK) ∧ prog.exec s = (k (t + off) e).exec s) ∨
    (¬ s.HugeOnPath v ∧ s.abs v = none ∧ prog.exec s = .ok (.error .notMapped, s)) := by
  intro prog
  obtain ⟨hh, hr⟩ | ⟨hh, t, ht, hr⟩ | ⟨hh, habs, hr⟩ := readLeaf_spec (v := v) ho
  · exact .inl ⟨hh, PageM.exec_bind_error hr _⟩
  · have habs := abs_of_table ht
    have hprog : prog.exec s = _ := PageM.exec_bind_ok hr _
    rw [PageM.exec_get, readEntry ho] at hprog
    by_cases hpr : Present (entryAt s.ram t (tableIndex v 12))
    · rw [leafOf_present hpr] at habs
      rw [if_neg hpr] at hprog
      exact .inr (.inl ⟨hh, t, _, ht, rfl, habs, hprog⟩)
    · rw [leafOf_absent hpr] at habs
      rw [if_pos (not_not.1 hpr)] at hprog
      exact .inr (.inr ⟨hh, habs, hprog⟩)
  · exact .inr (.inr ⟨hh, habs, PageM.exec_bind_error hr _⟩)

/-- The ways in which `unmap_page` can end. -/
theorem unmapPage_run (h : PageTables s free) (v : BitVec 64) :
    (s.HugeOnPath v ∧ (unmapPage v).exec s = .ok (.error .hugePageInPath, s)) ∨
    (∃ t q fl, s.table (Mem.tablePath v) = some t ∧ s.abs v = some (q, fl) ∧
      (unmapPage v).exec s = .ok (.ok q, s.setEntry t (tableIndex v 12) 0)) ∨
    (¬ s.HugeOnPath v ∧ s.abs v = none ∧ (unmapPage v).exec s = .ok (.error .notMapped, s)) := by
  obtain ⟨off, ho⟩ := Option.isSome_iff_exists.1 h.alloc.hhdm
  rw [unmapPage_eq, PageM.exec_bind_ok (pml4Virt_ok ho)]
  obtain hhuge | ⟨-, t, e, ht, he, habs, hr⟩ | hnone := entry_cases ho v fun pt _ => do
    let phys := (← get).readWord (entryPtr pt (tableIndex v 12)) &&& ADDR_MASK
    modify fun s => s.writeWord (entryPtr pt (tableIndex v 12)) 0
    pure phys
  · exact .inl hhuge
  · refine .inr (.inl ⟨t, _, _, ht, habs, hr.trans ?_⟩)
    rw [PageM.exec_get, readEntry ho, ← he, ← writeEntry ho]
    rfl
  · exact .inr (.inr hnone)

theorem unmapPage_spec (h : PageTables s free) :
    ∃ r s', (unmapPage v).exec s = .ok (r, s') ∧ PageTables s' free ∧ UnmapSpec s v r s' := by
  obtain ⟨hh, hr⟩ | ⟨t, q, fl, ht, habs, hr⟩ | ⟨hh, habs, hr⟩ := unmapPage_run h v
  · refine ⟨_, s, hr, h, ⟨?_, by simp, fun _ _ => rfl, ?_, fun _ => Iff.rfl⟩⟩
    · simp [abs_of_huge hh]
    · simp [hh]
  · have hh := not_hugeOnPath_of_table ht
    obtain ⟨h1, h2, h3⟩ := setLeaf_abs h ht (w := 0#64) fun _ => rfl
    refine ⟨_, _, hr, h1, ⟨?_, fun _ _ => h2, by simp, ?_, h3⟩⟩
    · simp [habs, hh]
    · simp [hh]
  · refine ⟨_, s, hr, h, ⟨?_, by simp, fun _ _ => rfl, ?_, fun _ => Iff.rfl⟩⟩
    · simp [habs]
    · simp [hh]

/-- The ways in which `translate` can end. -/
theorem translate_run (h : PageTables s free) (v : BitVec 64) :
    (s.HugeOnPath v ∧ (translate v).exec s = .ok (.error .hugePageInPath, s)) ∨
    (¬ s.HugeOnPath v ∧ ∃ q fl, s.abs v = some (q, fl) ∧ (translate v).exec s = .ok (.ok (q + pageOffset v), s)) ∨
    (¬ s.HugeOnPath v ∧ s.abs v = none ∧ (translate v).exec s = .ok (.error .notMapped, s)) := by
  obtain ⟨off, ho⟩ := Option.isSome_iff_exists.1 h.alloc.hhdm
  rw [translate_eq, PageM.exec_bind_ok (pml4Virt_ok ho)]
  obtain hhuge | ⟨hh, t, e, -, -, habs, hr⟩ | hnone :=
    entry_cases ho v fun _ e => pure ((e &&& ADDR_MASK) + pageOffset v)
  · exact .inl hhuge
  · exact .inr (.inl ⟨hh, _, _, habs, hr⟩)
  · exact .inr (.inr hnone)

/-- The address of a mapped page is translated to its frame. -/
theorem translate_of_abs (h : PageTables s free) {q : BitVec 64} (ha : s.abs v = some (q, fl)) :
    (translate v).exec s = .ok (.ok (q + pageOffset v), s) := by
  obtain ⟨hh, -⟩ | ⟨-, q', fl', ha', hr⟩ | ⟨-, ha', -⟩ := translate_run h v
  · rw [abs_of_huge hh] at ha
    cases ha
  · rw [ha] at ha'
    cases ha'
    exact hr
  · rw [ha] at ha'
    cases ha'

/-- The address of an unmapped page is not translated. -/
theorem translate_of_abs_none (h : PageTables s free) (ha : s.abs v = none) :
    ∃ e, (translate v).exec s = .ok (.error e, s) := by
  obtain ⟨-, hr⟩ | ⟨-, q', fl', ha', -⟩ | ⟨-, -, hr⟩ := translate_run h v
  · exact ⟨_, hr⟩
  · rw [ha] at ha'
    cases ha'
  · exact ⟨_, hr⟩

/-- The frame and the huge pages on the way decide what `translate` returns. -/
theorem translate_congr {s' : Mem} {free' : List Nat} (h : PageTables s free) (h' : PageTables s' free')
    (ha : s'.abs v = s.abs v) (hh : s'.HugeOnPath v ↔ s.HugeOnPath v) :
    ∃ r, (translate v).exec s = .ok (r, s) ∧ (translate v).exec s' = .ok (r, s') := by
  have hcases := translate_run h' v
  rw [hh, ha] at hcases
  obtain ⟨hh, hr⟩ | ⟨hh, q, fl, habs, hr⟩ | ⟨hh, habs, hr⟩ := translate_run h v
  · obtain ⟨-, hr'⟩ | ⟨hh', -⟩ | ⟨hh', -⟩ := hcases
    · exact ⟨_, hr, hr'⟩
    · exact absurd hh hh'
    · exact absurd hh hh'
  · obtain ⟨hh', -⟩ | ⟨-, q', fl', habs', hr'⟩ | ⟨-, habs', -⟩ := hcases
    · exact absurd hh' hh
    · rw [habs] at habs'
      cases habs'
      exact ⟨_, hr, hr'⟩
    · rw [habs] at habs'
      cases habs'
  · obtain ⟨hh', -⟩ | ⟨-, q', fl', habs', -⟩ | ⟨-, -, hr'⟩ := hcases
    · exact absurd hh' hh
    · rw [habs] at habs'
      cases habs'
    · exact ⟨_, hr, hr'⟩

theorem translate_spec (h : PageTables s free) :
    ∃ r s', (translate v).exec s = .ok (r, s') ∧ PageTables s' free ∧ TranslateSpec s v r s' := by
  obtain ⟨hh, hr⟩ | ⟨hh, q, fl, habs, hr⟩ | ⟨hh, habs, hr⟩ := translate_run h v
  · refine ⟨_, s, hr, h, ⟨?_, ?_, rfl⟩⟩
    · simp [abs_of_huge hh]
    · simp [hh]
  · refine ⟨_, s, hr, h, ⟨fun a => ?_, ?_, rfl⟩⟩
    · simp [habs, eq_comm]
    · simp [hh]
  · refine ⟨_, s, hr, h, ⟨?_, ?_, rfl⟩⟩
    · simp [habs]
    · simp [hh]

end Calls

/-! ## Runs -/

/-- One call of `map_page` (with a physical address and flags outside the address bits),
`unmap_page` or `translate`, successful or not. -/
inductive PageStep : Mem → Mem → Prop
  | map {s s' : Mem} {v p fl : BitVec 64} {r : Except PagingError Unit} (hp : p.toNat < 2 ^ 52)
      (hf : fl &&& ADDR_MASK = 0#64) (h : (mapPage v p fl).exec s = .ok (r, s')) : PageStep s s'
  | unmap {s s' : Mem} {v : BitVec 64} {r : Except PagingError (BitVec 64)}
      (h : (unmapPage v).exec s = .ok (r, s')) : PageStep s s'
  | translate {s s' : Mem} {v : BitVec 64} {r : Except PagingError (BitVec 64)}
      (h : (translate v).exec s = .ok (r, s')) : PageStep s s'

theorem pageTables_step {s s' : Mem} {free : List Nat} (h : PageTables s free) (hs : PageStep s s') :
    ∃ free', PageTables s' free' := by
  cases hs with
  | @map v p fl _ hp hf hr =>
    obtain ⟨_, _, free', hr', h', -⟩ := mapPage_spec (v := v) h hp hf
    rw [hr] at hr'
    cases hr'
    exact ⟨free', h'⟩
  | @unmap v _ hr =>
    obtain ⟨_, _, hr', h', -⟩ := unmapPage_spec (v := v) h
    rw [hr] at hr'
    cases hr'
    exact ⟨free, h'⟩
  | @translate v _ hr =>
    obtain ⟨_, _, hr', h', -⟩ := translate_spec (v := v) h
    rw [hr] at hr'
    cases hr'
    exact ⟨free, h'⟩

theorem pageTables_run {s₀ s : Mem} {free₀ : List Nat} (h₀ : PageTables s₀ free₀)
    (hr : Relation.ReflTransGen PageStep s₀ s) : ∃ free, PageTables s free := by
  induction hr with
  | refl => exact ⟨free₀, h₀⟩
  | tail _ hs ih =>
    obtain ⟨free, h⟩ := ih
    exact pageTables_step h hs

/-- The page tables refine an abstract map: after any sequence of calls they are well formed, and
every next call returns and does to the map `abs` what its specification says. -/
theorem page_tables_refine {s₀ s : Mem} {free₀ : List Nat} (h₀ : PageTables s₀ free₀)
    (hr : Relation.ReflTransGen PageStep s₀ s) :
    ∃ free, PageTables s free ∧
      (∀ v p fl : BitVec 64, p.toNat < 2 ^ 52 → fl &&& ADDR_MASK = 0#64 →
        ∃ r s', (mapPage v p fl).exec s = .ok (r, s') ∧ MapSpec s free v p fl r s') ∧
      (∀ v : BitVec 64, ∃ r s', (unmapPage v).exec s = .ok (r, s') ∧ UnmapSpec s v r s') ∧
      ∀ v : BitVec 64, ∃ r s', (translate v).exec s = .ok (r, s') ∧ TranslateSpec s v r s' := by
  obtain ⟨free, h⟩ := pageTables_run h₀ hr
  refine ⟨free, h, fun v p fl hp hf => ?_, fun v => ?_, fun v => ?_⟩
  · obtain ⟨r, s', -, hx, -, hs⟩ := mapPage_spec (v := v) h hp hf
    exact ⟨r, s', hx, hs⟩
  · obtain ⟨r, s', hx, -, hs⟩ := unmapPage_spec (v := v) h
    exact ⟨r, s', hx, hs⟩
  · obtain ⟨r, s', hx, -, hs⟩ := translate_spec (v := v) h
    exact ⟨r, s', hx, hs⟩

/-- A machine with four usable frames from 1 MiB on, an empty PML4 and nothing mapped. -/
def emptyTables : Mem where
  ram := fun _ => 0
  hhdm := some 0xffff800000000000
  memoryMap := some [⟨0x100000, 0x4000, .usable⟩]
  frameAllocator := FrameAllocator.new
  cr3 := 0x1000#64

theorem emptyTables_mapOk : emptyTables.MapOk :=
  ⟨by simp [emptyTables], by simp [emptyTables], by simp [emptyTables]⟩

theorem emptyTables_bootOk : emptyTables.BootOk :=
  ⟨emptyTables_mapOk, emptyTables_mapOk.loopFits (by simp [emptyTables])⟩

theorem emptyTables_entry (i : Fin 512) : emptyTables.entry [] i = some 0 :=
  (Mem.entry_of_table (Mem.table_nil _) i).trans (congrArg some (entryAt_zeroed (fun _ _ => rfl) i))

theorem emptyTables_table {p : List (Fin 512)} {t : Nat} (h : emptyTables.table p = some t) : p = [] ∧ t = 0x1000 := by
  cases p with
  | nil => cases h; exact ⟨rfl, rfl⟩
  | cons i p =>
    have hn : emptyTables.table [i] = none := by
      have := Mem.table_snoc emptyTables [] i
      rw [emptyTables_entry] at this
      exact this
    have := Mem.table_append_none hn p
    rw [List.singleton_append, h] at this
    cases this

theorem emptyTables_pageTables : PageTables emptyTables emptyTables.bootFrames.reverse := by
  have hfree : ∀ f ∈ emptyTables.bootFrames.reverse, 0x100000 ≤ f ∧ f + 4096 ≤ 0x104000 := fun f hf => by
    obtain ⟨-, e, he, -, h1, h2⟩ := (Mem.mem_bootFrames emptyTables_bootOk f).1 (List.mem_reverse.1 hf)
    cases List.mem_singleton.1 he
    exact ⟨h1, h2⟩
  refine ⟨freeInv_boot rfl emptyTables_bootOk rfl, fun f hf => ?_, fun p q n _ _ hp hq => ?_, fun p t _ ht hm => ?_,
    fun p i e _ he _ => ?_⟩
  · have := hfree f hf
    omega
  · exact (emptyTables_table hp).1.trans (emptyTables_table hq).1.symm
  · have := hfree t hm
    have := (emptyTables_table ht).2
    omega
  · unfold Mem.entry at he
    cases ht : emptyTables.table p with
    | none => rw [ht] at he; cases he
    | some t =>
      rw [ht] at he
      cases he
      exact entryAt_zeroed (fun _ _ => rfl) i

theorem emptyTables_bootFrames : emptyTables.bootFrames = [0x100000, 0x101000, 0x102000, 0x103000] := by
  show [] ++ (regionFrames (alignUp 0x100000 FRAME_SIZE) 0x104000 ++ []) = _
  rw [List.nil_append, List.append_nil]
  have : alignUp 0x100000 FRAME_SIZE = 0x100000 := by decide
  rw [this, regionFrames, if_pos (by decide), regionFrames, if_pos (by decide), regionFrames, if_pos (by decide),
    regionFrames, if_pos (by decide), regionFrames, if_neg (by decide)]
  rfl

theorem emptyTables_free : PageTables emptyTables [0x103000, 0x102000, 0x101000, 0x100000] := by
  have h := emptyTables_pageTables
  rw [emptyTables_bootFrames] at h
  exact h

/-- Nothing is mapped there, and the PML4 is the only table. -/
theorem emptyTables_unmapped (v : BitVec 64) :
    emptyTables.abs v = none ∧ ¬ emptyTables.HugeOnPath v ∧ emptyTables.missingTables v = 3 := by
  obtain ⟨hh, hm⟩ := Mem.below_zero (emptyTables_entry (tableIndex v 39)) [tableIndex v 30, tableIndex v 21]
  refine ⟨?_, hh, hm⟩
  cases ha : emptyTables.abs v with
  | none => rfl
  | some x =>
    obtain ⟨t, ht⟩ := table_of_abs ha
    exact absurd (emptyTables_table ht).1 (List.cons_ne_nil _ _)

/-- `page_tables_refine` at `emptyTables`: a first page can be mapped, and is then found. -/
theorem page_tables_refine_emptyTables :
    ∃ s', (mapPage 0x400000#64 0xfee00000#64 flags.WRITABLE).exec emptyTables = .ok (.ok (), s') ∧
      s'.abs 0x400000#64 = some (0xfee00000#64, flags.WRITABLE ||| flags.PRESENT) := by
  obtain ⟨free, h, hmap, -, -⟩ := page_tables_refine emptyTables_pageTables .refl
  obtain ⟨-, -, hfree⟩ := h.alloc.pending rfl
  have hlen : free.length = 4 := by rw [hfree, emptyTables_bootFrames]; rfl
  obtain ⟨r, s', hx, hs⟩ := hmap 0x400000#64 0xfee00000#64 flags.WRITABLE (by decide) (by decide)
  obtain ⟨ha, hh, hm⟩ := emptyTables_unmapped 0x400000#64
  have hok : r = .ok () := hs.ok_iff.2 ⟨ha, hh, by rw [hm, hlen]; decide⟩
  rw [hok] at hx
  exact ⟨s', hx, by rw [hs.mapped hok, if_pos rfl]; decide⟩

end Octagram.Memory

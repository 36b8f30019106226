/-
Where every frame is, over runs of all memory functions: free, held by a caller of `allocate_frame`,
or a page table, and never two of these; what a caller holds only this caller writes
(`frames_accounted`). The invariant is `Accounted`. A paging function takes its frames from the head
of the free list and makes them tables, whatever it returns (`Grew`), and an allocation hands them
to its caller (`Gave`); these two are all that a step does to the account (`ledgerStep_accounted`).
-/
import Octagram.Memory.HeapAllocator
import Octagram.Memory.MapErrors
import Octagram.Memory.Mmio

namespace Octagram.Memory

open Octagram.Lib

/-- A frame that is a page table of the tree. -/
def Mem.IsTable (s : Mem) (t : Nat) : Prop := ∃ p, p.length ≤ 3 ∧ s.table p = some t

/-- The tables took the first of the free frames, and nothing but tables and free frames was written. -/
structure Grew (s s' : Mem) (free free' : List Nat) : Prop where
  tables : PageTables s' free'
  boot : s.SameBoot s'
  taken : ∃ taken, free = taken ++ free' ∧ ∀ t, s'.IsTable t ↔ s.IsTable t ∨ t ∈ taken
  ram : ∀ x, (∀ t, s.IsTable t → ¬ InFrame t x) → (∀ f ∈ free, ¬ InFrame f x) → s'.ram x = s.ram x
  init : s.frameAllocator.initialized = true → s'.frameAllocator.initialized = true

section Grew

variable {s s₁ s' : Mem} {free free₁ free' : List Nat}

theorem Grew.refl (h : PageTables s free) : Grew s s free free where
  tables := h
  boot := Mem.SameBoot.refl s
  taken := ⟨[], rfl, by simp⟩
  ram _ _ _ := rfl
  init h := h

theorem Grew.trans (h : Grew s s₁ free free₁) (h' : Grew s₁ s' free₁ free') : Grew s s' free free' := by
  obtain ⟨l, hl, ht⟩ := h.taken
  obtain ⟨l', hl', ht'⟩ := h'.taken
  refine ⟨h'.tables, h.boot.trans h'.boot, ⟨l ++ l', by rw [hl, hl', List.append_assoc], fun t => ?_⟩,
    fun x hx hf => ?_, fun hi => h'.init (h.init hi)⟩
  · rw [ht', ht, List.mem_append, or_assoc]
  · refine (h'.ram x (fun t htab => ?_) fun f hf' => hf f ?_).trans (h.ram x hx hf)
    · rcases (ht t).1 htab with htab | hmem
      · exact hx t htab
      · exact hf t (by rw [hl]; exact List.mem_append_left _ hmem)
    · rw [hl]
      exact List.mem_append_right _ hf'

/-- Tables with the same entries are the same tables. -/
theorem isTable_congr (h : ∀ p, p.length ≤ 3 → s'.table p = s.table p) (t : Nat) : s'.IsTable t ↔ s.IsTable t := by
  constructor
  · rintro ⟨p, hp, ht⟩
    exact ⟨p, hp, (h p hp).symm.trans ht⟩
  · rintro ⟨p, hp, ht⟩
    exact ⟨p, hp, (h p hp).trans ht⟩

/-- Writing a leaf entry takes no frame. -/
theorem grew_setLeaf (h : PageTables s free) {v w : BitVec 64} {t : Nat} (ht : s.table (Mem.tablePath v) = some t)
    (hw : ¬ Present w → w = 0) : Grew s (s.setEntry t (tableIndex v 12) w) free free := by
  have hl : (Mem.tablePath v).length = 3 := rfl
  obtain ⟨h', hsame⟩ := h.setLeaf (i := tableIndex v 12) ht hl hw
  refine ⟨h', ⟨rfl, rfl, rfl⟩, ⟨[], rfl, fun u => ?_⟩, fun x hx _ => ?_, fun hi => hi⟩
  · rw [isTable_congr (fun p hp => (hsame p hp).1) u]
    simp
  · refine (s.setEntry_onlyFrames t (tableIndex v 12) w).ram x fun f hf => ?_
    rw [List.mem_singleton.1 hf]
    exact hx t ⟨_, Nat.le_of_eq hl, ht⟩

/-- Writes to free frames take no frame. -/
theorem grew_of_outside (h : PageTables s free) (hi : FreeInv s' free) (ho : OnlyFrames free s s')
    (hini : s'.frameAllocator.initialized = true) : Grew s s' free free := by
  obtain ⟨h', hsame⟩ := h.of_outside hi (fun _ hf => hf) ho
  refine ⟨h', ho.boot, ⟨[], rfl, fun t => ?_⟩, fun x _ hx => ho.ram x hx, fun _ => hini⟩
  rw [isTable_congr (fun p hp => (hsame p hp).1) t]
  simp

/-! ## One level down -/

variable {off n f : Nat} {rest : List Nat} {q : List (Fin 512)} {i : Fin 512}

theorem grew_exhausted (h : PageTables s []) (ho : s.hhdm = some off) (h0 : entryAt s.ram n i = 0) :
    ∃ s', (nextTableOrCreate (entryPtr (n + off) i)).exec s = .ok (.error .outOfFrames, s') ∧ Grew s s' [] [] := by
  obtain ⟨s', hr, hi, hof, hini⟩ := allocate_nil h.alloc
  exact ⟨s', nextTableOrCreate_outOfFrames ho h0 hr, grew_of_outside h hi hof hini⟩

/-- The frame that is taken is a table now, and was the first free one. -/
theorem grew_created (h : PageTables s (f :: rest)) (ho : s.hhdm = some off) (hq : s.table q = some n)
    (hl : q.length < 3) (h0 : entryAt s.ram n i = 0) :
    ∃ s', (nextTableOrCreate (entryPtr (n + off) i)).exec s = .ok (.ok (f + off), s') ∧ Grew s s' (f :: rest) rest ∧
      s'.table (q ++ [i]) = some f := by
  obtain ⟨s₁, hr, hi, hof, -, hini⟩ := allocate_cons h.alloc
  have ho₁ : s₁.hhdm = some off := hof.boot.hhdm.trans ho
  have hcreate : (createTable (entryPtr (n + off) i)).exec s = .ok (.ok (), s₁.setEntry n i (tableEntry f)) := by
    unfold createTable
    rw [PageM.exec_get, readEntry ho, h0, if_pos (by decide), allocateFrame, PageM.exec_bind_ok (PageM.exec_lift hr)]
    show Except.ok (Except.ok (), s₁.writeWord _ (tableEntry f)) = _
    rw [writeEntry ho₁]
  have hx := nextTableOrCreate_ok ho (by rw [h0]; exact not_huge_zero) hcreate ho₁
  obtain ⟨s', hx', ht', hm, hput⟩ := nextTableOrCreate_created h ho hq hl h0
  have hs' : s' = s₁.setEntry n i (tableEntry f) := by
    rw [hx] at hx'
    exact (Prod.mk.inj (Except.ok.inj hx')).2.symm
  have hq1 : (q ++ [i]).length ≤ 3 := by
    rw [List.length_append, List.length_singleton]
    omega
  have htab : s'.table (q ++ [i]) = some f := by rw [(hput _ hq1).1, if_pos rfl]
  -- there was no table in the entry
  have hnone : s.table (q ++ [i]) = none := by
    rw [Mem.table_snoc, Mem.entry_of_table hq, h0]
    rfl
  refine ⟨s', hx', ⟨ht', hm.boot, ⟨[f], rfl, fun t => ?_⟩, fun x hxt hxf => ?_, fun _ => by rw [hs']; exact hini⟩, htab⟩
  · rw [List.mem_singleton]
    constructor
    · rintro ⟨p, hp, ht⟩
      rw [(hput p hp).1] at ht
      split at ht
      · cases ht
        exact .inr rfl
      · exact .inl ⟨p, hp, ht⟩
    · rintro (⟨p, hp, ht⟩ | rfl)
      · refine ⟨p, hp, ?_⟩
        rw [(hput p hp).1, if_neg, ht]
        rintro rfl
        rw [hnone] at ht
        cases ht
      · exact ⟨_, hq1, htab⟩
  · rw [hs']
    refine ((s₁.setEntry_onlyFrames n i (tableEntry f)).ram x fun g hg => ?_).trans (hof.ram x hxf)
    rw [List.mem_singleton.1 hg]
    exact hxt n ⟨q, by omega, hq⟩

/-! ## The calls -/

theorem createPath_grew : ∀ (p : List (Fin 512)) {q : List (Fin 512)} {s : Mem} {free : List Nat} {n : Nat},
    PageTables s free → s.hhdm = some off → s.table q = some n → q.length + p.length ≤ 3 →
    ∃ r s' free', (createPath (n + off) p).exec s = .ok (r, s') ∧ Grew s s' free free' ∧
      ∀ a, r = .ok a → ∃ t, a = t + off ∧ s'.table (q ++ p) = some t
  | [], q, s, free, n, h, ho, hq, hl => by
    refine ⟨_, s, free, rfl, .refl h, fun a ha => ?_⟩
    cases ha
    exact ⟨n, rfl, by rw [List.append_nil, hq]⟩
  | i :: p, q, s, free, n, h, ho, hq, hl => by
    rw [List.length_cons] at hl
    have hent := Mem.entry_of_table hq i
    rw [createPath]
    by_cases hp : Present (entryAt s.ram n i)
    · by_cases hh : Huge (entryAt s.ram n i)
      · exact ⟨_, s, free, PageM.exec_bind_error (nextTableOrCreate_huge ho hh) _, .refl h, fun a ha => by cases ha⟩
      · have hc : s.table (q ++ [i]) = some (entryAt s.ram n i &&& ADDR_MASK).toNat := by
          rw [Mem.table_snoc, hent]
          exact tableOf_eq_some.2 ⟨hp, hh, rfl⟩
        rw [PageM.exec_bind_ok (nextTableOrCreate_ok ho hh (createTable_present ho hp) ho), List.append_cons q i p]
        exact createPath_grew p h ho hc (by simp; omega)
    · have h0 := h.zero q i _ (by omega) hent hp
      cases free with
      | nil =>
        obtain ⟨s', hr, hg⟩ := grew_exhausted (i := i) h ho h0
        exact ⟨_, s', [], PageM.exec_bind_error hr _, hg, fun a ha => by cases ha⟩
      | cons f rest =>
        obtain ⟨s', hr, hg, ht⟩ := grew_created h ho hq (by omega) h0
        rw [PageM.exec_bind_ok hr, List.append_cons q i p]
        obtain ⟨r, s'', free', hx, hg', hat⟩ := createPath_grew p hg.tables (hg.boot.hhdm.trans ho) ht (by simp; omega)
        exact ⟨r, s'', free', hx, hg.trans hg', hat⟩

end Grew

/-- The function leaves its frames to the tables, whatever it returns. -/
def Grows {α : Type} (x : MemM α) : Prop :=
  ∀ s free, PageTables s free → ∀ a s', x.run s = .ok (a, s') → ∃ free', Grew s s' free free'

theorem grows_pure {α : Type} (a : α) : Grows (pure a) := by
  intro s free h b s' hr
  cases hr
  exact ⟨free, .refl h⟩

theorem grows_throw {α : Type} (e : String) : Grows (throw e : MemM α) := nofun

theorem grows_get : Grows (get : MemM Mem) := by
  intro s free h b s' hr
  cases hr
  exact ⟨free, .refl h⟩

theorem Grows.bind {α β : Type} {x : MemM α} {f : α → MemM β} (hx : Grows x) (hf : ∀ a, Grows (f a)) :
    Grows (x >>= f) := by
  intro s free h b s' hr
  obtain ⟨a, s₁, h1, h2⟩ := run_bind_eq_ok hr
  obtain ⟨free₁, hg⟩ := hx s free h a s₁ h1
  obtain ⟨free', hg'⟩ := hf a s₁ free₁ hg.tables b s' h2
  exact ⟨free', hg.trans hg'⟩

/-- The same for a function with the `?` operator. -/
theorem Grows.bindPage {α β : Type} {x : PageM α} {f : α → PageM β} (hx : Grows x.run) (hf : ∀ a, Grows (f a).run) :
    Grows (x >>= f).run := by
  refine Grows.bind hx fun r => ?_
  cases r with
  | ok a => exact hf a
  | error e => exact grows_pure _

theorem mapPage_grows (v p fl : BitVec 64) : Grows (mapPage v p fl).run := by
  intro s free h r s' hr
  have hr : (mapPage v p fl).exec s = .ok (r, s') := hr
  obtain ⟨off, ho⟩ := Option.isSome_iff_exists.1 h.alloc.hhdm
  obtain ⟨r₁, s₁, free₁, hx, hg, hat⟩ :=
    createPath_grew (Mem.tablePath v) (q := []) h ho (Mem.table_nil s) (Nat.le_refl 3)
  rw [mapPage_eq, PageM.exec_bind_ok (pml4Virt_ok ho)] at hr
  cases r₁ with
  | error e =>
    rw [PageM.exec_bind_error hx] at hr
    cases hr
    exact ⟨free₁, hg⟩
  | ok a =>
    obtain ⟨t, rfl, ht⟩ := hat a rfl
    rw [PageM.exec_bind_ok hx] at hr
    obtain ⟨-, hl⟩ | ⟨-, hl⟩ :=
      mapLeaf_run (v := v) (w := pageBase p ||| flags.PRESENT ||| fl) (hg.boot.hhdm.trans ho) ht
    · rw [hl] at hr
      cases hr
      exact ⟨free₁, hg⟩
    · rw [hl] at hr
      cases hr
      exact ⟨free₁, hg.trans (grew_setLeaf hg.tables ht fun hn => absurd (present_or _ _) hn)⟩

theorem addU64_grows (a b : BitVec 64) : Grows (addU64 a b) := by
  unfold addU64
  split
  · exact grows_pure _
  · exact grows_throw _

theorem Grows.forM {α : Type} {f : α → PageM Unit} (hf : ∀ a, Grows (f a).run) : ∀ l : List α, Grows (forM l f).run
  | [] => grows_pure _
  | a :: l => (hf a).bindPage fun _ => Grows.forM hf l

theorem mapRound_grows (v p fl : BitVec 64) (i : Nat) : Grows (mapRound v p fl i).run := by
  have hadd : ∀ a b, Grows (liftM (addU64 a b) : PageM (BitVec 64)).run :=
    fun a b => (addU64_grows a b).bind fun _ => grows_pure _
  exact (hadd _ _).bindPage fun _ => (hadd _ _).bindPage fun _ => mapPage_grows _ _ _

theorem mapRange_grows (v p size fl : BitVec 64) : Grows (mapRange v p size fl).run :=
  Grows.forM (mapRound_grows v p fl) _

theorem unmapPage_grows (v : BitVec 64) : Grows (unmapPage v).run := by
  intro s free h r s' hr
  have hr : (unmapPage v).exec s = .ok (r, s') := hr
  obtain ⟨-, hx⟩ | ⟨t, q, fl, ht, -, hx⟩ | ⟨-, -, hx⟩ := unmapPage_run h v
  · rw [hx] at hr
    cases hr
    exact ⟨free, .refl h⟩
  · rw [hx] at hr
    cases hr
    exact ⟨free, grew_setLeaf h ht fun _ => rfl⟩
  · rw [hx] at hr
    cases hr
    exact ⟨free, .refl h⟩

theorem mapMmio_grows {message : String} {phys : BitVec 64} {mapIt : BitVec 64 → BitVec 64 → PageM Unit}
    (h : ∀ v p, Grows (mapIt v p).run) : Grows (mapMmio message phys mapIt) := by
  refine Grows.bind (grows_get.bind fun s => ?_) fun v => (h v _).bind fun r => ?_
  · cases s.physicalToVirtual (pageBase phys).toNat with
    | none => exact grows_throw _
    | some virt => exact grows_pure _
  · rcases r with e | _
    · cases e
      case alreadyMapped => exact grows_pure _
      all_goals exact grows_throw _
    · exact grows_pure _

theorem mapMmioPage_grows (p : BitVec 64) : Grows (mapMmioPage p) := mapMmio_grows fun _ _ => mapPage_grows _ _ _

theorem mapMmioRange_grows (p size : BitVec 64) : Grows (mapMmioRange p size) :=
  mapMmio_grows fun _ _ => mapRange_grows _ _ _ _

theorem translate_grows (v : BitVec 64) : Grows (translate v).run := by
  intro s free h r s' hr
  have hr : (translate v).exec s = .ok (r, s') := hr
  obtain ⟨-, hx⟩ | ⟨-, q, fl, -, hx⟩ | ⟨-, -, hx⟩ := translate_run h v
  all_goals
    rw [hx] at hr
    cases hr
    exact ⟨free, .refl h⟩

/-! ## Frames that a caller gets -/

/-- The first frames went to the caller, and nothing but free frames was written. -/
structure Gave (s s' : Mem) (free free' given : List Nat) : Prop where
  list : free = given ++ free'
  tables : PageTables s' free'
  same : ∀ p, p.length ≤ 3 → s'.table p = s.table p
  only : OnlyFrames free s s'
  init : s.frameAllocator.initialized = true → s'.frameAllocator.initialized = true

section Gave

variable {s s' : Mem} {free : List Nat}

theorem allocateFrame_gave (h : PageTables s free) {r : Option Nat} (hr : allocateFrame.run s = .ok (r, s')) :
    ∃ free', Gave s s' free free' r.toList ∧ s'.frameAllocator.initialized = true := by
  cases free with
  | nil =>
    obtain ⟨s₁, hx, hi, ho, hini⟩ := allocate_nil h.alloc
    rw [allocateFrame, hx] at hr
    cases hr
    obtain ⟨h', hsame⟩ := h.of_outside hi (fun _ hf => hf) ho
    exact ⟨[], ⟨rfl, h', fun p hp => (hsame p hp).1, ho, fun _ => hini⟩, hini⟩
  | cons f rest =>
    obtain ⟨s₁, hx, hi, ho, -, hini⟩ := allocate_cons h.alloc
    rw [allocateFrame, hx] at hr
    cases hr
    obtain ⟨h', hsame⟩ := h.of_outside hi (fun _ hf => List.mem_cons_of_mem _ hf) ho
    exact ⟨rest, ⟨rfl, h', fun p hp => (hsame p hp).1, ho, fun _ => hini⟩, hini⟩

theorem Gave.trans {s₁ : Mem} {free₁ free' given given' : List Nat} (h : Gave s s₁ free free₁ given)
    (h' : Gave s₁ s' free₁ free' given') : Gave s s' free free' (given ++ given') := by
  have hsub : ∀ f ∈ free₁, f ∈ free := by
    intro f hf
    rw [h.list]
    exact List.mem_append_right _ hf
  refine ⟨?_, h'.tables, fun p hp => (h'.same p hp).trans (h.same p hp), h.only.trans (h'.only.mono hsub),
    fun hi => h'.init (h.init hi)⟩
  rw [h.list, h'.list, List.append_assoc]

theorem heapLoop_gave (n : Nat) (h : PageTables s free) {r r' : HeapRun} (hr : (heapLoop n r).run s = .ok (r', s')) :
    ∃ free' given, Gave s s' free free' given ∧ r'.allocated = r.allocated ++ given ∧
      (n ≠ 0 → s'.frameAllocator.initialized = true) := by
  induction n generalizing s free r with
  | zero =>
    cases hr
    exact ⟨free, [], ⟨rfl, h, fun _ _ => rfl, OnlyFrames.refl _ _, fun hi => hi⟩, by simp, fun hn => absurd rfl hn⟩
  | succ n ih =>
    rw [heapLoop] at hr
    obtain ⟨o, s₁, hx, hrest⟩ := run_bind_eq_ok hr
    obtain ⟨free₁, hg, hini⟩ := allocateFrame_gave h hx
    have hnext : ∃ r₁, (heapLoop n r₁).run s₁ = .ok (r', s') ∧ r₁.allocated = r.allocated ++ o.toList := by
      cases o with
      | none => exact ⟨r, hrest, by simp⟩
      | some f => exact ⟨_, hrest, foldl_take_allocated [f] r⟩
    obtain ⟨r₁, hr₁, hacc⟩ := hnext
    obtain ⟨free', given, hg', hall, -⟩ := ih hg.tables hr₁
    exact ⟨free', o.toList ++ given, hg.trans hg', by rw [hall, hacc, List.append_assoc], fun _ => hg'.init hini⟩

theorem initHeap_gave (h : PageTables s free) {o : HeapOutcome} (hr : initHeap.run s = .ok (o, s')) :
    ∃ free', Gave s s' free free' o.allocated ∧ s'.frameAllocator.initialized = true := by
  unfold initHeap at hr
  obtain ⟨r, s₁, hx, hrest⟩ := run_bind_eq_ok hr
  obtain ⟨free', given, hg, hall, hini⟩ := heapLoop_gave HEAP_FRAMES h hx
  have hinit := hini (by decide)
  rw [List.nil_append] at hall
  cases hl : r.lowestFrame with
  | none =>
    rw [hl] at hrest
    cases hrest
    exact ⟨free', hall ▸ hg, hinit⟩
  | some a =>
    rw [hl] at hrest
    obtain ⟨s₂, s₃, hget, hrest⟩ := run_bind_eq_ok hrest
    cases hget
    cases hv : s₁.physicalToVirtual a with
    | none =>
      rw [hv] at hrest
      cases hrest
      exact ⟨free', hall ▸ hg, hinit⟩
    | some v =>
      rw [hv] at hrest
      cases hrest
      exact ⟨free', hall ▸ hg, hinit⟩

end Gave

/-! ## The ledger -/

/-- The memory, and the frames that callers of `allocate_frame` and `init_heap` hold. -/
structure Ledger where
  mem : Mem
  held : Set Nat

/-- One call of a memory function, or a byte written by the holder of a frame, who is noted. -/
inductive LedgerStep : Option Nat → Ledger → Ledger → Prop
  | allocateFrame {c : Ledger} {r : Option Nat} {s : Mem} (h : allocateFrame.run c.mem = .ok (r, s)) :
      LedgerStep none c ⟨s, c.held ∪ {f | f ∈ r.toList}⟩
  | freeFrame {c : Ledger} {f : Nat} {s : Mem} (hf : f ∈ c.held) (h : (freeFrame f).run c.mem = .ok ((), s)) :
      LedgerStep none c ⟨s, c.held \ {f}⟩
  | initHeap {c : Ledger} {o : HeapOutcome} {s : Mem} (h : initHeap.run c.mem = .ok (o, s)) :
      LedgerStep none c ⟨s, c.held ∪ {f | f ∈ o.allocated}⟩
  | mapPage {c : Ledger} {v p fl : BitVec 64} {r : Except PagingError Unit} {s : Mem}
      (h : (mapPage v p fl).exec c.mem = .ok (r, s)) :
      LedgerStep none c ⟨s, c.held⟩
  | mapRange {c : Ledger} {v p size fl : BitVec 64} {r : Except PagingError Unit} {s : Mem}
      (h : (mapRange v p size fl).exec c.mem = .ok (r, s)) : LedgerStep none c ⟨s, c.held⟩
  | unmapPage {c : Ledger} {v : BitVec 64} {r : Except PagingError (BitVec 64)} {s : Mem}
      (h : (unmapPage v).exec c.mem = .ok (r, s)) :
      LedgerStep none c ⟨s, c.held⟩
  | mapMmioPage {c : Ledger} {p v : BitVec 64} {s : Mem} (h : (mapMmioPage p).run c.mem = .ok (v, s)) :
      LedgerStep none c ⟨s, c.held⟩
  | mapMmioRange {c : Ledger} {p size v : BitVec 64} {s : Mem} (h : (mapMmioRange p size).run c.mem = .ok (v, s)) :
      LedgerStep none c ⟨s, c.held⟩
  | write {c : Ledger} {f x : Nat} (b : UInt8) (hf : f ∈ c.held) (hx : InFrame f x) :
      LedgerStep (some f) c ⟨{ c.mem with ram := c.mem.ram.setByte x b }, c.held⟩

/-- Every usable frame of `s₀` is free, held, or a table that `s₀` did not have; the tables of `s₀` are still tables. -/
structure Accounted (s₀ : Mem) (c : Ledger) (free : List Nat) : Prop where
  tables : PageTables c.mem free
  boot : s₀.SameBoot c.mem
  old : ∀ t, s₀.IsTable t → c.mem.IsTable t
  heldFree : ∀ f ∈ c.held, f ∉ free
  heldTable : ∀ f ∈ c.held, ¬ c.mem.IsTable f
  cover : ∀ f, f ∈ free ∨ f ∈ c.held ∨ (c.mem.IsTable f ∧ ¬ s₀.IsTable f) ↔ s₀.UsableFrame f
  lazy : c.mem.frameAllocator.initialized = false → c.held = ∅

/-- Where the frames come from: Limine's tables are none of them. -/
structure LedgerBoot (s₀ : Mem) : Prop where
  new : s₀.frameAllocator = FrameAllocator.new
  ok : s₀.BootOk
  tables : PageTables s₀ s₀.bootFrames.reverse

section Run

variable {s₀ : Mem} {c c' : Ledger} {free : List Nat} {w : Option Nat}

theorem LedgerBoot.frame (h : LedgerBoot s₀) {f : Nat} (hf : s₀.UsableFrame f) :
    4096 ∣ f ∧ f < 2 ^ 52 ∧ ¬ s₀.IsTable f := by
  have hmem : f ∈ s₀.bootFrames.reverse := List.mem_reverse.2 ((Mem.mem_bootFrames h.ok f).2 hf)
  refine ⟨hf.1, h.tables.phys f hmem, ?_⟩
  rintro ⟨p, hp, ht⟩
  exact h.tables.offFree p f hp ht hmem

theorem accounted_boot (h : LedgerBoot s₀) : Accounted s₀ ⟨s₀, ∅⟩ s₀.bootFrames.reverse := by
  refine ⟨h.tables, Mem.SameBoot.refl s₀, fun _ ht => ht, nofun, nofun, fun f => ?_, fun _ => rfl⟩
  rw [List.mem_reverse, Mem.mem_bootFrames h.ok]
  simp

/-- A frame of another owner. -/
theorem isTable_aligned {s : Mem} {t : Nat} (h : s.IsTable t) : 4096 ∣ t := by
  obtain ⟨p, -, ht⟩ := h
  exact Mem.table_aligned ht

/-- What the paging functions do to the account. -/
theorem Accounted.grew (h : Accounted s₀ c free) {s : Mem} {free' : List Nat} (hg : Grew c.mem s free free') :
    Accounted s₀ ⟨s, c.held⟩ free' := by
  -- the frames taken off the list are tables now, and were none of `s₀`
  obtain ⟨taken, hl, ht⟩ := hg.taken
  have hnodup := h.tables.alloc.nodup
  rw [hl] at hnodup
  refine ⟨hg.tables, h.boot.trans hg.boot, fun t hold => (ht t).2 (.inl (h.old t hold)), fun f hf hfree => ?_,
    fun f hf htab => ?_, fun f => ?_, fun hi => ?_⟩
  · exact h.heldFree f hf (by rw [hl]; exact List.mem_append_right _ hfree)
  · rcases (ht f).1 htab with htab | hmem
    · exact h.heldTable f hf htab
    · exact h.heldFree f hf (by rw [hl]; exact List.mem_append_left _ hmem)
  · have hnew : ∀ f ∈ taken, ¬ s₀.IsTable f := by
      intro f hf hold
      obtain ⟨p, hp, htab⟩ := h.old f hold
      exact h.tables.offFree p f hp htab (by rw [hl]; exact List.mem_append_left _ hf)
    rw [← h.cover f, hl, List.mem_append, ht]
    have := hnew f
    tauto
  · cases hini : c.mem.frameAllocator.initialized with
    | true =>
      have := hg.init hini
      rw [this] at hi
      cases hi
    | false => exact h.lazy hini

/-- What handing out frames does to it. -/
theorem Accounted.gave (h : Accounted s₀ c free) {s : Mem} {free' given : List Nat} (hg : Gave c.mem s free free' given)
    (hini : s.frameAllocator.initialized = true) : Accounted s₀ ⟨s, c.held ∪ {f | f ∈ given}⟩ free' := by
  have hnodup := h.tables.alloc.nodup
  rw [hg.list] at hnodup
  have hfree : ∀ f ∈ given, f ∈ free := by
    intro f hf
    rw [hg.list]
    exact List.mem_append_left _ hf
  have hsame := isTable_congr hg.same
  refine ⟨hg.tables, h.boot.trans hg.only.boot, fun t hold => (hsame t).2 (h.old t hold), ?_, ?_,
    fun f => ?_, fun hi => ?_⟩
  · rintro f (hf | hf) hfree'
    · exact h.heldFree f hf (by rw [hg.list]; exact List.mem_append_right _ hfree')
    · exact List.disjoint_of_nodup_append hnodup hf hfree'
  · rintro f (hf | hf) htab
    · exact h.heldTable f hf ((hsame f).1 htab)
    · obtain ⟨p, hp, ht⟩ := (hsame f).1 htab
      exact h.tables.offFree p f hp ht (hfree f hf)
  · rw [← h.cover f, hg.list, List.mem_append, hsame]
    simp only [Set.mem_union, Set.mem_ofPred_eq]
    tauto
  · have hi : s.frameAllocator.initialized = false := hi
    rw [hini] at hi
    cases hi

/-- The bytes of a frame are those of another state. -/
def SameFrame (s s' : Mem) (f : Nat) : Prop := ∀ x, InFrame f x → s'.ram x = s.ram x

/-- A frame outside of those that were written. -/
theorem sameFrame_of_only {s s' : Mem} {fs : List Nat} {f : Nat} (ho : OnlyFrames fs s s') (ha : 4096 ∣ f)
    (hfs : ∀ g ∈ fs, 4096 ∣ g ∧ f ≠ g) : SameFrame s s' f :=
  fun x hx => ho.ram x fun g hg => inFrame_disjoint ha (hfs g hg).1 (hfs g hg).2 hx

theorem Accounted.held_frame (hb : LedgerBoot s₀) (h : Accounted s₀ c free) {f : Nat} (hf : f ∈ c.held) :
    4096 ∣ f ∧ f < 2 ^ 52 ∧ c.mem.frameAllocator.initialized = true := by
  obtain ⟨ha, hlt, -⟩ := hb.frame ((h.cover f).1 (.inr (.inl hf)))
  refine ⟨ha, hlt, ?_⟩
  cases hi : c.mem.frameAllocator.initialized with
  | true => rfl
  | false =>
    rw [h.lazy hi] at hf
    cases hf

/-- The paging functions write no frame that is held. -/
theorem Accounted.grew_same (hb : LedgerBoot s₀) (h : Accounted s₀ c free) {s : Mem} {free' : List Nat}
    (hg : Grew c.mem s free free') {f : Nat} (hf : f ∈ c.held) : SameFrame c.mem s f := by
  have ha := (h.held_frame hb hf).1
  refine fun x hx => hg.ram x (fun t ht => ?_) fun g hgf => ?_
  · exact inFrame_disjoint ha (isTable_aligned ht) (fun he => h.heldTable f hf (he ▸ ht)) hx
  · exact inFrame_disjoint ha (h.tables.alloc.aligned g hgf) (fun he => h.heldFree f hf (he ▸ hgf)) hx

theorem Accounted.freed (hb : LedgerBoot s₀) (h : Accounted s₀ c free) {f : Nat} (hf : f ∈ c.held) {s : Mem}
    (hr : (freeFrame f).run c.mem = .ok ((), s)) :
    Accounted s₀ ⟨s, c.held \ {f}⟩ (f :: free) ∧ OnlyFrames [f] c.mem s := by
  obtain ⟨ha, hlt, hini⟩ := h.held_frame hb hf
  have hno : ∀ p, p.length ≤ 3 → c.mem.table p ≠ some f := fun p hp ht => h.heldTable f hf ⟨p, hp, ht⟩
  obtain ⟨s₁, hx, ht, hsame, hini₁⟩ := freeFrame_tables h.tables hini ha hlt (h.heldFree f hf) hno
  obtain ⟨s₂, hx₂, -, ho, -⟩ := free_spec h.tables.alloc hini ha (by omega) (h.heldFree f hf)
  rw [freeFrame, hx₂] at hr hx
  cases hr
  cases hx
  have htab : ∀ t, s.IsTable t ↔ c.mem.IsTable t := isTable_congr fun p hp => (hsame p hp).1
  refine ⟨⟨ht, h.boot.trans ho.boot, fun t hold => (htab t).2 (h.old t hold), ?_, ?_, fun g => ?_, fun hi => ?_⟩, ho⟩
  · rintro g ⟨hg, hne⟩ hfree
    rcases List.mem_cons.1 hfree with rfl | hfree
    · exact hne rfl
    · exact h.heldFree g hg hfree
  · rintro g ⟨hg, -⟩ htable
    exact h.heldTable g hg ((htab g).1 htable)
  · rw [← h.cover g, htab, List.mem_cons]
    simp only [Set.mem_sdiff, Set.mem_singleton_iff]
    by_cases hgf : g = f
    · subst hgf
      simp [hf]
    · simp [hgf]
  · have hi : s.frameAllocator.initialized = false := hi
    rw [hini₁] at hi
    cases hi

theorem Accounted.wrote (hb : LedgerBoot s₀) (h : Accounted s₀ c free) {f x : Nat} (b : UInt8) (hf : f ∈ c.held)
    (hx : InFrame f x) : Accounted s₀ ⟨{ c.mem with ram := c.mem.ram.setByte x b }, c.held⟩ free ∧
      OnlyFrames [f] c.mem { c.mem with ram := c.mem.ram.setByte x b } := by
  obtain ⟨ha, -, -⟩ := h.held_frame hb hf
  have ho : OnlyFrames [f] c.mem { c.mem with ram := c.mem.ram.setByte x b } :=
    ⟨⟨rfl, rfl, rfl⟩, fun y hy => Ram.setByte_outside _ _ fun e => hy f List.mem_cons_self (e ▸ hx)⟩
  have hi : FreeInv { c.mem with ram := c.mem.ram.setByte x b } free := by
    refine h.tables.alloc.write_outside ho rfl fun g hg y hy k hk => ?_
    rw [List.mem_singleton.1 hk]
    exact inFrame_disjoint (h.tables.alloc.aligned g hg) ha (fun e => h.heldFree f hf (e ▸ hg)) hy
  have hno : ∀ g ∈ [f], 4096 ∣ g ∧ ∀ p, p.length ≤ 3 → c.mem.table p ≠ some g := by
    intro g hg
    rw [List.mem_singleton.1 hg]
    exact ⟨ha, fun p hp ht => h.heldTable f hf ⟨p, hp, ht⟩⟩
  obtain ⟨ht, hsame⟩ := h.tables.of_frames hi
    (fun g hg => ⟨h.tables.phys g hg, fun p hp ht => h.tables.offFree p g hp ht hg⟩) ho hno
  have htab := isTable_congr (fun p hp => (hsame p hp).1)
  refine ⟨⟨ht, h.boot.trans ho.boot, fun t hold => (htab t).2 (h.old t hold), h.heldFree,
    fun g hg htable => h.heldTable g hg ((htab g).1 htable), fun g => ?_, h.lazy⟩, ho⟩
  rw [← h.cover g, htab]

/-- A step keeps the account, and the frames that are held before and after it, but for that of a writer. -/
theorem ledgerStep_accounted (hb : LedgerBoot s₀) (h : Accounted s₀ c free) (hs : LedgerStep w c c') :
    (∃ free', Accounted s₀ c' free') ∧ ∀ f ∈ c.held, f ∈ c'.held → w ≠ some f → SameFrame c.mem c'.mem f := by
  have hgave : ∀ {s : Mem} {free' given : List Nat}, Gave c.mem s free free' given → ∀ f ∈ c.held,
    SameFrame c.mem s f := by
    intro s free' given hg f hf
    have hfs : ∀ g ∈ free, 4096 ∣ g ∧ f ≠ g := fun g hgf =>
      ⟨h.tables.alloc.aligned g hgf, fun he => h.heldFree f hf (he ▸ hgf)⟩
    exact sameFrame_of_only hg.only (h.held_frame hb hf).1 hfs
  have hgrew : ∀ {s : Mem}, (∃ free', Grew c.mem s free free') → (∃ free', Accounted s₀ ⟨s, c.held⟩ free') ∧
      ∀ f ∈ c.held, f ∈ c.held → w ≠ some f → SameFrame c.mem s f := by
    rintro s ⟨free', hg⟩
    exact ⟨⟨free', h.grew hg⟩, fun f hf _ _ => h.grew_same hb hg hf⟩
  cases hs with
  | allocateFrame hr =>
    obtain ⟨free', hg, hini⟩ := allocateFrame_gave h.tables hr
    exact ⟨⟨free', h.gave hg hini⟩, fun f hf _ _ => hgave hg f hf⟩
  | initHeap hr =>
    obtain ⟨free', hg, hini⟩ := initHeap_gave h.tables hr
    exact ⟨⟨free', h.gave hg hini⟩, fun f hf _ _ => hgave hg f hf⟩
  | freeFrame hf hr =>
    obtain ⟨ha, ho⟩ := h.freed hb hf hr
    refine ⟨⟨_, ha⟩, fun g hg hg' _ => sameFrame_of_only ho (h.held_frame hb hg).1 fun k hk => ?_⟩
    rw [List.mem_singleton.1 hk]
    exact ⟨(h.held_frame hb hf).1, hg'.2⟩
  | mapPage hr => exact hgrew (mapPage_grows _ _ _ _ _ h.tables _ _ hr)
  | mapRange hr => exact hgrew (mapRange_grows _ _ _ _ _ _ h.tables _ _ hr)
  | unmapPage hr => exact hgrew (unmapPage_grows _ _ _ h.tables _ _ hr)
  | mapMmioPage hr => exact hgrew (mapMmioPage_grows _ _ _ h.tables _ _ hr)
  | mapMmioRange hr => exact hgrew (mapMmioRange_grows _ _ _ _ h.tables _ _ hr)
  | write b hf hx =>
    obtain ⟨ha, ho⟩ := h.wrote hb b hf hx
    refine ⟨⟨_, ha⟩, fun g hg _ hw => sameFrame_of_only ho (h.held_frame hb hg).1 fun k hk => ?_⟩
    rw [List.mem_singleton.1 hk]
    exact ⟨(h.held_frame hb hf).1, fun he => hw (congrArg some he.symm)⟩

theorem ledger_accounted (hb : LedgerBoot s₀)
    (hr : Relation.ReflTransGen (fun c c' => ∃ w, LedgerStep w c c') ⟨s₀, ∅⟩ c) : ∃ free, Accounted s₀ c free := by
  induction hr with
  | refl => exact ⟨_, accounted_boot hb⟩
  | tail _ hs ih =>
    obtain ⟨free, h⟩ := ih
    obtain ⟨w, hs⟩ := hs
    exact (ledgerStep_accounted hb h hs).1

/-- From boot on, after any calls of the memory functions: each usable frame is free, held or a page table, never two of
these; no other frame is handed out; Limine's tables stay tables; and as long as a frame is held, nobody but its holder
changes a byte of it. -/
theorem frames_accounted (hb : LedgerBoot s₀)
    (hr : Relation.ReflTransGen (fun c c' => ∃ w, LedgerStep w c c') ⟨s₀, ∅⟩ c) :
    ∃ free, PageTables c.mem free ∧
      (∀ f, f ∈ free ∨ f ∈ c.held ∨ (c.mem.IsTable f ∧ ¬ s₀.IsTable f) ↔ s₀.UsableFrame f) ∧
      (∀ f ∈ free, f ∉ c.held ∧ ¬ c.mem.IsTable f) ∧ (∀ f ∈ c.held, ¬ c.mem.IsTable f) ∧
      (∀ t, s₀.IsTable t → c.mem.IsTable t) ∧
      ∀ w c', LedgerStep w c c' → ∀ f ∈ c.held, f ∈ c'.held → w ≠ some f → SameFrame c.mem c'.mem f := by
  obtain ⟨free, h⟩ := ledger_accounted hb hr
  refine ⟨free, h.tables, h.cover, fun f hf => ⟨fun hheld => h.heldFree f hheld hf, ?_⟩, h.heldTable, h.old,
    fun w c' hs => (ledgerStep_accounted hb h hs).2⟩
  rintro ⟨p, hp, ht⟩
  exact h.tables.offFree p f hp ht hf

end Run

/-- The first frame is handed out, then a page of registers is mapped with the three others. -/
theorem frames_accounted_emptyTables : ∃ c : Ledger, 0x103000 ∈ c.held ∧ c.mem.abs 0xffff8000fee00000#64 ≠ none ∧
    ∃ free, PageTables c.mem free ∧ 0x103000 ∉ free ∧ ¬ c.mem.IsTable 0x103000 := by
  have hboot : LedgerBoot emptyTables := ⟨rfl, emptyTables_bootOk, emptyTables_pageTables⟩
  obtain ⟨s, hr, hi, ho, -, -⟩ := allocate_cons emptyTables_free.alloc
  obtain ⟨ht, hsame⟩ := emptyTables_free.of_outside hi (fun _ hf => List.mem_cons_of_mem _ hf) ho
  have hmap := sameMap_of_entries ho.boot fun p i hp => (hsame p hp).2 i
  obtain ⟨habs, hhuge, -⟩ := emptyTables_unmapped (hhdmAddr 0xffff800000000000 (pageBase 0xfee00000#64))
  obtain ⟨s', hx, -⟩ := mapPage_enough ht (fun hh => hhuge ((hmap.huge _).1 hh)) (by rw [hmap.abs]; exact habs)
    (Mem.missingTables_le _ _) (pageBase 0xfee00000#64) (flags.WRITABLE ||| flags.NO_CACHE)
  have hrun : (mapMmioPage 0xfee00000#64).run s = .ok (hhdmAddr 0xffff800000000000 (pageBase 0xfee00000#64), s') :=
    (mapMmio_returns_iff (ho.boot.hhdm.trans rfl)).2 ⟨rfl, _, hx, .inl rfl⟩
  have hspec := mapMmioPage_spec ht (ho.boot.hhdm.trans rfl) (by decide) hrun
  have hmapped := hspec.mapped fun x hxa => by
    rw [hmap.abs, habs] at hxa
    cases hxa
  have hsteps : Relation.ReflTransGen (fun c c' => ∃ w, LedgerStep w c c') ⟨emptyTables, ∅⟩ ⟨s',
    ∅ ∪ {f | f ∈ (some 0x103000).toList}⟩ :=
    .tail (.single ⟨_, .allocateFrame hr⟩) ⟨_, .mapMmioPage hrun⟩
  have hheld : 0x103000 ∈ (∅ : Set Nat) ∪ {f | f ∈ (some 0x103000).toList} := .inr (by simp)
  obtain ⟨free, htables, -, hfree, htable, -⟩ := frames_accounted hboot hsteps
  refine ⟨_, hheld, ?_, free, htables, fun hf => (hfree _ hf).1 hheld, htable _ hheld⟩
  have haddr : hhdmAddr 0xffff800000000000 (pageBase 0xfee00000#64) = 0xffff8000fee00000#64 := by decide
  rw [← haddr]
  exact fun hnone => absurd (hmapped.symm.trans hnone) (Option.some_ne_none _)

end Octagram.Memory

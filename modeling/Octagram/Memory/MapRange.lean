/-
`map_range`: it maps its pages one after the other, and the first page that cannot be mapped ends it
with the pages before it mapped and nothing else changed (`mapRange_spec`). The loop keeps
`PagesMapped`: the first pages of the range were unmapped and are mapped now, and no other page has
changed. Both kinds of round are lemmas about it (`PagesMapped.succ`, `PagesMapped.failed`); what
that says of bytes follows, since the bytes of the range lie page by page.
-/
import Octagram.Memory.PageMap

namespace Octagram.Memory

open Octagram.Lib

/-! ## The pages of a range -/

/-- Page `i` from the address `start` on. -/
def pageAt (start : BitVec 64) (i : Nat) : BitVec 64 := start + BitVec.ofNat 64 (i * PAGE_SIZE)

section Range

variable {start : BitVec 64} {i j n : Nat}

theorem pageAt_toNat (h : start.toNat + i * 4096 < 2 ^ 64) : (pageAt start i).toNat = start.toNat + i * 4096 := by
  unfold pageAt PAGE_SIZE
  rw [BitVec.toNat_add, BitVec.toNat_ofNat, Nat.mod_eq_of_lt (a := i * 4096) (by omega), Nat.mod_eq_of_lt h]

@[simp] theorem pageAt_zero (start : BitVec 64) : pageAt start 0 = start := by
  unfold pageAt
  rw [Nat.zero_mul, BitVec.add_zero]

/-- The pages of a range start below its end. -/
theorem page_lt_of_lt_pageCount {size : BitVec 64} (h : i < pageCount size) : i * 4096 < size.toNat := by
  unfold pageCount PAGE_SIZE at h
  omega

/-- Byte `j` of the range lies in page `j / 4096`. -/
theorem pageNumber_byte (ha : 4096 ∣ start.toNat) (h : start.toNat + j < 2 ^ 64) :
    Mem.pageNumber (start + BitVec.ofNat 64 j) = Mem.pageNumber (pageAt start (j / 4096)) := by
  unfold Mem.pageNumber
  rw [pageAt_toNat (by omega), BitVec.toNat_add, BitVec.toNat_ofNat, Nat.mod_eq_of_lt (a := j) (by omega),
    Nat.mod_eq_of_lt h]
  omega

theorem pageOffset_toNat (v : BitVec 64) : (pageOffset v).toNat = v.toNat % 4096 :=
  and_lowMask_toNat v (k := 12) (by decide)

/-- The frame of page `j / 4096` and the offset of byte `j` are the address of byte `j`. -/
theorem pageAt_add_pageOffset {phys : BitVec 64} (ha : 4096 ∣ start.toNat) (h : start.toNat + j < 2 ^ 64)
    (hp : phys.toNat + j < 2 ^ 64) :
    pageAt phys (j / 4096) + pageOffset (start + BitVec.ofNat 64 j) = phys + BitVec.ofNat 64 j := by
  apply BitVec.eq_of_toNat_eq
  rw [BitVec.toNat_add, pageAt_toNat (by omega), pageOffset_toNat, BitVec.toNat_add, BitVec.toNat_add,
    BitVec.toNat_ofNat, Nat.mod_eq_of_lt (a := j) (by omega), Nat.mod_eq_of_lt h]
  omega

theorem pageBase_of_aligned {p : BitVec 64} (ha : 4096 ∣ p.toNat) : pageBase p = p := by
  apply BitVec.eq_of_toNat_eq
  rw [Mem.pageBase_toNat]
  omega

/-- Addresses of one page have the same frame and flags. -/
theorem abs_of_pageNumber {u v : BitVec 64} (s : Mem) (h : Mem.pageNumber u = Mem.pageNumber v) :
    s.abs u = s.abs v := by
  obtain ⟨hp, hi⟩ := (Mem.pageNumber_eq_iff u v).1 h
  unfold Mem.abs
  rw [hp, hi]

end Range

/-! ## Rounds -/

theorem addU64_ok {a b : BitVec 64} (h : a.toNat + b.toNat < 2 ^ 64) (s : Mem) :
    (addU64 a b).run s = .ok (a + b, s) := by
  unfold addU64
  rw [if_pos h]
  rfl

/-- A round without overflow maps one page. -/
theorem mapRound_exec {virt phys : BitVec 64} {i : Nat} (hv : virt.toNat + i * 4096 < 2 ^ 64)
    (hp : phys.toNat + i * 4096 < 2 ^ 64) (fl : BitVec 64) (s : Mem) :
    (mapRound virt phys fl i).exec s = (mapPage (pageAt virt i) (pageAt phys i) fl).exec s := by
  have hi : (BitVec.ofNat 64 (i * PAGE_SIZE)).toNat = i * 4096 := by
    rw [BitVec.toNat_ofNat]
    exact Nat.mod_eq_of_lt (by unfold PAGE_SIZE; omega)
  unfold mapRound
  rw [PageM.exec_bind_ok (PageM.exec_lift (addU64_ok (hi.symm ▸ hv) s)),
    PageM.exec_bind_ok (PageM.exec_lift (addU64_ok (hi.symm ▸ hp) s))]
  rfl

/-- From `s` to `s'` the first `k` pages of the range, unmapped in `s`, were mapped, and no other. -/
structure PagesMapped (s s' : Mem) (virt phys fl : BitVec 64) (k : Nat) : Prop where
  fresh : ∀ i < k, s.abs (pageAt virt i) = none
  mapped : ∀ i < k, s'.abs (pageAt virt i) = some (pageAt phys i, fl ||| flags.PRESENT)
  others : ∀ u, (∀ i < k, Mem.pageNumber u ≠ Mem.pageNumber (pageAt virt i)) → s'.abs u = s.abs u
  huge : ∀ u, s'.HugeOnPath u ↔ s.HugeOnPath u
  boot : s.SameBoot s'

section Rounds

variable {s s₁ s' : Mem} {free : List Nat} {virt phys fl : BitVec 64} {k : Nat}

theorem pagesMapped_zero (s : Mem) (virt phys fl : BitVec 64) : PagesMapped s s virt phys fl 0 where
  fresh i hi := absurd hi (Nat.not_lt_zero i)
  mapped i hi := absurd hi (Nat.not_lt_zero i)
  others _ _ := rfl
  huge _ := Iff.rfl
  boot := Mem.SameBoot.refl s

/-- A page that is mapped with success is one more page of the range. -/
theorem PagesMapped.succ (h : PagesMapped s s₁ virt phys fl k) (ha : 4096 ∣ (pageAt phys k).toNat) (hb : s₁.SameBoot s')
    (hs : MapSpec s₁ free (pageAt virt k) (pageAt phys k) fl (.ok ()) s') : PagesMapped s s' virt phys fl (k + 1) := by
  have hnone := (hs.ok_iff.1 rfl).1
  have habs := hs.mapped rfl
  rw [pageBase_of_aligned ha] at habs
  -- the page is none of those that were mapped before
  have hne : ∀ i < k, Mem.pageNumber (pageAt virt i) ≠ Mem.pageNumber (pageAt virt k) := by
    intro i hi he
    have := h.mapped i hi
    rw [abs_of_pageNumber s₁ he, hnone] at this
    cases this
  constructor
  · intro i hi
    rcases Nat.lt_succ_iff_lt_or_eq.1 hi with hi | rfl
    · exact h.fresh i hi
    · rw [← h.others _ fun j hj => (hne j hj).symm, hnone]
  · intro i hi
    rw [habs]
    rcases Nat.lt_succ_iff_lt_or_eq.1 hi with hi | rfl
    · rw [if_neg (hne i hi), h.mapped i hi]
    · rw [if_pos rfl]
  · intro u hu
    rw [habs, if_neg (hu k (Nat.lt_succ_self k)), h.others u fun i hi => hu i (Nat.lt_succ_of_lt hi)]
  · exact fun u => (hs.huge u).trans (h.huge u)
  · exact h.boot.trans hb

/-- A page that cannot be mapped leaves the pages as they are. -/
theorem PagesMapped.failed {e : PagingError} (h : PagesMapped s s₁ virt phys fl k) (hb : s₁.SameBoot s')
    (hs : MapSpec s₁ free (pageAt virt k) (pageAt phys k) fl (.error e) s') : PagesMapped s s' virt phys fl k := by
  have habs := hs.failed (by simp)
  constructor
  · exact h.fresh
  · exact fun i hi => (habs _).trans (h.mapped i hi)
  · exact fun u hu => (habs u).trans (h.others u hu)
  · exact fun u => (hs.huge u).trans (h.huge u)
  · exact h.boot.trans hb

end Rounds

/-! ## The range -/

section MapRange

variable {s : Mem} {free : List Nat} {virt phys size fl : BitVec 64}

/-- The loop maps its pages, or it returns an error; it never panics. -/
theorem mapPages_spec (h : PageTables s free) {n : Nat} (hpa : 4096 ∣ phys.toNat)
    (hv : ∀ i < n, virt.toNat + i * 4096 < 2 ^ 64) (hp : ∀ i < n, phys.toNat + i * 4096 < 2 ^ 52)
    (hf : fl &&& ADDR_MASK = 0#64) :
    (∃ s', (mapPages virt phys fl n).exec s = .ok (.ok (), s') ∧
      (∃ free', PageTables s' free') ∧ PagesMapped s s' virt phys fl n) ∨
    ∃ e s', (mapPages virt phys fl n).exec s = .ok (.error e, s') ∧ ∃ free', PageTables s' free' := by
  refine forM_range_spec (fun k s₁ => (∃ free', PageTables s₁ free') ∧ PagesMapped s s₁ virt phys fl k)
    (fun s' => ∃ free', PageTables s' free') ⟨⟨free, h⟩, pagesMapped_zero s virt phys fl⟩ ?_
  -- one round: page `k`, after the pages before it were mapped
  rintro k hk s₁ ⟨⟨free₁, h₁⟩, hm⟩
  have hpk : (pageAt phys k).toNat = phys.toNat + k * 4096 := pageAt_toNat (by have := hp k hk; omega)
  obtain ⟨r, s', free', hx, h', hr⟩ := mapPage_run h₁ (pageAt virt k) (pageAt phys k) fl
  have hs := hr.spec (by rw [hpk]; exact hp k hk) hf
  have hx' : (mapRound virt phys fl k).run.run s₁ = .ok (r, s') :=
    (mapRound_exec (hv k hk) (by have := hp k hk; omega) fl s₁).trans hx
  cases r with
  | ok u => exact .inl ⟨s', hx', ⟨free', h'⟩, hm.succ (by rw [hpk]; omega) hr.boot hs⟩
  | error e => exact .inr ⟨e, s', hx', free', h'⟩

/-- From `s` to `s'` the bytes of the first `k` pages of the range, not translated before, are translated
to the bytes of the physical range, and all other translations are as before. -/
structure AddsPages (s s' : Mem) (virt phys : BitVec 64) (k : Nat) : Prop where
  fresh : ∀ j < k * PAGE_SIZE, ∃ e, (translate (virt + BitVec.ofNat 64 j)).exec s = .ok (.error e, s)
  mapped : ∀ j < k * PAGE_SIZE,
    (translate (virt + BitVec.ofNat 64 j)).exec s' = .ok (.ok (phys + BitVec.ofNat 64 j), s')
  others : ∀ u, (∀ i < k, Mem.pageNumber u ≠ Mem.pageNumber (pageAt virt i)) →
    ∃ r, (translate u).exec s = .ok (r, s) ∧ (translate u).exec s' = .ok (r, s')

theorem PagesMapped.adds {s' : Mem} {free' : List Nat} {k : Nat} (hm : PagesMapped s s' virt phys fl k)
    (h : PageTables s free) (h' : PageTables s' free') (hva : 4096 ∣ virt.toNat)
    (hv : virt.toNat + k * 4096 ≤ 2 ^ 64) (hp : phys.toNat + k * 4096 ≤ 2 ^ 64) : AddsPages s s' virt phys k := by
  constructor
  · intro j hj
    unfold PAGE_SIZE at hj
    apply translate_of_abs_none h
    rw [abs_of_pageNumber s (pageNumber_byte hva (by omega))]
    exact hm.fresh _ (by omega)
  · intro j hj
    unfold PAGE_SIZE at hj
    have habs := hm.mapped (j / 4096) (by omega)
    rw [← abs_of_pageNumber s' (pageNumber_byte hva (by omega))] at habs
    rw [translate_of_abs h' habs, pageAt_add_pageOffset hva (by omega) (by omega)]
  · exact fun u hu => translate_congr h h' (hm.others u hu) (hm.huge u)

/-- Page `k` is the first page of the range that `map_page` fails to map: it fails with `e` after the
pages before it were mapped, and leaves `s'`. -/
def FirstFailure (s : Mem) (virt phys size fl : BitVec 64) (k : Nat) (e : PagingError) (s' : Mem) : Prop :=
  k < pageCount size ∧ ∃ s₁, (mapPages virt phys fl k).exec s = .ok (.ok (), s₁) ∧
    (mapPage (pageAt virt k) (pageAt phys k) fl).exec s₁ = .ok (.error e, s')

/-- The pages of a range that does not overflow start at addresses. -/
theorem pages_fit {start : BitVec 64} {w n : Nat} (hs : start.toNat + size.toNat ≤ 2 ^ w) (hn : n ≤ pageCount size) :
    ∀ i < n, start.toNat + i * 4096 < 2 ^ w := by
  intro i hi
  have := page_lt_of_lt_pageCount (Nat.lt_of_lt_of_le hi hn)
  omega

/-- The loop returns the error of the first page that cannot be mapped. -/
theorem mapRange_error_iff (h : PageTables s free) (hpa : 4096 ∣ phys.toNat)
    (hv : virt.toNat + size.toNat ≤ 2 ^ 64) (hp : phys.toNat + size.toNat ≤ 2 ^ 52) (hf : fl &&& ADDR_MASK = 0#64)
    (e : PagingError) (s' : Mem) :
    (mapRange virt phys size fl).exec s = .ok (.error e, s') ↔ ∃ k, FirstFailure s virt phys size fl k e s' := by
  have hlt : ∀ i < pageCount size, i * 4096 < size.toNat := fun i hi => page_lt_of_lt_pageCount hi
  have hround : ∀ k < pageCount size, ∀ s₁, (mapRound virt phys fl k).run.run s₁ =
      (mapPage (pageAt virt k) (pageAt phys k) fl).exec s₁ := by
    intro k hk s₁
    have := hlt k hk
    exact mapRound_exec (by omega) (by omega) fl s₁
  refine (forM_range_error_iff fun m hm => ?_).trans ?_
  · rcases mapPages_spec h hpa (pages_fit hv hm) (pages_fit hp hm) hf with ⟨s₁, hx, -⟩ | ⟨e', s₁, hx, -⟩
    · exact ⟨_, s₁, hx⟩
    · exact ⟨_, s₁, hx⟩
  · constructor
    · rintro ⟨k, hk, s₁, hx, hr⟩
      exact ⟨k, hk, s₁, hx, (hround k hk s₁).symm.trans hr⟩
    · rintro ⟨k, hk, s₁, hx, hr⟩
      exact ⟨k, hk, s₁, hx, (hround k hk s₁).trans hr⟩

/-- Before the first failure the pages before it were mapped, and the failure changed no mapping. -/
theorem FirstFailure.spec {k : Nat} {e : PagingError} {s' : Mem} (hk : FirstFailure s virt phys size fl k e s')
    (h : PageTables s free) (hpa : 4096 ∣ phys.toNat) (hv : virt.toNat + size.toNat ≤ 2 ^ 64)
    (hp : phys.toNat + size.toNat ≤ 2 ^ 52) (hf : fl &&& ADDR_MASK = 0#64) :
    ∃ s₁ free₁ free', (mapPages virt phys fl k).exec s = .ok (.ok (), s₁) ∧
      (mapPage (pageAt virt k) (pageAt phys k) fl).exec s₁ = .ok (.error e, s') ∧ PageTables s₁ free₁ ∧
      PageTables s' free' ∧ PagesMapped s s₁ virt phys fl k ∧ PagesMapped s s' virt phys fl k ∧
      MapSpec s₁ free₁ (pageAt virt k) (pageAt phys k) fl (.error e) s' := by
  obtain ⟨hlt, s₁, hx, hr⟩ := hk
  have hks := page_lt_of_lt_pageCount hlt
  have hpk : (pageAt phys k).toNat = phys.toNat + k * 4096 := pageAt_toNat (by omega)
  rcases mapPages_spec h hpa (pages_fit hv (Nat.le_of_lt hlt)) (pages_fit hp (Nat.le_of_lt hlt)) hf with
    ⟨s₂, hx₂, ⟨free₁, h₁⟩, hm⟩ | ⟨e', s₂, hx₂, -⟩
  · rw [hx] at hx₂
    cases hx₂
    obtain ⟨r, s₃, free', hr', h', hrun⟩ := mapPage_run h₁ (pageAt virt k) (pageAt phys k) fl
    rw [hr] at hr'
    cases hr'
    have hs := hrun.spec (by omega) hf
    exact ⟨s₁, free₁, free', hx, hr, h₁, h', hm, hm.failed hrun.boot hs, hs⟩
  · rw [hx] at hx₂
    cases hx₂

/-- `map_range` maps exactly its pages; or it returns the error of the first page that cannot be mapped,
and has mapped exactly the pages before it. -/
theorem mapRange_spec (h : PageTables s free) (hva : 4096 ∣ virt.toNat) (hpa : 4096 ∣ phys.toNat)
    (hv : virt.toNat + size.toNat ≤ 2 ^ 64) (hp : phys.toNat + size.toNat ≤ 2 ^ 52) (hf : fl &&& ADDR_MASK = 0#64) :
    ∃ r s', (mapRange virt phys size fl).exec s = .ok (r, s') ∧ (∃ free', PageTables s' free') ∧
      (r = .ok () → AddsPages s s' virt phys (pageCount size)) ∧
      (∀ e, r = .error e ↔ ∃ k, FirstFailure s virt phys size fl k e s') ∧
      ∀ k e, FirstFailure s virt phys size fl k e s' → AddsPages s s' virt phys k := by
  have hlt : ∀ i < pageCount size, i * 4096 < size.toNat := fun i hi => page_lt_of_lt_pageCount hi
  have hend : pageCount size * 4096 < size.toNat + 4096 := by
    unfold pageCount PAGE_SIZE
    omega
  have hadds : ∀ s' k e, FirstFailure s virt phys size fl k e s' → AddsPages s s' virt phys k := by
    intro s' k e hk
    have := hlt k hk.1
    obtain ⟨s₁, free₁, free', -, -, -, h', -, hm, -⟩ := hk.spec h hpa hv hp hf
    exact hm.adds h h' hva (by omega) (by omega)
  have herr := mapRange_error_iff h hpa hv hp hf
  rcases mapPages_spec h hpa (pages_fit hv (Nat.le_refl _)) (pages_fit hp (Nat.le_refl _)) hf with
    ⟨s', hx, ⟨free', h'⟩, hm⟩ | ⟨e, s', hx, ht⟩
  · refine ⟨.ok (), s', hx, ⟨free', h'⟩, fun _ => hm.adds h h' hva (by omega) (by omega), fun e => ?_, hadds s'⟩
    rw [← herr, mapRange, hx]
    simp
  · refine ⟨.error e, s', hx, ht, by simp, fun e' => ?_, hadds s'⟩
    rw [← herr, mapRange, hx]
    simp

end MapRange

/-- Next to a page that is mapped, a page of the same table can be mapped. -/
theorem mapPage_beside {s : Mem} {free : List Nat} {u v p fl : BitVec 64} (h : PageTables s free) (hv : s.abs v ≠ none)
    (ht : Mem.tablePath u = Mem.tablePath v) (hu : s.abs u = none) (hp : p.toNat < 2 ^ 52)
    (hf : fl &&& ADDR_MASK = 0#64) : ∃ s', (mapPage u p fl).exec s = .ok (.ok (), s') := by
  obtain ⟨x, hx⟩ := Option.ne_none_iff_exists'.1 hv
  obtain ⟨t, ht'⟩ := table_of_abs hx
  rw [← ht] at ht'
  have hmiss : s.missingTables u = 0 := (Mem.below_table (q := []) ht').2
  obtain ⟨r, s', -, hr, -, hs⟩ := mapPage_spec (v := u) h hp hf
  have hok : r = .ok () := hs.ok_iff.2 ⟨hu, not_hugeOnPath_of_table ht', by rw [hmiss]; exact Nat.zero_le _⟩
  exact ⟨s', by rw [hr, hok]⟩

/-- Where nothing is mapped and there are frames for three tables, a page can be mapped. -/
theorem emptyTables_mapPage (v : BitVec 64) {p fl : BitVec 64} (hp : p.toNat < 2 ^ 52) (hf : fl &&& ADDR_MASK = 0#64) :
    ∃ s' free', (mapPage v p fl).exec emptyTables = .ok (.ok (), s') ∧ PageTables s' free' ∧
      MapSpec emptyTables [0x103000, 0x102000, 0x101000, 0x100000] v p fl (.ok ()) s' := by
  obtain ⟨r, s', free', hr, h', hs⟩ := mapPage_spec (v := v) emptyTables_free hp hf
  obtain ⟨ha, hh, hm⟩ := emptyTables_unmapped v
  have hok : r = .ok () := hs.ok_iff.2 ⟨ha, hh, by rw [hm]; decide⟩
  rw [hok] at hr hs
  exact ⟨s', free', hr, h', hs⟩

/-- Where nothing is mapped, two pages of one table can be mapped. -/
theorem emptyTables_mapRange {virt phys size fl : BitVec 64} (hcount : pageCount size = 2) (hpa : 4096 ∣ phys.toNat)
    (hv : virt.toNat + size.toNat ≤ 2 ^ 64) (hp : phys.toNat + size.toNat ≤ 2 ^ 52) (hf : fl &&& ADDR_MASK = 0#64)
    (ht : Mem.tablePath (pageAt virt 1) = Mem.tablePath (pageAt virt 0))
    (hne : Mem.pageNumber (pageAt virt 1) ≠ Mem.pageNumber (pageAt virt 0)) :
    ∃ s', (mapRange virt phys size fl).exec emptyTables = .ok (.ok (), s') := by
  have hlt : ∀ k < 2, (pageAt phys k).toNat < 2 ^ 52 := by
    intro k hk
    have := page_lt_of_lt_pageCount (hcount ▸ hk)
    rw [pageAt_toNat (by omega)]
    omega
  rcases mapPages_spec emptyTables_free hpa (pages_fit hv (Nat.le_refl _)) (pages_fit hp (Nat.le_refl _)) hf with
    ⟨s', hx, -⟩ | ⟨e, s', hx, -⟩
  · exact ⟨s', hx⟩
  · -- neither page can fail
    obtain ⟨k, hk⟩ := (mapRange_error_iff emptyTables_free hpa hv hp hf e s').1 hx
    obtain ⟨s₁, free₁, free', hx₁, hr, h₁, -, hm, -⟩ := hk.spec emptyTables_free hpa hv hp hf
    have hlast := hk.1
    rw [hcount] at hlast
    obtain rfl | rfl : k = 0 ∨ k = 1 := by omega
    · -- nothing is mapped yet
      cases hx₁
      obtain ⟨s₂, -, hr', -⟩ := emptyTables_mapPage (pageAt virt 0) (hlt 0 (by decide)) hf
      rw [hr] at hr'
      cases hr'
    · -- the tables of the first page are there for the second
      have hmapped : s₁.abs (pageAt virt 0) ≠ none := by
        rw [hm.mapped 0 Nat.zero_lt_one]
        exact Option.some_ne_none _
      have hnone : s₁.abs (pageAt virt 1) = none := by
        rw [hm.others _ fun i hi => by rw [Nat.lt_one_iff.1 hi]; exact hne]
        exact (emptyTables_unmapped _).1
      obtain ⟨s₂, hr'⟩ := mapPage_beside h₁ hmapped ht hnone (hlt 1 (by decide)) hf
      rw [hr] at hr'
      cases hr'

/-- A range of one page and a half is mapped to two pages. -/
theorem mapRange_spec_emptyTables :
    ∃ s', (mapRange 0x400000 0xfee00000 0x1800 flags.WRITABLE).exec emptyTables = .ok (.ok (), s') ∧
      AddsPages emptyTables s' 0x400000 0xfee00000 2 := by
  obtain ⟨r, s', hx, -, hok, -, -⟩ := @mapRange_spec _ _ 0x400000 0xfee00000 0x1800 flags.WRITABLE emptyTables_free
    (by decide) (by decide) (by decide) (by decide) (by decide)
  obtain ⟨s₁, hx₁⟩ := @emptyTables_mapRange 0x400000 0xfee00000 0x1800 flags.WRITABLE (by decide)
    (by decide) (by decide)
    (by decide) (by decide) (by decide) (by decide)
  rw [hx] at hx₁
  cases hx₁
  exact ⟨s', hx, hok rfl⟩

end Octagram.Memory

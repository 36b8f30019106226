/-
`map_mmio_page` and `map_mmio_range`: device registers seen through the HHDM window. Both return the
address of the page the registers start in, and take a page that is mapped already for success. So
every byte is reached at the address that is returned exactly if the range starts a page and, once a
page of it was mapped before, all later ones were (`mapMmioRange_covers_iff`): `map_range` stops at
the first page that is mapped (`mapRange_stops`). Over runs of `map_mmio_page` the pages of
registers stay where they are (`MmioState`).
-/
import Octagram.Memory.MapRange

namespace Octagram.Memory

open Octagram.Lib

/-- The flags of a page of device registers. -/
def mmioFlags : BitVec 64 := flags.WRITABLE ||| flags.NO_CACHE

/-- `physical_to_virtual(phys) as u64`, for a window at `off`. -/
def hhdmAddr (off : Nat) (phys : BitVec 64) : BitVec 64 := BitVec.ofNat 64 (phys.toNat + off)

/-! ## Addresses of the window -/

section Window

variable {off : Nat} {phys : BitVec 64}

theorem hhdmAddr_toNat (h : off + phys.toNat < 2 ^ 64) : (hhdmAddr off phys).toNat = off + phys.toNat := by
  unfold hhdmAddr
  rw [BitVec.toNat_ofNat, Nat.add_comm, Nat.mod_eq_of_lt h]

/-- The window shows a range page by page. -/
theorem hhdmAddr_add {j : Nat} (h : off + phys.toNat + j < 2 ^ 64) :
    hhdmAddr off (phys + BitVec.ofNat 64 j) = hhdmAddr off phys + BitVec.ofNat 64 j := by
  apply BitVec.eq_of_toNat_eq
  have hj : (phys + BitVec.ofNat 64 j).toNat = phys.toNat + j := by
    rw [BitVec.toNat_add, BitVec.toNat_ofNat, Nat.mod_eq_of_lt (a := j) (by omega), Nat.mod_eq_of_lt (by omega)]
  rw [hhdmAddr_toNat (by omega), hj, BitVec.toNat_add, BitVec.toNat_ofNat, hhdmAddr_toNat (by omega),
    Nat.mod_eq_of_lt (a := j) (by omega), Nat.mod_eq_of_lt (by omega), Nat.add_assoc]

theorem pageBase_le (p : BitVec 64) : (pageBase p).toNat ≤ p.toNat := by
  rw [Mem.pageBase_toNat]
  exact Nat.div_mul_le_self _ _

theorem pageBase_dvd (p : BitVec 64) : 4096 ∣ (pageBase p).toNat := ⟨_, by rw [Mem.pageBase_toNat, Nat.mul_comm]⟩

theorem pageBase_eq_iff (p : BitVec 64) : pageBase p = p ↔ 4096 ∣ p.toNat := by
  constructor
  · intro h
    rw [← h]
    exact pageBase_dvd p
  · exact pageBase_of_aligned

/-- The address that is returned is that of the registers exactly if they start a page. -/
theorem hhdmAddr_pageBase_eq_iff (h : off + phys.toNat < 2 ^ 64) :
    hhdmAddr off (pageBase phys) = hhdmAddr off phys ↔ 4096 ∣ phys.toNat := by
  have hle := pageBase_le phys
  rw [← pageBase_eq_iff]
  constructor
  · intro he
    have := congrArg BitVec.toNat he
    rw [hhdmAddr_toNat (by omega), hhdmAddr_toNat h] at this
    exact BitVec.eq_of_toNat_eq (by omega)
  · exact fun he => by rw [he]

end Window

/-! ## The calls -/

section Calls

variable {s s' : Mem} {off : Nat} {phys v : BitVec 64}

theorem mmioVirt_run (ho : s.hhdm = some off) (p : BitVec 64) : (mmioVirt p).run s = .ok (hhdmAddr off p, s) := by
  unfold mmioVirt
  have hget : (get : MemM Mem).run s = .ok (s, s) := rfl
  rw [run_bind_ok hget, Mem.physicalToVirtual_some ho]
  rfl

/-- A call returns exactly if its pages were mapped or the first that failed was mapped already. -/
theorem mapMmio_returns_iff {message : String} {mapIt : BitVec 64 → BitVec 64 → PageM Unit} (ho : s.hhdm = some off) :
    (mapMmio message phys mapIt).run s = .ok (v, s') ↔ v = hhdmAddr off (pageBase phys) ∧
      ∃ r, (mapIt v (pageBase phys)).exec s = .ok (r, s') ∧ (r = .ok () ∨ r = .error .alreadyMapped) := by
  have hok : ∀ {r : Except PagingError Unit} {s₁ : Mem},
      (mapIt (hhdmAddr off (pageBase phys)) (pageBase phys)).exec s = .ok (r, s₁) →
      r = .ok () ∨ r = .error .alreadyMapped →
      (mapMmio message phys mapIt).run s = .ok (hhdmAddr off (pageBase phys), s₁) := by
    intro r s₁ hx hr
    unfold mapMmio
    rw [run_bind_ok (mmioVirt_run ho _), run_bind_ok hx]
    rcases hr with rfl | rfl
    · rfl
    · rfl
  have herror : ∀ {e : PagingError} {s₁ : Mem},
      (mapIt (hhdmAddr off (pageBase phys)) (pageBase phys)).exec s = .ok (.error e, s₁) → e ≠ .alreadyMapped →
      (mapMmio message phys mapIt).run s = .error (message ++ " " ++ hexAddr phys ++ ": " ++ e.debug) := by
    intro e s₁ hx hne
    unfold mapMmio
    rw [run_bind_ok (mmioVirt_run ho _), run_bind_ok hx]
    cases e <;> first | rfl | exact absurd rfl hne
  constructor
  · intro h
    obtain ⟨r, s₁, hx⟩ : ∃ r s₁, (mapIt (hhdmAddr off (pageBase phys)) (pageBase phys)).exec s = .ok (r, s₁) := by
      unfold mapMmio at h
      rw [run_bind_ok (mmioVirt_run ho _)] at h
      obtain ⟨r, s₁, hx, -⟩ := run_bind_eq_ok h
      exact ⟨r, s₁, hx⟩
    by_cases hr : r = .ok () ∨ r = .error .alreadyMapped
    · rw [hok hx hr] at h
      cases h
      exact ⟨rfl, r, hx, hr⟩
    · -- another error is passed on
      rcases r with e | u
      · rw [herror hx fun he => hr (.inr (congrArg _ he))] at h
        cases h
      · exact absurd (.inl rfl) hr
  · rintro ⟨rfl, r, hx, hr⟩
    exact hok hx hr

end Calls

/-! ## A range of registers -/

/-- The number of pages with a byte of the range. -/
def touchedPages (phys size : BitVec 64) : Nat := (phys.toNat % 4096 + size.toNat + 4095) / 4096

/-- Every byte of the physical range is translated from its address in the window. -/
def RangeReached (s : Mem) (off : Nat) (phys size : BitVec 64) : Prop :=
  ∀ i < size.toNat, (translate (hhdmAddr off (phys + BitVec.ofNat 64 i))).exec s =
    .ok (.ok (phys + BitVec.ofNat 64 i), s)

section Range

variable {s s₁ s' : Mem} {free free' : List Nat} {off n k : Nat} {virt phys size fl : BitVec 64}

/-- The bytes of the range, counted from the start of its first page. -/
theorem byte_from_pageBase (phys : BitVec 64) (i : Nat) :
    phys + BitVec.ofNat 64 i = pageBase phys + BitVec.ofNat 64 (phys.toNat % 4096 + i) := by
  have hbase := Mem.pageBase_toNat phys
  apply BitVec.eq_of_toNat_eq
  simp only [BitVec.toNat_add, BitVec.toNat_ofNat]
  omega

/-- Every page counted has a byte of the range. -/
theorem exists_byte_in_page {l : Nat} (hsize : 0 < size.toNat) (hl : l < touchedPages phys size) :
    ∃ i < size.toNat, (phys.toNat % 4096 + i) / 4096 = l := by
  unfold touchedPages at hl
  exact ⟨l * 4096 - phys.toNat % 4096, by omega, by omega⟩

theorem pageBase_byte {j : Nat} (ha : 4096 ∣ phys.toNat) (h : phys.toNat + j < 2 ^ 64) :
    pageBase (phys + BitVec.ofNat 64 j) = pageAt phys (j / 4096) := by
  apply BitVec.eq_of_toNat_eq
  rw [Mem.pageBase_toNat, pageAt_toNat (by omega), BitVec.toNat_add, BitVec.toNat_ofNat,
    Nat.mod_eq_of_lt (a := j) (by omega), Nat.mod_eq_of_lt h]
  omega

/-- A byte is translated as the range says exactly if its page is mapped as the range says. -/
theorem translate_byte_iff (h : PageTables s free) (ha : 4096 ∣ virt.toNat) {j : Nat} (hv : virt.toNat + j < 2 ^ 64)
    (hp : phys.toNat + j < 2 ^ 64) :
    (translate (virt + BitVec.ofNat 64 j)).exec s = .ok (.ok (phys + BitVec.ofNat 64 j), s) ↔
      ∃ fl, s.abs (pageAt virt (j / 4096)) = some (pageAt phys (j / 4096), fl) := by
  rw [← abs_of_pageNumber s (pageNumber_byte ha hv), ← pageAt_add_pageOffset ha hv hp]
  constructor
  · intro ht
    obtain ⟨-, hr⟩ | ⟨-, q, fl, habs, hr⟩ | ⟨-, -, hr⟩ := translate_run h (virt + BitVec.ofNat 64 j)
    · rw [ht] at hr
      cases hr
    · rw [ht] at hr
      have hq := Except.ok.inj (Prod.mk.inj (Except.ok.inj hr)).1
      rw [(BitVec.add_left_inj _).1 hq]
      exact ⟨fl, habs⟩
    · rw [ht] at hr
      cases hr
  · rintro ⟨fl, habs⟩
    exact translate_of_abs h habs

/-- The range is reached exactly if all pages with a byte of it are mapped to their frames. -/
theorem rangeReached_iff (h : PageTables s free) (ho : 4096 ∣ off) (hsize : 0 < size.toNat)
    (hfit : off + phys.toNat + size.toNat ≤ 2 ^ 64) : RangeReached s off phys size ↔ ∀ l < touchedPages phys size,
      ∃ fl, s.abs (pageAt (hhdmAddr off (pageBase phys)) l) = some (pageAt (pageBase phys) l, fl) := by
  have hbase := Mem.pageBase_toNat phys
  have hbyte : ∀ i < size.toNat,
      ((translate (hhdmAddr off (phys + BitVec.ofNat 64 i))).exec s = .ok (.ok (phys + BitVec.ofNat 64 i), s) ↔
        ∃ fl, s.abs (pageAt (hhdmAddr off (pageBase phys)) ((phys.toNat % 4096 + i) / 4096)) =
          some (pageAt (pageBase phys) ((phys.toNat % 4096 + i) / 4096), fl)) := by
    intro i hi
    have hvirt : (hhdmAddr off (pageBase phys)).toNat = off + (pageBase phys).toNat := hhdmAddr_toNat (by omega)
    rw [byte_from_pageBase, hhdmAddr_add (by omega)]
    exact translate_byte_iff h (by omega) (by omega) (by omega)
  constructor
  · intro hr l hl
    obtain ⟨i, hi, hil⟩ := exists_byte_in_page hsize hl
    have := (hbyte i hi).1 (hr i hi)
    rwa [hil] at this
  · exact fun hr i hi => (hbyte i hi).2 (hr _ (by unfold touchedPages; omega))

/-- Two pages less than `2^48` bytes apart are not the same. -/
theorem pageNumber_pageAt_inj {i j : Nat} (ha : 4096 ∣ virt.toNat) (hi : virt.toNat + i * 4096 < 2 ^ 64)
    (hj : virt.toNat + j * 4096 < 2 ^ 64) (hi' : i < 2 ^ 36) (hj' : j < 2 ^ 36)
    (h : Mem.pageNumber (pageAt virt i) = Mem.pageNumber (pageAt virt j)) : i = j := by
  unfold Mem.pageNumber at h
  rw [pageAt_toNat hi, pageAt_toNat hj] at h
  omega

/-- Where `map_range` ended with success or at a page that was mapped already: the pages before are mapped
now, and the page it ended at was mapped before. -/
theorem mapRange_stops {r : Except PagingError Unit} (h : PageTables s free) (hva : 4096 ∣ virt.toNat)
    (hpa : 4096 ∣ phys.toNat) (hv : virt.toNat + size.toNat ≤ 2 ^ 64) (hp : phys.toNat + size.toNat ≤ 2 ^ 52)
    (hf : fl &&& ADDR_MASK = 0#64) (hwrap : pageCount size ≤ 2 ^ 36)
    (hx : (mapRange virt phys size fl).exec s = .ok (r, s')) (hr : r = .ok () ∨ r = .error .alreadyMapped) :
    ∃ k ≤ pageCount size, PagesMapped s s' virt phys fl k ∧ (∃ free', PageTables s' free') ∧
      (k < pageCount size → s.abs (pageAt virt k) ≠ none) := by
  rcases hr with rfl | rfl
  · rcases mapPages_spec h hpa (pages_fit hv (Nat.le_refl _)) (pages_fit hp (Nat.le_refl _)) hf with
      ⟨s₁, hx₁, h₁, hm⟩ | ⟨e, s₁, hx₁, -⟩
    · rw [mapRange, hx₁] at hx
      cases hx
      exact ⟨_, Nat.le_refl _, hm, h₁, fun hlt => absurd hlt (Nat.lt_irrefl _)⟩
    · rw [mapRange, hx₁] at hx
      cases hx
  · obtain ⟨k, hk⟩ := (mapRange_error_iff h hpa hv hp hf _ _).1 hx
    obtain ⟨s₁, free₁, free', -, -, -, h', hm₁, hm, hs⟩ := hk.spec h hpa hv hp hf
    have hlt := hk.1
    have hin : ∀ i ≤ k, virt.toNat + i * 4096 < 2 ^ 64 := fun i hi => pages_fit hv (Nat.le_refl _) i (by omega)
    refine ⟨k, Nat.le_of_lt hlt, hm, ⟨free', h'⟩, fun _ => ?_⟩
    -- the page is none of those that were mapped first
    rw [← hm₁.others]
    · exact hs.already_iff.1 rfl
    · intro i hi he
      have := pageNumber_pageAt_inj hva (hin k (Nat.le_refl k)) (hin i (Nat.le_of_lt hi)) (by omega) (by omega) he
      omega

/-- A range that is mapped page by page is no longer than the address space. -/
theorem pages_le_of_mapped {n : Nat} (hv : ∀ l < n, virt.toNat + l * 4096 < 2 ^ 64)
    (hp : ∀ l < n, phys.toNat + l * 4096 < 2 ^ 64)
    (hall : ∀ l < n, ∃ fl, s.abs (pageAt virt l) = some (pageAt phys l, fl)) : n ≤ 2 ^ 36 := by
  -- page `2 ^ 36` would be page 0 again
  by_contra hlong
  obtain ⟨fl₀, h0⟩ := hall 0 (by omega)
  obtain ⟨fl₁, h1⟩ := hall (2 ^ 36) (by omega)
  have hsame : Mem.pageNumber (pageAt virt 0) = Mem.pageNumber (pageAt virt (2 ^ 36)) := by
    unfold Mem.pageNumber
    rw [pageAt_toNat (hv 0 (by omega)), pageAt_toNat (hv _ (by omega))]
    omega
  rw [abs_of_pageNumber s hsame, h1] at h0
  have heq := congrArg BitVec.toNat (Prod.mk.inj (Option.some.inj h0)).1
  rw [pageAt_toNat (hp _ (by omega)), pageAt_toNat (hp 0 (by omega))] at heq
  omega

/-- After `map_mmio_range` returned, the range is reached exactly if it does not wrap around the address
space and no page of it was unmapped that lies after a page that was mapped, or after the pages counted. -/
theorem mapMmioRange_reaches_iff (h : PageTables s free) (ho : s.hhdm = some off) (hoff : 4096 ∣ off)
    (hsize : 0 < size.toNat) (hp : phys.toNat + size.toNat ≤ 2 ^ 52) (hfit : off + phys.toNat + size.toNat ≤ 2 ^ 64)
    (hown : ∀ l < touchedPages phys size, ∀ q fl, s.abs (pageAt (hhdmAddr off (pageBase phys)) l) = some (q, fl) →
      q = pageAt (pageBase phys) l)
    {v : BitVec 64} (hrun : (mapMmioRange phys size).run s = .ok (v, s')) :
    RangeReached s' off phys size ↔ touchedPages phys size ≤ 2 ^ 36 ∧
      ∀ l < touchedPages phys size,
        (pageCount size ≤ l ∨ ∃ k ≤ l, s.abs (pageAt (hhdmAddr off (pageBase phys)) k) ≠ none) →
          s.abs (pageAt (hhdmAddr off (pageBase phys)) l) ≠ none := by
  obtain ⟨rfl, r, hx, hr⟩ := (mapMmio_returns_iff ho).1 hrun
  have hle := pageBase_le phys
  have hbase := Mem.pageBase_toNat phys
  have hvirt : (hhdmAddr off (pageBase phys)).toNat = off + (pageBase phys).toNat := hhdmAddr_toNat (by omega)
  have hva : 4096 ∣ (hhdmAddr off (pageBase phys)).toNat := by omega
  have hv : (hhdmAddr off (pageBase phys)).toNat + size.toNat ≤ 2 ^ 64 := by omega
  have hp' : (pageBase phys).toNat + size.toNat ≤ 2 ^ 52 := by omega
  have hlt : ∀ l < touchedPages phys size, (hhdmAddr off (pageBase phys)).toNat + l * 4096 < 2 ^ 64 := by
    intro l hl
    unfold touchedPages at hl
    omega
  have hcount : pageCount size ≤ touchedPages phys size := by
    unfold pageCount touchedPages PAGE_SIZE
    omega
  have hf : (flags.WRITABLE ||| flags.NO_CACHE) &&& ADDR_MASK = 0#64 := by decide
  obtain ⟨r', s₁, hx₁, ⟨free', h'⟩, -⟩ := mapRange_spec h hva (pageBase_dvd phys) hv hp' hf
  rw [hx] at hx₁
  cases hx₁
  rw [rangeReached_iff h' hoff hsize hfit]
  constructor
  · intro hall
    have hwrap := pages_le_of_mapped hlt (fun l hl => by have := hlt l hl; omega) hall
    obtain ⟨k, hk, hm, -, -⟩ := mapRange_stops h hva (pageBase_dvd phys) hv hp' hf (by omega) hx hr
    refine ⟨hwrap, fun l hl hcase => ?_⟩
    -- page `l` is not one of those that this call mapped, so it was mapped before
    have hkl : k ≤ l := by
      rcases hcase with hn | ⟨k', hk', hne⟩
      · omega
      · by_contra hlk
        exact hne (hm.fresh k' (by omega))
    obtain ⟨fl', hfl⟩ := hall l hl
    rw [hm.others] at hfl
    · rw [hfl]
      exact Option.some_ne_none _
    · intro i hi he
      have := pageNumber_pageAt_inj hva (hlt l hl) (hlt i (by omega)) (by omega) (by omega) he
      omega
  · rintro ⟨hwrap, hcond⟩ l hl
    obtain ⟨k, hk, hm, -, hstop⟩ := mapRange_stops h hva (pageBase_dvd phys) hv hp' hf (by omega) hx hr
    by_cases hlk : l < k
    · exact ⟨_, hm.mapped l hlk⟩
    · -- a page from the one on that ended the loop
      have hne : s.abs (pageAt (hhdmAddr off (pageBase phys)) l) ≠ none := by
        apply hcond l hl
        by_cases hkn : k < pageCount size
        · exact .inr ⟨k, by omega, hstop hkn⟩
        · exact .inl (by omega)
      obtain ⟨⟨q, fl'⟩, hq⟩ := Option.ne_none_iff_exists'.1 hne
      rw [hm.others, hq, hown l hl q fl' hq]
      · exact ⟨fl', rfl⟩
      · intro i hi he
        have := pageNumber_pageAt_inj hva (hlt l hl) (hlt i (by omega)) (by omega) (by omega) he
        omega

/-- `map_mmio_range` returns the address of the range with every byte reached exactly if the range starts
a page, is no longer than the address space, and once a page of it is mapped all later ones are. -/
theorem mapMmioRange_covers_iff (h : PageTables s free) (ho : s.hhdm = some off) (hoff : 4096 ∣ off)
    (hsize : 0 < size.toNat) (hp : phys.toNat + size.toNat ≤ 2 ^ 52) (hfit : off + phys.toNat + size.toNat ≤ 2 ^ 64)
    (hown : ∀ i < size.toNat, ∀ q fl, s.abs (hhdmAddr off (phys + BitVec.ofNat 64 i)) = some (q, fl) →
      q = pageBase (phys + BitVec.ofNat 64 i))
    {v : BitVec 64} (hrun : (mapMmioRange phys size).run s = .ok (v, s')) :
    (v = hhdmAddr off phys ∧ RangeReached s' off phys size) ↔ 4096 ∣ phys.toNat ∧ size.toNat ≤ 2 ^ 48 ∧
      ∀ k l, k < l → l < pageCount size → s.abs (hhdmAddr off (pageAt phys k)) ≠ none →
        s.abs (hhdmAddr off (pageAt phys l)) ≠ none := by
  obtain ⟨hv, -⟩ := (mapMmio_returns_iff ho).1 hrun
  have hbase := Mem.pageBase_toNat phys
  have hvirt : (hhdmAddr off (pageBase phys)).toNat = off + (pageBase phys).toNat := hhdmAddr_toNat (by omega)
  -- the pages of the range are those of its bytes
  have hpages : ∀ l < touchedPages phys size, ∀ q fl, s.abs (pageAt (hhdmAddr off (pageBase phys)) l) = some (q, fl) →
      q = pageAt (pageBase phys) l := by
    intro l hl q fl hq
    obtain ⟨i, hi, rfl⟩ := exists_byte_in_page hsize hl
    have hown := hown i hi q fl
    rw [byte_from_pageBase, hhdmAddr_add (by omega), abs_of_pageNumber s (pageNumber_byte (by omega) (by omega)),
      pageBase_byte (pageBase_dvd phys) (by omega)] at hown
    exact hown hq
  rw [hv, hhdmAddr_pageBase_eq_iff (by omega), mapMmioRange_reaches_iff h ho hoff hsize hp hfit hpages hrun]
  refine and_congr_right fun ha => ?_
  have hcount : touchedPages phys size = pageCount size := by
    unfold touchedPages pageCount PAGE_SIZE
    omega
  have hsizes : touchedPages phys size ≤ 2 ^ 36 ↔ size.toNat ≤ 2 ^ 48 := by
    unfold touchedPages
    omega
  have hpage : ∀ l < pageCount size, pageAt (hhdmAddr off phys) l = hhdmAddr off (pageAt phys l) := by
    intro l hl
    have := page_lt_of_lt_pageCount hl
    unfold pageAt PAGE_SIZE
    rw [hhdmAddr_add (by omega)]
  rw [hsizes, hcount, pageBase_of_aligned ha]
  refine and_congr_right fun _ => ?_
  constructor
  · intro hcond k l hkl hl hk
    rw [← hpage l hl]
    exact hcond l hl (.inr ⟨k, Nat.le_of_lt hkl, by rw [hpage k (by omega)]; exact hk⟩)
  · rintro hcond l hl (hn | ⟨k, hkl, hk⟩)
    · omega
    · rcases Nat.lt_or_eq_of_le hkl with hlt | rfl
      · rw [hpage k (by omega)] at hk
        rw [hpage l hl]
        exact hcond k l hlt hl hk
      · exact hk

end Range

/-! ## One page of registers -/

section Page

variable {s s' : Mem} {free : List Nat} {off : Nat} {phys v : BitVec 64}

/-- The entry of a page of registers: its own frame, writable and uncached. -/
def mmioEntry (phys : BitVec 64) : BitVec 64 × BitVec 64 := (pageBase phys, mmioFlags ||| flags.PRESENT)

@[simp] theorem mmioEntry_pageBase (p : BitVec 64) : mmioEntry (pageBase p) = mmioEntry p := by
  rw [mmioEntry, mmioEntry, pageBase_of_aligned (pageBase_dvd p)]

/-- A mapped page is not mapped again. -/
theorem mapPage_already (h : PageTables s free) (ha : s.abs v ≠ none) (p fl : BitVec 64) :
    (mapPage v p fl).exec s = .ok (.error .alreadyMapped, s) := by
  obtain ⟨r, s₁, free₁, hx, -, hr⟩ := mapPage_run h v p fl
  cases hr with
  | huge hh => exact absurd (abs_of_huge hh) ha
  | already => exact hx
  | exhausted _ ha' => exact absurd ha' ha
  | mapped _ ha' => exact absurd ha' ha

/-- After `map_mmio_page` returned, the page of the registers is mapped as it should be, if it was not mapped
otherwise before, and no other page has changed. -/
structure MmioPageSpec (s s' : Mem) (off : Nat) (phys v : BitVec 64) : Prop where
  addr : v = hhdmAddr off (pageBase phys)
  tables : ∃ free', PageTables s' free'
  boot : s.SameBoot s'
  mapped : (∀ x, s.abs v = some x → x = mmioEntry phys) → s'.abs v = some (mmioEntry phys)
  others : ∀ u, Mem.pageNumber u ≠ Mem.pageNumber v → s'.abs u = s.abs u
  huge : ∀ u, s'.HugeOnPath u ↔ s.HugeOnPath u

theorem mapMmioPage_spec (h : PageTables s free) (ho : s.hhdm = some off) (hp : phys.toNat < 2 ^ 52)
    (hrun : (mapMmioPage phys).run s = .ok (v, s')) : MmioPageSpec s s' off phys v := by
  obtain ⟨rfl, r, hx, hr⟩ := (mapMmio_returns_iff ho).1 hrun
  have hle := pageBase_le phys
  obtain ⟨r', s₁, free₁, hx₁, h₁, hm⟩ := mapPage_run h (hhdmAddr off (pageBase phys)) (pageBase phys)
    (flags.WRITABLE ||| flags.NO_CACHE)
  have hs := hm.spec (by omega) (by decide)
  rw [hx] at hx₁
  cases hx₁
  rcases hr with rfl | rfl
  · -- a first call
    have habs := hs.mapped rfl
    constructor
    · rfl
    · exact ⟨free₁, h₁⟩
    · exact hm.boot
    · intro _
      rw [habs, if_pos rfl, pageBase_of_aligned (pageBase_dvd phys)]
      rfl
    · exact fun u hu => by rw [habs, if_neg hu]
    · exact hs.huge
  · -- `AlreadyMapped` counts as success: the page keeps its entry
    have habs := hs.failed (by simp)
    constructor
    · rfl
    · exact ⟨free₁, h₁⟩
    · exact hm.boot
    · intro hown
      obtain ⟨x, hx'⟩ := Option.ne_none_iff_exists'.1 (hs.already_iff.1 rfl)
      rw [habs, hx', hown x hx']
    · exact fun u _ => habs u
    · exact hs.huge

/-- A second call returns the same address and changes nothing. -/
theorem mapMmioPage_again (h : PageTables s free) (ho : s.hhdm = some off)
    (ha : s.abs (hhdmAddr off (pageBase phys)) ≠ none) :
    (mapMmioPage phys).run s = .ok (hhdmAddr off (pageBase phys), s) :=
  (mapMmio_returns_iff ho).2 ⟨rfl, _, mapPage_already h ha _ _, .inr rfl⟩

end Page

/-! ## States whose window holds pages of registers only -/

/-- Every mapped page of the window is mapped to its own frame, writable and uncached. -/
def MmioWindow (s : Mem) (off : Nat) : Prop := ∀ p : BitVec 64, p.toNat < 2 ^ 52 → off + p.toNat < 2 ^ 64 →
  ∀ x, s.abs (hhdmAddr off p) = some x → x = mmioEntry p

/-- A call of `map_mmio_page` that returned, or anything else that leaves the pages of the window as they are. -/
inductive MmioStep (off : Nat) : Mem → Mem → Prop
  | mmio {s s' : Mem} {p v : BitVec 64} (hp : p.toNat < 2 ^ 52) (hfit : off + p.toNat < 2 ^ 64)
      (h : (mapMmioPage p).run s = .ok (v, s')) : MmioStep off s s'
  | other {s s' : Mem} (hb : s.SameBoot s') (ht : ∃ free, PageTables s' free)
      (h : ∀ p : BitVec 64, p.toNat < 2 ^ 52 → off + p.toNat < 2 ^ 64 →
        s'.abs (hhdmAddr off p) = s.abs (hhdmAddr off p)) :
      MmioStep off s s'

/-- Well-formed tables whose window holds pages of registers only. -/
structure MmioState (s : Mem) (off : Nat) : Prop where
  tables : ∃ free, PageTables s free
  hhdm : s.hhdm = some off
  window : MmioWindow s off

section Window

variable {s₀ s s' : Mem} {off : Nat}

/-- In a window that lies in the upper half of the address space, one page is seen at one place. -/
theorem pageBase_of_window {p q : BitVec 64} (hoff : 4096 ∣ off) (hhigh : 2 ^ 64 ≤ off + 2 ^ 48)
    (hp : off + p.toNat < 2 ^ 64) (hq : off + q.toNat < 2 ^ 64)
    (h : Mem.pageNumber (hhdmAddr off p) = Mem.pageNumber (hhdmAddr off q)) : pageBase p = pageBase q := by
  unfold Mem.pageNumber at h
  rw [hhdmAddr_toNat hp, hhdmAddr_toNat hq] at h
  apply BitVec.eq_of_toNat_eq
  rw [Mem.pageBase_toNat, Mem.pageBase_toNat]
  omega

theorem mmioState_step (hoff : 4096 ∣ off) (hhigh : 2 ^ 64 ≤ off + 2 ^ 48) (h : MmioState s off)
    (hs : MmioStep off s s') : MmioState s' off := by
  obtain ⟨⟨free, ht⟩, ho, hw⟩ := h
  cases hs with
  | @mmio p v hp hfit hrun =>
    have hspec := mapMmioPage_spec ht ho hp hrun
    have hle := pageBase_le p
    refine ⟨hspec.tables, hspec.boot.hhdm.trans ho, fun q hq hq' x hx => ?_⟩
    by_cases hpage : Mem.pageNumber (hhdmAddr off q) = Mem.pageNumber v
    · -- the page of this call
      have hv := hspec.addr
      have hbase : pageBase q = pageBase p := by
        rw [hv] at hpage
        have := pageBase_of_window hoff hhigh hq' (by omega) hpage
        rwa [pageBase_of_aligned (pageBase_dvd p)] at this
      have hown := hspec.mapped fun y hy => by
        rw [hv] at hy
        have := hw (pageBase p) (by omega) (by omega) y hy
        rwa [mmioEntry_pageBase] at this
      rw [abs_of_pageNumber s' hpage, hown] at hx
      rw [← Option.some.inj hx, mmioEntry, mmioEntry, hbase]
    · rw [hspec.others _ hpage] at hx
      exact hw q hq hq' x hx
  | other hb ht' hsame => exact ⟨ht', hb.hhdm.trans ho, fun q hq hq' x hx => hw q hq hq' x (hsame q hq hq' ▸ hx)⟩

/-- From a state with nothing mapped in the window on, it holds pages of registers only. -/
theorem mmioState_run (hoff : 4096 ∣ off) (hhigh : 2 ^ 64 ≤ off + 2 ^ 48) (ht : ∃ free, PageTables s₀ free)
    (ho : s₀.hhdm = some off)
    (hempty : ∀ p : BitVec 64, p.toNat < 2 ^ 52 → off + p.toNat < 2 ^ 64 → s₀.abs (hhdmAddr off p) = none)
    (hr : Relation.ReflTransGen (MmioStep off) s₀ s) : MmioState s off := by
  induction hr with
  | refl =>
    refine ⟨ht, ho, fun p hp hp' x hx => ?_⟩
    rw [hempty p hp hp'] at hx
    cases hx
  | tail _ hs ih => exact mmioState_step hoff hhigh ih hs

end Window

/-! ## With a first page -/

/-- A window at the start of the upper half of the address space. -/
theorem emptyTables_mmioState : MmioState emptyTables 0xffff800000000000 :=
  mmioState_run (by decide) (by decide) ⟨_, emptyTables_free⟩ rfl (fun p _ _ => (emptyTables_unmapped _).1) .refl

/-- A first page of registers can be mapped. -/
theorem emptyTables_mapMmioPage {phys : BitVec 64} (hp : phys.toNat < 2 ^ 52) :
    ∃ s', (mapMmioPage phys).run emptyTables = .ok (hhdmAddr 0xffff800000000000 (pageBase phys), s') ∧
      MmioPageSpec emptyTables s' 0xffff800000000000 phys (hhdmAddr 0xffff800000000000 (pageBase phys)) := by
  have hle := pageBase_le phys
  obtain ⟨s', free', hx, -, -⟩ := @emptyTables_mapPage (hhdmAddr 0xffff800000000000 (pageBase phys)) (pageBase phys)
    (flags.WRITABLE ||| flags.NO_CACHE) (by omega) (by decide)
  have hrun : (mapMmioPage phys).run emptyTables = .ok (hhdmAddr 0xffff800000000000 (pageBase phys), s') :=
    (mapMmio_returns_iff rfl).2 ⟨rfl, _, hx, .inl rfl⟩
  exact ⟨s', hrun, mapMmioPage_spec emptyTables_free rfl hp hrun⟩

/-- After `map_mmio_page` of a page, `map_mmio_range` from this page on returns at once. -/
theorem emptyTables_mapMmioRange (size : BitVec 64) (hsize : 0 < size.toNat) (hmax : size.toNat ≤ 0x10000) :
    ∃ s, MmioState s 0xffff800000000000 ∧ s.abs (hhdmAddr 0xffff800000000000 0xfee00000#64) ≠ none ∧
      s.abs (hhdmAddr 0xffff800000000000 0xfee01000#64) = none ∧
      (mapMmioRange 0xfee00000#64 size).run s = .ok (hhdmAddr 0xffff800000000000 0xfee00000#64, s) := by
  obtain ⟨s, hrun, -, ⟨free, ht⟩, hboot, hmapped, hothers, -⟩ := @emptyTables_mapMmioPage 0xfee00000#64 (by decide)
  have hbase : pageBase 0xfee00000#64 = 0xfee00000#64 := by decide
  have hphys : (0xfee00000#64).toNat = 0xfee00000 := by decide
  have hvirt : (hhdmAddr 0xffff800000000000 0xfee00000#64).toNat = 0xffff8000fee00000 := by decide
  rw [hbase] at hmapped hothers
  have hone : s.abs (hhdmAddr 0xffff800000000000 0xfee00000#64) ≠ none := by
    rw [hmapped fun x hx => by rw [(emptyTables_unmapped _).1] at hx; cases hx]
    exact Option.some_ne_none _
  have hfirst : FirstFailure s (hhdmAddr 0xffff800000000000 0xfee00000#64) 0xfee00000#64 size
      (flags.WRITABLE ||| flags.NO_CACHE) 0 .alreadyMapped s := by
    refine ⟨?_, s, rfl, ?_⟩
    · unfold pageCount PAGE_SIZE
      omega
    · rw [pageAt_zero]
      exact mapPage_already ht hone _ _
  have hrange := (mapRange_error_iff ht (by decide) (by omega) (by omega) (by decide) _ _).2 ⟨0, hfirst⟩
  refine ⟨s, ?_, hone, ?_, (mapMmio_returns_iff hboot.hhdm).2 ⟨?_, _, ?_, .inr rfl⟩⟩
  · exact mmioState_step (by decide) (by decide) emptyTables_mmioState (.mmio (by decide) (by decide) hrun)
  · rw [hothers _ (by decide)]
    exact (emptyTables_unmapped _).1
  · rw [hbase]
  · rw [hbase]
    exact hrange

/-- One page and a half of registers, none of it mapped before. -/
theorem mapMmioRange_covers_emptyTables :
    ∃ s', (mapMmioRange 0xfee00000#64 0x1800#64).run emptyTables = .ok (hhdmAddr 0xffff800000000000 0xfee00000#64, s') ∧
      RangeReached s' 0xffff800000000000 0xfee00000#64 0x1800#64 := by
  have hbase : pageBase 0xfee00000#64 = 0xfee00000#64 := by decide
  obtain ⟨s', hx⟩ := @emptyTables_mapRange (hhdmAddr 0xffff800000000000 0xfee00000#64) 0xfee00000#64 0x1800#64
    (flags.WRITABLE ||| flags.NO_CACHE) (by decide) (by decide) (by decide) (by decide) (by decide)
      (by decide) (by decide)
  have hrun : (mapMmioRange 0xfee00000#64 0x1800#64).run emptyTables =
    .ok (hhdmAddr 0xffff800000000000 0xfee00000#64, s') := by
    refine (mapMmio_returns_iff rfl).2 ⟨by rw [hbase], .ok (), ?_, .inl rfl⟩
    rw [hbase]
    exact hx
  have hcovers := mapMmioRange_covers_iff emptyTables_free rfl (by decide) (by decide) (by decide) (by decide)
    (fun i _ q fl hq => by rw [(emptyTables_unmapped _).1] at hq; cases hq) hrun
  exact ⟨s', hrun, (hcovers.2 ⟨by decide, by decide, fun k l _ _ hk => absurd (emptyTables_unmapped _).1 hk⟩).2⟩

/-- Not every byte of a range is reached: where the first of two pages is mapped already, the second one is not
mapped. -/
theorem mapMmioRange_skips :
    ¬ ∀ (s s' : Mem) (off : Nat) (phys size v : BitVec 64), MmioState s off → 4096 ∣ off → 0 < size.toNat →
      phys.toNat + size.toNat ≤ 2 ^ 52 → off + phys.toNat + size.toNat ≤ 2 ^ 64 →
      (mapMmioRange phys size).run s = .ok (v, s') → v = hhdmAddr off phys ∧ RangeReached s' off phys size := by
  intro hall
  obtain ⟨s, hs, -, hnone, hrun⟩ := emptyTables_mapMmioRange 0x2000#64 (by decide) (by decide)
  obtain ⟨-, hreach⟩ := hall s s _ _ _ _ hs (by decide) (by decide) (by decide) (by decide) hrun
  obtain ⟨free, ht⟩ := hs.tables
  -- the first byte of the second page
  have hbyte := hreach 0x1000 (by decide)
  have haddr : 0xfee00000#64 + BitVec.ofNat 64 0x1000 = 0xfee01000#64 := by decide
  obtain ⟨e, he⟩ := translate_of_abs_none ht hnone
  rw [haddr, he] at hbyte
  cases hbyte

end Octagram.Memory

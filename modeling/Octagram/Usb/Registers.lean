/-
`XHCI::new`: the registers of the controller, mapped page by page and then read and written at
`virt_base` plus their offset in BAR 0. Every byte of the BAR is found there exactly if the BAR
starts a page, since `map_mmio_page` returns the address of the page (`mapMmioPage_registers`). The
invariant of the loop is `BarPages`: so many pages of the BAR are mapped as they should be, and none
of the others is mapped otherwise.
-/
import Octagram.Memory.Mmio

namespace Octagram.Usb

open Octagram.Lib Octagram.Memory

/-- Round `i` of the loop of `XHCI::new`. -/
def mapBarPage (barAddress : BitVec 64) (i : Nat) : MemM Unit := do
  let addr ← addU64 barAddress (BitVec.ofNat 64 ((i + 1) * 0x1000))
  let _ ← mapMmioPage addr

/-- `XHCI::new`, with `get_bar0_size(dev)` for `bar_size`: the result is `virt_base`. -/
def xhciNew (barAddress barSize : BitVec 64) : MemM (BitVec 64) := do
  if barSize.toNat > 0 ∧ barSize.toNat < 0x10000000 then
    let pageCount := (barSize.toNat + 0xFFF) / 0x1000
    let virtBase ← mapMmioPage barAddress
    forM (List.range (pageCount - 1)) (mapBarPage barAddress)
    pure virtBase
  else
    throw ("BAR size mencurigakan: " ++ hexAddr barSize)

/-- What `map_mmio_page` promises of the register at `phys`: the address it returns is the register's, its
page is writable and uncached, no other page has changed, and a second call returns the same address and
changes nothing. -/
structure RegisterPage (s s' : Mem) (phys v : BitVec 64) : Prop where
  translated : (Memory.translate v).exec s' = .ok (.ok phys, s')
  entry : ∃ q fl, s'.abs v = some (q, fl) ∧ fl &&& flags.WRITABLE ≠ 0 ∧ fl &&& flags.NO_CACHE ≠ 0
  others : ∀ u, Mem.pageNumber u ≠ Mem.pageNumber v → s'.abs u = s.abs u ∧
    ∃ r, (Memory.translate u).exec s = .ok (r, s) ∧ (Memory.translate u).exec s' = .ok (r, s')
  again : (mapMmioPage phys).run s' = .ok (v, s')

/-- Every byte of the BAR is found at `virt_base` plus its offset. -/
def BarReached (s : Mem) (barAddress barSize virtBase : BitVec 64) : Prop :=
  ∀ o < barSize.toNat,
    (Memory.translate (virtBase + BitVec.ofNat 64 o)).exec s = .ok (.ok (barAddress + BitVec.ofNat 64 o), s)

section Registers

variable {s s' : Mem} {off : Nat} {phys barAddress barSize v : BitVec 64}

/-- The address of a page of registers is translated to the start of its page. -/
theorem translate_mmioEntry {free : List Nat} (h : PageTables s free) (hoff : 4096 ∣ off)
    (hfit : off + phys.toNat < 2 ^ 64) (ha : s.abs (hhdmAddr off (pageBase phys)) = some (mmioEntry phys)) :
    (Memory.translate (hhdmAddr off (pageBase phys))).exec s = .ok (.ok (pageBase phys), s) := by
  have hle := pageBase_le phys
  have hbase := pageBase_dvd phys
  have hzero : pageOffset (hhdmAddr off (pageBase phys)) = 0#64 := by
    apply BitVec.eq_of_toNat_eq
    rw [pageOffset_toNat, hhdmAddr_toNat (by omega), BitVec.toNat_zero]
    omega
  rw [translate_of_abs h ha, hzero, BitVec.add_zero]

/-- The window holds the page of a call as it should be, or not at all. -/
theorem own_of_window (hw : MmioWindow s off) (hp : phys.toNat < 2 ^ 52) (hfit : off + phys.toNat < 2 ^ 64)
    (x : BitVec 64 × BitVec 64) (hx : s.abs (hhdmAddr off (pageBase phys)) = some x) : x = mmioEntry phys := by
  have hle := pageBase_le phys
  have := hw (pageBase phys) (by omega) (by omega) x hx
  rwa [mmioEntry_pageBase] at this

/-- `map_mmio_page` returns the address of the register exactly if the register starts its page. -/
theorem registerPage_iff (h : MmioState s off) (hoff : 4096 ∣ off) (hp : phys.toNat < 2 ^ 52)
    (hfit : off + phys.toNat < 2 ^ 64) (hrun : (mapMmioPage phys).run s = .ok (v, s')) :
    RegisterPage s s' phys v ↔ 4096 ∣ phys.toNat := by
  obtain ⟨⟨free, ht⟩, ho, hw⟩ := h
  obtain ⟨rfl, ⟨free', ht'⟩, hboot, hmapped, hothers, hhuge⟩ := mapMmioPage_spec ht ho hp hrun
  have habs := hmapped (own_of_window hw hp hfit)
  have htr := translate_mmioEntry ht' hoff hfit habs
  rw [← pageBase_eq_iff]
  constructor
  · intro hreg
    have := hreg.translated
    rw [htr] at this
    exact Except.ok.inj (Prod.mk.inj (Except.ok.inj this)).1
  · intro hbase
    constructor
    · rw [htr, hbase]
    · exact ⟨_, _, habs, by decide, by decide⟩
    · exact fun u hu => ⟨hothers u hu, translate_congr ht ht' (hothers u hu) (hhuge u)⟩
    · exact mapMmioPage_again ht' (hboot.hhdm.trans ho) (by rw [habs]; exact Option.some_ne_none _)

/-! ## The pages of the BAR -/

/-- The first `k` pages of the BAR are mapped as they should be, and the first `n` are not mapped otherwise. -/
structure BarPages (s : Mem) (off : Nat) (barAddress : BitVec 64) (n k : Nat) : Prop where
  tables : ∃ free, PageTables s free
  hhdm : s.hhdm = some off
  own : ∀ i < n, ∀ x, s.abs (hhdmAddr off (pageAt (pageBase barAddress) i)) = some x →
    x = mmioEntry (pageAt (pageBase barAddress) i)
  mapped : ∀ i < k, s.abs (hhdmAddr off (pageAt (pageBase barAddress) i)) =
    some (mmioEntry (pageAt (pageBase barAddress) i))

/-- Page `i` of the BAR, counted from its address or from the start of its first page. -/
theorem pageBase_pageAt {i : Nat} (h : barAddress.toNat + i * 4096 < 2 ^ 64) :
    pageBase (pageAt barAddress i) = pageAt (pageBase barAddress) i := by
  have hbase := Mem.pageBase_toNat barAddress
  apply BitVec.eq_of_toNat_eq
  rw [Mem.pageBase_toNat, pageAt_toNat h, pageAt_toNat (by omega), hbase]
  omega

/-- `map_mmio_page` maps one page of the BAR. -/
theorem BarPages.succ {n k : Nat} (h : BarPages s off barAddress n k) (hk : k < n) (hoff : 4096 ∣ off) (hn : n ≤ 2 ^ 36)
    (hp : ∀ i < n, barAddress.toNat + i * 4096 < 2 ^ 52)
    (hfit : ∀ i < n, off + (pageBase barAddress).toNat + i * 4096 < 2 ^ 64)
    (hrun : (mapMmioPage (pageAt barAddress k)).run s = .ok (v, s')) : BarPages s' off barAddress n (k + 1) := by
  obtain ⟨⟨free, ht⟩, ho, hown, hmapped⟩ := h
  have hle := pageBase_le barAddress
  have hpage : ∀ i < n, (pageAt barAddress i).toNat = barAddress.toNat + i * 4096 :=
    fun i hi => pageAt_toNat (by have := hp i hi; omega)
  have hbase : ∀ i < n, (pageAt (pageBase barAddress) i).toNat = (pageBase barAddress).toNat + i * 4096 :=
    fun i hi => pageAt_toNat (by have := hp i hi; omega)
  have hentry : ∀ i < n, pageBase (pageAt barAddress i) = pageAt (pageBase barAddress) i :=
    fun i hi => pageBase_pageAt (by have := hp i hi; omega)
  obtain ⟨rfl, ht', hboot, hone, hothers, -⟩ := mapMmioPage_spec ht ho (by rw [hpage k hk]; exact hp k hk) hrun
  rw [hentry k hk] at hone hothers
  rw [← mmioEntry_pageBase (pageAt barAddress k), hentry k hk] at hone
  -- no other page of the BAR changes
  have hkeep : ∀ i < n, i ≠ k → s'.abs (hhdmAddr off (pageAt (pageBase barAddress) i)) =
      s.abs (hhdmAddr off (pageAt (pageBase barAddress) i)) := by
    intro i hi hne
    refine hothers _ fun he => hne ?_
    have h1 := hfit i hi
    have h2 := hfit k hk
    unfold Mem.pageNumber at he
    rw [hhdmAddr_toNat (by rw [hbase i hi]; omega), hhdmAddr_toNat (by rw [hbase k hk]; omega), hbase i hi,
      hbase k hk] at he
    omega
  have hk' := hone (hown k hk)
  refine ⟨ht', hboot.hhdm.trans ho, fun i hi x hx => ?_, fun i hi => ?_⟩
  · by_cases hik : i = k
    · rw [hik, hk'] at hx
      rw [← Option.some.inj hx, hik]
    · rw [hkeep i hi hik] at hx
      exact hown i hi x hx
  · by_cases hik : i = k
    · rw [hik, hk']
    · rw [hkeep i (by omega) hik]
      exact hmapped i (by omega)

/-- After `XHCI::new` returned, the pages of the BAR are mapped. -/
theorem xhciNew_pages (h : MmioState s off) (hoff : 4096 ∣ off)
    (hp : (pageBase barAddress).toNat + pageCount barSize * 4096 ≤ 2 ^ 52)
    (hfit : off + (pageBase barAddress).toNat + pageCount barSize * 4096 ≤ 2 ^ 64)
    (hrun : (xhciNew barAddress barSize).run s = .ok (v, s')) :
    0 < barSize.toNat ∧ v = hhdmAddr off (pageBase barAddress) ∧
      BarPages s' off barAddress (pageCount barSize) (pageCount barSize) := by
  obtain ⟨⟨free, ht⟩, ho, hw⟩ := h
  have hle := pageBase_le barAddress
  unfold xhciNew at hrun
  split at hrun
  · rename_i hsize
    obtain ⟨hpos, hmax⟩ := hsize
    have hcount : (barSize.toNat + 0xFFF) / 0x1000 = pageCount barSize := rfl
    have hn : 0 < pageCount barSize ∧ pageCount barSize ≤ 2 ^ 16 := by
      unfold pageCount PAGE_SIZE
      omega
    have hbase := Mem.pageBase_toNat barAddress
    have hpages : ∀ i < pageCount barSize, barAddress.toNat + i * 4096 < 2 ^ 52 := fun i hi => by omega
    have hfits : ∀ i < pageCount barSize, off + (pageBase barAddress).toNat + i * 4096 < 2 ^ 64 := fun i hi => by omega
    have hstep : ∀ k < pageCount barSize, ∀ s₁ s₂ u, BarPages s₁ off barAddress (pageCount barSize) k →
        (mapMmioPage (pageAt barAddress k)).run s₁ = .ok (u, s₂) →
          BarPages s₂ off barAddress (pageCount barSize) (k + 1) :=
      fun k hk s₁ s₂ u h hr => h.succ hk hoff (by omega) hpages hfits hr
    -- the window holds pages of registers only, so no page of the BAR is mapped otherwise
    have hstart : BarPages s off barAddress (pageCount barSize) 0 := by
      refine ⟨⟨free, ht⟩, ho, fun i hi x hx => ?_, fun i hi => absurd hi (Nat.not_lt_zero i)⟩
      have := hpages i hi
      have := hfits i hi
      have hbase : (pageAt (pageBase barAddress) i).toNat = (pageBase barAddress).toNat + i * 4096 :=
        pageAt_toNat (by omega)
      exact hw _ (by omega) (by omega) x hx
    rw [hcount] at hrun
    obtain ⟨u, s₁, hfirst, hrest⟩ := run_bind_eq_ok hrun
    obtain ⟨done, s₂, hloop, hlast⟩ := run_bind_eq_ok hrest
    cases hlast
    obtain ⟨rfl, -⟩ := (mapMmio_returns_iff ho).1 hfirst
    refine ⟨hpos, rfl, ?_⟩
    have hone := hstep 0 hn.1 s s₁ _ hstart (by rw [pageAt_zero]; exact hfirst)
    have hround : ∀ k < pageCount barSize - 1, ∀ s₁ s₂, BarPages s₁ off barAddress (pageCount barSize) (k + 1) →
        (mapBarPage barAddress k).run s₁ = .ok ((), s₂) → BarPages s₂ off barAddress (pageCount barSize) (k + 2) := by
      intro k hk s₁ s₂ h hr
      have hin := hpages (k + 1) (by omega)
      have hoffset : (BitVec.ofNat 64 ((k + 1) * 0x1000)).toNat = (k + 1) * 4096 := by
        rw [BitVec.toNat_ofNat, Nat.mod_eq_of_lt (by omega)]
      unfold mapBarPage at hr
      rw [run_bind_ok (addU64_ok (by omega) s₁)] at hr
      obtain ⟨u, s₃, hr, hpure⟩ := run_bind_eq_ok hr
      cases hpure
      exact hstep (k + 1) (by omega) s₁ s₂ u h hr
    have hall := forM_range_returns (fun k s => BarPages s off barAddress (pageCount barSize) (k + 1)) hone hround hloop
    rwa [Nat.sub_add_cancel hn.1] at hall
  · cases hrun

theorem size_le_pages (size : BitVec 64) : size.toNat ≤ pageCount size * 4096 := by
  unfold pageCount PAGE_SIZE
  omega

/-- Every byte of the mapped pages is found at its offset from the first one. -/
theorem BarPages.translate {n o : Nat} (h : BarPages s off barAddress n n) (hoff : 4096 ∣ off)
    (hbyte : off + (pageBase barAddress).toNat + o < 2 ^ 64) (ho : o < n * 4096) :
    (Memory.translate (hhdmAddr off (pageBase barAddress) + BitVec.ofNat 64 o)).exec s =
      .ok (.ok (pageBase barAddress + BitVec.ofNat 64 o), s) := by
  obtain ⟨⟨free, ht⟩, -, -, hmapped⟩ := h
  have hbase := pageBase_dvd barAddress
  have hvirt : (hhdmAddr off (pageBase barAddress)).toNat = off + (pageBase barAddress).toNat :=
    hhdmAddr_toNat (by omega)
  refine (translate_byte_iff ht (by omega) (by omega) (by omega)).2 ?_
  have hat : pageAt (hhdmAddr off (pageBase barAddress)) (o / 4096) =
    hhdmAddr off (pageAt (pageBase barAddress) (o / 4096)) := by
    unfold pageAt PAGE_SIZE
    rw [hhdmAddr_add (by omega)]
  have hown : pageBase (pageAt (pageBase barAddress) (o / 4096)) = pageAt (pageBase barAddress) (o / 4096) := by
    rw [pageBase_pageAt (by omega), pageBase_of_aligned hbase]
  rw [hat, hmapped _ (by omega), mmioEntry, hown]
  exact ⟨_, rfl⟩

/-- `virt_base` plus an offset reaches the register at this offset exactly if the BAR starts a page. -/
theorem barReached_iff (h : MmioState s off) (hoff : 4096 ∣ off) (hp : barAddress.toNat + barSize.toNat ≤ 2 ^ 52)
    (hfit : off + barAddress.toNat + barSize.toNat ≤ 2 ^ 64) (hrun : (xhciNew barAddress barSize).run s = .ok (v, s')) :
    BarReached s' barAddress barSize v ↔ 4096 ∣ barAddress.toNat := by
  have hbase := Mem.pageBase_toNat barAddress
  -- with the BAR, the whole pages it starts and ends in are below the bounds
  have hcount : pageCount barSize = (barSize.toNat + 4095) / 4096 := rfl
  obtain ⟨hpos, rfl, hpages⟩ := xhciNew_pages h hoff (by omega) (by omega) hrun
  have hbyte : ∀ o < barSize.toNat,
    (Memory.translate (hhdmAddr off (pageBase barAddress) + BitVec.ofNat 64 o)).exec s' =
      .ok (.ok (pageBase barAddress + BitVec.ofNat 64 o), s') :=
    fun o ho => hpages.translate hoff (by omega) (Nat.lt_of_lt_of_le ho (size_le_pages barSize))
  rw [← pageBase_eq_iff]
  constructor
  · intro hreach
    have h0 := hreach 0 hpos
    rw [hbyte 0 hpos] at h0
    have := Except.ok.inj (Prod.mk.inj (Except.ok.inj h0)).1
    rwa [BitVec.add_zero, BitVec.add_zero] at this
  · intro hbase o ho
    have := hbyte o ho
    rw [hbase] at this ⊢
    exact this

/-- `map_mmio_page` returns the address of a register exactly if the register starts a page, and
`XHCI::new` reaches the bytes of the BAR at their offsets exactly if the BAR does. -/
theorem mapMmioPage_registers (h : MmioState s off) (hoff : 4096 ∣ off) :
    (∀ (phys v : BitVec 64) (s' : Mem), phys.toNat < 2 ^ 52 → off + phys.toNat < 2 ^ 64 →
      (mapMmioPage phys).run s = .ok (v, s') → (RegisterPage s s' phys v ↔ 4096 ∣ phys.toNat)) ∧
    ∀ (barAddress barSize v : BitVec 64) (s' : Mem), barAddress.toNat + barSize.toNat ≤ 2 ^ 52 →
      off + barAddress.toNat + barSize.toNat ≤ 2 ^ 64 → (xhciNew barAddress barSize).run s = .ok (v, s') →
        (BarReached s' barAddress barSize v ↔ 4096 ∣ barAddress.toNat) :=
  ⟨fun _ _ _ hp hfit hrun => registerPage_iff h hoff hp hfit hrun,
    fun _ _ _ _ hp hfit hrun => barReached_iff h hoff hp hfit hrun⟩

end Registers

/-- `XHCI::new` for a BAR of one page. -/
theorem xhciNew_onePage {s s' : Mem} {barAddress v : BitVec 64} (h : (mapMmioPage barAddress).run s = .ok (v, s')) :
    (xhciNew barAddress 0x1000#64).run s = .ok (v, s') := by
  have hcount : ((0x1000#64).toNat + 0xFFF) / 0x1000 - 1 = 0 := by decide
  unfold xhciNew
  rw [if_pos (by decide)]
  simp only [hcount, List.range_zero, List.forM_nil, pure_bind]
  exact run_bind_ok h _

theorem emptyTables_xhciNew {barAddress : BitVec 64} (hp : barAddress.toNat < 2 ^ 52) : ∃ s',
    (xhciNew barAddress 0x1000#64).run emptyTables = .ok (hhdmAddr 0xffff800000000000 (pageBase barAddress), s') := by
  obtain ⟨s', hrun, -⟩ := emptyTables_mapMmioPage hp
  exact ⟨s', xhciNew_onePage hrun⟩

/-- A register at the start of its page, and a BAR of one page. -/
theorem mapMmioPage_registers_emptyTables :
    (∃ v s', (mapMmioPage 0xfee00000#64).run emptyTables = .ok (v, s') ∧ RegisterPage emptyTables s' 0xfee00000#64 v) ∧
      ∃ v s', (xhciNew 0xfebf0000#64 0x1000#64).run emptyTables = .ok (v, s') ∧
        BarReached s' 0xfebf0000#64 0x1000#64 v := by
  obtain ⟨hpage, hbar⟩ := mapMmioPage_registers emptyTables_mmioState (by decide)
  constructor
  · obtain ⟨s', hrun, -⟩ := @emptyTables_mapMmioPage 0xfee00000#64 (by decide)
    exact ⟨_, s', hrun, (hpage _ _ s' (by decide) (by decide) hrun).2 (by decide)⟩
  · obtain ⟨s', hnew⟩ := @emptyTables_xhciNew 0xfebf0000#64 (by decide)
    exact ⟨_, s', hnew, (hbar _ _ _ s' (by decide) (by decide) hnew).2 (by decide)⟩

/-- `map_mmio_page` does not return the register's own address: for a register inside its page it is the
address of the page. -/
theorem mapMmioPage_dropsOffset :
    ¬ ∀ (s s' : Mem) (off : Nat) (phys v : BitVec 64), MmioState s off → 4096 ∣ off → phys.toNat < 2 ^ 52 →
      off + phys.toNat < 2 ^ 64 → (mapMmioPage phys).run s = .ok (v, s') → RegisterPage s s' phys v := by
  intro hall
  obtain ⟨s', hrun, -⟩ := @emptyTables_mapMmioPage 0xfee00010#64 (by decide)
  have hreg := hall _ s' _ _ _ emptyTables_mmioState (by decide) (by decide) (by decide) hrun
  exact absurd ((registerPage_iff emptyTables_mmioState (by decide) (by decide) (by decide) hrun).1 hreg) (by decide)

end Octagram.Usb

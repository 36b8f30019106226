/-
What `kmain` leaves of the interrupt controllers, whatever the devices do meanwhile: the 8259s are
silent, the local APIC is reached through `LAPIC`, and the keyboard's line has the one entry that
was changed (`interrupts_set_up`). The devices change nothing that the program reads, so each
instruction is run on a board that is known but for their steps (`Known`), together with what the
lines can have sent since. Between the two stores of `set_redirect` a line can still send by its old
entry (`Redirect.Between`). What is asked of the board is `Board.Ready`, and of the rest of the
kernel `Harmless`.
-/
import Octagram.Interrupt.Apic
import Octagram.Acpi.Walk

namespace Octagram.Interrupt

open Octagram.Lib

/-! ## The devices change nothing that the program sees -/

/-- The board after other requests and more interrupts. -/
def Board.noisy (k : Board) (master slave : BitVec 8) (l : List (Nat × Redirect)) : Board :=
  { k with
    master := { k.master with requests := master }
    slave := { k.slave with requests := slave }
    sent := k.sent ++ l }

/-- The board is `k` but for what devices did, and the interrupts sent since are of `φ`. -/
def Known (φ : Nat × Redirect → Prop) (k s : Board) : Prop := ∃ a b l, s = k.noisy a b l ∧ ∀ m ∈ l, φ m

/-- Every interrupt that a line can send is of `φ`. -/
def Board.Sends (φ : Nat × Redirect → Prop) (k : Board) : Prop :=
  ∀ i < k.ioapic.lines, (k.ioapic.entry i).masked = false → φ (i, k.ioapic.entry i)

section Known

variable {φ ψ : Nat × Redirect → Prop} {k s s' : Board} {α : Type}

theorem known_refl (φ : Nat × Redirect → Prop) (k : Board) : Known φ k k :=
  ⟨k.master.requests, k.slave.requests, [], by rw [Board.noisy, List.append_nil], by simp⟩

theorem out_noisy (a b : BitVec 8) (l : List (Nat × Redirect)) (port : BitVec 16) (v : BitVec 8) :
    (k.noisy a b l).out port v = (k.out port v).noisy a b l := by
  unfold Board.out
  split_ifs <;> rfl

theorem storePhys_noisy (a b : BitVec 8) (l : List (Nat × Redirect)) (p : BitVec 64) (v : BitVec 32) :
    (k.noisy a b l).storePhys p v = (k.storePhys p v).noisy a b l := by
  unfold Board.storePhys
  have hm : (k.noisy a b l).msrs = k.msrs := rfl
  rw [hm]
  split_ifs <;> rfl

/-- No instruction reads what the devices change. -/
theorem exec_noisy (a b : BitVec 8) (l : List (Nat × Redirect)) (o : BoardOp) :
    Board.exec o (k.noisy a b l) = (Board.exec o k).map fun x => (x.1, x.2.noisy a b l) := by
  have hmem : (k.noisy a b l).mem = k.mem := rfl
  cases o with
  | outb port v => exact congrArg (fun x => some ((), x)) (out_noisy a b l port v)
  | rdmsr msr => rfl
  | wrmsr msr low high => rfl
  | mapMmioPage phys =>
    simp only [Board.exec, hmem]
    cases (Memory.mapMmioPage phys).run k.mem <;> rfl
  | store x v =>
    simp only [Board.exec, hmem]
    cases (Memory.translate x).exec k.mem with
    | error e => rfl
    | ok r =>
      obtain ⟨_ | p, mem⟩ := r
      · rfl
      · exact congrArg (fun x => some ((), x)) (storePhys_noisy a b l p v)

theorem known_exec {o : BoardOp} {r : BoardRet o} (h : Known φ k s) (he : Board.exec o s = some (r, s')) :
    ∃ k', Board.exec o k = some (r, k') ∧ Known φ k' s' := by
  obtain ⟨a, b, l, rfl, hl⟩ := h
  rw [exec_noisy] at he
  obtain ⟨⟨r', k'⟩, hk, heq⟩ := Option.map_eq_some_iff.1 he
  cases heq
  exact ⟨k', hk, a, b, l, rfl, hl⟩

theorem known_stable (h : k.Sends φ) : board.Stable (Known φ k) := by
  intro s s' hk he
  obtain ⟨a, b, l, rfl, hl⟩ := hk
  cases he with
  | request m sl => exact ⟨m, sl, l, rfl, hl⟩
  | @line i hi hm =>
    refine ⟨a, b, l ++ [(i, k.ioapic.entry i)], ?_, fun m hmem => ?_⟩
    · simp only [Board.noisy, List.append_assoc]
    · rcases List.mem_append.1 hmem with hmem | hmem
      · exact hl m hmem
      · rw [List.mem_singleton.1 hmem]
        exact h i hi hm

/-- One instruction, run on the board that is known. -/
theorem known_call {o : BoardOp} {f : BoardRet o → BProg α} {Q : α → Board → Prop} (h : k.Sends φ)
    (hf : ∀ r k', Board.exec o k = some (r, k') → board.Triple (Known φ k') (f r) Q) :
    board.Triple (Known φ k) (Prog.call o >>= f) Q := by
  refine Machine.triple_call (known_stable h) (fun r s => ∃ k', Board.exec o k = some (r, k') ∧ Known φ k' s)
    (fun s r s' hs _ he => known_exec hs he) fun r => ?_
  rintro s ⟨k', he, hk⟩ a s' hr
  exact hf r k' he s hk a s' hr

theorem known_ret {a : α} {Q : α → Board → Prop} (h : k.Sends φ) (hq : ∀ s, Known φ k s → Q a s) :
    board.Triple (Known φ k) (pure a : BProg α) Q := Machine.triple_ret (known_stable h) hq

end Known

/-! ## The 8259s -/

/-- What `disable_pic` sets up: vectors from `vectors` on, all of them masked. -/
def disabled (vectors cascade : BitVec 8) : PicSetup := ⟨0xFF#8, vectors, cascade, 0x01#8, .nothing⟩

/-- The board with the 8259s disabled. -/
def Board.picsOff (k : Board) : Board :=
  { k with
    master := { k.master with setup := disabled 0x20#8 0x04#8 }
    slave := { k.slave with setup := disabled 0x28#8 0x02#8 } }

variable {φ : Nat × Redirect → Prop} {k : Board} {α : Type} {Q : α → Board → Prop}

theorem sends_out (h : k.Sends φ) (port : BitVec 16) (v : BitVec 8) : (k.out port v).Sends φ := by
  unfold Board.out
  split_ifs <;> exact h

theorem known_outb {port : BitVec 16} {v : BitVec 8} {f : Unit → BProg α} (h : k.Sends φ)
    (hf : (k.out port v).Sends φ → board.Triple (Known φ (k.out port v)) (f ()) Q) :
    board.Triple (Known φ k) (BProg.outb port v >>= f) Q := by
  refine known_call h fun r k' he => ?_
  cases he
  exact hf (sends_out h port v)

theorem known_disablePic {f : Unit → BProg α} (h : k.Sends φ) (hf : board.Triple (Known φ k.picsOff) (f ()) Q) :
    board.Triple (Known φ k) (disablePic >>= f) Q := by
  unfold disablePic
  simp only [Prog.bind_bind]
  iterate 10 refine known_outb h fun h => ?_
  exact hf

/-! ## The redirection table -/

section Fields

variable (v o w : BitVec 32) {i n : Nat}

/-- What a store sets of a register, bit by bit. -/
theorem getLsbD_merge (hi : i < 32) :
    ((v &&& w) ||| (o &&& ~~~w)).getLsbD i = if w.getLsbD i then v.getLsbD i else o.getLsbD i := by
  rw [BitVec.getLsbD_or, BitVec.getLsbD_and, BitVec.getLsbD_and, BitVec.getLsbD_not]
  cases w.getLsbD i <;> simp [hi]

/-- A field that can be written is that of the value. -/
theorem merge_field (h : i + n ≤ 32) (hw : w.extractLsb' i n = BitVec.allOnes n) :
    ((v &&& w) ||| (o &&& ~~~w)).extractLsb' i n = v.extractLsb' i n := by
  apply BitVec.eq_of_getLsbD_eq
  intro j hj
  have hone : w.getLsbD (i + j) = true := by
    have hbit := congrArg (fun x => x.getLsbD j) hw
    simpa [BitVec.getLsbD_extractLsb', hj] using hbit
  simp only [BitVec.getLsbD_extractLsb', hj, decide_true, Bool.true_and]
  rw [getLsbD_merge v o w (by omega), if_pos hone]

end Fields

namespace IoApicChip

variable {c : IoApicChip} {i j : Nat}

/-- `IoApic::write`: first the number of a register, then its value. -/
def store (c : IoApicChip) (r : BitVec 8) (v : BitVec 32) : IoApicChip := { c with select := r }.write v

theorem store_other {r r' : BitVec 8} (v : BitVec 32) (h : r' ≠ r) : (c.store r v).registers r' = c.registers r' :=
  Function.update_of_ne h _ _

theorem store_same (c : IoApicChip) (r : BitVec 8) (v : BitVec 32) :
    (c.store r v).registers r = (v &&& c.writable r) ||| (c.registers r &&& ~~~c.writable r) :=
  Function.update_self _ _ _

/-- The number of a register of a line. -/
theorem register_toNat (hi : i < c.lines) (hc : c.lines ≤ 120) {b : Nat} (hb : b < 2) :
    (redirectRegister i b).toNat = 0x10 + 2 * i + b := by
  unfold redirectRegister
  rw [BitVec.toNat_ofNat, Nat.mod_eq_of_lt (by omega)]

theorem register_inj (hi : i < c.lines) (hj : j < c.lines) (hc : c.lines ≤ 120) {b b' : Nat} (hb : b < 2) (hb' : b' < 2)
    (h : redirectRegister i b = redirectRegister j b') : i = j ∧ b = b' := by
  have := congrArg BitVec.toNat h
  rw [register_toNat hi hc hb, register_toNat hj hc hb'] at this
  omega

theorem writable_register (hi : i < c.lines) (hc : c.lines ≤ 120) {b : Nat} (hb : b < 2) :
    c.writable (redirectRegister i b) = if b = 1 then 0xFF000000#32 else 0x0001AFFF#32 := by
  have hr := register_toNat hi hc hb
  unfold writable
  rw [hr, if_neg (by omega), if_pos (by omega), BitVec.getLsbD, hr, Nat.testBit_zero]
  simp only [decide_eq_true_eq]
  exact if_congr (by omega) rfl rfl

/-- The lines other than the one of the register keep their entries. -/
theorem entry_store_other {b : Nat} (hb : b < 2) (hi : i < c.lines) (hj : j < c.lines) (hc : c.lines ≤ 120)
    (hne : j ≠ i) (v : BitVec 32) : (c.store (redirectRegister i b) v).entry j = c.entry j := by
  have hother : ∀ b' < 2, redirectRegister j b' ≠ redirectRegister i b :=
    fun b' hb' he => hne (register_inj hj hi hc hb' hb he).1
  unfold entry
  rw [store_other v (hother 0 (by omega)), store_other v (hother 1 (by omega))]

/-- The high half of an entry is its destination. -/
theorem entry_store_high (hi : i < c.lines) (hc : c.lines ≤ 120) (dest : BitVec 8) :
    (c.store (redirectRegister i 1) (dest.setWidth 32 <<< 24)).entry i = { c.entry i with destination := dest } := by
  have hlow : redirectRegister i 0 ≠ redirectRegister i 1 :=
    fun he => absurd (register_inj hi hi hc (by omega) (by omega) he).2 (by omega)
  have hdest : (dest.setWidth 32 <<< 24).extractLsb' 24 8 = dest := by
    apply BitVec.eq_of_getLsbD_eq
    intro j hj
    have hwide : 24 + j < 32 ∧ j < 32 := by omega
    simp [hj, hwide, Nat.not_lt.2 (Nat.le_add_right 24 j)]
  unfold entry
  rw [store_other _ hlow, store_same, writable_register hi hc (by omega), if_pos rfl]
  unfold Redirect.ofWords
  rw [merge_field _ _ _ (by omega) (by decide), hdest]

/-- The low half is all the rest; what is stored there is the vector alone. -/
theorem entry_store_low (hi : i < c.lines) (hc : c.lines ≤ 120) (vector : BitVec 8) :
    (c.store (redirectRegister i 0) (vector.setWidth 32)).entry i =
      ⟨vector, 0#3, false, false, false, false, (c.entry i).destination⟩ := by
  have hhigh : redirectRegister i 1 ≠ redirectRegister i 0 :=
    fun he => absurd (register_inj hi hi hc (by omega) (by omega) he).2 (by omega)
  have hbit : ∀ n < 32, 8 ≤ n → (0x0001AFFF#32).getLsbD n = true →
      ((vector.setWidth 32 &&& 0x0001AFFF#32) ||| (c.registers (redirectRegister i 0) &&& ~~~0x0001AFFF#32)).getLsbD n =
        false := by
    intro n hn h8 hw
    rw [getLsbD_merge _ _ _ hn, if_pos hw, BitVec.getLsbD_setWidth, BitVec.getLsbD_of_ge _ _ h8, Bool.and_false]
  have hvector : (vector.setWidth 32).extractLsb' 0 8 = vector := by
    apply BitVec.eq_of_getLsbD_eq
    intro j hj
    have hwide : j < 32 := by omega
    simp [hj, hwide]
  have hdelivery : (vector.setWidth 32).extractLsb' 8 3 = 0#3 := by
    apply BitVec.eq_of_getLsbD_eq
    intro j hj
    simp [BitVec.getLsbD_extractLsb']
  unfold entry
  rw [store_other _ hhigh, store_same, writable_register hi hc (by omega), if_neg (by omega)]
  unfold Redirect.ofWords
  rw [merge_field _ _ _ (by omega) (by decide), merge_field _ _ _ (by omega) (by decide),
    hbit 11 (by omega) (by omega) (by decide),
    hbit 13 (by omega) (by omega) (by decide), hbit 15 (by omega) (by omega) (by decide),
      hbit 16 (by omega) (by omega) (by decide)]
  rw [hvector, hdelivery]

end IoApicChip

/-! ## The page of a device -/

section Page

variable {m m' : Memory.Mem} {free : List Nat} {off : Nat} {page phys u v : BitVec 64}

/-- The page is seen at `v`, if need be with other flags than those of registers. -/
def Shows (m : Memory.Mem) (v page : BitVec 64) : Prop := ∃ fl, m.abs v = some (page, fl)

/-- A mapped page stays as it is. -/
theorem mapMmioPage_keeps (h : Memory.PageTables m free) (ho : m.hhdm = some off) (hp : phys.toNat < 2 ^ 52)
    (hrun : (Memory.mapMmioPage phys).run m = .ok (v, m')) (hu : Shows m u page) : Shows m' u page := by
  have hspec := Memory.mapMmioPage_spec h ho hp hrun
  obtain ⟨fl, hu⟩ := hu
  by_cases hpage : Memory.Mem.pageNumber u = Memory.Mem.pageNumber v
  · -- the call finds the page mapped and changes nothing
    have hmapped : m.abs (Memory.hhdmAddr off (Memory.pageBase phys)) ≠ none := by
      rw [← hspec.addr, ← Memory.abs_of_pageNumber m hpage, hu]
      exact Option.some_ne_none _
    have hagain := Memory.mapMmioPage_again h ho hmapped
    rw [hrun] at hagain
    cases hagain
    exact ⟨fl, hu⟩
  · exact ⟨fl, by rw [hspec.others u hpage, hu]⟩

/-- A page that was not mapped to another frame is seen at the address that is returned. -/
theorem mapMmioPage_shows (h : Memory.PageTables m free) (ho : m.hhdm = some off) (hp : phys.toNat < 2 ^ 52)
    (hown : ∀ q fl, m.abs (Memory.hhdmAddr off (Memory.pageBase phys)) = some (q, fl) → q = Memory.pageBase phys)
    (hrun : (Memory.mapMmioPage phys).run m = .ok (v, m')) : Shows m' v (Memory.pageBase phys) := by
  have hspec := Memory.mapMmioPage_spec h ho hp hrun
  rw [hspec.addr] at *
  cases hm : m.abs (Memory.hhdmAddr off (Memory.pageBase phys)) with
  | none => exact ⟨_, hspec.mapped fun x hx => by rw [hm] at hx; cases hx⟩
  | some x =>
    obtain ⟨q, fl⟩ := x
    have hq := hown q fl hm
    subst hq
    exact mapMmioPage_keeps h ho hp hrun ⟨fl, hm⟩

/-- A register of a page that is seen. -/
theorem translate_register (h : Memory.PageTables m free) (hv : Shows m v page) (ha : 4096 ∣ v.toNat)
    (hp : page.toNat + 4096 ≤ 2 ^ 64) {r : Nat} (hr : r < 4096) :
    (Memory.translate (v + BitVec.ofNat 64 r)).exec m = .ok (.ok (page + BitVec.ofNat 64 r), m) := by
  obtain ⟨fl, hv⟩ := hv
  refine (Memory.translate_byte_iff h ha (by omega) (by omega)).2 ⟨fl, ?_⟩
  rw [Nat.div_eq_of_lt hr, Memory.pageAt_zero, Memory.pageAt_zero, hv]

end Page

/-! ## Stores to the registers -/

/-- The local APIC is behind `base`. -/
structure LapicAt (m : Memory.Mem) (msrs : BitVec 32 → BitVec 64) (base page : BitVec 64) : Prop where
  tables : ∃ free, Memory.PageTables m free
  shows : Shows m base page
  apic : apicPage (msrs IA32_APIC_BASE_MSR) = some page
  base : 4096 ∣ base.toNat
  page : 4096 ∣ page.toNat

/-- The I/O APIC is behind `base`. -/
structure IoapicAt (m : Memory.Mem) (msrs : BitVec 32 → BitVec 64) (base : BitVec 64) : Prop where
  tables : ∃ free, Memory.PageTables m free
  shows : Shows m base ioapicPage
  apic : apicPage (msrs IA32_APIC_BASE_MSR) ≠ some ioapicPage
  base : 4096 ∣ base.toNat

section Stores

variable {s k : Board} {base page : BitVec 64} {φ : Nat × Redirect → Prop} {α : Type} {Q : α → Board → Prop}

theorem page_fits (h : 4096 ∣ page.toNat) : page.toNat + 4096 ≤ 2 ^ 64 := by omega

theorem exec_store {p v : BitVec 64} {x : BitVec 32} (h : (Memory.translate v).exec s.mem = .ok (.ok p, s.mem)) :
    Board.exec (.store v x) s = some ((), s.storePhys p x) := by
  simp only [Board.exec, h]

theorem pageBase_register (h : 4096 ∣ page.toNat) (r : BitVec 12) : Memory.pageBase (page + r.setWidth 64) = page := by
  have hr := r.isLt
  have hfit := page_fits h
  apply BitVec.eq_of_toNat_eq
  rw [Memory.Mem.pageBase_toNat, BitVec.toNat_add, BitVec.toNat_setWidth, Nat.mod_eq_of_lt (a := r.toNat) (by omega),
    Nat.mod_eq_of_lt (by omega)]
  omega

theorem register_of_page (h : 4096 ∣ page.toNat) (r : BitVec 12) : (page + r.setWidth 64).setWidth 12 = r := by
  have hr := r.isLt
  have hfit := page_fits h
  apply BitVec.eq_of_toNat_eq
  rw [BitVec.toNat_setWidth, BitVec.toNat_add, BitVec.toNat_setWidth, Nat.mod_eq_of_lt (a := r.toNat) (by omega),
    Nat.mod_eq_of_lt (b := 2 ^ 64) (by omega)]
  omega

/-- `LocalApic::write` -/
theorem LapicAt.exec_store (h : LapicAt s.mem s.msrs base page) (r : BitVec 12) (x : BitVec 32) :
    Board.exec (.store (base + r.setWidth 64) x) s = some ((), { s with lapic := Function.update s.lapic r x }) := by
  obtain ⟨free, ht⟩ := h.tables
  have htr := translate_register ht h.shows h.base (page_fits h.page) r.isLt
  rw [BitVec.ofNat_toNat] at htr
  refine (Interrupt.exec_store htr).trans ?_
  unfold Board.storePhys
  rw [pageBase_register h.page, register_of_page h.page, if_pos h.apic]

theorem IoapicAt.exec_select (h : IoapicAt s.mem s.msrs base) (x : BitVec 32) :
    Board.exec (.store base x) s = some ((), { s with ioapic := { s.ioapic with select := x.setWidth 8 } }) := by
  obtain ⟨free, ht⟩ := h.tables
  have htr := translate_register ht h.shows h.base (by decide) (r := 0) (by omega)
  rw [BitVec.add_zero, BitVec.add_zero] at htr
  refine (Interrupt.exec_store htr).trans ?_
  have hpage : Memory.pageBase ioapicPage = ioapicPage := by decide
  unfold Board.storePhys
  rw [hpage, if_neg h.apic, if_pos rfl]

theorem IoapicAt.exec_window (h : IoapicAt s.mem s.msrs base) (x : BitVec 32) :
    Board.exec (.store (base + 0x10#64) x) s = some ((), { s with ioapic := s.ioapic.write x }) := by
  obtain ⟨free, ht⟩ := h.tables
  have htr := translate_register ht h.shows h.base (by decide) (r := 0x10) (by omega)
  refine (Interrupt.exec_store htr).trans ?_
  have hpage : Memory.pageBase (ioapicPage + BitVec.ofNat 64 0x10) = ioapicPage := by decide
  unfold Board.storePhys
  rw [hpage, if_neg h.apic, if_neg (by decide), if_pos rfl]

theorem known_lapicWrite {r : BitVec 12} {x : BitVec 32} {f : Unit → BProg α} (hs : k.Sends φ)
    (h : LapicAt k.mem k.msrs base page)
    (hf : board.Triple (Known φ { k with lapic := Function.update k.lapic r x }) (f ()) Q) :
    board.Triple (Known φ k) (BProg.store (base + r.setWidth 64) x >>= f) Q := by
  refine known_call hs fun _ k' he => ?_
  rw [h.exec_store] at he
  cases he
  exact hf

/-- `IoApic::write`: the interrupts between its two stores are of the old registers. -/
theorem known_ioapicWrite {reg x : BitVec 32} {f : Unit → BProg α} (hs : k.Sends φ) (h : IoapicAt k.mem k.msrs base)
    (hf : board.Triple (Known φ { k with ioapic := k.ioapic.store (reg.setWidth 8) x }) (f ()) Q) :
    board.Triple (Known φ k) ((⟨base⟩ : IoApic).write reg x >>= f) Q := by
  unfold IoApic.write
  rw [Prog.bind_bind]
  refine known_call hs fun _ k₁ he₁ => ?_
  rw [h.exec_select] at he₁
  cases he₁
  refine known_call hs fun _ k₂ he₂ => ?_
  have hw := IoapicAt.exec_window (s := { k with ioapic := { k.ioapic with select := reg.setWidth 8 } }) h x
  cases he₂.symm.trans hw
  exact hf

end Stores

/-- The two stores of a redirection, the high half first. -/
def IoApicChip.redirect (c : IoApicChip) (line : Nat) (vector dest : BitVec 8) : IoApicChip :=
  (c.store (redirectRegister line 1) (dest.setWidth 32 <<< 24)).store (redirectRegister line 0) (vector.setWidth 32)

/-- An entry for a vector at a destination: fixed, active high, on edges. -/
def Redirect.fixed (vector dest : BitVec 8) : Redirect := ⟨vector, 0#3, false, false, false, false, dest⟩

/-- What a line can send while its entry is changed: its new vector only to its new destination. -/
def Redirect.Between (old new e : Redirect) : Prop :=
  e = old ∨ e = { old with destination := new.destination } ∨ e = new

section Redirection

variable {c : IoApicChip} {i j : Nat} {vector dest : BitVec 8}

theorem IoApicChip.entry_redirect (hi : i < c.lines) (hc : c.lines ≤ 120) :
    (c.redirect i vector dest).entry i = .fixed vector dest := by
  have hlow := IoApicChip.entry_store_low (c := c.store (redirectRegister i 1) (dest.setWidth 32 <<< 24)) hi hc vector
  rw [IoApicChip.entry_store_high hi hc] at hlow
  exact hlow

theorem IoApicChip.entry_redirect_other (hi : i < c.lines) (hj : j < c.lines) (hc : c.lines ≤ 120) (hne : j ≠ i) :
    (c.redirect i vector dest).entry j = c.entry j := by
  have hhigh := IoApicChip.entry_store_other (show 1 < 2 by omega) hi hj hc hne (dest.setWidth 32 <<< 24)
  have hlow := IoApicChip.entry_store_other (c := c.store (redirectRegister i 1) (dest.setWidth 32 <<< 24))
    (show 0 < 2 by omega) hi hj hc hne (vector.setWidth 32)
  exact hlow.trans hhigh

/-- What the lines can send while `set_redirect` changes the entry of line `i`. -/
def Changing (c : IoApicChip) (i : Nat) (new : Redirect) (m : Nat × Redirect) : Prop :=
  if m.1 = i then Redirect.Between (c.entry i) new m.2 else m.2 = c.entry m.1

variable {k : Board} {base : BitVec 64} {α : Type} {Q : α → Board → Prop}

theorem sends_of_entries {φ : Nat × Redirect → Prop} (h : ∀ j < k.ioapic.lines, φ (j, k.ioapic.entry j)) : k.Sends φ :=
  fun j hj _ => h j hj

theorem redirectRegister_eq (irq : BitVec 8) :
    (0x10#32 + irq.setWidth 32 * 2#32).setWidth 8 = redirectRegister irq.toNat 0 ∧
      (0x10#32 + irq.setWidth 32 * 2#32 + 1#32).setWidth 8 = redirectRegister irq.toNat 1 := by
  have hlt := irq.isLt
  unfold redirectRegister
  constructor
  · apply BitVec.eq_of_toNat_eq
    simp
    omega
  · apply BitVec.eq_of_toNat_eq
    simp
    omega

/-- `set_redirect` -/
theorem known_setRedirect {irq : BitVec 8} {f : Unit → BProg α} (h : IoapicAt k.mem k.msrs base)
    (hi : irq.toNat < k.ioapic.lines) (hc : k.ioapic.lines ≤ 120)
    (hf : board.Triple (Known (Changing k.ioapic irq.toNat (.fixed vector dest))
      { k with ioapic := k.ioapic.redirect irq.toNat vector dest }) (f ()) Q) :
    board.Triple (Known (Changing k.ioapic irq.toNat (.fixed vector dest)) k)
      ((⟨base⟩ : IoApic).setRedirect irq vector dest >>= f) Q := by
  have hother : ∀ j, j ≠ irq.toNat → ∀ e, e = k.ioapic.entry j →
    Changing k.ioapic irq.toNat (.fixed vector dest) (j, e) :=
    fun j hj e he => (if_neg hj).mpr he
  have hchanged : ∀ e, Redirect.Between (k.ioapic.entry irq.toNat) (.fixed vector dest) e →
      Changing k.ioapic irq.toNat (.fixed vector dest) (irq.toNat, e) := fun e he => (if_pos rfl).mpr he
  obtain ⟨hlow, hhigh⟩ := redirectRegister_eq irq
  unfold IoApic.setRedirect
  simp only [Prog.bind_bind]
  refine known_ioapicWrite (sends_of_entries fun j hj => ?_) h ?_
  · by_cases hne : j = irq.toNat
    · subst hne
      exact hchanged _ (.inl rfl)
    · exact hother j hne _ rfl
  rw [hhigh]
  refine known_ioapicWrite (sends_of_entries fun j hj => ?_) h ?_
  · -- between the two registers
    by_cases hne : j = irq.toNat
    · subst hne
      exact hchanged _ (.inr (.inl (IoApicChip.entry_store_high hi hc dest)))
    · exact hother j hne _ (IoApicChip.entry_store_other (by omega) hi hj hc hne _)
  rw [hlow]
  exact hf

end Redirection

/-! ## The local APIC -/

/-- `read_msr` puts together what `rdmsr` took apart, -/
theorem msr_read (x : BitVec 64) :
    ((x.extractLsb' 32 32).setWidth 64 <<< 32) ||| (x.extractLsb' 0 32).setWidth 64 = x := by
  apply BitVec.eq_of_getLsbD_eq
  intro i hi
  rw [BitVec.getLsbD_or, BitVec.getLsbD_shiftLeft, BitVec.getLsbD_setWidth, BitVec.getLsbD_setWidth,
    BitVec.getLsbD_extractLsb', BitVec.getLsbD_extractLsb']
  by_cases h : i < 32
  · simp [h, hi]
  · have hhigh : i - 32 < 32 ∧ 32 + (i - 32) = i ∧ i - 32 < 64 := by omega
    simp [h, hi, hhigh]

/-- and `write_msr` takes apart what `wrmsr` puts together. -/
theorem msr_written (x : BitVec 64) : (x >>> 32).setWidth 32 ++ x.setWidth 32 = x := by
  apply BitVec.eq_of_getLsbD_eq
  intro i hi
  rw [BitVec.getLsbD_append, BitVec.getLsbD_setWidth, BitVec.getLsbD_setWidth, BitVec.getLsbD_ushiftRight]
  by_cases h : i < 32
  · simp [h]
  · have hhigh : i - 32 < 32 ∧ 32 + (i - 32) = i := by omega
    simp [h, hhigh]

/-- `IA32_APIC_BASE` after `enable_apic`. -/
def apicEnabled (msr : BitVec 64) : BitVec 64 := msr ||| 1#64 <<< 11

/-- The address that `enable_apic` returns. -/
def apicBase (msr : BitVec 64) : BitVec 64 := apicEnabled msr &&& 0xFFFFF000#64

theorem apicBase_lt (msr : BitVec 64) : (apicBase msr).toNat < 2 ^ 32 := by
  unfold apicBase
  rw [BitVec.toNat_and]
  exact Nat.lt_of_le_of_lt Nat.and_le_right (by decide)

theorem pageBase_apicBase (msr : BitVec 64) : Memory.pageBase (apicBase msr) = apicBase msr := by
  unfold apicBase Memory.pageBase
  rw [BitVec.and_assoc]
  rfl

/-- Below 4 GiB, that is the page the registers are in. -/
theorem apicPage_enabled {msr : BitVec 64} (hb : msr &&& 0x000FFFFF00000000#64 = 0#64) (hx : msr.getLsbD 10 = false) :
    apicPage (apicEnabled msr) = some (apicBase msr) := by
  have hmask : 0x000FFFFFFFFFF000#64 = 0x000FFFFF00000000#64 ||| 0xFFFFF000#64 := by decide
  have hbit : (1#64 <<< 11) &&& 0x000FFFFF00000000#64 = 0#64 := by decide
  unfold apicPage apicBase apicEnabled
  rw [if_pos, hmask, BitVec.and_or_distrib_left, BitVec.and_or_distrib_right, hb, hbit]
  · simp
  · rw [BitVec.getLsbD_or, BitVec.getLsbD_or, hx]
    simp

section Lapic

variable {k : Board} {φ : Nat × Redirect → Prop} {α : Type} {Q : α → Board → Prop}

theorem known_enableApic {f : BitVec 64 → BProg α} (h : k.Sends φ)
    (hf : board.Triple
      (Known φ { k with msrs := Function.update k.msrs IA32_APIC_BASE_MSR (apicEnabled (k.msrs IA32_APIC_BASE_MSR)) })
      (f (apicBase (k.msrs IA32_APIC_BASE_MSR))) Q) :
    board.Triple (Known φ k) (enableApic >>= f) Q := by
  unfold enableApic readMsr writeMsr
  simp only [Prog.bind_bind]
  refine known_call h fun r k₁ he₁ => ?_
  cases he₁
  simp only [Prog.pure_eq, Prog.ret_bind, msr_read]
  refine known_call h fun r k₂ he₂ => ?_
  cases he₂
  rw [msr_written]
  exact hf

theorem known_mapMmioPage {phys : BitVec 64} {f : BitVec 64 → BProg α} (h : k.Sends φ)
    (hf : ∀ v m, (Memory.mapMmioPage phys).run k.mem = .ok (v, m) →
      board.Triple (Known φ { k with mem := m }) (f v) Q) :
    board.Triple (Known φ k) (BProg.mapMmioPage phys >>= f) Q := by
  refine known_call h fun v k' he => ?_
  simp only [Board.exec] at he
  cases hrun : (Memory.mapMmioPage phys).run k.mem with
  | error e =>
    rw [hrun] at he
    cases he
  | ok x =>
    rw [hrun] at he
    cases he
    exact hf _ _ hrun

end Lapic

/-! ## From `cli` to `sti` -/

/-- What `kmain` finds: an I/O APIC with a line 1, the local APIC below 4 GiB and not as x2APIC, and the two pages of
registers not taken by other frames. -/
structure Board.Ready (s : Board) (off : Nat) : Prop where
  tables : ∃ free, Memory.PageTables s.mem free
  hhdm : s.mem.hhdm = some off
  aligned : 4096 ∣ off
  fits : off + 2 ^ 32 ≤ 2 ^ 64
  own : ∀ p, p = apicBase (s.msrs IA32_APIC_BASE_MSR) ∨ p = ioapicPage →
    ∀ q fl, s.mem.abs (Memory.hhdmAddr off p) = some (q, fl) → q = p
  xapic : (s.msrs IA32_APIC_BASE_MSR).getLsbD 10 = false
  below : s.msrs IA32_APIC_BASE_MSR &&& 0x000FFFFF00000000#64 = 0#64
  apart : apicBase (s.msrs IA32_APIC_BASE_MSR) ≠ ioapicPage
  lines : 1 < s.ioapic.lines ∧ s.ioapic.lines ≤ 120

/-- The entry of the keyboard. -/
def keyboardEntry : Redirect := .fixed 33#8 0#8

/-- What `kmain` leaves, with `LAPIC` at `base`. -/
structure Board.SetUp (s : Board) (off : Nat) (base : BitVec 64) (s' : Board) : Prop where
  master : s'.master.setup = disabled 0x20#8 0x04#8
  slave : s'.slave.setup = disabled 0x28#8 0x02#8
  msr : s'.msrs IA32_APIC_BASE_MSR = apicEnabled (s.msrs IA32_APIC_BASE_MSR)
  ioapic : s'.ioapic = s.ioapic.redirect 1 33#8 0#8
  hhdm : s'.mem.hhdm = some off
  lapic : LapicAt s'.mem s'.msrs base (apicBase (s.msrs IA32_APIC_BASE_MSR))

section Setup

variable {s s' : Board} {off : Nat} {base : BitVec 64}

/-- The page `p` below 4 GiB is mapped, or seen already. -/
theorem Board.Ready.page (h : s.Ready off) {p : BitVec 64} (hp : p.toNat < 2 ^ 32) (hbase : Memory.pageBase p = p) :
    (Memory.hhdmAddr off p).toNat = off + p.toNat ∧ 4096 ∣ (Memory.hhdmAddr off p).toNat := by
  have hfits := h.fits
  have hoff := h.aligned
  have hdvd := (Memory.pageBase_eq_iff p).1 hbase
  have haddr : (Memory.hhdmAddr off p).toNat = off + p.toNat := Memory.hhdmAddr_toNat (by omega)
  exact ⟨haddr, by omega⟩

/-- The run of `kmain`'s set-up, whatever the devices do. -/
theorem setupInterrupts_triple (h : s.Ready off) :
    board.Triple (Known (Changing s.ioapic 1 keyboardEntry) s) setupInterrupts fun r s' =>
      ∃ k, Known (Changing s.ioapic 1 keyboardEntry) k s' ∧ s.SetUp off r.1.base k ∧ k.sent = s.sent ∧
        k.lapic = Function.update s.lapic 0xF0#12 0x1FF#32 := by
  have hsends : ∀ k : Board, k.ioapic = s.ioapic → k.Sends (Changing s.ioapic 1 keyboardEntry) := by
    intro k hk
    refine sends_of_entries fun j hj => ?_
    rw [hk]
    by_cases hne : j = 1
    · subst hne
      exact (if_pos rfl).mpr (.inl rfl)
    · exact (if_neg hne).mpr rfl
  unfold setupInterrupts initLapic initIoapic
  simp only [Prog.bind_bind]
  refine known_disablePic (hsends _ rfl) ?_
  refine known_enableApic (hsends _ rfl) ?_
  refine known_mapMmioPage (hsends _ rfl) fun v₁ m₁ hrun₁ => ?_
  -- the local APIC's page
  obtain ⟨free, ht⟩ := h.tables
  have hlt := apicBase_lt (s.msrs IA32_APIC_BASE_MSR)
  have hpage := pageBase_apicBase (s.msrs IA32_APIC_BASE_MSR)
  have haddr := h.page hlt hpage
  have hrun₁ : (Memory.mapMmioPage (apicBase (s.msrs IA32_APIC_BASE_MSR))).run s.mem = .ok (v₁, m₁) := hrun₁
  have hspec₁ := Memory.mapMmioPage_spec ht h.hhdm (by omega) hrun₁
  have hshows₁ := mapMmioPage_shows ht h.hhdm (by omega) (by rw [hpage]; exact h.own _ (.inl rfl)) hrun₁
  obtain ⟨free₁, ht₁⟩ := hspec₁.tables
  have hv₁ := hspec₁.addr
  rw [hpage] at hshows₁ hv₁
  have hmsr : Function.update s.msrs IA32_APIC_BASE_MSR (apicEnabled (s.msrs IA32_APIC_BASE_MSR)) IA32_APIC_BASE_MSR =
      apicEnabled (s.msrs IA32_APIC_BASE_MSR) := Function.update_self _ _ _
  have hlapic : ∀ m, (∃ free, Memory.PageTables m free) → Shows m v₁ (apicBase (s.msrs IA32_APIC_BASE_MSR)) →
      LapicAt m (Function.update s.msrs IA32_APIC_BASE_MSR (apicEnabled (s.msrs IA32_APIC_BASE_MSR))) v₁
        (apicBase (s.msrs IA32_APIC_BASE_MSR)) := by
    intro m hm hshows
    refine ⟨hm, hshows, ?_, ?_, (Memory.pageBase_eq_iff _).1 hpage⟩
    · rw [hmsr]
      exact apicPage_enabled h.below h.xapic
    · rw [hv₁]
      exact haddr.2
  refine known_lapicWrite (r := 0xF0#12) (hsends _ rfl) (hlapic m₁ ⟨free₁, ht₁⟩ hshows₁) ?_
  refine known_mapMmioPage (hsends _ rfl) fun v₂ m₂ hrun₂ => ?_
  -- the page of the I/O APIC, which is another one
  have hrun₂ : (Memory.mapMmioPage ioapicPage).run m₁ = .ok (v₂, m₂) := hrun₂
  have hhhdm₁ : m₁.hhdm = some off := hspec₁.boot.hhdm.trans h.hhdm
  have hpage₂ : Memory.pageBase ioapicPage = ioapicPage := by decide
  have hlt₂ : ioapicPage.toNat = 0xFEC00000 := rfl
  have haddr₂ := h.page (p := ioapicPage) (by omega) hpage₂
  have hother : Memory.Mem.pageNumber (Memory.hhdmAddr off ioapicPage) ≠ Memory.Mem.pageNumber v₁ := by
    intro heq
    have hne : (apicBase (s.msrs IA32_APIC_BASE_MSR)).toNat ≠ ioapicPage.toNat :=
      fun he => h.apart (BitVec.eq_of_toNat_eq he)
    have hdvd := (Memory.pageBase_eq_iff _).1 hpage
    have hoff := h.aligned
    unfold Memory.Mem.pageNumber at heq
    rw [hv₁, haddr.1, haddr₂.1] at heq
    omega
  have hspec₂ := Memory.mapMmioPage_spec ht₁ hhhdm₁ (by omega) hrun₂
  have hshows₂ := mapMmioPage_shows ht₁ hhhdm₁ (by omega)
    (by rw [hpage₂, hspec₁.others _ hother]; exact h.own _ (.inr rfl)) hrun₂
  obtain ⟨free₂, ht₂⟩ := hspec₂.tables
  have hv₂ := hspec₂.addr
  rw [hpage₂] at hshows₂ hv₂
  have hkept := mapMmioPage_keeps ht₁ hhhdm₁ (by omega) hrun₂ hshows₁
  have hioapic : IoapicAt m₂
    (Function.update s.msrs IA32_APIC_BASE_MSR (apicEnabled (s.msrs IA32_APIC_BASE_MSR))) v₂ := by
    refine ⟨⟨free₂, ht₂⟩, hshows₂, ?_, ?_⟩
    · rw [hmsr, apicPage_enabled h.below h.xapic]
      exact fun he => h.apart (Option.some.inj he)
    · rw [hv₂]
      exact haddr₂.2
  refine @known_setRedirect _ _ _ _ _ _ 1#8 _ hioapic h.lines.1 h.lines.2 ?_
  refine known_ret (sends_of_entries fun j hj => ?_) fun s' hs' => ⟨_, hs', ?_, rfl, rfl⟩
  · by_cases hne : j = 1
    · subst hne
      exact (if_pos rfl).mpr (.inr (.inr (IoApicChip.entry_redirect h.lines.1 h.lines.2)))
    · exact (if_neg hne).mpr (IoApicChip.entry_redirect_other h.lines.1 hj h.lines.2 hne)
  · exact ⟨rfl, rfl, hmsr, rfl, hspec₂.boot.hhdm.trans hhhdm₁, hlapic m₂ ⟨free₂, ht₂⟩ hkept⟩

/-! ## From `sti` on -/

/-- What the rest of the kernel does with these devices: writes to other ports, other registers of the
processor, more pages of registers, and stores to the local APIC through `LAPIC`. -/
def Harmless (base : BitVec 64) : BoardOp → Prop
  | .outb port _ => port ∉ [PIC1_CMD, PIC1_DATA, PIC2_CMD, PIC2_DATA]
  | .rdmsr _ => True
  | .wrmsr msr _ _ => msr ≠ IA32_APIC_BASE_MSR
  | .mapMmioPage phys => phys.toNat < 2 ^ 52
  | .store a _ => ∃ r : BitVec 12, a = base + r.setWidth 64

theorem Board.SetUp.noisy {k : Board} (h : s.SetUp off base k) (a b : BitVec 8) (l : List (Nat × Redirect)) :
    s.SetUp off base (k.noisy a b l) := ⟨h.master, h.slave, h.msr, h.ioapic, h.hhdm, h.lapic⟩

/-- Set up, and every interrupt since is that of the entry of its line. -/
def Running (s : Board) (off : Nat) (base : BitVec 64) (before : List (Nat × Redirect)) (s' : Board) : Prop :=
  s.SetUp off base s' ∧ ∃ l, s'.sent = before ++ l ∧ ∀ m ∈ l, m.1 < s.ioapic.lines ∧
    m.2 = (s.ioapic.redirect 1 33#8 0#8).entry m.1

theorem running_framed (before : List (Nat × Redirect)) : board.Framed (Harmless base) (Running s off base before) := by
  constructor
  · -- a step of the devices
    rintro t t' ⟨hset, l, hl, hm⟩ he
    cases he with
    | request m sl => exact ⟨⟨hset.master, hset.slave, hset.msr, hset.ioapic, hset.hhdm, hset.lapic⟩, l, hl, hm⟩
    | @line i hi _ =>
      refine ⟨⟨hset.master, hset.slave, hset.msr, hset.ioapic, hset.hhdm, hset.lapic⟩,
        l ++ [(i, t.ioapic.entry i)], ?_, ?_⟩
      · show t.sent ++ _ = _
        rw [hl, List.append_assoc]
      · intro m hmem
        rcases List.mem_append.1 hmem with hmem | hmem
        · exact hm m hmem
        · rw [List.mem_singleton.1 hmem]
          rw [hset.ioapic] at hi ⊢
          exact ⟨hi, rfl⟩
  · -- an operation of the rest of the kernel, which is none on the interrupt hardware
    rintro o t r t' ho - he ⟨hset, hsent⟩
    cases o with
    | outb port v =>
      cases he
      simp only [Harmless, List.mem_cons, List.not_mem_nil, or_false, not_or] at ho
      obtain ⟨h1, h2, h3, h4⟩ := ho
      have hout : t.out port v = t := by
        unfold Board.out
        rw [if_neg h1, if_neg h2, if_neg h3, if_neg h4]
      rw [hout]
      exact ⟨hset, hsent⟩
    | rdmsr msr =>
      cases he
      exact ⟨hset, hsent⟩
    | wrmsr msr low high =>
      cases he
      have hkeep : Function.update t.msrs msr (high ++ low) IA32_APIC_BASE_MSR = t.msrs IA32_APIC_BASE_MSR :=
        Function.update_of_ne (Ne.symm ho) _ _
      refine ⟨⟨hset.master, hset.slave, hkeep.trans hset.msr, hset.ioapic, hset.hhdm, ?_⟩, hsent⟩
      have hl := hset.lapic
      exact ⟨hl.tables, hl.shows, (congrArg apicPage hkeep).trans hl.apic, hl.base, hl.page⟩
    | mapMmioPage phys =>
      have he : Board.exec (.mapMmioPage phys) t = some (r, t') := he
      simp only [Board.exec] at he
      cases hrun : (Memory.mapMmioPage phys).run t.mem with
      | error e =>
        rw [hrun] at he
        cases he
      | ok x =>
        rw [hrun] at he
        cases he
        have hl := hset.lapic
        obtain ⟨free, ht⟩ := hl.tables
        have hspec := Memory.mapMmioPage_spec ht hset.hhdm ho hrun
        refine ⟨⟨hset.master, hset.slave, hset.msr, hset.ioapic, hspec.boot.hhdm.trans hset.hhdm, ?_⟩, hsent⟩
        exact ⟨hspec.tables, mapMmioPage_keeps ht hset.hhdm ho hrun hl.shows, hl.apic, hl.base, hl.page⟩
    | store a v =>
      obtain ⟨x, rfl⟩ := ho
      cases (hset.lapic.exec_store x v).symm.trans he
      exact ⟨⟨hset.master, hset.slave, hset.msr, hset.ioapic, hset.hhdm, hset.lapic⟩, hsent⟩

/-- An 8259 that is disabled does not interrupt. -/
theorem not_interrupts {p : Pic} {vectors cascade : BitVec 8} (h : p.setup = disabled vectors cascade) :
    ¬ p.Interrupts := by
  unfold Pic.Interrupts
  rw [h]
  simp [disabled]

/-- After the set-up, and as long as the kernel does nothing else with these devices: no 8259 interrupts, the
local APIC is enabled and answers at `LAPIC`, and the interrupts of all lines are as they were before, but for
the keyboard's, which are vector 33 at APIC 0. While its entry is changed, vector 33 goes to no other APIC. -/
theorem interrupts_set_up {α : Type} {s s₁ s₂ : Board} {off : Nat} {lapic : LocalApic} {ioapic : IoApic}
    {p p' : BProg α} (h : s.Ready off) (hr : board.Runs (setupInterrupts, s) (.ret (lapic, ioapic), s₁))
    (hp : p.All (Harmless lapic.base)) (hr' : board.Runs (p, s₁) (p', s₂)) :
    (¬ s₂.master.Interrupts ∧ ¬ s₂.slave.Interrupts) ∧
    (s₁.msrs IA32_APIC_BASE_MSR = s.msrs IA32_APIC_BASE_MSR ||| 1#64 <<< 11 ∧
      s₁.lapic = Function.update s.lapic 0xF0#12 0x1FF#32) ∧
    (∀ (r : BitVec 12) v, Board.exec (.store (lapic.base + r.setWidth 64) v) s₂ =
      some ((), { s₂ with lapic := Function.update s₂.lapic r v })) ∧
    ∃ l l', s₁.sent = s.sent ++ l ∧ s₂.sent = s.sent ++ l ++ l' ∧
      (∀ m ∈ l ++ l', m.1 ≠ 1 → m.2 = s.ioapic.entry m.1) ∧
      (∀ m ∈ l, m.1 = 1 → Redirect.Between (s.ioapic.entry 1) keyboardEntry m.2) ∧
      ∀ m ∈ l', m.1 = 1 → m.2 = keyboardEntry := by
  obtain ⟨k, ⟨a, b, l, rfl, hl⟩, hset, hsent, hlapic⟩ := setupInterrupts_triple h s (known_refl _ s) _ _ hr
  have hrunning : Running s off lapic.base (s.sent ++ l) (k.noisy a b l) := by
    refine ⟨hset.noisy a b l, [], ?_, by simp⟩
    rw [List.append_nil, ← hsent]
    rfl
  obtain ⟨hset₂, l', hl', hm⟩ := (running_framed (s.sent ++ l)).throughout hp (fun _ h => h) _ hrunning _ hr'
  refine ⟨⟨not_interrupts hset₂.master, not_interrupts hset₂.slave⟩, ⟨hset.msr, hlapic⟩, hset₂.lapic.exec_store,
    l, l', ?_, hl', ?_, ?_, ?_⟩
  · show k.sent ++ l = _
    rw [hsent]
  · intro m hmem hne
    rcases List.mem_append.1 hmem with hmem | hmem
    · exact (if_neg hne).mp (hl m hmem)
    · obtain ⟨hlt, he⟩ := hm m hmem
      rw [he]
      exact IoApicChip.entry_redirect_other h.lines.1 hlt h.lines.2 hne
  · intro m hmem he
    exact (if_pos he).mp (hl m hmem)
  · intro m hmem he
    rw [(hm m hmem).2, he]
    exact IoApicChip.entry_redirect h.lines.1 h.lines.2

end Setup

/-! ## With sixteen frames -/

/-- A board after reset, with 24 lines, which are masked. -/
def resetBoard : Board where
  master := ⟨⟨0#8, 0#8, 0#8, 0#8, .nothing⟩, 0#8⟩
  slave := ⟨⟨0#8, 0#8, 0#8, 0#8, .nothing⟩, 0#8⟩
  msrs := fun _ => 0xFEE00900#64
  lapic := fun _ => 0#32
  ioapic := ⟨24, 0#8, fun _ => 0x00010000#32⟩
  sent := []
  mem := Acpi.roomyTables

theorem resetBoard_ready : resetBoard.Ready 0xffff800000000000 := by
  refine ⟨⟨_, Acpi.roomyTables_pageTables⟩, rfl, by decide, by decide, fun p _ q fl hq => ?_, by decide, by
    decide, by decide, by decide⟩
  have hnone : resetBoard.mem.abs (Memory.hhdmAddr 0xffff800000000000 p) = none := (Memory.emptyTables_unmapped _).1
  rw [hnone] at hq
  cases hq

/-- With free frames for three tables, a page that is not mapped is mapped. -/
theorem mapMmioPage_enough {m : Memory.Mem} {free : List Nat} {off : Nat} {phys : BitVec 64}
    (h : Memory.PageTables m free) (ho : m.hhdm = some off) (hh : ∀ u, ¬ m.HugeOnPath u)
    (hnone : m.abs (Memory.hhdmAddr off (Memory.pageBase phys)) = none) (hlen : 3 ≤ free.length) :
    ∃ m' free', (Memory.mapMmioPage phys).run m = .ok (Memory.hhdmAddr off (Memory.pageBase phys), m') ∧
      Memory.PageTables m' free' ∧ free.length ≤ free'.length + 3 := by
  have hle := m.missingTables_le (Memory.hhdmAddr off (Memory.pageBase phys))
  obtain ⟨m', hx, ht', -⟩ := Memory.mapPage_enough h (hh _) hnone (by omega) (Memory.pageBase phys)
    (Memory.flags.WRITABLE ||| Memory.flags.NO_CACHE)
  refine ⟨m', _, (Memory.mapMmio_returns_iff ho).2 ⟨rfl, _, hx, .inl rfl⟩, ht', ?_⟩
  rw [List.length_drop]
  omega

/-- The program comes to its end. -/
def Returns {α : Type} (p : BProg α) (s : Board) : Prop := ∃ a s', board.Runs (p, s) (.ret a, s')

theorem returns_call {α : Type} {o : BoardOp} {f : BoardRet o → BProg α} {s s' : Board} {r : BoardRet o}
    (he : Board.exec o s = some (r, s')) (h : Returns (f r) s') : Returns (Prog.call o >>= f) s := by
  obtain ⟨a, t, hr⟩ := h
  exact ⟨a, t, .head (.op trivial he) hr⟩

/-- On this board the set-up comes to its end. -/
theorem resetBoard_returns : Returns setupInterrupts resetBoard := by
  have hpage : Memory.pageBase 0xFEE00000#64 = 0xFEE00000#64 := by decide
  have hpage₂ : Memory.pageBase ioapicPage = ioapicPage := by decide
  have hunmapped := Memory.emptyTables_unmapped
  have hsixteen : Acpi.roomyTables.bootFrames.reverse.length = 16 := by
    rw [List.length_reverse, Acpi.roomyTables_bootFrames, Acpi.regionFrames_length]
  obtain ⟨m₁, free₁, hrun₁, ht₁, hlen₁⟩ := @mapMmioPage_enough _ _ 0xffff800000000000 0xFEE00000#64
    Acpi.roomyTables_pageTables rfl (fun u => (hunmapped u).2.1) (hunmapped _).1 (by omega)
  have hspec₁ := Memory.mapMmioPage_spec Acpi.roomyTables_pageTables rfl (by decide) hrun₁
  have hshows₁ := mapMmioPage_shows Acpi.roomyTables_pageTables rfl (by decide)
    (fun q fl hq => absurd (hq.symm.trans (hunmapped _).1) (Option.some_ne_none _)) hrun₁
  obtain ⟨m₂, free₂, hrun₂, ht₂, -⟩ := @mapMmioPage_enough _ _ 0xffff800000000000 ioapicPage ht₁
    hspec₁.boot.hhdm (fun u hu => (hunmapped u).2.1 ((hspec₁.huge u).1 hu))
    (by rw [hspec₁.others _ (by rw [hpage, hpage₂]; decide)]; exact (hunmapped _).1) (by omega)
  have hspec₂ := Memory.mapMmioPage_spec ht₁ hspec₁.boot.hhdm (by decide) hrun₂
  have hshows₂ := mapMmioPage_shows ht₁ hspec₁.boot.hhdm (by decide)
    (fun q fl hq => by
      rw [hspec₁.others _ (by rw [hpage, hpage₂]; decide)] at hq
      exact absurd (hq.symm.trans (hunmapped _).1) (Option.some_ne_none _)) hrun₂
  rw [hpage] at hrun₁ hshows₁
  rw [hpage₂] at hrun₂ hshows₂
  have hlapic : LapicAt m₁ (Function.update (fun _ => 0xFEE00900#64) IA32_APIC_BASE_MSR (apicEnabled 0xFEE00900#64))
      (Memory.hhdmAddr 0xffff800000000000 0xFEE00000#64) 0xFEE00000#64 :=
        ⟨⟨_, ht₁⟩, hshows₁, by decide, by decide, by decide⟩
  have hioapic : IoapicAt m₂ (Function.update (fun _ => 0xFEE00900#64) IA32_APIC_BASE_MSR (apicEnabled 0xFEE00900#64))
      (Memory.hhdmAddr 0xffff800000000000 ioapicPage) := ⟨⟨_, ht₂⟩, hshows₂, by decide, by decide⟩
  have hexec₁ : ∀ s : Board, s.mem = Acpi.roomyTables → Board.exec (.mapMmioPage 0xFEE00000#64) s =
      some (Memory.hhdmAddr 0xffff800000000000 0xFEE00000#64, { s with mem := m₁ }) := by
    intro s hs
    simp only [Board.exec, hs, hrun₁]
  have hexec₂ : ∀ s : Board, s.mem = m₁ → Board.exec (.mapMmioPage ioapicPage) s =
      some (Memory.hhdmAddr 0xffff800000000000 ioapicPage, { s with mem := m₂ }) := by
    intro s hs
    simp only [Board.exec, hs, hrun₂]
  unfold setupInterrupts disablePic initLapic enableApic readMsr writeMsr initIoapic IoApic.setRedirect IoApic.write
  simp only [Prog.bind_bind]
  -- ten bytes to the two PICs, the register of the base, the local APIC and the I/O APIC
  iterate 10 refine returns_call rfl ?_
  refine returns_call rfl ?_
  simp only [Prog.pure_eq, Prog.ret_bind, msr_read]
  refine returns_call rfl ?_
  rw [msr_written]
  refine returns_call (hexec₁ _ rfl) (returns_call (LapicAt.exec_store (r := 0xF0#12) hlapic _) ?_)
  refine returns_call (hexec₂ _ rfl) ?_
  refine returns_call (IoapicAt.exec_select hioapic _) (returns_call (IoapicAt.exec_window hioapic _) ?_)
  refine returns_call (IoapicAt.exec_select hioapic _) (returns_call (IoapicAt.exec_window hioapic _) ?_)
  exact ⟨_, _, .refl⟩

/-- A key is pressed after the set-up, before an interrupt is ended. -/
theorem interrupts_set_up_key :
    ∃ lapic ioapic s₁ s₂, board.Runs (setupInterrupts, resetBoard) (.ret (lapic, ioapic), s₁) ∧
      board.Runs (lapic.sendEoi, s₁) (lapic.sendEoi, s₂) ∧ ¬ s₂.master.Interrupts ∧ (1, keyboardEntry) ∈ s₂.sent := by
  obtain ⟨⟨lapic, ioapic⟩, s₁, hr⟩ := resetBoard_returns
  obtain ⟨k, ⟨a, b, l, rfl, -⟩, hset, -⟩ := setupInterrupts_triple resetBoard_ready _ (known_refl _ _) _ _ hr
  have hioapic : (k.noisy a b l).ioapic = resetBoard.ioapic.redirect 1 33#8 0#8 := hset.ioapic
  have hentry : (k.noisy a b l).ioapic.entry 1 = keyboardEntry := by
    rw [hioapic]
    exact IoApicChip.entry_redirect (by decide) (by decide)
  have hkey : BoardStep (k.noisy a b l)
      { k.noisy a b l with sent := (k.noisy a b l).sent ++ [(1, (k.noisy a b l).ioapic.entry 1)] } := by
    refine .line ?_ (by rw [hentry]; rfl)
    rw [hioapic]
    decide
  have hstep : board.Runs (lapic.sendEoi, k.noisy a b l) (lapic.sendEoi, _) := .single (.env hkey)
  refine ⟨lapic, ioapic, _, _, hr, hstep, ?_, ?_⟩
  · have hharmless : lapic.sendEoi.All (Harmless lapic.base) := ⟨⟨0xB0#12, rfl⟩, fun _ => trivial⟩
    exact (interrupts_set_up resetBoard_ready hr hharmless hstep).1.1
  · rw [hentry]
    simp

end Octagram.Interrupt

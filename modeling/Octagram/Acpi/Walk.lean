/-
The walk over the ACPI tables: which bytes it asks for, with which pages mapped, and where exactly
it reads nothing but bytes of the tables on pages that are present (`testRsdp_safe_iff`). The walk
is cut into its parts, each with the list of what it asks (`rsdpAsks`, `findAsks`, `madtAsks`); the
loop over the entries goes by induction on the rounds that are left. Both directions then go over
these lists: tables that fit serve every read (`safe_of_fits`), and a run without a fault shows that
they fit (`fits_of_safe`). The pointer to the first entry is read out of the table instead of taken
to it, and so leads elsewhere (`testRsdp_entryPointer`).
-/
import Octagram.Acpi.Presence
import Octagram.Memory.MapErrors

namespace Octagram.Acpi

open Octagram.Lib Octagram.Memory

/-! ## Lists of operations -/

section Lists

variable {Q : List (BitVec 64) → BitVec 64 → Prop} {vs : List (BitVec 64)} {os os' : List Op} {a : BitVec 64}

theorem served_append : Served Q vs (os ++ os') ↔ Served Q vs os ∧ Served Q (vs ++ mapped os) os' := by
  induction os generalizing vs with
  | nil => simp [Served, mapped]
  | cons o os ih =>
    cases o with
    | read a => simp [Served, mapped, ih, and_assoc]
    | mapPage v p fl => simp [Served, mapped, ih]
    | println line => simp [Served, mapped, ih]
    | overflow => simp [Served]

theorem served_and {P : BitVec 64 → Prop} :
    Served (fun vs a => Q vs a ∧ P a) vs os ↔ Served Q vs os ∧ ∀ a ∈ bytesRead os, P a := by
  induction os generalizing vs with
  | nil => simp [Served, bytesRead]
  | cons o os ih =>
    cases o with
    | read a =>
      simp only [Served, bytesRead, ih, List.forall_mem_cons]
      tauto
    | mapPage v p fl => simp [Served, bytesRead, ih]
    | println line => simp [Served, bytesRead, ih]
    | overflow => simp [Served]

theorem mapped_append : mapped (os ++ os') = mapped os ++ mapped os' := by
  induction os with
  | nil => rfl
  | cons o os ih => cases o <;> simp [mapped, ih]

theorem messages_append : messages (os ++ os') = messages os ++ messages os' := by
  induction os with
  | nil => rfl
  | cons o os ih => cases o <;> simp [messages, ih]

/-- The reads of `n` bytes. -/
def reads (a : BitVec 64) : Nat → List Op
  | 0 => []
  | n + 1 => .read a :: reads (a + 1#64) n

/-- `n` bytes from an address on meet `Q`. -/
def Covered (Q : List (BitVec 64) → BitVec 64 → Prop) (vs : List (BitVec 64)) (a : BitVec 64) (n : Nat) : Prop :=
  ∀ k < n, Q vs (a + BitVec.ofNat 64 k)

theorem add_one_ofNat (a : BitVec 64) (k : Nat) : a + 1#64 + BitVec.ofNat 64 k = a + BitVec.ofNat 64 (k + 1) := by
  rw [BitVec.add_assoc, BitVec.ofNat_add, BitVec.add_comm (1#64)]

@[simp] theorem served_reads (n : Nat) : Served Q vs (reads a n) ↔ Covered Q vs a n := by
  induction n generalizing a with
  | zero => simp [reads, Served, Covered]
  | succ n ih =>
    unfold reads Served
    rw [ih]
    constructor
    · rintro ⟨h0, h⟩ k hk
      cases k with
      | zero => simpa using h0
      | succ k =>
        rw [← add_one_ofNat]
        exact h k (Nat.lt_of_succ_lt_succ hk)
    · intro h
      refine ⟨by simpa using h 0 (Nat.succ_pos n), fun k hk => ?_⟩
      rw [add_one_ofNat]
      exact h (k + 1) (Nat.succ_lt_succ hk)

@[simp] theorem mapped_reads (a : BitVec 64) (n : Nat) : mapped (reads a n) = [] := by
  induction n generalizing a with
  | zero => rfl
  | succ n ih => exact ih _

@[simp] theorem messages_reads (a : BitVec 64) (n : Nat) : messages (reads a n) = [] := by
  induction n generalizing a with
  | zero => rfl
  | succ n ih => exact ih _

end Lists

/-! ## What the firmware says -/

section Firmware

variable (firmware : BitVec 64 → Byte)

/-- The `n` bytes of the firmware from an address on. -/
def bytesAt (a : BitVec 64) : Nat → List Byte
  | 0 => []
  | n + 1 => firmware a :: bytesAt (a + 1#64) n

/-- The `u32` at an address. -/
def u32At (a : BitVec 64) : BitVec 32 := leU32 (bytesAt firmware a 4) 0

/-- Where the RSDT is. -/
def rsdt (ptr : BitVec 64) : BitVec 64 := (u32At firmware (ptr + 16#64)).setWidth 64

/-- The length field of the table at an address. -/
def length (table : BitVec 64) : Nat := (u32At firmware (table + 4#64)).toNat

/-- How many entries the RSDT has. -/
def count (ptr : BitVec 64) : Nat := (length firmware (rsdt firmware ptr) - 36) / 4

/-- The address of entry `i` of the RSDT. -/
def entryAddr (rsdt : BitVec 64) (i : Nat) : BitVec 64 := rsdt + 36#64 + BitVec.ofNat 64 (4 * i)

/-- The table that entry `i` names. -/
def table (rsdt : BitVec 64) (i : Nat) : BitVec 64 := (u32At firmware (entryAddr rsdt i)).setWidth 64

/-- The first `i` tables. -/
def tables (rsdt : BitVec 64) (i : Nat) : List (BitVec 64) := (List.range i).map (table firmware rsdt)

/-- The signature of the table is that of an MADT. -/
def IsMadt (table : BitVec 64) : Prop := bytesAt firmware table 4 = apicSignature

instance (table : BitVec 64) : Decidable (IsMadt firmware table) := inferInstanceAs (Decidable (_ = _))

/-- Round `i` from `start` on is made: no table before it is an MADT. -/
def Visited (rsdt : BitVec 64) (start n i : Nat) : Prop :=
  start ≤ i ∧ i < start + n ∧ ∀ j, start ≤ j → j < i → ¬ IsMadt firmware (table firmware rsdt j)

/-- The word after the fields of the MADT's header. -/
def entriesOf (madt : BitVec 64) : BitVec 64 := (MADT.ofBytes (bytesAt firmware madt 52)).entries

end Firmware

section Asks

variable {firmware : BitVec 64 → Byte}

theorem readByte_asks (a : BitVec 64) : Prog.Asks (answer firmware) (readByte a) [.read a] (firmware a) :=
  Prog.asks_call rfl

theorem println_asks (line : Line) : Prog.Asks (answer firmware) (println line) [.println line] () := Prog.asks_call rfl

theorem callMapPage_asks (virt phys : BitVec 64) : Prog.Asks (answer firmware) (callMapPage virt phys)
    [.mapPage virt phys (flags.WRITABLE ||| flags.PRESENT)] () := Prog.asks_call rfl

theorem readBytes_asks (a : BitVec 64) (n : Nat) :
    Prog.Asks (answer firmware) (readBytes a n) (reads a n) (bytesAt firmware a n) := by
  induction n generalizing a with
  | zero => exact Prog.asks_pure _
  | succ n ih =>
    have h : Prog.Asks (answer firmware) (readBytes a (n + 1)) ([.read a] ++ (reads (a + 1#64) n ++ [])) _ :=
      (readByte_asks a).bind ((ih (a + 1#64)).bind (Prog.asks_pure _))
    rwa [List.append_nil] at h

theorem readU32_asks (a : BitVec 64) : Prog.Asks (answer firmware) (readU32 a) (reads a 4) (u32At firmware a) := by
  have h : Prog.Asks (answer firmware) (readU32 a) (reads a 4 ++ []) (u32At firmware a) :=
    (readBytes_asks a 4).bind (Prog.asks_pure _)
  rwa [List.append_nil] at h

theorem subU32_asks {a b : BitVec 32} (h : b.toNat ≤ a.toNat) :
    Prog.Asks (answer firmware) (subU32 a b) [] (a - b) := by
  unfold subU32
  rw [if_pos h]
  exact Prog.asks_pure _

theorem subU32_overflows {a b : BitVec 32} (h : ¬ b.toNat ≤ a.toNat) :
    (subU32 a b).answered (answer firmware) = none ∧ (subU32 a b).asked (answer firmware) = [.overflow] := by
  unfold subU32
  rw [if_neg h]
  exact ⟨rfl, rfl⟩

/-- A round of the loop up to the comparison of the signature. -/
def roundAsks (firmware : BitVec 64 → Byte) (rsdt : BitVec 64) (i : Nat) : List Op :=
  reads (entryAddr rsdt i) 4 ++ ([.println (.table i (u32At firmware (entryAddr rsdt i)))] ++
    ([.mapPage (table firmware rsdt i) (table firmware rsdt i) (flags.WRITABLE ||| flags.PRESENT)] ++
      (reads (table firmware rsdt i) 36 ++
        ([.println (.header (SDTHeader.ofBytes (bytesAt firmware (table firmware rsdt i) 36)))] ++
        reads (table firmware rsdt i) 4))))

/-- The loop asks for the rounds one after the other, until it comes to an MADT. -/
def findAsks (firmware : BitVec 64 → Byte) (rsdt : BitVec 64) : Nat → Nat → List Op
  | _, 0 => [.println .notFound]
  | i, n + 1 => roundAsks firmware rsdt i ++
    if IsMadt firmware (table firmware rsdt i) then [.println .found] ++ reads (table firmware rsdt i) 52
    else findAsks firmware rsdt (i + 1) n

/-- The first MADT from round `i` on. -/
def findResult (firmware : BitVec 64 → Byte) (rsdt : BitVec 64) : Nat → Nat → Option (BitVec 64)
  | _, 0 => none
  | i, n + 1 =>
    if IsMadt firmware (table firmware rsdt i) then some (table firmware rsdt i) else findResult firmware rsdt (i + 1) n

theorem findFrom_asks (rsdt : BitVec 64) (i n : Nat) :
    Prog.Asks (answer firmware) (findFrom (rsdt + 36#64) i n) (findAsks firmware rsdt i n)
      ((findResult firmware rsdt i n).map fun t => MADT.ofBytes (bytesAt firmware t 52)) := by
  induction n generalizing i with
  | zero =>
    have h : Prog.Asks (answer firmware) (findFrom (rsdt + 36#64) i 0) ([.println .notFound] ++ []) none :=
      (println_asks _).bind (Prog.asks_pure _)
    exact h
  | succ n ih =>
    -- after the header: the MADT is read, or the loop goes on
    have hend : Prog.Asks (answer firmware)
        (if bytesAt firmware (table firmware rsdt i) 4 = apicSignature then do
          println .found
          let madt ← readBytes (table firmware rsdt i) 52
          pure (some (MADT.ofBytes madt))
        else findFrom (rsdt + 36#64) (i + 1) n)
        (if IsMadt firmware (table firmware rsdt i) then [.println .found] ++ reads (table firmware rsdt i) 52
        else findAsks firmware rsdt (i + 1) n)
        ((findResult firmware rsdt i (n + 1)).map fun t => MADT.ofBytes (bytesAt firmware t 52)) := by
      unfold findResult
      by_cases hm : IsMadt firmware (table firmware rsdt i)
      · rw [if_pos hm, if_pos hm]
        unfold IsMadt at hm
        rw [if_pos hm]
        have h : Prog.Asks (answer firmware) (do
            println .found
            let madt ← readBytes (table firmware rsdt i) 52
            pure (some (MADT.ofBytes madt))) ([.println .found] ++ (reads (table firmware rsdt i) 52 ++ []))
            (some (MADT.ofBytes (bytesAt firmware (table firmware rsdt i) 52))) :=
          (println_asks _).bind ((readBytes_asks _ 52).bind (Prog.asks_pure _))
        rwa [List.append_nil] at h
      · rw [if_neg hm, if_neg hm]
        unfold IsMadt at hm
        rw [if_neg hm]
        exact ih (i + 1)
    have h : Prog.Asks (answer firmware) (findFrom (rsdt + 36#64) i (n + 1)) _ _ :=
      (readU32_asks _).bind ((println_asks _).bind ((callMapPage_asks _ _).bind ((readBytes_asks _ 36).bind
        ((println_asks _).bind ((readBytes_asks _ 4).bind hend)))))
    unfold findAsks roundAsks
    simp only [List.append_assoc] at h ⊢
    exact h

/-- What `test_rsdp` asks before it comes to the length of the RSDT. -/
def rsdpAsks (firmware : BitVec 64 → Byte) (response : RsdpResponse) : List Op :=
  [.println (.rsdpRevision response.revision)] ++ ([.println (.rsdpAddress response.address)] ++
    ([.mapPage response.address response.address (flags.WRITABLE ||| flags.PRESENT)] ++
      (reads response.address 20 ++ ([.println (.rsdp (RSDP.ofBytes (bytesAt firmware response.address 20)))] ++
        (reads (response.address + 16#64) 4 ++ (reads (response.address + 16#64) 4 ++
          ([.mapPage (rsdt firmware response.address) (rsdt firmware response.address)
            (flags.WRITABLE ||| flags.PRESENT)] ++
            reads (response.address + 16#64) 4)))))))

/-- What it asks for once it has an MADT. -/
def madtAsks (firmware : BitVec 64 → Byte) (madt : BitVec 64) : List Op :=
  let e := entriesOf firmware madt
  [.println (.madt (MADT.ofBytes (bytesAt firmware madt 52))), .mapPage e e (flags.WRITABLE ||| flags.PRESENT), .read e,
    .println (.entryType (firmware e)), .read (e + 1#64), .println (.recordLength (firmware (e + 1#64)))]

/-- What it asks after the length. -/
def tablesAsks (firmware : BitVec 64 → Byte) (ptr : BitVec 64) : List Op :=
  findAsks firmware (rsdt firmware ptr) 0 (count firmware ptr) ++
    ((findResult firmware (rsdt firmware ptr) 0 (count firmware ptr)).map (madtAsks firmware)).getD []

/-- What follows on the length in `find_MADT`. -/
def findMADTRest (rsdtAddr : BitVec 64) (length : BitVec 32) : Walk (Option MADT) := do
  let count := (← subU32 length 36#32) / 4#32
  findFrom (rsdtAddr + 36#64) 0 count.toNat

/-- What follows on the MADT in `test_rsdp`. -/
def testRsdpRest : Option MADT → Walk Unit
  | none => pure ()
  | some madt => do
    println (.madt madt)
    callMapPage madt.entries madt.entries
    let entryType ← readByte madt.entries
    println (.entryType entryType)
    let recordLength ← readByte (madt.entries + 1#64)
    println (.recordLength recordLength)

theorem testRsdpRest_asks (r : Option (BitVec 64)) :
    Prog.Asks (answer firmware) (testRsdpRest (r.map fun t => MADT.ofBytes (bytesAt firmware t 52)))
      ((r.map (madtAsks firmware)).getD []) () := by
  cases r with
  | none => exact Prog.asks_pure ()
  | some t =>
    exact (println_asks _).bind ((callMapPage_asks _ _).bind ((readByte_asks _).bind ((println_asks _).bind
      ((readByte_asks _).bind (println_asks _)))))

theorem testRsdp_eq (response : RsdpResponse) : testRsdp (some response) = (do
    println (.rsdpRevision response.revision)
    println (.rsdpAddress response.address)
    callMapPage response.address response.address
    let rsdp ← readBytes response.address 20
    println (.rsdp (RSDP.ofBytes rsdp))
    let virt ← readU32 (response.address + 16#64)
    let phys ← readU32 (response.address + 16#64)
    callMapPage (virt.setWidth 64) (phys.setWidth 64)
    let rsdtAddress ← readU32 (response.address + 16#64)
    let length ← readU32 (rsdtAddress.setWidth 64 + 4#64)
    findMADTRest (rsdtAddress.setWidth 64) length >>= testRsdpRest) := by
  have hfind : ∀ rsdtAddr, findMADT rsdtAddr = readU32 (rsdtAddr + 4#64) >>= findMADTRest rsdtAddr := fun _ => rfl
  unfold testRsdp
  simp only [hfind, Prog.bind_bind]
  rfl

theorem count_eq {ptr : BitVec 64} (h : ¬ length firmware (rsdt firmware ptr) < 36) :
    ((u32At firmware (rsdt firmware ptr + 4#64) - 36#32) / 4#32).toNat = count firmware ptr := by
  have hle : (36#32).toNat ≤ (u32At firmware (rsdt firmware ptr + 4#64)).toNat := Nat.le_of_not_lt h
  rw [BitVec.toNat_udiv, BitVec.toNat_sub_of_le hle]
  rfl

theorem testRsdp_asked (response : RsdpResponse) : (testRsdp (some response)).asked (answer firmware) =
    rsdpAsks firmware response ++ (reads (rsdt firmware response.address + 4#64) 4 ++
      if length firmware (rsdt firmware response.address) < 36 then [.overflow]
        else tablesAsks firmware response.address) := by
  -- from the length on: it is too short for a header, or the entries are walked
  have hrest : (findMADTRest (rsdt firmware response.address)
    (u32At firmware (rsdt firmware response.address + 4#64)) >>=
      testRsdpRest).asked (answer firmware) =
        if length firmware (rsdt firmware response.address) < 36 then [.overflow]
          else tablesAsks firmware response.address := by
    by_cases h : length firmware (rsdt firmware response.address) < 36
    · obtain ⟨hnone, hover⟩ :=
        @subU32_overflows firmware (u32At firmware (rsdt firmware response.address + 4#64)) 36#32 (Nat.not_le.2 h)
      rw [if_pos h]
      unfold findMADTRest
      rw [Prog.bind_bind, Prog.bind_unanswered hnone, hover]
    · have hfind := @findFrom_asks firmware (rsdt firmware response.address) 0 (count firmware response.address)
      have hle : (36#32).toNat ≤ (u32At firmware (rsdt firmware response.address + 4#64)).toNat := Nat.le_of_not_lt h
      rw [← count_eq h] at hfind
      have hall : Prog.Asks (answer firmware) (findMADTRest (rsdt firmware response.address)
          (u32At firmware (rsdt firmware response.address + 4#64))) ([] ++ _) _ :=
        (subU32_asks hle).bind hfind
      rw [if_neg h, hall.asked_bind, (testRsdpRest_asks _).asked, count_eq h]
      rfl
  rw [testRsdp_eq, (println_asks _).asked_bind, (println_asks _).asked_bind, (callMapPage_asks _ _).asked_bind,
    (readBytes_asks _ 20).asked_bind, (println_asks _).asked_bind, (readU32_asks _).asked_bind,
      (readU32_asks _).asked_bind,
    (callMapPage_asks _ _).asked_bind, (readU32_asks _).asked_bind, (readU32_asks _).asked_bind]
  unfold rsdpAsks
  simp only [List.append_assoc]
  rw [← hrest]
  rfl

end Asks

/-! ## Where the reads are served -/

section Served

variable {firmware : BitVec 64 → Byte} {Q : List (BitVec 64) → BitVec 64 → Prop} {vs base : List (BitVec 64)}
  {a r : BitVec 64}

theorem Covered.less {n m : Nat} (h : Covered Q vs a n) (hm : m ≤ n) : Covered Q vs a m := fun k hk => h k (by omega)

theorem tables_succ (firmware : BitVec 64 → Byte) (r : BitVec 64) (i : Nat) :
    tables firmware r (i + 1) = tables firmware r i ++ [table firmware r i] := by
  unfold tables
  rw [List.range_succ, List.map_append]
  rfl

theorem mapped_round (firmware : BitVec 64 → Byte) (r : BitVec 64) (i : Nat) :
    mapped (roundAsks firmware r i) = [table firmware r i] := by
  simp [roundAsks, mapped_append, mapped]

theorem served_round (i : Nat) : Served Q (base ++ tables firmware r i) (roundAsks firmware r i) ↔
    Covered Q (base ++ tables firmware r i) (entryAddr r i) 4 ∧
      Covered Q (base ++ tables firmware r (i + 1)) (table firmware r i) 36 := by
  simp only [roundAsks, served_append, served_reads, mapped_reads, mapped, Served, List.append_nil, true_and,
    List.append_assoc, tables_succ]
  constructor
  · exact fun h => ⟨h.1, h.2.1⟩
  · exact fun h => ⟨h.1, h.2, h.2.less (by decide)⟩

/-- Of the rounds from `i` on, round `i` is made, and the later ones if its table is no MADT. -/
theorem visited_succ {i n j : Nat} : Visited firmware r i (n + 1) j ↔
    j = i ∨ ¬ IsMadt firmware (table firmware r i) ∧ Visited firmware r (i + 1) n j := by
  constructor
  · rintro ⟨h1, h2, h3⟩
    by_cases hj : j = i
    · exact .inl hj
    · exact .inr ⟨h3 i (Nat.le_refl i) (by omega), by omega, by omega, fun k hk hkj => h3 k (by omega) hkj⟩
  · rintro (rfl | ⟨hm, h1, h2, h3⟩)
    · exact ⟨Nat.le_refl j, by omega, fun k hk hkj => by omega⟩
    · refine ⟨by omega, by omega, fun k hk hkj => ?_⟩
      by_cases hki : k = i
      · rw [hki]
        exact hm
      · exact h3 k (by omega) hkj

theorem served_find (i n : Nat) : Served Q (base ++ tables firmware r i) (findAsks firmware r i n) ↔
    ∀ j, Visited firmware r i n j →
      Covered Q (base ++ tables firmware r j) (entryAddr r j) 4 ∧
      Covered Q (base ++ tables firmware r (j + 1)) (table firmware r j) 36 ∧
      (IsMadt firmware (table firmware r j) →
        Covered Q (base ++ tables firmware r (j + 1)) (table firmware r j) 52) := by
  induction n generalizing i with
  | zero =>
    unfold findAsks
    refine ⟨fun _ j hj => ?_, fun _ => trivial⟩
    have h1 := hj.1
    have h2 := hj.2.1
    omega
  | succ n ih =>
    unfold findAsks
    rw [served_append, served_round, mapped_round, List.append_assoc, ← tables_succ]
    by_cases hm : IsMadt firmware (table firmware r i)
    · rw [if_pos hm]
      simp only [visited_succ, hm, not_true_eq_false, false_and, or_false, forall_eq, true_implies,
        List.singleton_append, Served, served_reads, and_assoc]
    · rw [if_neg hm, ih]
      simp only [visited_succ, hm, not_false_eq_true, true_and]
      constructor
      · rintro ⟨⟨h1, h2⟩, h⟩ j (rfl | hj)
        · exact ⟨h1, h2, fun hj => absurd hj hm⟩
        · exact h j hj
      · intro h
        obtain ⟨h1, h2, -⟩ := h i (.inl rfl)
        exact ⟨⟨h1, h2⟩, fun j hj => h j (.inr hj)⟩

/-- The MADT that the loop comes to. -/
theorem findResult_eq_some {i n : Nat} {t : BitVec 64} : findResult firmware r i n = some t ↔
    ∃ j, Visited firmware r i n j ∧ IsMadt firmware (table firmware r j) ∧ t = table firmware r j := by
  induction n generalizing i with
  | zero =>
    unfold findResult
    refine ⟨fun h => (by cases h), ?_⟩
    rintro ⟨j, hj, -⟩
    have h1 := hj.1
    have h2 := hj.2.1
    omega
  | succ n ih =>
    unfold findResult
    by_cases hm : IsMadt firmware (table firmware r i)
    · rw [if_pos hm]
      simp [visited_succ, hm, eq_comm]
    · rw [if_neg hm, ih]
      simp only [visited_succ, hm, not_false_eq_true, true_and]
      constructor
      · rintro ⟨j, hj, h⟩
        exact ⟨j, .inr hj, h⟩
      · rintro ⟨j, rfl | hj, h⟩
        · exact absurd h.1 hm
        · exact ⟨j, hj, h⟩

/-- The pages that are mapped when the loop has come to an MADT. -/
theorem mapped_find {i n j : Nat} (hj : Visited firmware r i n j) (hm : IsMadt firmware (table firmware r j)) :
    tables firmware r i ++ mapped (findAsks firmware r i n) = tables firmware r (j + 1) := by
  induction n generalizing i with
  | zero =>
    have h1 := hj.1
    have h2 := hj.2.1
    omega
  | succ n ih =>
    unfold findAsks
    rw [mapped_append, mapped_round, ← List.append_assoc, ← tables_succ]
    rcases visited_succ.1 hj with rfl | ⟨hno, hj⟩
    · rw [if_pos hm]
      simp [mapped]
    · rw [if_neg hno, ih hj]

theorem Covered.part {n k m : Nat} (h : Covered Q vs a n) (hk : k + m ≤ n) :
    Covered Q vs (a + BitVec.ofNat 64 k) m := by
  intro j hj
  rw [BitVec.add_assoc, ← BitVec.ofNat_add]
  exact h (k + j) (by omega)

/-- The addresses that are mapped when round `i` begins. -/
def pages (firmware : BitVec 64 → Byte) (ptr : BitVec 64) (i : Nat) : List (BitVec 64) :=
  [ptr, rsdt firmware ptr] ++ tables firmware (rsdt firmware ptr) i

/-- The MADT that the loop comes to is the table of entry `i`. -/
def MadtEntry (firmware : BitVec 64 → Byte) (ptr : BitVec 64) (i : Nat) : Prop :=
  Visited firmware (rsdt firmware ptr) 0 (count firmware ptr) i ∧ IsMadt firmware (table firmware (rsdt firmware ptr) i)

theorem served_rsdp (hmono : ∀ vs ws a, Q vs a → (∀ v ∈ vs, v ∈ ws) → Q ws a) (response : RsdpResponse) :
    Served Q [] (rsdpAsks firmware response) ↔ Covered Q [response.address] response.address 20 := by
  simp only [rsdpAsks, served_append, served_reads, mapped_reads, mapped, Served, List.append_nil,
    List.nil_append, true_and]
  constructor
  · exact fun h => h.1
  · intro h
    have hpart : Covered Q [response.address] (response.address + 16#64) 4 := h.part (k := 16) (by decide)
    exact ⟨h, hpart, hpart, fun k hk => hmono _ _ _ (hpart k hk) fun v hv => List.mem_append_left _ hv⟩

theorem mapped_rsdp (firmware : BitVec 64 → Byte) (response : RsdpResponse) :
    mapped (rsdpAsks firmware response) = pages firmware response.address 0 := by
  simp [rsdpAsks, mapped_append, mapped, pages, tables]

/-- The two reads through the pointer of the MADT. -/
theorem served_madt (ptr : BitVec 64) :
    Served Q (pages firmware ptr 0 ++ mapped (findAsks firmware (rsdt firmware ptr) 0 (count firmware ptr)))
      (((findResult firmware (rsdt firmware ptr) 0 (count firmware ptr)).map (madtAsks firmware)).getD []) ↔
    ∀ i, MadtEntry firmware ptr i → ∀ e, e = entriesOf firmware (table firmware (rsdt firmware ptr) i) →
      Q (pages firmware ptr (i + 1) ++ [e]) e ∧ Q (pages firmware ptr (i + 1) ++ [e]) (e + 1#64) := by
  have hpages : ∀ i, MadtEntry firmware ptr i →
      pages firmware ptr 0 ++ mapped (findAsks firmware (rsdt firmware ptr) 0 (count firmware ptr)) =
        pages firmware ptr (i + 1) := by
    intro i hi
    unfold pages
    rw [List.append_assoc, mapped_find hi.1 hi.2]
  cases hfind : findResult firmware (rsdt firmware ptr) 0 (count firmware ptr) with
  | none =>
    refine ⟨fun _ i hi => ?_, fun _ => trivial⟩
    have hsome := findResult_eq_some.2 ⟨i, hi.1, hi.2, rfl⟩
    rw [hfind] at hsome
    cases hsome
  | some t =>
    have hentry : ∀ i, MadtEntry firmware ptr i → t = table firmware (rsdt firmware ptr) i := by
      intro i hi
      have hsome := findResult_eq_some.2 ⟨i, hi.1, hi.2, rfl⟩
      rw [hfind] at hsome
      exact Option.some.inj hsome
    show Served Q _ (madtAsks firmware t) ↔ _
    simp only [madtAsks, Served, and_true]
    constructor
    · rintro h i hi e rfl
      rw [hpages i hi, hentry i hi] at h
      exact h
    · intro h
      obtain ⟨i, hv, hm, ht⟩ := findResult_eq_some.1 hfind
      rw [hpages i ⟨hv, hm⟩, ht]
      exact h i ⟨hv, hm⟩ _ rfl

/-- Where all reads of `test_rsdp` are served. -/
theorem served_walk (hmono : ∀ vs ws a, Q vs a → (∀ v ∈ vs, v ∈ ws) → Q ws a) (response : RsdpResponse) :
    let ptr := response.address
    let r := rsdt firmware ptr
    Served Q [] ((testRsdp (some response)).asked (answer firmware)) ↔
      Covered Q [ptr] ptr 20 ∧ 36 ≤ length firmware r ∧ Covered Q (pages firmware ptr 0) (r + 4#64) 4 ∧
      (∀ i, Visited firmware r 0 (count firmware ptr) i →
        Covered Q (pages firmware ptr i) (entryAddr r i) 4 ∧
          Covered Q (pages firmware ptr (i + 1)) (table firmware r i) 36 ∧
        (IsMadt firmware (table firmware r i) → Covered Q (pages firmware ptr (i + 1)) (table firmware r i) 52)) ∧
      ∀ i, MadtEntry firmware ptr i → ∀ e, e = entriesOf firmware (table firmware r i) →
        Q (pages firmware ptr (i + 1) ++ [e]) e ∧ Q (pages firmware ptr (i + 1) ++ [e]) (e + 1#64) := by
  intro ptr r
  rw [testRsdp_asked, served_append, served_append, served_rsdp hmono, mapped_rsdp, mapped_reads, List.nil_append,
    List.append_nil, served_reads]
  apply and_congr_right
  intro _
  by_cases h : length firmware r < 36
  · rw [if_pos h]
    simp [Served, Nat.not_le.2 h]
  · have hfind := @served_find firmware Q [ptr, r] r 0 (count firmware ptr)
    rw [if_neg h, tablesAsks, served_append, served_madt]
    unfold pages
    rw [hfind]
    simp only [Nat.le_of_not_lt h, true_and]
    exact Iff.rfl

end Served

/-! ## Bytes of the tables -/

/-- One of the `n` bytes from `start` on. -/
def InRegion (start : BitVec 64) (n : Nat) (a : BitVec 64) : Prop := (a - start).toNat < n

/-- A byte of the RSDP, of the RSDT, or of a table that the RSDT names. -/
def Inside (firmware : BitVec 64 → Byte) (ptr a : BitVec 64) : Prop :=
  InRegion ptr 20 a ∨ InRegion (rsdt firmware ptr) (length firmware (rsdt firmware ptr)) a ∨
    ∃ i < count firmware ptr,
      InRegion (table firmware (rsdt firmware ptr) i) (length firmware (table firmware (rsdt firmware ptr) i)) a

/-- On a page that is present once the addresses are mapped, and a byte of the tables. -/
def Within (firmware : BitVec 64 → Byte) (s : Mem) (ptr : BitVec 64) (vs : List (BitVec 64)) (a : BitVec 64) : Prop :=
  Reaches s vs a ∧ Inside firmware ptr a

/-- What the walk may do: each byte it reads is on a page that is present then, and one of the tables'; the count
does not underflow; and what it prints of the first entry are bytes 44 and 45 of the MADT. -/
structure WalkSafe (firmware : BitVec 64 → Byte) (ptr : BitVec 64) (o : Outcome) (w : World) : Prop where
  accesses : ∀ x ∈ w.accesses, x.present = true ∧ Inside firmware ptr x.address
  count : o ≠ .panic "attempt to subtract with overflow"
  entryType : ∀ v, .entryType v ∈ w.output →
    ∃ i, MadtEntry firmware ptr i ∧ v = firmware (table firmware (rsdt firmware ptr) i + 44#64)
  recordLength : ∀ v, .recordLength v ∈ w.output →
    ∃ i, MadtEntry firmware ptr i ∧ v = firmware (table firmware (rsdt firmware ptr) i + 45#64)

/-- The tables are where the walk expects them: the RSDP, the length and the entries of the RSDT lie on pages that
are present or mapped by then; the RSDT has room for its header; the headers of the tables up to the first MADT do
so too, inside of the tables; and in the MADT, instead of entries, there is the address of a copy of bytes 44 and 45
in one of the tables. -/
structure WalkFits (firmware : BitVec 64 → Byte) (s : Mem) (ptr : BitVec 64) : Prop where
  rsdp : Covered (Reaches s) [ptr] ptr 20
  length : 36 ≤ length firmware (rsdt firmware ptr)
  rsdt : Covered (Reaches s) (pages firmware ptr 0) (rsdt firmware ptr + 4#64) 4
  entries : ∀ i, Visited firmware (Acpi.rsdt firmware ptr) 0 (count firmware ptr) i →
    Covered (Reaches s) (pages firmware ptr i) (entryAddr (Acpi.rsdt firmware ptr) i) 4
  headers : ∀ i, Visited firmware (Acpi.rsdt firmware ptr) 0 (count firmware ptr) i →
    Covered (Within firmware s ptr) (pages firmware ptr (i + 1)) (table firmware (Acpi.rsdt firmware ptr) i) 36
  madt : ∀ i, MadtEntry firmware ptr i →
    Covered (Within firmware s ptr) (pages firmware ptr (i + 1)) (table firmware (Acpi.rsdt firmware ptr) i) 52
  pointer : ∀ i, MadtEntry firmware ptr i → ∀ e, e = entriesOf firmware (table firmware (Acpi.rsdt firmware ptr) i) →
    Within firmware s ptr (pages firmware ptr (i + 1) ++ [e]) e ∧
    Within firmware s ptr (pages firmware ptr (i + 1) ++ [e]) (e + 1#64) ∧
    firmware e = firmware (table firmware (Acpi.rsdt firmware ptr) i + 44#64) ∧
    firmware (e + 1#64) = firmware (table firmware (Acpi.rsdt firmware ptr) i + 45#64)

section Safe

variable {firmware : BitVec 64 → Byte} {s : Mem} {ptr : BitVec 64}

theorem inRegion_add {start : BitVec 64} {n k : Nat} (hk : k < n) (hn : n ≤ 2 ^ 64) :
    InRegion start n (start + BitVec.ofNat 64 k) := by
  unfold InRegion
  rw [BitVec.add_comm, BitVec.add_sub_cancel, BitVec.toNat_ofNat, Nat.mod_eq_of_lt (by omega)]
  exact hk

theorem length_lt (firmware : BitVec 64 → Byte) (t : BitVec 64) : length firmware t < 2 ^ 32 :=
  (u32At firmware (t + 4#64)).isLt

theorem covered_within {vs : List (BitVec 64)} {a : BitVec 64} {n : Nat}
    (h : ∀ k < n, Inside firmware ptr (a + BitVec.ofNat 64 k)) :
    Covered (Within firmware s ptr) vs a n ↔ Covered (Reaches s) vs a n :=
  ⟨fun hc k hk => (hc k hk).1, fun hc k hk => ⟨hc k hk, h k hk⟩⟩

/-- What is read of the RSDP, of the length and of the entries lies in the RSDP and in the RSDT. -/
theorem rsdp_inside (k : Nat) (hk : k < 20) : Inside firmware ptr (ptr + BitVec.ofNat 64 k) :=
  .inl (inRegion_add hk (by decide))

theorem rsdt_inside {k : Nat} (hk : k < length firmware (rsdt firmware ptr)) :
    Inside firmware ptr (rsdt firmware ptr + BitVec.ofNat 64 k) := by
  have hlt := length_lt firmware (rsdt firmware ptr)
  exact .inr (.inl (inRegion_add hk (by omega)))

theorem length_inside (hlen : 36 ≤ length firmware (rsdt firmware ptr)) (k : Nat) (hk : k < 4) :
    Inside firmware ptr (rsdt firmware ptr + 4#64 + BitVec.ofNat 64 k) := by
  have h := @rsdt_inside firmware ptr (4 + k) (by omega)
  rwa [BitVec.ofNat_add, ← BitVec.add_assoc] at h

theorem entry_inside {i : Nat} (hi : i < count firmware ptr) (k : Nat) (hk : k < 4) :
    Inside firmware ptr (entryAddr (rsdt firmware ptr) i + BitVec.ofNat 64 k) := by
  unfold count at hi
  have h := @rsdt_inside firmware ptr (36 + (4 * i + k)) (by omega)
  rwa [BitVec.ofNat_add, BitVec.ofNat_add, ← BitVec.add_assoc, ← BitVec.add_assoc] at h

/-- The messages about the first entry of an MADT. -/
theorem madt_messages {line : Line} (hline : (∃ v, line = .entryType v) ∨ ∃ v, line = .recordLength v)
    (response : RsdpResponse) : line ∈ messages ((testRsdp (some response)).asked (answer firmware)) ↔
      36 ≤ length firmware (rsdt firmware response.address) ∧ ∃ t,
        findResult firmware (rsdt firmware response.address) 0 (count firmware response.address) = some t ∧
        (line = .entryType (firmware (entriesOf firmware t)) ∨
          line = .recordLength (firmware (entriesOf firmware t + 1#64))) := by
  have hrsdp : line ∉ messages (rsdpAsks firmware response) := by
    rcases hline with ⟨v, rfl⟩ | ⟨v, rfl⟩ <;> simp [rsdpAsks, messages_append, messages]
  have hfind : ∀ r n i, line ∉ messages (findAsks firmware r i n) := by
    intro r n
    induction n with
    | zero =>
      intro i
      rcases hline with ⟨v, rfl⟩ | ⟨v, rfl⟩ <;> simp [findAsks, messages]
    | succ n ih =>
      intro i
      unfold findAsks
      rw [messages_append]
      by_cases hm : IsMadt firmware (table firmware r i)
      · rw [if_pos hm]
        rcases hline with ⟨v, rfl⟩ | ⟨v, rfl⟩ <;> simp [roundAsks, messages_append, messages]
      · rw [if_neg hm]
        have hlater := ih (i + 1)
        rcases hline with ⟨v, rfl⟩ | ⟨v, rfl⟩ <;> simp [roundAsks, messages_append, messages, hlater]
  rw [testRsdp_asked, messages_append, messages_append, messages_reads, List.nil_append, List.mem_append,
    or_iff_right hrsdp]
  by_cases h : length firmware (rsdt firmware response.address) < 36
  · rw [if_pos h]
    simp [messages, Nat.not_le.2 h]
  · rw [if_neg h, tablesAsks, messages_append, List.mem_append, or_iff_right (hfind _ _ _)]
    simp only [Nat.le_of_not_lt h, true_and]
    cases hr : findResult firmware (rsdt firmware response.address) 0 (count firmware response.address) with
    | none => simp [messages]
    | some t => rcases hline with ⟨v, rfl⟩ | ⟨v, rfl⟩ <;> simp [madtAsks, messages]

/-- The MADT that the loop comes to is that of one entry. -/
theorem findResult_entry {t : BitVec 64} :
    findResult firmware (rsdt firmware ptr) 0 (count firmware ptr) = some t ↔
      ∃ i, MadtEntry firmware ptr i ∧ t = table firmware (rsdt firmware ptr) i := by
  rw [findResult_eq_some]
  constructor
  · rintro ⟨i, hv, hm, ht⟩
    exact ⟨i, ⟨hv, hm⟩, ht⟩
  · rintro ⟨i, ⟨hv, hm⟩, ht⟩
    exact ⟨i, hv, hm, ht⟩

theorem within_mono (vs ws : List (BitVec 64)) (a : BitVec 64) (h : Within firmware s ptr vs a)
    (hsub : ∀ v ∈ vs, v ∈ ws) : Within firmware s ptr ws a := ⟨h.1.mono hsub, h.2⟩

variable {free : List Nat} {response : RsdpResponse}

/-- A run that was safe shows where the tables are. -/
theorem fits_of_safe (h : PageTables s free) (hable : (run firmware (testRsdp (some response)) ⟨s, [], [], []⟩).2.Able)
    (hsafe : WalkSafe firmware response.address (run firmware (testRsdp (some response)) ⟨s, [], [], []⟩).1
      (run firmware (testRsdp (some response)) ⟨s, [], [], []⟩).2) : WalkFits firmware s response.address := by
  have hserved := served_of_run (World.At.start h) hable hsafe.count fun x hx => (hsafe.accesses x hx).1
  obtain ⟨-, hacc, hout⟩ := run_of_served (World.At.start h) hable hserved
  -- each access was present and inside of its table
  have hinside : ∀ a ∈ bytesRead ((testRsdp (some response)).asked (answer firmware)),
    Inside firmware response.address a := by
    intro a ha
    refine (hsafe.accesses ⟨a, true⟩ ?_).2
    rw [hacc, List.nil_append]
    exact List.mem_map_of_mem ha
  obtain ⟨h1, h2, h3, h4, h5⟩ := (served_walk within_mono response).1 (served_and.2 ⟨hserved, hinside⟩)
  refine ⟨fun k hk => (h1 k hk).1, h2, fun k hk => (h3 k hk).1, fun i hi k hk => ((h4 i hi).1 k hk).1,
    fun i hi => (h4 i hi).2.1, fun i hi => (h4 i hi.1).2.2 hi.2, ?_⟩
  rintro i hi e rfl
  have hfind := findResult_entry.2 ⟨i, hi, rfl⟩
  have hsame : ∀ j, MadtEntry firmware response.address j →
      table firmware (rsdt firmware response.address) j = table firmware (rsdt firmware response.address) i := by
    intro j hj
    have hfind' := findResult_entry.2 ⟨j, hj, rfl⟩
    rw [hfind] at hfind'
    exact (Option.some.inj hfind').symm
  refine ⟨(h5 i hi _ rfl).1, (h5 i hi _ rfl).2, ?_, ?_⟩
  · obtain ⟨j, hj, hv⟩ := hsafe.entryType
      (firmware (entriesOf firmware (table firmware (rsdt firmware response.address) i))) (by
        rw [hout, List.nil_append, madt_messages (.inl ⟨_, rfl⟩)]
        exact ⟨h2, _, hfind, .inl rfl⟩)
    rw [hv, hsame j hj]
  · obtain ⟨j, hj, hv⟩ := hsafe.recordLength
      (firmware (entriesOf firmware (table firmware (rsdt firmware response.address) i) + 1#64)) (by
        rw [hout, List.nil_append, madt_messages (.inr ⟨_, rfl⟩)]
        exact ⟨h2, _, hfind, .inr rfl⟩)
    rw [hv, hsame j hj]

/-- Where the tables fit, every read is served and the entry is the right one. -/
theorem safe_of_fits (h : PageTables s free) (hable : (run firmware (testRsdp (some response)) ⟨s, [], [], []⟩).2.Able)
    (hfits : WalkFits firmware s response.address) :
    WalkSafe firmware response.address (run firmware (testRsdp (some response)) ⟨s, [], [], []⟩).1
      (run firmware (testRsdp (some response)) ⟨s, [], [], []⟩).2 := by
  have hserved : Served (Within firmware s response.address) []
    ((testRsdp (some response)).asked (answer firmware)) := by
    refine (served_walk within_mono response).2
      ⟨?_, hfits.length, ?_, fun i hi => ⟨?_, hfits.headers i hi, fun hm => hfits.madt i ⟨hi, hm⟩⟩, ?_⟩
    · exact (covered_within rsdp_inside).2 hfits.rsdp
    · exact (covered_within (length_inside hfits.length)).2 hfits.rsdt
    · have hlt := hi.2.1
      rw [Nat.zero_add] at hlt
      exact (covered_within (entry_inside hlt)).2 (hfits.entries i hi)
    · exact fun i hi e he => ⟨(hfits.pointer i hi e he).1, (hfits.pointer i hi e he).2.1⟩
  obtain ⟨hreach, hinside⟩ := served_and.1 hserved
  obtain ⟨hret, hacc, hout⟩ := run_of_served (World.At.start h) hable hreach
  refine ⟨?_, ?_, ?_, ?_⟩
  · intro x hx
    rw [hacc, List.nil_append] at hx
    obtain ⟨a, ha, rfl⟩ := List.mem_map.1 hx
    exact ⟨rfl, hinside a ha⟩
  · rw [hret]
    exact Outcome.noConfusion
  · intro v hv
    rw [hout, List.nil_append, madt_messages (.inl ⟨v, rfl⟩)] at hv
    obtain ⟨-, t, ht, hline | hline⟩ := hv
    · obtain ⟨i, hi, rfl⟩ := findResult_entry.1 ht
      refine ⟨i, hi, ?_⟩
      rw [Line.entryType.inj hline]
      exact (hfits.pointer i hi _ rfl).2.2.1
    · cases hline
  · intro v hv
    rw [hout, List.nil_append, madt_messages (.inr ⟨v, rfl⟩)] at hv
    obtain ⟨-, t, ht, hline | hline⟩ := hv
    · cases hline
    · obtain ⟨i, hi, rfl⟩ := findResult_entry.1 ht
      refine ⟨i, hi, ?_⟩
      rw [Line.recordLength.inj hline]
      exact (hfits.pointer i hi _ rfl).2.2.2

/-- With three frames for each call, no call of `map_page` runs out of them. -/
theorem able_of_frames {α : Type} {p : Walk α} {w : World} (h : PageTables w.mem free) (hw : w.Able)
    (hlen : 3 * (mapped (p.asked (answer firmware))).length ≤ free.length) : (run firmware p w).2.Able := by
  induction p generalizing w free with
  | ret _ => exact hw
  | op o k ih =>
    cases o with
    | read a =>
      unfold run
      split
      · exact @ih _ free { w with accesses := w.accesses ++ [⟨a, present w.mem a⟩] } h hw hlen
      · exact hw
    | mapPage v p fl =>
      rw [asked_mapPage, mapped, List.length_cons] at hlen
      have h3 := w.mem.missingTables_le v
      obtain ⟨r, mem, free', hx, h', hr⟩ := mapPage_run h v p fl
      have hnext : r ≠ .error .outOfFrames ∧ free.length ≤ free'.length + 3 := by
        cases hr with
        | huge => exact ⟨by simp, by omega⟩
        | already => exact ⟨by simp, by omega⟩
        | exhausted _ _ hmiss => omega
        | mapped => exact ⟨by simp, by rw [List.length_drop]; omega⟩
      unfold run
      rw [hx]
      refine @ih () free' { w with mem := mem, results := w.results ++ [r] } h' ?_ (by omega)
      intro r' hr'
      rcases List.mem_append.1 hr' with hr' | hr'
      · exact hw r' hr'
      · rw [List.mem_singleton.1 hr']
        exact hnext.1
    | println line => exact @ih () free { w with output := w.output ++ [line] } h hw hlen
    | overflow => exact hw

/-- How often `test_rsdp` calls `map_page`. -/
theorem mapped_length (response : RsdpResponse) :
    (mapped ((testRsdp (some response)).asked (answer firmware))).length ≤ count firmware response.address + 3 := by
  have hfind : ∀ r n i, (mapped (findAsks firmware r i n)).length ≤ n := by
    intro r n
    induction n with
    | zero => exact fun i => Nat.le_refl 0
    | succ n ih =>
      intro i
      unfold findAsks
      rw [mapped_append, mapped_round, List.length_append]
      split
      · simp [mapped]
      · have hlater := ih (i + 1)
        simp only [List.length_singleton]
        omega
  rw [testRsdp_asked, mapped_append, mapped_append, mapped_rsdp, mapped_reads, List.nil_append, List.length_append]
  have hpages : (pages firmware response.address 0).length = 2 := rfl
  rw [hpages]
  split
  · simp [mapped]
  · have hloop := hfind (rsdt firmware response.address) (count firmware response.address) 0
    rw [tablesAsks, mapped_append, List.length_append]
    cases findResult firmware (rsdt firmware response.address) 0 (count firmware response.address) with
    | none =>
      simp only [Option.map_none, Option.getD_none, mapped, List.length_nil]
      omega
    | some t =>
      simp only [Option.map_some, Option.getD_some, madtAsks, mapped, List.length_cons, List.length_nil]
      omega

end Safe

/-! ## A machine with sixteen frames -/

/-- `emptyTables` with sixteen usable frames. -/
def roomyTables : Mem := { emptyTables with memoryMap := some [⟨0x100000, 0x10000, .usable⟩] }

theorem regionFrames_length (n addr : Nat) : (regionFrames addr (addr + n * 4096)).length = n := by
  induction n generalizing addr with
  | zero =>
    rw [regionFrames, if_neg (by simp [FRAME_SIZE])]
    rfl
  | succ n ih =>
    have hstop : addr + (n + 1) * 4096 = addr + FRAME_SIZE + n * 4096 := by
      unfold FRAME_SIZE
      omega
    rw [regionFrames, if_pos (by rw [hstop]; exact Nat.le_add_right _ _), hstop, List.length_cons, ih]

theorem roomyTables_mapOk : roomyTables.MapOk :=
  ⟨by simp [roomyTables], by simp [roomyTables], by simp [roomyTables, emptyTables]⟩

theorem roomyTables_bootOk : roomyTables.BootOk :=
  ⟨roomyTables_mapOk, roomyTables_mapOk.loopFits (by simp [roomyTables, emptyTables])⟩

theorem roomyTables_bootFrames : roomyTables.bootFrames = regionFrames 0x100000 (0x100000 + 16 * 4096) := by
  have halign : alignUp 0x100000 FRAME_SIZE = 0x100000 := by decide
  show [] ++ (regionFrames (alignUp 0x100000 FRAME_SIZE) 0x110000 ++ []) = _
  rw [List.nil_append, List.append_nil, halign]

theorem roomyTables_pageTables : PageTables roomyTables roomyTables.bootFrames.reverse := by
  have hfree : ∀ f ∈ roomyTables.bootFrames.reverse, 0x100000 ≤ f ∧ f + 4096 ≤ 0x110000 := by
    intro f hf
    rw [List.mem_reverse, roomyTables_bootFrames, mem_regionFrames] at hf
    exact ⟨hf.1, hf.2.1⟩
  refine ⟨freeInv_boot rfl roomyTables_bootOk rfl, fun f hf => ?_, emptyTables_pageTables.tree, fun p t _ ht hf => ?_,
    emptyTables_pageTables.zero⟩
  · have hbound := hfree f hf
    omega
  · have hbound := hfree t hf
    have hroot := (emptyTables_table ht).2
    omega

/-- An RSDP at 0x1000, an RSDT of a given length at 0x2000 and an MADT at 0x3000, whose first entry is that of a
processor: type 0, length 8, processor 0, APIC 0, enabled. -/
def sampleFirmware (rsdtLength : Byte) : BitVec 64 → Byte := fun a =>
  (List.lookup a [(0x1000#64, 0x52#8), (0x1001#64, 0x53#8), (0x1002#64, 0x44#8), (0x1003#64, 0x20#8),
    (0x1004#64, 0x50#8), (0x1005#64, 0x54#8), (0x1006#64, 0x52#8), (0x1007#64, 0x20#8), (0x1011#64, 0x20#8),
    (0x2000#64, 0x52#8), (0x2001#64, 0x53#8), (0x2002#64, 0x44#8), (0x2003#64, 0x54#8), (0x2004#64, rsdtLength),
    (0x2025#64, 0x30#8), (0x3000#64, 0x41#8), (0x3001#64, 0x50#8), (0x3002#64, 0x49#8), (0x3003#64, 0x43#8),
    (0x3004#64, 0x34#8), (0x3026#64, 0xE0#8), (0x3027#64, 0xFE#8), (0x3028#64, 0x01#8), (0x302D#64, 0x08#8),
    (0x3030#64, 0x01#8)]).getD 0#8

/-- The RSDP is at `0x1000`, and the window at offset 0. -/
def sampleResponse : RsdpResponse := ⟨0#64, 0x1000#64⟩

/-- The same with an FADT at 0x4000 listed before the MADT, and with the address of byte 44 of the MADT at that byte,
where the code takes the address of the first entry from. -/
def linkedFirmware : BitVec 64 → Byte := fun a =>
  (List.lookup a [(0x2025#64, 0x40#8), (0x2029#64, 0x30#8), (0x4000#64, 0x46#8), (0x4001#64, 0x41#8),
    (0x4002#64, 0x43#8), (0x4003#64, 0x50#8), (0x4004#64, 0x24#8), (0x302C#64, 0x2C#8), (0x302D#64, 0x30#8),
    (0x3030#64, 0x00#8)]).getD
    (sampleFirmware 0x2C#8 a)

theorem sample_able {firmware : BitVec 64 → Byte} (hcount : count firmware sampleResponse.address ≤ 2) :
    (run firmware (testRsdp (some sampleResponse)) ⟨roomyTables, [], [], []⟩).2.Able := by
  refine able_of_frames roomyTables_pageTables (by simp [World.Able]) ?_
  have hlen := @mapped_length firmware sampleResponse
  rw [List.length_reverse, roomyTables_bootFrames, regionFrames_length]
  omega

/-- The walk reads nothing but bytes of the tables on pages that are present, and prints the first entry of the MADT,
exactly where the tables fit. -/
theorem testRsdp_safe_iff {firmware : BitVec 64 → Byte} {s : Mem} {free : List Nat} (h : PageTables s free)
    (response : RsdpResponse) (hable : (run firmware (testRsdp (some response)) ⟨s, [], [], []⟩).2.Able) :
    WalkSafe firmware response.address (run firmware (testRsdp (some response)) ⟨s, [], [], []⟩).1
      (run firmware (testRsdp (some response)) ⟨s, [], [], []⟩).2 ↔ WalkFits firmware s response.address :=
  ⟨fits_of_safe h hable, safe_of_fits h hable⟩

theorem linked_count : count linkedFirmware sampleResponse.address = 2 := by decide

theorem linked_rsdt : rsdt linkedFirmware sampleResponse.address = 0x2000#64 := by decide

theorem linked_tables :
    table linkedFirmware 0x2000#64 0 = 0x4000#64 ∧ table linkedFirmware 0x2000#64 1 = 0x3000#64 := by decide

theorem linked_visited {i : Nat} (h : Visited linkedFirmware (rsdt linkedFirmware sampleResponse.address) 0
    (count linkedFirmware sampleResponse.address) i) : i = 0 ∨ i = 1 := by
  have hlt := h.2.1
  rw [linked_count] at hlt
  omega

/-- The FADT is passed by. -/
theorem linked_entry {i : Nat} : MadtEntry linkedFirmware sampleResponse.address i ↔ i = 1 := by
  have hother : ¬ IsMadt linkedFirmware (table linkedFirmware 0x2000#64 0) := by decide
  constructor
  · intro h
    refine (linked_visited h.1).resolve_left fun h0 => hother ?_
    rw [← h0, ← linked_rsdt]
    exact h.2
  · rintro rfl
    refine ⟨⟨Nat.zero_le 1, by rw [linked_count]; decide, fun j _ hj => ?_⟩, by rw [linked_rsdt]; decide⟩
    rw [Nat.lt_one_iff.1 hj, linked_rsdt]
    exact hother

theorem covered_page {s : Mem} {vs : List (BitVec 64)} {v a : BitVec 64} {n : Nat} (hv : v ∈ vs)
    (h : ∀ k < n, canonical (a + BitVec.ofNat 64 k) = true ∧
      Mem.pageNumber v = Mem.pageNumber (a + BitVec.ofNat 64 k)) :
    Covered (Reaches s) vs a n := fun k hk => .inr ⟨(h k hk).1, v, hv, (h k hk).2⟩

/-- A table of `linkedFirmware` is on one page. -/
theorem linked_within {i n : Nat} {t : BitVec 64} (hi : i < 2) (ht : table linkedFirmware 0x2000#64 i = t)
    (hn : n ≤ length linkedFirmware t) (hpage : ∀ k < n, canonical (t + BitVec.ofNat 64 k) = true ∧
      Mem.pageNumber t = Mem.pageNumber (t + BitVec.ofNat 64 k)) :
    Covered (Within linkedFirmware roomyTables sampleResponse.address)
      (pages linkedFirmware sampleResponse.address (i + 1)) t n := by
  subst ht
  have hlt := length_lt linkedFirmware (table linkedFirmware 0x2000#64 i)
  refine (covered_within fun k hk => .inr (.inr ⟨i, by rw [linked_count]; exact hi, ?_⟩)).2 (covered_page ?_ hpage)
  · rw [linked_rsdt]
    exact inRegion_add (by omega) (by omega)
  · unfold pages tables
    rw [linked_rsdt]
    exact List.mem_append_right _ (List.mem_map.2 ⟨i, List.mem_range.2 (Nat.lt_succ_self i), rfl⟩)

/-- An FADT and an MADT are listed, each inside of a page, and the walk goes to the end of the MADT. -/
theorem testRsdp_safe_iff_linked : MadtEntry linkedFirmware sampleResponse.address 1 ∧
    WalkSafe linkedFirmware sampleResponse.address
      (run linkedFirmware (testRsdp (some sampleResponse)) ⟨roomyTables, [], [], []⟩).1
      (run linkedFirmware (testRsdp (some sampleResponse)) ⟨roomyTables, [], [], []⟩).2 := by
  have hmadt : Covered (Within linkedFirmware roomyTables sampleResponse.address)
    (pages linkedFirmware sampleResponse.address 2)
      0x3000#64 52 := linked_within (i := 1) (by decide) linked_tables.2 (by decide) (by decide)
  have hfadt : Covered (Within linkedFirmware roomyTables sampleResponse.address)
    (pages linkedFirmware sampleResponse.address 1)
      0x4000#64 36 := linked_within (i := 0) (by decide) linked_tables.1 (by decide) (by decide)
  have hrsdt : ∀ i, rsdt linkedFirmware sampleResponse.address ∈ pages linkedFirmware sampleResponse.address i :=
    fun i => by simp [pages]
  refine ⟨linked_entry.2 rfl,
    (testRsdp_safe_iff roomyTables_pageTables sampleResponse (sample_able (Nat.le_of_eq linked_count))).2
    ⟨covered_page (List.mem_singleton_self _) (by decide), by
      decide, covered_page (hrsdt 0) (by decide), fun i hi => ?_,
      fun i hi => ?_, fun i hi => ?_, fun i hi e he => ?_⟩⟩
  · refine covered_page (hrsdt i) ?_
    rcases linked_visited hi with rfl | rfl <;> decide
  · rw [linked_rsdt]
    rcases linked_visited hi with rfl | rfl
    · rw [linked_tables.1]
      exact hfadt
    · rw [linked_tables.2]
      exact fun k hk => hmadt k (by omega)
  · rw [linked_entry.1 hi, linked_rsdt, linked_tables.2]
    exact hmadt
  · -- the bytes at the address are those of the address
    have h1 := linked_entry.1 hi
    subst h1
    rw [linked_rsdt, linked_tables.2] at he ⊢
    have hentry : entriesOf linkedFirmware 0x3000#64 = 0x302C#64 := by decide +kernel
    rw [hentry] at he
    subst he
    have hmono : ∀ a, Within linkedFirmware roomyTables sampleResponse.address
      (pages linkedFirmware sampleResponse.address 2) a →
        Within linkedFirmware roomyTables sampleResponse.address
          (pages linkedFirmware sampleResponse.address 2 ++ [0x302C#64]) a :=
      fun a h => ⟨h.1.mono fun v hv => List.mem_append_left _ hv, h.2⟩
    have h44 : 0x302C#64 = 0x3000#64 + BitVec.ofNat 64 44 := by decide
    have h45 : 0x302C#64 + 1#64 = 0x3000#64 + BitVec.ofNat 64 45 := by decide
    refine ⟨hmono _ ?_, hmono _ ?_, by decide, by decide⟩
    · rw [h44]
      exact hmadt 44 (by decide)
    · rw [h45]
      exact hmadt 45 (by decide)

/-- The first entry of an ordinary MADT is no address of a table. -/
theorem testRsdp_entryPointer : ¬ ∀ (firmware : BitVec 64 → Byte) (s : Mem) (free : List Nat) (response : RsdpResponse),
    PageTables s free → (run firmware (testRsdp (some response)) ⟨s, [], [], []⟩).2.Able →
      WalkSafe firmware response.address (run firmware (testRsdp (some response)) ⟨s, [], [], []⟩).1
        (run firmware (testRsdp (some response)) ⟨s, [], [], []⟩).2 := by
  intro h
  have hcount : count (sampleFirmware 0x28#8) sampleResponse.address = 1 := by decide
  have hable := @sample_able (sampleFirmware 0x28#8) (by rw [hcount]; decide)
  have hfits := fits_of_safe roomyTables_pageTables hable (h _ _ _ sampleResponse roomyTables_pageTables hable)
  have hentry : MadtEntry (sampleFirmware 0x28#8) sampleResponse.address 0 :=
    ⟨⟨Nat.le_refl 0, by rw [hcount]; decide, fun j _ hj => absurd hj (Nat.not_lt_zero j)⟩, by decide⟩
  obtain ⟨⟨-, hinside⟩, -⟩ := hfits.pointer 0 hentry 0x100000800#64 (by decide)
  unfold Inside at hinside
  rw [hcount] at hinside
  rcases hinside with hr | hr | ⟨i, hi, hr⟩
  · exact absurd hr (by unfold InRegion; decide)
  · exact absurd hr (by unfold InRegion; decide)
  · have hi0 : i = 0 := by omega
    subst hi0
    exact absurd hr (by unfold InRegion; decide)

end Octagram.Acpi

/-
What the processor lets a program do with a page: the rights that the entries of all levels leave
(`Mem.rights`). The entries of the tables that `map_page` creates are writable and not for user
mode, so the flags of the leaf entry decide everything but the access from user mode, which such a
table denies (`mapPage_rights_iff`). The invariant over the calls is `TablesMade`: what is present
above the leaf is as `next_table_or_create` writes it.
-/
import Octagram.Memory.MapRange

namespace Octagram.Memory

open Octagram.Lib

/-! ## Rights -/

/-- What can be done with a page, besides reading it. -/
structure Rights where
  writable : Bool
  user : Bool
  executable : Bool
  deriving DecidableEq, Repr

/-- What both leave. -/
def Rights.meet (a b : Rights) : Rights := ⟨a.writable && b.writable, a.user && b.user, a.executable && b.executable⟩

/-- The rights in the flags of one entry. -/
def rightsOf (e : BitVec 64) : Rights :=
  ⟨e &&& flags.WRITABLE != 0, e &&& flags.USER != 0, e &&& flags.NO_EXECUTE == 0⟩

/-- The rights of the page at the end of the indices, from the table at `q` on: those that every entry on the
way leaves, down to a leaf entry or a huge page. -/
def Mem.rightsBelow (s : Mem) : List (Fin 512) → List (Fin 512) → Option Rights
  | _, [] => none
  | q, i :: p =>
    match s.entry q i with
    | none => none
    | some e =>
      if ¬ Present e then none
      else if p = [] ∨ Huge e then some (rightsOf e)
      else (s.rightsBelow (q ++ [i]) p).map (rightsOf e).meet

/-- The effective rights of the page of `v`, if it is mapped. -/
def Mem.rights (s : Mem) (v : BitVec 64) : Option Rights :=
  s.rightsBelow [] (Mem.tablePath v ++ [tableIndex v 12])

section Rights

variable {s s' : Mem} {q p : List (Fin 512)} {i : Fin 512} {e : BitVec 64} {r : Rights}

theorem rightsBelow_absent (p : List (Fin 512)) (h : ∀ e, s.entry q i = some e → ¬ Present e) :
    s.rightsBelow q (i :: p) = none := by
  unfold Mem.rightsBelow
  cases he : s.entry q i with
  | none => rfl
  | some e => exact if_pos (h e he)

theorem rightsBelow_last (he : s.entry q i = some e) (hp : Present e) : s.rightsBelow q [i] = some (rightsOf e) := by
  unfold Mem.rightsBelow
  rw [he]
  exact (if_neg (not_not.2 hp)).trans (if_pos (.inl rfl))

theorem rightsBelow_huge (p : List (Fin 512)) (he : s.entry q i = some e) (hp : Present e) (hh : Huge e) :
    s.rightsBelow q (i :: p) = some (rightsOf e) := by
  unfold Mem.rightsBelow
  rw [he]
  exact (if_neg (not_not.2 hp)).trans (if_pos (.inr hh))

theorem rightsBelow_table (hne : p ≠ []) (he : s.entry q i = some e) (hp : Present e) (hh : ¬ Huge e) :
    s.rightsBelow q (i :: p) = (s.rightsBelow (q ++ [i]) p).map (rightsOf e).meet := by
  rw [Mem.rightsBelow, he]
  exact (if_neg (not_not.2 hp)).trans (if_neg (not_or.2 ⟨hne, hh⟩))

/-- Where the present entries on the way are kept, so are the rights. -/
theorem rightsBelow_kept
    (h : ∀ q' j e, q' ++ [j] <+: q ++ p → s.entry q' j = some e → Present e → s'.entry q' j = some e)
    (hr : s.rightsBelow q p = some r) : s'.rightsBelow q p = some r := by
  induction p generalizing q r with
  | nil => cases hr
  | cons i p ih =>
    by_cases hpr : ∃ e, s.entry q i = some e ∧ Present e
    · obtain ⟨e, he, hp⟩ := hpr
      have he' := h q i e ⟨p, by rw [List.append_assoc, List.singleton_append]⟩ he hp
      by_cases hh : Huge e
      · rw [rightsBelow_huge p he hp hh] at hr
        rw [rightsBelow_huge p he' hp hh, hr]
      · cases p with
        | nil =>
          rw [rightsBelow_last he hp] at hr
          rw [rightsBelow_last he' hp, hr]
        | cons j p =>
          rw [rightsBelow_table (List.cons_ne_nil _ _) he hp hh, Option.map_eq_some_iff] at hr
          obtain ⟨r', hr', rfl⟩ := hr
          rw [rightsBelow_table (List.cons_ne_nil _ _) he' hp hh,
            ih (fun q' k e hq => h q' k e (by rwa [← List.append_cons] at hq)) hr']
          rfl
    · rw [rightsBelow_absent p fun e he hp => hpr ⟨e, he, hp⟩] at hr
      cases hr

/-- A page has rights if it is mapped or lies in a huge page. -/
theorem rightsBelow_isSome_iff : (s.rightsBelow q (p ++ [i])).isSome ↔
    s.HugeBelow q p ∨ ((s.entry (q ++ p) i).bind leafOf).isSome := by
  -- by induction on the levels: an absent entry, a huge page, or a table to go on from
  induction p generalizing q with
  | nil =>
    rw [List.nil_append, List.append_nil]
    by_cases hpr : ∃ e, s.entry q i = some e ∧ Present e
    · obtain ⟨e, he, hp⟩ := hpr
      simp [rightsBelow_last he hp, he, leafOf_present hp]
    · rw [rightsBelow_absent [] fun e he hp => hpr ⟨e, he, hp⟩]
      have hleaf : (s.entry q i).bind leafOf = none := by
        cases he : s.entry q i with
        | none => rfl
        | some e => exact leafOf_absent fun hp => hpr ⟨e, he, hp⟩
      simp [hleaf, Mem.not_hugeBelow_nil]
  | cons j p ih =>
    rw [List.cons_append, Mem.hugeBelow_cons]
    by_cases hpr : ∃ e, s.entry q j = some e ∧ Present e
    · obtain ⟨e, he, hp⟩ := hpr
      by_cases hh : Huge e
      · simp [rightsBelow_huge _ he hp hh, he, hp, hh]
      · rw [rightsBelow_table (by simp) he hp hh, Option.isSome_map, ih, List.append_assoc, List.singleton_append]
        simp [he, hh]
    · rw [rightsBelow_absent _ fun e he hp => hpr ⟨e, he, hp⟩]
      have hnone : s.table (q ++ [j]) = none := by
        rw [Mem.table_snoc]
        cases he : s.entry q j with
        | none => rfl
        | some e => exact Option.eq_none_iff_forall_ne_some.2 fun t ht => hpr ⟨e, he, (tableOf_eq_some.1 ht).1⟩
      have hleaf : s.entry (q ++ j :: p) i = none := by
        unfold Mem.entry
        rw [List.append_cons, Mem.table_append_none hnone]
        rfl
      rw [hleaf]
      simp only [Option.isSome_none, Bool.false_eq_true, Option.bind_none, or_false, false_iff, not_or]
      exact ⟨fun ⟨e, he, hp, _⟩ => hpr ⟨e, he, hp⟩, Mem.not_hugeBelow_none hnone p⟩

theorem rights_isSome_iff (v : BitVec 64) : (s.rights v).isSome ↔ s.HugeOnPath v ∨ (s.abs v).isSome :=
  rightsBelow_isSome_iff

/-- A page that is mapped or not as before, with its present entries kept, has the rights it had. -/
theorem rights_kept {v : BitVec 64} (ha : s'.abs v = s.abs v) (hh : s'.HugeOnPath v ↔ s.HugeOnPath v)
    (h : ∀ q j e, q ++ [j] <+: Mem.tablePath v ++ [tableIndex v 12] → s.entry q j = some e → Present e →
      s'.entry q j = some e) : s'.rights v = s.rights v := by
  cases hr : s.rights v with
  | some r => exact rightsBelow_kept (q := []) h hr
  | none =>
    have hsome : ¬ (s'.rights v).isSome := by
      rw [rights_isSome_iff, ha, hh, ← rights_isSome_iff, hr]
      exact Bool.false_ne_true
    exact Option.not_isSome_iff_eq_none.1 hsome

end Rights

/-! ## The entries that `map_page` writes -/

/-- Frame addresses and the PRESENT bit carry no rights. -/
theorem rightsOf_or {x : BitVec 64} (hx : x &&& ADDR_MASK = x) (fl : BitVec 64) :
    rightsOf (x ||| flags.PRESENT ||| fl) = rightsOf fl := by
  have hmask : ∀ m : BitVec 64, ADDR_MASK &&& m = 0#64 → flags.PRESENT &&& m = 0#64 →
      (x ||| flags.PRESENT ||| fl) &&& m = fl &&& m := by
    intro m h1 h2
    rw [BitVec.and_or_distrib_right, BitVec.and_or_distrib_right, h2, ← hx, BitVec.and_assoc, h1, BitVec.and_zero,
      BitVec.zero_or, BitVec.zero_or]
  unfold rightsOf
  rw [hmask _ (by decide) (by decide), hmask _ (by decide) (by decide), hmask _ (by decide) (by decide)]

/-- The rights that the entry of a table leaves. -/
def tableRights : Rights := ⟨true, false, true⟩

theorem rightsOf_tableEntry {f : Nat} (ha : 4096 ∣ f) (hb : f < 2 ^ 52) : rightsOf (tableEntry f) = tableRights := by
  have hf : (BitVec.ofNat 64 f).toNat = f := by rw [BitVec.toNat_ofNat, Nat.mod_eq_of_lt (by omega)]
  unfold tableEntry
  rw [rightsOf_or (and_addrMask_of_frame (by rw [hf]; exact ha) (by rw [hf]; exact hb))]
  decide

/-- The tables on the path of `v` are those that `map_page` created: the present entries above the leaf are as
`next_table_or_create` writes them. -/
def TablesMade (s : Mem) (v : BitVec 64) : Prop :=
  ∀ q i e, q ++ [i] <+: Mem.tablePath v → s.entry q i = some e → Present e → ∃ f, 4096 ∣ f ∧ f < 2 ^ 52 ∧
    e = tableEntry f

section Made

variable {s s' : Mem} {free free' : List Nat} {q p P : List (Fin 512)} {d t : Nat} {fs : List Nat} {i : Fin 512}
  {v fl w e : BitVec 64}

/-- Below entries of created tables the leaf entry decides, but for the access from user mode. -/
theorem rightsBelow_made
    (hm : ∀ q' j e, q' ++ [j] <+: q ++ p → s.entry q' j = some e → Present e → rightsOf e = tableRights)
    (ht : s.table (q ++ p) = some t) (he : s.entry (q ++ p) i = some e) (hp : Present e) :
    s.rightsBelow q (p ++ [i]) = some (if p = [] then rightsOf e else tableRights.meet (rightsOf e)) := by
  induction p generalizing q with
  | nil =>
    rw [List.append_nil] at he
    rw [List.nil_append, rightsBelow_last he hp, if_pos rfl]
  | cons j p ih =>
    rw [List.append_cons] at ht he hm
    cases hc : s.table (q ++ [j]) with
    | none => rw [Mem.table_append_none hc] at ht; cases ht
    | some c =>
      rw [Mem.table_snoc, Option.bind_eq_some_iff] at hc
      obtain ⟨e', he', htab⟩ := hc
      obtain ⟨hp', hh', -⟩ := tableOf_eq_some.1 htab
      rw [List.cons_append, rightsBelow_table (by simp) he' hp' hh', ih hm ht he,
        hm q j e' (List.prefix_append _ _) he' hp', if_neg (List.cons_ne_nil _ _)]
      -- further tables leave what the first one leaves
      split
      · rfl
      · rw [Option.map_some]
        simp [Rights.meet, tableRights]

/-- The present entries are kept while the tables grow along a path without a huge page. -/
theorem Grown.present (h : Grown s s' P d fs) (hh : ¬ s.HugeBelow [] P) (hq : q.length ≤ 3) (he : s.entry q i = some e)
    (hp : Present e) : s'.entry q i = some e := by
  -- only an entry without a table is written, and what is present and no table is a huge page
  refine h.entries q i e hq he fun hqd hi => by_contra fun hne => ?_
  have hlt := (List.getElem?_eq_some_iff.1 hi).1
  have htake : P.take (d + 1) = q ++ [i] := by
    rw [List.take_add_one, hi, hqd]
    rfl
  have habsent := h.absent hne
  rw [htake, Mem.table_snoc, he, Option.bind_some] at habsent
  by_cases hhuge : Huge e
  · refine hh ⟨q, i, P.drop (d + 1), e, ?_, he, hp, hhuge⟩
    have hsplit := List.take_append_drop (d + 1) P
    rw [htake, List.append_assoc, List.singleton_append] at hsplit
    exact hsplit.symm
  · rw [tableOf_eq_some.2 ⟨hp, hhuge, rfl⟩] at habsent
    cases habsent

/-- A call of `map_page` keeps every present entry above the leaves, and every other leaf entry. -/
theorem MapRun.present {r : Except PagingError Unit} (hr : MapRun s free v w r s' free') (hw : Present w)
    (hq : q.length ≤ 3) (hne : ¬ (q = Mem.tablePath v ∧ i = tableIndex v 12)) (he : s.entry q i = some e)
    (hp : Present e) : s'.entry q i = some e := by
  cases hr with
  | huge => exact he
  | already => exact he
  | exhausted hh _ _ _ _ hg => exact hg.present hh hq he hp
  | mapped hh _ _ _ h₁ hg ht =>
    rw [((h₁.setLeaf ht rfl fun hn => absurd hw hn).2 q hq).2 i, if_neg hne]
    exact hg.present hh hq he hp

/-- A call of `map_page` writes entries of created tables only, above the leaves. -/
theorem MapRun.made {r : Except PagingError Unit} {u : BitVec 64} (hr : MapRun s free v w r s' free') (hw : Present w)
    (h : PageTables s free) (hm : TablesMade s u) : TablesMade s' u := by
  -- an entry above the leaf is an old one, one of an empty table, or that of a new table
  have hgrown : ∀ {s₁ : Mem} {d : Nat} {fs : List Nat}, (∀ f ∈ fs, f ∈ free) → Grown s s₁ (Mem.tablePath v) d fs →
      TablesMade s₁ u := by
    intro s₁ d fs hfs hg q i e hq he hp
    have hlen := hq.length_le
    rw [List.length_append, List.length_singleton] at hlen
    rcases hg.entry_cases (Nat.le_of_succ_le (hlen.trans (Nat.le_refl 3))) he with hold | rfl | ⟨f, hf, rfl⟩
    · exact hm q i e hq hold hp
    · exact absurd hp not_present_zero
    · exact ⟨f, h.alloc.aligned f (hfs f hf), h.phys f (hfs f hf), rfl⟩
  cases hr with
  | huge => exact hm
  | already => exact hm
  | exhausted _ _ _ _ _ hg => exact hgrown (fun _ hf => hf) hg
  | mapped _ _ _ _ h₁ hg ht =>
    intro q i e hq he hp
    have hlen := hq.length_le
    rw [List.length_append, List.length_singleton] at hlen
    have hlen3 : q.length < 3 := hlen
    rw [((h₁.setLeaf ht rfl fun hn => absurd hw hn).2 q (by omega)).2 i, if_neg fun hc => by
      rw [hc.1] at hlen3
      exact absurd hlen3 (Nat.lt_irrefl 3)] at he
    exact hgrown (fun _ hf => List.mem_of_mem_take hf) hg q i e hq he hp

end Made

/-! ## The calls -/

section Calls

variable {s₀ s s' : Mem} {free₀ free : List Nat} {u v p fl : BitVec 64}

/-- Every call keeps the tables on a path created ones. -/
theorem tablesMade_step (h : PageTables s free) (hm : TablesMade s u) (hs : PageStep s s') : TablesMade s' u := by
  cases hs with
  | @map v p fl _ hp hf hr =>
    obtain ⟨_, _, free', hr', h', hrun⟩ := mapPage_run h v p fl
    rw [hr] at hr'
    cases hr'
    exact hrun.made (present_or _ _) h hm
  | @unmap v _ hr =>
    obtain ⟨-, hr'⟩ | ⟨t, q, fl, ht, -, hr'⟩ | ⟨-, -, hr'⟩ := unmapPage_run h v
    · rw [hr] at hr'
      cases hr'
      exact hm
    · rw [hr] at hr'
      cases hr'
      -- a leaf entry is cleared, which lies below the tables
      intro q i e hq he hp
      have hlen := hq.length_le
      rw [List.length_append, List.length_singleton] at hlen
      have hlen3 : q.length < 3 := hlen
      rw [((h.setLeaf ht rfl fun _ => rfl).2 q (by omega)).2 i, if_neg fun hc => by
        rw [hc.1] at hlen3
        exact absurd hlen3 (Nat.lt_irrefl 3)] at he
      exact hm q i e hq he hp
    · rw [hr] at hr'
      cases hr'
      exact hm
  | @translate v _ hr =>
    obtain ⟨_, _, hr', -, hs⟩ := translate_spec (v := v) h
    rw [hr] at hr'
    cases hr'
    rw [hs.unchanged]
    exact hm

theorem tablesMade_run (h₀ : PageTables s₀ free₀) (hm : TablesMade s₀ u) (hr : Relation.ReflTransGen PageStep s₀ s) :
    TablesMade s u := by
  induction hr with
  | refl => exact hm
  | tail hr hs ih =>
    obtain ⟨free, h⟩ := pageTables_run h₀ hr
    exact tablesMade_step h ih hs

/-- A page that `map_page` mapped has the rights of its flags, less the access from user mode, and no other
page has other rights than before. -/
theorem mapPage_rights (h : PageTables s free) (hm : TablesMade s v) (hp : p.toNat < 2 ^ 52)
    (hf : fl &&& ADDR_MASK = 0#64) (hrun : (mapPage v p fl).exec s = .ok (.ok (), s')) :
    s'.rights v = some (tableRights.meet (rightsOf fl)) ∧
      ∀ u, Mem.pageNumber u ≠ Mem.pageNumber v → s'.rights u = s.rights u := by
  obtain ⟨r, s₁, free', hx, h', hr⟩ := mapPage_run h v p fl
  rw [hrun] at hx
  cases hx
  have hw := present_or (pageBase p) fl
  have hs := hr.spec hp hf
  have hle := Mem.pageBase_toNat p
  have hbase : pageBase p &&& ADDR_MASK = pageBase p := and_addrMask_of_frame (by omega) (by omega)
  constructor
  · have hmade := hr.made hw h hm
    have habs := hs.mapped rfl v
    rw [if_pos rfl] at habs
    obtain ⟨t, ht⟩ := table_of_abs habs
    -- the leaf entry that was written
    have hleaf : s'.entry (Mem.tablePath v) (tableIndex v 12) = some (pageBase p ||| flags.PRESENT ||| fl) := by
      cases hr with
      | mapped _ _ _ _ h₁ _ ht₁ =>
        rw [((h₁.setLeaf ht₁ rfl fun hn => absurd hw hn).2 (Mem.tablePath v) (Nat.le_refl 3)).2 _, if_pos ⟨rfl, rfl⟩]
    have hbelow := rightsBelow_made (q := []) (fun q' j e hq he hpe => by
      obtain ⟨f, ha, hb, rfl⟩ := hmade q' j e hq he hpe
      exact rightsOf_tableEntry ha hb) ht hleaf hw
    rw [if_neg (List.cons_ne_nil _ _), rightsOf_or hbase] at hbelow
    exact hbelow
  · intro u hu
    have habs := hs.mapped rfl u
    rw [if_neg hu] at habs
    refine rights_kept habs (hs.huge u) fun q j e hq he hpe => ?_
    have hlen := hq.length_le
    rw [List.length_append, List.length_append, List.length_singleton] at hlen
    refine hr.present hw (Nat.le_of_succ_le_succ hlen) ?_ he hpe
    -- another page has another leaf entry
    rintro ⟨rfl, rfl⟩
    have heq := hq.eq_of_length (by simp [Mem.tablePath])
    obtain ⟨hpath, hidx⟩ := List.append_inj' heq rfl
    exact hu ((Mem.pageNumber_eq_iff u v).2 ⟨hpath.symm, (List.singleton_inj.1 hidx).symm⟩)

/-- After any calls, a page is mapped with the rights that were asked for, and no other rights change, exactly
if access from user mode was not asked for. -/
theorem mapPage_rights_iff (h₀ : PageTables s₀ free₀) (hm : TablesMade s₀ v) (hr : Relation.ReflTransGen PageStep s₀ s)
    (hp : p.toNat < 2 ^ 52) (hfl : fl &&& ~~~(flags.WRITABLE ||| flags.USER ||| flags.NO_EXECUTE) = 0#64)
    (hrun : (mapPage v p fl).exec s = .ok (.ok (), s')) :
    (s'.rights v = some (rightsOf fl) ∧ ∀ u, Mem.pageNumber u ≠ Mem.pageNumber v → s'.rights u = s.rights u) ↔
      fl &&& flags.USER = 0#64 := by
  obtain ⟨free, h⟩ := pageTables_run h₀ hr
  have hf : fl &&& ADDR_MASK = 0#64 := by
    have hmask : ADDR_MASK = ~~~(flags.WRITABLE ||| flags.USER ||| flags.NO_EXECUTE) &&& ADDR_MASK := by decide
    rw [hmask, ← BitVec.and_assoc, hfl, BitVec.zero_and]
  obtain ⟨hv, hothers⟩ := mapPage_rights h (tablesMade_run h₀ hm hr) hp hf hrun
  have huser : (rightsOf fl).user = false ↔ fl &&& flags.USER = 0#64 := by
    unfold rightsOf
    exact bne_eq_false_iff_eq
  rw [hv, ← huser]
  constructor
  · rintro ⟨hrights, -⟩
    exact (congrArg Rights.user (Option.some.inj hrights)).symm
  · intro hfalse
    refine ⟨congrArg some ?_, hothers⟩
    unfold Rights.meet tableRights
    rw [Bool.true_and, Bool.true_and, Bool.false_and, ← hfalse]

end Calls

theorem emptyTables_made (v : BitVec 64) : TablesMade emptyTables v := by
  intro q i e _ he hp
  have hzero : e = 0 := by
    unfold Mem.entry at he
    obtain ⟨t, -, rfl⟩ := Option.map_eq_some_iff.1 he
    exact entryAt_zeroed (fun _ _ => rfl) i
  rw [hzero] at hp
  exact absurd hp not_present_zero

/-- A writable page next to one that is not executable, in the same tables. -/
theorem mapPage_rights_iff_emptyTables :
    ∃ s s', (mapPage 0x401000 0xfee01000 flags.NO_EXECUTE).exec emptyTables = .ok (.ok (), s) ∧
      (mapPage 0x400000 0xfee00000 flags.WRITABLE).exec s = .ok (.ok (), s') ∧
      s'.rights 0x400000 = some (rightsOf flags.WRITABLE) ∧ s'.rights 0x401000 = s.rights 0x401000 := by
  obtain ⟨s, free, hx, h, hs⟩ := @emptyTables_mapPage 0x401000 0xfee01000 flags.NO_EXECUTE (by decide) (by decide)
  have hmapped : s.abs 0x401000 ≠ none := by
    rw [hs.mapped rfl, if_pos rfl]
    exact Option.some_ne_none _
  have hnone : s.abs 0x400000 = none := by
    rw [hs.mapped rfl, if_neg (by decide)]
    exact (emptyTables_unmapped _).1
  obtain ⟨s', hx'⟩ := @mapPage_beside _ _ 0x400000 _ 0xfee00000 flags.WRITABLE h hmapped (by decide) hnone (by decide)
    (by decide)
  have hstep : PageStep emptyTables s := .map (by decide) (by decide) hx
  obtain ⟨hv, hothers⟩ :=
    (mapPage_rights_iff emptyTables_free (emptyTables_made _) (.single hstep) (by decide) (by decide)
    hx').2 (by decide)
  exact ⟨s, s', hx, hx', hv, hothers _ (by decide)⟩

/-- The rights asked for need not be the effective ones: a page asked for user mode is not accessible from it,
since no table above is. -/
theorem mapPage_user_denied :
    ¬ ∀ (s s' : Mem) (free : List Nat) (v p fl : BitVec 64), PageTables s free → TablesMade s v → p.toNat < 2 ^ 52 →
      fl &&& ~~~(flags.WRITABLE ||| flags.USER ||| flags.NO_EXECUTE) = 0#64 →
      (mapPage v p fl).exec s = .ok (.ok (), s') →
        s'.rights v = some (rightsOf fl) ∧ ∀ u, Mem.pageNumber u ≠ Mem.pageNumber v → s'.rights u = s.rights u := by
  intro hall
  obtain ⟨s', -, hx, -, -⟩ := @emptyTables_mapPage 0x400000 0x200000 flags.USER (by decide) (by decide)
  obtain ⟨hv, -⟩ := hall _ s' _ _ _ _ emptyTables_free (emptyTables_made _) (by decide) (by decide) hx
  rw [(mapPage_rights emptyTables_free (emptyTables_made _) (by decide) (by decide) hx).1] at hv
  exact absurd (Option.some.inj hv) (by decide)

end Octagram.Memory

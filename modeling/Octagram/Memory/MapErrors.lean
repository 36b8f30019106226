/-
The ways in which `map_page` fails: nothing changed, or tables that were created for it are left in
the tree, where the next call finds them (`mapPage_leaves`). A call that runs out of frames leaves a
`Chain`: its tables one below the other on the path of the page, each with no entry but that of the
next one. They translate nothing, and the next call needs so many frames less (`mapPage_enough`, by
what `Grown` says of the missing tables).
-/
import Octagram.Memory.PageMap

namespace Octagram.Memory

open Octagram.Lib

/-! ## How deep the tables go -/

namespace Mem

theorem missingBelow_le (s : Mem) (q p : List (Fin 512)) : s.missingBelow q p ≤ p.length := by
  induction p generalizing q with
  | nil => exact Nat.le_refl 0
  | cons i p ih =>
    unfold missingBelow
    split
    · exact Nat.le_succ_of_le (ih _)
    · exact Nat.le_refl _

/-- The tables go down to where the missing ones begin. -/
theorem table_above_missing {s : Mem} {q : List (Fin 512)} {t : Nat} (hq : s.table q = some t) (p : List (Fin 512)) :
    ∃ t', s.table (q ++ p.take (p.length - s.missingBelow q p)) = some t' := by
  induction p generalizing q t with
  | nil => exact ⟨t, by rw [List.take_nil, List.append_nil, hq]⟩
  | cons i p ih =>
    cases hc : s.table (q ++ [i]) with
    | none =>
      rw [missingBelow_none hc, List.length_cons, Nat.sub_self, List.take_zero, List.append_nil]
      exact ⟨t, hq⟩
    | some c =>
      have hle := s.missingBelow_le (q ++ [i]) p
      obtain ⟨t', ht'⟩ := ih hc
      rw [missingBelow_some hc, List.length_cons, Nat.succ_sub hle, List.take_succ_cons, List.append_cons]
      exact ⟨t', ht'⟩

/-- Where there is a table at depth `d` of the path and none below it, the rest of the path is missing. -/
theorem missing_below_depth {s : Mem} {q p : List (Fin 512)} {d t : Nat} (hd : d ≤ p.length)
    (ht : s.table (q ++ p.take d) = some t) (hn : d < p.length → s.table (q ++ p.take (d + 1)) = none) :
    s.missingBelow q p = p.length - d := by
  induction p generalizing q d with
  | nil => rw [Nat.le_zero.1 hd]; rfl
  | cons i p ih =>
    cases d with
    | zero =>
      have hnone := hn (Nat.succ_pos _)
      rw [List.take_succ_cons, List.take_zero] at hnone
      rw [missingBelow_none hnone]
      rfl
    | succ d =>
      rw [List.take_succ_cons, List.append_cons] at ht
      cases hc : s.table (q ++ [i]) with
      | none => rw [table_append_none hc] at ht; cases ht
      | some c =>
        rw [missingBelow_some hc, List.length_cons, Nat.succ_sub_succ]
        refine ih (Nat.le_of_succ_le_succ hd) ht fun hlt => ?_
        have := hn (Nat.succ_lt_succ hlt)
        rwa [List.take_succ_cons, List.append_cons] at this

/-- Above a table nothing is missing. -/
theorem missingBelow_append {s : Mem} {q p : List (Fin 512)} {t : Nat} (h : s.table (q ++ p) = some t)
    (r : List (Fin 512)) : s.missingBelow q (p ++ r) = s.missingBelow (q ++ p) r := by
  induction p generalizing q with
  | nil => rw [List.append_nil, List.nil_append]
  | cons i p ih =>
    rw [List.append_cons] at h
    cases hc : s.table (q ++ [i]) with
    | none => rw [table_append_none hc] at h; cases h
    | some c => rw [List.cons_append, missingBelow_some hc, ih h, List.append_cons q i p]

theorem missingTables_le (s : Mem) (v : BitVec 64) : s.missingTables v ≤ 3 := s.missingBelow_le [] (tablePath v)

end Mem

/-- The tables that were created are not missing any more. -/
theorem Grown.missingBelow {s s' : Mem} {P : List (Fin 512)} {fs : List Nat} (hP : P.length = 3)
    (h : Grown s s' P (3 - s.missingBelow [] P) fs) : s'.missingBelow [] P = s.missingBelow [] P - fs.length := by
  have hle := s.missingBelow_le [] P
  have hroom := h.room
  have htake : ∀ n, (P.take n).length ≤ 3 := fun n => (List.length_take_le' _ _).trans (Nat.le_of_eq hP)
  obtain ⟨t, ht⟩ : ∃ t, s'.table (P.take (3 - s.missingBelow [] P + fs.length)) = some t := by
    rcases fs.eq_nil_or_concat with rfl | ⟨fs, f, rfl⟩
    · obtain ⟨t, ht⟩ := Mem.table_above_missing (Mem.table_nil s) P
      rw [hP] at ht
      exact ⟨t, h.tables _ t (htake _) ht⟩
    · have hlast := h.table fs.length f (by simp)
      rw [List.concat_eq_append, List.length_append, List.length_singleton]
      exact ⟨f, hlast⟩
  have hnone : 3 - s.missingBelow [] P + fs.length < P.length →
      s'.table (P.take (3 - s.missingBelow [] P + fs.length + 1)) = none := by
    intro hlt
    refine Option.eq_none_iff_forall_ne_some.2 fun t' ht' => ?_
    rcases h.only _ t' (htake _) ht' with ht' | ⟨k, hk, he⟩
    · -- a table that was there before is not below the missing ones
      have happ := Mem.missingBelow_append (q := []) ht' (P.drop (3 - s.missingBelow [] P + fs.length + 1))
      have hdrop := s.missingBelow_le ([] ++ P.take (3 - s.missingBelow [] P + fs.length + 1))
        (P.drop (3 - s.missingBelow [] P + fs.length + 1))
      rw [List.take_append_drop] at happ
      rw [List.length_drop, ← happ] at hdrop
      omega
    · have hlen := congrArg List.length he
      rw [List.length_take, List.length_take] at hlen
      have hk' := (List.getElem?_eq_some_iff.1 hk).1
      omega
  have hnew := Mem.missing_below_depth (q := []) hroom ht hnone
  omega

theorem Grown.missingTables {s s' : Mem} {v : BitVec 64} {fs : List Nat}
    (h : Grown s s' (Mem.tablePath v) (3 - s.missingTables v) fs) :
    s'.missingTables v = s.missingTables v - fs.length :=
  Grown.missingBelow rfl h

/-! ## What is left of a call without a free frame -/

/-- The tables `fs` lie one below the other on the path of `v`, the first at depth `d + 1`, with no
entry but that of the next one. -/
structure Chain (s : Mem) (v : BitVec 64) (d : Nat) (fs : List Nat) : Prop where
  table : ∀ k f, fs[k]? = some f → s.table ((Mem.tablePath v).take (d + k + 1)) = some f
  next : ∀ k f g i, fs[k]? = some f → fs[k + 1]? = some g → (Mem.tablePath v)[d + k + 1]? = some i →
    s.entry ((Mem.tablePath v).take (d + k + 1)) i = some (tableEntry g)
  zero : ∀ k f j, fs[k]? = some f → (fs[k + 1]? = none ∨ (Mem.tablePath v)[d + k + 1]? ≠ some j) →
    s.entry ((Mem.tablePath v).take (d + k + 1)) j = some 0

theorem Grown.chain {s s' : Mem} {v : BitVec 64} {d : Nat} {fs : List Nat} (h : Grown s s' (Mem.tablePath v) d fs) :
    Chain s' v d fs where
  table := h.table
  next k _ g i _ hg hi := h.link (k + 1) g i hg hi
  zero k f j hf hj := h.zero k f j hf fun hi => hj.resolve_right fun hne => hne hi

/-- Both states have the same tables with the same entries. -/
def SameTables (s s' : Mem) : Prop := ∀ p, p.length ≤ 3 → s'.table p = s.table p ∧ ∀ i, s'.entry p i = s.entry p i

/-- The map decides what `translate` returns. -/
theorem SameMap.translate {s s' : Mem} {free free' : List Nat} (hm : SameMap s s') (h : PageTables s free)
    (h' : PageTables s' free') (u : BitVec 64) :
    ∃ r, (translate u).exec s = .ok (r, s) ∧ (translate u).exec s' = .ok (r, s') :=
  translate_congr h h' (hm.abs u) (hm.huge u)

/-- A frame that is neither free nor a table can be freed; the tables stay as they are. -/
theorem freeFrame_tables {s : Mem} {free : List Nat} {f : Nat} (h : PageTables s free)
    (hi : s.frameAllocator.initialized = true) (ha : 4096 ∣ f) (hb : f < 2 ^ 52) (hf : f ∉ free)
    (ht : ∀ p, p.length ≤ 3 → s.table p ≠ some f) :
    ∃ s', (freeFrame f).run s = .ok ((), s') ∧ PageTables s' (f :: free) ∧ SameTables s s' ∧
      s'.frameAllocator.initialized = true := by
  obtain ⟨s', hr, hfree, ho, hi'⟩ := free_spec h.alloc hi ha (by omega) hf
  have hoff : ∀ g ∈ f :: free, g < 2 ^ 52 ∧ ∀ p, p.length ≤ 3 → s.table p ≠ some g := by
    rintro g hg
    rcases List.mem_cons.1 hg with rfl | hg
    · exact ⟨hb, ht⟩
    · exact ⟨h.phys g hg, fun p hp hpg => h.offFree p g hp hpg hg⟩
  obtain ⟨h', hsame⟩ := h.of_frames hfree hoff ho (by simpa using ⟨ha, ht⟩)
  exact ⟨s', hr, h', hsame, hi'⟩

section SameTables

variable {s s' : Mem}

theorem SameTables.missingBelow (h : SameTables s s') {q p : List (Fin 512)} (hl : q.length + p.length ≤ 3) :
    s'.missingBelow q p = s.missingBelow q p := by
  induction p generalizing q with
  | nil => rfl
  | cons i p ih =>
    rw [List.length_cons] at hl
    have hq : (q ++ [i]).length + p.length ≤ 3 := by
      rw [List.length_append, List.length_singleton]
      omega
    have hc := (h (q ++ [i]) (by omega)).1
    cases ht : s.table (q ++ [i]) with
    | none => rw [Mem.missingBelow_none ht, Mem.missingBelow_none (hc.trans ht)]
    | some t => rw [Mem.missingBelow_some ht, Mem.missingBelow_some (hc.trans ht), ih hq]

theorem SameTables.missingTables (h : SameTables s s') (v : BitVec 64) : s'.missingTables v = s.missingTables v :=
  h.missingBelow (Nat.le_refl 3)

theorem SameTables.hugeOnPath (h : SameTables s s') (v : BitVec 64) : s'.HugeOnPath v ↔ s.HugeOnPath v :=
  hugeOnPath_congr (fun p i hp => by rw [(h p (by omega)).2 i]) v

theorem SameTables.abs (h : SameTables s s') (v : BitVec 64) : s'.abs v = s.abs v := by
  unfold Mem.abs
  rw [(h (Mem.tablePath v) (Nat.le_refl 3)).2]

end SameTables

/-- A page that is unmapped, with no huge page in the way, is mapped when there are frames for the missing
tables; it takes as many, and the tables that are there stay. -/
theorem mapPage_enough {s : Mem} {free : List Nat} (h : PageTables s free) {v : BitVec 64} (hh : ¬ s.HugeOnPath v)
    (ha : s.abs v = none) (hlen : s.missingTables v ≤ free.length) (p fl : BitVec 64) :
    ∃ s', (mapPage v p fl).exec s = .ok (.ok (), s') ∧ PageTables s' (free.drop (s.missingTables v)) ∧
      ∀ p t, p.length ≤ 3 → s.table p = some t → s'.table p = some t := by
  obtain ⟨r, s', free', hx, h', hr⟩ := mapPage_run h v p fl
  cases hr with
  | huge hh' => exact absurd hh' hh
  | already _ ha' => exact absurd ha ha'
  | exhausted _ _ hlen' => omega
  | @mapped s₁ t _ _ _ _ h₁ hg ht =>
    have hleaf := h₁.setLeaf (i := tableIndex v 12) ht rfl (w := pageBase p ||| flags.PRESENT ||| fl)
      fun hn => absurd (present_or _ _) hn
    refine ⟨_, hx, h', fun p t hp ht => ?_⟩
    rw [(hleaf.2 p hp).1]
    exact hg.tables p t hp ht

/-- What `map_page` leaves behind. A page that is mapped and a huge page in the way: nothing has changed.
No free frame: nothing is translated differently, all frames that were free are tables now, one below the
other, and none is lost, since the call succeeds with them once there are frames for the rest. Success:
it took one frame for each missing table, at most three. -/
theorem mapPage_leaves {s s' : Mem} {free : List Nat} (h : PageTables s free) (v p fl : BitVec 64)
    {r : Except PagingError Unit} (hr : (mapPage v p fl).exec s = .ok (r, s')) :
    (r = .error .alreadyMapped ∨ r = .error .hugePageInPath → s' = s) ∧
    (r = .error .outOfFrames →
      (∀ u, ∃ a, (translate u).exec s = .ok (a, s) ∧ (translate u).exec s' = .ok (a, s')) ∧
      PageTables s' [] ∧ Chain s' v (3 - s.missingTables v) free ∧
      ∀ s₁ free₁, PageTables s₁ free₁ → SameTables s' s₁ → s.missingTables v - free.length ≤ free₁.length →
        ∃ s₂, (mapPage v p fl).exec s₁ = .ok (.ok (), s₂) ∧
          PageTables s₂ (free₁.drop (s.missingTables v - free.length)) ∧
          ∀ k f, free[k]? = some f → s₂.table ((Mem.tablePath v).take (3 - s.missingTables v + k + 1)) = some f) ∧
    (r = .ok () → s.missingTables v ≤ 3 ∧ s.missingTables v ≤ free.length ∧
      PageTables s' (free.drop (s.missingTables v))) := by
  obtain ⟨r', s'', free', hx, h', hrun⟩ := mapPage_run h v p fl
  rw [hr] at hx
  cases hx
  cases hrun with
  | huge hh => exact ⟨fun _ => rfl, by simp, by simp⟩
  | already hh ha => exact ⟨fun _ => rfl, by simp, by simp⟩
  | mapped hh ha hlen hm h₁ hg ht => exact ⟨by simp, by simp, fun _ => ⟨s.missingTables_le v, hlen, h'⟩⟩
  | exhausted hh ha hlen hi hm hg =>
    refine ⟨by simp, fun _ => ⟨hm.translate h h', h', hg.chain, ?_⟩, by simp⟩
    -- the next call finds the tables that this one linked, and only the others are missing
    rintro s₁ free₁ h₁ hsame hfree₁
    have hmiss : s₁.missingTables v = s.missingTables v - free.length := (hsame.missingTables v).trans hg.missingTables
    have hh₁ : ¬ s₁.HugeOnPath v := by
      rw [hsame.hugeOnPath, hm.huge]
      exact hh
    have ha₁ : s₁.abs v = none := (hsame.abs v).trans ((hm.abs v).trans ha)
    obtain ⟨s₂, hx₂, h₂, hkeep⟩ := mapPage_enough h₁ hh₁ ha₁ (hmiss ▸ hfree₁) p fl
    rw [hmiss] at h₂
    refine ⟨s₂, hx₂, h₂, fun k f hk => ?_⟩
    have hlen3 : ((Mem.tablePath v).take (3 - s.missingTables v + k + 1)).length ≤ 3 := List.length_take_le' _ _
    exact hkeep _ f hlen3 ((hsame _ hlen3).1.trans (hg.chain.table k f hk))

/-! ## With two frames -/

/-- `emptyTables` with two usable frames only. -/
def scarceTables : Mem := { emptyTables with memoryMap := some [⟨0x100000, 0x2000, .usable⟩] }

theorem scarceTables_mapOk : scarceTables.MapOk :=
  ⟨by simp [scarceTables], by simp [scarceTables], by simp [scarceTables, emptyTables]⟩

theorem scarceTables_bootOk : scarceTables.BootOk :=
  ⟨scarceTables_mapOk, scarceTables_mapOk.loopFits (by simp [scarceTables, emptyTables])⟩

theorem scarceTables_bootFrames : scarceTables.bootFrames.reverse = [0x101000, 0x100000] := by
  have hframes : scarceTables.bootFrames = [0x100000, 0x101000] := by
    show [] ++ (regionFrames (alignUp 0x100000 FRAME_SIZE) 0x102000 ++ []) = _
    rw [List.nil_append, List.append_nil, regionFrames_two]
  rw [hframes]
  rfl

theorem scarceTables_pageTables : PageTables scarceTables [0x101000, 0x100000] where
  alloc := by
    rw [← scarceTables_bootFrames]
    exact freeInv_boot rfl scarceTables_bootOk rfl
  phys f hf := by
    simp only [List.mem_cons, List.not_mem_nil, or_false] at hf
    omega
  tree := emptyTables_pageTables.tree
  offFree p t _ ht hf := by
    have := (emptyTables_table ht).2
    simp only [List.mem_cons, List.not_mem_nil, or_false] at hf
    omega
  zero := emptyTables_pageTables.zero

/-- Nothing is mapped there: three tables are missing, and there are frames for two. -/
theorem scarceTables_exhausted (v p fl : BitVec 64) :
    ∃ s', (mapPage v p fl).exec scarceTables = .ok (.error .outOfFrames, s') ∧ PageTables s' [] ∧
      s'.frameAllocator.initialized = true ∧ scarceTables.missingTables v = 3 ∧
      Grown scarceTables s' (Mem.tablePath v) 0 [0x101000, 0x100000] := by
  have hentry : scarceTables.entry [] (tableIndex v 39) = some 0 := emptyTables_entry _
  obtain ⟨hh, hm⟩ := Mem.below_zero hentry [tableIndex v 30, tableIndex v 21]
  have hmiss : scarceTables.missingTables v = 3 := hm
  obtain ⟨r, s', free', hx, h', hr⟩ := mapPage_run scarceTables_pageTables v p fl
  cases hr with
  | huge hh' => exact absurd hh' hh
  | already _ ha =>
    obtain ⟨x, hx'⟩ := Option.ne_none_iff_exists'.1 ha
    obtain ⟨t, ht⟩ := table_of_abs hx'
    exact absurd (emptyTables_table ht).1 (List.cons_ne_nil _ _)
  | mapped _ _ hlen =>
    -- there are two frames only
    rw [hmiss] at hlen
    exact absurd hlen (by decide)
  | exhausted _ _ _ hi _ hg =>
    rw [hmiss] at hg
    exact ⟨s', hx, h', hi, hmiss, hg⟩

/-- After a call that ran out of frames, a frame that it took need not be an all-zero table: the first of two
has the entry of the second. -/
theorem scarceTables_linked :
    ¬ ∀ (s s' : Mem) (free : List Nat) (v p fl : BitVec 64), PageTables s free →
      (mapPage v p fl).exec s = .ok (.error .outOfFrames, s') →
        ∀ f ∈ free, ∃ q, q.length ≤ 3 ∧ s'.table q = some f ∧ ∀ i, s'.entry q i = some 0 := by
  intro hall
  obtain ⟨s', hx, h', -, -, hg⟩ := scarceTables_exhausted 0 0 0
  obtain ⟨q, hq, hqt, hz⟩ :=
    hall scarceTables s' [0x101000, 0x100000] 0 0 0 scarceTables_pageTables hx 0x101000 (by decide)
  -- the first table is at depth one, and in no other place
  have hpath : q = (Mem.tablePath 0).take 1 := h'.tree q _ _ hq (by decide) hqt (hg.table 0 0x101000 rfl)
  have hlink := hg.link 1 0x100000 (tableIndex 0 30) rfl rfl
  have hzero := hz (tableIndex 0 30)
  rw [hpath] at hzero
  rw [hzero] at hlink
  exact absurd (Option.some.inj hlink) (by decide)

/-- With a third frame freed, the next call succeeds, with the two tables that are there. -/
theorem mapPage_leaves_scarceTables :
    ∃ s₀ s₁ s₂, (mapPage 0x400000 0x200000 0).exec scarceTables = .ok (.error .outOfFrames, s₀) ∧
      (freeFrame 0x300000).run s₀ = .ok ((), s₁) ∧ (mapPage 0x400000 0x200000 0).exec s₁ = .ok (.ok (), s₂) ∧
      PageTables s₂ [] ∧ s₂.table ((Mem.tablePath 0x400000).take 1) = some 0x101000 := by
  obtain ⟨s₀, hx, h₀, hi, hmiss, hg⟩ := scarceTables_exhausted 0x400000 0x200000 0
  have hoff : ∀ p, p.length ≤ 3 → s₀.table p ≠ some 0x300000 := by
    rintro p hp ht
    rcases hg.only p _ hp ht with ht | ⟨k, hk, -⟩
    · exact absurd (emptyTables_table ht).2 (by decide)
    · exact absurd (List.mem_of_getElem? hk) (by decide)
  obtain ⟨s₁, hfree, h₁, hsame, -⟩ :=
    freeFrame_tables h₀ hi (f := 0x300000) (by decide) (by decide) List.not_mem_nil hoff
  obtain ⟨-, hout, -⟩ := mapPage_leaves scarceTables_pageTables 0x400000 0x200000 0 hx
  obtain ⟨-, -, -, hretry⟩ := hout rfl
  obtain ⟨s₂, hx₂, h₂, hkeep⟩ := hretry s₁ [0x300000] h₁ hsame (by rw [hmiss]; decide)
  rw [hmiss] at h₂ hkeep
  exact ⟨s₀, s₁, s₂, hx, hfree, hx₂, h₂, hkeep 0 0x101000 rfl⟩

end Octagram.Memory

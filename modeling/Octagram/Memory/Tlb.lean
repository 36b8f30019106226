/-
The processor's copies of paging entries: it takes one whenever it likes, and drops that of a page
on `invlpg`. At every access of the paging functions the copies are those of the tables, but for the
page that is being unmapped (`copies_coherent`). What carries this is that an entry that is present
persists: `map_page` writes absent entries only (`Persists`), and `unmap_page` changes one leaf,
whose copies it drops next (`PersistsExcept`). A copy was true when it was taken, so it is true as
long as its entry persists (`Coherent`).
-/
import Octagram.Memory.Ledger
import Octagram.Memory.Steps

namespace Octagram.Memory

open Octagram.Lib

/-- The copies: of the entry of an index in the table that a path leads to. -/
abbrev Copies := List (Fin 512) → Fin 512 → Option (BitVec 64)

namespace Copies

/-- The copies after one of them was taken or dropped. -/
def put (c : Copies) (p : List (Fin 512)) (i : Fin 512) (e : Option (BitVec 64)) : Copies :=
  fun p' i' => if p' = p ∧ i' = i then e else c p' i'

/-- `invlpg`: what it drops at least. -/
def drop (c : Copies) (v : BitVec 64) : Copies := c.put (Mem.tablePath v) (tableIndex v 12) none

end Copies

/-- An operation on memory; after a panic there is nothing. -/
def PageOp.exec (o : PageOp) (s : Mem) : Option (PageRet o × Mem) :=
  match o.run.run s with
  | .ok r => some r
  | .error _ => none

/-- What an operation does to the copies. -/
def PageOp.drop : PageOp → Copies → Copies
  | .invlpg v, c => c.drop v
  | _, c => c

/-- The processor copies an entry that is present, or gives one up. -/
inductive CopyStep (s : Mem) : Copies → Copies → Prop
  | fill {c : Copies} {p : List (Fin 512)} {i : Fin 512} {e : BitVec 64} (hp : p.length ≤ 3) (he : s.entry p i = some e)
      (hpr : Present e) : CopyStep s c (c.put p i (some e))
  | evict {c : Copies} (p : List (Fin 512)) (i : Fin 512) : CopyStep s c (c.put p i none)

/-- Memory with the processor's copies. -/
def copied : Machine PageOp PageRet (Mem × Copies) := .shadowed PageOp.exec PageOp.drop CopyStep

/-! ## What the processor translates -/

/-- The table that the processor takes to be at the end of a path, from its copies and from memory. -/
inductive Fetched (s : Mem) (c : Copies) : List (Fin 512) → Nat → Prop
  | root : Fetched s c [] s.root
  | copy {p : List (Fin 512)} {i : Fin 512} {e : BitVec 64} {t : Nat} (hc : c p i = some e) (ht : tableOf e = some t) :
      Fetched s c (p ++ [i]) t
  | read {p : List (Fin 512)} {i : Fin 512} {n t : Nat} (h : Fetched s c p n)
      (ht : tableOf (entryAt s.ram n i) = some t) :
      Fetched s c (p ++ [i]) t

/-- The frame and the flags that the processor can use for an address. -/
def Translates (s : Mem) (c : Copies) (v : BitVec 64) (x : BitVec 64 × BitVec 64) : Prop :=
  ∃ e, leafOf e = some x ∧ (c (Mem.tablePath v) (tableIndex v 12) = some e ∨
    ∃ n, Fetched s c (Mem.tablePath v) n ∧ e = entryAt s.ram n (tableIndex v 12))

/-- A copy is that of the entry in the tables, which is present. -/
def Copies.True (s : Mem) (c : Copies) (p : List (Fin 512)) (i : Fin 512) : Prop :=
  ∀ e, c p i = some e → p.length ≤ 3 ∧ s.entry p i = some e ∧ Present e

/-- Every copy is that of its entry. -/
def Coherent (s : Mem) (c : Copies) : Prop := ∀ p i, c.True s p i

/-- The place of the leaf entry of `v`. -/
def IsLeaf (v : BitVec 64) (p : List (Fin 512)) (i : Fin 512) : Prop := p = Mem.tablePath v ∧ i = tableIndex v 12

/-- Entries that are present stay. -/
def Persists (s s' : Mem) : Prop := ∀ p i e, p.length ≤ 3 → s.entry p i = some e → Present e → s'.entry p i = some e

/-- But for the leaf entry of `v`, which nobody makes. -/
structure PersistsExcept (v : BitVec 64) (s s' : Mem) : Prop where
  others : ∀ p i e, ¬ IsLeaf v p i → p.length ≤ 3 → s.entry p i = some e → Present e → s'.entry p i = some e
  leaf : ∀ e, s'.entry (Mem.tablePath v) (tableIndex v 12) = some e → Present e →
    s.entry (Mem.tablePath v) (tableIndex v 12) = some e

/-- Since `s₀` entries were only made. -/
structure CoherentSince (s₀ s : Mem) (c : Copies) : Prop where
  coherent : Coherent s c
  kept : Persists s₀ s

/-- Since `s₀` the leaf entry of `v` can have become absent, and its copy can be old. -/
structure CoherentExcept (v : BitVec 64) (s₀ s : Mem) (c : Copies) : Prop where
  others : ∀ p i, ¬ IsLeaf v p i → c.True s p i
  leaf : c.True s₀ (Mem.tablePath v) (tableIndex v 12)
  kept : PersistsExcept v s₀ s

section Copies

variable {s₀ s s' : Mem} {c c' : Copies} {v u : BitVec 64}

theorem Persists.refl (s : Mem) : Persists s s := fun _ _ _ _ he _ => he

theorem PersistsExcept.refl (v : BitVec 64) (s : Mem) : PersistsExcept v s s where
  others _ _ _ _ _ he _ := he
  leaf _ he _ := he

theorem Persists.trans {s₁ : Mem} (h : Persists s₀ s₁) (h' : Persists s₁ s) : Persists s₀ s :=
  fun p i e hp he hpr => h' p i e hp (h p i e hp he hpr) hpr

theorem PersistsExcept.trans {s₁ : Mem} (h : PersistsExcept v s₀ s₁) (h' : PersistsExcept v s₁ s) :
    PersistsExcept v s₀ s where
  others p i e hn hp he hpr := h'.others p i e hn hp (h.others p i e hn hp he hpr) hpr
  leaf e he hpr := h.leaf e (h'.leaf e he hpr) hpr

theorem Coherent.since (h : Coherent s c) : CoherentSince s s c := ⟨h, Persists.refl s⟩

theorem Coherent.except (h : Coherent s c) (v : BitVec 64) : CoherentExcept v s s c where
  others p i _ := h p i
  leaf := h _ _
  kept := PersistsExcept.refl v s

theorem present_of_leaf {e : BitVec 64} {x : BitVec 64 × BitVec 64} (h : leafOf e = some x) : Present e := by
  by_contra hno
  rw [leafOf_absent hno] at h
  cases h

theorem isLeaf_length {p : List (Fin 512)} {i : Fin 512} (h : IsLeaf v p i) : p.length = 3 := by
  rw [h.1]
  rfl

/-- From true copies and the tables the processor can only get at the tables. -/
theorem fetched_table (h : ∀ p i, ¬ IsLeaf v p i → c.True s p i) {p : List (Fin 512)} {t : Nat} (hf : Fetched s c p t)
    (hp : p.length ≤ 3) : s.table p = some t := by
  induction hf with
  | root => rfl
  | @copy p i e t hc ht =>
    have hlen : (p ++ [i]).length = p.length + 1 := by simp
    have hne : ¬ IsLeaf v p i := by
      intro hl
      have := isLeaf_length hl
      omega
    rw [Mem.table_snoc, (h p i hne e hc).2.1]
    exact ht
  | @read p i n t _ ht ih =>
    have hlen : (p ++ [i]).length = p.length + 1 := by simp
    rw [Mem.table_snoc, Mem.entry_of_table (ih (by omega))]
    exact ht

/-- The tables of themselves can be fetched. -/
theorem table_fetched (c : Copies) : ∀ {p : List (Fin 512)} {t : Nat}, s.table p = some t → Fetched s c p t := by
  intro p
  induction p using List.reverseRecOn with
  | nil =>
    intro t ht
    cases ht
    exact .root
  | append_singleton p i ih =>
    intro t ht
    rw [Mem.table_snoc] at ht
    obtain ⟨e, he, ht⟩ := Option.bind_eq_some_iff.1 ht
    obtain ⟨n, hn, rfl⟩ := Option.map_eq_some_iff.1 he
    exact .read (ih hn) ht

/-- What is read of the tables themselves. -/
theorem fetched_abs (h : ∀ p i, ¬ IsLeaf v p i → c.True s p i) {n : Nat} {x : BitVec 64 × BitVec 64}
    (hn : Fetched s c (Mem.tablePath u) n) (hx : leafOf (entryAt s.ram n (tableIndex u 12)) = some x) :
    s.abs u = some x := by
  rw [abs_of_table (fetched_table h hn (Nat.le_refl 3))]
  exact hx

/-- With a true copy of the leaf entry the processor translates as the tables say. -/
theorem translates_iff (h : ∀ p i, ¬ IsLeaf v p i → c.True s p i) (hu : c.True s (Mem.tablePath u) (tableIndex u 12))
    (x : BitVec 64 × BitVec 64) : Translates s c u x ↔ s.abs u = some x := by
  constructor
  · rintro ⟨e, hx, hc | ⟨n, hn, rfl⟩⟩
    · unfold Mem.abs
      rw [(hu e hc).2.1]
      exact hx
    · exact fetched_abs h hn hx
  · intro hx
    obtain ⟨t, ht⟩ := table_of_abs hx
    rw [abs_of_table ht] at hx
    exact ⟨_, hx, .inr ⟨t, table_fetched c ht, rfl⟩⟩

theorem Coherent.translates (h : Coherent s c) (u : BitVec 64) (x : BitVec 64 × BitVec 64) :
    Translates s c u x ↔ s.abs u = some x :=
  translates_iff (v := u) (fun p i _ => h p i) (h _ _) x

/-- A page that is mapped stays mapped. -/
theorem Persists.abs (h : Persists s₀ s) {x : BitVec 64 × BitVec 64} (hx : s₀.abs u = some x) : s.abs u = some x := by
  obtain ⟨e, he, hleaf⟩ := Option.bind_eq_some_iff.1 hx
  unfold Mem.abs
  rw [h (Mem.tablePath u) _ e (Nat.le_refl 3) he (present_of_leaf hleaf)]
  exact hleaf

theorem PersistsExcept.abs (h : PersistsExcept v s₀ s) (hu : Mem.pageNumber u ≠ Mem.pageNumber v)
    {x : BitVec 64 × BitVec 64} (hx : s₀.abs u = some x) : s.abs u = some x := by
  obtain ⟨e, he, hleaf⟩ := Option.bind_eq_some_iff.1 hx
  unfold Mem.abs
  rw [h.others (Mem.tablePath u) _ e (fun hl => hu ((Mem.pageNumber_eq_iff u v).2 hl)) (Nat.le_refl 3) he
    (present_of_leaf hleaf)]
  exact hleaf

theorem CoherentExcept.translates (h : CoherentExcept v s₀ s c) (hu : Mem.pageNumber u ≠ Mem.pageNumber v)
    (x : BitVec 64 × BitVec 64) : Translates s c u x ↔ s.abs u = some x :=
  translates_iff h.others (h.others _ _ fun hl => hu ((Mem.pageNumber_eq_iff u v).2 hl)) x

/-- The page itself is at most what it was. -/
theorem CoherentExcept.translates_old (h : CoherentExcept v s₀ s c) (hu : Mem.pageNumber u = Mem.pageNumber v)
    {x : BitVec 64 × BitVec 64} (ht : Translates s c u x) : s₀.abs u = some x := by
  obtain ⟨hp, hi⟩ := (Mem.pageNumber_eq_iff u v).1 hu
  obtain ⟨e, hx, hc | ⟨n, hn, rfl⟩⟩ := ht
  · unfold Mem.abs
    rw [hp, hi] at hc ⊢
    rw [(h.leaf e hc).2.1]
    exact hx
  · have ht := fetched_table h.others hn (Nat.le_refl 3)
    have hold := h.kept.leaf (entryAt s.ram n (tableIndex u 12)) (by rw [← hp, ← hi, Mem.entry_of_table ht])
      (present_of_leaf hx)
    unfold Mem.abs
    rw [hp, hi, hold]
    exact hx

end Copies

/-! ## What the operations keep -/

section Keep

variable {s₀ s s' : Mem} {c c' : Copies} {v : BitVec 64} {o : PageOp} {q : List (Fin 512)} {j : Fin 512}

theorem Copies.True.put {p : List (Fin 512)} {i : Fin 512} {e : Option (BitVec 64)} (h : c.True s q j)
    (he : ∀ e', e = some e' → p = q ∧ i = j → p.length ≤ 3 ∧ s.entry p i = some e' ∧ Present e') :
    (c.put p i e).True s q j := by
  intro e' hc
  unfold Copies.put at hc
  split at hc
  · rename_i hq
    obtain ⟨rfl, rfl⟩ := hq
    exact he e' hc ⟨rfl, rfl⟩
  · exact h e' hc

theorem Copies.True.step (h : c.True s q j) (he : CopyStep s c c') : c'.True s q j := by
  cases he with
  | fill hp he hpr =>
    refine h.put fun e' heq _ => ?_
    cases heq
    exact ⟨hp, he, hpr⟩
  | evict p i => exact h.put nofun

theorem Copies.True.drop (h : c.True s q j) (o : PageOp) : (o.drop c).True s q j := by
  cases o with
  | invlpg v => exact h.put nofun
  | _ => exact h

theorem Copies.True.persists (h : c.True s q j)
    (hp : ∀ e, q.length ≤ 3 → s.entry q j = some e → Present e → s'.entry q j = some e) : c.True s' q j := by
  intro e hc
  obtain ⟨hl, he, hpr⟩ := h e hc
  exact ⟨hl, hp e hl he hpr, hpr⟩

theorem CoherentSince.step (h : CoherentSince s₀ s c) (he : CopyStep s c c') : CoherentSince s₀ s c' :=
  ⟨fun p i => (h.coherent p i).step he, h.kept⟩

theorem CoherentSince.keep (h : CoherentSince s₀ s c) (hk : Persists s s') (o : PageOp) :
    CoherentSince s₀ s' (o.drop c) :=
  ⟨fun p i => ((h.coherent p i).persists fun e => hk p i e).drop o, h.kept.trans hk⟩

theorem CoherentExcept.step (h : CoherentExcept v s₀ s c) (he : CopyStep s c c') : CoherentExcept v s₀ s c' where
  others p i hn := (h.others p i hn).step he
  leaf := by
    cases he with
    | @fill p i e hp he hpr =>
      refine h.leaf.put fun e' heq hq => ?_
      cases heq
      obtain ⟨rfl, rfl⟩ := hq
      exact ⟨hp, h.kept.leaf e he hpr, hpr⟩
    | evict p i => exact h.leaf.put nofun
  kept := h.kept

theorem CoherentExcept.keep (h : CoherentExcept v s₀ s c) (hk : PersistsExcept v s s') (o : PageOp) :
    CoherentExcept v s₀ s' (o.drop c) where
  others p i hn := ((h.others p i hn).persists fun e => hk.others p i e hn).drop o
  leaf := h.leaf.drop o
  kept := h.kept.trans hk

/-- Along the program run alone, every access is of `R`. -/
def Keeps {α : Type} (R : Mem → Mem → Prop) (p : PageProg α) (s : Mem) : Prop := p.Along PageOp.exec (fun _ => R) s

/-- A run whose operations keep the entries that are present keeps true copies true. -/
theorem copied_runs {α : Type} {p p' : PageProg α} {x x' : Mem × Copies} (hr : copied.Runs (p, x) (p', x'))
    (hp : Keeps Persists p x.1) (h : CoherentSince s₀ x.1 x.2) :
    CoherentSince s₀ x'.1 x'.2 ∧ p'.eval PageOp.exec x'.1 = p.eval PageOp.exec x.1 := by
  obtain ⟨h', -, he⟩ := Machine.shadowed_runs (I := CoherentSince s₀) (fun s t t' h he => h.step he)
    (fun o s s' t hk h => h.keep hk o) hr hp h
  exact ⟨h', he⟩

theorem copied_runs_except {α : Type} {p p' : PageProg α} {x x' : Mem × Copies} (hr : copied.Runs (p, x) (p', x'))
    (hp : Keeps (PersistsExcept v) p x.1) (h : CoherentExcept v s₀ x.1 x.2) :
    CoherentExcept v s₀ x'.1 x'.2 ∧ p'.eval PageOp.exec x'.1 = p.eval PageOp.exec x.1 := by
  obtain ⟨h', -, he⟩ := Machine.shadowed_runs (I := CoherentExcept v s₀) (fun s t t' h he => h.step he)
    (fun o s s' t hk h => h.keep hk o) hr hp h
  exact ⟨h', he⟩

theorem exec_eq_some {r : PageRet o × Mem} : o.exec s = some r ↔ o.run.run s = .ok r := by
  unfold PageOp.exec
  cases hx : o.run.run s with
  | error e => simp
  | ok r' => simp

/-- A program that runs alone is its function on memory. -/
theorem eval_eq_some {α : Type} {p : PageProg α} {a : α} :
    p.eval PageOp.exec s = some (a, s') ↔ (PageProg.run p).run s = .ok (a, s') := by
  induction p generalizing s with
  | ret b =>
    constructor
    · intro h
      cases h
      rfl
    · intro h
      cases h
      rfl
  | op o k ih =>
    rw [Prog.eval, PageProg.run]
    constructor
    · intro h
      obtain ⟨⟨r, s₁⟩, hexec, h⟩ := Option.bind_eq_some_iff.1 h
      rw [run_bind_ok (exec_eq_some.1 hexec)]
      exact (ih r).1 h
    · intro h
      obtain ⟨r, s₁, hr, h⟩ := run_bind_eq_ok h
      rw [exec_eq_some.2 hr, Option.bind_some]
      exact (ih r).2 h

end Keep

/-! ## The accesses of each function -/

namespace Steps

/-- The chain of `nextTableOrCreate` calls of `mapPage`. -/
def createPath : Nat → List (Fin 512) → StepM Nat
  | table, [] => pure table
  | table, i :: p => do createPath (← nextTableOrCreate (entryPtr table i)) p

/-- The chain of `nextTableExisting` calls of `unmapPage` and `translate`. -/
def readPath : Nat → List (Fin 512) → StepM Nat
  | table, [] => pure table
  | table, i :: p => do readPath (← nextTableExisting (← step (.read (entryPtr table i)))) p

/-- The end of `mapPage`. -/
def mapLeaf (pte : Nat) (virt w : BitVec 64) : StepM Unit := do
  let e ← step (.read pte)
  if e &&& flags.PRESENT ≠ 0 then
    throw .alreadyMapped
  else
    step (.write pte w)
    step (.invlpg virt)

/-- The end of `unmapPage`, up to `invlpg`. -/
def clearLeaf (pte : Nat) : StepM (BitVec 64) := do
  let e ← step (.read pte)
  if e &&& flags.PRESENT = 0 then
    throw .notMapped
  else
    let e ← step (.read pte)
    step (.write pte 0)
    pure (e &&& ADDR_MASK)

/-- `unmapPage` up to `invlpg`. -/
def clearPage (v : BitVec 64) : StepM (BitVec 64) := do
  let pt ← readPath (← pml4Virt) (Mem.tablePath v)
  clearLeaf (entryPtr pt (tableIndex v 12))

theorem stepM_pure_bind {α β : Type} (a : α) (f : α → StepM β) : (pure a >>= f) = f a := rfl

theorem stepM_bind_assoc {α β γ : Type} (x : StepM α) (f : α → StepM β) (g : β → StepM γ) :
    ((x >>= f) >>= g) = x >>= fun a => f a >>= g := by
  refine (Prog.bind_bind x.run _ _).trans (congrArg (Prog.bind x.run) (funext fun r => ?_))
  cases r <;> rfl

theorem stepM_ite_bind {α β : Type} (p : Prop) [Decidable p] (x y : StepM α) (f : α → StepM β) :
    ((if p then x else y) >>= f) = if p then x >>= f else y >>= f := apply_ite (· >>= f) p x y

theorem mapPage_eq (v p fl : BitVec 64) : mapPage v p fl = (do
    let pt ← createPath (← pml4Virt) (Mem.tablePath v)
    mapLeaf (entryPtr pt (tableIndex v 12)) (pageBase v) (pageBase p ||| flags.PRESENT ||| fl)) := by
  unfold mapPage Mem.tablePath
  dsimp only
  generalize ht : tableIndices (pageBase v) = t
  rw [tableIndices_pageBase] at ht
  subst ht
  simp only [createPath, stepM_bind_assoc, stepM_pure_bind]
  rfl

theorem unmapPage_eq (v : BitVec 64) : unmapPage v = (do
    let phys ← clearPage v
    step (.invlpg (pageBase v))
    pure phys) := by
  unfold unmapPage clearPage Mem.tablePath
  dsimp only
  generalize ht : tableIndices (pageBase v) = t
  rw [tableIndices_pageBase] at ht
  subst ht
  simp only [readPath, stepM_bind_assoc, stepM_pure_bind, clearLeaf, stepM_ite_bind]
  rfl

theorem translate_eq (v : BitVec 64) : translate v = (do
    let pt ← readPath (← pml4Virt) (Mem.tablePath v)
    let pte ← step (.read (entryPtr pt (tableIndex v 12)))
    if pte &&& flags.PRESENT = 0 then
      throw .notMapped
    else
      pure ((pte &&& ADDR_MASK) + pageOffset v)) := by
  unfold translate Mem.tablePath
  dsimp only
  generalize ht : tableIndices (pageBase v) = t
  rw [tableIndices_pageBase] at ht
  subst ht
  simp only [readPath, stepM_bind_assoc, stepM_pure_bind]

theorem alone_createPath (p : List (Fin 512)) (n : Nat) : alone (createPath n p) = Memory.createPath n p := by
  induction p generalizing n with
  | nil => rfl
  | cons i p ih => simp only [createPath, Memory.createPath, alone_bind, alone_nextTableOrCreate, ih]

theorem alone_readPath (p : List (Fin 512)) (n : Nat) : alone (readPath n p) = Memory.readPath n p := by
  induction p generalizing n with
  | nil => rfl
  | cons i p ih =>
    simp only [readPath, Memory.readPath, alone_bind, alone_nextTableExisting, ih]
    rfl

end Steps

section Functions

variable {s s' : Mem} {free : List Nat} {α β : Type} {R : Mem → Mem → Prop} {v : BitVec 64}

theorem Keeps.bind {x : StepM α} {f : α → StepM β} (hx : Keeps R x.run s)
    (hf : ∀ a s', (alone x).exec s = .ok (.ok a, s') → Keeps R (f a).run s') : Keeps R (x >>= f).run s := by
  refine Prog.Along.bind hx fun r s' he => ?_
  cases r with
  | ok a => exact hf a s' (eval_eq_some.1 he)
  | error e => trivial

/-- One access, and what follows. -/
theorem Keeps.step {o : PageOp} {f : PageRet o → StepM β}
    (h : ∀ r s', o.run.run s = .ok (r, s') → R s s' ∧ Keeps R (f r).run s') :
    Keeps R (step o >>= f).run s := fun r s' he => h r s' (exec_eq_some.1 he)

/-- An access that reads. -/
theorem Keeps.read {a : Nat} {f : BitVec 64 → StepM β} (hrefl : ∀ s, R s s) (h : Keeps R (f (s.readWord a)).run s) :
    Keeps R (Memory.step (.read a) >>= f).run s := by
  refine Keeps.step fun r s' hr => ?_
  cases hr
  exact ⟨hrefl s, h⟩

theorem keeps_tableVirt (hrefl : ∀ s, R s s) (phys : BitVec 64) (s : Mem) : Keeps R (Steps.tableVirt phys).run s := by
  intro r s' he
  cases he
  refine ⟨hrefl s, ?_⟩
  cases s.hhdm with
  | none => trivial
  | some off => trivial

theorem keeps_pml4Virt (hrefl : ∀ s, R s s) (s : Mem) : Keeps R Steps.pml4Virt.run s := by
  refine Keeps.step fun r s' hr => ?_
  cases hr
  exact ⟨hrefl s, keeps_tableVirt hrefl _ s⟩

theorem keeps_nextTableExisting (hrefl : ∀ s, R s s) (e : BitVec 64) (s : Mem) :
    Keeps R (Steps.nextTableExisting e).run s := by
  unfold Steps.nextTableExisting
  split
  · trivial
  · split
    · trivial
    · exact keeps_tableVirt hrefl _ s

theorem keeps_readPath (hrefl : ∀ s, R s s) :
    ∀ (p : List (Fin 512)) (n : Nat) (s : Mem), Keeps R (Steps.readPath n p).run s
  | [], _, _ => trivial
  | _ :: p, _, s => .read hrefl ((keeps_nextTableExisting hrefl _ s).bind fun a s' _ => keeps_readPath hrefl p a s')

theorem keeps_translate (hrefl : ∀ s, R s s) (v : BitVec 64) (s : Mem) : Keeps R (Steps.translate v).run s := by
  rw [Steps.translate_eq]
  refine (keeps_pml4Virt hrefl s).bind fun n s _ => (keeps_readPath hrefl _ n s).bind fun t s _ => .read hrefl ?_
  split <;> trivial

/-! ### Mapping -/

theorem persists_of_entries (h : ∀ p, p.length ≤ 3 → ∀ i, s'.entry p i = s.entry p i) : Persists s s' :=
  fun p i _ hp he _ => (h p hp i).trans he

/-- A new table is put where no entry was. -/
theorem persists_putTable {q : List (Fin 512)} {i : Fin 512} {w : BitVec 64} (he : s.entry q i = some 0)
    (h : ∀ p, p.length ≤ 3 → ∀ j, s'.entry p j = if p = q ++ [i] then some 0 else if p = q ∧ j = i then some w
      else s.entry p j) : Persists s s' := by
  intro p j e hp hpe hpr
  rw [h p hp, if_neg, if_neg, hpe]
  · rintro ⟨rfl, rfl⟩
    rw [he] at hpe
    cases hpe
    exact not_present_zero hpr
  · rintro rfl
    unfold Mem.entry at hpe
    rw [Mem.table_snoc, he] at hpe
    cases hpe

theorem keeps_step {o : PageOp} (h : ∀ r s', o.run.run s = .ok (r, s') → R s s') : Keeps R (step o).run s :=
  fun r s' he => ⟨h r s' (exec_eq_some.1 he), trivial⟩

section Mapping

variable {off n : Nat} {q : List (Fin 512)} {i : Fin 512}

theorem keeps_createTable (h : PageTables s free) (ho : s.hhdm = some off) (hq : s.table q = some n)
    (hl : q.length < 3) : Keeps Persists (Steps.createTable (entryPtr (n + off) i)).run s := by
  refine .read Persists.refl ?_
  rw [readEntry ho]
  split
  case isFalse => trivial
  case isTrue hno =>
    have h0 : entryAt s.ram n i = 0 := h.zero q i _ (by omega) (Mem.entry_of_table hq i) (not_not.2 hno)
    refine .step fun r s₁ hr => ?_
    cases free with
    | nil =>
      obtain ⟨s₂, hr₂, hi, hof, -⟩ := allocate_nil h.alloc
      have hr : FrameAllocator.allocate.run s = .ok (r, s₁) := hr
      rw [hr₂] at hr
      cases hr
      exact ⟨persists_of_entries fun p hp => ((h.of_outside hi (fun _ hf => hf) hof).2 p hp).2, trivial⟩
    | cons f rest =>
      obtain ⟨s₂, hr₂, hi, hof, hz, -⟩ := allocate_cons h.alloc
      have hr : FrameAllocator.allocate.run s = .ok (r, s₁) := hr
      rw [hr₂] at hr
      cases hr
      obtain ⟨ht, hsame⟩ := h.of_outside hi (fun _ hf => List.mem_cons_of_mem _ hf) hof
      have hf := List.nodup_cons.1 h.alloc.nodup
      have ha := h.alloc.aligned f List.mem_cons_self
      have he : s₁.entry q i = some 0 := by rw [(hsame q (by omega)).2, Mem.entry_of_table hq, h0]
      -- zeroing the frame changes no table; then an absent entry is made present
      refine ⟨persists_of_entries fun p hp => (hsame p hp).2, keeps_step fun r s' hw => ?_⟩
      obtain ⟨-, hput⟩ := ht.putTable (w := tableEntry f) ((hsame q (by omega)).1.trans hq) hl he (present_or _ _)
        (tableOf_frame ha (h.phys f List.mem_cons_self))
        (fun p hp hpf => h.offFree p f hp ((hsame p hp).1.symm.trans hpf) List.mem_cons_self) hf.1 ha
          (entryAt_zeroed hz)
      have hw : Except.ok ((), s₁.writeWord (entryPtr (n + off) i) (tableEntry f)) = Except.ok (r, s') := hw
      rw [writeEntry (hof.boot.hhdm.trans ho)] at hw
      cases hw
      exact persists_putTable he fun p hp => (hput p hp).2

theorem keeps_nextTableOrCreate (h : PageTables s free) (ho : s.hhdm = some off) (hq : s.table q = some n)
    (hl : q.length < 3) : Keeps Persists (Steps.nextTableOrCreate (entryPtr (n + off) i)).run s := by
  refine .read Persists.refl ?_
  split
  · trivial
  · exact (keeps_createTable h ho hq hl).bind fun _ s' _ => .read Persists.refl (keeps_tableVirt Persists.refl _ _)

/-- The table that a call hands on. -/
theorem nextTable_grew (h : PageTables s free) (ho : s.hhdm = some off) (hq : s.table q = some n) (hl : q.length < 3)
    {a : Nat} (hr : (nextTableOrCreate (entryPtr (n + off) i)).exec s = .ok (.ok a, s')) :
    ∃ free' t, Grew s s' free free' ∧ a = t + off ∧ s'.table (q ++ [i]) = some t := by
  obtain ⟨r, s₁, free', hx, hg, ht⟩ := createPath_grew [i] h ho hq (by simp; omega)
  rw [createPath, PageM.exec_bind_ok hr] at hx
  cases hx
  obtain ⟨t, hat, ht⟩ := ht a rfl
  exact ⟨free', t, hg, hat, ht⟩

theorem keeps_createPath : ∀ (p : List (Fin 512)) {q : List (Fin 512)} {s : Mem} {free : List Nat} {n : Nat},
    PageTables s free → s.hhdm = some off → s.table q = some n → q.length + p.length ≤ 3 →
    Keeps Persists (Steps.createPath (n + off) p).run s
  | [], _, _, _, _, _, _, _, _ => trivial
  | i :: p, q, s, free, n, h, ho, hq, hl => by
    rw [List.length_cons] at hl
    refine (keeps_nextTableOrCreate h ho hq (by omega)).bind fun a s' hr => ?_
    rw [alone_nextTableOrCreate] at hr
    obtain ⟨free', t, hg, rfl, ht⟩ := nextTable_grew h ho hq (by omega) hr
    exact keeps_createPath p hg.tables (hg.boot.hhdm.trans ho) ht (by simp; omega)

/-- A leaf entry that is written was absent. -/
theorem keeps_mapLeaf (h : PageTables s free) (ho : s.hhdm = some off) {t : Nat}
    (ht : s.table (Mem.tablePath v) = some t) (u w : BitVec 64) (hw : Present w) :
    Keeps Persists (Steps.mapLeaf (entryPtr (t + off) (tableIndex v 12)) u w).run s := by
  refine .read Persists.refl ?_
  rw [readEntry ho]
  split
  · trivial
  · rename_i hno
    have hno : ¬ Present (entryAt s.ram t (tableIndex v 12)) := hno
    refine .step fun r s' hr => ⟨?_, keeps_step fun _ _ hr' => ?_⟩
    · have hr : Except.ok ((), s.writeWord (entryPtr (t + off) (tableIndex v 12)) w) = Except.ok (r, s') := hr
      rw [writeEntry ho] at hr
      cases hr
      obtain ⟨-, hput⟩ := h.setLeaf (i := tableIndex v 12) ht rfl fun hn => absurd hw hn
      intro p j e hp he hpr
      rw [(hput p hp).2, if_neg, he]
      rintro ⟨rfl, rfl⟩
      rw [Mem.entry_of_table ht] at he
      cases he
      exact hno hpr
    · cases hr'
      exact Persists.refl _

theorem keeps_mapPage (h : PageTables s free) (v p fl : BitVec 64) : Keeps Persists (Steps.mapPage v p fl).run s := by
  obtain ⟨off, ho⟩ := Option.isSome_iff_exists.1 h.alloc.hhdm
  rw [Steps.mapPage_eq]
  refine (keeps_pml4Virt Persists.refl s).bind fun n s₁ hr => ?_
  rw [alone_pml4Virt, pml4Virt_ok ho] at hr
  cases hr
  refine (keeps_createPath (Mem.tablePath v) (q := []) h ho (Mem.table_nil s) (Nat.le_refl 3)).bind fun a s' hr => ?_
  rw [Steps.alone_createPath] at hr
  obtain ⟨r, s₂, free', hx, hg, hat⟩ :=
    createPath_grew (Mem.tablePath v) (q := []) h ho (Mem.table_nil s) (Nat.le_refl 3)
  rw [hr] at hx
  cases hx
  obtain ⟨t, rfl, ht⟩ := hat a rfl
  exact keeps_mapLeaf hg.tables (hg.boot.hhdm.trans ho) ht _ _ (present_or _ _)

/-- The tables are there for one call after the other. -/
theorem keeps_forM {f : α → StepM Unit} (hk : ∀ a s free, PageTables s free → Keeps Persists (f a).run s)
    (hg : ∀ a, Grows (alone (f a)).run) :
    ∀ (l : List α) {s : Mem} {free : List Nat}, PageTables s free → Keeps Persists (forM l f).run s
  | [], _, _, _ => trivial
  | a :: l, s, free, h => by
    rw [List.forM_cons]
    refine (hk a s free h).bind fun _ s' hr => ?_
    obtain ⟨free', hgrew⟩ := hg a s free h _ s' hr
    exact keeps_forM hk hg l hgrew.tables

theorem keeps_panic (message : String) (s : Mem) : Keeps R (Steps.panic message) s := nofun

theorem keeps_addU64 (a b : BitVec 64) (s : Mem) : Keeps R (Steps.addU64 a b).run s := by
  unfold Steps.addU64
  split
  · trivial
  · exact nofun

/-- An addition that does not overflow leaves memory as it is. -/
theorem addU64_same {a b x : BitVec 64} (hr : (alone (Steps.addU64 a b)).exec s = .ok (.ok x, s')) : s' = s := by
  rw [alone_addU64] at hr
  unfold addU64 at hr
  split at hr
  · cases hr
    rfl
  · cases hr

theorem keeps_mapRound (h : PageTables s free) (v p fl : BitVec 64) (k : Nat) :
    Keeps Persists (Steps.mapRound v p fl k).run s := by
  refine (keeps_addU64 _ _ s).bind fun virt s₁ hr => ?_
  rw [addU64_same hr]
  refine (keeps_addU64 _ _ s).bind fun phys s₂ hr => ?_
  rw [addU64_same hr]
  exact keeps_mapPage h virt phys fl

theorem keeps_mapRange (h : PageTables s free) (v p size fl : BitVec 64) :
    Keeps Persists (Steps.mapRange v p size fl).run s := by
  refine keeps_forM (fun k s free h => keeps_mapRound h v p fl k) (fun k => ?_) _ h
  rw [alone_mapRound]
  exact mapRound_grows v p fl k

theorem keeps_mmioVirt (hrefl : ∀ s, R s s) (phys : BitVec 64) (s : Mem) : Keeps R (Steps.mmioVirt phys) s := by
  intro r s' he
  cases he
  refine ⟨hrefl s, ?_⟩
  cases s.hhdm with
  | none => exact keeps_panic _ s
  | some off => trivial

theorem mmioVirt_same {phys v : BitVec 64} (he : (Steps.mmioVirt phys).eval PageOp.exec s = some (v, s')) : s' = s := by
  obtain ⟨ram, hhdm, map, frames, cr3⟩ := s
  cases hhdm with
  | none => cases he
  | some off =>
    cases he
    rfl

theorem keeps_mapMmio {message : String} {phys : BitVec 64} {mapIt : BitVec 64 → BitVec 64 → StepM Unit}
    (hk : ∀ v p, Keeps Persists (mapIt v p).run s) : Keeps Persists (Steps.mapMmio message phys mapIt) s := by
  refine Prog.Along.bind (keeps_mmioVirt Persists.refl _ s) fun virt s₁ he => ?_
  rw [mmioVirt_same he]
  refine Prog.Along.bind (hk _ _) fun r s' _ => ?_
  rcases r with e | _
  · cases e
    case alreadyMapped => trivial
    all_goals exact keeps_panic _ s'
  · trivial

end Mapping

/-! ### Unmapping -/

theorem keeps_clearLeaf (h : PageTables s free) {off t : Nat} (ho : s.hhdm = some off)
    (ht : s.table (Mem.tablePath v) = some t) :
    Keeps (PersistsExcept v) (Steps.clearLeaf (entryPtr (t + off) (tableIndex v 12))).run s := by
  refine .read (PersistsExcept.refl v) ?_
  split
  · trivial
  · refine .read (PersistsExcept.refl v) (.step fun r s' hr => ⟨?_, trivial⟩)
    have hr : Except.ok ((), s.writeWord (entryPtr (t + off) (tableIndex v 12)) 0) = Except.ok (r, s') := hr
    rw [writeEntry ho] at hr
    cases hr
    obtain ⟨-, hput⟩ := h.setLeaf (i := tableIndex v 12) (w := 0) ht rfl fun _ => rfl
    constructor
    · intro p j e hn hp he hpr
      rw [(hput p hp).2, he]
      exact if_neg hn
    · intro e he hpr
      rw [(hput (Mem.tablePath v) (Nat.le_refl 3)).2, if_pos ⟨rfl, rfl⟩] at he
      cases he
      exact absurd hpr not_present_zero

/-- `clearLeaf` has only read, or succeeds. -/
theorem clearLeaf_cases {off t : Nat} (ho : s.hhdm = some off) (i : Fin 512) :
    Keeps Persists (Steps.clearLeaf (entryPtr (t + off) i)).run s ∨
    ∃ phys s', (alone (Steps.clearLeaf (entryPtr (t + off) i))).exec s = .ok (.ok phys, s') := by
  by_cases hp : Present (entryAt s.ram t i)
  · right
    refine ⟨entryAt s.ram t i &&& ADDR_MASK, s.setEntry t i 0, ?_⟩
    unfold Steps.clearLeaf
    rw [alone_read, PageM.exec_get, readEntry ho, if_neg hp, alone_read, PageM.exec_get, readEntry ho, ← writeEntry ho]
    rfl
  · left
    refine .read Persists.refl ?_
    rw [readEntry ho, if_pos (not_not.1 hp)]
    trivial

theorem keeps_clearPage {off : Nat} (ho : s.hhdm = some off) (hrefl : ∀ s, R s s)
    (hleaf : ∀ pt, (Memory.readPath (s.root + off) (Mem.tablePath v)).exec s = .ok (.ok pt, s) →
      Keeps R (Steps.clearLeaf (entryPtr pt (tableIndex v 12))).run s) :
    Keeps R (Steps.clearPage v).run s := by
  refine (keeps_pml4Virt hrefl s).bind fun n s₁ hr => ?_
  rw [alone_pml4Virt, pml4Virt_ok ho] at hr
  cases hr
  refine (keeps_readPath hrefl _ _ s).bind fun a s' hr => ?_
  rw [Steps.alone_readPath] at hr
  rcases readLeaf_spec (v := v) ho with ⟨-, hx⟩ | ⟨-, t, -, hx⟩ | ⟨-, -, hx⟩
  · rw [hx] at hr
    cases hr
  · rw [hx] at hr
    cases hr
    exact hleaf _ hx
  · rw [hx] at hr
    cases hr

/-- `clearPage` has only read, or has cleared the leaf entry. -/
theorem clearPage_cases (h : PageTables s free) (v : BitVec 64) :
    Keeps (PersistsExcept v) (Steps.clearPage v).run s ∧
    (Keeps Persists (Steps.clearPage v).run s ∨
      ∃ phys s', (alone (Steps.clearPage v)).exec s = .ok (.ok phys, s')) := by
  obtain ⟨off, ho⟩ := Option.isSome_iff_exists.1 h.alloc.hhdm
  have hfail : ∀ {e : PagingError} {R : Mem → Mem → Prop}, (∀ s, R s s) →
      (Memory.readPath (s.root + off) (Mem.tablePath v)).exec s = .ok (.error e, s) →
        Keeps R (Steps.clearPage v).run s := by
    intro e R hrefl hx
    refine keeps_clearPage ho hrefl fun pt hpt => ?_
    rw [hx] at hpt
    cases hpt
  rcases readLeaf_spec (v := v) ho with ⟨-, hx⟩ | ⟨-, t, ht, hx⟩ | ⟨-, -, hx⟩
  · exact ⟨hfail (PersistsExcept.refl v) hx, .inl (hfail Persists.refl hx)⟩
  · have hleaf : ∀ {R : Mem → Mem → Prop}, (∀ s, R s s) →
      Keeps R (Steps.clearLeaf (entryPtr (t + off) (tableIndex v 12))).run s →
        Keeps R (Steps.clearPage v).run s := by
      intro R hrefl hk
      refine keeps_clearPage ho hrefl fun pt hpt => ?_
      rw [hx] at hpt
      cases hpt
      exact hk
    refine ⟨hleaf (PersistsExcept.refl v) (keeps_clearLeaf h ho ht), ?_⟩
    rcases clearLeaf_cases (t := t) ho (tableIndex v 12) with hk | ⟨phys, s', hr⟩
    · exact .inl (hleaf Persists.refl hk)
    · refine .inr ⟨phys, s', ?_⟩
      unfold Steps.clearPage
      rw [alone_bind, alone_pml4Virt, PageM.exec_bind_ok (pml4Virt_ok ho), alone_bind, Steps.alone_readPath,
        PageM.exec_bind_ok hx]
      exact hr
  · exact ⟨hfail (PersistsExcept.refl v) hx, .inl (hfail Persists.refl hx)⟩

theorem keeps_unmapPage (h : PageTables s free) (v : BitVec 64) :
    Keeps (PersistsExcept v) (Steps.unmapPage v).run s := by
  rw [Steps.unmapPage_eq]
  refine (clearPage_cases h v).1.bind fun phys s' _ => .step fun r s'' hr => ?_
  cases hr
  exact ⟨PersistsExcept.refl v s', trivial⟩

/-- `invlpg` drops the one copy that can be old. -/
theorem coherent_invlpg {s₀ : Mem} {c : Copies} (h : CoherentExcept v s₀ s c) : Coherent s (c.drop (pageBase v)) := by
  have hpage := (Mem.pageNumber_eq_iff (pageBase v) v).1 (Mem.pageNumber_pageBase v)
  intro p i
  by_cases hl : IsLeaf v p i
  · intro e he
    have hnone : c.drop (pageBase v) p i = none := by
      unfold Copies.drop Copies.put
      rw [hpage.1, hpage.2]
      exact if_pos hl
    rw [hnone] at he
    cases he
  · exact (h.others p i hl).drop (.invlpg (pageBase v))

/-- The environment keeps true copies true. -/
theorem coherent_stable : copied.Stable fun x => Coherent x.1 x.2 := by
  rintro ⟨s, c⟩ ⟨s', c'⟩ h ⟨hs, he⟩
  have hs : s' = s := hs
  rw [hs]
  exact (h.since.step he).coherent

theorem coherentExcept_stable (v : BitVec 64) (s₀ : Mem) : copied.Stable fun x => CoherentExcept v s₀ x.1 x.2 := by
  rintro ⟨s, c⟩ ⟨s', c'⟩ h ⟨hs, he⟩
  have hs : s' = s := hs
  rw [hs]
  exact h.step he

/-- `unmapPage` returns with true copies. -/
theorem unmapPage_coherent {x x' : Mem × Copies} {r : Except PagingError (BitVec 64)} (h : PageTables x.1 free)
    (hc : Coherent x.1 x.2) (hr : copied.Runs ((Steps.unmapPage v).run, x) (.ret r, x')) : Coherent x'.1 x'.2 := by
  rw [Steps.unmapPage_eq] at hr
  obtain ⟨a, x₁, h1, h2⟩ := Machine.runs_bind hr
  obtain ⟨hexc, hcase⟩ := clearPage_cases h v
  obtain ⟨hexc₁, heval⟩ := copied_runs_except h1 hexc (hc.except v)
  rcases a with e | phys
  · -- nothing was written
    rcases hcase with hk | ⟨phys, s', hs'⟩
    · exact (coherent_stable.runs_ret h2 (copied_runs h1 hk hc.since).1.coherent).2
    · have heval : some (Except.error e, x₁.1) = (Steps.clearPage v).run.eval PageOp.exec x.1 := heval
      rw [eval_eq_some.2 hs'] at heval
      cases heval
  · obtain ⟨x₂, r₂, x₃, hexc₂, -, he, hrest⟩ := (coherentExcept_stable v x.1).runs_op h2 hexc₁
    have he : some ((), (x₂.1, x₂.2.drop (pageBase v))) = some (r₂, x₃) := he
    cases he
    exact (coherent_stable.runs_ret hrest (coherent_invlpg hexc₂)).2

end Functions

/-! ## Calls -/

/-- The paging functions that the kernel calls. -/
inductive PagingCall
  | mapPage (v p fl : BitVec 64)
  | mapRange (v p size fl : BitVec 64)
  | unmapPage (v : BitVec 64)
  | translate (v : BitVec 64)
  | mapMmioPage (p : BitVec 64)
  | mapMmioRange (p size : BitVec 64)
  | allocateFrame

namespace PagingCall

/-- What they return. -/
abbrev Res : PagingCall → Type
  | .mapPage .. | .mapRange .. => Except PagingError Unit
  | .unmapPage _ | .translate _ => Except PagingError (BitVec 64)
  | .mapMmioPage _ | .mapMmioRange .. => BitVec 64
  | .allocateFrame => Option Nat

/-- The call, access by access. -/
def prog : (i : PagingCall) → PageProg i.Res
  | .mapPage v p fl => (Steps.mapPage v p fl).run
  | .mapRange v p size fl => (Steps.mapRange v p size fl).run
  | .unmapPage v => (Steps.unmapPage v).run
  | .translate v => (Steps.translate v).run
  | .mapMmioPage p => Steps.mapMmioPage p
  | .mapMmioRange p size => Steps.mapMmioRange p size
  | .allocateFrame => Prog.call PageOp.allocateFrame

/-- The call as a function on memory. -/
def function : (i : PagingCall) → MemM i.Res
  | .mapPage v p fl => (Memory.mapPage v p fl).run
  | .mapRange v p size fl => (Memory.mapRange v p size fl).run
  | .unmapPage v => (Memory.unmapPage v).run
  | .translate v => (Memory.translate v).run
  | .mapMmioPage p => Memory.mapMmioPage p
  | .mapMmioRange p size => Memory.mapMmioRange p size
  | .allocateFrame => Memory.allocateFrame

theorem run_prog (i : PagingCall) : PageProg.run i.prog = i.function := by
  cases i with
  | mapPage v p fl => exact alone_mapPage v p fl
  | mapRange v p size fl => exact alone_mapRange v p size fl
  | unmapPage v => exact alone_unmapPage v
  | translate v => exact alone_translate v
  | mapMmioPage p => exact run_mapMmio fun v p => alone_mapPage v p _
  | mapMmioRange p size => exact run_mapMmio fun v p => alone_mapRange v p size _
  | allocateFrame => exact bind_pure _

/-- Every call leaves page tables. -/
theorem tables {i : PagingCall} {s s' : Mem} {free : List Nat} {r : i.Res} (h : PageTables s free)
    (hr : i.function.run s = .ok (r, s')) : ∃ free', PageTables s' free' := by
  have hgrow : Grows i.function → ∃ free', PageTables s' free' := by
    intro hg
    obtain ⟨free', hgrew⟩ := hg s free h r s' hr
    exact ⟨free', hgrew.tables⟩
  cases i with
  | mapPage v p fl => exact hgrow (mapPage_grows v p fl)
  | mapRange v p size fl => exact hgrow (mapRange_grows v p size fl)
  | unmapPage v => exact hgrow (unmapPage_grows v)
  | translate v => exact hgrow (translate_grows v)
  | mapMmioPage p => exact hgrow (mapMmioPage_grows p)
  | mapMmioRange p size => exact hgrow (mapMmioRange_grows p size)
  | allocateFrame =>
    obtain ⟨free', hg, -⟩ := allocateFrame_gave h hr
    exact ⟨free', hg.tables⟩

/-- All calls but `unmapPage` keep what is mapped at every access. -/
theorem keeps {i : PagingCall} {s : Mem} {free : List Nat} (h : PageTables s free) (hi : ∀ v, i ≠ .unmapPage v) :
    Keeps Persists i.prog s := by
  cases i with
  | mapPage v p fl => exact keeps_mapPage h v p fl
  | mapRange v p size fl => exact keeps_mapRange h v p size fl
  | unmapPage v => exact absurd rfl (hi v)
  | translate v => exact keeps_translate Persists.refl v s
  | mapMmioPage p => exact keeps_mapMmio fun v p => keeps_mapPage h v p _
  | mapMmioRange p size => exact keeps_mapMmio fun v p => keeps_mapRange h v p size _
  | allocateFrame =>
    refine fun r s' he => ⟨?_, trivial⟩
    obtain ⟨free', hg, -⟩ := allocateFrame_gave h (exec_eq_some.1 he)
    have hsub : ∀ f ∈ free', f ∈ free := by
      intro f hf
      rw [hg.list]
      exact List.mem_append_right _ hf
    exact persists_of_entries fun p hp => ((h.of_outside hg.tables.alloc hsub hg.only).2 p hp).2

end PagingCall

/-- What a function does it does whatever the processor copies. -/
theorem runs_alone {α : Type} {p : PageProg α} {s s' : Mem} {a : α} (h : (PageProg.run p).run s = .ok (a, s'))
    (c : Copies) : ∃ c', copied.Runs (p, (s, c)) (.ret a, (s', c')) := Machine.shadowed_of_eval (eval_eq_some.2 h) c

/-- Boot leaves page tables, and the processor has copies of their entries at most. -/
def PagingBoot (x : Mem × Copies) : Prop := (∃ free, PageTables x.1 free) ∧ Coherent x.1 x.2

/-- What a call returns, and the memory it ends in, are those of its function. -/
theorem function_of_eval {i : PagingCall} {s s' : Mem} {r : i.Res}
    (h : (Prog.ret r : PageProg i.Res).eval PageOp.exec s' = i.prog.eval PageOp.exec s) :
    i.function.run s = .ok (r, s') := by
  rw [← PagingCall.run_prog]
  exact eval_eq_some.1 h.symm

section Session

variable {x x' : Mem × Copies}

theorem call_boot {i : PagingCall} {r : i.Res} (h : PagingBoot x) (hr : copied.Runs (i.prog, x) (.ret r, x')) :
    PagingBoot x' ∧ i.function.run x.1 = .ok (r, x'.1) := by
  obtain ⟨⟨free, ht⟩, hc⟩ := h
  by_cases hi : ∃ v, i = .unmapPage v
  · obtain ⟨v, rfl⟩ := hi
    have hrun := function_of_eval (copied_runs_except hr (keeps_unmapPage ht v) (hc.except v)).2
    exact ⟨⟨PagingCall.tables ht hrun, unmapPage_coherent ht hc hr⟩, hrun⟩
  · obtain ⟨hc', heval⟩ := copied_runs hr (PagingCall.keeps ht fun v he => hi ⟨v, he⟩) hc.since
    have hrun := function_of_eval heval
    exact ⟨⟨PagingCall.tables ht hrun, hc'.coherent⟩, hrun⟩

theorem session_boot {hist : List (Machine.Return (Mem × Copies) PagingCall.Res)}
    (h : Machine.Session copied PagingCall.prog PagingBoot hist x) : PagingBoot x := by
  refine h.invariant (fun _ hb => hb) ?_ fun i x hx r x' hr => (call_boot hx hr).1
  rintro x x' ⟨ht, hc⟩ he
  have hs : x'.1 = x.1 := he.1
  exact ⟨by rw [hs]; exact ht, coherent_stable x x' hc he⟩

/-- The processor copies entries whenever it likes. Yet at every access of every call it translates as the
tables say, and all that was mapped when the call began it translates as then; only the page that is being
unmapped may for a while still be what it was. When a call returns this is over, and the call has done what its
function does. -/
theorem copies_coherent {hist : List (Machine.Return (Mem × Copies) PagingCall.Res)}
    (h : Machine.Session copied PagingCall.prog PagingBoot hist x) {i : PagingCall} {p' : PageProg i.Res}
    (hr : copied.Runs (i.prog, x) (p', x')) :
    (∀ u y, (∀ v, i = .unmapPage v → Mem.pageNumber u ≠ Mem.pageNumber v) →
      (Translates x'.1 x'.2 u y ↔ x'.1.abs u = some y) ∧ (x.1.abs u = some y → Translates x'.1 x'.2 u y)) ∧
    (∀ v u y, i = .unmapPage v → Mem.pageNumber u = Mem.pageNumber v → Translates x'.1 x'.2 u y → x.1.abs u = some y) ∧
    ∀ r, p' = .ret r → i.function.run x.1 = .ok (r, x'.1) ∧ ∀ u y, Translates x'.1 x'.2 u y ↔ x'.1.abs u = some y := by
  have hboot := session_boot h
  obtain ⟨⟨free, ht⟩, hc⟩ := hboot
  refine ⟨fun u y hu => ?_, ?_, ?_⟩
  · by_cases hi : ∃ v, i = .unmapPage v
    · obtain ⟨v, rfl⟩ := hi
      have hexc := (copied_runs_except hr (keeps_unmapPage ht v) (hc.except v)).1
      have hne := hu v rfl
      exact ⟨hexc.translates hne y, fun hx => (hexc.translates hne y).2 (hexc.kept.abs hne hx)⟩
    · have hsince := (copied_runs hr (PagingCall.keeps ht fun v he => hi ⟨v, he⟩) hc.since).1
      exact ⟨hsince.coherent.translates u y, fun hx => (hsince.coherent.translates u y).2 (hsince.kept.abs hx)⟩
  · rintro v u y rfl hu htr
    exact (copied_runs_except hr (keeps_unmapPage ht v) (hc.except v)).1.translates_old hu htr
  · rintro r rfl
    obtain ⟨⟨-, hc'⟩, hrun⟩ := call_boot ⟨⟨free, ht⟩, hc⟩ hr
    exact ⟨hrun, hc'.translates⟩

end Session

/-- A page of registers is mapped, and the processor translates its address at once. -/
theorem copies_coherent_emptyTables : ∃ x : Mem × Copies,
    Translates x.1 x.2 0xffff8000fee00000#64 (0xfee00000#64, flags.WRITABLE ||| flags.NO_CACHE ||| flags.PRESENT) := by
  have hboot : Machine.Session copied PagingCall.prog PagingBoot [] (emptyTables, fun _ _ => none) :=
    .boot ⟨⟨_, emptyTables_pageTables⟩, fun _ _ => nofun⟩
  obtain ⟨s', -, hx, -, hmap⟩ :=
    @emptyTables_mapPage 0xffff8000fee00000#64 0xfee00000#64 (flags.WRITABLE ||| flags.NO_CACHE) (by decide) (by decide)
  have hrun : (PageProg.run
    (PagingCall.mapPage 0xffff8000fee00000#64 0xfee00000#64 (flags.WRITABLE ||| flags.NO_CACHE)).prog).run emptyTables =
      .ok (.ok (), s') := by
    rw [PagingCall.run_prog]
    exact hx
  obtain ⟨c', hr⟩ := runs_alone hrun fun _ _ => none
  obtain ⟨-, -, hend⟩ := copies_coherent hboot hr
  refine ⟨(s', c'), ((hend (.ok ()) rfl).2 _ _).2 ?_⟩
  have habs : s'.abs 0xffff8000fee00000#64 = _ := hmap.mapped rfl _
  rw [habs, if_pos rfl]
  decide

end Octagram.Memory

/-
`memory/heap_allocator.rs`: `init_heap` asks for `HEAP_FRAMES` frames, remembers the lowest frame
of a descending run, skips every frame that does not continue the run, and hands the range above
the lowest frame to the heap. It owns that whole range exactly when the frames it was given
contain it and come down to its start in descending order.
-/
import Octagram.Memory.Ownership
import Mathlib.Data.List.Perm.Subperm

namespace Octagram.Memory

open Octagram.Lib

/-- `HEAP_FRAMES`: one MiB. -/
def HEAP_FRAMES : Nat := 256

/-- `HEAP_SIZE`: 1 MiB. -/
def HEAP_SIZE : Nat := HEAP_FRAMES * FRAME_SIZE

/-- `usize::wrapping_sub`. -/
def wrappingSub (a b : Nat) : Nat := (a + 2 ^ 64 - b) % 2 ^ 64

/-- The locals of the loop of `init_heap`, and the frames `allocate` has returned to it. -/
structure HeapRun where
  lowestFrame : Option Nat
  expectedNext : Option Nat
  allocated : List Nat

/-- One iteration of the loop, after `allocate` returned a frame. -/
def HeapRun.take (r : HeapRun) (frame : Nat) : HeapRun :=
  match r.expectedNext with
  | some expected =>
    if frame ≠ expected then
      -- "frame fisik tidak kontigu": `continue`, where the comment says `return false`
      { r with allocated := r.allocated ++ [frame] }
    else
      ⟨some frame, some (wrappingSub frame FRAME_SIZE), r.allocated ++ [frame]⟩
  | none => ⟨some frame, some (wrappingSub frame FRAME_SIZE), r.allocated ++ [frame]⟩

/-- The loop of `init_heap`, `n` iterations. -/
def heapLoop : Nat → HeapRun → MemM HeapRun
  | 0, r => pure r
  | n + 1, r => do
    match ← FrameAllocator.allocate with
    | some frame => heapLoop n (r.take frame)
    | none => heapLoop n r -- "frame fisik tidak cukup": `continue` as well

/-- What a call of `init_heap` did: its result, the arguments of `ALLOCATOR.init` if it was
called, and the frames `allocate` returned during the call. -/
structure HeapOutcome where
  result : Bool
  heap : Option (Nat × Nat)
  allocated : List Nat

/-- `init_heap`. -/
def initHeap : MemM HeapOutcome := do
  let r ← heapLoop HEAP_FRAMES ⟨none, none, []⟩
  match r.lowestFrame with
  | none => pure ⟨false, none, r.allocated⟩
  | some heapStartPhys =>
    match (← get).physicalToVirtual heapStartPhys with
    | none => pure ⟨false, none, r.allocated⟩
    | some heapStartVirt => pure ⟨true, some (heapStartVirt, HEAP_SIZE), r.allocated⟩

/-! ## The loop on a list of frames -/

/-- With `free` free, the loop takes the first `n` of these frames. -/
theorem heapLoop_spec : ∀ (n : Nat) {s : Mem} {free : List Nat} (r : HeapRun), FreeInv s free →
    ∃ s', (heapLoop n r).run s = .ok ((free.take n).foldl HeapRun.take r, s') ∧ s.SameBoot s'
  | 0, s, _, r, _ => ⟨s, rfl, Mem.SameBoot.refl s⟩
  | n + 1, s, [], r, h => by
    obtain ⟨s1, hr, hi, ho, -⟩ := allocate_nil h
    obtain ⟨s2, hr2, hb⟩ := heapLoop_spec n r hi
    refine ⟨s2, ?_, ho.boot.trans hb⟩
    rw [heapLoop, run_bind_ok hr, List.take_nil]
    simpa using hr2
  | n + 1, s, f :: rest, r, h => by
    obtain ⟨s1, hr, hi, ho, -⟩ := allocate_cons h
    obtain ⟨s2, hr2, hb⟩ := heapLoop_spec n (r.take f) hi
    refine ⟨s2, ?_, ho.boot.trans hb⟩
    rw [heapLoop, run_bind_ok hr, List.take_succ_cons, List.foldl_cons]
    exact hr2

theorem foldl_take_allocated (l : List Nat) (r : HeapRun) :
    (l.foldl HeapRun.take r).allocated = r.allocated ++ l := by
  induction l generalizing r with
  | nil => simp
  | cons f l ih =>
    rw [List.foldl_cons, ih]
    have : (r.take f).allocated = r.allocated ++ [f] := by
      unfold HeapRun.take
      split
      · split <;> rfl
      · rfl
    rw [this, List.append_assoc]; rfl

/-! ## The descending run -/

/-- The lowest frame of the run that stands at `lo`, after the frames `l`. -/
def runTo (lo : Nat) : List Nat → Nat
  | [] => lo
  | f :: l => if f + FRAME_SIZE = lo then runTo f l else runTo lo l

/-- `k` frames in descending order, from `a` on. -/
def downFrom (a : Nat) : Nat → List Nat
  | 0 => []
  | k + 1 => a :: downFrom (a - FRAME_SIZE) k

/-- Below the top of the address space the wrapping subtraction is the real one. -/
theorem eq_wrappingSub {f lo : Nat} (hf : f + 4096 < 2 ^ 64) (hlo : lo + 4096 < 2 ^ 64) :
    f = wrappingSub lo FRAME_SIZE ↔ f + FRAME_SIZE = lo := by
  unfold wrappingSub FRAME_SIZE; omega

theorem take_accept {lo f : Nat} {acc : List Nat} (h : f = wrappingSub lo FRAME_SIZE) :
    HeapRun.take ⟨some lo, some (wrappingSub lo FRAME_SIZE), acc⟩ f =
      ⟨some f, some (wrappingSub f FRAME_SIZE), acc ++ [f]⟩ :=
  if_neg (not_not.2 h)

theorem take_skip {lo f : Nat} {acc : List Nat} (h : f ≠ wrappingSub lo FRAME_SIZE) :
    HeapRun.take ⟨some lo, some (wrappingSub lo FRAME_SIZE), acc⟩ f =
      ⟨some lo, some (wrappingSub lo FRAME_SIZE), acc ++ [f]⟩ :=
  if_pos h

theorem foldl_take_run (l : List Nat) {lo : Nat} (acc : List Nat) (hlo : lo + 4096 < 2 ^ 64)
    (hl : ∀ f ∈ l, f + 4096 < 2 ^ 64) :
    (l.foldl HeapRun.take ⟨some lo, some (wrappingSub lo FRAME_SIZE), acc⟩).lowestFrame = some (runTo lo l) := by
  induction l generalizing lo acc with
  | nil => rfl
  | cons f l ih =>
    obtain ⟨hf, ht⟩ := List.forall_mem_cons.1 hl
    rw [List.foldl_cons, runTo]
    by_cases hc : f + FRAME_SIZE = lo
    · rw [take_accept ((eq_wrappingSub hf hlo).2 hc), if_pos hc]
      exact ih _ hf ht
    · rw [take_skip (fun e => hc ((eq_wrappingSub hf hlo).1 e)), if_neg hc]
      exact ih _ hlo ht

theorem runTo_mem : ∀ (l : List Nat) (lo : Nat), runTo lo l ∈ lo :: l
  | [], _ => List.mem_cons_self
  | f :: l, lo => by
    rw [runTo]
    split
    · exact List.mem_cons_of_mem _ (runTo_mem l f)
    · have := runTo_mem l lo
      rw [List.mem_cons] at this ⊢
      exact this.imp id (List.mem_cons_of_mem _)

/-- The frames the run accepts come in descending order. -/
theorem runTo_sublist (l : List Nat) (lo : Nat) :
    ∃ k, runTo lo l + k * FRAME_SIZE = lo ∧ (downFrom (lo - FRAME_SIZE) k).Sublist l := by
  induction l generalizing lo with
  | nil => exact ⟨0, by simp [runTo], List.Sublist.slnil⟩
  | cons f l ih =>
    rw [runTo]
    split
    · rename_i hf
      obtain ⟨k, hk, hs⟩ := ih f
      refine ⟨k + 1, by rw [Nat.succ_mul]; omega, ?_⟩
      rw [downFrom, show lo - FRAME_SIZE = f by omega]
      exact hs.cons_cons f
    · obtain ⟨k, hk, hs⟩ := ih lo
      exact ⟨k, hk, hs.cons f⟩

/-- Frames that come in descending order below the run are accepted. -/
theorem runTo_le (l : List Nat) {lo k : Nat} (hk : k * FRAME_SIZE ≤ lo)
    (hs : (downFrom (lo - FRAME_SIZE) k).Sublist l) : runTo lo l + k * FRAME_SIZE ≤ lo := by
  induction l generalizing lo k with
  | nil =>
    cases k with
    | zero => simp [runTo]
    | succ k => exact absurd (List.sublist_nil.1 hs) (List.cons_ne_nil _ _)
  -- the next frame continues the run, and is the first of those that descend; or it is skipped
  | cons f l ih =>
    cases k with
    | zero =>
      obtain ⟨k, hk, -⟩ := runTo_sublist (f :: l) lo
      omega
    | succ k =>
      rw [Nat.succ_mul] at hk ⊢
      rw [downFrom] at hs
      rw [runTo]
      split
      · rename_i hf
        rw [show lo - FRAME_SIZE = f by omega] at hs
        have := ih (k := k) (by omega) (List.cons_sublist_cons.1 hs)
        omega
      · rename_i hf
        have hs' : (downFrom (lo - FRAME_SIZE) (k + 1)).Sublist l := by
          rcases List.cons_sublist_cons'.1 hs with h | ⟨h, -⟩
          · exact h
          · exact absurd (by omega) hf
        have := ih (by rw [Nat.succ_mul]; omega) hs'
        rw [Nat.succ_mul] at this
        omega

/-! ## When the heap owns its range -/

/-- The frames `l` contain the whole block of `HEAP_FRAMES` frames above some `b`, and from the
first frame of `l` down to `b` they come in descending order. -/
def HeapBlock (l : List Nat) : Prop :=
  ∃ b k, (∀ i < HEAP_FRAMES, b + i * FRAME_SIZE ∈ l) ∧ l.head? = some (b + k * FRAME_SIZE) ∧
    (downFrom (b + k * FRAME_SIZE) (k + 1)).Sublist l

/-- The promise of `init_heap`: either it returns true, and every frame of the range it passed to
`ALLOCATOR.init` was returned by `allocate` during the call, or it returns false and never calls
`ALLOCATOR.init`. -/
def HeapOwned (s : Mem) : Prop :=
  ∃ o s', initHeap.run s = .ok (o, s') ∧
    ((o.result = true ∧ ∃ start, o.heap = (s.physicalToVirtual start).map (·, HEAP_SIZE) ∧
        ∀ i < HEAP_FRAMES, start + i * FRAME_SIZE ∈ o.allocated) ∨
      (o.result = false ∧ o.heap = none))

/-- With no free frame `init_heap` returns false. -/
theorem initHeap_nil {s : Mem} (h : FreeInv s []) : ∃ s', initHeap.run s = .ok (⟨false, none, []⟩, s') := by
  obtain ⟨s', hr, -⟩ := heapLoop_spec HEAP_FRAMES ⟨none, none, []⟩ h
  refine ⟨s', ?_⟩
  rw [initHeap, run_bind_ok hr]
  rfl

/-- With a free frame `init_heap` returns true, whatever the frames are. -/
theorem initHeap_cons {s : Mem} {a : Nat} {rest : List Nat} (h : FreeInv s (a :: rest)) :
    ∃ s' virt, s.physicalToVirtual (runTo a (rest.take (HEAP_FRAMES - 1))) = some virt ∧
      initHeap.run s = .ok (⟨true, some (virt, HEAP_SIZE), (a :: rest).take HEAP_FRAMES⟩, s') := by
  obtain ⟨offset, hoff⟩ := Option.isSome_iff_exists.1 h.hhdm
  obtain ⟨s', hr, hb⟩ := heapLoop_spec HEAP_FRAMES ⟨none, none, []⟩ h
  have hlow : (((a :: rest).take HEAP_FRAMES).foldl HeapRun.take ⟨none, none, []⟩).lowestFrame =
      some (runTo a (rest.take (HEAP_FRAMES - 1))) := by
    show ((a :: rest.take (HEAP_FRAMES - 1)).foldl HeapRun.take ⟨none, none, []⟩).lowestFrame = _
    rw [List.foldl_cons]
    exact foldl_take_run _ _ (h.below a List.mem_cons_self) fun f hf =>
      h.below f (List.mem_cons_of_mem _ (List.mem_of_mem_take hf))
  have hall := foldl_take_allocated ((a :: rest).take HEAP_FRAMES) ⟨none, none, []⟩
  refine ⟨s', _, Mem.physicalToVirtual_some hoff _, ?_⟩
  rw [initHeap, run_bind_ok hr, hlow, hall]
  simp only [get, getThe, MonadStateOf.get, List.nil_append]
  show StateT.run (match s'.physicalToVirtual (runTo a (rest.take (HEAP_FRAMES - 1))) with
    | none => _
    | some virt => _) s' = _
  rw [Mem.physicalToVirtual_some (hb.hhdm.trans hoff)]
  rfl

theorem heapOwned_cons_iff {s : Mem} {a : Nat} {rest : List Nat} (h : FreeInv s (a :: rest)) :
    HeapOwned s ↔ ∀ i < HEAP_FRAMES,
      runTo a (rest.take (HEAP_FRAMES - 1)) + i * FRAME_SIZE ∈ a :: rest.take (HEAP_FRAMES - 1) := by
  obtain ⟨s', virt, hv, hr⟩ := initHeap_cons h
  constructor
  · rintro ⟨o, s'', hr', ho⟩
    rw [hr] at hr'
    cases hr'
    rcases ho with ⟨-, start, hs, hall⟩ | ⟨hf, -⟩
    · obtain ⟨offset, hoff⟩ := Option.isSome_iff_exists.1 h.hhdm
      rw [Mem.physicalToVirtual_some hoff, Option.some.injEq] at hv
      simp only [Mem.physicalToVirtual_some hoff, Option.map_some, Option.some.injEq, Prod.mk.injEq] at hs
      have : start = runTo a (rest.take (HEAP_FRAMES - 1)) := by omega
      rw [← this]
      exact hall
    · cases hf
  · intro hall
    exact ⟨_, s', hr, .inl ⟨rfl, _, by rw [hv]; rfl, hall⟩⟩

/-- A list of at most `HEAP_FRAMES` frames that contains a block of that many is that block. -/
theorem mem_block {l : List Nat} {b : Nat} (hlen : l.length ≤ HEAP_FRAMES)
    (hb : ∀ i < HEAP_FRAMES, b + i * FRAME_SIZE ∈ l) {x : Nat} (hx : x ∈ l) : b ≤ x := by
  have hn : ((List.range HEAP_FRAMES).map fun i => b + i * FRAME_SIZE).Nodup := by
    refine List.nodup_range.map fun i j h => ?_
    simp only [FRAME_SIZE] at h
    omega
  have hsub : ((List.range HEAP_FRAMES).map fun i => b + i * FRAME_SIZE) ⊆ l := by
    intro y hy
    obtain ⟨i, hi, rfl⟩ := List.mem_map.1 hy
    exact hb i (List.mem_range.1 hi)
  have hp := (List.subperm_of_subset hn hsub).perm_of_length_le (by simpa using hlen)
  obtain ⟨i, -, rfl⟩ := List.mem_map.1 (hp.mem_iff.2 hx)
  exact Nat.le_add_right _ _

theorem block_iff {a : Nat} {t : List Nat} (hlen : (a :: t).length ≤ HEAP_FRAMES) :
    (∀ i < HEAP_FRAMES, runTo a t + i * FRAME_SIZE ∈ a :: t) ↔ HeapBlock (a :: t) := by
  constructor
  · intro h
    obtain ⟨k, hk, hs⟩ := runTo_sublist t a
    refine ⟨runTo a t, k, h, by rw [hk]; rfl, ?_⟩
    rw [hk, downFrom]
    exact hs.cons_cons a
  · rintro ⟨b, k, hb, ha, hs⟩
    have ha : a = b + k * FRAME_SIZE := by simpa using ha
    rw [← ha, downFrom] at hs
    have h1 := runTo_le t (by omega) (List.cons_sublist_cons.1 hs)
    have h2 : b ≤ runTo a t := mem_block hlen hb (runTo_mem t a)
    have : runTo a t = b := by omega
    rw [this]
    exact hb

/-- The heap owns the range it is given exactly when no frame is free, or the next `HEAP_FRAMES`
free frames contain a whole block and come down to its start in descending order. -/
theorem initHeap_owned_iff {s : Mem} {free : List Nat} (h : FreeInv s free) :
    HeapOwned s ↔ free = [] ∨ HeapBlock (free.take HEAP_FRAMES) := by
  cases free with
  | nil =>
    obtain ⟨s', hr⟩ := initHeap_nil h
    exact ⟨fun _ => .inl rfl, fun _ => ⟨_, s', hr, .inr ⟨rfl, rfl⟩⟩⟩
  | cons a rest =>
    rw [heapOwned_cons_iff h, block_iff (by simp [HEAP_FRAMES])]
    simp only [List.cons_ne_nil, false_or]
    exact Iff.rfl

/-- `initHeap_owned_iff` at the boot state of `smallMachine`. -/
theorem initHeap_owned_iff_smallMachine :
    HeapOwned smallMachine ↔ smallMachine.bootFrames.reverse = [] ∨
      HeapBlock (smallMachine.bootFrames.reverse.take HEAP_FRAMES) :=
  initHeap_owned_iff (freeInv_boot rfl smallMachine_bootOk rfl)

/-- With two frames in the machine `init_heap` returns true, and gives the heap 1 MiB from
`0x100000` on. -/
theorem initHeap_smallMachine_not_owned : ¬ HeapOwned smallMachine := by
  have h := freeInv_boot (s := smallMachine) rfl smallMachine_bootOk rfl
  rw [smallMachine_bootFrames] at h
  rw [heapOwned_cons_iff h]
  intro hall
  have := hall 2 (by decide)
  revert this
  decide

end Octagram.Memory

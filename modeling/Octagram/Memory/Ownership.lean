/-
Frame ownership over whole runs: from the boot state, after any sequence of `allocate_frame` and
`free_frame` calls with owners writing into the frames they hold in between, the free and the
allocated frames partition the usable frames and the list in memory is intact
(`frame_ownership_iff`). The invariant is `OwnerInv`: the free list of `FrameList` together with
what the owners hold. It needs that no USABLE entry comes near the last page below `2 ^ 64`: the
loop of `init` adds a frame to its address once more than it pushes frames, and that sum overflows
there (`topMachine_panics`).
-/
import Octagram.Memory.FrameList
import Mathlib.Data.Set.Insert
import Mathlib.Logic.Relation

namespace Octagram.Memory

open Octagram.Lib

/-- The memory state together with the frames that are currently allocated. -/
structure Owned where
  mem : Mem
  allocated : Set Nat

/-- One step: a call of the allocator, or an owner writing a byte of a frame it holds. -/
inductive OwnerStep : Owned → Owned → Prop
  | allocated {c : Owned} {f : Nat} {s : Mem} (h : allocateFrame.run c.mem = .ok (some f, s)) :
      OwnerStep c ⟨s, insert f c.allocated⟩
  | exhausted {c : Owned} {s : Mem} (h : allocateFrame.run c.mem = .ok (none, s)) : OwnerStep c ⟨s, c.allocated⟩
  | freed {c : Owned} {f : Nat} {s : Mem} (hf : f ∈ c.allocated) (h : (freeFrame f).run c.mem = .ok ((), s)) :
      OwnerStep c ⟨s, c.allocated \ {f}⟩
  | write {c : Owned} {f x : Nat} (b : UInt8) (hf : f ∈ c.allocated) (hx : InFrame f x) :
      OwnerStep c ⟨{ c.mem with ram := c.mem.ram.setByte x b }, c.allocated⟩

/-- The frames `free` and the allocated frames partition the usable frames of `s₀`, and the
allocator's state lists `free`. -/
structure OwnerInv (s₀ : Mem) (c : Owned) (free : List Nat) : Prop where
  inv : FreeInv c.mem free
  boot : s₀.SameBoot c.mem
  disjoint : ∀ f ∈ free, f ∉ c.allocated
  cover : ∀ f, f ∈ free ∨ f ∈ c.allocated ↔ s₀.UsableFrame f
  lazy : c.mem.frameAllocator.initialized = false → c.allocated = ∅

theorem ownerInv_boot {s₀ : Mem} (hh : s₀.hhdm.isSome) (hb : s₀.BootOk) (hn : s₀.frameAllocator = FrameAllocator.new) :
    OwnerInv s₀ ⟨s₀, ∅⟩ s₀.bootFrames.reverse := by
  refine ⟨freeInv_boot hh hb hn, Mem.SameBoot.refl s₀, fun f _ h => h, fun f => ?_, fun _ => rfl⟩
  rw [List.mem_reverse, Mem.mem_bootFrames hb]
  simp

theorem usableFrame_bounds {s₀ : Mem} (hb : s₀.BootOk) {f : Nat} (h : s₀.UsableFrame f) :
    4096 ∣ f ∧ f + 4096 < 2 ^ 64 := by
  obtain ⟨ha, e, he, hu, h1, h2⟩ := h
  have := (hb.fits e he hu).1
  exact ⟨ha, by omega⟩

/-- A frame that is allocated can be freed, and is then free. -/
theorem ownerInv_free {s₀ : Mem} (hb : s₀.BootOk) {c : Owned} {free : List Nat} (h : OwnerInv s₀ c free) {f : Nat}
    (hf : f ∈ c.allocated) :
    ∃ s', (freeFrame f).run c.mem = .ok ((), s') ∧ FreeInv s' (f :: free) ∧ OnlyFrames [f] c.mem s' ∧
      s'.frameAllocator.initialized = true := by
  have hini : c.mem.frameAllocator.initialized = true := by
    cases hi : c.mem.frameAllocator.initialized with
    | true => rfl
    | false => rw [h.lazy hi] at hf; cases hf
  obtain ⟨ha, hlt⟩ := usableFrame_bounds hb ((h.cover f).1 (.inr hf))
  exact free_spec h.inv hini ha hlt fun hm => h.disjoint f hm hf

theorem ownerInv_step {s₀ : Mem} (hb : s₀.BootOk) {c c' : Owned} {free : List Nat} (h : OwnerInv s₀ c free)
    (hs : OwnerStep c c') : ∃ free', OwnerInv s₀ c' free' := by
  cases hs with
  -- the head of the list goes to the owner
  | allocated hr =>
    cases free with
    | nil =>
      obtain ⟨s', hr', -⟩ := allocate_nil h.inv
      rw [allocateFrame, hr'] at hr
      cases hr
    | cons g rest =>
      obtain ⟨s', hr', hi, ho, -, hini⟩ := allocate_cons h.inv
      rw [allocateFrame, hr'] at hr
      cases hr
      have hn := List.nodup_cons.1 h.inv.nodup
      refine ⟨rest, hi, h.boot.trans ho.boot, fun f hf => ?_, fun f => ?_, fun hf => by rw [hini] at hf; cases hf⟩
      · rw [Set.mem_insert_iff]
        rintro (rfl | hm)
        · exact hn.1 hf
        · exact h.disjoint f (List.mem_cons_of_mem _ hf) hm
      · rw [← h.cover f, Set.mem_insert_iff, List.mem_cons]
        tauto
  | exhausted hr =>
    cases free with
    | nil =>
      obtain ⟨s', hr', hi, ho, hini⟩ := allocate_nil h.inv
      rw [allocateFrame, hr'] at hr
      cases hr
      exact ⟨[], hi, h.boot.trans ho.boot, h.disjoint, h.cover, fun hf => by rw [hini] at hf; cases hf⟩
    | cons g rest =>
      obtain ⟨s', hr', -⟩ := allocate_cons h.inv
      rw [allocateFrame, hr'] at hr
      cases hr
  | @freed f _ hf hr =>
    obtain ⟨s', hr', hi, ho, hini'⟩ := ownerInv_free hb h hf
    rw [hr'] at hr
    cases hr
    refine ⟨f :: free, hi, h.boot.trans ho.boot, fun g hg => ?_, fun g => ?_, fun hf => by rw [hini'] at hf; cases hf⟩
    · rw [Set.mem_sdiff, Set.mem_singleton_iff]
      rcases List.mem_cons.1 hg with rfl | hg
      · exact fun hc => hc.2 rfl
      · exact fun hc => h.disjoint g hg hc.1
    · rw [← h.cover g, Set.mem_sdiff, Set.mem_singleton_iff, List.mem_cons]
      by_cases hgf : g = f
      · subst hgf; simp [hf]
      · simp [hgf]
  -- a write into a held frame, which is no node of the list
  | @write f x b hf hx =>
    have ho : OnlyFrames [f] c.mem { c.mem with ram := c.mem.ram.setByte x b } :=
      ⟨⟨rfl, rfl, rfl⟩, fun y hy => Ram.setByte_outside _ _ fun e => hy f List.mem_cons_self (e ▸ hx)⟩
    refine ⟨free, h.inv.write_outside ho rfl fun g hg y hy k hk => ?_, h.boot.trans ho.boot, h.disjoint,
      h.cover, h.lazy⟩
    rw [List.mem_singleton.1 hk]
    have hne : g ≠ f := fun e => h.disjoint g hg (e ▸ hf)
    exact inFrame_disjoint (h.inv.aligned g hg) (usableFrame_bounds hb ((h.cover f).1 (.inr hf))).1 hne hy

/-- The invariant holds in every reachable state. -/
theorem ownerInv_run {s₀ : Mem} (hh : s₀.hhdm.isSome) (hb : s₀.BootOk) (hn : s₀.frameAllocator = FrameAllocator.new)
    {c : Owned} (hr : Relation.ReflTransGen OwnerStep ⟨s₀, ∅⟩ c) : ∃ free, OwnerInv s₀ c free := by
  induction hr with
  | refl => exact ⟨_, ownerInv_boot hh hb hn⟩
  | tail _ hs ih =>
    obtain ⟨free, hi⟩ := ih
    exact ownerInv_step hb hi hs

/-- What the next `allocate_frame` does in a state where `free` is free. -/
theorem ownerInv_allocate {s₀ : Mem} {c : Owned} {free : List Nat} (h : OwnerInv s₀ c free) :
    ∃ r s', allocateFrame.run c.mem = .ok (r, s') ∧
      (∀ f, r = some f → f ∉ c.allocated ∧ ∀ x, InFrame f x → s'.ram x = 0) ∧
      (r = none → ∀ f, s₀.UsableFrame f → f ∈ c.allocated) := by
  cases free with
  | nil =>
    obtain ⟨s', hr, -⟩ := allocate_nil h.inv
    refine ⟨none, s', hr, by simp, fun _ f hf => ?_⟩
    exact ((h.cover f).2 hf).resolve_left (by simp)
  | cons g rest =>
    obtain ⟨s', hr, -, -, hz, -⟩ := allocate_cons h.inv
    refine ⟨some g, s', hr, fun f hf => ?_, by simp⟩
    cases hf
    exact ⟨h.disjoint g List.mem_cons_self, hz⟩

/-- What holds of the frames in a state of a run from `s₀`: there is a list `free` of frames, each once, that
together with the allocated frames partitions the usable frames. Once the allocator is
initialised, `free` is exactly what the list in memory holds; before, nothing is allocated and
`free` is what the first `allocate` will put on it. The next `allocate` never panics, returns only
a free frame, zeroed, and returns `None` only when every usable frame is allocated; every
allocated frame can be given back. -/
def FramesOwned (s₀ : Mem) (c : Owned) : Prop :=
  ∃ free : List Nat,
    (c.mem.frameAllocator.initialized = true →
      Linked (nextFree c.mem.ram) c.mem.frameAllocator.head free) ∧
    (c.mem.frameAllocator.initialized = false →
      c.mem.frameAllocator.head = none ∧ c.allocated = ∅ ∧ free = s₀.bootFrames.reverse) ∧
    free.Nodup ∧
    (∀ f ∈ free, f ∉ c.allocated) ∧
    (∀ f, f ∈ free ∨ f ∈ c.allocated ↔ s₀.UsableFrame f) ∧
    (∃ r s', allocateFrame.run c.mem = .ok (r, s') ∧
      (∀ f, r = some f → f ∉ c.allocated ∧ ∀ x, InFrame f x → s'.ram x = 0) ∧
      (r = none → ∀ f, s₀.UsableFrame f → f ∈ c.allocated)) ∧
    (∀ f ∈ c.allocated, ∃ s', (freeFrame f).run c.mem = .ok ((), s'))

theorem ownerInv_framesOwned {s₀ : Mem} (hb : s₀.BootOk) {c : Owned} {free : List Nat} (h : OwnerInv s₀ c free) :
    FramesOwned s₀ c := by
  refine ⟨free, h.inv.listed, fun hi => ?_, h.inv.nodup, h.disjoint, h.cover, ownerInv_allocate h, fun f hf => ?_⟩
  · obtain ⟨h1, -, h3⟩ := h.inv.pending hi
    refine ⟨h1, h.lazy hi, ?_⟩
    unfold Mem.bootFrames at *
    rw [h3, h.boot.memoryMap]
  · obtain ⟨s', hs, -⟩ := ownerInv_free hb h hf
    exact ⟨s', hs⟩

/-! ## Entries that come near the last page -/

/-- Where the sums of the loop do not fit, the first `allocate` panics and no frame is ever handed out. -/
theorem allocateFrame_panics {s₀ : Mem} (hm : s₀.MapOk) (hn : s₀.frameAllocator = FrameAllocator.new)
    (hl : ¬ s₀.LoopFits) : ∃ e, allocateFrame.run s₀ = .error e := by
  unfold Mem.LoopFits at hl
  push Not at hl
  obtain ⟨e, he, hu, hlast⟩ := hl
  cases hmap : s₀.memoryMap with
  | none => rw [hmap] at he; cases he
  | some entries =>
    have hfits := (hm.fits e he hu).2
    have halign := alignUp_eq hfits
    rw [hmap, Option.getD_some] at he
    -- the loop of this entry fails in whatever state the entries before it leave
    obtain ⟨msg, hloop⟩ := forM_run_error (f := fun entry : MemoryMapEntry =>
        if entry.entryType = EntryType.usable then
          FrameAllocator.pushRegion (alignUp entry.base FRAME_SIZE) (entry.base + entry.length)
        else pure ()) he (fun s => by
      rw [if_pos hu]
      exact pushRegion_panics _ _ (by rw [halign]; omega) (by rw [halign]; omega)
        (MemoryMapEntry.not_loopFits hfits hlast) s) s₀
    have hini : s₀.frameAllocator.initialized = false := by rw [hn]; rfl
    refine ⟨msg, stateT_bind_error ?_ _⟩
    simp [FrameAllocator.ensureInit, FrameAllocator.init, hini, hmap, StateT.run_bind, hloop]

/-- Frame ownership in every reachable state, for every memory map whose USABLE entries are disjoint and fit: the
frames are owned in every run exactly where no USABLE entry comes near the last page below `2 ^ 64`. -/
theorem frame_ownership_iff {s₀ : Mem} (hh : s₀.hhdm.isSome) (hm : s₀.MapOk)
    (hn : s₀.frameAllocator = FrameAllocator.new) :
    (∀ c, Relation.ReflTransGen OwnerStep ⟨s₀, ∅⟩ c → FramesOwned s₀ c) ↔ s₀.LoopFits := by
  constructor
  · intro h
    by_contra hl
    obtain ⟨free, -, -, -, -, -, ⟨r, s', hr, -⟩, -⟩ := h ⟨s₀, ∅⟩ .refl
    obtain ⟨e, he⟩ := allocateFrame_panics hm hn hl
    rw [hr] at he
    cases he
  · intro hl c hr
    obtain ⟨free, h⟩ := ownerInv_run hh ⟨hm, hl⟩ hn hr
    exact ownerInv_framesOwned ⟨hm, hl⟩ h

/-- A machine with 8 KiB of usable memory from 1 MiB on, and a reserved page in front. -/
def smallMachine : Mem where
  ram := fun _ => 0
  hhdm := some 0xffff800000000000
  memoryMap := some [⟨0xff000, 0x1000, .reserved⟩, ⟨0x100000, 0x2000, .usable⟩]
  frameAllocator := FrameAllocator.new
  cr3 := 0

theorem smallMachine_mapOk : smallMachine.MapOk :=
  ⟨by simp [smallMachine], by simp [smallMachine], by simp [smallMachine]⟩

theorem smallMachine_bootOk : smallMachine.BootOk :=
  ⟨smallMachine_mapOk, smallMachine_mapOk.loopFits (by simp [smallMachine])⟩

theorem smallMachine_bootFrames : smallMachine.bootFrames = [0x100000, 0x101000] := by
  show [] ++ (regionFrames (alignUp 0x100000 FRAME_SIZE) 0x102000 ++ []) = _
  rw [List.nil_append, List.append_nil, regionFrames_two]

/-- A run of `smallMachine`: both frames are allocated, the owner of the second overwrites the bytes where its `next`
pointer lay, and the first is given back. -/
theorem smallMachine_run : ∃ c, Relation.ReflTransGen OwnerStep ⟨smallMachine, ∅⟩ c ∧ c.allocated = {0x101000} ∧
    c.mem.frameAllocator.initialized = true ∧ c.mem.ram 0x101000 = 0xab := by
  have h0 := freeInv_boot (s := smallMachine) rfl smallMachine_bootOk rfl
  rw [smallMachine_bootFrames] at h0
  obtain ⟨s1, hr1, h1, -, -, -⟩ := allocate_cons h0
  obtain ⟨s2, hr2, h2, -, -, hi2⟩ := allocate_cons h1
  have hin : InFrame 0x101000 0x101000 := by unfold InFrame; omega
  -- the owner's write, into a state whose list is empty
  have honly : OnlyFrames [0x101000] s2 { s2 with ram := s2.ram.setByte 0x101000 0xab } :=
    ⟨⟨rfl, rfl, rfl⟩, fun y hy => Ram.setByte_outside _ _ fun e => hy 0x101000 List.mem_cons_self (e ▸ hin)⟩
  have h3 : FreeInv { s2 with ram := s2.ram.setByte 0x101000 0xab } [] := h2.write_outside honly rfl (by simp)
  obtain ⟨s4, hr4, -, ho4, hi4⟩ := free_spec (f := 0x100000) h3 hi2 (by decide) (by decide) (by simp)
  have hrun := ((Relation.ReflTransGen.refl.tail (OwnerStep.allocated (c := ⟨smallMachine, ∅⟩) hr1)).tail
    (OwnerStep.allocated hr2)).tail (OwnerStep.write (f := 0x101000) 0xab (by simp) hin)
  refine ⟨_, hrun.tail (OwnerStep.freed (f := 0x100000) (by simp) hr4), ?_, hi4, ?_⟩
  · ext f
    simp only [Set.mem_sdiff, Set.mem_insert_iff, Set.mem_singleton_iff, Set.mem_empty_iff_false, or_false]
    omega
  · rw [ho4.ram]
    · exact Ram.setByte_same s2.ram 0x101000 0xab
    · intro f hf
      rw [List.mem_singleton.1 hf]
      unfold InFrame
      omega

/-- `frame_ownership_iff` at `smallMachine`, in the state that run comes to. -/
theorem frame_ownership_iff_smallMachine : ∃ c, Relation.ReflTransGen OwnerStep ⟨smallMachine, ∅⟩ c ∧
    c.allocated = {0x101000} ∧ c.mem.ram 0x101000 = 0xab ∧ FramesOwned smallMachine c := by
  obtain ⟨c, hr, ha, -, hb⟩ := smallMachine_run
  exact ⟨c, hr, ha, hb, (frame_ownership_iff rfl smallMachine_mapOk rfl).2 smallMachine_bootOk.loop c hr⟩

/-- A machine whose usable memory ends one byte below `2 ^ 64`, with physical memory mapped one to one. -/
def topMachine : Mem where
  ram := fun _ => 0
  hhdm := some 0
  memoryMap := some [⟨0xffffffffffffe000, 0x1fff, .usable⟩]
  frameAllocator := FrameAllocator.new
  cr3 := 0

/-- Its one usable frame is pushed; then the loop adds `FRAME_SIZE` to the base of the last page. -/
theorem topMachine_panics : topMachine.hhdm.isSome ∧ topMachine.MapOk ∧ topMachine.frameAllocator = FrameAllocator.new ∧
    topMachine.UsableFrame 0xffffffffffffe000 ∧
    allocateFrame.run topMachine = .error "attempt to add with overflow" ∧
    ¬ FramesOwned topMachine ⟨topMachine, ∅⟩ := by
  have halign : alignUp 0xffffffffffffe000 FRAME_SIZE = 0xffffffffffffe000 := by decide
  have hrun : allocateFrame.run topMachine = .error "attempt to add with overflow" := by
    have hpush : (FrameAllocator.pushFree 0xffffffffffffe000).run topMachine = .ok ((), (topMachine.writeWord
        0xffffffffffffe000 (BitVec.ofNat 64 NULL_MARK)).setHead (some 0xffffffffffffe000)) := rfl
    -- one frame is pushed; the sum for the next one is `2 ^ 64`
    have hlast : FrameAllocator.pushRegion (0xffffffffffffe000 + FRAME_SIZE) 0xffffffffffffffff =
        throw "attempt to add with overflow" := by
      unfold FrameAllocator.pushRegion
      exact if_neg (by decide)
    have hloop : (FrameAllocator.pushRegion 0xffffffffffffe000 0xffffffffffffffff).run topMachine =
        .error "attempt to add with overflow" := by
      unfold FrameAllocator.pushRegion
      rw [if_pos (by decide), if_pos (by decide), run_bind_ok hpush, hlast]
      rfl
    refine stateT_bind_error ?_ _
    show ((do
      FrameAllocator.pushRegion (alignUp 0xffffffffffffe000 FRAME_SIZE) 0xffffffffffffffff
      pure ()) >>= fun _ : PUnit => modify Mem.setInitialized : MemM Unit).run topMachine = _
    rw [halign]
    exact stateT_bind_error (stateT_bind_error hloop _) _
  refine ⟨rfl, ⟨by simp [topMachine], by simp [topMachine], by simp [topMachine]⟩, rfl, ?_, hrun, ?_⟩
  · exact ⟨by decide, _, List.mem_cons_self, rfl, by decide, by decide⟩
  · rintro ⟨free, -, -, -, -, -, ⟨r, s', hr, -⟩, -⟩
    rw [hrun] at hr
    cases hr

end Octagram.Memory

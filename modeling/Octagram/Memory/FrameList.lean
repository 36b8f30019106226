/-
The free list as a list of frames: the invariant `FreeInv`, and what `init`, `allocate` and `free`
do to the list and to memory. Before `init` has run, the list stands for the frames it will hold.
-/
import Octagram.Memory.FrameAllocator
import Octagram.Lib.Bits
import Octagram.Lib.Linked
import Mathlib.Data.List.Basic

namespace Octagram.Memory

open Octagram.Lib

/-! ## The frames of a memory map -/

theorem alignUp_eq {addr : Nat} (h : addr + 4095 < 2 ^ 64) : alignUp addr FRAME_SIZE = (addr + 4095) / 4096 * 4096 := by
  unfold alignUp FRAME_SIZE
  have := and_not_lowMask_toNat (BitVec.ofNat 64 (addr + 4096 - 1)) 12
  rw [BitVec.toNat_ofNat, Nat.mod_eq_of_lt (by omega)] at this
  exact this

/-- The frames the loop of `init` pushes for one region, in the order it pushes them. -/
def regionFrames (addr stop : Nat) : List Nat :=
  if addr + FRAME_SIZE ≤ stop then addr :: regionFrames (addr + FRAME_SIZE) stop else []
termination_by stop - addr
decreasing_by simp only [FRAME_SIZE] at *; omega

/-- The frames of one memory map entry, in the order `init` pushes them. -/
def MemoryMapEntry.frames (e : MemoryMapEntry) : List Nat :=
  if e.entryType = EntryType.usable then regionFrames (alignUp e.base FRAME_SIZE) (e.base + e.length) else []

/-- The frames `init` pushes, in this order. -/
def Mem.bootFrames (s : Mem) : List Nat := (s.memoryMap.getD []).flatMap MemoryMapEntry.frames

/-- A 4096-aligned frame that lies wholly inside a USABLE entry of the memory map. -/
def Mem.UsableFrame (s : Mem) (f : Nat) : Prop :=
  4096 ∣ f ∧ ∃ e ∈ s.memoryMap.getD [], e.entryType = EntryType.usable ∧ e.base ≤ f ∧ f + 4096 ≤ e.base + e.length

/-- The Limine promises the allocator relies on: USABLE entries are pairwise disjoint, and neither
the end of one, nor its rounded base, nor the window address of one of its frames overflows. -/
structure Mem.MapOk (s : Mem) : Prop where
  disjoint : (s.memoryMap.getD []).Pairwise fun a b => a.entryType = EntryType.usable →
    b.entryType = EntryType.usable →
      ∀ x, ¬ ((a.base ≤ x ∧ x < a.base + a.length) ∧ b.base ≤ x ∧ x < b.base + b.length)
  fits : ∀ e ∈ s.memoryMap.getD [], e.entryType = EntryType.usable →
    e.base + e.length < 2 ^ 64 ∧ e.base + 4095 < 2 ^ 64
  window : ∀ e ∈ s.memoryMap.getD [], e.entryType = EntryType.usable → e.base + e.length + s.hhdm.getD 0 ≤ 2 ^ 64

/-- A frame more fits below `2 ^ 64` behind every address that the loop of `init` compares with the end of an entry:
the rounded base of the entry, and what is left of it behind its last frame. -/
def MemoryMapEntry.LoopFits (e : MemoryMapEntry) : Prop := e.base ≤ 2 ^ 64 - 8192 ∧ e.base + e.length < 2 ^ 64 - 4096

/-- The sums of the loop of `init` do not overflow: no USABLE entry comes near the last page below `2 ^ 64`. -/
def Mem.LoopFits (s : Mem) : Prop := ∀ e ∈ s.memoryMap.getD [], e.entryType = EntryType.usable → e.LoopFits

/-- A memory map the first `allocate` puts on the list without a panic. -/
structure Mem.BootOk (s : Mem) : Prop extends s.MapOk where
  loop : s.LoopFits

/-- Where the HHDM offset is two pages or more, the window addresses leave the room the loop needs. -/
theorem Mem.MapOk.loopFits {s : Mem} (h : s.MapOk) (hw : 8192 ≤ s.hhdm.getD 0) : s.LoopFits := fun e he hu => by
  have := h.window e he hu
  unfold MemoryMapEntry.LoopFits
  omega

theorem mem_regionFrames (addr stop f : Nat) :
    f ∈ regionFrames addr stop ↔ addr ≤ f ∧ f + 4096 ≤ stop ∧ (f - addr) % 4096 = 0 := by
  fun_induction regionFrames addr stop with
  | case1 addr h ih =>
    rw [List.mem_cons, ih]
    simp only [FRAME_SIZE] at *
    omega
  | case2 addr h =>
    simp only [FRAME_SIZE, List.not_mem_nil, false_iff] at *
    omega

/-- Two frames at 1 MiB, the usable memory of the small machines. -/
theorem regionFrames_two : regionFrames (alignUp 0x100000 FRAME_SIZE) 0x102000 = [0x100000, 0x101000] := by
  have hbase : alignUp 0x100000 FRAME_SIZE = 0x100000 := by decide
  rw [hbase, regionFrames, if_pos (by decide), regionFrames, if_pos (by decide), regionFrames, if_neg (by decide)]
  rfl

theorem regionFrames_nodup (addr stop : Nat) : (regionFrames addr stop).Nodup := by
  fun_induction regionFrames addr stop with
  | case1 addr h ih =>
    refine List.nodup_cons.2 ⟨fun hm => ?_, ih⟩
    rw [mem_regionFrames] at hm
    simp only [FRAME_SIZE] at hm
    omega
  | case2 addr h => exact List.nodup_nil

theorem MemoryMapEntry.mem_frames {e : MemoryMapEntry} (h : e.entryType = EntryType.usable → e.base + 4095 < 2 ^ 64)
    (f : Nat) :
    f ∈ e.frames ↔ e.entryType = EntryType.usable ∧ 4096 ∣ f ∧ e.base ≤ f ∧ f + 4096 ≤ e.base + e.length := by
  unfold MemoryMapEntry.frames
  by_cases hu : e.entryType = EntryType.usable
  · rw [if_pos hu, mem_regionFrames, alignUp_eq (h hu)]
    simp only [hu, true_and]
    omega
  · rw [if_neg hu]; simp [hu]

theorem Mem.mem_bootFrames {s : Mem} (h : s.BootOk) (f : Nat) : f ∈ s.bootFrames ↔ s.UsableFrame f := by
  unfold Mem.bootFrames Mem.UsableFrame
  rw [List.mem_flatMap]
  constructor
  · rintro ⟨e, he, hf⟩
    obtain ⟨h1, h2, h3, h4⟩ := (MemoryMapEntry.mem_frames (fun u => (h.fits e he u).2) f).1 hf
    exact ⟨h2, e, he, h1, h3, h4⟩
  · rintro ⟨h2, e, he, h1, h3, h4⟩
    exact ⟨e, he, (MemoryMapEntry.mem_frames (fun u => (h.fits e he u).2) f).2 ⟨h1, h2, h3, h4⟩⟩

theorem Mem.bootFrames_nodup {s : Mem} (h : s.BootOk) : s.bootFrames.Nodup := by
  unfold Mem.bootFrames
  rw [List.nodup_flatMap]
  constructor
  · intro e he
    unfold MemoryMapEntry.frames
    split
    · exact regionFrames_nodup _ _
    · exact List.nodup_nil
  · refine List.Pairwise.imp_of_mem ?_ h.disjoint
    intro a b ha hb hab f hfa hfb
    obtain ⟨ua, -, a1, a2⟩ := (MemoryMapEntry.mem_frames (fun u => (h.fits a ha u).2) f).1 hfa
    obtain ⟨ub, -, b1, b2⟩ := (MemoryMapEntry.mem_frames (fun u => (h.fits b hb u).2) f).1 hfb
    exact hab ua ub f ⟨⟨a1, by omega⟩, b1, by omega⟩

/-! ## The list in memory -/

/-- The `next` pointer stored in a free frame. -/
def nextFree (ram : Ram) (f : Nat) : Option Nat :=
  if (ram.word f).toNat = NULL_MARK then none else some (ram.word f).toNat

/-- The address `x` lies in the frame `f`. -/
def InFrame (f x : Nat) : Prop := f ≤ x ∧ x < f + 4096

/-- The free list in memory is `free`: walking the `next` pointers stored in the frames themselves
visits exactly these frames. -/
structure Listed (s : Mem) (free : List Nat) : Prop where
  hhdm : s.hhdm.isSome
  aligned : ∀ f ∈ free, 4096 ∣ f
  below : ∀ f ∈ free, f + 4096 < 2 ^ 64
  linked : Linked (nextFree s.ram) s.frameAllocator.head free

/-- The two states differ in the allocator and inside the frames `fs` only. -/
structure OnlyFrames (fs : List Nat) (s s' : Mem) : Prop where
  boot : s.SameBoot s'
  ram : ∀ x, (∀ f ∈ fs, ¬ InFrame f x) → s'.ram x = s.ram x

theorem OnlyFrames.refl (fs : List Nat) (s : Mem) : OnlyFrames fs s s := ⟨Mem.SameBoot.refl s, fun _ _ => rfl⟩

theorem OnlyFrames.trans {fs : List Nat} {s s' s'' : Mem} (h : OnlyFrames fs s s') (h' : OnlyFrames fs s' s'') :
    OnlyFrames fs s s'' :=
  ⟨h.boot.trans h'.boot, fun x hx => (h'.ram x hx).trans (h.ram x hx)⟩

theorem OnlyFrames.mono {fs gs : List Nat} {s s' : Mem} (h : OnlyFrames fs s s') (hs : ∀ f ∈ fs, f ∈ gs) :
    OnlyFrames gs s s' :=
  ⟨h.boot, fun x hx => h.ram x fun f hf => hx f (hs f hf)⟩

theorem inFrame_disjoint {f g x : Nat} (hf : 4096 ∣ f) (hg : 4096 ∣ g) (hne : f ≠ g) (hx : InFrame f x) :
    ¬ InFrame g x := by
  unfold InFrame at *; omega

/-- A node outside the changed frames keeps its `next` pointer. -/
theorem nextFree_congr {ram ram' : Ram} {f : Nat} (h : ∀ x, InFrame f x → ram' x = ram x) :
    nextFree ram' f = nextFree ram f := by
  unfold nextFree
  rw [Ram.word_congr fun x h1 h2 => h x ⟨h1, by omega⟩]

theorem nextFree_setWord (ram : Ram) (f : Nat) (h : Option Nat) (hb : ∀ g, h = some g → g + 4096 < 2 ^ 64) :
    nextFree (ram.setWord f (BitVec.ofNat 64 (h.getD NULL_MARK))) f = h := by
  unfold nextFree
  rw [Ram.word_setWord, BitVec.toNat_ofNat]
  cases h with
  | none => rfl
  | some g =>
    have := hb g rfl
    rw [Option.getD_some, Nat.mod_eq_of_lt (by omega), if_neg (by unfold NULL_MARK; omega)]

theorem Listed.head_below {s : Mem} {free : List Nat} (h : Listed s free) (g : Nat)
    (hg : s.frameAllocator.head = some g) : g ∈ free := by
  have hl := h.linked
  cases free with
  | nil => rw [linked_nil] at hl; rw [hl] at hg; cases hg
  | cons a l =>
    rw [linked_cons] at hl
    rw [hl.1] at hg
    cases hg
    exact List.mem_cons_self

/-- `push_free` of a frame that is not on the list puts it in front. -/
theorem pushFree_spec {s : Mem} {free : List Nat} (h : Listed s free) {f : Nat} (ha : 4096 ∣ f)
    (hb : f + 4096 < 2 ^ 64) (hf : f ∉ free) :
    ∃ s', (FrameAllocator.pushFree f).run s = .ok ((), s') ∧ Listed s' (f :: free) ∧ OnlyFrames [f] s s' ∧
      s'.frameAllocator.initialized = s.frameAllocator.initialized := by
  obtain ⟨offset, ho⟩ := Option.isSome_iff_exists.1 h.hhdm
  have hrun : (FrameAllocator.pushFree f).run s = .ok ((), (s.writeWord (f + offset)
      (BitVec.ofNat 64 (s.frameAllocator.head.getD NULL_MARK))).setHead (some f)) := by
    simp [FrameAllocator.pushFree, Mem.physicalToVirtual_some ho]
    rfl
  have hram : ((s.writeWord (f + offset)
      (BitVec.ofNat 64 (s.frameAllocator.head.getD NULL_MARK))).setHead (some f)).ram =
      s.ram.setWord f (BitVec.ofNat 64 (s.frameAllocator.head.getD NULL_MARK)) := by
    show s.ram.setWord (s.behind (f + offset)) _ = _
    rw [Mem.behind_window ho]
  refine ⟨_, hrun, ⟨h.hhdm, ?_, ?_, ?_⟩, ⟨⟨rfl, rfl, rfl⟩, fun x hx => ?_⟩, rfl⟩
  · exact List.forall_mem_cons.2 ⟨ha, h.aligned⟩
  · exact List.forall_mem_cons.2 ⟨hb, h.below⟩
  · refine ⟨rfl, ?_⟩
    -- the other nodes keep their pointers, as the write is inside of the new one
    rw [hram, nextFree_setWord s.ram f _ fun g hg => h.below g (h.head_below g hg)]
    refine h.linked.congr fun g hg => nextFree_congr fun x hx => Ram.setWord_outside _ _ ?_
    have : f ≠ g := fun e => hf (e ▸ hg)
    have := h.aligned g hg
    unfold InFrame at hx
    omega
  · rw [hram, Ram.setWord_outside]
    have := hx f List.mem_cons_self
    unfold InFrame at this
    omega

/-- Pushing frames one after the other, none of them on the list, puts them in front in reverse. -/
theorem pushAll_spec : ∀ (fs : List Nat) {s : Mem} {free : List Nat}, Listed s free → (∀ f ∈ fs, 4096 ∣ f) →
    (∀ f ∈ fs, f + 4096 < 2 ^ 64) → (fs.reverse ++ free).Nodup →
    ∃ s', (forM fs FrameAllocator.pushFree).run s = .ok ((), s') ∧ Listed s' (fs.reverse ++ free) ∧
      OnlyFrames fs s s' ∧ s'.frameAllocator.initialized = s.frameAllocator.initialized
  | [], s, free, h, _, _, _ => ⟨s, rfl, h, OnlyFrames.refl _ s, rfl⟩
  | f :: fs, s, free, h, ha, hb, hn => by
    rw [List.reverse_cons, List.append_assoc, List.singleton_append] at hn ⊢
    have hf : f ∉ free := (List.nodup_cons.1 (List.nodup_append.1 hn).2.1).1
    obtain ⟨s1, hr1, hl1, ho1, hi1⟩ := pushFree_spec h (ha f List.mem_cons_self) (hb f List.mem_cons_self) hf
    obtain ⟨s2, hr2, hl2, ho2, hi2⟩ := pushAll_spec fs hl1 (fun g hg => ha g (List.mem_cons_of_mem _ hg))
      (fun g hg => hb g (List.mem_cons_of_mem _ hg)) hn
    refine ⟨s2, ?_, hl2, ?_, hi2.trans hi1⟩
    · rw [List.forM_cons, run_bind_ok hr1]
      exact hr2
    · exact (ho1.mono (by simp)).trans (ho2.mono fun g hg => List.mem_cons_of_mem _ hg)

/-! ## Building the list -/

/-- Where its sums fit, the loop pushes the frames of the region one after the other. -/
theorem pushRegion_eq (addr stop : Nat) (haddr : addr + FRAME_SIZE < 2 ^ 64) (hstop : stop < 2 ^ 64 - FRAME_SIZE) :
    FrameAllocator.pushRegion addr stop = forM (regionFrames addr stop) FrameAllocator.pushFree := by
  fun_induction regionFrames addr stop with
  | case1 addr h ih =>
    -- the next address is at most the end of the region
    have hnext : addr + FRAME_SIZE + FRAME_SIZE < 2 ^ 64 := by omega
    unfold FrameAllocator.pushRegion
    rw [if_pos haddr, if_pos h, List.forM_cons, ih hnext]
  | case2 addr h =>
    unfold FrameAllocator.pushRegion
    rw [if_pos haddr, if_neg h]
    rfl

/-- The rounded base of an entry near the last page below `2 ^ 64` is that page, or the loop comes to that page. -/
theorem MemoryMapEntry.not_loopFits {e : MemoryMapEntry} (hb : e.base + 4095 < 2 ^ 64) (h : ¬ e.LoopFits) :
    alignUp e.base FRAME_SIZE = 2 ^ 64 - 4096 ∨ 2 ^ 64 - 4096 ≤ e.base + e.length := by
  rw [alignUp_eq hb]
  unfold MemoryMapEntry.LoopFits at h
  omega

/-- From an address whose frames lead to the last page below `2 ^ 64`, the loop does not return. -/
theorem pushRegion_panics (addr stop : Nat) (ha : 4096 ∣ addr) (hlast : addr ≤ 2 ^ 64 - 4096)
    (h : addr = 2 ^ 64 - 4096 ∨ 2 ^ 64 - 4096 ≤ stop) (s : Mem) :
    ∃ e, (FrameAllocator.pushRegion addr stop).run s = .error e := by
  fun_induction regionFrames addr stop generalizing s with
  | case1 addr hin ih =>
    unfold FrameAllocator.pushRegion
    by_cases hfit : addr + FRAME_SIZE < 2 ^ 64
    · rw [if_pos hfit, if_pos hin]
      cases hp : (FrameAllocator.pushFree addr).run s with
      | error e => exact ⟨e, stateT_bind_error hp _⟩
      | ok p =>
        rw [run_bind_ok hp]
        simp only [FRAME_SIZE] at *
        exact ih (by omega) (by omega) (.inr (by omega)) p.2
    · rw [if_neg hfit]
      exact ⟨_, rfl⟩
  | case2 addr hin =>
    have hend : ¬ addr + FRAME_SIZE < 2 ^ 64 := by
      unfold FRAME_SIZE at *
      omega
    unfold FrameAllocator.pushRegion
    rw [if_neg hend]
    exact ⟨_, rfl⟩

/-- The loop of `init` over the entries pushes their frames one after the other. -/
theorem pushEntries_eq : ∀ entries : List MemoryMapEntry,
    (∀ e ∈ entries, e.entryType = EntryType.usable → e.LoopFits) →
    (forM entries fun entry =>
      if entry.entryType = EntryType.usable then
        FrameAllocator.pushRegion (alignUp entry.base FRAME_SIZE) (entry.base + entry.length)
      else
        pure ()) = forM (entries.flatMap MemoryMapEntry.frames) FrameAllocator.pushFree
  | [], _ => rfl
  | e :: entries, h => by
    rw [List.forM_cons, List.flatMap_cons, List.forM_append,
      pushEntries_eq entries fun e' he => h e' (List.mem_cons_of_mem e he)]
    congr 1
    unfold MemoryMapEntry.frames
    split
    next hu =>
      obtain ⟨hbase, hend⟩ := h e List.mem_cons_self hu
      refine pushRegion_eq _ _ ?_ hend
      rw [alignUp_eq (by omega)]
      unfold FRAME_SIZE
      omega
    · rfl

/-- The invariant of the allocator: before `init` has run the list is empty and `free` is what
`init` will put on it; from then on `free` is the list in memory. -/
structure FreeInv (s : Mem) (free : List Nat) : Prop where
  hhdm : s.hhdm.isSome
  aligned : ∀ f ∈ free, 4096 ∣ f
  below : ∀ f ∈ free, f + 4096 < 2 ^ 64
  listed : s.frameAllocator.initialized = true → Linked (nextFree s.ram) s.frameAllocator.head free
  pending : s.frameAllocator.initialized = false →
    s.frameAllocator.head = none ∧ s.BootOk ∧ free = s.bootFrames.reverse

theorem FreeInv.nodup {s : Mem} {free : List Nat} (h : FreeInv s free) : free.Nodup := by
  cases hi : s.frameAllocator.initialized with
  | true => exact (h.listed hi).nodup
  | false =>
    obtain ⟨-, hb, rfl⟩ := h.pending hi
    exact List.nodup_reverse.2 (Mem.bootFrames_nodup hb)

/-- The boot state satisfies the invariant, with the usable frames pending. -/
theorem freeInv_boot {s : Mem} (hh : s.hhdm.isSome) (hb : s.BootOk) (hf : s.frameAllocator = FrameAllocator.new) :
    FreeInv s s.bootFrames.reverse := by
  have hmem : ∀ f ∈ s.bootFrames.reverse, s.UsableFrame f := fun f hm =>
    (Mem.mem_bootFrames hb f).1 (List.mem_reverse.1 hm)
  refine ⟨hh, fun f hm => (hmem f hm).1, fun f hm => ?_, fun hi => ?_, fun _ => ⟨by rw [hf]; rfl, hb, rfl⟩⟩
  · obtain ⟨ha, e, he, hu, h1, h2⟩ := hmem f hm
    have := (hb.fits e he hu).1
    omega
  · rw [hf] at hi; cases hi

/-- After the lazy initialisation the list in memory is `free`; only free frames were written. -/
theorem ensureInit_spec {s : Mem} {free : List Nat} (h : FreeInv s free) :
    ∃ s', FrameAllocator.ensureInit.run s = .ok ((), s') ∧ Listed s' free ∧ OnlyFrames free s s' ∧
      s'.frameAllocator.initialized = true := by
  cases hi : s.frameAllocator.initialized with
  | true =>
    refine ⟨s, ?_, ⟨h.hhdm, h.aligned, h.below, h.listed hi⟩, OnlyFrames.refl _ s, hi⟩
    simp [FrameAllocator.ensureInit, hi]
    rfl
  -- the first call: every frame of the memory map is pushed, onto an empty list
  | false =>
    obtain ⟨hhead, hb, rfl⟩ := h.pending hi
    have hl : Listed s [] := ⟨h.hhdm, by simp, by simp, hhead⟩
    obtain ⟨s', hr, hl', ho, -⟩ := pushAll_spec s.bootFrames hl (fun f hf => h.aligned f (List.mem_reverse.2 hf))
      (fun f hf => h.below f (List.mem_reverse.2 hf)) (by rw [List.append_nil]; exact h.nodup)
    rw [List.append_nil] at hl'
    refine ⟨s'.setInitialized, ?_, ⟨hl'.hhdm, hl'.aligned, hl'.below, hl'.linked⟩,
      ⟨⟨ho.boot.hhdm, ho.boot.memoryMap, ho.boot.cr3⟩,
        fun x hx => ho.ram x fun f hf => hx f (List.mem_reverse.2 hf)⟩, rfl⟩
    cases hm : s.memoryMap with
    | none =>
      have : s.bootFrames = [] := by unfold Mem.bootFrames; rw [hm]; rfl
      rw [this] at hr
      cases hr
      simp [FrameAllocator.ensureInit, FrameAllocator.init, hi, hm]
      rfl
    | some entries =>
      have hfr : s.bootFrames = entries.flatMap MemoryMapEntry.frames := by unfold Mem.bootFrames; rw [hm]; rfl
      have hloop := hb.loop
      unfold Mem.LoopFits at hloop
      rw [hm, Option.getD_some] at hloop
      rw [hfr, ← pushEntries_eq entries hloop] at hr
      simp [FrameAllocator.ensureInit, FrameAllocator.init, hi, hm, StateT.run_bind, hr]

/-! ## The calls -/

theorem Listed.freeInv {s : Mem} {free : List Nat} (h : Listed s free) (hi : s.frameAllocator.initialized = true) :
    FreeInv s free :=
  ⟨h.hhdm, h.aligned, h.below, fun _ => h.linked, fun hf => by rw [hi] at hf; cases hf⟩

/-- Writes outside the free frames do not touch the free list. -/
theorem FreeInv.write_outside {s s' : Mem} {free fs : List Nat} (h : FreeInv s free) (ho : OnlyFrames fs s s')
    (ha : s'.frameAllocator = s.frameAllocator) (hd : ∀ f ∈ free, ∀ x, InFrame f x → ∀ g ∈ fs, ¬ InFrame g x) :
    FreeInv s' free := by
  refine ⟨by rw [ho.boot.hhdm]; exact h.hhdm, h.aligned, h.below, fun hi => ?_, fun hi => ?_⟩
  · rw [ha] at hi ⊢
    exact (h.listed hi).congr fun f hf => nextFree_congr fun x hx => ho.ram x (hd f hf x hx)
  · rw [ha] at hi ⊢
    obtain ⟨h1, h2, h3⟩ := h.pending hi
    refine ⟨h1, ⟨⟨?_, ?_, ?_⟩, ?_⟩, ?_⟩
    · rw [ho.boot.memoryMap]; exact h2.disjoint
    · rw [ho.boot.memoryMap]; exact h2.fits
    · rw [ho.boot.memoryMap, ho.boot.hhdm]; exact h2.window
    · unfold Mem.LoopFits; rw [ho.boot.memoryMap]; exact h2.loop
    · unfold Mem.bootFrames at *; rw [ho.boot.memoryMap]; exact h3

/-- `allocate` with no free frame returns `None`. -/
theorem allocate_nil {s : Mem} (h : FreeInv s []) :
    ∃ s', FrameAllocator.allocate.run s = .ok (none, s') ∧ FreeInv s' [] ∧ OnlyFrames [] s s' ∧
      s'.frameAllocator.initialized = true := by
  obtain ⟨s1, hr, hl, ho, hi⟩ := ensureInit_spec h
  refine ⟨s1, ?_, hl.freeInv hi, ho, hi⟩
  have hhead : s1.frameAllocator.head = none := hl.linked
  unfold FrameAllocator.allocate
  rw [run_bind_ok hr]
  simp [hhead]
  rfl

/-- `allocate` takes the first free frame and zeroes it. -/
theorem allocate_cons {s : Mem} {f : Nat} {rest : List Nat} (h : FreeInv s (f :: rest)) :
    ∃ s', FrameAllocator.allocate.run s = .ok (some f, s') ∧ FreeInv s' rest ∧ OnlyFrames (f :: rest) s s' ∧
      (∀ x, InFrame f x → s'.ram x = 0) ∧ s'.frameAllocator.initialized = true := by
  obtain ⟨s1, hr, hl, ho, hi⟩ := ensureInit_spec h
  obtain ⟨offset, hoff⟩ := Option.isSome_iff_exists.1 hl.hhdm
  obtain ⟨hhead, hrest⟩ := hl.linked
  -- the state after taking the frame off the list and zeroing it
  refine ⟨(s1.setHead (nextFree s1.ram f)).zeroBytes (f + offset) FRAME_SIZE, ?_, ?_, ?_, fun x hx => ?_, hi⟩
  · unfold FrameAllocator.allocate
    rw [run_bind_ok hr]
    simp [hhead, Mem.physicalToVirtual_some hoff, Mem.readWord, Mem.behind_window hoff, nextFree]
    rfl
  · have hram : ((s1.setHead (nextFree s1.ram f)).zeroBytes (f + offset) FRAME_SIZE).ram =
      s1.ram.fill f FRAME_SIZE 0 := by
      show s1.ram.fill (s1.behind (f + offset)) _ _ = _
      rw [Mem.behind_window hoff]
    refine Listed.freeInv ⟨hl.hhdm, fun g hg => hl.aligned g (List.mem_cons_of_mem _ hg),
      fun g hg => hl.below g (List.mem_cons_of_mem _ hg), ?_⟩ hi
    show Linked (nextFree _) (nextFree s1.ram f) rest
    rw [hram]
    refine hrest.congr fun g hg => nextFree_congr fun x hx => Ram.fill_outside _ _ ?_
    have hne : f ≠ g := fun e => (List.nodup_cons.1 hl.linked.nodup).1 (e ▸ hg)
    have := hl.aligned f List.mem_cons_self
    have := hl.aligned g (List.mem_cons_of_mem _ hg)
    simp only [InFrame, FRAME_SIZE] at *
    omega
  · refine ho.trans ⟨⟨rfl, rfl, rfl⟩, fun x hx => ?_⟩
    show s1.ram.fill (s1.behind (f + offset)) _ _ x = _
    rw [Mem.behind_window hoff]
    refine Ram.fill_outside _ _ ?_
    have := hx f List.mem_cons_self
    simp only [InFrame, FRAME_SIZE] at *
    omega
  · show s1.ram.fill (s1.behind (f + offset)) _ _ x = _
    rw [Mem.behind_window hoff]
    exact Ram.fill_inside _ _ hx.1 hx.2

/-- `free` of a frame that is not free puts it in front. -/
theorem free_spec {s : Mem} {free : List Nat} (h : FreeInv s free) (hi : s.frameAllocator.initialized = true) {f : Nat}
    (ha : 4096 ∣ f) (hb : f + 4096 < 2 ^ 64) (hf : f ∉ free) :
    ∃ s', (FrameAllocator.free f).run s = .ok ((), s') ∧ FreeInv s' (f :: free) ∧ OnlyFrames [f] s s' ∧
      s'.frameAllocator.initialized = true := by
  obtain ⟨offset, hoff⟩ := Option.isSome_iff_exists.1 h.hhdm
  have ho : OnlyFrames [f] s (s.zeroBytes (f + offset) FRAME_SIZE) := by
    refine ⟨⟨rfl, rfl, rfl⟩, fun x hx => ?_⟩
    show s.ram.fill (s.behind (f + offset)) _ _ x = _
    rw [Mem.behind_window hoff]
    refine Ram.fill_outside _ _ ?_
    have := hx f List.mem_cons_self
    simp only [InFrame, FRAME_SIZE] at *
    omega
  have hz : FreeInv (s.zeroBytes (f + offset) FRAME_SIZE) free := by
    refine h.write_outside ho rfl fun g hg x hx k hk => ?_
    rw [List.mem_singleton.1 hk]
    exact inFrame_disjoint (h.aligned g hg) ha (fun e => hf (e ▸ hg)) hx
  obtain ⟨s2, hr, hl, ho2, hi2⟩ := pushFree_spec ⟨hz.hhdm, hz.aligned, hz.below, hz.listed hi⟩ ha hb hf
  have hi2' : s2.frameAllocator.initialized = true := hi2.trans hi
  refine ⟨s2, ?_, hl.freeInv hi2', ho.trans ho2, hi2'⟩
  simp [FrameAllocator.free, Mem.physicalToVirtual_some hoff, hr]

end Octagram.Memory

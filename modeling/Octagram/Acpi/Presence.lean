/-
Which pages are present while the walk runs: those that were at the start, and the page of each
address that `map_page` was called for. The invariant is `World.At`; one call of `map_page` keeps it
as long as no call runs out of frames (`World.Able`), whatever the call returns. A run then depends
on no more than what the walk asks for: it comes to its end if and only if every read that it asks
for meets a page that is present by then (`run_of_served`, `served_of_run`), so that what `Walk`
proves about lists of operations holds of runs.
-/
import Octagram.Acpi.Tables
import Octagram.Memory.MapRange

namespace Octagram.Acpi

open Octagram.Lib Octagram.Memory

/-- The page of `a` was present in `s`, or is that of one of the addresses. -/
def Reaches (s : Mem) (vs : List (BitVec 64)) (a : BitVec 64) : Prop :=
  present s a = true ∨ canonical a = true ∧ ∃ v ∈ vs, Mem.pageNumber v = Mem.pageNumber a

theorem Reaches.mono {s : Mem} {vs ws : List (BitVec 64)} {a : BitVec 64} (h : Reaches s vs a)
    (hsub : ∀ v ∈ vs, v ∈ ws) : Reaches s ws a := by
  rcases h with h | ⟨hc, v, hv, hp⟩
  · exact .inl h
  · exact .inr ⟨hc, v, hsub v hv, hp⟩

section Present

variable {s : Mem} {free : List Nat} {a v : BitVec 64}

theorem present_iff (h : PageTables s free) (a : BitVec 64) :
    present s a = true ↔ canonical a = true ∧ (s.HugeOnPath a ∨ s.abs a ≠ none) := by
  unfold present
  rw [Bool.and_eq_true]
  apply and_congr_right
  intro _
  obtain ⟨hh, hr⟩ | ⟨hh, q, fl, habs, hr⟩ | ⟨hh, habs, hr⟩ := translate_run h a
  · simp [hr, hh]
  · simp [hr, habs]
  · simp [hr, hh, habs]

theorem hugeOnPath_of_pageNumber (s : Mem) (h : Mem.pageNumber v = Mem.pageNumber a) :
    s.HugeOnPath v ↔ s.HugeOnPath a := by
  obtain ⟨hp, -⟩ := (Mem.pageNumber_eq_iff v a).1 h
  unfold Mem.HugeOnPath
  rw [hp]

/-- Where the page of `v` is present already, nothing is added. -/
theorem present_add (h : PageTables s free) (hv : s.HugeOnPath v ∨ s.abs v ≠ none) (a : BitVec 64) :
    present s a = true ↔ present s a = true ∨ canonical a = true ∧ Mem.pageNumber v = Mem.pageNumber a := by
  refine ⟨.inl, ?_⟩
  rintro (ha | ⟨hc, hp⟩)
  · exact ha
  · refine (present_iff h a).2 ⟨hc, ?_⟩
    rw [← hugeOnPath_of_pageNumber s hp, ← abs_of_pageNumber s hp]
    exact hv

/-- A call of `map_page` that does not run out of frames makes the page of its address present, and no other. -/
theorem mapPage_present (h : PageTables s free) (v p fl : BitVec 64) :
    ∃ r s' free', (mapPage v p fl).exec s = .ok (r, s') ∧ PageTables s' free' ∧ (r ≠ .error .outOfFrames → ∀ a,
      present s' a = true ↔ present s a = true ∨ canonical a = true ∧ Mem.pageNumber v = Mem.pageNumber a) := by
  obtain ⟨r, s', free', hx, h', hr⟩ := mapPage_run h v p fl
  refine ⟨r, s', free', hx, h', fun hne a => ?_⟩
  cases hr with
  | huge hh => exact present_add h (.inl hh) a
  | already _ ha => exact present_add h (.inr ha) a
  | exhausted => exact absurd rfl hne
  | @mapped s₁ t hh ha _ hm h₁ hg ht =>
    obtain ⟨-, habs, hhuge⟩ :=
      setLeaf_abs h₁ ht (w := pageBase p ||| flags.PRESENT ||| fl) fun hn => absurd (present_or _ _) hn
    rw [present_iff h', present_iff h, hhuge, hm.huge, habs, hm.abs, leafOf_present (present_or _ _)]
    by_cases hp : Mem.pageNumber a = Mem.pageNumber v
    · rw [if_pos hp]
      constructor
      · exact fun hc => .inr ⟨hc.1, hp.symm⟩
      · rintro (hc | hc) <;> exact ⟨hc.1, .inr (Option.some_ne_none _)⟩
    · simp [hp, Ne.symm hp]

end Present

/-! ## What a run depends on -/

/-- The answers of the surroundings. -/
def answer (firmware : BitVec 64 → Byte) : (o : Op) → Option (Ret o)
  | .read a => some (firmware a)
  | .mapPage .. => some ()
  | .println _ => some ()
  | .overflow => none

/-- Every read in a list of operations meets `Q`, given the addresses that were mapped before, and no subtraction
overflows. -/
def Served (Q : List (BitVec 64) → BitVec 64 → Prop) : List (BitVec 64) → List Op → Prop
  | _, [] => True
  | vs, .read a :: os => Q vs a ∧ Served Q vs os
  | vs, .mapPage v _ _ :: os => Served Q (vs ++ [v]) os
  | vs, .println _ :: os => Served Q vs os
  | _, .overflow :: _ => False

/-- The addresses that the operations map. -/
def mapped : List Op → List (BitVec 64)
  | [] => []
  | .mapPage v _ _ :: os => v :: mapped os
  | .read _ :: os => mapped os
  | .println _ :: os => mapped os
  | .overflow :: os => mapped os

/-- Their messages. -/
def messages : List Op → List Line
  | [] => []
  | .println line :: os => line :: messages os
  | .read _ :: os => messages os
  | .mapPage .. :: os => messages os
  | .overflow :: os => messages os

/-- The bytes that they read. -/
def bytesRead : List Op → List (BitVec 64)
  | [] => []
  | .read a :: os => a :: bytesRead os
  | .mapPage .. :: os => bytesRead os
  | .println _ :: os => bytesRead os
  | .overflow :: os => bytesRead os

/-- No call of `map_page` ran out of frames. -/
def World.Able (w : World) : Prop := ∀ r ∈ w.results, r ≠ .error .outOfFrames

/-- The pages that are present are those of `s` and of the addresses. -/
structure World.At (w : World) (s : Mem) (vs : List (BitVec 64)) : Prop where
  tables : ∃ free, PageTables w.mem free
  present : ∀ a, present w.mem a = true ↔ Reaches s vs a

section Asked

variable {α : Type} (firmware : BitVec 64 → Byte)

theorem asked_read (a : BitVec 64) (k : Ret (Op.read a) → Walk α) :
    (Prog.op (Op.read a) k).asked (answer firmware) = .read a :: (k (firmware a)).asked (answer firmware) := rfl

theorem asked_mapPage (v p fl : BitVec 64) (k : Ret (Op.mapPage v p fl) → Walk α) :
    (Prog.op (Op.mapPage v p fl) k).asked (answer firmware) = .mapPage v p fl :: (k ()).asked (answer firmware) := rfl

theorem asked_println (line : Line) (k : Ret (Op.println line) → Walk α) :
    (Prog.op (Op.println line) k).asked (answer firmware) = .println line :: (k ()).asked (answer firmware) := rfl

theorem asked_overflow (k : Ret Op.overflow → Walk α) :
    (Prog.op Op.overflow k).asked (answer firmware) = [.overflow] := rfl

end Asked

section Runs

variable {α : Type} {firmware : BitVec 64 → Byte} {s : Mem}

/-- The results of `map_page` are kept. -/
theorem run_results (p : Walk α) (w : World) : w.results <+: (run firmware p w).2.results := by
  induction p generalizing w with
  | ret _ => exact List.prefix_refl _
  | op o k ih =>
    cases o with
    | read a =>
      unfold run
      split
      · exact ih _ { w with accesses := w.accesses ++ [⟨a, present w.mem a⟩] }
      · exact List.prefix_refl _
    | mapPage v p fl =>
      unfold run
      split
      · rename_i r mem _
        exact (List.prefix_append _ _).trans (ih () { w with mem := mem, results := w.results ++ [r] })
      · exact List.prefix_refl _
    | println line => exact ih () { w with output := w.output ++ [line] }
    | overflow => exact List.prefix_refl _

theorem World.Able.of_run {p : Walk α} {w : World} (h : (run firmware p w).2.Able) : w.Able :=
  fun r hr => h r ((run_results p w).subset hr)

theorem World.At.start {free : List Nat} (h : PageTables s free) : World.At ⟨s, [], [], []⟩ s [] := by
  refine ⟨⟨free, h⟩, fun a => ?_⟩
  simp [Reaches]

/-- One call of `map_page`. -/
theorem World.At.mapPage {w : World} {vs : List (BitVec 64)} (h : w.At s vs) (v p fl : BitVec 64) :
    ∃ r mem, (Memory.mapPage v p fl).exec w.mem = .ok (r, mem) ∧
      (r ≠ .error .outOfFrames → World.At { w with mem := mem, results := w.results ++ [r] } s (vs ++ [v])) := by
  obtain ⟨free, ht⟩ := h.tables
  obtain ⟨r, mem, free', hx, ht', hp⟩ := mapPage_present ht v p fl
  refine ⟨r, mem, hx, fun hr => ⟨⟨free', ht'⟩, fun a => ?_⟩⟩
  rw [hp hr, h.present]
  unfold Reaches
  constructor
  · rintro ((ha | ⟨hc, u, hu, hpage⟩) | ⟨hc, hpage⟩)
    · exact .inl ha
    · exact .inr ⟨hc, u, List.mem_append_left _ hu, hpage⟩
    · exact .inr ⟨hc, v, by simp, hpage⟩
  · rintro (ha | ⟨hc, u, hu, hpage⟩)
    · exact .inl (.inl ha)
    · rcases List.mem_append.1 hu with hu | hu
      · exact .inl (.inr ⟨hc, u, hu, hpage⟩)
      · rw [List.mem_singleton.1 hu] at hpage
        exact .inr ⟨hc, hpage⟩

/-- A run whose reads all find their page comes to its end: it has read and printed what it asked for. -/
theorem run_of_served {p : Walk α} {w : World} {vs : List (BitVec 64)} (hat : w.At s vs)
    (hable : (run firmware p w).2.Able) (hs : Served (Reaches s) vs (p.asked (answer firmware))) :
    (run firmware p w).1 = .returned ∧
      (run firmware p w).2.accesses = w.accesses ++ (bytesRead (p.asked (answer firmware))).map (⟨·, true⟩) ∧
      (run firmware p w).2.output = w.output ++ messages (p.asked (answer firmware)) := by
  -- by induction on the program: a read is of a mapped byte, and a mapping adds its page
  induction p generalizing w vs with
  | ret _ => exact ⟨rfl, by simp [run, bytesRead], by simp [run, messages]⟩
  | op o k ih =>
    cases o with
    | read a =>
      rw [asked_read] at hs ⊢
      have hp := (hat.present a).2 hs.1
      unfold run at hable ⊢
      rw [if_pos hp] at hable ⊢
      obtain ⟨h1, h2, h3⟩ := @ih _ { w with accesses := w.accesses ++ [⟨a, present w.mem a⟩] } vs
        ⟨hat.tables, hat.present⟩ hable hs.2
      refine ⟨h1, h2.trans ?_, h3⟩
      simp [bytesRead, hp]
    | mapPage v p fl =>
      rw [asked_mapPage] at hs ⊢
      obtain ⟨r, mem, hx, hnext⟩ := hat.mapPage v p fl
      unfold run at hable ⊢
      rw [hx] at hable ⊢
      have hr : r ≠ .error .outOfFrames := hable.of_run r (by simp)
      exact ih () (hnext hr) hable hs
    | println line =>
      rw [asked_println] at hs ⊢
      obtain ⟨h1, h2, h3⟩ := @ih () { w with output := w.output ++ [line] } vs ⟨hat.tables, hat.present⟩ hable hs
      refine ⟨h1, h2, h3.trans ?_⟩
      simp [messages]
    | overflow =>
      rw [asked_overflow] at hs
      exact absurd hs (by simp [Served])

/-- A run in which every access found its page, and no subtraction overflowed, asked for nothing else. -/
theorem served_of_run {p : Walk α} {w : World} {vs : List (BitVec 64)} (hat : w.At s vs)
    (hable : (run firmware p w).2.Able) (hpanic : (run firmware p w).1 ≠ .panic "attempt to subtract with overflow")
    (hacc : ∀ x ∈ (run firmware p w).2.accesses, x.present = true) :
    Served (Reaches s) vs (p.asked (answer firmware)) := by
  -- the converse: an access that found its page is one that was served
  induction p generalizing w vs with
  | ret _ => trivial
  | op o k ih =>
    cases o with
    | read a =>
      rw [asked_read]
      unfold run at hable hpanic hacc
      by_cases hp : present w.mem a = true
      · rw [if_pos hp] at hable hpanic hacc
        exact ⟨(hat.present a).1 hp, @ih _ { w with accesses := w.accesses ++ [⟨a, present w.mem a⟩] } vs
          ⟨hat.tables, hat.present⟩ hable hpanic hacc⟩
      · rw [if_neg hp] at hacc
        exact absurd (hacc ⟨a, present w.mem a⟩ (by simp)) hp
    | mapPage v p fl =>
      rw [asked_mapPage]
      obtain ⟨r, mem, hx, hnext⟩ := hat.mapPage v p fl
      unfold run at hable hpanic hacc
      rw [hx] at hable hpanic hacc
      have hr : r ≠ .error .outOfFrames := hable.of_run r (by simp)
      exact ih () (hnext hr) hable hpanic hacc
    | println line =>
      rw [asked_println]
      exact @ih () { w with output := w.output ++ [line] } vs ⟨hat.tables, hat.present⟩ hable hpanic hacc
    | overflow => exact absurd rfl hpanic

end Runs

end Octagram.Acpi

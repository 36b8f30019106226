/-
Singly linked lists given by a successor function: what a walk from a head visits (`Linked`), that
the walk is determined by the head, that a walk that ends visits nothing twice, and that changing
the successor of other nodes changes nothing. All by induction on the walk; a node that came twice
would have two walks to the end of different lengths (`Linked.nodup`).
-/
import Mathlib.Data.List.Nodup

namespace Octagram.Lib

variable {α : Type}

/-- Following `next` from `h` visits exactly `l`, in this order, and then stops. -/
def Linked (next : α → Option α) : Option α → List α → Prop
  | h, [] => h = none
  | h, a :: l => h = some a ∧ Linked next (next a) l

@[simp] theorem linked_nil (next : α → Option α) (h : Option α) : Linked next h [] ↔ h = none := Iff.rfl

@[simp] theorem linked_cons (next : α → Option α) (h : Option α) (a : α) (l : List α) :
    Linked next h (a :: l) ↔ h = some a ∧ Linked next (next a) l := Iff.rfl

/-- Only the successors of the visited nodes matter. -/
theorem Linked.congr {next next' : α → Option α} :
    ∀ {h : Option α} {l : List α}, (∀ a ∈ l, next' a = next a) → Linked next h l → Linked next' h l
  | _, [], _, hl => hl
  | _, a :: l, hn, ⟨hh, hl⟩ => by
    refine ⟨hh, ?_⟩
    rw [hn a List.mem_cons_self]
    exact Linked.congr (fun b hb => hn b (List.mem_cons_of_mem _ hb)) hl

/-- The head determines the walk. -/
theorem Linked.unique {next : α → Option α} :
    ∀ {h : Option α} {l m : List α}, Linked next h l → Linked next h m → l = m
  | _, [], [], _, _ => rfl
  | _, [], b :: m, hl, ⟨hm, _⟩ => by rw [linked_nil] at hl; rw [hl] at hm; cases hm
  | _, a :: l, [], ⟨hl, _⟩, hm => by rw [linked_nil] at hm; rw [hl] at hm; cases hm
  | _, a :: l, b :: m, ⟨ha, hl⟩, ⟨hb, hm⟩ => by
    rw [ha] at hb
    cases hb
    rw [Linked.unique hl hm]

/-- The walk from a visited node is the rest of the walk. -/
theorem Linked.suffix {next : α → Option α} :
    ∀ {h : Option α} {l₁ l₂ : List α} {a : α}, Linked next h (l₁ ++ a :: l₂) → Linked next (some a) (a :: l₂)
  | _, [], _, _, ⟨_, hl⟩ => ⟨rfl, hl⟩
  | _, _ :: _, _, _, ⟨_, hl⟩ => Linked.suffix hl

/-- A walk that stops is acyclic: it visits no node twice. -/
theorem Linked.nodup {next : α → Option α} : ∀ {h : Option α} {l : List α}, Linked next h l → l.Nodup
  | _, [], _ => List.nodup_nil
  | _, a :: l, ⟨hh, hl⟩ => by
    refine List.nodup_cons.2 ⟨fun ha => ?_, hl.nodup⟩
    -- were `a` met again, the walk from its second visit would be a shorter copy of the whole walk
    obtain ⟨l₁, l₂, rfl⟩ := List.append_of_mem ha
    have h1 : Linked next (some a) (a :: (l₁ ++ a :: l₂)) := ⟨rfl, hl⟩
    have h2 : Linked next (some a) (a :: l₂) := hl.suffix
    have := congrArg List.length (h1.unique h2)
    simp only [List.length_cons, List.length_append] at this
    omega

end Octagram.Lib

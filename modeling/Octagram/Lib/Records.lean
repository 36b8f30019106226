/-
Streams of records that state their own size: the walk from record to record, where it stops, and
what it finds in a stream that was written record by record and then cut off or padded
(`fitting_prefix`). The walk goes on as long as a whole record is left (`Whole`), which is also its
induction; it makes no more steps than the stream has elements (`records_length_le`).
-/
import Mathlib.Tactic.Common

namespace Octagram.Lib

variable {α β : Type} (size : List α → Nat)

/-- A whole record stands at the head of the stream. -/
def Whole (s : List α) : Prop := 0 < size s ∧ size s ≤ s.length

/-- The stream from each record on, up to the first record that is not whole. -/
def records (s : List α) : List (List α) :=
  if _h : 0 < size s ∧ size s ≤ s.length then s :: records (s.drop (size s)) else []
termination_by s.length
decreasing_by
  rw [List.length_drop]
  omega

variable {size}

theorem records_of_whole {s : List α} (h : Whole size s) : records size s = s :: records size (s.drop (size s)) := by
  rw [records]
  exact dif_pos h

theorem records_of_not_whole {s : List α} (h : ¬ Whole size s) : records size s = [] := by
  rw [records]
  exact dif_neg h

/-- The walk makes at most one step for each element. -/
theorem records_length_le (s : List α) : (records size s).length ≤ s.length := by
  fun_induction records size s with
  | case1 s h ih =>
    rw [List.length_drop] at ih
    rw [List.length_cons]
    omega
  | case2 s h => exact Nat.zero_le _

/-- `r` is a record: its size is read off its head, whatever follows, and is still its size when its
end is missing. -/
structure Sized (size : List α → Nat) (r : List α) : Prop where
  ne_nil : r ≠ []
  append : ∀ rest, size (r ++ rest) = r.length
  cut : ∀ n < r.length, ¬ Whole size (r.take n)

/-- The records that lie within the first `n` elements. -/
def fitting (n : Nat) : List (List α) → List (List α)
  | [] => []
  | r :: rs => if r.length ≤ n then r :: fitting (n - r.length) rs else []

theorem Sized.whole {r : List α} (h : Sized size r) (rest : List α) : Whole size (r ++ rest) := by
  have hpos := List.length_pos_iff.2 h.ne_nil
  constructor
  · rw [h.append]
    exact hpos
  · rw [h.append, List.length_append]
    omega

/-- What a fold over the records of a stream computes, where the stream was written from `rs`, padded
with something that never looks like a record, and cut after `n` elements. -/
theorem foldlM_records {f g : β → List α → Option β} {rs : List (List α)} {pad : List α} (hrs : ∀ r ∈ rs, Sized size r)
    (hpad : ∀ k, ¬ Whole size (pad.take k)) (hf : ∀ r ∈ rs, ∀ rest b, f b (r ++ rest) = g b r) (n : Nat) (b : β) :
    (records size ((rs.flatten ++ pad).take n)).foldlM f b = (fitting n rs).foldlM g b := by
  induction rs generalizing n b with
  | nil =>
    rw [List.flatten_nil, List.nil_append, records_of_not_whole (hpad n)]
    rfl
  | cons r rs ih =>
    have hr := hrs r List.mem_cons_self
    rw [List.flatten_cons, List.append_assoc]
    by_cases hn : r.length ≤ n
    · -- the record lies within the cut: it is walked over, and the rest by induction
      have ht : (r ++ (rs.flatten ++ pad)).take n = r ++ (rs.flatten ++ pad).take (n - r.length) := by
        rw [List.take_append, List.take_of_length_le hn]
      rw [ht, records_of_whole (hr.whole _), hr.append, List.drop_left, fitting, if_pos hn, List.foldlM_cons,
        List.foldlM_cons, hf r List.mem_cons_self]
      refine bind_congr fun b' => ?_
      exact ih (fun x hx => hrs x (List.mem_cons_of_mem r hx)) (fun x hx => hf x (List.mem_cons_of_mem r hx)) _ _
    · -- the cut goes through the record
      have hlt : n < r.length := by omega
      have ht : (r ++ (rs.flatten ++ pad)).take n = r.take n := by
        rw [List.take_append, Nat.sub_eq_zero_of_le (by omega), List.take_zero, List.append_nil]
      rw [ht, records_of_not_whole (hr.cut n hlt), fitting, if_neg hn]
      rfl

/-- The records within the first `n` elements are a prefix of the records: number `k` is among them when
the records up to it are together no longer than that. -/
theorem fitting_prefix (n : Nat) (rs : List (List α)) :
    ∃ m ≤ rs.length, fitting n rs = rs.take m ∧ ∀ k < rs.length, (rs.take (k + 1)).flatten.length ≤ n ↔ k < m := by
  induction rs generalizing n with
  | nil => exact ⟨0, Nat.le_refl 0, rfl, fun k hk => absurd hk (Nat.not_lt_zero k)⟩
  | cons r rs ih =>
    by_cases hn : r.length ≤ n
    · obtain ⟨m, hm, he, hk⟩ := ih (n - r.length)
      refine ⟨m + 1, Nat.succ_le_succ hm, by rw [fitting, if_pos hn, he, List.take_succ_cons], fun k hlt => ?_⟩
      rw [List.take_succ_cons, List.flatten_cons, List.length_append]
      cases k with
      | zero => simpa using hn
      | succ k =>
        rw [Nat.succ_lt_succ_iff, ← hk k (Nat.lt_of_succ_lt_succ hlt)]
        omega
    · refine ⟨0, Nat.zero_le _, by rw [fitting, if_neg hn, List.take_zero], fun k _ => ?_⟩
      rw [List.take_succ_cons, List.flatten_cons, List.length_append]
      omega

/-- A fold succeeds exactly when each of its steps can, if whether a step can does not depend on what
was computed so far. -/
theorem foldlM_isSome {f : β → α → Option β} {P : α → Prop} (h : ∀ b a, (f b a).isSome ↔ P a) (l : List α) (b : β) :
    (l.foldlM f b).isSome ↔ ∀ a ∈ l, P a := by
  induction l generalizing b with
  | nil => simp
  | cons a l ih =>
    rw [List.foldlM_cons, List.forall_mem_cons, ← h b a]
    cases hf : f b a with
    | none => simp
    | some b' => simpa using ih b'

end Octagram.Lib

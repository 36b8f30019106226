/-
How the tree of page tables grows: new tables, one below the other along a path, each empty but for
the entry of the next one, and every entry that was there before as it was. `Grown` says this of two
states; it holds of no step (`grown_nil`), of one table in an absent entry (`grown_single`), and
composes along the path (`Grown.trans`), as `map_page` goes down one level after the other. What an
entry can be afterwards is `Grown.entry_cases`.
-/
import Octagram.Memory.PageTables

namespace Octagram.Memory

open Octagram.Lib

/-- The entry that `next_table_or_create` writes for the frame it allocated. -/
def tableEntry (f : Nat) : BitVec 64 := BitVec.ofNat 64 f ||| flags.PRESENT ||| flags.WRITABLE

/-- From `s` to `s'` the tree grew by the tables `fs` along the path `P`, the first of them at depth
`d + 1`. -/
structure Grown (s s' : Mem) (P : List (Fin 512)) (d : Nat) (fs : List Nat) : Prop where
  room : d + fs.length ≤ P.length
  absent : fs ≠ [] → s.table (P.take (d + 1)) = none
  tables : ∀ p t, p.length ≤ 3 → s.table p = some t → s'.table p = some t
  entries : ∀ p j e, p.length ≤ 3 → s.entry p j = some e → (p = P.take d → P[d]? = some j → fs = []) →
    s'.entry p j = some e
  table : ∀ k f, fs[k]? = some f → s'.table (P.take (d + k + 1)) = some f
  link : ∀ k f i, fs[k]? = some f → P[d + k]? = some i → s'.entry (P.take (d + k)) i = some (tableEntry f)
  zero : ∀ k f j, fs[k]? = some f → (P[d + k + 1]? = some j → fs[k + 1]? = none) →
    s'.entry (P.take (d + k + 1)) j = some 0
  only : ∀ p t, p.length ≤ 3 → s'.table p = some t →
    s.table p = some t ∨ ∃ k : Nat, fs[k]? = some t ∧ p = P.take (d + k + 1)

section Growth

variable {s s₁ s' : Mem} {P q : List (Fin 512)} {d f : Nat} {fs : List Nat} {i : Fin 512}

/-- Nothing new. -/
theorem grown_nil (hd : d ≤ P.length)
    (h : ∀ p, p.length ≤ 3 → s'.table p = s.table p ∧ ∀ i, s'.entry p i = s.entry p i) : Grown s s' P d [] where
  room := hd
  absent h := absurd rfl h
  tables p t hp ht := (h p hp).1.trans ht
  entries p j e hp he _ := ((h p hp).2 j).trans he
  table k f hk := by cases hk
  link k f i hk := by cases hk
  zero k f j hk := by cases hk
  only p t hp ht := .inl ((h p hp).1.symm.trans ht)

/-- One table in an absent entry. -/
theorem grown_single (hP : q ++ [i] <+: P) (hnone : s.table (q ++ [i]) = none)
    (h : ∀ p, p.length ≤ 3 → s'.table p = (if p = q ++ [i] then some f else s.table p) ∧
      ∀ j, s'.entry p j = if p = q ++ [i] then some 0 else if p = q ∧ j = i then some (tableEntry f) else s.entry p j)
    (hl : q.length < 3) : Grown s s' P q.length [f] := by
  obtain ⟨r, rfl⟩ := hP
  have hq : (q ++ [i] ++ r).take q.length = q := by
    rw [List.append_assoc, List.take_left]
  have hqi : (q ++ [i] ++ r).take (q.length + 1) = q ++ [i] := by
    rw [List.take_left' (by rw [List.length_append, List.length_singleton])]
  have hget : (q ++ [i] ++ r)[q.length]? = some i := by simp
  have h3 : (q ++ [i]).length ≤ 3 := by
    rw [List.length_append, List.length_singleton]
    omega
  have hne : q ≠ q ++ [i] := fun he => by simpa using congrArg List.length he
  -- no entry was read in the new table before, as there was no table
  have hentry : ∀ p j e, s.entry p j = some e → p ≠ q ++ [i] := by
    rintro p j e he rfl
    unfold Mem.entry at he
    rw [hnone] at he
    cases he
  constructor
  · simp
  · intro _
    rw [hqi]
    exact hnone
  · intro p t hp ht
    rw [(h p hp).1, if_neg (fun hc => by rw [hc, hnone] at ht; cases ht), ht]
  · intro p j e hp he hold
    rw [(h p hp).2, if_neg (hentry p j e he), if_neg, he]
    rintro ⟨rfl, rfl⟩
    exact absurd (hold hq.symm hget) (List.cons_ne_nil _ _)
  · rintro k f' hk
    match k, hk with
    | 0, hk =>
      cases hk
      rw [Nat.add_zero, hqi, (h _ h3).1, if_pos rfl]
  · rintro k f' i' hk hi'
    match k, hk with
    | 0, hk =>
      cases hk
      rw [Nat.add_zero] at hi' ⊢
      rw [hget] at hi'
      cases hi'
      rw [hq, (h q (by omega)).2, if_neg hne, if_pos ⟨rfl, rfl⟩]
  · rintro k f' j hk -
    match k, hk with
    | 0, hk => rw [Nat.add_zero, hqi, (h _ h3).2, if_pos rfl]
  · intro p t hp ht
    rw [(h p hp).1] at ht
    by_cases hc : p = q ++ [i]
    · rw [if_pos hc] at ht
      exact .inr ⟨0, ht, by rw [Nat.add_zero, hqi, hc]⟩
    · rw [if_neg hc] at ht
      exact .inl ht

/-- One table, and the others below it. -/
theorem Grown.trans (h : Grown s s₁ P d [f]) (h' : Grown s₁ s' P (d + 1) fs) (hP : P.length ≤ 3) :
    Grown s s' P d (f :: fs) := by
  have hd : d < P.length := by
    have := h.room
    rw [List.length_singleton] at this
    omega
  have hne : P.take d ≠ P.take (d + 1) := by
    intro he
    have := congrArg List.length he
    rw [List.length_take, List.length_take] at this
    omega
  have htake : ∀ n, (P.take n).length ≤ 3 := fun n => (List.length_take_le' _ _).trans hP
  constructor
  · have := h'.room
    rw [List.length_cons]
    omega
  · exact fun _ => h.absent (List.cons_ne_nil _ _)
  · exact fun p t hp ht => h'.tables p t hp (h.tables p t hp ht)
  · intro p j e hp he hold
    have hold₁ : p = P.take d → P[d]? = some j → [f] = [] := fun hp hj => absurd (hold hp hj) (List.cons_ne_nil _ _)
    refine h'.entries p j e hp (h.entries p j e hp he hold₁) fun hp' => ?_
    -- the entry is of a table that was there before
    have hnone := h.absent (List.cons_ne_nil _ _)
    unfold Mem.entry at he
    rw [hp', hnone] at he
    cases he
  · rintro k f' hk
    match k, hk with
    | 0, hk => exact h'.tables _ _ (htake _) (h.table 0 f' hk)
    | k + 1, hk =>
      have := h'.table k f' hk
      rwa [show d + 1 + k + 1 = d + (k + 1) + 1 by omega] at this
  · rintro k f' i hk hi
    match k, hk with
    | 0, hk => exact h'.entries _ _ _ (htake _) (h.link 0 f' i hk hi) fun hc => absurd hc hne
    | k + 1, hk =>
      rw [show d + (k + 1) = d + 1 + k by omega] at hi ⊢
      exact h'.link k f' i hk hi
  · rintro k f' j hk hj
    match k, hk with
    | 0, hk =>
      refine h'.entries _ _ _ (htake _) (h.zero 0 f' j hk fun _ => rfl) fun _ hj' => ?_
      have := hj hj'
      rwa [List.getElem?_cons_succ, List.getElem?_eq_none_iff, Nat.le_zero, List.length_eq_zero_iff] at this
    | k + 1, hk =>
      rw [show d + (k + 1) + 1 = d + 1 + k + 1 by omega] at hj ⊢
      exact h'.zero k f' j hk hj
  · intro p t hp ht
    rcases h'.only p t hp ht with ht | ⟨k, hk, rfl⟩
    · rcases h.only p t hp ht with ht | ⟨k, hk, rfl⟩
      · exact .inl ht
      · match k, hk with
        | 0, hk => exact .inr ⟨0, hk, rfl⟩
    · exact .inr ⟨k + 1, hk, by rw [show d + (k + 1) + 1 = d + 1 + k + 1 by omega]⟩

/-- An entry is as it was, of an empty table, or that of a new table. -/
theorem Grown.entry_cases (h : Grown s s' P d fs) {p : List (Fin 512)} {j : Fin 512} {e : BitVec 64}
    (hp : p.length ≤ 3) (he : s'.entry p j = some e) : s.entry p j = some e ∨ e = 0 ∨ ∃ f ∈ fs, e = tableEntry f := by
  cases ht : s'.table p with
  | none =>
    unfold Mem.entry at he
    rw [ht] at he
    cases he
  | some t =>
    rcases h.only p t hp ht with hold | ⟨k, hk, rfl⟩
    · -- a table that was there: its entry was kept, or it is the one of the first new table
      have hent := Mem.entry_of_table hold j
      by_cases hlink : p = P.take d ∧ P[d]? = some j ∧ fs ≠ []
      · obtain ⟨rfl, hj, hne⟩ := hlink
        obtain ⟨f, fs, rfl⟩ := List.exists_cons_of_ne_nil hne
        have := h.link 0 f j rfl hj
        rw [Nat.add_zero, he] at this
        exact .inr (.inr ⟨f, List.mem_cons_self, Option.some.inj this⟩)
      · have hkeep := h.entries p j _ hp hent fun h1 h2 => by_contra fun h3 => hlink ⟨h1, h2, h3⟩
        rw [he] at hkeep
        rw [hent, Option.some.inj hkeep]
        exact .inl rfl
    · by_cases hnext : P[d + k + 1]? = some j ∧ fs[k + 1]? ≠ none
      · obtain ⟨hj, hne⟩ := hnext
        obtain ⟨g, hg⟩ := Option.ne_none_iff_exists'.1 hne
        have := h.link (k + 1) g j hg hj
        rw [← Nat.add_assoc, he] at this
        exact .inr (.inr ⟨g, List.mem_of_getElem? hg, Option.some.inj this⟩)
      · have := h.zero k t j hk fun hj => by_contra fun hne => hnext ⟨hj, hne⟩
        rw [he] at this
        exact .inr (.inl (Option.some.inj this))

end Growth

end Octagram.Memory

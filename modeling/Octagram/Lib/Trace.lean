/-
What a program asks of surroundings that give each operation the same answer every time: the
operations one after the other (`asked`), and the result (`answered`); an operation without an
answer does not return. `Asks` states both of a program at once and composes along `bind`, so a long
program is described part by part.
-/
import Octagram.Lib.Prog

namespace Octagram.Lib.Prog

variable {Op : Type} {Ret : Op → Type} {α β : Type} (answer : (o : Op) → Option (Ret o))

/-- The operations that a program comes to. -/
def asked : Prog Op Ret α → List Op
  | .ret _ => []
  | .op o k => o :: (match answer o with
    | some r => (k r).asked
    | none => [])

/-- Its result, if all of them are answered. -/
def answered : Prog Op Ret α → Option α
  | .ret a => some a
  | .op o k => match answer o with
    | some r => (k r).answered
    | none => none

variable {answer}

@[simp] theorem asked_ret (a : α) : (ret a : Prog Op Ret α).asked answer = [] := rfl

@[simp] theorem answered_ret (a : α) : (ret a : Prog Op Ret α).answered answer = some a := rfl

theorem asked_op {o : Op} {r : Ret o} (h : answer o = some r) (k : Ret o → Prog Op Ret α) :
    (op o k).asked answer = o :: (k r).asked answer := by
  rw [asked, h]

theorem answered_op {o : Op} {r : Ret o} (h : answer o = some r) (k : Ret o → Prog Op Ret α) :
    (op o k).answered answer = (k r).answered answer := by
  rw [answered, h]

/-- Nothing follows on an operation that does not return. -/
theorem asked_stop {o : Op} (h : answer o = none) (k : Ret o → Prog Op Ret α) : (op o k).asked answer = [o] := by
  rw [asked, h]

/-- A program that follows on another asks what that asks, and then goes on with its result. -/
theorem bind_answered {p : Prog Op Ret α} {a : α} (h : p.answered answer = some a) (f : α → Prog Op Ret β) :
    (p >>= f).asked answer = p.asked answer ++ (f a).asked answer ∧
      (p >>= f).answered answer = (f a).answered answer := by
  induction p with
  | ret b =>
    cases h
    exact ⟨rfl, rfl⟩
  | op o k ih =>
    cases ho : answer o with
    | none =>
      rw [answered, ho] at h
      cases h
    | some r =>
      rw [answered_op ho] at h
      obtain ⟨ha, hr⟩ := ih r h
      rw [op_bind, asked_op ho, answered_op ho, asked_op ho, ha, hr]
      exact ⟨rfl, rfl⟩

/-- Nothing follows on a program that does not return. -/
theorem bind_unanswered {p : Prog Op Ret α} (h : p.answered answer = none) (f : α → Prog Op Ret β) :
    (p >>= f).asked answer = p.asked answer := by
  induction p with
  | ret b => cases h
  | op o k ih =>
    cases ho : answer o with
    | none => rw [op_bind, asked_stop ho, asked_stop ho]
    | some r =>
      rw [answered_op ho] at h
      rw [op_bind, asked_op ho, asked_op ho, ih r h]

/-- A program asks these operations and returns this. -/
structure Asks (answer : (o : Op) → Option (Ret o)) (p : Prog Op Ret α) (os : List Op) (a : α) : Prop where
  asked : p.asked answer = os
  answered : p.answered answer = some a

theorem asks_pure (a : α) : Asks answer (pure a : Prog Op Ret α) [] a := ⟨rfl, rfl⟩

theorem asks_call {o : Op} {r : Ret o} (h : answer o = some r) : Asks answer (call o) [o] r :=
  ⟨asked_op h _, answered_op h _⟩

theorem Asks.asked_bind {p : Prog Op Ret α} {os : List Op} {a : α} (h : Asks answer p os a) (f : α → Prog Op Ret β) :
    (p >>= f).asked answer = os ++ (f a).asked answer := by
  rw [(bind_answered h.answered f).1, h.asked]

theorem Asks.bind {p : Prog Op Ret α} {f : α → Prog Op Ret β} {os os' : List Op} {a : α} {b : β}
    (h : Asks answer p os a) (h' : Asks answer (f a) os' b) : Asks answer (p >>= f) (os ++ os') b := by
  obtain ⟨ha, hr⟩ := bind_answered h.answered f
  exact ⟨by rw [ha, h.asked, h'.asked], by rw [hr, h'.answered]⟩

end Octagram.Lib.Prog

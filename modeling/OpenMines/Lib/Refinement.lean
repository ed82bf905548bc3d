import Mathlib.Algebra.GroupWithZero.Nat
import Mathlib.Algebra.BigOperators.Group.List.Basic

namespace OpenMines.Lib.Refinement

variable {S T Op A : Type}

/-- What a machine answers to a list of operations. -/
def answers (step : S → Op → A × S) : S → List Op → List A
  | _, [] => []
  | s, op :: ops => (step s op).1 :: answers step (step s op).2 ops

variable {step : S → Op → A × S} {step' : T → Op → A × T} {R : S → T → Prop}

/-- Machines in related states that stay related give the same answers. -/
theorem answers_eq_of_refines
    (hstep : ∀ s t op, R s t → (step s op).1 = (step' t op).1 ∧ R (step s op).2 (step' t op).2)
    {s : S} {t : T} (h : R s t) (ops : List Op) : answers step s ops = answers step' t ops := by
  induction ops generalizing s t with
  | nil => rfl
  | cons op ops ih =>
      obtain ⟨hanswer, hnext⟩ := hstep s t op h
      rw [answers, answers, hanswer, ih hnext]

/-- What goes out is bounded by what came in and what was there. -/
theorem sum_answers_le (held : S → Nat) (comes : Op → Nat) (goes : A → Nat)
    (hstep : ∀ s op, goes (step s op).1 + held (step s op).2 ≤ comes op + held s) (s : S) (ops : List Op) :
    ((answers step s ops).map goes).sum ≤ (ops.map comes).sum + held s := by
  induction ops generalizing s with
  | nil => exact Nat.zero_le _
  | cons op ops ih =>
      have hfirst := hstep s op
      have hrest := ih (step s op).2
      rw [answers, List.map_cons, List.map_cons, List.sum_cons, List.sum_cons]
      omega

end OpenMines.Lib.Refinement

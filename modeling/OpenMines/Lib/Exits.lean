import Mathlib.Data.Option.Basic
import Mathlib.Control.Basic

namespace OpenMines.Lib.Exits

variable {α β ε : Type}

/-- The value, or the way out of the handler that has none. -/
def orExit (o : Option α) (exit : ε) : Except ε α := o.elim (.error exit) .ok

def exitUnless (P : Prop) [Decidable P] (exit : ε) : Except ε Unit := if P then .ok () else .error exit

theorem toOption_bind (x : Except ε α) (f : α → Except ε β) :
    (x >>= f).toOption = x.toOption.bind fun a => (f a).toOption := by
  cases x <;> rfl

theorem toOption_orExit (o : Option α) (exit : ε) : (orExit o exit).toOption = o := by
  cases o <;> rfl

theorem toOption_exitUnless (P : Prop) [Decidable P] (exit : ε) : (exitUnless P exit).toOption = guard P := by
  by_cases h : P
  · simp [exitUnless, h, Except.toOption]
  · simp [exitUnless, h, Except.toOption]

theorem guard_bind_some {γ : Type} (P : γ → Prop) [DecidablePred P] (c : γ) (a : α) :
    ((guard (P c) : Option Unit).bind fun _ => some a) = if P c then some a else none := by
  by_cases h : P c <;> simp [h]

section Inversion

theorem bind_eq_ok {x : Except ε α} {f : α → Except ε β} {b : β} :
    (x >>= f) = .ok b ↔ ∃ a, x = .ok a ∧ f a = .ok b := by
  cases x with
  | error exit =>
      constructor
      · intro h
        cases h
      · rintro ⟨a, h, -⟩
        cases h
  | ok a =>
      constructor
      · exact fun h => ⟨a, rfl, h⟩
      · rintro ⟨a', h, hf⟩
        cases h
        exact hf

theorem orExit_eq_ok {o : Option α} {exit : ε} {a : α} : orExit o exit = .ok a ↔ o = some a := by
  cases o with
  | none =>
      constructor
      · intro h
        cases h
      · intro h
        cases h
  | some b =>
      constructor
      · intro h
        cases h
        rfl
      · intro h
        cases h
        rfl

theorem exitUnless_eq_ok {P : Prop} [Decidable P] {exit : ε} {u : Unit} : exitUnless P exit = .ok u ↔ P := by
  by_cases h : P
  · simp [exitUnless, h]
  · simp [exitUnless, h]

theorem exists_of_isOk {x : Except ε α} (h : x.isOk = true) : ∃ a, x = .ok a := by
  cases x with
  | error exit => cases h
  | ok a => exact ⟨a, rfl⟩

theorem exists_of_not_isOk {x : Except ε α} (h : x.isOk = false) : ∃ exit, x = .error exit := by
  cases x with
  | error exit => exact ⟨exit, rfl⟩
  | ok a => cases h

end Inversion

end OpenMines.Lib.Exits

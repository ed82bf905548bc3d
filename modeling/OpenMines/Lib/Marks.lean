import Mathlib.Data.List.Basic

namespace OpenMines.Lib.Marks

/-- Clearing the listed marks of a mask, and no others. -/
theorem getElem?_foldl_clear (marks : List Nat) (mask : List Bool) (i : Nat) :
    (marks.foldl (fun mask j => mask.set j false) mask)[i]? =
      if i ∈ marks ∧ i < mask.length then some false else mask[i]? := by
  induction marks generalizing mask with
  | nil => simp
  | cons j marks ih =>
      rw [List.foldl_cons, ih, List.length_set]
      by_cases hi : i = j
      · subst hi
        by_cases hlt : i < mask.length
        · simp [hlt]
        · simp [hlt]
      · simp [hi, List.getElem?_set_ne (Ne.symm hi)]

theorem length_foldl_clear (marks : List Nat) (mask : List Bool) :
    (marks.foldl (fun mask j => mask.set j false) mask).length = mask.length := by
  induction marks generalizing mask with
  | nil => rfl
  | cons j marks ih => rw [List.foldl_cons, ih, List.length_set]

end OpenMines.Lib.Marks

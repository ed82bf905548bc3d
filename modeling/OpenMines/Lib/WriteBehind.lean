import Mathlib.Data.Option.Basic
import Mathlib.Logic.Function.Basic

namespace OpenMines.Lib.WriteBehind

variable {K V : Type} [DecidableEq K]

/-- The values of a key that wait to be written. -/
def pending (queue : List (K × V)) (k : K) : List V := queue.filterMap fun w => if w.1 = k then some w.2 else none

/-- The value that a key has once all that waits is written. -/
def latest (table : K → V) (queue : List (K × V)) (k : K) : V := (pending queue k).getLast?.getD (table k)

variable {table table' : K → V} {queue : List (K × V)} {k : K}

@[simp] theorem pending_nil (k : K) : pending ([] : List (K × V)) k = [] := rfl

@[simp] theorem pending_append (queue more : List (K × V)) (k : K) :
    pending (queue ++ more) k = pending queue k ++ pending more k := List.filterMap_append

theorem pending_cons_self (k : K) (v : V) (queue : List (K × V)) : pending ((k, v) :: queue) k = v :: pending queue k :=
  List.filterMap_cons_some (if_pos rfl)

theorem pending_cons_of_ne {w : K × V} (h : w.1 ≠ k) (queue : List (K × V)) :
    pending (w :: queue) k = pending queue k :=
  List.filterMap_cons_none (if_neg h)

theorem pending_eq_nil_iff : pending queue k = [] ↔ ∀ w ∈ queue, w.1 ≠ k := by
  rw [pending, List.filterMap_eq_nil_iff]
  exact forall₂_congr fun w _ => by simp

theorem latest_of_pending_nil (h : pending queue k = []) : latest table queue k = table k := by
  rw [latest, h, List.getLast?_nil, Option.getD_none]

theorem latest_congr (h : table' k = table k) : latest table' queue k = latest table queue k := by
  rw [latest, latest, h]

theorem latest_concat_self (table : K → V) (queue : List (K × V)) (k : K) (v : V) :
    latest table (queue ++ [(k, v)]) k = v := by
  rw [latest, pending_append, pending_cons_self, pending_nil, List.getLast?_concat, Option.getD_some]

theorem latest_concat_of_ne {w : K × V} (h : w.1 ≠ k) (table : K → V) (queue : List (K × V)) :
    latest table (queue ++ [w]) k = latest table queue k := by
  rw [latest, pending_append, pending_cons_of_ne h, pending_nil, List.append_nil, latest]

/-- To write what waits longest does not change what a key has in the end. -/
theorem latest_write (table : K → V) (k' : K) (v : V) (queue : List (K × V)) (k : K) :
    latest (Function.update table k' v) queue k = latest table ((k', v) :: queue) k := by
  by_cases h : k = k'
  · subst h
    rw [latest, latest, pending_cons_self, Function.update_self]
    cases pending queue k with
    | nil => rfl
    | cons w more => rw [List.getLast?_cons_cons]; rfl
  · rw [latest, latest, pending_cons_of_ne (Ne.symm h), Function.update_of_ne h]

end OpenMines.Lib.WriteBehind

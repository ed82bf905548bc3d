import Mathlib.Logic.Function.Basic

namespace OpenMines.Lib.RedoLog

variable {K V : Type} [DecidableEq K]

/-- Redo a log of after-images over a store. -/
def replay (s : K → V) (log : List (K × V)) : K → V :=
  log.foldl (fun s w => Function.update s w.1 w.2) s

@[simp] theorem replay_nil (s : K → V) : replay s [] = s := rfl

@[simp] theorem replay_cons (s : K → V) (w : K × V) (log : List (K × V)) :
    replay s (w :: log) = replay (Function.update s w.1 w.2) log := rfl

theorem replay_append (s : K → V) (log more : List (K × V)) :
    replay s (log ++ more) = replay (replay s log) more := List.foldl_append

theorem replay_untouched (s : K → V) (log : List (K × V)) (k : K)
    (hk : k ∉ log.map Prod.fst) : replay s log k = s k := by
  induction log generalizing s with
  | nil => rfl
  | cons w log ih =>
      simp only [List.map_cons, List.mem_cons, not_or] at hk
      rw [replay_cons, ih _ hk.2, Function.update_of_ne hk.1]

/-- After-images overwrite whatever they touch, so the outcome at a key depends on
the base store only when the log leaves the key alone. -/
theorem replay_congr {s t : K → V} {log : List (K × V)} {k : K}
    (h : k ∉ log.map Prod.fst → s k = t k) : replay s log k = replay t log k := by
  induction log generalizing s t with
  | nil => exact h (by simp)
  | cons w log ih =>
      rw [replay_cons, replay_cons]
      refine ih ?_
      intro hk
      by_cases hkw : k = w.1
      · subst hkw
        simp
      · rw [Function.update_of_ne hkw, Function.update_of_ne hkw]
        exact h (by simp [hkw, hk])

end OpenMines.Lib.RedoLog

import Mathlib.Data.Option.Basic
import Mathlib.Data.Prod.Lex
import Mathlib.Logic.Basic
import Mathlib.Order.WellFounded

namespace OpenMines.Lib.Run

variable {S E : Type}

/-- Take the steps of a list of events; nothing when one of them is not enabled. -/
def run (step : S → E → Option S) : S → List E → Option S
  | s, [] => some s
  | s, e :: es => (step s e).bind (fun t => run step t es)

variable {step : S → E → Option S}

@[simp] theorem run_nil (s : S) : run step s [] = some s := rfl

theorem run_cons_eq_some {s t : S} {e : E} {es : List E} :
    run step s (e :: es) = some t ↔ ∃ u, step s e = some u ∧ run step u es = some t :=
  Option.bind_eq_some_iff

theorem run_append_eq_some {s t : S} {es fs : List E} :
    run step s (es ++ fs) = some t ↔ ∃ u, run step s es = some u ∧ run step u fs = some t := by
  induction es generalizing s with
  | nil => simp
  | cons e es ih =>
      simp only [List.cons_append, run_cons_eq_some, ih]
      constructor
      · rintro ⟨v, hv, u, hu, ht⟩
        exact ⟨u, ⟨v, hv, hu⟩, ht⟩
      · rintro ⟨u, ⟨v, hv, hu⟩, ht⟩
        exact ⟨v, hv, u, hu, ht⟩

theorem run_concat_eq_some {s t : S} {es : List E} {e : E} :
    run step s (es ++ [e]) = some t ↔ ∃ u, run step s es = some u ∧ step u e = some t := by
  simp [run_append_eq_some, run_cons_eq_some]

/-- What the steps of the listed events preserve holds after the run. -/
theorem run_preserves {P : S → Prop} {s t : S} {es : List E} (hs : P s)
    (hstep : ∀ e ∈ es, ∀ u v, P u → step u e = some v → P v) (h : run step s es = some t) : P t := by
  induction es generalizing s with
  | nil =>
      cases h
      exact hs
  | cons e es ih =>
      obtain ⟨u, hu, ht⟩ := run_cons_eq_some.mp h
      exact ih (hstep e (by simp) s u hs hu) (fun f hf => hstep f (List.mem_cons_of_mem _ hf)) ht

/-- Every step of the run starts in a state that meets a condition on it. -/
def Meets (step : S → E → Option S) (cond : S → E → Prop) : S → List E → Prop
  | _, [] => True
  | s, e :: es => cond s e ∧ ∀ t, step s e = some t → Meets step cond t es

theorem meets_congr {cond cond' : S → E → Prop} (h : ∀ s e, cond s e ↔ cond' s e) (s : S) (es : List E) :
    Meets step cond s es ↔ Meets step cond' s es := by
  induction es generalizing s with
  | nil => exact Iff.rfl
  | cons e es ih => exact and_congr (h s e) (forall_congr' fun t => imp_congr_right fun _ => ih t)

/-- A run fails just where a step does. -/
theorem isSome_run_iff_meets {cond : S → E → Prop} (h : ∀ s e, (step s e).isSome ↔ cond s e) (s : S) (es : List E) :
    (run step s es).isSome ↔ Meets step cond s es := by
  induction es generalizing s with
  | nil => exact iff_of_true rfl trivial
  | cons e es ih =>
      rw [run, Meets, ← h]
      cases hstep : step s e with
      | none => simp
      | some t => simp [ih]

theorem meets_concat {cond : S → E → Prop} {s t : S} {es : List E} {e : E}
    (h : Meets step cond s (es ++ [e])) (ht : run step s es = some t) : Meets step cond s es ∧ cond t e := by
  induction es generalizing s with
  | nil =>
      cases ht
      exact ⟨trivial, h.1⟩
  | cons f es ih =>
      obtain ⟨u, hu, hrun⟩ := run_cons_eq_some.mp ht
      refine ⟨⟨h.1, fun v hv => ?_⟩, (ih (h.2 u hu) hrun).2⟩
      obtain rfl := Option.some_inj.mp (hu.symm.trans hv)
      exact (ih (h.2 u hu) hrun).1

theorem run_preserves_of_meets {P : S → Prop} {cond : S → E → Prop} {s t : S} {es : List E} (hs : P s)
    (hmeets : Meets step cond s es) (hstep : ∀ e u v, P u → cond u e → step u e = some v → P v)
    (h : run step s es = some t) : P t := by
  induction es generalizing s with
  | nil =>
      cases h
      exact hs
  | cons e es ih =>
      obtain ⟨u, hu, ht⟩ := run_cons_eq_some.mp h
      exact ih (hstep e s u hs hmeets.1 hu) (hmeets.2 u hu) ht

/-- When a step ends in `P` just from a state in `P` that meets the condition, so does a run
from a state of an invariant. -/
theorem run_iff_meets {I P : S → Prop} {cond : S → E → Prop} {s t : S} {es : List E} (hs : I s)
    (hinv : ∀ e u v, I u → step u e = some v → I v)
    (hstep : ∀ e u v, I u → step u e = some v → (P v ↔ P u ∧ cond u e))
    (h : run step s es = some t) : P t ↔ P s ∧ Meets step cond s es := by
  induction es generalizing s with
  | nil =>
      cases h
      simp [Meets]
  | cons e es ih =>
      obtain ⟨u, hu, ht⟩ := run_cons_eq_some.mp h
      have hmeets : Meets step cond s (e :: es) ↔ cond s e ∧ Meets step cond u es := by
        simp [Meets, hu]
      rw [ih (hinv e s u hs hu) ht, hstep e s u hs hu, hmeets, and_assoc]

/-- When a step from a state of `P` ends in `P` just where it meets the condition, all the states of a run
are in `P` just where all its steps meet the condition. -/
theorem meets_iff_forall_take {P : S → Prop} {cond : S → E → Prop} {s t : S} {es : List E} (hs : P s)
    (hstep : ∀ e u v, P u → step u e = some v → (P v ↔ cond u e)) (h : run step s es = some t) :
    Meets step cond s es ↔ ∀ n u, run step s (es.take n) = some u → P u := by
  induction es generalizing s with
  | nil =>
      refine iff_of_true trivial fun n u hu => ?_
      rw [List.take_nil, run_nil] at hu
      exact Option.some.inj hu ▸ hs
  | cons e es ih =>
      obtain ⟨u, hu, ht⟩ := run_cons_eq_some.mp h
      constructor
      · rintro ⟨hcond, hrest⟩ n v hv
        cases n with
        | zero => exact Option.some.inj hv ▸ hs
        | succ n =>
            rw [List.take_succ_cons, run_cons_eq_some] at hv
            obtain ⟨w, hw, hv⟩ := hv
            obtain rfl := Option.some.inj (hu.symm.trans hw)
            exact (ih ((hstep e s u hs hu).mpr hcond) ht).mp (hrest u hu) n v hv
      · intro hall
        have hrun : ∀ n v, run step u (es.take n) = some v → P v := fun n v hv =>
          hall (n + 1) v (by rw [List.take_succ_cons]; exact run_cons_eq_some.mpr ⟨u, hu, hv⟩)
        have hpu : P u := hrun 0 u rfl
        refine ⟨(hstep e s u hs hu).mp hpu, fun v hv => ?_⟩
        obtain rfl := Option.some.inj (hu.symm.trans hv)
        exact (ih hpu ht).mpr hrun

/-- States that come after one another do not lessen a pair of numbers for ever. -/
theorem exists_of_lessens {P : S → Prop} (f : Nat → S) (first second : S → Nat)
    (h : ∀ n, ¬ P (f n) → first (f (n + 1)) < first (f n) ∨
      first (f (n + 1)) = first (f n) ∧ second (f (n + 1)) < second (f n)) : ∃ n, P (f n) := by
  by_contra hnever
  have hlex : IsWellFounded (Nat × Nat) (Prod.Lex (· < ·) (· < ·)) := ⟨(Nat.lt_wfRel.wf).prod_lex Nat.lt_wfRel.wf⟩
  obtain ⟨n, hn⟩ := WellFounded.not_rel_apply_succ (r := Prod.Lex (· < ·) (· < ·))
    fun n => (first (f n), second (f n))
  exact hn (Prod.lex_iff.mpr (h n fun hp => hnever ⟨n, hp⟩))

end OpenMines.Lib.Run

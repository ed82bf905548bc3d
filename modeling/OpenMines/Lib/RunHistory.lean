import Mathlib.Data.List.Induction
import OpenMines.Lib.Run

namespace OpenMines.Lib.Run

variable {S E A : Type} {step : S → E → Option S}

/-- What holds of the events up to a state and is kept by every step holds after the run. -/
theorem run_history_preserves {J : List E → S → Prop} {s t : S} {es : List E} (hs : J [] s)
    (hstep : ∀ fs u e v, run step s fs = some u → J fs u → step u e = some v → J (fs ++ [e]) v)
    (h : run step s es = some t) : J es t := by
  induction es using List.reverseRecOn generalizing t with
  | nil =>
      obtain rfl := Option.some.inj h
      exact hs
  | append_singleton es e ih =>
      obtain ⟨u, hu, ht⟩ := run_concat_eq_some.mp h
      exact hstep es u e t hu (ih hu) ht

/-- A state on the way to a run is one on the way to a longer run. -/
theorem visited_concat {s u : S} {es : List E} (e : E)
    (h : ∃ before after, es = before ++ after ∧ run step s before = some u) :
    ∃ before after, es ++ [e] = before ++ after ∧ run step s before = some u := by
  obtain ⟨before, after, hes, hu⟩ := h
  exact ⟨before, after ++ [e], by rw [hes, List.append_assoc], hu⟩

/-- What a log has after a run was there before, or was written in a state of the run. -/
theorem run_history {I : S → Prop} {P : S → A → Prop} {log : S → List A} {s t : S} {es : List E} (hs : I s)
    (hinv : ∀ u e v, I u → step u e = some v → I v)
    (hwrite : ∀ u e v, I u → step u e = some v → ∀ x ∈ log v, x ∈ log u ∨ P u x)
    (h : run step s es = some t) {x : A} (hx : x ∈ log t) :
    x ∈ log s ∨ ∃ before after u, es = before ++ after ∧ run step s before = some u ∧ P u x := by
  suffices hall : I t ∧ ∀ x ∈ log t, x ∈ log s ∨
      ∃ u, (∃ before after, es = before ++ after ∧ run step s before = some u) ∧ P u x by
    refine (hall.2 x hx).imp_right fun ⟨u, ⟨before, after, hes, hu⟩, hP⟩ => ⟨before, after, u, hes, hu, hP⟩
  refine run_history_preserves (J := fun fs v => I v ∧ ∀ x ∈ log v, x ∈ log s ∨
    ∃ u, (∃ before after, fs = before ++ after ∧ run step s before = some u) ∧ P u x) ?_ ?_ h
  · exact ⟨hs, fun x hx => .inl hx⟩
  · rintro fs u e v hu ⟨hI, hlog⟩ hstep
    refine ⟨hinv u e v hI hstep, fun x hx => ?_⟩
    rcases hwrite u e v hI hstep x hx with hold | hP
    · exact (hlog x hold).imp_right fun ⟨w, hw, hP⟩ => ⟨w, visited_concat e hw, hP⟩
    · exact .inr ⟨u, ⟨fs, [e], rfl, hu⟩, hP⟩

end OpenMines.Lib.Run

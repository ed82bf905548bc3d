import Mathlib.Data.List.Basic
import Mathlib.Logic.Basic

namespace OpenMines.Lib.DirtyTracking

/-- A value that is saved in rounds. The tag is that under which the index has it. -/
structure Record (I V : Type) where
  value : V
  dirty : Bool
  tag : I

/-- Values with marks, the index of those to save, and what was saved of each last. -/
@[ext] structure Tracker (K I V : Type) where
  records : K → Option (Record I V)
  index : List I
  saved : K → V

namespace Tracker

variable {K I V : Type} {s t : Tracker K I V} {k : K} {r : Record I V}

/-- What differs from what was saved is marked, and in the index. -/
def CoveredAt (s : Tracker K I V) (k : K) : Prop :=
  ∀ r, s.records k = some r → r.value ≠ s.saved k → r.dirty = true ∧ r.tag ∈ s.index

def Covered (s : Tracker K I V) : Prop := ∀ k, s.CoveredAt k

theorem coveredAt_of_none (h : s.records k = none) : s.CoveredAt k := fun r hr => by cases h.symm.trans hr

theorem coveredAt_iff (h : s.records k = some r) :
    s.CoveredAt k ↔ (r.value ≠ s.saved k → r.dirty = true ∧ r.tag ∈ s.index) := by
  constructor
  · intro hcovered
    exact hcovered r h
  · intro hcovered q hq
    exact Option.some.inj (h.symm.trans hq) ▸ hcovered

theorem CoveredAt.congr (h : s.CoveredAt k) (hrecords : t.records k = s.records k) (hsaved : t.saved k = s.saved k)
    (hindex : ∀ i ∈ s.index, i ∈ t.index) : t.CoveredAt k := by
  intro r hr hne
  rw [hrecords] at hr
  rw [hsaved] at hne
  obtain ⟨hdirty, hmem⟩ := h r hr hne
  exact ⟨hdirty, hindex _ hmem⟩

/-- Where no more than the value of one key changes and the index does not lose anything, all depends on that key. -/
theorem covered_iff_of_change (h : s.Covered) (k : K) (hrecords : ∀ j, j ≠ k → t.records j = s.records j)
    (hsaved : ∀ j, j ≠ k → t.saved j = s.saved j) (hindex : ∀ i ∈ s.index, i ∈ t.index) :
    t.Covered ↔ t.CoveredAt k := by
  refine ⟨fun hcovered => hcovered k, fun hk j => ?_⟩
  by_cases hj : j = k
  · exact hj ▸ hk
  · exact (h j).congr (hrecords j hj) (hsaved j hj) hindex

section Flush

variable [DecidableEq I]

/-- What is marked under a tag is saved. -/
def snapshot (s : Tracker K I V) (i : I) : Tracker K I V where
  records k := (s.records k).map fun r => if r.tag = i then { r with dirty := false } else r
  index := s.index
  saved k := (s.records k).elim (s.saved k) fun r => if r.tag = i ∧ r.dirty = true then r.value else s.saved k

/-- A round that has room for some of the index. The others stay in it. -/
def flush (s : Tracker K I V) (admits : I → Bool) : Tracker K I V :=
  (s.index.filter admits).foldl snapshot { s with index := s.index.filter fun i => !admits i }

@[simp] theorem index_snapshot (s : Tracker K I V) (i : I) : (s.snapshot i).index = s.index := rfl

theorem snapshot_of_none {i : I} (h : s.records k = none) :
    (s.snapshot i).records k = none ∧ (s.snapshot i).saved k = s.saved k :=
  ⟨congrArg (Option.map _) h, congrArg (fun record => Option.elim record _ _) h⟩

theorem snapshot_of_some {i : I} (h : s.records k = some r) :
    (s.snapshot i).records k = some (if r.tag = i then { r with dirty := false } else r) ∧
      (s.snapshot i).saved k = if r.tag = i ∧ r.dirty = true then r.value else s.saved k :=
  ⟨congrArg (Option.map _) h, congrArg (fun record => Option.elim record _ _) h⟩

/-- A tag under which nothing is marked. -/
theorem snapshot_eq_self {i : I} (h : ∀ k r, s.records k = some r → r.tag = i → r.dirty = false) : s.snapshot i = s := by
  refine Tracker.ext (funext fun k => ?_) rfl (funext fun k => ?_)
  · cases hr : s.records k with
    | none => exact (snapshot_of_none hr).1
    | some r =>
        rw [(snapshot_of_some hr).1]
        split
        · rename_i htag
          rw [← h k r hr htag]
        · rfl
  · cases hr : s.records k with
    | none => exact (snapshot_of_none hr).2
    | some r =>
        rw [(snapshot_of_some hr).2, if_neg fun hboth => ?_]
        cases (h k r hr hboth.1).symm.trans hboth.2

/-- While a round goes on, what differs is in the index or still comes. -/
def CoveredBy (s : Tracker K I V) (rest : List I) : Prop := ({ s with index := rest ++ s.index } : Tracker K I V).Covered

theorem CoveredBy.snapshot {i : I} {rest : List I} (h : s.CoveredBy (i :: rest)) : (s.snapshot i).CoveredBy rest := by
  intro k q hq hne
  cases hr : s.records k with
  | none => cases (snapshot_of_none hr).1.symm.trans hq
  | some r =>
      obtain ⟨hrecord, hsaved⟩ := snapshot_of_some (i := i) hr
      obtain rfl := Option.some.inj (hrecord.symm.trans hq)
      replace hne : (if r.tag = i then { r with dirty := false } else r).value ≠
        if r.tag = i ∧ r.dirty = true then r.value else s.saved k := hsaved ▸ hne
      by_cases htag : r.tag = i
      · rw [if_pos htag] at hne
        by_cases hdirty : r.dirty = true
        · exact absurd (if_pos ⟨htag, hdirty⟩).symm hne
        · rw [if_neg fun hboth => hdirty hboth.2] at hne
          exact absurd (h k r hr hne).1 hdirty
      · rw [if_neg htag, if_neg fun hboth => htag hboth.1] at hne
        rw [if_neg htag]
        obtain ⟨hdirty, hmem⟩ := h k r hr hne
        exact ⟨hdirty, (List.mem_cons.mp hmem).resolve_left htag⟩

theorem CoveredBy.foldl {rest : List I} (h : s.CoveredBy rest) : (rest.foldl Tracker.snapshot s).Covered := by
  induction rest generalizing s with
  | nil => exact h
  | cons i rest ih => exact ih h.snapshot

theorem Covered.flush (h : s.Covered) (admits : I → Bool) : (s.flush admits).Covered := by
  refine CoveredBy.foldl fun k r hr hne => ?_
  obtain ⟨hdirty, hmem⟩ := h k r hr hne
  refine ⟨hdirty, List.mem_append.mpr ?_⟩
  cases hadmitted : admits r.tag with
  | true => exact .inl (List.mem_filter.mpr ⟨hmem, hadmitted⟩)
  | false => exact .inr (List.mem_filter.mpr ⟨hmem, by rw [hadmitted]; rfl⟩)

theorem index_foldl_snapshot (s : Tracker K I V) (rest : List I) :
    (rest.foldl snapshot s).index = s.index := by
  induction rest generalizing s with
  | nil => rfl
  | cons i rest ih => exact ih _

/-- After a round with room for all nothing differs. -/
theorem saved_flush_all (h : s.Covered) {admits : I → Bool} (hadmitted : ∀ i ∈ s.index, admits i = true)
    (hr : (s.flush admits).records k = some r) : (s.flush admits).saved k = r.value := by
  by_contra hne
  have hmem := (h.flush admits k r hr (Ne.symm hne)).2
  rw [flush, index_foldl_snapshot] at hmem
  obtain ⟨hold, hnot⟩ := List.mem_filter.mp hmem
  rw [hadmitted _ hold] at hnot
  cases hnot

end Flush

end Tracker

end OpenMines.Lib.DirtyTracking

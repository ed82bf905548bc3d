import Mathlib.Data.List.Induction
import Mathlib.Data.List.Nodup

namespace OpenMines.Lib.LastWins

variable {K V : Type} [DecidableEq K] (key : V → K)

/-- The last value with a key. -/
def lastAt (vs : List V) (k : K) : Option V := vs.reverse.find? fun v => key v = k

/-- A value takes the place of the one that has its key. -/
def insertLast (held : List V) (v : V) : List V := held.filter (fun u => key u ≠ key v) ++ [v]

/-- The values that come into a map, one after the other. -/
def lastWins (vs : List V) : List V := vs.foldl (insertLast key) []

variable {key} {vs ws : List V} {u v : V} {k : K}

@[simp] theorem lastAt_nil : lastAt key [] k = none := rfl

theorem lastAt_append : lastAt key (vs ++ ws) k = (lastAt key ws k).or (lastAt key vs k) := by
  rw [lastAt, List.reverse_append, List.find?_append]
  rfl

theorem lastAt_concat : lastAt key (vs ++ [v]) k = if key v = k then some v else lastAt key vs k := by
  rw [lastAt_append, lastAt, List.reverse_singleton, List.find?_singleton]
  split
  · rename_i h
    rw [if_pos (of_decide_eq_true h), Option.some_or]
  · rename_i h
    rw [if_neg fun heq => h (decide_eq_true heq), Option.none_or]

theorem lastAt_pair : lastAt key [u, v] k = if key v = k then some v else if key u = k then some u else none := by
  have hfirst : lastAt key [u] k = if key u = k then some u else none := @lastAt_concat K V _ key [] u k
  rw [← hfirst]
  exact @lastAt_concat K V _ key [u] v k

theorem lastAt_eq_none : lastAt key vs k = none ↔ ∀ v ∈ vs, key v ≠ k := by
  simp [lastAt, List.find?_eq_none]

theorem mem_of_lastAt (h : lastAt key vs k = some v) : v ∈ vs ∧ key v = k :=
  ⟨List.mem_reverse.mp (List.mem_of_find?_eq_some h), by simpa using List.find?_some h⟩

/-- In a list without two values of a key. -/
theorem lastAt_eq_some_of_nodup (hnodup : (vs.map key).Nodup) : lastAt key vs k = some v ↔ v ∈ vs ∧ key v = k := by
  refine ⟨mem_of_lastAt, fun ⟨hmem, hkey⟩ => ?_⟩
  cases hlast : lastAt key vs k with
  | none => exact absurd hkey (lastAt_eq_none.mp hlast v hmem)
  | some w =>
      obtain ⟨hw, hwkey⟩ := mem_of_lastAt hlast
      exact congrArg some (List.inj_on_of_nodup_map hnodup hw hmem (hwkey.trans hkey.symm))

theorem lastAt_congr_of_perm (hnodup : (vs.map key).Nodup) (hperm : ws.Perm vs) :
    lastAt key ws k = lastAt key vs k := by
  refine Option.ext fun v => ?_
  rw [lastAt_eq_some_of_nodup hnodup, lastAt_eq_some_of_nodup ((hperm.map key).nodup_iff.mpr hnodup), hperm.mem_iff]

theorem lastWins_concat : lastWins key (vs ++ [v]) = insertLast key (lastWins key vs) v := by
  rw [lastWins, List.foldl_concat]
  rfl

theorem mem_lastWins : u ∈ lastWins key vs ↔ lastAt key vs (key u) = some u := by
  induction vs using List.reverseRecOn with
  | nil => exact iff_of_false List.not_mem_nil (Option.some_ne_none _).symm
  | append_singleton vs v ih =>
      rw [lastWins_concat, insertLast, List.mem_append, List.mem_filter, ih, List.mem_singleton, lastAt_concat,
        decide_eq_true_eq]
      by_cases hkey : key v = key u
      · rw [if_pos hkey, Option.some_inj]
        exact ⟨fun h => (h.resolve_left fun hold => hold.2 hkey.symm).symm, fun h => .inr h.symm⟩
      · rw [if_neg hkey]
        exact ⟨fun h => (h.resolve_right fun heq => hkey (congrArg key heq.symm)).1, fun h => .inl ⟨h, Ne.symm hkey⟩⟩

theorem nodup_insertLast (h : (vs.map key).Nodup) : ((insertLast key vs v).map key).Nodup := by
  rw [insertLast, List.map_append, List.map_singleton]
  refine (h.sublist (List.filter_sublist.map key)).append (List.nodup_singleton _) ?_
  rw [List.disjoint_singleton]
  intro hmem
  obtain ⟨u, hu, hkey⟩ := List.mem_map.mp hmem
  exact of_decide_eq_true (List.mem_filter.mp hu).2 hkey

theorem nodup_lastWins : ((lastWins key vs).map key).Nodup := by
  induction vs using List.reverseRecOn with
  | nil => exact List.nodup_nil
  | append_singleton vs v ih =>
      rw [lastWins_concat]
      exact nodup_insertLast ih

theorem lastWins_of_nodup (h : (vs.map key).Nodup) : lastWins key vs = vs := by
  induction vs using List.reverseRecOn with
  | nil => rfl
  | append_singleton vs v ih =>
      rw [List.map_append, List.nodup_append] at h
      have hfree : ∀ u ∈ vs, key u ≠ key v := fun u hu => h.2.2 _ (List.mem_map_of_mem hu) _ List.mem_cons_self
      rw [lastWins_concat, ih h.1, insertLast, List.filter_eq_self.mpr fun u hu => decide_eq_true (hfree u hu)]

/-- What a loop keeps of the values with a key. -/
theorem foldl_keyed {T : Type} (f : V → T) (start : T) :
    vs.foldl (fun kept v => if key v = k then f v else kept) start = ((lastAt key vs k).map f).getD start := by
  induction vs using List.reverseRecOn with
  | nil => rfl
  | append_singleton vs v ih =>
      rw [List.foldl_concat, ih, lastAt_concat]
      split <;> rfl

/-- A map has the last value of each key. -/
theorem lastAt_lastWins : lastAt key (lastWins key vs) k = lastAt key vs k := by
  refine Option.ext fun v => ?_
  rw [lastAt_eq_some_of_nodup nodup_lastWins, mem_lastWins]
  constructor
  · rintro ⟨hlast, rfl⟩
    exact hlast
  · intro hlast
    obtain ⟨-, rfl⟩ := mem_of_lastAt hlast
    exact ⟨hlast, rfl⟩

end OpenMines.Lib.LastWins

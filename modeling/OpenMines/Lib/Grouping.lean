import Mathlib.Data.List.Dedup
import Mathlib.Data.List.Perm.Basic

namespace OpenMines.Lib.Grouping

variable {K V : Type} [DecidableEq K]

/-- The values key after key are the values, in another order. -/
theorem perm_flatMap_filter (key : V → K) {ks : List K} {l : List V} (hnodup : ks.Nodup) (h : ∀ v ∈ l, key v ∈ ks) :
    (ks.flatMap fun k => l.filter fun v => key v = k).Perm l := by
  induction ks generalizing l with
  | nil =>
      have hnil : l = [] := List.eq_nil_iff_forall_not_mem.mpr fun v hv => List.not_mem_nil (h v hv)
      rw [hnil]
      exact List.Perm.refl _
  | cons k ks ih =>
      obtain ⟨hk, hks⟩ := List.nodup_cons.mp hnodup
      have hothers : (ks.flatMap fun j => l.filter fun v => key v = j) =
          ks.flatMap fun j => (l.filter fun v => !decide (key v = k)).filter fun v => key v = j := by
        refine List.flatMap_congr fun j hj => ?_
        rw [List.filter_filter]
        refine List.filter_congr fun v _ => ?_
        by_cases hv : key v = j
        · have hne : j ≠ k := fun he => hk (he ▸ hj)
          simp [hv, hne]
        · simp [hv]
      have hmem : ∀ v ∈ l.filter fun v => !decide (key v = k), key v ∈ ks := by
        intro v hv
        obtain ⟨hl, hne⟩ := List.mem_filter.mp hv
        exact (List.mem_cons.mp (h v hl)).resolve_left (by simpa using hne)
      rw [List.flatMap_cons, hothers]
      exact ((ih hks hmem).append_left _).trans (List.filter_append_perm (fun v => decide (key v = k)) l)

omit [DecidableEq K] in
/-- What the results hold, where there is one. -/
theorem flatMap_filterMap {B : Type} (f : K → Option B) (h : B → List V) (ks : List K) :
    (ks.filterMap f).flatMap h = ks.flatMap fun k => (f k).elim [] h := by
  induction ks with
  | nil => rfl
  | cons k ks ih =>
      rw [List.filterMap_cons, List.flatMap_cons, ← ih]
      cases f k <;> rfl

/-- The keys of the entries, each once, in their order. -/
def keys (le : K → K → Bool) (entries : List (K × V)) : List K := (entries.map Prod.fst).dedup.mergeSort le

/-- What was put at a key, the first first. -/
def valuesAt (entries : List (K × V)) (k : K) : List V := (entries.filter fun e => e.1 = k).map Prod.snd

/-- A map from the keys in their order to the values that were put at them. -/
def groups (le : K → K → Bool) (entries : List (K × V)) : List (K × List V) :=
  (keys le entries).map fun k => (k, valuesAt entries k)

variable {le : K → K → Bool} {entries : List (K × V)} {k : K} {v : V} {vs : List V}

theorem mem_keys : k ∈ keys le entries ↔ ∃ v, (k, v) ∈ entries := by
  rw [keys, List.mem_mergeSort, List.mem_dedup, List.mem_map]
  constructor
  · rintro ⟨e, he, rfl⟩
    exact ⟨e.2, he⟩
  · rintro ⟨v, hv⟩
    exact ⟨(k, v), hv, rfl⟩

theorem nodup_keys : (keys le entries).Nodup :=
  (List.mergeSort_perm _ _).nodup_iff.mpr (List.nodup_dedup _)

theorem keys_groups : (groups le entries).map Prod.fst = keys le entries := by
  rw [groups, List.map_map]
  exact List.map_id _

theorem mem_valuesAt : v ∈ valuesAt entries k ↔ (k, v) ∈ entries := by
  rw [valuesAt, List.mem_map]
  constructor
  · rintro ⟨e, he, rfl⟩
    obtain ⟨hmem, hkey⟩ := List.mem_filter.mp he
    obtain rfl := of_decide_eq_true hkey
    exact hmem
  · exact fun hv => ⟨(k, v), List.mem_filter.mpr ⟨hv, decide_eq_true rfl⟩, rfl⟩

theorem mem_groups : (k, vs) ∈ groups le entries ↔ (∃ v, (k, v) ∈ entries) ∧ vs = valuesAt entries k := by
  rw [groups, List.mem_map, ← @mem_keys K V _ le]
  constructor
  · rintro ⟨j, hj, he⟩
    obtain ⟨rfl, rfl⟩ := Prod.mk.inj he
    exact ⟨hj, rfl⟩
  · rintro ⟨hk, rfl⟩
    exact ⟨k, hk, rfl⟩

end OpenMines.Lib.Grouping

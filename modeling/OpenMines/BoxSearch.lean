import OpenMines.DeathCore
import OpenMines.Lib.BoundedSearch

namespace OpenMines

open CellWorld Lib.BoundedSearch

namespace BoxSearch

variable (valid free : WorldPos → Bool) (start : WorldPos)

/-- The cells around which `pick_box_coord` looks. -/
def exploredCells : List WorldPos :=
  if valid start && free start then []
  else explored (fun p => (neighbors p).filter valid) free 100 [start] [start]

/-- A walk over cells of the world, each step from a cell around which the search looks. -/
def Reaches (k : Nat) (p : WorldPos) : Prop :=
  Walk (fun p => (neighbors p).filter valid) (· ∈ exploredCells valid free start) start k p

variable {valid free start}

theorem searchBoxCoord_eq (n : Nat) (queue visited : List WorldPos) :
    searchBoxCoord valid free n queue visited = search (fun p => (neighbors p).filter valid) free n queue visited := by
  induction n generalizing queue visited with
  | zero => rfl
  | succ n ih =>
      cases queue with
      | nil => rfl
      | cons p queue =>
          rw [searchBoxCoord, search]
          cases ((neighbors p).filter valid).find? free with
          | some q => rfl
          | none =>
              refine (ih _ _).trans ?_
              congr!

/-- A step of a walk goes to a cell of the world. -/
theorem Reaches.inWorld {k : Nat} {p : WorldPos} (h : Reaches valid free start k p) : p = start ∨ valid p = true := by
  cases h with
  | refl => exact .inl rfl
  | step _ _ hp => exact .inr (List.mem_filter.mp hp).2

theorem reaches_iff (hstart : ¬(valid start && free start) = true) {k : Nat} {p : WorldPos} :
    Reaches valid free start k p ↔ Walk (fun p => (neighbors p).filter valid)
      (· ∈ [] ++ explored (fun p => (neighbors p).filter valid) free 100 [start] [start]) start k p := by
  rw [Reaches, exploredCells, if_neg hstart, List.nil_append]

theorem reaches_of_mem {p : WorldPos} (h : p ∈ exploredCells valid free start) :
    ∃ k, Reaches valid free start k p := by
  rw [exploredCells] at h
  split at h
  · exact absurd h List.not_mem_nil
  · rename_i hstart
    obtain ⟨k, hwalk⟩ := frontier_start.reached h
    exact ⟨k, (reaches_iff hstart).mpr hwalk⟩

theorem length_exploredCells (valid free : WorldPos → Bool) (start : WorldPos) :
    (exploredCells valid free start).length ≤ 100 := by
  rw [exploredCells]
  split
  · exact Nat.zero_le 100
  · exact length_explored _ _ _

/-- Nothing is found: no cell of the walks is free. -/
theorem occupied_of_none (hstart : ¬(valid start && free start) = true) (h : searchBoxCoord valid free 100 [start] [start] = none)
    {k : Nat} {p : WorldPos} (hp : Reaches valid free start k p) (hvalid : valid p = true) : free p = false := by
  rw [searchBoxCoord_eq] at h
  rw [reaches_iff hstart] at hp
  cases hp with
  | refl => simpa [hvalid] using hstart
  | step _ hu hp => exact frontier_start.search_eq_none h hu hp

/-- Something is found: no walk to a free cell is shorter. -/
theorem nearest_of_some (hstart : ¬(valid start && free start) = true) {q : WorldPos}
    (h : searchBoxCoord valid free 100 [start] [start] = some q) :
    valid q = true ∧ free q = true ∧ ∃ k, Reaches valid free start k q ∧
      ∀ m p, Reaches valid free start m p → valid p = true → free p = true → k ≤ m := by
  rw [searchBoxCoord_eq] at h
  obtain ⟨hfree, k, hwalk, hshortest⟩ := frontier_start.search_eq_some h
  have hvalid : valid q = true := by
    cases hwalk with
    | step _ _ hq => exact (List.mem_filter.mp hq).2
  refine ⟨hvalid, hfree, k + 1, (reaches_iff hstart).mpr hwalk, fun m p hp hpvalid hpfree => ?_⟩
  cases m with
  | zero =>
      cases hp
      rw [hpvalid, hpfree] at hstart
      exact absurd rfl hstart
  | succ m => exact Nat.succ_le_succ (hshortest m p ((reaches_iff hstart).mp hp) hpfree)

/-- The search looks around a hundred cells at most, and the first free one that it finds is a nearest one. The cell
itself or nothing is the answer only where none was found, or where it was free all along. -/
theorem pickBoxCoord_nearest (valid free : WorldPos → Bool) (start : WorldPos) :
    (exploredCells valid free start).length ≤ 100 ∧
      (∀ p ∈ exploredCells valid free start, p = start ∨ valid p = true) ∧
      (∀ q, pickBoxCoord valid free start = some q → q ≠ start → valid q = true ∧ free q = true ∧
        ∃ k, Reaches valid free start k q ∧
          ∀ m p, Reaches valid free start m p → valid p = true → free p = true → k ≤ m) ∧
      (pickBoxCoord valid free start = some start → valid start = true ∧ (free start = false →
        ∀ m p, Reaches valid free start m p → valid p = true → free p = false)) ∧
      (pickBoxCoord valid free start = none → valid start = false ∧
        ∀ m p, Reaches valid free start m p → valid p = true → free p = false) ∧
      ∀ (rules : CellRules) (s : DeathWorld) (q : WorldPos), pickBoxCoord s.validCoord
        (fun p => s.isEmpty rules p && rules.canPlaceOver (s.getCell p)) start = some q → q ≠ start →
          s.getCell q ≠ boxCell ∧ rules.isEmpty (s.getCell q) = true ∧ rules.canPlaceOver (s.getCell q) = true := by
  have hfound {valid free : WorldPos → Bool} {q : WorldPos} (hpick : pickBoxCoord valid free start = some q)
      (hq : q ≠ start) : ¬(valid start && free start) = true ∧
        searchBoxCoord valid free 100 [start] [start] = some q := by
    rw [pickBoxCoord] at hpick
    split at hpick
    · exact absurd (Option.some_inj.mp hpick).symm hq
    · rename_i hstart
      refine ⟨hstart, (Option.or_eq_some_iff.mp hpick).resolve_right ?_⟩
      rintro ⟨-, hself⟩
      exact hq (Option.some_inj.mp (Option.ite_none_right_eq_some.mp hself).2).symm
  refine ⟨length_exploredCells valid free start, ?_, ?_, ?_, ?_, ?_⟩
  · intro p hp
    obtain ⟨k, hreaches⟩ := reaches_of_mem hp
    exact hreaches.inWorld
  · intro q hpick hq
    obtain ⟨hstart, hsearch⟩ := hfound hpick hq
    exact nearest_of_some hstart hsearch
  · intro hpick
    rw [pickBoxCoord] at hpick
    split at hpick
    · rename_i hstart
      obtain ⟨hvalid, hfree⟩ := Bool.and_eq_true_iff.mp hstart
      refine ⟨hvalid, fun hoccupied => ?_⟩
      rw [hfree] at hoccupied
      cases hoccupied
    · rename_i hstart
      rcases Option.or_eq_some_iff.mp hpick with hsearch | ⟨hnone, hself⟩
      · obtain ⟨hvalid, hfree, -⟩ := nearest_of_some hstart hsearch
        rw [hvalid, hfree] at hstart
        exact absurd rfl hstart
      · exact ⟨(Option.ite_none_right_eq_some.mp hself).1, fun _ m p => occupied_of_none hstart hnone⟩
  · intro hpick
    rw [pickBoxCoord] at hpick
    split at hpick
    · cases hpick
    · rename_i hstart
      obtain ⟨hnone, hself⟩ := Option.or_eq_none_iff.mp hpick
      refine ⟨?_, fun m p => occupied_of_none hstart hnone⟩
      cases hvalid : valid start with
      | false => rfl
      | true =>
          rw [hvalid] at hself
          cases hself
  · intro rules s q hpick hq
    obtain ⟨hstart, hsearch⟩ := hfound hpick hq
    obtain ⟨-, hfree, -⟩ := nearest_of_some hstart hsearch
    obtain ⟨hempty, hover⟩ := Bool.and_eq_true_iff.mp hfree
    refine ⟨fun hbox => ?_, hempty, hover⟩
    rw [DeathWorld.isEmpty, hbox, rules.boxSolid.1] at hempty
    cases hempty

end BoxSearch

end OpenMines

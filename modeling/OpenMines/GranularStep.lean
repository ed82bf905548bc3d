import OpenMines.GranularAnalysis

namespace OpenMines

open CellGrid

section Move

variable {defs : CellDefs} {g : CellGrid} {p : Pos} {i : GranularIntent} {srcOk destOk : Bool}

@[simp] theorem validCoord_moveGrain :
    (moveGrain defs g i srcOk destOk).validCoord p = g.validCoord p := by
  simp [moveGrain]

@[simp] theorem coords_moveGrain : (moveGrain defs g i srcOk destOk).coords = g.coords := by
  simp [moveGrain]

theorem moveGrain_of_ne (hsrc : p ≠ i.src) (hdest : p ≠ i.dest) :
    (moveGrain defs g i srcOk destOk).getCell p = g.getCell p ∧
      (moveGrain defs g i srcOk destOk).getDurability p = g.getDurability p := by
  obtain ⟨hcell, hdur⟩ := writeWorldCell_of_ne defs (g.setCellTyped defs i.src emptyCell srcOk)
    ⟨i.cell, g.getDurability i.src⟩ destOk hdest
  obtain ⟨hcell', hdur'⟩ := writeWorldCell_of_ne defs g
    ⟨emptyCell, if defs.isEmpty emptyCell then 0 else defs.durability emptyCell⟩ srcOk hsrc
  exact ⟨hcell.trans hcell', hdur.trans hdur'⟩

theorem setCellTyped_empty (hvalid : g.validCoord p = true) :
    (g.setCellTyped defs p emptyCell true).getCell p = emptyCell :=
  (writeWorldCell_self hvalid (show emptyCell ≠ 0 by decide)).1

theorem passable_emptyCell (hempty : defs.isEmpty emptyCell = true) : defs.passable emptyCell = true := by
  rw [CellDefs.passable, hempty]
  rfl

/-- A move takes no passable cell away but its destination. -/
theorem isPassable_moveGrain (hempty : defs.isEmpty emptyCell = true) (hdest : p ≠ i.dest)
    (h : isPassable defs g p = true) : isPassable defs (moveGrain defs g i srcOk destOk) p = true := by
  simp only [isPassable, Bool.and_eq_true, validCoord_moveGrain] at h ⊢
  refine ⟨h.1, ?_⟩
  by_cases hsrc : p = i.src
  · subst hsrc
    have hlast := writeWorldCell_of_ne defs (g.setCellTyped defs i.src emptyCell srcOk)
      ⟨i.cell, g.getDurability i.src⟩ destOk hdest
    rw [moveGrain, hlast.1]
    cases srcOk with
    | true =>
        rw [setCellTyped_empty h.1]
        exact passable_emptyCell hempty
    | false =>
        rw [setCellTyped, writeWorldCell_failed]
        exact h.2
  · rw [(moveGrain_of_ne hsrc hdest).1]
    exact h.2

end Move

section Apply

variable {defs : CellDefs} {g : CellGrid} {p : Pos} {io : List (Bool × Bool)} {is : List GranularIntent}

theorem validCoord_apply :
    (applyGranularIntents defs g io is).grid.validCoord p = g.validCoord p := by
  induction is generalizing g io with
  | nil => rfl
  | cons i is ih =>
      rw [applyGranularIntents]
      split
      · exact ih.trans validCoord_moveGrain
      · exact ih

theorem coords_apply : (applyGranularIntents defs g io is).grid.coords = g.coords := by
  induction is generalizing g io with
  | nil => rfl
  | cons i is ih =>
      rw [applyGranularIntents]
      split
      · exact ih.trans coords_moveGrain
      · exact ih

/-- All that a step changes lies at an anchor. -/
theorem apply_of_notMem (hp : p ∉ (applyGranularIntents defs g io is).anchors) :
    (applyGranularIntents defs g io is).grid.getCell p = g.getCell p ∧
      (applyGranularIntents defs g io is).grid.getDurability p = g.getDurability p := by
  induction is generalizing g io with
  | nil => exact ⟨rfl, rfl⟩
  | cons i is ih =>
      rw [applyGranularIntents] at hp ⊢
      split at hp
      · rename_i hpass
        rw [if_pos hpass]
        simp only [List.mem_cons, not_or] at hp
        obtain ⟨hcell, hdur⟩ := moveGrain_of_ne (g := g) hp.1 hp.2.1
        obtain ⟨hcell', hdur'⟩ := ih hp.2.2
        exact ⟨hcell'.trans hcell, hdur'.trans hdur⟩
      · rename_i hpass
        rw [if_neg hpass]
        simp only [List.mem_cons, not_or] at hp
        exact ih hp.2

/-- Every source is an anchor, of a move that was made or of one that was not. -/
theorem src_mem_anchors {i : GranularIntent} (hi : i ∈ is) :
    i.src ∈ (applyGranularIntents defs g io is).anchors := by
  induction is generalizing g io with
  | nil => cases hi
  | cons j is ih =>
      rw [applyGranularIntents]
      split
      · rcases List.mem_cons.mp hi with rfl | hi
        · exact List.mem_cons_self
        · exact List.mem_cons_of_mem _ (List.mem_cons_of_mem _ (ih hi))
      · rcases List.mem_cons.mp hi with rfl | hi
        · exact List.mem_cons_self
        · exact List.mem_cons_of_mem _ (ih hi)

/-- A passable cell that is blocked after the step is where a grain went. -/
theorem exists_dest_of_blocked (hempty : defs.isEmpty emptyCell = true) (hbefore : isPassable defs g p = true)
    (hafter : isPassable defs (applyGranularIntents defs g io is).grid p = false) :
    ∃ i ∈ is, i.dest = p := by
  induction is generalizing g io with
  | nil =>
      rw [applyGranularIntents, hbefore] at hafter
      cases hafter
  | cons i is ih =>
      by_cases hdest : i.dest = p
      · exact ⟨i, List.mem_cons_self, hdest⟩
      · rw [applyGranularIntents] at hafter
        split at hafter
        · obtain ⟨j, hj, hjdest⟩ := ih (isPassable_moveGrain hempty (Ne.symm hdest) hbefore) hafter
          exact ⟨j, List.mem_cons_of_mem _ hj, hjdest⟩
        · obtain ⟨j, hj, hjdest⟩ := ih hbefore hafter
          exact ⟨j, List.mem_cons_of_mem _ hj, hjdest⟩

end Apply

section Canonical

theorem mem_canonicalize {is : List GranularIntent} {i : GranularIntent}
    (hi : i ∈ canonicalizeGranularIntents is) : i ∈ is := by
  have hmem := (List.destutter_sublist _ _).subset hi
  rwa [List.mem_mergeSort] at hmem

theorem exists_mem_destutter' (a : GranularIntent) (l : List GranularIntent) :
    ∀ i ∈ a :: l, ∃ j ∈ l.destutter' (fun a b => a.src ≠ b.src) a, j.src = i.src := by
  induction l generalizing a with
  | nil =>
      intro i hi
      exact ⟨i, hi, rfl⟩
  | cons b l ih =>
      intro i hi
      by_cases hab : a.src ≠ b.src
      · rw [List.destutter', if_pos hab]
        rcases List.mem_cons.mp hi with rfl | hi
        · exact ⟨i, List.mem_cons_self, rfl⟩
        · obtain ⟨j, hj, hsrc⟩ := ih b i hi
          exact ⟨j, List.mem_cons_of_mem _ hj, hsrc⟩
      · rw [List.destutter', if_neg hab]
        rcases List.mem_cons.mp hi with rfl | hi
        · exact ih i i List.mem_cons_self
        · rcases List.mem_cons.mp hi with rfl | hi
          · obtain ⟨j, hj, hsrc⟩ := ih a a List.mem_cons_self
            exact ⟨j, hj, hsrc.trans (not_not.mp hab)⟩
          · exact ih a i (List.mem_cons_of_mem _ hi)

/-- No source is dropped. -/
theorem exists_mem_canonicalize {is : List GranularIntent} {i : GranularIntent} (hi : i ∈ is) :
    ∃ j ∈ canonicalizeGranularIntents is, j.src = i.src := by
  unfold canonicalizeGranularIntents
  have hmem : i ∈ is.mergeSort GranularIntent.stableLe := List.mem_mergeSort.mpr hi
  cases hsorted : is.mergeSort GranularIntent.stableLe with
  | nil =>
      rw [hsorted] at hmem
      cases hmem
  | cons a l =>
      rw [hsorted] at hmem
      exact exists_mem_destutter' a l i hmem

end Canonical

end OpenMines

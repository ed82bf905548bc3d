import OpenMines.MapInvariant

namespace OpenMines.MapFormat.MapStore

theorem setCell_of_locate_none {m : MapStore} {x y : Int32} (cell : UInt8)
    (h : m.locate x y = none) : m.setCell x y cell = m := by
  unfold setCell
  rw [h]

theorem setCell_of_slot {m : MapStore} {x y : Int32} {id c slot : Nat} (cell : UInt8)
    (hloc : m.locate x y = some (id, c)) (hs : m.slotOf id = some slot) :
    m.setCell x y cell = m.writeSlot slot c cell := by
  unfold setCell
  simp only [hloc, hs]

theorem setCell_of_fresh {m : MapStore} {x y : Int32} {id c : Nat} (cell : UInt8)
    (hloc : m.locate x y = some (id, c)) (hs : m.slotOf id = none) :
    m.setCell x y cell = (m.allocate id).writeSlot m.blocks.length c cell := by
  unfold setCell
  simp only [hloc, hs]

theorem markSlotDirty_indexed {m : MapStore} (hm : m.Indexed) (slot : Nat) :
    (m.markSlotDirty slot).Indexed := by
  unfold markSlotDirty
  split
  · rename_i hclean
    have hfresh : slot ∉ m.dirtySlots := by
      rw [hm.mem_dirtySlots, hclean]
      simp
    obtain ⟨hlt, -⟩ := List.getElem?_eq_some_iff.mp hclean
    exact { hm with
      length_dirty := by simpa using hm.length_dirty
      nodup_dirtySlots := List.nodup_append.mpr ⟨hm.nodup_dirtySlots, List.nodup_singleton _, by
        intro a ha b hb he
        rw [List.mem_singleton] at hb
        exact hfresh (hb ▸ he ▸ ha)⟩
      mem_dirtySlots := by
        intro s
        simp only [List.mem_append, List.mem_singleton]
        by_cases hs : s = slot
        · subst hs
          simp [List.getElem?_set_self hlt]
        · simp [hs, List.getElem?_set_ne (Ne.symm hs), hm.mem_dirtySlots] }
  · exact hm

theorem modify_indexed {m : MapStore} (hm : m.Indexed) (slot : Nat) (f : Block → Block) :
    Indexed { m with blocks := m.blocks.modify slot f } :=
  { hm with
    length_backIndex := by simpa using hm.length_backIndex
    length_dirty := by simpa using hm.length_dirty }

theorem writeSlot_indexed {m : MapStore} (hm : m.Indexed) (slot cellIdx : Nat) (cell : UInt8) :
    (m.writeSlot slot cellIdx cell).Indexed :=
  markSlotDirty_indexed (modify_indexed hm slot _) slot

@[simp] theorem markSlotDirty_indexes (m : MapStore) (slot : Nat) :
    (m.markSlotDirty slot).indexes = m.indexes := by unfold markSlotDirty; split <;> rfl

@[simp] theorem markSlotDirty_blocks (m : MapStore) (slot : Nat) :
    (m.markSlotDirty slot).blocks = m.blocks := by unfold markSlotDirty; split <;> rfl

@[simp] theorem markSlotDirty_backIndex (m : MapStore) (slot : Nat) :
    (m.markSlotDirty slot).backIndex = m.backIndex := by unfold markSlotDirty; split <;> rfl

@[simp] theorem markSlotDirty_width (m : MapStore) (slot : Nat) :
    (m.markSlotDirty slot).width = m.width := by unfold markSlotDirty; split <;> rfl

@[simp] theorem markSlotDirty_height (m : MapStore) (slot : Nat) :
    (m.markSlotDirty slot).height = m.height := by unfold markSlotDirty; split <;> rfl

@[simp] theorem markSlotDirty_blocksW (m : MapStore) (slot : Nat) :
    (m.markSlotDirty slot).blocksW = m.blocksW := by unfold markSlotDirty; split <;> rfl

@[simp] theorem markSlotDirty_blocksH (m : MapStore) (slot : Nat) :
    (m.markSlotDirty slot).blocksH = m.blocksH := by unfold markSlotDirty; split <;> rfl

@[simp] theorem slotOf_markSlotDirty (m : MapStore) (slot id : Nat) :
    (m.markSlotDirty slot).slotOf id = m.slotOf id := by simp [slotOf]

@[simp] theorem slotOf_writeSlot (m : MapStore) (slot cellIdx id : Nat) (cell : UInt8) :
    (m.writeSlot slot cellIdx cell).slotOf id = m.slotOf id := by simp [writeSlot, slotOf]

theorem blocks_writeSlot (m : MapStore) (slot cellIdx : Nat) (cell : UInt8) :
    (m.writeSlot slot cellIdx cell).blocks =
      m.blocks.modify slot (·.setIfInBounds cellIdx cell) := by simp [writeSlot]

theorem markSlotDirty_wellFormed {m : MapStore} (hm : m.WellFormed) (slot : Nat) :
    (m.markSlotDirty slot).WellFormed where
  toIndexed := markSlotDirty_indexed hm.toIndexed slot
  back_lt := by simpa using hm.back_lt

theorem writeSlot_wellFormed {m : MapStore} (hm : m.WellFormed) (slot cellIdx : Nat) (cell : UInt8) :
    (m.writeSlot slot cellIdx cell).WellFormed where
  toIndexed := writeSlot_indexed hm.toIndexed slot cellIdx cell
  back_lt := by simpa [writeSlot] using hm.back_lt

theorem setCell_wellFormed {m : MapStore} (hm : m.WellFormed) (x y : Int32) (cell : UInt8) :
    (m.setCell x y cell).WellFormed := by
  cases hloc : m.locate x y with
  | none => rwa [setCell_of_locate_none cell hloc]
  | some p =>
      obtain ⟨hgrid, hid, -⟩ := locate_lt hm.toIndexed hloc
      cases hs : m.slotOf p.1 with
      | some slot =>
          rw [setCell_of_slot cell hloc hs]
          exact writeSlot_wellFormed hm _ _ _
      | none =>
          rw [setCell_of_fresh cell hloc hs]
          exact writeSlot_wellFormed (allocate_wellFormed hm hgrid hid hs) _ _ _

/-- Setting a cell never moves the grid. -/
theorem setCell_shape (m : MapStore) (x y : Int32) (cell : UInt8) :
    (m.setCell x y cell).width = m.width ∧ (m.setCell x y cell).height = m.height ∧
      (m.setCell x y cell).blocksW = m.blocksW ∧ (m.setCell x y cell).blocksH = m.blocksH := by
  unfold setCell
  split
  · exact ⟨rfl, rfl, rfl, rfl⟩
  · split <;> simp [writeSlot, allocate]

theorem locate_congr {m n : MapStore} (hw : m.blocksW = n.blocksW) (hh : m.blocksH = n.blocksH)
    (x y : Int32) : m.locate x y = n.locate x y := by
  unfold locate
  rw [hw, hh]

@[simp] theorem locate_setCell (m : MapStore) (x y i j : Int32) (cell : UInt8) :
    (m.setCell x y cell).locate i j = m.locate i j :=
  locate_congr (setCell_shape m x y cell).2.2.1 (setCell_shape m x y cell).2.2.2 i j

theorem blockCell_writeSlot (m : MapStore) {slot cellIdx : Nat} (cell : UInt8)
    (hslot : slot < m.blocks.length) (hcell : cellIdx < blockCells) (s k : Nat) :
    (((m.writeSlot slot cellIdx cell).blocks[s]?).bind (fun b => b[k]?)).getD 0 =
      if s = slot ∧ k = cellIdx then cell
      else ((m.blocks[s]?).bind (fun b => b[k]?)).getD 0 := by
  rw [blocks_writeSlot, List.getElem?_modify]
  by_cases hs : slot = s
  · subst hs
    rw [List.getElem?_eq_getElem hslot]
    by_cases hk : k = cellIdx
    · subst hk
      simp [hcell]
    · simp [hk, Ne.symm hk]
  · simp [hs, Ne.symm hs]

theorem cellAt_writeSlot {m : MapStore} (hm : m.Indexed) {id slot cellIdx : Nat} (cell : UInt8)
    (h : m.slotOf id = some slot) (hcell : cellIdx < blockCells) (j k : Nat) :
    (m.writeSlot slot cellIdx cell).cellAt j k =
      if j = id ∧ k = cellIdx then cell else m.cellAt j k := by
  have hslot := (slotOf_lt hm h).1
  unfold cellAt
  rw [slotOf_writeSlot]
  cases hj : m.slotOf j with
  | none =>
      have hne : j ≠ id := by
        rintro rfl
        rw [h] at hj
        cases hj
      simp [hne]
  | some s =>
      have hiff : s = slot ↔ j = id := by
        constructor
        · rintro rfl
          exact Option.some.inj ((hm.back_of_slot j s hj).symm.trans (hm.back_of_slot id s h))
        · rintro rfl
          exact Option.some.inj (hj.symm.trans h)
      simp only [blockCell_writeSlot m cell hslot hcell, hiff]

theorem cellAt_allocate {m : MapStore} (hm : m.Indexed) {id : Nat} (hgrid : id < m.grid)
    (hn : m.blocks.length < 2 ^ 31) (h : m.slotOf id = none) (j k : Nat) :
    (m.allocate id).cellAt j k = m.cellAt j k := by
  have hslot := slotOf_allocate (hm.length_indexes ▸ hgrid) hn j
  unfold cellAt
  rw [hslot]
  by_cases hj : j = id
  · subst hj
    rw [if_pos rfl, h]
    simp only [allocate, List.getElem?_concat_length, Option.bind_some, emptyBlock,
      Vector.getElem?_replicate]
    split <;> rfl
  · rw [if_neg hj]
    cases hs : m.slotOf j with
    | none => rfl
    | some s =>
        have hlt := (slotOf_lt hm hs).1
        simp only [allocate, List.getElem?_append_left hlt]

/-- A write changes the addressed cell and no other, whether or not it has to
allocate the block. -/
theorem cellAt_setCell {m : MapStore} (hm : m.Indexed) {x y : Int32} {id c : Nat} (cell : UInt8)
    (hloc : m.locate x y = some (id, c)) (hfits : m.slotOf id = none → m.blocks.length < 2 ^ 31)
    (j k : Nat) :
    (m.setCell x y cell).cellAt j k = if j = id ∧ k = c then cell else m.cellAt j k := by
  obtain ⟨hgrid, -, hc⟩ := locate_lt hm hloc
  cases hs : m.slotOf id with
  | some slot =>
      rw [setCell_of_slot cell hloc hs]
      exact cellAt_writeSlot hm cell hs hc j k
  | none =>
      rw [setCell_of_fresh cell hloc hs]
      have hnew : (m.allocate id).slotOf id = some m.blocks.length := by
        rw [slotOf_allocate (hm.length_indexes ▸ hgrid) (hfits hs), if_pos rfl]
      have hwf := allocate_indexed hm hgrid (hfits hs) hs
      rw [cellAt_writeSlot hwf cell hnew hc, cellAt_allocate hm hgrid (hfits hs) hs]

end OpenMines.MapFormat.MapStore

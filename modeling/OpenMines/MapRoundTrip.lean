import OpenMines.MapFile

namespace OpenMines.MapFormat.MapStore

open Lib.LittleEndian

/-- The store as it comes back from its own file: same cells, nothing dirty. -/
def saved (m : MapStore) : MapStore :=
  { m with
    dirty := List.replicate m.blocks.length false
    dirtySlots := []
    indexDirty := false
    needsHeader := false
    nextFlushGeneration := 0 }

@[simp] theorem serialize_saved (m : MapStore) : m.saved.serialize = m.serialize := rfl

@[simp] theorem slotOf_saved (m : MapStore) (id : Nat) : m.saved.slotOf id = m.slotOf id := rfl

@[simp] theorem cellAt_saved (m : MapStore) (id c : Nat) : m.saved.cellAt id c = m.cellAt id c := rfl

@[simp] theorem getCell_saved (m : MapStore) (x y : Int32) : m.saved.getCell x y = m.getCell x y := rfl

theorem saved_wellFormed {m : MapStore} (hm : m.WellFormed) : m.saved.WellFormed :=
  { hm with
    length_dirty := by simp [saved]
    nodup_dirtySlots := List.nodup_nil
    mem_dirtySlots := by simp [saved, List.getElem?_replicate] }

theorem new_eq_ok {m : MapStore} (hm : m.Indexed) :
    ∃ store, new m.width m.height = .ok store ∧ store.width = m.width ∧ store.height = m.height ∧
      store.blocksW = m.blocksW ∧ store.blocksH = m.blocksH ∧
      store.indexes.length = m.indexes.length ∧ store.nextFlushGeneration = 0 := by
  have hz : (0 : Int32).toInt = 0 := by decide
  have hw := Int32.lt_iff_toInt_lt.mp hm.width_pos
  have hh := Int32.lt_iff_toInt_lt.mp hm.height_pos
  have hbw := Int32.lt_iff_toInt_lt.mp hm.blocksW_pos
  have hbh := Int32.lt_iff_toInt_lt.mp hm.blocksH_pos
  have huw : toUsize m.blocksW = some m.blocksW.toNatClampNeg := by
    rw [toUsize_eq_some, ← Int32.toNat_toInt]
    omega
  have huh : toUsize m.blocksH = some m.blocksH.toNatClampNeg := by
    rw [toUsize_eq_some, ← Int32.toNat_toInt]
    omega
  unfold new
  rw [if_neg (by rw [Int32.le_iff_toInt_le, Int32.le_iff_toInt_le]; omega)]
  simp only [← hm.blocksW_eq, ← hm.blocksH_eq]
  rw [if_neg (by rw [Int32.le_iff_toInt_le, Int32.le_iff_toInt_le]; omega), huw, huh]
  exact ⟨_, rfl, rfl, rfl, rfl, rfl, by simp [hm.length_indexes, grid], rfl⟩

theorem serialize_header (m : MapStore) : m.serialize.take 4 = i32ToBytes m.width ∧
    (m.serialize.drop 4).take 4 = i32ToBytes m.height ∧
    m.serialize.drop headerBytes =
      m.indexes.flatMap i32ToBytes ++ m.blocks.flatMap Vector.toList := by
  have hw := length_i32ToBytes m.width
  have hh := length_i32ToBytes m.height
  simp only [serialize, List.append_assoc, headerBytes]
  refine ⟨List.take_left' hw, ?_, ?_⟩
  · rw [List.drop_left' hw, List.take_left' hh]
  · rw [← List.append_assoc, List.drop_left' (by rw [List.length_append, hw, hh])]

theorem names_indexes {m : MapStore} {id slot : Nat} :
    Names m.indexes id slot ↔ m.slotOf id = some slot := slotOf_eq_some.symm

theorem index_entry {m : MapStore} (hm : m.Indexed) {v : Int32} (hv : v ∈ m.indexes)
    (hne : v ≠ noSlot) : ∃ s, toUsize v = some s ∧ s < m.blocks.length := by
  obtain ⟨id, hid⟩ := List.mem_iff_getElem?.mp hv
  have hnn := hm.index_nonneg v hv hne
  have hs : toUsize v = some v.toInt.toNat := toUsize_eq_some.mpr (by omega)
  exact ⟨_, hs, (slotOf_lt hm (slotOf_eq_some.mpr ⟨v, hid, hne, hs⟩)).1⟩

theorem last_slot_named {m : MapStore} (hm : m.Indexed) (hpos : 0 < m.blocks.length) :
    ∃ id, Names m.indexes id (m.blocks.length - 1) := by
  have hlt : m.blocks.length - 1 < m.backIndex.length := by
    rw [hm.length_backIndex]
    omega
  exact ⟨_, names_indexes.mpr (hm.slot_of_back _ _ (List.getElem?_eq_getElem hlt))⟩

theorem fillBackIndex_indexes {m : MapStore} (hm : m.Indexed) :
    fillBackIndex m.blocks.length 0 m.indexes (List.replicate m.blocks.length 0) =
      .ok m.backIndex := by
  obtain ⟨filled, hrun, hlen, -, hset⟩ := fillBackIndex_spec m.indexes 0
    (List.replicate m.blocks.length 0) (fun v hv hne => index_entry hm hv hne)
  rw [List.length_replicate] at hlen hset
  rw [hrun]
  congr 1
  apply List.ext_getElem?
  intro s
  by_cases hs : s < m.blocks.length
  · have hlt : s < m.backIndex.length := hm.length_backIndex ▸ hs
    have hback : m.backIndex[s]? = some m.backIndex[s] := List.getElem?_eq_getElem hlt
    have hslot := hm.slot_of_back s _ hback
    rw [hback]
    refine hset s _ hs ⟨_, names_indexes.mpr hslot⟩ ?_
    intro i hi
    have hi := hm.back_of_slot i s (names_indexes.mp hi)
    rw [hback] at hi
    rw [Nat.zero_add, Option.some.inj hi]
  · rw [List.getElem?_eq_none (by omega), List.getElem?_eq_none (by rw [hm.length_backIndex]; omega)]

/-- The reader on a header, an index table that fills `backIndex`, and as many
blocks as the table asks for. -/
theorem deserialize_of_table {m store : MapStore} (hnew : new m.width m.height = .ok store)
    (hlen : store.indexes.length = m.indexes.length)
    (hsize : (toUsize (indexSize m.indexes)).getD 0 = m.blocks.length)
    (hfill : fillBackIndex m.blocks.length 0 m.indexes (List.replicate m.blocks.length 0) =
      .ok m.backIndex) :
    deserialize m.serialize = .ok
      { store with
        indexes := m.indexes
        backIndex := m.backIndex
        blocks := m.blocks
        dirty := List.replicate m.blocks.length false
        dirtySlots := []
        indexDirty := false
        needsHeader := false } := by
  obtain ⟨hwidth, hheight, htail⟩ := serialize_header m
  have hblocks : m.serialize.drop (headerBytes + m.indexes.length * 4) =
      m.blocks.flatMap Vector.toList := by
    rw [← List.drop_drop, htail, List.drop_left' (length_table _)]
  unfold deserialize
  rw [hwidth, hheight, i32OfBytes_i32ToBytes, i32OfBytes_i32ToBytes, hnew, length_serialize]
  simp only [hlen]
  rw [htail, readTable_flatMap, hsize, hfill, hblocks, if_neg (by omega), if_neg (by omega),
    if_neg (by omega)]
  have hread := readBlocks_flatMap m.blocks []
  rw [List.append_nil] at hread
  rw [hread]

theorem deserialize_serialize {m : MapStore} (hm : m.Indexed) (hn : m.blocks.length < 2 ^ 31) :
    deserialize m.serialize = .ok m.saved := by
  obtain ⟨store, hnew, hsw, hsh, hbw, hbh, hlen, hgen⟩ := new_eq_ok hm
  have hsize : (toUsize (indexSize m.indexes)).getD 0 = m.blocks.length := by
    rw [toUsize_indexSize hn (fun v hv hne => index_entry hm hv hne) (last_slot_named hm)]
    rfl
  rw [deserialize_of_table hnew hlen hsize (fillBackIndex_indexes hm)]
  cases store
  simp only at hsw hsh hbw hbh hgen
  subst hsw hsh hbw hbh hgen
  rfl

/-- The reader never accepts a table with the largest `i32`: `v + 1` wraps, so
that slot is never below the number of slots. -/
theorem deserialize_full {m : MapStore} (hm : m.Indexed) (hn : m.blocks.length = 2 ^ 31) :
    ∃ e, deserialize m.serialize = .error e := by
  obtain ⟨hwidth, hheight, htail⟩ := serialize_header m
  obtain ⟨store, hnew, -, -, -, -, hlen, -⟩ := new_eq_ok hm
  cases hrun : deserialize m.serialize with
  | error e => exact ⟨e, rfl⟩
  | ok loaded =>
      exfalso
      unfold deserialize at hrun
      rw [hwidth, hheight, i32OfBytes_i32ToBytes, i32OfBytes_i32ToBytes, hnew] at hrun
      simp only [hlen, htail, readTable_flatMap] at hrun
      split at hrun
      · cases hrun
      · split at hrun
        · cases hrun
        · split at hrun
          · cases hrun
          · split at hrun
            · cases hrun
            · rename_i back hfill
              obtain ⟨id, v, hv, hne, hs⟩ := last_slot_named hm (by omega)
              obtain ⟨s, hs', hlt⟩ := fillBackIndex_entries hfill v (List.mem_of_getElem? hv) hne
              rw [hs] at hs'
              have := Option.some.inj hs'
              have := indexSize_slots_lt m.indexes
              omega

end OpenMines.MapFormat.MapStore

import OpenMines.MapFlush
import Mathlib.Data.List.Dedup

namespace OpenMines.MapFormat.MapStore

def setCells (m : MapStore) (ops : List (Int32 × Int32 × UInt8)) : MapStore :=
  ops.foldl (fun m op => m.setCell op.1 op.2.1 op.2.2) m

/-- The blocks that a list of `setCell` calls addresses. -/
def addressed (m : MapStore) (ops : List (Int32 × Int32 × UInt8)) : List Nat :=
  ops.filterMap (fun op => (m.locate op.1 op.2.1).map Prod.fst)

/-- The file of a store reads back as a store with the same cells and the same
file. -/
def RoundTrips (m : MapStore) : Prop :=
  ∃ m', deserialize m.serialize = .ok m' ∧ (∀ x y, m'.getCell x y = m.getCell x y) ∧
    m'.serialize = m.serialize

theorem setCells_wellFormed {m : MapStore} (hm : m.WellFormed) (ops : List (Int32 × Int32 × UInt8)) :
    (m.setCells ops).WellFormed := by
  induction ops generalizing m with
  | nil => exact hm
  | cons op ops ih => exact ih (setCell_wellFormed hm op.1 op.2.1 op.2.2)

theorem addressed_setCell (m : MapStore) (x y : Int32) (cell : UInt8)
    (ops : List (Int32 × Int32 × UInt8)) :
    (m.setCell x y cell).addressed ops = m.addressed ops := by simp [addressed]

theorem mem_backIndex_setCell {m : MapStore} (hm : m.WellFormed) (x y : Int32) (cell : UInt8)
    (id : Nat) : id ∈ (m.setCell x y cell).backIndex ↔
      id ∈ m.backIndex ∨ (m.locate x y).map Prod.fst = some id := by
  cases hloc : m.locate x y with
  | none => simp [setCell_of_locate_none cell hloc]
  | some q =>
      cases hs : m.slotOf q.1 with
      | some slot =>
          rw [setCell_of_slot cell hloc hs]
          simp only [writeSlot, markSlotDirty_backIndex, Option.map_some, Option.some.injEq]
          constructor
          · exact Or.inl
          · rintro (h | rfl)
            · exact h
            · exact List.mem_of_getElem? (hm.back_of_slot _ _ hs)
      | none =>
          rw [setCell_of_fresh cell hloc hs]
          simp [writeSlot, allocate, eq_comm]

theorem mem_backIndex_setCells {m : MapStore} (hm : m.WellFormed)
    (ops : List (Int32 × Int32 × UInt8)) (id : Nat) :
    id ∈ (m.setCells ops).backIndex ↔ id ∈ m.backIndex ∨ id ∈ m.addressed ops := by
  induction ops generalizing m with
  | nil => simp [setCells, addressed]
  | cons op ops ih =>
      have hstep := ih (setCell_wellFormed hm op.1 op.2.1 op.2.2)
      rw [addressed_setCell, mem_backIndex_setCell hm] at hstep
      rw [setCells, List.foldl_cons]
      change id ∈ ((m.setCell op.1 op.2.1 op.2.2).setCells ops).backIndex ↔ _
      rw [hstep, or_assoc]
      simp only [addressed, List.filterMap_cons]
      cases (m.locate op.1 op.2.1).map Prod.fst with
      | none => simp
      | some j => simp [eq_comm]

/-- A store holds one block for each block that was addressed. -/
theorem length_blocks_setCells {width height : Int32} {m : MapStore} (hnew : new width height = .ok m)
    (ops : List (Int32 × Int32 × UInt8)) :
    (m.setCells ops).blocks.length = (m.addressed ops).dedup.length := by
  have hm := new_wellFormed hnew
  have hreach := setCells_wellFormed hm ops
  rw [← hreach.length_backIndex]
  refine ((List.perm_ext_iff_of_nodup (nodup_backIndex hreach.toIndexed) (List.nodup_dedup _)).mpr ?_).length_eq
  intro id
  have hempty : m.backIndex = [] := by rw [(new_spec hnew).2.2.2.2]
  rw [mem_backIndex_setCells hm, hempty, List.mem_dedup]
  simp

theorem length_blocks_le {m : MapStore} (hm : m.WellFormed) : m.blocks.length ≤ 2 ^ 31 := by
  have hsub : m.backIndex ⊆ List.range (2 ^ 31) :=
    fun id hid => List.mem_range.mpr (hm.back_lt id hid)
  have hle := (List.Nodup.subperm (nodup_backIndex hm.toIndexed) hsub).length_le
  rwa [List.length_range, hm.length_backIndex] at hle

theorem roundTrips_of_lt {m : MapStore} (hm : m.Indexed) (h : m.blocks.length < 2 ^ 31) :
    m.RoundTrips :=
  ⟨m.saved, deserialize_serialize hm h, getCell_saved m, serialize_saved m⟩

theorem not_roundTrips_of_full {m : MapStore} (hm : m.Indexed) (h : m.blocks.length = 2 ^ 31) :
    ¬ m.RoundTrips := by
  rintro ⟨m', hok, -⟩
  obtain ⟨e, he⟩ := deserialize_full hm h
  rw [he] at hok
  cases hok

/-- Every operation keeps the invariant, and a reachable store survives its own
file as long as the calls address fewer than `2 ^ 31` blocks. -/
theorem roundTrips_setCells {width height : Int32} {m : MapStore} (hnew : new width height = .ok m)
    (ops : List (Int32 × Int32 × UInt8)) :
    (m.setCells ops).WellFormed ∧
      ((m.setCells ops).RoundTrips ↔ (m.addressed ops).dedup.length < 2 ^ 31) ∧
      ∀ n : MapStore, n.WellFormed →
        (∀ x y cell, (n.setCell x y cell).WellFormed) ∧
        (∀ b n', n.takeFlushBatch = some (b, n') → n'.WellFormed) ∧
        ∀ b, (n.restoreFlushBatch b).WellFormed := by
  have hreach := setCells_wellFormed (new_wellFormed hnew) ops
  refine ⟨hreach, ?_, ?_⟩
  · rw [← length_blocks_setCells hnew]
    constructor
    · intro hround
      have hle := length_blocks_le hreach
      by_contra hge
      exact not_roundTrips_of_full hreach.toIndexed (by omega) hround
    · exact roundTrips_of_lt hreach.toIndexed
  · intro n hn
    exact ⟨setCell_wellFormed hn, fun _ _ h => takeFlushBatch_wellFormed hn h,
      restoreFlushBatch_wellFormed hn⟩

theorem roundTrips_setCells_two : ∃ m, new 64 32 = .ok m ∧
    (m.setCells [(40, 3, 7), (1, 2, 9), (41, 3, 8)]).RoundTrips := by
  have hnew : ∃ m, new 64 32 = .ok m := ⟨_, rfl⟩
  obtain ⟨m, hnew⟩ := hnew
  refine ⟨m, hnew, (roundTrips_setCells hnew _).2.1.mpr ?_⟩
  exact (List.Sublist.length_le (List.dedup_sublist _)).trans_lt
    ((List.length_filterMap_le _ _).trans_lt (by decide))

/-- A world of 65536 by 32768 blocks. -/
def hugeWorld : Except String MapStore := new 2097152 1048576

/-- One cell in each of the first `n` blocks of the huge world. -/
def oneCellPerBlock (n : Nat) : List (Int32 × Int32 × UInt8) :=
  (List.range n).map (fun id =>
    (Int32.ofNat (32 * (id % 65536)), Int32.ofNat (32 * (id / 65536)), 1))

theorem locate_hugeWorld {m : MapStore} (hnew : hugeWorld = .ok m) {id : Nat} (hid : id < 2 ^ 31) :
    m.locate (Int32.ofNat (32 * (id % 65536))) (Int32.ofNat (32 * (id / 65536))) = some (id, 0) := by
  have hm := (new_wellFormed hnew).toIndexed
  have hw : m.blocksW.toInt = 65536 := by
    cases hnew
    decide
  have hh : m.blocksH.toInt = 32768 := by
    cases hnew
    decide
  rw [locate_eq_some hm, Int32.toInt_ofNat_of_lt (by omega), Int32.toInt_ofNat_of_lt (by omega), hw, hh]
  rw [Int.bmod_eq_of_le (by omega) (by omega)]
  omega

theorem addressed_oneCellPerBlock {m : MapStore} (hnew : hugeWorld = .ok m) {n : Nat}
    (hn : n ≤ 2 ^ 31) : m.addressed (oneCellPerBlock n) = List.range n := by
  rw [addressed, oneCellPerBlock, List.filterMap_map]
  refine (List.filterMap_congr ?_).trans List.filterMap_some
  intro id hid
  have hlt := List.mem_range.mp hid
  simp only [Function.comp_apply, locate_hugeWorld hnew (hlt.trans_le hn), Option.map_some]

theorem length_blocks_hugeWorld {m : MapStore} (hnew : hugeWorld = .ok m) {n : Nat}
    (hn : n ≤ 2 ^ 31) : (m.setCells (oneCellPerBlock n)).blocks.length = n := by
  rw [length_blocks_setCells hnew, addressed_oneCellPerBlock hnew hn,
    List.dedup_eq_self.mpr List.nodup_range, List.length_range]

/-- With all `2 ^ 31` blocks allocated the last slot number is the largest
`i32`, and the reader refuses the file. -/
theorem not_roundTrips_hugeWorld : ∃ m, hugeWorld = .ok m ∧
    ¬ (m.setCells (oneCellPerBlock (2 ^ 31))).RoundTrips := by
  have hnew : ∃ m, hugeWorld = .ok m := ⟨_, rfl⟩
  obtain ⟨m, hnew⟩ := hnew
  refine ⟨m, hnew, ?_⟩
  have hm := setCells_wellFormed (new_wellFormed hnew) (oneCellPerBlock (2 ^ 31))
  exact not_roundTrips_of_full hm.toIndexed (length_blocks_hugeWorld hnew (Nat.le_refl _))

end OpenMines.MapFormat.MapStore

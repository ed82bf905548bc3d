import OpenMines.MapFormat
import Mathlib.Data.List.Nodup
import Mathlib.Data.List.Perm.Subperm
import Mathlib.Tactic.Linarith

namespace OpenMines.MapFormat

theorem toUsize_eq_some {v : Int32} {n : Nat} : toUsize v = some n ↔ v.toInt = n := by
  have hz : (0 : Int32).toInt = 0 := by decide
  simp only [toUsize, Int32.le_iff_toInt_le, hz, ← Int32.toNat_toInt]
  split
  · rw [Option.some.injEq]
    omega
  · simp only [reduceCtorEq, false_iff]
    omega

theorem toUsize_lt {v : Int32} {n : Nat} (h : toUsize v = some n) : n < 2 ^ 31 := by
  have hv := toUsize_eq_some.mp h
  have := v.toInt_lt
  omega

theorem toUsize_ofNat {n : Nat} (h : n < 2 ^ 31) : toUsize (Int32.ofNat n) = some n :=
  toUsize_eq_some.mpr (Int32.toInt_ofNat_of_lt h)

theorem ofNat_ne_noSlot {n : Nat} (h : n < 2 ^ 31) : Int32.ofNat n ≠ noSlot := by
  intro he
  have hn := congrArg Int32.toInt he
  rw [Int32.toInt_ofNat_of_lt h] at hn
  have : noSlot.toInt = -1 := by decide
  omega

namespace MapStore

/-- The blocks of the grid; the row-major number of a block is below it. -/
def grid (m : MapStore) : Nat := m.blocksW.toNatClampNeg * m.blocksH.toNatClampNeg

/-- The forward index and `backIndex` are mutually inverse bijections between
the allocated blocks and the slots, the parallel vectors are in step, and
`dirtySlots` lists the flagged slots once each. -/
structure Indexed (m : MapStore) : Prop where
  blocksW_eq : m.blocksW = m.width / blockSize
  blocksH_eq : m.blocksH = m.height / blockSize
  width_pos : 0 < m.width
  height_pos : 0 < m.height
  blocksW_pos : 0 < m.blocksW
  blocksH_pos : 0 < m.blocksH
  length_indexes : m.indexes.length = m.grid
  length_backIndex : m.backIndex.length = m.blocks.length
  length_dirty : m.dirty.length = m.blocks.length
  index_nonneg : ∀ v ∈ m.indexes, v ≠ noSlot → 0 ≤ v.toInt
  back_of_slot : ∀ id slot, m.slotOf id = some slot → m.backIndex[slot]? = some id
  slot_of_back : ∀ slot id, m.backIndex[slot]? = some id → m.slotOf id = some slot
  nodup_dirtySlots : m.dirtySlots.Nodup
  mem_dirtySlots : ∀ slot, slot ∈ m.dirtySlots ↔ m.dirty[slot]? = some true

/-- The invariant of the stores that were filled through `setCell`: the blocks
are among those that a coordinate can name. -/
structure WellFormed (m : MapStore) : Prop extends Indexed m where
  back_lt : ∀ id ∈ m.backIndex, id < 2 ^ 31

theorem new_spec {width height : Int32} {m : MapStore} (h : new width height = .ok m) :
    0 < width ∧ 0 < height ∧ 0 < m.blocksW ∧ 0 < m.blocksH ∧
      m = { width, height
            blocksW := width / blockSize
            blocksH := height / blockSize
            indexes := List.replicate m.grid noSlot
            backIndex := []
            blocks := []
            dirty := []
            dirtySlots := []
            indexDirty := true
            needsHeader := true
            nextFlushGeneration := 0 } := by
  unfold new at h
  split at h
  · cases h
  · rename_i hpos
    simp only at h
    split at h
    · cases h
    · rename_i hblocks
      split at h
      · rename_i w hh hw hhh
        cases h
        have hwn := toUsize_eq_some.mp hw
        have hhn := toUsize_eq_some.mp hhh
        have hgrid : w * hh = grid
            { width, height
              blocksW := width / blockSize
              blocksH := height / blockSize
              indexes := List.replicate (w * hh) noSlot
              backIndex := []
              blocks := []
              dirty := []
              dirtySlots := []
              indexDirty := true
              needsHeader := true
              nextFlushGeneration := 0 } := by
          rw [grid, ← Int32.toNat_toInt, ← Int32.toNat_toInt, hwn, hhn, Int.toNat_natCast,
            Int.toNat_natCast]
        simp only [not_or, Int32.not_le] at hpos hblocks
        exact ⟨hpos.1, hpos.2, hblocks.1, hblocks.2, by rw [← hgrid]⟩
      · cases h

theorem new_wellFormed {width height : Int32} {m : MapStore} (h : new width height = .ok m) :
    m.WellFormed := by
  obtain ⟨hw, hh, hbw, hbh, he⟩ := new_spec h
  exact {
    blocksW_eq := by rw [he]
    blocksH_eq := by rw [he]
    width_pos := by rw [he]; exact hw
    height_pos := by rw [he]; exact hh
    blocksW_pos := hbw
    blocksH_pos := hbh
    length_indexes := by
      have hlen := congrArg (fun n : MapStore => n.indexes.length) he
      simpa only [List.length_replicate] using hlen
    length_backIndex := by
      rw [he]
      rfl
    length_dirty := by
      rw [he]
      rfl
    index_nonneg := by
      intro v hv hne
      rw [he] at hv
      exact absurd (List.eq_of_mem_replicate hv) hne
    back_of_slot := by
      intro id slot hs
      rw [he] at hs
      simp only [slotOf, List.getElem?_replicate] at hs
      split_ifs at hs
      simp at hs
    slot_of_back := by
      intro slot id hb
      rw [he] at hb
      cases hb
    back_lt := by
      intro id hid
      rw [he] at hid
      cases hid
    nodup_dirtySlots := by
      rw [he]
      exact List.nodup_nil
    mem_dirtySlots := by
      rw [he]
      simp }

theorem toInt_div_blockSize {v : Int32} (hv : 0 ≤ v.toInt) : (v / blockSize).toInt = v.toInt / 32 := by
  have hb : blockSize.toInt = 32 := by decide
  rw [Int32.toInt_div_of_ne_right _ _ (by decide), hb, Int.tdiv_eq_ediv_of_nonneg hv]

theorem toInt_mod_blockSize {v : Int32} (hv : 0 ≤ v.toInt) : (v % blockSize).toInt = v.toInt % 32 := by
  have hb : blockSize.toInt = 32 := by decide
  rw [Int32.toInt_mod, hb, Int.tmod_eq_emod_of_nonneg hv]

/-- The side of the grid in cells does not wrap. -/
theorem toInt_mul_blockSize {v w : Int32} (hw : w = v / blockSize) (hv : 0 < v) (hw0 : 0 < w) :
    (w * blockSize).toInt = w.toInt * 32 ∧ w.toInt * 32 ≤ v.toInt := by
  have hz : (0 : Int32).toInt = 0 := by decide
  have hb : blockSize.toInt = 32 := by decide
  have hpos := Int32.lt_iff_toInt_lt.mp hv
  have hpos' := Int32.lt_iff_toInt_lt.mp hw0
  have hlt := v.toInt_lt
  rw [hz] at hpos hpos'
  have hdiv : w.toInt = v.toInt / 32 := by rw [hw, toInt_div_blockSize hpos.le]
  refine ⟨?_, by omega⟩
  rw [Int32.toInt_mul, hb, Int.bmod_eq_of_le] <;> omega

/-- Grid coordinates are in range, so only the row-major block id can wrap. -/
theorem locate_eq_some {m : MapStore} (hm : m.Indexed) {x y : Int32} {id c : Nat} :
    m.locate x y = some (id, c) ↔
      0 ≤ x.toInt ∧ 0 ≤ y.toInt ∧ x.toInt < m.blocksW.toInt * 32 ∧ y.toInt < m.blocksH.toInt * 32 ∧
      (x.toInt / 32 + y.toInt / 32 * m.blocksW.toInt).bmod (2 ^ 32) = id ∧
      x.toInt % 32 + 32 * (y.toInt % 32) = c := by
  have hz : (0 : Int32).toInt = 0 := by decide
  have hb : blockSize.toInt = 32 := by decide
  have hwide := (toInt_mul_blockSize hm.blocksW_eq hm.width_pos hm.blocksW_pos).1
  have htall := (toInt_mul_blockSize hm.blocksH_eq hm.height_pos hm.blocksH_pos).1
  unfold locate
  simp only [ge_iff_le, Int32.lt_iff_toInt_lt, Int32.le_iff_toInt_le, hz, hwide, htall]
  split
  · rename_i hout
    simp only [reduceCtorEq, false_iff]
    omega
  · rename_i hin
    simp only [not_or, not_lt, not_le] at hin
    obtain ⟨hx, hy, hxw, hyh⟩ := hin
    have hcell : (x % blockSize + blockSize * (y % blockSize)).toInt =
        x.toInt % 32 + 32 * (y.toInt % 32) := by
      rw [Int32.toInt_add, Int32.toInt_mul, hb, toInt_mod_blockSize hx, toInt_mod_blockSize hy]
      have hrow : (32 * (y.toInt % 32)).bmod (2 ^ 32) = 32 * (y.toInt % 32) :=
        Int.bmod_eq_of_le (by omega) (by omega)
      rw [hrow, Int.bmod_eq_of_le] <;> omega
    have hid : (x / blockSize + y / blockSize * m.blocksW).toInt =
        (x.toInt / 32 + y.toInt / 32 * m.blocksW.toInt).bmod (2 ^ 32) := by
      rw [Int32.toInt_add, Int32.toInt_mul, toInt_div_blockSize hx, toInt_div_blockSize hy, Int.add_bmod_bmod]
    have hsome := toUsize_eq_some.mpr
      (show (x % blockSize + blockSize * (y % blockSize)).toInt =
        ((x.toInt % 32 + 32 * (y.toInt % 32)).toNat : Nat) by omega)
    rw [hsome]
    cases hu : toUsize (x / blockSize + y / blockSize * m.blocksW) with
    | none =>
        simp only [reduceCtorEq, false_iff]
        rintro ⟨-, -, -, -, hw, -⟩
        rw [← hid, ← toUsize_eq_some, hu] at hw
        cases hw
    | some n =>
        have hn := toUsize_eq_some.mp hu
        rw [hid] at hn
        simp only [Option.some.injEq, Prod.mk.injEq, hn]
        omega

/-- The coordinates of whole blocks. -/
def InGrid (m : MapStore) (x y : Int32) : Prop :=
  0 ≤ x.toInt ∧ 0 ≤ y.toInt ∧ x.toInt < m.blocksW.toInt * 32 ∧ y.toInt < m.blocksH.toInt * 32

theorem grid_eq {m : MapStore} (hm : m.Indexed) :
    0 < m.blocksW.toInt ∧ 0 < m.blocksH.toInt ∧ (m.grid : Int) = m.blocksW.toInt * m.blocksH.toInt := by
  have hz : (0 : Int32).toInt = 0 := by decide
  have hw := Int32.lt_iff_toInt_lt.mp hm.blocksW_pos
  have hh := Int32.lt_iff_toInt_lt.mp hm.blocksH_pos
  rw [hz] at hw hh
  refine ⟨hw, hh, ?_⟩
  rw [grid, ← Int32.toNat_toInt, ← Int32.toNat_toInt]
  push_cast
  rw [Int.toNat_of_nonneg hw.le, Int.toNat_of_nonneg hh.le]

theorem blockNumber_lt {m : MapStore} (hm : m.Indexed) {x y : Int32} (h : m.InGrid x y) :
    0 ≤ x.toInt / 32 + y.toInt / 32 * m.blocksW.toInt ∧
      x.toInt / 32 + y.toInt / 32 * m.blocksW.toInt < m.grid := by
  obtain ⟨hx, hy, hxw, hyh⟩ := h
  obtain ⟨hw, -, hgrid⟩ := grid_eq hm
  refine ⟨?_, ?_⟩
  · have := mul_nonneg (show 0 ≤ y.toInt / 32 by omega) hw.le
    omega
  · have hrow : y.toInt / 32 + 1 ≤ m.blocksH.toInt := by omega
    have := mul_le_mul_of_nonneg_right hrow hw.le
    rw [hgrid]
    linarith [show x.toInt / 32 < m.blocksW.toInt by omega]

theorem locate_lt {m : MapStore} (hm : m.Indexed) {x y : Int32} {id c : Nat}
    (h : m.locate x y = some (id, c)) : id < m.grid ∧ id < 2 ^ 31 ∧ c < blockCells := by
  obtain ⟨hx, hy, hxw, hyh, hid, hc⟩ := (locate_eq_some hm).mp h
  obtain ⟨hnn, hlin⟩ := blockNumber_lt hm ⟨hx, hy, hxw, hyh⟩
  generalize x.toInt / 32 + y.toInt / 32 * m.blocksW.toInt = e at *
  refine ⟨?_, ?_, ?_⟩
  · rw [Int.bmod_def] at hid
    split at hid <;> omega
  · have hlt : e.bmod (2 ^ 32) < (2 ^ 32 + 1) / 2 := Int.bmod_lt (by decide)
    omega
  · simp only [blockCells]
    omega

theorem slotOf_eq_some {m : MapStore} {id slot : Nat} :
    m.slotOf id = some slot ↔ ∃ v, m.indexes[id]? = some v ∧ v ≠ noSlot ∧ toUsize v = some slot := by
  unfold slotOf
  cases hv : m.indexes[id]? with
  | none => simp
  | some v =>
      simp only [Option.some.injEq, exists_eq_left']
      by_cases hno : v = noSlot
      · simp [hno]
      · simp [hno]

theorem slotOf_lt {m : MapStore} (hm : m.Indexed) {id slot : Nat} (h : m.slotOf id = some slot) :
    slot < m.blocks.length ∧ id < m.grid := by
  obtain ⟨hslot, -⟩ := List.getElem?_eq_some_iff.mp (hm.back_of_slot id slot h)
  obtain ⟨v, hv, -, -⟩ := slotOf_eq_some.mp h
  obtain ⟨hid, -⟩ := List.getElem?_eq_some_iff.mp hv
  exact ⟨hm.length_backIndex ▸ hslot, hm.length_indexes ▸ hid⟩

theorem nodup_backIndex {m : MapStore} (hm : m.Indexed) : m.backIndex.Nodup := by
  rw [List.nodup_iff_getElem?_ne_getElem?]
  intro i j hij hj he
  have hback : m.backIndex[j]? = some m.backIndex[j] := List.getElem?_eq_getElem hj
  have hi := hm.slot_of_back i _ (he.trans hback)
  have := (hm.slot_of_back j _ hback).symm.trans hi
  have := Option.some.inj this
  omega

theorem length_lt_of_fresh {l : List Nat} {n x : Nat} (hl : l.Nodup) (hlt : ∀ y ∈ l, y < n)
    (hx : x < n) (hfresh : x ∉ l) : l.length < n := by
  have hcons : (x :: l).Nodup := List.nodup_cons.mpr ⟨hfresh, hl⟩
  have hsub : x :: l ⊆ List.range n := by
    intro y hy
    rcases List.mem_cons.mp hy with rfl | hy
    · exact List.mem_range.mpr hx
    · exact List.mem_range.mpr (hlt y hy)
  have hle := (List.Nodup.subperm hcons hsub).length_le
  rw [List.length_cons, List.length_range] at hle
  omega

theorem notMem_backIndex {m : MapStore} (hm : m.Indexed) {id : Nat} (h : m.slotOf id = none) :
    id ∉ m.backIndex := by
  intro hid
  obtain ⟨slot, hslot, he⟩ := List.getElem_of_mem hid
  have hs := hm.slot_of_back slot id (by rw [List.getElem?_eq_getElem hslot, he])
  rw [h] at hs
  cases hs

/-- A coordinate whose block has no slot leaves room for one more slot number. -/
theorem newSlot_fits {m : MapStore} (hm : m.WellFormed) {id : Nat} (hid : id < 2 ^ 31)
    (h : m.slotOf id = none) : m.blocks.length < 2 ^ 31 := by
  rw [← hm.length_backIndex]
  exact length_lt_of_fresh (nodup_backIndex hm.toIndexed) hm.back_lt hid (notMem_backIndex hm.toIndexed h)

theorem slotOf_allocate {m : MapStore} {id : Nat} (hid : id < m.indexes.length)
    (hn : m.blocks.length < 2 ^ 31) (j : Nat) :
    (m.allocate id).slotOf j = if j = id then some m.blocks.length else m.slotOf j := by
  unfold slotOf allocate
  by_cases hj : j = id
  · subst hj
    rw [List.getElem?_set_self hid]
    simp only [ofNat_ne_noSlot hn, if_false, toUsize_ofNat hn, if_true]
  · rw [List.getElem?_set_ne (Ne.symm hj), if_neg hj]

theorem allocate_indexed {m : MapStore} (hm : m.Indexed) {id : Nat} (hgrid : id < m.grid)
    (hn : m.blocks.length < 2 ^ 31) (h : m.slotOf id = none) : (m.allocate id).Indexed := by
  have hlen : id < m.indexes.length := hm.length_indexes ▸ hgrid
  have hslot := slotOf_allocate hlen hn
  exact { hm with
    length_indexes := by simpa [allocate, grid] using hm.length_indexes
    length_backIndex := by simpa [allocate] using hm.length_backIndex
    length_dirty := by simpa [allocate] using hm.length_dirty
    index_nonneg := by
      intro v hv hne
      rcases List.mem_or_eq_of_mem_set hv with hv | rfl
      · exact hm.index_nonneg v hv hne
      · rw [Int32.toInt_ofNat_of_lt hn]
        omega
    back_of_slot := by
      intro j slot hj
      rw [hslot] at hj
      split at hj
      · rename_i he
        rw [he, ← Option.some.inj hj, allocate, ← hm.length_backIndex, List.getElem?_concat_length]
      · have hb := hm.back_of_slot j slot hj
        obtain ⟨hlt, -⟩ := List.getElem?_eq_some_iff.mp hb
        rw [allocate, List.getElem?_append_left hlt, hb]
    slot_of_back := by
      intro slot j hj
      rw [hslot]
      rcases Nat.lt_trichotomy slot m.backIndex.length with hlt | heq | hgt
      · rw [allocate, List.getElem?_append_left hlt] at hj
        have hs := hm.slot_of_back slot j hj
        rw [if_neg, hs]
        rintro rfl
        rw [h] at hs
        cases hs
      · rw [allocate, heq, List.getElem?_concat_length] at hj
        rw [if_pos (Option.some.inj hj).symm, ← hm.length_backIndex, heq]
      · rw [allocate, List.getElem?_eq_none (by simp; omega)] at hj
        cases hj
    mem_dirtySlots := by
      intro slot
      change slot ∈ m.dirtySlots ↔ (m.dirty ++ [false])[slot]? = some true
      rw [hm.mem_dirtySlots]
      rcases Nat.lt_trichotomy slot m.dirty.length with hlt | heq | hgt
      · rw [List.getElem?_append_left hlt]
      · rw [heq, List.getElem?_concat_length, List.getElem?_eq_none (Nat.le_refl _)]
        simp
      · rw [List.getElem?_eq_none (by omega), List.getElem?_eq_none (by simp; omega)] }

theorem allocate_wellFormed {m : MapStore} (hm : m.WellFormed) {id : Nat} (hgrid : id < m.grid)
    (hid : id < 2 ^ 31) (h : m.slotOf id = none) : (m.allocate id).WellFormed where
  toIndexed := allocate_indexed hm.toIndexed hgrid (newSlot_fits hm hid h) h
  back_lt := by
    intro j hj
    rcases List.mem_append.mp hj with hj | hj
    · exact hm.back_lt j hj
    · rwa [List.mem_singleton.mp hj]

end MapStore

end OpenMines.MapFormat

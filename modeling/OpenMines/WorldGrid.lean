import OpenMines.CellGrid
import OpenMines.MapAccepted
import OpenMines.WorldRecover

namespace OpenMines

open MapFormat Journal

namespace MapFormat.MapStore

theorem locate_of_inGrid {m : MapStore} (hm : m.Indexed) (hgrid : m.grid ≤ 2 ^ 31) {x y : Int32}
    (h : m.InGrid x y) : ∃ q, m.locate x y = some q := by
  obtain ⟨hlow, hhigh⟩ := blockNumber_lt hm h
  obtain ⟨hx, hy, hxw, hyh⟩ := h
  refine ⟨((x.toInt / 32 + y.toInt / 32 * m.blocksW.toInt).toNat, (x.toInt % 32 + 32 * (y.toInt % 32)).toNat),
    (locate_eq_some hm).mpr ⟨hx, hy, hxw, hyh, ?_, by omega⟩⟩
  rw [Int.bmod_eq_of_le] <;> omega

/-- A write shows at its own coordinate only. -/
theorem getCell_setCell {m : MapStore} (hm : m.WellFormed) (hgrid : m.grid ≤ 2 ^ 31) {x y : Int32}
    (h : m.InGrid x y) (cell : UInt8) (i j : Int32) :
    (m.setCell x y cell).getCell i j = if i = x ∧ j = y then cell else m.getCell i j := by
  obtain ⟨q, hloc⟩ := locate_of_inGrid hm.toIndexed hgrid h
  by_cases hij : i = x ∧ j = y
  · obtain ⟨rfl, rfl⟩ := hij
    rw [if_pos ⟨rfl, rfl⟩, getCell, locate_setCell, hloc]
    exact (World.mapView_setCell hm i j cell q.1 q.2).trans (if_pos hloc)
  · rw [if_neg hij, getCell, getCell, locate_setCell]
    cases hloc' : m.locate i j with
    | none => rfl
    | some q' =>
        refine (World.mapView_setCell hm x y cell q'.1 q'.2).trans (if_neg fun he => hij ?_)
        exact locate_inj hm.toIndexed (by omega) hloc' he

end MapFormat.MapStore

namespace World

variable {w v : World} {x y i j : Int32} {p : Pos}

def inside (w : World) (p : Pos) : Bool :=
  decide (0 ≤ p.1 ∧ 0 ≤ p.2 ∧ p.1 < w.cellsWidth.toNat ∧ p.2 < w.cellsHeight.toNat)

/-- The world as its cells show it. -/
def grid (w : World) : CellGrid where
  width := w.cellsWidth.toNat
  height := w.cellsHeight.toNat
  foreground p := if w.inside p then w.cells.getCell (.ofInt p.1) (.ofInt p.2) else 0
  road p := if w.inside p then w.road.getCell (.ofInt p.1) (.ofInt p.2) else 0
  durability p :=
    if w.inside p then
      w.durability.word (w.durability.cellOffset (Int32.ofInt p.1).toUInt32 (Int32.ofInt p.2).toUInt32)
    else 0

theorem toNat_toUInt32 (h : 0 ≤ x.toInt) : (x.toUInt32.toNat : Int) = x.toInt := by
  have hx : x.toUInt32.toNat = x.toInt.toNat := by
    rw [Int32.toNat_toUInt32_of_le (Int32.le_iff_toInt_le.mpr (by simpa using h)), Int32.toNatClampNeg]
  omega

theorem inside_toInt : w.inside (x.toInt, y.toInt) = w.validCoord x y := by
  have hz : (0 : Int32).toInt = 0 := by decide
  simp only [inside, validCoord, Int32.le_iff_toInt_le, hz, UInt32.lt_iff_toNat_lt, decide_eq_decide]
  constructor
  · rintro ⟨hx, hy, hxw, hyh⟩
    exact ⟨hx, hy, by have := toNat_toUInt32 hx; omega, by have := toNat_toUInt32 hy; omega⟩
  · rintro ⟨hx, hy, hxw, hyh⟩
    exact ⟨hx, hy, by have := toNat_toUInt32 hx; omega, by have := toNat_toUInt32 hy; omega⟩

theorem grid_validCoord : w.grid.validCoord (x.toInt, y.toInt) = w.validCoord x y := inside_toInt

theorem grid_getCell : w.grid.getCell (x.toInt, y.toInt) = w.getCell x y := by
  rw [CellGrid.getCell, grid_validCoord, getCell]
  split
  · rename_i hvalid
    simp only [grid, inside_toInt, hvalid, Int32.ofInt_toInt, CellGrid.visible, if_true]
  · rfl

theorem grid_getDurability : w.grid.getDurability (x.toInt, y.toInt) = w.getDurability x y := by
  rw [CellGrid.getDurability, grid_validCoord, getDurability]
  split
  · rename_i hvalid
    simp only [grid, inside_toInt, hvalid, Int32.ofInt_toInt, if_true]
  · rfl

theorem Applied.validCoord {r : JournalRecord} (h : w.Applied r v) (x y : Int32) :
    v.validCoord x y = w.validCoord x y := by
  unfold World.validCoord cellsWidth cellsHeight
  rw [h.chunksW, h.chunksH]

namespace Fits

theorem exists_toInt (h : w.Fits) (hp : w.inside p = true) : ∃ x y : Int32, p = (x.toInt, y.toInt) := by
  simp only [inside, decide_eq_true_eq] at hp
  have hw := h.width_lt
  have hh := h.height_lt
  rw [← World.cellsWidth] at hw
  rw [← World.cellsHeight] at hh
  exact ⟨.ofInt p.1, .ofInt p.2, Prod.ext (Int32.toInt_ofInt_of_le (by omega) (by omega)).symm
    (Int32.toInt_ofInt_of_le (by omega) (by omega)).symm⟩

theorem toInt_side {c : UInt32} (hc : (c * chunkSize).toNat < 2 ^ 31) :
    ((c * chunkSize).toInt32 / blockSize).toInt * 32 = (c * chunkSize).toNat ∧
      ((c * chunkSize).toInt32 / blockSize).toInt ≤ c.toNat := by
  have hb : blockSize.toInt = 32 := by decide
  have hside : (c * chunkSize).toInt32.toInt = (c * chunkSize).toNat :=
    BitVec.toInt_eq_toNat_of_lt (show 2 * (c * chunkSize).toNat < 2 ^ 32 by omega)
  have hmul : (c * chunkSize).toNat = c.toNat * 32 % 2 ^ 32 := by
    rw [UInt32.toNat_mul]
    rfl
  rw [Int32.toInt_div_of_ne_right _ _ (by decide), hb, hside, Int.tdiv_eq_ediv_of_nonneg (by omega)]
  omega

theorem inGrid (hvalid : w.validCoord x y = true) {m : MapStore} (hm : m.Indexed)
    (hw : (w.chunksW * chunkSize).toNat < 2 ^ 31) (hh : (w.chunksH * chunkSize).toNat < 2 ^ 31)
    (hwidth : m.width = (w.chunksW * chunkSize).toInt32) (hheight : m.height = (w.chunksH * chunkSize).toInt32) :
    m.InGrid x y := by
  rw [← inside_toInt, inside, decide_eq_true_eq] at hvalid
  obtain ⟨hx, hy, hxw, hyh⟩ := hvalid
  refine ⟨hx, hy, ?_, ?_⟩
  · rw [hm.blocksW_eq, hwidth, (toInt_side hw).1]
    exact hxw
  · rw [hm.blocksH_eq, hheight, (toInt_side hh).1]
    exact hyh

theorem grid_le {m : MapStore} (hm : m.Indexed)
    (hw : (w.chunksW * chunkSize).toNat < 2 ^ 31) (hh : (w.chunksH * chunkSize).toNat < 2 ^ 31)
    (hwidth : m.width = (w.chunksW * chunkSize).toInt32) (hheight : m.height = (w.chunksH * chunkSize).toInt32) :
    m.grid ≤ w.chunksW.toNat * w.chunksH.toNat := by
  obtain ⟨hbw, hbh, hgrid⟩ := MapStore.grid_eq hm
  have hwide := (toInt_side hw).2
  have htall := (toInt_side hh).2
  rw [← hwidth, ← hm.blocksW_eq] at hwide
  rw [← hheight, ← hm.blocksH_eq] at htall
  have := mul_le_mul hwide htall hbh.le (by omega)
  rw [← hgrid] at this
  exact_mod_cast this

theorem toNat_lt_of_valid (hvalid : w.validCoord x y = true) :
    x.toUInt32.toNat / 32 < w.chunksW.toNat ∧ y.toUInt32.toNat / 32 < w.chunksH.toNat := by
  simp only [validCoord, decide_eq_true_eq, World.cellsWidth, World.cellsHeight, UInt32.lt_iff_toNat_lt,
    UInt32.toNat_mul] at hvalid
  obtain ⟨-, -, hx, hy⟩ := hvalid
  have hchunk : chunkSize.toNat = 32 := rfl
  rw [hchunk] at hx hy
  have hcol := hx.trans_le (Nat.mod_le _ _)
  have hrow := hy.trans_le (Nat.mod_le _ _)
  omega

/-- The chunk number does not wrap in a world of fewer than `2 ^ 32` chunks. -/
theorem chunkIdx_eq (h : w.Fits) (hvalid : w.validCoord x y = true) :
    w.durability.chunkIdx x.toUInt32 y.toUInt32 =
      y.toUInt32.toNat / 32 + x.toUInt32.toNat / 32 * w.chunksH.toNat := by
  obtain ⟨hx, hy⟩ := toNat_lt_of_valid hvalid
  have hmul := Nat.mul_le_mul_right w.chunksH.toNat (show x.toUInt32.toNat / 32 + 1 ≤ w.chunksW.toNat from hx)
  have hlt := h.chunks_lt
  rw [Nat.succ_mul] at hmul
  have hchunk : chunkSize.toNat = 32 := rfl
  rw [Layer.chunkIdx, h.chunksH]
  simp only [UInt32.toNat_add, UInt32.toNat_mul, UInt32.toNat_div, hchunk]
  rw [Nat.mul_comm w.chunksH.toNat, Nat.mod_eq_of_lt (a := _ * _) (by omega), Nat.mod_eq_of_lt (by omega)]

theorem cellOffset_inj (h : w.Fits) (hvalid : w.validCoord x y = true) (hvalid' : w.validCoord i j = true)
    (he : w.durability.cellOffset i.toUInt32 j.toUInt32 = w.durability.cellOffset x.toUInt32 y.toUInt32) :
    i = x ∧ j = y := by
  have hchunk : chunkSize.toNat = 32 := rfl
  have hidx : w.durability.chunkIdx i.toUInt32 j.toUInt32 = w.durability.chunkIdx x.toUInt32 y.toUInt32 := by
    rw [← Layer.cellOffset_div, ← Layer.cellOffset_div, he]
  rw [Layer.cellOffset, Layer.cellOffset, hidx] at he
  rw [chunkIdx_eq h hvalid, chunkIdx_eq h hvalid'] at hidx
  have hin := Nat.add_left_cancel he
  simp only [UInt32.toNat_add, UInt32.toNat_mul, UInt32.toNat_mod, hchunk] at hin
  obtain ⟨-, hy⟩ := toNat_lt_of_valid hvalid
  obtain ⟨-, hy'⟩ := toNat_lt_of_valid hvalid'
  obtain ⟨hrow, hcol⟩ := MapStore.rowMajor_inj (w := (w.chunksH.toNat : Int)) (by omega) (by omega) (by omega)
    (by omega) (show ((j.toUInt32.toNat / 32 : Nat) : Int) + (i.toUInt32.toNat / 32 : Nat) * w.chunksH.toNat =
      (y.toUInt32.toNat / 32 : Nat) + (x.toUInt32.toNat / 32 : Nat) * w.chunksH.toNat by exact_mod_cast hidx)
  have hx : i.toUInt32 = x.toUInt32 := UInt32.toNat_inj.mp (by omega)
  have hy : j.toUInt32 = y.toUInt32 := UInt32.toNat_inj.mp (by omega)
  exact ⟨congrArg UInt32.toInt32 hx, congrArg UInt32.toInt32 hy⟩

theorem getCell_cells (h : w.Fits) (hsmall : w.chunksW.toNat * w.chunksH.toNat ≤ 2 ^ 31) {r : JournalRecord}
    (ha : w.Applied r v) :
    v.cells.getCell i j = if i = r.x ∧ j = r.y then r.foreground else w.cells.getCell i j := by
  rcases ha.cells with he | ⟨he, hsame⟩
  · rw [he]
    exact MapStore.getCell_setCell h.cells
      ((grid_le h.cells.toIndexed h.width_lt h.height_lt h.cellsWidth h.cellsHeight).trans hsmall)
      (inGrid ha.valid h.cells.toIndexed h.width_lt h.height_lt h.cellsWidth h.cellsHeight) _ _ _
  · rw [he]
    split
    · rename_i hij
      rw [hij.1, hij.2, hsame]
    · rfl

theorem getCell_road (h : w.Fits) (hsmall : w.chunksW.toNat * w.chunksH.toNat ≤ 2 ^ 31) {r : JournalRecord}
    (ha : w.Applied r v) :
    v.road.getCell i j = if i = r.x ∧ j = r.y then r.road else w.road.getCell i j := by
  rcases ha.road with he | ⟨he, hsame⟩
  · rw [he]
    exact MapStore.getCell_setCell h.road
      ((grid_le h.road.toIndexed h.width_lt h.height_lt h.roadWidth h.roadHeight).trans hsmall)
      (inGrid ha.valid h.road.toIndexed h.width_lt h.height_lt h.roadWidth h.roadHeight) _ _ _
  · rw [he]
    split
    · rename_i hij
      rw [hij.1, hij.2, hsame]
    · rfl

theorem word_durability (h : w.Fits) {r : JournalRecord} (ha : w.Applied r v) (hvalid : w.validCoord i j = true) :
    v.durability.word (v.durability.cellOffset i.toUInt32 j.toUInt32) =
      if i = r.x ∧ j = r.y then r.durability
      else w.durability.word (w.durability.cellOffset i.toUInt32 j.toUInt32) := by
  have hoffset : v.durability.cellOffset i.toUInt32 j.toUInt32 = w.durability.cellOffset i.toUInt32 j.toUInt32 := by
    rw [ha.durability]
    simp only [Layer.cellOffset, Layer.chunkIdx, Layer.write_chunksH]
  rw [hoffset, ha.durability, Layer.word_write _ (cellOffset_lt h.toConsistent ha.valid)]
  by_cases hij : i = r.x ∧ j = r.y
  · rw [if_pos hij, hij.1, hij.2, if_pos rfl]
  · rw [if_neg hij, if_neg fun he => hij (cellOffset_inj h ha.valid hvalid he)]

/-- What a journaled mutation did, as the cells show it. -/
theorem grid_applied (h : w.Fits) (hsmall : w.chunksW.toNat * w.chunksH.toNat ≤ 2 ^ 31) {r : JournalRecord}
    (ha : w.Applied r v) :
    v.grid = w.grid.put (r.x.toInt, r.y.toInt) r.foreground r.road r.durability := by
  have hwidth : v.cellsWidth = w.cellsWidth := by rw [World.cellsWidth, World.cellsWidth, ha.chunksW]
  have hheight : v.cellsHeight = w.cellsHeight := by rw [World.cellsHeight, World.cellsHeight, ha.chunksH]
  have hinside (p : Pos) : v.inside p = w.inside p := by rw [inside, inside, hwidth, hheight]
  have hin : w.inside (r.x.toInt, r.y.toInt) = true := inside_toInt.trans ha.valid
  simp only [grid, CellGrid.put, hwidth, hheight, hinside, CellGrid.mk.injEq, true_and]
  refine ⟨?_, ?_, ?_⟩
  all_goals
    funext p
    by_cases hp : w.inside p = true
    · obtain ⟨i, j, rfl⟩ := exists_toInt h hp
      have hvalid : w.validCoord i j = true := inside_toInt.symm.trans hp
      simp only [hp, if_true, Int32.ofInt_toInt, Function.update_apply, Prod.mk.injEq, Int32.toInt_inj,
        getCell_cells h hsmall ha, getCell_road h hsmall ha, word_durability h ha hvalid]
    · have hne : p ≠ (r.x.toInt, r.y.toInt) := by
        rintro rfl
        exact hp hin
      simp [hp, hne]

end Fits

/-- The cell types have the definitions that the tables of the grid say. -/
def Defines (w : World) (defs : CellDefs) : Prop :=
  ∀ c prop, w.cellDef c = some prop → prop.isEmpty = defs.isEmpty c ∧ prop.durability = defs.durability c

theorem grid_writeWorldCell {defs : CellDefs} (h : w.Fits) (hsmall : w.chunksW.toNat * w.chunksH.toNat ≤ 2 ^ 31)
    (hdefs : w.Defines defs) {cell : WorldCell} (hwrite : w.writeWorldCell x y cell .ok = some v) :
    v.grid = w.grid.writeWorldCell defs (x.toInt, y.toInt) cell true := by
  rw [CellGrid.writeWorldCell, grid_validCoord, Bool.and_true]
  unfold writeWorldCell at hwrite
  split at hwrite
  · rename_i hvalid
    obtain ⟨prop, hprop, rfl⟩ := Option.map_eq_some_iff.mp hwrite
    rw [if_pos hvalid, ← (hdefs _ _ hprop).1]
    simp only [appendRecord]
    split
    · exact h.grid_applied hsmall (r := ⟨x, y, 0, cell.cellType, cell.durability⟩)
        ⟨hvalid, by simp [setDurabilityDirect], Or.inl rfl, Or.inl rfl, rfl, rfl, rfl, rfl⟩
    · have hroad : w.grid.road (x.toInt, y.toInt) = w.road.getCell x y := by
        simp [grid, inside_toInt, hvalid]
      rw [hroad]
      exact h.grid_applied hsmall (r := ⟨x, y, cell.cellType, w.road.getCell x y, cell.durability⟩)
        ⟨hvalid, by simp [setDurabilityDirect], Or.inl rfl, Or.inr ⟨rfl, rfl⟩, rfl, rfl, rfl, rfl⟩
  · rename_i hinvalid
    cases hwrite
    rw [if_neg hinvalid]

/-- An append that failed leaves the cells as they were. -/
theorem grid_writeWorldCell_failed {defs : CellDefs} {cell : WorldCell} {n : Fin journalRecordLen}
    (hwrite : w.writeWorldCell x y cell (.failed n) = some v) :
    v.grid = w.grid.writeWorldCell defs (x.toInt, y.toInt) cell false := by
  rw [CellGrid.writeWorldCell_failed]
  rcases writeWorldCell_failed hwrite with rfl | ⟨r, rfl⟩
  · rfl
  · rfl

end World

end OpenMines

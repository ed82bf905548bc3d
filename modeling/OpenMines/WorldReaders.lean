import OpenMines.Lib.CheckedInt
import OpenMines.WorldGrid

namespace OpenMines

open MapFormat Lib.CheckedInt

namespace MapFormat.MapStore

variable (m : MapStore)

/-- The block and the cell of a coordinate of the grid. -/
def blockAndCell (x y : Int32) : Checked (Option (Nat × Nat)) := do
  let bx ← divI32 x blockSize
  let blockRow ← divI32 y blockSize
  let column ← remI32 x blockSize
  let row ← remI32 y blockSize
  let offset ← mulI32 blockSize row
  let cell ← addI32 column offset
  let start ← mulI32 blockRow m.blocksW
  let blockId ← addI32 bx start
  return (toUsize blockId).bind fun id => (toUsize cell).map fun c => (id, c)

def locateChecked (x y : Int32) : Checked (Option (Nat × Nat)) :=
  if x < 0 ∨ y < 0 then some none
  else (mulI32 m.blocksW blockSize).bind fun cellsW =>
    if x ≥ cellsW then some none
    else (mulI32 m.blocksH blockSize).bind fun cellsH =>
      if y ≥ cellsH then some none else m.blockAndCell x y

def slotOfChecked (blockId : Nat) : Checked (Option Nat) :=
  (m.indexes[blockId]?).map fun s => if s = noSlot then none else toUsize s

def getCellChecked (x y : Int32) : Checked UInt8 :=
  (m.locateChecked x y).bind fun place =>
    match place with
    | none => some 0
    | some (blockId, cellIdx) =>
      (m.slotOfChecked blockId).bind fun slot =>
        match slot with
        | none => some 0
        | some slot => (m.blocks[slot]?).bind fun b => b[cellIdx]?

variable {m : MapStore} {x y : Int32}

instance (m : MapStore) (x y : Int32) : Decidable (m.InGrid x y) := inferInstanceAs (Decidable (_ ∧ _))

/-- The row-major number of the block of a coordinate. -/
def blockNumber (m : MapStore) (x y : Int32) : Int := x.toInt / 32 + y.toInt / 32 * m.blocksW.toInt

theorem blockAndCell_eq (hm : m.Indexed) (h : m.InGrid x y) :
    m.blockAndCell x y = if m.blockNumber x y < 2 ^ 31 then some (m.locate x y) else none := by
  obtain ⟨hx, hy, hxw, hyh⟩ := h
  obtain ⟨hw, -, -⟩ := grid_eq hm
  have hb : blockSize.toInt = 32 := by decide
  have hsafe (v : Int32) : DivSafe v blockSize := ⟨by decide, fun h => absurd h.2 (by decide)⟩
  have hcolumn := toInt_mod_blockSize hx
  have hrow := toInt_mod_blockSize hy
  have hbx := toInt_div_blockSize hx
  have hby := toInt_div_blockSize hy
  have hstart : 0 ≤ y.toInt / 32 * m.blocksW.toInt := mul_nonneg (by omega) hw.le
  have hxfits := (fitsI32_toInt x).2
  have hoffset : (blockSize * (y % blockSize)).toInt = 32 * (y.toInt % 32) := by
    rw [Int32.toInt_mul, hb, hrow, Int.bmod_eq_of_le] <;> omega
  have hcell : (x % blockSize + blockSize * (y % blockSize)).toInt = x.toInt % 32 + 32 * (y.toInt % 32) := by
    rw [Int32.toInt_add, hoffset, hcolumn, Int.bmod_eq_of_le] <;> omega
  have hdivs : divI32 x blockSize = some (x / blockSize) ∧ divI32 y blockSize = some (y / blockSize) ∧
      remI32 x blockSize = some (x % blockSize) ∧ remI32 y blockSize = some (y % blockSize) :=
    ⟨if_pos (hsafe x), if_pos (hsafe y), if_pos (hsafe x), if_pos (hsafe y)⟩
  obtain ⟨hdivx, hdivy, hremx, hremy⟩ := hdivs
  have hmul : mulI32 blockSize (y % blockSize) = some (blockSize * (y % blockSize)) :=
    mulI32_eq_some_mul (by rw [hb, hrow]; constructor <;> omega)
  have hadd : addI32 (x % blockSize) (blockSize * (y % blockSize)) =
      some (x % blockSize + blockSize * (y % blockSize)) :=
    addI32_eq_some_add (by rw [hcolumn, hoffset]; constructor <;> omega)
  simp only [blockAndCell, hdivx, hdivy, hremx, hremy, hmul, hadd, Option.bind_eq_bind, Option.bind_some]
  by_cases hsmall : m.blockNumber x y < 2 ^ 31
  · rw [if_pos hsmall]
    rw [blockNumber] at hsmall
    have hstartFits : FitsI32 ((y / blockSize).toInt * m.blocksW.toInt) := by
      rw [hby]
      constructor <;> omega
    have hproduct : (y / blockSize * m.blocksW).toInt = y.toInt / 32 * m.blocksW.toInt := by
      rw [Int32.toInt_mul, hby, Int.bmod_eq_of_le] <;> omega
    have hsum : (x / blockSize + y / blockSize * m.blocksW).toInt =
        x.toInt / 32 + y.toInt / 32 * m.blocksW.toInt := by
      rw [Int32.toInt_add, hbx, hproduct, Int.bmod_eq_of_le] <;> omega
    rw [mulI32_eq_some_mul hstartFits, Option.bind_some,
      addI32_eq_some_add (by rw [hbx, hproduct]; constructor <;> omega), Option.bind_some]
    have hid := toUsize_eq_some.mpr (show (x / blockSize + y / blockSize * m.blocksW).toInt =
      ((x.toInt / 32 + y.toInt / 32 * m.blocksW.toInt).toNat : Nat) by omega)
    have hc := toUsize_eq_some.mpr (show (x % blockSize + blockSize * (y % blockSize)).toInt =
      ((x.toInt % 32 + 32 * (y.toInt % 32)).toNat : Nat) by omega)
    rw [hid, hc, Option.bind_some, Option.map_some]
    refine congrArg some (Eq.symm ((locate_eq_some hm).mpr ⟨hx, hy, hxw, hyh, ?_, by omega⟩))
    rw [Int.bmod_eq_of_le] <;> omega
  · rw [if_neg hsmall]
    rw [blockNumber] at hsmall
    by_cases hfits : FitsI32 ((y / blockSize).toInt * m.blocksW.toInt)
    · have hproduct : (y / blockSize * m.blocksW).toInt = y.toInt / 32 * m.blocksW.toInt := by
        rw [hby] at hfits
        rw [Int32.toInt_mul, hby, Int.bmod_eq_of_le hfits.1 (Int.lt_add_one_of_le hfits.2)]
      have hlarge : ¬ FitsI32 ((x / blockSize).toInt + (y / blockSize * m.blocksW).toInt) := by
        rw [hbx, hproduct]
        intro h
        exact hsmall (Int.lt_add_one_of_le h.2)
      rw [mulI32_eq_some_mul hfits, Option.bind_some, addI32, i32_eq_none.mpr hlarge]
      rfl
    · rw [mulI32, i32_eq_none.mpr hfits]
      rfl

theorem locate_of_not_inGrid (hm : m.Indexed) (h : ¬ m.InGrid x y) : m.locate x y = none := by
  cases hloc : m.locate x y with
  | none => rfl
  | some place =>
      obtain ⟨hx, hy, hxw, hyh, -⟩ := (locate_eq_some hm).mp hloc
      exact absurd ⟨hx, hy, hxw, hyh⟩ h

/-- Only the number of a block can overflow. -/
theorem locateChecked_eq (hm : m.Indexed) (x y : Int32) : m.locateChecked x y =
    if m.InGrid x y ∧ 2 ^ 31 ≤ m.blockNumber x y then none else some (m.locate x y) := by
  have hz : (0 : Int32).toInt = 0 := by decide
  have hb : blockSize.toInt = 32 := by decide
  obtain ⟨hw, hh, -⟩ := grid_eq hm
  obtain ⟨hwide, hwidth⟩ := toInt_mul_blockSize hm.blocksW_eq hm.width_pos hm.blocksW_pos
  obtain ⟨htall, hheight⟩ := toInt_mul_blockSize hm.blocksH_eq hm.height_pos hm.blocksH_pos
  have hwfits := (fitsI32_toInt m.width).2
  have hhfits := (fitsI32_toInt m.height).2
  have hcellsW : mulI32 m.blocksW blockSize = some (m.blocksW * blockSize) :=
    mulI32_eq_some_mul (by rw [hb]; constructor <;> omega)
  have hcellsH : mulI32 m.blocksH blockSize = some (m.blocksH * blockSize) :=
    mulI32_eq_some_mul (by rw [hb]; constructor <;> omega)
  rw [locateChecked, hcellsW, hcellsH]
  simp only [Option.bind_some, ge_iff_le, Int32.lt_iff_toInt_lt, Int32.le_iff_toInt_le, hz, hwide, htall]
  by_cases hin : m.InGrid x y
  · obtain ⟨hx, hy, hxw, hyh⟩ := hin
    rw [if_neg (by omega), if_neg (by omega), if_neg (by omega), blockAndCell_eq hm ⟨hx, hy, hxw, hyh⟩]
    by_cases hsmall : m.blockNumber x y < 2 ^ 31
    · rw [if_pos hsmall, if_neg (fun h => not_lt.mpr h.2 hsmall)]
    · rw [if_neg hsmall, if_pos ⟨⟨hx, hy, hxw, hyh⟩, not_lt.mp hsmall⟩]
  · have hreturns : ¬ (m.InGrid x y ∧ 2 ^ 31 ≤ m.blockNumber x y) := fun h => hin h.1
    rw [if_neg hreturns, locate_of_not_inGrid hm hin]
    rw [InGrid] at hin
    split
    · rfl
    · split
      · rfl
      · rw [if_pos (by omega)]

theorem getCellChecked_eq (hm : m.Indexed) (x y : Int32) : m.getCellChecked x y =
    if m.InGrid x y ∧ 2 ^ 31 ≤ m.blockNumber x y then none else some (m.getCell x y) := by
  rw [getCellChecked, locateChecked_eq hm]
  split
  · rfl
  · rw [Option.bind_some, getCell]
    cases hloc : m.locate x y with
    | none => rfl
    | some place =>
        obtain ⟨id, c⟩ := place
        obtain ⟨hid, -, hc⟩ := locate_lt hm hloc
        rw [← hm.length_indexes] at hid
        have hslotOf : m.slotOfChecked id = some (m.slotOf id) := by
          rw [slotOfChecked, slotOf, List.getElem?_eq_getElem hid, Option.map_some]
        dsimp only
        rw [hslotOf, Option.bind_some, cellAt]
        cases hslot : m.slotOf id with
        | none => rfl
        | some slot =>
            obtain ⟨hlt, -⟩ := slotOf_lt hm hslot
            simp only [List.getElem?_eq_getElem hlt, Option.bind_some, Vector.getElem?_eq_getElem hc,
              Option.getD_some]

end MapFormat.MapStore

namespace World

variable (w : World)

def validCoordChecked (x y : Int32) : Checked Bool :=
  if 0 ≤ x ∧ 0 ≤ y then
    (mulU32 w.chunksW chunkSize).bind fun width =>
      if x.toUInt32 < width then (mulU32 w.chunksH chunkSize).map fun height => decide (y.toUInt32 < height)
      else some false
  else some false

/-- The foreground over the road, as each reader has it. -/
def visibleChecked (x y : Int32) : Checked UInt8 :=
  (w.cells.getCellChecked x y).bind fun b =>
    if b ≠ 0 then some b
    else (w.road.getCellChecked x y).map fun r => if r = 0 then emptyCell else r

def getCellChecked (x y : Int32) : Checked UInt8 :=
  (w.validCoordChecked x y).bind fun valid => if valid then w.visibleChecked x y else some 0

/-- `i32::try_from` and `checked_add`: the coordinate, if there is one. -/
def coordinate (start : Int32) (n : Nat) : Option Int32 := (i32 n).bind (addI32 start)

def snapshotCell (x : Option Int32) (y : Int32) : Checked (Option UInt8) :=
  match x with
  | none => some none
  | some x => (w.validCoordChecked x y).bind fun valid => if valid then (w.visibleChecked x y).map some else some none

def snapshotRow (minX : Int32) (width : Nat) (y : Option Int32) : Checked (List (Option UInt8)) :=
  match y with
  | none => some (List.replicate width none)
  | some y => (List.range width).mapM fun col => w.snapshotCell (coordinate minX col) y

def snapshotCellsRectChecked (minX minY : Int32) (width height : Nat) : Checked (List (Option UInt8)) :=
  (withCapacity 2 (min (width * height) usizeMax)).bind fun _ =>
    ((List.range height).mapM fun row => w.snapshotRow minX width (coordinate minY row)).map List.flatten

def readChunkCells (chunkX chunkY : UInt32) : Checked (List UInt8) :=
  if chunkX ≥ w.chunksW ∨ chunkY ≥ w.chunksH then some (List.replicate chunkCells 0)
  else
    (mulU32 chunkX chunkSize).bind fun baseX => (mulU32 chunkY chunkSize).bind fun baseY =>
      ((List.range chunkSize.toNat).mapM fun y : Nat => (List.range chunkSize.toNat).mapM fun x : Nat =>
        (addU32 baseX (.ofNat x)).bind fun wx => (addU32 baseY (.ofNat y)).bind fun wy =>
          w.visibleChecked wx.toInt32 wy.toInt32).map List.flatten

/-- The cell that shows at a coordinate of the world. -/
def shown (x y : Int) : Option UInt8 :=
  if FitsI32 x ∧ FitsI32 y ∧ w.validCoord (.ofInt x) (.ofInt y) = true then some (w.getCell (.ofInt x) (.ofInt y))
  else none

/-- The readers return, and show one cell for one coordinate. -/
structure ReadersAgree (minX minY : Int32) (width height : Nat) : Prop where
  cell : ∀ x y, w.getCellChecked x y = some (w.getCell x y)
  rect : ∃ cells, w.snapshotCellsRectChecked minX minY width height = some cells ∧
    cells.length = height * width ∧ ∀ row col, row < height → col < width →
      cells[row * width + col]? = some (w.shown (minX.toInt + col) (minY.toInt + row))
  chunk : ∀ chunkX chunkY, ∃ bytes, w.readChunkCells chunkX chunkY = some bytes ∧ bytes.length = chunkCells ∧
    ∀ x y, x < chunkSize.toNat → y < chunkSize.toNat → bytes[y * chunkSize.toNat + x]? =
      some ((w.shown (chunkX.toNat * 32 + x) (chunkY.toNat * 32 + y)).getD 0)

/-- The sides of a world as its configuration bounds them, and the two maps over it. -/
structure Sized (w : World) : Prop where
  width_lt : w.chunksW.toNat * 32 < 2 ^ 31
  height_lt : w.chunksH.toNat * 32 < 2 ^ 31
  cells : w.cells.WellFormed
  road : w.road.WellFormed
  cellsSides : w.cells.width = (w.chunksW * chunkSize).toInt32 ∧ w.cells.height = (w.chunksH * chunkSize).toInt32
  roadSides : w.road.width = (w.chunksW * chunkSize).toInt32 ∧ w.road.height = (w.chunksH * chunkSize).toInt32

variable {w} {x y : Int32} {minX minY : Int32} {width height row col : Nat}

section Cells

/-- The number of the block of a coordinate in either map. -/
def blockNumber (w : World) (x y : Int32) : Int := x.toInt / 32 + y.toInt / 32 * w.chunksW.toNat

theorem Sized.sides (h : w.Sized) : (w.chunksW * chunkSize).toNat = w.chunksW.toNat * 32 ∧
    (w.chunksH * chunkSize).toNat = w.chunksH.toNat * 32 := by
  have hchunk : chunkSize.toNat = 32 := rfl
  have hw := h.width_lt
  have hh := h.height_lt
  rw [UInt32.toNat_mul, UInt32.toNat_mul, hchunk]
  exact ⟨Nat.mod_eq_of_lt (by omega), Nat.mod_eq_of_lt (by omega)⟩

theorem Sized.validCoord_iff (h : w.Sized) : w.validCoord x y = true ↔
    0 ≤ x.toInt ∧ 0 ≤ y.toInt ∧ x.toInt < w.chunksW.toNat * 32 ∧ y.toInt < w.chunksH.toNat * 32 := by
  rw [← inside_toInt, inside, decide_eq_true_eq, cellsWidth, cellsHeight, h.sides.1, h.sides.2]
  push_cast
  exact Iff.rfl

theorem validCoordChecked_eq (h : w.Sized) (x y : Int32) : w.validCoordChecked x y = some (w.validCoord x y) := by
  have hchunk : chunkSize.toNat = 32 := rfl
  have hw := h.width_lt
  have hh := h.height_lt
  have hwidth : mulU32 w.chunksW chunkSize = some w.cellsWidth := if_pos (by rw [hchunk]; omega)
  have hheight : mulU32 w.chunksH chunkSize = some w.cellsHeight := if_pos (by rw [hchunk]; omega)
  rw [validCoordChecked, validCoord, hwidth, hheight]
  by_cases hpos : 0 ≤ x ∧ 0 ≤ y
  · rw [if_pos hpos, Option.bind_some, Option.map_some]
    split
    · rename_i hx
      simp [hpos.1, hpos.2, hx]
    · rename_i hx
      simp [hx]
  · rw [if_neg hpos]
    refine congrArg some (Eq.symm (decide_eq_false fun hall => hpos ⟨hall.1, hall.2.1⟩))

/-- A map over the world has its coordinates and counts its blocks. -/
theorem Sized.overlies (h : w.Sized) {m : MapStore} (hm : m.Indexed)
    (hsides : m.width = (w.chunksW * chunkSize).toInt32 ∧ m.height = (w.chunksH * chunkSize).toInt32) :
    (w.validCoord x y = true → m.InGrid x y) ∧ m.blockNumber x y = w.blockNumber x y := by
  have hwide := h.width_lt
  have htall := h.height_lt
  rw [← h.sides.1] at hwide
  rw [← h.sides.2] at htall
  refine ⟨fun hvalid => Fits.inGrid hvalid hm hwide htall hsides.1 hsides.2, ?_⟩
  have hblocks := (Fits.toInt_side hwide).1
  rw [← hsides.1, ← hm.blocksW_eq, h.sides.1] at hblocks
  rw [MapStore.blockNumber, blockNumber, show m.blocksW.toInt = w.chunksW.toNat by omega]

theorem visibleChecked_eq (h : w.Sized) (hvalid : w.validCoord x y = true) :
    w.visibleChecked x y = if w.blockNumber x y < 2 ^ 31 then some (w.getCell x y) else none := by
  obtain ⟨hcells, hnumber⟩ := h.overlies (x := x) (y := y) h.cells.toIndexed h.cellsSides
  obtain ⟨hroad, hnumber'⟩ := h.overlies (x := x) (y := y) h.road.toIndexed h.roadSides
  rw [visibleChecked, MapStore.getCellChecked_eq h.cells.toIndexed, MapStore.getCellChecked_eq h.road.toIndexed,
    hnumber, hnumber']
  by_cases hsmall : w.blockNumber x y < 2 ^ 31
  · rw [if_neg (fun hlarge => not_lt.mpr hlarge.2 hsmall), if_neg (fun hlarge => not_lt.mpr hlarge.2 hsmall),
      if_pos hsmall, Option.bind_some, Option.map_some, getCell, if_pos hvalid]
    dsimp only
    split <;> rfl
  · rw [if_pos ⟨hcells hvalid, not_lt.mp hsmall⟩, if_neg hsmall]
    rfl

theorem getCellChecked_eq (h : w.Sized) (x y : Int32) : w.getCellChecked x y =
    if w.validCoord x y = true ∧ 2 ^ 31 ≤ w.blockNumber x y then none else some (w.getCell x y) := by
  rw [getCellChecked, validCoordChecked_eq h, Option.bind_some]
  by_cases hvalid : w.validCoord x y = true
  · rw [if_pos hvalid, visibleChecked_eq h hvalid]
    by_cases hsmall : w.blockNumber x y < 2 ^ 31
    · rw [if_pos hsmall, if_neg (fun hlarge => not_lt.mpr hlarge.2 hsmall)]
    · rw [if_neg hsmall, if_pos ⟨hvalid, not_lt.mp hsmall⟩]
  · rw [if_neg hvalid, if_neg (fun hlarge => hvalid hlarge.1), getCell, if_neg hvalid]

theorem blockNumber_lt (h : w.Sized) (hvalid : w.validCoord x y = true) :
    w.blockNumber x y < w.chunksW.toNat * w.chunksH.toNat := by
  obtain ⟨hx, hy, hxw, hyh⟩ := h.validCoord_iff.mp hvalid
  have hrow : y.toInt / 32 + 1 ≤ w.chunksH.toNat := by omega
  have hmul := mul_le_mul_of_nonneg_right hrow (show (0 : Int) ≤ w.chunksW.toNat by omega)
  rw [blockNumber]
  linarith [show x.toInt / 32 < w.chunksW.toNat by omega]

/-- Each cell can be read just when the number of each block fits. -/
theorem getCellChecked_iff (h : w.Sized) : (∀ x y, w.getCellChecked x y = some (w.getCell x y)) ↔
    w.chunksW.toNat * w.chunksH.toNat ≤ 2 ^ 31 := by
  constructor
  · intro hall
    by_contra hlarge
    have hpos : 0 < w.chunksW.toNat ∧ 0 < w.chunksH.toNat := by
      constructor <;> refine Nat.pos_of_ne_zero fun hzero => hlarge ?_ <;> rw [hzero] <;> omega
    have hw := h.width_lt
    have hh := h.height_lt
    have hx : (Int32.ofInt (w.chunksW.toNat * 32 - 1)).toInt = w.chunksW.toNat * 32 - 1 :=
      Int32.toInt_ofInt_of_le (by omega) (by omega)
    have hy : (Int32.ofInt (w.chunksH.toNat * 32 - 1)).toInt = w.chunksH.toNat * 32 - 1 :=
      Int32.toInt_ofInt_of_le (by omega) (by omega)
    have hlast := hall (.ofInt (w.chunksW.toNat * 32 - 1)) (.ofInt (w.chunksH.toNat * 32 - 1))
    rw [getCellChecked_eq h, if_pos] at hlast
    · cases hlast
    · refine ⟨h.validCoord_iff.mpr (by rw [hx, hy]; omega), ?_⟩
      rw [blockNumber, hx, hy, show ((w.chunksW.toNat : Int) * 32 - 1) / 32 = w.chunksW.toNat - 1 by omega,
        show ((w.chunksH.toNat : Int) * 32 - 1) / 32 = w.chunksH.toNat - 1 by omega]
      have hproduct : (2 : Int) ^ 31 < w.chunksW.toNat * w.chunksH.toNat := by exact_mod_cast not_le.mp hlarge
      linarith
  · intro hsmall x y
    rw [getCellChecked_eq h, if_neg]
    rintro ⟨hvalid, hlarge⟩
    have hlt := blockNumber_lt h hvalid
    have hproduct : (w.chunksW.toNat : Int) * w.chunksH.toNat ≤ 2 ^ 31 := by exact_mod_cast hsmall
    omega

end Cells

section Rectangles

theorem coordinate_eq_some {start x : Int32} {n : Nat} :
    coordinate start n = some x ↔ n < 2 ^ 31 ∧ x.toInt = start.toInt + n := by
  rw [coordinate, Option.bind_eq_some_iff]
  constructor
  · rintro ⟨a, ha, hx⟩
    have hn := i32_eq_some.mp ha
    have hsum := i32_eq_some.mp hx
    have hfits := (fitsI32_toInt a).2
    exact ⟨by omega, by omega⟩
  · rintro ⟨hn, hx⟩
    obtain ⟨a, ha⟩ := exists_toInt_iff.mpr (show FitsI32 n by constructor <;> omega)
    exact ⟨a, i32_eq_some.mpr ha, i32_eq_some.mpr (by omega)⟩

theorem coordinate_eq_none {start : Int32} {n : Nat} :
    coordinate start n = none ↔ ¬ (n < 2 ^ 31 ∧ FitsI32 (start.toInt + n)) := by
  rw [Option.eq_none_iff_forall_ne_some]
  constructor
  · rintro hnone ⟨hn, hfits⟩
    obtain ⟨x, hx⟩ := exists_toInt_iff.mpr hfits
    exact hnone x (coordinate_eq_some.mpr ⟨hn, hx⟩)
  · intro hnot x hx
    obtain ⟨hn, hsum⟩ := coordinate_eq_some.mp hx
    exact hnot ⟨hn, hsum ▸ fitsI32_toInt x⟩

theorem shown_toInt (w : World) (x y : Int32) :
    w.shown x.toInt y.toInt = if w.validCoord x y = true then some (w.getCell x y) else none := by
  rw [shown, Int32.ofInt_toInt, Int32.ofInt_toInt]
  simp only [fitsI32_toInt, true_and]

/-- What the snapshot has for a place of the rectangle. -/
def taken (w : World) (minX minY : Int32) (row col : Nat) : Option UInt8 :=
  if row < 2 ^ 31 ∧ col < 2 ^ 31 then w.shown (minX.toInt + col) (minY.toInt + row) else none

theorem shown_of_not_fits {x y : Int} (h : ¬ (FitsI32 x ∧ FitsI32 y)) : w.shown x y = none :=
  if_neg fun hall => h ⟨hall.1, hall.2.1⟩

theorem snapshotRow_eq (h : w.Sized) (hcells : ∀ x y, w.getCellChecked x y = some (w.getCell x y)) (minX minY : Int32)
    (width row : Nat) : w.snapshotRow minX width (coordinate minY row) =
      some ((List.range width).map (w.taken minX minY row)) := by
  cases hy : coordinate minY row with
  | none =>
      have hrow := coordinate_eq_none.mp hy
      have hnone : w.taken minX minY row = fun _ => none := by
        funext col
        rw [taken]
        split
        · rename_i hsmall
          exact shown_of_not_fits fun hfits => hrow ⟨hsmall.1, hfits.2⟩
        · rfl
      rw [hnone, List.map_const', List.length_range]
      rfl
  | some y =>
      obtain ⟨hrow, hsum⟩ := coordinate_eq_some.mp hy
      refine mapM_eq_some_map fun col _ => ?_
      cases hx : coordinate minX col with
      | none =>
          have hcol := coordinate_eq_none.mp hx
          refine congrArg some (Eq.symm ?_)
          rw [taken]
          split
          · rename_i hsmall
            exact shown_of_not_fits fun hfits => hcol ⟨hsmall.2, hfits.1⟩
          · rfl
      | some x =>
          obtain ⟨hcol, hsum'⟩ := coordinate_eq_some.mp hx
          have hread := hcells x y
          have htaken : w.taken minX minY row col =
              if w.validCoord x y = true then some (w.getCell x y) else none := by
            rw [taken, if_pos ⟨hrow, hcol⟩, ← hsum, ← hsum', shown_toInt]
          rw [getCellChecked, validCoordChecked_eq h, Option.bind_some] at hread
          rw [snapshotCell, validCoordChecked_eq h, Option.bind_some, htaken]
          split
          · rename_i hvalid
            rw [if_pos hvalid] at hread
            rw [hread]
            rfl
          · rfl

theorem isSome_withCapacity : (withCapacity 2 (min (width * height) usizeMax)).isSome ↔ width * height < 2 ^ 62 := by
  rw [withCapacity, usizeMax]
  split
  · rename_i hfits
    exact iff_of_true rfl (by omega)
  · rename_i hlarge
    exact iff_of_false (fun h => by cases h) (by omega)

theorem snapshotCellsRectChecked_eq (h : w.Sized) (hcells : ∀ x y, w.getCellChecked x y = some (w.getCell x y))
    (hroom : width * height < 2 ^ 62) (minX minY : Int32) : w.snapshotCellsRectChecked minX minY width height =
      some ((List.range height).flatMap fun row => (List.range width).map (w.taken minX minY row)) := by
  obtain ⟨u, hu⟩ := Option.isSome_iff_exists.mp (isSome_withCapacity.mpr hroom)
  rw [snapshotCellsRectChecked, hu, Option.bind_some,
    mapM_eq_some_map fun row _ => snapshotRow_eq h hcells minX minY width row, Option.map_some, List.flatMap_def]

theorem getElem?_rows {α : Type} (f : Nat → Nat → α) (hrow : row < height) (hcol : col < width) :
    ((List.range height).flatMap fun row => (List.range width).map (f row))[row * width + col]? =
      some (f row col) := by
  have hwidth : 0 < width := Nat.zero_lt_of_lt hcol
  have hdiv : (row * width + col) / width = row := by
    rw [Nat.add_comm, Nat.add_mul_div_right _ _ hwidth, Nat.div_eq_of_lt hcol, Nat.zero_add]
  have hmod : (row * width + col) % width = col := by
    rw [Nat.add_comm, Nat.add_mul_mod_self_right, Nat.mod_eq_of_lt hcol]
  rw [Lib.FixedWidth.getElem?_flatMap _ width hwidth (by simp), hdiv, hmod, List.getElem?_range hrow,
    Option.bind_some, List.getElem?_map, List.getElem?_range hcol, Option.map_some]

theorem isSome_shown (h : w.Sized) (x y : Int) : (w.shown x y).isSome ↔ w.inside (x, y) = true := by
  have hw := h.width_lt
  have hh := h.height_lt
  rw [shown]
  constructor
  · intro hsome
    split at hsome
    · rename_i hall
      obtain ⟨⟨hx, hx'⟩, ⟨hy, hy'⟩, hvalid⟩ := hall
      rw [← inside_toInt, Int32.toInt_ofInt_of_le (by omega) (by omega),
        Int32.toInt_ofInt_of_le (by omega) (by omega)] at hvalid
      exact hvalid
    · cases hsome
  · intro hin
    have hbounds := hin
    rw [inside, decide_eq_true_eq, cellsWidth, cellsHeight, h.sides.1, h.sides.2] at hbounds
    have hx : (Int32.ofInt x).toInt = x := Int32.toInt_ofInt_of_le (by omega) (by omega)
    have hy : (Int32.ofInt y).toInt = y := Int32.toInt_ofInt_of_le (by omega) (by omega)
    rw [if_pos]
    · rfl
    · refine ⟨by constructor <;> omega, by constructor <;> omega, ?_⟩
      rw [← inside_toInt, hx, hy]
      exact hin

/-- The places of the rectangle beyond the reach of an `i32` index lie outside the world. -/
def Indexable (w : World) (minX minY : Int32) (width height : Nat) : Prop :=
  ∀ row col, row < height → col < width → w.inside (minX.toInt + col, minY.toInt + row) = true →
    row < 2 ^ 31 ∧ col < 2 ^ 31

theorem taken_eq_shown_iff (h : w.Sized) : (∀ row col, row < height → col < width →
    w.taken minX minY row col = w.shown (minX.toInt + col) (minY.toInt + row)) ↔
      w.Indexable minX minY width height := by
  refine forall_congr' fun row => forall_congr' fun col => imp_congr_right fun _ => imp_congr_right fun _ => ?_
  rw [← isSome_shown h, taken]
  split
  · rename_i hsmall
    exact iff_of_true rfl fun _ => hsmall
  · rename_i hlarge
    rw [eq_comm, ← Option.not_isSome_iff_eq_none]
    exact ⟨fun hnone hsome => absurd hsome hnone, fun hindexed hsome => hlarge (hindexed hsome)⟩

end Rectangles

section Chunks

/-- A cell of a chunk of the world is one of the world. -/
theorem Sized.chunkCell (h : w.Sized) {chunkX chunkY : UInt32} (hx : chunkX < w.chunksW) (hy : chunkY < w.chunksH)
    {i j : Nat} (hi : i < 32) (hj : j < 32) : ∃ wx wy : UInt32,
      addU32 (chunkX * chunkSize) (.ofNat i) = some wx ∧ addU32 (chunkY * chunkSize) (.ofNat j) = some wy ∧
        wx.toInt32.toInt = chunkX.toNat * 32 + i ∧ wy.toInt32.toInt = chunkY.toNat * 32 + j ∧
        w.validCoord wx.toInt32 wy.toInt32 = true := by
  have hw := h.width_lt
  have hh := h.height_lt
  rw [UInt32.lt_iff_toNat_lt] at hx hy
  have hsum {c : UInt32} {n : Nat} (hc : c.toNat * 32 + 32 ≤ 2 ^ 31) (hn : n < 32) :
      addU32 (c * chunkSize) (.ofNat n) = some (c * chunkSize + .ofNat n) ∧
        (c * chunkSize + .ofNat n).toInt32.toInt = c.toNat * 32 + n := by
    have hbase : (c * chunkSize).toNat = c.toNat * 32 := by
      rw [UInt32.toNat_mul, show chunkSize.toNat = 32 from rfl, Nat.mod_eq_of_lt (by omega)]
    have hoffset : (UInt32.ofNat n).toNat = n := UInt32.toNat_ofNat_of_lt' (by simp only [UInt32.size]; omega)
    have hnat : (c * chunkSize + UInt32.ofNat n).toNat = c.toNat * 32 + n := by
      rw [UInt32.toNat_add, hbase, hoffset, Nat.mod_eq_of_lt (by omega)]
    refine ⟨if_pos (by rw [hbase, hoffset]; omega), ?_⟩
    have hint : (c * chunkSize + UInt32.ofNat n).toInt32.toInt = (c * chunkSize + UInt32.ofNat n).toNat :=
      BitVec.toInt_eq_toNat_of_lt (show 2 * (c * chunkSize + UInt32.ofNat n).toNat < 2 ^ 32 by omega)
    rw [hint, hnat]
    push_cast
    rfl
  obtain ⟨haddX, hintX⟩ := hsum (c := chunkX) (by omega) hi
  obtain ⟨haddY, hintY⟩ := hsum (c := chunkY) (by omega) hj
  refine ⟨_, _, haddX, haddY, hintX, hintY, h.validCoord_iff.mpr ?_⟩
  rw [hintX, hintY]
  omega

theorem readChunkCells_eq (h : w.Sized) (hcells : ∀ x y, w.getCellChecked x y = some (w.getCell x y))
    (chunkX chunkY : UInt32) : w.readChunkCells chunkX chunkY =
      some ((List.range chunkSize.toNat).flatMap fun y : Nat => (List.range chunkSize.toNat).map fun x : Nat =>
        (w.shown (chunkX.toNat * 32 + x) (chunkY.toNat * 32 + y)).getD 0) := by
  have hchunk : chunkSize.toNat = 32 := rfl
  have hw := h.width_lt
  have hh := h.height_lt
  rw [readChunkCells]
  split
  · rename_i hout
    simp only [ge_iff_le, UInt32.le_iff_toNat_le] at hout
    have hzero : ∀ x y : Nat, x < 32 → y < 32 →
        (w.shown (chunkX.toNat * 32 + x) (chunkY.toNat * 32 + y)).getD 0 = 0 := by
      intro x y hx hy
      rw [shown, if_neg, Option.getD_none]
      rintro ⟨hfitsX, hfitsY, hvalid⟩
      obtain ⟨-, -, hxw, hyh⟩ := h.validCoord_iff.mp hvalid
      obtain ⟨hfitsX, hfitsX'⟩ := hfitsX
      obtain ⟨hfitsY, hfitsY'⟩ := hfitsY
      rw [Int32.toInt_ofInt_of_le (by omega) (by omega)] at hxw hyh
      omega
    refine congrArg some (Eq.symm (List.eq_replicate_iff.mpr ⟨?_, fun b hb => ?_⟩))
    · rw [Lib.FixedWidth.length_flatMap _ chunkSize.toNat (by simp), List.length_range]
      rfl
    · obtain ⟨y, hy, hb⟩ := List.mem_flatMap.mp hb
      obtain ⟨x, hx, rfl⟩ := List.mem_map.mp hb
      exact hzero x y (List.mem_range.mp hx) (List.mem_range.mp hy)
  · rename_i hin
    simp only [ge_iff_le, not_or, UInt32.not_le] at hin
    have hx := UInt32.lt_iff_toNat_lt.mp hin.1
    have hy := UInt32.lt_iff_toNat_lt.mp hin.2
    have hbaseX : mulU32 chunkX chunkSize = some (chunkX * chunkSize) := if_pos (by rw [hchunk]; omega)
    have hbaseY : mulU32 chunkY chunkSize = some (chunkY * chunkSize) := if_pos (by rw [hchunk]; omega)
    rw [hbaseX, hbaseY, Option.bind_some, Option.bind_some, List.flatMap_def]
    refine congrArg (Option.map List.flatten) (mapM_eq_some_map fun j hj => mapM_eq_some_map fun i hi => ?_)
    obtain ⟨wx, wy, haddX, haddY, hintX, hintY, hvalid⟩ :=
      h.chunkCell hin.1 hin.2 (List.mem_range.mp hi) (List.mem_range.mp hj)
    have hread := hcells wx.toInt32 wy.toInt32
    rw [getCellChecked, validCoordChecked_eq h, Option.bind_some, if_pos hvalid] at hread
    rw [haddX, haddY, Option.bind_some, Option.bind_some, hread, ← hintX, ← hintY, shown_toInt, if_pos hvalid,
      Option.getD_some]

end Chunks

/-- The readers agree just when the numbers of the blocks fit, the rectangle can be allocated, and no cell of the
world lies in it beyond the reach of an index. -/
theorem readersAgree_of_sized (h : w.Sized) (minX minY : Int32) (width height : Nat) :
    w.ReadersAgree minX minY width height ↔ w.chunksW.toNat * w.chunksH.toNat ≤ 2 ^ 31 ∧
      width * height < 2 ^ 62 ∧ w.Indexable minX minY width height := by
  constructor
  · rintro ⟨hcells, ⟨cells, hcellsEq, -, hshown⟩, -⟩
    have hroom : width * height < 2 ^ 62 := by
      rw [← isSome_withCapacity]
      rw [snapshotCellsRectChecked] at hcellsEq
      obtain ⟨u, hu, -⟩ := Option.bind_eq_some_iff.mp hcellsEq
      exact Option.isSome_iff_exists.mpr ⟨u, hu⟩
    refine ⟨(getCellChecked_iff h).mp hcells, hroom, (taken_eq_shown_iff h).mp fun row col hrow hcol => ?_⟩
    have heq := snapshotCellsRectChecked_eq h hcells hroom minX minY
    rw [hcellsEq] at heq
    have hplace := hshown row col hrow hcol
    rw [Option.some_inj.mp heq, getElem?_rows _ hrow hcol] at hplace
    exact Option.some_inj.mp hplace
  · rintro ⟨hblocks, hroom, hindexable⟩
    have hcells := (getCellChecked_iff h).mpr hblocks
    refine ⟨hcells, ?_, fun chunkX chunkY => ?_⟩
    · refine ⟨_, snapshotCellsRectChecked_eq h hcells hroom minX minY, ?_, fun row col hrow hcol => ?_⟩
      · rw [Lib.FixedWidth.length_flatMap _ width (by simp), List.length_range]
      · rw [getElem?_rows _ hrow hcol, (taken_eq_shown_iff h).mpr hindexable row col hrow hcol]
    · refine ⟨_, readChunkCells_eq h hcells chunkX chunkY, ?_, fun x y hx hy => getElem?_rows _ hy hx⟩
      rw [Lib.FixedWidth.length_flatMap _ chunkSize.toNat (by simp), List.length_range]
      rfl

end World

end OpenMines

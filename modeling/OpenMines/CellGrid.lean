import Mathlib.Data.Finset.Prod
import Mathlib.Data.Int.Interval
import OpenMines.Lib.FixedWidth
import OpenMines.World

namespace OpenMines

abbrev Pos := Int × Int

/-- The step in a direction: down, left, up, right. -/
def dirOffset (dir : Int32) : Int32 × Int32 :=
  if dir = 0 then (0, 1) else if dir = 1 then (-1, 0) else if dir = 2 then (0, -1) else if dir = 3 then (1, 0)
  else (0, 0)

/-- The definitions of `cells.json`; the source panics on a type that it does not list. -/
structure CellDefs where
  isEmpty : UInt8 → Bool
  isSand : UInt8 → Bool
  durability : UInt8 → UInt32

/-- A world as its cells show it: the two layers of cell types, and the damage of the cells. -/
structure CellGrid where
  width : Nat
  height : Nat
  foreground : Pos → UInt8
  road : Pos → UInt8
  durability : Pos → UInt32

namespace CellGrid

variable (defs : CellDefs)

def validCoord (g : CellGrid) (p : Pos) : Bool :=
  decide (0 ≤ p.1 ∧ 0 ≤ p.2 ∧ p.1 < g.width ∧ p.2 < g.height)

/-- The cell that shows where the two layers hold these types. -/
def visible (foreground road : UInt8) : UInt8 :=
  if foreground ≠ 0 then foreground else if road = 0 then emptyCell else road

def getCell (g : CellGrid) (p : Pos) : UInt8 :=
  if g.validCoord p then visible (g.foreground p) (g.road p) else 0

def getDurability (g : CellGrid) (p : Pos) : UInt32 := if g.validCoord p then g.durability p else 0

/-- What a row of the snapshot of a rectangle holds for a coordinate. -/
def look (g : CellGrid) (p : Pos) : Option UInt8 := if g.validCoord p then some (g.getCell p) else none

/-- The three layers at one coordinate. -/
def put (g : CellGrid) (p : Pos) (foreground road : UInt8) (durability : UInt32) : CellGrid :=
  { g with
    foreground := Function.update g.foreground p foreground
    road := Function.update g.road p road
    durability := Function.update g.durability p durability }

/-- `ok` tells whether the record of the write reached the journal. -/
def writeWorldCell (g : CellGrid) (p : Pos) (cell : WorldCell) (ok : Bool) : CellGrid :=
  if g.validCoord p && ok then
    if defs.isEmpty cell.cellType then g.put p 0 cell.cellType cell.durability
    else g.put p cell.cellType (g.road p) cell.durability
  else g

def setCellTyped (g : CellGrid) (p : Pos) (cellType : UInt8) (ok : Bool) : CellGrid :=
  g.writeWorldCell defs p ⟨cellType, if defs.isEmpty cellType then 0 else defs.durability cellType⟩ ok

def snapshotCellsRect (g : CellGrid) (minX minY : Int) (width height : Nat) : List (Option UInt8) :=
  (List.range height).flatMap (fun row : Nat =>
    (List.range width).map (fun col : Nat => g.look (minX + col, minY + row)))

/-- The coordinates of the grid. -/
def coords (g : CellGrid) : Finset Pos :=
  (Finset.range g.width ×ˢ Finset.range g.height).image (fun n => ((n.1 : Int), (n.2 : Int)))

variable {defs} {g : CellGrid} {p q : Pos} {cell : WorldCell} {ok : Bool}

theorem mem_coords : p ∈ g.coords ↔ g.validCoord p = true := by
  simp only [coords, Finset.mem_image, Finset.mem_product, Finset.mem_range, validCoord, decide_eq_true_eq]
  constructor
  · rintro ⟨n, ⟨hx, hy⟩, rfl⟩
    dsimp only
    omega
  · rintro ⟨hx, hy, hw, hh⟩
    refine ⟨(p.1.toNat, p.2.toNat), ⟨by omega, by omega⟩, Prod.ext ?_ ?_⟩
    · exact Int.toNat_of_nonneg hx
    · exact Int.toNat_of_nonneg hy

@[simp] theorem validCoord_put (fg rd : UInt8) (d : UInt32) : (g.put q fg rd d).validCoord p = g.validCoord p :=
  rfl

@[simp] theorem width_writeWorldCell : (g.writeWorldCell defs p cell ok).width = g.width := by
  unfold writeWorldCell
  repeat' split
  all_goals rfl

@[simp] theorem height_writeWorldCell : (g.writeWorldCell defs p cell ok).height = g.height := by
  unfold writeWorldCell
  repeat' split
  all_goals rfl

@[simp] theorem validCoord_writeWorldCell : (g.writeWorldCell defs q cell ok).validCoord p = g.validCoord p := by
  simp [validCoord]

@[simp] theorem coords_writeWorldCell : (g.writeWorldCell defs p cell ok).coords = g.coords := by
  simp [coords]

@[simp] theorem validCoord_setCellTyped (c : UInt8) : (g.setCellTyped defs q c ok).validCoord p = g.validCoord p :=
  validCoord_writeWorldCell

@[simp] theorem coords_setCellTyped (c : UInt8) : (g.setCellTyped defs p c ok).coords = g.coords :=
  coords_writeWorldCell

theorem getCell_put (fg rd : UInt8) (d : UInt32) (hvalid : g.validCoord q = true) :
    (g.put q fg rd d).getCell p = if p = q then visible fg rd else g.getCell p := by
  rw [getCell, getCell, validCoord_put]
  by_cases hp : p = q
  · subst hp
    simp [put, hvalid]
  · simp [put, hp]

theorem getDurability_put (fg rd : UInt8) (d : UInt32) (hvalid : g.validCoord q = true) :
    (g.put q fg rd d).getDurability p = if p = q then d else g.getDurability p := by
  rw [getDurability, getDurability, validCoord_put]
  by_cases hp : p = q
  · subst hp
    simp [put, hvalid]
  · simp [put, hp]

theorem put_of_ne (fg rd : UInt8) (d : UInt32) (h : p ≠ q) :
    (g.put q fg rd d).getCell p = g.getCell p ∧ (g.put q fg rd d).getDurability p = g.getDurability p := by
  simp only [getCell, getDurability, validCoord_put]
  simp [put, h]

/-- A write changes no other coordinate. -/
theorem writeWorldCell_of_ne (defs : CellDefs) (g : CellGrid) (cell : WorldCell) (ok : Bool) (h : p ≠ q) :
    (g.writeWorldCell defs q cell ok).getCell p = g.getCell p ∧
      (g.writeWorldCell defs q cell ok).getDurability p = g.getDurability p := by
  unfold writeWorldCell
  split
  · split
    · exact put_of_ne _ _ _ h
    · exact put_of_ne _ _ _ h
  · exact ⟨rfl, rfl⟩

/-- A write that reached the journal shows the cell, but for the type that shows nothing. -/
theorem writeWorldCell_self (hvalid : g.validCoord p = true) (hcell : cell.cellType ≠ 0) :
    (g.writeWorldCell defs p cell true).getCell p = cell.cellType ∧
      (g.writeWorldCell defs p cell true).getDurability p = cell.durability := by
  simp only [writeWorldCell, hvalid, Bool.and_self, if_true]
  split
  · simp [getCell_put _ _ _ hvalid, getDurability_put _ _ _ hvalid, visible, hcell]
  · simp [getCell_put _ _ _ hvalid, getDurability_put _ _ _ hvalid, visible, hcell]

theorem getCell_setCellTyped_self {c : UInt8} (hvalid : g.validCoord p = true) (hcell : c ≠ 0) :
    (g.setCellTyped defs p c true).getCell p = c :=
  (writeWorldCell_self hvalid hcell).1

theorem getCell_setCellTyped_of_ne {c : UInt8} (h : p ≠ q) : (g.setCellTyped defs q c ok).getCell p = g.getCell p :=
  (writeWorldCell_of_ne defs g _ ok h).1

@[simp] theorem writeWorldCell_failed : g.writeWorldCell defs p cell false = g := by
  simp [writeWorldCell]

theorem getCell_ne_zero (h : g.validCoord p = true) : g.getCell p ≠ 0 := by
  simp only [getCell, h, if_true, visible]
  split
  · assumption
  · split
    · decide
    · assumption

theorem look_congr {h : CellGrid} (hvalid : h.validCoord p = g.validCoord p) (hcell : h.getCell p = g.getCell p) :
    h.look p = g.look p := by
  rw [look, look, hvalid, hcell]

theorem getElem?_snapshotCellsRect {minX minY : Int} {width height row col : Nat} (hrow : row < height)
    (hcol : col < width) :
    (g.snapshotCellsRect minX minY width height)[row * width + col]? =
      some (g.look (minX + col, minY + row)) := by
  have hwidth : 0 < width := by omega
  have hdiv : (row * width + col) / width = row := by
    rw [Nat.add_comm, Nat.add_mul_div_right _ _ hwidth, Nat.div_eq_of_lt hcol, Nat.zero_add]
  have hmod : (row * width + col) % width = col := by
    rw [Nat.add_comm, Nat.add_mul_mod_self_right, Nat.mod_eq_of_lt hcol]
  rw [snapshotCellsRect, Lib.FixedWidth.getElem?_flatMap _ width hwidth (by simp), hdiv, hmod,
    List.getElem?_range hrow, Option.bind_some, List.getElem?_map, List.getElem?_range hcol, Option.map_some]

end CellGrid

end OpenMines

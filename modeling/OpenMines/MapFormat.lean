import OpenMines.Lib.LittleEndian

namespace OpenMines.MapFormat

open Lib.LittleEndian

def blockSize : Int32 := 32

def blockCells : Nat := 1024

def headerBytes : Nat := 8

/-- The index entry of a block that was never allocated. -/
def noSlot : Int32 := -1

abbrev Block := Vector UInt8 blockCells

def emptyBlock : Block := Vector.replicate blockCells 0

/-- `usize::try_from` of an `i32`. -/
def toUsize (v : Int32) : Option Nat := if 0 ≤ v then some v.toNatClampNeg else none

/-- The sparse cell store in the client's `.map` format. The `i32` arithmetic
is the wrapping arithmetic of the release profile. -/
structure MapStore where
  width : Int32
  height : Int32
  blocksW : Int32
  blocksH : Int32
  /-- block id to slot, or `noSlot` -/
  indexes : List Int32
  /-- slot to block id -/
  backIndex : List Nat
  blocks : List Block
  /-- slot changed since the last save -/
  dirty : List Bool
  /-- the changed slots only, each once -/
  dirtySlots : List Nat
  indexDirty : Bool
  needsHeader : Bool
  nextFlushGeneration : Nat
  deriving DecidableEq

namespace MapStore

def new (width height : Int32) : Except String MapStore :=
  if width ≤ 0 ∨ height ≤ 0 then
    .error s!"map dimensions must be positive, got {width}x{height}"
  else
    let blocksW := width / blockSize
    let blocksH := height / blockSize
    if blocksW ≤ 0 ∨ blocksH ≤ 0 then
      .error s!"map smaller than one 32x32 block: {width}x{height}"
    else
      match toUsize blocksW, toUsize blocksH with
      | some w, some h =>
        .ok
          { width, height, blocksW, blocksH
            indexes := List.replicate (w * h) noSlot
            backIndex := []
            blocks := []
            dirty := []
            dirtySlots := []
            indexDirty := true
            needsHeader := true
            nextFlushGeneration := 0 }
      | _, _ => .error "block grid too large"

/-- Block id and cell index of a coordinate, or nothing outside the grid of
whole blocks. -/
def locate (m : MapStore) (x y : Int32) : Option (Nat × Nat) :=
  if x < 0 ∨ y < 0 ∨ x ≥ m.blocksW * blockSize ∨ y ≥ m.blocksH * blockSize then none
  else
    let bx := x / blockSize
    let by_ := y / blockSize
    let cell := x % blockSize + blockSize * (y % blockSize)
    match toUsize (bx + by_ * m.blocksW), toUsize cell with
    | some blockId, some cellIdx => some (blockId, cellIdx)
    | _, _ => none

def slotOf (m : MapStore) (blockId : Nat) : Option Nat :=
  match m.indexes[blockId]? with
  | some s => if s = noSlot then none else toUsize s
  | none => none

def markSlotDirty (m : MapStore) (slot : Nat) : MapStore :=
  if m.dirty[slot]? = some false then
    { m with dirty := m.dirty.set slot true, dirtySlots := m.dirtySlots ++ [slot] }
  else m

/-- The byte stored for a cell of a block; an unallocated block reads as zeros. -/
def cellAt (m : MapStore) (blockId cellIdx : Nat) : UInt8 :=
  match m.slotOf blockId with
  | some slot => ((m.blocks[slot]?).bind (fun b => b[cellIdx]?)).getD 0
  | none => 0

def getCell (m : MapStore) (x y : Int32) : UInt8 :=
  match m.locate x y with
  | some (blockId, cellIdx) => m.cellAt blockId cellIdx
  | none => 0

/-- Append a zeroed block for a block id. The `expect` of the source on the
new slot number cannot fail: see `newSlot_fits`. -/
def allocate (m : MapStore) (blockId : Nat) : MapStore :=
  { m with
    blocks := m.blocks ++ [emptyBlock]
    backIndex := m.backIndex ++ [blockId]
    dirty := m.dirty ++ [false]
    indexes := m.indexes.set blockId (Int32.ofNat m.blocks.length)
    indexDirty := true }

def writeSlot (m : MapStore) (slot cellIdx : Nat) (cell : UInt8) : MapStore :=
  markSlotDirty { m with blocks := m.blocks.modify slot (·.setIfInBounds cellIdx cell) } slot

def setCell (m : MapStore) (x y : Int32) (cell : UInt8) : MapStore :=
  match m.locate x y with
  | none => m
  | some (blockId, cellIdx) =>
    match m.slotOf blockId with
    | some slot => m.writeSlot slot cellIdx cell
    | none => (m.allocate blockId).writeSlot m.blocks.length cellIdx cell

def isDirty (m : MapStore) : Bool := m.needsHeader || m.indexDirty || !m.dirtySlots.isEmpty

end MapStore

end OpenMines.MapFormat

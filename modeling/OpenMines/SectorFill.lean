import OpenMines.CellGrid
import OpenMines.Lib.Flood

namespace OpenMines.Generator

open Lib

/-- A cell of the map that is generated; nothing is there. -/
def emptyValue : UInt8 := 0

def spawnClearRows : Nat := 50

def sectorMinCells : Nat := 50

def gigSizeThreshold : Nat := 40000

/-- The cells of a chunk lie together. -/
def cellIndexInMap (chunksH : Nat) (p : Pos) : Nat :=
  let x := p.1.toNat
  let y := p.2.toNat
  (y / 32 + chunksH * (x / 32)) * 1024 + (y % 32 + 32 * (x % 32))

/-- The table of the palettes for the depth of a sector. -/
def depthTier (depth : Nat) : Nat :=
  if depth < 500 then 0 else if depth < 1000 then 1 else if depth < 2000 then 2 else if depth < 3000 then 3
  else if depth < 4000 then 4 else if depth < 6000 then 5 else if depth < 7000 then 6 else if depth < 8000 then 7
  else if depth < 10000 then 8 else if depth < 11000 then 9 else if depth < 13000 then 10
  else if depth < 15000 then 11 else if depth < 17000 then 12 else if depth < 18000 then 13 else 14

/-- What the search learns of a sector. -/
structure SectorShape where
  width : Int
  height : Int
  depth : Int

/-- The differences are those of the reference, mixed up as they are. -/
def SectorShape.visit (first : Pos) (s : SectorShape) (p : Pos) : SectorShape where
  width := if p.1 - first.1 < s.width then s.width else first.1 - first.2
  height := if p.2 - first.2 < s.height then s.height else p.1 - first.2
  depth := min s.depth p.2

/-- The size of the map in chunks, the seed, the durabilities of the types, and what the noise gives the cells of a
sector: nothing where no attempt succeeds. -/
structure GeneratorInput where
  chunksW : Nat
  chunksH : Nat
  seed : UInt32
  cellDur : UInt8 → UInt32
  fillTypes : (sectorSeed : UInt32) → (comp : List Pos) → (width height : Int) → (tier : Nat) → (gig : Bool) →
    Option (Nat → UInt8)

structure FlatMap where
  cells : Nat → UInt8
  durability : Nat → UInt32

/-- The loop over the map; `sectors` are those that were filled. -/
structure SectorFiller extends FlatMap where
  visited : Pos → Bool
  acc : List Pos
  sectorSeq : UInt32
  sectors : List (List Pos)

variable (input : GeneratorInput)

def GeneratorInput.width : Nat := input.chunksW * 32

def GeneratorInput.height : Nat := input.chunksH * 32

def GeneratorInput.inMap (p : Pos) : Bool := decide (0 ≤ p.1 ∧ 0 ≤ p.2 ∧ p.1 < input.width ∧ p.2 < input.height)

def GeneratorInput.index (p : Pos) : Nat := cellIndexInMap input.chunksH p

/-- In the order of the search. -/
def neighbors (p : Pos) : List Pos := [(p.1, p.2 + 1), (p.1, p.2 - 1), (p.1 - 1, p.2), (p.1 + 1, p.2)]

def FlatMap.isOpen (m : FlatMap) (p : Pos) : Bool := input.inMap p && m.cells (input.index p) = emptyValue

def FlatMap.write (m : FlatMap) (p : Pos) (cellType : UInt8) : FlatMap where
  cells := Function.update m.cells (input.index p) cellType
  durability := Function.update m.durability (input.index p) (input.cellDur cellType)

/-- The types are written; a cell without one stays empty. -/
def FlatMap.fillSector (m : FlatMap) (comp : List Pos) (types : Nat → UInt8) : FlatMap :=
  comp.zipIdx.foldl (fun m e => if types e.2 = emptyValue then m else m.write input e.1 (types e.2)) m

/-- The search from a cell. -/
def SectorFiller.component (s : SectorFiller) (p : Pos) : Flood Pos SectorShape :=
  Flood.fill neighbors (s.isOpen input) (SectorShape.visit p) (input.width * input.height)
    (Flood.start s.visited p ⟨0, 0, p.2⟩)

def SectorFiller.scan (s : SectorFiller) (p : Pos) : SectorFiller :=
  if s.visited p || !(s.cells (input.index p) = emptyValue) then s
  else
    let found := s.component input p
    let acc := s.acc ++ found.comp
    if acc.length < sectorMinCells then { s with visited := found.seen, acc }
    else
      let sectorSeq := s.sectorSeq + 1
      let types := input.fillTypes ((input.seed + sectorSeq) * 0x1337) acc found.data.width found.data.height
        (depthTier found.data.depth.toNat) (acc.length ≤ gigSizeThreshold)
      { toFlatMap := types.elim s.toFlatMap (s.toFlatMap.fillSector input acc)
        visited := found.seen
        acc := []
        sectorSeq
        sectors := s.sectors ++ [acc] }

/-- The cells of the map, row by row. -/
def GeneratorInput.cellsInOrder : List Pos :=
  (List.range input.height).flatMap fun y : Nat => (List.range input.width).map fun x : Nat => ((x : Int), (y : Int))

def fillSectors (m : FlatMap) : SectorFiller :=
  input.cellsInOrder.foldl (SectorFiller.scan input) ⟨m, fun _ => false, [], 0, []⟩

/-- The skeleton without the rows where the players appear. -/
def skeletonCells (skeleton : Nat → UInt8) : FlatMap :=
  let cells : Nat → UInt8 := fun i =>
    let x := i / 1024 / input.chunksH * 32 + i % 1024 / 32
    let y := i / 1024 % input.chunksH * 32 + i % 1024 % 32
    if y < spawnClearRows then emptyValue else skeleton (x * input.height + y)
  ⟨cells, fun i => input.cellDur (cells i)⟩

def generate (skeleton : Nat → UInt8) : SectorFiller := fillSectors input (skeletonCells input skeleton)

end OpenMines.Generator

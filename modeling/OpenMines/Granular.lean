import Mathlib.Data.List.Destutter
import OpenMines.CellGrid
import OpenMines.Lib.Run

namespace OpenMines

def granularScanRadius : Int := 16

def granularChunkSize : Int := 32

def granularCacheXPad : Int := 1

def granularCacheYLookahead : Int := 3

def granularWakeXMin : Int := -2

def granularWakeXMax : Int := 2

def granularWakeYMin : Int := -5

def granularWakeYMax : Int := 2

/-- In milliseconds. -/
def granularRegionReseedEvery : Nat := 5000

def granularCandidateBudget : Nat := 1024

/-- The cells of buildings and roads that nothing falls onto, although some are empty. -/
def isProtected (cell : UInt8) : Bool := cell == 0 || cell == 36 || cell == 37 || cell == 39

def isBoulder (cell : UInt8) : Bool := cell == 92 || cell == 93 || cell == 94

/-- The rectangle of coordinates around one, row after row. -/
def window (xMin xMax yMin yMax : Int) (p : Pos) : List Pos :=
  (List.range (yMax - yMin + 1).toNat).flatMap (fun dy : Nat =>
    (List.range (xMax - xMin + 1).toNat).map (fun dx : Nat => (p.1 + xMin + dx, p.2 + yMin + dy)))

theorem mem_window {xMin xMax yMin yMax : Int} {p q : Pos} : q ∈ window xMin xMax yMin yMax p ↔
    (xMin ≤ q.1 - p.1 ∧ q.1 - p.1 ≤ xMax) ∧ yMin ≤ q.2 - p.2 ∧ q.2 - p.2 ≤ yMax := by
  simp only [window, List.mem_flatMap, List.mem_map, List.mem_range]
  constructor
  · rintro ⟨dy, hdy, dx, hdx, rfl⟩
    simp only
    omega
  · rintro ⟨⟨hx, hx'⟩, hy, hy'⟩
    refine ⟨(q.2 - p.2 - yMin).toNat, by omega, (q.1 - p.1 - xMin).toNat, by omega, ?_⟩
    apply Prod.ext <;> simp only <;> omega

namespace CellDefs

variable (defs : CellDefs)

/-- A type that a grain falls onto, wherever it is inside the world. -/
def passable (cell : UInt8) : Bool := defs.isEmpty cell && !isProtected cell

def cellIsGranular (cell : UInt8) : Bool := defs.isSand cell || isBoulder cell

/-- The table of `cells.json`; the durabilities are the bits of an `f32`. -/
def cellsJson : CellDefs where
  isEmpty cell := cell ∈ [30, 31, 32, 33, 34, 35, 36, 37, 39, 83]
  isSand cell := cell ∈ [60, 61, 62, 63, 64, 65, 66, 67, 68, 91, 95, 96, 97, 98, 99, 100]
  durability cell :=
    [0, 0, 0, 0, 0, 0, 0, 0, 0, 0, 0, 0, 0, 0, 0, 0, 0, 0, 0, 0, 0, 0, 0, 0, 0, 0, 0, 0, 0, 0, 0, 0, 0,
      0, 0, 0, 0, 0, 0, 0, 1120403456, 1120403456, 1120403456, 1128792064, 1128792064, 1128792064, 0,
      0, 1108344832, 0, 1120403456, 1120403456, 1120403456, 1120403456, 1120403456, 1120403456, 0, 0,
      0, 0, 1092616192, 1092616192, 1101004800, 1101004800, 1109393408, 1109393408, 1090519040,
      1099431936, 1099431936, 0, 0, 1084227584, 1088421888, 1092616192, 1101004800, 1093664768, 0, 0,
      0, 0, 1082130432, 1065353216, 1121058816, 0, 0, 0, 0, 0, 0, 0, 0, 1077936128, 1112014848,
      1112014848, 1112014848, 1082130432, 1082130432, 1084227584, 1084227584, 1077936128, 1077936128,
      1082130432, 1084227584, 1077936128, 0, 1116471296, 0, 1065353216, 1084227584, 1082130432,
      1077936128, 1077936128, 1077936128, 1097859072, 0, 0, 1112014848, 0, 1103626240, 0, 1119092736,
      1127153664, 1163575296, 0, 0, 0].getD cell.toNat 0

end CellDefs

section Analysis

variable (defs : CellDefs)

def isPassable (g : CellGrid) (p : Pos) : Bool := g.validCoord p && defs.passable (g.getCell p)

structure GranularScanCache where
  minX : Int
  minY : Int
  width : Nat
  height : Nat
  cells : List (Option UInt8)

namespace GranularScanCache

def get (cache : GranularScanCache) (p : Pos) : Option UInt8 :=
  let rx := p.1 - cache.minX
  let ry := p.2 - cache.minY
  if rx < 0 ∨ ry < 0 then none
  else if rx.toNat ≥ cache.width ∨ ry.toNat ≥ cache.height then none
  else cache.cells[ry.toNat * cache.width + rx.toNat]?.join

def ofBounds (g : CellGrid) (minX maxX minY maxY : Int) : GranularScanCache :=
  let width := (maxX - minX + 1).toNat
  let height := (maxY - minY + 1).toNat
  { minX, minY, width, height, cells := g.snapshotCellsRect minX minY width height }

/-- The cells around a player. -/
def new (g : CellGrid) (player : Pos) : GranularScanCache :=
  ofBounds g (player.1 - granularScanRadius - granularCacheXPad)
    (player.1 + granularScanRadius + granularCacheXPad) (player.2 - granularScanRadius)
    (player.2 + granularScanRadius + granularCacheYLookahead)

def forCandidates (g : CellGrid) (first : Pos) (rest : List Pos) : GranularScanCache :=
  ofBounds g
    (rest.foldl (fun m c => min m (c.1 - granularCacheXPad)) (first.1 - granularCacheXPad))
    (rest.foldl (fun m c => max m (c.1 + granularCacheXPad)) (first.1 + granularCacheXPad))
    (rest.foldl (fun m c => min m c.2) first.2)
    (rest.foldl (fun m c => max m (c.2 + granularCacheYLookahead)) (first.2 + granularCacheYLookahead))

end GranularScanCache

def isPassableCached (cache : GranularScanCache) (p : Pos) : Bool :=
  match cache.get p with
  | none => false
  | some cell => defs.passable cell

def downFreeCached (cache : GranularScanCache) (x y : Int) : Nat :=
  if isPassableCached defs cache (x, y + 1) then
    if (cache.get (x, y + 2)).any defs.cellIsGranular then
      if !isPassableCached defs cache (x, y + 3) then 1 else 2
    else 1
  else if (cache.get (x, y + 1)).any defs.cellIsGranular then 0
  else 2

structure GranularIntent where
  src : Pos
  dest : Pos
  cell : UInt8
  deriving DecidableEq

/-- The lexicographic order of the source's `stable_key`. -/
def GranularIntent.stableLe (a b : GranularIntent) : Bool :=
  let key (i : GranularIntent) : List Int := [i.src.1, i.src.2, i.dest.1, i.dest.2, i.cell.toNat]
  decide (key a ≤ key b)

/-- The side that a grain tries first alternates like a chessboard. -/
def granularSlideOrder (x y : Int) : Int × Int :=
  if (x + y) % 2 = 0 then (x + 1, x - 1) else (x - 1, x + 1)

def canSlide (snapshot : GranularScanCache) (cell : UInt8) (sy tx : Int) : Bool :=
  isPassableCached defs snapshot (tx, sy + 1) &&
    (defs.isSand cell || isPassableCached defs snapshot (tx, sy))

/-- Where the grain at a coordinate of the world goes. -/
def granularIntent (snapshot : GranularScanCache) (s : Pos) (cell : UInt8) : Option GranularIntent :=
  if !defs.isSand cell && !isBoulder cell then none
  else if downFreeCached defs snapshot s.1 s.2 = 1 then some ⟨s, (s.1, s.2 + 1), cell⟩
  else if downFreeCached defs snapshot s.1 s.2 ≠ 0 then none
  else if canSlide defs snapshot cell s.2 (granularSlideOrder s.1 s.2).1 then
    some ⟨s, ((granularSlideOrder s.1 s.2).1, s.2 + 1), cell⟩
  else if canSlide defs snapshot cell s.2 (granularSlideOrder s.1 s.2).2 then
    some ⟨s, ((granularSlideOrder s.1 s.2).2, s.2 + 1), cell⟩
  else none

def analyzeGranularCandidate (g : CellGrid) (snapshot : GranularScanCache) (s : Pos) :
    Option GranularIntent :=
  if !g.validCoord s then none else (snapshot.get s).bind (granularIntent defs snapshot s)

/-- `GranularChunkKey::for_cell`. -/
def granularChunkKey (p : Pos) : Pos := (p.1 / granularChunkSize, p.2 / granularChunkSize)

structure GranularCandidateBatch where
  owner : Pos
  candidates : List Pos
  snapshot : GranularScanCache

/-- One batch a chunk, in the order of the chunks. -/
def buildGranularCandidateBatches (g : CellGrid) (candidates : List Pos) : List GranularCandidateBatch :=
  let owners := (candidates.map granularChunkKey).dedup.mergeSort
    (fun a b => decide (a.1 < b.1 ∨ a.1 = b.1 ∧ a.2 ≤ b.2))
  owners.filterMap (fun owner =>
    match candidates.filter (fun c => granularChunkKey c = owner) with
    | [] => none
    | first :: rest => some ⟨owner, first :: rest, .forCandidates g first rest⟩)

def analyzeGranularBatch (g : CellGrid) (batch : GranularCandidateBatch) : List GranularIntent :=
  batch.candidates.filterMap (analyzeGranularCandidate defs g batch.snapshot)

def analyzeGranularCandidates (g : CellGrid) (candidates : List Pos) : List GranularIntent :=
  (buildGranularCandidateBatches g candidates).flatMap (analyzeGranularBatch defs g)

/-- Sort, and keep the first of neighbours with one source. -/
def canonicalizeGranularIntents (intents : List GranularIntent) : List GranularIntent :=
  (intents.mergeSort GranularIntent.stableLe).destutter (fun a b => a.src ≠ b.src)

structure GranularApplyResult where
  grid : CellGrid
  landedCells : List Pos
  /-- the coordinates of the cell updates to broadcast -/
  effects : List Pos
  anchors : List Pos

/-- The durability is read before the source is cleared, and goes along. -/
def moveGrain (g : CellGrid) (i : GranularIntent) (srcOk destOk : Bool) : CellGrid :=
  (g.setCellTyped defs i.src emptyCell srcOk).writeWorldCell defs i.dest
    ⟨i.cell, g.getDurability i.src⟩ destOk

/-- The loop over the intents. The head of `io` tells whether the records of the two
writes of the next move reach the journal. -/
def applyGranularIntents (g : CellGrid) : List (Bool × Bool) → List GranularIntent → GranularApplyResult
  | _, [] => ⟨g, [], [], []⟩
  | io, i :: rest =>
    if isPassable defs g i.dest then
      let ok := io.headD (true, true)
      let r := applyGranularIntents (moveGrain defs g i ok.1 ok.2) io.tail rest
      ⟨r.grid, i.dest :: r.landedCells, i.src :: i.dest :: r.effects, i.src :: i.dest :: r.anchors⟩
    else
      let r := applyGranularIntents g io rest
      { r with anchors := i.src :: r.anchors }

end Analysis

structure GranularPhysicsState where
  /-- the set of the active cells -/
  activeCells : List Pos
  regionSeededAt : List (Pos × Nat)

namespace GranularPhysicsState

variable (defs : CellDefs)

/-- Activate the grains among the listed coordinates. -/
def activate (state : GranularPhysicsState) (granular : Pos → Bool) (ps : List Pos) :
    GranularPhysicsState :=
  { state with
    activeCells := ps.foldl (fun cells p => if granular p then cells.insert p else cells) state.activeCells }

def activateGranularNeighborhood (g : CellGrid) (state : GranularPhysicsState) (p : Pos) :
    GranularPhysicsState :=
  state.activate (fun a => g.validCoord a && defs.cellIsGranular (g.getCell a)) (window (-1) 1 (-2) 1 p)

def seedActiveRegion (g : CellGrid) (state : GranularPhysicsState) (player : Pos) (now : Nat) :
    GranularPhysicsState :=
  let key := granularChunkKey player
  if (state.regionSeededAt.lookup key).any (fun seededAt => now - seededAt < granularRegionReseedEvery) then
    state
  else
    let cache := GranularScanCache.new g player
    let state := { state with
      regionSeededAt := (key, now) :: state.regionSeededAt.filter (fun e => e.1 ≠ key) }
    state.activate (fun p => (cache.get p).any defs.cellIsGranular)
      (window (-granularScanRadius) granularScanRadius (-granularScanRadius) granularScanRadius player)

/-- The candidates of a step, the lowest first, and how many are left for later steps. -/
def takeCandidates (state : GranularPhysicsState) (limit : Nat) :
    GranularPhysicsState × List Pos × Nat :=
  let candidates := state.activeCells.mergeSort
    (fun a b => decide (b.2 < a.2 ∨ a.2 = b.2 ∧ a.1 ≤ b.1))
  if state.activeCells.length ≤ limit then ({ state with activeCells := [] }, candidates, 0)
  else
    let taken := candidates.take limit
    ({ state with activeCells := state.activeCells.filter (fun p => p ∉ taken) }, taken,
      candidates.length - limit)

end GranularPhysicsState

structure GranularWakeState where
  points : List Pos
  regionSeeds : List Pos

structure GranularSystem where
  grid : CellGrid
  wake : GranularWakeState
  state : GranularPhysicsState

namespace GranularSystem

variable (defs : CellDefs)

def wakeWindow (p : Pos) : List Pos :=
  window granularWakeXMin granularWakeXMax granularWakeYMin granularWakeYMax p

/-- `GranularWakeQueue::wake_neighborhood`. -/
def wakeNeighborhood (wake : GranularWakeState) (p : Pos) : GranularWakeState :=
  { wake with points := wake.points.insert p }

def seedRegion (wake : GranularWakeState) (p : Pos) : GranularWakeState :=
  { wake with regionSeeds := wake.regionSeeds.insert p }

/-- The loop over the wake points. -/
def activateWindows (g : CellGrid) (points : List Pos) (state : GranularPhysicsState) :
    GranularPhysicsState :=
  (buildGranularCandidateBatches g (points.flatMap wakeWindow).dedup).foldl
    (fun state batch => state.activate (fun p => (batch.snapshot.get p).any defs.cellIsGranular) batch.candidates)
    state

def activateWokenGranularCells (s : GranularSystem) (now : Nat) : GranularSystem :=
  let woken := activateWindows defs s.grid s.wake.points s.state
  { s with
    wake := ⟨[], []⟩
    state := s.wake.regionSeeds.foldl (fun state p => state.seedActiveRegion defs s.grid p now) woken }

/-- A step without what woke since the last one. -/
def granularStep (s : GranularSystem) (budget : Nat) (io : List (Bool × Bool)) :
    GranularSystem × GranularApplyResult :=
  let (state, candidates, _) := s.state.takeCandidates budget
  let intents := canonicalizeGranularIntents (analyzeGranularCandidates defs s.grid candidates)
  let result := applyGranularIntents defs s.grid io intents
  ({ s with
     grid := result.grid
     state := result.anchors.foldl (fun state p => state.activateGranularNeighborhood defs result.grid p) state },
   result)

/-- The source calls it with `granularCandidateBudget`. -/
def granularPhysicsSystem (s : GranularSystem) (now budget : Nat) (io : List (Bool × Bool)) : GranularSystem :=
  ((s.activateWokenGranularCells defs now).granularStep defs budget io).1

end GranularSystem

end OpenMines

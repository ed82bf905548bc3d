import OpenMines.PlayerPresence

namespace OpenMines

open Lib.Text

structure TeleportGuiView where
  source : WorldPos
  charge : Int32
  hp : Int32
  maxHp : Int32
  destinations : List WorldPos
  mapTiles : List (Option Bool)

/-- The world with the schedules that a teleport wakes. -/
structure TeleportWorld extends Presence where
  fits : chunksW * 32 < 2 ^ 31 ∧ chunksH * 32 < 2 ^ 31
  hazards : PlayerId → Option Nat
  granularSeeds : List WorldPos
  aliveSeeds : List WorldPos

def rangeCells : Int32 := 1000

def mapRadiusChunks : Nat := 8

def canOpen (cells : BuildingCells) (view : PackView) (pos : WorldPos) (playerClan : Int32) : Bool :=
  (cells view.packType).any (fun cs => view.hasCell cs pos) && (view.clanId = 0 || view.clanId = playerClan)

/-- The distance on each axis is less than the range. -/
def inRange (source : PackView) (p : WorldPos) : Bool :=
  (p.1 - source.x).abs < rangeCells && (p.2 - source.y).abs < rangeCells

def posLe (p q : WorldPos) : Bool := p.1 < q.1 || p.1 = q.1 && p.2 ≤ q.2

namespace TeleportWorld

variable (cells : BuildingCells) (s : TeleportWorld)

def chunkSpan (source last : Nat) : List Nat :=
  let radius := rangeCells.toInt.toNat / 32 + 1
  List.range' (source - radius) (min (source + radius) last + 1 - (source - radius))

def chunksInRange (source : ChunkPos) : List ChunkPos :=
  (chunkSpan source.2 (s.chunksH - 1)).flatMap fun row =>
    (chunkSpan source.1 (s.chunksW - 1)).map fun column => (column, row)

def nearbyDestinations (source : PackView) : List WorldPos :=
  ((s.chunksInRange (chunkPos source.origin)).flatMap s.chunkBuildings).filterMap fun entity => do
    let b ← s.entities entity
    guard (b.pending.isNone ∧ b.view.packType = .teleport ∧ 0 < b.view.charge ∧ b.view.origin ≠ source.origin ∧
      inRange source b.view.origin)
    some b.view.origin

def captureMap (center : WorldPos) : List (Option Bool) :=
  (List.range (2 * mapRadiusChunks + 1)).flatMap fun dy =>
    (List.range (2 * mapRadiusChunks + 1)).map fun dx =>
      let p : WorldPos := (.ofInt ((center.1.toInt / 32 + dx - mapRadiusChunks) * 32 + 16),
        .ofInt ((center.2.toInt / 32 + dy - mapRadiusChunks) * 32 + 16))
      if s.validCoord p then some (s.isEmpty p) else none

/-- The menu of a teleport, as the player would open it. -/
def prepareView (player : PlayerId) (p : WorldPos) : Option TeleportGuiView := do
  let view ← s.getPackAt p
  guard (view.packType = .teleport)
  let body ← s.players player
  guard (canOpen cells view body.pos (body.body.clanId.getD 0))
  some {
    source := view.origin
    charge := view.charge
    hp := view.hp
    maxHp := view.maxHp
    destinations := (s.nearbyDestinations view).mergeSort posLe
    mapTiles := s.captureMap view.origin }

def setWindow (player : PlayerId) (window : Option String) : TeleportWorld :=
  { s with
    players := Function.update s.players player
      ((s.players player).map fun p => { p with body := { p.body with currentWindow := window } }) }

def activateWindow (player : PlayerId) (p : WorldPos) : TeleportWorld :=
  s.setWindow player (some ("pack:" ++ toString p.1 ++ ":" ++ toString p.2))

def openMenu (player : PlayerId) (p : WorldPos) : TeleportWorld :=
  if (s.prepareView cells player p).isSome then s.activateWindow player p else s

def scheduleHazard (player : PlayerId) (dueAt : Nat) : TeleportWorld :=
  { s with hazards := Function.update s.hazards player (some ((s.hazards player).elim dueAt (min dueAt))) }

def seedGranularRegion (p : WorldPos) : TeleportWorld := { s with granularSeeds := s.granularSeeds.insert p }

def seedAliveRegion (p : WorldPos) : TeleportWorld := { s with aliveSeeds := s.aliveSeeds.insert p }

def setPos (player : PlayerId) (p : WorldPos) : TeleportWorld :=
  { s with players := Function.update s.players player ((s.players player).map fun q => { q with pos := p }) }

def checkChunkChanged (player : PlayerId) : TeleportWorld :=
  { s with
    players := (s.prepareChunkChanged player).players
    chunkPlayers := (s.prepareChunkChanged player).chunkPlayers }

/-- The button of a destination. -/
def apply (player : PlayerId) (coords : String) (now : Nat) : TeleportWorld :=
  match (s.players player).bind fun p => s.teleportTarget p coords with
  | none => s
  | some target =>
    (((((s.setWindow player none).setPos player target).scheduleHazard player now).seedGranularRegion target)
      |>.seedAliveRegion target) |>.checkChunkChanged player

end TeleportWorld

inductive TeleportEvent
  | openMenu (player : PlayerId) (p : WorldPos)
  | press (player : PlayerId) (coords : String) (now : Nat)
  | build (b : BuildingEntity)
  /-- what happens to a building that stays where it is -/
  | change (entity : EntityId) (b : BuildingEntity)
  | remove (entity : EntityId)
  /-- everything else that happens to the players, the cells and the schedules -/
  | others (t : TeleportWorld)

namespace TeleportWorld

variable (cells : BuildingCells)

def withIndex (s : TeleportWorld) (index : BuildingIndex) : TeleportWorld := { s with toBuildingIndex := index }

def step (s : TeleportWorld) : TeleportEvent → TeleportWorld
  | .openMenu player p => s.openMenu cells player p
  | .press player coords now => s.apply player coords now
  | .build b => if s.validCoord b.view.origin then s.withIndex (s.toBuildingIndex.spawnBuilding b) else s
  | .change entity b =>
    if (s.entities entity).any fun old => b.view.origin = old.view.origin then
      s.withIndex (s.toBuildingIndex.setEntity entity (some b))
    else s
  | .remove entity =>
    (((s.entities entity).bind fun b => s.toBuildingIndex.removeBuilding b.view entity).map s.withIndex).getD s
  | .others t =>
    { t with
      toBuildingIndex := s.toBuildingIndex
      chunksW := s.chunksW
      chunksH := s.chunksH
      sized := s.sized
      fits := s.fits }

def run (s : TeleportWorld) (es : List TeleportEvent) : TeleportWorld := es.foldl (step cells) s

def noBuildings (s : TeleportWorld) : TeleportWorld := s.withIndex ⟨fun _ => none, fun _ => none, fun _ => [], 0⟩

end TeleportWorld

end OpenMines

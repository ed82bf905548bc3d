import OpenMines.CellWorld
import OpenMines.Lib.Exits
import OpenMines.PlayerPresence
import OpenMines.ProgrammatorSystem

namespace OpenMines

open Lib.Exits

structure DeathStats where
  money : Int64
  creds : Int64
  crystals : Fin 6 → Int64
  health : Int32
  maxHealth : Int32

structure DeathView where
  lastChunk : Option ChunkPos
  visibleChunks : List ChunkPos

/-- The components of a player that a death reads and writes; each of them can be missing. -/
structure DeathPlayer where
  stats : Option DeathStats
  pos : Option WorldPos
  /-- `resp_x` and `resp_y` of `PlayerMetadata` -/
  resp : Option (Option Int32 × Option Int32)
  window : Option (Option String)
  view : Option DeathView
  dirty : Option Bool
  program : Option ProgrammatorState

structure RespStats where
  cost : Int32
  charge : Int32

structure RespBuilding where
  pending : Bool
  packType : Option PackType
  pos : Option WorldPos
  stats : Option RespStats
  owner : Option PlayerId
  /-- the money of `BuildingStorage` -/
  money : Option Int64
  dirty : Option Bool

structure DeathWorld where
  grid : CellGrid
  boxes : WorldPos → Option (Fin 6 → Int64)
  playerEntities : PlayerId → Option Entity
  players : Entity → DeathPlayer
  buildings : Entity → RespBuilding
  byOrigin : WorldPos → Option Entity
  chunkBuildings : ChunkPos → List Entity
  dirtyBuildings : Entity → Bool

inductive DeathCoreError
  | noPlayerEntity
  | playerState (component : String)
  | respState (component : String)
  deriving DecidableEq

structure DeathBroadcasts where
  boxCell : Option WorldPos
  fxDeath : Option WorldPos
  deathPos : WorldPos
  money : Int64
  creds : Int64
  respUsed : Bool
  basketCleared : Bool
  progStopped : Bool
  clearedSpawnCell : Option WorldPos

structure DeathCoreOutput where
  resp : WorldPos
  maxHealth : Int32
  broadcasts : DeathBroadcasts
  /-- the box that is to be saved -/
  save : Option (WorldPos × (Fin 6 → Int64))

/-- A player whose components are all there. -/
structure Dying where
  entity : Entity
  stats : DeathStats
  pos : WorldPos
  resp : Option Int32 × Option Int32
  program : ProgrammatorState

/-- The Resp that a player is bound to. -/
structure BoundResp where
  entity : Entity
  building : RespBuilding
  origin : WorldPos
  stats : RespStats
  owner : PlayerId

/-- Where a player respawns, and the Resp that it pays with the money that is in it. -/
structure Respawn where
  pos : WorldPos
  isFreeResp : Bool
  paid : Option (BoundResp × Int64)

def sumCrystals (crystals : Fin 6 → Int64) : Int64 := (List.ofFn crystals).foldl (· + ·) 0

namespace DeathWorld

variable (cells : BuildingCells) (rules : CellRules) (s : DeathWorld)

def getCell (p : WorldPos) : UInt8 := s.grid.getCell (worldPos p)

def validCoord (p : WorldPos) : Bool := s.grid.validCoord (worldPos p)

def isEmpty (p : WorldPos) : Bool := rules.isEmpty (s.getCell p)

def modifyPlayer (entity : Entity) (f : DeathPlayer → DeathPlayer) : DeathWorld :=
  { s with players := Function.update s.players entity (f (s.players entity)) }

def modifyStats (entity : Entity) (f : DeathStats → DeathStats) : DeathWorld :=
  s.modifyPlayer entity fun p => { p with stats := p.stats.map f }

def findPackCovering (p : WorldPos) : Option WorldPos :=
  ((PlacementWorld.chunksAround (chunkPos p)).flatMap s.chunkBuildings).findSome? fun entity => do
    let origin ← (s.buildings entity).pos
    let packType ← (s.buildings entity).packType
    if ((cells packType).getD []).any (fun d => origin.1 + d.1.1 = p.1 ∧ origin.2 + d.1.2 = p.2) then some origin
    else none

def dyingPlayer (player : PlayerId) : Except DeathCoreError Dying := do
  let entity ← orExit (s.playerEntities player) .noPlayerEntity
  let stats ← orExit (s.players entity).stats (.playerState "PlayerStats")
  let pos ← orExit (s.players entity).pos (.playerState "PlayerPosition")
  let resp ← orExit (s.players entity).resp (.playerState "PlayerMetadata")
  let _ ← orExit (s.players entity).window (.playerState "PlayerUI")
  let _ ← orExit (s.players entity).view (.playerState "PlayerView")
  let _ ← orExit (s.players entity).dirty (.playerState "PlayerFlags")
  let program ← orExit (s.players entity).program (.playerState "ProgrammatorState")
  return ⟨entity, stats, pos, resp, program⟩

def deathBoxCoord (pos : WorldPos) : Option WorldPos :=
  (CellWorld.pickBoxCoord s.validCoord (fun p => s.isEmpty rules p && rules.canPlaceOver (s.getCell p)) pos).filter
    fun p => (s.findPackCovering cells p).isNone

/-- `put_box_cell_authoritative`; `ok` tells whether the write of the cell reached the journal. -/
def putBoxCell (p : WorldPos) (crystals : Fin 6 → Int64) (ok : Bool) : DeathWorld :=
  { s with
    grid := s.grid.setCellTyped rules.toCellDefs (worldPos p) boxCell ok
    boxes := Function.update s.boxes p (some crystals) }

/-- The crystals go into a box, or nowhere. -/
def dropCrystals (d : Dying) (ok : Bool) : DeathWorld × Option WorldPos :=
  if 0 < sumCrystals d.stats.crystals then
    let cleared := s.modifyStats d.entity fun stats => { stats with crystals := fun _ => 0 }
    match s.deathBoxCoord cells rules d.pos with
    | some p => (cleared.putBoxCell rules p d.stats.crystals ok, some p)
    | none => (cleared, none)
  else (s, none)

def boundResp (resp : Option Int32 × Option Int32) : Except DeathCoreError (Option BoundResp) :=
  match resp with
  | (some x, some y) =>
    match s.byOrigin (x, y) with
    | none => .ok none
    | some entity =>
      if (s.buildings entity).pending then .ok none
      else do
        let packType ← orExit (s.buildings entity).packType (.respState "BuildingMetadata")
        if packType ≠ .resp then return none
        let stats ← orExit (s.buildings entity).stats (.respState "BuildingStats")
        let owner ← orExit (s.buildings entity).owner (.respState "BuildingOwnership")
        return some ⟨entity, s.buildings entity, (x, y), stats, owner⟩
  | _ => .ok none

end DeathWorld

namespace BoundResp

def respawnHere (resp : BoundResp) (money : Int64) : Bool :=
  resp.owner = 0 || (0 < resp.stats.charge && resp.stats.cost.toInt64 < money)

/-- The owner of a Resp is paid; a public one is free. -/
def payment (resp : BoundResp) : Except DeathCoreError (Option (BoundResp × Int64)) :=
  if 0 < resp.owner then do
    let money ← orExit resp.building.money (.respState "BuildingStorage")
    let _ ← orExit resp.building.dirty (.respState "BuildingFlags")
    return some (resp, money)
  else .ok none

end BoundResp

namespace DeathWorld

variable (cells : BuildingCells) (rules : CellRules) (s : DeathWorld)

def findRandomPublicResp (buildingEntities : List Entity) (draw : RespawnDraw) : WorldPos :=
  let publicResps := buildingEntities.filterMap fun entity => do
    let b := s.buildings entity
    guard (b.pending = false)
    let packType ← b.packType
    guard (packType = .resp)
    let owner ← b.owner
    guard (owner = 0)
    b.pos
  match publicResps[draw.pick % publicResps.length]? with
  | none => spawnPos
  | some origin => draw.near origin

def besideResp (draw : RespawnDraw) (origin : WorldPos) : WorldPos :=
  if s.validCoord (draw.near origin) && s.isEmpty rules (draw.near origin) then draw.near origin
  else (origin.1 + 2, origin.2)

def chooseRespawn (buildingEntities : List Entity) (d : Dying) (draw : RespawnDraw) :
    Except DeathCoreError Respawn := do
  let bound ← s.boundResp d.resp
  match bound with
  | none => return ⟨s.findRandomPublicResp buildingEntities draw, false, none⟩
  | some resp =>
    if resp.respawnHere d.stats.money then
      let paid ← resp.payment
      return ⟨s.besideResp rules draw resp.origin, resp.stats.cost = 0, paid⟩
    else return ⟨s.findRandomPublicResp buildingEntities draw, resp.stats.cost = 0, none⟩

def payResp (d : Dying) (resp : BoundResp) (money : Int64) : DeathWorld :=
  let cost := resp.stats.cost.toInt64
  let paid := s.modifyStats d.entity fun stats => { stats with money := stats.money - cost }
  { paid with
    buildings := Function.update paid.buildings resp.entity { resp.building with
      stats := some { resp.stats with charge := resp.stats.charge - 1 }
      money := some (money + cost)
      dirty := some true }
    dirtyBuildings := Function.update paid.dirtyBuildings resp.entity true }

def pay (d : Dying) (paid : Option (BoundResp × Int64)) : DeathWorld :=
  match paid with
  | none => s
  | some (resp, money) => s.payResp d resp money

def isMilitary (p : WorldPos) : Bool := s.getCell p = militaryBlock || s.getCell p = militaryBlockFrame

/-- A military block does not stay where a player respawns. -/
def clearSpawnCell (p : WorldPos) (ok : Bool) : DeathWorld :=
  if s.isMilitary p then { s with grid := s.grid.destroy rules.toCellDefs (worldPos p) ok } else s

def respawnAt (d : Dying) (p : WorldPos) (isFreeResp : Bool) : DeathWorld :=
  s.modifyPlayer d.entity fun player => { player with
    stats := player.stats.map fun stats => { stats with health := d.stats.maxHealth }
    pos := some p
    window := some none
    view := some ⟨none, []⟩
    dirty := some true
    program := some (d.program.die isFreeResp) }

/-- `apply_player_death_core`: the world after it, also where it fails. `boxOk` and `spawnOk` tell whether the
writes of the two cells reach the journal. -/
def applyPlayerDeathCore (buildingEntities : List Entity) (player : PlayerId) (draw : RespawnDraw)
    (boxOk spawnOk : Bool) : DeathWorld × Except DeathCoreError DeathCoreOutput :=
  match s.dyingPlayer player with
  | .error error => (s, .error error)
  | .ok d =>
    let (dropped, boxCell) := s.dropCrystals cells rules d boxOk
    match dropped.chooseRespawn rules buildingEntities d draw with
    | .error error => (dropped, .error error)
    | .ok respawn =>
      let paid := dropped.pay d respawn.paid
      let placed := (paid.clearSpawnCell rules respawn.pos spawnOk).respawnAt d respawn.pos respawn.isFreeResp
      (placed, .ok {
        resp := respawn.pos
        maxHealth := d.stats.maxHealth
        broadcasts := {
          boxCell := boxCell
          fxDeath := some d.pos
          deathPos := d.pos
          money := respawn.paid.elim 0 fun r => d.stats.money - r.1.stats.cost.toInt64
          creds := respawn.paid.elim 0 fun _ => d.stats.creds
          respUsed := respawn.paid.isSome
          basketCleared := 0 < sumCrystals d.stats.crystals
          progStopped := d.program.running && !(d.program.die respawn.isFreeResp).running
          clearedSpawnCell := if paid.isMilitary respawn.pos then some respawn.pos else none }
        save := boxCell.map fun p => (p, d.stats.crystals) })

end DeathWorld

end OpenMines

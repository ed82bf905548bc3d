import OpenMines.Lib.DirtyTracking
import OpenMines.PlayerComponents

namespace OpenMines

open Lib.DirtyTracking

/-- What a save of a player writes and a login takes from the row. `Q` is what is written of a programmator. -/
structure SavedPlayer (Q : Type) where
  passwd : String
  x : Int32
  y : Int32
  dir : Int32
  health : Int32
  money : Int64
  creds : Int64
  skin : Int32
  autoDig : Bool
  aggression : Bool
  crystals : Vector Int64 6
  clanId : Option Int32
  respX : Option Int32
  respY : Option Int32
  inventory : List (Int32 × Int32)
  skills : SkillSlots
  clanRank : Int32
  lastBonusAt : Int64
  programmator : Q
  deriving DecidableEq

/-- `extract_building_row`. -/
structure SavedBuilding where
  id : Int32
  typeCode : String
  x : Int32
  y : Int32
  ownerId : PlayerId
  clanId : Int32
  charge : Int32
  maxCharge : Int32
  cost : Int32
  hp : Int32
  maxHp : Int32
  clanzone : Int32
  moneyInside : Int64
  crystalsInside : Vector Int64 6
  itemsInside : List (Int32 × Int32)
  craftRecipeId : Option Int32
  craftNum : Int32
  craftEndTs : Int64
  craftReady : Bool
  deriving DecidableEq

variable {P Q : Type}

def PlayerEntity.saved (kept : P → Q) (c : PlayerEntity P) : SavedPlayer Q where
  passwd := c.passwd
  x := c.x
  y := c.y
  dir := c.dir
  health := c.health
  money := c.money
  creds := c.creds
  skin := c.skin
  autoDig := c.autoDig
  aggression := c.aggression
  crystals := c.crystals
  clanId := c.clanId
  respX := c.respX
  respY := c.respY
  inventory := c.inventory
  skills := c.skills
  clanRank := c.clanRank
  lastBonusAt := c.lastBonusAt
  programmator := kept c.programmator

/-- A row as it was saved, and the programmator that it gives. -/
def PlayerRow.saved (row : PlayerRow) (programmator : Q) : SavedPlayer Q where
  passwd := row.passwd
  x := row.x
  y := row.y
  dir := row.dir
  health := row.health
  money := row.money
  creds := row.creds
  skin := row.skin
  autoDig := row.autoDig
  aggression := row.aggression
  crystals := row.crystals
  clanId := row.clanId
  respX := row.respX
  respY := row.respY
  inventory := row.inventory
  skills := row.skills
  clanRank := row.clanRank
  lastBonusAt := row.lastBonusAt
  programmator

theorem saved_spawnPlayer (ops : PlayerOps P) (kept : P → Q) (row : PlayerRow) (session : SessionId) :
    (spawnPlayer ops row session).saved kept =
      { row.saved (kept (loadProgrammator ops row)) with
        health := if row.health ≤ 0 then ops.onHealthMax row.skills else row.health
        clanRank := row.asClanRank } := rfl

/-- A building entity: what `extract_building_row` reads, and `BuildingFlags`. -/
structure FlaggedBuilding where
  row : SavedBuilding
  dirty : Bool
  deriving DecidableEq

/-- The players and the buildings of the game, with the sets of those to save. The last two fields are for the proofs
alone: what the last snapshot of each has, or the row it was loaded from. -/
structure DirtyWorld (P Q : Type) where
  game : GameState P
  dirtyPlayers : List (Entity × SessionId)
  buildings : Entity → Option FlaggedBuilding
  dirtyBuildings : List Entity
  savedPlayer : PlayerId → Option (SavedPlayer Q)
  savedBuilding : Entity → Option SavedBuilding

inductive DirtyEvent (P : Type)
  | connect (hub : SessionHub) (row : PlayerRow) (session : SessionId) (now : Nat)
  | disconnect (player : PlayerId) (session : SessionId) (now : Nat)
  /-- `modify_player` with what its caller does. -/
  | modifyPlayer (player : PlayerId) (f : PlayerEntity P → PlayerEntity P)
  /-- A system or a command writes the components itself, and puts the player into the set or not. -/
  | writePlayer (player : PlayerId) (f : PlayerEntity P → PlayerEntity P) (insert : Bool)
  /-- A command saves the player along with what it did. -/
  | publishPlayer (player : PlayerId)
  /-- A round of snapshots, with permits for some. -/
  | flushPlayers (admits : Entity × SessionId → Bool)
  | spawnBuilding (entity : Entity) (row : SavedBuilding)
  | despawnBuilding (entity : Entity)
  /-- `modify_pack_with_db` and `modify_pack`. -/
  | modifyPack (entity : Entity) (f : FlaggedBuilding → FlaggedBuilding)
  | writeBuilding (entity : Entity) (f : FlaggedBuilding → FlaggedBuilding) (insert : Bool)
  | markBuildingDirty (entity : Entity)
  | publishBuilding (entity : Entity)
  | flushBuildings (admits : Entity → Bool)

namespace DirtyWorld

variable (ops : Nat → PlayerOps P) (kept : P → Q) (s : DirtyWorld P Q)

/-- Nobody plays yet, and the buildings are loaded. -/
def opened (rows : Entity → Option SavedBuilding) : DirtyWorld P Q where
  game := .new
  dirtyPlayers := []
  buildings e := (rows e).map fun row => ⟨row, false⟩
  dirtyBuildings := []
  savedPlayer _ := none
  savedBuilding := rows

section Players

def publishPlayer (player : PlayerId) : DirtyWorld P Q :=
  match s.game.playerComponent player with
  | some (_, c) => { s with savedPlayer := Function.update s.savedPlayer player (some (c.saved kept)) }
  | none => s

def connect (hub : SessionHub) (row : PlayerRow) (session : SessionId) (now : Nat) : DirtyWorld P Q :=
  { s with
    game := s.game.connectEntityInTick (ops now) hub row session
    savedPlayer :=
      if hub.isOpen session = true ∧ (s.game.playerComponent row.id).isNone then
        Function.update s.savedPlayer row.id (some (row.saved (kept (loadProgrammator (ops now) row))))
      else s.savedPlayer }

def disconnect (player : PlayerId) (session : SessionId) (now : Nat) : DirtyWorld P Q :=
  match s.game.activePlayerEntityForSession player session with
  | none => s
  | some _ => { s.publishPlayer kept player with game := (s.game.disconnectInTick (ops now) player session).1 }

/-- The components of a player are written, and the set gets it where the change says so. -/
def writePlayer (player : PlayerId) (f : PlayerEntity P → PlayerEntity P) (insert : PlayerEntity P → Bool) :
    DirtyWorld P Q :=
  match s.game.playerComponent player with
  | some (entity, c) =>
    { s with
      game := s.game.modifyPlayer player fun c => { f c with id := c.id, incarnation := c.incarnation }
      dirtyPlayers :=
        if insert (f c) = true then s.dirtyPlayers.insert (entity, c.incarnation) else s.dirtyPlayers }
  | none => s

def snapshotDirtyPlayerInEcs (entry : Entity × SessionId) : DirtyWorld P Q :=
  match s.game.ecs entry.1 with
  | none => s
  | some c =>
    if c.incarnation ≠ entry.2 ∨ c.dirty = false then s
    else if s.game.playerEntities c.id ≠ some entry.1 then s
    else
      { s with
        game := { s.game with ecs := Function.update s.game.ecs entry.1 (some { c with dirty := false }) }
        savedPlayer := Function.update s.savedPlayer c.id (some (c.saved kept)) }

/-- The entries without a permit are put back. -/
def flushDirtyPlayersOnce (admits : Entity × SessionId → Bool) : DirtyWorld P Q :=
  (s.dirtyPlayers.filter admits).foldl (snapshotDirtyPlayerInEcs kept)
    { s with dirtyPlayers := s.dirtyPlayers.filter fun entry => !admits entry }

end Players

section Buildings

def spawnBuilding (entity : Entity) (row : SavedBuilding) : Option (DirtyWorld P Q) :=
  if s.buildings entity = none then
    some { s with
      buildings := Function.update s.buildings entity (some ⟨row, false⟩)
      savedBuilding := Function.update s.savedBuilding entity (some row) }
  else none

def despawnBuilding (entity : Entity) : DirtyWorld P Q :=
  { s with buildings := Function.update s.buildings entity none }

def writeBuilding (entity : Entity) (f : FlaggedBuilding → FlaggedBuilding) (insert : Bool) : DirtyWorld P Q :=
  match s.buildings entity with
  | some b =>
    { s with
      buildings := Function.update s.buildings entity (some (f b))
      dirtyBuildings := if insert = true then s.dirtyBuildings.insert entity else s.dirtyBuildings }
  | none => s

def markBuildingDirty (entity : Entity) : DirtyWorld P Q := s.writeBuilding entity (fun b => { b with dirty := true }) true

def modifyPack (entity : Entity) (f : FlaggedBuilding → FlaggedBuilding) : DirtyWorld P Q :=
  s.writeBuilding entity (fun b => { f b with dirty := true }) true

def publishBuilding (entity : Entity) : DirtyWorld P Q :=
  match s.buildings entity with
  | some b => { s with savedBuilding := Function.update s.savedBuilding entity (some b.row) }
  | none => s

def snapshotDirtyBuilding (entity : Entity) : DirtyWorld P Q :=
  match s.buildings entity with
  | none => s
  | some b =>
    if b.dirty = false then s
    else
      { s with
        buildings := Function.update s.buildings entity (some { b with dirty := false })
        savedBuilding := Function.update s.savedBuilding entity (some b.row) }

def flushDirtyBuildingsOnce (admits : Entity → Bool) : DirtyWorld P Q :=
  (s.dirtyBuildings.filter admits).foldl snapshotDirtyBuilding
    { s with dirtyBuildings := s.dirtyBuildings.filter fun entity => !admits entity }

end Buildings

def step : DirtyEvent P → Option (DirtyWorld P Q)
  | .connect hub row session now => some (s.connect ops kept hub row session now)
  | .disconnect player session now => some (s.disconnect ops kept player session now)
  | .modifyPlayer player f => some (s.writePlayer player f PlayerEntity.dirty)
  | .writePlayer player f insert => some (s.writePlayer player f fun _ => insert)
  | .publishPlayer player => some (s.publishPlayer kept player)
  | .flushPlayers admits => some (s.flushDirtyPlayersOnce kept admits)
  | .spawnBuilding entity row => s.spawnBuilding entity row
  | .despawnBuilding entity => some (s.despawnBuilding entity)
  | .modifyPack entity f => some (s.modifyPack entity f)
  | .writeBuilding entity f insert => some (s.writeBuilding entity f insert)
  | .markBuildingDirty entity => some (s.markBuildingDirty entity)
  | .publishBuilding entity => some (s.publishBuilding entity)
  | .flushBuildings admits => some (s.flushDirtyBuildingsOnce admits)

/-- What differs from its last snapshot is marked, and in the set of those to save. -/
structure Marked : Prop where
  players : ∀ player entity c, s.game.playerComponent player = some (entity, c) →
    some (c.saved kept) ≠ s.savedPlayer player → c.dirty = true ∧ (entity, c.incarnation) ∈ s.dirtyPlayers
  buildings : ∀ entity b, s.buildings entity = some b →
    some b.row ≠ s.savedBuilding entity → b.dirty = true ∧ entity ∈ s.dirtyBuildings

/-- The conditions on a step under which no mark is lost. -/
def Careful : DirtyEvent P → Prop
  | .connect hub row session now => hub.isOpen session = true →
      (∀ entity c, s.game.playerComponent row.id = some (entity, c) → s.savedPlayer row.id = some (c.saved kept)) ∧
        (s.game.playerComponent row.id = none →
          (0 < row.health ∨ (ops now).onHealthMax row.skills = row.health) ∧ row.asClanRank = row.clanRank)
  | .modifyPlayer player f => ∀ entity c, s.game.playerComponent player = some (entity, c) →
      s.savedPlayer player = some ((f c).saved kept) ∨ (f c).dirty = true
  | .writePlayer player f insert => ∀ entity c, s.game.playerComponent player = some (entity, c) →
      s.savedPlayer player = some ((f c).saved kept) ∨
        (f c).dirty = true ∧ (insert = true ∨ (entity, c.incarnation) ∈ s.dirtyPlayers)
  | .writeBuilding entity f insert => ∀ b, s.buildings entity = some b →
      s.savedBuilding entity = some (f b).row ∨ (f b).dirty = true ∧ (insert = true ∨ entity ∈ s.dirtyBuildings)
  | _ => True

end DirtyWorld

end OpenMines

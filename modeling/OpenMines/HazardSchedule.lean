import OpenMines.CellWorld
import OpenMines.DueSchedules
import OpenMines.Lib.Run
import OpenMines.PresenceChunks

namespace OpenMines

open Lib

/-- The tables of the cells, with what it costs to stand on one. -/
structure HazardRules extends CellRules where
  fallDamage : UInt8 → Int32

/-- The tables of `cells.json`. -/
def HazardRules.cellsJson : HazardRules where
  toCellRules := CellRules.cellsJson
  fallDamage cell := Int32.ofNat ((List.lookup cell.toNat
    [(38, 1000), (40, 30), (41, 30), (42, 30), (43, 70), (44, 70), (45, 70), (48, 2), (49, 1), (50, 11), (51, 22),
      (52, 15), (53, 67), (54, 11), (55, 11), (60, 5), (61, 4), (62, 5), (63, 5), (64, 5), (65, 5), (66, 136),
      (67, 206), (68, 376), (71, 4), (72, 3), (73, 2), (74, 2), (75, 2), (80, 10), (81, 50), (82, 50), (90, 1),
      (91, 40), (92, 15),
      (93, 17), (94, 12), (95, 100), (96, 230), (97, 5), (98, 4), (99, 1), (100, 2), (101, 1), (102, 1), (103, 3),
      (104, 1000), (105, 3), (106, 1000), (107, 4), (108, 2), (109, 3), (110, 2), (111, 1), (112, 2), (113, 55),
      (114, 1000), (115, 33), (116, 3), (117, 1000), (118, 6), (119, 250), (120, 55), (121, 55), (122, 55)]).getD 0)

/-- The players, the cells, and the schedule of those who stand on a cell that does something to them. -/
structure HazardWorld where
  presence : Presence
  grid : CellGrid
  health : PlayerId → Int32
  /-- `player_entities` -/
  registry : PlayerId → Option Entity
  /-- `PlayerMetadata::id` of an entity -/
  owner : Entity → Option PlayerId
  nextEntity : Entity
  schedule : HazardDueSchedule
  deathQueue : List PlayerId
  pickups : List BoxPickupIntent
  /-- the deaths of this tick whose effects are still to be applied -/
  deaths : List PlayerId

/-- A cell that is not empty and hurts, holds a box or breaks under those who stand on it. -/
def HazardRules.standingEffect (rules : HazardRules) (g : CellGrid) (p : WorldPos) : Bool :=
  let cell := g.getCell (worldPos p)
  g.validCoord (worldPos p) && !rules.isEmpty cell &&
    (decide (0 < rules.fallDamage cell) || cell = boxCell || rules.isDestructible cell)

namespace HazardWorld

variable (cells : BuildingCells) (rules : HazardRules) (s : HazardWorld)

/-- The players among the cells as they are. -/
def seen : Presence := { s.presence with isEmpty := fun p => rules.isEmpty (s.grid.getCell (worldPos p)) }

def scheduleHazard (player : PlayerId) (now : Nat) : HazardWorld :=
  match s.registry player with
  | none => s
  | some entity => { s with schedule := s.schedule.scheduleEarliest entity now }

/-! ### The system -/

def fall (player : PlayerId) (damage : Int32) : HazardWorld :=
  if damage < s.health player then
    { s with health := Function.update s.health player (s.health player - damage) }
  else
    { s with
      health := Function.update s.health player 0
      deathQueue := s.deathQueue ++ [player] }

/-- What a cell that is not empty does to the player on it. -/
def standOn (player : PlayerId) (pos : WorldPos) (journal : WorldPos → Bool) : HazardWorld :=
  let cell := s.grid.getCell (worldPos pos)
  let t := if 0 < rules.fallDamage cell then s.fall player (rules.fallDamage cell) else s
  if cell = boxCell then { t with pickups := t.pickups ++ [⟨player, pos, pos⟩] }
  else if rules.isDestructible cell then
    { t with grid := t.grid.destroy rules.toCellDefs (worldPos pos) (journal pos) }
  else t

/-- One turn of the loop over the batch. -/
def hazardTurn (nextDue : Nat) (journal : WorldPos → Bool) (entity : Entity) : HazardWorld :=
  match s.owner entity with
  | none => s
  | some player =>
    match s.presence.players player with
    | none => s
    | some p =>
      if (s.presence.active player).isNone && !p.body.running then s
      else if s.health player ≤ 0 then s
      else if !s.grid.validCoord (worldPos p.pos) then s
      else if rules.isEmpty (s.grid.getCell (worldPos p.pos)) then s
      else
        let t := s.standOn rules player p.pos journal
        if 0 < t.health player then { t with schedule := t.schedule.scheduleEarliest entity nextDue } else t

/-- The batch is taken from the schedule and handled in order. -/
def standingCellHazardSystem (now limit nextDue : Nat) (journal : WorldPos → Bool) : HazardWorld :=
  let popped := s.schedule.popDue now limit
  popped.1.foldl (fun s entry => s.hazardTurn rules nextDue journal entry.1) { s with schedule := popped.2 }

/-! ### Players that come, go and move -/

def clearMilitaryBlock (g : CellGrid) (p : WorldPos) (journal : WorldPos → Bool) : CellGrid :=
  if g.getCell (worldPos p) = militaryBlock ∨ g.getCell (worldPos p) = militaryBlockFrame then
    g.destroy rules.toCellDefs (worldPos p) (journal p)
  else g

/-- The place of the row that a login has read. -/
def rowPos (player : PlayerId) (choice : Nat) : WorldPos := ((s.presence.saved player)[choice]?).getD spawnPos

/-- The entity of the player, or a new one with the health of the row. -/
def enter (player : PlayerId) (health maxHealth : Int32) : HazardWorld :=
  match s.registry player with
  | some _ => s
  | none =>
    { s with
      registry := Function.update s.registry player (some s.nextEntity)
      owner := Function.update s.owner s.nextEntity (some player)
      nextEntity := s.nextEntity + 1
      health := Function.update s.health player (if health ≤ 0 then maxHealth else health) }

def connectEntityInTick (player : PlayerId) (session : SessionId) (isOpen : Bool) (choice : Nat) (body : PlayerBody)
    (health maxHealth : Int32) (now : Nat) (journal : WorldPos → Bool) : HazardWorld :=
  if isOpen then
    let t := { s with grid := clearMilitaryBlock rules s.grid (s.rowPos player choice) journal }
    let u := t.enter player health maxHealth
    { u with presence := s.presence.connectEntityInTick player session isOpen choice body }.scheduleHazard player now
  else s

/-- The entity goes with its player; that of a running program stays. -/
def disconnectInTick (player : PlayerId) (session : SessionId) : HazardWorld :=
  if s.presence.active player = some session then
    let t := { s with presence := s.presence.disconnectInTick player session }
    match s.registry player, t.presence.players player with
    | some entity, none =>
      { t with
        registry := Function.update s.registry player none
        owner := Function.update s.owner entity none }
    | _, _ => t
  else s

/-- The move goes through. -/
def moves (player : PlayerId) (session : Option SessionId) (request : MoveRequest) : Bool :=
  (match session with
    | some session => decide (s.presence.active player = some session)
    | none => request.programmatic) &&
    (s.presence.players player).any fun p => (s.seen rules).moveAllowed cells p request

def handleMove (player : PlayerId) (session : Option SessionId) (request : MoveRequest) (now : Nat) : HazardWorld :=
  let t := { s with presence := (s.seen rules).handleMove cells player session request }
  if s.moves cells rules player session request then t.scheduleHazard player now else t

/-- The button takes the player somewhere. -/
def teleports (player : PlayerId) (session : SessionId) (coords : String) : Bool :=
  decide (s.presence.active player = some session) &&
    (s.presence.players player).any fun p => (s.presence.teleportTarget p coords).isSome

def applyTeleport (player : PlayerId) (session : SessionId) (coords : String) (now : Nat) : HazardWorld :=
  let t := { s with presence := s.presence.applyTeleport player session coords }
  if s.teleports player session coords then t.scheduleHazard player now else t

/-- The teleport of the admin command. -/
def adminTeleport (player : PlayerId) (session : SessionId) (isAdmin : Bool) (target : WorldPos) : HazardWorld :=
  { s with presence := s.presence.adminTeleport player session isAdmin target }

/-- The player comes to life again; the rest follows at the end of the tick. -/
def applyPlayerDeathCore (player : PlayerId) (draw : RespawnDraw) (maxHealth : Int32) (journal : WorldPos → Bool) :
    HazardWorld :=
  match (s.seen rules).applyPlayerDeathCore player draw with
  | none => s
  | some t =>
    { s with
      presence := t
      grid := ((t.position player).map fun pos => clearMilitaryBlock rules s.grid pos journal).getD s.grid
      health := Function.update s.health player maxHealth
      deaths := s.deaths ++ [player] }

def settleDeath (now : Nat) (player : PlayerId) : HazardWorld :=
  let t := s.scheduleHazard player now
  { t with presence := t.presence.prepareChunkChanged player }

def applyDeaths (now : Nat) : HazardWorld :=
  s.deaths.foldl (fun s player => s.settleDeath now player) { s with deaths := [] }

/-! ### Cells -/

/-- A build of a player that looks in the direction; `allowed` is what the guns say, `pays` that it has the
crystals. -/
def handleBuild (player : PlayerId) (block : String) (dir : Int32) (skills : BuildSkills) (allowed pays : Bool)
    (journal : WorldPos → Bool) : HazardWorld :=
  match s.presence.players player with
  | none => s
  | some p =>
    let target := facing p.pos dir
    if s.grid.validCoord (worldPos target) && allowed && (s.presence.byOrigin target).isNone && pays then
      match CellWorld.buildPlan rules.toCellRules block skills (s.grid.getCell (worldPos target))
        (s.grid.getDurability (worldPos target)) with
      | none => s
      | some plan =>
        { s with grid := s.grid.writeWorldCell rules.toCellDefs (worldPos target) plan.cell (journal target) }
    else s

end HazardWorld

inductive HazardEvent
  | hazards (now limit nextDue : Nat) (journal : WorldPos → Bool)
  | connect (player : PlayerId) (session : SessionId) (isOpen : Bool) (choice : Nat) (body : PlayerBody)
      (health maxHealth : Int32) (now : Nat) (journal : WorldPos → Bool)
  | disconnect (player : PlayerId) (session : SessionId)
  | move (player : PlayerId) (session : Option SessionId) (request : MoveRequest) (now : Nat)
  | teleport (player : PlayerId) (session : SessionId) (coords : String) (now : Nat)
  | adminTeleport (player : PlayerId) (session : SessionId) (isAdmin : Bool) (target : WorldPos)
  | death (player : PlayerId) (draw : RespawnDraw) (maxHealth : Int32) (journal : WorldPos → Bool)
  | applyDeaths (now : Nat)
  | build (player : PlayerId) (block : String) (dir : Int32) (skills : BuildSkills) (allowed pays : Bool)
      (journal : WorldPos → Bool)
  /-- a cell that is dug, falls, grows, is dropped, converted or set by a building -/
  | write (p : WorldPos) (foreground road : UInt8) (durability : UInt32)
  /-- a wound, a healing, or another skill -/
  | setHealth (player : PlayerId) (health : Int32)
  | save (player : PlayerId)
  | refresh (sameSession : Bool)
  /-- the buildings, and the other components of the players -/
  | change (index : BuildingIndex) (cost : EntityId → Int32) (bodies : PlayerId → PlayerBody)

namespace HazardWorld

variable (cells : BuildingCells) (rules : HazardRules)

def step (s : HazardWorld) : HazardEvent → HazardWorld
  | .hazards now limit nextDue journal => s.standingCellHazardSystem rules now limit nextDue journal
  | .connect player session isOpen choice body health maxHealth now journal =>
    s.connectEntityInTick rules player session isOpen choice body health maxHealth now journal
  | .disconnect player session => s.disconnectInTick player session
  | .move player session request now => s.handleMove cells rules player session request now
  | .teleport player session coords now => s.applyTeleport player session coords now
  | .adminTeleport player session isAdmin target => s.adminTeleport player session isAdmin target
  | .death player draw maxHealth journal => s.applyPlayerDeathCore rules player draw maxHealth journal
  | .applyDeaths now => s.applyDeaths now
  | .build player block dir skills allowed pays journal =>
    s.handleBuild rules player block dir skills allowed pays journal
  | .write p foreground road durability => { s with grid := s.grid.put (worldPos p) foreground road durability }
  | .setHealth player health => { s with health := Function.update s.health player health }
  | .save player => { s with presence := s.presence.saveRow player }
  | .refresh sameSession => { s with presence := s.presence.deliverRefresh sameSession }
  | .change index cost bodies => { s with presence := s.presence.change index cost s.presence.isEmpty bodies }

/-- The server right after its start. -/
def opened (presence : Presence) (grid : CellGrid) : HazardWorld where
  presence := presence
  grid := grid
  health _ := 0
  registry _ := none
  owner _ := none
  nextEntity := 0
  schedule := .empty
  deathQueue := []
  pickups := []
  deaths := []

end HazardWorld

end OpenMines

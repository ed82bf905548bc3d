import OpenMines.BuildingIndex
import OpenMines.Lib.Conservation

namespace OpenMines

open Lib.Run Lib.Text

structure BuildingConfig where
  cost : Int
  charge : Int32
  maxCharge : Int32
  hp : Int32
  maxHp : Int32
  cells : List (WorldPos × UInt8)

/-- A building has its origin among its cells, and none of them is further away than a chunk. -/
def BuildingConfig.compact (c : BuildingConfig) : Bool :=
  (c.cells.map Prod.fst).contains (0, 0) && c.cells.all (fun d => d.1.1.toInt.natAbs ≤ 32 ∧ d.1.2.toInt.natAbs ≤ 32)

structure BuildingsConfig where
  config : PackType → Option BuildingConfig
  compact : ∀ packType, (config packType).all BuildingConfig.compact = true

/-- The table of `buildings.json`. -/
def buildingsJson : PackType → Option BuildingConfig
  | .resp => some ⟨5000, 100, 1000, 1000, 1000, [
      ((0, 0), 37), ((1, 0), 37), ((-1, 0), 106), ((0, -1), 106), ((0, 1), 106), ((1, 1), 106), ((-1, 1),
      106), ((1, -1), 106), ((-1, -1), 106), ((1, 2), 106), ((-1, 2), 106), ((0, 2), 37), ((2, -1), 35), ((2,
      0), 35), ((2, 1), 35), ((2, 2), 35), ((3, -1), 35), ((3, 0), 35), ((3, 1), 35), ((3, 2), 35), ((4, -1),
      35), ((4, 0), 35), ((4, 1), 35), ((4, 2), 35), ((5, -1), 35), ((5, 0), 35), ((5, 1), 35), ((5, 2), 35)]⟩
  | .teleport => some ⟨3000, 1000, 10000, 1000, 1000, [
      ((0, 0), 37), ((0, 1), 37), ((1, 0), 106), ((1, -1), 106), ((1, 1), 106), ((-1, -1), 106), ((-1, 1),
      106), ((0, -1), 106), ((-1, 0), 106)]⟩
  | .up => some ⟨4000, 0, 0, 1000, 1000, [
      ((-1, -2), 38), ((1, -2), 38), ((0, -2), 106), ((-1, -1), 106), ((0, -1), 106), ((1, -1), 106), ((-1,
      0), 106), ((0, 0), 37), ((1, 0), 106), ((-1, 1), 106), ((0, 1), 37), ((1, 1), 106)]⟩
  | .market => some ⟨6000, 0, 0, 1000, 1000, [
      ((-2, -2), 38), ((-1, -2), 106), ((0, -2), 37), ((1, -2), 106), ((2, -2), 38), ((-2, -1), 106), ((-1,
      -1), 106), ((0, -1), 37), ((1, -1), 106), ((2, -1), 106), ((-2, 0), 37), ((-1, 0), 37), ((0, 0), 37),
      ((1, 0), 37), ((2, 0), 37), ((-2, 1), 106), ((-1, 1), 106), ((0, 1), 37), ((1, 1), 106), ((2, 1), 106),
      ((-2, 2), 38), ((-1, 2), 106), ((0, 2), 37), ((1, 2), 106), ((2, 2), 38)]⟩
  | .gun => some ⟨8000, 1000, 10000, 1000, 1000, [
      ((0, 0), 32), ((1, 0), 35), ((-1, 0), 35), ((0, -1), 35), ((0, 1), 35), ((1, 1), 106), ((-1, 1), 106),
      ((1, -1), 106), ((-1, -1), 106)]⟩
  | .storage => some ⟨4000, 0, 0, 1000, 1000, [
      ((0, 0), 37), ((1, 0), 106), ((1, -1), 106), ((-1, -1), 106), ((0, -1), 106), ((-1, 0), 106), ((0, 1),
      35)]⟩
  | .craft => some ⟨5000, 0, 0, 1000, 1000, [
      ((0, 0), 37), ((0, 1), 37), ((1, 0), 106), ((1, -1), 38), ((-1, -1), 38), ((0, -1), 106), ((-1, 0),
      106), ((-1, 1), 106), ((1, 1), 106)]⟩
  | .spot => some ⟨3000, 0, 0, 1000, 1000, [
      ((0, 0), 32)]⟩
  | .gate => some ⟨2000, 0, 0, 1000, 1000, [
      ((0, 0), 30)]⟩
  | .clans => some ⟨0, 0, 0, 1000, 1000, [
      ((-2, -1), 38), ((-1, -1), 106), ((0, -1), 106), ((1, -1), 106), ((2, -1), 38), ((-2, 0), 106), ((-1,
      0), 106), ((0, 0), 37), ((1, 0), 106), ((2, 0), 106), ((-2, 1), 38), ((-1, 1), 106), ((0, 1), 32), ((1,
      1), 106), ((2, 1), 38)]⟩
  | _ => none

def buildingsConfig : BuildingsConfig where
  config := buildingsJson
  compact packType := by cases packType <;> decide

def BuildingsConfig.cells (c : BuildingsConfig) : BuildingCells := fun packType =>
  (c.config packType).map BuildingConfig.cells

def PackType.fromStr (s : String) : Option PackType :=
  if s ∈ ["N", "Gate", " "] then some .gate
  else
    match trim s with
    | "" | "None" => some .none
    | "T" | "Teleport" => some .teleport
    | "R" | "Resp" => some .resp
    | "G" | "Gun" => some .gun
    | "M" | "Market" => some .market
    | "U" | "Up" => some .up
    | "L" | "Storage" => some .storage
    | "F" | "Craft" => some .craft
    | "Q" | "Vulkan" => some .vulkan
    | "O" | "Spot" => some .spot
    | "W" | "Levi" => some .levi
    | "J" | "Jobs" => some .jobs
    | "Y" | "Zalupa" => some .zalupa
    | "D" | "Clans" => some .clans
    | _ => none

/-- What a placement is paid with. -/
inductive PlacementPrice
  | paid (cost : Int)
  | inventory (selectedItem : Int32)
  deriving DecidableEq

/-- A placement that was admitted, paid or from the inventory. -/
structure BuildingPlacement where
  price : PlacementPrice
  typeCode : String
  packType : PackType
  pos : WorldPos
  ownerId : PlayerId
  clanId : Int32
  config : BuildingConfig

def BuildingPlacement.view (placement : BuildingPlacement) (dbId : Int32) : PackView where
  id := dbId
  packType := placement.packType
  x := placement.pos.1
  y := placement.pos.2
  ownerId := placement.ownerId
  clanId := placement.clanId
  charge := placement.config.charge
  maxCharge := placement.config.maxCharge
  hp := placement.config.hp
  maxHp := placement.config.maxHp

structure PlacementPlayer where
  pos : WorldPos
  dir : Int32
  clanId : Option Int32
  money : Int
  selected : Int32
  items : Int32 → Int
  /-- `PlayerStats` and `PlayerFlags` are there -/
  ready : Bool

abbrev RequestId := Nat

structure PlacementTask where
  request : RequestId
  session : SessionId
  placement : BuildingPlacement
  /-- the entities before this one were there when the site was checked -/
  checkedAt : EntityId

structure PlacementWorld extends BuildingIndex where
  grid : CellGrid
  sessions : PlayerId → Option SessionId
  players : PlayerId → Option PlacementPlayer
  rows : List BuildingRow
  usedIds : List Int32
  /-- the insert tasks that run -/
  tasks : List PlacementTask
  /-- the internal commands, with the id of the row when it was inserted -/
  commands : List (PlacementTask × Option Int32)
  nextRequest : RequestId
  requests : RequestId → Option BuildingPlacement
  /-- what the placements have taken from the players, less what they have given back -/
  debited : RequestId → Int
  recorded : RequestId → Option Int32
  built : RequestId → List EntityId

inductive PlacementEvent
  | paid (player : PlayerId) (typeCode : String)
  /-- whether the cooldown is over, and what `access_gun_full` says of the place of a gate -/
  | inventory (player : PlayerId) (gatePassed : Bool) (gunAccess : Bool)
  /-- an insert task ends, with the id of its row -/
  | insert (i : Nat) (dbId : Option Int32)
  | complete (journal : WorldPos → Bool)
  | remove (entity : EntityId)
  /-- everything else that happens to the players, their sessions and the cells -/
  | world (sessions : PlayerId → Option SessionId) (players : PlayerId → Option PlacementPlayer) (grid : CellGrid)

inductive Goods
  | money
  | item (item : Int32)
  deriving DecidableEq

def PlacementPrice.goods : PlacementPrice → Goods
  | .paid _ => .money
  | .inventory item => .item item

/-- What is due for the building in the end. -/
def PlacementPrice.amount : PlacementPrice → Int
  | .paid cost => cost
  | .inventory _ => 1

def PlacementPlayer.goods (p : PlacementPlayer) : Goods → Int
  | .money => p.money
  | .item item => p.items item

def PlacementPlayer.take (p : PlacementPlayer) (amount : Int) : Goods → PlacementPlayer
  | .money => { p with money := p.money - amount }
  | .item item => { p with items := Function.update p.items item (p.items item - amount) }

/-- What is left of an item after one was used; the entry is removed when nothing is left. -/
def afterUse (count : Int) : Int := if count - 1 ≤ 0 then 0 else count - 1

namespace PlacementWorld

variable (config : BuildingsConfig) (defs : CellDefs) (canPlaceOver : UInt8 → Bool) (s : PlacementWorld)

/-- The chunk of a cell and those around it. -/
def chunksAround (c : ChunkPos) : List ChunkPos :=
  (List.range 3).flatMap (fun i => ((List.range 3).filter (fun j => 1 ≤ c.1 + i ∧ 1 ≤ c.2 + j)).map
    (fun j => (c.1 + i - 1, c.2 + j - 1)))

def findPackCovering (p : WorldPos) : Option WorldPos :=
  ((chunksAround (chunkPos p)).flatMap s.chunkBuildings).findSome? (fun entity =>
    (s.entities entity).bind (fun b =>
      if b.view.hasCell ((config.cells b.view.packType).getD []) p then some b.view.origin else none))

/-- `validate_building_area`: every cell is in the world, empty, and no building covers it. -/
def validateBuildingArea (pos : WorldPos) (packType : PackType) : Bool :=
  match config.config packType with
  | none => false
  | some c =>
    c.cells.all (fun d =>
      let p : WorldPos := (pos.1 + d.1.1, pos.2 + d.1.2)
      s.grid.validCoord (worldPos p) && defs.isEmpty (s.grid.getCell (worldPos p)) &&
        (s.findPackCovering config p).isNone)

def preparePaid (player : PlayerId) (typeCode : String) : Option BuildingPlacement := do
  let packType ← PackType.fromStr typeCode
  let c ← config.config packType
  let p ← s.players player
  guard p.ready
  guard (¬ (packType = .gate ∧ p.clanId.getD 0 = 0))
  let pos : WorldPos := (p.pos.1 + (dirOffset p.dir).1 * 3, p.pos.2 + (dirOffset p.dir).2 * 3)
  guard (s.validateBuildingArea config defs pos packType)
  guard (-2147483648 ≤ c.cost ∧ c.cost ≤ 2147483647)
  guard (c.cost ≤ p.money)
  some ⟨.paid c.cost, typeCode, packType, pos, player, if packType = .gate then p.clanId.getD 0 else 0, c⟩

def prepareInventory (player : PlayerId) (gatePassed gunAccess : Bool) : Option BuildingPlacement := do
  let p ← s.players player
  guard (0 ≤ p.selected ∧ 0 < p.items p.selected)
  guard gatePassed
  let spec ← buildingItem p.selected
  guard p.ready
  let playerClan := p.clanId.getD 0
  guard (¬ (spec.packType = .gun ∧ playerClan = 0))
  let d := dirOffset p.dir
  let front : WorldPos := (p.pos.1 + d.1, p.pos.2 + d.2)
  guard (s.grid.validCoord (worldPos front) ∧ (s.byOrigin front).isNone)
  guard (canPlaceOver (s.grid.getCell (worldPos front)))
  let buildingClan := if spec.packType = .gate ∨ spec.packType = .gun then playerClan else 0
  let pos : WorldPos := (p.pos.1 + d.1 * spec.placementOffset, p.pos.2 + d.2 * spec.placementOffset)
  guard (¬ (spec.packType = .gate ∧ (buildingClan = 0 ∨ gunAccess = false)))
  guard (s.validateBuildingArea config defs pos spec.packType)
  let c ← config.config spec.packType
  guard (-2147483648 ≤ c.cost ∧ c.cost ≤ 2147483647)
  some ⟨.inventory p.selected, spec.databaseCode, spec.packType, pos, player, buildingClan, c⟩

/-- The goods of the owner that the placement takes, or gives back when the amount is negative. -/
def book (request : RequestId) (placement : BuildingPlacement) (amount : Int) : PlacementWorld :=
  { s with
    players := Function.update s.players placement.ownerId
      ((s.players placement.ownerId).map (·.take amount placement.price.goods))
    debited := Function.update s.debited request (s.debited request + amount) }

def startTask (session : SessionId) (placement : BuildingPlacement) : PlacementWorld :=
  { s with
    tasks := s.tasks ++ [⟨s.nextRequest, session, placement, s.nextEntity⟩]
    requests := Function.update s.requests s.nextRequest (some placement)
    nextRequest := s.nextRequest + 1 }

/-- The command is applied while its session is current. -/
def requestPaid (player : PlayerId) (typeCode : String) : Option PlacementWorld :=
  (s.sessions player).map (fun session =>
    match s.preparePaid config defs player typeCode with
    | none => s
    | some placement => (s.book s.nextRequest placement placement.price.amount).startTask session placement)

def requestInventory (player : PlayerId) (gatePassed gunAccess : Bool) : Option PlacementWorld :=
  (s.sessions player).map (fun session =>
    match s.prepareInventory config defs canPlaceOver player gatePassed gunAccess with
    | none => s
    | some placement => s.startTask session placement)

def insert (i : Nat) (dbId : Option Int32) : Option PlacementWorld := do
  let task ← s.tasks[i]?
  let t := { s with tasks := s.tasks.eraseIdx i, commands := s.commands ++ [(task, dbId)] }
  match dbId with
  | none => some t
  | some id =>
    guard (id ∉ s.usedIds)
    some { t with
      rows := s.rows ++ [⟨task.placement.view id, ⟨0, fun _ => 0⟩⟩]
      usedIds := id :: s.usedIds
      recorded := Function.update s.recorded task.request (some id) }

def placeBuildingFootprint (view : PackView) (journal : WorldPos → Bool) (g : CellGrid) : CellGrid :=
  (footprint config.cells view).foldl (fun g d => g.setCellTyped defs (worldPos d.1) d.2 (journal d.1)) g

def spawnBuildingRuntime (task : PlacementTask) (dbId : Int32) (journal : WorldPos → Bool) : PlacementWorld :=
  { s with
    toBuildingIndex := s.toBuildingIndex.spawnBuilding
      ⟨task.placement.view dbId, some ⟨0, fun _ => 0⟩, some false, none⟩
    grid := placeBuildingFootprint config defs (task.placement.view dbId) journal s.grid
    built := Function.update s.built task.request (s.built task.request ++ [s.nextEntity]) }

/-- `consume_selected_inventory_item_packets`. -/
def consumeItem (task : PlacementTask) (item : Int32) : PlacementWorld :=
  match s.players task.placement.ownerId with
  | none => s
  | some p => s.book task.request task.placement (p.items item - afterUse (p.items item))

def refund (task : PlacementTask) (cost : Int) : PlacementWorld :=
  if (s.players task.placement.ownerId).any PlacementPlayer.ready then s.book task.request task.placement (-cost)
  else s

/-- `apply_building_completion`. -/
def applyCompletion (task : PlacementTask) (dbId : Option Int32) (journal : WorldPos → Bool) : PlacementWorld :=
  if s.sessions task.placement.ownerId ≠ some task.session then s
  else
    match task.placement.price, dbId with
    | .paid _, some id => s.spawnBuildingRuntime config defs task id journal
    | .paid cost, none => s.refund task cost
    | .inventory item, some id => (s.spawnBuildingRuntime config defs task id journal).consumeItem task item
    | .inventory _, none => s

def complete (journal : WorldPos → Bool) : Option PlacementWorld :=
  match s.commands with
  | [] => none
  | (task, dbId) :: commands => some ({ s with commands := commands }.applyCompletion config defs task dbId journal)

def remove (entity : EntityId) : Option PlacementWorld := do
  let b ← s.entities entity
  let index ← s.toBuildingIndex.removeBuilding b.view entity
  some { s with toBuildingIndex := index }

def step (s : PlacementWorld) : PlacementEvent → Option PlacementWorld
  | .paid player typeCode => s.requestPaid config defs player typeCode
  | .inventory player gatePassed gunAccess => s.requestInventory config defs canPlaceOver player gatePassed gunAccess
  | .insert i dbId => s.insert i dbId
  | .complete journal => s.complete config defs journal
  | .remove entity => s.remove entity
  | .world sessions players grid =>
    if grid.width = s.grid.width ∧ grid.height = s.grid.height then
      some { s with sessions := sessions, players := players, grid := grid }
    else none

end PlacementWorld

namespace BuildingIndex

variable (cells : BuildingCells) (s : BuildingIndex)

/-- The origin of the first building that has the cell. -/
def findPackCovering (p : WorldPos) : Option WorldPos :=
  ((PlacementWorld.chunksAround (chunkPos p)).flatMap s.chunkBuildings).findSome? (fun entity =>
    (s.entities entity).bind (fun b =>
      if b.view.hasCell ((cells b.view.packType).getD []) p then some b.view.origin else none))

def getPackAt (p : WorldPos) : Option PackView :=
  (s.buildingEntityAt p).bind (fun e => if e.2.pending.isSome then none else some e.2.view)

end BuildingIndex

end OpenMines

import OpenMines.BuildingIndex
import OpenMines.SessionHub

namespace OpenMines

open Lib.Run

inductive BuildingDeleteCause
  | playerRequest (session : SessionId) (player : PlayerId)
  | damage (trigger : Option PlayerId)
  deriving DecidableEq

def BuildingDeleteCause.triggerPlayerId : BuildingDeleteCause → Option PlayerId
  | .playerRequest _ player => some player
  | .damage trigger => trigger

structure RemovePack where
  pos : WorldPos
  cause : BuildingDeleteCause

inductive BuildingDeleteError
  | notFound
  | stateUnavailable
  | noRights
  | notAtObject
  | staleSession
  | alreadyPending
  deriving DecidableEq

structure BoxWrite where
  pos : WorldPos
  crystals : Crystals

structure BuildingDeleteRequest where
  operationId : OperationId
  /-- with the identity that is expected, the id and the origin -/
  view : PackView
  cause : BuildingDeleteCause
  boxWrite : Option BoxWrite
  inventoryDropItem : Option Int32

inductive BuildingDeleteResult
  | deleted
  | identityMismatch
  | permanentFailure
  deriving DecidableEq

inductive BuildingSave
  | building (row : BuildingRow)
  | delete (request : BuildingDeleteRequest)

/-- What the deletion of a building reads and writes of a player. -/
structure DeletePlayer where
  pos : WorldPos
  clanId : Option Int32
  currentWindow : Option String
  resp : Option WorldPos
  items : Int32 → Int32
  /-- `PlayerFlags`, with the dirty mark -/
  flags : Option Bool

/-- A building before its deletion was admitted, and whether the snapshot round knew of it. -/
structure Admission where
  entity : EntityId
  building : BuildingEntity
  registered : Bool

/-- The buildings in the game and in the database. -/
structure BuildingWorld extends BuildingIndex where
  grid : CellGrid
  boxes : WorldPos → Option Crystals
  sessions : PlayerId → Option SessionId
  players : PlayerId → Option DeletePlayer
  dirtyBuildings : List EntityId
  rows : List BuildingRow
  boxRows : WorldPos → Option Crystals
  queue : List BuildingSave
  completions : List (BuildingDeleteRequest × BuildingDeleteResult)
  /-- the rows whose entities are still to be spawned -/
  inserted : List BuildingRow
  nextOperation : OperationId
  /-- the ids that rows have had, with their origins -/
  usedIds : List (Int32 × WorldPos)
  admitted : OperationId → Option Admission

inductive BuildingEvent
  | remove (pack : RemovePack) (roll : Nat)
  /-- damage, a withdrawal or another change of a building that has its flags; some are saved at once -/
  | change (entity : EntityId) (b : BuildingEntity) (registered saved : Bool)
  | sellAll (p : WorldPos) (earned : Int)
  /-- the entities that the snapshot round gets permits for -/
  | flush (taken : List EntityId)
  | persist (failed : Bool)
  /-- the cells whose writes are journaled, and whether that of the box is -/
  | complete (journal : WorldPos → Bool) (boxOk : Bool)
  | insertRow (row : BuildingRow)
  | spawn
  /-- moves, logins and disconnects -/
  | players (sessions : PlayerId → Option SessionId) (players : PlayerId → Option DeletePlayer)

def itemDropThreshold : Nat := 40

def crystalSum (crystals : Crystals) : Int :=
  (List.finRange 6).foldl (fun sum i => saturatingAdd sum (crystals i)) 0

def destroyBoxWrite (view : PackView) (storageCrystals : Option Crystals) : Option BoxWrite :=
  match view.packType with
  | .teleport => if 0 < view.charge then some ⟨view.origin, ![0, 0, 0, 0, view.charge.toInt, 0]⟩ else none
  | .storage => (storageCrystals.filter (fun crystals => 0 < crystalSum crystals)).map (⟨view.origin, ·⟩)
  | _ => none

/-- The contents of a building that are dropped with it. -/
def BuildingEntity.boxWrite (b : BuildingEntity) : Option BoxWrite :=
  destroyBoxWrite b.view (if b.view.packType = .storage then b.storage.map BuildingStorage.crystals else none)

/-- The row is that of the building whose deletion is requested. -/
def BuildingRow.matching (request : BuildingDeleteRequest) (row : BuildingRow) : Bool :=
  row.view.identity = request.view.identity

def BuildingRow.conflicting (request : BuildingDeleteRequest) (row : BuildingRow) : Bool :=
  row.view.id = request.view.id ∨ row.view.origin = request.view.origin

def applyBoxWrite (boxes : WorldPos → Option Crystals) : Option BoxWrite → WorldPos → Option Crystals
  | some write => Function.update boxes write.pos (some write.crystals)
  | none => boxes

/-- The rows and the boxes after the transaction. -/
def applyBuildingDelete (rows : List BuildingRow) (boxRows : WorldPos → Option Crystals)
    (request : BuildingDeleteRequest) : List BuildingRow × (WorldPos → Option Crystals) × BuildingDeleteResult :=
  if rows.countP (BuildingRow.matching request) ≠ 1 ∧ rows.any (BuildingRow.conflicting request) then
    (rows, boxRows, .identityMismatch)
  else
    (rows.filter (fun row => ¬ row.matching request), applyBoxWrite boxRows request.boxWrite, .deleted)

/-- A player after the building of the view was removed: windows on it are closed and bindings to
it are cleared. -/
def DeletePlayer.closed (view : PackView) (p : DeletePlayer) : DeletePlayer :=
  let window := "pack:" ++ toString view.x ++ ":" ++ toString view.y
  let p := if p.currentWindow = some window then { p with currentWindow := none } else p
  if view.packType = .resp ∧ p.resp = some view.origin then
    { p with resp := none, flags := p.flags.map (fun _ => true) }
  else p

def DeletePlayer.gained (item : Int32) (p : DeletePlayer) : DeletePlayer :=
  match p.flags with
  | none => p
  | some _ =>
    { p with
      items := Function.update p.items item (if p.items item = 2147483647 then 2147483647 else p.items item + 1)
      flags := some true }

def extractBuildingRow (b : BuildingEntity) : Option BuildingRow := b.storage.map (⟨b.view, ·⟩)

namespace BuildingWorld

variable (cells : BuildingCells) (defs : CellDefs) (s : BuildingWorld)

def validateOrigin (cause : BuildingDeleteCause) (view : PackView) : Except BuildingDeleteError Unit :=
  match cause with
  | .damage _ => .ok ()
  | .playerRequest _ player =>
    match s.players player with
    | none => .error .stateUnavailable
    | some p =>
      if view.ownerId ≠ player ∧ ¬ (view.clanId ≠ 0 ∧ view.clanId = p.clanId.getD 0) then .error .noRights
      else
        match cells view.packType with
        | none => .error .stateUnavailable
        | some offsets => if view.hasCell offsets p.pos then .ok () else .error .notAtObject

def staleOrigin (cause : BuildingDeleteCause) : Bool :=
  match cause with
  | .damage _ => false
  | .playerRequest session player => s.sessions player ≠ some session

/-- What `admitDelete` checks, with the building it is about. -/
def admissible (pack : RemovePack) : Except BuildingDeleteError (EntityId × BuildingEntity × Bool) :=
  if s.staleOrigin pack.cause then .error .staleSession
  else
    match s.byOrigin pack.pos with
    | none => .error .notFound
    | some entity =>
      match s.entities entity with
      | none => .error .stateUnavailable
      | some b =>
        match b.pending, b.flags with
        | some _, _ => .error .alreadyPending
        | none, none => .error .stateUnavailable
        | none, some dirty =>
          if b.view.origin ≠ pack.pos then .error .notFound
          else
            match s.validateOrigin cells pack.cause b.view with
            | .error error => .error error
            | .ok () =>
              if b.view.packType = .storage ∧ b.storage.isNone then .error .stateUnavailable
              else .ok (entity, b, dirty)

def dropItem (cause : BuildingDeleteCause) (roll : Nat) (packType : PackType) : Option Int32 :=
  (cause.triggerPlayerId.filter (fun _ => roll < itemDropThreshold)).bind (fun _ => destroyedBuildingDrop packType)

def deleteRequest (pack : RemovePack) (roll : Nat) (b : BuildingEntity) : BuildingDeleteRequest where
  operationId := s.nextOperation
  view := b.view
  cause := pack.cause
  boxWrite := b.boxWrite
  inventoryDropItem := dropItem pack.cause roll b.view.packType

def admitDelete (pack : RemovePack) (roll : Nat) : Except BuildingDeleteError BuildingWorld :=
  (s.admissible cells pack).map (fun (entity, b, dirty) =>
    { s with
      toBuildingIndex := s.toBuildingIndex.setEntity entity
        (some { b with flags := none, pending := some ⟨s.nextOperation, dirty⟩ })
      queue := s.queue ++ [.delete (s.deleteRequest pack roll b)]
      admitted := Function.update s.admitted s.nextOperation (some ⟨entity, b, entity ∈ s.dirtyBuildings⟩) })

/-- The command has its number, whether it is admitted or not. -/
def applyRemovePack (pack : RemovePack) (roll : Nat) : BuildingWorld :=
  { (s.admitDelete cells pack roll).toOption.getD s with nextOperation := s.nextOperation + 1 }

def change (entity : EntityId) (b : BuildingEntity) (registered saved : Bool) : Option BuildingWorld := do
  let before ← s.entities entity
  guard (before.flags.isSome ∧ b.flags.isSome ∧ b.pending = before.pending ∧ b.identity = before.identity)
  some { s with
    toBuildingIndex := s.toBuildingIndex.setEntity entity (some b)
    dirtyBuildings := if registered then s.dirtyBuildings.insert entity else s.dirtyBuildings
    queue := s.queue ++ (if saved then (extractBuildingRow b).toList.map .building else []) }

/-- The tenth of the earnings goes to the building at the origin of the window, whatever its state. -/
def sellAll (p : WorldPos) (earned : Int) : Option BuildingWorld := do
  let (entity, b) ← s.buildingEntityAt p
  some { s with
    toBuildingIndex := s.toBuildingIndex.setEntity entity (some { b with
      storage := b.storage.map (fun storage => { storage with money := storage.money + earned / 10 })
      flags := b.flags.map (fun _ => true) })
    dirtyBuildings := if b.flags.isSome then s.dirtyBuildings.insert entity else s.dirtyBuildings }

/-- One entity of `flush_dirty_buildings_once` that has its permit. -/
def flushOne (s : BuildingWorld) (entity : EntityId) : BuildingWorld :=
  let s := { s with dirtyBuildings := s.dirtyBuildings.filter (· ≠ entity) }
  match s.entities entity with
  | none => s
  | some b =>
    if b.flags = some true then
      match extractBuildingRow b with
      | none => s
      | some row =>
        { s with
          toBuildingIndex := s.toBuildingIndex.setEntity entity (some { b with flags := some false })
          queue := s.queue ++ [.building row] }
    else s

def flush (taken : List EntityId) : Option BuildingWorld :=
  if ∀ entity ∈ taken, entity ∈ s.dirtyBuildings then some (taken.foldl flushOne s) else none

/-- The worker takes the next command of its queue. -/
def persist (failed : Bool) : Option BuildingWorld :=
  match s.queue with
  | [] => none
  | .building row :: queue =>
    some { s with
      queue := queue
      rows := if failed then s.rows else s.rows.map (fun old => if old.view.id = row.view.id then row else old) }
  | .delete request :: queue =>
    if failed then some { s with queue := queue, completions := s.completions ++ [(request, .permanentFailure)] }
    else
      let applied := applyBuildingDelete s.rows s.boxRows request
      some { s with
        queue := queue
        rows := applied.1
        boxRows := applied.2.1
        completions := s.completions ++ [(request, applied.2.2)] }

def currentPendingDelete (request : BuildingDeleteRequest) :
    Option (EntityId × BuildingEntity × BuildingDeletePending) := do
  let (entity, b) ← s.buildingEntityAt request.view.origin
  let pending ← b.pending
  guard (b.identity = request.view.identity ∧ pending.operationId = request.operationId)
  some (entity, b, pending)

def rejectDelete (entity : EntityId) (b : BuildingEntity) (pending : BuildingDeletePending) : BuildingWorld :=
  { s with
    toBuildingIndex := s.toBuildingIndex.setEntity entity
      (some { b with pending := none, flags := some pending.dirtyBefore }) }

def clearBuildingFootprint (view : PackView) (journal : WorldPos → Bool) (g : CellGrid) : CellGrid :=
  (footprint cells view).foldl (fun g d => g.setCellTyped defs (worldPos d.1) emptyCell (journal d.1)) g

def applyPlayerEffects (request : BuildingDeleteRequest) : PlayerId → Option DeletePlayer :=
  fun player => (s.players player).map (fun p =>
    let p := p.closed request.view
    match request.inventoryDropItem with
    | some item => if request.cause.triggerPlayerId = some player then p.gained item else p
    | none => p)

/-- `put_box_cell_authoritative`, where there is a box to put. -/
def applyBox (write : Option BoxWrite) (ok : Bool) : BuildingWorld :=
  { s with
    grid := match write with
      | some write => s.grid.setCellTyped defs (worldPos write.pos) boxCell ok
      | none => s.grid
    boxes := applyBoxWrite s.boxes write }

def applyDeleted (request : BuildingDeleteRequest) (entity : EntityId) (journal : WorldPos → Bool) (boxOk : Bool) :
    Option BuildingWorld := do
  let index ← s.toBuildingIndex.removeBuilding request.view entity
  let removed := { s with
    toBuildingIndex := index
    grid := clearBuildingFootprint cells defs request.view journal s.grid
    players := s.applyPlayerEffects request }
  some (removed.applyBox defs request.boxWrite boxOk)

/-- `apply_completion`; a stale completion leaves everything as it is. -/
def applyCompletion (request : BuildingDeleteRequest) (result : BuildingDeleteResult) (journal : WorldPos → Bool)
    (boxOk : Bool) : BuildingWorld :=
  match s.currentPendingDelete request with
  | none => s
  | some (entity, b, pending) =>
    match result with
    | .deleted => (s.applyDeleted cells defs request entity journal boxOk).getD s
    | .identityMismatch => s.rejectDelete entity b pending
    | .permanentFailure => s.rejectDelete entity b pending

def complete (journal : WorldPos → Bool) (boxOk : Bool) : Option BuildingWorld :=
  match s.completions with
  | [] => none
  | (request, result) :: completions =>
    some ({ s with completions := completions }.applyCompletion cells defs request result journal boxOk)

def insertRow (row : BuildingRow) : Option BuildingWorld :=
  if row.view.id ∈ s.usedIds.map Prod.fst then none
  else some { s with
    rows := s.rows ++ [row]
    inserted := s.inserted ++ [row]
    usedIds := row.view.identity :: s.usedIds }

def spawn : Option BuildingWorld :=
  match s.inserted with
  | [] => none
  | row :: inserted =>
    some { s with
      toBuildingIndex := s.toBuildingIndex.spawnBuilding ⟨row.view, some row.storage, some false, none⟩
      inserted := inserted }

def step (s : BuildingWorld) : BuildingEvent → Option BuildingWorld
  | .remove pack roll => some (s.applyRemovePack cells pack roll)
  | .change entity b registered saved => s.change entity b registered saved
  | .sellAll p earned => s.sellAll p earned
  | .flush taken => s.flush taken
  | .persist failed => s.persist failed
  | .complete journal boxOk => s.complete cells defs journal boxOk
  | .insertRow row => s.insertRow row
  | .spawn => s.spawn
  | .players sessions players => some { s with sessions := sessions, players := players }

end BuildingWorld

end OpenMines

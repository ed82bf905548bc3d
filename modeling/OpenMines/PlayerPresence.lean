import OpenMines.BuildingPlacement

namespace OpenMines

open Lib.Text

/-- The components of a player that decide where it may go. -/
structure PlayerBody where
  respX : Option Int32
  respY : Option Int32
  money : Int64
  clanId : Option Int32
  currentWindow : Option String
  /-- the program runs, and has a function to go to at death -/
  running : Bool
  gotoDeath : Bool
  manualControl : Bool

structure PresentPlayer where
  pos : WorldPos
  lastChunk : Option ChunkPos
  body : PlayerBody

/-- The random numbers of a respawn. -/
structure RespawnDraw where
  pick : Nat
  ox : Nat
  oy : Nat

/-- The offsets of `random_range(2..5)` and `random_range(-1..3)`. -/
def RespawnDraw.near (draw : RespawnDraw) (p : WorldPos) : WorldPos :=
  (p.1 + (2 + Int32.ofNat (draw.ox % 3)), p.2 + (-1 + Int32.ofNat (draw.oy % 4)))

structure MoveRequest where
  target : WorldPos
  programmatic : Bool

structure Presence extends BuildingIndex where
  chunksW : Nat
  chunksH : Nat
  sized : 0 < chunksW ∧ 0 < chunksH
  /-- `cell_is_empty` of the cell that shows -/
  isEmpty : WorldPos → Bool
  /-- `BuildingStats::cost` -/
  cost : EntityId → Int32
  players : PlayerId → Option PresentPlayer
  active : PlayerId → Option SessionId
  chunkPlayers : ChunkPos → List PlayerId
  /-- the `RefreshChunks` events that are not delivered yet -/
  refreshes : List PlayerId
  /-- the positions in the rows of a player that were ever saved, the last one first -/
  saved : PlayerId → List WorldPos

/-- The position that `create_player` gives, and where a player respawns without any Resp. -/
def spawnPos : WorldPos := (10, 10)

namespace Presence

variable (cells : BuildingCells) (s : Presence)

def validCoord (p : WorldPos) : Bool :=
  decide (0 ≤ p.1.toInt ∧ 0 ≤ p.2.toInt ∧ p.1.toInt < s.chunksW * 32 ∧ p.2.toInt < s.chunksH * 32)

def setPlayer (player : PlayerId) (p : Option PresentPlayer) : Presence :=
  { s with players := Function.update s.players player p }

def setActive (player : PlayerId) (session : Option SessionId) : Presence :=
  { s with active := Function.update s.active player session }

def registerPlayerChunk (player : PlayerId) (c : ChunkPos) : Presence :=
  if player ∈ s.chunkPlayers c then s
  else { s with chunkPlayers := Function.update s.chunkPlayers c (s.chunkPlayers c ++ [player]) }

def unregisterPlayerFromChunk (player : PlayerId) (c : ChunkPos) : Presence :=
  { s with chunkPlayers := Function.update s.chunkPlayers c ((s.chunkPlayers c).filter (· ≠ player)) }

/-- The index follows the position, from the chunk that it was last told. -/
def prepareChunkChanged (player : PlayerId) : Presence :=
  match s.players player with
  | none => s
  | some p =>
    if p.lastChunk = some (chunkPos p.pos) then s
    else
      let t := s.setPlayer player (some { p with lastChunk := some (chunkPos p.pos) })
      match p.lastChunk with
      | none => t.registerPlayerChunk player (chunkPos p.pos)
      | some old => (t.unregisterPlayerFromChunk player old).registerPlayerChunk player (chunkPos p.pos)

/-- The entity that is reused or spawned at a login; `choice` says which saved row of the player
the login has read, and `body` is the rest of the row. -/
def enteringPlayer (player : PlayerId) (choice : Nat) (body : PlayerBody) : PresentPlayer :=
  match s.players player with
  | some p => { p with lastChunk := some (chunkPos p.pos) }
  | none =>
    let pos := ((s.saved player)[choice]?).getD spawnPos
    ⟨pos, some (chunkPos pos), body⟩

def connectEntityInTick (player : PlayerId) (session : SessionId) (isOpen : Bool) (choice : Nat)
    (body : PlayerBody) : Presence :=
  if isOpen then
    let p := s.enteringPlayer player choice body
    (((s.setActive player none).setPlayer player (some p)).setActive player (some session))
      |>.registerPlayerChunk player (chunkPos p.pos)
  else s

def saveRow (player : PlayerId) : Presence :=
  match s.players player with
  | none => s
  | some p => { s with saved := Function.update s.saved player (p.pos :: s.saved player) }

def disconnectInTick (player : PlayerId) (session : SessionId) : Presence :=
  if s.active player = some session then
    let t := (s.setActive player none).saveRow player
    match t.players player with
    | none => t.unregisterPlayerFromChunk player (0, 0)
    | some p =>
      let u := t.unregisterPlayerFromChunk player (chunkPos p.pos)
      if p.body.running then u else u.setPlayer player none
  else s

/-- The target is no obstacle: it is empty, or a gate of the player's clan. -/
def passable (p : PresentPlayer) (target : WorldPos) : Bool :=
  match (s.findPackCovering cells target).bind s.buildingEntityAt with
  | some (_, b) => if b.view.packType = .gate then b.view.clanId = p.body.clanId.getD 0 else s.isEmpty target
  | none => s.isEmpty target

/-- The distance is less than 1.2. -/
def adjacent (p q : WorldPos) : Bool := (q.1 - p.1).toInt.natAbs + (q.2 - p.2).toInt.natAbs ≤ 1

def moveAllowed (p : PresentPlayer) (request : MoveRequest) : Bool :=
  (request.programmatic || p.body.manualControl) && (request.programmatic || p.body.currentWindow.isNone) &&
    s.validCoord request.target && s.passable cells p request.target && adjacent p.pos request.target

def applyMove (player : PlayerId) (request : MoveRequest) : Presence :=
  match s.players player with
  | none => s
  | some p =>
    if s.moveAllowed cells p request then
      let t := s.setPlayer player (some { p with pos := request.target })
      if chunkPos p.pos = chunkPos request.target then t else t.prepareChunkChanged player
    else s

/-- A move of a session, or of the program of a player without one. -/
def handleMove (player : PlayerId) (session : Option SessionId) (request : MoveRequest) : Presence :=
  match session with
  | some session => if s.active player = some session then s.applyMove cells player request else s
  | none => if request.programmatic then s.applyMove cells player request else s

/-- The charged teleport at the coordinates. -/
def teleportAt (p : WorldPos) : Option PackView :=
  (s.getPackAt p).filter (fun view => view.packType = .teleport ∧ 0 < view.charge)

def windowPack (body : PlayerBody) : Option WorldPos := do
  let window ← body.currentWindow
  let rest ← stripPrefix window "pack:"
  parsePair (splitOn rest ':')

/-- Where the button of a teleport takes the player. -/
def teleportTarget (p : PresentPlayer) (coords : String) : Option WorldPos := do
  let dest ← parsePair (splitOn coords ':')
  let _ ← s.teleportAt dest
  let src ← windowPack p.body
  let _ ← s.teleportAt src
  some (dest.1, dest.2 + 3)

def applyTeleport (player : PlayerId) (session : SessionId) (coords : String) : Presence :=
  if s.active player = some session then
    match s.players player with
    | none => s
    | some p =>
      match s.teleportTarget p coords with
      | none => s
      | some target =>
        (s.setPlayer player (some { p with pos := target, body := { p.body with currentWindow := none } }))
          |>.prepareChunkChanged player
  else s

/-- The teleport of the admin command; the chunk is refreshed when its event is delivered. -/
def adminTeleport (player : PlayerId) (session : SessionId) (isAdmin : Bool) (target : WorldPos) : Presence :=
  if s.active player = some session && isAdmin && s.validCoord target then
    match s.players player with
    | none => s
    | some p =>
      { s.setPlayer player (some ⟨target, none, { p.body with currentWindow := none }⟩) with
        refreshes := s.refreshes ++ [player] }
  else s

/-- Deliver the next refresh, when the session that asked for it is still the player's. -/
def deliverRefresh (sameSession : Bool) : Presence :=
  match s.refreshes with
  | [] => s
  | player :: rest =>
    let t := { s with refreshes := rest }
    if sameSession then t.prepareChunkChanged player else t

/-- The Resp that the player is bound to. -/
def boundResp (body : PlayerBody) : Option (EntityId × BuildingEntity) := do
  let x ← body.respX
  let y ← body.respY
  let e ← s.buildingEntityAt (x, y)
  guard (e.2.pending.isNone ∧ e.2.view.packType = .resp)
  some e

def respawnHere (body : PlayerBody) (e : EntityId × BuildingEntity) : Bool :=
  e.2.view.ownerId = 0 || (0 < e.2.view.charge && (s.cost e.1).toInt < body.money.toInt)

def publicResps : List WorldPos :=
  (List.range s.nextEntity).filterMap (fun entity => do
    let b ← s.entities entity
    guard (s.byOrigin b.view.origin = some entity)
    guard (b.pending.isNone ∧ b.view.packType = .resp ∧ b.view.ownerId = 0)
    some b.view.origin)

def findRandomPublicResp (draw : RespawnDraw) : WorldPos :=
  match s.publicResps[draw.pick % s.publicResps.length]? with
  | none => spawnPos
  | some origin => draw.near origin

/-- Beside the Resp, or two cells to the right of it when the drawn cell is not free. -/
def besideResp (draw : RespawnDraw) (origin : WorldPos) : WorldPos :=
  if s.validCoord (draw.near origin) && s.isEmpty (draw.near origin) then draw.near origin
  else (origin.1 + 2, origin.2)

/-- Pay the owner of a Resp. -/
def payResp (player : PlayerId) (p : PresentPlayer) (e : EntityId × BuildingEntity) (storage : BuildingStorage) :
    Presence :=
  let paid := { p with body := { p.body with money := p.body.money - (s.cost e.1).toInt64 } }
  { s.setPlayer player (some paid) with
    entities := Function.update s.entities e.1 (some { e.2 with
      view := { e.2.view with charge := e.2.view.charge - 1 }
      storage := some { storage with money := storage.money + (s.cost e.1).toInt }
      flags := some true }) }

/-- The player at the place of its respawn. `isFreeResp` keeps a program that goes on after death. -/
def respawnAt (player : PlayerId) (pos : WorldPos) (isFreeResp : Bool) : Presence :=
  match s.players player with
  | none => s
  | some p =>
    s.setPlayer player (some ⟨pos, none, { p.body with
      currentWindow := none
      running := p.body.running && p.body.gotoDeath && isFreeResp }⟩)

/-- Nothing when the components of the Resp are not there. -/
def applyPlayerDeathCore (player : PlayerId) (draw : RespawnDraw) : Option Presence := do
  let p ← s.players player
  match s.boundResp p.body with
  | none => some (s.respawnAt player (s.findRandomPublicResp draw) false)
  | some e =>
    let isFreeResp : Bool := s.cost e.1 = 0
    if s.respawnHere p.body e then
      if 0 < e.2.view.ownerId then
        let storage ← e.2.storage
        let _ ← e.2.flags
        some ((s.payResp player p e storage).respawnAt player (s.besideResp draw e.2.view.origin) isFreeResp)
      else some (s.respawnAt player (s.besideResp draw e.2.view.origin) isFreeResp)
    else some (s.respawnAt player (s.findRandomPublicResp draw) isFreeResp)

/-- The death of a player, with the chunk update that follows it. -/
def applyDeath (player : PlayerId) (draw : RespawnDraw) : Presence :=
  match s.applyPlayerDeathCore player draw with
  | none => s
  | some t => t.prepareChunkChanged player

/-- Everything else that happens to the buildings, the cells and the other components of the players. -/
def change (index : BuildingIndex) (cost : EntityId → Int32) (isEmpty : WorldPos → Bool)
    (bodies : PlayerId → PlayerBody) : Presence :=
  { s with
    toBuildingIndex := index
    cost := cost
    isEmpty := isEmpty
    players := fun player => (s.players player).map (fun p => { p with body := bodies player }) }

end Presence

inductive PresenceEvent
  | connect (player : PlayerId) (session : SessionId) (isOpen : Bool) (choice : Nat) (body : PlayerBody)
  | disconnect (player : PlayerId) (session : SessionId)
  | save (player : PlayerId)
  | move (player : PlayerId) (session : Option SessionId) (request : MoveRequest)
  | teleport (player : PlayerId) (session : SessionId) (coords : String)
  | adminTeleport (player : PlayerId) (session : SessionId) (isAdmin : Bool) (target : WorldPos)
  | refresh (sameSession : Bool)
  | death (player : PlayerId)
  | change (index : BuildingIndex) (cost : EntityId → Int32) (isEmpty : WorldPos → Bool)
      (bodies : PlayerId → PlayerBody)

namespace Presence

variable (cells : BuildingCells) (s : Presence)

/-- An event, with the random numbers that the server draws for it. -/
def step (s : Presence) : PresenceEvent × RespawnDraw → Presence
  | (.connect player session isOpen choice body, _) => s.connectEntityInTick player session isOpen choice body
  | (.disconnect player session, _) => s.disconnectInTick player session
  | (.save player, _) => s.saveRow player
  | (.move player session request, _) => s.handleMove cells player session request
  | (.teleport player session coords, _) => s.applyTeleport player session coords
  | (.adminTeleport player session isAdmin target, _) => s.adminTeleport player session isAdmin target
  | (.refresh sameSession, _) => s.deliverRefresh sameSession
  | (.death player, draw) => s.applyDeath player draw
  | (.change index cost isEmpty bodies, _) => s.change index cost isEmpty bodies

def run (es : List (PresenceEvent × RespawnDraw)) : Presence := es.foldl (step cells) s

end Presence

end OpenMines

import OpenMines.Auction
import OpenMines.BuildingDelete
import OpenMines.ClanStore
import OpenMines.Lib.Statements

namespace OpenMines.Persistence

open Lib.Statements Lib.Statements.Prog

/-- `PersistenceStoreFailure`. -/
inductive Failure
  | transient
  | permanent
  deriving DecidableEq

structure ChatAppendRequest where
  id : Int
  tag : String
  nickname : String
  text : String
  playerId : Int32
  color : Int32
  deriving DecidableEq

/-- The tables; the clan columns of the players are those of `clans`. -/
structure Database where
  players : List PlayerRow
  chatColors : PlayerId → Int32
  buildings : List BuildingRow
  boxes : WorldPos → Option Crystals
  chatMessages : List ChatAppendRequest
  programs : List ProgramRow
  lastProgram : Int32
  orders : List OrderRow
  lastOrder : Int32
  clans : ClanStore

/-- The results of the methods of the store, those of queries without their rows. -/
inductive StoreResult
  | done
  | rejected
  | programSaved (name : String)
  | programCreated (id : Int32)
  | programOpened (program : ProgramRow)
  | programRenamed (program : ProgramRow)
  | programDeleted
  | programCopied
  | buildingDeleted (clearedRespBindings : Nat)
  | identityMismatch
  | colorCycled (color : Int32)
  | moneyApplied (affectedPlayers : Nat)
  | roleApplied (targetId : PlayerId) (targetName : String)
  | targetNotFound
  | clan (result : ClanCommandResult)
  | orderCreated
  | bet (result : AuctionBetResult)
  | loaded
  | notFound
  | permanentFailure

abbrev Sql := Prog Database Failure

/-- A statement; the store calls its failures transient, also when a row is missing or an id is taken. -/
def sql {α : Type} (f : Database → Option (α × Database)) : Sql α := statement .transient f

def query {α : Type} (f : Database → α) : Sql α := read .transient f

def commitAll (m : Sql Unit) : Sql Unit := transaction .transient (andThen m fun _ => ret (true, ()))

namespace Database

variable (d : Database)

def playerIds : List PlayerId := d.players.map PlayerRow.id

def buildingIds : List Int32 := d.buildings.map (fun b => b.view.id)

def chatIds : List Int := d.chatMessages.map ChatAppendRequest.id

/-- The columns that the update of a player sets. -/
def setPlayer (row : PlayerRow) : Database :=
  { d with
    players := d.players.map (fun r =>
      if r.id = row.id then
        { row with
          name := r.name
          hash := r.hash
          role := r.role
          selectedProgramId := r.selectedProgramId
          selectedProgram := r.selectedProgram }
      else r)
    clans := d.clans.setMember row.id row.clanId row.clanRank }

def setBuilding (row : BuildingRow) : Database :=
  { d with buildings := d.buildings.map (fun b => if b.view.id = row.view.id then row else b) }

def applyBoxWrite (write : BoxWrite) : Database :=
  { d with boxes := Function.update d.boxes write.pos write.crystals }

def selectProgram (player : PlayerId) (program : Option Int32) : Database :=
  { d with
    players := d.players.map (fun r => if r.id = player then { r with selectedProgramId := program } else r) }

def setRole (player : PlayerId) (role : Int32) : Database :=
  { d with players := d.players.map (fun r => if r.id = player then { r with role } else r) }

def addMoney (player : PlayerId) (amount : Int) : Database :=
  { d with
    players := d.players.map (fun r =>
      if r.id = player then { r with money := Int64.ofInt (r.money.toInt + amount) } else r) }

/-- The tag of a private channel with the player. -/
def isPrivateTag (player : PlayerId) (tag : String) : Bool :=
  ("_".toList ++ (toString player.toInt).toList ++ "_".toList).isPrefixOf tag.toList ||
    ("_".toList.isPrefixOf tag.toList &&
      ("_".toList ++ (toString player.toInt).toList).isSuffixOf (tag.toList.drop 1))

def getProgram (id : Int32) : Option ProgramRow := d.programs.find? (fun p => p.id = id)

end Database

open Database

/-- `save_player`; it bails when there is no row. -/
def savePlayer (row : PlayerRow) : Sql Unit :=
  sql fun d => if row.id ∈ d.playerIds then some ((), d.setPlayer row) else none

def saveBuilding (row : BuildingRow) : Sql Unit :=
  sql fun d => if row.view.id ∈ d.buildingIds then some ((), d.setBuilding row) else none

def savePlayersBatch (rows : List PlayerRow) : Sql Unit :=
  if rows.isEmpty then ret () else commitAll (forEach savePlayer rows)

def saveBuildingsBatch (rows : List BuildingRow) : Sql Unit :=
  if rows.isEmpty then ret () else commitAll (forEach saveBuilding rows)

def saveTransfer (transfer : PlayerRow × BuildingRow) : Sql Unit :=
  andThen (savePlayer transfer.1) fun _ => saveBuilding transfer.2

def savePlayerBuildingBatch (transfers : List (PlayerRow × BuildingRow)) : Sql Unit :=
  if transfers.isEmpty then ret () else commitAll (forEach saveTransfer transfers)

def saveBox (write : BoxWrite) : Sql Unit := sql fun d => some ((), d.applyBoxWrite write)

def saveBoxesBatch (writes : List BoxWrite) : Sql Unit := commitAll (forEach saveBox writes)

/-- The id of a message is its primary key. -/
def addChatMessage (message : ChatAppendRequest) : Sql Unit :=
  sql fun d =>
    if message.id ∈ d.chatIds then none else some ((), { d with chatMessages := d.chatMessages ++ [message] })

/-- Every message is a statement of its own. -/
def saveChatMessagesBatch (messages : List ChatAppendRequest) : Sql Unit := forEach addChatMessage messages

inductive SaveSelectProgramResult
  | saved (program : ProgramRow)
  | programUnavailable
  | playerUnavailable

def saveSelectProgram (player : PlayerId) (program : Int32) (code : String) : Sql SaveSelectProgramResult :=
  transaction .transient do
    let updated ← sql fun d => some (d.programs.any (fun p => p.id = program ∧ p.playerId = player),
      { d with programs := d.programs.map (fun p => if p.id = program ∧ p.playerId = player then { p with code } else p) })
    if updated then
      let selected ← sql fun d => some (decide (player ∈ d.playerIds), d.selectProgram player (some program))
      if selected then
        let row ← sql fun d => (d.programs.find? (fun p => p.id = program ∧ p.playerId = player)).map (fun p => (p, d))
        ret (true, .saved row)
      else ret (false, .playerUnavailable)
    else ret (false, .programUnavailable)

def saveProgram (player : PlayerId) (program : Int32) (source : String) : Sql StoreResult := do
  match ← saveSelectProgram player program source with
  | .saved row => ret (.programSaved row.name)
  | .programUnavailable => ret .rejected
  | .playerUnavailable => fail .permanent

/-- A program belongs to a player who exists. -/
def insertProgram (player : PlayerId) (name code : String) : Sql Int32 :=
  sql fun d =>
    if player ∈ d.playerIds then
      some (d.lastProgram + 1,
        { d with programs := d.programs ++ [⟨d.lastProgram + 1, player, name, code⟩], lastProgram := d.lastProgram + 1 })
    else none

def setSelectedProgram (player : PlayerId) (program : Option Int32) : Sql Bool :=
  sql fun d => some (decide (player ∈ d.playerIds), d.selectProgram player program)

/-- A failure to select the new program is ignored. -/
def createProgram (player : PlayerId) (name : String) : Sql StoreResult := do
  let id ← insertProgram player name ""
  let _ ← swallow (setSelectedProgram player (some id))
  ret (.programCreated id)

def programOpen (player : PlayerId) (program : Int32) : Sql StoreResult := do
  match ← query fun d => d.getProgram program with
  | none => ret .rejected
  | some row =>
    if row.playerId ≠ player then ret .rejected
    else
      let _ ← setSelectedProgram player (some row.id)
      ret (.programOpened row)

def programRename (player : PlayerId) (program : Int32) (name : String) : Sql StoreResult := do
  match ← query fun d => d.getProgram program with
  | none => ret .rejected
  | some row =>
    if row.playerId ≠ player then ret .rejected
    else
      let _ ← sql fun d =>
        if program ∈ d.programs.map ProgramRow.id then
          some ((), { d with programs := d.programs.map (fun p => if p.id = program then { p with name } else p) })
        else none
      ret (.programRenamed { row with name })

def programDelete (player : PlayerId) (program : Int32) (clearSelected : Bool) : Sql StoreResult := do
  let deleted ← sql fun d => some (d.programs.any (fun p => p.id = program ∧ p.playerId = player),
    { d with programs := d.programs.filter (fun p => ¬ (p.id = program ∧ p.playerId = player)) })
  if deleted then
    if clearSelected then
      let _ ← swallow (setSelectedProgram player none)
      ret .programDeleted
    else ret .programDeleted
  else ret .rejected

/-- A failure to insert the copy counts as a rejection. -/
def copyProgram (player : PlayerId) (program : Int32) : Sql StoreResult := do
  match ← query fun d => d.getProgram program with
  | none => ret .rejected
  | some row =>
    if row.playerId ≠ player then ret .rejected
    else
      match ← swallow (insertProgram player (row.name ++ " (copy)") row.code) with
      | .ok _ => ret .programCopied
      | .error _ => ret .rejected

/-- When no building was deleted, whether another one has the id or the origin. -/
def conflictingIdentity (request : BuildingDeleteRequest) (deleted : Nat) : Sql Bool :=
  if deleted ≠ 1 then
    query fun d => d.buildings.any (fun b => b.view.id = request.view.id ∨ b.view.origin = request.view.origin)
  else ret false

def clearRespBindings (request : BuildingDeleteRequest) : Sql Nat :=
  if request.view.packType = .resp then
    sql fun d =>
      some (d.players.countP (fun r => r.respX = some request.view.x ∧ r.respY = some request.view.y),
        { d with
          players := d.players.map (fun r =>
            if r.respX = some request.view.x ∧ r.respY = some request.view.y then { r with respX := none, respY := none }
            else r) })
  else ret 0

/-- The deletion of a building, its bindings and its box: `apply_building_delete`. -/
def deleteBuilding (request : BuildingDeleteRequest) : Sql StoreResult :=
  transaction .transient do
    let deleted ← sql fun d =>
      some (d.buildings.countP (fun b => b.view.id = request.view.id ∧ b.view.origin = request.view.origin),
        { d with
          buildings := d.buildings.filter
            (fun b => ¬ (b.view.id = request.view.id ∧ b.view.origin = request.view.origin)) })
    let conflicting ← conflictingIdentity request deleted
    if conflicting then
      let _ ← query fun _ => ()
      ret (false, .identityMismatch)
    else
      let cleared ← clearRespBindings request
      match request.boxWrite with
      | some write =>
        let _ ← saveBox write
        ret (true, .buildingDeleted cleared)
      | none => ret (true, .buildingDeleted cleared)

def cycleChatColor (player : PlayerId) : Sql StoreResult := do
  match ← sql fun d =>
      if player ∈ d.playerIds then
        some (some ((d.chatColors player + 1) % 20),
          { d with chatColors := Function.update d.chatColors player ((d.chatColors player + 1) % 20) })
      else some (none, d) with
  | some color => ret (.colorCycled color)
  | none => ret .rejected

def adminMoneyAll (amount : Int) : Sql StoreResult := do
  let affected ← sql fun d =>
    some (d.players.length,
      { d with players := d.players.map (fun r => { r with money := Int64.ofInt (r.money.toInt + amount) }) })
  ret (.moneyApplied affected)

/-- Every failure is a permanent one. -/
def adminRole (targetName : String) (role : Int32) : Sql StoreResult := do
  match ← swallow (query fun d => d.clans.getPlayerByName targetName) with
  | .error _ => ret .permanentFailure
  | .ok none => ret .targetNotFound
  | .ok (some target) =>
    match ← swallow (sql fun d => some (decide (target.id ∈ d.playerIds), d.setRole target.id role)) with
    | .ok true => ret (.roleApplied target.id target.name)
    | .ok false => ret .targetNotFound
    | .error _ => ret .permanentFailure

def adminSkill (row : PlayerRow) : Sql StoreResult := do
  let _ ← savePlayer row
  ret .done

end OpenMines.Persistence

namespace OpenMines

/-- The queries of a clan command before its change. -/
def ClanAction.lookups : ClanAction → Nat
  | .create .. => 1
  | .kick .. => 1
  | _ => 0

/-- The statements of the change, those that begin and commit a transaction among them. -/
def ClanAction.changes : ClanAction → Nat
  | .create .. => 4
  | .acceptInvite .. => 5
  | .acceptRequest .. => 5
  | .invalid .. => 0
  | _ => 1

end OpenMines

namespace OpenMines.Persistence

open Lib.Statements Lib.Statements.Prog Database

/-- `clan_command`, which makes every failure a permanent one; the id of a new clan is drawn. -/
def clanCommand (request : ClanCommandRequest) (draw : Nat) (action : ClanAction) : Sql StoreResult := fun fails d =>
  let done := d.clans.clanCommand request
    ⟨decide (∀ i < action.lookups, fails i = false),
      decide (∀ i < action.changes, fails (action.lookups + i) = false), draw⟩ action
  ⟨.ok (.clan done.2), { d with clans := done.1 }, action.lookups + action.changes⟩

def load : Sql StoreResult := andThen (query fun _ => ()) fun _ => ret .loaded

def chatPrivate (targetUid : PlayerId) : Sql StoreResult := do
  let found ← query fun d => d.chatMessages.any (fun m => isPrivateTag targetUid m.tag)
  if found then load else ret .targetNotFound

/-- Players that cannot be read are left out. -/
def whois (ids : List PlayerId) : Sql StoreResult :=
  andThen (forEach (fun id => andThen (swallow (query fun d => decide (id ∈ d.playerIds))) fun _ => ret ()) ids)
    fun _ => ret .loaded

def clanMenu : ClanMenuAction → Sql StoreResult
  | .inviteList => ret .loaded
  | .preview clanId => do
    match ← swallow (query fun d => decide (clanId ∈ d.clans.clans.map ClanRow.id)) with
    | .ok true => ret .loaded
    | .ok false => ret .notFound
    | .error _ => ret .permanentFailure
  | _ => do
    match ← swallow (query fun _ => ()) with
    | .ok _ => ret .loaded
    | .error _ => ret .permanentFailure

def auctionOrder (orderId : Int32) : Sql StoreResult := do
  match ← query fun d => getOrder d.orders orderId with
  | none => ret .notFound
  | some order =>
    if 0 < order.buyerId then
      let buyer ← query fun d => decide (order.buyerId ∈ d.playerIds)
      if buyer then ret .loaded else ret .permanentFailure
    else ret .loaded

def auctionOrderCreate (request : AuctionOrderCreateRequest) : Sql StoreResult := do
  let _ ← sql fun d =>
    some ((), { d with
      orders := d.orders ++ [⟨d.lastOrder + 1, request.playerId, request.itemId, request.num, request.cost, 0, 0⟩]
      lastOrder := d.lastOrder + 1 })
  ret .orderCreated

/-- The update of an order that still has a buyer and a price, with the number of rows it changed. -/
def updateOrderBetCas (id : Int32) (cost : Int) (buyer : PlayerId) (betTime : Int) (expectedBuyer : PlayerId)
    (expectedCost : Int) : Sql Nat :=
  sql fun d =>
    let done := tryUpdateOrderBetCas d.orders id cost buyer betTime expectedBuyer expectedCost
    some (done.2, { d with orders := done.1 })

/-- The bet is written before the buyer who was outbid gets his money back. -/
def refundOutbid (request : AuctionBetRequest) (order : OrderRow) (amount now : Int) : Sql StoreResult := do
  match ← swallow (sql fun d =>
      if order.buyerId ∈ d.playerIds then some ((), d.addMoney order.buyerId order.cost) else none) with
  | .ok _ =>
    ret (.bet (.won amount order.buyerId order.cost
      { order with cost := amount, buyerId := request.playerId, betTime := now }))
  | .error _ =>
    let _ ← swallow (updateOrderBetCas request.orderId order.cost order.buyerId order.betTime request.playerId amount)
    fail .permanent

def auctionBet (raise : Int → Int) (request : AuctionBetRequest) (now : Int) : Sql StoreResult := do
  match ← query fun d => getOrder d.orders request.orderId with
  | none => ret (.bet .notFound)
  | some order =>
    let required := minBid raise order.cost (0 < order.buyerId)
    let amount := request.requestedAmount.getD required
    if required > amount ∨ request.bidderMoney < amount then ret (.bet .rejected)
    else
      let _ ← query fun d => decide (request.playerId ∈ d.playerIds)
      let won ← updateOrderBetCas request.orderId amount request.playerId now order.buyerId order.cost
      if won = 0 then ret (.bet .lostRace)
      else if order.buyerId ≠ 0 then refundOutbid request order amount now
      else
        ret (.bet (.won amount order.buyerId order.cost
          { order with cost := amount, buyerId := request.playerId, betTime := now }))

end OpenMines.Persistence

import OpenMines.Lib.Run
import OpenMines.PersistenceStore

namespace OpenMines.Persistence

open Lib.Statements Lib.Statements.Prog Lib.Run

/-- The save commands with what the store reads of their requests. -/
inductive SaveCommand
  | player (row : PlayerRow)
  | building (row : BuildingRow)
  | respProfit (player : PlayerRow) (building : BuildingRow)
  | chargeFill (player : PlayerRow) (building : BuildingRow)
  | box (write : BoxWrite)
  | program (player : PlayerId) (program : Int32) (source : String)
  | programCreate (player : PlayerId) (name : String)
  | programMenu (player : PlayerId)
  | programOpen (player : PlayerId) (program : Int32)
  | programRename (player : PlayerId) (program : Int32) (name : String)
  | programDelete (player : PlayerId) (program : Int32) (clearSelected : Bool)
  | programCopy (player : PlayerId) (program : Int32)
  | buildingMenu (player : PlayerId)
  | auctionGrid
  | auctionItemOrders (itemId : Int32)
  | auctionOrder (orderId : Int32)
  | auctionOrderCreate (request : AuctionOrderCreateRequest)
  | auctionBet (request : AuctionBetRequest)
  | buildingDelete (request : BuildingDeleteRequest)
  | chatAppend (request : ChatAppendRequest)
  | chatColorCycle (player : PlayerId)
  | chatResync (channelTag : String)
  | chatMenu
  | chatPrivate (targetUid : PlayerId)
  | whois (ids : List PlayerId)
  | clanMenu (action : ClanMenuAction)
  | adminMoneyAll (amount : Int)
  | adminRole (targetName : String) (role : Int32)
  | adminSkill (row : PlayerRow)
  | clanCommand (request : ClanCommandRequest) (action : ClanAction)

def SaveCommand.kind : SaveCommand → SaveKind
  | .player .. => .player
  | .building .. => .building
  | .respProfit .. => .respProfit
  | .chargeFill .. => .chargeFill
  | .box .. => .box
  | .program .. => .program
  | .programCreate .. => .programCreate
  | .programMenu .. => .programMenu
  | .programOpen .. => .programOpen
  | .programRename .. => .programRename
  | .programDelete .. => .programDelete
  | .programCopy .. => .programCopy
  | .buildingMenu .. => .buildingMenu
  | .auctionGrid => .auctionGrid
  | .auctionItemOrders .. => .auctionItemOrders
  | .auctionOrder .. => .auctionOrder
  | .auctionOrderCreate .. => .auctionOrderCreate
  | .auctionBet .. => .auctionBet
  | .buildingDelete .. => .buildingDelete
  | .chatAppend .. => .chatAppend
  | .chatColorCycle .. => .chatColorCycle
  | .chatResync .. => .chatResync
  | .chatMenu => .chatMenu
  | .chatPrivate .. => .chatPrivate
  | .whois .. => .whois
  | .clanMenu .. => .clanMenu
  | .adminMoneyAll .. => .adminMoneyAll
  | .adminRole .. => .adminRole
  | .adminSkill .. => .adminSkill
  | .clanCommand .. => .clanCommand

/-- The kinds that are saved in batches, and that have no completion. -/
def compatible : SaveKind → Bool
  | .player => true
  | .building => true
  | .respProfit => true
  | .chargeFill => true
  | .box => true
  | .chatAppend => true
  | _ => false

/-- What the store draws and reads of the clock. -/
structure Inputs where
  draw : Nat
  now : Int

namespace SaveCommand

def playerRow : SaveCommand → Option PlayerRow
  | .player row => some row
  | _ => none

def buildingRow : SaveCommand → Option BuildingRow
  | .building row => some row
  | _ => none

def respProfitTransfer : SaveCommand → Option (PlayerRow × BuildingRow)
  | .respProfit row pack => some (row, pack)
  | _ => none

def chargeFillTransfer : SaveCommand → Option (PlayerRow × BuildingRow)
  | .chargeFill row pack => some (row, pack)
  | _ => none

def boxWrite : SaveCommand → Option BoxWrite
  | .box write => some write
  | _ => none

def chatMessage : SaveCommand → Option ChatAppendRequest
  | .chatAppend request => some request
  | _ => none

end SaveCommand

def saved (m : Sql Unit) : Sql StoreResult := andThen m fun _ => ret .done

variable (raise : Int → Int)

/-- The method of the store for a command of a kind that completes. -/
def method (inputs : Inputs) : SaveCommand → Sql StoreResult
  | .program player program source => saveProgram player program source
  | .programCreate player name => createProgram player name
  | .programMenu _ => load
  | .programOpen player program => programOpen player program
  | .programRename player program name => programRename player program name
  | .programDelete player program clearSelected => programDelete player program clearSelected
  | .programCopy player program => copyProgram player program
  | .buildingMenu _ => load
  | .auctionGrid => load
  | .auctionItemOrders _ => load
  | .auctionOrder orderId => auctionOrder orderId
  | .auctionOrderCreate request => auctionOrderCreate request
  | .auctionBet request => auctionBet raise request inputs.now
  | .buildingDelete request => deleteBuilding request
  | .chatColorCycle player => cycleChatColor player
  | .chatResync _ => load
  | .chatMenu => ret .loaded
  | .chatPrivate targetUid => chatPrivate targetUid
  | .whois ids => whois ids
  | .clanMenu action => clanMenu action
  | .adminMoneyAll amount => adminMoneyAll amount
  | .adminRole targetName role => adminRole targetName role
  | .adminSkill row => adminSkill row
  | .clanCommand request action => clanCommand request inputs.draw action
  | _ => ret .done

/-- The method of the store for commands of one kind. -/
def batchMethod (kind : SaveKind) (cmds : List SaveCommand) : Sql StoreResult :=
  match kind with
  | .player => saved (savePlayersBatch (cmds.filterMap SaveCommand.playerRow))
  | .building => saved (saveBuildingsBatch (cmds.filterMap SaveCommand.buildingRow))
  | .respProfit => saved (savePlayerBuildingBatch (cmds.filterMap SaveCommand.respProfitTransfer))
  | .chargeFill => saved (savePlayerBuildingBatch (cmds.filterMap SaveCommand.chargeFillTransfer))
  | .box => saved (saveBoxesBatch (cmds.filterMap SaveCommand.boxWrite))
  | .chatAppend => saved (saveChatMessagesBatch (cmds.filterMap SaveCommand.chatMessage))
  | _ => ret .done

def batchLimit : Nat := 128

def buildingDeleteMaxAttempts : Nat := 8

/-- The commands that the worker hands to the store at once: all of one kind, or the first alone. -/
def group (batch : List SaveCommand) : List SaveCommand :=
  match batch with
  | [] => []
  | cmd :: rest => if compatible cmd.kind then cmd :: rest.takeWhile (fun c => c.kind = cmd.kind) else [cmd]

def perform (inputs : Inputs) (cmd : SaveCommand) (cmds : List SaveCommand) : Sql StoreResult :=
  if compatible cmd.kind then batchMethod cmd.kind cmds else method raise inputs cmd

/-- The worker with its queue; `attempts` counts the failures at the head of the batch. The last two
fields remember what was admitted, and what was done with which inputs. -/
structure Worker where
  db : Database
  queue : List SaveCommand
  batch : List SaveCommand
  attempts : Nat
  completions : List (SaveCommand × StoreResult)
  admitted : List SaveCommand
  done : List (SaveCommand × Inputs)

inductive WorkerEvent
  | accept (cmd : SaveCommand)
  /-- the worker takes a command, and as many more as are there -/
  | receive (more : Nat)
  /-- the next call of the store, and which of its statements fail -/
  | attempt (fails : Nat → Bool) (inputs : Inputs)
  /-- the worker sleeps -/
  | wait

namespace Worker

variable (s : Worker)

def finish (cmds : List SaveCommand) (inputs : Inputs) (db : Database)
    (completion : List (SaveCommand × StoreResult)) : Worker :=
  { s with
    db
    batch := s.batch.drop cmds.length
    attempts := 0
    completions := s.completions ++ completion
    done := s.done ++ cmds.map (fun c => (c, inputs)) }

/-- One round of `persist_batch`: a transient failure is tried again, for a deletion of a building
not for ever. -/
def attempt (fails : Nat → Bool) (inputs : Inputs) (cmd : SaveCommand) : Worker :=
  let cmds := group s.batch
  let answer := perform raise inputs cmd cmds fails s.db
  if compatible cmd.kind then
    match answer.result with
    | .ok _ => s.finish cmds inputs answer.data []
    | .error _ => { s with db := answer.data, attempts := s.attempts + 1 }
  else
    match answer.result with
    | .ok result => s.finish cmds inputs answer.data [(cmd, result)]
    | .error .permanent => s.finish cmds inputs answer.data [(cmd, .permanentFailure)]
    | .error .transient =>
      if cmd.kind = .buildingDelete ∧ buildingDeleteMaxAttempts ≤ s.attempts + 1 then
        s.finish cmds inputs answer.data [(cmd, .permanentFailure)]
      else { s with db := answer.data, attempts := s.attempts + 1 }

def step : WorkerEvent → Option Worker
  | .accept cmd => some { s with queue := s.queue ++ [cmd], admitted := s.admitted ++ [cmd] }
  | .receive more =>
    match s.batch, s.queue with
    | [], first :: rest =>
      let more := min more (batchLimit - 1)
      some { s with batch := first :: rest.take more, queue := rest.drop more, attempts := 0 }
    | _, _ => none
  | .attempt fails inputs =>
    match s.batch with
    | [] => none
    | cmd :: _ => some (s.attempt raise fails inputs cmd)
  | .wait => some s

/-- What a command does to the tables when no statement fails. -/
def effect (d : Database) (c : SaveCommand × Inputs) : Database := ((perform raise c.2 c.1 [c.1]).calm d).data

def completes (cmd : SaveCommand) : Bool := !compatible cmd.kind

/-- Every command was done once and in its turn, or waits; each that completes has one completion. -/
structure InOrder (start : Database) : Prop where
  db : s.db = s.done.foldl (effect raise) start
  turn : s.done.map Prod.fst ++ s.batch ++ s.queue = s.admitted
  completions : s.completions.map Prod.fst = (s.done.map Prod.fst).filter completes

/-- The worker has commands to do. -/
def Busy : Prop := s.batch ≠ [] ∨ s.queue ≠ []

end Worker

/-- The first statements of a call whose failure leaves nothing behind and is tried again; none
where that goes for all. -/
def SaveCommand.sheltered : SaveCommand → Option Nat
  | .chatAppend .. => some 1
  | .programCreate .. => some 1
  | .programDelete .. => some 1
  | .programCopy .. => some 1
  | .auctionBet .. => some 3
  | .adminRole .. => some 0
  | .clanCommand .. => some 0
  | _ => none

/-- No statement of the call fails, or one of the sheltered ones does. -/
def Spared (inputs : Inputs) (cmd : SaveCommand) (cmds : List SaveCommand) (fails : Nat → Bool) (d : Database) : Prop :=
  ∀ first ∈ cmd.sheltered,
    (∃ i < first, i < ((perform raise inputs cmd cmds).calm d).count ∧ fails i = true) ∨
      ∀ i < ((perform raise inputs cmd cmds).calm d).count, fails i = false

/-- The rows of the commands are there, and the ids of the messages are free. -/
def Accepted (cmd : SaveCommand) (cmds : List SaveCommand) (d : Database) : Prop :=
  match cmd with
  | .player _ => ∀ row ∈ cmds.filterMap SaveCommand.playerRow, row.id ∈ d.playerIds
  | .building _ => ∀ row ∈ cmds.filterMap SaveCommand.buildingRow, row.view.id ∈ d.buildingIds
  | .respProfit .. => ∀ t ∈ cmds.filterMap SaveCommand.respProfitTransfer,
      t.1.id ∈ d.playerIds ∧ t.2.view.id ∈ d.buildingIds
  | .chargeFill .. => ∀ t ∈ cmds.filterMap SaveCommand.chargeFillTransfer,
      t.1.id ∈ d.playerIds ∧ t.2.view.id ∈ d.buildingIds
  | .chatAppend _ => ((cmds.filterMap SaveCommand.chatMessage).map ChatAppendRequest.id).Nodup ∧
      ∀ message ∈ cmds.filterMap SaveCommand.chatMessage, message.id ∉ d.chatIds
  | .adminSkill row => row.id ∈ d.playerIds
  | .programCreate player _ => player ∈ d.playerIds
  | _ => True

/-- The conditions on a step under which the worker does the next command once, and is not held up. -/
def Worker.Fair (s : Worker) : WorkerEvent → Prop
  | .attempt fails inputs => ∀ cmd ∈ s.batch.head?,
      Accepted cmd (group s.batch) s.db ∧ Spared raise inputs cmd (group s.batch) fails s.db ∧
        (cmd.kind = .buildingDelete → s.attempts + 1 < buildingDeleteMaxAttempts ∨
          ∀ i < ((perform raise inputs cmd (group s.batch)).calm s.db).count, fails i = false)
  | _ => True

/-- The worker takes commands, or calls the store and no statement fails. -/
def Worker.Recovers (s : Worker) : WorkerEvent → Prop
  | .receive _ => True
  | .attempt fails inputs => ∀ cmd ∈ s.batch.head?,
      ∀ i < ((perform raise inputs cmd (group s.batch)).calm s.db).count, fails i = false
  | _ => False

end OpenMines.Persistence

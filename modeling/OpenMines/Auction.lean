import OpenMines.Completion
import OpenMines.Lib.Run

namespace OpenMines

open LivePlayers

/-- A command in the queue of the persistence worker. -/
inductive AuctionSave
  | player (id : PlayerId) (row : LivePlayer)
  | bet (request : AuctionBetRequest)

/-- Where the persistence worker stands with the bet at the head of its queue. -/
inductive BetJob
  | idle
  /-- the order was read and the bid accepted -/
  | betting (request : AuctionBetRequest) (order : OrderRow) (amount : Int)
  /-- the bet is in the order, and the one before is to be refunded -/
  | refunding (request : AuctionBetRequest) (order : OrderRow) (amount now : Int)

/-- Where the finalizer stands with the orders that it has listed. -/
inductive FinalizeJob
  | idle
  | listed (todo : List OrderRow)
  | selling (order : OrderRow) (todo : List OrderRow)
  | delivering (order : OrderRow) (todo : List OrderRow)
  /-- the delivery failed; the payment of the seller is taken back -/
  | rolling (order : OrderRow) (todo : List OrderRow)
  | deleting (order : OrderRow) (todo : List OrderRow)
  deriving DecidableEq

structure Bid where
  orderId : Int32
  buyerId : PlayerId
  amount : Int
  deriving DecidableEq

def OrderRow.bid (o : OrderRow) : Bid := ⟨o.id, o.buyerId, o.cost⟩

/-- The orders, and the players as the table and as the game has them. The last six fields remember
what became of the bids, and which orders were paid and delivered. -/
structure AuctionState where
  orders : List OrderRow
  rows : LivePlayers
  live : LivePlayers
  queue : List AuctionSave
  job : BetJob
  completions : List (AuctionBetRequest × AuctionBetResult)
  /-- the rows that logins have read -/
  logins : List (PlayerId × LivePlayer)
  finalize : FinalizeJob
  accepted : List Bid
  refunded : List Bid
  withdrawn : List Bid
  paid : List OrderRow
  unpaid : List OrderRow
  delivered : List OrderRow

/-- The failures of the database are part of the events. -/
inductive AuctionEvent
  | bet (player : PlayerId) (session : SessionId) (buildingX buildingY orderId : Int32) (requestedAmount : Option Int)
  /-- a snapshot of the player is queued -/
  | flush (player : PlayerId)
  | readRow (player : PlayerId)
  /-- the login with the row at an index -/
  | connect (i : Nat)
  /-- a logout; a running program keeps the player in the game -/
  | disconnect (player : PlayerId) (keepOffline : Bool)
  | persist
  | cas (now : Int)
  /-- a transient failure before the bet is written -/
  | retry
  | refund (ok rollbackOk : Bool)
  | complete
  | listReady (cutoff : Int)
  /-- `offline` when neither the buyer nor the seller is connected -/
  | finalizeNext (offline ok : Bool)
  | finalizeStep (ok : Bool)
  deriving DecidableEq

/-- `min_bid`; `raise` is the bid that a price `f64`-times `1.01` asks for. -/
def minBid (raise : Int → Int) (cost : Int) (hasBuyer : Bool) : Int := if hasBuyer then raise cost else cost

def getOrder (orders : List OrderRow) (id : Int32) : Option OrderRow := orders.find? (fun o => o.id = id)

/-- The rows that the update of `try_update_order_bet_cas` changes. -/
def OrderRow.matchesCas (id : Int32) (expectedBuyer : PlayerId) (expectedCost : Int) (o : OrderRow) : Bool :=
  o.id = id ∧ o.buyerId = expectedBuyer ∧ o.cost = expectedCost

/-- The orders after the update, and how many rows it changed. -/
def tryUpdateOrderBetCas (orders : List OrderRow) (id : Int32) (cost : Int) (buyer : PlayerId) (betTime : Int)
    (expectedBuyer : PlayerId) (expectedCost : Int) : List OrderRow × Nat :=
  (orders.map (fun o =>
     if o.matchesCas id expectedBuyer expectedCost then { o with cost, buyerId := buyer, betTime } else o),
   orders.countP (OrderRow.matchesCas id expectedBuyer expectedCost))

def listReadyOrders (orders : List OrderRow) (cutoff : Int) : List OrderRow :=
  orders.filter (fun o => 0 < o.buyerId ∧ 0 < o.betTime ∧ o.betTime ≤ cutoff)

def deleteOrder (orders : List OrderRow) (id : Int32) : List OrderRow := orders.filter (fun o => o.id ≠ id)

/-- `add_player_money`, which fails where there is no row. -/
def addPlayerMoney (rows : LivePlayers) (id : PlayerId) (amount : Int) : LivePlayers :=
  rows.modifyPlayer id (fun p => { p with money := p.money + amount })

def addPlayerInventoryItem (rows : LivePlayers) (id : PlayerId) (item : Int32) (count : Int) : LivePlayers :=
  rows.modifyPlayer id (fun p => { p with items := Function.update p.items item (p.items item + count) })

namespace AuctionState

variable (raise : Int → Int) (s : AuctionState)

/-- `auction_bet_effects`. -/
def queueBet (player : PlayerId) (session : SessionId) (buildingX buildingY orderId : Int32)
    (requestedAmount : Option Int) : Option AuctionState :=
  (s.live player).map (fun p =>
    { s with
      queue := s.queue ++ [.bet ⟨player, session, buildingX, buildingY, orderId, requestedAmount, p.money⟩] })

def queueRow (player : PlayerId) : Option AuctionState :=
  (s.live player).map (fun p => { s with queue := s.queue ++ [.player player p] })

def connect (player : PlayerId) (row : LivePlayer) : AuctionState :=
  match s.live player with
  | some p => { s with live := Function.update s.live player (some { p with dirty := false, role := row.role }) }
  | none => { s with live := Function.update s.live player (some { row with dirty := false }) }

/-- The worker is done with the bet at the head of the queue. -/
def finishBet (request : AuctionBetRequest) (result : AuctionBetResult) : AuctionState :=
  { s with job := .idle, queue := s.queue.tail, completions := s.completions ++ [(request, result)] }

/-- `auction_bet` up to the update of the order. -/
def startBet (request : AuctionBetRequest) : AuctionState :=
  match getOrder s.orders request.orderId with
  | none => s.finishBet request .notFound
  | some order =>
    let required := minBid raise order.cost (0 < order.buyerId)
    let amount := request.requestedAmount.getD required
    if required > amount ∨ request.bidderMoney < amount then s.finishBet request .rejected
    else { s with job := .betting request order amount }

def won (request : AuctionBetRequest) (order : OrderRow) (amount now : Int) : AuctionBetResult :=
  .won amount order.buyerId order.cost { order with cost := amount, buyerId := request.playerId, betTime := now }

def persist : Option AuctionState :=
  match s.job, s.queue with
  | .idle, .player id row :: rest =>
    some { s with rows := s.rows.modifyPlayer id (fun _ => row), queue := rest }
  | .idle, .bet request :: _ => some (s.startBet raise request)
  | _, _ => none

def casBet (now : Int) (request : AuctionBetRequest) (order : OrderRow) (amount : Int) : AuctionState :=
  let (orders, affected) :=
    tryUpdateOrderBetCas s.orders request.orderId amount request.playerId now order.buyerId order.cost
  if affected = 0 then s.finishBet request .lostRace
  else
    let s := { s with orders, accepted := ⟨request.orderId, request.playerId, amount⟩ :: s.accepted }
    if order.buyerId ≠ 0 then { s with job := .refunding request order amount now }
    else s.finishBet request (won request order amount now)

def refundBet (ok rollbackOk : Bool) (request : AuctionBetRequest) (order : OrderRow) (amount now : Int) :
    AuctionState :=
  if ok ∧ (s.rows order.buyerId).isSome then
    { s with
      rows := addPlayerMoney s.rows order.buyerId order.cost
      refunded := order.bid :: s.refunded }.finishBet request (won request order amount now)
  else
    let (orders, affected) :=
      tryUpdateOrderBetCas s.orders request.orderId order.cost order.buyerId order.betTime request.playerId amount
    let s :=
      if rollbackOk then
        { s with
          orders
          withdrawn :=
            if affected = 0 then s.withdrawn else ⟨request.orderId, request.playerId, amount⟩ :: s.withdrawn }
      else s
    s.finishBet request .permanentFailure

def complete : Option AuctionState :=
  match s.completions with
  | [] => none
  | c :: rest =>
    some { s with
      completions := rest
      live := (applyPersistenceCompletion (R := Empty) s.live (.auctionBetCompleted c.1 c.2)).1 }

/-- `finalize_order_offline`: one transaction. -/
def finalizeOrderOffline (order : OrderRow) : AuctionState :=
  if order ∈ getOrder s.orders order.id ∧ (s.rows order.buyerId).isSome ∧
      (order.initiatorId = 0 ∨ (s.rows order.initiatorId).isSome) then
    let rows := addPlayerInventoryItem s.rows order.buyerId order.itemId order.num
    { s with
      rows := if order.initiatorId ≠ 0 then addPlayerMoney rows order.initiatorId order.cost else rows
      orders := deleteOrder s.orders order.id
      paid := if order.initiatorId ≠ 0 then order :: s.paid else s.paid
      delivered := order :: s.delivered }
  else s

/-- `credit_money_impl`; nothing when it fails. -/
def creditMoney (ok : Bool) (player : PlayerId) (amount : Int) : Option AuctionState :=
  if (s.live player).isSome then
    some { s with live := s.live.modifyPlayer player (fun p => { p with money := p.money + amount, dirty := true }) }
  else if ok ∧ (s.rows player).isSome then some { s with rows := addPlayerMoney s.rows player amount }
  else none

/-- `credit_inventory_impl`. -/
def creditInventory (ok : Bool) (player : PlayerId) (item : Int32) (count : Int) : Option AuctionState :=
  if (s.live player).isSome then some { s with live := s.live.modifyPlayer player (creditItem item count) }
  else if ok ∧ (s.rows player).isSome then some { s with rows := addPlayerInventoryItem s.rows player item count }
  else none

def finalizeNext (offline ok : Bool) : Option AuctionState :=
  match s.finalize with
  | .listed [] => some { s with finalize := .idle }
  | .listed (order :: todo) =>
    if offline then
      some (if ok then { s with finalize := .listed todo }.finalizeOrderOffline order
        else { s with finalize := .listed todo })
    else some { s with finalize := .selling order todo }
  | _ => none

/-- The next await point of `finalize_ready_order`. -/
def finalizeStep (ok : Bool) : Option AuctionState :=
  match s.finalize with
  | .selling order todo =>
    if order.initiatorId = 0 then some { s with finalize := .delivering order todo }
    else
      match s.creditMoney ok order.initiatorId order.cost with
      | some s => some { s with finalize := .delivering order todo, paid := order :: s.paid }
      | none => some { s with finalize := .listed todo }
  | .delivering order todo =>
    match s.creditInventory ok order.buyerId order.itemId order.num with
    | some s => some { s with finalize := .deleting order todo, delivered := order :: s.delivered }
    | none =>
      some { s with finalize := if order.initiatorId ≠ 0 then .rolling order todo else .listed todo }
  | .rolling order todo =>
    match s.creditMoney ok order.initiatorId (-order.cost) with
    | some s => some { s with finalize := .listed todo, unpaid := order :: s.unpaid }
    | none => some { s with finalize := .listed todo }
  | .deleting order todo =>
    some { s with finalize := .listed todo, orders := if ok then deleteOrder s.orders order.id else s.orders }
  | _ => none

def step : AuctionEvent → Option AuctionState
  | .bet player session buildingX buildingY orderId requestedAmount =>
    s.queueBet player session buildingX buildingY orderId requestedAmount
  | .flush player => s.queueRow player
  | .readRow player => (s.rows player).map (fun row => { s with logins := s.logins ++ [(player, row)] })
  | .connect i =>
    s.logins[i]?.map (fun login => { s.connect login.1 login.2 with logins := s.logins.eraseIdx i })
  | .disconnect player keepOffline =>
    (s.queueRow player).map (fun s =>
      if keepOffline then s else { s with live := Function.update s.live player none })
  | .persist => s.persist raise
  | .cas now =>
    match s.job with
    | .betting request order amount => some (s.casBet now request order amount)
    | _ => none
  | .retry =>
    match s.job with
    | .betting .. => some { s with job := .idle }
    | _ => none
  | .refund ok rollbackOk =>
    match s.job with
    | .refunding request order amount now => some (s.refundBet ok rollbackOk request order amount now)
    | _ => none
  | .complete => s.complete
  | .listReady cutoff =>
    match s.finalize with
    | .idle => some { s with finalize := .listed (listReadyOrders s.orders cutoff) }
    | _ => none
  | .finalizeNext offline ok => s.finalizeNext offline ok
  | .finalizeStep ok => s.finalizeStep ok

end AuctionState

end OpenMines

import OpenMines.ClanStore
import OpenMines.Lib.Run

namespace OpenMines

open LivePlayers

/-- Items for an order, or credits for a clan, that are taken when the request is queued. -/
inductive Reservation
  | order (request : AuctionOrderCreateRequest)
  | clan (request : ClanCommandRequest)
  deriving DecidableEq

inductive Good
  | item (id : Int32)
  | creds
  deriving DecidableEq

def Reservation.playerId : Reservation → PlayerId
  | .order request => request.playerId
  | .clan request => request.playerId

/-- How much of a good of a player is reserved. -/
def Reservation.amount (p : PlayerId) (g : Good) : Reservation → Int
  | .order request => if request.playerId = p ∧ g = .item request.itemId then request.num else 0
  | .clan request => if request.playerId = p ∧ g = .creds then 1000 else 0

def LivePlayer.amount (l : LivePlayer) : Good → Int
  | .item id => l.items id
  | .creds => l.creds

inductive GoodsSave
  | player (id : PlayerId) (row : LivePlayer)
  | auctionOrderCreate (request : AuctionOrderCreateRequest)
  | clanCommand (request : ClanCommandRequest) (action : ClanAction)

/-- How the store answers the worker; a failure of an order is tried again unless it is permanent. -/
structure StoreAnswer extends ClanIo where
  permanent : Bool

/-- The tables, the players in the game and the requests under way. The table of players holds the
goods in `rows` and the clans in `store`; the last three fields remember what became of the
reservations. -/
structure GoodsState where
  orders : List OrderRow
  lastOrder : Int32
  store : ClanStore
  rows : LivePlayers
  live : LivePlayers
  queue : List GoodsSave
  completions : List PersistenceCompletion
  /-- the rows that logins have read -/
  logins : List (PlayerId × LivePlayer)
  reserved : List Reservation
  created : List Reservation
  returned : List Reservation

inductive GoodsEvent
  /-- the button `aucsetnum`, and the market whose window is open -/
  | createOrder (player : PlayerId) (session : SessionId) (market : Option (Int32 × Int32)) (itemId : Int32)
      (cost num : Int)
  | clan (player : PlayerId) (session : SessionId) (action : ClanAction)
  | execute (answer : StoreAnswer)
  | complete
  | flush (player : PlayerId)
  | readRow (player : PlayerId)
  /-- the login with the row at an index -/
  | connect (i : Nat)
  /-- a logout; a running program keeps the player in the game -/
  | disconnect (player : PlayerId) (keepOffline : Bool)

/-- What a failed request gives back. -/
def PersistenceCompletion.refund : PersistenceCompletion → List Reservation
  | .auctionOrderCreated request false => [.order request]
  | .clanCommandApplied request .rejected => if request.createReserved then [.clan request] else []
  | .clanCommandApplied request .permanentFailure => if request.createReserved then [.clan request] else []
  | _ => []

def GoodsSave.reservation : GoodsSave → List Reservation
  | .player .. => []
  | .auctionOrderCreate request => [.order request]
  | .clanCommand request _ => if request.createReserved then [.clan request] else []

namespace GoodsState

variable (s : GoodsState)

def enqueue (save : GoodsSave) : GoodsState := { s with queue := s.queue ++ [save] }

/-- The goods leave the live player, and the request is queued. -/
def reserve (player : PlayerId) (taken : LivePlayer) (reservation : Reservation) (save : GoodsSave) : GoodsState :=
  { s with
    live := Function.update s.live player (some { taken with dirty := true })
    reserved := s.reserved ++ [reservation] }.enqueue save

/-- The branch `aucsetnum` of the buttons; nothing without a market window or enough items. -/
def queueOrder (player : PlayerId) (session : SessionId) (market : Option (Int32 × Int32)) (itemId : Int32)
    (cost num : Int) : Option GoodsState :=
  match market, s.live player with
  | some (buildingX, buildingY), some p =>
    if num ≤ 0 ∨ p.items itemId < num then none
    else
      let request : AuctionOrderCreateRequest := ⟨player, session, buildingX, buildingY, itemId, num, cost⟩
      some (s.reserve player { p with items := Function.update p.items itemId (p.items itemId - num) }
        (.order request) (.auctionOrderCreate request))
  | _, _ => none

/-- `admin_clan` with `reserve_clan_create`. -/
def adminClan (player : PlayerId) (session : SessionId) (action : ClanAction) : Option GoodsState :=
  match s.live player, action with
  | none, _ => none
  | some _, .invalid _ => none
  | some p, .create name tag =>
    if p.clanId = none ∧ 1000 ≤ p.creds then
      some (s.reserve player { p with creds := p.creds - 1000 } (.clan ⟨player, session, true⟩)
        (.clanCommand ⟨player, session, true⟩ (.create name tag)))
    else none
  | some _, action => some (s.enqueue (.clanCommand ⟨player, session, false⟩ action))

/-- `create_order`. -/
def insertOrder (request : AuctionOrderCreateRequest) : GoodsState :=
  { s with
    orders := s.orders ++ [⟨s.lastOrder + 1, request.playerId, request.itemId, request.num, request.cost, 0, 0⟩]
    lastOrder := s.lastOrder + 1
    created := s.created ++ [.order request] }

def finish (rest : List GoodsSave) (completion : PersistenceCompletion) : GoodsState :=
  { s with queue := rest, completions := s.completions ++ [completion] }

/-- The worker takes the next of the queue; what is to be tried again stays there. -/
def execute (answer : StoreAnswer) : Option GoodsState :=
  match s.queue with
  | [] => none
  | .player id row :: rest =>
    if answer.ok ∧ (s.rows id).isSome then
      some { s with
        rows := s.rows.modifyPlayer id (fun _ => row)
        store := s.store.setMember id row.clanId row.clanRank
        queue := rest }
    else some s
  | .auctionOrderCreate request :: rest =>
    if answer.ok then some ((s.insertOrder request).finish rest (.auctionOrderCreated request true))
    else if answer.permanent then some (s.finish rest (.auctionOrderCreated request false))
    else some s
  | .clanCommand request action :: rest =>
    let done := s.store.clanCommand request answer.toClanIo action
    let created := match done.2 with
      | .created _ => [Reservation.clan request]
      | _ => []
    some ({ s with store := done.1, created := s.created ++ created }.finish rest
      (.clanCommandApplied request done.2))

/-- The refund reaches a player who is in the game. -/
def complete : Option GoodsState :=
  match s.completions with
  | [] => none
  | c :: rest =>
    some { s with
      completions := rest
      live := (applyPersistenceCompletion (R := Empty) s.live c).1
      returned := s.returned ++ c.refund.filter (fun r => (s.live r.playerId).isSome) }

def queueRow (player : PlayerId) : Option GoodsState :=
  (s.live player).map (fun p => s.enqueue (.player player p))

/-- The row of a player with the columns of the clan. -/
def savedRow (player : PlayerId) : Option LivePlayer :=
  (s.rows player).map (fun row =>
    match s.store.row player with
    | some m => { row with clanId := m.clanId, clanRank := clanRankFromDb m.clanRank }
    | none => row)

/-- A player who is still in the game keeps what he has there. -/
def connect (player : PlayerId) (row : LivePlayer) : GoodsState :=
  match s.live player with
  | some p => { s with live := Function.update s.live player (some { p with dirty := false, role := row.role }) }
  | none => { s with live := Function.update s.live player (some { row with dirty := false }) }

def step : GoodsEvent → Option GoodsState
  | .createOrder player session market itemId cost num => s.queueOrder player session market itemId cost num
  | .clan player session action => s.adminClan player session action
  | .execute answer => s.execute answer
  | .complete => s.complete
  | .flush player => s.queueRow player
  | .readRow player => (s.savedRow player).map (fun row => { s with logins := s.logins ++ [(player, row)] })
  | .connect i =>
    s.logins[i]?.map (fun login => { s.connect login.1 login.2 with logins := s.logins.eraseIdx i })
  | .disconnect player keepOffline =>
    (s.queueRow player).map (fun s =>
      if keepOffline then s else { s with live := Function.update s.live player none })

/-- The reservations that are neither used nor given back. -/
def pending : List Reservation :=
  s.queue.flatMap GoodsSave.reservation ++ s.completions.flatMap PersistenceCompletion.refund

/-- The rows of a player that wait in the queue. -/
def queuedRows (queue : List GoodsSave) (p : PlayerId) : List LivePlayer :=
  queue.filterMap (fun save =>
    match save with
    | .player id row => if id = p then some row else none
    | _ => none)

/-- The row of a player that was saved last, or is about to be. -/
def lastRow (p : PlayerId) : Option LivePlayer := (queuedRows s.queue p).getLast?.or (s.rows p)

/-- What a player has of a good: in the game, else as it was saved last. -/
def held (p : PlayerId) (g : Good) : Int := (((s.live p).or (s.lastRow p)).map (fun l => l.amount g)).getD 0

/-- What the orders and the clans of a player have used of a good. -/
def spent (p : PlayerId) : Good → Int
  | .item id => s.orders.foldr (fun o n => (if o.initiatorId = p ∧ o.itemId = id then o.num else 0) + n) 0
  | .creds => s.store.clans.foldr (fun c n => (if c.ownerId = p then 1000 else 0) + n) 0

/-- No request with a reservation is under way. -/
def Settled : Prop := s.pending = []

/-- The conditions on a step under which no reserved good gets lost or doubled. -/
def Fair (s : GoodsState) : GoodsEvent → Prop
  | .complete => ∀ c ∈ s.completions.head?, ∀ r ∈ c.refund, (s.live r.playerId).isSome
  | .connect i => ∀ login ∈ s.logins[i]?, s.live login.1 = none → ∀ g, login.2.amount g = s.held login.1 g
  | _ => True

end GoodsState

/-- The reserved amount of all of a list. -/
def reservedAmount (p : PlayerId) (g : Good) (l : List Reservation) : Int :=
  l.foldr (fun r n => r.amount p g + n) 0

end OpenMines

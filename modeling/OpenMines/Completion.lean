import Mathlib.Logic.Function.Basic
import OpenMines.PlayerRow

namespace OpenMines

def i64Max : Int := 9223372036854775807

def i64Min : Int := -9223372036854775808

/-- A number as near to the given one as `i64` has it. -/
def saturate (n : Int) : Int := if n < i64Min then i64Min else if i64Max < n then i64Max else n

def saturatingAdd (a b : Int) : Int := saturate (a + b)

def saturatingSub (a b : Int) : Int := saturate (a - b)

theorem saturate_eq {n : Int} (hlow : i64Min ≤ n) (hhigh : n ≤ i64Max) : saturate n = n := by
  unfold saturate
  rw [if_neg (Int.not_lt.mpr hlow), if_neg (Int.not_lt.mpr hhigh)]

structure OrderRow where
  id : Int32
  initiatorId : PlayerId
  itemId : Int32
  num : Int
  cost : Int
  /-- `0` as long as there is no bet -/
  buyerId : PlayerId
  betTime : Int
  deriving DecidableEq

structure AuctionOrderRequest where
  playerId : PlayerId
  sessionId : SessionId
  buildingX : Int32
  buildingY : Int32
  orderId : Int32
  deriving DecidableEq

structure AuctionOrderCreateRequest where
  playerId : PlayerId
  sessionId : SessionId
  buildingX : Int32
  buildingY : Int32
  itemId : Int32
  num : Int
  cost : Int
  deriving DecidableEq

structure AuctionBetRequest where
  playerId : PlayerId
  sessionId : SessionId
  buildingX : Int32
  buildingY : Int32
  orderId : Int32
  requestedAmount : Option Int
  /-- the money of the bidder when the request was queued -/
  bidderMoney : Int
  deriving DecidableEq

inductive AuctionBetResult
  | won (amount : Int) (previousBuyerId : PlayerId) (previousCost : Int) (order : OrderRow)
  | lostRace
  | rejected
  | notFound
  | permanentFailure
  deriving DecidableEq

inductive ClanMenuAction
  | main
  | preview (clanId : Int32)
  | members
  | inviteList
  | invites
  | requests
  deriving DecidableEq

structure ClanMenuRequest where
  playerId : PlayerId
  sessionId : SessionId
  playerClanId : Option Int32
  action : ClanMenuAction
  inviteCandidates : List (Int32 × String)
  deriving DecidableEq

structure ClanCommandRequest where
  playerId : PlayerId
  sessionId : SessionId
  createReserved : Bool
  deriving DecidableEq

inductive ClanCommandResult
  | created (clanId : Int32)
  | left (clanId : Int32) (disbanded : Bool)
  | kicked (clanId : Int32) (targetId : PlayerId)
  | joined (clanId : Int32)
  | inviteDeclined
  | requestAccepted (clanId : Int32) (targetId : PlayerId)
  | requestDeclined
  | promoted (clanId : Int32) (targetId : PlayerId)
  | invited (targetId : PlayerId)
  | requestSent
  | rejected
  | permanentFailure
  deriving DecidableEq

/-- The kinds of completions that change no money, inventory, role or clan of a player. -/
inductive ReplyKind
  | programCreated
  | programSaved
  | programMenuLoaded
  | programOpened
  | programRenamed
  | programDeleted
  | programCopied
  | buildingMenuLoaded
  | auctionGridLoaded
  | auctionItemOrdersLoaded
  | auctionOrderLoaded
  | buildingDeleted
  | chatColorCycled
  | chatResynced
  | chatMenuLoaded
  | chatPrivateOpened
  | whoisLoaded
  | clanMenuLoaded
  | adminSkillApplied
  deriving DecidableEq

inductive PersistenceCompletion
  | auctionOrderCreated (request : AuctionOrderCreateRequest) (created : Bool)
  | auctionBetCompleted (request : AuctionBetRequest) (result : AuctionBetResult)
  | adminMoneyAllApplied (amount : Int) (applied : Bool)
  /-- the target, when the role was set -/
  | adminRoleApplied (role : Int32) (target : Option PlayerId)
  | clanCommandApplied (request : ClanCommandRequest) (result : ClanCommandResult)
  | reply (kind : ReplyKind)
  deriving DecidableEq

inductive SaveKind
  | player
  | building
  | respProfit
  | chargeFill
  | box
  | program
  | programCreate
  | programMenu
  | programOpen
  | programRename
  | programDelete
  | programCopy
  | buildingMenu
  | auctionGrid
  | auctionItemOrders
  | auctionOrder
  | auctionOrderCreate
  | auctionBet
  | buildingDelete
  | chatAppend
  | chatColorCycle
  | chatResync
  | chatMenu
  | chatPrivate
  | whois
  | clanMenu
  | adminMoneyAll
  | adminRole
  | adminSkill
  | clanCommand
  deriving DecidableEq

/-- A save command: of one of the two kinds that completions ask for, or of another kind
with its request. -/
inductive SaveCommand (R : Type)
  | auctionOrder (request : AuctionOrderRequest)
  | clanMenu (request : ClanMenuRequest)
  | other (kind : SaveKind) (request : R)
  deriving DecidableEq

def SaveCommand.kind {R : Type} : SaveCommand R → SaveKind
  | .auctionOrder _ => .auctionOrder
  | .clanMenu _ => .clanMenu
  | .other kind _ => kind

/-- What the completions change of a player in the game. -/
structure LivePlayer where
  money : Int
  creds : Int
  items : Int32 → Int
  role : Int32
  clanId : Option Int32
  clanRank : Int32
  dirty : Bool

abbrev LivePlayers := PlayerId → Option LivePlayer

def clanRankNone : Int32 := 0

def clanRankMember : Int32 := 10

def clanRankOfficer : Int32 := 50

def clanRankLeader : Int32 := 100

namespace LivePlayers

def modifyPlayer (players : LivePlayers) (id : PlayerId) (f : LivePlayer → LivePlayer) : LivePlayers :=
  Function.update players id ((players id).map f)

def creditMoney (amount : Int) (p : LivePlayer) : LivePlayer :=
  { p with money := saturatingAdd p.money amount, dirty := true }

def debitMoney (amount : Int) (p : LivePlayer) : LivePlayer :=
  { p with money := saturatingSub p.money amount, dirty := true }

def creditItem (item : Int32) (num : Int) (p : LivePlayer) : LivePlayer :=
  { p with items := Function.update p.items item (p.items item + num), dirty := true }

def refundClanCreate (p : LivePlayer) : LivePlayer :=
  { p with creds := saturatingAdd p.creds 1000, dirty := true }

/-- The players of a clan leave it. -/
def clearClan (clanId : Int32) (p : LivePlayer) : LivePlayer :=
  if p.clanId = some clanId then { p with clanId := none, clanRank := clanRankNone, dirty := true } else p

def joinClan (clanId : Int32) (p : LivePlayer) : LivePlayer :=
  { p with clanId := some clanId, clanRank := clanRankMember, dirty := true }

/-- The player and the one that he outbid, when a bet was won. -/
def applyAuctionBetWon (players : LivePlayers) (bidder : PlayerId) (amount : Int) (previousBuyerId : PlayerId)
    (previousCost : Int) : LivePlayers :=
  let players := players.modifyPlayer bidder (debitMoney amount)
  if previousBuyerId ≠ 0 then players.modifyPlayer previousBuyerId (creditMoney previousCost) else players

end LivePlayers

section Apply

variable {R : Type}

open LivePlayers

def menuEffect (request : ClanCommandRequest) (playerClanId : Option Int32) (action : ClanMenuAction) :
    List (SaveCommand R) :=
  [.clanMenu ⟨request.playerId, request.sessionId, playerClanId, action, []⟩]

def applyClanCommandCompletion (players : LivePlayers) (request : ClanCommandRequest) :
    ClanCommandResult → LivePlayers × List (SaveCommand R)
  | .created clanId =>
    (players.modifyPlayer request.playerId
      (fun p => { p with clanId := some clanId, clanRank := clanRankLeader }), [])
  | .left clanId disbanded =>
    if disbanded then (fun id => (players id).map (clearClan clanId), [])
    else (players.modifyPlayer request.playerId (clearClan clanId), [])
  | .kicked clanId targetId => (players.modifyPlayer targetId (clearClan clanId), [])
  | .joined clanId => (players.modifyPlayer request.playerId (joinClan clanId), [])
  | .inviteDeclined => (players, menuEffect request none .invites)
  | .requestAccepted clanId targetId =>
    (players.modifyPlayer targetId (joinClan clanId), menuEffect request (some clanId) .requests)
  | .requestDeclined =>
    (players, menuEffect request ((players request.playerId).bind LivePlayer.clanId) .requests)
  | .promoted clanId targetId =>
    (players.modifyPlayer targetId (fun p =>
      if p.clanId = some clanId then { p with clanRank := clanRankOfficer, dirty := true } else p),
     menuEffect request (some clanId) .members)
  | .invited _ => (players, [])
  | .requestSent => (players, [])
  | .rejected =>
    (if request.createReserved then players.modifyPlayer request.playerId refundClanCreate else players, [])
  | .permanentFailure =>
    (if request.createReserved then players.modifyPlayer request.playerId refundClanCreate else players, [])

/-- What a completion does to the players, and the saves that it returns. -/
def applyPersistenceCompletion (players : LivePlayers) :
    PersistenceCompletion → LivePlayers × List (SaveCommand R)
  | .auctionOrderCreated request created =>
    (if created then players else players.modifyPlayer request.playerId (creditItem request.itemId request.num), [])
  | .auctionBetCompleted request (.won amount previousBuyerId previousCost _) =>
    (players.applyAuctionBetWon request.playerId amount previousBuyerId previousCost, [])
  | .auctionBetCompleted _ .permanentFailure => (players, [])
  | .auctionBetCompleted request _ =>
    (players,
     [.auctionOrder ⟨request.playerId, request.sessionId, request.buildingX, request.buildingY, request.orderId⟩])
  | .adminMoneyAllApplied amount applied =>
    (if applied then fun id => (players id).map (creditMoney amount) else players, [])
  | .adminRoleApplied role target =>
    (match target with
     | some id => players.modifyPlayer id (fun p => { p with role })
     | none => players, [])
  | .clanCommandApplied request result => applyClanCommandCompletion players request result
  | .reply _ => (players, [])

/-- The completions that ask for a save. -/
def PersistenceCompletion.asksSave : PersistenceCompletion → Bool
  | .auctionBetCompleted _ .lostRace => true
  | .auctionBetCompleted _ .rejected => true
  | .auctionBetCompleted _ .notFound => true
  | .clanCommandApplied _ .inviteDeclined => true
  | .clanCommandApplied _ (.requestAccepted ..) => true
  | .clanCommandApplied _ .requestDeclined => true
  | .clanCommandApplied _ (.promoted ..) => true
  | _ => false

theorem saves_eq_nil_iff (players : LivePlayers) (c : PersistenceCompletion) :
    (applyPersistenceCompletion (R := R) players c).2 = [] ↔ c.asksSave = false := by
  cases c with
  | auctionBetCompleted request result =>
      cases result <;> simp [applyPersistenceCompletion, PersistenceCompletion.asksSave]
  | clanCommandApplied request result =>
      cases result with
      | left clanId disbanded =>
          cases disbanded <;>
            simp [applyPersistenceCompletion, applyClanCommandCompletion, PersistenceCompletion.asksSave]
      | _ =>
          simp [applyPersistenceCompletion, applyClanCommandCompletion, menuEffect,
            PersistenceCompletion.asksSave]
  | _ => simp [applyPersistenceCompletion, PersistenceCompletion.asksSave]

end Apply

end OpenMines

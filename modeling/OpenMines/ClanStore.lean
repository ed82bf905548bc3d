import Mathlib.Data.Finset.Basic
import Mathlib.Data.Finset.Filter
import Mathlib.Data.List.Nodup
import OpenMines.Completion
import OpenMines.Lib.Text

namespace OpenMines

open Lib.Text

inductive ClanAction
  | create (name tag : String)
  | leave
  | kick (target : String)
  | acceptInvite (clanId : Int32)
  | declineInvite (clanId : Int32)
  | acceptRequest (targetId : PlayerId)
  | declineRequest (targetId : PlayerId)
  | promote (targetId : PlayerId)
  | kickById (targetId : PlayerId)
  | invite (targetId : PlayerId)
  | request (clanId : Int32)
  | invalid (message : String)

/-- What the table of players holds of a clan member. -/
structure MemberRow where
  id : PlayerId
  name : String
  clanId : Option Int32
  clanRank : Int32
  deriving DecidableEq

structure ClanRow where
  id : Int32
  name : String
  abr : String
  ownerId : PlayerId
  deriving DecidableEq

/-- `ClanRank::from_db`: a number that is no rank counts as none. -/
def clanRankFromDb (v : Int32) : Int32 :=
  if v = clanRankLeader ∨ v = clanRankOfficer ∨ v = clanRankMember then v else clanRankNone

/-- The tables of the players and the clans, by their primary keys and unique pairs. -/
structure ClanStore where
  players : List MemberRow
  clans : List ClanRow
  requests : Finset (Int32 × PlayerId)
  invites : Finset (Int32 × PlayerId)
  playerIds : (players.map MemberRow.id).Pairwise (· < ·)
  clanIds : (clans.map ClanRow.id).Nodup

def MemberRow.inClan (r : MemberRow) (p : PlayerId) (clanId : Option Int32) (clanRank : Int32) : MemberRow :=
  if r.id = p then { r with clanId, clanRank } else r

theorem id_inClan (r : MemberRow) (p : PlayerId) (clanId : Option Int32) (clanRank : Int32) :
    (r.inClan p clanId clanRank).id = r.id := by
  rw [MemberRow.inClan]
  split <;> rfl

namespace ClanStore

theorem playerIds_inClan {players : List MemberRow} (h : (players.map MemberRow.id).Pairwise (· < ·)) (p : PlayerId)
    (clanId : Option Int32) (clanRank : Int32) :
    ((players.map (fun r => r.inClan p clanId clanRank)).map MemberRow.id).Pairwise (· < ·) := by
  have hids : (players.map (fun r => r.inClan p clanId clanRank)).map MemberRow.id = players.map MemberRow.id := by
    rw [List.map_map]
    exact List.map_congr_left fun r _ => id_inClan r p clanId clanRank
  rwa [hids]

theorem clanIds_append {clans : List ClanRow} {row : ClanRow} (h : (clans.map ClanRow.id).Nodup)
    (hnew : row.id ∉ clans.map ClanRow.id) : ((clans ++ [row]).map ClanRow.id).Nodup := by
  rw [List.map_append, List.nodup_append]
  refine ⟨h, List.nodup_singleton _, fun a ha b hb => ?_⟩
  obtain rfl := List.mem_singleton.mp hb
  rintro rfl
  exact hnew ha

variable (s : ClanStore)

def row (p : PlayerId) : Option MemberRow := s.players.find? (fun r => r.id = p)

def setMember (p : PlayerId) (clanId : Option Int32) (clanRank : Int32) : ClanStore :=
  { s with
    players := s.players.map (fun r => r.inClan p clanId clanRank)
    playerIds := playerIds_inClan s.playerIds p clanId clanRank }

/-- `trim` and `lower` of the database: blanks and the letters of ASCII only. -/
def sqlKey (name : String) : List Char :=
  (((name.toList.dropWhile (· = ' ')).reverse.dropWhile (· = ' ')).reverse).map Char.toLower

def getPlayerByName (name : String) : Option MemberRow :=
  if trim name = "" then none
  else s.players.find? (fun r => sqlKey r.name = (trim name).toList.map Char.toLower)

/-- A free id of the pool, or none when all are taken. -/
def pickClanId (draw : Nat) : Option Int32 :=
  let free := ((List.range 218).map (fun i => Int32.ofNat (i + 1))).filter (· ∉ s.clans.map ClanRow.id)
  if 218 ≤ s.clans.length then none else free[draw % free.length]?

def createClan (row : ClanRow) : Option ClanStore :=
  if h : row.id ∈ s.clans.map ClanRow.id then none
  else if (s.row row.ownerId).isNone then none
  else some ({ s with clans := s.clans ++ [row], clanIds := clanIds_append s.clanIds h }.setMember row.ownerId
    (some row.id) clanRankLeader)

def addClanRequest (clanId : Int32) (p : PlayerId) : Option ClanStore :=
  if (clanId, p) ∈ s.requests then none else some { s with requests := insert (clanId, p) s.requests }

def acceptClanRequest (clanId : Int32) (p : PlayerId) : Option ClanStore :=
  if (s.row p).any (fun r => r.clanId = none) ∧ (clanId, p) ∈ s.requests then
    some { s.setMember p (some clanId) clanRankMember with
      requests := s.requests.erase (clanId, p)
      invites := s.invites.filter (fun e => e.2 ≠ p) }
  else none

def declineClanRequest (clanId : Int32) (p : PlayerId) : Option ClanStore :=
  if (clanId, p) ∈ s.requests then some { s with requests := s.requests.erase (clanId, p) } else none

def addClanInvite (clanId : Int32) (p : PlayerId) : Option ClanStore :=
  if (clanId, p) ∈ s.invites then none else some { s with invites := insert (clanId, p) s.invites }

def acceptClanInvite (clanId : Int32) (p : PlayerId) : Option ClanStore :=
  if (s.row p).any (fun r => r.clanId = none) ∧ (clanId, p) ∈ s.invites then
    some { s.setMember p (some clanId) clanRankMember with
      requests := s.requests.filter (fun e => e.2 ≠ p)
      invites := s.invites.erase (clanId, p) }
  else none

def declineClanInvite (clanId : Int32) (p : PlayerId) : Option ClanStore :=
  if (clanId, p) ∈ s.invites then some { s with invites := s.invites.erase (clanId, p) } else none

def setClanRank (p : PlayerId) (clanId : Int32) (rank : Int32) : Option ClanStore :=
  if (s.row p).any (fun r => r.clanId = some clanId) then some (s.setMember p (some clanId) rank) else none

def leaveClan (p : PlayerId) : Option ClanStore :=
  if (s.row p).isSome then some (s.setMember p none clanRankNone) else none

def kickFromClan (p : PlayerId) : Option ClanStore := s.leaveClan p

end ClanStore

/-- How the queries of a command end, and the number that the id of a new clan is drawn with. -/
structure ClanIo where
  lookupOk : Bool
  ok : Bool
  draw : Nat

namespace ClanStore

variable (s : ClanStore)

/-- A failed query changes nothing. -/
def attempt (io : ClanIo) (changed : Option ClanStore) (result : ClanCommandResult) : ClanStore × ClanCommandResult :=
  match changed with
  | some t => if io.ok then (t, result) else (s, .permanentFailure)
  | none => (s, .permanentFailure)

/-- `clan_command`; for four of the actions the id of the player stands where that of a clan is meant. -/
def clanCommand (request : ClanCommandRequest) (io : ClanIo) : ClanAction → ClanStore × ClanCommandResult
  | .create name tag =>
    match (if io.lookupOk then s.pickClanId io.draw else none) with
    | none => (s, .permanentFailure)
    | some clanId => s.attempt io (s.createClan ⟨clanId, name, tag, request.playerId⟩) (.created clanId)
  | .leave => s.attempt io (s.leaveClan request.playerId) (.left 0 false)
  | .kick target =>
    match (if io.lookupOk then s.getPlayerByName target else none) with
    | none => (s, .kicked 0 0)
    | some r => s.attempt io (s.kickFromClan r.id) (.kicked 0 r.id)
  | .kickById targetId => s.attempt io (s.kickFromClan targetId) (.kicked 0 targetId)
  | .acceptInvite clanId => s.attempt io (s.acceptClanInvite clanId request.playerId) (.joined clanId)
  | .declineInvite clanId => s.attempt io (s.declineClanInvite clanId request.playerId) .inviteDeclined
  | .acceptRequest targetId =>
    s.attempt io (s.acceptClanRequest request.playerId targetId) (.requestAccepted request.playerId targetId)
  | .declineRequest targetId => s.attempt io (s.declineClanRequest request.playerId targetId) .requestDeclined
  | .promote targetId =>
    s.attempt io (s.setClanRank targetId request.playerId clanRankOfficer) (.promoted request.playerId targetId)
  | .invite targetId => s.attempt io (s.addClanInvite request.playerId targetId) (.invited targetId)
  | .request clanId => s.attempt io (s.addClanRequest clanId request.playerId) .requestSent
  | .invalid _ => (s, .rejected)

variable {s} {t : ClanStore} {p q : PlayerId}

theorem row_setMember (s : ClanStore) (p q : PlayerId) (clanId : Option Int32) (clanRank : Int32) :
    (s.setMember p clanId clanRank).row q = (s.row q).map (fun r => r.inClan p clanId clanRank) := by
  have hkey : ((fun r : MemberRow => decide (r.id = q)) ∘ fun r : MemberRow => r.inClan p clanId clanRank) =
      fun r : MemberRow => decide (r.id = q) := by
    funext r
    rw [Function.comp_apply, id_inClan]
  rw [row, setMember, List.find?_map, hkey]
  rfl

theorem row_id {r : MemberRow} (h : s.row p = some r) : r.id = p := by
  have hid := List.find?_some h
  exact of_decide_eq_true hid

/-- An id belongs to one row. -/
theorem row_of_mem {r : MemberRow} (h : r ∈ s.players) : s.row r.id = some r := by
  have hids := s.playerIds
  rw [List.pairwise_map] at hids
  rw [row]
  generalize s.players = players at h hids
  induction players with
  | nil => cases h
  | cons r' rest ih =>
      rw [List.pairwise_cons] at hids
      rcases List.mem_cons.mp h with rfl | hrest
      · exact List.find?_cons_of_pos (decide_eq_true rfl)
      · have hne : r'.id ≠ r.id := (Int32.ne_of_lt (hids.1 r hrest))
        rw [List.find?_cons_of_neg (by simpa using hne)]
        exact ih hrest hids.2

theorem getPlayerByName_mem {name : String} {r : MemberRow} (h : s.getPlayerByName name = some r) : r ∈ s.players := by
  rw [getPlayerByName] at h
  split at h
  · cases h
  · exact List.mem_of_find?_eq_some h

end ClanStore

end OpenMines

import OpenMines.Lib.Run
import OpenMines.PersistenceStore
import OpenMines.SessionAuth
import OpenMines.SkillSlots

namespace OpenMines

open Lib.Text Persistence

/-- `create_player`; the rest of the row are the defaults of the table. -/
def newPlayer (id : PlayerId) (name passwd hash : String) : PlayerRow where
  id
  name
  passwd
  hash
  x := 10
  y := 10
  dir := 0
  health := 100
  maxHealth := 100
  money := 1000
  creds := 0
  skin := 0
  autoDig := false
  aggression := false
  crystals := Vector.replicate 6 0
  clanId := none
  respX := none
  respY := none
  inventory := []
  skills := defaultSkills
  role := 0
  selectedProgramId := none
  selectedProgram := none
  programmatorRunning := false
  programmatorSnapshot := none
  clanRank := 0
  lastBonusAt := 0

/-- A button of a window, with what the database has answered for it. -/
structure Asked where
  button : String
  byName : Option PlayerRow
  exist : Bool

/-- The accounts, the sessions that log in, and the rows that the game was given. -/
structure Accounts where
  db : Database
  lastPlayer : Nat
  auth : SessionId → AuthState
  asked : SessionId → Option Asked
  held : List PlayerRow
  /-- The password of each account, in its owner's head. -/
  secret : PlayerId → String

inductive AccountEvent
  | token (session : SessionId) (au : AuAuthType) (sid : String) (fault : Bool)
  | ask (session : SessionId) (button : String)
  | answer (session : SessionId) (hash : String) (readFault writeFault : Bool)
  | save (row : PlayerRow)
  | change (db : Database)
  | leave (session : SessionId)

/-- The columns that only this flow and the saves of players write. -/
structure Account where
  id : PlayerId
  name : String
  passwd : String
  hash : String
  deriving DecidableEq

def PlayerRow.account (row : PlayerRow) : Account := ⟨row.id, row.name, row.passwd, row.hash⟩

namespace Accounts

variable (cfg : AuthConfig) (s : Accounts)

def start (db : Database) (lastPlayer : Nat) (secret : PlayerId → String) : Accounts :=
  ⟨db, lastPlayer, fun _ => .preAuth, fun _ => none, [], secret⟩

def accounts : List Account := s.db.players.map PlayerRow.account

def getPlayerByName (name : String) : Option PlayerRow :=
  if trim name = "" then none
  else s.db.players.find? fun r => ClanStore.sqlKey r.name = (trim name).toList.map Char.toLower

def playerNameExists (name : String) : Bool :=
  trim name ≠ "" ∧ s.db.players.any fun r => ClanStore.sqlKey r.name = (trim name).toList.map Char.toLower

/-- The row that is inserted, unless the name is empty or taken. -/
def createPlayer (name passwd hash : String) : Option PlayerRow :=
  if trim name = "" ∨ trim name ∈ s.db.players.map PlayerRow.name ∨ 2147483647 ≤ s.lastPlayer then none
  else some (newPlayer (Int32.ofNat (s.lastPlayer + 1)) (trim name) passwd hash)

/-- The name that the database is asked for. -/
def askedName (button : String) : GuiAuthStep → String
  | .mainMenu => (stripPrefix button "nick:").getD ""
  | .loginPassword nick => nick
  | .registerNick => (stripPrefix button "newnick:").getD ""
  | .registerPassword _ => ""

def givenPasswd (button : String) : String := (stripPrefix button "passwd:").getD ""

/-- The answers for a button: what was read before, and what a write says now. -/
def answers (a : Asked) (step : GuiAuthStep) (hash : String) (readFault writeFault : Bool) : DbAnswers where
  getPlayerById := .error ()
  getPlayerByName := if readFault then .error () else .ok a.byName
  playerNameExists := if readFault then .error () else .ok a.exist
  createPlayer :=
    match step with
    | .registerPassword nick =>
      match s.createPlayer nick (hashPassword cfg (givenPasswd a.button) hash) hash with
      | some row => if writeFault then .error () else .ok row
      | none => .error ()
    | _ => .error ()
  updatePlayerPasswd :=
    match a.byName with
    | some row => if writeFault ∨ row.id ∉ s.db.playerIds then .error () else .ok ()
    | none => .error ()
  setPlayerRole := .error ()

def setPasswd (id : PlayerId) (passwd : String) : Database :=
  { s.db with players := s.db.players.map fun r => if r.id = id then { r with passwd } else r }

/-- What a login of the flow has written: a new account, or the digest of an old password. -/
def login (step : GuiAuthStep) (passwd : String) (row : PlayerRow) : Accounts :=
  match step with
  | .registerPassword _ =>
    { s with
      db := { s.db with players := s.db.players ++ [row] }
      lastPlayer := s.lastPlayer + 1
      secret := Function.update s.secret row.id passwd }
  | _ =>
    if startsWith row.passwd shaPrefix then s
    else { s with db := s.setPasswd row.id (hashPassword cfg passwd row.hash) }

def setAuth (session : SessionId) (auth : AuthState) : Accounts :=
  { s with auth := Function.update s.auth session auth, asked := Function.update s.asked session none }

/-- The session is over, and its number free. -/
def leave (session : SessionId) : Accounts := s.setAuth session .preAuth

def hold (row : PlayerRow) : Accounts := { s with held := row :: s.held }

def askedId : AuAuthType → PlayerId
  | .regular userId _ => userId
  | .noAuth => 0

def tokenAnswers (au : AuAuthType) (fault : Bool) : DbAnswers where
  getPlayerById := if fault then .error () else .ok (s.db.players.find? fun r => r.id = askedId au)
  getPlayerByName := .error ()
  playerNameExists := .error ()
  createPlayer := .error ()
  updatePlayerPasswd := .error ()
  setPlayerRole := .ok true

def step : AccountEvent → Option Accounts
  | .token session au sid fault =>
    match s.auth session with
    | .preAuth =>
      match handleAuth cfg (s.tokenAnswers au fault) au sid with
      | .go auth => some (s.setAuth session auth)
      | .login row =>
        some (({ s with db := s.db.setRole row.id row.role }.hold row).setAuth session (.authenticated row.id))
      | .failed => some (s.leave session)
    | _ => none
  | .ask session button =>
    match s.auth session, s.asked session with
    | .guiAuth step, none =>
      let name := askedName button step
      some { s with
        asked := Function.update s.asked session (some ⟨button, s.getPlayerByName name, s.playerNameExists name⟩) }
    | _, _ => none
  | .answer session hash readFault writeFault =>
    match s.auth session, s.asked session with
    | .guiAuth step, some a =>
      match handleGuiAuthFlow cfg (answers cfg s a step hash readFault writeFault) a.button step with
      | .go auth => some (s.setAuth session auth)
      | .login row =>
        some (((login cfg s step (givenPasswd a.button) row).hold row).setAuth session (.authenticated row.id))
      | .failed => some (s.leave session)
    | _, _ => none
  | .save row =>
    if row.id ∈ s.db.playerIds ∧ s.held.any fun h => h.id = row.id ∧ h.passwd = row.passwd then
      some { s with db := s.db.setPlayer row }
    else none
  | .change db => if db.players.map PlayerRow.account = s.accounts then some { s with db } else none
  | .leave session => some (s.leave session)

end Accounts

end OpenMines

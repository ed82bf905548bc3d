import OpenMines.Lib.Text
import OpenMines.PlayerRow

namespace OpenMines

open Lib.Text

inductive GuiAuthStep
  | mainMenu
  | loginPassword (nick : String)
  | registerNick
  | registerPassword (nick : String)
  deriving DecidableEq

inductive AuthState
  | preAuth
  | guiAuth (step : GuiAuthStep)
  | authenticated (player : PlayerId)
  deriving DecidableEq

def AuthState.playerId : AuthState → Option PlayerId
  | .authenticated player => some player
  | .preAuth | .guiAuth _ => none

inductive AuAuthType
  | regular (userId : PlayerId) (token : String)
  | noAuth
  deriving DecidableEq

/-- What the database answers to the queries that one packet can lead to. -/
structure DbAnswers where
  getPlayerById : Except Unit (Option PlayerRow)
  getPlayerByName : Except Unit (Option PlayerRow)
  playerNameExists : Except Unit Bool
  createPlayer : Except Unit PlayerRow
  updatePlayerPasswd : Except Unit Unit
  setPlayerRole : Except Unit Bool

/-- The hashes that logins are checked with, and the names that are to be admins. -/
structure AuthConfig where
  sha256Hex : String → String
  tokenMatchesLegacyAuth : String → String → String → Bool
  grantAdmin : Option String

/-- What an authentication step leads to: the state it goes on in, a player whom
`init_player` is called for, or an error that ends the connection. -/
inductive AuthOutcome
  | go (state : AuthState)
  | login (row : PlayerRow)
  | failed
  deriving DecidableEq

def shaPrefix : String := "sha256:"

def hashPassword (cfg : AuthConfig) (passwd userHash : String) : String :=
  shaPrefix ++ cfg.sha256Hex (userHash ++ ":" ++ passwd)

def verifyPassword (cfg : AuthConfig) (passwd stored userHash : String) : Bool :=
  match stripPrefix stored shaPrefix with
  | none => stored == passwd
  | some hex => (stripPrefix (hashPassword cfg passwd userHash) shaPrefix).getD "" == hex

def roleAdmin : Int32 := 2

def grantAdminOnLogin (cfg : AuthConfig) (db : DbAnswers) (player : PlayerRow) : PlayerRow :=
  match cfg.grantAdmin with
  | none => player
  | some raw =>
    if ((splitOn raw ',').map trim).any (· == player.name) ∧ db.setPlayerRole = .ok true then
      { player with role := roleAdmin }
    else player

def handleAuth (cfg : AuthConfig) (db : DbAnswers) (au : AuAuthType) (sid : String) : AuthOutcome :=
  match au with
  | .noAuth => .go (.guiAuth .mainMenu)
  | .regular _ token =>
    match db.getPlayerById with
    | .ok (some player) =>
      if cfg.tokenMatchesLegacyAuth token player.hash sid then .login (grantAdminOnLogin cfg db player)
      else .go (.guiAuth .mainMenu)
    | _ => .go (.guiAuth .mainMenu)

def handleFindByNick (db : DbAnswers) (name : String) : AuthOutcome :=
  if name = "" then .go (.guiAuth .mainMenu)
  else
    match db.getPlayerByName with
    | .error _ => .failed
    | .ok (some player) => .go (.guiAuth (.loginPassword player.name))
    | .ok none => .go (.guiAuth .mainMenu)

def handleMainMenu (db : DbAnswers) (button : String) : AuthOutcome :=
  if button = "newakk" then .go (.guiAuth .registerNick)
  else
    match stripPrefix button "nick:" with
    | some name => handleFindByNick db (trim name)
    | none => .go (.guiAuth .mainMenu)

def handleLoginPassword (cfg : AuthConfig) (db : DbAnswers) (button nick : String) : AuthOutcome :=
  match stripPrefix button "passwd:" with
  | none => .go (.guiAuth (.loginPassword nick))
  | some passwd =>
    match db.getPlayerByName with
    | .error _ => .failed
    | .ok none => .go (.guiAuth .mainMenu)
    | .ok (some player) =>
      if verifyPassword cfg passwd player.passwd player.hash then
        if startsWith player.passwd shaPrefix then .login player
        else
          match db.updatePlayerPasswd with
          | .error _ => .failed
          | .ok _ => .login player
      else .go (.guiAuth (.loginPassword nick))

def handleRegisterNick (db : DbAnswers) (button : String) : AuthOutcome :=
  match stripPrefix button "newnick:" with
  | none => .go (.guiAuth .registerNick)
  | some nick =>
    if trim nick = "" then .go (.guiAuth .registerNick)
    else
      match db.playerNameExists with
      | .error _ => .failed
      | .ok true => .go (.guiAuth .registerNick)
      | .ok false => .go (.guiAuth (.registerPassword (trim nick)))

def handleRegisterPassword (db : DbAnswers) (button nick : String) : AuthOutcome :=
  match stripPrefix button "passwd:" with
  | none => .go (.guiAuth (.registerPassword nick))
  | some passwd =>
    if passwd = "" then .go (.guiAuth (.registerPassword nick))
    else
      match db.createPlayer with
      | .error _ => .failed
      | .ok player => .login player

def handleGuiAuthFlow (cfg : AuthConfig) (db : DbAnswers) (button : String) (step : GuiAuthStep) :
    AuthOutcome :=
  if startsWith button "exit" then .go (.guiAuth .mainMenu)
  else
    match step with
    | .mainMenu => handleMainMenu db button
    | .loginPassword nick => handleLoginPassword cfg db button nick
    | .registerNick => handleRegisterNick db button
    | .registerPassword nick => handleRegisterPassword db button nick

/-- A button that makes the flow ask the database, and an error for an answer. -/
def DbErrorIn (cfg : AuthConfig) (db : DbAnswers) (button : String) : GuiAuthStep → Prop
  | .mainMenu => button ≠ "newakk" ∧
      ∃ name, stripPrefix button "nick:" = some name ∧ trim name ≠ "" ∧ db.getPlayerByName = .error ()
  | .loginPassword _ => ∃ passwd, stripPrefix button "passwd:" = some passwd ∧
      (db.getPlayerByName = .error () ∨
        ∃ player, db.getPlayerByName = .ok (some player) ∧
          verifyPassword cfg passwd player.passwd player.hash = true ∧
          startsWith player.passwd shaPrefix = false ∧ db.updatePlayerPasswd = .error ())
  | .registerNick => ∃ nick, stripPrefix button "newnick:" = some nick ∧ trim nick ≠ "" ∧
      db.playerNameExists = .error ()
  | .registerPassword _ => ∃ passwd, stripPrefix button "passwd:" = some passwd ∧ passwd ≠ "" ∧
      db.createPlayer = .error ()

theorem handleAuth_ne_failed (cfg : AuthConfig) (db : DbAnswers) (au : AuAuthType) (sid : String) :
    handleAuth cfg db au sid ≠ .failed := by
  unfold handleAuth
  split
  · simp
  · split
    · split <;> simp
    · simp

theorem handleMainMenu_eq_failed {cfg : AuthConfig} {db : DbAnswers} {button : String} :
    handleMainMenu db button = .failed ↔ DbErrorIn cfg db button .mainMenu := by
  unfold handleMainMenu DbErrorIn
  by_cases hnew : button = "newakk"
  · simp [hnew]
  · cases hname : stripPrefix button "nick:" with
    | none => simp [hnew]
    | some name =>
        by_cases hempty : trim name = ""
        · simp [hnew, handleFindByNick, hempty]
        · cases hdb : db.getPlayerByName with
          | error e => simp [hnew, handleFindByNick, hempty, hdb]
          | ok player => cases player <;> simp [hnew, handleFindByNick, hempty, hdb]

theorem handleLoginPassword_eq_failed {cfg : AuthConfig} {db : DbAnswers} {button nick : String} :
    handleLoginPassword cfg db button nick = .failed ↔ DbErrorIn cfg db button (.loginPassword nick) := by
  unfold handleLoginPassword DbErrorIn
  cases hpasswd : stripPrefix button "passwd:" with
  | none => simp
  | some passwd =>
      cases hdb : db.getPlayerByName with
      | error e => simp
      | ok player =>
          cases player with
          | none => simp
          | some player =>
              by_cases hverify : verifyPassword cfg passwd player.passwd player.hash = true
              · by_cases hsha : startsWith player.passwd shaPrefix = true
                · simp [hverify, hsha]
                · cases hup : db.updatePlayerPasswd <;> simp [hverify, hsha]
              · simp [hverify]

theorem handleRegisterNick_eq_failed {cfg : AuthConfig} {db : DbAnswers} {button : String} :
    handleRegisterNick db button = .failed ↔ DbErrorIn cfg db button .registerNick := by
  unfold handleRegisterNick DbErrorIn
  cases hnick : stripPrefix button "newnick:" with
  | none => simp
  | some nick =>
      by_cases hempty : trim nick = ""
      · simp [hempty]
      · cases hdb : db.playerNameExists with
        | error e => simp [hempty]
        | ok found => cases found <;> simp [hempty]

theorem handleRegisterPassword_eq_failed {cfg : AuthConfig} {db : DbAnswers} {button nick : String} :
    handleRegisterPassword db button nick = .failed ↔ DbErrorIn cfg db button (.registerPassword nick) := by
  unfold handleRegisterPassword DbErrorIn
  cases hpasswd : stripPrefix button "passwd:" with
  | none => simp
  | some passwd =>
      by_cases hempty : passwd = ""
      · simp [hempty]
      · cases hdb : db.createPlayer <;> simp [hempty]

/-- The flow ends the connection just for an error of the database. -/
theorem handleGuiAuthFlow_eq_failed {cfg : AuthConfig} {db : DbAnswers} {button : String}
    {step : GuiAuthStep} : handleGuiAuthFlow cfg db button step = .failed ↔
      startsWith button "exit" = false ∧ DbErrorIn cfg db button step := by
  unfold handleGuiAuthFlow
  by_cases hexit : startsWith button "exit" = true
  · simp [hexit]
  · simp only [hexit, Bool.false_eq_true, if_false, true_and]
    cases step with
    | mainMenu => exact handleMainMenu_eq_failed
    | loginPassword nick => exact handleLoginPassword_eq_failed
    | registerNick => exact handleRegisterNick_eq_failed
    | registerPassword nick => exact handleRegisterPassword_eq_failed

theorem playerId_of_handleAuth {cfg : AuthConfig} {db : DbAnswers} {au : AuAuthType} {sid : String}
    {auth : AuthState} (h : handleAuth cfg db au sid = .go auth) : auth.playerId = none := by
  unfold handleAuth at h
  split at h
  · cases h
    rfl
  · split at h
    · split at h
      · cases h
      · cases h
        rfl
    · cases h
      rfl

/-- A step of the flow that does not log in stays in the flow. -/
theorem playerId_of_handleGuiAuthFlow {cfg : AuthConfig} {db : DbAnswers} {button : String}
    {step : GuiAuthStep} {auth : AuthState} (h : handleGuiAuthFlow cfg db button step = .go auth) :
    auth.playerId = none := by
  suffices hgui : ∃ next, auth = .guiAuth next by
    obtain ⟨next, rfl⟩ := hgui
    rfl
  unfold handleGuiAuthFlow at h
  split at h
  · exact ⟨_, (AuthOutcome.go.inj h).symm⟩
  · cases step with
    | mainMenu =>
        simp only [handleMainMenu, handleFindByNick] at h
        repeat' split at h
        all_goals first | exact ⟨_, (AuthOutcome.go.inj h).symm⟩ | cases h
    | loginPassword nick =>
        simp only [handleLoginPassword] at h
        repeat' split at h
        all_goals first | exact ⟨_, (AuthOutcome.go.inj h).symm⟩ | cases h
    | registerNick =>
        simp only [handleRegisterNick] at h
        repeat' split at h
        all_goals first | exact ⟨_, (AuthOutcome.go.inj h).symm⟩ | cases h
    | registerPassword nick =>
        simp only [handleRegisterPassword] at h
        repeat' split at h
        all_goals first | exact ⟨_, (AuthOutcome.go.inj h).symm⟩ | cases h

end OpenMines

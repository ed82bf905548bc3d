import OpenMines.PlayerCommands

namespace OpenMines

open Lib.Text Lib.Utf8

structure CommandStats where
  money : Int
  creds : Int
  crystals : Crystals
  clanId : Option Int32
  role : Int32
  lastBonusAt : Int

structure CommandUi where
  currentWindow : Option String
  currentChat : String

/-- The components of a player that his commands look for. -/
structure CommandPlayer where
  position : Option WorldPos
  stats : Option CommandStats
  /-- the id and the name -/
  metadata : Option (PlayerId × String)
  inventory : Option (Int32 → Int32)
  skills : Option SkillSlots
  settings : Bool
  ui : Option CommandUi
  flags : Bool

/-- `extract_player_row` finds all that it needs. -/
def CommandPlayer.hasRow (p : CommandPlayer) : Bool :=
  p.position.isSome && p.stats.isSome && p.metadata.isSome && p.inventory.isSome && p.skills.isSome && p.settings

structure CommandBuilding where
  /-- metadata, position, ownership and stats -/
  view : Option PackView
  storage : Option BuildingStorage
  crafting : Bool
  flags : Bool
  deletePending : Bool

/-- `extract_building_row` finds all that it needs. -/
def CommandBuilding.hasRow (b : CommandBuilding) : Bool := b.view.isSome && b.storage.isSome && b.crafting

/-- What the handlers of the commands read of the game. -/
structure CommandState where
  cells : BuildingCells
  sessions : PlayerId → Option SessionId
  activePlayers : List (PlayerId × SessionId)
  outboxes : SessionId → Bool
  checkGuiRate : PlayerId → Bool
  checkChatRate : PlayerId → Bool
  players : PlayerId → Option CommandPlayer
  buildings : WorldPos → Option CommandBuilding
  chatChannels : List String
  now : Int
  bonusCooldownSecs : Int
  /-- the deletion of the building is admitted -/
  admitsDelete : RemovePack → Bool
  /-- the skill exists and finds a slot -/
  adminSkillSet : PlayerId → SkillCommand → Bool
  /-- the button changes the skills of the player -/
  skillsChange : PlayerId → String → Bool

/-- The save of a handler that comes to its end. -/
def saveIf (kind : SaveKind) (done : Bool) : List SaveKind := if done then [kind] else []

def clanMutationActionForButton (button : String) : Option ClanAction :=
  if button = "clan_leave" then some .leave
  else
    (splitOnce button ':').bind fun parts => (parseI32 parts.2).bind fun clanId =>
      match parts.1 with
      | "clan_invite_accept" => some (.acceptInvite clanId)
      | "clan_invite_decline" => some (.declineInvite clanId)
      | "clan_accept" => some (.acceptRequest clanId)
      | "clan_decline" => some (.declineRequest clanId)
      | "clan_promote" => some (.promote clanId)
      | "clan_kick_id" => some (.kickById clanId)
      | "clan_invite_send" => some (.invite clanId)
      | "clan_request" => some (.request clanId)
      | _ => none

def clanMenuActionForButton (button : String) : Option ClanMenuAction :=
  match button with
  | "clan_menu" | "clan_back" => some .main
  | "clan_members" => some .members
  | "clan_invite_list" => some .inviteList
  | "clan_invites_view" => some .invites
  | "clan_requests" => some .requests
  | _ => ((stripPrefix button "clan_view:").bind parseI32).map .preview

def parsePrivateTag (tag : String) : Option (Int32 × Int32) :=
  (stripPrefix tag "_").bind fun rest => parsePair (splitOn rest '_')

/-- The position in the arguments of a crafter's button. -/
def craftCoordinates (args : String) : Option WorldPos :=
  match splitOn args ':' with
  | _ :: _ :: x :: y :: _ => parsePair [x, y]
  | x :: y :: _ => parsePair [x, y]
  | _ => none

def parseProgramRenameButton (button : String) : Option (Int32 × String) :=
  (stripPrefix button "rename:").bind fun rest => (splitOnce rest ':').bind fun parts =>
    (parseI32 parts.1).map fun id => (id, parts.2)

/-! ### The fields of the settings of a building -/

/-- The pairs of a text, without the empty ones. -/
def richPairs (data : String) : List String := (splitOn data '#').filter (· ≠ "")

def parseRichKeyValues (data : String) : Option (List (String × String)) :=
  (richPairs data).mapM fun pair => (splitOnce pair ':').filter fun field => field.1 ≠ "" ∧ field.2 ≠ ""

def parseRichBool (value : String) : Option Bool :=
  match value with
  | "1" | "true" => some true
  | "0" | "false" => some false
  | _ => none

/-- The value that a key was given last. -/
def richField (fields : List (String × String)) (key : String) : Option String := fields.reverse.lookup key

def parseCost (value : String) : Option Int32 := (parseI32 value).filter fun cost => 0 ≤ cost ∧ cost ≤ 5000

structure RespSaveFields where
  cost : Option Int32
  clanzone : Option Int32
  clanEnabled : Option Bool

def RespSaveFields.read (fields : RespSaveFields) (pair : String) : Option RespSaveFields :=
  (splitOnce pair ':').bind fun (key, value) =>
    if key = "" then some fields
    else if value = "" then none
    else
      match key with
      | "cost" => (parseCost value).map fun cost => { fields with cost := some cost }
      | "clanzone" => (parseI32 value).map fun clanzone => { fields with clanzone := some clanzone }
      | "clan" => (parseRichBool value).map fun clan => { fields with clanEnabled := some clan }
      | _ => none

def parseRespSaveFields (data : String) : Option RespSaveFields :=
  ((richPairs data).foldlM RespSaveFields.read ⟨none, none, none⟩).filter fun fields =>
    fields.cost.isSome || fields.clanzone.isSome || fields.clanEnabled.isSome

namespace CommandState

variable (s : CommandState) (player : PlayerId) (session : SessionId)

def activeForSession : Bool := s.activePlayers.lookup player = some session

def getPackAt (c : WorldPos) : Option PackView :=
  (s.buildings c).bind fun b => if b.deletePending then none else b.view

def currentWindow : Option String := (s.players player).bind fun p => p.ui.bind fun ui => ui.currentWindow

def isAdmin : Bool := ((s.players player).bind fun p => p.stats).any fun stats => stats.role = 2

def resolveMarketWindow : Option WorldPos := do
  let rest ← (s.currentWindow player).bind (stripPrefix · "market:")
  match splitOn rest ':' with
  | [x, y, _] => parsePair [x, y]
  | _ => none

/-! ### The commands outside of the windows -/

def disconnect : List SaveKind :=
  saveIf .player (s.activeForSession player session && (s.players player).any fun p => p.hasRow)

def claimBonus : List SaveKind :=
  saveIf .player (s.sessions player = some session && (s.players player).any fun p =>
    p.stats.any (fun stats => s.bonusCooldownSecs ≤ s.now - stats.lastBonusAt) && p.flags && p.hasRow)

/-- The player of a command, or one in the game by his id or his name. -/
def resolveOnlinePlayer (target : String) : Option PlayerId :=
  if target.toLower = "me" ∨ target = "self" then some player
  else
    match parseI32 target with
    | some id => if (s.activePlayers.lookup id).isSome then some id else none
    | none => (s.activePlayers.map Prod.fst).find? fun id =>
        ((s.players id).bind fun p => p.metadata).any fun metadata => metadata.2.toLower = target.toLower

def reserveClanCreate : Bool :=
  (s.players player).any fun p => p.flags && p.stats.any fun stats => stats.clanId.isNone && decide (1000 ≤ stats.creds)

def applySlashCommand : SlashCommand → List SaveKind
  | .moneyAll _ => saveIf .adminMoneyAll (s.isAdmin player)
  | .skill command =>
    saveIf .adminSkill
      (s.isAdmin player && (s.resolveOnlinePlayer player command.target).any (s.adminSkillSet · command))
  | .clan (.invalid _) => []
  | .clan (.create _ _) => saveIf .clanCommand (s.reserveClanCreate player)
  | .clan _ => [.clanCommand]
  | .role _ _ => saveIf .adminRole (s.isAdmin player)
  | _ => []

/-- `handle_local_chat_non_command` -/
def handleLocalChat (message : String) : Bool :=
  match (s.players player).bind fun p => p.ui with
  | none => true
  | some ui =>
    ui.currentWindow.isSome || message = "console" || startsWith message ">" && decide (1 < message.utf8ByteSize) ||
      trim message = "" || !startsWith (trim message) "/"

def applyLocalChat (parseF32 : String → Option UInt32) (message : String) : List SaveKind :=
  if s.checkChatRate player ∧ ¬ s.handleLocalChat player message then
    s.applySlashCommand player (parseSlashCommand parseF32 (trim message))
  else []

/-- The player may write to the channel that he is in. -/
def mayChat : Bool :=
  (s.players player).any fun p =>
    match p.metadata, p.stats, p.ui with
    | some (id, _), some stats, some ui =>
      p.settings && (ui.currentChat ∈ s.chatChannels || ui.currentChat = "CLAN" && stats.clanId.isSome ||
        (parsePrivateTag ui.currentChat).any fun pair => id = pair.1 || id = pair.2)
    | _, _, _ => false

/-- A text that is neither blank nor a command. -/
def plainText (text : String) : Bool := trim text ≠ "" && !startsWith (trim text) "/"

/-- `prepare_channel_chat_non_command` -/
def prepareChannelChat (text : String) : Bool := plainText text && s.mayChat player

def applyChannelChat (parseF32 : String → Option UInt32) (payload : List UInt8) : List SaveKind :=
  let text := extractChannelMessageText payload
  if ¬ s.checkChatRate player then []
  else if startsWith (trim text) "/" then s.applySlashCommand player (parseSlashCommand parseF32 (trim text))
  else saveIf .chatAppend (s.prepareChannelChat player text)

def applyProgramAction (event : String) (payload : List UInt8) : List SaveKind :=
  if s.sessions player = some session then
    match event with
    | "PROG" =>
      match decodeProgramSave payload with
      | none => []
      | some (id, _) => if id ≤ 0 then [.programMenu] else [.program]
    | "PDEL" => saveIf .programDelete (payloadProgramId payload).isSome
    | "PCOP" => saveIf .programCopy (payloadProgramId payload).isSome
    | _ => []
  else []

/-! ### The buttons of the markets -/

def auctionEffects (kind : SaveKind) : List SaveKind := saveIf kind (s.resolveMarketWindow player).isSome

def auctionBetEffects : List SaveKind :=
  saveIf .auctionBet ((s.resolveMarketWindow player).isSome && (s.players player).any fun p => p.stats.isSome)

/-- A bet whose amount cannot be read opens the order. -/
def applyAuctionBet (raw : String) : List SaveKind :=
  match splitOnce raw ':' with
  | none => []
  | some (rawId, rawAmount) =>
    if (parseI32 rawId).isNone then []
    else if (parseI64 rawAmount).isNone then s.auctionEffects player .auctionOrder
    else s.auctionBetEffects player

def applyAuctionOrderCreate (raw : String) : List SaveKind :=
  match splitOn raw ':' with
  | [itemId, cost, num] =>
    match parseI32 itemId, parseI64 cost, parseI32 num with
    | some itemId, some _, some num =>
      saveIf .auctionOrderCreate ((s.resolveMarketWindow player).isSome && (s.players player).any fun p =>
        p.inventory.any (fun items => decide (0 < num ∧ num ≤ items itemId)) && p.flags)
    | _, _, _ => []
  | _ => []

/-! ### The buttons of the buildings -/

def withdrawStateReady (c : WorldPos) : Bool :=
  ((s.players player).any fun p => p.stats.isSome && p.flags) &&
    (s.buildings c).any fun b => b.storage.isSome && b.flags

def applyPackWithdrawal (coordinates : String) : List SaveKind :=
  saveIf .building ((parseCoordinates coordinates).any fun c =>
    s.withdrawStateReady player c && (s.buildings c).any fun b => b.hasRow)

def applyCrafterMutation (args : String) : List SaveKind :=
  saveIf .building ((craftCoordinates args).any fun c => (s.buildings c).any fun b => b.hasRow)

def applyRespBind (c : WorldPos) : List SaveKind :=
  saveIf .player ((s.getPackAt c).any (fun view => view.packType = .resp) &&
    (s.players player).any fun p => p.hasRow && p.flags)

/-- The amount that a button asks for; the greatest one depends on the building. -/
def chargeRequest (amount : String) (view : PackView) : Option Int :=
  match amount with
  | "100" => some 100
  | "1000" => some 1000
  | "max" => some (max (min (view.maxCharge.toInt - view.charge.toInt) 2147483647) 0)
  | _ => none

def applyChargeFill (amount : String) (c : WorldPos) (crystal : Fin 6) (packType : PackType) : List SaveKind :=
  saveIf .chargeFill ((s.getPackAt c).any fun view => (chargeRequest amount view).any fun requested =>
    view.packType = packType && (s.players player).any (fun p => p.flags && p.hasRow &&
      p.stats.any fun stats => decide (0 < min requested (stats.crystals crystal))) &&
    (s.buildings c).any (fun b => b.flags && b.hasRow) && decide (view.charge < view.maxCharge))

def applyRespProfit (c : WorldPos) : List SaveKind :=
  saveIf .respProfit ((s.getPackAt c).any (fun view => view.ownerId = player) &&
    (s.players player).any (fun p => p.flags && p.hasRow) && (s.buildings c).any fun b =>
      b.flags && b.hasRow && b.storage.any fun storage => decide (0 < storage.money))

/-- The building of the window of that kind, if it is the player's own. -/
def ownWindow (pre : String) : Option WorldPos := do
  let rest ← (s.currentWindow player).bind (stripPrefix · pre)
  let c ← parsePair (splitOn rest ':')
  guard ((s.getPackAt c).any fun view => view.ownerId = player)
  some c

def savable (c : WorldPos) : Bool := (s.buildings c).any fun b => b.flags && b.hasRow

def applyRespSave (data : String) : List SaveKind :=
  saveIf .building ((s.ownWindow player "resp:").any fun c => (parseRespSaveFields data).any fun fields =>
    (fields.clanEnabled.isNone || (s.players player).any fun p => p.stats.isSome) && s.savable c)

def applyPackSave (data : String) : List SaveKind :=
  saveIf .building ((s.ownWindow player "pack:").any fun c => (parseRichKeyValues data).any fun fields =>
    let cost := richField fields "cost"
    let clan := richField fields "clan"
    cost.all (fun value => (parseCost value).isSome) && clan.all (fun value => (parseRichBool value).isSome) &&
      (cost.isSome || clan.isSome) && s.savable c)

def clanPackMenuEffects (c : WorldPos) : List SaveKind :=
  saveIf .clanMenu ((s.getPackAt c).any fun view => view.packType = .clans && (s.players player).any fun p =>
    match p.position, p.stats with
    | some pos, some stats => decide (validatePackAccess s.cells view pos (stats.clanId.getD 0) player = .ok ())
    | _, _ => false)

/-! ### The buttons of the upgrades -/

def applyUpBuySlot : Bool :=
  (s.players player).any fun p => p.hasRow && p.flags && p.stats.any (fun stats => decide (1000 < stats.creds)) &&
    p.skills.any fun skills => decide (skills.totalSlots < maxSkillSlots)

/-- The upgrade, or a slot to delete or to install. -/
def namesSkill (button : String) : Bool :=
  button = "upgrade" || ((stripPrefix button "delete:").bind parseI32).isSome ||
    (((stripPrefix button "install:").bind (splitOnce · '#')).bind fun parts => parseI32 parts.2).isSome

def applyUpButton (button : String) : List SaveKind :=
  if button = "buyslot" then saveIf .player (s.applyUpBuySlot player)
  else
    saveIf .player (isPlayerMutationButton button && ((s.players player).any fun p => p.hasRow && p.flags) &&
      (!namesSkill button || s.skillsChange player button))

/-! ### The commands -/

theorem blueCrystal_lt : 1 < 6 := by decide

theorem cyanCrystal_lt : 5 < 6 := by decide

/-- The handlers that save, in their order; the other buttons save nothing, and each of them has a text of its own. -/
def applyGuiButtonCommand (button : String) : List SaveKind :=
  if (clanMutationActionForButton button).isSome then [.clanCommand]
  else if (clanMenuActionForButton button).isSome then [.clanMenu]
  else if button = "prog" then [.programMenu]
  else if button = "auc" then s.auctionEffects player .auctionGrid
  else if ((stripPrefix button "choose:").bind parseI32).isSome then s.auctionEffects player .auctionItemOrders
  else if ((stripPrefix button "openorder:").bind parseI32).isSome then s.auctionEffects player .auctionOrder
  else if let some raw := stripPrefix button "aucminbet:" then
    if (parseI32 raw).isSome then s.auctionBetEffects player else []
  else if let some raw := stripPrefix button "aucbet:" then s.applyAuctionBet player raw
  else if let some raw := stripPrefix button "aucsetnum:" then s.applyAuctionOrderCreate player raw
  else if let some rest := stripPrefix button "pack_op:take_money:" then s.applyPackWithdrawal player rest
  else if let some rest := stripPrefix button "pack_op:take_crys:" then s.applyPackWithdrawal player rest
  else if ((stripPrefix button "openprog:").bind parseI32).isSome then [.programOpen]
  else if let some name := stripPrefix button "createprog:" then saveIf .programCreate (trim name ≠ "")
  else if let some args := stripPrefix button "craft_start:" then s.applyCrafterMutation args
  else if let some args := stripPrefix button "craft_claim:" then s.applyCrafterMutation args
  else if (parseProgramRenameButton button).isSome then [.programRename]
  else if let some rest := stripPrefix button "resp_bind:" then
    ((parsePair (splitOn rest ':')).map (s.applyRespBind player)).getD []
  else if let some rest := stripPrefix button "resp_fill:" then
    match splitOn rest ':' with
    | [amount, x, y] => ((parsePair [x, y]).map (s.applyChargeFill player amount · ⟨1, blueCrystal_lt⟩ .resp)).getD []
    | _ => []
  else if let some rest := stripPrefix button "gun_fill:" then
    match splitOn rest ':' with
    | [amount, x, y] => ((parsePair [x, y]).map (s.applyChargeFill player amount · ⟨5, cyanCrystal_lt⟩ .gun)).getD []
    | _ => []
  else if let some rest := stripPrefix button "resp_profit:" then
    ((parsePair (splitOn rest ':')).map (s.applyRespProfit player)).getD []
  else if let some rest := stripPrefix button "resp_save:" then s.applyRespSave player rest
  else if let some rest := stripPrefix button "pack_save:" then s.applyPackSave player rest
  else if isPlayerMutationButton button then s.applyUpButton player button
  else if let some rest := stripPrefix button "pack_op:open:" then
    ((parseCoordinates rest).map (s.clanPackMenuEffects player)).getD []
  else []

def applyOpenPackGui (c : WorldPos) : List SaveKind :=
  if (s.currentWindow player).isNone then []
  else
    match (s.getPackAt c).map PackView.packType with
    | some .teleport | some .spot | some .storage => []
    | some .clans => s.clanPackMenuEffects player c
    | _ => s.applyGuiButtonCommand player (String.ofList
        ("pack_op:open:".toList ++ decimal c.1.toInt ++ ':' :: decimal c.2.toInt))

def acceptsGui : Bool := s.activeForSession player session && s.outboxes session && s.checkGuiRate player

def applyGuiCommand (command : GuiCommand) : List SaveKind :=
  if ¬ s.acceptsGui player session then []
  else
    match command with
    | .button .close _ => []
    | .openPack x y => s.applyOpenPackGui player (x, y)
    | .button _ raw => s.applyGuiButtonCommand player raw

/-- The kinds of the saves among the effects of a command. -/
def applyQueuedPlayerCommand (parseF32 : String → Option UInt32) : PlayerCommand → List SaveKind
  | .disconnect => s.disconnect player session
  | .claimBonus => s.claimBonus player session
  | .gui command => s.applyGuiCommand player session command
  | .openProgrammer => [.programMenu]
  | .requestMyBuildings => [.buildingMenu]
  | .openClan => [.clanMenu]
  | .localChat message => s.applyLocalChat player parseF32 message
  | .channelChat payload => s.applyChannelChat player parseF32 payload
  | .chatResync | .chatChoose => [.chatResync]
  | .chatMenu => [.chatMenu]
  | .chatSettings => [.chatColorCycle]
  | .chatPrivate payload => saveIf .chatPrivate (parseI32 (trim (String.ofList (fromUtf8Lossy payload)))).isSome
  | .whois => [.whois]
  | .programAction event payload => s.applyProgramAction player session event payload
  | .removePack remove => saveIf .buildingDelete (s.admitsDelete remove)
  | .slash command => s.applySlashCommand player command
  | _ => []

end CommandState

end OpenMines

import OpenMines.BuildingDelete
import OpenMines.ClanStore
import OpenMines.ProgrammatorParser
import OpenMines.SkillSlots

namespace OpenMines

open Lib.Text Lib.Utf8

/-! ### The buttons of the windows -/

inductive GuiButtonKind
  | close
  | building
  | pack
  | storage
  | craft
  | teleport
  | respawn
  | gun
  | market
  | settings
  | programmer
  | clan
  | auction
  | up
  | other
  deriving DecidableEq

inductive GuiCommand
  | openPack (x y : Int32)
  | button (kind : GuiButtonKind) (raw : String)

def classifyGuiButton (button : String) : GuiButtonKind :=
  if button = "exit" ∨ button = "exit:0" ∨ button = "close" then .close
  else if startsWith button "bld_place:" ∨ button = "open_buildings" then .building
  else if startsWith button "pack_op:" ∨ startsWith button "pack_save:" then .pack
  else if startsWith button "transfer:" then .storage
  else if startsWith button "craft_" then .craft
  else if startsWith button "tp:" then .teleport
  else if startsWith button "resp_" then .respawn
  else if startsWith button "gun_" then .gun
  else if button = "sellcrys" ∨ button = "buycrys" ∨ button = "sellall" ∨ button = "getprofit" ∨
      startsWith button "sell:" ∨ startsWith button "buy:" then .market
  else if startsWith button "save:" then .settings
  else if button = "prog" ∨ button = "createprog" ∨ startsWith button "openprog:" ∨
      startsWith button "createprog:" ∨ startsWith button "rename:" then .programmer
  else if startsWith button "clan" then .clan
  else if button = "auc" ∨ startsWith button "choose:" ∨ startsWith button "openorder:" ∨
      startsWith button "auc" then .auction
  else if button = "upgrade" ∨ button = "buyslot" ∨ startsWith button "skill:" ∨ startsWith button "delete:" ∨
      startsWith button "install:" then .up
  else .other

def GuiCommand.parse (button : String) : GuiCommand :=
  match (stripPrefix button "pack_op:open:").bind fun rest => parsePair (splitOn rest ':') with
  | some (x, y) => .openPack x y
  | none => .button (classifyGuiButton button) button

def isPlayerMutationButton (button : String) : Bool :=
  button = "upgrade" || button = "buyslot" || startsWith button "delete:" || startsWith button "install:"

def isBuildingMutationButton (button : String) : Bool :=
  startsWith button "pack_op:take_money:" || startsWith button "pack_op:take_crys:" ||
    startsWith button "pack_save:" || startsWith button "resp_save:"

def isChargeFillButton (button : String) : Bool := startsWith button "resp_fill:" || startsWith button "gun_fill:"

def isClanMenuButton (button : String) : Bool :=
  button = "clan_menu" || button = "clan_back" || button = "clan_members" || button = "clan_invite_list" ||
    button = "clan_invites_view" || button = "clan_requests" || startsWith button "clan_view:"

/-- The arms of `persistence_kind` for the buttons. -/
def buttonPersistenceKind (raw : String) : Option SaveKind :=
  if startsWith raw "createprog:" then some .programCreate
  else if raw = "prog" then some .programMenu
  else if startsWith raw "openprog:" then some .programOpen
  else if startsWith raw "rename:" then some .programRename
  else if isClanMenuButton raw then some .clanMenu
  else if raw = "auc" then some .auctionGrid
  else if startsWith raw "choose:" then some .auctionItemOrders
  else if startsWith raw "openorder:" then some .auctionOrder
  else if startsWith raw "aucsetnum:" then some .auctionOrderCreate
  else if startsWith raw "aucminbet:" || startsWith raw "aucbet:" then some .auctionBet
  else if isBuildingMutationButton raw then some .building
  else if startsWith raw "resp_profit:" then some .respProfit
  else if isChargeFillButton raw then some .chargeFill
  else if isPlayerMutationButton raw || startsWith raw "resp_bind:" then some .player
  else none

/-! ### The commands of the chat -/

inductive AdminCommandName
  | give
  | giveAll
  | money
  | moneyAll
  | teleport
  | heal
  | skill
  | kick
  | role
  | clan
  | pack
  | help

def AdminCommandName.fromSlash (token : String) : Option AdminCommandName :=
  match token with
  | "/give" => some .give
  | "/giveall" => some .giveAll
  | "/money" => some .money
  | "/moneyall" => some .moneyAll
  | "/tp" => some .teleport
  | "/heal" => some .heal
  | "/skill" => some .skill
  | "/kick" => some .kick
  | "/role" => some .role
  | "/clan" => some .clan
  | "/pack" => some .pack
  | "/admin" | "/adminhelp" => some .help
  | _ => none

inductive Role
  | player
  | moderator
  | admin

/-- The texts of the replies are left out, and so is what the administrators do to a building. -/
inductive SlashCommand
  | give (itemId amount : Int32)
  | giveAll
  | money (amount : Int)
  | moneyAll (amount : Int)
  | skill (command : SkillCommand)
  | skillHelp
  | teleport (x y : Int32)
  | heal
  | kick (target : String)
  | role (target : String) (role : Role)
  | clan (action : ClanAction)
  | pack (args : List String)
  | help
  | unknown (command : String)
  | invalid

def SlashCommand.persistenceKind : SlashCommand → Option SaveKind
  | .moneyAll _ => some .adminMoneyAll
  | .role _ _ => some .adminRole
  | .skill _ => some .adminSkill
  | .clan _ => some .clanCommand
  | .give _ _ | .giveAll | .money _ | .skillHelp | .teleport _ _ | .heal | .kick _ | .pack _ | .help | .unknown _
  | .invalid => none

def cmdUsageClan : String := "Команды: /clan create ИМЯ ТЕГ | /clan leave | /clan kick ИМЯ"

def parseClanCommand : List String → ClanAction
  | "create" :: name :: tag :: _ => if name ≠ "" ∧ tag ≠ "" then .create name tag else .invalid cmdUsageClan
  | "leave" :: _ => .leave
  | "kick" :: target :: _ => if target ≠ "" then .kick target else .invalid cmdUsageClan
  | _ => .invalid cmdUsageClan

def parseRoleCommand : List String → SlashCommand
  | target :: role :: _ =>
    match role with
    | "admin" => .role target .admin
    | "mod" | "moderator" => .role target .moderator
    | "player" => .role target .player
    | _ => .invalid
  | _ => .invalid

section Parse

variable (parseF32 : String → Option UInt32)

/-- `parse_skill_command` -/
def parseSkill (args : List String) : SlashCommand :=
  if args.head?.any asksForHelp then .skillHelp else ((parseSkillCommand parseF32 args).map .skill).getD .invalid

def parseGive (args : List String) : SlashCommand :=
  match args with
  | [] => .invalid
  | [itemId] => ((parseI32 itemId).map (.give · 1)).getD .invalid
  | itemId :: amount :: _ => ((parseI32 itemId).bind fun itemId => (parseI32 amount).map (.give itemId ·)).getD .invalid

def parseSlashCommand (message : String) : SlashCommand :=
  match splitWhitespace message with
  | [] => .invalid
  | command :: args =>
    match AdminCommandName.fromSlash command with
    | some .give => parseGive args
    | some .giveAll => .giveAll
    | some .money => ((args.head?.bind parseI64).map .money).getD .invalid
    | some .moneyAll => ((args.head?.bind parseI64).map .moneyAll).getD .invalid
    | some .skill => parseSkill parseF32 args
    | some .teleport =>
      match args.head?.bind parseI32, args[1]?.bind parseI32 with
      | some x, some y => .teleport x y
      | _, _ => .invalid
    | some .heal => .heal
    | some .kick => (args.head?.map .kick).getD .invalid
    | some .role => parseRoleCommand args
    | some .clan => .clan (parseClanCommand args)
    | some .pack => .pack args
    | some .help => .help
    | none => .unknown command

end Parse

/-- The client sends the text behind the name and the number of its channel. -/
def extractChannelMessageText (payload : List UInt8) : String :=
  let raw := trim (String.ofList (fromUtf8Lossy payload))
  match splitOnce raw '#' with
  | some (channel, body) => if ':' ∈ channel.toList then body else raw
  | none => raw

/-! ### The commands of the players -/

/-- The commands, with what their classification and their saves depend on. -/
inductive PlayerCommand
  | connect
  | disconnect
  | move
  | dig
  | build
  | geology
  | heal
  | gui (command : GuiCommand)
  | localChat (message : String)
  | slash (command : SlashCommand)
  | channelChat (payload : List UInt8)
  | chatResync
  | chatMenu
  | chatChoose
  | chatSettings
  | chatPrivate (payload : List UInt8)
  | whois
  | toggleAutoDig
  | toggleAggression
  | inventoryChoose
  | inventoryUse
  | inventoryToggle
  | openBox
  | claimBonus
  | settingsSave
  | adminAction
  | respawn
  | openProgrammer
  | requestMyBuildings
  | openClan
  | programAction (event : String) (payload : List UInt8)
  | applyDeletedProgram
  | applyInventoryBuildingPlaced
  | inventoryBuildingPlacementFailed
  | applyPaidBuildingPlaced
  | refundPaidBuildingPlacement
  | removePack (remove : RemovePack)
  | applyProgramEditorOpen
  | applyProgramEditorRename
  | marketSell
  | marketSellAll
  | marketBuy
  | marketGetProfit
  | knownNoopTy

/-- The program of a payload, and nothing for one that the decoder panics on. -/
def decodeProgramSave (payload : List UInt8) : Option (Int32 × List Char) := (decodeProgPacket payload).join

/-- The positive id that is the payload of `PDEL` and `PCOP`. -/
def payloadProgramId (payload : List UInt8) : Option Int32 :=
  ((fromUtf8 payload).bind fun raw => parseI32 (trim (String.ofList raw))).filter (0 < ·)

def PlayerCommand.persistenceKind (parseF32 : String → Option UInt32) : PlayerCommand → Option SaveKind
  | .disconnect | .claimBonus => some .player
  | .removePack _ => some .buildingDelete
  | .gui (.button _ raw) => buttonPersistenceKind raw
  | .programAction event payload =>
    if event = "PROG" then
      (decodeProgramSave payload).map fun program => if program.1 ≤ 0 then .programMenu else .program
    else if event = "PCOP" then some .programCopy
    else if event = "PDEL" then (payloadProgramId payload).map fun _ => .programDelete
    else none
  | .openProgrammer => some .programMenu
  | .requestMyBuildings => some .buildingMenu
  | .openClan | .gui (.openPack _ _) => some .clanMenu
  | .chatSettings => some .chatColorCycle
  | .chatResync | .chatChoose => some .chatResync
  | .chatMenu => some .chatMenu
  | .chatPrivate _ => some .chatPrivate
  | .whois => some .whois
  | .slash command => command.persistenceKind
  | .localChat message => (parseSlashCommand parseF32 (trim message)).persistenceKind
  | .channelChat payload => (parseSlashCommand parseF32 (extractChannelMessageText payload)).persistenceKind
  | _ => none

/-- The commands that clients send: each command of a window was parsed from the text of a button. -/
def PlayerCommand.Sent : PlayerCommand → Prop
  | .gui command => ∃ button, command = GuiCommand.parse button
  | _ => True

end OpenMines

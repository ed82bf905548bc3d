import Mathlib.Data.Fin.VecNotation
import Mathlib.Data.List.FinRange
import OpenMines.Completion
import OpenMines.Lib.Run
import OpenMines.Lib.Text

namespace OpenMines

open Lib.Text

inductive PackType
  | none
  | teleport
  | resp
  | gun
  | market
  | up
  | storage
  | craft
  | vulkan
  | spot
  | levi
  | jobs
  | zalupa
  | clans
  | gate
  deriving DecidableEq

abbrev WorldPos := Int32 × Int32

structure PackView where
  id : Int32
  packType : PackType
  x : Int32
  y : Int32
  ownerId : PlayerId
  clanId : Int32
  charge : Int32
  maxCharge : Int32
  hp : Int32
  maxHp : Int32
  deriving DecidableEq

def PackView.origin (view : PackView) : WorldPos := (view.x, view.y)

inductive PackAccessError
  | notAtObject
  | noRights
  | configMissing
  deriving DecidableEq

/-- The cells of the buildings of a type, as `buildings.json` has them. -/
abbrev BuildingCells := PackType → Option (List (WorldPos × UInt8))

/-- The player stands on a cell of the building. -/
def PackView.hasCell (view : PackView) (offsets : List (WorldPos × UInt8)) (pos : WorldPos) : Bool :=
  offsets.any (fun d => view.x + d.1.1 = pos.1 ∧ view.y + d.1.2 = pos.2)

def validatePackAccess (cells : BuildingCells) (view : PackView) (playerPos : WorldPos) (playerClan : Int32)
    (playerId : PlayerId) : Except PackAccessError Unit :=
  match cells view.packType with
  | .none => .error .configMissing
  | .some offsets =>
    if ¬ view.hasCell offsets playerPos then .error .notAtObject
    else if view.ownerId = playerId ∨ view.clanId ≠ 0 ∧ view.clanId = playerClan then .ok ()
    else .error .noRights

abbrev Crystals := Fin 6 → Int

structure BuildingStorage where
  money : Int
  crystals : Crystals

/-- A building entity, without the components that tests may take away. -/
structure Building where
  view : PackView
  deletePending : Bool
  storage : Option BuildingStorage
  hasFlags : Bool

structure PlayerStats where
  money : Int
  crystals : Crystals
  clanId : Option Int32

structure GuiPlayer where
  pos : WorldPos
  stats : Option PlayerStats
  hasFlags : Bool
  currentWindow : Option String

structure GuiState where
  players : PlayerId → Option GuiPlayer
  /-- the buildings by their origins -/
  buildings : WorldPos → Option Building

/-- What another button does; it has no access to the storages. -/
structure OtherEffect where
  players : PlayerId → Option GuiPlayer
  building : WorldPos → Building → Building

inductive GuiEvent
  /-- `accepted` when the session is active and within its rate -/
  | button (player : PlayerId) (button : String) (accepted : Bool) (effect : OtherEffect)
  /-- everything else that happens in the game -/
  | world (next : GuiState)

inductive GuiAction
  | transfer (payload : String)
  | takeMoney (coordinates : String)
  | takeCrystals (coordinates : String)
  | sell (sliders : String)
  | sellAll
  | getProfit
  | respProfit (rest : String)
  | other
  deriving DecidableEq

/-- The button handlers that reach a storage, by the text of the button. -/
def guiAction (button : String) : GuiAction :=
  if let some payload := stripPrefix button "transfer:" then .transfer payload
  else if let some rest := stripPrefix button "pack_op:take_money:" then .takeMoney rest
  else if let some rest := stripPrefix button "pack_op:take_crys:" then .takeCrystals rest
  else if let some sliders := stripPrefix button "sell:" then .sell sliders
  else if button = "sellall" then .sellAll
  else if button = "getprofit" then .getProfit
  else if let some rest := stripPrefix button "resp_profit:" then .respProfit rest
  else .other

def parsePair (parts : List String) : Option WorldPos :=
  match parts with
  | [x, y] => (parseI32 x).bind (fun x => (parseI32 y).map (fun y => (x, y)))
  | _ => none

def parseCoordinates (coordinates : String) : Option WorldPos :=
  (splitOnce coordinates ':').bind (fun p => parsePair [p.1, p.2])

def parseAmounts (data : String) : Option Crystals :=
  match (splitOn data ':').map parseI64 with
  | [some a, some b, some c, some d, some e, some f] => some ![a, b, c, d, e, f]
  | _ => none

/-- The sum or difference of two `i64` in a release build. -/
def wrapI64 (n : Int) : Int := n.bmod 18446744073709551616

namespace GuiState

variable (cells : BuildingCells) (price : Fin 6 → Int) (s : GuiState)

def setPlayer (player : PlayerId) (p : GuiPlayer) : GuiState :=
  { s with players := Function.update s.players player (some p) }

def setStorage (c : WorldPos) (b : Building) (storage : BuildingStorage) : GuiState :=
  { s with buildings := Function.update s.buildings c (some { b with storage := some storage }) }

def getPackAt (c : WorldPos) : Option PackView :=
  (s.buildings c).bind (fun b => if b.deletePending then none else some b.view)

def playerReady (player : PlayerId) : Bool := (s.players player).any (fun p => p.stats.isSome && p.hasFlags)

def withdrawStateReady (player : PlayerId) (c : WorldPos) : Bool :=
  s.playerReady player && (s.buildings c).any (fun b => b.storage.isSome && b.hasFlags)

/-- The storage after everything of a kind was taken. -/
def taken (storage : BuildingStorage) (crystals : Bool) : BuildingStorage :=
  if crystals then { storage with crystals := fun _ => 0 } else { storage with money := 0 }

def credited (stats : PlayerStats) (storage : BuildingStorage) (crystals : Bool) : PlayerStats :=
  if crystals then
    if ∃ i, 0 < storage.crystals i then
      { stats with crystals := fun i => saturatingAdd (stats.crystals i) (storage.crystals i) }
    else stats
  else if 0 < storage.money then { stats with money := saturatingAdd stats.money storage.money } else stats

/-- Nothing when the handler changes nothing. -/
def applyPackWithdrawal (player : PlayerId) (coordinates : String) (crystals : Bool) : Option GuiState := do
  let c ← parseCoordinates coordinates
  guard (s.withdrawStateReady player c)
  let p ← s.players player
  let b ← s.buildings c
  let storage ← b.storage
  let stats ← p.stats
  some ((s.setStorage c b (taken storage crystals)).setPlayer player
    { p with stats := some (credited stats storage crystals) })

/-- The coordinates in the window of a building. -/
def packWindow (player : PlayerId) : Option WorldPos := do
  let p ← s.players player
  let window ← p.currentWindow
  let rest ← stripPrefix window "pack:"
  parsePair (splitOn rest ':')

def resolveMarketWindow (player : PlayerId) : Option WorldPos := do
  let p ← s.players player
  let window ← p.currentWindow
  let rest ← stripPrefix window "market:"
  match splitOn rest ':' with
  | [x, y, _] => parsePair [x, y]
  | _ => none

def inI64 (n : Int) : Prop := i64Min ≤ n ∧ n ≤ i64Max

instance (n : Int) : Decidable (inI64 n) := inferInstanceAs (Decidable (_ ∧ _))

def transfer (player : PlayerId) (payload : String) : Option GuiState := do
  let requested ← parseAmounts payload
  let c ← s.packWindow player
  let view ← s.getPackAt c
  guard (view.packType = .storage)
  let p ← s.players player
  let stats ← p.stats
  guard (validatePackAccess cells view p.pos (stats.clanId.getD 0) player = .ok ())
  guard (s.withdrawStateReady player c)
  let b ← s.buildings c
  let storage ← b.storage
  let left (i : Fin 6) : Int := wrapI64 (wrapI64 (stats.crystals i + storage.crystals i) - requested i)
  guard (∀ i, 0 ≤ requested i ∧ 0 ≤ left i)
  some ((s.setStorage c b { storage with crystals := requested }).setPlayer player
    { p with stats := some { stats with crystals := left } })

/-- `sell_crystals`: what is left to the player, and what he has earned. -/
def sellCrystals (player : PlayerId) (sliders : Crystals) : Option (GuiPlayer × Int) := do
  let p ← s.players player
  guard p.hasFlags
  let stats ← p.stats
  let sold (i : Fin 6) : Bool := 0 < sliders i ∧ sliders i ≤ stats.crystals i ∧ inI64 (sliders i * price i)
  let earned := (List.finRange 6).foldl
    (fun earned i => if sold i then saturatingAdd earned (sliders i * price i) else earned) 0
  guard (0 < earned)
  some ({ p with
    stats := some { stats with
      crystals := fun i => if sold i then stats.crystals i - sliders i else stats.crystals i
      money := saturatingAdd stats.money earned } }, earned)

/-- The tenth of the earnings that the owner of the market gets. -/
def addProfit (c : WorldPos) (earned : Int) : GuiState :=
  match s.buildings c with
  | some b =>
    match b.storage with
    | some storage => s.setStorage c b { storage with money := storage.money + earned / 10 }
    | none => s
  | none => s

def marketSell (player : PlayerId) (sliders : Crystals) (c : WorldPos) : Option GuiState := do
  let b ← s.buildings c
  guard (b.hasFlags ∧ b.storage.isSome)
  let (p, earned) ← s.sellCrystals price player sliders
  some ((s.setPlayer player p).addProfit c earned)

def marketSellAll (player : PlayerId) (c : WorldPos) : Option GuiState := do
  let _ ← s.buildings c
  let p ← s.players player
  let stats ← p.stats
  let (p, earned) ← s.sellCrystals price player stats.crystals
  some ((s.setPlayer player p).addProfit c earned)

def marketGetProfit (player : PlayerId) (c : WorldPos) : Option GuiState := do
  let view ← s.getPackAt c
  guard (view.packType = .market ∧ view.ownerId = player)
  guard (s.playerReady player)
  let b ← s.buildings c
  guard b.hasFlags
  let storage ← b.storage
  let p ← s.players player
  let stats ← p.stats
  some ((s.setStorage c b (taken storage false)).setPlayer player
    { p with stats := some (credited stats storage false) })

def respProfit (player : PlayerId) (c : WorldPos) : Option GuiState := do
  let view ← s.getPackAt c
  guard (view.ownerId = player)
  guard (s.withdrawStateReady player c)
  let b ← s.buildings c
  let storage ← b.storage
  let p ← s.players player
  let stats ← p.stats
  some ((s.setStorage c b (taken storage false)).setPlayer player
    { p with stats := some { stats with money := saturatingAdd stats.money storage.money } })

def applyOther (effect : OtherEffect) : GuiState where
  players := effect.players
  buildings := fun c => (s.buildings c).map (fun b => { effect.building c b with storage := b.storage })

/-- `apply_gui_button_command`, after the checks of the session. -/
def applyGuiButton (player : PlayerId) (button : String) (effect : OtherEffect) : Option GuiState :=
  match guiAction button with
  | .transfer payload => s.transfer cells player payload
  | .takeMoney coordinates => s.applyPackWithdrawal player coordinates false
  | .takeCrystals coordinates => s.applyPackWithdrawal player coordinates true
  | .sell sliders => do
    let c ← s.resolveMarketWindow player
    let sliders ← parseAmounts sliders
    s.marketSell price player sliders c
  | .sellAll => (s.resolveMarketWindow player).bind (s.marketSellAll price player)
  | .getProfit => (s.resolveMarketWindow player).bind (s.marketGetProfit player)
  | .respProfit rest => (parsePair (splitOn rest ':')).bind (s.respProfit player)
  | .other => some (s.applyOther effect)

def step : GuiEvent → Option GuiState
  | .button player button accepted effect =>
    some (if accepted then (s.applyGuiButton cells price player button effect).getD s else s)
  | .world next => some next

end GuiState

end OpenMines

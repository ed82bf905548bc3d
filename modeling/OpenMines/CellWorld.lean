import OpenMines.BuildingDelete
import OpenMines.BuildingPlacement
import OpenMines.Granular
import OpenMines.Lib.CheckedInt

namespace OpenMines

open Lib.CheckedInt

def greenBlock : UInt8 := 101

def yellowBlock : UInt8 := 102

def redBlock : UInt8 := 105

def roadCell : UInt8 := 35

def supportCell : UInt8 := 49

def militaryBlockFrame : UInt8 := 80

def militaryBlock : UInt8 := 81

def polymerRoad : UInt8 := 39

def redRock : UInt8 := 117

def acidRock : UInt8 := 118

def rockCell : UInt8 := 103

def isLivingCrystal (cell : UInt8) : Bool := cell ∈ [50, 51, 52, 53, 54, 55, 116]

/-- The index of the crystals that a cell gives. -/
def crystalType (cell : UInt8) : Option Nat :=
  if cell ∈ [71, 107] then some 0
  else if cell ∈ [72, 109] then some 1
  else if cell ∈ [73, 108] then some 2
  else if cell ∈ [75, 110] then some 3
  else if cell = 111 then some 4
  else if cell ∈ [74, 112] then some 5
  else none

def isTrulyEmpty (cell : UInt8) : Bool := cell = 0 || cell = emptyCell

def isBuildingBlock (cell : UInt8) : Bool := cell ∈ [101, 102, 105, 80, 81, 49, 48]

/-- The bits of `1.0` and `50.0`. -/
def oneF32 : UInt32 := 0x3f800000

def fiftyF32 : UInt32 := 0x42480000

/-- The tables of the cells and the arithmetic on durabilities; the random numbers of red rock come
from a library. A box is solid, and nothing destroys it but the blow of a removal. -/
structure CellRules extends CellDefs, FloatOps where
  isDiggable : UInt8 → Bool
  isDestructible : UInt8 → Bool
  canPlaceOver : UInt8 → Bool
  add : UInt32 → UInt32 → UInt32
  redRockConverts : UInt64 → WorldPos → Bool
  boxSolid : isEmpty boxCell = false ∧ isSand boxCell = false ∧ isDestructible boxCell = false
  boxFragile : leZero (sub (durability boxCell) oneF32) = true

/-- The tables of `cells.json`, with the difference from a durability of zero. -/
def CellRules.cellsJson : CellRules where
  toCellDefs := CellDefs.cellsJson
  sub d dmg := if d = 0 then dmg ^^^ 0x80000000 else 0
  leZero d := d = 0 || 0x80000000 ≤ d
  isDiggable cell := cell ∈ [40, 41, 42, 43, 44, 45, 48, 49, 50, 51, 52, 53, 54, 55, 60, 61, 62, 63, 64, 65, 66, 67, 68,
    71, 72, 73, 74, 75, 80, 81, 82, 90, 91, 92, 93, 94, 95, 96, 97, 98, 99, 100, 101, 102, 103, 105, 107, 108, 109,
    110, 111, 112, 113, 116, 118, 120, 121, 122]
  isDestructible cell := cell ∈ [33, 34, 35, 39, 40, 41, 42, 43, 44, 45, 48, 49, 50, 51, 52, 53, 54, 55, 60, 61, 62,
    63, 64, 65, 66, 67, 68, 71, 72, 73, 74, 75, 82, 91, 92, 93, 94, 97, 98, 99, 100, 101, 102, 103, 105, 107, 108,
    109, 110, 111, 112, 113, 114, 115, 116, 117, 118, 119, 120, 121, 122]
  canPlaceOver cell := cell ∈ [32, 33, 34, 35, 60, 61, 62, 63, 64, 65, 91, 97, 98, 99, 100]
  add d _ := d
  redRockConverts _ _ := false
  boxSolid := by decide
  boxFragile := by decide

namespace CellGrid

def destroy (defs : CellDefs) (g : CellGrid) (p : Pos) (ok : Bool) : CellGrid :=
  if g.validCoord p && !defs.isEmpty (g.getCell p) && ok then
    g.put p 0 (if g.road p = 0 then emptyCell else g.road p) 0
  else g

def destroyCellAndRoad (defs : CellDefs) (g : CellGrid) (p : Pos) (ok : Bool) : CellGrid :=
  g.writeWorldCell defs p ⟨emptyCell, 0⟩ ok

/-- The damaged cell, and whether it was destroyed. -/
def damageCell (f : FloatOps) (g : CellGrid) (p : Pos) (dmg : UInt32) (ok : Bool) : CellGrid × Bool :=
  if g.validCoord p && ok then
    let rest := f.sub (g.durability p) dmg
    if f.leZero rest then (g.put p 0 (if g.road p = 0 then emptyCell else g.road p) 0, true)
    else (g.put p (g.foreground p) (g.road p) rest, false)
  else (g, false)

end CellGrid

structure CellPlayer where
  pos : WorldPos
  dir : Int32
  clanId : Option Int32
  crystals : Crystals
  selected : Int32
  items : Int32 → Int

def facing (pos : WorldPos) (dir : Int32) : WorldPos := (pos.1 + (dirOffset dir).1, pos.2 + (dirOffset dir).2)

def Crystals.at (crystals : Crystals) (i : Nat) : Int := ((List.ofFn crystals)[i]?).getD 0

def Crystals.set (crystals : Crystals) (i : Nat) (n : Int) : Crystals := fun j => if j.val = i then n else crystals j

def addCrystalsLikeReference (current amount : Int) : Int :=
  if 0 ≤ current + amount ∧ current + amount ≤ 9223372036854775807 then current + amount else 9223372036854775807

structure PendingConversion where
  pos : WorldPos
  ticksLeft : Nat
  requiredCell : UInt8
  targetCell : UInt8
  durability : UInt32

structure BoxPickupIntent where
  player : PlayerId
  playerPos : WorldPos
  boxPos : WorldPos

inductive DueAction
  | boom (center : WorldPos) (rngSeed : UInt64)
  | protector (center : WorldPos)
  | raz (center : WorldPos)

/-- What the skills of a player make of a build. -/
structure BuildSkills where
  cost : Int
  hp : UInt32
  yellowCost : Int
  yellowHp : UInt32
  redCost : Int
  redHp : UInt32

structure CellWorld extends BuildingIndex where
  grid : CellGrid
  /-- `box_index` -/
  boxes : WorldPos → Option Crystals
  players : PlayerId → Option CellPlayer
  conversions : List PendingConversion
  pickups : List BoxPickupIntent
  due : List DueAction
  nextSequence : UInt64
  /-- the gates that protectors have hit -/
  removals : List WorldPos

namespace CellWorld

variable (cells : BuildingCells) (rules : CellRules) (s : CellWorld)

def getCell (p : WorldPos) : UInt8 := s.grid.getCell (worldPos p)

def validCoord (p : WorldPos) : Bool := s.grid.validCoord (worldPos p)

def setPlayer (player : PlayerId) (p : CellPlayer) : CellWorld :=
  { s with players := Function.update s.players player (some p) }

/-- `access_gun`: no charged gun of another clan has a cell within the distance of 20. -/
def accessGun (p : WorldPos) (clanId : Int32) : Bool :=
  ((PlacementWorld.chunksAround (chunkPos p)).flatMap s.chunkBuildings).all (fun entity =>
    match s.entities entity with
    | none => true
    | some b =>
      b.pending.isSome || b.view.packType ≠ .gun || b.view.charge ≤ 0 || b.view.clanId = clanId ||
        (footprint cells b.view).all (fun d =>
          400 < (d.1.1 - p.1).toInt * (d.1.1 - p.1).toInt + (d.1.2 - p.2).toInt * (d.1.2 - p.2).toInt))

/-! ### Digging -/

def mine (player : PlayerId) (cell : UInt8) (amount : Int) : CellWorld :=
  match crystalType cell, s.players player with
  | some i, some p =>
    s.setPlayer player
      { p with crystals := p.crystals.set i (addCrystalsLikeReference (p.crystals.at i) amount) }
  | _, _ => s

/-- A boulder goes on when the cell behind it is empty. -/
def pushBoulder (cell : UInt8) (target dest : WorldPos) (journal : WorldPos → Bool) : CellWorld :=
  if s.validCoord dest && rules.isEmpty (s.getCell dest) then
    let durability := s.grid.getDurability (worldPos target)
    { s with
      grid := (s.grid.destroy rules.toCellDefs (worldPos target) (journal target)).writeWorldCell rules.toCellDefs
        (worldPos dest) ⟨cell, durability⟩ (journal dest) }
  else s

/-- The first journal is that of the hit, the other that of the push. -/
def hitCell (player : PlayerId) (cell : UInt8) (target : WorldPos) (dir : Int32) (power : UInt32) (mined : Int)
    (journal pushed : WorldPos → Bool) : CellWorld :=
  let damaged := s.grid.damageCell rules.toFloatOps (worldPos target) power (journal target)
  let t := { s with grid := damaged.1 }.mine player cell mined
  if isBoulder cell && !damaged.2 then t.pushBoulder rules cell target (facing target dir) pushed else t

/-- `hit` is the digging power, `mined` what a crystal would give. -/
def digCell (player : PlayerId) (pos : WorldPos) (dir : Int32) (hit : UInt32) (mined : Int)
    (journal pushed : WorldPos → Bool) : CellWorld :=
  let target := facing pos dir
  let cell := s.getCell target
  if !s.validCoord target then s
  else if cell = boxCell then { s with pickups := s.pickups ++ [⟨player, pos, target⟩] }
  else if !rules.isDiggable cell then s
  else if cell = militaryBlock then
    { s with grid := (s.grid.damageCell rules.toFloatOps (worldPos target) oneF32 (journal target)).1 }
  else
    s.hitCell rules player cell target dir (if (crystalType cell).isSome then oneF32 else hit) mined journal pushed

def handleDig (player : PlayerId) (dir : Int32) (hit : UInt32) (mined : Int) (journal pushed : WorldPos → Bool) :
    CellWorld :=
  match s.players player with
  | none => s
  | some p =>
    (s.setPlayer player { p with dir := if 0 ≤ dir ∧ dir ≤ 3 then dir else p.dir }).digCell rules player p.pos dir hit
      mined journal pushed

/-! ### Building blocks -/

/-- What a build places, and the crystals that it takes. -/
structure BuildPlan where
  crystal : Nat
  cost : Int
  cell : WorldCell
  converts : Bool

def buildPlan (block : String) (skills : BuildSkills) (cur : UInt8) (durability : UInt32) : Option BuildPlan :=
  match block with
  | "G" =>
    if rules.isEmpty cur || rules.isSand cur then some ⟨0, skills.cost, ⟨greenBlock, skills.hp⟩, false⟩
    else if cur = greenBlock then
      some ⟨4, skills.yellowCost, ⟨yellowBlock, rules.add durability skills.yellowHp⟩, false⟩
    else if cur = yellowBlock then some ⟨2, skills.redCost, ⟨redBlock, rules.add durability skills.redHp⟩, false⟩
    else none
  | "R" => if isTrulyEmpty cur then some ⟨0, skills.cost, ⟨roadCell, skills.hp⟩, false⟩ else none
  | "O" =>
    if rules.isEmpty cur || rules.isSand cur then some ⟨0, skills.cost, ⟨supportCell, 0⟩, false⟩ else none
  | "V" =>
    if isTrulyEmpty cur then
      some ⟨5, skills.cost, ⟨militaryBlockFrame,
        if rules.isEmpty militaryBlockFrame then 0 else rules.durability militaryBlockFrame⟩, true⟩
    else none
  | _ => none

def placePlan (plan : BuildPlan) (target : WorldPos) (hp : UInt32) (journal : WorldPos → Bool) : CellWorld :=
  { s with
    grid := s.grid.writeWorldCell rules.toCellDefs (worldPos target) plan.cell (journal target)
    conversions := if plan.converts then s.conversions ++ [⟨target, 10, militaryBlockFrame, militaryBlock, hp⟩]
      else s.conversions }

/-- The cell that a build is about: it is in the world and no gun or origin of a building forbids it. -/
def buildTarget (p : CellPlayer) : Option WorldPos :=
  let target := facing p.pos p.dir
  if s.validCoord target && s.accessGun cells target (p.clanId.getD 0) && (s.byOrigin target).isNone then some target
  else none

/-- The player turns, but builds in the direction that it had. -/
def handleBuild (player : PlayerId) (block : String) (direction : Int32) (skills : BuildSkills)
    (journal : WorldPos → Bool) : CellWorld :=
  match s.players player with
  | none => s
  | some p =>
    if block ∉ ["G", "R", "O", "V"] then s
    else
      let turned : CellPlayer := { p with dir := if 0 ≤ direction ∧ direction ≤ 3 then direction else p.dir }
      let t := s.setPlayer player turned
      match s.buildTarget cells p with
      | none => t
      | some target =>
        match buildPlan rules block skills (s.getCell target) (s.grid.getDurability (worldPos target)) with
        | none => t
        | some plan =>
          if p.crystals.at plan.crystal < plan.cost then t
          else
            (s.setPlayer player
              { turned with crystals := p.crystals.set plan.crystal (p.crystals.at plan.crystal - plan.cost) }).placePlan
                rules plan target skills.hp journal

/-- `apply_cell_conversions`. -/
def applyCellConversions (journal : WorldPos → Bool) : CellWorld :=
  { s with
    grid := s.conversions.foldl (fun g c =>
      if 1 < c.ticksLeft then g
      else if g.validCoord (worldPos c.pos) && g.getCell (worldPos c.pos) = c.requiredCell then
        g.writeWorldCell rules.toCellDefs (worldPos c.pos) ⟨c.targetCell, c.durability⟩ (journal c.pos)
      else g) s.grid
    conversions := (s.conversions.filter (fun c => 1 < c.ticksLeft)).map
      (fun c => { c with ticksLeft := c.ticksLeft - 1 }) }

/-! ### Items -/

def geopackItemToCell (item : Int32) : Option UInt8 :=
  if item = 11 then some 50
  else if item = 12 then some 51
  else if item = 13 then some 52
  else if item = 14 then some 53
  else if item = 15 then some 54
  else if item = 16 then some 116
  else if item = 34 then some 119
  else if item = 42 ∨ item = 43 then some 114
  else if item = 46 then some 55
  else none

def isGeopackItem (item : Int32) : Bool := (10 ≤ item && item ≤ 16) || item = 34 || item = 42 || item = 43 || item = 46

def isExemptItem (item : Int32) : Bool := item = 40 || isGeopackItem item

def aliveCellToItem (cell : UInt8) : Option Int32 :=
  if cell = 50 then some 11
  else if cell = 51 then some 12
  else if cell = 52 then some 13
  else if cell = 53 then some 14
  else if cell = 54 then some 15
  else if cell = 116 then some 16
  else if cell = 55 then some 46
  else if cell = 119 then some 34
  else if cell = 114 then some 42
  else if cell = 117 then some 43
  else none

/-- `true_empty`. -/
def trueEmpty (p : WorldPos) : Bool :=
  rules.isEmpty (s.getCell p) && (s.findPackCovering cells p).isNone && s.getCell p ∉ [0, 36, 37, 39]

def gainItem (player : PlayerId) (item : Int32) (count : Int) : CellWorld :=
  match s.players player with
  | none => s
  | some p => s.setPlayer player { p with items := Function.update p.items item (p.items item + count) }

/-- The world after the use, and whether the item was used up. -/
def useGeopack (player : PlayerId) (front : WorldPos) (item : Int32) (ok : Bool) : CellWorld × Bool :=
  match aliveCellToItem (s.getCell front) with
  | some pickupItem =>
    (gainItem { s with grid := s.grid.destroy rules.toCellDefs (worldPos front) ok } player pickupItem 1, true)
  | none =>
    if !s.trueEmpty cells rules front then (s, false)
    else
      match geopackItemToCell item with
      | none => (s, false)
      | some alive => ({ s with grid := s.grid.setCellTyped rules.toCellDefs (worldPos front) alive ok }, true)

def usePoli (front : WorldPos) (clanId : Int32) (ok : Bool) : CellWorld × Bool :=
  if s.accessGun cells front clanId && s.trueEmpty cells rules front then
    ({ s with grid := s.grid.setCellTyped rules.toCellDefs (worldPos front) polymerRoad ok }, false)
  else (s, false)

/-- A cell that a shot damages. -/
def shotHits (cell : UInt8) : Bool :=
  !isLivingCrystal cell && !isBuildingBlock cell && rules.isDiggable cell && rules.isDestructible cell

def shotPos (front : WorldPos) (dir : Int32) (i : Nat) : WorldPos :=
  (front.1 + (dirOffset dir).1 * Int32.ofNat i, front.2 + (dirOffset dir).2 * Int32.ofNat i)

def useC190 (front : WorldPos) (dir : Int32) (io : Nat → Bool) : CellWorld × Bool :=
  if s.validCoord (shotPos front dir 9) then
    ({ s with
      grid := (List.range 10).foldl (fun g i =>
        if shotHits rules (g.getCell (worldPos (shotPos front dir i))) then
          (g.damageCell rules.toFloatOps (worldPos (shotPos front dir i)) fiftyF32 (io i)).1
        else g) s.grid }, true)
  else (s, false)

def delayedConsumable (item : Int32) (center : WorldPos) (sequence : UInt64) : Option DueAction :=
  if item = 5 then some (.boom center sequence)
  else if item = 6 then some (.protector center)
  else if item = 7 then some (.raz center)
  else none

def requiresGunAccess : DueAction → Bool
  | .raz _ => false
  | _ => true

/-- What an item that works at once does. -/
def useAtOnce (player : PlayerId) (p : CellPlayer) (front : WorldPos) (io : Nat → Bool) : CellWorld × Bool :=
  if isGeopackItem p.selected then s.useGeopack cells rules player front p.selected (io 0)
  else if p.selected = 35 then s.usePoli cells rules front (p.clanId.getD 0) (io 0)
  else if p.selected = 40 then s.useC190 rules front p.dir io
  else (s, false)

/-- `handle_inventory_use_sync_nonbuilding`; the gate is the cooldown, and `reserved` tells whether
the queue of the delayed items has a place. -/
def useItem (player : PlayerId) (gatePassed reserved : Bool) (io : Nat → Bool) : CellWorld :=
  match s.players player with
  | none => s
  | some p =>
    let item := p.selected
    let front := facing p.pos p.dir
    if (buildingItem item).isSome || !gatePassed || item < 0 || p.items item ≤ 0 then s
    else if !s.validCoord front || (s.byOrigin front).isSome then s
    else if !isExemptItem item && !rules.canPlaceOver (s.getCell front) then s
    else
      match delayedConsumable item front s.nextSequence with
      | some action =>
        if !reserved || (requiresGunAccess action && !s.accessGun cells front (p.clanId.getD 0)) then s
        else gainItem { s with due := s.due ++ [action], nextSequence := s.nextSequence + 1 } player item (-1)
      | none =>
        let used := s.useAtOnce cells rules player p front io
        if used.2 then used.1.gainItem player item (-1) else used.1

/-! ### Blasts -/

def square (r : Nat) : List (Int32 × Int32) :=
  (List.range (2 * r + 1)).flatMap (fun i => (List.range (2 * r + 1)).map
    (fun j => (Int32.ofNat i - Int32.ofNat r, Int32.ofNat j - Int32.ofNat r)))

def boomCellOffsets : List (Int32 × Int32) :=
  (square 4).filter (fun d => d.1.toInt * d.1.toInt + d.2.toInt * d.2.toInt ≤ 12)

/-- The cells at the offsets; a sum that does not fit is left out. -/
def around (center : WorldPos) (offsets : List (Int32 × Int32)) : List WorldPos :=
  offsets.filterMap (fun d => (addI32 center.1 d.1).bind (fun x => (addI32 center.2 d.2).map (fun y => (x, y))))

def boomCell (rngSeed : UInt64) (journal : WorldPos → Bool) (g : CellGrid) (p : WorldPos) : CellGrid :=
  let cell := g.getCell (worldPos p)
  if !g.validCoord (worldPos p) || (s.findPackCovering cells p).isSome || !rules.isDestructible cell then g
  else if cell = redRock then
    if rules.redRockConverts rngSeed p then g.setCellTyped rules.toCellDefs (worldPos p) acidRock (journal p) else g
  else if cell = acidRock then g.setCellTyped rules.toCellDefs (worldPos p) rockCell (journal p)
  else g.destroyCellAndRoad rules.toCellDefs (worldPos p) (journal p)

def applyBoomCells (center : WorldPos) (rngSeed : UInt64) (journal : WorldPos → Bool) : CellWorld :=
  { s with grid := (around center boomCellOffsets).foldl (s.boomCell cells rules rngSeed journal) s.grid }

def protectorCell (journal : WorldPos → Bool) (g : CellGrid) (p : WorldPos) : CellGrid :=
  if g.validCoord (worldPos p) && rules.isDestructible (g.getCell (worldPos p)) &&
      (s.findPackCovering cells p).isNone then
    g.destroyCellAndRoad rules.toCellDefs (worldPos p) (journal p)
  else g

def applyProtector (center : WorldPos) (journal : WorldPos → Bool) : CellWorld :=
  { s with
    grid := (around center (square 1)).foldl (s.protectorCell cells rules journal) s.grid
    removals := s.removals ++ (around center (square 1)).filter (fun p =>
      s.validCoord p && (s.getPackAt p).any (fun view => view.packType = .gate)) }

/-- A due action is taken from the queue; the third kind damages buildings only. -/
def applyDue (i : Nat) (journal : WorldPos → Bool) : CellWorld :=
  match s.due[i]? with
  | none => s
  | some action =>
    let t := { s with due := s.due.eraseIdx i }
    match action with
    | .boom center rngSeed => t.applyBoomCells cells rules center rngSeed journal
    | .protector center => t.applyProtector cells rules center journal
    | .raz _ => t

/-! ### Boxes -/

def putBoxCell (p : WorldPos) (crystals : Crystals) (ok : Bool) : CellWorld :=
  { s with
    grid := s.grid.setCellTyped rules.toCellDefs (worldPos p) boxCell ok
    boxes := Function.update s.boxes p (some crystals) }

def removeBoxCell (p : WorldPos) (ok : Bool) : CellWorld × Option Crystals :=
  match s.boxes p with
  | none => (s, none)
  | some crystals =>
    ({ s with
      boxes := Function.update s.boxes p none
      grid := (s.grid.damageCell rules.toFloatOps (worldPos p) oneF32 ok).1 }, some crystals)

/-- The four cells beside one, in the order of the search. -/
def neighbors (p : WorldPos) : List WorldPos :=
  [(p.1, p.2 + 1), (p.1 + 1, p.2), (p.1 - 1, p.2), (p.1, p.2 - 1)]

/-- The search of `pick_box_coord`, with the iterations that are left. -/
def searchBoxCoord (valid free : WorldPos → Bool) : Nat → List WorldPos → List WorldPos → Option WorldPos
  | 0, _, _ => none
  | _ + 1, [], _ => none
  | n + 1, p :: queue, visited =>
    let near := (neighbors p).filter valid
    match near.find? free with
    | some q => some q
    | none => searchBoxCoord valid free n (queue ++ near.filter (· ∉ visited)) (visited ++ near)

/-- A free cell near by, or the cell itself where none is found. -/
def pickBoxCoord (valid free : WorldPos → Bool) (p : WorldPos) : Option WorldPos :=
  if valid p && free p then some p
  else (searchBoxCoord valid free 100 [p] [p]).or (if valid p then some p else none)

/-- The place for the box of a player that dies, when no building covers it. -/
def deathBoxCoord (pos : WorldPos) : Option WorldPos :=
  (pickBoxCoord s.validCoord (fun p => rules.isEmpty (s.getCell p) && rules.canPlaceOver (s.getCell p)) pos).filter
    (fun p => (s.findPackCovering cells p).isNone)

/-- The crystals of a player that dies go into a box, or nowhere. -/
def deathDrop (player : PlayerId) (ok : Bool) : CellWorld :=
  match s.players player with
  | none => s
  | some p =>
    if 0 < (List.ofFn p.crystals).foldl (· + ·) 0 then
      let t := s.setPlayer player { p with crystals := fun _ => 0 }
      match s.deathBoxCoord cells rules p.pos with
      | some q => t.putBoxCell rules q p.crystals ok
      | none => t
    else s

/-- A player on a box gets it like one that digs it. -/
def standOnBox (player : PlayerId) : CellWorld :=
  match s.players player with
  | none => s
  | some p =>
    if s.getCell p.pos = boxCell then { s with pickups := s.pickups ++ [⟨player, p.pos, p.pos⟩] } else s

/-- The intents are handled in order; the session of a dig must still be there. -/
def applyBoxPickup (sameSession ok : Bool) : CellWorld :=
  match s.pickups with
  | [] => s
  | intent :: rest =>
    let t := { s with pickups := rest }
    match s.players intent.player with
    | none => t
    | some p =>
      if p.pos = intent.playerPos ∧ sameSession = true ∧ s.getCell intent.boxPos = boxCell then
        match t.removeBoxCell rules intent.boxPos ok with
        | (u, none) => u
        | (u, some picked) =>
          u.setPlayer intent.player
            { p with crystals := fun i => saturatingAdd (p.crystals i) (picked i) }
      else t

/-! ### Buildings -/

def placeBuilding (config : BuildingsConfig) (b : BuildingEntity) (journal : WorldPos → Bool) : CellWorld :=
  if (footprint config.cells b.view).all (fun d => s.validCoord d.1) && (config.config b.view.packType).isSome then
    { s with
      toBuildingIndex := s.toBuildingIndex.spawnBuilding b
      grid := PlacementWorld.placeBuildingFootprint config rules.toCellDefs b.view journal s.grid }
  else s

/-- A building goes with its footprint, and leaves a box with the contents that the request found. -/
def removeBuildingAt (entity : EntityId) (contents : Option Crystals) (journal : WorldPos → Bool) (boxOk : Bool) :
    CellWorld :=
  match s.entities entity with
  | none => s
  | some b =>
    match s.toBuildingIndex.removeBuilding b.view entity with
    | none => s
    | some index =>
      let t := { s with
        toBuildingIndex := index
        grid := BuildingWorld.clearBuildingFootprint cells rules.toCellDefs b.view journal s.grid }
      match contents with
      | none => t
      | some crystals => t.putBoxCell rules b.view.origin crystals boxOk

/-- A building keeps its place and its kind, whatever else becomes of it. -/
def updateBuilding (entity : EntityId) (b : BuildingEntity) : CellWorld :=
  match s.entities entity with
  | none => s
  | some old =>
    if b.view.origin = old.view.origin ∧ b.view.packType = old.view.packType then
      { s with toBuildingIndex := s.toBuildingIndex.setEntity entity (some b) }
    else s

/-! ### Everything else -/

/-- What falls, grows, is cleared by those who stand there or come back there, or is picked up and put
down by geology: it comes where no box is, and it is no box itself. -/
def writeOther (p : WorldPos) (foreground road : UInt8) (durability : UInt32) : CellWorld :=
  if s.validCoord p = true ∧ s.getCell p ≠ boxCell ∧ foreground ≠ boxCell ∧ road ≠ boxCell then
    { s with grid := s.grid.put (worldPos p) foreground road durability }
  else s

end CellWorld

inductive CellEvent
  | dig (player : PlayerId) (dir : Int32) (hit : UInt32) (mined : Int) (journal pushed : WorldPos → Bool)
  | build (player : PlayerId) (block : String) (direction : Int32) (skills : BuildSkills) (journal : WorldPos → Bool)
  | convert (journal : WorldPos → Bool)
  | useItem (player : PlayerId) (gatePassed reserved : Bool) (io : Nat → Bool)
  | due (i : Nat) (journal : WorldPos → Bool)
  | death (player : PlayerId) (ok : Bool)
  | stand (player : PlayerId)
  | pickup (sameSession ok : Bool)
  | place (b : BuildingEntity) (journal : WorldPos → Bool)
  | remove (entity : EntityId) (contents : Option Crystals) (journal : WorldPos → Bool) (boxOk : Bool)
  | update (entity : EntityId) (b : BuildingEntity)
  | write (p : WorldPos) (foreground road : UInt8) (durability : UInt32)
  /-- moves, logins, and what players get and lose elsewhere -/
  | players (players : PlayerId → Option CellPlayer)

namespace CellWorld

variable (config : BuildingsConfig) (rules : CellRules)

def step (s : CellWorld) : CellEvent → CellWorld
  | .dig player dir hit mined journal pushed => s.handleDig rules player dir hit mined journal pushed
  | .build player block direction skills journal => s.handleBuild config.cells rules player block direction skills journal
  | .convert journal => s.applyCellConversions rules journal
  | .useItem player gatePassed reserved io => s.useItem config.cells rules player gatePassed reserved io
  | .due i journal => s.applyDue config.cells rules i journal
  | .death player ok => s.deathDrop config.cells rules player ok
  | .stand player => s.standOnBox player
  | .pickup sameSession ok => s.applyBoxPickup rules sameSession ok
  | .place b journal => s.placeBuilding rules config b journal
  | .remove entity contents journal boxOk => s.removeBuildingAt config.cells rules entity contents journal boxOk
  | .update entity b => s.updateBuilding entity b
  | .write p foreground road durability => s.writeOther p foreground road durability
  | .players players => { s with players := players }

def run (s : CellWorld) (es : List CellEvent) : CellWorld := es.foldl (step config rules) s

end CellWorld

end OpenMines

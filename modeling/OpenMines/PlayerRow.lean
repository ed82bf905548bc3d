namespace OpenMines

abbrev SessionId := Nat

abbrev PlayerId := Int32

abbrev Entity := Nat

structure SkillEntry where
  code : String
  level : Int32
  exp : UInt32
  deriving DecidableEq

structure SkillSlots where
  skills : List (Int32 × SkillEntry)
  totalSlots : Int32
  deriving DecidableEq

structure ProgramRow where
  id : Int32
  playerId : PlayerId
  name : String
  code : String
  deriving DecidableEq

/-- A row of the table of players, the selected program joined to it. -/
structure PlayerRow where
  id : PlayerId
  name : String
  passwd : String
  hash : String
  x : Int32
  y : Int32
  dir : Int32
  health : Int32
  maxHealth : Int32
  money : Int64
  creds : Int64
  skin : Int32
  autoDig : Bool
  aggression : Bool
  crystals : Vector Int64 6
  clanId : Option Int32
  respX : Option Int32
  respY : Option Int32
  inventory : List (Int32 × Int32)
  skills : SkillSlots
  role : Int32
  selectedProgramId : Option Int32
  selectedProgram : Option ProgramRow
  programmatorRunning : Bool
  programmatorSnapshot : Option String
  clanRank : Int32
  lastBonusAt : Int64
  deriving DecidableEq

namespace PlayerRow

/-- `Role::from_db`, as the number of the role. -/
def asRole (row : PlayerRow) : Int32 := if row.role = 2 ∨ row.role = 1 then row.role else 0

/-- `ClanRank::from_db`, as the number of the rank. -/
def asClanRank (row : PlayerRow) : Int32 :=
  if row.clanRank = 100 ∨ row.clanRank = 50 ∨ row.clanRank = 10 then row.clanRank else 0

end PlayerRow

/-- What the login and the logout use of a programmator, and the maximal health that
the skills give. -/
structure PlayerOps (P : Type) where
  newProgrammator : P
  select : P → ProgramRow → P
  restoreSnapshot : P → String → P
  runProgram : P → String → P
  running : P → Bool
  selectedId : P → Option Int32
  snapshot : P → Option String
  onHealthMax : SkillSlots → Int32

/-- The saved components of a player's entity, and its connection. -/
structure PlayerEntity (P : Type) where
  id : PlayerId
  name : String
  passwd : String
  hash : String
  respX : Option Int32
  respY : Option Int32
  x : Int32
  y : Int32
  dir : Int32
  connection : Option SessionId
  health : Int32
  maxHealth : Int32
  money : Int64
  creds : Int64
  crystals : Vector Int64 6
  role : Int32
  skin : Int32
  clanId : Option Int32
  clanRank : Int32
  lastBonusAt : Int64
  inventory : List (Int32 × Int32)
  skills : SkillSlots
  programmator : P
  autoDig : Bool
  aggression : Bool
  dirty : Bool
  incarnation : SessionId

variable {P : Type}

def extractPlayerRow (ops : PlayerOps P) (c : PlayerEntity P) : PlayerRow :=
  { id := c.id
    name := c.name
    passwd := c.passwd
    hash := c.hash
    x := c.x
    y := c.y
    dir := c.dir
    health := c.health
    maxHealth := c.maxHealth
    money := c.money
    creds := c.creds
    skin := c.skin
    autoDig := c.autoDig
    aggression := c.aggression
    crystals := c.crystals
    clanId := c.clanId
    respX := c.respX
    respY := c.respY
    inventory := c.inventory
    skills := c.skills
    role := c.role
    selectedProgramId := ops.selectedId c.programmator
    selectedProgram := none
    programmatorRunning := ops.running c.programmator
    programmatorSnapshot := ops.snapshot c.programmator
    clanRank := c.clanRank
    lastBonusAt := c.lastBonusAt }

/-- The programmator of a player whose row is loaded. -/
def loadProgrammator (ops : PlayerOps P) (row : PlayerRow) : P :=
  let p := match row.selectedProgram with
    | some program => ops.select ops.newProgrammator program
    | none => ops.newProgrammator
  match row.programmatorSnapshot, row.selectedProgram with
  | some snapshot, _ => ops.restoreSnapshot p snapshot
  | none, some program => if row.programmatorRunning then ops.runProgram p program.code else p
  | none, none => p

/-- The entity that a login spawns. -/
def spawnPlayer (ops : PlayerOps P) (row : PlayerRow) (session : SessionId) : PlayerEntity P :=
  let maxHealth := ops.onHealthMax row.skills
  { id := row.id
    name := row.name
    passwd := row.passwd
    hash := row.hash
    respX := row.respX
    respY := row.respY
    x := row.x
    y := row.y
    dir := row.dir
    connection := some session
    health := if row.health ≤ 0 then maxHealth else row.health
    maxHealth
    money := row.money
    creds := row.creds
    crystals := row.crystals
    role := row.asRole
    skin := row.skin
    clanId := row.clanId
    clanRank := row.asClanRank
    lastBonusAt := row.lastBonusAt
    inventory := row.inventory
    skills := row.skills
    programmator := loadProgrammator ops row
    autoDig := row.autoDig
    aggression := row.aggression
    dirty := false
    incarnation := session }

end OpenMines

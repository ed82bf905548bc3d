import OpenMines.Lib.WriteBehind
import OpenMines.PlayerComponents

namespace OpenMines

open Lib.WriteBehind

/-- What a player has, that a login is to give back to it. -/
structure Holdings where
  money : Int64
  creds : Int64
  crystals : Vector Int64 6
  x : Int32
  y : Int32
  health : Int32
  skills : SkillSlots
  inventory : List (Int32 × Int32)
  clanId : Option Int32
  clanRank : Int32
  deriving DecidableEq

def PlayerEntity.holdings {P : Type} (c : PlayerEntity P) : Holdings where
  money := c.money
  creds := c.creds
  crystals := c.crystals
  x := c.x
  y := c.y
  health := c.health
  skills := c.skills
  inventory := c.inventory
  clanId := c.clanId
  clanRank := c.clanRank

namespace PlayerRow

def holdings (row : PlayerRow) : Holdings where
  money := row.money
  creds := row.creds
  crystals := row.crystals
  x := row.x
  y := row.y
  health := row.health
  skills := row.skills
  inventory := row.inventory
  clanId := row.clanId
  clanRank := row.clanRank

def withHoldings (row : PlayerRow) (h : Holdings) : PlayerRow :=
  { row with
    money := h.money
    creds := h.creds
    crystals := h.crystals
    x := h.x
    y := h.y
    health := h.health
    skills := h.skills
    inventory := h.inventory
    clanId := h.clanId
    clanRank := h.clanRank }

/-- The columns that no save of a player writes are those of another row. -/
def withColumns (row other : PlayerRow) : PlayerRow :=
  { row with
    name := other.name
    hash := other.hash
    role := other.role
    selectedProgramId := other.selectedProgramId
    selectedProgram := other.selectedProgram }

@[simp] theorem holdings_withHoldings (row : PlayerRow) (h : Holdings) : (row.withHoldings h).holdings = h := rfl

@[simp] theorem holdings_withColumns (row other : PlayerRow) : (row.withColumns other).holdings = row.holdings := rfl

@[simp] theorem id_withHoldings (row : PlayerRow) (h : Holdings) : (row.withHoldings h).id = row.id := rfl

@[simp] theorem id_withColumns (row other : PlayerRow) : (row.withColumns other).id = row.id := rfl

end PlayerRow

@[simp] theorem holdings_extractPlayerRow {P : Type} (ops : PlayerOps P) (c : PlayerEntity P) :
    (extractPlayerRow ops c).holdings = c.holdings := rfl

/-- A login takes a row as it is, but for a health that is none and a rank that is not one. -/
theorem holdings_spawnPlayer {P : Type} (ops : PlayerOps P) (row : PlayerRow) (session : SessionId) :
    (spawnPlayer ops row session).holdings =
      { row.holdings with
        health := if row.health ≤ 0 then ops.onHealthMax row.skills else row.health
        clanRank := row.asClanRank } := rfl

/-- What waits for the persistence worker: the row of a player, or a command of another kind. -/
inductive RowSave
  | player (row : PlayerRow)
  | other
  deriving DecidableEq

def RowSave.write : RowSave → Option (PlayerId × Option Holdings)
  | .player row => some (row.id, some row.holdings)
  | .other => none

/-- The players as the table and as the game have them. `ledger` is for the proofs alone: what a player had when it was
in the game last, and what has been done to its row since. -/
structure RelogServer (P : Type) where
  game : GameState P
  rows : PlayerId → Option PlayerRow
  queue : List RowSave
  /-- the rows that logins have read -/
  logins : List PlayerRow
  ledger : PlayerId → Option Holdings

inductive RelogEvent (P : Type)
  /-- A new player is registered. -/
  | create (row : PlayerRow)
  | readRow (player : PlayerId)
  /-- The login with the row at an index. -/
  | connect (hub : SessionHub) (i : Nat) (session : SessionId) (now : Nat)
  | disconnect (player : PlayerId) (session : SessionId) (now : Nat)
  /-- The game changes a player: a command, or a completion that comes to it. -/
  | change (player : PlayerId) (f : PlayerEntity P → PlayerEntity P)
  /-- The snapshot of a player that is marked. -/
  | flush (player : PlayerId) (now : Nat)
  /-- A command saves the player along with what it did. -/
  | save (player : PlayerId) (now : Nat)
  | request
  /-- The worker carries out the command at the head. One of another kind does to each row what is given. -/
  | persist (effect : PlayerId → Holdings → Holdings)
  /-- The store fails, and the worker waits. -/
  | retry
  /-- The table is written past the queue. -/
  | write (effect : PlayerId → Holdings → Holdings)
  | columns (player : PlayerId) (other : PlayerRow)

/-- The player is active, and has an entity. -/
def GameState.plays {P : Type} (g : GameState P) (player : PlayerId) : Bool :=
  (g.activePlayers player).isSome && (g.playerComponent player).isSome

namespace RelogServer

variable {P : Type} (ops : Nat → PlayerOps P) (s : RelogServer P)

/-- Nobody plays yet. -/
def opened (rows : PlayerId → Option PlayerRow) : RelogServer P where
  game := .new
  rows p := (rows p).map fun row => { row with id := p }
  queue := []
  logins := []
  ledger p := (rows p).map PlayerRow.holdings

def create (row : PlayerRow) : Option (RelogServer P) :=
  if s.rows row.id = none then
    some { s with
      rows := Function.update s.rows row.id (some row)
      ledger := Function.update s.ledger row.id (some row.holdings) }
  else none

def disconnect (player : PlayerId) (session : SessionId) (now : Nat) : RelogServer P :=
  let (game, row) := s.game.disconnectInTick (ops now) player session
  { s with game, queue := s.queue ++ row.toList.map .player }

def change (player : PlayerId) (f : PlayerEntity P → PlayerEntity P) : RelogServer P :=
  match s.game.playerComponent player with
  | some (_, c) =>
    { s with
      game := s.game.modifyPlayer player fun c =>
        { f c with id := c.id, connection := c.connection, incarnation := c.incarnation }
      ledger := Function.update s.ledger player (some (f c).holdings) }
  | none => s

/-- `snapshot_dirty_player_in_ecs`. -/
def flush (player : PlayerId) (now : Nat) : RelogServer P :=
  match s.game.playerComponent player with
  | some (_, c) =>
    if c.dirty then
      { s with
        game := s.game.modifyPlayer player fun c => { c with dirty := false }
        queue := s.queue ++ [.player (extractPlayerRow (ops now) c)] }
    else s
  | none => s

def save (player : PlayerId) (now : Nat) : RelogServer P :=
  match s.game.playerComponent player with
  | some (_, c) => { s with queue := s.queue ++ [.player (extractPlayerRow (ops now) c)] }
  | none => s

/-- Rows are changed in the table. To those that play it comes with a completion, which is a change of the game. -/
def affect (effect : PlayerId → Holdings → Holdings) : RelogServer P :=
  { s with
    rows := fun p => (s.rows p).map fun row => row.withHoldings (effect p row.holdings)
    ledger := fun p => if s.game.plays p then s.ledger p else (s.ledger p).map (effect p) }

/-- The worker carries out the head of its queue. A save without a row to write to is tried again for ever. -/
def persist (effect : PlayerId → Holdings → Holdings) : Option (RelogServer P) :=
  match s.queue with
  | [] => none
  | .player saved :: rest =>
    (s.rows saved.id).map fun row =>
      { s with rows := Function.update s.rows saved.id (some (saved.withColumns row)), queue := rest }
  | .other :: rest => some { s.affect effect with queue := rest }

def step : RelogEvent P → Option (RelogServer P)
  | .create row => s.create row
  | .readRow player => (s.rows player).map fun row => { s with logins := s.logins ++ [row] }
  | .connect hub i session now =>
    s.logins[i]?.map fun row =>
      { s with
        game := s.game.connectEntityInTick (ops now) hub row session
        logins := s.logins.eraseIdx i }
  | .disconnect player session now => some (s.disconnect ops player session now)
  | .change player f => some (s.change player f)
  | .flush player now => some (s.flush ops player now)
  | .save player now => some (s.save ops player now)
  | .request => some { s with queue := s.queue ++ [.other] }
  | .persist effect => s.persist effect
  | .retry => some s
  | .write effect => some (s.affect effect)
  | .columns player other =>
    some { s with rows := Function.update s.rows player ((s.rows player).map fun row => row.withColumns other) }

/-- Who plays has what it had when it was in the game last, and what has been done to its row since. -/
def Consistent : Prop := ∀ player entity c, s.game.playerComponent player = some (entity, c) →
  s.ledger player = some c.holdings

/-- The saves that wait. -/
def saves (queue : List RowSave) : List (PlayerId × Option Holdings) := queue.filterMap RowSave.write

/-- A player as it was saved last, in the queue or in the table. -/
def saved (player : PlayerId) : Option Holdings :=
  latest (fun p => (s.rows p).map PlayerRow.holdings) (saves s.queue) player

/-- Of who does not play the row is changed only where no entity of its is there, and no save of it waits. -/
def Settled (effect : PlayerId → Holdings → Holdings) (queue : List RowSave) : Prop :=
  ∀ player, s.game.plays player = false → (∀ h, effect player h = h) ∨
    s.game.playerComponent player = none ∧ pending (saves queue) player = []

/-- The conditions on a step under which each login gets what the player had. -/
def Fair : RelogEvent P → Prop
  | .connect hub i session _ => hub.isOpen session = true → ∀ row ∈ s.logins[i]?,
      s.game.playerComponent row.id = none →
        s.saved row.id = some row.holdings ∧ 0 < row.health ∧ row.asClanRank = row.clanRank
  | .persist effect => ∀ rest, s.queue = .other :: rest → s.Settled effect rest
  | .write effect => s.Settled effect s.queue
  | _ => True

end RelogServer

end OpenMines

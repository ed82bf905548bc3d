import Mathlib.Algebra.BigOperators.Group.List.Basic
import OpenMines.PlayerComponents

namespace OpenMines

open Lib.CheckedInt Lib.Run

/-- What the persistence worker has to write: the row of a player, or money for all. -/
inductive MoneySave
  | player (row : PlayerRow)
  | adminMoneyAll (amount : Int64)

/-- Money that all the rows have got, but not yet the players in the game. `known` is for the proofs alone: who had a
row then. -/
structure AppliedMoneyAll where
  amount : Int64
  known : PlayerId → Bool

/-- The players as the table and as the game have them. The last two fields are for the proofs alone: what a player came
with and has made in the game, and what was granted to it. -/
structure MoneyServer (P : Type) where
  game : GameState P
  rows : PlayerId → Option PlayerRow
  queue : List MoneySave
  completions : List AppliedMoneyAll
  /-- the rows that logins have read -/
  logins : List PlayerRow
  earned : PlayerId → Int
  granted : PlayerId → Int

inductive MoneyEvent (P : Type)
  /-- A new player is registered. -/
  | create (row : PlayerRow)
  | readRow (player : PlayerId)
  /-- The login with the row at an index. -/
  | connect (hub : SessionHub) (i : Nat) (session : SessionId) (now : Nat)
  | disconnect (player : PlayerId) (session : SessionId) (now : Nat)
  /-- The game changes a player, its money too, and marks it for the next snapshot. -/
  | change (player : PlayerId) (f : PlayerEntity P → PlayerEntity P)
  /-- The snapshot of a player that is marked. -/
  | flush (player : PlayerId) (now : Nat)
  /-- A command saves the player along with what it did: `RespProfit`, `ChargeFill`, `AdminSkill`. -/
  | save (player : PlayerId) (now : Nat)
  | moneyAll (amount : Int64)
  | persist
  | complete

/-- `UPDATE players SET money = money + ?1`. A sum that is not in the range of the column would become a `REAL`. -/
def PlayerRow.addMoney (amount : Int64) (row : PlayerRow) : PlayerRow :=
  { row with money := Int64.ofInt (row.money.toInt + amount.toInt) }

/-- The columns of a row that a save does not write stay. -/
def PlayerRow.overwrite (saved row : PlayerRow) : PlayerRow :=
  { saved with
    name := row.name
    hash := row.hash
    role := row.role
    selectedProgramId := row.selectedProgramId
    selectedProgram := row.selectedProgram }

namespace GameState

variable {P : Type}

/-- The player is active, and its entity is that of a connection. -/
def isOnline (g : GameState P) (player : PlayerId) : Bool :=
  (g.activePlayers player).isSome && (g.playerComponent player).any fun component => component.2.connection.isSome

/-- The loop of the completion over `active_player_ids`. -/
def creditOnline (g : GameState P) (amount : Int64) : GameState P :=
  { g with
    ecs := fun entity => (g.ecs entity).map fun c =>
      if g.playerEntities c.id = some entity ∧ g.isOnline c.id = true then
        { c with money := saturatingAddI64 c.money amount, dirty := true }
      else c }

end GameState

namespace MoneyServer

variable {P : Type} (ops : Nat → PlayerOps P) (s : MoneyServer P)

/-- Nobody plays yet. -/
def opened (rows : PlayerId → Option PlayerRow) : MoneyServer P where
  game := .new
  rows p := (rows p).map fun row => { row with id := p }
  queue := []
  completions := []
  logins := []
  earned p := ((rows p).map fun row => row.money.toInt).getD 0
  granted _ := 0

def create (row : PlayerRow) : Option (MoneyServer P) :=
  if s.rows row.id = none then
    some { s with
      rows := Function.update s.rows row.id (some row)
      earned := Function.update s.earned row.id row.money.toInt
      granted := Function.update s.granted row.id 0 }
  else none

def disconnect (player : PlayerId) (session : SessionId) (now : Nat) : MoneyServer P :=
  let (game, row) := s.game.disconnectInTick (ops now) player session
  { s with game, queue := s.queue ++ row.toList.map .player }

def change (player : PlayerId) (f : PlayerEntity P → PlayerEntity P) : MoneyServer P :=
  match s.game.playerComponent player with
  | some (_, c) =>
    { s with
      game := s.game.modifyPlayer player fun c =>
        { f c with id := c.id, connection := c.connection, incarnation := c.incarnation, dirty := true }
      earned := Function.update s.earned player (s.earned player + ((f c).money.toInt - c.money.toInt)) }
  | none => s

/-- `snapshot_dirty_player_in_ecs`. -/
def flush (player : PlayerId) (now : Nat) : MoneyServer P :=
  match s.game.playerComponent player with
  | some (_, c) =>
    if c.dirty then
      { s with
        game := s.game.modifyPlayer player fun c => { c with dirty := false }
        queue := s.queue ++ [.player (extractPlayerRow (ops now) c)] }
    else s
  | none => s

def save (player : PlayerId) (now : Nat) : MoneyServer P :=
  match s.game.playerComponent player with
  | some (_, c) => { s with queue := s.queue ++ [.player (extractPlayerRow (ops now) c)] }
  | none => s

/-- The worker writes the head of its queue. A save without a row to write to is tried again for ever. -/
def persist : Option (MoneyServer P) :=
  match s.queue with
  | [] => none
  | .player saved :: rest =>
    (s.rows saved.id).map fun row =>
      { s with rows := Function.update s.rows saved.id (some (saved.overwrite row)), queue := rest }
  | .adminMoneyAll amount :: rest =>
    some { s with
      rows := fun p => (s.rows p).map (.addMoney amount)
      queue := rest
      completions := s.completions ++ [⟨amount, fun p => (s.rows p).isSome⟩]
      granted := fun p => if (s.rows p).isSome then s.granted p + amount.toInt else s.granted p }

/-- The completion is applied. A player that came after the grant gets the money too, which counts as earned. -/
def complete : Option (MoneyServer P) :=
  match s.completions with
  | [] => none
  | grant :: rest =>
    some { s with
      game := s.game.creditOnline grant.amount
      completions := rest
      earned := fun p =>
        if s.game.isOnline p = true ∧ grant.known p = false then s.earned p + grant.amount.toInt else s.earned p }

def step : MoneyEvent P → Option (MoneyServer P)
  | .create row => s.create row
  | .readRow player => (s.rows player).map fun row => { s with logins := s.logins ++ [row] }
  | .connect hub i session now =>
    s.logins[i]?.map fun row =>
      { s with
        game := s.game.connectEntityInTick (ops now) hub row session
        logins := s.logins.eraseIdx i }
  | .disconnect player session now => some (s.disconnect ops player session now)
  | .change player f => some (s.change player f)
  | .flush player now => some (s.flush ops player now)
  | .save player now => some (s.save ops player now)
  | .moneyAll amount => some { s with queue := s.queue ++ [.adminMoneyAll amount] }
  | .persist => s.persist
  | .complete => s.complete

/-- The rows of a player that wait to be written. -/
def queuedRows (queue : List MoneySave) (player : PlayerId) : List PlayerRow :=
  queue.filterMap fun save =>
    match save with
    | .player row => if row.id = player then some row else none
    | .adminMoneyAll _ => none

/-- The money of a player as it was saved last. -/
def savedMoney (player : PlayerId) : Int :=
  match (queuedRows s.queue player).getLast? with
  | some row => row.money.toInt
  | none => ((s.rows player).map fun row => row.money.toInt).getD 0

/-- The money of a player: in the game, else as it was saved last. -/
def holding (player : PlayerId) : Int :=
  match s.game.playerComponent player with
  | some (_, c) => c.money.toInt
  | none => s.savedMoney player

/-- What the completions that wait still have to give to a player. -/
def awaited (player : PlayerId) : Int :=
  ((s.completions.filter fun grant => grant.known player).map fun grant => grant.amount.toInt).sum

/-- All that there is to save of a player is written. -/
def Written (player : PlayerId) : Prop :=
  queuedRows s.queue player = [] ∧ ∀ entity c, s.game.playerComponent player = some (entity, c) → c.dirty = false

/-- The conditions on a step under which it gives each grant once. -/
def Fair : MoneyEvent P → Prop
  | .connect hub i session _ => hub.isOpen session = true → ∀ row ∈ s.logins[i]?,
      match s.game.playerComponent row.id with
      | some (_, c) => c.dirty = false ∨ s.completions ≠ []
      | none => row.money.toInt + s.awaited row.id = s.savedMoney row.id
  | .disconnect player session _ => s.completions = [] ∨ s.game.activePlayerEntityForSession player session = none
  | .persist => ∀ amount rest, s.queue = .adminMoneyAll amount :: rest → ∀ p row, s.rows p = some row →
      if (s.game.playerComponent p).isSome then s.game.isOnline p = true
      else queuedRows rest p = [] ∧ FitsI64 (row.money.toInt + amount.toInt)
  | .complete => ∀ grant ∈ s.completions.head?, ∀ p entity c, s.game.playerComponent p = some (entity, c) →
      s.game.isOnline p = true → FitsI64 (c.money.toInt + grant.amount.toInt)
  | _ => True

end MoneyServer

end OpenMines

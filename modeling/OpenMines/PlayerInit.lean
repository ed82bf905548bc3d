import OpenMines.PlayerComponents
import OpenMines.SessionTeardown

namespace OpenMines

/-- What a client is shown first. The label of the collected cell, the chat and the visible chunks are left out. -/
structure PlayerInitView where
  player : PlayerRow
  maxHealth : Int32
  skills : SkillSlots
  inventory : List (Int32 × Int32)
  chunkX : Nat
  chunkY : Nat
  dir : UInt8
  skin : UInt8
  clanIdU16 : UInt16
  progRunning : Bool

section View

variable {P : Type} (ops : PlayerOps P) (c : PlayerEntity P) (row : PlayerRow)

def extractInitView : PlayerInitView :=
  { player := row
    maxHealth := c.maxHealth
    skills := c.skills
    inventory := c.inventory
    chunkX := c.x.toInt.toNat / 32
    chunkY := c.y.toInt.toNat / 32
    dir := c.dir.toInt8.toUInt8
    skin := c.skin.toInt8.toUInt8
    clanIdU16 := UInt16.ofNat (min (c.clanId.getD 0).toInt.toNat 65535)
    progRunning := ops.running c.programmator }

/-- The row shows the position, the health, the money, the crystals and the clan of an entity. -/
structure PlayerRow.Shows : Prop where
  x : row.x = c.x
  y : row.y = c.y
  health : row.health = c.health
  money : row.money = c.money
  creds : row.creds = c.creds
  crystals : row.crystals = c.crystals
  clanId : row.clanId = c.clanId

/-- What a view sends agrees with the components of an entity. -/
def PlayerInitView.Agrees (view : PlayerInitView) : Prop := view.player.Shows c

/-- A row that is extracted from the entity, as `connect_entity_in_tick_inner` does before it lets go of it. -/
theorem shows_extractPlayerRow : (extractPlayerRow ops c).Shows c := ⟨rfl, rfl, rfl, rfl, rfl, rfl, rfl⟩

/-- A new entity is what the row says, but for the health of who has none. -/
theorem shows_spawnPlayer (session : SessionId) : row.Shows (spawnPlayer ops row session) ↔
    (row.health ≤ 0 → row.health = ops.onHealthMax row.skills) := by
  constructor
  · intro h hdead
    exact h.health.trans (if_pos hdead)
  · intro h
    refine ⟨rfl, rfl, ?_, rfl, rfl, rfl, rfl⟩
    rw [spawnPlayer]
    split
    · rename_i hdead
      exact h hdead
    · rfl

end View

namespace GameState

variable {P : Type} (ops : PlayerOps P) (hub : SessionHub) (g : GameState P) (row : PlayerRow) (session : SessionId)

/-- `connect_entity_in_tick` sends the view of the entity with which the player is connected. -/
def initView : Option PlayerInitView :=
  if hub.isOpen session then
    ((g.connectEntityInTick ops hub row session).playerComponent row.id).map fun component =>
      extractInitView ops component.2 row
  else none

/-- The row is as new as the entity: of an entity that is there, or of one that is spawned from the row. -/
def RowCurrent : Prop :=
  match g.playerComponent row.id with
  | some component => row.Shows component.2
  | none => row.health ≤ 0 → row.health = ops.onHealthMax row.skills

end GameState

end OpenMines

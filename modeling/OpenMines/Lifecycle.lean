import OpenMines.SessionHub

namespace OpenMines

structure ActivePlayer where
  ecsEntity : Entity
  sessionId : SessionId
  deriving DecidableEq

/-- Who plays, and the entities of the players. -/
structure GameState (P : Type) where
  activePlayers : PlayerId → Option ActivePlayer
  playerEntities : PlayerId → Option Entity
  ecs : Entity → Option (PlayerEntity P)
  nextEntity : Entity

inductive LifecycleCommand
  | connect (row : PlayerRow)
  | disconnect
  deriving DecidableEq

structure QueuedLifecycle where
  playerId : PlayerId
  sessionId : SessionId
  command : LifecycleCommand
  deriving DecidableEq

namespace GameState

variable {P : Type}

def new : GameState P :=
  { activePlayers := fun _ => none, playerEntities := fun _ => none, ecs := fun _ => none, nextEntity := 0 }

def removeActivePlayer (g : GameState P) (player : PlayerId) : GameState P :=
  { g with activePlayers := Function.update g.activePlayers player none }

def registerActivePlayer (g : GameState P) (player : PlayerId) (entity : Entity) (session : SessionId) :
    GameState P :=
  { g with activePlayers := Function.update g.activePlayers player (some ⟨entity, session⟩) }

def registerPlayerEntity (g : GameState P) (player : PlayerId) (entity : Entity) : GameState P :=
  { g with playerEntities := Function.update g.playerEntities player (some entity) }

def unregisterPlayerEntity (g : GameState P) (player : PlayerId) : GameState P :=
  { g with playerEntities := Function.update g.playerEntities player none }

def activeSession (g : GameState P) (player : PlayerId) : Option SessionId :=
  (g.activePlayers player).map ActivePlayer.sessionId

def activePlayerEntityForSession (g : GameState P) (player : PlayerId) (session : SessionId) :
    Option Entity :=
  match g.activePlayers player with
  | none => none
  | some active => if active.sessionId = session then some active.ecsEntity else none

def spawn (g : GameState P) (c : PlayerEntity P) : GameState P × Entity :=
  ({ g with ecs := Function.update g.ecs g.nextEntity (some c), nextEntity := g.nextEntity + 1 },
   g.nextEntity)

def despawn (g : GameState P) (entity : Entity) : GameState P :=
  { g with ecs := Function.update g.ecs entity none }

def modifyEntity (g : GameState P) (entity : Entity) (f : PlayerEntity P → PlayerEntity P) :
    GameState P :=
  { g with ecs := Function.update g.ecs entity ((g.ecs entity).map f) }

/-- A login to a player whose entity is still there. -/
def reuseEntity (g : GameState P) (row : PlayerRow) (session : SessionId) (entity : Entity) :
    GameState P :=
  (g.modifyEntity entity (fun c =>
    { c with connection := some session, incarnation := session, dirty := false, role := row.role })
  ).registerActivePlayer row.id entity session

def spawnEntity (ops : PlayerOps P) (g : GameState P) (row : PlayerRow) (session : SessionId) :
    GameState P :=
  let (g, entity) := g.spawn (spawnPlayer ops row session)
  (g.registerActivePlayer row.id entity session).registerPlayerEntity row.id entity

def connectEntityInTick (ops : PlayerOps P) (hub : SessionHub) (g : GameState P) (row : PlayerRow)
    (session : SessionId) : GameState P :=
  if hub.isOpen session then
    let g := g.removeActivePlayer row.id
    match g.playerEntities row.id with
    | none => g.spawnEntity ops row session
    | some entity =>
      match g.ecs entity with
      | none => (g.unregisterPlayerEntity row.id).spawnEntity ops row session
      | some _ => g.reuseEntity row session entity
  else g

/-- The state after a logout, and the row to save. -/
def disconnectInTick (ops : PlayerOps P) (g : GameState P) (player : PlayerId) (session : SessionId) :
    GameState P × Option PlayerRow :=
  match g.activePlayerEntityForSession player session with
  | none => (g, none)
  | some entity =>
    let g := g.removeActivePlayer player
    let row := (g.ecs entity).map (extractPlayerRow ops)
    let keepOffline := (g.ecs entity).any (fun c => ops.running c.programmator)
    if keepOffline then (g.modifyEntity entity (fun c => { c with connection := none }), row)
    else ((g.despawn entity).unregisterPlayerEntity player, row)

def applyLifecycle (ops : PlayerOps P) (hub : SessionHub) (g : GameState P) (q : QueuedLifecycle) :
    GameState P × Option PlayerRow :=
  match q.command with
  | .connect row => (g.connectEntityInTick ops hub row q.sessionId, none)
  | .disconnect => g.disconnectInTick ops q.playerId q.sessionId

end GameState

end OpenMines

import OpenMines.PlayerHealth

namespace OpenMines

namespace GameState

variable {P : Type} {ops : PlayerOps P} {hub : SessionHub} {g g' : GameState P} {row : PlayerRow}
  {session : SessionId} {player other : PlayerId} {entity : Entity} {c : PlayerEntity P}

/-- The entity of a player, with its components. -/
def playerComponent (g : GameState P) (player : PlayerId) : Option (Entity × PlayerEntity P) :=
  (g.playerEntities player).bind fun entity => (g.ecs entity).map fun c => (entity, c)

def modifyPlayer (g : GameState P) (player : PlayerId) (f : PlayerEntity P → PlayerEntity P) : GameState P :=
  match g.playerComponent player with
  | some (entity, c) => { g with ecs := Function.update g.ecs entity (some (f c)) }
  | none => g

theorem playerComponent_eq_some :
    g.playerComponent player = some (entity, c) ↔ g.playerEntities player = some entity ∧ g.ecs entity = some c := by
  rw [playerComponent, Option.bind_eq_some_iff]
  constructor
  · rintro ⟨e, he, hc⟩
    obtain ⟨c', hc', heq⟩ := Option.map_eq_some_iff.mp hc
    obtain ⟨rfl, rfl⟩ := Prod.mk.inj heq
    exact ⟨he, hc'⟩
  · rintro ⟨he, hc⟩
    exact ⟨entity, he, Option.map_eq_some_iff.mpr ⟨c, hc, rfl⟩⟩

theorem playerComponent_congr (hentity : g'.playerEntities player = g.playerEntities player)
    (hecs : ∀ e, g.playerEntities player = some e → g'.ecs e = g.ecs e) :
    g'.playerComponent player = g.playerComponent player := by
  rw [playerComponent, playerComponent, hentity]
  cases howner : g.playerEntities player with
  | none => rfl
  | some e => exact congrArg (Option.map _) (hecs e howner)

theorem playerComponent_none (h : g.playerEntities player = none) : g.playerComponent player = none := by
  rw [playerComponent, h, Option.bind_none]

section Modify

theorem modifyPlayer_of_none (h : g.playerComponent player = none) (f : PlayerEntity P → PlayerEntity P) :
    g.modifyPlayer player f = g := by
  rw [modifyPlayer, h]

theorem modifyPlayer_of_some (h : g.playerComponent player = some (entity, c)) (f : PlayerEntity P → PlayerEntity P) :
    g.modifyPlayer player f = { g with ecs := Function.update g.ecs entity (some (f c)) } := by
  rw [modifyPlayer, h]

theorem activePlayers_modifyPlayer (g : GameState P) (player : PlayerId) (f : PlayerEntity P → PlayerEntity P) :
    (g.modifyPlayer player f).activePlayers = g.activePlayers := by
  rw [modifyPlayer]
  split <;> rfl

theorem Registered.modifyPlayer (h : g.Registered) (player : PlayerId) (f : PlayerEntity P → PlayerEntity P) :
    (g.modifyPlayer player f).Registered := by
  rw [GameState.modifyPlayer]
  split
  · exact h.setEcs _
  · exact h

theorem playerComponent_modifyPlayer_self (h : g.playerComponent player = some (entity, c))
    (f : PlayerEntity P → PlayerEntity P) : (g.modifyPlayer player f).playerComponent player = some (entity, f c) := by
  rw [modifyPlayer_of_some h]
  exact playerComponent_eq_some.mpr ⟨(playerComponent_eq_some.mp h).1, Function.update_self ..⟩

theorem playerComponent_modifyPlayer_of_ne (hregistered : g.Registered) (hne : other ≠ player)
    (f : PlayerEntity P → PlayerEntity P) : (g.modifyPlayer player f).playerComponent other = g.playerComponent other := by
  cases hcomponent : g.playerComponent player with
  | none => rw [modifyPlayer_of_none hcomponent]
  | some component =>
      obtain ⟨entity, c⟩ := component
      rw [modifyPlayer_of_some hcomponent]
      refine playerComponent_congr rfl fun e he => Function.update_of_ne (fun heq => hne ?_) ..
      exact hregistered.distinct other player entity (heq ▸ he) (playerComponent_eq_some.mp hcomponent).1

end Modify

section Connect

theorem connect_closed (h : hub.isOpen session = false) (ops : PlayerOps P) (g : GameState P) (row : PlayerRow) :
    g.connectEntityInTick ops hub row session = g := by
  rw [connectEntityInTick, if_neg (Bool.eq_false_iff.mp h)]

theorem connect_other (h : g.Registered) (hne : player ≠ row.id) :
    (g.connectEntityInTick ops hub row session).playerComponent player = g.playerComponent player ∧
      (g.connectEntityInTick ops hub row session).activePlayers player = g.activePlayers player := by
  have hother : (g.connectEntityInTick ops hub row session).playerComponent player = g.playerComponent player := by
    obtain ⟨hentity, hecs⟩ := connect_of_ne h hne
    exact playerComponent_congr hentity hecs
  refine ⟨hother, ?_⟩
  rw [connectEntityInTick]
  split
  · dsimp only
    split
    · exact (Function.update_of_ne hne ..).trans (Function.update_of_ne hne ..)
    · split
      · exact (Function.update_of_ne hne ..).trans (Function.update_of_ne hne ..)
      · exact (Function.update_of_ne hne ..).trans (Function.update_of_ne hne ..)
  · rfl

theorem playerComponent_spawnEntity (ops : PlayerOps P) (g : GameState P) (row : PlayerRow) (session : SessionId) :
    (g.spawnEntity ops row session).playerComponent row.id = some (g.nextEntity, spawnPlayer ops row session) :=
  playerComponent_eq_some.mpr ⟨Function.update_self .., Function.update_self ..⟩

/-- Who logs in plays: with a new entity, or with the one that is there. -/
theorem connect_self (hopen : hub.isOpen session = true) :
    (g.connectEntityInTick ops hub row session).playerComponent row.id =
        some ((g.playerComponent row.id).elim (g.nextEntity, spawnPlayer ops row session) fun component =>
          (component.1,
            { component.2 with connection := some session, incarnation := session, dirty := false, role := row.role })) ∧
      ((g.connectEntityInTick ops hub row session).activePlayers row.id).isSome := by
  rw [connectEntityInTick, if_pos hopen]
  dsimp only
  cases hentity : g.playerEntities row.id with
  | none =>
      rw [playerComponent_none hentity, show (g.removeActivePlayer row.id).playerEntities row.id = none from hentity]
      exact ⟨playerComponent_spawnEntity .., by simp⟩
  | some entity =>
      rw [show (g.removeActivePlayer row.id).playerEntities row.id = some entity from hentity]
      dsimp only
      cases hc : g.ecs entity with
      | none =>
          have hnone : g.playerComponent row.id = none := by
            rw [playerComponent, hentity, Option.bind_some, hc, Option.map_none]
          rw [hnone, show (g.removeActivePlayer row.id).ecs entity = none from hc]
          exact ⟨playerComponent_spawnEntity .., by simp⟩
      | some c =>
          rw [playerComponent_eq_some.mpr ⟨hentity, hc⟩, show (g.removeActivePlayer row.id).ecs entity = some c from hc]
          refine ⟨playerComponent_eq_some.mpr ⟨hentity, ?_⟩, ?_⟩
          · refine (Function.update_self ..).trans ?_
            rw [show (g.removeActivePlayer row.id).ecs entity = some c from hc]
            rfl
          · rw [reuseEntity, activePlayers_registerActivePlayer, Function.update_self]
            rfl

end Connect

section Disconnect

theorem disconnect_of_none (h : g.activePlayerEntityForSession player session = none) (ops : PlayerOps P) :
    g.disconnectInTick ops player session = (g, none) := by
  rw [disconnectInTick, h]

theorem Registered.activePlayerEntityForSession (h : g.Registered)
    (howner : g.activePlayerEntityForSession player session = some entity) : g.playerEntities player = some entity := by
  rw [GameState.activePlayerEntityForSession] at howner
  split at howner
  · cases howner
  · rename_i active hactive
    split at howner
    · exact Option.some.inj howner ▸ h.active player active hactive
    · cases howner

theorem disconnect_other (hregistered : g.Registered) (hne : other ≠ player) :
    (g.disconnectInTick ops player session).1.playerComponent other = g.playerComponent other ∧
      (g.disconnectInTick ops player session).1.activePlayers other = g.activePlayers other := by
  cases howner : g.activePlayerEntityForSession player session with
  | none =>
      rw [disconnect_of_none howner]
      exact ⟨rfl, rfl⟩
  | some owner =>
      have hplayer := hregistered.activePlayerEntityForSession howner
      have hecs : ∀ e, g.playerEntities other = some e → e ≠ owner := fun e he heq =>
        hne (hregistered.distinct other player owner (heq ▸ he) hplayer)
      rw [disconnectInTick, howner]
      dsimp only
      split
      · exact ⟨playerComponent_congr rfl fun e he => Function.update_of_ne (hecs e he) ..,
          Function.update_of_ne hne ..⟩
      · exact ⟨playerComponent_congr (Function.update_of_ne hne ..) fun e he => Function.update_of_ne (hecs e he) ..,
          Function.update_of_ne hne ..⟩

/-- Who logs out is saved, and plays no more. -/
theorem disconnect_self (hregistered : g.Registered)
    (howner : g.activePlayerEntityForSession player session = some entity) :
    (g.disconnectInTick ops player session).2 = (g.playerComponent player).map (extractPlayerRow ops ∘ Prod.snd) ∧
      (g.disconnectInTick ops player session).1.activePlayers player = none ∧
      (g.disconnectInTick ops player session).1.playerComponent player = (g.playerComponent player).bind fun component =>
        if ops.running component.2.programmator then some (component.1, { component.2 with connection := none })
        else none := by
  have hplayer := hregistered.activePlayerEntityForSession howner
  have hplayer' : (g.removeActivePlayer player).playerEntities player = some entity := hplayer
  have hecs : (g.removeActivePlayer player).ecs = g.ecs := rfl
  rw [disconnectInTick, howner]
  dsimp only
  rw [hecs]
  cases hc : g.ecs entity with
  | none =>
      have hnone : g.playerComponent player = none := by
        rw [playerComponent, hplayer, Option.bind_some, hc, Option.map_none]
      rw [hnone]
      exact ⟨rfl, Function.update_self .., playerComponent_none (Function.update_self ..)⟩
  | some c =>
      rw [playerComponent_eq_some.mpr ⟨hplayer, hc⟩, Option.any_some, Option.bind_some]
      by_cases hkeeps : ops.running c.programmator
      · rw [if_pos hkeeps, if_pos hkeeps]
        refine ⟨rfl, Function.update_self .., playerComponent_eq_some.mpr ⟨hplayer, ?_⟩⟩
        refine (Function.update_self ..).trans ?_
        rw [hecs, hc]
        rfl
      · rw [if_neg hkeeps, if_neg hkeeps]
        exact ⟨rfl, Function.update_self .., playerComponent_none (Function.update_self ..)⟩

end Disconnect

end GameState

end OpenMines

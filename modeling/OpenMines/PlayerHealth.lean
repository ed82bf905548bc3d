import OpenMines.ProgrammatorSchedule

namespace OpenMines

open Lib.Run

namespace GameState

variable {P : Type} {ops : PlayerOps P} {hub : SessionHub} {g : GameState P} {row : PlayerRow} {session : SessionId}
  {player : PlayerId} {entity : Entity}

/-- Each player has an entity of its own, and its session is that of the entity. -/
structure Registered (g : GameState P) : Prop where
  active : ∀ p a, g.activePlayers p = some a → g.playerEntities p = some a.ecsEntity
  distinct : ∀ p q e, g.playerEntities p = some e → g.playerEntities q = some e → p = q
  allocated : ∀ p e, g.playerEntities p = some e → e < g.nextEntity

theorem registered_new : (new : GameState P).Registered where
  active _ _ h := by cases h
  distinct _ _ _ h := by cases h
  allocated _ _ h := by cases h

@[simp] theorem activePlayers_removeActivePlayer (g : GameState P) (player : PlayerId) :
    (g.removeActivePlayer player).activePlayers = Function.update g.activePlayers player none := rfl

@[simp] theorem activePlayers_registerActivePlayer (g : GameState P) (player : PlayerId) (entity : Entity)
    (session : SessionId) : (g.registerActivePlayer player entity session).activePlayers =
      Function.update g.activePlayers player (some ⟨entity, session⟩) := rfl

@[simp] theorem playerEntities_unregisterPlayerEntity (g : GameState P) (player : PlayerId) :
    (g.unregisterPlayerEntity player).playerEntities = Function.update g.playerEntities player none := rfl

@[simp] theorem activePlayers_spawnEntity (ops : PlayerOps P) (g : GameState P) (row : PlayerRow)
    (session : SessionId) : (g.spawnEntity ops row session).activePlayers =
      Function.update g.activePlayers row.id (some ⟨g.nextEntity, session⟩) := rfl

@[simp] theorem playerEntities_spawnEntity (ops : PlayerOps P) (g : GameState P) (row : PlayerRow)
    (session : SessionId) : (g.spawnEntity ops row session).playerEntities =
      Function.update g.playerEntities row.id (some g.nextEntity) := rfl

theorem Registered.removeActivePlayer (h : g.Registered) (player : PlayerId) :
    (g.removeActivePlayer player).Registered where
  active p a ha := by
    rw [activePlayers_removeActivePlayer, Function.update_apply] at ha
    split at ha
    · cases ha
    · exact h.active p a ha
  distinct := h.distinct
  allocated := h.allocated

theorem Registered.spawnEntity (h : g.Registered) (ops : PlayerOps P) (row : PlayerRow) (session : SessionId) :
    (g.spawnEntity ops row session).Registered := by
  have hcases : ∀ p e, (g.spawnEntity ops row session).playerEntities p = some e →
      p = row.id ∧ e = g.nextEntity ∨ g.playerEntities p = some e ∧ e < g.nextEntity := by
    intro p e he
    rw [playerEntities_spawnEntity, Function.update_apply] at he
    split at he
    · exact .inl ⟨‹_›, (Option.some.inj he).symm⟩
    · exact .inr ⟨he, h.allocated p e he⟩
  refine ⟨fun p a ha => ?_, fun p q e hp hq => ?_, fun p e he => ?_⟩
  · rw [activePlayers_spawnEntity, Function.update_apply] at ha
    rw [playerEntities_spawnEntity, Function.update_apply]
    split at ha
    · rw [if_pos ‹_›, ← Option.some.inj ha]
    · rw [if_neg ‹_›]
      exact h.active p a ha
  · rcases hcases p e hp with ⟨rfl, rfl⟩ | ⟨hp, hlt⟩
    · exact ((hcases q _ hq).resolve_right fun hold => Nat.lt_irrefl _ hold.2).1.symm
    · rcases hcases q e hq with ⟨-, rfl⟩ | ⟨hq, -⟩
      · exact absurd hlt (Nat.lt_irrefl _)
      · exact h.distinct p q e hp hq
  · rcases hcases p e he with ⟨-, rfl⟩ | ⟨-, hlt⟩
    · exact Nat.lt_succ_self _
    · exact Nat.lt_succ_of_lt hlt

theorem Registered.unregisterPlayerEntity (h : g.Registered) (hnone : g.activePlayers player = none) :
    (g.unregisterPlayerEntity player).Registered := by
  have hold : ∀ p e, (g.unregisterPlayerEntity player).playerEntities p = some e → g.playerEntities p = some e := by
    intro p e he
    rw [playerEntities_unregisterPlayerEntity, Function.update_apply] at he
    split at he
    · cases he
    · exact he
  refine ⟨fun p a ha => ?_, fun p q e hp hq => h.distinct p q e (hold p e hp) (hold q e hq),
    fun p e he => h.allocated p e (hold p e he)⟩
  have hp : p ≠ player := fun heq => by cases (heq ▸ hnone).symm.trans ha
  exact (Function.update_of_ne hp ..).trans (h.active p a ha)

theorem Registered.registerActivePlayer (h : g.Registered) (hentity : g.playerEntities player = some entity) :
    (g.registerActivePlayer player entity session).Registered where
  active p a ha := by
    rw [activePlayers_registerActivePlayer, Function.update_apply] at ha
    split at ha
    · rename_i hp
      obtain rfl := Option.some.inj ha
      exact hp ▸ hentity
    · exact h.active p a ha
  distinct := h.distinct
  allocated := h.allocated

theorem Registered.setEcs (h : g.Registered) (ecs : Entity → Option (PlayerEntity P)) :
    ({ g with ecs } : GameState P).Registered := ⟨h.active, h.distinct, h.allocated⟩

theorem removed_activePlayers (g : GameState P) (player : PlayerId) :
    (g.removeActivePlayer player).activePlayers player = none := Function.update_self ..

theorem Registered.connect (h : g.Registered) (ops : PlayerOps P) (hub : SessionHub) (row : PlayerRow)
    (session : SessionId) : (g.connectEntityInTick ops hub row session).Registered := by
  have hremoved := h.removeActivePlayer row.id
  rw [connectEntityInTick]
  split
  · dsimp only
    split
    · exact hremoved.spawnEntity ops row session
    · rename_i entity hentity
      split
      · exact (hremoved.unregisterPlayerEntity (removed_activePlayers g row.id)).spawnEntity ops row session
      · exact (hremoved.setEcs _).registerActivePlayer hentity
  · exact h

theorem Registered.disconnect (h : g.Registered) (ops : PlayerOps P) (player : PlayerId) (session : SessionId) :
    (g.disconnectInTick ops player session).1.Registered := by
  have hremoved := h.removeActivePlayer player
  rw [disconnectInTick]
  split
  · exact h
  · dsimp only
    split
    · exact hremoved.setEcs _
    · exact (hremoved.setEcs _).unregisterPlayerEntity (removed_activePlayers g player)

/-- A connection concerns no other player. -/
theorem connect_of_ne (h : g.Registered) (hne : player ≠ row.id) :
    (g.connectEntityInTick ops hub row session).playerEntities player = g.playerEntities player ∧
      ∀ e, g.playerEntities player = some e → (g.connectEntityInTick ops hub row session).ecs e = g.ecs e := by
  rw [connectEntityInTick]
  split
  · dsimp only
    split
    · refine ⟨Function.update_of_ne hne .., fun e he => Function.update_of_ne ?_ ..⟩
      exact Nat.ne_of_lt (h.allocated player e he)
    · rename_i entity hentity
      split
      · refine ⟨(Function.update_of_ne hne ..).trans (Function.update_of_ne hne ..),
          fun e he => Function.update_of_ne ?_ ..⟩
        exact Nat.ne_of_lt (h.allocated player e he)
      · refine ⟨rfl, fun e he => Function.update_of_ne (fun heq => ?_) ..⟩
        exact hne (h.distinct player row.id entity (heq ▸ he) hentity)
  · exact ⟨rfl, fun _ _ => rfl⟩

/-- Where the player has an entity, a connection leaves the health. -/
theorem connect_reuse {c : PlayerEntity P} (hentity : g.playerEntities row.id = some entity)
    (hc : g.ecs entity = some c) :
    (g.connectEntityInTick ops hub row session).playerEntities row.id = some entity ∧
      ∀ c', (g.connectEntityInTick ops hub row session).ecs entity = some c' → c'.health = c.health := by
  have hremoved : (g.removeActivePlayer row.id).playerEntities row.id = some entity := hentity
  have hecs : (g.removeActivePlayer row.id).ecs entity = some c := hc
  rw [connectEntityInTick]
  split
  · dsimp only
    rw [hremoved]
    dsimp only
    rw [hecs]
    refine ⟨hentity, fun c' hc' => ?_⟩
    have hmodified := (Function.update_self ..).symm.trans hc'
    rw [hecs] at hmodified
    exact Option.some.inj hmodified ▸ rfl
  · refine ⟨hentity, fun c' hc' => ?_⟩
    rw [Option.some.inj (hc.symm.trans hc')]

/-- The end of a connection changes no health. -/
theorem disconnect_health {player' : PlayerId} {c' : PlayerEntity P}
    (hentity : (g.disconnectInTick ops player session).1.playerEntities player' = some entity)
    (hc : (g.disconnectInTick ops player session).1.ecs entity = some c') :
    g.playerEntities player' = some entity ∧ ∃ c, g.ecs entity = some c ∧ c'.health = c.health := by
  rw [disconnectInTick] at hentity hc
  cases howner : g.activePlayerEntityForSession player session with
  | none =>
    rw [howner] at hentity hc
    exact ⟨hentity, c', hc, rfl⟩
  | some owner =>
    rw [howner] at hentity hc
    dsimp only at hentity hc
    split at hentity
    · rename_i hkeeps
      rw [if_pos hkeeps] at hc
      refine ⟨hentity, ?_⟩
      change Function.update g.ecs owner _ entity = some c' at hc
      rw [Function.update_apply] at hc
      split at hc
      · rename_i he
        obtain ⟨c, hold, rfl⟩ := Option.map_eq_some_iff.mp hc
        exact ⟨c, he ▸ hold, rfl⟩
      · exact ⟨c', hc, rfl⟩
    · rename_i hleaves
      rw [if_neg hleaves] at hc
      change Function.update g.playerEntities player none player' = some entity at hentity
      change Function.update g.ecs owner none entity = some c' at hc
      rw [Function.update_apply] at hentity hc
      split at hentity
      · cases hentity
      · split at hc
        · cases hc
        · exact ⟨hentity, c', hc, rfl⟩

end GameState

namespace ScheduledPrograms

variable {io : ProgramIo} {s t : ScheduledPrograms} {player other : PlayerId}

/-- The player, where it is there, is dead. -/
def Down (s : ScheduledPrograms) (player : PlayerId) : Prop :=
  ∀ entity c, s.component player = some (entity, c) → c.health ≤ 0

theorem Down.congr (h : s.Down player)
    (hhealth : ∀ entity c', t.game.playerEntities player = some entity → t.game.ecs entity = some c' →
      s.game.playerEntities player = some entity ∧ ∃ c, s.game.ecs entity = some c ∧ c'.health = c.health) :
    t.Down player := by
  intro entity c' hcomponent
  obtain ⟨hentity, hc'⟩ := component_eq_some.mp hcomponent
  obtain ⟨howner, c, hc, heq⟩ := hhealth entity c' hentity hc'
  exact heq ▸ h entity c (component_eq_some.mpr ⟨howner, hc⟩)

theorem down_modifyPlayer {f : PlayerEntity PlayerProgram → PlayerEntity PlayerProgram}
    (hregistered : s.game.Registered) (h : other ≠ player → s.Down player)
    (hf : other = player → ∀ entity c, s.component player = some (entity, c) → (f c).health ≤ 0) :
    (s.modifyPlayer other f).Down player := by
  rw [ScheduledPrograms.modifyPlayer]
  split
  · rename_i owner c hcomponent
    obtain ⟨howner, hc⟩ := component_eq_some.mp hcomponent
    intro entity c' hcomponent'
    obtain ⟨hentity, hc'⟩ := component_eq_some.mp hcomponent'
    by_cases he : entity = owner
    · subst he
      obtain rfl := hregistered.distinct other player entity howner hentity
      rw [put_ecs, Function.update_self] at hc'
      exact Option.some.inj hc' ▸ hf rfl entity c hcomponent
    · rw [put_ecs, Function.update_of_ne he] at hc'
      refine h (fun heq => he ?_) entity c' (component_eq_some.mpr ⟨hentity, hc'⟩)
      exact Option.some.inj (hentity.symm.trans (heq ▸ howner))
  · rename_i hnone
    intro entity c hcomponent
    refine h (fun heq => ?_) entity c hcomponent
    cases (heq ▸ hnone).symm.trans hcomponent

theorem Down.scheduleRunning (h : s.Down player) : (s.scheduleRunning other).Down player := by
  rw [ScheduledPrograms.scheduleRunning]
  split
  · split <;> exact h
  · exact h

theorem Registered.modifyPlayer {f : PlayerEntity PlayerProgram → PlayerEntity PlayerProgram} (h : s.game.Registered) :
    (s.modifyPlayer other f).game.Registered := by
  rw [ScheduledPrograms.modifyPlayer]
  split
  · exact h.setEcs _
  · exact h

theorem game_scheduleRunning (s : ScheduledPrograms) (player : PlayerId) : (s.scheduleRunning player).game = s.game := by
  rw [scheduleRunning]
  split
  · split <;> rfl
  · rfl

theorem runEntry_game {now : Nat} {env : Entity → ProgrammatorContext} {entry : Entity × Nat}
    (h : runEntry now env s entry = some t) :
    t.game.playerEntities = s.game.playerEntities ∧ (s.game.Registered → t.game.Registered) ∧
      ∀ entity c', t.game.ecs entity = some c' → ∃ c, s.game.ecs entity = some c ∧ c'.health = c.health := by
  rw [runEntry] at h
  split at h
  · rename_i c hc
    obtain ⟨ticked, -, ht⟩ := Option.bind_eq_some_iff.mp h
    obtain rfl := Option.some.inj ht
    refine ⟨rfl, fun hregistered => hregistered.setEcs _, fun entity c' hc' => ?_⟩
    change Function.update s.game.ecs entry.1 _ entity = some c' at hc'
    rw [Function.update_apply] at hc'
    split at hc'
    · rename_i he
      exact ⟨c, he ▸ hc, Option.some.inj hc' ▸ rfl⟩
    · exact ⟨c', hc', rfl⟩
  · obtain rfl := Option.some.inj h
    exact ⟨rfl, id, fun _ c' hc' => ⟨c', hc', rfl⟩⟩

/-- The step does not bring a dead player back to life. -/
def KeepsDown (player : PlayerId) (s : ScheduledPrograms) : ScheduleEvent → Prop
  | .connect _ row _ _ => row.id = player → (s.component player).isSome
  | .change p f => p = player → ∀ entity c, s.component player = some (entity, c) → c.health ≤ 0 → (f c).health ≤ 0
  | .death p _ => p ≠ player
  | _ => True

theorem registered_step {e : ScheduleEvent} (h : s.game.Registered) (hstep : s.step io e = some t) :
    t.game.Registered := by
  cases e with
  | connect hub row session now =>
      rw [step, connect] at hstep
      split at hstep
      · split at hstep
        · cases hstep
        · refine Option.some.inj hstep ▸ ?_
          rw [game_scheduleRunning]
          exact h.connect _ hub row session
      · exact Option.some.inj hstep ▸ h
  | disconnect p session now => exact Option.some.inj hstep ▸ h.disconnect _ p session
  | start p id source now =>
      rw [step, start] at hstep
      split at hstep
      · obtain ⟨started, -, ht⟩ := Option.bind_eq_some_iff.mp hstep
        refine Option.some.inj ht ▸ ?_
        rw [game_scheduleRunning]
        exact h.setEcs _
      · exact Option.some.inj hstep ▸ h
  | reset | deleted | editor | change | death => exact Option.some.inj hstep ▸ Registered.modifyPlayer h
  | poll => exact Option.some.inj hstep ▸ h
  | tick taken wait env =>
      rw [step] at hstep
      refine run_preserves (P := fun u : ScheduledPrograms => u.game.Registered) ?_
        (fun entry _ u v hu huv => (runEntry_game huv).2.1 hu) hstep
      exact h

theorem down_step {e : ScheduleEvent} (h : s.Down player) (hregistered : s.game.Registered)
    (hkeeps : s.KeepsDown player e) (hstep : s.step io e = some t) : t.Down player := by
  cases e with
  | connect hub row session now =>
      rw [step, connect] at hstep
      split at hstep
      · split at hstep
        · cases hstep
        · refine Option.some.inj hstep ▸ Down.scheduleRunning (h.congr fun entity c' hentity hc' => ?_)
          by_cases hp : player = row.id
          · subst hp
            obtain ⟨⟨owner, c⟩, hcomponent⟩ := Option.isSome_iff_exists.mp (hkeeps rfl)
            obtain ⟨howner, hc⟩ := component_eq_some.mp hcomponent
            obtain ⟨hsame, hhealth⟩ := GameState.connect_reuse howner hc
            obtain rfl := Option.some.inj (hentity.symm.trans hsame)
            exact ⟨howner, c, hc, hhealth c' hc'⟩
          · obtain ⟨hsame, hecs⟩ := GameState.connect_of_ne hregistered hp
            have howner := hsame.symm.trans hentity
            exact ⟨howner, c', (hecs entity howner).symm.trans hc', rfl⟩
      · exact Option.some.inj hstep ▸ h
  | disconnect p session now =>
      exact Option.some.inj hstep ▸ h.congr fun entity c' hentity hc' => GameState.disconnect_health hentity hc'
  | start p id source now =>
      rw [step, start] at hstep
      split at hstep
      · rename_i owner c hcomponent
        obtain ⟨started, -, ht⟩ := Option.bind_eq_some_iff.mp hstep
        refine Option.some.inj ht ▸ Down.scheduleRunning (h.congr fun entity c' hentity hc' => ⟨hentity, ?_⟩)
        rw [put_ecs, Function.update_apply] at hc'
        split at hc'
        · rename_i he
          exact ⟨c, he ▸ (component_eq_some.mp hcomponent).2, Option.some.inj hc' ▸ rfl⟩
        · exact ⟨c', hc', rfl⟩
      · exact Option.some.inj hstep ▸ h
  | reset | deleted | editor =>
      exact Option.some.inj hstep ▸ down_modifyPlayer hregistered (fun _ => h) fun _ entity c hc => h entity c hc
  | change p f =>
      exact Option.some.inj hstep ▸ down_modifyPlayer hregistered (fun _ => h) fun heq entity c hc =>
        hkeeps heq entity c hc (h entity c hc)
  | death p o => exact Option.some.inj hstep ▸ down_modifyPlayer hregistered (fun _ => h) fun heq => absurd heq hkeeps
  | poll => exact Option.some.inj hstep ▸ h
  | tick taken wait env =>
      rw [step] at hstep
      refine run_preserves (P := fun u : ScheduledPrograms => u.Down player) ?_ (fun entry _ u v hu huv => ?_) hstep
      · exact h
      · obtain ⟨hentities, -, hhealth⟩ := runEntry_game huv
        exact hu.congr fun entity c' hentity hc' => ⟨hentities ▸ hentity, hhealth entity c' hc'⟩

end ScheduledPrograms

end OpenMines

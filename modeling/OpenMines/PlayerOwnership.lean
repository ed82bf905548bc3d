import OpenMines.Lifecycle

namespace OpenMines.GameState

variable {P : Type} {ops : PlayerOps P} {hub : SessionHub} {g : GameState P}

/-- Each active player has an entity of its own, bound to the active session. -/
structure Owned (g : GameState P) : Prop where
  active : ∀ p a, g.activePlayers p = some a → g.playerEntities p = some a.ecsEntity ∧
    ∃ k, g.ecs a.ecsEntity = some k ∧ k.connection = some a.sessionId
  identity : ∀ p e k, g.playerEntities p = some e → g.ecs e = some k → k.id = p
  distinct : ∀ p q e, g.playerEntities p = some e → g.playerEntities q = some e → p = q
  allocated : ∀ p e, g.playerEntities p = some e → e < g.nextEntity

theorem owned_new : (new : GameState P).Owned where
  active := by
    intro p a h
    cases h
  identity := by
    intro p e k h
    cases h
  distinct := by
    intro p q e h
    cases h
  allocated := by
    intro p e h
    cases h

theorem owned_removeActivePlayer (h : g.Owned) (player : PlayerId) :
    (g.removeActivePlayer player).Owned where
  active := by
    intro p a ha
    simp only [removeActivePlayer, Function.update_apply] at ha
    split at ha
    · cases ha
    · exact h.active p a ha
  identity := h.identity
  distinct := h.distinct
  allocated := h.allocated

theorem playerEntities_unregister {player p : PlayerId} {e : Entity}
    (h : (g.unregisterPlayerEntity player).playerEntities p = some e) :
    p ≠ player ∧ g.playerEntities p = some e := by
  simp only [unregisterPlayerEntity, Function.update_apply] at h
  split at h
  · cases h
  · rename_i hne
    exact ⟨hne, h⟩

theorem owned_unregisterPlayerEntity (h : g.Owned) {player : PlayerId}
    (hnone : g.activePlayers player = none) : (g.unregisterPlayerEntity player).Owned where
  active := by
    intro p a ha
    have hne : p ≠ player := by
      rintro rfl
      exact absurd (hnone.symm.trans ha) (by simp)
    simp only [unregisterPlayerEntity, Function.update_of_ne hne]
    exact h.active p a ha
  identity := fun p e k he hk => h.identity p e k (playerEntities_unregister he).2 hk
  distinct := fun p q e hp hq => h.distinct p q e (playerEntities_unregister hp).2 (playerEntities_unregister hq).2
  allocated := fun p e he => h.allocated p e (playerEntities_unregister he).2

/-- What happens to the entity of a player who is not active concerns no active player. -/
theorem owned_setEntity (h : g.Owned) {player : PlayerId} {entity : Entity} {k : Option (PlayerEntity P)}
    (hnone : g.activePlayers player = none) (hentity : g.playerEntities player = some entity)
    (hid : ∀ c, k = some c → c.id = player) :
    ({ g with ecs := Function.update g.ecs entity k } : GameState P).Owned where
  active := by
    intro p a ha
    obtain ⟨howned, c, hc⟩ := h.active p a ha
    refine ⟨howned, c, ?_⟩
    have hne : a.ecsEntity ≠ entity := by
      intro heq
      have hp : p = player := h.distinct p player entity (heq ▸ howned) hentity
      exact absurd (hnone.symm.trans (hp ▸ ha)) (by simp)
    simpa only [Function.update_of_ne hne] using hc
  identity := by
    intro p e c he hc
    simp only [Function.update_apply] at hc
    split at hc
    · rename_i heq
      subst heq
      exact (hid c hc).trans (h.distinct player p e hentity he)
    · exact h.identity p e c he hc
  distinct := h.distinct
  allocated := h.allocated

theorem owned_reuseEntity (h : g.Owned) {row : PlayerRow} {session : SessionId} {entity : Entity}
    {k : PlayerEntity P} (hnone : g.activePlayers row.id = none)
    (hentity : g.playerEntities row.id = some entity) (hk : g.ecs entity = some k) :
    (g.reuseEntity row session entity).Owned := by
  have hset := owned_setEntity h hnone hentity
    (k := some { k with connection := some session, incarnation := session, dirty := false, role := row.role })
    (by
      rintro c ⟨⟩
      exact h.identity row.id entity k hentity hk)
  refine ⟨?_, ?_, hset.distinct, hset.allocated⟩
  · intro p a ha
    simp only [reuseEntity, registerActivePlayer, modifyEntity, Function.update_apply, hk, Option.map_some]
      at ha ⊢
    split at ha
    · rename_i hp
      cases ha
      subst hp
      exact ⟨hentity, by simp⟩
    · simpa only [Function.update_apply] using hset.active p a ha
  · simpa only [reuseEntity, registerActivePlayer, modifyEntity, hk, Option.map_some] using hset.identity

theorem owned_spawnEntity (h : g.Owned) (ops : PlayerOps P) (row : PlayerRow) (session : SessionId) :
    (g.spawnEntity ops row session).Owned := by
  have hentities (p : PlayerId) (e : Entity)
      (he : (g.spawnEntity ops row session).playerEntities p = some e) :
      p = row.id ∧ e = g.nextEntity ∨ p ≠ row.id ∧ g.playerEntities p = some e ∧ e < g.nextEntity := by
    simp only [spawnEntity, spawn, registerActivePlayer, registerPlayerEntity, Function.update_apply] at he
    split at he
    · rename_i hp
      cases he
      exact .inl ⟨hp, rfl⟩
    · rename_i hp
      exact .inr ⟨hp, he, h.allocated p e he⟩
  refine ⟨?_, ?_, ?_, ?_⟩
  · intro p a ha
    simp only [spawnEntity, spawn, registerActivePlayer, registerPlayerEntity, Function.update_apply] at ha ⊢
    split at ha
    · rename_i hp
      cases ha
      simp [hp, spawnPlayer]
    · rename_i hp
      obtain ⟨howned, c, hc⟩ := h.active p a ha
      have hne : a.ecsEntity ≠ g.nextEntity := Nat.ne_of_lt (h.allocated p _ howned)
      exact ⟨by simpa only [hp, if_false] using howned, c, by simpa only [hne, if_false] using hc⟩
  · intro p e k he hk
    simp only [spawnEntity, spawn, registerActivePlayer, registerPlayerEntity, Function.update_apply] at hk
    rcases hentities p e he with ⟨hp, rfl⟩ | ⟨-, he', hlt⟩
    · rw [if_pos rfl] at hk
      cases hk
      exact hp.symm
    · rw [if_neg (Nat.ne_of_lt hlt)] at hk
      exact h.identity p e k he' hk
  · intro p q e hp hq
    rcases hentities p e hp with ⟨hp', rfl⟩ | ⟨-, hp', hlt⟩
    · rcases hentities q g.nextEntity hq with ⟨hq', -⟩ | ⟨-, -, hlt⟩
      · exact hp'.trans hq'.symm
      · exact absurd hlt (Nat.lt_irrefl _)
    · rcases hentities q e hq with ⟨-, rfl⟩ | ⟨-, hq', -⟩
      · exact absurd hlt (Nat.lt_irrefl _)
      · exact h.distinct p q e hp' hq'
  · intro p e he
    change e < g.nextEntity + 1
    rcases hentities p e he with ⟨-, rfl⟩ | ⟨-, -, hlt⟩
    · exact Nat.lt_succ_self _
    · exact Nat.lt_succ_of_lt hlt

theorem owned_connect (h : g.Owned) (ops : PlayerOps P) (hub : SessionHub) (row : PlayerRow)
    (session : SessionId) : (g.connectEntityInTick ops hub row session).Owned := by
  unfold connectEntityInTick
  split
  · have hremoved := owned_removeActivePlayer h row.id
    have hnone : (g.removeActivePlayer row.id).activePlayers row.id = none := by
      simp [removeActivePlayer]
    simp only
    split
    · exact owned_spawnEntity hremoved ops row session
    · rename_i entity hentity
      split
      · exact owned_spawnEntity (owned_unregisterPlayerEntity hremoved hnone) ops row session
      · rename_i k hk
        exact owned_reuseEntity hremoved hnone hentity hk
  · exact h

theorem owned_disconnect (h : g.Owned) (ops : PlayerOps P) (player : PlayerId) (session : SessionId) :
    (g.disconnectInTick ops player session).1.Owned := by
  unfold disconnectInTick
  cases ha : g.activePlayerEntityForSession player session with
  | none => exact h
  | some entity =>
      have hremoved := owned_removeActivePlayer h player
      have hnone : (g.removeActivePlayer player).activePlayers player = none := by
        simp [removeActivePlayer]
      have hentity : (g.removeActivePlayer player).playerEntities player = some entity := by
        unfold activePlayerEntityForSession at ha
        split at ha
        · cases ha
        · rename_i a hactive
          split at ha
          · cases ha
            exact (h.active player a hactive).1
          · cases ha
      simp only
      split
      · refine owned_setEntity hremoved hnone hentity ?_
        intro c hc
        obtain ⟨k, hk, rfl⟩ := Option.map_eq_some_iff.mp hc
        exact hremoved.identity player entity k hentity hk
      · refine owned_unregisterPlayerEntity (owned_setEntity hremoved hnone hentity ?_) hnone
        intro c hc
        cases hc

theorem owned_applyLifecycle (h : g.Owned) (ops : PlayerOps P) (hub : SessionHub) (q : QueuedLifecycle) :
    (g.applyLifecycle ops hub q).1.Owned := by
  unfold applyLifecycle
  split
  · exact owned_connect h ops hub _ _
  · exact owned_disconnect h ops _ _

theorem connectEntityInTick_closed {row : PlayerRow} {session : SessionId}
    (h : hub.isOpen session = false) : g.connectEntityInTick ops hub row session = g := by
  simp [connectEntityInTick, h]

theorem activeSession_connect {row : PlayerRow} {session : SessionId} (h : hub.isOpen session = true)
    (p : PlayerId) : (g.connectEntityInTick ops hub row session).activeSession p =
      if p = row.id then some session else g.activeSession p := by
  unfold connectEntityInTick
  rw [if_pos h]
  simp only
  have hspawn (g' : GameState P) (hactive : g'.activePlayers = (g.removeActivePlayer row.id).activePlayers) :
      (g'.spawnEntity ops row session).activeSession p =
        if p = row.id then some session else g.activeSession p := by
    by_cases hp : p = row.id
    · simp [hp, activeSession, spawnEntity, spawn, registerPlayerEntity, registerActivePlayer]
    · simp [hp, activeSession, spawnEntity, spawn, registerPlayerEntity, registerActivePlayer, hactive,
        removeActivePlayer]
  split
  · exact hspawn _ rfl
  · split
    · exact hspawn _ rfl
    · by_cases hp : p = row.id
      · simp [hp, activeSession, reuseEntity, registerActivePlayer]
      · simp [hp, activeSession, reuseEntity, registerActivePlayer, modifyEntity, removeActivePlayer]

/-- A logout of another session than the active one does nothing. -/
theorem disconnectInTick_stale {player : PlayerId} {session : SessionId}
    (h : g.activeSession player ≠ some session) : g.disconnectInTick ops player session = (g, none) := by
  have hnone : g.activePlayerEntityForSession player session = none := by
    unfold activePlayerEntityForSession
    split
    · rfl
    · rename_i a ha
      refine if_neg fun hs => h ?_
      simp [activeSession, ha, hs]
  simp [disconnectInTick, hnone]

theorem activeSession_disconnect {player : PlayerId} {session : SessionId}
    (h : g.activeSession player = some session) (p : PlayerId) :
    (g.disconnectInTick ops player session).1.activeSession p =
      if p = player then none else g.activeSession p := by
  obtain ⟨a, ha, hs⟩ := Option.map_eq_some_iff.mp h
  have hentity : g.activePlayerEntityForSession player session = some a.ecsEntity := by
    simp [activePlayerEntityForSession, ha, hs]
  unfold disconnectInTick
  simp only [hentity]
  split <;>
  · by_cases hp : p = player
    · simp [hp, activeSession, modifyEntity, unregisterPlayerEntity, despawn, removeActivePlayer]
    · simp [hp, activeSession, modifyEntity, unregisterPlayerEntity, despawn, removeActivePlayer]

end OpenMines.GameState

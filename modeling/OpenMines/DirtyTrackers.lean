import OpenMines.DirtyMarks
import OpenMines.Lib.Run

namespace OpenMines

open Lib.DirtyTracking Lib.Run

namespace DirtyWorld

variable {P Q : Type} {ops : Nat → PlayerOps P} {kept : P → Q} {s t : DirtyWorld P Q} {player other : PlayerId}
  {entity : Entity} {c : PlayerEntity P}

/-- The players that are there, tagged as `DirtyPlayers` has them. -/
def playerTracker (kept : P → Q) (s : DirtyWorld P Q) :
    Tracker PlayerId (Entity × SessionId) (Option (SavedPlayer Q)) where
  records p := (s.game.playerComponent p).map fun component =>
    ⟨some (component.2.saved kept), component.2.dirty, (component.1, component.2.incarnation)⟩
  index := s.dirtyPlayers
  saved := s.savedPlayer

def buildingTracker (s : DirtyWorld P Q) : Tracker Entity Entity (Option SavedBuilding) where
  records e := (s.buildings e).map fun b => ⟨some b.row, b.dirty, e⟩
  index := s.dirtyBuildings
  saved := s.savedBuilding

theorem records_of_some (h : s.game.playerComponent player = some (entity, c)) :
    (s.playerTracker kept).records player = some ⟨some (c.saved kept), c.dirty, (entity, c.incarnation)⟩ :=
  congrArg (Option.map _) h

theorem records_of_none (h : s.game.playerComponent player = none) : (s.playerTracker kept).records player = none :=
  congrArg (Option.map _) h

theorem records_congr (h : t.game.playerComponent player = s.game.playerComponent player) :
    (t.playerTracker kept).records player = (s.playerTracker kept).records player :=
  congrArg (Option.map _) h

theorem building_of_some {b : FlaggedBuilding} (h : s.buildings entity = some b) :
    s.buildingTracker.records entity = some ⟨some b.row, b.dirty, entity⟩ :=
  congrArg (Option.map _) h

theorem building_of_none (h : s.buildings entity = none) : s.buildingTracker.records entity = none :=
  congrArg (Option.map _) h

theorem building_congr (h : t.buildings entity = s.buildings entity) :
    t.buildingTracker.records entity = s.buildingTracker.records entity :=
  congrArg (Option.map _) h

/-- Where only one player changes all depends on it. -/
theorem covered_players_iff (hcovered : (s.playerTracker kept).Covered) (player : PlayerId)
    (hother : ∀ p, p ≠ player → t.game.playerComponent p = s.game.playerComponent p)
    (hsaved : ∀ p, p ≠ player → t.savedPlayer p = s.savedPlayer p)
    (hindex : ∀ entry ∈ s.dirtyPlayers, entry ∈ t.dirtyPlayers) :
    (t.playerTracker kept).Covered ↔ (t.playerTracker kept).CoveredAt player :=
  Tracker.covered_iff_of_change hcovered player (fun p hp => records_congr (hother p hp)) hsaved hindex

theorem covered_buildings_iff (hcovered : s.buildingTracker.Covered) (entity : Entity)
    (hother : ∀ e, e ≠ entity → t.buildings e = s.buildings e)
    (hsaved : ∀ e, e ≠ entity → t.savedBuilding e = s.savedBuilding e)
    (hindex : ∀ e ∈ s.dirtyBuildings, e ∈ t.dirtyBuildings) :
    t.buildingTracker.Covered ↔ t.buildingTracker.CoveredAt entity :=
  Tracker.covered_iff_of_change hcovered entity (fun e he => building_congr (hother e he)) hsaved hindex

theorem marked_iff : s.Marked kept ↔ (s.playerTracker kept).Covered ∧ s.buildingTracker.Covered := by
  constructor
  · rintro ⟨hplayers, hbuildings⟩
    refine ⟨fun p r hr => ?_, fun e r hr => ?_⟩
    · obtain ⟨⟨entity, c⟩, hcomponent, rfl⟩ := Option.map_eq_some_iff.mp hr
      exact hplayers p entity c hcomponent
    · obtain ⟨b, hb, rfl⟩ := Option.map_eq_some_iff.mp hr
      exact hbuildings e b hb
  · rintro ⟨hplayers, hbuildings⟩
    exact ⟨fun p entity c hcomponent => hplayers p _ (records_of_some hcomponent),
      fun e b hb => hbuildings e _ (building_of_some hb)⟩

/-- Each player has an entity of its own, with its id. -/
structure Sound (s : DirtyWorld P Q) : Prop where
  registered : s.game.Registered
  id : ∀ player entity c, s.game.playerComponent player = some (entity, c) → c.id = player

theorem sound_opened (rows : Entity → Option SavedBuilding) : (opened rows : DirtyWorld P Q).Sound where
  registered := GameState.registered_new
  id _ _ _ h := by cases h

theorem marked_opened (kept : P → Q) (rows : Entity → Option SavedBuilding) :
    (opened rows : DirtyWorld P Q).Marked kept where
  players _ _ _ h := by cases h
  buildings e b h hne := by
    obtain ⟨row, hrow, rfl⟩ := Option.map_eq_some_iff.mp h
    exact absurd hrow.symm hne

section Connect

variable {hub : SessionHub} {row : PlayerRow} {session : SessionId} {now : Nat}

/-- A row is loaded as it was saved but for a health that is none and a rank that is not one. -/
theorem saved_spawnPlayer_eq_iff (o : PlayerOps P) (kept : P → Q) (row : PlayerRow) (session : SessionId) :
    (spawnPlayer o row session).saved kept = row.saved (kept (loadProgrammator o row)) ↔
      (0 < row.health ∨ o.onHealthMax row.skills = row.health) ∧ row.asClanRank = row.clanRank := by
  rw [saved_spawnPlayer]
  constructor
  · intro heq
    have hhealth := congrArg SavedPlayer.health heq
    refine ⟨?_, congrArg SavedPlayer.clanRank heq⟩
    by_cases hpositive : 0 < row.health
    · exact .inl hpositive
    · exact .inr ((if_pos (Int32.not_lt.mp hpositive)).symm.trans hhealth)
  · rintro ⟨hhealth, hrank⟩
    have hsame : (if row.health ≤ 0 then o.onHealthMax row.skills else row.health) = row.health := by
      split
      · rename_i hnone
        exact hhealth.resolve_left (Int32.not_lt.mpr hnone)
      · rfl
    rw [hsame, hrank]
    rfl

theorem connect_of_closed (h : hub.isOpen session = false) : s.connect ops kept hub row session now = s := by
  rw [connect, GameState.connect_closed h, if_neg fun hboth => Bool.false_ne_true (h.symm.trans hboth.1)]

theorem Sound.connect (h : s.Sound) : (s.connect ops kept hub row session now).Sound := by
  refine ⟨h.registered.connect .., fun p entity c hcomponent => ?_⟩
  by_cases hp : p = row.id
  · subst hp
    cases hopen : hub.isOpen session with
    | false =>
        rw [connect_of_closed hopen] at hcomponent
        exact h.id _ _ _ hcomponent
    | true =>
        obtain ⟨hafter, -⟩ := @GameState.connect_self _ (ops now) _ s.game row _ hopen
        obtain ⟨-, rfl⟩ := Prod.mk.inj (Option.some.inj (hafter.symm.trans hcomponent))
        cases hbefore : s.game.playerComponent row.id with
        | none => rfl
        | some component => exact h.id row.id component.1 component.2 hbefore
  · exact h.id p entity c ((GameState.connect_other h.registered hp).1 ▸ hcomponent)

theorem covered_connect_iff (h : s.Sound) (hcovered : (s.playerTracker kept).Covered) :
    ((s.connect ops kept hub row session now).playerTracker kept).Covered ↔
      s.Careful ops kept (.connect hub row session now) := by
  cases hopen : hub.isOpen session with
  | false =>
      rw [connect_of_closed hopen]
      exact iff_of_true hcovered fun h => by cases hopen.symm.trans h
  | true =>
      obtain ⟨hafter, -⟩ := @GameState.connect_self _ (ops now) _ s.game row _ hopen
      have hsaved : ∀ p, p ≠ row.id → (s.connect ops kept hub row session now).savedPlayer p = s.savedPlayer p := by
        intro p hp
        rw [connect]
        dsimp only
        split
        · exact Function.update_of_ne hp ..
        · rfl
      refine Iff.trans (covered_players_iff hcovered row.id (fun p hp => (GameState.connect_other h.registered hp).1) hsaved
        fun _ hi => hi) ?_
      cases hbefore : s.game.playerComponent row.id with
      | none =>
          rw [hbefore] at hafter
          have hloaded : (s.connect ops kept hub row session now).savedPlayer row.id =
              some (row.saved (kept (loadProgrammator (ops now) row))) := by
            rw [connect, hbefore]
            dsimp only
            rw [if_pos ⟨hopen, rfl⟩, Function.update_self]
          rw [Tracker.coveredAt_iff (records_of_some hafter)]
          change (some _ ≠ (s.connect ops kept hub row session now).savedPlayer row.id → false = true ∧ _) ↔ _
          rw [hloaded, Careful, hbefore]
          have hiff := saved_spawnPlayer_eq_iff (ops now) kept row session
          constructor
          · intro hclean _
            refine ⟨fun _ _ hsome => (by cases hsome), fun _ => hiff.mp ?_⟩
            by_contra hne
            cases (hclean fun heq => hne (Option.some.inj heq)).1
          · intro hcareful hne
            exact absurd (congrArg some (hiff.mpr ((hcareful hopen).2 rfl))) hne
      | some component =>
          obtain ⟨entity, c⟩ := component
          rw [hbefore] at hafter
          have hsame : (s.connect ops kept hub row session now).savedPlayer row.id = s.savedPlayer row.id := by
            rw [connect, hbefore]
            exact congrFun (if_neg fun hboth => Bool.false_ne_true hboth.2) row.id
          rw [Tracker.coveredAt_iff (records_of_some hafter)]
          change (some (c.saved kept) ≠ (s.connect ops kept hub row session now).savedPlayer row.id →
            false = true ∧ _) ↔ _
          rw [hsame, Careful, hbefore]
          constructor
          · intro hclean _
            refine ⟨fun e d hsome => ?_, fun hnone => (by cases hnone)⟩
            obtain ⟨rfl, rfl⟩ := Prod.mk.inj (Option.some.inj hsome)
            by_contra hne
            cases (hclean (Ne.symm hne)).1
          · intro hcareful hne
            exact absurd ((hcareful hopen).1 entity c rfl).symm hne

end Connect

section Players

variable {session : SessionId} {now : Nat} {f : PlayerEntity P → PlayerEntity P} {insert : PlayerEntity P → Bool}

theorem publishPlayer_of_some (h : s.game.playerComponent player = some (entity, c)) : s.publishPlayer kept player =
    { s with savedPlayer := Function.update s.savedPlayer player (some (c.saved kept)) } := by
  rw [publishPlayer, h]

theorem publishPlayer_of_none (h : s.game.playerComponent player = none) : s.publishPlayer kept player = s := by
  rw [publishPlayer, h]

theorem savedPlayer_publishPlayer_self (kept : P → Q) (h : s.game.playerComponent player = some (entity, c)) :
    (s.publishPlayer kept player).savedPlayer player = some (c.saved kept) :=
  (congrArg (fun t => savedPlayer t player) (publishPlayer_of_some h)).trans (Function.update_self ..)

theorem game_publishPlayer (kept : P → Q) (s : DirtyWorld P Q) (player : PlayerId) :
    (s.publishPlayer kept player).game = s.game := by
  rw [publishPlayer]
  split <;> rfl

theorem savedPlayer_publishPlayer_of_ne (h : other ≠ player) :
    (s.publishPlayer kept player).savedPlayer other = s.savedPlayer other := by
  rw [publishPlayer]
  split
  · exact Function.update_of_ne h ..
  · rfl

theorem dirtyPlayers_publishPlayer (kept : P → Q) (s : DirtyWorld P Q) (player : PlayerId) :
    (s.publishPlayer kept player).dirtyPlayers = s.dirtyPlayers := by
  rw [publishPlayer]
  split <;> rfl

theorem covered_publishPlayer (hcovered : (s.playerTracker kept).Covered) :
    ((s.publishPlayer kept player).playerTracker kept).Covered := by
  have hgame := game_publishPlayer kept s player
  refine Iff.mpr (covered_players_iff hcovered player (fun p _ => by rw [hgame])
    (fun p hp => savedPlayer_publishPlayer_of_ne hp) fun _ hi => dirtyPlayers_publishPlayer kept s player ▸ hi) ?_
  cases hcomponent : s.game.playerComponent player with
  | none => exact Tracker.coveredAt_of_none (records_of_none (hgame.symm ▸ hcomponent))
  | some component =>
      obtain ⟨entity, c⟩ := component
      have hafter : (s.publishPlayer kept player).game.playerComponent player = some (entity, c) := hgame.symm ▸ hcomponent
      exact Iff.mpr (Tracker.coveredAt_iff (records_of_some hafter))
        fun hne => absurd (savedPlayer_publishPlayer_self kept hcomponent).symm hne

theorem Sound.of_game (h : s.Sound) (hgame : t.game = s.game) : t.Sound := ⟨hgame ▸ h.registered, hgame ▸ h.id⟩

theorem Sound.disconnect (h : s.Sound) : (s.disconnect ops kept player session now).Sound := by
  cases howner : s.game.activePlayerEntityForSession player session with
  | none =>
      rw [DirtyWorld.disconnect, howner]
      exact h
  | some owner =>
      obtain ⟨-, -, hafter⟩ := @GameState.disconnect_self _ (ops now) _ _ _ _ h.registered howner
      rw [DirtyWorld.disconnect, howner]
      refine ⟨h.registered.disconnect (ops now) player session, fun p entity c hcomponent => ?_⟩
      dsimp only at hcomponent
      by_cases hp : p = player
      · subst hp
        rw [hafter] at hcomponent
        obtain ⟨component, hbefore, hkeeps⟩ := Option.bind_eq_some_iff.mp hcomponent
        obtain ⟨-, hsome⟩ := Option.ite_none_right_eq_some.mp hkeeps
        obtain ⟨-, rfl⟩ := Prod.mk.inj (Option.some.inj hsome)
        exact h.id p component.1 component.2 hbefore
      · exact h.id p entity c ((GameState.disconnect_other h.registered hp).1 ▸ hcomponent)

theorem covered_disconnect (h : s.Sound) (hcovered : (s.playerTracker kept).Covered) :
    ((s.disconnect ops kept player session now).playerTracker kept).Covered := by
  cases howner : s.game.activePlayerEntityForSession player session with
  | none =>
      rw [disconnect, howner]
      exact hcovered
  | some owner =>
      obtain ⟨-, -, hafter⟩ := @GameState.disconnect_self _ (ops now) _ _ _ _ h.registered howner
      rw [disconnect, howner]
      refine Iff.mpr (covered_players_iff hcovered player (fun p hp => (GameState.disconnect_other h.registered hp).1)
        (fun p hp => savedPlayer_publishPlayer_of_ne hp) fun _ hi => dirtyPlayers_publishPlayer kept s player ▸ hi) ?_
      intro r hr hne
      obtain ⟨⟨entity, c⟩, hcomponent, rfl⟩ := Option.map_eq_some_iff.mp hr
      obtain ⟨⟨e, d⟩, hbefore, hkeeps⟩ := Option.bind_eq_some_iff.mp (hafter.symm.trans hcomponent)
      obtain ⟨-, hsome⟩ := Option.ite_none_right_eq_some.mp hkeeps
      obtain ⟨rfl, rfl⟩ := Prod.mk.inj (Option.some.inj hsome)
      exact absurd (savedPlayer_publishPlayer_self kept hbefore).symm hne

theorem writePlayer_of_some (h : s.game.playerComponent player = some (entity, c)) : s.writePlayer player f insert =
    { s with
      game := s.game.modifyPlayer player fun c => { f c with id := c.id, incarnation := c.incarnation }
      dirtyPlayers :=
        if insert (f c) = true then s.dirtyPlayers.insert (entity, c.incarnation) else s.dirtyPlayers } := by
  rw [writePlayer, h]

theorem writePlayer_of_none (h : s.game.playerComponent player = none) : s.writePlayer player f insert = s := by
  rw [writePlayer, h]

theorem Sound.writePlayer (h : s.Sound) : (s.writePlayer player f insert).Sound := by
  cases hcomponent : s.game.playerComponent player with
  | none =>
      rw [writePlayer_of_none hcomponent]
      exact h
  | some component =>
      obtain ⟨entity, c⟩ := component
      rw [writePlayer_of_some hcomponent]
      refine ⟨h.registered.modifyPlayer .., fun p e d hd => ?_⟩
      dsimp only at hd
      by_cases hp : p = player
      · subst hp
        rw [GameState.playerComponent_modifyPlayer_self hcomponent] at hd
        obtain ⟨-, rfl⟩ := Prod.mk.inj (Option.some.inj hd)
        exact h.id p entity c hcomponent
      · rw [GameState.playerComponent_modifyPlayer_of_ne h.registered hp] at hd
        exact h.id p e d hd

theorem covered_writePlayer_iff (h : s.Sound) (hcovered : (s.playerTracker kept).Covered) :
    ((s.writePlayer player f insert).playerTracker kept).Covered ↔
      ∀ entity c, s.game.playerComponent player = some (entity, c) → s.savedPlayer player = some ((f c).saved kept) ∨
        (f c).dirty = true ∧ (insert (f c) = true ∨ (entity, c.incarnation) ∈ s.dirtyPlayers) := by
  cases hcomponent : s.game.playerComponent player with
  | none =>
      rw [writePlayer_of_none hcomponent]
      exact iff_of_true hcovered fun _ _ hsome => by cases hsome
  | some component =>
      obtain ⟨entity, c⟩ := component
      have hmem : (entity, c.incarnation) ∈
            (if insert (f c) = true then s.dirtyPlayers.insert (entity, c.incarnation) else s.dirtyPlayers) ↔
          insert (f c) = true ∨ (entity, c.incarnation) ∈ s.dirtyPlayers := by
        split
        · rename_i hinsert
          exact iff_of_true (List.mem_insert_self ..) (.inl hinsert)
        · rename_i hinsert
          exact (or_iff_right hinsert).symm
      rw [writePlayer_of_some hcomponent]
      refine Iff.trans (covered_players_iff hcovered player
        (fun p hp => GameState.playerComponent_modifyPlayer_of_ne h.registered hp _) (fun _ _ => rfl) fun entry hentry =>
          ?_) ?_
      · dsimp only
        split
        · exact List.mem_insert_of_mem hentry
        · exact hentry
      rw [Tracker.coveredAt_iff (records_of_some (GameState.playerComponent_modifyPlayer_self hcomponent _))]
      change (some ((f c).saved kept) ≠ s.savedPlayer player → (f c).dirty = true ∧ (entity, c.incarnation) ∈
        (if insert (f c) = true then s.dirtyPlayers.insert (entity, c.incarnation) else s.dirtyPlayers)) ↔ _
      rw [hmem]
      constructor
      · intro hclean e d hsome
        obtain ⟨rfl, rfl⟩ := Prod.mk.inj (Option.some.inj hsome)
        by_cases hsame : s.savedPlayer player = some ((f c).saved kept)
        · exact .inl hsame
        · exact .inr (hclean (Ne.symm hsame))
      · intro hcareful hne
        exact (hcareful entity c rfl).resolve_left (Ne.symm hne)

section Round

variable {entry : Entity × SessionId}

/-- Of an entry that is not that of a player there, and marked, no snapshot is made. -/
theorem snapshotDirtyPlayer_cases (h : s.Sound) (kept : P → Q) (entry : Entity × SessionId) :
    (∃ c, s.game.playerComponent c.id = some (entry.1, c) ∧ c.incarnation = entry.2 ∧ c.dirty = true ∧
        s.snapshotDirtyPlayerInEcs kept entry =
          { s with
            game := s.game.modifyPlayer c.id fun c => { c with dirty := false }
            savedPlayer := Function.update s.savedPlayer c.id (some (c.saved kept)) }) ∨
      s.snapshotDirtyPlayerInEcs kept entry = s ∧
        ∀ p c, s.game.playerComponent p = some (entry.1, c) → c.incarnation = entry.2 → c.dirty = false := by
  rw [snapshotDirtyPlayerInEcs]
  cases hc : s.game.ecs entry.1 with
  | none =>
      refine .inr ⟨rfl, fun p c hcomponent => ?_⟩
      cases hc.symm.trans (GameState.playerComponent_eq_some.mp hcomponent).2
  | some c =>
      have hsame : ∀ p d, s.game.playerComponent p = some (entry.1, d) →
          d = c ∧ s.game.playerEntities c.id = some entry.1 := by
        intro p d hcomponent
        obtain ⟨hentity, hd⟩ := GameState.playerComponent_eq_some.mp hcomponent
        obtain rfl := Option.some.inj (hc.symm.trans hd)
        exact ⟨rfl, h.id p entry.1 c hcomponent ▸ hentity⟩
      dsimp only
      split
      · rename_i hstale
        refine .inr ⟨rfl, fun p d hcomponent hincarnation => ?_⟩
        obtain ⟨rfl, -⟩ := hsame p d hcomponent
        exact hstale.resolve_left fun hne => hne hincarnation
      · rename_i hfresh
        obtain ⟨hincarnation, hdirty⟩ := not_or.mp hfresh
        split
        · rename_i howner
          exact .inr ⟨rfl, fun p d hcomponent _ => absurd (hsame p d hcomponent).2 howner⟩
        · rename_i howner
          have hcomponent := GameState.playerComponent_eq_some.mpr ⟨not_not.mp howner, hc⟩
          refine .inl ⟨c, hcomponent, not_not.mp hincarnation, Bool.eq_true_of_not_eq_false hdirty, ?_⟩
          rw [GameState.modifyPlayer_of_some hcomponent]

theorem Sound.snapshotDirtyPlayer (h : s.Sound) : (s.snapshotDirtyPlayerInEcs kept entry).Sound := by
  rcases snapshotDirtyPlayer_cases h kept entry with ⟨c, hcomponent, -, -, heq⟩ | ⟨heq, -⟩
  · rw [heq]
    refine ⟨h.registered.modifyPlayer .., fun p e d hd => ?_⟩
    dsimp only at hd
    by_cases hp : p = c.id
    · subst hp
      rw [GameState.playerComponent_modifyPlayer_self hcomponent] at hd
      obtain ⟨-, rfl⟩ := Prod.mk.inj (Option.some.inj hd)
      rfl
    · rw [GameState.playerComponent_modifyPlayer_of_ne h.registered hp] at hd
      exact h.id p e d hd
  · rw [heq]
    exact h

/-- A snapshot of a player saves what is marked under its entry. -/
theorem playerTracker_snapshot (h : s.Sound) :
    (s.snapshotDirtyPlayerInEcs kept entry).playerTracker kept = (s.playerTracker kept).snapshot entry := by
  rcases snapshotDirtyPlayer_cases h kept entry with ⟨c, hcomponent, hincarnation, hdirty, heq⟩ | ⟨heq, hclean⟩
  · have htag : (entry.1, c.incarnation) = entry := Prod.ext rfl hincarnation
    obtain ⟨hrecord, hsaved⟩ := Tracker.snapshot_of_some (i := entry)
      (show (s.playerTracker kept).records _ = _ from records_of_some hcomponent)
    rw [if_pos htag] at hrecord
    rw [if_pos ⟨htag, hdirty⟩] at hsaved
    rw [heq]
    refine Tracker.ext (funext fun p => ?_) rfl (funext fun p => ?_)
    · by_cases hp : p = c.id
      · subst hp
        rw [hrecord]
        have hafter := GameState.playerComponent_modifyPlayer_self hcomponent fun c => { c with dirty := false }
        exact congrArg (Option.map _) hafter
      · refine (records_congr (s := s) (GameState.playerComponent_modifyPlayer_of_ne h.registered hp _)).trans ?_
        cases hr : s.game.playerComponent p with
        | none =>
            have hnone : (s.playerTracker kept).records _ = none := records_of_none hr
            rw [hnone, (Tracker.snapshot_of_none hnone).1]
        | some component =>
            obtain ⟨e, d⟩ := component
            have hne : ¬ (e, d.incarnation) = entry := by
              rintro rfl
              exact hp (h.registered.distinct p c.id e (GameState.playerComponent_eq_some.mp hr).1
                (GameState.playerComponent_eq_some.mp hcomponent).1)
            rw [(Tracker.snapshot_of_some (records_of_some hr)).1, records_of_some hr, if_neg hne]
    · by_cases hp : p = c.id
      · subst hp
        rw [hsaved]
        exact Function.update_self ..
      · refine (Function.update_of_ne hp ..).trans ?_
        cases hr : s.game.playerComponent p with
        | none =>
            have hnone : (s.playerTracker kept).records _ = none := records_of_none hr
            rw [(Tracker.snapshot_of_none hnone).2]
            rfl
        | some component =>
            obtain ⟨e, d⟩ := component
            have hne : ¬ (e, d.incarnation) = entry := by
              rintro rfl
              exact hp (h.registered.distinct p c.id e (GameState.playerComponent_eq_some.mp hr).1
                (GameState.playerComponent_eq_some.mp hcomponent).1)
            rw [(Tracker.snapshot_of_some (records_of_some hr)).2, if_neg fun hboth => hne hboth.1]
            rfl
  · rw [heq]
    refine (Tracker.snapshot_eq_self fun p r hr htag => ?_).symm
    obtain ⟨⟨e, d⟩, hcomponent, rfl⟩ := Option.map_eq_some_iff.mp hr
    obtain rfl := htag
    exact hclean p d hcomponent rfl

theorem foldl_snapshotDirtyPlayer (h : s.Sound) (entries : List (Entity × SessionId)) :
    (entries.foldl (snapshotDirtyPlayerInEcs kept) s).Sound ∧
      (entries.foldl (snapshotDirtyPlayerInEcs kept) s).playerTracker kept =
        entries.foldl Tracker.snapshot (s.playerTracker kept) ∧
      (entries.foldl (snapshotDirtyPlayerInEcs kept) s).buildingTracker = s.buildingTracker := by
  induction entries generalizing s with
  | nil => exact ⟨h, rfl, rfl⟩
  | cons entry entries ih =>
      obtain ⟨hsound, hplayers, hbuildings⟩ := ih (show (s.snapshotDirtyPlayerInEcs kept entry).Sound from h.snapshotDirtyPlayer)
      rw [playerTracker_snapshot h] at hplayers
      refine ⟨hsound, hplayers, hbuildings.trans ?_⟩
      rcases snapshotDirtyPlayer_cases h kept entry with ⟨c, -, -, -, heq⟩ | ⟨heq, -⟩
      · rw [heq]
        rfl
      · rw [heq]

/-- A round of snapshots of players is one of those that are tracked. -/
theorem flushDirtyPlayersOnce_spec (h : s.Sound) (kept : P → Q) (admits : Entity × SessionId → Bool) :
    (s.flushDirtyPlayersOnce kept admits).Sound ∧
      (s.flushDirtyPlayersOnce kept admits).playerTracker kept = (s.playerTracker kept).flush admits ∧
      (s.flushDirtyPlayersOnce kept admits).buildingTracker = s.buildingTracker :=
  foldl_snapshotDirtyPlayer (s := { s with dirtyPlayers := s.dirtyPlayers.filter fun entry => !admits entry })
    (h.of_game rfl) _

end Round

end Players

section Buildings

variable {b : FlaggedBuilding} {f : FlaggedBuilding → FlaggedBuilding} {insert : Bool}

theorem writeBuilding_of_some (h : s.buildings entity = some b) : s.writeBuilding entity f insert =
    { s with
      buildings := Function.update s.buildings entity (some (f b))
      dirtyBuildings := if insert = true then s.dirtyBuildings.insert entity else s.dirtyBuildings } := by
  rw [writeBuilding, h]

theorem writeBuilding_of_none (h : s.buildings entity = none) : s.writeBuilding entity f insert = s := by
  rw [writeBuilding, h]

/-- A write to a building leaves the players alone. -/
theorem writeBuilding_players (kept : P → Q) (s : DirtyWorld P Q) (entity : Entity) (f : FlaggedBuilding → FlaggedBuilding)
    (insert : Bool) : (s.writeBuilding entity f insert).game = s.game ∧
      (s.writeBuilding entity f insert).playerTracker kept = s.playerTracker kept := by
  rw [writeBuilding]
  split
  · exact ⟨rfl, rfl⟩
  · exact ⟨rfl, rfl⟩

theorem covered_writeBuilding_iff (hcovered : s.buildingTracker.Covered) :
    (s.writeBuilding entity f insert).buildingTracker.Covered ↔ ∀ b, s.buildings entity = some b →
      s.savedBuilding entity = some (f b).row ∨ (f b).dirty = true ∧ (insert = true ∨ entity ∈ s.dirtyBuildings) := by
  cases hb : s.buildings entity with
  | none =>
      rw [writeBuilding_of_none hb]
      exact iff_of_true hcovered fun _ hsome => by cases hsome
  | some b =>
      have hmem : entity ∈ (if insert = true then s.dirtyBuildings.insert entity else s.dirtyBuildings) ↔
          insert = true ∨ entity ∈ s.dirtyBuildings := by
        split
        · rename_i hinsert
          exact iff_of_true (List.mem_insert_self ..) (.inl hinsert)
        · rename_i hinsert
          exact (or_iff_right hinsert).symm
      rw [writeBuilding_of_some hb]
      refine Iff.trans (covered_buildings_iff hcovered entity (fun e he => Function.update_of_ne he ..) (fun _ _ => rfl)
        fun e he => ?_) ?_
      · dsimp only
        split
        · exact List.mem_insert_of_mem he
        · exact he
      rw [Tracker.coveredAt_iff (building_of_some (Function.update_self ..))]
      change (some (f b).row ≠ s.savedBuilding entity → (f b).dirty = true ∧
        entity ∈ (if insert = true then s.dirtyBuildings.insert entity else s.dirtyBuildings)) ↔ _
      rw [hmem]
      constructor
      · intro hclean d hsome
        obtain rfl := Option.some.inj hsome
        by_cases hsame : s.savedBuilding entity = some (f b).row
        · exact .inl hsame
        · exact .inr (hclean (Ne.symm hsame))
      · intro hcareful hne
        exact (hcareful b rfl).resolve_left (Ne.symm hne)

theorem covered_publishBuilding (hcovered : s.buildingTracker.Covered) :
    (s.publishBuilding entity).buildingTracker.Covered := by
  rw [publishBuilding]
  split
  · rename_i b hb
    refine Iff.mpr (covered_buildings_iff hcovered entity (fun _ _ => rfl) (fun e he => Function.update_of_ne he ..)
      fun _ he => he) ?_
    refine Iff.mpr (Tracker.coveredAt_iff (building_of_some hb)) fun hne => absurd ?_ hne
    exact (Function.update_self entity _ s.savedBuilding).symm
  · exact hcovered

theorem covered_spawnBuilding {row : SavedBuilding} (hcovered : s.buildingTracker.Covered)
    (hstep : s.spawnBuilding entity row = some t) : t.buildingTracker.Covered := by
  obtain ⟨-, ht⟩ := Option.ite_none_right_eq_some.mp hstep
  obtain rfl := Option.some.inj ht
  refine Iff.mpr (covered_buildings_iff hcovered entity (fun e he => Function.update_of_ne he ..)
    (fun e he => Function.update_of_ne he ..) fun _ he => he) ?_
  refine Iff.mpr (Tracker.coveredAt_iff (building_of_some (Function.update_self ..))) fun hne => absurd ?_ hne
  exact (Function.update_self entity _ s.savedBuilding).symm

theorem covered_despawnBuilding (hcovered : s.buildingTracker.Covered) :
    (s.despawnBuilding entity).buildingTracker.Covered := by
  refine Iff.mpr (covered_buildings_iff hcovered entity (fun e he => Function.update_of_ne he ..) (fun _ _ => rfl)
    fun _ he => he) ?_
  exact Tracker.coveredAt_of_none (building_of_none (Function.update_self ..))

/-- A snapshot of a building saves what is marked. -/
theorem buildingTracker_snapshot (s : DirtyWorld P Q) (entity : Entity) :
    (s.snapshotDirtyBuilding entity).buildingTracker = s.buildingTracker.snapshot entity := by
  have hself : ∀ e r, s.buildingTracker.records e = some r → r.tag = e := by
    intro e r hr
    obtain ⟨b, -, rfl⟩ := Option.map_eq_some_iff.mp hr
    rfl
  rw [snapshotDirtyBuilding]
  cases hb : s.buildings entity with
  | none =>
      refine (Tracker.snapshot_eq_self fun e r hr htag => ?_).symm
      obtain rfl := (hself e r hr).symm.trans htag
      obtain ⟨b, hsome, -⟩ := Option.map_eq_some_iff.mp hr
      cases hb.symm.trans hsome
  | some b =>
      dsimp only
      split
      · rename_i hclean
        refine (Tracker.snapshot_eq_self fun e r hr htag => ?_).symm
        obtain rfl := (hself e r hr).symm.trans htag
        obtain ⟨d, hsome, rfl⟩ := Option.map_eq_some_iff.mp hr
        exact Option.some.inj (hb.symm.trans hsome) ▸ hclean
      · rename_i hdirty
        obtain ⟨hrecord, hsaved⟩ := Tracker.snapshot_of_some (i := entity) (building_of_some hb)
        rw [if_pos rfl] at hrecord
        rw [if_pos ⟨rfl, Bool.eq_true_of_not_eq_false hdirty⟩] at hsaved
        refine Tracker.ext (funext fun e => ?_) rfl (funext fun e => ?_)
        · by_cases he : e = entity
          · subst he
            rw [hrecord]
            exact congrArg (Option.map _) (Function.update_self e (some { b with dirty := false }) s.buildings)
          · refine (building_congr (s := s) (Function.update_of_ne he ..)).trans ?_
            cases hr : s.buildingTracker.records e with
            | none => exact ((Tracker.snapshot_of_none hr).1).symm
            | some r => rw [(Tracker.snapshot_of_some hr).1, if_neg fun htag => he ((hself e r hr).symm.trans htag)]
        · by_cases he : e = entity
          · subst he
            rw [hsaved]
            exact Function.update_self ..
          · refine (Function.update_of_ne he ..).trans ?_
            cases hr : s.buildingTracker.records e with
            | none => exact ((Tracker.snapshot_of_none hr).2).symm
            | some r =>
                rw [(Tracker.snapshot_of_some hr).2, if_neg fun hboth => he ((hself e r hr).symm.trans hboth.1)]
                rfl

theorem foldl_snapshotDirtyBuilding (kept : P → Q) (s : DirtyWorld P Q) (entities : List Entity) :
    (entities.foldl snapshotDirtyBuilding s).buildingTracker = entities.foldl Tracker.snapshot s.buildingTracker ∧
      (entities.foldl snapshotDirtyBuilding s).game = s.game ∧
      (entities.foldl snapshotDirtyBuilding s).playerTracker kept = s.playerTracker kept := by
  induction entities generalizing s with
  | nil => exact ⟨rfl, rfl, rfl⟩
  | cons entity entities ih =>
      obtain ⟨hbuildings, hgame, hplayers⟩ := ih (s.snapshotDirtyBuilding entity)
      rw [buildingTracker_snapshot] at hbuildings
      have hsame : (s.snapshotDirtyBuilding entity).game = s.game ∧
          (s.snapshotDirtyBuilding entity).playerTracker kept = s.playerTracker kept := by
        rw [snapshotDirtyBuilding]
        split
        · exact ⟨rfl, rfl⟩
        · split
          · exact ⟨rfl, rfl⟩
          · exact ⟨rfl, rfl⟩
      exact ⟨hbuildings, hgame.trans hsame.1, hplayers.trans hsame.2⟩

/-- A round of snapshots of buildings is one of those that are tracked. -/
theorem flushDirtyBuildingsOnce_spec (kept : P → Q) (s : DirtyWorld P Q) (admits : Entity → Bool) :
    (s.flushDirtyBuildingsOnce admits).buildingTracker = s.buildingTracker.flush admits ∧
      (s.flushDirtyBuildingsOnce admits).game = s.game ∧
      (s.flushDirtyBuildingsOnce admits).playerTracker kept = s.playerTracker kept :=
  foldl_snapshotDirtyBuilding kept { s with dirtyBuildings := s.dirtyBuildings.filter fun entity => !admits entity } _

end Buildings

end DirtyWorld

end OpenMines

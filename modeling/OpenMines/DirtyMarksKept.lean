import OpenMines.DirtyTrackers

namespace OpenMines

open Lib.DirtyTracking Lib.Run

namespace DirtyWorld

variable {P Q : Type} {ops : Nat → PlayerOps P} {kept : P → Q} {s t : DirtyWorld P Q}

section Steps

theorem Sound.flushDirtyBuildingsOnce (h : s.Sound) (kept : P → Q) (admits : Entity → Bool) :
    (s.flushDirtyBuildingsOnce admits).Sound :=
  h.of_game (flushDirtyBuildingsOnce_spec kept s admits).2.1

theorem sound_step {e : DirtyEvent P} (h : s.Sound) (hstep : s.step ops kept e = some t) : t.Sound := by
  cases e with
  | connect hub row session now => exact Option.some.inj hstep ▸ h.connect
  | disconnect player session now => exact Option.some.inj hstep ▸ h.disconnect
  | modifyPlayer player f => exact Option.some.inj hstep ▸ h.writePlayer
  | writePlayer player f insert => exact Option.some.inj hstep ▸ h.writePlayer
  | publishPlayer player => exact Option.some.inj hstep ▸ h.of_game (game_publishPlayer kept s player)
  | flushPlayers admits => exact Option.some.inj hstep ▸ (flushDirtyPlayersOnce_spec h kept admits).1
  | spawnBuilding entity row =>
      obtain ⟨-, ht⟩ := Option.ite_none_right_eq_some.mp hstep
      exact Option.some.inj ht ▸ h.of_game rfl
  | despawnBuilding entity => exact Option.some.inj hstep ▸ h.of_game rfl
  | modifyPack entity f => exact Option.some.inj hstep ▸ h.of_game (writeBuilding_players kept s entity _ _).1
  | writeBuilding entity f insert => exact Option.some.inj hstep ▸ h.of_game (writeBuilding_players kept s entity _ _).1
  | markBuildingDirty entity => exact Option.some.inj hstep ▸ h.of_game (writeBuilding_players kept s entity _ _).1
  | publishBuilding entity =>
      obtain rfl := Option.some.inj hstep
      rw [publishBuilding]
      split
      · exact h.of_game rfl
      · exact h
  | flushBuildings admits => exact Option.some.inj hstep ▸ h.flushDirtyBuildingsOnce kept admits

/-- A step of players leaves the buildings alone. -/
theorem marked_iff_of_players (hbuildings : t.buildingTracker = s.buildingTracker) (hmarked : s.Marked kept) :
    t.Marked kept ↔ (t.playerTracker kept).Covered := by
  rw [marked_iff, hbuildings]
  exact and_iff_left (marked_iff.mp hmarked).2

theorem marked_iff_of_buildings (hplayers : t.playerTracker kept = s.playerTracker kept) (hmarked : s.Marked kept) :
    t.Marked kept ↔ t.buildingTracker.Covered := by
  rw [marked_iff, hplayers]
  exact and_iff_right (marked_iff.mp hmarked).1

theorem buildings_publishPlayer (kept : P → Q) (s : DirtyWorld P Q) (player : PlayerId) :
    (s.publishPlayer kept player).buildingTracker = s.buildingTracker := by
  rw [publishPlayer]
  split <;> rfl

theorem buildings_disconnect (s : DirtyWorld P Q) (player : PlayerId) (session : SessionId) (now : Nat) :
    (s.disconnect ops kept player session now).buildingTracker = s.buildingTracker := by
  rw [disconnect]
  split
  · rfl
  · exact buildings_publishPlayer kept s player

theorem buildings_writePlayer (s : DirtyWorld P Q) (player : PlayerId) (f : PlayerEntity P → PlayerEntity P)
    (insert : PlayerEntity P → Bool) : (s.writePlayer player f insert).buildingTracker = s.buildingTracker := by
  rw [writePlayer]
  split <;> rfl

/-- A step keeps the marks just where it meets its condition. -/
theorem marked_step_iff {e : DirtyEvent P} (h : s.Sound) (hmarked : s.Marked kept)
    (hstep : s.step ops kept e = some t) : t.Marked kept ↔ s.Careful ops kept e := by
  obtain ⟨hplayers, hbuildings⟩ := marked_iff.mp hmarked
  cases e with
  | connect hub row session now =>
      obtain rfl := Option.some.inj hstep
      have hsame : (s.connect ops kept hub row session now).buildingTracker = s.buildingTracker := rfl
      exact (marked_iff_of_players hsame hmarked).trans (covered_connect_iff h hplayers)
  | disconnect player session now =>
      obtain rfl := Option.some.inj hstep
      refine (marked_iff_of_players (buildings_disconnect s player session now) hmarked).trans ?_
      exact iff_of_true (covered_disconnect h hplayers) trivial
  | modifyPlayer player f =>
      obtain rfl := Option.some.inj hstep
      refine (marked_iff_of_players (buildings_writePlayer ..) hmarked).trans ((covered_writePlayer_iff h hplayers).trans ?_)
      refine forall₃_congr fun entity c _ => or_congr_right ?_
      exact and_iff_left_of_imp fun hdirty => .inl hdirty
  | writePlayer player f insert =>
      obtain rfl := Option.some.inj hstep
      exact (marked_iff_of_players (buildings_writePlayer ..) hmarked).trans (covered_writePlayer_iff h hplayers)
  | publishPlayer player =>
      obtain rfl := Option.some.inj hstep
      refine (marked_iff_of_players (buildings_publishPlayer kept s player) hmarked).trans ?_
      exact iff_of_true (covered_publishPlayer hplayers) trivial
  | flushPlayers admits =>
      obtain rfl := Option.some.inj hstep
      obtain ⟨-, hflush, hsame⟩ := flushDirtyPlayersOnce_spec h kept admits
      refine (marked_iff_of_players hsame hmarked).trans (iff_of_true ?_ trivial)
      rw [hflush]
      exact hplayers.flush admits
  | spawnBuilding entity row =>
      have hsame : t.playerTracker kept = s.playerTracker kept := by
        obtain ⟨-, ht⟩ := Option.ite_none_right_eq_some.mp hstep
        exact Option.some.inj ht ▸ rfl
      exact (marked_iff_of_buildings hsame hmarked).trans (iff_of_true (covered_spawnBuilding hbuildings hstep) trivial)
  | despawnBuilding entity =>
      obtain rfl := Option.some.inj hstep
      have hsame : (s.despawnBuilding entity).playerTracker kept = s.playerTracker kept := rfl
      exact (marked_iff_of_buildings hsame hmarked).trans (iff_of_true (covered_despawnBuilding hbuildings) trivial)
  | modifyPack entity f =>
      obtain rfl := Option.some.inj hstep
      refine (marked_iff_of_buildings (writeBuilding_players kept s entity _ _).2 hmarked).trans ?_
      exact (covered_writeBuilding_iff hbuildings).trans (iff_of_true (fun b _ => .inr ⟨rfl, .inl rfl⟩) trivial)
  | writeBuilding entity f insert =>
      obtain rfl := Option.some.inj hstep
      refine (marked_iff_of_buildings (writeBuilding_players kept s entity _ _).2 hmarked).trans ?_
      exact covered_writeBuilding_iff hbuildings
  | markBuildingDirty entity =>
      obtain rfl := Option.some.inj hstep
      refine (marked_iff_of_buildings (writeBuilding_players kept s entity _ _).2 hmarked).trans ?_
      exact (covered_writeBuilding_iff hbuildings).trans (iff_of_true (fun b _ => .inr ⟨rfl, .inl rfl⟩) trivial)
  | publishBuilding entity =>
      obtain rfl := Option.some.inj hstep
      have hsame : (s.publishBuilding entity).playerTracker kept = s.playerTracker kept := by
        rw [publishBuilding]
        split <;> rfl
      exact (marked_iff_of_buildings hsame hmarked).trans (iff_of_true (covered_publishBuilding hbuildings) trivial)
  | flushBuildings admits =>
      obtain rfl := Option.some.inj hstep
      obtain ⟨hflush, -, hsame⟩ := flushDirtyBuildingsOnce_spec kept s admits
      refine (marked_iff_of_buildings hsame hmarked).trans (iff_of_true ?_ trivial)
      rw [hflush]
      exact hbuildings.flush admits

/-- A round of snapshots with room for all saves every player and every building. -/
theorem saved_round (h : s.Sound) (hmarked : s.Marked kept) :
    (∀ player entity c, (s.flushDirtyPlayersOnce kept fun _ => true).game.playerComponent player = some (entity, c) →
      (s.flushDirtyPlayersOnce kept fun _ => true).savedPlayer player = some (c.saved kept)) ∧
    ∀ entity b, (s.flushDirtyBuildingsOnce fun _ => true).buildings entity = some b →
      (s.flushDirtyBuildingsOnce fun _ => true).savedBuilding entity = some b.row := by
  obtain ⟨hplayers, hbuildings⟩ := marked_iff.mp hmarked
  obtain ⟨-, hflush, -⟩ := flushDirtyPlayersOnce_spec h kept fun _ => true
  obtain ⟨hround, -, -⟩ := flushDirtyBuildingsOnce_spec kept s fun _ => true
  constructor
  · intro player entity c hcomponent
    have hrecord : ((flushDirtyPlayersOnce kept s fun _ => true).playerTracker kept).records player = _ :=
      records_of_some hcomponent
    rw [hflush] at hrecord
    exact (congrArg (fun tracker => Tracker.saved tracker player) hflush).trans
      (Tracker.saved_flush_all hplayers (fun _ _ => rfl) hrecord)
  · intro entity b hb
    have hrecord := building_of_some hb
    rw [hround] at hrecord
    exact (congrArg (fun tracker => Tracker.saved tracker entity) hround).trans
      (Tracker.saved_flush_all hbuildings (fun _ _ => rfl) hrecord)

end Steps

section Mutators

theorem redCrystal_lt : 2 < 6 := by decide

/-- `apply_heal` of a player that may heal: a red crystal for some health. Nothing marks the player. -/
def applyHeal (healAmount : Int32) (addSkillExp : SkillSlots → SkillSlots) (c : PlayerEntity P) : PlayerEntity P :=
  if healAmount ≤ 0 ∨ c.maxHealth ≤ c.health ∨ c.crystals.get ⟨2, redCrystal_lt⟩ < 1 then c
  else
    { c with
      crystals := c.crystals.set 2 (c.crystals.get ⟨2, redCrystal_lt⟩ - 1) redCrystal_lt
      health := min (Lib.CheckedInt.saturatingAddI32 c.health healAmount) c.maxHealth
      skills := addSkillExp c.skills }

/-- `teleport_player`. -/
def teleportPlayer (x y : Int32) (c : PlayerEntity P) : PlayerEntity P := { c with x, y, dirty := true }

/-- What `apply_player_death_core` does to the player. Its caller does not put the player into the set. -/
def applyPlayerDeathCore (x y : Int32) (respCost : Int64) (stopProgram : P → P) (c : PlayerEntity P) : PlayerEntity P :=
  { c with
    crystals := if 0 < (c.crystals.toList.map Int64.toInt).sum then Vector.replicate 6 0 else c.crystals
    money := c.money - respCost
    x
    y
    health := c.maxHealth
    dirty := true
    programmator := stopProgram c.programmator }

/-- `clear_resp_bindings`, of one player. It does not put the player into the set. -/
def clearRespBinding (x y : Int32) (c : PlayerEntity P) : PlayerEntity P :=
  if c.respX = some x ∧ c.respY = some y then { c with respX := none, respY := none, dirty := true } else c

/-- The charge that a shot of `gun_firing_system` costs. It puts the gun into the set, but does not mark it. -/
def chargeShot (chargeCost : Int32) (b : FlaggedBuilding) : FlaggedBuilding :=
  if 0 < chargeCost then
    if chargeCost < b.row.charge then { b with row := { b.row with charge := b.row.charge - chargeCost } }
    else if 0 < b.row.charge then { b with row := { b.row with charge := 0 } }
    else b
  else b

/-- A heal of a player without a mark loses it just where it heals. -/
theorem careful_applyHeal_iff {player : PlayerId} {entity : Entity} {c : PlayerEntity P} {healAmount : Int32}
    {addSkillExp : SkillSlots → SkillSlots} (hcomponent : s.game.playerComponent player = some (entity, c))
    (hclean : c.dirty = false) (hsaved : s.savedPlayer player = some (c.saved kept)) :
    s.Careful ops kept (.modifyPlayer player (applyHeal healAmount addSkillExp)) ↔
      healAmount ≤ 0 ∨ c.maxHealth ≤ c.health ∨ c.crystals.get ⟨2, redCrystal_lt⟩ < 1 := by
  have hsame : s.Careful ops kept (.modifyPlayer player (applyHeal healAmount addSkillExp)) ↔
      c.saved kept = (applyHeal healAmount addSkillExp c).saved kept ∨
        (applyHeal healAmount addSkillExp c).dirty = true := by
    rw [Careful, hcomponent, hsaved]
    constructor
    · intro hcareful
      exact (hcareful entity c rfl).imp_left Option.some.inj
    · intro hcareful e d hsome
      obtain ⟨rfl, rfl⟩ := Prod.mk.inj (Option.some.inj hsome)
      exact hcareful.imp_left (congrArg some)
  rw [hsame, applyHeal]
  split
  · rename_i hidle
    exact iff_of_true (.inl rfl) hidle
  · rename_i hheals
    refine iff_of_false (fun hcareful => ?_) hheals
    rcases hcareful with heq | hdirty
    · have hcrystals := congrArg (fun saved => (SavedPlayer.crystals saved).get ⟨2, redCrystal_lt⟩) heq
      change c.crystals.get ⟨2, redCrystal_lt⟩ =
        (c.crystals.set 2 (c.crystals.get ⟨2, redCrystal_lt⟩ - 1) redCrystal_lt)[2] at hcrystals
      rw [Vector.getElem_set_self] at hcrystals
      have hless : ∀ n : Int64, n ≠ n - 1 := by grind
      exact hless _ hcrystals
    · cases hclean.symm.trans hdirty

end Mutators

section Runs

def wounded : PlayerRow :=
  { ScheduledPrograms.miner with
    health := 50
    crystals := Vector.replicate 6 3
    respX := some 8
    respY := some 8 }

def textOps : Nat → PlayerOps PlayerProgram := PlayerProgram.ops ScheduledPrograms.textOnly

def isRunning (p : PlayerProgram) : Bool := p.prog.running

def firstHub : SessionHub := SessionHub.new.open.1

def gun : SavedBuilding where
  id := 1
  typeCode := "G"
  x := 5
  y := 5
  ownerId := 7
  clanId := 1
  charge := 100
  maxCharge := 1000
  cost := 0
  hp := 1000
  maxHp := 1000
  clanzone := 0
  moneyInside := 0
  crystalsInside := Vector.replicate 6 0
  itemsInside := []
  craftRecipeId := none
  craftNum := 0
  craftEndTs := 0
  craftReady := false

/-- A player teleports and is saved; a building is charged, shoots, and is saved too. -/
def carefulRun : List (DirtyEvent PlayerProgram) :=
  [.connect firstHub wounded 1 0, .modifyPlayer 7 (teleportPlayer 20 20), .flushPlayers fun _ => true,
    .connect firstHub wounded 1 5, .spawnBuilding 3 gun,
    .modifyPack 3 fun b => { b with row := { b.row with charge := 200 } },
    .writeBuilding 3 (chargeShot 1) true, .flushBuildings fun _ => true, .disconnect 7 1 9]

/-- Whether a mark of the player with the id 7 or of the building 3 is lost. -/
def losesMark (s : DirtyWorld PlayerProgram Bool) : Bool :=
  ((s.game.playerComponent 7).any fun component =>
    some (component.2.saved isRunning) ≠ s.savedPlayer 7 ∧
      ¬ (component.2.dirty = true ∧ (component.1, component.2.incarnation) ∈ s.dirtyPlayers)) ||
  (s.buildings 3).any fun b => some b.row ≠ s.savedBuilding 3 ∧ ¬ (b.dirty = true ∧ 3 ∈ s.dirtyBuildings)

theorem not_marked_of_losesMark {s : DirtyWorld PlayerProgram Bool} (h : losesMark s = true) : ¬ s.Marked isRunning := by
  intro hmarked
  rcases Bool.or_eq_true_iff.mp h with hplayer | hbuilding
  · obtain ⟨⟨entity, c⟩, hcomponent, hlost⟩ := (Option.any_eq_true _ _).mp hplayer
    obtain ⟨hne, hnot⟩ := of_decide_eq_true hlost
    exact hnot (hmarked.players 7 entity c hcomponent hne)
  · obtain ⟨b, hb, hlost⟩ := (Option.any_eq_true _ _).mp hbuilding
    obtain ⟨hne, hnot⟩ := of_decide_eq_true hlost
    exact hnot (hmarked.buildings 3 b hb hne)

theorem not_marked_of_run {es : List (DirtyEvent PlayerProgram)}
    (h : (run (step textOps isRunning) (opened fun _ => none) es).map losesMark = some true) :
    ∃ t, run (step textOps isRunning) (opened fun _ => none) es = some t ∧ ¬ t.Marked isRunning := by
  obtain ⟨t, ht, hlost⟩ := Option.map_eq_some_iff.mp h
  exact ⟨t, ht, not_marked_of_losesMark hlost⟩

theorem carefulRun_careful :
    Meets (step textOps isRunning) (Careful textOps isRunning) (opened fun _ => none) carefulRun := by
  refine ⟨fun _ => ⟨fun _ _ h => (by cases h), fun _ => ⟨.inl (by decide), rfl⟩⟩, fun s₁ h₁ =>
    ⟨fun _ _ _ => .inr rfl, fun s₂ h₂ => ⟨trivial, fun s₃ h₃ => ⟨fun _ => ⟨?_, ?_⟩, fun s₄ h₄ => ⟨trivial, fun s₅ h₅ =>
      ⟨trivial, fun s₆ h₆ => ⟨?_, fun s₇ h₇ => ⟨trivial, fun s₈ h₈ => ⟨trivial, fun _ _ => trivial⟩⟩⟩⟩⟩⟩⟩⟩⟩
  all_goals
    obtain rfl := Option.get_of_eq_some (by decide) h₁
    obtain rfl := Option.get_of_eq_some (by decide) h₂
    obtain rfl := Option.get_of_eq_some (by decide) h₃
  · intro entity c hcomponent
    obtain ⟨-, rfl⟩ := Prod.mk.inj (Option.some.inj hcomponent)
    decide
  · intro hnone
    cases hnone
  · obtain rfl := Option.get_of_eq_some (by decide) h₄
    obtain rfl := Option.get_of_eq_some (by decide) h₅
    obtain rfl := Option.get_of_eq_some (by decide) h₆
    intro b hb
    obtain rfl := Option.some.inj hb
    exact .inr ⟨by decide, .inl rfl⟩

end Runs

end DirtyWorld

end OpenMines

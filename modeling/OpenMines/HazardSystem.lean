import OpenMines.HazardSchedule

namespace OpenMines

open Lib

namespace Presence

variable {cells : BuildingCells} {s t u : Presence} {player : PlayerId}

/-- At most one player is moved, and nobody comes or goes. -/
structure Moved (s t : Presence) (player : PlayerId) : Prop where
  active : t.active = s.active
  others : ∀ other, other ≠ player → t.position other = s.position other
  present : (t.position player).isSome → (s.position player).isSome

theorem Moved.refl (s : Presence) (player : PlayerId) : Moved s s player := ⟨rfl, fun _ _ => rfl, id⟩

theorem Moved.trans (h : Moved s t player) (h' : Moved t u player) : Moved s u player :=
  ⟨h'.active.trans h.active, fun other hother => (h'.others other hother).trans (h.others other hother),
    fun hsome => h.present (h'.present hsome)⟩

theorem moved_setPlayer {p : PresentPlayer} (hp : s.players player = some p) (q : PresentPlayer) :
    Moved s (s.setPlayer player (some q)) player where
  active := rfl
  others other hother := by rw [(puts_setPlayer s player q).position, if_neg hother]
  present _ := by
    rw [position_of hp]
    rfl

theorem active_prepareChunkChanged (s : Presence) (player : PlayerId) :
    (s.prepareChunkChanged player).active = s.active := by
  rw [prepareChunkChanged]
  split
  · rfl
  · split
    · rfl
    · dsimp only
      split
      · exact active_registerPlayerChunk _ player _
      · exact active_registerPlayerChunk _ player _

theorem moved_prepareChunkChanged (s : Presence) (player : PlayerId) :
    Moved s (s.prepareChunkChanged player) player where
  active := active_prepareChunkChanged s player
  others other _ := (stays_prepareChunkChanged s player).position other
  present hsome := by
    rwa [(stays_prepareChunkChanged s player).position] at hsome

theorem moved_applyMove (cells : BuildingCells) (s : Presence) (player : PlayerId) (request : MoveRequest) :
    Moved s (s.applyMove cells player request) player := by
  rw [applyMove]
  cases hp : s.players player with
  | none => exact Moved.refl s player
  | some p =>
      dsimp only
      have hset := moved_setPlayer hp { p with pos := request.target }
      split
      · split
        · exact hset
        · exact hset.trans (moved_prepareChunkChanged _ player)
      · exact Moved.refl s player

theorem moved_applyTeleport (s : Presence) (player : PlayerId) (session : SessionId) (coords : String) :
    Moved s (s.applyTeleport player session coords) player := by
  rw [applyTeleport]
  split
  · cases hp : s.players player with
    | none => exact Moved.refl s player
    | some p =>
        dsimp only
        split
        · exact Moved.refl s player
        · exact (moved_setPlayer hp _).trans (moved_prepareChunkChanged _ player)
  · exact Moved.refl s player

theorem isSome_position_disconnect (s : Presence) (player : PlayerId) (session : SessionId)
    (h : ((s.disconnectInTick player session).position player).isSome) : (s.position player).isSome := by
  have hsaved (c : ChunkPos) :
      (((s.setActive player none).saveRow player).unregisterPlayerFromChunk player c).position player =
        s.position player := by
    rw [position, unregisterPlayerFromChunk, players_saveRow]
    rfl
  rw [disconnectInTick] at h
  split at h
  · dsimp only at h
    split at h
    · rwa [hsaved] at h
    · split at h
      · rwa [hsaved] at h
      · simp [position, setPlayer] at h
  · exact h

theorem active_disconnect {session : SessionId} (h : s.active player = some session) :
    (s.disconnectInTick player session).active player = none := by
  have hsaved : ((s.setActive player none).saveRow player).active player = none := by
    rw [saveRow]
    split <;> exact Function.update_self ..
  rw [disconnectInTick, if_pos h]
  dsimp only
  split
  · exact hsaved
  · split <;> exact hsaved

theorem active_deliverRefresh (s : Presence) (sameSession : Bool) :
    (s.deliverRefresh sameSession).active = s.active := by
  rw [deliverRefresh]
  split
  · rfl
  · dsimp only
    split
    · exact active_prepareChunkChanged _ _
    · rfl

theorem position_deliverRefresh (s : Presence) (sameSession : Bool) (other : PlayerId) :
    (s.deliverRefresh sameSession).position other = s.position other := by
  rw [deliverRefresh]
  split
  · rfl
  · dsimp only
    split
    · exact (stays_prepareChunkChanged _ _).position other
    · rfl

theorem active_saveRow (s : Presence) (player : PlayerId) : (s.saveRow player).active = s.active := by
  rw [saveRow]
  split <;> rfl

theorem position_change (s : Presence) (index : BuildingIndex) (cost : EntityId → Int32) (isEmpty : WorldPos → Bool)
    (bodies : PlayerId → PlayerBody) (other : PlayerId) :
    (s.change index cost isEmpty bodies).position other = s.position other := by
  rw [position, change, Option.map_map]
  rfl

end Presence

namespace HazardWorld

variable {cells : BuildingCells} {rules : HazardRules} {s t : HazardWorld} {player q : PlayerId} {entity : Entity}
  {pos : WorldPos}

/-- The player's entity is in the schedule. -/
def HasEntry (s : HazardWorld) (player : PlayerId) : Prop :=
  ∃ entity dueAt, s.registry player = some entity ∧ s.schedule.Holds entity dueAt

/-- The player is connected and stands there without an entry, and none is about to be made for it. -/
structure Unscheduled (s : HazardWorld) (player : PlayerId) (pos : WorldPos) : Prop where
  position : s.presence.position player = some pos
  connected : (s.presence.active player).isSome
  noEntry : ¬ s.HasEntry player
  settled : player ∉ s.deaths

/-- Where the player is alive and has no entry, the cell below it does nothing. -/
def Quiet (rules : HazardRules) (s : HazardWorld) (g : CellGrid) (player : PlayerId) : Prop :=
  ∀ pos, s.Unscheduled player pos → 0 < s.health player → rules.standingEffect g pos = false

/-- Each connected live player on a cell that does something has an entry, or is given one at the end of the tick
in which it died. -/
def Watched (rules : HazardRules) (s : HazardWorld) : Prop := ∀ player, s.Quiet rules s.grid player

/-- The entities of the players are told apart. -/
structure Linked (s : HazardWorld) : Prop where
  sound : s.schedule.Sound
  owned : ∀ player entity, s.registry player = some entity ↔ s.owner entity = some player
  fresh : ∀ player entity, s.registry player = some entity → entity < s.nextEntity
  present : ∀ player, (s.presence.position player).isSome → (s.registry player).isSome

theorem Linked.hasEntry_iff (h : s.Linked) :
    s.HasEntry player ↔ ∃ entity, s.registry player = some entity ∧ (s.schedule.scheduled entity).isSome := by
  constructor
  · rintro ⟨entity, dueAt, hentity, hholds⟩
    exact ⟨entity, hentity, Option.isSome_iff_exists.mpr ⟨dueAt, hholds.1⟩⟩
  · rintro ⟨entity, hentity, hsome⟩
    obtain ⟨dueAt, hdueAt⟩ := Option.isSome_iff_exists.mp hsome
    exact ⟨entity, dueAt, hentity, h.sound.holds_iff.mpr hdueAt⟩

/-! ### Frames -/

/-- Nothing changes about the bookkeeping of a player. -/
structure SameWatch (s t : HazardWorld) (player : PlayerId) : Prop where
  active : t.presence.active player = s.presence.active player
  position : t.presence.position player = s.presence.position player
  entry : t.HasEntry player ↔ s.HasEntry player
  deaths : player ∈ t.deaths ↔ player ∈ s.deaths
  health : t.health player = s.health player

theorem SameWatch.unscheduled_iff (h : SameWatch s t player) :
    t.Unscheduled player pos ↔ s.Unscheduled player pos := by
  constructor
  · rintro ⟨hpos, hconnected, hentry, hsettled⟩
    exact ⟨h.position ▸ hpos, h.active ▸ hconnected, fun he => hentry (h.entry.mpr he),
      fun hd => hsettled (h.deaths.mpr hd)⟩
  · rintro ⟨hpos, hconnected, hentry, hsettled⟩
    exact ⟨h.position.trans hpos, h.active.symm ▸ hconnected, fun he => hentry (h.entry.mp he),
      fun hd => hsettled (h.deaths.mp hd)⟩

theorem SameWatch.quiet_iff (h : SameWatch s t player) (g : CellGrid) :
    t.Quiet rules g player ↔ s.Quiet rules g player := by
  refine forall_congr' fun pos => ?_
  rw [h.unscheduled_iff, h.health]

/-- Who has an entry is quiet, whatever it stands on. -/
theorem quiet_of_hasEntry (h : s.HasEntry player) (g : CellGrid) : s.Quiet rules g player :=
  fun _ hunscheduled => absurd h hunscheduled.noEntry

/-- All players but one are as before, and that one is quiet. -/
theorem watched_iff_others (hothers : ∀ other, other ≠ player → SameWatch s t other)
    (hself : t.Quiet rules t.grid player) :
    t.Watched rules ↔ ∀ other, other ≠ player → s.Quiet rules t.grid other := by
  constructor
  · intro h other hother
    exact ((hothers other hother).quiet_iff _).mp (h other)
  · intro h other
    by_cases hother : other = player
    · exact hother ▸ hself
    · exact ((hothers other hother).quiet_iff _).mpr (h other hother)

/-! ### Entries -/

section Entries

variable {now : Nat}

@[simp] theorem scheduleHazard_presence (s : HazardWorld) (player : PlayerId) (now : Nat) :
    (s.scheduleHazard player now).presence = s.presence := by
  rw [scheduleHazard]
  split <;> rfl

@[simp] theorem scheduleHazard_grid (s : HazardWorld) (player : PlayerId) (now : Nat) :
    (s.scheduleHazard player now).grid = s.grid := by
  rw [scheduleHazard]
  split <;> rfl

@[simp] theorem scheduleHazard_health (s : HazardWorld) (player : PlayerId) (now : Nat) :
    (s.scheduleHazard player now).health = s.health := by
  rw [scheduleHazard]
  split <;> rfl

@[simp] theorem scheduleHazard_registry (s : HazardWorld) (player : PlayerId) (now : Nat) :
    (s.scheduleHazard player now).registry = s.registry := by
  rw [scheduleHazard]
  split <;> rfl

@[simp] theorem scheduleHazard_deaths (s : HazardWorld) (player : PlayerId) (now : Nat) :
    (s.scheduleHazard player now).deaths = s.deaths := by
  rw [scheduleHazard]
  split <;> rfl

/-- An entity that is scheduled, whoever it belongs to. -/
theorem Linked.scheduleEarliest (h : s.Linked) (entity : Entity) (now : Nat) :
    Linked { s with schedule := s.schedule.scheduleEarliest entity now } :=
  ⟨h.sound.scheduleEarliest entity now, h.owned, h.fresh, h.present⟩

theorem Linked.hasEntry_scheduleEarliest (h : s.Linked) (hentity : s.registry player = some entity) (now : Nat) :
    HasEntry { s with schedule := s.schedule.scheduleEarliest entity now } q ↔ q = player ∨ s.HasEntry q := by
  rw [(h.scheduleEarliest entity now).hasEntry_iff, h.hasEntry_iff]
  simp only [DueSchedule.isSome_scheduled_scheduleEarliest]
  constructor
  · rintro ⟨e, he, rfl | hsome⟩
    · have hq := (h.owned q e).mp he
      rw [(h.owned player e).mp hentity] at hq
      exact .inl (Option.some_inj.mp hq).symm
    · exact .inr ⟨e, he, hsome⟩
  · rintro (rfl | ⟨e, he, hsome⟩)
    · exact ⟨entity, hentity, .inl rfl⟩
    · exact ⟨e, he, .inr hsome⟩

theorem Linked.scheduleHazard (h : s.Linked) (player : PlayerId) (now : Nat) :
    (s.scheduleHazard player now).Linked := by
  rw [HazardWorld.scheduleHazard]
  split
  · exact h
  · exact h.scheduleEarliest _ now

theorem Linked.hasEntry_scheduleHazard (h : s.Linked) (player : PlayerId) (now : Nat) :
    (s.scheduleHazard player now).HasEntry q ↔ q = player ∧ (s.registry player).isSome ∨ s.HasEntry q := by
  rw [HazardWorld.scheduleHazard]
  cases hentity : s.registry player with
  | none => simp
  | some entity => simp [h.hasEntry_scheduleEarliest hentity]

theorem Linked.sameWatch_scheduleHazard (h : s.Linked) (hq : q ≠ player) (now : Nat) :
    SameWatch s (s.scheduleHazard player now) q where
  active := by rw [scheduleHazard_presence]
  position := by rw [scheduleHazard_presence]
  entry := by rw [h.hasEntry_scheduleHazard, or_iff_right (fun hself => hq hself.1)]
  deaths := by rw [scheduleHazard_deaths]
  health := by rw [scheduleHazard_health]

end Entries

/-! ### The system -/

section System

variable {journal : WorldPos → Bool} {nextDue : Nat} {p : WorldPos}

/-- A cell that breaks leaves nothing behind that was not there before. -/
theorem standingEffect_of_destroy {g : CellGrid} {ok : Bool}
    (hdestructible : rules.isDestructible (g.getCell (worldPos pos)) = true)
    (h : rules.standingEffect (g.destroy rules.toCellDefs (worldPos pos) ok) p = true) :
    rules.standingEffect g p = true := by
  rw [CellGrid.destroy] at h
  split at h
  · rename_i hdestroyed
    simp only [Bool.and_eq_true, Bool.not_eq_true'] at hdestroyed
    by_cases hp : worldPos p = worldPos pos
    · simp [HazardRules.standingEffect, hp, hdestroyed.1.1, hdestroyed.1.2, hdestructible]
    · rw [HazardRules.standingEffect, CellGrid.getCell_put _ _ _ hdestroyed.1.1, if_neg hp,
        CellGrid.validCoord_put] at h
      exact h
  · exact h

/-- What the system does to one player touches no entry. -/
structure Stood (rules : HazardRules) (s t : HazardWorld) : Prop where
  presence : t.presence = s.presence
  registry : t.registry = s.registry
  owner : t.owner = s.owner
  nextEntity : t.nextEntity = s.nextEntity
  deaths : t.deaths = s.deaths
  alive : ∀ q, 0 < t.health q → 0 < s.health q
  effect : ∀ p, rules.standingEffect t.grid p = true → rules.standingEffect s.grid p = true

theorem stood_fall {damage : Int32} (hdamage : 0 < damage) :
    Stood rules s (s.fall player damage) ∧ (s.fall player damage).schedule = s.schedule ∧
      (s.fall player damage).grid = s.grid := by
  rw [fall]
  split
  · rename_i hless
    refine ⟨⟨rfl, rfl, rfl, rfl, rfl, fun q (hq : 0 < Function.update s.health player _ q) => ?_, fun _ => id⟩,
      rfl, rfl⟩
    by_cases hself : q = player
    · exact hself ▸ Int32.lt_trans hdamage hless
    · rwa [Function.update_of_ne hself] at hq
  · refine ⟨⟨rfl, rfl, rfl, rfl, rfl, fun q (hq : 0 < Function.update s.health player 0 q) => ?_, fun _ => id⟩,
      rfl, rfl⟩
    by_cases hself : q = player
    · rw [hself, Function.update_self] at hq
      cases hq
    · rwa [Function.update_of_ne hself] at hq

theorem stood_standOn (rules : HazardRules) (s : HazardWorld) (player : PlayerId) (pos : WorldPos) (journal : WorldPos → Bool) :
    Stood rules s (s.standOn rules player pos journal) ∧
      (s.standOn rules player pos journal).schedule = s.schedule := by
  rw [standOn]
  have hhurt : ∃ t, (if 0 < rules.fallDamage (s.grid.getCell (worldPos pos)) then
      s.fall player (rules.fallDamage (s.grid.getCell (worldPos pos))) else s) = t ∧
        Stood rules s t ∧ t.schedule = s.schedule ∧ t.grid = s.grid := by
    refine ⟨_, rfl, ?_⟩
    split
    · rename_i hdamage
      exact stood_fall hdamage
    · exact ⟨⟨rfl, rfl, rfl, rfl, rfl, fun _ => id, fun _ => id⟩, rfl, rfl⟩
  obtain ⟨t, ht, hstood, hschedule, hgrid⟩ := hhurt
  rw [ht]
  split
  · exact ⟨{ hstood with }, hschedule⟩
  · split
    · rename_i hdestructible
      refine ⟨{ hstood with effect := fun p hp => ?_ }, hschedule⟩
      rw [hgrid] at hp
      exact standingEffect_of_destroy hdestructible hp
    · exact ⟨hstood, hschedule⟩

theorem Stood.hasEntry (h : Stood rules s t) (hschedule : t.schedule = s.schedule) :
    t.HasEntry q ↔ s.HasEntry q := by
  rw [HasEntry, HasEntry, h.registry, hschedule]

theorem Linked.stood (h : s.Linked) (hs : Stood rules s t) (hschedule : t.schedule = s.schedule) :
    t.Linked := by
  refine ⟨hschedule ▸ h.sound, fun player entity => ?_, fun player entity hentity => ?_, fun player hsome => ?_⟩
  · rw [hs.registry, hs.owner]
    exact h.owned player entity
  · rw [hs.registry] at hentity
    exact hs.nextEntity ▸ h.fresh player entity hentity
  · rw [hs.presence] at hsome
    exact hs.registry ▸ h.present player hsome

/-- One turn of the loop: entries are made only, and the player whose turn it is gets one if it needs one. -/
structure Turned (rules : HazardRules) (entity : Entity) (s t : HazardWorld) : Prop extends Stood rules s t where
  linked : t.Linked
  keeps : ∀ q, s.HasEntry q → t.HasEntry q
  enters : ∀ q pos, s.owner entity = some q → s.presence.position q = some pos → (s.presence.active q).isSome →
    0 < t.health q → rules.standingEffect t.grid pos = true → t.HasEntry q

theorem turned_refl (h : s.Linked) (henters : ∀ q pos, s.owner entity = some q → s.presence.position q = some pos →
    (s.presence.active q).isSome → 0 < s.health q → rules.standingEffect s.grid pos = false) :
    Turned rules entity s s where
  toStood := ⟨rfl, rfl, rfl, rfl, rfl, fun _ => id, fun _ => id⟩
  linked := h
  keeps _ := id
  enters q pos howner hpos hactive hhealth heffect := by
    rw [henters q pos howner hpos hactive hhealth] at heffect
    cases heffect

theorem turned_hazardTurn (h : s.Linked) (rules : HazardRules) (nextDue : Nat) (journal : WorldPos → Bool)
    (entity : Entity) :
    Turned rules entity s (s.hazardTurn rules nextDue journal entity) := by
  rw [hazardTurn]
  cases howner : s.owner entity with
  | none => exact turned_refl h fun q pos hq => by rw [howner] at hq; cases hq
  | some player =>
      dsimp only
      cases hp : s.presence.players player with
      | none =>
          refine turned_refl h fun q pos hq hpos => ?_
          obtain rfl := Option.some_inj.mp (howner.symm.trans hq)
          rw [Presence.position, hp] at hpos
          cases hpos
      | some p =>
          have hself {q : PlayerId} {pos : WorldPos} (hq : s.owner entity = some q)
              (hpos : s.presence.position q = some pos) : player = q ∧ p.pos = pos := by
            obtain rfl := Option.some_inj.mp (howner.symm.trans hq)
            exact ⟨rfl, Option.some_inj.mp ((Presence.position_of hp).symm.trans hpos)⟩
          dsimp only
          split
          · rename_i hidle
            refine turned_refl h fun q pos hq hpos hactive => ?_
            obtain ⟨rfl, rfl⟩ := hself hq hpos
            rw [Bool.and_eq_true, Option.isNone_iff_eq_none] at hidle
            rw [hidle.1] at hactive
            cases hactive
          · split
            · rename_i hdead
              refine turned_refl h fun q pos hq hpos _ hhealth => ?_
              obtain ⟨rfl, rfl⟩ := hself hq hpos
              exact absurd hhealth (Int32.not_lt.mpr hdead)
            · split
              · rename_i hout
                refine turned_refl h fun q pos hq hpos _ _ => ?_
                obtain ⟨rfl, rfl⟩ := hself hq hpos
                simp only [Bool.not_eq_true'] at hout
                simp [HazardRules.standingEffect, hout]
              · split
                · rename_i hempty
                  refine turned_refl h fun q pos hq hpos _ _ => ?_
                  obtain ⟨rfl, rfl⟩ := hself hq hpos
                  simp [HazardRules.standingEffect, hempty]
                · obtain ⟨hstood, hschedule⟩ := stood_standOn rules s player p.pos journal
                  have hlinked := h.stood hstood hschedule
                  have hregistry : (s.standOn rules player p.pos journal).registry player = some entity := by
                    rw [hstood.registry]
                    exact (h.owned player entity).mpr howner
                  split
                  · refine ⟨{ hstood with }, hlinked.scheduleEarliest entity nextDue, fun q hq => ?_,
                      fun q pos hq hpos _ _ _ => ?_⟩
                    · exact (hlinked.hasEntry_scheduleEarliest hregistry nextDue).mpr
                        (.inr ((hstood.hasEntry hschedule).mpr hq))
                    · exact (hlinked.hasEntry_scheduleEarliest hregistry nextDue).mpr (.inl (hself hq hpos).1.symm)
                  · rename_i hdead
                    refine ⟨hstood, hlinked, fun q => (hstood.hasEntry hschedule).mpr,
                      fun q pos hq hpos _ hhealth _ => ?_⟩
                    exact absurd ((hself hq hpos).1 ▸ hhealth) hdead

/-- Who needs an entry and has none is still to come in the batch. -/
def InBatch (rules : HazardRules) (s : HazardWorld) (batch : List (Entity × Nat)) : Prop :=
  ∀ q pos, s.Unscheduled q pos → 0 < s.health q → rules.standingEffect s.grid pos = true →
    ∃ entry ∈ batch, s.owner entry.1 = some q

theorem InBatch.turn {entry : Entity × Nat} {batch : List (Entity × Nat)} (h : s.InBatch rules (entry :: batch))
    (hturned : Turned rules entry.1 s t) : t.InBatch rules batch := by
  rintro q pos ⟨hpos, hactive, hentry, hsettled⟩ hhealth heffect
  have hpos' : s.presence.position q = some pos := hturned.presence ▸ hpos
  have hactive' : (s.presence.active q).isSome := hturned.presence ▸ hactive
  obtain ⟨e, he, howner⟩ := h q pos
    ⟨hpos', hactive', fun hs => hentry (hturned.keeps q hs), hturned.deaths ▸ hsettled⟩ (hturned.alive q hhealth)
    (hturned.effect pos heffect)
  rcases List.mem_cons.mp he with rfl | he
  · exact absurd (hturned.enters q pos howner hpos' hactive' hhealth heffect) hentry
  · exact ⟨e, he, hturned.owner ▸ howner⟩

theorem InBatch.watched (h : s.InBatch rules []) : s.Watched rules := by
  intro q pos hunscheduled hhealth
  by_contra heffect
  obtain ⟨e, he, -⟩ := h q pos hunscheduled hhealth (by simpa using heffect)
  cases he

theorem batch_watched {batch : List (Entity × Nat)} (hlinked : s.Linked) (h : s.InBatch rules batch) :
    Linked (batch.foldl (fun s entry => s.hazardTurn rules nextDue journal entry.1) s) ∧
      Watched rules (batch.foldl (fun s entry => s.hazardTurn rules nextDue journal entry.1) s) := by
  induction batch generalizing s with
  | nil => exact ⟨hlinked, h.watched⟩
  | cons entry batch ih =>
      have hturned := turned_hazardTurn hlinked rules nextDue journal entry.1
      exact ih hturned.linked (h.turn hturned)

/-- The system keeps the bookkeeping: what it takes from the schedule it puts back where that is needed. -/
theorem Watched.standingCellHazardSystem (h : s.Watched rules) (hlinked : s.Linked) (now limit nextDue : Nat)
    (journal : WorldPos → Bool) :
    (s.standingCellHazardSystem rules now limit nextDue journal).Linked ∧
      (s.standingCellHazardSystem rules now limit nextDue journal).Watched rules := by
  rw [HazardWorld.standingCellHazardSystem]
  have hpopped : Linked { s with schedule := (s.schedule.popDue now limit).2 } :=
    ⟨hlinked.sound.popDue, hlinked.owned, hlinked.fresh, hlinked.present⟩
  refine batch_watched hpopped ?_
  rintro q pos ⟨hpos, hactive, hentry, hsettled⟩ hhealth heffect
  by_cases hheld : s.HasEntry q
  · obtain ⟨entity, hentity, hsome⟩ := hlinked.hasEntry_iff.mp hheld
    by_cases hmem : entity ∈ (s.schedule.popDue now limit).1.map Prod.fst
    · obtain ⟨entry, hentry', rfl⟩ := List.mem_map.mp hmem
      exact ⟨entry, hentry', (hlinked.owned q entry.1).mp hentity⟩
    · refine absurd (hpopped.hasEntry_iff.mpr ⟨entity, hentity, ?_⟩) hentry
      rw [DueSchedule.popDue_scheduled, if_neg hmem]
      exact hsome
  · have hquiet := h q pos ⟨hpos, hactive, hheld, hsettled⟩ hhealth
    rw [hquiet] at heffect
    cases heffect

end System

end HazardWorld

end OpenMines

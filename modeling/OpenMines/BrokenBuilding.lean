import OpenMines.BuildingDelete
import OpenMines.BuildingPlacement

namespace OpenMines.BrokenBuilding

open Lib.Run Lib.Text

/-- A `std::time::Instant`, in nanoseconds. -/
abbrev Instant := Nat

def eightHours : Nat := 28800000000000

structure BuildingStats where
  charge : Int32
  maxCharge : Int32
  cost : Int32
  hp : Int32
  maxHp : Int32
  clanzone : Int32
  brokenTimer : Option Instant

def isDamagable : PackType → Bool
  | .gun | .resp | .teleport | .market | .up | .storage | .craft | .spot => true
  | .none | .vulkan | .levi | .jobs | .zalupa | .clans | .gate => false

/-- `.max(0)`. -/
def atLeastZero (n : Int32) : Int32 := if n < 0 then 0 else n

/-- With whether the charge changed. -/
def damageBuilding (now : Instant) (stats : BuildingStats) (i : Int32) : BuildingStats × Bool :=
  let charge := if 5 < i then atLeastZero (stats.charge - 100) else stats.charge
  let changed := decide (charge ≠ stats.charge)
  if stats.hp = 0 then ({ stats with charge }, changed)
  else
    let hp := atLeastZero (stats.hp - i)
    if hp = 0 ∧ stats.brokenTimer = none then ({ stats with charge, hp, brokenTimer := some now }, changed)
    else ({ stats with charge, hp }, changed)

def canDestroy (now : Instant) (stats : BuildingStats) : Bool :=
  decide (stats.hp = 0) && stats.brokenTimer.any fun t => decide (eightHours ≤ now - t)

def code : PackType → Char
  | .none => ' '
  | .teleport => 'T'
  | .resp => 'R'
  | .gun => 'G'
  | .market => 'M'
  | .up => 'U'
  | .storage => 'L'
  | .craft => 'F'
  | .vulkan => 'Q'
  | .spot => 'O'
  | .levi => 'W'
  | .jobs => 'J'
  | .zalupa => 'Y'
  | .clans => 'D'
  | .gate => ' '

/-- The configured types. `BuildingConfig::validate` does not let a building through that starts broken. -/
structure SoundConfigs where
  config : PackType → Option BuildingConfig
  hp_pos : ∀ packType c, config packType = some c → 0 < c.hp ∧ 0 < c.maxHp

/-- The storage and the crafting, which a row keeps as they are. -/
structure BuildingContents where
  money : Int
  crystals : Crystals
  items : List (Int32 × Int32)
  craftRecipeId : Option Int32
  craftNum : Int32
  craftEndTs : Int
  craftReady : Bool

/-- The components of a building. -/
structure LiveBuilding where
  entity : EntityId
  id : Int32
  packType : PackType
  pos : WorldPos
  ownerId : PlayerId
  clanId : Int32
  stats : BuildingStats
  contents : BuildingContents
  dirty : Bool
  deletePending : Bool

/-- `BuildingRow`. -/
structure SavedBuilding where
  id : Int32
  typeCode : String
  pos : WorldPos
  ownerId : PlayerId
  clanId : Int32
  charge : Int32
  maxCharge : Int32
  cost : Int32
  hp : Int32
  maxHp : Int32
  clanzone : Int32
  contents : BuildingContents

def spawnBuildingFromRow (configs : SoundConfigs) (entity : EntityId) (row : SavedBuilding) : Option LiveBuilding :=
  (PackType.fromStr row.typeCode).bind fun packType => (configs.config packType).map fun _ =>
    { entity, id := row.id, packType, pos := row.pos, ownerId := row.ownerId, clanId := row.clanId
      stats := ⟨row.charge, row.maxCharge, row.cost, row.hp, row.maxHp, row.clanzone, none⟩
      contents := row.contents, dirty := false, deletePending := false }

def extractBuildingRow (b : LiveBuilding) : SavedBuilding where
  id := b.id
  typeCode := String.singleton (code b.packType)
  pos := b.pos
  ownerId := b.ownerId
  clanId := b.clanId
  charge := b.stats.charge
  maxCharge := b.stats.maxCharge
  cost := b.stats.cost
  hp := b.stats.hp
  maxHp := b.stats.maxHp
  clanzone := b.stats.clanzone
  contents := b.contents

/-- A building as it is placed, `building_extra_for_pack_type` and `spawn_building_from_extra`. -/
def placedBuilding (config : BuildingConfig) (entity : EntityId) (id : Int32) (packType : PackType) (pos : WorldPos)
    (ownerId : PlayerId) (clanId : Int32) : LiveBuilding where
  entity := entity
  id := id
  packType := packType
  pos := pos
  ownerId := ownerId
  clanId := clanId
  stats := ⟨config.charge, config.maxCharge, Int32.ofInt config.cost, config.hp, config.maxHp, 0, none⟩
  contents := ⟨0, fun _ => 0, [], none, 0, 0, false⟩
  dirty := false
  deletePending := false

/-- `/pack type`. -/
def LiveBuilding.retype (b : LiveBuilding) (packType : PackType) (config : BuildingConfig) : LiveBuilding :=
  { b with
    packType
    stats := { b.stats with
      maxCharge := config.maxCharge
      charge := if config.maxCharge < b.stats.charge then config.maxCharge else b.stats.charge
      maxHp := config.maxHp
      hp := if config.maxHp < b.stats.hp then config.maxHp else b.stats.hp } }

def LiveBuilding.damage (now : Instant) (i : Int32) (b : LiveBuilding) : LiveBuilding :=
  { b with stats := (damageBuilding now b.stats i).1, dirty := true }

/-- The live buildings in the order of their entities, the rows on their way to the database, and the database. -/
structure State where
  now : Instant
  nextEntity : EntityId
  buildings : List LiveBuilding
  queued : List SavedBuilding
  rows : List SavedBuilding

namespace State

variable (s : State)

def update (f : LiveBuilding → LiveBuilding) : State := { s with buildings := s.buildings.map f }

/-- The width and the height of the world. -/
abbrev WorldSize := Nat × Nat

def validPos (size : WorldSize) (p : WorldPos) : Bool :=
  decide (0 ≤ p.1 ∧ 0 ≤ p.2 ∧ p.1.toInt < size.1 ∧ p.2.toInt < size.2)

def insideRadius (p center : WorldPos) (radiusSquared : Int) : Bool :=
  let dx := p.1.toInt - center.1.toInt
  let dy := p.2.toInt - center.2.toInt
  decide (dx * dx + dy * dy ≤ radiusSquared)

/-- The chunks of the coordinates around one, cut to the world. -/
def nearChunk (limit scanRange center : Nat) (chunk : Nat) : Bool :=
  let last := if center + scanRange < limit - 1 then center + scanRange else limit - 1
  decide ((center - scanRange) / chunkSize.toNat ≤ chunk ∧ chunk ≤ last / chunkSize.toNat)

/-- `nearby_building_candidates`: the chunks keep each building under its origin. -/
def nearby (size : WorldSize) (center : WorldPos) (scanRange : Nat) (b : LiveBuilding) : Bool :=
  validPos size center && nearChunk size.1 scanRange center.1.toInt.toNat (chunkPos b.pos).1 &&
    nearChunk size.2 scanRange center.2.toInt.toNat (chunkPos b.pos).2

def razScanRange : Nat := 10

def razRadiusSquared : Int := 90

def razBuildingDamage : Int32 := 10

/-- What the loop of `apply_raz_buildings` does not pass over. -/
def razTarget (size : WorldSize) (center : WorldPos) (b : LiveBuilding) : Bool :=
  nearby size center razScanRange b && !b.deletePending && isDamagable b.packType && decide (b.ownerId ≠ 0) &&
    insideRadius b.pos center razRadiusSquared

def posLe (p q : WorldPos) : Bool := decide (p.1 < q.1 ∨ p.1 = q.1 ∧ p.2 ≤ q.2)

/-- What is to be removed and what is to be sent again, and the state with the damage done. -/
def applyRazBuildings (size : WorldSize) (center : WorldPos) (triggerPlayerId : PlayerId) :
    List RemovePack × List WorldPos × State :=
  let (destroyed, damaged) := (s.buildings.filter (razTarget size center)).partition fun b => canDestroy s.now b.stats
  ((destroyed.map fun b => ⟨b.pos, .damage (some triggerPlayerId)⟩).mergeSort fun a b => posLe a.pos b.pos,
    ((damaged.filter fun b => (b.damage s.now razBuildingDamage).stats.charge = 0).map (·.pos)).mergeSort posLe,
    s.update fun b =>
      if razTarget size center b && !canDestroy s.now b.stats then b.damage s.now razBuildingDamage else b)

/-- `building_hourly_damage_system`. -/
def hourlyDamage : State :=
  s.update fun b =>
    if isDamagable b.packType && decide (b.ownerId ≠ 0) && !b.deletePending then b.damage s.now 2 else b

/-- `load_buildings_into_ecs`; a row that is not understood stops the server. -/
def spawnRows (configs : SoundConfigs) : EntityId → List SavedBuilding → Option (List LiveBuilding)
  | _, [] => some []
  | entity, row :: rows =>
      (spawnBuildingFromRow configs entity row).bind fun b => (spawnRows configs (entity + 1) rows).map (b :: ·)

inductive Event
  | wait (d : Nat)
  /-- a call of `damage_building` -/
  | damage (entity : EntityId) (i : Int32)
  | hourly
  | raz (center : WorldPos) (triggerPlayerId : PlayerId)
  | place (id : Int32) (packType : PackType) (pos : WorldPos) (ownerId : PlayerId) (clanId : Int32)
  | retype (entity : EntityId) (packType : PackType)
  /-- the row of a building is handed to the persistence -/
  | snapshot (entity : EntityId)
  /-- the first of these rows is written -/
  | write
  /-- the server stops, and starts from the database -/
  | reload
  /-- the delete of a building is asked for, or has failed -/
  | deletePending (entity : EntityId) (pending : Bool)
  /-- the delete is committed -/
  | delete (entity : EntityId)
  deriving DecidableEq

def step (configs : SoundConfigs) (size : WorldSize) (s : State) : Event → Option State
  | .wait d => some { s with now := s.now + d }
  | .damage entity i => some (s.update fun b => if b.entity = entity then b.damage s.now i else b)
  | .hourly => some s.hourlyDamage
  | .raz center triggerPlayerId => some (s.applyRazBuildings size center triggerPlayerId).2.2
  | .place id packType pos ownerId clanId =>
      if id ∈ s.rows.map SavedBuilding.id then none
      else ((configs.config packType).filter fun c => -2147483648 ≤ c.cost ∧ c.cost ≤ 2147483647).map fun config =>
        let b := placedBuilding config s.nextEntity id packType pos ownerId clanId
        { s with
          nextEntity := s.nextEntity + 1, buildings := s.buildings ++ [b], rows := s.rows ++ [extractBuildingRow b] }
  | .retype entity packType => (configs.config packType).map fun config =>
      s.update fun b => if b.entity = entity then b.retype packType config else b
  | .snapshot entity => (s.buildings.find? (·.entity = entity)).map fun b =>
      { s.update (fun c => if c.entity = entity then { c with dirty := false } else c) with
        queued := s.queued ++ [extractBuildingRow b] }
  | .write =>
      match s.queued with
      | [] => none
      | row :: queued => some { s with queued, rows := s.rows.map fun r => if r.id = row.id then row else r }
  | .reload => (spawnRows configs 0 s.rows).map fun buildings =>
      { s with nextEntity := s.rows.length, buildings, queued := [] }
  | .deletePending entity pending =>
      some (s.update fun b => if b.entity = entity then { b with deletePending := pending } else b)
  | .delete entity => (s.buildings.find? (·.entity = entity)).map fun b =>
      { s with
        buildings := s.buildings.filter fun c => c.entity ≠ entity
        rows := s.rows.filter fun r => r.id ≠ b.id }

/-- A server that starts with no building. -/
def empty (now : Instant) : State := ⟨now, 0, [], [], []⟩

end State

section Stats

variable {now later : Instant} {a b c : BuildingStats}

/-- The timer of a broken building runs, and it was not started in the future. -/
def TimerRuns (now : Instant) (stats : BuildingStats) : Prop :=
  (stats.hp = 0 → stats.brokenTimer.isSome) ∧ ∀ t ∈ stats.brokenTimer, t ≤ now

/-- What may happen to a building: it does not come back from hp 0, and its timer keeps running. -/
def Wears (now : Instant) (a b : BuildingStats) : Prop :=
  (a.hp = 0 → b.hp = 0 ∧ b.brokenTimer = a.brokenTimer) ∧ (TimerRuns now a → TimerRuns now b)

theorem TimerRuns.mono (h : TimerRuns now a) (hle : now ≤ later) : TimerRuns later a :=
  ⟨h.1, fun t ht => Nat.le_trans (h.2 t ht) hle⟩

theorem Wears.refl (now : Instant) (a : BuildingStats) : Wears now a a := ⟨fun h => ⟨h, rfl⟩, id⟩

theorem wears_damageBuilding (now : Instant) (stats : BuildingStats) (i : Int32) :
    Wears now stats (damageBuilding now stats i).1 := by
  rw [damageBuilding]
  dsimp only
  split
  · exact ⟨fun h => ⟨h, rfl⟩, fun h => h⟩
  · rename_i hhp
    split
    · exact ⟨fun h => absurd h hhp, fun _ => ⟨fun _ => rfl, fun t ht => Nat.le_of_eq (Option.some.inj ht).symm⟩⟩
    · rename_i hbroken
      refine ⟨fun h => absurd h hhp, fun h => ⟨fun hzero => ?_, h.2⟩⟩
      exact Option.isSome_iff_ne_none.mpr fun hnone => hbroken ⟨hzero, hnone⟩

/-- Eight hours after the timer was started the building can be destroyed. -/
theorem canDestroy_of_timerRuns (h : TimerRuns now a) (hhp : a.hp = 0) (hlater : now + eightHours ≤ later) :
    canDestroy later a = true := by
  obtain ⟨t, ht⟩ := Option.isSome_iff_exists.mp (h.1 hhp)
  have hle := h.2 t ht
  rw [canDestroy, ht, decide_eq_true hhp]
  refine decide_eq_true (Nat.le_sub_of_add_le' (Nat.le_trans (Nat.add_le_add_right hle _) hlater))

end Stats

theorem wears_retype {configs : SoundConfigs} {packType : PackType} {config : BuildingConfig}
    (hconfig : configs.config packType = some config) (now : Instant) (b : LiveBuilding) :
    Wears now b.stats (b.retype packType config).stats := by
  have hpos : 0 < config.maxHp := (configs.hp_pos packType config hconfig).2
  have hhp : (b.retype packType config).stats.hp = 0 ↔ b.stats.hp = 0 := by
    rw [LiveBuilding.retype]
    dsimp only
    split
    · rename_i hlt
      exact iff_of_false (fun h => Int32.lt_irrefl (h ▸ hpos))
        fun h => Int32.lt_irrefl (Int32.lt_trans hpos (h ▸ hlt))
    · exact Iff.rfl
  exact ⟨fun h => ⟨hhp.mpr h, rfl⟩, fun h => ⟨fun hzero => h.1 (hhp.mp hzero), h.2⟩⟩

/-- What the rows say of the buildings that they become. -/
theorem spawnRows_stats {configs : SoundConfigs} {entity : EntityId} {rows : List SavedBuilding}
    {bs : List LiveBuilding} (h : State.spawnRows configs entity rows = some bs) :
    bs.map (fun b => (b.id, b.stats.hp, b.stats.brokenTimer)) = rows.map (fun row => (row.id, row.hp, none)) ∧
      bs.map LiveBuilding.entity = List.range' entity rows.length := by
  induction rows generalizing entity bs with
  | nil =>
      cases h
      exact ⟨rfl, rfl⟩
  | cons row rows ih =>
      obtain ⟨b, hb, hrest⟩ := Option.bind_eq_some_iff.mp h
      obtain ⟨bs, hbs, rfl⟩ := Option.map_eq_some_iff.mp hrest
      obtain ⟨packType, -, hspawn⟩ := Option.bind_eq_some_iff.mp hb
      obtain ⟨_, -, rfl⟩ := Option.map_eq_some_iff.mp hspawn
      obtain ⟨hstats, hentities⟩ := ih hbs
      constructor
      · rw [List.map_cons, List.map_cons, hstats]
      · rw [List.map_cons, hentities]
        rfl

namespace State

variable {configs : SoundConfigs} {size : WorldSize} {s t u : State} {e : Event}

/-- No two buildings share an entity. -/
structure Sound (s : State) : Prop where
  nodup : (s.buildings.map LiveBuilding.entity).Nodup
  fresh : ∀ b ∈ s.buildings, b.entity < s.nextEntity

/-- What steps do without a restart: a building that was there has worn, a new one is not broken. -/
structure Kept (s t : State) : Prop where
  now : s.now ≤ t.now
  nextEntity : s.nextEntity ≤ t.nextEntity
  buildings : ∀ b' ∈ t.buildings,
    (∃ b ∈ s.buildings, b.entity = b'.entity ∧ b.id = b'.id ∧ Wears s.now b.stats b'.stats) ∨
      s.nextEntity ≤ b'.entity ∧ b'.id ∉ s.rows.map SavedBuilding.id ∧ TimerRuns s.now b'.stats

/-- A change of one building. -/
def Change (now : Instant) (b b' : LiveBuilding) : Prop :=
  b'.entity = b.entity ∧ b'.id = b.id ∧ Wears now b.stats b'.stats

theorem change_of_stats_eq {now : Instant} {b b' : LiveBuilding} (hentity : b'.entity = b.entity) (hid : b'.id = b.id)
    (hstats : b'.stats = b.stats) : Change now b b' :=
  ⟨hentity, hid, hstats ▸ Wears.refl now b.stats⟩

theorem change_damage (now : Instant) (i : Int32) (b : LiveBuilding) : Change now b (b.damage now i) :=
  ⟨rfl, rfl, wears_damageBuilding now b.stats i⟩

theorem kept_update {f : LiveBuilding → LiveBuilding} (hf : ∀ b, Change s.now b (f b)) : Kept s (s.update f) := by
  refine ⟨Nat.le_refl _, Nat.le_refl _, fun b' hb' => ?_⟩
  obtain ⟨b, hb, rfl⟩ := List.mem_map.mp hb'
  exact .inl ⟨b, hb, (hf b).1.symm, (hf b).2.1.symm, (hf b).2.2⟩

theorem kept_buildings (hnow : s.now ≤ t.now) (hnext : s.nextEntity ≤ t.nextEntity)
    (hbuildings : ∀ b ∈ t.buildings, b ∈ s.buildings) : Kept s t :=
  ⟨hnow, hnext, fun b hb => .inl ⟨b, hbuildings b hb, rfl, rfl, Wears.refl _ _⟩⟩

theorem sound_update {f : LiveBuilding → LiveBuilding} (hs : s.Sound) (hf : ∀ b, (f b).entity = b.entity) :
    (s.update f).Sound := by
  constructor
  · rw [update, List.map_map, show LiveBuilding.entity ∘ f = LiveBuilding.entity from funext hf]
    exact hs.nodup
  · intro b' hb'
    obtain ⟨b, hb, rfl⟩ := List.mem_map.mp hb'
    rw [hf]
    exact hs.fresh b hb

theorem step_kept (he : e ≠ .reload) (hstep : step configs size s e = some t) : Kept s t := by
  cases e with
  | wait d =>
      obtain rfl := Option.some.inj hstep
      exact kept_buildings (Nat.le_add_right _ _) (Nat.le_refl _) fun _ hb => hb
  | damage entity i =>
      obtain rfl := Option.some.inj hstep
      refine kept_update fun b => ?_
      split
      · exact change_damage _ _ _
      · exact change_of_stats_eq rfl rfl rfl
  | hourly =>
      obtain rfl := Option.some.inj hstep
      refine kept_update fun b => ?_
      split
      · exact change_damage _ _ _
      · exact change_of_stats_eq rfl rfl rfl
  | raz center triggerPlayerId =>
      obtain rfl := Option.some.inj hstep
      refine kept_update fun b => ?_
      split
      · exact change_damage _ _ _
      · exact change_of_stats_eq rfl rfl rfl
  | place id packType pos ownerId clanId =>
      rw [step] at hstep
      split at hstep
      · cases hstep
      · rename_i hid
        obtain ⟨config, hconfig, rfl⟩ := Option.map_eq_some_iff.mp hstep
        have hpos := (configs.hp_pos packType config (Option.filter_eq_some_iff.mp hconfig).1).1
        refine ⟨Nat.le_refl _, Nat.le_succ _, fun b' hb' => ?_⟩
        rcases List.mem_append.mp hb' with hb | hb
        · exact .inl ⟨b', hb, rfl, rfl, Wears.refl _ _⟩
        · obtain rfl := List.mem_singleton.mp hb
          refine .inr ⟨Nat.le_refl _, hid, fun hzero => ?_, fun t ht => nomatch ht⟩
          exact absurd hpos (hzero ▸ Int32.lt_irrefl)
  | retype entity packType =>
      obtain ⟨config, hconfig, rfl⟩ := Option.map_eq_some_iff.mp hstep
      refine kept_update fun b => ?_
      split
      · exact ⟨rfl, rfl, wears_retype hconfig _ _⟩
      · exact change_of_stats_eq rfl rfl rfl
  | snapshot entity =>
      obtain ⟨b, -, rfl⟩ := Option.map_eq_some_iff.mp hstep
      have hkept : Kept s (s.update fun c => if c.entity = entity then { c with dirty := false } else c) :=
        kept_update fun c => by split <;> exact change_of_stats_eq rfl rfl rfl
      exact ⟨hkept.now, hkept.nextEntity, hkept.buildings⟩
  | write =>
      rw [step] at hstep
      split at hstep
      · cases hstep
      · obtain rfl := Option.some.inj hstep
        exact kept_buildings (Nat.le_refl _) (Nat.le_refl _) fun _ hb => hb
  | reload => exact absurd rfl he
  | deletePending entity pending =>
      obtain rfl := Option.some.inj hstep
      refine kept_update fun b => ?_
      split <;> exact change_of_stats_eq rfl rfl rfl
  | delete entity =>
      obtain ⟨b, -, rfl⟩ := Option.map_eq_some_iff.mp hstep
      exact kept_buildings (Nat.le_refl _) (Nat.le_refl _) fun b hb => (List.mem_filter.mp hb).1

theorem step_sound (hs : s.Sound) (hstep : step configs size s e = some t) : t.Sound := by
  cases e with
  | wait d =>
      obtain rfl := Option.some.inj hstep
      exact ⟨hs.nodup, hs.fresh⟩
  | damage | hourly | raz | deletePending =>
      obtain rfl := Option.some.inj hstep
      exact sound_update hs fun b => by split <;> rfl
  | place id packType pos ownerId clanId =>
      rw [step] at hstep
      split at hstep
      · cases hstep
      · obtain ⟨config, -, rfl⟩ := Option.map_eq_some_iff.mp hstep
        constructor
        · rw [List.map_append]
          refine List.nodup_append.mpr ⟨hs.nodup, List.nodup_singleton _, fun n hn m hm => ?_⟩
          obtain ⟨b, hb, rfl⟩ := List.mem_map.mp hn
          rw [List.mem_singleton.mp hm]
          exact Nat.ne_of_lt (hs.fresh b hb)
        · intro b' hb'
          rcases List.mem_append.mp hb' with hb | hb
          · exact Nat.lt_succ_of_lt (hs.fresh b' hb)
          · rw [List.mem_singleton.mp hb]
            exact Nat.lt_succ_self _
  | retype =>
      obtain ⟨config, -, rfl⟩ := Option.map_eq_some_iff.mp hstep
      exact sound_update hs fun b => by split <;> rfl
  | snapshot entity =>
      obtain ⟨b, -, rfl⟩ := Option.map_eq_some_iff.mp hstep
      have hsound := sound_update (f := fun c => if c.entity = entity then { c with dirty := false } else c) hs
        fun b => by split <;> rfl
      exact ⟨hsound.nodup, hsound.fresh⟩
  | write =>
      rw [step] at hstep
      split at hstep
      · cases hstep
      · obtain rfl := Option.some.inj hstep
        exact ⟨hs.nodup, hs.fresh⟩
  | reload =>
      obtain ⟨bs, hbs, rfl⟩ := Option.map_eq_some_iff.mp hstep
      have hentities := (spawnRows_stats hbs).2
      constructor
      · exact hentities ▸ List.nodup_range'
      · intro b hb
        have hmem := hentities ▸ List.mem_map_of_mem hb
        obtain ⟨i, hi, heq⟩ := List.mem_range'.mp hmem
        rw [heq]
        simpa using hi
  | delete entity =>
      obtain ⟨b, -, rfl⟩ := Option.map_eq_some_iff.mp hstep
      exact ⟨hs.nodup.sublist (List.filter_sublist.map _), fun b hb => hs.fresh b (List.mem_filter.mp hb).1⟩

/-- The timers of the broken buildings run. -/
def Running (s : State) : Prop := ∀ b ∈ s.buildings, TimerRuns s.now b.stats

theorem step_running (hs : s.Running) (he : e = .reload → ∀ row ∈ s.rows, row.hp ≠ 0)
    (hstep : step configs size s e = some t) : t.Running := by
  intro b' hb'
  by_cases hreload : e = .reload
  · subst hreload
    obtain ⟨bs, hbs, rfl⟩ := Option.map_eq_some_iff.mp hstep
    have hmem := (spawnRows_stats hbs).1 ▸ List.mem_map_of_mem hb'
    obtain ⟨row, hrow, heq⟩ := List.mem_map.mp hmem
    obtain ⟨-, hhp, htimer⟩ : row.id = b'.id ∧ row.hp = b'.stats.hp ∧ none = b'.stats.brokenTimer := by
      simpa only [Prod.mk.injEq] using heq
    refine ⟨fun hzero => absurd (hhp.trans hzero) (he rfl row hrow), fun t ht => ?_⟩
    rw [← htimer] at ht
    cases ht
  · have hkept := step_kept hreload hstep
    rcases hkept.buildings b' hb' with ⟨b, hb, -, -, hwears⟩ | ⟨-, -, hruns⟩
    · exact (hwears.2 (hs b hb)).mono hkept.now
    · exact hruns.mono hkept.now

/-- Until a restart a broken building is broken, and its timer as it was. -/
theorem broken_stays {b : LiveBuilding} {es : List Event} (hs : s.Sound) (hb : b ∈ s.buildings)
    (hhp : b.stats.hp = 0) (hes : .reload ∉ es) (hrun : run (step configs size) s es = some u) :
    s.now ≤ u.now ∧ ∀ b' ∈ u.buildings, b'.entity = b.entity →
      b'.stats.hp = 0 ∧ b'.stats.brokenTimer = b.stats.brokenTimer := by
  have hinv : u.Sound ∧ b.entity < u.nextEntity ∧ s.now ≤ u.now ∧ ∀ b' ∈ u.buildings, b'.entity = b.entity →
      b'.stats.hp = 0 ∧ b'.stats.brokenTimer = b.stats.brokenTimer := by
    refine run_preserves (P := fun v => v.Sound ∧ b.entity < v.nextEntity ∧ s.now ≤ v.now ∧
        ∀ b' ∈ v.buildings, b'.entity = b.entity →
          b'.stats.hp = 0 ∧ b'.stats.brokenTimer = b.stats.brokenTimer)
      ⟨hs, hs.fresh b hb, Nat.le_refl _, fun b' hb' heq => ?_⟩
      (fun e he v w ⟨hv, hfresh, hnow, hbroken⟩ hstep => ?_) hrun
    · obtain rfl := List.inj_on_of_nodup_map hs.nodup hb' hb heq
      exact ⟨hhp, rfl⟩
    · have hkept := step_kept (fun h => hes (h ▸ he)) hstep
      refine ⟨step_sound hv hstep, Nat.lt_of_lt_of_le hfresh hkept.nextEntity, Nat.le_trans hnow hkept.now,
        fun b'' hb'' heq => ?_⟩
      rcases hkept.buildings b'' hb'' with ⟨b', hb', hentity, -, hwears⟩ | ⟨hnew, -⟩
      · obtain ⟨hzero, htimer⟩ := hbroken b' hb' (hentity.trans heq)
        exact ⟨(hwears.1 hzero).1, (hwears.1 hzero).2.trans htimer⟩
      · exact absurd (heq ▸ hnew) (Nat.not_le.mpr hfresh)
  exact hinv.2.2

section Raz

variable {b : LiveBuilding} {center : WorldPos}

/-- A raz at this place is one for the building. -/
structure RazReaches (size : WorldSize) (center : WorldPos) (b : LiveBuilding) : Prop where
  validCenter : validPos size center = true
  validPos : validPos size b.pos = true
  inside : insideRadius b.pos center razRadiusSquared = true
  damagable : isDamagable b.packType = true
  owned : b.ownerId ≠ 0
  notPending : b.deletePending = false

theorem nearChunk_of_near {limit : Nat} {p c : Int32} (hp : 0 ≤ p) (hlimit : p.toInt < limit) (hc : 0 ≤ c)
    (hle : -10 ≤ p.toInt - c.toInt) (hge : p.toInt - c.toInt ≤ 10) :
    nearChunk limit razScanRange c.toInt.toNat (p.toInt.toNat / chunkSize.toNat) = true := by
  have hp' : 0 ≤ p.toInt := Int32.le_iff_toInt_le.mp hp
  have hc' : 0 ≤ c.toInt := Int32.le_iff_toInt_le.mp hc
  refine decide_eq_true ⟨Nat.div_le_div_right ?_, Nat.div_le_div_right ?_⟩
  · rw [razScanRange]
    omega
  · rw [razScanRange]
    split <;> omega

/-- The square of the radius is less than the square of the scanned range. -/
theorem near_of_inside {dx dy : Int} (h : dx * dx + dy * dy ≤ razRadiusSquared) : -10 ≤ dx ∧ dx ≤ 10 := by
  rw [razRadiusSquared] at h
  constructor <;> nlinarith [mul_self_nonneg dy]

theorem RazReaches.razTarget (h : RazReaches size center b) : razTarget size center b = true := by
  have hinside := of_decide_eq_true h.inside
  have hpos := of_decide_eq_true h.validPos
  have hcenter := of_decide_eq_true h.validCenter
  have hx := near_of_inside hinside
  have hy := near_of_inside (Int.add_comm _ _ ▸ hinside)
  have hnear : nearby size center razScanRange b = true := by
    rw [nearby, h.validCenter, chunkPos, nearChunk_of_near hpos.1 hpos.2.2.1 hcenter.1 hx.1 hx.2,
      nearChunk_of_near hpos.2.1 hpos.2.2.2 hcenter.2.1 hy.1 hy.2]
    rfl
  rw [State.razTarget, hnear, h.notPending, h.damagable, decide_eq_true h.owned, h.inside]
  rfl

theorem mem_removals (h : RazReaches size center b) (hb : b ∈ s.buildings)
    (hdestroy : canDestroy s.now b.stats = true) (player : PlayerId) :
    (⟨b.pos, .damage (some player)⟩ : RemovePack) ∈ (s.applyRazBuildings size center player).1 := by
  rw [applyRazBuildings]
  dsimp only
  rw [List.mem_mergeSort, List.partition_eq_filter_filter]
  refine List.mem_map.mpr ⟨b, List.mem_filter.mpr ⟨List.mem_filter.mpr ⟨hb, h.razTarget⟩, hdestroy⟩, rfl⟩

end Raz

/-- What is asked of a state that another one is followed by without a restart. -/
def StaysDestroyable (size : WorldSize) (s u : State) : Prop :=
  ∀ b ∈ s.buildings, b.stats.hp = 0 → b.stats.brokenTimer.isSome ∧
    ∀ b' ∈ u.buildings, b'.entity = b.entity → s.now + eightHours ≤ u.now →
      canDestroy u.now b'.stats = true ∧ ∀ center player, RazReaches size center b' →
        (⟨b'.pos, .damage (some player)⟩ : RemovePack) ∈ (u.applyRazBuildings size center player).1

theorem staysDestroyable_of_running {gs : List Event} (hs : s.Sound) (hrunning : s.Running) (hgs : .reload ∉ gs)
    (hrun : run (step configs size) s gs = some u) : StaysDestroyable size s u := by
  intro b hb hhp
  refine ⟨(hrunning b hb).1 hhp, fun b' hb' hentity hlater => ?_⟩
  obtain ⟨hzero, htimer⟩ := (broken_stays hs hb hhp hgs hrun).2 b' hb' hentity
  have hruns : TimerRuns s.now b'.stats := by
    refine ⟨fun _ => ?_, fun t ht => (hrunning b hb).2 t (htimer ▸ ht)⟩
    rw [htimer]
    exact (hrunning b hb).1 hhp
  have hdestroy := canDestroy_of_timerRuns hruns hzero hlater
  exact ⟨hdestroy, fun center player hreaches => mem_removals hreaches hb' hdestroy player⟩

theorem empty_invariants (now : Instant) : (empty now).Sound ∧ (empty now).Running :=
  ⟨⟨List.nodup_nil, fun _ hb => nomatch hb⟩, fun _ hb => nomatch hb⟩

theorem invariants_of_reloads {now : Instant} {es fs : List Event}
    (h : ∀ fs, fs ++ [.reload] <+: es → ∀ s, run (step configs size) (empty now) fs = some s →
      ∀ row ∈ s.rows, row.hp ≠ 0)
    (hfs : fs <+: es) (hrun : run (step configs size) (empty now) fs = some s) : s.Sound ∧ s.Running := by
  induction fs using List.reverseRecOn generalizing s with
  | nil =>
      obtain rfl := Option.some.inj hrun
      exact empty_invariants now
  | append_singleton fs e ih =>
      obtain ⟨v, hv, hstep⟩ := run_concat_eq_some.mp hrun
      have hbefore := ih ((List.prefix_append _ _).trans hfs) hv
      exact ⟨step_sound hbefore.1 hstep, step_running hbefore.2 (fun he => h fs (he ▸ hfs) v hv) hstep⟩

/-- In a run of the server every broken building stays one that a raz can destroy, eight hours after it was broken,
just when the server is never started from a database with the row of a broken building. -/
theorem stays_destroyable {now : Instant} {es : List Event}
    (hes : (run (step configs size) (empty now) es).isSome) :
    (∀ fs gs, fs ++ gs <+: es → .reload ∉ gs → ∀ s u, run (step configs size) (empty now) fs = some s →
        run (step configs size) s gs = some u → StaysDestroyable size s u) ↔
      ∀ fs, fs ++ [.reload] <+: es → ∀ s, run (step configs size) (empty now) fs = some s →
        ∀ row ∈ s.rows, row.hp ≠ 0 := by
  constructor
  · intro h fs hfs s hs row hrow hzero
    obtain ⟨rest, rfl⟩ := hfs
    obtain ⟨t, ht⟩ := Option.isSome_iff_exists.mp hes
    obtain ⟨u, hu, -⟩ := run_append_eq_some.mp ht
    have hdestroyable := h (fs ++ [.reload]) [] (by simp) (by simp) u u hu rfl
    obtain ⟨s', hs', hstep⟩ := run_concat_eq_some.mp hu
    obtain rfl := Option.some.inj (hs.symm.trans hs')
    obtain ⟨bs, hbs, rfl⟩ := Option.map_eq_some_iff.mp hstep
    have hmem : (row.id, row.hp, (none : Option Instant)) ∈
        bs.map fun b => (b.id, b.stats.hp, b.stats.brokenTimer) :=
      (spawnRows_stats hbs).1 ▸ List.mem_map_of_mem hrow
    obtain ⟨b, hb, heq⟩ := List.mem_map.mp hmem
    obtain ⟨-, hhp, htimer⟩ : b.id = row.id ∧ b.stats.hp = row.hp ∧ b.stats.brokenTimer = none := by
      simpa only [Prod.mk.injEq] using heq
    have hsome := (hdestroyable b hb (hhp.trans hzero)).1
    rw [htimer] at hsome
    cases hsome
  · intro h fs gs hfs hgs s u hs hu
    obtain ⟨hsound, hrunning⟩ := invariants_of_reloads h ((List.prefix_append _ _).trans hfs) hs
    exact staysDestroyable_of_running hsound hrunning hgs hu

/-- A check of the restarts of a run. -/
theorem reloads_of_check {now : Instant} {es : List Event}
    (h : ∀ n < es.length, es[n]? = some .reload →
      (run (step configs size) (empty now) (es.take n)).all (fun s => s.rows.all fun row => row.hp ≠ 0) = true)
    (fs : List Event) (hfs : fs ++ [.reload] <+: es) (s : State)
    (hrun : run (step configs size) (empty now) fs = some s) : ∀ row ∈ s.rows, row.hp ≠ 0 := by
  obtain ⟨rest, rfl⟩ := hfs
  have hcheck := h fs.length (by simp) (by simp)
  rw [List.append_assoc, List.take_left, hrun, Option.all_some, List.all_eq_true] at hcheck
  exact fun row hrow => of_decide_eq_true (hcheck row hrow)

/-- The types of `buildings.json`. -/
def jsonConfigs : SoundConfigs where
  config := buildingsJson
  hp_pos packType c h := by
    cases packType <;> cases h <;> decide

/-- A market breaks, and a day goes by after a restart that came before. -/
def breakAfterRestart : List Event :=
  [.place 1 .market (10, 10) 1 0, .reload, .damage 0 2000, .wait (3 * eightHours)]

theorem stays_destroyable_after_restart :
    ∃ s u, run (step jsonConfigs (64, 64)) (empty 0) (breakAfterRestart.take 3) = some s ∧
      run (step jsonConfigs (64, 64)) s [.wait (3 * eightHours)] = some u ∧
      s.buildings.map (fun b => b.stats.hp) = [0] ∧ StaysDestroyable (64, 64) s u := by
  have hs : (run (step jsonConfigs (64, 64)) (empty 0) (breakAfterRestart.take 3)).isSome := by decide
  obtain ⟨s, hs⟩ := Option.isSome_iff_exists.mp hs
  have hhp : (run (step jsonConfigs (64, 64)) (empty 0) (breakAfterRestart.take 3)).map
      (fun s => s.buildings.map fun b => b.stats.hp) = some [0] := by decide
  rw [hs] at hhp
  refine ⟨s, _, hs, rfl, Option.some.inj hhp, ?_⟩
  exact (@stays_destroyable jsonConfigs (64, 64) 0 breakAfterRestart (by decide)).mpr
    (reloads_of_check (by decide)) (breakAfterRestart.take 3) _ List.prefix_rfl (by decide) s _ hs rfl

/-- A building that is broken in every place, and whose timer does not run. -/
structure Lost (id : Int32) (s : State) : Prop where
  live : ∀ b ∈ s.buildings, b.id = id → b.stats.hp = 0 ∧ b.stats.brokenTimer = none
  queued : ∀ row ∈ s.queued, row.id = id → row.hp = 0
  rows : ∀ row ∈ s.rows, row.id = id → row.hp = 0
  used : id ∈ s.rows.map SavedBuilding.id

theorem Lost.buildings {id : Int32} (h : s.Lost id) (he : e ≠ .reload) (hstep : step configs size s e = some t) :
    ∀ b ∈ t.buildings, b.id = id → b.stats.hp = 0 ∧ b.stats.brokenTimer = none := by
  intro b' hb' hid
  rcases (step_kept he hstep).buildings b' hb' with ⟨b, hb, -, hsame, hwears⟩ | ⟨-, hnew, -⟩
  · obtain ⟨hhp, htimer⟩ := h.live b hb (hsame.trans hid)
    exact ⟨(hwears.1 hhp).1, (hwears.1 hhp).2.trans htimer⟩
  · exact absurd (hid ▸ h.used) hnew

theorem Lost.step {id : Int32} (h : s.Lost id) (he : ∀ entity, e ≠ .delete entity)
    (hstep : step configs size s e = some t) : t.Lost id := by
  have hlive := fun hreload => h.buildings (e := e) hreload hstep
  cases e with
  | wait | damage | hourly | raz | deletePending =>
      replace hlive := hlive nofun
      obtain rfl := Option.some.inj hstep
      exact ⟨hlive, h.queued, h.rows, h.used⟩
  | place newId packType pos ownerId clanId =>
      replace hlive := hlive nofun
      rw [State.step] at hstep
      split at hstep
      · cases hstep
      · rename_i hid
        obtain ⟨config, -, rfl⟩ := Option.map_eq_some_iff.mp hstep
        refine ⟨hlive, h.queued, fun row hrow heq => ?_, ?_⟩
        · rcases List.mem_append.mp hrow with hrow | hrow
          · exact h.rows row hrow heq
          · rw [List.mem_singleton.mp hrow] at heq
            have hsame : newId = id := heq
            exact absurd (hsame ▸ h.used) hid
        · rw [List.map_append]
          exact List.mem_append_left _ h.used
  | retype =>
      replace hlive := hlive nofun
      obtain ⟨config, -, rfl⟩ := Option.map_eq_some_iff.mp hstep
      exact ⟨hlive, h.queued, h.rows, h.used⟩
  | snapshot entity =>
      replace hlive := hlive nofun
      obtain ⟨b, hb, rfl⟩ := Option.map_eq_some_iff.mp hstep
      refine ⟨hlive, fun row hrow heq => ?_, h.rows, h.used⟩
      rcases List.mem_append.mp hrow with hrow | hrow
      · exact h.queued row hrow heq
      · rw [List.mem_singleton.mp hrow] at heq ⊢
        exact (h.live b (List.mem_of_find?_eq_some hb) heq).1
  | write =>
      replace hlive := hlive nofun
      rw [State.step] at hstep
      split at hstep
      · cases hstep
      · rename_i first rest hqueued
        obtain rfl := Option.some.inj hstep
        have hfirst : first.id = id → first.hp = 0 := h.queued first (hqueued ▸ List.mem_cons_self)
        refine ⟨hlive, fun row hrow => h.queued row (hqueued ▸ List.mem_cons_of_mem _ hrow),
          fun row hrow heq => ?_, ?_⟩
        · obtain ⟨old, hold, rfl⟩ := List.mem_map.mp hrow
          split at heq
          · rename_i hsame
            rw [if_pos hsame]
            exact hfirst heq
          · rename_i hother
            rw [if_neg hother]
            exact h.rows old hold heq
        · have hids : (s.rows.map fun r => if r.id = first.id then first else r).map SavedBuilding.id =
              s.rows.map SavedBuilding.id := by
            rw [List.map_map]
            refine List.map_congr_left fun r _ => ?_
            rw [Function.comp_apply]
            split
            · rename_i hsame
              exact hsame.symm
            · rfl
          exact hids ▸ h.used
  | reload =>
      obtain ⟨bs, hbs, rfl⟩ := Option.map_eq_some_iff.mp hstep
      refine ⟨fun b hb hid => ?_, nofun, h.rows, h.used⟩
      have hmem := (spawnRows_stats hbs).1 ▸ List.mem_map_of_mem hb
      obtain ⟨row, hrow, heq⟩ := List.mem_map.mp hmem
      obtain ⟨hsame, hhp, htimer⟩ : row.id = b.id ∧ row.hp = b.stats.hp ∧ none = b.stats.brokenTimer := by
        simpa only [Prod.mk.injEq] using heq
      exact ⟨hhp.symm.trans (h.rows row hrow (hsame.trans hid)), htimer.symm⟩
  | delete entity => exact absurd rfl (he entity)

/-- A market is broken, and the server starts again after its row was written. -/
def breakBeforeRestart : List Event :=
  [.place 1 .market (10, 10) 1 0, .damage 0 2000, .snapshot 0, .write, .reload]

/-- Such a market is at hp 0, and however long it is waited and whatever is done to it, no raz destroys it. -/
theorem broken_before_restart :
    ∃ s, run (step jsonConfigs (64, 64)) (empty 0) breakBeforeRestart = some s ∧
      s.buildings.map (fun b => (b.id, b.stats.hp, b.stats.brokenTimer)) = [(1, 0, none)] ∧
      ∀ es u, (∀ entity, .delete entity ∉ es) → run (step jsonConfigs (64, 64)) s es = some u →
        ∀ b ∈ u.buildings, b.id = 1 → b.stats.hp = 0 ∧ canDestroy u.now b.stats = false := by
  have hrun : (run (step jsonConfigs (64, 64)) (empty 0) breakBeforeRestart).isSome := by decide
  obtain ⟨s, hs⟩ := Option.isSome_iff_exists.mp hrun
  have hs' := hs
  obtain rfl := Option.some.inj hs'
  refine ⟨_, hs, by decide, fun es u hes hu b hb hid => ?_⟩
  have hlost : u.Lost 1 :=
    run_preserves ⟨by decide, by decide, by decide, by decide⟩
      (fun e he v w hv hstep => hv.step (fun entity heq => hes entity (heq ▸ he)) hstep) hu
  obtain ⟨hhp, htimer⟩ := hlost.live b hb hid
  refine ⟨hhp, ?_⟩
  rw [canDestroy, htimer]
  exact Bool.and_false _

end State

end OpenMines.BrokenBuilding

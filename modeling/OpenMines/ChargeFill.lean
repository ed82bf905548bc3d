import OpenMines.Lib.CheckedInt
import OpenMines.Lib.Exits
import OpenMines.PackAccess
import OpenMines.PlayerPresence

namespace OpenMines

open Lib.CheckedInt Lib.Exits

/-- The components of a player that a fill reads or writes. -/
structure FillPlayer where
  /-- the crystals of `PlayerStats` -/
  crystals : Option (Fin 6 → Int64)
  /-- `dirty` and `incarnation` of `PlayerFlags` -/
  flags : Option (Bool × SessionId)
  /-- the position, the metadata, the inventory, the skills and the settings are there -/
  hasRow : Bool

structure ChargeStats where
  charge : Int32
  maxCharge : Int32
  hp : Int32
  maxHp : Int32

structure FillBuilding where
  deletePending : Bool
  /-- the id of the row and the type in `BuildingMetadata` -/
  metadata : Option (Int32 × PackType)
  pos : Option WorldPos
  /-- the player and the clan of `BuildingOwnership` -/
  ownership : Option (PlayerId × Int32)
  stats : Option ChargeStats
  /-- `dirty` of `BuildingFlags` -/
  dirty : Option Bool
  hasStorage : Bool
  hasCrafting : Bool

structure FillWorld where
  playerEntities : PlayerId → Option Entity
  players : Entity → FillPlayer
  byOrigin : WorldPos → Option Entity
  buildings : Entity → FillBuilding
  dirtyPlayers : List (Entity × SessionId)
  dirtyBuildings : List Entity

/-- How a fill ends before anything changes: without a word, or with an error for the player. -/
inductive FillExit
  | ignored
  | stateMissing (text : String × String)
  deriving DecidableEq

/-- What a fill has to write. -/
structure FillPlan where
  player : Entity
  building : Entity
  crystals : Fin 6 → Int64
  flags : Bool × SessionId
  stats : ChargeStats
  toTake : Int64

structure FillEffects where
  basket : Fin 6 → Int64
  /-- `SaveCommand::ChargeFill`: the crystals and the charge of the two rows -/
  save : (Fin 6 → Int64) × ChargeStats
  blockUpdate : Option WorldPos

/-- `100`, `1000`, or as much as there is room for. -/
def fillRequest (amount : String) : Option (Option Int64) :=
  if amount = "100" then some (some 100)
  else if amount = "1000" then some (some 1000)
  else if amount = "max" then some none
  else none

def fillType (isResp : Bool) : PackType := if isResp then .resp else .gun

def chargeFillError (isResp : Bool) : FillExit :=
  if isResp then .stateMissing ("РЕСП", "Состояние респа недоступно.")
  else .stateMissing ("Пушка", "Состояние пушки недоступно.")

def ChargeStats.requested (stats : ChargeStats) (request : Option Int64) : Int64 :=
  request.getD (max (saturatingSubI32 stats.maxCharge stats.charge).toInt64 0)

namespace FillPlan

variable (plan : FillPlan)

def increment : Int32 := (i32 plan.toTake.toInt).getD .maxValue

def filled : ChargeStats :=
  { plan.stats with charge := min (saturatingAddI32 plan.stats.charge plan.increment) plan.stats.maxCharge }

def left (i : Fin 6) : Fin 6 → Int64 := Function.update plan.crystals i (plan.crystals i - plan.toTake)

end FillPlan

namespace FillWorld

variable (s : FillWorld)

def getPackAt (c : WorldPos) : Option PackView := do
  let entity ← s.byOrigin c
  let b := s.buildings entity
  guard (b.deletePending = false)
  let metadata ← b.metadata
  let pos ← b.pos
  let ownership ← b.ownership
  let stats ← b.stats
  return ⟨metadata.1, metadata.2, pos.1, pos.2, ownership.1, ownership.2, stats.charge, stats.maxCharge, stats.hp,
    stats.maxHp⟩

def extractPlayerRow (entity : Entity) : Option (Fin 6 → Int64) := do
  guard ((s.players entity).hasRow = true)
  (s.players entity).crystals

def extractBuildingRow (entity : Entity) : Option ChargeStats := do
  let b := s.buildings entity
  let _ ← b.metadata
  let _ ← b.pos
  let stats ← b.stats
  guard (b.hasStorage = true)
  let _ ← b.ownership
  guard (b.hasCrafting = true)
  return stats

def planFill (player : PlayerId) (amount : String) (c : WorldPos) (i : Fin 6) (isResp : Bool) :
    Except FillExit FillPlan := do
  let request ← orExit (fillRequest amount) .ignored
  let view ← orExit (s.getPackAt c) .ignored
  exitUnless (view.packType = fillType isResp) .ignored
  let playerEntity ← orExit (s.playerEntities player) (chargeFillError isResp)
  let building ← orExit (s.byOrigin c) (chargeFillError isResp)
  let crystals ← orExit (s.players playerEntity).crystals (chargeFillError isResp)
  let flags ← orExit (s.players playerEntity).flags (chargeFillError isResp)
  let stats ← orExit (s.buildings building).stats (chargeFillError isResp)
  let _ ← orExit (s.buildings building).dirty (chargeFillError isResp)
  let _ ← orExit (s.extractPlayerRow playerEntity) (chargeFillError isResp)
  let _ ← orExit (s.extractBuildingRow building) (chargeFillError isResp)
  exitUnless (stats.charge < stats.maxCharge) .ignored
  let toTake := min (stats.requested request) (crystals i)
  exitUnless (0 < toTake) .ignored
  return ⟨playerEntity, building, crystals, flags, stats, toTake⟩

def applyFill (plan : FillPlan) (i : Fin 6) : FillWorld :=
  { s with
    players := Function.update s.players plan.player
      { s.players plan.player with crystals := some (plan.left i), flags := some (true, plan.flags.2) }
    buildings := Function.update s.buildings plan.building
      { s.buildings plan.building with stats := some plan.filled, dirty := some true }
    dirtyPlayers := s.dirtyPlayers.insert (plan.player, plan.flags.2)
    dirtyBuildings := s.dirtyBuildings.insert plan.building }

/-- `apply_charge_fill`; the window that it opens again shows what is there then. -/
def applyChargeFill (player : PlayerId) (amount : String) (c : WorldPos) (i : Fin 6) (isResp : Bool) :
    FillWorld × Except FillExit FillEffects :=
  match s.planFill player amount c i isResp with
  | .error exit => (s, .error exit)
  | .ok plan =>
    let t := s.applyFill plan i
    match t.extractPlayerRow plan.player, t.extractBuildingRow plan.building with
    | some crystals, some stats =>
      (t, .ok ⟨plan.left i, (crystals, stats), if isResp then none else some c⟩)
    | _, _ => (t, .error (chargeFillError isResp))

def applyRespFill (player : PlayerId) (amount : String) (c : WorldPos) : FillWorld × Except FillExit FillEffects :=
  s.applyChargeFill player amount c ⟨1, by decide⟩ true

def applyGunFill (player : PlayerId) (amount : String) (c : WorldPos) : FillWorld × Except FillExit FillEffects :=
  s.applyChargeFill player amount c ⟨5, by decide⟩ false

/-- What the player has of the crystals. -/
def held (player : PlayerId) (i : Fin 6) : Option Int :=
  (s.playerEntities player).bind fun entity => (s.players entity).crystals.map fun crystals => (crystals i).toInt

/-- The charge of the building and its maximum. -/
def chargeAt (c : WorldPos) : Option (Int × Int) :=
  (s.byOrigin c).bind fun entity => (s.buildings entity).stats.map fun stats =>
    (stats.charge.toInt, stats.maxCharge.toInt)

/-- The checks of a fill pass for what is there. -/
structure Passes (player : PlayerId) (amount : String) (c : WorldPos) (isResp : Bool) (request : Option Int64)
    (plan : FillPlan) : Prop where
  request : fillRequest amount = some request
  pack : ∃ view, s.getPackAt c = some view ∧ view.packType = fillType isResp
  player : s.playerEntities player = some plan.player
  building : s.byOrigin c = some plan.building
  crystals : (s.players plan.player).crystals = some plan.crystals
  flags : (s.players plan.player).flags = some plan.flags
  stats : (s.buildings plan.building).stats = some plan.stats
  dirty : ∃ dirty, (s.buildings plan.building).dirty = some dirty
  playerRow : ∃ row, s.extractPlayerRow plan.player = some row
  buildingRow : ∃ row, s.extractBuildingRow plan.building = some row
  room : plan.stats.charge < plan.stats.maxCharge

/-- What leaves the player reaches the building, which is never charged beyond its maximum; a fill that ends early
changes nothing. -/
structure FillConserves (player : PlayerId) (c : WorldPos) (i : Fin 6)
    (result : FillWorld × Except FillExit FillEffects) : Prop where
  done : ∀ effects, result.2 = .ok effects → ∃ before after charge charge' maxCharge,
    s.held player i = some before ∧ result.1.held player i = some after ∧
      s.chargeAt c = some (charge, maxCharge) ∧ result.1.chargeAt c = some (charge', maxCharge) ∧
      before - after = charge' - charge ∧ 0 < before - after ∧ 0 ≤ after ∧ charge' ≤ maxCharge
  failed : ∀ exit, result.2 = .error exit → result.1 = s
  colours : ∀ j, j ≠ i → result.1.held player j = s.held player j
  players : ∀ entity, s.playerEntities player ≠ some entity → result.1.players entity = s.players entity
  buildings : ∀ entity, s.byOrigin c ≠ some entity → result.1.buildings entity = s.buildings entity

/-- A fixed amount that the player has, at least in part, and more than what there is room for. -/
def Overfills (player : PlayerId) (amount : String) (c : WorldPos) (i : Fin 6) (isResp : Bool) : Prop :=
  ∃ n plan, s.Passes player amount c isResp (some n) plan ∧
    plan.stats.maxCharge.toInt - plan.stats.charge.toInt < min n.toInt (plan.crystals i).toInt

variable {s} {player : PlayerId} {amount : String} {c : WorldPos} {i j : Fin 6} {isResp : Bool} {plan : FillPlan}

theorem planFill_eq_ok : s.planFill player amount c i isResp = .ok plan ↔ ∃ request,
    s.Passes player amount c isResp request plan ∧ plan.toTake = min (plan.stats.requested request) (plan.crystals i) ∧
      0 < plan.toTake := by
  simp only [planFill, bind_eq_ok, orExit_eq_ok, exitUnless_eq_ok]
  constructor
  · rintro ⟨request, hrequest, view, hview, -, htype, e, he, b, hb, crystals, hcrystals, flags, hflags, stats,
      hstats, dirty, hdirty, row, hrow, row', hrow', -, hroom, -, hpos, hplan⟩
    obtain rfl := Except.ok.inj hplan
    exact ⟨request, ⟨hrequest, ⟨view, hview, htype⟩, he, hb, hcrystals, hflags, hstats, ⟨dirty, hdirty⟩, ⟨row, hrow⟩,
      ⟨row', hrow'⟩, hroom⟩, rfl, hpos⟩
  · rintro ⟨request, h, htake, hpos⟩
    obtain ⟨view, hview, htype⟩ := h.pack
    obtain ⟨dirty, hdirty⟩ := h.dirty
    obtain ⟨row, hrow⟩ := h.playerRow
    obtain ⟨row', hrow'⟩ := h.buildingRow
    rw [htake] at hpos
    refine ⟨request, h.request, view, hview, (), htype, _, h.player, _, h.building, _, h.crystals, _, h.flags, _,
      h.stats, dirty, hdirty, row, hrow, row', hrow', (), h.room, (), hpos, ?_⟩
    rw [← htake]
    rfl

theorem requested_none (stats : ChargeStats) :
    (stats.requested none).toInt = max (min (stats.maxCharge.toInt - stats.charge.toInt) 2147483647) 0 := by
  have hzero : (0 : Int64).toInt = 0 := rfl
  rw [ChargeStats.requested, Option.getD_none, toInt_maxI64, Int32.toInt_toInt64, saturatingSubI32, toInt_clampI32,
    hzero]
  split
  · omega
  · split <;> omega

theorem eq_of_fillRequest {n : Int64} (h : fillRequest amount = some (some n)) : n = 100 ∨ n = 1000 := by
  rw [fillRequest] at h
  split at h
  · exact .inl (Option.some_inj.mp (Option.some_inj.mp h)).symm
  · split at h
    · exact .inr (Option.some_inj.mp (Option.some_inj.mp h)).symm
    · split at h <;> cases h

theorem requested_le {request : Option Int64} (h : fillRequest amount = some request) (stats : ChargeStats) :
    (stats.requested request).toInt ≤ 2147483647 := by
  cases request with
  | none =>
      rw [requested_none]
      omega
  | some n =>
      have hvalue : n.toInt ≤ 2147483647 := by rcases eq_of_fillRequest h with rfl | rfl <;> decide
      exact hvalue

theorem toInt_filled (hpos : 0 < plan.toTake) (hfits : plan.toTake.toInt ≤ 2147483647) :
    plan.filled.charge.toInt = min (plan.stats.charge.toInt + plan.toTake.toInt) plan.stats.maxCharge.toInt := by
  have htake : 0 < plan.toTake.toInt := Int64.lt_iff_toInt_lt.mp hpos
  obtain ⟨hlow, -⟩ := fitsI32_toInt plan.stats.charge
  obtain ⟨-, hhigh⟩ := fitsI32_toInt plan.stats.maxCharge
  have hincrement : plan.increment.toInt = plan.toTake.toInt := by
    obtain ⟨a, ha⟩ := exists_toInt_iff.mpr ⟨by omega, hfits⟩
    rw [FillPlan.increment, i32_eq_some.mpr ha, Option.getD_some, ha]
  rw [FillPlan.filled, toInt_minI32, saturatingAddI32, toInt_clampI32, hincrement]
  split
  · omega
  · split <;> omega

theorem toInt_left (h : plan.toTake ≤ plan.crystals i) (hpos : 0 < plan.toTake) :
    (plan.left i i).toInt = (plan.crystals i).toInt - plan.toTake.toInt := by
  have hle := Int64.le_iff_toInt_le.mp h
  have hlt : 0 < plan.toTake.toInt := Int64.lt_iff_toInt_lt.mp hpos
  obtain ⟨-, hhigh⟩ := fitsI64_toInt (plan.crystals i)
  rw [FillPlan.left, Function.update_self, Int64.toInt_sub]
  apply Int.bmod_eq_of_le <;> omega

section Result

/-- What a fill that passes its checks leaves behind. -/
theorem applyChargeFill_of_ok (h : s.planFill player amount c i isResp = .ok plan) :
    s.applyChargeFill player amount c i isResp =
      (s.applyFill plan i, .ok ⟨plan.left i, (plan.left i, plan.filled), if isResp then none else some c⟩) := by
  obtain ⟨request, hpasses, -⟩ := planFill_eq_ok.mp h
  obtain ⟨row, hrow⟩ := hpasses.playerRow
  obtain ⟨row', hrow'⟩ := hpasses.buildingRow
  have hplayer : (s.applyFill plan i).extractPlayerRow plan.player = some (plan.left i) := by
    rw [extractPlayerRow, Option.bind_eq_bind, Option.bind_eq_some_iff] at hrow ⊢
    obtain ⟨u, hguard, -⟩ := hrow
    refine ⟨u, ?_, ?_⟩ <;> simp only [applyFill, Function.update_self]
    exact hguard
  have hbuilding : (s.applyFill plan i).extractBuildingRow plan.building = some plan.filled := by
    simp only [extractBuildingRow, applyFill, Function.update_self, Option.bind_eq_bind,
      Option.bind_eq_some_iff] at hrow' ⊢
    obtain ⟨metadata, hmetadata, pos, hpos, stats, hstats, u, hstorage, owner, howner, v, hcrafting, -⟩ := hrow'
    exact ⟨metadata, hmetadata, pos, hpos, _, rfl, u, hstorage, owner, howner, v, hcrafting, rfl⟩
  rw [applyChargeFill, h]
  simp only [hplayer, hbuilding]

theorem held_of_passes {request : Option Int64} (h : s.Passes player amount c isResp request plan) (j : Fin 6) :
    s.held player j = some (plan.crystals j).toInt ∧
      (s.applyFill plan i).held player j = some (plan.left i j).toInt := by
  have hplayer : (s.applyFill plan i).playerEntities player = some plan.player := h.player
  have hcrystals : ((s.applyFill plan i).players plan.player).crystals = some (plan.left i) := by
    simp only [applyFill, Function.update_self]
  constructor
  · rw [held, h.player, Option.bind_some, h.crystals, Option.map_some]
  · rw [held, hplayer, Option.bind_some, hcrystals, Option.map_some]

theorem chargeAt_of_passes {request : Option Int64} (h : s.Passes player amount c isResp request plan) :
    s.chargeAt c = some (plan.stats.charge.toInt, plan.stats.maxCharge.toInt) ∧
      (s.applyFill plan i).chargeAt c = some (plan.filled.charge.toInt, plan.stats.maxCharge.toInt) := by
  have hbuilding : (s.applyFill plan i).byOrigin c = some plan.building := h.building
  have hstats : ((s.applyFill plan i).buildings plan.building).stats = some plan.filled := by
    simp only [applyFill, Function.update_self]
  constructor
  · rw [chargeAt, h.building, Option.bind_some, h.stats, Option.map_some]
  · rw [chargeAt, hbuilding, Option.bind_some, hstats, Option.map_some]
    rfl

/-- The state and the request determine what the checks find. -/
theorem Passes.unique {request request' : Option Int64} {plan' : FillPlan}
    (h : s.Passes player amount c isResp request plan) (h' : s.Passes player amount c isResp request' plan') :
    request' = request ∧ plan'.crystals = plan.crystals ∧ plan'.stats = plan.stats := by
  have hplayer := Option.some_inj.mp (h'.player.symm.trans h.player)
  have hbuilding := Option.some_inj.mp (h'.building.symm.trans h.building)
  have hcrystals := h'.crystals
  have hstats := h'.stats
  rw [hplayer, h.crystals] at hcrystals
  rw [hbuilding, h.stats] at hstats
  exact ⟨Option.some_inj.mp (h'.request.symm.trans h.request), (Option.some_inj.mp hcrystals).symm,
    (Option.some_inj.mp hstats).symm⟩

theorem not_overfills_of_error {exit : FillExit} (h : s.planFill player amount c i isResp = .error exit) :
    ¬ s.Overfills player amount c i isResp := by
  rintro ⟨n, plan, hpasses, hover⟩
  have hroom := Int32.lt_iff_toInt_lt.mp hpasses.room
  have hzero : (0 : Int64).toInt = 0 := rfl
  have hpos : (0 : Int64) < min n (plan.crystals i) := by
    rw [Int64.lt_iff_toInt_lt, toInt_minI64]
    omega
  have hok : s.planFill player amount c i isResp = .ok { plan with toTake := min n (plan.crystals i) } :=
    planFill_eq_ok.mpr ⟨some n, { hpasses with }, rfl, hpos⟩
  rw [h] at hok
  cases hok

theorem overfills_iff (h : s.planFill player amount c i isResp = .ok plan) :
    s.Overfills player amount c i isResp ↔
      plan.stats.maxCharge.toInt - plan.stats.charge.toInt < plan.toTake.toInt := by
  obtain ⟨request, hpasses, htake, -⟩ := planFill_eq_ok.mp h
  rw [htake, toInt_minI64]
  constructor
  · rintro ⟨n, plan', hpasses', hover⟩
    obtain ⟨rfl, hcrystals, hstats⟩ := hpasses.unique hpasses'
    rw [hcrystals, hstats] at hover
    exact hover
  · intro hover
    cases request with
    | none =>
        have hroom := Int32.lt_iff_toInt_lt.mp hpasses.room
        have hrequested := requested_none plan.stats
        omega
    | some n => exact ⟨n, plan, hpasses, hover⟩

theorem toInt_toTake (h : s.planFill player amount c i isResp = .ok plan) :
    0 < plan.toTake.toInt ∧ plan.toTake.toInt ≤ 2147483647 ∧ plan.toTake ≤ plan.crystals i := by
  obtain ⟨request, hpasses, htake, hpos⟩ := planFill_eq_ok.mp h
  have hsmall := requested_le hpasses.request plan.stats
  rw [Int64.le_iff_toInt_le, htake, toInt_minI64]
  rw [htake, Int64.lt_iff_toInt_lt, toInt_minI64] at hpos
  exact ⟨hpos, (min_le_left _ _).trans hsmall, min_le_right _ _⟩

/-- Crystals are lost just where a fixed amount is more than what there is room for. -/
theorem fillConserves_iff (s : FillWorld) (player : PlayerId) (amount : String) (c : WorldPos) (i : Fin 6)
    (isResp : Bool) : s.FillConserves player c i (s.applyChargeFill player amount c i isResp) ↔
      ¬ s.Overfills player amount c i isResp := by
  cases hplan : s.planFill player amount c i isResp with
  | error exit =>
      rw [applyChargeFill, hplan]
      refine iff_of_true ⟨fun effects h => ?_, fun _ _ => rfl, fun _ _ => rfl, fun _ _ => rfl, fun _ _ => rfl⟩
        (not_overfills_of_error hplan)
      cases h
  | ok plan =>
      obtain ⟨request, hpasses, -, hpos⟩ := planFill_eq_ok.mp hplan
      obtain ⟨htake, hsmall, hle⟩ := toInt_toTake hplan
      have hfilled := toInt_filled hpos hsmall
      have hleft := toInt_left hle hpos
      have henough := Int64.le_iff_toInt_le.mp hle
      have hroom := Int32.lt_iff_toInt_lt.mp hpasses.room
      have hheld (j : Fin 6) := held_of_passes (i := i) hpasses j
      have hcharge := chargeAt_of_passes (i := i) hpasses
      rw [applyChargeFill_of_ok hplan, overfills_iff hplan]
      constructor
      · rintro ⟨hdone, -, -, -, -⟩ hover
        obtain ⟨before, after, charge, charge', maxCharge, hbefore, hafter, hstats, hstats', hsame, -⟩ := hdone _ rfl
        obtain rfl := Option.some_inj.mp (hbefore.symm.trans (hheld i).1)
        obtain rfl := Option.some_inj.mp (hafter.symm.trans (hheld i).2)
        obtain ⟨rfl, rfl⟩ := Prod.mk.inj (Option.some_inj.mp (hstats.symm.trans hcharge.1))
        obtain ⟨rfl, -⟩ := Prod.mk.inj (Option.some_inj.mp (hstats'.symm.trans hcharge.2))
        omega
      · intro hover
        refine ⟨fun effects _ => ?_, fun exit h => ?_, fun j hj => ?_, fun entity hentity => ?_,
          fun entity hentity => ?_⟩
        · refine ⟨_, _, _, _, _, (hheld i).1, (hheld i).2, hcharge.1, hcharge.2, ?_, ?_, ?_, ?_⟩ <;> omega
        · cases h
        · rw [(hheld j).1, (hheld j).2, FillPlan.left, Function.update_of_ne hj]
        · refine Function.update_of_ne ?_ ..
          rintro rfl
          exact hentity hpasses.player
        · refine Function.update_of_ne ?_ ..
          rintro rfl
          exact hentity hpasses.building

end Result

section Loss

/-- A Resp with room for fifty, and a player with a hundred crystals. -/
def nearlyFull : FillWorld where
  playerEntities player := if player = 1 then some 1 else none
  players _ := ⟨some fun _ => 100, some (false, 1), true⟩
  byOrigin p := if p = (10, 10) then some 2 else none
  buildings _ := ⟨false, some (1, .resp), some (10, 10), some (1, 0), some ⟨950, 1000, 1000, 1000⟩, some false,
    true, true⟩
  dirtyPlayers := []
  dirtyBuildings := []

/-- A hundred crystals are gone and the charge is higher by fifty. -/
theorem nearlyFull_not_conserves :
    ¬ nearlyFull.FillConserves 1 (10, 10) 1 (nearlyFull.applyRespFill 1 "100" (10, 10)) := by
  intro h
  let left : Fin 6 → Int64 := Function.update (fun _ => 100) 1 0
  obtain ⟨before, after, charge, charge', maxCharge, hbefore, hafter, hcharge, hcharge', hsame, -⟩ :=
    h.done ⟨left, (left, ⟨1000, 1000, 1000, 1000⟩), none⟩ rfl
  have hheld : nearlyFull.held 1 1 = some 100 := by decide
  have hheld' : (nearlyFull.applyRespFill 1 "100" (10, 10)).1.held 1 1 = some 0 := by decide
  have hstats : nearlyFull.chargeAt (10, 10) = some (950, 1000) := by decide
  have hstats' : (nearlyFull.applyRespFill 1 "100" (10, 10)).1.chargeAt (10, 10) = some (1000, 1000) := by decide
  obtain rfl := Option.some_inj.mp (hbefore.symm.trans hheld)
  obtain rfl := Option.some_inj.mp (hafter.symm.trans hheld')
  obtain ⟨rfl, rfl⟩ := Prod.mk.inj (Option.some_inj.mp (hcharge.symm.trans hstats))
  obtain ⟨rfl, -⟩ := Prod.mk.inj (Option.some_inj.mp (hcharge'.symm.trans hstats'))
  cases hsame

end Loss

end FillWorld

end OpenMines

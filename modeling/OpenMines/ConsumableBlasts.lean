import OpenMines.DelayedConsumableRun

namespace OpenMines

open Lib.Run BrokenBuilding BrokenBuilding.State

/-- What a blast changes of a player, the experience of the health skill apart. -/
structure Vitals where
  health : Int32
  protectionUntil : Option Nat
  online : Bool

/-- The cells with the players in them, the condition of the buildings, and the health of the players. -/
structure BlastWorld where
  cells : CellWorld
  structures : BrokenBuilding.State
  vitals : PlayerId → Option Vitals

structure Blast where
  scanRange : Nat
  radiusSquared : Int
  damage : Int32
  onlineOnly : Bool

def boomBlast : Blast := ⟨4, 12, 40, false⟩

def protectorBlast : Blast := ⟨1, 12, 50, true⟩

def razBlast : Blast := ⟨razScanRange, razRadiusSquared, 500, true⟩

/-- Whether a player is a candidate of `nearby_player_candidates`, and inside the radius. -/
def Blast.reaches (blast : Blast) (size : WorldSize) (center p : WorldPos) : Bool :=
  validPos size center && nearChunk size.1 blast.scanRange center.1.toInt.toNat (chunkPos p).1 &&
    nearChunk size.2 blast.scanRange center.2.toInt.toNat (chunkPos p).2 && insideRadius p center blast.radiusSquared

namespace BlastWorld

variable (cells : BuildingCells) (rules : CellRules) (journal : WorldPos → Bool) (w : BlastWorld)

def size : WorldSize := (w.cells.grid.width, w.cells.grid.height)

/-- `apply_boom_damage` and `apply_area_player_damage` -/
def hurt (blast : Blast) (center : WorldPos) (now : Nat) (player : PlayerId) : Option Vitals :=
  (w.vitals player).map fun v =>
    match w.cells.players player with
    | none => v
    | some p =>
      if blast.reaches w.size center p.pos && (!blast.onlineOnly || v.online) &&
          !(v.protectionUntil.any fun t => decide (now < t)) && decide (0 < v.health) then
        { v with health := atLeastZero (v.health - blast.damage) }
      else v

def applyDelayed : DelayedAction → Nat → BlastWorld → BlastWorld
  | .boom center rngSeed, now, w =>
    ⟨w.cells.applyBoomCells cells rules center rngSeed journal, w.structures, w.hurt boomBlast center now⟩
  | .protector center _, now, w =>
    ⟨w.cells.applyProtector cells rules center journal, w.structures, w.hurt protectorBlast center now⟩
  | .raz center triggerPlayerId, now, w =>
    let structures : BrokenBuilding.State := { w.structures with now }
    ⟨w.cells, (structures.applyRazBuildings w.size center triggerPlayerId).2.2, w.hurt razBlast center now⟩

def surroundings : Surroundings BlastWorld where
  position w player := (w.cells.players player).map fun p => (p.pos, p.dir)
  clanId w player := (w.cells.players player).map fun p => p.clanId
  hasFlags w player := (w.cells.players player).isSome
  validCoord w p := w.cells.validCoord p
  hasBuildingOrigin w p := (w.cells.byOrigin p).isSome
  canPlaceOver w p := rules.canPlaceOver (w.cells.getCell p)
  accessGun w p clanId := w.cells.accessGun cells p clanId
  apply := applyDelayed cells rules journal

end BlastWorld

/-- Two players in front of one cell. -/
def facingWorld : BlastWorld where
  cells := {
    entities := fun _ => none
    byOrigin := fun _ => none
    chunkBuildings := fun _ => []
    nextEntity := 0
    grid := ⟨96, 96, fun _ => 0, fun _ => 0, fun _ => 0⟩
    boxes := fun _ => none
    players := fun _ => some ⟨(10, 10), 0, none, fun _ => 0, 7, fun _ => 1⟩
    conversions := []
    pickups := []
    due := []
    nextSequence := 0
    removals := [] }
  structures := ⟨0, 0, [], [], []⟩
  vitals := fun _ => none

/-- One raz is used a second after the other, and only the first of them is due. -/
theorem overlay_cleared_early :
    ∃ r, run (ConsumableRun.step (BlastWorld.surroundings (fun _ => none) .cellsJson fun _ => true))
        (ConsumableRun.start 8 0 facingWorld (fun _ => some ⟨7, fun _ => 1⟩) fun _ => some 0)
        [.use 1 1000000000 0, .use 2 1000000000 0, .phase 4000000000 8 fun _ => true] = some r ∧
      r.queue.actions.map (fun a => a.action) = [.raz (10, 11) 2] ∧ r.consumablePacks (10, 11) = none ∧ ¬ r.Overlays := by
  refine ⟨_, rfl, by decide, by decide, fun h => ?_⟩
  have hpack := (h (10, 11)).mpr ⟨⟨7000000000, 1, .raz (10, 11) 2⟩, by decide, by decide, rfl⟩
  exact absurd hpack (by decide)

end OpenMines

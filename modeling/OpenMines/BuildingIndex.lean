import OpenMines.CellGrid
import OpenMines.PackAccess

namespace OpenMines

abbrev EntityId := Nat

abbrev OperationId := Nat

structure BuildingDeletePending where
  operationId : OperationId
  dirtyBefore : Bool
  deriving DecidableEq

/-- The components of a building entity. -/
structure BuildingEntity where
  view : PackView
  storage : Option BuildingStorage
  /-- `BuildingFlags`, with the dirty mark -/
  flags : Option Bool
  pending : Option BuildingDeletePending

/-- `BuildingIdentity`: the id of the row, and the origin. -/
def PackView.identity (view : PackView) : Int32 × WorldPos := (view.id, view.origin)

def BuildingEntity.identity (b : BuildingEntity) : Int32 × WorldPos := b.view.identity

structure BuildingRow where
  view : PackView
  storage : BuildingStorage

structure BuildingItemSpec where
  itemId : Int32
  packType : PackType
  placementOffset : Int32
  databaseCode : String
  dropsOnDestroy : Bool

def buildingItems : List BuildingItemSpec := [
  ⟨0, .teleport, 2, "T", true⟩,
  ⟨1, .resp, 2, "R", true⟩,
  ⟨2, .up, 2, "U", true⟩,
  ⟨3, .market, 2, "M", true⟩,
  ⟨4, .clans, 2, "D", false⟩,
  ⟨24, .craft, 2, "F", true⟩,
  ⟨26, .gun, 2, "G", true⟩,
  ⟨27, .gate, 1, "N", false⟩,
  ⟨29, .storage, 2, "L", true⟩]

def buildingItem (itemId : Int32) : Option BuildingItemSpec :=
  buildingItems.find? (fun spec => spec.itemId = itemId)

def buildingItemForPack (packType : PackType) : Option BuildingItemSpec :=
  buildingItems.find? (fun spec => spec.packType = packType)

def destroyedBuildingDrop (packType : PackType) : Option Int32 :=
  ((buildingItemForPack packType).filter BuildingItemSpec.dropsOnDestroy).map BuildingItemSpec.itemId

def boxCell : UInt8 := 90

abbrev ChunkPos := Nat × Nat

def chunkPos (p : WorldPos) : ChunkPos :=
  (p.1.toInt.toNat / chunkSize.toNat, p.2.toInt.toNat / chunkSize.toNat)

def worldPos (p : WorldPos) : Pos := (p.1.toInt, p.2.toInt)

/-- The cells of a building in the world. -/
def footprint (cells : BuildingCells) (view : PackView) : List (WorldPos × UInt8) :=
  ((cells view.packType).getD []).map (fun d => ((view.x + d.1.1, view.y + d.1.2), d.2))

/-- The building entities and the two indexes of them. -/
structure BuildingIndex where
  entities : EntityId → Option BuildingEntity
  byOrigin : WorldPos → Option EntityId
  chunkBuildings : ChunkPos → List EntityId
  nextEntity : EntityId

namespace BuildingIndex

variable (s : BuildingIndex)

def setEntity (entity : EntityId) (b : Option BuildingEntity) : BuildingIndex :=
  { s with entities := Function.update s.entities entity b }

def buildingEntityAt (p : WorldPos) : Option (EntityId × BuildingEntity) :=
  (s.byOrigin p).bind (fun entity => (s.entities entity).map (fun b => (entity, b)))

def registerBuildingEntity (p : WorldPos) (entity : EntityId) : BuildingIndex :=
  { s with
    byOrigin := Function.update s.byOrigin p (some entity)
    chunkBuildings := Function.update s.chunkBuildings (chunkPos p) (s.chunkBuildings (chunkPos p) ++ [entity]) }

def removeBuildingEntityIf (p : WorldPos) (expected : EntityId) : Option BuildingIndex :=
  if s.byOrigin p = some expected then
    some { s with
      byOrigin := Function.update s.byOrigin p none
      chunkBuildings := Function.update s.chunkBuildings (chunkPos p)
        ((s.chunkBuildings (chunkPos p)).filter (· ≠ expected)) }
  else none

def spawnBuilding (b : BuildingEntity) : BuildingIndex :=
  let spawned := { s.setEntity s.nextEntity (some b) with nextEntity := s.nextEntity + 1 }
  spawned.registerBuildingEntity b.view.origin s.nextEntity

def removeBuilding (view : PackView) (entity : EntityId) : Option BuildingIndex :=
  (s.removeBuildingEntityIf view.origin entity).map (·.setEntity entity none)

/-- What the indexes have is alive, and every live building is in its chunk. -/
structure Sound : Prop where
  fresh : ∀ entity, s.nextEntity ≤ entity → s.entities entity = none
  byOrigin : ∀ p entity, s.byOrigin p = some entity → ∃ b, s.entities entity = some b ∧ b.view.origin = p
  chunk : ∀ c entity, entity ∈ s.chunkBuildings c ↔
    ∃ b, s.entities entity = some b ∧ chunkPos b.view.origin = c
  nodup : ∀ c, (s.chunkBuildings c).Nodup

/-- The index by origins has every building. -/
def Indexed : Prop := ∀ entity b, s.entities entity = some b → s.byOrigin b.view.origin = some entity

variable {s} {entity : EntityId} {b b' : BuildingEntity} {view : PackView} {p : WorldPos}

theorem buildingEntityAt_eq_some :
    s.buildingEntityAt p = some (entity, b) ↔ s.byOrigin p = some entity ∧ s.entities entity = some b := by
  simp only [buildingEntityAt, Option.bind_eq_some_iff, Option.map_eq_some_iff, Prod.mk.injEq]
  constructor
  · rintro ⟨e, he, b', hb', rfl, rfl⟩
    exact ⟨he, hb'⟩
  · rintro ⟨he, hb⟩
    exact ⟨entity, he, b, hb, rfl, rfl⟩

theorem removeBuilding_eq_some {t : BuildingIndex} (h : s.removeBuilding view entity = some t) :
    s.byOrigin view.origin = some entity ∧ t =
      { s with
        entities := Function.update s.entities entity none
        byOrigin := Function.update s.byOrigin view.origin none
        chunkBuildings := Function.update s.chunkBuildings (chunkPos view.origin)
          ((s.chunkBuildings (chunkPos view.origin)).filter (· ≠ entity)) } := by
  rw [removeBuilding, removeBuildingEntityIf] at h
  split at h
  case isTrue hat => exact ⟨hat, (Option.some_inj.mp h).symm⟩
  case isFalse => simp at h

/-- A building that keeps its origin keeps its places in the indexes. -/
theorem Sound.setEntity (hs : s.Sound) (hb : s.entities entity = some b)
    (horigin : b'.view.origin = b.view.origin) : (s.setEntity entity (some b')).Sound where
  fresh e he := by
    have hne : e ≠ entity := by
      rintro rfl
      rw [hs.fresh e he] at hb
      cases hb
    simpa [BuildingIndex.setEntity, hne] using hs.fresh e he
  byOrigin q e he := by
    obtain ⟨c, hc, hq⟩ := hs.byOrigin q e he
    by_cases hne : e = entity
    · subst hne
      obtain rfl := Option.some_inj.mp (hc.symm.trans hb)
      exact ⟨b', by simp [BuildingIndex.setEntity], horigin.trans hq⟩
    · exact ⟨c, by simpa [BuildingIndex.setEntity, hne] using hc, hq⟩
  chunk q e := by
    refine (hs.chunk q e).trans ?_
    by_cases hne : e = entity
    · subst hne
      simp [BuildingIndex.setEntity, hb, horigin]
    · simp [BuildingIndex.setEntity, hne]
  nodup := hs.nodup

theorem Sound.spawnBuilding (hs : s.Sound) : (s.spawnBuilding b).Sound where
  fresh e he := by
    have hne : e ≠ s.nextEntity := Nat.ne_of_gt he
    simpa [BuildingIndex.spawnBuilding, registerBuildingEntity, BuildingIndex.setEntity, hne]
      using hs.fresh e (Nat.le_of_succ_le he)
  byOrigin q e he := by
    have he' : Function.update s.byOrigin b.view.origin (some s.nextEntity) q = some e := he
    show ∃ c, Function.update s.entities s.nextEntity (some b) e = some c ∧ c.view.origin = q
    by_cases hq : q = b.view.origin
    · subst hq
      rw [Function.update_self] at he'
      obtain rfl := Option.some_inj.mp he'
      exact ⟨b, by simp, rfl⟩
    · rw [Function.update_of_ne hq] at he'
      obtain ⟨c, hc, hcq⟩ := hs.byOrigin q e he'
      have hne : e ≠ s.nextEntity := by
        rintro rfl
        rw [hs.fresh _ le_rfl] at hc
        cases hc
      exact ⟨c, by rw [Function.update_of_ne hne, hc], hcq⟩
  chunk q e := by
    show e ∈ Function.update s.chunkBuildings (chunkPos b.view.origin) _ q ↔
      ∃ c, Function.update s.entities s.nextEntity (some b) e = some c ∧ chunkPos c.view.origin = q
    have hnew : s.nextEntity ∉ s.chunkBuildings q := by
      intro hmem
      obtain ⟨c, hc, -⟩ := (hs.chunk q _).mp hmem
      rw [hs.fresh _ le_rfl] at hc
      cases hc
    by_cases hne : e = s.nextEntity
    · subst hne
      by_cases hq : q = chunkPos b.view.origin
      · subst hq
        simp
      · simp [Function.update_of_ne hq, hnew, Ne.symm hq]
    · rw [Function.update_of_ne hne]
      refine Iff.trans ?_ (hs.chunk q e)
      by_cases hq : q = chunkPos b.view.origin
      · subst hq
        simp [BuildingIndex.setEntity, hne]
      · rw [Function.update_of_ne hq]
  nodup q := by
    show (Function.update s.chunkBuildings (chunkPos b.view.origin) _ q).Nodup
    by_cases hq : q = chunkPos b.view.origin
    · subst hq
      rw [Function.update_self, List.nodup_append]
      refine ⟨hs.nodup _, List.nodup_singleton _, ?_⟩
      intro e he e' he' heq
      rw [List.mem_singleton] at he'
      obtain ⟨c, hc, -⟩ := (hs.chunk _ e).mp he
      rw [heq, he', hs.fresh _ le_rfl] at hc
      cases hc
    · rw [Function.update_of_ne hq]
      exact hs.nodup q

theorem Sound.removeBuilding {t : BuildingIndex} (hs : s.Sound) (h : s.removeBuilding view entity = some t) :
    t.Sound := by
  obtain ⟨hat, rfl⟩ := removeBuilding_eq_some h
  obtain ⟨b, hb, horigin⟩ := hs.byOrigin _ _ hat
  constructor
  case fresh =>
    intro e he
    by_cases hne : e = entity
    · simp [hne]
    · simpa [hne] using hs.fresh e he
  case byOrigin =>
    intro q e he
    by_cases hq : q = view.origin
    · simp [hq] at he
    · simp only [Function.update_of_ne hq] at he
      obtain ⟨c, hc, hcq⟩ := hs.byOrigin q e he
      have hne : e ≠ entity := by
        rintro rfl
        obtain rfl := Option.some_inj.mp (hc.symm.trans hb)
        exact hq (hcq.symm.trans horigin)
      exact ⟨c, by simpa [hne] using hc, hcq⟩
  case chunk =>
    intro q e
    by_cases hne : e = entity
    · subst hne
      by_cases hq : q = chunkPos view.origin
      · subst hq
        simp
      · have hout : e ∉ s.chunkBuildings q := by
          intro hmem
          obtain ⟨c, hc, hcq⟩ := (hs.chunk q e).mp hmem
          obtain rfl := Option.some_inj.mp (hc.symm.trans hb)
          exact hq (by rw [← hcq, horigin])
        simp [Function.update_of_ne hq, hout]
    · simp only [Function.update_of_ne hne]
      refine Iff.trans ?_ (hs.chunk q e)
      by_cases hq : q = chunkPos view.origin
      · subst hq
        simp [hne]
      · rw [Function.update_of_ne hq]
  case nodup =>
    intro q
    by_cases hq : q = chunkPos view.origin
    · subst hq
      simpa using (hs.nodup _).filter _
    · simpa [Function.update_of_ne hq] using hs.nodup q

end BuildingIndex

end OpenMines

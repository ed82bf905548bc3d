import OpenMines.BuildingPlacement

namespace OpenMines

open Lib.Run

/-- The footprints of two buildings share no cell. -/
def Apart (config : BuildingsConfig) (v v' : PackView) : Prop :=
  ∀ d ∈ footprint config.cells v, ∀ d' ∈ footprint config.cells v', d.1 ≠ d'.1

theorem Apart.symm {config : BuildingsConfig} {v v' : PackView} (h : Apart config v v') : Apart config v' v :=
  fun d hd d' hd' heq => h d' hd' d hd heq.symm

theorem BuildingsConfig.mem_origin {config : BuildingsConfig} {packType : PackType} {c : BuildingConfig}
    (hc : config.config packType = some c) : ∃ d ∈ c.cells, d.1 = (0, 0) := by
  have hcompact := config.compact packType
  rw [hc] at hcompact
  simp only [Option.all_some, BuildingConfig.compact, Bool.and_eq_true, List.contains_iff_mem] at hcompact
  simpa using hcompact.1

theorem BuildingsConfig.near {config : BuildingsConfig} {packType : PackType} {c : BuildingConfig}
    (hc : config.config packType = some c) {d : WorldPos × UInt8} (hd : d ∈ c.cells) :
    d.1.1.toInt.natAbs ≤ 32 ∧ d.1.2.toInt.natAbs ≤ 32 := by
  have hcompact := config.compact packType
  rw [hc] at hcompact
  simp only [Option.all_some, BuildingConfig.compact, Bool.and_eq_true, List.all_eq_true,
    decide_eq_true_eq] at hcompact
  exact hcompact.2 d hd

theorem mem_footprint {config : BuildingsConfig} {view : PackView} {p : WorldPos × UInt8} :
    p ∈ footprint config.cells view ↔ ∃ c ∈ config.config view.packType, ∃ d ∈ c.cells,
      ((view.x + d.1.1, view.y + d.1.2), d.2) = p := by
  cases hc : config.config view.packType with
  | none => simp [footprint, BuildingsConfig.cells, hc]
  | some c => simp [footprint, BuildingsConfig.cells, hc]

/-- Buildings that are apart have different origins. -/
theorem Apart.origin_ne {config : BuildingsConfig} {v v' : PackView} (h : Apart config v v')
    (hv : (config.config v.packType).isSome) (hv' : (config.config v'.packType).isSome) :
    v.origin ≠ v'.origin := by
  intro heq
  obtain ⟨c, hc⟩ := Option.isSome_iff_exists.mp hv
  obtain ⟨c', hc'⟩ := Option.isSome_iff_exists.mp hv'
  obtain ⟨d, hd, hzero⟩ := BuildingsConfig.mem_origin hc
  obtain ⟨d', hd', hzero'⟩ := BuildingsConfig.mem_origin hc'
  refine h _ (mem_footprint.mpr ⟨c, hc, d, hd, rfl⟩) _ (mem_footprint.mpr ⟨c', hc', d', hd', rfl⟩) ?_
  obtain ⟨hx, hy⟩ := Prod.mk.inj heq
  simp [hzero, hzero', hx, hy]

/-! ### Chunks -/

theorem toInt_add_near {a b : Int32} (ha : 0 ≤ a.toInt) (hb : b.toInt.natAbs ≤ 32) (hab : 0 ≤ (a + b).toInt) :
    (a + b).toInt = a.toInt + b.toInt := by
  have h := Int32.toInt_add a b
  have hl := a.toInt_lt
  rw [Int.bmod_def] at h
  omega

theorem mem_chunksAround {c c' : ChunkPos} : c' ∈ PlacementWorld.chunksAround c ↔
    (c.1 ≤ c'.1 + 1 ∧ c'.1 ≤ c.1 + 1) ∧ c.2 ≤ c'.2 + 1 ∧ c'.2 ≤ c.2 + 1 := by
  simp only [PlacementWorld.chunksAround, List.mem_flatMap, List.mem_map, List.mem_filter, List.mem_range,
    decide_eq_true_eq]
  constructor
  · rintro ⟨i, hi, j, ⟨hj, hx, hy⟩, rfl⟩
    dsimp only
    omega
  · rintro ⟨⟨hx, hx'⟩, hy, hy'⟩
    exact ⟨c'.1 + 1 - c.1, by omega, c'.2 + 1 - c.2, ⟨by omega, by omega, by omega⟩,
      Prod.ext (by dsimp only; omega) (by dsimp only; omega)⟩

theorem chunkSize_toNat : chunkSize.toNat = 32 := rfl

/-- The chunk of an origin is beside that of a cell that is near. -/
theorem chunkPos_near {p d : WorldPos} (hp : 0 ≤ p.1.toInt ∧ 0 ≤ p.2.toInt)
    (hd : d.1.toInt.natAbs ≤ 32 ∧ d.2.toInt.natAbs ≤ 32)
    (hcell : 0 ≤ (p.1 + d.1).toInt ∧ 0 ≤ (p.2 + d.2).toInt) :
    chunkPos p ∈ PlacementWorld.chunksAround (chunkPos (p.1 + d.1, p.2 + d.2)) := by
  have hx := toInt_add_near hp.1 hd.1 hcell.1
  have hy := toInt_add_near hp.2 hd.2 hcell.2
  simp only [mem_chunksAround, chunkPos, chunkSize_toNat, hx, hy]
  omega

namespace BuildingIndex

variable {config : BuildingsConfig} {s : BuildingIndex} {entity : EntityId} {b : BuildingEntity}

/-- A cell of a building that stands in the world is found to be covered. -/
theorem findPackCovering_isSome {c : BuildingConfig} {d : WorldPos × UInt8} (hs : s.Sound)
    (hb : s.entities entity = some b) (horigin : 0 ≤ b.view.x.toInt ∧ 0 ≤ b.view.y.toInt)
    (hc : config.config b.view.packType = some c) (hd : d ∈ c.cells)
    (hcell : 0 ≤ (b.view.x + d.1.1).toInt ∧ 0 ≤ (b.view.y + d.1.2).toInt) :
    (s.findPackCovering config.cells (b.view.x + d.1.1, b.view.y + d.1.2)).isSome := by
  have hchunk : chunkPos b.view.origin ∈
      PlacementWorld.chunksAround (chunkPos (b.view.x + d.1.1, b.view.y + d.1.2)) :=
    chunkPos_near (p := b.view.origin) (d := d.1) horigin (BuildingsConfig.near hc hd) hcell
  have hentity : entity ∈ s.chunkBuildings (chunkPos b.view.origin) :=
    (hs.chunk _ entity).mpr ⟨b, hb, rfl⟩
  rw [findPackCovering, List.findSome?_isSome_iff]
  refine ⟨entity, List.mem_flatMap.mpr ⟨_, hchunk, hentity⟩, ?_⟩
  have hcovers : b.view.hasCell ((config.cells b.view.packType).getD []) (b.view.x + d.1.1, b.view.y + d.1.2) =
      true := by
    simp only [PackView.hasCell, BuildingsConfig.cells, hc, Option.map_some, Option.getD_some, List.any_eq_true,
      decide_eq_true_eq]
    exact ⟨d, hd, rfl, rfl⟩
  rw [hb, Option.bind_some, if_pos hcovers]
  rfl

end BuildingIndex

namespace PlacementWorld

variable {config : BuildingsConfig} {defs : CellDefs} {s : PlacementWorld} {entity : EntityId} {b : BuildingEntity}

theorem nonneg_of_validCoord {g : CellGrid} {p : WorldPos} (h : g.validCoord (worldPos p) = true) :
    0 ≤ p.1.toInt ∧ 0 ≤ p.2.toInt := by
  have hin := of_decide_eq_true h
  exact ⟨hin.1, hin.2.1⟩

theorem findPackCovering_isSome {c : BuildingConfig} {d : WorldPos × UInt8} (hs : s.toBuildingIndex.Sound)
    (hb : s.entities entity = some b) (hvalid : s.grid.validCoord (worldPos b.view.origin) = true)
    (hc : config.config b.view.packType = some c) (hd : d ∈ c.cells)
    (hcell : s.grid.validCoord (worldPos (b.view.x + d.1.1, b.view.y + d.1.2)) = true) :
    (s.findPackCovering config (b.view.x + d.1.1, b.view.y + d.1.2)).isSome :=
  BuildingIndex.findPackCovering_isSome hs hb (nonneg_of_validCoord hvalid) hc hd (nonneg_of_validCoord hcell)

theorem validateBuildingArea_eq_true {pos : WorldPos} {packType : PackType}
    (h : s.validateBuildingArea config defs pos packType = true) :
    ∃ c, config.config packType = some c ∧ ∀ d ∈ c.cells,
      s.grid.validCoord (worldPos (pos.1 + d.1.1, pos.2 + d.1.2)) = true ∧
        s.findPackCovering config (pos.1 + d.1.1, pos.2 + d.1.2) = none := by
  unfold validateBuildingArea at h
  split at h
  case h_1 => cases h
  case h_2 c hc =>
    refine ⟨c, hc, fun d hd => ?_⟩
    have hcell := List.all_eq_true.mp h d hd
    simp only [Bool.and_eq_true, Option.isNone_iff_eq_none] at hcell
    exact ⟨hcell.1.1, hcell.2⟩

/-- A site that passes the check is apart from every building that stands. -/
theorem validateBuildingArea_apart (view : PackView) (hs : s.toBuildingIndex.Sound)
    (h : s.validateBuildingArea config defs view.origin view.packType = true) (hb : s.entities entity = some b)
    (hvalid : s.grid.validCoord (worldPos b.view.origin) = true) : Apart config b.view view := by
  obtain ⟨c, hc, hfree⟩ := validateBuildingArea_eq_true h
  intro p hp q hq heq
  obtain ⟨c₁, hc₁, d₁, hd₁, rfl⟩ := mem_footprint.mp hp
  obtain ⟨c₂, hc₂, d₂, hd₂, rfl⟩ := mem_footprint.mp hq
  obtain rfl := Option.some_inj.mp (hc.symm.trans hc₂)
  obtain ⟨hin, hnone⟩ := hfree d₂ hd₂
  have hsame : (b.view.x + d₁.1.1, b.view.y + d₁.1.2) = (view.origin.1 + d₂.1.1, view.origin.2 + d₂.1.2) := heq
  rw [← hsame] at hin hnone
  have hsome := findPackCovering_isSome hs hb hvalid hc₁ hd₁ hin
  rw [hnone] at hsome
  cases hsome

theorem validateBuildingArea_valid {pos : WorldPos} {packType : PackType}
    (h : s.validateBuildingArea config defs pos packType = true) : s.grid.validCoord (worldPos pos) = true := by
  obtain ⟨c, hc, hfree⟩ := validateBuildingArea_eq_true h
  obtain ⟨d, hd, hzero⟩ := BuildingsConfig.mem_origin hc
  simpa [hzero] using (hfree d hd).1

end PlacementWorld

end OpenMines

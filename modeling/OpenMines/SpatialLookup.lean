import Mathlib.Data.Set.Insert
import OpenMines.BuildingSites

namespace OpenMines

open Lib.Run

theorem foldl_and_iff {α β : Type} {f : β → α → β} {P : β → Prop} {A : α → Prop} (h : ∀ b a, P (f b a) ↔ P b ∧ A a)
    (l : List α) (b : β) : P (l.foldl f b) ↔ P b ∧ ∀ a ∈ l, A a := by
  induction l generalizing b with
  | nil => simp
  | cons a l ih => rw [List.foldl_cons, ih, h, List.forall_mem_cons, and_assoc]

theorem foldl_or_iff {α β : Type} {f : β → α → β} {P : β → Prop} {A : α → Prop} (h : ∀ b a, P (f b a) ↔ P b ∨ A a)
    (l : List α) (b : β) : P (l.foldl f b) ↔ P b ∨ ∃ a ∈ l, A a := by
  induction l generalizing b with
  | nil => simp
  | cons a l ih => rw [List.foldl_cons, ih, h, List.exists_mem_cons_iff, or_assoc]

namespace BuildingIndex

variable (s : BuildingIndex) (cells : BuildingCells)

def removeBuildingEntity (p : WorldPos) : Option (EntityId × BuildingIndex) :=
  (s.byOrigin p).map fun entity =>
    (entity,
      { s with
        byOrigin := Function.update s.byOrigin p none
        chunkBuildings := Function.update s.chunkBuildings (chunkPos p)
          ((s.chunkBuildings (chunkPos p)).filter (· ≠ entity)) })

def moveBuildingEntity (old new : WorldPos) : BuildingIndex :=
  match s.removeBuildingEntity old with
  | some (entity, removed) => removed.registerBuildingEntity new entity
  | none => s

/-- The position of a building that is about to be moved. -/
def setPosition (entity : EntityId) (p : WorldPos) : BuildingIndex :=
  s.setEntity entity ((s.entities entity).map fun b => { b with view := { b.view with x := p.1, y := p.2 } })

/-- The chunks around one, row by row. -/
def chunkRowsAround (c : ChunkPos) : List ChunkPos :=
  (List.range 3).flatMap fun j => ((List.range 3).filter fun i => 1 ≤ c.1 + i ∧ 1 ≤ c.2 + j).map
    fun i => (c.1 + i - 1, c.2 + j - 1)

/-- A cell of the footprint is at most 20 cells from the position. -/
def inGunRange (view : PackView) (p : WorldPos) (d : WorldPos × UInt8) : Bool :=
  let ddx := (view.x + d.1.1 - p.1).toInt
  let ddy := (view.y + d.1.2 - p.2).toInt
  ddx * ddx + ddy * ddy ≤ 400

def accessGunCell (clan : Int32) (view : PackView) (p : WorldPos) (acc : Bool × Bool) (d : WorldPos × UInt8) :
    Bool × Bool :=
  if inGunRange view p d then (if 0 < view.charge then acc.1 && view.clanId = clan else acc.1, true) else acc

def accessGunEntity (clan : Int32) (p : WorldPos) (acc : Bool × Bool) (entity : EntityId) : Bool × Bool :=
  match s.entities entity with
  | none => acc
  | some b =>
      if b.pending.isSome then acc
      else if b.view.packType ≠ .gun then acc
      else ((cells b.view.packType).getD []).foldl (accessGunCell clan b.view p) acc

/-- Whether no loaded gun of another clan reaches the position, and whether any gun does. -/
def accessGun (p : WorldPos) (clan : Int32) : Bool × Bool :=
  ((chunkRowsAround (chunkPos p)).flatMap s.chunkBuildings).foldl (s.accessGunEntity cells clan p) (true, false)

end BuildingIndex

inductive RegistryEvent
  | register (entity : EntityId)
  | remove (p : WorldPos)
  | move (old new : WorldPos)

/-- The index, and the buildings that have been registered and not removed since. -/
structure Registry where
  index : BuildingIndex
  registered : Set EntityId

namespace Registry

variable (grid : CellGrid)

/-- A building is registered at its position, and moved with it. -/
def step (s : Registry) : RegistryEvent → Option Registry
  | .register entity =>
      (s.index.entities entity).bind fun b =>
        if grid.validCoord (worldPos b.view.origin) then
          some ⟨s.index.registerBuildingEntity b.view.origin entity, insert entity s.registered⟩
        else none
  | .remove p =>
      match s.index.removeBuildingEntity p with
      | some (entity, index) => some ⟨index, s.registered \ {entity}⟩
      | none => some s
  | .move old new =>
      if grid.validCoord (worldPos new) then
        match s.index.byOrigin old with
        | some entity => some { s with index := (s.index.setPosition entity new).moveBuildingEntity old new }
        | none => some s
      else none

/-- Nothing is registered of the buildings there are. -/
def start (entities : EntityId → Option BuildingEntity) : Registry :=
  ⟨⟨entities, fun _ => none, fun _ => [], 0⟩, ∅⟩

/-- A registered building with its components. -/
def Has (s : Registry) (entity : EntityId) (b : BuildingEntity) : Prop :=
  entity ∈ s.registered ∧ s.index.entities entity = some b

/-- The indexes have the registered buildings, each at its position in the world. -/
structure Sound (s : Registry) : Prop where
  valid : ∀ entity ∈ s.registered, ∃ b, s.index.entities entity = some b ∧
    grid.validCoord (worldPos b.view.origin) = true
  byOrigin : ∀ p entity, s.index.byOrigin p = some entity → ∃ b, s.Has entity b ∧ b.view.origin = p
  chunk : ∀ c entity, entity ∈ s.index.chunkBuildings c ↔ ∃ b, s.Has entity b ∧ chunkPos b.view.origin = c

variable {grid} {s t : Registry} {entity : EntityId} {b : BuildingEntity} {p : WorldPos}

theorem sound_start (entities : EntityId → Option BuildingEntity) : (start entities).Sound grid where
  valid _ hmem := absurd hmem (Set.notMem_empty _)
  byOrigin _ _ h := absurd h (Option.some_ne_none _).symm
  chunk _ _ := iff_of_false List.not_mem_nil fun ⟨_, hhas, _⟩ => Set.notMem_empty _ hhas.1

theorem Sound.register (h : s.Sound grid) (hb : s.index.entities entity = some b)
    (hvalid : grid.validCoord (worldPos b.view.origin) = true) :
    Sound grid ⟨s.index.registerBuildingEntity b.view.origin entity, insert entity s.registered⟩ where
  valid e hmem := by
    rcases Set.mem_insert_iff.mp hmem with rfl | hold
    · exact ⟨b, hb, hvalid⟩
    · exact h.valid e hold
  byOrigin q e he := by
    change Function.update s.index.byOrigin b.view.origin (some entity) q = some e at he
    rw [Function.update_apply] at he
    split at he
    · rename_i hq
      obtain rfl := Option.some.inj he
      exact ⟨b, ⟨Set.mem_insert _ _, hb⟩, hq.symm⟩
    · obtain ⟨c, hc, hq⟩ := h.byOrigin q e he
      exact ⟨c, ⟨Set.mem_insert_of_mem _ hc.1, hc.2⟩, hq⟩
  chunk q e := by
    change e ∈ Function.update s.index.chunkBuildings (chunkPos b.view.origin) _ q ↔ _
    have hold : e ∈ s.index.chunkBuildings q ∨ e = entity ∧ q = chunkPos b.view.origin ↔
        ∃ c, (e ∈ insert entity s.registered ∧ s.index.entities e = some c) ∧ chunkPos c.view.origin = q := by
      rw [h.chunk q e]
      constructor
      · rintro (⟨c, hc, hq⟩ | ⟨rfl, rfl⟩)
        · exact ⟨c, ⟨Set.mem_insert_of_mem _ hc.1, hc.2⟩, hq⟩
        · exact ⟨b, ⟨Set.mem_insert _ _, hb⟩, rfl⟩
      · rintro ⟨c, ⟨hmem, hc⟩, hq⟩
        rcases Set.mem_insert_iff.mp hmem with rfl | hmem
        · obtain rfl := Option.some.inj (hb.symm.trans hc)
          exact .inr ⟨rfl, hq.symm⟩
        · exact .inl ⟨c, ⟨hmem, hc⟩, hq⟩
    refine Iff.trans ?_ hold
    by_cases hq : q = chunkPos b.view.origin
    · subst hq
      rw [Function.update_self, List.mem_append, List.mem_singleton, and_iff_left rfl]
    · rw [Function.update_of_ne hq]
      exact (or_iff_left fun hnew => hq hnew.2).symm

theorem Sound.removed {index : BuildingIndex} (h : s.Sound grid)
    (hremove : s.index.removeBuildingEntity p = some (entity, index)) :
    Sound grid ⟨index, s.registered \ {entity}⟩ := by
  obtain ⟨e, he, heq⟩ := Option.map_eq_some_iff.mp hremove
  obtain ⟨rfl, rfl⟩ := Prod.mk.inj heq
  obtain ⟨b, hb, horigin⟩ := h.byOrigin p e he
  refine ⟨fun e' hmem => h.valid e' hmem.1, fun q e' he' => ?_, fun q e' => ?_⟩
  · dsimp only at he'
    rw [Function.update_apply] at he'
    split at he'
    · cases he'
    · rename_i hq
      obtain ⟨c, hc, hcq⟩ := h.byOrigin q e' he'
      have hne : e' ≠ e := by
        rintro rfl
        obtain rfl := Option.some.inj (hb.2.symm.trans hc.2)
        exact hq (hcq.symm.trans horigin)
      exact ⟨c, ⟨⟨hc.1, hne⟩, hc.2⟩, hcq⟩
  · have hrest : e' ∈ s.index.chunkBuildings q ∧ e' ≠ e ↔
        ∃ c, (e' ∈ s.registered \ {e} ∧ s.index.entities e' = some c) ∧ chunkPos c.view.origin = q := by
      rw [h.chunk q e']
      constructor
      · rintro ⟨⟨c, hc, hq⟩, hne⟩
        exact ⟨c, ⟨⟨hc.1, hne⟩, hc.2⟩, hq⟩
      · rintro ⟨c, ⟨hmem, hc⟩, hq⟩
        exact ⟨⟨c, ⟨hmem.1, hc⟩, hq⟩, hmem.2⟩
    refine Iff.trans ?_ hrest
    dsimp only
    by_cases hq : q = chunkPos p
    · subst hq
      rw [Function.update_self, List.mem_filter, decide_eq_true_eq]
    · rw [Function.update_of_ne hq]
      refine (and_iff_left_of_imp fun hmem => ?_).symm
      rintro rfl
      obtain ⟨c, hc, hcq⟩ := (h.chunk q e').mp hmem
      obtain rfl := Option.some.inj (hb.2.symm.trans hc.2)
      exact hq (hcq.symm.trans (congrArg chunkPos horigin))

/-- A building that is not registered can be anything. -/
theorem Sound.setEntity (h : s.Sound grid) (hout : entity ∉ s.registered) (b : Option BuildingEntity) :
    Sound grid { s with index := s.index.setEntity entity b } := by
  have hsame {e : EntityId} (he : e ∈ s.registered) : (s.index.setEntity entity b).entities e = s.index.entities e := by
    have hne : e ≠ entity := by
      rintro rfl
      exact hout he
    exact Function.update_of_ne hne ..
  have hhas (e : EntityId) (c : BuildingEntity) : Has { s with index := s.index.setEntity entity b } e c ↔ s.Has e c :=
    and_congr_right fun he => by rw [hsame he]
  refine ⟨fun e he => ?_, fun q e he => ?_, fun c e => ?_⟩
  · rw [hsame he]
    exact h.valid e he
  · obtain ⟨c, hc, hq⟩ := h.byOrigin q e he
    exact ⟨c, (hhas e c).mpr hc, hq⟩
  · exact (h.chunk c e).trans (exists_congr fun c' => and_congr_left fun _ => (hhas e c').symm)

theorem Sound.move {new : WorldPos} (h : s.Sound grid) (hold : s.index.byOrigin p = some entity)
    (hvalid : grid.validCoord (worldPos new) = true) :
    Sound grid { s with index := (s.index.setPosition entity new).moveBuildingEntity p new } := by
  obtain ⟨b, hb, -⟩ := h.byOrigin p entity hold
  obtain ⟨index, hremove⟩ : ∃ index, s.index.removeBuildingEntity p = some (entity, index) :=
    ⟨_, congrArg (Option.map _) hold⟩
  have hremoved := (h.removed hremove).setEntity (fun hmem => hmem.2 rfl)
    (some { b with view := { b.view with x := new.1, y := new.2 } })
  have hregistered := hremoved.register (Function.update_self ..) hvalid
  have hmem : insert entity (s.registered \ {entity}) = s.registered := by
    rw [Set.insert_sdiff_singleton, Set.insert_eq_of_mem hb.1]
  rw [hmem] at hregistered
  have hindex : (s.index.setPosition entity new).moveBuildingEntity p new =
      (index.setEntity entity (some { b with view := { b.view with x := new.1, y := new.2 } })).registerBuildingEntity
        new entity := by
    obtain ⟨e, he, heq⟩ := Option.map_eq_some_iff.mp hremove
    obtain ⟨rfl, rfl⟩ := Prod.mk.inj heq
    simp only [BuildingIndex.moveBuildingEntity, BuildingIndex.removeBuildingEntity, BuildingIndex.setPosition,
      BuildingIndex.setEntity, hb.2, hold, Option.map_some]
  rw [hindex]
  exact hregistered

theorem Sound.step {e : RegistryEvent} (h : s.Sound grid) (hstep : step grid s e = some t) : t.Sound grid := by
  cases e with
  | register entity =>
      obtain ⟨b, hb, hstep⟩ := Option.bind_eq_some_iff.mp hstep
      split at hstep
      · rename_i hvalid
        obtain rfl := Option.some.inj hstep
        exact h.register hb hvalid
      · cases hstep
  | remove p =>
      rw [Registry.step] at hstep
      split at hstep
      · rename_i hremove
        obtain rfl := Option.some.inj hstep
        exact h.removed hremove
      · exact Option.some.inj hstep ▸ h
  | move old new =>
      rw [Registry.step] at hstep
      split at hstep
      · rename_i hvalid
        split at hstep
        · rename_i hold
          obtain rfl := Option.some.inj hstep
          exact h.move hold hvalid
        · exact Option.some.inj hstep ▸ h
      · cases hstep

theorem sound_run {entities : EntityId → Option BuildingEntity} {es : List RegistryEvent}
    (h : run (step grid) (start entities) es = some s) : s.Sound grid :=
  run_preserves (sound_start entities) (fun _ _ _ _ hs hstep => hs.step hstep) h

section Lookup

variable {cells : BuildingCells} {d : WorldPos × UInt8}

/-- No cell of a footprint is farther from its origin than 11. -/
def Compact (cells : BuildingCells) : Prop :=
  ∀ packType offsets, cells packType = some offsets → ∀ d ∈ offsets, d.1.1.toInt.natAbs ≤ 11 ∧ d.1.2.toInt.natAbs ≤ 11

/-- The footprint of a building has the cell. -/
def Covers (cells : BuildingCells) (view : PackView) (p : WorldPos) : Prop :=
  ∃ d ∈ (cells view.packType).getD [], view.x.toInt + d.1.1.toInt = p.1.toInt ∧ view.y.toInt + d.1.2.toInt = p.2.toInt

/-- A cell of the footprint is at most 20 cells from the position. -/
def Reaches (cells : BuildingCells) (view : PackView) (p : WorldPos) : Prop :=
  ∃ d ∈ (cells view.packType).getD [],
    (view.x.toInt + d.1.1.toInt - p.1.toInt) ^ 2 + (view.y.toInt + d.1.2.toInt - p.2.toInt) ^ 2 ≤ 400

/-- A registered gun that is not about to be deleted and reaches the position. -/
def GunAt (s : Registry) (cells : BuildingCells) (p : WorldPos) (view : PackView) : Prop :=
  ∃ entity b, s.Has entity b ∧ b.pending = none ∧ b.view = view ∧ view.packType = .gun ∧ Reaches cells view p

theorem Compact.near (h : Compact cells) {packType : PackType} (hd : d ∈ (cells packType).getD []) :
    d.1.1.toInt.natAbs ≤ 11 ∧ d.1.2.toInt.natAbs ≤ 11 := by
  cases hcells : cells packType with
  | none =>
      rw [hcells] at hd
      exact absurd hd List.not_mem_nil
  | some offsets =>
      rw [hcells] at hd
      exact h packType offsets hcells d hd

/-- Machine arithmetic decides which cell of a building a position is. -/
theorem hasCell_iff (hcells : Compact cells) {view : PackView} (horigin : 0 ≤ view.x.toInt ∧ 0 ≤ view.y.toInt)
    (hp : 0 ≤ p.1.toInt ∧ 0 ≤ p.2.toInt) :
    view.hasCell ((cells view.packType).getD []) p = true ↔ Covers cells view p := by
  rw [PackView.hasCell, List.any_eq_true]
  refine exists_congr fun d => and_congr_right fun hd => ?_
  obtain ⟨hx, hy⟩ := hcells.near hd
  rw [decide_eq_true_eq, ← Int32.toInt_inj, ← Int32.toInt_inj]
  constructor
  · rintro ⟨hpx, hpy⟩
    exact ⟨by rw [← hpx, toInt_add_near horigin.1 (by omega) (by omega)],
      by rw [← hpy, toInt_add_near horigin.2 (by omega) (by omega)]⟩
  · rintro ⟨hpx, hpy⟩
    constructor
    · rw [Int32.toInt_add, hpx]
      exact p.1.toInt_bmod
    · rw [Int32.toInt_add, hpy]
      exact p.2.toInt_bmod

/-- A machine difference is the difference, or both are large. -/
theorem toInt_add_sub {a o q : Int32} (ha : 0 ≤ a.toInt) (ho : o.toInt.natAbs ≤ 11) (hq : 0 ≤ q.toInt) :
    (a + o - q).toInt = a.toInt + o.toInt - q.toInt ∨
      20 < (a + o - q).toInt.natAbs ∧ 20 < (a.toInt + o.toInt - q.toInt).natAbs := by
  have hsub := Int32.toInt_sub (a + o) q
  rw [Int32.toInt_add, Int.bmod_def, Int.bmod_def] at hsub
  have hal := a.toInt_lt
  have hql := q.toInt_lt
  omega

theorem sq_eq_natAbs (u : Int) : u ^ 2 = ((u.natAbs ^ 2 : Nat) : Int) := by
  rw [Nat.cast_pow, Int.natAbs_sq]

theorem sq_large {u : Int} (hu : 20 < u.natAbs) : 21 ^ 2 ≤ u.natAbs ^ 2 := Nat.pow_le_pow_left hu 2

theorem sq_add_sq_le_iff {v v' w w' : Int} (h : v = w ∨ 20 < v.natAbs ∧ 20 < w.natAbs)
    (h' : v' = w' ∨ 20 < v'.natAbs ∧ 20 < w'.natAbs) : v * v + v' * v' ≤ 400 ↔ w ^ 2 + w' ^ 2 ≤ 400 := by
  rw [← sq, ← sq, sq_eq_natAbs, sq_eq_natAbs, sq_eq_natAbs, sq_eq_natAbs]
  rcases h with rfl | ⟨hv, hw⟩
  · rcases h' with rfl | ⟨hv', hw'⟩
    · exact Iff.rfl
    · have hv' := sq_large hv'
      have hw' := sq_large hw'
      omega
  · have hv := sq_large hv
    have hw := sq_large hw
    omega

theorem inGunRange_iff {view : PackView} (horigin : 0 ≤ view.x.toInt ∧ 0 ≤ view.y.toInt)
    (hp : 0 ≤ p.1.toInt ∧ 0 ≤ p.2.toInt) (hd : d.1.1.toInt.natAbs ≤ 11 ∧ d.1.2.toInt.natAbs ≤ 11) :
    BuildingIndex.inGunRange view p d = true ↔
      (view.x.toInt + d.1.1.toInt - p.1.toInt) ^ 2 + (view.y.toInt + d.1.2.toInt - p.2.toInt) ^ 2 ≤ 400 := by
  rw [BuildingIndex.inGunRange, decide_eq_true_eq]
  exact sq_add_sq_le_iff (toInt_add_sub horigin.1 hd.1 hp.1) (toInt_add_sub horigin.2 hd.2 hp.2)

theorem natAbs_le_of_sq_add_sq_le {v w : Int} (h : v ^ 2 + w ^ 2 ≤ 400) : v.natAbs ≤ 20 ∧ w.natAbs ≤ 20 := by
  rw [sq_eq_natAbs, sq_eq_natAbs] at h
  constructor
  · refine Nat.le_of_not_lt fun hlt => ?_
    have hlarge := sq_large hlt
    omega
  · refine Nat.le_of_not_lt fun hlt => ?_
    have hlarge := sq_large hlt
    omega

theorem mem_chunkRowsAround {c c' : ChunkPos} : c' ∈ BuildingIndex.chunkRowsAround c ↔
    (c.1 ≤ c'.1 + 1 ∧ c'.1 ≤ c.1 + 1) ∧ c.2 ≤ c'.2 + 1 ∧ c'.2 ≤ c.2 + 1 := by
  simp only [BuildingIndex.chunkRowsAround, List.mem_flatMap, List.mem_map, List.mem_filter, List.mem_range,
    decide_eq_true_eq]
  constructor
  · rintro ⟨j, hj, i, ⟨hi, hx, hy⟩, rfl⟩
    dsimp only
    omega
  · rintro ⟨⟨hx, hx'⟩, hy, hy'⟩
    exact ⟨c'.2 + 1 - c.2, by omega, c'.1 + 1 - c.1, ⟨by omega, by omega, by omega⟩,
      Prod.ext (by dsimp only; omega) (by dsimp only; omega)⟩

/-- What is at most as far as a chunk is wide is in a chunk beside. -/
theorem chunkPos_beside {o p : WorldPos} (ho : 0 ≤ o.1.toInt ∧ 0 ≤ o.2.toInt) (hp : 0 ≤ p.1.toInt ∧ 0 ≤ p.2.toInt)
    (h : (o.1.toInt - p.1.toInt).natAbs ≤ 32 ∧ (o.2.toInt - p.2.toInt).natAbs ≤ 32) :
    ((chunkPos p).1 ≤ (chunkPos o).1 + 1 ∧ (chunkPos o).1 ≤ (chunkPos p).1 + 1) ∧
      (chunkPos p).2 ≤ (chunkPos o).2 + 1 ∧ (chunkPos o).2 ≤ (chunkPos p).2 + 1 := by
  simp only [chunkPos, chunkSize_toNat]
  omega

theorem Sound.nonneg (h : s.Sound grid) (hhas : s.Has entity b) : 0 ≤ b.view.x.toInt ∧ 0 ≤ b.view.y.toInt := by
  obtain ⟨c, hc, hvalid⟩ := h.valid entity hhas.1
  obtain rfl := Option.some.inj (hhas.2.symm.trans hc)
  exact PlacementWorld.nonneg_of_validCoord hvalid

/-- A registered building that is near is among those that a lookup goes through. -/
theorem Sound.mem_scan {chunks : List ChunkPos} (h : s.Sound grid) (hhas : s.Has entity b)
    (hp : 0 ≤ p.1.toInt ∧ 0 ≤ p.2.toInt)
    (hnear : (b.view.x.toInt - p.1.toInt).natAbs ≤ 32 ∧ (b.view.y.toInt - p.2.toInt).natAbs ≤ 32)
    (hchunks : ∀ c, c ∈ chunks ↔ ((chunkPos p).1 ≤ c.1 + 1 ∧ c.1 ≤ (chunkPos p).1 + 1) ∧
      (chunkPos p).2 ≤ c.2 + 1 ∧ c.2 ≤ (chunkPos p).2 + 1) : entity ∈ chunks.flatMap s.index.chunkBuildings := by
  refine List.mem_flatMap.mpr ⟨chunkPos b.view.origin, ?_, (h.chunk _ entity).mpr ⟨b, hhas, rfl⟩⟩
  exact (hchunks _).mpr (@chunkPos_beside b.view.origin p (h.nonneg hhas) hp hnear)

theorem Sound.has_of_mem_scan {chunks : List ChunkPos} (h : s.Sound grid)
    (hmem : entity ∈ chunks.flatMap s.index.chunkBuildings) (hb : s.index.entities entity = some b) :
    s.Has entity b := by
  obtain ⟨c, -, hchunk⟩ := List.mem_flatMap.mp hmem
  obtain ⟨b', hhas, -⟩ := (h.chunk c entity).mp hchunk
  exact ⟨hhas.1, hb⟩

theorem Covers.near (hcells : Compact cells) {view : PackView} (h : Covers cells view p) :
    (view.x.toInt - p.1.toInt).natAbs ≤ 32 ∧ (view.y.toInt - p.2.toInt).natAbs ≤ 32 := by
  obtain ⟨d, hd, hx, hy⟩ := h
  obtain ⟨hdx, hdy⟩ := hcells.near hd
  omega

theorem Reaches.near (hcells : Compact cells) {view : PackView} (h : Reaches cells view p) :
    (view.x.toInt - p.1.toInt).natAbs ≤ 32 ∧ (view.y.toInt - p.2.toInt).natAbs ≤ 32 := by
  obtain ⟨d, hd, hreach⟩ := h
  obtain ⟨hdx, hdy⟩ := hcells.near hd
  obtain ⟨hx, hy⟩ := natAbs_le_of_sq_add_sq_le hreach
  omega

/-- The lookup finds a registered building that covers the position. -/
theorem Sound.of_findPackCovering (h : s.Sound grid) (hcells : Compact cells) (hp : 0 ≤ p.1.toInt ∧ 0 ≤ p.2.toInt)
    {origin : WorldPos} (hfind : s.index.findPackCovering cells p = some origin) :
    ∃ entity b, s.Has entity b ∧ b.view.origin = origin ∧ Covers cells b.view p := by
  obtain ⟨entity, hmem, hcover⟩ := List.exists_of_findSome?_eq_some hfind
  obtain ⟨b, hb, hcover⟩ := Option.bind_eq_some_iff.mp hcover
  have hhas := h.has_of_mem_scan hmem hb
  split at hcover
  · rename_i hcell
    exact ⟨entity, b, hhas, Option.some.inj hcover, (hasCell_iff hcells (h.nonneg hhas) hp).mp hcell⟩
  · cases hcover

theorem Sound.isSome_findPackCovering (h : s.Sound grid) (hcells : Compact cells)
    (hp : 0 ≤ p.1.toInt ∧ 0 ≤ p.2.toInt) (hhas : s.Has entity b) (hcovers : Covers cells b.view p) :
    (s.index.findPackCovering cells p).isSome = true := by
  rw [BuildingIndex.findPackCovering, List.findSome?_isSome_iff]
  refine ⟨entity, h.mem_scan hhas hp (hcovers.near hcells) fun c => mem_chunksAround, ?_⟩
  rw [hhas.2, Option.bind_some, if_pos ((hasCell_iff hcells (h.nonneg hhas) hp).mpr hcovers)]
  rfl

/-- What one entity of the scan adds to the first result. -/
theorem accessGunEntity_fst {index : BuildingIndex} {clan : Int32} (acc : Bool × Bool) (entity : EntityId) :
    (index.accessGunEntity cells clan p acc entity).1 = true ↔ acc.1 = true ∧ ∀ b, index.entities entity = some b →
      b.pending = none → b.view.packType = .gun → ∀ d ∈ (cells b.view.packType).getD [],
        BuildingIndex.inGunRange b.view p d = true → 0 < b.view.charge → b.view.clanId = clan := by
  rw [BuildingIndex.accessGunEntity]
  split
  · rename_i hnone
    exact (and_iff_left fun b hb => absurd (hnone.symm.trans hb) (Option.some_ne_none _).symm).symm
  · rename_i b hb
    have hall {A : BuildingEntity → Prop} : (∀ c, index.entities entity = some c → A c) ↔ A b :=
      ⟨fun h => h b hb, fun h c hc => Option.some.inj (hb.symm.trans hc) ▸ h⟩
    rw [hall]
    split
    · rename_i hpending
      exact (and_iff_left fun hnone => absurd hpending (by rw [hnone]; exact Bool.false_ne_true)).symm
    · rename_i hpending
      split
      · rename_i htype
        exact (and_iff_left fun _ hgun => absurd hgun htype).symm
      · rename_i htype
        rw [foldl_and_iff (P := fun acc : Bool × Bool => acc.1 = true) (A := fun d =>
          BuildingIndex.inGunRange b.view p d = true → 0 < b.view.charge → b.view.clanId = clan)]
        · refine and_congr_right fun _ => ?_
          rw [forall_prop_of_true (Option.not_isSome_iff_eq_none.mp hpending), forall_prop_of_true (not_not.mp htype)]
        · intro acc d
          rw [BuildingIndex.accessGunCell]
          split
          · rename_i hrange
            rw [forall_prop_of_true hrange]
            dsimp only
            split
            · rename_i hcharge
              rw [forall_prop_of_true hcharge, Bool.and_eq_true, decide_eq_true_eq]
            · rename_i hcharge
              exact (and_iff_left fun hpos => absurd hpos hcharge).symm
          · rename_i hrange
            exact (and_iff_left fun hin => absurd hin hrange).symm

theorem accessGunEntity_snd {index : BuildingIndex} {clan : Int32} (acc : Bool × Bool) (entity : EntityId) :
    (index.accessGunEntity cells clan p acc entity).2 = true ↔ acc.2 = true ∨ ∃ b, index.entities entity = some b ∧
      b.pending = none ∧ b.view.packType = .gun ∧ ∃ d ∈ (cells b.view.packType).getD [],
        BuildingIndex.inGunRange b.view p d = true := by
  rw [BuildingIndex.accessGunEntity]
  split
  · rename_i hnone
    refine (or_iff_left ?_).symm
    rintro ⟨b, hb, -⟩
    cases hnone.symm.trans hb
  · rename_i b hb
    have hex {A : BuildingEntity → Prop} : (∃ c, index.entities entity = some c ∧ A c) ↔ A b :=
      ⟨fun ⟨c, hc, h⟩ => Option.some.inj (hb.symm.trans hc) ▸ h, fun h => ⟨b, hb, h⟩⟩
    rw [hex]
    split
    · rename_i hpending
      refine (or_iff_left ?_).symm
      rintro ⟨hnone, -⟩
      rw [hnone] at hpending
      cases hpending
    · rename_i hpending
      rw [and_iff_right (Option.not_isSome_iff_eq_none.mp hpending)]
      split
      · rename_i htype
        exact (or_iff_left fun h => htype h.1).symm
      · rename_i htype
        rw [and_iff_right (not_not.mp htype)]
        refine foldl_or_iff (P := fun acc : Bool × Bool => acc.2 = true) (fun acc d => ?_) _ _
        rw [BuildingIndex.accessGunCell]
        split
        · rename_i hrange
          exact iff_of_true rfl (.inr hrange)
        · rename_i hrange
          exact (or_iff_left hrange).symm

/-- A gun that reaches the position is among the entities of the scan, and the other way round. -/
theorem Sound.gunAt_iff (h : s.Sound grid) (hcells : Compact cells) (hp : 0 ≤ p.1.toInt ∧ 0 ≤ p.2.toInt)
    (view : PackView) : s.GunAt cells p view ↔
      ∃ entity ∈ (BuildingIndex.chunkRowsAround (chunkPos p)).flatMap s.index.chunkBuildings,
        ∃ b, s.index.entities entity = some b ∧ b.pending = none ∧ b.view = view ∧ b.view.packType = .gun ∧
          ∃ d ∈ (cells b.view.packType).getD [], BuildingIndex.inGunRange b.view p d = true := by
  have hrange {entity : EntityId} {b : BuildingEntity} (hhas : s.Has entity b) : Reaches cells b.view p ↔
      ∃ d ∈ (cells b.view.packType).getD [], BuildingIndex.inGunRange b.view p d = true :=
    exists_congr fun d => and_congr_right fun hd => (inGunRange_iff (h.nonneg hhas) hp (hcells.near hd)).symm
  constructor
  · rintro ⟨entity, b, hhas, hpending, rfl, hgun, hreach⟩
    exact ⟨entity, h.mem_scan hhas hp (hreach.near hcells) fun c => mem_chunkRowsAround, b, hhas.2, hpending, rfl, hgun,
      (hrange hhas).mp hreach⟩
  · rintro ⟨entity, hmem, b, hb, hpending, rfl, hgun, hreach⟩
    have hhas := h.has_of_mem_scan hmem hb
    exact ⟨entity, b, hhas, hpending, rfl, hgun, (hrange hhas).mpr hreach⟩

theorem Sound.accessGun_fst (h : s.Sound grid) (hcells : Compact cells) (hp : 0 ≤ p.1.toInt ∧ 0 ≤ p.2.toInt)
    (clan : Int32) : (s.index.accessGun cells p clan).1 = true ↔
      ∀ view, s.GunAt cells p view → 0 < view.charge → view.clanId = clan := by
  rw [BuildingIndex.accessGun,
    foldl_and_iff (P := fun acc : Bool × Bool => acc.1 = true) (fun acc entity => accessGunEntity_fst acc entity),
    and_iff_right rfl]
  constructor
  · intro hall view hgun
    obtain ⟨entity, hmem, b, hb, hpending, rfl, htype, d, hd, hin⟩ := (h.gunAt_iff hcells hp view).mp hgun
    exact hall entity hmem b hb hpending htype d hd hin
  · intro hall entity hmem b hb hpending htype d hd hin
    exact hall b.view ((h.gunAt_iff hcells hp b.view).mpr ⟨entity, hmem, b, hb, hpending, rfl, htype, d, hd, hin⟩)

theorem Sound.accessGun_snd (h : s.Sound grid) (hcells : Compact cells) (hp : 0 ≤ p.1.toInt ∧ 0 ≤ p.2.toInt)
    (clan : Int32) : (s.index.accessGun cells p clan).2 = true ↔ ∃ view, s.GunAt cells p view := by
  rw [BuildingIndex.accessGun,
    foldl_or_iff (P := fun acc : Bool × Bool => acc.2 = true) (fun acc entity => accessGunEntity_snd acc entity),
    or_iff_right Bool.false_ne_true]
  constructor
  · rintro ⟨entity, hmem, b, hb, hpending, htype, d, hd, hin⟩
    exact ⟨b.view, (h.gunAt_iff hcells hp b.view).mpr ⟨entity, hmem, b, hb, hpending, rfl, htype, d, hd, hin⟩⟩
  · rintro ⟨view, hgun⟩
    obtain ⟨entity, hmem, b, hb, hpending, rfl, hrest⟩ := (h.gunAt_iff hcells hp view).mp hgun
    exact ⟨entity, hmem, b, hb, hpending, hrest⟩

/-- The lookups over the chunks around a position agree with a search among all the buildings that have been registered,
moved and not removed. -/
theorem lookups_agree {entities : EntityId → Option BuildingEntity} {es : List RegistryEvent}
    (h : run (step grid) (start entities) es = some s) (hcells : Compact cells)
    (hp : grid.validCoord (worldPos p) = true) :
    (∀ origin, s.index.findPackCovering cells p = some origin →
      ∃ entity b, s.Has entity b ∧ b.view.origin = origin ∧ Covers cells b.view p) ∧
    ((∃ origin, s.index.findPackCovering cells p = some origin) ↔
      ∃ entity b, s.Has entity b ∧ Covers cells b.view p) ∧
    ∀ clan,
      ((s.index.accessGun cells p clan).1 = true ↔
        ∀ view, s.GunAt cells p view → 0 < view.charge → view.clanId = clan) ∧
      ((s.index.accessGun cells p clan).2 = true ↔ ∃ view, s.GunAt cells p view) := by
  have hs := sound_run h
  have hp' : 0 ≤ p.1.toInt ∧ 0 ≤ p.2.toInt := PlacementWorld.nonneg_of_validCoord hp
  refine ⟨fun origin hfind => hs.of_findPackCovering hcells hp' hfind, ?_, fun clan => ?_⟩
  · constructor
    · rintro ⟨origin, hfind⟩
      obtain ⟨entity, b, hhas, -, hcovers⟩ := hs.of_findPackCovering hcells hp' hfind
      exact ⟨entity, b, hhas, hcovers⟩
    · rintro ⟨entity, b, hhas, hcovers⟩
      exact Option.isSome_iff_exists.mp (hs.isSome_findPackCovering hcells hp' hhas hcovers)
  · exact ⟨hs.accessGun_fst hcells hp' clan, hs.accessGun_snd hcells hp' clan⟩

end Lookup

/-- A gun whose footprint has a cell far to the left of its origin. -/
def sampleGunCells : BuildingCells
  | .gun => some [((0, 0), 1), ((-11, 0), 1)]
  | _ => none

def sampleGun : BuildingEntity where
  view := ⟨1, .gun, 40, 40, 7, 3, 100, 100, 0, 0⟩
  storage := none
  flags := some false
  pending := none

def sampleGrid : CellGrid := ⟨96, 96, fun _ => 0, fun _ => 0, fun _ => 0⟩

/-- The gun is moved to another chunk, and covers a cell of the chunk beside. -/
theorem lookups_agree_moved : ∃ s, run (step sampleGrid) (start fun entity => if entity = 0 then some sampleGun else none)
      [.register 0, .move (40, 40) (70, 40)] = some s ∧
    (∃ origin, s.index.findPackCovering sampleGunCells (59, 40) = some origin) ∧
    (s.index.accessGun sampleGunCells (59, 40) 4).2 = true ∧ (s.index.accessGun sampleGunCells (59, 40) 4).1 ≠ true := by
  obtain ⟨s, hs, hhas⟩ : ∃ s, run (step sampleGrid) (start fun entity => if entity = 0 then some sampleGun else none)
      [.register 0, .move (40, 40) (70, 40)] = some s ∧
        s.Has 0 { sampleGun with view := { sampleGun.view with x := 70, y := 40 } } :=
    ⟨_, rfl, Set.mem_insert _ _, rfl⟩
  have hcompact : Compact sampleGunCells := by
    intro packType offsets h d hd
    cases packType <;> cases h
    have hall : ∀ d ∈ [(((0, 0) : WorldPos), (1 : UInt8)), ((-11, 0), 1)], d.1.1.toInt.natAbs ≤ 11 ∧ d.1.2.toInt.natAbs ≤ 11 :=
      List.forall_mem_cons.mpr ⟨by decide, List.forall_mem_singleton.mpr (by decide)⟩
    exact hall d hd
  obtain ⟨-, hcover, haccess⟩ := lookups_agree hs hcompact (p := (59, 40)) (by decide)
  have hgun : s.GunAt sampleGunCells (59, 40) { sampleGun.view with x := 70, y := 40 } :=
    ⟨0, _, hhas, rfl, rfl, rfl, ((-11, 0), 1), List.mem_cons_of_mem _ (List.mem_singleton.mpr rfl), by decide⟩
  refine ⟨s, hs, hcover.mpr ⟨0, _, hhas, ((-11, 0), 1), ?_, by decide⟩, (haccess 4).2.mpr ⟨_, hgun⟩, fun hfree => ?_⟩
  · exact List.mem_cons_of_mem _ (List.mem_singleton.mpr rfl)
  · exact absurd ((haccess 4).1.mp hfree _ hgun (by decide)) (by decide)

end Registry

end OpenMines

import OpenMines.BuildingDeleteRun
import OpenMines.Granular
import OpenMines.Withdrawal

namespace OpenMines

open Lib.Run

namespace BuildingWorld

variable {cells : BuildingCells} {defs : CellDefs} {s t u : BuildingWorld} {entity : EntityId}
  {b : BuildingEntity} {request : BuildingDeleteRequest} {result : BuildingDeleteResult} {a : Admission}
  {completions : List (BuildingDeleteRequest × BuildingDeleteResult)} {journal : WorldPos → Bool} {boxOk : Bool}

/-! ### The cells of a removed building -/

theorem getCell_clearBuildingFootprint (cells : BuildingCells) (defs : CellDefs) (view : PackView)
    (hjournal : ∀ p, journal p = true) (g : CellGrid) (q : Pos) :
    (clearBuildingFootprint cells defs view journal g).validCoord q = g.validCoord q ∧
      (clearBuildingFootprint cells defs view journal g).getCell q =
        if g.validCoord q = true ∧ ∃ d ∈ footprint cells view, worldPos d.1 = q then emptyCell else g.getCell q := by
  rw [clearBuildingFootprint]
  induction footprint cells view generalizing g with
  | nil => simp
  | cons d ds ih =>
      obtain ⟨hvalid, hcell⟩ := ih (g.setCellTyped defs (worldPos d.1) emptyCell (journal d.1))
      rw [CellGrid.validCoord_setCellTyped] at hvalid hcell
      refine ⟨hvalid, ?_⟩
      rw [List.foldl_cons, hcell]
      by_cases hq : worldPos d.1 = q
      · subst hq
        by_cases hin : g.validCoord (worldPos d.1) = true
        · rw [hjournal, CellGrid.getCell_setCellTyped_self hin (by decide), ite_self, if_pos ⟨hin, d, by simp, rfl⟩]
        · simp [hin, CellGrid.setCellTyped, CellGrid.writeWorldCell]
      · rw [CellGrid.getCell_setCellTyped_of_ne (Ne.symm hq)]
        simp only [List.exists_mem_cons_iff, hq, false_or]

/-! ### What a completion does -/

/-- Nothing but the message of the completion is gone. -/
def Ignored (t u : BuildingWorld) : Prop := u = { t with completions := t.completions.tail }

/-- The building is as it was before its deletion was requested, and nothing else has changed. -/
structure Restored (t u : BuildingWorld) (entity : EntityId) (a : Admission) : Prop where
  same : a.entity = entity
  state : u = { t with
    toBuildingIndex := t.toBuildingIndex.setEntity entity (some a.building)
    completions := t.completions.tail }
  registered : a.building.flags = some true → a.registered = true → entity ∈ u.dirtyBuildings

/-- The building is gone with its cells, its places in the indexes and its row, and with nothing else;
its contents are in a box, and nothing is left that could remove it once more. -/
structure Removed (cells : BuildingCells) (t u : BuildingWorld) (entity : EntityId) (b : BuildingEntity) : Prop where
  entities : u.entities = Function.update t.entities entity none
  byOrigin : u.byOrigin = Function.update t.byOrigin b.view.origin none
  chunk : ∀ c, u.chunkBuildings c = (t.chunkBuildings c).filter (· ≠ entity)
  cell : ∀ q, u.grid.getCell q =
    if t.grid.validCoord q = true ∧ b.boxWrite.isSome ∧ worldPos b.view.origin = q then boxCell
    else if t.grid.validCoord q = true ∧ ∃ d ∈ footprint cells b.view, worldPos d.1 = q then emptyCell
    else t.grid.getCell q
  boxes : u.boxes = applyBoxWrite t.boxes b.boxWrite
  atOrigin : ∀ write ∈ b.boxWrite, write.pos = b.view.origin
  rows : u.rows = t.rows ∧ b.identity ∉ u.rowIds
  once : ∀ request ∈ u.inFlight, request.view.identity ≠ b.identity

/-- The handling of one completion. -/
structure Handled (cells : BuildingCells) (t u : BuildingWorld) (request : BuildingDeleteRequest)
    (result : BuildingDeleteResult) : Prop where
  stale : t.currentPendingDelete request = none → Ignored t u
  rejected : result ≠ .deleted → ∀ entity b pending, t.currentPendingDelete request = some (entity, b, pending) →
    ∃ a, t.admitted request.operationId = some a ∧ Restored t u entity a
  deleted : result = .deleted → ∀ entity b pending, t.currentPendingDelete request = some (entity, b, pending) →
    Removed cells t u entity b

theorem boxWrite_pos {write : BoxWrite} (h : b.boxWrite = some write) : write.pos = b.view.origin := by
  unfold BuildingEntity.boxWrite destroyBoxWrite at h
  split at h
  case h_1 =>
    split at h
    · obtain rfl := Option.some_inj.mp h
      rfl
    · cases h
  case h_2 =>
    obtain ⟨crystals, -, rfl⟩ := Option.map_eq_some_iff.mp h
    rfl
  case h_3 => cases h

theorem rejected_deleting (hflags : b.flags.isSome) (hpending : b.pending = none) (operationId : OperationId) :
    { b.deleting operationId with pending := none, flags := some (b.flags.getD false) } = b := by
  obtain ⟨view, storage, flags, pending⟩ := b
  obtain ⟨dirty, rfl⟩ := Option.isSome_iff_exists.mp hflags
  obtain rfl : pending = none := hpending
  rfl

theorem DeleteInv.restored {pending : BuildingDeletePending} (hs : t.DeleteInv)
    (hcompletions : t.completions = (request, result) :: completions)
    (h : t.currentPendingDelete request = some (entity, b, pending)) :
    ∃ a, t.admitted request.operationId = some a ∧
      Restored t (rejectDelete { t with completions := completions } entity b pending) entity a := by
  have hrequest : request ∈ t.inFlight := (inFlight_cons hcompletions).mem_iff.mpr List.mem_cons_self
  obtain ⟨a, ha, rfl, rfl⟩ := hs.current hrequest h
  obtain ⟨-, -, hpending, -, -⟩ := currentPendingDelete_eq_some.mp h
  obtain rfl := Option.some_inj.mp hpending
  refine ⟨a, ha.admitted, rfl, ?_, ha.registered⟩
  rw [rejectDelete, rejected_deleting ha.flags ha.pending, hcompletions]
  rfl

theorem DeleteInv.removes (cells : BuildingCells) (defs : CellDefs) (hs : t.DeleteInv) (hcompletions : t.completions = (request, .deleted) :: completions)
    (hjournal : ∀ p, journal p = true) (hbox : boxOk = true) (ha : t.Owns request a)
    (hat : t.byOrigin request.view.origin = some a.entity) :
    ∃ u, applyDeleted cells defs { t with completions := completions } request a.entity journal boxOk = some u ∧
      u.DeleteInv ∧ Removed cells t u a.entity (a.building.deleting request.operationId) := by
  obtain ⟨index, hindex⟩ : ∃ index, t.toBuildingIndex.removeBuilding request.view a.entity = some index := by
    simp [BuildingIndex.removeBuilding, BuildingIndex.removeBuildingEntityIf, hat]
  have hbuilding : (a.building.deleting request.operationId).view = request.view := ha.view.symm
  have hwrite : (a.building.deleting request.operationId).boxWrite = request.boxWrite := ha.boxWrite.symm
  have hgone : request.view.identity ∉ t.rowIds := hs.stored.gone request (by simp [hcompletions])
  have honce : ∀ request' ∈ inFlight { t with completions := completions },
      request'.view.identity ≠ request.view.identity := by
    intro request' hmem heq
    have hnodup := ((inFlight_cons hcompletions).map _).nodup_iff.mp hs.nodup
    exact (List.nodup_cons.mp hnodup).1 (List.mem_map.mpr ⟨request', hmem, heq⟩)
  have hchunk : ∀ c, index.chunkBuildings c = (t.chunkBuildings c).filter (· ≠ a.entity) := by
    obtain ⟨-, rfl⟩ := BuildingIndex.removeBuilding_eq_some hindex
    intro c
    by_cases hc : c = chunkPos request.view.origin
    · simp [hc]
    · dsimp only
      rw [Function.update_of_ne hc, List.filter_eq_self.mpr]
      intro e he
      rw [decide_eq_true_eq]
      rintro rfl
      obtain ⟨b, hb, hpos⟩ := (hs.sound.chunk c a.entity).mp he
      obtain rfl := Option.some_inj.mp (hb.symm.trans ha.entity)
      exact hc (by rw [← hpos, hbuilding])
  have hentities : index.entities = Function.update t.entities a.entity none ∧
      index.byOrigin = Function.update t.byOrigin request.view.origin none := by
    obtain ⟨-, rfl⟩ := BuildingIndex.removeBuilding_eq_some hindex
    exact ⟨rfl, rfl⟩
  have hclear := getCell_clearBuildingFootprint cells defs request.view hjournal t.grid
  simp only [applyDeleted, hindex, Option.bind_eq_bind, Option.bind_some]
  refine ⟨_, rfl, ?_, ?_⟩
  · exact hs.removed hcompletions ha hindex _ _ _
  · cases hw : request.boxWrite with
    | none =>
        constructor
        case entities => exact hentities.1
        case byOrigin => rw [hbuilding]; exact hentities.2
        case chunk => exact hchunk
        case cell =>
          intro q
          rw [hwrite, hw, hbuilding]
          simpa [applyBox] using (hclear q).2
        case boxes => rw [hwrite, hw]; rfl
        case atOrigin => exact fun _ => boxWrite_pos
        case rows => exact ⟨rfl, by rw [BuildingEntity.identity, hbuilding]; exact hgone⟩
        case once => rw [BuildingEntity.identity, hbuilding]; exact honce
    | some write =>
        have hpos : write.pos = request.view.origin := by
          rw [← hbuilding]
          exact boxWrite_pos (hwrite.trans hw)
        constructor
        case entities => exact hentities.1
        case byOrigin => rw [hbuilding]; exact hentities.2
        case chunk => exact hchunk
        case cell =>
          intro q
          rw [hwrite, hw, hbuilding]
          show ((clearBuildingFootprint cells defs request.view journal t.grid).setCellTyped defs
            (worldPos write.pos) boxCell boxOk).getCell q = _
          rw [hpos, hbox]
          obtain ⟨hvalid, hcell⟩ := hclear q
          by_cases hq : worldPos request.view.origin = q
          · subst hq
            by_cases hin : t.grid.validCoord (worldPos request.view.origin) = true
            · rw [CellGrid.getCell_setCellTyped_self (hvalid.trans hin) (by decide), if_pos ⟨hin, rfl, rfl⟩]
            · simp [hin, hvalid, hcell, CellGrid.setCellTyped, CellGrid.writeWorldCell]
          · rw [CellGrid.getCell_setCellTyped_of_ne (Ne.symm hq), hcell]
            simp [hq]
        case boxes => rw [hwrite, hw]; rfl
        case atOrigin => exact fun _ => boxWrite_pos
        case rows => exact ⟨rfl, by rw [BuildingEntity.identity, hbuilding]; exact hgone⟩
        case once => rw [BuildingEntity.identity, hbuilding]; exact honce

theorem DeleteInv.handled (hs : t.DeleteInv) (hfair : t.Fair (.complete journal boxOk))
    (hcompletions : t.completions = (request, result) :: completions)
    (hu : applyCompletion cells defs { t with completions := completions } request result journal boxOk = u) :
    u.DeleteInv ∧ Handled cells t u request result := by
  have hcurrent : currentPendingDelete { t with completions := completions } request =
      t.currentPendingDelete request := rfl
  rw [applyCompletion, hcurrent] at hu
  cases hc : t.currentPendingDelete request with
  | none =>
      rw [hc] at hu
      obtain rfl := hu
      refine ⟨hs.stale hcompletions, fun _ => ?_, by simp [hc], by simp [hc]⟩
      rw [Ignored, hcompletions]
      rfl
  | some found =>
      obtain ⟨entity, b, pending⟩ := found
      rw [hc] at hu
      have hreject (hne : result ≠ .deleted)
          (hu : rejectDelete { t with completions := completions } entity b pending = u) :
          u.DeleteInv ∧ Handled cells t u request result := by
        subst hu
        refine ⟨hs.reject hcompletions hne hc, by simp [hc], fun _ e c p hfound => ?_, fun h => absurd h hne⟩
        obtain ⟨rfl, rfl, rfl⟩ : entity = e ∧ b = c ∧ pending = p := by simpa [hc] using hfound
        exact hs.restored hcompletions hc
      cases result with
      | identityMismatch => exact hreject nofun hu
      | permanentFailure => exact hreject nofun hu
      | deleted =>
          have hrequest : request ∈ t.inFlight := (inFlight_cons hcompletions).mem_iff.mpr List.mem_cons_self
          obtain ⟨a, ha, rfl, rfl⟩ := hs.current hrequest hc
          obtain ⟨hat, -, -, -, -⟩ := currentPendingDelete_eq_some.mp hc
          obtain ⟨v, hv, hinv, hremoved⟩ :=
            hs.removes cells defs hcompletions hfair.1 hfair.2 ha hat
          dsimp only at hu
          rw [hv, Option.getD_some] at hu
          subst hu
          refine ⟨hinv, by simp [hc], fun h => absurd rfl h, fun _ e c p hfound => ?_⟩
          obtain ⟨rfl, rfl, rfl⟩ : a.entity = e ∧ a.building.deleting request.operationId = c ∧ pending = p := by
            simpa [hc] using hfound
          exact hremoved

/-! ### What the other steps keep -/

/-- Every building is there, and so is every row. -/
structure Keeps (t u : BuildingWorld) : Prop where
  identities : ∀ e i, t.identities e = some i → u.identities e = some i
  rowIds : ∀ i ∈ t.rowIds, i ∈ u.rowIds

theorem Keeps.trans {v : BuildingWorld} (h : Keeps t u) (h' : Keeps u v) : Keeps t v :=
  ⟨fun e i hi => h'.identities e i (h.identities e i hi), fun i hi => h'.rowIds i (h.rowIds i hi)⟩

theorem Keeps.of_update (hb : t.entities entity = some b) (b' : BuildingEntity) (hid : b'.identity = b.identity)
    (hentities : u.entities = Function.update t.entities entity (some b')) (hrows : u.rows = t.rows) : Keeps t u where
  identities e i hi := by
    rw [BuildingWorld.identities, hentities, identities_update hb hid]
    exact hi
  rowIds i hi := by
    rw [BuildingWorld.rowIds, hrows]
    exact hi

theorem keeps_flushOne : Keeps t (t.flushOne entity) := by
  unfold flushOne
  dsimp only
  split
  case h_1 => exact ⟨fun _ _ => id, fun _ => id⟩
  case h_2 b hb =>
    split
    case isFalse => exact ⟨fun _ _ => id, fun _ => id⟩
    case isTrue =>
      split
      case h_1 => exact ⟨fun _ _ => id, fun _ => id⟩
      case h_2 => exact Keeps.of_update hb { b with flags := some false } rfl rfl rfl

theorem keeps_foldl_flushOne (taken : List EntityId) : Keeps t (taken.foldl flushOne t) := by
  induction taken generalizing t with
  | nil => exact ⟨fun _ _ => id, fun _ => id⟩
  | cons entity taken ih => exact keeps_flushOne.trans ih

theorem keeps_remove {pack : RemovePack} {roll : Nat} : Keeps t (t.applyRemovePack cells pack roll) := by
  rw [applyRemovePack]
  cases hadm : t.admitDelete cells pack roll with
  | error error => exact ⟨fun _ _ => id, fun _ => id⟩
  | ok v =>
      obtain ⟨entity, b, -, hb, -, -, rfl⟩ := admitDelete_eq_ok hadm
      exact Keeps.of_update hb (b.deleting t.nextOperation) rfl rfl rfl

theorem DeleteInv.keeps_spawn (hs : t.DeleteInv) (h : t.spawn = some u) : Keeps t u := by
  unfold BuildingWorld.spawn at h
  split at h
  case h_1 => cases h
  case h_2 row inserted hinserted =>
    obtain rfl := Option.some_inj.mp h
    refine ⟨fun e i hi => ?_, fun _ => id⟩
    rw [BuildingWorld.identities, entities_spawn, if_neg]
    · exact hi
    · rintro rfl
      rw [BuildingWorld.identities, hs.sound.fresh _ le_rfl] at hi
      cases hi

/-! ### Runs -/

/-- What the worker does with a request: the row goes, alone and once, unless it fails. -/
structure Persisted (t u : BuildingWorld) (request : BuildingDeleteRequest) (failed : Bool) : Prop where
  onFailure : failed = true → u.rows = t.rows ∧ u.boxRows = t.boxRows ∧
    u.completions = t.completions ++ [(request, .permanentFailure)]
  onSuccess : failed = false → request.view.identity ∈ t.rowIds ∧ t.rowIds.Nodup ∧
    u.rows = t.rows.filter (fun row => ¬ row.matching request) ∧
    u.boxRows = applyBoxWrite t.boxRows request.boxWrite ∧
    u.completions = t.completions ++ [(request, .deleted)]

/-- What each step may do to the buildings and their rows. -/
def Conforms (cells : BuildingCells) (t u : BuildingWorld) : BuildingEvent → Prop
  | .complete _ _ => ∃ request result, t.completions.head? = some (request, result) ∧ Handled cells t u request result
  | .persist failed =>
      u.entities = t.entities ∧ ∀ request, t.queue.head? = some (.delete request) → Persisted t u request failed
  | _ => Keeps t u

theorem DeleteInv.persisted {failed : Bool} (hs : t.DeleteInv) (h : t.persist failed = some u) :
    u.entities = t.entities ∧ ∀ request, t.queue.head? = some (.delete request) → Persisted t u request failed := by
  unfold BuildingWorld.persist at h
  split at h
  case h_1 => cases h
  case h_2 row queue hqueue =>
    obtain rfl := Option.some_inj.mp h
    exact ⟨rfl, by simp [hqueue]⟩
  case h_3 request queue hqueue =>
    have hrequest {request' : BuildingDeleteRequest} (h : t.queue.head? = some (.delete request')) :
        request = request' := by
      simpa [hqueue] using h
    split at h
    case isTrue hfailed =>
      obtain rfl := Option.some_inj.mp h
      refine ⟨rfl, fun request' h => ?_⟩
      obtain rfl := hrequest h
      exact ⟨fun _ => ⟨rfl, rfl, rfl⟩, fun h => absurd hfailed (by simp [h])⟩
    case isFalse hfailed =>
      obtain rfl := Option.some_inj.mp h
      refine ⟨rfl, fun request' h => ?_⟩
      obtain rfl := hrequest h
      have hstored := hs.stored.queued request (by simp [hqueue])
      have hcount := countP_matching hs.recorded.rowsNodup hstored
      refine ⟨fun h => absurd h hfailed, fun _ => ⟨hstored, hs.recorded.rowsNodup, ?_⟩⟩
      simp [applyBuildingDelete, hcount]

theorem DeleteInv.step {e : BuildingEvent} (hs : t.DeleteInv) (hfair : t.Fair e) (h : step cells defs t e = some u) :
    u.DeleteInv ∧ Conforms cells t u e := by
  cases e with
  | remove pack roll =>
      obtain rfl := Option.some_inj.mp h
      exact ⟨hs.remove, keeps_remove⟩
  | change entity b' registered saved =>
      refine ⟨hs.change h, ?_⟩
      simp only [BuildingWorld.step, BuildingWorld.change, Option.bind_eq_bind, Option.bind_eq_some_iff,
        Option.guard_eq_some', exists_const, Option.some.injEq] at h
      obtain ⟨b, hb, ⟨-, -, -, hid⟩, rfl⟩ := h
      exact Keeps.of_update hb b' hid rfl rfl
  | sellAll p earned =>
      refine ⟨hs.sellAll hfair h, ?_⟩
      simp only [BuildingWorld.step, BuildingWorld.sellAll, Option.bind_eq_bind, Option.bind_eq_some_iff,
        Option.some.injEq, Prod.exists] at h
      obtain ⟨entity, b, hat, rfl⟩ := h
      exact Keeps.of_update (BuildingIndex.buildingEntityAt_eq_some.mp hat).2 { b with
        storage := b.storage.map (fun storage => { storage with money := storage.money + earned / 10 })
        flags := b.flags.map (fun _ => true) } rfl rfl rfl
  | flush taken =>
      refine ⟨hs.flush hfair h, ?_⟩
      simp only [BuildingWorld.step, BuildingWorld.flush] at h
      split at h
      case isTrue =>
        obtain rfl := Option.some_inj.mp h
        exact keeps_foldl_flushOne taken
      case isFalse => cases h
  | persist failed => exact ⟨hs.persist h, hs.persisted h⟩
  | complete journal boxOk =>
      simp only [BuildingWorld.step, BuildingWorld.complete] at h
      split at h
      case h_1 => cases h
      case h_2 request result completions hcompletions =>
        obtain ⟨hinv, hhandled⟩ := hs.handled hfair hcompletions (Option.some_inj.mp h)
        exact ⟨hinv, request, result, by rw [hcompletions, List.head?_cons], hhandled⟩
  | insertRow row =>
      refine ⟨hs.insertRow h, ?_⟩
      simp only [BuildingWorld.step, BuildingWorld.insertRow] at h
      split at h
      case isTrue => cases h
      case isFalse =>
        obtain rfl := Option.some_inj.mp h
        exact ⟨fun _ _ => id, fun i hi => by simpa [BuildingWorld.rowIds] using .inl (by simpa [BuildingWorld.rowIds] using hi)⟩
  | spawn => exact ⟨hs.spawn h, hs.keeps_spawn h⟩
  | players sessions players =>
      obtain rfl := Option.some_inj.mp h
      refine ⟨⟨hs.sound, hs.recorded.congr (fun _ => rfl) rfl rfl rfl fun _ => Or.inl, ?_, ?_⟩, fun _ _ => id, fun _ => id⟩
      · exact hs.tracked.congr (.refl _) le_rfl fun request _ a ha => ha.congr rfl rfl fun _ => id
      · exact ⟨hs.stored.free, hs.stored.inserted, hs.stored.queued, hs.stored.failed, hs.stored.gone⟩

/-- In every run from the buildings as they were loaded, a building has one pending deletion at most,
and every step, also the next, conforms. -/
theorem deletes_exactly {es : List BuildingEvent} {e : BuildingEvent} (hs : s.Start)
    (hfair : Meets (BuildingWorld.step cells defs) Fair s (es ++ [e]))
    (ht : run (BuildingWorld.step cells defs) s es = some t) (hu : BuildingWorld.step cells defs t e = some u) :
    (t.inFlight.map (fun request => request.view.identity)).Nodup ∧ Conforms cells t u e := by
  obtain ⟨hmeets, hlast⟩ := meets_concat hfair ht
  have hinv : t.DeleteInv :=
    run_preserves_of_meets hs.deleteInv hmeets (fun f v w hv hcond hstep => (hv.step hcond hstep).1) ht
  exact ⟨hinv.nodup, (hinv.step hlast hu).2⟩

/-- A world without buildings. -/
def newWorld : BuildingWorld where
  entities := fun _ => none
  byOrigin := fun _ => none
  chunkBuildings := fun _ => []
  nextEntity := 0
  grid := ⟨64, 64, fun _ => 0, fun _ => emptyCell, fun _ => 0⟩
  boxes := fun _ => none
  sessions := fun _ => none
  players := fun _ => none
  dirtyBuildings := []
  rows := []
  boxRows := fun _ => none
  queue := []
  completions := []
  inserted := []
  nextOperation := 0
  usedIds := []
  admitted := fun _ => none

theorem newWorld_start : newWorld.Start where
  sound := ⟨fun _ _ => rfl, nofun, by simp [newWorld], fun _ => List.nodup_nil⟩
  used := List.nodup_nil
  rows := nofun
  rowsNodup := List.nodup_nil
  entity := nofun
  unique := nofun
  queue := rfl
  completions := rfl
  inserted := rfl

/-- A teleport of player 1 with a charge of 5. -/
def teleportRow : BuildingRow := ⟨⟨7, .teleport, 10, 10, 1, 0, 5, 100, 90, 100⟩, ⟨0, fun _ => 0⟩⟩

def destroyTeleport : RemovePack := ⟨(10, 10), .damage none⟩

theorem deletes_exactly_teleport : ∃ t u,
    run (BuildingWorld.step GuiState.teleportCells CellDefs.cellsJson) newWorld
      [.insertRow teleportRow, .spawn, .remove destroyTeleport 50, .persist false] = some t ∧
    BuildingWorld.step GuiState.teleportCells CellDefs.cellsJson t (.complete (fun _ => true) true) = some u ∧
    (t.inFlight.map (fun request => request.view.identity)).Nodup ∧
    Conforms GuiState.teleportCells t u (.complete (fun _ => true) true) ∧ u.boxes (10, 10) = some ![0, 0, 0, 0, 5, 0] := by
  have hfair : Meets (BuildingWorld.step GuiState.teleportCells CellDefs.cellsJson) Fair newWorld
      ([.insertRow teleportRow, .spawn, .remove destroyTeleport 50, .persist false] ++
        [.complete (fun _ => true) true]) :=
    ⟨trivial, fun _ _ => ⟨trivial, fun _ _ => ⟨trivial, fun _ _ => ⟨trivial, fun _ _ =>
      ⟨⟨fun _ => rfl, rfl⟩, fun _ _ => trivial⟩⟩⟩⟩⟩
  exact ⟨_, _, rfl, rfl, and_assoc.mp ⟨deletes_exactly newWorld_start hfair rfl rfl, rfl⟩⟩

/-- The snapshot round takes the registration of a building whose deletion is pending; when the
deletion fails, the mark is back and the registration is not. -/
theorem rejected_unregistered : ∃ t u,
    run (BuildingWorld.step GuiState.teleportCells CellDefs.cellsJson) newWorld
      [.insertRow teleportRow, .spawn,
        .change 0 ⟨{ teleportRow.view with hp := 60 }, some teleportRow.storage, some true, none⟩ true false,
        .remove destroyTeleport 50, .flush [0], .persist true] = some t ∧
    BuildingWorld.step GuiState.teleportCells CellDefs.cellsJson t (.complete (fun _ => true) true) = some u ∧
    (u.entities 0).bind BuildingEntity.flags = some true ∧ u.dirtyBuildings = [] ∧
    ¬ Conforms GuiState.teleportCells t u (.complete (fun _ => true) true) := by
  refine ⟨_, _, rfl, rfl, rfl, rfl, ?_⟩
  rintro ⟨request, result, hhead, hhandled⟩
  obtain ⟨rfl, rfl⟩ := Prod.mk.inj (Option.some_inj.mp hhead)
  obtain ⟨a, ha, hrestored⟩ := hhandled.rejected nofun _ _ _ rfl
  obtain rfl := Option.some_inj.mp ha
  exact absurd (hrestored.registered rfl rfl) (List.not_mem_nil : (0 : EntityId) ∉ [])

end BuildingWorld

end OpenMines

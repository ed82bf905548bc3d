import OpenMines.BuildingDelete

namespace OpenMines

open Lib.Run

def BuildingSave.request : BuildingSave → Option BuildingDeleteRequest
  | .building _ => none
  | .delete request => some request

/-- The building while its deletion is pending. -/
def BuildingEntity.deleting (b : BuildingEntity) (operationId : OperationId) : BuildingEntity :=
  { b with flags := none, pending := some ⟨operationId, b.flags.getD false⟩ }

namespace BuildingWorld

section Invariants

variable (s : BuildingWorld)

def identities (entity : EntityId) : Option (Int32 × WorldPos) := (s.entities entity).map BuildingEntity.identity

def rowIds : List (Int32 × WorldPos) := s.rows.map (fun row => row.view.identity)

/-- The requests that are not completed yet. -/
def inFlight : List BuildingDeleteRequest := s.queue.filterMap BuildingSave.request ++ s.completions.map Prod.fst

/-- No two buildings have ever had one id. -/
structure Recorded : Prop where
  used : (s.usedIds.map Prod.fst).Nodup
  entity : ∀ e i, s.identities e = some i → i ∈ s.usedIds
  unique : ∀ e e' i, s.identities e = some i → s.identities e' = some i → e = e'
  inserted : ∀ row ∈ s.inserted, row.view.identity ∈ s.usedIds
  insertedNodup : (s.inserted.map (fun row => row.view.identity)).Nodup
  unspawned : ∀ row ∈ s.inserted, ∀ e, s.identities e ≠ some row.view.identity
  rows : ∀ i ∈ s.rowIds, i ∈ s.usedIds
  rowsNodup : s.rowIds.Nodup
  queue : ∀ row, .building row ∈ s.queue → row.view.identity ∈ s.usedIds

/-- The request is about the building as it was admitted, and the building has waited since. -/
structure Owns (request : BuildingDeleteRequest) (a : Admission) : Prop where
  admitted : s.admitted request.operationId = some a
  entity : s.entities a.entity = some (a.building.deleting request.operationId)
  flags : a.building.flags.isSome
  pending : a.building.pending = none
  view : request.view = a.building.view
  boxWrite : request.boxWrite = a.building.boxWrite
  registered : a.building.flags = some true → a.registered = true → a.entity ∈ s.dirtyBuildings

structure Tracked : Prop where
  operations : (s.inFlight.map BuildingDeleteRequest.operationId).Nodup
  operationsLt : ∀ request ∈ s.inFlight, request.operationId < s.nextOperation
  owned : ∀ request ∈ s.inFlight, ∃ a, s.Owns request a

/-- The rows that are there, and those that are not. -/
structure Stored : Prop where
  free : ∀ e b, s.entities e = some b → b.pending = none → b.identity ∈ s.rowIds
  inserted : ∀ row ∈ s.inserted, row.view.identity ∈ s.rowIds
  queued : ∀ request, .delete request ∈ s.queue → request.view.identity ∈ s.rowIds
  failed : ∀ request result, (request, result) ∈ s.completions → result ≠ .deleted →
    request.view.identity ∈ s.rowIds
  gone : ∀ request, (request, .deleted) ∈ s.completions → request.view.identity ∉ s.rowIds

structure DeleteInv : Prop where
  sound : s.toBuildingIndex.Sound
  recorded : s.Recorded
  tracked : s.Tracked
  stored : s.Stored

/-- The buildings as they are loaded from their rows. -/
structure Start : Prop where
  sound : s.toBuildingIndex.Sound
  used : (s.usedIds.map Prod.fst).Nodup
  rows : ∀ i ∈ s.rowIds, i ∈ s.usedIds
  rowsNodup : s.rowIds.Nodup
  entity : ∀ e b, s.entities e = some b → b.pending = none ∧ b.identity ∈ s.rowIds
  unique : ∀ e e' i, s.identities e = some i → s.identities e' = some i → e = e'
  queue : s.queue = []
  completions : s.completions = []
  inserted : s.inserted = []

end Invariants

variable {s t : BuildingWorld} {entity : EntityId} {b b' : BuildingEntity} {request : BuildingDeleteRequest}
  {a : Admission}

theorem Start.deleteInv (hs : s.Start) : s.DeleteInv where
  sound := hs.sound
  recorded :=
    { used := hs.used
      entity := by
        intro e i hi
        obtain ⟨b, hb, rfl⟩ := Option.map_eq_some_iff.mp hi
        exact hs.rows _ (hs.entity e b hb).2
      unique := hs.unique
      inserted := by simp [hs.inserted]
      insertedNodup := by simp [hs.inserted]
      unspawned := by simp [hs.inserted]
      rows := hs.rows
      rowsNodup := hs.rowsNodup
      queue := by simp [hs.queue] }
  tracked := by constructor <;> simp [inFlight, hs.queue, hs.completions]
  stored :=
    { free := fun e b hb _ => (hs.entity e b hb).2
      inserted := by simp [hs.inserted]
      queued := by simp [hs.queue]
      failed := by simp [hs.completions]
      gone := by simp [hs.completions] }

/-! ### Buildings that keep their identities -/

theorem identities_update (hb : s.entities entity = some b) (hid : b'.identity = b.identity) (e : EntityId) :
    (Function.update s.entities entity (some b') e).map BuildingEntity.identity = s.identities e := by
  rw [identities]
  by_cases he : e = entity
  · subst he
    simp [hb, hid]
  · rw [Function.update_of_ne he]

theorem Recorded.congr (hs : s.Recorded) (hid : ∀ e, t.identities e = s.identities e) (hused : t.usedIds = s.usedIds)
    (hinserted : t.inserted = s.inserted) (hrows : t.rowIds = s.rowIds)
    (hqueue : ∀ row, .building row ∈ t.queue → .building row ∈ s.queue ∨ row.view.identity ∈ s.usedIds) :
    t.Recorded where
  used := by rw [hused]; exact hs.used
  entity e i hi := by
    rw [hused]
    exact hs.entity e i ((hid e).symm.trans hi)
  unique e e' i hi hi' := hs.unique e e' i ((hid e).symm.trans hi) ((hid e').symm.trans hi')
  inserted := by rw [hused, hinserted]; exact hs.inserted
  insertedNodup := by rw [hinserted]; exact hs.insertedNodup
  unspawned row hrow e := by
    rw [hid]
    exact hs.unspawned row (hinserted ▸ hrow) e
  rows := by rw [hused, hrows]; exact hs.rows
  rowsNodup := by rw [hrows]; exact hs.rowsNodup
  queue row hrow := by
    rw [hused]
    exact (hqueue row hrow).elim (hs.queue row) id

theorem Owns.congr (h : s.Owns request a) (hadmitted : t.admitted request.operationId = s.admitted request.operationId)
    (hentity : t.entities a.entity = s.entities a.entity)
    (hdirty : a.building.flags = some true → a.entity ∈ s.dirtyBuildings → a.entity ∈ t.dirtyBuildings) :
    t.Owns request a where
  admitted := hadmitted.trans h.admitted
  entity := hentity.trans h.entity
  flags := h.flags
  pending := h.pending
  view := h.view
  boxWrite := h.boxWrite
  registered hflags hregistered := hdirty hflags (h.registered hflags hregistered)

theorem Owns.identity (h : s.Owns request a) : s.identities a.entity = some request.view.identity := by
  rw [identities, h.entity, h.view]
  rfl

theorem Tracked.congr (hs : s.Tracked) (hflight : t.inFlight.Perm s.inFlight)
    (hnext : s.nextOperation ≤ t.nextOperation)
    (howns : ∀ request ∈ s.inFlight, ∀ a, s.Owns request a → t.Owns request a) : t.Tracked where
  operations := (hflight.map _).nodup_iff.mpr hs.operations
  operationsLt request h := Nat.lt_of_lt_of_le (hs.operationsLt request (hflight.mem_iff.mp h)) hnext
  owned request h := by
    obtain ⟨a, ha⟩ := hs.owned request (hflight.mem_iff.mp h)
    exact ⟨a, howns request (hflight.mem_iff.mp h) a ha⟩

/-- An id is in one request at most. -/
theorem DeleteInv.nodup (hs : s.DeleteInv) : (s.inFlight.map (fun request => request.view.identity)).Nodup := by
  refine List.Nodup.map_on ?_ hs.tracked.operations.of_map
  intro r hr r' hr' heq
  obtain ⟨a, ha⟩ := hs.tracked.owned r hr
  obtain ⟨a', ha'⟩ := hs.tracked.owned r' hr'
  have hentity : a.entity = a'.entity :=
    hs.recorded.unique _ _ _ ha.identity (by rw [ha'.identity, heq])
  have hsame := ha.entity.symm.trans (hentity ▸ ha'.entity)
  have hoperation : r.operationId = r'.operationId := by
    have hpending := congrArg BuildingEntity.pending (Option.some_inj.mp hsame)
    simp only [BuildingEntity.deleting, Option.some.injEq, BuildingDeletePending.mk.injEq] at hpending
    exact hpending.1
  exact List.inj_on_of_nodup_map hs.tracked.operations hr hr' hoperation

theorem filterMap_request_building (rows : List BuildingRow) :
    (rows.map BuildingSave.building).filterMap BuildingSave.request = [] := by
  rw [List.filterMap_map]
  exact List.filterMap_eq_nil_iff.mpr fun _ _ => rfl

/-- A building that no request is about may change in all but its identity and the mark of its deletion. -/
theorem DeleteInv.update (hs : s.DeleteInv) (hb : s.entities entity = some b) (b' : BuildingEntity)
    (hid : b'.identity = b.identity) (hpending : b'.pending = b.pending) (saves : List BuildingRow)
    (hsaves : ∀ row ∈ saves, row.view.identity = b.identity) (dirty : List EntityId)
    (howned : ∀ request ∈ s.inFlight, ∀ a, s.Owns request a → a.entity ≠ entity ∧
      (a.building.flags = some true → a.entity ∈ s.dirtyBuildings → a.entity ∈ dirty)) :
    DeleteInv { s with
      toBuildingIndex := s.toBuildingIndex.setEntity entity (some b')
      dirtyBuildings := dirty
      queue := s.queue ++ saves.map .building } where
  sound := hs.sound.setEntity hb (congrArg Prod.snd hid)
  recorded := by
    refine hs.recorded.congr (identities_update hb hid) rfl rfl rfl ?_
    intro row hrow
    simp only [List.mem_append, List.mem_map, BuildingSave.building.injEq, exists_eq_right] at hrow
    refine hrow.imp_right fun h => ?_
    rw [hsaves row h]
    exact hs.recorded.entity entity _ (by simp [identities, hb])
  tracked := by
    refine hs.tracked.congr (List.Perm.of_eq ?_) le_rfl ?_
    · rw [inFlight, inFlight, List.filterMap_append, filterMap_request_building, List.append_nil]
    · intro request hrequest a ha
      obtain ⟨hne, hdirty⟩ := howned request hrequest a ha
      exact ha.congr rfl (Function.update_of_ne hne _ _) hdirty
  stored :=
    { free := by
        intro e c hc hfree
        by_cases he : e = entity
        · subst he
          obtain rfl : b' = c := by simpa [BuildingIndex.setEntity] using hc
          rw [hid]
          exact hs.stored.free e b hb (hpending.symm.trans hfree)
        · exact hs.stored.free e c (by simpa [BuildingIndex.setEntity, he] using hc) hfree
      inserted := hs.stored.inserted
      queued := fun request hrequest => hs.stored.queued request (by simpa using hrequest)
      failed := hs.stored.failed
      gone := hs.stored.gone }

theorem Owns.entity_ne (h : s.Owns request a) (hb : s.entities entity = some b) (hflags : b.flags.isSome) :
    a.entity ≠ entity := by
  rintro rfl
  obtain rfl := Option.some_inj.mp (hb.symm.trans h.entity)
  simp [BuildingEntity.deleting] at hflags

theorem extractBuildingRow_identity {row : BuildingRow} (h : extractBuildingRow b = some row) :
    row.view.identity = b.identity := by
  obtain ⟨storage, -, rfl⟩ := Option.map_eq_some_iff.mp h
  rfl

theorem DeleteInv.change {registered saved : Bool} (hs : s.DeleteInv)
    (h : s.change entity b' registered saved = some t) : t.DeleteInv := by
  simp only [BuildingWorld.change, Option.bind_eq_bind, Option.bind_eq_some_iff, Option.guard_eq_some', exists_const,
    Option.some.injEq] at h
  obtain ⟨b, hb, ⟨hflags, -, hpending, hid⟩, rfl⟩ := h
  have hinv := hs.update hb b' hid hpending (if saved then (extractBuildingRow b').toList else []) ?_
    (if registered then s.dirtyBuildings.insert entity else s.dirtyBuildings) ?_
  · cases saved with
    | true => exact hinv
    | false => exact hinv
  · intro row hrow
    cases saved with
    | true => exact (extractBuildingRow_identity (by simpa using hrow)).trans hid
    | false => simp at hrow
  · intro request _ a ha
    refine ⟨ha.entity_ne hb hflags, fun _ hmem => ?_⟩
    cases registered with
    | true => exact List.mem_insert_of_mem hmem
    | false => exact hmem

/-! ### Steps -/

/-- The steps that leave a pending building as it is, with its registration, and every write of a
removal reaches the journal. -/
def Fair (s : BuildingWorld) : BuildingEvent → Prop
  | .sellAll p _ => ∀ entity b, s.buildingEntityAt p = some (entity, b) → b.pending = none
  | .flush taken => ∀ entity ∈ taken, ∀ b, s.entities entity = some b → ∀ pending, b.pending = some pending →
      pending.dirtyBefore = false
  | .complete journal boxOk => (∀ p, journal p = true) ∧ boxOk = true
  | _ => True

theorem DeleteInv.sellAll {p : WorldPos} {earned : Int} (hs : s.DeleteInv) (hfair : s.Fair (.sellAll p earned))
    (h : s.sellAll p earned = some t) : t.DeleteInv := by
  simp only [BuildingWorld.sellAll, Option.bind_eq_bind, Option.bind_eq_some_iff, Option.some.injEq,
    Prod.exists] at h
  obtain ⟨entity, b, hat, rfl⟩ := h
  have hb := (BuildingIndex.buildingEntityAt_eq_some.mp hat).2
  have hfree : b.pending = none := hfair entity b hat
  have hinv := hs.update hb { b with
      storage := b.storage.map (fun storage => { storage with money := storage.money + earned / 10 })
      flags := b.flags.map (fun _ => true) } rfl rfl [] (by simp)
    (if b.flags.isSome then s.dirtyBuildings.insert entity else s.dirtyBuildings) ?_
  · simpa using hinv
  · intro request _ a ha
    refine ⟨?_, fun _ hmem => ?_⟩
    · rintro rfl
      obtain rfl := Option.some_inj.mp (hb.symm.trans ha.entity)
      cases hfree
    · split
      · exact List.mem_insert_of_mem hmem
      · exact hmem

theorem DeleteInv.registrations (hs : s.DeleteInv) (dirty : List EntityId)
    (howned : ∀ request ∈ s.inFlight, ∀ a, s.Owns request a → a.building.flags = some true →
      a.entity ∈ s.dirtyBuildings → a.entity ∈ dirty) : DeleteInv { s with dirtyBuildings := dirty } where
  sound := hs.sound
  recorded := hs.recorded.congr (fun _ => rfl) rfl rfl rfl fun _ => Or.inl
  tracked := hs.tracked.congr (.refl _) le_rfl fun request hrequest a ha => ha.congr rfl rfl (howned request hrequest a ha)
  stored := ⟨hs.stored.free, hs.stored.inserted, hs.stored.queued, hs.stored.failed, hs.stored.gone⟩

/-- The snapshot round finds no mark of its own on the building. -/
def Flushable (s : BuildingWorld) (entity : EntityId) : Prop :=
  ∀ b, s.entities entity = some b → ∀ pending, b.pending = some pending → pending.dirtyBefore = false

theorem Owns.flushable_ne (h : s.Owns request a) (hflush : s.Flushable entity)
    (hflags : a.building.flags = some true) : a.entity ≠ entity := by
  rintro rfl
  have hfalse := hflush _ h.entity _ rfl
  simp [hflags] at hfalse

theorem DeleteInv.flushOne (hs : s.DeleteInv) (hflush : s.Flushable entity) : (s.flushOne entity).DeleteInv := by
  have hkept : ∀ request ∈ s.inFlight, ∀ a, s.Owns request a → a.building.flags = some true →
      a.entity ∈ s.dirtyBuildings → a.entity ∈ s.dirtyBuildings.filter (· ≠ entity) := by
    intro request _ a ha hflags hmem
    simpa using ⟨hmem, ha.flushable_ne hflush hflags⟩
  have hdropped := hs.registrations _ hkept
  unfold BuildingWorld.flushOne
  dsimp only
  split
  case h_1 => exact hdropped
  case h_2 b hb =>
    split
    case isFalse => exact hdropped
    case isTrue hflags =>
      split
      case h_1 => exact hdropped
      case h_2 row hrow =>
        refine hs.update hb { b with flags := some false } rfl rfl [row] ?_ _ ?_
        · simpa using extractBuildingRow_identity hrow
        · intro request hrequest a ha
          exact ⟨ha.entity_ne hb (by simp [hflags]), hkept request hrequest a ha⟩

theorem Flushable.flushOne {e : EntityId} (h : s.Flushable e) : (s.flushOne entity).Flushable e := by
  unfold BuildingWorld.flushOne
  dsimp only
  split
  case h_1 => exact h
  case h_2 b hb =>
    split
    case isFalse => exact h
    case isTrue =>
      split
      case h_1 => exact h
      case h_2 =>
        intro c hc
        by_cases he : e = entity
        · subst he
          obtain rfl : { b with flags := some false } = c := by simpa [BuildingIndex.setEntity] using hc
          exact h b hb
        · exact h c (by simpa [BuildingIndex.setEntity, he] using hc)

theorem DeleteInv.foldl_flushOne {taken : List EntityId} (hs : s.DeleteInv)
    (hflush : ∀ entity ∈ taken, s.Flushable entity) : (taken.foldl BuildingWorld.flushOne s).DeleteInv := by
  induction taken generalizing s with
  | nil => exact hs
  | cons entity taken ih =>
      refine ih (hs.flushOne (hflush entity (by simp))) ?_
      intro e he
      exact (hflush e (List.mem_cons_of_mem _ he)).flushOne

theorem DeleteInv.flush {taken : List EntityId} (hs : s.DeleteInv) (hfair : s.Fair (.flush taken))
    (h : s.flush taken = some t) : t.DeleteInv := by
  rw [BuildingWorld.flush] at h
  split at h
  case isTrue =>
    obtain rfl := Option.some_inj.mp h
    exact hs.foldl_flushOne hfair
  case isFalse => cases h

/-! ### The worker -/

theorem Recorded.eq_of_id {i j : Int32 × WorldPos} (hs : s.Recorded) (hi : i ∈ s.usedIds) (hj : j ∈ s.usedIds)
    (h : i.1 = j.1) : i = j :=
  List.inj_on_of_nodup_map hs.used hi hj h

theorem Recorded.saved {row : BuildingRow} (hs : s.Recorded) (hrow : row.view.identity ∈ s.usedIds) :
    (s.rows.map (fun old => if old.view.id = row.view.id then row else old)).map (fun row => row.view.identity) =
      s.rowIds := by
  rw [List.map_map]
  refine List.map_congr_left fun old hold => ?_
  show (if old.view.id = row.view.id then row else old).view.identity = old.view.identity
  split
  case isTrue hid => exact (hs.eq_of_id (hs.rows _ (List.mem_map_of_mem hold)) hrow hid).symm
  case isFalse => rfl

theorem rowIds_filter (rows : List BuildingRow) (request : BuildingDeleteRequest) :
    (rows.filter (fun row => ¬ row.matching request)).map (fun row => row.view.identity) =
      (rows.map (fun row => row.view.identity)).filter (· ≠ request.view.identity) := by
  simp [List.filter_map, Function.comp_def, BuildingRow.matching]

theorem countP_matching {rows : List BuildingRow} (hnodup : (rows.map (fun row => row.view.identity)).Nodup)
    (hmem : request.view.identity ∈ rows.map (fun row => row.view.identity)) :
    rows.countP (BuildingRow.matching request) = 1 := by
  rw [← List.count_eq_one_of_mem hnodup hmem, List.count, List.countP_map]
  exact List.countP_congr fun row _ => by simp [BuildingRow.matching]

/-- The worker finds the row of every request. -/
theorem applyBuildingDelete_deleted (hnodup : s.rowIds.Nodup) (hmem : request.view.identity ∈ s.rowIds) :
    (applyBuildingDelete s.rows s.boxRows request).1 = s.rows.filter (fun row => ¬ row.matching request) ∧
      (applyBuildingDelete s.rows s.boxRows request).2.2 = .deleted := by
  have hcount := countP_matching hnodup hmem
  simp [applyBuildingDelete, hcount]

theorem inFlight_perm {queue : List BuildingSave} (result : BuildingDeleteResult)
    (hqueue : s.queue = .delete request :: queue) :
    (queue.filterMap BuildingSave.request ++ (s.completions ++ [(request, result)]).map Prod.fst).Perm s.inFlight := by
  have hcons : s.inFlight = request :: (queue.filterMap BuildingSave.request ++ s.completions.map Prod.fst) := by
    rw [inFlight, hqueue]
    rfl
  rw [hcons, List.map_append, ← List.append_assoc]
  exact List.perm_append_singleton request _

/-- The buildings of other identities are those that the request is not about. -/
theorem DeleteInv.identity_ne (hs : s.DeleteInv) (hrequest : request ∈ s.inFlight)
    (hb : s.entities entity = some b) (hfree : b.pending = none) : b.identity ≠ request.view.identity := by
  intro heq
  obtain ⟨a, ha⟩ := hs.tracked.owned request hrequest
  have hentity : entity = a.entity :=
    hs.recorded.unique _ _ _ (by rw [identities, hb, Option.map_some, heq]) ha.identity
  subst hentity
  obtain rfl := Option.some_inj.mp (hb.symm.trans ha.entity)
  cases hfree

theorem DeleteInv.otherRequest {queue : List BuildingSave} (hs : s.DeleteInv)
    (hqueue : s.queue = .delete request :: queue) :
    ∀ request' ∈ queue.filterMap BuildingSave.request ++ s.completions.map Prod.fst,
      request'.view.identity ≠ request.view.identity := by
  have hnodup := hs.nodup
  rw [inFlight, hqueue] at hnodup
  exact fun request' hmem heq => (List.nodup_cons.mp hnodup).1 (List.mem_map.mpr ⟨request', hmem, heq⟩)

theorem DeleteInv.saveRow {failed : Bool} {row : BuildingRow} {queue : List BuildingSave} (hs : s.DeleteInv)
    (hqueue : s.queue = .building row :: queue) :
    DeleteInv { s with
      queue := queue
      rows := if failed then s.rows
        else s.rows.map (fun old => if old.view.id = row.view.id then row else old) } := by
  have hrow := hs.recorded.queue row (by simp [hqueue])
  have hids : (if failed then s.rows else
      s.rows.map (fun old => if old.view.id = row.view.id then row else old)).map (fun row => row.view.identity) =
        s.rowIds := by
    cases failed with
    | true => rfl
    | false => exact hs.recorded.saved hrow
  constructor
  case sound => exact hs.sound
  case recorded =>
    exact hs.recorded.congr (fun _ => rfl) rfl rfl hids fun other hother =>
      .inl (by rw [hqueue]; exact List.mem_cons_of_mem _ hother)
  case tracked =>
    refine hs.tracked.congr (.of_eq ?_) le_rfl fun request _ a ha => ha.congr rfl rfl fun _ => id
    rw [inFlight, inFlight, hqueue]
    rfl
  case stored =>
    constructor
    case free =>
      intro e b hb hfree
      rw [rowIds, hids]
      exact hs.stored.free e b hb hfree
    case inserted =>
      rw [rowIds, hids]
      exact hs.stored.inserted
    case queued =>
      rw [rowIds, hids]
      exact fun request hrequest => hs.stored.queued request (by rw [hqueue]; exact List.mem_cons_of_mem _ hrequest)
    case failed =>
      rw [rowIds, hids]
      exact hs.stored.failed
    case gone =>
      rw [rowIds, hids]
      exact hs.stored.gone

theorem DeleteInv.failDelete {queue : List BuildingSave} (hs : s.DeleteInv)
    (hqueue : s.queue = .delete request :: queue) :
    DeleteInv { s with queue := queue, completions := s.completions ++ [(request, .permanentFailure)] } := by
  have hqueued : ∀ save ∈ queue, save ∈ s.queue := fun save hsave => by
    rw [hqueue]
    exact List.mem_cons_of_mem _ hsave
  constructor
  case sound => exact hs.sound
  case recorded => exact hs.recorded.congr (fun _ => rfl) rfl rfl rfl fun row hrow => .inl (hqueued _ hrow)
  case tracked =>
    exact hs.tracked.congr (inFlight_perm _ hqueue) le_rfl fun request _ a ha => ha.congr rfl rfl fun _ => id
  case stored =>
    constructor
    case free => exact hs.stored.free
    case inserted => exact hs.stored.inserted
    case queued => exact fun request hmem => hs.stored.queued request (hqueued _ hmem)
    case failed =>
      intro request' result hmem hne
      rcases List.mem_append.mp hmem with hmem | hmem
      · exact hs.stored.failed request' result hmem hne
      · obtain ⟨rfl, rfl⟩ := Prod.mk.inj (List.mem_singleton.mp hmem)
        exact hs.stored.queued _ (by simp [hqueue])
    case gone =>
      intro request' hmem
      rcases List.mem_append.mp hmem with hmem | hmem
      · exact hs.stored.gone request' hmem
      · cases List.mem_singleton.mp hmem

theorem DeleteInv.deleteRow {queue : List BuildingSave} (hs : s.DeleteInv)
    (hqueue : s.queue = .delete request :: queue) :
    DeleteInv { s with
      queue := queue
      rows := (applyBuildingDelete s.rows s.boxRows request).1
      boxRows := (applyBuildingDelete s.rows s.boxRows request).2.1
      completions := s.completions ++ [(request, (applyBuildingDelete s.rows s.boxRows request).2.2)] } := by
  have hrequest : request ∈ s.inFlight := by simp [inFlight, hqueue, BuildingSave.request]
  have hqueued : ∀ save ∈ queue, save ∈ s.queue := fun save hsave => by
    rw [hqueue]
    exact List.mem_cons_of_mem _ hsave
  obtain ⟨hrows, hresult⟩ :=
    applyBuildingDelete_deleted hs.recorded.rowsNodup (hs.stored.queued request (by simp [hqueue]))
  have hids : (applyBuildingDelete s.rows s.boxRows request).1.map (fun row => row.view.identity) =
      s.rowIds.filter (· ≠ request.view.identity) := by
    rw [hrows, rowIds_filter]
    rfl
  have hkept {i : Int32 × WorldPos} (hi : i ∈ s.rowIds) (hne : i ≠ request.view.identity) :
      i ∈ s.rowIds.filter (· ≠ request.view.identity) := by
    simpa using ⟨hi, hne⟩
  constructor
  case sound => exact hs.sound
  case recorded =>
    exact
      { used := hs.recorded.used
        entity := hs.recorded.entity
        unique := hs.recorded.unique
        inserted := hs.recorded.inserted
        insertedNodup := hs.recorded.insertedNodup
        unspawned := hs.recorded.unspawned
        rows := by
          rw [rowIds, hids]
          exact fun i hi => hs.recorded.rows i (List.mem_filter.mp hi).1
        rowsNodup := by
          rw [rowIds, hids]
          exact hs.recorded.rowsNodup.filter _
        queue := fun row hrow => hs.recorded.queue row (hqueued _ hrow) }
  case tracked =>
    exact hs.tracked.congr (inFlight_perm _ hqueue) le_rfl fun request _ a ha => ha.congr rfl rfl fun _ => id
  case stored =>
    constructor
    case free =>
      intro e b hb hfree
      rw [rowIds, hids]
      exact hkept (hs.stored.free e b hb hfree) (hs.identity_ne hrequest hb hfree)
    case inserted =>
      intro row hrow
      rw [rowIds, hids]
      refine hkept (hs.stored.inserted row hrow) fun heq => ?_
      obtain ⟨a, ha⟩ := hs.tracked.owned request hrequest
      exact hs.recorded.unspawned row hrow a.entity (heq ▸ ha.identity)
    case queued =>
      intro request' hmem
      rw [rowIds, hids]
      refine hkept (hs.stored.queued request' (hqueued _ hmem)) (hs.otherRequest hqueue request' ?_)
      exact List.mem_append_left _ (List.mem_filterMap.mpr ⟨_, hmem, rfl⟩)
    case failed =>
      intro request' result hmem hne
      rw [rowIds, hids]
      rcases List.mem_append.mp hmem with hmem | hmem
      · refine hkept (hs.stored.failed request' result hmem hne) (hs.otherRequest hqueue request' ?_)
        exact List.mem_append_right _ (List.mem_map_of_mem hmem)
      · obtain ⟨rfl, rfl⟩ := Prod.mk.inj (List.mem_singleton.mp hmem)
        exact absurd hresult hne
    case gone =>
      intro request' hmem
      rw [rowIds, hids]
      rcases List.mem_append.mp hmem with hmem | hmem
      · exact fun hmem' => hs.stored.gone request' hmem (List.mem_filter.mp hmem').1
      · obtain ⟨rfl, -⟩ := Prod.mk.inj (List.mem_singleton.mp hmem)
        simp

theorem DeleteInv.persist {failed : Bool} (hs : s.DeleteInv) (h : s.persist failed = some t) : t.DeleteInv := by
  unfold BuildingWorld.persist at h
  split at h
  case h_1 => cases h
  case h_2 row queue hqueue =>
    obtain rfl := Option.some_inj.mp h
    exact hs.saveRow hqueue
  case h_3 request queue hqueue =>
    split at h
    case isTrue =>
      obtain rfl := Option.some_inj.mp h
      exact hs.failDelete hqueue
    case isFalse =>
      obtain rfl := Option.some_inj.mp h
      exact hs.deleteRow hqueue

/-! ### New buildings -/

theorem DeleteInv.insertRow {row : BuildingRow} (hs : s.DeleteInv) (h : s.insertRow row = some t) :
    t.DeleteInv := by
  rw [BuildingWorld.insertRow] at h
  split at h
  case isTrue => cases h
  case isFalse hfresh =>
    obtain rfl := Option.some_inj.mp h
    have hunused : row.view.identity ∉ s.usedIds := fun hmem => hfresh (List.mem_map_of_mem (f := Prod.fst) hmem)
    have hne {i : Int32 × WorldPos} (hi : i ∈ s.usedIds) : i ≠ row.view.identity := by
      rintro rfl
      exact hunused hi
    have hids : (s.rows ++ [row]).map (fun row => row.view.identity) = s.rowIds ++ [row.view.identity] := by
      simp [rowIds]
    constructor
    case sound => exact hs.sound
    case recorded =>
      constructor
      case used => exact List.nodup_cons.mpr ⟨hfresh, hs.recorded.used⟩
      case entity => exact fun e i hi => List.mem_cons_of_mem _ (hs.recorded.entity e i hi)
      case unique => exact hs.recorded.unique
      case inserted =>
        intro other hother
        rcases List.mem_append.mp hother with hother | hother
        · exact List.mem_cons_of_mem _ (hs.recorded.inserted other hother)
        · rw [List.mem_singleton.mp hother]
          exact List.mem_cons_self
      case insertedNodup =>
        rw [List.map_append]
        refine hs.recorded.insertedNodup.append (List.nodup_singleton _) ?_
        rw [List.map_singleton, List.disjoint_singleton]
        intro hmem
        obtain ⟨other, hother, heq⟩ := List.mem_map.mp hmem
        exact hne (hs.recorded.inserted other hother) heq
      case unspawned =>
        intro other hother e
        rcases List.mem_append.mp hother with hother | hother
        · exact hs.recorded.unspawned other hother e
        · rw [List.mem_singleton.mp hother]
          exact fun hi => hunused (hs.recorded.entity e _ hi)
      case rows =>
        rw [rowIds, hids]
        intro i hi
        rcases List.mem_append.mp hi with hi | hi
        · exact List.mem_cons_of_mem _ (hs.recorded.rows i hi)
        · rw [List.mem_singleton.mp hi]
          exact List.mem_cons_self
      case rowsNodup =>
        rw [rowIds, hids]
        refine hs.recorded.rowsNodup.append (List.nodup_singleton _) ?_
        rw [List.disjoint_singleton]
        exact fun hmem => hunused (hs.recorded.rows _ hmem)
      case queue => exact fun other hother => List.mem_cons_of_mem _ (hs.recorded.queue other hother)
    case tracked => exact hs.tracked.congr (.refl _) le_rfl fun request _ a ha => ha.congr rfl rfl fun _ => id
    case stored =>
      have hkept {i : Int32 × WorldPos} (hi : i ∈ s.rowIds) : i ∈ s.rowIds ++ [row.view.identity] :=
        List.mem_append_left _ hi
      constructor
      case free =>
        intro e b hb hfree
        rw [rowIds, hids]
        exact hkept (hs.stored.free e b hb hfree)
      case inserted =>
        intro other hother
        rw [rowIds, hids]
        rcases List.mem_append.mp hother with hother | hother
        · exact hkept (hs.stored.inserted other hother)
        · rw [List.mem_singleton.mp hother]
          simp
      case queued =>
        intro request hrequest
        rw [rowIds, hids]
        exact hkept (hs.stored.queued request hrequest)
      case failed =>
        intro request result hmem hresult
        rw [rowIds, hids]
        exact hkept (hs.stored.failed request result hmem hresult)
      case gone =>
        intro request hmem
        rw [rowIds, hids]
        intro hi
        rcases List.mem_append.mp hi with hi | hi
        · exact hs.stored.gone request hmem hi
        · obtain ⟨a, ha⟩ := hs.tracked.owned request
            (List.mem_append_right _ (List.mem_map_of_mem (f := Prod.fst) hmem))
          exact hne (hs.recorded.entity _ _ ha.identity) (List.mem_singleton.mp hi)

/-- Every entity that was there is there, with one more. -/
theorem entities_spawn {row : BuildingRow} {e : EntityId} :
    (s.toBuildingIndex.spawnBuilding ⟨row.view, some row.storage, some false, none⟩).entities e =
      if e = s.nextEntity then some ⟨row.view, some row.storage, some false, none⟩ else s.entities e := by
  show Function.update s.entities s.nextEntity _ e = _
  rw [Function.update_apply]

theorem DeleteInv.spawn (hs : s.DeleteInv) (h : s.spawn = some t) : t.DeleteInv := by
  unfold BuildingWorld.spawn at h
  split at h
  case h_1 => cases h
  case h_2 row inserted hinserted =>
    obtain rfl := Option.some_inj.mp h
    have hrow : row ∈ s.inserted := by simp [hinserted]
    have hrest : ∀ other ∈ inserted, other ∈ s.inserted := fun other hother => by
      rw [hinserted]
      exact List.mem_cons_of_mem _ hother
    have hidentities (e : EntityId) (i : Int32 × WorldPos) :
        ((s.toBuildingIndex.spawnBuilding ⟨row.view, some row.storage, some false, none⟩).entities e).map
          BuildingEntity.identity = some i ↔
            (e = s.nextEntity ∧ i = row.view.identity) ∨ (e ≠ s.nextEntity ∧ s.identities e = some i) := by
      rw [entities_spawn, identities]
      by_cases he : e = s.nextEntity
      · simp [he, BuildingEntity.identity, eq_comm]
      · simp [he]
    have hother {r : BuildingDeleteRequest} {c : Admission} (hc : s.Owns r c) : c.entity ≠ s.nextEntity := by
      intro heq
      have hnone := hs.sound.fresh c.entity (le_of_eq heq.symm)
      rw [hc.entity] at hnone
      cases hnone
    constructor
    case sound => exact hs.sound.spawnBuilding
    case recorded =>
      constructor
      case used => exact hs.recorded.used
      case entity =>
        intro e i hi
        rcases (hidentities e i).mp hi with ⟨-, rfl⟩ | ⟨-, hi⟩
        · exact hs.recorded.inserted row hrow
        · exact hs.recorded.entity e i hi
      case unique =>
        intro e e' i hi hi'
        rcases (hidentities e i).mp hi with ⟨he, hid⟩ | ⟨he, hid⟩
        · rcases (hidentities e' i).mp hi' with ⟨he', -⟩ | ⟨-, hid'⟩
          · rw [he, he']
          · exact absurd (hid ▸ hid') (hs.recorded.unspawned row hrow e')
        · rcases (hidentities e' i).mp hi' with ⟨-, hid'⟩ | ⟨-, hid'⟩
          · exact absurd (hid' ▸ hid) (hs.recorded.unspawned row hrow e)
          · exact hs.recorded.unique e e' i hid hid'
      case inserted => exact fun other hother => hs.recorded.inserted other (hrest other hother)
      case insertedNodup =>
        have hnodup := hs.recorded.insertedNodup
        rw [hinserted] at hnodup
        exact (List.nodup_cons.mp hnodup).2
      case unspawned =>
        intro other hother e hid
        rcases (hidentities e _).mp hid with ⟨-, heq⟩ | ⟨-, hid⟩
        · have hnodup := hs.recorded.insertedNodup
          rw [hinserted] at hnodup
          exact (List.nodup_cons.mp hnodup).1 (List.mem_map.mpr ⟨other, hother, heq⟩)
        · exact hs.recorded.unspawned other (hrest other hother) e hid
      case rows => exact hs.recorded.rows
      case rowsNodup => exact hs.recorded.rowsNodup
      case queue => exact hs.recorded.queue
    case tracked =>
      refine hs.tracked.congr (.refl _) le_rfl fun request _ a ha => ha.congr rfl ?_ fun _ => id
      exact entities_spawn.trans (if_neg (hother ha))
    case stored =>
      constructor
      case free =>
        intro e b hb hfree
        rw [entities_spawn] at hb
        split at hb
        case isTrue =>
          obtain rfl := Option.some_inj.mp hb
          exact hs.stored.inserted row hrow
        case isFalse => exact hs.stored.free e b hb hfree
      case inserted => exact fun other hother => hs.stored.inserted other (hrest other hother)
      case queued => exact hs.stored.queued
      case failed => exact hs.stored.failed
      case gone => exact hs.stored.gone

/-! ### Requests -/

theorem admissible_eq_ok {cells : BuildingCells} {pack : RemovePack} {dirty : Bool}
    (h : s.admissible cells pack = .ok (entity, b, dirty)) :
    s.byOrigin pack.pos = some entity ∧ s.entities entity = some b ∧ b.pending = none ∧ b.flags = some dirty := by
  unfold BuildingWorld.admissible at h
  split at h
  case isTrue => cases h
  case isFalse =>
    split at h
    case h_1 => cases h
    case h_2 e hat =>
      split at h
      case h_1 => cases h
      case h_2 c hc =>
        split at h
        case h_1 => cases h
        case h_2 => cases h
        case h_3 d hpending hflags =>
          split at h
          case isTrue => cases h
          case isFalse =>
            split at h
            case h_1 => cases h
            case h_2 =>
              split at h
              case isTrue => cases h
              case isFalse =>
                cases h
                exact ⟨hat, hc, hpending, hflags⟩

theorem admitDelete_eq_ok {cells : BuildingCells} {pack : RemovePack} {roll : Nat} (h : s.admitDelete cells pack roll = .ok t) :
    ∃ entity b, s.byOrigin pack.pos = some entity ∧ s.entities entity = some b ∧ b.pending = none ∧
      b.flags.isSome ∧ t =
        { s with
          toBuildingIndex := s.toBuildingIndex.setEntity entity (some (b.deleting s.nextOperation))
          queue := s.queue ++ [.delete (s.deleteRequest pack roll b)]
          admitted := Function.update s.admitted s.nextOperation (some ⟨entity, b, entity ∈ s.dirtyBuildings⟩) } := by
  rw [admitDelete] at h
  cases hadmissible : s.admissible cells pack with
  | error error =>
      rw [hadmissible] at h
      cases h
  | ok found =>
      obtain ⟨entity, b, dirty⟩ := found
      obtain ⟨hat, hb, hpending, hflags⟩ := admissible_eq_ok hadmissible
      rw [hadmissible] at h
      obtain rfl := Except.ok.inj h
      refine ⟨entity, b, hat, hb, hpending, by simp [hflags], ?_⟩
      simp [BuildingEntity.deleting, hflags]

theorem DeleteInv.admitted {pack : RemovePack} {roll : Nat} (hs : s.DeleteInv)
    (hb : s.entities entity = some b) (hfree : b.pending = none) (hflags : b.flags.isSome) :
    DeleteInv { s with
      toBuildingIndex := s.toBuildingIndex.setEntity entity (some (b.deleting s.nextOperation))
      queue := s.queue ++ [.delete (s.deleteRequest pack roll b)]
      admitted := Function.update s.admitted s.nextOperation (some ⟨entity, b, entity ∈ s.dirtyBuildings⟩)
      nextOperation := s.nextOperation + 1 } where
  sound := hs.sound.setEntity hb rfl
  recorded := by
    refine hs.recorded.congr (identities_update hb rfl) rfl rfl rfl fun row hrow => .inl ?_
    simpa using hrow
  tracked := by
    have hperm : ((s.queue ++ [BuildingSave.delete (s.deleteRequest pack roll b)]).filterMap BuildingSave.request ++
        s.completions.map Prod.fst).Perm (s.deleteRequest pack roll b :: s.inFlight) := by
      rw [List.filterMap_append, List.append_assoc]
      exact List.perm_middle
    have hnew : ∀ request ∈ s.inFlight, request.operationId ≠ s.nextOperation := fun request h =>
      Nat.ne_of_lt (hs.tracked.operationsLt request h)
    constructor
    case operations =>
      refine (hperm.map _).nodup_iff.mpr (List.nodup_cons.mpr ⟨?_, hs.tracked.operations⟩)
      intro hmem
      obtain ⟨request, hrequest, hoperation⟩ := List.mem_map.mp hmem
      exact hnew request hrequest hoperation
    case operationsLt =>
      intro request hrequest
      rcases List.mem_cons.mp (hperm.mem_iff.mp hrequest) with rfl | hold
      · exact Nat.lt_succ_self _
      · exact Nat.lt_succ_of_lt (hs.tracked.operationsLt request hold)
    case owned =>
      intro request hrequest
      rcases List.mem_cons.mp (hperm.mem_iff.mp hrequest) with rfl | hold
      · refine ⟨⟨entity, b, entity ∈ s.dirtyBuildings⟩, ?_⟩
        exact
          { admitted := Function.update_self _ _ _
            entity := Function.update_self _ _ _
            flags := hflags
            pending := hfree
            view := rfl
            boxWrite := rfl
            registered := fun _ hregistered => of_decide_eq_true hregistered }
      · obtain ⟨c, hc⟩ := hs.tracked.owned request hold
        refine ⟨c, hc.congr (Function.update_of_ne (hnew request hold) _ _) ?_ fun _ => id⟩
        refine Function.update_of_ne ?_ _ _
        rintro rfl
        obtain rfl := Option.some_inj.mp (hb.symm.trans hc.entity)
        cases hfree
  stored := by
    constructor
    case free =>
      intro e c hc hfree'
      by_cases he : e = entity
      · subst he
        obtain rfl : b.deleting s.nextOperation = c := by simpa [BuildingIndex.setEntity] using hc
        cases hfree'
      · exact hs.stored.free e c (by simpa [BuildingIndex.setEntity, he] using hc) hfree'
    case inserted => exact hs.stored.inserted
    case queued =>
      intro request hrequest
      rcases List.mem_append.mp hrequest with hold | hnew
      · exact hs.stored.queued request hold
      · obtain rfl := BuildingSave.delete.inj (List.mem_singleton.mp hnew)
        exact hs.stored.free entity b hb hfree
    case failed => exact hs.stored.failed
    case gone => exact hs.stored.gone

theorem DeleteInv.remove {cells : BuildingCells} {pack : RemovePack} {roll : Nat} (hs : s.DeleteInv) :
    (s.applyRemovePack cells pack roll).DeleteInv := by
  rw [applyRemovePack]
  cases hadm : s.admitDelete cells pack roll with
  | error error =>
      exact ⟨hs.sound, hs.recorded.congr (fun _ => rfl) rfl rfl rfl fun _ => Or.inl,
        hs.tracked.congr (.refl _) (Nat.le_succ _) fun request _ a ha => ha.congr rfl rfl fun _ => id,
        ⟨hs.stored.free, hs.stored.inserted, hs.stored.queued, hs.stored.failed, hs.stored.gone⟩⟩
  | ok u =>
      obtain ⟨entity, b, -, hb, hfree, hflags, rfl⟩ := admitDelete_eq_ok hadm
      exact hs.admitted hb hfree hflags

/-! ### Completions -/

theorem currentPendingDelete_eq_some {pending : BuildingDeletePending} :
    s.currentPendingDelete request = some (entity, b, pending) ↔
      s.byOrigin request.view.origin = some entity ∧ s.entities entity = some b ∧ b.pending = some pending ∧
        b.identity = request.view.identity ∧ pending.operationId = request.operationId := by
  simp only [currentPendingDelete, Option.bind_eq_bind, Option.bind_eq_some_iff, Option.guard_eq_some', exists_const,
    Option.some.injEq, Prod.exists, Prod.mk.injEq, BuildingIndex.buildingEntityAt_eq_some]
  constructor
  · rintro ⟨e, c, ⟨hat, hc⟩, p, hp, ⟨hid, hop⟩, rfl, rfl, rfl⟩
    exact ⟨hat, hc, hp, hid, hop⟩
  · rintro ⟨hat, hc, hp, hid, hop⟩
    exact ⟨entity, b, ⟨hat, hc⟩, pending, hp, ⟨hid, hop⟩, rfl, rfl, rfl⟩

/-- The building whose deletion is current is the one that was admitted. -/
theorem DeleteInv.current {pending : BuildingDeletePending} (hs : s.DeleteInv) (hrequest : request ∈ s.inFlight)
    (h : s.currentPendingDelete request = some (entity, b, pending)) :
    ∃ a, s.Owns request a ∧ a.entity = entity ∧ b = a.building.deleting request.operationId := by
  obtain ⟨-, hb, -, hid, -⟩ := currentPendingDelete_eq_some.mp h
  obtain ⟨a, ha⟩ := hs.tracked.owned request hrequest
  have hentity : a.entity = entity :=
    hs.recorded.unique _ _ _ ha.identity (by rw [identities, hb, Option.map_some, hid])
  subst hentity
  exact ⟨a, ha, rfl, Option.some_inj.mp (hb.symm.trans ha.entity)⟩

section Complete

variable {result : BuildingDeleteResult} {completions : List (BuildingDeleteRequest × BuildingDeleteResult)}

theorem inFlight_cons (hcompletions : s.completions = (request, result) :: completions) :
    s.inFlight.Perm (request :: inFlight { s with completions := completions }) := by
  rw [inFlight, hcompletions]
  exact List.perm_middle

theorem DeleteInv.otherEntity {request' : BuildingDeleteRequest} {a' : Admission} (hs : s.DeleteInv)
    (hcompletions : s.completions = (request, result) :: completions) (ha : s.Owns request a)
    (hmem : request' ∈ inFlight { s with completions := completions }) (ha' : s.Owns request' a') :
    a'.entity ≠ a.entity := by
  intro heq
  have hnodup := ((inFlight_cons hcompletions).map _).nodup_iff.mp hs.nodup
  refine (List.nodup_cons.mp hnodup).1 (List.mem_map.mpr ⟨request', hmem, ?_⟩)
  have hid := ha'.identity
  rw [heq, ha.identity] at hid
  exact (Option.some_inj.mp hid).symm

theorem DeleteInv.stale (hs : s.DeleteInv) (hcompletions : s.completions = (request, result) :: completions) :
    DeleteInv { s with completions := completions } := by
  have hperm := inFlight_cons hcompletions
  have hmem : ∀ c ∈ completions, c ∈ s.completions := fun c hc => by
    rw [hcompletions]
    exact List.mem_cons_of_mem _ hc
  have hflight : ∀ request' ∈ inFlight { s with completions := completions }, request' ∈ s.inFlight :=
    fun request' h => hperm.mem_iff.mpr (List.mem_cons_of_mem _ h)
  constructor
  case sound => exact hs.sound
  case recorded => exact hs.recorded.congr (fun _ => rfl) rfl rfl rfl fun _ => Or.inl
  case tracked =>
    constructor
    case operations => exact (List.nodup_cons.mp ((hperm.map _).nodup_iff.mp hs.tracked.operations)).2
    case operationsLt => exact fun request' h => hs.tracked.operationsLt request' (hflight _ h)
    case owned =>
      intro request' h
      obtain ⟨a, ha⟩ := hs.tracked.owned request' (hflight _ h)
      exact ⟨a, ha.congr rfl rfl fun _ => id⟩
  case stored =>
    exact
      { free := hs.stored.free
        inserted := hs.stored.inserted
        queued := hs.stored.queued
        failed := fun request' result' h => hs.stored.failed request' result' (hmem _ h)
        gone := fun request' h => hs.stored.gone request' (hmem _ h) }

theorem DeleteInv.reject {pending : BuildingDeletePending} (hs : s.DeleteInv)
    (hcompletions : s.completions = (request, result) :: completions) (hresult : result ≠ .deleted)
    (h : s.currentPendingDelete request = some (entity, b, pending)) :
    (rejectDelete { s with completions := completions } entity b pending).DeleteInv := by
  have hrequest : request ∈ s.inFlight := (inFlight_cons hcompletions).mem_iff.mpr List.mem_cons_self
  obtain ⟨-, hb, -, hid, -⟩ := currentPendingDelete_eq_some.mp h
  obtain ⟨a, ha, hentity, -⟩ := hs.current hrequest h
  have hstale := hs.stale hcompletions
  constructor
  case sound => exact hs.sound.setEntity hb rfl
  case recorded => exact hs.recorded.congr (identities_update hb rfl) rfl rfl rfl fun _ => Or.inl
  case tracked =>
    refine hstale.tracked.congr (.refl _) le_rfl fun request' hmem a' ha' => ha'.congr rfl ?_ fun _ => id
    refine Function.update_of_ne ?_ _ _
    rw [← hentity]
    exact hs.otherEntity hcompletions ha hmem (ha'.congr rfl rfl fun _ => id)
  case stored =>
    constructor
    case free =>
      intro e c hc hfree
      by_cases he : e = entity
      · subst he
        obtain rfl : { b with pending := none, flags := some pending.dirtyBefore } = c := by
          simpa [rejectDelete, BuildingIndex.setEntity] using hc
        have hrow := hs.stored.failed request result (by simp [hcompletions]) hresult
        rw [← hid] at hrow
        exact hrow
      · exact hs.stored.free e c (by simpa [rejectDelete, BuildingIndex.setEntity, he] using hc) hfree
    case inserted => exact hs.stored.inserted
    case queued => exact hs.stored.queued
    case failed => exact hstale.stored.failed
    case gone => exact hstale.stored.gone

theorem DeleteInv.removed {index : BuildingIndex} (hs : s.DeleteInv)
    (hcompletions : s.completions = (request, result) :: completions) (ha : s.Owns request a)
    (hindex : s.toBuildingIndex.removeBuilding request.view a.entity = some index) (grid : CellGrid)
    (boxes : WorldPos → Option Crystals) (players : PlayerId → Option DeletePlayer) :
    DeleteInv { s with
      toBuildingIndex := index, grid := grid, boxes := boxes, players := players, completions := completions } := by
  have hstale := hs.stale hcompletions
  have hkept : ∀ e c, index.entities e = some c → s.entities e = some c := by
    obtain ⟨-, rfl⟩ := BuildingIndex.removeBuilding_eq_some hindex
    intro e c hc
    by_cases he : e = a.entity
    · simp [he] at hc
    · simpa [he] using hc
  have hids : ∀ e i, (index.entities e).map BuildingEntity.identity = some i → s.identities e = some i := by
    intro e i hi
    obtain ⟨c, hc, rfl⟩ := Option.map_eq_some_iff.mp hi
    rw [identities, hkept e c hc, Option.map_some]
  constructor
  case sound => exact hs.sound.removeBuilding hindex
  case recorded =>
    exact
      { used := hs.recorded.used
        entity := fun e i hi => hs.recorded.entity e i (hids e i hi)
        unique := fun e e' i hi hi' => hs.recorded.unique e e' i (hids e i hi) (hids e' i hi')
        inserted := hs.recorded.inserted
        insertedNodup := hs.recorded.insertedNodup
        unspawned := fun row hrow e hi => hs.recorded.unspawned row hrow e (hids e _ hi)
        rows := hs.recorded.rows
        rowsNodup := hs.recorded.rowsNodup
        queue := hs.recorded.queue }
  case tracked =>
    refine hstale.tracked.congr (.refl _) le_rfl fun request' hmem a' ha' => ha'.congr rfl ?_ fun _ => id
    have hne := hs.otherEntity hcompletions ha hmem (ha'.congr rfl rfl fun _ => id)
    obtain ⟨-, rfl⟩ := BuildingIndex.removeBuilding_eq_some hindex
    exact Function.update_of_ne hne _ _
  case stored =>
    exact
      { free := fun e c hc hfree => hs.stored.free e c (hkept e c hc) hfree
        inserted := hs.stored.inserted
        queued := hs.stored.queued
        failed := hstale.stored.failed
        gone := hstale.stored.gone }

end Complete

end BuildingWorld

end OpenMines

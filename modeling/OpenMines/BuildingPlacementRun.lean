import OpenMines.BuildingSites

namespace OpenMines

open Lib.Run

/-- What is taken before the building is there. -/
def PlacementPrice.prepaid : PlacementPrice → Int
  | .paid cost => cost
  | .inventory _ => 0

namespace PlacementWorld

section Invariants

variable (config : BuildingsConfig) (s : PlacementWorld)

def inFlight : List PlacementTask := s.tasks ++ s.commands.map Prod.fst

/-- The placement has its price, and no building that was there when its site was checked is in its way. -/
structure Waiting (task : PlacementTask) : Prop where
  requests : s.requests task.request = some task.placement
  built : s.built task.request = []
  debited : s.debited task.request = task.placement.price.prepaid
  checkedAt : task.checkedAt ≤ s.nextEntity
  valid : s.grid.validCoord (worldPos task.placement.pos) = true ∧
    (config.config task.placement.packType).isSome
  clear : ∀ e b, e < task.checkedAt → s.entities e = some b → ∀ id, Apart config b.view (task.placement.view id)

/-- The request has its one building, paid once, or nothing was built, stored or taken. -/
structure Settled (request : RequestId) (placement : BuildingPlacement) : Prop where
  requests : s.requests request = some placement
  outcome :
    (∃ e id, s.built request = [e] ∧ e < s.nextEntity ∧ (∀ b, s.entities e = some b → b.view = placement.view id) ∧
      s.recorded request = some id ∧ s.debited request = placement.price.amount) ∨
    (s.built request = [] ∧ s.recorded request = none ∧ s.debited request = 0)

structure PlacementInv : Prop where
  sound : s.toBuildingIndex.Sound
  indexed : s.toBuildingIndex.Indexed
  valid : ∀ e b, s.entities e = some b → s.grid.validCoord (worldPos b.view.origin) = true ∧
    (config.config b.view.packType).isSome
  apart : ∀ e e' b b', s.entities e = some b → s.entities e' = some b' → e ≠ e' → Apart config b.view b'.view
  nodup : (s.inFlight.map PlacementTask.request).Nodup
  lt : ∀ task ∈ s.inFlight, task.request < s.nextRequest
  waiting : ∀ task ∈ s.inFlight, s.Waiting config task
  unrecorded : ∀ task ∈ s.tasks, s.recorded task.request = none
  recorded : ∀ task dbId, (task, dbId) ∈ s.commands → s.recorded task.request = dbId
  settled : ∀ request, request < s.nextRequest → request ∉ s.inFlight.map PlacementTask.request →
    ∃ placement, s.Settled request placement
  unused : ∀ request, s.nextRequest ≤ request →
    s.built request = [] ∧ s.recorded request = none ∧ s.debited request = 0

/-- The buildings that were loaded, before any request. -/
structure Start : Prop where
  sound : s.toBuildingIndex.Sound
  indexed : s.toBuildingIndex.Indexed
  valid : ∀ e b, s.entities e = some b → s.grid.validCoord (worldPos b.view.origin) = true ∧
    (config.config b.view.packType).isSome
  apart : ∀ e e' b b', s.entities e = some b → s.entities e' = some b' → e ≠ e' → Apart config b.view b'.view
  tasks : s.tasks = []
  commands : s.commands = []
  nextRequest : s.nextRequest = 0
  unused : ∀ request, s.built request = [] ∧ s.recorded request = none ∧ s.debited request = 0

end Invariants

variable {config : BuildingsConfig} {defs : CellDefs} {canPlaceOver : UInt8 → Bool} {s t : PlacementWorld}
  {entity : EntityId} {b : BuildingEntity} {task : PlacementTask} {dbId : Option Int32}
  {placement : BuildingPlacement} {request : RequestId} {journal : WorldPos → Bool}
  {commands : List (PlacementTask × Option Int32)}

theorem Start.placementInv (hs : s.Start config) : s.PlacementInv config where
  sound := hs.sound
  indexed := hs.indexed
  valid := hs.valid
  apart := hs.apart
  nodup := by simp [inFlight, hs.tasks, hs.commands]
  lt := by simp [inFlight, hs.tasks, hs.commands]
  waiting := by simp [inFlight, hs.tasks, hs.commands]
  unrecorded := by simp [hs.tasks]
  recorded := by simp [hs.commands]
  settled := by simp [hs.nextRequest]
  unused request _ := hs.unused request

theorem Waiting.congr (h : s.Waiting config task) (hrequests : t.requests task.request = s.requests task.request)
    (hbuilt : t.built task.request = s.built task.request) (hdebited : t.debited task.request = s.debited task.request)
    (hnext : s.nextEntity ≤ t.nextEntity) (hgrid : ∀ q, t.grid.validCoord q = s.grid.validCoord q)
    (hentities : ∀ e b, e < task.checkedAt → t.entities e = some b → s.entities e = some b) : t.Waiting config task where
  requests := hrequests.trans h.requests
  built := hbuilt.trans h.built
  debited := hdebited.trans h.debited
  checkedAt := h.checkedAt.trans hnext
  valid := ⟨(hgrid _).trans h.valid.1, h.valid.2⟩
  clear e b he hb := h.clear e b he (hentities e b he hb)

theorem Settled.congr (h : s.Settled request placement) (hrequests : t.requests request = s.requests request)
    (hbuilt : t.built request = s.built request) (hdebited : t.debited request = s.debited request)
    (hrecorded : t.recorded request = s.recorded request) (hnext : s.nextEntity ≤ t.nextEntity)
    (hentities : ∀ e b, e < s.nextEntity → t.entities e = some b → s.entities e = some b) :
    t.Settled request placement where
  requests := hrequests.trans h.requests
  outcome := by
    rw [hbuilt, hdebited, hrecorded]
    refine h.outcome.imp_left ?_
    rintro ⟨e, id, hone, hlt, hview, hpaid⟩
    exact ⟨e, id, hone, hlt.trans_le hnext, fun b hb => hview b (hentities e b hlt hb), hpaid⟩

/-! ### Requests -/

theorem preparePaid_eq_some {player : PlayerId} {typeCode : String}
    (h : s.preparePaid config defs player typeCode = some placement) :
    s.validateBuildingArea config defs placement.pos placement.packType = true ∧
      placement.price.prepaid = placement.price.amount ∧ placement.ownerId = player := by
  simp only [preparePaid, Option.bind_eq_bind, Option.bind_eq_some_iff, Option.guard_eq_some', exists_const,
    Option.some.injEq] at h
  obtain ⟨packType, -, c, -, p, -, -, -, harea, -, -, rfl⟩ := h
  exact ⟨harea, rfl, rfl⟩

theorem prepareInventory_eq_some {player : PlayerId} {gatePassed gunAccess : Bool}
    (h : s.prepareInventory config defs canPlaceOver player gatePassed gunAccess = some placement) :
    s.validateBuildingArea config defs placement.pos placement.packType = true ∧ placement.price.prepaid = 0 := by
  simp only [prepareInventory, Option.bind_eq_bind, Option.bind_eq_some_iff, Option.guard_eq_some', exists_const,
    Option.some.injEq] at h
  obtain ⟨p, -, -, -, spec, -, -, -, -, -, -, harea, c, -, -, rfl⟩ := h
  exact ⟨harea, rfl⟩

theorem inFlight_startTask {session : SessionId} : (s.startTask session placement).inFlight.Perm
    (⟨s.nextRequest, session, placement, s.nextEntity⟩ :: s.inFlight) := by
  rw [inFlight, startTask, List.append_assoc]
  exact List.perm_middle

/-- A request whose site was checked, with what is paid in advance. -/
theorem PlacementInv.startTask {session : SessionId} (hs : s.PlacementInv config)
    (harea : s.validateBuildingArea config defs placement.pos placement.packType = true)
    (players : PlayerId → Option PlacementPlayer) (debited : RequestId → Int)
    (hnew : debited s.nextRequest = placement.price.prepaid)
    (hold : ∀ r, r ≠ s.nextRequest → debited r = s.debited r) :
    PlacementInv config (startTask { s with players := players, debited := debited } session placement) := by
  have hperm : (PlacementWorld.startTask { s with players := players, debited := debited } session
      placement).inFlight.Perm (⟨s.nextRequest, session, placement, s.nextEntity⟩ :: s.inFlight) :=
    inFlight_startTask
  have hunused := hs.unused s.nextRequest le_rfl
  have hne : ∀ task ∈ s.inFlight, task.request ≠ s.nextRequest := fun task h => Nat.ne_of_lt (hs.lt task h)
  constructor
  case sound => exact hs.sound
  case indexed => exact hs.indexed
  case valid => exact hs.valid
  case apart => exact hs.apart
  case nodup =>
    refine (hperm.map _).nodup_iff.mpr (List.nodup_cons.mpr ⟨?_, hs.nodup⟩)
    intro hmem
    obtain ⟨task, htask, heq⟩ := List.mem_map.mp hmem
    exact hne task htask heq
  case lt =>
    intro task htask
    rcases List.mem_cons.mp (hperm.mem_iff.mp htask) with rfl | htask
    · exact Nat.lt_succ_self _
    · exact Nat.lt_succ_of_lt (hs.lt task htask)
  case waiting =>
    intro task htask
    rcases List.mem_cons.mp (hperm.mem_iff.mp htask) with rfl | htask
    · exact
        { requests := Function.update_self _ _ _
          built := hunused.1
          debited := hnew
          checkedAt := le_rfl
          valid := by
            obtain ⟨c, hc, -⟩ := validateBuildingArea_eq_true harea
            exact ⟨validateBuildingArea_valid harea, by simp [hc]⟩
          clear := fun e b _ hb id => validateBuildingArea_apart (placement.view id) hs.sound harea hb
            (hs.valid e b hb).1 }
    · exact (hs.waiting task htask).congr (Function.update_of_ne (hne task htask) _ _) rfl (hold _ (hne task htask))
        le_rfl (fun _ => rfl) fun _ _ _ => id
  case unrecorded =>
    intro task htask
    rcases List.mem_append.mp htask with htask | htask
    · exact hs.unrecorded task htask
    · rw [List.mem_singleton.mp htask]
      exact hunused.2.1
  case recorded => exact hs.recorded
  case settled =>
    intro request hlt hmem
    have hout : request ≠ s.nextRequest ∧ request ∉ s.inFlight.map PlacementTask.request := by
      have hmem' := mt (hperm.map PlacementTask.request).mem_iff.mpr hmem
      rw [List.map_cons, List.mem_cons, not_or] at hmem'
      exact hmem'
    obtain ⟨placement', h⟩ := hs.settled request
      (Nat.lt_of_le_of_ne (Nat.le_of_lt_succ hlt) hout.1) hout.2
    exact ⟨placement', h.congr (Function.update_of_ne hout.1 _ _) rfl (hold _ hout.1) rfl le_rfl fun _ _ _ => id⟩
  case unused =>
    intro request hle
    have hlt : s.nextRequest < request := hle
    obtain ⟨hbuilt, hrecorded, hdebited⟩ := hs.unused request hlt.le
    exact ⟨hbuilt, hrecorded, (hold _ hlt.ne').trans hdebited⟩

theorem PlacementInv.requestPaid {player : PlayerId} {typeCode : String} (hs : s.PlacementInv config)
    (h : s.requestPaid config defs player typeCode = some t) : t.PlacementInv config := by
  obtain ⟨session, -, rfl⟩ := Option.map_eq_some_iff.mp h
  cases hprepare : s.preparePaid config defs player typeCode with
  | none => exact hs
  | some placement =>
      obtain ⟨harea, hprepaid, -⟩ := preparePaid_eq_some hprepare
      refine hs.startTask harea _ _ ?_ fun r hr => Function.update_of_ne hr _ _
      rw [Function.update_self, (hs.unused s.nextRequest le_rfl).2.2, Int.zero_add, hprepaid]

theorem PlacementInv.requestInventory {player : PlayerId} {gatePassed gunAccess : Bool} (hs : s.PlacementInv config)
    (h : s.requestInventory config defs canPlaceOver player gatePassed gunAccess = some t) :
    t.PlacementInv config := by
  obtain ⟨session, -, rfl⟩ := Option.map_eq_some_iff.mp h
  cases hprepare : s.prepareInventory config defs canPlaceOver player gatePassed gunAccess with
  | none => exact hs
  | some placement =>
      obtain ⟨harea, hprepaid⟩ := prepareInventory_eq_some hprepare
      refine hs.startTask harea s.players s.debited ?_ fun _ _ => rfl
      rw [hprepaid, (hs.unused s.nextRequest le_rfl).2.2]

/-! ### Insert tasks -/

theorem PlacementInv.insert {i : Nat} (hs : s.PlacementInv config) (h : s.insert i dbId = some t) :
    t.PlacementInv config := by
  simp only [PlacementWorld.insert, Option.bind_eq_bind, Option.bind_eq_some_iff] at h
  obtain ⟨task, htask, h⟩ := h
  have hlt : i < s.tasks.length := (List.getElem?_eq_some_iff.mp htask).1
  have hget : s.tasks[i] = task := (List.getElem?_eq_some_iff.mp htask).2
  have hsplit : s.tasks.Perm (task :: s.tasks.eraseIdx i) := by
    rw [← hget]
    exact (List.getElem_cons_eraseIdx_perm hlt).symm
  have hperm : (s.tasks.eraseIdx i ++ (s.commands ++ [(task, dbId)]).map Prod.fst).Perm s.inFlight := by
    rw [List.map_append, ← List.append_assoc, inFlight]
    refine (List.perm_append_singleton task _).trans ?_
    rw [← List.cons_append]
    exact hsplit.symm.append_right _
  have hmem : task ∈ s.inFlight := List.mem_append_left _ (hsplit.mem_iff.mpr List.mem_cons_self)
  have hother : ∀ other ∈ s.tasks.eraseIdx i ++ s.commands.map Prod.fst, other.request ≠ task.request := by
    have hnodup := ((hsplit.append_right (s.commands.map Prod.fst)).map PlacementTask.request).nodup_iff.mp hs.nodup
    intro other hin heq
    exact (List.nodup_cons.mp hnodup).1 (List.mem_map.mpr ⟨other, hin, heq⟩)
  have hinv (recorded : RequestId → Option Int32) (rows : List BuildingRow) (usedIds : List Int32)
      (htask : recorded task.request = dbId)
      (hsame : ∀ r, r ≠ task.request → recorded r = s.recorded r) : PlacementInv config
        { s with
          tasks := s.tasks.eraseIdx i
          commands := s.commands ++ [(task, dbId)]
          rows := rows
          usedIds := usedIds
          recorded := recorded } := by
    constructor
    case sound => exact hs.sound
    case indexed => exact hs.indexed
    case valid => exact hs.valid
    case apart => exact hs.apart
    case nodup => exact (hperm.map _).nodup_iff.mpr hs.nodup
    case lt => exact fun other hin => hs.lt other (hperm.mem_iff.mp hin)
    case waiting =>
      exact fun other hin => (hs.waiting other (hperm.mem_iff.mp hin)).congr rfl rfl rfl le_rfl (fun _ => rfl)
        fun _ _ _ => id
    case unrecorded =>
      intro other hin
      refine (hsame _ (hother other (List.mem_append_left _ hin))).trans (hs.unrecorded other ?_)
      exact List.mem_of_mem_eraseIdx hin
    case recorded =>
      intro other id hin
      rcases List.mem_append.mp hin with hin | hin
      · refine (hsame _ (hother other (List.mem_append_right _ ?_))).trans (hs.recorded other id hin)
        exact List.mem_map_of_mem (f := Prod.fst) hin
      · obtain ⟨rfl, rfl⟩ := Prod.mk.inj (List.mem_singleton.mp hin)
        exact htask
    case settled =>
      intro request hlt hout
      have hout' := mt (hperm.map PlacementTask.request).mem_iff.mpr hout
      obtain ⟨placement, h⟩ := hs.settled request hlt hout'
      refine ⟨placement, h.congr rfl rfl rfl (hsame _ ?_) le_rfl fun _ _ _ => id⟩
      rintro rfl
      exact hout' (List.mem_map_of_mem hmem)
    case unused =>
      intro request hle
      obtain ⟨hbuilt, hrecorded, hdebited⟩ := hs.unused request hle
      refine ⟨hbuilt, (hsame _ ?_).trans hrecorded, hdebited⟩
      exact (Nat.ne_of_lt (Nat.lt_of_lt_of_le (hs.lt task hmem) hle)).symm
  cases dbId with
  | none =>
      obtain rfl := Option.some_inj.mp h
      refine hinv s.recorded s.rows s.usedIds (hs.unrecorded task ?_) fun _ _ => rfl
      exact hsplit.mem_iff.mpr List.mem_cons_self
  | some id =>
      simp only [Option.bind_eq_some_iff, Option.guard_eq_some', exists_const, Option.some.injEq] at h
      obtain ⟨-, rfl⟩ := h
      exact hinv _ _ _ (Function.update_self _ _ _) fun r hr => Function.update_of_ne hr _ _

/-! ### Completions -/

theorem mem_inFlight_of_commands (hcommands : s.commands = (task, dbId) :: commands) : task ∈ s.inFlight := by
  rw [inFlight, hcommands]
  simp

/-- The first command is handled: its request is settled, and the others wait. -/
theorem PlacementInv.finish (hs : s.PlacementInv config) (hcommands : s.commands = (task, dbId) :: commands)
    (hsound : t.toBuildingIndex.Sound) (hindexed : t.toBuildingIndex.Indexed)
    (hvalid : ∀ e b, t.entities e = some b → t.grid.validCoord (worldPos b.view.origin) = true ∧
      (config.config b.view.packType).isSome)
    (hapart : ∀ e e' b b', t.entities e = some b → t.entities e' = some b' → e ≠ e' → Apart config b.view b'.view)
    (hentities : ∀ e b, e < s.nextEntity → t.entities e = some b → s.entities e = some b)
    (hnextEntity : s.nextEntity ≤ t.nextEntity) (hgrid : ∀ q, t.grid.validCoord q = s.grid.validCoord q)
    (htasks : t.tasks = s.tasks) (hrest : t.commands = commands) (hnext : t.nextRequest = s.nextRequest)
    (hrequests : t.requests = s.requests) (hrecorded : t.recorded = s.recorded)
    (hbuilt : ∀ r, r ≠ task.request → t.built r = s.built r)
    (hdebited : ∀ r, r ≠ task.request → t.debited r = s.debited r)
    (hsettled : t.Settled task.request task.placement) : t.PlacementInv config := by
  have hperm : s.inFlight.Perm (task :: t.inFlight) := by
    rw [inFlight, inFlight, hcommands, htasks, hrest]
    exact List.perm_middle
  have hnodup := (hperm.map PlacementTask.request).nodup_iff.mp hs.nodup
  have hmem : ∀ other ∈ t.inFlight, other ∈ s.inFlight := fun other h =>
    hperm.mem_iff.mpr (List.mem_cons_of_mem _ h)
  have hother : ∀ other ∈ t.inFlight, other.request ≠ task.request := fun other h heq =>
    (List.nodup_cons.mp hnodup).1 (List.mem_map.mpr ⟨other, h, heq⟩)
  constructor
  case sound => exact hsound
  case indexed => exact hindexed
  case valid => exact hvalid
  case apart => exact hapart
  case nodup => exact (List.nodup_cons.mp hnodup).2
  case lt =>
    rw [hnext]
    exact fun other h => hs.lt other (hmem other h)
  case waiting =>
    intro other h
    have hwaiting := hs.waiting other (hmem other h)
    have hne := hother other h
    exact hwaiting.congr (congrFun hrequests _) (hbuilt _ hne) (hdebited _ hne) hnextEntity hgrid fun e b he =>
      hentities e b (he.trans_le hwaiting.checkedAt)
  case unrecorded =>
    rw [htasks, hrecorded]
    exact hs.unrecorded
  case recorded =>
    rw [hrest, hrecorded]
    exact fun other id h => hs.recorded other id (by rw [hcommands]; exact List.mem_cons_of_mem _ h)
  case settled =>
    intro request hlt hout
    by_cases hr : request = task.request
    · exact ⟨task.placement, hr ▸ hsettled⟩
    · have hout' : request ∉ s.inFlight.map PlacementTask.request := by
        rw [(hperm.map PlacementTask.request).mem_iff, List.map_cons, List.mem_cons, not_or]
        exact ⟨hr, hout⟩
      obtain ⟨placement, h⟩ := hs.settled request (hnext ▸ hlt) hout'
      exact ⟨placement, h.congr (congrFun hrequests _) (hbuilt _ hr) (hdebited _ hr) (congrFun hrecorded _) hnextEntity
        hentities⟩
  case unused =>
    intro request hle
    rw [hnext] at hle
    have hr : request ≠ task.request :=
      (Nat.ne_of_lt (Nat.lt_of_lt_of_le (hs.lt task (mem_inFlight_of_commands hcommands)) hle)).symm
    rw [hbuilt _ hr, hdebited _ hr, hrecorded]
    exact hs.unused request hle

/-- The placement was not built, and has given back what it had taken. -/
theorem PlacementInv.refused (hs : s.PlacementInv config) (hcommands : s.commands = (task, none) :: commands)
    (players : PlayerId → Option PlacementPlayer) (debited : RequestId → Int) (hpaid : debited task.request = 0)
    (hold : ∀ r, r ≠ task.request → debited r = s.debited r) :
    PlacementInv config { s with commands := commands, players := players, debited := debited } := by
  have hwaiting := hs.waiting task (mem_inFlight_of_commands hcommands)
  refine hs.finish hcommands hs.sound hs.indexed hs.valid hs.apart (fun _ _ _ => id) le_rfl (fun _ => rfl) rfl rfl
    rfl rfl rfl (fun _ _ => rfl) hold ⟨hwaiting.requests, .inr ⟨hwaiting.built, ?_, hpaid⟩⟩
  exact hs.recorded task none (by simp [hcommands])

theorem validCoord_placeBuildingFootprint (view : PackView) (g : CellGrid) (q : Pos) :
    (placeBuildingFootprint config defs view journal g).validCoord q = g.validCoord q := by
  rw [placeBuildingFootprint]
  induction footprint config.cells view generalizing g with
  | nil => rfl
  | cons d ds ih => rw [List.foldl_cons, ih, CellGrid.validCoord_setCellTyped]

theorem entities_spawnBuilding (e : EntityId) : (s.toBuildingIndex.spawnBuilding b).entities e =
    if e = s.nextEntity then some b else s.entities e := by
  show Function.update s.entities s.nextEntity (some b) e = _
  rw [Function.update_apply]

/-- The entities of a new building that is apart from the others. -/
theorem PlacementInv.spawn_apart (hs : s.PlacementInv config)
    (hclear : ∀ e c, s.entities e = some c → Apart config c.view b.view) (e e' : EntityId) (c c' : BuildingEntity)
    (hc : (s.toBuildingIndex.spawnBuilding b).entities e = some c)
    (hc' : (s.toBuildingIndex.spawnBuilding b).entities e' = some c') (hne : e ≠ e') :
    Apart config c.view c'.view := by
  rw [entities_spawnBuilding] at hc hc'
  split at hc
  case isTrue he =>
    obtain rfl := Option.some_inj.mp hc
    rw [if_neg (he ▸ hne.symm)] at hc'
    exact (hclear e' c' hc').symm
  case isFalse =>
    split at hc'
    case isTrue =>
      obtain rfl := Option.some_inj.mp hc'
      exact hclear e c hc
    case isFalse => exact hs.apart e e' c c' hc hc' hne

theorem PlacementInv.spawn_indexed (hs : s.PlacementInv config)
    (hclear : ∀ e c, s.entities e = some c → Apart config c.view b.view)
    (hconfig : (config.config b.view.packType).isSome) : (s.toBuildingIndex.spawnBuilding b).Indexed := by
  intro e c hc
  show Function.update s.byOrigin b.view.origin (some s.nextEntity) c.view.origin = some e
  rw [entities_spawnBuilding] at hc
  split at hc
  case isTrue he =>
    obtain rfl := Option.some_inj.mp hc
    rw [Function.update_self, he]
  case isFalse =>
    rw [Function.update_of_ne ((hclear e c hc).origin_ne (hs.valid e c hc).2 hconfig)]
    exact hs.indexed e c hc

/-- The building stands, and the whole price is taken. -/
theorem PlacementInv.placed {id : Int32} (hs : s.PlacementInv config)
    (hcommands : s.commands = (task, some id) :: commands)
    (hclear : ∀ e b, task.checkedAt ≤ e → s.entities e = some b → Apart config b.view (task.placement.view id))
    (players : PlayerId → Option PlacementPlayer) (debited : RequestId → Int)
    (hpaid : debited task.request = task.placement.price.amount)
    (hold : ∀ r, r ≠ task.request → debited r = s.debited r) :
    PlacementInv config
      { spawnBuildingRuntime config defs { s with commands := commands } task id journal with
        players := players, debited := debited } := by
  have hwaiting := hs.waiting task (mem_inFlight_of_commands hcommands)
  have hfree : ∀ e b, s.entities e = some b → Apart config b.view (task.placement.view id) := fun e b hb =>
    (Nat.lt_or_ge e task.checkedAt).elim (fun he => hwaiting.clear e b he hb id) fun he => hclear e b he hb
  have hgrid (q : Pos) : (placeBuildingFootprint config defs (task.placement.view id) journal s.grid).validCoord q =
      s.grid.validCoord q :=
    validCoord_placeBuildingFootprint _ _ _
  refine hs.finish hcommands hs.sound.spawnBuilding (hs.spawn_indexed hfree hwaiting.valid.2) ?_
    (hs.spawn_apart hfree) ?_ (Nat.le_succ _) hgrid rfl rfl rfl rfl rfl (fun r hr => Function.update_of_ne hr _ _) hold
    ⟨hwaiting.requests, .inl ⟨s.nextEntity, id, ?_, Nat.lt_succ_self _, ?_, ?_, hpaid⟩⟩
  · intro e b hb
    refine ⟨(hgrid _).trans ?_, ?_⟩
    · rw [spawnBuildingRuntime, entities_spawnBuilding] at hb
      split at hb
      case isTrue =>
        obtain rfl := Option.some_inj.mp hb
        exact hwaiting.valid.1
      case isFalse => exact (hs.valid e b hb).1
    · rw [spawnBuildingRuntime, entities_spawnBuilding] at hb
      split at hb
      case isTrue =>
        obtain rfl := Option.some_inj.mp hb
        exact hwaiting.valid.2
      case isFalse => exact (hs.valid e b hb).2
  · intro e b he hb
    rwa [spawnBuildingRuntime, entities_spawnBuilding, if_neg (Nat.ne_of_lt he)] at hb
  · show Function.update s.built task.request (s.built task.request ++ [s.nextEntity]) task.request = _
    rw [Function.update_self, hwaiting.built, List.nil_append]
  · intro b hb
    rw [spawnBuildingRuntime, entities_spawnBuilding, if_pos rfl] at hb
    obtain rfl := Option.some_inj.mp hb
    rfl
  · exact hs.recorded task (some id) (by simp [hcommands])

/-- A completion that finds its session current, its site still free of new buildings, and the owner
there to take from or to give back to. -/
def CompletesFair (config : BuildingsConfig) (s : PlacementWorld) (task : PlacementTask) (dbId : Option Int32) : Prop :=
  match task.placement.price, dbId with
  | .inventory _, none => True
  | .paid _, none =>
    s.sessions task.placement.ownerId = some task.session ∧
      (s.players task.placement.ownerId).any PlacementPlayer.ready = true
  | .paid _, some id =>
    s.sessions task.placement.ownerId = some task.session ∧
      ∀ e b, task.checkedAt ≤ e → s.entities e = some b → Apart config b.view (task.placement.view id)
  | .inventory item, some id =>
    s.sessions task.placement.ownerId = some task.session ∧
      (∃ p, s.players task.placement.ownerId = some p ∧ 0 < p.items item) ∧
      ∀ e b, task.checkedAt ≤ e → s.entities e = some b → Apart config b.view (task.placement.view id)

def Fair (config : BuildingsConfig) (s : PlacementWorld) : PlacementEvent → Prop
  | .complete _ => ∀ task dbId commands, s.commands = (task, dbId) :: commands → s.CompletesFair config task dbId
  | _ => True

theorem afterUse_pos {count : Int} (h : 0 < count) : count - afterUse count = 1 := by
  unfold afterUse
  split
  · omega
  · omega

theorem PlacementInv.applyCompletion (hs : s.PlacementInv config) (hcommands : s.commands = (task, dbId) :: commands)
    (hfair : s.CompletesFair config task dbId) :
    (PlacementWorld.applyCompletion config defs { s with commands := commands } task dbId journal).PlacementInv
      config := by
  have hwaiting := hs.waiting task (mem_inFlight_of_commands hcommands)
  have hdebited := hwaiting.debited
  unfold CompletesFair at hfair
  unfold PlacementWorld.applyCompletion
  cases hprice : task.placement.price with
  | paid cost =>
      rw [hprice] at hfair hdebited
      cases dbId with
      | none =>
          rw [if_neg (not_not.mpr hfair.1)]
          dsimp only
          rw [refund, if_pos hfair.2]
          refine hs.refused hcommands _ _ ?_ fun r hr => Function.update_of_ne hr _ _
          rw [Function.update_self, hdebited]
          exact Int.add_right_neg cost
      | some id =>
          rw [if_neg (not_not.mpr hfair.1)]
          refine hs.placed hcommands hfair.2 s.players s.debited ?_ fun _ _ => rfl
          rw [hdebited, hprice]
          rfl
  | inventory item =>
      rw [hprice] at hfair hdebited
      cases dbId with
      | none =>
          have hinv := hs.refused hcommands s.players s.debited (hdebited.trans rfl) fun _ _ => rfl
          split
          · exact hinv
          · exact hinv
      | some id =>
          obtain ⟨hsession, ⟨p, hp, hitems⟩, hclear⟩ := hfair
          rw [if_neg (not_not.mpr hsession)]
          have hplayer : (spawnBuildingRuntime config defs { s with commands := commands } task id journal).players
              task.placement.ownerId = some p := hp
          dsimp only
          rw [consumeItem, hplayer]
          refine hs.placed hcommands hclear _ _ ?_ fun r hr => Function.update_of_ne hr _ _
          rw [Function.update_self, afterUse_pos hitems, hprice]
          show s.debited task.request + 1 = 1
          rw [hdebited]
          rfl

theorem PlacementInv.complete (hs : s.PlacementInv config) (hfair : s.Fair config (.complete journal))
    (h : s.complete config defs journal = some t) : t.PlacementInv config := by
  unfold PlacementWorld.complete at h
  split at h
  case h_1 => cases h
  case h_2 task dbId commands hcommands =>
    obtain rfl := Option.some_inj.mp h
    exact hs.applyCompletion hcommands (hfair task dbId commands hcommands)

/-! ### The other steps -/

theorem PlacementInv.remove (hs : s.PlacementInv config) (h : s.remove entity = some t) : t.PlacementInv config := by
  simp only [PlacementWorld.remove, Option.bind_eq_bind, Option.bind_eq_some_iff, Option.some.injEq] at h
  obtain ⟨b, hb, index, hindex, rfl⟩ := h
  have hsound := hs.sound.removeBuilding hindex
  obtain ⟨-, rfl⟩ := BuildingIndex.removeBuilding_eq_some hindex
  have hkept : ∀ e c, Function.update s.entities entity none e = some c → e ≠ entity ∧ s.entities e = some c := by
    intro e c hc
    by_cases he : e = entity
    · simp [he] at hc
    · exact ⟨he, by simpa [he] using hc⟩
  constructor
  case sound => exact hsound
  case indexed =>
    intro e c hc
    obtain ⟨hne, hc⟩ := hkept e c hc
    refine (Function.update_of_ne ?_ _ _).trans (hs.indexed e c hc)
    exact (hs.apart e entity c b hc hb hne).origin_ne (hs.valid e c hc).2 (hs.valid entity b hb).2
  case valid => exact fun e c hc => hs.valid e c (hkept e c hc).2
  case apart =>
    exact fun e e' c c' hc hc' hne => hs.apart e e' c c' (hkept e c hc).2 (hkept e' c' hc').2 hne
  case nodup => exact hs.nodup
  case lt => exact hs.lt
  case waiting =>
    exact fun task h => (hs.waiting task h).congr rfl rfl rfl le_rfl (fun _ => rfl) fun e c _ hc => (hkept e c hc).2
  case unrecorded => exact hs.unrecorded
  case recorded => exact hs.recorded
  case settled =>
    intro request hlt hout
    obtain ⟨placement, h⟩ := hs.settled request hlt hout
    exact ⟨placement, h.congr rfl rfl rfl rfl le_rfl fun e c _ hc => (hkept e c hc).2⟩
  case unused => exact hs.unused

theorem PlacementInv.world {sessions : PlayerId → Option SessionId} {players : PlayerId → Option PlacementPlayer}
    {grid : CellGrid} (hs : s.PlacementInv config) (hwidth : grid.width = s.grid.width)
    (hheight : grid.height = s.grid.height) :
    PlacementInv config { s with sessions := sessions, players := players, grid := grid } := by
  have hgrid (q : Pos) : grid.validCoord q = s.grid.validCoord q := by
    simp [CellGrid.validCoord, hwidth, hheight]
  exact
    { sound := hs.sound
      indexed := hs.indexed
      valid := fun e b hb => ⟨(hgrid _).trans (hs.valid e b hb).1, (hs.valid e b hb).2⟩
      apart := hs.apart
      nodup := hs.nodup
      lt := hs.lt
      waiting := fun task h => (hs.waiting task h).congr rfl rfl rfl le_rfl hgrid fun _ _ _ => id
      unrecorded := hs.unrecorded
      recorded := hs.recorded
      settled := fun request hlt hout =>
        (hs.settled request hlt hout).imp fun _ h => h.congr rfl rfl rfl rfl le_rfl fun _ _ _ => id
      unused := hs.unused }

theorem PlacementInv.step {e : PlacementEvent} (hs : s.PlacementInv config) (hfair : s.Fair config e)
    (h : step config defs canPlaceOver s e = some t) : t.PlacementInv config := by
  cases e with
  | paid player typeCode => exact hs.requestPaid h
  | inventory player gatePassed gunAccess => exact hs.requestInventory h
  | insert i dbId => exact hs.insert h
  | complete journal => exact hs.complete hfair h
  | remove entity => exact hs.remove h
  | world sessions players grid =>
      simp only [PlacementWorld.step] at h
      split at h
      case isTrue hsize =>
        obtain rfl := Option.some_inj.mp h
        exact hs.world hsize.1 hsize.2
      case isFalse => cases h

end PlacementWorld

end OpenMines

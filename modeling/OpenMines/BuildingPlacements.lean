import OpenMines.BuildingPlacementRun
import OpenMines.Granular

namespace OpenMines

open Lib.Run Lib.Conservation

/-- What players get and lose elsewhere is not booked. -/
def PlacementEvent.isWorld : PlacementEvent → Bool
  | .world _ _ _ => true
  | _ => false

namespace PlacementWorld

variable {config : BuildingsConfig} {defs : CellDefs} {canPlaceOver : UInt8 → Bool} {s t : PlacementWorld}
  {task : PlacementTask} {dbId : Option Int32} {placement : BuildingPlacement} {request : RequestId}
  {player : PlayerId} {g : Goods} {p : PlacementPlayer} {amount : Int} {journal : WorldPos → Bool}

/-! ### Goods -/

def goodsOf (s : PlacementWorld) (player : PlayerId) (g : Goods) : Int :=
  match s.players player with
  | none => 0
  | some p => p.goods g

/-- What a request takes from the player, when its placement is his and paid with such goods. -/
def share (placement : Option BuildingPlacement) (player : PlayerId) (g : Goods) (amount : Int) : Int :=
  match placement with
  | none => 0
  | some placement => if placement.ownerId = player ∧ placement.price.goods = g then amount else 0

def spent (s : PlacementWorld) (player : PlayerId) (g : Goods) : Int :=
  ∑ r ∈ Finset.range s.nextRequest, share (s.requests r) player g (s.debited r)

/-- A player has as much less as his requests have taken more. -/
def Booked (s t : PlacementWorld) : Prop :=
  ∀ player g, t.goodsOf player g + t.spent player g = s.goodsOf player g + s.spent player g

theorem goods_take (h : Goods) : (p.take amount h).goods g = p.goods g - if h = g then amount else 0 := by
  cases h with
  | money => cases g <;> simp [PlacementPlayer.take, PlacementPlayer.goods]
  | item i =>
      cases g with
      | money => simp [PlacementPlayer.take, PlacementPlayer.goods]
      | item j =>
          by_cases hij : j = i
          · subst hij
            simp [PlacementPlayer.take, PlacementPlayer.goods]
          · simp [PlacementPlayer.take, PlacementPlayer.goods, hij, Ne.symm hij]

theorem goodsOf_book (request : RequestId) (hp : s.players placement.ownerId = some p) :
    (s.book request placement amount).goodsOf player g =
      s.goodsOf player g - share (some placement) player g amount := by
  by_cases hplayer : placement.ownerId = player
  · subst hplayer
    simp [goodsOf, book, hp, goods_take, share]
  · simp [goodsOf, book, Function.update_of_ne (Ne.symm hplayer), hplayer, share]

theorem share_add (player : PlayerId) (g : Goods) (m n : Int) :
    share (some placement) player g (m + n) = share (some placement) player g m + share (some placement) player g n := by
  simp only [share]
  split
  · rfl
  · rfl

theorem spent_book (hlt : request < s.nextRequest) (hrequest : s.requests request = some placement) :
    (s.book request placement amount).spent player g = s.spent player g + share (some placement) player g amount := by
  have hsum := sum_eq_of_eq_off (Finset.mem_range.mpr hlt)
    (f := fun r => share (s.requests r) player g (Function.update s.debited request (s.debited request + amount) r))
    (g := fun r => share (s.requests r) player g (s.debited r))
    fun r _ hr => by rw [Function.update_of_ne hr]
  refine hsum.trans ?_
  rw [Function.update_self, hrequest, share_add]
  show s.spent player g + _ = _
  omega

theorem booked_book (hp : s.players placement.ownerId = some p) (hlt : request < s.nextRequest)
    (hrequest : s.requests request = some placement) : Booked s (s.book request placement amount) := by
  intro player g
  rw [goodsOf_book request hp, spent_book hlt hrequest]
  omega

theorem spent_startTask {session : SessionId} : (s.startTask session placement).spent player g =
    s.spent player g + share (some placement) player g (s.debited s.nextRequest) := by
  have hsplit := Finset.sum_range_succ (fun r => share (Function.update s.requests s.nextRequest (some placement) r)
    player g (s.debited r)) s.nextRequest
  refine hsplit.trans ?_
  rw [Function.update_self]
  refine congrArg (· + _) (Finset.sum_congr rfl fun r hr => ?_)
  rw [Function.update_of_ne (Nat.ne_of_lt (Finset.mem_range.mp hr))]

theorem spent_book_new : (s.book s.nextRequest placement amount).spent player g = s.spent player g := by
  refine Finset.sum_congr rfl fun r hr => ?_
  show share (s.requests r) player g (Function.update s.debited s.nextRequest _ r) = _
  rw [Function.update_of_ne (Nat.ne_of_lt (Finset.mem_range.mp hr))]

theorem PlacementInv.booked_paid {typeCode : String} (hs : s.PlacementInv config)
    (h : s.requestPaid config defs player typeCode = some t) : Booked s t := by
  obtain ⟨session, -, rfl⟩ := Option.map_eq_some_iff.mp h
  cases hprepare : s.preparePaid config defs player typeCode with
  | none => exact fun _ _ => rfl
  | some placement =>
      intro q g
      obtain ⟨p, hp⟩ : ∃ p, s.players placement.ownerId = some p := by
        rw [(preparePaid_eq_some hprepare).2.2]
        simp only [preparePaid, Option.bind_eq_bind, Option.bind_eq_some_iff] at hprepare
        obtain ⟨-, -, -, -, p, hp, -⟩ := hprepare
        exact ⟨p, hp⟩
      have hdebited : (s.book s.nextRequest placement placement.price.amount).debited s.nextRequest =
          placement.price.amount := by
        show Function.update s.debited s.nextRequest (s.debited s.nextRequest + _) s.nextRequest = _
        rw [Function.update_self, (hs.unused s.nextRequest le_rfl).2.2, Int.zero_add]
      have hspent : ((s.book s.nextRequest placement placement.price.amount).startTask session placement).spent q g =
          s.spent q g + share (some placement) q g placement.price.amount := by
        refine spent_startTask.trans ?_
        rw [spent_book_new]
        exact congrArg (fun n => s.spent q g + share (some placement) q g n) hdebited
      have hgoods : ((s.book s.nextRequest placement placement.price.amount).startTask session placement).goodsOf q g =
          s.goodsOf q g - share (some placement) q g placement.price.amount :=
        goodsOf_book s.nextRequest hp
      dsimp only
      rw [hspent, hgoods]
      omega

theorem PlacementInv.booked_inventory {gatePassed gunAccess : Bool} (hs : s.PlacementInv config)
    (h : s.requestInventory config defs canPlaceOver player gatePassed gunAccess = some t) : Booked s t := by
  obtain ⟨session, -, rfl⟩ := Option.map_eq_some_iff.mp h
  cases hprepare : s.prepareInventory config defs canPlaceOver player gatePassed gunAccess with
  | none => exact fun _ _ => rfl
  | some placement =>
      intro q g
      dsimp only
      rw [spent_startTask, (hs.unused s.nextRequest le_rfl).2.2, share, ite_self, Int.add_zero]
      rfl

theorem booked_insert {i : Nat} (h : s.insert i dbId = some t) : Booked s t := by
  simp only [PlacementWorld.insert, Option.bind_eq_bind, Option.bind_eq_some_iff] at h
  obtain ⟨task, -, h⟩ := h
  cases dbId with
  | none =>
      obtain rfl := Option.some_inj.mp h
      exact fun _ _ => rfl
  | some id =>
      simp only [Option.bind_eq_some_iff, Option.some.injEq] at h
      obtain ⟨-, -, rfl⟩ := h
      exact fun _ _ => rfl

theorem booked_applyCompletion (hlt : task.request < s.nextRequest)
    (hrequest : s.requests task.request = some task.placement) :
    Booked s (s.applyCompletion config defs task dbId journal) := by
  unfold applyCompletion
  split
  case isTrue => exact fun _ _ => rfl
  case isFalse =>
    split
    case h_1 => exact fun _ _ => rfl
    case h_2 cost _ =>
      rw [refund]
      split
      case isTrue hready =>
        obtain ⟨p, hp, -⟩ := (Option.any_eq_true _ _).mp hready
        exact booked_book hp hlt hrequest
      case isFalse => exact fun _ _ => rfl
    case h_3 item id _ =>
      unfold consumeItem
      split
      case h_1 => exact fun _ _ => rfl
      case h_2 p hp =>
        exact booked_book (s := s.spawnBuildingRuntime config defs task id journal) hp hlt hrequest
    case h_4 => exact fun _ _ => rfl

theorem PlacementInv.booked_complete (hs : s.PlacementInv config) (h : s.complete config defs journal = some t) :
    Booked s t := by
  unfold PlacementWorld.complete at h
  split at h
  case h_1 => cases h
  case h_2 task dbId commands hcommands =>
    obtain rfl := Option.some_inj.mp h
    have hmem := mem_inFlight_of_commands hcommands
    exact booked_applyCompletion (s := { s with commands := commands }) (hs.lt task hmem)
      (hs.waiting task hmem).requests

theorem booked_remove {entity : EntityId} (h : s.remove entity = some t) : Booked s t := by
  simp only [PlacementWorld.remove, Option.bind_eq_bind, Option.bind_eq_some_iff, Option.some.injEq] at h
  obtain ⟨b, -, index, -, rfl⟩ := h
  exact fun _ _ => rfl

/-! ### Runs -/

/-- No two buildings are in each other's way, the indexes have the buildings that stand, and every
request that is over has its building for its price, or has neither. -/
structure Consistent (config : BuildingsConfig) (t : PlacementWorld) : Prop where
  apart : ∀ e e' b b', t.entities e = some b → t.entities e' = some b' → e ≠ e' →
    b.view.origin ≠ b'.view.origin ∧ Apart config b.view b'.view
  byOrigin : ∀ p e, t.byOrigin p = some e ↔ ∃ b, t.entities e = some b ∧ b.view.origin = p
  chunk : ∀ c e, e ∈ t.chunkBuildings c ↔ ∃ b, t.entities e = some b ∧ chunkPos b.view.origin = c
  settled : ∀ request, request < t.nextRequest → request ∉ t.inFlight.map PlacementTask.request →
    ∃ placement, t.Settled request placement
  pending : ∀ task ∈ t.inFlight, t.built task.request = [] ∧
    t.debited task.request = task.placement.price.prepaid

theorem PlacementInv.consistent (hs : t.PlacementInv config) : t.Consistent config where
  apart e e' b b' hb hb' hne :=
    ⟨(hs.apart e e' b b' hb hb' hne).origin_ne (hs.valid e b hb).2 (hs.valid e' b' hb').2,
      hs.apart e e' b b' hb hb' hne⟩
  byOrigin p e := by
    constructor
    · exact hs.sound.byOrigin p e
    · rintro ⟨b, hb, rfl⟩
      exact hs.indexed e b hb
  chunk := hs.sound.chunk
  settled := hs.settled
  pending task h := ⟨(hs.waiting task h).built, (hs.waiting task h).debited⟩

theorem PlacementInv.booked {e : PlacementEvent} (hs : s.PlacementInv config) (he : e.isWorld = false)
    (h : PlacementWorld.step config defs canPlaceOver s e = some t) : Booked s t := by
  cases e with
  | paid player typeCode => exact hs.booked_paid h
  | inventory player gatePassed gunAccess => exact hs.booked_inventory h
  | insert i dbId => exact booked_insert h
  | complete journal => exact hs.booked_complete h
  | remove entity => exact booked_remove h
  | world sessions players grid => cases he

/-- Two players on an empty field, face to the same site. -/
def openField : PlacementWorld where
  entities := fun _ => none
  byOrigin := fun _ => none
  chunkBuildings := fun _ => []
  nextEntity := 0
  grid := ⟨64, 64, fun _ => 0, fun _ => emptyCell, fun _ => 0⟩
  sessions := fun player => if player = 1 then some 1 else if player = 2 then some 2 else none
  players := fun player =>
    if player = 1 ∨ player = 2 then some ⟨(20, 20), 3, none, 10000, -1, fun _ => 0, true⟩ else none
  rows := []
  usedIds := []
  tasks := []
  commands := []
  nextRequest := 0
  requests := fun _ => none
  debited := fun _ => 0
  recorded := fun _ => none
  built := fun _ => []

theorem openField_start : openField.Start buildingsConfig where
  sound := ⟨fun _ _ => rfl, nofun, by simp [openField], fun _ => List.nodup_nil⟩
  indexed _ _ h := by cases h
  valid _ _ h := by cases h
  apart _ _ _ _ h := by cases h
  tasks := rfl
  commands := rfl
  nextRequest := rfl
  unused := fun _ => ⟨rfl, rfl, rfl⟩

/-- A step of the game with the files of the repository. -/
abbrev stepOnField : PlacementWorld → PlacementEvent → Option PlacementWorld :=
  PlacementWorld.step buildingsConfig CellDefs.cellsJson (fun cell => cell = emptyCell)

end PlacementWorld

end OpenMines

import OpenMines.StorageTransfers

namespace OpenMines

open Lib.Text

inductive StoredGood
  | money
  | crystals (color : Fin 6)
  deriving DecidableEq

def PlayerStats.amount (stats : PlayerStats) : StoredGood → Int
  | .money => stats.money
  | .crystals color => stats.crystals color

def BuildingStorage.amount (storage : BuildingStorage) : StoredGood → Int
  | .money => storage.money
  | .crystals color => storage.crystals color

/-- An amount that an `i64` has, and that nobody owes. -/
def Owned (n : Int) : Prop := 0 ≤ n ∧ n ≤ i64Max

theorem owned_zero : Owned 0 := ⟨le_rfl, by decide⟩

/-- The player's part stops at the greatest `i64`. -/
def StorageRequest.saturates : StorageRequest → Bool
  | .transfer _ => false
  | .withdrawal .. => true
  | .profit _ => true

namespace GuiState

variable (s : GuiState)

def carried (player : PlayerId) (g : StoredGood) : Int :=
  ((s.players player).bind GuiPlayer.stats).elim 0 fun stats => stats.amount g

def stored (c : WorldPos) (g : StoredGood) : Int :=
  ((s.buildings c).bind Building.storage).elim 0 fun storage => storage.amount g

structure Owning : Prop where
  carried : ∀ player g, Owned (s.carried player g)
  stored : ∀ c g, Owned (s.stored c g)

/-- The goods of the player and of the building are the same together; `saturates` when the player's part stops
at the greatest `i64`. -/
structure Conserves (player : PlayerId) (place : Option WorldPos) (saturates : Bool) (t : GuiState) : Prop where
  players : ∀ other, other ≠ player → t.players other = s.players other
  buildings : ∀ c, some c ≠ place → t.buildings c = s.buildings c
  total : ∀ c ∈ place, ∀ g, (saturates = true → s.carried player g + s.stored c g ≤ i64Max) →
    t.carried player g + t.stored c g = s.carried player g + s.stored c g
  owning : t.Owning

variable {s} {player : PlayerId} {c : WorldPos} {b : Building} {storage storage' : BuildingStorage} {p : GuiPlayer}
  {stats stats' : PlayerStats} {saturates : Bool}

theorem conserves_self (hs : s.Owning) (player : PlayerId) (place : Option WorldPos) (saturates : Bool) :
    s.Conserves player place saturates s where
  players _ _ := rfl
  buildings _ _ := rfl
  total _ _ _ _ := rfl
  owning := hs

theorem carried_eq (hp : s.players player = some p) (hstats : p.stats = some stats) (g : StoredGood) :
    s.carried player g = stats.amount g := by
  rw [carried, hp, Option.bind_some, hstats, Option.elim_some]

theorem stored_eq (hb : s.buildings c = some b) (hstorage : b.storage = some storage) (g : StoredGood) :
    s.stored c g = storage.amount g := by
  rw [stored, hb, Option.bind_some, hstorage, Option.elim_some]

/-- What a player and a building exchange. -/
theorem conserves_exchange (hs : s.Owning) (hp : s.players player = some p) (hstats : p.stats = some stats)
    (hb : s.buildings c = some b) (hstorage : b.storage = some storage)
    (howned : ∀ g, Owned (stats'.amount g) ∧ Owned (storage'.amount g))
    (htotal : ∀ g, (saturates = true → stats.amount g + storage.amount g ≤ i64Max) →
      stats'.amount g + storage'.amount g = stats.amount g + storage.amount g) :
    s.Conserves player (some c) saturates
      ((s.setStorage c b storage').setPlayer player { p with stats := some stats' }) := by
  have hp' : ((s.setStorage c b storage').setPlayer player { p with stats := some stats' }).players player =
      some { p with stats := some stats' } := Function.update_self ..
  have hb' : ((s.setStorage c b storage').setPlayer player { p with stats := some stats' }).buildings c =
      some { b with storage := some storage' } := Function.update_self ..
  have hplayers : ∀ other, other ≠ player →
      ((s.setStorage c b storage').setPlayer player { p with stats := some stats' }).players other =
        s.players other := fun other hother => Function.update_of_ne hother ..
  have hbuildings : ∀ d, d ≠ c →
      ((s.setStorage c b storage').setPlayer player { p with stats := some stats' }).buildings d =
        s.buildings d := fun d hd => Function.update_of_ne hd ..
  constructor
  case players => exact hplayers
  case buildings => exact fun d hd => hbuildings d fun heq => hd (congrArg some heq)
  case total =>
    intro d hd g hfits
    obtain rfl := Option.some.inj hd
    rw [carried_eq hp hstats, stored_eq hb hstorage] at hfits ⊢
    rw [carried_eq hp' rfl, stored_eq hb' rfl]
    exact htotal g hfits
  case owning =>
    constructor
    case carried =>
      intro other g
      by_cases hother : other = player
      · rw [hother, carried_eq hp' rfl]
        exact (howned g).1
      · rw [carried, hplayers other hother]
        exact hs.carried other g
    case stored =>
      intro d g
      by_cases hd : d = c
      · rw [hd, stored_eq hb' rfl]
        exact (howned g).2
      · rw [stored, hbuildings d hd]
        exact hs.stored d g

/-- The sum and the difference do not wrap, or what is left is negative. -/
theorem wrapI64_left {m n r : Int} (hm : Owned m) (hn : Owned n) (hr : Owned r)
    (hleft : 0 ≤ wrapI64 (wrapI64 (m + n) - r)) :
    wrapI64 (wrapI64 (m + n) - r) = m + n - r ∧ Owned (m + n - r) := by
  have hmax : i64Max = 9223372036854775807 := rfl
  unfold Owned at hm hn hr ⊢
  rw [wrapI64, wrapI64, Int.bmod_sub_bmod] at hleft ⊢
  rw [Int.bmod_def] at hleft ⊢
  split at hleft <;> split <;> omega

theorem owned_saturatingAdd {m n : Int} (hm : Owned m) (hn : Owned n) :
    Owned (saturatingAdd m n) ∧ (m + n ≤ i64Max → saturatingAdd m n = m + n) := by
  have hmax : i64Max = 9223372036854775807 := rfl
  have hmin : i64Min = -9223372036854775808 := rfl
  unfold Owned at hm hn ⊢
  rw [saturatingAdd, saturate]
  split <;> omega

theorem parseI64_le {text : String} {n : Int} (h : parseI64 text = some n) : n ≤ i64Max := by
  rw [parseI64, parseInt] at h
  obtain ⟨-, hrange⟩ := Option.filter_eq_some_iff.mp h
  exact (of_decide_eq_true hrange).2

theorem requested_le {payload : String} {requested : Crystals} (h : parseAmounts payload = some requested)
    (i : Fin 6) : requested i ≤ i64Max := by
  have hmem : some (requested i) ∈ (splitOn payload ':').map parseI64 := by
    rw [parseAmounts] at h
    split at h
    · rename_i hparts
      cases h
      rw [hparts]
      revert i
      simp [Fin.forall_fin_succ]
    · cases h
  obtain ⟨text, -, htext⟩ := List.mem_map.mp hmem
  exact parseI64_le htext

theorem conserves_applyTransfer (hs : s.Owning) {plan : TransferPlan} {payload : String}
    (hrequested : parseAmounts payload = some plan.requested) (hp : s.players player = some plan.player)
    (hstats : plan.player.stats = some plan.stats) (hb : s.buildings plan.place = some plan.building)
    (hstorage : plan.building.storage = some plan.storage) (haccepted : plan.accepted) :
    s.Conserves player (some plan.place) false (s.applyTransfer player plan) := by
  have hcarried : ∀ g, Owned (plan.stats.amount g) := fun g => carried_eq hp hstats g ▸ hs.carried player g
  have hstored : ∀ g, Owned (plan.storage.amount g) := fun g => stored_eq hb hstorage g ▸ hs.stored plan.place g
  have hkept : ∀ i, Owned (plan.requested i) := fun i => ⟨(haccepted i).1, requested_le hrequested i⟩
  have hleft : ∀ i, plan.left i = plan.stats.crystals i + plan.storage.crystals i - plan.requested i ∧
      Owned (plan.stats.crystals i + plan.storage.crystals i - plan.requested i) := fun i =>
    wrapI64_left (hcarried (.crystals i)) (hstored (.crystals i)) (hkept i) (haccepted i).2
  refine conserves_exchange hs hp hstats hb hstorage (fun g => ?_) fun g _ => ?_
  · cases g with
    | money => exact ⟨hcarried .money, hstored .money⟩
    | crystals i =>
        refine ⟨?_, hkept i⟩
        show Owned (plan.left i)
        rw [(hleft i).1]
        exact (hleft i).2
  · cases g with
    | money => rfl
    | crystals i =>
        show plan.left i + plan.requested i = _
        rw [(hleft i).1, Int.sub_add_cancel]
        rfl

theorem conserves_taken (hs : s.Owning) (hp : s.players player = some p) (hstats : p.stats = some stats)
    (hb : s.buildings c = some b) (hstorage : b.storage = some storage) (crystals : Bool) :
    s.Conserves player (some c) true ((s.setStorage c b (taken storage crystals)).setPlayer player
      { p with stats := some (credited stats storage crystals) }) := by
  have hcarried : ∀ g, Owned (stats.amount g) := fun g => carried_eq hp hstats g ▸ hs.carried player g
  have hstored : ∀ g, Owned (storage.amount g) := fun g => stored_eq hb hstorage g ▸ hs.stored c g
  -- where nothing is taken, nothing of the kind was stored
  have hcredit : ∀ g, (taken storage crystals).amount g = storage.amount g ∧
        (credited stats storage crystals).amount g = stats.amount g ∨
      (taken storage crystals).amount g = 0 ∧
        (credited stats storage crystals).amount g = saturatingAdd (stats.amount g) (storage.amount g) := by
    intro g
    cases crystals with
    | false =>
        by_cases hmoney : 0 < storage.money
        · rw [credited, if_neg Bool.false_ne_true, if_pos hmoney]
          cases g with
          | money => exact .inr ⟨rfl, rfl⟩
          | crystals i => exact .inl ⟨rfl, rfl⟩
        · rw [credited, if_neg Bool.false_ne_true, if_neg hmoney]
          have hzero : storage.money = 0 := le_antisymm (not_lt.mp hmoney) (hstored .money).1
          cases g with
          | money => exact .inl ⟨hzero.symm, rfl⟩
          | crystals i => exact .inl ⟨rfl, rfl⟩
    | true =>
        by_cases hany : ∃ i, 0 < storage.crystals i
        · rw [credited, if_pos rfl, if_pos hany]
          cases g with
          | money => exact .inl ⟨rfl, rfl⟩
          | crystals i => exact .inr ⟨rfl, rfl⟩
        · rw [credited, if_pos rfl, if_neg hany]
          cases g with
          | money => exact .inl ⟨rfl, rfl⟩
          | crystals i =>
              have hzero : storage.crystals i = 0 :=
                le_antisymm (not_lt.mp fun h => hany ⟨i, h⟩) (hstored (.crystals i)).1
              exact .inl ⟨hzero.symm, rfl⟩
  refine conserves_exchange hs hp hstats hb hstorage (fun g => ?_) fun g hfits => ?_
  · rcases hcredit g with ⟨htaken, hcredited⟩ | ⟨htaken, hcredited⟩
    · rw [htaken, hcredited]
      exact ⟨hcarried g, hstored g⟩
    · rw [htaken, hcredited]
      exact ⟨(owned_saturatingAdd (hcarried g) (hstored g)).1, owned_zero⟩
  · rcases hcredit g with ⟨htaken, hcredited⟩ | ⟨htaken, hcredited⟩
    · rw [htaken, hcredited]
    · rw [htaken, hcredited, (owned_saturatingAdd (hcarried g) (hstored g)).2 (hfits rfl), Int.add_zero]

theorem conserves_transfer (hs : s.Owning) (cells : BuildingCells) {payload : String} {t : GuiState}
    (h : s.transfer cells player payload = some t) : s.Conserves player (s.packWindow player) false t := by
  cases hplan : s.planTransfer cells player payload with
  | error exit =>
      rw [planTransfer_eq_error hplan] at h
      cases h
  | ok plan =>
      obtain ⟨hrequested, hplace, hp, hstats, hb, hstorage, -, htransfer⟩ := planTransfer_eq_ok hplan
      rw [htransfer] at h
      obtain ⟨haccepted, ht⟩ := Option.ite_none_right_eq_some.mp h
      obtain rfl := Option.some.inj ht
      rw [hplace]
      exact conserves_applyTransfer hs hrequested hp hstats hb hstorage haccepted

theorem conserves_withdrawal (hs : s.Owning) {coordinates : String} {crystals : Bool} {t : GuiState}
    (h : s.applyPackWithdrawal player coordinates crystals = some t) :
    s.Conserves player (parseCoordinates coordinates) true t := by
  obtain ⟨c, hc, -, p, hp, b, hb, storage, hstorage, stats, hstats, rfl⟩ := applyPackWithdrawal_eq_some.mp h
  rw [Option.mem_def.mp hc]
  exact conserves_taken hs hp hstats hb hstorage crystals

theorem conserves_profit (hs : s.Owning) {t : GuiState} (h : s.marketGetProfit player c = some t) :
    s.Conserves player (some c) true t := by
  cases hplan : s.planProfit player c with
  | error exit =>
      rw [marketGetProfit_eq_none hplan] at h
      cases h
  | ok plan =>
      obtain ⟨-, hready, hb, hstorage⟩ := planProfit_eq_ok hplan
      obtain ⟨⟨p, hp, hstats, -⟩, -⟩ := withdrawStateReady_iff.mp hready
      obtain ⟨stats, hstats⟩ := Option.isSome_iff_exists.mp hstats
      rw [marketGetProfit_of_plan hplan hp hstats] at h
      obtain rfl := Option.some.inj h
      exact conserves_taken hs hp hstats hb hstorage false

theorem EndsWith.conserves {result : GuiState × Except StorageExit Unit} {effect : Option GuiState}
    {place : Option WorldPos} (h : s.EndsWith result effect) (hs : s.Owning)
    (heffect : ∀ t, effect = some t → s.Conserves player place saturates t) :
    s.Conserves player place saturates result.1 ∧ ∀ exit, result.2 = .error exit → result.1 = s := by
  cases effect with
  | none =>
      obtain ⟨exit, rfl⟩ := h
      exact ⟨conserves_self hs player place saturates, fun _ _ => rfl⟩
  | some t =>
      obtain rfl : result = (t, .ok ()) := h
      refine ⟨heffect t rfl, fun exit hexit => ?_⟩
      cases hexit

/-- A request about a storage moves goods between the player and the building, or changes nothing. -/
theorem storages_conserve (cells : BuildingCells) (hs : s.Owning) (player : PlayerId) (request : StorageRequest) :
    s.Conserves player (s.storagePlace player request) request.saturates (s.handleStorage cells player request).1 ∧
      ∀ exit, (s.handleStorage cells player request).2 = .error exit →
        (s.handleStorage cells player request).1 = s := by
  cases request with
  | transfer payload => exact (transferInTick_endsWith payload).conserves hs fun t ht => conserves_transfer hs cells ht
  | withdrawal coordinates crystals =>
      exact (withdrawInTick_endsWith coordinates crystals).conserves hs fun t ht => conserves_withdrawal hs ht
  | profit c => exact (profitInTick_endsWith c).conserves hs fun t ht => conserves_profit hs ht

/-- A teleport with some money in it, and a player with as much as there can be. -/
def richPlayer (money : Int) : GuiState where
  players := fun player => if player = 1 then some ⟨(10, 10), some ⟨money, fun _ => 0, none⟩, true, none⟩ else none
  buildings := fun c =>
    if c = (10, 10) then
      some ⟨⟨5, .teleport, 10, 10, 1, 0, 0, 10000, 1000, 1000⟩, false, some ⟨777, fun _ => 0⟩, true⟩
    else none

theorem owning_richPlayer {money : Int} (h : Owned money) : (richPlayer money).Owning := by
  constructor
  case carried =>
    intro player g
    by_cases hplayer : player = 1
    · rw [carried, richPlayer]
      dsimp only
      rw [if_pos hplayer]
      cases g with
      | money => exact h
      | crystals i => exact owned_zero
    · rw [carried, richPlayer]
      dsimp only
      rw [if_neg hplayer]
      exact owned_zero
  case stored =>
    intro c g
    by_cases hc : c = (10, 10)
    · rw [stored, richPlayer]
      dsimp only
      rw [if_pos hc]
      cases g with
      | money => exact ⟨by decide, by decide⟩
      | crystals i => exact owned_zero
    · rw [stored, richPlayer]
      dsimp only
      rw [if_neg hc]
      exact owned_zero

theorem storages_conserve_poorPlayer :
    ((richPlayer 0).handleStorage teleportCells 1 (.withdrawal "10:10" false)).1.carried 1 .money = 777 ∧
      (richPlayer 0).Conserves 1 ((richPlayer 0).storagePlace 1 (.withdrawal "10:10" false)) true
        ((richPlayer 0).handleStorage teleportCells 1 (.withdrawal "10:10" false)).1 :=
  ⟨by decide,
    (storages_conserve teleportCells (owning_richPlayer owned_zero) 1 (.withdrawal "10:10" false)).1⟩

/-- The money of a storage is lost to a player who has the most that an `i64` holds. -/
theorem money_lost_richPlayer : (richPlayer i64Max).Owning ∧
    ((richPlayer i64Max).handleStorage teleportCells 1 (.withdrawal "10:10" false)).2.isOk = true ∧
      ((richPlayer i64Max).handleStorage teleportCells 1 (.withdrawal "10:10" false)).1.carried 1 .money +
          ((richPlayer i64Max).handleStorage teleportCells 1 (.withdrawal "10:10" false)).1.stored (10, 10) .money ≠
        (richPlayer i64Max).carried 1 .money + (richPlayer i64Max).stored (10, 10) .money :=
  ⟨owning_richPlayer ⟨by decide, le_rfl⟩, by decide, by decide⟩

end GuiState

end OpenMines

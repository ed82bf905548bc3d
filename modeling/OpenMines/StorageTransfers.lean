import OpenMines.Lib.Exits
import OpenMines.Withdrawal

namespace OpenMines

open Lib.Exits Lib.Text

/-- How a handler of a storage ends before it is done. -/
inductive StorageExit
  | ignored
  | actionError
  | stateError
  | panicked
  deriving DecidableEq

inductive StorageRequest
  | transfer (payload : String)
  | withdrawal (coordinates : String) (crystals : Bool)
  | profit (c : WorldPos)

/-- What was found before anything is written. -/
structure StoragePlan where
  place : WorldPos
  building : Building
  storage : BuildingStorage

structure TransferPlan extends StoragePlan where
  player : GuiPlayer
  stats : PlayerStats
  requested : Crystals

def TransferPlan.left (plan : TransferPlan) (i : Fin 6) : Int :=
  wrapI64 (wrapI64 (plan.stats.crystals i + plan.storage.crystals i) - plan.requested i)

def TransferPlan.accepted (plan : TransferPlan) : Prop := ∀ i, 0 ≤ plan.requested i ∧ 0 ≤ plan.left i

instance (plan : TransferPlan) : Decidable plan.accepted := inferInstanceAs (Decidable (∀ _, _))

/-- There is something to take. -/
def BuildingStorage.gives (storage : BuildingStorage) (crystals : Bool) : Bool :=
  if crystals then ∃ i, 0 < storage.crystals i else 0 < storage.money

/-- `StorageGuiView`: what there is of each colour, and what of it is stored. -/
structure StorageGuiView where
  place : WorldPos
  crystalLines : Fin 6 → Int × Int

namespace GuiState

variable (cells : BuildingCells) (s : GuiState)

def prepareStorageView (player : PlayerId) (c : WorldPos) : Option StorageGuiView := do
  let view ← s.getPackAt c
  guard (view.packType = .storage)
  let p ← s.players player
  let stats ← p.stats
  guard (validatePackAccess cells view p.pos (stats.clanId.getD 0) player = .ok ())
  let b ← s.buildings c
  let storage ← b.storage
  some ⟨c, fun i => (wrapI64 (stats.crystals i + storage.crystals i), storage.crystals i)⟩

def planTransfer (player : PlayerId) (payload : String) : Except StorageExit TransferPlan := do
  let requested ← orExit (parseAmounts payload) .ignored
  let c ← orExit (s.packWindow player) .ignored
  let view ← orExit (s.getPackAt c) .ignored
  exitUnless (view.packType = .storage) .ignored
  let p ← orExit (s.players player) .ignored
  let stats ← orExit p.stats .ignored
  exitUnless (validatePackAccess cells view p.pos (stats.clanId.getD 0) player = .ok ()) .ignored
  exitUnless (s.withdrawStateReady player c) .stateError
  let b ← orExit (s.buildings c) .stateError
  exitUnless b.hasFlags .stateError
  let storage ← orExit b.storage .panicked
  return ⟨⟨c, b, storage⟩, p, stats, requested⟩

def applyTransfer (player : PlayerId) (plan : TransferPlan) : GuiState :=
  (s.setStorage plan.place plan.building { plan.storage with crystals := plan.requested }).setPlayer player
    { plan.player with stats := some { plan.stats with crystals := plan.left } }

/-- `storage::transfer`: the state after it, and how it ends. -/
def transferInTick (player : PlayerId) (payload : String) : GuiState × Except StorageExit Unit :=
  match s.planTransfer cells player payload with
  | .error exit => (s, .error exit)
  | .ok plan =>
    if plan.accepted then
      let t := s.applyTransfer player plan
      (t, exitUnless (t.prepareStorageView cells player plan.place).isSome .stateError)
    else (s, .error .ignored)

/-- The player gets what was taken out of the storage, when there was something; nothing when the player
cannot get it. -/
def payOut (player : PlayerId) (storage : BuildingStorage) (crystals : Bool) : Option GuiState :=
  if storage.gives crystals then do
    let p ← s.players player
    let stats ← p.stats
    some (s.setPlayer player { p with stats := some (credited stats storage crystals) })
  else some s

def planWithdrawal (player : PlayerId) (coordinates : String) : Except StorageExit StoragePlan := do
  let c ← orExit (parseCoordinates coordinates) .actionError
  exitUnless (s.withdrawStateReady player c) .stateError
  let _ ← orExit (s.players player) .stateError
  let b ← orExit (s.buildings c) .stateError
  let storage ← orExit b.storage .stateError
  return ⟨c, b, storage⟩

/-- `apply_pack_withdrawal`: the storage is emptied before the player gets what was in it. -/
def withdrawInTick (player : PlayerId) (coordinates : String) (crystals : Bool) : GuiState × Except StorageExit Unit :=
  match s.planWithdrawal player coordinates with
  | .error exit => (s, .error exit)
  | .ok plan =>
    let emptied := s.setStorage plan.place plan.building (taken plan.storage crystals)
    match emptied.payOut player plan.storage crystals with
    | none => (emptied, .error .stateError)
    | some t => (t, exitUnless plan.building.hasFlags .stateError)

def planProfit (player : PlayerId) (c : WorldPos) : Except StorageExit StoragePlan := do
  let view ← orExit (s.getPackAt c) .ignored
  exitUnless (view.packType = .market ∧ view.ownerId = player) .ignored
  exitUnless (s.playerReady player) .stateError
  let b ← orExit (s.buildings c) .stateError
  exitUnless b.hasFlags .stateError
  let storage ← orExit b.storage .panicked
  return ⟨c, b, storage⟩

/-- `apply_market_get_profit`; a player who cannot get the money is passed over. -/
def profitInTick (player : PlayerId) (c : WorldPos) : GuiState × Except StorageExit Unit :=
  match s.planProfit player c with
  | .error exit => (s, .error exit)
  | .ok plan =>
    let emptied := s.setStorage plan.place plan.building (taken plan.storage false)
    ((emptied.payOut player plan.storage false).getD emptied, .ok ())

def handleStorage (player : PlayerId) : StorageRequest → GuiState × Except StorageExit Unit
  | .transfer payload => s.transferInTick cells player payload
  | .withdrawal coordinates crystals => s.withdrawInTick player coordinates crystals
  | .profit c => s.profitInTick player c

/-- The place of the building that a request is about. -/
def storagePlace (player : PlayerId) : StorageRequest → Option WorldPos
  | .transfer _ => s.packWindow player
  | .withdrawal coordinates _ => parseCoordinates coordinates
  | .profit c => some c

variable {cells s} {t : GuiState} {player : PlayerId} {c : WorldPos} {b : Building} {storage : BuildingStorage}

section Plans

theorem planTransfer_eq_ok {payload : String} {plan : TransferPlan}
    (h : s.planTransfer cells player payload = .ok plan) :
    parseAmounts payload = some plan.requested ∧ s.packWindow player = some plan.place ∧
      s.players player = some plan.player ∧ plan.player.stats = some plan.stats ∧
      s.buildings plan.place = some plan.building ∧ plan.building.storage = some plan.storage ∧
      ((s.applyTransfer player plan).prepareStorageView cells player plan.place).isSome ∧
      s.transfer cells player payload = if plan.accepted then some (s.applyTransfer player plan) else none := by
  have hplan : (s.planTransfer cells player payload).toOption = some plan := by
    rw [h]
    rfl
  simp only [planTransfer, toOption_bind, toOption_orExit, toOption_exitUnless, Option.bind_eq_some_iff,
    Option.guard_eq_some', exists_const] at hplan
  obtain ⟨requested, hrequested, c, hc, view, hview, htype, p, hp, stats, hstats, haccess, hready, b, hb, -, storage,
    hstorage, hplan⟩ := hplan
  obtain rfl := Option.some.inj hplan
  refine ⟨hrequested, hc, hp, hstats, hb, hstorage, ?_, ?_⟩
  · obtain ⟨b', hb', hpending, rfl⟩ := getPackAt_eq_some.mp hview
    obtain rfl := Option.some.inj (hb.symm.trans hb')
    have hpack : (s.applyTransfer player ⟨⟨c, b, storage⟩, p, stats, requested⟩).getPackAt c = some b.view :=
      getPackAt_eq_some.mpr ⟨_, Function.update_self .., hpending, rfl⟩
    have hplayer : (s.applyTransfer player ⟨⟨c, b, storage⟩, p, stats, requested⟩).players player = some _ :=
      Function.update_self ..
    have hbuilding : (s.applyTransfer player ⟨⟨c, b, storage⟩, p, stats, requested⟩).buildings c = some _ :=
      Function.update_self ..
    simp only [prepareStorageView, hpack, hplayer, hbuilding, htype, haccess, Option.bind_eq_bind, Option.bind_some,
      guard_true]
    rfl
  simp only [transfer, hrequested, hc, hview, htype, hp, hstats, haccess, hready, hb, hstorage, Option.bind_eq_bind,
    Option.bind_some, guard_true]
  exact guard_bind_some TransferPlan.accepted ⟨⟨c, b, storage⟩, p, stats, requested⟩ _

theorem planTransfer_eq_error {payload : String} {exit : StorageExit}
    (h : s.planTransfer cells player payload = .error exit) : s.transfer cells player payload = none := by
  cases htransfer : s.transfer cells player payload with
  | none => rfl
  | some t =>
      have hplan : (s.planTransfer cells player payload).toOption = none := by
        rw [h]
        rfl
      simp only [transfer, Option.bind_eq_bind, Option.bind_eq_some_iff, Option.guard_eq_some', exists_const,
        Option.some.injEq] at htransfer
      obtain ⟨requested, hrequested, c, hc, view, hview, htype, p, hp, stats, hstats, haccess, hready, b, hb,
        storage, hstorage, -, -⟩ := htransfer
      obtain ⟨-, b', hb', -, hflags⟩ := withdrawStateReady_iff.mp hready
      obtain rfl := Option.some.inj (hb.symm.trans hb')
      simp only [planTransfer, toOption_bind, toOption_orExit, toOption_exitUnless, hrequested, hc, hview, htype,
        hp, hstats, haccess, hready, hb, hstorage, hflags, Option.bind_some, guard_true] at hplan
      cases hplan

theorem planWithdrawal_eq_ok {coordinates : String} {plan : StoragePlan}
    (h : s.planWithdrawal player coordinates = .ok plan) :
    parseCoordinates coordinates = some plan.place ∧ s.withdrawStateReady player plan.place = true ∧
      s.buildings plan.place = some plan.building ∧ plan.building.storage = some plan.storage := by
  have hplan : (s.planWithdrawal player coordinates).toOption = some plan := by
    rw [h]
    rfl
  simp only [planWithdrawal, toOption_bind, toOption_orExit, toOption_exitUnless, Option.bind_eq_some_iff,
    Option.guard_eq_some', exists_const] at hplan
  obtain ⟨c, hc, hready, -, -, b, hb, storage, hstorage, hplan⟩ := hplan
  obtain rfl := Option.some.inj hplan
  exact ⟨hc, hready, hb, hstorage⟩

theorem planProfit_eq_ok {plan : StoragePlan} (h : s.planProfit player c = .ok plan) :
    plan.place = c ∧ s.withdrawStateReady player c = true ∧ s.buildings c = some plan.building ∧
      plan.building.storage = some plan.storage := by
  have hplan : (s.planProfit player c).toOption = some plan := by
    rw [h]
    rfl
  simp only [planProfit, toOption_bind, toOption_orExit, toOption_exitUnless, Option.bind_eq_some_iff,
    Option.guard_eq_some', exists_const] at hplan
  obtain ⟨view, -, -, hready, b, hb, hflags, storage, hstorage, hplan⟩ := hplan
  obtain rfl := Option.some.inj hplan
  refine ⟨rfl, ?_, hb, hstorage⟩
  rw [withdrawStateReady, hready, hb]
  simp [hstorage, hflags]

theorem payOut_eq_some {p : GuiPlayer} {stats : PlayerStats} (hp : s.players player = some p)
    (hstats : p.stats = some stats) (storage : BuildingStorage) (crystals : Bool) :
    s.payOut player storage crystals =
      some (s.setPlayer player { p with stats := some (credited stats storage crystals) }) := by
  have hsame : s.setPlayer player { p with stats := some stats } = s := by
    have hp' : { p with stats := some stats } = p := by
      rw [← hstats]
    rw [hp', setPlayer, ← hp, Function.update_eq_self]
  rw [payOut, hp]
  split
  · rw [Option.bind_eq_bind, Option.bind_some, hstats]
    rfl
  · rename_i hnothing
    have hcredited : credited stats storage crystals = stats := by
      cases crystals with
      | false => exact if_neg fun h => hnothing (decide_eq_true h)
      | true => exact if_neg fun h => hnothing (decide_eq_true h)
    rw [hcredited, hsame]

theorem marketGetProfit_of_plan {plan : StoragePlan} {p : GuiPlayer} {stats : PlayerStats}
    (h : s.planProfit player c = .ok plan) (hp : s.players player = some p) (hstats : p.stats = some stats) :
    s.marketGetProfit player c = some ((s.setStorage c plan.building (taken plan.storage false)).setPlayer player
      { p with stats := some (credited stats plan.storage false) }) := by
  have hplan : (s.planProfit player c).toOption = some plan := by
    rw [h]
    rfl
  simp only [planProfit, toOption_bind, toOption_orExit, toOption_exitUnless, Option.bind_eq_some_iff,
    Option.guard_eq_some', exists_const] at hplan
  obtain ⟨view, hview, hmarket, hready, b, hb, hflags, storage, hstorage, hplan⟩ := hplan
  obtain rfl := Option.some.inj hplan
  simp only [marketGetProfit, hview, hmarket, hready, hb, hflags, hstorage, hp, hstats, Option.bind_eq_bind,
    Option.bind_some, and_self, guard_true]
  rfl

theorem marketGetProfit_eq_none {exit : StorageExit} (h : s.planProfit player c = .error exit) :
    s.marketGetProfit player c = none := by
  cases hprofit : s.marketGetProfit player c with
  | none => rfl
  | some t =>
      have hplan : (s.planProfit player c).toOption = none := by
        rw [h]
        rfl
      simp only [marketGetProfit, Option.bind_eq_bind, Option.bind_eq_some_iff, Option.guard_eq_some',
        exists_const] at hprofit
      obtain ⟨view, hview, hmarket, hready, b, hb, hflags, storage, hstorage, -⟩ := hprofit
      simp only [planProfit, toOption_bind, toOption_orExit, toOption_exitUnless, hview, hmarket, hready, hb, hflags,
        hstorage, Option.bind_some, and_self, guard_true] at hplan
      cases hplan

theorem applyPackWithdrawal_eq_none {coordinates : String} {crystals : Bool} {exit : StorageExit}
    (h : s.planWithdrawal player coordinates = .error exit) :
    s.applyPackWithdrawal player coordinates crystals = none := by
  cases hwithdrawal : s.applyPackWithdrawal player coordinates crystals with
  | none => rfl
  | some t =>
      have hplan : (s.planWithdrawal player coordinates).toOption = none := by
        rw [h]
        rfl
      obtain ⟨c, hc, hready, p, hp, b, hb, storage, hstorage, -⟩ := applyPackWithdrawal_eq_some.mp hwithdrawal
      simp only [planWithdrawal, toOption_bind, toOption_orExit, toOption_exitUnless, Option.mem_def.mp hc, hready,
        Option.mem_def.mp hp, Option.mem_def.mp hb, Option.mem_def.mp hstorage, Option.bind_some, guard_true] at hplan
      cases hplan

end Plans

section Handlers

/-- A handler ends well with what the request does, and changes nothing where it ends before. -/
def EndsWith (s : GuiState) (result : GuiState × Except StorageExit Unit) : Option GuiState → Prop
  | some t => result = (t, .ok ())
  | none => ∃ exit, result = (s, .error exit)

theorem transferInTick_endsWith (payload : String) :
    s.EndsWith (s.transferInTick cells player payload) (s.transfer cells player payload) := by
  rw [transferInTick]
  cases hplan : s.planTransfer cells player payload with
  | error exit =>
      rw [planTransfer_eq_error hplan]
      exact ⟨exit, rfl⟩
  | ok plan =>
      obtain ⟨-, -, -, -, -, -, hview, htransfer⟩ := planTransfer_eq_ok hplan
      rw [htransfer]
      by_cases haccepted : plan.accepted
      · rw [if_pos haccepted]
        simp only [if_pos haccepted, exitUnless, if_pos hview]
        rfl
      · rw [if_neg haccepted]
        simp only [if_neg haccepted]
        exact ⟨_, rfl⟩

theorem withdrawInTick_endsWith (coordinates : String) (crystals : Bool) :
    s.EndsWith (s.withdrawInTick player coordinates crystals)
      (s.applyPackWithdrawal player coordinates crystals) := by
  rw [withdrawInTick]
  cases hplan : s.planWithdrawal player coordinates with
  | error exit =>
      rw [applyPackWithdrawal_eq_none hplan]
      exact ⟨exit, rfl⟩
  | ok plan =>
      obtain ⟨hplace, hready, hb, hstorage⟩ := planWithdrawal_eq_ok hplan
      obtain ⟨⟨p, hp, hstats, -⟩, b, hb', -, hflags⟩ := withdrawStateReady_iff.mp hready
      obtain rfl := Option.some.inj (hb.symm.trans hb')
      obtain ⟨stats, hstats⟩ := Option.isSome_iff_exists.mp hstats
      rw [applyPackWithdrawal_eq_some.mpr
        ⟨plan.place, hplace, hready, p, hp, plan.building, hb, plan.storage, hstorage, stats, hstats, rfl⟩]
      have hemptied : (s.setStorage plan.place plan.building (taken plan.storage crystals)).players player = some p := hp
      dsimp only
      rw [payOut_eq_some hemptied hstats]
      simp only [exitUnless, if_pos hflags]
      rfl

theorem profitInTick_endsWith (c : WorldPos) :
    s.EndsWith (s.profitInTick player c) (s.marketGetProfit player c) := by
  rw [profitInTick]
  cases hplan : s.planProfit player c with
  | error exit =>
      rw [marketGetProfit_eq_none hplan]
      exact ⟨exit, rfl⟩
  | ok plan =>
      obtain ⟨rfl, hready, -, -⟩ := planProfit_eq_ok hplan
      obtain ⟨⟨p, hp, hstats, -⟩, -⟩ := withdrawStateReady_iff.mp hready
      obtain ⟨stats, hstats⟩ := Option.isSome_iff_exists.mp hstats
      have hemptied : (s.setStorage plan.place plan.building (taken plan.storage false)).players player = some p := hp
      rw [marketGetProfit_of_plan hplan hp hstats]
      dsimp only
      rw [payOut_eq_some hemptied hstats]
      rfl

end Handlers

end GuiState

end OpenMines

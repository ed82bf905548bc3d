import OpenMines.Crafting
import OpenMines.Lib.CheckedInt

namespace OpenMines

open Lib.CheckedInt Lib.Exits Lib.Text

/-- What is written at the keys of a list with distinct keys. -/
theorem foldl_update_apply {ι M C : Type} [DecidableEq ι] (key : C → ι) (f : M → C → M) (start : ι → M) {costs : List C}
    (hnodup : (costs.map key).Nodup) (i : ι) :
    costs.foldl (fun left cost => Function.update left (key cost) (f (left (key cost)) cost)) start i =
      (costs.find? fun cost => key cost = i).elim (start i) (f (start i)) := by
  induction costs generalizing start with
  | nil => rfl
  | cons cost costs ih =>
      obtain ⟨hnew, hnodup⟩ := List.nodup_cons.mp hnodup
      rw [List.foldl_cons, ih _ hnodup]
      by_cases hi : key cost = i
      · have hnone : (costs.find? fun cost => key cost = i) = none :=
          List.find?_eq_none.mpr fun other hother hkey =>
            hnew (List.mem_map.mpr ⟨other, hother, (of_decide_eq_true hkey).trans hi.symm⟩)
        subst hi
        rw [hnone, List.find?_cons_of_pos (p := fun other => key other = key cost) (decide_eq_true rfl)]
        exact Function.update_self ..
      · rw [List.find?_cons_of_neg (p := fun other => key other = i) (fun h => hi (of_decide_eq_true h)),
          Function.update_of_ne (Ne.symm hi)]

section Products

variable {a b : Int32}

theorem natAbs_mul_le (a b : Int32) : (a.toInt * b.toInt).natAbs ≤ 4611686018427387904 := by
  have ha := a.le_toInt
  have ha' := a.toInt_lt
  have hb := b.le_toInt
  have hb' := b.toInt_lt
  rw [Int.natAbs_mul]
  exact Nat.mul_le_mul (by omega : a.toInt.natAbs ≤ 2147483648) (by omega : b.toInt.natAbs ≤ 2147483648)

/-- A product of two `i32` does not wrap in an `i64`. -/
theorem toInt_mul_toInt64 (a b : Int32) : (a.toInt64 * b.toInt64).toInt = a.toInt * b.toInt := by
  have hsmall := natAbs_mul_le a b
  rw [Int64.toInt_mul, Int32.toInt_toInt64, Int32.toInt_toInt64]
  exact Int.bmod_eq_of_le (by omega) (by omega)

theorem toInt_sub_of_le {m n : Int64} (hn : 0 ≤ n.toInt) (h : ¬ m < n) : (m - n).toInt = m.toInt - n.toInt := by
  have hle : n.toInt ≤ m.toInt := not_lt.mp fun hlt => h (Int64.lt_iff_toInt_lt.mpr hlt)
  have hm := m.toInt_lt
  rw [Int64.toInt_sub]
  exact Int.bmod_eq_of_le (by omega) (by omega)

end Products

/-- What a recipe takes of a colour for one result. -/
def Recipe.crystalCost (recipe : Recipe) (i : Fin 6) : Int :=
  (recipe.costCrys.find? fun cost => cost.id = i).elim 0 fun cost => cost.num.toInt

def Recipe.itemCost (recipe : Recipe) (item : Int32) : Int :=
  (recipe.costRes.find? fun cost => cost.id = item).elim 0 fun cost => cost.num.toInt

/-- What the table of the recipes is like. -/
structure Recipe.Sane (recipe : Recipe) : Prop where
  colors : (recipe.costCrys.map CrystalCost.id).Nodup
  crystals : ∀ cost ∈ recipe.costCrys, 0 ≤ cost.num.toInt
  items : recipe.costRes = []

theorem recipes_sane : ∀ recipe ∈ recipes, recipe.Sane := by
  have htable : ∀ recipe ∈ recipes, (recipe.costCrys.map CrystalCost.id).Nodup ∧
      (∀ cost ∈ recipe.costCrys, 0 ≤ cost.num.toInt) ∧ recipe.costRes.isEmpty = true := by decide
  intro recipe hrecipe
  obtain ⟨hcolors, hcrystals, hitems⟩ := htable recipe hrecipe
  exact ⟨hcolors, hcrystals, List.isEmpty_iff.mp hitems⟩

theorem sane_of_recipeById {id : Int32} {recipe : Recipe} (h : recipeById id = some recipe) : recipe.Sane :=
  recipes_sane recipe (List.mem_of_find?_eq_some h)

theorem one_le_atLeastOne (num : Int32) : (atLeastOne num).toInt = max num.toInt 1 := by
  rw [atLeastOne]
  split
  · rename_i h
    have hlt : num.toInt < (1 : Int32).toInt := Int32.lt_iff_toInt_lt.mp h
    have hone : (1 : Int32).toInt = 1 := rfl
    omega
  · rename_i h
    have hle : ¬ num.toInt < (1 : Int32).toInt := fun hlt => h (Int32.lt_iff_toInt_lt.mpr hlt)
    have hone : (1 : Int32).toInt = 1 := rfl
    omega

namespace CraftPlayer

variable {recipe : Recipe} {num : Int32} {crystals : Fin 6 → Int64} {items : Int32 → Int32} {p : CraftPlayer}

/-- The crystals that are paid are what the recipe takes, as integers. -/
theorem toInt_payCrystals (hsane : recipe.Sane) (hnum : 0 ≤ num.toInt)
    (hafford : affordsCrystals num recipe.costCrys crystals = true) (i : Fin 6) :
    (payCrystals num recipe.costCrys crystals i).toInt =
      (crystals i).toInt - recipe.crystalCost i * num.toInt := by
  rw [payCrystals, foldl_update_apply CrystalCost.id (fun left cost => left - cost.num.toInt64 * num.toInt64) crystals
    hsane.colors, Recipe.crystalCost]
  cases hfind : recipe.costCrys.find? fun cost => cost.id = i with
  | none => simp
  | some cost =>
      have hmem := List.mem_of_find?_eq_some hfind
      have hid : cost.id = i := by simpa using List.find?_some hfind
      have henough := List.all_eq_true.mp hafford cost hmem
      rw [hid] at henough
      have hprod := toInt_mul_toInt64 cost.num num
      have hnonneg : 0 ≤ (cost.num.toInt64 * num.toInt64).toInt := by
        rw [hprod]
        exact Int.mul_nonneg (hsane.crystals cost hmem) hnum
      show (crystals i - cost.num.toInt64 * num.toInt64).toInt = _
      rw [toInt_sub_of_le hnonneg (of_decide_eq_true henough), hprod]
      rfl

theorem refund_pay (hsane : recipe.Sane) (p : CraftPlayer) : (p.pay recipe num).refund recipe num = p := by
  have hcrystals : ∀ crystals, refundCrystals num recipe.costCrys (payCrystals num recipe.costCrys crystals) = crystals := by
    intro crystals
    funext i
    rw [refundCrystals, foldl_update_apply CrystalCost.id (fun left cost => left + cost.num.toInt64 * num.toInt64) _
      hsane.colors, payCrystals, foldl_update_apply CrystalCost.id
      (fun left cost => left - cost.num.toInt64 * num.toInt64) crystals hsane.colors]
    cases recipe.costCrys.find? fun cost => cost.id = i with
    | none => rfl
    | some cost => exact Int64.sub_add_cancel ..
  obtain ⟨pos, crystals, hasFlags, items⟩ := p
  have hitems : ∀ items, refundItems num recipe.costRes (payItems num recipe.costRes items) = items := by
    intro items
    rw [hsane.items]
    rfl
  rw [pay, refund]
  simp [Option.map_map, Function.comp_def, hcrystals, hitems]

end CraftPlayer

namespace CraftWorld

variable {s : CraftWorld} {player : PlayerId} {args : String} {now : Int64} {c d : WorldPos} {job : CraftJob}

section Plans

theorem ownCrafter_eq_ok {b : CraftBuilding} (h : s.ownCrafter player c = .ok b) :
    s.buildings c = some b ∧ b.deletePending = false ∧ b.view.packType = .craft ∧ b.view.ownerId = player := by
  simp only [ownCrafter, bind_eq_ok, orExit_eq_ok, exitUnless_eq_ok, Option.filter_eq_some_iff, exists_const] at h
  obtain ⟨b', ⟨hb, hpending⟩, ⟨hcraft, howner⟩, hb'⟩ := h
  obtain rfl := Except.ok.inj hb'
  exact ⟨hb, by simpa using hpending, hcraft, howner⟩

/-- What is known when a start is accepted so far. -/
structure CanStart (s : CraftWorld) (player : PlayerId) (args : String) (plan : CraftStart) : Prop where
  parsed : parseCraftStart args = some (plan.recipeId, plan.num, plan.place)
  recipe : recipeById plan.recipeId = some plan.recipe
  building : s.buildings plan.place = some plan.building
  idle : s.pending plan.place = []
  component : plan.building.crafting.isSome
  player : s.players player = some plan.player
  crystals : plan.player.crystals = some plan.crystals
  affords : CraftPlayer.affordsCrystals plan.num plan.recipe.costCrys plan.crystals = true

theorem pending_eq {b : CraftBuilding} (hb : s.buildings c = some b) :
    s.pending c = (b.crafting.bind BuildingCrafting.job).toList := by
  rw [pending, hb, Option.bind_some]

theorem planStart_eq_ok {plan : CraftStart} (h : s.planStart player args = .ok plan) :
    s.CanStart player args plan := by
  simp only [planStart, bind_eq_ok, orExit_eq_ok, exitUnless_eq_ok, exists_const] at h
  obtain ⟨⟨recipeId, num, c⟩, hparsed, recipe, hrecipe, b, hb, -, crafting, hcrafting, hidle, p, hp, crystals, hcrystals,
    -, ⟨haffords, -⟩, hplan⟩ := h
  obtain rfl := Except.ok.inj hplan
  obtain ⟨hb, -⟩ := ownCrafter_eq_ok hb
  refine ⟨hparsed, hrecipe, hb, ?_, Option.isSome_of_eq_some hcrafting, hp, hcrystals, haffords⟩
  rw [pending_eq hb, hcrafting, Option.bind_some, BuildingCrafting.job, hidle]
  rfl

structure CanClaim (s : CraftWorld) (player : PlayerId) (now : Int64) (plan : CraftClaim) : Prop where
  recipe : recipeById plan.job.recipeId = some plan.recipe
  building : s.buildings plan.place = some plan.building
  pending : s.pending plan.place = [plan.job]
  due : ¬ now < plan.job.endTs
  player : s.players player = some plan.player
  items : plan.player.items = some plan.items

theorem planClaim_eq_ok {plan : CraftClaim} (h : s.planClaim player args now = .ok plan) :
    s.CanClaim player now plan := by
  simp only [planClaim, bind_eq_ok, orExit_eq_ok, exitUnless_eq_ok, exists_const] at h
  obtain ⟨c, -, b, hb, crafting, hcrafting, job, hjob, hdue, recipe, hrecipe, p, hp, items, hitems, -, hplan⟩ := h
  obtain rfl := Except.ok.inj hplan
  obtain ⟨hb, -⟩ := ownCrafter_eq_ok hb
  refine ⟨hrecipe, hb, ?_, hdue, hp, hitems⟩
  rw [pending_eq hb, hcrafting, Option.bind_some, hjob]
  rfl

end Plans

section Goods

/-- The crystals of a player, as integers. -/
def crystals (s : CraftWorld) (player : PlayerId) (i : Fin 6) : Int :=
  ((s.players player).bind CraftPlayer.crystals).elim 0 fun crystals => (crystals i).toInt

def items (s : CraftWorld) (player : PlayerId) (item : Int32) : Int :=
  ((s.players player).bind CraftPlayer.items).elim 0 fun items => (items item).toInt

/-- What an accepted start of a craft does. -/
structure Starts (s : CraftWorld) (player : PlayerId) (args : String) (now : Int64) (c : WorldPos) (job : CraftJob)
    (recipe : Recipe) (t : CraftWorld) : Prop where
  ofTable : recipeById job.recipeId = some recipe
  num : ∃ num, parseI32 ((splitOn args ':').getD 1 "") = some num ∧ job.num.toInt = max num.toInt 1
  crystals : ∀ i, t.crystals player i = s.crystals player i - recipe.crystalCost i * job.num.toInt
  items : ∀ item, t.items player item = s.items player item - recipe.itemCost item * job.num.toInt
  players : ∀ other, other ≠ player → t.players other = s.players other
  buildings : ∀ d, d ≠ c → t.buildings d = s.buildings d
  idle : s.pending c = []
  pending : t.pending c = [job]
  endTs : job.endTs = now + recipe.timeSec.toInt64 * job.num.toInt64
  -- no multiplication wraps
  crystalProducts : ∀ cost ∈ recipe.costCrys,
    (cost.num.toInt64 * job.num.toInt64).toInt = cost.num.toInt * job.num.toInt
  itemProducts : ∀ cost ∈ recipe.costRes, (cost.num * job.num).toInt = cost.num.toInt * job.num.toInt
  timeProduct : (recipe.timeSec.toInt64 * job.num.toInt64).toInt = recipe.timeSec.toInt * job.num.toInt

/-- What an accepted claim does; the result is exact where it fits. -/
structure Claims (s : CraftWorld) (player : PlayerId) (now : Int64) (c : WorldPos) (job : CraftJob) (recipe : Recipe)
    (t : CraftWorld) : Prop where
  ofTable : recipeById job.recipeId = some recipe
  due : job.endTs ≤ now
  result : FitsI32 (recipe.result.num.toInt * job.num.toInt) →
    FitsI32 (s.items player recipe.result.id + recipe.result.num.toInt * job.num.toInt) →
    (recipe.result.num * job.num).toInt = recipe.result.num.toInt * job.num.toInt ∧
      t.items player recipe.result.id = s.items player recipe.result.id + recipe.result.num.toInt * job.num.toInt
  items : ∀ item, item ≠ recipe.result.id → t.items player item = s.items player item
  crystals : ∀ i, t.crystals player i = s.crystals player i
  players : ∀ other, other ≠ player → t.players other = s.players other
  buildings : ∀ d, d ≠ c → t.buildings d = s.buildings d
  pending : s.pending c = [job]
  settled : t.pending c = []

theorem crystals_eq {p : CraftPlayer} {crystals : Fin 6 → Int64} (hp : s.players player = some p)
    (hcrystals : p.crystals = some crystals) (i : Fin 6) : s.crystals player i = (crystals i).toInt := by
  rw [CraftWorld.crystals, hp, Option.bind_some, hcrystals, Option.elim_some]

theorem items_eq {p : CraftPlayer} {items : Int32 → Int32} (hp : s.players player = some p)
    (hitems : p.items = some items) (item : Int32) : s.items player item = (items item).toInt := by
  rw [CraftWorld.items, hp, Option.bind_some, hitems, Option.elim_some]

theorem exists_num {recipeId num : Int32} (h : parseCraftStart args = some (recipeId, num, c)) :
    ∃ n, parseI32 ((splitOn args ':').getD 1 "") = some n ∧ num = atLeastOne n := by
  rw [parseCraftStart] at h
  split at h
  · rename_i hparts
    simp only [Option.bind_eq_bind, Option.bind_eq_some_iff] at h
    obtain ⟨_, -, n, hn, _, -, _, -, hresult⟩ := h
    cases hresult
    exact ⟨n, by rw [hparts]; exact hn, rfl⟩
  · cases h

theorem starts_of_planStart {plan : CraftStart} (h : s.CanStart player args plan) {endTs : Int64}
    (hend : endTs = now + plan.recipe.timeSec.toInt64 * plan.num.toInt64) :
    s.Starts player args now plan.place ⟨plan.recipeId, plan.num, endTs⟩ plan.recipe
      ((s.setPlayer player (plan.player.pay plan.recipe plan.num)).setBuilding plan.place (some { plan.building with
        crafting := some ⟨some plan.recipeId, plan.num, endTs, false⟩ })) := by
  have hsane := sane_of_recipeById h.recipe
  obtain ⟨n, hn, hnum⟩ := exists_num h.parsed
  have hmax : plan.num.toInt = max n.toInt 1 := hnum ▸ one_le_atLeastOne n
  have hplayer : ((s.setPlayer player (plan.player.pay plan.recipe plan.num)).setBuilding plan.place
      (some { plan.building with crafting := some ⟨some plan.recipeId, plan.num, endTs, false⟩ })).players player =
        some (plan.player.pay plan.recipe plan.num) := Function.update_self ..
  constructor
  case ofTable => exact h.recipe
  case num => exact ⟨n, hn, hmax⟩
  case crystals =>
    intro i
    have hpaid : (plan.player.pay plan.recipe plan.num).crystals =
        some (CraftPlayer.payCrystals plan.num plan.recipe.costCrys plan.crystals) := by
      rw [CraftPlayer.pay, h.crystals]
      rfl
    rw [crystals_eq hplayer hpaid, crystals_eq h.player h.crystals]
    exact CraftPlayer.toInt_payCrystals hsane (by omega) h.affords i
  case items =>
    intro item
    have hkept : (plan.player.pay plan.recipe plan.num).items = plan.player.items := by
      rw [CraftPlayer.pay, hsane.items]
      exact Option.map_id' ..
    rw [CraftWorld.items, CraftWorld.items, hplayer, h.player, Option.bind_some, Option.bind_some, hkept,
      Recipe.itemCost, hsane.items]
    simp
  case players => exact fun other hother => Function.update_of_ne hother ..
  case buildings => exact fun d hd => Function.update_of_ne hd ..
  case idle => exact h.idle
  case pending =>
    rw [pending_eq (Function.update_self ..)]
    rfl
  case endTs => exact hend
  case crystalProducts => exact fun cost _ => toInt_mul_toInt64 ..
  case itemProducts =>
    intro cost hcost
    rw [hsane.items] at hcost
    cases hcost
  case timeProduct => exact toInt_mul_toInt64 ..

theorem claims_of_planClaim {plan : CraftClaim} (h : s.CanClaim player now plan) :
    s.Claims player now plan.place plan.job plan.recipe
      ((s.setPlayer player (plan.player.gain plan.items plan.recipe.result plan.job.num)).setBuilding plan.place
        (some { plan.building with crafting := some .idle })) := by
  have hplayer : ((s.setPlayer player (plan.player.gain plan.items plan.recipe.result plan.job.num)).setBuilding
      plan.place (some { plan.building with crafting := some .idle })).players player =
        some (plan.player.gain plan.items plan.recipe.result plan.job.num) := Function.update_self ..
  constructor
  case ofTable => exact h.recipe
  case due => exact Int64.le_iff_toInt_le.mpr (not_lt.mp fun hlt => h.due (Int64.lt_iff_toInt_lt.mpr hlt))
  case result =>
    intro hproduct hsum
    have hmul : (plan.recipe.result.num * plan.job.num).toInt = plan.recipe.result.num.toInt * plan.job.num.toInt := by
      rw [Int32.toInt_mul]
      exact Int.bmod_eq_of_le (by unfold FitsI32 at hproduct; omega) (by unfold FitsI32 at hproduct; omega)
    refine ⟨hmul, ?_⟩
    rw [items_eq h.player h.items] at hsum ⊢
    rw [items_eq hplayer rfl, Function.update_self, Int32.toInt_add, hmul]
    exact Int.bmod_eq_of_le (by unfold FitsI32 at hsum; omega) (by unfold FitsI32 at hsum; omega)
  case items =>
    intro item hitem
    rw [items_eq h.player h.items, items_eq hplayer rfl, Function.update_of_ne hitem]
  case crystals =>
    intro i
    rw [CraftWorld.crystals, CraftWorld.crystals, hplayer, h.player]
    rfl
  case players => exact fun other hother => Function.update_of_ne hother ..
  case buildings => exact fun d hd => Function.update_of_ne hd ..
  case pending => exact h.pending
  case settled =>
    rw [pending_eq (Function.update_self ..)]
    rfl

end Goods

section Handlers

theorem setPlayer_self {p : CraftPlayer} (hp : s.players player = some p) : s.setPlayer player p = s := by
  rw [setPlayer, ← hp, Function.update_eq_self]

/-- A start is accepted and exact, or it is refused and changes nothing. -/
theorem craftStart_cases (s : CraftWorld) (player : PlayerId) (args : String) (now : Int64) :
    (∃ c job recipe t, s.craftStart player args now = (t, .ok (c, job)) ∧ s.Starts player args now c job recipe t) ∨
      ∃ exit, s.craftStart player args now = (s, .error exit) := by
  rw [craftStart]
  cases hplan : s.planStart player args with
  | error exit => exact .inr ⟨exit, rfl⟩
  | ok plan =>
      have hcan := planStart_eq_ok hplan
      dsimp only
      split
      · exact .inl ⟨_, _, _, _, rfl, starts_of_planStart hcan rfl⟩
      · refine .inr ⟨.actionError, ?_⟩
        have hback : (s.setPlayer player (plan.player.pay plan.recipe plan.num)).setPlayer player
            ((plan.player.pay plan.recipe plan.num).refund plan.recipe plan.num) = s := by
          rw [CraftPlayer.refund_pay (sane_of_recipeById hcan.recipe), setPlayer, setPlayer, Function.update_idem]
          exact setPlayer_self hcan.player
        rw [hback]

theorem craftClaim_cases (s : CraftWorld) (player : PlayerId) (args : String) (now : Int64) :
    (∃ c job recipe t, s.craftClaim player args now = (t, .ok (c, job)) ∧ s.Claims player now c job recipe t) ∨
      ∃ exit, s.craftClaim player args now = (s, .error exit) := by
  rw [craftClaim]
  cases hplan : s.planClaim player args now with
  | error exit => exact .inr ⟨exit, rfl⟩
  | ok plan => exact .inl ⟨_, _, _, _, rfl, claims_of_planClaim (planClaim_eq_ok hplan)⟩

end Handlers

section Jobs

theorem pending_congr {t : CraftWorld} (h : t.buildings d = s.buildings d) : t.pending d = s.pending d := by
  rw [pending, pending, h]

theorem pending_completeCrafting (s : CraftWorld) (c : WorldPos) (dueTs now : Int64) (d : WorldPos) :
    (s.completeCrafting c dueTs now).pending d = s.pending d := by
  rw [completeCrafting]
  split
  · rfl
  · rename_i b hb
    split
    · rfl
    · rename_i crafting hcrafting
      split
      · by_cases hd : d = c
        · subst hd
          rw [pending_eq (Function.update_self ..), pending_eq hb, hcrafting]
          rfl
        · exact pending_congr (Function.update_of_ne hd ..)
      · rfl

/-- The jobs that a step starts are those that it settles, or wait after it. -/
theorem pending_step (s : CraftWorld) (e : CraftEvent) (d : WorldPos) :
    s.pending d ++ startedAt d (s.step e).2 = settledAt d (s.step e).2 ++ (s.step e).1.pending d := by
  cases e with
  | start player args now =>
      rw [step]
      rcases craftStart_cases s player args now with ⟨c, job, recipe, t, h, hstarts⟩ | ⟨exit, h⟩
      · rw [h]
        by_cases hd : c = d
        · subst hd
          simp [startedAt, settledAt, hstarts.idle, hstarts.pending]
        · simp [startedAt, settledAt, hd, pending_congr (hstarts.buildings d (Ne.symm hd))]
      · rw [h]
        simp [startedAt, settledAt]
  | claim player args now =>
      rw [step]
      rcases craftClaim_cases s player args now with ⟨c, job, recipe, t, h, hclaims⟩ | ⟨exit, h⟩
      · rw [h]
        by_cases hd : c = d
        · subst hd
          simp [startedAt, settledAt, hclaims.pending, hclaims.settled]
        · simp [startedAt, settledAt, hd, pending_congr (hclaims.buildings d (Ne.symm hd))]
      · rw [h]
        simp [startedAt, settledAt]
  | complete c dueTs now => simp [step, startedAt, settledAt, pending_completeCrafting]
  | place c view =>
      rw [step]
      split
      · simp [startedAt, settledAt]
      · rename_i hnone
        have hempty : s.buildings c = none := Option.not_isSome_iff_eq_none.mp hnone
        by_cases hd : d = c
        · subst hd
          have hat : (s.setBuilding d (some ⟨view, false, some .idle, true⟩)).buildings d =
              some ⟨view, false, some .idle, true⟩ := Function.update_self ..
          have hplaced : (s.setBuilding d (some ⟨view, false, some .idle, true⟩)).pending d = [] := pending_eq hat
          have hbefore : s.pending d = [] := by
            rw [pending, hempty]
            rfl
          simp [startedAt, settledAt, hplaced, hbefore]
        · simp [startedAt, settledAt, pending_congr (t := s.setBuilding c _) (Function.update_of_ne hd ..)]
  | remove c =>
      rw [step]
      by_cases hd : c = d
      · subst hd
        have hgone : (s.setBuilding c none).pending c = [] := by
          rw [pending, setBuilding]
          simp
        rw [hgone]
        simp [startedAt, settledAt, List.filterMap_map]
      · have hkept := pending_congr (s := s) (t := s.setBuilding c none) (Function.update_of_ne (Ne.symm hd) ..)
        rw [hkept]
        simp [startedAt, settledAt, List.filterMap_map, hd]
  | world players building =>
      rw [step]
      simp [startedAt, settledAt, pending, Option.bind_map]

theorem pending_run (s : CraftWorld) (es : List CraftEvent) (d : WorldPos) :
    s.pending d ++ startedAt d (s.run es).2 = settledAt d (s.run es).2 ++ (s.run es).1.pending d := by
  induction es generalizing s with
  | nil => simp [run, startedAt, settledAt]
  | cons e es ih =>
      have hstarted : startedAt d (s.run (e :: es)).2 =
          startedAt d (s.step e).2 ++ startedAt d ((s.step e).1.run es).2 := List.filterMap_append ..
      have hsettled : settledAt d (s.run (e :: es)).2 =
          settledAt d (s.step e).2 ++ settledAt d ((s.step e).1.run es).2 := List.filterMap_append ..
      calc s.pending d ++ startedAt d (s.run (e :: es)).2
          = (s.pending d ++ startedAt d (s.step e).2) ++ startedAt d ((s.step e).1.run es).2 := by
            rw [hstarted, List.append_assoc]
        _ = settledAt d (s.step e).2 ++ ((s.step e).1.pending d ++ startedAt d ((s.step e).1.run es).2) := by
            rw [pending_step, List.append_assoc]
        _ = settledAt d (s.run (e :: es)).2 ++ (s.run (e :: es)).1.pending d := by
            rw [ih, hsettled, List.append_assoc]
            rfl

end Jobs

/-- The owner of a crafter can claim what is done there. -/
def Claimable (s : CraftWorld) (player : PlayerId) (args : String) (now : Int64) : Prop :=
  ∀ c b p job, parseCraftClaim args = some c → s.buildings c = some b → s.players player = some p →
    b.deletePending = false ∧ b.view.packType = .craft ∧ b.view.ownerId = player ∧ b.hasFlags = true →
    p.items.isSome ∧ p.hasFlags = true → s.pending c = [job] → (recipeById job.recipeId).isSome → job.endTs ≤ now →
      ∃ t, s.craftClaim player args now = (t, .ok (c, job))

theorem craftClaim_claimable (s : CraftWorld) (player : PlayerId) (args : String) (now : Int64) :
    s.Claimable player args now := by
  rintro c b p job hparsed hb hp ⟨hpending, hcraft, howner, hflags⟩ ⟨hitems, hready⟩ hjob hrecipe hdue
  obtain ⟨items, hitems⟩ := Option.isSome_iff_exists.mp hitems
  obtain ⟨recipe, hrecipe⟩ := Option.isSome_iff_exists.mp hrecipe
  rw [pending_eq hb, Option.toList_eq_singleton_iff] at hjob
  obtain ⟨crafting, hcrafting, hjob⟩ := Option.bind_eq_some_iff.mp hjob
  have hlater : ¬ now < job.endTs := fun hlt =>
    absurd (Int64.lt_iff_toInt_lt.mp hlt) (not_lt.mpr (Int64.le_iff_toInt_le.mp hdue))
  have hcrafter : s.ownCrafter player c = .ok b := by
    simp only [ownCrafter, bind_eq_ok, orExit_eq_ok, exitUnless_eq_ok, exists_const]
    exact ⟨b, Option.filter_eq_some_iff.mpr ⟨hb, by simp [hpending]⟩, ⟨hcraft, howner⟩, rfl⟩
  have hplan : s.planClaim player args now = .ok ⟨c, b, p, items, recipe, job⟩ := by
    simp only [planClaim, bind_eq_ok, orExit_eq_ok, exitUnless_eq_ok, exists_const]
    exact ⟨c, hparsed, b, hcrafter, crafting, hcrafting, job, hjob, hlater, recipe, hrecipe, p, hp, items, hitems,
      ⟨hready, hflags⟩, rfl⟩
  rw [craftClaim, hplan]
  exact ⟨_, rfl⟩

/-- A start takes what the recipe costs, or nothing happens; a claim gives the result, where it fits; and every job
that was started is settled once, or waits. -/
theorem crafting_conserves (s : CraftWorld) (player : PlayerId) (args : String) (now : Int64) (es : List CraftEvent) :
    ((∃ c job recipe t, s.craftStart player args now = (t, .ok (c, job)) ∧ s.Starts player args now c job recipe t) ∨
      ∃ exit, s.craftStart player args now = (s, .error exit)) ∧
    ((∃ c job recipe t, s.craftClaim player args now = (t, .ok (c, job)) ∧ s.Claims player now c job recipe t) ∨
      ∃ exit, s.craftClaim player args now = (s, .error exit)) ∧
    s.Claimable player args now ∧
    ∀ d, s.pending d ++ startedAt d (s.run es).2 = settledAt d (s.run es).2 ++ (s.run es).1.pending d :=
  ⟨craftStart_cases s player args now, craftClaim_cases s player args now, craftClaim_claimable s player args now,
    pending_run s es⟩

/-- A player on its crafter, with green crystals. -/
def greenCrafter (green : Int64) : CraftWorld where
  players := fun player =>
    if player = 1 then some ⟨(10, 10), some fun i => if i.val = 0 then green else 0, true, some fun _ => 0⟩ else none
  buildings := fun c =>
    if c = (10, 10) then some ⟨⟨5, .craft, 10, 10, 1, 0, 0, 0, 1000, 1000⟩, false, some .idle, true⟩ else none

/-- Nothing is asked for, and one result is paid; two thousand millions are paid, and a debt of items is claimed. -/
theorem wrong_counts :
    ((greenCrafter 100).craftStart 1 "0:0:10:10" 0).1.crystals 1 0 = 50 ∧
      ((greenCrafter 4294967300).craftStart 1 "5:214748365:10:10" 0).1.crystals 1 0 = 0 ∧
      (((greenCrafter 4294967300).craftStart 1 "5:214748365:10:10" 0).1.craftClaim 1 "10:10" 1073741825).1.items 1 35 =
        -2147483646 := by
  decide +kernel

end CraftWorld

end OpenMines

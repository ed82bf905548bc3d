import Mathlib.Algebra.GroupWithZero.Nat
import OpenMines.Lib.Exits
import OpenMines.PackAccess

namespace OpenMines

open Lib.Exits Lib.Text

/-- An amount of the crystals of a colour. -/
structure CrystalCost where
  id : Fin 6
  num : Int32

structure ItemCost where
  id : Int32
  num : Int32

structure Recipe where
  id : Int32
  result : ItemCost
  costCrys : List CrystalCost
  costRes : List ItemCost
  timeSec : Int32

local instance sixColours : NeZero 6 := ⟨by decide⟩

def recipes : List Recipe := [
  ⟨0, ⟨0, 1⟩, [⟨0, 50⟩], [], 5⟩,
  ⟨1, ⟨1, 1⟩, [⟨1, 100⟩], [], 10⟩,
  ⟨2, ⟨5, 1⟩, [⟨1, 50⟩, ⟨2, 20⟩], [], 10⟩,
  ⟨3, ⟨6, 1⟩, [⟨3, 30⟩], [], 15⟩,
  ⟨4, ⟨7, 1⟩, [⟨2, 100⟩, ⟨4, 20⟩], [], 30⟩,
  ⟨5, ⟨35, 10⟩, [⟨0, 20⟩], [], 5⟩,
  ⟨6, ⟨40, 1⟩, [⟨5, 50⟩], [], 20⟩,
  ⟨7, ⟨29, 1⟩, [⟨0, 200⟩], [], 60⟩]

def recipeById (id : Int32) : Option Recipe := recipes.find? fun r => r.id = id

structure CraftJob where
  recipeId : Int32
  num : Int32
  endTs : Int64
  deriving DecidableEq

structure BuildingCrafting where
  recipeId : Option Int32
  num : Int32
  endTs : Int64
  ready : Bool

namespace BuildingCrafting

/-- Nothing is crafted. -/
def idle : BuildingCrafting := ⟨none, 0, 0, false⟩

def job (crafting : BuildingCrafting) : Option CraftJob :=
  crafting.recipeId.map fun recipeId => ⟨recipeId, crafting.num, crafting.endTs⟩

end BuildingCrafting

structure CraftBuilding where
  view : PackView
  deletePending : Bool
  crafting : Option BuildingCrafting
  hasFlags : Bool

structure CraftPlayer where
  pos : WorldPos
  crystals : Option (Fin 6 → Int64)
  hasFlags : Bool
  items : Option (Int32 → Int32)

/-- How a handler of a crafter ends before it is done. -/
inductive CraftExit
  | ignored
  | actionError
  | stateError
  | message (title text : String)
  deriving DecidableEq

/-- `num.max(1)` -/
def atLeastOne (num : Int32) : Int32 := if num < 1 then 1 else num

namespace CraftPlayer

def payCrystals (num : Int32) (costs : List CrystalCost) (crystals : Fin 6 → Int64) : Fin 6 → Int64 :=
  costs.foldl (fun left cost => Function.update left cost.id (left cost.id - cost.num.toInt64 * num.toInt64)) crystals

def payItems (num : Int32) (costs : List ItemCost) (items : Int32 → Int32) : Int32 → Int32 :=
  costs.foldl (fun left cost => Function.update left cost.id (left cost.id - cost.num * num)) items

def refundCrystals (num : Int32) (costs : List CrystalCost) (crystals : Fin 6 → Int64) : Fin 6 → Int64 :=
  costs.foldl (fun left cost => Function.update left cost.id (left cost.id + cost.num.toInt64 * num.toInt64)) crystals

def refundItems (num : Int32) (costs : List ItemCost) (items : Int32 → Int32) : Int32 → Int32 :=
  costs.foldl (fun left cost => Function.update left cost.id (left cost.id + cost.num * num)) items

def affordsCrystals (num : Int32) (costs : List CrystalCost) (crystals : Fin 6 → Int64) : Bool :=
  costs.all fun cost => ¬ crystals cost.id < cost.num.toInt64 * num.toInt64

def affordsItems (num : Int32) (costs : List ItemCost) (items : Int32 → Int32) : Bool :=
  costs.all fun cost => ¬ items cost.id < cost.num * num

def pay (p : CraftPlayer) (recipe : Recipe) (num : Int32) : CraftPlayer :=
  { p with
    crystals := p.crystals.map (payCrystals num recipe.costCrys)
    items := p.items.map (payItems num recipe.costRes) }

def refund (p : CraftPlayer) (recipe : Recipe) (num : Int32) : CraftPlayer :=
  { p with
    crystals := p.crystals.map (refundCrystals num recipe.costCrys)
    items := p.items.map (refundItems num recipe.costRes) }

def gain (p : CraftPlayer) (items : Int32 → Int32) (result : ItemCost) (num : Int32) : CraftPlayer :=
  { p with items := some (Function.update items result.id (items result.id + result.num * num)) }

end CraftPlayer

structure CraftStart where
  place : WorldPos
  building : CraftBuilding
  player : CraftPlayer
  crystals : Fin 6 → Int64
  recipeId : Int32
  recipe : Recipe
  num : Int32

structure CraftClaim where
  place : WorldPos
  building : CraftBuilding
  player : CraftPlayer
  items : Int32 → Int32
  recipe : Recipe
  job : CraftJob

def parseCraftStart (args : String) : Option (Int32 × Int32 × WorldPos) :=
  match splitOn args ':' with
  | recipeId :: num :: x :: y :: _ => do
    let recipeId ← parseI32 recipeId
    let num ← parseI32 num
    let x ← parseI32 x
    let y ← parseI32 y
    some (recipeId, atLeastOne num, (x, y))
  | _ => none

def parseCraftClaim (args : String) : Option WorldPos :=
  match splitOn args ':' with
  | x :: y :: _ => do
    let x ← parseI32 x
    let y ← parseI32 y
    some (x, y)
  | _ => none

structure CraftWorld where
  players : PlayerId → Option CraftPlayer
  /-- the buildings by their origins -/
  buildings : WorldPos → Option CraftBuilding

namespace CraftWorld

variable (s : CraftWorld)

def setPlayer (player : PlayerId) (p : CraftPlayer) : CraftWorld :=
  { s with players := Function.update s.players player (some p) }

def setBuilding (c : WorldPos) (b : Option CraftBuilding) : CraftWorld :=
  { s with buildings := Function.update s.buildings c b }

/-- The crafter of a player that is not being deleted. -/
def ownCrafter (player : PlayerId) (c : WorldPos) : Except CraftExit CraftBuilding := do
  let b ← orExit ((s.buildings c).filter fun b => ¬ b.deletePending) .ignored
  exitUnless (b.view.packType = .craft ∧ b.view.ownerId = player) .ignored
  return b

def planStart (player : PlayerId) (args : String) : Except CraftExit CraftStart := do
  let (recipeId, num, c) ← orExit (parseCraftStart args) .actionError
  let recipe ← orExit (recipeById recipeId) .ignored
  let b ← s.ownCrafter player c
  exitUnless ((s.players player).any fun p => p.pos = c) (.message "Недостаточно ресов" "...")
  let crafting ← orExit b.crafting .actionError
  exitUnless (crafting.recipeId = none) (.message "Крафтер" "Крафт уже запущен")
  let p ← orExit (s.players player) .stateError
  let crystals ← orExit p.crystals .stateError
  exitUnless (p.hasFlags ∧ (recipe.costRes = [] ∨ p.items.isSome)) .stateError
  exitUnless (CraftPlayer.affordsCrystals num recipe.costCrys crystals ∧
    p.items.all (CraftPlayer.affordsItems num recipe.costRes)) (.message "Крафтер" "Недостаточно ресурсов")
  return ⟨c, b, p, crystals, recipeId, recipe, num⟩

/-- `handle_craft_start`: the player pays before the crafter starts, and gets it back where it does not. -/
def craftStart (player : PlayerId) (args : String) (now : Int64) :
    CraftWorld × Except CraftExit (WorldPos × CraftJob) :=
  match s.planStart player args with
  | .error exit => (s, .error exit)
  | .ok plan =>
    let paid := plan.player.pay plan.recipe plan.num
    let endTs := now + plan.recipe.timeSec.toInt64 * plan.num.toInt64
    let t := s.setPlayer player paid
    if plan.building.hasFlags then
      (t.setBuilding plan.place (some { plan.building with
        crafting := some ⟨some plan.recipeId, plan.num, endTs, false⟩ }), .ok (plan.place, ⟨plan.recipeId, plan.num, endTs⟩))
    else (t.setPlayer player (paid.refund plan.recipe plan.num), .error .actionError)

def planClaim (player : PlayerId) (args : String) (now : Int64) : Except CraftExit CraftClaim := do
  let c ← orExit (parseCraftClaim args) .actionError
  let b ← s.ownCrafter player c
  let crafting ← orExit b.crafting .ignored
  let job ← orExit crafting.job .ignored
  exitUnless (¬ now < job.endTs) (.message "Крафтер" "Крафт ещё не завершён")
  let recipe ← orExit (recipeById job.recipeId) .ignored
  let p ← orExit (s.players player) .actionError
  let items ← orExit p.items .stateError
  exitUnless (p.hasFlags ∧ b.hasFlags) .stateError
  return ⟨c, b, p, items, recipe, job⟩

/-- `handle_craft_claim` -/
def craftClaim (player : PlayerId) (args : String) (now : Int64) :
    CraftWorld × Except CraftExit (WorldPos × CraftJob) :=
  match s.planClaim player args now with
  | .error exit => (s, .error exit)
  | .ok plan =>
    ((s.setPlayer player (plan.player.gain plan.items plan.recipe.result plan.job.num)).setBuilding plan.place
      (some { plan.building with crafting := some .idle }), .ok (plan.place, plan.job))

/-- `crafter_completion_resend_system`, for a crafter whose entry of the schedule is due. -/
def completeCrafting (c : WorldPos) (dueTs now : Int64) : CraftWorld :=
  match s.buildings c with
  | none => s
  | some b =>
    match b.crafting with
    | none => s
    | some crafting =>
      if b.view.packType = .craft ∧ crafting.ready = false ∧ crafting.recipeId.isSome ∧ crafting.endTs = dueTs ∧
          ¬ now < crafting.endTs then
        s.setBuilding c (some { b with crafting := some { crafting with ready := true } })
      else s

end CraftWorld

inductive CraftEvent
  | start (player : PlayerId) (args : String) (now : Int64)
  | claim (player : PlayerId) (args : String) (now : Int64)
  | complete (c : WorldPos) (dueTs now : Int64)
  /-- a new building, where there is none -/
  | place (c : WorldPos) (view : PackView)
  | remove (c : WorldPos)
  /-- everything else that happens to the players, and to the buildings; it does not reach what is crafted -/
  | world (players : PlayerId → Option CraftPlayer) (building : WorldPos → CraftBuilding → CraftBuilding)

/-- What happens to a job. -/
inductive CraftEntry
  | started (player : PlayerId) (c : WorldPos) (job : CraftJob)
  | claimed (player : PlayerId) (c : WorldPos) (job : CraftJob) (now : Int64)
  /-- the crafter is gone, and the job with it -/
  | lost (c : WorldPos) (job : CraftJob)

namespace CraftWorld

variable (s : CraftWorld)

/-- The job of the crafter at a place. -/
def pending (c : WorldPos) : List CraftJob :=
  (((s.buildings c).bind CraftBuilding.crafting).bind BuildingCrafting.job).toList

def step : CraftEvent → CraftWorld × List CraftEntry
  | .start player args now =>
    match s.craftStart player args now with
    | (t, .ok (c, job)) => (t, [.started player c job])
    | (t, .error _) => (t, [])
  | .claim player args now =>
    match s.craftClaim player args now with
    | (t, .ok (c, job)) => (t, [.claimed player c job now])
    | (t, .error _) => (t, [])
  | .complete c dueTs now => (s.completeCrafting c dueTs now, [])
  | .place c view =>
    if (s.buildings c).isSome then (s, []) else (s.setBuilding c (some ⟨view, false, some .idle, true⟩), [])
  | .remove c => (s.setBuilding c none, (s.pending c).map (.lost c))
  | .world players building =>
    (⟨players, fun c => (s.buildings c).map fun b => { building c b with crafting := b.crafting }⟩, [])

def run (s : CraftWorld) : List CraftEvent → CraftWorld × List CraftEntry
  | [] => (s, [])
  | e :: es => ((run (s.step e).1 es).1, (s.step e).2 ++ (run (s.step e).1 es).2)

end CraftWorld

/-- The jobs that crafters at a place have started. -/
def startedAt (c : WorldPos) (entries : List CraftEntry) : List CraftJob :=
  entries.filterMap fun
    | .started _ d job => if d = c then some job else none
    | _ => none

/-- The jobs that were claimed at a place, or lost with the crafter. -/
def settledAt (c : WorldPos) (entries : List CraftEntry) : List CraftJob :=
  entries.filterMap fun
    | .claimed _ d job _ => if d = c then some job else none
    | .lost d job => if d = c then some job else none
    | .started .. => none

end OpenMines

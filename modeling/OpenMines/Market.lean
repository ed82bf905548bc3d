import Mathlib.Algebra.BigOperators.Fin
import Mathlib.Logic.Function.Basic
import OpenMines.Lib.CheckedInt

namespace OpenMines.Market

open Lib.CheckedInt

/-- One value for each kind of crystal. -/
abbrev PerKind := Fin 6 → Int64

def crysCostBase : PerKind := ![8, 16, 24, 26, 24, 40]

def crysCostModDefault : PerKind := ![10, 10, 15, 10, 15, 15]

/-- An hour in nanoseconds. -/
def priceUpdateInterval : Nat := 3600000000000

structure CrystalEconomy where
  costMod : PerKind
  summary : PerKind
  lastUpdate : Nat

def CrystalEconomy.default (now : Nat) : CrystalEconomy := ⟨crysCostModDefault, fun _ => 0, now⟩

/-- A release build wraps around where a sum does not fit. -/
def adjustCostMod (costMod summary : PerKind) : PerKind := fun i =>
  let total := (List.ofFn summary).foldl (· + ·) 0
  let p := (summary i + total) / 100
  if 0 < p then
    if 20 < p ∧ 0 < costMod i then costMod i - 1
    else if p < 10 ∧ crysCostBase i + costMod i < 70 then costMod i + 1
    else costMod i
  else costMod i

namespace CrystalEconomy

variable (eco : CrystalEconomy)

def getCrystalCost (i : Fin 6) : Int64 := crysCostBase i + eco.costMod i

def getCrystalBuyPrice (i : Fin 6) : Int64 := eco.getCrystalCost i * 10

def addDob (t : Nat) (dob : Int64) : CrystalEconomy :=
  if h : t < 6 then { eco with summary := Function.update eco.summary ⟨t, h⟩ (eco.summary ⟨t, h⟩ + dob) } else eco

def tickCrystalPrices (now : Nat) : CrystalEconomy :=
  if now - eco.lastUpdate < priceUpdateInterval then eco
  else ⟨adjustCostMod eco.costMod eco.summary, fun _ => 0, now⟩

end CrystalEconomy

inductive EconomyEvent
  | addDob (t : Nat) (dob : Int64)
  | tick (now : Nat)

def CrystalEconomy.step (eco : CrystalEconomy) : EconomyEvent → CrystalEconomy
  | .addDob t dob => eco.addDob t dob
  | .tick now => eco.tickCrystalPrices now

def CrystalEconomy.run (eco : CrystalEconomy) (es : List EconomyEvent) : CrystalEconomy := es.foldl step eco

/-- What happens to the economy during a trade, before it reads the price of each kind. -/
abbrev Meanwhile := Fin 6 → List EconomyEvent

/-- The economy when a trade reads the price of a kind. -/
def CrystalEconomy.whenReads (eco : CrystalEconomy) (meanwhile : Meanwhile) (i : Fin 6) : CrystalEconomy :=
  eco.run ((List.ofFn meanwhile).take (i + 1)).flatten

def CrystalEconomy.afterTrade (eco : CrystalEconomy) (meanwhile : Meanwhile) : CrystalEconomy :=
  eco.run (List.ofFn meanwhile).flatten

structure PlayerStats where
  crystals : PerKind
  money : Int64
  creds : Int64

structure PlayerFlags where
  dirty : Bool

structure MarketPlayer where
  stats : Option PlayerStats
  flags : Option PlayerFlags

structure SellOutcome where
  crystals : PerKind
  money : Int64
  creds : Int64
  earned : Int64

structure BuyOutcome where
  crystals : PerKind
  money : Int64
  creds : Int64
  spent : Int64

section Trade

variable (price sliders : PerKind)

def sellLoop : List (Fin 6) → PerKind → Int64 → PerKind × Int64
  | [], crystals, earned => (crystals, earned)
  | i :: is, crystals, earned =>
      let toSell := sliders i
      if toSell ≤ 0 then sellLoop is crystals earned
      else if toSell ≤ crystals i then
        match checkedMulI64 toSell (price i) with
        | some sum => sellLoop is (Function.update crystals i (crystals i - toSell)) (saturatingAddI64 earned sum)
        | none => sellLoop is crystals earned
      else sellLoop is crystals earned

/-- Nothing when the cost of a kind does not fit. -/
def buyLoop (money : Int64) : List (Fin 6) → PerKind → Int64 → Option (PerKind × Int64)
  | [], crystals, spent => some (crystals, spent)
  | i :: is, crystals, spent =>
      let toBuy := sliders i
      if toBuy ≤ 0 then buyLoop money is crystals spent
      else
        match checkedMulI64 toBuy (price i) with
        | none => none
        | some cost =>
            if cost ≤ saturatingSubI64 money spent then
              buyLoop money is (Function.update crystals i (crystals i + toBuy)) (saturatingAddI64 spent cost)
            else buyLoop money is crystals spent

end Trade

structure MarketState where
  economy : CrystalEconomy
  players : Nat → Option MarketPlayer

namespace MarketState

variable (s : MarketState)

def setStats (player : Nat) (stats : PlayerStats) : MarketState :=
  { s with players := Function.update s.players player (some ⟨some stats, some ⟨true⟩⟩) }

/-- Both components of a player; a trade needs them. -/
def trader (player : Nat) : Option PlayerStats := do
  let p ← s.players player
  let _ ← p.flags
  p.stats

def sellCrystals (player : Nat) (price sliders : PerKind) : MarketState × Option SellOutcome :=
  match s.trader player with
  | none => (s, none)
  | some stats =>
      let (crystals, earned) := sellLoop price sliders (List.finRange 6) stats.crystals 0
      if earned ≤ 0 then (s, none)
      else
        let money := saturatingAddI64 stats.money earned
        (s.setStats player { stats with crystals := crystals, money := money },
          some ⟨crystals, money, stats.creds, earned⟩)

def sellAllCrystals (player : Nat) (price : PerKind) : MarketState × Option SellOutcome :=
  match (s.players player).bind (·.stats) with
  | none => (s, none)
  | some stats => s.sellCrystals player price stats.crystals

def buyCrystals (player : Nat) (price sliders : PerKind) : MarketState × Option BuyOutcome :=
  match s.trader player with
  | none => (s, none)
  | some stats =>
      match buyLoop price sliders stats.money (List.finRange 6) stats.crystals 0 with
      | none => (s, none)
      | some (crystals, spent) =>
          if spent ≤ 0 then (s, none)
          else
            let money := saturatingSubI64 stats.money spent
            (s.setStats player { stats with crystals := crystals, money := money },
              some ⟨crystals, money, stats.creds, spent⟩)

end MarketState

inductive MarketEvent
  | economy (e : EconomyEvent)
  | sell (player : Nat) (sliders : PerKind) (meanwhile : Meanwhile)
  | sellAll (player : Nat) (meanwhile : Meanwhile)
  | buy (player : Nat) (sliders : PerKind) (meanwhile : Meanwhile)

namespace MarketState

variable (s : MarketState)

def sellPrices (meanwhile : Meanwhile) : PerKind := fun i => (s.economy.whenReads meanwhile i).getCrystalCost i

def buyPrices (meanwhile : Meanwhile) : PerKind := fun i => (s.economy.whenReads meanwhile i).getCrystalBuyPrice i

def trade (t : MarketState) (meanwhile : Meanwhile) : MarketState :=
  { t with economy := s.economy.afterTrade meanwhile }

def step : MarketEvent → MarketState
  | .economy e => { s with economy := s.economy.step e }
  | .sell player sliders meanwhile =>
      s.trade (s.sellCrystals player (s.sellPrices meanwhile) sliders).1 meanwhile
  | .sellAll player meanwhile => s.trade (s.sellAllCrystals player (s.sellPrices meanwhile)).1 meanwhile
  | .buy player sliders meanwhile => s.trade (s.buyCrystals player (s.buyPrices meanwhile) sliders).1 meanwhile

def run (es : List MarketEvent) : MarketState := es.foldl step s

end MarketState

end OpenMines.Market

import Mathlib.Algebra.BigOperators.Group.Finset.Basic
import Mathlib.Algebra.BigOperators.Group.List.Lemmas
import Mathlib.Algebra.Order.BigOperators.Group.Finset
import Mathlib.Algebra.Order.Ring.Int
import Mathlib.Data.List.Infix
import Mathlib.Tactic.FinCases
import Mathlib.Tactic.Linarith
import OpenMines.Market

namespace OpenMines.Market

open Lib.CheckedInt

theorem crysCostBase_bounds (i : Fin 6) : 8 ≤ (crysCostBase i).toInt ∧ (crysCostBase i).toInt ≤ 40 := by
  fin_cases i <;> decide

theorem crysCostModDefault_bounds (i : Fin 6) :
    0 ≤ (crysCostModDefault i).toInt ∧ (crysCostBase i).toInt + (crysCostModDefault i).toInt ≤ 70 := by
  fin_cases i <;> decide

namespace CrystalEconomy

/-- No price is below its base or above 70. -/
structure Bounded (eco : CrystalEconomy) : Prop where
  costMod_nonneg : ∀ i, 0 ≤ (eco.costMod i).toInt
  cost_le : ∀ i, (crysCostBase i).toInt + (eco.costMod i).toInt ≤ 70

theorem bounded_default (now : Nat) : (default now).Bounded where
  costMod_nonneg i := (crysCostModDefault_bounds i).1
  cost_le i := (crysCostModDefault_bounds i).2

variable {eco : CrystalEconomy}

theorem toInt_cost (h : eco.Bounded) (i : Fin 6) :
    (crysCostBase i + eco.costMod i).toInt = (crysCostBase i).toInt + (eco.costMod i).toInt := by
  have hbase := crysCostBase_bounds i
  have hmod := h.costMod_nonneg i
  have hle := h.cost_le i
  rw [toInt_add_of_nonneg (by omega) hmod, if_pos (by omega)]

theorem bounded_adjustCostMod (h : eco.Bounded) (summary : PerKind) (i : Fin 6) :
    0 ≤ (adjustCostMod eco.costMod summary i).toInt ∧
      (crysCostBase i).toInt + (adjustCostMod eco.costMod summary i).toInt ≤ 70 := by
  have hmod := h.costMod_nonneg i
  have hle := h.cost_le i
  have hbase := crysCostBase_bounds i
  have hone : (1 : Int64).toInt = 1 := rfl
  rw [adjustCostMod]
  split
  · split
    · rename_i hdown
      have hpos : (0 : Int64).toInt < (eco.costMod i).toInt := Int64.lt_iff_toInt_lt.mp hdown.2
      have hzero : (0 : Int64).toInt = 0 := rfl
      have hsub : (eco.costMod i - 1).toInt = (eco.costMod i).toInt - 1 := by
        rw [Int64.toInt_sub, hone]
        exact Int.bmod_eq_of_le (by omega) (by omega)
      rw [hsub]
      omega
    · split
      · rename_i hup
        have hlt := Int64.lt_iff_toInt_lt.mp hup.2
        have hmax : (70 : Int64).toInt = 70 := rfl
        rw [toInt_cost h, hmax] at hlt
        rw [toInt_add_of_nonneg hmod (by rw [hone]; omega), hone, if_pos (by omega)]
        omega
      · exact ⟨hmod, hle⟩
  · exact ⟨hmod, hle⟩

theorem Bounded.step (h : eco.Bounded) (e : EconomyEvent) : (eco.step e).Bounded := by
  cases e with
  | addDob t dob =>
      rw [CrystalEconomy.step, addDob]
      split
      · exact ⟨h.costMod_nonneg, h.cost_le⟩
      · exact h
  | tick now =>
      rw [CrystalEconomy.step, tickCrystalPrices]
      split
      · exact h
      · exact ⟨fun i => (bounded_adjustCostMod h _ i).1, fun i => (bounded_adjustCostMod h _ i).2⟩

theorem Bounded.run (h : eco.Bounded) (es : List EconomyEvent) : (eco.run es).Bounded := by
  induction es generalizing eco with
  | nil => exact h
  | cons e es ih => exact ih (h.step e)

theorem cost_bounds (h : eco.Bounded) (i : Fin 6) :
    8 ≤ (eco.getCrystalCost i).toInt ∧ (eco.getCrystalCost i).toInt ≤ 70 := by
  have hbase := crysCostBase_bounds i
  have hmod := h.costMod_nonneg i
  have hle := h.cost_le i
  rw [getCrystalCost, toInt_cost h]
  omega

theorem buyPrice_bounds (h : eco.Bounded) (i : Fin 6) :
    80 ≤ (eco.getCrystalBuyPrice i).toInt ∧ (eco.getCrystalBuyPrice i).toInt ≤ 700 := by
  obtain ⟨hlow, hhigh⟩ := cost_bounds h i
  have hten : (10 : Int64).toInt = 10 := rfl
  have hmul : (eco.getCrystalBuyPrice i).toInt = (eco.getCrystalCost i).toInt * 10 := by
    rw [getCrystalBuyPrice, Int64.toInt_mul, hten]
    exact Int.bmod_eq_of_le (by omega) (by omega)
  omega

end CrystalEconomy

section Trade

def total (crystals : PerKind) : Int := ∑ i, (crystals i).toInt

theorem total_update (crystals : PerKind) (i : Fin 6) (n : Int64) :
    total (Function.update crystals i n) = total crystals - (crystals i).toInt + n.toInt := by
  fin_cases i <;> simp [total, Fin.sum_univ_six, Function.update_apply] <;> omega

def Nonneg (crystals : PerKind) : Prop := ∀ i, 0 ≤ (crystals i).toInt

theorem Nonneg.update {crystals : PerKind} (h : Nonneg crystals) {i : Fin 6} {n : Int64} (hn : 0 ≤ n.toInt) :
    Nonneg (Function.update crystals i n) := by
  intro j
  by_cases hj : j = i
  · rw [hj, Function.update_self]
    exact hn
  · rw [Function.update_of_ne hj]
    exact h j

variable {price sliders : PerKind}

/-- A sale gives at most 70 for each crystal. -/
theorem sellLoop_spec (hprice : ∀ i, 0 ≤ (price i).toInt ∧ (price i).toInt ≤ 70) (is : List (Fin 6))
    (crystals : PerKind) (earned : Int64) (hcrystals : Nonneg crystals) (hearned : 0 ≤ earned.toInt) :
    Nonneg (sellLoop price sliders is crystals earned).1 ∧
      0 ≤ (sellLoop price sliders is crystals earned).2.toInt ∧
      (sellLoop price sliders is crystals earned).2.toInt + 70 * total (sellLoop price sliders is crystals earned).1 ≤
        earned.toInt + 70 * total crystals := by
  induction is generalizing crystals earned with
  | nil => exact ⟨hcrystals, hearned, le_refl _⟩
  | cons i is ih =>
      rw [sellLoop]
      split
      · exact ih crystals earned hcrystals hearned
      · rename_i hpos
        split
        · rename_i hle
          split
          · rename_i sum hsum
            have hsell : 0 < (sliders i).toInt := by
              have h := Int64.not_le.mp hpos
              exact Int64.lt_iff_toInt_lt.mp h
            have hhas := Int64.le_iff_toInt_le.mp hle
            have hfits := (fitsI64_toInt (crystals i)).2
            have hsum := i64_eq_some.mp hsum
            have hsub : (crystals i - sliders i).toInt = (crystals i).toInt - (sliders i).toInt := by
              rw [Int64.toInt_sub]
              exact Int.bmod_eq_of_le (by omega) (by omega)
            have hsum_le : sum.toInt ≤ 70 * (sliders i).toInt := by
              rw [hsum, mul_comm]
              exact mul_le_mul_of_nonneg_right (hprice i).2 hsell.le
            have hsum_nonneg : 0 ≤ sum.toInt := by
              rw [hsum]
              exact mul_nonneg hsell.le (hprice i).1
            have hadd := toInt_clampI64 (earned.toInt + sum.toInt)
            obtain ⟨hnonneg, hearned', hle'⟩ := ih _ (saturatingAddI64 earned sum)
              (hcrystals.update (i := i) (n := crystals i - sliders i) (by omega)) (by rw [saturatingAddI64, hadd]; split_ifs <;> omega)
            refine ⟨hnonneg, hearned', hle'.trans ?_⟩
            rw [total_update, saturatingAddI64, hadd, hsub]
            split_ifs <;> omega
          · exact ih crystals earned hcrystals hearned
        · exact ih crystals earned hcrystals hearned

/-- The kinds that the money pays for, each after what was spent on the kinds before it. -/
def paidKinds (money : Int) (cost : Fin 6 → Int) (sliders : PerKind) : List (Fin 6) → Int → List (Fin 6)
  | [], _ => []
  | i :: is, spent =>
      if 0 < (sliders i).toInt ∧ spent + cost i ≤ money then i :: paidKinds money cost sliders is (spent + cost i)
      else paidKinds money cost sliders is spent

/-- What the sliders ask to pay. -/
def costs (price sliders : PerKind) (i : Fin 6) : Int := (sliders i).toInt * (price i).toInt

/-- The kinds that a purchase by a player pays for. -/
def boughtKinds (price sliders : PerKind) (stats : PlayerStats) : List (Fin 6) :=
  paidKinds stats.money.toInt (costs price sliders) sliders (List.finRange 6) 0

variable (price sliders) in
/-- The count of every kind that the money pays for still fits, in a purchase that goes through. -/
def PurchaseFits (stats : PlayerStats) : Prop :=
  (∀ i, 0 < (sliders i).toInt → FitsI64 (costs price sliders i)) →
    ∀ i ∈ boughtKinds price sliders stats, (stats.crystals i).toInt + (sliders i).toInt ≤ 9223372036854775807

theorem paidKinds_subset {money : Int} {cost : Fin 6 → Int} (is : List (Fin 6)) (spent : Int) :
    (paidKinds money cost sliders is spent).Sublist is := by
  induction is generalizing spent with
  | nil => exact List.Sublist.refl _
  | cons i is ih =>
      rw [paidKinds]
      split
      · exact (ih _).cons_cons i
      · exact (ih _).cons i

theorem slider_pos_of_mem_paidKinds {money : Int} {cost : Fin 6 → Int} {is : List (Fin 6)} {spent : Int} {i : Fin 6}
    (h : i ∈ paidKinds money cost sliders is spent) : 0 < (sliders i).toInt := by
  induction is generalizing spent with
  | nil => cases h
  | cons j is ih =>
      rw [paidKinds] at h
      split at h
      · rename_i hj
        rcases List.mem_cons.mp h with rfl | h
        · exact hj.1
        · exact ih h
      · exact ih h

theorem buyLoop_eq_none {money : Int64} {is : List (Fin 6)} {crystals : PerKind} {spent : Int64} :
    buyLoop price sliders money is crystals spent = none ↔
      ∃ i ∈ is, 0 < (sliders i).toInt ∧ ¬ FitsI64 (costs price sliders i) := by
  induction is generalizing crystals spent with
  | nil => simp [buyLoop]
  | cons i is ih =>
      rw [List.exists_mem_cons_iff, buyLoop]
      split
      · rename_i hle
        have hzero := Int64.le_iff_toInt_le.mp hle
        have hnot : ¬ 0 < (sliders i).toInt := Int.not_lt.mpr hzero
        simp only [ih, hnot, false_and, false_or]
      · rename_i hpos
        have hslider := Int64.lt_iff_toInt_lt.mp (Int64.not_le.mp hpos)
        split
        · rename_i hcost
          exact iff_of_true rfl (Or.inl ⟨hslider, i64_eq_none.mp hcost⟩)
        · rename_i cost hcost
          have hfits : FitsI64 (costs price sliders i) := by
            rw [costs, ← i64_eq_some.mp hcost]
            exact fitsI64_toInt cost
          simp only [hfits, not_true_eq_false, and_false, false_or]
          split <;> exact ih

/-- A purchase takes the cost of every kind that the money pays for, and gives that kind only. -/
theorem buyLoop_spec {money : Int64} {is : List (Fin 6)} (hnodup : is.Nodup) {crystals crystals' : PerKind}
    {spent spent' : Int64} (hprice : ∀ i, 0 ≤ (price i).toInt) (hspent : 0 ≤ spent.toInt)
    (hmoney : spent.toInt ≤ money.toInt)
    (h : buyLoop price sliders money is crystals spent = some (crystals', spent')) :
    spent'.toInt ≤ money.toInt ∧
      spent'.toInt = spent.toInt +
        ((paidKinds money.toInt (costs price sliders) sliders is spent.toInt).map (costs price sliders)).sum ∧
      ∀ j, crystals' j = if j ∈ paidKinds money.toInt (costs price sliders) sliders is spent.toInt
        then crystals j + sliders j else crystals j := by
  induction is generalizing crystals spent with
  | nil =>
      obtain ⟨rfl, rfl⟩ := Prod.mk.inj (Option.some_inj.mp h)
      exact ⟨hmoney, by simp [paidKinds], fun j => by simp [paidKinds]⟩
  | cons i is ih =>
      obtain ⟨hi, his⟩ := List.nodup_cons.mp hnodup
      rw [buyLoop] at h
      rw [paidKinds]
      split at h
      · rename_i hle
        have hzero := Int64.le_iff_toInt_le.mp hle
        rw [if_neg (fun hpos => absurd hpos.1 (Int.not_lt.mpr hzero))]
        exact ih his hspent hmoney h
      · rename_i hpos
        have hslider := Int64.lt_iff_toInt_lt.mp (Int64.not_le.mp hpos)
        have hzero : (0 : Int64).toInt = 0 := rfl
        split at h
        · cases h
        · rename_i cost hcost
          have hcosts : cost.toInt = costs price sliders i := i64_eq_some.mp hcost
          have hcost_nonneg : 0 ≤ cost.toInt := by
            rw [hcosts]
            exact mul_nonneg (by omega) (hprice i)
          have hmax := (fitsI64_toInt money).2
          have hsub : (saturatingSubI64 money spent).toInt = money.toInt - spent.toInt := by
            rw [saturatingSubI64, toInt_clampI64, if_neg (by omega), if_neg (by omega)]
          split at h
          · rename_i hpay
            have hle := Int64.le_iff_toInt_le.mp hpay
            rw [hsub] at hle
            have hadd : (saturatingAddI64 spent cost).toInt = spent.toInt + costs price sliders i := by
              rw [saturatingAddI64, toInt_clampI64, if_neg (by omega), if_neg (by omega), hcosts]
            obtain ⟨hle', hsum, hcrystals⟩ := ih his (by omega) (by omega) h
            rw [hadd] at hsum hcrystals
            rw [if_pos ⟨by omega, by omega⟩]
            refine ⟨hle', ?_, fun j => ?_⟩
            · rw [hsum, List.map_cons, List.sum_cons, add_assoc]
            · rw [hcrystals]
              by_cases hj : j = i
              · have hnot : i ∉ paidKinds money.toInt (costs price sliders) sliders is
                    (spent.toInt + costs price sliders i) :=
                  fun hmem => hi ((paidKinds_subset is _).subset hmem)
                rw [hj, if_neg hnot, if_pos (List.mem_cons_self ..), Function.update_self]
              · rw [Function.update_of_ne hj]
                simp only [List.mem_cons, hj, false_or]
          · rename_i hpay
            have hlt := Int64.lt_iff_toInt_lt.mp (Int64.not_le.mp hpay)
            rw [hsub] at hlt
            rw [if_neg (fun hpos => by omega)]
            exact ih his hspent hmoney h

end Trade

namespace PlayerStats

def Nonneg (stats : PlayerStats) : Prop := 0 ≤ stats.money.toInt ∧ Market.Nonneg stats.crystals

/-- The money and what the crystals bring at the highest price. -/
def potential (stats : PlayerStats) : Int := stats.money.toInt + 70 * total stats.crystals

theorem Nonneg.total {stats : PlayerStats} (h : stats.Nonneg) : 0 ≤ total stats.crystals :=
  Finset.sum_nonneg fun i _ => h.2 i

theorem Nonneg.money_le_potential {stats : PlayerStats} (h : stats.Nonneg) : stats.money.toInt ≤ stats.potential := by
  have htotal := h.total
  rw [potential]
  omega

end PlayerStats

section Trade

variable {price sliders : PerKind} {stats : PlayerStats}

theorem sum_costs_ge (hprice : ∀ i, 80 ≤ (price i).toInt) {paid : List (Fin 6)}
    (hpos : ∀ i ∈ paid, 0 < (sliders i).toInt) :
    70 * (paid.map fun i => (sliders i).toInt).sum ≤ (paid.map (costs price sliders)).sum := by
  induction paid with
  | nil => simp
  | cons i paid ih =>
      have hi := hpos i (List.mem_cons_self ..)
      have hrest := ih fun j hj => hpos j (List.mem_cons_of_mem _ hj)
      have hcost : 80 * (sliders i).toInt ≤ costs price sliders i := by
        rw [costs, mul_comm]
        exact mul_le_mul_of_nonneg_left (hprice i) hi.le
      rw [List.map_cons, List.map_cons, List.sum_cons, List.sum_cons]
      omega

theorem total_bought {crystals crystals' : PerKind} {paid : List (Fin 6)} (hnodup : paid.Nodup)
    (hcrystals : ∀ i, (crystals' i).toInt = (crystals i).toInt + if i ∈ paid then (sliders i).toInt else 0) :
    total crystals' = total crystals + (paid.map fun i => (sliders i).toInt).sum := by
  have hsum : (paid.map fun i => (sliders i).toInt).sum = ∑ i ∈ paid.toFinset, (sliders i).toInt :=
    (List.sum_toFinset _ hnodup).symm
  rw [total, Finset.sum_congr rfl fun i _ => hcrystals i, Finset.sum_add_distrib, hsum, ← Finset.sum_filter]
  congr 2
  ext i
  simp

section Bought

variable (hprice : ∀ i, 80 ≤ (price i).toInt) (hstats : stats.Nonneg) {crystals : PerKind} {spent : Int64}
  (h : buyLoop price sliders stats.money (List.finRange 6) stats.crystals 0 = some (crystals, spent))

include hprice hstats h

theorem bought : spent.toInt ≤ stats.money.toInt ∧
    spent.toInt = ((boughtKinds price sliders stats).map (costs price sliders)).sum ∧
    ∀ i, crystals i = if i ∈ boughtKinds price sliders stats then stats.crystals i + sliders i
      else stats.crystals i := by
  have hpos : ∀ i, 0 ≤ (price i).toInt := fun i => le_trans (by decide) (hprice i)
  have hzero : 0 ≤ (0 : Int64).toInt := by decide
  obtain ⟨hle, hspent, hcrystals⟩ := buyLoop_spec (List.nodup_finRange 6) hpos hzero hstats.1 h
  exact ⟨hle, hspent.trans (zero_add _), hcrystals⟩

theorem PurchaseFits.of_nonneg (hcrystals : Nonneg crystals) : PurchaseFits price sliders stats := by
  intro _ i hi
  have hcount := hcrystals i
  have hslider := slider_pos_of_mem_paidKinds hi
  rw [(bought hprice hstats h).2.2, if_pos hi, toInt_add_of_nonneg (hstats.2 i) hslider.le] at hcount
  have hcrystal := (fitsI64_toInt (stats.crystals i)).2
  have hmax := (fitsI64_toInt (sliders i)).2
  split at hcount <;> omega

theorem PurchaseFits.of_spent_nonpos (hspent : spent.toInt ≤ 0) : PurchaseFits price sliders stats := by
  intro _ i hi
  have hpos : ∀ j ∈ boughtKinds price sliders stats, 0 < (sliders j).toInt := fun j hj => slider_pos_of_mem_paidKinds hj
  have hge := sum_costs_ge hprice hpos
  rw [← (bought hprice hstats h).2.1] at hge
  have hmem := List.mem_map_of_mem (f := fun i => (sliders i).toInt) hi
  have hle := List.single_le_sum (fun n hn => by
    obtain ⟨j, hj, rfl⟩ := List.mem_map.mp hn
    exact (hpos j hj).le) _ hmem
  have hi' := hpos i hi
  omega

/-- Every crystal costs at least 80. -/
theorem PurchaseFits.spec (hfits : PurchaseFits price sliders stats) :
    PlayerStats.Nonneg ⟨crystals, saturatingSubI64 stats.money spent, stats.creds⟩ ∧
      PlayerStats.potential ⟨crystals, saturatingSubI64 stats.money spent, stats.creds⟩ ≤ stats.potential := by
  obtain ⟨hle, hspent, hcrystals⟩ := bought hprice hstats h
  have hcosts : ∀ i, 0 < (sliders i).toInt → FitsI64 (costs price sliders i) := by
    intro i hi
    by_contra hnot
    rw [buyLoop_eq_none.mpr ⟨i, List.mem_finRange i, hi, hnot⟩] at h
    cases h
  have hcount := hfits hcosts
  have hpos : ∀ j ∈ boughtKinds price sliders stats, 0 < (sliders j).toInt := fun j hj => slider_pos_of_mem_paidKinds hj
  have hnodup : (boughtKinds price sliders stats).Nodup :=
    (paidKinds_subset (List.finRange 6) 0).nodup (List.nodup_finRange 6)
  generalize boughtKinds price sliders stats = paid at *
  have hadd : ∀ i, (crystals i).toInt = (stats.crystals i).toInt + if i ∈ paid then (sliders i).toInt else 0 := by
    intro i
    rw [hcrystals]
    split
    · rename_i hi
      rw [toInt_add_of_nonneg (hstats.2 i) (hpos i hi).le, if_pos (hcount i hi)]
    · rw [add_zero]
  have hnonneg : Nonneg crystals := by
    intro i
    have hi := hstats.2 i
    rw [hadd]
    split
    · rename_i hmem
      have hslider := hpos i hmem
      omega
    · omega
  have hmoney : (saturatingSubI64 stats.money spent).toInt = stats.money.toInt - spent.toInt := by
    have hmax := (fitsI64_toInt stats.money).2
    have hmin := (fitsI64_toInt spent).1
    have hspent_nonneg : 0 ≤ spent.toInt := by
      rw [hspent]
      exact List.sum_nonneg fun n hn => by
        obtain ⟨i, hi, rfl⟩ := List.mem_map.mp hn
        exact mul_nonneg (hpos i hi).le (le_trans (by decide) (hprice i))
    have hstart := hstats.1
    rw [saturatingSubI64, toInt_clampI64, if_neg (by omega), if_neg (by omega)]
  refine ⟨⟨?_, hnonneg⟩, ?_⟩
  · rw [hmoney]
    omega
  · have hge := sum_costs_ge hprice hpos
    rw [PlayerStats.potential, PlayerStats.potential, hmoney, total_bought hnodup hadd, hspent]
    omega

end Bought

end Trade

namespace MarketState

variable {s t : MarketState}

def stats (s : MarketState) (player : Nat) : Option PlayerStats := (s.players player).bind (·.stats)

/-- Every price is in its bounds and nobody has less than nothing. -/
structure Sound (s : MarketState) : Prop where
  bounded : s.economy.Bounded
  nonneg : ∀ {player stats}, s.stats player = some stats → stats.Nonneg

/-- No player gained by what happened from one state to the other. -/
def NoGain (s t : MarketState) : Prop :=
  ∀ ⦃player before after⦄, s.stats player = some before → t.stats player = some after →
    after.potential ≤ before.potential

structure Traded (s t : MarketState) : Prop where
  sound : t.Sound
  kept : ∀ player, (t.stats player).isSome = (s.stats player).isSome
  noGain : NoGain s t
  /-- no sequence of trades brings more money than the first state is worth -/
  money_le : ∀ {player before after}, s.stats player = some before → t.stats player = some after →
    after.money.toInt ≤ before.potential

/-- The condition on an event in the state before it. -/
def Fits (s : MarketState) : MarketEvent → Prop
  | .buy player sliders meanwhile =>
      ∀ stats, s.trader player = some stats → PurchaseFits (s.buyPrices meanwhile) sliders stats
  | _ => True

theorem trader_eq_some {player : Nat} {stats : PlayerStats} (h : s.trader player = some stats) :
    s.stats player = some stats := by
  obtain ⟨p, hp, h⟩ := Option.bind_eq_some_iff.mp h
  obtain ⟨_, _, h⟩ := Option.bind_eq_some_iff.mp h
  rw [MarketState.stats, hp]
  exact h

theorem stats_setStats (player other : Nat) (stats : PlayerStats) :
    (s.setStats player stats).stats other = if other = player then some stats else s.stats other := by
  rw [setStats, MarketState.stats]
  by_cases h : other = player
  · simp [h]
  · simp [h, MarketState.stats]

/-- A trade of one player that leaves it no richer. -/
theorem Sound.setStats (hs : s.Sound) {player : Nat} {before after : PlayerStats} (hbefore : s.stats player = some before)
    (hafter : after.Nonneg) (hle : after.potential ≤ before.potential) :
    (s.setStats player after).Sound ∧ NoGain s (s.setStats player after) := by
  refine ⟨⟨hs.bounded, fun {other stats} h => ?_⟩, fun other b a hb ha => ?_⟩
  · rw [stats_setStats] at h
    split at h
    · obtain rfl := Option.some_inj.mp h
      exact hafter
    · exact hs.nonneg h
  · rw [stats_setStats] at ha
    split at ha
    · rename_i hother
      rw [hother, hbefore] at hb
      obtain rfl := Option.some_inj.mp hb
      obtain rfl := Option.some_inj.mp ha
      exact hle
    · obtain rfl := Option.some_inj.mp (hb.symm.trans ha)
      exact le_refl _

theorem NoGain.refl (s : MarketState) : NoGain s s := by
  intro player before after hb ha
  obtain rfl := Option.some_inj.mp (hb.symm.trans ha)
  exact le_refl _

theorem Sound.sellCrystals (hs : s.Sound) (player : Nat) {price : PerKind} (sliders : PerKind)
    (hprice : ∀ i, 8 ≤ (price i).toInt ∧ (price i).toInt ≤ 70) :
    (s.sellCrystals player price sliders).1.Sound ∧ NoGain s (s.sellCrystals player price sliders).1 := by
  rw [MarketState.sellCrystals]
  cases htrader : s.trader player with
  | none => exact ⟨hs, NoGain.refl s⟩
  | some stats =>
      have hstats := trader_eq_some htrader
      obtain ⟨hmoney, hcrystals⟩ := hs.nonneg hstats
      have hzero : 0 ≤ (0 : Int64).toInt := by decide
      have hbounds : ∀ i, 0 ≤ (price i).toInt ∧ (price i).toInt ≤ 70 :=
        fun i => ⟨le_trans (by decide) (hprice i).1, (hprice i).2⟩
      obtain ⟨hnonneg, hearned, hle⟩ :=
        @sellLoop_spec price sliders hbounds (List.finRange 6) stats.crystals 0 hcrystals hzero
      dsimp only
      generalize sellLoop price sliders (List.finRange 6) stats.crystals 0 = sold at *
      obtain ⟨crystals, earned⟩ := sold
      dsimp only at *
      split
      · exact ⟨hs, NoGain.refl s⟩
      · have hadd := toInt_clampI64 (stats.money.toInt + earned.toInt)
        refine hs.setStats hstats ⟨?_, hnonneg⟩ ?_
        · rw [saturatingAddI64, hadd]
          split_ifs <;> omega
        · have hstart : (0 : Int64).toInt = 0 := rfl
          rw [PlayerStats.potential, PlayerStats.potential]
          dsimp only
          rw [saturatingAddI64, hadd]
          split_ifs <;> omega

theorem buyCrystals_spec (hs : s.Sound) (player : Nat) {price : PerKind} (sliders : PerKind)
    (hprice : ∀ i, 80 ≤ (price i).toInt) :
    ((∀ stats, s.trader player = some stats → PurchaseFits price sliders stats) →
      (s.buyCrystals player price sliders).1.Sound ∧ NoGain s (s.buyCrystals player price sliders).1) ∧
    ((∀ stats, (s.buyCrystals player price sliders).1.stats player = some stats → stats.Nonneg) →
      ∀ stats, s.trader player = some stats → PurchaseFits price sliders stats) := by
  rw [buyCrystals]
  cases htrader : s.trader player with
  | none => exact ⟨fun _ => ⟨hs, NoGain.refl s⟩, fun _ _ h => by cases h⟩
  | some stats =>
      have hstats := trader_eq_some htrader
      have hnonneg := hs.nonneg hstats
      simp only [Option.some.injEq, forall_eq']
      cases hloop : buyLoop price sliders stats.money (List.finRange 6) stats.crystals 0 with
      | none =>
          refine ⟨fun _ => ⟨hs, NoGain.refl s⟩, fun _ hcosts => ?_⟩
          obtain ⟨i, _, hpos, hnot⟩ := buyLoop_eq_none.mp hloop
          exact absurd (hcosts i hpos) hnot
      | some r =>
          obtain ⟨crystals, spent⟩ := r
          dsimp only
          split
          · rename_i hspent
            have hle := Int64.le_iff_toInt_le.mp hspent
            exact ⟨fun _ => ⟨hs, NoGain.refl s⟩, fun _ => .of_spent_nonpos hprice hnonneg hloop hle⟩
          · refine ⟨fun hfits => ?_, fun hsound => ?_⟩
            · obtain ⟨hafter, hle⟩ := hfits.spec hprice hnonneg hloop
              exact hs.setStats hstats hafter hle
            · have hafter := hsound _ ((stats_setStats player player _).trans (if_pos rfl))
              exact .of_nonneg hprice hnonneg hloop hafter.2

theorem Sound.trade (ht : t.Sound) (hs : s.Sound) (meanwhile : Meanwhile) : (s.trade t meanwhile).Sound :=
  ⟨hs.bounded.run _, ht.nonneg⟩

theorem Sound.sellPrices (hs : s.Sound) (meanwhile : Meanwhile) (i : Fin 6) :
    8 ≤ (s.sellPrices meanwhile i).toInt ∧ (s.sellPrices meanwhile i).toInt ≤ 70 :=
  CrystalEconomy.cost_bounds (hs.bounded.run _) i

theorem Sound.buyPrices (hs : s.Sound) (meanwhile : Meanwhile) (i : Fin 6) : 80 ≤ (s.buyPrices meanwhile i).toInt :=
  (CrystalEconomy.buyPrice_bounds (hs.bounded.run _) i).1

theorem Sound.step (hs : s.Sound) {e : MarketEvent} (hfits : s.Fits e) : (s.step e).Sound ∧ NoGain s (s.step e) := by
  cases e with
  | economy e => exact ⟨⟨hs.bounded.step e, hs.nonneg⟩, NoGain.refl s⟩
  | sell player sliders meanwhile =>
      obtain ⟨hsound, hgain⟩ := hs.sellCrystals player sliders (hs.sellPrices meanwhile)
      exact ⟨hsound.trade hs meanwhile, hgain⟩
  | sellAll player meanwhile =>
      rw [MarketState.step, sellAllCrystals]
      cases (s.players player).bind (·.stats) with
      | none => exact ⟨hs.trade hs meanwhile, NoGain.refl s⟩
      | some stats =>
          obtain ⟨hsound, hgain⟩ := hs.sellCrystals player stats.crystals (hs.sellPrices meanwhile)
          exact ⟨hsound.trade hs meanwhile, hgain⟩
  | buy player sliders meanwhile =>
      obtain ⟨hsound, hgain⟩ := (buyCrystals_spec hs player sliders (hs.buyPrices meanwhile)).1 hfits
      exact ⟨hsound.trade hs meanwhile, hgain⟩

theorem Sound.fits (hs : s.Sound) {e : MarketEvent} (h : (s.step e).Sound) : s.Fits e := by
  cases e with
  | economy | sell | sellAll => trivial
  | buy player sliders meanwhile =>
      exact (buyCrystals_spec hs player sliders (hs.buyPrices meanwhile)).2 fun _ => h.nonneg

theorem run_concat (s : MarketState) (es : List MarketEvent) (e : MarketEvent) :
    s.run (es ++ [e]) = (s.run es).step e := List.foldl_concat ..

theorem isSome_stats_setStats {player : Nat} {before : PlayerStats} (hbefore : s.stats player = some before)
    (after : PlayerStats) (other : Nat) : ((s.setStats player after).stats other).isSome = (s.stats other).isSome := by
  rw [stats_setStats]
  split
  · rename_i hother
    rw [hother, hbefore]
    rfl
  · rfl

theorem isSome_stats_sellCrystals (player : Nat) (price sliders : PerKind) (other : Nat) :
    ((s.sellCrystals player price sliders).1.stats other).isSome = (s.stats other).isSome := by
  rw [MarketState.sellCrystals]
  cases htrader : s.trader player with
  | none => rfl
  | some stats =>
      dsimp only
      split
      · rfl
      · exact isSome_stats_setStats (trader_eq_some htrader) _ other

theorem isSome_stats_step (s : MarketState) (e : MarketEvent) (other : Nat) :
    ((s.step e).stats other).isSome = (s.stats other).isSome := by
  cases e with
  | economy e => rfl
  | sell player sliders meanwhile => exact isSome_stats_sellCrystals player _ sliders other
  | sellAll player meanwhile =>
      rw [MarketState.step, sellAllCrystals]
      cases (s.players player).bind (·.stats) with
      | none => rfl
      | some stats => exact isSome_stats_sellCrystals player _ stats.crystals other
  | buy player sliders meanwhile =>
      rw [MarketState.step, buyCrystals]
      cases htrader : s.trader player with
      | none => rfl
      | some stats =>
          dsimp only
          split
          · rfl
          · split
            · rfl
            · exact isSome_stats_setStats (trader_eq_some htrader) _ other

theorem NoGain.trans {u : MarketState} (hst : NoGain s t) (htu : NoGain t u)
    (hkept : ∀ player, (t.stats player).isSome = (s.stats player).isSome) : NoGain s u := by
  intro player before after hb ha
  have hmiddle : (t.stats player).isSome := by rw [hkept, hb]; rfl
  obtain ⟨middle, hm⟩ := Option.isSome_iff_exists.mp hmiddle
  exact (htu hm ha).trans (hst hb hm)

theorem Traded.refl (hs : s.Sound) : Traded s s where
  sound := hs
  kept _ := rfl
  noGain := NoGain.refl s
  money_le hb ha := by
    obtain rfl := Option.some_inj.mp (hb.symm.trans ha)
    exact (hs.nonneg hb).money_le_potential

theorem Traded.step (h : Traded s t) {e : MarketEvent} (hfits : t.Fits e) : Traded s (t.step e) := by
  obtain ⟨hsound, hgain⟩ := h.sound.step hfits
  have hnoGain := h.noGain.trans hgain h.kept
  exact {
    sound := hsound
    kept := fun player => (isSome_stats_step t e player).trans (h.kept player)
    noGain := hnoGain
    money_le := fun hb ha => (hsound.nonneg ha).money_le_potential.trans (hnoGain hb ha) }

theorem run_append (s : MarketState) (es fs : List MarketEvent) : s.run (es ++ fs) = (s.run es).run fs :=
  List.foldl_append ..

/-- The server starts with the default prices. -/
structure Start (s : MarketState) : Prop where
  economy : ∃ now, s.economy = CrystalEconomy.default now
  nonneg : ∀ {player stats}, s.stats player = some stats → stats.Nonneg

theorem Start.sound (hs : s.Start) : s.Sound := by
  obtain ⟨now, hnow⟩ := hs.economy
  exact ⟨hnow ▸ CrystalEconomy.bounded_default now, hs.nonneg⟩

theorem Traded.run (h : Traded s t) {es : List MarketEvent}
    (hfits : ∀ fs e, fs ++ [e] <+: es → (t.run fs).Fits e) : Traded s (t.run es) := by
  induction es using List.reverseRecOn with
  | nil => exact h
  | append_singleton es e ih =>
      have hes := ih fun fs f hf => hfits fs f (hf.trans (List.prefix_append es [e]))
      rw [run_concat]
      exact hes.step (hfits es e (List.prefix_refl _))

/-- Between any two states of a run nobody gains just when every purchase adds counts that fit. -/
theorem no_arbitrage_iff (hs : s.Start) (es : List MarketEvent) :
    (∀ fs gs, fs ++ gs <+: es → Traded (s.run fs) (s.run (fs ++ gs))) ↔
      ∀ fs e, fs ++ [e] <+: es → (s.run fs).Fits e := by
  constructor
  · intro h fs e hprefix
    have hfs := (h fs [] (by
      rw [List.append_nil]
      exact (List.prefix_append fs [e]).trans hprefix)).sound
    rw [List.append_nil] at hfs
    have hstep := (h fs [e] hprefix).sound
    rw [run_concat] at hstep
    exact hfs.fits hstep
  · intro h fs gs hprefix
    have hfs : Traded s (s.run fs) := (Traded.refl hs.sound).run fun fs' e hfs' =>
      h fs' e (hfs'.trans ((List.prefix_append fs gs).trans hprefix))
    rw [run_append]
    refine (Traded.refl hfs.sound).run fun gs' e hgs' => ?_
    rw [← run_append]
    refine h (fs ++ gs') e (List.IsPrefix.trans ?_ hprefix)
    rw [List.append_assoc]
    exact (List.prefix_append_right_inj fs).mpr hgs'

/-- One player, with no more than ten thousand of money. -/
def onePlayer (count : Int64) : MarketState where
  economy := .default 0
  players player := if player = 1 then
      some ⟨some ⟨fun i => if i.val = 0 then count else 0, 10000, 0⟩, some ⟨false⟩⟩
    else none

theorem start_onePlayer {count : Int64} (hcount : 0 ≤ count.toInt) : (onePlayer count).Start where
  economy := ⟨0, rfl⟩
  nonneg := by
    intro player stats h
    by_cases hplayer : player = 1
    · rw [hplayer] at h
      obtain rfl := Option.some_inj.mp h
      have hmoney : 0 ≤ (10000 : Int64).toInt := by decide
      refine ⟨hmoney, fun i => ?_⟩
      dsimp only
      split
      · exact hcount
      · exact le_refl (0 : Int)
    · simp [MarketState.stats, onePlayer, hplayer] at h

def buyTen : MarketEvent := .buy 1 ![10, 0, 0, 0, 0, 0] fun _ => []

theorem no_arbitrage_onePlayer :
    Traded ((onePlayer 5).run []) ((onePlayer 5).run [buyTen, .sellAll 1 fun _ => []]) := by
  refine (no_arbitrage_iff (start_onePlayer (by decide)) [buyTen, .sellAll 1 fun _ => []]).mpr
    (fun fs e hprefix => ?_) [] [buyTen, .sellAll 1 fun _ => []] List.prefix_rfl
  cases fs with
  | nil =>
      obtain ⟨rfl, _⟩ := List.cons_prefix_cons.mp hprefix
      intro stats hstats _
      obtain rfl := Option.some_inj.mp hstats
      decide
  | cons f fs =>
      obtain ⟨_, hprefix⟩ := List.cons_prefix_cons.mp hprefix
      cases fs with
      | nil =>
          obtain ⟨rfl, _⟩ := List.cons_prefix_cons.mp hprefix
          trivial
      | cons f fs =>
          obtain ⟨_, hprefix⟩ := List.cons_prefix_cons.mp hprefix
          cases (List.append_eq_nil_iff.mp (List.prefix_nil.mp hprefix)).2

/-- The count of a kind wraps around. -/
theorem buys_past_maximum : (onePlayer 9223372036854775800).Start ∧
    (((onePlayer 9223372036854775800).run [buyTen]).stats 1).map (fun stats => (stats.money, stats.crystals 0)) =
      some (8200, -9223372036854775806) ∧
    ¬ ((onePlayer 9223372036854775800).run [buyTen]).Sound := by
  have hstats : (((onePlayer 9223372036854775800).run [buyTen]).stats 1).map
      (fun stats => (stats.money, stats.crystals 0)) = some (8200, -9223372036854775806) := by
    decide
  refine ⟨start_onePlayer (by decide), hstats, fun hsound => ?_⟩
  obtain ⟨stats, hplayer, hvalues⟩ := Option.map_eq_some_iff.mp hstats
  have hnonneg := (hsound.nonneg hplayer).2 0
  rw [(Prod.mk.inj hvalues).2] at hnonneg
  exact absurd hnonneg (by decide)

end MarketState

end OpenMines.Market

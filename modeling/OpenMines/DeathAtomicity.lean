import OpenMines.BoxAgreement
import OpenMines.DeathCore

namespace OpenMines

open Lib.CheckedInt Lib.Exits

namespace DeathWorld

/-- A box stands in the foreground. -/
def HasBox (s : DeathWorld) (p : WorldPos) : Prop :=
  s.validCoord p = true ∧ s.grid.foreground (worldPos p) = boxCell

def moneyOf (s : DeathWorld) (entity : Entity) : Int := (s.players entity).stats.elim 0 fun stats => stats.money.toInt

def crystalsOf (s : DeathWorld) (entity : Entity) : Fin 6 → Int64 :=
  (s.players entity).stats.elim (fun _ => 0) fun stats => stats.crystals

/-- What the player pays comes to one Resp, which loses one charge, or nothing moves. -/
def MoneyMoves (s : DeathWorld) (entity : Entity) (t : DeathWorld) : Prop :=
  t.moneyOf entity = s.moneyOf entity ∧ t.buildings = s.buildings ∨
    ∃ e stats money money', (s.buildings e).packType = some .resp ∧ (s.buildings e).stats = some stats ∧
      (s.buildings e).money = some money ∧ (t.buildings e).money = some money' ∧
      s.moneyOf entity - t.moneyOf entity = money'.toInt - money.toInt ∧
      (t.buildings e).stats = some { stats with charge := stats.charge - 1 } ∧
      (stats.charge - 1).toInt = stats.charge.toInt - 1 ∧
      ∀ e', e' ≠ e → t.buildings e' = s.buildings e'

/-- The crystals are in the one box that is reported, or gone without any box. -/
def CrystalsBoxed (s : DeathWorld) (entity : Entity) (t : DeathWorld) (output : DeathCoreOutput) : Prop :=
  t.crystalsOf entity = (fun _ => 0) ∧
    (output.broadcasts.boxCell = none ∧ output.save = none ∧ t.boxes = s.boxes ∧
        (∀ p, t.HasBox p → s.HasBox p) ∨
      ∃ p, output.broadcasts.boxCell = some p ∧ output.save = some (p, s.crystalsOf entity) ∧
        t.boxes = Function.update s.boxes p (some (s.crystalsOf entity)) ∧ t.HasBox p)

/-- No box that was there is the one that is reported, or changes. -/
def BoxesKept (s t : DeathWorld) (output : DeathCoreOutput) : Prop :=
  ∀ p crystals, s.boxes p = some crystals → output.broadcasts.boxCell ≠ some p ∧ t.boxes p = some crystals

/-- A death that fails changes nothing, and one that does not conserves the goods. -/
def DiesWhole (s : DeathWorld) (player : PlayerId) (result : DeathWorld × Except DeathCoreError DeathCoreOutput) :
    Prop :=
  (∀ error, result.2 = .error error → result.1 = s) ∧
    ∀ output, result.2 = .ok output → ∀ entity, s.playerEntities player = some entity →
      s.MoneyMoves entity result.1 ∧ s.CrystalsBoxed entity result.1 output ∧ s.BoxesKept result.1 output

/-- The building at the Resp that a player is bound to has what a respawn reads of it. -/
def RespWhole (s : DeathWorld) (d : Dying) : Prop :=
  ∀ x y e, d.resp = (some x, some y) → s.byOrigin (x, y) = some e → (s.buildings e).pending = false →
    ∃ packType, (s.buildings e).packType = some packType ∧ (packType = .resp →
      ∃ stats owner, (s.buildings e).stats = some stats ∧ (s.buildings e).owner = some owner ∧
        (0 < owner → 0 < stats.charge → stats.cost.toInt64 < d.stats.money →
          (s.buildings e).money.isSome ∧ (s.buildings e).dirty.isSome))

/-- The player pays the Resp that it is bound to, with the money that is in it. -/
structure Pays (s : DeathWorld) (d : Dying) (e : Entity) (stats : RespStats) (money : Int64) : Prop where
  bound : ∃ x y, d.resp = (some x, some y) ∧ s.byOrigin (x, y) = some e
  standing : (s.buildings e).pending = false
  isResp : (s.buildings e).packType = some .resp
  hasStats : (s.buildings e).stats = some stats
  owned : ∃ owner, (s.buildings e).owner = some owner ∧ 0 < owner
  charged : 0 < stats.charge
  enough : stats.cost.toInt64 < d.stats.money
  hasMoney : (s.buildings e).money = some money

/-- What a death needs: the Resp can be read, the sums do not wrap, and the box has a free place and a journal. -/
structure DeathClear (cells : BuildingCells) (rules : CellRules) (s : DeathWorld) (d : Dying)
    (boxOk : Bool) : Prop where
  resp : 0 < sumCrystals d.stats.crystals → s.RespWhole d
  basket : s.RespWhole d → 0 < sumCrystals d.stats.crystals ∨ d.stats.crystals = fun _ => 0
  place : s.RespWhole d → 0 < sumCrystals d.stats.crystals → ∀ p, s.deathBoxCoord cells rules d.pos = some p →
    s.boxes p = none ∧ (boxOk = true ∨ s.HasBox p)
  payment : s.RespWhole d → ∀ e stats money, s.Pays d e stats money →
    (FitsI64 (d.stats.money.toInt - stats.cost.toInt) ↔ FitsI64 (money.toInt + stats.cost.toInt))

variable {cells : BuildingCells} {rules : CellRules} {s t : DeathWorld} {d : Dying} {e : Entity}

section Lookups

theorem dyingPlayer_eq_ok {player : PlayerId} (h : s.dyingPlayer player = .ok d) :
    s.playerEntities player = some d.entity ∧ (s.players d.entity).stats = some d.stats := by
  simp only [dyingPlayer, bind_eq_ok, orExit_eq_ok] at h
  obtain ⟨entity, hentity, stats, hstats, pos, -, resp, -, _, -, _, -, _, -, program, -, hd⟩ := h
  obtain rfl := Except.ok.inj hd
  exact ⟨hentity, hstats⟩

/-- The Resp that a player is bound to is there, or there is none, or it lacks something. -/
inductive BoundCases (s : DeathWorld) (resp : Option Int32 × Option Int32) :
    Except DeathCoreError (Option BoundResp) → Prop
  | absent (h : ∀ x y e, resp = (some x, some y) → s.byOrigin (x, y) = some e →
      (s.buildings e).pending = false → ∃ packType, (s.buildings e).packType = some packType ∧ packType ≠ .resp) :
      BoundCases s resp (.ok none)
  | bound (x y : Int32) (e : Entity) (stats : RespStats) (owner : PlayerId) (hresp : resp = (some x, some y))
      (hat : s.byOrigin (x, y) = some e) (hstanding : (s.buildings e).pending = false)
      (hisResp : (s.buildings e).packType = some .resp) (hstats : (s.buildings e).stats = some stats)
      (howner : (s.buildings e).owner = some owner) :
      BoundCases s resp (.ok (some ⟨e, s.buildings e, (x, y), stats, owner⟩))
  | broken (x y : Int32) (e : Entity) (error : DeathCoreError) (hresp : resp = (some x, some y))
      (hat : s.byOrigin (x, y) = some e) (hstanding : (s.buildings e).pending = false)
      (hlacks : ∀ packType, (s.buildings e).packType = some packType → packType = .resp ∧
        ((s.buildings e).stats = none ∨ (s.buildings e).owner = none)) : BoundCases s resp (.error error)

theorem BoundCases.unbound {resp : Option Int32 × Option Int32} (h : ∀ x y, resp ≠ (some x, some y)) :
    s.BoundCases resp (.ok none) := .absent fun x y _ hresp => absurd hresp (h x y)

theorem boundCases_standing {x y : Int32} (hat : s.byOrigin (x, y) = some e)
    (hstanding : (s.buildings e).pending = false) :
    s.BoundCases (some x, some y) (s.boundResp (some x, some y)) := by
  simp only [boundResp, hat, hstanding, Bool.false_eq_true, if_false]
  cases hpackType : (s.buildings e).packType with
  | none =>
      refine .broken x y e _ rfl hat hstanding fun packType h => ?_
      rw [hpackType] at h
      cases h
  | some packType =>
      by_cases hresp : packType = .resp
      · subst hresp
        cases hstats : (s.buildings e).stats with
        | none =>
            refine .broken x y e _ rfl hat hstanding fun packType h => ?_
            rw [hpackType] at h
            exact ⟨(Option.some_inj.mp h).symm, .inl hstats⟩
        | some stats =>
            cases howner : (s.buildings e).owner with
            | none =>
                refine .broken x y e _ rfl hat hstanding fun packType h => ?_
                rw [hpackType] at h
                exact ⟨(Option.some_inj.mp h).symm, .inr howner⟩
            | some owner => exact .bound x y e stats owner rfl hat hstanding hpackType hstats howner
      · show s.BoundCases (some x, some y) (if packType ≠ .resp then .ok none else _)
        rw [if_pos hresp]
        refine .absent fun x' y' e' hsame hat' _ => ?_
        cases hsame
        obtain rfl := Option.some_inj.mp (hat.symm.trans hat')
        exact ⟨packType, hpackType, hresp⟩

theorem boundResp_cases (s : DeathWorld) (resp : Option Int32 × Option Int32) :
    s.BoundCases resp (s.boundResp resp) := by
  obtain ⟨rx, ry⟩ := resp
  cases rx with
  | none => exact .unbound fun x y h => Option.some_ne_none x (Prod.mk.inj h).1.symm
  | some x =>
      cases ry with
      | none => exact .unbound fun x y h => Option.some_ne_none y (Prod.mk.inj h).2.symm
      | some y =>
          cases hat : s.byOrigin (x, y) with
          | none =>
              simp only [boundResp, hat]
              refine .absent fun x' y' e hsame hat' => ?_
              cases hsame
              rw [hat] at hat'
              cases hat'
          | some e =>
              cases hstanding : (s.buildings e).pending with
              | false => exact boundCases_standing hat hstanding
              | true =>
                  simp only [boundResp, hat, hstanding, if_true]
                  refine .absent fun x' y' e' hsame hat' hstanding' => ?_
                  cases hsame
                  obtain rfl := Option.some_inj.mp (hat.symm.trans hat')
                  rw [hstanding] at hstanding'
                  cases hstanding'

theorem Pays.unique {stats stats' : RespStats} {money money' : Int64} {e' : Entity} (h : s.Pays d e stats money)
    (h' : s.Pays d e' stats' money') : e = e' ∧ stats = stats' ∧ money = money' := by
  obtain ⟨x, y, hresp, hat⟩ := h.bound
  obtain ⟨x', y', hresp', hat'⟩ := h'.bound
  cases hresp.symm.trans hresp'
  obtain rfl := Option.some_inj.mp (hat.symm.trans hat')
  exact ⟨rfl, Option.some_inj.mp (h.hasStats.symm.trans h'.hasStats),
    Option.some_inj.mp (h.hasMoney.symm.trans h'.hasMoney)⟩

/-- The ways to choose where a player respawns. -/
inductive RespawnCases (s : DeathWorld) (d : Dying) : Except DeathCoreError Respawn → Prop
  | failed (error : DeathCoreError) (h : ¬ s.RespWhole d) : RespawnCases s d (.error error)
  | unpaid (p : WorldPos) (isFreeResp : Bool) (hwhole : s.RespWhole d)
      (hnone : ∀ e stats money, ¬ s.Pays d e stats money) : RespawnCases s d (.ok ⟨p, isFreeResp, none⟩)
  | paid (p origin : WorldPos) (isFreeResp : Bool) (e : Entity) (stats : RespStats) (owner : PlayerId) (money : Int64)
      (hwhole : s.RespWhole d) (hpays : s.Pays d e stats money) :
      RespawnCases s d (.ok ⟨p, isFreeResp, some (⟨e, s.buildings e, origin, stats, owner⟩, money)⟩)

/-- A respawn at a Resp that can be read. -/
theorem respawnCases_bound {x y : Int32} {stats : RespStats} {owner : PlayerId} (p q : WorldPos)
    (hresp : d.resp = (some x, some y)) (hat : s.byOrigin (x, y) = some e)
    (hstanding : (s.buildings e).pending = false) (hisResp : (s.buildings e).packType = some .resp)
    (hstats : (s.buildings e).stats = some stats) (howner : (s.buildings e).owner = some owner) :
    s.RespawnCases d (
      let resp : BoundResp := ⟨e, s.buildings e, (x, y), stats, owner⟩
      if resp.respawnHere d.stats.money then resp.payment.bind fun paid => .ok ⟨p, stats.cost = 0, paid⟩
      else .ok ⟨q, stats.cost = 0, none⟩) := by
  have hwhole (hpaid : 0 < owner → 0 < stats.charge → stats.cost.toInt64 < d.stats.money →
      (s.buildings e).money.isSome ∧ (s.buildings e).dirty.isSome) : s.RespWhole d := by
    intro x' y' e' hresp' hat' _
    cases hresp.symm.trans hresp'
    obtain rfl := Option.some_inj.mp (hat.symm.trans hat')
    exact ⟨.resp, hisResp, fun _ => ⟨stats, owner, hstats, howner, hpaid⟩⟩
  have hpaysOf {e' stats' money'} (h : s.Pays d e' stats' money') :
      0 < owner ∧ 0 < stats.charge ∧ stats.cost.toInt64 < d.stats.money := by
    obtain ⟨x', y', hresp', hat'⟩ := h.bound
    cases hresp.symm.trans hresp'
    obtain rfl := Option.some_inj.mp (hat.symm.trans hat')
    obtain rfl := Option.some_inj.mp (hstats.symm.trans h.hasStats)
    obtain ⟨owner', howner', hpos⟩ := h.owned
    obtain rfl := Option.some_inj.mp (howner.symm.trans howner')
    exact ⟨hpos, h.charged, h.enough⟩
  dsimp only
  by_cases hhere : BoundResp.respawnHere ⟨e, s.buildings e, (x, y), stats, owner⟩ d.stats.money = true
  · rw [if_pos hhere]
    simp only [BoundResp.respawnHere, Bool.or_eq_true, Bool.and_eq_true, decide_eq_true_eq] at hhere
    by_cases hpos : 0 < owner
    · have hne : owner ≠ 0 := by
        rintro rfl
        exact absurd hpos (by decide)
      obtain ⟨hcharged, henough⟩ := hhere.resolve_left hne
      simp only [BoundResp.payment, if_pos hpos]
      have hneeds (h : s.RespWhole d) : (s.buildings e).money.isSome ∧ (s.buildings e).dirty.isSome := by
        obtain ⟨packType, hpackType, hparts⟩ := h x y e hresp hat hstanding
        obtain rfl := Option.some_inj.mp (hisResp.symm.trans hpackType)
        obtain ⟨stats', owner', hstats', howner', hpaid⟩ := hparts rfl
        obtain rfl := Option.some_inj.mp (hstats.symm.trans hstats')
        obtain rfl := Option.some_inj.mp (howner.symm.trans howner')
        exact hpaid hpos hcharged henough
      cases hmoney : (s.buildings e).money with
      | none =>
          refine .failed _ fun h => ?_
          have := (hneeds h).1
          rw [hmoney] at this
          cases this
      | some money =>
          cases hdirty : (s.buildings e).dirty with
          | none =>
              refine .failed _ fun h => ?_
              have := (hneeds h).2
              rw [hdirty] at this
              cases this
          | some dirty =>
              refine .paid p (x, y) _ e stats owner money (hwhole fun _ _ _ => ?_) ?_
              · rw [hmoney, hdirty]
                exact ⟨rfl, rfl⟩
              · exact ⟨⟨x, y, hresp, hat⟩, hstanding, hisResp, hstats, ⟨owner, howner, hpos⟩, hcharged, henough,
                  hmoney⟩
    · simp only [BoundResp.payment, if_neg hpos]
      exact .unpaid p _ (hwhole fun h => absurd h hpos) fun e' stats' money' h => hpos (hpaysOf h).1
  · rw [if_neg hhere]
    simp only [BoundResp.respawnHere, Bool.or_eq_true, Bool.and_eq_true, decide_eq_true_eq, not_or, not_and] at hhere
    refine .unpaid q _ (hwhole fun _ hcharged henough => absurd henough (hhere.2 hcharged)) ?_
    intro e' stats' money' h
    exact hhere.2 (hpaysOf h).2.1 (hpaysOf h).2.2

variable (rules d) in
theorem chooseRespawn_cases (hbuildings : t.buildings = s.buildings) (hbyOrigin : t.byOrigin = s.byOrigin)
    (buildingEntities : List Entity) (draw : RespawnDraw) :
    s.RespawnCases d (t.chooseRespawn rules buildingEntities d draw) := by
  have hbound : t.boundResp d.resp = s.boundResp d.resp := by
    unfold boundResp
    rw [hbuildings, hbyOrigin]
  rw [chooseRespawn, hbound]
  have hcases := s.boundResp_cases d.resp
  generalize s.boundResp d.resp = bound at hcases
  cases hcases with
  | absent h =>
      refine .unpaid _ _ (fun x y e hresp hat hstanding => ?_) fun e stats money hpays => ?_
      · obtain ⟨packType, hpackType, hne⟩ := h x y e hresp hat hstanding
        exact ⟨packType, hpackType, fun heq => absurd heq hne⟩
      · obtain ⟨x, y, hresp, hat⟩ := hpays.bound
        obtain ⟨packType, hpackType, hne⟩ := h x y e hresp hat hpays.standing
        exact hne (Option.some_inj.mp (hpackType.symm.trans hpays.isResp))
  | bound x y e stats owner hresp hat hstanding hisResp hstats howner =>
      exact respawnCases_bound _ _ hresp hat hstanding hisResp hstats howner
  | broken x y e error hresp hat hstanding hlacks =>
      refine .failed _ fun h => ?_
      obtain ⟨packType, hpackType, hparts⟩ := h x y e hresp hat hstanding
      obtain ⟨rfl, hnone⟩ := hlacks packType hpackType
      obtain ⟨stats, owner, hstats, howner, -⟩ := hparts rfl
      rcases hnone with hnone | hnone
      · rw [hstats] at hnone
        cases hnone
      · rw [howner] at hnone
        cases hnone

end Lookups

section Steps

/-- What becomes of the crystals. -/
inductive DropCases (cells : BuildingCells) (rules : CellRules) (s : DeathWorld) (d : Dying) (ok : Bool) :
    DeathWorld × Option WorldPos → Prop
  | kept (h : ¬ 0 < sumCrystals d.stats.crystals) : DropCases cells rules s d ok (s, none)
  | gone (h : 0 < sumCrystals d.stats.crystals) (hcoord : s.deathBoxCoord cells rules d.pos = none) :
      DropCases cells rules s d ok (s.modifyStats d.entity fun stats => { stats with crystals := fun _ => 0 }, none)
  | boxed (h : 0 < sumCrystals d.stats.crystals) (p : WorldPos)
      (hcoord : s.deathBoxCoord cells rules d.pos = some p) : DropCases cells rules s d ok
        ((s.modifyStats d.entity fun stats => { stats with crystals := fun _ => 0 }).putBoxCell rules p
          d.stats.crystals ok, some p)

variable (cells rules) in
theorem dropCrystals_cases (s : DeathWorld) (d : Dying) (ok : Bool) :
    DropCases cells rules s d ok (s.dropCrystals cells rules d ok) := by
  unfold dropCrystals
  by_cases h : 0 < sumCrystals d.stats.crystals
  · rw [if_pos h]
    cases hcoord : s.deathBoxCoord cells rules d.pos with
    | none => exact .gone h hcoord
    | some p => exact .boxed h p hcoord
  · rw [if_neg h]
    exact .kept h

theorem stats_modifyStats (f : DeathStats → DeathStats) :
    ((s.modifyStats e f).players e).stats = (s.players e).stats.map f := by
  simp [modifyStats, modifyPlayer]

theorem stats_cleared (hstats : (s.players d.entity).stats = some d.stats) :
    ((s.modifyStats d.entity fun stats => { stats with crystals := fun _ => 0 }).players d.entity).stats =
      some { d.stats with crystals := fun _ => 0 } := by
  rw [stats_modifyStats, hstats]
  rfl

/-- The steps of a death after the crystals leave them, the boxes and the cells of boxes as they are. -/
structure SameGoods (entity : Entity) (s t : DeathWorld) : Prop where
  crystals : t.crystalsOf entity = s.crystalsOf entity
  boxes : t.boxes = s.boxes
  hasBox : ∀ p, t.HasBox p ↔ s.HasBox p

theorem SameGoods.trans {u : DeathWorld} (hst : SameGoods e s t) (htu : SameGoods e t u) : SameGoods e s u :=
  ⟨htu.crystals.trans hst.crystals, htu.boxes.trans hst.boxes, fun p => (htu.hasBox p).trans (hst.hasBox p)⟩

theorem sameGoods_pay (s : DeathWorld) (d : Dying) (paid : Option (BoundResp × Int64)) :
    SameGoods d.entity s (s.pay d paid) := by
  cases paid with
  | none => exact ⟨rfl, rfl, fun _ => Iff.rfl⟩
  | some paid =>
      refine ⟨?_, rfl, fun _ => Iff.rfl⟩
      show ((s.modifyStats d.entity _).players d.entity).stats.elim _ _ = _
      rw [stats_modifyStats, crystalsOf]
      cases (s.players d.entity).stats <;> rfl

theorem foreground_put (g : CellGrid) (p : Pos) (foreground road : UInt8) (durability : UInt32) :
    (g.put p foreground road durability).foreground = Function.update g.foreground p foreground := rfl

theorem sameGoods_clearSpawnCell (entity : Entity) (s : DeathWorld) (p : WorldPos) (ok : Bool) :
    SameGoods entity s (s.clearSpawnCell rules p ok) := by
  rw [clearSpawnCell]
  split
  · rename_i hmilitary
    refine ⟨rfl, rfl, fun q => ?_⟩
    simp only [HasBox, validCoord, CellGrid.destroy]
    split
    · rename_i hwrite
      simp only [Bool.and_eq_true] at hwrite
      by_cases hq : worldPos q = worldPos p
      · have hnobox : s.grid.foreground (worldPos p) ≠ boxCell := by
          intro hbox
          have hvisible (road : UInt8) : CellGrid.visible boxCell road = boxCell := if_pos (by decide)
          simp only [isMilitary, getCell, CellGrid.getCell, if_pos hwrite.1.1, hbox, hvisible] at hmilitary
          exact absurd hmilitary (by decide)
        constructor
        · rintro ⟨-, hbox⟩
          rw [hq, foreground_put, Function.update_self] at hbox
          exact absurd hbox (by decide)
        · rintro ⟨-, hbox⟩
          exact absurd (hq ▸ hbox) hnobox
      · rw [CellGrid.validCoord_put, foreground_put, Function.update_of_ne hq]
    · exact Iff.rfl
  · exact ⟨rfl, rfl, fun _ => Iff.rfl⟩

theorem sameGoods_respawnAt (s : DeathWorld) (d : Dying) (p : WorldPos) (isFreeResp : Bool) :
    SameGoods d.entity s (s.respawnAt d p isFreeResp) := by
  refine ⟨?_, rfl, fun _ => Iff.rfl⟩
  simp only [crystalsOf, respawnAt, modifyPlayer, Function.update_self]
  cases (s.players d.entity).stats <;> rfl

theorem moneyOf_respawnAt (p : WorldPos) (isFreeResp : Bool) :
    (s.respawnAt d p isFreeResp).moneyOf d.entity = s.moneyOf d.entity := by
  simp only [moneyOf, respawnAt, modifyPlayer, Function.update_self]
  cases (s.players d.entity).stats <;> rfl

theorem clearSpawnCell_kept (s : DeathWorld) (p : WorldPos) (ok : Bool) :
    (s.clearSpawnCell rules p ok).players = s.players ∧ (s.clearSpawnCell rules p ok).buildings = s.buildings := by
  rw [clearSpawnCell]
  split
  · exact ⟨rfl, rfl⟩
  · exact ⟨rfl, rfl⟩

variable (rules) in
/-- The world after a death that goes through. -/
theorem sameGoods_placed (s : DeathWorld) (d : Dying) (paid : Option (BoundResp × Int64)) (p : WorldPos)
    (isFreeResp ok : Bool) :
    SameGoods d.entity s (((s.pay d paid).clearSpawnCell rules p ok).respawnAt d p isFreeResp) :=
  ((sameGoods_pay s d paid).trans (sameGoods_clearSpawnCell _ _ p ok)).trans (sameGoods_respawnAt _ d p isFreeResp)

theorem moneyOf_placed {paid : Option (BoundResp × Int64)} {p : WorldPos} {isFreeResp ok : Bool} :
    (((s.pay d paid).clearSpawnCell rules p ok).respawnAt d p isFreeResp).moneyOf d.entity =
      (s.pay d paid).moneyOf d.entity := by
  rw [moneyOf_respawnAt, moneyOf, (clearSpawnCell_kept _ p ok).1, moneyOf]

theorem hasBox_putBoxCell {p : WorldPos} (crystals : Fin 6 → Int64) (ok : Bool) (hvalid : s.validCoord p = true)
    (q : WorldPos) : (s.putBoxCell rules p crystals ok).HasBox q ↔ s.HasBox q ∨ q = p ∧ ok = true := by
  simp only [HasBox, validCoord, putBoxCell, CellGrid.validCoord_setCellTyped]
  cases ok with
  | false => simp [CellGrid.setCellTyped]
  | true =>
      have hput : (s.grid.setCellTyped rules.toCellDefs (worldPos p) boxCell true).foreground =
          Function.update s.grid.foreground (worldPos p) boxCell := by
        simp only [CellGrid.setCellTyped, CellGrid.writeWorldCell]
        rw [if_pos (by simpa [validCoord] using hvalid), if_neg (by simp [rules.boxSolid.1])]
        rfl
      rw [hput]
      by_cases hq : q = p
      · subst hq
        simp [show s.grid.validCoord (worldPos q) = true from hvalid]
      · rw [Function.update_of_ne fun h => hq (worldPos_inj h)]
        simp [hq]

variable (cells rules t) in
/-- The crystals and the boxes come out right just when the box has a place and is written. -/
theorem goods_iff (ok : Bool) (output : DeathCoreOutput) (hstats : (s.players d.entity).stats = some d.stats)
    (hsame : SameGoods d.entity (s.dropCrystals cells rules d ok).1 t)
    (hreport : output.broadcasts.boxCell = (s.dropCrystals cells rules d ok).2)
    (hsave : output.save = (s.dropCrystals cells rules d ok).2.map fun p => (p, d.stats.crystals)) :
    s.CrystalsBoxed d.entity t output ∧ s.BoxesKept t output ↔
      (0 < sumCrystals d.stats.crystals ∨ d.stats.crystals = fun _ => 0) ∧
        (0 < sumCrystals d.stats.crystals → ∀ p, s.deathBoxCoord cells rules d.pos = some p →
          s.boxes p = none ∧ (ok = true ∨ s.HasBox p)) := by
  have hof : s.crystalsOf d.entity = d.stats.crystals := by
    rw [crystalsOf, hstats]
    rfl
  have hcleared : (s.modifyStats d.entity fun stats => { stats with crystals := fun _ => 0 }).crystalsOf d.entity =
      fun _ => 0 := by
    rw [crystalsOf, stats_cleared hstats]
    rfl
  have hcases := s.dropCrystals_cases cells rules d ok
  generalize s.dropCrystals cells rules d ok = dropped at hcases hsame hreport hsave
  cases hcases with
  | kept h =>
      have hcrystals : t.crystalsOf d.entity = d.stats.crystals := hsame.crystals.trans hof
      constructor
      · exact fun hgoods => ⟨.inr (hcrystals.symm.trans hgoods.1.1), fun hpos => absurd hpos h⟩
      · rintro ⟨hempty, -⟩
        refine ⟨⟨hcrystals.trans (hempty.resolve_left h), .inl ⟨hreport, hsave, hsame.boxes, ?_⟩⟩, ?_⟩
        · exact fun p => (hsame.hasBox p).mp
        · intro p crystals hbox
          rw [hreport, hsame.boxes]
          exact ⟨Option.some_ne_none p ∘ Eq.symm, hbox⟩
  | gone h hcoord =>
      constructor
      · intro _
        refine ⟨.inl h, fun _ p hp => ?_⟩
        rw [hcoord] at hp
        cases hp
      · intro _
        refine ⟨⟨hsame.crystals.trans hcleared, .inl ⟨hreport, hsave, hsame.boxes, ?_⟩⟩, ?_⟩
        · exact fun p => (hsame.hasBox p).mp
        · intro p crystals hbox
          rw [hreport, hsame.boxes]
          exact ⟨Option.some_ne_none p ∘ Eq.symm, hbox⟩
  | boxed h p hcoord =>
      have hvalid : s.validCoord p = true := CellWorld.valid_of_pickBoxCoord (Option.eq_some_of_filter_eq_some hcoord)
      have hput (q : WorldPos) : t.HasBox q ↔ s.HasBox q ∨ q = p ∧ ok = true :=
        (hsame.hasBox q).trans (hasBox_putBoxCell d.stats.crystals ok hvalid q)
      have hboxes : t.boxes = Function.update s.boxes p (some d.stats.crystals) := hsame.boxes
      constructor
      · rintro ⟨⟨-, hboxed⟩, hkept⟩
        refine ⟨.inl h, fun _ p' hp' => ?_⟩
        obtain rfl := Option.some_inj.mp (hcoord.symm.trans hp')
        constructor
        · cases hbox : s.boxes p with
          | none => rfl
          | some crystals => exact absurd hreport (hkept p crystals hbox).1
        · rcases hboxed with ⟨hnone, -⟩ | ⟨q, hq, -, -, hhas⟩
          · rw [hnone] at hreport
            cases hreport
          · obtain rfl := Option.some_inj.mp (hreport.symm.trans hq)
            exact ((hput p).mp hhas).symm.imp_left And.right
      · rintro ⟨-, hplace⟩
        obtain ⟨hfree, hwritten⟩ := hplace h p hcoord
        refine ⟨⟨hsame.crystals.trans hcleared, .inr ⟨p, hreport, ?_, ?_, ?_⟩⟩, ?_⟩
        · rw [hof]
          exact hsave
        · rw [hof]
          exact hboxes
        · exact (hput p).mpr (hwritten.symm.imp_right fun hok => ⟨rfl, hok⟩)
        · intro q crystals hbox
          have hne : q ≠ p := by
            rintro rfl
            rw [hfree] at hbox
            cases hbox
          refine ⟨fun hq => hne (Option.some_inj.mp (hq.symm.trans hreport)), ?_⟩
          rw [hboxes, Function.update_of_ne hne]
          exact hbox

/-- The two sums wrap together or not at all. -/
theorem wraps_together (money till : Int64) (cost : Int32) :
    money.toInt - (money - cost.toInt64).toInt = (till + cost.toInt64).toInt - till.toInt ↔
      (FitsI64 (money.toInt - cost.toInt) ↔ FitsI64 (till.toInt + cost.toInt)) := by
  have hmoney := fitsI64_toInt money
  have htill := fitsI64_toInt till
  have hcost := fitsI32_toInt cost
  rw [Int64.toInt_sub, Int64.toInt_add, Int32.toInt_toInt64, Int.bmod_def, Int.bmod_def]
  unfold FitsI64 FitsI32 at *
  split
  · split
    · omega
    · omega
  · split
    · omega
    · omega

variable (cells rules) in
theorem stats_dropCrystals (hstats : (s.players d.entity).stats = some d.stats) (ok : Bool) :
    ∃ crystals, ((s.dropCrystals cells rules d ok).1.players d.entity).stats = some { d.stats with crystals } := by
  have hcases := s.dropCrystals_cases cells rules d ok
  generalize s.dropCrystals cells rules d ok = dropped at hcases
  cases hcases with
  | kept => exact ⟨d.stats.crystals, hstats⟩
  | gone => exact ⟨_, stats_cleared hstats⟩
  | boxed => exact ⟨_, stats_cleared hstats⟩

theorem moneyOf_dropCrystals (hstats : (s.players d.entity).stats = some d.stats) (ok : Bool) :
    (s.dropCrystals cells rules d ok).1.moneyOf d.entity = s.moneyOf d.entity := by
  obtain ⟨crystals, hdropped⟩ := stats_dropCrystals cells rules hstats ok
  rw [moneyOf, moneyOf, hdropped, hstats]
  rfl

variable (cells rules) in
theorem dropCrystals_kept (s : DeathWorld) (d : Dying) (ok : Bool) :
    (s.dropCrystals cells rules d ok).1.buildings = s.buildings ∧
      (s.dropCrystals cells rules d ok).1.byOrigin = s.byOrigin := by
  have hcases := s.dropCrystals_cases cells rules d ok
  generalize s.dropCrystals cells rules d ok = dropped at hcases
  cases hcases with
  | kept => exact ⟨rfl, rfl⟩
  | gone => exact ⟨rfl, rfl⟩
  | boxed => exact ⟨rfl, rfl⟩

/-- Nothing has been dropped just when there is nothing to drop. -/
theorem dropCrystals_eq_iff (hstats : (s.players d.entity).stats = some d.stats) (ok : Bool) :
    (s.dropCrystals cells rules d ok).1 = s ↔ ¬ 0 < sumCrystals d.stats.crystals := by
  have hchanged {t : DeathWorld} (hpos : 0 < sumCrystals d.stats.crystals)
      (ht : (t.players d.entity).stats = some { d.stats with crystals := fun _ => 0 }) : t ≠ s := by
    rintro rfl
    have hzero := congrArg DeathStats.crystals (Option.some_inj.mp (hstats.symm.trans ht))
    rw [hzero] at hpos
    exact absurd (show 0 < sumCrystals (fun _ => 0) from hpos) (by decide)
  have hcases := s.dropCrystals_cases cells rules d ok
  generalize s.dropCrystals cells rules d ok = dropped at hcases
  cases hcases with
  | kept h => exact ⟨fun _ => h, fun _ => rfl⟩
  | gone h => exact ⟨fun heq => absurd heq (hchanged h (stats_cleared hstats)), fun hn => absurd h hn⟩
  | boxed h p => exact ⟨fun heq => absurd heq (hchanged h (stats_cleared hstats)), fun hn => absurd h hn⟩

theorem moneyMoves_iff {stats : RespStats} {money : Int64} (owner : PlayerId) (origin : WorldPos)
    (hstats : (s.players d.entity).stats = some d.stats) (hpays : s.Pays d e stats money)
    (hmoney : t.moneyOf d.entity = (d.stats.money - stats.cost.toInt64).toInt)
    (hbuildings : t.buildings = (s.payResp d ⟨e, s.buildings e, origin, stats, owner⟩ money).buildings) :
    s.MoneyMoves d.entity t ↔
      (FitsI64 (d.stats.money.toInt - stats.cost.toInt) ↔ FitsI64 (money.toInt + stats.cost.toInt)) := by
  have hof : s.moneyOf d.entity = d.stats.money.toInt := by
    rw [moneyOf, hstats]
    rfl
  have hcharge : (stats.charge - 1).toInt = stats.charge.toInt - 1 := by
    have hpos : 0 < stats.charge.toInt := Int32.lt_iff_toInt_lt.mp hpays.charged
    have hfits := fitsI32_toInt stats.charge
    unfold FitsI32 at hfits
    rw [Int32.toInt_sub, show (1 : Int32).toInt = 1 from rfl]
    exact Int.bmod_eq_of_le (by omega) (by omega)
  have hself : (t.buildings e).stats = some { stats with charge := stats.charge - 1 } ∧
      (t.buildings e).money = some (money + stats.cost.toInt64) := by
    simp [hbuildings, payResp]
  have hothers (e' : Entity) (hne : e' ≠ e) : t.buildings e' = s.buildings e' := by
    rw [hbuildings]
    exact Function.update_of_ne hne _ _
  have hdiffers : (t.buildings e).stats ≠ (s.buildings e).stats := by
    rw [hself.1, hpays.hasStats]
    intro hsame
    have hsame' := congrArg (Int32.toInt ∘ RespStats.charge) (Option.some_inj.mp hsame)
    simp only [Function.comp_apply] at hsame'
    omega
  rw [← wraps_together, MoneyMoves, hof, hmoney]
  constructor
  · rintro (⟨-, hsame⟩ | ⟨e', stats', till, till', -, hs, ht, ht', hmoves, -, -, hrest⟩)
    · exact absurd (congrArg (fun buildings => (buildings e).stats) hsame) hdiffers
    · obtain rfl : e = e' := by
        by_contra hne
        exact hdiffers (congrArg RespBuilding.stats (hrest e hne))
      obtain rfl := Option.some_inj.mp (hs.symm.trans hpays.hasStats)
      obtain rfl := Option.some_inj.mp (ht.symm.trans hpays.hasMoney)
      obtain rfl := Option.some_inj.mp (ht'.symm.trans hself.2)
      exact hmoves
  · intro hmoves
    exact .inr ⟨e, stats, money, _, hpays.isResp, hpays.hasStats, hpays.hasMoney, hself.2, hmoves, hself.1, hcharge,
      hothers⟩

theorem moneyMoves_placed {stats : RespStats} {owner : PlayerId} {money : Int64} {origin p : WorldPos}
    {isFreeResp boxOk spawnOk : Bool} (hstats : (s.players d.entity).stats = some d.stats)
    (hpays : s.Pays d e stats money) :
    s.MoneyMoves d.entity ((((s.dropCrystals cells rules d boxOk).1.pay d
        (some (⟨e, s.buildings e, origin, stats, owner⟩, money))).clearSpawnCell rules p spawnOk).respawnAt d p
          isFreeResp) ↔
      ∀ e stats money, s.Pays d e stats money →
        (FitsI64 (d.stats.money.toInt - stats.cost.toInt) ↔ FitsI64 (money.toInt + stats.cost.toInt)) := by
  refine (moneyMoves_iff owner origin hstats hpays (moneyOf_placed.trans ?_) ?_).trans
    ⟨fun h e' stats' money' hpays' => ?_, fun h => h e stats money hpays⟩
  · obtain ⟨crystals, hdropped⟩ := stats_dropCrystals cells rules hstats boxOk
    show ((modifyStats _ d.entity _).players d.entity).stats.elim _ _ = _
    rw [stats_modifyStats, hdropped]
    rfl
  · refine (clearSpawnCell_kept _ p spawnOk).2.trans ?_
    show Function.update (s.dropCrystals cells rules d boxOk).1.buildings e _ = Function.update s.buildings e _
    rw [(s.dropCrystals_kept cells rules d boxOk).1]
  · obtain ⟨rfl, rfl, rfl⟩ := hpays.unique hpays'
    exact h

end Steps

theorem diesWhole_ok {player : PlayerId} {output : DeathCoreOutput}
    (hentity : s.playerEntities player = some e) : s.DiesWhole player (t, .ok output) ↔
      s.MoneyMoves e t ∧ s.CrystalsBoxed e t output ∧ s.BoxesKept t output := by
  constructor
  · exact fun h => h.2 output rfl e hentity
  · intro h
    refine ⟨fun error herror => ?_, fun output' houtput entity hentity' => ?_⟩
    · cases herror
    · obtain rfl := Except.ok.inj houtput
      obtain rfl := Option.some_inj.mp (hentity.symm.trans hentity')
      exact h

theorem deathClear_iff {ok : Bool} (hwhole : s.RespWhole d) : DeathClear cells rules s d ok ↔
    (∀ e stats money, s.Pays d e stats money →
      (FitsI64 (d.stats.money.toInt - stats.cost.toInt) ↔ FitsI64 (money.toInt + stats.cost.toInt))) ∧
    (0 < sumCrystals d.stats.crystals ∨ d.stats.crystals = fun _ => 0) ∧
    (0 < sumCrystals d.stats.crystals → ∀ p, s.deathBoxCoord cells rules d.pos = some p →
      s.boxes p = none ∧ (ok = true ∨ s.HasBox p)) := by
  constructor
  · exact fun h => ⟨h.payment hwhole, h.basket hwhole, h.place hwhole⟩
  · rintro ⟨hpayment, hbasket, hplace⟩
    exact ⟨fun _ => hwhole, fun _ => hbasket, fun _ => hplace, fun _ => hpayment⟩

/-- A death is whole just when it is clear. -/
theorem diesWhole_iff (cells : BuildingCells) (rules : CellRules) (s : DeathWorld) (buildingEntities : List Entity)
    (player : PlayerId) (draw : RespawnDraw) (boxOk spawnOk : Bool) :
    s.DiesWhole player (s.applyPlayerDeathCore cells rules buildingEntities player draw boxOk spawnOk) ↔
      ∀ d, s.dyingPlayer player = .ok d → DeathClear cells rules s d boxOk := by
  rw [applyPlayerDeathCore]
  cases hdying : s.dyingPlayer player with
  | error error =>
      refine ⟨fun _ d h => ?_, fun _ => ⟨fun _ _ => rfl, fun output h => ?_⟩⟩
      · cases h
      · cases h
  | ok d =>
      obtain ⟨hentity, hstats⟩ := dyingPlayer_eq_ok hdying
      have hclear : (∀ d', Except.ok d = (Except.ok d' : Except DeathCoreError Dying) →
          DeathClear cells rules s d' boxOk) ↔ DeathClear cells rules s d boxOk :=
        ⟨fun h => h d rfl, fun h d' hd => Except.ok.inj hd ▸ h⟩
      rw [hclear]
      obtain ⟨hbuildings, hbyOrigin⟩ := s.dropCrystals_kept cells rules d boxOk
      have hrespawn := chooseRespawn_cases rules d hbuildings hbyOrigin buildingEntities draw
      have hsame := sameGoods_placed rules (s.dropCrystals cells rules d boxOk).1 d
      have hgoods {t : DeathWorld} {output : DeathCoreOutput} := goods_iff cells rules t boxOk output hstats
      dsimp only
      generalize (s.dropCrystals cells rules d boxOk).1.chooseRespawn rules buildingEntities d draw = respawn
        at hrespawn
      cases hrespawn with
      | failed error hbroken =>
          refine Iff.trans ⟨fun h => h.1 error rfl, fun heq => ⟨fun _ _ => heq, fun output h => ?_⟩⟩
            ((dropCrystals_eq_iff hstats boxOk).trans
              ⟨fun hzero => ?_, fun hclear hpos => hbroken (hclear.resp hpos)⟩)
          · cases h
          · exact ⟨fun hpos => absurd hpos hzero, fun h => absurd h hbroken, fun h => absurd h hbroken,
              fun h => absurd h hbroken⟩
      | unpaid p isFreeResp hwhole hnone =>
          refine (diesWhole_ok hentity).trans ((and_congr ?_
            (hgoods (hsame none p isFreeResp spawnOk) rfl rfl)).trans (deathClear_iff hwhole).symm)
          refine iff_of_true (.inl ⟨?_, ?_⟩) fun e stats money hpays => absurd hpays (hnone e stats money)
          · exact moneyOf_placed.trans (moneyOf_dropCrystals hstats boxOk)
          · exact (clearSpawnCell_kept _ p spawnOk).2.trans hbuildings
      | paid p origin isFreeResp e stats owner money hwhole hpays =>
          exact (diesWhole_ok hentity).trans ((and_congr (moneyMoves_placed hstats hpays)
            (hgoods (hsame _ p isFreeResp spawnOk) rfl rfl)).trans (deathClear_iff hwhole).symm)

/-- One player with a crystal of each kind, in a world of one cell. -/
def lonePlayer (cell : UInt8) (box : Option (Fin 6 → Int64)) (resp : Option Int32 × Option Int32) :
    DeathWorld where
  grid := ⟨1, 1, fun _ => cell, fun _ => 0, fun _ => 0⟩
  boxes p := if p = (0, 0) then box else none
  playerEntities player := if player = 1 then some 0 else none
  players _ := {
    stats := some ⟨100, 0, fun _ => 1, 0, 100⟩
    pos := some (0, 0)
    resp := resp
    window := some none
    view := some ⟨none, []⟩
    dirty := some false
    program := some (.new 0) }
  buildings _ := ⟨false, some .resp, some (9, 9), some ⟨10, 5⟩, some 2, none, some false⟩
  byOrigin p := if p = (9, 9) then some 7 else none
  chunkBuildings _ := []
  dirtyBuildings _ := false

/-- A Resp without a till is seen too late, and a box in a full world replaces the one that stands there. -/
theorem diesInHalf :
    ¬ (lonePlayer 0 none (some 9, some 9)).DiesWhole 1 ((lonePlayer 0 none (some 9, some 9)).applyPlayerDeathCore
      (fun _ => none) .cellsJson [7] 1 ⟨0, 0, 0⟩ true true) ∧
    ¬ (lonePlayer boxCell (some fun _ => 5) (none, none)).DiesWhole 1
      ((lonePlayer boxCell (some fun _ => 5) (none, none)).applyPlayerDeathCore
        (fun _ => none) .cellsJson [] 1 ⟨0, 0, 0⟩ true true) := by
  constructor
  · intro h
    have hnotOk : ((lonePlayer 0 none (some 9, some 9)).applyPlayerDeathCore
        (fun _ => none) .cellsJson [7] 1 ⟨0, 0, 0⟩ true true).2.isOk = false := by decide
    obtain ⟨error, herror⟩ := exists_of_not_isOk hnotOk
    have hsame := h.1 error herror
    exact absurd (congrArg (fun s => (s.boxes (0, 0)).isSome) hsame) (by decide)
  · intro h
    have hisOk : ((lonePlayer boxCell (some fun _ => 5) (none, none)).applyPlayerDeathCore
        (fun _ => none) .cellsJson [] 1 ⟨0, 0, 0⟩ true true).2.isOk = true := by decide
    obtain ⟨output, houtput⟩ := exists_of_isOk hisOk
    have hkept := ((h.2 output houtput 0 rfl).2.2 (0, 0) (fun _ => 5) rfl).2
    exact absurd (congrArg (Option.map fun crystals => crystals 0) hkept) (by decide)

end DeathWorld

end OpenMines

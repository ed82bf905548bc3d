import Mathlib.Data.List.Infix
import OpenMines.BuildingSites
import OpenMines.CellWorld

namespace OpenMines

theorem worldPos_inj {p q : WorldPos} (h : worldPos p = worldPos q) : p = q := by
  obtain ⟨hx, hy⟩ := Prod.mk.inj h
  exact Prod.ext (Int32.toInt_inj.mp hx) (Int32.toInt_inj.mp hy)

/-- The grids have the same coordinates. -/
structure SameSize (g h : CellGrid) : Prop where
  width : h.width = g.width
  height : h.height = g.height

/-- A cell of the world is as it was. -/
structure SameAt (g h : CellGrid) (p : WorldPos) : Prop where
  cell : h.getCell (worldPos p) = g.getCell (worldPos p)
  durability : h.getDurability (worldPos p) = g.getDurability (worldPos p)

section Frames

variable {defs : CellDefs} {f : FloatOps} {g h k : CellGrid} {p q : WorldPos} {ok : Bool}

theorem SameSize.refl (g : CellGrid) : SameSize g g := ⟨rfl, rfl⟩

theorem SameSize.trans (hgh : SameSize g h) (hhk : SameSize h k) : SameSize g k :=
  ⟨hhk.width.trans hgh.width, hhk.height.trans hgh.height⟩

theorem SameSize.validCoord (hgh : SameSize g h) (p : Pos) : h.validCoord p = g.validCoord p := by
  rw [CellGrid.validCoord, CellGrid.validCoord, hgh.width, hgh.height]

theorem SameAt.refl (g : CellGrid) (p : WorldPos) : SameAt g g p := ⟨rfl, rfl⟩

theorem SameAt.trans (hgh : SameAt g h p) (hhk : SameAt h k p) : SameAt g k p :=
  ⟨hhk.cell.trans hgh.cell, hhk.durability.trans hgh.durability⟩

theorem sameSize_put (g : CellGrid) (p : Pos) (foreground road : UInt8) (durability : UInt32) :
    SameSize g (g.put p foreground road durability) := ⟨rfl, rfl⟩

theorem sameAt_put (g : CellGrid) (foreground road : UInt8) (durability : UInt32) (hne : p ≠ q) :
    SameAt g (g.put (worldPos q) foreground road durability) p := by
  have hput := CellGrid.put_of_ne (g := g) foreground road durability fun h => hne (worldPos_inj h)
  exact ⟨hput.1, hput.2⟩

theorem sameSize_writeWorldCell (defs : CellDefs) (g : CellGrid) (p : Pos) (cell : WorldCell) (ok : Bool) :
    SameSize g (g.writeWorldCell defs p cell ok) :=
  ⟨CellGrid.width_writeWorldCell, CellGrid.height_writeWorldCell⟩

theorem sameAt_writeWorldCell (defs : CellDefs) (g : CellGrid) (cell : WorldCell) (ok : Bool) (hne : p ≠ q) :
    SameAt g (g.writeWorldCell defs (worldPos q) cell ok) p := by
  have hwrite := CellGrid.writeWorldCell_of_ne defs g cell ok fun h => hne (worldPos_inj h)
  exact ⟨hwrite.1, hwrite.2⟩

theorem sameSize_destroy (defs : CellDefs) (g : CellGrid) (p : Pos) (ok : Bool) :
    SameSize g (g.destroy defs p ok) := by
  rw [CellGrid.destroy]
  split
  · exact sameSize_put ..
  · exact SameSize.refl g

theorem sameAt_destroy (defs : CellDefs) (g : CellGrid) (ok : Bool) (hne : p ≠ q) :
    SameAt g (g.destroy defs (worldPos q) ok) p := by
  rw [CellGrid.destroy]
  split
  · exact sameAt_put _ _ _ _ hne
  · exact SameAt.refl g p

theorem sameSize_damageCell (f : FloatOps) (g : CellGrid) (p : Pos) (dmg : UInt32) (ok : Bool) :
    SameSize g (g.damageCell f p dmg ok).1 := by
  rw [CellGrid.damageCell]
  split
  · dsimp only
    split
    · exact sameSize_put ..
    · exact sameSize_put ..
  · exact SameSize.refl g

theorem sameAt_damageCell (f : FloatOps) (g : CellGrid) (dmg : UInt32) (ok : Bool) (hne : p ≠ q) :
    SameAt g (g.damageCell f (worldPos q) dmg ok).1 p := by
  rw [CellGrid.damageCell]
  split
  · dsimp only
    split
    · exact sameAt_put _ _ _ _ hne
    · exact sameAt_put _ _ _ _ hne
  · exact SameAt.refl g p

theorem sameSize_foldl {α : Type} {step : CellGrid → α → CellGrid} (hstep : ∀ g x, SameSize g (step g x))
    (xs : List α) (g : CellGrid) : SameSize g (xs.foldl step g) := by
  induction xs generalizing g with
  | nil => exact SameSize.refl g
  | cons x xs ih => exact (hstep g x).trans (ih _)

/-- A loop leaves a cell alone when each of its rounds does, as long as the cell is as it was. -/
theorem sameAt_foldl {α : Type} {step : CellGrid → α → CellGrid} (xs : List α) (g h : CellGrid) (p : WorldPos)
    (hgh : SameSize g h ∧ SameAt g h p)
    (hstep : ∀ k, SameSize g k → SameAt g k p → ∀ x ∈ xs, SameSize k (step k x) ∧ SameAt k (step k x) p) :
    SameAt g (xs.foldl step h) p := by
  induction xs generalizing h with
  | nil => exact hgh.2
  | cons x xs ih =>
      obtain ⟨hsize, hsame⟩ := hstep h hgh.1 hgh.2 x List.mem_cons_self
      refine ih (step h x) ⟨hgh.1.trans hsize, hgh.2.trans hsame⟩ fun k hk hkp y hy => ?_
      exact hstep k hk hkp y (List.mem_cons_of_mem _ hy)

end Frames

namespace CellWorld

variable {config : BuildingsConfig} {rules : CellRules} {s t : CellWorld} {player : PlayerId} {p : WorldPos}

/-- The buildings stand in the world, and the index finds them. -/
structure Standing (s : CellWorld) : Prop where
  sound : s.toBuildingIndex.Sound
  valid : ∀ {entity b}, s.entities entity = some b → s.validCoord b.view.origin = true

/-- No cell of a building is changed. -/
def Protects (config : BuildingsConfig) (s t : CellWorld) : Prop :=
  ∀ entity b, s.entities entity = some b → ∀ d ∈ footprint config.cells b.view, SameAt s.grid t.grid d.1

theorem nonneg_of_validCoord (h : s.validCoord p = true) : 0 ≤ p.1.toInt ∧ 0 ≤ p.2.toInt := by
  have hin := of_decide_eq_true h
  exact ⟨hin.1, hin.2.1⟩

/-- It is enough to look at the cells that the covering lookup finds. -/
theorem protects_of (hs : s.Standing) (hsize : SameSize s.grid t.grid)
    (h : ∀ p, s.validCoord p = true → (s.findPackCovering config.cells p).isSome → SameAt s.grid t.grid p) :
    Protects config s t := by
  intro entity b hb q hq
  obtain ⟨c, hc, d, hd, rfl⟩ := mem_footprint.mp hq
  by_cases hvalid : s.validCoord (b.view.x + d.1.1, b.view.y + d.1.2) = true
  · refine h _ hvalid ?_
    exact BuildingIndex.findPackCovering_isSome hs.sound hb (nonneg_of_validCoord (hs.valid hb)) hc hd
      (nonneg_of_validCoord hvalid)
  · have hvalid' := hsize.validCoord (worldPos (b.view.x + d.1.1, b.view.y + d.1.2))
    have hinvalid : s.grid.validCoord (worldPos (b.view.x + d.1.1, b.view.y + d.1.2)) = false :=
      Bool.eq_false_iff.mpr hvalid
    rw [hinvalid] at hvalid'
    constructor
    · rw [CellGrid.getCell, CellGrid.getCell, hinvalid, hvalid']
      rfl
    · rw [CellGrid.getDurability, CellGrid.getDurability, hinvalid, hvalid']
      rfl

/-! ### Digging -/

/-- A dig damages the cell. -/
def Digs (rules : CellRules) (s : CellWorld) (target : WorldPos) : Prop :=
  s.validCoord target = true ∧ s.getCell target ≠ boxCell ∧ rules.isDiggable (s.getCell target) = true

/-- What a dig damages and where it pushes a boulder is covered by no building. -/
def DigClear (config : BuildingsConfig) (rules : CellRules) (s : CellWorld) (target : WorldPos) (dir : Int32) : Prop :=
  s.Digs rules target → s.findPackCovering config.cells target = none ∧
    (isBoulder (s.getCell target) = true → s.validCoord (facing target dir) = true →
      rules.isEmpty (s.getCell (facing target dir)) = true → s.findPackCovering config.cells (facing target dir) = none)

theorem grid_mine (s : CellWorld) (player : PlayerId) (cell : UInt8) (amount : Int) :
    (s.mine player cell amount).grid = s.grid := by
  unfold mine
  split <;> rfl

theorem ne_of_covered (hcovered : (s.findPackCovering config.cells p).isSome) {q : WorldPos}
    (hq : s.findPackCovering config.cells q = none) : p ≠ q := by
  rintro rfl
  rw [hq] at hcovered
  cases hcovered

theorem sameSize_pushBoulder (s : CellWorld) (cell : UInt8) (target dest : WorldPos) (journal : WorldPos → Bool) :
    SameSize s.grid (s.pushBoulder rules cell target dest journal).grid := by
  rw [pushBoulder]
  split
  · exact (sameSize_destroy ..).trans (sameSize_writeWorldCell ..)
  · exact SameSize.refl _

theorem sameAt_pushBoulder (cell : UInt8) {target dest : WorldPos} (journal : WorldPos → Bool) (htarget : p ≠ target)
    (hdest : s.validCoord dest = true → rules.isEmpty (s.getCell dest) = true → p ≠ dest) :
    SameAt s.grid (s.pushBoulder rules cell target dest journal).grid p := by
  rw [pushBoulder]
  split
  · rename_i hpush
    obtain ⟨hvalid, hempty⟩ := Bool.and_eq_true_iff.mp hpush
    exact (sameAt_destroy _ _ _ htarget).trans (sameAt_writeWorldCell _ _ _ _ (hdest hvalid hempty))
  · exact SameAt.refl _ _

theorem sameSize_hitCell (s : CellWorld) (player : PlayerId) (cell : UInt8) (target : WorldPos) (dir : Int32)
    (power : UInt32) (mined : Int) (journal pushed : WorldPos → Bool) :
    SameSize s.grid (s.hitCell rules player cell target dir power mined journal pushed).grid := by
  have hdamage := sameSize_damageCell rules.toFloatOps s.grid (worldPos target) power (journal target)
  unfold hitCell
  dsimp only
  split
  · refine SameSize.trans ?_ (sameSize_pushBoulder ..)
    rw [grid_mine]
    exact hdamage
  · rw [grid_mine]
    exact hdamage

theorem sameAt_hitCell (player : PlayerId) (cell : UInt8) {target : WorldPos} {dir : Int32} (power : UInt32)
    (mined : Int) (journal pushed : WorldPos → Bool) (htarget : p ≠ target)
    (hdest : isBoulder cell = true → s.validCoord (facing target dir) = true →
      rules.isEmpty (s.getCell (facing target dir)) = true → p ≠ facing target dir) :
    SameAt s.grid (s.hitCell rules player cell target dir power mined journal pushed).grid p := by
  have hdamage := sameAt_damageCell rules.toFloatOps s.grid power (journal target) htarget
  have hsize := sameSize_damageCell rules.toFloatOps s.grid (worldPos target) power (journal target)
  unfold hitCell
  dsimp only
  split
  · rename_i hboulder
    refine SameAt.trans ?_ (sameAt_pushBoulder cell pushed htarget fun hvalid hempty => ?_)
    · rw [grid_mine]
      exact hdamage
    · by_cases hself : facing target dir = target
      · rw [hself]
        exact htarget
      · have hsame := sameAt_damageCell rules.toFloatOps s.grid power (journal target) hself
        rw [validCoord, grid_mine, hsize.validCoord] at hvalid
        rw [getCell, grid_mine, hsame.cell] at hempty
        exact hdest (Bool.and_eq_true_iff.mp hboulder).1 hvalid hempty
  · rw [grid_mine]
    exact hdamage

theorem sameSize_digCell (s : CellWorld) (player : PlayerId) (pos : WorldPos) (dir : Int32) (hit : UInt32) (mined : Int)
    (journal pushed : WorldPos → Bool) :
    SameSize s.grid (s.digCell rules player pos dir hit mined journal pushed).grid := by
  unfold digCell
  dsimp only
  split
  · exact SameSize.refl _
  · split
    · exact SameSize.refl _
    · split
      · exact SameSize.refl _
      · split
        · exact sameSize_damageCell ..
        · exact sameSize_hitCell ..

theorem sameAt_digCell {pos : WorldPos} {dir : Int32} (hit : UInt32) (mined : Int) (journal pushed : WorldPos → Bool)
    (hclear : s.DigClear config rules (facing pos dir) dir) (hcovered : (s.findPackCovering config.cells p).isSome) :
    SameAt s.grid (s.digCell rules player pos dir hit mined journal pushed).grid p := by
  unfold digCell
  dsimp only
  split
  · exact SameAt.refl _ _
  · rename_i hvalid
    rw [Bool.not_eq_true', Bool.not_eq_false] at hvalid
    split
    · exact SameAt.refl _ _
    · rename_i hbox
      split
      · exact SameAt.refl _ _
      · rename_i hdiggable
        rw [Bool.not_eq_true', Bool.not_eq_false] at hdiggable
        obtain ⟨htarget, hdest⟩ := hclear ⟨hvalid, hbox, hdiggable⟩
        have hne := ne_of_covered hcovered htarget
        split
        · exact sameAt_damageCell _ _ _ _ hne
        · exact sameAt_hitCell player _ _ mined journal pushed hne fun hboulder hin hempty =>
            ne_of_covered hcovered (hdest hboulder hin hempty)

theorem sameSize_handleDig (s : CellWorld) (player : PlayerId) (dir : Int32) (hit : UInt32) (mined : Int)
    (journal pushed : WorldPos → Bool) :
    SameSize s.grid (s.handleDig rules player dir hit mined journal pushed).grid := by
  rw [handleDig]
  cases s.players player with
  | none => exact SameSize.refl _
  | some p => exact sameSize_digCell (s.setPlayer player _) player p.pos dir hit mined journal pushed

/-! ### Building blocks -/

theorem sameSize_handleBuild (s : CellWorld) (player : PlayerId) (block : String) (direction : Int32)
    (skills : BuildSkills) (journal : WorldPos → Bool) :
    SameSize s.grid (s.handleBuild config.cells rules player block direction skills journal).grid := by
  rw [handleBuild]
  cases s.players player with
  | none => exact SameSize.refl _
  | some p =>
      dsimp only
      split
      · exact SameSize.refl _
      · cases s.buildTarget config.cells p with
        | none => exact SameSize.refl _
        | some target =>
            dsimp only
            cases buildPlan rules block skills (s.getCell target) (s.grid.getDurability (worldPos target)) with
            | none => exact SameSize.refl _
            | some plan =>
                dsimp only
                split
                · exact SameSize.refl _
                · exact sameSize_writeWorldCell ..

/-- What a build places is placed where no building is. -/
def BuildClear (config : BuildingsConfig) (rules : CellRules) (s : CellWorld) (p : CellPlayer) (block : String)
    (skills : BuildSkills) : Prop :=
  ∀ target plan, s.buildTarget config.cells p = some target →
    buildPlan rules block skills (s.getCell target) (s.grid.getDurability (worldPos target)) = some plan →
    plan.cost ≤ p.crystals.at plan.crystal → s.findPackCovering config.cells target = none

theorem sameAt_handleBuild {block : String} {direction : Int32} {skills : BuildSkills} (journal : WorldPos → Bool)
    (hclear : ∀ q, s.players player = some q → s.BuildClear config rules q block skills)
    (hcovered : (s.findPackCovering config.cells p).isSome) :
    SameAt s.grid (s.handleBuild config.cells rules player block direction skills journal).grid p := by
  rw [handleBuild]
  cases hplayer : s.players player with
  | none => exact SameAt.refl _ _
  | some q =>
      dsimp only
      split
      · exact SameAt.refl _ _
      · cases htarget : s.buildTarget config.cells q with
        | none => exact SameAt.refl _ _
        | some target =>
            dsimp only
            cases hplan : buildPlan rules block skills (s.getCell target) (s.grid.getDurability (worldPos target)) with
            | none => exact SameAt.refl _ _
            | some plan =>
                dsimp only
                split
                · exact SameAt.refl _ _
                · rename_i hcost
                  have hfree := hclear q hplayer target plan htarget hplan (Int.not_lt.mp hcost)
                  exact sameAt_writeWorldCell _ _ _ _ (ne_of_covered hcovered hfree)

/-- The blocks that are finished stand where no building is. -/
def ConvertClear (config : BuildingsConfig) (s : CellWorld) : Prop :=
  ∀ c ∈ s.conversions, c.ticksLeft ≤ 1 → s.validCoord c.pos = true → s.getCell c.pos = c.requiredCell →
    s.findPackCovering config.cells c.pos = none

/-- The round of one conversion. -/
theorem sameSize_convert (rules : CellRules) (journal : WorldPos → Bool) (g : CellGrid) (c : PendingConversion) :
    SameSize g (if 1 < c.ticksLeft then g
      else if g.validCoord (worldPos c.pos) && g.getCell (worldPos c.pos) = c.requiredCell then
        g.writeWorldCell rules.toCellDefs (worldPos c.pos) ⟨c.targetCell, c.durability⟩ (journal c.pos)
      else g) := by
  split
  · exact SameSize.refl g
  · split
    · exact sameSize_writeWorldCell ..
    · exact SameSize.refl g

theorem sameAt_applyCellConversions (journal : WorldPos → Bool) (hclear : s.ConvertClear config)
    (hcovered : (s.findPackCovering config.cells p).isSome) :
    SameAt s.grid (s.applyCellConversions rules journal).grid p := by
  refine sameAt_foldl s.conversions s.grid s.grid p ⟨SameSize.refl _, SameAt.refl _ _⟩ fun k hk hkp c hc => ?_
  refine ⟨sameSize_convert rules journal k c, ?_⟩
  split
  · exact SameAt.refl _ _
  · rename_i hticks
    split
    · rename_i hrequired
      rw [Bool.and_eq_true, decide_eq_true_eq, hk.validCoord] at hrequired
      obtain ⟨hvalid, hcell⟩ := hrequired
      refine sameAt_writeWorldCell _ _ _ _ ?_
      rintro rfl
      rw [hkp.cell] at hcell
      exact ne_of_covered hcovered (hclear c hc (Nat.not_lt.mp hticks) hvalid hcell) rfl
    · exact SameAt.refl _ _

/-! ### Items -/

theorem grid_gainItem (s : CellWorld) (player : PlayerId) (item : Int32) (count : Int) :
    (s.gainItem player item count).grid = s.grid := by
  rw [gainItem]
  split <;> rfl

theorem sameSize_useGeopack (s : CellWorld) (player : PlayerId) (front : WorldPos) (item : Int32) (ok : Bool) :
    SameSize s.grid (s.useGeopack config.cells rules player front item ok).1.grid := by
  rw [useGeopack]
  split
  · rw [grid_gainItem]
    exact sameSize_destroy ..
  · split
    · exact SameSize.refl _
    · split
      · exact SameSize.refl _
      · exact sameSize_writeWorldCell ..

theorem trueEmpty_free {front : WorldPos} (h : s.trueEmpty config.cells rules front = true) :
    s.findPackCovering config.cells front = none := by
  rw [trueEmpty, Bool.and_eq_true, Bool.and_eq_true, Option.isNone_iff_eq_none] at h
  exact h.1.2

theorem sameAt_useGeopack {front : WorldPos} (item : Int32) (ok : Bool)
    (hclear : (aliveCellToItem (s.getCell front)).isSome → s.findPackCovering config.cells front = none)
    (hcovered : (s.findPackCovering config.cells p).isSome) :
    SameAt s.grid (s.useGeopack config.cells rules player front item ok).1.grid p := by
  rw [useGeopack]
  cases halive : aliveCellToItem (s.getCell front) with
  | some pickupItem =>
      have hne := ne_of_covered hcovered (hclear (by rw [halive]; rfl))
      dsimp only
      rw [grid_gainItem]
      exact sameAt_destroy _ _ _ hne
  | none =>
      dsimp only
      split
      · exact SameAt.refl _ _
      · rename_i hempty
        rw [Bool.not_eq_true', Bool.not_eq_false] at hempty
        cases geopackItemToCell item with
        | none => exact SameAt.refl _ _
        | some alive => exact sameAt_writeWorldCell _ _ _ _ (ne_of_covered hcovered (trueEmpty_free hempty))

theorem sameSize_usePoli (s : CellWorld) (front : WorldPos) (clanId : Int32) (ok : Bool) :
    SameSize s.grid (s.usePoli config.cells rules front clanId ok).1.grid := by
  rw [usePoli]
  split
  · exact sameSize_writeWorldCell ..
  · exact SameSize.refl _

theorem sameAt_usePoli {front : WorldPos} (clanId : Int32) (ok : Bool)
    (hcovered : (s.findPackCovering config.cells p).isSome) :
    SameAt s.grid (s.usePoli config.cells rules front clanId ok).1.grid p := by
  rw [usePoli]
  split
  · rename_i hempty
    exact sameAt_writeWorldCell _ _ _ _ (ne_of_covered hcovered (trueEmpty_free (Bool.and_eq_true_iff.mp hempty).2))
  · exact SameAt.refl _ _

theorem sameSize_useC190 (s : CellWorld) (front : WorldPos) (dir : Int32) (io : Nat → Bool) :
    SameSize s.grid (s.useC190 rules front dir io).1.grid := by
  rw [useC190]
  split
  · refine sameSize_foldl (fun g i => ?_) _ _
    split
    · exact sameSize_damageCell ..
    · exact SameSize.refl g
  · exact SameSize.refl _

/-- A shot hits no cell that is covered. -/
def ShotClear (config : BuildingsConfig) (rules : CellRules) (s : CellWorld) (front : WorldPos) (dir : Int32) : Prop :=
  s.validCoord (shotPos front dir 9) = true → ∀ i < 10, shotHits rules (s.getCell (shotPos front dir i)) = true →
    s.findPackCovering config.cells (shotPos front dir i) = none

theorem sameAt_useC190 {front : WorldPos} {dir : Int32} (io : Nat → Bool) (hclear : s.ShotClear config rules front dir)
    (hcovered : (s.findPackCovering config.cells p).isSome) :
    SameAt s.grid (s.useC190 rules front dir io).1.grid p := by
  rw [useC190]
  split
  · rename_i hvalid
    dsimp only
    refine sameAt_foldl (List.range 10) s.grid s.grid p ⟨SameSize.refl _, SameAt.refl _ _⟩ fun k hk hkp i hi => ?_
    split
    · rename_i hhits
      refine ⟨sameSize_damageCell .., sameAt_damageCell _ _ _ _ ?_⟩
      rintro rfl
      rw [hkp.cell] at hhits
      exact ne_of_covered hcovered (hclear hvalid i (List.mem_range.mp hi) hhits) rfl
    · exact ⟨SameSize.refl _, SameAt.refl _ _⟩
  · exact SameAt.refl _ _

/-- What an item picks up or hits is covered by no building. -/
def ItemClear (config : BuildingsConfig) (rules : CellRules) (s : CellWorld) (p : CellPlayer) : Prop :=
  0 < p.items p.selected → s.validCoord (facing p.pos p.dir) = true →
    (isGeopackItem p.selected = true → (aliveCellToItem (s.getCell (facing p.pos p.dir))).isSome →
      s.findPackCovering config.cells (facing p.pos p.dir) = none) ∧
    (p.selected = 40 → s.ShotClear config rules (facing p.pos p.dir) p.dir)

theorem sameSize_useAtOnce (s : CellWorld) (player : PlayerId) (q : CellPlayer) (front : WorldPos) (io : Nat → Bool) :
    SameSize s.grid (s.useAtOnce config.cells rules player q front io).1.grid := by
  rw [useAtOnce]
  split
  · exact sameSize_useGeopack ..
  · split
    · exact sameSize_usePoli ..
    · split
      · exact sameSize_useC190 ..
      · exact SameSize.refl _

theorem sameAt_useAtOnce (player : PlayerId) {q : CellPlayer} (io : Nat → Bool)
    (hpickup : isGeopackItem q.selected = true → (aliveCellToItem (s.getCell (facing q.pos q.dir))).isSome →
      s.findPackCovering config.cells (facing q.pos q.dir) = none)
    (hshot : q.selected = 40 → s.ShotClear config rules (facing q.pos q.dir) q.dir)
    (hcovered : (s.findPackCovering config.cells p).isSome) :
    SameAt s.grid (s.useAtOnce config.cells rules player q (facing q.pos q.dir) io).1.grid p := by
  rw [useAtOnce]
  split
  · rename_i hgeopack
    exact sameAt_useGeopack _ _ (hpickup hgeopack) hcovered
  · split
    · exact sameAt_usePoli _ _ hcovered
    · split
      · rename_i hc190
        exact sameAt_useC190 io (hshot hc190) hcovered
      · exact SameAt.refl _ _

theorem sameSize_useItem (s : CellWorld) (player : PlayerId) (gatePassed reserved : Bool) (io : Nat → Bool) :
    SameSize s.grid (s.useItem config.cells rules player gatePassed reserved io).grid := by
  rw [useItem]
  cases s.players player with
  | none => exact SameSize.refl _
  | some q =>
      dsimp only
      split
      · exact SameSize.refl _
      · split
        · exact SameSize.refl _
        · split
          · exact SameSize.refl _
          · split
            · split
              · exact SameSize.refl _
              · rw [grid_gainItem]
                exact SameSize.refl _
            · split
              · rw [grid_gainItem]
                exact sameSize_useAtOnce ..
              · exact sameSize_useAtOnce ..

theorem sameAt_useItem {gatePassed reserved : Bool} (io : Nat → Bool)
    (hclear : ∀ q, s.players player = some q → s.ItemClear config rules q)
    (hcovered : (s.findPackCovering config.cells p).isSome) :
    SameAt s.grid (s.useItem config.cells rules player gatePassed reserved io).grid p := by
  rw [useItem]
  cases hplayer : s.players player with
  | none => exact SameAt.refl _ _
  | some q =>
      dsimp only
      split
      · exact SameAt.refl _ _
      · rename_i hready
        split
        · exact SameAt.refl _ _
        · rename_i hfront
          split
          · exact SameAt.refl _ _
          · split
            · split
              · exact SameAt.refl _ _
              · rw [grid_gainItem]
                exact SameAt.refl _ _
            · simp only [Bool.or_eq_true, Bool.not_eq_true', decide_eq_true_eq, not_or] at hready hfront
              have hvalid : s.validCoord (facing q.pos q.dir) = true := by
                rw [← Bool.not_eq_false]
                exact hfront.1
              obtain ⟨hpickup, hshot⟩ := hclear q hplayer (Int.not_le.mp hready.2) hvalid
              have hused := sameAt_useAtOnce player io hpickup hshot hcovered
              split
              · rw [grid_gainItem]
                exact hused
              · exact hused

/-! ### Blasts -/

theorem sameSize_boomCell (s : CellWorld) (rngSeed : UInt64) (journal : WorldPos → Bool) (g : CellGrid) (q : WorldPos) :
    SameSize g (s.boomCell config.cells rules rngSeed journal g q) := by
  unfold boomCell
  dsimp only
  split
  · exact SameSize.refl g
  · split
    · split
      · exact sameSize_writeWorldCell ..
      · exact SameSize.refl g
    · split
      · exact sameSize_writeWorldCell ..
      · exact sameSize_writeWorldCell ..

/-- A boom looks for a building before it changes a cell. -/
theorem sameAt_boomCell (rngSeed : UInt64) (journal : WorldPos → Bool) (g : CellGrid) (q : WorldPos)
    (hcovered : (s.findPackCovering config.cells p).isSome) :
    SameAt g (s.boomCell config.cells rules rngSeed journal g q) p := by
  unfold boomCell
  dsimp only
  split
  · exact SameAt.refl g p
  · rename_i hfree
    simp only [Bool.or_eq_true, not_or, Bool.not_eq_true, Option.isSome_eq_false_iff, Option.isNone_iff_eq_none]
      at hfree
    have hne := ne_of_covered hcovered hfree.1.2
    split
    · split
      · exact sameAt_writeWorldCell _ _ _ _ hne
      · exact SameAt.refl g p
    · split
      · exact sameAt_writeWorldCell _ _ _ _ hne
      · exact sameAt_writeWorldCell _ _ _ _ hne

theorem sameSize_protectorCell (s : CellWorld) (journal : WorldPos → Bool) (g : CellGrid) (q : WorldPos) :
    SameSize g (s.protectorCell config.cells rules journal g q) := by
  rw [protectorCell]
  split
  · exact sameSize_writeWorldCell ..
  · exact SameSize.refl g

theorem sameAt_protectorCell (journal : WorldPos → Bool) (g : CellGrid) (q : WorldPos)
    (hcovered : (s.findPackCovering config.cells p).isSome) :
    SameAt g (s.protectorCell config.cells rules journal g q) p := by
  rw [protectorCell]
  split
  · rename_i hfree
    have hnone := Option.isNone_iff_eq_none.mp (Bool.and_eq_true_iff.mp hfree).2
    exact sameAt_writeWorldCell _ _ _ _ (ne_of_covered hcovered hnone)
  · exact SameAt.refl g p

theorem sameSize_applyDue (s : CellWorld) (i : Nat) (journal : WorldPos → Bool) :
    SameSize s.grid (s.applyDue config.cells rules i journal).grid := by
  rw [applyDue]
  cases s.due[i]? with
  | none => exact SameSize.refl _
  | some action =>
      cases action with
      | boom center rngSeed => exact sameSize_foldl (fun g q => sameSize_boomCell _ rngSeed journal g q) _ _
      | protector center => exact sameSize_foldl (fun g q => sameSize_protectorCell _ journal g q) _ _
      | raz center => exact SameSize.refl _

theorem sameAt_applyDue (i : Nat) (journal : WorldPos → Bool) (hcovered : (s.findPackCovering config.cells p).isSome) :
    SameAt s.grid (s.applyDue config.cells rules i journal).grid p := by
  rw [applyDue]
  cases s.due[i]? with
  | none => exact SameAt.refl _ _
  | some action =>
      cases action with
      | boom center rngSeed =>
          exact sameAt_foldl _ s.grid s.grid p ⟨SameSize.refl _, SameAt.refl _ _⟩ fun k _ _ q _ =>
            ⟨sameSize_boomCell _ rngSeed journal k q, sameAt_boomCell rngSeed journal k q hcovered⟩
      | protector center =>
          exact sameAt_foldl _ s.grid s.grid p ⟨SameSize.refl _, SameAt.refl _ _⟩ fun k _ _ q _ =>
            ⟨sameSize_protectorCell _ journal k q, sameAt_protectorCell journal k q hcovered⟩
      | raz center => exact SameAt.refl _ _

/-! ### Runs -/

theorem index_mine (s : CellWorld) (player : PlayerId) (cell : UInt8) (amount : Int) :
    (s.mine player cell amount).toBuildingIndex = s.toBuildingIndex := by
  unfold mine
  split <;> rfl

theorem index_pushBoulder (s : CellWorld) (cell : UInt8) (target dest : WorldPos) (journal : WorldPos → Bool) :
    (s.pushBoulder rules cell target dest journal).toBuildingIndex = s.toBuildingIndex := by
  rw [pushBoulder]
  split <;> rfl

theorem index_hitCell (s : CellWorld) (player : PlayerId) (cell : UInt8) (target : WorldPos) (dir : Int32)
    (power : UInt32) (mined : Int) (journal pushed : WorldPos → Bool) :
    (s.hitCell rules player cell target dir power mined journal pushed).toBuildingIndex = s.toBuildingIndex := by
  unfold hitCell
  dsimp only
  split
  · rw [index_pushBoulder, index_mine]
  · rw [index_mine]

theorem index_digCell (s : CellWorld) (player : PlayerId) (pos : WorldPos) (dir : Int32) (hit : UInt32) (mined : Int)
    (journal pushed : WorldPos → Bool) :
    (s.digCell rules player pos dir hit mined journal pushed).toBuildingIndex = s.toBuildingIndex := by
  unfold digCell
  dsimp only
  split
  · rfl
  · split
    · rfl
    · split
      · rfl
      · split
        · rfl
        · exact index_hitCell ..

theorem index_handleDig (s : CellWorld) (player : PlayerId) (dir : Int32) (hit : UInt32) (mined : Int)
    (journal pushed : WorldPos → Bool) :
    (s.handleDig rules player dir hit mined journal pushed).toBuildingIndex = s.toBuildingIndex := by
  rw [handleDig]
  cases s.players player with
  | none => rfl
  | some p => exact index_digCell (s.setPlayer player _) player p.pos dir hit mined journal pushed

theorem index_handleBuild (s : CellWorld) (player : PlayerId) (block : String) (direction : Int32)
    (skills : BuildSkills) (journal : WorldPos → Bool) :
    (s.handleBuild config.cells rules player block direction skills journal).toBuildingIndex = s.toBuildingIndex := by
  rw [handleBuild]
  cases s.players player with
  | none => rfl
  | some p =>
      dsimp only
      split
      · rfl
      · cases s.buildTarget config.cells p with
        | none => rfl
        | some target =>
            dsimp only
            cases buildPlan rules block skills (s.getCell target) (s.grid.getDurability (worldPos target)) with
            | none => rfl
            | some plan =>
                dsimp only
                split <;> rfl

theorem index_gainItem (s : CellWorld) (player : PlayerId) (item : Int32) (count : Int) :
    (s.gainItem player item count).toBuildingIndex = s.toBuildingIndex := by
  rw [gainItem]
  split <;> rfl

theorem index_useAtOnce (s : CellWorld) (player : PlayerId) (q : CellPlayer) (front : WorldPos) (io : Nat → Bool) :
    (s.useAtOnce config.cells rules player q front io).1.toBuildingIndex = s.toBuildingIndex := by
  rw [useAtOnce]
  split
  · rw [useGeopack]
    split
    · exact index_gainItem ..
    · split
      · rfl
      · split <;> rfl
  · split
    · rw [usePoli]
      split <;> rfl
    · split
      · rw [useC190]
        split <;> rfl
      · rfl

theorem index_useItem (s : CellWorld) (player : PlayerId) (gatePassed reserved : Bool) (io : Nat → Bool) :
    (s.useItem config.cells rules player gatePassed reserved io).toBuildingIndex = s.toBuildingIndex := by
  rw [useItem]
  cases s.players player with
  | none => rfl
  | some q =>
      dsimp only
      split
      · rfl
      · split
        · rfl
        · split
          · rfl
          · split
            · split
              · rfl
              · exact index_gainItem ..
            · split
              · rw [index_gainItem]
                exact index_useAtOnce ..
              · exact index_useAtOnce ..

theorem index_applyDue (s : CellWorld) (i : Nat) (journal : WorldPos → Bool) :
    (s.applyDue config.cells rules i journal).toBuildingIndex = s.toBuildingIndex := by
  rw [applyDue]
  cases s.due[i]? with
  | none => rfl
  | some action => cases action <;> rfl

theorem index_deathDrop (s : CellWorld) (player : PlayerId) (ok : Bool) :
    (s.deathDrop config.cells rules player ok).toBuildingIndex = s.toBuildingIndex := by
  rw [deathDrop]
  cases s.players player with
  | none => rfl
  | some p =>
      dsimp only
      split
      · split <;> rfl
      · rfl

theorem sameSize_deathDrop (s : CellWorld) (player : PlayerId) (ok : Bool) :
    SameSize s.grid (s.deathDrop config.cells rules player ok).grid := by
  rw [deathDrop]
  cases s.players player with
  | none => exact SameSize.refl _
  | some p =>
      dsimp only
      split
      · split
        · exact sameSize_writeWorldCell ..
        · exact SameSize.refl _
      · exact SameSize.refl _

theorem index_standOnBox (s : CellWorld) (player : PlayerId) :
    (s.standOnBox player).toBuildingIndex = s.toBuildingIndex ∧ SameSize s.grid (s.standOnBox player).grid := by
  rw [standOnBox]
  cases s.players player with
  | none => exact ⟨rfl, SameSize.refl _⟩
  | some p =>
      dsimp only
      split
      · exact ⟨rfl, SameSize.refl _⟩
      · exact ⟨rfl, SameSize.refl _⟩

theorem index_applyBoxPickup (s : CellWorld) (sameSession ok : Bool) :
    (s.applyBoxPickup rules sameSession ok).toBuildingIndex = s.toBuildingIndex ∧
      SameSize s.grid (s.applyBoxPickup rules sameSession ok).grid := by
  rw [applyBoxPickup]
  cases s.pickups with
  | nil => exact ⟨rfl, SameSize.refl _⟩
  | cons intent rest =>
      dsimp only
      cases s.players intent.player with
      | none => exact ⟨rfl, SameSize.refl _⟩
      | some p =>
          dsimp only
          split
          · cases hbox : s.boxes intent.boxPos with
            | none =>
                simp only [removeBoxCell, hbox]
                exact ⟨trivial, SameSize.refl _⟩
            | some picked =>
                simp only [removeBoxCell, hbox]
                exact ⟨rfl, sameSize_damageCell ..⟩
          · exact ⟨rfl, SameSize.refl _⟩

theorem Standing.of_index (hs : s.Standing) (hindex : t.toBuildingIndex = s.toBuildingIndex)
    (hsize : SameSize s.grid t.grid) : t.Standing where
  sound := hindex ▸ hs.sound
  valid {entity b} hb := by
    rw [validCoord, hsize.validCoord]
    have hb' : s.entities entity = some b := hindex ▸ hb
    exact hs.valid hb'

theorem sameSize_footprint (config : BuildingsConfig) (defs : CellDefs) (view : PackView) (journal : WorldPos → Bool)
    (g : CellGrid) : SameSize g (PlacementWorld.placeBuildingFootprint config defs view journal g) :=
  sameSize_foldl (fun _ _ => sameSize_writeWorldCell ..) _ _

theorem Standing.placeBuilding (hs : s.Standing) (b : BuildingEntity) (journal : WorldPos → Bool) :
    (s.placeBuilding rules config b journal).Standing := by
  rw [CellWorld.placeBuilding]
  split
  · rename_i hsite
    obtain ⟨hcells, hconfig⟩ := Bool.and_eq_true_iff.mp hsite
    have hsize := sameSize_footprint config rules.toCellDefs b.view journal s.grid
    refine ⟨hs.sound.spawnBuilding, fun {entity b'} hb' => ?_⟩
    rw [validCoord, hsize.validCoord]
    by_cases hnew : entity = s.nextEntity
    · obtain ⟨c, hc⟩ := Option.isSome_iff_exists.mp hconfig
      obtain ⟨d, hd, hzero⟩ := BuildingsConfig.mem_origin hc
      have horigin := List.all_eq_true.mp hcells _ (mem_footprint.mpr ⟨c, hc, d, hd, rfl⟩)
      have hview : b' = b := by
        rw [hnew] at hb'
        simpa [BuildingIndex.spawnBuilding, BuildingIndex.registerBuildingEntity, BuildingIndex.setEntity] using hb'.symm
      have hstart : (b.view.x + d.1.1, b.view.y + d.1.2) = b.view.origin := by
        rw [hzero]
        exact Prod.ext (Int32.add_zero _) (Int32.add_zero _)
      rw [hview, ← hstart]
      exact horigin
    · have hold : s.entities entity = some b' := by
        simpa [BuildingIndex.spawnBuilding, BuildingIndex.registerBuildingEntity, BuildingIndex.setEntity, hnew]
          using hb'
      exact hs.valid hold
  · exact hs

theorem Standing.removeBuildingAt (hs : s.Standing) (entity : EntityId) (contents : Option Crystals)
    (journal : WorldPos → Bool) (boxOk : Bool) :
    (s.removeBuildingAt config.cells rules entity contents journal boxOk).Standing := by
  rw [CellWorld.removeBuildingAt]
  cases s.entities entity with
  | none => exact hs
  | some b =>
      dsimp only
      cases hremove : s.toBuildingIndex.removeBuilding b.view entity with
      | none => exact hs
      | some index =>
          have hclear : SameSize s.grid
              (BuildingWorld.clearBuildingFootprint config.cells rules.toCellDefs b.view journal s.grid) :=
            sameSize_foldl (fun _ _ => sameSize_writeWorldCell ..) _ _
          have hstands (g : CellGrid) (hsize : SameSize s.grid g) (boxes : WorldPos → Option Crystals) :
              Standing { s with toBuildingIndex := index, grid := g, boxes := boxes } := by
            refine ⟨hs.sound.removeBuilding hremove, fun {entity' b'} hb' => ?_⟩
            rw [validCoord, hsize.validCoord]
            obtain ⟨-, hindex⟩ := BuildingIndex.removeBuilding_eq_some hremove
            rw [hindex] at hb'
            by_cases hsame : entity' = entity
            · simp [hsame] at hb'
            · have hold : s.entities entity' = some b' := by simpa [hsame] using hb'
              exact hs.valid hold
          cases contents with
          | none => exact hstands _ hclear s.boxes
          | some crystals => exact hstands _ (hclear.trans (sameSize_writeWorldCell ..)) _

theorem Standing.updateBuilding (hs : s.Standing) (entity : EntityId) (b : BuildingEntity) :
    (s.updateBuilding entity b).Standing := by
  rw [CellWorld.updateBuilding]
  cases hold : s.entities entity with
  | none => exact hs
  | some old =>
      dsimp only
      split
      · rename_i hsame
        refine ⟨hs.sound.setEntity hold hsame.1, fun {entity' b'} hb' => ?_⟩
        by_cases hentity : entity' = entity
        · have hb : b' = b := by
            simpa [BuildingIndex.setEntity, hentity] using hb'.symm
          rw [hb, hsame.1]
          exact hs.valid hold
        · have hkept : s.entities entity' = some b' := by simpa [BuildingIndex.setEntity, hentity] using hb'
          exact hs.valid hkept
      · exact hs

/-- The buildings stand after every event. -/
theorem Standing.step (hs : s.Standing) (e : CellEvent) : (s.step config rules e).Standing := by
  cases e with
  | dig player dir hit mined journal pushed =>
      exact hs.of_index (index_handleDig ..) (sameSize_handleDig ..)
  | build player block direction skills journal =>
      exact hs.of_index (index_handleBuild ..) (sameSize_handleBuild ..)
  | convert journal => exact hs.of_index rfl (sameSize_foldl (sameSize_convert rules journal) _ _)
  | useItem player gatePassed reserved io => exact hs.of_index (index_useItem ..) (sameSize_useItem ..)
  | due i journal => exact hs.of_index (index_applyDue ..) (sameSize_applyDue ..)
  | death player ok => exact hs.of_index (index_deathDrop ..) (sameSize_deathDrop ..)
  | stand player => exact hs.of_index (index_standOnBox s player).1 (index_standOnBox s player).2
  | pickup sameSession ok =>
      exact hs.of_index (index_applyBoxPickup s sameSession ok).1 (index_applyBoxPickup s sameSession ok).2
  | place b journal => exact hs.placeBuilding b journal
  | remove entity contents journal boxOk => exact hs.removeBuildingAt entity contents journal boxOk
  | update entity b => exact hs.updateBuilding entity b
  | write p foreground road durability =>
      rw [CellWorld.step, writeOther]
      split
      · exact hs.of_index rfl (sameSize_put ..)
      · exact hs
  | players players => exact hs.of_index rfl (SameSize.refl _)

theorem Standing.run (hs : s.Standing) (es : List CellEvent) : (s.run config rules es).Standing := by
  induction es generalizing s with
  | nil => exact hs
  | cons e es ih => exact ih (hs.step e)

end CellWorld

/-- What players and consumables do to the cells. -/
def CellEvent.isOperation : CellEvent → Bool
  | .dig .. => true
  | .build .. => true
  | .convert .. => true
  | .useItem .. => true
  | .due .. => true
  | _ => false

namespace CellWorld

variable {config : BuildingsConfig} {rules : CellRules} {s : CellWorld}

/-- The condition on an operation in the state before it; a boom and a protector need none. -/
def Clear (config : BuildingsConfig) (rules : CellRules) (s : CellWorld) : CellEvent → Prop
  | .dig player dir _ _ _ _ => ∀ p, s.players player = some p → s.DigClear config rules (facing p.pos dir) dir
  | .build player block _ skills _ => ∀ p, s.players player = some p → s.BuildClear config rules p block skills
  | .convert _ => s.ConvertClear config
  | .useItem player _ _ _ => ∀ p, s.players player = some p → s.ItemClear config rules p
  | _ => True

theorem protects_step (hs : s.Standing) {e : CellEvent} (hoperation : e.isOperation = true)
    (hclear : s.Clear config rules e) : Protects config s (s.step config rules e) := by
  cases e with
  | dig player dir hit mined journal pushed =>
      refine protects_of hs (sameSize_handleDig ..) fun p _ hcovered => ?_
      rw [step, handleDig]
      cases hplayer : s.players player with
      | none => exact SameAt.refl _ _
      | some q =>
          have hdig := hclear q hplayer
          exact sameAt_digCell (s := s.setPlayer player _) hit mined journal pushed hdig hcovered
  | build player block direction skills journal =>
      exact protects_of hs (sameSize_handleBuild ..) fun p _ hcovered => sameAt_handleBuild journal hclear hcovered
  | convert journal =>
      exact protects_of hs (sameSize_foldl (sameSize_convert rules journal) _ _) fun p _ hcovered =>
        sameAt_applyCellConversions journal hclear hcovered
  | useItem player gatePassed reserved io =>
      exact protects_of hs (sameSize_useItem ..) fun p _ hcovered => sameAt_useItem io hclear hcovered
  | due i journal =>
      exact protects_of hs (sameSize_applyDue ..) fun p _ hcovered => sameAt_applyDue i journal hcovered
  | death | stand | pickup | place | remove | update | write | players => cases hoperation

theorem run_concat (s : CellWorld) (es : List CellEvent) (e : CellEvent) :
    s.run config rules (es ++ [e]) = (s.run config rules es).step config rules e := List.foldl_concat ..

/-- A field with two players: one will face the road of a building, one the open ground. -/
def twoBuilders : CellWorld where
  entities := fun _ => none
  byOrigin := fun _ => none
  chunkBuildings := fun _ => []
  nextEntity := 0
  grid := ⟨64, 64, fun _ => 0, fun _ => emptyCell, fun _ => 0⟩
  boxes := fun _ => none
  players := fun player =>
    if player = 1 then some ⟨(24, 20), 1, none, fun _ => 100, -1, fun _ => 0⟩
    else if player = 2 then some ⟨(40, 40), 0, none, fun _ => 100, -1, fun _ => 0⟩
    else none
  conversions := []
  pickups := []
  due := []
  nextSequence := 0
  removals := []

def respBuilding : BuildingEntity where
  view := ⟨1, .resp, 20, 20, 1, 0, 100, 1000, 1000, 1000⟩
  storage := some ⟨0, fun _ => 0⟩
  flags := some false
  pending := none

def cheapSkills : BuildSkills := ⟨1, 0, 1, 0, 1, 0⟩

def placeThenBuild (player : PlayerId) : List CellEvent :=
  [.place respBuilding (fun _ => true), .build player "G" 1 cheapSkills (fun _ => true)]

theorem twoBuilders_standing : twoBuilders.Standing where
  sound := ⟨fun _ _ => rfl, nofun, by simp [twoBuilders], fun _ => List.nodup_nil⟩
  valid h := by cases h

end CellWorld

end OpenMines

import OpenMines.FootprintProtection

namespace OpenMines

/-- No road is a box, and a box breaks at the blow of its removal. -/
structure CellGrid.BoxGround (rules : CellRules) (g : CellGrid) : Prop where
  road : ∀ p, g.road p ≠ boxCell
  fragile : ∀ p, g.getCell p = boxCell → rules.leZero (rules.sub (g.durability p) oneF32) = true

/-- The same cells are boxes. -/
structure SameBoxes (rules : CellRules) (g h : CellGrid) : Prop where
  size : SameSize g h
  cell : ∀ p, h.getCell p = boxCell ↔ g.getCell p = boxCell
  ground : h.BoxGround rules

section Grids

variable {rules : CellRules} {g h k : CellGrid} {q : Pos} {cell : WorldCell} {ok : Bool}

theorem visible_ne_boxCell {foreground road : UInt8} (hforeground : foreground ≠ boxCell) (hroad : road ≠ boxCell) :
    CellGrid.visible foreground road ≠ boxCell := by
  rw [CellGrid.visible]
  split
  · exact hforeground
  · split
    · decide
    · exact hroad

theorem SameBoxes.refl (hg : g.BoxGround rules) : SameBoxes rules g g := ⟨SameSize.refl g, fun _ => Iff.rfl, hg⟩

theorem SameBoxes.trans (hgh : SameBoxes rules g h) (hhk : SameBoxes rules h k) : SameBoxes rules g k :=
  ⟨hgh.size.trans hhk.size, fun p => (hhk.cell p).trans (hgh.cell p), hhk.ground⟩

theorem SameBoxes.ne (hgh : SameBoxes rules g h) (hq : g.getCell q ≠ boxCell) : h.getCell q ≠ boxCell :=
  fun hbox => hq ((hgh.cell q).mp hbox)

theorem road_put (g : CellGrid) (p q : Pos) (foreground road : UInt8) (durability : UInt32) :
    (g.put q foreground road durability).road p = if p = q then road else g.road p := Function.update_apply ..

theorem durability_put (g : CellGrid) (p q : Pos) (foreground road : UInt8) (durability : UInt32) :
    (g.put q foreground road durability).durability p = if p = q then durability else g.durability p :=
  Function.update_apply ..

theorem sameBoxes_put (hg : g.BoxGround rules) (hvalid : g.validCoord q = true) (hq : g.getCell q ≠ boxCell)
    {foreground road : UInt8} (durability : UInt32) (hvisible : CellGrid.visible foreground road ≠ boxCell)
    (hroad : road ≠ boxCell) : SameBoxes rules g (g.put q foreground road durability) where
  size := sameSize_put ..
  cell p := by
    rw [CellGrid.getCell_put _ _ _ hvalid]
    split
    · rename_i hp
      rw [hp]
      exact iff_of_false hvisible hq
    · exact Iff.rfl
  ground := by
    refine ⟨fun p => ?_, fun p hbox => ?_⟩
    · rw [road_put]
      split
      · exact hroad
      · exact hg.road p
    · rw [CellGrid.getCell_put _ _ _ hvalid] at hbox
      split at hbox
      · exact absurd hbox hvisible
      · rename_i hp
        rw [durability_put, if_neg hp]
        exact hg.fragile p hbox

theorem sameBoxes_writeWorldCell (hg : g.BoxGround rules) (hq : g.getCell q ≠ boxCell)
    (hcell : cell.cellType ≠ boxCell) : SameBoxes rules g (g.writeWorldCell rules.toCellDefs q cell ok) := by
  rw [CellGrid.writeWorldCell]
  split
  · rename_i hwrite
    have hvalid := (Bool.and_eq_true_iff.mp hwrite).1
    split
    · exact sameBoxes_put hg hvalid hq _ (visible_ne_boxCell (by decide) hcell) hcell
    · exact sameBoxes_put hg hvalid hq _ (visible_ne_boxCell hcell (hg.road q)) (hg.road q)
  · exact SameBoxes.refl hg

theorem uncovered_ne_boxCell (hg : g.BoxGround rules) (q : Pos) :
    (if g.road q = 0 then emptyCell else g.road q) ≠ boxCell := by
  split
  · decide
  · exact hg.road q

theorem sameBoxes_destroy (ok : Bool) (hg : g.BoxGround rules) (hq : g.getCell q ≠ boxCell) :
    SameBoxes rules g (g.destroy rules.toCellDefs q ok) := by
  rw [CellGrid.destroy]
  split
  · rename_i hwrite
    simp only [Bool.and_eq_true] at hwrite
    have hroad := uncovered_ne_boxCell hg q
    exact sameBoxes_put hg hwrite.1.1 hq _ (visible_ne_boxCell (by decide) hroad) hroad
  · exact SameBoxes.refl hg

theorem sameBoxes_damageCell (ok : Bool) (hg : g.BoxGround rules) (hq : g.getCell q ≠ boxCell) (dmg : UInt32) :
    SameBoxes rules g (g.damageCell rules.toFloatOps q dmg ok).1 := by
  rw [CellGrid.damageCell]
  split
  · rename_i hwrite
    have hvalid := (Bool.and_eq_true_iff.mp hwrite).1
    have hroad := uncovered_ne_boxCell hg q
    dsimp only
    split
    · exact sameBoxes_put hg hvalid hq _ (visible_ne_boxCell (by decide) hroad) hroad
    · have hvisible := hq
      rw [CellGrid.getCell, if_pos hvalid] at hvisible
      exact sameBoxes_put hg hvalid hq _ hvisible (hg.road q)
  · exact SameBoxes.refl hg

theorem sameBoxes_foldl {α : Type} {step : CellGrid → α → CellGrid} (xs : List α) (hgk : SameBoxes rules g k)
    (hstep : ∀ j, SameBoxes rules g j → ∀ x ∈ xs, SameBoxes rules j (step j x)) :
    SameBoxes rules g (xs.foldl step k) := by
  induction xs generalizing k with
  | nil => exact hgk
  | cons x xs ih =>
      refine ih (hgk.trans (hstep k hgk x List.mem_cons_self)) fun j hj y hy => ?_
      exact hstep j hj y (List.mem_cons_of_mem _ hy)

end Grids

namespace CellWorld

variable {config : BuildingsConfig} {rules : CellRules} {s t u : CellWorld} {player : PlayerId} {p : WorldPos}

/-- A cell is a box just when the index holds contents for it. -/
def BoxesAgree (s : CellWorld) : Prop := ∀ p, s.getCell p = boxCell ↔ (s.boxes p).isSome = true

structure BoxInv (rules : CellRules) (s : CellWorld) : Prop where
  agree : s.BoxesAgree
  ground : s.grid.BoxGround rules
  blocks : ∀ c ∈ s.conversions, c.requiredCell ≠ boxCell ∧ c.targetCell ≠ boxCell

/-- What leaves the boxes alone. -/
structure LeavesBoxes (rules : CellRules) (s t : CellWorld) : Prop where
  grid : SameBoxes rules s.grid t.grid
  boxes : t.boxes = s.boxes
  blocks : ∀ c ∈ t.conversions, c.requiredCell ≠ boxCell ∧ c.targetCell ≠ boxCell

theorem BoxInv.refl (hs : s.BoxInv rules) : LeavesBoxes rules s s := ⟨SameBoxes.refl hs.ground, rfl, hs.blocks⟩

theorem BoxInv.of_leaves (hs : s.BoxInv rules) (h : LeavesBoxes rules s t) : t.BoxInv rules where
  agree p := by
    rw [h.boxes]
    exact (h.grid.cell _).trans (hs.agree p)
  ground := h.grid.ground
  blocks := h.blocks

theorem LeavesBoxes.trans (hst : LeavesBoxes rules s t) (htu : LeavesBoxes rules t u) : LeavesBoxes rules s u :=
  ⟨hst.grid.trans htu.grid, htu.boxes.trans hst.boxes, htu.blocks⟩

theorem BoxInv.leaves_grid (hs : s.BoxInv rules) {g : CellGrid} (hg : SameBoxes rules s.grid g) :
    LeavesBoxes rules s { s with grid := g } := ⟨hg, rfl, hs.blocks⟩

theorem BoxInv.leaves_setPlayer (hs : s.BoxInv rules) (player : PlayerId) (q : CellPlayer) :
    LeavesBoxes rules s (s.setPlayer player q) := ⟨SameBoxes.refl hs.ground, rfl, hs.blocks⟩

theorem BoxInv.leaves_gainItem (hs : s.BoxInv rules) (player : PlayerId) (item : Int32) (count : Int) :
    LeavesBoxes rules s (s.gainItem player item count) := by
  rw [gainItem]
  split
  · exact hs.refl
  · exact hs.leaves_setPlayer player _

theorem ne_boxCell_of_isEmpty {cell : UInt8} (h : rules.isEmpty cell = true) : cell ≠ boxCell := by
  rintro rfl
  rw [rules.boxSolid.1] at h
  cases h

theorem ne_boxCell_of_isDestructible {cell : UInt8} (h : rules.isDestructible cell = true) : cell ≠ boxCell := by
  rintro rfl
  rw [rules.boxSolid.2.2] at h
  cases h

/-! ### Digging -/

theorem BoxInv.leaves_mine (hs : s.BoxInv rules) (player : PlayerId) (cell : UInt8) (amount : Int) :
    LeavesBoxes rules s (s.mine player cell amount) := by
  unfold mine
  split
  · exact hs.leaves_setPlayer player _
  · exact hs.refl

theorem BoxInv.leaves_pushBoulder (hs : s.BoxInv rules) {cell : UInt8} {target : WorldPos} (dest : WorldPos)
    (journal : WorldPos → Bool) (hcell : cell ≠ boxCell) (htarget : s.getCell target ≠ boxCell) :
    LeavesBoxes rules s (s.pushBoulder rules cell target dest journal) := by
  rw [pushBoulder]
  split
  · rename_i hpush
    have hdest : s.getCell dest ≠ boxCell := ne_boxCell_of_isEmpty (Bool.and_eq_true_iff.mp hpush).2
    have hdestroy := sameBoxes_destroy (journal target) hs.ground htarget
    exact hs.leaves_grid
      (hdestroy.trans (sameBoxes_writeWorldCell hdestroy.ground (hdestroy.ne hdest) hcell))
  · exact hs.refl

theorem ne_boxCell_of_isBoulder {cell : UInt8} (h : isBoulder cell = true) : cell ≠ boxCell := by
  rintro rfl
  cases h

theorem BoxInv.leaves_hitCell (hs : s.BoxInv rules) (player : PlayerId) (cell : UInt8) {target : WorldPos} (dir : Int32)
    (power : UInt32) (mined : Int) (journal pushed : WorldPos → Bool) (htarget : s.getCell target ≠ boxCell) :
    LeavesBoxes rules s (s.hitCell rules player cell target dir power mined journal pushed) := by
  have hdamage := hs.leaves_grid (sameBoxes_damageCell (journal target) hs.ground htarget power)
  have hmine := hdamage.trans ((hs.of_leaves hdamage).leaves_mine player cell mined)
  unfold hitCell
  dsimp only
  split
  · rename_i hboulder
    have hcell := ne_boxCell_of_isBoulder (Bool.and_eq_true_iff.mp hboulder).1
    exact hmine.trans ((hs.of_leaves hmine).leaves_pushBoulder _ pushed hcell (hmine.grid.ne htarget))
  · exact hmine

theorem BoxInv.leaves_digCell (hs : s.BoxInv rules) (player : PlayerId) (pos : WorldPos) (dir : Int32) (hit : UInt32)
    (mined : Int) (journal pushed : WorldPos → Bool) :
    LeavesBoxes rules s (s.digCell rules player pos dir hit mined journal pushed) := by
  unfold digCell
  dsimp only
  split
  · exact hs.refl
  · split
    · exact ⟨SameBoxes.refl hs.ground, rfl, hs.blocks⟩
    · rename_i hbox
      split
      · exact hs.refl
      · split
        · exact hs.leaves_grid (sameBoxes_damageCell _ hs.ground hbox oneF32)
        · exact hs.leaves_hitCell player _ dir _ mined journal pushed hbox

theorem BoxInv.leaves_handleDig (hs : s.BoxInv rules) (player : PlayerId) (dir : Int32) (hit : UInt32) (mined : Int)
    (journal pushed : WorldPos → Bool) :
    LeavesBoxes rules s (s.handleDig rules player dir hit mined journal pushed) := by
  rw [handleDig]
  cases s.players player with
  | none => exact hs.refl
  | some q =>
      have hset := hs.leaves_setPlayer player { q with dir := if 0 ≤ dir ∧ dir ≤ 3 then dir else q.dir }
      exact hset.trans ((hs.of_leaves hset).leaves_digCell player q.pos dir hit mined journal pushed)

/-! ### Building blocks -/

/-- A build replaces no box and makes none. -/
theorem buildPlan_ne_boxCell {block : String} {skills : BuildSkills} {cur : UInt8} {durability : UInt32}
    {plan : BuildPlan} (h : buildPlan rules block skills cur durability = some plan) :
    cur ≠ boxCell ∧ plan.cell.cellType ≠ boxCell := by
  obtain ⟨hempty, hsand, -⟩ := rules.boxSolid
  constructor
  · rintro rfl
    have htruly : isTrulyEmpty boxCell = false := rfl
    have hgreen : boxCell ≠ greenBlock := by decide
    have hyellow : boxCell ≠ yellowBlock := by decide
    have hnone : buildPlan rules block skills boxCell durability = none := by
      unfold buildPlan
      split <;> simp [hempty, hsand, htruly, hgreen, hyellow]
    rw [hnone] at h
    cases h
  · unfold buildPlan at h
    repeat' split at h
    all_goals cases h
    all_goals
      dsimp only
      decide

theorem BoxInv.leaves_placePlan (hs : s.BoxInv rules) {plan : BuildPlan} {target : WorldPos} (hp : UInt32)
    (journal : WorldPos → Bool) (htarget : s.getCell target ≠ boxCell) (hcell : plan.cell.cellType ≠ boxCell) :
    LeavesBoxes rules s (s.placePlan rules plan target hp journal) where
  grid := sameBoxes_writeWorldCell hs.ground htarget hcell
  boxes := rfl
  blocks c hc := by
    rw [placePlan] at hc
    dsimp only at hc
    split at hc
    · rcases List.mem_append.mp hc with hc | hc
      · exact hs.blocks c hc
      · have hframe : militaryBlockFrame ≠ boxCell := by decide
        have hblock : militaryBlock ≠ boxCell := by decide
        obtain rfl := List.mem_singleton.mp hc
        exact ⟨hframe, hblock⟩
    · exact hs.blocks c hc

theorem BoxInv.leaves_paidPlan (hs : s.BoxInv rules) (player : PlayerId) (q : CellPlayer) {plan : BuildPlan}
    {target : WorldPos} (hp : UInt32) (journal : WorldPos → Bool) (htarget : s.getCell target ≠ boxCell)
    (hcell : plan.cell.cellType ≠ boxCell) :
    LeavesBoxes rules s ((s.setPlayer player q).placePlan rules plan target hp journal) := by
  have hset := hs.leaves_setPlayer player q
  exact hset.trans ((hs.of_leaves hset).leaves_placePlan hp journal htarget hcell)

theorem BoxInv.leaves_handleBuild (hs : s.BoxInv rules) (player : PlayerId) (block : String) (direction : Int32)
    (skills : BuildSkills) (journal : WorldPos → Bool) :
    LeavesBoxes rules s (s.handleBuild config.cells rules player block direction skills journal) := by
  rw [handleBuild]
  cases s.players player with
  | none => exact hs.refl
  | some q =>
      dsimp only
      split
      · exact hs.refl
      · cases s.buildTarget config.cells q with
        | none => exact hs.leaves_setPlayer player _
        | some target =>
            dsimp only
            cases hplan : buildPlan rules block skills (s.getCell target) (s.grid.getDurability (worldPos target)) with
            | none => exact hs.leaves_setPlayer player _
            | some plan =>
                dsimp only
                split
                · exact hs.leaves_setPlayer player _
                · obtain ⟨htarget, hcell⟩ := buildPlan_ne_boxCell hplan
                  exact hs.leaves_paidPlan player _ skills.hp journal htarget hcell

theorem BoxInv.leaves_applyCellConversions (hs : s.BoxInv rules) (journal : WorldPos → Bool) :
    LeavesBoxes rules s (s.applyCellConversions rules journal) where
  grid := by
    refine sameBoxes_foldl _ (SameBoxes.refl hs.ground) fun j hj c hc => ?_
    split
    · exact SameBoxes.refl hj.ground
    · split
      · rename_i hconvert
        have hrequired := of_decide_eq_true (Bool.and_eq_true_iff.mp hconvert).2
        obtain ⟨hbefore, hafter⟩ := hs.blocks c hc
        exact sameBoxes_writeWorldCell hj.ground (hrequired ▸ hbefore) hafter
      · exact SameBoxes.refl hj.ground
  boxes := rfl
  blocks c hc := by
    obtain ⟨d, hd, rfl⟩ := List.mem_map.mp hc
    exact hs.blocks d (List.mem_of_mem_filter hd)

/-! ### Items -/

theorem ne_boxCell_of_alive {cell : UInt8} {item : Int32} (h : aliveCellToItem cell = some item) : cell ≠ boxCell := by
  rintro rfl
  cases h

theorem geopackItemToCell_ne_boxCell {item : Int32} {alive : UInt8} (h : geopackItemToCell item = some alive) :
    alive ≠ boxCell := by
  unfold geopackItemToCell at h
  repeat' split at h
  all_goals cases h
  all_goals decide

theorem ne_boxCell_of_trueEmpty {front : WorldPos} (h : s.trueEmpty config.cells rules front = true) :
    s.getCell front ≠ boxCell := by
  simp only [trueEmpty, Bool.and_eq_true] at h
  exact ne_boxCell_of_isEmpty h.1.1

theorem BoxInv.leaves_useGeopack (hs : s.BoxInv rules) (player : PlayerId) (front : WorldPos) (item : Int32) (ok : Bool) :
    LeavesBoxes rules s (s.useGeopack config.cells rules player front item ok).1 := by
  rw [useGeopack]
  cases halive : aliveCellToItem (s.getCell front) with
  | some pickupItem =>
      have hdestroy := hs.leaves_grid (sameBoxes_destroy ok hs.ground (ne_boxCell_of_alive halive))
      exact hdestroy.trans ((hs.of_leaves hdestroy).leaves_gainItem player pickupItem 1)
  | none =>
      dsimp only
      split
      · exact hs.refl
      · rename_i hempty
        rw [Bool.not_eq_true', Bool.not_eq_false] at hempty
        cases hplaced : geopackItemToCell item with
        | none => exact hs.refl
        | some alive =>
            exact hs.leaves_grid (sameBoxes_writeWorldCell hs.ground (ne_boxCell_of_trueEmpty hempty)
              (geopackItemToCell_ne_boxCell hplaced))

theorem BoxInv.leaves_usePoli (hs : s.BoxInv rules) (front : WorldPos) (clanId : Int32) (ok : Bool) :
    LeavesBoxes rules s (s.usePoli config.cells rules front clanId ok).1 := by
  have hroad : polymerRoad ≠ boxCell := by decide
  rw [usePoli]
  split
  · rename_i huse
    exact hs.leaves_grid
      (sameBoxes_writeWorldCell hs.ground (ne_boxCell_of_trueEmpty (Bool.and_eq_true_iff.mp huse).2) hroad)
  · exact hs.refl

theorem BoxInv.leaves_useC190 (hs : s.BoxInv rules) (front : WorldPos) (dir : Int32) (io : Nat → Bool) :
    LeavesBoxes rules s (s.useC190 rules front dir io).1 := by
  rw [useC190]
  split
  · refine hs.leaves_grid (sameBoxes_foldl _ (SameBoxes.refl hs.ground) fun j hj i _ => ?_)
    split
    · rename_i hhits
      have hdestructible := (Bool.and_eq_true_iff.mp hhits).2
      exact sameBoxes_damageCell _ hj.ground (ne_boxCell_of_isDestructible hdestructible) fiftyF32
    · exact SameBoxes.refl hj.ground
  · exact hs.refl

theorem BoxInv.leaves_useAtOnce (config : BuildingsConfig) (hs : s.BoxInv rules) (player : PlayerId) (q : CellPlayer) (front : WorldPos)
    (io : Nat → Bool) : LeavesBoxes rules s (s.useAtOnce config.cells rules player q front io).1 := by
  rw [useAtOnce]
  split
  · exact hs.leaves_useGeopack player front q.selected (io 0)
  · split
    · exact hs.leaves_usePoli front _ (io 0)
    · split
      · exact hs.leaves_useC190 front q.dir io
      · exact hs.refl

theorem BoxInv.leaves_useItem (hs : s.BoxInv rules) (player : PlayerId) (gatePassed reserved : Bool) (io : Nat → Bool) :
    LeavesBoxes rules s (s.useItem config.cells rules player gatePassed reserved io) := by
  rw [useItem]
  cases s.players player with
  | none => exact hs.refl
  | some q =>
      dsimp only
      split
      · exact hs.refl
      · split
        · exact hs.refl
        · split
          · exact hs.refl
          · cases delayedConsumable q.selected (facing q.pos q.dir) s.nextSequence with
            | some action =>
                dsimp only
                split
                · exact hs.refl
                · have hqueued : LeavesBoxes rules s
                      { s with due := s.due ++ [action], nextSequence := s.nextSequence + 1 } :=
                    ⟨SameBoxes.refl hs.ground, rfl, hs.blocks⟩
                  exact hqueued.trans ((hs.of_leaves hqueued).leaves_gainItem player q.selected (-1))
            | none =>
                have hused := hs.leaves_useAtOnce config player q (facing q.pos q.dir) io
                dsimp only
                split
                · exact hused.trans ((hs.of_leaves hused).leaves_gainItem player q.selected (-1))
                · exact hused

/-! ### Blasts -/

theorem sameBoxes_boomCell (s : CellWorld) (rngSeed : UInt64) (journal : WorldPos → Bool) {g : CellGrid}
    (hg : g.BoxGround rules) (p : WorldPos) :
    SameBoxes rules g (s.boomCell config.cells rules rngSeed journal g p) := by
  have hacid : acidRock ≠ boxCell := by decide
  have hrock : rockCell ≠ boxCell := by decide
  have hempty : emptyCell ≠ boxCell := by decide
  rw [boomCell]
  split
  · exact SameBoxes.refl hg
  · rename_i hhit
    simp only [Bool.not_eq_true, Bool.or_eq_false_iff, Bool.not_eq_false'] at hhit
    have hcell := ne_boxCell_of_isDestructible hhit.2
    split
    · split
      · exact sameBoxes_writeWorldCell hg hcell hacid
      · exact SameBoxes.refl hg
    · split
      · exact sameBoxes_writeWorldCell hg hcell hrock
      · exact sameBoxes_writeWorldCell hg hcell hempty

theorem sameBoxes_protectorCell (s : CellWorld) (journal : WorldPos → Bool) {g : CellGrid} (hg : g.BoxGround rules)
    (p : WorldPos) : SameBoxes rules g (s.protectorCell config.cells rules journal g p) := by
  have hempty : emptyCell ≠ boxCell := by decide
  rw [protectorCell]
  split
  · rename_i hhit
    simp only [Bool.and_eq_true] at hhit
    exact sameBoxes_writeWorldCell hg (ne_boxCell_of_isDestructible hhit.1.2) hempty
  · exact SameBoxes.refl hg

theorem BoxInv.leaves_applyDue (hs : s.BoxInv rules) (i : Nat) (journal : WorldPos → Bool) :
    LeavesBoxes rules s (s.applyDue config.cells rules i journal) := by
  rw [applyDue]
  cases s.due[i]? with
  | none => exact hs.refl
  | some action =>
      dsimp only
      cases action with
      | boom center rngSeed =>
          exact ⟨sameBoxes_foldl _ (SameBoxes.refl hs.ground) fun j hj p _ => sameBoxes_boomCell _ rngSeed journal hj.ground p,
            rfl, hs.blocks⟩
      | protector center =>
          exact ⟨sameBoxes_foldl _ (SameBoxes.refl hs.ground) fun j hj p _ => sameBoxes_protectorCell _ journal hj.ground p,
            rfl, hs.blocks⟩
      | raz center => exact ⟨SameBoxes.refl hs.ground, rfl, hs.blocks⟩

/-! ### Boxes -/

theorem searchBoxCoord_spec {valid free : WorldPos → Bool} {n : Nat} {queue visited : List WorldPos} {q : WorldPos}
    (h : searchBoxCoord valid free n queue visited = some q) : valid q = true ∧ free q = true := by
  induction n generalizing queue visited with
  | zero => cases h
  | succ n ih =>
      cases queue with
      | nil => cases h
      | cons p queue =>
          rw [searchBoxCoord] at h
          cases hfind : ((neighbors p).filter valid).find? free with
          | some r =>
              rw [hfind] at h
              obtain rfl := Option.some_inj.mp h
              exact ⟨(List.mem_filter.mp (List.mem_of_find?_eq_some hfind)).2, List.find?_some hfind⟩
          | none =>
              rw [hfind] at h
              exact ih h

theorem valid_of_pickBoxCoord {valid free : WorldPos → Bool} {p q : WorldPos} (h : pickBoxCoord valid free p = some q) :
    valid q = true := by
  rw [pickBoxCoord] at h
  split at h
  · rename_i hhere
    obtain rfl := Option.some_inj.mp h
    exact (Bool.and_eq_true_iff.mp hhere).1
  · rcases Option.or_eq_some_iff.mp h with hfound | ⟨-, hself⟩
    · exact (searchBoxCoord_spec hfound).1
    · obtain ⟨hvalid, hq⟩ := Option.ite_none_right_eq_some.mp hself
      exact Option.some_inj.mp hq ▸ hvalid

/-- The contents have gone into the basket of a player. -/
def InBasket (s t : CellWorld) (crystals : Crystals) : Prop :=
  ∃ player p, s.players player = some p ∧
    t.players player = some { p with crystals := fun i => saturatingAdd (p.crystals i) (crystals i) }

/-- What the boxes hold stays there or goes into a basket. -/
def ContentsKept (s t : CellWorld) : Prop :=
  ∀ p crystals, s.boxes p = some crystals → t.boxes p = some crystals ∨ t.boxes p = none ∧ InBasket s t crystals

theorem LeavesBoxes.contentsKept (h : LeavesBoxes rules s t) : ContentsKept s t := by
  intro p crystals hbox
  rw [h.boxes]
  exact Or.inl hbox

theorem LeavesBoxes.kept (h : LeavesBoxes rules s t) (hs : s.BoxInv rules) : t.BoxInv rules ∧ ContentsKept s t :=
  ⟨hs.of_leaves h, h.contentsKept⟩

theorem BoxInv.boxes_eq_none (hs : s.BoxInv rules) (hp : s.getCell p ≠ boxCell) : s.boxes p = none := by
  rw [← Option.not_isSome_iff_eq_none]
  exact fun h => hp ((hs.agree p).mpr h)

theorem setCellTyped_boxCell (rules : CellRules) {g : CellGrid} {q : Pos} (hvalid : g.validCoord q = true) :
    g.setCellTyped rules.toCellDefs q boxCell true = g.put q boxCell (g.road q) (rules.durability boxCell) := by
  simp [CellGrid.setCellTyped, CellGrid.writeWorldCell, hvalid, rules.boxSolid.1]

theorem BoxInv.putBoxCell {q : WorldPos} (hs : s.BoxInv rules) (hvalid : s.validCoord q = true)
    (hq : s.getCell q ≠ boxCell) (crystals : Crystals) :
    (s.putBoxCell rules q crystals true).BoxInv rules ∧
      ∀ p contents, s.boxes p = some contents → (s.putBoxCell rules q crystals true).boxes p = some contents := by
  have hgrid := setCellTyped_boxCell rules hvalid
  refine ⟨⟨fun p => ?_, ⟨fun p => ?_, fun p hbox => ?_⟩, hs.blocks⟩, fun p contents hbox => ?_⟩
  · simp only [CellWorld.putBoxCell, getCell]
    rw [hgrid, CellGrid.getCell_put _ _ _ hvalid]
    by_cases hp : p = q
    · rw [hp, if_pos rfl, Function.update_self]
      exact iff_of_true rfl rfl
    · rw [if_neg fun h => hp (worldPos_inj h), Function.update_of_ne hp]
      exact hs.agree p
  · simp only [CellWorld.putBoxCell]
    rw [hgrid, road_put]
    split
    · exact hs.ground.road _
    · exact hs.ground.road p
  · simp only [CellWorld.putBoxCell] at hbox ⊢
    rw [hgrid, CellGrid.getCell_put _ _ _ hvalid] at hbox
    rw [hgrid, durability_put]
    split
    · exact rules.boxFragile
    · rename_i hp
      rw [if_neg hp] at hbox
      exact hs.ground.fragile p hbox
  · have hp : p ≠ q := by
      rintro rfl
      rw [hs.boxes_eq_none hq] at hbox
      cases hbox
    simp only [CellWorld.putBoxCell]
    rw [Function.update_of_ne hp]
    exact hbox

theorem damageCell_box {g : CellGrid} {q : Pos} (hg : g.BoxGround rules) (hq : g.getCell q = boxCell) :
    g.validCoord q = true ∧ (g.damageCell rules.toFloatOps q oneF32 true).1 =
      g.put q 0 (if g.road q = 0 then emptyCell else g.road q) 0 := by
  have hvalid : g.validCoord q = true := by
    by_contra hinvalid
    rw [CellGrid.getCell, if_neg hinvalid] at hq
    cases hq
  refine ⟨hvalid, ?_⟩
  rw [CellGrid.damageCell, hvalid]
  simp only [Bool.and_self, if_true, hg.fragile q hq]

theorem BoxInv.removeBoxCell {q : WorldPos} (hs : s.BoxInv rules) (hq : s.getCell q = boxCell) {picked : Crystals}
    (hpicked : s.boxes q = some picked) : (s.removeBoxCell rules q true).2 = some picked ∧
      (s.removeBoxCell rules q true).1.BoxInv rules ∧
      ∀ p, (s.removeBoxCell rules q true).1.boxes p = if p = q then none else s.boxes p := by
  obtain ⟨hvalid, hgrid⟩ := damageCell_box hs.ground hq
  have hroad := uncovered_ne_boxCell hs.ground (worldPos q)
  have hvisible := visible_ne_boxCell (by decide : (0 : UInt8) ≠ boxCell) hroad
  simp only [CellWorld.removeBoxCell, hpicked, hgrid]
  refine ⟨trivial, ⟨fun p => ?_, ⟨fun p => ?_, fun p hbox => ?_⟩, hs.blocks⟩, fun p => Function.update_apply ..⟩
  · dsimp only [getCell]
    rw [CellGrid.getCell_put _ _ _ hvalid]
    by_cases hp : p = q
    · rw [hp, if_pos rfl, Function.update_self]
      exact iff_of_false hvisible (by simp)
    · rw [if_neg fun h => hp (worldPos_inj h), Function.update_of_ne hp]
      exact hs.agree p
  · rw [road_put]
    split
    · exact hroad
    · exact hs.ground.road p
  · dsimp only at hbox ⊢
    rw [CellGrid.getCell_put _ _ _ hvalid] at hbox
    split at hbox
    · exact absurd hbox hvisible
    · rename_i hp
      rw [durability_put, if_neg hp]
      exact hs.ground.fragile p hbox

theorem BoxInv.deathDrop (hs : s.BoxInv rules) {player : PlayerId} {ok : Bool}
    (hok : ∀ p q, s.players player = some p → 0 < (List.ofFn p.crystals).foldl (· + ·) 0 →
      s.deathBoxCoord config.cells rules p.pos = some q → ok = true ∧ s.getCell q ≠ boxCell) :
    (s.deathDrop config.cells rules player ok).BoxInv rules ∧
      ContentsKept s (s.deathDrop config.cells rules player ok) := by
  rw [CellWorld.deathDrop]
  cases hplayer : s.players player with
  | none => exact hs.refl.kept hs
  | some p =>
      dsimp only
      split
      · rename_i htotal
        have hset := hs.leaves_setPlayer player { p with crystals := fun _ => 0 }
        cases hcoord : s.deathBoxCoord config.cells rules p.pos with
        | none => exact hset.kept hs
        | some q =>
            obtain ⟨rfl, hq⟩ := hok p q hplayer htotal hcoord
            have hvalid := valid_of_pickBoxCoord (Option.eq_some_of_filter_eq_some hcoord)
            obtain ⟨hinv, hkept⟩ := (hs.of_leaves hset).putBoxCell hvalid hq p.crystals
            exact ⟨hinv, fun r crystals hr => Or.inl (hkept r crystals hr)⟩
      · exact hs.refl.kept hs

theorem BoxInv.applyBoxPickup (hs : s.BoxInv rules) (sameSession : Bool) {ok : Bool}
    (hok : ∀ intent, s.pickups.head? = some intent → (s.boxes intent.boxPos).isSome = true → ok = true) :
    (s.applyBoxPickup rules sameSession ok).BoxInv rules ∧
      ContentsKept s (s.applyBoxPickup rules sameSession ok) := by
  rw [CellWorld.applyBoxPickup]
  cases hpickups : s.pickups with
  | nil => exact hs.refl.kept hs
  | cons intent rest =>
      have hrest : LeavesBoxes rules s { s with pickups := rest } := ⟨SameBoxes.refl hs.ground, rfl, hs.blocks⟩
      have ht := hs.of_leaves hrest
      dsimp only
      cases hplayer : s.players intent.player with
      | none => exact hrest.kept hs
      | some p =>
          dsimp only
          split
          · rename_i hpick
            have hbox := hpick.2.2
            obtain ⟨picked, hpicked⟩ := Option.isSome_iff_exists.mp ((hs.agree _).mp hbox)
            obtain rfl := hok intent (by rw [hpickups]; rfl) (by rw [hpicked]; rfl)
            obtain ⟨hresult, hinv, hboxes⟩ := ht.removeBoxCell hbox hpicked
            generalize hremove : CellWorld.removeBoxCell rules { s with pickups := rest } intent.boxPos true = removed
            rw [hremove] at hresult hinv hboxes
            obtain ⟨u, result⟩ := removed
            obtain rfl := hresult
            refine ⟨⟨hinv.agree, hinv.ground, hinv.blocks⟩, fun q crystals hq => ?_⟩
            by_cases hsame : q = intent.boxPos
            · right
              subst hsame
              obtain rfl := Option.some_inj.mp (hpicked.symm.trans hq)
              exact ⟨(hboxes _).trans (if_pos rfl), intent.player, p, hplayer, Function.update_self ..⟩
            · left
              exact ((hboxes q).trans (if_neg hsame)).trans hq
          · exact hrest.kept hs

/-! ### Buildings -/

theorem BoxInv.leaves_placeBuilding (hs : s.BoxInv rules) {b : BuildingEntity} (journal : WorldPos → Bool)
    (hfree : ∀ d ∈ footprint config.cells b.view, s.getCell d.1 ≠ boxCell ∧ d.2 ≠ boxCell) :
    LeavesBoxes rules s (s.placeBuilding rules config b journal) := by
  rw [placeBuilding]
  split
  · refine ⟨sameBoxes_foldl _ (SameBoxes.refl hs.ground) fun j hj d hd => ?_, rfl, hs.blocks⟩
    obtain ⟨hcell, htype⟩ := hfree d hd
    exact sameBoxes_writeWorldCell hj.ground (hj.ne hcell) htype
  · exact hs.refl

theorem BoxInv.leaves_removeBuildingAt (config : BuildingsConfig) (hs : s.BoxInv rules) {entity : EntityId} (journal : WorldPos → Bool)
    (boxOk : Bool) (hfree : ∀ b, s.entities entity = some b → s.byOrigin b.view.origin = some entity →
      ∀ d ∈ footprint config.cells b.view, s.getCell d.1 ≠ boxCell) :
    LeavesBoxes rules s (s.removeBuildingAt config.cells rules entity none journal boxOk) := by
  have hempty : emptyCell ≠ boxCell := by decide
  rw [removeBuildingAt]
  cases hb : s.entities entity with
  | none => exact hs.refl
  | some b =>
      dsimp only
      cases hremove : s.toBuildingIndex.removeBuilding b.view entity with
      | none => exact hs.refl
      | some index =>
          have hat := (BuildingIndex.removeBuilding_eq_some hremove).1
          refine ⟨sameBoxes_foldl _ (SameBoxes.refl hs.ground) fun j hj d hd => ?_, rfl, hs.blocks⟩
          exact sameBoxes_writeWorldCell hj.ground (hj.ne (hfree b hb hat d hd)) hempty

/-- A removal that leaves a box is one that leaves none, and then the box. -/
theorem removeBuildingAt_some (s : CellWorld) (entity : EntityId) (crystals : Crystals) (journal : WorldPos → Bool)
    (boxOk : Bool) : s.removeBuildingAt config.cells rules entity (some crystals) journal boxOk = s ∨
      ∃ b, s.entities entity = some b ∧ s.byOrigin b.view.origin = some entity ∧
        s.removeBuildingAt config.cells rules entity (some crystals) journal boxOk =
          (s.removeBuildingAt config.cells rules entity none journal boxOk).putBoxCell rules b.view.origin crystals
            boxOk := by
  simp only [removeBuildingAt]
  cases hb : s.entities entity with
  | none => exact Or.inl rfl
  | some b =>
      dsimp only
      cases hremove : s.toBuildingIndex.removeBuilding b.view entity with
      | none => exact Or.inl rfl
      | some index => exact Or.inr ⟨b, rfl, (BuildingIndex.removeBuilding_eq_some hremove).1, rfl⟩

theorem BoxInv.leaves_updateBuilding (hs : s.BoxInv rules) (entity : EntityId) (b : BuildingEntity) :
    LeavesBoxes rules s (s.updateBuilding entity b) := by
  rw [updateBuilding]
  split
  · exact hs.refl
  · split
    · exact ⟨SameBoxes.refl hs.ground, rfl, hs.blocks⟩
    · exact hs.refl

theorem BoxInv.leaves_writeOther (hs : s.BoxInv rules) (p : WorldPos) (foreground road : UInt8) (durability : UInt32) :
    LeavesBoxes rules s (s.writeOther p foreground road durability) := by
  rw [writeOther]
  split
  · rename_i hwrite
    obtain ⟨hvalid, hp, hforeground, hroad⟩ := hwrite
    exact hs.leaves_grid
      (sameBoxes_put hs.ground hvalid hp durability (visible_ne_boxCell hforeground hroad) hroad)
  · exact hs.refl

/-- The condition on an event in the state before it: a building comes and goes where no box is, nobody dies who
finds no other place than a box, and what is written of a box reaches the journal. -/
def BoxClear (config : BuildingsConfig) (rules : CellRules) (s : CellWorld) : CellEvent → Prop
  | .death player ok => ∀ p q, s.players player = some p → 0 < (List.ofFn p.crystals).foldl (· + ·) 0 →
      s.deathBoxCoord config.cells rules p.pos = some q → ok = true ∧ s.getCell q ≠ boxCell
  | .pickup _ ok => ∀ intent, s.pickups.head? = some intent → (s.boxes intent.boxPos).isSome = true → ok = true
  | .place b _ => ∀ d ∈ footprint config.cells b.view, s.getCell d.1 ≠ boxCell ∧ d.2 ≠ boxCell
  | .remove entity contents _ boxOk => ∀ b, s.entities entity = some b → s.byOrigin b.view.origin = some entity →
      (∀ d ∈ footprint config.cells b.view, s.getCell d.1 ≠ boxCell) ∧
        (contents.isSome = true → s.getCell b.view.origin ≠ boxCell ∧ boxOk = true)
  | _ => True

theorem BoxInv.removeBuildingAt (hstanding : s.Standing) (hs : s.BoxInv rules) {entity : EntityId}
    {contents : Option Crystals} {journal : WorldPos → Bool} {boxOk : Bool}
    (hclear : s.BoxClear config rules (.remove entity contents journal boxOk)) :
    (s.removeBuildingAt config.cells rules entity contents journal boxOk).BoxInv rules ∧
      ContentsKept s (s.removeBuildingAt config.cells rules entity contents journal boxOk) := by
  have hleaves := hs.leaves_removeBuildingAt config journal boxOk fun b hb hat => (hclear b hb hat).1
  cases contents with
  | none => exact hleaves.kept hs
  | some crystals =>
      rcases s.removeBuildingAt_some entity crystals journal boxOk with hsame | ⟨b, hb, hat, hremoved⟩
      · rw [hsame]
        exact hs.refl.kept hs
      · obtain ⟨hbox, rfl⟩ := (hclear b hb hat).2 rfl
        have hvalid := (hleaves.grid.size.validCoord _).trans (hstanding.valid hb)
        obtain ⟨hinv, hkept⟩ := (hs.of_leaves hleaves).putBoxCell hvalid (hleaves.grid.ne hbox) crystals
        rw [hremoved]
        refine ⟨hinv, fun p contents hp => Or.inl (hkept p contents ?_)⟩
        rw [hleaves.boxes]
        exact hp

/-! ### Runs -/

theorem BoxInv.step (hstanding : s.Standing) (hs : s.BoxInv rules) {e : CellEvent}
    (hclear : s.BoxClear config rules e) :
    (s.step config rules e).BoxInv rules ∧ ContentsKept s (s.step config rules e) := by
  cases e with
  | dig player dir hit mined journal pushed => exact (hs.leaves_handleDig player dir hit mined journal pushed).kept hs
  | build player block direction skills journal =>
      exact (hs.leaves_handleBuild player block direction skills journal).kept hs
  | convert journal => exact (hs.leaves_applyCellConversions journal).kept hs
  | useItem player gatePassed reserved io => exact (hs.leaves_useItem player gatePassed reserved io).kept hs
  | due i journal => exact (hs.leaves_applyDue i journal).kept hs
  | death player ok => exact hs.deathDrop hclear
  | stand player =>
      rw [CellWorld.step, standOnBox]
      split
      · exact hs.refl.kept hs
      · split
        · exact LeavesBoxes.kept ⟨SameBoxes.refl hs.ground, rfl, hs.blocks⟩ hs
        · exact hs.refl.kept hs
  | pickup sameSession ok => exact hs.applyBoxPickup sameSession hclear
  | place b journal => exact (hs.leaves_placeBuilding journal hclear).kept hs
  | remove entity contents journal boxOk => exact hs.removeBuildingAt hstanding hclear
  | update entity b => exact (hs.leaves_updateBuilding entity b).kept hs
  | write p foreground road durability => exact (hs.leaves_writeOther p foreground road durability).kept hs
  | players players => exact LeavesBoxes.kept ⟨SameBoxes.refl hs.ground, rfl, hs.blocks⟩ hs

theorem BoxInv.run (hstanding : s.Standing) (hs : s.BoxInv rules) (es : List CellEvent)
    (hclear : ∀ fs e, fs ++ [e] <+: es → (s.run config rules fs).BoxClear config rules e) :
    (s.run config rules es).BoxInv rules := by
  induction es using List.reverseRecOn with
  | nil => exact hs
  | append_singleton es e ih =>
      have hbefore := ih fun fs f hfs => hclear fs f (hfs.trans (List.prefix_append es [e]))
      rw [run_concat]
      exact (hbefore.step (hstanding.run es) (hclear es e List.prefix_rfl)).1

/-- In a run whose events all meet their conditions, the cells and the index agree about the boxes, and what a
box holds stays in it or goes into a basket. -/
theorem boxes_agree (hstanding : s.Standing) (hs : s.BoxInv rules) (es : List CellEvent)
    (hclear : ∀ fs e, fs ++ [e] <+: es → (s.run config rules fs).BoxClear config rules e) :
    (∀ fs, fs <+: es → (s.run config rules fs).BoxesAgree) ∧
      ∀ fs e, fs ++ [e] <+: es → ContentsKept (s.run config rules fs) (s.run config rules (fs ++ [e])) := by
  have hinv (fs : List CellEvent) (hfs : fs <+: es) : (s.run config rules fs).BoxInv rules :=
    hs.run hstanding fs fun gs e hgs => hclear gs e (hgs.trans hfs)
  refine ⟨fun fs hprefix => (hinv fs hprefix).agree, fun fs e hprefix => ?_⟩
  have hbefore := hinv fs ((List.prefix_append fs [e]).trans hprefix)
  rw [run_concat]
  exact (hbefore.step (hstanding.run fs) (hclear fs e hprefix)).2

theorem getCell_twoBuilders (p : Pos) : twoBuilders.grid.getCell p ≠ boxCell := by
  have hforeground : (0 : UInt8) ≠ boxCell := by decide
  have hroad : emptyCell ≠ boxCell := by decide
  rw [CellGrid.getCell]
  split
  · exact visible_ne_boxCell hforeground hroad
  · exact hforeground

theorem twoBuilders_boxInv : twoBuilders.BoxInv .cellsJson where
  agree p := iff_of_false (getCell_twoBuilders _) (by simp [twoBuilders])
  ground := by
    have hroad : emptyCell ≠ boxCell := by decide
    exact ⟨fun _ => hroad, fun p hbox => absurd hbox (getCell_twoBuilders p)⟩
  blocks c hc := by cases hc

/-- A player leaves a box and gets it back. -/
def deathThenPickup : List CellEvent := [.death 1 true, .stand 1, .pickup true true]

theorem boxes_agree_death_pickup :
    (twoBuilders.run buildingsConfig .cellsJson deathThenPickup).BoxesAgree ∧
      ContentsKept (twoBuilders.run buildingsConfig .cellsJson (deathThenPickup.take 2))
        (twoBuilders.run buildingsConfig .cellsJson deathThenPickup) := by
  refine (boxes_agree twoBuilders_standing twoBuilders_boxInv deathThenPickup fun fs e hprefix => ?_).imp
    (fun hagree => hagree _ List.prefix_rfl)
    (fun hkept => hkept (deathThenPickup.take 2) (.pickup true true) List.prefix_rfl)
  match fs with
  | [] =>
      obtain rfl := (List.cons_prefix_cons.mp hprefix).1
      exact fun _ _ _ _ _ => ⟨rfl, getCell_twoBuilders _⟩
  | [f] =>
      obtain ⟨-, hrest⟩ := List.cons_prefix_cons.mp hprefix
      obtain rfl := (List.cons_prefix_cons.mp hrest).1
      trivial
  | [f, f'] =>
      obtain ⟨-, hrest⟩ := List.cons_prefix_cons.mp hprefix
      obtain ⟨-, hrest'⟩ := List.cons_prefix_cons.mp hrest
      obtain rfl := (List.cons_prefix_cons.mp hrest').1
      exact fun _ _ _ => rfl
  | _ :: _ :: _ :: _ =>
      have hlength := hprefix.length_le
      simp only [deathThenPickup, List.length_append, List.length_cons, List.length_nil] at hlength
      omega

def teleportBuilding : BuildingEntity where
  view := ⟨1, .teleport, 24, 20, 2, 0, 1000, 10000, 1000, 1000⟩
  storage := some ⟨0, fun _ => 0⟩
  flags := some false
  pending := none

/-- A teleport comes to stand on a box, and goes with its charge. -/
def boxUnderTeleport : List CellEvent :=
  [.death 1 true, .place teleportBuilding (fun _ => true),
    .remove 0 (some (fun i => if i.val = 4 then 1000 else 0)) (fun _ => true) true]

/-- The building that completes on a box covers it, and its removal puts another box over the contents; a box
that misses the journal is in the index only. -/
theorem box_covered_and_overwritten : twoBuilders.Standing ∧ twoBuilders.BoxInv .cellsJson ∧
    ¬ (twoBuilders.run buildingsConfig .cellsJson (boxUnderTeleport.take 2)).BoxesAgree ∧
    ¬ ContentsKept (twoBuilders.run buildingsConfig .cellsJson (boxUnderTeleport.take 2))
      (twoBuilders.run buildingsConfig .cellsJson boxUnderTeleport) ∧
    ¬ (twoBuilders.run buildingsConfig .cellsJson [.death 1 false]).BoxesAgree := by
  refine ⟨twoBuilders_standing, twoBuilders_boxInv, fun hagree => ?_, fun hkept => ?_, fun hagree => ?_⟩
  · have hbox := (hagree (24, 20)).mpr (by decide)
    revert hbox
    decide
  · have hbefore : ((twoBuilders.run buildingsConfig .cellsJson (boxUnderTeleport.take 2)).boxes (24, 20)).map
        (fun c => c.at 0) = some 100 := by decide
    have hafter : ((twoBuilders.run buildingsConfig .cellsJson boxUnderTeleport).boxes (24, 20)).map
        (fun c => c.at 0) = some 0 := by decide
    obtain ⟨crystals, hcrystals, hhundred⟩ := Option.map_eq_some_iff.mp hbefore
    rcases hkept _ crystals hcrystals with hsame | ⟨hnone, -⟩
    · rw [hsame, Option.map_some, hhundred] at hafter
      cases hafter
    · rw [hnone] at hafter
      cases hafter
  · have hbox := (hagree (24, 20)).mpr (by decide)
    revert hbox
    decide

end CellWorld

end OpenMines

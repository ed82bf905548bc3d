import OpenMines.Granular

namespace OpenMines.Alive

open CellGrid

def aliveCyan : UInt8 := 50

def aliveRed : UInt8 := 51

def aliveViol : UInt8 := 52

def aliveBlack : UInt8 := 53

def aliveWhite : UInt8 := 54

def aliveRainbow : UInt8 := 55

def aliveBlue : UInt8 := 116

def redCell : UInt8 := 108

def blueCell : UInt8 := 109

def violetCell : UInt8 := 110

def whiteCell : UInt8 := 111

def cyanCell : UInt8 := 112

def blackRock : UInt8 := 114

def hypnoRock : UInt8 := 119

def activeRadius : Int := 16

def isAlive (cell : UInt8) : Bool :=
  cell ∈ [aliveBlue, aliveCyan, aliveRed, aliveBlack, aliveViol, aliveWhite, aliveRainbow]

/-- The tables of the cells, with `f32::from` of an `i16` and the product of two `f32`. -/
structure AliveRules extends CellDefs where
  isDiggable : UInt8 → Bool
  isDestructible : UInt8 → Bool
  ofI16 : Int → UInt32
  mul : UInt32 → UInt32 → UInt32

/-- The order in which a `HashSet` or a `HashMap` is gone through. -/
structure HashOrder (α : Type) where
  arrange : List α → List α
  perm : ∀ l, (arrange l).Perm l

def dirs : List Pos := [(1, 0), (0, 1), (-1, 0), (0, -1)]

/-- The square of three by three, column after column. -/
def square3 : List Pos := [(-1, -1), (-1, 0), (-1, 1), (0, -1), (0, 0), (0, 1), (1, -1), (1, 0), (1, 1)]

def shift (p d : Pos) : Pos := (p.1 + d.1, p.2 + d.2)

def opposite (p d : Pos) : Pos := (p.1 - d.1, p.2 - d.2)

/-- What `alive_physics_system` asks of an entity. -/
structure AlivePlayer where
  pos : Pos
  connected : Bool
  programRunning : Bool

/-- `simulated_positions`. -/
def playerPositions (players : List AlivePlayer) : List Pos :=
  (players.filter fun player => player.connected || player.programRunning).map AlivePlayer.pos

def isActiveFor (positions : List Pos) (p : Pos) : Bool :=
  positions.any fun q => decide ((p.1 - q.1).natAbs ≤ activeRadius.natAbs ∧ (p.2 - q.2).natAbs ≤ activeRadius.natAbs)

structure AliveWork where
  cells : List Pos
  regionSeeds : List Pos
  active : Bool

def AliveWork.noteCell (work : AliveWork) (p : Pos) (cell : UInt8) : AliveWork :=
  if isAlive cell then
    { work with cells := if work.cells.contains p then work.cells else work.cells ++ [p], active := true }
  else { work with cells := work.cells.filter (· ≠ p) }

/-- `seed_alive_regions`. The source joins the windows of a row, and reads each coordinate once. -/
def seedAliveRegions (work : AliveWork) (g : CellGrid) : AliveWork :=
  (work.regionSeeds.flatMap (window (-activeRadius) activeRadius (-activeRadius) activeRadius)).foldl
    (fun work p => if g.validCoord p then work.noteCell p (g.getCell p) else work) { work with regionSeeds := [] }

/-- One of the known cells: it is forgotten, or it is one of those that act. -/
def collectCell (positions : List Pos) (g : CellGrid) (r : List (Pos × UInt8) × AliveWork) (p : Pos) :
    List (Pos × UInt8) × AliveWork :=
  if g.validCoord p then
    (if isAlive (g.getCell p) && isActiveFor positions p then r.1 ++ [(p, g.getCell p)] else r.1,
      r.2.noteCell p (g.getCell p))
  else (r.1, r.2.noteCell p emptyCell)

/-- The cells that act, with what they are. -/
def collect (positions : List Pos) (g : CellGrid) (order : HashOrder Pos) (work : AliveWork) :
    List (Pos × UInt8) × AliveWork :=
  (order.arrange work.cells).foldl (collectCell positions g) ([], work)

structure AliveAction where
  pos : Pos
  cell : UInt8
  durability : Option UInt32

/-- What the cells ask for, and the random numbers to come. -/
structure Evaluation where
  actions : List AliveAction
  clears : List Pos
  rng : Nat → Nat

section Rules

variable (rules : AliveRules) (g : CellGrid) (positions : List Pos) (p : Pos) (modif : Int)

/-- `random_range(1..=100)`. -/
def roll (rng : Nat → Nat) : Nat := rng 0 % 100 + 1

def rest (rng : Nat → Nat) : Nat → Nat := fun n => rng (n + 1)

/-- An empty cell of the world without a player. -/
def free (q : Pos) : Bool := g.validCoord q && rules.isEmpty (g.getCell q) && !positions.contains q

/-- Whether one of these neighbors is a cell of this type. -/
def hasNear (offsets : List Pos) (cell : UInt8) : Bool :=
  offsets.any fun d => g.validCoord (shift p d) && g.getCell (shift p d) == cell

def modifier : Int :=
  let modif := 1 + 2 * (dirs.countP fun d => g.validCoord (shift p d) && g.getCell (shift p d) == hypnoRock : Nat)
  if 1 < modif then modif - 1 else modif

/-- The durability that grows with the modifier. -/
def strength (n modif : Int) : UInt32 := rules.ofI16 (if n * modif ≤ 32767 then n * modif else 32767)

/-- A cell for each free neighbor. -/
def flood (offsets : List Pos) (cell : UInt8) (durability : UInt32) : List AliveAction :=
  ((offsets.map (shift p)).filter (free rules g positions)).map fun q => ⟨q, cell, some durability⟩

def evalCyan (e : Evaluation) : Evaluation :=
  { e with actions := e.actions ++ flood rules g positions p dirs cyanCell (strength rules 2 modif) }

def evalRed (e : Evaluation) : Evaluation :=
  if hasNear g p square3 blackRock then
    { e with actions := e.actions ++ flood rules g positions p dirs redCell (strength rules 3 modif) }
  else e

def evalViol (e : Evaluation) : Evaluation :=
  if hasNear g p square3 blackRock then
    { e with actions := e.actions ++ flood rules g positions p dirs violetCell (strength rules 2 modif) }
  else e

/-- The first direction from a neighbor of the colony to a free cell. -/
def spawnOpposite (e : Evaluation) : List Pos → Evaluation
  | [] => e
  | d :: ds =>
      if g.validCoord (shift p d) && g.getCell (shift p d) == aliveBlack && free rules g positions (opposite p d) then
        let spawned : AliveAction :=
          if 50 < roll e.rng then ⟨opposite p d, redCell, some (strength rules 3 modif)⟩
          else ⟨opposite p d, cyanCell, some (strength rules 2 modif)⟩
        { e with actions := e.actions ++ [spawned], rng := rest e.rng }
      else spawnOpposite e ds

def evalBlack (e : Evaluation) : Evaluation :=
  let count := square3.countP fun d => g.validCoord (shift p d) && g.getCell (shift p d) == aliveBlack
  if 6 ≤ count then
    { e with actions := e.actions ++ [⟨p, blackRock, none⟩], clears := e.clears ++ [p] }
  else if 0 < count then spawnOpposite rules g positions p modif e dirs
  else e

def evalWhite (e : Evaluation) : Evaluation :=
  let above := shift p (0, -1)
  if g.validCoord above && rules.isSand (g.getCell above) then
    let flooded := e.actions ++ flood rules g positions p square3 whiteCell (strength rules 9 modif)
    if roll e.rng < 20 then { e with actions := flooded ++ [⟨above, emptyCell, none⟩], rng := rest e.rng }
    else { e with actions := flooded, rng := rest e.rng }
  else e

def moveBlue (e : Evaluation) : List Pos → Evaluation
  | [] => e
  | d :: ds =>
      if roll e.rng < 20 && free rules g positions (shift p d) then
        { actions := e.actions ++ [⟨shift p d, aliveBlue, none⟩, ⟨p, blueCell, some (strength rules 20 modif)⟩]
          clears := e.clears ++ [p]
          rng := rest e.rng }
      else moveBlue { e with rng := rest e.rng } ds

def evalBlue (e : Evaluation) : Evaluation := moveBlue rules g positions p modif e dirs

/-- What grows in a direction: the cell from the other side. -/
def rainbowAction (d : Pos) : Option AliveAction :=
  if g.validCoord (shift p d) && g.validCoord (opposite p d) && free rules g positions (shift p d) then
    let cell := g.getCell (opposite p d)
    if isAlive cell || rules.isEmpty cell || !rules.isDiggable cell || !rules.isDestructible cell then none
    else some ⟨shift p d, cell, some (rules.mul (rules.durability cell) (strength rules 1 modif))⟩
  else none

def evalRainbow (e : Evaluation) : Evaluation :=
  { e with actions := e.actions ++ dirs.filterMap (rainbowAction rules g positions p modif) }

def evalCell (e : Evaluation) (acting : Pos × UInt8) : Evaluation :=
  let modif := modifier g acting.1
  if acting.2 = aliveCyan then evalCyan rules g positions acting.1 modif e
  else if acting.2 = aliveRed then evalRed rules g positions acting.1 modif e
  else if acting.2 = aliveViol then evalViol rules g positions acting.1 modif e
  else if acting.2 = aliveBlack then evalBlack rules g positions acting.1 modif e
  else if acting.2 = aliveWhite then evalWhite rules g positions acting.1 modif e
  else if acting.2 = aliveBlue then evalBlue rules g positions acting.1 modif e
  else if acting.2 = aliveRainbow then evalRainbow rules g positions acting.1 modif e
  else e

end Rules

/-- The last action for each coordinate. -/
def dedupAliveActions (actions : List AliveAction) : List AliveAction :=
  actions.foldl (fun byPos action => byPos.filter (fun a => a.pos ≠ action.pos) ++ [action]) []

def posLe (p q : Pos) : Bool := decide (p.1 < q.1 ∨ p.1 = q.1 ∧ p.2 ≤ q.2)

/-- Which writes reach the journal, of the clears and of the actions. -/
structure AliveJournal where
  clear : Pos → Bool
  action : Pos → Bool

def applyAction (rules : AliveRules) (journal : AliveJournal) (g : CellGrid) (action : AliveAction) : CellGrid :=
  match action.durability with
  | some durability =>
      g.writeWorldCell rules.toCellDefs action.pos ⟨action.cell, durability⟩ (journal.action action.pos)
  | none => g.setCellTyped rules.toCellDefs action.pos action.cell (journal.action action.pos)

structure AliveState where
  grid : CellGrid
  work : AliveWork
  /-- `CellUpdate` -/
  broadcasts : List Pos

/-- `alive_physics_system`. -/
def alivePhysics (rules : AliveRules) (players : List AlivePlayer) (cellOrder : HashOrder Pos)
    (actionOrder : HashOrder AliveAction) (journal : AliveJournal) (rng : Nat → Nat) (s : AliveState) : AliveState :=
  let positions := playerPositions players
  let (acting, work) := collect positions s.grid cellOrder (seedAliveRegions s.work s.grid)
  let e := acting.foldl (evalCell rules s.grid positions) ⟨[], [], rng⟩
  let actions := actionOrder.arrange (dedupAliveActions e.actions)
  let clears := (e.clears.mergeSort posLe).dedup
  let cleared := clears.foldl (fun g p => g.setCellTyped rules.toCellDefs p emptyCell (journal.clear p)) s.grid
  let grid := actions.foldl (applyAction rules journal) cleared
  let noted := actions.foldl (fun work action => work.noteCell action.pos action.cell)
    { work with active := !acting.isEmpty }
  { grid
    work := clears.foldl (fun work p => work.noteCell p (grid.getCell p)) noted
    broadcasts := s.broadcasts ++ clears ++ actions.map AliveAction.pos }

/-- A cell that acts in this step. -/
structure Acts (s : AliveState) (positions : List Pos) (p : Pos) : Prop where
  valid : s.grid.validCoord p = true
  alive : isAlive (s.grid.getCell p) = true
  active : isActiveFor positions p = true
  known : p ∈ (seedAliveRegions s.work s.grid).cells

/-- What a step may write: a free cell, a cell that acts, and sand above a white one that acts. -/
def MayChange (rules : AliveRules) (s : AliveState) (positions : List Pos) (p : Pos) : Prop :=
  free rules s.grid positions p = true ∨ Acts s positions p ∨
    s.grid.validCoord p = true ∧ rules.isSand (s.grid.getCell p) = true ∧ Acts s positions (shift p (0, 1)) ∧
      s.grid.getCell (shift p (0, 1)) = aliveWhite

/-- Every write that was asked for is to such a cell. -/
structure Writes (P : Pos → Prop) (e : Evaluation) : Prop where
  actions : ∀ a ∈ e.actions, P a.pos
  clears : ∀ q ∈ e.clears, P q

section Rules

variable {rules : AliveRules} {g : CellGrid} {positions : List Pos} {p : Pos} {modif : Int} {e : Evaluation}
  {P : Pos → Prop}

theorem Writes.append {actions : List AliveAction} (h : Writes P e) (hactions : ∀ a ∈ actions, P a.pos)
    (rng : Nat → Nat) : Writes P { e with actions := e.actions ++ actions, rng } := by
  refine ⟨fun a ha => ?_, h.clears⟩
  rcases List.mem_append.mp ha with ha | ha
  · exact h.actions a ha
  · exact hactions a ha

theorem free_of_mem_flood {offsets : List Pos} {cell : UInt8} {durability : UInt32} {a : AliveAction}
    (h : a ∈ flood rules g positions p offsets cell durability) : free rules g positions a.pos = true := by
  obtain ⟨q, hq, rfl⟩ := List.mem_map.mp h
  exact (List.mem_filter.mp hq).2

variable (hfree : ∀ q, free rules g positions q = true → P q)
include hfree

theorem Writes.evalCyan (h : Writes P e) : Writes P (evalCyan rules g positions p modif e) :=
  h.append (fun _ ha => hfree _ (free_of_mem_flood ha)) _

theorem Writes.evalRed (h : Writes P e) : Writes P (evalRed rules g positions p modif e) := by
  rw [Alive.evalRed]
  split
  · exact h.append (fun _ ha => hfree _ (free_of_mem_flood ha)) _
  · exact h

theorem Writes.evalViol (h : Writes P e) : Writes P (evalViol rules g positions p modif e) := by
  rw [Alive.evalViol]
  split
  · exact h.append (fun _ ha => hfree _ (free_of_mem_flood ha)) _
  · exact h

theorem Writes.spawnOpposite (h : Writes P e) (ds : List Pos) :
    Writes P (spawnOpposite rules g positions p modif e ds) := by
  induction ds with
  | nil => exact h
  | cons d ds ih =>
      rw [Alive.spawnOpposite]
      split
      · rename_i hfound
        have hopposite : P (opposite p d) := hfree _ (Bool.and_eq_true_iff.mp hfound).2
        refine h.append (fun a ha => ?_) _
        obtain rfl := List.mem_singleton.mp ha
        split <;> exact hopposite
      · exact ih

theorem Writes.evalBlack (h : Writes P e) (hself : P p) : Writes P (evalBlack rules g positions p modif e) := by
  rw [Alive.evalBlack]
  split
  · refine ⟨fun a ha => ?_, fun q hq => ?_⟩
    · rcases List.mem_append.mp ha with ha | ha
      · exact h.actions a ha
      · obtain rfl := List.mem_singleton.mp ha
        exact hself
    · rcases List.mem_append.mp hq with hq | hq
      · exact h.clears q hq
      · obtain rfl := List.mem_singleton.mp hq
        exact hself
  · split
    · exact h.spawnOpposite hfree dirs
    · exact h

theorem Writes.evalWhite (h : Writes P e)
    (hsand : g.validCoord (shift p (0, -1)) = true → rules.isSand (g.getCell (shift p (0, -1))) = true →
      P (shift p (0, -1))) : Writes P (evalWhite rules g positions p modif e) := by
  rw [Alive.evalWhite]
  dsimp only
  split
  · rename_i habove
    obtain ⟨hvalid, hissand⟩ := Bool.and_eq_true_iff.mp habove
    have hflood : ∀ a ∈ flood rules g positions p square3 whiteCell (strength rules 9 modif), P a.pos :=
      fun _ ha => hfree _ (free_of_mem_flood ha)
    have hflooded := h.append hflood
    split
    · refine (hflooded (rest e.rng)).append (fun a ha => ?_) _
      obtain rfl := List.mem_singleton.mp ha
      exact hsand hvalid hissand
    · exact hflooded _
  · exact h

theorem Writes.moveBlue (h : Writes P e) (hself : P p) (ds : List Pos) :
    Writes P (moveBlue rules g positions p modif e ds) := by
  induction ds generalizing e with
  | nil => exact h
  | cons d ds ih =>
      rw [Alive.moveBlue]
      split
      · rename_i hmoves
        have hnew : P (shift p d) := hfree _ (Bool.and_eq_true_iff.mp hmoves).2
        refine ⟨fun a ha => ?_, fun q hq => ?_⟩
        · rcases List.mem_append.mp ha with ha | ha
          · exact h.actions a ha
          · rcases List.mem_pair.mp ha with rfl | rfl
            · exact hnew
            · exact hself
        · rcases List.mem_append.mp hq with hq | hq
          · exact h.clears q hq
          · obtain rfl := List.mem_singleton.mp hq
            exact hself
      · exact ih ⟨h.actions, h.clears⟩

theorem Writes.evalRainbow (h : Writes P e) : Writes P (evalRainbow rules g positions p modif e) := by
  refine h.append (fun a ha => ?_) _
  obtain ⟨d, -, hd⟩ := List.mem_filterMap.mp ha
  rw [rainbowAction] at hd
  split at hd
  · rename_i hgrows
    dsimp only at hd
    split at hd
    · cases hd
    · obtain rfl := Option.some.inj hd
      exact hfree _ (Bool.and_eq_true_iff.mp hgrows).2
  · cases hd

theorem Writes.evalCell {cell : UInt8} (h : Writes P e) (hself : P p)
    (hsand : cell = aliveWhite → g.validCoord (shift p (0, -1)) = true →
      rules.isSand (g.getCell (shift p (0, -1))) = true → P (shift p (0, -1))) :
    Writes P (evalCell rules g positions e (p, cell)) := by
  rw [Alive.evalCell]
  dsimp only
  split
  · exact h.evalCyan hfree
  split
  · exact h.evalRed hfree
  split
  · exact h.evalViol hfree
  split
  · exact h.evalBlack hfree hself
  split
  · rename_i hwhite
    exact h.evalWhite hfree (hsand hwhite)
  split
  · exact h.moveBlue hfree hself dirs
  split
  · exact h.evalRainbow hfree
  · exact h

end Rules

section Step

variable {rules : AliveRules} {s : AliveState} {g h k : CellGrid} {positions : List Pos} {p q : Pos}
  {journal : AliveJournal}

theorem mem_collectCell {r : List (Pos × UInt8) × AliveWork} {acting : Pos × UInt8}
    (h : acting ∈ (collectCell positions g r q).1) :
    acting ∈ r.1 ∨ acting = (q, g.getCell q) ∧ g.validCoord q = true ∧ isAlive (g.getCell q) = true ∧
      isActiveFor positions q = true := by
  rw [collectCell] at h
  split at h
  · rename_i hvalid
    dsimp only at h
    split at h
    · rename_i hactive
      rcases List.mem_append.mp h with hmem | hmem
      · exact .inl hmem
      · exact .inr ⟨List.mem_singleton.mp hmem, hvalid, Bool.and_eq_true_iff.mp hactive⟩
    · exact .inl h
  · exact .inl h

theorem mem_collect {order : HashOrder Pos} {work : AliveWork} {acting : Pos × UInt8}
    (h : acting ∈ (collect positions g order work).1) :
    ∃ q ∈ work.cells, acting = (q, g.getCell q) ∧ g.validCoord q = true ∧ isAlive (g.getCell q) = true ∧
      isActiveFor positions q = true := by
  have hcollected : ∀ x ∈ ((order.arrange work.cells).foldl (collectCell positions g) ([], work)).1,
      ∃ q ∈ work.cells, x = (q, g.getCell q) ∧ g.validCoord q = true ∧ isAlive (g.getCell q) = true ∧
        isActiveFor positions q = true := by
    refine List.foldlRecOn (motive := fun r : List (Pos × UInt8) × AliveWork => ∀ x ∈ r.1, ∃ q ∈ work.cells,
        x = (q, g.getCell q) ∧ g.validCoord q = true ∧ isAlive (g.getCell q) = true ∧ isActiveFor positions q = true)
      _ _ (fun _ hx => nomatch hx) fun r hr q hq x hx => ?_
    rcases mem_collectCell hx with hmem | hacts
    · exact hr x hmem
    · exact ⟨q, (order.perm work.cells).mem_iff.mp hq, hacts⟩
  exact hcollected acting h

theorem mem_dedupAliveActions {actions : List AliveAction} :
    ∀ a ∈ dedupAliveActions actions, a ∈ actions := by
  refine List.foldlRecOn (motive := fun byPos : List AliveAction => ∀ a ∈ byPos, a ∈ actions)
    _ _ (fun _ ha => nomatch ha) fun byPos hbyPos b hb a ha => ?_
  rcases List.mem_append.mp ha with hmem | hmem
  · exact hbyPos a (List.mem_filter.mp hmem).1
  · exact List.mem_singleton.mp hmem ▸ hb

/-- Nothing differs at a coordinate. -/
structure Unchanged (g h : CellGrid) (p : Pos) : Prop where
  cell : h.getCell p = g.getCell p
  durability : h.getDurability p = g.getDurability p
  layers : h.foreground p = g.foreground p ∧ h.road p = g.road p

theorem Unchanged.trans (hgh : Unchanged g h p) (hhk : Unchanged h k p) : Unchanged g k p :=
  ⟨hhk.cell.trans hgh.cell, hhk.durability.trans hgh.durability, hhk.layers.1.trans hgh.layers.1,
    hhk.layers.2.trans hgh.layers.2⟩

theorem unchanged_writeWorldCell (defs : CellDefs) (g : CellGrid) (cell : WorldCell) (ok : Bool) (hne : p ≠ q) :
    Unchanged g (g.writeWorldCell defs q cell ok) p := by
  obtain ⟨hcell, hdurability⟩ := writeWorldCell_of_ne defs g cell ok hne
  refine ⟨hcell, hdurability, ?_⟩
  rw [writeWorldCell]
  split
  · split
    · exact ⟨Function.update_of_ne hne _ _, Function.update_of_ne hne _ _⟩
    · refine ⟨Function.update_of_ne hne _ _, Function.update_of_ne hne _ _⟩
  · exact ⟨rfl, rfl⟩

theorem unchanged_applyAction {action : AliveAction} (hne : p ≠ action.pos) :
    Unchanged g (applyAction rules journal g action) p := by
  rw [applyAction]
  split
  · exact unchanged_writeWorldCell _ _ _ _ hne
  · exact unchanged_writeWorldCell _ _ _ _ hne

/-- Writes elsewhere, one after the other. -/
theorem unchanged_foldl {α : Type} {write : CellGrid → α → CellGrid} {l : List α}
    (hwrite : ∀ a ∈ l, ∀ g, Unchanged g (write g a) p) (g : CellGrid) : Unchanged g (l.foldl write g) p := by
  induction l generalizing g with
  | nil => exact ⟨rfl, rfl, rfl, rfl⟩
  | cons a l ih =>
      exact (hwrite a List.mem_cons_self g).trans (ih (fun b hb => hwrite b (List.mem_cons_of_mem _ hb)) _)

/-- The cells ask for no write but these, whatever the order and the random numbers. -/
theorem writes_evaluation (cellOrder : HashOrder Pos) (rng : Nat → Nat) :
    Writes (MayChange rules s positions)
      ((collect positions s.grid cellOrder (seedAliveRegions s.work s.grid)).1.foldl (evalCell rules s.grid positions)
        ⟨[], [], rng⟩) := by
  refine List.foldlRecOn _ _ ⟨fun _ ha => absurd ha List.not_mem_nil, fun _ hq => absurd hq List.not_mem_nil⟩
    fun e he acting hacting => ?_
  obtain ⟨p, hknown, rfl, hvalid, halive, hactive⟩ := mem_collect hacting
  have hacts : Acts s positions p := ⟨hvalid, halive, hactive, hknown⟩
  refine he.evalCell (fun q hq => .inl hq) (.inr (.inl hacts)) fun hwhite habove hsand => .inr (.inr ?_)
  have hbelow : shift (shift p (0, -1)) (0, 1) = p := by
    refine Prod.ext ?_ ?_ <;> simp [shift]
  rw [hbelow]
  exact ⟨habove, hsand, hacts, hwhite⟩

/-- A step of the alive cells changes nothing but free cells, cells that act, and sand above white ones. -/
theorem alivePhysics_frame (rules : AliveRules) (players : List AlivePlayer) (cellOrder : HashOrder Pos)
    (actionOrder : HashOrder AliveAction) (journal : AliveJournal) (rng : Nat → Nat) (s : AliveState) (p : Pos) :
    MayChange rules s (playerPositions players) p ∨
      Unchanged s.grid (alivePhysics rules players cellOrder actionOrder journal rng s).grid p := by
  by_cases hmay : MayChange rules s (playerPositions players) p
  · exact .inl hmay
  · right
    have hwrites : Writes (MayChange rules s (playerPositions players)) _ := writes_evaluation cellOrder rng
    refine (unchanged_foldl (fun q hq g => ?_) s.grid).trans (unchanged_foldl (fun a ha g => ?_) _)
    · refine unchanged_writeWorldCell _ _ _ _ fun heq => hmay ?_
      exact heq ▸ hwrites.clears q (List.mem_mergeSort.mp (List.mem_dedup.mp hq))
    · refine unchanged_applyAction fun heq => hmay ?_
      exact heq ▸ hwrites.actions a (mem_dedupAliveActions a ((actionOrder.perm _).mem_iff.mp ha))

end Step

end OpenMines.Alive

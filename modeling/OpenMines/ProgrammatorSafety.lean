import OpenMines.ProgrammatorParses
import OpenMines.ProgrammatorSystem

namespace OpenMines

open Lib.CheckedInt

variable (prog : ProgrammatorState) (ctx : ProgrammatorContext)

section Conditions

namespace ProgrammatorState

/-- The offset that a program looks at, whatever its size. -/
def offset : Int × Int :=
  match prog.function.filter (fun f => f.startoffset ≠ (0, 0)) with
  | some f => (f.startoffset.1.toInt, f.startoffset.2.toInt)
  | none => (prog.shiftX.toInt + prog.checkX.toInt, prog.shiftY.toInt + prog.checkY.toInt)

def OffsetSafe : Prop := FitsI32 prog.offset.1 ∧ FitsI32 prog.offset.2

def lookedAt (pos : PlayerPosition) : Pos :=
  if prog.flipState then (pos.x.toInt - prog.offset.1, pos.y.toInt - prog.offset.2)
  else (pos.x.toInt + prog.offset.1, pos.y.toInt + prog.offset.2)

def LooksSafe (pos : PlayerPosition) : Prop :=
  prog.OffsetSafe ∧ FitsI32 (prog.lookedAt pos).1 ∧ FitsI32 (prog.lookedAt pos).2

/-- The sum of the two offsets, where a call or a return hands it on. -/
def HandSafe : Prop :=
  FitsI32 (prog.shiftX.toInt + prog.checkX.toInt) ∧ FitsI32 (prog.shiftY.toInt + prog.checkY.toInt)

end ProgrammatorState

/-- The definitions list the type of the cell. -/
def ProgrammatorGrid.Known (w : ProgrammatorGrid) (p : Pos) : Prop := (w.grid.getCell p).toNat < cellTypeCount

namespace ProgrammatorContext

def besides (offset : Int32 × Int32) : Pos := (ctx.pos.x.toInt + offset.1.toInt, ctx.pos.y.toInt + offset.2.toInt)

def BesideSafe (offset : Int32 × Int32) : Prop := FitsI32 (ctx.besides offset).1 ∧ FitsI32 (ctx.besides offset).2

def Crystal (offset : Int32 × Int32) : Prop := CellType.isCrystal (ctx.world.grid.getCell (ctx.besides offset)) = true

/-- Every direction up to the first with a crystal can be looked at. -/
def ScanSafe : List (Int32 × Int32 × Int32) → Prop
  | [] => True
  | (_, offset) :: rest => ctx.BesideSafe offset ∧ (ctx.Crystal offset ∨ ScanSafe rest)

end ProgrammatorContext

/-- What a value of the server's own needs to be computed. -/
def ReadonlySafe (label : String) : Prop :=
  match asciiUppercase label with
  | "CEL" => prog.LooksSafe ctx.pos
  | "LOA" => SumFits 0 ctx.crystals.toList
  | "AX" => prog.OffsetSafe ∧ prog.offset.1 ≠ -2147483648
  | "AY" => prog.OffsetSafe ∧ prog.offset.2 ≠ -2147483648
  | "DX" => prog.OffsetSafe ∧ FitsI32 (100 + prog.offset.1)
  | "DY" => prog.OffsetSafe ∧ FitsI32 (100 + prog.offset.2)
  | _ => True

/-- The least number is not divided by minus one. -/
def QuotientSafe (current num : Int32) : Prop := ¬ (current = .minValue ∧ num = -1)

def CommandSafe (key : String) (num : Int32) : Prop :=
  ∀ name current, prog.lastVariables.younger = some name → prog.userVariables.lookup name = some current →
    key = "DIV" ∨ key = "MOD" → QuotientSafe current num

def PairSafe (key : String) : Prop :=
  ∀ youngerName olderName, prog.lastVariables.younger = some youngerName →
    prog.lastVariables.older = some olderName →
    (prog.userVariables.lookup youngerName = none → ReadonlySafe prog ctx youngerName) ∧
      ∀ younger looked older, commandVariableValue prog ctx youngerName = some (some younger, looked) →
        prog.userVariables.lookup olderName = some older → key = "DI2" → QuotientSafe older younger

def WritableSafe (label : String) (num : Int32) : Prop :=
  let key := asciiUppercase label
  if key ∈ commandKeys then CommandSafe prog key num
  else if key ∈ pairKeys then PairSafe prog ctx key
  else ReadonlySafe prog ctx label

/-- The condition on an action in the state in which it runs. -/
def ActionSafe (action : PAction) : Prop :=
  match action.actionType with
  | .moveDown => ctx.BesideSafe (0, 1)
  | .moveUp => ctx.BesideSafe (0, -1)
  | .moveRight => ctx.BesideSafe (1, 0)
  | .moveLeft => ctx.BesideSafe (-1, 0)
  | .moveForward | .macrosGun => ctx.BesideSafe (dirOffset ctx.pos.dir)
  | .macrosDig => ctx.BesideSafe (dirOffset ctx.pos.dir) ∧ ctx.world.Known (ctx.besides (dirOffset ctx.pos.dir))
  | .macrosMine =>
      (prog.macrosTemplate.isSome → ctx.BesideSafe (dirOffset ctx.pos.dir)) ∧
        (prog.macrosTemplate.isSome ∧ ctx.Crystal (dirOffset ctx.pos.dir) ∨ ctx.ScanSafe dirz)
  | .macrosDigAround =>
      FitsI32 (ctx.pos.dir.toInt + 3) ∧ FitsI32 (ctx.pos.dir.toInt + 1) ∧
        ctx.ScanSafe ([(ctx.pos.dir + 3) % 4, (ctx.pos.dir + 1) % 4, ctx.pos.dir].map (fun dir => (dir, dirOffset dir)))
  | .shiftUp => FitsI32 (prog.shiftY.toInt - 1)
  | .shiftDown => FitsI32 (prog.shiftY.toInt + 1)
  | .shiftRight => FitsI32 (prog.shiftX.toInt + 1)
  | .shiftLeft => FitsI32 (prog.shiftX.toInt - 1)
  | .shiftForward =>
      FitsI32 (prog.shiftX.toInt + (byDir ctx 0 (-1) 0 1).toInt) ∧
        FitsI32 (prog.shiftY.toInt + (byDir ctx (-1) 0 1 0).toInt)
  | .isEmpty | .isNotEmpty | .isBoulder | .isSand | .isBreakableRock | .isUnbreakable | .isFalling =>
      prog.LooksSafe ctx.pos ∧ ctx.world.Known (prog.lookedAt ctx.pos)
  | .isCrystal | .isRoad | .isBox | .isGreenBlock | .isYellowBlock | .isRedBlock | .isPillar | .isQuadBlock
  | .isRedRock | .isBlackRock | .isAcid | .isSlime | .isInGun | .isLivingCrystal => prog.LooksSafe ctx.pos
  | .writableState | .writableStateLower | .writableStateMore =>
      asciiUppercase action.label = "DEL" ∨ WritableSafe prog ctx action.label action.num
  | .runFunction | .runState => action.label ∈ prog.currentProg → prog.HandSafe
  | .returnState => (prog.function.bind PFunction.calledFrom).isSome → prog.HandSafe
  | _ => True

/-- The condition on the action that a due entry comes to. -/
def DueSafe (dueAt : Nat) : Prop :=
  prog.isDue ctx dueAt → ∀ f action, prog.function = some f → f.actions[f.current]? = some action →
    ActionSafe prog.fetched ctx action

end Conditions

section Looks

variable {prog ctx}

namespace ProgrammatorState

theorem selectedOffset_eq_some {sx sy : Int32} :
    prog.selectedOffset = some (sx, sy) ↔ sx.toInt = prog.offset.1 ∧ sy.toInt = prog.offset.2 := by
  rw [selectedOffset, offset]
  cases prog.function.filter (fun f => f.startoffset ≠ (0, 0)) with
  | some f =>
      rw [Option.some_inj, Prod.ext_iff, ← Int32.toInt_inj, ← Int32.toInt_inj]
      exact and_congr eq_comm eq_comm
  | none => exact pair_eq_some

theorem isSome_selectedOffset : prog.selectedOffset.isSome ↔ prog.OffsetSafe := by
  rw [OffsetSafe, ← exists_pair_iff, Option.isSome_iff_exists, Prod.exists]
  exact exists_congr fun _ => exists_congr fun _ => selectedOffset_eq_some

theorem selectedWorldPos_eq_some {pos : PlayerPosition} {x y : Int32} :
    prog.selectedWorldPos pos = some (x, y) ↔
      prog.OffsetSafe ∧ x.toInt = (prog.lookedAt pos).1 ∧ y.toInt = (prog.lookedAt pos).2 := by
  rw [selectedWorldPos, Option.bind_eq_bind, Option.bind_eq_some_iff, Prod.exists, lookedAt]
  constructor
  · rintro ⟨sx, sy, hs, h⟩
    refine ⟨isSome_selectedOffset.mp (Option.isSome_of_eq_some hs), ?_⟩
    obtain ⟨hx, hy⟩ := selectedOffset_eq_some.mp hs
    rw [← hx, ← hy]
    cases hflip : prog.flipState with
    | true =>
        rw [hflip] at h
        exact pair_eq_some.mp h
    | false =>
        rw [hflip] at h
        exact pair_eq_some.mp h
  · rintro ⟨hsafe, h⟩
    obtain ⟨⟨sx, sy⟩, hs⟩ := Option.isSome_iff_exists.mp (isSome_selectedOffset.mpr hsafe)
    refine ⟨sx, sy, hs, ?_⟩
    obtain ⟨hx, hy⟩ := selectedOffset_eq_some.mp hs
    rw [← hx, ← hy] at h
    cases hflip : prog.flipState with
    | true =>
        rw [hflip] at h
        exact pair_eq_some.mpr h
    | false =>
        rw [hflip] at h
        exact pair_eq_some.mpr h

theorem isSome_selectedWorldPos {pos : PlayerPosition} : (prog.selectedWorldPos pos).isSome ↔ prog.LooksSafe pos := by
  rw [LooksSafe, ← exists_pair_iff, Option.isSome_iff_exists, Prod.exists]
  constructor
  · rintro ⟨x, y, h⟩
    exact ⟨(selectedWorldPos_eq_some.mp h).1, x, y, (selectedWorldPos_eq_some.mp h).2⟩
  · rintro ⟨hsafe, x, y, h⟩
    exact ⟨x, y, selectedWorldPos_eq_some.mpr ⟨hsafe, h⟩⟩

theorem isSome_checkCell (pos : PlayerPosition) (predicate : Int32 → Int32 → Checked Bool) (P : Pos → Prop)
    (h : ∀ x y : Int32, (predicate x y).isSome ↔ P (x.toInt, y.toInt)) :
    (prog.checkCell pos predicate).isSome ↔ prog.LooksSafe pos ∧ P (prog.lookedAt pos) := by
  rw [checkCell, Option.bind_eq_bind, isSome_bind_iff, ← isSome_selectedWorldPos, Option.isSome_iff_exists]
  constructor
  · rintro ⟨⟨x, y⟩, hpos, hcheck⟩
    obtain ⟨-, hx, hy⟩ := selectedWorldPos_eq_some.mp hpos
    obtain ⟨result, hresult, -⟩ := isSome_bind_iff.mp hcheck
    refine ⟨⟨_, hpos⟩, ?_⟩
    rw [← Prod.mk.eta (p := prog.lookedAt pos), ← hx, ← hy, ← h, hresult]
    rfl
  · rintro ⟨⟨⟨x, y⟩, hpos⟩, hp⟩
    obtain ⟨-, hx, hy⟩ := selectedWorldPos_eq_some.mp hpos
    rw [← Prod.mk.eta (p := prog.lookedAt pos), ← hx, ← hy, ← h] at hp
    obtain ⟨result, hresult⟩ := Option.isSome_iff_exists.mp hp
    refine ⟨(x, y), hpos, ?_⟩
    simp [hresult]

end ProgrammatorState

theorem isSome_cellIs {predicate : UInt8 → Bool} : (cellIs prog ctx predicate).isSome ↔ prog.LooksSafe ctx.pos := by
  have h := prog.isSome_checkCell ctx.pos (fun x y => some (predicate (ctx.world.getCell x y))) (fun _ => True) (by simp)
  rw [and_true] at h
  rw [cellIs, ← h]
  cases prog.checkCell ctx.pos _ <;> simp

theorem isSome_roadIs : (roadIs prog ctx).isSome ↔ prog.LooksSafe ctx.pos := by
  have h := prog.isSome_checkCell ctx.pos (fun x y => some (ctx.world.getRoadCell x y != 0)) (fun _ => True) (by simp)
  rw [and_true] at h
  rw [roadIs, ← h]
  cases prog.checkCell ctx.pos _ <;> simp

theorem isSome_cellDefIs {predicate : ProgrammatorCell → Bool} :
    (cellDefIs prog ctx predicate).isSome ↔ prog.LooksSafe ctx.pos ∧ ctx.world.Known (prog.lookedAt ctx.pos) := by
  rw [cellDefIs, ← prog.isSome_checkCell ctx.pos
    (fun x y => (ctx.world.getTyped (ctx.world.getCell x y)).map predicate) ctx.world.Known
    (fun x y => by rw [Option.isSome_map, ctx.world.isSome_getTyped]; rfl)]
  cases prog.checkCell ctx.pos _ <;> simp

end Looks

section Moves

variable {prog ctx}

theorem isSome_movePause (ctx : ProgrammatorContext) : ctx.movePause.isSome := by
  have h := ctx.pauseUnits_le
  have hroad : ctx.pauseUnits * 56 ≤ usizeMax := by
    rw [usizeMax]
    omega
  have hoff : ctx.pauseUnits * 7 ≤ usizeMax := by omega
  rw [ProgrammatorContext.movePause, speedPause]
  split <;> simp [usize, hroad, hoff]

theorem beside_eq_some {offset : Int32 × Int32} {x y : Int32} :
    ctx.beside offset = some (x, y) ↔ x.toInt = (ctx.besides offset).1 ∧ y.toInt = (ctx.besides offset).2 :=
  pair_eq_some

theorem isSome_beside {offset : Int32 × Int32} : (ctx.beside offset).isSome ↔ ctx.BesideSafe offset := by
  rw [ProgrammatorContext.BesideSafe, ← exists_pair_iff, Option.isSome_iff_exists, Prod.exists]
  exact exists_congr fun _ => exists_congr fun _ => beside_eq_some

theorem getCell_of_beside {offset : Int32 × Int32} {x y : Int32} (h : ctx.beside offset = some (x, y)) :
    ctx.world.getCell x y = ctx.world.grid.getCell (ctx.besides offset) := by
  obtain ⟨hx, hy⟩ := beside_eq_some.mp h
  rw [ProgrammatorGrid.getCell, hx, hy]

theorem isSome_moveBy {offset : Int32 × Int32} : (moveBy prog ctx offset).isSome ↔ ctx.BesideSafe offset := by
  obtain ⟨delay, hdelay⟩ := Option.isSome_iff_exists.mp (isSome_movePause ctx)
  rw [moveBy, hdelay, ← isSome_beside]
  cases ctx.beside offset <;> simp

theorem isSome_turnTo (dir : Int32) : (turnTo prog ctx dir).isSome := by
  obtain ⟨delay, hdelay⟩ := Option.isSome_iff_exists.mp (isSome_movePause ctx)
  rw [turnTo, hdelay]
  rfl

theorem isSome_shiftBy {offset : Int32 × Int32} : (shiftBy prog offset).isSome ↔
    FitsI32 (prog.shiftX.toInt + offset.1.toInt) ∧ FitsI32 (prog.shiftY.toInt + offset.2.toInt) := by
  rw [← isSome_addI32, ← isSome_addI32, shiftBy]
  cases addI32 prog.shiftX offset.1 <;> cases addI32 prog.shiftY offset.2 <;> simp

theorem isSome_digToward (after : ProgrammatorState) (dir : Int32) : (digToward prog ctx after dir).isSome := by
  obtain ⟨delay, hdelay⟩ := Option.isSome_iff_exists.mp (isSome_movePause ctx)
  rw [digToward, hdelay]
  split <;> rfl

theorem isSome_findCrystal {dirs : List (Int32 × Int32 × Int32)} :
    (findCrystal ctx dirs).isSome ↔ ctx.ScanSafe dirs := by
  induction dirs with
  | nil => exact iff_of_true rfl trivial
  | cons d rest ih =>
      obtain ⟨dir, offset⟩ := d
      rw [findCrystal, ProgrammatorContext.ScanSafe, ← isSome_beside, ← ih]
      cases hbeside : ctx.beside offset with
      | none => simp
      | some p =>
          rw [ProgrammatorContext.Crystal, ← getCell_of_beside hbeside]
          by_cases hcrystal : CellType.isCrystal (ctx.world.getCell p.1 p.2) = true <;> simp [hcrystal]

theorem findCrystal_singleton {dir : Int32} {offset : Int32 × Int32} {found : Option Int32}
    (h : findCrystal ctx [(dir, offset)] = some found) : found.isSome ↔ ctx.Crystal offset := by
  rw [findCrystal] at h
  obtain ⟨⟨x, y⟩, hbeside, h⟩ := Option.bind_eq_some_iff.mp h
  rw [ProgrammatorContext.Crystal, ← getCell_of_beside hbeside]
  by_cases hcrystal : CellType.isCrystal (ctx.world.getCell x y) = true
  · simp only [hcrystal, if_true] at h
    cases h
    simp [hcrystal]
  · simp only [hcrystal] at h
    cases h
    simp [hcrystal]

theorem isSome_macrosDig : (macrosDig prog ctx).isSome ↔
    ctx.BesideSafe (dirOffset ctx.pos.dir) ∧ ctx.world.Known (ctx.besides (dirOffset ctx.pos.dir)) := by
  rw [macrosDig, ← isSome_beside, ProgrammatorGrid.Known]
  cases hbeside : ctx.beside (dirOffset ctx.pos.dir) with
  | none => simp
  | some p =>
      obtain ⟨x, y⟩ := p
      rw [← getCell_of_beside hbeside, ← ctx.world.isSome_getTyped]
      cases hcell : ctx.world.getTyped (ctx.world.getCell x y) with
      | none => simp [hcell]
      | some cell => by_cases hdig : cell.isDiggable = true <;> simp [hcell, hdig]

theorem isSome_macrosGun : (macrosGun prog ctx).isSome ↔ ctx.BesideSafe (dirOffset ctx.pos.dir) := by
  rw [macrosGun, ← isSome_beside]
  cases ctx.beside (dirOffset ctx.pos.dir) <;> simp

theorem isSome_mineAround : (mineAround prog ctx).isSome ↔ ctx.ScanSafe dirz := by
  rw [mineAround, ← isSome_findCrystal]
  match findCrystal ctx dirz with
  | none => simp
  | some none => simp
  | some (some dir) => simp [isSome_digToward]

theorem isSome_macrosMine : (macrosMine prog ctx).isSome ↔
    (prog.macrosTemplate.isSome → ctx.BesideSafe (dirOffset ctx.pos.dir)) ∧
      (prog.macrosTemplate.isSome ∧ ctx.Crystal (dirOffset ctx.pos.dir) ∨ ctx.ScanSafe dirz) := by
  rw [macrosMine]
  by_cases htemplate : prog.macrosTemplate.isSome = true
  · simp only [htemplate, if_true, true_imp_iff, true_and]
    have hsafe : ctx.BesideSafe (dirOffset ctx.pos.dir) ↔
        (findCrystal ctx [(ctx.pos.dir, dirOffset ctx.pos.dir)]).isSome := by
      rw [isSome_findCrystal]
      exact (and_iff_left (Or.inr trivial)).symm
    rw [hsafe]
    cases hahead : findCrystal ctx [(ctx.pos.dir, dirOffset ctx.pos.dir)] with
    | none => simp
    | some ahead =>
        rw [← findCrystal_singleton hahead]
        cases ahead with
        | none => simp [isSome_mineAround]
        | some dir => simp
  · simp [htemplate, isSome_mineAround]

theorem isSome_macrosDigAround : (macrosDigAround prog ctx).isSome ↔
    FitsI32 (ctx.pos.dir.toInt + 3) ∧ FitsI32 (ctx.pos.dir.toInt + 1) ∧
      ctx.ScanSafe ([(ctx.pos.dir + 3) % 4, (ctx.pos.dir + 1) % 4, ctx.pos.dir].map (fun dir => (dir, dirOffset dir))) := by
  have hrem (d : Int32) : remI32 d 4 = some (d % 4) := if_pos ⟨by decide, fun h => absurd h.2 (by decide)⟩
  rw [macrosDigAround, ← isSome_findCrystal]
  by_cases hleft : FitsI32 (ctx.pos.dir.toInt + 3)
  · rw [addI32_eq_some_add (b := 3) hleft]
    by_cases hright : FitsI32 (ctx.pos.dir.toInt + 1)
    · rw [addI32_eq_some_add (b := 1) hright]
      simp only [Option.bind_eq_bind, Option.bind_some, hrem, hleft, hright, true_and]
      match findCrystal ctx _ with
      | none => simp
      | some none => simp
      | some (some dir) => simp [isSome_digToward]
    · have hnone : addI32 ctx.pos.dir 1 = none := if_neg hright
      simp [hnone, hrem, hright]
  · have hnone : addI32 ctx.pos.dir 3 = none := if_neg hleft
    simp [hnone, hleft]

end Moves

section Variables

variable {prog ctx}

theorem isSome_absI32 {a : Int32} : (absI32 a).isSome ↔ a.toInt ≠ -2147483648 := by
  have hfits := fitsI32_toInt a
  rw [absI32, isSome_i32]
  rw [FitsI32] at *
  omega

/-- A value that is computed from the offset. -/
theorem isSome_ofOffset {f : Int32 × Int32 → Checked Int32} {P : Prop}
    (h : ∀ s, prog.selectedOffset = some s → ((f s).isSome ↔ P)) :
    (prog.selectedOffset.bind fun s => (f s).bind fun n => some (some n, prog)).isSome ↔ prog.OffsetSafe ∧ P := by
  rw [← ProgrammatorState.isSome_selectedOffset]
  cases hs : prog.selectedOffset with
  | none => simp
  | some s =>
      rw [← h s hs]
      cases hn : f s <;> simp [hn]

theorem isSome_readonlyProgrammatorValue {label : String} :
    (readonlyProgrammatorValue prog ctx label).isSome ↔ ReadonlySafe prog ctx label := by
  rw [readonlyProgrammatorValue, ReadonlySafe]
  generalize asciiUppercase label = key
  cases hcrystal : programmatorCrystals.lookup key with
  | some found =>
      exact iff_of_true rfl (by split <;> trivial)
  | none =>
      simp only
      split
      all_goals try exact iff_of_true rfl trivial
      case h_9 =>
        change _ ↔ prog.LooksSafe ctx.pos
        rw [← ProgrammatorState.isSome_selectedWorldPos]
        cases prog.selectedWorldPos ctx.pos <;> simp
      case h_11 =>
        refine iff_of_true ?_ trivial
        split
        · rfl
        · rename_i hmax
          have hsafe : DivSafe (clampI32 (ctx.health.toInt * 100)) ctx.maxHealth := by
            refine ⟨?_, fun h => ?_⟩
            · rintro h
              rw [h] at hmax
              exact hmax (by decide)
            · rw [h.2] at hmax
              exact hmax (by decide)
          rw [divI32, if_pos hsafe]
          rfl
      case h_15 =>
        change _ ↔ SumFits 0 ctx.crystals.toList
        have hsum : (sumI64 0 ctx.crystals.toList).isSome ↔ SumFits 0 ctx.crystals.toList := isSome_sumI64
        rw [← hsum, loadPercent]
        cases sumI64 0 ctx.crystals.toList <;> simp
      case h_19 =>
        exact isSome_ofOffset fun s hs => by rw [isSome_absI32, (ProgrammatorState.selectedOffset_eq_some.mp hs).1]
      case h_20 =>
        exact isSome_ofOffset fun s hs => by rw [isSome_absI32, (ProgrammatorState.selectedOffset_eq_some.mp hs).2]
      case h_21 =>
        exact isSome_ofOffset fun s hs => by
          rw [isSome_addI32, (ProgrammatorState.selectedOffset_eq_some.mp hs).1]
          rfl
      case h_22 =>
        exact isSome_ofOffset fun s hs => by
          rw [isSome_addI32, (ProgrammatorState.selectedOffset_eq_some.mp hs).2]
          rfl
      case h_23 =>
        refine iff_of_true rfl ?_
        split <;> trivial

/-- A look changes what is looked at, and no variable. -/
theorem userVariables_of_readonly {label : String} {value : Option Int32} {looked : ProgrammatorState}
    (h : readonlyProgrammatorValue prog ctx label = some (value, looked)) :
    looked.userVariables = prog.userVariables := by
  rw [readonlyProgrammatorValue] at h
  generalize asciiUppercase label = key at h
  cases hcrystal : programmatorCrystals.lookup key with
  | some found =>
      rw [hcrystal] at h
      cases h
      rfl
  | none =>
      rw [hcrystal] at h
      simp only at h
      split at h
      case h_11 =>
        split at h
        · cases h
          rfl
        · obtain ⟨percent, -, h⟩ := Option.bind_eq_some_iff.mp h
          cases h
          rfl
      all_goals simp only [Option.bind_eq_bind, Option.bind_eq_some_iff, Option.pure_def, Option.some.injEq,
        Prod.mk.injEq] at h
      all_goals grind [ProgrammatorState.resetViewOffsets]

theorem isSome_commandVariableValue {name : String} : (commandVariableValue prog ctx name).isSome ↔
    (prog.userVariables.lookup name = none → ReadonlySafe prog ctx name) := by
  rw [commandVariableValue, ← isSome_readonlyProgrammatorValue]
  cases prog.userVariables.lookup name <;> simp

theorem userVariables_of_commandVariable {name : String} {value : Option Int32} {looked : ProgrammatorState}
    (h : commandVariableValue prog ctx name = some (value, looked)) : looked.userVariables = prog.userVariables := by
  rw [commandVariableValue] at h
  cases hvalue : prog.userVariables.lookup name with
  | some v =>
      rw [hvalue] at h
      cases h
      rfl
  | none =>
      rw [hvalue] at h
      exact userVariables_of_readonly h

theorem isSome_divI32_jsDivisor {current num : Int32} : (divI32 current (jsDivisor num)).isSome ↔ QuotientSafe current num := by
  rw [isSome_divI32, DivSafe, QuotientSafe, jsDivisor]
  by_cases hnum : num = 0
  · subst hnum
    rw [if_pos rfl]
    exact iff_of_true ⟨by decide, fun h => absurd h.2 (by decide)⟩ fun h => absurd h.2 (by decide)
  · rw [if_neg hnum]
    exact and_iff_right hnum

theorem isSome_commandResult {key : String} {current num : Int32} (hkey : key ∈ commandKeys) :
    (commandResult key current num).isSome ↔ (key = "DIV" ∨ key = "MOD" → QuotientSafe current num) := by
  have hkeys : key = "SET" ∨ key = "ADD" ∨ key = "MUL" ∨ key = "DIV" ∨ key = "SUB" ∨ key = "MOD" := by
    simpa [commandKeys] using hkey
  rcases hkeys with rfl | rfl | rfl | rfl | rfl | rfl
  · exact iff_of_true rfl nofun
  · exact iff_of_true rfl nofun
  · exact iff_of_true rfl nofun
  · rw [← isSome_divI32_jsDivisor]
    cases hdiv : divI32 current (jsDivisor num) <;> simp [commandResult, hdiv]
  · exact iff_of_true rfl nofun
  · by_cases hnum : num = 0
    · subst hnum
      exact iff_of_true rfl fun _ h => absurd h.2 (by decide)
    · have hrem : (remI32 current num).isSome ↔ QuotientSafe current num := isSome_remI32.trans (and_iff_right hnum)
      rw [← hrem]
      cases hdiv : remI32 current num <;> simp [commandResult, hnum, hdiv]

theorem isSome_pairResult {key : String} {older younger : Int32} (hkey : key ∈ pairKeys) :
    (pairResult key older younger).isSome ↔ (key = "DI2" → QuotientSafe older younger) := by
  have hkeys : key = "AD2" ∨ key = "MU2" ∨ key = "DI2" ∨ key = "SU2" := by
    simpa [pairKeys] using hkey
  rcases hkeys with rfl | rfl | rfl | rfl
  · exact iff_of_true rfl nofun
  · exact iff_of_true rfl nofun
  · exact isSome_divI32_jsDivisor.trans (true_imp_iff.symm.trans (by simp))
  · exact iff_of_true rfl nofun

theorem isSome_command {label : String} {num : Int32} (hkey : asciiUppercase label ∈ commandKeys) :
    (runProgrammatorCommand prog ctx label num).isSome ↔ CommandSafe prog (asciiUppercase label) num := by
  rw [runProgrammatorCommand, if_pos hkey]
  cases hyounger : prog.lastVariables.younger with
  | none => exact iff_of_true rfl fun name current h => by cases hyounger.symm.trans h
  | some name =>
      cases hcurrent : prog.userVariables.lookup name with
      | none =>
          refine iff_of_true (by simp [hcurrent]) fun other current hname hother => ?_
          cases hyounger.symm.trans hname
          cases hcurrent.symm.trans hother
      | some current =>
          have hsafe : CommandSafe prog (asciiUppercase label) num ↔
              (commandResult (asciiUppercase label) current num).isSome := by
            rw [isSome_commandResult hkey]
            refine ⟨fun h => h name current hyounger hcurrent, fun h other value hname hother => ?_⟩
            cases hyounger.symm.trans hname
            cases hcurrent.symm.trans hother
            exact h
          rw [hsafe]
          match hresult : commandResult (asciiUppercase label) current num with
          | none => simp [hcurrent, hresult]
          | some none => simp [hcurrent, hresult]
          | some (some next) => simp [hcurrent, hresult]

theorem isSome_pair {label : String} {num : Int32} (hcommand : asciiUppercase label ∉ commandKeys)
    (hkey : asciiUppercase label ∈ pairKeys) :
    (runProgrammatorCommand prog ctx label num).isSome ↔ PairSafe prog ctx (asciiUppercase label) := by
  rw [runProgrammatorCommand, if_neg hcommand, if_pos hkey]
  cases hyounger : prog.lastVariables.younger with
  | none => exact iff_of_true rfl fun youngerName olderName h => by cases hyounger.symm.trans h
  | some youngerName =>
      cases holder : prog.lastVariables.older with
      | none => exact iff_of_true rfl fun younger olderName _ h => by cases holder.symm.trans h
      | some olderName =>
          have hsafe : PairSafe prog ctx (asciiUppercase label) ↔
              (commandVariableValue prog ctx youngerName).isSome ∧
                ∀ younger looked older, commandVariableValue prog ctx youngerName = some (some younger, looked) →
                  prog.userVariables.lookup olderName = some older →
                    (pairResult (asciiUppercase label) older younger).isSome := by
            simp only [isSome_commandVariableValue, isSome_pairResult hkey]
            refine ⟨fun h => h youngerName olderName hyounger holder, fun h name other hname hother => ?_⟩
            cases hyounger.symm.trans hname
            cases holder.symm.trans hother
            exact h
          rw [hsafe]
          cases hvalue : commandVariableValue prog ctx youngerName with
          | none => simp [hvalue]
          | some found =>
              obtain ⟨value, looked⟩ := found
              have hvariables := userVariables_of_commandVariable hvalue
              cases value with
              | none => simp [hvalue]
              | some younger =>
                  cases hold : prog.userVariables.lookup olderName with
                  | none => simp [hvalue, hvariables, hold]
                  | some older =>
                      cases hresult : pairResult (asciiUppercase label) older younger with
                      | none => simp [hvalue, hvariables, hold, hresult]
                      | some next => simp [hvalue, hvariables, hold, hresult]

/-- A command has no name of a readonly value. -/
theorem readonlySafe_of_command {label : String} (h : asciiUppercase label ∈ commandKeys ++ pairKeys)
    (looked : ProgrammatorState) : ReadonlySafe looked ctx label := by
  rw [ReadonlySafe]
  generalize asciiUppercase label = key at h
  split <;> trivial

theorem isSome_compareVariable {action : PAction} :
    (compareVariable prog ctx action).isSome ↔ ReadonlySafe prog ctx action.label := by
  rw [compareVariable, ← isSome_readonlyProgrammatorValue]
  match readonlyProgrammatorValue prog ctx action.label with
  | none => simp
  | some (none, looked) => simp
  | some (some value, looked) => simp

theorem isSome_executeWritableState {action : PAction} : (executeWritableState prog ctx action).isSome ↔
    asciiUppercase action.label = "DEL" ∨ WritableSafe prog ctx action.label action.num := by
  rw [executeWritableState]
  by_cases hdel : asciiUppercase action.label = "DEL"
  · rw [if_pos hdel]
    exact iff_of_true rfl (Or.inl hdel)
  rw [if_neg hdel, or_iff_right hdel, WritableSafe]
  by_cases hkey : asciiUppercase action.label ∈ commandKeys ++ pairKeys
  · -- what a refused command falls through to is no value of the server's own
    have hafter (commanded : ProgrammatorState) : (compareVariable commanded ctx action).isSome :=
      isSome_compareVariable.mpr (readonlySafe_of_command hkey commanded)
    have hran : (runProgrammatorCommand prog ctx action.label action.num).isSome ↔
        if asciiUppercase action.label ∈ commandKeys then CommandSafe prog (asciiUppercase action.label) action.num
        else if asciiUppercase action.label ∈ pairKeys then PairSafe prog ctx (asciiUppercase action.label)
        else ReadonlySafe prog ctx action.label := by
      by_cases hcommand : asciiUppercase action.label ∈ commandKeys
      · rw [if_pos hcommand]
        exact isSome_command hcommand
      · have hpair := (List.mem_append.mp hkey).resolve_left hcommand
        rw [if_neg hcommand, if_pos hpair]
        exact isSome_pair hcommand hpair
    rw [← hran]
    match runProgrammatorCommand prog ctx action.label action.num with
    | none => simp
    | some (true, commanded) => simp
    | some (false, commanded) => simp [hafter commanded]
  · obtain ⟨hcommand, hpair⟩ := not_or.mp (fun h => hkey (List.mem_append.mpr h))
    rw [if_neg hcommand, if_neg hpair, ← isSome_compareVariable, runProgrammatorCommand, if_neg hcommand, if_neg hpair]
    rfl

end Variables

section Execution

variable {prog ctx}

/-- The actions whose results are handed on with an offset. -/
def HandsOffset (actionType : ActionType) : Prop :=
  actionType = .runFunction ∨ actionType = .runState ∨ actionType = .returnState

theorem isSome_handleLabelResult {actionType : ActionType} {label : String} (h : ¬ HandsOffset actionType) :
    (handleLabelResult prog actionType label).isSome := by
  unfold handleLabelResult
  split
  case h_3 => exact absurd (Or.inl rfl) h
  case h_4 => exact absurd (Or.inr (Or.inl rfl)) h
  all_goals grind

theorem isSome_handleNoneResult {actionType : ActionType} (h : ¬ HandsOffset actionType) :
    (handleNoneResult prog actionType).isSome := by
  unfold handleNoneResult
  split
  case h_15 => exact absurd (Or.inr (Or.inr rfl)) h
  all_goals grind

theorem isSome_handleResult {action : PAction} {executed : Executed} (h : ¬ HandsOffset action.actionType) :
    (handleResult action executed).isSome := by
  rw [handleResult]
  cases executed.result with
  | none => exact isSome_handleNoneResult h
  | label name => exact isSome_handleLabelResult h
  | boolResult value => rfl

theorem isSome_runIf (stays : Bool) (label : String) : (runIf prog stays label).isSome := by
  rw [runIf]
  split <;> rfl

theorem isSome_macrosHeal : (macrosHeal prog ctx).isSome := by
  rw [macrosHeal]
  split <;> rfl

theorem isSome_executeAction {action : PAction} (h : ¬ HandsOffset action.actionType) :
    (executeAction prog ctx action).isSome ↔ ActionSafe prog ctx action := by
  have hx : FitsI32 (prog.shiftX.toInt + (0 : Int32).toInt) := by simpa using fitsI32_toInt prog.shiftX
  have hy : FitsI32 (prog.shiftY.toInt + (0 : Int32).toInt) := by simpa using fitsI32_toInt prog.shiftY
  unfold executeAction ActionSafe
  generalize action.actionType = actionType at h
  cases actionType
  case moveUp | moveDown | moveLeft | moveRight | moveForward => exact isSome_moveBy
  case rotateUp | rotateLeft | rotateDown | rotateRight | rotateLeftRelative | rotateRightRelative | rotateRandom =>
    exact iff_of_true (isSome_turnTo _) trivial
  case shiftUp | shiftDown => exact isSome_shiftBy.trans (and_iff_right hx)
  case shiftLeft | shiftRight => exact isSome_shiftBy.trans (and_iff_left hy)
  case shiftForward => exact isSome_shiftBy
  case isEmpty | isNotEmpty | isBoulder | isSand | isBreakableRock | isUnbreakable | isFalling => exact isSome_cellDefIs
  case isRoad => exact isSome_roadIs
  case isCrystal | isBox | isGreenBlock | isYellowBlock | isRedBlock | isPillar | isQuadBlock | isRedRock | isBlackRock
      | isAcid | isSlime | isInGun | isLivingCrystal => exact isSome_cellIs
  case runIfTrue | runIfFalse => exact iff_of_true (isSome_runIf _ _) trivial
  case macrosDig => exact isSome_macrosDig
  case macrosHeal => exact iff_of_true isSome_macrosHeal trivial
  case macrosMine => exact isSome_macrosMine
  case macrosGun => exact isSome_macrosGun
  case macrosDigAround => exact isSome_macrosDigAround
  case writableState | writableStateLower | writableStateMore => exact isSome_executeWritableState
  case runFunction => exact absurd (Or.inl rfl) h
  case runState => exact absurd (Or.inr (Or.inl rfl)) h
  case returnState => exact absurd (Or.inr (Or.inr rfl)) h
  all_goals exact iff_of_true rfl trivial

theorem isSome_handOffset (name : String) : (prog.handOffset name).isSome ↔ prog.HandSafe := by
  rw [ProgrammatorState.handOffset, ProgrammatorState.HandSafe, ← isSome_addI32, ← isSome_addI32]
  split
  · cases addI32 prog.shiftX prog.checkX <;> cases addI32 prog.shiftY prog.checkY <;> simp
  · rename_i hzero
    simp only [not_or, not_not] at hzero
    obtain ⟨hsx, hsy, hcx, hcy⟩ := hzero
    rw [hsx, hsy, hcx, hcy]
    exact iff_of_true rfl ⟨by decide, by decide⟩

theorem function_modifyCurrent {f : PFunction → PFunction} :
    (prog.modifyCurrent f).function = prog.function.map f := by
  rw [ProgrammatorState.function, ProgrammatorState.modifyCurrent, ProgrammatorState.function, Functions.modify]
  cases hf : prog.currentProg.lookup prog.currentFunction with
  | none => exact hf
  | some g => exact AList.lookup_insert prog.currentProg

theorem isSome_handledResult {action : PAction} :
    ((executeAction prog ctx action).bind (handleResult action)).isSome ↔ ActionSafe prog ctx action := by
  by_cases h : HandsOffset action.actionType
  · rcases h with h | h | h
    · simp only [executeAction, ActionSafe, handleResult, handleLabelResult, h, Option.bind_some]
      rw [← isSome_handOffset action.label]
      split
      · rename_i hmem
        rw [imp_iff_right hmem]
        cases prog.handOffset action.label <;> simp
      · rename_i hmem
        exact iff_of_true rfl fun hmem' => absurd hmem' hmem
    · simp only [executeAction, ActionSafe, handleResult, handleLabelResult, h, Option.bind_some]
      rw [← isSome_handOffset action.label]
      split
      · rename_i hmem
        rw [imp_iff_right hmem]
        cases prog.handOffset action.label <;> simp
      · rename_i hmem
        exact iff_of_true rfl fun hmem' => absurd hmem' hmem
    · have hcaller : (prog.modifyCurrent PFunction.reset).function.bind PFunction.calledFrom =
          prog.function.bind PFunction.calledFrom := by
        rw [function_modifyCurrent]
        cases prog.function <;> rfl
      simp only [executeAction, ActionSafe, handleResult, handleNoneResult, h, Option.bind_some, hcaller]
      cases prog.function.bind PFunction.calledFrom with
      | none => exact iff_of_true rfl nofun
      | some caller =>
          have hhand : ((prog.modifyCurrent PFunction.reset).handOffset caller).isSome ↔ prog.HandSafe := isSome_handOffset caller
          rw [Option.isSome_some, imp_iff_right rfl, ← hhand]
          cases hoffered : (prog.modifyCurrent PFunction.reset).handOffset caller <;> simp [hoffered]
  · rw [isSome_bind_iff, ← isSome_executeAction h, Option.isSome_iff_exists]
    exact exists_congr fun executed => and_iff_left (isSome_handleResult h)

end Execution

section Ticks

variable {prog ctx}

theorem ProgrammatorState.isSome_nextFunction (prog : ProgrammatorState) : prog.nextFunction.isSome := by
  rw [nextFunction]
  cases hidx : prog.functionOrder.findIdx? (fun name => name == prog.currentFunction) with
  | none => cases prog.functionOrder.head? <;> rfl
  | some i =>
      obtain ⟨hi, -, -⟩ := List.findIdx?_eq_some_iff_getElem.mp hidx
      by_cases hnext : i + 1 < prog.functionOrder.length
      · simp [hnext]
      · simp [hnext, Nat.zero_lt_of_lt hi]

theorem isSome_runAction {action : PAction} : (runAction prog ctx action).isSome ↔ ActionSafe prog ctx action := by
  rw [runAction, ← isSome_handledResult]
  cases hexecuted : executeAction prog ctx action with
  | none => simp
  | some executed => cases hhandled : handleResult action executed <;> simp [hhandled]

theorem isSome_programmatorSystem {dueAt : Nat} :
    (programmatorSystem prog ctx dueAt).isSome ↔ DueSafe prog ctx dueAt := by
  rw [programmatorSystem, DueSafe]
  by_cases hdue : prog.isDue ctx dueAt = true
  · rw [if_pos hdue, imp_iff_right hdue]
    cases hf : prog.function with
    | none => simp
    | some f =>
        simp only [Option.some.injEq]
        by_cases hend : f.actions.length = 0 ∨ f.actions.length ≤ f.current
        · rw [if_pos hend]
          have hout : f.actions[f.current]? = none := List.getElem?_eq_none (by omega)
          obtain ⟨next, hnext⟩ := Option.isSome_iff_exists.mp
            (prog.modifyCurrent PFunction.reset).isSome_nextFunction
          refine iff_of_true (by simp [hnext]) fun g action hg h => ?_
          subst hg
          cases hout.symm.trans h
        · rw [if_neg hend]
          obtain ⟨action, haction⟩ : ∃ action, f.actions[f.current]? = some action :=
            ⟨_, List.getElem?_eq_getElem (by omega)⟩
          rw [haction]
          refine isSome_runAction.trans ⟨fun h g other hg hother => ?_, fun h => h f action rfl haction⟩
          subst hg
          cases haction.symm.trans hother
          exact h
  · rw [if_neg hdue]
    exact iff_of_true rfl fun h => absurd h hdue

end Ticks

end OpenMines

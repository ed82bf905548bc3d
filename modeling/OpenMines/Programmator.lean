import Mathlib.Data.List.AList
import OpenMines.Lib.CheckedInt
import OpenMines.PlayerRow

namespace OpenMines

open Lib.CheckedInt

inductive ActionType
  | none | moveUp | moveLeft | moveDown | moveRight | moveForward | rotateUp | rotateLeft
  | rotateDown | rotateRight | rotateLeftRelative | rotateRightRelative | rotateRandom | dig
  | buildBlock | buildPillar | buildRoad | buildMilitaryBlock | geology | heal | nextRow
  | createFunction | goTo | writableStateMore | writableStateLower | writableState | runSub
  | runFunction | runState | runOnRespawn | runIfTrue | runIfFalse | return | returnFunction
  | returnState | start | stop | beep | checkUp | checkLeft | checkDown | checkRight | checkUpLeft
  | checkUpRight | checkDownLeft | checkDownRight | checkForward | checkForwardLeft
  | checkForwardRight | checkLeftRelative | checkRightRelative | shiftUp | shiftLeft | shiftDown
  | shiftRight | shiftForward | enableAgression | disableAgression | enableAutoDig | disableAutoDig
  | flip | macrosDig | macrosBuild | macrosHeal | macrosMine | or | and | isHpLower100
  | isHpLower50 | isNotEmpty | isEmpty | isFalling | isCrystal | isLivingCrystal | isBoulder
  | isSand | isBreakableRock | isUnbreakable | isAcid | isRedRock | isBlackRock | isGreenBlock
  | isYellowBlock | isRedBlock | isPillar | isQuadBlock | isRoad | isBox | checkGun | fillGun
  | isSlime | isInGun | handModeOn | handModeOff | macrosGun | macrosDigAround | onlineGeo
  | onlineZz | onlineC190 | onlinePoly | onlineUp | onlineCraft | onlineNano | onlineRem
  | inventoryUp | inventoryLeft | inventoryDown | inventoryRight | debugMessage | debugPause
  | restartRow
  deriving DecidableEq

def legacyActionTypes : List (Nat × ActionType) :=
  [(1, .nextRow), (2, .start), (3, .stop), (4, .moveUp), (5, .moveLeft), (6, .moveDown), (7, .moveRight),
    (8, .dig), (9, .rotateUp), (10, .rotateLeft), (11, .rotateDown), (12, .rotateRight),
    (14, .moveForward), (15, .rotateLeftRelative), (16, .rotateRightRelative), (17, .buildBlock),
    (18, .geology), (19, .buildRoad), (20, .heal), (21, .buildPillar), (22, .rotateRandom), (23, .beep),
    (24, .goTo), (25, .runSub), (26, .runFunction), (27, .return), (28, .returnFunction),
    (29, .checkUpLeft), (30, .checkDownRight), (31, .checkUp), (32, .checkUpRight), (33, .checkLeft),
    (35, .checkRight), (36, .checkDownLeft), (37, .checkDown), (38, .or), (39, .and),
    (40, .createFunction), (43, .isNotEmpty), (44, .isEmpty), (45, .isFalling), (46, .isCrystal),
    (47, .isLivingCrystal), (48, .isBoulder), (49, .isSand), (50, .isBreakableRock), (51, .isUnbreakable),
    (52, .isRedRock), (53, .isBlackRock), (54, .isAcid), (57, .isQuadBlock), (58, .isRoad),
    (59, .isRedBlock), (60, .isYellowBlock), (74, .isBox), (76, .isPillar), (77, .isGreenBlock),
    (119, .writableStateMore), (120, .writableStateLower), (123, .writableState), (131, .shiftUp),
    (132, .shiftLeft), (133, .shiftDown), (134, .shiftRight), (135, .checkForward), (136, .shiftForward),
    (137, .runState), (138, .returnState), (139, .runIfFalse), (140, .runIfTrue), (141, .macrosDig),
    (142, .macrosBuild), (143, .macrosHeal), (144, .flip), (145, .macrosMine), (146, .checkGun),
    (147, .fillGun), (148, .isHpLower100), (149, .isHpLower50), (156, .checkForwardLeft),
    (157, .checkForwardRight), (158, .enableAutoDig), (159, .disableAutoDig), (160, .enableAgression),
    (161, .disableAgression), (98, .isSlime), (106, .isInGun)]

def actionTypes : List (Nat × ActionType) :=
  [(162, .buildBlock), (163, .buildPillar), (164, .buildRoad), (165, .buildMilitaryBlock),
    (166, .runOnRespawn), (167, .onlineGeo), (168, .onlineZz), (169, .onlineC190), (170, .onlinePoly),
    (171, .onlineUp), (172, .onlineCraft), (173, .onlineNano), (174, .onlineRem), (175, .inventoryUp),
    (176, .inventoryLeft), (177, .inventoryDown), (178, .inventoryRight), (179, .handModeOn),
    (180, .handModeOff), (181, .debugMessage), (182, .debugPause), (200, .restartRow)]

def getLegacyActionType (id : UInt8) : ActionType := (legacyActionTypes.lookup id.toNat).getD .none

def getActionType (id : UInt8) : ActionType := (actionTypes.lookup id.toNat).getD (getLegacyActionType id)

structure PAction where
  actionType : ActionType
  label : String
  num : Int32
  deriving DecidableEq

structure PFunction where
  actions : List PAction
  current : Nat
  state : Option Bool
  lastStateAction : Option ActionType
  startoffset : Int32 × Int32
  calledFrom : Option String

namespace PFunction

def new : PFunction := ⟨[], 0, none, none, (0, 0), none⟩

def reset (f : PFunction) : PFunction := { f with current := 0, startoffset := (0, 0) }

def push (f : PFunction) (action : PAction) : PFunction := { f with actions := f.actions ++ [action] }

end PFunction

/-- The functions of a program, by name. -/
abbrev Functions := AList (fun _ : String => PFunction)

namespace Functions

def modify (fs : Functions) (name : String) (f : PFunction → PFunction) : Functions :=
  match fs.lookup name with
  | some g => fs.insert name (f g)
  | none => fs

theorem lookup_modify (fs : Functions) (name n : String) (f : PFunction → PFunction) :
    (fs.modify name f).lookup n = if n = name then (fs.lookup n).map f else fs.lookup n := by
  rw [modify]
  split
  · rename_i g hg
    by_cases hn : n = name
    · subst hn
      rw [AList.lookup_insert, if_pos rfl, hg]
      rfl
    · rw [AList.lookup_insert_ne hn, if_neg hn]
  · rename_i hnone
    by_cases hn : n = name
    · subst hn
      rw [if_pos rfl, hnone]
      rfl
    · rw [if_neg hn]

@[simp] theorem mem_modify {fs : Functions} {name n : String} {f : PFunction → PFunction} :
    n ∈ fs.modify name f ↔ n ∈ fs := by
  rw [← AList.lookup_isSome, ← AList.lookup_isSome, lookup_modify]
  split
  · rw [Option.isSome_map]
  · exact Iff.rfl

def resetAll (fs : Functions) : Functions where
  entries := fs.entries.map (fun e => ⟨e.1, e.2.reset⟩)
  nodupKeys := by simpa [List.NodupKeys, List.keys, Function.comp_def] using fs.nodupKeys

end Functions

structure LastVariables where
  younger : Option String
  older : Option String
  deriving DecidableEq

def LastVariables.set (v : LastVariables) (name : String) : LastVariables := ⟨some name, v.younger⟩

/-- Times are in microseconds. -/
structure ProgrammatorState where
  running : Bool
  currentProg : Functions
  functionOrder : List String
  currentFunction : String
  delay : Nat
  startedAt : Nat
  shiftX : Int32
  shiftY : Int32
  checkX : Int32
  checkY : Int32
  flipState : Bool
  startpoint : String × Nat
  gotoDeath : Option String
  macrosTemplate : Option Int32
  handModeActive : Bool
  userVariables : AList (fun _ : String => Int32)
  lastVariables : LastVariables

namespace ProgrammatorState

def new (now : Nat) : ProgrammatorState where
  running := false
  currentProg := ∅
  functionOrder := []
  currentFunction := ""
  delay := now
  startedAt := now
  shiftX := 0
  shiftY := 0
  checkX := 0
  checkY := 0
  flipState := false
  startpoint := ("", 0)
  gotoDeath := none
  macrosTemplate := none
  handModeActive := false
  userVariables := ∅
  lastVariables := ⟨none, none⟩

def dropState (s : ProgrammatorState) : ProgrammatorState :=
  { s with
    startpoint := ("", 0)
    gotoDeath := none
    currentFunction := ""
    checkX := 0
    checkY := 0
    shiftX := 0
    shiftY := 0
    flipState := false
    handModeActive := false
    userVariables := ∅
    lastVariables := ⟨none, none⟩
    currentProg := s.currentProg.resetAll }

def nextFunction (s : ProgrammatorState) : Checked ProgrammatorState :=
  match s.functionOrder.findIdx? (fun name => name == s.currentFunction) with
  | some i => do
      let name ← if i + 1 < s.functionOrder.length then s.functionOrder[i + 1]? else s.functionOrder[0]?
      return { s with currentFunction := name }
  | none =>
      match s.functionOrder.head? with
      | some first => some { s with currentFunction := first }
      | none => some s

def stopProgram (s : ProgrammatorState) : ProgrammatorState := { s with running := false }.dropState

/-- What a change of the function that runs does to the program. -/
def modifyCurrent (s : ProgrammatorState) (f : PFunction → PFunction) : ProgrammatorState :=
  { s with currentProg := s.currentProg.modify s.currentFunction f }

def function (s : ProgrammatorState) : Option PFunction := s.currentProg.lookup s.currentFunction

end ProgrammatorState

end OpenMines

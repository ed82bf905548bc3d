import OpenMines.CellGrid
import OpenMines.Programmator

namespace OpenMines

open Lib.CheckedInt

def cellTypeCount : Nat := 126

/-- What the programmator reads of the definition of a cell type. -/
structure ProgrammatorCell where
  isEmpty : Bool
  isDiggable : Bool
  isSand : Bool
  isBoulder : Bool

/-- The world as the programmator sees it; the definitions are those of all the known cell types. -/
structure ProgrammatorGrid where
  grid : CellGrid
  cellDefs : Fin cellTypeCount → ProgrammatorCell

namespace ProgrammatorGrid

variable (w : ProgrammatorGrid)

def getCell (x y : Int32) : UInt8 := w.grid.getCell (x.toInt, y.toInt)

def getRoadCell (x y : Int32) : UInt8 :=
  let p := (x.toInt, y.toInt)
  if ¬ w.grid.validCoord p ∨ w.grid.foreground p ≠ 0 then 0
  else if w.grid.road p = 0 then emptyCell else w.grid.road p

def getTyped (cell : UInt8) : Checked ProgrammatorCell :=
  if h : cell.toNat < cellTypeCount then some (w.cellDefs ⟨cell.toNat, h⟩) else none

@[simp] theorem isSome_getTyped {cell : UInt8} : (w.getTyped cell).isSome ↔ cell.toNat < cellTypeCount := by
  by_cases h : cell.toNat < cellTypeCount <;> simp [getTyped, h]

end ProgrammatorGrid

namespace CellType

def isCrystal (cell : UInt8) : Bool := cell ∈ [71, 107, 72, 109, 73, 108, 75, 110, 111, 74, 112]

def isRoad (cell : UInt8) : Bool := cell ∈ [35, 36, 39, 37]

def isAcid (cell : UInt8) : Bool := cell ∈ [66, 67, 86, 95, 96, 118]

def isSlime (cell : UInt8) : Bool := cell ∈ [66, 67, 68, 82, 86, 95, 96, 118]

def isLivingCrystal (cell : UInt8) : Bool := cell ∈ [50, 51, 52, 53, 54, 55, 116]

end CellType

structure PlayerPosition where
  x : Int32
  y : Int32
  dir : Int32

/-- What a step of a program reads besides the program itself. The pause of a move comes from the
level of a skill: it is a hundred times the effect, which is at most 70 and a twentieth of the level. -/
structure ProgrammatorContext where
  player : PlayerId
  session : Option SessionId
  pos : PlayerPosition
  health : Int32
  maxHealth : Int32
  crystals : Vector Int64 6
  autoDig : Bool
  aggression : Bool
  geoCount : Nat
  world : ProgrammatorGrid
  pauseUnits : Nat
  pauseUnits_le : pauseUnits ≤ 2 ^ 40
  directActionDelayUs : Nat
  minMoveDelayMs : Nat
  randomDir : Fin 4
  randomValue : Fin 1000
  now : Nat

/-- What a program asks the server to do for its player. -/
inductive ProgrammatorAction
  | move (player : PlayerId) (session : Option SessionId) (x y dir : Int32)
  | dig (player : PlayerId) (session : Option SessionId) (dir : Int32)
  | build (player : PlayerId) (session : Option SessionId) (dir : Int32) (blockType : String)
  | geo (player : PlayerId) (session : Option SessionId)
  | heal (player : PlayerId) (session : Option SessionId)
  | setAutoDig (player : PlayerId) (session : Option SessionId) (enabled : Bool)
  | setAggression (player : PlayerId) (session : Option SessionId) (enabled : Bool)
  | setHandMode (session : Option SessionId) (enabled : Bool)
  | fillGun (player : PlayerId) (session : Option SessionId) (x y : Int32)
  | setProgrammatorStatus (session : Option SessionId) (running : Bool)
  | send (session : SessionId) (data : List UInt8)

inductive ExecResult
  | none
  | label (name : String)
  | boolResult (value : Bool)

variable (prog : ProgrammatorState) (ctx : ProgrammatorContext)

namespace ProgrammatorState

def resetViewOffsets : ProgrammatorState := { prog with checkX := 0, checkY := 0, shiftX := 0, shiftY := 0 }

/-- The offset that a call handed to the function, or else the one that was built up. -/
def selectedOffset : Checked (Int32 × Int32) :=
  match prog.function.filter (fun f => f.startoffset ≠ (0, 0)) with
  | some f => some f.startoffset
  | none => do return (← addI32 prog.shiftX prog.checkX, ← addI32 prog.shiftY prog.checkY)

def selectedWorldPos (pos : PlayerPosition) : Checked (Int32 × Int32) := do
  let (sx, sy) ← prog.selectedOffset
  if prog.flipState then return (← subI32 pos.x sx, ← subI32 pos.y sy)
  else return (← addI32 pos.x sx, ← addI32 pos.y sy)

def setConditionState (result : Bool) : ProgrammatorState :=
  prog.modifyCurrent (fun f =>
    match f.lastStateAction with
    | some .or => { f with state := some (f.state.getD false || result) }
    | some .and => { f with state := some (f.state.getD true && result) }
    | _ => { f with state := some result })

def checkCell (pos : PlayerPosition) (predicate : Int32 → Int32 → Checked Bool) : Checked ProgrammatorState := do
  let (x, y) ← prog.selectedWorldPos pos
  let result ← predicate x y
  return prog.resetViewOffsets.setConditionState result

end ProgrammatorState

def compareValue (actionType : ActionType) (actual expected : Int32) : Bool :=
  match actionType with
  | .writableStateLower => actual < expected
  | .writableStateMore => expected < actual
  | _ => actual == expected

def loadPercent : Checked Int32 := do
  let total ← sumI64 0 ctx.crystals.toList
  return clampI32 (total.toInt * 100)

def callDepth (fs : Functions) : Nat → String → Int32 → Int32
  | 0, _, depth => depth
  | guard + 1, current, depth =>
      match (fs.lookup current).bind PFunction.calledFrom with
      | some calledFrom => callDepth fs guard calledFrom (clampI32 (depth.toInt + 1))
      | none => depth

def programmatorCallDepth : Int32 := callDepth prog.currentProg prog.currentProg.keys.length prog.currentFunction 0

def programmatorLogicMode : Int32 :=
  match prog.function.bind PFunction.lastStateAction with
  | some .and => 1
  | some .or => 2
  | _ => 0

def programmatorCrystals : List (String × Fin 6 × Bool) :=
  [("G", 0, false), ("B", 1, false), ("R", 2, false), ("V", 3, false), ("W", 4, false), ("C", 5, false),
    ("GP", 0, true), ("BP", 1, true), ("RP", 2, true), ("VP", 3, true), ("WP", 4, true), ("CP", 5, true)]

def asciiUppercase (s : String) : String := String.ofList (s.toList.map Char.toUpper)

def boolValue (b : Bool) : Int32 := if b then 1 else 0

/-- A value of the player, of the world or of the program itself, and the program after the look. -/
def readonlyProgrammatorValue (label : String) : Checked (Option Int32 × ProgrammatorState) :=
  let value (n : Int32) : Checked (Option Int32 × ProgrammatorState) := some (some n, prog)
  let key := asciiUppercase label
  match programmatorCrystals.lookup key with
  | some (kind, percent) =>
      value (clampI32 (if percent then ctx.crystals[kind].toInt * 100 else ctx.crystals[kind].toInt))
  | none =>
      match key with
      | "AUT" => value (boolValue ctx.autoDig)
      | "AGR" => value (boolValue ctx.aggression)
      | "HND" => value (boolValue prog.handModeActive)
      | "DBG" => value 0
      | "STK" => value (programmatorCallDepth prog)
      | "DIR" => value (if ctx.pos.dir = 1 then 3 else if ctx.pos.dir = 3 then 1 else ctx.pos.dir)
      | "X" => value ctx.pos.x
      | "Y" => value ctx.pos.y
      | "CEL" => do
          let (x, y) ← prog.selectedWorldPos ctx.pos
          return (some (.ofNat (ctx.world.getCell x y).toNat), prog.resetViewOffsets)
      | "HP" => value ctx.health
      | "HPP" =>
          if ctx.maxHealth ≤ 0 then value 0
          else do
            let percent ← divI32 (clampI32 (ctx.health.toInt * 100)) ctx.maxHealth
            value percent
      | "TIM" => value (clampI32 ((ctx.now - prog.startedAt) / 1000000 : Nat))
      | "GEO" => value (clampI32 ctx.geoCount)
      | "GEP" => value (clampI32 (ctx.geoCount * 100 : Nat))
      | "LOA" => do value (← loadPercent ctx)
      | "RND" => value (.ofNat ctx.randomValue)
      | "FLP" => value (boolValue prog.flipState)
      | "BOO" => value (programmatorLogicMode prog)
      | "AX" => do value (← absI32 (← prog.selectedOffset).1)
      | "AY" => do value (← absI32 (← prog.selectedOffset).2)
      | "DX" => do value (← addI32 100 (← prog.selectedOffset).1)
      | "DY" => do value (← addI32 100 (← prog.selectedOffset).2)
      | _ => some (none, prog)

def commandVariableValue (name : String) : Checked (Option Int32 × ProgrammatorState) :=
  match prog.userVariables.lookup name with
  | some value => some (some value, prog)
  | none => readonlyProgrammatorValue prog ctx name

def jsDivisor (value : Int32) : Int32 := if value = 0 then 1 else value

def ProgrammatorState.setVariable (name : String) (value : Int32) : ProgrammatorState :=
  { prog with userVariables := prog.userVariables.insert name value }

/-- What a command writes to the variable that was used last; a remainder by zero is refused. -/
def commandResult (key : String) (current num : Int32) : Checked (Option Int32) :=
  match key with
  | "SET" => some (some num)
  | "ADD" => some (some (clampI32 (current.toInt + num.toInt)))
  | "MUL" => some (some (clampI32 (current.toInt * num.toInt)))
  | "DIV" => do return some (← divI32 current (jsDivisor num))
  | "SUB" => some (some (clampI32 (current.toInt - num.toInt)))
  | _ => if num = 0 then some none else do return some (← remI32 current num)

/-- What a command of two variables writes to the older one. -/
def pairResult (key : String) (older younger : Int32) : Checked Int32 :=
  match key with
  | "AD2" => some (clampI32 (older.toInt + younger.toInt))
  | "MU2" => some (clampI32 (older.toInt * younger.toInt))
  | "DI2" => divI32 older (jsDivisor younger)
  | _ => some (clampI32 (older.toInt - younger.toInt))

def commandKeys : List String := ["SET", "ADD", "MUL", "DIV", "SUB", "MOD"]

def pairKeys : List String := ["AD2", "MU2", "DI2", "SU2"]

/-- Tells whether the command ran, with the program after it. -/
def runProgrammatorCommand (command : String) (num : Int32) : Checked (Bool × ProgrammatorState) :=
  let key := asciiUppercase command
  if key ∈ commandKeys then
    match prog.lastVariables.younger with
    | none => some (false, prog)
    | some name =>
        match prog.userVariables.lookup name with
        | none => some (false, prog)
        | some current => do
            match ← commandResult key current num with
            | some next => return (true, prog.setVariable name next)
            | none => return (false, prog)
  else if key ∈ pairKeys then
    match prog.lastVariables.younger, prog.lastVariables.older with
    | some youngerName, some olderName => do
        match ← commandVariableValue prog ctx youngerName with
        | (none, looked) => return (false, looked)
        | (some younger, looked) =>
            match looked.userVariables.lookup olderName with
            | none => return (false, looked)
            | some older =>
                let next ← pairResult key older younger
                return (true, looked.setVariable olderName next)
    | _, _ => some (false, prog)
  else some (false, prog)

/-- What an action leaves: the program, the requests, the delay in microseconds and the result. -/
structure Executed where
  prog : ProgrammatorState
  queue : List ProgrammatorAction
  delay : Option Nat
  result : ExecResult

def ProgrammatorState.touch (name : String) : ProgrammatorState :=
  { prog with lastVariables := prog.lastVariables.set name }

/-- The comparison with a value of the server's own or with a variable, which may be new. -/
def compareVariable (action : PAction) : Checked Executed := do
  match ← readonlyProgrammatorValue prog ctx action.label with
  | (some value, looked) =>
      let result := compareValue action.actionType value action.num
      return ⟨(looked.setConditionState result).touch action.label, [], none, .boolResult result⟩
  | (none, looked) =>
      let (result, written) :=
        match looked.userVariables.lookup action.label with
        | some value => (compareValue action.actionType value action.num, looked)
        | none =>
            if action.actionType = ActionType.writableState then (true, looked.setVariable action.label action.num)
            else (false, looked)
      return ⟨(written.touch action.label).setConditionState result, [], none, .boolResult result⟩

def executeWritableState (action : PAction) : Checked Executed :=
  if asciiUppercase action.label = "DEL" then some ⟨prog, [], some (1000 * action.num.toInt.toNat), .none⟩
  else do
    let (ran, commanded) ← runProgrammatorCommand prog ctx action.label action.num
    if ran then return ⟨commanded, [], none, .none⟩
    else compareVariable commanded ctx action

end OpenMines

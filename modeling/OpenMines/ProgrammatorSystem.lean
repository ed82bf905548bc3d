import OpenMines.ProgrammatorHelpers
import OpenMines.ProgrammatorParser

namespace OpenMines

open Lib.CheckedInt

/-- The last time that the clock can show. -/
def instantMax : Nat := 9223372036854775807999999

def nextProgrammatorDeadline (now : Nat) (delay : Option Nat) : Nat :=
  match delay with
  | some delay => if now + delay ≤ instantMax then now + delay else now
  | none => now

section Actions

variable (prog : ProgrammatorState) (ctx : ProgrammatorContext)

def ProgrammatorContext.onRoad : Bool := CellType.isRoad (ctx.world.getCell ctx.pos.x ctx.pos.y)

def speedPause : Checked Nat := do
  let serverPauseMs ←
    if ctx.onRoad then (usize (ctx.pauseUnits * 56)).map (· / 10000)
    else (usize (ctx.pauseUnits * 7)).map (· / 1000)
  return if serverPauseMs < ctx.minMoveDelayMs then ctx.minMoveDelayMs else serverPauseMs

def ProgrammatorContext.movePause : Checked Nat := (speedPause ctx).map (1000 * ·)

def pushMove (x y dir : Int32) : ProgrammatorAction := .move ctx.player ctx.session x y dir

/-- A neighbour of the player. -/
def ProgrammatorContext.beside (offset : Int32 × Int32) : Checked (Int32 × Int32) := do
  return (← addI32 ctx.pos.x offset.1, ← addI32 ctx.pos.y offset.2)

def moveBy (offset : Int32 × Int32) : Checked Executed := do
  let delay ← ctx.movePause
  let (x, y) ← ctx.beside offset
  return ⟨prog, [pushMove ctx x y (-1)], some delay, .none⟩

def turnTo (dir : Int32) : Checked Executed := do
  let delay ← ctx.movePause
  return ⟨prog, [pushMove ctx ctx.pos.x ctx.pos.y dir], some delay, .none⟩

/-- A request that takes the time of a direct action. -/
def direct (action : ProgrammatorAction) : Checked Executed :=
  some ⟨prog, [action], some ctx.directActionDelayUs, .none⟩

def buildOf (blockType : String) : Checked Executed :=
  direct prog ctx (.build ctx.player ctx.session ctx.pos.dir blockType)

def request (action : ProgrammatorAction) : Checked Executed := some ⟨prog, [action], none, .none⟩

def shiftBy (offset : Int32 × Int32) : Checked Executed := do
  let shiftX ← addI32 prog.shiftX offset.1
  let shiftY ← addI32 prog.shiftY offset.2
  return ⟨{ prog with shiftX, shiftY }, [], none, .none⟩

def checkAt (offset : Int32 × Int32) : Checked Executed :=
  some ⟨{ prog with checkX := offset.1, checkY := offset.2 }, [], none, .none⟩

/-- A value for each of the four directions, and zero for every other. -/
def byDir (down left up right : Int32) : Int32 :=
  if ctx.pos.dir = 0 then down else if ctx.pos.dir = 1 then left else if ctx.pos.dir = 2 then up
  else if ctx.pos.dir = 3 then right else 0

/-- A condition on the type of the cell that the program looks at. -/
def cellIs (predicate : UInt8 → Bool) : Checked Executed := do
  let looked ← prog.checkCell ctx.pos (fun x y => some (predicate (ctx.world.getCell x y)))
  return ⟨looked, [], none, .none⟩

/-- A condition on the definition of that type. -/
def cellDefIs (predicate : ProgrammatorCell → Bool) : Checked Executed := do
  let looked ← prog.checkCell ctx.pos (fun x y => (ctx.world.getTyped (ctx.world.getCell x y)).map predicate)
  return ⟨looked, [], none, .none⟩

def roadIs : Checked Executed := do
  let looked ← prog.checkCell ctx.pos (fun x y => some (ctx.world.getRoadCell x y != 0))
  return ⟨looked, [], none, .none⟩

def conditionIs (result : Bool) : Checked Executed := some ⟨prog.setConditionState result, [], none, .none⟩

/-- A jump is taken unless the state says no; the state is then forgotten. -/
def runIf (stays : Bool) (label : String) : Checked Executed :=
  if prog.function.bind PFunction.state = some stays then some ⟨prog, [], none, .none⟩
  else some ⟨prog.modifyCurrent (fun f => { f with state := none }), [], none, .label label⟩

def dig : ProgrammatorAction := .dig ctx.player ctx.session ctx.pos.dir

/-- The player digs where it looks, and turns there first. -/
def digToward (after : ProgrammatorState) (dir : Int32) : Checked Executed :=
  if ctx.pos.dir = dir then some ⟨after, [dig ctx], some ctx.directActionDelayUs, .boolResult true⟩
  else do
    let delay ← ctx.movePause
    return ⟨prog, [pushMove ctx ctx.pos.x ctx.pos.y dir], some delay, .boolResult true⟩

/-- The first of the directions in which a crystal is. -/
def findCrystal : List (Int32 × Int32 × Int32) → Checked (Option Int32)
  | [] => some none
  | (dir, offset) :: rest => do
      let (x, y) ← ctx.beside offset
      if CellType.isCrystal (ctx.world.getCell x y) then return some dir
      else findCrystal rest

def dirz : List (Int32 × Int32 × Int32) := [(0, 0, 1), (1, -1, 0), (2, 0, -1), (3, 1, 0)]

def macrosDig : Checked Executed := do
  let (x, y) ← ctx.beside (dirOffset ctx.pos.dir)
  let cell ← ctx.world.getTyped (ctx.world.getCell x y)
  if cell.isDiggable then return ⟨prog, [dig ctx], some ctx.directActionDelayUs, .boolResult true⟩
  else return ⟨prog, [], none, .none⟩

def macrosHeal : Checked Executed :=
  if (0 : Int64) < ctx.crystals[2] ∧ ctx.health < ctx.maxHealth then
    some ⟨prog, [.heal ctx.player ctx.session], some ctx.directActionDelayUs, .boolResult true⟩
  else some ⟨prog, [], none, .none⟩

/-- The player turns to the first crystal around it and digs there from then on. -/
def mineAround : Checked Executed := do
  match ← findCrystal ctx dirz with
  | some dir => digToward prog ctx { prog with macrosTemplate := some dir } dir
  | none => return ⟨{ prog with macrosTemplate := none }, [], none, .none⟩

def macrosMine : Checked Executed := do
  let ahead ← if prog.macrosTemplate.isSome then findCrystal ctx [(ctx.pos.dir, dirOffset ctx.pos.dir)] else some none
  if ahead.isSome then return ⟨prog, [dig ctx], some ctx.directActionDelayUs, .boolResult true⟩
  else mineAround prog ctx

def macrosGun : Checked Executed := do
  let (x, y) ← ctx.beside (dirOffset ctx.pos.dir)
  return ⟨prog, [.fillGun ctx.player ctx.session x y], some ctx.directActionDelayUs, .boolResult true⟩

def macrosDigAround : Checked Executed := do
  let leftDir ← remI32 (← addI32 ctx.pos.dir 3) 4
  let rightDir ← remI32 (← addI32 ctx.pos.dir 1) 4
  match ← findCrystal ctx ([leftDir, rightDir, ctx.pos.dir].map (fun dir => (dir, dirOffset dir))) with
  | some dir => digToward prog ctx prog dir
  | none => return ⟨prog, [], none, .none⟩

def stop : Checked Executed :=
  some ⟨prog.stopProgram, [.setProgrammatorStatus ctx.session false, .setHandMode ctx.session false], none, .none⟩

/-- The packet of the signal. -/
def bibika : List UInt8 := [8, 0, 0, 0, 85, 66, 66, 95]

def beep : Checked Executed :=
  some ⟨prog, (ctx.session.map (fun session => ProgrammatorAction.send session bibika)).toList, none, .none⟩

def handMode (enabled : Bool) : Checked Executed :=
  some ⟨{ prog with handModeActive := enabled }, [.setHandMode ctx.session enabled], none, .none⟩

def executeAction (action : PAction) : Checked Executed :=
  match action.actionType with
  | .moveDown => moveBy prog ctx (0, 1)
  | .moveUp => moveBy prog ctx (0, -1)
  | .moveRight => moveBy prog ctx (1, 0)
  | .moveLeft => moveBy prog ctx (-1, 0)
  | .moveForward => moveBy prog ctx (dirOffset ctx.pos.dir)
  | .rotateDown => turnTo prog ctx 0
  | .rotateUp => turnTo prog ctx 2
  | .rotateLeft => turnTo prog ctx 1
  | .rotateRight => turnTo prog ctx 3
  | .rotateLeftRelative => turnTo prog ctx (byDir ctx 3 0 1 2)
  | .rotateRightRelative => turnTo prog ctx (byDir ctx 1 2 3 0)
  | .rotateRandom => turnTo prog ctx (.ofNat ctx.randomDir)
  | .dig => direct prog ctx (dig ctx)
  | .buildBlock => buildOf prog ctx "G"
  | .buildPillar => buildOf prog ctx "O"
  | .buildRoad => buildOf prog ctx "R"
  | .buildMilitaryBlock => buildOf prog ctx "V"
  | .geology => direct prog ctx (.geo ctx.player ctx.session)
  | .heal => direct prog ctx (.heal ctx.player ctx.session)
  | .stop => stop prog ctx
  | .shiftUp => shiftBy prog (0, -1)
  | .shiftDown => shiftBy prog (0, 1)
  | .shiftRight => shiftBy prog (1, 0)
  | .shiftLeft => shiftBy prog (-1, 0)
  | .shiftForward => shiftBy prog (byDir ctx 0 (-1) 0 1, byDir ctx (-1) 0 1 0)
  | .checkUp => checkAt prog (0, -1)
  | .checkDown => checkAt prog (0, 1)
  | .checkRight => checkAt prog (1, 0)
  | .checkLeft => checkAt prog (-1, 0)
  | .checkUpLeft => checkAt prog (-1, -1)
  | .checkUpRight => checkAt prog (1, -1)
  | .checkDownLeft => checkAt prog (-1, 1)
  | .checkDownRight => checkAt prog (1, 1)
  | .checkForward => checkAt prog (byDir ctx 0 (-1) 0 1, byDir ctx 1 0 (-1) 0)
  | .checkLeftRelative => checkAt prog (byDir ctx (-1) 0 1 0, byDir ctx 0 1 0 (-1))
  | .checkRightRelative => checkAt prog (byDir ctx 1 0 (-1) 0, byDir ctx 0 (-1) 0 1)
  | .isEmpty => cellDefIs prog ctx ProgrammatorCell.isEmpty
  | .isNotEmpty => cellDefIs prog ctx (fun cell => !cell.isEmpty)
  | .isCrystal => cellIs prog ctx CellType.isCrystal
  | .isBoulder => cellDefIs prog ctx ProgrammatorCell.isBoulder
  | .isSand => cellDefIs prog ctx ProgrammatorCell.isSand
  | .isBreakableRock => cellDefIs prog ctx ProgrammatorCell.isDiggable
  | .isUnbreakable => cellDefIs prog ctx (fun cell => !cell.isEmpty && !cell.isDiggable)
  | .isFalling => cellDefIs prog ctx (fun cell => cell.isSand || cell.isBoulder)
  | .isRoad => roadIs prog ctx
  | .isBox => cellIs prog ctx (· == 90)
  | .isGreenBlock => cellIs prog ctx (· == 101)
  | .isYellowBlock => cellIs prog ctx (· == 102)
  | .isRedBlock => cellIs prog ctx (· == 105)
  | .isPillar => cellIs prog ctx (· == 49)
  | .isQuadBlock => cellIs prog ctx (· == 48)
  | .isRedRock => cellIs prog ctx (· == 117)
  | .isBlackRock => cellIs prog ctx (· == 114)
  | .isAcid => cellIs prog ctx CellType.isAcid
  | .isSlime => cellIs prog ctx CellType.isSlime
  | .isInGun => cellIs prog ctx (fun _ => false)
  | .isLivingCrystal => cellIs prog ctx CellType.isLivingCrystal
  | .isHpLower100 => conditionIs prog (ctx.health < ctx.maxHealth)
  | .isHpLower50 => conditionIs prog (ctx.health < ctx.maxHealth / 2)
  | .goTo | .runSub | .runFunction | .runState | .runOnRespawn =>
      some ⟨prog, [], none, .label action.label⟩
  | .runIfTrue => runIf prog false action.label
  | .runIfFalse => runIf prog true action.label
  | .returnFunction =>
      some ⟨prog, [], none, .boolResult ((prog.function.bind PFunction.state).getD false)⟩
  | .or => some ⟨prog.modifyCurrent (fun f => { f with lastStateAction := some .or }), [], none, .none⟩
  | .and => some ⟨prog.modifyCurrent (fun f => { f with lastStateAction := some .and }), [], none, .none⟩
  | .beep => beep prog ctx
  | .enableAutoDig => request prog (.setAutoDig ctx.player ctx.session true)
  | .disableAutoDig => request prog (.setAutoDig ctx.player ctx.session false)
  | .enableAgression => request prog (.setAggression ctx.player ctx.session true)
  | .disableAgression => request prog (.setAggression ctx.player ctx.session false)
  | .handModeOn => handMode prog ctx true
  | .handModeOff => handMode prog ctx false
  | .macrosDig => macrosDig prog ctx
  | .macrosHeal => macrosHeal prog ctx
  | .macrosMine => macrosMine prog ctx
  | .macrosGun => macrosGun prog ctx
  | .macrosDigAround => macrosDigAround prog ctx
  | .writableState | .writableStateLower | .writableStateMore => executeWritableState prog ctx action
  | _ => some ⟨prog, [], none, .none⟩

end Actions

section Results

variable (prog : ProgrammatorState)

/-- The program goes on at the start point. -/
def ProgrammatorState.toStartpoint : ProgrammatorState :=
  { prog with currentFunction := prog.startpoint.1 }.modifyCurrent (fun f => { f with current := prog.startpoint.2 })

def handleGotoLabel (label : String) : ProgrammatorState :=
  if label ∈ prog.currentProg then
    if label = "" then (prog.modifyCurrent PFunction.reset).toStartpoint
    else { prog.modifyCurrent PFunction.reset with currentFunction := label }
  else prog.toStartpoint

/-- The offset that a called function starts with, where one was built up. -/
def ProgrammatorState.handOffset (name : String) : Checked ProgrammatorState :=
  if prog.shiftX ≠ 0 ∨ prog.shiftY ≠ 0 ∨ prog.checkX ≠ 0 ∨ prog.checkY ≠ 0 then do
    let offset := (← addI32 prog.shiftX prog.checkX, ← addI32 prog.shiftY prog.checkY)
    return { prog with currentProg := prog.currentProg.modify name (fun f => { f with startoffset := offset }) }
  else some prog

def handleLabelResult (actionType : ActionType) (label : String) : Checked ProgrammatorState :=
  let called (p : ProgrammatorState) (f : PFunction → PFunction) : ProgrammatorState :=
    { p with
      currentProg := p.currentProg.modify label (fun g => { f g with calledFrom := some prog.currentFunction })
      currentFunction := label }
  match actionType with
  | .goTo => some (handleGotoLabel prog label)
  | .runSub => if label ∈ prog.currentProg then some (called prog id) else some prog
  | .runFunction =>
      if label ∈ prog.currentProg then do
        let offered ← prog.handOffset label
        return called offered id
      else some prog
  | .runState =>
      if label ∈ prog.currentProg then do
        let offered ← prog.handOffset label
        return called offered (fun g =>
          { g with
            state := prog.function.bind PFunction.state
            lastStateAction := prog.function.bind PFunction.lastStateAction })
      else some prog
  | .runIfTrue | .runIfFalse =>
      if label ∈ prog.currentProg then
        let left := prog.modifyCurrent PFunction.reset
        if label = "" then some left.toStartpoint
        else
          let calledFrom := left.function.bind PFunction.calledFrom
          some { left with
            currentProg := left.currentProg.modify label (fun f => { f with calledFrom := calledFrom })
            currentFunction := label }
      else some prog
  | .runOnRespawn => if label ∈ prog.currentProg then some { prog with gotoDeath := some label } else some prog
  | _ => some prog

def handleBoolResult (actionType : ActionType) (state : Bool) : ProgrammatorState :=
  match actionType with
  | .returnFunction =>
      let left := prog.modifyCurrent (fun f => { f.reset with startoffset := (0, 0) })
      match left.function.bind PFunction.calledFrom with
      | some caller =>
          { left with currentFunction := caller }.modifyCurrent (fun f =>
            { f with state := some state, startoffset := (0, 0) })
      | none => left
  | .macrosDig | .macrosHeal | .macrosMine | .macrosGun | .macrosDigAround =>
      if state then prog.modifyCurrent (fun f => { f with current := f.current - 1 }) else prog
  | _ => prog

def handleNoneResult (actionType : ActionType) : Checked ProgrammatorState :=
  match actionType with
  | .checkDown | .checkUp | .checkRight | .checkLeft | .checkDownLeft | .checkDownRight | .checkUpLeft
  | .checkUpRight | .shiftUp | .shiftLeft | .shiftDown | .shiftRight | .shiftForward =>
      some (prog.modifyCurrent (fun f => { f with startoffset := (0, 0) }))
  | .return =>
      let left := prog.modifyCurrent PFunction.reset
      match left.function.bind PFunction.calledFrom with
      | some caller => some { left with currentFunction := caller }
      | none => some left
  | .returnState =>
      let left := prog.modifyCurrent PFunction.reset
      match left.function.bind PFunction.calledFrom with
      | some caller => do
          let offered ← left.handOffset caller
          return { offered with
            currentProg := offered.currentProg.modify caller (fun f =>
              { f with
                state := left.function.bind PFunction.state
                lastStateAction := left.function.bind PFunction.lastStateAction })
            currentFunction := caller }
      | none => some left
  | .start => some { prog with startpoint := (prog.currentFunction, (prog.function.map PFunction.current).getD 0) }
  | .flip => some { prog with flipState := !prog.flipState }
  | _ => some prog

end Results

/-- What a due entry leaves: the program, the requests, when it is due again, whether it is to be saved. -/
structure Ticked where
  prog : ProgrammatorState
  queue : List ProgrammatorAction
  due : Option Nat
  dirty : Bool

section Tick

variable (prog : ProgrammatorState) (ctx : ProgrammatorContext)

def scheduleNextStep (queue : List ProgrammatorAction) (delay : Option Nat) : Ticked :=
  if prog.running then
    let deadline := nextProgrammatorDeadline ctx.now delay
    ⟨{ prog with delay := deadline }, queue, some deadline, true⟩
  else ⟨prog, queue, none, true⟩

def handleResult (action : PAction) (executed : Executed) : Checked ProgrammatorState :=
  match executed.result with
  | .label label => handleLabelResult executed.prog action.actionType label
  | .boolResult state => some (handleBoolResult executed.prog action.actionType state)
  | .none => handleNoneResult executed.prog action.actionType

/-- The program steps over the action before it runs. -/
def ProgrammatorState.fetched : ProgrammatorState := prog.modifyCurrent (fun f => { f with current := f.current + 1 })

def runAction (action : PAction) : Checked Ticked := do
  let executed ← executeAction prog ctx action
  let handled ← handleResult action executed
  return scheduleNextStep handled ctx executed.queue executed.delay

def ProgrammatorState.isDue (dueAt : Nat) : Bool :=
  0 < ctx.health && prog.running && prog.delay == dueAt && decide (prog.delay ≤ ctx.now)

/-- The round of the system for one entry of its batch. -/
def programmatorSystem (dueAt : Nat) : Checked Ticked :=
  if prog.isDue ctx dueAt then
    match prog.function with
    | none => some ⟨{ prog with running := false }, [], none, false⟩
    | some f =>
        if f.actions.length = 0 ∨ f.actions.length ≤ f.current then do
          let next ← (prog.modifyCurrent PFunction.reset).nextFunction
          return scheduleNextStep next ctx [] none
        else do
          let action ← f.actions[f.current]?
          runAction prog.fetched ctx action
  else some ⟨prog, [], none, false⟩

/-- Where the player comes back to life for free, the program may go on in a function of its own. -/
def ProgrammatorState.die (isFreeResp : Bool) : ProgrammatorState :=
  if prog.running then
    match prog.gotoDeath.filter (fun label => isFreeResp && decide (label ∈ prog.currentProg)) with
    | some label => { prog.modifyCurrent PFunction.reset with currentFunction := label }
    | none => { prog with running := false }
  else prog

end Tick

/-- The programs of the players, with what they asked for, when they are due, and which are to be saved. -/
structure Programmators where
  states : Entity → Option ProgrammatorState
  queue : List ProgrammatorAction
  due : List (Entity × Nat)
  dirty : List Entity

inductive ProgrammatorEvent
  /-- A `PROG` packet of a client is decoded. -/
  | packet (payload : List UInt8)
  /-- A player connects; the program may be that of a snapshot. -/
  | connect (entity : Entity) (now : Nat) (snapshot : Option ProgrammatorState)
  | run (entity : Entity) (data : Source) (now : Nat)
  | due (entity : Entity) (dueAt : Nat) (ctx : ProgrammatorContext)
  | stop (entity : Entity)
  /-- The program of the player is deleted. -/
  | clear (entity : Entity)
  | death (entity : Entity) (isFreeResp : Bool)

namespace Programmators

variable (codec : ProgramCodec)

def set (s : Programmators) (entity : Entity) (prog : ProgrammatorState) : Programmators :=
  { s with states := Function.update s.states entity (some prog) }

def alter (s : Programmators) (entity : Entity) (f : ProgrammatorState → ProgrammatorState) : Programmators :=
  match s.states entity with
  | some prog => s.set entity (f prog)
  | none => s

def record (s : Programmators) (entity : Entity) (ticked : Ticked) : Programmators :=
  { s.set entity ticked.prog with
    queue := s.queue ++ ticked.queue
    due := s.due ++ (ticked.due.map (fun due => (entity, due))).toList
    dirty := if ticked.dirty ∧ entity ∉ s.dirty then s.dirty ++ [entity] else s.dirty }

def step (s : Programmators) : ProgrammatorEvent → Checked Programmators
  | .packet payload => do
      let _ ← decodeProgPacket payload
      return s
  | .connect entity now snapshot =>
      some (s.set entity ((snapshot.map (fun prog => { prog with delay := now, startedAt := now })).getD (.new now)))
  | .run entity data now =>
      match s.states entity with
      | some prog => do return s.set entity (← prog.runProgram codec data now)
      | none => some s
  | .due entity dueAt ctx =>
      match s.states entity with
      | some prog => do return s.record entity (← programmatorSystem prog ctx dueAt)
      | none => some s
  | .stop entity => some (s.alter entity (fun prog => if prog.running then prog.stopProgram else prog))
  | .clear entity => some (s.alter entity (fun prog => { prog with running := false }))
  | .death entity isFreeResp => some (s.alter entity (fun prog => prog.die isFreeResp))

end Programmators

end OpenMines

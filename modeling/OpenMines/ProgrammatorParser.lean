import OpenMines.Lib.LittleEndian
import OpenMines.Lib.Text
import OpenMines.Lib.Utf8
import OpenMines.Programmator

namespace OpenMines

open Lib.CheckedInt Lib.Utf8

section Packets

/-- The client's header: the length of a compiled block, the id of the program, the block, the source. -/
def decodeProgPacket (payload : List UInt8) : Checked (Option (Int32 × List Char)) :=
  if payload.length < 8 then some none
  else do
    let len := usizeOfI32 (Lib.LittleEndian.i32OfBytes (payload.take 4))
    let id := Lib.LittleEndian.i32OfBytes ((payload.drop 4).take 4)
    let sourceStart ← usize (8 + len)
    if payload.length < sourceStart then return none
    let source ← sliceFrom payload sourceStart
    return some (id, fromUtf8Lossy source)

/-- The decoders of other packages that a binary program goes through. -/
structure ProgramCodec where
  base64 : List Char → Option (List UInt8)
  lzmaDecompress : List UInt8 → Option (List UInt8)

def decompressed (codec : ProgramCodec) (data : List Char) : Option (List UInt8) :=
  if data = [] then none else (codec.base64 data).bind codec.lzmaDecompress

/-- The number of actions, as the first bytes tell it. -/
def actionCount (bytes : List UInt8) : Int32 := Lib.LittleEndian.i32OfBytes (bytes.take 4)

def decodeNormalPayload (codec : ProgramCodec) (data : List Char) :
    Checked (Option (List UInt8 × Nat × List (List Char))) :=
  match decompressed codec data with
  | none => some none
  | some bytes =>
      if bytes.length < 4 then some none
      else do
        let num := usizeOfI32 (actionCount bytes)
        let labelsStart ← usize (4 + num)
        if bytes.length < labelsStart then return none
        let labelsStr ←
          if labelsStart < bytes.length then (sliceFrom bytes labelsStart).map fromUtf8Lossy else some []
        return some (bytes, num, labelsStr.splitOn ':')

end Packets

/-- What the parsers build: the functions with their order, and the one that is written to. -/
structure ParseState where
  functions : Functions
  functionOrder : List String
  currentFunc : String

namespace ParseState

def start : ParseState := ⟨AList.singleton "" .new, [""], ""⟩

def push (p : ParseState) (actionType : ActionType) (label : List Char) (num : Int32) : ParseState :=
  { p with functions := p.functions.modify p.currentFunc (fun f => f.push ⟨actionType, String.ofList label, num⟩) }

def pushTextAction (p : ParseState) (actionType : ActionType) : ParseState := p.push actionType [] 0

end ParseState

section Normal

structure NormalState extends ParseState where
  containsNextrow : Bool
  index : Nat

/-- The name and the number of a label; the number follows an `@`. -/
def parseLabel (label : List Char) : Checked (List Char × Int32) :=
  match findByte '@' label with
  | some atPos => do
      let name ← takeBytes label atPos
      let number ← dropBytes label (atPos + 1)
      return (name, (Lib.Text.parseI32 (String.ofList number)).getD 0)
  | none => some (label, 0)

/-- The label of an action; it is `0` where no label is left. -/
def labelOf (labels : List (List Char)) (i : Nat) : Checked (List Char × Int32) :=
  match labels[i]? with
  | some label => parseLabel label
  | none => some (['0'], 0)

def NormalState.add (p : NormalState) (atype : ActionType) (name : List Char) (number : Int32) : NormalState :=
  match atype with
  | .nextRow => { p with containsNextrow := true }
  | .createFunction =>
      { p with
        functions := p.functions.insert (String.ofList name) .new
        functionOrder := p.functionOrder ++ [String.ofList name]
        currentFunc := String.ofList name
        index := 0 }
  | .writableState | .writableStateLower | .writableStateMore =>
      { p with toParseState := p.toParseState.push atype name number }
  | .runFunction | .runIfFalse | .runIfTrue | .runOnRespawn | .runState | .runSub | .goTo =>
      { p with toParseState := p.toParseState.push atype name 0 }
  | .none => p
  | _ => { p with toParseState := p.toParseState.pushTextAction atype }

/-- After every fifteenth action a row ends, with a jump unless one is there. -/
def NormalState.endRow (p : NormalState) : NormalState :=
  if 0 < p.index ∧ p.index % 15 = 0 then
    let shouldAddGoto := (p.functions.lookup p.currentFunc).elim false (fun f =>
      !f.actions.isEmpty && f.actions.getLast?.all (fun a => a.actionType != .goTo) && !p.containsNextrow)
    { p with
      toParseState := if shouldAddGoto then p.toParseState.pushTextAction .goTo else p.toParseState
      index := 0
      containsNextrow := false }
  else p

def normalStep (bytes : List UInt8) (labels : List (List Char)) (p : NormalState) (i : Nat) :
    Checked NormalState := do
  let atype := getActionType (← bytes[← usize (i + 4)]?)
  let (name, number) ← labelOf labels i
  let q := (p.add atype name number).endRow
  return { q with index := ← usize (q.index + 1) }

def parseNormal (codec : ProgramCodec) (data : List Char) : Checked (Option (Functions × List String)) := do
  match ← decodeNormalPayload codec data with
  | none => return none
  | some (bytes, num, labels) =>
      let p ← (List.range num).foldlM (normalStep bytes labels) ⟨.start, false, 0⟩
      return some (p.functions, p.functionOrder)

end Normal

section TextFormat

/-- A text of the program; its length is that of an allocation. -/
structure Source where
  chars : List Char
  fits : byteLen chars ≤ 9223372036854775807

def parseLabelUntil (context : List Char) (start : Nat) (delimiter : Char) :
    Checked (Option (List Char × Nat)) :=
  match dropBytes context start with
  | none => some none
  | some rest =>
      match findByte delimiter rest with
      | none => some none
      | some stop => do
          let label ← takeBytes rest stop
          let next ← usize ((← usize (start + stop)) + delimiter.utf8Size)
          return some (label, next)

/-- The words of the format, in the order of the tests, with the bytes that each takes. -/
def textTokens : List (String × Nat × ActionType) :=
  [("CCW;", 4, .rotateLeftRelative), ("CW;", 3, .rotateRightRelative), ("RAND;", 5, .rotateRandom),
    ("DIGG;", 5, .macrosDig), ("BUILD;", 6, .macrosBuild), ("HEAL;", 5, .macrosHeal),
    ("MINE;", 5, .macrosMine), ("FLIP;", 5, .flip), ("BEEP;", 5, .beep), ("AUT+", 4, .enableAutoDig),
    ("AUT-", 4, .disableAutoDig), ("AGR+", 4, .enableAgression), ("ARG+", 4, .enableAgression),
    ("AGR-", 4, .disableAgression), ("ARG-", 4, .disableAgression), ("=hp50", 5, .isHpLower50),
    ("=hp-", 4, .isHpLower100), ("B1;", 3, .buildBlock), ("B2;", 3, .buildPillar),
    ("B3;", 3, .buildRoad), ("VB;", 3, .buildMilitaryBlock), ("GEO;", 4, .onlineGeo),
    ("ZZ;", 3, .onlineZz), ("C190;", 5, .onlineC190), ("POLY;", 5, .onlinePoly), ("UP;", 3, .onlineUp),
    ("CRAFT;", 6, .onlineCraft), ("NANO;", 5, .onlineNano), ("REM;", 4, .onlineRem),
    ("iw", 2, .inventoryUp), ("ia", 2, .inventoryLeft), ("is", 2, .inventoryDown),
    ("id", 2, .inventoryRight), ("Hand+", 5, .handModeOn), ("Hand-", 5, .handModeOff),
    ("RESTART;", 8, .restartRow), ("OR", 2, .or), ("AND", 3, .and)]

def textChars : List (Char × ActionType) :=
  [('w', .rotateUp), ('a', .rotateLeft), ('s', .rotateDown), ('d', .rotateRight), ('z', .dig),
    ('b', .buildBlock), ('q', .buildPillar), ('r', .buildRoad), ('g', .geology), ('h', .heal),
    (',', .nextRow)]

def viewOptions : List (String × ActionType) :=
  [("W", .checkUp), ("A", .checkLeft), ("S", .checkDown), ("D", .checkRight), ("w", .shiftUp),
    ("a", .shiftLeft), ("s", .shiftDown), ("d", .shiftRight), ("AS", .checkDownLeft),
    ("WA", .checkUpLeft), ("DW", .checkUpRight), ("SD", .checkDownRight), ("F", .checkForward),
    ("f", .shiftForward), ("r", .checkRightRelative), ("l", .checkLeftRelative)]

def conditionKinds : List (Char × ActionType) :=
  [('n', .isNotEmpty), ('e', .isEmpty), ('f', .isFalling), ('c', .isCrystal), ('a', .isLivingCrystal),
    ('b', .isBoulder), ('s', .isSand), ('k', .isBreakableRock), ('d', .isUnbreakable), ('A', .isAcid),
    ('B', .isRedRock), ('K', .isBlackRock), ('g', .isGreenBlock), ('y', .isYellowBlock),
    ('r', .isRedBlock), ('o', .isPillar), ('q', .isQuadBlock), ('R', .isRoad), ('x', .isBox),
    ('G', .checkGun)]

def moveKinds : List (Char × ActionType) :=
  [('W', .moveUp), ('A', .moveLeft), ('S', .moveDown), ('D', .moveRight), ('F', .moveForward)]

/-- The comparison or the assignment between brackets. -/
def stateAction (p : ParseState) (expr : List Char) : ParseState :=
  let write (actionType : ActionType) (parts : String × String) : ParseState :=
    match Lib.Text.parseI32 parts.2 with
    | some num => p.push actionType parts.1.toList num
    | none => p
  match Lib.Text.splitOnce (String.ofList expr) '=' with
  | some parts => write .writableState parts
  | none =>
      match Lib.Text.splitOnce (String.ofList expr) '<' with
      | some parts => write .writableStateLower parts
      | none =>
          match Lib.Text.splitOnce (String.ofList expr) '>' with
          | some parts => write .writableStateMore parts
          | none => p

/-- A function begins, unless it is there already. -/
def beginFunction (p : ParseState) (label : List Char) : ParseState :=
  let name := String.ofList label
  if name ∈ p.functions then { p with currentFunc := name }
  else
    { functions := p.functions.insert name .new, functionOrder := p.functionOrder ++ [name],
      currentFunc := name }

section Steps

variable (context : List Char) (i : Nat) (p : ParseState)

/-- A character that means nothing is passed over. -/
def skipChar (ch : Char) : Checked (Nat × ParseState) := do
  return (← usize (i + ch.utf8Size), p)

/-- A label up to its delimiter and what it does, or else the next choice. -/
def readLabel (start : Nat) (delimiter : Char) (act : List Char → ParseState)
    (otherwise : Checked (Nat × ParseState)) : Checked (Nat × ParseState) := do
  match ← parseLabelUntil context start delimiter with
  | some (label, next) => return (next, act label)
  | none => otherwise

def readLabelAction (start : Nat) (delimiter : Char) (actionType : ActionType) (ch : Char) :
    Checked (Nat × ParseState) :=
  readLabel context start delimiter (fun label => p.push actionType label 0) (skipChar i p ch)

/-- The text from an offset on begins with a word. -/
def startsAt (start : Nat) (word : String) : Bool :=
  (dropBytes context start).any (fun rest => word.toList.isPrefixOf rest)

def charAt (start : Nat) : Option Char := (dropBytes context start).bind List.head?

/-- A character from a table stands behind `ch`. -/
def readKind (kinds : List (Char × ActionType)) (ch : Char) (otherwise : Checked (Nat × ParseState)) :
    Checked (Nat × ParseState) := do
  let after ← usize (i + ch.utf8Size)
  match charAt context after with
  | some kind =>
      match kinds.lookup kind with
      | some action => return (← usize (after + kind.utf8Size), p.pushTextAction action)
      | none => otherwise
  | none => otherwise

/-- The action that begins with a character which no word begins with. -/
def charStep (ch : Char) : Checked (Nat × ParseState) := do
  let after ← usize (i + ch.utf8Size)
  match ch with
  | '?' => readLabelAction context i p after '<' .runIfFalse ch
  | '(' => readLabel context after ')' (stateAction p) (skipChar i p ch)
  | '!' =>
      if startsAt context after "?" then
        readLabelAction context i p (← usize (after + '?'.utf8Size)) '<' .runIfTrue ch
      else if startsAt context after "\x7b" then
        readLabelAction context i p (← usize (after + '{'.utf8Size)) '}' .debugMessage ch
      else skipChar i p ch
  | '[' =>
      readLabel context after ']' (fun option =>
        match viewOptions.lookup (String.ofList option) with
        | some action => p.pushTextAction action
        | none => p) (skipChar i p ch)
  | '#' =>
      if startsAt context after "S" then return (← usize (after + 'S'.utf8Size), p.pushTextAction .start)
      else if startsAt context after "E" then return (← usize (after + 'E'.utf8Size), p.pushTextAction .stop)
      else if startsAt context after "R" then
        readLabelAction context i p (← usize (after + 'R'.utf8Size)) '<' .runOnRespawn ch
      else skipChar i p ch
  | ':' =>
      if startsAt context after ">" then
        readLabelAction context i p (← usize (after + '>'.utf8Size)) '>' .runSub ch
      else skipChar i p ch
  | '-' =>
      if startsAt context after ">" then
        readLabelAction context i p (← usize (after + '>'.utf8Size)) '>' .runFunction ch
      else skipChar i p ch
  | '=' =>
      let kind := readKind context i p conditionKinds ch (skipChar i p ch)
      if startsAt context after ">" then
        readLabel context (← usize (after + '>'.utf8Size)) '>' (fun label => p.push .runState label 0) kind
      else kind
  | '>' => readLabelAction context i p after '|' .goTo ch
  | '|' => readLabel context after ':' (beginFunction p) (skipChar i p ch)
  | '<' =>
      if startsAt context after "|" then return (← usize (after + '|'.utf8Size), p.pushTextAction .return)
      else if startsAt context after "-|" then return (← usize (after + 2), p.pushTextAction .returnFunction)
      else if startsAt context after "=|" then return (← usize (after + 2), p.pushTextAction .returnState)
      else skipChar i p ch
  | '^' => readKind context i p moveKinds ch (skipChar i p ch)
  | '{' => readLabelAction context i p after '}' .debugPause ch
  | _ =>
      match textChars.lookup ch with
      | some action => skipChar i (p.pushTextAction action) ch
      | none => skipChar i p ch

def textStep (ch : Char) (rest : List Char) : Checked (Nat × ParseState) :=
  match textTokens.find? (fun token => token.1.toList.isPrefixOf (ch :: rest)) with
  | some token => do return (← usize (i + token.2.1), p.pushTextAction token.2.2)
  | none => charStep context i p ch

end Steps

/-- The loop over the text; it is given more rounds than it has bytes. -/
def textLoop (context : List Char) : Nat → Nat → ParseState → Checked (Option ParseState)
  | 0, _, _ => none
  | rounds + 1, i, p =>
      if i < byteLen context then
        match dropBytes context i with
        | none => some none
        | some [] => some (some p)
        | some (ch :: rest) => do
            let (next, q) ← textStep context i p ch rest
            textLoop context rounds next q
      else some (some p)

def parseText (data : List Char) : Checked (Option (Functions × List String)) :=
  match data with
  | '$' :: context => do
      match ← textLoop context (byteLen context + 1) 0 .start with
      | none => return none
      | some p => return some (p.functions, p.functionOrder)
  | _ => some none

end TextFormat

/-- The program is read and starts; what ran before stops in any case. -/
def ProgrammatorState.runProgram (codec : ProgramCodec) (s : ProgrammatorState) (data : Source) (now : Nat) :
    Checked ProgrammatorState := do
  let stopped := { s with running := false, currentProg := ∅, functionOrder := [], currentFunction := "" }
  let parsed ← if data.chars.head? = some '$' then parseText data.chars else parseNormal codec data.chars
  match parsed with
  | some (functions, order) =>
      let loaded := { stopped with currentProg := functions, functionOrder := order, delay := now, startedAt := now }
      return { loaded.dropState with running := true }
  | none => return stopped.dropState

end OpenMines

import OpenMines.DurabilityLayer
import OpenMines.Journal
import OpenMines.MapCells

namespace OpenMines

open MapFormat Journal

def emptyCell : UInt8 := 32

structure CellDef where
  isEmpty : Bool
  durability : UInt32
  deriving DecidableEq

structure WorldCell where
  cellType : UInt8
  durability : UInt32
  deriving DecidableEq

/-- The `f32` operations of `damageCell`, on bits. -/
structure FloatOps where
  sub : UInt32 → UInt32 → UInt32
  leZero : UInt32 → Bool

/-- How the write of a journal record ends; a failed one leaves some bytes. -/
inductive AppendOutcome
  | ok
  | failed (bytes : Fin journalRecordLen)
  deriving DecidableEq

structure World where
  chunksW : UInt32
  chunksH : UInt32
  cells : MapStore
  road : MapStore
  durability : Layer
  /-- the bytes of the journal file -/
  journal : List UInt8
  cellDefs : List CellDef
  deriving DecidableEq

namespace World

def cellsWidth (w : World) : UInt32 := w.chunksW * chunkSize

def cellsHeight (w : World) : UInt32 := w.chunksH * chunkSize

def validCoord (w : World) (x y : Int32) : Bool :=
  decide (0 ≤ x ∧ 0 ≤ y ∧ x.toUInt32 < w.cellsWidth ∧ y.toUInt32 < w.cellsHeight)

def getCell (w : World) (x y : Int32) : UInt8 :=
  if w.validCoord x y then
    let b := w.cells.getCell x y
    if b ≠ 0 then b
    else
      let r := w.road.getCell x y
      if r = 0 then emptyCell else r
  else 0

def getDurability (w : World) (x y : Int32) : UInt32 :=
  if w.validCoord x y then w.durability.word (w.durability.cellOffset x.toUInt32 y.toUInt32) else 0

/-- The definition of a cell type; nothing where the source panics. -/
def cellDef (w : World) (cellType : UInt8) : Option CellDef := w.cellDefs[cellType.toNat]?

def isEmpty (w : World) (x y : Int32) : Option Bool :=
  (w.cellDef (w.getCell x y)).map CellDef.isEmpty

/-- Append a record and tell whether that succeeded. -/
def appendRecord (w : World) (r : JournalRecord) : AppendOutcome → World × Bool
  | .ok => ({ w with journal := w.journal ++ r.encode }, true)
  | .failed n => ({ w with journal := w.journal ++ r.encode.take n }, false)

def setDurabilityDirect (w : World) (x y : Int32) (d : UInt32) : World :=
  { w with durability := w.durability.write x.toUInt32 y.toUInt32 d }

def setDurability (w : World) (x y : Int32) (d : UInt32) (io : AppendOutcome) : World :=
  if w.validCoord x y then
    let foreground := w.cells.getCell x y
    let road := w.road.getCell x y
    match w.appendRecord ⟨x, y, foreground, road, d⟩ io with
    | (w, false) => w
    | (w, true) => w.setDurabilityDirect x y d
  else w

def writeWorldCell (w : World) (x y : Int32) (cell : WorldCell) (io : AppendOutcome) : Option World :=
  if w.validCoord x y then
    (w.cellDef cell.cellType).map (fun prop =>
      let foreground := if prop.isEmpty then 0 else cell.cellType
      let road := if prop.isEmpty then cell.cellType else w.road.getCell x y
      match w.appendRecord ⟨x, y, foreground, road, cell.durability⟩ io with
      | (w, false) => w
      | (w, true) =>
        if prop.isEmpty then
          setDurabilityDirect
            { w with cells := w.cells.setCell x y 0, road := w.road.setCell x y cell.cellType }
            x y cell.durability
        else
          setDurabilityDirect { w with cells := w.cells.setCell x y cell.cellType } x y cell.durability)
  else some w

def setCellTyped (w : World) (x y : Int32) (cellType : UInt8) (io : AppendOutcome) : Option World :=
  if w.validCoord x y then
    (w.cellDef cellType).bind (fun prop =>
      w.writeWorldCell x y ⟨cellType, if prop.isEmpty then 0 else prop.durability⟩ io)
  else some w

def destroy (w : World) (x y : Int32) (io : AppendOutcome) : Option World :=
  if w.validCoord x y then
    (w.isEmpty x y).map (fun empty =>
      if empty then w
      else
        let r := w.road.getCell x y
        let road := if r = 0 then emptyCell else r
        match w.appendRecord ⟨x, y, 0, road, 0⟩ io with
        | (w, false) => w
        | (w, true) =>
          let w := { w with cells := w.cells.setCell x y 0 }
          let w := if road ≠ r then { w with road := w.road.setCell x y emptyCell } else w
          w.setDurabilityDirect x y 0)
  else some w

def destroyCellAndRoad (w : World) (x y : Int32) (io : AppendOutcome) : Option World :=
  w.writeWorldCell x y ⟨emptyCell, 0⟩ io

def damageCell (f : FloatOps) (w : World) (x y : Int32) (dmg : UInt32) (io : AppendOutcome) :
    World × Bool :=
  if w.validCoord x y then
    let d := w.durability.word (w.durability.cellOffset x.toUInt32 y.toUInt32)
    let destroyed := f.leZero (f.sub d dmg)
    let newDurability := if destroyed then 0 else f.sub d dmg
    let foreground := if destroyed then 0 else w.cells.getCell x y
    let rawRoad := w.road.getCell x y
    let road := if destroyed ∧ rawRoad = 0 then emptyCell else rawRoad
    match w.appendRecord ⟨x, y, foreground, road, newDurability⟩ io with
    | (w, false) => (w, false)
    | (w, true) =>
      if destroyed then
        let w := { w with cells := w.cells.setCell x y 0 }
        let w := if road ≠ rawRoad then { w with road := w.road.setCell x y emptyCell } else w
        (w.setDurabilityDirect x y 0, true)
      else (w.setDurabilityDirect x y newDurability, false)
  else (w, false)

/-- The body of the replay loop for a record inside the world. -/
def put (w : World) (r : JournalRecord) : World :=
  setDurabilityDirect
    { w with
      cells := w.cells.setCell r.x r.y r.foreground
      road := w.road.setCell r.x r.y r.road } r.x r.y r.durability

def applyJournalRecords (w : World) (records : List JournalRecord) : World :=
  records.foldl (fun w r => if w.validCoord r.x r.y then w.put r else w) w

end World

inductive Mutation
  | setCellTyped (x y : Int32) (cellType : UInt8)
  | writeWorldCell (x y : Int32) (cell : WorldCell)
  | setDurability (x y : Int32) (d : UInt32)
  | destroy (x y : Int32)
  | damageCell (x y : Int32) (dmg : UInt32)

namespace World

/-- A mutation of a world; nothing where the source panics on a cell type that
has no definition. -/
def mutate (f : FloatOps) (w : World) (io : AppendOutcome) : Mutation → Option World
  | .setCellTyped x y cellType => w.setCellTyped x y cellType io
  | .writeWorldCell x y cell => w.writeWorldCell x y cell io
  | .setDurability x y d => some (w.setDurability x y d io)
  | .destroy x y => w.destroy x y io
  | .damageCell x y dmg => some (w.damageCell f x y dmg io).1

/-- What a mutation with a journaled record did: every layer holds the record's
image of the coordinate, and nothing else changed. -/
structure Applied (w : World) (r : JournalRecord) (v : World) : Prop where
  valid : w.validCoord r.x r.y = true
  journal : v.journal = w.journal ++ r.encode
  cells : v.cells = w.cells.setCell r.x r.y r.foreground ∨
    v.cells = w.cells ∧ w.cells.getCell r.x r.y = r.foreground
  road : v.road = w.road.setCell r.x r.y r.road ∨
    v.road = w.road ∧ w.road.getCell r.x r.y = r.road
  durability : v.durability = w.durability.write r.x.toUInt32 r.y.toUInt32 r.durability
  chunksW : v.chunksW = w.chunksW
  chunksH : v.chunksH = w.chunksH
  cellDefs : v.cellDefs = w.cellDefs

/-- The journal after a failed append. -/
def torn (w : World) (r : JournalRecord) (n : Fin journalRecordLen) : World :=
  { w with journal := w.journal ++ r.encode.take n }

theorem writeWorldCell_applied {w v : World} {x y : Int32} {cell : WorldCell}
    (h : w.writeWorldCell x y cell .ok = some v) : v = w ∨ ∃ r, w.Applied r v := by
  unfold writeWorldCell at h
  split at h
  · rename_i hvalid
    obtain ⟨prop, -, rfl⟩ := Option.map_eq_some_iff.mp h
    right
    simp only [appendRecord]
    split
    · rename_i he
      refine ⟨⟨x, y, 0, cell.cellType, cell.durability⟩, ?_⟩
      exact ⟨hvalid, by simp [setDurabilityDirect], Or.inl rfl, Or.inl rfl, rfl, rfl, rfl, rfl⟩
    · rename_i he
      refine ⟨⟨x, y, cell.cellType, w.road.getCell x y, cell.durability⟩, ?_⟩
      exact ⟨hvalid, by simp [setDurabilityDirect], Or.inl rfl, Or.inr ⟨rfl, rfl⟩, rfl, rfl, rfl, rfl⟩
  · cases h
    exact Or.inl rfl

theorem setCellTyped_applied {w v : World} {x y : Int32} {cellType : UInt8}
    (h : w.setCellTyped x y cellType .ok = some v) : v = w ∨ ∃ r, w.Applied r v := by
  unfold setCellTyped at h
  split at h
  · obtain ⟨prop, -, hwrite⟩ := Option.bind_eq_some_iff.mp h
    exact writeWorldCell_applied hwrite
  · cases h
    exact Or.inl rfl

theorem setDurability_applied (w : World) (x y : Int32) (d : UInt32) :
    w.setDurability x y d .ok = w ∨ ∃ r, w.Applied r (w.setDurability x y d .ok) := by
  unfold setDurability
  split
  · rename_i hvalid
    right
    refine ⟨⟨x, y, w.cells.getCell x y, w.road.getCell x y, d⟩, ?_⟩
    exact ⟨hvalid, rfl, Or.inr ⟨rfl, rfl⟩, Or.inr ⟨rfl, rfl⟩, rfl, rfl, rfl, rfl⟩
  · exact Or.inl rfl

theorem destroy_applied {w v : World} {x y : Int32} (h : w.destroy x y .ok = some v) :
    v = w ∨ ∃ r, w.Applied r v := by
  unfold destroy at h
  split at h
  · rename_i hvalid
    obtain ⟨empty, -, rfl⟩ := Option.map_eq_some_iff.mp h
    split
    · exact Or.inl rfl
    · right
      refine ⟨⟨x, y, 0, if w.road.getCell x y = 0 then emptyCell else w.road.getCell x y, 0⟩, ?_⟩
      simp only [appendRecord]
      by_cases hr : w.road.getCell x y = 0
      · simp only [hr, if_true, show emptyCell ≠ 0 by decide, ne_eq, not_false_eq_true]
        exact ⟨hvalid, rfl, Or.inl rfl, Or.inl rfl, rfl, rfl, rfl, rfl⟩
      · simp only [hr, if_false, ne_eq, not_true_eq_false]
        exact ⟨hvalid, rfl, Or.inl rfl, Or.inr ⟨rfl, rfl⟩, rfl, rfl, rfl, rfl⟩
  · cases h
    exact Or.inl rfl

theorem damageCell_applied (f : FloatOps) (w : World) (x y : Int32) (dmg : UInt32) :
    (w.damageCell f x y dmg .ok).1 = w ∨ ∃ r, w.Applied r (w.damageCell f x y dmg .ok).1 := by
  unfold damageCell
  split
  · rename_i hvalid
    right
    simp only [appendRecord]
    generalize f.sub (w.durability.word (w.durability.cellOffset x.toUInt32 y.toUInt32)) dmg = left
    by_cases hd : f.leZero left = true
    · simp only [hd, if_true, true_and]
      refine ⟨⟨x, y, 0, if w.road.getCell x y = 0 then emptyCell else w.road.getCell x y, 0⟩, ?_⟩
      by_cases hr : w.road.getCell x y = 0
      · simp only [hr, if_true, show emptyCell ≠ 0 by decide, ne_eq, not_false_eq_true]
        exact ⟨hvalid, rfl, Or.inl rfl, Or.inl rfl, rfl, rfl, rfl, rfl⟩
      · simp only [hr, if_false, ne_eq, not_true_eq_false]
        exact ⟨hvalid, rfl, Or.inl rfl, Or.inr ⟨rfl, rfl⟩, rfl, rfl, rfl, rfl⟩
    · simp only [hd, Bool.false_eq_true, if_false, false_and]
      refine ⟨⟨x, y, w.cells.getCell x y, w.road.getCell x y, left⟩, ?_⟩
      exact ⟨hvalid, rfl, Or.inr ⟨rfl, rfl⟩, Or.inr ⟨rfl, rfl⟩, rfl, rfl, rfl, rfl⟩
  · exact Or.inl rfl

/-- The spec of all five mutators. -/
theorem mutate_applied {f : FloatOps} {w v : World} {m : Mutation} (h : w.mutate f .ok m = some v) :
    v = w ∨ ∃ r, w.Applied r v := by
  cases m with
  | setCellTyped x y cellType => exact setCellTyped_applied h
  | writeWorldCell x y cell => exact writeWorldCell_applied h
  | setDurability x y d =>
      cases h
      exact setDurability_applied w x y d
  | destroy x y => exact destroy_applied h
  | damageCell x y dmg =>
      cases h
      exact damageCell_applied f w x y dmg

theorem writeWorldCell_failed {w v : World} {x y : Int32} {cell : WorldCell} {n : Fin journalRecordLen}
    (h : w.writeWorldCell x y cell (.failed n) = some v) : v = w ∨ ∃ r, v = w.torn r n := by
  unfold writeWorldCell at h
  split at h
  · obtain ⟨prop, -, rfl⟩ := Option.map_eq_some_iff.mp h
    exact Or.inr ⟨_, rfl⟩
  · cases h
    exact Or.inl rfl

/-- A mutation whose append failed leaves the layers as they were. -/
theorem mutate_failed {f : FloatOps} {w v : World} {m : Mutation} {n : Fin journalRecordLen}
    (h : w.mutate f (.failed n) m = some v) : v = w ∨ ∃ r, v = w.torn r n := by
  cases m with
  | setCellTyped x y cellType =>
      simp only [mutate, setCellTyped] at h
      split at h
      · obtain ⟨prop, -, hwrite⟩ := Option.bind_eq_some_iff.mp h
        exact writeWorldCell_failed hwrite
      · cases h
        exact Or.inl rfl
  | writeWorldCell x y cell => exact writeWorldCell_failed h
  | setDurability x y d =>
      cases h
      simp only [setDurability]
      split
      · exact Or.inr ⟨_, rfl⟩
      · exact Or.inl rfl
  | destroy x y =>
      simp only [mutate, destroy] at h
      split at h
      · obtain ⟨empty, -, rfl⟩ := Option.map_eq_some_iff.mp h
        split
        · exact Or.inl rfl
        · exact Or.inr ⟨_, rfl⟩
      · cases h
        exact Or.inl rfl
  | damageCell x y dmg =>
      cases h
      simp only [damageCell]
      split
      · exact Or.inr ⟨_, rfl⟩
      · exact Or.inl rfl

end World

end OpenMines

import OpenMines.MapRecover
import OpenMines.WorldReplay

namespace OpenMines

open MapFormat Journal

/-- The files of a world. -/
structure Disk where
  map : Option (List UInt8)
  road : Option (List UInt8)
  journal : Option (List UInt8)
  durability : List UInt32

namespace World

/-- What a flush that ran through leaves in memory. -/
def flushed (w : World) : World :=
  { w with
    cells := (w.cells.takeFlushBatch.map Prod.snd).getD w.cells
    road := (w.road.takeFlushBatch.map Prod.snd).getD w.road
    durability := w.durability.msyncDirtyAndClear.1
    journal := [] }

/-- One cell of the legacy split: an empty type moves from the foreground to the
road layer. Nothing where the source panics on an unknown cell type. -/
def splitLegacyCell (w : World) (x y : Int32) : Option World :=
  let cell := w.cells.getCell x y
  if cell = 0 then some w
  else
    (w.cellDef cell).map (fun prop =>
      if prop.isEmpty then { w with cells := w.cells.setCell x y 0, road := w.road.setCell x y cell }
      else w)

def splitLegacyVisibleLayer (w : World) : Option World :=
  (List.range w.cellsHeight.toNat).foldlM (fun w y =>
    (List.range w.cellsWidth.toNat).foldlM (fun w x =>
      w.splitLegacyCell (Int32.ofNat x) (Int32.ofNat y)) w) w

/-- The world as its files hold it, with the records to redo. -/
def opened (path : String) (chunksW chunksH : UInt32) (cellDefs : List CellDef) (d : Disk) :
    Except String (World × List JournalRecord) :=
  if 2 ^ 31 ≤ (chunksW * chunkSize).toNat then .error "world width overflows i32"
  else if 2 ^ 31 ≤ (chunksH * chunkSize).toNat then .error "world height overflows i32"
  else
    match readRecords path d.journal with
    | .error e => .error e
    | .ok records =>
      match MapStore.open d.map (chunksW * chunkSize).toInt32 (chunksH * chunkSize).toInt32 with
      | .error e => .error e
      | .ok cells =>
        match MapStore.open d.road (chunksW * chunkSize).toInt32 (chunksH * chunkSize).toInt32 with
        | .error e => .error e
        | .ok road =>
          .ok
            ({ chunksW, chunksH, cells, road
               durability := Layer.open d.durability chunksW chunksH
               journal := d.journal.getD []
               cellDefs }, records)

/-- Opening a world: a new one is generated, an old one is split into layers if
need be and has its journal redone; what changed is flushed. -/
def new (generate : World → World) (path : String) (chunksW chunksH : UInt32)
    (cellDefs : List CellDef) (d : Disk) : Except String World :=
  match opened path chunksW chunksH cellDefs d with
  | .error e => .error e
  | .ok (w, records) =>
    if d.map.isNone then .ok (generate w).flushed
    else
      match (if d.road.isNone then w.splitLegacyVisibleLayer.map flushed else some w) with
      | none => .error "unknown cell type id"
      | some w => if records ≠ [] then .ok (w.applyJournalRecords records).flushed else .ok w

end World

end OpenMines

import OpenMines.DurabilityCrash
import OpenMines.MapCrash
import OpenMines.WorldOpen

namespace OpenMines

open MapFormat Journal Lib.FileImage Lib.RedoLog Lib.Run

namespace MapFormat.FlushState

/-- The batch of a flush, detached when there is something to flush. -/
def detached (s : FlushState) : FlushState :=
  match s.store.takeFlushBatch with
  | none => { s with pending := none }
  | some (b, store) => { s with store, pending := some (b, b.writes) }

def written (s : FlushState) (bytes : Nat) : FlushState :=
  match s.pending with
  | none => s
  | some (b, rest) =>
    { s with file := pokes s.file (rest.take bytes), pending := some (b, rest.drop bytes) }

def committed (s : FlushState) : FlushState := { s with pending := none }

def restored (s : FlushState) : FlushState :=
  match s.pending with
  | none => s
  | some (b, _) => { s with store := s.store.restoreFlushBatch b, pending := none }

end MapFormat.FlushState

/-- A running world with its files. `flushing` tells that a flush holds the journal
lock, `synced` that it has synced the durability layer. -/
structure LiveWorld where
  world : World
  mapFile : List UInt8
  roadFile : List UInt8
  durabilityFile : List UInt32
  cellsBatch : Option (MapFlushBatch × List (Nat × UInt8))
  roadBatch : Option (MapFlushBatch × List (Nat × UInt8))
  flushing : Bool
  synced : Bool

inductive WorldEvent
  | mutate (m : Mutation) (io : AppendOutcome)
  | takeBatches
  | writeMap (bytes : Nat)
  | writeRoad (bytes : Nat)
  /-- the system writes a word of the mapped layer back on its own -/
  | writeback (word : Nat)
  | msync
  | checkpoint
  | fail
  /-- a crash, and the next opening up to its own flush -/
  | reopen

namespace LiveWorld

def cells (s : LiveWorld) : FlushState :=
  { store := s.world.cells, file := s.mapFile, pending := s.cellsBatch }

def road (s : LiveWorld) : FlushState :=
  { store := s.world.road, file := s.roadFile, pending := s.roadBatch }

def withMaps (s : LiveWorld) (cells road : FlushState) : LiveWorld :=
  { s with
    world := { s.world with cells := cells.store, road := road.store }
    mapFile := cells.file
    roadFile := road.file
    cellsBatch := cells.pending
    roadBatch := road.pending }

/-- What a crash leaves. -/
def disk (s : LiveWorld) : Disk :=
  { map := some s.mapFile
    road := some s.roadFile
    journal := some s.world.journal
    durability := s.durabilityFile }

/-- A world right after a flush that ran through. -/
def settled (w : World) : LiveWorld :=
  { world := w.flushed
    mapFile := w.cells.serialize
    roadFile := w.road.serialize
    durabilityFile := w.durability.mmap
    cellsBatch := none
    roadBatch := none
    flushing := false
    synced := false }

/-- Mutations wait for the journal lock, which a flush holds from the time it
detaches its batches until it commits or restores them. -/
def step (f : FloatOps) (path : String) (s : LiveWorld) : WorldEvent → Option LiveWorld
  | .mutate m io =>
    if s.flushing then none else (s.world.mutate f io m).map (fun world => { s with world })
  | .takeBatches =>
    if s.flushing then none
    else some { s.withMaps s.cells.detached s.road.detached with flushing := true, synced := false }
  | .writeMap n =>
    if s.flushing ∧ s.synced = false then some (s.withMaps (s.cells.written n) s.road) else none
  | .writeRoad n =>
    if s.flushing ∧ s.synced = false ∧ s.cells.rest = [] then
      some (s.withMaps s.cells (s.road.written n))
    else none
  | .writeback i =>
    some { s with durabilityFile := s.durabilityFile.set i (s.world.durability.word i) }
  | .msync =>
    if s.flushing ∧ s.cells.rest = [] ∧ s.road.rest = [] then
      some
        { s with
          world := { s.world with durability := s.world.durability.msyncDirtyAndClear.1 }
          durabilityFile := s.world.durability.flushRanges s.durabilityFile
          synced := true }
    else none
  | .checkpoint =>
    if s.flushing ∧ s.synced then
      some
        { s.withMaps s.cells.committed s.road.committed with
          world := { s.world with journal := [] }
          flushing := false
          synced := false }
    else none
  | .fail =>
    if s.flushing then
      some { s.withMaps s.cells.restored s.road.restored with flushing := false, synced := false }
    else none
  | .reopen =>
    match World.opened path s.world.chunksW s.world.chunksH s.world.cellDefs s.disk with
    | .error _ => none
    | .ok (w, records) =>
      some
        { s with
          world := w.applyJournalRecords records
          cellsBatch := none
          roadBatch := none
          flushing := false
          synced := false }

end LiveWorld

end OpenMines
